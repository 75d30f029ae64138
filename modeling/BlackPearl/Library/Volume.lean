import BlackPearl.Library.Table

/-!
# A directory that may lose power

The entries and files of one directory, as programs see them and as they survive a power loss: the
content of a file survives once it is synchronized, and until the directory is synchronized each of its
entries may come back as it was at any time since the last synchronization.

`Possible` says what an entry may be after a power loss, its present value included, so that what holds
of every possible entry holds before and after one (`possible_powerLoss`).
-/

set_option autoImplicit false

namespace BlackPearl.Library

universe u v

/-- The content of a file, and whether it has been synchronized. -/
structure Inode (β : Type v) where
  content : List β
  synced : Bool
  deriving DecidableEq, Repr

/-- A directory. `names` are its entries, `durable` those at its last synchronization and `recent` what
was put in their places since then; `none` is an entry that was removed. -/
structure Volume (N : Type u) (β : Type v) where
  inodes : List (Inode β) := []
  names : Table N ℕ := ∅
  durable : Table N ℕ := ∅
  recent : List (N × Option ℕ) := []

namespace Volume

variable {N : Type u} {β : Type v} [DecidableEq N]

/-- The entries with another value at one name. -/
def putEntry (t : Table N ℕ) (n : N) : Option ℕ → Table N ℕ
  | some i => t.insert n i
  | none => t.erase n

/-- Change an entry. -/
def setEntry (d : Volume N β) (n : N) (entry : Option ℕ) : Volume N β :=
  { d with names := putEntry d.names n entry, recent := (n, entry) :: d.recent }

/-- Create an empty file. -/
def create (d : Volume N β) (n : N) : Volume N β :=
  { d.setEntry n (some d.inodes.length) with inodes := d.inodes ++ [⟨[], false⟩] }

/-- Write at the end of a file. -/
def append (d : Volume N β) (i : ℕ) (bytes : List β) : Volume N β :=
  { d with inodes := d.inodes.modify i fun n => ⟨n.content ++ bytes, false⟩ }

/-- Synchronize a file. -/
def sync (d : Volume N β) (i : ℕ) : Volume N β :=
  { d with inodes := d.inodes.modify i fun n => { n with synced := true } }

/-- Give a file another name, in the place of what has that name. -/
def rename (d : Volume N β) (n m : N) : Volume N β :=
  (d.setEntry n none).setEntry m (d.names.lookup n)

/-- Remove an entry. -/
def remove (d : Volume N β) (n : N) : Volume N β := d.setEntry n none

/-- Synchronize the directory. -/
def syncDirectory (d : Volume N β) : Volume N β := { d with durable := d.names, recent := [] }

/-- What a power loss leaves: `chosen` are the places in `recent` of the changes that are found again,
in any order, and `left` is what is found in the files that were not synchronized. -/
def powerLoss (d : Volume N β) (chosen : List ℕ) (left : ℕ → List β) : Volume N β :=
  let found := (chosen.filterMap fun k => d.recent[k]?).foldl
    (fun t c => putEntry t c.1 c.2) d.durable
  { inodes := d.inodes.mapIdx fun i n => if n.synced then n else ⟨left i, true⟩
    names := found
    durable := found
    recent := [] }

/-- What the entry of a name may be after a power loss. -/
def Possible (d : Volume N β) (n : N) (entry : Option ℕ) : Prop :=
  entry = d.durable.lookup n ∨ (n, entry) ∈ d.recent

theorem lookup_putEntry (t : Table N ℕ) (n m : N) (entry : Option ℕ) :
    (putEntry t n entry).lookup m = if m = n then entry else t.lookup m := by
  cases entry with
  | none => exact Table.lookup_erase t n m
  | some i => exact Table.lookup_insert t n m i

/-! ## Possible entries -/

theorem possible_setEntry {d : Volume N β} {n m : N} {entry new : Option ℕ} :
    (d.setEntry n new).Possible m entry ↔ d.Possible m entry ∨ m = n ∧ entry = new := by
  simp only [Possible, setEntry, List.mem_cons, Prod.mk.injEq]
  rw [or_left_comm, or_comm]

theorem possible_create {d : Volume N β} {n m : N} {entry : Option ℕ} :
    (d.create n).Possible m entry ↔ d.Possible m entry ∨ m = n ∧ entry = some d.inodes.length := by
  show (d.setEntry n _).Possible m entry ↔ _
  exact possible_setEntry

theorem possible_rename {d : Volume N β} {n m k : N} {entry : Option ℕ} :
    (d.rename n m).Possible k entry ↔
      (d.Possible k entry ∨ k = n ∧ entry = none) ∨ k = m ∧ entry = d.names.lookup n := by
  rw [rename, possible_setEntry, possible_setEntry]

theorem possible_syncDirectory {d : Volume N β} {n : N} {entry : Option ℕ} :
    d.syncDirectory.Possible n entry ↔ entry = d.names.lookup n := by
  simp [Possible, syncDirectory]

/-- Entries that are taken from the changes in turn are entries there were. -/
theorem lookup_foldl_putEntry {n : N} {recent : List (N × Option ℕ)} {chosen : List (N × Option ℕ)}
    (hchosen : ∀ c ∈ chosen, c ∈ recent) : ∀ {t : Table N ℕ},
    (chosen.foldl (fun t c => putEntry t c.1 c.2) t).lookup n = t.lookup n ∨
      (n, (chosen.foldl (fun t c => putEntry t c.1 c.2) t).lookup n) ∈ recent := by
  induction chosen with
  | nil => exact Or.inl rfl
  | cons c chosen ih =>
    intro t
    have hrest := ih (fun c' hc' => hchosen c' (List.mem_cons_of_mem _ hc')) (t := putEntry t c.1 c.2)
    rw [List.foldl_cons]
    rcases hrest with heq | hmem
    · rw [heq, lookup_putEntry]
      split
      · next hn =>
        -- the last change of this name decides
        subst hn
        exact Or.inr (hchosen c List.mem_cons_self)
      · exact Or.inl rfl
    · exact Or.inr hmem

/-- After a power loss every possible entry was possible before. -/
theorem possible_powerLoss {d : Volume N β} {chosen : List ℕ} {left : ℕ → List β} {n : N}
    {entry : Option ℕ} (h : (d.powerLoss chosen left).Possible n entry) : d.Possible n entry := by
  have hrecent : (d.powerLoss chosen left).recent = [] := rfl
  rw [Possible, hrecent] at h
  obtain rfl : entry = _ := h.resolve_right List.not_mem_nil
  refine lookup_foldl_putEntry (fun c hc => ?_)
  obtain ⟨k, -, hk⟩ := List.mem_filterMap.1 hc
  exact List.mem_of_getElem? hk

/-- The entries as they are are possible. -/
def Current (d : Volume N β) : Prop := ∀ n, d.Possible n (d.names.lookup n)

theorem Current.setEntry {d : Volume N β} (h : d.Current) (n : N) (entry : Option ℕ) :
    (d.setEntry n entry).Current := by
  intro m
  rw [possible_setEntry]
  have hm : (d.setEntry n entry).names.lookup m = if m = n then entry else d.names.lookup m :=
    lookup_putEntry d.names n m entry
  rw [hm]
  by_cases heq : m = n
  · rw [if_pos heq]
    exact Or.inr ⟨heq, rfl⟩
  · rw [if_neg heq]
    exact Or.inl (h m)

theorem current_synced {d : Volume N β} (h : ∀ n, d.names.lookup n = d.durable.lookup n) : d.Current :=
  fun n => Or.inl (h n)

/-! ## Contents -/

omit [DecidableEq N] in
theorem inode_append {d : Volume N β} {i j : ℕ} {bytes : List β} :
    (d.append i bytes).inodes[j]? =
      (d.inodes[j]?).map fun n => if i = j then ⟨n.content ++ bytes, false⟩ else n := by
  rw [append, List.getElem?_modify]
  split <;> simp

omit [DecidableEq N] in
theorem inode_sync {d : Volume N β} {i j : ℕ} :
    (d.sync i).inodes[j]? =
      (d.inodes[j]?).map fun n => if i = j then { n with synced := true } else n := by
  rw [sync, List.getElem?_modify]
  split <;> simp

/-- A power loss spares the files that were synchronized. -/
theorem inode_powerLoss {d : Volume N β} {chosen : List ℕ} {left : ℕ → List β} {i : ℕ} {n : Inode β}
    (h : d.inodes[i]? = some n) (hsynced : n.synced = true) :
    (d.powerLoss chosen left).inodes[i]? = some n := by
  show (d.inodes.mapIdx _)[i]? = _
  rw [List.getElem?_mapIdx, h, Option.map_some, if_pos hsynced]

end Volume

end BlackPearl.Library
