import Mathlib.Data.List.AList
import Mathlib.Algebra.Order.BigOperators.Group.List
import Mathlib.Algebra.Order.Group.Int
import Mathlib.Algebra.BigOperators.Group.List.Basic
import Mathlib.Tactic.Linarith
import Mathlib.Tactic.Ring

/-!
# Finite tables

A `Table K V` is an association list with distinct keys (Mathlib's `AList` at a constant family).
This file adds what bookkeeping proofs about hash maps need: lookups after an update as one
conditional, the sum of an integer weight over all entries (`total`) together with its change under
`insert` and `erase`, updates of all values at once (`mapValues`), and the entry of least rank among
those a predicate admits (`selectMin`).
-/

set_option autoImplicit false

namespace BlackPearl.Library

universe u v

/-- A finite map with distinct keys. -/
abbrev Table (K : Type u) (V : Type v) : Type (max u v) := AList (fun _ : K => V)

/-- The order of the integers, for code that takes the least of several. -/
@[reducible] def integerOrder : Preorder ℤ := Int.instLinearOrder.toPreorder

namespace Table

variable {K : Type u} {V : Type v} [DecidableEq K]

/-! ## Lookups -/

theorem lookup_insert (m : Table K V) (k k' : K) (v : V) :
    (m.insert k v).lookup k' = if k' = k then some v else m.lookup k' := by
  by_cases h : k' = k
  · subst h
    simp
  · rw [if_neg h, AList.lookup_insert_ne h]

theorem lookup_erase (m : Table K V) (k k' : K) :
    (m.erase k).lookup k' = if k' = k then none else m.lookup k' := by
  by_cases h : k' = k
  · subst h
    simp
  · rw [if_neg h, AList.lookup_erase_ne h]

theorem lookup_eq_some_iff_mem (m : Table K V) (k : K) (v : V) :
    m.lookup k = some v ↔ (⟨k, v⟩ : (_ : K) × V) ∈ m.entries :=
  AList.mem_lookup_iff

theorem mem_of_lookup {m : Table K V} {k : K} {v : V} (h : m.lookup k = some v) : k ∈ m := by
  rw [← AList.lookup_isSome, h]
  rfl

theorem lookup_of_mem {m : Table K V} {k : K} (h : k ∈ m) : ∃ v, m.lookup k = some v :=
  Option.isSome_iff_exists.1 (AList.lookup_isSome.2 h)

/-- Reinserting the value that is present changes no lookup. -/
theorem lookup_insert_self {m : Table K V} {k : K} {v : V} (h : m.lookup k = some v) (k' : K) :
    (m.insert k v).lookup k' = m.lookup k' := by
  rw [lookup_insert]
  split
  · next hk => rw [hk, h]
  · rfl

/-- Erasing a key that is present leaves fewer entries. -/
theorem length_erase_lt {m : Table K V} {k : K} {v : V} (h : m.lookup k = some v) :
    (m.erase k).entries.length < m.entries.length := by
  have hmem : k ∈ m.entries.keys := mem_of_lookup h
  have hkeys : (m.entries.kerase k).keys.length = m.entries.keys.length - 1 := by
    rw [List.keys_kerase, List.length_erase_of_mem hmem]
  have hpos : 0 < m.entries.keys.length := List.length_pos_of_mem hmem
  simp only [List.keys, List.length_map] at hkeys hpos
  show (m.entries.kerase k).length < _
  omega

/-! ## Totals -/

omit [DecidableEq K] in
/-- The sum of a weight over all entries. -/
def total (f : K → V → ℤ) (m : Table K V) : ℤ := (m.entries.map fun e => f e.1 e.2).sum

omit [DecidableEq K] in
@[simp] theorem total_empty (f : K → V → ℤ) : total f (∅ : Table K V) = 0 := rfl

private theorem sum_kerase (f : K → V → ℤ) (k : K) (v : V) :
    ∀ l : List ((_ : K) × V), l.dlookup k = some v →
      (l.map fun e => f e.1 e.2).sum = f k v + ((l.kerase k).map fun e => f e.1 e.2).sum
  | [], h => by simp at h
  | ⟨k', v'⟩ :: l, h => by
    by_cases hk : k = k'
    · subst hk
      simp only [List.dlookup_cons_eq, Option.some.injEq] at h
      subst h
      simp
    · rw [List.dlookup_cons_ne l ⟨k', v'⟩ hk] at h
      have herase : List.kerase k (⟨k', v'⟩ :: l) = ⟨k', v'⟩ :: l.kerase k :=
        List.kerase_cons_ne hk
      rw [herase, List.map_cons, List.sum_cons, List.map_cons, List.sum_cons,
        sum_kerase f k v l h]
      ring

/-- Removing an entry takes its weight away. -/
theorem total_erase {f : K → V → ℤ} {m : Table K V} {k : K} {v : V} (h : m.lookup k = some v) :
    total f (m.erase k) = total f m - f k v := by
  have hsum := sum_kerase f k v m.entries h
  have herase : (m.erase k).entries = m.entries.kerase k := rfl
  simp only [total, herase]
  omega

/-- Adding a new key adds its weight. -/
theorem total_insert_of_notMem {f : K → V → ℤ} {m : Table K V} {k : K} {v : V}
    (h : m.lookup k = none) : total f (m.insert k v) = total f m + f k v := by
  rw [total, AList.entries_insert_of_notMem (AList.lookup_eq_none.1 h), List.map_cons,
    List.sum_cons, total, add_comm]

/-- Overwriting a key replaces its weight. -/
theorem total_insert_of_lookup {f : K → V → ℤ} {m : Table K V} {k : K} {v w : V}
    (h : m.lookup k = some v) : total f (m.insert k w) = total f m - f k v + f k w := by
  have hsum := sum_kerase f k v m.entries h
  rw [total, AList.entries_insert, List.map_cons, List.sum_cons, total, hsum]
  ring

omit [DecidableEq K] in
theorem total_nonneg {f : K → V → ℤ} {m : Table K V}
    (h : ∀ k v, (⟨k, v⟩ : (_ : K) × V) ∈ m.entries → 0 ≤ f k v) : 0 ≤ total f m := by
  refine List.sum_nonneg fun x hx => ?_
  obtain ⟨⟨k, v⟩, he, rfl⟩ := List.mem_map.1 hx
  exact h k v he

omit [DecidableEq K] in
theorem total_congr {f g : K → V → ℤ} {m : Table K V}
    (h : ∀ k v, (⟨k, v⟩ : (_ : K) × V) ∈ m.entries → f k v = g k v) : total f m = total g m := by
  unfold total
  congr 1
  exact List.map_congr_left fun e he => h e.1 e.2 he

/-- One entry weighs at most the total when no weight is negative. -/
theorem le_total {f : K → V → ℤ} {m : Table K V} {k : K} {v : V}
    (h : ∀ k v, (⟨k, v⟩ : (_ : K) × V) ∈ m.entries → 0 ≤ f k v) (hk : m.lookup k = some v) :
    f k v ≤ total f m := by
  have hrest : 0 ≤ total f (m.erase k) := total_nonneg fun k' v' he =>
    h k' v' ((List.kerase_sublist k m.entries).subset he)
  rw [total_erase hk] at hrest
  omega

/-- A table with fewer entries weighs no more when no weight is negative. -/
theorem total_mono {f : K → V → ℤ} {m m' : Table K V} (h : ∀ k v, 0 ≤ f k v)
    (hsub : ∀ k v, m'.lookup k = some v → m.lookup k = some v) : total f m' ≤ total f m := by
  have hnodup : m'.entries.Nodup := m'.nodupKeys.nodup
  have hsubset : m'.entries ⊆ m.entries := by
    rintro ⟨k, v⟩ he
    exact (lookup_eq_some_iff_mem m k v).1 (hsub k v ((lookup_eq_some_iff_mem m' k v).2 he))
  -- the entries of the smaller table are, up to their order, a sublist of the others
  obtain ⟨l, hperm, hl⟩ := List.subperm_of_subset hnodup hsubset
  calc total f m' = (l.map fun e => f e.1 e.2).sum := ((hperm.map _).sum_eq).symm
    _ ≤ total f m := by
      apply (hl.map _).sum_le_sum
      intro x hx
      obtain ⟨e, -, rfl⟩ := List.mem_map.1 hx
      exact h e.1 e.2

omit [DecidableEq K] in
/-- Without entries there is no weight. -/
theorem total_eq_zero {f : K → V → ℤ} {m : Table K V}
    (h : ∀ k v, (⟨k, v⟩ : (_ : K) × V) ∈ m.entries → f k v = 0) : total f m = 0 := by
  apply List.sum_eq_zero
  intro x hx
  obtain ⟨e, he, rfl⟩ := List.mem_map.1 hx
  exact h e.1 e.2 he

/-! ## Updating every value -/

omit [DecidableEq K] in
/-- Apply `g` to every value, keeping the keys. -/
def mapValues (g : K → V → V) (m : Table K V) : Table K V where
  entries := m.entries.map fun e => ⟨e.1, g e.1 e.2⟩
  nodupKeys := by
    have hkeys : (m.entries.map fun e => (⟨e.1, g e.1 e.2⟩ : (_ : K) × V)).keys = m.entries.keys := by
      simp [List.keys]
    show (m.entries.map fun e => (⟨e.1, g e.1 e.2⟩ : (_ : K) × V)).keys.Nodup
    rw [hkeys]
    exact m.nodupKeys

private theorem dlookup_map (g : K → V → V) (k : K) (l : List ((_ : K) × V)) :
    (l.map fun e => (⟨e.1, g e.1 e.2⟩ : (_ : K) × V)).dlookup k = (l.dlookup k).map (g k) := by
  induction l with
  | nil => rfl
  | cons e l ih =>
    obtain ⟨k', v⟩ := e
    by_cases hk : k' = k
    · subst hk
      simp
    · rw [List.map_cons, List.dlookup_cons_ne _ _ (Ne.symm hk), List.dlookup_cons_ne _ _ (Ne.symm hk), ih]

theorem lookup_mapValues (g : K → V → V) (m : Table K V) (k : K) :
    (mapValues g m).lookup k = (m.lookup k).map (g k) :=
  dlookup_map g k m.entries

omit [DecidableEq K] in
theorem total_mapValues (f : K → V → ℤ) (g : K → V → V) (m : Table K V) :
    total f (mapValues g m) = total (fun k v => f k (g k v)) m := by
  simp [total, mapValues, Function.comp_def]

/-! ## The entry of least rank -/

omit [DecidableEq K] in
/-- Scan the entries, keeping the first one of least rank among those `p` admits. -/
def selectMinAux (p : K → V → Bool) (rank : V → ℕ) :
    Option (K × V) → List ((_ : K) × V) → Option (K × V)
  | best, [] => best
  | best, e :: rest =>
      if p e.1 e.2 then
        match best with
        | none => selectMinAux p rank (some (e.1, e.2)) rest
        | some b =>
            if rank e.2 < rank b.2 then selectMinAux p rank (some (e.1, e.2)) rest
            else selectMinAux p rank (some b) rest
      else selectMinAux p rank best rest

omit [DecidableEq K] in
/-- The first entry of least rank among those `p` admits. -/
def selectMin (p : K → V → Bool) (rank : V → ℕ) (m : Table K V) : Option (K × V) :=
  selectMinAux p rank none m.entries

omit [DecidableEq K] in
private theorem selectMinAux_some (p : K → V → Bool) (rank : V → ℕ) :
    ∀ (l : List ((_ : K) × V)) (b : K × V), ∃ c, selectMinAux p rank (some b) l = some c ∧
      (c = b ∨ (⟨c.1, c.2⟩ : (_ : K) × V) ∈ l ∧ p c.1 c.2 = true) ∧ rank c.2 ≤ rank b.2 ∧
      ∀ e ∈ l, p e.1 e.2 = true → rank c.2 ≤ rank e.2
  | [], b => ⟨b, rfl, Or.inl rfl, le_refl _, by simp⟩
  | e :: l, b => by
    unfold selectMinAux
    by_cases hp : p e.1 e.2 = true
    · by_cases hlt : rank e.2 < rank b.2
      · obtain ⟨c, hc, hmem, hle, hall⟩ := selectMinAux_some p rank l (e.1, e.2)
        refine ⟨c, by simp [hp, hlt, hc], ?_, by simp only at hle; omega, ?_⟩
        · rcases hmem with rfl | ⟨hm, hpc⟩
          · exact Or.inr ⟨List.mem_cons_self, hp⟩
          · exact Or.inr ⟨List.mem_cons_of_mem _ hm, hpc⟩
        · intro e' he' hp'
          rcases List.mem_cons.1 he' with rfl | he'
          · exact hle
          · exact hall e' he' hp'
      · obtain ⟨c, hc, hmem, hle, hall⟩ := selectMinAux_some p rank l b
        refine ⟨c, by simp [hp, hlt, hc], ?_, hle, ?_⟩
        · rcases hmem with rfl | ⟨hm, hpc⟩
          · exact Or.inl rfl
          · exact Or.inr ⟨List.mem_cons_of_mem _ hm, hpc⟩
        · intro e' he' hp'
          rcases List.mem_cons.1 he' with rfl | he'
          · omega
          · exact hall e' he' hp'
    · obtain ⟨c, hc, hmem, hle, hall⟩ := selectMinAux_some p rank l b
      refine ⟨c, by simp [hp, hc], ?_, hle, ?_⟩
      · rcases hmem with rfl | ⟨hm, hpc⟩
        · exact Or.inl rfl
        · exact Or.inr ⟨List.mem_cons_of_mem _ hm, hpc⟩
      · intro e' he' hp'
        rcases List.mem_cons.1 he' with rfl | he'
        · exact absurd hp' hp
        · exact hall e' he' hp'

omit [DecidableEq K] in
private theorem selectMinAux_none (p : K → V → Bool) (rank : V → ℕ) :
    ∀ l : List ((_ : K) × V),
      (selectMinAux p rank none l = none ∧ ∀ e ∈ l, p e.1 e.2 = false) ∨
      ∃ c, selectMinAux p rank none l = some c ∧ (⟨c.1, c.2⟩ : (_ : K) × V) ∈ l ∧
        p c.1 c.2 = true ∧ ∀ e ∈ l, p e.1 e.2 = true → rank c.2 ≤ rank e.2
  | [] => Or.inl ⟨rfl, by simp⟩
  | e :: l => by
    unfold selectMinAux
    by_cases hp : p e.1 e.2 = true
    · obtain ⟨c, hc, hmem, hle, hall⟩ := selectMinAux_some p rank l (e.1, e.2)
      refine Or.inr ⟨c, by simp [hp, hc], ?_, ?_, ?_⟩
      · rcases hmem with rfl | ⟨hm, -⟩
        · exact List.mem_cons_self
        · exact List.mem_cons_of_mem _ hm
      · rcases hmem with rfl | ⟨-, hpc⟩
        · exact hp
        · exact hpc
      · intro e' he' hp'
        rcases List.mem_cons.1 he' with rfl | he'
        · exact hle
        · exact hall e' he' hp'
    · have hpf : p e.1 e.2 = false := by simpa using hp
      rcases selectMinAux_none p rank l with ⟨hnone, hall⟩ | ⟨c, hc, hm, hpc, hall⟩
      · refine Or.inl ⟨by simp [hpf, hnone], ?_⟩
        intro e' he'
        rcases List.mem_cons.1 he' with rfl | he'
        · exact hpf
        · exact hall e' he'
      · refine Or.inr ⟨c, by simp [hpf, hc], List.mem_cons_of_mem _ hm, hpc, ?_⟩
        intro e' he' hp'
        rcases List.mem_cons.1 he' with rfl | he'
        · exact absurd hp' hp
        · exact hall e' he' hp'

/-- What `selectMin` returns is an admitted entry of least rank. -/
theorem selectMin_eq_some {p : K → V → Bool} {rank : V → ℕ} {m : Table K V} {k : K} {v : V}
    (h : selectMin p rank m = some (k, v)) :
    m.lookup k = some v ∧ p k v = true ∧
      ∀ k' v', m.lookup k' = some v' → p k' v' = true → rank v ≤ rank v' := by
  rcases selectMinAux_none p rank m.entries with ⟨hnone, -⟩ | ⟨c, hc, hm, hpc, hall⟩
  · rw [selectMin, hnone] at h
    exact absurd h (by simp)
  · rw [selectMin, hc, Option.some.injEq] at h
    subst h
    refine ⟨(lookup_eq_some_iff_mem m _ _).2 hm, hpc, fun k' v' hk' hp' => ?_⟩
    exact hall ⟨k', v'⟩ ((lookup_eq_some_iff_mem m _ _).1 hk') hp'

/-- `selectMin` finds nothing exactly when no entry is admitted. -/
theorem selectMin_eq_none {p : K → V → Bool} {rank : V → ℕ} {m : Table K V} :
    selectMin p rank m = none ↔ ∀ k v, m.lookup k = some v → p k v = false := by
  rcases selectMinAux_none p rank m.entries with ⟨hnone, hall⟩ | ⟨c, hc, hm, hpc, -⟩
  · refine ⟨fun _ k v hk => ?_, fun _ => hnone⟩
    exact hall ⟨k, v⟩ ((lookup_eq_some_iff_mem m _ _).1 hk)
  · refine ⟨fun h => ?_, fun h => ?_⟩
    · rw [selectMin, hc] at h
      exact absurd h (by simp)
    · have := h c.1 c.2 ((lookup_eq_some_iff_mem m _ _).2 hm)
      rw [this] at hpc
      exact absurd hpc (by simp)

omit [DecidableEq K] in
/-- Where the admitted entries have different ranks, the order of the scan does not matter. -/
theorem selectMinAux_perm {p : K → V → Bool} {rank : V → ℕ} {l l' : List ((_ : K) × V)}
    (hperm : l.Perm l') (hinj : ∀ e ∈ l, ∀ e' ∈ l, p e.1 e.2 = true → p e'.1 e'.2 = true →
      rank e.2 = rank e'.2 → e = e') :
    selectMinAux p rank none l = selectMinAux p rank none l' := by
  rcases selectMinAux_none p rank l with ⟨hnone, hall⟩ | ⟨c, hc, hm, hpc, hall⟩ <;>
    rcases selectMinAux_none p rank l' with ⟨hnone', hall'⟩ | ⟨c', hc', hm', hpc', hall'⟩
  · rw [hnone, hnone']
  · rw [hall _ (hperm.mem_iff.2 hm')] at hpc'
    cases hpc'
  · rw [hall' _ (hperm.mem_iff.1 hm)] at hpc
    cases hpc
  · -- each of the two has no greater rank than the other
    have hle := hall _ (hperm.mem_iff.2 hm') hpc'
    have hle' := hall' _ (hperm.mem_iff.1 hm) hpc
    have hsame := hinj _ hm _ (hperm.mem_iff.2 hm') hpc hpc' (Nat.le_antisymm hle hle')
    rw [Sigma.mk.injEq, heq_eq_eq] at hsame
    rw [hc, hc', Prod.ext hsame.1 hsame.2]

end Table

end BlackPearl.Library
