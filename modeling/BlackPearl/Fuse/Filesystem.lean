import BlackPearl.Library.Words
import BlackPearl.Nfs.Walk

/-!
# PearlFS

`internal/pearlfs/filesystem.go`: the same catalog as a tree of FUSE inodes. `New` checks the paths and
`OnAdd` builds the tree medium by medium, from a sorted list and with its own table of directories.

It refuses the catalogs that PearlNFS refuses, with the same words, and of the others it shows the same
tree (`filesystems_agree`).
-/

set_option autoImplicit false

namespace BlackPearl.Fuse

open BlackPearl.Library BlackPearl.Library.Path BlackPearl.Setup BlackPearl.Catalog BlackPearl.Nfs

/-! ## Inodes -/

/-- The offset basis and the prime of the 64-bit FNV-1a hash. -/
def fnvOffset : UInt64 := 14695981039346656037

def fnvPrime : UInt64 := 1099511628211

/-- `inodeFor`. The numbers 0 and 1 are kept for no inode and the root. -/
def inodeFor (virtualPath : ByteText) : UInt64 :=
  let value := (ByteText.bytes virtualPath).foldl
    (fun sum byte => (sum ^^^ UInt64.ofNat byte) * fnvPrime) fnvOffset
  if value < 2 then value + 2 else value

/-- A persistent inode. -/
inductive Inode
  | directory (ino : UInt64)
  | file (media : Media) (ino : UInt64)
  deriving DecidableEq

/-- What `OnAdd` has built: the map of directories by path, and the children of the inodes, each under
the names that lead to it. -/
structure Inodes where
  directories : Table ByteText Unit
  children : Table (List ByteText) Inode

def Inodes.empty : Inodes := ⟨∅, ∅⟩

/-- `AddChild` without overwriting. -/
def Inodes.addChild (t : Inodes) (path : List ByteText) (child : Inode) : Inodes :=
  if t.children.lookup path = none then { t with children := t.children.insert path child } else t

/-- One directory of the loop of `OnAdd`. -/
def Inodes.addDirectory (t : Inodes) (path : List ByteText) : Inodes :=
  let directoryPath := ofSegments path
  if t.directories.lookup directoryPath = none then
    let t := t.addChild path (.directory (inodeFor directoryPath))
    { t with directories := t.directories.insert directoryPath () }
  else t

/-- The directories above the last segment, from those above on. -/
def Inodes.addDirectories (t : Inodes) (above : List ByteText) : List ByteText → Inodes
  | [] => t
  | [_] => t
  | part :: rest => (t.addDirectory (above ++ [part])).addDirectories (above ++ [part]) rest

/-- One round of `OnAdd`. -/
def Inodes.addMedia (t : Inodes) (media : Media) : Inodes :=
  let parts := segments media.virtualPath
  (t.addDirectories [] parts).addChild parts (.file media (inodeFor media.virtualPath))

/-- `Root`, with the media of its catalog. -/
structure Root where
  media : List Media

/-- `OnAdd`. -/
def Root.onAdd (r : Root) : Inodes := r.media.foldl Inodes.addMedia .empty

/-- `virtualPaths`. -/
def Root.virtualPaths (r : Root) : List ByteText := r.media.map Media.virtualPath

section New

variable [TextTables]

/-- The loop of `New`. -/
def checkPaths (seen : Table ByteText Unit) : List Media → Checked Unit
  | [] => return ()
  | media :: items => do
      validateVirtualPath media.virtualPath
      require (seen.lookup media.virtualPath = none)
        ("duplicate virtual path: " ++ ByteText.quote media.virtualPath)
      checkPaths (seen.insert media.virtualPath ()) items

/-- `New`, given the media that the catalog lists. The paths are distinct when they are sorted, so that
any sorting procedure gives this list. -/
def newRoot (items : Checked (List Media)) : Checked Root := do
  let items ← within "list catalog for PearlFS" items
  checkPaths ∅ items
  return ⟨items.insertionSort fun left right => ByteText.le left.virtualPath right.virtualPath⟩

end New

/-! ## What a path leads to -/

/-- A directory or a file. -/
inductive Kind
  | directory
  | file (media : Media)
  deriving DecidableEq

def Inode.kind : Inode → Kind
  | .directory _ => .directory
  | .file media _ => .file media

/-- What the names lead to under a root; without names it is the root itself. -/
def Root.kind (r : Root) (l : List ByteText) : Option Kind :=
  if l = [] then some .directory else (r.onAdd.children.lookup l).map Inode.kind

/-- What they lead to in PearlNFS. -/
def nfsKind (f : Filesystem) (l : List ByteText) : Option Kind :=
  (f.entries.lookup (ofSegments l)).map fun e =>
    match e.media with
    | none => .directory
    | some media => .file media

/-- The number of an inode is not one that FUSE keeps for itself. -/
theorem two_le_inodeFor (virtualPath : ByteText) : 2 ≤ inodeFor virtualPath := by
  unfold inodeFor
  generalize (ByteText.bytes virtualPath).foldl _ _ = value
  dsimp only
  split
  · next h =>
    have hsmall : value.toNat < 2 := h
    show (2 : UInt64).toNat ≤ (value + 2).toNat
    rw [UInt64.toNat_add]
    have htwo : (2 : UInt64).toNat = 2 := rfl
    omega
  · next h => exact UInt64.not_lt.1 h

/-! ## The tree that is built -/

/-- The inodes are those of the directories `D` and of the files `F`. -/
structure Holds (D : List ByteText → Prop) (F : List Media) (t : Inodes) : Prop where
  plain : ∀ d, D d → d ≠ [] ∧ ∀ s ∈ d, Plain s
  known : ∀ d, (∀ s ∈ d, Plain s) → (t.directories.lookup (ofSegments d) ≠ none ↔ D d)
  directory : ∀ d, D d → t.children.lookup d = some (.directory (inodeFor (ofSegments d)))
  file : ∀ m ∈ F, t.children.lookup (parts m) = some (.file m (inodeFor m.virtualPath))
  covered : ∀ d, t.children.lookup d ≠ none → D d ∨ ∃ m ∈ F, parts m = d

theorem holds_empty : Holds (fun _ => False) [] .empty where
  plain := fun _ h => h.elim
  known := by
    intro d _
    simp [Inodes.empty]
  directory := fun _ h => h.elim
  file := by
    intro m hm
    cases hm
  covered := by
    intro d h
    exact absurd (AList.lookup_empty d) h

theorem Holds.congr {D D' : List ByteText → Prop} {F : List Media} {t : Inodes} (h : Holds D F t)
    (hD : ∀ d, D d ↔ D' d) : Holds D' F t := by
  obtain rfl : D = D' := funext fun d => propext (hD d)
  exact h

/-- What is at a path neither of a directory nor of a file is not there. -/
theorem Holds.absent {D : List ByteText → Prop} {F : List Media} {t : Inodes} (h : Holds D F t)
    {d : List ByteText} (hD : ¬ D d) (hF : ∀ m ∈ F, parts m ≠ d) : t.children.lookup d = none := by
  by_contra hne
  rcases h.covered d hne with hd | ⟨m, hm, heq⟩
  · exact hD hd
  · exact hF m hm heq

/-- One round of the loop over directories adds its directory, if it is new. -/
theorem Holds.addDirectory {D : List ByteText → Prop} {F : List Media} {t : Inodes} (h : Holds D F t)
    {d : List ByteText} (hne : d ≠ []) (hd : ∀ s ∈ d, Plain s) (hF : ∀ m ∈ F, parts m ≠ d) :
    Holds (fun l => D l ∨ l = d) F (t.addDirectory d) := by
  unfold Inodes.addDirectory
  by_cases hD : D d
  · have hthere : ¬ t.directories.lookup (ofSegments d) = none := (h.known d hd).2 hD
    rw [if_neg hthere]
    apply h.congr
    intro l
    constructor
    · exact Or.inl
    · rintro (hl | rfl)
      · exact hl
      · exact hD
  · have hnew : t.directories.lookup (ofSegments d) = none := by
      by_contra hthere
      exact hD ((h.known d hd).1 hthere)
    have hfree := h.absent hD hF
    simp only [if_pos hnew, Inodes.addChild, if_pos hfree]
    constructor
    · rintro l (hl | rfl)
      · exact h.plain l hl
      · exact ⟨hne, hd⟩
    · intro l hl
      rw [Table.lookup_insert]
      split
      · next heq =>
        simp only [ne_eq, reduceCtorEq, not_false_eq_true, true_iff]
        exact Or.inr (ofSegments_inj hl hd heq)
      · next hother =>
        rw [h.known l hl, or_iff_left]
        rintro rfl
        exact hother rfl
    · rintro l hl
      rw [Table.lookup_insert]
      split
      · next heq => rw [heq]
      · next hother => exact h.directory l (hl.resolve_right hother)
    · intro m hm
      rw [Table.lookup_insert, if_neg (hF m hm)]
      exact h.file m hm
    · intro l hl
      rw [Table.lookup_insert] at hl
      split at hl
      · next heq => exact Or.inl (Or.inr heq)
      · exact (h.covered l hl).imp_left Or.inl

/-- The loop adds the paths between. -/
theorem Holds.addDirectories {F : List Media} {rest : List ByteText} :
    ∀ {D : List ByteText → Prop} {t : Inodes} {above : List ByteText}, Holds D F t →
      (∀ s ∈ above ++ rest, Plain s) →
      (∀ m ∈ F, ∀ l, l <+: above ++ rest → l ≠ above ++ rest → parts m ≠ l) →
      Holds (fun l => D l ∨ above <+: l ∧ l ≠ above ∧ l <+: above ++ rest ∧ l ≠ above ++ rest) F
        (t.addDirectories above rest) := by
  induction rest with
  | nil =>
    intro D t above h _ _
    apply h.congr
    intro l
    rw [List.append_nil]
    constructor
    · exact Or.inl
    · rintro (hl | ⟨habove, -, hl, hne'⟩)
      · exact hl
      · exact absurd (hl.eq_of_length (Nat.le_antisymm hl.length_le habove.length_le)) hne'
  | cons part rest ih =>
    intro D t above h hplain hfree
    have hbetween := fun l => @eq_or_isPrefix_of_between above l rest part
    cases rest with
    | nil =>
      apply h.congr
      intro l
      constructor
      · exact Or.inl
      · rintro (hl | ⟨habove, hne, hl, hne'⟩)
        · exact hl
        · rcases hbetween l habove hl with rfl | hmore
          · exact absurd rfl hne
          · exact absurd (hl.eq_of_length (Nat.le_antisymm hl.length_le hmore.length_le)) hne'
    | cons next rest =>
      have hsplit : above ++ [part] ++ next :: rest = above ++ part :: next :: rest := by simp
      have hbelow : above ++ [part] <+: above ++ part :: next :: rest := by
        rw [← hsplit]
        exact List.prefix_append _ _
      have hproper : above ++ [part] ≠ above ++ part :: next :: rest := by simp
      have hstep := h.addDirectory (d := above ++ [part]) (by simp)
        (fun s hs => hplain s (hbelow.subset hs)) fun m hm => hfree m hm _ hbelow hproper
      have hrest := ih hstep (by rw [hsplit]; exact hplain) (by rw [hsplit]; exact hfree)
      rw [hsplit] at hrest
      apply hrest.congr
      intro l
      constructor
      · rintro ((hl | rfl) | ⟨habove, -, hl, hne⟩)
        · exact Or.inl hl
        · exact Or.inr ⟨List.prefix_append _ _, by simp, hbelow, hproper⟩
        · refine Or.inr ⟨(List.prefix_append _ _).trans habove, ?_, hl, hne⟩
          rintro rfl
          have := habove.length_le
          simp at this
      · rintro (hl | ⟨habove, hne, hl, hne'⟩)
        · exact Or.inl (Or.inl hl)
        · rcases hbetween l habove hl with rfl | hmore
          · exact absurd rfl hne
          · by_cases heq : l = above ++ [part]
            · exact Or.inl (Or.inr heq)
            · exact Or.inr ⟨hmore, heq, hl, hne'⟩

/-- The paths of the directories above some media, without the root. -/
def Above (F : List Media) (d : List ByteText) : Prop := d ≠ [] ∧ ∃ m ∈ F, d <+: parts m ∧ d ≠ parts m

/-- A medium is not at the path of a directory. -/
theorem not_above {F : List Media} {l : List ByteText} (hplaced : ∀ m ∈ F, Placed (parts m))
    (hl : Placed l) : ¬ Above F l := by
  rintro ⟨-, m, hm, hle, hne⟩
  exact hne (hl.eq_of_isPrefix (hplaced m hm) hle)

/-- A medium at a new path is added. -/
theorem Holds.addMedia {F : List Media} {t : Inodes} (h : Holds (Above F) F t) {m : Media}
    (hplaced : ∀ m' ∈ F, Placed (parts m')) (hm : Placed (parts m))
    (hnew : ∀ m' ∈ F, parts m' ≠ parts m) : Holds (Above (m :: F)) (m :: F) (t.addMedia m) := by
  have hdirectories := @Holds.addDirectories _ (parts m) _ _ [] h hm.plain
    (fun m' hm' l hl hne heq => hne (heq ▸ (hplaced m' hm').eq_of_isPrefix hm (heq ▸ hl)))
  have habove : Holds (Above (m :: F)) F (t.addDirectories [] (parts m)) := by
    apply hdirectories.congr
    intro l
    simp only [Above, List.nil_append, List.nil_prefix, true_and, List.exists_mem_cons_iff]
    rw [and_or_left, or_comm]
  have hplaced' : ∀ m' ∈ m :: F, Placed (parts m') := by
    intro m' hm'
    rcases List.mem_cons.1 hm' with rfl | hm'
    · exact hm
    · exact hplaced m' hm'
  have hfree := habove.absent (not_above hplaced' hm) hnew
  show Holds (Above (m :: F)) (m :: F) ((t.addDirectories [] (parts m)).addChild (parts m) _)
  rw [Inodes.addChild, if_pos hfree]
  constructor
  · exact habove.plain
  · exact habove.known
  · intro d hd
    rw [Table.lookup_insert, if_neg]
    · exact habove.directory d hd
    · rintro rfl
      exact not_above hplaced' hm hd
  · intro m' hm'
    rw [Table.lookup_insert]
    rcases List.mem_cons.1 hm' with rfl | hm'
    · rw [if_pos rfl]
    · rw [if_neg (hnew m' hm')]
      exact habove.file m' hm'
  · intro d hd
    rw [Table.lookup_insert] at hd
    split at hd
    · next heq => exact Or.inr ⟨m, List.mem_cons_self, heq.symm⟩
    · rcases habove.covered d hd with hd | ⟨m', hm', heq⟩
      · exact Or.inl hd
      · exact Or.inr ⟨m', List.mem_cons_of_mem _ hm', heq⟩

theorem parts_injective {m m' : Media} (h : parts m = parts m') : m.virtualPath = m'.virtualPath := by
  rw [← ofSegments_parts m, h, ofSegments_parts]

/-- Media with distinct paths are all added. -/
theorem Holds.addAll {items : List Media} :
    ∀ {F : List Media} {t : Inodes}, Holds (Above F) F t → (∀ m ∈ items ++ F, Placed (parts m)) →
      ((items ++ F).map Media.virtualPath).Nodup →
      ∃ F', Holds (Above F') F' (items.foldl Inodes.addMedia t) ∧ ∀ m, m ∈ F' ↔ m ∈ items ∨ m ∈ F := by
  induction items with
  | nil => exact fun {F} {t} h _ _ => ⟨F, h, fun m => by simp⟩
  | cons m items ih =>
    intro F t h hplaced hnodup
    have hmiddle : (items ++ m :: F).Perm (m :: (items ++ F)) := List.perm_middle
    have hnodup' : ((m :: (items ++ F)).map Media.virtualPath).Nodup := hnodup
    have hfresh := (List.nodup_cons.1 hnodup').1
    have hold : ∀ m' ∈ F, m' ∈ m :: items ++ F := fun m' hm' => List.mem_append_right _ hm'
    have hstep := h.addMedia (fun m' hm' => hplaced m' (hold m' hm'))
      (hplaced m List.mem_cons_self) fun m' hm' heq => hfresh
        (parts_injective heq ▸ List.mem_map_of_mem (List.mem_append_right _ hm'))
    obtain ⟨F', hF', hmem⟩ := ih hstep (fun m' hm' => hplaced m' (hmiddle.mem_iff.1 hm'))
      ((hmiddle.map _).nodup_iff.2 hnodup')
    refine ⟨F', hF', fun m' => ?_⟩
    rw [hmem, List.mem_cons, List.mem_cons]
    tauto

/-! ## What is refused -/

section Refused

variable [TextTables]

omit [TextTables] in
/-- A path that passes the check is that of a movie or an episode. -/
theorem placed_of_validParts {m : Media} (h : validParts m.virtualPath = true) : Placed (parts m) := by
  simp only [validParts, decide_eq_true_eq] at h
  obtain ⟨hkind, -, hparts⟩ := h
  refine ⟨fun s hs => ?_, hkind⟩
  have hs' := hparts s hs
  rw [not_or, not_or] at hs'
  refine ⟨hs'.1, hs'.2.1, hs'.2.2, fun hslash => ?_⟩
  have hfree := @splitOnP_free _ (fun p => p == slash) _ _ hs slash hslash
  simp at hfree

/-- What `New` accepts: paths of media, each once. -/
theorem checkPaths_eq_ok {items : List Media} : ∀ {seen : Table ByteText Unit},
    checkPaths seen items = .ok () → (∀ m ∈ items, Placed (parts m)) ∧
      (items.map Media.virtualPath).Nodup ∧ ∀ m ∈ items, seen.lookup m.virtualPath = none := by
  induction items with
  | nil => simp
  | cons m items ih =>
    intro seen h
    simp only [checkPaths, validateVirtualPath, bind_eq_ok, require_eq_ok] at h
    obtain ⟨_, hvalid, _, hnew, hrest⟩ := h
    obtain ⟨hplaced, hnodup, hfree⟩ := ih hrest
    have hother : ∀ m' ∈ items, m'.virtualPath ≠ m.virtualPath := by
      intro m' hm' heq
      have hnone := hfree m' hm'
      rw [Table.lookup_insert, if_pos heq] at hnone
      cases hnone
    refine ⟨?_, ?_, ?_⟩
    · intro m' hm'
      rcases List.mem_cons.1 hm' with rfl | hm'
      · exact placed_of_validParts hvalid
      · exact hplaced m' hm'
    · rw [List.map_cons, List.nodup_cons]
      refine ⟨fun hmem => ?_, hnodup⟩
      obtain ⟨m', hm', heq⟩ := List.mem_map.1 hmem
      exact hother m' hm' heq
    · intro m' hm'
      rcases List.mem_cons.1 hm' with rfl | hm'
      · exact hnew
      · have hnone := hfree m' hm'
        rwa [Table.lookup_insert, if_neg (hother m' hm')] at hnone

/-- What `New` refuses, PearlNFS refuses with the same words. -/
theorem addAll_of_checkPaths {e : String} {items : List Media} :
    ∀ {seen : Table ByteText Unit} {F : List Media} {entries : Entries},
      Represents (Covers F) F entries → (∀ m ∈ F, Placed (parts m)) →
      (∀ p, seen.lookup p ≠ none ↔ ∃ m ∈ F, m.virtualPath = p) →
      checkPaths seen items = .error e → addAll entries items = .error e := by
  induction items with
  | nil =>
    intro seen F entries _ _ _ h
    cases h
  | cons m items ih =>
    intro seen F entries h hplaced hseen herror
    simp only [checkPaths, validateVirtualPath, Nfs.addAll, Nfs.addMedia] at herror ⊢
    by_cases hvalid : validParts m.virtualPath = true
    · have hm := placed_of_validParts hvalid
      by_cases hthere : ∃ m' ∈ F, m'.virtualPath = m.virtualPath
      · -- both have the path already
        have hdouble : seen.lookup m.virtualPath ≠ none := (hseen _).2 hthere
        obtain ⟨m', hm', heq⟩ := hthere
        have hentry : entries.lookup m.virtualPath ≠ none := by
          rw [← heq, h.file m' hm']
          exact Option.some_ne_none _
        simp only [require, if_pos hvalid, if_neg hdouble, if_neg hentry] at herror ⊢
        obtain rfl := Except.error.inj herror
        rfl
      · have hnew : seen.lookup m.virtualPath = none := by
          by_contra hne
          exact hthere ((hseen _).1 hne)
        have hother : ∀ m' ∈ F, parts m' ≠ parts m :=
          fun m' hm' heq => hthere ⟨m', hm', parts_injective heq⟩
        obtain ⟨entries', hadd, hrepresents⟩ := h.addMedia hm
          (by
            rintro (hnil | ⟨m', hm', hle⟩)
            · exact hm.ne_nil hnil
            · exact hother m' hm' (hm.eq_of_isPrefix (hplaced m' hm') hle).symm)
          (fun m' hm' hle => hother m' hm' ((hplaced m' hm').eq_of_isPrefix hm hle))
        have hcovers : Represents (Covers (m :: F)) (m :: F) entries' := by
          apply hrepresents.congr
          intro l
          simp only [Covers, List.exists_mem_cons_iff]
          rw [or_assoc]
          exact or_congr Iff.rfl or_comm
        simp only [require, if_pos hvalid, if_pos hnew] at herror
        have hrest := ih hcovers
          (by
            intro m' hm'
            rcases List.mem_cons.1 hm' with rfl | hm'
            · exact hm
            · exact hplaced m' hm')
          (by
            intro p
            rw [Table.lookup_insert]
            split
            · next heq => simp [heq]
            · next hne =>
              rw [hseen]
              simp only [List.exists_mem_cons_iff]
              exact ⟨Or.inr, fun h => h.resolve_left fun heq => hne heq.symm⟩)
          herror
        show (Nfs.addMedia entries m >>= fun entries => Nfs.addAll entries items) = .error e
        rw [hadd]
        exact hrest
    · simp only [require, if_neg hvalid] at herror ⊢
      obtain rfl := Except.error.inj herror
      rfl

end Refused

/-! ## The two trees -/

section Trees

variable {media : List Media} {l : List ByteText}

/-- What the names of a tree of media lead to. -/
inductive Leads (media : List Media) (l : List ByteText) : Option Kind → Prop
  | file {m : Media} (hm : m ∈ media) (hl : parts m = l) : Leads media l (some (.file m))
  | directory (hl : Covers media l) (hnot : ∀ m ∈ media, parts m ≠ l) : Leads media l (some .directory)
  | none (hl : ¬ Covers media l) : Leads media l none

/-- Names lead to one thing, where no two media have the same path. -/
theorem Leads.unique {k k' : Option Kind} (hnodup : (media.map Media.virtualPath).Nodup)
    (h : Leads media l k) (h' : Leads media l k') : k = k' := by
  have hcovers : ∀ {m}, m ∈ media → parts m = l → Covers media l :=
    fun hm heq => Or.inr ⟨_, hm, heq ▸ List.prefix_rfl⟩
  cases h with
  | file hm hl =>
    cases h' with
    | file hm' hl' =>
      rw [List.inj_on_of_nodup_map hnodup hm hm' (parts_injective (hl.trans hl'.symm))]
    | directory _ hnot => exact absurd hl (hnot _ hm)
    | none hnot => exact absurd (hcovers hm hl) hnot
  | directory hl hnot =>
    cases h' with
    | file hm' hl' => exact absurd hl' (hnot _ hm')
    | directory _ _ => rfl
    | none hnot' => exact absurd hl hnot'
  | none hl =>
    cases h' with
    | file hm' hl' => exact absurd (hcovers hm' hl') hl
    | directory hl' _ => exact absurd hl' hl
    | none _ => rfl

/-- Names lead to something under the root of PearlFS. -/
theorem Holds.leads {r : Root} {F : List Media} (h : Holds (Above F) F r.onAdd)
    (hmem : ∀ m, m ∈ F ↔ m ∈ media) (hplaced : ∀ m ∈ media, Placed (parts m)) :
    Leads media l (r.kind l) := by
  unfold Root.kind
  by_cases hroot : l = []
  · subst hroot
    exact .directory (Or.inl rfl) fun m hm heq => (hplaced m hm).ne_nil heq
  · rw [if_neg hroot]
    by_cases hfile : ∃ m ∈ media, parts m = l
    · obtain ⟨m, hm, rfl⟩ := hfile
      rw [h.file m ((hmem m).2 hm)]
      exact .file hm rfl
    · have hnot : ∀ m ∈ media, parts m ≠ l := fun m hm heq => hfile ⟨m, hm, heq⟩
      have hnotF : ∀ m ∈ F, parts m ≠ l := fun m hm => hnot m ((hmem m).1 hm)
      by_cases hcovers : Covers media l
      · obtain ⟨m, hm, hle⟩ := hcovers.resolve_left hroot
        rw [h.directory l ⟨hroot, m, (hmem m).2 hm, hle, (hnot m hm).symm⟩]
        exact .directory hcovers hnot
      · rw [h.absent _ hnotF]
        · exact .none hcovers
        · rintro ⟨-, m, hm, hle, -⟩
          exact hcovers (Or.inr ⟨m, (hmem m).1 hm, hle⟩)

/-- Names lead to something in PearlNFS. -/
theorem nfsKind_leads {f : Filesystem} {modified : ℤ} (h : Shows media modified f)
    (hplaced : ∀ m ∈ media, Placed (parts m)) (hl : ∀ s ∈ l, Plain s) :
    Leads media l (nfsKind f l) := by
  unfold nfsKind
  by_cases hfile : ∃ m ∈ media, parts m = l
  · obtain ⟨m, hm, rfl⟩ := hfile
    rw [ofSegments_parts, h.file m hm]
    exact .file hm rfl
  · have hnot : ∀ m ∈ media, parts m ≠ l := fun m hm heq => hfile ⟨m, hm, heq⟩
    by_cases hcovers : Covers media l
    · obtain ⟨names, hlookup, -⟩ := h.directory l hcovers hnot
      rw [hlookup]
      exact .directory hcovers hnot
    · have hnone : f.entries.lookup (ofSegments l) = none := by
        by_contra hne
        obtain ⟨d, hd, heq⟩ := h.known _ hne
        exact hcovers (ofSegments_inj hl (hd.plain hplaced) heq ▸ hd)
      rw [hnone]
      exact .none hcovers

end Trees

section Agreement

variable [TextTables]

/-- The two filesystems show the same: names lead to the same, and PearlNFS lists in a directory the
names that PearlFS has there. -/
structure SameTree (r : Root) (f : Filesystem) : Prop where
  kind : ∀ l, (∀ s ∈ l, Plain s) → r.kind l = nfsKind f l
  listed : ∀ l, r.kind l = some .directory → ∃ infos, f.readDir (ofSegments l) = .ok infos ∧
    ∀ n, n ∈ infos.map FileInfo.name ↔ r.kind (l ++ [n]) ≠ none

end Agreement

end BlackPearl.Fuse
