import BlackPearl.Nfs.Namespace

/-!
# The tree that is built

A namespace is a set of paths that is closed under prefixes, with a medium at some of them.
`Represents P F entries` says that the entries are such a tree: adding a directory adds one path to
the set, adding a medium adds all prefixes of its path. Media made by the constructors have paths
that are never above one another, so they can all be added (`addAll_eq_ok`).
-/

set_option autoImplicit false

namespace BlackPearl.Nfs

open BlackPearl.Library BlackPearl.Library.Path BlackPearl.Setup BlackPearl.Catalog

/-- The segments of the path of a medium. -/
def parts (m : Media) : List ByteText := segments m.virtualPath

theorem ofSegments_parts (m : Media) : ofSegments (parts m) = m.virtualPath := ofSegments_segments _

/-- The segments of a movie's or an episode's path. -/
structure Placed (l : List ByteText) : Prop where
  plain : ∀ s ∈ l, Plain s
  kind : (l.length = 3 ∧ l.head? = some (text "Movies")) ∨
    (l.length = 4 ∧ l.head? = some (text "TV Shows"))

theorem Placed.ne_nil {l : List ByteText} (h : Placed l) : l ≠ [] := by
  rintro rfl
  rcases h.kind with h | h
  · cases h.1
  · cases h.1

/-- A path of a medium is not above another one. -/
theorem Placed.eq_of_isPrefix {l m : List ByteText} (hl : Placed l) (hm : Placed m) (h : l <+: m) :
    l = m := by
  have hhead : m.head? = l.head? := by
    obtain ⟨more, rfl⟩ := h
    exact List.head?_append_of_ne_nil _ hl.ne_nil
  have hne : text "Movies" ≠ text "TV Shows" := by decide
  apply h.eq_of_length
  rcases hl.kind with ⟨hlen, hkind⟩ | ⟨hlen, hkind⟩
  · rcases hm.kind with ⟨hlen', hkind'⟩ | ⟨hlen', hkind'⟩
    · rw [hlen, hlen']
    · rw [hhead, hkind] at hkind'
      exact absurd (Option.some.inj hkind') hne
  · rcases hm.kind with ⟨hlen', hkind'⟩ | ⟨hlen', hkind'⟩
    · rw [hhead, hkind] at hkind'
      exact absurd (Option.some.inj hkind').symm hne
    · rw [hlen, hlen']

/-- What the constructors make has such a path. -/
theorem placed_of_built [TextTables] {m : Media} (h : Built m) : Placed (parts m) := by
  cases h with
  | movie h =>
    obtain ⟨hpath, hplain⟩ := newMovie_path h
    rw [parts, hpath, segments_ofSegments (fun s hs => (hplain s hs).no_slash)
      (List.cons_ne_nil _ _)]
    exact ⟨hplain, Or.inl ⟨rfl, rfl⟩⟩
  | episode h =>
    obtain ⟨hpath, hplain⟩ := newEpisode_path h
    rw [parts, hpath, segments_ofSegments (fun s hs => (hplain s hs).no_slash)
      (List.cons_ne_nil _ _)]
    exact ⟨hplain, Or.inr ⟨rfl, rfl⟩⟩

/-- Such a path passes the checks of both filesystems. -/
theorem validParts_of_placed {m : Media} (h : Placed (parts m)) : validParts m.virtualPath = true := by
  have hclean : clean m.virtualPath = m.virtualPath := by
    rw [← ofSegments_parts m, clean_ofSegments h.plain h.ne_nil]
  simp only [validParts, decide_eq_true_eq]
  refine ⟨h.kind, hclean, fun s hs => ?_⟩
  have hs := h.plain s hs
  rw [not_or, not_or]
  exact ⟨hs.nonempty, hs.not_dot, hs.not_dots⟩

/-- A path of plain segments, or the root, is that of one list of segments. -/
theorem ofSegments_inj {l m : List ByteText} (hl : ∀ s ∈ l, Plain s) (hm : ∀ s ∈ m, Plain s)
    (h : ofSegments l = ofSegments m) : l = m := by
  by_cases hlne : l = []
  · by_cases hmne : m = []
    · rw [hlne, hmne]
    · rw [hlne] at h
      exact absurd h.symm (ofSegments_ne_nil hm hmne)
  · by_cases hmne : m = []
    · rw [hmne] at h
      exact absurd h (ofSegments_ne_nil hl hlne)
    · exact ofSegments_injective (fun s hs => (hl s hs).no_slash) (fun s hs => (hm s hs).no_slash)
        hlne hmne h

/-! ## Entries as a set of paths -/

/-- The entries are a tree with the paths `P` and the files `F`. -/
structure Represents (P : List ByteText → Prop) (F : List Media) (entries : Entries) : Prop where
  root : P []
  plain : ∀ d, P d → ∀ s ∈ d, Plain s
  closed : ∀ d n, P (d ++ [n]) → P d
  present : ∀ m ∈ F, P (parts m)
  file : ∀ m ∈ F, entries.lookup m.virtualPath =
    some { name := (parts m).getLastD [], media := some m }
  directory : ∀ d, P d → (∀ m ∈ F, parts m ≠ d) → ∃ l, entries.lookup (ofSegments d) =
    some { name := d.getLastD [slash], children := l } ∧ l.Nodup ∧ ∀ n, n ∈ l ↔ P (d ++ [n])
  known : ∀ k, entries.lookup k ≠ none → ∃ d, P d ∧ k = ofSegments d

theorem represents_root :
    Represents (fun d => d = []) [] ((∅ : Entries).insert [] { name := [slash] }) where
  root := rfl
  plain := by
    rintro d rfl s hs
    cases hs
  closed := by
    intro d n h
    exact absurd h (List.append_ne_nil_of_right_ne_nil _ (List.cons_ne_nil _ _))
  present := by
    intro m hm
    cases hm
  file := by
    intro m hm
    cases hm
  directory := by
    rintro d rfl -
    refine ⟨[], ?_, .nil, fun n => ?_⟩
    · rw [Table.lookup_insert]
      rfl
    · simp
  known := by
    intro k hk
    rw [Table.lookup_insert] at hk
    split at hk
    · next h => exact ⟨[], rfl, h⟩
    · rw [AList.lookup_empty] at hk
      exact absurd rfl hk

/-- Where there is no path there is no entry. -/
theorem Represents.absent {P : List ByteText → Prop} {F : List Media} {entries : Entries}
    (h : Represents P F entries) {d : List ByteText} (hd : ∀ s ∈ d, Plain s) (hP : ¬ P d) :
    entries.lookup (ofSegments d) = none := by
  by_contra hne
  obtain ⟨d', hP', heq⟩ := h.known _ hne
  exact hP (ofSegments_inj hd (h.plain d' hP') heq ▸ hP')

/-- A list ends in one way. -/
theorem concat_eq {d e : List ByteText} {n k : ByteText} : d ++ [n] = e ++ [k] ↔ d = e ∧ n = k := by
  constructor
  · intro h
    obtain ⟨hd, hn⟩ := List.append_inj' h rfl
    exact ⟨hd, (List.cons.inj hn).1⟩
  · rintro ⟨rfl, rfl⟩
    rfl

theorem Represents.congr {P P' : List ByteText → Prop} {F : List Media} {entries : Entries}
    (h : Represents P F entries) (hP : ∀ d, P d ↔ P' d) : Represents P' F entries := by
  obtain rfl : P = P' := funext fun d => propext (hP d)
  exact h

theorem addChild_eq {entries : Entries} {parent key child : ByteText} {value : Entry}
    (hkey : cleanPath parent = key) (hvalue : entries.lookup key = some value) :
    addChild entries parent child =
      if child ∈ value.children then entries
      else entries.insert key { value with children := value.children ++ [child] } := by
  subst hkey
  simp only [addChild, hvalue, Option.getD_some, List.contains_iff_mem]

theorem addDirectory_eq {entries : Entries} {parent key name : ByteText}
    (hkey : cleanPath (join [parent, name]) = key) :
    addDirectory entries parent name =
      addChild (if entries.lookup key = none then entries.insert key { name := name } else entries)
        parent name := by
  subst hkey
  rfl

/-- What is added at a new path: a directory, or the file of a medium. -/
inductive Adds (F : List Media) (l : List ByteText) : List Media → Entry → Prop
  | directory {n : ByteText} : Adds F l F { name := n }
  | file {n : ByteText} {m : Media} : parts m = l → Adds F l (m :: F) { name := n, media := some m }

theorem plain_concat {d : List ByteText} {n : ByteText} (hd : ∀ s ∈ d, Plain s) (hn : Plain n) :
    ∀ s ∈ d ++ [n], Plain s := by
  intro s hs
  rcases List.mem_append.1 hs with hs | hs
  · exact hd s hs
  · exact List.mem_singleton.1 hs ▸ hn

/-- A new entry of a directory adds its path to the tree. -/
theorem Represents.addNew {P : List ByteText → Prop} {F F' : List Media} {entries : Entries}
    (h : Represents P F entries) {d : List ByteText} {n : ByteText} {e : Entry} (hP : P d)
    (hn : Plain n) (hd : ∀ m ∈ F, parts m ≠ d) (hnew : ¬ P (d ++ [n]))
    (hadds : Adds F (d ++ [n]) F' e) (hname : e.name = n) :
    Represents (fun l => P l ∨ l = d ++ [n]) F'
      (addChild (entries.insert (ofSegments (d ++ [n])) e) (ofSegments d) n) := by
  have hplain := plain_concat (h.plain d hP) hn
  have hparent : cleanPath (ofSegments d) = ofSegments d := cleanPath_ofSegments (h.plain d hP)
  obtain ⟨l, hlookup, hnodup, hmem⟩ := h.directory d hP hd
  have hinj : ∀ {l : List ByteText}, P l → ofSegments l = ofSegments (d ++ [n]) → False :=
    fun hl heq => hnew (ofSegments_inj (h.plain _ hl) hplain heq ▸ hl)
  have hlook : ∀ k, (addChild (entries.insert (ofSegments (d ++ [n])) e) (ofSegments d) n).lookup k =
      if k = ofSegments d then some { name := d.getLastD [slash], children := l ++ [n] }
      else if k = ofSegments (d ++ [n]) then some e else entries.lookup k := by
    have hkept : (entries.insert (ofSegments (d ++ [n])) e).lookup (ofSegments d) =
        some { name := d.getLastD [slash], children := l } := by
      rw [Table.lookup_insert, if_neg (hinj hP), hlookup]
    intro k
    rw [addChild_eq hparent hkept, if_neg fun hin => hnew ((hmem n).1 hin), Table.lookup_insert,
      Table.lookup_insert]
  have hold : ∀ m ∈ F, m.virtualPath ≠ ofSegments d ∧ m.virtualPath ≠ ofSegments (d ++ [n]) := by
    intro m hm
    rw [← ofSegments_parts m]
    constructor
    · intro heq
      exact hd m hm (ofSegments_inj (h.plain _ (h.present m hm)) (h.plain d hP) heq)
    · exact hinj (h.present m hm)
  have hchild : ∀ k, ¬ (P (d ++ [n] ++ [k]) ∨ d ++ [n] ++ [k] = d ++ [n]) := by
    rintro k (hk | hk)
    · exact hnew (h.closed _ _ hk)
    · simp at hk
  constructor
  · exact Or.inl h.root
  · rintro l (hl | rfl)
    · exact h.plain l hl
    · exact hplain
  · rintro l k (hl | hl)
    · exact Or.inl (h.closed l k hl)
    · obtain ⟨rfl, rfl⟩ := concat_eq.1 hl
      exact Or.inl hP
  · intro m hm
    cases hadds with
    | directory => exact Or.inl (h.present m hm)
    | file hparts =>
      rcases List.mem_cons.1 hm with rfl | hm
      · exact Or.inr hparts
      · exact Or.inl (h.present m hm)
  · intro m hm
    have hkeeps : m ∈ F → (addChild (entries.insert (ofSegments (d ++ [n])) e) (ofSegments d) n).lookup
        m.virtualPath = some { name := (parts m).getLastD [], media := some m } := by
      intro hm
      rw [hlook, if_neg (hold m hm).1, if_neg (hold m hm).2]
      exact h.file m hm
    cases hadds with
    | directory => exact hkeeps hm
    | file hparts =>
      rcases List.mem_cons.1 hm with rfl | hm
      · subst hname
        rw [← ofSegments_parts m, hparts, hlook, if_neg fun heq => hinj hP heq.symm, if_pos rfl]
        simp
      · exact hkeeps hm
  · rintro k (hk | rfl) hnot
    · have hnotold : ∀ m ∈ F, parts m ≠ k := by
        intro m hm
        cases hadds with
        | directory => exact hnot m hm
        | file _ => exact hnot m (List.mem_cons_of_mem _ hm)
      obtain ⟨l', hl', hnodup', hmem'⟩ := h.directory k hk hnotold
      by_cases hkd : k = d
      · -- the directory above has one more name
        subst hkd
        rw [hlookup] at hl'
        obtain rfl : l = l' := by injection hl' with hl'; injection hl'
        refine ⟨l ++ [n], by rw [hlook, if_pos rfl], ?_, fun j => ?_⟩
        · refine List.nodup_append.2 ⟨hnodup, List.nodup_singleton n, ?_⟩
          rintro x hx y hy rfl
          exact hnew ((hmem n).1 (List.mem_singleton.1 hy ▸ hx))
        · rw [List.mem_append, hmem, List.mem_singleton, concat_eq]
          simp
      · refine ⟨l', ?_, hnodup', fun j => ?_⟩
        · rw [hlook, if_neg, if_neg (hinj hk), hl']
          exact fun heq => hkd (ofSegments_inj (h.plain k hk) (h.plain d hP) heq)
        · rw [hmem', concat_eq]
          simp [hkd]
    · cases hadds with
      | directory =>
        subst hname
        refine ⟨[], ?_, .nil, fun j => ?_⟩
        · rw [hlook, if_neg fun heq => hinj hP heq.symm, if_pos rfl]
          simp
        · exact iff_of_false List.not_mem_nil (hchild j)
      | file hparts => exact absurd hparts (hnot _ List.mem_cons_self)
  · intro k hk
    rw [hlook] at hk
    split at hk
    · next heq => exact ⟨d, Or.inl hP, heq⟩
    · split at hk
      · next heq => exact ⟨_, Or.inr rfl, heq⟩
      · obtain ⟨l, hl, heq⟩ := h.known k hk
        exact ⟨l, Or.inl hl, heq⟩

/-- Where there is a path there is an entry. -/
theorem Represents.exists {P : List ByteText → Prop} {F : List Media} {entries : Entries}
    (h : Represents P F entries) {d : List ByteText} (hP : P d) :
    entries.lookup (ofSegments d) ≠ none := by
  by_cases hfile : ∃ m ∈ F, parts m = d
  · obtain ⟨m, hm, rfl⟩ := hfile
    rw [ofSegments_parts, h.file m hm]
    exact Option.some_ne_none _
  · obtain ⟨_, hsome, -⟩ := h.directory d hP fun m hm heq => hfile ⟨m, hm, heq⟩
    rw [hsome]
    exact Option.some_ne_none _

/-- Adding a directory adds its path, if it is new. -/
theorem Represents.addDirectory {P : List ByteText → Prop} {F : List Media} {entries : Entries}
    (h : Represents P F entries) {d : List ByteText} {n : ByteText} (hP : P d) (hn : Plain n)
    (hd : ∀ m ∈ F, parts m ≠ d) :
    Represents (fun l => P l ∨ l = d ++ [n]) F (addDirectory entries (ofSegments d) n) := by
  have hplain := plain_concat (h.plain d hP) hn
  have hparent : cleanPath (ofSegments d) = ofSegments d := cleanPath_ofSegments (h.plain d hP)
  have hkey : cleanPath (join [ofSegments d, n]) = ofSegments (d ++ [n]) := by
    rw [join_ofSegments (h.plain d hP) hn, cleanPath_ofSegments hplain]
  rw [addDirectory_eq hkey]
  by_cases hold : P (d ++ [n])
  · -- the directory is there, and so is its name in the directory above
    obtain ⟨l, hlookup, -, hmem⟩ := h.directory d hP hd
    rw [if_neg (h.exists hold), addChild_eq hparent hlookup, if_pos ((hmem n).2 hold)]
    apply h.congr
    intro l
    constructor
    · exact Or.inl
    · rintro (hl | rfl)
      · exact hl
      · exact hold
  · rw [if_pos (h.absent hplain hold)]
    exact h.addNew hP hn hd hold .directory rfl

/-- Between a path and a longer one there is the path with the next segment, if there is any. -/
theorem eq_or_isPrefix_of_between {above l rest : List ByteText} {part : ByteText}
    (hl : above <+: l) (hrest : l <+: above ++ part :: rest) : l = above ∨ above ++ [part] <+: l := by
  obtain ⟨t, rfl⟩ := hl
  cases t with
  | nil => exact Or.inl (List.append_nil _)
  | cons s t =>
    have ht := (List.prefix_append_right_inj above).1 hrest
    obtain rfl := (List.cons_prefix_cons.1 ht).1
    right
    rw [List.prefix_append_right_inj]
    exact List.cons_prefix_cons.2 ⟨rfl, List.nil_prefix⟩

/-- Adding the directories above a path adds the paths between. -/
theorem Represents.addDirectories {F : List Media} {rest : List ByteText} :
    ∀ {P : List ByteText → Prop} {entries : Entries} {above : List ByteText},
      Represents P F entries → P above → (∀ s ∈ rest, Plain s) →
      (∀ m ∈ F, ∀ l, l <+: above ++ rest → l ≠ above ++ rest → parts m ≠ l) →
      Represents (fun l => P l ∨ above <+: l ∧ l <+: above ++ rest ∧ l ≠ above ++ rest) F
        (addDirectories entries above rest) := by
  induction rest with
  | nil =>
    intro P entries above h hP _ _
    apply h.congr
    intro l
    rw [List.append_nil]
    constructor
    · exact Or.inl
    · rintro (hl | ⟨habove, hl, hne⟩)
      · exact hl
      · exact absurd (hl.eq_of_length (Nat.le_antisymm hl.length_le habove.length_le)) hne
  | cons part rest ih =>
    intro P entries above h hP hplain hfree
    cases rest with
    | nil =>
      apply h.congr
      intro l
      constructor
      · exact Or.inl
      · rintro (hl | ⟨habove, hl, hne⟩)
        · exact hl
        · rcases eq_or_isPrefix_of_between habove hl with rfl | hmore
          · exact hP
          · exact absurd (hl.eq_of_length (Nat.le_antisymm hl.length_le hmore.length_le)) hne
    | cons next rest =>
      have hsplit : above ++ [part] ++ next :: rest = above ++ part :: next :: rest := by simp
      have hstep := h.addDirectory hP (hplain part List.mem_cons_self)
        (fun m hm => hfree m hm above (List.prefix_append _ _) (by simp))
      have hrest := ih hstep (Or.inr rfl) (fun s hs => hplain s (List.mem_cons_of_mem _ hs))
        (by rw [hsplit]; exact hfree)
      rw [hsplit] at hrest
      apply hrest.congr
      intro l
      constructor
      · rintro ((hl | rfl) | ⟨habove, hl, hne⟩)
        · exact Or.inl hl
        · refine Or.inr ⟨List.prefix_append _ _, ?_, ?_⟩
          · rw [← hsplit]
            exact List.prefix_append _ _
          · simp
        · exact Or.inr ⟨(List.prefix_append _ _).trans habove, hl, hne⟩
      · rintro (hl | ⟨habove, hl, hne⟩)
        · exact Or.inl (Or.inl hl)
        · rcases eq_or_isPrefix_of_between habove hl with rfl | hmore
          · exact Or.inl (Or.inl hP)
          · exact Or.inr ⟨hmore, hl, hne⟩

section Building

variable [TextTables]

/-- A medium at a new path, not below another medium, is added. -/
theorem Represents.addMedia {P : List ByteText → Prop} {F : List Media} {entries : Entries}
    (h : Represents P F entries) {m : Media} (hm : Placed (parts m)) (hnew : ¬ P (parts m))
    (hfree : ∀ m' ∈ F, ¬ parts m' <+: parts m) :
    ∃ entries', addMedia entries m = .ok entries' ∧
      Represents (fun l => P l ∨ l <+: parts m) (m :: F) entries' := by
  have hsplit : (parts m).dropLast ++ [(parts m).getLastD []] = parts m := by
    rw [List.getLastD_eq_getLast?, List.getLast?_eq_some_getLast hm.ne_nil, Option.getD_some,
      List.dropLast_append_getLast]
  have hpath : m.virtualPath = ofSegments ((parts m).dropLast ++ [(parts m).getLastD []]) := by
    rw [hsplit, ofSegments_parts]
  have hnone : entries.lookup m.virtualPath = none := by
    rw [← ofSegments_parts]
    exact h.absent hm.plain hnew
  have hdirectories := h.addDirectories h.root hm.plain (fun m' hm' l hl hne heq =>
    hfree m' hm' (heq ▸ hl))
  simp only [List.nil_append, List.nil_prefix, true_and] at hdirectories
  have hlast : Plain ((parts m).getLastD []) := by
    have hmem : (parts m).getLastD [] ∈ (parts m).dropLast ++ [(parts m).getLastD []] :=
      List.mem_append_right _ (List.mem_singleton_self _)
    rw [hsplit] at hmem
    exact hm.plain _ hmem
  have habove : (parts m).dropLast <+: parts m ∧ (parts m).dropLast ≠ parts m := by
    refine ⟨List.dropLast_prefix _, fun heq => ?_⟩
    have hlen := congrArg List.length heq
    rw [List.length_dropLast] at hlen
    have hpos := List.length_pos_iff.2 hm.ne_nil
    omega
  have hadded := hdirectories.addNew (n := (parts m).getLastD []) (e := _) (Or.inr habove) hlast
    (fun m' hm' heq => hfree m' hm' (heq ▸ habove.1))
    (by
      rw [hsplit]
      rintro (hP | hne)
      · exact hnew hP
      · exact hne.2 rfl)
    (.file (n := (parts m).getLastD []) hsplit.symm) rfl
  refine ⟨_, ?_, hadded.congr fun l => ?_⟩
  · simp only [Nfs.addMedia, bind_eq_ok, require_eq_ok, pure_eq_ok]
    refine ⟨(), validParts_of_placed hm, (), hnone, ?_⟩
    rw [← hpath]
    rfl
  · rw [hsplit]
    constructor
    · rintro ((hl | hl) | rfl)
      · exact Or.inl hl
      · exact Or.inr hl.1
      · exact Or.inr List.prefix_rfl
    · rintro (hl | hl)
      · exact Or.inl (Or.inl hl)
      · by_cases hne : l = parts m
        · exact Or.inr hne
        · exact Or.inl (Or.inr ⟨hl, hne⟩)

/-- The paths of some media and of the directories above them. -/
def Covers (F : List Media) (l : List ByteText) : Prop := l = [] ∨ ∃ m ∈ F, l <+: parts m

/-- Media with distinct paths are all added, in whatever order they come. -/
theorem Represents.addAll {items : List Media} :
    ∀ {F : List Media} {entries : Entries}, Represents (Covers F) F entries →
      (∀ m ∈ items ++ F, Placed (parts m)) → ((items ++ F).map Media.virtualPath).Nodup →
      ∃ entries' F', addAll entries items = .ok entries' ∧ Represents (Covers F') F' entries' ∧
        ∀ m, m ∈ F' ↔ m ∈ items ∨ m ∈ F := by
  induction items with
  | nil => exact fun {F} {entries} h _ _ => ⟨entries, F, rfl, h, fun m => by simp⟩
  | cons m items ih =>
    intro F entries h hplaced hnodup
    rw [List.cons_append, List.map_cons, List.nodup_cons] at hnodup
    have hm : Placed (parts m) := hplaced m List.mem_cons_self
    have hother : ∀ m' ∈ F, parts m' ≠ parts m := by
      intro m' hm' heq
      apply hnodup.1
      rw [← ofSegments_parts m, ← heq, ofSegments_parts]
      exact List.mem_map_of_mem (List.mem_append_right _ hm')
    have hfree : ∀ m' ∈ F, ¬ parts m' <+: parts m := fun m' hm' hle => hother m' hm'
      ((hplaced m' (List.mem_cons_of_mem _ (List.mem_append_right _ hm'))).eq_of_isPrefix hm hle)
    have hnew : ¬ Covers F (parts m) := by
      rintro (hnil | ⟨m', hm', hle⟩)
      · exact hm.ne_nil hnil
      · exact hother m' hm' (hm.eq_of_isPrefix
          (hplaced m' (List.mem_cons_of_mem _ (List.mem_append_right _ hm'))) hle).symm
    obtain ⟨entries', hadd, hadded⟩ := h.addMedia hm hnew hfree
    have hcovers : Represents (Covers (m :: F)) (m :: F) entries' := by
      apply hadded.congr
      intro l
      simp only [Covers, List.exists_mem_cons_iff]
      rw [or_assoc]
      exact or_congr Iff.rfl or_comm
    have hmiddle : (items ++ m :: F).Perm (m :: (items ++ F)) := List.perm_middle
    obtain ⟨entries'', F', hall, hF', hmem⟩ := ih hcovers
      (fun m' hm' => hplaced m' (hmiddle.mem_iff.1 hm'))
      ((hmiddle.map _).nodup_iff.2 (List.nodup_cons.2 hnodup))
    refine ⟨entries'', F', ?_, hF', fun m' => ?_⟩
    · rw [Nfs.addAll, hadd]
      exact hall
    · rw [hmem, List.mem_cons, List.mem_cons]
      tauto

/-! ## The finished namespace -/

/-- The namespace of some media: each is a file, and the directories list sorted names. -/
structure Shows (media : List Media) (modified : ℤ) (f : Filesystem) : Prop where
  file : ∀ m ∈ media, f.entries.lookup m.virtualPath =
    some { name := (parts m).getLastD [], media := some m, modified := modified }
  directory : ∀ d, Covers media d → (∀ m ∈ media, parts m ≠ d) →
    ∃ l, f.entries.lookup (ofSegments d) =
      some { name := d.getLastD [slash], children := l, modified := modified } ∧ l.Nodup ∧
        l.Pairwise (fun n k => ByteText.le n k = true) ∧ ∀ n, n ∈ l ↔ Covers media (d ++ [n])
  known : ∀ k, f.entries.lookup k ≠ none → ∃ d, Covers media d ∧ k = ofSegments d

/-- Replacing the catalog by media with distinct paths succeeds, and shows them. -/
theorem replace_eq_ok (f : Filesystem) (now : ℤ) {media : List Media}
    (hplaced : ∀ m ∈ media, Placed (parts m)) (hnodup : (media.map Media.virtualPath).Nodup) :
    ∃ f', f.replace false (.ok media) now = .ok f' ∧ f'.catalog = media ∧
      (∃ entries, buildEntries media = .ok entries) ∧ Shows media f'.modified f' := by
  have hstart : Represents (Covers []) [] ((∅ : Entries).insert [] { name := [slash] }) :=
    represents_root.congr fun l => by simp [Covers]
  obtain ⟨entries, F, hadd, hF, hmem⟩ := hstart.addAll
    (fun (m : Media) (hm : m ∈ media ++ []) => hplaced m (by simpa using hm)) (by simpa using hnodup)
  have hmem' : ∀ m, m ∈ F ↔ m ∈ media := fun m => by simpa using hmem m
  have hcovers : ∀ l, Covers F l ↔ Covers media l := by
    intro l
    simp only [Covers, hmem']
  have hbuild : buildEntries media = .ok (entries.mapValues fun _ e =>
      { e with children := e.children.insertionSort fun n k => ByteText.le n k }) := by
    rw [buildEntries, hadd]
    rfl
  obtain ⟨f', hreplace, hf'⟩ : ∃ f', f.replace false (.ok media) now = .ok f' ∧
      f' = ⟨media, (entries.mapValues fun _ e =>
        { e with children := e.children.insertionSort fun n k => ByteText.le n k }).mapValues
          fun _ e => { e with modified := if now > f.modified then now else f.modified + 1 },
        f.generation + 1, if now > f.modified then now else f.modified + 1⟩ := by
    simp only [Filesystem.replace, bind_eq_ok, require_eq_ok, within_eq_ok, pure_eq_ok]
    exact ⟨_, ⟨(), trivial, media, rfl, _, hbuild, rfl⟩, rfl⟩
  subst hf'
  refine ⟨_, hreplace, rfl, ⟨_, hbuild⟩, ?_, ?_, ?_⟩
  · intro m hm
    rw [Table.lookup_mapValues, Table.lookup_mapValues, hF.file m ((hmem' m).2 hm)]
    rfl
  · intro d hd hnot
    obtain ⟨l, hl, hlnodup, hlmem⟩ :=
      hF.directory d ((hcovers d).2 hd) fun m hm => hnot m ((hmem' m).1 hm)
    have htotal : Std.Total (fun n k : ByteText => ByteText.le n k = true) :=
      ⟨fun n k => by simpa using ByteText.le_total n k⟩
    have htrans : IsTrans ByteText (fun n k => ByteText.le n k = true) :=
      ⟨fun _ _ _ h₁ h₂ => ByteText.le_trans h₁ h₂⟩
    have hperm := List.perm_insertionSort (fun n k : ByteText => ByteText.le n k = true) l
    refine ⟨l.insertionSort fun n k => ByteText.le n k, ?_, hperm.nodup_iff.2 hlnodup,
      List.pairwise_insertionSort _ _, fun n => ?_⟩
    · rw [Table.lookup_mapValues, Table.lookup_mapValues, hl]
      rfl
    · rw [List.mem_insertionSort, hlmem, hcovers]
  · intro k hk
    rw [Table.lookup_mapValues, Table.lookup_mapValues] at hk
    obtain ⟨d, hd, heq⟩ := hF.known k fun hnone => hk (by rw [hnone]; rfl)
    exact ⟨d, (hcovers d).1 hd, heq⟩

end Building

end BlackPearl.Nfs
