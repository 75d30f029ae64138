import BlackPearl.Library.ByteText

/-!
# Slash-separated paths

`path.Clean`, `path.Ext`, `path.Join` and `path.IsAbs` on texts. A path made of plain segments is
already clean, and splitting it gives its segments back.
-/

set_option autoImplicit false

namespace BlackPearl.Library.Path

/-- The separator of segments. -/
abbrev slash : Piece := .char '/'

/-- The segments of a path. -/
def segments (path : ByteText) : List ByteText := path.splitOn slash

/-- The path of some segments. -/
def ofSegments (l : List ByteText) : ByteText := [slash].intercalate l

def isAbs (path : ByteText) : Bool := path.head? = some slash

/-- One step of cleaning a path: the segments kept so far, last first, and the next segment. -/
def pushSegment (rooted : Bool) (kept : List ByteText) (segment : ByteText) : List ByteText :=
  if segment = [] ∨ segment = text "." then kept
  else if segment = text ".." then
    match kept with
    | [] => if rooted then [] else [segment]
    | top :: rest => if top = text ".." then segment :: kept else rest
  else segment :: kept

/-- The shortest equivalent path. -/
def clean (path : ByteText) : ByteText :=
  let kept := (segments path).foldl (pushSegment (isAbs path)) []
  let cleaned := (if isAbs path then [slash] else []) ++ ofSegments kept.reverse
  if cleaned = [] then text "." else cleaned

/-- From the last dot of the last segment. -/
def ext (path : ByteText) : ByteText :=
  let base := path.rtakeWhile fun p => p ≠ slash
  if .char '.' ∈ base then .char '.' :: base.rtakeWhile fun p => p ≠ .char '.' else []

/-- The elements with separators between them, cleaned; empty ones are left out. -/
def join (elements : List ByteText) : ByteText :=
  match elements.dropWhile fun e => e = [] with
  | [] => []
  | l => clean (ofSegments l)

/-- A segment that cleaning keeps. -/
structure Plain (segment : ByteText) : Prop where
  nonempty : segment ≠ []
  not_dot : segment ≠ text "."
  not_dots : segment ≠ text ".."
  no_slash : slash ∉ segment

theorem segments_ofSegments {l : List ByteText} (hl : ∀ s ∈ l, slash ∉ s) (hne : l ≠ []) :
    segments (ofSegments l) = l :=
  List.splitOn_intercalate slash hl hne

theorem ofSegments_segments (path : ByteText) : ofSegments (segments path) = path :=
  List.intercalate_splitOn slash

/-- The segments of a path determine it. -/
theorem ofSegments_injective {l m : List ByteText} (hl : ∀ s ∈ l, slash ∉ s)
    (hm : ∀ s ∈ m, slash ∉ s) (hlne : l ≠ []) (hmne : m ≠ []) (h : ofSegments l = ofSegments m) :
    l = m := by
  rw [← segments_ofSegments hl hlne, h, segments_ofSegments hm hmne]

theorem ofSegments_cons {s : ByteText} {l : List ByteText} (h : l ≠ []) :
    ofSegments (s :: l) = s ++ slash :: ofSegments l := by
  rw [ofSegments, List.intercalate_cons_of_ne_nil h, List.append_assoc]
  rfl

@[simp] theorem ofSegments_singleton (s : ByteText) : ofSegments [s] = s :=
  List.intercalate_singleton

theorem ofSegments_concat {s : ByteText} {l : List ByteText} (h : l ≠ []) :
    ofSegments (l ++ [s]) = ofSegments l ++ slash :: s := by
  induction l with
  | nil => exact absurd rfl h
  | cons t l ih =>
    by_cases hl : l = []
    · subst hl
      rw [List.singleton_append, ofSegments_cons (List.cons_ne_nil _ _), ofSegments_singleton,
        ofSegments_singleton]
    · have hmore : l ++ [s] ≠ [] := List.append_ne_nil_of_left_ne_nil hl _
      rw [List.cons_append, ofSegments_cons hmore, ih hl, ofSegments_cons hl, List.append_assoc,
        List.cons_append]

/-- Cleaning keeps plain segments. -/
theorem foldl_pushSegment {rooted : Bool} {l : List ByteText} (hl : ∀ s ∈ l, Plain s)
    (kept : List ByteText) : l.foldl (pushSegment rooted) kept = l.reverse ++ kept := by
  induction l generalizing kept with
  | nil => rfl
  | cons s l ih =>
    have hs := hl s List.mem_cons_self
    have hkeep : ¬ (s = [] ∨ s = text ".") := not_or.2 ⟨hs.nonempty, hs.not_dot⟩
    have hpush : pushSegment rooted kept s = s :: kept := by
      simp only [pushSegment, if_neg hkeep, if_neg hs.not_dots]
    rw [List.foldl_cons, hpush, ih fun t ht => hl t (List.mem_cons_of_mem _ ht),
      List.reverse_cons, List.append_assoc, List.singleton_append]

theorem ofSegments_ne_nil {l : List ByteText} (hl : ∀ s ∈ l, Plain s) (hne : l ≠ []) :
    ofSegments l ≠ [] := by
  cases l with
  | nil => exact absurd rfl hne
  | cons s l =>
    have hs := (hl s List.mem_cons_self).nonempty
    cases l with
    | nil => rwa [ofSegments_singleton]
    | cons t l =>
      rw [ofSegments_cons (by simp)]
      simp

theorem not_isAbs_ofSegments {l : List ByteText} (hl : ∀ s ∈ l, Plain s) (hne : l ≠ []) :
    isAbs (ofSegments l) = false := by
  cases l with
  | nil => exact absurd rfl hne
  | cons s l =>
    have hs := hl s List.mem_cons_self
    have hhead : (ofSegments (s :: l)).head? = s.head? := by
      cases l with
      | nil => rw [ofSegments_singleton]
      | cons t l =>
        rw [ofSegments_cons (by simp), List.head?_append_of_ne_nil _ hs.nonempty]
    rw [isAbs, hhead, decide_eq_false_iff_not]
    intro h
    exact hs.no_slash (List.mem_of_head? h)

/-- A path of plain segments is clean. -/
theorem clean_ofSegments {l : List ByteText} (hl : ∀ s ∈ l, Plain s) (hne : l ≠ []) :
    clean (ofSegments l) = ofSegments l := by
  have hsegments := segments_ofSegments (fun s hs => (hl s hs).no_slash) hne
  rw [clean, hsegments, foldl_pushSegment hl, not_isAbs_ofSegments hl hne]
  simp [ofSegments_ne_nil hl hne]

/-- So is the same path from the root. -/
theorem clean_slash_ofSegments {l : List ByteText} (hl : ∀ s ∈ l, Plain s) (hne : l ≠ []) :
    clean (slash :: ofSegments l) = slash :: ofSegments l := by
  have hsegments : segments (slash :: ofSegments l) = [] :: l := by
    have happ : slash :: ofSegments l = ofSegments ([] :: l) := by
      rw [ofSegments_cons hne, List.nil_append]
    rw [happ]
    apply segments_ofSegments _ (by simp)
    intro s hs
    rcases List.mem_cons.1 hs with rfl | hs
    · simp
    · exact (hl s hs).no_slash
  have hempty : pushSegment true [] [] = [] := rfl
  rw [clean, hsegments]
  simp [isAbs, hempty, foldl_pushSegment hl]

/-- Joining plain segments puts separators between them. -/
theorem join_plain {l : List ByteText} (hl : ∀ s ∈ l, Plain s) (hne : l ≠ []) :
    join l = ofSegments l := by
  have hdrop : (l.dropWhile fun e => decide (e = [])) = l := by
    rw [List.dropWhile_eq_self_iff]
    intro h
    simpa using (hl _ (List.getElem_mem h)).nonempty
  rw [join, hdrop]
  cases l with
  | nil => exact absurd rfl hne
  | cons s l => exact clean_ofSegments hl hne

end BlackPearl.Library.Path
