import BlackPearl.Acquisition.Titles
import BlackPearl.Library.Sorting
import Mathlib.Data.List.Nodup

/-!
# Selecting a file

`SelectCandidate` of `internal/service/acquisition/service.go`. The candidates whose names match are
sorted by a procedure that need not be stable, and the first is taken. Distinct object identifiers
make the comparison tell any two candidates apart, so the order in which a provider lists its files
does not matter: `selectCandidate_correct`.
-/

set_option autoImplicit false

namespace BlackPearl.Acquisition

open BlackPearl.Library BlackPearl.Domain

section Selection

variable [TextTables] [LetterTables]

/-! ## The selection -/

/-- `ErrNoPlayableMedia`. -/
def errNoPlayableMedia : String := "acquired object contains no matching playable media"

/-- The comparison that `SelectCandidate` sorts by. -/
def candidateLess (left right : MediaCandidate) : Bool :=
  if left.size ≠ right.size then intGreater left.size right.size
  else
    let leftName := toLowerString left.name
    let rightName := toLowerString right.name
    if leftName ≠ rightName then textLess leftName rightName
    else textLess left.objectID right.objectID

/-- The candidates that `SelectCandidate` sorts. -/
def matchingCandidates (request : SearchRequest) (candidates : List MediaCandidate) :
    List MediaCandidate :=
  if request.mediaType = .episode then
    candidates.filter fun c =>
      containsComparisonPhrase c.name.toList (episodeToken 's' 'e' request)
  else
    let matching := candidates.filter fun c =>
      containsComparisonPhrase c.name.toList request.title.toList
    if matching.isEmpty then candidates else matching

/-- `SelectCandidate`. -/
def selectCandidate (sorter : Sorter MediaCandidate) (request : SearchRequest)
    (candidates : List MediaCandidate) : Checked MediaCandidate :=
  match sorter.sort candidateLess (matchingCandidates request candidates) with
  | [] => .error errNoPlayableMedia
  | first :: _ => .ok first

/-! ## What is selected -/

/-- The phrase that a candidate's name has to contain: the token of the episode, or the title. -/
def requestPhrase (request : SearchRequest) : List Char :=
  if request.mediaType = .episode then episodeToken 's' 'e' request else request.title.toList

/-- A candidate that can be selected: for an episode its name has the token, and for a movie the
title if any candidate's name has it. -/
def Selectable (request : SearchRequest) (candidates : List MediaCandidate) (c : MediaCandidate) :
    Prop :=
  c ∈ candidates ∧
    (request.mediaType = .episode ∨
      (∃ d ∈ candidates, HasPhrase d.name.toList (requestPhrase request)) →
        HasPhrase c.name.toList (requestPhrase request))

/-- Larger, or of the same size with a smaller pair of the name in lower case and the object
identifier. -/
def Better (c d : MediaCandidate) : Prop :=
  d.size < c.size ∨ (c.size = d.size ∧
    (textLess (toLowerString c.name) (toLowerString d.name) = true ∨
      (toLowerString c.name = toLowerString d.name ∧ textLess c.objectID d.objectID = true)))

/-- The result is selectable, and nothing selectable is better. -/
structure BestSelectable (request : SearchRequest) (candidates : List MediaCandidate)
    (result : MediaCandidate) : Prop where
  selectable : Selectable request candidates result
  best : ∀ c, Selectable request candidates c → ¬ Better c result

omit [LetterTables] in
theorem candidateLess_eq :
    candidateLess = byKey MediaCandidate.size intGreater
      (byKey (fun c => toLowerString c.name) textLess
        fun c d => textLess c.objectID d.objectID) :=
  rfl

omit [LetterTables] in
theorem candidateLess_strictWeak : StrictWeak candidateLess := by
  rw [candidateLess_eq]
  exact intGreater_total.byKey (textLess_total.byKey (textLess_total.toStrictWeak.comap _))

omit [LetterTables] in
theorem candidateLess_iff {c d : MediaCandidate} : candidateLess c d = true ↔ Better c d := by
  rw [candidateLess_eq, byKey_eq_true, byKey_eq_true, Better]
  have hname : textLess (toLowerString c.name) (toLowerString d.name) = true →
      toLowerString c.name ≠ toLowerString d.name := by
    intro h heq
    rw [heq, textLess_total.irrefl] at h
    cases h
  simp only [intGreater, intLess, decide_eq_true_eq]
  constructor
  · rintro (⟨-, h⟩ | ⟨hsize, ⟨-, h⟩ | h⟩)
    · exact Or.inl h
    · exact Or.inr ⟨hsize, Or.inl h⟩
    · exact Or.inr ⟨hsize, Or.inr h⟩
  · rintro (h | ⟨hsize, h | h⟩)
    · exact Or.inl ⟨by omega, h⟩
    · exact Or.inr ⟨hsize, Or.inl ⟨hname h, h⟩⟩
    · exact Or.inr ⟨hsize, Or.inr h⟩

omit [LetterTables] in
/-- Candidates of which neither is better have the same object identifier. -/
theorem objectID_eq_of_not_less {c d : MediaCandidate} (hcd : candidateLess c d = false)
    (hdc : candidateLess d c = false) : c.objectID = d.objectID := by
  rw [candidateLess_eq] at hcd hdc
  obtain ⟨-, hcd, hdc⟩ := intGreater_total.key_eq hcd hdc
  obtain ⟨-, hcd, hdc⟩ := textLess_total.key_eq hcd hdc
  by_contra hne
  rcases textLess_total.trichotomy _ _ hne with h | h
  · rw [h] at hcd
    cases hcd
  · rw [h] at hdc
    cases hdc

theorem mem_matchingCandidates {request : SearchRequest} {candidates : List MediaCandidate}
    {c : MediaCandidate} :
    c ∈ matchingCandidates request candidates ↔ Selectable request candidates c := by
  unfold matchingCandidates Selectable requestPhrase
  by_cases hepisode : request.mediaType = .episode
  · simp only [if_pos hepisode, List.mem_filter, containsComparisonPhrase_iff]
    exact and_congr_right fun _ => ⟨fun h _ => h, fun h => h (Or.inl hepisode)⟩
  · simp only [if_neg hepisode]
    by_cases hsome : ∃ d ∈ candidates, HasPhrase d.name.toList request.title.toList
    · obtain ⟨d, hd, hphrase⟩ := hsome
      have hmem : d ∈ candidates.filter fun c =>
          containsComparisonPhrase c.name.toList request.title.toList :=
        List.mem_filter.2 ⟨hd, (containsComparisonPhrase_iff _ _).2 hphrase⟩
      rw [if_neg fun h => List.ne_nil_of_mem hmem (List.isEmpty_iff.1 h), List.mem_filter,
        containsComparisonPhrase_iff]
      exact and_congr_right fun _ => ⟨fun h _ => h, fun h => h (Or.inr ⟨d, hd, hphrase⟩)⟩
    · have hnone : candidates.filter (fun c =>
          containsComparisonPhrase c.name.toList request.title.toList) = [] := by
        rw [List.filter_eq_nil_iff]
        intro d hd hphrase
        exact hsome ⟨d, hd, (containsComparisonPhrase_iff _ _).1 hphrase⟩
      rw [hnone, if_pos List.isEmpty_nil]
      refine (and_iff_left ?_).symm
      rintro (h | h)
      · exact absurd h hepisode
      · exact absurd h hsome

/-- A result is the best of what can be selected. -/
theorem selectCandidate_best {sorter : Sorter MediaCandidate} {request : SearchRequest}
    {candidates : List MediaCandidate} {result : MediaCandidate}
    (h : selectCandidate sorter request candidates = .ok result) :
    BestSelectable request candidates result := by
  unfold selectCandidate at h
  split at h
  · cases h
  · rename_i first rest hsort
    cases h
    obtain ⟨hmem, hleast⟩ := sorter.head_least candidateLess_strictWeak hsort
    refine ⟨mem_matchingCandidates.1 hmem, fun c hc hbetter => ?_⟩
    have hless := hleast c (mem_matchingCandidates.2 hc)
    rw [candidateLess_iff.2 hbetter] at hless
    cases hless

/-- There is a result exactly if something can be selected. -/
theorem selectCandidate_eq_error (sorter : Sorter MediaCandidate) (request : SearchRequest)
    (candidates : List MediaCandidate) :
    (∃ e, selectCandidate sorter request candidates = .error e) ↔
      ∀ c, ¬ Selectable request candidates c := by
  have hnil : (∃ e, selectCandidate sorter request candidates = .error e) ↔
      matchingCandidates request candidates = [] := by
    have hsort : sorter.sort candidateLess (matchingCandidates request candidates) = [] ↔
        matchingCandidates request candidates = [] := sorter.sort_eq_nil
    rw [← hsort, selectCandidate]
    cases sorter.sort candidateLess (matchingCandidates request candidates) with
    | nil => exact iff_of_true ⟨_, rfl⟩ rfl
    | cons first rest =>
      refine iff_of_false ?_ (List.cons_ne_nil first rest)
      rintro ⟨e, he⟩
      cases he
  rw [hnil, List.eq_nil_iff_forall_not_mem]
  exact forall_congr' fun c => not_congr mem_matchingCandidates

theorem selectCandidate_error {sorter : Sorter MediaCandidate} {request : SearchRequest}
    {candidates : List MediaCandidate} {e : String}
    (h : selectCandidate sorter request candidates = .error e) : e = errNoPlayableMedia := by
  unfold selectCandidate at h
  split at h
  · exact (Except.error.inj h).symm
  · cases h

theorem exists_selectable_iff {request : SearchRequest} {candidates : List MediaCandidate} :
    (∃ c, Selectable request candidates c) ↔
      candidates ≠ [] ∧ (request.mediaType = .episode →
        ∃ c ∈ candidates, HasPhrase c.name.toList (requestPhrase request)) := by
  constructor
  · rintro ⟨c, hc, hphrase⟩
    exact ⟨List.ne_nil_of_mem hc, fun hepisode => ⟨c, hc, hphrase (Or.inl hepisode)⟩⟩
  · rintro ⟨hne, hepisode⟩
    by_cases hsome : ∃ c ∈ candidates, HasPhrase c.name.toList (requestPhrase request)
    · obtain ⟨c, hc, hphrase⟩ := hsome
      exact ⟨c, hc, fun _ => hphrase⟩
    · obtain ⟨c, hc⟩ := List.exists_mem_of_ne_nil candidates hne
      refine ⟨c, hc, ?_⟩
      rintro (h | h)
      · exact absurd (hepisode h) hsome
      · exact absurd h hsome

/-- What can be selected does not depend on the order of the candidates. -/
theorem Selectable.perm {request : SearchRequest} {candidates candidates' : List MediaCandidate}
    {c : MediaCandidate} (hperm : candidates'.Perm candidates)
    (h : Selectable request candidates c) : Selectable request candidates' c := by
  refine ⟨hperm.mem_iff.2 h.1, fun hphrase => h.2 (hphrase.imp_right ?_)⟩
  rintro ⟨d, hd, hd'⟩
  exact ⟨d, hperm.mem_iff.1 hd, hd'⟩

/-- The best of candidates with distinct object identifiers is unique. -/
theorem BestSelectable.unique {request : SearchRequest} {candidates : List MediaCandidate}
    {c d : MediaCandidate} (hdistinct : (candidates.map MediaCandidate.objectID).Nodup)
    (hc : BestSelectable request candidates c) (hd : BestSelectable request candidates d) : c = d := by
  have hnot : ∀ {a b}, Selectable request candidates a → BestSelectable request candidates b →
      candidateLess a b = false := by
    intro a b ha hb
    rw [Bool.eq_false_iff, ne_eq, candidateLess_iff]
    exact hb.best a ha
  exact List.inj_on_of_nodup_map hdistinct hc.selectable.1 hd.selectable.1
    (objectID_eq_of_not_less (hnot hc.selectable hd) (hnot hd.selectable hc))

/-- Whatever the sorting procedure does with equal candidates, the selection from candidates with
distinct object identifiers is the same for every order of the list; it succeeds exactly if the list
is not empty and, for an episode, some name has the token; and the result is the best candidate with
the token, or with the title where any name has it. -/
theorem selectCandidate_correct (sorter : Sorter MediaCandidate) (request : SearchRequest)
    (candidates : List MediaCandidate)
    (hdistinct : (candidates.map MediaCandidate.objectID).Nodup) :
    (∀ (sorter' : Sorter MediaCandidate) (candidates' : List MediaCandidate),
      candidates'.Perm candidates →
        selectCandidate sorter' request candidates' = selectCandidate sorter request candidates) ∧
    ((∃ result, selectCandidate sorter request candidates = .ok result) ↔
      candidates ≠ [] ∧ (request.mediaType = .episode →
        ∃ c ∈ candidates, HasPhrase c.name.toList (requestPhrase request))) ∧
    (∀ result, selectCandidate sorter request candidates = .ok result →
      BestSelectable request candidates result) := by
  have hok : ∀ (sorter' : Sorter MediaCandidate) (candidates' : List MediaCandidate),
      (∃ result, selectCandidate sorter' request candidates' = .ok result) ↔
        ∃ c, Selectable request candidates' c := by
    intro sorter' candidates'
    have herror := selectCandidate_eq_error sorter' request candidates'
    cases hresult : selectCandidate sorter' request candidates' with
    | ok result =>
      exact iff_of_true ⟨result, rfl⟩ ⟨result, (selectCandidate_best hresult).selectable⟩
    | error e =>
      refine iff_of_false ?_ ?_
      · rintro ⟨result, h⟩
        cases h
      · rintro ⟨c, hc⟩
        exact herror.1 ⟨e, hresult⟩ c hc
  refine ⟨?_, ?_, fun result h => selectCandidate_best h⟩
  · intro sorter' candidates' hperm
    cases hresult : selectCandidate sorter request candidates with
    | ok result =>
      have hbest := selectCandidate_best hresult
      obtain ⟨result', hresult'⟩ := (hok sorter' candidates').2 ⟨result, hbest.selectable.perm hperm⟩
      have hbest' := selectCandidate_best hresult'
      have hback : BestSelectable request candidates result' :=
        ⟨hbest'.selectable.perm hperm.symm, fun c hc => hbest'.best c (hc.perm hperm)⟩
      rw [hresult', hbest.unique hdistinct hback]
    | error e =>
      have hnone := (selectCandidate_eq_error sorter request candidates).1 ⟨e, hresult⟩
      obtain ⟨e', hresult'⟩ := (selectCandidate_eq_error sorter' request candidates').2
        fun c hc => hnone c (hc.perm hperm.symm)
      rw [hresult', selectCandidate_error hresult, selectCandidate_error hresult']
  · rw [hok, exists_selectable_iff]

end Selection

section SmallRuns

attribute [local instance] TextTables.ascii LetterTables.ascii

/-- A request for the second episode. -/
def secondEpisode : SearchRequest := ⟨.episode, "Example Show", 2020, 1, 2⟩

/-- A file of an episode. -/
def episodeFile (objectID name : String) (size : ℤ) : MediaCandidate :=
  ⟨"torbox-torrent", objectID, name, ".mkv", size⟩

/-- Two files of the second episode, and a larger one of the first. -/
def episodeFiles : List MediaCandidate :=
  [episodeFile "1:1" "Example.Show.S01E01.mkv" 9, episodeFile "1:2" "Example.Show.S01E02.mkv" 5,
    episodeFile "1:3" "example show s01e02.mkv" 5]

example : selectCandidate (Sorter.stable _) secondEpisode episodeFiles =
    .ok (episodeFile "1:3" "example show s01e02.mkv" 5) := by decide +kernel

theorem selectCandidate_reversed :
    selectCandidate (Sorter.stable _) secondEpisode episodeFiles.reverse =
      selectCandidate (Sorter.stable _) secondEpisode episodeFiles :=
  (selectCandidate_correct (Sorter.stable _) secondEpisode episodeFiles (by decide)).1
    (Sorter.stable _) episodeFiles.reverse (List.reverse_perm _)

end SmallRuns

end BlackPearl.Acquisition
