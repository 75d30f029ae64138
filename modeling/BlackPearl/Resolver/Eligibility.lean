import BlackPearl.Acquisition.Titles

/-!
# Eligible releases

Whether a release title belongs to a request, as `internal/resolver/ranking.go` decides it and as
`internal/service/directrange/resolver.go` does. Both compare the words of the titles:
`releaseEligibleForIntent_iff` and `releaseEligible_iff` state the two policies word by word, and
`filters_agree_iff` where they are one.

They differ for an episode of a show whose title has no letters or numbers. And both count the words
that mark auxiliary videos with `strings.Count`, which passes over the second of two in a row.
-/

set_option autoImplicit false

namespace BlackPearl.Resolver

open BlackPearl.Library BlackPearl.Domain BlackPearl.Acquisition

/-- The words that mark auxiliary videos. -/
def auxiliaryMarkers : List (List Char) :=
  ["featurette".toList, "preview".toList, "sample".toList, "teaser".toList, "trailer".toList]

section Filters

variable [TextTables] [LetterTables]

/-! ## The filter of the resolver -/

/-- `containsAdditionalComparisonToken`. -/
def containsAdditionalComparisonToken (requestTitle releaseTitle token : List Char) : Bool :=
  let needle := ' ' :: (token ++ [' '])
  let releaseCount := countText needle (' ' :: (normalizedText releaseTitle ++ [' ']))
  let requestCount := countText needle (' ' :: (normalizedText requestTitle ++ [' ']))
  Nat.blt requestCount releaseCount

/-- `releaseHasAuxiliaryMarker`. -/
def releaseHasAuxiliaryMarker (requestTitle releaseTitle : List Char) : Bool :=
  auxiliaryMarkers.any (containsAdditionalComparisonToken requestTitle releaseTitle)

/-- `releaseStartsWithTitle`. -/
def releaseStartsWithTitle (request : SearchRequest) (releaseTitle : List Char) : Bool :=
  let title := normalizedText request.title.toList
  let release := normalizedText releaseTitle
  release == title || (title ++ [' ']).isPrefixOf release

/-- `releaseMatchesYear`. -/
def releaseMatchesYear (request : SearchRequest) (releaseTitle : List Char) : Bool :=
  if 0 < request.episode then true
  else
    containsText (' ' :: (decimal request.year ++ [' ']))
      (' ' :: (normalizedText releaseTitle ++ [' ']))

/-- `releaseMatches`. -/
def releaseMatches (request : SearchRequest) (releaseTitle : List Char) : Bool :=
  let needle :=
    if 0 < request.episode then request.title.toList ++ ' ' :: episodeToken 'S' 'E' request
    else request.title.toList
  containsText (' ' :: (normalizedText needle ++ [' '])) (' ' :: (normalizedText releaseTitle ++ [' ']))

/-- `releaseEligibleForIntent`. -/
def releaseEligibleForIntent (request : SearchRequest) (releaseTitle : List Char) : Bool :=
  if 0 < request.episode then
    releaseMatches request releaseTitle &&
      !releaseHasAuxiliaryMarker request.title.toList releaseTitle
  else
    releaseStartsWithTitle request releaseTitle && releaseMatchesYear request releaseTitle &&
      !releaseHasAuxiliaryMarker request.title.toList releaseTitle

/-! ## The filter of the direct files -/

/-- `hasAuxiliaryMarker` of `directrange`. -/
def hasAuxiliaryMarker (requestTitle candidateTitle : List Char) : Bool :=
  let request := ' ' :: (normalizedText requestTitle ++ [' '])
  let candidate := ' ' :: (normalizedText candidateTitle ++ [' '])
  auxiliaryMarkers.any fun marker =>
    let needle := ' ' :: (marker ++ [' '])
    Nat.blt (countText needle request) (countText needle candidate)

/-- `releaseEligible` of `directrange`. -/
def releaseEligible (request : SearchRequest) (releaseTitle : List Char) : Bool :=
  let release := ' ' :: (normalizedText releaseTitle ++ [' '])
  let title := normalizedText request.title.toList
  if title == [] || hasAuxiliaryMarker request.title.toList releaseTitle then false
  else if request.mediaType = .episode then
    containsText (' ' :: (title ++ ' ' :: (episodeToken 's' 'e' request ++ [' ']))) release
  else if release != ' ' :: (title ++ [' ']) && !(' ' :: (title ++ [' '])).isPrefixOf release then false
  else containsText (' ' :: (decimal request.year ++ [' '])) release

/-! ## Words -/

/-- A request as `NewMovieSearch` and `NewEpisodeSearch` return it. -/
def Validated (request : SearchRequest) : Prop :=
  (∃ title year, newMovieSearch title year = .ok request) ∨
    ∃ title year season episode, newEpisodeSearch title year season episode = .ok request

/-- The words of the title that is asked for. -/
def titleWords (request : SearchRequest) : List (List Char) := comparisonWords request.title.toList

/-- The release has the title that is asked for: for a movie it starts with it and has the year, and
for an episode the token of the episode follows immediately. -/
def TitleMatches (request : SearchRequest) (releaseTitle : List Char) : Prop :=
  match request.mediaType with
  | .episode =>
      titleWords request ++ [episodeToken 's' 'e' request] <:+: comparisonWords releaseTitle
  | _ => titleWords request <+: comparisonWords releaseTitle ∧
      decimal request.year ∈ comparisonWords releaseTitle

/-- No marker is counted more often than in the title that is asked for, where the word after a
counted one is passed over. -/
def NoMarkerCounted (request : SearchRequest) (releaseTitle : List Char) : Prop :=
  ∀ m ∈ auxiliaryMarkers,
    spacedCount m (comparisonWords releaseTitle) ≤ spacedCount m (titleWords request)

/-- No marker stands more often than in the title that is asked for. -/
def NoMarkerAdded (request : SearchRequest) (releaseTitle : List Char) : Prop :=
  ∀ m ∈ auxiliaryMarkers,
    (comparisonWords releaseTitle).count m ≤ (titleWords request).count m

omit [TextTables] [LetterTables] in
theorem Validated.cases {request : SearchRequest} (h : Validated request) :
    (request.mediaType = .movie ∧ request.episode = 0 ∧ 0 ≤ request.year) ∨
      (request.mediaType = .episode ∧ 0 < request.episode ∧ 0 ≤ request.season) := by
  rcases h with ⟨title, year, h⟩ | ⟨title, year, season, episode, h⟩
  · simp only [newMovieSearch, validateSearchYear, bind_eq_ok, pure_eq_ok, require_eq_ok] at h
    obtain ⟨clean, -, _, hyear, rfl⟩ := h
    exact Or.inl ⟨rfl, rfl, by dsimp only; omega⟩
  · simp only [newEpisodeSearch, validateSearchYear, bind_eq_ok, pure_eq_ok, require_eq_ok] at h
    obtain ⟨clean, -, _, -, _, hseason, _, hepisode, rfl⟩ := h
    exact Or.inr ⟨rfl, by dsimp only; omega, hseason.1⟩

theorem titleWords_separable (request : SearchRequest) : Separable ' ' (titleWords request) :=
  comparisonWords_separable _

omit [TextTables] [LetterTables] in
theorem separable_singleton {w : List Char} (hne : w ≠ []) (hfree : ' ' ∉ w) :
    Separable ' ' [w] := by
  intro v hv
  rw [List.mem_singleton.1 hv]
  exact ⟨hne, hfree⟩

omit [TextTables] [LetterTables] in
theorem frame_singleton (w : List Char) : frame ' ' [w] = ' ' :: (w ++ [' ']) := by
  rw [frame, joinWords, List.intercalate_singleton]

omit [TextTables] [LetterTables] in
theorem marker_separable {m : List Char} (h : m ∈ auxiliaryMarkers) : m ≠ [] ∧ ' ' ∉ m := by
  simp only [auxiliaryMarkers, List.mem_cons, List.not_mem_nil, or_false] at h
  rcases h with rfl | rfl | rfl | rfl | rfl <;> exact ⟨by decide, by decide⟩

omit [TextTables] [LetterTables] in
theorem decimal_separable (n : ℤ) : decimal n ≠ [] ∧ ' ' ∉ decimal n := by
  refine ⟨?_, fun hmem => ?_⟩
  · intro hempty
    have hparse := parseDecimal_decimal n
    rw [hempty] at hparse
    cases hparse
  · rcases isDigit_or_minus_of_mem_decimal hmem with h | h
    · revert h
      decide
    · revert h
      decide

omit [TextTables] [LetterTables] in
theorem episodeToken_free {request : SearchRequest} (hseason : 0 ≤ request.season)
    (hepisode : 0 ≤ request.episode) {s e : Char} (hs : isSpace s = false) (he : isSpace e = false) :
    ∀ c ∈ episodeToken s e request, isSpace c = false := by
  intro c hc
  simp only [episodeToken, List.mem_cons, List.mem_append] at hc
  rcases hc with rfl | hc | rfl | hc
  · exact hs
  · exact not_isSpace_of_isDigit (isDigit_of_mem_twoDigits hseason hc)
  · exact he
  · exact not_isSpace_of_isDigit (isDigit_of_mem_twoDigits hepisode hc)

omit [TextTables] [LetterTables] in
theorem episodeToken_separable {request : SearchRequest} (hseason : 0 ≤ request.season)
    (hepisode : 0 ≤ request.episode) :
    episodeToken 's' 'e' request ≠ [] ∧ ' ' ∉ episodeToken 's' 'e' request := by
  refine ⟨List.cons_ne_nil _ _, fun hmem => ?_⟩
  have hspace := episodeToken_free hseason hepisode (by decide) (by decide) ' ' hmem
  revert hspace
  decide

theorem map_twoDigits {n : ℤ} (h : 0 ≤ n) :
    (twoDigits n).map comparisonCharacter = twoDigits n := by
  conv_rhs => rw [← List.map_id (twoDigits n)]
  exact List.map_congr_left fun c hc => comparisonCharacter_digit (isDigit_of_mem_twoDigits h hc)

/-- The token in capitals is one word, and that word is the token. -/
theorem comparisonWords_episodeToken {request : SearchRequest} (hseason : 0 ≤ request.season)
    (hepisode : 0 ≤ request.episode) :
    comparisonWords (episodeToken 'S' 'E' request) = [episodeToken 's' 'e' request] := by
  have hmap : (episodeToken 'S' 'E' request).map comparisonCharacter =
      episodeToken 's' 'e' request := by
    have hs : comparisonCharacter 'S' = 's' := comparisonCharacter_ascii (by decide) (by decide)
    have he : comparisonCharacter 'E' = 'e' := comparisonCharacter_ascii (by decide) (by decide)
    rw [episodeToken, List.map_cons, List.map_append, List.map_cons, map_twoDigits hseason,
      map_twoDigits hepisode, hs, he]
    rfl
  rw [comparisonWords, hmap]
  exact fields_eq_singleton (List.cons_ne_nil _ _)
    (episodeToken_free hseason hepisode (by decide) (by decide))

/-! ## Each part word by word -/

theorem containsAdditionalComparisonToken_iff (request : SearchRequest)
    (releaseTitle : List Char) {m : List Char} (hm : m ∈ auxiliaryMarkers) :
    containsAdditionalComparisonToken request.title.toList releaseTitle m = true ↔
      spacedCount m (titleWords request) < spacedCount m (comparisonWords releaseTitle) := by
  obtain ⟨hne, hfree⟩ := marker_separable hm
  have hcount : ∀ value, countText (' ' :: (m ++ [' '])) (' ' :: (normalizedText value ++ [' '])) =
      spacedCount m (comparisonWords value) := by
    intro value
    rw [← frame_singleton]
    exact countText_frame hne hfree (comparisonWords_separable value)
  rw [containsAdditionalComparisonToken, Nat.blt_eq, hcount, hcount]
  rfl

theorem releaseHasAuxiliaryMarker_iff (request : SearchRequest) (releaseTitle : List Char) :
    releaseHasAuxiliaryMarker request.title.toList releaseTitle = false ↔
      NoMarkerCounted request releaseTitle := by
  rw [releaseHasAuxiliaryMarker, List.any_eq_false]
  refine forall₂_congr fun m hm => ?_
  rw [containsAdditionalComparisonToken_iff request releaseTitle hm, Nat.not_lt]

theorem hasAuxiliaryMarker_eq (requestTitle releaseTitle : List Char) :
    hasAuxiliaryMarker requestTitle releaseTitle =
      releaseHasAuxiliaryMarker requestTitle releaseTitle :=
  rfl

theorem containsText_word_iff {w : List Char} (hne : w ≠ []) (hfree : ' ' ∉ w)
    (releaseTitle : List Char) :
    containsText (' ' :: (w ++ [' '])) (' ' :: (normalizedText releaseTitle ++ [' '])) = true ↔
      w ∈ comparisonWords releaseTitle := by
  rw [← frame_singleton, ← List.singleton_infix_iff]
  exact containsText_frame_iff [w] releaseTitle (separable_singleton hne hfree)
    (List.cons_ne_nil w [])

theorem releaseStartsWithTitle_iff (request : SearchRequest) (releaseTitle : List Char) :
    releaseStartsWithTitle request releaseTitle = true ↔
      (titleWords request = [] ∧ comparisonWords releaseTitle = []) ∨
        (titleWords request ≠ [] ∧ titleWords request <+: comparisonWords releaseTitle) := by
  have hrelease := comparisonWords_separable releaseTitle
  have hunfold : releaseStartsWithTitle request releaseTitle = true ↔
      joinWords ' ' (comparisonWords releaseTitle) = joinWords ' ' (titleWords request) ∨
        joinWords ' ' (titleWords request) ++ [' '] <+:
          joinWords ' ' (comparisonWords releaseTitle) := by
    simp only [releaseStartsWithTitle, Bool.or_eq_true, beq_iff_eq, List.isPrefixOf_iff_prefix]
    exact Iff.rfl
  rw [hunfold]
  by_cases hempty : titleWords request = []
  · have hjoin : joinWords ' ' (titleWords request) = [] := by
      rw [hempty]
      rfl
    rw [hjoin, joinWords_eq_nil hrelease]
    constructor
    · rintro (h | h)
      · exact Or.inl ⟨hempty, h⟩
      · exact absurd h (not_isPrefix_joinWords hrelease)
    · rintro (⟨-, h⟩ | ⟨h, -⟩)
      · exact Or.inl h
      · exact absurd hempty h
  · rw [joinWords_eq_or_isPrefix_iff (titleWords_separable request) hrelease hempty]
    constructor
    · exact fun h => Or.inr ⟨hempty, h⟩
    · rintro (⟨h, -⟩ | ⟨-, h⟩)
      · exact absurd h hempty
      · exact h

/-- The policy of the resolver: an episode of a show without letters or numbers needs its token
alone. -/
theorem releaseEligibleForIntent_iff {request : SearchRequest} (hvalid : Validated request)
    (releaseTitle : List Char) :
    releaseEligibleForIntent request releaseTitle = true ↔
      (titleWords request ≠ [] ∨ request.mediaType = .episode) ∧
        TitleMatches request releaseTitle ∧ NoMarkerCounted request releaseTitle := by
  rw [← releaseHasAuxiliaryMarker_iff]
  rcases hvalid.cases with ⟨htype, hepisode, hyear⟩ | ⟨htype, hepisode, hseason⟩
  · have hno : ¬ 0 < request.episode := by omega
    obtain ⟨hne, hfree⟩ := decimal_separable request.year
    rw [releaseEligibleForIntent, if_neg hno, Bool.and_eq_true, Bool.and_eq_true,
      Bool.not_eq_true', releaseMatchesYear, if_neg hno, containsText_word_iff hne hfree,
      releaseStartsWithTitle_iff, TitleMatches, htype]
    constructor
    · rintro ⟨⟨⟨-, hempty⟩ | ⟨hne, hstart⟩, hmem⟩, hmarkers⟩
      · rw [hempty] at hmem
        exact absurd hmem List.not_mem_nil
      · exact ⟨Or.inl hne, ⟨hstart, hmem⟩, hmarkers⟩
    · rintro ⟨hne | h, ⟨hstart, hmem⟩, hmarkers⟩
      · exact ⟨⟨Or.inr ⟨hne, hstart⟩, hmem⟩, hmarkers⟩
      · cases h
  · obtain ⟨hne, hfree⟩ := episodeToken_separable hseason (Int.le_of_lt hepisode)
    have hwords : comparisonWords (request.title.toList ++ ' ' :: episodeToken 'S' 'E' request) =
        titleWords request ++ [episodeToken 's' 'e' request] := by
      rw [comparisonWords_append_space,
        comparisonWords_episodeToken hseason (Int.le_of_lt hepisode), titleWords]
    have hseparable : Separable ' ' (titleWords request ++ [episodeToken 's' 'e' request]) :=
      hwords ▸ comparisonWords_separable _
    have hmatches : releaseMatches request releaseTitle = true ↔
        titleWords request ++ [episodeToken 's' 'e' request] <:+: comparisonWords releaseTitle := by
      rw [← containsText_frame_iff _ releaseTitle hseparable (by simp), ← hwords, releaseMatches,
        if_pos hepisode]
      rfl
    rw [releaseEligibleForIntent, if_pos hepisode, Bool.and_eq_true, Bool.not_eq_true', hmatches,
      TitleMatches, htype]
    exact (and_iff_right (Or.inr rfl)).symm

/-- The policy of the direct files: the title that is asked for has letters or numbers. -/
theorem releaseEligible_iff {request : SearchRequest} (hvalid : Validated request)
    (releaseTitle : List Char) :
    releaseEligible request releaseTitle = true ↔
      titleWords request ≠ [] ∧
        TitleMatches request releaseTitle ∧ NoMarkerCounted request releaseTitle := by
  have hempty : normalizedText request.title.toList = [] ↔ titleWords request = [] :=
    joinWords_eq_nil (titleWords_separable request)
  rw [← releaseHasAuxiliaryMarker_iff, ← hasAuxiliaryMarker_eq, releaseEligible]
  by_cases hrefused : titleWords request = [] ∨
      hasAuxiliaryMarker request.title.toList releaseTitle = true
  · rw [if_pos (by rwa [Bool.or_eq_true, beq_iff_eq, hempty])]
    refine iff_of_false (by decide) ?_
    rintro ⟨hne, -, hmarkers⟩
    rcases hrefused with h | h
    · exact hne h
    · rw [hmarkers] at h
      cases h
  rw [if_neg (by rwa [Bool.or_eq_true, beq_iff_eq, hempty])]
  obtain ⟨hne, hmarkers⟩ := not_or.1 hrefused
  rw [Bool.not_eq_true] at hmarkers
  have hrest : (titleWords request ≠ [] ∧ TitleMatches request releaseTitle ∧
      hasAuxiliaryMarker request.title.toList releaseTitle = false) ↔
        TitleMatches request releaseTitle :=
    ⟨fun h => h.2.1, fun h => ⟨hne, h, hmarkers⟩⟩
  rw [hrest, TitleMatches]
  rcases hvalid.cases with ⟨htype, -, hyear⟩ | ⟨htype, hepisode, hseason⟩
  · have hnot : ¬ request.mediaType = .episode := by
      rw [htype]
      decide
    obtain ⟨hyearNe, hyearFree⟩ := decimal_separable request.year
    have hstart : (' ' :: (normalizedText request.title.toList ++ [' '])).isPrefixOf
        (' ' :: (normalizedText releaseTitle ++ [' '])) = true ↔
          titleWords request <+: comparisonWords releaseTitle := by
      rw [List.isPrefixOf_iff_prefix]
      exact frame_isPrefix_iff (titleWords_separable request)
        (comparisonWords_separable releaseTitle) hne
    rw [if_neg hnot, htype]
    by_cases hprefix : titleWords request <+: comparisonWords releaseTitle
    · rw [hstart.2 hprefix, Bool.not_true, Bool.and_false, if_neg (by decide),
        containsText_word_iff hyearNe hyearFree]
      exact (and_iff_right hprefix).symm
    · have hother : ' ' :: (normalizedText releaseTitle ++ [' ']) ≠
          ' ' :: (normalizedText request.title.toList ++ [' ']) := by
        intro heq
        refine hprefix (hstart.1 ?_)
        rw [heq, List.isPrefixOf_iff_prefix]
      rw [Bool.eq_false_iff.2 fun h => hprefix (hstart.1 h), Bool.not_false, Bool.and_true,
        if_pos (bne_iff_ne.2 hother)]
      exact iff_of_false (by decide) (fun h => hprefix h.1)
  · obtain ⟨htokenNe, htokenFree⟩ := episodeToken_separable hseason (Int.le_of_lt hepisode)
    have hseparable : Separable ' ' (titleWords request ++ [episodeToken 's' 'e' request]) := by
      intro w hw
      rcases List.mem_append.1 hw with hw | hw
      · exact titleWords_separable request w hw
      · exact separable_singleton htokenNe htokenFree w hw
    rw [if_pos htype, htype, ← containsText_frame_iff _ releaseTitle hseparable (by simp), frame,
      joinWords_append_singleton ' ' _ _ hne]
    rw [List.append_assoc, List.cons_append]
    rfl

/-! ## One policy -/

/-- The two filters give the same answer, and what either accepts has a title with words, which the
release has as asked for, and no marker more often than the request. -/
structure FiltersAgree (request : SearchRequest) (releaseTitle : List Char) : Prop where
  same : releaseEligibleForIntent request releaseTitle = releaseEligible request releaseTitle
  sound : releaseEligibleForIntent request releaseTitle = true ∨
    releaseEligible request releaseTitle = true →
      titleWords request ≠ [] ∧ TitleMatches request releaseTitle ∧
        NoMarkerAdded request releaseTitle

/-- For the filters to agree, a release that has the token of an episode, of a show whose title has
no letters or numbers, must have a marker; and where the title matches, with no marker counted more
often than in the request, none may stand more often. -/
structure TitlesTold (request : SearchRequest) (releaseTitle : List Char) : Prop where
  wordless : request.mediaType = .episode → titleWords request = [] →
    episodeToken 's' 'e' request ∈ comparisonWords releaseTitle →
      ∃ m ∈ auxiliaryMarkers, m ∈ comparisonWords releaseTitle
  repeated : titleWords request ≠ [] → TitleMatches request releaseTitle →
    NoMarkerCounted request releaseTitle → NoMarkerAdded request releaseTitle

/-- The filters are one policy exactly for these titles. -/
theorem filters_agree_iff (request : SearchRequest) (hvalid : Validated request)
    (releaseTitle : List Char) :
    FiltersAgree request releaseTitle ↔ TitlesTold request releaseTitle := by
  have hresolver := releaseEligibleForIntent_iff hvalid releaseTitle
  have hdirect := releaseEligible_iff hvalid releaseTitle
  constructor
  · rintro ⟨hsame, hsound⟩
    refine ⟨?_, ?_⟩
    · intro htype hempty htoken
      by_contra hnone
      have hmatches : TitleMatches request releaseTitle := by
        rw [TitleMatches, htype, hempty, List.nil_append]
        exact (List.singleton_infix_iff _ _).2 htoken
      have hcounted : NoMarkerCounted request releaseTitle := by
        intro m hm
        rw [spacedCount_eq_zero_iff.2 fun hmem => hnone ⟨m, hm, hmem⟩]
        exact Nat.zero_le _
      have haccepted := hresolver.2 ⟨Or.inr htype, hmatches, hcounted⟩
      exact (hsound (Or.inl haccepted)).1 hempty
    · intro hne hmatches hcounted
      exact (hsound (Or.inr (hdirect.2 ⟨hne, hmatches, hcounted⟩))).2.2
  · rintro ⟨hwordless, hrepeated⟩
    have hnonempty : releaseEligibleForIntent request releaseTitle = true →
        titleWords request ≠ [] := by
      intro haccepted hempty
      obtain ⟨htype | htype, hmatches, hcounted⟩ := hresolver.1 haccepted
      · exact htype hempty
      · rw [TitleMatches, htype, hempty, List.nil_append] at hmatches
        obtain ⟨m, hm, hmem⟩ := hwordless htype hempty ((List.singleton_infix_iff _ _).1 hmatches)
        have hzero := hcounted m hm
        rw [hempty] at hzero
        exact spacedCount_eq_zero_iff.1 (Nat.le_zero.1 hzero) hmem
    have hiff : releaseEligibleForIntent request releaseTitle = true ↔
        releaseEligible request releaseTitle = true := by
      rw [hdirect]
      constructor
      · exact fun h => ⟨hnonempty h, (hresolver.1 h).2⟩
      · exact fun h => hresolver.2 ⟨Or.inl h.1, h.2⟩
    refine ⟨Bool.eq_iff_iff.2 hiff, ?_⟩
    rw [hiff, or_self, hdirect]
    exact fun h => ⟨h.1, h.2.1, hrepeated h.1 h.2.1 h.2.2⟩

end Filters

section SmallRuns

attribute [local instance] TextTables.ascii LetterTables.ascii

/-- A request for the first episode of a show. -/
def firstEpisodeOf (title : String) : SearchRequest := ⟨.episode, title, 2020, 1, 1⟩

theorem firstEpisodeOf_show_validated : Validated (firstEpisodeOf "Show") :=
  Or.inr ⟨"Show", 2020, 1, 1, by decide +kernel⟩

theorem filters_agree_show :
    FiltersAgree (firstEpisodeOf "Show") "Show S01E01 1080p".toList ↔
      TitlesTold (firstEpisodeOf "Show") "Show S01E01 1080p".toList :=
  filters_agree_iff _ firstEpisodeOf_show_validated _

/-- A show without letters or numbers: the resolver takes an episode of any other show. -/
theorem filters_disagree :
    ¬ ∀ request, Validated request → ∀ releaseTitle, FiltersAgree request releaseTitle := by
  intro h
  have hvalid : Validated (firstEpisodeOf "!!!") := Or.inr ⟨"!!!", 2020, 1, 1, by decide +kernel⟩
  have hsame := (h _ hvalid "Other Show S01E01".toList).same
  have hresolver : releaseEligibleForIntent (firstEpisodeOf "!!!") "Other Show S01E01".toList =
      true := by decide +kernel
  have hdirect : releaseEligible (firstEpisodeOf "!!!") "Other Show S01E01".toList = false := by
    decide +kernel
  rw [hresolver, hdirect] at hsame
  cases hsame

end SmallRuns

end BlackPearl.Resolver
