import BlackPearl.Setup.Manifest

/-!
# Acquired media

Requests and results of `internal/acquisition` as the setup service meets them, on texts of arbitrary
bytes: `NewMovieSearch`, `NewEpisodeSearch`, `NewRangeAcquiredMedia`, and `configurationFromAcquired`
of `internal/service/setup/service.go`. The request's rules and the manifest's rules share their
bounds, but only the manifest wants a title that is a path segment (`publishable_iff`).
-/

set_option autoImplicit false

namespace BlackPearl.Setup

open BlackPearl.Library BlackPearl.Library.Path

/-- `maximumSearchTitleBytes`. -/
def maximumSearchTitleBytes : ℕ := 200

/-- `SearchRequest`. -/
structure SearchRequest where
  mediaType : MediaType
  title : ByteText
  year : Int64
  season : Int64 := 0
  episode : Int64 := 0
  deriving DecidableEq, Repr

/-- `AcquiredMedia`, without the release, which publication does not read. -/
structure AcquiredMedia where
  request : SearchRequest
  candidate : MediaCandidate
  deriving DecidableEq, Repr

section Requests

variable [TextTables]

/-- `validateSearchText`. -/
def validateSearchText (name : String) (value : ByteText) (maximumBytes : ℕ) :
    Checked ByteText := do
  let clean := ByteText.trimSpace value
  require (clean ≠ []) (name ++ " is required")
  require (ByteText.byteLength clean ≤ maximumBytes)
    (name ++ " must not exceed " ++ toString maximumBytes ++ " bytes")
  require ((ByteText.runes clean).any isControl = false)
    (name ++ " must not contain control characters")
  return clean

/-- `validateSearchYear`. -/
def validateSearchYear (year : Int64) : Checked Unit :=
  require (¬ (year < 1888 ∨ year > 2100)) ("year must be between 1888 and 2100: " ++ toString year)

/-- `NewMovieSearch`. -/
def newMovieSearch (title : ByteText) (year : Int64) : Checked SearchRequest := do
  let cleanTitle ← validateSearchText "movie title" title maximumSearchTitleBytes
  validateSearchYear year
  return { mediaType := .movie, title := cleanTitle, year := year }

/-- `NewEpisodeSearch`. -/
def newEpisodeSearch (showTitle : ByteText) (year season episode : Int64) :
    Checked SearchRequest := do
  let cleanTitle ← validateSearchText "show title" showTitle maximumSearchTitleBytes
  validateSearchYear year
  require (¬ (season < 0 ∨ season > 99)) ("season must be between 0 and 99: " ++ toString season)
  require (¬ (episode < 1 ∨ episode > 999))
    ("episode must be between 1 and 999: " ++ toString episode)
  return {
    mediaType := .episode
    title := cleanTitle
    year := year
    season := season
    episode := episode }

/-- `validateSearchRequest`. -/
def validateSearchRequest (request : SearchRequest) : Checked SearchRequest :=
  match request.mediaType with
  | .movie => newMovieSearch request.title request.year
  | .episode => newEpisodeSearch request.title request.year request.season request.episode
  | .unset => .error "acquired media requires validated search intent"

/-- `NewRangeAcquiredMedia`. -/
def newRangeAcquiredMedia (request : SearchRequest) (candidate : MediaCandidate) :
    Checked AcquiredMedia := do
  let validatedRequest ← validateSearchRequest request
  let validatedCandidate ← within "validate acquired range media candidate"
    (newProviderMediaCandidate candidate.backing candidate.name candidate.size)
  require (¬ (candidate.extension ≠ [] ∧ candidate.extension ≠ validatedCandidate.extension))
    "acquired range media candidate extension does not match its name"
  return ⟨validatedRequest, validatedCandidate⟩

/-- The title that an acquired episode gets. -/
def acquiredEpisodeTitle (episode : Int64) : ByteText := text "Episode " ++ formatNumber episode

/-- `configurationFromAcquired`. -/
def configurationFromAcquired (media : AcquiredMedia) : Checked SetupConfiguration :=
  let request := media.request
  match request.mediaType with
  | .movie => newSetupConfiguration media.candidate request.title request.year
  | .episode =>
      newSetupEpisodeConfiguration media.candidate request.title request.year request.season
        request.episode (acquiredEpisodeTitle request.episode)
  | .unset => .error ("unsupported acquired media type: " ++ ByteText.quote [])

/-- A request that one of the two constructors accepted. -/
def SearchRequest.Accepted (request : SearchRequest) : Prop :=
  (∃ title year, newMovieSearch title year = .ok request) ∨
    ∃ showTitle year season episode, newEpisodeSearch showTitle year season episode = .ok request

/-- A candidate that `NewProviderMediaCandidate` accepted. -/
def MediaCandidate.Accepted (candidate : MediaCandidate) : Prop :=
  ∃ backing name size, newProviderMediaCandidate backing name size = .ok candidate

/-- The media can be published: it has a configuration, which a manifest accepts and which has a
path. -/
def AcquiredMedia.Publishable (media : AcquiredMedia) : Prop :=
  ∃ c, configurationFromAcquired media = .ok c ∧ (∃ m, newSetupManifest [c] = .ok m) ∧
    ∃ path, c.virtualPath = .ok path

/-- A title that can name a directory. -/
structure SegmentTitle (title : ByteText) : Prop where
  no_slash : slash ∉ title
  no_backslash : Piece.char '\\' ∉ title
  no_dots : ByteText.contains title (text "..") = false
  not_dot : title ≠ text "."

/-! ## Requests and candidates, a second time -/

/-- What the checks of a request's title say about it. -/
structure SearchTitle (title : ByteText) : Prop where
  trimmed : ByteText.trimSpace title = title
  nonempty : title ≠ []
  short : ByteText.byteLength title ≤ maximumSearchTitleBytes
  no_nul : Piece.char '\x00' ∉ title
  again : ∀ name, validateSearchText name title maximumSearchTitleBytes = .ok title

omit [TextTables] in
theorem validateSearchText_eq_ok {name : String} {value title : ByteText}
    (h : validateSearchText name value maximumSearchTitleBytes = .ok title) :
    SearchTitle title := by
  simp only [validateSearchText, bind_eq_ok, pure_eq_ok, require_eq_ok] at h
  obtain ⟨_, hempty, _, hlength, _, hcontrol, rfl⟩ := h
  have htrim := ByteText.trimSpace_trimSpace value
  refine ⟨htrim, hempty, hlength, ?_, ?_⟩
  · intro hnul
    have hrune : '\x00' ∈ ByteText.runes (ByteText.trimSpace value) :=
      List.mem_map.2 ⟨_, hnul, rfl⟩
    have hnot := List.any_eq_false.1 hcontrol _ hrune
    exact hnot rfl
  · intro other
    simp only [validateSearchText, bind_eq_ok, pure_eq_ok, require_eq_ok, htrim]
    exact ⟨(), hempty, (), hlength, (), hcontrol, trivial⟩

omit [TextTables] in
/-- What an accepted request is: a movie, or an episode with its numbers in their ranges. -/
theorem SearchRequest.Accepted.cases {request : SearchRequest} (h : request.Accepted) :
    SearchTitle request.title ∧ ¬ (request.year < 1888 ∨ request.year > 2100) ∧
      (request.mediaType = .movie ∨ request.mediaType = .episode ∧
        ¬ (request.season < 0 ∨ request.season > 99) ∧
        ¬ (request.episode < 1 ∨ request.episode > 999)) ∧
      validateSearchRequest request = .ok request := by
  rcases h with ⟨title, year, h⟩ | ⟨showTitle, year, season, episode, h⟩
  · simp only [newMovieSearch, validateSearchYear, bind_eq_ok, pure_eq_ok, require_eq_ok] at h
    obtain ⟨clean, hclean, _, hyear, rfl⟩ := h
    have htitle := validateSearchText_eq_ok hclean
    refine ⟨htitle, hyear, Or.inl rfl, ?_⟩
    simp only [validateSearchRequest, newMovieSearch, validateSearchYear, bind_eq_ok, pure_eq_ok,
      require_eq_ok]
    exact ⟨clean, htitle.again _, (), hyear, rfl⟩
  · simp only [newEpisodeSearch, validateSearchYear, bind_eq_ok, pure_eq_ok, require_eq_ok] at h
    obtain ⟨clean, hclean, _, hyear, _, hseason, _, hepisode, rfl⟩ := h
    have htitle := validateSearchText_eq_ok hclean
    refine ⟨htitle, hyear, Or.inr ⟨rfl, hseason, hepisode⟩, ?_⟩
    simp only [validateSearchRequest, newEpisodeSearch, validateSearchYear, bind_eq_ok, pure_eq_ok,
      require_eq_ok]
    exact ⟨clean, htitle.again _, (), hyear, (), hseason, (), hepisode, rfl⟩

/-- An accepted candidate passes its checks again unchanged. -/
theorem MediaCandidate.Accepted.again {candidate : MediaCandidate} (h : candidate.Accepted) :
    newProviderMediaCandidate candidate.backing candidate.name candidate.size = .ok candidate ∧
      validateMediaCandidate candidate = .ok candidate := by
  obtain ⟨backing, name, size, h⟩ := h
  obtain ⟨hagain, _, _, _, _, hne, hextension⟩ := newProviderMediaCandidate_idem h
  have hbacking : candidate.backing = ⟨candidate.provider, candidate.objectID⟩ := by
    rw [MediaCandidate.backing, if_neg hne]
  rw [hbacking]
  refine ⟨hagain, ?_⟩
  simp only [validateMediaCandidate, bind_eq_ok, pure_eq_ok, require_eq_ok, hbacking]
  exact ⟨candidate, hagain, (), fun hne => hne.2 (toLower_mediaExtension hextension), rfl⟩

/-- Accepted parts make an acquired medium. -/
theorem newRangeAcquiredMedia_of_accepted {request : SearchRequest} {candidate : MediaCandidate}
    (hrequest : request.Accepted) (hcandidate : candidate.Accepted) :
    newRangeAcquiredMedia request candidate = .ok ⟨request, candidate⟩ := by
  simp only [newRangeAcquiredMedia, bind_eq_ok, pure_eq_ok, require_eq_ok, within_eq_ok]
  exact ⟨request, hrequest.cases.2.2.2, candidate, hcandidate.again.1, (), fun hne => hne.2 rfl,
    rfl⟩

/-- The parts of an acquired medium were accepted. -/
theorem newRangeAcquiredMedia_eq_ok {request : SearchRequest} {candidate : MediaCandidate}
    {media : AcquiredMedia} (h : newRangeAcquiredMedia request candidate = .ok media) :
    media.request.Accepted ∧ media.candidate.Accepted := by
  simp only [newRangeAcquiredMedia, bind_eq_ok, pure_eq_ok, require_eq_ok, within_eq_ok] at h
  obtain ⟨validated, hvalidated, found, hfound, _, _, rfl⟩ := h
  refine ⟨?_, ⟨_, _, _, hfound⟩⟩
  unfold validateSearchRequest at hvalidated
  split at hvalidated
  · exact Or.inl ⟨_, _, hvalidated⟩
  · exact Or.inr ⟨_, _, _, _, hvalidated⟩
  · cases hvalidated

/-! ## Titles -/

theorem validatePathSegment_iff {name : String} {value : ByteText} :
    validatePathSegment name value = .ok () ↔
      (ByteText.trimSpace value ≠ [] ∧ ByteText.trimSpace value ≠ text "." ∧
        ByteText.trimSpace value ≠ text "..") ∧
      slash ∉ value ∧ Piece.char '\\' ∉ value ∧ Piece.char '\x00' ∉ value ∧
        ByteText.contains value (text "..") = false := by
  simp only [validatePathSegment, bind_eq_ok, require_eq_ok, ByteText.containsChar,
    decide_eq_true_eq, not_or, Bool.not_eq_true]
  constructor
  · rintro ⟨_, hblank, hplain⟩
    exact ⟨hblank, hplain⟩
  · rintro ⟨hblank, hplain⟩
    exact ⟨(), hblank, hplain⟩

/-- A title that a request accepts is one that a manifest accepts when it can name a directory. -/
theorem validateTitle_iff {title : ByteText} (h : SearchTitle title) :
    validateTitle title = .ok () ↔ SegmentTitle title := by
  have hshort : ByteText.byteLength title ≤ maximumPlexTitleBytes := h.short
  simp only [validateTitle, bind_eq_ok, require_eq_ok]
  constructor
  · rintro ⟨_, hsegment, _⟩
    obtain ⟨hblank, hslash, hbackslash, _, hdots⟩ := validatePathSegment_iff.1 hsegment
    exact ⟨hslash, hbackslash, hdots, h.trimmed ▸ hblank.2.1⟩
  · intro hsegment
    refine ⟨(), validatePathSegment_iff.2 ⟨?_, hsegment.no_slash, hsegment.no_backslash, h.no_nul,
      hsegment.no_dots⟩, hshort⟩
    rw [h.trimmed]
    refine ⟨h.nonempty, hsegment.not_dot, ?_⟩
    rintro rfl
    have hdots := hsegment.no_dots
    simp [ByteText.contains] at hdots

/-! ## Episodes -/

omit [TextTables] in
theorem mem_acquiredEpisodeTitle {episode : Int64} {c : Char}
    (h : .char c ∈ acquiredEpisodeTitle episode) :
    c ∈ "Episode ".toList ∨ c.isDigit = true ∨ c = '-' := by
  rcases List.mem_append.1 h with h | h
  · obtain ⟨d, hd, hdc⟩ := List.mem_map.1 h
    exact Or.inl (Piece.char.inj hdc ▸ hd)
  · obtain ⟨d, hd, hdc⟩ := List.mem_map.1 h
    exact Or.inr (Piece.char.inj hdc ▸ isDigit_or_minus_of_mem_decimal hd)

omit [TextTables] in
/-- None of the characters that a title must not have is in the title of an acquired episode. -/
theorem notMem_acquiredEpisodeTitle {episode : Int64} {c : Char} (hc : c ∉ "Episode ".toList)
    (hdigit : c.isDigit = false) (hminus : c ≠ '-') : .char c ∉ acquiredEpisodeTitle episode := by
  intro h
  rcases mem_acquiredEpisodeTitle h with h | h | h
  · exact hc h
  · rw [hdigit] at h
    cases h
  · exact hminus h

omit [TextTables] in
theorem acquiredEpisodeTitle_trimSpace {episode : Int64} (hpos : 0 ≤ episode.toInt) :
    ByteText.trimSpace (acquiredEpisodeTitle episode) = acquiredEpisodeTitle episode := by
  have hdecimal : decimal episode.toInt = Nat.toDigits 10 episode.toInt.natAbs :=
    if_neg (not_lt.2 hpos)
  have hne : Nat.toDigits 10 episode.toInt.natAbs ≠ [] := Nat.toDigits_ne_nil
  have hlast : (acquiredEpisodeTitle episode).getLast? =
      some (.char ((Nat.toDigits 10 episode.toInt.natAbs).getLast hne)) := by
    rw [acquiredEpisodeTitle, formatNumber, hdecimal, List.getLast?_append, List.getLast?_map,
      List.getLast?_eq_some_getLast hne]
    rfl
  have hdigit : ((Nat.toDigits 10 episode.toInt.natAbs).getLast hne).isDigit = true :=
    isDigit_of_mem_toDigits (List.getLast_mem hne)
  exact ByteText.trimSpace_of_ends (p := .char 'E') rfl hlast (by decide) (not_isSpace_of_isDigit hdigit)

omit [TextTables] in
theorem byteLength_acquiredEpisodeTitle {episode : Int64} (hpos : 0 ≤ episode.toInt)
    (hle : episode.toInt ≤ 999) : ByteText.byteLength (acquiredEpisodeTitle episode) ≤ 11 := by
  have hword : ByteText.byteLength (text "Episode ") = 8 := by decide
  have hnumber := byteLength_formatNumber hpos (by omega : 0 < 3) (by omega)
  rw [acquiredEpisodeTitle, ByteText.byteLength_append, hword]
  omega

/-- The title of an acquired episode is one that a manifest accepts. -/
theorem validateTitle_acquiredEpisodeTitle {episode : Int64} (hpos : 0 ≤ episode.toInt)
    (hle : episode.toInt ≤ 999) : validateTitle (acquiredEpisodeTitle episode) = .ok () := by
  have hlength := byteLength_acquiredEpisodeTitle hpos hle
  have hne : ∀ other, Piece.char 'E' ∉ other → acquiredEpisodeTitle episode ≠ other := by
    rintro other hother rfl
    exact hother List.mem_cons_self
  simp only [validateTitle, bind_eq_ok, require_eq_ok]
  refine ⟨(), validatePathSegment_iff.2 ⟨?_, ?_⟩, hlength.trans (by decide)⟩
  · rw [acquiredEpisodeTitle_trimSpace hpos]
    exact ⟨hne _ (by decide), hne _ (by decide), hne _ (by decide)⟩
  · refine ⟨notMem_acquiredEpisodeTitle (by decide) (by decide) (by decide),
      notMem_acquiredEpisodeTitle (by decide) (by decide) (by decide),
      notMem_acquiredEpisodeTitle (by decide) (by decide) (by decide), ?_⟩
    rw [ByteText.contains, decide_eq_false_iff_not]
    intro hdots
    exact notMem_acquiredEpisodeTitle (c := '.') (by decide) (by decide) (by decide)
      (hdots.subset List.mem_cons_self)

omit [TextTables] in
/-- The bounds of a request leave an episode's file name short enough. -/
theorem byteLength_episodeFilename {showTitle episodeTitle extension : ByteText}
    {year season episode : Int64} (hshow : ByteText.byteLength showTitle ≤ 200)
    (hyear : 0 ≤ year.toInt ∧ year.toInt < 10 ^ 4)
    (hseason : 0 ≤ season.toInt ∧ season.toInt < 10 ^ 2)
    (hepisode : 0 ≤ episode.toInt ∧ episode.toInt < 10 ^ 3)
    (htitle : ByteText.byteLength episodeTitle ≤ 11)
    (hextension : ByteText.byteLength extension ≤ 4) :
    ByteText.byteLength (episodeFilename showTitle year season episode episodeTitle extension) ≤
      255 := by
  have h₁ := byteLength_formatNumber hyear.1 (by omega) hyear.2
  have h₂ := byteLength_formatTwoDigits hseason.1 (by omega) hseason.2
  have h₃ := byteLength_formatTwoDigits hepisode.1 (by omega) hepisode.2
  have hopen : ByteText.byteLength (text " (") = 2 := by decide
  have hclose : ByteText.byteLength (text ")") = 1 := by decide
  have hs : ByteText.byteLength (text " - S") = 4 := by decide
  have he : ByteText.byteLength (text "E") = 1 := by decide
  have hdash : ByteText.byteLength (text " - ") = 3 := by decide
  simp only [episodeFilename, displayName, ByteText.byteLength_append, hopen, hclose, hs, he, hdash]
  omega

/-! ## Publication -/

omit [TextTables] in
/-- A number between the bounds of a check. -/
theorem not_outside_iff {n lo hi : Int64} :
    ¬ (n < lo ∨ n > hi) ↔ lo.toInt ≤ n.toInt ∧ n.toInt ≤ hi.toInt := by
  rw [not_or, gt_iff_lt, Int64.not_lt, Int64.not_lt, Int64.le_iff_toInt_le, Int64.le_iff_toInt_le]

omit [TextTables] in
theorem byteLength_mediaExtension {extension : ByteText} (h : MediaExtension extension) :
    ByteText.byteLength extension ≤ 4 := by
  rcases h with rfl | rfl <;> decide

/-- The configuration of an accepted movie is refused for its title alone. -/
theorem newSetupConfiguration_iff {candidate : MediaCandidate} {title : ByteText} {year : Int64}
    (hcandidate : candidate.Accepted) (htitle : SearchTitle title)
    (hyear : ¬ (year < 1888 ∨ year > 2100)) :
    (∃ c, newSetupConfiguration candidate title year = .ok c) ↔ SegmentTitle title := by
  have hchecks := validateMediaCandidate_eq_ok hcandidate.again.2
  simp only [newSetupConfiguration, bind_eq_ok, pure_eq_ok, require_eq_ok, within_eq_ok,
    htitle.trimmed]
  constructor
  · rintro ⟨_, _, _, _, _, _, hvalid, _⟩
    exact (validateTitle_iff htitle).1 hvalid
  · intro hsegment
    exact ⟨_, candidate, hcandidate.again.2, (), extension_agrees hchecks, (),
      (validateTitle_iff htitle).2 hsegment, (), hyear, rfl⟩

/-- So is that of an accepted episode. -/
theorem newSetupEpisodeConfiguration_iff {candidate : MediaCandidate} {showTitle : ByteText}
    {year season episode : Int64} (hcandidate : candidate.Accepted)
    (hshow : SearchTitle showTitle) (hyear : ¬ (year < 1888 ∨ year > 2100))
    (hseason : ¬ (season < 0 ∨ season > 99)) (hepisode : ¬ (episode < 1 ∨ episode > 999)) :
    (∃ c, newSetupEpisodeConfiguration candidate showTitle year season episode
      (acquiredEpisodeTitle episode) = .ok c) ↔ SegmentTitle showTitle := by
  have hchecks := validateMediaCandidate_eq_ok hcandidate.again.2
  obtain ⟨hyearLow, hyearHigh⟩ := not_outside_iff.1 hyear
  obtain ⟨hseasonLow, hseasonHigh⟩ := not_outside_iff.1 hseason
  obtain ⟨hepisodeLow, hepisodeHigh⟩ := not_outside_iff.1 hepisode
  simp only [Int64.reduceToInt] at hyearLow hyearHigh hseasonLow hseasonHigh hepisodeLow hepisodeHigh
  have hpos : 0 ≤ episode.toInt := by omega
  have htrim := acquiredEpisodeTitle_trimSpace hpos
  simp only [newSetupEpisodeConfiguration, bind_eq_ok, pure_eq_ok, require_eq_ok, within_eq_ok,
    hshow.trimmed, htrim]
  constructor
  · rintro ⟨_, _, _, _, _, _, _, media, hmedia, _⟩
    exact (validateTitle_iff hshow).1 (newEpisode_eq_ok.1 hmedia).2.1
  · intro hsegment
    have hany : ¬ (year < 1 ∨ year > 9999) := by
      rw [not_outside_iff]
      simp only [Int64.reduceToInt]
      omega
    have hfile := validateFile_provider (validateFile_of_validateMediaCandidate hcandidate.again.2)
      (rfl : validateProvider (text "setup") = .ok ())
    have hlength : ByteText.byteLength (episodeFilename showTitle year season episode
        (acquiredEpisodeTitle episode) candidate.extension) ≤ 255 :=
      byteLength_episodeFilename hshow.short (by omega) (by omega) (by omega)
        (byteLength_acquiredEpisodeTitle hpos hepisodeHigh)
        (byteLength_mediaExtension hchecks.extension)
    have hmedia := newEpisode_eq_ok.2 ⟨(by decide : text "setup-validation" ≠ []),
      (validateTitle_iff hshow).2 hsegment, validateTitle_acquiredEpisodeTitle hpos hepisodeHigh,
      hany, hseason, hepisode, hfile, hlength, rfl⟩
    exact ⟨_, candidate, hcandidate.again.2, (), extension_agrees hchecks, (), hyear, _, hmedia, rfl⟩

/-- An accepted medium has a configuration when its title can name a directory. -/
theorem configurationFromAcquired_iff {request : SearchRequest} {candidate : MediaCandidate}
    (hrequest : request.Accepted) (hcandidate : candidate.Accepted) :
    (∃ c, configurationFromAcquired ⟨request, candidate⟩ = .ok c) ↔ SegmentTitle request.title := by
  obtain ⟨htitle, hyear, htype, _⟩ := hrequest.cases
  rcases htype with htype | ⟨htype, hseason, hepisode⟩
  · simp only [configurationFromAcquired, htype]
    exact newSetupConfiguration_iff hcandidate htitle hyear
  · simp only [configurationFromAcquired, htype]
    exact newSetupEpisodeConfiguration_iff hcandidate htitle hyear hseason hepisode

/-- The configuration of an acquired medium passes its validation again unchanged. -/
theorem validated_of_configurationFromAcquired {media : AcquiredMedia} {c : SetupConfiguration}
    (hcandidate : media.candidate.Accepted) (h : configurationFromAcquired media = .ok c) :
    validateSetupConfiguration c = .ok c := by
  obtain ⟨request, candidate⟩ := media
  obtain ⟨_, _, _, hnew⟩ := hcandidate
  have hne := (newProviderMediaCandidate_idem hnew).2.2.2.2.2.1
  simp only [configurationFromAcquired] at h
  split at h
  · have hitem := @newSetupConfiguration_eq_ok _
      { provider := candidate.provider, objectID := candidate.objectID, name := candidate.name,
        extension := candidate.extension, size := candidate.size, title := request.title,
        year := request.year } c
    rw [SetupConfiguration.candidate_eq rfl hne rfl rfl rfl rfl] at hitem
    exact (hitem h).again
  · have hitem := @newSetupEpisodeConfiguration_eq_ok _
      { provider := candidate.provider, objectID := candidate.objectID, name := candidate.name,
        extension := candidate.extension, size := candidate.size, showTitle := request.title,
        title := acquiredEpisodeTitle request.episode, year := request.year,
        season := request.season, episode := request.episode } c
    rw [SetupConfiguration.candidate_eq rfl hne rfl rfl rfl rfl] at hitem
    exact (hitem h).again
  · cases h

/-- An item that validation gives back makes a manifest, and has a path. -/
theorem newSetupManifest_singleton {c : SetupConfiguration}
    (h : validateSetupConfiguration c = .ok c) :
    newSetupManifest [c] = .ok ⟨[c]⟩ ∧ ∃ path, c.virtualPath = .ok path := by
  obtain ⟨path, hpath⟩ := setupVirtualPath_of_validateSetupConfiguration h
  have hlength : [c].length ≤ maximumSetupManifestItems := by
    rw [List.length_singleton]
    decide
  constructor
  · exact newSetupManifest_eq_ok.2 ⟨List.cons_ne_nil _ _, hlength, [path],
      ⟨.cons h .nil, .cons hpath .nil, List.nodup_singleton _, List.nodup_singleton _⟩⟩
  · refine ⟨path, ?_⟩
    rw [SetupConfiguration.virtualPath, bind_eq_ok]
    exact ⟨c, h, hpath⟩

/-- Every accepted intent with an accepted candidate makes an acquired medium, and it can be
published exactly when the title has no separator, no two dots in a row, and is not a dot. -/
theorem publishable_iff {request : SearchRequest} {candidate : MediaCandidate}
    (hrequest : request.Accepted) (hcandidate : candidate.Accepted) :
    ∃ media, newRangeAcquiredMedia request candidate = .ok media ∧
      (media.Publishable ↔ SegmentTitle request.title) := by
  refine ⟨⟨request, candidate⟩, newRangeAcquiredMedia_of_accepted hrequest hcandidate, ?_⟩
  rw [← configurationFromAcquired_iff hrequest hcandidate]
  constructor
  · rintro ⟨c, hc, _⟩
    exact ⟨c, hc⟩
  · rintro ⟨c, hc⟩
    have hvalid := validated_of_configurationFromAcquired
      (show (⟨request, candidate⟩ : AcquiredMedia).candidate.Accepted from hcandidate) hc
    obtain ⟨hmanifest, hpath⟩ := newSetupManifest_singleton hvalid
    exact ⟨c, hc, ⟨_, hmanifest⟩, hpath⟩

end Requests

section SmallRuns

attribute [local instance] TextTables.ascii

/-- A candidate of one byte. -/
def smallCandidate : MediaCandidate :=
  { provider := text "torbox", objectID := text "1:2", name := text "a.mkv",
    extension := text ".mkv", size := 1 }

theorem smallCandidate_accepted : smallCandidate.Accepted :=
  ⟨⟨text "torbox", text "1:2"⟩, text "a.mkv", 1, by decide +kernel⟩

/-- The theorem above for an episode whose title can name a directory. -/
theorem publishable_episode :
    ∃ request, newEpisodeSearch (text " Dark ") 2017 1 100 = .ok request ∧
      ∃ media, newRangeAcquiredMedia request smallCandidate = .ok media ∧
        (media.Publishable ↔ SegmentTitle request.title) := by
  have hrequest : newEpisodeSearch (text " Dark ") 2017 1 100 =
      .ok ⟨.episode, text "Dark", 2017, 1, 100⟩ := by decide +kernel
  exact ⟨_, hrequest, publishable_iff (Or.inr ⟨_, _, _, _, hrequest⟩) smallCandidate_accepted⟩

/-- A movie that is searched for and cannot be published. -/
theorem unpublishable_movie :
    smallCandidate.Accepted ∧ ∃ request, newMovieSearch (text "Face/Off") 1997 = .ok request ∧
      ∃ media, newRangeAcquiredMedia request smallCandidate = .ok media ∧
        ¬ media.Publishable := by
  have hrequest : newMovieSearch (text "Face/Off") 1997 =
      .ok ⟨.movie, text "Face/Off", 1997, 0, 0⟩ := by decide +kernel
  have hmedia : newRangeAcquiredMedia ⟨.movie, text "Face/Off", 1997, 0, 0⟩ smallCandidate =
      .ok ⟨⟨.movie, text "Face/Off", 1997, 0, 0⟩, smallCandidate⟩ := by decide +kernel
  have hrefused : (configurationFromAcquired
      ⟨⟨.movie, text "Face/Off", 1997, 0, 0⟩, smallCandidate⟩).toOption = none := by decide +kernel
  refine ⟨smallCandidate_accepted, _, hrequest, _, hmedia, ?_⟩
  rintro ⟨c, hc, _⟩
  rw [hc] at hrefused
  cases hrefused

end SmallRuns

end BlackPearl.Setup
