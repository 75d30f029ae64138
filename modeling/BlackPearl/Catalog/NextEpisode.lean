import BlackPearl.Catalog.EpisodeOrder
import BlackPearl.Catalog.Registration

/-!
# The next episode

`prefetchNextEpisode` and `nextEpisode` of `internal/core/catalog.go`. The next episode is looked for
by the text of its path. What is found comes first after the current episode in the order of the
paths, which is the order of the episodes only where `TextOrderAgrees` says so
(`nextEpisode_returnsNext_iff`).
-/

set_option autoImplicit false

namespace BlackPearl.Catalog

open BlackPearl.Library BlackPearl.Library.Path BlackPearl.Setup

/-- The zero value of `Media`. -/
def zeroMedia : Media where
  id := []
  mediaType := .unset
  title := []
  year := 0
  extension := []
  virtualPath := []
  size := 0
  backing := ⟨[], []⟩

/-- The test of the loop of `nextEpisode`: an episode of the series with a path after the current
one. -/
def isCandidate (seriesPrefix currentPath : ByteText) (candidate : Media) : Bool :=
  candidate.mediaType = .episode && ByteText.lt currentPath candidate.virtualPath &&
    seriesPrefix.isPrefixOf candidate.virtualPath

/-- One round of that loop. -/
def selectEpisode (seriesPrefix currentPath : ByteText) (selected candidate : Media) : Media :=
  if isCandidate seriesPrefix currentPath candidate &&
      (selected.id = [] || ByteText.lt candidate.virtualPath selected.virtualPath) then candidate
  else selected

/-- `nextEpisode`. -/
def nextEpisode (current : Media) (items : List Media) : Option Media :=
  let parts := segments current.virtualPath
  if parts.length ≠ 4 ∨ parts.head? ≠ some (text "TV Shows") then none
  else
    let seriesPrefix := ofSegments (parts.take 2) ++ [slash]
    let selected := items.foldl (selectEpisode seriesPrefix current.virtualPath) zeroMedia
    if selected.id = [] then none else some selected

/-- `prefetchNextEpisode`: the media whose next episode has been looked for, and what the source is
asked to prefetch. `listed` is what the repository lists, if it does. -/
def prefetchNextEpisode (supported : Bool) (listed : Option (List Media)) (current : Media)
    (prefetchedNextOf : List ByteText) : List ByteText × Option Media :=
  if ¬ supported ∨ current.mediaType ≠ .episode then (prefetchedNextOf, none)
  else if prefetchedNextOf.contains current.id then (prefetchedNextOf, none)
  else
    match listed with
    | none => (prefetchedNextOf, none)
    | some items => (current.id :: prefetchedNextOf, nextEpisode current items)

/-! ## The loop -/

section Loop

variable {seriesPrefix currentPath : ByteText}

/-- What the loop has selected: nothing, or the candidate whose path comes first. -/
structure Selected (seriesPrefix currentPath : ByteText) (items : List Media) (selected : Media) :
    Prop where
  found : selected.id ≠ [] → selected ∈ items ∧ isCandidate seriesPrefix currentPath selected = true
  first : ∀ m ∈ items, isCandidate seriesPrefix currentPath m = true → selected.id ≠ [] ∧
    ByteText.lt m.virtualPath selected.virtualPath = false

theorem lt_trans_false {t u v : ByteText} (h₁ : ByteText.lt t u = true)
    (h₂ : ByteText.lt v u = false) : ByteText.lt v t = false := by
  simp only [ByteText.lt, decide_eq_true_eq, decide_eq_false_iff_not, not_lt] at h₁ h₂ ⊢
  exact h₁.le.trans h₂

theorem Selected.step {items : List Media} {selected : Media}
    (h : Selected seriesPrefix currentPath items selected) {candidate : Media}
    (hid : candidate.id ≠ []) : Selected seriesPrefix currentPath (items ++ [candidate])
      (selectEpisode seriesPrefix currentPath selected candidate) := by
  unfold selectEpisode
  split
  · next htake =>
    simp only [Bool.and_eq_true, Bool.or_eq_true, decide_eq_true_eq] at htake
    obtain ⟨hcandidate, hbetter⟩ := htake
    refine ⟨fun _ => ⟨by simp, hcandidate⟩, fun m hm hmc => ⟨hid, ?_⟩⟩
    rcases List.mem_append.1 hm with hm | hm
    · obtain ⟨hne, hlt⟩ := h.first m hm hmc
      exact lt_trans_false (hbetter.resolve_left hne) hlt
    · rw [List.mem_singleton.1 hm]
      simp [ByteText.lt]
  · next hskip =>
    refine ⟨fun hne => ?_, fun m hm hmc => ?_⟩
    · obtain ⟨hmem, hcandidate⟩ := h.found hne
      exact ⟨List.mem_append_left _ hmem, hcandidate⟩
    · rcases List.mem_append.1 hm with hm | hm
      · exact h.first m hm hmc
      · obtain rfl := List.mem_singleton.1 hm
        simpa [hmc] using hskip

/-- The loop selects the candidate whose path comes first. -/
theorem selected_foldl {items : List Media} (hid : ∀ m ∈ items, m.id ≠ []) :
    Selected seriesPrefix currentPath items
      (items.foldl (selectEpisode seriesPrefix currentPath) zeroMedia) := by
  induction items using List.reverseRecOn with
  | nil => exact ⟨fun hne => absurd rfl hne, fun m hm => absurd hm List.not_mem_nil⟩
  | append_singleton items candidate ih =>
    rw [List.foldl_concat]
    have hitems := ih fun m hm => hid m (List.mem_append_left _ hm)
    exact hitems.step (hid candidate (by simp))

end Loop

/-! ## Paths of episodes -/

section Paths

variable [TextTables]

/-- The medium is a file of this episode of the show. -/
def IsEpisode (m : Media) (showTitle : ByteText) (year : Int64) (key : EpisodeKey) : Prop :=
  ∃ id season episode episodeTitle extension size backing,
    newEpisode id showTitle year season episode episodeTitle extension size backing = .ok m ∧
      key = ⟨season.toInt.toNat, episode.toInt.toNat⟩

/-- A number of at most three digits in a path. -/
def numeral (n : ℕ) : ByteText := (padded 2 n).map .char

/-- The directory of a show. -/
def seriesDirectory (showTitle : ByteText) (year : Int64) : ByteText :=
  text "TV Shows" ++ slash :: (displayName showTitle year ++ [slash])

/-- The path of an episode below the directory of its show. -/
def episodePath (showTitle : ByteText) (year : Int64) (key : EpisodeKey) (rest : ByteText) :
    ByteText :=
  text "Season " ++ (numeral key.season ++ slash :: (displayName showTitle year ++ (text " - S" ++
    (numeral key.season ++ (text "E" ++ (numeral key.number ++ .char ' ' :: rest))))))

/-- What a built episode shows of itself. -/
structure EpisodeFile (m : Media) (showTitle : ByteText) (year : Int64) (key : EpisodeKey) :
    Prop where
  id_ne : m.id ≠ []
  mediaType : m.mediaType = .episode
  season_le : key.season ≤ 99
  number_pos : 1 ≤ key.number
  number_le : key.number ≤ 999
  no_slash : slash ∉ displayName showTitle year
  path : ∃ rest, m.virtualPath = seriesDirectory showTitle year ++
    episodePath showTitle year key rest
  parts : ∃ season file, segments m.virtualPath =
    [text "TV Shows", displayName showTitle year, season, file]

theorem IsEpisode.file {m : Media} {showTitle : ByteText} {year : Int64} {key : EpisodeKey}
    (h : IsEpisode m showTitle year key) : EpisodeFile m showTitle year key := by
  obtain ⟨id, season, episode, episodeTitle, extension, size, backing, hnew, rfl⟩ := h
  obtain ⟨hpath, hplain⟩ := newEpisode_path hnew
  obtain ⟨hid, _, _, _, hseason, hepisode, _, _, hm⟩ := newEpisode_eq_ok.1 hnew
  rw [not_or, gt_iff_lt, Int64.not_lt, Int64.not_lt, Int64.le_iff_toInt_le,
    Int64.le_iff_toInt_le] at hseason hepisode
  simp only [Int64.reduceToInt] at hseason hepisode
  have hsegments := segments_ofSegments (fun s hs => (hplain s hs).no_slash)
    (List.cons_ne_nil _ _)
  refine {
    id_ne := by rw [hm]; exact hid
    mediaType := by rw [hm]
    season_le := by dsimp only; omega
    number_pos := by dsimp only; omega
    number_le := by dsimp only; omega
    no_slash := (hplain (displayName showTitle year) (by simp [episodeSegments])).no_slash
    path := ⟨text "- " ++ episodeTitle ++ extension, ?_⟩
    parts := ⟨_, _, by rw [hpath]; exact hsegments⟩ }
  rw [hpath, episodeSegments, ofSegments_cons (List.cons_ne_nil _ _),
    ofSegments_cons (List.cons_ne_nil _ _), ofSegments_cons (List.cons_ne_nil _ _),
    ofSegments_singleton]
  have hdash : text " - " = .char ' ' :: text "- " := by decide
  simp [seriesDirectory, episodePath, episodeFilename, hdash, numeral, formatTwoDigits]

variable {m n : Media} {showTitle showTitle' : ByteText} {year year' : Int64} {k l : EpisodeKey}

omit [TextTables] in
/-- A file is below the directory of its own show, and of no other. -/
theorem EpisodeFile.below_iff (h : EpisodeFile m showTitle' year' k)
    (hslash : slash ∉ displayName showTitle year) :
    (seriesDirectory showTitle year).isPrefixOf m.virtualPath = true ↔
      showTitle = showTitle' ∧ year = year' := by
  obtain ⟨rest, hpath⟩ := h.path
  rw [List.isPrefixOf_iff_prefix, hpath]
  constructor
  · rintro ⟨more, hmore⟩
    simp only [seriesDirectory, List.append_assoc, List.cons_append, List.nil_append] at hmore
    have htail := (List.cons.inj (List.append_cancel_left hmore)).2
    exact displayName_inj (append_cons_cancel hslash h.no_slash htail).1
  · rintro ⟨rfl, rfl⟩
    exact List.prefix_append _ _

omit [TextTables] in
theorem bytes_numeral (n : ℕ) : ByteText.bytes (numeral n) = (padded 2 n).map Char.toNat :=
  ByteText.bytes_ascii fun _ hc => toNat_lt_of_isDigit (isDigit_of_mem_padded hc)

omit [TextTables] in
theorem bytes_char_cons {c : Char} (hc : c.toNat < 128) (t : ByteText) :
    ByteText.bytes (.char c :: t) = c.toNat :: ByteText.bytes t := by
  have hpiece : Piece.bytes (.char c) = [c.toNat] := if_pos hc
  rw [ByteText.bytes, List.flatMap_cons, hpiece, List.singleton_append]
  rfl

omit [TextTables] in
/-- The order of the paths of a show's episodes. -/
theorem EpisodeFile.path_lt (hm : EpisodeFile m showTitle year k)
    (hn : EpisodeFile n showTitle year l) (h : k.TextBefore l) :
    ByteText.lt m.virtualPath n.virtualPath = true := by
  obtain ⟨rest, hmpath⟩ := hm.path
  obtain ⟨rest', hnpath⟩ := hn.path
  rw [hmpath, hnpath, ByteText.lt_append_left, episodePath, episodePath, ByteText.lt_append_left]
  rcases h with hseason | ⟨hseason, hnumber⟩
  · have hk := hm.season_le
    have hl := hn.season_le
    have hlength : (padded 2 k.season).length = (padded 2 l.season).length := by
      rw [length_padded (by omega) (by omega), length_padded (by omega) (by omega)]
    rw [ByteText.lt, decide_eq_true_eq, ByteText.bytes_append, ByteText.bytes_append, bytes_numeral,
      bytes_numeral]
    exact digits_lt_of_value (fun c hc => isDigit_of_mem_padded hc)
      (fun c hc => isDigit_of_mem_padded hc) hlength
      (by rwa [decimalValue_padded, decimalValue_padded]) _ _
  · have hk := hm.number_le
    have hl := hn.number_le
    have hslash : ∀ t u : ByteText, ByteText.lt (slash :: t) (slash :: u) = ByteText.lt t u :=
      ByteText.lt_append_left [slash]
    rw [hseason, ByteText.lt_append_left, hslash, ByteText.lt_append_left,
      ByteText.lt_append_left, ByteText.lt_append_left, ByteText.lt_append_left,
      ByteText.lt, decide_eq_true_eq, ByteText.bytes_append,
      ByteText.bytes_append, bytes_numeral, bytes_numeral, bytes_char_cons (by decide),
      bytes_char_cons (by decide)]
    exact padded_lt_of_textRank (by omega) (by omega) hnumber _ _

omit [TextTables] in
theorem EpisodeKey.textBefore_total (h : k ≠ l) : k.TextBefore l ∨ l.TextBefore k := by
  obtain ⟨season, number⟩ := k
  obtain ⟨season', number'⟩ := l
  rcases lt_trichotomy season season' with hlt | rfl | hgt
  · exact Or.inl (Or.inl hlt)
  · have hne : number ≠ number' := by
      rintro rfl
      exact h rfl
    rcases lt_or_gt_of_ne (textRank_injective.ne hne) with hlt | hgt
    · exact Or.inl (Or.inr ⟨rfl, hlt⟩)
    · exact Or.inr (Or.inr ⟨rfl, hgt⟩)
  · exact Or.inr (Or.inl hgt)

omit [TextTables] in
theorem EpisodeKey.not_textBefore_self (k : EpisodeKey) : ¬ k.TextBefore k := by
  rintro (h | ⟨_, h⟩)
  · exact lt_irrefl _ h
  · exact lt_irrefl _ h

omit [TextTables] in
theorem lt_asymm_false {t u : ByteText} (h : ByteText.lt t u = true) : ByteText.lt u t = false := by
  simp only [ByteText.lt, decide_eq_true_eq, decide_eq_false_iff_not] at h ⊢
  exact h.asymm

omit [TextTables] in
/-- Paths of two episodes of a show are in the order of their keys. -/
theorem EpisodeFile.path_lt_iff (hm : EpisodeFile m showTitle year k)
    (hn : EpisodeFile n showTitle year l) (hsame : k = l → m = n) :
    ByteText.lt m.virtualPath n.virtualPath = true ↔ k.TextBefore l := by
  refine ⟨fun hlt => ?_, hm.path_lt hn⟩
  by_cases hkl : k = l
  · rw [hsame hkl] at hlt
    rw [lt_asymm_false hlt] at hlt
    cases hlt
  · rcases EpisodeKey.textBefore_total hkl with hbefore | hafter
    · exact hbefore
    · rw [lt_asymm_false (hn.path_lt hm hafter)] at hlt
      cases hlt

end Paths

/-! ## What is found -/

section Found

variable [TextTables]

/-- The episodes of the show that the catalog has. -/
def InCatalog (items : List Media) (showTitle : ByteText) (year : Int64) (k : EpisodeKey) : Prop :=
  ∃ m ∈ items, IsEpisode m showTitle year k

/-- No two media of the catalog are files of one episode. -/
def OneFileEach (items : List Media) : Prop :=
  ∀ m ∈ items, ∀ n ∈ items, ∀ showTitle year k, IsEpisode m showTitle year k →
    IsEpisode n showTitle year k → m = n

/-- The catalog's episode of the show that comes first after `c` in the order of the numbers, or
nothing when there is none. -/
def ReturnsNext (items : List Media) (showTitle : ByteText) (year : Int64) (c : EpisodeKey) :
    Option Media → Prop
  | none => ∀ m ∈ items, ∀ k, IsEpisode m showTitle year k → ¬ c.Before k
  | some next => next ∈ items ∧ ∃ k, IsEpisode next showTitle year k ∧ c.Before k ∧
      ∀ m ∈ items, ∀ l, IsEpisode m showTitle year l → c.Before l → ¬ l.Before k

variable {items : List Media} {current : Media} {showTitle : ByteText} {year : Int64}
  {c : EpisodeKey}

/-- A medium whose type is episode is a file of some episode. -/
theorem Built.isEpisode {m : Media} (h : Built m) (htype : m.mediaType = .episode) :
    ∃ showTitle year k, IsEpisode m showTitle year k := by
  cases h with
  | movie hmovie =>
    obtain ⟨_, _, _, _, rfl⟩ := newMovie_eq_ok.1 hmovie
    cases htype
  | episode hepisode => exact ⟨_, _, _, _, _, _, _, _, _, _, hepisode, rfl⟩

/-- The candidates are the episodes of the show after the current one in the order of the paths. -/
theorem isCandidate_iff (hunique : OneFileEach items) (hcurrent : current ∈ items)
    (hc : IsEpisode current showTitle year c) {m : Media} (hm : m ∈ items) {k : EpisodeKey}
    (hk : IsEpisode m showTitle year k) :
    isCandidate (seriesDirectory showTitle year) current.virtualPath m = true ↔ c.TextBefore k := by
  have horder := hc.file.path_lt_iff hk.file fun h =>
    hunique current hcurrent m hm showTitle year c hc (h ▸ hk)
  have hbelow := (hk.file.below_iff hc.file.no_slash).2 ⟨rfl, rfl⟩
  simp [isCandidate, hk.file.mediaType, hbelow, horder]

/-- What `nextEpisode` returns comes first after the current episode in the order of the paths. -/
theorem nextEpisode_spec (hbuilt : ∀ m ∈ items, Built m) (hunique : OneFileEach items)
    (hcurrent : current ∈ items) (hc : IsEpisode current showTitle year c) :
    (nextEpisode current items = none ∧
      IsFirstAfter EpisodeKey.TextBefore (InCatalog items showTitle year) c none) ∨
    ∃ next ∈ items, ∃ k, nextEpisode current items = some next ∧ IsEpisode next showTitle year k ∧
      IsFirstAfter EpisodeKey.TextBefore (InCatalog items showTitle year) c (some k) := by
  have hid : ∀ m ∈ items, m.id ≠ [] := by
    intro m hm
    cases hbuilt m hm with
    | movie h => rw [(newMovie_eq_ok.1 h).2.2.2.2]; exact (newMovie_eq_ok.1 h).1
    | episode h => exact (IsEpisode.file ⟨_, _, _, _, _, _, _, h, rfl⟩).id_ne
  obtain ⟨season, file, hparts⟩ := hc.file.parts
  have hprefix : ofSegments [text "TV Shows", displayName showTitle year] ++ [slash] =
      seriesDirectory showTitle year := by
    rw [ofSegments_cons (List.cons_ne_nil _ _), ofSegments_singleton, seriesDirectory,
      List.append_assoc, List.cons_append]
  have hselected : Selected (seriesDirectory showTitle year) current.virtualPath items
      (items.foldl (selectEpisode (seriesDirectory showTitle year) current.virtualPath)
        zeroMedia) := selected_foldl hid
  have hcode : nextEpisode current items =
      if (items.foldl (selectEpisode (seriesDirectory showTitle year) current.virtualPath)
        zeroMedia).id = [] then none
      else some (items.foldl (selectEpisode (seriesDirectory showTitle year) current.virtualPath)
        zeroMedia) := by
    simp [nextEpisode, hparts, hprefix]
  rw [hcode]
  generalize items.foldl (selectEpisode (seriesDirectory showTitle year) current.virtualPath)
    zeroMedia = selected at hselected
  by_cases hempty : selected.id = []
  · rw [if_pos hempty]
    refine Or.inl ⟨rfl, ?_⟩
    rintro k ⟨m, hm, hk⟩ hbefore
    exact (hselected.first m hm ((isCandidate_iff hunique hcurrent hc hm hk).2 hbefore)).1 hempty
  · rw [if_neg hempty]
    obtain ⟨hmem, hcandidate⟩ := hselected.found hempty
    obtain ⟨⟨htype, _⟩, hbelow⟩ : (selected.mediaType = .episode ∧ ByteText.lt current.virtualPath
        selected.virtualPath = true) ∧
        (seriesDirectory showTitle year).isPrefixOf selected.virtualPath = true := by
      simpa [isCandidate] using hcandidate
    obtain ⟨showTitle', year', k, hk⟩ := (hbuilt selected hmem).isEpisode htype
    obtain ⟨rfl, rfl⟩ := (hk.file.below_iff hc.file.no_slash).1 hbelow
    refine Or.inr ⟨selected, hmem, k, rfl, hk, ⟨selected, hmem, hk⟩,
      (isCandidate_iff hunique hcurrent hc hmem hk).1 hcandidate, ?_⟩
    rintro l ⟨m, hm, hl⟩ hbefore hlk
    have hnot := (hselected.first m hm ((isCandidate_iff hunique hcurrent hc hm hl).2 hbefore)).2
    rw [hl.file.path_lt hk.file hlk] at hnot
    cases hnot

/-- A medium is a file of one episode of a show at most. -/
theorem IsEpisode.key_unique {m : Media} {k l : EpisodeKey} (hk : IsEpisode m showTitle year k)
    (hl : IsEpisode m showTitle year l) : k = l := by
  by_contra hne
  rcases EpisodeKey.textBefore_total hne with h | h
  · have hlt := hk.file.path_lt hl.file h
    rw [lt_asymm_false hlt] at hlt
    cases hlt
  · have hlt := hl.file.path_lt hk.file h
    rw [lt_asymm_false hlt] at hlt
    cases hlt

/-- And of one show. -/
theorem IsEpisode.unique {m : Media} {showTitle' : ByteText} {year' : Int64} {k l : EpisodeKey}
    (hk : IsEpisode m showTitle year k) (hl : IsEpisode m showTitle' year' l) :
    showTitle = showTitle' ∧ year = year' ∧ k = l := by
  have hbelow := (hk.file.below_iff hk.file.no_slash).2 ⟨rfl, rfl⟩
  obtain ⟨rfl, rfl⟩ := (hl.file.below_iff hk.file.no_slash).1 hbelow
  exact ⟨rfl, rfl, hk.key_unique hl⟩

/-- Two files of different episodes. -/
theorem oneFileEach_pair {m n : Media} {k l : EpisodeKey} (hm : IsEpisode m showTitle year k)
    (hn : IsEpisode n showTitle year l) (hne : k ≠ l) : OneFileEach [m, n] := by
  have hapart : ∀ t y j, IsEpisode m t y j → ¬ IsEpisode n t y j := by
    intro t y j hmj hnj
    exact hne ((hm.unique hmj).2.2.trans (hn.unique hnj).2.2.symm)
  intro a ha b hb t y j haj hbj
  simp only [List.mem_cons, List.not_mem_nil, or_false] at ha hb
  rcases ha with rfl | rfl <;> rcases hb with rfl | rfl
  · rfl
  · exact absurd hbj (hapart t y j haj)
  · exact absurd haj (hapart t y j hbj)
  · rfl

/-- `nextEpisode` returns the next episode of the show exactly where the order of the paths agrees
with the order of the episodes. -/
theorem nextEpisode_returnsNext_iff (hbuilt : ∀ m ∈ items, Built m) (hunique : OneFileEach items)
    (hcurrent : current ∈ items) (hc : IsEpisode current showTitle year c) :
    ReturnsNext items showTitle year c (nextEpisode current items) ↔
      TextOrderAgrees (InCatalog items showTitle year) c := by
  have hpos : ∀ k, InCatalog items showTitle year k → 1 ≤ k.number := by
    rintro k ⟨m, _, hk⟩
    exact hk.file.number_pos
  rcases nextEpisode_spec hbuilt hunique hcurrent hc with ⟨hcode, hfirst⟩ |
    ⟨next, hnext, k, hcode, hk, hfirst⟩
  · rw [hcode, ← isFirstAfter_iff hpos hfirst]
    constructor
    · rintro h l ⟨m, hm, hl⟩
      exact h m hm l hl
    · intro h m hm l hl
      exact h l ⟨m, hm, hl⟩
  · rw [hcode, ← isFirstAfter_iff hpos hfirst]
    constructor
    · rintro ⟨_, k', hk', hbefore, hleast⟩
      obtain rfl := hk'.key_unique hk
      exact ⟨⟨next, hnext, hk⟩, hbefore, fun l ⟨m, hm, hl⟩ => hleast m hm l hl⟩
    · rintro ⟨_, hbefore, hleast⟩
      exact ⟨hnext, k, hk, hbefore, fun m hm l hl => hleast l ⟨m, hm, hl⟩⟩

end Found

section SmallRuns

attribute [local instance] TextTables.ascii

/-- A file of an episode of the first season of a show. -/
def smallEpisode (id : String) (episode : Int64) : Checked Media :=
  newEpisode (text id) (text "Dark") 2017 1 episode (text "A") (text ".mkv") 1
    ⟨text "torbox", text "1:2"⟩

theorem smallEpisode_isEpisode {id : String} {episode : Int64} {m : Media}
    (h : smallEpisode id episode = .ok m) :
    IsEpisode m (text "Dark") 2017 ⟨1, episode.toInt.toNat⟩ :=
  ⟨_, _, _, _, _, _, _, h, rfl⟩

/-- The theorem above for the first of two episodes. -/
theorem returnsNext_first : ∃ first second, smallEpisode "a" 1 = .ok first ∧
    smallEpisode "b" 2 = .ok second ∧
    (ReturnsNext [first, second] (text "Dark") 2017 ⟨1, 1⟩ (nextEpisode first [first, second]) ↔
      TextOrderAgrees (InCatalog [first, second] (text "Dark") 2017) ⟨1, 1⟩) := by
  obtain ⟨first, hfirst⟩ : ∃ first, smallEpisode "a" 1 = .ok first := ⟨_, rfl⟩
  obtain ⟨second, hsecond⟩ : ∃ second, smallEpisode "b" 2 = .ok second := ⟨_, rfl⟩
  have hbuilt : ∀ m ∈ [first, second], Built m := by
    simp only [List.forall_mem_cons]
    exact ⟨.episode hfirst, .episode hsecond, fun m hm => absurd hm List.not_mem_nil⟩
  have hunique : OneFileEach [first, second] :=
    oneFileEach_pair (smallEpisode_isEpisode hfirst) (smallEpisode_isEpisode hsecond) (by decide)
  exact ⟨first, second, hfirst, hsecond, nextEpisode_returnsNext_iff hbuilt hunique
    List.mem_cons_self (smallEpisode_isEpisode hfirst)⟩

/-- After episode 99 nothing is found, though the catalog has episode 100. -/
theorem hundredth_not_found : ∃ current hundredth, smallEpisode "a" 99 = .ok current ∧
    smallEpisode "b" 100 = .ok hundredth ∧ OneFileEach [current, hundredth] ∧
    nextEpisode current [current, hundredth] = none ∧
    ¬ ReturnsNext [current, hundredth] (text "Dark") 2017 ⟨1, 99⟩
      (nextEpisode current [current, hundredth]) := by
  obtain ⟨current, hcurrent⟩ : ∃ current, smallEpisode "a" 99 = .ok current := ⟨_, rfl⟩
  obtain ⟨hundredth, hhundredth⟩ : ∃ hundredth, smallEpisode "b" 100 = .ok hundredth := ⟨_, rfl⟩
  have hrun : ((smallEpisode "a" 99).toOption.bind fun m => (smallEpisode "b" 100).toOption.map
      fun n => (nextEpisode m [m, n]).isNone) = some true := by decide +kernel
  rw [hcurrent, hhundredth] at hrun
  have hnone : nextEpisode current [current, hundredth] = none :=
    Option.isNone_iff_eq_none.1 (Option.some.inj hrun)
  refine ⟨current, hundredth, hcurrent, hhundredth, oneFileEach_pair
    (smallEpisode_isEpisode hcurrent) (smallEpisode_isEpisode hhundredth) (by decide), hnone, ?_⟩
  rw [hnone]
  intro h
  exact h hundredth (by simp) _ (smallEpisode_isEpisode hhundredth) (Or.inr ⟨rfl, by decide⟩)

end SmallRuns

end BlackPearl.Catalog
