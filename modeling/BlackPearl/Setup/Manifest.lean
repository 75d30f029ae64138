import BlackPearl.Setup.Media
import Mathlib.Data.List.Forall2
import Mathlib.Data.List.Nodup

/-!
# Setup manifests

The validation of `internal/domain/setup.go`: `NewProviderMediaCandidate`, `NewSetupConfiguration`,
`NewSetupEpisodeConfiguration` and `NewSetupManifest`. What it accepts it accepts again unchanged
(`newSetupManifest_idem`), and it brings no stray byte into a text (`newSetupManifest_isValid`).
-/

set_option autoImplicit false

namespace BlackPearl.Setup

open BlackPearl.Library BlackPearl.Library.Path

/-- `defaultSetupProvider`. -/
def defaultSetupProvider : ByteText := text Domain.defaultSetupProvider

/-- `MaximumSetupManifestItems`. -/
def maximumSetupManifestItems : ℕ := 100

/-- `MediaTypeMovie`. -/
def mediaTypeMovie : ByteText := text "movie"

/-- `MediaTypeEpisode`. -/
def mediaTypeEpisode : ByteText := text "episode"

/-- `MediaCandidate`. -/
structure MediaCandidate where
  provider : ByteText
  objectID : ByteText
  name : ByteText
  extension : ByteText
  size : Int64
  deriving DecidableEq, Repr

/-- `SetupConfiguration`; its media type can be any text. -/
structure SetupConfiguration where
  provider : ByteText := []
  objectID : ByteText := []
  name : ByteText := []
  extension : ByteText := []
  size : Int64 := 0
  mediaType : ByteText := []
  title : ByteText := []
  year : Int64 := 0
  showTitle : ByteText := []
  season : Int64 := 0
  episode : Int64 := 0
  deriving DecidableEq, Repr

/-- `SetupManifest`. -/
structure SetupManifest where
  items : List SetupConfiguration
  deriving DecidableEq, Repr

/-- `MediaCandidate.Backing`. -/
def MediaCandidate.backing (c : MediaCandidate) : BackingRef where
  provider := if c.provider = [] then defaultSetupProvider else c.provider
  objectID := c.objectID

/-- `SetupConfiguration.providerOrDefault`. -/
def SetupConfiguration.providerOrDefault (c : SetupConfiguration) : ByteText :=
  if c.provider = [] then defaultSetupProvider else c.provider

/-- `SetupConfiguration.Candidate`. -/
def SetupConfiguration.candidate (c : SetupConfiguration) : MediaCandidate where
  provider := c.providerOrDefault
  objectID := c.objectID
  name := c.name
  extension := c.extension
  size := c.size

/-- `SetupConfiguration.Backing`. -/
def SetupConfiguration.backing (c : SetupConfiguration) : BackingRef where
  provider := c.providerOrDefault
  objectID := c.objectID

/-- The name that `NewProviderMediaCandidate` checks: slashes for backslashes, trimmed. -/
def cleanMediaName (name : ByteText) : ByteText :=
  ByteText.trimSpace (name.map fun p => if p = .char '\\' then slash else p)

/-- The texts of an item. -/
def SetupConfiguration.texts (c : SetupConfiguration) : List ByteText :=
  [c.provider, c.objectID, c.name, c.extension, c.mediaType, c.title, c.showTitle]

/-- Whether all texts of an item are valid UTF-8. -/
def SetupConfiguration.isValid (c : SetupConfiguration) : Bool := c.texts.all ByteText.isValid

/-- Whether all texts of a manifest are valid UTF-8. -/
def SetupManifest.isValid (m : SetupManifest) : Bool := m.items.all SetupConfiguration.isValid

section Validation

variable [TextTables]

/-- `NewProviderMediaCandidate`. -/
def newProviderMediaCandidate (backing : BackingRef) (name : ByteText) (size : Int64) :
    Checked MediaCandidate := do
  let validated ← within "validate media candidate backing"
    (newBackingRef backing.provider backing.objectID)
  let clean := cleanMediaName name
  require (¬ (clean = [] ∨ ByteText.containsChar clean '\x00' ∨ isAbs clean ∨
      Path.clean clean ≠ clean)) "media candidate name must be a safe relative path"
  require (∀ segment ∈ segments clean, ¬ (segment = [] ∨ segment = text "." ∨ segment = text ".."))
    "media candidate name contains an unsafe path segment"
  let extension := ByteText.toLower (ext clean)
  require (extension = text ".mp4" ∨ extension = text ".mkv")
    ("media candidate extension is unsupported: " ++ ByteText.quote extension)
  require (0 < size) ("media candidate size must be positive: " ++ toString size)
  return {
    provider := validated.provider
    objectID := validated.objectID
    name := clean
    extension := extension
    size := size }

/-- `validateMediaCandidate`. -/
def validateMediaCandidate (candidate : MediaCandidate) : Checked MediaCandidate := do
  let validated ← newProviderMediaCandidate candidate.backing candidate.name candidate.size
  require (¬ (candidate.extension ≠ [] ∧
      ByteText.toLower candidate.extension ≠ validated.extension))
    "media candidate extension does not match its name"
  return validated

/-- `NewSetupConfiguration`. -/
def newSetupConfiguration (candidate : MediaCandidate) (title : ByteText) (year : Int64) :
    Checked SetupConfiguration := do
  let validated ← within "validate media candidate" (validateMediaCandidate candidate)
  require (¬ (candidate.extension ≠ [] ∧
      ByteText.toLower candidate.extension ≠ validated.extension))
    "media candidate extension does not match its name"
  let cleanTitle := ByteText.trimSpace title
  validateTitle cleanTitle
  require (¬ (year < 1888 ∨ year > 2100)) ("year must be between 1888 and 2100: " ++ toString year)
  return {
    provider := validated.provider
    objectID := validated.objectID
    name := validated.name
    extension := validated.extension
    size := validated.size
    mediaType := mediaTypeMovie
    title := cleanTitle
    year := year }

/-- `NewSetupEpisodeConfiguration`. -/
def newSetupEpisodeConfiguration (candidate : MediaCandidate) (showTitle : ByteText)
    (year season episode : Int64) (episodeTitle : ByteText) : Checked SetupConfiguration := do
  let validated ← within "validate media candidate" (validateMediaCandidate candidate)
  require (¬ (candidate.extension ≠ [] ∧
      ByteText.toLower candidate.extension ≠ validated.extension))
    "media candidate extension does not match its name"
  let cleanShowTitle := ByteText.trimSpace showTitle
  let cleanEpisodeTitle := ByteText.trimSpace episodeTitle
  require (¬ (year < 1888 ∨ year > 2100)) ("year must be between 1888 and 2100: " ++ toString year)
  let _ ← newEpisode (text "setup-validation") cleanShowTitle year season episode cleanEpisodeTitle
    validated.extension validated.size ⟨text "setup", validated.objectID⟩
  return {
    provider := validated.provider
    objectID := validated.objectID
    name := validated.name
    extension := validated.extension
    size := validated.size
    mediaType := mediaTypeEpisode
    title := cleanEpisodeTitle
    year := year
    showTitle := cleanShowTitle
    season := season
    episode := episode }

/-- `validateSetupConfiguration`. -/
def validateSetupConfiguration (c : SetupConfiguration) : Checked SetupConfiguration :=
  if c.mediaType = [] ∨ c.mediaType = mediaTypeMovie then
    newSetupConfiguration c.candidate c.title c.year
  else if c.mediaType = mediaTypeEpisode then
    newSetupEpisodeConfiguration c.candidate c.showTitle c.year c.season c.episode c.title
  else .error ("unsupported setup media type: " ++ ByteText.quote c.mediaType)

/-- `setupVirtualPath`. -/
def setupVirtualPath (c : SetupConfiguration) : Checked ByteText := do
  let media ←
    if c.mediaType = mediaTypeEpisode then
      newEpisode (text "setup-path") c.showTitle c.year c.season c.episode c.title c.extension
        c.size c.backing
    else newMovie (text "setup-path") c.title c.year c.extension c.size c.backing
  return media.virtualPath

/-- `SetupConfiguration.VirtualPath`. -/
def SetupConfiguration.virtualPath (c : SetupConfiguration) : Checked ByteText := do
  let validated ← validateSetupConfiguration c
  setupVirtualPath validated

/-- What identifies the object of an item within a manifest. -/
def objectKey (c : SetupConfiguration) : ByteText := c.provider ++ .char '\x00' :: c.objectID

/-- The loop of `NewSetupManifest` over the items from position `index` on; `objects` and
`virtualPaths` are those of the items before. -/
def validateItems (index : ℕ) (objects virtualPaths : List ByteText) :
    List SetupConfiguration → Checked (List SetupConfiguration)
  | [] => return []
  | c :: rest => do
      let item ← within ("validate setup manifest item " ++ toString index)
        (validateSetupConfiguration c)
      require (objectKey item ∉ objects)
        ("setup manifest contains duplicate object ID at item " ++ toString index)
      let virtualPath ← within ("derive setup manifest path at item " ++ toString index)
        (setupVirtualPath item)
      require (virtualPath ∉ virtualPaths)
        ("setup manifest contains duplicate Plex path at item " ++ toString index)
      let validated ←
        validateItems (index + 1) (objectKey item :: objects) (virtualPath :: virtualPaths) rest
      return item :: validated

/-- `NewSetupManifest`. -/
def newSetupManifest (items : List SetupConfiguration) : Checked SetupManifest := do
  require (items ≠ []) "setup manifest requires at least one item"
  require (items.length ≤ maximumSetupManifestItems)
    ("setup manifest supports at most " ++ toString maximumSetupManifestItems ++ " items")
  let validated ← validateItems 0 [] [] items
  return ⟨validated⟩

/-! ## Checking a second time -/

omit [TextTables] in
/-- Replacing backslashes and trimming change nothing the second time. -/
theorem cleanMediaName_idem (name : ByteText) :
    cleanMediaName (cleanMediaName name) = cleanMediaName name := by
  have hmem : ∀ p ∈ cleanMediaName name, p ≠ .char '\\' := by
    intro p hp
    have hmap := (ByteText.trimSpace_sublist _).subset hp
    obtain ⟨q, _, rfl⟩ := List.mem_map.1 hmap
    split
    · decide
    · assumption
  have hreplace : (cleanMediaName name).map (fun p => if p = .char '\\' then slash else p) =
      cleanMediaName name := by
    rw [List.map_congr_left fun p hp => if_neg (hmem p hp), List.map_id']
  calc cleanMediaName (cleanMediaName name) = ByteText.trimSpace (cleanMediaName name) := by
        rw [cleanMediaName, hreplace]
    _ = cleanMediaName name := ByteText.trimSpace_trimSpace _

/-- The extensions of media, which lower case leaves alone. -/
def MediaExtension (extension : ByteText) : Prop := extension = text ".mp4" ∨ extension = text ".mkv"

theorem toLower_mediaExtension {extension : ByteText} (h : MediaExtension extension) :
    ByteText.toLower extension = extension := by
  rcases h with rfl | rfl
  · exact ByteText.toLower_text (by decide)
  · exact ByteText.toLower_text (by decide)

/-- A provider has a name. -/
theorem validateProvider_eq_ok {provider : ByteText} {u : Unit}
    (h : validateProvider provider = .ok u) : provider ≠ [] := by
  simp only [validateProvider, bind_eq_ok, require_eq_ok] at h
  obtain ⟨_, hne, _⟩ := h
  exact hne

/-- A checked candidate passes the same check unchanged. -/
theorem newProviderMediaCandidate_idem {backing : BackingRef} {name : ByteText} {size : Int64}
    {c : MediaCandidate} (h : newProviderMediaCandidate backing name size = .ok c) :
    newProviderMediaCandidate ⟨c.provider, c.objectID⟩ c.name c.size = .ok c ∧
      c.provider = backing.provider ∧ c.objectID = backing.objectID ∧
      c.name = cleanMediaName name ∧ c.size = size ∧ c.provider ≠ [] ∧
      MediaExtension c.extension := by
  simp only [newProviderMediaCandidate, bind_eq_ok, pure_eq_ok, require_eq_ok, within_eq_ok] at h
  obtain ⟨validated, hvalidated, _, hpath, _, hsegments, _, hext, _, hsize, rfl⟩ := h
  obtain ⟨hprovider, _, _, rfl⟩ := newBackingRef_eq_ok.1 hvalidated
  refine ⟨?_, rfl, rfl, rfl, rfl, validateProvider_eq_ok hprovider, hext⟩
  simp only [newProviderMediaCandidate, bind_eq_ok, pure_eq_ok, require_eq_ok, within_eq_ok,
    cleanMediaName_idem]
  exact ⟨_, hvalidated, (), hpath, (), hsegments, (), hext, (), hsize, rfl⟩

/-- What the checks of a candidate leave of it. -/
structure Checks (candidate c : MediaCandidate) : Prop where
  again : validateMediaCandidate c = .ok c
  provider : c.provider = candidate.backing.provider
  objectID : c.objectID = candidate.objectID
  name : c.name = cleanMediaName candidate.name
  size : c.size = candidate.size
  provider_ne : c.provider ≠ []
  extension : MediaExtension c.extension

theorem validateMediaCandidate_eq_ok {candidate c : MediaCandidate}
    (h : validateMediaCandidate candidate = .ok c) : Checks candidate c := by
  simp only [validateMediaCandidate, bind_eq_ok, pure_eq_ok, require_eq_ok] at h
  obtain ⟨validated, hvalidated, _, _, rfl⟩ := h
  obtain ⟨hagain, hprovider, hobject, hname, hsize, hne, hextension⟩ :=
    newProviderMediaCandidate_idem hvalidated
  refine ⟨?_, hprovider, hobject, hname, hsize, hne, hextension⟩
  have hbacking : validated.backing = ⟨validated.provider, validated.objectID⟩ := by
    rw [MediaCandidate.backing, if_neg hne]
  simp only [validateMediaCandidate, bind_eq_ok, pure_eq_ok, require_eq_ok, hbacking]
  exact ⟨validated, hagain, (), fun hne => hne.2 (toLower_mediaExtension hextension), rfl⟩

/-- The extension that a checked candidate shows agrees with its name. -/
theorem extension_agrees {candidate c : MediaCandidate} (h : Checks candidate c) :
    ¬ (c.extension ≠ [] ∧ ByteText.toLower c.extension ≠ c.extension) :=
  fun hne => hne.2 (toLower_mediaExtension h.extension)

omit [TextTables] in
/-- The candidate in an item whose provider is named is that item's fields. -/
theorem SetupConfiguration.candidate_eq {c : SetupConfiguration} {m : MediaCandidate}
    (hprovider : c.provider = m.provider) (hne : m.provider ≠ []) (hobject : c.objectID = m.objectID)
    (hname : c.name = m.name) (hextension : c.extension = m.extension) (hsize : c.size = m.size) :
    c.candidate = m := by
  rw [SetupConfiguration.candidate, SetupConfiguration.providerOrDefault, hprovider, if_neg hne,
    hobject, hname, hextension, hsize]

/-- A validated item: its validation gives it back. -/
structure Validated (c v : SetupConfiguration) : Prop where
  again : validateSetupConfiguration v = .ok v
  provider : v.provider = c.candidate.backing.provider
  objectID : v.objectID = c.objectID
  name : v.name = cleanMediaName c.name
  size : v.size = c.size
  extension : MediaExtension v.extension
  provider_ne : v.provider ≠ []
  title : v.title = ByteText.trimSpace c.title
  showTitle : v.showTitle = [] ∨ v.showTitle = ByteText.trimSpace c.showTitle
  mediaType : v.mediaType = mediaTypeMovie ∨ v.mediaType = mediaTypeEpisode

theorem newSetupConfiguration_eq_ok {c v : SetupConfiguration}
    (h : newSetupConfiguration c.candidate c.title c.year = .ok v) : Validated c v := by
  simp only [newSetupConfiguration, bind_eq_ok, pure_eq_ok, require_eq_ok, within_eq_ok] at h
  obtain ⟨m, hm, _, _, _, htitle, _, hyear, hv⟩ := h
  have hchecks := validateMediaCandidate_eq_ok hm
  have hcandidate : v.candidate = m := by
    subst hv
    exact SetupConfiguration.candidate_eq rfl hchecks.provider_ne rfl rfl rfl rfl
  subst hv
  refine {
    again := ?_
    provider := hchecks.provider
    objectID := hchecks.objectID
    name := hchecks.name
    size := hchecks.size
    extension := hchecks.extension
    provider_ne := hchecks.provider_ne
    title := rfl
    showTitle := Or.inl rfl
    mediaType := Or.inl rfl }
  simp only [validateSetupConfiguration, or_true, if_true, newSetupConfiguration, bind_eq_ok,
    pure_eq_ok, require_eq_ok, within_eq_ok, hcandidate, ByteText.trimSpace_trimSpace]
  exact ⟨m, hchecks.again, (), extension_agrees hchecks, (), htitle, (), hyear, rfl⟩

/-- A checked candidate has an object, an extension and a size that every medium may have. -/
theorem validateFile_of_validateMediaCandidate {candidate c : MediaCandidate}
    (h : validateMediaCandidate candidate = .ok c) :
    validateFile c.extension c.size ⟨c.provider, c.objectID⟩ = .ok () := by
  simp only [validateMediaCandidate, newProviderMediaCandidate, bind_eq_ok, pure_eq_ok,
    require_eq_ok, within_eq_ok] at h
  obtain ⟨_, ⟨b, hbacking, _, _, _, _, _, hext, _, hsize, rfl⟩, _, _, rfl⟩ := h
  have hb : b = candidate.backing := (newBackingRef_eq_ok.1 hbacking).2.2.2
  have hmp4 : validatePathSegment "extension" (text ".mp4").tail = .ok () := rfl
  have hmkv : validatePathSegment "extension" (text ".mkv").tail = .ok () := rfl
  simp only [validateFile, bind_eq_ok, pure_eq_ok, require_eq_ok, within_eq_ok]
  refine ⟨(), ?_, (), ?_, (), ?_, b, ?_, trivial⟩
  · rcases hext with hext | hext
    · rw [hext]
      decide
    · rw [hext]
      decide
  · rcases hext with hext | hext
    · rw [hext]
      exact hmp4
    · rw [hext]
      exact hmkv
  · exact Int64.le_of_lt hsize
  · rw [hb] at hbacking ⊢
    exact hbacking

/-- A checked movie has a path. -/
theorem setupVirtualPath_of_newSetupConfiguration {c : MediaCandidate} {title : ByteText}
    {year : Int64} {v : SetupConfiguration} (h : newSetupConfiguration c title year = .ok v) :
    ∃ path, setupVirtualPath v = .ok path := by
  simp only [newSetupConfiguration, bind_eq_ok, pure_eq_ok, require_eq_ok, within_eq_ok] at h
  obtain ⟨m, hm, _, _, _, htitle, _, hyear, rfl⟩ := h
  have hfile := validateFile_of_validateMediaCandidate hm
  have hne := (validateMediaCandidate_eq_ok hm).provider_ne
  obtain ⟨media, hmedia⟩ : ∃ media, newMovie (text "setup-path") (ByteText.trimSpace title) year
      m.extension m.size ⟨m.provider, m.objectID⟩ = .ok media := by
    refine ⟨_, newMovie_eq_ok.2 ⟨by decide, htitle, ?_, hfile, rfl⟩⟩
    rw [not_or] at hyear ⊢
    simp only [Int64.not_lt, gt_iff_lt] at hyear ⊢
    exact ⟨Int64.le_trans (by decide) hyear.1, Int64.le_trans hyear.2 (by decide)⟩
  refine ⟨media.virtualPath, ?_⟩
  rw [setupVirtualPath, if_neg (show ¬ mediaTypeMovie = mediaTypeEpisode by decide),
    SetupConfiguration.backing, SetupConfiguration.providerOrDefault, if_neg hne, bind_eq_ok]
  exact ⟨media, hmedia, rfl⟩

/-- So has a checked episode. -/
theorem setupVirtualPath_of_newSetupEpisodeConfiguration {c : MediaCandidate}
    {showTitle episodeTitle : ByteText} {year season episode : Int64} {v : SetupConfiguration}
    (h : newSetupEpisodeConfiguration c showTitle year season episode episodeTitle = .ok v) :
    ∃ path, setupVirtualPath v = .ok path := by
  simp only [newSetupEpisodeConfiguration, bind_eq_ok, pure_eq_ok, require_eq_ok,
    within_eq_ok] at h
  obtain ⟨m, hm, _, _, _, _, media, hmedia, rfl⟩ := h
  obtain ⟨_, hshow, htitle, hyear, hseason, hepisode, _, hlength, _⟩ := newEpisode_eq_ok.1 hmedia
  have hfile := validateFile_of_validateMediaCandidate hm
  have hne := (validateMediaCandidate_eq_ok hm).provider_ne
  obtain ⟨located, hlocated⟩ : ∃ located, newEpisode (text "setup-path")
      (ByteText.trimSpace showTitle) year season episode (ByteText.trimSpace episodeTitle)
      m.extension m.size ⟨m.provider, m.objectID⟩ = .ok located :=
    ⟨_, newEpisode_eq_ok.2 ⟨by decide, hshow, htitle, hyear, hseason, hepisode, hfile, hlength,
      rfl⟩⟩
  refine ⟨located.virtualPath, ?_⟩
  rw [setupVirtualPath, if_pos rfl, SetupConfiguration.backing,
    SetupConfiguration.providerOrDefault, if_neg hne, bind_eq_ok]
  exact ⟨located, hlocated, rfl⟩

theorem newSetupEpisodeConfiguration_eq_ok {c v : SetupConfiguration}
    (h : newSetupEpisodeConfiguration c.candidate c.showTitle c.year c.season c.episode c.title =
      .ok v) : Validated c v := by
  simp only [newSetupEpisodeConfiguration, bind_eq_ok, pure_eq_ok, require_eq_ok,
    within_eq_ok] at h
  obtain ⟨m, hm, _, _, _, hyear, media, hmedia, hv⟩ := h
  have hchecks := validateMediaCandidate_eq_ok hm
  have hcandidate : v.candidate = m := by
    subst hv
    exact SetupConfiguration.candidate_eq rfl hchecks.provider_ne rfl rfl rfl rfl
  subst hv
  refine {
    again := ?_
    provider := hchecks.provider
    objectID := hchecks.objectID
    name := hchecks.name
    size := hchecks.size
    extension := hchecks.extension
    provider_ne := hchecks.provider_ne
    title := rfl
    showTitle := Or.inr rfl
    mediaType := Or.inr rfl }
  have hmovie : ¬ (mediaTypeEpisode = [] ∨ mediaTypeEpisode = mediaTypeMovie) := by decide
  simp only [validateSetupConfiguration, if_neg hmovie, if_true, newSetupEpisodeConfiguration,
    bind_eq_ok, pure_eq_ok, require_eq_ok, within_eq_ok, hcandidate, ByteText.trimSpace_trimSpace]
  exact ⟨m, hchecks.again, (), extension_agrees hchecks, (), hyear, media, hmedia, rfl⟩

theorem validateSetupConfiguration_eq_ok {c v : SetupConfiguration}
    (h : validateSetupConfiguration c = .ok v) : Validated c v := by
  unfold validateSetupConfiguration at h
  split at h
  · exact newSetupConfiguration_eq_ok h
  · split at h
    · exact newSetupEpisodeConfiguration_eq_ok h
    · cases h

/-- Every checked item has a path. -/
theorem setupVirtualPath_of_validateSetupConfiguration {c v : SetupConfiguration}
    (h : validateSetupConfiguration c = .ok v) : ∃ path, setupVirtualPath v = .ok path := by
  unfold validateSetupConfiguration at h
  split at h
  · exact setupVirtualPath_of_newSetupConfiguration h
  · split at h
    · exact setupVirtualPath_of_newSetupEpisodeConfiguration h
    · cases h

/-! ## Manifests -/

/-- What `NewSetupManifest` makes of a list of items: each is validated, and no two have one object
or one path. -/
structure Items (objects virtualPaths : List ByteText) (items validated : List SetupConfiguration)
    (paths : List ByteText) : Prop where
  checked : List.Forall₂ (fun c v => validateSetupConfiguration c = .ok v) items validated
  located : List.Forall₂ (fun v p => setupVirtualPath v = .ok p) validated paths
  keys_nodup : (objects.reverse ++ validated.map objectKey).Nodup
  paths_nodup : (virtualPaths.reverse ++ paths).Nodup

/-- The loop accepts exactly such lists, wherever it starts counting. -/
theorem validateItems_eq_ok {index : ℕ} {objects virtualPaths : List ByteText}
    {items validated : List SetupConfiguration} (hobjects : objects.Nodup)
    (hpaths : virtualPaths.Nodup) :
    validateItems index objects virtualPaths items = .ok validated ↔
      ∃ paths, Items objects virtualPaths items validated paths := by
  induction items generalizing index objects virtualPaths validated with
  | nil =>
    simp only [validateItems, pure_eq_ok]
    constructor
    · rintro rfl
      refine ⟨[], .nil, .nil, ?_, ?_⟩
      · simpa using List.nodup_reverse.2 hobjects
      · simpa using List.nodup_reverse.2 hpaths
    · rintro ⟨paths, hitems⟩
      cases hitems.checked
      rfl
  | cons c rest ih =>
    simp only [validateItems, bind_eq_ok, pure_eq_ok, require_eq_ok, within_eq_ok]
    constructor
    · rintro ⟨item, hitem, _, hobject, path, hpath, _, hnew, more, hmore, rfl⟩
      obtain ⟨paths, hitems⟩ := (ih (List.nodup_cons.2 ⟨hobject, hobjects⟩)
        (List.nodup_cons.2 ⟨hnew, hpaths⟩)).1 hmore
      refine ⟨path :: paths, .cons hitem hitems.checked, .cons hpath hitems.located, ?_, ?_⟩
      · simpa using hitems.keys_nodup
      · simpa using hitems.paths_nodup
    · rintro ⟨paths, hitems⟩
      obtain ⟨hvalidated, hvirtual, hkeys, hnodup⟩ := hitems
      cases hvalidated with
      | @cons _ item _ more hitem hrest =>
        cases hvirtual with
        | @cons _ path _ others hpath hothers =>
          have hobject : objectKey item ∉ objects := by
            intro hmem
            exact (List.nodup_append.1 hkeys).2.2 _ (List.mem_reverse.2 hmem) _
              List.mem_cons_self rfl
          have hnew : path ∉ virtualPaths := by
            intro hmem
            exact (List.nodup_append.1 hnodup).2.2 _ (List.mem_reverse.2 hmem) _
              List.mem_cons_self rfl
          refine ⟨item, hitem, (), hobject, path, hpath, (), hnew, more, ?_, rfl⟩
          refine (ih (List.nodup_cons.2 ⟨hobject, hobjects⟩)
            (List.nodup_cons.2 ⟨hnew, hpaths⟩)).2 ⟨others, hrest, hothers, ?_, ?_⟩
          · simpa using hkeys
          · simpa using hnodup

/-- An accepted manifest has between one and a hundred items, validated one by one, with distinct
objects and distinct paths. -/
theorem newSetupManifest_eq_ok {items : List SetupConfiguration} {m : SetupManifest} :
    newSetupManifest items = .ok m ↔ items ≠ [] ∧ items.length ≤ maximumSetupManifestItems ∧
      ∃ paths, Items [] [] items m.items paths := by
  simp only [newSetupManifest, bind_eq_ok, pure_eq_ok, require_eq_ok]
  constructor
  · rintro ⟨_, hne, _, hlen, validated, hvalidated, rfl⟩
    exact ⟨hne, hlen, (validateItems_eq_ok .nil .nil).1 hvalidated⟩
  · rintro ⟨hne, hlen, hitems⟩
    exact ⟨(), hne, (), hlen, m.items, (validateItems_eq_ok .nil .nil).2 hitems, rfl⟩

/-- Every item of an accepted manifest is one that validation gives back. -/
theorem validated_of_mem {items : List SetupConfiguration} {m : SetupManifest}
    (h : newSetupManifest items = .ok m) {v : SetupConfiguration} (hv : v ∈ m.items) :
    ∃ c ∈ items, Validated c v := by
  obtain ⟨_, _, paths, hitems⟩ := newSetupManifest_eq_ok.1 h
  obtain ⟨c, hc, hcv⟩ := exists_of_mem_forall₂ hitems.checked hv
  exact ⟨c, hc, validateSetupConfiguration_eq_ok hcv⟩

/-- An accepted manifest is accepted again, unchanged. -/
theorem newSetupManifest_idem {items : List SetupConfiguration} {m : SetupManifest}
    (h : newSetupManifest items = .ok m) : newSetupManifest m.items = .ok m := by
  obtain ⟨hne, hlen, paths, hitems⟩ := newSetupManifest_eq_ok.1 h
  have hlength := hitems.checked.length_eq
  have hself : List.Forall₂ (fun c v => validateSetupConfiguration c = .ok v) m.items m.items := by
    apply List.forall₂_same.2
    intro v hv
    obtain ⟨c, _, hcv⟩ := validated_of_mem h hv
    exact hcv.again
  refine newSetupManifest_eq_ok.2 ⟨?_, hlength ▸ hlen, paths, ?_⟩
  · intro hnil
    rw [hnil, List.length_nil] at hlength
    exact hne (List.length_eq_zero_iff.1 hlength)
  · exact ⟨hself, hitems.located, hitems.keys_nodup, hitems.paths_nodup⟩

/-! ## Items that validation gives back -/

/-- The path of an item, and what it is made of. -/
inductive Located (c : SetupConfiguration) (path : ByteText) : Prop
  | movie : c.mediaType ≠ mediaTypeEpisode →
      path = ofSegments (movieSegments c.title c.year c.extension) →
      (∀ s ∈ movieSegments c.title c.year c.extension, Plain s) → Located c path
  | episode : c.mediaType = mediaTypeEpisode → 0 ≤ c.season.toInt → 0 ≤ c.episode.toInt →
      path = ofSegments
        (episodeSegments c.showTitle c.year c.season c.episode c.title c.extension) →
      (∀ s ∈ episodeSegments c.showTitle c.year c.season c.episode c.title c.extension, Plain s) →
      Located c path

theorem setupVirtualPath_eq_ok {c : SetupConfiguration} {path : ByteText}
    (h : setupVirtualPath c = .ok path) : Located c path := by
  by_cases htype : c.mediaType = mediaTypeEpisode
  · rw [setupVirtualPath, if_pos htype, bind_eq_ok] at h
    obtain ⟨media, hmedia, hpath⟩ := h
    obtain rfl := pure_eq_ok.1 hpath
    obtain ⟨hpath, hplain⟩ := newEpisode_path hmedia
    obtain ⟨_, _, _, _, hseason, hepisode, _⟩ := newEpisode_eq_ok.1 hmedia
    rw [not_or, Int64.not_lt, Int64.le_iff_toInt_le] at hseason hepisode
    exact .episode htype hseason.1 ((by decide : (0 : ℤ) ≤ 1).trans hepisode.1) hpath hplain
  · rw [setupVirtualPath, if_neg htype, bind_eq_ok] at h
    obtain ⟨media, hmedia, hpath⟩ := h
    obtain rfl := pure_eq_ok.1 hpath
    obtain ⟨hpath, hplain⟩ := newMovie_path hmedia
    exact .movie htype hpath hplain

/-- An item with a path has an object without NUL. -/
theorem objectID_no_nul {c : SetupConfiguration} {path : ByteText}
    (h : setupVirtualPath c = .ok path) : Piece.char '\x00' ∉ c.objectID := by
  have hfile : validateFile c.extension c.size c.backing = .ok () := by
    by_cases htype : c.mediaType = mediaTypeEpisode
    · rw [setupVirtualPath, if_pos htype, bind_eq_ok] at h
      obtain ⟨media, hmedia, _⟩ := h
      exact (newEpisode_eq_ok.1 hmedia).2.2.2.2.2.2.1
    · rw [setupVirtualPath, if_neg htype, bind_eq_ok] at h
      obtain ⟨media, hmedia, _⟩ := h
      exact (newMovie_eq_ok.1 hmedia).2.2.2.1
  exact (newBackingRef_eq_ok.1 (validateFile_eq_ok hfile).2.2).2.2.1

omit [TextTables] in
/-- The key of an object determines the object where object identifiers have no NUL. -/
theorem objectKey_inj {c d : SetupConfiguration} (hc : Piece.char '\x00' ∉ c.objectID)
    (hd : Piece.char '\x00' ∉ d.objectID) (h : objectKey c = objectKey d) :
    c.provider = d.provider ∧ c.objectID = d.objectID :=
  append_cons_cancel_right hc hd h

/-- A list of items is a manifest as it stands when validation gives each item back, and no two
have one object or one path. -/
theorem newSetupManifest_self_iff {items : List SetupConfiguration} :
    newSetupManifest items = .ok ⟨items⟩ ↔ items ≠ [] ∧
      items.length ≤ maximumSetupManifestItems ∧
      (∀ c ∈ items, validateSetupConfiguration c = .ok c) ∧
      items.Pairwise fun c d =>
        objectKey c ≠ objectKey d ∧ setupVirtualPath c ≠ setupVirtualPath d := by
  rw [newSetupManifest_eq_ok]
  constructor
  · rintro ⟨hne, hlength, paths, hitems⟩
    refine ⟨hne, hlength, List.forall₂_same.1 hitems.checked, ?_⟩
    have hkeys : items.Pairwise fun c d => objectKey c ≠ objectKey d :=
      List.pairwise_map.1 hitems.keys_nodup
    have hpaths : items.Pairwise fun c d => setupVirtualPath c ≠ setupVirtualPath d := by
      refine pairwise_of_forall₂ ?_ (List.Forall₂.flip hitems.located) hitems.paths_nodup
      intro p q c d hne hc hd
      rw [hc, hd]
      exact fun heq => hne (Except.ok.inj heq)
    exact List.Pairwise.and hkeys hpaths
  · rintro ⟨hne, hlength, hvalid, hpairs⟩
    obtain ⟨paths, hlocated⟩ := exists_forall₂ fun c hc =>
      setupVirtualPath_of_validateSetupConfiguration (hvalid c hc)
    refine ⟨hne, hlength, paths, List.forall₂_same.2 hvalid, hlocated, ?_, ?_⟩
    · exact List.pairwise_map.2 (hpairs.imp fun h => h.1)
    · refine pairwise_of_forall₂ ?_ hlocated (hpairs.imp fun h => h.2)
      intro c d p q hne hc hd heq
      rw [hc, hd, heq] at hne
      exact hne rfl

/-- Items that validation gives back make the manifest that they are. -/
theorem newSetupManifest_items {items : List SetupConfiguration} {m : SetupManifest}
    (hvalid : ∀ c ∈ items, validateSetupConfiguration c = .ok c)
    (h : newSetupManifest items = .ok m) : m = ⟨items⟩ := by
  obtain ⟨_, _, paths, hitems⟩ := newSetupManifest_eq_ok.1 h
  have hmap : items.map validateSetupConfiguration = m.items.map .ok :=
    map_eq_of_forall₂ hitems.checked
  rw [List.map_congr_left hvalid] at hmap
  have hsame : items = m.items := List.map_injective_iff.2 (fun _ _ => Except.ok.inj) hmap
  rw [hsame]

/-! ## Stray bytes -/

omit [TextTables] in
theorem SetupConfiguration.isValid_eq_true {c : SetupConfiguration} :
    c.isValid = true ↔ ByteText.isValid c.provider = true ∧ ByteText.isValid c.objectID = true ∧
      ByteText.isValid c.name = true ∧ ByteText.isValid c.extension = true ∧
      ByteText.isValid c.mediaType = true ∧ ByteText.isValid c.title = true ∧
      ByteText.isValid c.showTitle = true := by
  simp [isValid, texts]

omit [TextTables] in
theorem isValid_trimSpace {t : ByteText} (h : ByteText.isValid t = true) :
    ByteText.isValid (ByteText.trimSpace t) = true :=
  ByteText.isValid_of_sublist (ByteText.trimSpace_sublist t) h

omit [TextTables] in
theorem isValid_cleanMediaName {name : ByteText} (h : ByteText.isValid name = true) :
    ByteText.isValid (cleanMediaName name) = true := by
  apply isValid_trimSpace
  simp only [ByteText.isValid, List.all_map, List.all_eq_true, Function.comp_apply] at h ⊢
  intro p hp
  split
  · rfl
  · exact h p hp

/-- Validation brings no stray byte into an item. -/
theorem Validated.isValid {c v : SetupConfiguration} (h : Validated c v)
    (hc : c.isValid = true) : v.isValid = true := by
  have hdefault : ByteText.isValid defaultSetupProvider = true := ByteText.isValid_text _
  obtain ⟨hprovider, hobject, hname, _, _, htitle, hshow⟩ :=
    SetupConfiguration.isValid_eq_true.1 hc
  refine SetupConfiguration.isValid_eq_true.2 ⟨?_, ?_, ?_, ?_, ?_, ?_, ?_⟩
  · rw [h.provider, MediaCandidate.backing, SetupConfiguration.candidate,
      SetupConfiguration.providerOrDefault]
    dsimp only
    split
    · exact hdefault
    · exact hprovider
  · rw [h.objectID]
    exact hobject
  · rw [h.name]
    exact isValid_cleanMediaName hname
  · rcases h.extension with hext | hext <;> rw [hext] <;> exact ByteText.isValid_text _
  · rcases h.mediaType with htype | htype <;> rw [htype] <;> exact ByteText.isValid_text _
  · rw [h.title]
    exact isValid_trimSpace htitle
  · rcases h.showTitle with hempty | htrim
    · rw [hempty]
      rfl
    · rw [htrim]
      exact isValid_trimSpace hshow

/-- Nor does the validation of a manifest. -/
theorem newSetupManifest_isValid {items : List SetupConfiguration} {m : SetupManifest}
    (h : newSetupManifest items = .ok m) (hitems : items.all SetupConfiguration.isValid = true) :
    m.isValid = true := by
  rw [SetupManifest.isValid, List.all_eq_true]
  intro v hv
  obtain ⟨c, hc, hcv⟩ := validated_of_mem h hv
  exact hcv.isValid (List.all_eq_true.1 hitems c hc)

end Validation

end BlackPearl.Setup
