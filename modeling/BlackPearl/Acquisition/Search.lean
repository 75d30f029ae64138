import BlackPearl.Domain.Media

/-!
# Search requests and releases

The validated values of `internal/acquisition/search.go`: what is searched for, and one release that
a search provider reports. A `Release` carries the fact that its info hash is in normal form, so a
value built anywhere else than in `NewRelease` does not exist here either.
-/

set_option autoImplicit false

namespace BlackPearl.Acquisition

open BlackPearl.Library BlackPearl.Domain

def maximumSearchTitleBytes : ℕ := 200

def maximumSourceIDBytes : ℕ := 512

def maximumIndexerNameBytes : ℕ := 200

/-! ## Requests -/

/-- `SearchRequest`. -/
structure SearchRequest where
  mediaType : MediaType
  title : String
  year : ℤ
  season : ℤ
  episode : ℤ
  deriving DecidableEq, Repr

/-- `validateSearchText`. -/
def validateSearchText (name value : String) (maximumBytes : ℕ) : Checked String := do
  let clean := trimSpace value
  require (clean ≠ "") (name ++ " is required")
  require (byteLength clean ≤ maximumBytes)
    (name ++ " must not exceed " ++ toString maximumBytes ++ " bytes")
  require (hasControl clean = false) (name ++ " must not contain control characters")
  return clean

/-- `validateSearchYear`. -/
def validateSearchYear (year : ℤ) : Checked Unit :=
  require (1888 ≤ year ∧ year ≤ 2100) ("year must be between 1888 and 2100: " ++ toString year)

/-- `NewMovieSearch`. -/
def newMovieSearch (title : String) (year : ℤ) : Checked SearchRequest := do
  let cleanTitle ← validateSearchText "movie title" title maximumSearchTitleBytes
  validateSearchYear year
  return ⟨.movie, cleanTitle, year, 0, 0⟩

/-- `NewEpisodeSearch`. -/
def newEpisodeSearch (showTitle : String) (year season episode : ℤ) : Checked SearchRequest := do
  let cleanTitle ← validateSearchText "show title" showTitle maximumSearchTitleBytes
  validateSearchYear year
  require (0 ≤ season ∧ season ≤ 99) ("season must be between 0 and 99: " ++ toString season)
  require (1 ≤ episode ∧ episode ≤ 999) ("episode must be between 1 and 999: " ++ toString episode)
  return ⟨.episode, cleanTitle, year, season, episode⟩

/-- `validateSearchRequest`. -/
def validateSearchRequest (request : SearchRequest) : Checked SearchRequest :=
  match request.mediaType with
  | .movie => newMovieSearch request.title request.year
  | .episode => newEpisodeSearch request.title request.year request.season request.episode
  | .unset => .error "acquired media requires validated search intent"

theorem validateSearchText_idem {name value clean : String} {maximumBytes : ℕ}
    (h : validateSearchText name value maximumBytes = .ok clean) :
    validateSearchText name clean maximumBytes = .ok clean := by
  simp only [validateSearchText, bind_eq_ok, pure_eq_ok, require_eq_ok] at h
  obtain ⟨_, hempty, _, hlength, _, hcontrol, rfl⟩ := h
  simp only [validateSearchText, bind_eq_ok, pure_eq_ok, require_eq_ok, trimSpace_trimSpace]
  exact ⟨(), hempty, (), hlength, (), hcontrol, trivial⟩

theorem validateSearchText_nonempty {name value clean : String} {maximumBytes : ℕ}
    (h : validateSearchText name value maximumBytes = .ok clean) : clean ≠ "" := by
  simp only [validateSearchText, bind_eq_ok, pure_eq_ok, require_eq_ok] at h
  obtain ⟨_, hempty, _, _, _, _, rfl⟩ := h
  exact hempty

/-- A validated request passes the same check unchanged, and is for a movie or an episode. -/
theorem validateSearchRequest_idem {request validated : SearchRequest}
    (h : validateSearchRequest request = .ok validated) :
    validateSearchRequest validated = .ok validated ∧ validated.mediaType ≠ .unset := by
  cases htype : request.mediaType with
  | unset => simp [validateSearchRequest, htype] at h
  | movie =>
    simp only [validateSearchRequest, htype, newMovieSearch, bind_eq_ok, pure_eq_ok] at h
    obtain ⟨title, htitle, _, hyear, rfl⟩ := h
    refine ⟨?_, by simp⟩
    simp only [validateSearchRequest, newMovieSearch, bind_eq_ok, pure_eq_ok]
    exact ⟨title, validateSearchText_idem htitle, (), hyear, rfl⟩
  | episode =>
    simp only [validateSearchRequest, htype, newEpisodeSearch, bind_eq_ok, pure_eq_ok] at h
    obtain ⟨title, htitle, _, hyear, _, hseason, _, hepisode, rfl⟩ := h
    refine ⟨?_, by simp⟩
    simp only [validateSearchRequest, newEpisodeSearch, bind_eq_ok, pure_eq_ok]
    exact ⟨title, validateSearchText_idem htitle, (), hyear, (), hseason, (), hepisode, rfl⟩

/-! ## Releases -/

/-- `ReleaseProtocol`. -/
inductive ReleaseProtocol
  | unset
  | torrent
  | usenet
  | unsupported (text : String)
  deriving DecidableEq, Repr

/-- The parts of a parsed URL that the checks look at; `exactTopics` are the `xt` values of the
query. -/
structure ParsedURL where
  scheme : String
  hasUser : Bool
  host : String
  fragment : String
  exactTopics : List String
  deriving DecidableEq, Repr

/-- `url.Parse`. -/
class URLParser where
  parse : String → Option ParsedURL

/-- A parser for runs in which no release has a URL. -/
@[reducible] def URLParser.refuseAll : URLParser := ⟨fun _ => none⟩

section Hashes

variable [TextTables]

/-- `normalizeInfoHash`. -/
def normalizeInfoHash (value : String) : Checked String :=
  if value = "" then .ok ""
  else if byteLength value = 40 then
    if (decodeHex value.toList).isSome then .ok (toLowerString value)
    else .error "release info hash must be hexadecimal SHA-1 or base32 BTIH"
  else if byteLength value = 32 then
    if (decodeBase32 (toUpperString value).toList).isSome then .ok (toUpperString value)
    else .error "release info hash must be hexadecimal SHA-1 or base32 BTIH"
  else .error "release info hash must be hexadecimal SHA-1 or base32 BTIH"

/-- Normalization leaves the hash alone, unless it refuses it. -/
def NormalHash (hash : String) : Prop := ∀ again, normalizeInfoHash hash = .ok again → again = hash

theorem normalHash_empty : NormalHash "" := by
  intro again h
  simpa [normalizeInfoHash] using h.symm

/-- What normalization returns is in normal form. It may still be refused: a letter whose upper
case is ASCII shrinks. -/
theorem normalizeInfoHash_normal {value hash : String} (h : normalizeInfoHash value = .ok hash) :
    NormalHash hash := by
  unfold normalizeInfoHash at h
  split_ifs at h with hempty h40 hhex h32 hbase
  · rw [← Except.ok.inj h]
    exact normalHash_empty
  · obtain rfl := Except.ok.inj h
    obtain ⟨hlower, hlength⟩ := toLowerString_of_decodeHex hhex
    intro again hagain
    unfold normalizeInfoHash at hagain
    split_ifs at hagain with h₁ _ _ h₄
    · rw [← Except.ok.inj hagain, h₁]
    · rw [← Except.ok.inj hagain, hlower]
    · omega
  · obtain rfl := Except.ok.inj h
    have hupper := toUpperString_of_decodeBase32 hbase
    have hascii : ∀ c ∈ (toUpperString value).toList, c.toNat < 128 := fun c hc =>
      toNat_lt_of_base32Value (base32Value_of_decodeBase32 hbase hc)
    intro again hagain
    unfold normalizeInfoHash at hagain
    split_ifs at hagain with h₁ h₂ h₃
    · rw [← Except.ok.inj hagain, h₁]
    · -- a text that shrinks in upper case does not become longer
      have hle := length_le_byteLength value
      rw [byteLength_of_ascii hascii, length_toUpperString] at h₂
      omega
    · rw [← Except.ok.inj hagain, hupper]

/-- `normalizeInfoHash`, with the fact that the result is in normal form. -/
def normalInfoHash (value : String) : Checked { hash : String // NormalHash hash } :=
  match h : normalizeInfoHash value with
  | .ok hash => .ok ⟨hash, normalizeInfoHash_normal h⟩
  | .error message => .error message

theorem normalInfoHash_eq_ok {value : String} {hash : { hash : String // NormalHash hash }} :
    normalInfoHash value = .ok hash ↔ normalizeInfoHash value = .ok hash.1 := by
  unfold normalInfoHash
  split
  · next h => simp only [h, Except.ok.injEq, Subtype.ext_iff]
  · next h => simp only [h, reduceCtorEq]

/-- `ReleaseInput`; `seeders` is a nullable integer. -/
structure ReleaseInput where
  provider : String
  sourceID : String
  title : String
  protocol : ReleaseProtocol
  size : ℤ
  indexer : String
  infoHash : String
  magnetURL : String
  downloadURL : String
  seeders : Option ℤ
  deriving DecidableEq, Repr

/-- `Release`; its pair of a seed count and the flag that one was reported is an option. -/
structure Release where
  provider : String
  sourceID : String
  title : String
  protocol : ReleaseProtocol
  size : ℤ
  indexer : String
  infoHash : String
  magnetURL : String
  downloadURL : String
  seeders : Option ℤ
  infoHash_normal : NormalHash infoHash
  deriving DecidableEq

/-- `Release{}`. -/
def Release.zero : Release where
  provider := ""
  sourceID := ""
  title := ""
  protocol := .unset
  size := 0
  indexer := ""
  infoHash := ""
  magnetURL := ""
  downloadURL := ""
  seeders := none
  infoHash_normal := normalHash_empty

/-- Whether an exact topic starts with `urn:btih:` in any case and goes on. -/
def btihTopic (topic : String) : Option String :=
  let prefixLength := 9
  if (topic.toList.take prefixLength).map Char.toLower = "urn:btih:".toList ∧
      prefixLength < topic.toList.length then
    some (String.ofList (topic.toList.drop prefixLength))
  else none

variable [URLParser]

/-- `validateMagnetURL`. -/
def validateMagnetURL (value : String) : Checked Unit :=
  match URLParser.parse value with
  | none => .error "release magnet URL is invalid"
  | some parsed => do
      require (parsed.scheme = "magnet" ∧ parsed.hasUser = false ∧ parsed.fragment = "")
        "release magnet URL is invalid"
      require (∃ topic ∈ parsed.exactTopics, ∃ hash ∈ btihTopic topic,
          (normalizeInfoHash hash).isOk = true)
        "release magnet URL requires a valid BitTorrent info hash"

/-- `validateReleaseDownloadURL`. -/
def validateReleaseDownloadURL (value : String) : Checked Unit :=
  match URLParser.parse value with
  | none => .error "release download URL must be absolute HTTP(S) without credentials or fragment"
  | some parsed => require ((parsed.scheme = "http" ∨ parsed.scheme = "https") ∧ parsed.host ≠ "" ∧
      parsed.hasUser = false ∧ parsed.fragment = "")
      "release download URL must be absolute HTTP(S) without credentials or fragment"

/-- The protocols that `NewRelease` accepts. -/
def supportedProtocol : ReleaseProtocol → Checked Unit
  | .torrent | .usenet => .ok ()
  | .unset => .error ("unsupported release protocol: " ++ TextTables.quote "")
  | .unsupported text => .error ("unsupported release protocol: " ++ TextTables.quote text)

/-- Check a text unless it is empty. -/
def whenPresent (value : String) (check : String → Checked Unit) : Checked Unit :=
  if value = "" then .ok () else check value

/-- `NewRelease`. -/
def newRelease (input : ReleaseInput) : Checked Release := do
  let _ ← within "invalid release provider" (newBackingRef input.provider "release")
  let sourceID ← validateSearchText "release source ID" input.sourceID maximumSourceIDBytes
  let title ← validateSearchText "release title" input.title maximumSearchTitleBytes
  let indexer ← validateSearchText "release indexer" input.indexer maximumIndexerNameBytes
  supportedProtocol input.protocol
  require (0 < input.size) ("release size must be positive: " ++ toString input.size)
  let infoHash ← normalInfoHash input.infoHash
  whenPresent input.magnetURL validateMagnetURL
  whenPresent input.downloadURL validateReleaseDownloadURL
  require (¬ (input.protocol = .torrent ∧ infoHash.1 = "" ∧ input.magnetURL = "" ∧
      input.downloadURL = ""))
    "torrent release requires an info hash, magnet URL, or download URL"
  require (¬ (input.protocol = .usenet ∧ input.downloadURL = ""))
    "usenet release requires a download URL"
  require (∀ seeders ∈ input.seeders, 0 ≤ seeders) "release seeders must not be negative"
  return {
    provider := input.provider
    sourceID := sourceID
    title := title
    protocol := input.protocol
    size := input.size
    indexer := indexer
    infoHash := infoHash.1
    magnetURL := input.magnetURL
    downloadURL := input.downloadURL
    seeders := input.seeders
    infoHash_normal := infoHash.2 }

/-- The input that strips a torrent release of its ephemeral locators. -/
def safeInput (release : Release) : ReleaseInput where
  provider := release.provider
  sourceID := "torrent:" ++ release.infoHash
  title := release.title
  protocol := release.protocol
  size := release.size
  indexer := release.indexer
  infoHash := release.infoHash
  magnetURL := ""
  downloadURL := ""
  seeders := release.seeders

/-- A stripped release is stripped to itself. -/
theorem newRelease_safeInput {release safe : Release} (h : newRelease (safeInput release) = .ok safe) :
    newRelease (safeInput safe) = .ok safe ∧ safe.infoHash = release.infoHash ∧
      safe.protocol = release.protocol ∧ 0 < safe.size ∧ ∀ seeders ∈ safe.seeders, 0 ≤ seeders := by
  simp only [newRelease, bind_eq_ok, pure_eq_ok, require_eq_ok, within_eq_ok,
    normalInfoHash_eq_ok] at h
  obtain ⟨_, hprovider, sourceID, hsource, title, htitle, indexer, hindexer, _, hprotocol, _, hsize,
    infoHash, hhash, _, hmagnet, _, hdownload, _, hlocated, _, husenet, _, hseeders, rfl⟩ := h
  have hsame : infoHash.1 = release.infoHash := release.infoHash_normal _ hhash
  refine ⟨?_, hsame, rfl, hsize, hseeders⟩
  have hsource' : validateSearchText "release source ID" ("torrent:" ++ infoHash.1)
      maximumSourceIDBytes = .ok sourceID := by
    rw [hsame]
    exact hsource
  have hhash' : normalizeInfoHash infoHash.1 = .ok infoHash.1 := by
    rw [hsame] at hhash ⊢
    exact hhash
  simp only [newRelease, bind_eq_ok, pure_eq_ok, require_eq_ok, within_eq_ok,
    normalInfoHash_eq_ok]
  exact ⟨_, hprovider, sourceID, hsource', title, validateSearchText_idem htitle, indexer,
    validateSearchText_idem hindexer, (), hprotocol, (), hsize, infoHash, hhash', (), hmagnet, (),
    hdownload, (), hlocated, (), husenet, (), hseeders, rfl⟩

end Hashes

end BlackPearl.Acquisition
