import BlackPearl.HttpRange.Cancellation
import BlackPearl.InternetArchive.Files
import BlackPearl.InternetArchive.Source

/-!
# Opening a file of the Internet Archive

`Open` of `internal/gateway/internetarchive/source.go` and `fetchMetadata` of `files.go` with their
requests. A cancellation shows in their errors and in those of `ReadAt`, but not where it comes while a
body is read.
-/

set_option autoImplicit false

namespace BlackPearl.InternetArchive

open BlackPearl.Library BlackPearl.Domain BlackPearl.HttpRange

/-! ## Sizes -/

/-- A size is an `int64`. -/
theorem parsePositiveSize_lt {value : Option Json} {size : ℤ} (h : parsePositiveSize value = some size) :
    size < 2 ^ 63 := by
  have hparse : ∀ {literal : List Char}, parseInt64 literal = some size → size < 2 ^ 63 := by
    intro literal h
    obtain ⟨-, hbounds⟩ := Option.filter_eq_some_iff.1 h
    exact of_decide_eq_true (Bool.and_eq_true_iff.1 hbounds).2
  unfold parsePositiveSize at h
  split at h
  · exact hparse (Option.filter_eq_some_iff.1 h).1
  · exact hparse (Option.filter_eq_some_iff.1 h).1
  · cases h

section Opening

variable [TextTables]

theorem exactFile_size_lt {file : ArchiveFile} {exact : ExactFile} (h : exactFile file = some exact) :
    exact.size < 2 ^ 63 := by
  unfold exactFile at h
  simp only at h
  split at h
  · cases h
  · split at h
    · cases h
    · next size hsize =>
      split at h
      · cases h
      · split at h
        · cases h
        · split at h
          · cases h
          · obtain rfl := Option.some.inj h
            exact parsePositiveSize_lt hsize

/-- The file that is found has a size that is an `int64`. -/
theorem findExactFile_size_lt {sorter : Sorter ExactFile} {files : List ArchiveFile}
    {filename : List UInt8} {file : ExactFile} (h : findExactFile sorter files filename = .ok file) :
    file.size < 2 ^ 63 := by
  unfold findExactFile at h
  split at h
  · next found hfound =>
    obtain rfl := Except.ok.inj h
    have hmem : found ∈ eligibleExactFiles sorter files := List.mem_of_find?_eq_some hfound
    have hlisted : found ∈ files.filterMap exactFile := (sorter.perm _ _).mem_iff.1 hmem
    obtain ⟨file, -, hexact⟩ := List.mem_filterMap.1 hlisted
    exact exactFile_size_lt hexact
  · cases h

/-! ## Opening -/

/-- `maximumBodyBytes`. -/
def maximumBodyBytes : ℕ := 2 * 2 ^ 20

/-- `archiveMetadataEnvelope`. -/
structure MetadataEnvelope where
  metadata : Metadata
  server : String
  dir : String

/-- The gateway as `Open` uses it: the URLs below its base URL, `json.Unmarshal` of an item's metadata,
and the order of files that compare equal. -/
structure Opener where
  joins : List UInt8 → Bool
  metadataURL : List UInt8 → Except Failure String
  unmarshal : List UInt8 → Option MetadataEnvelope
  fileDownloadURL : MetadataEnvelope → List UInt8 → List UInt8 → Except Failure String
  sorter : Sorter ExactFile

/-- What `Open` is answered: `ctx.Err()`, and its two requests. -/
structure OpenAnswers where
  before : Option ContextError
  metadata : Exchange Response
  head : Exchange HeadResponse

/-- The deferred `Close` of a response: its error is joined to any error. -/
def closeResponse {α : Type} (text : String) (result : Except Failure α)
    (closeError : Option Failure) : Except Failure α :=
  match closeError with
  | none => result
  | some _ => joinClose result (some (.plain text))

/-- The checks of `fetchMetadata` after its request. -/
def readMetadata (g : Opener) (response : Response) : Except Failure MetadataEnvelope :=
  if response.statusCode = 404 ∨ response.statusCode = 410 then
    .error (.wrapped "internet Archive metadata is unavailable" (.plain "not found"))
  else if temporaryArchiveStatus response.statusCode = true then
    .error (.wrapped ("internet Archive metadata is temporarily unavailable: status " ++
      toString response.statusCode) (.plain "temporarily unavailable"))
  else if response.statusCode ≠ statusOK then
    .error (.plain ("internet Archive metadata returned HTTP status " ++ toString response.statusCode))
  else
    match response.body.readLimited (maximumBodyBytes + 1) with
    | .error _ => .error (.plain "read Internet Archive metadata response")
    | .ok body =>
        if maximumBodyBytes < body.length then
          .error (.plain "internet Archive metadata response exceeds 2 MiB")
        else
          match g.unmarshal body with
          | none => .error (.plain "decode Internet Archive metadata response")
          | some envelope => .ok envelope

/-- `fetchMetadata`. -/
def fetchMetadata (g : Opener) (exchange : Exchange Response) (identifier : List UInt8) :
    Except Failure MetadataEnvelope :=
  match g.metadataURL identifier with
  | .error _ => .error (.plain "construct Internet Archive metadata URL")
  | .ok endpoint =>
      match exchange.newRequest endpoint with
      | some _ => .error (.plain "construct Internet Archive metadata request")
      | none =>
          match exchange.send endpoint with
          | .error _ =>
              match exchange.after with
              | some e => .error (.wrapped "request Internet Archive metadata" e.failure)
              | none => .error (.wrapped "request Internet Archive metadata"
                  (.plain "temporarily unavailable"))
          | .ok response => closeResponse "close Internet Archive metadata response"
              (readMetadata g response) response.body.closeError

/-- The second request of `Open`, for a file of this size. -/
def requestFile (head : Exchange HeadResponse) (downloadURL : String) (size : ℤ) (sha1 : String)
    (bounded : size < 2 ^ 63) : Except Failure Source :=
  match head.newRequest downloadURL with
  | some _ => .error (.plain "construct Internet Archive file metadata request")
  | none =>
      match head.send downloadURL with
      | .error _ =>
          match head.after with
          | some e => .error (.wrapped "request Internet Archive file metadata" e.failure)
          | none => .error (.wrapped "request Internet Archive file metadata"
              (.plain "temporarily unavailable"))
      | .ok response => openSource downloadURL size sha1 bounded response

/-- The part of `Open` after the metadata. -/
def openListed (g : Opener) (head : Exchange HeadResponse) (envelope : MetadataEnvelope)
    (identifier filename : List UInt8) : Except Failure Source :=
  if envelope.metadata.licensed = false then
    .error (.wrapped "internet Archive item no longer declares a supported open license"
      (.plain "direct range media is no longer playable"))
  else
    match h : findExactFile g.sorter envelope.metadata.files filename with
    | .error text => .error (.wrapped text (.plain "not found"))
    | .ok file =>
        match g.fileDownloadURL envelope identifier filename with
        | .error _ => .error (.wrapped "resolve Internet Archive file location"
            (.plain "direct range media is no longer playable"))
        | .ok downloadURL => requestFile head downloadURL file.size file.sha1 (findExactFile_size_lt h)

/-- `Open`. -/
def openFile (g : Opener) (answers : OpenAnswers) (backing : BackingRef) : Except Failure Source :=
  match answers.before with
  | some e => .error (.wrapped "open Internet Archive range source" e.failure)
  | none =>
      if backing.provider ≠ fileProviderName then
        .error (.plain ("unsupported Internet Archive range provider: " ++
          TextTables.quote backing.provider))
      else
        match decodeFileObjectID g.joins (textBytes backing.objectID) with
        | .error text => .error (.plain text)
        | .ok (identifier, filename) => do
            let envelope ← fetchMetadata g answers.metadata identifier
            openListed g answers.head envelope identifier filename

/-- `Source.Validator`. -/
def Source.sourceValidator (s : Source) : String := "internet-archive:sha1:" ++ s.sha1

/-! ## Cancellation -/

/-- A file that `Open` asks for. -/
structure Asked (g : Opener) (answers : OpenAnswers) (backing : BackingRef)
    (identifier filename : List UInt8) : Prop where
  live : answers.before = none
  provider : backing.provider = fileProviderName
  file : decodeFileObjectID g.joins (textBytes backing.objectID) = .ok (identifier, filename)

theorem Asked.openFile {g : Opener} {answers : OpenAnswers} {backing : BackingRef}
    {identifier filename : List UInt8} (h : Asked g answers backing identifier filename) :
    openFile g answers backing = (fetchMetadata g answers.metadata identifier >>= fun envelope =>
      openListed g answers.head envelope identifier filename) := by
  unfold InternetArchive.openFile
  rw [h.live]
  simp only [h.provider, ne_eq, not_true, if_false, h.file]

/-- Where `Open` can be cancelled so that it shows: at its check of the context, and in its requests. -/
inductive OpenCancelled (g : Opener) (answers : OpenAnswers) (backing : BackingRef) : Prop
  | entry (h : answers.before = some .canceled)
  | metadata {identifier filename : List UInt8} {endpoint : String} {e : Failure}
      (hasked : Asked g answers backing identifier filename)
      (hurl : g.metadataURL identifier = .ok endpoint)
      (hrequest : answers.metadata.newRequest endpoint = none)
      (hsend : answers.metadata.send endpoint = .error e) (hafter : answers.metadata.after = some .canceled)
  | head {identifier filename : List UInt8} {envelope : MetadataEnvelope} {file : ExactFile}
      {downloadURL : String} {e : Failure} (hasked : Asked g answers backing identifier filename)
      (hmetadata : fetchMetadata g answers.metadata identifier = .ok envelope)
      (hlicensed : envelope.metadata.licensed = true)
      (hfile : findExactFile g.sorter envelope.metadata.files filename = .ok file)
      (hurl : g.fileDownloadURL envelope identifier filename = .ok downloadURL)
      (hrequest : answers.head.newRequest downloadURL = none)
      (hsend : answers.head.send downloadURL = .error e) (hafter : answers.head.after = some .canceled)

theorem OpenCancelled.shows {g : Opener} {answers : OpenAnswers} {backing : BackingRef}
    (h : OpenCancelled g answers backing) : Shows (openFile g answers backing) := by
  cases h with
  | entry h =>
    simp only [openFile, h]
    exact ⟨_, rfl, rfl⟩
  | metadata hasked hurl hrequest hsend hafter =>
    rw [hasked.openFile]
    refine Shows.bind ?_
    simp only [fetchMetadata, hurl, hrequest, hsend, hafter]
    exact ⟨_, rfl, rfl⟩
  | head hasked hmetadata hlicensed hfile hurl hrequest hsend hafter =>
    rw [hasked.openFile, hmetadata]
    show Shows (openListed _ _ _ _ _)
    rw [openListed, if_neg (by rw [hlicensed]; exact Bool.noConfusion)]
    split
    · next hmissing => cases hfile.symm.trans hmissing
    · simp only [hurl, requestFile, hrequest, hsend, hafter]
      exact ⟨_, rfl, rfl⟩

/-- Where `ReadAt` can be cancelled so that it shows: at its check of the context, and in its request. -/
inductive ReadCancelled (s : Source) (ctx : ReadContext) (client : Client) (destination : List UInt8)
    (offset : ℤ) : Prop
  | entry (h : ctx.before = some .canceled)
  | request {wanted : ℤ} {clipped : Bool} {e : Failure}
      (hready : Ready s.closed s.size ctx destination offset wanted clipped)
      (hrequest : client.newRequest s.objectURL = none)
      (hsend : client.send (rangeRequest s offset wanted) = .error e) (hafter : ctx.after = some .canceled)

omit [TextTables] in
theorem ReadCancelled.shows {s : Source} {ctx : ReadContext} {client : Client}
    {destination : List UInt8} {offset : ℤ} (h : ReadCancelled s ctx client destination offset) :
    (readAt s ctx client destination offset).Shows := by
  cases h with
  | entry h => exact readAvailable_cancelled h
  | request hready hrequest hsend hafter =>
    simp only [readAt, hready.readAvailable, hrequest, hsend, hafter]
    exact shows_failed rfl

omit [TextTables] in
/-- The error of a body does not show in the error of `ReadAt`. -/
theorem readAt_body_hidden {s : Source} {ctx : ReadContext} {client : Client} {destination : List UInt8}
    {offset wanted : ℤ} {clipped : Bool} {response : Response} {e : Failure}
    (hready : Ready s.closed s.size ctx destination offset wanted clipped)
    (hrequest : client.newRequest s.objectURL = none)
    (hsend : client.send (rangeRequest s offset wanted) = .ok response)
    (hbody : BodyFails sourceTexts s.size (validateResponseValidator s) response offset wanted e) :
    ¬ (readAt s ctx client destination offset).Shows := by
  rintro ⟨e', he', hshows⟩
  simp only [readAt, hready.readAvailable, hrequest, hsend, readResponse, hbody.completeBody,
    closeBody] at he'
  split at he'
  · obtain rfl := Option.some.inj he'
    cases hshows
  · obtain rfl := Option.some.inj he'
    cases hshows

end Opening

end BlackPearl.InternetArchive
