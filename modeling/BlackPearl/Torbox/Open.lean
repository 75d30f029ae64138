import BlackPearl.HttpRange.Cancellation
import BlackPearl.Torbox.Sanitize
import BlackPearl.Torbox.Source
import BlackPearl.Torbox.Torrents

/-!
# Opening a file of TorBox

`Open` of `internal/gateway/torbox/gateway.go` with its requests, and the refreshed link of `ReadAt`. A
cancellation shows in their errors, but not where it comes in the request of a range, or while more is
read of a response than its JSON value.
-/

set_option autoImplicit false

namespace BlackPearl.Torbox

open BlackPearl.Library BlackPearl.Domain BlackPearl.HttpRange

section Opening

variable [TextTables]

/-! ## Identities -/

/-- `objectID`. -/
structure ObjectID where
  torrentID : ℤ
  fileID : ℤ
  deriving DecidableEq, Repr

/-- Digits without a leading zero: `[1-9][0-9]*`. -/
def isPositiveNumeral (digits : List Char) : Bool :=
  !digits.isEmpty && digits.head? != some '0' && digits.all Char.isDigit

/-- The submatches of `^([1-9][0-9]*):([1-9][0-9]*)$`. -/
def objectIDMatch (value : String) : Option (List Char × List Char) := do
  let (torrent, file) ← digitsUntil ':' value.toList
  if isPositiveNumeral torrent && isPositiveNumeral file then some (torrent, file) else none

/-- `parseObjectID`. -/
def parseObjectID (value : String) : Except Failure ObjectID :=
  match objectIDMatch value with
  | none => .error (.plain ("invalid TorBox object ID: " ++ TextTables.quote value))
  | some (torrent, file) =>
      match parseInt torrent with
      | .error e => .error (.wrapped "parse TorBox torrent ID" e)
      | .ok torrentID =>
          match parseInt file with
          | .error e => .error (.wrapped "parse TorBox file ID" e)
          | .ok fileID => .ok ⟨torrentID, fileID⟩

/-! ## Metadata -/

/-- `temporaryProviderStatus`. -/
def temporaryProviderStatus (status : ℕ) : Bool := status = 429 || 500 ≤ status

/-- A response of the API, as a JSON decoder reads its body: what comes of the first value, the error
of asking for another one, and the error of `Close`. -/
structure ApiResponse (α : Type) where
  statusCode : ℕ
  decoded : Except Failure α
  extra : Option Failure
  closeError : Option Failure

/-- The checks of `doJSON` after its request. -/
def readJSON {α : Type} (response : ApiResponse α) : Except Failure α :=
  if response.statusCode = 401 ∨ response.statusCode = 403 then
    .error (.wrapped "TorBox API credentials rejected" (.plain "unauthorized"))
  else if temporaryProviderStatus response.statusCode = true then
    .error (.wrapped ("TorBox API is temporarily unavailable: status " ++ toString response.statusCode)
      (.plain "temporarily unavailable"))
  else if response.statusCode ≠ statusOK then
    .error (.plain ("TorBox API requires status 200: got " ++ toString response.statusCode))
  else
    match response.decoded with
    | .error e => .error (.wrapped "decode TorBox API response" e)
    | .ok value =>
        if response.extra.any (fun e => e.is .eof) = true then .ok value
        else .error (.plain "TorBox API response exceeds one JSON value")

/-- `doJSON` for a request to a URL. -/
def doJSON {α : Type} (exchange : Exchange (ApiResponse α)) (endpoint : String) : Except Failure α :=
  match exchange.send endpoint with
  | .error _ =>
      match exchange.after with
      | some e => .error (.wrapped "perform TorBox API request" e.failure)
      | none => .error (.wrapped "perform TorBox API request" (.plain "temporarily unavailable"))
  | .ok response => joinClose (readJSON response) response.closeError

/-- `fileRecord`; the size is an `int64`. -/
structure FileRecord where
  id : ℤ
  size : ℤ
  hash : String
  md5 : String
  zipped : Bool
  infected : Bool
  bounded : size < 2 ^ 63

/-- The part of a `torrentRecord` that `loadMetadata` reads. -/
structure TorrentMetadata where
  id : ℤ
  downloadFinished : Bool
  downloadPresent : Bool
  files : List FileRecord

/-- An `apiEnvelope` with its data, which `loadMetadata` decodes as a torrent, or else as a list. -/
structure MetadataEnvelope where
  success : Bool
  detail : String
  torrent : Option TorrentMetadata
  torrents : Option (List TorrentMetadata)

/-- The torrent of an envelope. -/
def MetadataEnvelope.decodeTorrent (envelope : MetadataEnvelope) : Option TorrentMetadata :=
  match envelope.torrent, envelope.torrents with
  | some torrent, _ => some torrent
  | none, some [torrent] => some torrent
  | none, _ => none

/-- `fileMetadata`. -/
structure FileMetadata where
  size : ℤ
  validator : String
  bounded : size < 2 ^ 63

/-- The stable hash of a file, with its type. -/
def FileRecord.stableHash (file : FileRecord) : String × String :=
  if trimSpace file.hash = "" then ("md5", trimSpace file.md5) else ("hash", trimSpace file.hash)

/-- The checks of `loadMetadata` on a file. -/
def checkFile (identifier : ObjectID) (file : FileRecord) : Except Failure FileMetadata :=
  let named := "TorBox file " ++ toString identifier.fileID
  if file.zipped = true then .error (.plain (named ++ " is zipped"))
  else if file.infected = true then .error (.plain (named ++ " is infected"))
  else if file.size ≤ 0 then .error (.plain (named ++ " requires positive size"))
  else
    let hash := file.stableHash
    if hash.2 = "" then .error (.plain (named ++ " requires a stable hash"))
    else .ok ⟨file.size, "torbox:" ++ hash.1 ++ ":" ++ hash.2 ++ ":" ++ toString file.size,
      file.bounded⟩

/-- The checks of `loadMetadata` on a torrent. -/
def checkTorrent (identifier : ObjectID) (torrent : TorrentMetadata) : Except Failure FileMetadata :=
  let named := "TorBox torrent " ++ toString identifier.torrentID
  if torrent.id ≠ identifier.torrentID then .error (.plain (named ++ " not found"))
  else if torrent.downloadFinished = false then .error (.plain (named ++ " is not complete"))
  else if torrent.downloadPresent = false then .error (.plain (named ++ " download is not present"))
  else
    match torrent.files.find? fun file => file.id = identifier.fileID with
    | none => .error (.plain ("TorBox file " ++ toString identifier.fileID ++ " not found"))
    | some file => checkFile identifier file

/-- What `loadMetadata` finds: metadata in its cache that has not expired, or else what its request is
answered. -/
structure MetadataAnswers where
  cached : Option FileMetadata
  joinPath : Except Failure String
  exchange : Exchange (ApiResponse MetadataEnvelope)

/-- `loadMetadata`, for the token of the gateway. -/
def loadMetadata (token : String) (answers : MetadataAnswers) (identifier : ObjectID) :
    Except Failure FileMetadata :=
  match answers.cached with
  | some metadata => .ok metadata
  | none =>
      match answers.joinPath with
      | .error e => .error (.wrapped "construct TorBox metadata URL" e)
      | .ok endpoint =>
          match answers.exchange.newRequest endpoint with
          | some e => .error (.wrapped "construct TorBox metadata request" e)
          | none =>
              match doJSON answers.exchange endpoint with
              | .error e => .error (.wrapped "request TorBox metadata" e)
              | .ok envelope =>
                  if envelope.success = false then
                    .error (.plain ("TorBox metadata rejected: " ++ sanitizeDetail token envelope.detail))
                  else
                    match envelope.decodeTorrent with
                    | none => .error (.plain "decode TorBox torrent metadata")
                    | some torrent => checkTorrent identifier torrent

/-! ## Links -/

/-- What ends the wait for the request of a link, which all that need the link share and which has a
context of its own. -/
inductive LinkWait
  | done (e : ContextError)
  | resolved (result : Except Failure String)

/-- What `downloadURL` finds: a link in its cache that has not expired, or else the end of its wait. -/
structure LinkAnswers where
  cached : Option String
  wait : LinkWait

/-- `downloadURL`: a link, and whether it comes from the cache. -/
def downloadURL (force : Bool) (answers : LinkAnswers) : Except Failure (String × Bool) :=
  match force, answers.cached, answers.wait with
  | false, some url, _ => .ok (url, true)
  | _, _, .done e => .error e.failure
  | _, _, .resolved (.ok url) => .ok (url, false)
  | _, _, .resolved (.error e) => .error e

/-- The request of `validateDownload`, with `ctx.Err()` after it. -/
structure Validation where
  client : Client
  after : Option ContextError

/-- The error of `validateDownload`, and whether it is `expiredDownloadError`. -/
structure ValidationResult where
  err : Option Failure
  expired : Bool

/-- `cdnStatusError`. -/
def cdnStatusError (status : ℕ) : Failure :=
  let text := "TorBox CDN validation requires status 206: got " ++ toString status
  if temporaryProviderStatus status = true then .wrapped text (.plain "temporarily unavailable")
  else .plain text

/-- The checks of `validateDownload` after its request. -/
def checkValidation (response : Response) (expectedSize : ℤ) : Option Failure :=
  if response.statusCode ≠ statusPartialContent then some (cdnStatusError response.statusCode)
  else
    match validateContentRange (response.header "Content-Range") 0 0 expectedSize with
    | .error e => some (.wrapped "TorBox CDN size mismatch or invalid validation range" e)
    | .ok _ =>
        match response.body.readLimited 2 with
        | .error e => some (.wrapped "read TorBox CDN validation range" e)
        | .ok body =>
            if body.length ≠ 1 then
              some (.plain ("TorBox CDN validation body length mismatch: got " ++
                toString body.length ++ " want 1"))
            else none

/-- `validateDownload`. -/
def validateDownload (validation : Validation) (url : String) (expectedSize : ℤ) : ValidationResult :=
  match validation.client.newRequest url with
  | some _ => ⟨some (.plain "construct TorBox CDN validation request"), false⟩
  | none =>
      match validation.client.send ⟨url, rangeHeader 0 0, none⟩ with
      | .error _ =>
          match validation.after with
          | some e => ⟨some (.wrapped "request TorBox CDN validation range" e.failure), false⟩
          | none => ⟨some (.wrapped "request TorBox CDN validation range"
              (.plain "temporarily unavailable")), false⟩
      | .ok response => ⟨Failure.join (checkValidation response expectedSize) response.body.closeError,
          refusedStatus response.statusCode⟩

/-! ## Opening -/

/-- What `Open` is answered: `ctx.Err()`, and what its calls find; `forced` and `again` are for a second
link. -/
structure OpenAnswers where
  before : Option ContextError
  metadata : MetadataAnswers
  link : LinkAnswers
  validation : Validation
  forced : LinkAnswers
  again : Validation

/-- `newSource`. -/
def newSource (metadata : FileMetadata) (url : String) : Source where
  size := metadata.size
  validator := metadata.validator
  download := url
  closed := false
  bounded := metadata.bounded

/-- A source with a link, if this is valid. -/
def validated (metadata : FileMetadata) (validation : Validation) (url : String) :
    Except Failure Source :=
  match (validateDownload validation url metadata.size).err with
  | some e => .error e
  | none => .ok (newSource metadata url)

/-- The part of `Open` after the metadata. -/
def openLinked (answers : OpenAnswers) (metadata : FileMetadata) : Except Failure Source :=
  match downloadURL false answers.link with
  | .error e => .error e
  | .ok (url, true) => .ok (newSource metadata url)
  | .ok (url, false) =>
      if (validateDownload answers.validation url metadata.size).expired = true then
        match downloadURL true answers.forced with
        | .error e => .error e
        | .ok (url, _) => validated metadata answers.again url
      else validated metadata answers.validation url

/-- `Open`, for the token of the gateway. -/
def openTorrentFile (token : String) (answers : OpenAnswers) (backing : BackingRef) :
    Except Failure Source :=
  match answers.before with
  | some e => .error (.wrapped "open TorBox source" e.failure)
  | none =>
      if backing.provider ≠ providerName then
        .error (.plain ("unsupported TorBox provider: " ++ TextTables.quote backing.provider))
      else do
        let identifier ← parseObjectID backing.objectID
        let metadata ← loadMetadata token answers.metadata identifier
        openLinked answers metadata

/-- How the link of a source is refreshed. -/
def refreshLink (link : LinkAnswers) (validation : Validation) (size : ℤ) : Refresh where
  downloadURL := (downloadURL true link).map Prod.fst
  validateDownload :=
    match downloadURL true link with
    | .ok (url, _) => (validateDownload validation url size).err
    | .error _ => none

/-! ## Cancelled requests -/

/-- Where a request of the API can be cancelled so that it shows: before its response, and before the end
of its JSON value. -/
inductive ApiCancelled {α : Type} (exchange : Exchange (ApiResponse α)) (endpoint : String) : Prop
  | request {e : Failure} (hsend : exchange.send endpoint = .error e)
      (hafter : exchange.after = some .canceled)
  | body {response : ApiResponse α} {e : Failure} (hsend : exchange.send endpoint = .ok response)
      (hstatus : response.statusCode = statusOK) (hdecoded : response.decoded = .error e)
      (hcanceled : e.is .canceled = true)

omit [TextTables] in
theorem ApiCancelled.shows {α : Type} {exchange : Exchange (ApiResponse α)} {endpoint : String}
    (h : ApiCancelled exchange endpoint) : Shows (doJSON exchange endpoint) := by
  cases h with
  | request hsend hafter =>
    simp only [doJSON, hsend, hafter]
    exact ⟨_, rfl, rfl⟩
  | @body response e hsend hstatus hdecoded hcanceled =>
    have hread : readJSON response = .error (.wrapped "decode TorBox API response" e) := by
      simp [readJSON, hstatus, hdecoded, statusOK, temporaryProviderStatus]
    have hshows : Shows (readJSON response) := ⟨_, hread, hcanceled⟩
    simp only [doJSON, hsend]
    exact hshows.joinClose _

omit [TextTables] in
/-- The error of reading on after the value does not show. -/
theorem doJSON_extra_hidden {α : Type} {exchange : Exchange (ApiResponse α)} {endpoint : String}
    {response : ApiResponse α} {value : α} (hsend : exchange.send endpoint = .ok response)
    (hstatus : response.statusCode = statusOK) (hdecoded : response.decoded = .ok value)
    (hextra : response.extra.any (fun e => e.is .eof) = false) (hclose : response.closeError = none) :
    doJSON exchange endpoint = .error (.joined (.plain "TorBox API response exceeds one JSON value")) := by
  have hread : readJSON response = .error (.plain "TorBox API response exceeds one JSON value") := by
    simp [readJSON, hstatus, hdecoded, hextra, statusOK, temporaryProviderStatus]
  simp only [doJSON, hsend, hread, hclose, joinClose]

/-- A wait for a link that is cancelled. -/
structure LinkCancelled (force : Bool) (answers : LinkAnswers) : Prop where
  wait : answers.wait = .done .canceled
  missing : force = false → answers.cached = none

omit [TextTables] in
theorem LinkCancelled.shows {force : Bool} {answers : LinkAnswers} (h : LinkCancelled force answers) :
    Shows (downloadURL force answers) := by
  refine ⟨.canceled, ?_, rfl⟩
  cases force with
  | true => simp only [downloadURL, h.wait, failure_canceled]
  | false => simp only [downloadURL, h.wait, h.missing rfl, failure_canceled]

/-- Where `validateDownload` can be cancelled: in its request, and while it reads the body. -/
inductive ValidationCancelled (validation : Validation) (url : String) (size : ℤ) : Prop
  | request {e : Failure} (hrequest : validation.client.newRequest url = none)
      (hsend : validation.client.send ⟨url, rangeHeader 0 0, none⟩ = .error e)
      (hafter : validation.after = some .canceled)
  | body {response : Response} {e : Failure} (hrequest : validation.client.newRequest url = none)
      (hsend : validation.client.send ⟨url, rangeHeader 0 0, none⟩ = .ok response)
      (hstatus : response.statusCode = statusPartialContent)
      (hrange : validateContentRange (response.header "Content-Range") 0 0 size = .ok ())
      (hbody : response.body.readLimited 2 = .error e) (hcanceled : e.is .canceled = true)

/-- A cancelled validation is not taken for a link that has expired. -/
theorem ValidationCancelled.shows {validation : Validation} {url : String} {size : ℤ}
    (h : ValidationCancelled validation url size) :
    (∃ e, (validateDownload validation url size).err = some e ∧ e.is .canceled = true) ∧
      (validateDownload validation url size).expired = false := by
  cases h with
  | request hrequest hsend hafter =>
    simp only [validateDownload, hrequest, hsend, hafter]
    exact ⟨⟨_, rfl, rfl⟩, trivial⟩
  | @body response e hrequest hsend hstatus hrange hbody hcanceled =>
    have hchecked : checkValidation response size =
        some (.wrapped "read TorBox CDN validation range" e) := by
      simp only [checkValidation, hstatus, ne_eq, not_true, if_false, hrange, hbody]
    simp only [validateDownload, hrequest, hsend, hchecked, hstatus]
    exact ⟨shows_join (e := .wrapped _ e) hcanceled _, rfl⟩

theorem ValidationCancelled.validated {metadata : FileMetadata} {validation : Validation} {url : String}
    (h : ValidationCancelled validation url metadata.size) : Shows (validated metadata validation url) := by
  obtain ⟨⟨e, he, hshows⟩, -⟩ := h.shows
  simp only [Torbox.validated, he]
  exact ⟨e, rfl, hshows⟩

/-! ## Cancelled calls -/

/-- Where `Open` can be cancelled after the metadata. -/
inductive LinkedCancelled (answers : OpenAnswers) (metadata : FileMetadata) : Prop
  | link (h : LinkCancelled false answers.link)
  | validation {url : String} (hlink : downloadURL false answers.link = .ok (url, false))
      (h : ValidationCancelled answers.validation url metadata.size)
  | forced {url : String} (hlink : downloadURL false answers.link = .ok (url, false))
      (hexpired : (validateDownload answers.validation url metadata.size).expired = true)
      (h : LinkCancelled true answers.forced)
  | again {url url' : String} {cached : Bool} (hlink : downloadURL false answers.link = .ok (url, false))
      (hexpired : (validateDownload answers.validation url metadata.size).expired = true)
      (hforced : downloadURL true answers.forced = .ok (url', cached))
      (h : ValidationCancelled answers.again url' metadata.size)

theorem LinkedCancelled.shows {answers : OpenAnswers} {metadata : FileMetadata}
    (h : LinkedCancelled answers metadata) : Shows (openLinked answers metadata) := by
  cases h with
  | link h =>
    obtain ⟨e, he, hshows⟩ := h.shows
    simp only [openLinked, he]
    exact ⟨e, rfl, hshows⟩
  | validation hlink h =>
    simp only [openLinked, hlink, h.shows.2, Bool.false_eq_true, if_false]
    exact h.validated
  | forced hlink hexpired h =>
    obtain ⟨e, he, hshows⟩ := h.shows
    simp only [openLinked, hlink, hexpired, if_true, he]
    exact ⟨e, rfl, hshows⟩
  | again hlink hexpired hforced h =>
    simp only [openLinked, hlink, hexpired, if_true, hforced]
    exact h.validated

/-- A file that `Open` asks for. -/
structure Asked (answers : OpenAnswers) (backing : BackingRef) (identifier : ObjectID) : Prop where
  live : answers.before = none
  provider : backing.provider = providerName
  file : parseObjectID backing.objectID = .ok identifier

theorem Asked.openTorrentFile {token : String} {answers : OpenAnswers} {backing : BackingRef}
    {identifier : ObjectID} (h : Asked answers backing identifier) :
    openTorrentFile token answers backing =
      (loadMetadata token answers.metadata identifier >>= fun metadata => openLinked answers metadata) := by
  unfold Torbox.openTorrentFile
  rw [h.live]
  simp only [h.provider, ne_eq, not_true, if_false, h.file]
  rfl

/-- Where `Open` can be cancelled so that it shows. -/
inductive OpenCancelled (token : String) (answers : OpenAnswers) (backing : BackingRef) : Prop
  | entry (h : answers.before = some .canceled)
  | metadata {identifier : ObjectID} {endpoint : String} (hasked : Asked answers backing identifier)
      (hmissing : answers.metadata.cached = none) (hurl : answers.metadata.joinPath = .ok endpoint)
      (hrequest : answers.metadata.exchange.newRequest endpoint = none)
      (h : ApiCancelled answers.metadata.exchange endpoint)
  | linked {identifier : ObjectID} {metadata : FileMetadata} (hasked : Asked answers backing identifier)
      (hmetadata : loadMetadata token answers.metadata identifier = .ok metadata)
      (h : LinkedCancelled answers metadata)

theorem OpenCancelled.shows {token : String} {answers : OpenAnswers} {backing : BackingRef}
    (h : OpenCancelled token answers backing) : Shows (openTorrentFile token answers backing) := by
  cases h with
  | entry h =>
    simp only [openTorrentFile, h]
    exact ⟨_, rfl, rfl⟩
  | metadata hasked hmissing hurl hrequest h =>
    rw [hasked.openTorrentFile]
    refine Shows.bind ?_
    obtain ⟨e, he, hshows⟩ := h.shows
    simp only [loadMetadata, hmissing, hurl, hrequest, he]
    exact ⟨_, rfl, hshows⟩
  | linked hasked hmetadata h =>
    rw [hasked.openTorrentFile, hmetadata]
    exact h.shows

/-- A first request that the link is refused for. -/
structure LinkRefused (s : Source) (client : Client) (offset wanted : ℤ) (response : Response) : Prop where
  request : client.newRequest s.download = none
  send : client.send (rangeRequest s.download offset wanted) = .ok response
  refused : refusedStatus response.statusCode = true

/-- A read whose body ends with an error. -/
structure RangeFails (s : Source) (client : Client) (url : String) (offset wanted : ℤ)
    (response : Response) (e : Failure) : Prop where
  request : client.newRequest url = none
  send : client.send (rangeRequest url offset wanted) = .ok response
  body : BodyFails sourceTexts s.size (fun _ => .ok ()) response offset wanted e

/-- Where `ReadAt` can be cancelled so that it shows: at its check of the context, while it reads a body,
and while it refreshes the link. -/
inductive ReadCancelled (s : Source) (ctx : ReadContext) (client again : Client) (link : LinkAnswers)
    (validation : Validation) (destination : List UInt8) (offset : ℤ) : Prop
  | entry (h : ctx.before = some .canceled)
  | body {wanted : ℤ} {clipped : Bool} {response : Response} {e : Failure}
      (hready : Ready s.closed s.size ctx destination offset wanted clipped)
      (hbody : RangeFails s client s.download offset wanted response e) (hcanceled : e.is .canceled = true)
  | link {wanted : ℤ} {clipped : Bool} {response : Response}
      (hready : Ready s.closed s.size ctx destination offset wanted clipped)
      (hrefused : LinkRefused s client offset wanted response) (h : LinkCancelled true link)
  | validation {wanted : ℤ} {clipped cached : Bool} {response : Response} {url : String}
      (hready : Ready s.closed s.size ctx destination offset wanted clipped)
      (hrefused : LinkRefused s client offset wanted response)
      (hlink : downloadURL true link = .ok (url, cached))
      (h : ValidationCancelled validation url s.size)
  | again {wanted : ℤ} {clipped cached : Bool} {response response' : Response} {url : String} {e : Failure}
      (hready : Ready s.closed s.size ctx destination offset wanted clipped)
      (hrefused : LinkRefused s client offset wanted response)
      (hlink : downloadURL true link = .ok (url, cached))
      (hvalid : (validateDownload validation url s.size).err = none)
      (hbody : RangeFails s again url offset wanted response' e) (hcanceled : e.is .canceled = true)

theorem RangeFails.readRange {s : Source} {client : Client} {url : String} {offset wanted : ℤ}
    {response : Response} {e : Failure} (h : RangeFails s client url offset wanted response e)
    (destination : List UInt8) : readRange s client url destination offset wanted =
      ⟨destination, 0, response.statusCode,
        Failure.join (some (sourceTexts.unread e)) response.body.closeError⟩ := by
  simp only [Torbox.readRange, h.request, h.send, h.body.completeBody]

theorem LinkRefused.readRange {s : Source} {client : Client} {offset wanted : ℤ} {response : Response}
    (h : LinkRefused s client offset wanted response) (destination : List UInt8) :
    (readRange s client s.download destination offset wanted).err.isSome ∧
      refusedStatus (readRange s client s.download destination offset wanted).status = true := by
  have hstatus : response.statusCode ≠ statusPartialContent := by
    intro hsame
    have hrefused := h.refused
    rw [hsame] at hrefused
    cases hrefused
  have hbody : completeBody sourceTexts s.size (fun _ => .ok ()) response offset wanted =
      .error (sourceTexts.status response.statusCode) := by
    rw [completeBody, if_pos hstatus]
  simp only [Torbox.readRange, h.request, h.send, hbody]
  refine ⟨?_, h.refused⟩
  cases response.body.closeError <;> rfl

theorem finishRead_shows {rest : List UInt8} {clipped : Bool} {result : RangeResult} {e : Failure}
    (h : result.err = some e) (hcanceled : e.is .canceled = true) :
    (finishRead rest clipped result).Shows := by
  refine ⟨e, ?_, hcanceled⟩
  simp only [finishRead, h]

theorem ReadCancelled.shows {s : Source} {ctx : ReadContext} {client again : Client} {link : LinkAnswers}
    {validation : Validation} {destination : List UInt8} {offset : ℤ}
    (h : ReadCancelled s ctx client again link validation destination offset) :
    (readAt s ctx client again (refreshLink link validation s.size) destination offset).Shows := by
  cases h with
  | entry h => exact readAvailable_cancelled h
  | @body wanted clipped response e hready hbody hcanceled =>
    have hlive : ¬ refusedStatus statusPartialContent = true := by decide
    simp only [readAt, hready.readAvailable, readRefreshed, hbody.readRange, hbody.body.status]
    rw [if_neg fun hrefused => hlive hrefused.2]
    obtain ⟨e', he', hshows⟩ := shows_join (e := sourceTexts.unread e) hcanceled response.body.closeError
    exact finishRead_shows he' hshows
  | link hready hrefused h =>
    obtain ⟨e, he, hshows⟩ := h.shows
    simp only [readAt, hready.readAvailable, readRefreshed, if_pos (hrefused.readRange _), refreshLink, he]
    exact shows_failed hshows
  | validation hready hrefused hlink h =>
    obtain ⟨⟨e, he, hshows⟩, -⟩ := h.shows
    simp only [readAt, hready.readAvailable, readRefreshed, if_pos (hrefused.readRange _), refreshLink,
      hlink, he]
    exact shows_failed hshows
  | @again wanted clipped cached response response' url e hready hrefused hlink hvalid hbody hcanceled =>
    simp only [readAt, hready.readAvailable, readRefreshed, if_pos (hrefused.readRange _), refreshLink,
      hlink, hvalid]
    obtain ⟨e', he', hshows⟩ := shows_join (e := sourceTexts.unread e) hcanceled response'.body.closeError
    simp only [Except.map, hbody.readRange]
    exact finishRead_shows he' hshows

/-- The error of the request of a range does not show in the error of `ReadAt`. -/
theorem readAt_request_hidden {s : Source} {ctx : ReadContext} {client again : Client} {refresh : Refresh}
    {destination : List UInt8} {offset wanted : ℤ} {clipped : Bool} {e : Failure}
    (hready : Ready s.closed s.size ctx destination offset wanted clipped)
    (hrequest : client.newRequest s.download = none)
    (hsend : client.send (rangeRequest s.download offset wanted) = .error e) :
    (readAt s ctx client again refresh destination offset).err =
      some (.plain "request TorBox CDN range") := by
  simp only [readAt, hready.readAvailable, readRefreshed, readRange, hrequest, hsend]
  rfl

end Opening

end BlackPearl.Torbox
