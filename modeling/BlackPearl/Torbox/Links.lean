import BlackPearl.Library.Memo
import BlackPearl.Library.Transition
import BlackPearl.Torbox.Open

/-!
# The links of an account under many readers

The caches of `internal/gateway/torbox/gateway.go` as one transition system. Any number of `Open` calls
and of `ReadAt` calls on opened sources run at once, each a phase between two locked sections or
requests; the requests for links are shared, and run on when their callers have left. Every label is one
action of a caller, of a shared request, of the provider or of the clock, so a run of `gatewayStep` is an
interleaving.

The state remembers what has been seen: every request for a link with its result, and which links
`validateDownload` has accepted for which sizes. A call keeps what it was answered, so that its result
can be compared with the functions of a single call.
-/

set_option autoImplicit false

namespace BlackPearl.Torbox

open BlackPearl.Library BlackPearl.Domain BlackPearl.Acquisition BlackPearl.HttpRange

/-- `url.Parse`, with `URL.String` of what it parses. -/
class URLTexts extends URLParser where
  text : String → String

section Gateway

variable [TextTables] [URLTexts]

/-! ## Requests for links -/

/-- `objectID.String`. -/
def ObjectID.text (identifier : ObjectID) : String :=
  toString identifier.torrentID ++ ":" ++ toString identifier.fileID

/-- The key of a link. -/
def linkKey (identifier : ObjectID) (validator : String) : String :=
  identifier.text ++ "\x00" ++ validator

/-- The request for a link: its URL without the query, the query, and `Authorization`. -/
structure LinkRequest where
  endpoint : String
  query : List (String × String)
  authorization : String
  deriving DecidableEq, Repr

def linkRequest (token : String) (identifier : ObjectID) (endpoint : String) : LinkRequest where
  endpoint := endpoint
  query := [("append_name", "false"), ("file_id", toString identifier.fileID), ("redirect", "false"),
    ("token", token), ("torrent_id", toString identifier.torrentID)]
  authorization := "Bearer " ++ token

/-- An `apiEnvelope` whose data is a text. -/
structure LinkEnvelope where
  success : Bool
  detail : String
  data : String

/-- What `requestDownloadURL` is answered. -/
structure LinkRequestAnswers where
  joinPath : Except Failure String
  newRequest : String → Option Failure
  send : LinkRequest → Except Failure (ApiResponse LinkEnvelope)
  after : Option ContextError

/-- The checks of `requestDownloadURL` on a link. -/
def checkDownloadURL (data : String) : Except Failure String :=
  let invalid := .error (.plain "TorBox returned an invalid HTTPS download URL")
  match URLParser.parse data with
  | none => invalid
  | some parsed =>
      if parsed.scheme ≠ "https" ∨ parsed.host = "" ∨ parsed.hasUser = true ∨ parsed.fragment ≠ "" then
        invalid
      else .ok (URLTexts.text data)

/-- `requestDownloadURL`, for the token of the gateway. -/
def requestDownloadURL (token : String) (answers : LinkRequestAnswers) (identifier : ObjectID) :
    Except Failure String :=
  match answers.joinPath with
  | .error e => .error (.wrapped "construct TorBox download request URL" e)
  | .ok endpoint =>
      match answers.newRequest endpoint with
      | some e => .error (.wrapped "construct TorBox download request" e)
      | none =>
          let exchange : Exchange (ApiResponse LinkEnvelope) := {
            newRequest := answers.newRequest
            send := fun endpoint => answers.send (linkRequest token identifier endpoint)
            after := answers.after }
          match doJSON exchange endpoint with
          | .error e => .error (.wrapped "request TorBox download link" e)
          | .ok envelope =>
              if envelope.success = false then
                .error (.plain ("TorBox download link rejected: " ++ sanitizeDetail token envelope.detail))
              else checkDownloadURL envelope.data

/-! ## Calls -/

/-- A file with the metadata that it is opened with. -/
structure LinkedFile where
  identifier : ObjectID
  metadata : FileMetadata

/-- The key of the link of a file. -/
def LinkedFile.key (file : LinkedFile) : String := linkKey file.identifier file.metadata.validator

/-- Where an `Open` stands: before its lookup of metadata or a link, in a request, at the wait for a
shared one, or before it changes the links. -/
inductive OpenPhase
  | loading (identifier : ObjectID)
  | requesting (identifier : ObjectID)
  | linking (file : LinkedFile) (force : Bool)
  | awaiting (file : LinkedFile) (force : Bool) (call : ℕ)
  | validating (file : LinkedFile) (url : String) (again : Bool)
  | invalidating (file : LinkedFile) (url : String)
  | caching (file : LinkedFile) (url : String)
  | returned (result : Except Failure Source)

/-- An `Open` with what it was answered so far. -/
structure Opening where
  backing : BackingRef
  answers : OpenAnswers
  phase : OpenPhase

/-- An opened source, with the file that it is of. -/
structure OpenedSource where
  file : LinkedFile
  source : Source

/-- Where a `ReadAt` stands. -/
inductive ReadPhase
  | requesting
  | linking
  | awaiting (call : ℕ)
  | validating (url : String)
  | caching (url : String)
  | storing (url : String)
  | again (url : String)
  | returned (result : ReadResult)

/-- What a `ReadAt` was answered: the source when it began and the link at its first request, the
clients, and how its link was refreshed. -/
structure ReadAnswers where
  source : Source
  client : Client
  link : LinkAnswers
  validation : Validation
  again : Client

/-- A `ReadAt` with what it was answered so far. -/
structure Reading where
  source : ℕ
  ctx : ReadContext
  destination : List UInt8
  offset : ℤ
  wanted : ℤ
  clipped : Bool
  answers : ReadAnswers
  phase : ReadPhase

/-! ## The gateway -/

/-- The options of `New` that matter here; the times are in nanoseconds. -/
structure GatewayOptions where
  token : String
  metadataTTL : ℤ
  linkTTL : ℤ

/-- `Gateway`, with its callers and what they have opened. -/
structure GatewayState where
  now : ℤ
  metadata : Table ObjectID (Expiring FileMetadata)
  links : Table String (Expiring String)
  requests : SharedCalls String ObjectID (Except Failure String)
  accepted : List (String × ℤ)
  opens : Table ℕ Opening
  sources : Table ℕ OpenedSource
  reads : Table ℕ Reading

/-- `New`. -/
def newGateway (now : ℤ) : GatewayState where
  now := now
  metadata := ∅
  links := ∅
  requests := .empty
  accepted := []
  opens := ∅
  sources := ∅
  reads := ∅

inductive GatewayLabel
  | elapse (duration : ℕ)
  | resolve (call : ℕ) (answers : LinkRequestAnswers)
  | open (id : ℕ) (before : Option ContextError) (backing : BackingRef)
  | loadMetadata (id : ℕ)
  | requestMetadata (id : ℕ) (joinPath : Except Failure String)
      (exchange : Exchange (ApiResponse MetadataEnvelope))
  | linkOpen (id : ℕ)
  | wakeOpen (id : ℕ) (done : Option ContextError)
  | validateOpen (id : ℕ) (validation : Validation)
  | invalidateOpen (id : ℕ)
  | cacheOpen (id : ℕ)
  | close (id : ℕ)
  | read (id source : ℕ) (ctx : ReadContext) (destination : List UInt8) (offset : ℤ)
  | requestRange (id : ℕ) (client : Client)
  | linkRead (id : ℕ)
  | wakeRead (id : ℕ) (done : Option ContextError)
  | validateRead (id : ℕ) (validation : Validation)
  | cacheRead (id : ℕ)
  | storeRead (id : ℕ)
  | requestAgain (id : ℕ) (client : Client)

/-- What the locked section of `downloadURL` comes to: a link in the cache, or a request to wait for. -/
inductive LinkStart
  | cached (url : String)
  | waits (call : ℕ)

/-- The locked section of `downloadURL`. -/
def startLink (s : GatewayState) (file : LinkedFile) (force : Bool) : GatewayState × LinkStart :=
  match if force then none else Expiring.load s.now s.links file.key with
  | some url => (s, .cached url)
  | none =>
      let joined := s.requests.join file.key file.identifier
      ({ s with requests := joined.1 }, .waits joined.2)

/-- The end of the wait of `downloadURL`: the context of the caller, or the request if it has a result. -/
def endWait (s : GatewayState) (call : ℕ) (done : Option ContextError) : Option LinkWait :=
  match done with
  | some e => some (.done e)
  | none => (s.requests.result call).map LinkWait.resolved

/-- `cacheDownloadURL`. -/
def cacheDownloadURL (options : GatewayOptions) (s : GatewayState) (file : LinkedFile) (url : String) :
    GatewayState :=
  { s with links := Expiring.store s.now options.linkTTL s.links file.key url }

/-- `invalidateDownloadURL`. -/
def invalidateDownloadURL (s : GatewayState) (file : LinkedFile) (url : String) : GatewayState :=
  match s.links.lookup file.key with
  | some cached => if cached.value = url then { s with links := s.links.erase file.key } else s
  | none => s

/-- A link that has been validated is remembered as such. -/
def acceptLink (s : GatewayState) (validation : Validation) (url : String) (size : ℤ) : GatewayState :=
  match (validateDownload validation url size).err with
  | none => { s with accepted := (url, size) :: s.accepted }
  | some _ => s

/-! ## Opening -/

/-- Answers of nothing, for calls that have asked for nothing yet. -/
def LinkAnswers.none : LinkAnswers := ⟨Option.none, .resolved (.error .eof)⟩

def noClient : Client := ⟨fun _ => some .eof, fun _ => .error .eof⟩

def Validation.none : Validation := ⟨noClient, Option.none⟩

def OpenAnswers.none (before : Option ContextError) : OpenAnswers where
  before := before
  metadata := ⟨Option.none, .error .eof, ⟨fun _ => some .eof, fun _ => .error .eof, Option.none⟩⟩
  link := .none
  validation := .none
  forced := .none
  again := .none

/-- The checks of `Open` before its first lookup. -/
def startOpening (before : Option ContextError) (backing : BackingRef) : OpenPhase :=
  match before with
  | some e => .returned (.error (.wrapped "open TorBox source" e.failure))
  | none =>
      if backing.provider ≠ providerName then
        .returned (.error (.plain ("unsupported TorBox provider: " ++ TextTables.quote backing.provider)))
      else
        match parseObjectID backing.objectID with
        | .error e => .returned (.error e)
        | .ok identifier => .loading identifier

/-- A call that goes on with a further phase. -/
def GatewayState.setOpen (s : GatewayState) (id : ℕ) (opening : Opening) : GatewayState :=
  { s with opens := s.opens.insert id opening }

/-- An `Open` returns a source, under its own number. -/
def returnSource (s : GatewayState) (id : ℕ) (opening : Opening) (file : LinkedFile) (url : String) :
    GatewayState :=
  let source := newSource file.metadata url
  { s with
    opens := s.opens.insert id { opening with phase := .returned (.ok source) }
    sources := s.sources.insert id ⟨file, source⟩ }

/-- The first locked section of `loadMetadata`. -/
def loadMetadataStep (s : GatewayState) (id : ℕ) (opening : Opening) (identifier : ObjectID) :
    GatewayState :=
  match Expiring.load s.now s.metadata identifier with
  | some metadata => s.setOpen id { opening with
      answers := { opening.answers with
        metadata := { opening.answers.metadata with cached := some metadata } }
      phase := .linking ⟨identifier, metadata⟩ false }
  | none => s.setOpen id { opening with phase := .requesting identifier }

/-- The rest of `loadMetadata`. -/
def requestMetadataStep (options : GatewayOptions) (s : GatewayState) (id : ℕ) (opening : Opening)
    (identifier : ObjectID) (answers : MetadataAnswers) : GatewayState :=
  let opening := { opening with answers := { opening.answers with metadata := answers } }
  match loadMetadata options.token answers identifier with
  | .error e => s.setOpen id { opening with phase := .returned (.error e) }
  | .ok metadata =>
      { s.setOpen id { opening with phase := .linking ⟨identifier, metadata⟩ false } with
        metadata := Expiring.store s.now options.metadataTTL s.metadata identifier metadata }

/-- What an `Open` was answered by `downloadURL`, for the first link or for a second one. -/
def OpenAnswers.setLink (answers : OpenAnswers) (force : Bool) (link : LinkAnswers) : OpenAnswers :=
  if force then { answers with forced := link } else { answers with link := link }

def OpenAnswers.setValidation (answers : OpenAnswers) (again : Bool) (validation : Validation) :
    OpenAnswers :=
  if again then { answers with again := validation } else { answers with validation := validation }

/-- The locked section of `downloadURL` in an `Open`. -/
def linkOpenStep (s : GatewayState) (id : ℕ) (opening : Opening) (file : LinkedFile) (force : Bool) :
    GatewayState :=
  match startLink s file force with
  | (s', .cached url) =>
      returnSource s' id { opening with
        answers := opening.answers.setLink force { LinkAnswers.none with cached := some url } } file url
  | (s', .waits call) => s'.setOpen id { opening with phase := .awaiting file force call }

/-- The end of `downloadURL` in an `Open`. -/
def wakeOpenStep (s : GatewayState) (id : ℕ) (opening : Opening) (file : LinkedFile) (force : Bool)
    (wait : LinkWait) : GatewayState :=
  let opening := { opening with answers := opening.answers.setLink force ⟨none, wait⟩ }
  match downloadURL force ⟨none, wait⟩ with
  | .error e => s.setOpen id { opening with phase := .returned (.error e) }
  | .ok (url, _) => s.setOpen id { opening with phase := .validating file url force }

/-- `validateDownload` in an `Open`. -/
def validateOpenStep (s : GatewayState) (id : ℕ) (opening : Opening) (file : LinkedFile) (url : String)
    (again : Bool) (validation : Validation) : GatewayState :=
  let opening := { opening with answers := opening.answers.setValidation again validation }
  let result := validateDownload validation url file.metadata.size
  let s := acceptLink s validation url file.metadata.size
  if again = false ∧ result.expired = true then
    s.setOpen id { opening with phase := .invalidating file url }
  else
    match result.err with
    | some e => s.setOpen id { opening with phase := .returned (.error e) }
    | none => s.setOpen id { opening with phase := .caching file url }

/-- An action of an `Open`. -/
def openStep (options : GatewayOptions) (s : GatewayState) (id : ℕ) (opening : Opening) :
    GatewayLabel → Option GatewayState
  | .loadMetadata _ =>
      match opening.phase with
      | .loading identifier => some (loadMetadataStep s id opening identifier)
      | _ => none
  | .requestMetadata _ joinPath exchange =>
      match opening.phase with
      | .requesting identifier =>
          some (requestMetadataStep options s id opening identifier ⟨none, joinPath, exchange⟩)
      | _ => none
  | .linkOpen _ =>
      match opening.phase with
      | .linking file force => some (linkOpenStep s id opening file force)
      | _ => none
  | .wakeOpen _ done =>
      match opening.phase with
      | .awaiting file force call => (endWait s call done).map (wakeOpenStep s id opening file force)
      | _ => none
  | .validateOpen _ validation =>
      match opening.phase with
      | .validating file url again => some (validateOpenStep s id opening file url again validation)
      | _ => none
  | .invalidateOpen _ =>
      match opening.phase with
      | .invalidating file url =>
          some ((invalidateDownloadURL s file url).setOpen id { opening with phase := .linking file true })
      | _ => none
  | .cacheOpen _ =>
      match opening.phase with
      | .caching file url =>
          some (returnSource (cacheDownloadURL options s file url) id opening file url)
      | _ => none
  | _ => none

/-! ## Reading -/

/-- What a `ReadAt` asks for, if it gets to its request. -/
def readWanted (closed : Bool) (size : ℤ) (ctx : ReadContext) (destination : List UInt8) (offset : ℤ) :
    Option (ℤ × Bool) :=
  if ctx.before.isSome ∨ closed = true ∨ offset < 0 ∨ destination.length = 0 ∨ size ≤ offset then none
  else if size - offset < destination.length then some (size - offset, true)
  else some (destination.length, false)

def GatewayState.setRead (s : GatewayState) (id : ℕ) (reading : Reading) : GatewayState :=
  { s with reads := s.reads.insert id reading }

/-- The checks of `ReadAt`. -/
def startReading (source : ℕ) (opened : OpenedSource) (ctx : ReadContext) (destination : List UInt8)
    (offset : ℤ) : Reading :=
  let answers : ReadAnswers := ⟨opened.source, noClient, .none, .none, noClient⟩
  match readWanted opened.source.closed opened.source.size ctx destination offset with
  | some (wanted, clipped) => ⟨source, ctx, destination, offset, wanted, clipped, answers, .requesting⟩
  | none => ⟨source, ctx, destination, offset, 0, false, answers,
      .returned (readAvailable sourceTexts opened.source.closed opened.source.size ctx destination offset
        fun _ _ => ⟨destination, 0, none⟩)⟩

/-- The bytes of the destination that a read is for, and the rest. -/
def Reading.front (reading : Reading) : List UInt8 := reading.destination.take reading.wanted.toNat

def Reading.rest (reading : Reading) : List UInt8 := reading.destination.drop reading.wanted.toNat

def Reading.returns (reading : Reading) (result : ReadResult) : Reading :=
  { reading with phase := .returned result }

/-- A read that has had its first answer, for the link that its source has then. -/
def Reading.answered (reading : Reading) (source : Source) (client : Client) : Reading :=
  { reading with answers := { reading.answers with
    source := { reading.answers.source with download := source.download }
    client := client } }

/-- A read that has had its second answer. -/
def Reading.answeredAgain (reading : Reading) (client : Client) : Reading :=
  { reading with answers := { reading.answers with again := client } }

/-- The first request of a read. -/
def requestRangeStep (s : GatewayState) (id : ℕ) (reading : Reading) (source : Source) (client : Client) :
    GatewayState :=
  let reading := reading.answered source client
  let first := readRange source client source.download reading.front reading.offset reading.wanted
  if first.err.isSome ∧ refusedStatus first.status = true then
    s.setRead id { reading with phase := .linking }
  else s.setRead id (reading.returns (finishRead reading.rest reading.clipped first))

/-- The locked section of `downloadURL` in a read, which is forced. -/
def linkReadStep (s : GatewayState) (id : ℕ) (reading : Reading) (file : LinkedFile) : GatewayState :=
  match startLink s file true with
  | (s', .cached url) => s'.setRead id { reading with phase := .validating url }
  | (s', .waits call) => s'.setRead id { reading with phase := .awaiting call }

/-- The end of `downloadURL` in a read. -/
def wakeReadStep (s : GatewayState) (id : ℕ) (reading : Reading) (wait : LinkWait) : GatewayState :=
  let reading := { reading with answers := { reading.answers with link := ⟨none, wait⟩ } }
  match downloadURL true ⟨none, wait⟩ with
  | .error e => s.setRead id (reading.returns
      (failed reading.destination (.wrapped "refresh TorBox download link" e)))
  | .ok (url, _) => s.setRead id { reading with phase := .validating url }

/-- `validateDownload` in a read. -/
def validateReadStep (s : GatewayState) (id : ℕ) (reading : Reading) (file : LinkedFile) (url : String)
    (validation : Validation) : GatewayState :=
  let reading := { reading with answers := { reading.answers with validation := validation } }
  let s := acceptLink s validation url file.metadata.size
  match (validateDownload validation url file.metadata.size).err with
  | some e => s.setRead id (reading.returns
      (failed reading.destination (.wrapped "validate refreshed TorBox download link" e)))
  | none => s.setRead id { reading with phase := .caching url }

/-- The store of the refreshed link in the source. -/
def storeReadStep (s : GatewayState) (id : ℕ) (reading : Reading) (opened : OpenedSource) (url : String) :
    GatewayState :=
  let stored : OpenedSource := { opened with source := { opened.source with download := url } }
  { s.setRead id { reading with phase := .again url } with
    sources := s.sources.insert reading.source stored }

/-- The second request of a read. -/
def requestAgainStep (s : GatewayState) (id : ℕ) (reading : Reading) (source : Source) (url : String)
    (client : Client) : GatewayState :=
  let reading := reading.answeredAgain client
  s.setRead id (reading.returns (finishRead reading.rest reading.clipped
    (readRange source client url reading.front reading.offset reading.wanted)))

/-- An action of a `ReadAt` of an opened source. -/
def readStep (options : GatewayOptions) (s : GatewayState) (id : ℕ) (reading : Reading)
    (opened : OpenedSource) : GatewayLabel → Option GatewayState
  | .requestRange _ client =>
      match reading.phase with
      | .requesting => some (requestRangeStep s id reading opened.source client)
      | _ => none
  | .linkRead _ =>
      match reading.phase with
      | .linking => some (linkReadStep s id reading opened.file)
      | _ => none
  | .wakeRead _ done =>
      match reading.phase with
      | .awaiting call => (endWait s call done).map (wakeReadStep s id reading)
      | _ => none
  | .validateRead _ validation =>
      match reading.phase with
      | .validating url => some (validateReadStep s id reading opened.file url validation)
      | _ => none
  | .cacheRead _ =>
      match reading.phase with
      | .caching url =>
          some ((cacheDownloadURL options s opened.file url).setRead id
            { reading with phase := .storing url })
      | _ => none
  | .storeRead _ =>
      match reading.phase with
      | .storing url => some (storeReadStep s id reading opened url)
      | _ => none
  | .requestAgain _ client =>
      match reading.phase with
      | .again url => some (requestAgainStep s id reading opened.source url client)
      | _ => none
  | _ => none

/-! ## All steps -/

/-- The call that an action of an `Open` or a `ReadAt` belongs to. -/
inductive Caller
  | opening (id : ℕ)
  | reading (id : ℕ)

def GatewayLabel.caller : GatewayLabel → Option Caller
  | .loadMetadata id | .requestMetadata id _ _ | .linkOpen id | .wakeOpen id _ | .validateOpen id _
  | .invalidateOpen id | .cacheOpen id => some (.opening id)
  | .requestRange id _ | .linkRead id | .wakeRead id _ | .validateRead id _ | .cacheRead id
  | .storeRead id | .requestAgain id _ => some (.reading id)
  | _ => none

/-- One action of a call that has begun. -/
def callStep (options : GatewayOptions) (s : GatewayState) (label : GatewayLabel) :
    Caller → Option GatewayState
  | .opening id => do openStep options s id (← s.opens.lookup id) label
  | .reading id => do
      let reading ← s.reads.lookup id
      readStep options s id reading (← s.sources.lookup reading.source) label

/-- One action. -/
def gatewayStep (options : GatewayOptions) (s : GatewayState) (label : GatewayLabel) :
    Option GatewayState :=
  match label with
  | .elapse duration => some { s with now := s.now + duration }
  | .resolve call answers => do
      let made ← s.requests.calls[call]?
      let requests ← s.requests.finish call (requestDownloadURL options.token answers made.input)
      some { s with requests := requests }
  | .open id before backing =>
      if (s.opens.lookup id).isSome then none
      else some (s.setOpen id ⟨backing, .none before, startOpening before backing⟩)
  | .read id source ctx destination offset =>
      if (s.reads.lookup id).isSome then none
      else do
        let opened ← s.sources.lookup source
        some (s.setRead id (startReading source opened ctx destination offset))
  | .close id => do
      let opened ← s.sources.lookup id
      some { s with sources := s.sources.insert id ⟨opened.file, opened.source.close⟩ }
  | label => label.caller.bind (callStep options s label)

/-- A gateway that has just been made, and its runs. -/
def gatewaySystem (options : GatewayOptions) : System GatewayState GatewayLabel where
  init s := ∃ now, s = newGateway now
  step := gatewayStep options

end Gateway

end BlackPearl.Torbox
