import BlackPearl.Library.Table
import BlackPearl.Library.Transition
import BlackPearl.SetupHandler.Requests
import BlackPearl.SetupService.Phases

/-!
# Pairing

`AuthorizeSetup` and `IssueSession` of `internal/service/setup/service.go` under the requests of
`internal/handler/setup`. Any number of requests are under way at once. Each of them is admitted,
authorized, carried out and answered in steps of its own, and others may change the saved setup between
any two of these: an `Apply` or a `PublishAcquired` holds the transition lock from its preparation to its
last phase, but what it has saved is read meanwhile.
-/

set_option autoImplicit false

namespace BlackPearl.SetupHandler

open BlackPearl.Library BlackPearl.Setup BlackPearl.SetupService BlackPearl.Acquisition

/-! ## Answers -/

/-- The errors that the handlers tell apart. -/
inductive CallError
  | invalidSettings
  | searchUnauthorized
  | notConfigured
  | notCached
  | noPlayableMedia
  | unauthorized
  | notFound
  | other
  deriving DecidableEq, Repr

/-- `writeAcquisitionError`. -/
def acquisitionError : CallError → Response
  | .invalidSettings => {
      status := 422, code := "invalid_settings", message := "Enter a valid Prowlarr URL and API key." }
  | .searchUnauthorized => {
      status := 401, code := "search_unauthorized"
      message := "Prowlarr rejected that API key. Copy the API key from Prowlarr Settings and try again." }
  | .notConfigured => {
      status := 409, code := "search_not_configured"
      message := "Connect Prowlarr before searching for new media." }
  | .notCached => {
      status := 404, code := "not_cached"
      message := "No instant TorBox result is available for that title yet. Try another title or try again later." }
  | .noPlayableMedia => {
      status := 422, code := "no_playable_media"
      message := "The instant result did not contain a matching MP4 or MKV video." }
  | .unauthorized => {
      status := 401, code := "provider_unauthorized"
      message := "Prowlarr or TorBox rejected a saved API key. Reconnect the provider and try again." }
  | .notFound | .other => {
      status := 503, code := "acquisition_unavailable"
      message := "BlackPearl could not add that title right now. Try again shortly." }

/-- `writeAcquisitionJobError`. -/
def jobError : CallError → Response
  | .notFound => {
      status := 404, code := "job_not_found", message := "That background request was not found." }
  | _ => {
      status := 503, code := "job_unavailable"
      message := "BlackPearl could not update background requests right now." }

/-- The errors of `serveWatchlistStatus`. -/
def watchlistError : CallError → Response
  | .unauthorized => {
      status := 401, code := "plex_unauthorized"
      message := "Plex rejected the saved watchlist credential. Sign in to Plex again and retry." }
  | _ => {
      status := 503, code := "watchlist_unavailable"
      message := "Plex watchlist status is temporarily unavailable." }

/-- The errors of `AuthorizeSetup`. -/
inductive AuthorizeError
  | notPaired
  | unavailable
  deriving DecidableEq, Repr

def providerUnavailable : Response where
  status := 503
  code := "provider_unavailable"
  message := "TorBox is temporarily unavailable. Try again shortly."

/-- `writeServiceError` for an error of `AuthorizeSetup`. -/
def authorizeError : AuthorizeError → Response
  | .notPaired => {
      status := 401, code := "setup_not_paired"
      message := "This browser is not paired with BlackPearl. Reopen the setup page from the BlackPearl launcher and try again." }
  | .unavailable => providerUnavailable

/-- `writeServiceError` for another error of the service. -/
def serviceError (e : ServiceError) : Response :=
  if e.causes.any (· == .unauthorized) then {
    status := 401, code := "unauthorized"
    message := "That TorBox API key is invalid or expired. Open TorBox Settings, select Copy API Key, and try again." }
  else if e.causes.any (· == .invalidSelection) then {
    status := 422, code := "invalid_selection"
    message := "That video is no longer available for setup." }
  else providerUnavailable

/-! ## Authorization -/

/-- What pairs a browser: the value that the launcher hands out, and the session of a token, which is a
keyed hash. -/
structure Pairing where
  bootstrapToken : ByteText
  sessionForToken : ByteText → ByteText

section Gate

variable [TextTables]

/-- `validBootstrap`. -/
def Pairing.validBootstrap (p : Pairing) (provided : ByteText) : Bool :=
  provided ≠ [] && provided = p.bootstrapToken

/-- `AuthorizeSetup`. -/
def authorizeSetup (p : Pairing) (load : Call) (suppliedToken session bootstrap : ByteText) (s : Service) :
    Except AuthorizeError Unit × Service :=
  match SetupService.loadManifest load s with
  | .error .notFound =>
      if suppliedToken = [] ∨ p.validBootstrap bootstrap = false then (.error .notPaired, s) else (.ok (), s)
  | .error (.failed _) => (.error .unavailable, s)
  | .ok saved =>
      let s := s.markTokenConfigured
      if p.validBootstrap bootstrap then (.ok (), s)
      else if session = p.sessionForToken saved.token then (.ok (), s)
      else if suppliedToken ≠ [] ∧ suppliedToken = saved.token then (.ok (), s)
      else (.error .notPaired, s)

/-- `IssueSession`. -/
def issueSession (p : Pairing) (load : Call) (token : ByteText) (s : Service) :
    Except ServiceError ByteText × Service :=
  match resolveToken load token s with
  | (.error e, s) => (.error e, s)
  | (.ok resolved, s) => (.ok (p.sessionForToken resolved), s)

/-- `Discover`. -/
def discover (calls : ApplyCalls) (token : ByteText) (s : Service) :
    Except ServiceError (List MediaCandidate) × Service :=
  match resolveToken calls.loadToken token s with
  | (.error e, s) => (.error e, s)
  | (.ok _, s) => (discoverWithToken calls, s)

/-! ## Requests under way -/

/-- What is next for a request: `AuthorizeSetup`, the operation, the rest of an `Apply`, the status that
decides on the session of a `Discover`, `IssueSession`, or nothing. -/
inductive Stage
  | authorizing (operation : Protected)
  | acting (operation : Protected)
  | committing
  | discovered (token : ByteText)
  | issuing (token : ByteText) (status : ℕ)
  | answered (response : Response)
  deriving DecidableEq, Repr

structure Exchange where
  request : Request
  stage : Stage
  deriving DecidableEq, Repr

/-- What holds the transition lock: the commit of a request or of an acquisition in the background, and
what its `SaveManifest` has returned, once it has. -/
structure Commit where
  owner : Option ℕ
  prepared : SetupService.Prepared
  saved : Option (Except SaveError Unit) := none

/-- The service with the requests under way; `calls` are the operations that were begun, with the requests
they were begun for. -/
structure Gate where
  service : Service
  commit : Option Commit := none
  exchanges : Table ℕ Exchange := ∅
  calls : List (ℕ × Protected) := []

/-- What the calls of an operation return: its own error, that of the status after `SetPolicy`, what is
acquired by an `Acquire`, and the calls of a `Discover`. -/
structure CallAnswer where
  error : Option CallError := none
  statusError : Option CallError := none
  objectID : ByteText := []
  discovery : ApplyCalls := { discover := .error false }

/-- The steps; each brings what the repository and the other services return. -/
inductive GateCall
  | receive (id : ℕ) (request : Request) (statusError : Option CallError)
  | authorize (id : ℕ) (load : Call)
  | perform (id : ℕ) (answer : CallAnswer)
  | prepareApply (id : ℕ) (calls : ApplyCalls)
  | preparePublish (calls : PublishCalls) (media : Setup.AcquiredMedia)
  | save (call : SaveCall)
  | settle (calls : CommitCalls)
  | readStatus (id : ℕ)
  | issue (id : ℕ) (load : Call)
  | restore (calls : RestoreCalls)

/-- What follows an operation: its answer, or its session. -/
def afterCall (answer : CallAnswer) (manifest : Option SetupManifest) : Protected → Stage
  | .discover token => .discovered token
  | .apply _ => .committing
  | .watchlistStatus =>
      match answer.error with
      | some e => .answered (watchlistError e)
      | none => .answered { status := 200 }
  | .setPolicy _ =>
      match answer.error, answer.statusError with
      | some _, _ => .answered {
          status := 503, code := "watchlist_unavailable"
          message := "The Watchlist setting could not be saved right now." }
      | none, some _ => .answered {
          status := 503, code := "watchlist_unavailable"
          message := "The Watchlist setting was saved, but its status could not be refreshed." }
      | none, none => .issuing [] 200
  | .configure _ _ =>
      match answer.error with
      | some e => .answered (acquisitionError e)
      | none => .issuing [] 200
  | .acquire _ =>
      match answer.error with
      | some e => .answered (acquisitionError e)
      | none =>
          let items := (manifest.map SetupManifest.items).getD []
          if items.any (fun item => item.objectID == answer.objectID) then .issuing [] 200
          else .answered (acquisitionError .other)
  | .submitJob _ =>
      match answer.error with
      | some e => .answered (jobError e)
      | none => .issuing [] 202
  | .listJobs | .getJob _ =>
      match answer.error with
      | some e => .answered (jobError e)
      | none => .answered { status := 200 }

/-- The identifier of a job that is looked up. -/
def validJobID (id : ByteText) : Bool := id ≠ [] && ByteText.containsChar id '/' = false

/-- What follows a successful authorization: a job without an identifier is not looked up. -/
def authorized : Protected → Stage
  | .getJob id => if validJobID id then .acting (.getJob id) else .answered (jobError .notFound)
  | operation => .acting operation

namespace Gate

/-- Another stage of a request. -/
def setStage (g : Gate) (id : ℕ) (x : Exchange) (stage : Stage) : Gate :=
  { g with exchanges := g.exchanges.insert id { x with stage := stage } }

/-- An operation but `Apply`. -/
def perform (g : Gate) (id : ℕ) (x : Exchange) (operation : Protected) (answer : CallAnswer) : Option Gate :=
  let begun : Gate := { g with calls := (id, operation) :: g.calls }
  match operation with
  | .apply _ => none
  | .discover token =>
      match SetupHandler.discover answer.discovery token g.service with
      | (.error e, s) => some { begun.setStage id x (.answered (serviceError e)) with service := s }
      | (.ok _, s) => some { begun.setStage id x (.discovered token) with service := s }
  | operation => some (begun.setStage id x (afterCall answer g.service.manifest operation))

/-- The lock is released, and the request that held it gets its result. -/
def release (g : Gate) (owner : Option ℕ) (result : Except ServiceError SetupManifest) : Gate :=
  match owner with
  | none => { g with commit := none }
  | some id =>
      match g.exchanges.lookup id with
      | none => { g with commit := none }
      | some x =>
          match result with
          | .error e => { g.setStage id x (.answered (serviceError e)) with commit := none }
          | .ok _ => { g.setStage id x (.issuing [] 200) with commit := none }

variable [FoldTables] [OriginParser] (h : Handler) (p : Pairing)

/-- The first stage of a request. -/
def received (request : Request) (statusError : Option CallError) : Stage :=
  match serveHTTP h request with
  | .answered response => .answered response
  | .setupStatus => .answered { status := 200 }
  | .acquisitionStatus =>
      match statusError with
      | some e => .answered (acquisitionError e)
      | none => .answered { status := 200 }
  | .asks operation => .authorizing operation

/-- One step. -/
def step (g : Gate) : GateCall → Option Gate
  | .receive id request statusError =>
      if g.exchanges.lookup id = none then
        some { g with exchanges := g.exchanges.insert id ⟨request, received h request statusError⟩ }
      else none
  | .authorize id load =>
      match g.exchanges.lookup id with
      | some x =>
          match x.stage with
          | .authorizing operation =>
              match authorizeSetup p load operation.token x.request.session x.request.bootstrap g.service with
              | (.error e, s) => some { g.setStage id x (.answered (authorizeError e)) with service := s }
              | (.ok (), s) => some { g.setStage id x (authorized operation) with service := s }
          | _ => none
      | none => none
  | .perform id answer =>
      match g.exchanges.lookup id with
      | some x =>
          match x.stage with
          | .acting operation => g.perform id x operation answer
          | _ => none
      | none => none
  | .prepareApply id calls =>
      match g.exchanges.lookup id, g.commit with
      | some x, none =>
          match x.stage with
          | .acting (.apply request) =>
              let begun : Gate := { g with calls := (id, .apply request) :: g.calls }
              match SetupService.prepareApply calls request g.service with
              | (.error e, s) => some { begun.setStage id x (.answered (serviceError e)) with service := s }
              | (.ok prepared, s) =>
                  some { begun.setStage id x .committing with service := s, commit := some ⟨some id, prepared, none⟩ }
          | _ => none
      | _, _ => none
  | .preparePublish calls media =>
      match g.commit with
      | some _ => none
      | none =>
          match SetupService.preparePublish calls media g.service with
          | .error _ => some g
          | .ok prepared => some { g with commit := some ⟨none, prepared, none⟩ }
  | .save call =>
      match g.commit with
      | some ⟨owner, prepared, none⟩ =>
          let saved := SetupService.saveManifest call prepared.token prepared.manifest g.service
          some { g with service := saved.2, commit := some ⟨owner, prepared, some saved.1⟩ }
      | _ => none
  | .settle calls =>
      match g.commit with
      | some ⟨owner, prepared, some saved⟩ =>
          let settled := SetupService.settle calls prepared saved g.service
          some (({ g with service := settled.2 } : Gate).release owner settled.1)
      | _ => none
  | .readStatus id =>
      match g.exchanges.lookup id with
      | some x =>
          match x.stage with
          | .discovered token =>
              some (g.setStage id x (.issuing (if g.service.tokenConfigured then [] else token) 200))
          | _ => none
      | none => none
  | .issue id load =>
      match g.exchanges.lookup id with
      | some x =>
          match x.stage with
          | .issuing token status =>
              match issueSession p load token g.service with
              | (.error e, s) => some { g.setStage id x (.answered (serviceError e)) with service := s }
              | (.ok session, s) =>
                  some { g.setStage id x (.answered { status := status, session := some session }) with
                    service := s }
          | _ => none
      | none => none
  | .restore calls =>
      match g.commit with
      | some _ => none
      | none => some { g with service := (SetupService.restore calls g.service).2 }

end Gate

/-- The setup page from the start of its process on, where `first` is what was saved before. -/
def setupPage [FoldTables] [OriginParser] (h : Handler) (p : Pairing) (first : Option SavedSetup) :
    System Gate GateCall :=
  ⟨fun g => g = { service := { saved := first } }, Gate.step h p⟩

end Gate

end BlackPearl.SetupHandler
