import BlackPearl.JobStore.Runs
import BlackPearl.Library.Failure
import BlackPearl.Watchlist.Runs

/-!
# The Watchlist worker

`internal/service/watchlist/worker.go`: `ProcessOne` leases a row of the queue and either submits a
background job for it or reads the job that it is linked to. The worker is cut at its calls. In
between, the other actors on the queue and the callers of the job store take their steps, among them
the job worker that ends the jobs.

A call can fail without an effect, take effect and be reported as failed, or return what the queue
or the store returns. A process can stop between any two calls.
-/

set_option autoImplicit false

namespace BlackPearl.Watchlist

open BlackPearl.Library BlackPearl.Domain BlackPearl.Acquisition

/-! ## What a claim asks for -/

section Requests

variable [TextTables]

/-- `WatchlistItem.SearchRequest`. -/
def itemSearchRequest (item : WatchlistItem) : Checked SearchRequest :=
  if item.mediaType ≠ .movie then .error "unsupported watchlist media"
  else newMovieSearch item.title item.year

/-- `WatchlistClaim.SearchRequest`. -/
def claimSearchRequest (claim : WatchlistClaim) : Checked SearchRequest :=
  match claim.observation.item.mediaType with
  | .movie => itemSearchRequest claim.observation.item
  | .tvShow => newEpisodeSearch claim.observation.item.title claim.observation.item.year
      claim.observation.season claim.observation.episode
  | .unsupported _ => .error "unsupported watchlist media"

end Requests

/-- The episode that a claim asks for, or zeros. -/
def claimFrontier (claim : WatchlistClaim) : EpisodeCoordinate :=
  ⟨claim.observation.season, claim.observation.episode⟩

/-! ## Errors of the worker -/

/-- What `workerBoundaryError` tells apart in the error of a call. -/
inductive CallError
  | notFound
  | canceled
  | deadlineExceeded
  | staleClaim
  | other
  deriving DecidableEq, Repr

/-- A call that failed: its error, and the error of the context that it had. -/
structure CallFailure where
  error : CallError
  context : Option ContextError
  deriving DecidableEq, Repr

inductive WorkerError
  | notFound
  | boundary (message : String)
  deriving DecidableEq, Repr

/-- `workerBoundaryError`. -/
def workerBoundaryError (operation : String) (failure : CallFailure) : WorkerError :=
  match failure.error, failure.context with
  | .notFound, _ => .notFound
  | _, some .canceled | .canceled, none => .boundary (operation ++ ": context canceled")
  | _, some .deadlineExceeded | .deadlineExceeded, none =>
      .boundary (operation ++ ": context deadline exceeded")
  | .staleClaim, none => .boundary (operation ++ ": stale watchlist claim")
  | .other, none =>
      .boundary (operation ++ ": watchlist observation is temporarily unavailable")

/-- What an error of the queue is to the worker. -/
def QueueError.callError : QueueError → CallError
  | .notFound => .notFound
  | .staleClaim => .staleClaim
  | .invalid _ | .constraint => .other

/-- What an error of the job store is to the worker. -/
def storeCallError : JobStore.StoreError → CallError
  | .notFound => .notFound
  | .invalid _ | .staleClaim | .constraint _ => .other

/-! ## The worker -/

/-- The intervals of `WorkerOptions` that decide when a row is looked at again, in nanoseconds, with
the check of `NewWorker`. -/
structure WorkerOptions where
  leaseDuration : ℤ
  operationTimeout : ℤ
  reconcileInterval : ℤ
  notCachedCooldown : ℤ
  retryCooldown : ℤ
  positive : 0 < operationTimeout ∧ 0 < reconcileInterval ∧ 0 < notCachedCooldown ∧ 0 < retryCooldown
  lease : operationTimeout + 5 * 1000000000 < leaseDuration

/-- Where a `ProcessOne` stands: which call it makes next, and with what. -/
inductive WorkerPhase
  | idle
  | finding (claim : WatchlistClaim) (request : SearchRequest)
  | submitting (claim : WatchlistClaim) (request : SearchRequest)
  | attaching (claim : WatchlistClaim) (jobID : String)
  | reading (claim : WatchlistClaim)
  | deferring (claim : WatchlistClaim) (transitionNow : Time)
  | completing (claim : WatchlistClaim) (completion : WatchlistCompletion)
  | finished (result : Except WorkerError WatchlistQueueState)
  deriving DecidableEq

/-- How a call ends. It can be reported as failed although it took effect. -/
inductive CallOutcome
  | answered
  | unreported (failure : CallFailure)
  | failed (failure : CallFailure)
  deriving DecidableEq, Repr

/-- The call that a worker makes next, with its clock and what the call runs into. -/
inductive WorkerLabel
  | claim (now : Time) (outcome : CallOutcome)
  | find (answer : Except CallFailure (Option String))
  | submit (id : String) (now : Time) (outcome : CallOutcome)
  | attach (now : Time) (outcome : CallOutcome)
  | read (failure : Option CallFailure) (transitionNow : Time)
  | defer (outcome : CallOutcome)
  | complete (now : Time) (outcome : CallOutcome)
  | stop
  deriving DecidableEq

section Steps

variable [TextTables] [URLParser]

/-- The queue with its other actors, the job store with its callers, and the Watchlist workers. The
lists remember what has been returned: the claims, and the objects that the index of published media
named. -/
structure WorkerRun where
  service : ServiceState
  jobs : JobStore.StoreRun
  phases : ℕ → WorkerPhase
  claims : List WatchlistClaim
  published : List (SearchRequest × String)

inductive WorkerRunLabel
  | service (a : ServiceLabel)
  | jobs (a : JobStore.StoreLabel)
  | worker (i : ℕ) (a : WorkerLabel)

namespace WorkerRun

/-- The worker `i` goes on to this phase. -/
def goTo (s : WorkerRun) (i : ℕ) (phase : WorkerPhase) : WorkerRun :=
  { s with phases := Function.update s.phases i phase }

/-- The worker `i` returns this error. -/
def fails (s : WorkerRun) (i : ℕ) (error : WorkerError) : WorkerRun := s.goTo i (.finished (.error error))

def setQueue (s : WorkerRun) (queue : Queue) : WorkerRun :=
  { s with service := { s.service with queue := queue } }

def setStore (s : WorkerRun) (store : JobStore.Tables) (now : Time) : WorkerRun :=
  { s with jobs := { s.jobs with store := store, clock := now } }

end WorkerRun

/-- The branch of `ProcessOne` after `Claim`, with the start of `submit`. -/
def startClaim (claim : WatchlistClaim) : WorkerPhase :=
  if claim.backgroundJobID = "" then
    match claimSearchRequest claim with
    | .error _ => .completing claim newWatchlistManualReview
    | .ok request => .finding claim request
  else .reading claim

/-- The call of `Claim`. -/
def processClaim (options : WorkerOptions) (s : WorkerRun) (i : ℕ) (now : Time) :
    CallOutcome → WorkerRun
  | .failed failure => s.fails i (workerBoundaryError "claim watchlist movie" failure)
  | .unreported failure =>
      (s.setQueue (claim s.service.queue now options.leaseDuration).1).fails i
        (workerBoundaryError "claim watchlist movie" failure)
  | .answered =>
      match claim s.service.queue now options.leaseDuration with
      | (queue, .error e) =>
          (s.setQueue queue).fails i (workerBoundaryError "claim watchlist movie" ⟨e.callError, none⟩)
      | (queue, .ok c) =>
          { (s.setQueue queue).goTo i (startClaim c) with claims := c :: s.claims }

/-- The completion for an object that is published, or manual review where it is not a valid one. -/
def publishedCompletion (objectID : String) : WatchlistCompletion :=
  match newWatchlistSucceeded objectID with
  | .ok completion => completion
  | .error _ => newWatchlistManualReview

/-- The call of `FindPublished` in `submit`. -/
def findPublished (s : WorkerRun) (i : ℕ) (claim : WatchlistClaim) (request : SearchRequest) :
    Except CallFailure (Option String) → WorkerRun
  | .error failure => s.fails i (workerBoundaryError "read published media index" failure)
  | .ok none => s.goTo i (.submitting claim request)
  | .ok (some objectID) =>
      { s.goTo i (.completing claim (publishedCompletion objectID)) with
        published := (request, objectID) :: s.published }

/-- A call of the queue that gives back a lease, under `commitDurably`. -/
def commitDurably (s : WorkerRun) (i : ℕ) (claim : WatchlistClaim) (call : LeaseCall) (now : Time)
    (state : WatchlistQueueState) : CallOutcome → WorkerRun
  | .failed failure => s.fails i (workerBoundaryError "commit watchlist transition" failure)
  | .unreported failure =>
      (s.setQueue (release s.service.queue claim call now).1).fails i
        (workerBoundaryError "commit watchlist transition" failure)
  | .answered =>
      match release s.service.queue claim call now with
      | (queue, .error e) => (s.setQueue queue).fails i
          (workerBoundaryError "commit watchlist transition" ⟨e.callError, none⟩)
      | (queue, .ok ()) => (s.setQueue queue).goTo i (.finished (.ok state))

/-- `completeFailedJob`: how a job that failed ends the attempt. -/
def failedCompletion (options : WorkerOptions) (code : JobErrorCode) (now : Time) :
    Checked WatchlistCompletion :=
  match code with
  | .noRelease | .stalled => newWatchlistDeferred .notCached (now + options.notCachedCooldown)
  | .unauthorized | .providerUnavailable =>
      newWatchlistDeferred .retryable (now + options.retryCooldown)
  | .none | .noPlayableMedia | .materialization | .ambiguousMutation | .unsupported _ =>
      .ok newWatchlistManualReview

/-- The switch of `reconcile` on the state of the job. -/
def reconcileJob (options : WorkerOptions) (claim : WatchlistClaim) (job : AcquisitionJob)
    (transitionNow : Time) : WorkerPhase :=
  match job.state with
  | .queued | .selected | .preparing => .deferring claim transitionNow
  | .succeeded => .completing claim (publishedCompletion job.publishedObjectID)
  | .manualReview => .completing claim newWatchlistManualReview
  | .failed =>
      match failedCompletion options job.errorCode transitionNow with
      | .error message => .finished (.error (.boundary message))
      | .ok completion => .completing claim completion

/-- The errors of `submit` and `reconcile` at the job manager. -/
def submitError : CallFailure → WorkerError := workerBoundaryError "submit watchlist background job"

def readError : CallFailure → WorkerError := workerBoundaryError "read watchlist background job"

/-- The call of the job manager in `submit`. -/
def submitJob (s : WorkerRun) (i : ℕ) (claim : WatchlistClaim) (request : SearchRequest)
    (id : String) (now : Time) : CallOutcome → WorkerRun
  | .failed failure => s.fails i (submitError failure)
  | .unreported failure =>
      (s.setStore (JobStore.submit s.jobs.store id request now).1 now).fails i (submitError failure)
  | .answered =>
      match JobStore.submit s.jobs.store id request now with
      | (store, .error e) => (s.setStore store now).fails i (submitError ⟨storeCallError e, none⟩)
      | (store, .ok (job, _)) => (s.setStore store now).goTo i (.attaching claim job.id)

/-- The call of the job manager in `reconcile`. -/
def readJob (options : WorkerOptions) (s : WorkerRun) (i : ℕ) (claim : WatchlistClaim)
    (transitionNow : Time) : Option CallFailure → WorkerRun
  | some failure =>
      if failure.error = .notFound then s.goTo i (.completing claim newWatchlistManualReview)
      else s.fails i (readError failure)
  | none =>
      match JobStore.get s.jobs.store claim.backgroundJobID with
      | .error .notFound => s.goTo i (.completing claim newWatchlistManualReview)
      | .error e => s.fails i (readError ⟨storeCallError e, none⟩)
      | .ok job => s.goTo i (reconcileJob options claim job transitionNow)

/-- One step of the worker `i`. -/
def workerStep (options : WorkerOptions) (s : WorkerRun) (i : ℕ) (a : WorkerLabel) :
    Option WorkerRun :=
  match s.phases i, a with
  | .idle, .claim now outcome | .finished _, .claim now outcome =>
      if now = zeroTime then
        some (s.fails i (.boundary "watchlist observation is temporarily unavailable"))
      else some (processClaim options s i now outcome)
  | .finding claim request, .find answer => some (findPublished s i claim request answer)
  | .submitting claim request, .submit id now outcome =>
      some (submitJob s i claim request id now outcome)
  | .attaching claim jobID, .attach now outcome =>
      some (commitDurably s i claim (.attachJob jobID (now + options.reconcileInterval)) now .acquiring
        outcome)
  | .reading claim, .read failure transitionNow =>
      some (readJob options s i claim transitionNow failure)
  | .deferring claim transitionNow, .defer outcome =>
      some (commitDurably s i claim (.deferJob (transitionNow + options.reconcileInterval))
        transitionNow .acquiring outcome)
  | .completing claim completion, .complete now outcome =>
      some (commitDurably s i claim (.complete completion) now completion.state outcome)
  | _, .stop => some (s.goTo i .idle)
  | _, _ => none

/-- The calls that only the workers make: they lease rows and give the leases back. -/
def ServiceLabel.ofWorker : ServiceLabel → Bool
  | .claim _ _ | .release _ _ _ => true
  | _ => false

/-- One step of an actor on the queue, of a caller of the job store, or of a worker. -/
def workerRunStep (watchlistPollInterval : ℤ) (options : WorkerOptions) (s : WorkerRun) :
    WorkerRunLabel → Option WorkerRun
  | .service a =>
      if a.ofWorker then none
      else (serviceStep watchlistPollInterval s.service a).map fun service => { s with service := service }
  | .jobs a => (JobStore.storeStep s.jobs a).map fun jobs => { s with jobs := jobs }
  | .worker i a => workerStep options s i a

/-- New databases, and workers that have not started. -/
def freshWorkers (initialAcquisitionEnabled : Bool) (clock : Time) : WorkerRun where
  service := freshService initialAcquisitionEnabled
  jobs := JobStore.emptyRun clock
  phases := fun _ => .idle
  claims := []
  published := []

/-- Automatic acquisition: everything that happens to the rows of the Watchlist queue and to the
jobs that they are linked to. -/
def watchlistWorkers (watchlistPollInterval : ℤ) (options : WorkerOptions) :
    System WorkerRun WorkerRunLabel where
  init s := ∃ initialAcquisitionEnabled clock, s = freshWorkers initialAcquisitionEnabled clock
  step := workerRunStep watchlistPollInterval options

end Steps

end BlackPearl.Watchlist
