import BlackPearl.Watchlist.Queue
import BlackPearl.Domain.Setup
import BlackPearl.Library.Transition

/-!
# The actors on the Watchlist queue

One system of everything that reads and writes the queue: the calls of Watchlist workers, of the
policy API and of playback pollers, the observer of `internal/service/watchlist/observer.go`, and
the playback worker of `internal/service/playbackadvance/worker.go`. A call takes effect in one
step. `Sync` and `process` are cut where they call the queue or a provider, so that the steps of the
others can fall in between; what a provider answers, and which call fails, is in the label.
-/

set_option autoImplicit false

namespace BlackPearl.Watchlist

open BlackPearl.Library BlackPearl.Domain BlackPearl.Acquisition

/-! ## Boundary errors -/

/-- What a boundary error is recognised as. -/
inductive Cause
  | canceled
  | deadlineExceeded
  | unauthorized
  | other
  deriving DecidableEq, Repr

/-- `publicError` of the observer. -/
def publicError (operation : String) : Cause → String
  | .canceled => operation ++ ": context canceled"
  | .deadlineExceeded => operation ++ ": context deadline exceeded"
  | .unauthorized => operation ++ ": unauthorized"
  | .other => operation ++ ": watchlist observation is temporarily unavailable"

/-- `boundaryError` of the playback worker. -/
def boundaryError (operation : String) : Cause → String
  | .canceled => operation ++ ": context canceled"
  | .deadlineExceeded => operation ++ ": context deadline exceeded"
  | .unauthorized | .other => operation ++ ": playback advancement is temporarily unavailable"

/-! ## The observer -/

/-- `Observer`: the fields that `Sync` changes. -/
structure Observer where
  healthy : Bool
  lastSyncAt : Option Time
  baselineComplete : Bool
  deriving DecidableEq, Repr

/-- `NewObserver`. -/
def newObserver : Observer := ⟨false, none, false⟩

/-- `markUnhealthy`. -/
def Observer.markUnhealthy (o : Observer) : Observer := { o with healthy := false }

/-- Where a `Sync` stands. -/
inductive SyncPhase
  | idle
  | observed (items : List WatchlistItem) (observedAt : Time)
  | decided (policy : WatchlistPolicy) (observations : List WatchlistObservation) (observedAt : Time)
  | finished (result : Checked Unit)
  deriving DecidableEq

section Decisions

variable [TextTables]

/-- The loop body of `Sync`: the observation of one item. -/
def observationOf (baselineComplete : Bool) (policy : WatchlistPolicy) (item : WatchlistItem) :
    Checked WatchlistObservation :=
  let autoEligible := baselineComplete && policy.acquisitionEnabled
  if item.mediaType = .tvShow then
    let autoEligible := autoEligible && policy.showPolicy = .pilot
    if autoEligible then newWatchlistObservation item autoEligible 1 1
    else newWatchlistObservation item autoEligible 0 0
  else newWatchlistObservation item autoEligible 0 0

end Decisions

/-- How the transaction of `UpsertObservations` ends: it can be refused or lost before it commits,
and a commit can report an error although it took effect. -/
inductive WriteOutcome
  | reported
  | unreported (cause : Cause)
  | failed (cause : Cause)
  deriving DecidableEq, Repr

/-! ## The playback worker -/

/-- `watchlistSource`. -/
def watchlistSource : String := "plex-watchlist"

/-- `minimumPlaybackOffset`, in nanoseconds. -/
def minimumPlaybackOffset : ℤ := 120 * 1000000000

def minimumPlaybackPercent : ℤ := 10

def observationFreshnessPoll : ℤ := 2

/-- The variables of `process`: its clock, the playbacks that it has not looked at, and the shows
with the episode they were advanced from. The source keeps only the number of the last. -/
structure ProcessRun where
  now : Time
  playbacks : List EpisodePlayback
  advanced : List (String × EpisodeCoordinate)
  deriving DecidableEq, Repr

/-- Where a `process` stands. -/
inductive ProcessPhase
  | idle
  | finding (run : ProcessRun) (playback : EpisodePlayback)
  | checking (run : ProcessRun) (playback : EpisodePlayback) (backing : BackingRef)
  | resolving (run : ProcessRun) (playback : EpisodePlayback) (backing : BackingRef)
  | advancing (run : ProcessRun) (playback : EpisodePlayback) (backing : BackingRef)
      (next : EpisodeCoordinate)
  | finished (run : ProcessRun) (failure : Option String)
  deriving DecidableEq, Repr

/-- The head of the loop of `process`: the next playback that qualifies. -/
def nextPlayback (now : Time) (advanced : List (String × EpisodeCoordinate)) :
    List EpisodePlayback → ProcessPhase
  | [] => .finished ⟨now, [], advanced⟩ none
  | playback :: rest =>
      if playback.qualifies minimumPlaybackOffset minimumPlaybackPercent then
        .finding ⟨now, rest, advanced⟩ playback
      else nextPlayback now advanced rest

/-- Go on with the remaining playbacks. -/
def ProcessRun.continue (run : ProcessRun) : ProcessPhase :=
  nextPlayback run.now run.advanced run.playbacks

/-- Whether the published configuration is the episode that is being played. -/
def publishes (configuration : SetupConfiguration) (playback : EpisodePlayback) : Bool :=
  configuration.mediaType = .episode && configuration.season = playback.coordinate.season &&
    configuration.episode = playback.coordinate.episode

/-! ## The system -/

/-- The queue, the observer with its `Sync`, and the `process` of the playback worker. -/
structure ServiceState where
  queue : Queue
  observer : Observer
  sync : SyncPhase
  process : ProcessPhase

/-- The arguments of `AdvanceEpisode`. -/
structure AdvanceArguments where
  source : String
  externalID : String
  objectID : String
  current : EpisodeCoordinate
  next : EpisodeCoordinate
  observedAfter : Time
  now : Time
  deriving DecidableEq, Repr

/-- The calls that give back a lease. -/
inductive LeaseCall
  | attachJob (jobID : String) (nextAttempt : Time)
  | deferJob (nextAttempt : Time)
  | complete (completion : WatchlistCompletion)
  deriving DecidableEq, Repr

inductive ServiceLabel
  | upsert (observations : List WatchlistObservation) (observedAt : Time)
  | setPolicy (policy : WatchlistPolicy)
  | claim (now : Time) (leaseDuration : ℤ)
  | release (claim : WatchlistClaim) (call : LeaseCall) (now : Time)
  | advance (arguments : AdvanceArguments)
  | syncSnapshot (answer : Except Cause (List WatchlistItem)) (observedAt : Time)
  | syncPolicy (failure : Option Cause)
  | syncWrite (outcome : WriteOutcome)
  | processSnapshot (now : Time) (answer : Except Cause (List EpisodePlayback))
  | processFind (answer : Except Cause (Option SetupConfiguration))
  | processCheck (failure : Option Cause)
  | processResolve (answer : Except Cause (Option EpisodeCoordinate))
  | processAdvance (failure : Option Cause)
  | restart
  deriving DecidableEq

section System

variable [TextTables]

/-- `AttachJob`, `DeferJob` or `Complete`. -/
def release (queue : Queue) (claim : WatchlistClaim) (call : LeaseCall) (now : Time) :
    Queue × Except QueueError Unit :=
  match call with
  | .attachJob jobID nextAttempt => attachJob queue claim jobID nextAttempt now
  | .deferJob nextAttempt => deferJob queue claim nextAttempt now
  | .complete completion => complete queue claim completion now

/-- `AdvanceEpisode`. -/
def advance (queue : Queue) (a : AdvanceArguments) : Queue × Except QueueError Bool :=
  advanceEpisode queue a.source a.externalID a.objectID a.current a.next a.observedAfter a.now

/-- `CanAdvanceEpisode` with the same source, ID, object, coordinate and cutoff. -/
def canAdvance (queue : Queue) (a : AdvanceArguments) : Except QueueError Bool :=
  canAdvanceEpisode queue a.source a.externalID a.objectID a.current a.observedAfter

/-- The end of a `Sync` that fails. -/
def ServiceState.failSync (s : ServiceState) (message : String) : ServiceState :=
  { s with observer := s.observer.markUnhealthy, sync := .finished (.error message) }

/-- The part of `Sync` up to the policy. -/
def syncSnapshot (s : ServiceState) (answer : Except Cause (List WatchlistItem))
    (observedAt : Time) : Option ServiceState :=
  match s.sync with
  | .idle | .finished _ =>
      match answer with
      | .error cause => some (s.failSync (publicError "read Plex watchlist" cause))
      | .ok items =>
          if observedAt = zeroTime then some (s.failSync (publicError "record Plex watchlist" .other))
          else some { s with sync := .observed items observedAt }
  | _ => none

/-- The part of `Sync` that reads the policy and decides on eligibility. -/
def syncPolicy (s : ServiceState) (failure : Option Cause) : Option ServiceState :=
  match s.sync with
  | .observed items observedAt =>
      match failure with
      | some cause => some (s.failSync (publicError "read watchlist acquisition policy" cause))
      | none =>
          match policy s.queue with
          | .error _ => some (s.failSync (publicError "read watchlist acquisition policy" .other))
          | .ok policy =>
              match items.mapM (observationOf s.observer.baselineComplete policy) with
              | .error _ =>
                  some (s.failSync (publicError "validate Plex watchlist observation" .other))
              | .ok observations =>
                  some { s with sync := .decided policy observations observedAt }
  | _ => none

/-- The part of `Sync` that stores the observations. -/
def syncWrite (s : ServiceState) (outcome : WriteOutcome) : Option ServiceState :=
  match s.sync with
  | .decided _ observations observedAt =>
      match outcome with
      | .failed cause => some (s.failSync (publicError "record Plex watchlist" cause))
      | .unreported cause => some ({ s with
          queue := (upsertObservations s.queue observations observedAt).1 }.failSync
            (publicError "record Plex watchlist" cause))
      | .reported =>
          match upsertObservations s.queue observations observedAt with
          | (_, .error _) => some (s.failSync (publicError "record Plex watchlist" .other))
          | (written, .ok ()) => some { s with
              queue := written
              observer := ⟨true, some observedAt, true⟩
              sync := .finished (.ok ()) }
  | _ => none

/-- The cutoff of `process`. -/
def observedAfter (watchlistPollInterval : ℤ) (run : ProcessRun) : Time :=
  run.now - observationFreshnessPoll * watchlistPollInterval

/-- The arguments with which `process` advances the show of a playback. -/
def advanceArguments (watchlistPollInterval : ℤ) (run : ProcessRun) (playback : EpisodePlayback)
    (backing : BackingRef) (next : EpisodeCoordinate) : AdvanceArguments where
  source := watchlistSource
  externalID := playback.externalShowID
  objectID := backing.objectID
  current := playback.coordinate
  next := next
  observedAfter := observedAfter watchlistPollInterval run
  now := run.now

/-- The start of `process`. -/
def processSnapshot (s : ServiceState) (now : Time) (answer : Except Cause (List EpisodePlayback)) :
    Option ServiceState :=
  match s.process with
  | .idle | .finished _ _ =>
      if now = zeroTime then some { s with
        process := .finished ⟨now, [], []⟩ (boundaryError "read playback advancement clock" .other) }
      else
        match answer with
        | .error cause => some { s with
            process := .finished ⟨now, [], []⟩ (boundaryError "read Plex playback" cause) }
        | .ok playbacks => some { s with process := nextPlayback now [] playbacks }
  | _ => none

/-- The part of `process` that resolves the published episode. -/
def processFind (s : ServiceState) (answer : Except Cause (Option SetupConfiguration)) :
    Option ServiceState :=
  match s.process with
  | .finding run playback =>
      match answer with
      | .error cause => some { s with
          process := .finished run (boundaryError "resolve published playback episode" cause) }
      | .ok none => some { s with process := run.continue }
      | .ok (some configuration) =>
          if publishes configuration playback then
            some { s with process := .checking run playback configuration.backing }
          else some { s with process := run.continue }
  | _ => none

/-- The part of `process` that asks whether the frontier can be advanced. -/
def processCheck (watchlistPollInterval : ℤ) (s : ServiceState) (failure : Option Cause) :
    Option ServiceState :=
  match s.process with
  | .checking run playback backing =>
      match failure with
      | some cause => some { s with
          process := .finished run (boundaryError "check episode frontier" cause) }
      | none =>
          match canAdvanceEpisode s.queue watchlistSource playback.externalShowID backing.objectID
            playback.coordinate (observedAfter watchlistPollInterval run) with
          | .error _ => some { s with
              process := .finished run (boundaryError "check episode frontier" .other) }
          | .ok false => some { s with process := run.continue }
          | .ok true => some { s with process := .resolving run playback backing }
  | _ => none

/-- The part of `process` that resolves the next episode; `none` is `ErrNotFound`. -/
def processResolve (s : ServiceState) (answer : Except Cause (Option EpisodeCoordinate)) :
    Option ServiceState :=
  match s.process with
  | .resolving run playback backing =>
      match answer with
      | .error cause => some { s with
          process := .finished run (boundaryError "resolve next Plex episode" cause) }
      | .ok none => some { s with process := run.continue }
      | .ok (some next) => some { s with process := .advancing run playback backing next }
  | _ => none

/-- The part of `process` that advances the frontier. -/
def processAdvance (watchlistPollInterval : ℤ) (s : ServiceState) (failure : Option Cause) :
    Option ServiceState :=
  match s.process with
  | .advancing run playback backing next =>
      match failure with
      | some cause => some { s with
          process := .finished run (boundaryError "advance episode frontier" cause) }
      | none =>
          match advance s.queue (advanceArguments watchlistPollInterval run playback backing next) with
          | (_, .error _) => some { s with
              process := .finished run (boundaryError "advance episode frontier" .other) }
          | (written, .ok false) => some { s with queue := written, process := run.continue }
          | (written, .ok true) => some { s with
              queue := written
              process := { run with
                advanced := (playback.externalShowID, playback.coordinate) :: run.advanced }.continue }
  | _ => none

/-- One step of one actor. -/
def serviceStep (watchlistPollInterval : ℤ) (s : ServiceState) : ServiceLabel → Option ServiceState
  | .upsert observations observedAt =>
      some { s with queue := (upsertObservations s.queue observations observedAt).1 }
  | .setPolicy policy => some { s with queue := (setPolicy s.queue policy).1 }
  | .claim now leaseDuration => some { s with queue := (claim s.queue now leaseDuration).1 }
  | .release claim call now => some { s with queue := (release s.queue claim call now).1 }
  | .advance arguments => some { s with queue := (advance s.queue arguments).1 }
  | .syncSnapshot answer observedAt => syncSnapshot s answer observedAt
  | .syncPolicy failure => syncPolicy s failure
  | .syncWrite outcome => syncWrite s outcome
  | .processSnapshot now answer => processSnapshot s now answer
  | .processFind answer => processFind s answer
  | .processCheck failure => processCheck watchlistPollInterval s failure
  | .processResolve answer => processResolve s answer
  | .processAdvance failure => processAdvance watchlistPollInterval s failure
  | .restart => some ⟨s.queue, newObserver, .idle, .idle⟩

/-- A new process on a new database. -/
def freshService (initialAcquisitionEnabled : Bool) : ServiceState :=
  ⟨.empty initialAcquisitionEnabled, newObserver, .idle, .idle⟩

/-- The Watchlist services of a process, its restarts included. -/
def watchlistService (watchlistPollInterval : ℤ) : System ServiceState ServiceLabel where
  init s := ∃ initialAcquisitionEnabled, s = freshService initialAcquisitionEnabled
  step := serviceStep watchlistPollInterval

end System

end BlackPearl.Watchlist
