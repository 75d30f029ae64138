import Mathlib.Data.List.MinMax
import Mathlib.Data.Prod.Lex
import Mathlib.Data.String.Basic
import BlackPearl.Acquisition.Watchlist
import BlackPearl.Domain.Playback
import BlackPearl.Library.Table

/-!
# The Watchlist queue

The operations of `internal/repository/watchlist/repository.go` on an explicit table. Every
operation is one statement or one transaction on the only connection, so it takes effect as a whole
or not at all; it returns the queue afterwards next to its result.
-/

set_option autoImplicit false

namespace BlackPearl.Watchlist

open BlackPearl.Library BlackPearl.Domain BlackPearl.Acquisition

/-! ## Rows -/

/-- The primary key: source and external ID. -/
abbrev RowKey := String × String

/-- A row of `watchlist_queue`. -/
structure WatchlistRow where
  source : String
  externalID : String
  mediaType : WatchlistMediaType
  title : String
  releaseYear : ℤ
  state : WatchlistQueueState
  attemptCount : ℤ
  leaseVersion : ℤ
  leaseUntilUnixMs : ℤ
  nextAttemptUnixMs : ℤ
  publishedObjectID : String
  firstObservedUnixMs : ℤ
  lastObservedUnixMs : ℤ
  updatedUnixMs : ℤ
  backgroundJobID : String
  autoEligible : Bool
  intentSeason : ℤ
  intentEpisode : ℤ
  deriving DecidableEq, Repr

def WatchlistRow.key (row : WatchlistRow) : RowKey := (row.source, row.externalID)

/-- The exact episode that the row asks for, or zeros. -/
def WatchlistRow.frontier (row : WatchlistRow) : EpisodeCoordinate :=
  ⟨row.intentSeason, row.intentEpisode⟩

/-- The `CHECK` constraints of the table. -/
structure WatchlistRow.Checks (row : WatchlistRow) : Prop where
  mediaType : row.mediaType = .movie ∨ row.mediaType = .tvShow
  state : row.state ∈ [.pending, .acquiring, .succeeded, .notCached, .retryable, .manualReview]
  attemptCount : 0 ≤ row.attemptCount
  leaseVersion : 0 ≤ row.leaseVersion
  backgroundJobID : row.backgroundJobID = "" ∨ validJobID row.backgroundJobID = true
  intentSeason : 0 ≤ row.intentSeason ∧ row.intentSeason ≤ 99
  intentEpisode : 0 ≤ row.intentEpisode ∧ row.intentEpisode ≤ 999

theorem WatchlistRow.checks_iff (row : WatchlistRow) :
    row.Checks ↔ (row.mediaType = .movie ∨ row.mediaType = .tvShow) ∧
      row.state ∈ [.pending, .acquiring, .succeeded, .notCached, .retryable, .manualReview] ∧
      0 ≤ row.attemptCount ∧ 0 ≤ row.leaseVersion ∧
      (row.backgroundJobID = "" ∨ validJobID row.backgroundJobID = true) ∧
      (0 ≤ row.intentSeason ∧ row.intentSeason ≤ 99) ∧
      0 ≤ row.intentEpisode ∧ row.intentEpisode ≤ 999 := by
  constructor
  · rintro ⟨h₁, h₂, h₃, h₄, h₅, h₆, h₇⟩
    exact ⟨h₁, h₂, h₃, h₄, h₅, h₆, h₇⟩
  · rintro ⟨h₁, h₂, h₃, h₄, h₅, h₆, h₇⟩
    exact ⟨h₁, h₂, h₃, h₄, h₅, h₆, h₇⟩

instance (row : WatchlistRow) : Decidable row.Checks := decidable_of_iff' _ row.checks_iff

/-- The database: the rows under their keys, and the only row of `watchlist_settings`. -/
structure Queue where
  rows : Table RowKey WatchlistRow
  settings : WatchlistPolicy

/-- A new database, as `Open` leaves it. -/
def Queue.empty (initialAcquisitionEnabled : Bool) : Queue :=
  ⟨∅, ⟨initialAcquisitionEnabled, .off⟩⟩

/-- The errors of the repository; `invalid` has the text of a refused argument or row. -/
inductive QueueError
  | invalid (message : String)
  | staleClaim
  | notFound
  | constraint
  deriving DecidableEq, Repr

namespace Queue

/-- Store a row under its key. -/
def writeRow (queue : Queue) (row : WatchlistRow) : Except QueueError Queue :=
  if row.Checks then .ok { queue with rows := queue.rows.insert row.key row }
  else .error .constraint

/-- `UPDATE watchlist_queue SET assign WHERE source = ? AND external_id = ? AND guard`, with the
number of rows. -/
def updateRow (queue : Queue) (key : RowKey) (guard : WatchlistRow → Bool)
    (assign : WatchlistRow → WatchlistRow) : Except QueueError (Queue × ℕ) :=
  match queue.rows.lookup key with
  | none => .ok (queue, 0)
  | some row =>
      if guard row = false then .ok (queue, 0)
      else
        match queue.writeRow (assign row) with
        | .error e => .error e
        | .ok written => .ok (written, 1)

end Queue

section Operations

variable [TextTables]

/-! ## Policy -/

/-- `Policy`. -/
def policy (queue : Queue) : Checked WatchlistPolicy :=
  within "validate watchlist acquisition policy"
    (newWatchlistPolicy queue.settings.acquisitionEnabled queue.settings.showPolicy)

/-- `SetPolicy`. -/
def setPolicy (queue : Queue) (policy : WatchlistPolicy) : Queue × Except QueueError Unit :=
  match within "validate watchlist acquisition policy"
    (newWatchlistPolicy policy.acquisitionEnabled policy.showPolicy) with
  | .error message => (queue, .error (.invalid message))
  | .ok validated => ({ queue with settings := validated }, .ok ())

/-! ## Observations -/

/-- The key of an observation. -/
def observedKey (o : WatchlistObservation) : RowKey := (o.item.source, o.item.externalID)

/-- The row that an observation inserts, with the defaults of the table. -/
def insertedRow (o : WatchlistObservation) (timestamp : ℤ) : WatchlistRow where
  source := o.item.source
  externalID := o.item.externalID
  mediaType := o.item.mediaType
  title := o.item.title
  releaseYear := o.item.year
  state := .pending
  attemptCount := 0
  leaseVersion := 0
  leaseUntilUnixMs := 0
  nextAttemptUnixMs := 0
  publishedObjectID := ""
  firstObservedUnixMs := timestamp
  lastObservedUnixMs := timestamp
  updatedUnixMs := timestamp
  backgroundJobID := ""
  autoEligible := o.autoEligible
  intentSeason := o.season
  intentEpisode := o.episode

/-- `ON CONFLICT(source, external_id) DO UPDATE`: the columns that an observation overwrites. -/
def observedRow (row : WatchlistRow) (o : WatchlistObservation) (timestamp : ℤ) : WatchlistRow :=
  { row with
    mediaType := o.item.mediaType
    title := o.item.title
    releaseYear := o.item.year
    lastObservedUnixMs := timestamp
    updatedUnixMs := timestamp }

/-- `INSERT ... ON CONFLICT DO UPDATE` for one observation. -/
def upsertObservation (queue : Queue) (timestamp : ℤ) (o : WatchlistObservation) :
    Except QueueError Queue :=
  match queue.rows.lookup (observedKey o) with
  | none => queue.writeRow (insertedRow o timestamp)
  | some row => queue.writeRow (observedRow row o timestamp)

/-- The statements of the transaction in turn. -/
def upsertEach (timestamp : ℤ) : Queue → List WatchlistObservation → Except QueueError Queue
  | queue, [] => .ok queue
  | queue, o :: rest =>
      match upsertObservation queue timestamp o with
      | .error e => .error e
      | .ok written => upsertEach timestamp written rest

/-- `validateObservation`. -/
def validateObservation (o : WatchlistObservation) : Checked WatchlistObservation :=
  within "invalid watchlist observation"
    (newWatchlistObservation o.item o.autoEligible o.season o.episode)

/-- `UpsertObservations`. -/
def upsertObservations (queue : Queue) (observations : List WatchlistObservation)
    (observedAt : Time) : Queue × Except QueueError Unit :=
  if observedAt = zeroTime then
    (queue, .error (.invalid "watchlist observation time is required"))
  else
    match observations.mapM validateObservation with
    | .error message => (queue, .error (.invalid message))
    | .ok validated =>
        match upsertEach (unixMilli observedAt) queue validated with
        | .error e => (queue, .error e)
        | .ok written => (written, .ok ())

/-! ## Claim -/

/-- The media types that the stored policy allows. -/
def allowedMedia (settings : WatchlistPolicy) (mediaType : WatchlistMediaType) : Bool :=
  mediaType = .movie || (mediaType = .tvShow && settings.showPolicy = .pilot)

/-- Whether a row waits for an attempt, or for another attempt after an expired lease. -/
def due (nowMillis : ℤ) (row : WatchlistRow) : Bool :=
  (row.state ∈ [.pending, .notCached, .retryable] && row.nextAttemptUnixMs ≤ nowMillis) ||
    (row.state = .acquiring && row.leaseUntilUnixMs ≤ nowMillis && row.nextAttemptUnixMs ≤ nowMillis)

/-- The conditions of the `eligible` query. -/
def eligible (settings : WatchlistPolicy) (nowMillis : ℤ) (row : WatchlistRow) : Bool :=
  settings.acquisitionEnabled && row.autoEligible && allowedMedia settings row.mediaType &&
    due nowMillis row

attribute [local instance] integerOrder

/-- The order in which eligible rows are claimed. -/
def claimOrder (row : WatchlistRow) : ℤ ×ₗ ℤ ×ₗ ℤ ×ₗ String ×ₗ String :=
  toLex (if row.state = .acquiring then 0 else 1,
    toLex (if row.state = .acquiring then row.leaseUntilUnixMs else row.nextAttemptUnixMs,
      toLex (row.firstObservedUnixMs, toLex (row.source, row.externalID))))

/-- The first eligible row. -/
def Queue.nextEligible (queue : Queue) (nowMillis : ℤ) : Option WatchlistRow :=
  ((queue.rows.entries.map fun e => e.2).filter
    (eligible queue.settings nowMillis)).argmin claimOrder

/-- The row of an item that has just been leased. -/
def leasedRow (row : WatchlistRow) (now : Time) (leaseDuration : ℤ) : WatchlistRow :=
  { row with
    state := .acquiring
    attemptCount := row.attemptCount + 1
    leaseVersion := row.leaseVersion + 1
    leaseUntilUnixMs := unixMilli (now + leaseDuration)
    updatedUnixMs := unixMilli now }

/-- The item that a row stores. -/
def persistedItem (row : WatchlistRow) : WatchlistItem where
  source := row.source
  externalID := row.externalID
  mediaType := row.mediaType
  title := row.title
  year := row.releaseYear

/-- `scanClaim`. -/
def scanClaim (row : WatchlistRow) : Checked WatchlistClaim := do
  let item ← within "validate persisted watchlist item" (newWatchlistItem (persistedItem row))
  let observation ← within "validate persisted watchlist intent"
    (newWatchlistObservation item true row.intentSeason row.intentEpisode)
  if row.backgroundJobID ≠ "" then
    newWatchlistIntentJobClaim observation row.leaseVersion row.attemptCount row.backgroundJobID
  else newWatchlistIntentClaim observation row.leaseVersion row.attemptCount

/-- `UPDATE ... RETURNING`: lease the first eligible row. -/
def leaseNext (queue : Queue) (now : Time) (leaseDuration : ℤ) :
    Except QueueError (Queue × WatchlistRow) :=
  match queue.nextEligible (unixMilli now) with
  | none => .error .notFound
  | some row =>
      match queue.writeRow (leasedRow row now leaseDuration) with
      | .error e => .error e
      | .ok written => .ok (written, leasedRow row now leaseDuration)

/-- The result of `Claim` for the returned row. -/
def readClaim (row : WatchlistRow) : Except QueueError WatchlistClaim :=
  match within "claim watchlist item" (scanClaim row) with
  | .error message => .error (.invalid message)
  | .ok claim => .ok claim

/-- `Claim`. The lease stays when the returned row cannot be read. -/
def claim (queue : Queue) (now : Time) (leaseDuration : ℤ) :
    Queue × Except QueueError WatchlistClaim :=
  if now = zeroTime then (queue, .error (.invalid "watchlist claim time is required"))
  else if leaseDuration ≤ 0 then
    (queue, .error (.invalid "watchlist lease duration must be positive"))
  else
    match leaseNext queue now leaseDuration with
    | .error e => (queue, .error e)
    | .ok (written, row) => (written, readClaim row)

/-! ## Transitions of a claim -/

/-- The conditions on the lease in the `WHERE` of a transition. -/
def leased (leaseVersion : ℤ) (now : Time) (row : WatchlistRow) : Bool :=
  row.state = .acquiring && row.leaseVersion = leaseVersion && unixMilli now < row.leaseUntilUnixMs

/-- The key of a claim. -/
def claimKey (claim : WatchlistClaim) : RowKey := observedKey claim.observation

/-- The `UPDATE` of a transition: refuse it unless it changes the leased row. -/
def updateLeased (queue : Queue) (claim : WatchlistClaim) (now : Time)
    (assign : WatchlistRow → WatchlistRow) : Queue × Except QueueError Unit :=
  match queue.updateRow (claimKey claim) (leased claim.leaseVersion now) assign with
  | .error e => (queue, .error e)
  | .ok (written, rows) => if rows ≠ 1 then (written, .error .staleClaim) else (written, .ok ())

/-- The assignments of `transitionJob`. -/
def assignJob (nextAttempt : Time) (jobID : String) (now : Time) (row : WatchlistRow) :
    WatchlistRow :=
  { row with
    state := .acquiring
    leaseUntilUnixMs := 0
    nextAttemptUnixMs := unixMilli nextAttempt
    backgroundJobID := jobID
    updatedUnixMs := unixMilli now }

/-- `transitionJob`. -/
def transitionJob (queue : Queue) (claim : WatchlistClaim) (nextAttempt : Time) (jobID : String)
    (now : Time) (operation : String) : Queue × Except QueueError Unit :=
  if nextAttempt = zeroTime then
    (queue, .error (.invalid (operation ++ " watchlist job requires a next attempt time")))
  else if now = zeroTime then
    (queue, .error (.invalid (operation ++ " watchlist job requires a transition time")))
  else updateLeased queue claim now (assignJob nextAttempt jobID now)

/-- `validateClaim`. -/
def validateClaim (claim : WatchlistClaim) : Checked WatchlistClaim := do
  let observation ← newWatchlistObservation claim.observation.item claim.observation.autoEligible
    claim.observation.season claim.observation.episode
  newWatchlistIntentClaim observation claim.leaseVersion claim.attempt

/-- `validateClaimWithJob`. -/
def validateClaimWithJob (claim : WatchlistClaim) (jobID : String) : Checked WatchlistClaim := do
  let observation ← newWatchlistObservation claim.observation.item claim.observation.autoEligible
    claim.observation.season claim.observation.episode
  newWatchlistIntentJobClaim observation claim.leaseVersion claim.attempt jobID

/-- `AttachJob`. -/
def attachJob (queue : Queue) (claim : WatchlistClaim) (jobID : String) (nextAttempt now : Time) :
    Queue × Except QueueError Unit :=
  match within "validate watchlist job attachment" (validateClaimWithJob claim jobID) with
  | .error message => (queue, .error (.invalid message))
  | .ok validated => transitionJob queue validated nextAttempt jobID now "attach"

/-- `DeferJob`. -/
def deferJob (queue : Queue) (claim : WatchlistClaim) (nextAttempt now : Time) :
    Queue × Except QueueError Unit :=
  if claim.backgroundJobID = "" then
    (queue, .error (.invalid "deferred watchlist job requires a linked background job"))
  else
    match within "validate deferred watchlist job"
      (validateClaimWithJob claim claim.backgroundJobID) with
    | .error message => (queue, .error (.invalid message))
    | .ok validated =>
        transitionJob queue validated nextAttempt validated.backgroundJobID now "defer"

omit [TextTables] in
/-- `validateCompletion`. -/
def validateCompletion (completion : WatchlistCompletion) : Checked WatchlistCompletion :=
  match completion.state with
  | .succeeded => newWatchlistSucceeded completion.publishedObjectID
  | .notCached => newWatchlistDeferred .notCached completion.nextAttempt
  | .retryable => newWatchlistDeferred .retryable completion.nextAttempt
  | .manualReview => .ok newWatchlistManualReview
  | .pending | .acquiring | .unsupported _ => .error "invalid watchlist completion state"

/-- The assignments of `Complete`. -/
def assignComplete (completion : WatchlistCompletion) (now : Time) (row : WatchlistRow) :
    WatchlistRow :=
  { row with
    state := completion.state
    leaseUntilUnixMs := 0
    nextAttemptUnixMs :=
      if completion.nextAttempt = zeroTime then 0 else unixMilli completion.nextAttempt
    publishedObjectID := completion.publishedObjectID
    backgroundJobID := ""
    updatedUnixMs := unixMilli now }

/-- `Complete`. -/
def complete (queue : Queue) (claim : WatchlistClaim) (completion : WatchlistCompletion)
    (now : Time) : Queue × Except QueueError Unit :=
  match within "invalid watchlist completion claim" (validateClaim claim) with
  | .error message => (queue, .error (.invalid message))
  | .ok validatedClaim =>
      match validateCompletion completion with
      | .error message => (queue, .error (.invalid message))
      | .ok validatedCompletion =>
          if now = zeroTime then
            (queue, .error (.invalid "complete watchlist item requires a transition time"))
          else updateLeased queue validatedClaim now (assignComplete validatedCompletion now)

/-! ## Episode advancement -/

/-- `episodeFrontierIdentity`. -/
structure EpisodeFrontierIdentity where
  source : String
  externalID : String
  publishedObjectID : String
  coordinate : EpisodeCoordinate
  observedAfterUnixMillis : ℤ
  deriving DecidableEq, Repr

/-- `validateEpisodeFrontier`. -/
def validateEpisodeFrontier (source externalID publishedObjectID : String)
    (coordinate : EpisodeCoordinate) (observedAfter : Time) : Checked EpisodeFrontierIdentity := do
  let item ← newWatchlistItem ⟨source, externalID, .tvShow, "Episode frontier", 2026⟩
  let completion ← newWatchlistSucceeded publishedObjectID
  let validatedCoordinate ← newEpisodeCoordinate coordinate.season coordinate.episode
  require (observedAfter ≠ zeroTime) "watchlist observation cutoff is required"
  return {
    source := item.source
    externalID := item.externalID
    publishedObjectID := completion.publishedObjectID
    coordinate := validatedCoordinate
    observedAfterUnixMillis := unixMilli observedAfter }

/-- The `EXISTS` query of `CanAdvanceEpisode`, on one row. -/
def frontierReady (settings : WatchlistPolicy) (identity : EpisodeFrontierIdentity)
    (row : WatchlistRow) : Bool :=
  row.mediaType = .tvShow && row.state = .succeeded && row.autoEligible &&
    row.publishedObjectID = identity.publishedObjectID &&
    row.intentSeason = identity.coordinate.season &&
    row.intentEpisode = identity.coordinate.episode &&
    identity.observedAfterUnixMillis ≤ row.lastObservedUnixMs &&
    settings.acquisitionEnabled && settings.showPolicy = .pilot

/-- `CanAdvanceEpisode`. -/
def canAdvanceEpisode (queue : Queue) (source externalID publishedObjectID : String)
    (current : EpisodeCoordinate) (observedAfter : Time) : Except QueueError Bool :=
  match within "validate watchlist episode advancement"
    (validateEpisodeFrontier source externalID publishedObjectID current observedAfter) with
  | .error message => .error (.invalid message)
  | .ok identity =>
      match queue.rows.lookup (identity.source, identity.externalID) with
      | none => .ok false
      | some row => .ok (frontierReady queue.settings identity row)

/-- The conditions in the `WHERE` of `AdvanceEpisode`, as its statement repeats them. -/
def advanceable (settings : WatchlistPolicy) (identity : EpisodeFrontierIdentity)
    (row : WatchlistRow) : Bool :=
  row.mediaType = .tvShow && row.state = .succeeded && row.autoEligible &&
    row.publishedObjectID = identity.publishedObjectID &&
    row.intentSeason = identity.coordinate.season &&
    row.intentEpisode = identity.coordinate.episode &&
    identity.observedAfterUnixMillis ≤ row.lastObservedUnixMs &&
    settings.acquisitionEnabled && settings.showPolicy = .pilot

/-- The assignments of `AdvanceEpisode`. -/
def assignAdvance (next : EpisodeCoordinate) (now : Time) (row : WatchlistRow) : WatchlistRow :=
  { row with
    state := .pending
    attemptCount := 0
    leaseUntilUnixMs := 0
    nextAttemptUnixMs := 0
    publishedObjectID := ""
    backgroundJobID := ""
    intentSeason := next.season
    intentEpisode := next.episode
    updatedUnixMs := unixMilli now }

/-- The checks that `AdvanceEpisode` makes before its statement. -/
def validateAdvance (source externalID publishedObjectID : String)
    (current next : EpisodeCoordinate) (observedAfter now : Time) :
    Checked (EpisodeFrontierIdentity × EpisodeCoordinate) := do
  let identity ← within "validate watchlist episode advancement"
    (validateEpisodeFrontier source externalID publishedObjectID current observedAfter)
  let validatedNext ← within "validate next watchlist episode"
    (newEpisodeCoordinate next.season next.episode)
  require (validatedNext.After identity.coordinate)
    "next watchlist episode must follow the current episode"
  require (now ≠ zeroTime) "watchlist episode advancement time is required"
  return (identity, validatedNext)

/-- `AdvanceEpisode`. -/
def advanceEpisode (queue : Queue) (source externalID publishedObjectID : String)
    (current next : EpisodeCoordinate) (observedAfter now : Time) :
    Queue × Except QueueError Bool :=
  match validateAdvance source externalID publishedObjectID current next observedAfter now with
  | .error message => (queue, .error (.invalid message))
  | .ok (identity, validatedNext) =>
      match queue.updateRow (identity.source, identity.externalID)
        (advanceable queue.settings identity) (assignAdvance validatedNext now) with
      | .error e => (queue, .error e)
      | .ok (written, rows) => (written, .ok (rows = 1))

end Operations

end BlackPearl.Watchlist
