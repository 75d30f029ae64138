import Mathlib.Data.List.MinMax
import Mathlib.Data.Prod.Lex
import Mathlib.Data.String.Basic
import BlackPearl.JobStore.Tables

/-!
# The operations of the job store

`Submit`, `Claim` and the seven transitions of `internal/repository/acquisitionjob/repository.go`,
over explicit tables. A statement that runs alone takes effect when it succeeds; a transaction works
on a copy and keeps or discards it where the source calls `Commit` or `Rollback`. Every function
returns the tables afterwards next to its result.
-/

set_option autoImplicit false

namespace BlackPearl.JobStore

open BlackPearl.Library BlackPearl.Domain BlackPearl.Acquisition

/-! ## Tables and statements -/

/-- Both tables; the candidates are grouped by their job. -/
structure Tables where
  jobs : Table String JobRow
  candidates : Table String (List CandidateRow)

def Tables.empty : Tables := ⟨∅, ∅⟩

/-- The errors of the repository; `invalid` has the text of a refused argument or row, `constraint`
the table whose constraint a statement violates. -/
inductive StoreError
  | invalid (message : String)
  | staleClaim
  | notFound
  | constraint (table : String)
  deriving DecidableEq, Repr

namespace Tables

/-- The candidate rows of a job. -/
def candidatesOf (store : Tables) (id : String) : List CandidateRow :=
  (store.candidates.lookup id).getD []

/-- Whether another job has the intent of an active row: the partial unique index. -/
def intentTaken (store : Tables) (row : JobRow) : Bool :=
  row.state.active && store.jobs.entries.any fun e =>
    e.1 ≠ row.id && e.2.state.active && e.2.intentKey = row.intentKey

/-- Store a row under its key. -/
def writeJob (store : Tables) (row : JobRow) : Except StoreError Tables :=
  if row.checks = true ∧ store.intentTaken row = false then
    .ok { store with jobs := store.jobs.insert row.id row }
  else .error (.constraint "acquisition_jobs")

/-- `INSERT INTO acquisition_jobs`. -/
def insertJob (store : Tables) (row : JobRow) : Except StoreError Tables :=
  if (store.jobs.lookup row.id).isSome then .error (.constraint "acquisition_jobs")
  else store.writeJob row

/-- `UPDATE acquisition_jobs SET assign WHERE id = ? AND guard`, with the number of rows. -/
def updateJob (store : Tables) (id : String) (guard : JobRow → Bool) (assign : JobRow → JobRow) :
    Except StoreError (Tables × ℕ) :=
  match store.jobs.lookup id with
  | none => .ok (store, 0)
  | some row =>
      if guard row = false then .ok (store, 0)
      else
        match store.writeJob (assign row) with
        | .error e => .error e
        | .ok written => .ok (written, 1)

/-- `INSERT INTO acquisition_job_candidates`. -/
def insertCandidate (store : Tables) (id : String) (row : CandidateRow) :
    Except StoreError Tables :=
  if (store.jobs.lookup id).isSome ∧ row.checks = true ∧
      (∀ r ∈ store.candidatesOf id, r.ordinal ≠ row.ordinal) ∧
      (∀ r ∈ store.candidatesOf id, r.identityKey ≠ row.identityKey) ∧
      (row.outcome = .selected → ∀ r ∈ store.candidatesOf id, r.outcome ≠ .selected) then
    .ok { store with candidates := store.candidates.insert id (store.candidatesOf id ++ [row]) }
  else .error (.constraint "acquisition_job_candidates")

/-- The rows of an `UPDATE` that sets the outcome where `guard` holds. -/
def setOutcome (guard : CandidateRow → Bool) (outcome : CandidateOutcome)
    (rows : List CandidateRow) : List CandidateRow :=
  rows.map fun r => if guard r then { r with outcome := outcome } else r

/-- `UPDATE acquisition_job_candidates SET outcome WHERE job_id = ? AND guard`, with the number of
rows. -/
def updateCandidates (store : Tables) (id : String) (guard : CandidateRow → Bool)
    (outcome : CandidateOutcome) : Except StoreError (Tables × ℕ) :=
  if (store.candidatesOf id).countP guard = 0 then .ok (store, 0)
  else if (∀ r ∈ setOutcome guard outcome (store.candidatesOf id), r.checks = true) ∧
      (setOutcome guard outcome (store.candidatesOf id)).countP
        (fun r => r.outcome = .selected) ≤ 1 then
    .ok ({ store with
        candidates := store.candidates.insert id (setOutcome guard outcome (store.candidatesOf id)) },
      (store.candidatesOf id).countP guard)
  else .error (.constraint "acquisition_job_candidates")

end Tables

/-- A database transaction: the tables when it began, and the tables it has changed so far. -/
structure Transaction where
  before : Tables
  tables : Tables

/-- `BeginTx`. -/
def Tables.begin (store : Tables) : Transaction := ⟨store, store⟩

/-- `Rollback`. -/
def Transaction.rollback (t : Transaction) : Tables := t.before

/-- `Commit`. -/
def Transaction.commit (t : Transaction) : Tables := t.tables

/-! ## Submit and Claim -/

section Operations

variable [TextTables] [URLParser]

/-- The row that `Submit` inserts, with the defaults of the table. -/
def queuedRow (queued : AcquisitionJob) (timestamp : ℤ) : JobRow where
  id := queued.id
  intentKey := jobIntentKey queued.request
  mediaType := queued.request.mediaType
  title := queued.request.title
  releaseYear := queued.request.year
  season := queued.request.season
  episode := queued.request.episode
  state := .queued
  selected := .empty
  selectedInfoHash := ""
  selectedCandidateOrdinal := -1
  createdProvider := ""
  createdObjectID := ""
  createdByJob := false
  publishedObjectID := ""
  errorCode := .none
  attemptCount := 0
  progress := 0
  leaseVersion := 0
  leaseUntilUnixMs := 0
  nextAttemptUnixMs := 0
  createdUnixMs := timestamp
  updatedUnixMs := timestamp

/-- The snapshot that `Submit` validates. -/
def queuedSnapshot (id : String) (request : SearchRequest) (now : Time) : AcquisitionJob where
  id := id
  request := request
  state := .queued
  selection := none
  createdObject := none
  selectedCandidateOrdinal := none
  createdByJob := false
  publishedObjectID := ""
  errorCode := .none
  attempt := 0
  progress := 0
  createdAt := now
  updatedAt := now

/-- `SELECT ... WHERE intent_key = ? AND state IN ('queued', 'selected', 'preparing') LIMIT 1`. -/
def Tables.findActive (store : Tables) (intentKey : String) : Option JobRow :=
  (store.jobs.entries.find? fun e => e.2.intentKey = intentKey && e.2.state.active).map fun e => e.2

/-- `Submit`: the job and whether it is new. -/
def submit (store : Tables) (id : String) (request : SearchRequest) (now : Time) :
    Tables × Except StoreError (AcquisitionJob × Bool) :=
  if now = zeroTime then (store, .error (.invalid "acquisition job submission time is required"))
  else
    match within "validate acquisition job submission"
      (newAcquisitionJobSnapshot (queuedSnapshot id request now)) with
    | .error message => (store, .error (.invalid message))
    | .ok queued =>
        let transaction := store.begin
        match transaction.tables.findActive (jobIntentKey queued.request) with
        | some row =>
            match within "find active acquisition job" (queryJob row) with
            | .error message => (transaction.rollback, .error (.invalid message))
            | .ok existing => (transaction.rollback, .ok (existing, false))
        | none =>
            match transaction.tables.insertJob (queuedRow queued (unixMilli now)) with
            | .error e => (transaction.rollback, .error e)
            | .ok tables => ({ transaction with tables := tables }.commit, .ok (queued, true))

attribute [local instance] integerOrder

/-- The order in which eligible jobs are claimed. -/
def claimOrder (row : JobRow) : ℤ ×ₗ ℤ ×ₗ String :=
  toLex (row.nextAttemptUnixMs, toLex (row.createdUnixMs, row.id))

/-- The conditions of the `eligible` query. -/
def eligible (nowMillis : ℤ) (row : JobRow) : Bool :=
  row.state.active && row.nextAttemptUnixMs ≤ nowMillis && row.leaseUntilUnixMs ≤ nowMillis

/-- The first eligible job. -/
def Tables.nextEligible (store : Tables) (nowMillis : ℤ) : Option JobRow :=
  ((store.jobs.entries.map fun e => e.2).filter (eligible nowMillis)).argmin claimOrder

/-- The row of a job that has just been leased. -/
def leasedRow (row : JobRow) (now : Time) (leaseDuration : ℤ) : JobRow :=
  { row with
    attemptCount := row.attemptCount + 1
    leaseVersion := row.leaseVersion + 1
    leaseUntilUnixMs := unixMilli (now + leaseDuration)
    updatedUnixMs := unixMilli now }

/-- `UPDATE ... RETURNING`: lease the first eligible job. -/
def leaseNext (store : Tables) (now : Time) (leaseDuration : ℤ) : Except StoreError (Tables × JobRow) :=
  if now = zeroTime then .error (.invalid "acquisition job claim time is required")
  else if leaseDuration ≤ 0 then
    .error (.invalid "acquisition job lease duration must be positive")
  else
    match store.nextEligible (unixMilli now) with
    | none => .error .notFound
    | some row =>
        match store.writeJob (leasedRow row now leaseDuration) with
        | .error e => .error e
        | .ok written => .ok (written, leasedRow row now leaseDuration)

/-- The first statement of `Claim`: lease a job and read its snapshot. The lease stays when the row
cannot be read. -/
def claimUpdate (store : Tables) (now : Time) (leaseDuration : ℤ) :
    Tables × Except StoreError AcquisitionJob :=
  match leaseNext store now leaseDuration with
  | .error e => (store, .error e)
  | .ok (written, row) =>
      match within "claim acquisition job" (queryJob row) with
      | .error message => (written, .error (.invalid message))
      | .ok job => (written, .ok job)

/-- The second statement of `Claim`: read the lease version. -/
def claimRead (store : Tables) (job : AcquisitionJob) : Except StoreError AcquisitionJobClaim :=
  match store.jobs.lookup job.id with
  | none => .error (.invalid "read acquisition job lease version: no rows")
  | some row =>
      match within "validate acquisition job claim" (newAcquisitionJobClaim job row.leaseVersion) with
      | .error message => .error (.invalid message)
      | .ok claim => .ok claim

/-- `Claim`. -/
def claim (store : Tables) (now : Time) (leaseDuration : ℤ) :
    Tables × Except StoreError AcquisitionJobClaim :=
  match claimUpdate store now leaseDuration with
  | (written, .error e) => (written, .error e)
  | (written, .ok job) => (written, claimRead written job)

/-! ## Transitions -/

/-- `validateTransitionInput`. -/
def validateTransitionInput (claim : AcquisitionJobClaim) (now : Time) : Checked Unit := do
  require (now ≠ zeroTime) "acquisition job transition time is required"
  require (¬ (claim.job.id = "" ∨ claim.leaseVersion < 1))
    "acquisition job transition requires a validated claim"

/-- The conditions on version, expiry and state in the `WHERE` of a transition. -/
def leased (claim : AcquisitionJobClaim) (now : Time) (states : List JobState) (row : JobRow) : Bool :=
  row.leaseVersion = claim.leaseVersion && unixMilli now < row.leaseUntilUnixMs && row.state ∈ states

/-- The assignments that every transition makes. -/
def released (now : Time) (row : JobRow) : JobRow :=
  { row with leaseUntilUnixMs := 0, updatedUnixMs := unixMilli now }

/-- The `UPDATE` of a transition. -/
def Tables.updateLeased (store : Tables) (claim : AcquisitionJobClaim) (now : Time)
    (states : List JobState) (assign : JobRow → JobRow) : Except StoreError (Tables × ℕ) :=
  store.updateJob claim.job.id (leased claim now states) fun row => released now (assign row)

/-- `transitionWithStates`. -/
def transitionWithStates (store : Tables) (claim : AcquisitionJobClaim) (states : List JobState)
    (now : Time) (assign : JobRow → JobRow) : Tables × Except StoreError Unit :=
  match validateTransitionInput claim now with
  | .error message => (store, .error (.invalid message))
  | .ok () =>
      match store.updateLeased claim now states assign with
      | .error e => (store, .error e)
      | .ok (written, rows) => if rows ≠ 1 then (written, .error .staleClaim) else (written, .ok ())

/-- The states of `transitionAnyActive`. -/
def anyActive : List JobState := [.queued, .selected, .preparing]

/-- `validateSelection`. -/
def validateSelection (selection : JobSelection) : Checked JobSelection :=
  match selection.kind with
  | .torrent => newTorrentJobSelection selection.release
  | .range => newRangeJobSelection selection.rangeCandidate
  | .unset => .error ("unsupported acquisition selection kind: " ++ TextTables.quote "")

/-- The assignments of `Select`. -/
def assignSelect (validated : JobSelection) (row : JobRow) : JobRow :=
  { row with
    state := .selected
    selected := selectionColumns validated
    selectedInfoHash := validated.infoHash
    selectedCandidateOrdinal := -1
    createdByJob := false
    errorCode := .none
    progress := 0
    nextAttemptUnixMs := 0 }

/-- `Select`. -/
def select (store : Tables) (claim : AcquisitionJobClaim) (selection : JobSelection) (now : Time) :
    Tables × Except StoreError Unit :=
  match within "validate acquisition job selection" (validateSelection selection) with
  | .error message => (store, .error (.invalid message))
  | .ok validated => transitionWithStates store claim [.queued] now (assignSelect validated)

/-- The loop of `validateCandidatePlan` from `index` on, with the identities seen so far. -/
def validateCandidatesFrom (index : ℕ) (identities : List (SelectionKind × String × String)) :
    List JobCandidate → Checked (List JobCandidate)
  | [] => .ok []
  | candidate :: rest => do
      let expectedOutcome : CandidateOutcome := if index = 0 then .selected else .pending
      let validated ← (match newJobCandidate candidate.selection index expectedOutcome with
        | .ok validated =>
            if candidate.ordinal ≠ index ∨ candidate.outcome ≠ expectedOutcome then
              .error ("invalid acquisition candidate plan at ordinal " ++ toString index)
            else .ok validated
        | .error _ => .error ("invalid acquisition candidate plan at ordinal " ++ toString index) :
          Checked JobCandidate)
      let identityKey := (candidateRow validated).identityKey
      require (identityKey ∉ identities)
        ("acquisition candidate plan contains duplicate selection at ordinal " ++ toString index)
      let others ← validateCandidatesFrom (index + 1) (identityKey :: identities) rest
      return validated :: others

/-- `validateCandidatePlan`. -/
def validateCandidatePlan (candidates : List JobCandidate) : Checked (List JobCandidate) := do
  require (¬ (candidates.length = 0 ∨ maximumJobCandidates < candidates.length))
    ("acquisition candidate plan must contain between 1 and " ++ toString maximumJobCandidates ++
      " releases")
  validateCandidatesFrom 0 [] candidates

/-- The assignments of `Plan`. -/
def assignPlan (first : JobSelection) (row : JobRow) : JobRow :=
  { row with
    state := .selected
    selected := selectionColumns first
    selectedInfoHash := first.infoHash
    selectedCandidateOrdinal := 0
    createdProvider := ""
    createdObjectID := ""
    createdByJob := false
    errorCode := .none
    progress := 0
    nextAttemptUnixMs := 0 }

/-- The inserts of `Plan`, one after the other. -/
def Tables.insertCandidates (store : Tables) (id : String) :
    List JobCandidate → Except StoreError Tables
  | [] => .ok store
  | candidate :: rest =>
      match store.insertCandidate id (candidateRow candidate) with
      | .error e => .error e
      | .ok written => written.insertCandidates id rest

/-- `Plan`. -/
def plan (store : Tables) (claim : AcquisitionJobClaim) (candidates : List JobCandidate)
    (now : Time) : Tables × Except StoreError Unit :=
  match validateCandidatePlan candidates with
  | .error message => (store, .error (.invalid message))
  | .ok validated =>
      match validateTransitionInput claim now with
      | .error message => (store, .error (.invalid message))
      | .ok () =>
          let transaction := store.begin
          match transaction.tables.insertCandidates claim.job.id validated with
          | .error e => (transaction.rollback, .error e)
          | .ok inserted =>
              let first := (validated.head?.map JobCandidate.selection).getD .zero
              match inserted.updateLeased claim now [.queued] (assignPlan first) with
              | .error e => (transaction.rollback, .error e)
              | .ok (tables, rows) =>
                  if rows ≠ 1 then (transaction.rollback, .error .staleClaim)
                  else ({ transaction with tables := tables }.commit, .ok ())

/-- The assignments of `AttachPrepared`. -/
def assignAttach (created : CreatedObject) (createdByJob : Bool) (row : JobRow) : JobRow :=
  { row with
    state := .preparing
    createdProvider := created.backing.provider
    createdObjectID := created.backing.objectID
    createdByJob := createdByJob
    errorCode := .none
    progress := 0
    nextAttemptUnixMs := 0 }

/-- `AttachPrepared`. -/
def attachPrepared (store : Tables) (claim : AcquisitionJobClaim) (created : CreatedObject)
    (createdByJob : Bool) (now : Time) : Tables × Except StoreError Unit :=
  match within "validate acquisition job created object"
    (newCreatedObject created.backing.provider created.backing.objectID) with
  | .error message => (store, .error (.invalid message))
  | .ok validated =>
      transitionWithStates store claim [.selected] now (assignAttach validated createdByJob)

/-- `Attach`. -/
def attach (store : Tables) (claim : AcquisitionJobClaim) (created : CreatedObject) (now : Time) :
    Tables × Except StoreError Unit :=
  attachPrepared store claim created false now

/-- `validateTerminalCode`. -/
def validateTerminalCode (code : JobErrorCode) (job : AcquisitionJob) (now : Time) :
    Checked AcquisitionJob :=
  within "validate exhausted acquisition job" (newAcquisitionJobSnapshot {
    id := job.id
    request := job.request
    state := .failed
    selection := none
    createdObject := none
    selectedCandidateOrdinal := none
    createdByJob := false
    publishedObjectID := ""
    errorCode := code
    attempt := job.attempt
    progress := 0
    createdAt := job.createdAt
    updatedAt := now })

/-- The checks of `Advance` before its transaction: the ordinal that fails. -/
def validateAdvance (claim : AcquisitionJobClaim) (outcome : CandidateOutcome)
    (terminalCode : JobErrorCode) (now : Time) : Checked ℤ :=
  match claim.job.selectedCandidateOrdinal with
  | none => .error "candidate advancement requires a planned selected or preparing job"
  | some ordinal => do
      require (claim.job.state = .selected ∨ claim.job.state = .preparing)
        "candidate advancement requires a planned selected or preparing job"
      let _ ← within "validate failed acquisition candidate"
        (newJobCandidate claim.job.selectionOrZero ordinal outcome)
      require (outcome.terminal = true) "candidate advancement requires a terminal candidate outcome"
      require (¬ (claim.job.state = .selected ∧ outcome ≠ .missing))
        "unprepared candidate advancement requires a missing outcome"
      let _ ← validateTerminalCode terminalCode claim.job now
      validateTransitionInput claim now
      return ordinal

/-- The assignments of `Advance` when a candidate is left. -/
def assignAdvance (next : JobCandidate) (row : JobRow) : JobRow :=
  { row with
    state := .selected
    selected := selectionColumns next.selection
    selectedInfoHash := next.selection.infoHash
    selectedCandidateOrdinal := next.ordinal
    createdProvider := ""
    createdObjectID := ""
    createdByJob := false
    errorCode := .none
    progress := 0
    nextAttemptUnixMs := 0 }

/-- The assignments of `Advance` when no candidate is left. -/
def assignExhausted (terminalCode : JobErrorCode) (row : JobRow) : JobRow :=
  { row with
    state := .failed
    selected := .empty
    selectedInfoHash := ""
    selectedCandidateOrdinal := -1
    createdProvider := ""
    createdObjectID := ""
    createdByJob := false
    errorCode := terminalCode
    progress := 0
    nextAttemptUnixMs := 0 }

/-- `SELECT ... WHERE outcome = 'pending' ORDER BY ordinal LIMIT 1`. -/
def nextPending (rows : List CandidateRow) : Option CandidateRow :=
  (rows.filter fun r => r.outcome = .pending).argmin CandidateRow.ordinal

/-- `ordinal = ? AND outcome = ?`. -/
def isCandidate (ordinal : ℤ) (outcome : CandidateOutcome) (row : CandidateRow) : Bool :=
  row.ordinal = ordinal && row.outcome = outcome

/-- The part of `Advance` after the outcome has been recorded, within its transaction. -/
def advanceSelection (transaction : Transaction) (claim : AcquisitionJobClaim)
    (terminalCode : JobErrorCode) (now : Time) : Tables × Except StoreError Bool :=
  match nextPending (transaction.tables.candidatesOf claim.job.id) with
  | none =>
      match transaction.tables.updateLeased claim now [claim.job.state] (assignExhausted terminalCode) with
      | .error e => (transaction.rollback, .error e)
      | .ok (tables, rows) =>
          if rows ≠ 1 then (transaction.rollback, .error .staleClaim)
          else ({ transaction with tables := tables }.commit,
            .ok (JobCandidate.zero.selection.identity ≠ ""))
  | some row =>
      match within "read next acquisition candidate" (queryCandidate row) with
      | .error message => (transaction.rollback, .error (.invalid message))
      | .ok next =>
          match transaction.tables.updateCandidates claim.job.id
            (isCandidate next.ordinal .pending) .selected with
          | .error e => (transaction.rollback, .error e)
          | .ok (tables, _) =>
              match tables.updateLeased claim now [claim.job.state] (assignAdvance next) with
              | .error e => (transaction.rollback, .error e)
              | .ok (tables, rows) =>
                  if rows ≠ 1 then (transaction.rollback, .error .staleClaim)
                  else ({ transaction with tables := tables }.commit,
                    .ok (next.selection.identity ≠ ""))

/-- `Advance`: whether another candidate has been selected. -/
def advance (store : Tables) (claim : AcquisitionJobClaim) (outcome : CandidateOutcome)
    (terminalCode : JobErrorCode) (now : Time) : Tables × Except StoreError Bool :=
  match validateAdvance claim outcome terminalCode now with
  | .error message => (store, .error (.invalid message))
  | .ok ordinal =>
      let transaction := store.begin
      match transaction.tables.updateCandidates claim.job.id (isCandidate ordinal .selected) outcome with
      | .error e => (transaction.rollback, .error e)
      | .ok (tables, rows) =>
          if rows ≠ 1 then (transaction.rollback, .error .staleClaim)
          else advanceSelection { transaction with tables := tables } claim terminalCode now

/-- The assignments of `Defer`. -/
def assignDefer (nextAttempt : Time) (code : JobErrorCode) (progress : ℤ) (row : JobRow) : JobRow :=
  { row with
    nextAttemptUnixMs := unixMilli nextAttempt
    errorCode := code
    progress := progress }

/-- `Defer`; `deferred` because `defer` is the name of the source. -/
def deferred (store : Tables) (claim : AcquisitionJobClaim) (nextAttempt : Time)
    (code : JobErrorCode) (progress : ℤ) (now : Time) : Tables × Except StoreError Unit :=
  if nextAttempt = zeroTime ∨ nextAttempt ≤ now then
    (store, .error (.invalid "deferred acquisition job requires a future attempt time"))
  else if progress < 0 ∨ 100 ≤ progress then
    (store, .error (.invalid "deferred acquisition job progress must be between 0 and 99"))
  else if code ≠ .none ∧ code ≠ .providerUnavailable ∧ code ≠ .unauthorized then
    (store, .error (.invalid "deferred acquisition job requires a retryable public error code"))
  else transitionWithStates store claim anyActive now (assignDefer nextAttempt code progress)

/-- The assignments of `Succeed`. -/
def assignSucceed (publishedObjectID : String) (row : JobRow) : JobRow :=
  { row with
    state := .succeeded
    publishedObjectID := publishedObjectID
    errorCode := .none
    progress := 100
    nextAttemptUnixMs := 0 }

/-- `Succeed`. -/
def succeed (store : Tables) (claim : AcquisitionJobClaim) (publishedObjectID : String)
    (now : Time) : Tables × Except StoreError Unit :=
  match within "validate successful acquisition job" (newAcquisitionJobSnapshot { claim.job with
    state := .succeeded
    publishedObjectID := publishedObjectID
    errorCode := .none
    progress := 100
    updatedAt := now }) with
  | .error message => (store, .error (.invalid message))
  | .ok validated =>
      transitionWithStates store claim [.preparing] now (assignSucceed validated.publishedObjectID)

/-- The assignments of `Fail`. -/
def assignFail (state : JobState) (code : JobErrorCode) (row : JobRow) : JobRow :=
  { row with
    state := state
    errorCode := code
    nextAttemptUnixMs := 0 }

/-- The state that `Fail` records. -/
def failureState (manualReview : Bool) : JobState := if manualReview then .manualReview else .failed

/-- `Fail`. -/
def fail (store : Tables) (claim : AcquisitionJobClaim) (code : JobErrorCode) (manualReview : Bool)
    (now : Time) : Tables × Except StoreError Unit :=
  match within "validate failed acquisition job" (newAcquisitionJobSnapshot { claim.job with
    state := failureState manualReview
    publishedObjectID := ""
    errorCode := code
    updatedAt := now }) with
  | .error message => (store, .error (.invalid message))
  | .ok _ => transitionWithStates store claim anyActive now (assignFail (failureState manualReview) code)

/-! ## Reading -/

/-- `Get`. -/
def get (store : Tables) (id : String) : Except StoreError AcquisitionJob :=
  if validJobID id = false then .error (.invalid "invalid acquisition job ID")
  else
    match store.jobs.lookup id with
    | none => .error .notFound
    | some row =>
        match within "get acquisition job" (queryJob row) with
        | .error message => .error (.invalid message)
        | .ok job => .ok job

/-- `Candidates`. -/
def candidates (store : Tables) (id : String) : Except StoreError (List JobCandidate) :=
  if validJobID id = false then .error (.invalid "invalid acquisition job ID")
  else
    match within "scan acquisition job candidate" (((store.candidatesOf id).mergeSort fun r r' =>
      r.ordinal ≤ r'.ordinal).mapM queryCandidate) with
    | .error message => .error (.invalid message)
    | .ok result => .ok result

/-- The most recently updated first, then the larger identifier. -/
def listOrder (row row' : JobRow) : Bool :=
  row'.updatedUnixMs < row.updatedUnixMs ||
    (row'.updatedUnixMs = row.updatedUnixMs && row'.id ≤ row.id)

/-- `List`. -/
def list (store : Tables) (limit : ℤ) : Except StoreError (List AcquisitionJob) :=
  if limit < 1 ∨ 100 < limit then
    .error (.invalid "acquisition job list limit must be between 1 and 100")
  else
    match within "scan acquisition job list" ((((store.jobs.entries.map fun e => e.2).mergeSort
      listOrder).take limit.toNat).mapM queryJob) with
    | .error message => .error (.invalid message)
    | .ok result => .ok result

end Operations

end BlackPearl.JobStore
