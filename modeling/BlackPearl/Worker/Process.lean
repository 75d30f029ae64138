import BlackPearl.Acquisition.Results
import BlackPearl.Acquisition.Selection
import BlackPearl.Worker.Identity

/-!
# One step of a worker

`ProcessOne` of `internal/service/acquisitionjob/worker.go` after the claim: what it asks of the
providers, and the one transition that it then requests from the job store. What the providers answer
is a parameter, and so are the clock and whether the caller's context has ended, which only matters
when a provider reports that its call was cancelled.
-/

set_option autoImplicit false

namespace BlackPearl.Worker

open BlackPearl.Library BlackPearl.Domain BlackPearl.Acquisition BlackPearl.JobStore

section Step

variable [TextTables]

/-! ## Providers -/

/-- What `errors.Is` says about the error of a provider. -/
structure ProviderError where
  cancelled : Bool := false
  unauthorized : Bool := false
  notFound : Bool := false
  ambiguous : Bool := false
  stalled : Bool := false
  notReady : Bool := false
  rangeUnplayable : Bool := false
  deriving DecidableEq, Repr

/-- What a `RangePreparer` answers. -/
structure RangePreparer where
  prepare : RangeCandidate → Except ProviderError CreatedObject
  inspect : JobSelection → CreatedObject → PreparationInspection × Option ProviderError

/-- What one request-local set of providers, and the publisher, answer. `reconcile` is the second
`FindTorrentByHash` of a step. -/
structure Providers where
  complete : Bool
  search : SearchRequest → List Release × Option ProviderError
  materialize : Release → Except ProviderError TorrentInput
  cachedTorrents : List Release → List Release × Option ProviderError
  findTorrentByHash : String → Except ProviderError CreatedObject
  createTorrent : TorrentInput → Bool → Except ProviderError CreatedObject
  reconcile : String → Except ProviderError CreatedObject
  inspectCreatedTorrent : CreatedObject → PreparationInspection × Option ProviderError
  deleteCreatedTorrent : CreatedObject → Option ProviderError
  directResolver : Option (SearchRequest → List RangeCandidate × Option ProviderError)
  rangePreparer : Option RangePreparer
  publishAcquired : AcquiredMedia → Option ProviderError

/-- The calls that change an account of a provider, or what is published. -/
inductive ProviderCall
  | createTorrent (input : TorrentInput) (allowDownload : Bool)
  | deleteCreatedTorrent (created : CreatedObject)
  | publishAcquired (media : AcquiredMedia)
  deriving DecidableEq

/-- `durableTransitionTimeout`, in nanoseconds. -/
def durableTransitionTimeout : ℤ := 5000000000

/-- `WorkerOptions`, as `NewWorker` accepts them. -/
structure WorkerOptions where
  leaseDuration : ℤ
  operationTimeout : ℤ
  preparingPollInterval : ℤ
  retryInterval : ℤ
  operation_pos : 0 < operationTimeout
  poll_pos : 0 < preparingPollInterval
  retry_pos : 0 < retryInterval
  lease_long : operationTimeout + durableTransitionTimeout < leaseDuration

/-- What a step has done: its calls that change something outside, and the transition that it requests.
A step that ends with its context requests none. -/
structure Processed where
  calls : List ProviderCall
  transition : Option TransitionCall
  deriving DecidableEq

/-- What a step is given besides its claim: the parts of the worker, the answers it gets, whether the
caller's context ends before them, and the time of its transition. -/
structure Occasion where
  options : WorkerOptions
  sorter : Sorter MediaCandidate
  providers : Except ProviderError Providers
  ended : Bool
  now : Time

/-! ## The step -/

variable [LetterTables] [URLParser]

/-- A step that makes no call that changes anything before its transition. -/
def request (transition : TransitionCall) : Processed := ⟨[], some transition⟩

/-- `deferJobWithProgress`. -/
def deferJobWithProgress (o : Occasion) (code : JobErrorCode) (delay progress : ℤ) : TransitionCall :=
  .deferred (o.now + delay) code progress

/-- `deferJob`. -/
def deferJob (o : Occasion) (claim : AcquisitionJobClaim) (code : JobErrorCode) (delay : ℤ) :
    TransitionCall :=
  deferJobWithProgress o code delay claim.job.progress

/-- `deferProviderFailure`. -/
def deferProviderFailure (o : Occasion) (claim : AcquisitionJobClaim) (cause : ProviderError) :
    Option TransitionCall :=
  if cause.cancelled = true ∧ o.ended = true then none
  else
    let code := if cause.unauthorized then JobErrorCode.unauthorized else .providerUnavailable
    some (deferJob o claim code o.options.retryInterval)

/-- `abandonCandidate`. -/
def abandonCandidate (claim : AcquisitionJobClaim) (providers : Providers) (outcome : CandidateOutcome)
    (terminalCode : JobErrorCode) (alreadyMissing : Bool) : Processed :=
  let created := claim.job.createdObject.getD ⟨⟨"", ""⟩⟩
  if claim.job.createdByJob = true ∧ alreadyMissing = false then
    match providers.deleteCreatedTorrent created with
    | some _ => ⟨[.deleteCreatedTorrent created], some (.fail .ambiguousMutation true)⟩
    | none => ⟨[.deleteCreatedTorrent created], some (.advance outcome terminalCode)⟩
  else request (.advance outcome terminalCode)

/-- The branch of a failed candidate: a planned job goes on to the next candidate, any other one
fails. -/
def abandonOrFail (claim : AcquisitionJobClaim) (providers : Providers) (outcome : CandidateOutcome)
    (terminalCode : JobErrorCode) (alreadyMissing : Bool) (failure : TransitionCall) : Processed :=
  if claim.job.selectedCandidateOrdinal.isSome then
    abandonCandidate claim providers outcome terminalCode alreadyMissing
  else request failure

/-- `prepare` of a file that can be read in place. -/
def prepareRange (o : Occasion) (claim : AcquisitionJobClaim) (providers : Providers)
    (preparer : RangePreparer) (candidate : RangeCandidate) : Processed :=
  match preparer.prepare candidate with
  | .ok created => request (.attachPrepared created false)
  | .error err =>
      if err.notFound ∨ err.rangeUnplayable then
        abandonOrFail claim providers .missing .noPlayableMedia true (.fail .noPlayableMedia false)
      else ⟨[], deferProviderFailure o claim err⟩

/-- `prepare` after `CreateTorrent`, of which `created` is the result. -/
def attachCreated (o : Occasion) (claim : AcquisitionJobClaim) (providers : Providers) (infoHash : String) :
    Except ProviderError CreatedObject → Option TransitionCall
  | .ok created => some (.attachPrepared created true)
  | .error createErr =>
      if createErr.unauthorized then deferProviderFailure o claim createErr
      else
        match providers.reconcile infoHash with
        | .ok reconciled => some (.attachPrepared reconciled true)
        | .error _ => some (.fail .ambiguousMutation true)

/-- `prepare` after `FindTorrentByHash` has found nothing. -/
def createSelected (o : Occasion) (claim : AcquisitionJobClaim) (providers : Providers)
    (selection : JobSelection) : Processed :=
  match providers.search claim.job.request with
  | (_, some err) => ⟨[], deferProviderFailure o claim err⟩
  | (releases, none) =>
      match ephemeralRelease releases selection with
      | none => abandonOrFail claim providers .missing .materialization true (.fail .materialization false)
      | some ephemeral =>
          if ephemeral.infoHash = "" then
            abandonOrFail claim providers .missing .materialization true (.fail .materialization false)
          else
            match providers.materialize ephemeral with
            | .error err => ⟨[], deferProviderFailure o claim err⟩
            | .ok material => ⟨[.createTorrent material true],
                attachCreated o claim providers selection.infoHash (providers.createTorrent material true)⟩

/-- `prepare` of a torrent. -/
def prepareTorrent (o : Occasion) (claim : AcquisitionJobClaim) (providers : Providers)
    (selection : JobSelection) : Processed :=
  match providers.findTorrentByHash selection.infoHash with
  | .ok created => request (.attachPrepared created false)
  | .error err =>
      if err.ambiguous then request (.fail .ambiguousMutation true)
      else if err.unauthorized then ⟨[], deferProviderFailure o claim err⟩
      else if err.notFound = false then ⟨[], deferProviderFailure o claim err⟩
      else createSelected o claim providers selection

/-- `prepare`. -/
def prepare (o : Occasion) (claim : AcquisitionJobClaim) (providers : Providers) : Processed :=
  let selection := claim.job.selectionOrZero
  match selection.kind with
  | .range =>
      match providers.rangePreparer with
      -- `processOne` does not get here without a range preparer
      | none => ⟨[], deferProviderFailure o claim {}⟩
      | some preparer => prepareRange o claim providers preparer selection.rangeCandidate
  | .torrent => prepareTorrent o claim providers selection
  | .unset => request (.fail .noRelease false)

/-- The end of `publish` and `publishRange`, with the media that `acquire` makes of a candidate. -/
def publishSelected (o : Occasion) (claim : AcquisitionJobClaim) (providers : Providers)
    (acquire : MediaCandidate → Checked AcquiredMedia) (inspection : PreparationInspection) : Processed :=
  match selectCandidate o.sorter claim.job.request inspection.candidates with
  | .error _ =>
      abandonOrFail claim providers .unplayable .noPlayableMedia false (.fail .noPlayableMedia false)
  | .ok selected =>
      match acquire selected with
      | .error _ =>
          abandonOrFail claim providers .unplayable .noPlayableMedia false (.fail .noPlayableMedia false)
      | .ok media =>
          match providers.publishAcquired media with
          | some err => ⟨[.publishAcquired media], deferProviderFailure o claim err⟩
          | none => ⟨[.publishAcquired media], some (.succeed media.candidate.objectID)⟩

/-- The deferral of an object that is not ready: the larger of the saved and the reported progress. -/
def deferNotReady (o : Occasion) (claim : AcquisitionJobClaim) (inspection : PreparationInspection) :
    Processed :=
  request (deferJobWithProgress o .none o.options.preparingPollInterval
    (max claim.job.progress inspection.progress))

/-- `publishRange`. -/
def publishRange (o : Occasion) (claim : AcquisitionJobClaim) (providers : Providers)
    (preparer : RangePreparer) : Processed :=
  let selection := claim.job.selectionOrZero
  let created := claim.job.createdObject.getD ⟨⟨"", ""⟩⟩
  match preparer.inspect selection created with
  | (inspection, none) => publishSelected o claim providers (newRangeAcquiredMedia claim.job.request) inspection
  | (inspection, some err) =>
      if err.notReady then deferNotReady o claim inspection
      else if err.notFound then
        abandonOrFail claim providers .missing .noPlayableMedia true (.fail .noPlayableMedia false)
      else if err.rangeUnplayable then
        abandonOrFail claim providers .unplayable .noPlayableMedia true (.fail .noPlayableMedia false)
      else ⟨[], deferProviderFailure o claim err⟩

/-- `publish` of a torrent. -/
def publishTorrent (o : Occasion) (claim : AcquisitionJobClaim) (providers : Providers) : Processed :=
  let created := claim.job.createdObject.getD ⟨⟨"", ""⟩⟩
  match providers.inspectCreatedTorrent created with
  | (inspection, none) => publishSelected o claim providers
      (newAcquiredMedia claim.job.request claim.job.selectionOrZero.release) inspection
  | (inspection, some err) =>
      if err.stalled then abandonOrFail claim providers .stalled .stalled false (.fail .stalled false)
      else if err.notReady then deferNotReady o claim inspection
      else if err.notFound then
        abandonOrFail claim providers .missing .noPlayableMedia true (.fail .ambiguousMutation true)
      else if err.ambiguous then request (.fail .ambiguousMutation true)
      else ⟨[], deferProviderFailure o claim err⟩

/-- `publish`. -/
def publish (o : Occasion) (claim : AcquisitionJobClaim) (providers : Providers) : Processed :=
  if claim.job.selectionOrZero.kind = .range then
    match providers.rangePreparer with
    | none => ⟨[], deferProviderFailure o claim {}⟩
    | some preparer => publishRange o claim providers preparer
  else publishTorrent o claim providers

/-- The transition that `resolve` requests. -/
def resolveQueued (o : Occasion) (claim : AcquisitionJobClaim) (providers : Providers) : Processed :=
  let request := claim.job.request
  match resolve (providers.search request) (providers.directResolver.map fun find => find request)
    providers.cachedTorrents with
  | .deferred err => ⟨[], deferProviderFailure o claim err⟩
  | .failed code => ⟨[], some (.fail code false)⟩
  | .planned candidates => ⟨[], some (.plan candidates)⟩

/-- `ProcessOne` after its `Claim`. -/
def processOne (o : Occasion) (claim : AcquisitionJobClaim) : Processed :=
  match o.providers with
  | .error err => ⟨[], deferProviderFailure o claim err⟩
  | .ok providers =>
      if providers.complete = false then ⟨[], deferProviderFailure o claim {}⟩
      else if providers.directResolver.isNone ≠ providers.rangePreparer.isNone then
        ⟨[], deferProviderFailure o claim {}⟩
      else if claim.job.state ≠ .queued ∧ claim.job.selectionOrZero.kind = .range ∧
          providers.rangePreparer.isNone then ⟨[], deferProviderFailure o claim {}⟩
      else
        match claim.job.state with
        | .queued => resolveQueued o claim providers
        | .selected => prepare o claim providers
        | .preparing => publish o claim providers
        | .succeeded | .failed | .manualReview => ⟨[], none⟩

/-! ## The branches of the step -/

/-- What a step can be: a deferral before its stage is looked at, or the part of its stage. -/
inductive ProcessCase (o : Occasion) (claim : AcquisitionJobClaim) : Processed → Prop
  | failed (cause : ProviderError) : ProcessCase o claim ⟨[], deferProviderFailure o claim cause⟩
  | resolved {providers : Providers} (hproviders : o.providers = .ok providers)
      (hstate : claim.job.state = .queued) : ProcessCase o claim (resolveQueued o claim providers)
  | prepared {providers : Providers} (hproviders : o.providers = .ok providers)
      (hstate : claim.job.state = .selected)
      (hrange : claim.job.selectionOrZero.kind = .range → providers.rangePreparer.isSome = true) :
      ProcessCase o claim (prepare o claim providers)
  | published {providers : Providers} (hproviders : o.providers = .ok providers)
      (hstate : claim.job.state = .preparing)
      (hrange : claim.job.selectionOrZero.kind = .range → providers.rangePreparer.isSome = true) :
      ProcessCase o claim (publish o claim providers)
  | ended (hstate : claim.job.state.active = false) : ProcessCase o claim ⟨[], none⟩

theorem processOne_case (o : Occasion) (claim : AcquisitionJobClaim) :
    ProcessCase o claim (processOne o claim) := by
  unfold processOne
  split
  · exact .failed _
  · next providers hproviders =>
    split_ifs with hincomplete hmismatch hdisabled
    · exact .failed _
    · exact .failed _
    · exact .failed _
    · have hrange : claim.job.state ≠ .queued → claim.job.selectionOrZero.kind = .range →
          providers.rangePreparer.isSome = true := by
        intro hstate hkind
        rw [Option.isSome_iff_ne_none, ne_eq, ← Option.isNone_iff_eq_none]
        exact fun hnone => hdisabled ⟨hstate, hkind, hnone⟩
      cases hstate : claim.job.state with
      | queued => exact .resolved hproviders hstate
      | selected => exact .prepared hproviders hstate (hrange (by rw [hstate]; decide))
      | preparing => exact .published hproviders hstate (hrange (by rw [hstate]; decide))
      | succeeded | failed | manualReview => exact .ended (by rw [hstate]; rfl)

end Step

end BlackPearl.Worker
