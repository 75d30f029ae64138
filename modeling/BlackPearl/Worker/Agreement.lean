import BlackPearl.JobStore.Acceptance
import BlackPearl.Worker.CandidatePlan
import BlackPearl.Worker.Runs

/-!
# Transitions that the store accepts

Whether the transition of a step is one that the store accepts, for jobs that are submitted and for
jobs without a plan that were there before. What a provider answers is built by the constructors of
`internal/acquisition`; the store asks more than these in four places, and it has no failure for a job
without a plan that owns its provider object (`Agreeable`). In a run whose steps all meet these
conditions every transition that is requested under its lease is accepted (`transitions_accepted`).
-/

set_option autoImplicit false

namespace BlackPearl.Worker

open BlackPearl.Library BlackPearl.Domain BlackPearl.Acquisition BlackPearl.JobStore

section Agreement

variable [TextTables] [LetterTables] [URLParser]

/-! ## Answers -/

/-- A provider object that its constructor returns. -/
def BuiltObject (created : CreatedObject) : Prop :=
  newCreatedObject created.backing.provider created.backing.objectID = .ok created

/-- What the providers answer is built by the constructors. -/
structure BuiltAnswers (providers : Providers) : Prop where
  releases : ∀ request, ∀ r ∈ (providers.search request).1, ∃ input, newRelease input = .ok r
  ranges : ∀ find ∈ providers.directResolver, ∀ request, ∀ d ∈ (find request).1, ConstructedRange d
  found : ∀ infoHash created, providers.findTorrentByHash infoHash = .ok created → BuiltObject created
  created : ∀ input allowDownload created,
    providers.createTorrent input allowDownload = .ok created → BuiltObject created
  reconciled : ∀ infoHash created, providers.reconcile infoHash = .ok created → BuiltObject created
  prepared : ∀ preparer ∈ providers.rangePreparer, ∀ candidate created,
    preparer.prepare candidate = .ok created → BuiltObject created

/-- What the provider of a job in preparation reports of its object. -/
def inspected (claim : AcquisitionJobClaim) (providers : Providers) :
    Option (PreparationInspection × Option ProviderError) :=
  let created := claim.job.createdObject.getD ⟨⟨"", ""⟩⟩
  if claim.job.selectionOrZero.kind = .range then
    providers.rangePreparer.map fun preparer => preparer.inspect claim.job.selectionOrZero created
  else some (providers.inspectCreatedTorrent created)

/-- The media that `publish` or `publishRange` makes of the selected candidate. -/
def acquired (claim : AcquisitionJobClaim) (selected : MediaCandidate) : Checked AcquiredMedia :=
  if claim.job.selectionOrZero.kind = .range then newRangeAcquiredMedia claim.job.request selected
  else newAcquiredMedia claim.job.request claim.job.selectionOrZero.release selected

/-- An error that `publish` takes for an object that is not ready yet. -/
def unfinished (claim : AcquisitionJobClaim) (err : ProviderError) : Prop :=
  err.notReady = true ∧ (claim.job.selectionOrZero.kind ≠ .range → err.stalled = false)

/-- An error with which `publish` fails a job that has no other candidate. -/
def fatal (claim : AcquisitionJobClaim) (err : ProviderError) : Prop :=
  if claim.job.selectionOrZero.kind = .range then
    err.notReady = false ∧ (err.notFound = true ∨ err.rangeUnplayable = true)
  else err.stalled = true

/-- A job without a plan that owns its provider object. -/
def ownsUnplanned (job : AcquisitionJob) : Prop :=
  job.selectedCandidateOrdinal = none ∧ job.createdByJob = true

/-- What the store asks of a step beyond its lease. -/
structure StepFits (o : Occasion) (claim : AcquisitionJobClaim) (providers : Providers) : Prop where
  built : BuiltAnswers providers
  /-- The files that can be read in place are of different objects. -/
  distinct : claim.job.state = .queued → ∀ find ∈ providers.directResolver,
    ((find claim.job.request).1.map fun d => (d.media.backing.provider, d.media.objectID)).Nodup
  /-- An object that is not ready is not complete. -/
  incomplete : claim.job.state = .preparing → ∀ inspection err,
    inspected claim providers = some (inspection, some err) → unfinished claim err →
    inspection.progress < 100
  /-- The column of the published object holds what has been published. -/
  published : claim.job.state = .preparing → ∀ inspection,
    inspected claim providers = some (inspection, none) → ∀ selected media,
      selectCandidate o.sorter claim.job.request inspection.candidates = .ok selected →
      acquired claim selected = .ok media → providers.publishAcquired media = none →
      validateOptionalPublishedObjectID media.candidate.objectID = .ok media.candidate.objectID
  /-- A job without a plan that owns its object does not fail. -/
  kept : claim.job.state = .preparing → ownsUnplanned claim.job →
    (∀ inspection err, inspected claim providers = some (inspection, some err) → ¬ fatal claim err) ∧
    ∀ inspection, inspected claim providers = some (inspection, none) →
      ∃ selected media, selectCandidate o.sorter claim.job.request inspection.candidates = .ok selected ∧
        acquired claim selected = .ok media

/-- The clock of a step: not before the Unix epoch, and not before its job. -/
structure ClockFits (o : Occasion) (claim : AcquisitionJobClaim) : Prop where
  epoch : 0 ≤ o.now
  later : claim.job.createdAt ≤ o.now

/-- A step that the store has no reason to refuse. -/
def Agreeable (s : WorkerRun) (a : WorkerLabel) : Prop :=
  ClaimsInTurn s a ∧ ∀ position o reaches, a = .process position o reaches →
    ∀ claim ∈ s.run.claims[position]?, ClockFits o claim ∧
      ∀ providers, o.providers = .ok providers → StepFits o claim providers

/-! ## The branches of a step -/

section Branches

variable {store : Tables} {o : Occasion} {claim : AcquisitionJobClaim} {row : JobRow}
  {providers : Providers} {call : TransitionCall} {advances : ℕ}

/-- The store accepts a transition of the claim. -/
def Accepts (store : Tables) (claim : AcquisitionJobClaim) (now : Time) (call : TransitionCall) : Prop :=
  (runCall store claim call now).2 = .ok ()

/-- What a step finds when its lease has not expired. -/
structure Leased (store : Tables) (o : Occasion) (claim : AcquisitionJobClaim) (row : JobRow)
    (advances : ℕ) : Prop where
  held : Held store claim o.now row
  plan : PlanInvariant row (store.candidatesOf claim.job.id) advances
  active : claim.job.state.active = true
  clock : ClockFits o claim

omit [TextTables] [LetterTables] [URLParser] in
theorem zeroTime_neg : zeroTime < 0 := by decide

omit [LetterTables] in
theorem Leased.read (h : Leased store o claim row advances) : ReadFrom row claim.job :=
  queryJob_readFrom h.held.read

omit [LetterTables] in
theorem Leased.state (h : Leased store o claim row advances) : row.state = claim.job.state :=
  h.read.state.symm

omit [LetterTables] in
/-- A job that has not ended is not complete. -/
theorem progress_lt {job : AcquisitionJob} (hjob : job.Valid) (hactive : job.state.active = true) :
    job.progress < 100 := by
  have hstage := hjob.stage
  cases hstate : job.state with
  | queued | selected | preparing =>
    simp only [hstate, validateJobStage, require_eq_ok] at hstage
    omega
  | succeeded | failed | manualReview =>
    rw [hstate] at hactive
    cases hactive

omit [LetterTables] in
theorem Leased.deferred_accepted (h : Leased store o claim row advances) {code : JobErrorCode}
    {delay progress : ℤ} (hdelay : 0 < delay) (hprogress : 0 ≤ progress ∧ progress < 100)
    (hcode : code = .none ∨ code = .providerUnavailable ∨ code = .unauthorized) :
    Accepts store claim o.now (deferJobWithProgress o code delay progress) := by
  have hlater : o.now < o.now + delay := lt_add_of_pos_right o.now hdelay
  have hnonzero : o.now + delay ≠ zeroTime :=
    (zeroTime_neg.trans_le (h.clock.epoch.trans hlater.le)).ne'
  exact h.held.deferred_accepted (h.state ▸ h.active) hlater hnonzero hprogress hcode

omit [LetterTables] in
theorem Leased.deferProviderFailure_accepted (h : Leased store o claim row advances)
    {cause : ProviderError} (hcall : deferProviderFailure o claim cause = some call) :
    Accepts store claim o.now call := by
  unfold deferProviderFailure at hcall
  split at hcall
  · cases hcall
  · cases hcall
    have hvalid := h.read.valid
    refine h.deferred_accepted o.options.retry_pos
      ⟨hvalid.progress.1, progress_lt hvalid h.active⟩ ?_
    split
    · exact Or.inr (Or.inr rfl)
    · exact Or.inr (Or.inl rfl)

omit [LetterTables] in
theorem Leased.failure_accepted (h : Leased store o claim row advances) {calls : List ProviderCall}
    {cause : ProviderError}
    (hcall : (Processed.mk calls (deferProviderFailure o claim cause)).transition = some call) :
    Accepts store claim o.now call :=
  h.deferProviderFailure_accepted hcall

omit [LetterTables] in
/-- A job without a plan that does not own an object may fail. -/
theorem Leased.fail_accepted (h : Leased store o claim row advances) {code : JobErrorCode}
    (hcode : code ≠ .none) (hsupported : validateJobErrorCode code = .ok ())
    (hordinal : claim.job.selectedCandidateOrdinal = none) (howner : claim.job.createdByJob = false) :
    Accepts store claim o.now (.fail code false) :=
  h.held.fail_accepted (h.state ▸ h.active)
    (failedJob_valid h.read.valid h.held.time h.clock.later hcode hsupported hordinal howner)

omit [LetterTables] in
/-- Every job may be left to a manual review. -/
theorem Leased.review_accepted (h : Leased store o claim row advances) :
    Accepts store claim o.now (.fail .ambiguousMutation true) :=
  h.held.fail_accepted (h.state ▸ h.active)
    (reviewedJob_valid h.read.valid h.held.time h.clock.later)

omit [LetterTables] in
theorem Leased.attach_accepted (h : Leased store o claim row advances) {created : CreatedObject}
    (createdByJob : Bool) (hselected : claim.job.state = .selected) (hbuilt : BuiltObject created) :
    Accepts store claim o.now (.attachPrepared created createdByJob) :=
  h.held.attachPrepared_accepted createdByJob (h.state.trans hselected) hbuilt

/-- The outcome and the codes of a failed candidate. -/
structure AbandonFits (claim : AcquisitionJobClaim) (outcome : CandidateOutcome)
    (terminalCode : JobErrorCode) : Prop where
  state : claim.job.state = .selected ∨ claim.job.state = .preparing
  terminal : outcome.terminal = true
  missing : claim.job.state = .selected → outcome = .missing
  code : terminalCode ≠ .none
  supported : validateJobErrorCode terminalCode = .ok ()

omit [LetterTables] in
theorem Leased.abandon_accepted (h : Leased store o claim row advances) {outcome : CandidateOutcome}
    {terminalCode : JobErrorCode} {alreadyMissing : Bool} {failure : TransitionCall}
    (hfits : AbandonFits claim outcome terminalCode)
    (hfailure : claim.job.selectedCandidateOrdinal = none → Accepts store claim o.now failure)
    (hcall : (abandonOrFail claim providers outcome terminalCode alreadyMissing failure).transition =
      some call) : Accepts store claim o.now call := by
  unfold abandonOrFail at hcall
  split at hcall
  · next hplanned =>
    have hadvance : Accepts store claim o.now (.advance outcome terminalCode) :=
      h.held.advance_accepted h.plan hplanned hfits.state hfits.terminal hfits.missing h.clock.later
        hfits.code hfits.supported
    unfold abandonCandidate at hcall
    dsimp only at hcall
    split at hcall
    · split at hcall
      · cases hcall
        exact h.review_accepted
      · cases hcall
        exact hadvance
    · cases hcall
      exact hadvance
  · next hunplanned =>
    cases hcall
    exact hfailure (Option.not_isSome_iff_eq_none.1 hunplanned)

/-! ## Stages -/

theorem Leased.resolve_accepted (h : Leased store o claim row advances)
    (hqueued : claim.job.state = .queued) (hfits : StepFits o claim providers)
    (hcall : (resolveQueued o claim providers).transition = some call) :
    Accepts store claim o.now call := by
  obtain ⟨-, -, hordinal, howner⟩ := h.read.valid.queued hqueued
  unfold resolveQueued at hcall
  dsimp only at hcall
  split at hcall
  · exact h.failure_accepted hcall
  · next code hresolve =>
    cases hcall
    obtain rfl := resolve_failed hresolve
    exact h.fail_accepted (by decide) rfl hordinal howner
  · next candidates hresolve =>
    cases hcall
    obtain ⟨hne, cached, rfl⟩ := resolve_planned hresolve
    have hrows := (h.plan.stage.of_queued (h.state.trans hqueued)).1
    refine h.held.plan_accepted (h.state.trans hqueued) hrows (planOf_accepted ?_ hne)
    constructor
    · exact hfits.built.releases _
    · intro d hd
      cases hfind : providers.directResolver with
      | none =>
        rw [hfind] at hd
        cases hd
      | some find =>
        rw [hfind] at hd
        exact hfits.built.ranges find hfind _ d hd
    · cases hfind : providers.directResolver with
      | none => exact List.nodup_nil
      | some find => exact hfits.distinct hqueued find hfind

omit [LetterTables] in
/-- `prepare` after nothing has been found. -/
theorem Leased.create_accepted (h : Leased store o claim row advances) {selection : JobSelection}
    (hselected : claim.job.state = .selected) (hbuilt : BuiltAnswers providers)
    (hmissing : AbandonFits claim .missing .materialization)
    (hfail : claim.job.selectedCandidateOrdinal = none →
      Accepts store claim o.now (.fail .materialization false))
    (hcall : (createSelected o claim providers selection).transition = some call) :
    Accepts store claim o.now call := by
  unfold createSelected at hcall
  split at hcall
  · exact h.failure_accepted hcall
  · split at hcall
    · exact h.abandon_accepted hmissing hfail hcall
    · split at hcall
      · exact h.abandon_accepted hmissing hfail hcall
      · split at hcall
        · exact h.failure_accepted hcall
        · next material hmaterial =>
          dsimp only at hcall
          cases hcreated : providers.createTorrent material true with
          | ok created =>
            rw [hcreated] at hcall
            cases hcall
            exact h.attach_accepted true hselected (hbuilt.created _ _ _ hcreated)
          | error createErr =>
            rw [hcreated] at hcall
            unfold attachCreated at hcall
            dsimp only at hcall
            split at hcall
            · exact h.deferProviderFailure_accepted hcall
            · split at hcall
              · next reconciled hreconciled =>
                cases hcall
                exact h.attach_accepted true hselected (hbuilt.reconciled _ _ hreconciled)
              · cases hcall
                exact h.review_accepted

/-- `prepare` fails a job without a plan only before it has an object. -/
theorem Leased.prepare_accepted (h : Leased store o claim row advances)
    (hselected : claim.job.state = .selected) (hfits : StepFits o claim providers)
    (hcall : (prepare o claim providers).transition = some call) : Accepts store claim o.now call := by
  obtain ⟨-, -, howner⟩ := h.read.valid.selected hselected
  have hmissing : ∀ code, code ≠ .none → validateJobErrorCode code = .ok () →
      AbandonFits claim .missing code := fun code hcode hsupported =>
    ⟨Or.inl hselected, rfl, fun _ => rfl, hcode, hsupported⟩
  have hfail : ∀ code, code ≠ .none → validateJobErrorCode code = .ok () →
      claim.job.selectedCandidateOrdinal = none → Accepts store claim o.now (.fail code false) :=
    fun code hcode hsupported hordinal => h.fail_accepted hcode hsupported hordinal howner
  unfold prepare at hcall
  dsimp only at hcall
  split at hcall
  · split at hcall
    · exact h.failure_accepted hcall
    · next preparer hpreparer =>
      unfold prepareRange at hcall
      split at hcall
      · next created hcreated =>
        cases hcall
        exact h.attach_accepted false hselected (hfits.built.prepared preparer hpreparer _ _ hcreated)
      · split at hcall
        · exact h.abandon_accepted (hmissing .noPlayableMedia (by decide) rfl)
            (hfail .noPlayableMedia (by decide) rfl) hcall
        · exact h.failure_accepted hcall
  · unfold prepareTorrent at hcall
    split at hcall
    · next created hcreated =>
      cases hcall
      exact h.attach_accepted false hselected (hfits.built.found _ _ hcreated)
    · split_ifs at hcall
      · cases hcall
        exact h.review_accepted
      · exact h.failure_accepted hcall
      · exact h.failure_accepted hcall
      · exact h.create_accepted hselected hfits.built (hmissing .materialization (by decide) rfl)
          (hfail .materialization (by decide) rfl) hcall
  · next hunset =>
    -- a selected job has a selection
    obtain ⟨hsome, -, -⟩ := h.read.valid.selected hselected
    obtain ⟨selection, hselection⟩ := Option.isSome_iff_exists.1 hsome
    have hsettled := h.read.valid.selection selection hselection
    rw [AcquisitionJob.selectionOrZero, hselection] at hunset
    exact absurd hunset hsettled.kind_ne

omit [LetterTables] [URLParser] in
/-- The column of the published object is not empty. -/
theorem acquired_nonempty {selected : MediaCandidate} {media : AcquiredMedia}
    (h : acquired claim selected = .ok media) : media.candidate.objectID ≠ "" := by
  have hcandidate : ∀ name, validateAcquiredCandidate name selected = .ok media.candidate →
      media.candidate.objectID ≠ "" := by
    intro name hvalid
    simp only [validateAcquiredCandidate, bind_eq_ok, pure_eq_ok, within_eq_ok] at hvalid
    obtain ⟨validated, hvalidated, _, -, heq⟩ := hvalid
    rw [← heq]
    exact (newProviderMediaCandidate_idem hvalidated).2.2.2.2.2.2.1
  unfold acquired at h
  split at h
  · simp only [newRangeAcquiredMedia, bind_eq_ok, pure_eq_ok] at h
    obtain ⟨_, -, candidate, hvalid, rfl⟩ := h
    exact hcandidate _ hvalid
  · simp only [newAcquiredMedia, bind_eq_ok, pure_eq_ok] at h
    obtain ⟨_, -, _, -, candidate, hvalid, rfl⟩ := h
    exact hcandidate _ hvalid

/-- The end of `publish` and of `publishRange`. -/
theorem Leased.publishSelected_accepted (h : Leased store o claim row advances)
    (hpreparing : claim.job.state = .preparing) (hfits : StepFits o claim providers)
    {inspection : PreparationInspection} (hinspected : inspected claim providers = some (inspection, none))
    {acquire : MediaCandidate → Checked AcquiredMedia} (hacquire : acquire = acquired claim)
    (hcall : (publishSelected o claim providers acquire inspection).transition = some call) :
    Accepts store claim o.now call := by
  subst hacquire
  have habandon : AbandonFits claim .unplayable .noPlayableMedia :=
    ⟨Or.inr hpreparing, rfl, fun hselected => (by rw [hpreparing] at hselected; cases hselected),
      by decide, rfl⟩
  have hforeign : (¬ ∃ selected media,
      selectCandidate o.sorter claim.job.request inspection.candidates = .ok selected ∧
        acquired claim selected = .ok media) →
      claim.job.selectedCandidateOrdinal = none →
        Accepts store claim o.now (.fail .noPlayableMedia false) := by
    intro hne hordinal
    refine h.fail_accepted (by decide) rfl hordinal ?_
    rw [← Bool.not_eq_true]
    exact fun howner => hne ((hfits.kept hpreparing ⟨hordinal, howner⟩).2 inspection hinspected)
  unfold publishSelected at hcall
  split at hcall
  · next message hselect =>
    refine h.abandon_accepted habandon (hforeign ?_) hcall
    rintro ⟨selected, media, hselected, -⟩
    rw [hselect] at hselected
    cases hselected
  · next selected hselect =>
    split at hcall
    · next message hmedia =>
      refine h.abandon_accepted habandon (hforeign ?_) hcall
      rintro ⟨selected', media, hselected, hacquired⟩
      rw [hselect] at hselected
      cases hselected
      rw [hmedia] at hacquired
      cases hacquired
    · next media hmedia =>
      split at hcall
      · exact h.failure_accepted hcall
      · next hpublished =>
        cases hcall
        have hobject := hfits.published hpreparing inspection hinspected selected media hselect hmedia hpublished
        exact h.held.succeed_accepted (h.state.trans hpreparing) h.clock.later hobject
          (acquired_nonempty hmedia)

omit [LetterTables] in
/-- `publish` waits for an object whose progress can be stored. -/
theorem Leased.deferNotReady_accepted (h : Leased store o claim row advances)
    {inspection : PreparationInspection} (hprogress : inspection.progress < 100)
    (hcall : (deferNotReady o claim inspection).transition = some call) :
    Accepts store claim o.now call := by
  cases hcall
  have hvalid := h.read.valid
  refine h.deferred_accepted o.options.poll_pos ⟨?_, ?_⟩ (Or.inl rfl)
  · exact hvalid.progress.1.trans (le_max_left _ _)
  · exact max_lt (progress_lt hvalid h.active) hprogress

/-- `publish` fails a job without a plan only if the job does not own its object. -/
theorem Leased.publish_accepted (h : Leased store o claim row advances)
    (hpreparing : claim.job.state = .preparing) (hfits : StepFits o claim providers)
    (hcall : (publish o claim providers).transition = some call) : Accepts store claim o.now call := by
  have habandon : ∀ outcome code, outcome.terminal = true → code ≠ .none →
      validateJobErrorCode code = .ok () → AbandonFits claim outcome code :=
    fun outcome code hterminal hcode hsupported => ⟨Or.inr hpreparing, hterminal,
      fun hselected => (by rw [hpreparing] at hselected; cases hselected), hcode, hsupported⟩
  have hfail : ∀ inspection err code, inspected claim providers = some (inspection, some err) →
      fatal claim err → code ≠ .none → validateJobErrorCode code = .ok () →
      claim.job.selectedCandidateOrdinal = none → Accepts store claim o.now (.fail code false) := by
    intro inspection err code hinspected hfatal hcode hsupported hordinal
    refine h.fail_accepted hcode hsupported hordinal ?_
    rw [← Bool.not_eq_true]
    exact fun howner => (hfits.kept hpreparing ⟨hordinal, howner⟩).1 inspection err hinspected hfatal
  unfold publish at hcall
  split at hcall
  · next hrange =>
    split at hcall
    · exact h.failure_accepted hcall
    · next preparer hpreparer =>
      have hinspected : inspected claim providers = some (preparer.inspect claim.job.selectionOrZero
          (claim.job.createdObject.getD ⟨⟨"", ""⟩⟩)) := by
        simp only [inspected, hrange, if_true, hpreparer, Option.map_some]
      unfold publishRange at hcall
      dsimp only at hcall
      split at hcall
      · next inspection heq =>
        rw [heq] at hinspected
        refine h.publishSelected_accepted hpreparing hfits hinspected ?_ hcall
        funext selected
        rw [acquired, if_pos hrange]
      · next inspection err heq =>
        rw [heq] at hinspected
        split_ifs at hcall with hnotReady hnotFound hunplayable
        · exact h.deferNotReady_accepted (hfits.incomplete hpreparing inspection err hinspected
            ⟨hnotReady, fun hne => absurd hrange hne⟩) hcall
        · refine h.abandon_accepted (habandon .missing .noPlayableMedia rfl (by decide) rfl)
            (hfail inspection err _ hinspected ?_ (by decide) rfl) hcall
          rw [fatal, if_pos hrange]
          exact ⟨Bool.not_eq_true _ ▸ hnotReady, Or.inl hnotFound⟩
        · refine h.abandon_accepted (habandon .unplayable .noPlayableMedia rfl (by decide) rfl)
            (hfail inspection err _ hinspected ?_ (by decide) rfl) hcall
          rw [fatal, if_pos hrange]
          exact ⟨Bool.not_eq_true _ ▸ hnotReady, Or.inr hunplayable⟩
        · exact h.failure_accepted hcall
  · next htorrent =>
    have hinspected : inspected claim providers = some (providers.inspectCreatedTorrent
        (claim.job.createdObject.getD ⟨⟨"", ""⟩⟩)) := by
      simp only [inspected, htorrent, if_false]
    unfold publishTorrent at hcall
    dsimp only at hcall
    split at hcall
    · next inspection heq =>
      rw [heq] at hinspected
      refine h.publishSelected_accepted hpreparing hfits hinspected ?_ hcall
      funext selected
      rw [acquired, if_neg htorrent]
    · next inspection err heq =>
      rw [heq] at hinspected
      split_ifs at hcall with hstalled hnotReady hnotFound hambiguous
      · refine h.abandon_accepted (habandon .stalled .stalled rfl (by decide) rfl)
          (hfail inspection err _ hinspected ?_ (by decide) rfl) hcall
        rw [fatal, if_neg htorrent]
        exact hstalled
      · exact h.deferNotReady_accepted (hfits.incomplete hpreparing inspection err hinspected
          ⟨hnotReady, fun _ => Bool.not_eq_true _ ▸ hstalled⟩) hcall
      · exact h.abandon_accepted (habandon .missing .noPlayableMedia rfl (by decide) rfl)
          (fun _ => h.review_accepted) hcall
      · cases hcall
        exact h.review_accepted
      · exact h.failure_accepted hcall

/-- The transition of a step is accepted. -/
theorem Leased.processOne_accepted (h : Leased store o claim row advances)
    (hfits : ∀ providers, o.providers = .ok providers → StepFits o claim providers)
    (hcall : (processOne o claim).transition = some call) : Accepts store claim o.now call := by
  have hcase := processOne_case o claim
  generalize processOne o claim = result at hcall hcase
  cases hcase with
  | failed cause => exact h.failure_accepted hcall
  | resolved hproviders hstate => exact h.resolve_accepted hstate (hfits _ hproviders) hcall
  | prepared hproviders hstate hrange => exact h.prepare_accepted hstate (hfits _ hproviders) hcall
  | published hproviders hstate hrange => exact h.publish_accepted hstate (hfits _ hproviders) hcall
  | ended hstate => cases hcall

end Branches

/-! ## Runs -/

/-- A store of jobs without plans, as `Submit` and `Select` write them, or an earlier version did. -/
structure UnplannedJobs (store : Tables) : Prop where
  keys : ∀ id row, store.jobs.lookup id = some row → row.id = id
  ordinals : ∀ id row, store.jobs.lookup id = some row → row.selectedCandidateOrdinal = -1
  intents : ∀ id row, store.jobs.lookup id = some row → row.intentKey = jobIntentKey row.request
  unique : ∀ id id' row row', store.jobs.lookup id = some row → store.jobs.lookup id' = some row' →
    row.state.active = true → row'.state.active = true → row.intentKey = row'.intentKey → id = id'
  candidates : ∀ id, store.candidatesOf id = []

/-- A store that nobody has opened yet. -/
def storedRun (store : Tables) (clock : Time) : StoreRun := { emptyRun clock with store := store }

/-- Workers from a store of jobs without plans on. -/
def unplannedSystem : System WorkerRun WorkerLabel where
  init s := ∃ store clock, UnplannedJobs store ∧ s = ⟨storedRun store clock, []⟩
  step := workerStep

variable {s t : WorkerRun}

/-- What a step needs to know of the run. -/
structure AgreementInvariant (s : WorkerRun) : Prop where
  worker : WorkerInvariant s
  plans : PlansInvariant s.run
  intents : IntentInvariant s.run
  claims : ∀ c ∈ s.run.claims, 1 ≤ c.leaseVersion ∧ c.job.state.active = true

omit [LetterTables] in
theorem UnplannedJobs.invariant {store : Tables} (h : UnplannedJobs store) (clock : Time) :
    AgreementInvariant ⟨storedRun store clock, []⟩ where
  worker := by
    refine ⟨?_, by simp [storedRun, emptyRun]⟩
    exact {
      keys := h.keys
      leases := by simp [storedRun, emptyRun]
      released := by simp [storedRun, emptyRun, IsCommitted]
      increasing := .nil
      claims := by simp [storedRun, emptyRun]
      snapshot := by simp [storedRun, emptyRun]
      ordered := .nil
      pending := by simp [storedRun, emptyRun]
      distinct := by simp [storedRun, emptyRun]
      committed := by simp [storedRun, emptyRun]
      once := List.nodup_nil }
  plans := by
    constructor
    · intro id row hrow
      have hrows : (storedRun store clock).store.candidatesOf id = [] := h.candidates id
      rw [hrows]
      exact ⟨.nil, .unplanned rfl (h.ordinals id row hrow) rfl⟩
    · intro id
      simp [StoreRun.Planned, storedRun, emptyRun, h.candidates id]
  intents := ⟨h.intents, h.unique⟩
  claims := by simp [storedRun, emptyRun]

omit [LetterTables] [URLParser] in
/-- Claims are of active jobs, under a version that has been granted. -/
theorem claimRead_eq_ok {store : Tables} {job : AcquisitionJob} {claim : AcquisitionJobClaim}
    (h : claimRead store job = .ok claim) : 1 ≤ claim.leaseVersion ∧ claim.job.state.active = true := by
  unfold claimRead at h
  split at h
  · cases h
  · split at h
    · cases h
    · next result hresult =>
      cases h
      simp only [within_eq_ok, newAcquisitionJobClaim, bind_eq_ok, pure_eq_ok, require_eq_ok] at hresult
      obtain ⟨_, -, _, hversion, _, hactive, rfl⟩ := hresult
      exact ⟨hversion, hactive⟩

omit [LetterTables] in
theorem storeStep_received {r r' : StoreRun} {a : StoreLabel} (hstep : storeStep r a = some r')
    {c : AcquisitionJobClaim} (hc : c ∈ r'.claims) :
    c ∈ r.claims ∨ (1 ≤ c.leaseVersion ∧ c.job.state.active = true) := by
  have hreceived : ∀ {store : Tables} {job : AcquisitionJob}, c ∈ received (claimRead store job) →
      1 ≤ c.leaseVersion ∧ c.job.state.active = true := by
    intro store job hmem
    cases hread : claimRead store job with
    | error e =>
      rw [hread] at hmem
      cases hmem
    | ok claim =>
      rw [hread] at hmem
      rw [List.mem_singleton.1 hmem]
      exact claimRead_eq_ok hread
  cases a with
  | submit id request now =>
    cases hstep
    exact Or.inl hc
  | claim now leaseDuration =>
    cases hstep
    rcases List.mem_append.1 hc with hold | hnew
    · exact Or.inl hold
    · right
      unfold claim at hnew
      split at hnew
      · cases hnew
      · exact hreceived hnew
  | claimUpdate worker now leaseDuration =>
    simp only [storeStep] at hstep
    split_ifs at hstep
    cases hstep
    exact Or.inl hc
  | claimRead worker =>
    simp only [storeStep] at hstep
    split at hstep
    · cases hstep
    · cases hstep
      exact (List.mem_append.1 hc).imp_right fun hnew => hreceived hnew
  | claimLost worker =>
    simp only [storeStep] at hstep
    split at hstep
    · cases hstep
    · cases hstep
      exact Or.inl hc
  | call position call now =>
    simp only [storeStep] at hstep
    split at hstep
    · cases hstep
    · cases hstep
      exact Or.inl hc

theorem WorkerMove.agreement {a : WorkerLabel} (hinv : AgreementInvariant s) (hturn : ClaimsInTurn s a)
    (hmove : WorkerMove s t a) : AgreementInvariant t := by
  have hstore : ∀ b, storeStep s.run b = some t.run → Punctual s.run b →
      PlansInvariant t.run ∧ IntentInvariant t.run ∧
        ∀ c ∈ t.run.claims, 1 ≤ c.leaseVersion ∧ c.job.state.active = true := by
    intro b hstep hpunctual
    have hmoved := storeStep_move hstep
    refine ⟨hmoved.plansInvariant hinv.worker.leases hpunctual hinv.plans,
      hmoved.intentInvariant hinv.worker.leases hinv.intents, fun c hc => ?_⟩
    exact (storeStep_received hstep hc).elim (hinv.claims c) fun hnew => hnew
  have hsplit : PlansInvariant t.run ∧ IntentInvariant t.run ∧
      ∀ c ∈ t.run.claims, 1 ≤ c.leaseVersion ∧ c.job.state.active = true := by
    cases hmove with
    | @store _ b hstep hhistory hnot hcall =>
      refine hstore b hstep ?_
      cases b with
      | call position call now => exact absurd rfl (hcall position call now)
      | _ => trivial
    | silent hclaim hfresh hrun hhistory =>
      rw [hrun]
      exact ⟨hinv.plans, hinv.intents, hinv.claims⟩
    | called hclaim hfresh hcall hstep hhistory =>
      exact hstore _ hstep (hinv.worker.punctual hfresh)
  exact ⟨hmove.invariant hinv.worker hturn, hsplit.1, hsplit.2.1, hsplit.2.2⟩

theorem agreementInvariant_of_reachable (hs : unplannedSystem.ReachableBy ClaimsInTurn s) :
    AgreementInvariant s := by
  apply hs.invariant
  · rintro _ ⟨store, clock, hstore, rfl⟩
    exact hstore.invariant clock
  · intro s a t hinv hturn hstep
    exact (workerStep_move hstep).agreement hinv hturn

/-- The transition of a step that uses its claim under its lease is accepted. -/
def AcceptsStep (s : WorkerRun) (a : WorkerLabel) : Prop :=
  ∀ position o, a = .process position o true → s.used position = false →
    ∀ claim ∈ s.run.claims[position]?, ∀ call ∈ (processOne o claim).transition,
      ∀ row ∈ s.run.store.jobs.lookup claim.job.id, row.leaseVersion = claim.leaseVersion →
        unixMilli o.now < row.leaseUntilUnixMs → Accepts s.run.store claim o.now call

omit [LetterTables] in
/-- A claim whose lease has not expired is held. -/
theorem AgreementInvariant.leased (hinv : AgreementInvariant s) {position : ℕ} {o : Occasion}
    {claim : AcquisitionJobClaim} {row : JobRow} (hclaim : s.run.claims[position]? = some claim)
    (hfresh : s.used position = false) (hrow : s.run.store.jobs.lookup claim.job.id = some row)
    (hversion : row.leaseVersion = claim.leaseVersion)
    (hunexpired : unixMilli o.now < row.leaseUntilUnixMs) (hclock : ClockFits o claim) :
    Leased s.run.store o claim row (s.run.advances claim.job.id) := by
  have hmem := List.mem_of_getElem? hclaim
  have hread := hinv.worker.leases.snapshot claim hmem row hrow hversion
    (hinv.worker.fresh hclaim hfresh)
  obtain ⟨hpositive, hactive⟩ := hinv.claims claim hmem
  have hplan := hinv.plans.plans _ row hrow
  refine ⟨?_, hplan, hactive, hclock⟩
  exact {
    lookup := hrow
    key := hinv.worker.leases.keys _ row hrow
    version := hversion
    positive := hpositive
    unexpired := hunexpired
    time := (zeroTime_neg.trans_le hclock.epoch).ne'
    read := hread
    ordinal := by
      cases hplan.stage with
      | unplanned hrows hordinal hadvances => exact hordinal.ge
      | current hrows hbefore hcurrent hafter hordinal hselected hhash hstate hadvances =>
        rw [hordinal]
        omega
      | exhausted hrows hended hstate hcleared hobject hadvances => exact hcleared.2.2.ge
    alone := by
      intro id row' hrow' hne hactive' hsame
      have hrowActive : row.state.active = true := (queryJob_readFrom hread).state ▸ hactive
      exact hne (hinv.intents.unique _ _ row' row hrow' hrow hactive' hrowActive hsame) }

/-- In a run of agreeable steps, every step that is agreeable is accepted. -/
theorem transitions_accepted (hs : unplannedSystem.ReachableBy Agreeable s) {a : WorkerLabel}
    (ha : Agreeable s a) : AcceptsStep s a := by
  have hinv := agreementInvariant_of_reachable (hs.mono fun s a h => h.1)
  rintro position o rfl hfresh claim hclaim call hcall row hrow hversion hunexpired
  obtain ⟨hclock, hfits⟩ := ha.2 position o true rfl claim hclaim
  exact (hinv.leased hclaim hfresh hrow hversion hunexpired hclock).processOne_accepted hfits hcall

end Agreement

/-! ### Small runs -/

section SmallRuns

attribute [local instance] TextTables.ascii LetterTables.ascii URLParser.refuseAll

/-- A label that uses no claim. -/
def WorkerLabel.usesNone : WorkerLabel → Bool
  | .process _ _ _ => false
  | _ => true

/-- The small account answers as the store asks, as long as it reports an object that is not complete. -/
theorem smallProviders_fit {inspection : PreparationInspection} (hprogress : inspection.progress < 100)
    (claim : AcquisitionJobClaim) (now : Time) :
    StepFits (smallOccasion inspection now) claim (smallProviders inspection) := by
  have hinspected : ∀ answer, inspected claim (smallProviders inspection) = some answer →
      claim.job.selectionOrZero.kind ≠ .range ∧ answer = (inspection, some { notReady := true }) := by
    intro answer hanswer
    unfold inspected at hanswer
    dsimp only at hanswer
    split at hanswer
    · cases hanswer
    · next htorrent =>
      cases hanswer
      exact ⟨htorrent, rfl⟩
  have hobject : BuiltObject ⟨⟨"torbox-torrent", "1"⟩⟩ := by
    unfold BuiltObject
    decide +kernel
  refine {
    built := {
      releases := ?_
      ranges := fun find hfind => (by cases hfind)
      found := fun infoHash created hcreated => ?_
      created := fun input allowDownload created hcreated => (by cases hcreated)
      reconciled := fun infoHash created hcreated => (by cases hcreated)
      prepared := fun preparer hpreparer => (by cases hpreparer) }
    distinct := fun _ find hfind => (by cases hfind)
    incomplete := fun _ report err hreport _ => ?_
    published := fun _ report hreport => ?_
    kept := fun _ _ => ⟨fun report err hreport => ?_, fun report hreport => ?_⟩ }
  · intro request r hr
    have hmem : r ∈ smallReleases := hr
    unfold smallReleases at hmem
    split at hmem
    · next release hrelease => exact ⟨_, List.mem_singleton.1 hmem ▸ hrelease⟩
    · cases hmem
  · cases hcreated
    exact hobject
  · cases (hinspected _ hreport).2
    exact hprogress
  · cases (hinspected _ hreport).2
  · obtain ⟨htorrent, hanswer⟩ := hinspected _ hreport
    cases hanswer
    rw [fatal, if_neg htorrent]
    decide
  · cases (hinspected _ hreport).2

/-- A job is submitted, leased and planned. -/
theorem transitions_accepted_small : ∃ s,
    unplannedSystem.runChecked (fun s a => ClaimsInTurn s a ∧ a.usesNone = true)
      ⟨storedRun .empty 0, []⟩ [.submit smallJob smallRequest (atSecond 0),
        .claimUpdate 0 smallOptions (atSecond 0), .claimRead 0] = some s ∧
    AcceptsStep s (.process 0 (smallOccasion .zero (atSecond 0)) true) := by
  have hvalues : ((unplannedSystem.runChecked (fun s a => ClaimsInTurn s a ∧ a.usesNone = true)
      ⟨storedRun .empty 0, []⟩ [.submit smallJob smallRequest (atSecond 0),
        .claimUpdate 0 smallOptions (atSecond 0), .claimRead 0]).map fun s =>
      s.run.claims.map fun claim => claim.job.createdAt) = some [0] := by
    decide +kernel
  obtain ⟨s, hs, htimes⟩ := Option.map_eq_some_iff.1 hvalues
  have hempty : UnplannedJobs .empty := by
    constructor
    · simp [Tables.empty]
    · simp [Tables.empty]
    · simp [Tables.empty]
    · simp [Tables.empty]
    · simp [Tables.empty, Tables.candidatesOf]
  have hreach : unplannedSystem.ReachableBy Agreeable s := by
    refine System.ReachableBy.reaches (.init ⟨.empty, 0, hempty, rfl⟩)
      ((System.reachesBy_of_runChecked hs).mono fun s a h => ⟨h.1, ?_⟩)
    rintro position o reaches rfl
    cases h.2
  refine ⟨s, hs, transitions_accepted hreach ⟨trivial, ?_⟩⟩
  intro position o reaches hlabel claim hclaim
  cases hlabel
  refine ⟨⟨le_refl 0, ?_⟩, ?_⟩
  · have hmem := List.mem_map_of_mem (f := fun c : AcquisitionJobClaim => c.job.createdAt)
      (List.mem_of_getElem? hclaim)
    rw [htimes] at hmem
    exact (List.mem_singleton.1 hmem).le
  · intro providers hproviders
    cases hproviders
    exact smallProviders_fit (by decide) claim _

/-- A job that `Select` has written. -/
def selectedRow : JobRow :=
  assignSelect (smallSelection "c12fe1c06bba254a9dc9f519b335aa7c1367a88a")
    (queuedRow (queuedSnapshot smallJob smallRequest 0) 0)

/-- A store that `Select` has left. -/
def selectedStore : Tables := ⟨(∅ : Table String JobRow).insert smallJob selectedRow, ∅⟩

theorem selectedStore_unplanned : UnplannedJobs selectedStore := by
  have hrow : ∀ id row, selectedStore.jobs.lookup id = some row → id = smallJob ∧ row = selectedRow := by
    intro id row hlookup
    simp only [selectedStore, Table.lookup_insert] at hlookup
    split at hlookup
    · next heq => exact ⟨heq, (Option.some.inj hlookup).symm⟩
    · simp at hlookup
  constructor
  · intro id row hlookup
    obtain ⟨rfl, rfl⟩ := hrow id row hlookup
    rfl
  · intro id row hlookup
    obtain ⟨-, rfl⟩ := hrow id row hlookup
    rfl
  · intro id row hlookup
    obtain ⟨-, rfl⟩ := hrow id row hlookup
    rfl
  · intro id id' row row' hlookup hlookup' _ _ _
    rw [(hrow id row hlookup).1, (hrow id' row' hlookup').1]
  · intro id
    rfl

/-- An account that creates the torrent, which then has no source. -/
def stalledProviders : Providers :=
  { smallProviders .zero with
    materialize := fun _ => .ok (.magnet "c12fe1c06bba254a9dc9f519b335aa7c1367a88a" "magnet:?")
    findTorrentByHash := fun _ => .error { notFound := true }
    createTorrent := fun _ _ => .ok ⟨⟨"torbox-torrent", "1"⟩⟩
    inspectCreatedTorrent := fun _ => (.zero, some { stalled := true }) }

def stalledOccasion (now : Time) : Occasion :=
  ⟨smallOptions, .stable _, .ok stalledProviders, false, now⟩

/-- The job creates the torrent, and is leased again. -/
def stalledLabels : List WorkerLabel :=
  [.claimUpdate 0 smallOptions (atSecond 0), .claimRead 0, .process 0 (stalledOccasion (atSecond 0)) true,
    .claimUpdate 1 smallOptions (atSecond 1), .claimRead 1]

/-- The job owns the torrent and has no plan: the store refuses its failure. -/
theorem stalled_unplanned_refused : ¬ ∀ s a, unplannedSystem.Reachable s → AcceptsStep s a := by
  intro hclaim
  have hvalues : ((unplannedSystem.run ⟨storedRun selectedStore 0, []⟩ stalledLabels).bind fun s =>
      (s.run.claims[1]?).bind fun claim =>
        (processOne (stalledOccasion (atSecond 1)) claim).transition.bind fun call =>
          (s.run.store.jobs.lookup claim.job.id).map fun row =>
            (s.used 1, decide (row.leaseVersion = claim.leaseVersion),
              decide (unixMilli (atSecond 1) < row.leaseUntilUnixMs),
              (runCall s.run.store claim call (atSecond 1)).2.isOk)) =
      some (false, true, true, false) := by
    decide +kernel
  simp only [Option.bind_eq_some_iff, Option.map_eq_some_iff, Prod.mk.injEq, decide_eq_true_eq] at hvalues
  obtain ⟨s, hs, claim, hclaims, call, hcall, row, hrow, hfresh, hversion, hunexpired, hrefused⟩ := hvalues
  have haccepted : Accepts s.run.store claim (atSecond 1) call :=
    hclaim s (.process 1 (stalledOccasion (atSecond 1)) true)
      (System.reachable_of_run ⟨_, _, selectedStore_unplanned, rfl⟩ hs) 1 _ rfl hfresh claim hclaims call
      hcall row hrow hversion hunexpired
  rw [haccepted] at hrefused
  cases hrefused

end SmallRuns

end BlackPearl.Worker
