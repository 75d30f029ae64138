import BlackPearl.JobStore.LeaseSafety
import BlackPearl.JobStore.CandidatePlan

/-!
# When a transition is accepted

The converse of `runCall_ok`: a call is accepted when its claim is the row as it is, under an unexpired
lease (`Held`), and what the call records passes its own check. The constraints of the tables never
refuse such a call.
-/

set_option autoImplicit false

namespace BlackPearl.JobStore

open BlackPearl.Library BlackPearl.Domain BlackPearl.Acquisition

section Acceptance

variable [TextTables] [URLParser]

/-! ## Rows -/

/-- What the constraints of a row that can be read say. -/
theorem queryJob_checks {row : JobRow} {job : AcquisitionJob} (h : queryJob row = .ok job) :
    row.mediaType ≠ .unset ∧ 0 ≤ row.attemptCount ∧ 0 ≤ row.progress ∧ row.progress ≤ 100 ∧
      row.selectedCandidateOrdinal ≤ 4 := by
  have hread := queryJob_readFrom h
  have hprogress := hread.valid.progress
  have hordinal := hread.valid.ordinal
  simp only [queryJob, bind_eq_ok, within_eq_ok] at h
  obtain ⟨request, hrequest, selection, -, created, -, hsnapshot⟩ := h
  refine ⟨?_, ?_, hread.progress ▸ hprogress.1, hread.progress ▸ hprogress.2, ?_⟩
  · intro hunset
    rw [hunset] at hrequest
    cases hrequest
  · simp only [newAcquisitionJobSnapshot, bind_eq_ok, require_eq_ok] at hsnapshot
    obtain ⟨_, -, _, -, _, hattempt, -⟩ := hsnapshot
    exact hattempt
  · by_cases hnonneg : 0 ≤ row.selectedCandidateOrdinal
    · rw [hread.ordinal, if_pos hnonneg] at hordinal
      simp only [validateSelectedCandidateOrdinal, bind_eq_ok, require_eq_ok] at hordinal
      obtain ⟨_, ⟨-, hless⟩, -⟩ := hordinal
      simp only [maximumJobCandidates] at hless
      omega
    · omega

/-- A claim that is the row of its job under the unexpired latest lease. -/
structure Held (store : Tables) (claim : AcquisitionJobClaim) (now : Time) (row : JobRow) : Prop where
  lookup : store.jobs.lookup claim.job.id = some row
  key : row.id = claim.job.id
  version : row.leaseVersion = claim.leaseVersion
  positive : 1 ≤ claim.leaseVersion
  unexpired : unixMilli now < row.leaseUntilUnixMs
  time : now ≠ zeroTime
  read : queryJob row = .ok claim.job
  ordinal : -1 ≤ row.selectedCandidateOrdinal
  /-- No other active job has its intent. -/
  alone : ∀ id row', store.jobs.lookup id = some row' → id ≠ claim.job.id →
    row'.state.active = true → row'.intentKey ≠ row.intentKey

variable {store : Tables} {claim : AcquisitionJobClaim} {now : Time} {row : JobRow}

theorem Held.input (h : Held store claim now row) : validateTransitionInput claim now = .ok () := by
  have hid := (queryJob_readFrom h.read).valid.id
  simp only [validateTransitionInput, bind_eq_ok, require_eq_ok]
  refine ⟨(), h.time, ?_⟩
  rintro (hempty | hversion)
  · rw [hempty] at hid
    simp [validJobID] at hid
  · exact absurd h.positive (not_le.2 hversion)

/-- A row that a transition may write in place of another one. -/
structure Replaces (row row' : JobRow) : Prop where
  id : row'.id = row.id
  intentKey : row'.intentKey = row.intentKey
  mediaType : row'.mediaType = row.mediaType
  attempt : row'.attemptCount = row.attemptCount
  version : row'.leaseVersion = row.leaseVersion
  progress : 0 ≤ row'.progress ∧ row'.progress ≤ 100
  ordinal : -1 ≤ row'.selectedCandidateOrdinal ∧ row'.selectedCandidateOrdinal ≤ 4

/-- The constraints of the table let the row be written, also after the candidates have changed. -/
theorem Held.writeJob {store' : Tables} {row' : JobRow} (h : Held store claim now row)
    (hjobs : store'.jobs = store.jobs) (hrow : Replaces row row') :
    ∃ written, store'.writeJob row' = .ok written := by
  obtain ⟨hmedia, hattempt, -, -, -⟩ := queryJob_checks h.read
  have hversion := h.positive
  have hchecks : row'.checks = true := by
    simp only [JobRow.checks, hrow.mediaType, hrow.attempt, hrow.version, h.version, Bool.and_eq_true,
      decide_eq_true_eq, and_assoc]
    exact ⟨hmedia, hattempt, hrow.progress.1, hrow.progress.2, by omega, hrow.ordinal.1,
      hrow.ordinal.2⟩
  have hfree : store'.intentTaken row' = false := by
    rw [Tables.intentTaken, Bool.and_eq_false_iff]
    refine Or.inr (List.any_eq_false.2 fun e he => ?_)
    rw [hjobs] at he
    have hlookup : store.jobs.lookup e.1 = some e.2 := (Table.lookup_eq_some_iff_mem _ _ _).2 he
    simp only [hrow.id, h.key, hrow.intentKey, Bool.and_eq_true, decide_eq_true_eq, not_and]
    exact fun hactive => h.alone e.1 e.2 hlookup hactive.1 hactive.2
  exact ⟨_, if_pos ⟨hchecks, hfree⟩⟩

omit [TextTables] [URLParser] in
theorem Replaces.released {row' : JobRow} (h : Replaces row row') (now : Time) :
    Replaces row (released now row') :=
  ⟨h.id, h.intentKey, h.mediaType, h.attempt, h.version, h.progress, h.ordinal⟩

/-- The `UPDATE` of a held row writes it. -/
theorem Held.updateLeased {store' : Tables} {states : List JobState} {assign : JobRow → JobRow}
    (h : Held store claim now row) (hjobs : store'.jobs = store.jobs) (hstate : row.state ∈ states)
    (hrow : Replaces row (assign row)) :
    ∃ written, store'.updateLeased claim now states assign = .ok (written, 1) := by
  obtain ⟨written, hwritten⟩ := h.writeJob hjobs (hrow.released now)
  refine ⟨written, ?_⟩
  have hlookup : store'.jobs.lookup claim.job.id = some row := by rw [hjobs, h.lookup]
  have hleased : leased claim now states row = true :=
    leased_iff.2 ⟨h.version, h.unexpired, hstate⟩
  simp only [Tables.updateLeased, Tables.updateJob, hlookup, hleased, hwritten]
  rfl

/-- A transition of one `UPDATE` is accepted. -/
theorem Held.transition {states : List JobState} {assign : JobRow → JobRow}
    (h : Held store claim now row) (hstate : row.state ∈ states) (hrow : Replaces row (assign row)) :
    (transitionWithStates store claim states now assign).2 = .ok () := by
  obtain ⟨written, hwritten⟩ := h.updateLeased rfl hstate hrow
  simp only [transitionWithStates, h.input, hwritten]
  rfl

/-- A row with other values in the columns that transitions may change. -/
theorem Held.replaces (h : Held store claim now row) {row' : JobRow} (hid : row'.id = row.id)
    (hkey : row'.intentKey = row.intentKey) (hmedia : row'.mediaType = row.mediaType)
    (hattempt : row'.attemptCount = row.attemptCount) (hversion : row'.leaseVersion = row.leaseVersion)
    (hprogress : 0 ≤ row'.progress ∧ row'.progress ≤ 100)
    (hordinal : row'.selectedCandidateOrdinal = row.selectedCandidateOrdinal) : Replaces row row' :=
  ⟨hid, hkey, hmedia, hattempt, hversion, hprogress, hordinal ▸ h.ordinal,
    hordinal ▸ (queryJob_checks h.read).2.2.2.2⟩

/-! ## Transitions of one statement -/

theorem Held.deferred_accepted (h : Held store claim now row) {nextAttempt : Time} {code : JobErrorCode}
    {progress : ℤ} (hactive : row.state.active = true) (hlater : now < nextAttempt)
    (hnonzero : nextAttempt ≠ zeroTime) (hprogress : 0 ≤ progress ∧ progress < 100)
    (hcode : code = .none ∨ code = .providerUnavailable ∨ code = .unauthorized) :
    (deferred store claim nextAttempt code progress now).2 = .ok () := by
  have hstate : row.state ∈ anyActive := by
    cases hs : row.state with
    | queued | selected | preparing => simp [anyActive]
    | succeeded | failed | manualReview =>
      rw [hs] at hactive
      cases hactive
  rw [deferred, if_neg (not_or.2 ⟨hnonzero, not_le.2 hlater⟩),
    if_neg (not_or.2 ⟨not_lt.2 hprogress.1, not_le.2 hprogress.2⟩), if_neg (by tauto)]
  exact h.transition hstate (h.replaces rfl rfl rfl rfl rfl ⟨hprogress.1, hprogress.2.le⟩ rfl)

theorem Held.attachPrepared_accepted (h : Held store claim now row) {created : CreatedObject}
    (createdByJob : Bool) (hselected : row.state = .selected)
    (hcreated : newCreatedObject created.backing.provider created.backing.objectID = .ok created) :
    (attachPrepared store claim created createdByJob now).2 = .ok () := by
  simp only [attachPrepared, hcreated, within]
  refine h.transition (by rw [hselected]; exact List.mem_singleton_self _) ?_
  exact h.replaces rfl rfl rfl rfl rfl ⟨le_refl 0, by simp [assignAttach]⟩ rfl

/-! ## Transitions that end a job -/

section Ending

variable {job : AcquisitionJob}

omit [TextTables] [URLParser] in
/-- A stage that may have a selected candidate may have the one that the job had. -/
theorem validateSelectedCandidateOrdinal_later {state state' : JobState} {hasSelection : Bool}
    {ordinal : Option ℤ} (h : validateSelectedCandidateOrdinal state hasSelection ordinal = .ok ())
    (hstate' : state' = .succeeded ∨ state' = .manualReview) :
    validateSelectedCandidateOrdinal state' hasSelection ordinal = .ok () := by
  cases ordinal with
  | none => rfl
  | some k =>
    simp only [validateSelectedCandidateOrdinal, bind_eq_ok, require_eq_ok] at h ⊢
    obtain ⟨_, hrange, _, hsome, -⟩ := h
    exact ⟨(), hrange, (), hsome, Or.inr (Or.inr hstate')⟩

omit [TextTables] [URLParser] in
/-- A stage that may own a provider object may own the one that the job had. -/
theorem validateCreatedByJob_later {state state' : JobState} {hasCreated createdByJob : Bool}
    (h : validateCreatedByJob state hasCreated createdByJob = .ok ())
    (hstate' : state' = .succeeded ∨ state' = .manualReview) :
    validateCreatedByJob state' hasCreated createdByJob = .ok () := by
  unfold validateCreatedByJob at h ⊢
  split at h
  · next hforeign => rw [if_pos hforeign]
  · next howned =>
    rw [if_neg howned]
    simp only [bind_eq_ok, require_eq_ok] at h ⊢
    obtain ⟨_, hsome, -⟩ := h
    exact ⟨(), hsome, Or.inr hstate'⟩

/-- A job in preparation that has been published. -/
theorem succeededJob_valid {publishedObjectID : String} (hjob : job.Valid)
    (hpreparing : job.state = .preparing) (htime : now ≠ zeroTime) (hlater : job.createdAt ≤ now)
    (hpublished : validateOptionalPublishedObjectID publishedObjectID = .ok publishedObjectID)
    (hnonempty : publishedObjectID ≠ "") :
    ({ job with
      state := .succeeded
      publishedObjectID := publishedObjectID
      errorCode := .none
      progress := 100
      updatedAt := now } : AcquisitionJob).Valid where
  id := hjob.id
  request := hjob.request
  attempt := hjob.attempt
  progress := ⟨by simp, le_refl 100⟩
  createdAt := hjob.createdAt
  updatedAt := htime
  times := hlater
  errorCode := rfl
  selection := hjob.selection
  createdObject := hjob.createdObject
  published := hpublished
  stage := by
    have hstage := hjob.stage
    simp only [hpreparing, validateJobStage, require_eq_ok, not_or, not_not] at hstage
    simp [validateJobStage, hstage.1, hstage.2.1, hnonempty]
  ordinal := validateSelectedCandidateOrdinal_later hjob.ordinal (Or.inl rfl)
  owner := validateCreatedByJob_later hjob.owner (Or.inl rfl)

/-- A job without a plan and without an object of its own that has failed. -/
theorem failedJob_valid {code : JobErrorCode} (hjob : job.Valid) (htime : now ≠ zeroTime)
    (hlater : job.createdAt ≤ now) (hcode : code ≠ .none)
    (hsupported : validateJobErrorCode code = .ok ()) (hordinal : job.selectedCandidateOrdinal = none)
    (howner : job.createdByJob = false) :
    ({ job with
      state := .failed
      publishedObjectID := ""
      errorCode := code
      updatedAt := now } : AcquisitionJob).Valid where
  id := hjob.id
  request := hjob.request
  attempt := hjob.attempt
  progress := hjob.progress
  createdAt := hjob.createdAt
  updatedAt := htime
  times := hlater
  errorCode := hsupported
  selection := hjob.selection
  createdObject := hjob.createdObject
  published := rfl
  stage := by simp [validateJobStage, hcode]
  ordinal := by simp [hordinal, validateSelectedCandidateOrdinal]
  owner := by simp [howner, validateCreatedByJob]

/-- A job whose provider object needs a review. -/
theorem reviewedJob_valid (hjob : job.Valid) (htime : now ≠ zeroTime) (hlater : job.createdAt ≤ now) :
    ({ job with
      state := .manualReview
      publishedObjectID := ""
      errorCode := .ambiguousMutation
      updatedAt := now } : AcquisitionJob).Valid where
  id := hjob.id
  request := hjob.request
  attempt := hjob.attempt
  progress := hjob.progress
  createdAt := hjob.createdAt
  updatedAt := htime
  times := hlater
  errorCode := rfl
  selection := hjob.selection
  createdObject := hjob.createdObject
  published := rfl
  stage := by simp [validateJobStage]
  ordinal := validateSelectedCandidateOrdinal_later hjob.ordinal (Or.inr rfl)
  owner := validateCreatedByJob_later hjob.owner (Or.inr rfl)

end Ending

theorem Held.succeed_accepted (h : Held store claim now row) {publishedObjectID : String}
    (hpreparing : row.state = .preparing) (hlater : claim.job.createdAt ≤ now)
    (hpublished : validateOptionalPublishedObjectID publishedObjectID = .ok publishedObjectID)
    (hnonempty : publishedObjectID ≠ "") :
    (succeed store claim publishedObjectID now).2 = .ok () := by
  have hread := queryJob_readFrom h.read
  have hvalid := succeededJob_valid hread.valid (hread.state.trans hpreparing) h.time hlater hpublished
    hnonempty
  simp only [succeed, hvalid.snapshot, within]
  refine h.transition (by rw [hpreparing]; exact List.mem_singleton_self _) ?_
  exact h.replaces rfl rfl rfl rfl rfl ⟨by simp [assignSucceed], le_refl 100⟩ rfl

/-- A failure whose snapshot is valid is accepted. -/
theorem Held.fail_accepted (h : Held store claim now row) {code : JobErrorCode} {manualReview : Bool}
    (hactive : row.state.active = true)
    (hvalid : ({ claim.job with
      state := failureState manualReview
      publishedObjectID := ""
      errorCode := code
      updatedAt := now } : AcquisitionJob).Valid) :
    (fail store claim code manualReview now).2 = .ok () := by
  have hstate : row.state ∈ anyActive := by
    cases hs : row.state with
    | queued | selected | preparing => simp [anyActive]
    | succeeded | failed | manualReview =>
      rw [hs] at hactive
      cases hactive
  obtain ⟨-, -, hlow, hhigh, -⟩ := queryJob_checks h.read
  simp only [fail, hvalid.snapshot, within]
  exact h.transition hstate (h.replaces rfl rfl rfl rfl rfl ⟨hlow, hhigh⟩ rfl)

/-! ## Plans -/

/-- Candidate rows of one job that may both be in the table; the second one is inserted later. -/
structure Beside (r r' : CandidateRow) : Prop where
  ordinal : r.ordinal ≠ r'.ordinal
  identity : r.identityKey ≠ r'.identityKey
  selected : r'.outcome ≠ .selected

omit [TextTables] [URLParser] in
theorem NumberedFrom.pairwise {start : ℕ} {rows : List CandidateRow} (h : NumberedFrom start rows) :
    rows.Pairwise fun r r' => r.ordinal ≠ r'.ordinal := by
  induction rows generalizing start with
  | nil => exact .nil
  | cons r rows ih =>
    obtain ⟨hr, hrest⟩ := h
    refine List.pairwise_cons.2 ⟨fun r' hr' => ?_, ih hrest⟩
    have hlow := (hrest.bounds r' hr').1
    omega

theorem ValidPlan.beside {validated : List JobCandidate} (h : ValidPlan validated) :
    (validated.map candidateRow).Pairwise Beside := by
  have hidentities : (validated.map candidateRow).Pairwise fun r r' => r.identityKey ≠ r'.identityKey :=
    List.pairwise_map.1 h.shape.identities
  have hselected : (validated.map candidateRow).Pairwise fun _ r' => r'.outcome ≠ .selected := by
    have hrest := h.rest
    cases hrows : validated.map candidateRow with
    | nil => exact .nil
    | cons first rest =>
      rw [hrows, List.tail_cons] at hrest
      have hpending : ∀ r ∈ rest, r.outcome ≠ .selected := by
        intro r hr
        rw [hrest r hr]
        decide
      exact List.pairwise_cons.2 ⟨hpending, List.pairwise_of_forall_mem_list fun _ _ r hr => hpending r hr⟩
  exact ((h.shape.numbered.pairwise.and hidentities).and hselected).imp
    fun ⟨⟨hordinal, hidentity⟩, hpending⟩ => ⟨hordinal, hidentity, hpending⟩

/-- The inserts of a plan whose rows fit with each other and with those that are there. -/
theorem insertCandidates_accepted {id : String} : ∀ {candidates : List JobCandidate} {store : Tables},
    (store.jobs.lookup id).isSome = true → (∀ c ∈ candidates, SettledCandidate c) →
    (store.candidatesOf id ++ candidates.map candidateRow).Pairwise Beside →
    ∃ written, store.insertCandidates id candidates = .ok written
  | [], store, _, _, _ => ⟨store, rfl⟩
  | candidate :: rest, store, hjob, hsettled, hbeside => by
      rw [List.map_cons] at hbeside
      have hold := fun r hr => (List.pairwise_append.1 hbeside).2.2 r hr _ List.mem_cons_self
      have hinsert : store.insertCandidate id (candidateRow candidate) = .ok { store with
          candidates := store.candidates.insert id
            (store.candidatesOf id ++ [candidateRow candidate]) } :=
        if_pos ⟨hjob, candidateRow_checks (hsettled candidate List.mem_cons_self),
          fun r hr => (hold r hr).ordinal, fun r hr => (hold r hr).identity,
          fun hselected r hr => absurd hselected (hold r hr).selected⟩
      obtain ⟨hjobs, hrows⟩ := insertCandidate_eq_ok hinsert
      simp only [Tables.insertCandidates, hinsert]
      refine insertCandidates_accepted (hjobs ▸ hjob)
        (fun c hc => hsettled c (List.mem_cons_of_mem _ hc)) ?_
      rw [hrows id, if_pos rfl, List.append_assoc]
      exact hbeside

theorem Held.plan_accepted (h : Held store claim now row) {candidates validated : List JobCandidate}
    (hqueued : row.state = .queued) (hrows : store.candidatesOf claim.job.id = [])
    (hvalid : validateCandidatePlan candidates = .ok validated) :
    (plan store claim candidates now).2 = .ok () := by
  have hplan := validateCandidatePlan_spec hvalid
  have hbeside : (store.candidatesOf claim.job.id ++ validated.map candidateRow).Pairwise Beside := by
    rw [hrows, List.nil_append]
    exact hplan.beside
  obtain ⟨inserted, hinserted⟩ := insertCandidates_accepted (by rw [h.lookup]; rfl) hplan.settled hbeside
  have hjobs := (insertCandidates_eq_ok hinserted).1
  have hrow : Replaces row (assignPlan ((validated.head?.map JobCandidate.selection).getD .zero) row) :=
    ⟨rfl, rfl, rfl, rfl, rfl, ⟨le_refl 0, by simp [assignPlan]⟩, by simp [assignPlan]⟩
  obtain ⟨written, hwritten⟩ := h.updateLeased hjobs
    (by rw [hqueued]; exact List.mem_singleton_self JobState.queued) hrow
  simp only [plan, hvalid, h.input, Tables.begin, hinserted, hwritten]
  rfl

/-! ## Advances -/

/-- The snapshot of a job whose plan is exhausted. -/
theorem validateTerminalCode_eq_ok {job : AcquisitionJob} {code : JobErrorCode} (hjob : job.Valid)
    (htime : now ≠ zeroTime) (hlater : job.createdAt ≤ now) (hcode : code ≠ .none)
    (hsupported : validateJobErrorCode code = .ok ()) :
    ∃ validated, validateTerminalCode code job now = .ok validated := by
  have hvalid : ({
      id := job.id
      request := job.request
      state := .failed
      selection := none
      createdObject := none
      selectedCandidateOrdinal := none
      createdByJob := false
      publishedObjectID := ""
      errorCode := code
      attempt := job.attempt
      progress := 0
      createdAt := job.createdAt
      updatedAt := now } : AcquisitionJob).Valid := {
    id := hjob.id
    request := hjob.request
    attempt := hjob.attempt
    progress := ⟨le_refl 0, by simp⟩
    createdAt := hjob.createdAt
    updatedAt := htime
    times := hlater
    errorCode := hsupported
    selection := by simp
    createdObject := by simp
    published := rfl
    stage := by simp [validateJobStage, hcode]
    ordinal := rfl
    owner := rfl }
  exact ⟨_, by rw [validateTerminalCode, hvalid.snapshot]; rfl⟩

/-- The checks of `Advance` pass for a planned job; an unprepared candidate can only be missing. -/
theorem Held.validateAdvance_eq_ok (h : Held store claim now row) {outcome : CandidateOutcome}
    {terminalCode : JobErrorCode} {ordinal : ℤ}
    (hordinal : claim.job.selectedCandidateOrdinal = some ordinal)
    (hstate : claim.job.state = .selected ∨ claim.job.state = .preparing)
    (hterminal : outcome.terminal = true) (hmissing : claim.job.state = .selected → outcome = .missing)
    (hlater : claim.job.createdAt ≤ now) (hcode : terminalCode ≠ .none)
    (hsupported : validateJobErrorCode terminalCode = .ok ()) :
    validateAdvance claim outcome terminalCode now = .ok ordinal := by
  have hvalid := (queryJob_readFrom h.read).valid
  have hplanned := hvalid.ordinal
  rw [hordinal] at hplanned
  simp only [validateSelectedCandidateOrdinal, bind_eq_ok, require_eq_ok] at hplanned
  obtain ⟨_, hrange, _, hsome, -⟩ := hplanned
  obtain ⟨selection, hselection⟩ := Option.isSome_iff_exists.1 hsome
  have hsettled : SettledCandidate ⟨selection, ordinal, outcome⟩ :=
    ⟨hvalid.selection selection hselection, hrange, CandidateOutcome.admitted_of_terminal hterminal⟩
  obtain ⟨validated, hvalidated⟩ := validateTerminalCode_eq_ok hvalid h.time hlater hcode hsupported
  have hzero : claim.job.selectionOrZero = selection := by
    rw [AcquisitionJob.selectionOrZero, hselection]
    rfl
  simp only [validateAdvance, hordinal, bind_eq_ok, pure_eq_ok, require_eq_ok, within_eq_ok, hzero]
  exact ⟨(), hstate, _, hsettled.again, (), hterminal, (), fun ⟨hselected, hne⟩ => hne (hmissing hselected),
    validated, hvalidated, (), h.input, trivial⟩

omit [TextTables] [URLParser] in
/-- An `UPDATE` of outcomes after which the rows satisfy their constraints. -/
theorem updateCandidates_accepted {id : String} {guard : CandidateRow → Bool}
    {outcome : CandidateOutcome}
    (hchecks : ∀ r ∈ Tables.setOutcome guard outcome (store.candidatesOf id), r.checks = true)
    (hone : (Tables.setOutcome guard outcome (store.candidatesOf id)).countP
      (fun r => r.outcome = .selected) ≤ 1) :
    ∃ written, store.updateCandidates id guard outcome =
      .ok (written, (store.candidatesOf id).countP guard) := by
  unfold Tables.updateCandidates
  split
  · next hzero => exact ⟨store, by rw [hzero]⟩
  · exact ⟨_, if_pos ⟨hchecks, hone⟩⟩

theorem PlanShape.checks {rows : List CandidateRow} (h : PlanShape rows) :
    ∀ r ∈ rows, r.checks = true := by
  intro r hr
  obtain ⟨c, hc, rfl⟩ := h.settled r hr
  exact candidateRow_checks hc

omit [TextTables] [URLParser] in
theorem countP_selected_eq_zero {rows : List CandidateRow} (h : ∀ r ∈ rows, r.outcome ≠ .selected) :
    rows.countP (fun r => r.outcome = .selected) = 0 := by
  rw [List.countP_eq_zero]
  exact fun r hr hselected => h r hr (of_decide_eq_true hselected)

omit [TextTables] [URLParser] in
theorem not_selected_of_terminal {r : CandidateRow} (h : r.outcome.terminal = true) :
    r.outcome ≠ .selected := by
  intro hselected
  rw [hselected] at h
  cases h

omit [TextTables] [URLParser] in
/-- `Advance` finds the selected candidate. -/
theorem countP_isCandidate {before after : List CandidateRow} {current : CandidateRow}
    (hnumbered : NumberedFrom 0 (before ++ current :: after))
    (hbefore : ∀ r ∈ before, r.outcome.terminal = true) (hcurrent : current.outcome = .selected)
    (hafter : ∀ r ∈ after, r.outcome = .pending) :
    (before ++ current :: after).countP (isCandidate before.length .selected) = 1 := by
  have hordinal : current.ordinal = before.length := by
    obtain ⟨-, hcurrent, -⟩ := numberedFrom_append.1 hnumbered
    simpa using hcurrent
  have hnone : ∀ rows : List CandidateRow, (∀ r ∈ rows, r.outcome ≠ .selected) →
      rows.countP (isCandidate before.length .selected) = 0 := by
    intro rows hrows
    rw [List.countP_eq_zero]
    intro r hr hcandidate
    simp only [isCandidate, Bool.and_eq_true, decide_eq_true_eq] at hcandidate
    exact hrows r hr hcandidate.2
  have hselected : isCandidate before.length .selected current = true := by
    simp [isCandidate, hordinal, hcurrent]
  rw [List.countP_append, List.countP_cons_of_pos hselected,
    hnone before fun r hr => not_selected_of_terminal (hbefore r hr), hnone after]
  intro r hr
  rw [hafter r hr]
  decide

/-- The part of `Advance` after the outcome has been recorded. -/
theorem Held.advanceSelection_accepted (h : Held store claim now row) (transaction : Transaction)
    (terminalCode : JobErrorCode) {ended after : List CandidateRow}
    (hjobs : transaction.tables.jobs = store.jobs)
    (hrows : transaction.tables.candidatesOf claim.job.id = ended ++ after)
    (hshape : PlanShape (ended ++ after)) (hended : ∀ r ∈ ended, r.outcome.terminal = true)
    (hafter : ∀ r ∈ after, r.outcome = .pending) :
    ∃ more, (advanceSelection transaction claim terminalCode now).2 = .ok more := by
  have hstate : row.state ∈ [claim.job.state] := by
    rw [(queryJob_readFrom h.read).state]
    exact List.mem_singleton_self _
  have hnumbered := (numberedFrom_append.1 hshape.numbered).2
  rw [Nat.zero_add] at hnumbered
  have hnext := nextPending_append hended hafter hnumbered
  cases after with
  | nil =>
    have hrow : Replaces row (assignExhausted terminalCode row) :=
      ⟨rfl, rfl, rfl, rfl, rfl, ⟨le_refl 0, by simp [assignExhausted]⟩, by simp [assignExhausted]⟩
    obtain ⟨written, hwritten⟩ := h.updateLeased hjobs hstate hrow
    simp only [advanceSelection, hrows, hnext, List.head?_nil, hwritten]
    exact ⟨_, rfl⟩
  | cons first rest =>
    obtain ⟨c, hc, rfl⟩ := hshape.settled first (by simp)
    have hread := queryCandidate_candidateRow hc
    have hchosen := setOutcome_pending hnumbered hended (hafter _ List.mem_cons_self)
    rw [show (candidateRow c).ordinal = c.ordinal from rfl] at hchosen
    have hselected := hshape.setOutcome (isCandidate c.ordinal .pending) .selected rfl
    have hone : (Tables.setOutcome (isCandidate c.ordinal .pending) .selected
        (transaction.tables.candidatesOf claim.job.id)).countP
          (fun r => r.outcome = .selected) ≤ 1 := by
      rw [hrows, hchosen, List.countP_append, List.countP_cons,
        countP_selected_eq_zero fun r hr => not_selected_of_terminal (hended r hr),
        countP_selected_eq_zero]
      · split <;> omega
      · intro r hr
        rw [hafter r (List.mem_cons_of_mem _ hr)]
        decide
    rw [← hrows] at hselected
    obtain ⟨tables, htables⟩ := updateCandidates_accepted hselected.checks hone
    have hordinal := hc.ordinal
    simp only [maximumJobCandidates] at hordinal
    have hrow : Replaces row (assignAdvance c row) := by
      refine ⟨rfl, rfl, rfl, rfl, rfl, ⟨le_refl 0, by simp [assignAdvance]⟩, ?_⟩
      simp only [assignAdvance]
      omega
    obtain ⟨written, hwritten⟩ := h.updateLeased ((updateCandidates_eq_ok htables).1.trans hjobs)
      hstate hrow
    simp only [advanceSelection, hrows, hnext, List.head?_cons, hread, within, htables, hwritten]
    exact ⟨_, rfl⟩

theorem Held.advance_accepted (h : Held store claim now row) {outcome : CandidateOutcome}
    {terminalCode : JobErrorCode} {advances : ℕ}
    (hplan : PlanInvariant row (store.candidatesOf claim.job.id) advances)
    (hplanned : claim.job.selectedCandidateOrdinal.isSome = true)
    (hstate : claim.job.state = .selected ∨ claim.job.state = .preparing)
    (hterminal : outcome.terminal = true) (hmissing : claim.job.state = .selected → outcome = .missing)
    (hlater : claim.job.createdAt ≤ now) (hcode : terminalCode ≠ .none)
    (hsupported : validateJobErrorCode terminalCode = .ok ()) :
    (discard (advance store claim outcome terminalCode now)).2 = .ok () := by
  obtain ⟨ordinal, hordinal⟩ := Option.isSome_iff_exists.1 hplanned
  have hvalid := h.validateAdvance_eq_ok hordinal hstate hterminal hmissing hlater hcode hsupported
  obtain ⟨hshape, hstage⟩ := hplan
  obtain ⟨before, current, after', hrows, hbefore, hcurrent, hafter', hlength, -⟩ :=
    hstage.of_ordinal h.read hordinal
  obtain ⟨ended, after, hrecord, hrecorded, hended, hafter, -⟩ := hshape.record hstage h.read hvalid
  have hone : (store.candidatesOf claim.job.id).countP (isCandidate ordinal .selected) = 1 := by
    rw [hrows, hlength]
    exact countP_isCandidate (hrows ▸ hshape.numbered) hbefore hcurrent hafter'
  have hselected : (Tables.setOutcome (isCandidate ordinal .selected) outcome
      (store.candidatesOf claim.job.id)).countP (fun r => r.outcome = .selected) ≤ 1 := by
    rw [hrecord, List.countP_append,
      countP_selected_eq_zero fun r hr => not_selected_of_terminal (hended r hr),
      countP_selected_eq_zero]
    · omega
    · intro r hr
      rw [hafter r hr]
      decide
  rw [← hrecord] at hrecorded
  obtain ⟨tables, htables⟩ := updateCandidates_accepted hrecorded.checks hselected
  rw [hone] at htables
  obtain ⟨hjobs, -, hcandidates⟩ := updateCandidates_eq_ok htables
  have hafterRows : tables.candidatesOf claim.job.id = ended ++ after := by
    rw [hcandidates, if_pos rfl, hrecord]
  obtain ⟨more, hmore⟩ := h.advanceSelection_accepted { store.begin with tables := tables }
    terminalCode hjobs hafterRows (hrecord ▸ hrecorded) hended hafter
  have hadvance : (advance store claim outcome terminalCode now).2 = .ok more := by
    simp only [advance, hvalid, Tables.begin, htables]
    exact hmore
  cases hresult : advance store claim outcome terminalCode now with
  | mk t result =>
    rw [hresult] at hadvance
    obtain rfl : result = .ok more := hadvance
    rfl

end Acceptance

end BlackPearl.JobStore
