import BlackPearl.JobStore.CandidatePlan

/-!
# What the job store records

A `JobBook` is the store as its callers see it: jobs and plans, without columns. `recordCall` is what a
transition records of a job and its plan. `BookInvariant` relates the tables to a book: each row stands
for its job (`Records`), and each job is valid, so that the readers return it.

`Change.recorded` is the refinement of one transition: the row and the candidate rows that it writes
stand for what it records. It needs one condition, `DeferFits`: `Defer` takes a progress for a job that
has no provider object yet, and the readers refuse such a row.
-/

set_option autoImplicit false

namespace BlackPearl.JobStore

open BlackPearl.Library BlackPearl.Domain BlackPearl.Acquisition

section Books

variable [TextTables] [URLParser]

/-! ## Books -/

/-- The jobs and their plans. -/
structure JobBook where
  job : String → Option AcquisitionJob
  plan : String → List JobCandidate

def JobBook.empty : JobBook := ⟨fun _ => none, fun _ => []⟩

/-- The book after a job and its plan have been recorded. -/
def JobBook.record (book : JobBook) (id : String) (job : AcquisitionJob) (plan : List JobCandidate) :
    JobBook where
  job := fun id' => if id' = id then some job else book.job id'
  plan := fun id' => if id' = id then plan else book.plan id'

omit [URLParser] in
@[simp] theorem JobBook.record_job (book : JobBook) (id id' : String) (job : AcquisitionJob)
    (plan : List JobCandidate) :
    (book.record id job plan).job id' = if id' = id then some job else book.job id' := rfl

omit [URLParser] in
@[simp] theorem JobBook.record_plan (book : JobBook) (id id' : String) (job : AcquisitionJob)
    (plan : List JobCandidate) :
    (book.record id job plan).plan id' = if id' = id then plan else book.plan id' := rfl

/-- The milliseconds of a time, which is what a row keeps of it. -/
def stamp (t : Time) : Time := timeOfUnixMilli (unixMilli t)

/-- A job that has just been submitted. -/
def submittedJob (queued : AcquisitionJob) (now : Time) : AcquisitionJob :=
  { queued with
    createdAt := stamp now
    updatedAt := stamp now }

/-- A job that has just been leased. -/
def claimedJob (job : AcquisitionJob) (now : Time) : AcquisitionJob :=
  { job with
    attempt := job.attempt + 1
    updatedAt := stamp now }

/-- A job that goes on to a selection. -/
def selectedJob (job : AcquisitionJob) (selection : JobSelection) (ordinal : Option ℤ) (now : Time) :
    AcquisitionJob :=
  { job with
    state := .selected
    selection := some selection
    createdObject := none
    selectedCandidateOrdinal := ordinal
    createdByJob := false
    errorCode := .none
    progress := 0
    updatedAt := stamp now }

/-- A job that is attached to a provider object. -/
def attachedJob (job : AcquisitionJob) (created : CreatedObject) (createdByJob : Bool) (now : Time) :
    AcquisitionJob :=
  { job with
    state := .preparing
    createdObject := some created
    createdByJob := createdByJob
    errorCode := .none
    progress := 0
    updatedAt := stamp now }

/-- A job whose plan has no candidate left. -/
def exhaustedJob (job : AcquisitionJob) (code : JobErrorCode) (now : Time) : AcquisitionJob :=
  { job with
    state := .failed
    selection := none
    createdObject := none
    selectedCandidateOrdinal := none
    createdByJob := false
    errorCode := code
    progress := 0
    updatedAt := stamp now }

/-- The plan after the outcome of a candidate has changed. -/
def markCandidates (ordinal : ℤ) (old new : CandidateOutcome) (plan : List JobCandidate) :
    List JobCandidate :=
  plan.map fun c => if c.ordinal = ordinal ∧ c.outcome = old then { c with outcome := new } else c

attribute [local instance] integerOrder

/-- The pending candidate with the least ordinal. -/
def nextCandidate (plan : List JobCandidate) : Option JobCandidate :=
  (plan.filter fun c => c.outcome = .pending).argmin JobCandidate.ordinal

/-- The job and the plan after `Advance` has ended the candidate of the job. -/
def advanceJob (job : AcquisitionJob) (ended : List JobCandidate) (terminalCode : JobErrorCode)
    (now : Time) : AcquisitionJob × List JobCandidate :=
  match nextCandidate ended with
  | some next => (selectedJob job next.selection (some next.ordinal) now,
      markCandidates next.ordinal .pending .selected ended)
  | none => (exhaustedJob job terminalCode now, ended)

/-- What a transition records of a job and its plan. -/
def recordCall (job : AcquisitionJob) (plan : List JobCandidate) (now : Time) :
    TransitionCall → AcquisitionJob × List JobCandidate
  | .select selection =>
      match validateSelection selection with
      | .ok validated => (selectedJob job validated none now, plan)
      | .error _ => (job, plan)
  | .plan candidates =>
      match validateCandidatePlan candidates with
      | .ok (first :: rest) => (selectedJob job first.selection (some 0) now, plan ++ first :: rest)
      | _ => (job, plan)
  | .attachPrepared created createdByJob => (attachedJob job created createdByJob now, plan)
  | .advance outcome terminalCode =>
      advanceJob job (markCandidates (job.selectedCandidateOrdinal.getD (-1)) .selected outcome plan)
        terminalCode now
  | .deferred _ code progress =>
      ({ job with errorCode := code, progress := progress, updatedAt := stamp now }, plan)
  | .succeed publishedObjectID =>
      ({ job with
        state := .succeeded
        publishedObjectID := publishedObjectID
        errorCode := .none
        progress := 100
        updatedAt := stamp now }, plan)
  | .fail code manualReview =>
      ({ job with state := failureState manualReview, errorCode := code, updatedAt := stamp now }, plan)

/-! ## Rows of candidates -/

omit [TextTables] [URLParser] in
/-- The least element of an image. -/
theorem argmin_map {α β : Type} (f : α → β) (g : β → ℤ) (l : List α) :
    (l.map f).argmin g = (l.argmin (g ∘ f)).map f := by
  induction l using List.reverseRecOn with
  | nil => rfl
  | append_singleton l a ih =>
    rw [List.map_append, List.map_singleton, List.argmin_concat, List.argmin_concat, ih]
    cases l.argmin (g ∘ f) with
    | none => rfl
    | some c =>
      simp only [Option.map_some, Function.comp_apply]
      split <;> rfl

omit [URLParser] in
theorem setOutcome_candidateRow (ordinal : ℤ) (old new : CandidateOutcome) (plan : List JobCandidate) :
    Tables.setOutcome (isCandidate ordinal old) new (plan.map candidateRow) =
      (markCandidates ordinal old new plan).map candidateRow := by
  rw [Tables.setOutcome, markCandidates, List.map_map, List.map_map]
  apply List.map_congr_left
  intro c _
  have hguard : isCandidate ordinal old (candidateRow c) = true ↔ c.ordinal = ordinal ∧ c.outcome = old := by
    simp only [isCandidate, Bool.and_eq_true, decide_eq_true_eq]
    exact Iff.rfl
  simp only [Function.comp_apply]
  by_cases h : c.ordinal = ordinal ∧ c.outcome = old
  · rw [if_pos (hguard.2 h), if_pos h]
    rfl
  · rw [if_neg (mt hguard.1 h), if_neg h]

omit [URLParser] in
theorem nextPending_candidateRow (plan : List JobCandidate) :
    nextPending (plan.map candidateRow) = (nextCandidate plan).map candidateRow := by
  rw [nextPending, List.filter_map, argmin_map]
  rfl

theorem markCandidates_settled (ordinal : ℤ) (old : CandidateOutcome) {new : CandidateOutcome}
    {plan : List JobCandidate}
    (hplan : ∀ c ∈ plan, SettledCandidate c) (hnew : admittedOutcome new = true) :
    ∀ c ∈ markCandidates ordinal old new plan, SettledCandidate c := by
  intro c hc
  obtain ⟨c', hc', rfl⟩ := List.mem_map.1 hc
  have hsettled := hplan c' hc'
  split
  · exact ⟨hsettled.selection, hsettled.ordinal, hnew⟩
  · exact hsettled

/-! ## Jobs stay valid -/

section Validity

variable {job : AcquisitionJob} {now : Time}

/-- The time of a step: not before the job, and not the zero time once it is stored. -/
structure StampFits (job : AcquisitionJob) (now : Time) : Prop where
  later : job.createdAt ≤ stamp now
  nonzero : stamp now ≠ zeroTime

theorem selectedJob_valid {selection : JobSelection} {ordinal : Option ℤ} (hjob : job.Valid)
    (hactive : job.state.active = true) (hfits : StampFits job now) (hselection : selection.Settled)
    (hordinal : ∀ k ∈ ordinal, 0 ≤ k ∧ k < maximumJobCandidates) :
    (selectedJob job selection ordinal now).Valid where
  id := hjob.id
  request := hjob.request
  attempt := hjob.attempt
  progress := by simp [selectedJob]
  createdAt := hjob.createdAt
  updatedAt := hfits.nonzero
  times := hfits.later
  errorCode := rfl
  selection := by simpa [selectedJob] using hselection
  createdObject := by simp [selectedJob]
  published := hjob.published
  stage := by
    have hpublished := hjob.unpublished hactive
    simp [selectedJob, validateJobStage, hpublished]
  ordinal := by
    cases ordinal with
    | none => rfl
    | some k =>
      simp only [selectedJob, validateSelectedCandidateOrdinal, bind_eq_ok, require_eq_ok]
      exact ⟨(), hordinal k rfl, (), rfl, Or.inl trivial⟩
  owner := rfl

theorem attachedJob_valid {created : CreatedObject} {createdByJob : Bool} (hjob : job.Valid)
    (hselected : job.state = .selected) (hfits : StampFits job now)
    (hcreated : newCreatedObject created.backing.provider created.backing.objectID = .ok created) :
    (attachedJob job created createdByJob now).Valid where
  id := hjob.id
  request := hjob.request
  attempt := hjob.attempt
  progress := by simp [attachedJob]
  createdAt := hjob.createdAt
  updatedAt := hfits.nonzero
  times := hfits.later
  errorCode := rfl
  selection := hjob.selection
  createdObject := by simpa [attachedJob] using hcreated
  published := hjob.published
  stage := by
    have hpublished := hjob.unpublished (by rw [hselected]; rfl)
    have hsome := (hjob.selected hselected).1
    simp [attachedJob, validateJobStage, hpublished, hsome]
  ordinal := by
    have hordinal := hjob.ordinal
    cases hk : job.selectedCandidateOrdinal with
    | none => simp [attachedJob, hk, validateSelectedCandidateOrdinal]
    | some k =>
      simp only [attachedJob, hk, validateSelectedCandidateOrdinal, bind_eq_ok, require_eq_ok]
        at hordinal ⊢
      obtain ⟨_, hrange, _, hsome, -⟩ := hordinal
      exact ⟨(), hrange, (), hsome, Or.inr (Or.inl trivial)⟩
  owner := by
    unfold validateCreatedByJob
    split
    · rfl
    · simp only [attachedJob, bind_eq_ok, require_eq_ok]
      exact ⟨(), rfl, Or.inl trivial⟩

theorem exhaustedJob_valid {code : JobErrorCode} (hjob : job.Valid)
    (hactive : job.state.active = true) (hfits : StampFits job now) (hcode : code ≠ .none)
    (hsupported : validateJobErrorCode code = .ok ()) : (exhaustedJob job code now).Valid where
  id := hjob.id
  request := hjob.request
  attempt := hjob.attempt
  progress := by simp [exhaustedJob]
  createdAt := hjob.createdAt
  updatedAt := hfits.nonzero
  times := hfits.later
  errorCode := hsupported
  selection := by simp [exhaustedJob]
  createdObject := by simp [exhaustedJob]
  published := hjob.published
  stage := by
    have hpublished := hjob.unpublished hactive
    simp [exhaustedJob, validateJobStage, hpublished, hcode]
  ordinal := rfl
  owner := rfl

/-- A job that waits keeps its stage; without a provider object it has no progress. -/
theorem deferredJob_valid {code : JobErrorCode} {progress : ℤ} (hjob : job.Valid)
    (hactive : job.state.active = true) (hfits : StampFits job now)
    (hprogress : 0 ≤ progress ∧ progress < 100) (hzero : job.state ≠ .preparing → progress = 0)
    (hcode : code = .none ∨ code = .providerUnavailable ∨ code = .unauthorized) :
    ({ job with errorCode := code, progress := progress, updatedAt := stamp now } :
      AcquisitionJob).Valid where
  id := hjob.id
  request := hjob.request
  attempt := hjob.attempt
  progress := ⟨hprogress.1, hprogress.2.le⟩
  createdAt := hjob.createdAt
  updatedAt := hfits.nonzero
  times := hfits.later
  errorCode := by rcases hcode with rfl | rfl | rfl <;> rfl
  selection := hjob.selection
  createdObject := hjob.createdObject
  published := hjob.published
  stage := by
    have hstage := hjob.stage
    cases hstate : job.state with
    | queued | selected =>
      obtain rfl := hzero (by simp [hstate])
      simp only [hstate, validateJobStage, require_eq_ok] at hstage ⊢
      tauto
    | preparing =>
      simp only [hstate, validateJobStage, require_eq_ok] at hstage ⊢
      have hless : ¬ 100 ≤ progress := not_le.2 hprogress.2
      tauto
    | succeeded | failed | manualReview =>
      rw [hstate] at hactive
      cases hactive
  ordinal := hjob.ordinal
  owner := hjob.owner

/-- The time of the last change may be any that is not before the job. -/
theorem valid_updatedAt (hjob : job.Valid) (hfits : StampFits job now) :
    ({ job with updatedAt := stamp now } : AcquisitionJob).Valid :=
  { hjob with
    updatedAt := hfits.nonzero
    times := hfits.later }

end Validity

/-! ## One transition -/

/-- A `Defer` that is accepted gives no progress to a job without a provider object. -/
def DeferFits (row : JobRow) : TransitionCall → Prop
  | .deferred _ _ progress => row.state ≠ .preparing → progress = 0
  | _ => True

/-- The row and the candidate rows of a job stand for the job and its plan. -/
structure RecordedJob (row : JobRow) (rows : List CandidateRow) (job : AcquisitionJob)
    (plan : List JobCandidate) : Prop where
  records : Records row job
  valid : job.Valid
  rows : rows = plan.map candidateRow
  settled : ∀ c ∈ plan, SettledCandidate c

omit [URLParser] in
/-- The columns of a job that goes on to a selection. -/
theorem records_selectedJob {row row' : JobRow} {job : AcquisitionJob} {selection : JobSelection}
    {ordinal : Option ℤ} {now : Time} (h : Records row job)
    (hplain : row'.id = row.id ∧ row'.request = row.request ∧ row'.publishedObjectID =
      row.publishedObjectID ∧ row'.attemptCount = row.attemptCount ∧ row'.createdUnixMs = row.createdUnixMs)
    (hselected : row'.state = .selected ∧ row'.selected = selectionColumns selection ∧
      row'.selectedInfoHash = selection.infoHash ∧ row'.selectedCandidateOrdinal = ordinal.getD (-1))
    (hobject : row'.createdProvider = "" ∧ row'.createdObjectID = "" ∧ row'.createdByJob = false)
    (hrest : row'.errorCode = .none ∧ row'.progress = 0) :
    Records (released now row') (selectedJob job selection ordinal now) := by
  obtain ⟨hid, hrequest, hpublished, hattempt, hcreated⟩ := hplain
  simp only [JobRow.request, SearchRequest.mk.injEq] at hrequest
  obtain ⟨hmedia, htitle, hyear, hseason, hepisode⟩ := hrequest
  exact {
    id := hid.trans h.id
    mediaType := hmedia.trans h.mediaType
    title := htitle.trans h.title
    year := hyear.trans h.year
    season := hseason.trans h.season
    episode := hepisode.trans h.episode
    state := hselected.1
    selected := hselected.2.1
    infoHash := hselected.2.2.1
    created := ⟨hobject.1, hobject.2.1⟩
    ordinal := hselected.2.2.2
    createdByJob := hobject.2.2
    published := hpublished.trans h.published
    errorCode := hrest.1
    attempt := hattempt.trans h.attempt
    progress := hrest.2
    createdAt := (congrArg timeOfUnixMilli hcreated).trans h.createdAt
    updatedAt := rfl }

theorem validateSelection_settled {selection validated : JobSelection}
    (h : validateSelection selection = .ok validated) : validated.Settled := by
  unfold validateSelection at h
  split at h
  · exact (newTorrentJobSelection_settled h).1
  · exact (newRangeJobSelection_settled h).1
  · cases h

/-- The code with which `Advance` ends a job. -/
theorem validateAdvance_code {claim : AcquisitionJobClaim} {outcome : CandidateOutcome}
    {terminalCode : JobErrorCode} {now : Time} {ordinal : ℤ}
    (h : validateAdvance claim outcome terminalCode now = .ok ordinal) :
    terminalCode ≠ .none ∧ validateJobErrorCode terminalCode = .ok () := by
  unfold validateAdvance at h
  split at h
  · cases h
  · simp only [bind_eq_ok, pure_eq_ok, require_eq_ok, validateTerminalCode, within_eq_ok] at h
    obtain ⟨_, _, _, _, _, _, _, _, job, hjob, _⟩ := h
    simp only [newAcquisitionJobSnapshot, bind_eq_ok, pure_eq_ok, require_eq_ok, within_eq_ok] at hjob
    obtain ⟨_, _, _, _, _, _, _, _, _, _, _, hcode, _, _, _, _, published, _, _, hstage, _⟩ := hjob
    simp only [validateJobStage, require_eq_ok, not_or] at hstage
    exact ⟨hstage.2, hcode⟩

/-- The rows that a transition writes stand for what it records. -/
theorem Change.recorded {claim : AcquisitionJobClaim} {now : Time} {row row' : JobRow}
    {rows rows' : List CandidateRow} {call : TransitionCall} {plan : List JobCandidate}
    (h : RecordedJob row rows claim.job plan) (hlease : HoldsLease claim now (callStates claim call) row)
    (hfits : StampFits claim.job now) (hdefer : DeferFits row call)
    (hchange : Change claim now row rows call row' rows') :
    RecordedJob (released now row') rows' (recordCall claim.job plan now call).1
      (recordCall claim.job plan now call).2 := by
  obtain ⟨hrecords, hvalid, rfl, hsettled⟩ := h
  have hactive : claim.job.state.active = true := hrecords.state ▸ hlease.active hchange
  cases hchange with
  | @select selection validated hselection =>
    have hqueued : row.state = .queued := by simpa [callStates] using hlease.state
    obtain ⟨-, hcreated, -, howner⟩ := hvalid.queued (hrecords.state ▸ hqueued)
    simp only [recordCall, hselection]
    refine ⟨records_selectedJob hrecords ⟨rfl, rfl, rfl, rfl, rfl⟩ ⟨rfl, rfl, rfl, rfl⟩ ?_ ⟨rfl, rfl⟩,
      selectedJob_valid hvalid hactive hfits (validateSelection_settled hselection) (by simp), rfl,
      hsettled⟩
    -- a queued job has no provider object, and `Select` leaves its columns alone
    obtain ⟨hprovider, hobject⟩ := hrecords.created
    rw [hcreated] at hprovider hobject
    exact ⟨hprovider, hobject, rfl⟩
  | @plan candidates validated first hplan hfirst =>
    have hsettled' := (validateCandidatePlan_spec hplan).settled
    cases validated with
    | nil => cases hfirst
    | cons c rest =>
      cases hfirst
      simp only [recordCall, hplan]
      refine ⟨records_selectedJob hrecords ⟨rfl, rfl, rfl, rfl, rfl⟩ ⟨rfl, rfl, rfl, rfl⟩
        ⟨rfl, rfl, rfl⟩ ⟨rfl, rfl⟩, ?_, by rw [List.map_append], ?_⟩
      · refine selectedJob_valid hvalid hactive hfits (hsettled' first List.mem_cons_self).selection ?_
        simp [maximumJobCandidates]
      · intro c hc
        rcases List.mem_append.1 hc with hc | hc
        · exact hsettled c hc
        · exact hsettled' c hc
  | @attachPrepared created createdByJob hcreated =>
    have hselected : row.state = .selected := by simpa [callStates] using hlease.state
    refine ⟨?_, attachedJob_valid hvalid (hrecords.state ▸ hselected) hfits hcreated, rfl, hsettled⟩
    exact { hrecords with
      state := rfl
      created := ⟨rfl, rfl⟩
      createdByJob := rfl
      errorCode := rfl
      progress := rfl
      updatedAt := rfl }
  | @advance outcome terminalCode ordinal pending next hadvance hone hpending hnext =>
    obtain ⟨hordinal, hterminal⟩ := validateAdvance_eq_ok hadvance
    have hmarked := markCandidates_settled ordinal .selected hsettled
      (CandidateOutcome.admitted_of_terminal hterminal)
    rw [setOutcome_candidateRow] at hpending ⊢
    rw [nextPending_candidateRow, Option.map_eq_some_iff] at hpending
    obtain ⟨c, hc, rfl⟩ := hpending
    have hmem := List.mem_filter.1 (List.argmin_mem hc)
    have hsettledNext := hmarked c hmem.1
    rw [queryCandidate_candidateRow hsettledNext] at hnext
    obtain rfl := Except.ok.inj hnext
    simp only [recordCall, advanceJob, hordinal, Option.getD_some, hc]
    refine ⟨records_selectedJob hrecords ⟨rfl, rfl, rfl, rfl, rfl⟩ ⟨rfl, rfl, rfl, rfl⟩
      ⟨rfl, rfl, rfl⟩ ⟨rfl, rfl⟩, ?_, setOutcome_candidateRow _ _ _ _, markCandidates_settled _ _ hmarked rfl⟩
    refine selectedJob_valid hvalid hactive hfits hsettledNext.selection ?_
    intro k hk
    cases hk
    exact hsettledNext.ordinal
  | @exhausted outcome terminalCode ordinal hadvance hone hpending =>
    obtain ⟨hordinal, hterminal⟩ := validateAdvance_eq_ok hadvance
    obtain ⟨hcode, hsupported⟩ := validateAdvance_code hadvance
    have hmarked := markCandidates_settled ordinal .selected hsettled
      (CandidateOutcome.admitted_of_terminal hterminal)
    rw [setOutcome_candidateRow] at hpending ⊢
    rw [nextPending_candidateRow, Option.map_eq_none_iff] at hpending
    simp only [recordCall, advanceJob, hordinal, Option.getD_some, hpending]
    refine ⟨?_, exhaustedJob_valid hvalid hactive hfits hcode hsupported, rfl, hmarked⟩
    exact { hrecords with
      state := rfl
      selected := rfl
      infoHash := rfl
      created := ⟨rfl, rfl⟩
      ordinal := rfl
      createdByJob := rfl
      errorCode := rfl
      progress := rfl
      updatedAt := rfl }
  | @deferred nextAttempt code progress hlater hprogress hcode =>
    have hzero : claim.job.state ≠ .preparing → progress = 0 := hrecords.state ▸ hdefer
    refine ⟨?_, deferredJob_valid hvalid hactive hfits hprogress hzero hcode, rfl, hsettled⟩
    exact { hrecords with
      errorCode := rfl
      progress := rfl
      updatedAt := rfl }
  | @succeed publishedObjectID validated hsnapshot =>
    have hsame := newAcquisitionJobSnapshot_same hsnapshot hvalid.request hvalid.selection
    have hended := newAcquisitionJobSnapshot_valid hsnapshot
    rw [hsame] at hended ⊢
    refine ⟨?_, valid_updatedAt hended ⟨hfits.later, hfits.nonzero⟩, rfl, hsettled⟩
    exact { hrecords with
      state := rfl
      published := rfl
      errorCode := rfl
      progress := rfl
      updatedAt := rfl }
  | @fail code manualReview validated hsnapshot =>
    have hsame := newAcquisitionJobSnapshot_same hsnapshot hvalid.request hvalid.selection
    have hended := newAcquisitionJobSnapshot_valid hsnapshot
    rw [hsame, ← hvalid.unpublished hactive] at hended
    refine ⟨?_, valid_updatedAt hended ⟨hfits.later, hfits.nonzero⟩, rfl, hsettled⟩
    exact { hrecords with
      state := rfl
      errorCode := rfl
      updatedAt := rfl }

end Books

end BlackPearl.JobStore
