import BlackPearl.JobStore.Operations

/-!
# What a transition does

The seven transitions as one family, `runCall`, and their specification: a call that returns an error
leaves both tables as they were (`runCall_error`), and a call that succeeds holds the lease of its
claim and changes the row and the candidates of its job, and nothing else, in the way that `Change`
lists (`runCall_ok`). Every invariant of the store is derived from these two.
-/

set_option autoImplicit false

namespace BlackPearl.JobStore

open BlackPearl.Library BlackPearl.Domain BlackPearl.Acquisition

/-! ## Statements -/

section Statements

theorem writeJob_eq_ok {store written : Tables} {row : JobRow}
    (h : store.writeJob row = .ok written) :
    written = { store with jobs := store.jobs.insert row.id row } ∧ row.checks = true ∧
      store.intentTaken row = false := by
  unfold Tables.writeJob at h
  split at h
  · next hchecks => exact ⟨(Except.ok.inj h).symm, hchecks⟩
  · cases h

theorem insertCandidate_eq_ok {store written : Tables} {id : String} {row : CandidateRow}
    (h : store.insertCandidate id row = .ok written) : written.jobs = store.jobs ∧
      ∀ id', written.candidatesOf id' =
        if id' = id then store.candidatesOf id ++ [row] else store.candidatesOf id' := by
  unfold Tables.insertCandidate at h
  split at h
  · cases h
    refine ⟨rfl, fun id' => ?_⟩
    simp only [Tables.candidatesOf, Table.lookup_insert]
    split <;> rfl
  · cases h

theorem updateCandidates_eq_ok {store written : Tables} {id : String} {guard : CandidateRow → Bool}
    {outcome : CandidateOutcome} {rows : ℕ}
    (h : store.updateCandidates id guard outcome = .ok (written, rows)) :
    written.jobs = store.jobs ∧ rows = (store.candidatesOf id).countP guard ∧
      ∀ id', written.candidatesOf id' = if id' = id then
        Tables.setOutcome guard outcome (store.candidatesOf id) else store.candidatesOf id' := by
  unfold Tables.updateCandidates at h
  split at h
  · next hzero =>
    cases h
    refine ⟨rfl, hzero.symm, fun id' => ?_⟩
    split
    · next heq =>
      -- no row satisfies the guard, so the update is the identity
      rw [List.countP_eq_zero] at hzero
      have hsame : ∀ r ∈ store.candidatesOf id,
          (if guard r then { r with outcome := outcome } else r) = r :=
        fun r hr => if_neg (hzero r hr)
      rw [heq, Tables.setOutcome, List.map_congr_left hsame, List.map_id']
    · rfl
  · split at h
    · cases h
      refine ⟨rfl, rfl, fun id' => ?_⟩
      simp only [Tables.candidatesOf, Table.lookup_insert]
      split <;> rfl
    · cases h

variable [TextTables]

theorem insertCandidates_eq_ok {id : String} : ∀ {candidates : List JobCandidate}
    {store written : Tables}, store.insertCandidates id candidates = .ok written →
    written.jobs = store.jobs ∧ ∀ id', written.candidatesOf id' =
      if id' = id then store.candidatesOf id ++ candidates.map candidateRow
      else store.candidatesOf id'
  | [], store, written, h => by
      cases h
      refine ⟨rfl, fun id' => ?_⟩
      split
      · next heq => simp [heq]
      · rfl
  | candidate :: rest, store, written, h => by
      unfold Tables.insertCandidates at h
      split at h
      · cases h
      · next inserted hinserted =>
        obtain ⟨hjobs, hrows⟩ := insertCandidate_eq_ok hinserted
        obtain ⟨hjobs', hrows'⟩ := insertCandidates_eq_ok h
        refine ⟨hjobs'.trans hjobs, fun id' => ?_⟩
        rw [hrows', hrows, hrows]
        split
        · simp
        · rfl

/-- The lease under which a call may change the row of its job. -/
structure HoldsLease (claim : AcquisitionJobClaim) (now : Time) (states : List JobState)
    (row : JobRow) : Prop where
  version : row.leaseVersion = claim.leaseVersion
  unexpired : unixMilli now < row.leaseUntilUnixMs
  state : row.state ∈ states

theorem leased_iff {claim : AcquisitionJobClaim} {now : Time} {states : List JobState}
    {row : JobRow} : leased claim now states row = true ↔ HoldsLease claim now states row := by
  simp only [leased, Bool.and_eq_true, decide_eq_true_eq, and_assoc]
  exact ⟨fun ⟨h₁, h₂, h₃⟩ => ⟨h₁, h₂, h₃⟩, fun h => ⟨h.version, h.unexpired, h.state⟩⟩

/-- An `UPDATE` of a leased row changes nothing, or finds the row under its lease. -/
theorem updateLeased_eq_ok {store tables : Tables} {claim : AcquisitionJobClaim} {now : Time}
    {states : List JobState} {assign : JobRow → JobRow} {rows : ℕ}
    (h : store.updateLeased claim now states assign = .ok (tables, rows)) :
    (tables = store ∧ rows = 0) ∨ ∃ row, rows = 1 ∧ store.jobs.lookup claim.job.id = some row ∧
      HoldsLease claim now states row ∧
      tables = { store with
        jobs := store.jobs.insert (released now (assign row)).id (released now (assign row)) } := by
  unfold Tables.updateLeased Tables.updateJob at h
  split at h
  · cases h
    exact Or.inl ⟨rfl, rfl⟩
  · next row hrow =>
    split at h
    · cases h
      exact Or.inl ⟨rfl, rfl⟩
    · next hguard =>
      split at h
      · cases h
      · next written hwritten =>
        cases h
        rw [Bool.not_eq_false] at hguard
        exact Or.inr ⟨row, rfl, hrow, leased_iff.1 hguard, (writeJob_eq_ok hwritten).1⟩

/-- A single `UPDATE` under a lease. -/
theorem transitionWithStates_ok {store t : Tables} {claim : AcquisitionJobClaim}
    {states : List JobState} {now : Time} {assign : JobRow → JobRow}
    (h : transitionWithStates store claim states now assign = (t, .ok ())) :
    validateTransitionInput claim now = .ok () ∧ ∃ row, store.jobs.lookup claim.job.id = some row ∧
      HoldsLease claim now states row ∧ t = { store with
        jobs := store.jobs.insert (released now (assign row)).id (released now (assign row)) } := by
  unfold transitionWithStates at h
  split at h
  · cases h
  · next hinput =>
    split at h
    · cases h
    · next written rows hupdate =>
      split at h
      · cases h
      · next hone =>
        cases h
        rcases updateLeased_eq_ok hupdate with ⟨-, hzero⟩ | ⟨row, -, hrow, hlease, hwritten⟩
        · omega
        · exact ⟨hinput, row, hrow, hlease, hwritten⟩

theorem transitionWithStates_error {store t : Tables} {claim : AcquisitionJobClaim}
    {states : List JobState} {now : Time} {assign : JobRow → JobRow} {e : StoreError}
    (h : transitionWithStates store claim states now assign = (t, .error e)) : t = store := by
  unfold transitionWithStates at h
  split at h
  · cases h
    rfl
  · split at h
    · cases h
      rfl
    · next written rows hupdate =>
      split at h
      · next hone =>
        cases h
        rcases updateLeased_eq_ok hupdate with ⟨hsame, -⟩ | ⟨row, hrows, -⟩
        · exact hsame
        · exact absurd hrows hone
      · cases h

end Statements

/-! ## Leases -/

section Leasing

/-- A lease is of an eligible job, and changes the columns of the lease. -/
theorem leaseNext_eq_ok {store written : Tables} {now : Time} {leaseDuration : ℤ} {row' : JobRow}
    (h : leaseNext store now leaseDuration = .ok (written, row')) :
    ∃ id row, store.jobs.lookup id = some row ∧ eligible (unixMilli now) row = true ∧
      row' = leasedRow row now leaseDuration ∧ now ≠ zeroTime ∧
      written = { store with jobs := store.jobs.insert row'.id row' } := by
  unfold leaseNext at h
  split_ifs at h with hnow hduration
  split at h
  · cases h
  · next row hrow =>
    split at h
    · cases h
    · next result hwritten =>
      cases h
      have hmem := List.argmin_mem hrow
      obtain ⟨hentry, heligible⟩ := List.mem_filter.1 hmem
      obtain ⟨⟨id, row⟩, hin, rfl⟩ := List.mem_map.1 hentry
      exact ⟨id, row, (Table.lookup_eq_some_iff_mem _ _ _).2 hin, heligible, rfl, hnow,
        (writeJob_eq_ok hwritten).1⟩

end Leasing

/-! ## Submissions -/

section Submitting

variable [TextTables] [URLParser]

/-- A submission that inserts a job: the intent has no active job, and the identifier is new. -/
structure Submitted (store t : Tables) (id : String) (request : SearchRequest) (now : Time)
    (queued : AcquisitionJob) : Prop where
  time : now ≠ zeroTime
  snapshot : newAcquisitionJobSnapshot (queuedSnapshot id request now) = .ok queued
  free : store.findActive (jobIntentKey queued.request) = none
  fresh : store.jobs.lookup queued.id = none
  written : t = { store with
    jobs := store.jobs.insert queued.id (queuedRow queued (unixMilli now)) }

/-- `Submit` returns the active job of the intent, inserts a new one, or fails and changes nothing. -/
theorem submit_cases {store t : Tables} {id : String} {request : SearchRequest} {now : Time}
    {r : Except StoreError (AcquisitionJob × Bool)} (h : submit store id request now = (t, r)) :
    (t = store ∧ ∃ e, r = .error e) ∨
      (t = store ∧ ∃ queued row job, newAcquisitionJobSnapshot (queuedSnapshot id request now) =
        .ok queued ∧ store.findActive (jobIntentKey queued.request) = some row ∧
        queryJob row = .ok job ∧ r = .ok (job, false)) ∨
      ∃ queued, Submitted store t id request now queued ∧ r = .ok (queued, true) := by
  unfold submit at h
  split at h
  · cases h
    exact Or.inl ⟨rfl, _, rfl⟩
  · next hnow =>
    split at h
    · cases h
      exact Or.inl ⟨rfl, _, rfl⟩
    · next queued hqueued =>
      rw [within_eq_ok] at hqueued
      simp only [Tables.begin, Transaction.rollback, Transaction.commit] at h
      split at h
      · next row hrow =>
        split at h
        · cases h
          exact Or.inl ⟨rfl, _, rfl⟩
        · next job hjob =>
          rw [within_eq_ok] at hjob
          cases h
          exact Or.inr (Or.inl ⟨rfl, queued, row, job, hqueued, hrow, hjob, rfl⟩)
      · next hfree =>
        split at h
        · cases h
          exact Or.inl ⟨rfl, _, rfl⟩
        · next tables hinserted =>
          cases h
          unfold Tables.insertJob at hinserted
          split at hinserted
          · cases hinserted
          · next hfresh =>
            rw [Option.not_isSome_iff_eq_none] at hfresh
            exact Or.inr (Or.inr ⟨queued, ⟨hnow, hqueued, hfree, hfresh,
              (writeJob_eq_ok hinserted).1⟩, rfl⟩)

end Submitting

/-! ## Calls -/

section Transitions

variable [TextTables] [URLParser]

/-- The transitions with their arguments; `Attach` is `AttachPrepared` of an object that the job has
not created. -/
inductive TransitionCall
  | select (selection : JobSelection)
  | plan (candidates : List JobCandidate)
  | attachPrepared (created : CreatedObject) (createdByJob : Bool)
  | advance (outcome : CandidateOutcome) (terminalCode : JobErrorCode)
  | deferred (nextAttempt : Time) (code : JobErrorCode) (progress : ℤ)
  | succeed (publishedObjectID : String)
  | fail (code : JobErrorCode) (manualReview : Bool)
  deriving DecidableEq

/-- Forget the value of a result. -/
def discard {α : Type} : Tables × Except StoreError α → Tables × Except StoreError Unit
  | (store, .ok _) => (store, .ok ())
  | (store, .error e) => (store, .error e)

/-- Run a transition. -/
def runCall (store : Tables) (claim : AcquisitionJobClaim) (call : TransitionCall) (now : Time) :
    Tables × Except StoreError Unit :=
  match call with
  | .select selection => select store claim selection now
  | .plan candidates => plan store claim candidates now
  | .attachPrepared created createdByJob => attachPrepared store claim created createdByJob now
  | .advance outcome terminalCode => discard (advance store claim outcome terminalCode now)
  | .deferred nextAttempt code progress => deferred store claim nextAttempt code progress now
  | .succeed publishedObjectID => succeed store claim publishedObjectID now
  | .fail code manualReview => fail store claim code manualReview now

/-- The states in which a transition finds its job. -/
def callStates (claim : AcquisitionJobClaim) : TransitionCall → List JobState
  | .select _ => [.queued]
  | .plan _ => [.queued]
  | .attachPrepared _ _ => [.selected]
  | .advance _ _ => [claim.job.state]
  | .deferred _ _ _ => anyActive
  | .succeed _ => [.preparing]
  | .fail _ _ => anyActive

/-- The changes that a transition makes to the row and the candidate rows of its job. -/
inductive Change (claim : AcquisitionJobClaim) (now : Time) (row : JobRow)
    (rows : List CandidateRow) : TransitionCall → JobRow → List CandidateRow → Prop
  | select {selection validated : JobSelection}
      (hvalid : validateSelection selection = .ok validated) :
      Change claim now row rows (.select selection) (assignSelect validated row) rows
  | plan {candidates validated : List JobCandidate} {first : JobCandidate}
      (hvalid : validateCandidatePlan candidates = .ok validated)
      (hfirst : validated.head? = some first) :
      Change claim now row rows (.plan candidates) (assignPlan first.selection row)
        (rows ++ validated.map candidateRow)
  | attachPrepared {created : CreatedObject} {createdByJob : Bool}
      (hvalid : newCreatedObject created.backing.provider created.backing.objectID = .ok created) :
      Change claim now row rows (.attachPrepared created createdByJob)
        (assignAttach created createdByJob row) rows
  | advance {outcome : CandidateOutcome} {terminalCode : JobErrorCode} {ordinal : ℤ}
      {pending : CandidateRow} {next : JobCandidate}
      (hvalid : validateAdvance claim outcome terminalCode now = .ok ordinal)
      (hone : rows.countP (isCandidate ordinal .selected) = 1)
      (hpending : nextPending (Tables.setOutcome (isCandidate ordinal .selected) outcome rows) = some pending)
      (hnext : queryCandidate pending = .ok next) :
      Change claim now row rows (.advance outcome terminalCode) (assignAdvance next row)
        (Tables.setOutcome (isCandidate next.ordinal .pending) .selected
          (Tables.setOutcome (isCandidate ordinal .selected) outcome rows))
  | exhausted {outcome : CandidateOutcome} {terminalCode : JobErrorCode} {ordinal : ℤ}
      (hvalid : validateAdvance claim outcome terminalCode now = .ok ordinal)
      (hone : rows.countP (isCandidate ordinal .selected) = 1)
      (hpending : nextPending (Tables.setOutcome (isCandidate ordinal .selected) outcome rows) = none) :
      Change claim now row rows (.advance outcome terminalCode) (assignExhausted terminalCode row)
        (Tables.setOutcome (isCandidate ordinal .selected) outcome rows)
  | deferred {nextAttempt : Time} {code : JobErrorCode} {progress : ℤ}
      (hlater : now < nextAttempt) (hprogress : 0 ≤ progress ∧ progress < 100)
      (hcode : code = .none ∨ code = .providerUnavailable ∨ code = .unauthorized) :
      Change claim now row rows (.deferred nextAttempt code progress)
        (assignDefer nextAttempt code progress row) rows
  | succeed {publishedObjectID : String} {validated : AcquisitionJob}
      (hvalid : newAcquisitionJobSnapshot { claim.job with
        state := .succeeded
        publishedObjectID := publishedObjectID
        errorCode := .none
        progress := 100
        updatedAt := now } = .ok validated) :
      Change claim now row rows (.succeed publishedObjectID)
        (assignSucceed validated.publishedObjectID row) rows
  | fail {code : JobErrorCode} {manualReview : Bool} {validated : AcquisitionJob}
      (hvalid : newAcquisitionJobSnapshot { claim.job with
        state := failureState manualReview
        publishedObjectID := ""
        errorCode := code
        updatedAt := now } = .ok validated) :
      Change claim now row rows (.fail code manualReview)
        (assignFail (failureState manualReview) code row) rows

theorem validateAdvance_state {claim : AcquisitionJobClaim} {outcome : CandidateOutcome}
    {terminalCode : JobErrorCode} {now : Time} {ordinal : ℤ}
    (h : validateAdvance claim outcome terminalCode now = .ok ordinal) :
    claim.job.state = .selected ∨ claim.job.state = .preparing := by
  unfold validateAdvance at h
  split at h
  · cases h
  · simp only [bind_eq_ok, pure_eq_ok, require_eq_ok] at h
    obtain ⟨_, hstate, _⟩ := h
    exact hstate

/-- No change touches the identity, the lease version or the intent of the row. -/
theorem Change.frame {claim : AcquisitionJobClaim} {now : Time} {row row' : JobRow}
    {rows rows' : List CandidateRow} {call : TransitionCall}
    (h : Change claim now row rows call row' rows') :
    row'.id = row.id ∧ row'.leaseVersion = row.leaseVersion ∧ row'.intentKey = row.intentKey ∧
      row'.request = row.request ∧ row'.createdUnixMs = row.createdUnixMs := by
  cases h <;> exact ⟨rfl, rfl, rfl, rfl, rfl⟩

/-- A transition finds its job before a terminal stage. -/
theorem HoldsLease.active {claim : AcquisitionJobClaim} {now : Time} {row row' : JobRow}
    {rows rows' : List CandidateRow} {call : TransitionCall}
    (hlease : HoldsLease claim now (callStates claim call) row)
    (h : Change claim now row rows call row' rows') : row.state.active = true := by
  have hstate := hlease.state
  cases h with
  | select hvalid | plan hvalid hfirst | attachPrepared hvalid | succeed hvalid =>
    simp only [callStates, List.mem_singleton] at hstate
    rw [hstate]
    rfl
  | deferred hlater hprogress hcode | fail hvalid =>
    simp only [callStates, anyActive, List.mem_cons, List.not_mem_nil, or_false] at hstate
    rcases hstate with hstate | hstate | hstate <;> rw [hstate] <;> rfl
  | advance hvalid hone hpending hnext | exhausted hvalid hone hpending =>
    -- `Advance` checks the state of its claim, which is the state that it looks for
    simp only [callStates, List.mem_singleton] at hstate
    rw [hstate]
    rcases validateAdvance_state hvalid with hselected | hpreparing
    · rw [hselected]
      rfl
    · rw [hpreparing]
      rfl

/-- What a successful call has done. -/
structure Committed (store t : Tables) (claim : AcquisitionJobClaim) (call : TransitionCall)
    (now : Time) (row row' : JobRow) (rows' : List CandidateRow) : Prop where
  input : validateTransitionInput claim now = .ok ()
  lookup : store.jobs.lookup claim.job.id = some row
  lease : HoldsLease claim now (callStates claim call) row
  change : Change claim now row (store.candidatesOf claim.job.id) call row' rows'
  jobs : t.jobs = store.jobs.insert (released now row').id (released now row')
  candidates : ∀ id, t.candidatesOf id = if id = claim.job.id then rows' else store.candidatesOf id

/-- A transition that is one `UPDATE` and leaves the candidates alone. -/
theorem committed_of_transition {store t : Tables} {claim : AcquisitionJobClaim} {now : Time}
    {call : TransitionCall} {assign : JobRow → JobRow}
    (h : transitionWithStates store claim (callStates claim call) now assign = (t, .ok ()))
    (hchange : ∀ row, Change claim now row (store.candidatesOf claim.job.id) call (assign row)
      (store.candidatesOf claim.job.id)) :
    ∃ row row' rows', Committed store t claim call now row row' rows' := by
  obtain ⟨hinput, row, hrow, hlease, rfl⟩ := transitionWithStates_ok h
  exact ⟨row, assign row, store.candidatesOf claim.job.id, {
    input := hinput
    lookup := hrow
    lease := hlease
    change := hchange row
    jobs := rfl
    candidates := fun id => by
      split
      · next heq => rw [heq]; rfl
      · rfl }⟩

theorem validateCandidatesFrom_length : ∀ {candidates validated : List JobCandidate}
    {index : ℕ} {identities : List (SelectionKind × String × String)},
    validateCandidatesFrom index identities candidates = .ok validated →
      validated.length = candidates.length
  | [], _, _, _, h => by
      cases h
      rfl
  | candidate :: rest, validated, index, identities, h => by
      simp only [validateCandidatesFrom, bind_eq_ok, pure_eq_ok] at h
      obtain ⟨first, _, _, _, others, hothers, rfl⟩ := h
      simp [validateCandidatesFrom_length hothers]

theorem validateCandidatePlan_ne_nil {candidates : List JobCandidate} :
    validateCandidatePlan candidates ≠ .ok [] := by
  intro h
  simp only [validateCandidatePlan, bind_eq_ok, require_eq_ok] at h
  obtain ⟨_, hlength, hvalidated⟩ := h
  have hzero := validateCandidatesFrom_length hvalidated
  exact hlength (Or.inl hzero.symm)

theorem validateAdvance_input {claim : AcquisitionJobClaim} {outcome : CandidateOutcome}
    {terminalCode : JobErrorCode} {now : Time} {ordinal : ℤ}
    (h : validateAdvance claim outcome terminalCode now = .ok ordinal) :
    validateTransitionInput claim now = .ok () := by
  unfold validateAdvance at h
  split at h
  · cases h
  · simp only [bind_eq_ok, pure_eq_ok] at h
    obtain ⟨_, _, _, _, _, _, _, _, _, _, _, hinput, _⟩ := h
    exact hinput

theorem plan_ok {store t : Tables} {claim : AcquisitionJobClaim} {candidates : List JobCandidate}
    {now : Time} (h : plan store claim candidates now = (t, .ok ())) :
    ∃ row row' rows', Committed store t claim (.plan candidates) now row row' rows' := by
  unfold plan at h
  split at h
  · cases h
  · next validated hvalid =>
    split at h
    · cases h
    · next hinput =>
      simp only [Tables.begin, Transaction.rollback, Transaction.commit] at h
      split at h
      · cases h
      · next inserted hinserted =>
        obtain ⟨hjobs, hrows⟩ := insertCandidates_eq_ok hinserted
        split at h
        · cases h
        · next tables n hupdate =>
          split at h
          · cases h
          · next hone =>
            cases h
            rcases updateLeased_eq_ok hupdate with ⟨-, hzero⟩ | ⟨row, -, hrow, hlease, rfl⟩
            · omega
            · rw [hjobs] at hrow ⊢
              -- a plan has at least one candidate
              cases hhead : validated with
              | nil =>
                rw [hhead] at hvalid
                exact absurd hvalid validateCandidatePlan_ne_nil
              | cons first rest =>
                refine ⟨row, assignPlan first.selection row, _, hinput, hrow, hlease,
                  .plan hvalid (by rw [hhead]; rfl), ?_, ?_⟩
                · simp
                · intro id
                  have hid := hrows id
                  simpa [Tables.candidatesOf] using hid

theorem advance_ok {store t : Tables} {claim : AcquisitionJobClaim} {outcome : CandidateOutcome}
    {terminalCode : JobErrorCode} {now : Time} {b : Bool}
    (h : advance store claim outcome terminalCode now = (t, .ok b)) :
    ∃ row row' rows', Committed store t claim (.advance outcome terminalCode) now row row' rows' := by
  unfold advance at h
  split at h
  · cases h
  · next ordinal hvalid =>
    have hinput := validateAdvance_input hvalid
    simp only [Tables.begin, Transaction.rollback] at h
    split at h
    · cases h
    · next tables n hrecord =>
      obtain ⟨hjobs, hcount, hrows⟩ := updateCandidates_eq_ok hrecord
      split at h
      · cases h
      · next hone =>
        have hrecorded := hrows claim.job.id
        rw [if_pos rfl] at hrecorded
        have hselected : (store.candidatesOf claim.job.id).countP (isCandidate ordinal .selected) = 1 := by
          omega
        unfold advanceSelection at h
        simp only [Transaction.rollback, Transaction.commit, hrecorded] at h
        split at h
        · next hpending =>
          -- no candidate is left
          split at h
          · cases h
          · next final k hupdate =>
            split at h
            · cases h
            · next hwritten =>
              cases h
              rcases updateLeased_eq_ok hupdate with ⟨-, hzero⟩ | ⟨row, -, hrow, hlease, rfl⟩
              · omega
              · rw [hjobs] at hrow
                exact ⟨row, _, _, hinput, hrow, hlease, .exhausted hvalid hselected hpending,
                  by simp [hjobs], hrows⟩
        · next pending hpending =>
          split at h
          · cases h
          · next next hnext =>
            rw [within_eq_ok] at hnext
            split at h
            · cases h
            · next chosen k hchosen =>
              obtain ⟨hjobs', -, hrows'⟩ := updateCandidates_eq_ok hchosen
              split at h
              · cases h
              · next final k' hupdate =>
                split at h
                · cases h
                · next hwritten =>
                  cases h
                  rcases updateLeased_eq_ok hupdate with ⟨-, hzero⟩ | ⟨row, -, hrow, hlease, rfl⟩
                  · omega
                  · rw [hjobs', hjobs] at hrow
                    refine ⟨row, _, _, hinput, hrow, hlease, .advance hvalid hselected hpending hnext,
                      by simp [hjobs', hjobs], fun id => ?_⟩
                    have hid := hrows' id
                    simp only [Tables.candidatesOf] at hid hrows hrecorded ⊢
                    rw [hid, hrecorded]
                    split
                    · rfl
                    · next hne => rw [hrows id, if_neg hne]

theorem plan_error {store t : Tables} {claim : AcquisitionJobClaim} {candidates : List JobCandidate}
    {now : Time} {e : StoreError} (h : plan store claim candidates now = (t, .error e)) :
    t = store := by
  unfold plan at h
  split at h
  · cases h
    rfl
  · split at h
    · cases h
      rfl
    · simp only [Tables.begin, Transaction.rollback, Transaction.commit] at h
      split at h
      · cases h
        rfl
      · split at h
        · cases h
          rfl
        · split at h
          · cases h
            rfl
          · cases h

theorem advanceSelection_error {transaction : Transaction} {t : Tables} {claim : AcquisitionJobClaim}
    {terminalCode : JobErrorCode} {now : Time} {e : StoreError}
    (h : advanceSelection transaction claim terminalCode now = (t, .error e)) :
    t = transaction.before := by
  unfold advanceSelection at h
  simp only [Transaction.rollback, Transaction.commit] at h
  split at h
  · split at h
    · cases h
      rfl
    · split at h
      · cases h
        rfl
      · cases h
  · split at h
    · cases h
      rfl
    · split at h
      · cases h
        rfl
      · split at h
        · cases h
          rfl
        · split at h
          · cases h
            rfl
          · cases h

theorem advance_error {store t : Tables} {claim : AcquisitionJobClaim} {outcome : CandidateOutcome}
    {terminalCode : JobErrorCode} {now : Time} {e : StoreError}
    (h : advance store claim outcome terminalCode now = (t, .error e)) : t = store := by
  unfold advance at h
  split at h
  · cases h
    rfl
  · simp only [Tables.begin, Transaction.rollback] at h
    split at h
    · cases h
      rfl
    · split at h
      · cases h
        rfl
      · exact advanceSelection_error h

/-- A successful call holds its lease, and changes the row and the candidates of its job as `Change`
says. -/
theorem runCall_ok {store t : Tables} {claim : AcquisitionJobClaim} {call : TransitionCall}
    {now : Time} (h : runCall store claim call now = (t, .ok ())) :
    ∃ row row' rows', Committed store t claim call now row row' rows' := by
  cases call with
  | select selection =>
    simp only [runCall, select] at h
    split at h
    · cases h
    · next validated hvalid =>
      rw [within_eq_ok] at hvalid
      exact committed_of_transition h fun _ => .select hvalid
  | plan candidates => exact plan_ok h
  | attachPrepared created createdByJob =>
    simp only [runCall, attachPrepared] at h
    split at h
    · cases h
    · next validated hvalid =>
      rw [within_eq_ok] at hvalid
      obtain rfl := newCreatedObject_eq_ok hvalid
      exact committed_of_transition h fun _ => .attachPrepared hvalid
  | advance outcome terminalCode =>
    simp only [runCall] at h
    cases hadvance : advance store claim outcome terminalCode now with
    | mk s r =>
      rw [hadvance] at h
      cases r with
      | error e => cases h
      | ok b =>
        cases h
        exact advance_ok hadvance
  | deferred nextAttempt code progress =>
    simp only [runCall, deferred] at h
    split_ifs at h with hlater hprogress hcode
    · cases h
    · cases h
    · cases h
    · refine committed_of_transition h fun _ => .deferred ?_ ?_ ?_
      · exact Int.not_le.1 (not_or.1 hlater).2
      · omega
      · tauto
  | succeed publishedObjectID =>
    simp only [runCall, succeed] at h
    split at h
    · cases h
    · next validated hvalid =>
      rw [within_eq_ok] at hvalid
      exact committed_of_transition h fun _ => .succeed hvalid
  | fail code manualReview =>
    simp only [runCall, fail] at h
    split at h
    · cases h
    · next validated hvalid =>
      rw [within_eq_ok] at hvalid
      exact committed_of_transition h fun _ => .fail hvalid

/-- A call that fails leaves both tables as they were. -/
theorem runCall_error {store t : Tables} {claim : AcquisitionJobClaim} {call : TransitionCall}
    {now : Time} {e : StoreError} (h : runCall store claim call now = (t, .error e)) : t = store := by
  cases call with
  | select selection =>
    simp only [runCall, select] at h
    split at h
    · cases h
      rfl
    · exact transitionWithStates_error h
  | plan candidates => exact plan_error h
  | attachPrepared created createdByJob =>
    simp only [runCall, attachPrepared] at h
    split at h
    · cases h
      rfl
    · exact transitionWithStates_error h
  | advance outcome terminalCode =>
    simp only [runCall] at h
    cases hadvance : advance store claim outcome terminalCode now with
    | mk s r =>
      rw [hadvance] at h
      cases r with
      | error e =>
        cases h
        exact advance_error hadvance
      | ok b => cases h
  | deferred nextAttempt code progress =>
    simp only [runCall, deferred] at h
    split_ifs at h
    · cases h
      rfl
    · cases h
      rfl
    · cases h
      rfl
    · exact transitionWithStates_error h
  | succeed publishedObjectID =>
    simp only [runCall, succeed] at h
    split at h
    · cases h
      rfl
    · exact transitionWithStates_error h
  | fail code manualReview =>
    simp only [runCall, fail] at h
    split at h
    · cases h
      rfl
    · exact transitionWithStates_error h

end Transitions

end BlackPearl.JobStore
