import BlackPearl.JobStore.JobBook

/-!
# Stored jobs are read as they were recorded

The tables stand for a `JobBook` at every point of a sequence of calls, and a call that returns no error
moves the book as it records (`stored_jobs_decode`): every row is read as the job or the candidate in
the book, so that `Get`, `List`, `Candidates` and `Claim` find what earlier calls recorded.

A `Defer` that gives a progress to a job without a provider object writes a row that the readers refuse
(`deferred_progress_unreadable`).
-/

set_option autoImplicit false

namespace BlackPearl.JobStore

open BlackPearl.Library BlackPearl.Domain BlackPearl.Acquisition

section Decoding

variable [TextTables] [URLParser]

/-! ## Calls and what they record -/

/-- A call of a sequence whose times do not decrease. -/
def SequentialCall (s : StoreRun) (a : StoreLabel) : Prop :=
  isCall a = true ∧ ∀ now ∈ labelTime a, s.clock ≤ now

/-- A call that commits while it holds its lease fits the stage of its job. -/
def FitsStage (s : StoreRun) : StoreLabel → Prop
  | .call position call now => ∀ claim ∈ s.claims[position]?, ∀ row ∈ s.store.jobs.lookup claim.job.id,
      leased claim now (callStates claim call) row = true → DeferFits row call
  | _ => True

/-- A call that leaves every row readable: it is used in time, not in the first millisecond of year 1,
and gives a progress only to a job with a provider object. -/
def ReadableCall (s : StoreRun) (a : StoreLabel) : Prop :=
  SequentialCall s a ∧ (∀ now ∈ labelTime a, stamp now ≠ zeroTime) ∧ Punctual s a ∧ FitsStage s a

instance (row : JobRow) (call : TransitionCall) : Decidable (DeferFits row call) :=
  match call with
  | .deferred _ _ progress => inferInstanceAs (Decidable (row.state ≠ .preparing → progress = 0))
  | .select _ | .plan _ | .attachPrepared _ _ | .advance _ _ | .succeed _ | .fail _ _ => .isTrue trivial

instance (s : StoreRun) (a : StoreLabel) : Decidable (SequentialCall s a) :=
  inferInstanceAs (Decidable (isCall a = true ∧ ∀ now ∈ labelTime a, s.clock ≤ now))

instance (s : StoreRun) (id : String) (version : ℤ) : Decidable (IsCommitted s id version) :=
  inferInstanceAs (Decidable (∃ e ∈ s.committed, e.job = id ∧ e.version = version))

instance (s : StoreRun) (a : StoreLabel) : Decidable (Punctual s a) :=
  match a with
  | .call position _ now => inferInstanceAs (Decidable (∀ claim ∈ s.claims[position]?,
      0 ≤ unixMilli now ∨ ¬ IsCommitted s claim.job.id claim.leaseVersion))
  | .submit _ _ _ | .claim _ _ | .claimUpdate _ _ _ | .claimRead _ | .claimLost _ => .isTrue trivial

instance (s : StoreRun) (a : StoreLabel) : Decidable (FitsStage s a) :=
  match a with
  | .call position call now => inferInstanceAs (Decidable (∀ claim ∈ s.claims[position]?,
      ∀ row ∈ s.store.jobs.lookup claim.job.id,
        leased claim now (callStates claim call) row = true → DeferFits row call))
  | .submit _ _ _ | .claim _ _ | .claimUpdate _ _ _ | .claimRead _ | .claimLost _ => .isTrue trivial

instance (s : StoreRun) (a : StoreLabel) : Decidable (ReadableCall s a) :=
  inferInstanceAs (Decidable (SequentialCall s a ∧ (∀ now ∈ labelTime a, stamp now ≠ zeroTime) ∧
    Punctual s a ∧ FitsStage s a))

/-- What the result of `Submit` records: a new job. -/
def recordedSubmit (book : JobBook) (now : Time) : Except StoreError (AcquisitionJob × Bool) → JobBook
  | .ok (job, true) => book.record job.id (submittedJob job now) []
  | .ok (_, false) | .error _ => book

/-- What the result of `Claim` records: one more attempt. -/
def recordedClaim (book : JobBook) (now : Time) : Except StoreError AcquisitionJobClaim → JobBook
  | .ok c => (book.job c.job.id).elim book fun job =>
      book.record c.job.id (claimedJob job now) (book.plan c.job.id)
  | .error _ => book

/-- What the result of a transition records. -/
def recordedCall (book : JobBook) (id : String) (call : TransitionCall) (now : Time) :
    Except StoreError Unit → JobBook
  | .ok () => (book.job id).elim book fun job =>
      book.record id (recordCall job (book.plan id) now call).1 (recordCall job (book.plan id) now call).2
  | .error _ => book

/-- What a call records in the book. -/
def recordedStep (s : StoreRun) (book : JobBook) : StoreLabel → JobBook
  | .submit id request now => recordedSubmit book now (submit s.store id request now).2
  | .claim now leaseDuration => recordedClaim book now (claim s.store now leaseDuration).2
  | .call position call now => (s.claims[position]?).elim book fun c =>
      recordedCall book c.job.id call now (runCall s.store c call now).2
  | .claimUpdate _ _ _ | .claimRead _ | .claimLost _ => book

/-! ## The tables stand for the book -/

/-- Each row stands for its job in the book, and is not older than the clock. -/
structure BookInvariant (s : StoreRun) (book : JobBook) : Prop where
  jobs : ∀ id row, s.store.jobs.lookup id = some row → ∃ job, book.job id = some job ∧
    RecordedJob row (s.store.candidatesOf id) job (book.plan id) ∧ row.createdUnixMs ≤ unixMilli s.clock ∧
    0 ≤ row.leaseVersion
  absent : ∀ id, s.store.jobs.lookup id = none →
    book.job id = none ∧ book.plan id = [] ∧ s.store.candidatesOf id = []

variable {s t : StoreRun} {book : JobBook}

omit [TextTables] [URLParser] in
theorem unixMilli_mono {t t' : Time} (h : t ≤ t') : unixMilli t ≤ unixMilli t' :=
  Int.ediv_le_ediv (by decide) h

theorem BookInvariant.with_clock (hinv : BookInvariant s book) {now : Time} (hnow : s.clock ≤ now)
    (hstore : t.store = s.store) (hclock : t.clock = now) : BookInvariant t book := by
  constructor
  · intro id row hrow
    rw [hstore] at hrow ⊢
    obtain ⟨job, hjob, hrecorded, hcreated, hversion⟩ := hinv.jobs id row hrow
    exact ⟨job, hjob, hrecorded, hcreated.trans (hclock ▸ unixMilli_mono hnow), hversion⟩
  · rw [hstore]
    exact hinv.absent

/-- One row and its candidates are written, and stand for what is recorded. -/
theorem BookInvariant.record (hinv : BookInvariant s book) {now : Time} {id : String} (row' : JobRow)
    {job' : AcquisitionJob} {plan' : List JobCandidate} (hnow : s.clock ≤ now)
    (hjobs : ∀ id', t.store.jobs.lookup id' = if id' = id then some row' else s.store.jobs.lookup id')
    (hcandidates : ∀ id', id' ≠ id → t.store.candidatesOf id' = s.store.candidatesOf id')
    (hclock : t.clock = now) (hrecorded : RecordedJob row' (t.store.candidatesOf id) job' plan')
    (hcreated : row'.createdUnixMs ≤ unixMilli now) (hversion : 0 ≤ row'.leaseVersion) :
    BookInvariant t (book.record id job' plan') := by
  constructor
  · intro id' row hrow
    rw [hjobs] at hrow
    by_cases hid : id' = id
    · rw [if_pos hid] at hrow
      cases hrow
      subst hid
      refine ⟨job', if_pos rfl, ?_, hclock ▸ hcreated, hversion⟩
      rw [JobBook.record_plan, if_pos rfl]
      exact hrecorded
    · rw [if_neg hid] at hrow
      obtain ⟨job, hjob, hrecorded', hcreated', hversion'⟩ := hinv.jobs id' row hrow
      refine ⟨job, (if_neg hid).trans hjob, ?_, hcreated'.trans (hclock ▸ unixMilli_mono hnow), hversion'⟩
      rw [hcandidates id' hid, JobBook.record_plan, if_neg hid]
      exact hrecorded'
  · intro id' hnone
    rw [hjobs] at hnone
    by_cases hid : id' = id
    · rw [if_pos hid] at hnone
      cases hnone
    · rw [if_neg hid] at hnone
      obtain ⟨hjob, hplan, hrows⟩ := hinv.absent id' hnone
      exact ⟨(if_neg hid).trans hjob, (if_neg hid).trans hplan, (hcandidates id' hid).trans hrows⟩

/-- The time of a call fits every job that is stored. -/
theorem BookInvariant.stampFits (hinv : BookInvariant s book) {now : Time} {id : String} {row : JobRow}
    {job : AcquisitionJob} (hnow : s.clock ≤ now) (hstamp : stamp now ≠ zeroTime)
    (hrow : s.store.jobs.lookup id = some row) (hjob : book.job id = some job) : StampFits job now := by
  obtain ⟨job', hjob', hrecorded, hcreated, -⟩ := hinv.jobs id row hrow
  rw [hjob] at hjob'
  cases hjob'
  refine ⟨?_, hstamp⟩
  rw [← hrecorded.records.createdAt]
  have hle := hcreated.trans (unixMilli_mono hnow)
  exact mul_le_mul_of_nonneg_right hle (by decide)

/-- A lease keeps the row standing for the job that is claimed. -/
theorem RecordedJob.claimed {row : JobRow} {rows : List CandidateRow} {job : AcquisitionJob}
    {plan : List JobCandidate} {now : Time} (h : RecordedJob row rows job plan)
    (hfits : StampFits job now) (leaseDuration : ℤ) :
    RecordedJob (leasedRow row now leaseDuration) rows (claimedJob job now) plan where
  records := { h.records with
    attempt := congrArg (· + 1) h.records.attempt
    updatedAt := rfl }
  valid := { h.valid with
    attempt := by
      have hattempt := h.valid.attempt
      simp only [claimedJob]
      omega
    updatedAt := hfits.nonzero
    times := hfits.later }
  rows := h.rows
  settled := h.settled

/-- `Claim` returns the job of the book, unless there is nothing to lease. -/
theorem BookInvariant.claim_eq (hinv : BookInvariant s book) (hleases : LeaseInvariant s) {now : Time}
    (hnow : s.clock ≤ now) (hstamp : stamp now ≠ zeroTime) (leaseDuration : ℤ) :
    (∃ e, leaseNext s.store now leaseDuration = .error e ∧
      claim s.store now leaseDuration = (s.store, .error e)) ∨
    ∃ row job, s.store.jobs.lookup row.id = some row ∧ book.job row.id = some job ∧
      claim s.store now leaseDuration = ({ s.store with
        jobs := s.store.jobs.insert row.id (leasedRow row now leaseDuration) },
        .ok ⟨claimedJob job now, row.leaseVersion + 1⟩) := by
  unfold claim claimUpdate
  cases hnext : leaseNext s.store now leaseDuration with
  | error e => exact Or.inl ⟨e, rfl, rfl⟩
  | ok result =>
    obtain ⟨written, row'⟩ := result
    obtain ⟨id, row, hrow, heligible, rfl, -, rfl⟩ := leaseNext_eq_ok hnext
    obtain rfl := hleases.keys id row hrow
    obtain ⟨job, hjob, hrecorded, -, hversion⟩ := hinv.jobs row.id row hrow
    have hclaimed := hrecorded.claimed (hinv.stampFits hnow hstamp hrow hjob) leaseDuration
    have hread := queryJob_of_records hclaimed.records hclaimed.valid
    have hid : (claimedJob job now).id = row.id := hrecorded.records.id.symm
    refine Or.inr ⟨row, job, hrow, hjob, ?_⟩
    have hstate : (claimedJob job now).state = row.state := hrecorded.records.state.symm
    have hactive : row.state.active = true := by
      simp only [eligible, Bool.and_eq_true] at heligible
      exact heligible.1.1
    have hnonempty : (claimedJob job now).id ≠ "" := by
      intro hempty
      have hvalid := hclaimed.valid.id
      rw [hempty] at hvalid
      simp [validJobID] at hvalid
    have hclaim : newAcquisitionJobClaim (claimedJob job now) (row.leaseVersion + 1) =
        .ok ⟨claimedJob job now, row.leaseVersion + 1⟩ := by
      simp only [newAcquisitionJobClaim, bind_eq_ok, pure_eq_ok, require_eq_ok]
      exact ⟨(), hnonempty, (), by omega, (), hstate ▸ hactive, trivial⟩
    have hsecond : claimRead { s.store with
        jobs := s.store.jobs.insert row.id (leasedRow row now leaseDuration) } (claimedJob job now) =
        .ok ⟨claimedJob job now, row.leaseVersion + 1⟩ := by
      unfold claimRead
      simp only [hid, Table.lookup_insert, if_true]
      rw [show (leasedRow row now leaseDuration).leaseVersion = row.leaseVersion + 1 from rfl, hclaim]
      rfl
    simp only [hread, within]
    exact Prod.ext rfl hsecond

/-- The snapshot of a submission, with its request normalized. -/
theorem queuedSnapshot_eq_ok {id : String} {request : SearchRequest} {now : Time} {queued : AcquisitionJob}
    (h : newAcquisitionJobSnapshot (queuedSnapshot id request now) = .ok queued) :
    queued = queuedSnapshot id queued.request now := by
  simp only [newAcquisitionJobSnapshot, bind_eq_ok, pure_eq_ok, require_eq_ok, within_eq_ok] at h
  obtain ⟨_, _, request', _, _, _, _, _, _, _, _, _, selection, hselection, created, hcreated, published,
    hpublished, _, _, _, _, _, _, rfl⟩ := h
  obtain rfl := Except.ok.inj hselection
  obtain rfl := Except.ok.inj hcreated
  obtain rfl := validateOptionalPublishedObjectID_eq_ok hpublished
  rfl

/-- The row that `Submit` inserts stands for the job that it returns. -/
theorem queuedRow_recorded {id : String} {request : SearchRequest} {now : Time} {queued : AcquisitionJob}
    (h : newAcquisitionJobSnapshot (queuedSnapshot id request now) = .ok queued)
    (hstamp : stamp now ≠ zeroTime) :
    RecordedJob (queuedRow queued (unixMilli now)) [] (submittedJob queued now) [] where
  records := by
    rw [queuedSnapshot_eq_ok h]
    constructor <;> first | rfl | exact ⟨rfl, rfl⟩
  valid := { newAcquisitionJobSnapshot_valid h with
    createdAt := hstamp
    updatedAt := hstamp
    times := le_refl _ }
  rows := rfl
  settled := by simp

theorem BookInvariant.submit_step (hinv : BookInvariant s book) {id : String} {request : SearchRequest}
    {now : Time} (hnow : s.clock ≤ now) (hstamp : stamp now ≠ zeroTime) :
    BookInvariant { s with store := (submit s.store id request now).1, clock := now }
      (recordedSubmit book now (submit s.store id request now).2) := by
  rcases submit_cases (Prod.eta (submit s.store id request now)).symm with
    ⟨hsame, e, hr⟩ | ⟨hsame, queued, row, job, -, -, -, hr⟩ | ⟨queued, hsubmitted, hr⟩
  · rw [hr]
    exact hinv.with_clock hnow hsame rfl
  · rw [hr]
    exact hinv.with_clock hnow hsame rfl
  · rw [hr, hsubmitted.written]
    obtain ⟨-, -, hnone⟩ := hinv.absent queued.id hsubmitted.fresh
    refine hinv.record (queuedRow queued (unixMilli now)) hnow (fun _ => Table.lookup_insert _ _ _ _) (fun _ _ => rfl) rfl ?_
      (le_refl (unixMilli now)) (le_refl 0)
    have hrows : Tables.candidatesOf { s.store with
        jobs := s.store.jobs.insert queued.id (queuedRow queued (unixMilli now)) } queued.id = [] := hnone
    rw [hrows]
    exact queuedRow_recorded hsubmitted.snapshot hstamp

theorem BookInvariant.claim_step (hinv : BookInvariant s book) (hleases : LeaseInvariant s) {now : Time}
    (hnow : s.clock ≤ now) (hstamp : stamp now ≠ zeroTime) {leaseDuration : ℤ}
    (hstore : t.store = (claim s.store now leaseDuration).1) (hclock : t.clock = now) :
    BookInvariant t (recordedClaim book now (claim s.store now leaseDuration).2) := by
  rcases hinv.claim_eq hleases hnow hstamp leaseDuration with ⟨e, -, hclaim⟩ | ⟨row, job, hrow, hjob, hclaim⟩
  · rw [hclaim] at hstore ⊢
    exact hinv.with_clock hnow hstore hclock
  · rw [hclaim] at hstore ⊢
    obtain ⟨job', hjob', hrecorded, hcreated, hversion⟩ := hinv.jobs row.id row hrow
    rw [hjob] at hjob'
    cases hjob'
    have hid : (claimedJob job now).id = row.id := hrecorded.records.id.symm
    simp only [recordedClaim, hid, hjob, Option.elim_some]
    apply hinv.record (leasedRow row now leaseDuration) hnow
    · rw [hstore]
      exact fun _ => Table.lookup_insert _ _ _ _
    · rw [hstore]
      exact fun _ _ => rfl
    · exact hclock
    · rw [hstore]
      exact hrecorded.claimed (hinv.stampFits hnow hstamp hrow hjob) leaseDuration
    · exact hcreated.trans (unixMilli_mono hnow)
    · simp only [leasedRow]
      omega

theorem BookInvariant.call_step (hinv : BookInvariant s book) (hleases : LeaseInvariant s)
    {position : ℕ} {call : TransitionCall} {now : Time} {c : AcquisitionJobClaim}
    (ha : ReadableCall s (.call position call now)) (hc : s.claims[position]? = some c)
    (hstore : t.store = (runCall s.store c call now).1) (hclock : t.clock = now) :
    BookInvariant t (recordedCall book c.job.id call now (runCall s.store c call now).2) := by
  obtain ⟨⟨-, hnow⟩, hstamp, hpunctual, hstage⟩ := ha
  cases hcall : runCall s.store c call now with
  | mk store r =>
    rw [hcall] at hstore
    cases r with
    | error e =>
      rw [runCall_error hcall] at hstore
      exact hinv.with_clock (hnow now rfl) hstore hclock
    | ok u =>
      obtain ⟨row, row', rows', hcommitted⟩ := runCall_ok hcall
      have hrow := hcommitted.lookup
      obtain ⟨job, hjob, hrecorded, hcreated, hversion⟩ := hinv.jobs c.job.id row hrow
      -- the claim is the snapshot of the row, which stands for the job in the book
      have hread := hleases.claim_snapshot hpunctual hc hrow hcommitted.lease
      rw [queryJob_of_records hrecorded.records hrecorded.valid] at hread
      obtain rfl := Except.ok.inj hread
      have hfits := hinv.stampFits (hnow now rfl) (hstamp now rfl) hrow hjob
      have hdefer := hstage c hc row hrow (leased_iff.2 hcommitted.lease)
      have hafter := hcommitted.change.recorded hrecorded hcommitted.lease hfits hdefer
      obtain ⟨hid, hkept, -, -, hkeptCreated⟩ := hcommitted.change.frame
      have hid' : (released now row').id = c.job.id := hid.trans (hleases.keys _ _ hrow)
      simp only [recordedCall, hjob, Option.elim_some]
      apply hinv.record (released now row') (hnow now rfl)
      · intro id'
        rw [hstore, hcommitted.jobs, hid']
        exact Table.lookup_insert _ _ _ _
      · intro id' hne
        rw [hstore, hcommitted.candidates, if_neg hne]
      · exact hclock
      · rw [hstore, hcommitted.candidates, if_pos rfl]
        exact hafter
      · exact (hkeptCreated.le.trans hcreated).trans (unixMilli_mono (hnow now rfl))
      · exact hkept ▸ hversion

/-- A call records in the book what it writes into the tables. -/
theorem BookInvariant.step {a : StoreLabel} (hinv : BookInvariant s book) (hleases : LeaseInvariant s)
    (ha : ReadableCall s a) (hstep : storeStep s a = some t) :
    BookInvariant t (recordedStep s book a) := by
  have hcall := ha.1.1
  cases a with
  | submit id request now =>
    cases hstep
    exact hinv.submit_step (ha.1.2 now rfl) (ha.2.1 now rfl)
  | claim now leaseDuration =>
    cases hstep
    exact hinv.claim_step hleases (ha.1.2 now rfl) (ha.2.1 now rfl) rfl rfl
  | call position call now =>
    simp only [storeStep] at hstep
    split at hstep
    · cases hstep
    · next c hc =>
      cases hstep
      simp only [recordedStep, hc, Option.elim_some]
      exact hinv.call_step hleases ha hc rfl rfl
  | claimUpdate worker now leaseDuration => cases hcall
  | claimRead worker => cases hcall
  | claimLost worker => cases hcall

/-! ## Reading -/

/-- The readers return what is in the book. -/
structure DecodesAs (s : StoreRun) (book : JobBook) : Prop where
  jobs : ∀ id, (s.store.jobs.lookup id).map queryJob = (book.job id).map .ok
  plans : ∀ id, (s.store.candidatesOf id).map queryCandidate = (book.plan id).map .ok
  get : ∀ id job, book.job id = some job → get s.store id = .ok job
  candidates : ∀ id job, book.job id = some job → candidates s.store id = .ok (book.plan id)
  list : ∀ limit, 1 ≤ limit → limit ≤ 100 → ∃ jobs, list s.store limit = .ok jobs ∧
    List.Forall₂ (fun row job => book.job row.id = some job)
      (((s.store.jobs.entries.map fun e => e.2).mergeSort listOrder).take limit.toNat) jobs
  claim : ∀ now leaseDuration, s.clock ≤ now → stamp now ≠ zeroTime →
    (∃ e, leaseNext s.store now leaseDuration = .error e ∧
      claim s.store now leaseDuration = (s.store, .error e)) ∨
    ∃ c job, (claim s.store now leaseDuration).2 = .ok c ∧ book.job c.job.id = some job ∧
      c.job = claimedJob job now

omit [TextTables] [URLParser] in
/-- Numbered rows are already in the order of their ordinals. -/
theorem NumberedFrom.mergeSort {start : ℕ} {rows : List CandidateRow} (h : NumberedFrom start rows) :
    rows.mergeSort (fun r r' => r.ordinal ≤ r'.ordinal) = rows := by
  apply List.mergeSort_of_pairwise
  induction rows generalizing start with
  | nil => exact List.Pairwise.nil
  | cons r rows ih =>
    obtain ⟨hr, hrest⟩ := h
    refine List.pairwise_cons.2 ⟨fun r' hr' => ?_, ih hrest⟩
    have hlow := (hrest.bounds r' hr').1
    have hle : r.ordinal ≤ r'.ordinal := by omega
    exact decide_eq_true hle

/-- Tables that stand for a book are read as the book. -/
theorem BookInvariant.decodesAs (hinv : BookInvariant s book) (hleases : LeaseInvariant s)
    (hplans : PlansInvariant s) : DecodesAs s book := by
  have hstored : ∀ id job, book.job id = some job → ∃ row, s.store.jobs.lookup id = some row ∧
      RecordedJob row (s.store.candidatesOf id) job (book.plan id) := by
    intro id job hjob
    cases hrow : s.store.jobs.lookup id with
    | none =>
      rw [(hinv.absent id hrow).1] at hjob
      cases hjob
    | some row =>
      obtain ⟨job', hjob', hrecorded, -⟩ := hinv.jobs id row hrow
      rw [hjob] at hjob'
      cases hjob'
      exact ⟨row, rfl, hrecorded⟩
  constructor
  · intro id
    cases hrow : s.store.jobs.lookup id with
    | none => rw [(hinv.absent id hrow).1, Option.map_none, Option.map_none]
    | some row =>
      obtain ⟨job, hjob, hrecorded, -⟩ := hinv.jobs id row hrow
      rw [hjob, Option.map_some, Option.map_some, queryJob_of_records hrecorded.records hrecorded.valid]
  · intro id
    cases hrow : s.store.jobs.lookup id with
    | none =>
      obtain ⟨-, hplan, hrows⟩ := hinv.absent id hrow
      rw [hplan, hrows, List.map_nil, List.map_nil]
    | some row =>
      obtain ⟨job, hjob, hrecorded, -⟩ := hinv.jobs id row hrow
      rw [hrecorded.rows, List.map_map]
      exact List.map_congr_left fun c hc => queryCandidate_candidateRow (hrecorded.settled c hc)
  · intro id job hjob
    obtain ⟨row, hrow, hrecorded⟩ := hstored id job hjob
    have hid : validJobID id = true := by
      rw [← hleases.keys id row hrow, hrecorded.records.id]
      exact hrecorded.valid.id
    rw [get, if_neg (by simp [hid]), hrow]
    simp only [queryJob_of_records hrecorded.records hrecorded.valid, within]
  · intro id job hjob
    obtain ⟨row, hrow, hrecorded⟩ := hstored id job hjob
    have hid : validJobID id = true := by
      rw [← hleases.keys id row hrow, hrecorded.records.id]
      exact hrecorded.valid.id
    have hsorted := (hplans.plans id row hrow).shape.numbered.mergeSort
    obtain ⟨plan, hplan, hsame⟩ := mapM_eq_ok (queryCandidate ∘ candidateRow) Eq fun c hc =>
      ⟨c, queryCandidate_candidateRow (hrecorded.settled c hc), rfl⟩
    rw [List.forall₂_eq_eq_eq] at hsame
    have hall : ((book.plan id).map candidateRow).mapM queryCandidate = .ok (book.plan id) := by
      rw [List.mapM_map]
      exact hsame ▸ hplan
    rw [JobStore.candidates, if_neg (by simp [hid]), hsorted, hrecorded.rows, hall]
    rfl
  · intro limit hlow hhigh
    have hread : ∀ row ∈ ((s.store.jobs.entries.map fun e => e.2).mergeSort listOrder).take limit.toNat,
        ∃ job, queryJob row = .ok job ∧ book.job row.id = some job := by
      intro row hrow
      have hmem := List.mem_mergeSort.1 (List.mem_of_mem_take hrow)
      obtain ⟨⟨id, row⟩, hentry, rfl⟩ := List.mem_map.1 hmem
      have hlookup := (Table.lookup_eq_some_iff_mem s.store.jobs id row).2 hentry
      obtain ⟨job, hjob, hrecorded, -⟩ := hinv.jobs id row hlookup
      obtain rfl := hleases.keys id row hlookup
      exact ⟨job, queryJob_of_records hrecorded.records hrecorded.valid, hjob⟩
    obtain ⟨jobs, hjobs, hall⟩ := mapM_eq_ok queryJob (fun row job => book.job row.id = some job) hread
    refine ⟨jobs, ?_, hall⟩
    rw [list, if_neg (by omega), hjobs]
    rfl
  · intro now leaseDuration hnow hstamp
    rcases hinv.claim_eq hleases hnow hstamp leaseDuration with h | ⟨row, job, hrow, hjob, hclaim⟩
    · exact Or.inl h
    · obtain ⟨job', hjob', hrecorded, -⟩ := hinv.jobs row.id row hrow
      rw [hjob] at hjob'
      cases hjob'
      have hid : (claimedJob job now).id = row.id := hrecorded.records.id.symm
      exact Or.inr ⟨_, job, congrArg Prod.snd hclaim, (congrArg book.job hid).trans hjob, rfl⟩

/-- After every readable call, all rows are read as the book that the calls have recorded. -/
theorem stored_jobs_decode (hs : storeSystem.ReachableBy ReadableCall s) :
    ∃ book, DecodesAs s book ∧ ∀ a t, ReadableCall s a → storeSystem.step s a = some t →
      DecodesAs t (recordedStep s book a) := by
  have hinvariants : ∀ s, storeSystem.ReachableBy ReadableCall s → LeaseInvariant s ∧ PlansInvariant s :=
    fun s hs => plansInvariant_of_calls (fun _ _ ha => ha.1.1) (fun _ _ ha => ha.2.2.1) hs
  have hbook : ∃ book, BookInvariant s book := by
    apply hs.invariant_under hinvariants
    · rintro _ ⟨clock, rfl⟩
      refine ⟨.empty, ?_, ?_⟩
      · simp [emptyRun, Tables.empty]
      · simp [emptyRun, Tables.empty, JobBook.empty, Tables.candidatesOf]
    · rintro s a t hinv ⟨book, hbook⟩ ha hstep
      exact ⟨recordedStep s book a, hbook.step hinv.1 ha hstep⟩
  obtain ⟨book, hbook⟩ := hbook
  obtain ⟨hleases, hplans⟩ := hinvariants s hs
  refine ⟨book, hbook.decodesAs hleases hplans, ?_⟩
  intro a t ha hstep
  obtain ⟨hleases', hplans'⟩ := hinvariants t (.step hs ha hstep)
  exact (hbook.step hleases ha hstep).decodesAs hleases' hplans'

end Decoding

/-! ### Small runs -/

section SmallRuns

attribute [local instance] TextTables.ascii URLParser.refuseAll

/-- The selection of a file that is read by ranges. -/
def rangeSelection : JobSelection :=
  match newRangeJobSelection ⟨⟨"easynews", "9", "movie.mkv", ".mkv", 7⟩, "easynews", "v1"⟩ with
  | .ok selection => selection
  | .error _ => .zero

/-- A job is selected, attached to a provider object, and waits at half of its progress. -/
def waitingLabels : List StoreLabel :=
  [.submit smallJob smallRequest (atSecond 0), .claim (atSecond 1) (atSecond 60),
    .call 0 (.select rangeSelection) (atSecond 2), .claim (atSecond 3) (atSecond 60),
    .call 1 (.attachPrepared ⟨⟨"easynews", "9"⟩⟩ false) (atSecond 4), .claim (atSecond 5) (atSecond 60),
    .call 2 (.deferred (atSecond 20) .none 50) (atSecond 6)]

theorem stored_jobs_decode_small : ∃ s, storeSystem.runChecked ReadableCall (emptyRun 0) waitingLabels =
      some s ∧ (s.store.jobs.lookup smallJob).map (fun row => row.progress) = some 50 ∧
    ∃ book, DecodesAs s book ∧ ∀ a t, ReadableCall s a → storeSystem.step s a = some t →
      DecodesAs t (recordedStep s book a) := by
  have hvalues : (storeSystem.runChecked ReadableCall (emptyRun 0) waitingLabels).map
      (fun s => (s.store.jobs.lookup smallJob).map fun row => row.progress) = some (some 50) := by
    decide +kernel
  rw [Option.map_eq_some_iff] at hvalues
  obtain ⟨s, hs, hprogress⟩ := hvalues
  exact ⟨s, hs, hprogress, stored_jobs_decode
    (System.ReachableBy.reaches (.init ⟨0, rfl⟩) (System.reachesBy_of_runChecked hs))⟩

/-- A queued job is given a progress, and its row is refused ever after. -/
def deferredLabels : List StoreLabel :=
  [.submit smallJob smallRequest (atSecond 0), .claim (atSecond 1) (atSecond 60),
    .call 0 (.deferred (atSecond 20) .none 50) (atSecond 2)]

theorem deferred_progress_unreadable : ¬ ∀ s, storeSystem.ReachableBy SequentialCall s →
    ∃ book, DecodesAs s book := by
  intro hclaim
  have hvalues : (storeSystem.runChecked SequentialCall (emptyRun 0) deferredLabels).bind
      (fun s => (s.store.jobs.lookup smallJob).map fun row => (s.committed.length, (queryJob row).isOk)) =
      some (1, false) := by
    decide +kernel
  simp only [Option.bind_eq_some_iff, Option.map_eq_some_iff, Prod.mk.injEq] at hvalues
  obtain ⟨s, hs, row, hrow, -, hrefused⟩ := hvalues
  obtain ⟨book, hbook⟩ := hclaim s
    (System.ReachableBy.reaches (.init ⟨0, rfl⟩) (System.reachesBy_of_runChecked hs))
  -- a row that is refused stands for no job of a book
  have hjob := hbook.jobs smallJob
  rw [hrow, Option.map_some] at hjob
  cases hfound : book.job smallJob with
  | none =>
    rw [hfound] at hjob
    cases hjob
  | some job =>
    rw [hfound, Option.map_some, Option.some.injEq] at hjob
    rw [hjob] at hrefused
    cases hrefused

end SmallRuns

end BlackPearl.JobStore
