import BlackPearl.Worker.Runs

/-!
# The progress of a job

A worker defers a job with the progress of its claim, or with the progress that a provider reports of
an object in preparation, if that is more (`processOne_deferred`). The claim is the row as it is as long
as no `Claim` overtakes another one of its job, so the stored progress follows the stage of the job and
does not decrease while a candidate is prepared (`progress_law`). A worker whose `Claim` was overtaken
has an old progress under a new lease, and sets the stored one back (`overtaken_progress`).
-/

set_option autoImplicit false

namespace BlackPearl.Worker

open BlackPearl.Library BlackPearl.Domain BlackPearl.Acquisition BlackPearl.JobStore

section Progress

variable [TextTables]

/-! ## The law -/

/-- The progress that belongs to the stage of a job. -/
structure StageProgress (row : JobRow) : Prop where
  unprepared : row.state = .queued ∨ row.state = .selected → row.progress = 0
  preparing : row.state = .preparing → 0 ≤ row.progress ∧ row.progress < 100
  finished : row.progress = 100 ↔ row.state = .succeeded

/-- A transition that ends the preparation of a candidate. -/
def endsCandidate : TransitionCall → Bool
  | .advance _ _ | .succeed _ | .fail _ _ => true
  | .select _ | .plan _ | .attachPrepared _ _ | .deferred _ _ _ => false

/-- A job in preparation is still in preparation, with no less progress. -/
def StillPreparing (row row' : JobRow) : Prop :=
  row'.state = .preparing ∧ row.progress ≤ row'.progress

/-- From one state to a later one, a candidate in preparation makes progress, unless a transition has
ended its preparation in between. -/
def KeepsProgress (s t : StoreRun) : Prop :=
  ∃ more, t.committed = s.committed ++ more ∧
    ∀ id row, s.store.jobs.lookup id = some row → row.state = .preparing →
      (∀ e ∈ more, e.job = id → endsCandidate e.call = false) →
        ∃ row', t.store.jobs.lookup id = some row' ∧ StillPreparing row row'

variable [LetterTables] [URLParser]

/-- What holds of the stored progress in a state and until a later one. -/
structure ProgressLaw (s t : WorkerRun) : Prop where
  stages : ∀ id row, s.run.store.jobs.lookup id = some row → StageProgress row
  keeps : KeepsProgress s.run t.run

/-! ## What a worker asks for -/

section Requests

variable {o : Occasion} {claim : AcquisitionJobClaim} {providers : Providers}

/-- A step that defers its job, if at all, with the progress of its claim. -/
def SavesProgress (claim : AcquisitionJobClaim) (transition : Option TransitionCall) : Prop :=
  ∀ nextAttempt code progress, transition = some (.deferred nextAttempt code progress) →
    progress = claim.job.progress

omit [LetterTables] [URLParser] in
theorem savesProgress_of_ne {transition : Option TransitionCall}
    (h : ∀ nextAttempt code progress, transition ≠ some (.deferred nextAttempt code progress)) :
    SavesProgress claim transition :=
  fun nextAttempt code progress heq => absurd heq (h nextAttempt code progress)

omit [LetterTables] [URLParser] in
theorem deferProviderFailure_saves (cause : ProviderError) :
    SavesProgress claim (deferProviderFailure o claim cause) := by
  intro nextAttempt code progress h
  unfold deferProviderFailure at h
  split at h
  · cases h
  · cases h
    rfl

omit [LetterTables] [URLParser] in
/-- A step that ends with the failure of a provider. -/
theorem failed_saves (cause : ProviderError) :
    SavesProgress claim (Processed.mk [] (deferProviderFailure o claim cause)).transition :=
  deferProviderFailure_saves cause

omit [LetterTables] [URLParser] in
theorem abandonCandidate_saves (outcome : CandidateOutcome) (terminalCode : JobErrorCode)
    (alreadyMissing : Bool) :
    SavesProgress claim (abandonCandidate claim providers outcome terminalCode alreadyMissing).transition := by
  apply savesProgress_of_ne
  intro nextAttempt code progress h
  simp only [abandonCandidate, request] at h
  split at h
  · split at h <;> cases h
  · cases h

omit [LetterTables] [URLParser] in
theorem abandonOrFail_saves (outcome : CandidateOutcome) (terminalCode code : JobErrorCode)
    (alreadyMissing manualReview : Bool) :
    SavesProgress claim (abandonOrFail claim providers outcome terminalCode alreadyMissing
      (.fail code manualReview)).transition := by
  unfold abandonOrFail
  split
  · exact abandonCandidate_saves outcome terminalCode alreadyMissing
  · exact savesProgress_of_ne fun _ _ _ h => by cases h

omit [LetterTables] [URLParser] in
theorem prepareRange_saves (preparer : RangePreparer) (candidate : RangeCandidate) :
    SavesProgress claim (prepareRange o claim providers preparer candidate).transition := by
  unfold prepareRange
  split
  · exact savesProgress_of_ne fun _ _ _ h => by cases h
  · split
    · exact abandonOrFail_saves _ _ _ _ _
    · exact failed_saves _

omit [LetterTables] [URLParser] in
theorem attachCreated_saves (infoHash : String) (created : Except ProviderError CreatedObject) :
    SavesProgress claim (attachCreated o claim providers infoHash created) := by
  unfold attachCreated
  split
  · exact savesProgress_of_ne fun _ _ _ h => by cases h
  · split
    · exact deferProviderFailure_saves _
    · split <;> exact savesProgress_of_ne fun _ _ _ h => by cases h

omit [LetterTables] [URLParser] in
theorem createSelected_saves (selection : JobSelection) :
    SavesProgress claim (createSelected o claim providers selection).transition := by
  unfold createSelected
  split
  · exact failed_saves _
  · split
    · exact abandonOrFail_saves _ _ _ _ _
    · split
      · exact abandonOrFail_saves _ _ _ _ _
      · split
        · exact failed_saves _
        · exact attachCreated_saves _ _

omit [LetterTables] [URLParser] in
theorem prepareTorrent_saves (selection : JobSelection) :
    SavesProgress claim (prepareTorrent o claim providers selection).transition := by
  unfold prepareTorrent
  split
  · exact savesProgress_of_ne fun _ _ _ h => by cases h
  · split
    · exact savesProgress_of_ne fun _ _ _ h => by cases h
    · split
      · exact failed_saves _
      · split
        · exact failed_saves _
        · exact createSelected_saves selection

omit [LetterTables] [URLParser] in
theorem prepare_saves : SavesProgress claim (prepare o claim providers).transition := by
  unfold prepare
  simp only
  split
  · split
    · exact failed_saves _
    · exact prepareRange_saves _ _
  · exact prepareTorrent_saves _
  · exact savesProgress_of_ne fun _ _ _ h => by cases h

omit [LetterTables] in
theorem resolveQueued_saves : SavesProgress claim (resolveQueued o claim providers).transition := by
  unfold resolveQueued
  simp only
  split
  · exact failed_saves _
  · exact savesProgress_of_ne fun _ _ _ h => by cases h
  · exact savesProgress_of_ne fun _ _ _ h => by cases h

omit [URLParser] in
theorem publishSelected_saves (acquire : MediaCandidate → Checked AcquiredMedia)
    (inspection : PreparationInspection) :
    SavesProgress claim (publishSelected o claim providers acquire inspection).transition := by
  unfold publishSelected
  split
  · exact abandonOrFail_saves _ _ _ _ _
  · split
    · exact abandonOrFail_saves _ _ _ _ _
    · split
      · exact failed_saves _
      · exact savesProgress_of_ne fun _ _ _ h => by cases h

/-- A step that defers its job, if at all, with at least the progress of its claim. -/
def RaisesProgress (claim : AcquisitionJobClaim) (transition : Option TransitionCall) : Prop :=
  ∀ nextAttempt code progress, transition = some (.deferred nextAttempt code progress) →
    claim.job.progress ≤ progress

omit [LetterTables] [URLParser] in
theorem SavesProgress.raises {transition : Option TransitionCall} (h : SavesProgress claim transition) :
    RaisesProgress claim transition :=
  fun nextAttempt code progress heq => (h nextAttempt code progress heq).ge

omit [LetterTables] [URLParser] in
theorem deferNotReady_raises (inspection : PreparationInspection) :
    RaisesProgress claim (deferNotReady o claim inspection).transition := by
  intro nextAttempt code progress h
  cases h
  exact le_max_left _ _

omit [URLParser] in
theorem publishRange_raises (preparer : RangePreparer) :
    RaisesProgress claim (publishRange o claim providers preparer).transition := by
  unfold publishRange
  simp only
  split
  · exact (publishSelected_saves _ _).raises
  · split
    · exact deferNotReady_raises _
    · split
      · exact (abandonOrFail_saves _ _ _ _ _).raises
      · split
        · exact (abandonOrFail_saves _ _ _ _ _).raises
        · exact (failed_saves _).raises

omit [URLParser] in
theorem publishTorrent_raises : RaisesProgress claim (publishTorrent o claim providers).transition := by
  unfold publishTorrent
  simp only
  split
  · exact (publishSelected_saves _ _).raises
  · split
    · exact (abandonOrFail_saves _ _ _ _ _).raises
    · split
      · exact deferNotReady_raises _
      · split
        · exact (abandonOrFail_saves _ _ _ _ _).raises
        · split
          · exact (savesProgress_of_ne fun _ _ _ h => by cases h).raises
          · exact (failed_saves _).raises

omit [URLParser] in
theorem publish_raises : RaisesProgress claim (publish o claim providers).transition := by
  unfold publish
  split
  · split
    · exact (failed_saves _).raises
    · exact publishRange_raises _
  · exact publishTorrent_raises

/-- A worker defers a job with no less progress than its claim has, and with another one only while
an object is prepared. -/
theorem processOne_deferred {nextAttempt : Time} {code : JobErrorCode} {progress : ℤ}
    (h : (processOne o claim).transition = some (.deferred nextAttempt code progress)) :
    claim.job.progress ≤ progress ∧ (claim.job.state ≠ .preparing → progress = claim.job.progress) := by
  have hsaved : SavesProgress claim (processOne o claim).transition →
      claim.job.progress ≤ progress ∧
        (claim.job.state ≠ .preparing → progress = claim.job.progress) :=
    fun hsaves => ⟨hsaves.raises _ _ _ h, fun _ => hsaves _ _ _ h⟩
  have hcase := processOne_case o claim
  generalize processOne o claim = result at hcase h hsaved
  cases hcase with
  | failed cause => exact hsaved (failed_saves cause)
  | resolved hproviders hstate => exact hsaved resolveQueued_saves
  | prepared hproviders hstate hrange => exact hsaved prepare_saves
  | published hproviders hstate hrange =>
    exact ⟨publish_raises _ _ _ h, fun hne => absurd hstate hne⟩
  | ended hstate => cases h

end Requests

/-! ## What the store does -/

section Rows

variable {claim : AcquisitionJobClaim} {now : Time} {row row' : JobRow} {rows rows' : List CandidateRow}
  {call : TransitionCall}

omit [LetterTables] in
/-- A transition keeps the progress with the stage, if a deferral before the preparation keeps the
progress. -/
theorem stageProgress_change (hrow : StageProgress row)
    (hlease : HoldsLease claim now (callStates claim call) row)
    (hchange : Change claim now row rows call row' rows')
    (hdefer : ∀ nextAttempt code progress, call = .deferred nextAttempt code progress →
      row.state ≠ .preparing → progress = row.progress) : StageProgress row' := by
  have hactive := hlease.active hchange
  have hunfinished : row.progress ≠ 100 := by
    intro h
    rw [hrow.finished.1 h] at hactive
    cases hactive
  cases hchange with
  | select hvalid =>
    exact ⟨fun _ => rfl, fun h => (by cases h), ⟨fun h => (by cases h), fun h => (by cases h)⟩⟩
  | plan hvalid hfirst =>
    exact ⟨fun _ => rfl, fun h => (by cases h), ⟨fun h => (by cases h), fun h => (by cases h)⟩⟩
  | attachPrepared hvalid =>
    have hzero : (0 : ℤ) < 100 := by decide
    exact ⟨fun _ => rfl, fun _ => ⟨le_refl 0, hzero⟩,
      ⟨fun h => (by cases h), fun h => (by cases h)⟩⟩
  | advance hvalid hone hpending hnext =>
    exact ⟨fun _ => rfl, fun h => (by cases h), ⟨fun h => (by cases h), fun h => (by cases h)⟩⟩
  | exhausted hvalid hone hpending =>
    exact ⟨fun _ => rfl, fun h => (by cases h), ⟨fun h => (by cases h), fun h => (by cases h)⟩⟩
  | @deferred nextAttempt code progress hlater hprogress hcode =>
    have hsame := hdefer nextAttempt code progress rfl
    refine ⟨fun h => ?_, fun _ => hprogress, ?_⟩
    · have hne : row.state ≠ .preparing := by
        rintro hpreparing
        rcases h with h | h <;> exact absurd (hpreparing.symm.trans h) (by decide)
      exact (hsame hne).trans (hrow.unprepared h)
    · constructor
      · intro h
        exact absurd h hprogress.2.ne
      · intro h
        have hsucceeded : row.state = .succeeded := h
        rw [hsucceeded] at hactive
        cases hactive
  | succeed hvalid =>
    exact ⟨fun h => (by rcases h with h | h <;> cases h), fun h => (by cases h),
      ⟨fun _ => rfl, fun _ => rfl⟩⟩
  | @fail code manualReview validated hvalid =>
    have hstate : failureState manualReview = .failed ∨ failureState manualReview = .manualReview := by
      cases manualReview
      · exact Or.inl rfl
      · exact Or.inr rfl
    have hcases : ∀ {state : JobState}, failureState manualReview = state →
        state = .failed ∨ state = .manualReview := fun h => h ▸ hstate
    refine ⟨fun h => ?_, fun h => ?_, ⟨fun h => absurd h hunfinished, fun h => ?_⟩⟩
    · rcases h with h | h <;> exact absurd (hcases h) (by decide)
    · exact absurd (hcases h) (by decide)
    · exact absurd (hcases h) (by decide)

omit [LetterTables] in
/-- A transition that does not end the preparation leaves a job in it, with no less progress. -/
theorem stillPreparing_change (hpreparing : row.state = .preparing)
    (hlease : HoldsLease claim now (callStates claim call) row)
    (hchange : Change claim now row rows call row' rows') (hends : endsCandidate call = false)
    (hdefer : ∀ nextAttempt code progress, call = .deferred nextAttempt code progress →
      row.progress ≤ progress) : StillPreparing row row' := by
  have hstate := hlease.state
  rw [hpreparing] at hstate
  cases hchange with
  | select hvalid => exact absurd hstate (by simp [callStates])
  | plan hvalid hfirst => exact absurd hstate (by simp [callStates])
  | attachPrepared hvalid => exact absurd hstate (by simp [callStates])
  | advance hvalid hone hpending hnext => cases hends
  | exhausted hvalid hone hpending => cases hends
  | @deferred nextAttempt code progress hlater hprogress hcode =>
    exact ⟨hpreparing, hdefer nextAttempt code progress rfl⟩
  | succeed hvalid => cases hends
  | fail hvalid => cases hends

end Rows

/-! ## Every step -/

variable {s t : WorkerRun}

/-- An accepted transition of a worker: the claim is the row. -/
theorem processOne_deferred_row (hinv : WorkerInvariant s) {position : ℕ} {o : Occasion}
    {claim : AcquisitionJobClaim} {call : TransitionCall} {states : List JobState} {row : JobRow}
    (hclaim : s.run.claims[position]? = some claim) (hfresh : s.used position = false)
    (hcall : (processOne o claim).transition = some call)
    (hrow : s.run.store.jobs.lookup claim.job.id = some row)
    (hlease : HoldsLease claim o.now states row) :
    ∀ nextAttempt code progress, call = .deferred nextAttempt code progress →
      row.progress ≤ progress ∧ (row.state ≠ .preparing → progress = row.progress) := by
  rintro nextAttempt code progress rfl
  have hread := queryJob_readFrom (hinv.snapshot hclaim hfresh hrow hlease)
  have hdeferred := processOne_deferred hcall
  rwa [hread.progress, hread.state] at hdeferred

/-- Every step keeps the progress with the stages. -/
theorem WorkerMove.stageProgress {a : WorkerLabel} (hinv : WorkerInvariant s)
    (hstages : ∀ id row, s.run.store.jobs.lookup id = some row → StageProgress row)
    (hmove : WorkerMove s t a) :
    ∀ id row, t.run.store.jobs.lookup id = some row → StageProgress row := by
  intro id row hrow
  rcases hmove.onRun with hrun | ⟨b, hstore, hworker⟩
  · exact hstages id row (hrun ▸ hrow)
  · cases hstore with
    | same hsame hleases hcommitted =>
      rw [hsame] at hrow
      exact hstages id row hrow
    | @submitted id' request now queued hsubmitted hleases hcommitted =>
      rw [hsubmitted.written, Table.lookup_insert] at hrow
      split at hrow
      · cases hrow
        exact ⟨fun _ => rfl, fun h => (by cases h), ⟨fun h => (by cases h), fun h => (by cases h)⟩⟩
      · exact hstages id row hrow
    | @leased _ id' row' now leaseDuration hlabel hnow hrow' heligible hleased hleases hcommitted =>
      rw [hleased, Table.lookup_insert] at hrow
      split at hrow
      · cases hrow
        have hold := hstages id' row' hrow'
        exact ⟨hold.unprepared, hold.preparing, hold.finished⟩
      · exact hstages id row hrow
    | @committed position call now claim row' row'' rows' hclaim hchange ht =>
      rw [hchange.jobs, Table.lookup_insert] at hrow
      split at hrow
      · cases hrow
        obtain ⟨o, claim', rfl, hclaim', hfresh, hcall⟩ := hworker position call now rfl
        rw [hclaim] at hclaim'
        cases hclaim'
        have hdefer := processOne_deferred_row hinv hclaim hfresh hcall hchange.lookup hchange.lease
        have hnew := stageProgress_change (hstages _ _ hchange.lookup) hchange.lease hchange.change
          fun nextAttempt code progress heq => (hdefer nextAttempt code progress heq).2
        exact ⟨hnew.unprepared, hnew.preparing, hnew.finished⟩
      · exact hstages id row hrow

omit [LetterTables] [URLParser] in
theorem KeepsProgress.refl (r : StoreRun) : KeepsProgress r r :=
  ⟨[], (List.append_nil _).symm, fun _ row hrow hpreparing _ => ⟨row, hrow, hpreparing, le_rfl⟩⟩

omit [LetterTables] [URLParser] in
theorem KeepsProgress.trans {r r' r'' : StoreRun} (h : KeepsProgress r r') (h' : KeepsProgress r' r'') :
    KeepsProgress r r'' := by
  obtain ⟨more, hmore, hkeeps⟩ := h
  obtain ⟨more', hmore', hkeeps'⟩ := h'
  refine ⟨more ++ more', by rw [hmore', hmore, List.append_assoc], ?_⟩
  intro id row hrow hpreparing hends
  obtain ⟨row', hrow', hpreparing', hle⟩ := hkeeps id row hrow hpreparing fun e he =>
    hends e (List.mem_append_left _ he)
  obtain ⟨row'', hrow'', hpreparing'', hle'⟩ := hkeeps' id row' hrow' hpreparing' fun e he =>
    hends e (List.mem_append_right _ he)
  exact ⟨row'', hrow'', hpreparing'', hle.trans hle'⟩

omit [LetterTables] [URLParser] in
/-- Where nothing happens to the rows in preparation. -/
theorem keepsProgress_of_rows {r r' : StoreRun} (hcommitted : r'.committed = r.committed)
    (hrows : ∀ id row, r.store.jobs.lookup id = some row → row.state = .preparing →
      ∃ row', r'.store.jobs.lookup id = some row' ∧ StillPreparing row row') : KeepsProgress r r' :=
  ⟨[], by rw [hcommitted, List.append_nil], fun id row hrow hpreparing _ => hrows id row hrow hpreparing⟩

/-- Every step keeps the progress of the candidates in preparation. -/
theorem WorkerMove.keepsProgress {a : WorkerLabel} (hinv : WorkerInvariant s) (hmove : WorkerMove s t a) :
    KeepsProgress s.run t.run := by
  rcases hmove.onRun with hrun | ⟨b, hstore, hworker⟩
  · rw [hrun]
    exact KeepsProgress.refl _
  · cases hstore with
    | same hsame hleases hcommitted =>
      apply keepsProgress_of_rows hcommitted
      intro id row hrow hpreparing
      exact ⟨row, hsame ▸ hrow, hpreparing, le_rfl⟩
    | @submitted id' request now queued hsubmitted hleases hcommitted =>
      apply keepsProgress_of_rows hcommitted
      intro id row hrow hpreparing
      refine ⟨row, ?_, hpreparing, le_rfl⟩
      rw [hsubmitted.written, Table.lookup_insert, if_neg]
      · exact hrow
      · rintro rfl
        rw [hsubmitted.fresh] at hrow
        cases hrow
    | @leased _ id' row' now leaseDuration hlabel hnow hrow' heligible hleased hleases hcommitted =>
      apply keepsProgress_of_rows hcommitted
      intro id row hrow hpreparing
      obtain rfl := hinv.leases.keys id' row' hrow'
      rw [hleased, Table.lookup_insert]
      split
      · next heq =>
        rw [heq, hrow'] at hrow
        cases hrow
        exact ⟨_, rfl, hpreparing, le_rfl⟩
      · exact ⟨row, hrow, hpreparing, le_rfl⟩
    | @committed position call now claim row' row'' rows' hclaim hchange ht =>
      obtain ⟨o, claim', rfl, hclaim', hfresh, hcall⟩ := hworker position call now rfl
      rw [hclaim] at hclaim'
      cases hclaim'
      have hid : (JobStore.released o.now row'').id = claim.job.id :=
        hchange.change.frame.1.trans (hinv.leases.keys _ _ hchange.lookup)
      refine ⟨[⟨claim.job.id, claim.leaseVersion, call, o.now⟩], by rw [ht]; rfl, ?_⟩
      intro id row hrow hpreparing hends
      rw [hchange.jobs, Table.lookup_insert, hid]
      split
      · next heq =>
        rw [heq, hchange.lookup] at hrow
        cases hrow
        have hdefer := processOne_deferred_row hinv hclaim hfresh hcall hchange.lookup hchange.lease
        obtain ⟨hstill, hle⟩ := stillPreparing_change hpreparing hchange.lease hchange.change
          (hends _ (List.mem_singleton_self _) heq.symm)
          fun nextAttempt code progress heq => (hdefer nextAttempt code progress heq).1
        exact ⟨_, rfl, hstill, hle⟩
      · exact ⟨row, hrow, hpreparing, le_rfl⟩

/-- The progress follows the stage and grows with the preparation, for any workers, crashes and answers
of the providers, as long as no `Claim` overtakes another one of its job between its statements. -/
theorem progress_law (hs : workerSystem.ReachableBy ClaimsInTurn s)
    (hreaches : workerSystem.ReachesBy ClaimsInTurn s t) : ProgressLaw s t := by
  constructor
  · apply hs.invariant_under (I := fun s => ∀ id row, s.run.store.jobs.lookup id = some row →
      StageProgress row) fun s hs => workerInvariant_of_reachable hs
    · rintro _ ⟨clock, rfl⟩
      simp [emptyRun, Tables.empty]
    · intro s a t hinv hstages _ hstep
      exact (workerStep_move hstep).stageProgress hinv hstages
  · apply hreaches.related hs (R := fun s t => KeepsProgress s.run t.run)
    · exact fun s => KeepsProgress.refl s.run
    · exact fun s t u hst htu => hst.trans htu
    · intro s a t hs _ hstep
      exact (workerStep_move hstep).keepsProgress (workerInvariant_of_reachable hs)

end Progress

/-! ### Small runs -/

section SmallRuns

attribute [local instance] TextTables.ascii LetterTables.ascii URLParser.refuseAll

/-- The progress of every job, with its stage. -/
def storedProgress (s : WorkerRun) : List (String × JobState × ℤ) :=
  s.run.store.jobs.entries.map fun e => (e.1, e.2.state, e.2.progress)

/-- A job is planned, attached, and found not ready twice; the second report is smaller. -/
def preparingLabels : List WorkerLabel :=
  .submit smallJob smallRequest (atSecond 0) :: (wholeStep 0 .zero 0 ++ wholeStep 1 .zero 1)

def notReadyLabels : List WorkerLabel :=
  wholeStep 2 ⟨[], 50, by decide⟩ 2 ++ wholeStep 3 ⟨[], 20, by decide⟩ 4

theorem progress_law_small : ∃ s t,
    workerSystem.runChecked ClaimsInTurn ⟨emptyRun 0, []⟩ preparingLabels = some s ∧
    workerSystem.runChecked ClaimsInTurn s notReadyLabels = some t ∧
    storedProgress s = [(smallJob, .preparing, 0)] ∧
    storedProgress t = [(smallJob, .preparing, 50)] ∧ ProgressLaw s t := by
  have hvalues : ((workerSystem.runChecked ClaimsInTurn ⟨emptyRun 0, []⟩ preparingLabels).bind fun s =>
      (workerSystem.runChecked ClaimsInTurn s notReadyLabels).map fun t =>
        (storedProgress s, storedProgress t)) =
      some ([(smallJob, .preparing, 0)], [(smallJob, .preparing, 50)]) := by
    decide +kernel
  simp only [Option.bind_eq_some_iff, Option.map_eq_some_iff, Prod.mk.injEq] at hvalues
  obtain ⟨s, hs, t, ht, hbefore, hafter⟩ := hvalues
  exact ⟨s, t, hs, ht, hbefore, hafter, progress_law
    (System.ReachableBy.reaches (.init ⟨0, rfl⟩) (System.reachesBy_of_runChecked hs))
    (System.reachesBy_of_runChecked ht)⟩

/-- Worker 2 leases the job and stops after the first statement of its `Claim`. When the lease has
expired, worker 3 defers the job with more progress. -/
def stoppedClaimLabels : List WorkerLabel :=
  preparingLabels ++ .claimUpdate 2 smallOptions (atSecond 2) :: [.claimUpdate 3 smallOptions (atSecond 20),
    .claimRead 3, .process 2 (smallOccasion ⟨[], 50, by decide⟩ (atSecond 20)) true]

/-- Worker 4 leases the job, and worker 2 goes on: its claim has the version of the lease of worker 4,
and the job as it was before. -/
def resumedClaimLabels : List WorkerLabel :=
  [.claimUpdate 4 smallOptions (atSecond 30), .claimRead 2,
    .process 3 (smallOccasion ⟨[], 20, by decide⟩ (atSecond 31)) true]

theorem overtaken_progress : ¬ ∀ s t, workerSystem.Reachable s → workerSystem.Reaches s t →
    ProgressLaw s t := by
  intro hclaim
  have hvalues : ((workerSystem.run ⟨emptyRun 0, []⟩ stoppedClaimLabels).bind fun s =>
      (workerSystem.run s resumedClaimLabels).map fun t =>
        ((s.run.store.jobs.lookup smallJob).map fun row => (row.state, row.progress),
          (t.run.store.jobs.lookup smallJob).map fun row => row.progress,
          (t.run.committed.drop s.run.committed.length).map fun e => endsCandidate e.call)) =
      some (some (.preparing, 50), some 20, [false]) := by
    decide +kernel
  simp only [Option.bind_eq_some_iff, Option.map_eq_some_iff, Prod.mk.injEq] at hvalues
  obtain ⟨s, hs, t, ht, ⟨row, hrow, hstate, hprogress⟩, ⟨row', hrow', hprogress'⟩, hends⟩ := hvalues
  have hlaw := hclaim s t (System.reachable_of_run ⟨0, rfl⟩ hs) (System.reachesBy_of_run ht)
  obtain ⟨more, hmore, hkeeps⟩ := hlaw.keeps
  rw [hmore, List.drop_left] at hends
  obtain ⟨row'', hrow'', -, hle⟩ := hkeeps smallJob row hrow hstate fun e he _ => by
    have hmem := List.mem_map_of_mem (f := fun e : Commit => endsCandidate e.call) he
    rw [hends] at hmem
    exact List.mem_singleton.1 hmem
  rw [hrow'] at hrow''
  cases hrow''
  rw [hprogress, hprogress'] at hle
  exact absurd hle (by decide)

end SmallRuns

end BlackPearl.Worker
