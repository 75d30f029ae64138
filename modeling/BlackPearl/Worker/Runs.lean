import BlackPearl.Worker.Process

/-!
# Runs of workers

Workers over one job store: each step of `ProcessOne` is a `Claim` in its two statements, the calls to
the providers, and one transition, and the steps of different workers come between each other in any
order. A worker that crashes stops anywhere; a claim is used once. As long as no `Claim` overtakes
another one of its job, a claim under which something has been committed is one that has been used
(`WorkerInvariant`), so that a worker acts on the row that its claim was read from.
-/

set_option autoImplicit false

namespace BlackPearl.Worker

open BlackPearl.Library BlackPearl.Domain BlackPearl.Acquisition BlackPearl.JobStore

section Runs

variable [TextTables] [LetterTables] [URLParser]

/-! ## The system -/

/-- One claim that has been used: its position among the claims, and what its worker did. -/
structure StepRecord where
  position : ℕ
  result : Processed

/-- The job store, and the steps of its workers. -/
structure WorkerRun where
  run : StoreRun
  history : List StepRecord

/-- Submissions, the two statements of `Claim`, and the rest of `ProcessOne` with the claim at a
position. A step that does not reach its transition has made its calls. -/
inductive WorkerLabel
  | submit (id : String) (request : SearchRequest) (now : Time)
  | claimUpdate (worker : ℕ) (options : WorkerOptions) (now : Time)
  | claimRead (worker : ℕ)
  | claimLost (worker : ℕ)
  | process (position : ℕ) (occasion : Occasion) (reaches : Bool)

/-- A step of the store. -/
def WorkerRun.onStore (s : WorkerRun) (a : StoreLabel) : Option WorkerRun :=
  (storeStep s.run a).map fun run => { s with run := run }

/-- Whether the claim at a position has been used. -/
def WorkerRun.used (s : WorkerRun) (position : ℕ) : Bool :=
  s.history.any fun record => record.position = position

/-- One step of a worker, or a submission. -/
def workerStep (s : WorkerRun) : WorkerLabel → Option WorkerRun
  | .submit id request now => s.onStore (.submit id request now)
  | .claimUpdate worker options now => s.onStore (.claimUpdate worker now options.leaseDuration)
  | .claimRead worker => s.onStore (.claimRead worker)
  | .claimLost worker => s.onStore (.claimLost worker)
  | .process position occasion reaches =>
      match s.run.claims[position]? with
      | none => none
      | some claim =>
          if s.used position then none
          else
            let result := processOne occasion claim
            let recorded := { s with history := s.history ++ [⟨position, result⟩] }
            match result.transition with
            | none => some recorded
            | some call =>
                if reaches then recorded.onStore (.call position call occasion.now) else some recorded

/-- Workers from an empty database on. -/
def workerSystem : System WorkerRun WorkerLabel where
  init s := ∃ clock, s = ⟨emptyRun clock, []⟩
  step := workerStep

/-- No `Claim` leases a job between the statements of another `Claim` of the same job. -/
def ClaimsInTurn (s : WorkerRun) : WorkerLabel → Prop
  | .claimUpdate worker options now =>
      NotOvertaken s.run (.claimUpdate worker now options.leaseDuration)
  | _ => True

instance (s : WorkerRun) (a : WorkerLabel) : Decidable (ClaimsInTurn s a) :=
  match a with
  | .claimUpdate worker options now => inferInstanceAs (Decidable
      (∀ id ∈ leasedJob s.run (.claimUpdate worker now options.leaseDuration),
        ∀ e ∈ s.run.pending.entries, e.2.id ≠ id))
  | .submit _ _ _ | .claimRead _ | .claimLost _ | .process _ _ _ => inferInstanceAs (Decidable True)

/-! ## Steps -/

/-- What a step does. -/
inductive WorkerMove (s t : WorkerRun) : WorkerLabel → Prop
  | store {a : WorkerLabel} {b : StoreLabel} (hstep : storeStep s.run b = some t.run)
      (hhistory : t.history = s.history) (hturn : ClaimsInTurn s a → NotOvertaken s.run b)
      (hcall : ∀ position call now, b ≠ .call position call now) : WorkerMove s t a
  | silent {position : ℕ} {occasion : Occasion} {reaches : Bool} {claim : AcquisitionJobClaim}
      (hclaim : s.run.claims[position]? = some claim) (hfresh : s.used position = false)
      (hrun : t.run = s.run)
      (hhistory : t.history = s.history ++ [⟨position, processOne occasion claim⟩]) :
      WorkerMove s t (.process position occasion reaches)
  | called {position : ℕ} {occasion : Occasion} {claim : AcquisitionJobClaim} {call : TransitionCall}
      (hclaim : s.run.claims[position]? = some claim) (hfresh : s.used position = false)
      (hcall : (processOne occasion claim).transition = some call)
      (hstep : storeStep s.run (.call position call occasion.now) = some t.run)
      (hhistory : t.history = s.history ++ [⟨position, processOne occasion claim⟩]) :
      WorkerMove s t (.process position occasion true)

variable {s t : WorkerRun}

omit [LetterTables] in
theorem onStore_eq_some {a : StoreLabel} (h : s.onStore a = some t) :
    storeStep s.run a = some t.run ∧ t.history = s.history := by
  obtain ⟨run, hrun, rfl⟩ := Option.map_eq_some_iff.1 h
  exact ⟨hrun, rfl⟩

theorem workerStep_move {a : WorkerLabel} (hstep : workerStep s a = some t) : WorkerMove s t a := by
  cases a with
  | submit id request now =>
    obtain ⟨hrun, hhistory⟩ := onStore_eq_some hstep
    refine .store hrun hhistory (fun _ id hid => ?_) (fun _ _ _ heq => by cases heq)
    cases hid
  | claimUpdate worker options now =>
    obtain ⟨hrun, hhistory⟩ := onStore_eq_some hstep
    exact .store hrun hhistory (fun h => h) (fun _ _ _ heq => by cases heq)
  | claimRead worker =>
    obtain ⟨hrun, hhistory⟩ := onStore_eq_some hstep
    refine .store hrun hhistory (fun _ id hid => ?_) (fun _ _ _ heq => by cases heq)
    cases hid
  | claimLost worker =>
    obtain ⟨hrun, hhistory⟩ := onStore_eq_some hstep
    refine .store hrun hhistory (fun _ id hid => ?_) (fun _ _ _ heq => by cases heq)
    cases hid
  | process position occasion reaches =>
    simp only [workerStep] at hstep
    split at hstep
    · cases hstep
    · next claim hclaim =>
      split at hstep
      · cases hstep
      · next hused =>
        rw [Bool.not_eq_true] at hused
        split at hstep
        · cases hstep
          exact .silent hclaim hused rfl rfl
        · next call hcall =>
          split at hstep
          · next hreaches =>
            obtain ⟨hrun, hhistory⟩ := onStore_eq_some hstep
            rw [hreaches]
            exact .called hclaim hused hcall hrun hhistory
          · cases hstep
            exact .silent hclaim hused rfl rfl

omit [LetterTables] in
/-- Claims are added at the end. -/
theorem storeStep_claims {r r' : StoreRun} {a : StoreLabel} (hstep : storeStep r a = some r') :
    ∃ more, r'.claims = r.claims ++ more := by
  cases a with
  | submit id request now =>
    cases hstep
    exact ⟨[], (List.append_nil _).symm⟩
  | claim now leaseDuration =>
    cases hstep
    exact ⟨_, rfl⟩
  | claimUpdate worker now leaseDuration =>
    simp only [storeStep] at hstep
    split_ifs at hstep
    cases hstep
    exact ⟨[], (List.append_nil _).symm⟩
  | claimRead worker =>
    simp only [storeStep] at hstep
    split at hstep
    · cases hstep
    · cases hstep
      exact ⟨_, rfl⟩
  | claimLost worker =>
    simp only [storeStep] at hstep
    split at hstep
    · cases hstep
    · cases hstep
      exact ⟨[], (List.append_nil _).symm⟩
  | call position call now =>
    simp only [storeStep] at hstep
    split at hstep
    · cases hstep
    · cases hstep
      exact ⟨[], (List.append_nil _).symm⟩

omit [LetterTables] in
/-- Only a transition commits. -/
theorem storeStep_committed {r r' : StoreRun} {a : StoreLabel} (hstep : storeStep r a = some r') :
    r'.committed = r.committed ∨ ∃ position call now claim, a = .call position call now ∧
      r.claims[position]? = some claim ∧
      r'.committed = r.committed ++ [⟨claim.job.id, claim.leaseVersion, call, now⟩] := by
  cases storeStep_move hstep with
  | same hstore hleases hcommitted => exact Or.inl hcommitted
  | submitted hsubmitted hleases hcommitted => exact Or.inl hcommitted
  | leased hlabel hnow hrow heligible hstore hleases hcommitted => exact Or.inl hcommitted
  | @committed position call now claim row row' rows' hclaim hchange ht =>
    exact Or.inr ⟨position, call, now, claim, rfl, hclaim, by rw [ht]; rfl⟩

/-! ## Used claims -/

/-- The leases are in order, and what has been committed has been committed with a used claim. -/
structure WorkerInvariant (s : WorkerRun) : Prop where
  leases : LeaseInvariant s.run
  used : ∀ e ∈ s.run.committed, ∃ position claim, s.used position = true ∧
    s.run.claims[position]? = some claim ∧ claim.job.id = e.job ∧ claim.leaseVersion = e.version

omit [LetterTables] in
/-- Nothing has been committed under a claim that has not been used. -/
theorem WorkerInvariant.fresh (hinv : WorkerInvariant s) {position : ℕ} {claim : AcquisitionJobClaim}
    (hclaim : s.run.claims[position]? = some claim) (hfresh : s.used position = false) :
    ¬ IsCommitted s.run claim.job.id claim.leaseVersion := by
  rintro ⟨e, he, hjob, hversion⟩
  obtain ⟨position', claim', hused, hclaim', hjob', hversion'⟩ := hinv.used e he
  obtain ⟨hlt, rfl⟩ := List.getElem?_eq_some_iff.1 hclaim
  obtain ⟨hlt', rfl⟩ := List.getElem?_eq_some_iff.1 hclaim'
  -- two claims of one job and version are at one position
  have hordered := List.pairwise_iff_getElem.1 hinv.leases.ordered
  rcases lt_trichotomy position position' with hless | rfl | hless
  · have := hordered position position' hlt hlt' hless (hjob.symm.trans hjob'.symm)
    omega
  · rw [hfresh] at hused
    cases hused
  · have := hordered position' position hlt' hlt hless (hjob'.trans hjob)
    omega

omit [LetterTables] in
/-- A transition of a worker is called in time. -/
theorem WorkerInvariant.punctual (hinv : WorkerInvariant s) {position : ℕ} {call : TransitionCall}
    {now : Time} (hfresh : s.used position = false) : Punctual s.run (.call position call now) :=
  fun _ hclaim => Or.inr (hinv.fresh hclaim hfresh)

omit [LetterTables] in
/-- A claim whose transition is accepted is the row of its job as it is. -/
theorem WorkerInvariant.snapshot (hinv : WorkerInvariant s) {position : ℕ}
    {claim : AcquisitionJobClaim} {now : Time} {states : List JobState} {row : JobRow}
    (hclaim : s.run.claims[position]? = some claim) (hfresh : s.used position = false)
    (hrow : s.run.store.jobs.lookup claim.job.id = some row)
    (hlease : HoldsLease claim now states row) : queryJob row = .ok claim.job :=
  hinv.leases.snapshot claim (List.mem_of_getElem? hclaim) row hrow hlease.version
    (hinv.fresh hclaim hfresh)

theorem WorkerMove.invariant {a : WorkerLabel} (hinv : WorkerInvariant s) (hturn : ClaimsInTurn s a)
    (hmove : WorkerMove s t a) : WorkerInvariant t := by
  have hgrows : ∀ {position : ℕ} {claim : AcquisitionJobClaim} {b : StoreLabel},
      storeStep s.run b = some t.run → s.run.claims[position]? = some claim →
      t.run.claims[position]? = some claim := by
    intro position claim b hstep hclaim
    obtain ⟨more, hmore⟩ := storeStep_claims hstep
    rw [hmore]
    exact List.getElem?_append_left (List.getElem?_eq_some_iff.1 hclaim).1 ▸ hclaim
  cases hmove with
  | @store _ b hstep hhistory hnot hcall =>
    have hpunctual : Punctual s.run b := by
      cases b with
      | call position call now => exact absurd rfl (hcall position call now)
      | _ => trivial
    refine ⟨storeStep_leaseInvariant hinv.leases (hnot hturn) hpunctual hstep, ?_⟩
    have hcommitted : t.run.committed = s.run.committed := by
      rcases storeStep_committed hstep with h | ⟨position, call, now, claim, hb, -⟩
      · exact h
      · exact absurd hb (hcall position call now)
    intro e he
    rw [hcommitted] at he
    obtain ⟨position, claim, hused, hclaim, hrest⟩ := hinv.used e he
    refine ⟨position, claim, ?_, hgrows hstep hclaim, hrest⟩
    rwa [WorkerRun.used, hhistory]
  | @silent position occasion reaches claim hclaim hfresh hrun hhistory =>
    refine ⟨hrun ▸ hinv.leases, ?_⟩
    intro e he
    rw [hrun] at he
    obtain ⟨position', claim', hused, hrest⟩ := hinv.used e he
    refine ⟨position', claim', ?_, hrun ▸ hrest⟩
    rw [WorkerRun.used, hhistory, List.any_append]
    exact Bool.or_eq_true_iff.2 (Or.inl hused)
  | @called position occasion claim call hclaim hfresh hcall hstep hhistory =>
    refine ⟨storeStep_leaseInvariant hinv.leases (fun id hid => by cases hid)
      (hinv.punctual hfresh) hstep, ?_⟩
    intro e he
    have hold : ∀ e ∈ s.run.committed, ∃ position claim, t.used position = true ∧
        t.run.claims[position]? = some claim ∧ claim.job.id = e.job ∧
        claim.leaseVersion = e.version := by
      intro e he
      obtain ⟨position', claim', hused, hclaim', hrest⟩ := hinv.used e he
      refine ⟨position', claim', ?_, hgrows hstep hclaim', hrest⟩
      rw [WorkerRun.used, hhistory, List.any_append]
      exact Bool.or_eq_true_iff.2 (Or.inl hused)
    rcases storeStep_committed hstep with h | ⟨position', call', now, claim', hb, hclaim', h⟩
    · exact hold e (h ▸ he)
    · rw [h] at he
      rcases List.mem_append.1 he with he | he
      · exact hold e he
      · -- the claim that commits is the one that is used
        cases List.mem_singleton.1 he
        cases hb
        refine ⟨position, claim', ?_, hgrows hstep hclaim', rfl, rfl⟩
        rw [WorkerRun.used, hhistory, List.any_append]
        exact Bool.or_eq_true_iff.2 (Or.inr (by simp))

/-- What a step does to the store: nothing, or a move of the store whose transition, if it has one, is
what a worker requests with a claim that has not been used. -/
theorem WorkerMove.onRun {a : WorkerLabel} (hmove : WorkerMove s t a) : t.run = s.run ∨
    ∃ b, StoreMove s.run t.run b ∧ ∀ position call now, b = .call position call now →
      ∃ o claim, o.now = now ∧ s.run.claims[position]? = some claim ∧ s.used position = false ∧
        (processOne o claim).transition = some call := by
  cases hmove with
  | store hstep hhistory hturn hcall =>
    exact Or.inr ⟨_, storeStep_move hstep, fun position call now heq =>
      absurd heq (hcall position call now)⟩
  | silent hclaim hfresh hrun hhistory => exact Or.inl hrun
  | @called position o claim call hclaim hfresh hcall hstep hhistory =>
    refine Or.inr ⟨_, storeStep_move hstep, fun position' call' now heq => ?_⟩
    cases heq
    exact ⟨o, claim, rfl, hclaim, hfresh, hcall⟩

/-- In every run in which no `Claim` overtakes another one of its job. -/
theorem workerInvariant_of_reachable (hs : workerSystem.ReachableBy ClaimsInTurn s) :
    WorkerInvariant s := by
  apply hs.invariant
  · rintro _ ⟨clock, rfl⟩
    exact ⟨emptyRun_leaseInvariant clock, by simp [emptyRun]⟩
  · intro s a t hinv hturn hstep
    exact (workerStep_move hstep).invariant hinv hturn

end Runs

/-! ### Values for small runs -/

section SmallRuns

attribute [local instance] TextTables.ascii URLParser.refuseAll

/-- A release that a search finds. -/
def smallReleases : List Release :=
  match newRelease ⟨"prowlarr", "1", "Movie 2020", .torrent, 1, "Indexer",
    "c12fe1c06bba254a9dc9f519b335aa7c1367a88a", "", "", none⟩ with
  | .ok release => [release]
  | .error _ => []

/-- Leases of ten seconds, and attempts after one second. -/
def smallOptions : WorkerOptions where
  leaseDuration := atSecond 10
  operationTimeout := atSecond 1
  preparingPollInterval := atSecond 1
  retryInterval := atSecond 1
  operation_pos := by decide
  poll_pos := by decide
  retry_pos := by decide
  lease_long := by decide

/-- An account that has the torrent already, and reports one progress of it. -/
def smallProviders (inspection : PreparationInspection) : Providers where
  complete := true
  search := fun _ => (smallReleases, none)
  materialize := fun _ => .error {}
  cachedTorrents := fun releases => (releases, none)
  findTorrentByHash := fun _ => .ok ⟨⟨"torbox-torrent", "1"⟩⟩
  createTorrent := fun _ _ => .error {}
  reconcile := fun _ => .error {}
  inspectCreatedTorrent := fun _ => (inspection, some { notReady := true })
  deleteCreatedTorrent := fun _ => none
  directResolver := none
  rangePreparer := none
  publishAcquired := fun _ => none

/-- A step at a time of that account. -/
def smallOccasion (inspection : PreparationInspection) (now : Time) : Occasion :=
  ⟨smallOptions, .stable _, .ok (smallProviders inspection), false, now⟩

/-- A whole step of a worker that nothing comes between. -/
def wholeStep (position : ℕ) (inspection : PreparationInspection) (second : ℤ) : List WorkerLabel :=
  [.claimUpdate position smallOptions (atSecond second), .claimRead position,
    .process position (smallOccasion inspection (atSecond second)) true]

end SmallRuns

end BlackPearl.Worker
