import BlackPearl.Torbox.Torrents
import BlackPearl.Worker.Runs

/-!
# One worker and one account

The runs of a single worker over its job store, next to the provider account that its steps and
everybody else change. The log remembers each step with the account that it found. What a job row or a
claim says about an object, it has from a transition that the store has committed (`Provenanced`).
-/

set_option autoImplicit false

namespace BlackPearl.Worker

open BlackPearl.Library BlackPearl.Domain BlackPearl.Acquisition BlackPearl.JobStore BlackPearl.Torbox

section Account

variable [TextTables] [LetterTables] [URLParser]

/-! ## The system -/

/-- A step of the worker: its claim, what it was given, and what the account held before and after
it. -/
structure AccountStep where
  position : ℕ
  claim : AcquisitionJobClaim
  occasion : Occasion
  account : List TorrentRecord
  after : List TorrentRecord

/-- What the step did. -/
def AccountStep.result (e : AccountStep) : Processed := processOne e.occasion e.claim

/-- The worker, the account, and the steps so far. -/
structure AccountRun where
  worker : WorkerRun
  account : List TorrentRecord
  log : List AccountStep

/-- A step, and what the account holds after it. -/
structure AccountLabel where
  step : WorkerLabel
  account : List TorrentRecord

/-- One worker at a time: a claim is processed before the next one is made, or never. -/
def Serial (s : WorkerRun) : WorkerLabel → Prop
  | .claimUpdate _ _ _ => s.run.pending.entries = []
  | .process position _ _ => s.run.pending.entries = [] ∧ position + 1 = s.run.claims.length
  | _ => True

instance (s : WorkerRun) (a : WorkerLabel) : Decidable (Serial s a) :=
  match a with
  | .claimUpdate _ _ _ => decidable_of_iff (s.run.pending.entries.isEmpty = true) List.isEmpty_iff
  | .process position _ _ => decidable_of_iff
      (s.run.pending.entries.isEmpty = true ∧ position + 1 = s.run.claims.length)
      (and_congr_left fun _ => List.isEmpty_iff)
  | .submit _ _ _ | .claimRead _ | .claimLost _ => inferInstanceAs (Decidable True)

/-- What a step adds to the log. -/
def recorded (s : AccountRun) (a : AccountLabel) : List AccountStep :=
  match a.step with
  | .process position occasion _ => s.worker.run.claims[position]?.toList.map fun claim =>
      ⟨position, claim, occasion, s.account, a.account⟩
  | _ => []

/-- One step of the worker, or a submission. -/
def accountStep (s : AccountRun) (a : AccountLabel) : Option AccountRun :=
  if Serial s.worker a.step then
    (workerStep s.worker a.step).map fun worker => ⟨worker, a.account, s.log ++ recorded s a⟩
  else none

/-- One worker from an empty database on, and an account that holds anything. -/
def accountSystem : System AccountRun AccountLabel where
  init s := ∃ clock account, s = ⟨⟨emptyRun clock, []⟩, account, []⟩
  step := accountStep

/-- The objects of an account. -/
def accountObjects (account : List TorrentRecord) : List CreatedObject :=
  account.map fun torrent => ⟨⟨providerName, toString torrent.id⟩⟩

variable {s t : AccountRun} {a : AccountLabel}

theorem accountStep_eq_some (h : accountStep s a = some t) :
    Serial s.worker a.step ∧ workerStep s.worker a.step = some t.worker ∧ t.account = a.account ∧
      t.log = s.log ++ recorded s a := by
  unfold accountStep at h
  split at h
  · next hserial =>
    obtain ⟨worker, hworker, rfl⟩ := Option.map_eq_some_iff.1 h
    exact ⟨hserial, hworker, rfl, rfl⟩
  · cases h

omit [LetterTables] [URLParser] in
/-- A worker that works alone overtakes nobody. -/
theorem Serial.claimsInTurn {s : WorkerRun} {a : WorkerLabel} (h : Serial s a) : ClaimsInTurn s a := by
  cases a with
  | claimUpdate worker options now =>
    intro id _ e he
    rw [show s.run.pending.entries = [] from h] at he
    cases he
  | _ => trivial

theorem reachable_worker {P : AccountRun → AccountLabel → Prop} (hs : accountSystem.ReachableBy P s) :
    workerSystem.ReachableBy ClaimsInTurn s.worker := by
  induction hs with
  | init h =>
    obtain ⟨clock, account, rfl⟩ := h
    exact .init ⟨clock, rfl⟩
  | step hs hp hstep ih =>
    obtain ⟨hserial, hworker, -⟩ := accountStep_eq_some hstep
    exact .step ih hserial.claimsInTurn hworker

/-! ## What the rows and the claims say about objects -/

/-- The job has been attached to the object, as its creator or not. -/
def Attached (committed : List Commit) (id : String) (created : CreatedObject) (createdByJob : Bool) :
    Prop :=
  ∃ e ∈ committed, e.job = id ∧ e.call = .attachPrepared created createdByJob

/-- Where an object of a job comes from, and that it was created for it. -/
structure Provenance (committed : List Commit) (id : String) (createdByJob : Bool)
    (object : Option CreatedObject) : Prop where
  owned : createdByJob = true → ∃ created, object = some created ∧ Attached committed id created true
  attached : ∀ created, object = some created → ∃ owner, Attached committed id created owner

/-- The object in the columns of a row. -/
def rowObject (row : JobRow) : Option CreatedObject :=
  if row.createdObjectID = "" then none else some ⟨⟨row.createdProvider, row.createdObjectID⟩⟩

/-- The rows and the claims have their objects from committed transitions. -/
structure Provenanced (r : StoreRun) : Prop where
  rows : ∀ id row, r.store.jobs.lookup id = some row →
    Provenance r.committed id row.createdByJob (rowObject row)
  claims : ∀ c ∈ r.claims, Provenance r.committed c.job.id c.job.createdByJob c.job.createdObject

omit [LetterTables] [URLParser] in
theorem Attached.mono {committed more : List Commit} {id : String} {created : CreatedObject}
    {owner : Bool} (h : Attached committed id created owner) :
    Attached (committed ++ more) id created owner := by
  obtain ⟨e, he, hrest⟩ := h
  exact ⟨e, List.mem_append_left more he, hrest⟩

omit [LetterTables] [URLParser] in
theorem Provenance.mono {committed more : List Commit} {id : String} {owner : Bool}
    {object : Option CreatedObject} (h : Provenance committed id owner object) :
    Provenance (committed ++ more) id owner object where
  owned := by
    intro howner
    obtain ⟨created, hobject, hattached⟩ := h.owned howner
    exact ⟨created, hobject, hattached.mono⟩
  attached := by
    intro created hobject
    obtain ⟨owner, hattached⟩ := h.attached created hobject
    exact ⟨owner, hattached.mono⟩

omit [LetterTables] [URLParser] in
theorem Provenance.none (committed : List Commit) (id : String) : Provenance committed id false none where
  owned h := by cases h
  attached _ h := by cases h

omit [LetterTables] in
/-- A job has the object of its row. -/
theorem readFrom_object {row : JobRow} {job : AcquisitionJob} (h : ReadFrom row job) :
    job.createdObject = rowObject row := by
  have hread := h.createdObject
  unfold queryJobObject at hread
  unfold rowObject
  split at hread
  · next hempty =>
    rw [if_pos hempty]
    exact (Except.ok.inj hread).symm
  · next hobject =>
    rw [if_neg hobject]
    simp only [bind_eq_ok, pure_eq_ok, within_eq_ok] at hread
    obtain ⟨value, hvalue, hjob⟩ := hread
    rw [← hjob, newCreatedObject_eq_ok hvalue]

omit [LetterTables] in
theorem Provenanced.job {r : StoreRun} (h : Provenanced r) {id : String} {row : JobRow}
    (hrow : r.store.jobs.lookup id = some row) (hid : row.id = id) {job : AcquisitionJob}
    (hread : queryJob row = .ok job) :
    Provenance r.committed job.id job.createdByJob job.createdObject := by
  have hfrom := queryJob_readFrom hread
  rw [hfrom.id, hid, hfrom.createdByJob, readFrom_object hfrom]
  exact h.rows id row hrow

omit [LetterTables] in
/-- A transition keeps the origin of an object, or records a new one. -/
theorem Change.provenance {claim : AcquisitionJobClaim} {now : Time} {row row' : JobRow}
    {rows rows' : List CandidateRow} {call : TransitionCall} {committed : List Commit} {id : String}
    (h : Provenance committed id row.createdByJob (rowObject row))
    (hchange : Change claim now row rows call row' rows') (version : ℤ) :
    Provenance (committed ++ [⟨id, version, call, now⟩]) id row'.createdByJob (rowObject row') := by
  cases hchange with
  | select hvalid =>
    refine ⟨fun howner => ?_, h.mono.attached⟩
    cases howner
  | plan hvalid hfirst => exact .none _ _
  | @attachPrepared created createdByJob hvalid =>
    have hobject : rowObject (assignAttach created createdByJob row) = some created := by
      unfold rowObject
      exact if_neg (newCreatedObject_nonempty hvalid).2
    have hattached : Attached (committed ++ [⟨id, version, .attachPrepared created createdByJob, now⟩])
        id created createdByJob := ⟨_, List.mem_append_right _ (List.mem_singleton_self _), rfl, rfl⟩
    rw [hobject]
    refine ⟨fun howner => ⟨created, rfl, ?_⟩, fun created' heq => ⟨createdByJob, ?_⟩⟩
    · obtain rfl : createdByJob = true := howner
      exact hattached
    · obtain rfl := Option.some.inj heq
      exact hattached
  | advance hvalid hone hpending hnext => exact .none _ _
  | exhausted hvalid hone hpending => exact .none _ _
  | deferred hlater hprogress hcode => exact h.mono
  | succeed hvalid => exact h.mono
  | fail hvalid => exact h.mono

omit [LetterTables] in
theorem StoreMove.rows_provenanced {r r' : StoreRun} {b : StoreLabel} (hleases : LeaseInvariant r)
    (h : Provenanced r) (hmove : StoreMove r r' b) :
    ∀ id row, r'.store.jobs.lookup id = some row →
      Provenance r'.committed id row.createdByJob (rowObject row) := by
  intro id row hrow
  cases hmove with
  | same hstore hleases' hcommitted =>
    rw [hstore] at hrow
    rw [hcommitted]
    exact h.rows id row hrow
  | submitted hsubmitted hleases' hcommitted =>
    rw [hsubmitted.written, Table.lookup_insert] at hrow
    rw [hcommitted]
    split at hrow
    · cases hrow
      exact .none _ _
    · exact h.rows id row hrow
  | @leased _ id' row' now leaseDuration hlabel hnow hrow' heligible hstore hleases' hcommitted =>
    obtain rfl := hleases.keys id' row' hrow'
    rw [hstore, Table.lookup_insert] at hrow
    rw [hcommitted]
    split at hrow
    · next hid =>
      cases hrow
      rw [hid]
      exact h.rows _ row' hrow'
    · exact h.rows id row hrow
  | @committed position call now claim row' row'' rows' hclaim hchange ht =>
    have hid : (JobStore.released now row'').id = claim.job.id :=
      hchange.change.frame.1.trans (hleases.keys _ _ hchange.lookup)
    have hcommitted : r'.committed = r.committed ++ [⟨claim.job.id, claim.leaseVersion, call, now⟩] := by
      rw [ht]
      rfl
    rw [hchange.jobs, hid, Table.lookup_insert] at hrow
    rw [hcommitted]
    split at hrow
    · next hsame =>
      cases hrow
      rw [hsame]
      exact Change.provenance (h.rows _ row' hchange.lookup) hchange.change _
    · exact (h.rows id row hrow).mono

omit [LetterTables] [URLParser] in
theorem claimRead_job {store : Tables} {job : AcquisitionJob} {claim : AcquisitionJobClaim}
    (h : claimRead store job = .ok claim) : claim.job = job := by
  unfold claimRead at h
  split at h
  · cases h
  · split at h
    · cases h
    · next result hresult =>
      cases h
      simp only [within_eq_ok, newAcquisitionJobClaim, bind_eq_ok, pure_eq_ok, require_eq_ok] at hresult
      obtain ⟨_, -, _, -, _, -, rfl⟩ := hresult
      rfl

/-- A claim is old, or has the job that its worker was waiting with. -/
theorem workerStep_claims {s t : WorkerRun} {a : WorkerLabel} (hstep : workerStep s a = some t)
    {c : AcquisitionJobClaim} (hc : c ∈ t.run.claims) :
    c ∈ s.run.claims ∨ ∃ worker, s.run.pending.lookup worker = some c.job := by
  cases a with
  | submit id request now =>
    obtain ⟨hrun, -⟩ := onStore_eq_some (show s.onStore (.submit id request now) = some t from hstep)
    rw [← Option.some.inj hrun] at hc
    exact Or.inl hc
  | claimUpdate worker options now =>
    obtain ⟨hrun, -⟩ := onStore_eq_some
      (show s.onStore (.claimUpdate worker now options.leaseDuration) = some t from hstep)
    simp only [storeStep] at hrun
    split at hrun
    · cases hrun
    · rw [← Option.some.inj hrun] at hc
      exact Or.inl hc
  | claimRead worker =>
    obtain ⟨hrun, -⟩ := onStore_eq_some (show s.onStore (.claimRead worker) = some t from hstep)
    simp only [storeStep] at hrun
    split at hrun
    · cases hrun
    · next job hjob =>
      rw [← Option.some.inj hrun] at hc
      rcases List.mem_append.1 hc with hold | hnew
      · exact Or.inl hold
      · right
        cases hresult : claimRead s.run.store job with
        | error e =>
          rw [hresult] at hnew
          cases hnew
        | ok claim =>
          rw [hresult] at hnew
          rw [List.mem_singleton.1 hnew, claimRead_job hresult]
          exact ⟨worker, hjob⟩
  | claimLost worker =>
    obtain ⟨hrun, -⟩ := onStore_eq_some (show s.onStore (.claimLost worker) = some t from hstep)
    simp only [storeStep] at hrun
    split at hrun
    · cases hrun
    · rw [← Option.some.inj hrun] at hc
      exact Or.inl hc
  | process position occasion reaches =>
    left
    simp only [workerStep] at hstep
    split at hstep
    · cases hstep
    · split at hstep
      · cases hstep
      · split at hstep
        · cases hstep
          exact hc
        · split at hstep
          · obtain ⟨hrun, -⟩ := onStore_eq_some hstep
            simp only [storeStep] at hrun
            split at hrun
            · cases hrun
            · rw [← Option.some.inj hrun] at hc
              exact hc
          · cases hstep
            exact hc

/-- A step keeps the origins of the objects. -/
theorem Provenanced.step {s t : WorkerRun} {a : WorkerLabel} (h : Provenanced s.run)
    (hleases : LeaseInvariant s.run) (hstep : workerStep s a = some t) : Provenanced t.run := by
  have hmore : ∃ more, t.run.committed = s.run.committed ++ more := by
    rcases (workerStep_move hstep).onRun with hsame | ⟨b, hmove, -⟩
    · exact ⟨[], by rw [hsame, List.append_nil]⟩
    · cases hmove with
      | same hstore hleases' hcommitted => exact ⟨[], by rw [hcommitted, List.append_nil]⟩
      | submitted hsubmitted hleases' hcommitted => exact ⟨[], by rw [hcommitted, List.append_nil]⟩
      | leased hlabel hnow hrow heligible hstore hleases' hcommitted =>
        exact ⟨[], by rw [hcommitted, List.append_nil]⟩
      | committed hclaim hchange ht => exact ⟨_, by rw [ht]; rfl⟩
  obtain ⟨more, hcommitted⟩ := hmore
  constructor
  · rcases (workerStep_move hstep).onRun with hsame | ⟨b, hmove, -⟩
    · rw [hsame]
      exact h.rows
    · exact StoreMove.rows_provenanced hleases h hmove
  · intro c hc
    rw [hcommitted]
    rcases workerStep_claims hstep hc with hold | ⟨worker, hpending⟩
    · exact (h.claims c hold).mono
    · obtain ⟨row, hrow, hread, -⟩ := hleases.pending worker c.job hpending
      exact (h.job hrow (hleases.keys _ _ hrow) hread).mono

theorem reachable_provenanced {P : AccountRun → AccountLabel → Prop}
    (hs : accountSystem.ReachableBy P s) : Provenanced s.worker.run := by
  refine hs.invariant_under (I := fun s => Provenanced s.worker.run)
    (J := fun s => WorkerInvariant s.worker)
    (fun s hs => workerInvariant_of_reachable (reachable_worker hs)) ?_ ?_
  · rintro _ ⟨clock, account, rfl⟩
    refine ⟨fun id row hrow => ?_, fun c hc => ?_⟩
    · simp [emptyRun, Tables.empty] at hrow
    · simp [emptyRun] at hc
  · intro s a t hworker h _ hstep
    exact h.step hworker.leases (accountStep_eq_some hstep).2.1

/-! ## The log -/

/-- The use of a claim. -/
structure Used (s t : WorkerRun) (position : ℕ) (o : Occasion) (reaches : Bool)
    (claim : AcquisitionJobClaim) : Prop where
  claim_eq : s.run.claims[position]? = some claim
  fresh : s.used position = false
  history_eq : t.history = s.history ++ [⟨position, processOne o claim⟩]
  run : t.run = s.run ∧ (reaches = true → (processOne o claim).transition = none) ∨
    ∃ call, (processOne o claim).transition = some call ∧ reaches = true ∧
      storeStep s.run (.call position call o.now) = some t.run

theorem workerStep_process {s t : WorkerRun} {position : ℕ} {o : Occasion} {reaches : Bool}
    (h : workerStep s (.process position o reaches) = some t) :
    ∃ claim, Used s t position o reaches claim := by
  simp only [workerStep] at h
  split at h
  · cases h
  · next claim hclaim =>
    split at h
    · cases h
    · next hused =>
      rw [Bool.not_eq_true] at hused
      refine ⟨claim, ?_⟩
      split at h
      · next hnone =>
        cases h
        exact ⟨hclaim, hused, rfl, Or.inl ⟨rfl, fun _ => hnone⟩⟩
      · next call hcall =>
        split at h
        · next hreaches =>
          obtain ⟨hrun, hhistory⟩ := onStore_eq_some h
          exact ⟨hclaim, hused, hhistory, Or.inr ⟨call, hcall, hreaches, hrun⟩⟩
        · next hreaches =>
          cases h
          exact ⟨hclaim, hused, rfl, Or.inl ⟨rfl, fun h => absurd h hreaches⟩⟩

/-- Other steps use no claim. -/
theorem workerStep_history {s t : WorkerRun} {a : WorkerLabel} (hstep : workerStep s a = some t) :
    ∃ more, t.history = s.history ++ more := by
  cases workerStep_move hstep with
  | store hrun hhistory hturn hcall => exact ⟨[], by rw [hhistory, List.append_nil]⟩
  | silent hclaim hfresh hrun hhistory => exact ⟨_, hhistory⟩
  | called hclaim hfresh hcall hrun hhistory => exact ⟨_, hhistory⟩

theorem workerStep_moreClaims {s t : WorkerRun} {a : WorkerLabel} (hstep : workerStep s a = some t) :
    ∃ more, t.run.claims = s.run.claims ++ more := by
  cases workerStep_move hstep with
  | store hrun hhistory hturn hcall => exact storeStep_claims hrun
  | silent hclaim hfresh hrun hhistory => exact ⟨[], by rw [hrun, List.append_nil]⟩
  | called hclaim hfresh hcall hrun hhistory => exact storeStep_claims hrun

/-- The use of the latest claim, which is added to the log. -/
structure LogsUse (s t : AccountRun) (a : AccountLabel) (e : AccountStep) (o : Occasion)
    (reaches : Bool) : Prop where
  label : a.step = .process e.position o reaches
  occasion_eq : e.occasion = o
  account_eq : e.account = s.account
  after_eq : e.after = a.account
  used : Used s.worker t.worker e.position o reaches e.claim
  latest : e.position + 1 = s.worker.run.claims.length
  log_eq : t.log = s.log ++ [e]

theorem LogsUse.result_eq {e : AccountStep} {o : Occasion} {reaches : Bool}
    (h : LogsUse s t a e o reaches) : e.result = processOne o e.claim := by
  rw [AccountStep.result, h.occasion_eq]

omit [LetterTables] in
/-- A step that calls no transition commits none. -/
theorem onStore_committed {s t : WorkerRun} {b : StoreLabel}
    (hcall : ∀ position call now, b ≠ .call position call now) (h : s.onStore b = some t) :
    t.run.committed = s.run.committed := by
  rcases storeStep_committed (onStore_eq_some h).1 with hsame | ⟨position, call, now, claim, rfl, -⟩
  · exact hsame
  · exact absurd rfl (hcall position call now)

/-- A step uses the latest claim, or only the store. -/
theorem accountStep_cases (hstep : accountStep s a = some t) :
    (t.log = s.log ∧ t.worker.run.committed = s.worker.run.committed) ∨
      ∃ e o reaches, LogsUse s t a e o reaches := by
  obtain ⟨hserial, hworker, -, hlog⟩ := accountStep_eq_some hstep
  cases hlabel : a.step with
  | process position o reaches =>
    rw [hlabel] at hserial hworker
    obtain ⟨claim, hused⟩ := workerStep_process hworker
    refine Or.inr ⟨⟨position, claim, o, s.account, a.account⟩, o, reaches, hlabel, rfl, rfl, rfl, hused,
      hserial.2, ?_⟩
    rw [hlog, recorded, hlabel]
    simp only [hused.claim_eq]
    rfl
  | submit id request now =>
    rw [hlabel] at hworker
    rw [recorded, hlabel] at hlog
    exact Or.inl ⟨hlog.trans (List.append_nil _), onStore_committed (by simp) hworker⟩
  | claimUpdate worker options now =>
    rw [hlabel] at hworker
    rw [recorded, hlabel] at hlog
    exact Or.inl ⟨hlog.trans (List.append_nil _), onStore_committed (by simp) hworker⟩
  | claimRead worker =>
    rw [hlabel] at hworker
    rw [recorded, hlabel] at hlog
    exact Or.inl ⟨hlog.trans (List.append_nil _), onStore_committed (by simp) hworker⟩
  | claimLost worker =>
    rw [hlabel] at hworker
    rw [recorded, hlabel] at hlog
    exact Or.inl ⟨hlog.trans (List.append_nil _), onStore_committed (by simp) hworker⟩

/-- What a use commits is the transition of its step. -/
theorem LogsUse.committed {e : AccountStep} {o : Occasion} {reaches : Bool}
    (h : LogsUse s t a e o reaches) : t.worker.run.committed = s.worker.run.committed ∨
      ∃ call, e.result.transition = some call ∧ t.worker.run.committed =
        s.worker.run.committed ++ [⟨e.claim.job.id, e.claim.leaseVersion, call, o.now⟩] := by
  rcases h.used.run with ⟨hsame, -⟩ | ⟨call, hcall, -, hrun⟩
  · exact Or.inl (by rw [hsame])
  · rcases storeStep_committed hrun with hsame | ⟨position', call', now, claim, hlabel, hclaim, hmore⟩
    · exact Or.inl hsame
    · cases hlabel
      rw [h.used.claim_eq, Option.some.injEq] at hclaim
      subst hclaim
      exact Or.inr ⟨call, by rw [h.result_eq, hcall], hmore⟩

/-- The log remembers used claims. -/
def Remembers (s : AccountRun) : Prop :=
  ∀ e ∈ s.log, s.worker.run.claims[e.position]? = some e.claim ∧ s.worker.used e.position = true

theorem Remembers.step (h : Remembers s) (hstep : accountStep s a = some t) : Remembers t := by
  obtain ⟨hserial, hworker, -⟩ := accountStep_eq_some hstep
  obtain ⟨claims, hclaims⟩ := workerStep_moreClaims hworker
  obtain ⟨history, hhistory⟩ := workerStep_history hworker
  have hgrows : ∀ {position : ℕ} {claim : AcquisitionJobClaim},
      s.worker.run.claims[position]? = some claim → t.worker.run.claims[position]? = some claim := by
    intro position claim hclaim
    rw [hclaims]
    exact List.getElem?_append_left (List.getElem?_eq_some_iff.1 hclaim).1 ▸ hclaim
  have hold : ∀ e ∈ s.log,
      t.worker.run.claims[e.position]? = some e.claim ∧ t.worker.used e.position = true := by
    intro e he
    obtain ⟨hclaim, hused⟩ := h e he
    refine ⟨hgrows hclaim, ?_⟩
    rw [WorkerRun.used, hhistory, List.any_append]
    exact Bool.or_eq_true_iff.2 (Or.inl hused)
  rcases accountStep_cases hstep with ⟨hlog, -⟩ | ⟨e', o, reaches, huse⟩
  · intro e he
    exact hold e (hlog ▸ he)
  · intro e he
    rw [huse.log_eq] at he
    rcases List.mem_append.1 he with he | he
    · exact hold e he
    · obtain rfl := List.mem_singleton.1 he
      refine ⟨hgrows huse.used.claim_eq, ?_⟩
      rw [WorkerRun.used, huse.used.history_eq, List.any_append]
      exact Bool.or_eq_true_iff.2 (Or.inr (by simp))

theorem reachable_remembers {P : AccountRun → AccountLabel → Prop}
    (hs : accountSystem.ReachableBy P s) : Remembers s := by
  apply hs.invariant
  · rintro _ ⟨clock, account, rfl⟩ e he
    cases he
  · intro s a t h _ hstep
    exact h.step hstep

end Account

end BlackPearl.Worker
