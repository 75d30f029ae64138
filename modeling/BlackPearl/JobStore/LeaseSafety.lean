import BlackPearl.JobStore.Runs

/-!
# Leases exclude each other

What workers may rely on, in every run in which no `Claim` leases a job between the two statements of
another `Claim` of that job (`lease_safety`): one transition commits for each lease, before the lease
expires; leases of a job follow each other; an active job is the only one of its intent; and a job that
has ended does not change. A `Claim` that is overtaken between its statements reads the version of the
other lease, and two workers then hold one lease (`overtaken_claim`).
-/

set_option autoImplicit false

namespace BlackPearl.JobStore

open BlackPearl.Library BlackPearl.Domain BlackPearl.Acquisition

section Safety

variable [TextTables] [URLParser]

/-! ## Conditions on a step -/

/-- No clock is before the Unix epoch. -/
def AfterEpoch (_ : StoreRun) (a : StoreLabel) : Prop := ∀ now ∈ labelTime a, 0 ≤ unixMilli now

omit [URLParser] in
theorem AfterEpoch.punctual {s : StoreRun} {a : StoreLabel} (h : AfterEpoch s a) : Punctual s a := by
  cases a with
  | call position call now => exact fun _ _ => Or.inl (h now rfl)
  | _ => trivial

/-- A step at or after the epoch that overtakes no `Claim`. -/
def OrderlyStep (s : StoreRun) (a : StoreLabel) : Prop := NotOvertaken s a ∧ AfterEpoch s a

instance (s : StoreRun) (a : StoreLabel) : Decidable (AfterEpoch s a) :=
  inferInstanceAs (Decidable (∀ now ∈ labelTime a, 0 ≤ unixMilli now))

instance (s : StoreRun) (a : StoreLabel) : Decidable (OrderlyStep s a) :=
  inferInstanceAs (Decidable ((∀ id ∈ leasedJob s a, ∀ e ∈ s.pending.entries, e.2.id ≠ id) ∧
    AfterEpoch s a))

/-! ## One active job per intent -/

/-- The intent key of a row is that of its columns, and no two active rows share it. -/
structure IntentInvariant (s : StoreRun) : Prop where
  keys : ∀ id row, s.store.jobs.lookup id = some row → row.intentKey = jobIntentKey row.request
  unique : ∀ id id' row row', s.store.jobs.lookup id = some row → s.store.jobs.lookup id' = some row' →
    row.state.active = true → row'.state.active = true → row.intentKey = row'.intentKey → id = id'

variable {s t : StoreRun}

omit [TextTables] [URLParser] in
/-- `Submit` finds the active job of an intent, if there is one. -/
theorem findActive_eq_some {store : Tables} {key : String} {row : JobRow}
    (h : store.findActive key = some row) : row.intentKey = key ∧ row.state.active = true ∧
      ∃ id, store.jobs.lookup id = some row := by
  unfold Tables.findActive at h
  obtain ⟨⟨id, found⟩, hfound, rfl⟩ := Option.map_eq_some_iff.1 h
  have hmem := List.mem_of_find?_eq_some hfound
  have hguard := List.find?_some hfound
  simp only [Bool.and_eq_true, decide_eq_true_eq] at hguard
  exact ⟨hguard.1, hguard.2, id, (Table.lookup_eq_some_iff_mem _ _ _).2 hmem⟩

omit [TextTables] [URLParser] in
theorem findActive_eq_none {store : Tables} {key : String} (h : store.findActive key = none) :
    ∀ id row, store.jobs.lookup id = some row → row.state.active = true → row.intentKey ≠ key := by
  intro id row hrow hactive hkey
  unfold Tables.findActive at h
  rw [Option.map_eq_none_iff, List.find?_eq_none] at h
  apply h ⟨id, row⟩ ((Table.lookup_eq_some_iff_mem _ _ _).1 hrow)
  simp [hkey, hactive]

omit [URLParser] in
/-- A row that takes the place of one with the same intent, and is active only if that one was. -/
theorem IntentInvariant.replace (hinv : IntentInvariant s) {jobs : Table String JobRow} {id : String}
    {row : JobRow} (row' : JobRow) (hrow : s.store.jobs.lookup id = some row) (hkey : row'.intentKey = row.intentKey)
    (hrequest : row'.request = row.request) (hactive : row.state.active = true)
    (hjobs : t.store.jobs = jobs) (hlookup : ∀ id', jobs.lookup id' =
      if id' = id then some row' else s.store.jobs.lookup id') : IntentInvariant t := by
  -- every row of the new table has the intent of a row that was there
  have hback : ∀ id' r, t.store.jobs.lookup id' = some r → ∃ r', s.store.jobs.lookup id' = some r' ∧
      r.intentKey = r'.intentKey ∧ r.request = r'.request ∧
      (r.state.active = true → r'.state.active = true) := by
    intro id' r hr
    rw [hjobs, hlookup] at hr
    split at hr
    · next heq =>
      cases hr
      exact ⟨row, heq ▸ hrow, hkey, hrequest, fun _ => hactive⟩
    · exact ⟨r, hr, rfl, rfl, fun h => h⟩
  constructor
  · intro id' r hr
    obtain ⟨r', hr', hkey', hrequest', -⟩ := hback id' r hr
    rw [hkey', hrequest']
    exact hinv.keys id' r' hr'
  · intro id₁ id₂ r₁ r₂ hr₁ hr₂ hactive₁ hactive₂ hsame
    obtain ⟨r₁', hr₁', hkey₁, -, hwas₁⟩ := hback id₁ r₁ hr₁
    obtain ⟨r₂', hr₂', hkey₂, -, hwas₂⟩ := hback id₂ r₂ hr₂
    apply hinv.unique id₁ id₂ r₁' r₂' hr₁' hr₂' (hwas₁ hactive₁) (hwas₂ hactive₂)
    rw [← hkey₁, ← hkey₂, hsame]

/-- Every move keeps one active job for each intent. -/
theorem StoreMove.intentInvariant {a : StoreLabel} (hleases : LeaseInvariant s)
    (hinv : IntentInvariant s) (hmove : StoreMove s t a) : IntentInvariant t := by
  cases hmove with
  | same hstore hleases' hcommitted =>
    constructor
    · rw [hstore]
      exact hinv.keys
    · rw [hstore]
      exact hinv.unique
  | @submitted id request now queued hsubmitted hleases' hcommitted =>
    have hlookup : ∀ id', t.store.jobs.lookup id' = if id' = queued.id then
        some (queuedRow queued (unixMilli now)) else s.store.jobs.lookup id' := by
      intro id'
      rw [hsubmitted.written]
      exact Table.lookup_insert _ _ _ _
    have hfree := findActive_eq_none hsubmitted.free
    constructor
    · intro id' row hrow
      rw [hlookup] at hrow
      split at hrow
      · cases hrow
        rfl
      · exact hinv.keys id' row hrow
    · intro id₁ id₂ r₁ r₂ hr₁ hr₂ hactive₁ hactive₂ hsame
      rw [hlookup] at hr₁ hr₂
      split at hr₁
      · next heq₁ =>
        split at hr₂
        · next heq₂ => rw [heq₁, heq₂]
        · -- the intent of the new job was free
          cases hr₁
          exact absurd hsame.symm (hfree id₂ r₂ hr₂ hactive₂)
      · split at hr₂
        · cases hr₂
          exact absurd hsame (hfree id₁ r₁ hr₁ hactive₁)
        · exact hinv.unique id₁ id₂ r₁ r₂ hr₁ hr₂ hactive₁ hactive₂ hsame
  | @leased _ id row now leaseDuration hlabel hnow hrow heligible hstore hleases' hcommitted =>
    obtain rfl := hleases.keys id row hrow
    have hactive : row.state.active = true := by
      simp only [eligible, Bool.and_eq_true] at heligible
      exact heligible.1.1
    exact hinv.replace (leasedRow row now leaseDuration) hrow rfl rfl hactive
      (congrArg Tables.jobs hstore) fun id' => Table.lookup_insert _ _ _ _
  | @committed position call now claim row row' rows' hclaim hchange ht =>
    obtain ⟨hid, -, hkey, hrequest, -⟩ := hchange.change.frame
    have hid' : (JobStore.released now row').id = claim.job.id :=
      hid.trans (hleases.keys _ _ hchange.lookup)
    apply hinv.replace (JobStore.released now row') hchange.lookup hkey hrequest
      (hchange.lease.active hchange.change) hchange.jobs
    intro id'
    rw [hid']
    exact Table.lookup_insert _ _ _ _

/-! ## Leases follow each other -/

/-- Every version up to that of a row has been leased, and a lease is granted only when the one before
it has expired by the clock of the `Claim`, or has been given back. -/
structure LeaseOrder (s : StoreRun) : Prop where
  complete : ∀ id row, s.store.jobs.lookup id = some row → ∀ v, 1 ≤ v → v ≤ row.leaseVersion →
    ∃ l ∈ s.leases, l.job = id ∧ l.version = v
  expired : s.leases.Pairwise fun l l' => l.job = l'.job → l'.version = l.version + 1 →
    l.expires ≤ unixMilli l'.grantedAt ∨ IsCommitted s l.job l.version

/-- What is committed stays committed. -/
theorem StoreMove.isCommitted {a : StoreLabel} (hmove : StoreMove s t a) {id : String} {version : ℤ}
    (h : IsCommitted s id version) : IsCommitted t id version := by
  cases hmove with
  | same hstore hleases' hcommitted => rwa [IsCommitted, hcommitted]
  | submitted hsubmitted hleases' hcommitted => rwa [IsCommitted, hcommitted]
  | leased hlabel hnow hrow heligible hstore hleases' hcommitted => rwa [IsCommitted, hcommitted]
  | committed hclaim hchange ht =>
    rw [ht, isCommitted_commit]
    exact Or.inl h

/-- Every move keeps the order of the leases. -/
theorem StoreMove.leaseOrder {a : StoreLabel} (hleases : LeaseInvariant s) (hinv : LeaseOrder s)
    (hmove : StoreMove s t a) : LeaseOrder t := by
  have hkept : (s.leases.Pairwise fun l l' => l.job = l'.job → l'.version = l.version + 1 →
      l.expires ≤ unixMilli l'.grantedAt ∨ IsCommitted t l.job l.version) :=
    hinv.expired.imp fun h hjob hversion =>
      (h hjob hversion).imp_right fun hcommitted => hmove.isCommitted hcommitted
  cases hmove with
  | same hstore hleases' hcommitted =>
    constructor
    · rw [hstore, hleases']
      exact hinv.complete
    · rw [hleases']
      exact hkept
  | @submitted id request now queued hsubmitted hleases' hcommitted =>
    constructor
    · intro id' row hrow v hlow hhigh
      rw [hsubmitted.written, Table.lookup_insert] at hrow
      rw [hleases']
      split at hrow
      · -- a new job has no lease
        cases hrow
        simp only [queuedRow] at hhigh
        omega
      · exact hinv.complete id' row hrow v hlow hhigh
    · rw [hleases']
      exact hkept
  | @leased _ id row now leaseDuration hlabel hnow hrow heligible hstore hleases' hcommitted =>
    obtain rfl := hleases.keys id row hrow
    constructor
    · intro id' row' hrow' v hlow hhigh
      rw [hstore, Table.lookup_insert] at hrow'
      rw [hleases']
      split at hrow'
      · next heq =>
        cases hrow'
        simp only [leasedRow] at hhigh
        by_cases hlast : v = row.leaseVersion + 1
        · exact ⟨_, List.mem_append_right _ (List.mem_singleton_self _), heq.symm, hlast.symm⟩
        · obtain ⟨l, hl, hrest⟩ := hinv.complete row.id row hrow v hlow (by omega)
          exact ⟨l, List.mem_append_left _ hl, heq ▸ hrest⟩
      · obtain ⟨l, hl, hrest⟩ := hinv.complete id' row' hrow' v hlow hhigh
        exact ⟨l, List.mem_append_left _ hl, hrest⟩
    · rw [hleases']
      refine List.pairwise_append.2 ⟨hkept, List.pairwise_singleton _ _, ?_⟩
      intro l hl l' hl' hjob hversion
      cases List.mem_singleton.1 hl'
      -- the lease before the new one is the one in the columns of the row
      obtain ⟨r, hr, -, hlast⟩ := hleases.leases l hl
      rw [show l.job = row.id from hjob, hrow] at hr
      cases hr
      have hsame : l.version = row.leaseVersion := by
        have hversion' : row.leaseVersion + 1 = l.version + 1 := hversion
        omega
      rcases hlast hsame with hcommitted' | huntil
      · right
        rwa [IsCommitted, hcommitted]
      · left
        simp only [eligible, Bool.and_eq_true, decide_eq_true_eq] at heligible
        exact huntil ▸ heligible.2
  | @committed position call now claim row row' rows' hclaim hchange ht =>
    obtain ⟨hid, hversion, -⟩ := hchange.change.frame
    have hid' : (JobStore.released now row').id = claim.job.id :=
      hid.trans (hleases.keys _ _ hchange.lookup)
    have hleases' : t.leases = s.leases := by rw [ht]; rfl
    constructor
    · intro id' r hr v hlow hhigh
      rw [hchange.jobs, Table.lookup_insert, hid'] at hr
      rw [hleases']
      split at hr
      · next heq =>
        cases hr
        have hhigh' : v ≤ row.leaseVersion := hversion ▸ hhigh
        exact hinv.complete id' row (heq ▸ hchange.lookup) v hlow hhigh'
      · exact hinv.complete id' r hr v hlow hhigh
    · rw [hleases']
      exact hkept

/-! ## What has ended stays as it is -/

/-- A job that has ended, and its candidates, are the same later. -/
def KeepsEnded (s t : StoreRun) : Prop :=
  ∀ id row, s.store.jobs.lookup id = some row → row.state.active = false →
    t.store.jobs.lookup id = some row ∧ t.store.candidatesOf id = s.store.candidatesOf id

theorem StoreMove.keepsEnded {a : StoreLabel} (hleases : LeaseInvariant s) (hmove : StoreMove s t a) :
    KeepsEnded s t := by
  intro id row hrow hended
  cases hmove with
  | same hstore hleases' hcommitted =>
    rw [hstore]
    exact ⟨hrow, rfl⟩
  | @submitted id' request now queued hsubmitted hleases' hcommitted =>
    rw [hsubmitted.written]
    refine ⟨?_, rfl⟩
    rw [Table.lookup_insert, if_neg]
    · exact hrow
    · rintro rfl
      rw [hsubmitted.fresh] at hrow
      cases hrow
  | @leased _ id' row' now leaseDuration hlabel hnow hrow' heligible hstore hleases' hcommitted =>
    obtain rfl := hleases.keys id' row' hrow'
    rw [hstore]
    refine ⟨?_, rfl⟩
    rw [Table.lookup_insert, if_neg]
    · exact hrow
    · -- a job that has ended is not eligible
      rintro rfl
      rw [hrow] at hrow'
      cases hrow'
      simp [eligible, hended] at heligible
  | @committed position call now claim row' row'' rows' hclaim hchange ht =>
    have hid : (JobStore.released now row'').id = claim.job.id :=
      hchange.change.frame.1.trans (hleases.keys _ _ hchange.lookup)
    have hne : id ≠ claim.job.id := by
      rintro rfl
      have hactive := hchange.lease.active hchange.change
      rw [hchange.lookup] at hrow
      cases hrow
      rw [hended] at hactive
      cases hactive
    rw [hchange.jobs, hchange.candidates, Table.lookup_insert, hid, if_neg hne, if_neg hne]
    exact ⟨hrow, rfl⟩

/-! ## The guarantees together -/

/-- The claim has the latest lease of its job, which has not expired. -/
def HoldsUnexpired (s : StoreRun) (c : AcquisitionJobClaim) (now : Time) : Prop :=
  ∃ row, s.store.jobs.lookup c.job.id = some row ∧ row.leaseVersion = c.leaseVersion ∧
    unixMilli now < row.leaseUntilUnixMs

/-- What `Submit` does when it returns a job: it returns the active job of the intent, and makes one
only if there is none. -/
def SubmitsOnce (s : StoreRun) (id : String) (request : SearchRequest) (now : Time) : Prop :=
  ∀ t job isNew, submit s.store id request now = (t, .ok (job, isNew)) →
    ∃ queued, newAcquisitionJobSnapshot (queuedSnapshot id request now) = .ok queued ∧
      (∀ id' row, s.store.jobs.lookup id' = some row → row.state.active = true →
        row.intentKey = jobIntentKey queued.request →
          isNew = false ∧ t = s.store ∧ queryJob row = .ok job) ∧
      ((∀ id' row, s.store.jobs.lookup id' = some row → row.state.active = true →
        row.intentKey ≠ jobIntentKey queued.request) →
          isNew = true ∧ job = queued ∧ s.store.jobs.lookup queued.id = none)

/-- What workers may rely on, in one state and along a run to another. -/
structure LeaseSafety (s t : StoreRun) : Prop where
  /-- At most one transition commits under a lease. -/
  once : (s.committed.map fun e => (e.job, e.version)).Nodup
  /-- It commits before this lease expires. -/
  unexpired : ∀ e ∈ s.committed, ∃ l ∈ s.leases, l.job = e.job ∧ l.version = e.version ∧
    unixMilli e.now < l.expires
  /-- The lease versions of a job increase, also among the claims returned. -/
  increasing : s.leases.Pairwise fun l l' => l.job = l'.job → l.version < l'.version
  claimed : s.claims.Pairwise fun c c' => c.job.id = c'.job.id → c.leaseVersion < c'.leaseVersion
  /-- One lease follows another when that one has expired or has been given back. -/
  order : LeaseOrder s
  /-- No two claims hold unexpired leases of one job. -/
  alone : ∀ c ∈ s.claims, ∀ c' ∈ s.claims, c.job.id = c'.job.id → ∀ now now',
    HoldsUnexpired s c now → HoldsUnexpired s c' now' → c = c'
  /-- A call that does not hold the lease of its job, or finds it in another stage, changes nothing. -/
  refused : ∀ claim call now, (∀ row, s.store.jobs.lookup claim.job.id = some row →
    ¬ HoldsLease claim now (callStates claim call) row) →
      ∃ e, runCall s.store claim call now = (s.store, .error e)
  /-- Nor does any other call that fails. -/
  failed : ∀ claim call now store e, runCall s.store claim call now = (store, .error e) → store = s.store
  /-- What has ended stays as it is. -/
  ended : KeepsEnded s t
  /-- One active job for each intent, which is the one that `Submit` returns. -/
  intents : IntentInvariant s
  submits : ∀ id request now, SubmitsOnce s id request now

theorem runCall_refused {store : Tables} {claim : AcquisitionJobClaim} {call : TransitionCall}
    {now : Time} (h : ∀ row, store.jobs.lookup claim.job.id = some row →
      ¬ HoldsLease claim now (callStates claim call) row) :
    ∃ e, runCall store claim call now = (store, .error e) := by
  cases hcall : runCall store claim call now with
  | mk t r =>
    cases r with
    | error e =>
      obtain rfl := runCall_error hcall
      exact ⟨e, rfl⟩
    | ok u =>
      obtain ⟨row, row', rows', hcommitted⟩ := runCall_ok hcall
      exact absurd hcommitted.lease (h row hcommitted.lookup)

theorem IntentInvariant.submitsOnce (hinv : IntentInvariant s) (id : String) (request : SearchRequest)
    (now : Time) : SubmitsOnce s id request now := by
  intro t job isNew h
  rcases submit_cases h with ⟨-, e, he⟩ | ⟨rfl, queued, row, job', hqueued, hfound, hread, hr⟩ |
    ⟨queued, hsubmitted, hr⟩
  · cases he
  · obtain ⟨hkey, hactive, id', hrow⟩ := findActive_eq_some hfound
    cases hr
    refine ⟨queued, hqueued, ?_, fun hnone => absurd hkey (hnone id' row hrow hactive)⟩
    intro id'' row'' hrow'' hactive'' hkey''
    have heq := hinv.unique id'' id' row'' row hrow'' hrow hactive'' hactive (hkey''.trans hkey.symm)
    rw [heq, hrow] at hrow''
    cases hrow''
    exact ⟨rfl, rfl, hread⟩
  · cases hr
    refine ⟨job, hsubmitted.snapshot, ?_, fun _ => ⟨rfl, rfl, hsubmitted.fresh⟩⟩
    intro id' row hrow hactive hkey
    exact absurd hkey (findActive_eq_none hsubmitted.free id' row hrow hactive)

/-- The claims of a job have different versions. -/
theorem LeaseInvariant.claims_distinct (hinv : LeaseInvariant s) {c c' : AcquisitionJobClaim}
    (hc : c ∈ s.claims) (hc' : c' ∈ s.claims) (hjob : c.job.id = c'.job.id)
    (hversion : c.leaseVersion = c'.leaseVersion) : c = c' := by
  have hsymm : Std.Symm fun c c' : AcquisitionJobClaim =>
      c.job.id = c'.job.id → c.leaseVersion ≠ c'.leaseVersion :=
    ⟨fun a b h hid => (h hid.symm).symm⟩
  have hpair : s.claims.Pairwise fun c c' => c.job.id = c'.job.id →
      c.leaseVersion ≠ c'.leaseVersion := hinv.ordered.imp fun h hid => (h hid).ne
  by_contra hne
  exact hpair.forall hc hc' hne hjob hversion

/-- The invariants of the leases and the intents, in every orderly run. -/
theorem invariants_of_orderly (hs : storeSystem.ReachableBy OrderlyStep s) :
    LeaseInvariant s ∧ LeaseOrder s ∧ IntentInvariant s := by
  have hleases : ∀ s, storeSystem.ReachableBy OrderlyStep s → LeaseInvariant s := fun s hs =>
    leaseInvariant_of_reachable (fun _ _ ha => ha.1) (fun _ _ ha => ha.2.punctual) hs
  refine ⟨hleases s hs, hs.invariant_under hleases ?_ ?_, hs.invariant_under hleases ?_ ?_⟩
  · rintro _ ⟨clock, rfl⟩
    constructor
    · simp [emptyRun, Tables.empty]
    · exact List.Pairwise.nil
  · intro s a t hlease hinv _ hstep
    exact (storeStep_move hstep).leaseOrder hlease hinv
  · rintro _ ⟨clock, rfl⟩
    constructor
    · simp [emptyRun, Tables.empty]
    · simp [emptyRun, Tables.empty]
  · intro s a t hlease hinv _ hstep
    exact (storeStep_move hstep).intentInvariant hlease hinv

/-- When no `Claim` is overtaken between its statements by another `Claim` of its job, the leases are
safe, for any workers and in any order of calls. -/
theorem lease_safety (hs : storeSystem.ReachableBy OrderlyStep s)
    (hreaches : storeSystem.ReachesBy OrderlyStep s t) : LeaseSafety s t := by
  obtain ⟨hleases, horder, hintents⟩ := invariants_of_orderly hs
  constructor
  · exact hleases.once
  · exact hleases.committed
  · exact hleases.increasing
  · exact hleases.ordered
  · exact horder
  · -- two claims of one job have different versions, and the row has one
    rintro c hc c' hc' hjob now now' ⟨row, hrow, hversion, -⟩ ⟨row', hrow', hversion', -⟩
    rw [← hjob, hrow] at hrow'
    cases hrow'
    exact hleases.claims_distinct hc hc' hjob (hversion.symm.trans hversion')
  · exact fun claim call now h => runCall_refused h
  · exact fun claim call now store e h => runCall_error h
  · apply hreaches.related hs
    · exact fun s id row hrow _ => ⟨hrow, rfl⟩
    · intro s t u hst htu id row hrow hended
      obtain ⟨hrow', hcandidates⟩ := hst id row hrow hended
      obtain ⟨hrow'', hcandidates'⟩ := htu id row hrow' hended
      exact ⟨hrow'', hcandidates'.trans hcandidates⟩
    · intro s a t hs _ hstep
      exact (storeStep_move hstep).keepsEnded (invariants_of_orderly hs).1
  · exact hintents
  · exact fun id request now => hintents.submitsOnce id request now

end Safety

/-! ### Small runs -/

section SmallRuns

attribute [local instance] TextTables.ascii URLParser.refuseAll

def otherJob : String := "00000000000000000000000000000002"

/-- One worker's lease expires before it acts, and another worker ends the job. -/
def expiredLabels : List StoreLabel :=
  [.submit smallJob smallRequest (atSecond 0), .claimUpdate 0 (atSecond 0) (atSecond 5), .claimRead 0,
    .claim (atSecond 10) (atSecond 60), .call 0 (.fail .noRelease false) (atSecond 11),
    .call 1 (.fail .noRelease false) (atSecond 12)]

theorem lease_safety_small : ∃ s t,
    storeSystem.runChecked OrderlyStep (emptyRun 0) expiredLabels = some s ∧
    storeSystem.runChecked OrderlyStep s [.submit otherJob smallRequest (atSecond 20)] = some t ∧
    s.claims.map (fun c => c.leaseVersion) = [1, 2] ∧
    s.committed.map (fun e => e.version) = [2] ∧ LeaseSafety s t := by
  have hvalues : ((storeSystem.runChecked OrderlyStep (emptyRun 0) expiredLabels).bind fun s =>
      (storeSystem.runChecked OrderlyStep s [.submit otherJob smallRequest (atSecond 20)]).map fun _ =>
        (s.claims.map fun c => c.leaseVersion, s.committed.map fun e => e.version)) =
      some ([1, 2], [2]) := by
    decide +kernel
  simp only [Option.bind_eq_some_iff, Option.map_eq_some_iff, Prod.mk.injEq] at hvalues
  obtain ⟨s, hs, t, ht, hclaims, hcommitted⟩ := hvalues
  exact ⟨s, t, hs, ht, hclaims, hcommitted, lease_safety
    (System.ReachableBy.reaches (.init ⟨0, rfl⟩) (System.reachesBy_of_runChecked hs))
    (System.reachesBy_of_runChecked ht)⟩

/-- A lease of a second expires between the statements of its `Claim`, another `Claim` leases the job,
and both return the second version. -/
def overtakenLabels : List StoreLabel :=
  [.submit smallJob smallRequest (atSecond 0), .claimUpdate 0 (atSecond 0) (atSecond 1),
    .claim (atSecond 5) (atSecond 60), .claimRead 0]

theorem overtaken_claim : ¬ ∀ s t, storeSystem.ReachableBy AfterEpoch s →
    storeSystem.ReachesBy AfterEpoch s t → LeaseSafety s t := by
  intro hclaim
  have hvalues : (storeSystem.runChecked AfterEpoch (emptyRun 0) overtakenLabels).map
      (fun s => s.claims.map fun c => (c.job.id, c.leaseVersion)) =
      some [(smallJob, 2), (smallJob, 2)] := by
    decide +kernel
  rw [Option.map_eq_some_iff] at hvalues
  obtain ⟨s, hs, hclaims⟩ := hvalues
  have hsafe := hclaim s s
    (System.ReachableBy.reaches (.init ⟨0, rfl⟩) (System.reachesBy_of_runChecked hs)) .refl
  -- the versions of the two claims do not increase
  have hpairs : (s.claims.map fun c => (c.job.id, c.leaseVersion)).Pairwise
      fun p p' => p.1 = p'.1 → p.2 < p'.2 := List.pairwise_map.2 hsafe.claimed
  rw [hclaims] at hpairs
  exact absurd hpairs (by decide)

end SmallRuns

end BlackPearl.JobStore
