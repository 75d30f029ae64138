import BlackPearl.Library.Transition
import BlackPearl.JobStore.Transitions

/-!
# Runs of the job store

`StoreRun` is the store with everything its callers hold: the claims that have been returned, and
the workers between the two statements of `Claim`. It also remembers the leases granted and the
transitions committed, for statements about whole runs.

A label is one call, with its arguments; `claimUpdate` and `claimRead` are the two statements of a
`Claim` that other calls may come between, and `claim` is a `Claim` that nothing comes between. The
invariant `LeaseInvariant` ties every claim to the row of its job: while the lease of a claim is the
latest one and nothing has been committed under it, the row is the one that the claim was read from.
-/

set_option autoImplicit false

namespace BlackPearl.JobStore

open BlackPearl.Library BlackPearl.Domain BlackPearl.Acquisition

section Runs

variable [TextTables] [URLParser]

/-! ## The system -/

/-- A lease that `Claim` has granted. -/
structure Lease where
  job : String
  version : ℤ
  grantedAt : Time
  expires : ℤ
  deriving DecidableEq

/-- A transition that has committed. -/
structure Commit where
  job : String
  version : ℤ
  call : TransitionCall
  now : Time
  deriving DecidableEq

/-- The store, its callers, and what has happened. -/
structure StoreRun where
  store : Tables
  pending : Table ℕ AcquisitionJob
  claims : List AcquisitionJobClaim
  leases : List Lease
  committed : List Commit
  clock : Time

/-- The calls, and the two statements of `Claim`. A transition is called with a claim that has been
returned before, given by its position. -/
inductive StoreLabel
  | submit (id : String) (request : SearchRequest) (now : Time)
  | claim (now : Time) (leaseDuration : ℤ)
  | claimUpdate (worker : ℕ) (now : Time) (leaseDuration : ℤ)
  | claimRead (worker : ℕ)
  | claimLost (worker : ℕ)
  | call (position : ℕ) (call : TransitionCall) (now : Time)

/-- The lease that a `Claim` grants, if it leases a job. -/
def granted (store : Tables) (now : Time) (leaseDuration : ℤ) : List Lease :=
  match leaseNext store now leaseDuration with
  | .error _ => []
  | .ok (_, row) => [⟨row.id, row.leaseVersion, now, row.leaseUntilUnixMs⟩]

/-- The transition that a call commits, if it succeeds. -/
def commits (claim : AcquisitionJobClaim) (call : TransitionCall) (now : Time) :
    Except StoreError Unit → List Commit
  | .ok () => [⟨claim.job.id, claim.leaseVersion, call, now⟩]
  | .error _ => []

/-- The claim that a caller receives. -/
def received : Except StoreError AcquisitionJobClaim → List AcquisitionJobClaim
  | .ok claim => [claim]
  | .error _ => []

/-- One call, or one statement of `Claim`. -/
def storeStep (s : StoreRun) : StoreLabel → Option StoreRun
  | .submit id request now => some { s with
      store := (submit s.store id request now).1
      clock := now }
  | .claim now leaseDuration => some { s with
      store := (claim s.store now leaseDuration).1
      claims := s.claims ++ received (claim s.store now leaseDuration).2
      leases := s.leases ++ granted s.store now leaseDuration
      clock := now }
  | .claimUpdate worker now leaseDuration =>
      if (s.pending.lookup worker).isSome then none
      else some { s with
        store := (claimUpdate s.store now leaseDuration).1
        pending := match (claimUpdate s.store now leaseDuration).2 with
          | .ok job => s.pending.insert worker job
          | .error _ => s.pending
        leases := s.leases ++ granted s.store now leaseDuration
        clock := now }
  | .claimRead worker =>
      match s.pending.lookup worker with
      | none => none
      | some job => some { s with
          pending := s.pending.erase worker
          claims := s.claims ++ received (claimRead s.store job) }
  | .claimLost worker =>
      match s.pending.lookup worker with
      | none => none
      | some _ => some { s with pending := s.pending.erase worker }
  | .call position call now =>
      match s.claims[position]? with
      | none => none
      | some claim => some { s with
          store := (runCall s.store claim call now).1
          committed := s.committed ++ commits claim call now (runCall s.store claim call now).2
          clock := now }

/-- A store that nothing has been submitted to. -/
def emptyRun (clock : Time) : StoreRun := ⟨.empty, ∅, [], [], [], clock⟩

/-- The job store from an empty database on. -/
def storeSystem : System StoreRun StoreLabel where
  init s := ∃ clock, s = emptyRun clock
  step := storeStep

/-- The labels of a sequence of calls, none of which comes between the statements of another. -/
def isCall : StoreLabel → Bool
  | .submit _ _ _ | .claim _ _ | .call _ _ _ => true
  | .claimUpdate _ _ _ | .claimRead _ | .claimLost _ => false

/-- The time that a call is given. -/
def labelTime : StoreLabel → Option Time
  | .submit _ _ now | .claim now _ | .claimUpdate _ now _ | .call _ _ now => some now
  | .claimRead _ | .claimLost _ => none

/-- The job that a `Claim` leases. -/
def leasedJob (s : StoreRun) : StoreLabel → Option String
  | .claim now leaseDuration | .claimUpdate _ now leaseDuration =>
      (granted s.store now leaseDuration).head?.map Lease.job
  | _ => none

/-- No `Claim` leases a job between the statements of another `Claim` of the same job. -/
def NotOvertaken (s : StoreRun) (a : StoreLabel) : Prop :=
  ∀ id ∈ leasedJob s a, ∀ e ∈ s.pending.entries, e.2.id ≠ id

/-- Whether a transition has committed under a lease version. -/
def IsCommitted (s : StoreRun) (id : String) (version : ℤ) : Prop :=
  ∃ e ∈ s.committed, e.job = id ∧ e.version = version

/-- A transition is called at or after the Unix epoch, or with a claim under which nothing has been
committed: a lease that has been given back looks like one that expired at the epoch. -/
def Punctual (s : StoreRun) : StoreLabel → Prop
  | .call position _ now => ∀ claim ∈ s.claims[position]?,
      0 ≤ unixMilli now ∨ ¬ IsCommitted s claim.job.id claim.leaseVersion
  | _ => True

/-! ## Claims and their rows -/

/-- A worker between the statements of `Claim`: its job is as stored, and nobody else has a claim of
the latest lease. -/
def Unclaimed (s : StoreRun) (job : AcquisitionJob) : Prop :=
  ∃ row, s.store.jobs.lookup job.id = some row ∧ queryJob row = .ok job ∧
    ¬ IsCommitted s job.id row.leaseVersion ∧
    (∃ l ∈ s.leases, l.job = job.id ∧ l.version = row.leaseVersion) ∧
    ∀ c ∈ s.claims, c.job.id = job.id → c.leaseVersion < row.leaseVersion

/-- What ties leases, claims and committed transitions to the rows. -/
structure LeaseInvariant (s : StoreRun) : Prop where
  keys : ∀ id row, s.store.jobs.lookup id = some row → row.id = id
  -- the latest lease of a row is the one in its columns, until it is given back
  leases : ∀ l ∈ s.leases, ∃ row, s.store.jobs.lookup l.job = some row ∧
    l.version ≤ row.leaseVersion ∧ (l.version = row.leaseVersion →
      IsCommitted s l.job l.version ∨ row.leaseUntilUnixMs = l.expires)
  released : ∀ id row, s.store.jobs.lookup id = some row → IsCommitted s id row.leaseVersion →
    row.leaseUntilUnixMs = 0
  increasing : s.leases.Pairwise fun l l' => l.job = l'.job → l.version < l'.version
  claims : ∀ c ∈ s.claims, ∃ l ∈ s.leases, l.job = c.job.id ∧ l.version = c.leaseVersion
  -- until something is committed under the latest claim, the row is the one it was read from
  snapshot : ∀ c ∈ s.claims, ∀ row, s.store.jobs.lookup c.job.id = some row →
    row.leaseVersion = c.leaseVersion → ¬ IsCommitted s c.job.id c.leaseVersion →
    queryJob row = .ok c.job
  ordered : s.claims.Pairwise fun c c' => c.job.id = c'.job.id → c.leaseVersion < c'.leaseVersion
  pending : ∀ w job, s.pending.lookup w = some job → Unclaimed s job
  distinct : ∀ w w' job job', s.pending.lookup w = some job → s.pending.lookup w' = some job' →
    job.id = job'.id → w = w'
  committed : ∀ e ∈ s.committed, ∃ l ∈ s.leases, l.job = e.job ∧ l.version = e.version ∧
    unixMilli e.now < l.expires
  once : (s.committed.map fun e => (e.job, e.version)).Nodup

variable {s : StoreRun}

/-- Everything that mentions a job mentions a stored one. -/
theorem LeaseInvariant.lease_of_claim (hinv : LeaseInvariant s) {c : AcquisitionJobClaim}
    (hc : c ∈ s.claims) : ∃ row, s.store.jobs.lookup c.job.id = some row ∧
      c.leaseVersion ≤ row.leaseVersion := by
  obtain ⟨l, hl, hjob, hversion⟩ := hinv.claims c hc
  obtain ⟨row, hrow, hle, -⟩ := hinv.leases l hl
  exact ⟨row, hjob ▸ hrow, hversion ▸ hle⟩

theorem LeaseInvariant.lease_of_commit (hinv : LeaseInvariant s) {id : String} {version : ℤ}
    (h : IsCommitted s id version) : ∃ row, s.store.jobs.lookup id = some row ∧
      version ≤ row.leaseVersion := by
  obtain ⟨e, he, rfl, rfl⟩ := h
  obtain ⟨l, hl, hjob, hversion, -⟩ := hinv.committed e he
  obtain ⟨row, hrow, hle, -⟩ := hinv.leases l hl
  exact ⟨row, hjob ▸ hrow, hversion ▸ hle⟩

/-- A claim that is used in time holds a lease under which nothing has been committed. -/
theorem LeaseInvariant.not_committed (hinv : LeaseInvariant s) {position : ℕ}
    {claim : AcquisitionJobClaim} {call : TransitionCall} {now : Time} {states : List JobState}
    {row : JobRow} (hpunctual : Punctual s (.call position call now))
    (hclaim : s.claims[position]? = some claim)
    (hrow : s.store.jobs.lookup claim.job.id = some row)
    (hlease : HoldsLease claim now states row) :
    ¬ IsCommitted s claim.job.id claim.leaseVersion := by
  intro hcommitted
  rcases hpunctual claim hclaim with hnow | hnot
  · have hzero := hinv.released _ row hrow (hlease.version ▸ hcommitted)
    have hlt := hlease.unexpired
    rw [hzero] at hlt
    exact absurd hlt (not_lt.2 hnow)
  · exact hnot hcommitted

/-- Under its lease, a claim is the snapshot of the row. -/
theorem LeaseInvariant.claim_snapshot (hinv : LeaseInvariant s) {position : ℕ}
    {claim : AcquisitionJobClaim} {call : TransitionCall} {now : Time} {states : List JobState}
    {row : JobRow} (hpunctual : Punctual s (.call position call now))
    (hclaim : s.claims[position]? = some claim)
    (hrow : s.store.jobs.lookup claim.job.id = some row)
    (hlease : HoldsLease claim now states row) : queryJob row = .ok claim.job :=
  hinv.snapshot claim (List.mem_of_getElem? hclaim) row hrow hlease.version
    (hinv.not_committed hpunctual hclaim hrow hlease)

/-! ### Steps -/

/-- A new job is mentioned by nothing yet. -/
theorem LeaseInvariant.insert_job (hinv : LeaseInvariant s) (row : JobRow) (clock : Time)
    (hnew : s.store.jobs.lookup row.id = none) :
    LeaseInvariant { s with
      store := { s.store with jobs := s.store.jobs.insert row.id row }, clock := clock } := by
  have hkept : ∀ id r, s.store.jobs.lookup id = some r →
      (s.store.jobs.insert row.id row).lookup id = some r := by
    intro id r hr
    rw [Table.lookup_insert, if_neg]
    · exact hr
    · rintro rfl
      rw [hnew] at hr
      cases hr
  have hback : ∀ id r r', s.store.jobs.lookup id = some r →
      (s.store.jobs.insert row.id row).lookup id = some r' → r' = r := by
    intro id r r' hr hr'
    rw [hkept id r hr] at hr'
    exact (Option.some.inj hr').symm
  exact {
    keys := by
      intro id r hr
      simp only [Table.lookup_insert] at hr
      split at hr
      · next heq =>
        cases hr
        exact heq.symm
      · exact hinv.keys id r hr
    leases := by
      intro l hl
      obtain ⟨r, hr, hrest⟩ := hinv.leases l hl
      exact ⟨r, hkept _ _ hr, hrest⟩
    released := by
      intro id r hr hcommitted
      obtain ⟨r', hr', -⟩ := hinv.lease_of_commit hcommitted
      obtain rfl := hback id r' r hr' hr
      exact hinv.released id r hr' hcommitted
    increasing := hinv.increasing
    claims := hinv.claims
    snapshot := by
      intro c hc r hr hversion hnot
      obtain ⟨r', hr', -⟩ := hinv.lease_of_claim hc
      obtain rfl := hback _ r' r hr' hr
      exact hinv.snapshot c hc r hr' hversion hnot
    ordered := hinv.ordered
    pending := by
      intro w job hw
      obtain ⟨r, hr, hrest⟩ := hinv.pending w job hw
      exact ⟨r, hkept _ _ hr, hrest⟩
    distinct := hinv.distinct
    committed := hinv.committed
    once := hinv.once }

/-- The run after a lease has been granted. -/
def StoreRun.grant (s : StoreRun) (row : JobRow) (now : Time) : StoreRun :=
  { s with
    store := { s.store with jobs := s.store.jobs.insert row.id row }
    leases := s.leases ++ [⟨row.id, row.leaseVersion, now, row.leaseUntilUnixMs⟩]
    clock := now }

/-- A lease has a version above all that the job has had. -/
theorem LeaseInvariant.grant (hinv : LeaseInvariant s) {row : JobRow} (now : Time)
    (leaseDuration : ℤ) (hrow : s.store.jobs.lookup row.id = some row)
    (hfree : ∀ w job, s.pending.lookup w = some job → job.id ≠ row.id) :
    LeaseInvariant (s.grant (leasedRow row now leaseDuration) now) := by
  have hlookup : ∀ id, (s.grant (leasedRow row now leaseDuration) now).store.jobs.lookup id =
      if id = row.id then some (leasedRow row now leaseDuration) else s.store.jobs.lookup id :=
    fun id => Table.lookup_insert _ _ _ _
  have hbelow : ∀ version, IsCommitted s row.id version → version ≤ row.leaseVersion := by
    intro version hcommitted
    obtain ⟨r, hr, hle⟩ := hinv.lease_of_commit hcommitted
    rw [hrow] at hr
    cases hr
    exact hle
  exact {
    keys := by
      intro id r hr
      rw [hlookup] at hr
      split at hr
      · next heq =>
        cases hr
        exact heq.symm
      · exact hinv.keys id r hr
    leases := by
      intro l hl
      rcases List.mem_append.1 hl with hl | hl
      · obtain ⟨r, hr, hle, hlast⟩ := hinv.leases l hl
        rw [hlookup]
        split
        · next heq =>
          rw [heq, hrow] at hr
          cases hr
          refine ⟨_, rfl, ?_, fun hversion => ?_⟩
          · exact hle.trans (by simp [leasedRow])
          · simp only [leasedRow] at hversion
            omega
        · exact ⟨r, hr, hle, hlast⟩
      · cases List.mem_singleton.1 hl
        exact ⟨_, (hlookup _).trans (if_pos rfl), le_refl _, fun _ => Or.inr rfl⟩
    released := by
      intro id r hr hcommitted
      rw [hlookup] at hr
      split at hr
      · next heq =>
        cases hr
        have hle := hbelow _ (heq ▸ hcommitted)
        simp only [leasedRow] at hle
        omega
      · exact hinv.released id r hr hcommitted
    increasing := by
      refine List.pairwise_append.2 ⟨hinv.increasing, List.pairwise_singleton _ _, ?_⟩
      intro l hl l' hl' hjob
      cases List.mem_singleton.1 hl'
      obtain ⟨r, hr, hle, -⟩ := hinv.leases l hl
      have hjob' : l.job = row.id := hjob
      rw [hjob', hrow] at hr
      cases hr
      simp only [leasedRow]
      omega
    claims := by
      intro c hc
      obtain ⟨l, hl, hrest⟩ := hinv.claims c hc
      exact ⟨l, List.mem_append_left _ hl, hrest⟩
    snapshot := by
      intro c hc r hr hversion hnot
      rw [hlookup] at hr
      split at hr
      · next heq =>
        cases hr
        obtain ⟨r', hr', hle⟩ := hinv.lease_of_claim hc
        rw [heq, hrow] at hr'
        cases hr'
        simp only [leasedRow] at hversion
        omega
      · exact hinv.snapshot c hc r hr hversion hnot
    ordered := hinv.ordered
    pending := by
      intro w job hw
      obtain ⟨r, hr, hread, hnot, ⟨l, hl, hrest⟩, hclaims⟩ := hinv.pending w job hw
      refine ⟨r, ?_, hread, hnot, ⟨l, List.mem_append_left _ hl, hrest⟩, hclaims⟩
      rw [hlookup, if_neg (hfree w job hw)]
      exact hr
    distinct := hinv.distinct
    committed := by
      intro e he
      obtain ⟨l, hl, hrest⟩ := hinv.committed e he
      exact ⟨l, List.mem_append_left _ hl, hrest⟩
    once := hinv.once }

/-- Nobody holds a lease that has just been granted. -/
theorem LeaseInvariant.unclaimed (hinv : LeaseInvariant s) {row : JobRow} {now : Time}
    {leaseDuration : ℤ} {job : AcquisitionJob} (hrow : s.store.jobs.lookup row.id = some row)
    (hread : queryJob (leasedRow row now leaseDuration) = .ok job) :
    Unclaimed (s.grant (leasedRow row now leaseDuration) now) job := by
  have hid : job.id = row.id := (queryJob_readFrom hread).id
  refine ⟨leasedRow row now leaseDuration, ?_, hread, ?_, ?_, ?_⟩
  · rw [hid]
    exact AList.lookup_insert _
  · intro hcommitted
    obtain ⟨r, hr, hle⟩ := hinv.lease_of_commit hcommitted
    rw [hid, hrow] at hr
    cases hr
    simp only [leasedRow] at hle
    omega
  · exact ⟨_, List.mem_append_right _ (List.mem_singleton_self _), hid.symm, rfl⟩
  · intro c hc hjob
    obtain ⟨r, hr, hle⟩ := hinv.lease_of_claim hc
    rw [hjob, hid, hrow] at hr
    cases hr
    simp only [leasedRow]
    omega

theorem LeaseInvariant.insert_pending (hinv : LeaseInvariant s) {worker : ℕ} {job : AcquisitionJob}
    (hjob : Unclaimed s job) (hfree : ∀ w j, s.pending.lookup w = some j → j.id ≠ job.id) :
    LeaseInvariant { s with pending := s.pending.insert worker job } where
  keys := hinv.keys
  leases := hinv.leases
  released := hinv.released
  increasing := hinv.increasing
  claims := hinv.claims
  snapshot := hinv.snapshot
  ordered := hinv.ordered
  pending := by
    intro w j hw
    simp only [Table.lookup_insert] at hw
    split at hw
    · cases hw
      exact hjob
    · exact hinv.pending w j hw
  distinct := by
    intro w w' j j' hw hw' hid
    simp only [Table.lookup_insert] at hw hw'
    split at hw
    · next heq =>
      cases hw
      split at hw'
      · next heq' => rw [heq, heq']
      · exact absurd hid.symm (hfree w' j' hw')
    · split at hw'
      · cases hw'
        exact absurd hid (hfree w j hw)
      · exact hinv.distinct w w' j j' hw hw' hid
  committed := hinv.committed
  once := hinv.once

theorem LeaseInvariant.erase_pending (hinv : LeaseInvariant s) (worker : ℕ) :
    LeaseInvariant { s with pending := s.pending.erase worker } where
  keys := hinv.keys
  leases := hinv.leases
  released := hinv.released
  increasing := hinv.increasing
  claims := hinv.claims
  snapshot := hinv.snapshot
  ordered := hinv.ordered
  pending := by
    intro w j hw
    simp only [Table.lookup_erase] at hw
    split at hw
    · cases hw
    · exact hinv.pending w j hw
  distinct := by
    intro w w' j j' hw hw' hid
    simp only [Table.lookup_erase] at hw hw'
    split at hw
    · cases hw
    · split at hw'
      · cases hw'
      · exact hinv.distinct w w' j j' hw hw' hid
  committed := hinv.committed
  once := hinv.once

/-- The claim of a job that nobody else has a claim of is above all earlier claims. -/
theorem LeaseInvariant.add_claim (hinv : LeaseInvariant s) {job : AcquisitionJob} (hjob : Unclaimed s job)
    (hfree : ∀ w j, s.pending.lookup w = some j → j.id ≠ job.id) :
    LeaseInvariant { s with claims := s.claims ++ received (claimRead s.store job) } := by
  obtain ⟨row, hrow, hread, hnot, hlease, hbelow⟩ := hjob
  have hreceived : ∀ c ∈ received (claimRead s.store job),
      c.job = job ∧ c.leaseVersion = row.leaseVersion := by
    intro c hc
    unfold claimRead at hc
    simp only [hrow] at hc
    split at hc
    · cases hc
    · next claim hclaim =>
      cases List.mem_singleton.1 hc
      simp only [newAcquisitionJobClaim, bind_eq_ok, pure_eq_ok, within_eq_ok] at hclaim
      obtain ⟨_, -, _, -, _, -, rfl⟩ := hclaim
      exact ⟨rfl, rfl⟩
  have hsingle : (received (claimRead s.store job)).Pairwise fun c c' =>
      c.job.id = c'.job.id → c.leaseVersion < c'.leaseVersion := by
    unfold received
    split
    · exact List.pairwise_singleton _ _
    · exact List.Pairwise.nil
  exact {
    keys := hinv.keys
    leases := hinv.leases
    released := hinv.released
    increasing := hinv.increasing
    claims := by
      intro c hc
      rcases List.mem_append.1 hc with hc | hc
      · exact hinv.claims c hc
      · obtain ⟨hj, hversion⟩ := hreceived c hc
        rw [hj, hversion]
        exact hlease
    snapshot := by
      intro c hc r hr hversion hnotc
      rcases List.mem_append.1 hc with hc | hc
      · exact hinv.snapshot c hc r hr hversion hnotc
      · obtain ⟨hj, -⟩ := hreceived c hc
        rw [hj] at hr ⊢
        rw [hrow] at hr
        cases hr
        exact hread
    ordered := by
      refine List.pairwise_append.2 ⟨hinv.ordered, hsingle, ?_⟩
      intro c hc c' hc' hid
      obtain ⟨hj, hversion⟩ := hreceived c' hc'
      rw [hversion]
      exact hbelow c hc (by rw [hid, hj])
    pending := by
      intro w j hw
      obtain ⟨r, hr, hrd, hn, hl, hb⟩ := hinv.pending w j hw
      refine ⟨r, hr, hrd, hn, hl, fun c hc hid => ?_⟩
      rcases List.mem_append.1 hc with hc | hc
      · exact hb c hc hid
      · obtain ⟨hj, -⟩ := hreceived c hc
        exact absurd hid.symm (by rw [hj]; exact hfree w j hw)
    distinct := hinv.distinct
    committed := hinv.committed
    once := hinv.once }

/-- The run after a transition has committed. -/
def StoreRun.commit (s : StoreRun) (store : Tables) (claim : AcquisitionJobClaim)
    (call : TransitionCall) (now : Time) : StoreRun :=
  { s with
    store := store
    committed := s.committed ++ [⟨claim.job.id, claim.leaseVersion, call, now⟩]
    clock := now }

omit [URLParser] in
theorem isCommitted_commit {store : Tables} {claim : AcquisitionJobClaim} {call : TransitionCall}
    {now : Time} {id : String} {version : ℤ} :
    IsCommitted (s.commit store claim call now) id version ↔
      IsCommitted s id version ∨ (claim.job.id = id ∧ claim.leaseVersion = version) := by
  simp only [IsCommitted, StoreRun.commit, List.mem_append, List.mem_singleton]
  constructor
  · rintro ⟨e, he | rfl, hid, hversion⟩
    · exact Or.inl ⟨e, he, hid, hversion⟩
    · exact Or.inr ⟨hid, hversion⟩
  · rintro (⟨e, he, hid, hversion⟩ | ⟨hid, hversion⟩)
    · exact ⟨e, Or.inl he, hid, hversion⟩
    · exact ⟨_, Or.inr rfl, hid, hversion⟩

/-- A transition commits under the latest lease of its job, the first one to do so. -/
theorem LeaseInvariant.commit (hinv : LeaseInvariant s) {t : Tables} {position : ℕ}
    {claim : AcquisitionJobClaim} {call : TransitionCall} {now : Time} {row row' : JobRow}
    {rows' : List CandidateRow} (hpunctual : Punctual s (.call position call now))
    (hclaim : s.claims[position]? = some claim)
    (hcommitted : Committed s.store t claim call now row row' rows') :
    LeaseInvariant (s.commit t claim call now) := by
  have hmem := List.mem_of_getElem? hclaim
  have hrow := hcommitted.lookup
  have hlease := hcommitted.lease
  have hnot := hinv.not_committed hpunctual hclaim hrow hlease
  have hid : row.id = claim.job.id := hinv.keys _ _ hrow
  obtain ⟨hid', hversion', -⟩ := hcommitted.change.frame
  have hlookup : ∀ id, (s.commit t claim call now).store.jobs.lookup id =
      if id = claim.job.id then some (JobStore.released now row') else s.store.jobs.lookup id := by
    intro id
    show t.jobs.lookup id = _
    rw [hcommitted.jobs, Table.lookup_insert]
    simp only [JobStore.released, hid', hid]
  have hother : ∀ {id : String} {version : ℤ}, id ≠ claim.job.id →
      IsCommitted (s.commit t claim call now) id version → IsCommitted s id version := by
    intro id version hne hc
    rcases isCommitted_commit.1 hc with hc | ⟨heq, -⟩
    · exact hc
    · exact absurd heq.symm hne
  exact {
    keys := by
      intro id r hr
      rw [hlookup] at hr
      split at hr
      · next heq =>
        cases hr
        rw [heq, ← hid, ← hid']
        rfl
      · exact hinv.keys id r hr
    leases := by
      intro l hl
      obtain ⟨r, hr, hle, hlast⟩ := hinv.leases l hl
      rw [hlookup]
      split
      · next heq =>
        rw [heq, hrow] at hr
        cases hr
        refine ⟨_, rfl, ?_, fun hversion => Or.inl (isCommitted_commit.2 (Or.inr ⟨heq.symm, ?_⟩))⟩
        · exact hle.trans (le_of_eq hversion'.symm)
        · have hv : l.version = row'.leaseVersion := hversion
          rw [hv, hversion', hlease.version]
      · refine ⟨r, hr, hle, fun hversion => ?_⟩
        rcases hlast hversion with hc | huntil
        · exact Or.inl (isCommitted_commit.2 (Or.inl hc))
        · exact Or.inr huntil
    released := by
      intro id r hr hc
      rw [hlookup] at hr
      split at hr
      · cases hr
        rfl
      · next hne => exact hinv.released id r hr (hother hne hc)
    increasing := hinv.increasing
    claims := hinv.claims
    snapshot := by
      intro c hc r hr hversion hnotc
      rw [hlookup] at hr
      split at hr
      · next heq =>
        cases hr
        refine absurd (isCommitted_commit.2 (Or.inr ⟨heq.symm, ?_⟩)) hnotc
        have hv : row'.leaseVersion = c.leaseVersion := hversion
        rw [← hv, hversion', hlease.version]
      · exact hinv.snapshot c hc r hr hversion
          fun h => hnotc (isCommitted_commit.2 (Or.inl h))
    ordered := hinv.ordered
    pending := by
      intro w job hw
      obtain ⟨r, hr, hread, hnotp, hl, hbelow⟩ := hinv.pending w job hw
      -- the claim has the latest version of its job, so the worker has another job
      have hne : job.id ≠ claim.job.id := by
        intro heq
        have hlt := hbelow claim hmem heq.symm
        rw [heq, hrow] at hr
        cases hr
        have hv := hlease.version
        omega
      refine ⟨r, ?_, hread, fun h => hnotp (hother hne h), hl, hbelow⟩
      rw [hlookup, if_neg hne]
      exact hr
    distinct := hinv.distinct
    committed := by
      intro e he
      rcases List.mem_append.1 he with he | he
      · exact hinv.committed e he
      · cases List.mem_singleton.1 he
        obtain ⟨l, hl, hjob, hversion⟩ := hinv.claims claim hmem
        refine ⟨l, hl, hjob, hversion, ?_⟩
        obtain ⟨r, hr, -, hlast⟩ := hinv.leases l hl
        rw [hjob, hrow] at hr
        cases hr
        rcases hlast (by rw [hversion, hlease.version]) with hc | huntil
        · rw [hjob, hversion] at hc
          exact absurd hc hnot
        · rw [← huntil]
          exact hlease.unexpired
    once := by
      show ((s.committed ++ [_]).map _).Nodup
      rw [List.map_append, List.nodup_append]
      refine ⟨hinv.once, List.nodup_singleton _, ?_⟩
      intro key hkey key' hkey'
      obtain ⟨e, he, rfl⟩ := List.mem_map.1 hkey
      cases List.mem_singleton.1 hkey'
      intro heq
      simp only [Prod.mk.injEq] at heq
      exact hnot ⟨e, he, heq.1, heq.2⟩ }

theorem LeaseInvariant.with_clock (hinv : LeaseInvariant s) (clock : Time) :
    LeaseInvariant { s with clock := clock } where
  keys := hinv.keys
  leases := hinv.leases
  released := hinv.released
  increasing := hinv.increasing
  claims := hinv.claims
  snapshot := hinv.snapshot
  ordered := hinv.ordered
  pending := hinv.pending
  distinct := hinv.distinct
  committed := hinv.committed
  once := hinv.once

/-- What a step does to the store. -/
inductive StoreMove (s t : StoreRun) : StoreLabel → Prop
  | same {a : StoreLabel} (hstore : t.store = s.store) (hleases : t.leases = s.leases)
      (hcommitted : t.committed = s.committed) : StoreMove s t a
  | submitted {id : String} {request : SearchRequest} {now : Time} {queued : AcquisitionJob}
      (hsubmitted : Submitted s.store t.store id request now queued)
      (hleases : t.leases = s.leases) (hcommitted : t.committed = s.committed) :
      StoreMove s t (.submit id request now)
  | leased {a : StoreLabel} {id : String} {row : JobRow} {now : Time} {leaseDuration : ℤ}
      (hlabel : a = .claim now leaseDuration ∨ ∃ worker, a = .claimUpdate worker now leaseDuration)
      (hnow : now ≠ zeroTime) (hrow : s.store.jobs.lookup id = some row)
      (heligible : eligible (unixMilli now) row = true)
      (hstore : t.store = { s.store with
        jobs := s.store.jobs.insert row.id (leasedRow row now leaseDuration) })
      (hleases : t.leases = s.leases ++
        [⟨row.id, row.leaseVersion + 1, now, unixMilli (now + leaseDuration)⟩])
      (hcommitted : t.committed = s.committed) : StoreMove s t a
  | committed {position : ℕ} {call : TransitionCall} {now : Time} {claim : AcquisitionJobClaim}
      {row row' : JobRow} {rows' : List CandidateRow}
      (hclaim : s.claims[position]? = some claim)
      (hchange : Committed s.store t.store claim call now row row' rows')
      (ht : t = s.commit t.store claim call now) : StoreMove s t (.call position call now)

/-- The two ways in which a `Claim` ends. -/
theorem claimUpdate_cases (s : StoreRun) (now : Time) (leaseDuration : ℤ) :
    ((claimUpdate s.store now leaseDuration).1 = s.store ∧ granted s.store now leaseDuration = [] ∧
      ∃ e, (claimUpdate s.store now leaseDuration).2 = .error e) ∨
    ∃ id row, s.store.jobs.lookup id = some row ∧ eligible (unixMilli now) row = true ∧
      now ≠ zeroTime ∧ (claimUpdate s.store now leaseDuration).1 = { s.store with
        jobs := s.store.jobs.insert row.id (leasedRow row now leaseDuration) } ∧
      granted s.store now leaseDuration =
        [⟨row.id, row.leaseVersion + 1, now, unixMilli (now + leaseDuration)⟩] ∧
      ∀ job, (claimUpdate s.store now leaseDuration).2 = .ok job →
        queryJob (leasedRow row now leaseDuration) = .ok job := by
  unfold claimUpdate granted
  cases hnext : leaseNext s.store now leaseDuration with
  | error e => exact Or.inl ⟨rfl, rfl, e, rfl⟩
  | ok result =>
    obtain ⟨written, row'⟩ := result
    obtain ⟨id, row, hrow, heligible, rfl, hnow, rfl⟩ := leaseNext_eq_ok hnext
    refine Or.inr ⟨id, row, hrow, heligible, hnow, ?_, rfl, ?_⟩
    · simp only
      split <;> rfl
    · intro job hjob
      simp only at hjob
      split at hjob
      · cases hjob
      · next job' hread =>
        cases hjob
        exact (within_eq_ok.1 hread)

theorem claim_cases (store : Tables) (now : Time) (leaseDuration : ℤ) :
    (claim store now leaseDuration).1 = (claimUpdate store now leaseDuration).1 ∧
      ((∃ e, (claim store now leaseDuration).2 = .error e) ∨
        ∃ job, (claimUpdate store now leaseDuration).2 = .ok job ∧
          (claim store now leaseDuration).2 = claimRead (claim store now leaseDuration).1 job) := by
  unfold claim
  rcases claimUpdate store now leaseDuration with ⟨written, e | job⟩
  · exact ⟨rfl, Or.inl ⟨e, rfl⟩⟩
  · exact ⟨rfl, Or.inr ⟨job, rfl, rfl⟩⟩

/-- Every step is one of the moves. -/
theorem storeStep_move {t : StoreRun} {a : StoreLabel} (hstep : storeStep s a = some t) :
    StoreMove s t a := by
  cases a with
  | submit id request now =>
    cases hstep
    rcases submit_cases (Prod.eta (submit s.store id request now)).symm with
      ⟨hsame, -⟩ | ⟨hsame, -⟩ | ⟨queued, hsubmitted, -⟩
    · exact .same hsame rfl rfl
    · exact .same hsame rfl rfl
    · exact .submitted hsubmitted rfl rfl
  | claim now leaseDuration =>
    cases hstep
    rcases claimUpdate_cases s now leaseDuration with
      ⟨hsame, hnone, -⟩ | ⟨id, row, hrow, heligible, hnow, hstore, hgranted, -⟩
    · exact .same ((claim_cases _ _ _).1.trans hsame) (by rw [hnone, List.append_nil]) rfl
    · exact .leased (Or.inl rfl) hnow hrow heligible ((claim_cases _ _ _).1.trans hstore)
        (by rw [← hgranted]) rfl
  | claimUpdate worker now leaseDuration =>
    simp only [storeStep] at hstep
    split at hstep
    · cases hstep
    · cases hstep
      rcases claimUpdate_cases s now leaseDuration with
        ⟨hsame, hnone, -⟩ | ⟨id, row, hrow, heligible, hnow, hstore, hgranted, -⟩
      · exact .same hsame (by rw [hnone, List.append_nil]) rfl
      · exact .leased (Or.inr ⟨worker, rfl⟩) hnow hrow heligible hstore (by rw [← hgranted]) rfl
  | claimRead worker =>
    simp only [storeStep] at hstep
    split at hstep
    · cases hstep
    · cases hstep
      exact .same rfl rfl rfl
  | claimLost worker =>
    simp only [storeStep] at hstep
    split at hstep
    · cases hstep
    · cases hstep
      exact .same rfl rfl rfl
  | call position call now =>
    simp only [storeStep] at hstep
    split at hstep
    · cases hstep
    · next claim hclaim =>
      cases hcall : runCall s.store claim call now with
      | mk store r =>
        rw [hcall] at hstep
        cases r with
        | error e =>
          cases hstep
          exact .same (runCall_error hcall) rfl (List.append_nil _)
        | ok u =>
          cases hstep
          obtain ⟨row, row', rows', hcommitted⟩ := runCall_ok hcall
          exact .committed hclaim hcommitted rfl

/-- Every step of a run keeps the leases in order. -/
theorem storeStep_leaseInvariant {t : StoreRun} {a : StoreLabel} (hinv : LeaseInvariant s)
    (hover : NotOvertaken s a) (hpunctual : Punctual s a) (hstep : storeStep s a = some t) :
    LeaseInvariant t := by
  have hpending : ∀ id, leasedJob s a = some id → ∀ w job, s.pending.lookup w = some job →
      job.id ≠ id := by
    intro id hid w job hw
    exact hover id hid ⟨w, job⟩ ((Table.lookup_eq_some_iff_mem _ _ _).1 hw)
  cases a with
  | submit id request now =>
    cases hstep
    rcases submit_cases (Prod.eta (submit s.store id request now)).symm with
      ⟨hsame, -⟩ | ⟨hsame, -⟩ | ⟨queued, hsubmitted, -⟩
    · rw [hsame]
      exact hinv.with_clock now
    · rw [hsame]
      exact hinv.with_clock now
    · rw [hsubmitted.written]
      exact hinv.insert_job (queuedRow queued (unixMilli now)) now hsubmitted.fresh
  | claim now leaseDuration =>
    cases hstep
    obtain ⟨hstore, hresult⟩ := claim_cases s.store now leaseDuration
    rcases claimUpdate_cases s now leaseDuration with
      ⟨hsame, hgranted, e, he⟩ | ⟨id, row, hrow, heligible, -, hleased, hgranted, hread⟩
    · rcases hresult with ⟨e', he'⟩ | ⟨job, hjob, -⟩
      · rw [hstore, hsame, he', hgranted]
        simp only [received, List.append_nil]
        exact hinv.with_clock now
      · rw [he] at hjob
        cases hjob
    · obtain rfl := hinv.keys id row hrow
      have hfree := hpending row.id (by simp only [leasedJob, hgranted]; rfl)
      have hgrant := hinv.grant now leaseDuration hrow hfree
      rcases hresult with ⟨e', he'⟩ | ⟨job, hjob, hclaim⟩
      · rw [hstore, hleased, he', hgranted]
        simp only [received, List.append_nil]
        exact hgrant
      · have hid : job.id = row.id := (queryJob_readFrom (hread job hjob)).id
        have hadd := hgrant.add_claim (hinv.unclaimed hrow (hread job hjob))
          (fun w j hw => hid ▸ hfree w j hw)
        rw [hclaim, hstore, hleased, hgranted]
        exact hadd
  | claimUpdate worker now leaseDuration =>
    simp only [storeStep] at hstep
    split at hstep
    · cases hstep
    · cases hstep
      rcases claimUpdate_cases s now leaseDuration with
        ⟨hsame, hgranted, e, he⟩ | ⟨id, row, hrow, heligible, -, hleased, hgranted, hread⟩
      · rw [hsame, he, hgranted, List.append_nil]
        exact hinv.with_clock now
      · obtain rfl := hinv.keys id row hrow
        have hfree := hpending row.id (by simp only [leasedJob, hgranted]; rfl)
        have hgrant := hinv.grant now leaseDuration hrow hfree
        rw [hleased, hgranted]
        cases hresult : (claimUpdate s.store now leaseDuration).2 with
        | error e => exact hgrant
        | ok job =>
          have hid : job.id = row.id := (queryJob_readFrom (hread job hresult)).id
          exact hgrant.insert_pending (hinv.unclaimed hrow (hread job hresult))
            (fun w j hw => hid ▸ hfree w j hw)
  | claimRead worker =>
    simp only [storeStep] at hstep
    split at hstep
    · cases hstep
    · next job hjob =>
      cases hstep
      apply (hinv.erase_pending worker).add_claim (hinv.pending worker job hjob)
      intro w j hw heq
      simp only [Table.lookup_erase] at hw
      split at hw
      · cases hw
      · next hne => exact hne (hinv.distinct w worker j job hw hjob heq)
  | claimLost worker =>
    simp only [storeStep] at hstep
    split at hstep
    · cases hstep
    · cases hstep
      exact hinv.erase_pending worker
  | call position call now =>
    simp only [storeStep] at hstep
    split at hstep
    · cases hstep
    · next claim hclaim =>
      cases hcall : runCall s.store claim call now with
      | mk store r =>
        rw [hcall] at hstep
        cases r with
        | error e =>
          cases hstep
          rw [runCall_error hcall]
          simp only [commits, List.append_nil]
          exact hinv.with_clock now
        | ok u =>
          cases hstep
          obtain ⟨row, row', rows', hcommitted⟩ := runCall_ok hcall
          exact hinv.commit hpunctual hclaim hcommitted

/-! ## Whole runs -/

theorem emptyRun_leaseInvariant (clock : Time) : LeaseInvariant (emptyRun clock) where
  keys := by simp [emptyRun, Tables.empty]
  leases := by simp [emptyRun]
  released := by simp [emptyRun, Tables.empty]
  increasing := List.Pairwise.nil
  claims := by simp [emptyRun]
  snapshot := by simp [emptyRun]
  ordered := List.Pairwise.nil
  pending := by simp [emptyRun]
  distinct := by simp [emptyRun]
  committed := by simp [emptyRun]
  once := List.nodup_nil

/-- The leases are in order in every run whose `Claim`s are not overtaken. -/
theorem leaseInvariant_of_reachable {P : StoreRun → StoreLabel → Prop}
    (hover : ∀ s a, P s a → NotOvertaken s a) (hpunctual : ∀ s a, P s a → Punctual s a)
    (hs : storeSystem.ReachableBy P s) : LeaseInvariant s := by
  apply hs.invariant
  · rintro _ ⟨clock, rfl⟩
    exact emptyRun_leaseInvariant clock
  · intro s a t hinv hp hstep
    exact storeStep_leaseInvariant hinv (hover s a hp) (hpunctual s a hp) hstep

/-- In a sequence of calls nobody is between the statements of `Claim`. -/
theorem pending_of_calls {P : StoreRun → StoreLabel → Prop} (hcall : ∀ s a, P s a → isCall a = true)
    (hs : storeSystem.ReachableBy P s) : s.pending = ∅ := by
  apply hs.invariant
  · rintro _ ⟨clock, rfl⟩
    rfl
  · intro s a t hinv hp hstep
    have ha := hcall s a hp
    cases a with
    | submit id request now =>
      cases hstep
      exact hinv
    | claim now leaseDuration =>
      cases hstep
      exact hinv
    | call position call now =>
      simp only [storeSystem, storeStep] at hstep
      split at hstep
      · cases hstep
      · cases hstep
        exact hinv
    | claimUpdate worker now leaseDuration => cases ha
    | claimRead worker => cases ha
    | claimLost worker => cases ha

/-- The leases are in order in every sequence of calls. -/
theorem leaseInvariant_of_calls {P : StoreRun → StoreLabel → Prop}
    (hcall : ∀ s a, P s a → isCall a = true) (hpunctual : ∀ s a, P s a → Punctual s a)
    (hs : storeSystem.ReachableBy P s) : LeaseInvariant s := by
  apply hs.invariant_under fun s hs => pending_of_calls hcall hs
  · rintro _ ⟨clock, rfl⟩
    exact emptyRun_leaseInvariant clock
  · intro s a t hpending hinv hp hstep
    have hover : NotOvertaken s a := by
      intro id _ e he
      rw [hpending] at he
      cases he
    exact storeStep_leaseInvariant hinv hover (hpunctual s a hp) hstep

end Runs

/-! ### Values for small runs -/

def smallJob : String := "00000000000000000000000000000001"

def smallRequest : SearchRequest := ⟨.movie, "Movie", 2020, 0, 0⟩

/-- So many seconds after the Unix epoch. -/
def atSecond (n : ℤ) : Time := n * 1000000000

end BlackPearl.JobStore
