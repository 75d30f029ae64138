import BlackPearl.JobStore.Decoding
import BlackPearl.JobStore.LeaseSafety
import BlackPearl.Watchlist.Frontier
import BlackPearl.Watchlist.Worker

/-!
# Where the outcomes of the Watchlist come from

A row is linked to a job that has been submitted for the episode or the film that the row asks for,
and a row that has succeeded names an object that was published for it: the index of published media
returned it, or the job that the row was linked to ended with it. This holds across any interleaving
of the workers with the observer, the playback worker, the policy API and the job workers, with calls
that fail after they took effect and with processes that stop between two calls.

A claim can be older than the row: an observation may rename the item, and another worker may have
the row by now. What carries the argument is that a lease version belongs to one episode
(`RowSafe.behind`), so that a claim that can still commit asks for the episode of its row.
-/

set_option autoImplicit false

namespace BlackPearl.Watchlist

open BlackPearl.Library BlackPearl.Domain BlackPearl.Acquisition

section Outcomes

variable [TextTables]

/-! ## Claims -/

/-- What a claim takes over from the row that it was read from. -/
structure ReadClaimFrom (row : WatchlistRow) (c : WatchlistClaim) : Prop where
  key : releaseKey c = row.key
  frontier : claimFrontier c = row.frontier
  leaseVersion : c.leaseVersion = row.leaseVersion
  backgroundJobID : c.backgroundJobID = row.backgroundJobID

theorem readClaim_eq_ok {row : WatchlistRow} {c : WatchlistClaim}
    (hitem : newWatchlistItem (persistedItem row) = .ok (persistedItem row))
    (h : readClaim row = .ok c) : ReadClaimFrom row c := by
  have hscan : scanClaim row = .ok c := by
    rw [readClaim] at h
    split at h
    · cases h
    · next claim hclaim =>
      cases h
      exact within_eq_ok.1 hclaim
  simp only [scanClaim, bind_eq_ok, within_eq_ok] at hscan
  obtain ⟨item, hitem', observation, hobservation, hclaim⟩ := hscan
  obtain rfl := Except.ok.inj (hitem.symm.trans hitem')
  -- both branches build the claim from the same observation
  have hnew : newWatchlistClaim observation row.leaseVersion row.attemptCount row.backgroundJobID =
      .ok c := by
    split at hclaim
    · simp only [newWatchlistIntentJobClaim, bind_eq_ok] at hclaim
      obtain ⟨_, -, hclaim⟩ := hclaim
      exact hclaim
    · next hempty =>
      rw [not_not] at hempty
      rw [hempty]
      exact hclaim
  obtain ⟨hvalidated, hversion, -, hjob⟩ := newWatchlistClaim_eq_ok hnew
  rw [newWatchlistObservation_idem hobservation] at hvalidated
  obtain rfl := Except.ok.inj hvalidated
  obtain ⟨hsettled, -, hseason, hepisode, -⟩ := newWatchlistObservation_eq_ok.1 hobservation
  obtain ⟨hsource, hid, -⟩ := newWatchlistItem_eq_ok hsettled
  have htrimmed : trimSpace row.externalID = row.externalID := (newWatchlistItem_eq_ok hitem).2.1.symm
  refine ⟨?_, ?_, hversion, hjob⟩
  · rw [releaseKey, hsource, hid, trimSpace_trimSpace]
    exact Prod.ext rfl htrimmed
  · rw [claimFrontier, hseason, hepisode]
    rfl

omit [TextTables] in
/-- The request of a claim passes the check of a request unchanged. -/
theorem claimSearchRequest_settled {c : WatchlistClaim} {request : SearchRequest}
    (h : claimSearchRequest c = .ok request) : validateSearchRequest request = .ok request := by
  rw [claimSearchRequest] at h
  split at h
  · rw [itemSearchRequest] at h
    split at h
    · cases h
    · simp only [newMovieSearch, bind_eq_ok, pure_eq_ok] at h
      obtain ⟨title, htitle, _, hyear, rfl⟩ := h
      simp only [validateSearchRequest, newMovieSearch, bind_eq_ok, pure_eq_ok]
      exact ⟨title, validateSearchText_idem htitle, (), hyear, rfl⟩
  · simp only [newEpisodeSearch, bind_eq_ok, pure_eq_ok] at h
    obtain ⟨title, htitle, _, hyear, _, hseason, _, hepisode, rfl⟩ := h
    simp only [validateSearchRequest, newEpisodeSearch, bind_eq_ok, pure_eq_ok]
    exact ⟨title, validateSearchText_idem htitle, (), hyear, (), hseason, (), hepisode, rfl⟩
  · cases h

/-! ## What the calls of a worker write -/

/-- What `AttachJob`, `DeferJob` or `Complete` leaves in the columns that say how an attempt ends. -/
def Writes (c : WatchlistClaim) (call : LeaseCall) (row' : WatchlistRow) : Prop :=
  match call with
  | .attachJob jobID _ => row'.state = .acquiring ∧ row'.backgroundJobID = jobID
  | .deferJob _ => row'.state = .acquiring ∧ row'.backgroundJobID = c.backgroundJobID
  | .complete completion => row'.backgroundJobID = "" ∧
      ∃ validated, validateCompletion completion = .ok validated ∧ row'.state = validated.state ∧
        row'.publishedObjectID = validated.publishedObjectID

omit [TextTables] in
theorem transitionJob_writes {q q' : Queue} {c : WatchlistClaim} {nextAttempt now : Time}
    {jobID operation : String} {r : Except QueueError Unit} (hkeyed : q.Keyed)
    (h : transitionJob q c nextAttempt jobID now operation = (q', r)) :
    q' = q ∨ ∃ row, leased c.leaseVersion now row = true ∧
      RowChanged q q' (claimKey c) row (assignJob nextAttempt jobID now row) := by
  rw [transitionJob] at h
  split_ifs at h with hnext hnow
  · exact Or.inl (Prod.mk.inj h).1.symm
  · exact Or.inl (Prod.mk.inj h).1.symm
  · have hkey : ∀ row, (assignJob nextAttempt jobID now row).key = row.key := fun _ => rfl
    rcases updateLeased_cases hkeyed hkey h with ⟨hsame, -⟩ | ⟨-, row, hleased, hchanged⟩
    · exact Or.inl hsame
    · exact Or.inr ⟨row, hleased, hchanged⟩

/-- A lease that is given back leaves the queue alone, or changes the row that it leases. -/
theorem release_writes {q q' : Queue} {c : WatchlistClaim} {call : LeaseCall} {now : Time}
    {r : Except QueueError Unit} (hkeyed : q.Keyed) (h : release q c call now = (q', r)) :
    q' = q ∨ ∃ row row', leased c.leaseVersion now row = true ∧
      RowChanged q q' (releaseKey c) row row' ∧ row'.frontier = row.frontier ∧
      row'.leaseVersion = row.leaseVersion ∧ Writes c call row' := by
  cases call with
  | attachJob jobID nextAttempt =>
    simp only [release, attachJob] at h
    cases hvalid : within "validate watchlist job attachment" (validateClaimWithJob c jobID) with
    | error message =>
      rw [hvalid] at h
      exact Or.inl (Prod.mk.inj h).1.symm
    | ok validated =>
      rw [hvalid] at h
      obtain ⟨hkey, hversion, -⟩ := validateClaimWithJob_eq_ok (within_eq_ok.1 hvalid)
      rcases transitionJob_writes hkeyed h with hsame | ⟨row, hleased, hchanged⟩
      · exact Or.inl hsame
      · rw [hversion] at hleased
        rw [hkey] at hchanged
        exact Or.inr ⟨row, _, hleased, hchanged, rfl, rfl, rfl, rfl⟩
  | deferJob nextAttempt =>
    simp only [release, deferJob] at h
    split_ifs at h with hempty
    · exact Or.inl (Prod.mk.inj h).1.symm
    cases hvalid : within "validate deferred watchlist job"
        (validateClaimWithJob c c.backgroundJobID) with
    | error message =>
      rw [hvalid] at h
      exact Or.inl (Prod.mk.inj h).1.symm
    | ok validated =>
      rw [hvalid] at h
      obtain ⟨hkey, hversion, hjob, -⟩ := validateClaimWithJob_eq_ok (within_eq_ok.1 hvalid)
      rcases transitionJob_writes hkeyed h with hsame | ⟨row, hleased, hchanged⟩
      · exact Or.inl hsame
      · rw [hversion] at hleased
        rw [hkey] at hchanged
        exact Or.inr ⟨row, _, hleased, hchanged, rfl, rfl, rfl, hjob⟩
  | complete completion =>
    simp only [release, complete] at h
    cases hvalid : within "invalid watchlist completion claim" (validateClaim c) with
    | error message =>
      rw [hvalid] at h
      exact Or.inl (Prod.mk.inj h).1.symm
    | ok validatedClaim =>
      obtain ⟨hkey, hversion⟩ := validateClaim_eq_ok (within_eq_ok.1 hvalid)
      simp only [hvalid] at h
      cases hcompletion : validateCompletion completion with
      | error message =>
        rw [hcompletion] at h
        exact Or.inl (Prod.mk.inj h).1.symm
      | ok validated =>
        simp only [hcompletion] at h
        split_ifs at h with hnow
        · exact Or.inl (Prod.mk.inj h).1.symm
        have hsameKey : ∀ row, (assignComplete validated now row).key = row.key := fun _ => rfl
        rcases updateLeased_cases hkeyed hsameKey h with ⟨hsame, -⟩ | ⟨-, row, hleased, hchanged⟩
        · exact Or.inl hsame
        · rw [hversion] at hleased
          rw [hkey] at hchanged
          exact Or.inr ⟨row, _, hleased, hchanged, rfl, rfl, rfl, validated, hcompletion, rfl,
            rfl⟩

/-! ## What the other actors do to a row -/

/-- How the row under a key changes in a step of another actor. -/
inductive ActorRow : Option WatchlistRow → WatchlistRow → Prop
  | inserted {row' : WatchlistRow} (hstate : row'.state = .pending) (hjob : row'.backgroundJobID = "") :
      ActorRow none row'
  | observed {row row' : WatchlistRow} (h : Reobserved row row') : ActorRow (some row) row'
  | advanced {arguments : AdvanceArguments} {row row' : WatchlistRow} (h : Advanced arguments row row') :
      ActorRow (some row) row'

theorem QueueMove.actorRow {watchlistPollInterval : ℤ} {s : ServiceState} {a : ServiceLabel} {q' : Queue}
    (hok : QueueOk s.queue) (hmove : QueueMove watchlistPollInterval s a q')
    (hactor : a.ofWorker = false) {k : RowKey} {row' : WatchlistRow}
    (hrow : q'.rows.lookup k = some row') : ActorRow (s.queue.rows.lookup k) row' := by
  cases hmove with
  | same h hadvance =>
    rw [← h, hrow]
    exact .observed (.refl row')
  | settings policy hcall hrows =>
    rw [← hrows, hrow]
    exact .observed (.refl row')
  | @observed observations validated observedAt hcall hvalid heach =>
    obtain ⟨-, -, hlookup⟩ := upsertEach_lookup hok.keyed heach
    rw [hlookup] at hrow
    cases hbefore : s.queue.rows.lookup k with
    | some row =>
      rw [hbefore] at hrow
      obtain ⟨r, hfold, hsame, -⟩ := foldl_observeRow (unixMilli observedAt) row
        (validated.filter fun o => observedKey o = k)
      obtain rfl := Option.some.inj (hfold.symm.trans hrow)
      exact .observed hsame
    | none =>
      rw [hbefore] at hrow
      -- the first observation of the key inserts the row, the others update it
      cases hobs : validated.filter fun o => observedKey o = k with
      | nil =>
        rw [hobs] at hrow
        cases hrow
      | cons first rest =>
        rw [hobs, List.foldl_cons] at hrow
        obtain ⟨r, hfold, hsame, -⟩ := foldl_observeRow (unixMilli observedAt)
          (insertedRow first (unixMilli observedAt)) rest
        obtain rfl := Option.some.inj (hfold.symm.trans hrow)
        obtain ⟨mediaType, title, releaseYear, lastObserved, updated, rfl⟩ := hsame
        exact .inserted rfl rfl
  | leased hcall heligible hchanged =>
    rw [hcall] at hactor
    cases hactor
  | released hcall hok hleased hchanged hback hstate =>
    rw [hcall] at hactor
    cases hactor
  | @advanced arguments row row₁ hcall hok hchanged hadvanced =>
    by_cases hk : k = advanceKey arguments
    · subst hk
      rw [hchanged.before]
      obtain rfl := Option.some.inj (hchanged.after.symm.trans hrow)
      exact .advanced hadvanced
    · rw [← hchanged.frame hk, hrow]
      exact .observed (.refl row')

/-! ## What becomes of a job -/

/-- The jobs that are stored stay, with their intents, and a job that has ended stays as it is. -/
def JobsKept (store store' : JobStore.Tables) : Prop :=
  ∀ id row, store.jobs.lookup id = some row → ∃ row', store'.jobs.lookup id = some row' ∧
    row'.intentKey = row.intentKey ∧ (row.state.active = false → row' = row)

/-- Every job is stored under its identifier. -/
def JobsKeyed (store : JobStore.Tables) : Prop :=
  ∀ id row, store.jobs.lookup id = some row → row.id = id

omit [TextTables] in
theorem JobsKept.refl (store : JobStore.Tables) : JobsKept store store :=
  fun _ row hrow => ⟨row, hrow, rfl, fun _ => rfl⟩

omit [TextTables] in
/-- Storing a row: a new job, or the next row of a job that has not ended. -/
theorem jobsKept_insert {store store' : JobStore.Tables} {row' : JobStore.JobRow}
    (hkeyed : JobsKeyed store) (hjobs : store'.jobs = store.jobs.insert row'.id row')
    (hold : ∀ row, store.jobs.lookup row'.id = some row →
      row'.intentKey = row.intentKey ∧ row.state.active = true) :
    JobsKept store store' ∧ JobsKeyed store' := by
  constructor
  · intro id row hrow
    by_cases hid : id = row'.id
    · subst hid
      obtain ⟨hkey, hactive⟩ := hold row hrow
      refine ⟨row', by rw [hjobs, Table.lookup_insert, if_pos rfl], hkey, fun hended => ?_⟩
      rw [hactive] at hended
      cases hended
    · refine ⟨row, ?_, rfl, fun _ => rfl⟩
      rw [hjobs, Table.lookup_insert, if_neg hid, hrow]
  · intro id row hrow
    rw [hjobs, Table.lookup_insert] at hrow
    split at hrow
    · next hid =>
      obtain rfl := Option.some.inj hrow
      exact hid.symm
    · exact hkeyed id row hrow

/-- No step of a caller of the job store takes a job away. -/
theorem jobsKept_of_move [URLParser] {s t : JobStore.StoreRun} {a : JobStore.StoreLabel}
    (hkeyed : JobsKeyed s.store) (hmove : JobStore.StoreMove s t a) :
    JobsKept s.store t.store ∧ JobsKeyed t.store := by
  cases hmove with
  | same hstore hleases hcommitted =>
    rw [hstore]
    exact ⟨.refl _, hkeyed⟩
  | @submitted id request now queued hsubmitted hleases hcommitted =>
    have hjobs : t.store.jobs = s.store.jobs.insert (JobStore.queuedRow queued (unixMilli now)).id
        (JobStore.queuedRow queued (unixMilli now)) := by rw [hsubmitted.written]; rfl
    refine jobsKept_insert hkeyed hjobs fun row hrow => ?_
    exact absurd (hsubmitted.fresh.symm.trans hrow) (Option.some_ne_none row).symm
  | @leased _ id row now leaseDuration hlabel hnow hrow heligible hstore hleases hcommitted =>
    obtain rfl := hkeyed id row hrow
    have hjobs : t.store.jobs = s.store.jobs.insert (JobStore.leasedRow row now leaseDuration).id
        (JobStore.leasedRow row now leaseDuration) := by rw [hstore]; rfl
    refine jobsKept_insert hkeyed hjobs fun row₀ hrow₀ => ?_
    obtain rfl := Option.some.inj (hrow.symm.trans hrow₀)
    simp only [JobStore.eligible, Bool.and_eq_true] at heligible
    exact ⟨rfl, heligible.1.1⟩
  | committed hclaim hchange ht =>
    obtain ⟨hid, -, hkey, -⟩ := hchange.change.frame
    refine jobsKept_insert hkeyed hchange.jobs fun row₀ hrow₀ => ?_
    have hrow : s.store.jobs.lookup _ = some row₀ := hid ▸ hrow₀
    rw [hkeyed _ _ hchange.lookup, hchange.lookup] at hrow
    obtain rfl := Option.some.inj hrow
    exact ⟨hkey, hchange.lease.active hchange.change⟩

/-! ## The invariant -/

/-- A claim of the row under `k` has been returned that asked for this episode with this request. -/
def Asked (s : WorkerRun) (k : RowKey) (frontier : EpisodeCoordinate) (request : SearchRequest) :
    Prop :=
  ∃ c ∈ s.claims, releaseKey c = k ∧ claimFrontier c = frontier ∧ claimSearchRequest c = .ok request

/-- This job is stored, for this intent. -/
def JobFor (s : WorkerRun) (id : String) (request : SearchRequest) : Prop :=
  ∃ row, s.jobs.store.jobs.lookup id = some row ∧ row.intentKey = JobStore.jobIntentKey request

/-- Where the object of a row that has succeeded comes from. -/
inductive Sourced (s : WorkerRun) (k : RowKey) (frontier : EpisodeCoordinate) (objectID : String) : Prop
  | index {request : SearchRequest} {answer : String} (hasked : Asked s k frontier request)
      (hanswer : (request, answer) ∈ s.published) (hobject : objectID = trimSpace answer)
  | job {request : SearchRequest} {id : String} {row : JobStore.JobRow}
      (hasked : Asked s k frontier request) (hrow : s.jobs.store.jobs.lookup id = some row)
      (hkey : row.intentKey = JobStore.jobIntentKey request) (hstate : row.state = .succeeded)
      (hobject : objectID = trimSpace row.publishedObjectID)

/-- What holds of the row `row` under `k`. -/
structure RowSafe (s : WorkerRun) (k : RowKey) (row : WatchlistRow) : Prop where
  linked : row.backgroundJobID ≠ "" →
    ∃ request, Asked s k row.frontier request ∧ JobFor s row.backgroundJobID request
  succeeded : row.state = .succeeded → Sourced s k row.frontier row.publishedObjectID
  behind : ∀ c ∈ s.claims, releaseKey c = k → c.leaseVersion ≤ row.leaseVersion ∧
    (c.leaseVersion = row.leaseVersion → row.state = .acquiring → row.frontier = claimFrontier c)

/-- The completion of a claim is what the object of its episode allows. -/
def CompletionSafe (s : WorkerRun) (c : WatchlistClaim) (completion : WatchlistCompletion) : Prop :=
  completion.state = .succeeded → ∃ objectID, newWatchlistSucceeded objectID = .ok completion ∧
    Sourced s (releaseKey c) (claimFrontier c) (trimSpace objectID)

/-- The claim is linked to a job for what it asks for. -/
def ClaimLinked (s : WorkerRun) (c : WatchlistClaim) : Prop :=
  ∃ request, Asked s (releaseKey c) (claimFrontier c) request ∧ JobFor s c.backgroundJobID request

/-- What a worker carries from one call to the next. -/
def PhaseSafe (s : WorkerRun) : WorkerPhase → Prop
  | .idle | .finished _ => True
  | .finding c request | .submitting c request =>
      c ∈ s.claims ∧ claimSearchRequest c = .ok request
  | .attaching c jobID => c ∈ s.claims ∧
      ∃ request, claimSearchRequest c = .ok request ∧ JobFor s jobID request
  | .reading c | .deferring c _ => c ∈ s.claims ∧ ClaimLinked s c
  | .completing c completion => c ∈ s.claims ∧ CompletionSafe s c completion

structure WorkerSafe (s : WorkerRun) : Prop where
  queue : QueueOk s.service.queue
  keyed : JobsKeyed s.jobs.store
  rows : ∀ k row, s.service.queue.rows.lookup k = some row → RowSafe s k row
  claimed : ∀ c ∈ s.claims, ∃ row, s.service.queue.rows.lookup (releaseKey c) = some row
  phases : ∀ i, PhaseSafe s (s.phases i)

/-! ### What a step can only add -/

/-- `t` remembers what `s` does, and has its jobs. -/
structure Extends (s t : WorkerRun) : Prop where
  claims : s.claims ⊆ t.claims
  published : s.published ⊆ t.published
  jobs : JobsKept s.jobs.store t.jobs.store

variable {s t : WorkerRun} {k : RowKey} {frontier : EpisodeCoordinate}

theorem Extends.refl (s : WorkerRun) : Extends s s :=
  ⟨List.Subset.refl _, List.Subset.refl _, .refl _⟩

theorem Extends.asked {request : SearchRequest} (h : Extends s t) (hasked : Asked s k frontier request) :
    Asked t k frontier request := by
  obtain ⟨c, hc, hrest⟩ := hasked
  exact ⟨c, h.claims hc, hrest⟩

theorem Extends.jobFor {id : String} {request : SearchRequest} (h : Extends s t)
    (hjob : JobFor s id request) : JobFor t id request := by
  obtain ⟨row, hrow, hkey⟩ := hjob
  obtain ⟨row', hrow', hkey', -⟩ := h.jobs id row hrow
  exact ⟨row', hrow', hkey'.trans hkey⟩

theorem Extends.sourced {objectID : String} (h : Extends s t)
    (hsourced : Sourced s k frontier objectID) : Sourced t k frontier objectID := by
  cases hsourced with
  | index hasked hanswer hobject => exact .index (h.asked hasked) (h.published hanswer) hobject
  | job hasked hrow hkey hstate hobject =>
    -- a job that has succeeded stays as it is
    obtain ⟨row', hrow', -, hsame⟩ := h.jobs _ _ hrow
    obtain rfl := hsame (by rw [hstate]; rfl)
    exact .job (h.asked hasked) hrow' hkey hstate hobject

theorem Extends.phaseSafe {phase : WorkerPhase} (h : Extends s t) (hphase : PhaseSafe s phase) :
    PhaseSafe t phase := by
  cases phase with
  | idle | finished result => trivial
  | finding c request | submitting c request => exact ⟨h.claims hphase.1, hphase.2⟩
  | attaching c jobID =>
    obtain ⟨hc, request, hrequest, hjob⟩ := hphase
    exact ⟨h.claims hc, request, hrequest, h.jobFor hjob⟩
  | reading c | deferring c now =>
    obtain ⟨hc, request, hasked, hjob⟩ := hphase
    exact ⟨h.claims hc, request, h.asked hasked, h.jobFor hjob⟩
  | completing c completion =>
    obtain ⟨hc, hcompletion⟩ := hphase
    refine ⟨h.claims hc, fun hstate => ?_⟩
    obtain ⟨objectID, hnew, hsourced⟩ := hcompletion hstate
    exact ⟨objectID, hnew, h.sourced hsourced⟩

/-- A row stays safe while no claim is returned. -/
theorem RowSafe.extend {row : WatchlistRow} (hrow : RowSafe s k row) (h : Extends s t)
    (hclaims : t.claims = s.claims) : RowSafe t k row where
  linked hjob := by
    obtain ⟨request, hasked, hfor⟩ := hrow.linked hjob
    exact ⟨request, h.asked hasked, h.jobFor hfor⟩
  succeeded hstate := h.sourced (hrow.succeeded hstate)
  behind c hc := hrow.behind c (hclaims ▸ hc)

/-- A step that leaves the queue and the claims alone. -/
theorem WorkerSafe.extend (hs : WorkerSafe s) (h : Extends s t)
    (hqueue : t.service.queue = s.service.queue) (hclaims : t.claims = s.claims)
    (hkeyed : JobsKeyed t.jobs.store) (hphases : ∀ i, t.phases i = s.phases i ∨ PhaseSafe t (t.phases i)) :
    WorkerSafe t where
  queue := hqueue ▸ hs.queue
  keyed := hkeyed
  rows k row hrow := (hs.rows k row (hqueue ▸ hrow)).extend h hclaims
  claimed c hc := hqueue ▸ hs.claimed c (hclaims ▸ hc)
  phases i := by
    rcases hphases i with hsame | hsafe
    · rw [hsame]
      exact h.phaseSafe (hs.phases i)
    · exact hsafe

/-- A worker goes on to a phase in which it carries nothing wrong. -/
theorem WorkerSafe.goTo (hs : WorkerSafe s) (i : ℕ) {phase : WorkerPhase} (hphase : PhaseSafe s phase) :
    WorkerSafe (s.goTo i phase) := by
  have h : Extends s (s.goTo i phase) := ⟨List.Subset.refl _, List.Subset.refl _, .refl _⟩
  refine hs.extend h rfl rfl hs.keyed fun j => ?_
  by_cases hj : j = i
  · have hnow : (s.goTo i phase).phases j = phase := by
      rw [hj]
      exact Function.update_self i phase s.phases
    rw [hnow]
    exact Or.inr (h.phaseSafe hphase)
  · exact Or.inl (Function.update_of_ne hj _ _)

theorem WorkerSafe.fails (hs : WorkerSafe s) (i : ℕ) (error : WorkerError) :
    WorkerSafe (s.fails i error) :=
  hs.goTo i trivial

/-! ### Steps on the queue -/

theorem queueOk_claim {q : Queue} (hq : QueueOk q) (now : Time) (leaseDuration : ℤ) :
    QueueOk (claim q now leaseDuration).1 := by
  let service : ServiceState := ⟨q, newObserver, .idle, .idle⟩
  have hstep : (watchlistService 0).step service (.claim now leaseDuration) =
      some { service with queue := (claim q now leaseDuration).1 } := rfl
  exact (serviceStep_move hq.keyed hstep).queueOk hq

theorem queueOk_release {q : Queue} (hq : QueueOk q) (c : WatchlistClaim) (call : LeaseCall)
    (now : Time) : QueueOk (release q c call now).1 := by
  let service : ServiceState := ⟨q, newObserver, .idle, .idle⟩
  have hstep : (watchlistService 0).step service (.release c call now) =
      some { service with queue := (release q c call now).1 } := rfl
  exact (serviceStep_move hq.keyed hstep).queueOk hq

/-- A new queue in which every row is safe, and no row is gone. -/
theorem WorkerSafe.setQueue (hs : WorkerSafe s) {queue : Queue} (hqueue : QueueOk queue)
    (hrows : ∀ k row, queue.rows.lookup k = some row → RowSafe s k row)
    (hkept : ∀ k row, s.service.queue.rows.lookup k = some row → ∃ row', queue.rows.lookup k = some row') :
    WorkerSafe (s.setQueue queue) where
  queue := hqueue
  keyed := hs.keyed
  rows k row hrow := by
    have h : Extends s (s.setQueue queue) := ⟨List.Subset.refl _, List.Subset.refl _, .refl _⟩
    exact (hrows k row hrow).extend h rfl
  claimed c hc := by
    obtain ⟨row, hrow⟩ := hs.claimed c hc
    exact hkept _ row hrow
  phases i := by
    have h : Extends s (s.setQueue queue) := ⟨List.Subset.refl _, List.Subset.refl _, .refl _⟩
    exact h.phaseSafe (hs.phases i)

/-- The same where one row changes. -/
theorem WorkerSafe.changeRow (hs : WorkerSafe s) {queue : Queue} {row row' : WatchlistRow}
    (hqueue : QueueOk queue) (hchanged : RowChanged s.service.queue queue k row row')
    (hrow' : RowSafe s k row') : WorkerSafe (s.setQueue queue) := by
  refine hs.setQueue hqueue (fun k₀ row₀ hrow₀ => ?_) fun k₀ row₀ hrow₀ => ?_
  · by_cases hk : k₀ = k
    · subst hk
      obtain rfl := Option.some.inj (hchanged.after.symm.trans hrow₀)
      exact hrow'
    · rw [hchanged.frame hk] at hrow₀
      exact hs.rows k₀ row₀ hrow₀
  · by_cases hk : k₀ = k
    · subst hk
      exact ⟨row', hchanged.after⟩
    · exact ⟨row₀, (hchanged.frame hk).trans hrow₀⟩

/-- A lease begins: every claim that has been returned has an older version. -/
theorem RowSafe.lease {row : WatchlistRow} (hrow : RowSafe s k row) (now : Time) (leaseDuration : ℤ) :
    RowSafe s k (leasedRow row now leaseDuration) where
  linked := hrow.linked
  succeeded hstate := by cases hstate
  behind c hc hkey := by
    have hle := (hrow.behind c hc hkey).1
    refine ⟨hle.trans (by simp [leasedRow]), fun hversion _ => ?_⟩
    simp only [leasedRow] at hversion
    omega

/-- A claim that has just been read from its row. -/
theorem WorkerSafe.addClaim (hs : WorkerSafe s) {c : WatchlistClaim} {row : WatchlistRow}
    (hrow : s.service.queue.rows.lookup row.key = some row) (hread : ReadClaimFrom row c) :
    WorkerSafe { s with claims := c :: s.claims } := by
  have h : Extends s { s with claims := c :: s.claims } :=
    ⟨List.subset_cons_self c s.claims, List.Subset.refl _, .refl _⟩
  refine ⟨hs.queue, hs.keyed, fun k₀ row₀ hrow₀ => ?_, ?_, fun i => h.phaseSafe (hs.phases i)⟩
  · have hold := hs.rows k₀ row₀ hrow₀
    refine ⟨fun hjob => ?_, fun hstate => h.sourced (hold.succeeded hstate), ?_⟩
    · obtain ⟨request, hasked, hfor⟩ := hold.linked hjob
      exact ⟨request, h.asked hasked, h.jobFor hfor⟩
    · intro c₀ hc₀ hkey
      rcases List.mem_cons.1 hc₀ with rfl | hc₀
      · rw [← hkey, hread.key, hrow] at hrow₀
        obtain rfl := Option.some.inj hrow₀
        exact ⟨le_of_eq hread.leaseVersion, fun _ _ => hread.frontier.symm⟩
      · exact hold.behind c₀ hc₀ hkey
  · intro c₀ hc₀
    rcases List.mem_cons.1 hc₀ with rfl | hc₀
    · exact ⟨row, hread.key ▸ hrow⟩
    · exact hs.claimed c₀ hc₀

/-- What the worker does after `Claim`. -/
theorem phaseSafe_startClaim {c : WatchlistClaim} (hc : c ∈ s.claims)
    (hlinked : c.backgroundJobID ≠ "" → ClaimLinked s c) : PhaseSafe s (startClaim c) := by
  rw [startClaim]
  split
  · split
    · refine ⟨hc, fun hstate => ?_⟩
      cases hstate
    · next request hrequest => exact ⟨hc, hrequest⟩
  · next hjob => exact ⟨hc, hlinked hjob⟩

/-- The queue after a `Claim`, whether or not the caller hears of it. -/
theorem WorkerSafe.afterClaim (hs : WorkerSafe s) {now : Time} {leaseDuration : ℤ} {queue : Queue}
    {result : Except QueueError WatchlistClaim}
    (h : claim s.service.queue now leaseDuration = (queue, result)) : WorkerSafe (s.setQueue queue) := by
  have hqueue := queueOk_claim hs.queue now leaseDuration
  rw [h] at hqueue
  rcases claim_cases hs.queue.keyed h with ⟨rfl, -⟩ | ⟨row, -, hchanged, -⟩
  · exact hs.setQueue hs.queue hs.rows fun k row hrow => ⟨row, hrow⟩
  · exact hs.changeRow hqueue hchanged ((hs.rows _ row hchanged.before).lease now leaseDuration)

/-- A claim that is returned has been read from the row that it leases. -/
theorem claim_eq_ok {q q' : Queue} {now : Time} {leaseDuration : ℤ} {c : WatchlistClaim}
    (hkeyed : q.Keyed) (h : claim q now leaseDuration = (q', .ok c)) :
    ∃ row, RowChanged q q' row.key row (leasedRow row now leaseDuration) ∧
      readClaim (leasedRow row now leaseDuration) = .ok c := by
  rw [claim] at h
  split_ifs at h with hnow hduration
  · cases h
  · cases h
  cases hnext : q.nextEligible (unixMilli now) with
  | none =>
    simp only [leaseNext, hnext] at h
    cases h
  | some row =>
    obtain ⟨hrow, -⟩ := nextEligible_eq_some hkeyed hnext
    simp only [leaseNext, hnext] at h
    cases hwrite : q.writeRow (leasedRow row now leaseDuration) with
    | error e =>
      rw [hwrite] at h
      cases h
    | ok written =>
      rw [hwrite] at h
      obtain ⟨rfl, hread⟩ := Prod.mk.inj h
      exact ⟨row, .of_write hkeyed hrow rfl hwrite, hread⟩

theorem WorkerSafe.processClaim (hs : WorkerSafe s) (options : WorkerOptions) (i : ℕ) (now : Time)
    (outcome : CallOutcome) : WorkerSafe (processClaim options s i now outcome) := by
  cases outcome with
  | failed failure => exact hs.fails i _
  | unreported failure => exact (hs.afterClaim rfl).fails i _
  | answered =>
    rw [Watchlist.processClaim]
    split
    · next queue e hclaim => exact (hs.afterClaim hclaim).fails i _
    · next queue c hclaim =>
      have hset := hs.afterClaim hclaim
      obtain ⟨row, hchanged, hread⟩ := claim_eq_ok hs.queue.keyed hclaim
      have hafter := hchanged.after
      have hfrom : ReadClaimFrom (leasedRow row now options.leaseDuration) c :=
        readClaim_eq_ok (hset.queue _ _ hafter).item hread
      have hadded := hset.addClaim hafter hfrom
      refine hadded.goTo i (phaseSafe_startClaim List.mem_cons_self fun hjob => ?_)
      -- the claim has the job of its row
      rw [hfrom.backgroundJobID] at hjob
      obtain ⟨request, hasked, hfor⟩ := (hadded.rows _ _ hafter).linked hjob
      refine ⟨request, ?_, hfrom.backgroundJobID ▸ hfor⟩
      rw [hfrom.key, hfrom.frontier]
      exact hasked

/-! ### Commits -/

/-- A completion that passes its check again names the same object. -/
theorem CompletionSafe.validated {c : WatchlistClaim} {completion validated : WatchlistCompletion}
    (h : CompletionSafe s c completion) (hvalid : validateCompletion completion = .ok validated)
    (hstate : validated.state = .succeeded) :
    Sourced s (releaseKey c) (claimFrontier c) validated.publishedObjectID := by
  have hsame := (validateCompletion_state hvalid).1
  obtain ⟨objectID, hnew, hsourced⟩ := h (hsame ▸ hstate)
  rw [validateCompletion, ← hsame, hstate] at hvalid
  simp only [newWatchlistSucceeded, bind_eq_ok, pure_eq_ok, require_eq_ok] at hnew hvalid
  obtain ⟨_, -, _, -, _, -, rfl⟩ := hnew
  obtain ⟨_, -, _, -, _, -, rfl⟩ := hvalid
  rw [trimSpace_trimSpace]
  exact hsourced

/-- What a call that gives back a lease may leave in the row. -/
def CallSafe (s : WorkerRun) (c : WatchlistClaim) : LeaseCall → Prop
  | .attachJob jobID _ => ∃ request, claimSearchRequest c = .ok request ∧ JobFor s jobID request
  | .deferJob _ => ClaimLinked s c
  | .complete completion => CompletionSafe s c completion

/-- The row after a commit: the lease version says that the row still asks for the episode of the
claim. -/
theorem RowSafe.commit {c : WatchlistClaim} {call : LeaseCall} {now : Time} {row row' : WatchlistRow}
    (hrow : RowSafe s (releaseKey c) row) (hc : c ∈ s.claims) (hcall : CallSafe s c call)
    (hleased : leased c.leaseVersion now row = true) (hfrontier : row'.frontier = row.frontier)
    (hversion : row'.leaseVersion = row.leaseVersion) (hwrites : Writes c call row') :
    RowSafe s (releaseKey c) row' := by
  simp only [leased, Bool.and_eq_true, decide_eq_true_eq] at hleased
  obtain ⟨⟨hstate, hsame⟩, -⟩ := hleased
  have hepisode : row'.frontier = claimFrontier c :=
    hfrontier.trans ((hrow.behind c hc rfl).2 hsame.symm hstate)
  have hbehind : ∀ c' ∈ s.claims, releaseKey c' = releaseKey c → c'.leaseVersion ≤ row'.leaseVersion ∧
      (c'.leaseVersion = row'.leaseVersion → row'.state = .acquiring →
        row'.frontier = claimFrontier c') := by
    intro c' hc' hkey
    obtain ⟨hle, hfrontier'⟩ := hrow.behind c' hc' hkey
    rw [hversion, hfrontier]
    exact ⟨hle, fun heq _ => hfrontier' heq hstate⟩
  cases call with
  | attachJob jobID nextAttempt =>
    obtain ⟨hacquiring, hjob⟩ := hwrites
    obtain ⟨request, hrequest, hfor⟩ := hcall
    refine ⟨fun _ => ⟨request, ⟨c, hc, rfl, hepisode.symm, hrequest⟩, hjob ▸ hfor⟩, ?_, hbehind⟩
    intro hsucceeded
    rw [hacquiring] at hsucceeded
    cases hsucceeded
  | deferJob nextAttempt =>
    obtain ⟨hacquiring, hjob⟩ := hwrites
    obtain ⟨request, hasked, hfor⟩ := hcall
    refine ⟨fun _ => ⟨request, hepisode ▸ hasked, hjob ▸ hfor⟩, ?_, hbehind⟩
    intro hsucceeded
    rw [hacquiring] at hsucceeded
    cases hsucceeded
  | complete completion =>
    obtain ⟨hnone, validated, hvalid, hended, hobject⟩ := hwrites
    refine ⟨fun hjob => absurd hnone hjob, fun hsucceeded => ?_, hbehind⟩
    rw [hepisode, hobject]
    exact CompletionSafe.validated hcall hvalid (hended ▸ hsucceeded)

/-- The queue after a commit, whether or not the worker hears of it. -/
theorem WorkerSafe.afterRelease (hs : WorkerSafe s) {c : WatchlistClaim} (hc : c ∈ s.claims)
    {call : LeaseCall} (hcall : CallSafe s c call) {now : Time} {queue : Queue}
    {result : Except QueueError Unit} (h : release s.service.queue c call now = (queue, result)) :
    WorkerSafe (s.setQueue queue) := by
  have hqueue := queueOk_release hs.queue c call now
  rw [h] at hqueue
  rcases release_writes hs.queue.keyed h with
    rfl | ⟨row, row', hleased, hchanged, hfrontier, hversion, hwrites⟩
  · exact hs.setQueue hs.queue hs.rows fun k row hrow => ⟨row, hrow⟩
  · exact hs.changeRow hqueue hchanged
      ((hs.rows _ row hchanged.before).commit hc hcall hleased hfrontier hversion hwrites)

theorem WorkerSafe.commitDurably (hs : WorkerSafe s) (i : ℕ) {c : WatchlistClaim} (hc : c ∈ s.claims)
    {call : LeaseCall} (hcall : CallSafe s c call) (now : Time) (state : WatchlistQueueState)
    (outcome : CallOutcome) : WorkerSafe (commitDurably s i c call now state outcome) := by
  cases outcome with
  | failed failure => exact hs.fails i _
  | unreported failure => exact (hs.afterRelease hc hcall rfl).fails i _
  | answered =>
    rw [Watchlist.commitDurably]
    split
    · next queue e hrelease => exact (hs.afterRelease hc hcall hrelease).fails i _
    · next queue hrelease => exact (hs.afterRelease hc hcall hrelease).goTo i trivial

/-! ### Calls of the index and of the job manager -/

omit [TextTables] in
theorem publishedCompletion_succeeded {objectID : String}
    (h : (publishedCompletion objectID).state = .succeeded) :
    newWatchlistSucceeded objectID = .ok (publishedCompletion objectID) := by
  unfold publishedCompletion at h ⊢
  split
  · next completion hnew => exact hnew
  · next e hnew =>
    rw [hnew] at h
    cases h

omit [TextTables] in
theorem failedCompletion_state {options : WorkerOptions} {code : JobErrorCode} {now : Time}
    {completion : WatchlistCompletion} (h : failedCompletion options code now = .ok completion) :
    completion.state ≠ .succeeded := by
  have hdeferred : ∀ state nextAttempt, state ≠ .succeeded →
      newWatchlistDeferred state nextAttempt = .ok completion → completion.state ≠ .succeeded := by
    intro state nextAttempt hstate hnew
    simp only [newWatchlistDeferred, bind_eq_ok, pure_eq_ok] at hnew
    obtain ⟨_, -, _, -, rfl⟩ := hnew
    exact hstate
  cases code with
  | noRelease | stalled => exact hdeferred .notCached _ (by decide) h
  | unauthorized | providerUnavailable => exact hdeferred .retryable _ (by decide) h
  | none | noPlayableMedia | materialization | ambiguousMutation | unsupported text =>
    cases h
    decide

theorem WorkerSafe.findPublished (hs : WorkerSafe s) (i : ℕ) {c : WatchlistClaim}
    {request : SearchRequest} (hc : c ∈ s.claims) (hrequest : claimSearchRequest c = .ok request)
    (answer : Except CallFailure (Option String)) : WorkerSafe (findPublished s i c request answer) := by
  cases answer with
  | error failure => exact hs.fails i _
  | ok found =>
    cases found with
    | none => exact hs.goTo i ⟨hc, hrequest⟩
    | some objectID =>
      have h : Extends s { s with published := (request, objectID) :: s.published } :=
        ⟨List.Subset.refl _, List.subset_cons_self _ _, .refl _⟩
      have hnoted := hs.extend h rfl rfl hs.keyed fun j => Or.inl rfl
      refine hnoted.goTo i ⟨hc, fun hstate => ⟨objectID, publishedCompletion_succeeded hstate, ?_⟩⟩
      exact .index ⟨c, hc, rfl, rfl, hrequest⟩ List.mem_cons_self rfl

section Jobs

variable [URLParser]

/-- The job that `Submit` returns is stored, for the intent of the request. -/
theorem submit_jobFor {store store' : JobStore.Tables} {id : String} {request : SearchRequest}
    {now : Time} {job : AcquisitionJob} {created : Bool} (hkeyed : JobsKeyed store)
    (hsettled : validateSearchRequest request = .ok request)
    (h : JobStore.submit store id request now = (store', .ok (job, created))) :
    ∃ row, store'.jobs.lookup job.id = some row ∧
      row.intentKey = JobStore.jobIntentKey request := by
  -- the snapshot that is checked keeps the request
  have hrequest : ∀ queued : AcquisitionJob,
      newAcquisitionJobSnapshot (JobStore.queuedSnapshot id request now) = .ok queued →
        queued.request = request := by
    intro queued hqueued
    simp only [newAcquisitionJobSnapshot, bind_eq_ok, pure_eq_ok, within_eq_ok] at hqueued
    obtain ⟨_, -, request', hrequest', hrest⟩ := hqueued
    have hsame : request' = request := by
      have hsettled' : validateSearchRequest (JobStore.queuedSnapshot id request now).request =
          .ok request := hsettled
      exact Except.ok.inj (hrequest'.symm.trans hsettled')
    obtain ⟨_, -, _, -, _, -, _, -, _, -, _, -, _, -, _, -, _, -, _, -, rfl⟩ := hrest
    exact hsame
  rcases JobStore.submit_cases h with ⟨-, e, he⟩ | ⟨rfl, queued, row, job', hqueued, hfound, hread, hr⟩ |
    ⟨queued, hsubmitted, hr⟩
  · cases he
  · -- an active job of the same intent
    obtain ⟨rfl, -⟩ := Prod.mk.inj (Except.ok.inj hr)
    obtain ⟨hkey, -, id', hrow⟩ := JobStore.findActive_eq_some hfound
    rw [(JobStore.queryJob_readFrom hread).id, hkeyed id' row hrow]
    exact ⟨row, hrow, hkey.trans (by rw [hrequest queued hqueued])⟩
  · obtain ⟨rfl, -⟩ := Prod.mk.inj (Except.ok.inj hr)
    refine ⟨JobStore.queuedRow job (unixMilli now), ?_, ?_⟩
    · rw [hsubmitted.written]
      exact AList.lookup_insert _
    · rw [← hrequest job hsubmitted.snapshot]
      rfl

/-- The store after a `Submit`, whether or not the caller hears of it. -/
theorem WorkerSafe.afterSubmit (hs : WorkerSafe s) {id : String} {request : SearchRequest} {now : Time}
    {store : JobStore.Tables} {result : Except JobStore.StoreError (AcquisitionJob × Bool)}
    (h : JobStore.submit s.jobs.store id request now = (store, result)) :
    WorkerSafe (s.setStore store now) := by
  have hstep : JobStore.storeStep s.jobs (.submit id request now) =
      some { s.jobs with store := store, clock := now } := by
    rw [JobStore.storeStep, h]
  obtain ⟨hkept, hkeyed⟩ := jobsKept_of_move hs.keyed (JobStore.storeStep_move hstep)
  have hextends : Extends s (s.setStore store now) :=
    ⟨List.Subset.refl _, List.Subset.refl _, hkept⟩
  exact hs.extend hextends rfl rfl hkeyed fun j => Or.inl rfl

theorem WorkerSafe.submitJob (hs : WorkerSafe s) (i : ℕ) {c : WatchlistClaim} {request : SearchRequest}
    (hc : c ∈ s.claims) (hrequest : claimSearchRequest c = .ok request) (id : String) (now : Time)
    (outcome : CallOutcome) : WorkerSafe (submitJob s i c request id now outcome) := by
  cases outcome with
  | failed failure => exact hs.fails i _
  | unreported failure => exact (hs.afterSubmit rfl).fails i _
  | answered =>
    rw [Watchlist.submitJob]
    split
    · next store e hsubmit => exact (hs.afterSubmit hsubmit).fails i _
    · next store job created hsubmit =>
      refine (hs.afterSubmit hsubmit).goTo i ⟨hc, request, hrequest, ?_⟩
      exact submit_jobFor hs.keyed (claimSearchRequest_settled hrequest) hsubmit

theorem get_eq_ok {store : JobStore.Tables} {id : String} {job : AcquisitionJob}
    (h : JobStore.get store id = .ok job) :
    ∃ row, store.jobs.lookup id = some row ∧ JobStore.ReadFrom row job := by
  rw [JobStore.get] at h
  split at h
  · cases h
  · split at h
    · cases h
    · next row hrow =>
      split at h
      · cases h
      · next job' hread =>
        obtain rfl := Except.ok.inj h
        exact ⟨row, hrow, JobStore.queryJob_readFrom (within_eq_ok.1 hread)⟩

theorem WorkerSafe.readJob (hs : WorkerSafe s) (options : WorkerOptions) (i : ℕ) {c : WatchlistClaim}
    (hc : c ∈ s.claims) (hlinked : ClaimLinked s c) (transitionNow : Time)
    (failure : Option CallFailure) : WorkerSafe (readJob options s i c transitionNow failure) := by
  have hreview : PhaseSafe s (.completing c newWatchlistManualReview) :=
    ⟨hc, fun hstate => by cases hstate⟩
  cases failure with
  | some failure =>
    rw [Watchlist.readJob]
    split
    · exact hs.goTo i hreview
    · exact hs.fails i _
  | none =>
    rw [Watchlist.readJob]
    split
    · exact hs.goTo i hreview
    · exact hs.fails i _
    · next job hget =>
      refine hs.goTo i ?_
      obtain ⟨row, hrow, hfrom⟩ := get_eq_ok hget
      rw [reconcileJob]
      cases hstate : job.state with
      | queued | selected | preparing => exact ⟨hc, hlinked⟩
      | manualReview => exact hreview
      | succeeded =>
        refine ⟨hc, fun hsucceeded => ⟨_, publishedCompletion_succeeded hsucceeded, ?_⟩⟩
        obtain ⟨request, hasked, row', hrow', hkey⟩ := hlinked
        obtain rfl := Option.some.inj (hrow.symm.trans hrow')
        exact .job hasked hrow hkey (hfrom.state ▸ hstate) (congrArg trimSpace hfrom.published)
      | failed =>
        dsimp only
        split
        · trivial
        · next completion hfailed =>
          -- a job that failed never ends an attempt with an object
          exact ⟨hc, fun hsucceeded => absurd hsucceeded (failedCompletion_state hfailed)⟩

/-! ### Runs -/

variable {watchlistPollInterval : ℤ} {options : WorkerOptions}

theorem WorkerSafe.workerStep {i : ℕ} {a : WorkerLabel} (hs : WorkerSafe s)
    (hstep : workerStep options s i a = some t) : WorkerSafe t := by
  have hphase := hs.phases i
  have hclaim : ∀ now outcome, (if now = zeroTime then
      some (s.fails i (.boundary "watchlist observation is temporarily unavailable"))
      else some (Watchlist.processClaim options s i now outcome)) = some t → WorkerSafe t := by
    intro now outcome h
    split at h
    · exact Option.some.inj h ▸ hs.fails i _
    · exact Option.some.inj h ▸ hs.processClaim options i now outcome
  unfold Watchlist.workerStep at hstep
  split at hstep
  · exact hclaim _ _ hstep
  · exact hclaim _ _ hstep
  · next c request answer hat =>
    rw [hat] at hphase
    exact Option.some.inj hstep ▸ hs.findPublished i hphase.1 hphase.2 answer
  · next c request id now outcome hat =>
    rw [hat] at hphase
    exact Option.some.inj hstep ▸ hs.submitJob i hphase.1 hphase.2 id now outcome
  · next c jobID now outcome hat =>
    rw [hat] at hphase
    have hcall : CallSafe s c (.attachJob jobID (now + options.reconcileInterval)) := hphase.2
    exact Option.some.inj hstep ▸ hs.commitDurably i hphase.1 hcall now _ outcome
  · next c failure transitionNow hat =>
    rw [hat] at hphase
    exact Option.some.inj hstep ▸ hs.readJob options i hphase.1 hphase.2 transitionNow failure
  · next c transitionNow outcome hat =>
    rw [hat] at hphase
    have hcall : CallSafe s c (.deferJob (transitionNow + options.reconcileInterval)) := hphase.2
    exact Option.some.inj hstep ▸ hs.commitDurably i hphase.1 hcall transitionNow _ outcome
  · next c completion now outcome hat =>
    rw [hat] at hphase
    have hcall : CallSafe s c (.complete completion) := hphase.2
    exact Option.some.inj hstep ▸ hs.commitDurably i hphase.1 hcall now _ outcome
  · exact Option.some.inj hstep ▸ hs.goTo i trivial
  · cases hstep

omit [URLParser] in
/-- A step of another actor: a row that it inserts is linked to nothing, and a row that it moves on
is linked to nothing any more. -/
theorem WorkerSafe.actorStep {a : ServiceLabel} {service : ServiceState} (hs : WorkerSafe s)
    (hactor : a.ofWorker = false)
    (hstep : serviceStep watchlistPollInterval s.service a = some service) :
    WorkerSafe { s with service := service } := by
  have hmove : QueueMove watchlistPollInterval s.service a service.queue :=
    serviceStep_move hs.queue.keyed hstep
  have h : Extends s { s with service := service } :=
    ⟨List.Subset.refl _, List.Subset.refl _, .refl _⟩
  refine ⟨hmove.queueOk hs.queue, hs.keyed, fun k row' hrow' => ?_, fun c hc => ?_,
    fun i => h.phaseSafe (hs.phases i)⟩
  · have hchange := hmove.actorRow hs.queue hactor hrow'
    cases hbefore : s.service.queue.rows.lookup k with
    | none =>
      rw [hbefore] at hchange
      cases hchange with
      | inserted hstate hjob =>
        refine ⟨fun hlinked => absurd hjob hlinked, fun hsucceeded => ?_, fun c hc hkey => ?_⟩
        · rw [hstate] at hsucceeded
          cases hsucceeded
        · -- a claim has been read from a row
          obtain ⟨row, hrow⟩ := hs.claimed c hc
          rw [hkey, hbefore] at hrow
          cases hrow
    | some row =>
      have hold := (hs.rows k row hbefore).extend h rfl
      rw [hbefore] at hchange
      cases hchange with
      | observed hsame =>
        obtain ⟨mediaType, title, releaseYear, lastObserved, updated, rfl⟩ := hsame
        exact ⟨hold.linked, hold.succeeded, hold.behind⟩
      | advanced hadvanced =>
        rw [hadvanced.row]
        refine ⟨fun hlinked => absurd rfl hlinked, fun hsucceeded => ?_, fun c hc hkey => ?_⟩
        · cases hsucceeded
        · refine ⟨(hold.behind c hc hkey).1, fun _ hacquiring => ?_⟩
          cases hacquiring
  · obtain ⟨row, hrow⟩ := hs.claimed c hc
    obtain ⟨row', hrow', -⟩ := hmove.rowStep hs.queue hrow
    exact ⟨row', hrow'⟩

/-- A step of a caller of the job store. -/
theorem WorkerSafe.storeStep {a : JobStore.StoreLabel} {jobs : JobStore.StoreRun} (hs : WorkerSafe s)
    (hstep : JobStore.storeStep s.jobs a = some jobs) : WorkerSafe { s with jobs := jobs } := by
  obtain ⟨hkept, hkeyed⟩ := jobsKept_of_move hs.keyed (JobStore.storeStep_move hstep)
  have h : Extends s { s with jobs := jobs } := ⟨List.Subset.refl _, List.Subset.refl _, hkept⟩
  exact hs.extend h rfl rfl hkeyed fun i => Or.inl rfl

theorem workerSafe_of_reachable (hs : (watchlistWorkers watchlistPollInterval options).Reachable s) :
    WorkerSafe s := by
  apply hs.invariant
  · rintro _ ⟨enabled, clock, rfl⟩
    refine ⟨fun k row hrow => ?_, fun id row hrow => ?_, fun k row hrow => ?_, fun c hc => ?_,
      fun i => trivial⟩
    · simp [freshWorkers, freshService, Queue.empty] at hrow
    · simp [freshWorkers, JobStore.emptyRun, JobStore.Tables.empty] at hrow
    · simp [freshWorkers, freshService, Queue.empty] at hrow
    · cases hc
  · intro s a t hs _ hstep
    have h : workerRunStep watchlistPollInterval options s a = some t := hstep
    cases a with
    | service a =>
      rw [workerRunStep] at h
      split at h
      · cases h
      · next hactor =>
        obtain ⟨service, hservice, rfl⟩ := Option.map_eq_some_iff.1 h
        exact hs.actorStep (by simpa using hactor) hservice
    | jobs a =>
      obtain ⟨jobs, hjobs, rfl⟩ := Option.map_eq_some_iff.1 h
      exact hs.storeStep hjobs
    | worker i a => exact hs.workerStep h

/-- What automatic acquisition leaves in the queue. -/
structure OutcomesSourced (s : WorkerRun) : Prop where
  linked : ∀ k row, s.service.queue.rows.lookup k = some row → row.backgroundJobID ≠ "" →
    ∃ request, Asked s k row.frontier request ∧ JobFor s row.backgroundJobID request
  succeeded : ∀ k row, s.service.queue.rows.lookup k = some row → row.state = .succeeded →
    Sourced s k row.frontier row.publishedObjectID
  found : ∀ i c, s.phases i = .reading c →
    JobStore.get s.jobs.store c.backgroundJobID ≠ .error .notFound

/-- In every run, a row is linked to a job for the episode or film that it asks for, a row that has
succeeded names an object that the index or such a job published, and a worker that looks for the job
of its row finds it. -/
theorem outcomes_sourced (hs : (watchlistWorkers watchlistPollInterval options).Reachable s) :
    OutcomesSourced s := by
  have hsafe := workerSafe_of_reachable hs
  refine ⟨fun k row hrow => (hsafe.rows k row hrow).linked,
    fun k row hrow => (hsafe.rows k row hrow).succeeded, fun i c hreading hmissing => ?_⟩
  have hphase := hsafe.phases i
  rw [hreading] at hphase
  obtain ⟨-, request, -, row, hrow, -⟩ := hphase
  simp only [JobStore.get, hrow] at hmissing
  split at hmissing
  · cases hmissing
  · split at hmissing <;> cases hmissing

end Jobs

end Outcomes

section SmallRuns

attribute [local instance] TextTables.ascii URLParser.refuseAll

/-- A worker that looks again after ten seconds. -/
def smallOptions : WorkerOptions where
  leaseDuration := atSecond 60
  operationTimeout := atSecond 10
  reconcileInterval := atSecond 10
  notCachedCooldown := atSecond 100
  retryCooldown := atSecond 100
  positive := by decide
  lease := by decide

/-- A show is listed after the baseline. A worker submits a job for its first episode and stops before
it has linked the row; another worker finds the job that is there, and links it. -/
def linkedLabels : List WorkerRunLabel :=
  (.setPolicy ⟨true, .pilot⟩ :: syncLabels [] 1 ++ syncLabels [smallItem .tvShow] 2).map .service ++
    [.worker 0 (.claim (atSecond 3) .answered), .worker 0 (.find (.ok none)),
      .worker 0 (.submit JobStore.smallJob (atSecond 4) .answered), .worker 0 .stop,
      .worker 1 (.claim (atSecond 70) .answered), .worker 1 (.find (.ok none)),
      .worker 1 (.submit JobStore.otherJob (atSecond 71) .answered),
      .worker 1 (.attach (atSecond 72) .answered)]

/-- The job is attached to an object and succeeds, and the row succeeds with it. -/
def acquiredLabels : List WorkerRunLabel :=
  linkedLabels ++
    [.jobs (.claim (atSecond 73) (atSecond 60)), .jobs (.call 0 (.select JobStore.rangeSelection) (atSecond 74)),
      .jobs (.claim (atSecond 75) (atSecond 60)),
      .jobs (.call 1 (.attachPrepared ⟨⟨"easynews", "9"⟩⟩ false) (atSecond 76)),
      .jobs (.claim (atSecond 77) (atSecond 60)), .jobs (.call 2 (.succeed "9") (atSecond 78)),
      .worker 0 (.claim (atSecond 90) .answered), .worker 0 (.read none (atSecond 91)),
      .worker 0 (.complete (atSecond 92) .answered)]

theorem outcomes_sourced_small : ∃ s,
    (watchlistWorkers 1 smallOptions).run (freshWorkers false 0) acquiredLabels = some s ∧
      (s.service.queue.rows.lookup smallKey).map (fun row => (row.state, row.publishedObjectID)) =
        some (.succeeded, "9") ∧
      s.jobs.store.jobs.keys = [JobStore.smallJob] ∧ OutcomesSourced s := by
  have hvalues : ((watchlistWorkers 1 smallOptions).run (freshWorkers false 0) acquiredLabels).map
      (fun s => ((s.service.queue.rows.lookup smallKey).map fun row => (row.state, row.publishedObjectID),
        s.jobs.store.jobs.keys)) = some (some (.succeeded, "9"), [JobStore.smallJob]) := by
    decide +kernel
  rw [Option.map_eq_some_iff] at hvalues
  obtain ⟨s, hs, hpair⟩ := hvalues
  obtain ⟨hrow, hjobs⟩ := Prod.mk.inj hpair
  exact ⟨s, hs, hrow, hjobs, outcomes_sourced (System.reachable_of_run ⟨false, 0, rfl⟩ hs)⟩

end SmallRuns

end BlackPearl.Watchlist
