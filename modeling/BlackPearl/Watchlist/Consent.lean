import BlackPearl.Watchlist.Decoding
import BlackPearl.Watchlist.Frontier

/-!
# Baseline and consent

Which rows can be acquired automatically, told by the history of the services: a list of labels and
the states that it leads through. A row is eligible if the `Sync` that inserted it followed a
successful `Sync` of the same process and had read a policy that allows its media type. The media
type is that of the observation which inserts the row: a movie that is later listed as a show keeps
its eligibility.
-/

set_option autoImplicit false

namespace BlackPearl.Watchlist

open BlackPearl.Library BlackPearl.Domain BlackPearl.Acquisition

/-- Observations reach the queue through `Sync` alone. -/
def ThroughSync (a : ServiceLabel) : Prop := ∀ observations observedAt, a ≠ .upsert observations observedAt

section Consent

variable [TextTables] {watchlistPollInterval : ℤ} {s t u : ServiceState} {a : ServiceLabel}

/-! ## Histories -/

/-- In the history `history` from `start` a `Sync` has succeeded, and the process that ran it has
not been restarted since. -/
def Baselined (watchlistPollInterval : ℤ) (start : ServiceState) (history : List ServiceLabel) : Prop :=
  ∃ before after s t, history = before ++ .syncWrite .reported :: after ∧
    (watchlistService watchlistPollInterval).run start before = some s ∧
    syncWrite s .reported = some t ∧ t.sync = .finished (.ok ()) ∧ ServiceLabel.restart ∉ after

/-- In the history `history` from `start` the row under `k` was inserted by a `Sync` which followed
a successful `Sync` of the same process and had read a policy with acquisition enabled; the policy
and the observations of this `Sync` satisfy `Q`. -/
def InsertedBy (watchlistPollInterval : ℤ) (start : ServiceState) (history : List ServiceLabel)
    (k : RowKey) (Q : WatchlistPolicy → List WatchlistObservation → Prop) : Prop :=
  ∃ before outcome after s t policy observations observedAt,
    history = before ++ .syncWrite outcome :: after ∧
    (watchlistService watchlistPollInterval).run start before = some s ∧
    syncWrite s outcome = some t ∧ s.sync = .decided policy observations observedAt ∧
    s.queue.rows.lookup k = none ∧ (t.queue.rows.lookup k).isSome = true ∧
    Baselined watchlistPollInterval start before ∧ policy.acquisitionEnabled = true ∧
    Q policy observations

theorem InsertedBy.concat {start : ServiceState} {history : List ServiceLabel} {k : RowKey}
    {Q : WatchlistPolicy → List WatchlistObservation → Prop}
    (h : InsertedBy watchlistPollInterval start history k Q) (a : ServiceLabel) :
    InsertedBy watchlistPollInterval start (history ++ [a]) k Q := by
  obtain ⟨before, outcome, after, s, t, policy, observations, observedAt, rfl, hrest⟩ := h
  refine ⟨before, outcome, after ++ [a], s, t, policy, observations, observedAt, ?_, hrest⟩
  rw [List.append_assoc, List.cons_append]

/-! ## What a Sync decides -/

/-- What a `Sync` that has read `policy` decides on. -/
structure Decided (baselineComplete : Bool) (policy : WatchlistPolicy) (o : WatchlistObservation) :
    Prop where
  settled : SettledObservation o
  baseline : o.autoEligible = true → baselineComplete = true
  enabled : o.autoEligible = true → policy.acquisitionEnabled = true
  pilot : o.autoEligible = true → o.item.mediaType = .tvShow → policy.showPolicy = .pilot

def SyncDecided (s : ServiceState) : Prop := ∀ policy observations observedAt,
  s.sync = .decided policy observations observedAt →
    ∀ o ∈ observations, Decided s.observer.baselineComplete policy o

theorem decided_of_observationOf {baselineComplete : Bool} {policy : WatchlistPolicy}
    {item : WatchlistItem} {o : WatchlistObservation}
    (h : observationOf baselineComplete policy item = .ok o) : Decided baselineComplete policy o := by
  have hitem : ∀ {autoEligible season episode},
      newWatchlistObservation item autoEligible season episode = .ok o →
        o.autoEligible = autoEligible ∧ o.item.mediaType = item.mediaType ∧ SettledObservation o := by
    intro autoEligible season episode ho
    obtain ⟨hitem, rfl, rfl, rfl, -⟩ := newWatchlistObservation_eq_ok.1 ho
    exact ⟨rfl, (newWatchlistItem_eq_ok hitem).2.2.1, newWatchlistObservation_idem ho⟩
  simp only [observationOf] at h
  by_cases htype : item.mediaType = .tvShow
  · rw [if_pos htype] at h
    split at h
    · next heligible =>
      obtain ⟨-, -, hsettled⟩ := hitem h
      simp only [Bool.and_eq_true, decide_eq_true_eq] at heligible
      exact ⟨hsettled, fun _ => heligible.1.1, fun _ => heligible.1.2, fun _ _ => heligible.2⟩
    · next hnot =>
      obtain ⟨hsame, -, hsettled⟩ := hitem h
      refine ⟨hsettled, fun hauto => ?_, fun hauto => ?_, fun hauto _ => ?_⟩
      all_goals exact absurd (hsame ▸ hauto) hnot
  · rw [if_neg htype] at h
    obtain ⟨hsame, hkind, hsettled⟩ := hitem h
    refine ⟨hsettled, fun hauto => ?_, fun hauto => ?_, fun _ hshow => ?_⟩
    · rw [hsame, Bool.and_eq_true] at hauto
      exact hauto.1
    · rw [hsame, Bool.and_eq_true] at hauto
      exact hauto.2
    · exact absurd (hkind ▸ hshow) htype

/-- A step that is not part of a `Sync` leaves the observer and its `Sync` alone, or restarts. -/
theorem step_observer (hstep : (watchlistService watchlistPollInterval).step s a = some t)
    (hsnapshot : ∀ answer observedAt, a ≠ .syncSnapshot answer observedAt)
    (hpolicy : ∀ failure, a ≠ .syncPolicy failure) (hwrite : ∀ outcome, a ≠ .syncWrite outcome)
    (hrestart : a ≠ .restart) : t.observer = s.observer ∧ t.sync = s.sync := by
  have h : serviceStep watchlistPollInterval s a = some t := hstep
  cases a with
  | upsert observations observedAt => rw [← Option.some.inj h]; exact ⟨rfl, rfl⟩
  | setPolicy policy => rw [← Option.some.inj h]; exact ⟨rfl, rfl⟩
  | claim now leaseDuration => rw [← Option.some.inj h]; exact ⟨rfl, rfl⟩
  | release claim call now => rw [← Option.some.inj h]; exact ⟨rfl, rfl⟩
  | advance arguments => rw [← Option.some.inj h]; exact ⟨rfl, rfl⟩
  | syncSnapshot answer observedAt => exact absurd rfl (hsnapshot answer observedAt)
  | syncPolicy failure => exact absurd rfl (hpolicy failure)
  | syncWrite outcome => exact absurd rfl (hwrite outcome)
  | processSnapshot now answer => rw [processSnapshot_frame h]; exact ⟨rfl, rfl⟩
  | processFind answer => rw [processFind_frame h]; exact ⟨rfl, rfl⟩
  | processCheck failure => rw [processCheck_frame h]; exact ⟨rfl, rfl⟩
  | processResolve answer => rw [processResolve_frame h]; exact ⟨rfl, rfl⟩
  | processAdvance failure => rw [processAdvance_frame h]; exact ⟨rfl, rfl⟩
  | restart => exact absurd rfl hrestart

omit [TextTables] in
/-- After its snapshot a `Sync` has not decided yet, and the baseline is what it was. -/
theorem syncSnapshot_cases {answer : Except Cause (List WatchlistItem)} {observedAt : Time}
    (h : syncSnapshot s answer observedAt = some t) :
    t.observer.baselineComplete = s.observer.baselineComplete ∧
      ∀ policy observations observedAt, t.sync ≠ .decided policy observations observedAt := by
  unfold syncSnapshot at h
  split at h
  · split at h
    · obtain rfl := Option.some.inj h
      exact ⟨rfl, fun _ _ _ hne => by cases hne⟩
    · split at h <;> (obtain rfl := Option.some.inj h; exact ⟨rfl, fun _ _ _ hne => by cases hne⟩)
  · split at h
    · obtain rfl := Option.some.inj h
      exact ⟨rfl, fun _ _ _ hne => by cases hne⟩
    · split at h <;> (obtain rfl := Option.some.inj h; exact ⟨rfl, fun _ _ _ hne => by cases hne⟩)
  · cases h

/-- When a `Sync` decides, its observations follow the baseline and the policy that it has read. -/
theorem syncPolicy_cases {failure : Option Cause} (h : syncPolicy s failure = some t) :
    t.observer.baselineComplete = s.observer.baselineComplete ∧ SyncDecided t := by
  unfold syncPolicy at h
  split at h
  · next items observedAt hsync =>
    split at h
    · obtain rfl := Option.some.inj h
      exact ⟨rfl, fun _ _ _ hne => by cases hne⟩
    · split at h
      · obtain rfl := Option.some.inj h
        exact ⟨rfl, fun _ _ _ hne => by cases hne⟩
      · next policy hpolicy =>
        split at h
        · obtain rfl := Option.some.inj h
          exact ⟨rfl, fun _ _ _ hne => by cases hne⟩
        · next observations hobservations =>
          obtain rfl := Option.some.inj h
          refine ⟨rfl, ?_⟩
          rintro policy' observations' observedAt' hdecided o ho
          simp only [SyncPhase.decided.injEq] at hdecided
          obtain ⟨rfl, rfl, rfl⟩ := hdecided
          obtain ⟨item, -, hitem⟩ := exists_of_mem_mapM hobservations ho
          exact decided_of_observationOf hitem
  · cases h

/-- A write ends the `Sync`; it completes the baseline when it succeeds, and only then. -/
theorem syncWrite_cases {outcome : WriteOutcome} (h : syncWrite s outcome = some t) :
    (∀ policy observations observedAt, t.sync ≠ .decided policy observations observedAt) ∧
      (t.observer.baselineComplete = s.observer.baselineComplete ∨
        (outcome = .reported ∧ t.sync = .finished (.ok ()))) := by
  unfold syncWrite at h
  split at h
  · split at h
    · obtain rfl := Option.some.inj h
      exact ⟨fun _ _ _ hne => (by cases hne), Or.inl rfl⟩
    · obtain rfl := Option.some.inj h
      exact ⟨fun _ _ _ hne => (by cases hne), Or.inl rfl⟩
    · split at h
      · obtain rfl := Option.some.inj h
        exact ⟨fun _ _ _ hne => (by cases hne), Or.inl rfl⟩
      · obtain rfl := Option.some.inj h
        exact ⟨fun _ _ _ hne => (by cases hne), Or.inr ⟨rfl, rfl⟩⟩
  · cases h

theorem syncDecided_step (hs : SyncDecided s)
    (hstep : (watchlistService watchlistPollInterval).step s a = some t) : SyncDecided t := by
  have h : serviceStep watchlistPollInterval s a = some t := hstep
  cases a with
  | syncSnapshot answer observedAt =>
    exact fun policy observations at' hdecided => absurd hdecided ((syncSnapshot_cases h).2 _ _ _)
  | syncPolicy failure => exact (syncPolicy_cases h).2
  | syncWrite outcome =>
    exact fun policy observations at' hdecided => absurd hdecided ((syncWrite_cases h).1 _ _ _)
  | restart =>
    rw [← Option.some.inj h]
    exact fun policy observations at' hdecided => by cases hdecided
  | _ =>
    -- the other actors leave the observer and its decision alone
    obtain ⟨hobserver, hsync⟩ := step_observer hstep (by simp) (by simp) (by simp) (by simp)
    intro policy observations observedAt hdecided o ho
    obtain ⟨hsettled, hbaseline, henabled, hpilot⟩ :=
      hs policy observations observedAt (hsync ▸ hdecided) o ho
    exact ⟨hsettled, fun hauto => hobserver ▸ hbaseline hauto, henabled, hpilot⟩

theorem syncDecided_of_reachable {P : ServiceState → ServiceLabel → Prop}
    (hs : (watchlistService watchlistPollInterval).ReachableBy P s) : SyncDecided s := by
  apply hs.invariant
  · rintro s ⟨enabled, rfl⟩ policy observations observedAt hdecided
    cases hdecided
  · intro s a t hs _ hstep
    exact syncDecided_step hs hstep

/-- The baseline of a process is complete only after a successful `Sync` of this process. -/
theorem baselined_of_complete {start : ServiceState}
    (hstart : start.observer.baselineComplete = false) {history : List ServiceLabel} :
    ∀ {s : ServiceState}, (watchlistService watchlistPollInterval).run start history = some s →
      s.observer.baselineComplete = true → Baselined watchlistPollInterval start history := by
  induction history using List.reverseRecOn with
  | nil =>
    intro s hrun hcomplete
    rw [System.run_nil, Option.some.injEq] at hrun
    rw [← hrun, hstart] at hcomplete
    cases hcomplete
  | append_singleton history a ih =>
    intro t hrun hcomplete
    obtain ⟨s, hs, hstep⟩ := System.run_concat_eq_some.1 hrun
    have h : serviceStep watchlistPollInterval s a = some t := hstep
    -- a step that neither restarts nor completes the baseline extends the history
    have hextend : s.observer.baselineComplete = true → a ≠ .restart →
        Baselined watchlistPollInterval start (history ++ [a]) := by
      intro hbefore hrestart
      obtain ⟨before, after, s', t', rfl, hbefore', hwrite, hok, hnone⟩ := ih hs hbefore
      refine ⟨before, after ++ [a], s', t', ?_, hbefore', hwrite, hok, ?_⟩
      · rw [List.append_assoc, List.cons_append]
      · rw [List.mem_append, List.mem_singleton, not_or]
        exact ⟨hnone, fun heq => hrestart heq.symm⟩
    cases a with
    | syncSnapshot answer observedAt =>
      exact hextend ((syncSnapshot_cases h).1 ▸ hcomplete) (by simp)
    | syncPolicy failure => exact hextend ((syncPolicy_cases h).1 ▸ hcomplete) (by simp)
    | syncWrite outcome =>
      rcases (syncWrite_cases h).2 with hsame | ⟨rfl, hok⟩
      · exact hextend (hsame ▸ hcomplete) (by simp)
      · exact ⟨history, [], s, t, rfl, hs, h, hok, by simp⟩
    | restart =>
      rw [← Option.some.inj h] at hcomplete
      cases hcomplete
    | _ =>
      obtain ⟨hobserver, -⟩ := step_observer hstep (by simp) (by simp) (by simp) (by simp)
      exact hextend (hobserver ▸ hcomplete) (by simp)

/-! ## Insertions -/

omit [TextTables] in
/-- A snapshot inserts a row as its first observation says. -/
theorem inserted_of_upsertEach {q q' : Queue} {observations : List WatchlistObservation}
    {timestamp : ℤ} {k : RowKey} {row : WatchlistRow} (hkeyed : q.Keyed)
    (heach : upsertEach timestamp q observations = .ok q') (hbefore : q.rows.lookup k = none)
    (hrow : q'.rows.lookup k = some row) : ∃ first, first ∈ observations ∧ observedKey first = k ∧
      (observationsOf observations k).head? = some first ∧ row.autoEligible = first.autoEligible := by
  obtain ⟨-, -, hlookup⟩ := upsertEach_lookup hkeyed heach
  rw [hlookup, hbefore] at hrow
  change (observationsOf observations k).foldl (observeRow timestamp) none = some row at hrow
  cases hobs : observationsOf observations k with
  | nil =>
    rw [hobs] at hrow
    cases hrow
  | cons first rest =>
    have hmem : first ∈ observationsOf observations k := hobs ▸ List.mem_cons_self
    obtain ⟨hfirst, hkey⟩ := List.mem_filter.1 hmem
    rw [hobs, List.foldl_cons] at hrow
    obtain ⟨row', hfold, hsame, -⟩ := foldl_observeRow timestamp (insertedRow first timestamp) rest
    obtain rfl := Option.some.inj (hfold.symm.trans hrow)
    obtain ⟨mediaType, title, releaseYear, lastObserved, updated, rfl⟩ := hsame
    exact ⟨first, hfirst, by simpa using hkey, rfl, rfl⟩

/-- A step through which a row appears is the write of a `Sync`, and its row is eligible only if
its first observation is. -/
theorem appears_of_step {P : ServiceState → ServiceLabel → Prop} {k : RowKey} {row : WatchlistRow}
    (hs : (watchlistService watchlistPollInterval).ReachableBy P s) (hthrough : ThroughSync a)
    (hstep : (watchlistService watchlistPollInterval).step s a = some t)
    (hbefore : s.queue.rows.lookup k = none) (hrow : t.queue.rows.lookup k = some row) :
    ∃ outcome policy observations observedAt first, a = .syncWrite outcome ∧
      s.sync = .decided policy observations observedAt ∧ first ∈ observations ∧
      (observationsOf observations k).head? = some first ∧ row.autoEligible = first.autoEligible := by
  have hok := queueOk_of_reachable hs
  -- no other move brings a row
  have hnone : ∀ {k' : RowKey} {row₀ row' : WatchlistRow}, RowChanged s.queue t.queue k' row₀ row' →
      False := by
    intro k' row₀ row' hchanged
    rw [hchanged.lookup] at hrow
    split at hrow
    · next hk =>
      rw [hk, hchanged.before] at hbefore
      cases hbefore
    · rw [hbefore] at hrow
      cases hrow
  cases reachable_move hs hstep with
  | same h hadvance =>
    rw [h, hbefore] at hrow
    cases hrow
  | settings policy hcall hrows =>
    rw [hrows, hbefore] at hrow
    cases hrow
  | leased hcall heligible hchanged => exact (hnone hchanged).elim
  | released hcall hsuccess hleased hchanged hback hstate => exact (hnone hchanged).elim
  | advanced hcall hsuccess hchanged hadvanced => exact (hnone hchanged).elim
  | @observed observations validated observedAt hcall hvalid heach =>
    cases a with
    | upsert observations' observedAt' => exact absurd rfl (hthrough observations' observedAt')
    | syncWrite outcome =>
      obtain ⟨policy, observations', observedAt', hsync, -⟩ := syncWrite_queue hstep
      obtain ⟨rfl, rfl⟩ : observations' = observations ∧ observedAt' = observedAt := by
        cases outcome with
        | failed cause => cases hcall
        | unreported cause => simpa [storedObservations, hsync] using hcall
        | reported => simpa [storedObservations, hsync] using hcall
      -- what `Sync` has decided on passes the validation unchanged
      have hsettled : ∀ o ∈ observations', validateObservation o = .ok o := fun o ho =>
        within_eq_ok.2 (syncDecided_of_reachable hs policy observations' observedAt' hsync o ho).settled
      rw [mapM_self hsettled] at hvalid
      obtain rfl := Except.ok.inj hvalid
      obtain ⟨first, hfirst, -, hhead, heligible⟩ :=
        inserted_of_upsertEach hok.keyed heach hbefore hrow
      exact ⟨outcome, policy, observations', observedAt', first, rfl, hsync, hfirst, hhead, heligible⟩
    | _ => cases hcall

/-! ## The whole claim -/

/-- Baseline and consent at the end `s` of the history `history` from `start`. -/
structure Consented (watchlistPollInterval : ℤ) (start : ServiceState) (history : List ServiceLabel)
    (s : ServiceState) : Prop where
  /-- An eligible row was inserted after the baseline, under a policy that allows the media type
  with which it was first listed. -/
  eligible : ∀ k row, s.queue.rows.lookup k = some row → row.autoEligible = true →
    InsertedBy watchlistPollInterval start history k fun policy observations =>
      ∀ first ∈ (observationsOf observations k).head?, first.item.mediaType = .tvShow →
        policy.showPolicy = .pilot
  /-- The eligibility of a row never changes. -/
  fixed : ∀ k row a t, s.queue.rows.lookup k = some row →
    (watchlistService watchlistPollInterval).step s a = some t →
    ∃ row', t.queue.rows.lookup k = some row' ∧ row'.autoEligible = row.autoEligible
  /-- What the first successful `Sync` of a process inserts is never eligible. -/
  baseline : ∀ before after u v policy observations observedAt k row,
    history = before ++ .syncWrite .reported :: after →
    (watchlistService watchlistPollInterval).run start before = some u →
    ¬ Baselined watchlistPollInterval start before → syncWrite u .reported = some v →
    v.sync = .finished (.ok ()) →
    u.sync = .decided policy observations observedAt → k ∈ observations.map observedKey →
    u.queue.rows.lookup k = none → s.queue.rows.lookup k = some row → row.autoEligible = false
  /-- `Claim` changes no row that the stored policy does not allow. -/
  claims : ∀ k row now leaseDuration, s.queue.rows.lookup k = some row →
    (claim s.queue now leaseDuration).1.rows.lookup k ≠ some row →
    s.queue.settings.acquisitionEnabled = true ∧
      (row.mediaType = .tvShow → s.queue.settings.showPolicy = .pilot)

/-- The eligibility of a row at the end of a run. -/
theorem eligibility_of_run {k : RowKey} {row : WatchlistRow} {history : List ServiceLabel}
    (hs : (watchlistService watchlistPollInterval).Reachable s)
    (hrow : s.queue.rows.lookup k = some row)
    (hrun : (watchlistService watchlistPollInterval).run s history = some t) :
    ∃ row', t.queue.rows.lookup k = some row' ∧ row'.autoEligible = row.autoEligible :=
  row_of_reaches (I := fun r => r.autoEligible = row.autoEligible) hs
    (System.reachesBy_of_run hrun) (fun _ _ _ _ _ hmove h => hmove.autoEligible.trans h)
    ⟨row, hrow, rfl⟩

/-- After a successful `Sync` each item of its snapshot has a row. -/
theorem stored_of_sync {policy : WatchlistPolicy} {observations : List WatchlistObservation}
    {observedAt : Time} {k : RowKey} (hkeyed : s.queue.Keyed) (hdecided : SyncDecided s)
    (hsync : s.sync = .decided policy observations observedAt)
    (hwrite : syncWrite s .reported = some t) (hok : t.sync = .finished (.ok ()))
    (hk : k ∈ observations.map observedKey) : ∃ row, t.queue.rows.lookup k = some row := by
  simp only [syncWrite, hsync] at hwrite
  have hsettled : ∀ o ∈ observations, validateObservation o = .ok o := fun o ho =>
    within_eq_ok.2 (hdecided policy observations observedAt hsync o ho).settled
  cases hupsert : upsertObservations s.queue observations observedAt with
  | mk written r =>
    rw [hupsert] at hwrite
    cases r with
    | error e =>
      rw [← Option.some.inj hwrite] at hok
      cases hok
    | ok _ =>
      rcases upsertObservations_cases hupsert with ⟨-, e, he⟩ | ⟨-, validated, hvalid, heach⟩
      · cases he
      rw [mapM_self hsettled] at hvalid
      obtain rfl := Except.ok.inj hvalid
      obtain ⟨-, -, hlookup⟩ := upsertEach_lookup hkeyed heach
      obtain ⟨o, ho, rfl⟩ := List.mem_map.1 hk
      have hmem : o ∈ observations.filter fun o' => observedKey o' = observedKey o :=
        List.mem_filter.2 ⟨ho, by simp⟩
      rw [← Option.some.inj hwrite]
      show ∃ row, written.rows.lookup (observedKey o) = some row
      rw [hlookup]
      cases hfilter : observations.filter fun o' => observedKey o' = observedKey o with
      | nil =>
        rw [hfilter] at hmem
        cases hmem
      | cons first rest =>
        -- the first observation leaves a row, and the others keep it
        obtain ⟨row, hfirst⟩ : ∃ row, observeRow (unixMilli observedAt)
            (s.queue.rows.lookup (observedKey o)) first = some row := ⟨_, rfl⟩
        rw [List.foldl_cons, hfirst]
        obtain ⟨row', hfold, -⟩ := foldl_observeRow (unixMilli observedAt) row rest
        exact ⟨row', hfold⟩

/-- An eligible row was inserted by a `Sync` that was allowed to. -/
theorem insertedBy_of_eligible {enabled : Bool} {history : List ServiceLabel} {k : RowKey}
    {row : WatchlistRow} :
    ∀ {s : ServiceState}, (∀ a ∈ history, ThroughSync a) →
      (watchlistService watchlistPollInterval).run (freshService enabled) history = some s →
      s.queue.rows.lookup k = some row → row.autoEligible = true →
      InsertedBy watchlistPollInterval (freshService enabled) history k fun policy observations =>
        ∀ first ∈ (observationsOf observations k).head?, first.item.mediaType = .tvShow →
          policy.showPolicy = .pilot := by
  induction history using List.reverseRecOn generalizing row with
  | nil =>
    intro s _ hrun hrow
    rw [System.run_nil, Option.some.injEq] at hrun
    rw [← hrun] at hrow
    simp [freshService, Queue.empty] at hrow
  | append_singleton history a ih =>
    intro t hthrough hrun hrow heligible
    obtain ⟨s, hs, hstep⟩ := System.run_concat_eq_some.1 hrun
    have hreach : (watchlistService watchlistPollInterval).Reachable s :=
      System.reachable_of_run ⟨enabled, rfl⟩ hs
    have hbefore : ∀ b ∈ history, ThroughSync b := fun b hb =>
      hthrough b (List.mem_append_left _ hb)
    cases hold : s.queue.rows.lookup k with
    | some row₀ =>
      obtain ⟨row', hrow', hmove⟩ := reachable_rowStep hreach hstep hold
      obtain rfl := Option.some.inj (hrow.symm.trans hrow')
      exact (ih hbefore hs hold (hmove.autoEligible ▸ heligible)).concat a
    | none =>
      obtain ⟨outcome, policy, observations, observedAt, first, rfl, hsync, hfirst, hhead, hsame⟩ :=
        appears_of_step hreach (hthrough a (by simp)) hstep hold hrow
      have hdecided := syncDecided_of_reachable hreach policy observations observedAt hsync first hfirst
      have hauto : first.autoEligible = true := hsame ▸ heligible
      have hbaselined : Baselined watchlistPollInterval (freshService enabled) history :=
        baselined_of_complete rfl hs (hdecided.baseline hauto)
      refine ⟨history, outcome, [], s, t, policy, observations, observedAt, rfl, hs, hstep, hsync,
        hold, ?_, hbaselined, hdecided.enabled hauto, ?_⟩
      · rw [hrow]
        rfl
      · intro first' hfirst' hshow
        obtain rfl := Option.some.inj (hhead.symm.trans hfirst')
        exact hdecided.pilot hauto hshow

/-- Baseline and consent hold at the end of every history in which observations reach the queue
through `Sync` alone. -/
theorem baseline_and_consent {enabled : Bool} {history : List ServiceLabel} {s : ServiceState}
    (hthrough : ∀ a ∈ history, ThroughSync a)
    (hrun : (watchlistService watchlistPollInterval).run (freshService enabled) history = some s) :
    Consented watchlistPollInterval (freshService enabled) history s where
  eligible k row hrow heligible := insertedBy_of_eligible hthrough hrun hrow heligible
  fixed k row a t hrow hstep := by
    have hs : (watchlistService watchlistPollInterval).Reachable s :=
      System.reachable_of_run ⟨enabled, rfl⟩ hrun
    obtain ⟨row', hrow', hmove⟩ := reachable_rowStep hs hstep hrow
    exact ⟨row', hrow', hmove.autoEligible⟩
  baseline before after u v policy observations observedAt k row hhistory hbefore hfirst hwrite hok
      hsync hk hnone hrow := by
    have hu : (watchlistService watchlistPollInterval).Reachable u :=
      System.reachable_of_run ⟨enabled, rfl⟩ hbefore
    have hdecided := syncDecided_of_reachable hu
    obtain ⟨rowV, hrowV⟩ := stored_of_sync (queueOk_of_reachable hu).keyed hdecided hsync hwrite hok hk
    have hstep : (watchlistService watchlistPollInterval).step u (.syncWrite .reported) = some v :=
      hwrite
    obtain ⟨outcome, policy', observations', observedAt', first, -, hsync', hmem, -, hsame⟩ :=
      appears_of_step hu (by simp [ThroughSync]) hstep hnone hrowV
    -- the first snapshot of a process decides against every item
    have hineligible : rowV.autoEligible = false := by
      rw [hsame, Bool.eq_false_iff]
      intro hauto
      have hcomplete := (hdecided policy' observations' observedAt' hsync' first hmem).baseline hauto
      have hstart : (freshService enabled).observer.baselineComplete = false := rfl
      exact hfirst (baselined_of_complete hstart hbefore hcomplete)
    rw [hhistory, System.run_append, Option.bind_eq_some_iff] at hrun
    obtain ⟨u', hu', hrest⟩ := hrun
    obtain rfl := Option.some.inj (hbefore.symm.trans hu')
    rw [System.run_cons, hstep] at hrest
    obtain ⟨row', hrow', hkept⟩ := eligibility_of_run (hu.step trivial hstep) hrowV hrest
    obtain rfl := Option.some.inj (hrow.symm.trans hrow')
    rw [hkept, hineligible]
  claims k row now leaseDuration hrow hchanged := by
    have hs : (watchlistService watchlistPollInterval).Reachable s :=
      System.reachable_of_run ⟨enabled, rfl⟩ hrun
    have hclaim : claim s.queue now leaseDuration =
        ((claim s.queue now leaseDuration).1, (claim s.queue now leaseDuration).2) := rfl
    generalize (claim s.queue now leaseDuration).1 = q', (claim s.queue now leaseDuration).2 = r
      at hclaim hchanged
    rcases claim_cases (queueOk_of_reachable hs).keyed hclaim with
      ⟨rfl, -⟩ | ⟨row₀, heligible, hleased, -⟩
    · exact absurd hrow hchanged
    · by_cases hk : k = row₀.key
      · subst hk
        obtain rfl := Option.some.inj (hrow.symm.trans hleased.before)
        simp only [Watchlist.eligible, allowedMedia, Bool.and_eq_true, Bool.or_eq_true,
          decide_eq_true_eq] at heligible
        refine ⟨heligible.1.1.1, fun hshow => ?_⟩
        rcases heligible.1.2 with hmovie | ⟨-, hpilot⟩
        · rw [hshow] at hmovie
          cases hmovie
        · exact hpilot
      · exact absurd ((hleased.frame hk).trans hrow) hchanged

end Consent

section SmallRuns

attribute [local instance] TextTables.ascii

/-- A movie is added under a policy that acquires movies but no shows, and later listed as a show. -/
def retypedLabels : List ServiceLabel :=
  .setPolicy ⟨true, .off⟩ :: syncLabels [] 1 ++ syncLabels [smallItem .movie] 2 ++
    syncLabels [smallItem .tvShow] 3

instance (a : ServiceLabel) : Decidable (ThroughSync a) :=
  match a with
  | .upsert observations observedAt => isFalse fun h => h observations observedAt rfl
  | .setPolicy _ | .claim _ _ | .release _ _ _ | .advance _ | .syncSnapshot _ _ | .syncPolicy _
  | .syncWrite _ | .processSnapshot _ _ | .processFind _ | .processCheck _ | .processResolve _
  | .processAdvance _ | .restart => isTrue fun _ _ h => by cases h

theorem baseline_and_consent_small : ∃ s,
    (watchlistService 1).run (freshService false) retypedLabels = some s ∧
      (s.queue.rows.lookup smallKey).map (fun row => row.autoEligible) = some true ∧
      Consented 1 (freshService false) retypedLabels s := by
  have hvalues : ((watchlistService 1).run (freshService false) retypedLabels).map
      (fun s => (s.queue.rows.lookup smallKey).map fun row => row.autoEligible) =
        some (some true) := by
    decide +kernel
  rw [Option.map_eq_some_iff] at hvalues
  obtain ⟨s, hs, heligible⟩ := hvalues
  exact ⟨s, hs, heligible, baseline_and_consent (by decide) hs⟩

/-- The policy that a `Sync` has read. -/
def policyRead (s : ServiceState) : Option WatchlistPolicy :=
  match s.sync with
  | .decided policy _ _ => some policy
  | _ => none

/-- Its row is then an eligible show, and no `Sync` had read the pilot policy. -/
theorem retyped_movie_eligible : ¬ ∀ history s, (∀ a ∈ history, ThroughSync a) →
    (watchlistService 1).run (freshService false) history = some s →
    ∀ k row, s.queue.rows.lookup k = some row → row.autoEligible = true →
      InsertedBy 1 (freshService false) history k fun policy _ =>
        row.mediaType = .tvShow → policy.showPolicy = .pilot := by
  intro hclaim
  have hvalues : ((watchlistService 1).run (freshService false) retypedLabels).bind
      (fun s => (s.queue.rows.lookup smallKey).map fun row => (row.autoEligible, row.mediaType)) =
        some (true, .tvShow) := by
    decide +kernel
  have hpolicies : ∀ n < 11, ∀ s ∈ (watchlistService 1).run (freshService false)
      (retypedLabels.take n), ∀ policy ∈ policyRead s, policy.showPolicy = .off := by
    decide +kernel
  simp only [Option.bind_eq_some_iff, Option.map_eq_some_iff, Prod.mk.injEq] at hvalues
  obtain ⟨s, hs, row, hrow, heligible, htype⟩ := hvalues
  obtain ⟨before, outcome, after, u, v, policy, observations, observedAt, hhistory, hbefore, -, hsync,
    -, -, -, -, hpilot⟩ := hclaim retypedLabels s (by decide) hs smallKey row hrow heligible
  have hlength : before.length < 11 := by
    have hall := congrArg List.length hhistory
    simp only [List.length_append, List.length_cons] at hall
    have hten : retypedLabels.length = 10 := rfl
    omega
  have htake : retypedLabels.take before.length = before := by
    rw [hhistory, List.take_left']
    rfl
  have hoff := hpolicies before.length hlength u (by rw [htake, hbefore]; rfl) policy
    (by rw [policyRead, hsync]; rfl)
  rw [hpilot htype] at hoff
  cases hoff

end SmallRuns

end BlackPearl.Watchlist
