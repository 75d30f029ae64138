import BlackPearl.Watchlist.Service

/-!
# What the queue operations change

One lemma for each operation of `Watchlist.Queue`: either the queue stays as it is and the caller
gets an error, or exactly one row changes in the way that the statement says (`RowChanged`).
`UpsertObservations` changes many rows; what it makes of one of them is a fold over the
observations of its key (`upsertEach_lookup`).
-/

set_option autoImplicit false

namespace BlackPearl.Watchlist

open BlackPearl.Library BlackPearl.Domain BlackPearl.Acquisition

/-- Every row is stored under its own key. -/
def Queue.Keyed (q : Queue) : Prop := ∀ k row, q.rows.lookup k = some row → row.key = k

/-- `q'` is `q` with the row `row'` in the place of `row`. -/
structure RowChanged (q q' : Queue) (k : RowKey) (row row' : WatchlistRow) : Prop where
  settings : q'.settings = q.settings
  before : q.rows.lookup k = some row
  lookup : ∀ k', q'.rows.lookup k' = if k' = k then some row' else q.rows.lookup k'
  checks : row'.Checks

/-! ## Statements -/

theorem writeRow_eq_ok {q q' : Queue} {row : WatchlistRow} :
    q.writeRow row = .ok q' ↔ row.Checks ∧ q' = { q with rows := q.rows.insert row.key row } := by
  rw [Queue.writeRow]
  split
  · next h =>
    simp only [Except.ok.injEq, h, true_and]
    exact eq_comm
  · next h => simp [h]

/-- An update of a row that keeps its key. -/
theorem RowChanged.of_write {q q' : Queue} {k : RowKey} {row row' : WatchlistRow}
    (hkeyed : q.Keyed) (hrow : q.rows.lookup k = some row) (hkey : row'.key = row.key)
    (hwrite : q.writeRow row' = .ok q') : RowChanged q q' k row row' := by
  obtain ⟨hchecks, rfl⟩ := writeRow_eq_ok.1 hwrite
  refine ⟨rfl, hrow, fun k' => ?_, hchecks⟩
  rw [Table.lookup_insert, hkey, hkeyed k row hrow]

theorem RowChanged.after {q q' : Queue} {k : RowKey} {row row' : WatchlistRow}
    (h : RowChanged q q' k row row') : q'.rows.lookup k = some row' := by
  rw [h.lookup, if_pos rfl]

/-- The rows of other keys stay. -/
theorem RowChanged.frame {q q' : Queue} {k k' : RowKey} {row row' : WatchlistRow}
    (h : RowChanged q q' k row row') (hne : k' ≠ k) : q'.rows.lookup k' = q.rows.lookup k' := by
  rw [h.lookup, if_neg hne]

/-- An update with a condition changes one row that meets it, or none. -/
theorem updateRow_cases {q q' : Queue} {k : RowKey} {guard : WatchlistRow → Bool}
    {assign : WatchlistRow → WatchlistRow} {n : ℕ} (hkeyed : q.Keyed)
    (hkey : ∀ row, (assign row).key = row.key) (h : q.updateRow k guard assign = .ok (q', n)) :
    (n = 0 ∧ q' = q ∧ ∀ row, q.rows.lookup k = some row → guard row = false) ∨
      (n = 1 ∧ ∃ row, guard row = true ∧ RowChanged q q' k row (assign row)) := by
  rw [Queue.updateRow] at h
  cases hrow : q.rows.lookup k with
  | none =>
    simp only [hrow, Except.ok.injEq, Prod.mk.injEq] at h
    exact Or.inl ⟨h.2.symm, h.1.symm, fun _ hne => by cases hne⟩
  | some row =>
    simp only [hrow] at h
    cases hguard : guard row with
    | false =>
      simp only [hguard, if_true, Except.ok.injEq, Prod.mk.injEq] at h
      refine Or.inl ⟨h.2.symm, h.1.symm, ?_⟩
      rintro row' ⟨⟩
      exact hguard
    | true =>
      simp only [hguard, Bool.true_eq_false, if_false] at h
      cases hwrite : q.writeRow (assign row) with
      | error e => simp [hwrite] at h
      | ok written =>
        simp only [hwrite, Except.ok.injEq, Prod.mk.injEq] at h
        obtain ⟨rfl, rfl⟩ := h
        exact Or.inr ⟨rfl, row, hguard, .of_write hkeyed hrow (hkey row) hwrite⟩

/-- An update whose rows meet the constraints does not fail. -/
theorem updateRow_ok {q : Queue} {k : RowKey} {guard : WatchlistRow → Bool}
    {assign : WatchlistRow → WatchlistRow}
    (hchecks : ∀ row, q.rows.lookup k = some row → guard row = true → (assign row).Checks) :
    ∃ q' n, q.updateRow k guard assign = .ok (q', n) := by
  rw [Queue.updateRow]
  cases hrow : q.rows.lookup k with
  | none => exact ⟨q, 0, rfl⟩
  | some row =>
    cases hguard : guard row with
    | false => exact ⟨q, 0, by simp [hguard]⟩
    | true =>
      have hwrite := (writeRow_eq_ok (q := q)).2 ⟨hchecks row hrow hguard, rfl⟩
      refine ⟨{ q with rows := q.rows.insert (assign row).key (assign row) }, 1, ?_⟩
      simp only [hguard, Bool.true_eq_false, if_false, hwrite]

/-! ## Leases -/

section Operations

variable [TextTables]

/-- The key under which a transition looks for the row of a claim. -/
def releaseKey (claim : WatchlistClaim) : RowKey :=
  (claim.observation.item.source, trimSpace claim.observation.item.externalID)

/-- How a row that has been leased differs from one that gives its lease back. -/
structure GivesBack (row row' : WatchlistRow) : Prop where
  key : row'.key = row.key
  item : persistedItem row' = persistedItem row
  autoEligible : row'.autoEligible = row.autoEligible
  frontier : row'.frontier = row.frontier
  leaseVersion : row'.leaseVersion = row.leaseVersion
  attemptCount : row'.attemptCount = row.attemptCount
  leaseUntil : row'.leaseUntilUnixMs = 0
  state : row'.state ∈ [.acquiring, .succeeded, .notCached, .retryable, .manualReview]

omit [TextTables] in
/-- The result of a transition and the queue after it. -/
theorem updateLeased_cases {q q' : Queue} {claim : WatchlistClaim} {now : Time}
    {assign : WatchlistRow → WatchlistRow} {r : Except QueueError Unit} (hkeyed : q.Keyed)
    (hkey : ∀ row, (assign row).key = row.key)
    (h : updateLeased q claim now assign = (q', r)) :
    (q' = q ∧ ∃ e, r = .error e) ∨ (r = .ok () ∧ ∃ row, leased claim.leaseVersion now row = true ∧
      RowChanged q q' (claimKey claim) row (assign row)) := by
  rw [updateLeased] at h
  cases hupdate : q.updateRow (claimKey claim) (leased claim.leaseVersion now) assign with
  | error e =>
    simp only [hupdate, Prod.mk.injEq] at h
    exact Or.inl ⟨h.1.symm, e, h.2.symm⟩
  | ok result =>
    obtain ⟨written, n⟩ := result
    simp only [hupdate] at h
    rcases updateRow_cases hkeyed hkey hupdate with ⟨rfl, rfl, -⟩ | ⟨rfl, row, hleased, hchanged⟩
    · simp only [ne_eq, Nat.zero_ne_one, not_false_eq_true, if_true, Prod.mk.injEq] at h
      exact Or.inl ⟨h.1.symm, .staleClaim, h.2.symm⟩
    · simp only [ne_eq, not_true_eq_false, if_false, Prod.mk.injEq] at h
      obtain ⟨rfl, rfl⟩ := h
      exact Or.inr ⟨rfl, row, hleased, hchanged⟩

theorem newWatchlistClaim_eq_ok {o : WatchlistObservation} {leaseVersion attempt : ℤ} {jobID : String}
    {claim : WatchlistClaim} (h : newWatchlistClaim o leaseVersion attempt jobID = .ok claim) :
    newWatchlistObservation o.item o.autoEligible o.season o.episode = .ok claim.observation ∧
      claim.leaseVersion = leaseVersion ∧ claim.attempt = attempt ∧ claim.backgroundJobID = jobID := by
  simp only [newWatchlistClaim, bind_eq_ok, pure_eq_ok, require_eq_ok, within_eq_ok] at h
  obtain ⟨validated, hvalidated, _, -, _, -, _, -, rfl⟩ := h
  exact ⟨hvalidated, rfl, rfl, rfl⟩

/-- An observation that has been checked twice has the key of the first, trimmed. -/
theorem observedKey_of_checked {item : WatchlistItem} {autoEligible : Bool} {season episode : ℤ}
    {o o' : WatchlistObservation} (h : newWatchlistObservation item autoEligible season episode = .ok o)
    (h' : newWatchlistObservation o.item o.autoEligible o.season o.episode = .ok o') :
    observedKey o' = (item.source, trimSpace item.externalID) := by
  rw [newWatchlistObservation_idem h] at h'
  obtain rfl := Except.ok.inj h'
  obtain ⟨hsource, hid, -⟩ := newWatchlistItem_eq_ok (newWatchlistObservation_eq_ok.1 h).1
  rw [observedKey, hsource, hid]

theorem validateClaim_eq_ok {claim validated : WatchlistClaim}
    (h : validateClaim claim = .ok validated) :
    claimKey validated = releaseKey claim ∧ validated.leaseVersion = claim.leaseVersion := by
  simp only [validateClaim, newWatchlistIntentClaim, bind_eq_ok] at h
  obtain ⟨o, ho, hclaim⟩ := h
  obtain ⟨hvalidated, hversion, -⟩ := newWatchlistClaim_eq_ok hclaim
  exact ⟨observedKey_of_checked ho hvalidated, hversion⟩

theorem validateClaimWithJob_eq_ok {claim validated : WatchlistClaim} {jobID : String}
    (h : validateClaimWithJob claim jobID = .ok validated) :
    claimKey validated = releaseKey claim ∧ validated.leaseVersion = claim.leaseVersion ∧
      validated.backgroundJobID = jobID ∧ validJobID jobID = true := by
  simp only [validateClaimWithJob, newWatchlistIntentJobClaim, bind_eq_ok, require_eq_ok] at h
  obtain ⟨o, ho, _, hjob, hclaim⟩ := h
  obtain ⟨hvalidated, hversion, -, hid⟩ := newWatchlistClaim_eq_ok hclaim
  exact ⟨observedKey_of_checked ho hvalidated, hversion, hid, hjob⟩

omit [TextTables] in
/-- A checked completion keeps its state, which ends the attempt. -/
theorem validateCompletion_state {completion validated : WatchlistCompletion}
    (h : validateCompletion completion = .ok validated) :
    validated.state = completion.state ∧
      validated.state ∈ [.succeeded, .notCached, .retryable, .manualReview] := by
  cases hstate : completion.state with
  | succeeded =>
    simp only [validateCompletion, hstate, newWatchlistSucceeded, bind_eq_ok, pure_eq_ok,
      require_eq_ok] at h
    obtain ⟨_, -, _, -, _, -, rfl⟩ := h
    simp
  | notCached =>
    simp only [validateCompletion, hstate, newWatchlistDeferred, bind_eq_ok, pure_eq_ok,
      require_eq_ok] at h
    obtain ⟨_, -, _, -, rfl⟩ := h
    simp
  | retryable =>
    simp only [validateCompletion, hstate, newWatchlistDeferred, bind_eq_ok, pure_eq_ok,
      require_eq_ok] at h
    obtain ⟨_, -, _, -, rfl⟩ := h
    simp
  | manualReview =>
    simp only [validateCompletion, hstate, Except.ok.injEq] at h
    subst h
    simp [newWatchlistManualReview]
  | pending => simp [validateCompletion, hstate] at h
  | acquiring => simp [validateCompletion, hstate] at h
  | unsupported text => simp [validateCompletion, hstate] at h

omit [TextTables] in
theorem transitionJob_cases {q q' : Queue} {claim : WatchlistClaim} {nextAttempt now : Time}
    {jobID operation : String} {r : Except QueueError Unit} (hkeyed : q.Keyed)
    (h : transitionJob q claim nextAttempt jobID now operation = (q', r)) :
    (q' = q ∧ ∃ e, r = .error e) ∨ (r = .ok () ∧ ∃ row row', leased claim.leaseVersion now row = true ∧
      RowChanged q q' (claimKey claim) row row' ∧ GivesBack row row' ∧ row'.state = .acquiring) := by
  rw [transitionJob] at h
  split_ifs at h with hnext hnow
  · exact Or.inl ⟨(Prod.mk.inj h).1.symm, _, (Prod.mk.inj h).2.symm⟩
  · exact Or.inl ⟨(Prod.mk.inj h).1.symm, _, (Prod.mk.inj h).2.symm⟩
  · have hsameKey : ∀ row, (assignJob nextAttempt jobID now row).key = row.key := fun _ => rfl
    rcases updateLeased_cases hkeyed hsameKey h with hsame | ⟨hok, row, hleased, hchanged⟩
    · exact Or.inl hsame
    · refine Or.inr ⟨hok, row, _, hleased, hchanged, ?_, rfl⟩
      exact ⟨rfl, rfl, rfl, rfl, rfl, rfl, rfl, by simp [assignJob]⟩

/-- `AttachJob`, `DeferJob` and `Complete` fail, or give back the lease that they name. Only
`Complete` moves the row to another state. -/
theorem release_cases {q q' : Queue} {claim : WatchlistClaim} {call : LeaseCall} {now : Time}
    {r : Except QueueError Unit} (hkeyed : q.Keyed) (h : release q claim call now = (q', r)) :
    (q' = q ∧ ∃ e, r = .error e) ∨ (r = .ok () ∧ ∃ row row', leased claim.leaseVersion now row = true ∧
      RowChanged q q' (releaseKey claim) row row' ∧ GivesBack row row' ∧
      (row'.state = .acquiring ∨ ∃ completion, call = .complete completion ∧
        row'.state = completion.state)) := by
  cases call with
  | attachJob jobID nextAttempt =>
    simp only [release, attachJob] at h
    cases hvalid : within "validate watchlist job attachment" (validateClaimWithJob claim jobID) with
    | error message =>
      rw [hvalid] at h
      exact Or.inl ⟨(Prod.mk.inj h).1.symm, _, (Prod.mk.inj h).2.symm⟩
    | ok validated =>
      rw [hvalid] at h
      obtain ⟨hkey, hversion, -⟩ := validateClaimWithJob_eq_ok (within_eq_ok.1 hvalid)
      rcases transitionJob_cases hkeyed h with hsame | ⟨hok, row, row', hleased, hchanged, hback, hstate⟩
      · exact Or.inl hsame
      · rw [hversion] at hleased
        rw [hkey] at hchanged
        exact Or.inr ⟨hok, row, row', hleased, hchanged, hback, Or.inl hstate⟩
  | deferJob nextAttempt =>
    simp only [release, deferJob] at h
    split_ifs at h with hempty
    · exact Or.inl ⟨(Prod.mk.inj h).1.symm, _, (Prod.mk.inj h).2.symm⟩
    cases hvalid : within "validate deferred watchlist job"
        (validateClaimWithJob claim claim.backgroundJobID) with
    | error message =>
      rw [hvalid] at h
      exact Or.inl ⟨(Prod.mk.inj h).1.symm, _, (Prod.mk.inj h).2.symm⟩
    | ok validated =>
      rw [hvalid] at h
      obtain ⟨hkey, hversion, -⟩ := validateClaimWithJob_eq_ok (within_eq_ok.1 hvalid)
      rcases transitionJob_cases hkeyed h with hsame | ⟨hok, row, row', hleased, hchanged, hback, hstate⟩
      · exact Or.inl hsame
      · rw [hversion] at hleased
        rw [hkey] at hchanged
        exact Or.inr ⟨hok, row, row', hleased, hchanged, hback, Or.inl hstate⟩
  | complete completion =>
    simp only [release, complete] at h
    cases hvalid : within "invalid watchlist completion claim" (validateClaim claim) with
    | error message =>
      rw [hvalid] at h
      exact Or.inl ⟨(Prod.mk.inj h).1.symm, _, (Prod.mk.inj h).2.symm⟩
    | ok validated =>
      obtain ⟨hkey, hversion⟩ := validateClaim_eq_ok (within_eq_ok.1 hvalid)
      simp only [hvalid] at h
      cases hcompletion : validateCompletion completion with
      | error message =>
        rw [hcompletion] at h
        exact Or.inl ⟨(Prod.mk.inj h).1.symm, _, (Prod.mk.inj h).2.symm⟩
      | ok validatedCompletion =>
        simp only [hcompletion] at h
        split_ifs at h with hnow
        · exact Or.inl ⟨(Prod.mk.inj h).1.symm, _, (Prod.mk.inj h).2.symm⟩
        have hsameKey : ∀ row, (assignComplete validatedCompletion now row).key = row.key :=
          fun _ => rfl
        rcases updateLeased_cases hkeyed hsameKey h with hsame | ⟨hok, row, hleased, hchanged⟩
        · exact Or.inl hsame
        · rw [hversion] at hleased
          rw [hkey] at hchanged
          refine Or.inr ⟨hok, row, _, hleased, hchanged, ?_, Or.inr ⟨completion, rfl, ?_⟩⟩
          · refine ⟨rfl, rfl, rfl, rfl, rfl, rfl, rfl, ?_⟩
            exact List.mem_cons_of_mem _ (validateCompletion_state hcompletion).2
          · exact (validateCompletion_state hcompletion).1

/-! ## Claim -/

omit [TextTables] in
/-- The row that `Claim` leases is stored and eligible. -/
theorem nextEligible_eq_some {q : Queue} {nowMillis : ℤ} {row : WatchlistRow} (hkeyed : q.Keyed)
    (h : q.nextEligible nowMillis = some row) :
    q.rows.lookup row.key = some row ∧ eligible q.settings nowMillis row = true := by
  have hmem := List.argmin_mem (Option.mem_def.2 h)
  obtain ⟨hentry, heligible⟩ := List.mem_filter.1 hmem
  obtain ⟨⟨k, row'⟩, hstored, rfl⟩ := List.mem_map.1 hentry
  have hlookup := (Table.lookup_eq_some_iff_mem q.rows k row').2 hstored
  refine ⟨?_, heligible⟩
  rw [hkeyed k row' hlookup]
  exact hlookup

/-- `Claim` refuses its arguments, finds nothing, violates a constraint, or leases an eligible row
and returns what it reads there. -/
theorem claim_cases {q q' : Queue} {now : Time} {leaseDuration : ℤ}
    {r : Except QueueError WatchlistClaim} (hkeyed : q.Keyed)
    (h : claim q now leaseDuration = (q', r)) :
    (q' = q ∧ ((now = zeroTime ∨ leaseDuration ≤ 0) ∨ r = .error .notFound ∨
      ∃ row, q.rows.lookup row.key = some row ∧ ¬ (leasedRow row now leaseDuration).Checks)) ∨
      ∃ row, eligible q.settings (unixMilli now) row = true ∧
        RowChanged q q' row.key row (leasedRow row now leaseDuration) ∧
        r = readClaim (leasedRow row now leaseDuration) := by
  rw [claim] at h
  split_ifs at h with hnow hduration
  · exact Or.inl ⟨(Prod.mk.inj h).1.symm, Or.inl (Or.inl hnow)⟩
  · exact Or.inl ⟨(Prod.mk.inj h).1.symm, Or.inl (Or.inr hduration)⟩
  rw [leaseNext] at h
  cases hnext : q.nextEligible (unixMilli now) with
  | none =>
    simp only [hnext, Prod.mk.injEq] at h
    exact Or.inl ⟨h.1.symm, Or.inr (Or.inl h.2.symm)⟩
  | some row =>
    obtain ⟨hrow, heligible⟩ := nextEligible_eq_some hkeyed hnext
    simp only [hnext] at h
    by_cases hchecks : (leasedRow row now leaseDuration).Checks
    · have hwrite := (writeRow_eq_ok (q := q)).2 ⟨hchecks, rfl⟩
      simp only [hwrite, Prod.mk.injEq] at h
      obtain ⟨rfl, rfl⟩ := h
      exact Or.inr ⟨row, heligible, .of_write hkeyed hrow rfl hwrite, rfl⟩
    · have hwrite : q.writeRow (leasedRow row now leaseDuration) = .error .constraint := if_neg hchecks
      simp only [hwrite, Prod.mk.injEq] at h
      exact Or.inl ⟨h.1.symm, Or.inr (Or.inr ⟨row, hrow, hchecks⟩)⟩

/-! ## Advancement -/

/-- What `AdvanceEpisode` checks before its statement. -/
theorem validateAdvance_eq_ok {a : AdvanceArguments} {identity : EpisodeFrontierIdentity}
    {next : EpisodeCoordinate}
    (h : validateAdvance a.source a.externalID a.objectID a.current a.next a.observedAfter a.now =
      .ok (identity, next)) :
    validateEpisodeFrontier a.source a.externalID a.objectID a.current a.observedAfter =
      .ok identity ∧ next = a.next ∧ identity.coordinate = a.current ∧ a.next.After a.current ∧
      (identity.source, identity.externalID) = (a.source, trimSpace a.externalID) ∧
      (1 ≤ a.next.season ∧ a.next.season ≤ 99) ∧ 1 ≤ a.next.episode ∧ a.next.episode ≤ 999 := by
  simp only [validateAdvance, bind_eq_ok, pure_eq_ok, within_eq_ok, require_eq_ok,
    Prod.mk.injEq] at h
  obtain ⟨identity', hidentity, next', hnext, _, hafter, _, -, rfl, rfl⟩ := h
  obtain ⟨rfl, h₁, h₂, h₃, h₄⟩ := newEpisodeCoordinate_eq_ok.1 hnext
  have hfrontier := hidentity
  simp only [validateEpisodeFrontier, bind_eq_ok, pure_eq_ok, require_eq_ok] at hidentity
  obtain ⟨item, hitem, completion, -, coordinate, hcoordinate, _, -, rfl⟩ := hidentity
  obtain ⟨rfl, -⟩ := newEpisodeCoordinate_eq_ok.1 hcoordinate
  obtain ⟨hsource, hid, -⟩ := newWatchlistItem_eq_ok hitem
  refine ⟨hfrontier, rfl, rfl, hafter, ?_, ⟨h₁, h₂⟩, h₃, h₄⟩
  rw [hsource, hid]

/-- The key under which `AdvanceEpisode` looks for its row. -/
def advanceKey (a : AdvanceArguments) : RowKey := (a.source, trimSpace a.externalID)

/-- How `AdvanceEpisode` changes its row. -/
structure Advanced (a : AdvanceArguments) (row row' : WatchlistRow) : Prop where
  ready : row.state = .succeeded ∧ row.autoEligible = true ∧ row.mediaType = .tvShow
  current : row.frontier = a.current
  row : row' = assignAdvance a.next a.now row
  after : a.next.After a.current
  range : (1 ≤ a.next.season ∧ a.next.season ≤ 99) ∧ 1 ≤ a.next.episode ∧ a.next.episode ≤ 999

/-- `AdvanceEpisode` changes nothing, or moves the frontier of one row and says so. -/
theorem advance_cases {q q' : Queue} {a : AdvanceArguments} {r : Except QueueError Bool}
    (hkeyed : q.Keyed) (h : advance q a = (q', r)) :
    (q' = q ∧ r ≠ .ok true) ∨
      (r = .ok true ∧ ∃ row row', RowChanged q q' (advanceKey a) row row' ∧ Advanced a row row') := by
  rw [advance, advanceEpisode] at h
  cases hvalid : validateAdvance a.source a.externalID a.objectID a.current a.next a.observedAfter
      a.now with
  | error message =>
    rw [hvalid] at h
    refine Or.inl ⟨(Prod.mk.inj h).1.symm, ?_⟩
    rw [← (Prod.mk.inj h).2]
    exact fun hne => by cases hne
  | ok checked =>
    obtain ⟨identity, next⟩ := checked
    simp only [hvalid] at h
    obtain ⟨-, rfl, hcurrent, hafter, hkey, hrange⟩ := validateAdvance_eq_ok hvalid
    cases hupdate : q.updateRow (identity.source, identity.externalID)
        (advanceable q.settings identity) (assignAdvance a.next a.now) with
    | error e =>
      simp only [hupdate, Prod.mk.injEq] at h
      refine Or.inl ⟨h.1.symm, ?_⟩
      rw [← h.2]
      exact fun hne => by cases hne
    | ok result =>
      obtain ⟨written, n⟩ := result
      simp only [hupdate, Prod.mk.injEq] at h
      obtain ⟨rfl, rfl⟩ := h
      have hsameKey : ∀ row, (assignAdvance a.next a.now row).key = row.key := fun _ => rfl
      rcases updateRow_cases hkeyed hsameKey hupdate with
        ⟨rfl, rfl, -⟩ | ⟨rfl, row, hguard, hchanged⟩
      · exact Or.inl ⟨rfl, by simp⟩
      · rw [hkey] at hchanged
        simp only [advanceable, Bool.and_eq_true, decide_eq_true_eq] at hguard
        obtain ⟨⟨⟨⟨⟨⟨⟨⟨htype, hstate⟩, heligible⟩, -⟩, hseason⟩, hepisode⟩, -⟩, -⟩, -⟩ := hguard
        refine Or.inr ⟨by simp, row, _, hchanged, ⟨hstate, heligible, htype⟩, ?_, rfl, hafter, hrange⟩
        rw [WatchlistRow.frontier, hseason, hepisode, ← hcurrent]

/-! ## Observations -/

omit [TextTables] in
/-- What one observation makes of the row of its key. -/
def observeRow (timestamp : ℤ) (row : Option WatchlistRow) (o : WatchlistObservation) :
    Option WatchlistRow :=
  some (match row with
    | none => insertedRow o timestamp
    | some row => observedRow row o timestamp)

omit [TextTables] in
theorem upsertObservation_lookup {q q' : Queue} {timestamp : ℤ} {o : WatchlistObservation}
    (hkeyed : q.Keyed) (h : upsertObservation q timestamp o = .ok q') :
    q'.settings = q.settings ∧ q'.Keyed ∧ ∀ k, q'.rows.lookup k =
      if k = observedKey o then observeRow timestamp (q.rows.lookup k) o else q.rows.lookup k := by
  have hrow : ∃ row, row.key = observedKey o ∧
      observeRow timestamp (q.rows.lookup (observedKey o)) o = some row ∧ q.writeRow row = .ok q' := by
    rw [upsertObservation] at h
    cases hlookup : q.rows.lookup (observedKey o) with
    | none =>
      rw [hlookup] at h
      exact ⟨insertedRow o timestamp, rfl, rfl, h⟩
    | some row =>
      rw [hlookup] at h
      exact ⟨observedRow row o timestamp, hkeyed _ row hlookup, rfl, h⟩
  obtain ⟨row, hkey, hobserve, hwrite⟩ := hrow
  obtain ⟨-, rfl⟩ := writeRow_eq_ok.1 hwrite
  have hlookup : ∀ k, (q.rows.insert row.key row).lookup k =
      if k = observedKey o then observeRow timestamp (q.rows.lookup k) o else q.rows.lookup k := by
    intro k
    rw [Table.lookup_insert, hkey]
    split
    · next hk => rw [hk, hobserve]
    · rfl
  refine ⟨rfl, fun k row' hk => ?_, hlookup⟩
  rw [hlookup] at hk
  split at hk
  · next hkey' =>
    rw [hkey', hobserve] at hk
    obtain rfl := Option.some.inj hk
    rw [hkey, hkey']
  · exact hkeyed k row' hk

omit [TextTables] in
/-- A property that each observation preserves, a snapshot preserves. -/
theorem upsertEach_invariant {I : Queue → Prop} {timestamp : ℤ} :
    ∀ {observations : List WatchlistObservation} {q q' : Queue},
      (∀ o ∈ observations, ∀ q q', I q → upsertObservation q timestamp o = .ok q' → I q') →
      I q → upsertEach timestamp q observations = .ok q' → I q'
  | [], q, q', _, hq, h => by
    obtain rfl := Except.ok.inj h
    exact hq
  | o :: rest, q, q', hstep, hq, h => by
    rw [upsertEach] at h
    cases ho : upsertObservation q timestamp o with
    | error e => simp [ho] at h
    | ok written =>
      simp only [ho] at h
      have hwritten := hstep o List.mem_cons_self q written hq ho
      exact upsertEach_invariant (fun o' ho' => hstep o' (List.mem_cons_of_mem _ ho')) hwritten h

omit [TextTables] in
/-- A snapshot folds the observations of a key into the row of this key. -/
theorem upsertEach_lookup {timestamp : ℤ} :
    ∀ {observations : List WatchlistObservation} {q q' : Queue}, q.Keyed →
      upsertEach timestamp q observations = .ok q' →
      q'.settings = q.settings ∧ q'.Keyed ∧ ∀ k, q'.rows.lookup k =
        (observations.filter fun o => observedKey o = k).foldl (observeRow timestamp)
          (q.rows.lookup k)
  | [], q, q', hkeyed, h => by
    obtain rfl := Except.ok.inj h
    exact ⟨rfl, hkeyed, fun _ => rfl⟩
  | o :: rest, q, q', hkeyed, h => by
    rw [upsertEach] at h
    cases ho : upsertObservation q timestamp o with
    | error e => simp [ho] at h
    | ok written =>
      simp only [ho] at h
      obtain ⟨hsettings, hkeyed', hlookup⟩ := upsertObservation_lookup hkeyed ho
      obtain ⟨hsettings', hkeyed'', hlookup'⟩ := upsertEach_lookup hkeyed' h
      refine ⟨hsettings'.trans hsettings, hkeyed'', fun k => ?_⟩
      rw [hlookup', hlookup]
      by_cases hk : k = observedKey o
      · rw [if_pos hk, List.filter_cons_of_pos (by simpa using hk.symm), List.foldl_cons]
      · rw [if_neg hk, List.filter_cons_of_neg (by simpa using fun h => hk h.symm)]

/-- `row'` is `row` after observations: the columns that `ON CONFLICT` sets may differ. -/
def Reobserved (row row' : WatchlistRow) : Prop :=
  ∃ mediaType title releaseYear lastObservedUnixMs updatedUnixMs, row' = { row with
    mediaType := mediaType
    title := title
    releaseYear := releaseYear
    lastObservedUnixMs := lastObservedUnixMs
    updatedUnixMs := updatedUnixMs }

omit [TextTables] in
theorem Reobserved.refl (row : WatchlistRow) : Reobserved row row :=
  ⟨row.mediaType, row.title, row.releaseYear, row.lastObservedUnixMs, row.updatedUnixMs, rfl⟩

omit [TextTables] in
theorem Reobserved.observed {row row' : WatchlistRow} (h : Reobserved row row')
    (o : WatchlistObservation) (timestamp : ℤ) : Reobserved row (observedRow row' o timestamp) := by
  obtain ⟨mediaType, title, releaseYear, lastObserved, updated, rfl⟩ := h
  exact ⟨o.item.mediaType, o.item.title, o.item.year, timestamp, timestamp, rfl⟩

omit [TextTables] in
/-- Further observations of a row change what `ON CONFLICT` sets, the media type to the last one. -/
theorem foldl_observeRow (timestamp : ℤ) (row : WatchlistRow) (l : List WatchlistObservation) :
    ∃ row', l.foldl (observeRow timestamp) (some row) = some row' ∧ Reobserved row row' ∧
      row'.mediaType = ((l.getLast?.map fun o => o.item.mediaType).getD row.mediaType) := by
  induction l using List.reverseRecOn with
  | nil => exact ⟨row, rfl, .refl row, rfl⟩
  | append_singleton l o ih =>
    obtain ⟨row', hfold, hsame, -⟩ := ih
    refine ⟨observedRow row' o timestamp, ?_, hsame.observed o timestamp, ?_⟩
    · rw [List.foldl_append, hfold]
      rfl
    · simp [observedRow]

/-- `UpsertObservations` fails, or stores the validated observations. -/
theorem upsertObservations_cases {q q' : Queue} {observations : List WatchlistObservation}
    {observedAt : Time} {r : Except QueueError Unit}
    (h : upsertObservations q observations observedAt = (q', r)) :
    (q' = q ∧ ∃ e, r = .error e) ∨ (r = .ok () ∧ ∃ validated,
      observations.mapM validateObservation = .ok validated ∧
      upsertEach (unixMilli observedAt) q validated = .ok q') := by
  rw [upsertObservations] at h
  split_ifs at h with hzero
  · exact Or.inl ⟨(Prod.mk.inj h).1.symm, _, (Prod.mk.inj h).2.symm⟩
  cases hvalid : observations.mapM validateObservation with
  | error message =>
    rw [hvalid] at h
    exact Or.inl ⟨(Prod.mk.inj h).1.symm, _, (Prod.mk.inj h).2.symm⟩
  | ok validated =>
    simp only [hvalid] at h
    cases heach : upsertEach (unixMilli observedAt) q validated with
    | error e =>
      rw [heach] at h
      exact Or.inl ⟨(Prod.mk.inj h).1.symm, _, (Prod.mk.inj h).2.symm⟩
    | ok written =>
      simp only [heach, Prod.mk.injEq] at h
      obtain ⟨rfl, rfl⟩ := h
      exact Or.inr ⟨rfl, validated, rfl, heach⟩

end Operations

end BlackPearl.Watchlist
