import BlackPearl.Watchlist.Runs

/-!
# The frontier of a show and the leases of its row

What one step can make of one row (`RowStep`), and from it what whole runs can make of it: its
episode frontier only moves forward, and only by `AdvanceEpisode`; a lease version admits one
transition, before its expiry; an ended row is left only by `AdvanceEpisode`; and one `process` of
the playback worker advances a show again only after `Complete` has ended the row again.
-/

set_option autoImplicit false

namespace BlackPearl.Watchlist

open BlackPearl.Library BlackPearl.Domain BlackPearl.Acquisition

/-- A clock after the Unix epoch. -/
theorem unixMilli_nonneg {now : Time} (h : 0 < now) : 0 ≤ unixMilli now :=
  Int.ediv_nonneg (le_of_lt h) (by decide)

section Rows

variable [TextTables] {watchlistPollInterval : ℤ} {s t u : ServiceState} {a : ServiceLabel}

/-- The step is a successful `AdvanceEpisode` call for the row under `k`. -/
def Advances (watchlistPollInterval : ℤ) (s : ServiceState) (a : ServiceLabel) (k : RowKey) : Prop :=
  ∃ arguments ∈ advanceCall watchlistPollInterval s a,
    (advance s.queue arguments).2 = .ok true ∧ advanceKey arguments = k

/-- The step is a call that gives back the lease with the version of `claim`. -/
def Commits (s : ServiceState) (a : ServiceLabel) (claim : WatchlistClaim) (now : Time) : Prop :=
  ∃ call, a = .release claim call now ∧ (release s.queue claim call now).2 = .ok ()

/-- What a step makes of the row `row` under `k`. -/
inductive RowStep (watchlistPollInterval : ℤ) (s : ServiceState) (a : ServiceLabel) (k : RowKey)
    (row row' : WatchlistRow) : Prop
  | kept (hno : ¬ Advances watchlistPollInterval s a k) (h : Reobserved row row')
  | leased {now : Time} {leaseDuration : ℤ} (hcall : a = .claim now leaseDuration)
      (heligible : eligible s.queue.settings (unixMilli now) row = true)
      (h : row' = leasedRow row now leaseDuration)
  | released {claim : WatchlistClaim} {now : Time} {call : LeaseCall}
      (hcall : a = .release claim call now) (hcommits : Commits s a claim now)
      (hkey : releaseKey claim = k) (hleased : leased claim.leaseVersion now row = true)
      (hback : GivesBack row row')
      (hstate : row'.state = .acquiring ∨
        ∃ completion, call = .complete completion ∧ row'.state = completion.state)
  | advanced {arguments : AdvanceArguments}
      (hcall : advanceCall watchlistPollInterval s a = some arguments)
      (hadvances : Advances watchlistPollInterval s a k) (hadvanced : Advanced arguments row row')

omit [TextTables] in
theorem advanceCall_eq_none (h : ∀ arguments, a ≠ .advance arguments)
    (hprocess : a ≠ .processAdvance none) : advanceCall watchlistPollInterval s a = none := by
  cases a with
  | advance arguments => exact absurd rfl (h arguments)
  | processAdvance failure =>
    cases failure with
    | none => exact absurd rfl hprocess
    | some cause => rfl
  | _ => rfl

theorem not_advances_of_call {k : RowKey} (h : advanceCall watchlistPollInterval s a = none) :
    ¬ Advances watchlistPollInterval s a k := by
  rintro ⟨arguments, harguments, -⟩
  rw [h] at harguments
  cases harguments

omit [TextTables] in
theorem advanceCall_of_stored {call : List WatchlistObservation × Time}
    (h : storedObservations s a = some call) : advanceCall watchlistPollInterval s a = none := by
  apply advanceCall_eq_none
  · rintro arguments rfl
    cases h
  · rintro rfl
    cases h

/-- A step never removes a row. -/
theorem QueueMove.rowStep {q' : Queue} (hok : QueueOk s.queue)
    (hmove : QueueMove watchlistPollInterval s a q') {k : RowKey} {row : WatchlistRow}
    (hrow : s.queue.rows.lookup k = some row) :
    ∃ row', q'.rows.lookup k = some row' ∧ RowStep watchlistPollInterval s a k row row' := by
  cases hmove with
  | same h hadvance =>
    refine ⟨row, by rw [h, hrow], .kept ?_ (.refl row)⟩
    rintro ⟨arguments, harguments, hsuccess, -⟩
    exact hadvance arguments harguments hsuccess
  | settings policy hcall hrows =>
    refine ⟨row, by rw [hrows, hrow], .kept ?_ (.refl row)⟩
    exact not_advances_of_call (by rw [hcall]; rfl)
  | @observed observations validated observedAt hcall hvalid heach =>
    obtain ⟨-, -, hlookup⟩ := upsertEach_lookup hok.keyed heach
    obtain ⟨row', hfold, hsame, -⟩ := foldl_observeRow (unixMilli observedAt) row
      (validated.filter fun o => observedKey o = k)
    refine ⟨row', ?_, .kept (not_advances_of_call (advanceCall_of_stored hcall)) hsame⟩
    rw [hlookup, hrow, hfold]
  | @leased now leaseDuration row₀ hcall heligible hchanged =>
    by_cases hk : k = row₀.key
    · subst hk
      obtain rfl := Option.some.inj (hchanged.before.symm.trans hrow)
      exact ⟨_, hchanged.after, .leased hcall heligible rfl⟩
    · refine ⟨row, (hchanged.frame hk).trans hrow, .kept ?_ (.refl row)⟩
      exact not_advances_of_call (by rw [hcall]; rfl)
  | @released claim call now row₀ row' hcall hsuccess hleased hchanged hback hstate =>
    by_cases hk : k = releaseKey claim
    · subst hk
      obtain rfl := Option.some.inj (hchanged.before.symm.trans hrow)
      exact ⟨row', hchanged.after, .released hcall ⟨call, hcall, hsuccess⟩ rfl hleased hback hstate⟩
    · refine ⟨row, (hchanged.frame hk).trans hrow, .kept ?_ (.refl row)⟩
      exact not_advances_of_call (by rw [hcall]; rfl)
  | @advanced arguments row₀ row' hcall hsuccess hchanged hadvanced =>
    by_cases hk : k = advanceKey arguments
    · subst hk
      obtain rfl := Option.some.inj (hchanged.before.symm.trans hrow)
      exact ⟨row', hchanged.after, .advanced hcall ⟨arguments, hcall, hsuccess, rfl⟩ hadvanced⟩
    · refine ⟨row, (hchanged.frame hk).trans hrow, .kept ?_ (.refl row)⟩
      rintro ⟨arguments', harguments', -, hkey⟩
      obtain rfl := Option.some.inj (hcall.symm.trans harguments')
      exact hk hkey.symm

/-- The row of a reachable state after a step. -/
theorem reachable_rowStep {P : ServiceState → ServiceLabel → Prop}
    (hs : (watchlistService watchlistPollInterval).ReachableBy P s)
    (hstep : (watchlistService watchlistPollInterval).step s a = some t) {k : RowKey}
    {row : WatchlistRow} (hrow : s.queue.rows.lookup k = some row) :
    ∃ row', t.queue.rows.lookup k = some row' ∧ RowStep watchlistPollInterval s a k row row' :=
  (reachable_move hs hstep).rowStep (queueOk_of_reachable hs) hrow

/-- A property of one row that every step from a reachable state preserves, a run preserves. -/
theorem row_of_reaches {P : ServiceState → ServiceLabel → Prop} {I : WatchlistRow → Prop}
    {k : RowKey} (hs : (watchlistService watchlistPollInterval).ReachableBy P s)
    (hrun : (watchlistService watchlistPollInterval).ReachesBy P s t)
    (hstep : ∀ u a row row', P u a → RowStep watchlistPollInterval u a k row row' → I row → I row')
    (hrow : ∃ row, s.queue.rows.lookup k = some row ∧ I row) :
    ∃ row, t.queue.rows.lookup k = some row ∧ I row := by
  induction hrun with
  | refl => exact hrow
  | @tail u v a hrun hp h ih =>
    obtain ⟨row, hu, hI⟩ := ih
    obtain ⟨row', hv, hmove⟩ := reachable_rowStep (hs.reaches hrun) h hu
    exact ⟨row', hv, hstep u a row row' hp hmove hI⟩

/-! ## The frontier -/

/-- A successful `AdvanceEpisode` moves the frontier forward, and nothing else moves it. -/
theorem RowStep.frontier {k : RowKey} {row row' : WatchlistRow}
    (h : RowStep watchlistPollInterval s a k row row') :
    (Advances watchlistPollInterval s a k ∧ row'.frontier.After row.frontier) ∨
      (¬ Advances watchlistPollInterval s a k ∧ row'.frontier = row.frontier) := by
  cases h with
  | kept hno h =>
    obtain ⟨mediaType, title, releaseYear, lastObserved, updated, rfl⟩ := h
    exact Or.inr ⟨hno, rfl⟩
  | leased hcall heligible h =>
    refine Or.inr ⟨not_advances_of_call (by rw [hcall]; rfl), ?_⟩
    rw [h]
    rfl
  | released hcall hcommits hkey hleased hback hstate =>
    exact Or.inr ⟨not_advances_of_call (by rw [hcall]; rfl), hback.frontier⟩
  | advanced hcall hadvances hadvanced =>
    refine Or.inl ⟨hadvances, ?_⟩
    rw [hadvanced.row, hadvanced.current]
    exact hadvanced.after

/-- What the frontier has passed, it stays behind. -/
theorem RowStep.passed {k : RowKey} {row row' : WatchlistRow} {c : EpisodeCoordinate}
    (h : RowStep watchlistPollInterval s a k row row') (hc : row.frontier.After c) :
    row'.frontier.After c := by
  rcases h.frontier with ⟨-, hforward⟩ | ⟨-, hsame⟩
  · exact hforward.trans hc
  · rw [hsame]
    exact hc

/-- Nothing changes the eligibility of a row. -/
theorem RowStep.autoEligible {k : RowKey} {row row' : WatchlistRow}
    (h : RowStep watchlistPollInterval s a k row row') : row'.autoEligible = row.autoEligible := by
  cases h with
  | kept hno h =>
    obtain ⟨mediaType, title, releaseYear, lastObserved, updated, rfl⟩ := h
    rfl
  | leased hcall heligible h => rw [h]; rfl
  | released hcall hcommits hkey hleased hback hstate => exact hback.autoEligible
  | advanced hcall hadvances hadvanced => rw [hadvanced.row]; rfl

/-! ## Leases -/

/-- No call can give back a lease of this row with a version of at most `version` any more. -/
def Spent (version : ℤ) (row : WatchlistRow) : Prop :=
  version < row.leaseVersion ∨
    (version = row.leaseVersion ∧ (row.state ≠ .acquiring ∨ row.leaseUntilUnixMs ≤ 0))

omit [TextTables] in
theorem Spent.not_leased {version version' : ℤ} {now : Time} {row : WatchlistRow}
    (h : Spent version row) (hle : version' ≤ version) (hnow : 0 < now) :
    leased version' now row = false := by
  rw [Bool.eq_false_iff]
  intro hleased
  simp only [leased, Bool.and_eq_true, decide_eq_true_eq] at hleased
  obtain ⟨⟨hstate, hversion⟩, huntil⟩ := hleased
  have hmillis := unixMilli_nonneg hnow
  rcases h with hlt | ⟨-, hne | hzero⟩
  · omega
  · exact hne hstate
  · omega

/-- Nothing restores a lease that is spent. -/
theorem RowStep.spent {k : RowKey} {row row' : WatchlistRow} {version : ℤ}
    (h : RowStep watchlistPollInterval s a k row row') (hspent : Spent version row) :
    Spent version row' := by
  cases h with
  | kept hno h =>
    obtain ⟨mediaType, title, releaseYear, lastObserved, updated, rfl⟩ := h
    exact hspent
  | leased hcall heligible h =>
    left
    have hle : version ≤ row.leaseVersion := by
      rcases hspent with hlt | ⟨heq, -⟩ <;> omega
    rw [h]
    show version < row.leaseVersion + 1
    omega
  | released hcall hcommits hkey hleased hback hstate =>
    rw [Spent, hback.leaseVersion, hback.leaseUntil]
    rcases hspent with hlt | ⟨heq, -⟩
    · exact Or.inl hlt
    · exact Or.inr ⟨heq, Or.inr (le_refl 0)⟩
  | advanced hcall hadvances hadvanced =>
    rw [hadvanced.row]
    rcases hspent with hlt | ⟨heq, -⟩
    · exact Or.inl hlt
    · exact Or.inr ⟨heq, Or.inr (le_refl 0)⟩

/-- The lease with the version `version` of this row expires at `expiry`, if it is still held. -/
def ExpiresAt (version expiry : ℤ) (row : WatchlistRow) : Prop :=
  Spent version row ∨ (row.leaseVersion = version ∧ row.leaseUntilUnixMs = expiry)

theorem RowStep.expiresAt {k : RowKey} {row row' : WatchlistRow} {version expiry : ℤ}
    (h : RowStep watchlistPollInterval s a k row row') (hexpires : ExpiresAt version expiry row) :
    ExpiresAt version expiry row' := by
  rcases hexpires with hspent | ⟨hversion, hexpiry⟩
  · exact Or.inl (h.spent hspent)
  cases h with
  | kept hno h =>
    obtain ⟨mediaType, title, releaseYear, lastObserved, updated, rfl⟩ := h
    exact Or.inr ⟨hversion, hexpiry⟩
  | leased hcall heligible h =>
    -- another lease has a greater version
    left; left
    rw [h]
    show version < row.leaseVersion + 1
    omega
  | released hcall hcommits hkey hleased hback hstate =>
    left; right
    rw [hback.leaseVersion, hback.leaseUntil]
    exact ⟨hversion.symm, Or.inr (le_refl 0)⟩
  | advanced hcall hadvances hadvanced =>
    left; right
    rw [hadvanced.row]
    exact ⟨hversion.symm, Or.inr (le_refl 0)⟩

/-- A call that gives back a lease names the version and the lease that the row has. -/
theorem commits_leased (hok : QueueOk s.queue) {claim : WatchlistClaim} {now : Time}
    (h : Commits s a claim now) : ∃ row, s.queue.rows.lookup (releaseKey claim) = some row ∧
      leased claim.leaseVersion now row = true := by
  obtain ⟨call, -, hsuccess⟩ := h
  rcases release_cases (r := (release s.queue claim call now).2) hok.keyed rfl with
    ⟨-, e, he⟩ | ⟨-, row, row', hleased, hchanged, -⟩
  · rw [hsuccess] at he
    cases he
  · exact ⟨row, hchanged.before, hleased⟩

/-- The step ends every lease of the row under `k` up to the version `version`: it gives the lease
back, leases the row again, or advances it. -/
inductive EndsLease (watchlistPollInterval : ℤ) (s : ServiceState) (a : ServiceLabel) (k : RowKey) :
    ℤ → Prop
  | release {claim : WatchlistClaim} {now : Time} (hcommits : Commits s a claim now)
      (hkey : releaseKey claim = k) : EndsLease watchlistPollInterval s a k claim.leaseVersion
  | reclaim {now : Time} {leaseDuration : ℤ} {row : WatchlistRow}
      (hcall : a = .claim now leaseDuration) (hrow : s.queue.rows.lookup k = some row)
      (hleased : (claim s.queue now leaseDuration).1.rows.lookup k =
        some (leasedRow row now leaseDuration)) :
      EndsLease watchlistPollInterval s a k row.leaseVersion
  | advance {row : WatchlistRow} (hadvances : Advances watchlistPollInterval s a k)
      (hrow : s.queue.rows.lookup k = some row) :
      EndsLease watchlistPollInterval s a k row.leaseVersion

/-- After such a step the lease is spent. -/
theorem spent_of_endsLease {P : ServiceState → ServiceLabel → Prop}
    (hs : (watchlistService watchlistPollInterval).ReachableBy P s)
    (hstep : (watchlistService watchlistPollInterval).step s a = some t) {k : RowKey} {version : ℤ}
    (h : EndsLease watchlistPollInterval s a k version) :
    ∃ row, t.queue.rows.lookup k = some row ∧ Spent version row := by
  have hok := queueOk_of_reachable hs
  cases h with
  | @release claim now hcommits hkey =>
    obtain ⟨call, rfl, hsuccess⟩ := hcommits
    obtain rfl : { s with queue := (Watchlist.release s.queue claim call now).1 } = t :=
      Option.some.inj hstep
    rcases release_cases (r := (Watchlist.release s.queue claim call now).2) hok.keyed rfl with
      ⟨-, e, he⟩ | ⟨-, row, row', hleased, hchanged, hback, -⟩
    · rw [hsuccess] at he
      cases he
    · simp only [leased, Bool.and_eq_true, decide_eq_true_eq] at hleased
      refine ⟨row', hkey ▸ hchanged.after, Or.inr ⟨?_, Or.inr (le_of_eq hback.leaseUntil)⟩⟩
      rw [hback.leaseVersion, hleased.1.2]
  | @reclaim now leaseDuration row hcall hrow hleased =>
    subst hcall
    obtain rfl : { s with queue := (claim s.queue now leaseDuration).1 } = t :=
      Option.some.inj hstep
    exact ⟨_, hleased, Or.inl (lt_add_one row.leaseVersion)⟩
  | @advance row hadvances hrow =>
    obtain ⟨row', hrow', hmove⟩ := reachable_rowStep hs hstep hrow
    refine ⟨row', hrow', ?_⟩
    cases hmove with
    | kept hno h => exact absurd hadvances hno
    | leased hcall heligible h =>
      exact absurd hadvances (not_advances_of_call (by rw [hcall]; rfl))
    | released hcall hcommits hkey hleased hback hstate =>
      exact absurd hadvances (not_advances_of_call (by rw [hcall]; rfl))
    | advanced _ _ hadvanced =>
      rw [hadvanced.row]
      exact Or.inr ⟨rfl, Or.inr (le_refl 0)⟩

/-- Once a lease has ended, no later call gives it back. -/
theorem not_commits_of_spent {P : ServiceState → ServiceLabel → Prop} {k : RowKey} {version : ℤ}
    (hs : (watchlistService watchlistPollInterval).ReachableBy P s)
    (hrun : (watchlistService watchlistPollInterval).ReachesBy P s u)
    (hspent : ∃ row, s.queue.rows.lookup k = some row ∧ Spent version row) {claim : WatchlistClaim}
    {now : Time} (hkey : releaseKey claim = k) (hversion : claim.leaseVersion ≤ version)
    (hnow : 0 < now) : ¬ Commits u a claim now := by
  intro hcommits
  obtain ⟨row, hrow, hspent'⟩ := row_of_reaches (I := Spent version) hs hrun
    (fun _ _ _ _ _ hmove h => hmove.spent h) hspent
  obtain ⟨row', hrow', hleased⟩ := commits_leased (queueOk_of_reachable (hs.reaches hrun)) hcommits
  rw [hkey, hrow] at hrow'
  obtain rfl := Option.some.inj hrow'
  rw [hspent'.not_leased hversion hnow] at hleased
  cases hleased

/-! ## Ended rows -/

/-- Only `AdvanceEpisode` moves a row out of `succeeded` or `manual_review`. -/
theorem RowStep.ended {k : RowKey} {row row' : WatchlistRow}
    (h : RowStep watchlistPollInterval s a k row row')
    (hended : row.state = .succeeded ∨ row.state = .manualReview) :
    row'.state = row.state ∨ Advances watchlistPollInterval s a k := by
  cases h with
  | kept hno h =>
    obtain ⟨mediaType, title, releaseYear, lastObserved, updated, rfl⟩ := h
    exact Or.inl rfl
  | leased hcall heligible h =>
    simp only [eligible, due, Bool.and_eq_true, Bool.or_eq_true, decide_eq_true_eq] at heligible
    obtain ⟨-, ⟨hstate, -⟩ | ⟨⟨hstate, -⟩, -⟩⟩ := heligible
    · rcases hended with h | h <;> simp [h] at hstate
    · rcases hended with h | h <;> simp [h] at hstate
  | released hcall hcommits hkey hleased hback hstate =>
    simp only [Watchlist.leased, Bool.and_eq_true, decide_eq_true_eq] at hleased
    rcases hended with h | h <;> simp [h] at hleased
  | advanced hcall hadvances hadvanced => exact Or.inr hadvances

end Rows

end BlackPearl.Watchlist
