import BlackPearl.Watchlist.Frontier

/-!
# Watchlist frontier and lease safety

The two statements about episode advancement agree, and what one `process` of the playback worker
does to a show. `frontier_safety` puts them next to the run lemmas of `Watchlist.Frontier`.
-/

set_option autoImplicit false

namespace BlackPearl.Watchlist

open BlackPearl.Library BlackPearl.Domain BlackPearl.Acquisition

section Safety

variable [TextTables] {watchlistPollInterval : ℤ} {s t u : ServiceState} {a : ServiceLabel}

/-! ## The two statements -/

omit [TextTables] in
/-- The conditions of `AdvanceEpisode` are those of `CanAdvanceEpisode`. -/
theorem advanceable_eq (settings : WatchlistPolicy) (identity : EpisodeFrontierIdentity)
    (row : WatchlistRow) : advanceable settings identity row = frontierReady settings identity row :=
  rfl

/-- The row of an advanced show meets the constraints of the table. -/
theorem checks_assignAdvance {k : RowKey} {row : WatchlistRow} {next : EpisodeCoordinate} {now : Time}
    (hrow : RowOk k row) (hseason : 1 ≤ next.season ∧ next.season ≤ 99)
    (hepisode : 1 ≤ next.episode ∧ next.episode ≤ 999) : (assignAdvance next now row).Checks where
  mediaType := hrow.checks.mediaType
  state := by simp [assignAdvance]
  attemptCount := le_refl 0
  leaseVersion := hrow.checks.leaseVersion
  backgroundJobID := Or.inl rfl
  intentSeason := ⟨by show 0 ≤ next.season; omega, hseason.2⟩
  intentEpisode := ⟨by show 0 ≤ next.episode; omega, hepisode.2⟩

/-- With arguments that `AdvanceEpisode` accepts, it says what `CanAdvanceEpisode` would say. -/
theorem advance_agrees {q : Queue} (hok : QueueOk q) {arguments : AdvanceArguments}
    {checked : EpisodeFrontierIdentity × EpisodeCoordinate}
    (h : validateAdvance arguments.source arguments.externalID arguments.objectID arguments.current
      arguments.next arguments.observedAfter arguments.now = .ok checked) :
    ∃ b, (advance q arguments).2 = .ok b ∧ canAdvance q arguments = .ok b := by
  obtain ⟨identity, next⟩ := checked
  obtain ⟨hidentity, rfl, -, -, -, hseason, hepisode⟩ := validateAdvance_eq_ok h
  rw [canAdvance, canAdvanceEpisode, within_eq_ok.2 hidentity, advance, advanceEpisode, h]
  simp only [Queue.updateRow]
  cases hrow : q.rows.lookup (identity.source, identity.externalID) with
  | none => exact ⟨false, rfl, rfl⟩
  | some row =>
    simp only [advanceable_eq]
    by_cases hready : frontierReady q.settings identity row = false
    · simp only [hready, if_true]
      exact ⟨false, rfl, rfl⟩
    · have hchecks : (assignAdvance arguments.next arguments.now row).Checks :=
        checks_assignAdvance (hok _ row hrow) hseason hepisode
      have hwrite := (writeRow_eq_ok (q := q)).2 ⟨hchecks, rfl⟩
      simp only [Bool.not_eq_false] at hready
      simp only [hready, Bool.true_eq_false, if_false, hwrite]
      exact ⟨true, rfl, rfl⟩

/-! ## One process of the playback worker -/

/-- The shows that the current `process` has advanced, the last one first, each with the episode
from which it was advanced. -/
def advancedOf : ProcessPhase → List (String × EpisodeCoordinate)
  | .idle => []
  | .finding run _ => run.advanced
  | .checking run _ _ => run.advanced
  | .resolving run _ _ => run.advanced
  | .advancing run _ _ _ => run.advanced
  | .finished run _ => run.advanced

/-- The key of the row of a show. -/
def showKey (externalShowID : String) : RowKey := (watchlistSource, trimSpace externalShowID)

omit [TextTables] in
@[simp] theorem advancedOf_nextPlayback (now : Time) (advanced : List (String × EpisodeCoordinate))
    (playbacks : List EpisodePlayback) :
    advancedOf (nextPlayback now advanced playbacks) = advanced := by
  induction playbacks with
  | nil => rfl
  | cons playback rest ih =>
    rw [nextPlayback]
    split
    · rfl
    · exact ih

omit [TextTables] in
@[simp] theorem advancedOf_continue (run : ProcessRun) : advancedOf run.continue = run.advanced :=
  advancedOf_nextPlayback run.now run.advanced run.playbacks

/-- A step of `process` that advances a show. -/
structure ProcessAdvances (watchlistPollInterval : ℤ) (s t : ServiceState) (a : ServiceLabel)
    (arguments : AdvanceArguments) : Prop where
  call : advanceCall watchlistPollInterval s a = some arguments
  success : (advance s.queue arguments).2 = .ok true
  source : arguments.source = watchlistSource
  advanced : advancedOf t.process =
    (arguments.externalID, arguments.current) :: advancedOf s.process

theorem processAdvance_advanced {failure : Option Cause}
    (h : processAdvance watchlistPollInterval s failure = some t) :
    advancedOf t.process = advancedOf s.process ∨
      ∃ arguments, ProcessAdvances watchlistPollInterval s t (.processAdvance failure) arguments := by
  cases hprocess : s.process with
  | idle => simp [processAdvance, hprocess] at h
  | finding run playback => simp [processAdvance, hprocess] at h
  | checking run playback backing => simp [processAdvance, hprocess] at h
  | resolving run playback backing => simp [processAdvance, hprocess] at h
  | finished run failure => simp [processAdvance, hprocess] at h
  | advancing run playback backing next =>
    cases failure with
    | some cause =>
      simp only [processAdvance, hprocess, Option.some.injEq] at h
      rw [← h]
      exact Or.inl rfl
    | none =>
      simp only [processAdvance, hprocess] at h
      cases hadvance : advance s.queue
          (advanceArguments watchlistPollInterval run playback backing next) with
      | mk written r =>
        rw [hadvance] at h
        cases r with
        | error e =>
          rw [← Option.some.inj h]
          exact Or.inl rfl
        | ok b =>
          cases b with
          | false =>
            rw [← Option.some.inj h]
            exact Or.inl (advancedOf_continue run)
          | true =>
            refine Or.inr ⟨advanceArguments watchlistPollInterval run playback backing next, ?_⟩
            refine ⟨by simp [advanceCall, hprocess], by rw [hadvance], rfl, ?_⟩
            rw [← Option.some.inj h, hprocess]
            exact advancedOf_continue _

/-- A step leaves the list of advanced shows alone, empties it, or adds to it the show that
`process` advances. -/
theorem step_advanced (hstep : (watchlistService watchlistPollInterval).step s a = some t) :
    (advancedOf t.process = advancedOf s.process ∨ advancedOf t.process = []) ∨
      ∃ arguments, ProcessAdvances watchlistPollInterval s t a arguments := by
  have h : serviceStep watchlistPollInterval s a = some t := hstep
  cases a with
  | upsert observations observedAt =>
    rw [← Option.some.inj h]
    exact Or.inl (Or.inl rfl)
  | setPolicy policy =>
    rw [← Option.some.inj h]
    exact Or.inl (Or.inl rfl)
  | claim now leaseDuration =>
    rw [← Option.some.inj h]
    exact Or.inl (Or.inl rfl)
  | release claim call now =>
    rw [← Option.some.inj h]
    exact Or.inl (Or.inl rfl)
  | advance arguments =>
    rw [← Option.some.inj h]
    exact Or.inl (Or.inl rfl)
  | syncSnapshot answer observedAt => exact Or.inl (Or.inl (by rw [syncSnapshot_frame h]))
  | syncPolicy failure => exact Or.inl (Or.inl (by rw [syncPolicy_frame h]))
  | syncWrite outcome => exact Or.inl (Or.inl (by rw [syncWrite_frame h]))
  | processSnapshot now answer =>
    refine Or.inl (Or.inr ?_)
    simp only [serviceStep, processSnapshot] at h
    split at h
    · split at h
      · rw [← Option.some.inj h]; rfl
      · split at h
        · rw [← Option.some.inj h]; rfl
        · rw [← Option.some.inj h]; exact advancedOf_nextPlayback now [] _
    · split at h
      · rw [← Option.some.inj h]; rfl
      · split at h
        · rw [← Option.some.inj h]; rfl
        · rw [← Option.some.inj h]; exact advancedOf_nextPlayback now [] _
    · cases h
  | processFind answer =>
    refine Or.inl (Or.inl ?_)
    simp only [serviceStep, processFind] at h
    split at h
    · next run playback hprocess =>
      rw [hprocess]
      split at h
      · rw [← Option.some.inj h]; rfl
      · rw [← Option.some.inj h]; exact advancedOf_continue run
      · split at h
        · rw [← Option.some.inj h]; rfl
        · rw [← Option.some.inj h]; exact advancedOf_continue run
    · cases h
  | processCheck failure =>
    refine Or.inl (Or.inl ?_)
    simp only [serviceStep, processCheck] at h
    split at h
    · next run playback backing hprocess =>
      rw [hprocess]
      split at h
      · rw [← Option.some.inj h]; rfl
      · split at h
        · rw [← Option.some.inj h]; rfl
        · rw [← Option.some.inj h]; exact advancedOf_continue run
        · rw [← Option.some.inj h]; rfl
    · cases h
  | processResolve answer =>
    refine Or.inl (Or.inl ?_)
    simp only [serviceStep, processResolve] at h
    split at h
    · next run playback backing hprocess =>
      rw [hprocess]
      split at h
      · rw [← Option.some.inj h]; rfl
      · rw [← Option.some.inj h]; exact advancedOf_continue run
      · rw [← Option.some.inj h]; rfl
    · cases h
  | processAdvance failure =>
    rcases processAdvance_advanced h with hsame | hadvances
    · exact Or.inl (Or.inl hsame)
    · exact Or.inr hadvances
  | restart =>
    rw [← Option.some.inj h]
    exact Or.inl (Or.inr rfl)

/-- The shows that were advanced are behind the frontiers of their rows, each entry for a show
behind the later ones. -/
structure Behind (s : ServiceState) : Prop where
  passed : ∀ e ∈ advancedOf s.process, ∃ row, s.queue.rows.lookup (showKey e.1) = some row ∧
    row.frontier.After e.2
  ordered : (advancedOf s.process).Pairwise fun e e' => showKey e.1 = showKey e'.1 → e.2.After e'.2

/-- The row that `process` advances, before and after. -/
theorem ProcessAdvances.row {P : ServiceState → ServiceLabel → Prop} {arguments : AdvanceArguments}
    (h : ProcessAdvances watchlistPollInterval s t a arguments)
    (hs : (watchlistService watchlistPollInterval).ReachableBy P s)
    (hstep : (watchlistService watchlistPollInterval).step s a = some t) :
    ∃ row row', s.queue.rows.lookup (showKey arguments.externalID) = some row ∧
      t.queue.rows.lookup (showKey arguments.externalID) = some row' ∧
      Advanced arguments row row' := by
  have hkey : advanceKey arguments = showKey arguments.externalID := by
    rw [advanceKey, h.source, showKey]
  have hadvances : Advances watchlistPollInterval s a (showKey arguments.externalID) :=
    ⟨arguments, h.call, h.success, hkey⟩
  rcases advance_cases (r := (advance s.queue arguments).2) (queueOk_of_reachable hs).keyed rfl with
    ⟨-, hne⟩ | ⟨-, row, _, hchanged, -⟩
  · exact absurd h.success hne
  have hrow := hchanged.before
  rw [hkey] at hrow
  obtain ⟨row', hrow', hmove⟩ := reachable_rowStep hs hstep hrow
  refine ⟨row, row', hrow, hrow', ?_⟩
  cases hmove with
  | kept hno h => exact absurd hadvances hno
  | leased hcall heligible h => exact absurd hadvances (not_advances_of_call (by rw [hcall]; rfl))
  | released hcall hcommits hkey hleased hback hstate =>
    exact absurd hadvances (not_advances_of_call (by rw [hcall]; rfl))
  | advanced hcall _ hadvanced =>
    obtain rfl := Option.some.inj (hcall.symm.trans h.call)
    exact hadvanced

/-- In every reachable state the shows that were advanced are behind. -/
theorem behind_of_reachable {P : ServiceState → ServiceLabel → Prop}
    (hs : (watchlistService watchlistPollInterval).ReachableBy P s) : Behind s := by
  induction hs with
  | init hinit =>
    obtain ⟨enabled, rfl⟩ := hinit
    constructor
    · intro e he
      cases he
    · exact .nil
  | @step s t a hs hp hstep ih =>
    -- what an entry is behind of moves forward
    have hpassed : ∀ e ∈ advancedOf s.process, ∃ row, t.queue.rows.lookup (showKey e.1) = some row ∧
        row.frontier.After e.2 := by
      intro e he
      obtain ⟨row, hrow, hafter⟩ := ih.passed e he
      obtain ⟨row', hrow', hmove⟩ := reachable_rowStep hs hstep hrow
      exact ⟨row', hrow', hmove.passed hafter⟩
    rcases step_advanced hstep with (hsame | hnil) | ⟨arguments, h⟩
    · exact ⟨by rwa [hsame], by rw [hsame]; exact ih.ordered⟩
    · constructor
      · rw [hnil]
        intro e he
        cases he
      · rw [hnil]
        exact .nil
    · obtain ⟨row, row', hrow, hrow', hadvanced⟩ := h.row hs hstep
      constructor
      · rw [h.advanced]
        intro e he
        rcases List.mem_cons.1 he with rfl | he
        · refine ⟨row', hrow', ?_⟩
          rw [hadvanced.row]
          exact hadvanced.after
        · exact hpassed e he
      · rw [h.advanced]
        refine List.pairwise_cons.2 ⟨fun e he hkey => ?_, ih.ordered⟩
        obtain ⟨row₀, hrow₀, hafter⟩ := ih.passed e he
        rw [← hkey, hrow] at hrow₀
        obtain rfl := Option.some.inj hrow₀
        rw [← hadvanced.current]
        exact hafter

/-- The step does not end the row under `k` as `succeeded`. -/
def NoCompletion (k : RowKey) (s : ServiceState) (a : ServiceLabel) : Prop :=
  ∀ claim completion now, a = .release claim (.complete completion) now → releaseKey claim = k →
    completion.state = .succeeded → ¬ Commits s a claim now

/-- How often the current `process` has advanced the show of the row under `k`. -/
def timesAdvanced (s : ServiceState) (k : RowKey) : ℕ :=
  (advancedOf s.process).countP fun e => showKey e.1 = k

/-- Without a completion, a row that has not succeeded does not succeed. -/
theorem RowStep.not_succeeded {k : RowKey} {row row' : WatchlistRow}
    (h : RowStep watchlistPollInterval s a k row row') (hno : NoCompletion k s a)
    (hrow : row.state ≠ .succeeded) : row'.state ≠ .succeeded := by
  cases h with
  | kept hno h =>
    obtain ⟨mediaType, title, releaseYear, lastObserved, updated, rfl⟩ := h
    exact hrow
  | leased hcall heligible h =>
    rw [h]
    exact fun hne => by cases hne
  | @released claim now call hcall hcommits hkey hleased hback hstate =>
    rcases hstate with hstate | ⟨completion, rfl, hstate⟩
    · rw [hstate]
      exact fun hne => by cases hne
    · intro hsucceeded
      exact hno claim completion now hcall hkey (hstate ▸ hsucceeded) hcommits
  | advanced hcall hadvances hadvanced =>
    rw [hadvanced.row]
    exact fun hne => by cases hne

/-- A `process` that has not advanced a show advances it at most once before the row of the show
succeeds again. -/
theorem process_advances_once {k : RowKey}
    (hs : (watchlistService watchlistPollInterval).Reachable s) (hzero : timesAdvanced s k = 0)
    (hrun : (watchlistService watchlistPollInterval).ReachesBy (NoCompletion k) s t) :
    timesAdvanced t k ≤ 1 := by
  have hinv : timesAdvanced t k = 0 ∨ (timesAdvanced t k = 1 ∧
      ∃ row, t.queue.rows.lookup k = some row ∧ row.state ≠ .succeeded) := by
    induction hrun with
    | refl => exact Or.inl hzero
    | @tail u v a hrun hno hstep ih =>
      have hu := hs.reaches (hrun.mono fun _ _ _ => trivial)
      have hkept : ∀ row, u.queue.rows.lookup k = some row → row.state ≠ .succeeded →
          ∃ row', v.queue.rows.lookup k = some row' ∧ row'.state ≠ .succeeded := by
        intro row hrow hstate
        obtain ⟨row', hrow', hmove⟩ := reachable_rowStep hu hstep hrow
        exact ⟨row', hrow', hmove.not_succeeded hno hstate⟩
      have hsame : timesAdvanced v k = timesAdvanced u k → timesAdvanced v k = 0 ∨
          (timesAdvanced v k = 1 ∧ ∃ row, v.queue.rows.lookup k = some row ∧
            row.state ≠ .succeeded) := by
        intro h
        rw [h]
        rcases ih with hnone | ⟨hone, row, hrow, hstate⟩
        · exact Or.inl hnone
        · exact Or.inr ⟨hone, hkept row hrow hstate⟩
      rcases step_advanced hstep with (hadvanced | hnil) | ⟨arguments, h⟩
      · exact hsame (by rw [timesAdvanced, hadvanced, timesAdvanced])
      · left
        rw [timesAdvanced, hnil, List.countP_nil]
      · by_cases hk : showKey arguments.externalID = k
        · obtain ⟨row, row', hrow, hrow', hadvanced⟩ := h.row hu hstep
          rw [hk] at hrow hrow'
          rcases ih with hnone | ⟨-, row₀, hrow₀, hstate⟩
          · refine Or.inr ⟨?_, row', hrow', ?_⟩
            · rw [timesAdvanced, h.advanced, List.countP_cons_of_pos (by simpa using hk)]
              exact congrArg (· + 1) hnone
            · rw [hadvanced.row]
              exact fun hne => by cases hne
          · -- the row would have to have succeeded
            obtain rfl := Option.some.inj (hrow₀.symm.trans hrow)
            exact absurd hadvanced.ready.1 hstate
        · apply hsame
          rw [timesAdvanced, h.advanced, List.countP_cons_of_neg (by simpa using hk), timesAdvanced]
  rcases hinv with h | ⟨h, -⟩ <;> omega

/-! ## The whole claim -/

/-- Watchlist frontier and lease safety at the state `s`, for every later step of every actor. -/
structure FrontierSafe (watchlistPollInterval : ℤ) (s : ServiceState) : Prop where
  /-- A successful `AdvanceEpisode` moves the frontier of its row forward; nothing else moves it. -/
  frontier : ∀ a t k row, (watchlistService watchlistPollInterval).step s a = some t →
    s.queue.rows.lookup k = some row → ∃ row', t.queue.rows.lookup k = some row' ∧
      ((Advances watchlistPollInterval s a k ∧ row'.frontier.After row.frontier) ∨
        (¬ Advances watchlistPollInterval s a k ∧ row'.frontier = row.frontier))
  /-- Of two calls that name the same frontier, the later one does not succeed. -/
  once : ∀ a t arguments u arguments', (watchlistService watchlistPollInterval).step s a = some t →
    advanceCall watchlistPollInterval s a = some arguments →
    (advance s.queue arguments).2 = .ok true →
    (watchlistService watchlistPollInterval).Reaches t u →
    advanceKey arguments' = advanceKey arguments → arguments'.current = arguments.current →
    (advance u.queue arguments').2 ≠ .ok true
  /-- `AdvanceEpisode` with valid arguments says what `CanAdvanceEpisode` would say. -/
  agrees : ∀ arguments : AdvanceArguments, (validateAdvance arguments.source arguments.externalID
      arguments.objectID arguments.current arguments.next arguments.observedAfter
      arguments.now).isOk = true →
    ∃ b, (advance s.queue arguments).2 = .ok b ∧ canAdvance s.queue arguments = .ok b
  /-- After a call has given a lease back, after a new claim of the row and after its advancement,
  no call gives back this lease or an earlier one. -/
  leaseEnds : ∀ a t u k version claim now, (watchlistService watchlistPollInterval).step s a = some t →
    EndsLease watchlistPollInterval s a k version →
    (watchlistService watchlistPollInterval).Reaches t u →
    ∀ b, releaseKey claim = k → claim.leaseVersion ≤ version → 0 < now → ¬ Commits u b claim now
  /-- No call gives back a lease after it has expired. -/
  leaseExpires : ∀ now leaseDuration t u k row claim now',
    (watchlistService watchlistPollInterval).step s (.claim now leaseDuration) = some t →
    s.queue.rows.lookup k = some row →
    t.queue.rows.lookup k = some (leasedRow row now leaseDuration) →
    (watchlistService watchlistPollInterval).Reaches t u →
    ∀ b, releaseKey claim = k → claim.leaseVersion = row.leaseVersion + 1 → 0 < now' →
      Commits u b claim now' → unixMilli now' < unixMilli (now + leaseDuration)
  /-- An ended row changes its state only through `AdvanceEpisode`. -/
  ended : ∀ a t k row, (watchlistService watchlistPollInterval).step s a = some t →
    s.queue.rows.lookup k = some row → row.state = .succeeded ∨ row.state = .manualReview →
    ∃ row', t.queue.rows.lookup k = some row' ∧
      (row'.state = row.state ∨ Advances watchlistPollInterval s a k)
  /-- One `process` never advances a show twice from the same episode. -/
  process : (advancedOf s.process).Pairwise fun e e' =>
    showKey e.1 = showKey e'.1 → e.2.After e'.2
  /-- One `process` advances a show again only after `Complete` has ended its row as succeeded. -/
  processOnce : ∀ k t, timesAdvanced s k = 0 →
    (watchlistService watchlistPollInterval).ReachesBy (NoCompletion k) s t → timesAdvanced t k ≤ 1

/-- Frontier and lease safety in every state that the services reach. -/
theorem frontier_safety {s : ServiceState}
    (hs : (watchlistService watchlistPollInterval).Reachable s) :
    FrontierSafe watchlistPollInterval s where
  frontier a t k row hstep hrow := by
    obtain ⟨row', hrow', hmove⟩ := reachable_rowStep hs hstep hrow
    exact ⟨row', hrow', hmove.frontier⟩
  once a t arguments u arguments' hstep hcall hsuccess hrun hkey hcurrent := by
    have hadvances : Advances watchlistPollInterval s a (advanceKey arguments) :=
      ⟨arguments, hcall, hsuccess, rfl⟩
    rcases advance_cases (r := (advance s.queue arguments).2) (queueOk_of_reachable hs).keyed rfl with
      ⟨-, hne⟩ | ⟨-, row, _, hchanged, hadvanced⟩
    · exact absurd hsuccess hne
    obtain ⟨row', hrow', hmove⟩ := reachable_rowStep hs hstep hchanged.before
    have hafter : row'.frontier.After arguments.current := by
      rcases hmove.frontier with ⟨-, h⟩ | ⟨hno, -⟩
      · exact hadvanced.current ▸ h
      · exact absurd hadvances hno
    -- the row stays after the frontier that the first call has left
    have ht := hs.step trivial hstep
    obtain ⟨rowU, hrowU, hafterU⟩ := row_of_reaches (I := fun row => row.frontier.After arguments.current)
      ht hrun (fun _ _ _ _ _ hmove h => hmove.passed h) ⟨row', hrow', hafter⟩
    intro hsuccess'
    have hu := ht.reaches hrun
    rcases advance_cases (r := (advance u.queue arguments').2) (queueOk_of_reachable hu).keyed rfl
      with ⟨-, hne⟩ | ⟨-, rowV, _, hchanged', hadvanced'⟩
    · exact hne hsuccess'
    · have hrowV := hchanged'.before
      rw [hkey, hrowU] at hrowV
      obtain rfl := Option.some.inj hrowV
      rw [hadvanced'.current, hcurrent] at hafterU
      exact hafterU.ne rfl
  agrees arguments hvalid := by
    cases h : validateAdvance arguments.source arguments.externalID arguments.objectID
        arguments.current arguments.next arguments.observedAfter arguments.now with
    | error message =>
      rw [h] at hvalid
      cases hvalid
    | ok checked => exact advance_agrees (queueOk_of_reachable hs) h
  leaseEnds a t u k version claim now hstep hends hrun b hkey hversion hnow :=
    not_commits_of_spent (hs.step trivial hstep) hrun
      (spent_of_endsLease hs hstep hends) hkey hversion hnow
  leaseExpires now leaseDuration t u k row claim now' hstep hrow hleased hrun b hkey hversion hnow
      hcommits := by
    have ht := hs.step trivial hstep
    obtain ⟨rowU, hrowU, hexpires⟩ := row_of_reaches
      (I := ExpiresAt (row.leaseVersion + 1) (unixMilli (now + leaseDuration))) ht
      hrun (fun _ _ _ _ _ hmove h => hmove.expiresAt h)
      ⟨_, hleased, Or.inr ⟨rfl, rfl⟩⟩
    obtain ⟨rowU', hrowU', hcommitted⟩ := commits_leased
      (queueOk_of_reachable (ht.reaches hrun)) hcommits
    rw [hkey, hrowU] at hrowU'
    obtain rfl := Option.some.inj hrowU'
    rcases hexpires with hspent | ⟨-, hexpiry⟩
    · rw [hspent.not_leased (le_of_eq hversion) hnow] at hcommitted
      cases hcommitted
    · simp only [leased, Bool.and_eq_true, decide_eq_true_eq] at hcommitted
      rw [← hexpiry]
      exact hcommitted.2
  ended a t k row hstep hrow hended := by
    obtain ⟨row', hrow', hmove⟩ := reachable_rowStep hs hstep hrow
    exact ⟨row', hrow', hmove.ended hended⟩
  process := (behind_of_reachable hs).ordered
  processOnce k t hzero hrun :=
    process_advances_once hs hzero hrun

end Safety

section SmallRuns

attribute [local instance] TextTables.ascii

/-- A show is added to the watchlist after the baseline, and its first episode is published. -/
def publishedLabels : List ServiceLabel :=
  .setPolicy ⟨true, .pilot⟩ :: syncLabels [] 1 ++ syncLabels [smallItem .tvShow] 2 ++
    [.claim (atSecond 3) 60000000000,
      .release ⟨⟨smallItem .tvShow, true, 1, 1⟩, 1, 1, ""⟩ (.complete ⟨.succeeded, zeroTime, "o1"⟩)
        (atSecond 4)]

/-- Somebody watches an episode of the show. -/
def smallPlayback (episode : ℤ) : EpisodePlayback :=
  ⟨"plex://1", "TV Shows/Title/" ++ toString episode ++ ".mkv", ⟨1, episode⟩, atSecond 600,
    atSecond 3000⟩

/-- The published file of an episode. -/
def smallConfiguration (objectID : String) (episode : ℤ) : SetupConfiguration :=
  ⟨"", objectID, "e.mkv", ".mkv", 7, .episode, "Episode", 2020, "Title", 1, episode⟩

/-- `process` looks at one playback and advances its show. -/
def advanceLabels (objectID : String) (episode : ℤ) : List ServiceLabel :=
  [.processFind (.ok (some (smallConfiguration objectID episode))), .processCheck none,
    .processResolve (.ok (some ⟨1, episode + 1⟩)), .processAdvance none]

/-- Two playbacks of the show are in one snapshot, and its second episode is published between the
two. -/
def twoPlaybacksLabels : List ServiceLabel :=
  publishedLabels ++ .processSnapshot (atSecond 5) (.ok [smallPlayback 1, smallPlayback 2]) ::
    advanceLabels "o1" 1 ++
    [.claim (atSecond 6) 60000000000,
      .release ⟨⟨smallItem .tvShow, true, 1, 2⟩, 2, 1, ""⟩ (.complete ⟨.succeeded, zeroTime, "o2"⟩)
        (atSecond 7)] ++
    advanceLabels "o2" 2

theorem frontier_safety_small : ∃ s,
    (watchlistService (atSecond 10)).run (freshService false) publishedLabels = some s ∧
      (s.queue.rows.lookup smallKey).map (fun row => (row.state, row.frontier)) =
        some (.succeeded, ⟨1, 1⟩) ∧
      FrontierSafe (atSecond 10) s := by
  have hvalues : ((watchlistService (atSecond 10)).run (freshService false) publishedLabels).map
      (fun s => (s.queue.rows.lookup smallKey).map fun row => (row.state, row.frontier)) =
        some (some (.succeeded, ⟨1, 1⟩)) := by
    decide +kernel
  rw [Option.map_eq_some_iff] at hvalues
  obtain ⟨s, hs, hrow⟩ := hvalues
  exact ⟨s, hs, hrow, frontier_safety (System.reachable_of_run ⟨false, rfl⟩ hs)⟩

/-- One `process` advances the show twice. -/
theorem process_advances_twice : ¬ ∀ s k, (watchlistService (atSecond 10)).Reachable s →
    timesAdvanced s k ≤ 1 := by
  intro hclaim
  have hvalues : ((watchlistService (atSecond 10)).run (freshService false) twoPlaybacksLabels).map
      (fun s => timesAdvanced s smallKey) = some 2 := by
    decide +kernel
  rw [Option.map_eq_some_iff] at hvalues
  obtain ⟨s, hs, htwice⟩ := hvalues
  have hle := hclaim s smallKey (System.reachable_of_run ⟨false, rfl⟩ hs)
  omega

end SmallRuns

end BlackPearl.Watchlist
