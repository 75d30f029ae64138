import BlackPearl.Watchlist.Runs

/-!
# Claimable rows decode

`UpsertObservations` overwrites the media type of a queued row but keeps its eligibility and its
intent. As long as no snapshot leaves an eligible row that waits for its acquisition under the other
media type (`KeepsMedia`), `Claim` can read every row that it leases. Without this condition a movie
that is observed again as a show is leased, and `Claim` returns an error.
-/

set_option autoImplicit false

namespace BlackPearl.Watchlist

open BlackPearl.Library BlackPearl.Domain BlackPearl.Acquisition

/-- Whether the acquisition of a row has ended. -/
def ended (row : WatchlistRow) : Bool := row.state = .succeeded || row.state = .manualReview

/-- The intent of an eligible row fits its media type. -/
def IntentFits (row : WatchlistRow) : Prop :=
  (row.mediaType = .movie ∧ row.intentSeason = 0 ∧ row.intentEpisode = 0) ∨
    (row.mediaType = .tvShow ∧ 1 ≤ row.intentSeason ∧ row.intentSeason ≤ 99 ∧
      1 ≤ row.intentEpisode ∧ row.intentEpisode ≤ 999)

/-- The observations of a key, in their order. -/
def observationsOf (observations : List WatchlistObservation) (k : RowKey) :
    List WatchlistObservation :=
  observations.filter fun o => observedKey o = k

/-- The row under the key `k` keeps the media type with which it was queued: the last observation of
it has the media type of the row, or of the observation that inserts the row. Only an eligible row
whose acquisition has not ended counts. -/
def MediaKeptAt (q : Queue) (observations : List WatchlistObservation) (k : RowKey) : Prop :=
  match q.rows.lookup k with
  | some row => row.autoEligible = true → ended row = false →
      ∀ o ∈ (observationsOf observations k).getLast?, o.item.mediaType = row.mediaType
  | none => ∀ first ∈ (observationsOf observations k).head?, first.autoEligible = true →
      ∀ o ∈ (observationsOf observations k).getLast?, o.item.mediaType = first.item.mediaType

instance (q : Queue) (observations : List WatchlistObservation) (k : RowKey) :
    Decidable (MediaKeptAt q observations k) := by
  unfold MediaKeptAt
  exact match q.rows.lookup k with
    | some _ => inferInstance
    | none => inferInstance

section Decoding

variable [TextTables] {watchlistPollInterval : ℤ}

/-- The step stores no snapshot that leaves an eligible waiting row under the other media type. -/
def KeepsMedia (s : ServiceState) (a : ServiceLabel) : Prop :=
  ∀ call ∈ storedObservations s a, ∀ validated ∈ (call.1.mapM validateObservation).toOption,
    ∀ o ∈ validated, MediaKeptAt s.queue validated (observedKey o)

instance (s : ServiceState) (a : ServiceLabel) : Decidable (KeepsMedia s a) :=
  inferInstanceAs (Decidable (∀ call ∈ storedObservations s a,
    ∀ validated ∈ (call.1.mapM validateObservation).toOption,
      ∀ o ∈ validated, MediaKeptAt s.queue validated (observedKey o)))

/-- The intent of every eligible row whose acquisition has not ended fits its media type. -/
def IntentsFit (q : Queue) : Prop :=
  ∀ k row, q.rows.lookup k = some row → row.autoEligible = true → ended row = false → IntentFits row

omit [TextTables] in
/-- A change of the media type to the same one changes nothing in the intent. -/
theorem IntentFits.reobserved {row row' : WatchlistRow} (h : IntentFits row)
    (hsame : Reobserved row row') (htype : row'.mediaType = row.mediaType) : IntentFits row' := by
  obtain ⟨mediaType, title, releaseYear, lastObserved, updated, rfl⟩ := hsame
  obtain rfl : mediaType = row.mediaType := htype
  exact h

theorem SettledObservation.intentFits {o : WatchlistObservation} (h : SettledObservation o)
    (timestamp : ℤ) (heligible : o.autoEligible = true) : IntentFits (insertedRow o timestamp) := by
  obtain ⟨-, -, -, -, hintent⟩ := newWatchlistObservation_eq_ok.1 h
  rcases validateObservationIntent_eq_ok.1 hintent with hmovie | ⟨-, hno, -⟩ | ⟨htype, -, hranges⟩
  · exact Or.inl hmovie
  · rw [heligible] at hno
    cases hno
  · exact Or.inr ⟨htype, hranges⟩

/-- A snapshot that keeps the media types keeps the intents fitting. -/
theorem IntentsFit.observe {q q' : Queue} {validated : List WatchlistObservation} {timestamp : ℤ}
    (hq : IntentsFit q) (hok : QueueOk q) (hsettled : ∀ o ∈ validated, SettledObservation o)
    (hkept : ∀ o ∈ validated, MediaKeptAt q validated (observedKey o))
    (heach : upsertEach timestamp q validated = .ok q') : IntentsFit q' := by
  obtain ⟨-, -, hlookup⟩ := upsertEach_lookup hok.keyed heach
  intro k row hrow heligible hended
  rw [hlookup] at hrow
  have hmem : ∀ o ∈ observationsOf validated k, o ∈ validated ∧ observedKey o = k := by
    intro o ho
    obtain ⟨ho, hk⟩ := List.mem_filter.1 ho
    exact ⟨ho, by simpa using hk⟩
  change (observationsOf validated k).foldl (observeRow timestamp) (q.rows.lookup k) = some row at hrow
  cases hobs : observationsOf validated k with
  | nil =>
    -- the key is not in the snapshot
    rw [hobs] at hrow
    exact hq k row hrow heligible hended
  | cons first rest =>
    rw [hobs] at hmem hrow
    obtain ⟨hfirst, hkey⟩ := hmem first List.mem_cons_self
    have hkeptAt := hkept first hfirst
    rw [hkey, MediaKeptAt, hobs] at hkeptAt
    obtain ⟨last, hlast⟩ : ∃ last, (first :: rest).getLast? = some last :=
      ⟨_, List.getLast?_eq_some_getLast (List.cons_ne_nil _ _)⟩
    cases hbefore : q.rows.lookup k with
    | some base =>
      rw [hbefore] at hrow hkeptAt
      obtain ⟨row', hfold, hsame, htype⟩ := foldl_observeRow timestamp base (first :: rest)
      obtain rfl := Option.some.inj (hfold.symm.trans hrow)
      rw [hlast] at hkeptAt htype
      have hbase : base.autoEligible = true ∧ ended base = false := by
        obtain ⟨mediaType, title, releaseYear, lastObserved, updated, rfl⟩ := hsame
        exact ⟨heligible, hended⟩
      refine (hq k base hbefore hbase.1 hbase.2).reobserved hsame ?_
      exact htype.trans (hkeptAt hbase.1 hbase.2 last rfl)
    | none =>
      rw [hbefore, List.foldl_cons] at hrow
      rw [hbefore] at hkeptAt
      obtain ⟨row', hfold, hsame, htype⟩ :=
        foldl_observeRow timestamp (insertedRow first timestamp) rest
      obtain rfl := Option.some.inj (hfold.symm.trans hrow)
      have heligible' : first.autoEligible = true := by
        obtain ⟨mediaType, title, releaseYear, lastObserved, updated, rfl⟩ := hsame
        exact heligible
      refine ((hsettled first hfirst).intentFits timestamp heligible').reobserved hsame ?_
      rw [hlast] at hkeptAt
      have hsameType := hkeptAt first rfl heligible' last rfl
      cases hrest : rest.getLast? with
      | none =>
        rw [htype, hrest]
        rfl
      | some last' =>
        rw [htype, hrest]
        rw [List.getLast?_cons, hrest] at hlast
        obtain rfl : last' = last := by simpa using hlast
        exact hsameType

omit [TextTables] in
/-- A row that can be claimed is eligible, and its acquisition has not ended. -/
theorem waits_of_eligible {settings : WatchlistPolicy} {nowMillis : ℤ} {row : WatchlistRow}
    (h : eligible settings nowMillis row = true) : row.autoEligible = true ∧ ended row = false := by
  simp only [eligible, due, Bool.and_eq_true, Bool.or_eq_true, decide_eq_true_eq] at h
  obtain ⟨⟨⟨-, hauto⟩, -⟩, hdue⟩ := h
  refine ⟨hauto, ?_⟩
  rcases hdue with ⟨hstate, -⟩ | ⟨⟨hstate, -⟩, -⟩
  · simp only [List.mem_cons, List.not_mem_nil, or_false] at hstate
    rcases hstate with h | h | h <;> simp [ended, h]
  · simp [ended, hstate]

/-- Every other move keeps the intents fitting, too. -/
theorem QueueMove.intentsFit {s : ServiceState} {a : ServiceLabel} {q' : Queue}
    (hq : IntentsFit s.queue) (hok : QueueOk s.queue) (hkeeps : KeepsMedia s a)
    (hmove : QueueMove watchlistPollInterval s a q') : IntentsFit q' := by
  -- the row that takes the place of another has to fit when it is eligible and waits
  have hreplace : ∀ {k : RowKey} {row row' : WatchlistRow}, RowChanged s.queue q' k row row' →
      (row'.autoEligible = true → ended row' = false → IntentFits row') → IntentsFit q' := by
    intro k row row' hchanged hfits k' r hr heligible hended
    rw [hchanged.lookup] at hr
    split at hr
    · obtain rfl := Option.some.inj hr
      exact hfits heligible hended
    · exact hq k' r hr heligible hended
  cases hmove with
  | same h hadvance => exact h ▸ hq
  | settings policy hcall hrows =>
    intro k row hrow
    rw [hrows] at hrow
    exact hq k row hrow
  | @observed observations validated observedAt hcall hvalid heach =>
    refine hq.observe hok (settled_of_mapM hvalid) ?_ heach
    exact hkeeps (observations, observedAt) hcall validated (by rw [hvalid]; rfl)
  | @leased now leaseDuration row hcall heligible hchanged =>
    obtain ⟨hauto, hwaits⟩ := waits_of_eligible heligible
    exact hreplace hchanged fun _ _ => hq row.key row hchanged.before hauto hwaits
  | @released claim call now row row' hcall hok' hleased hchanged hback hstate =>
    refine hreplace hchanged fun heligible _ => ?_
    simp only [Watchlist.leased, Bool.and_eq_true, decide_eq_true_eq] at hleased
    have hfits := hq _ row hchanged.before (hback.autoEligible ▸ heligible)
      (by simp [ended, hleased.1.1])
    have hitem := hback.item
    have hfrontier := hback.frontier
    simp only [persistedItem, WatchlistItem.mk.injEq] at hitem
    simp only [WatchlistRow.frontier, EpisodeCoordinate.mk.injEq] at hfrontier
    simpa only [IntentFits, hitem.2.2.1, hfrontier.1, hfrontier.2] using hfits
  | @advanced arguments row row' hcall hok' hchanged hadvanced =>
    refine hreplace hchanged fun _ _ => ?_
    rw [hadvanced.row]
    obtain ⟨⟨h₁, h₂⟩, h₃, h₄⟩ := hadvanced.range
    exact Or.inr ⟨hadvanced.ready.2.2, h₁, h₂, h₃, h₄⟩

/-- What holds of the queue in every run whose snapshots keep the media types. -/
theorem intentsFit_of_reachable {s : ServiceState}
    (hs : (watchlistService watchlistPollInterval).ReachableBy KeepsMedia s) : IntentsFit s.queue := by
  apply hs.invariant_under (I := fun s => IntentsFit s.queue) (J := fun s => QueueOk s.queue)
  · exact fun s hs => queueOk_of_reachable hs
  · rintro s ⟨enabled, rfl⟩ k row hrow
    simp [freshService, Queue.empty] at hrow
  · intro s a t hok hq hkeeps hstep
    exact (serviceStep_move hok.keyed hstep).intentsFit hq hok hkeeps

/-- A leased row whose intent fits can be read. -/
theorem scanClaim_of_fits {k : RowKey} {row : WatchlistRow} (hrow : RowOk k row)
    (hfits : IntentFits row) (now : Time) (leaseDuration : ℤ) :
    ∃ c, scanClaim (leasedRow row now leaseDuration) = .ok c := by
  have hintent : validateObservationIntent row.mediaType true row.intentSeason row.intentEpisode =
      .ok () := by
    rw [validateObservationIntent_eq_ok]
    rcases hfits with hmovie | ⟨htype, hranges⟩
    · exact Or.inl hmovie
    · exact Or.inr (Or.inr ⟨htype, rfl, hranges⟩)
  have hobservation : newWatchlistObservation (persistedItem row) true row.intentSeason
      row.intentEpisode = .ok ⟨persistedItem row, true, row.intentSeason, row.intentEpisode⟩ :=
    newWatchlistObservation_eq_ok.2 ⟨hrow.item, rfl, rfl, rfl, hintent⟩
  have hattempt := hrow.checks.attemptCount
  have hversion := hrow.checks.leaseVersion
  have hclaim : ∀ jobID, newWatchlistClaim
      ⟨persistedItem row, true, row.intentSeason, row.intentEpisode⟩ (row.leaseVersion + 1)
      (row.attemptCount + 1) jobID = .ok ⟨⟨persistedItem row, true, row.intentSeason,
        row.intentEpisode⟩, row.leaseVersion + 1, row.attemptCount + 1, jobID⟩ := by
    intro jobID
    simp only [newWatchlistClaim, bind_eq_ok, within_eq_ok, require_eq_ok, pure_eq_ok]
    exact ⟨_, hobservation, (), rfl, (), by omega, (), by omega, rfl⟩
  simp only [scanClaim, bind_eq_ok, within_eq_ok]
  by_cases hjob : row.backgroundJobID = ""
  · refine ⟨⟨⟨persistedItem row, true, row.intentSeason, row.intentEpisode⟩, row.leaseVersion + 1,
      row.attemptCount + 1, ""⟩, persistedItem row, hrow.item, _, hobservation, ?_⟩
    simp only [leasedRow, hjob, ne_eq, not_true_eq_false, if_false]
    exact hclaim ""
  · have hvalid : validJobID row.backgroundJobID = true :=
      hrow.checks.backgroundJobID.resolve_left hjob
    refine ⟨⟨⟨persistedItem row, true, row.intentSeason, row.intentEpisode⟩, row.leaseVersion + 1,
      row.attemptCount + 1, row.backgroundJobID⟩, persistedItem row, hrow.item, _, hobservation, ?_⟩
    simp only [leasedRow, ne_eq, hjob, not_false_eq_true, if_true, newWatchlistIntentJobClaim,
      bind_eq_ok]
    exact ⟨(), require_eq_ok.2 hvalid, hclaim row.backgroundJobID⟩

/-- A leased row meets the constraints of the table. -/
theorem checks_leasedRow {k : RowKey} {row : WatchlistRow} (hrow : RowOk k row) (now : Time)
    (leaseDuration : ℤ) : (leasedRow row now leaseDuration).Checks := by
  have hattempt := hrow.checks.attemptCount
  have hversion := hrow.checks.leaseVersion
  refine { hrow.checks with state := ?_, attemptCount := ?_, leaseVersion := ?_ }
  · simp [leasedRow]
  · show 0 ≤ row.attemptCount + 1
    omega
  · show 0 ≤ row.leaseVersion + 1
    omega

/-- Every row that `Claim` can lease in the queue fits its media type and can be read back, and
`Claim` leases a row and returns its claim, or finds none and changes nothing. -/
structure ClaimsDecode (q : Queue) : Prop where
  rows : ∀ k row now leaseDuration, q.rows.lookup k = some row →
    eligible q.settings (unixMilli now) row = true →
      IntentFits row ∧ ∃ c, scanClaim (leasedRow row now leaseDuration) = .ok c
  claims : ∀ now leaseDuration, now ≠ zeroTime → 0 < leaseDuration →
    claim q now leaseDuration = (q, .error .notFound) ∨
      ∃ row q' c, claim q now leaseDuration = (q', .ok c) ∧
        eligible q.settings (unixMilli now) row = true ∧
        RowChanged q q' row.key row (leasedRow row now leaseDuration) ∧
        scanClaim (leasedRow row now leaseDuration) = .ok c
  refused : ∀ now leaseDuration, now = zeroTime ∨ leaseDuration ≤ 0 →
    (claim q now leaseDuration).1 = q

/-- In every run in which no snapshot leaves an eligible waiting row under the other media type,
every row that can be claimed decodes. -/
theorem claimable_rows_decode {s : ServiceState}
    (hs : (watchlistService watchlistPollInterval).ReachableBy KeepsMedia s) :
    ClaimsDecode s.queue := by
  have hok := queueOk_of_reachable hs
  have hfit := intentsFit_of_reachable hs
  have hrows : ∀ k row now leaseDuration, s.queue.rows.lookup k = some row →
      eligible s.queue.settings (unixMilli now) row = true →
        IntentFits row ∧ ∃ c, scanClaim (leasedRow row now leaseDuration) = .ok c := by
    intro k row now leaseDuration hrow heligible
    obtain ⟨hauto, hwaits⟩ := waits_of_eligible heligible
    have hfits := hfit k row hrow hauto hwaits
    exact ⟨hfits, scanClaim_of_fits (hok k row hrow) hfits now leaseDuration⟩
  refine ⟨hrows, fun now leaseDuration hnow hduration => ?_, fun now leaseDuration hbad => ?_⟩
  · rcases claim_cases (r := (claim s.queue now leaseDuration).2) hok.keyed rfl with
      ⟨hsame, hbad | hnone | ⟨row, hrow, hchecks⟩⟩ | ⟨row, heligible, hchanged, hresult⟩
    · exact absurd hbad (by push Not; exact ⟨hnow, hduration⟩)
    · exact Or.inl (Prod.ext hsame hnone)
    · exact absurd (checks_leasedRow (hok _ row hrow) now leaseDuration) hchecks
    · obtain ⟨-, c, hc⟩ := hrows row.key row now leaseDuration hchanged.before heligible
      refine Or.inr ⟨row, _, c, Prod.ext rfl ?_, heligible, hchanged, hc⟩
      rw [hresult, readClaim, within_eq_ok.2 hc]
  · rw [claim]
    split_ifs with h₁ h₂
    · rfl
    · rfl
    · exact absurd hbad (not_or.2 ⟨h₁, h₂⟩)

end Decoding

section SmallRuns

attribute [local instance] TextTables.ascii

/-- A movie is added to the watchlist after the baseline. -/
def movieLabels : List ServiceLabel :=
  .setPolicy ⟨true, .pilot⟩ :: syncLabels [] 1 ++ syncLabels [smallItem .movie] 2

theorem claimable_rows_decode_small : ∃ s,
    (watchlistService 1).runChecked KeepsMedia (freshService false) movieLabels = some s ∧
      (s.queue.rows.lookup smallKey).map (eligible s.queue.settings 3000) = some true ∧
      ClaimsDecode s.queue := by
  have hvalues : ((watchlistService 1).runChecked KeepsMedia (freshService false) movieLabels).map
      (fun s => (s.queue.rows.lookup smallKey).map (eligible s.queue.settings 3000)) =
        some (some true) := by
    decide +kernel
  rw [Option.map_eq_some_iff] at hvalues
  obtain ⟨s, hs, heligible⟩ := hvalues
  exact ⟨s, hs, heligible, claimable_rows_decode
    (System.ReachableBy.reaches (.init ⟨false, rfl⟩) (System.reachesBy_of_runChecked hs))⟩

/-- The movie is later listed as a show. `Claim` leases its row and fails. -/
theorem movie_listed_as_show : ¬ ∀ s, (watchlistService 1).Reachable s → ClaimsDecode s.queue := by
  intro hclaim
  have hvalues : ((watchlistService 1).run (freshService false)
      (movieLabels ++ syncLabels [smallItem .tvShow] 3)).map
        (fun s => (claim s.queue (atSecond 4) 60).2) =
      some (.error (.invalid ("claim watchlist item: validate persisted watchlist intent: " ++
        "eligible show season must be between 1 and 99: 0"))) := by
    decide +kernel
  rw [Option.map_eq_some_iff] at hvalues
  obtain ⟨s, hs, hresult⟩ := hvalues
  have hdecodes := hclaim s (System.reachable_of_run ⟨false, rfl⟩ hs)
  rcases hdecodes.claims (atSecond 4) 60 (by decide) (by decide) with hnone | ⟨row, q', c, hok, -⟩
  · rw [hnone] at hresult
    cases hresult
  · rw [hok] at hresult
    cases hresult

end SmallRuns

end BlackPearl.Watchlist
