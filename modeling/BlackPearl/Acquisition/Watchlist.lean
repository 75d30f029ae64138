import BlackPearl.Acquisition.Job

/-!
# Watchlist values

The validated values of `internal/acquisition/watchlist.go` and `internal/acquisition/queue.go`: the
policy, one observed item, an observation with its acquisition intent, a leased claim, and the
completion of a claim. The constructors are checks that are applied again whenever a value crosses a
boundary, so each of them leaves its own result alone.
-/

set_option autoImplicit false

namespace BlackPearl.Acquisition

open BlackPearl.Library BlackPearl.Domain

def maximumWatchlistExternalIDBytes : ℕ := 512

/-- `WatchlistMediaType`. -/
inductive WatchlistMediaType
  | movie
  | tvShow
  | unsupported (text : String)
  deriving DecidableEq, Repr

/-- `WatchlistShowPolicy`. -/
inductive WatchlistShowPolicy
  | off
  | pilot
  | unsupported (text : String)
  deriving DecidableEq, Repr

/-- `WatchlistQueueState`. -/
inductive WatchlistQueueState
  | pending
  | acquiring
  | succeeded
  | notCached
  | retryable
  | manualReview
  | unsupported (text : String)
  deriving DecidableEq, Repr

section Checks

variable [TextTables]

/-! ## Policy -/

/-- `WatchlistPolicy`. -/
structure WatchlistPolicy where
  acquisitionEnabled : Bool
  showPolicy : WatchlistShowPolicy
  deriving DecidableEq, Repr

/-- `NewWatchlistPolicy`. -/
def newWatchlistPolicy (acquisitionEnabled : Bool) (showPolicy : WatchlistShowPolicy) :
    Checked WatchlistPolicy :=
  match showPolicy with
  | .off | .pilot => .ok ⟨acquisitionEnabled, showPolicy⟩
  | .unsupported text =>
      .error ("unsupported Watchlist show policy: " ++ TextTables.quote text)

/-! ## Items and observations -/

/-- `WatchlistItem`, which is also `WatchlistItemInput`. -/
structure WatchlistItem where
  source : String
  externalID : String
  mediaType : WatchlistMediaType
  title : String
  year : ℤ
  deriving DecidableEq, Repr

/-- The media types that `NewWatchlistItem` accepts. -/
def supportedWatchlistMediaType : WatchlistMediaType → Checked Unit
  | .movie | .tvShow => .ok ()
  | .unsupported text => .error ("unsupported watchlist media type: " ++ TextTables.quote text)

/-- `NewWatchlistItem`. -/
def newWatchlistItem (input : WatchlistItem) : Checked WatchlistItem := do
  let _ ← within "invalid watchlist source" (newBackingRef input.source "watchlist-item")
  require (hasControl input.externalID = false)
    "watchlist external ID must not contain control characters"
  let externalID := trimSpace input.externalID
  require (externalID ≠ "") "watchlist external ID is required"
  require (byteLength externalID ≤ maximumWatchlistExternalIDBytes)
    ("watchlist external ID must not exceed " ++ toString maximumWatchlistExternalIDBytes ++ " bytes")
  supportedWatchlistMediaType input.mediaType
  let title ← validateSearchText "watchlist title" input.title maximumSearchTitleBytes
  validateSearchYear input.year
  return {
    source := input.source
    externalID := externalID
    mediaType := input.mediaType
    title := title
    year := input.year }

/-- `WatchlistObservation`. -/
structure WatchlistObservation where
  item : WatchlistItem
  autoEligible : Bool
  season : ℤ
  episode : ℤ
  deriving DecidableEq, Repr

/-- The coordinates that an observation of a media type may carry. -/
def validateObservationIntent (mediaType : WatchlistMediaType) (autoEligible : Bool)
    (season episode : ℤ) : Checked Unit :=
  match mediaType with
  | .movie => require (¬ (season ≠ 0 ∨ episode ≠ 0))
      "movie observation must not contain episode coordinates"
  | .tvShow =>
      if autoEligible = false then
        require (¬ (season ≠ 0 ∨ episode ≠ 0))
          "observation-only show must not contain episode coordinates"
      else do
        require (¬ (season < 1 ∨ 99 < season))
          ("eligible show season must be between 1 and 99: " ++ toString season)
        require (¬ (episode < 1 ∨ 999 < episode))
          ("eligible show episode must be between 1 and 999: " ++ toString episode)
  | .unsupported _ => .error "unsupported Watchlist observation media type"

/-- `NewWatchlistObservation`. -/
def newWatchlistObservation (item : WatchlistItem) (autoEligible : Bool) (season episode : ℤ) :
    Checked WatchlistObservation := do
  let validated ← within "invalid Watchlist observation item" (newWatchlistItem item)
  validateObservationIntent validated.mediaType autoEligible season episode
  return ⟨validated, autoEligible, season, episode⟩

/-! ## Claims -/

/-- `WatchlistClaim`. -/
structure WatchlistClaim where
  observation : WatchlistObservation
  leaseVersion : ℤ
  attempt : ℤ
  backgroundJobID : String
  deriving DecidableEq, Repr

/-- `newWatchlistClaim`. -/
def newWatchlistClaim (observation : WatchlistObservation) (leaseVersion attempt : ℤ)
    (jobID : String) : Checked WatchlistClaim := do
  let validated ← within "invalid watchlist claim intent" (newWatchlistObservation observation.item
    observation.autoEligible observation.season observation.episode)
  require (validated.autoEligible = true) "watchlist claim requires eligible acquisition intent"
  require (¬ leaseVersion < 1) "watchlist claim lease version must be positive"
  require (¬ attempt < 1) "watchlist claim attempt must be positive"
  return ⟨validated, leaseVersion, attempt, jobID⟩

/-- `NewWatchlistIntentClaim`. -/
def newWatchlistIntentClaim (observation : WatchlistObservation) (leaseVersion attempt : ℤ) :
    Checked WatchlistClaim :=
  newWatchlistClaim observation leaseVersion attempt ""

/-- `NewWatchlistIntentJobClaim`. -/
def newWatchlistIntentJobClaim (observation : WatchlistObservation) (leaseVersion attempt : ℤ)
    (jobID : String) : Checked WatchlistClaim := do
  require (validJobID jobID = true)
    "watchlist background job ID must be 32 lowercase hexadecimal characters"
  newWatchlistClaim observation leaseVersion attempt jobID

/-! ## Completions -/

/-- `WatchlistCompletion`. -/
structure WatchlistCompletion where
  state : WatchlistQueueState
  nextAttempt : Time
  publishedObjectID : String
  deriving DecidableEq, Repr

omit [TextTables] in
/-- `NewWatchlistSucceeded`. -/
def newWatchlistSucceeded (publishedObjectID : String) : Checked WatchlistCompletion := do
  require (hasControl publishedObjectID = false)
    "published object ID must not contain control characters"
  let objectID := trimSpace publishedObjectID
  require (objectID ≠ "") "published object ID is required"
  require (byteLength objectID ≤ maximumPublishedObjectIDBytes)
    ("published object ID must not exceed " ++ toString maximumPublishedObjectIDBytes ++ " bytes")
  return ⟨.succeeded, zeroTime, objectID⟩

omit [TextTables] in
/-- `NewWatchlistDeferred`. -/
def newWatchlistDeferred (state : WatchlistQueueState) (nextAttempt : Time) :
    Checked WatchlistCompletion := do
  require (¬ (state ≠ .notCached ∧ state ≠ .retryable))
    "deferred watchlist state must be not_cached or retryable"
  require (nextAttempt ≠ zeroTime) "deferred watchlist completion requires a next attempt time"
  return ⟨state, nextAttempt, ""⟩

omit [TextTables] in
/-- `NewWatchlistManualReview`. -/
def newWatchlistManualReview : WatchlistCompletion := ⟨.manualReview, zeroTime, ""⟩

/-! ## What the constructors return -/

theorem supportedWatchlistMediaType_eq_ok {mediaType : WatchlistMediaType} {x : Unit} :
    supportedWatchlistMediaType mediaType = .ok x ↔ mediaType = .movie ∨ mediaType = .tvShow := by
  cases mediaType <;> simp [supportedWatchlistMediaType]

/-- A checked item passes the same check unchanged. -/
theorem newWatchlistItem_idem {input item : WatchlistItem} (h : newWatchlistItem input = .ok item) :
    newWatchlistItem item = .ok item := by
  simp only [newWatchlistItem, bind_eq_ok, pure_eq_ok, require_eq_ok, within_eq_ok] at h ⊢
  obtain ⟨backing, hsource, _, hcontrol, _, hempty, _, hlength, _, htype, title, htitle, _, hyear,
    rfl⟩ := h
  refine ⟨backing, hsource, (), hasControl_trimSpace hcontrol, (), ?_, (), ?_, (), htype, title,
    validateSearchText_idem htitle, (), hyear, ?_⟩
  · rw [trimSpace_trimSpace]
    exact hempty
  · rw [trimSpace_trimSpace]
    exact hlength
  · rw [trimSpace_trimSpace]

/-- The item is trimmed, and otherwise the one that was given. -/
theorem newWatchlistItem_eq_ok {input item : WatchlistItem} (h : newWatchlistItem input = .ok item) :
    item.source = input.source ∧ item.externalID = trimSpace input.externalID ∧
      item.mediaType = input.mediaType ∧ (item.mediaType = .movie ∨ item.mediaType = .tvShow) := by
  simp only [newWatchlistItem, bind_eq_ok, pure_eq_ok, require_eq_ok, within_eq_ok,
    supportedWatchlistMediaType_eq_ok] at h
  obtain ⟨_, -, _, -, _, -, _, -, _, htype, _, -, _, -, rfl⟩ := h
  exact ⟨rfl, rfl, rfl, htype⟩

omit [TextTables] in
/-- The intent of an observation, as one condition. -/
theorem validateObservationIntent_eq_ok {mediaType : WatchlistMediaType} {autoEligible : Bool}
    {season episode : ℤ} {x : Unit} :
    validateObservationIntent mediaType autoEligible season episode = .ok x ↔
      (mediaType = .movie ∧ season = 0 ∧ episode = 0) ∨
      (mediaType = .tvShow ∧ autoEligible = false ∧ season = 0 ∧ episode = 0) ∨
      (mediaType = .tvShow ∧ autoEligible = true ∧ 1 ≤ season ∧ season ≤ 99 ∧ 1 ≤ episode ∧
        episode ≤ 999) := by
  cases mediaType with
  | movie =>
    simp only [validateObservationIntent, require_eq_ok]
    constructor
    · intro h
      exact Or.inl ⟨trivial, by omega, by omega⟩
    · rintro (⟨-, rfl, rfl⟩ | ⟨h, -⟩ | ⟨h, -⟩)
      · simp
      · cases h
      · cases h
  | tvShow =>
    cases autoEligible with
    | false =>
      simp only [validateObservationIntent, if_true, require_eq_ok]
      constructor
      · intro h
        exact Or.inr (Or.inl ⟨trivial, trivial, by omega, by omega⟩)
      · rintro (⟨h, -⟩ | ⟨-, -, rfl, rfl⟩ | ⟨-, h, -⟩)
        · cases h
        · simp
        · cases h
    | true =>
      simp only [validateObservationIntent, Bool.true_eq_false, if_false, bind_eq_ok, require_eq_ok]
      constructor
      · rintro ⟨_, hseason, hepisode⟩
        exact Or.inr (Or.inr ⟨trivial, trivial, by omega, by omega, by omega, by omega⟩)
      · rintro (⟨h, -⟩ | ⟨-, h, -⟩ | ⟨-, -, h₁, h₂, h₃, h₄⟩)
        · cases h
        · cases h
        · exact ⟨(), by omega, by omega⟩
  | unsupported text => simp [validateObservationIntent]

theorem newWatchlistObservation_eq_ok {item : WatchlistItem} {autoEligible : Bool}
    {season episode : ℤ} {o : WatchlistObservation} :
    newWatchlistObservation item autoEligible season episode = .ok o ↔
      newWatchlistItem item = .ok o.item ∧ o.autoEligible = autoEligible ∧ o.season = season ∧
        o.episode = episode ∧
        validateObservationIntent o.item.mediaType autoEligible season episode = .ok () := by
  simp only [newWatchlistObservation, bind_eq_ok, pure_eq_ok, within_eq_ok]
  constructor
  · rintro ⟨validated, hitem, _, hintent, rfl⟩
    exact ⟨hitem, rfl, rfl, rfl, hintent⟩
  · rintro ⟨hitem, rfl, rfl, rfl, hintent⟩
    exact ⟨o.item, hitem, (), hintent, rfl⟩

/-- A checked observation passes the same check unchanged. -/
theorem newWatchlistObservation_idem {item : WatchlistItem} {autoEligible : Bool} {season episode : ℤ}
    {o : WatchlistObservation} (h : newWatchlistObservation item autoEligible season episode = .ok o) :
    newWatchlistObservation o.item o.autoEligible o.season o.episode = .ok o := by
  rw [newWatchlistObservation_eq_ok] at h ⊢
  obtain ⟨hitem, rfl, rfl, rfl, hintent⟩ := h
  exact ⟨newWatchlistItem_idem hitem, rfl, rfl, rfl, hintent⟩

end Checks

end BlackPearl.Acquisition
