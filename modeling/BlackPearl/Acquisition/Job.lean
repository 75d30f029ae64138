import BlackPearl.Acquisition.Search

/-!
# Acquisition jobs

The validated values of `internal/acquisition/job.go` and of `internal/acquisition/result.go` that a
durable job is made of: the candidates of its plan, the provider object it is attached to, and its
snapshot, with the checks that `NewAcquisitionJobSnapshot` makes of each stage.
-/

set_option autoImplicit false

namespace BlackPearl.Acquisition

open BlackPearl.Library BlackPearl.Domain

/-- `MaximumJobCandidates`. -/
def maximumJobCandidates : ℕ := 5

def maximumRangeValidatorBytes : ℕ := 512

def maximumPublishedObjectIDBytes : ℕ := 512

/-! ## Time -/

/-- `time.Time`: nanoseconds since the Unix epoch. -/
abbrev Time := ℤ

/-- `Time.UnixMilli`. -/
def unixMilli (t : Time) : ℤ := t / 1000000

/-- `time.UnixMilli`. -/
def timeOfUnixMilli (milliseconds : ℤ) : Time := milliseconds * 1000000

/-- `time.Time{}`: the start of year 1. -/
def zeroTime : Time := -62135596800000000000

/-! ## Stages and codes -/

/-- `JobState`. -/
inductive JobState
  | queued
  | selected
  | preparing
  | succeeded
  | failed
  | manualReview
  deriving DecidableEq, Repr

/-- `JobErrorCode`. -/
inductive JobErrorCode
  | none
  | providerUnavailable
  | unauthorized
  | noRelease
  | noPlayableMedia
  | materialization
  | stalled
  | ambiguousMutation
  | unsupported (text : String)
  deriving DecidableEq, Repr

/-- `SelectionKind`; the zero value of the Go type is `unset`. -/
inductive SelectionKind
  | unset
  | torrent
  | range
  deriving DecidableEq, Repr

/-- `CandidateOutcome`. -/
inductive CandidateOutcome
  | pending
  | selected
  | stalled
  | missing
  | unplayable
  | unsupported (text : String)
  deriving DecidableEq, Repr

/-- An outcome that ends a candidate. -/
def CandidateOutcome.terminal : CandidateOutcome → Bool
  | .stalled | .missing | .unplayable => true
  | _ => false

/-- The five outcomes that a stored candidate may have. -/
def admittedOutcome : CandidateOutcome → Bool
  | .unsupported _ => false
  | _ => true

theorem CandidateOutcome.admitted_of_terminal {outcome : CandidateOutcome}
    (h : outcome.terminal = true) : admittedOutcome outcome = true := by
  cases outcome <;> first | rfl | cases h

/-- A job that a worker may still lease. -/
def JobState.active : JobState → Bool
  | .queued | .selected | .preparing => true
  | .succeeded | .failed | .manualReview => false

/-! ## Provider objects -/

/-- `CreatedObject`. -/
structure CreatedObject where
  backing : BackingRef
  deriving DecidableEq, Repr

/-- `RangeCandidate`. -/
structure RangeCandidate where
  media : MediaCandidate
  indexer : String
  validator : String
  deriving DecidableEq, Repr

/-- `RangeCandidate{}`. -/
def RangeCandidate.zero : RangeCandidate := ⟨⟨"", "", "", "", 0⟩, "", ""⟩

/-- `validateRangeValidator`. -/
def validateRangeValidator (value : String) : Checked String := do
  let clean := trimSpace value
  require (¬ (clean = "" ∨ clean ≠ value))
    "range candidate validator requires non-whitespace text without surrounding whitespace"
  require (byteLength clean ≤ maximumRangeValidatorBytes)
    ("range candidate validator must not exceed " ++ toString maximumRangeValidatorBytes ++ " bytes")
  require (hasControl clean = false) "range candidate validator must not contain control characters"
  return clean

theorem validateRangeValidator_idem {value clean : String}
    (h : validateRangeValidator value = .ok clean) :
    validateRangeValidator clean = .ok clean ∧ clean ≠ "" := by
  simp only [validateRangeValidator, bind_eq_ok, pure_eq_ok, require_eq_ok] at h
  obtain ⟨_, hclean, _, hlength, _, hcontrol, rfl⟩ := h
  push Not at hclean
  refine ⟨?_, hclean.1⟩
  simp only [validateRangeValidator, bind_eq_ok, pure_eq_ok, require_eq_ok, trimSpace_trimSpace]
  exact ⟨(), by simp [hclean.1], (), hlength, (), hcontrol, trivial⟩

section Checks

variable [TextTables]

/-- `NewCreatedObject`. -/
def newCreatedObject (provider objectID : String) : Checked CreatedObject := do
  let backing ← within "validate created object" (newBackingRef provider objectID)
  return ⟨backing⟩

theorem newCreatedObject_eq_ok {provider objectID : String} {created : CreatedObject}
    (h : newCreatedObject provider objectID = .ok created) : created = ⟨⟨provider, objectID⟩⟩ := by
  simp only [newCreatedObject, bind_eq_ok, pure_eq_ok, within_eq_ok] at h
  obtain ⟨backing, hbacking, rfl⟩ := h
  rw [newBackingRef_eq_ok hbacking]

theorem newCreatedObject_nonempty {provider objectID : String} {created : CreatedObject}
    (h : newCreatedObject provider objectID = .ok created) : provider ≠ "" ∧ objectID ≠ "" := by
  simp only [newCreatedObject, bind_eq_ok, pure_eq_ok, within_eq_ok] at h
  obtain ⟨backing, hbacking, rfl⟩ := h
  exact newBackingRef_nonempty hbacking

/-- `NewRangeCandidate`. -/
def newRangeCandidate (media : MediaCandidate) (indexer validator : String) :
    Checked RangeCandidate := do
  let validated ← within "validate range media candidate"
    (newProviderMediaCandidate media.backing media.name media.size)
  require (¬ (media.extension ≠ "" ∧ media.extension ≠ validated.extension))
    "range media candidate extension does not match its name"
  let cleanIndexer ← validateSearchText "range candidate indexer" indexer maximumIndexerNameBytes
  let cleanValidator ← validateRangeValidator validator
  return ⟨validated, cleanIndexer, cleanValidator⟩

/-- A checked range candidate passes the same check unchanged. -/
theorem newRangeCandidate_idem {media : MediaCandidate} {indexer validator : String}
    {c : RangeCandidate} (h : newRangeCandidate media indexer validator = .ok c) :
    newRangeCandidate c.media c.indexer c.validator = .ok c ∧
      newProviderMediaCandidate ⟨c.media.provider, c.media.objectID⟩ c.media.name c.media.size =
        .ok c.media ∧
      c.media.objectID ≠ "" ∧ 0 < c.media.size ∧ c.validator ≠ "" := by
  simp only [newRangeCandidate, bind_eq_ok, pure_eq_ok, require_eq_ok, within_eq_ok] at h
  obtain ⟨validated, hvalidated, _, hext, cleanIndexer, hindexer, cleanValidator, hvalidator, rfl⟩ := h
  obtain ⟨hagain, -, -, -, hbacking, hprovider, hobject, hsize⟩ := newProviderMediaCandidate_idem hvalidated
  obtain ⟨hvalidator, hnonempty⟩ := validateRangeValidator_idem hvalidator
  refine ⟨?_, hagain, hobject, hsize, hnonempty⟩
  have hself : validated.backing = ⟨validated.provider, validated.objectID⟩ := by
    simp only [MediaCandidate.backing, if_neg hprovider]
  simp only [newRangeCandidate, bind_eq_ok, pure_eq_ok, require_eq_ok, within_eq_ok, hself]
  exact ⟨_, hagain, (), by simp, cleanIndexer, validateSearchText_idem hindexer, cleanValidator,
    hvalidator, rfl⟩

/-! ## Selections -/

/-- `JobSelection`. -/
structure JobSelection where
  kind : SelectionKind
  release : Release
  rangeCandidate : RangeCandidate
  deriving DecidableEq

/-- `JobSelection{}`. -/
def JobSelection.zero : JobSelection := ⟨.unset, .zero, .zero⟩

variable [URLParser]

/-- `NewTorrentJobSelection`. -/
def newTorrentJobSelection (release : Release) : Checked JobSelection := do
  require (¬ (release.protocol ≠ .torrent ∨ release.infoHash = ""))
    "durable acquisition selection requires a torrent info hash"
  let safe ← within "validate durable acquisition selection" (newRelease (safeInput release))
  return ⟨.torrent, safe, .zero⟩

/-- `NewRangeJobSelection`. -/
def newRangeJobSelection (candidate : RangeCandidate) : Checked JobSelection := do
  let validated ← within "validate durable range selection"
    (newRangeCandidate candidate.media candidate.indexer candidate.validator)
  return ⟨.range, .zero, validated⟩

/-- `cloneJobSelection`. -/
def cloneJobSelection (selection : JobSelection) : Checked JobSelection :=
  match selection.kind with
  | .torrent => do
      require (selection.rangeCandidate = .zero) "torrent selection cannot contain range metadata"
      newTorrentJobSelection selection.release
  | .range => do
      require (selection.release = .zero) "range selection cannot contain torrent metadata"
      newRangeJobSelection selection.rangeCandidate
  | .unset => .error ("unsupported acquisition selection kind: " ++ TextTables.quote "")

/-- A selection that the constructors return. -/
def JobSelection.Settled (s : JobSelection) : Prop := cloneJobSelection s = .ok s

theorem newTorrentJobSelection_settled {release : Release} {s : JobSelection}
    (h : newTorrentJobSelection release = .ok s) : s.Settled ∧ s.kind = .torrent ∧
      s.release.infoHash = release.infoHash ∧ s.release.infoHash ≠ "" := by
  simp only [newTorrentJobSelection, bind_eq_ok, pure_eq_ok, require_eq_ok, within_eq_ok] at h
  obtain ⟨_, hrelease, safe, hsafe, rfl⟩ := h
  obtain ⟨hagain, hhash, hprotocol, -⟩ := newRelease_safeInput hsafe
  push Not at hrelease
  refine ⟨?_, rfl, hhash, by rw [hhash]; exact hrelease.2⟩
  simp only [JobSelection.Settled, cloneJobSelection, newTorrentJobSelection, bind_eq_ok, pure_eq_ok,
    require_eq_ok, within_eq_ok]
  exact ⟨(), trivial, (), by simp [hprotocol, hhash, hrelease.1, hrelease.2], safe, hagain, rfl⟩

theorem newRangeJobSelection_settled {candidate : RangeCandidate} {s : JobSelection}
    (h : newRangeJobSelection candidate = .ok s) : s.Settled ∧ s.kind = .range := by
  simp only [newRangeJobSelection, bind_eq_ok, pure_eq_ok, within_eq_ok] at h
  obtain ⟨validated, hvalidated, rfl⟩ := h
  obtain ⟨hagain, -⟩ := newRangeCandidate_idem hvalidated
  refine ⟨?_, rfl⟩
  simp only [JobSelection.Settled, cloneJobSelection, newRangeJobSelection, bind_eq_ok, pure_eq_ok,
    require_eq_ok, within_eq_ok]
  exact ⟨(), trivial, validated, hagain, rfl⟩

theorem cloneJobSelection_settled {selection s : JobSelection}
    (h : cloneJobSelection selection = .ok s) : s.Settled := by
  unfold cloneJobSelection at h
  cases hkind : selection.kind with
  | unset => simp [hkind] at h
  | torrent =>
    simp only [hkind, bind_eq_ok, require_eq_ok] at h
    obtain ⟨_, _, h⟩ := h
    exact (newTorrentJobSelection_settled h).1
  | range =>
    simp only [hkind, bind_eq_ok, require_eq_ok] at h
    obtain ⟨_, _, h⟩ := h
    exact (newRangeJobSelection_settled h).1

namespace JobSelection

/-- `Identity`. -/
def identity (s : JobSelection) : String :=
  if s.kind = .range then s.rangeCandidate.media.objectID else s.release.infoHash

/-- `Provider`. -/
def provider (s : JobSelection) : String :=
  if s.kind = .range then s.rangeCandidate.media.backing.provider else s.release.provider

/-- `Title`. -/
def title (s : JobSelection) : String :=
  if s.kind = .range then s.rangeCandidate.media.name else s.release.title

/-- `Size`. -/
def size (s : JobSelection) : ℤ :=
  if s.kind = .range then s.rangeCandidate.media.size else s.release.size

/-- `Indexer`. -/
def indexer (s : JobSelection) : String :=
  if s.kind = .range then s.rangeCandidate.indexer else s.release.indexer

/-- `InfoHash`. -/
def infoHash (s : JobSelection) : String := s.release.infoHash

/-- `Seeders`, when the release has reported them. -/
def seeders (s : JobSelection) : Option ℤ := s.release.seeders

end JobSelection

/-! ## Candidates -/

/-- `JobCandidate`. -/
structure JobCandidate where
  selection : JobSelection
  ordinal : ℤ
  outcome : CandidateOutcome
  deriving DecidableEq

/-- `JobCandidate{}`. -/
def JobCandidate.zero : JobCandidate := ⟨.zero, 0, .unsupported ""⟩

/-- The outcomes that `NewJobCandidate` accepts. -/
def supportedOutcome : CandidateOutcome → Checked Unit
  | .pending | .selected | .stalled | .missing | .unplayable => .ok ()
  | .unsupported text =>
      .error ("unsupported acquisition job candidate outcome: " ++ TextTables.quote text)

/-- `NewJobCandidate`. -/
def newJobCandidate (selection : JobSelection) (ordinal : ℤ) (outcome : CandidateOutcome) :
    Checked JobCandidate := do
  require ((cloneJobSelection selection).isOk = true)
    "acquisition job candidate requires a valid selection"
  require (0 ≤ ordinal ∧ ordinal < maximumJobCandidates)
    ("acquisition job candidate ordinal must be between 0 and " ++ toString (maximumJobCandidates - 1))
  supportedOutcome outcome
  let validated ← within "validate acquisition job candidate selection" (cloneJobSelection selection)
  return ⟨validated, ordinal, outcome⟩

theorem JobSelection.Settled.kind_ne {s : JobSelection} (h : s.Settled) : s.kind ≠ .unset := by
  intro hkind
  simp [JobSelection.Settled, cloneJobSelection, hkind] at h

theorem settled_torrent {s : JobSelection} (h : s.Settled) (hkind : s.kind = .torrent) :
    newTorrentJobSelection s.release = .ok s ∧ s.rangeCandidate = .zero := by
  simp only [JobSelection.Settled, cloneJobSelection, hkind, bind_eq_ok, require_eq_ok] at h
  obtain ⟨_, hrange, h⟩ := h
  exact ⟨h, hrange⟩

theorem settled_range {s : JobSelection} (h : s.Settled) (hkind : s.kind = .range) :
    newRangeJobSelection s.rangeCandidate = .ok s ∧ s.release = .zero := by
  simp only [JobSelection.Settled, cloneJobSelection, hkind, bind_eq_ok, require_eq_ok] at h
  obtain ⟨_, hrelease, h⟩ := h
  exact ⟨h, hrelease⟩

/-- What the fields of a settled selection satisfy. -/
structure SettledFields (s : JobSelection) : Prop where
  identity : s.identity ≠ ""
  size : 0 < s.size
  seeders : ∀ seeders ∈ s.seeders, 0 ≤ seeders
  infoHash : s.infoHash = if s.kind = .torrent then s.identity else ""
  noSeeders : s.kind = .range → s.seeders = none

theorem JobSelection.Settled.fields {s : JobSelection} (h : s.Settled) : SettledFields s := by
  cases hkind : s.kind with
  | unset => exact absurd hkind h.kind_ne
  | torrent =>
    obtain ⟨hnew, -⟩ := settled_torrent h hkind
    have hhash := (newTorrentJobSelection_settled hnew).2.2.2
    simp only [newTorrentJobSelection, bind_eq_ok, pure_eq_ok, require_eq_ok, within_eq_ok] at hnew
    obtain ⟨_, -, safe, hsafe, hs⟩ := hnew
    obtain ⟨-, -, -, hsize, hseeders⟩ := newRelease_safeInput hsafe
    have hrelease : s.release = safe := by rw [← hs]
    exact {
      identity := by simpa [JobSelection.identity, hkind] using hhash
      size := by simpa [JobSelection.size, hkind, hrelease] using hsize
      seeders := by simpa [JobSelection.seeders, hrelease] using hseeders
      infoHash := by simp [JobSelection.infoHash, JobSelection.identity, hkind]
      noSeeders := fun hrange => by rw [hkind] at hrange; cases hrange }
  | range =>
    obtain ⟨hnew, hrelease⟩ := settled_range h hkind
    simp only [newRangeJobSelection, bind_eq_ok, pure_eq_ok, within_eq_ok] at hnew
    obtain ⟨c, hc, hs⟩ := hnew
    have hrange : s.rangeCandidate = c := by rw [← hs]
    obtain ⟨-, -, hobject, hsize, -⟩ := newRangeCandidate_idem hc
    exact {
      identity := by simpa [JobSelection.identity, hkind, hrange] using hobject
      size := by simpa [JobSelection.size, hkind, hrange] using hsize
      seeders := by simp [JobSelection.seeders, hrelease, Release.zero]
      infoHash := by simp [JobSelection.infoHash, hrelease, Release.zero, hkind]
      noSeeders := fun _ => by simp [JobSelection.seeders, hrelease, Release.zero] }

/-- A candidate that `NewJobCandidate` returns. -/
structure SettledCandidate (c : JobCandidate) : Prop where
  selection : c.selection.Settled
  ordinal : 0 ≤ c.ordinal ∧ c.ordinal < maximumJobCandidates
  outcome : admittedOutcome c.outcome = true

omit [URLParser] in
theorem supportedOutcome_eq_ok {outcome : CandidateOutcome} {x : Unit} :
    supportedOutcome outcome = .ok x ↔ admittedOutcome outcome = true := by
  cases outcome <;> simp [supportedOutcome, admittedOutcome]

theorem newJobCandidate_settled {selection : JobSelection} {ordinal : ℤ} {outcome : CandidateOutcome}
    {c : JobCandidate} (h : newJobCandidate selection ordinal outcome = .ok c) :
    SettledCandidate c ∧ c.ordinal = ordinal ∧ c.outcome = outcome ∧
      cloneJobSelection selection = .ok c.selection := by
  simp only [newJobCandidate, bind_eq_ok, pure_eq_ok, require_eq_ok, within_eq_ok,
    supportedOutcome_eq_ok] at h
  obtain ⟨_, _, _, hordinal, _, houtcome, s, hs, rfl⟩ := h
  exact ⟨⟨cloneJobSelection_settled hs, hordinal, houtcome⟩, rfl, rfl, hs⟩

theorem SettledCandidate.again {c : JobCandidate} (h : SettledCandidate c) :
    newJobCandidate c.selection c.ordinal c.outcome = .ok c := by
  simp only [newJobCandidate, bind_eq_ok, pure_eq_ok, require_eq_ok, within_eq_ok,
    supportedOutcome_eq_ok]
  have hclone : cloneJobSelection c.selection = .ok c.selection := h.selection
  exact ⟨(), by rw [hclone]; rfl, (), h.ordinal, (), h.outcome, c.selection, hclone, rfl⟩

/-! ## Snapshots -/

/-- `AcquisitionJob`, and `JobSnapshotInput`, which has the same fields. Pairs of a value and the flag
that it is present are options. -/
structure AcquisitionJob where
  id : String
  request : SearchRequest
  state : JobState
  selection : Option JobSelection
  createdObject : Option CreatedObject
  selectedCandidateOrdinal : Option ℤ
  createdByJob : Bool
  publishedObjectID : String
  errorCode : JobErrorCode
  attempt : ℤ
  progress : ℤ
  createdAt : Time
  updatedAt : Time
  deriving DecidableEq

/-- `jobIDPattern`, which is also `validJobID`. -/
def validJobID (id : String) : Bool :=
  id.toList.length = 32 && id.toList.all fun c => ('0' ≤ c && c ≤ '9') || ('a' ≤ c && c ≤ 'f')

/-- `validateJobErrorCode`. -/
def validateJobErrorCode : JobErrorCode → Checked Unit
  | .unsupported text =>
      .error ("unsupported acquisition job error code: " ++ TextTables.quote text)
  | _ => .ok ()

/-- `validateJobSelection`. -/
def validateJobSelection : Option JobSelection → Checked (Option JobSelection)
  | none => .ok none
  | some selection => do
      require ((cloneJobSelection selection).isOk = true) "acquisition job selection is invalid"
      let validated ← within "validate acquisition job selection" (cloneJobSelection selection)
      return some validated

/-- `validateJobCreatedObject`. -/
def validateJobCreatedObject : Option CreatedObject → Checked (Option CreatedObject)
  | none => .ok none
  | some created => do
      let validated ← within "validate acquisition job provider object"
        (newCreatedObject created.backing.provider created.backing.objectID)
      return some validated

/-- `validateOptionalPublishedObjectID`. -/
def validateOptionalPublishedObjectID (value : String) : Checked String :=
  if value = "" then .ok ""
  else do
    require (hasControl value = false) "published object ID must not contain control characters"
    let clean := trimSpace value
    require (¬ (clean = "" ∨ clean ≠ value))
      "published object ID requires non-whitespace text without surrounding whitespace"
    require (byteLength clean ≤ maximumPublishedObjectIDBytes)
      ("published object ID must not exceed " ++ toString maximumPublishedObjectIDBytes ++ " bytes")
    return clean

/-- `validateJobStage`. -/
def validateJobStage (state : JobState) (hasSelection hasCreated : Bool) (published : String)
    (code : JobErrorCode) (progress : ℤ) : Checked Unit :=
  match state with
  | .queued => require (¬ (hasSelection ∨ hasCreated ∨ published ≠ "" ∨ progress ≠ 0))
      "queued acquisition job cannot contain provider results"
  | .selected => require (¬ (¬ hasSelection ∨ hasCreated ∨ published ≠ "" ∨ progress ≠ 0))
      "selected acquisition job requires only a durable release selection"
  | .preparing => require (¬ (¬ hasSelection ∨ ¬ hasCreated ∨ published ≠ "" ∨ 100 ≤ progress))
      "preparing acquisition job requires an unfinished provider object"
  | .succeeded => require (¬ (¬ hasSelection ∨ ¬ hasCreated ∨ published = "" ∨ progress ≠ 100 ∨
      code ≠ .none)) "succeeded acquisition job requires a published provider object"
  | .failed => require (¬ (published ≠ "" ∨ code = .none))
      "failed acquisition job requires a public-safe error code"
  | .manualReview => require (¬ (published ≠ "" ∨ code ≠ .ambiguousMutation))
      "manual-review acquisition job requires an ambiguous-mutation code"

/-- `validateSelectedCandidateOrdinal`. -/
def validateSelectedCandidateOrdinal (state : JobState) (hasSelection : Bool) :
    Option ℤ → Checked Unit
  | none => .ok ()
  | some ordinal => do
      require (0 ≤ ordinal ∧ ordinal < maximumJobCandidates)
        ("selected acquisition candidate ordinal must be between 0 and " ++
          toString (maximumJobCandidates - 1))
      require (hasSelection = true) "selected acquisition candidate requires a release selection"
      require (state = .selected ∨ state = .preparing ∨ state = .succeeded ∨ state = .manualReview)
        "acquisition job stage cannot contain a selected candidate ordinal"

/-- `validateCreatedByJob`. -/
def validateCreatedByJob (state : JobState) (hasCreated createdByJob : Bool) : Checked Unit :=
  if createdByJob = false then .ok ()
  else do
    require (hasCreated = true) "BlackPearl-created provenance requires a provider object"
    require (state = .preparing ∨ state = .succeeded ∨ state = .manualReview)
      "acquisition job stage cannot own a provider object"

/-- `NewAcquisitionJobSnapshot`. -/
def newAcquisitionJobSnapshot (input : AcquisitionJob) : Checked AcquisitionJob := do
  require (validJobID input.id = true) "acquisition job ID must be 32 lowercase hexadecimal characters"
  let request ← within "validate acquisition job request" (validateSearchRequest input.request)
  require (0 ≤ input.attempt) "acquisition job attempt must not be negative"
  require (0 ≤ input.progress ∧ input.progress ≤ 100)
    "acquisition job progress must be between 0 and 100"
  require (¬ (input.createdAt = zeroTime ∨ input.updatedAt = zeroTime ∨
    input.updatedAt < input.createdAt)) "acquisition job timestamps are invalid"
  validateJobErrorCode input.errorCode
  let selection ← validateJobSelection input.selection
  let created ← validateJobCreatedObject input.createdObject
  let published ← validateOptionalPublishedObjectID input.publishedObjectID
  validateJobStage input.state selection.isSome created.isSome published input.errorCode input.progress
  validateSelectedCandidateOrdinal input.state selection.isSome input.selectedCandidateOrdinal
  validateCreatedByJob input.state created.isSome input.createdByJob
  return { input with
    request := request
    selection := selection
    createdObject := created
    publishedObjectID := published }

/-- What `NewAcquisitionJobSnapshot` establishes: every part of the snapshot passes its own check
unchanged, and the parts fit the stage. -/
structure AcquisitionJob.Valid (job : AcquisitionJob) : Prop where
  id : validJobID job.id = true
  request : validateSearchRequest job.request = .ok job.request
  attempt : 0 ≤ job.attempt
  progress : 0 ≤ job.progress ∧ job.progress ≤ 100
  createdAt : job.createdAt ≠ zeroTime
  updatedAt : job.updatedAt ≠ zeroTime
  times : job.createdAt ≤ job.updatedAt
  errorCode : validateJobErrorCode job.errorCode = .ok ()
  selection : ∀ s ∈ job.selection, s.Settled
  createdObject : ∀ c ∈ job.createdObject, newCreatedObject c.backing.provider c.backing.objectID = .ok c
  published : validateOptionalPublishedObjectID job.publishedObjectID = .ok job.publishedObjectID
  stage : validateJobStage job.state job.selection.isSome job.createdObject.isSome
    job.publishedObjectID job.errorCode job.progress = .ok ()
  ordinal : validateSelectedCandidateOrdinal job.state job.selection.isSome
    job.selectedCandidateOrdinal = .ok ()
  owner : validateCreatedByJob job.state job.createdObject.isSome job.createdByJob = .ok ()

theorem validateJobSelection_eq_ok {input validated : Option JobSelection}
    (h : validateJobSelection input = .ok validated) :
    (∀ s ∈ validated, s.Settled) ∧ validated.isSome = input.isSome := by
  cases input with
  | none =>
    obtain rfl := Except.ok.inj h
    simp
  | some selection =>
    simp only [validateJobSelection, bind_eq_ok, pure_eq_ok, within_eq_ok] at h
    obtain ⟨_, _, s, hs, rfl⟩ := h
    simpa using cloneJobSelection_settled hs

theorem validateJobSelection_of_settled {selection : Option JobSelection}
    (h : ∀ s ∈ selection, s.Settled) : validateJobSelection selection = .ok selection := by
  cases selection with
  | none => rfl
  | some s =>
    have hs : cloneJobSelection s = .ok s := h s rfl
    simp only [validateJobSelection, bind_eq_ok, pure_eq_ok, require_eq_ok, within_eq_ok, hs]
    exact ⟨(), rfl, s, rfl, rfl⟩

omit [URLParser] in
theorem validateJobCreatedObject_eq_ok {input validated : Option CreatedObject}
    (h : validateJobCreatedObject input = .ok validated) : validated = input ∧
      ∀ c ∈ validated, newCreatedObject c.backing.provider c.backing.objectID = .ok c := by
  cases input with
  | none =>
    obtain rfl := Except.ok.inj h
    simp
  | some created =>
    simp only [validateJobCreatedObject, bind_eq_ok, pure_eq_ok, within_eq_ok] at h
    obtain ⟨c, hc, rfl⟩ := h
    obtain rfl := newCreatedObject_eq_ok hc
    simpa using hc

omit [URLParser] in
theorem validateJobCreatedObject_of_valid {created : Option CreatedObject}
    (h : ∀ c ∈ created, newCreatedObject c.backing.provider c.backing.objectID = .ok c) :
    validateJobCreatedObject created = .ok created := by
  cases created with
  | none => rfl
  | some c =>
    simp only [validateJobCreatedObject, bind_eq_ok, pure_eq_ok, within_eq_ok]
    exact ⟨c, h c rfl, rfl⟩

omit [TextTables] [URLParser] in
theorem validateOptionalPublishedObjectID_eq_ok {value clean : String}
    (h : validateOptionalPublishedObjectID value = .ok clean) : clean = value := by
  unfold validateOptionalPublishedObjectID at h
  split at h
  · next hempty => rw [hempty, Except.ok.inj h]
  · simp only [bind_eq_ok, pure_eq_ok, require_eq_ok] at h
    obtain ⟨_, _, _, hclean, _, _, rfl⟩ := h
    push Not at hclean
    exact hclean.2

/-- A snapshot that has been built is valid. -/
theorem newAcquisitionJobSnapshot_valid {input job : AcquisitionJob}
    (h : newAcquisitionJobSnapshot input = .ok job) : job.Valid := by
  simp only [newAcquisitionJobSnapshot, bind_eq_ok, pure_eq_ok, require_eq_ok, within_eq_ok] at h
  obtain ⟨_, hid, request, hrequest, _, hattempt, _, hprogress, _, htimes, _, hcode, selection,
    hselection, created, hcreated, published, hpublished, _, hstage, _, hordinal, _, howner, rfl⟩ := h
  simp only [not_or, Int.not_lt] at htimes
  obtain rfl := validateOptionalPublishedObjectID_eq_ok hpublished
  exact {
    id := hid
    request := (validateSearchRequest_idem hrequest).1
    attempt := hattempt
    progress := hprogress
    createdAt := htimes.1
    updatedAt := htimes.2.1
    times := htimes.2.2
    errorCode := hcode
    selection := (validateJobSelection_eq_ok hselection).1
    createdObject := (validateJobCreatedObject_eq_ok hcreated).2
    published := hpublished
    stage := hstage
    ordinal := hordinal
    owner := howner }

/-- A valid snapshot is built from itself. -/
theorem AcquisitionJob.Valid.snapshot {job : AcquisitionJob} (h : job.Valid) :
    newAcquisitionJobSnapshot job = .ok job := by
  simp only [newAcquisitionJobSnapshot, bind_eq_ok, pure_eq_ok, require_eq_ok, within_eq_ok]
  refine ⟨(), h.id, job.request, h.request, (), h.attempt, (), h.progress, (), ?_, (), h.errorCode,
    job.selection, validateJobSelection_of_settled h.selection, job.createdObject,
    validateJobCreatedObject_of_valid h.createdObject, job.publishedObjectID, h.published, (), h.stage,
    (), h.ordinal, (), h.owner, rfl⟩
  simp only [not_or, Int.not_lt]
  exact ⟨h.createdAt, h.updatedAt, h.times⟩

/-- A snapshot of validated parts is built as it is. -/
theorem newAcquisitionJobSnapshot_same {input job : AcquisitionJob}
    (h : newAcquisitionJobSnapshot input = .ok job)
    (hrequest : validateSearchRequest input.request = .ok input.request)
    (hselection : ∀ s ∈ input.selection, s.Settled) : job = input := by
  simp only [newAcquisitionJobSnapshot, bind_eq_ok, pure_eq_ok, require_eq_ok, within_eq_ok, hrequest,
    validateJobSelection_of_settled hselection, Except.ok.injEq] at h
  obtain ⟨_, _, request, rfl, _, _, _, _, _, _, _, _, selection, rfl, created, hcreated, published,
    hpublished, _, _, _, _, _, _, rfl⟩ := h
  obtain rfl := (validateJobCreatedObject_eq_ok hcreated).1
  obtain rfl := validateOptionalPublishedObjectID_eq_ok hpublished
  rfl

/-- A valid job that has not ended is not published. -/
theorem AcquisitionJob.Valid.unpublished {job : AcquisitionJob} (h : job.Valid)
    (hactive : job.state.active = true) : job.publishedObjectID = "" := by
  have hstage := h.stage
  cases hstate : job.state with
  | queued | selected | preparing =>
    rw [hstate] at hstage
    simp only [validateJobStage, require_eq_ok, not_or, not_not] at hstage
    tauto
  | succeeded | failed | manualReview =>
    rw [hstate] at hactive
    cases hactive

/-- A valid queued job has no selection and no provider object. -/
theorem AcquisitionJob.Valid.queued {job : AcquisitionJob} (h : job.Valid)
    (hstate : job.state = .queued) :
    job.selection = none ∧ job.createdObject = none ∧ job.selectedCandidateOrdinal = none ∧
      job.createdByJob = false := by
  have hstage := h.stage
  have hordinal := h.ordinal
  have howner := h.owner
  rw [hstate] at hstage hordinal howner
  simp only [validateJobStage, require_eq_ok, not_or, Bool.not_eq_true, Option.isSome_eq_false_iff,
    Option.isNone_iff_eq_none] at hstage
  refine ⟨hstage.1, hstage.2.1, ?_, ?_⟩
  · cases hk : job.selectedCandidateOrdinal with
    | none => rfl
    | some k =>
      simp [hk, hstage.1, validateSelectedCandidateOrdinal] at hordinal
  · cases hcreated : job.createdByJob with
    | false => rfl
    | true => simp [hcreated, validateCreatedByJob] at howner

/-- A valid selected job has a selection and no provider object. -/
theorem AcquisitionJob.Valid.selected {job : AcquisitionJob} (h : job.Valid)
    (hstate : job.state = .selected) :
    job.selection.isSome = true ∧ job.createdObject = none ∧ job.createdByJob = false := by
  have hstage := h.stage
  have howner := h.owner
  rw [hstate] at hstage howner
  simp only [validateJobStage, require_eq_ok, not_or, Bool.not_eq_true, Option.isSome_eq_false_iff,
    Option.isNone_iff_eq_none, not_not] at hstage
  refine ⟨Option.isSome_iff_ne_none.2 (by simpa using hstage.1), hstage.2.1, ?_⟩
  cases hcreated : job.createdByJob with
  | false => rfl
  | true => simp [hcreated, validateCreatedByJob] at howner

/-- `AcquisitionJob.Selection`: the zero selection when there is none. -/
def AcquisitionJob.selectionOrZero (job : AcquisitionJob) : JobSelection :=
  job.selection.getD .zero

/-- `AcquisitionJobClaim`. -/
structure AcquisitionJobClaim where
  job : AcquisitionJob
  leaseVersion : ℤ
  deriving DecidableEq

/-- `NewAcquisitionJobClaim`. -/
def newAcquisitionJobClaim (job : AcquisitionJob) (leaseVersion : ℤ) :
    Checked AcquisitionJobClaim := do
  require (job.id ≠ "") "acquisition job claim requires a validated job"
  require (1 ≤ leaseVersion) "acquisition job claim lease version must be positive"
  require (job.state.active = true) "terminal acquisition job cannot be leased"
  return ⟨job, leaseVersion⟩

end Checks

end BlackPearl.Acquisition
