import BlackPearl.Library.Table
import BlackPearl.Acquisition.Job

/-!
# The tables of the job store

The rows of `acquisition_jobs` and `acquisition_job_candidates` with the constraints that the
migrations declare, and the readers `queryJob` and `queryCandidate` of
`internal/repository/acquisitionjob/repository.go`.

A column whose `CHECK` admits a fixed set of texts or the integers 0 and 1 has the type of its
values. `Records` and `candidateRow` say which rows stand for which values; the readers return these
values (`queryJob_of_records`, `queryCandidate_candidateRow`).
-/

set_option autoImplicit false

namespace BlackPearl.JobStore

open BlackPearl.Library BlackPearl.Domain BlackPearl.Acquisition

/-! ## Rows -/

/-- The columns that hold a selection in both tables. -/
structure SelectionColumns where
  kind : SelectionKind
  provider : String
  title : String
  size : ℤ
  indexer : String
  identity : String
  validator : String
  seeders : ℤ
  hasSeeders : Bool
  deriving DecidableEq, Repr

/-- The defaults of these columns. -/
def SelectionColumns.empty : SelectionColumns := ⟨.unset, "", "", 0, "", "", "", 0, false⟩

/-- A row of `acquisition_jobs`. -/
structure JobRow where
  id : String
  intentKey : String
  mediaType : MediaType
  title : String
  releaseYear : ℤ
  season : ℤ
  episode : ℤ
  state : JobState
  selected : SelectionColumns
  selectedInfoHash : String
  selectedCandidateOrdinal : ℤ
  createdProvider : String
  createdObjectID : String
  createdByJob : Bool
  publishedObjectID : String
  errorCode : JobErrorCode
  attemptCount : ℤ
  progress : ℤ
  leaseVersion : ℤ
  leaseUntilUnixMs : ℤ
  nextAttemptUnixMs : ℤ
  createdUnixMs : ℤ
  updatedUnixMs : ℤ
  deriving DecidableEq, Repr

/-- A row of `acquisition_job_candidates`, without its job. -/
structure CandidateRow where
  ordinal : ℤ
  selection : SelectionColumns
  outcome : CandidateOutcome
  deriving DecidableEq, Repr

/-- The `CHECK` constraints of `acquisition_jobs`. -/
def JobRow.checks (row : JobRow) : Bool :=
  row.mediaType ≠ .unset && 0 ≤ row.attemptCount && 0 ≤ row.progress && row.progress ≤ 100 &&
    0 ≤ row.leaseVersion && -1 ≤ row.selectedCandidateOrdinal && row.selectedCandidateOrdinal ≤ 4

/-- The `CHECK` constraints of `acquisition_job_candidates`. -/
def CandidateRow.checks (row : CandidateRow) : Bool :=
  0 ≤ row.ordinal && row.ordinal ≤ 4 && row.selection.kind ≠ .unset && 0 < row.selection.size &&
    0 ≤ row.selection.seeders && admittedOutcome row.outcome

theorem CandidateRow.checks_iff {row : CandidateRow} : row.checks = true ↔
    0 ≤ row.ordinal ∧ row.ordinal ≤ 4 ∧ row.selection.kind ≠ .unset ∧ 0 < row.selection.size ∧
      0 ≤ row.selection.seeders ∧ admittedOutcome row.outcome = true := by
  simp only [checks, Bool.and_eq_true, decide_eq_true_eq, and_assoc]

/-- The columns of the unique key next to the job. -/
def CandidateRow.identityKey (row : CandidateRow) : SelectionKind × String × String :=
  (row.selection.kind, row.selection.provider, row.selection.identity)

/-! ## Writing values into columns -/

section Columns

variable [TextTables]

/-- `persistedSeeders`. -/
def persistedSeeders (selection : JobSelection) : ℤ × Bool :=
  match selection.seeders with
  | some seeders => (seeders, true)
  | none => (0, false)

/-- `persistedValidator`. -/
def persistedValidator (selection : JobSelection) : String :=
  if selection.kind = .range then selection.rangeCandidate.validator else ""

/-- `restoredRangeValidator`. -/
def restoredRangeValidator (value : String) : String :=
  if value = "" then "blackpearl:legacy-unverified" else value

/-- The columns of a selection. -/
def selectionColumns (selection : JobSelection) : SelectionColumns where
  kind := selection.kind
  provider := selection.provider
  title := selection.title
  size := selection.size
  indexer := selection.indexer
  identity := selection.identity
  validator := persistedValidator selection
  seeders := (persistedSeeders selection).1
  hasSeeders := (persistedSeeders selection).2

/-- The row of a candidate. -/
def candidateRow (candidate : JobCandidate) : CandidateRow where
  ordinal := candidate.ordinal
  selection := selectionColumns candidate.selection
  outcome := candidate.outcome

end Columns

/-- `MediaType` as text. -/
def mediaTypeText : MediaType → String
  | .unset => ""
  | .movie => "movie"
  | .episode => "episode"

/-- `jobIntentKey`. -/
def jobIntentKey [TextTables] (request : SearchRequest) : String :=
  mediaTypeText request.mediaType ++ "\x00" ++ toLowerString request.title ++ "\x00" ++
    toString request.year ++ "\x00" ++ toString request.season ++ "\x00" ++ toString request.episode

/-- The intent columns of a row. -/
def JobRow.request (row : JobRow) : SearchRequest :=
  ⟨row.mediaType, row.title, row.releaseYear, row.season, row.episode⟩

/-! ## Reading rows -/

/-- `persistedRequest`. -/
def persistedRequest [TextTables] (mediaType : MediaType) (title : String) (year season episode : ℤ) :
    Checked SearchRequest :=
  match mediaType with
  | .movie => newMovieSearch title year
  | .episode => newEpisodeSearch title year season episode
  | .unset => .error ("unsupported persisted media type: " ++ TextTables.quote "")

section Readers

variable [TextTables] [URLParser]

/-- The release that the columns of a torrent selection stand for. -/
def persistedReleaseInput (columns : SelectionColumns) : ReleaseInput where
  provider := columns.provider
  sourceID := "torrent:" ++ columns.identity
  title := columns.title
  protocol := .torrent
  size := columns.size
  indexer := columns.indexer
  infoHash := columns.identity
  magnetURL := ""
  downloadURL := ""
  seeders := if columns.hasSeeders then some columns.seeders else none

/-- The torrent selection of a row, with the contexts that a reader puts before its errors. -/
def persistedTorrent (releaseContext selectionContext : String) (columns : SelectionColumns) :
    Checked JobSelection := do
  let release ← within releaseContext (newRelease (persistedReleaseInput columns))
  within selectionContext (newTorrentJobSelection release)

/-- The range selection of a row, with the contexts that a reader puts before its errors. -/
def persistedRange (mediaContext selectionContext : String) (columns : SelectionColumns) :
    Checked JobSelection := do
  let media ← within mediaContext
    (newProviderMediaCandidate ⟨columns.provider, columns.identity⟩ columns.title columns.size)
  let candidate ← within "validate persisted range candidate"
    (newRangeCandidate media columns.indexer (restoredRangeValidator columns.validator))
  within selectionContext (newRangeJobSelection candidate)

/-- The part of `queryJob` that reads the selection. -/
def queryJobSelection (row : JobRow) : Checked (Option JobSelection) :=
  if row.selected.identity = "" then .ok none
  else
    match row.selected.kind with
    | .torrent => do
        require (row.selectedInfoHash = row.selected.identity)
          "persisted torrent selection identity mismatch"
        let value ← persistedTorrent "validate persisted acquisition release"
          "validate persisted acquisition selection" row.selected
        return some value
    | .range => do
        require (¬ (row.selectedInfoHash ≠ "" ∨ row.selected.seeders ≠ 0 ∨ row.selected.hasSeeders))
          "persisted range selection contains torrent metadata"
        let value ← persistedRange "validate persisted range media"
          "validate persisted range selection" row.selected
        return some value
    | .unset => .error ("unsupported persisted acquisition selection kind: " ++ TextTables.quote "")

/-- The part of `queryJob` that reads the provider object. -/
def queryJobObject (row : JobRow) : Checked (Option CreatedObject) :=
  if row.createdObjectID = "" then .ok none
  else do
    let value ← within "validate persisted acquisition object"
      (newCreatedObject row.createdProvider row.createdObjectID)
    return some value

/-- `queryJob`. -/
def queryJob (row : JobRow) : Checked AcquisitionJob := do
  let request ← within "validate persisted acquisition intent"
    (persistedRequest row.mediaType row.title row.releaseYear row.season row.episode)
  let selection ← queryJobSelection row
  let created ← queryJobObject row
  newAcquisitionJobSnapshot {
    id := row.id
    request := request
    state := row.state
    selection := selection
    createdObject := created
    selectedCandidateOrdinal :=
      if 0 ≤ row.selectedCandidateOrdinal then some row.selectedCandidateOrdinal else none
    createdByJob := row.createdByJob
    publishedObjectID := row.publishedObjectID
    errorCode := row.errorCode
    attempt := row.attemptCount
    progress := row.progress
    createdAt := timeOfUnixMilli row.createdUnixMs
    updatedAt := timeOfUnixMilli row.updatedUnixMs }

/-- The part of `queryCandidate` that reads the selection. -/
def queryCandidateSelection (row : CandidateRow) : Checked JobSelection :=
  match row.selection.kind with
  | .torrent => persistedTorrent "validate persisted acquisition candidate release"
      "validate persisted acquisition candidate selection" row.selection
  | .range => do
      require (¬ (row.selection.seeders ≠ 0 ∨ row.selection.hasSeeders))
        "persisted range candidate contains torrent metadata"
      persistedRange "validate persisted range candidate media"
        "validate persisted acquisition candidate selection" row.selection
  | .unset => .error ("unsupported persisted acquisition candidate kind: " ++ TextTables.quote "")

/-- `queryCandidate`. -/
def queryCandidate (row : CandidateRow) : Checked JobCandidate := do
  let selection ← queryCandidateSelection row
  within "validate persisted acquisition candidate" (newJobCandidate selection row.ordinal row.outcome)

end Readers

/-! ## Which rows stand for which values -/

section Records

variable [TextTables] [URLParser]

omit [URLParser] in
/-- A seed count and its flag stand for an optional seed count. -/
theorem persistedSeeders_restored (selection : JobSelection) :
    (if (persistedSeeders selection).2 then some (persistedSeeders selection).1 else none) =
      selection.seeders := by
  unfold persistedSeeders
  cases selection.seeders <;> rfl

/-- The columns of a torrent selection are read as this selection. -/
theorem persistedTorrent_selectionColumns {s : JobSelection} (h : s.Settled)
    (hkind : s.kind = .torrent) (releaseContext selectionContext : String) :
    persistedTorrent releaseContext selectionContext (selectionColumns s) = .ok s := by
  obtain ⟨hnew, -⟩ := settled_torrent h hkind
  have hnew' := hnew
  simp only [newTorrentJobSelection, bind_eq_ok, pure_eq_ok, require_eq_ok, within_eq_ok] at hnew'
  obtain ⟨_, htorrent, safe, hsafe, hs⟩ := hnew'
  push Not at htorrent
  have hinput : persistedReleaseInput (selectionColumns s) = safeInput s.release := by
    simp only [persistedReleaseInput, selectionColumns, safeInput, JobSelection.provider,
      JobSelection.identity, JobSelection.title, JobSelection.size, JobSelection.indexer, hkind,
      reduceCtorEq, if_false, htorrent.1, persistedSeeders_restored, JobSelection.seeders]
  simp only [persistedTorrent, bind_eq_ok, within_eq_ok, hinput]
  refine ⟨s.release, ?_, hnew⟩
  rw [hsafe, ← hs]

/-- The columns of a range selection are read as this selection: its validator is not empty. -/
theorem persistedRange_selectionColumns {s : JobSelection} (h : s.Settled)
    (hkind : s.kind = .range) (mediaContext selectionContext : String) :
    persistedRange mediaContext selectionContext (selectionColumns s) = .ok s := by
  obtain ⟨hnew, -⟩ := settled_range h hkind
  have hnew' := hnew
  simp only [newRangeJobSelection, bind_eq_ok, pure_eq_ok, within_eq_ok] at hnew'
  obtain ⟨c, hc, hs⟩ := hnew'
  have hrange : s.rangeCandidate = c := by rw [← hs]
  obtain ⟨hagain, hmedia, hobject, hsize, hvalidator⟩ := newRangeCandidate_idem hc
  obtain ⟨-, -, -, -, hbacking, -⟩ := newProviderMediaCandidate_idem hmedia
  have hrestored : restoredRangeValidator c.validator = c.validator := if_neg hvalidator
  simp only [persistedRange, bind_eq_ok, within_eq_ok, selectionColumns, JobSelection.provider,
    JobSelection.identity, JobSelection.title, JobSelection.size, JobSelection.indexer,
    persistedValidator, hkind, if_true, hrange, hbacking, hrestored]
  exact ⟨c.media, hmedia, c, hagain, hrange ▸ hnew⟩
/-- The row of a settled candidate is read as this candidate. -/
theorem queryCandidate_candidateRow {c : JobCandidate} (h : SettledCandidate c) :
    queryCandidate (candidateRow c) = .ok c := by
  have hselection : queryCandidateSelection (candidateRow c) = .ok c.selection := by
    unfold queryCandidateSelection
    cases hkind : c.selection.kind with
    | unset => exact absurd hkind h.selection.kind_ne
    | torrent =>
      simp only [candidateRow, selectionColumns, hkind]
      exact persistedTorrent_selectionColumns h.selection hkind _ _
    | range =>
      have hnone := h.selection.fields.noSeeders hkind
      simp only [candidateRow, selectionColumns, hkind, bind_eq_ok, require_eq_ok]
      exact ⟨(), by simp [persistedSeeders, hnone],
        persistedRange_selectionColumns h.selection hkind _ _⟩
  simp only [queryCandidate, bind_eq_ok, within_eq_ok]
  exact ⟨c.selection, hselection, h.again⟩

/-- The row of a settled candidate satisfies its constraints. -/
theorem candidateRow_checks {c : JobCandidate} (h : SettledCandidate c) :
    (candidateRow c).checks = true := by
  have hfields := h.selection.fields
  have hmax : c.ordinal ≤ 4 := by
    have hlt := h.ordinal.2
    simp only [maximumJobCandidates] at hlt
    omega
  have hseeders : 0 ≤ (persistedSeeders c.selection).1 := by
    unfold persistedSeeders
    cases hs : c.selection.seeders with
    | none => exact le_refl 0
    | some seeders => exact hfields.seeders seeders hs
  exact CandidateRow.checks_iff.2
    ⟨h.ordinal.1, hmax, h.selection.kind_ne, hfields.size, hseeders, h.outcome⟩

/-- The row `row` stands for the job `job`. -/
structure Records (row : JobRow) (job : AcquisitionJob) : Prop where
  id : row.id = job.id
  mediaType : row.mediaType = job.request.mediaType
  title : row.title = job.request.title
  year : row.releaseYear = job.request.year
  season : row.season = job.request.season
  episode : row.episode = job.request.episode
  state : row.state = job.state
  selected : row.selected = (job.selection.map selectionColumns).getD .empty
  infoHash : row.selectedInfoHash = (job.selection.map JobSelection.infoHash).getD ""
  created : row.createdProvider = (job.createdObject.map fun c => c.backing.provider).getD "" ∧
    row.createdObjectID = (job.createdObject.map fun c => c.backing.objectID).getD ""
  ordinal : row.selectedCandidateOrdinal = job.selectedCandidateOrdinal.getD (-1)
  createdByJob : row.createdByJob = job.createdByJob
  published : row.publishedObjectID = job.publishedObjectID
  errorCode : row.errorCode = job.errorCode
  attempt : row.attemptCount = job.attempt
  progress : row.progress = job.progress
  createdAt : timeOfUnixMilli row.createdUnixMs = job.createdAt
  updatedAt : timeOfUnixMilli row.updatedUnixMs = job.updatedAt

omit [URLParser] in
theorem persistedRequest_of_valid {request : SearchRequest}
    (h : validateSearchRequest request = .ok request) :
    persistedRequest request.mediaType request.title request.year request.season request.episode =
      .ok request := by
  unfold validateSearchRequest at h
  unfold persistedRequest
  split at h <;> simp_all

theorem Records.selection_eq {row : JobRow} {job : AcquisitionJob} (h : Records row job)
    (hvalid : ∀ s ∈ job.selection, s.Settled) : queryJobSelection row = .ok job.selection := by
  unfold queryJobSelection
  cases hs : job.selection with
  | none =>
    have hempty : row.selected = .empty := by simpa [hs] using h.selected
    simp [hempty, SelectionColumns.empty]
  | some s =>
    have hsettled := hvalid s hs
    have hselected : row.selected = selectionColumns s := by simpa [hs] using h.selected
    have hhash : row.selectedInfoHash = s.infoHash := by simpa [hs] using h.infoHash
    have hfields := hsettled.fields
    rw [hselected, if_neg (by exact hfields.identity)]
    cases hkind : s.kind with
    | unset => exact absurd hkind hsettled.kind_ne
    | torrent =>
      simp only [selectionColumns, hkind, bind_eq_ok, require_eq_ok, pure_eq_ok]
      refine ⟨(), ?_, s, persistedTorrent_selectionColumns hsettled hkind _ _, rfl⟩
      rw [hhash, hfields.infoHash, if_pos hkind]
    | range =>
      have hnone := hfields.noSeeders hkind
      simp only [selectionColumns, hkind, bind_eq_ok, require_eq_ok, pure_eq_ok]
      refine ⟨(), ?_, s, persistedRange_selectionColumns hsettled hkind _ _, rfl⟩
      have hno : s.infoHash = "" := by rw [hfields.infoHash, hkind]; rfl
      simp [hhash, hno, persistedSeeders, hnone]

omit [URLParser] in
theorem Records.object_eq {row : JobRow} {job : AcquisitionJob} (h : Records row job)
    (hvalid : ∀ c ∈ job.createdObject, newCreatedObject c.backing.provider c.backing.objectID = .ok c) :
    queryJobObject row = .ok job.createdObject := by
  unfold queryJobObject
  obtain ⟨hprovider, hobject⟩ := h.created
  cases hc : job.createdObject with
  | none => simp [hobject, hc]
  | some c =>
    have hcreated := hvalid c hc
    have hnonempty := newCreatedObject_nonempty hcreated
    simp only [hc, Option.map_some, Option.getD_some] at hprovider hobject
    rw [hobject, hprovider, if_neg hnonempty.2]
    simp only [bind_eq_ok, pure_eq_ok, within_eq_ok]
    exact ⟨c, hcreated, rfl⟩

/-- A row that stands for a valid job is read as this job. -/
theorem queryJob_of_records {row : JobRow} {job : AcquisitionJob} (h : Records row job)
    (hvalid : job.Valid) : queryJob row = .ok job := by
  have hrequest : persistedRequest row.mediaType row.title row.releaseYear row.season row.episode =
      .ok job.request := by
    rw [h.mediaType, h.title, h.year, h.season, h.episode]
    exact persistedRequest_of_valid hvalid.request
  have hordinal : (if 0 ≤ row.selectedCandidateOrdinal then some row.selectedCandidateOrdinal
      else none) = job.selectedCandidateOrdinal := by
    rw [h.ordinal]
    cases hk : job.selectedCandidateOrdinal with
    | none => rfl
    | some k =>
      have hvalidOrdinal := hvalid.ordinal
      simp only [hk, validateSelectedCandidateOrdinal, bind_eq_ok, require_eq_ok] at hvalidOrdinal
      obtain ⟨_, hrange, -⟩ := hvalidOrdinal
      simp [hrange.1]
  simp only [queryJob, bind_eq_ok, within_eq_ok]
  refine ⟨job.request, hrequest, job.selection, h.selection_eq hvalid.selection, job.createdObject,
    h.object_eq hvalid.createdObject, ?_⟩
  rw [hordinal, h.id, h.state, h.createdByJob, h.published, h.errorCode, h.attempt, h.progress,
    h.createdAt, h.updatedAt]
  exact hvalid.snapshot

/-- A job that has been read has the plain columns of its row. -/
structure ReadFrom (row : JobRow) (job : AcquisitionJob) : Prop where
  valid : job.Valid
  id : job.id = row.id
  state : job.state = row.state
  selection : queryJobSelection row = .ok job.selection
  createdObject : queryJobObject row = .ok job.createdObject
  ordinal : job.selectedCandidateOrdinal =
    if 0 ≤ row.selectedCandidateOrdinal then some row.selectedCandidateOrdinal else none
  createdByJob : job.createdByJob = row.createdByJob
  published : job.publishedObjectID = row.publishedObjectID
  errorCode : job.errorCode = row.errorCode
  progress : job.progress = row.progress
  createdAt : job.createdAt = timeOfUnixMilli row.createdUnixMs

theorem queryJobSelection_settled {row : JobRow} {selection : Option JobSelection}
    (h : queryJobSelection row = .ok selection) : ∀ s ∈ selection, s.Settled := by
  unfold queryJobSelection at h
  split at h
  · cases h
    simp
  · split at h
    · simp only [persistedTorrent, bind_eq_ok, pure_eq_ok, within_eq_ok] at h
      obtain ⟨_, _, s, ⟨_, _, hs⟩, rfl⟩ := h
      simpa using (newTorrentJobSelection_settled hs).1
    · simp only [persistedRange, bind_eq_ok, pure_eq_ok, within_eq_ok] at h
      obtain ⟨_, _, s, ⟨_, _, _, _, hs⟩, rfl⟩ := h
      simpa using (newRangeJobSelection_settled hs).1
    · cases h

theorem queryJob_readFrom {row : JobRow} {job : AcquisitionJob} (h : queryJob row = .ok job) :
    ReadFrom row job := by
  simp only [queryJob, bind_eq_ok, within_eq_ok] at h
  obtain ⟨request, -, selection, hselection, created, hcreated, hsnapshot⟩ := h
  have hvalid := newAcquisitionJobSnapshot_valid hsnapshot
  simp only [newAcquisitionJobSnapshot, bind_eq_ok, pure_eq_ok, within_eq_ok] at hsnapshot
  obtain ⟨_, -, request', -, _, -, _, -, _, -, _, -, selection', hselection', created', hcreated',
    published, hpublished, _, -, _, -, _, -, rfl⟩ := hsnapshot
  rw [validateJobSelection_of_settled (queryJobSelection_settled hselection)] at hselection'
  obtain rfl := Except.ok.inj hselection'
  obtain rfl := (validateJobCreatedObject_eq_ok hcreated').1
  obtain rfl := validateOptionalPublishedObjectID_eq_ok hpublished
  exact {
    valid := hvalid
    id := rfl
    state := rfl
    selection := hselection
    createdObject := hcreated
    ordinal := rfl
    createdByJob := rfl
    published := rfl
    errorCode := rfl
    progress := rfl
    createdAt := rfl }

end Records

end BlackPearl.JobStore
