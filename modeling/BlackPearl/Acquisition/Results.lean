import BlackPearl.Acquisition.Search

/-!
# Inspected and acquired media

The values of `internal/acquisition/result.go` that pass between a provider, the worker and the
publisher: what a provider reports of an object that it prepares, and the file that is published in the
end. The progress of an inspection is between 0 and 100 by its type.
-/

set_option autoImplicit false

namespace BlackPearl.Acquisition

open BlackPearl.Library BlackPearl.Domain

/-- `PreparationInspection`. -/
structure PreparationInspection where
  candidates : List MediaCandidate
  progress : ℤ
  bounded : 0 ≤ progress ∧ progress ≤ 100
  deriving DecidableEq

/-- `PreparationInspection{}`. -/
def PreparationInspection.zero : PreparationInspection := ⟨[], 0, by decide⟩

section Results

variable [TextTables]

/-- `AcquiredMedia`. -/
structure AcquiredMedia where
  request : SearchRequest
  release : Release
  candidate : MediaCandidate
  deriving DecidableEq

/-- The check of one candidate of an inspection. -/
def validatePreparationCandidate (candidate : MediaCandidate) : Checked MediaCandidate := do
  let item ← within "validate preparation candidate"
    (newProviderMediaCandidate candidate.backing candidate.name candidate.size)
  require (¬ (candidate.extension ≠ "" ∧ candidate.extension ≠ item.extension))
    "preparation candidate extension does not match its name"
  return item

/-- `NewPreparationInspection`. -/
def newPreparationInspection (candidates : List MediaCandidate) (progress : ℤ) :
    Checked PreparationInspection :=
  if h : 0 ≤ progress ∧ progress ≤ 100 then do
    let validated ← candidates.mapM validatePreparationCandidate
    return ⟨validated, progress, h⟩
  else .error "preparation progress must be between 0 and 100"

/-- The candidate of acquired media, checked again; `name` is what the messages call it. -/
def validateAcquiredCandidate (name : String) (candidate : MediaCandidate) : Checked MediaCandidate := do
  let validated ← within ("validate " ++ name)
    (newProviderMediaCandidate candidate.backing candidate.name candidate.size)
  require (¬ (candidate.extension ≠ "" ∧ candidate.extension ≠ validated.extension))
    (name ++ " extension does not match its name")
  return validated

/-- `NewAcquiredMedia`. -/
def newAcquiredMedia (request : SearchRequest) (release : Release) (candidate : MediaCandidate) :
    Checked AcquiredMedia := do
  let validatedRequest ← validateSearchRequest request
  require (¬ (release.protocol ≠ .torrent ∨ release.provider = "" ∨ release.sourceID = "" ∨
    release.infoHash = "")) "acquired media requires a validated torrent release with info hash"
  let validatedCandidate ← validateAcquiredCandidate "acquired media candidate" candidate
  return ⟨validatedRequest, release, validatedCandidate⟩

/-- `NewRangeAcquiredMedia`. -/
def newRangeAcquiredMedia (request : SearchRequest) (candidate : MediaCandidate) :
    Checked AcquiredMedia := do
  let validatedRequest ← validateSearchRequest request
  let validatedCandidate ← validateAcquiredCandidate "acquired range media candidate" candidate
  return ⟨validatedRequest, .zero, validatedCandidate⟩

end Results

end BlackPearl.Acquisition
