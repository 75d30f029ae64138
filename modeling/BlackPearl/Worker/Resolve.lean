import BlackPearl.JobStore.CandidatePlan

/-!
# The candidate plan of a job

The step `resolve` of `internal/service/acquisitionjob/worker.go`: releases that a provider has cached,
files that can be read in place, and other releases become one plan of at most five candidates, in this
order. A release whose hash does not pass its check a second time is skipped without a word
(`storableHash`), which is the one thing that can leave a gap in the plan.
-/

set_option autoImplicit false

namespace BlackPearl.Worker

open BlackPearl.Library BlackPearl.Acquisition BlackPearl.JobStore

/-- `maximumCacheProbeCandidates`. -/
def maximumCacheProbeCandidates : ℕ := 100

section Plan

variable [TextTables]

/-- The loop of `resolve` over the releases found, given the hashes seen so far. -/
def collectEligible (seen : List String) : List Release → List Release
  | [] => []
  | release :: rest =>
      if release.protocol ≠ .torrent ∨ release.infoHash = "" then collectEligible seen rest
      else if seen.contains release.infoHash then collectEligible seen rest
      else if seen.length + 1 = maximumCacheProbeCandidates then [release]
      else release :: collectEligible (release.infoHash :: seen) rest

/-- The hashes that `partitionCached` takes as cached. -/
def cachedHashes (eligible cached : List Release) : List String :=
  (cached.map Release.infoHash).filter fun hash => (eligible.map Release.infoHash).contains hash

/-- `partitionCached`. -/
def partitionCached (eligible cached : List Release) : List Release × List Release :=
  let hashes := cachedHashes eligible cached
  (eligible.filter fun release => hashes.contains release.infoHash,
    eligible.filter fun release => !hashes.contains release.infoHash)

variable [URLParser]

/-- `appendJobCandidate`. -/
def appendJobCandidate (candidates : List JobCandidate) (selection : JobSelection) :
    List JobCandidate :=
  let outcome := if candidates.length = 0 then CandidateOutcome.selected else .pending
  match newJobCandidate selection candidates.length outcome with
  | .ok candidate => candidates ++ [candidate]
  | .error _ => candidates

/-- The loops of `resolve` that fill the plan up to a limit. -/
def appendSelections (limit : ℕ) (candidates : List JobCandidate) :
    List (Checked JobSelection) → List JobCandidate
  | [] => candidates
  | .error _ :: rest =>
      if candidates.length = limit then candidates else appendSelections limit candidates rest
  | .ok selection :: rest =>
      if candidates.length = limit then candidates
      else appendSelections limit (appendJobCandidate candidates selection) rest

/-- The plan that `resolve` builds. -/
def planCandidates (eligible cached : List Release) (direct : List RangeCandidate) :
    List JobCandidate :=
  let parts := partitionCached eligible cached
  let cachedLimit := if 0 < direct.length then maximumJobCandidates - 1 else maximumJobCandidates
  let candidates := appendSelections cachedLimit [] (parts.1.map newTorrentJobSelection)
  let candidates := appendSelections maximumJobCandidates candidates (direct.map newRangeJobSelection)
  appendSelections maximumJobCandidates candidates (parts.2.map newTorrentJobSelection)

/-- What `resolve` asks of the job store. -/
inductive Resolution (ε : Type)
  | deferred (err : ε)
  | failed (code : JobErrorCode)
  | planned (candidates : List JobCandidate)

/-- The end of `resolve`. -/
def resolvePlan {ε : Type} (candidates : List JobCandidate) (directErr : Option ε) : Resolution ε :=
  if candidates.length = 0 then
    match directErr with
    | some err => .deferred err
    | none => .failed .noRelease
  else .planned candidates

/-- `resolve` after the searches, with the cache probe. -/
def resolveEligible {ε : Type} (eligible : List Release) (direct : List RangeCandidate × Option ε)
    (cachedTorrents : List Release → List Release × Option ε) : Resolution ε :=
  let probe := if 0 < eligible.length then cachedTorrents eligible else ([], none)
  match probe.2 with
  | some cacheErr =>
      if direct.1.length = 0 then .deferred cacheErr
      else resolvePlan (planCandidates eligible [] direct.1) direct.2
  | none => resolvePlan (planCandidates eligible probe.1 direct.1) direct.2

/-- `resolve`, given what the searcher, the direct resolver (if there is one) and the cache probe
return: a list, and an error if there was one. -/
def resolve {ε : Type} (search : List Release × Option ε)
    (directResolver : Option (List RangeCandidate × Option ε))
    (cachedTorrents : List Release → List Release × Option ε) : Resolution ε :=
  let eligible := collectEligible [] search.1
  let direct := directResolver.getD ([], none)
  match search.2 with
  | some searchErr =>
      if direct.2.isSome ∨ direct.1.length = 0 then .deferred searchErr
      else resolveEligible eligible direct cachedTorrents
  | none => resolveEligible eligible direct cachedTorrents

end Plan

/-! ## Eligible releases -/

section Eligible

variable [TextTables]

theorem collectEligible_sublist : ∀ (seen : List String) (releases : List Release),
    (collectEligible seen releases).Sublist releases
  | _, [] => List.Sublist.refl []
  | seen, release :: rest => by
    rw [collectEligible]
    split_ifs
    · exact (collectEligible_sublist seen rest).cons release
    · exact (collectEligible_sublist seen rest).cons release
    · exact (List.nil_sublist rest).cons_cons release
    · exact (collectEligible_sublist _ rest).cons_cons release

/-- Eligible releases are torrents with pairwise distinct hashes. -/
theorem collectEligible_spec : ∀ (seen : List String) (releases : List Release),
    (∀ r ∈ collectEligible seen releases,
      r.protocol = .torrent ∧ r.infoHash ≠ "" ∧ r.infoHash ∉ seen) ∧
      ((collectEligible seen releases).map Release.infoHash).Nodup
  | _, [] => ⟨nofun, List.nodup_nil⟩
  | seen, release :: rest => by
    obtain ⟨hall, hnodup⟩ := collectEligible_spec seen rest
    rw [collectEligible]
    split_ifs with hother hseen hfull
    · exact ⟨hall, hnodup⟩
    · exact ⟨hall, hnodup⟩
    · push Not at hother
      rw [List.contains_iff_mem] at hseen
      refine ⟨fun r hr => ?_, List.nodup_singleton _⟩
      rw [List.mem_singleton.1 hr]
      exact ⟨hother.1, hother.2, hseen⟩
    · push Not at hother
      rw [List.contains_iff_mem] at hseen
      obtain ⟨hall', hnodup'⟩ := collectEligible_spec (release.infoHash :: seen) rest
      constructor
      · rintro r (_ | ⟨_, hr⟩)
        · exact ⟨hother.1, hother.2, hseen⟩
        · obtain ⟨htorrent, hhash, hnew⟩ := hall' r hr
          exact ⟨htorrent, hhash, fun hmem => hnew (List.mem_cons_of_mem _ hmem)⟩
      · rw [List.map_cons, List.nodup_cons]
        refine ⟨fun hmem => ?_, hnodup'⟩
        obtain ⟨r, hr, hsame⟩ := List.mem_map.1 hmem
        exact (hall' r hr).2.2 (hsame ▸ List.mem_cons_self)

theorem mem_cachedHashes {eligible cached : List Release} {r : Release} (hr : r ∈ eligible) :
    r.infoHash ∈ cachedHashes eligible cached ↔ r.infoHash ∈ cached.map Release.infoHash := by
  rw [cachedHashes, List.mem_filter, List.contains_iff_mem]
  exact and_iff_left (List.mem_map_of_mem hr)

/-- The releases that the provider has cached, and the others, each in their order. -/
theorem partitionCached_disjoint {eligible cached : List Release} {r r' : Release}
    (hr : r ∈ (partitionCached eligible cached).1) (hr' : r' ∈ (partitionCached eligible cached).2) :
    r.infoHash ≠ r'.infoHash := by
  have hin := (List.mem_filter.1 hr).2
  have hout := (List.mem_filter.1 hr').2
  intro hsame
  rw [hsame] at hin
  rw [hin] at hout
  cases hout

theorem mem_eligible_iff {eligible cached : List Release} {r : Release} :
    r ∈ eligible ↔ r ∈ (partitionCached eligible cached).1 ∨ r ∈ (partitionCached eligible cached).2 := by
  rw [partitionCached, List.mem_filter, List.mem_filter]
  cases (cachedHashes eligible cached).contains r.infoHash <;> simp

end Eligible

/-! ## Filling the plan -/

section Filling

variable [TextTables] [URLParser]

/-- The candidate for a selection at a place of the plan. -/
def candidateAt (place : ℕ) (selection : JobSelection) : JobCandidate :=
  ⟨selection, place, if place = 0 then .selected else .pending⟩

/-- A plan of selections in their order. -/
def numbered (selections : List JobSelection) : List JobCandidate := selections.mapIdx candidateAt

/-- The selections that passed their check. -/
def passed (selections : List (Checked JobSelection)) : List JobSelection :=
  selections.filterMap Except.toOption

omit [URLParser] in
@[simp] theorem length_numbered (selections : List JobSelection) :
    (numbered selections).length = selections.length :=
  List.length_mapIdx

omit [URLParser] in
theorem map_selection_numbered (selections : List JobSelection) :
    (numbered selections).map JobCandidate.selection = selections := by
  apply List.ext_getElem
  · rw [List.length_map, length_numbered]
  · intro i _ _
    simp [numbered, candidateAt]

theorem candidateAt_settled {place : ℕ} {selection : JobSelection} (h : selection.Settled)
    (hplace : place < maximumJobCandidates) : SettledCandidate (candidateAt place selection) := by
  refine ⟨h, ⟨Int.natCast_nonneg place, Int.ofNat_lt.2 hplace⟩, ?_⟩
  unfold candidateAt
  split <;> rfl

/-- A settled selection is put at the end of a plan that is not full. -/
theorem appendJobCandidate_numbered {selections : List JobSelection} {selection : JobSelection}
    (h : selection.Settled) (hroom : selections.length < maximumJobCandidates) :
    appendJobCandidate (numbered selections) selection = numbered (selections ++ [selection]) := by
  have hagain := (candidateAt_settled h hroom).again
  have hlast : numbered (selections ++ [selection]) =
      numbered selections ++ [candidateAt selections.length selection] := by
    simp [numbered, List.mapIdx_append]
  rw [appendJobCandidate, length_numbered, hlast]
  simp only [candidateAt] at hagain ⊢
  rw [hagain]

/-- A loop puts the selections that passed at the end of the plan, up to its limit. -/
theorem appendSelections_numbered {limit : ℕ} (hlimit : limit ≤ maximumJobCandidates) :
    ∀ {rest : List (Checked JobSelection)} {selections : List JobSelection},
      (∀ s, .ok s ∈ rest → s.Settled) → selections.length ≤ limit →
      appendSelections limit (numbered selections) rest =
        numbered (selections ++ (passed rest).take (limit - selections.length))
  | [], selections, _, _ => by rw [appendSelections, passed, List.filterMap_nil, List.take_nil,
      List.append_nil]
  | .error message :: rest, selections, hsettled, hlen => by
    have hskip : passed (.error message :: rest) = passed rest := rfl
    rw [appendSelections, length_numbered, hskip]
    split_ifs with hfull
    · rw [hfull, Nat.sub_self, List.take_zero, List.append_nil]
    · exact appendSelections_numbered hlimit (fun s hs => hsettled s (List.mem_cons_of_mem _ hs)) hlen
  | .ok selection :: rest, selections, hsettled, hlen => by
    have hkeep : passed (.ok selection :: rest) = selection :: passed rest := rfl
    rw [appendSelections, length_numbered, hkeep]
    split_ifs with hfull
    · rw [hfull, Nat.sub_self, List.take_zero, List.append_nil]
    · have hroom : selections.length < limit := lt_of_le_of_ne hlen hfull
      have hlonger : (selections ++ [selection]).length ≤ limit := by
        rw [List.length_append, List.length_singleton]
        exact hroom
      have hsplit : limit - selections.length = limit - (selections ++ [selection]).length + 1 := by
        rw [List.length_append, List.length_singleton]
        omega
      rw [appendJobCandidate_numbered (hsettled selection List.mem_cons_self)
          (hroom.trans_le hlimit),
        appendSelections_numbered hlimit (fun s hs => hsettled s (List.mem_cons_of_mem _ hs)) hlonger,
        hsplit, List.take_succ_cons, List.append_assoc, List.singleton_append]

/-- The store accepts a plan of settled selections with distinct identities. -/
theorem validateCandidatesFrom_numbered : ∀ {selections : List JobSelection} {index : ℕ}
    {identities : List (SelectionKind × String × String)}, (∀ s ∈ selections, s.Settled) →
    index + selections.length ≤ maximumJobCandidates →
    (selections.map fun s => (s.kind, s.provider, s.identity)).Nodup →
    (∀ s ∈ selections, (s.kind, s.provider, s.identity) ∉ identities) →
    validateCandidatesFrom index identities (selections.mapIdx fun i => candidateAt (index + i)) =
      .ok (selections.mapIdx fun i => candidateAt (index + i))
  | [], _, _, _, _, _, _ => rfl
  | s :: rest, index, identities, hsettled, hlen, hnodup, hnew => by
    rw [List.length_cons] at hlen
    have hplace : index < maximumJobCandidates := by omega
    have hagain := (candidateAt_settled (hsettled s List.mem_cons_self) hplace).again
    rw [List.map_cons, List.nodup_cons] at hnodup
    obtain ⟨hfirst, hnodup⟩ := hnodup
    have hshift : (fun i => candidateAt (index + (i + 1))) = fun i => candidateAt (index + 1 + i) := by
      funext i
      rw [Nat.add_assoc, Nat.add_comm 1]
    have hrest : validateCandidatesFrom (index + 1) ((s.kind, s.provider, s.identity) :: identities)
        (rest.mapIdx fun i => candidateAt (index + 1 + i)) = _ := validateCandidatesFrom_numbered
      (fun t ht => hsettled t (List.mem_cons_of_mem s ht)) (by omega) hnodup (fun t ht hmem => by
        rcases List.mem_cons.1 hmem with hsame | hmem
        · exact hfirst (List.mem_map.2 ⟨t, ht, hsame⟩)
        · exact hnew t (List.mem_cons_of_mem s ht) hmem)
    rw [List.mapIdx_cons, hshift, Nat.add_zero]
    have hcheck : newJobCandidate (candidateAt index s).selection index
        (if index = 0 then CandidateOutcome.selected else .pending) = .ok (candidateAt index s) := hagain
    have hfits : ¬ ((candidateAt index s).ordinal ≠ index ∨
        (candidateAt index s).outcome ≠ if index = 0 then .selected else .pending) := by
      simp [candidateAt]
    simp only [validateCandidatesFrom, hcheck, if_neg hfits, bind_eq_ok, pure_eq_ok,
      require_eq_ok]
    exact ⟨_, rfl, (), hnew s List.mem_cons_self, _, hrest, rfl⟩

end Filling

end BlackPearl.Worker
