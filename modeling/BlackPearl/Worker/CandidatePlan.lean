import BlackPearl.Worker.Resolve

/-!
# Which candidates a plan has

The plan of `resolve` as a list of sources: the cached releases, the files that can be read in place,
and the other releases that pass their check, each group cut where the plan is full
(`planCandidates_eq`). What is expected of a plan holds for all releases if their hashes pass their
check a second time, and exactly under `NoGap` (`planCorrect_iff`).
-/

set_option autoImplicit false

namespace BlackPearl.Worker

open BlackPearl.Library BlackPearl.Acquisition BlackPearl.JobStore

section Plan

variable [TextTables] [URLParser]

/-! ## Selections -/

/-- Whether a hash passes the checks of a selection, which strips a release of its locators. -/
def storableHash (hash : String) : Bool :=
  (normalizeInfoHash hash).isOk &&
    (validateSearchText "release source ID" ("torrent:" ++ hash) maximumSourceIDBytes).isOk

omit [TextTables] [URLParser] in
theorem isOk_iff {α : Type} {r : Checked α} : r.isOk = true ↔ ∃ a, r = .ok a := by
  cases r with
  | ok a => exact ⟨fun _ => ⟨a, rfl⟩, fun _ => rfl⟩
  | error message => exact ⟨nofun, nofun⟩

/-- A torrent is selected exactly if its hash passes the checks again; all else has been checked. -/
theorem newTorrentJobSelection_isOk {input : ReleaseInput} {r : Release}
    (hr : newRelease input = .ok r) (htorrent : r.protocol = .torrent) (hhash : r.infoHash ≠ "") :
    (newTorrentJobSelection r).isOk = storableHash r.infoHash := by
  have hfields := hr
  simp only [newRelease, bind_eq_ok, pure_eq_ok, require_eq_ok, within_eq_ok,
    normalInfoHash_eq_ok] at hfields
  obtain ⟨backing, hprovider, _, _, title, htitle, indexer, hindexer, _, hprotocol, _, hsize, hash, _,
    _, _, _, _, _, _, _, _, _, hseeders, rfl⟩ := hfields
  rw [Bool.eq_iff_iff, storableHash, Bool.and_eq_true, isOk_iff, isOk_iff, isOk_iff]
  constructor
  · rintro ⟨s, hs⟩
    simp only [newTorrentJobSelection, bind_eq_ok, pure_eq_ok, require_eq_ok, within_eq_ok, newRelease,
      normalInfoHash_eq_ok] at hs
    obtain ⟨_, _, _, ⟨_, _, sourceID, hsource, _, _, _, _, _, _, _, _, again, hagain, _⟩, _⟩ := hs
    exact ⟨⟨again.1, hagain⟩, sourceID, hsource⟩
  · rintro ⟨⟨again, hagain⟩, sourceID, hsource⟩
    have hsame : again = hash.1 := hash.2 again hagain
    have hkind : input.protocol = .torrent := htorrent
    simp only [newTorrentJobSelection, bind_eq_ok, pure_eq_ok, require_eq_ok, within_eq_ok, newRelease,
      normalInfoHash_eq_ok, safeInput]
    exact ⟨_, (), by simpa [htorrent] using ⟨hkind, hhash⟩, _, ⟨backing, hprovider, sourceID, hsource,
      title, validateSearchText_idem htitle, indexer, validateSearchText_idem hindexer, (), hprotocol,
      (), require_eq_ok.2 hsize, ⟨again, normalizeInfoHash_normal hagain⟩, hagain, (), if_pos rfl, (),
      if_pos rfl, (), by simp [hsame, hhash], (), by simp [hkind], (), require_eq_ok.2 hseeders, rfl⟩,
      rfl⟩

/-- A file that the direct resolver can return. -/
def ConstructedRange (d : RangeCandidate) : Prop :=
  ∃ media indexer validator, newRangeCandidate media indexer validator = .ok d

omit [URLParser] in
theorem newRangeJobSelection_eq {d : RangeCandidate} (h : ConstructedRange d) :
    newRangeJobSelection d = .ok ⟨.range, .zero, d⟩ := by
  obtain ⟨media, indexer, validator, hd⟩ := h
  simp only [newRangeJobSelection, bind_eq_ok, pure_eq_ok, within_eq_ok]
  exact ⟨d, (newRangeCandidate_idem hd).1, rfl⟩

/-! ## Sources -/

/-- What a candidate is made from. -/
inductive Source
  | torrent (release : Release)
  | range (candidate : RangeCandidate)

/-- The selection of a source. -/
def Source.select : Source → Checked JobSelection
  | .torrent release => newTorrentJobSelection release
  | .range candidate => newRangeJobSelection candidate

/-- The source has a candidate of the plan. -/
def Source.In (candidates : List JobCandidate) (source : Source) : Prop :=
  ∃ c ∈ candidates, source.select = .ok c.selection

/-- Cached releases, files that can be read in place, and other releases, in this order. -/
def sources (cs : List Release) (ds : List RangeCandidate) (us : List Release) : List Source :=
  cs.map .torrent ++ ds.map .range ++ us.map .torrent

/-- Sources that have different identities. -/
def Source.Apart : Source → Source → Prop
  | .torrent r, .torrent r' => r.infoHash ≠ r'.infoHash
  | .range d, .range d' =>
      (d.media.backing.provider, d.media.objectID) ≠ (d'.media.backing.provider, d'.media.objectID)
  | _, _ => True

/-- The columns of the unique key of the plan's table. -/
def selectionKey (s : JobSelection) : SelectionKind × String × String := (s.kind, s.provider, s.identity)

/-- A source that can be selected, and a file only one that the resolver can return. -/
def Source.Selects (source : Source) (s : JobSelection) : Prop :=
  source.select = .ok s ∧ ∀ d, source = .range d → ConstructedRange d

theorem Source.Selects.settled {source : Source} {s : JobSelection} (h : source.Selects s) :
    s.Settled := by
  cases source with
  | torrent r => exact (newTorrentJobSelection_settled h.1).1
  | range d => exact (newRangeJobSelection_settled h.1).1

theorem Source.Selects.key_ne {source source' : Source} {s s' : JobSelection} (h : source.Selects s)
    (h' : source'.Selects s') (hne : source.Apart source') : selectionKey s ≠ selectionKey s' := by
  intro hkey
  obtain ⟨hkind, hrest⟩ := Prod.mk.inj hkey
  obtain ⟨hprovider, hidentity⟩ := Prod.mk.inj hrest
  cases source with
  | torrent r =>
    obtain ⟨-, htorrent, hhash, -⟩ := newTorrentJobSelection_settled h.1
    cases source' with
    | torrent r' =>
      obtain ⟨-, htorrent', hhash', -⟩ := newTorrentJobSelection_settled h'.1
      apply hne
      rw [← hhash, ← hhash']
      simpa [JobSelection.identity, htorrent, htorrent'] using hidentity
    | range d' =>
      rw [htorrent, (newRangeJobSelection_settled h'.1).2] at hkind
      cases hkind
  | range d =>
    cases source' with
    | torrent r' =>
      rw [(newTorrentJobSelection_settled h'.1).2.1, (newRangeJobSelection_settled h.1).2] at hkind
      cases hkind
    | range d' =>
      have hs := h.1.symm.trans (newRangeJobSelection_eq (h.2 d rfl))
      have hs' := h'.1.symm.trans (newRangeJobSelection_eq (h'.2 d' rfl))
      obtain rfl := Except.ok.inj hs
      obtain rfl := Except.ok.inj hs'
      exact hne (Prod.ext hprovider hidentity)

omit [URLParser] in
/-- The sources that passed their check, and their selections. -/
theorem passed_forall₂ {α : Type} (f : α → Checked JobSelection) (l : List α) :
    List.Forall₂ (fun a s => f a = .ok s) (l.filter fun a => (f a).isOk) (passed (l.map f)) := by
  induction l with
  | nil => exact .nil
  | cons a l ih =>
    cases ha : f a with
    | ok s =>
      have hpassed : passed ((a :: l).map f) = s :: passed (l.map f) := by
        rw [List.map_cons, ha]
        rfl
      rw [hpassed, List.filter_cons_of_pos (by rw [ha]; rfl)]
      exact .cons ha ih
    | error message =>
      have hpassed : passed ((a :: l).map f) = passed (l.map f) := by
        rw [List.map_cons, ha]
        rfl
      rw [hpassed, List.filter_cons_of_neg (by rw [ha]; nofun)]
      exact ih

/-! ## The plan -/

section Claim

variable (releases cached : List Release) (direct : List RangeCandidate)

/-- The releases whose hashes pass their check again. -/
def storable (rs : List Release) : List Release := rs.filter fun r => storableHash r.infoHash

/-- The plan for the releases found. -/
def planOf : List JobCandidate := planCandidates (collectEligible [] releases) cached direct

/-- The eligible releases that the provider has cached. -/
def cachedOf : List Release := (partitionCached (collectEligible [] releases) cached).1

/-- The other eligible releases. -/
def uncachedOf : List Release := (partitionCached (collectEligible [] releases) cached).2

/-- What is expected of a plan. -/
structure PlanCorrect : Prop where
  bounded : (planOf releases cached direct).length ≤ maximumJobCandidates
  ordinals : ∀ (i : ℕ) c, (planOf releases cached direct)[i]? = some c →
    c.ordinal = i ∧ c.outcome = if i = 0 then .selected else .pending
  identities : ((planOf releases cached direct).map fun c => selectionKey c.selection).Nodup
  ordered : ∃ cs ds us, cs.Sublist (cachedOf releases cached) ∧ ds.Sublist direct ∧
    us.Sublist (uncachedOf releases cached) ∧ List.Forall₂
      (fun source c => source.select = .ok c.selection) (sources cs ds us)
      (planOf releases cached direct)
  reserved : direct ≠ [] → ∃ d ∈ direct, (Source.range d).In (planOf releases cached direct)
  cachedFirst : (∃ r ∈ uncachedOf releases cached,
      (Source.torrent r).In (planOf releases cached direct)) →
    (∀ r ∈ cachedOf releases cached, (Source.torrent r).In (planOf releases cached direct)) ∧
      ∀ d ∈ direct, (Source.range d).In (planOf releases cached direct)
  exhausted : planOf releases cached direct = [] → collectEligible [] releases = [] ∧ direct = []
  accepted : planOf releases cached direct ≠ [] →
    validateCandidatePlan (planOf releases cached direct) = .ok (planOf releases cached direct)

/-- Skipped releases leave no gap: no release is skipped in front of one that follows in the plan, and
not all of those that the plan could have consisted of. -/
def NoGap : Prop :=
  ((∀ r ∈ cachedOf releases cached, storableHash r.infoHash = true) ∨
    maximumJobCandidates ≤ (storable (cachedOf releases cached)).length + direct.length ∨
    storable (uncachedOf releases cached) = []) ∧
  (direct ≠ [] ∨ collectEligible [] releases = [] ∨ storable (collectEligible [] releases) ≠ [])

variable {releases cached direct}

/-- How many cached releases the plan takes at most. -/
def cachedLimit (direct : List RangeCandidate) : ℕ :=
  if 0 < direct.length then maximumJobCandidates - 1 else maximumJobCandidates

/-- The plan consists of the sources that pass their check, each group cut where the plan is full. -/
structure Fills (releases cached : List Release) (direct : List RangeCandidate)
    (cs : List Release) (ds : List RangeCandidate) (us : List Release)
    (selections : List JobSelection) : Prop where
  cachedPart : cs = (storable (cachedOf releases cached)).take (cachedLimit direct)
  rangePart : ds = direct.take (maximumJobCandidates - cs.length)
  uncachedPart : us = (storable (uncachedOf releases cached)).take
    (maximumJobCandidates - (cs.length + ds.length))
  selects : List.Forall₂ Source.Selects (sources cs ds us) selections
  plan : planOf releases cached direct = numbered selections

omit [URLParser] in
theorem resolvePlan_planned {ε : Type} {candidates planned : List JobCandidate}
    {directErr : Option ε} (h : resolvePlan candidates directErr = .planned planned) :
    planned = candidates ∧ planned ≠ [] := by
  unfold resolvePlan at h
  split at h
  · cases directErr <;> cases h
  · next hne =>
    cases h
    exact ⟨rfl, fun hnil => hne (List.length_eq_zero_iff.2 hnil)⟩

/-- What `resolve` asks the store to plan is the plan for the releases found. -/
theorem resolve_planned {ε : Type} {search : List Release × Option ε}
    {directResolver : Option (List RangeCandidate × Option ε)}
    {cachedTorrents : List Release → List Release × Option ε} {candidates : List JobCandidate}
    (h : resolve search directResolver cachedTorrents = .planned candidates) :
    candidates ≠ [] ∧
      ∃ cached, candidates = planOf search.1 cached (directResolver.getD ([], none)).1 := by
  have heligible : ∀ direct : List RangeCandidate × Option ε,
      resolveEligible (collectEligible [] search.1) direct cachedTorrents = .planned candidates →
      candidates ≠ [] ∧ ∃ cached, candidates = planOf search.1 cached direct.1 := by
    intro direct hplan
    unfold resolveEligible at hplan
    dsimp only at hplan
    split at hplan
    · split at hplan
      · cases hplan
      · obtain ⟨rfl, hne⟩ := resolvePlan_planned hplan
        exact ⟨hne, [], rfl⟩
    · obtain ⟨rfl, hne⟩ := resolvePlan_planned hplan
      exact ⟨hne, _, rfl⟩
  unfold resolve at h
  dsimp only at h
  split at h
  · split at h
    · cases h
    · exact heligible _ h
  · exact heligible _ h

/-- `resolve` fails a job when there is nothing to plan. -/
theorem resolve_failed {ε : Type} {search : List Release × Option ε}
    {directResolver : Option (List RangeCandidate × Option ε)}
    {cachedTorrents : List Release → List Release × Option ε} {code : JobErrorCode}
    (h : resolve search directResolver cachedTorrents = .failed code) : code = .noRelease := by
  have hplan : ∀ (candidates : List JobCandidate) (directErr : Option ε),
      resolvePlan candidates directErr = .failed code → code = .noRelease := by
    intro candidates directErr hfailed
    unfold resolvePlan at hfailed
    split at hfailed
    · cases directErr with
      | some err => cases hfailed
      | none =>
        cases hfailed
        rfl
    · cases hfailed
  have heligible : ∀ direct : List RangeCandidate × Option ε,
      resolveEligible (collectEligible [] search.1) direct cachedTorrents = .failed code →
      code = .noRelease := by
    intro direct hfailed
    unfold resolveEligible at hfailed
    dsimp only at hfailed
    split at hfailed
    · split at hfailed
      · cases hfailed
      · exact hplan _ _ hfailed
    · exact hplan _ _ hfailed
  unfold resolve at h
  dsimp only at h
  split at h
  · split at h
    · cases h
    · exact heligible _ h
  · exact heligible _ h

/-- The releases and files of the plan are such as their constructors return. -/
structure Constructed (releases : List Release) (direct : List RangeCandidate) : Prop where
  release : ∀ r ∈ releases, ∃ input, newRelease input = .ok r
  range : ∀ d ∈ direct, ConstructedRange d
  distinct : (direct.map fun d => (d.media.backing.provider, d.media.objectID)).Nodup

theorem storable_eq (h : Constructed releases direct) {rs : List Release}
    (hrs : ∀ r ∈ rs, r ∈ collectEligible [] releases) :
    rs.filter (fun r => (newTorrentJobSelection r).isOk) = storable rs := by
  apply List.filter_congr
  intro r hr
  obtain ⟨htorrent, hhash, -⟩ := (collectEligible_spec [] releases).1 r (hrs r hr)
  obtain ⟨input, hinput⟩ := h.release r ((collectEligible_sublist [] releases).subset (hrs r hr))
  exact newTorrentJobSelection_isOk hinput htorrent hhash

omit [URLParser] in
theorem cachedOf_subset {r : Release} (hr : r ∈ cachedOf releases cached) :
    r ∈ collectEligible [] releases :=
  mem_eligible_iff.2 (Or.inl hr)

omit [URLParser] in
theorem uncachedOf_subset {r : Release} (hr : r ∈ uncachedOf releases cached) :
    r ∈ collectEligible [] releases :=
  mem_eligible_iff.2 (Or.inr hr)

/-- The loop over releases takes those that pass their check. -/
theorem torrents_selects (h : Constructed releases direct) {rs : List Release}
    (hrs : ∀ r ∈ rs, r ∈ collectEligible [] releases) (n : ℕ) :
    List.Forall₂ Source.Selects (((storable rs).take n).map .torrent)
      ((passed (rs.map newTorrentJobSelection)).take n) := by
  have hpassed := passed_forall₂ newTorrentJobSelection rs
  rw [storable_eq h hrs] at hpassed
  rw [List.forall₂_map_left_iff]
  refine (List.forall₂_take n hpassed).imp fun r s hs => ⟨hs, fun d hd => ?_⟩
  cases hd

theorem ranges_selects (h : Constructed releases direct) (n : ℕ) :
    List.Forall₂ Source.Selects ((direct.take n).map .range)
      ((passed (direct.map newRangeJobSelection)).take n) := by
  have hall : direct.filter (fun d => (newRangeJobSelection d).isOk) = direct := by
    rw [List.filter_eq_self]
    intro d hd
    rw [newRangeJobSelection_eq (h.range d hd)]
    rfl
  have hpassed := passed_forall₂ newRangeJobSelection direct
  rw [hall] at hpassed
  rw [List.forall₂_map_left_iff]
  have hmem : List.Forall₂ (fun d s => ConstructedRange d ∧ newRangeJobSelection d = .ok s) direct
      (passed (direct.map newRangeJobSelection)) :=
    (List.forall₂_and_left direct _).2 ⟨h.range, hpassed⟩
  refine (List.forall₂_take n hmem).imp fun d s hs => ⟨hs.2, fun d' hd' => ?_⟩
  cases hd'
  exact hs.1

theorem storable_of_select (h : Constructed releases direct) {r : Release} {s : JobSelection}
    (hr : r ∈ collectEligible [] releases) (hs : newTorrentJobSelection r = .ok s) :
    storableHash r.infoHash = true := by
  obtain ⟨htorrent, hhash, -⟩ := (collectEligible_spec [] releases).1 r hr
  obtain ⟨input, hinput⟩ := h.release r ((collectEligible_sublist [] releases).subset hr)
  rw [← newTorrentJobSelection_isOk hinput htorrent hhash, hs]
  rfl

theorem settled_of_mem_passed {α : Type} {f : α → Checked JobSelection} {l : List α}
    {s : JobSelection} (hf : ∀ a s, f a = .ok s → s.Settled) (hs : .ok s ∈ l.map f) : s.Settled := by
  obtain ⟨a, -, ha⟩ := List.mem_map.1 hs
  exact hf a s ha

theorem exists_fills (h : Constructed releases direct) (cached : List Release) :
    ∃ cs ds us selections, Fills releases cached direct cs ds us selections := by
  have hA := torrents_selects h (fun r (hr : r ∈ cachedOf releases cached) => cachedOf_subset hr)
    (cachedLimit direct)
  generalize hcs : (storable (cachedOf releases cached)).take (cachedLimit direct) = cs at hA
  generalize hSA : (passed ((cachedOf releases cached).map newTorrentJobSelection)).take
    (cachedLimit direct) = A at hA
  have hB := ranges_selects h (maximumJobCandidates - cs.length)
  generalize hds : direct.take (maximumJobCandidates - cs.length) = ds at hB
  generalize hSB : (passed (direct.map newRangeJobSelection)).take
    (maximumJobCandidates - cs.length) = B at hB
  have hE := torrents_selects h (fun r (hr : r ∈ uncachedOf releases cached) => uncachedOf_subset hr)
    (maximumJobCandidates - (cs.length + ds.length))
  generalize hus : (storable (uncachedOf releases cached)).take
    (maximumJobCandidates - (cs.length + ds.length)) = us at hE
  generalize hSE : (passed ((uncachedOf releases cached).map newTorrentJobSelection)).take
    (maximumJobCandidates - (cs.length + ds.length)) = E at hE
  have hAlen : A.length = cs.length := by
    rw [← hA.length_eq, List.length_map]
  have hBlen : B.length = ds.length := by
    rw [← hB.length_eq, List.length_map]
  refine ⟨cs, ds, us, A ++ B ++ E, hcs.symm, hds.symm, hus.symm, ?_, ?_⟩
  · exact List.rel_append (List.rel_append hA hB) hE
  · have htorrent : ∀ rs : List Release, ∀ s, .ok s ∈ rs.map newTorrentJobSelection → s.Settled :=
      fun rs s hs => settled_of_mem_passed (fun r s hr => (newTorrentJobSelection_settled hr).1) hs
    have hrange : ∀ s, .ok s ∈ direct.map newRangeJobSelection → s.Settled :=
      fun s hs => settled_of_mem_passed (fun d s hd => (newRangeJobSelection_settled hd).1) hs
    have hlimit : cachedLimit direct ≤ maximumJobCandidates := by
      unfold cachedLimit
      split
      · exact Nat.sub_le _ _
      · exact le_refl _
    have hAle : A.length ≤ maximumJobCandidates := by
      rw [← hSA, List.length_take]
      omega
    have hABle : (A ++ B).length ≤ maximumJobCandidates := by
      have hBle : B.length ≤ maximumJobCandidates - cs.length := by
        rw [← hSB, List.length_take]
        omega
      rw [List.length_append]
      omega
    have hfirst : appendSelections (cachedLimit direct) (numbered [])
        ((cachedOf releases cached).map newTorrentJobSelection) = _ :=
      appendSelections_numbered hlimit (htorrent (cachedOf releases cached)) (Nat.zero_le _)
    rw [List.length_nil, Nat.sub_zero, List.nil_append, hSA] at hfirst
    have hsecond := appendSelections_numbered (le_refl _) hrange hAle
    rw [hAlen, hSB] at hsecond
    have hthird := appendSelections_numbered (le_refl _)
      (htorrent (uncachedOf releases cached)) hABle
    rw [List.length_append, hAlen, hBlen, hSE] at hthird
    rw [← hthird, ← hsecond, ← hfirst]
    rfl

/-- The sources of a plan have distinct identities. -/
theorem Fills.apart (h : Constructed releases direct) {cs : List Release} {ds : List RangeCandidate}
    {us : List Release} {selections : List JobSelection}
    (hfills : Fills releases cached direct cs ds us selections) :
    (sources cs ds us).Pairwise Source.Apart := by
  have hnodup := (collectEligible_spec [] releases).2
  have hpairs : ∀ rs : List Release, rs.Sublist (collectEligible [] releases) →
      (rs.map Source.torrent).Pairwise Source.Apart := by
    intro rs hrs
    have hdistinct : (rs.map Release.infoHash).Pairwise (· ≠ ·) := hnodup.sublist (hrs.map _)
    rw [List.pairwise_map] at hdistinct ⊢
    exact hdistinct
  have hcs : cs.Sublist (cachedOf releases cached) := by
    rw [hfills.cachedPart]
    exact (List.take_sublist _ _).trans List.filter_sublist
  have hus : us.Sublist (uncachedOf releases cached) := by
    rw [hfills.uncachedPart]
    exact (List.take_sublist _ _).trans List.filter_sublist
  have hds : ds.Sublist direct := by
    rw [hfills.rangePart]
    exact List.take_sublist _ _
  rw [sources, List.pairwise_append, List.pairwise_append]
  refine ⟨⟨hpairs cs (hcs.trans List.filter_sublist), ?_, ?_⟩, hpairs us (hus.trans List.filter_sublist),
    ?_⟩
  · have hdistinct : (ds.map fun d => (d.media.backing.provider, d.media.objectID)).Pairwise (· ≠ ·) :=
      h.distinct.sublist (hds.map _)
    rw [List.pairwise_map] at hdistinct ⊢
    exact hdistinct
  · intro a ha b hb
    obtain ⟨r, -, rfl⟩ := List.mem_map.1 ha
    obtain ⟨d, -, rfl⟩ := List.mem_map.1 hb
    exact trivial
  · intro a ha b hb
    obtain ⟨r', hr', rfl⟩ := List.mem_map.1 hb
    rcases List.mem_append.1 ha with ha | ha
    · obtain ⟨r, hr, rfl⟩ := List.mem_map.1 ha
      exact partitionCached_disjoint (hcs.subset hr) (hus.subset hr')
    · obtain ⟨d, -, rfl⟩ := List.mem_map.1 ha
      exact trivial

/-- Corresponding elements stand at the same places. -/
theorem Fills.mem_iff {cs : List Release} {ds : List RangeCandidate} {us : List Release}
    {selections : List JobSelection} (hfills : Fills releases cached direct cs ds us selections)
    {source : Source} (hsource : source ∈ sources cs ds us) :
    source.In (planOf releases cached direct) := by
  have hflip := hfills.selects.flip
  obtain ⟨s, hs, hselects⟩ := exists_of_mem_forall₂ hflip hsource
  obtain ⟨i, hi, rfl⟩ := List.mem_iff_getElem.1 hs
  rw [hfills.plan]
  refine ⟨candidateAt i selections[i], ?_, hselects.1⟩
  rw [numbered, List.mem_mapIdx]
  exact ⟨i, hi, rfl⟩

/-- A candidate of the plan is made from one of its sources. -/
theorem Fills.source_of_mem {cs : List Release} {ds : List RangeCandidate} {us : List Release}
    {selections : List JobSelection} (hfills : Fills releases cached direct cs ds us selections)
    {c : JobCandidate} (hc : c ∈ planOf releases cached direct) :
    ∃ source ∈ sources cs ds us, source.select = .ok c.selection := by
  rw [hfills.plan, numbered, List.mem_mapIdx] at hc
  obtain ⟨i, hi, rfl⟩ := hc
  obtain ⟨source, hsource, hselects⟩ := exists_of_mem_forall₂ hfills.selects (List.getElem_mem hi)
  exact ⟨source, hsource, hselects.1⟩

/-- An uncached release has a candidate only if the plan takes uncached releases. -/
theorem Fills.uncached_ne_nil {cs : List Release} {ds : List RangeCandidate} {us : List Release}
    {selections : List JobSelection} (hfills : Fills releases cached direct cs ds us selections)
    {r : Release} (hr : r ∈ uncachedOf releases cached)
    (hin : (Source.torrent r).In (planOf releases cached direct)) : us ≠ [] := by
  rintro rfl
  obtain ⟨c, hc, hselect⟩ := hin
  obtain ⟨source, hsource, hselect'⟩ := hfills.source_of_mem hc
  obtain ⟨-, hkind, hhash, -⟩ := newTorrentJobSelection_settled hselect
  rw [sources, List.map_nil, List.append_nil] at hsource
  rcases List.mem_append.1 hsource with hsource | hsource
  · obtain ⟨r', hr', rfl⟩ := List.mem_map.1 hsource
    have hcached : r' ∈ cachedOf releases cached := by
      rw [hfills.cachedPart] at hr'
      exact List.mem_of_mem_filter (List.mem_of_mem_take hr')
    apply partitionCached_disjoint hcached hr
    rw [← hhash, ← (newTorrentJobSelection_settled hselect').2.2.1]
  · obtain ⟨d, -, rfl⟩ := List.mem_map.1 hsource
    rw [(newRangeJobSelection_settled hselect').2] at hkind
    cases hkind

theorem Fills.settled {cs : List Release} {ds : List RangeCandidate} {us : List Release}
    {selections : List JobSelection} (hfills : Fills releases cached direct cs ds us selections) :
    ∀ s ∈ selections, s.Settled := by
  intro s hs
  obtain ⟨source, -, hselects⟩ := exists_of_mem_forall₂ hfills.selects hs
  exact hselects.settled

/-- The candidates of a plan have distinct keys. -/
theorem Fills.keys (h : Constructed releases direct) {cs : List Release} {ds : List RangeCandidate}
    {us : List Release} {selections : List JobSelection}
    (hfills : Fills releases cached direct cs ds us selections) :
    (selections.map selectionKey).Nodup := by
  rw [List.Nodup, List.pairwise_map]
  exact pairwise_of_forall₂ (P := Source.Selects) (R := Source.Apart)
    (Q := fun s s' => selectionKey s ≠ selectionKey s')
    (fun _ _ _ _ hne h h' => Source.Selects.key_ne h h' hne) hfills.selects (hfills.apart h)

/-- How many sources of each kind a plan has. -/
structure Sizes (releases cached : List Release) (direct : List RangeCandidate)
    (cs : List Release) (ds : List RangeCandidate) (us : List Release) (length : ℕ) : Prop where
  total : length = cs.length + ds.length + us.length
  cachedPart : cs.length = min (cachedLimit direct) (storable (cachedOf releases cached)).length
  rangePart : ds.length = min (5 - cs.length) direct.length
  uncachedPart : us.length =
    min (5 - (cs.length + ds.length)) (storable (uncachedOf releases cached)).length
  limit : (cachedLimit direct = 4 ∧ 0 < direct.length) ∨ (cachedLimit direct = 5 ∧ direct.length = 0)

theorem Fills.sizes {cs : List Release} {ds : List RangeCandidate} {us : List Release}
    {selections : List JobSelection} (hfills : Fills releases cached direct cs ds us selections) :
    Sizes releases cached direct cs ds us selections.length where
  total := by
    rw [← hfills.selects.length_eq, sources, List.length_append, List.length_append, List.length_map,
      List.length_map, List.length_map]
  cachedPart := by
    have hcs := congrArg List.length hfills.cachedPart
    rwa [List.length_take] at hcs
  rangePart := by
    have hds := congrArg List.length hfills.rangePart
    rwa [List.length_take] at hds
  uncachedPart := by
    have hus := congrArg List.length hfills.uncachedPart
    rwa [List.length_take] at hus
  limit := by
    unfold cachedLimit
    split
    · next hpos => exact Or.inl ⟨rfl, hpos⟩
    · next hzero => exact Or.inr ⟨rfl, Nat.eq_zero_of_not_pos hzero⟩

theorem Fills.length_le {cs : List Release} {ds : List RangeCandidate} {us : List Release}
    {selections : List JobSelection} (hfills : Fills releases cached direct cs ds us selections) :
    selections.length ≤ maximumJobCandidates := by
  obtain ⟨htotal, hcs, hds, hus, hlimit⟩ := hfills.sizes
  have hmax : maximumJobCandidates = 5 := rfl
  omega

/-- The store accepts a plan. -/
theorem planOf_accepted (h : Constructed releases direct)
    (hplanned : planOf releases cached direct ≠ []) :
    validateCandidatePlan (planOf releases cached direct) = .ok (planOf releases cached direct) := by
  obtain ⟨cs, ds, us, selections, hfills⟩ := exists_fills h cached
  have hpos := List.length_pos_iff.2 hplanned
  have hlength := hfills.length_le
  have hvalid : validateCandidatesFrom 0 [] (selections.mapIdx fun i => candidateAt (0 + i)) = _ :=
    validateCandidatesFrom_numbered hfills.settled (by omega) (hfills.keys h)
      (fun s _ => List.not_mem_nil)
  simp only [Nat.zero_add] at hvalid
  rw [hfills.plan]
  rw [hfills.plan, length_numbered] at hpos
  simp only [validateCandidatePlan, bind_eq_ok, require_eq_ok, length_numbered]
  exact ⟨(), by omega, hvalid⟩

/-- A gap shows in the plan. -/
theorem noGap_of_planCorrect (h : Constructed releases direct)
    (hcorrect : PlanCorrect releases cached direct) : NoGap releases cached direct := by
  obtain ⟨cs, ds, us, selections, hfills⟩ := exists_fills h cached
  obtain ⟨htotal, hcs, hds, hus, hlimit⟩ := hfills.sizes
  have hmax : maximumJobCandidates = 5 := rfl
  have hplan : (planOf releases cached direct).length = selections.length := by
    rw [hfills.plan, length_numbered]
  constructor
  · by_contra hgap
    rw [not_or, not_or, not_le] at hgap
    obtain ⟨hsome, hroom, hothers⟩ := hgap
    have hpos : 0 < us.length := by
      have hothers' := List.length_pos_iff.2 hothers
      omega
    obtain ⟨r, hr⟩ := List.exists_mem_of_length_pos hpos
    have hmem : Source.torrent r ∈ sources cs ds us :=
      List.mem_append_right _ (List.mem_map_of_mem hr)
    have huncached : r ∈ uncachedOf releases cached := by
      rw [hfills.uncachedPart] at hr
      exact List.mem_of_mem_filter (List.mem_of_mem_take hr)
    obtain ⟨hall, -⟩ := hcorrect.cachedFirst ⟨r, huncached, hfills.mem_iff hmem⟩
    refine hsome fun r' hr' => ?_
    obtain ⟨c, -, hselect⟩ := hall r' hr'
    exact storable_of_select h (cachedOf_subset hr') hselect
  · by_contra hgap
    rw [not_or, not_or, not_not, not_not] at hgap
    obtain ⟨hdirect, heligible, hnone⟩ := hgap
    refine heligible (hcorrect.exhausted (List.length_eq_zero_iff.1 ?_)).1
    have hnil : ∀ rs : List Release, (∀ r ∈ rs, r ∈ collectEligible [] releases) →
        (storable rs).length = 0 := by
      intro rs hrs
      rw [List.length_eq_zero_iff, storable, List.filter_eq_nil_iff]
      exact fun r hr => List.filter_eq_nil_iff.1 hnone r (hrs r hr)
    have hA := hnil _ fun r (hr : r ∈ cachedOf releases cached) => cachedOf_subset hr
    have hE := hnil _ fun r (hr : r ∈ uncachedOf releases cached) => uncachedOf_subset hr
    have hD := congrArg List.length hdirect
    rw [List.length_nil] at hD
    omega

/-- A plan that has uncached releases has all the other sources. -/
theorem Fills.complete_of_uncached {cs : List Release} {ds : List RangeCandidate} {us : List Release}
    {selections : List JobSelection} (hfills : Fills releases cached direct cs ds us selections)
    (hgap : NoGap releases cached direct) (hus : us ≠ []) :
    (∀ r ∈ cachedOf releases cached, r ∈ cs) ∧ ds = direct := by
  obtain ⟨-, hcs, hds, huslength, hlimit⟩ := hfills.sizes
  have hmax : maximumJobCandidates = 5 := rfl
  have hpos := List.length_pos_iff.2 hus
  have hall : ∀ r ∈ cachedOf releases cached, storableHash r.infoHash = true := by
    rcases hgap.1 with hall | hfull | hnone
    · exact hall
    · omega
    · rw [hnone, List.length_nil] at huslength
      omega
  have hself : storable (cachedOf releases cached) = cachedOf releases cached :=
    List.filter_eq_self.2 hall
  constructor
  · intro r hr
    rw [hfills.cachedPart, List.take_of_length_le (by omega), hself]
    exact hr
  · rw [hfills.rangePart, List.take_of_length_le (by omega)]

/-- Without a gap, an empty plan means that there is nothing to plan. -/
theorem Fills.exhausted {cs : List Release} {ds : List RangeCandidate} {us : List Release}
    {selections : List JobSelection} (hfills : Fills releases cached direct cs ds us selections)
    (hgap : NoGap releases cached direct) (hempty : planOf releases cached direct = []) :
    collectEligible [] releases = [] ∧ direct = [] := by
  obtain ⟨htotal, hcs, hds, hus, hlimit⟩ := hfills.sizes
  have hplan : (planOf releases cached direct).length = selections.length := by
    rw [hfills.plan, length_numbered]
  rw [hempty, List.length_nil] at hplan
  have hD : direct = [] := List.length_eq_zero_iff.1 (by omega)
  refine ⟨?_, hD⟩
  rcases hgap.2 with hdirect | heligible | hsome
  · exact absurd hD hdirect
  · exact heligible
  · obtain ⟨r, hr⟩ := List.exists_mem_of_ne_nil _ hsome
    obtain ⟨heligible, hstorable⟩ := List.mem_filter.1 hr
    rcases mem_eligible_iff.1 heligible with hcached | huncached
    · have hmem : r ∈ storable (cachedOf releases cached) := List.mem_filter.2 ⟨hcached, hstorable⟩
      have hpos := List.length_pos_of_mem hmem
      omega
    · have hmem : r ∈ storable (uncachedOf releases cached) :=
        List.mem_filter.2 ⟨huncached, hstorable⟩
      have hpos := List.length_pos_of_mem hmem
      omega

theorem planCorrect_of_noGap (h : Constructed releases direct)
    (hgap : NoGap releases cached direct) : PlanCorrect releases cached direct := by
  obtain ⟨cs, ds, us, selections, hfills⟩ := exists_fills h cached
  obtain ⟨-, hcs, hds, -, hlimit⟩ := hfills.sizes
  have hplan : (planOf releases cached direct).length = selections.length := by
    rw [hfills.plan, length_numbered]
  constructor
  · rw [hplan]
    exact hfills.length_le
  · intro i c hc
    rw [hfills.plan, numbered, List.getElem?_mapIdx] at hc
    obtain ⟨s, -, rfl⟩ := Option.map_eq_some_iff.1 hc
    exact ⟨rfl, rfl⟩
  · have hmap : (planOf releases cached direct).map (fun c => selectionKey c.selection) =
        selections.map selectionKey := by
      rw [hfills.plan, ← map_selection_numbered selections, List.map_map]
      rw [map_selection_numbered]
      rfl
    rw [hmap]
    exact hfills.keys h
  · refine ⟨cs, ds, us, ?_, ?_, ?_, ?_⟩
    · rw [hfills.cachedPart]
      exact (List.take_sublist _ _).trans List.filter_sublist
    · rw [hfills.rangePart]
      exact List.take_sublist _ _
    · rw [hfills.uncachedPart]
      exact (List.take_sublist _ _).trans List.filter_sublist
    · rw [hfills.plan]
      have hselects := hfills.selects
      rw [← map_selection_numbered selections, List.forall₂_map_right_iff] at hselects
      exact hselects.imp fun _ _ hs => hs.1
  · intro hdirect
    have hpos : 0 < ds.length := by
      have hdirect' := List.length_pos_iff.2 hdirect
      omega
    obtain ⟨d, hd⟩ := List.exists_mem_of_length_pos hpos
    have hmem : Source.range d ∈ sources cs ds us :=
      List.mem_append_left _ (List.mem_append_right _ (List.mem_map_of_mem hd))
    rw [hfills.rangePart] at hd
    exact ⟨d, List.mem_of_mem_take hd, hfills.mem_iff hmem⟩
  · rintro ⟨r, hr, hin⟩
    obtain ⟨hcached, rfl⟩ := hfills.complete_of_uncached hgap (hfills.uncached_ne_nil hr hin)
    refine ⟨fun r' hr' => hfills.mem_iff ?_, fun d hd => hfills.mem_iff ?_⟩
    · exact List.mem_append_left _ (List.mem_append_left _ (List.mem_map_of_mem (hcached r' hr')))
    · exact List.mem_append_left _ (List.mem_append_right _ (List.mem_map_of_mem hd))
  · exact hfills.exhausted hgap
  · exact planOf_accepted h

theorem planCorrect_iff (h : Constructed releases direct) (cached : List Release) :
    PlanCorrect releases cached direct ↔ NoGap releases cached direct :=
  ⟨noGap_of_planCorrect h, planCorrect_of_noGap h⟩

end Claim

end Plan

section SmallRuns

attribute [local instance] TextTables.ascii URLParser.refuseAll

/-- A torrent with a hash. -/
def torrentInput (infoHash : String) : ReleaseInput :=
  ⟨"prowlarr", "1", "Arrival 2016", .torrent, 1, "Indexer", infoHash, "", "", none⟩

/-- A release with a hash of twenty bytes is planned. -/
theorem planCorrect_hexadecimal :
    ∃ r, newRelease (torrentInput "c12fe1c06bba254a9dc9f519b335aa7c1367a88a") = .ok r ∧
      PlanCorrect [r] [r] [] := by
  have hrun : ((newRelease (torrentInput "c12fe1c06bba254a9dc9f519b335aa7c1367a88a")).toOption.map
      fun r => storableHash r.infoHash) = some true := by
    decide +kernel
  cases hr : newRelease (torrentInput "c12fe1c06bba254a9dc9f519b335aa7c1367a88a") with
  | error message =>
    rw [hr] at hrun
    cases hrun
  | ok r =>
    rw [hr] at hrun
    have hstorable : storableHash r.infoHash = true := Option.some.inj hrun
    have heligible : ∀ r' ∈ collectEligible [] [r], r' = r := fun r' hr' =>
      List.mem_singleton.1 ((collectEligible_sublist [] [r]).subset hr')
    have hconstructed : Constructed [r] [] := by
      refine ⟨fun r' hr' => ?_, fun d hd => absurd hd List.not_mem_nil, List.nodup_nil⟩
      rw [List.mem_singleton.1 hr']
      exact ⟨_, hr⟩
    refine ⟨r, rfl, (planCorrect_iff hconstructed [r]).2 ⟨Or.inl ?_, ?_⟩⟩
    · intro r' hr'
      rw [heligible r' (cachedOf_subset hr')]
      exact hstorable
    · refine or_iff_not_imp_left.2 fun _ => or_iff_not_imp_left.2 fun hne => ?_
      obtain ⟨r', hr'⟩ := List.exists_mem_of_ne_nil _ hne
      have hmem : r' ∈ storable (collectEligible [] [r]) := by
        refine List.mem_filter.2 ⟨hr', ?_⟩
        rw [heligible r' hr']
        exact hstorable
      exact List.ne_nil_of_mem hmem

/-- A release whose hash has a line break is eligible, and the plan is empty. -/
theorem planCorrect_broken_hash :
    ∃ r, newRelease (torrentInput "AAAAAAAAAAAAAAA\nAAAAAAAAAAAAAAAA") = .ok r ∧
      ¬ PlanCorrect [r] [] [] := by
  have hrun : ((newRelease (torrentInput "AAAAAAAAAAAAAAA\nAAAAAAAAAAAAAAAA")).toOption.map
      fun r => ((planOf [r] [] []).length, (collectEligible [] [r]).length)) = some (0, 1) := by
    decide +kernel
  cases hr : newRelease (torrentInput "AAAAAAAAAAAAAAA\nAAAAAAAAAAAAAAAA") with
  | error message =>
    rw [hr] at hrun
    cases hrun
  | ok r =>
    rw [hr] at hrun
    obtain ⟨hplan, heligible⟩ := Prod.mk.inj (Option.some.inj hrun)
    refine ⟨r, rfl, fun hcorrect => ?_⟩
    rw [(hcorrect.exhausted (List.length_eq_zero_iff.1 hplan)).1] at heligible
    cases heligible

end SmallRuns

end BlackPearl.Worker
