import BlackPearl.Resolver.Eligibility
import BlackPearl.Library.Sorting
import BlackPearl.Library.Distinct

/-!
# Ranked releases

`Service.Search` of `internal/resolver/service.go` and the ranking of
`internal/resolver/ranking.go`. The calls of the providers complete in any order, and what they
return is appended as they complete, sorted stably and freed of repeated identities. Releases that
the comparison does not tell apart have one provider, so the order of completion is not seen in the
result: `search_correct`.
-/

set_option autoImplicit false

namespace BlackPearl.Resolver

open BlackPearl.Library BlackPearl.Domain BlackPearl.Acquisition

/-! ## The ranking -/

/-- `releaseRank`. -/
structure ReleaseRank where
  intentMatch : Bool
  titlePrefix : Bool
  yearMatch : Bool
  hasHash : Bool
  seeders : ℤ
  size : ℤ
  provider : String
  sourceID : String
  deriving DecidableEq, Repr

/-- `releaseLess`. -/
def releaseLess (left right : ReleaseRank) : Bool :=
  if left.intentMatch ≠ right.intentMatch then left.intentMatch
  else if left.titlePrefix ≠ right.titlePrefix then left.titlePrefix
  else if left.yearMatch ≠ right.yearMatch then left.yearMatch
  else if left.hasHash ≠ right.hasHash then left.hasHash
  else if left.seeders ≠ right.seeders then intGreater left.seeders right.seeders
  else if left.size ≠ right.size then intLess left.size right.size
  else if left.provider ≠ right.provider then textLess left.provider right.provider
  else textLess left.sourceID right.sourceID

/-- The text of a `ReleaseProtocol`. -/
def protocolText : ReleaseProtocol → String
  | .unset => ""
  | .torrent => "torrent"
  | .usenet => "usenet"
  | .unsupported text => text

section Search

variable [TextTables] [LetterTables]

/-- `usableRelease`. -/
def usableRelease (release : Release) : Bool :=
  if release.provider = "" ∨ release.sourceID = "" ∨ release.title = "" ∨ release.indexer = "" ∨
      release.size ≤ 0 then false
  else
    match release.protocol with
    | .torrent => release.infoHash != "" || release.magnetURL != "" || release.downloadURL != ""
    | .usenet => release.downloadURL != ""
    | _ => false

/-- `rankRelease`. -/
def rankRelease (request : SearchRequest) (release : Release) : ReleaseRank where
  intentMatch := releaseMatches request release.title.toList
  titlePrefix := releaseStartsWithTitle request release.title.toList
  yearMatch := releaseMatchesYear request release.title.toList
  hasHash := decide (release.protocol = .torrent) && release.infoHash != ""
  seeders := release.seeders.getD (-1)
  size := release.size
  provider := release.provider
  sourceID := release.sourceID

/-- The comparison that `rankAndDeduplicate` sorts by. -/
def rankedBefore (request : SearchRequest) (left right : Release) : Bool :=
  releaseLess (rankRelease request left) (rankRelease request right)

/-- `releaseIdentity`. -/
def releaseIdentity (release : Release) : String :=
  if release.infoHash ≠ "" then
    protocolText release.protocol ++ "|hash|" ++ toLowerString release.infoHash
  else
    protocolText release.protocol ++ "|source|" ++ release.provider ++ "|" ++ release.sourceID

/-- Whether `rankAndDeduplicate` keeps a release. -/
def eligible (request : SearchRequest) (release : Release) : Bool :=
  usableRelease release && releaseEligibleForIntent request release.title.toList

/-- `rankAndDeduplicate`. -/
def rankAndDeduplicate (request : SearchRequest) (releases : List Release) : List Release :=
  let usable := releases.filter (eligible request)
  appendNew releaseIdentity [] (stableSort (rankedBefore request) usable)

/-! ## The search -/

/-- What `Search` of a provider returns for the request. Of an error only matters whether it is
`ErrUnauthorized`. -/
inductive Outcome
  | failed (unauthorized : Bool)
  | found (releases : List Release)

/-- A provider, with the outcome of its call. -/
structure SearchProvider where
  name : String
  outcome : Outcome

/-- The releases of a provider that did not fail. -/
def SearchProvider.releases (provider : SearchProvider) : List Release :=
  match provider.outcome with
  | .failed _ => []
  | .found releases => releases

/-- `sanitizedSearchError`. -/
def sanitizedSearchError (providerName : String) (index : ℕ) (unauthorized : Bool) : String :=
  let name :=
    if (newBackingRef providerName "search").isOk = true then providerName
    else "provider-" ++ toString (index + 1)
  if unauthorized = true then "search provider " ++ name ++ " rejected credentials: unauthorized"
  else "search provider " ++ name ++ " failed"

/-- What the calls share under the mutex. -/
structure Collected where
  releases : List Release
  failures : List String
  successes : ℕ

def Collected.empty : Collected := ⟨[], [], 0⟩

/-- One call completes. -/
def Collected.complete (collected : Collected) (call : SearchProvider × ℕ) : Collected :=
  match call.1.outcome with
  | .failed unauthorized =>
      let failure := sanitizedSearchError call.1.name call.2 unauthorized
      { collected with failures := collected.failures ++ [failure] }
  | .found found =>
      { collected with
        releases := collected.releases ++ found
        successes := collected.successes + 1 }

/-- The errors of `Service.Search`; `failed` joins those of the providers. -/
inductive SearchError
  | notConfigured
  | cancelled (cause : String)
  | failed (failures : List String)
  deriving DecidableEq, Repr

/-- `Service.Search`, where the calls complete in the order `completed`. The errors of the context
are those before the first call and after the last. -/
def search (errBefore errAfter : Option String) (providers : List SearchProvider)
    (completed : List (SearchProvider × ℕ)) (request : SearchRequest) :
    Except SearchError (List Release) :=
  if providers.isEmpty then .error .notConfigured
  else
    match errBefore with
    | some cause => .error (.cancelled cause)
    | none =>
        let collected := completed.foldl Collected.complete .empty
        match errAfter with
        | some cause => .error (.cancelled cause)
        | none =>
            if collected.successes = 0 then .error (.failed collected.failures)
            else .ok (rankAndDeduplicate request collected.releases)

/-! ## What is found -/

/-- The releases of all providers that may be returned, in the order of the providers. -/
def eligibleReleases (request : SearchRequest) (providers : List SearchProvider) : List Release :=
  (providers.flatMap SearchProvider.releases).filter (eligible request)

/-- The release is ranked first among those of the candidates that share its identity: nothing is
ranked before it, and what is listed before it is ranked after it. -/
def RankedFirst (request : SearchRequest) (candidates : List Release) (release : Release) : Prop :=
  ∃ before after, candidates = before ++ release :: after ∧
    (∀ c ∈ before, releaseIdentity c = releaseIdentity release →
      rankedBefore request release c = true) ∧
    ∀ c ∈ after, releaseIdentity c = releaseIdentity release →
      rankedBefore request c release = false

/-- A ranked list with one release for every identity of the candidates. -/
structure Ranked (request : SearchRequest) (candidates result : List Release) : Prop where
  eligible : ∀ r ∈ result, r ∈ candidates ∧ usableRelease r = true ∧
    releaseEligibleForIntent request r.title.toList = true
  sorted : result.Pairwise fun a b => rankedBefore request b a = false
  distinct : (result.map releaseIdentity).Nodup
  first : ∀ r ∈ result, RankedFirst request candidates r
  complete : ∀ c ∈ candidates, ∃ r ∈ result, releaseIdentity r = releaseIdentity c

/-- Providers of distinct names, whose releases carry the name of their provider. -/
structure NamedProviders (providers : List SearchProvider) : Prop where
  distinct : (providers.map SearchProvider.name).Nodup
  carried : ∀ p ∈ providers, ∀ r ∈ p.releases, r.provider = p.name

/-! ## The comparison -/

omit [TextTables] [LetterTables] in
theorem releaseLess_eq :
    releaseLess = byKey ReleaseRank.intentMatch trueFirst (byKey ReleaseRank.titlePrefix trueFirst
      (byKey ReleaseRank.yearMatch trueFirst (byKey ReleaseRank.hasHash trueFirst
      (byKey ReleaseRank.seeders intGreater (byKey ReleaseRank.size intLess
      (byKey ReleaseRank.provider textLess
      fun left right => textLess left.sourceID right.sourceID)))))) := by
  funext left right
  simp only [byKey_trueFirst]
  rfl

omit [TextTables] [LetterTables] in
theorem releaseLess_strictWeak : StrictWeak releaseLess := by
  rw [releaseLess_eq]
  have hsource : StrictWeak fun left right : ReleaseRank =>
      textLess left.sourceID right.sourceID := textLess_total.toStrictWeak.comap _
  have hnumbers : StrictWeak (byKey ReleaseRank.seeders intGreater
      (byKey ReleaseRank.size intLess (byKey ReleaseRank.provider textLess
        fun left right => textLess left.sourceID right.sourceID))) :=
    intGreater_total.byKey (intLess_total.byKey (textLess_total.byKey hsource))
  exact trueFirst_total.byKey (trueFirst_total.byKey (trueFirst_total.byKey
    (trueFirst_total.byKey hnumbers)))

omit [TextTables] [LetterTables] in
/-- Ranks that are tied have one provider. -/
theorem provider_eq_of_tied (left right : ReleaseRank) (h : tied releaseLess left right = true) :
    left.provider = right.provider := by
  obtain ⟨hl, hr⟩ := tied_iff.1 h
  rw [releaseLess_eq] at hl hr
  obtain ⟨-, hl, hr⟩ := trueFirst_total.key_eq hl hr
  obtain ⟨-, hl, hr⟩ := trueFirst_total.key_eq hl hr
  obtain ⟨-, hl, hr⟩ := trueFirst_total.key_eq hl hr
  obtain ⟨-, hl, hr⟩ := trueFirst_total.key_eq hl hr
  obtain ⟨-, hl, hr⟩ := intGreater_total.key_eq hl hr
  obtain ⟨-, hl, hr⟩ := intLess_total.key_eq hl hr
  exact (textLess_total.key_eq hl hr).1

theorem rankedBefore_strictWeak (request : SearchRequest) : StrictWeak (rankedBefore request) :=
  releaseLess_strictWeak.comap (rankRelease request)

theorem provider_eq_of_tied_ranks {request : SearchRequest} {a b : Release}
    (h : tied (rankedBefore request) a b = true) : a.provider = b.provider :=
  provider_eq_of_tied (rankRelease request a) (rankRelease request b) h

/-! ## The ranked list -/

/-- What stays of the sorted candidates is ranked first among those of its identity. -/
theorem rankedFirst_of_sorted {request : SearchRequest} {candidates before after : List Release}
    {release : Release}
    (hsort : stableSort (rankedBefore request) candidates = before ++ release :: after)
    (hfirst : releaseIdentity release ∉ before.map releaseIdentity) :
    RankedFirst request candidates release := by
  have hweak := rankedBefore_strictWeak request
  have hsorted := stableSort_sorted hweak candidates
  rw [hsort, List.pairwise_append] at hsorted
  have hafter := (List.pairwise_cons.1 hsorted.2.1).1
  have hleast : ∀ c ∈ candidates, releaseIdentity c = releaseIdentity release →
      rankedBefore request c release = false := by
    intro c hc hid
    have hmem : c ∈ before ++ release :: after :=
      hsort ▸ (stableSort_perm _ candidates).mem_iff.2 hc
    rcases List.mem_append.1 hmem with hbefore | hrest
    · exact absurd (hid ▸ List.mem_map_of_mem hbefore) hfirst
    · rcases List.mem_cons.1 hrest with rfl | hrest
      · exact hweak.irrefl c
      · exact hafter c hrest
  -- among the tied releases of this identity, the order of the candidates is kept
  let same : Release → Bool := fun c => decide (releaseIdentity c = releaseIdentity release)
  have hties := congrArg (List.filter same) (stableSort_filter_tied hweak release candidates)
  rw [hsort, List.filter_append, List.filter_append,
    List.filter_cons_of_pos (hweak.tied_self release),
    List.filter_cons_of_pos (show same release = true from decide_eq_true rfl)] at hties
  have hnone : (before.filter (tied (rankedBefore request) release)).filter same = [] := by
    rw [List.filter_eq_nil_iff]
    intro c hc hsame
    have hid := of_decide_eq_true hsame
    exact hfirst (hid ▸ List.mem_map_of_mem (List.mem_filter.1 hc).1)
  rw [hnone, List.nil_append, List.filter_filter, List.filter_filter] at hties
  obtain ⟨front, back, hsplit, hfront, -, -⟩ := List.filter_eq_cons_iff.1 hties.symm
  refine ⟨front, back, hsplit, fun c hc hid => ?_, fun c hc hid => ?_⟩
  · have hmem : c ∈ candidates := hsplit ▸ List.mem_append_left _ hc
    have hneg := hfront c hc
    rw [Bool.and_eq_true, not_and] at hneg
    have huntied := hneg (decide_eq_true hid)
    rw [tied_iff, not_and'] at huntied
    cases hless : rankedBefore request release c with
    | true => rfl
    | false => exact absurd hless (huntied (hleast c hmem hid))
  · exact hleast c (hsplit ▸ List.mem_append_right _ (List.mem_cons_of_mem _ hc)) hid

theorem rankAndDeduplicate_ranked (request : SearchRequest) (releases : List Release) :
    Ranked request (releases.filter (eligible request)) (rankAndDeduplicate request releases) := by
  have hweak := rankedBefore_strictWeak request
  have hperm := stableSort_perm (rankedBefore request) (releases.filter (eligible request))
  have hsub : (rankAndDeduplicate request releases).Sublist
      (stableSort (rankedBefore request) (releases.filter (eligible request))) :=
    appendNew_sublist _
  constructor
  case eligible =>
    intro r hr
    have hmem := hperm.mem_iff.1 (hsub.subset hr)
    exact ⟨hmem, Bool.and_eq_true_iff.1 (List.mem_filter.1 hmem).2⟩
  case sorted => exact (stableSort_sorted hweak _).sublist hsub
  case distinct => exact appendNew_nodup _ List.nodup_nil
  case first =>
    intro r hr
    rcases appendNew_first hr with hnil | ⟨-, before, after, hsplit, hfirst⟩
    · cases hnil
    · exact rankedFirst_of_sorted hsplit hfirst
  case complete =>
    intro c hc
    have hkey : releaseIdentity c ∈
        (rankAndDeduplicate request releases).map releaseIdentity :=
      mem_map_appendNew.2 (Or.inr (List.mem_map_of_mem (hperm.mem_iff.2 hc)))
    exact List.mem_map.1 hkey

/-! ## The order of completion -/

omit [LetterTables] in
/-- What has been collected after some calls. -/
theorem collected_releases (calls : List (SearchProvider × ℕ)) (collected : Collected) :
    (calls.foldl Collected.complete collected).releases =
      collected.releases ++ (calls.map Prod.fst).flatMap SearchProvider.releases := by
  induction calls generalizing collected with
  | nil => simp
  | cons call calls ih =>
    rw [List.foldl_cons, ih, List.map_cons, List.flatMap_cons, ← List.append_assoc]
    congr 1
    unfold Collected.complete SearchProvider.releases
    cases call.1.outcome with
    | failed unauthorized => simp
    | found releases => rfl

/-- The call of the provider did not fail. -/
def SearchProvider.succeeded (provider : SearchProvider) : Bool :=
  match provider.outcome with
  | .failed _ => false
  | .found _ => true

omit [LetterTables] in
theorem collected_successes (calls : List (SearchProvider × ℕ)) (collected : Collected) :
    (calls.foldl Collected.complete collected).successes =
      collected.successes + (calls.map Prod.fst).countP SearchProvider.succeeded := by
  induction calls generalizing collected with
  | nil => rfl
  | cons call calls ih =>
    rw [List.foldl_cons, ih, List.map_cons, List.countP_cons]
    unfold Collected.complete SearchProvider.succeeded
    cases call.1.outcome with
    | failed unauthorized => simp
    | found releases => simp; omega

/-- The releases that are tied come from one provider, so their order does not depend on that of the
calls. -/
theorem ties_eq_of_perm {request : SearchRequest} {providers called : List SearchProvider}
    (hnamed : NamedProviders providers) (hcalled : called.Perm providers) (a : Release) :
    ((called.flatMap SearchProvider.releases).filter (eligible request)).filter
        (tied (rankedBefore request) a) =
      ((providers.flatMap SearchProvider.releases).filter (eligible request)).filter
        (tied (rankedBefore request) a) := by
  rw [List.filter_flatMap, List.filter_flatMap, List.filter_flatMap, List.filter_flatMap]
  have hname : ∀ p ∈ providers,
      (p.releases.filter (eligible request)).filter (tied (rankedBefore request) a) ≠ [] →
        p.name = a.provider := by
    intro p hp hne
    obtain ⟨r, hr⟩ := List.exists_mem_of_ne_nil _ hne
    obtain ⟨hr, htied⟩ := List.mem_filter.1 hr
    rw [← hnamed.carried p hp r (List.mem_filter.1 hr).1, provider_eq_of_tied_ranks htied]
  refine flatMap_eq_of_perm hcalled ?_
  have hnames := (hcalled.map SearchProvider.name).nodup_iff.2 hnamed.distinct
  refine List.Pairwise.imp_of_mem ?_ (List.pairwise_map.1 hnames)
  intro c d hc hd hne
  by_contra hboth
  rw [not_or] at hboth
  have hsame := (hname c (hcalled.mem_iff.1 hc) hboth.1).trans
    (hname d (hcalled.mem_iff.1 hd) hboth.2).symm
  exact hne hsame

theorem rankAndDeduplicate_called {request : SearchRequest} {providers called : List SearchProvider}
    (hnamed : NamedProviders providers) (hcalled : called.Perm providers) :
    rankAndDeduplicate request (called.flatMap SearchProvider.releases) =
      rankAndDeduplicate request (providers.flatMap SearchProvider.releases) :=
  congrArg (appendNew releaseIdentity []) <|
    stableSort_congr (rankedBefore_strictWeak request)
      ((hcalled.flatMap_right SearchProvider.releases).filter _) (ties_eq_of_perm hnamed hcalled)

/-- When a search returns a list, and which. -/
theorem search_eq_ok {request : SearchRequest} {providers : List SearchProvider}
    (hnamed : NamedProviders providers) {completed : List (SearchProvider × ℕ)}
    (hcompleted : completed.Perm providers.zipIdx) (errBefore errAfter : Option String)
    (result : List Release) :
    search errBefore errAfter providers completed request = .ok result ↔
      errBefore = none ∧ errAfter = none ∧ (∃ p ∈ providers, p.succeeded = true) ∧
        result = rankAndDeduplicate request (providers.flatMap SearchProvider.releases) := by
  have hcalled : (completed.map Prod.fst).Perm providers := by
    have hperm := hcompleted.map Prod.fst
    rwa [List.zipIdx_map_fst] at hperm
  have hreleases := collected_releases completed .empty
  rw [Collected.empty, List.nil_append] at hreleases
  have hcount := collected_successes completed .empty
  rw [Collected.empty, Nat.zero_add, hcalled.countP_eq] at hcount
  unfold search
  by_cases hempty : providers.isEmpty = true
  · rw [if_pos hempty, List.isEmpty_iff.1 hempty]
    simp
  rw [if_neg hempty]
  cases errBefore with
  | some cause => simp
  | none =>
    cases errAfter with
    | some cause => simp
    | none =>
      dsimp only [Collected.empty]
      rw [hcount, hreleases, rankAndDeduplicate_called hnamed hcalled]
      by_cases hzero : providers.countP SearchProvider.succeeded = 0
      · rw [if_pos hzero]
        have hnone := List.countP_eq_zero.1 hzero
        constructor
        · intro h
          cases h
        · rintro ⟨-, -, ⟨p, hp, hsome⟩, -⟩
          exact absurd hsome (hnone p hp)
      · rw [if_neg hzero, Except.ok.injEq, eq_comm]
        have hsome := List.countP_pos_iff.1 (Nat.pos_of_ne_zero hzero)
        exact ⟨fun h => ⟨rfl, rfl, hsome, h⟩, fun h => h.2.2.2⟩

/-- Searching is independent of the order in which the calls complete. The list is sorted, and holds
for every identity of an eligible release the one that is ranked first. -/
theorem search_correct (request : SearchRequest) {providers : List SearchProvider}
    (hnamed : NamedProviders providers) {completed completed' : List (SearchProvider × ℕ)}
    (hcompleted : completed.Perm providers.zipIdx) (hcompleted' : completed'.Perm providers.zipIdx)
    (errBefore errAfter : Option String) (result : List Release) :
    (search errBefore errAfter providers completed request = .ok result ↔
      search errBefore errAfter providers completed' request = .ok result) ∧
    (search errBefore errAfter providers completed request = .ok result →
      Ranked request (eligibleReleases request providers) result) := by
  refine ⟨?_, fun h => ?_⟩
  · rw [search_eq_ok hnamed hcompleted, search_eq_ok hnamed hcompleted']
  · obtain ⟨-, -, -, rfl⟩ := (search_eq_ok hnamed hcompleted _ _ _).1 h
    exact rankAndDeduplicate_ranked request _

end Search

section SmallRuns

attribute [local instance] TextTables.ascii LetterTables.ascii

/-- A release that a provider reports for `a` of 2000. -/
def smallRelease (provider : String) : Release where
  provider := provider
  sourceID := "1"
  title := "A (2000)"
  protocol := .usenet
  size := 1
  indexer := "i"
  infoHash := ""
  magnetURL := ""
  downloadURL := "https://u"
  seeders := none
  infoHash_normal := normalHash_empty

/-- Two providers with a release each. -/
def smallProviders : List SearchProvider :=
  [⟨"x", .found [smallRelease "x"]⟩, ⟨"y", .found [smallRelease "y"]⟩]

theorem smallProviders_named : NamedProviders smallProviders where
  distinct := by decide
  carried p hp r hr := by
    simp only [smallProviders, List.mem_cons, List.not_mem_nil, or_false] at hp
    rcases hp with rfl | rfl
    · exact congrArg Release.provider (List.mem_singleton.1 hr)
    · exact congrArg Release.provider (List.mem_singleton.1 hr)

/-- The second provider completes first. -/
theorem search_secondFirst :
    search none none smallProviders smallProviders.zipIdx.reverse ⟨.movie, "a", 2000, 0, 0⟩ =
        .ok [smallRelease "x", smallRelease "y"] ∧
      Ranked ⟨.movie, "a", 2000, 0, 0⟩
        (eligibleReleases ⟨.movie, "a", 2000, 0, 0⟩ smallProviders)
        [smallRelease "x", smallRelease "y"] := by
  have hrun : search none none smallProviders smallProviders.zipIdx.reverse
      ⟨.movie, "a", 2000, 0, 0⟩ = .ok [smallRelease "x", smallRelease "y"] := by decide +kernel
  exact ⟨hrun, (search_correct ⟨.movie, "a", 2000, 0, 0⟩ smallProviders_named
    (List.reverse_perm _) (List.Perm.refl _) none none _).2 hrun⟩

end SmallRuns

end BlackPearl.Resolver
