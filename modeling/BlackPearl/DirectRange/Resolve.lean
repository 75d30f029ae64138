import BlackPearl.Acquisition.Selection
import BlackPearl.InternetArchive.Files
import BlackPearl.Resolver.Eligibility

/-!
# Resolving direct files

`Resolver.Resolve` of `internal/service/directrange/resolver.go`: the media of each eligible release
are selected from, and the candidate that is returned is looked up by the backing of the selected
media. Over the archive gateway the two are of one file exactly if the names of the listed files tell
them apart (`archive_agrees_iff`).
-/

set_option autoImplicit false

namespace BlackPearl.DirectRange

open BlackPearl.Library BlackPearl.Domain BlackPearl.Acquisition BlackPearl.Resolver
open BlackPearl.InternetArchive

section Resolving

variable [TextTables] [LetterTables]

/-! ## The resolver -/

/-- The key of an object of a provider. -/
def backingKey (media : MediaCandidate) : String :=
  media.backing.provider ++ "\x00" ++ media.objectID

/-- The candidates without a marker of auxiliary videos. -/
def usableCandidates (request : SearchRequest) (candidates : List RangeCandidate) :
    List RangeCandidate :=
  candidates.filter fun c => !hasAuxiliaryMarker request.title.toList c.media.name.toList

/-- The selected media of a release, and the candidate that the map by backing has for it: the last
one with its key. -/
def chooseCandidate (sorter : Sorter MediaCandidate) (request : SearchRequest)
    (candidates : List RangeCandidate) : Option (MediaCandidate × RangeCandidate) :=
  let usable := usableCandidates request candidates
  match selectCandidate sorter request (usable.map RangeCandidate.media) with
  | .error _ => none
  | .ok selected =>
      (usable.reverse.find? fun c => backingKey c.media = backingKey selected).map fun c =>
        (selected, c)

/-- What `Resolve` keeps over the releases. -/
structure Progress where
  result : List RangeCandidate
  seen : List String
  eligibleItems : ℕ
  failedItems : ℕ

def Progress.start : Progress := ⟨[], [], 0, 0⟩

/-- The loop of `Resolve`. A listing that fails says whether the context has ended. -/
def resolveFrom (sorter : Sorter MediaCandidate) (request : SearchRequest)
    (list : Release → Except Bool (List RangeCandidate)) : List Release → Progress → Option Progress
  | [], p => some p
  | release :: releases, p =>
    if releaseEligible request release.title.toList = false then
      resolveFrom sorter request list releases p
    else
      match list release with
      | .error true => none
      | .error false => resolveFrom sorter request list releases
          { p with eligibleItems := p.eligibleItems + 1, failedItems := p.failedItems + 1 }
      | .ok candidates =>
        match chooseCandidate sorter request candidates with
        | none => resolveFrom sorter request list releases
            { p with eligibleItems := p.eligibleItems + 1 }
        | some (selected, candidate) =>
          if backingKey selected ∈ p.seen then
            resolveFrom sorter request list releases { p with eligibleItems := p.eligibleItems + 1 }
          else
            let p := { p with
              eligibleItems := p.eligibleItems + 1
              seen := p.seen ++ [backingKey selected]
              result := p.result ++ [candidate] }
            if p.result.length = maximumJobCandidates then some p
            else resolveFrom sorter request list releases p

/-- `Resolve`. A search that fails says whether the context has ended. -/
def resolve (sorter : Sorter MediaCandidate) (ended : Bool) (search : Except Bool (List Release))
    (list : Release → Except Bool (List RangeCandidate)) (request : SearchRequest) :
    Checked (List RangeCandidate) :=
  if ended then .error "resolve direct range media"
  else
    match search with
    | .error true => .error "search direct range media"
    | .error false => .error "search direct range media is unavailable"
    | .ok releases =>
      match resolveFrom sorter request list releases .start with
      | none => .error "list direct range media"
      | some p =>
        if 0 < p.eligibleItems ∧ p.failedItems = p.eligibleItems then
          .error "list direct range media is unavailable"
        else .ok p.result

/-! ## What is returned -/

/-- A returned candidate was chosen from the listing of a release, and its media are what was selected
there. -/
def ReturnsSelected (sorter : Sorter MediaCandidate) (request : SearchRequest)
    (list : Release → Except Bool (List RangeCandidate)) (releases : List Release)
    (result : List RangeCandidate) : Prop :=
  ∀ c ∈ result, ∃ release ∈ releases, ∃ candidates, list release = .ok candidates ∧
    (∃ selected, chooseCandidate sorter request candidates = some (selected, c)) ∧
    selectCandidate sorter request
      ((usableCandidates request candidates).map RangeCandidate.media) = .ok c.media

/-- A candidate that was chosen has the key of the selected media, of which it was listed. -/
theorem chooseCandidate_spec {sorter : Sorter MediaCandidate} {request : SearchRequest}
    {candidates : List RangeCandidate} {selected : MediaCandidate} {c : RangeCandidate}
    (h : chooseCandidate sorter request candidates = some (selected, c)) :
    selectCandidate sorter request
        ((usableCandidates request candidates).map RangeCandidate.media) = .ok selected ∧
      c ∈ candidates ∧ backingKey c.media = backingKey selected ∧
      ∃ d ∈ candidates, d.media = selected := by
  unfold chooseCandidate at h
  dsimp only at h
  split at h
  · cases h
  · rename_i s hselect
    obtain ⟨d, hd, heq⟩ := Option.map_eq_some_iff.1 h
    obtain ⟨rfl, rfl⟩ := Prod.mk.inj heq
    have hmem := List.mem_reverse.1 (List.mem_of_find?_eq_some hd)
    have hkey := List.find?_some hd
    obtain ⟨e, he, hmedia⟩ := List.mem_map.1 (selectCandidate_best hselect).selectable.1
    exact ⟨hselect, (List.mem_filter.1 hmem).1, of_decide_eq_true hkey, e,
      (List.mem_filter.1 he).1, hmedia⟩

/-- Every result of the loop was chosen from the listing of a release. -/
theorem resolveFrom_chosen {sorter : Sorter MediaCandidate} {request : SearchRequest}
    {list : Release → Except Bool (List RangeCandidate)} {releases : List Release} {p q : Progress}
    (h : resolveFrom sorter request list releases p = some q) {c : RangeCandidate}
    (hc : c ∈ q.result) :
    c ∈ p.result ∨ ∃ release ∈ releases, ∃ candidates selected, list release = .ok candidates ∧
      chooseCandidate sorter request candidates = some (selected, c) := by
  induction releases generalizing p with
  | nil =>
    cases h
    exact Or.inl hc
  | cons release releases ih =>
    have hlater : ∀ {p' : Progress}, resolveFrom sorter request list releases p' = some q →
        p'.result = p.result →
        c ∈ p.result ∨ ∃ r ∈ release :: releases, ∃ candidates selected,
          list r = .ok candidates ∧
            chooseCandidate sorter request candidates = some (selected, c) := by
      intro p' h' hsame
      rcases ih h' with hmem | ⟨r, hr, hrest⟩
      · exact Or.inl (hsame ▸ hmem)
      · exact Or.inr ⟨r, List.mem_cons_of_mem release hr, hrest⟩
    rw [resolveFrom] at h
    split at h
    · exact hlater h rfl
    · split at h
      · cases h
      · exact hlater h rfl
      · rename_i candidates hlist
        split at h
        · exact hlater h rfl
        · rename_i selected candidate hchoose
          split at h
          · exact hlater h rfl
          · have hadded : c ∈ p.result ++ [candidate] → c ∈ p.result ∨
                ∃ r ∈ release :: releases, ∃ candidates selected, list r = .ok candidates ∧
                  chooseCandidate sorter request candidates = some (selected, c) := by
              intro hmem
              rcases List.mem_append.1 hmem with hmem | hmem
              · exact Or.inl hmem
              · rw [List.mem_singleton.1 hmem]
                exact Or.inr ⟨release, List.mem_cons_self, candidates, selected, hlist, hchoose⟩
            dsimp only at h
            split at h
            · cases h
              exact hadded hc
            · rcases ih h with hmem | ⟨r, hr, hrest⟩
              · exact hadded hmem
              · exact Or.inr ⟨r, List.mem_cons_of_mem release hr, hrest⟩

/-! ## Over the archive gateway -/

/-- The listing of the archive gateway; `ended` is whether the context has ended when it fails. -/
def archiveListing (g : Gateway) (files : Sorter ExactFile) (ended : Release → Bool)
    (release : Release) : Except Bool (List RangeCandidate) :=
  match listRangeCandidates g files release with
  | .ok candidates => .ok candidates
  | .error _ => .error (ended release)

omit [LetterTables] in
theorem archiveListing_eq_ok {g : Gateway} {files : Sorter ExactFile} {ended : Release → Bool}
    {release : Release} {candidates : List RangeCandidate} :
    archiveListing g files ended release = .ok candidates ↔
      listRangeCandidates g files release = .ok candidates := by
  unfold archiveListing
  cases listRangeCandidates g files release with
  | ok listed => simp only [Except.ok.injEq]
  | error e => exact iff_of_false (by intro h; cases h) (by intro h; cases h)

/-- Over the releases of a search: opening agrees with the listing of each, and what is returned has
the media that were selected. -/
structure ArchiveAgrees (g : Gateway) (files : Sorter ExactFile) (ended : Release → Bool)
    (sorter : Sorter MediaCandidate) (request : SearchRequest) (releases : List Release) : Prop where
  opens : ∀ release ∈ releases, OpensAsListed g files release
  resolves : ∀ result,
    resolve sorter false (.ok releases) (archiveListing g files ended) request = .ok result →
      ReturnsSelected sorter request (archiveListing g files ended) releases result

omit [LetterTables] in
/-- Listed candidates of one key have the same media, if names tell the files apart. -/
theorem media_eq_of_key {g : Gateway} {files : Sorter ExactFile} {release : Release}
    {candidates : List RangeCandidate} (hnames : NamesTellFiles g files release)
    (hlist : listRangeCandidates g files release = .ok candidates) {c d : RangeCandidate}
    (hc : c ∈ candidates) (hd : d ∈ candidates) (hkey : backingKey c.media = backingKey d.media) :
    c.media = d.media := by
  obtain ⟨metadata, haccepted, hpairs⟩ := listRangeCandidates_eq_ok.1 hlist
  obtain ⟨x, hx, hxc⟩ := exists_of_mem_forall₂ hpairs hc
  obtain ⟨y, hy, hyd⟩ := exists_of_mem_forall₂ hpairs hd
  obtain ⟨⟨o, hencode, hobject, hmedia⟩, -, -⟩ := rangeCandidate_spec hxc
  obtain ⟨⟨o', hencode', hobject', hmedia'⟩, -, -⟩ := rangeCandidate_spec hyd
  have hbacking := (newProviderMediaCandidate_idem hmedia).2.2.2.2.1
  have hbacking' := (newProviderMediaCandidate_idem hmedia').2.2.2.2.1
  rw [backingKey, backingKey, hbacking, hbacking'] at hkey
  have hid : asciiText o = asciiText o' := by
    rw [← hobject, ← hobject']
    exact (String.append_right_inj _).1 hkey
  have hbytes : o = o' := by
    rw [← textBytes_asciiText fun b hb => encodeFileObjectID_ascii hencode hb, hid,
      textBytes_asciiText fun b hb => encodeFileObjectID_ascii hencode' hb]
  subst hbytes
  have hfile := (decodeFileObjectID_of_encode hencode).symm.trans
    (decodeFileObjectID_of_encode hencode')
  have hname : x.name = y.name := textBytes_injective (Prod.mk.inj (Except.ok.inj hfile)).2
  rw [hname, (hnames metadata haccepted x hx y hy hname).1, hmedia'] at hmedia
  exact (Except.ok.inj hmedia).symm

/-- Listing, opening and selecting agree over the releases of a search exactly if the names of the
files that are listed for each tell them apart. -/
theorem archive_agrees_iff (g : Gateway) (files : Sorter ExactFile) (ended : Release → Bool)
    (sorter : Sorter MediaCandidate) (request : SearchRequest) (releases : List Release) :
    ArchiveAgrees g files ended sorter request releases ↔
      ∀ release ∈ releases, NamesTellFiles g files release := by
  constructor
  · exact fun h release hrelease => (opensAsListed_iff g files release).1 (h.opens release hrelease)
  · intro hnames
    refine ⟨fun release hrelease => (opensAsListed_iff g files release).2 (hnames release hrelease),
      ?_⟩
    intro result hresolve c hc
    have hloop : ∃ p, resolveFrom sorter request (archiveListing g files ended) releases .start =
        some p ∧ p.result = result := by
      unfold resolve at hresolve
      rw [if_neg Bool.false_ne_true] at hresolve
      dsimp only at hresolve
      split at hresolve
      · cases hresolve
      · rename_i p hp
        split at hresolve
        · cases hresolve
        · exact ⟨p, hp, Except.ok.inj hresolve⟩
    obtain ⟨p, hp, rfl⟩ := hloop
    rcases resolveFrom_chosen hp hc with hmem | ⟨release, hrelease, candidates, selected, hlist,
      hchoose⟩
    · cases hmem
    · obtain ⟨hselect, hmem, hkey, d, hd, rfl⟩ := chooseCandidate_spec hchoose
      have hmedia := media_eq_of_key (hnames release hrelease) (archiveListing_eq_ok.1 hlist) hmem hd
        hkey
      exact ⟨release, hrelease, candidates, hlist, ⟨_, hchoose⟩, hmedia ▸ hselect⟩

end Resolving

section SmallRuns

attribute [local instance] TextTables.ascii LetterTables.ascii

/-- A file of a document, with a digest of one digit throughout. -/
def archiveFileOf (name : String) (size : ℤ) (digit : Char) : ArchiveFile where
  name := name
  size := some (Json.int size)
  sha1 := String.ofList (List.replicate 40 digit)
  source := "original"

/-- An archive whose items all have two files of one normalized name. -/
def slashedArchive : Gateway where
  fetchMetadata _ := .ok ⟨true, [archiveFileOf "dir\\Movie.mkv" 5 '1', archiveFileOf "dir/Movie.mkv" 7 '2']⟩
  joinsBase _ := true
  joins _ := true

/-- A release of the archive. -/
def archiveRelease : Release :=
  { Release.zero with provider := providerName, sourceID := "item" }

/-- A candidate of that file. -/
def slashedCandidate (size : ℤ) (digit : Char) : RangeCandidate where
  media := ⟨fileProviderName, "aXRlbQ~ZGlyL01vdmllLm1rdg", "dir/Movie.mkv", ".mkv", size⟩
  indexer := internetArchiveTag
  validator := "internet-archive:sha1:" ++ String.ofList (List.replicate 40 digit)

/-- Two files have one identity: opening the second one's finds the first. -/
theorem archive_disagrees :
    ¬ ∀ (g : Gateway) (files : Sorter ExactFile) (ended : Release → Bool)
      (sorter : Sorter MediaCandidate) (request : SearchRequest) (releases : List Release),
      ArchiveAgrees g files ended sorter request releases := by
  intro h
  have hopens := (h slashedArchive (Sorter.stable _) (fun _ => false) (Sorter.stable _)
    ⟨.movie, "Movie", 2020, 0, 0⟩ [archiveRelease]).opens archiveRelease (List.mem_singleton.2 rfl)
  have hlist : listRangeCandidates slashedArchive (Sorter.stable _) archiveRelease =
      .ok [slashedCandidate 5 '1', slashedCandidate 7 '2'] := by decide +kernel
  obtain ⟨file, hresolve, hsize, -⟩ := hopens _ _ hlist rfl (slashedCandidate 7 '2')
    (List.mem_cons_of_mem _ List.mem_cons_self)
  have hfirst : resolveObjectID slashedArchive (Sorter.stable _)
      [archiveFileOf "dir\\Movie.mkv" 5 '1', archiveFileOf "dir/Movie.mkv" 7 '2']
      (slashedCandidate 7 '2').media.objectID =
        .ok ⟨"dir/Movie.mkv", 5, String.ofList (List.replicate 40 '1'), "original"⟩ := by
    decide +kernel
  rw [← Except.ok.inj (hfirst.symm.trans hresolve)] at hsize
  revert hsize
  decide

end SmallRuns

end BlackPearl.DirectRange
