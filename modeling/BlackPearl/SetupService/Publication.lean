import BlackPearl.SetupService.Service

/-!
# Publishing acquired media

`PublishAcquired` replaces the first item that has the new medium's object or stands for the same
film or episode, and appends the medium when there is none. An old item can match in the one way and
another in the other; then the second stays, and the manifest is refused or holds the medium twice.
With at most one match the new manifest is the old one with the medium in it
(`publishesOnce_iff`).
-/

set_option autoImplicit false

namespace BlackPearl.SetupService

open BlackPearl.Library BlackPearl.Library.Path BlackPearl.Setup

/-! ## The loop -/

/-- No item passes a test that each of them fails. -/
theorem filter_eq_nil_of_false {p : SetupConfiguration → Bool} {l : List SetupConfiguration}
    (h : ∀ i ∈ l, p i = false) : l.filter p = [] := by
  rw [List.filter_eq_nil_iff]
  intro i hi
  rw [h i hi]
  exact Bool.false_ne_true

theorem filter_not_eq_self {p : SetupConfiguration → Bool} {l : List SetupConfiguration}
    (h : ∀ i ∈ l, p i = false) : l.filter (fun i => !p i) = l := by
  rw [List.filter_eq_self]
  intro i hi
  rw [h i hi]
  rfl

theorem replaceItem_eq_none {c : SetupConfiguration} {items : List SetupConfiguration} :
    replaceItem c items = none ↔ ∀ i ∈ items, replaces c i = false := by
  induction items with
  | nil => simp [replaceItem]
  | cons i rest ih =>
    cases hi : replaces c i with
    | true => simp [replaceItem, hi]
    | false => simp [replaceItem, hi, ih]

/-- The items around the one that is replaced. -/
theorem replaceItem_eq_some {c : SetupConfiguration} {items replaced : List SetupConfiguration}
    (h : replaceItem c items = some replaced) : ∃ before i after, items = before ++ i :: after ∧
      (∀ b ∈ before, replaces c b = false) ∧ replaces c i = true ∧
      replaced = before ++ c :: after := by
  induction items generalizing replaced with
  | nil => cases h
  | cons i rest ih =>
    cases hi : replaces c i with
    | true =>
      simp only [replaceItem, hi, if_true, Option.some.injEq] at h
      exact ⟨[], i, rest, rfl, fun b hb => absurd hb List.not_mem_nil, hi, h.symm⟩
    | false =>
      simp only [replaceItem, hi, Bool.false_eq_true, if_false, Option.map_eq_some_iff] at h
      obtain ⟨tail, htail, rfl⟩ := h
      obtain ⟨before, j, after, rfl, hbefore, hj, rfl⟩ := ih htail
      refine ⟨i :: before, j, after, rfl, ?_, hj, rfl⟩
      intro b hb
      rcases List.mem_cons.1 hb with rfl | hb
      · exact hi
      · exact hbefore b hb

/-- The new item stands among items that do not match, and these are the old ones. -/
structure Spliced (c : SetupConfiguration) (old new : List SetupConfiguration) : Prop where
  split : ∃ before after, new = before ++ c :: after ∧
    old.filter (fun i => !replaces c i) = before ++ after ∧
    ∀ i ∈ before ++ after, replaces c i = false
  short : old.length ≤ maximumSetupManifestItems → new.length ≤ maximumSetupManifestItems

theorem publishedItems_spliced {c : SetupConfiguration} {items new : List SetupConfiguration}
    (hone : (items.filter (replaces c)).length ≤ 1) (h : publishedItems c items = .ok new) :
    Spliced c items new := by
  unfold publishedItems at h
  split at h
  · next replaced hreplaced =>
    obtain rfl := Except.ok.inj h
    obtain ⟨before, i, after, rfl, hbefore, hi, rfl⟩ := replaceItem_eq_some hreplaced
    have hafter : ∀ a ∈ after, replaces c a = false := by
      intro a ha
      rw [List.filter_append, List.filter_cons_of_pos hi, List.length_append,
        List.length_cons] at hone
      have hnil : after.filter (replaces c) = [] := List.length_eq_zero_iff.1 (by omega)
      simpa using List.filter_eq_nil_iff.1 hnil a ha
    have hall : ∀ j ∈ before ++ after, replaces c j = false := by
      intro j hj
      rcases List.mem_append.1 hj with hj | hj
      · exact hbefore j hj
      · exact hafter j hj
    refine ⟨⟨before, after, rfl, ?_, hall⟩, ?_⟩
    · rw [List.filter_append, List.filter_cons_of_neg (by simp [hi]), ← List.filter_append,
        filter_not_eq_self hall]
    · intro hle
      rw [List.length_append, List.length_cons] at hle ⊢
      exact hle
  · next hnone =>
    have hall := replaceItem_eq_none.1 hnone
    split at h
    · cases h
    · next hroom =>
      obtain rfl := Except.ok.inj h
      refine ⟨⟨items, [], rfl, ?_, ?_⟩, ?_⟩
      · rw [List.append_nil, filter_not_eq_self hall]
      · rw [List.append_nil]
        exact hall
      · intro hle
        rw [List.length_append, List.length_singleton]
        omega

section Items

variable [TextTables]

/-! ## Items that validation gives back -/

/-- An item that validation gives back names its provider. -/
theorem backing_eq {i : SetupConfiguration} (h : validateSetupConfiguration i = .ok i) :
    i.backing = ⟨i.provider, i.objectID⟩ := by
  have hne := (validateSetupConfiguration_eq_ok h).provider_ne
  rw [SetupConfiguration.backing, SetupConfiguration.providerOrDefault, if_neg hne]

theorem nul_notMem_objectID {i : SetupConfiguration} (h : validateSetupConfiguration i = .ok i) :
    Piece.char '\x00' ∉ i.objectID := by
  obtain ⟨path, hpath⟩ := setupVirtualPath_of_validateSetupConfiguration h
  exact objectID_no_nul hpath

/-- It stands for the film or episode that it stands for. -/
theorem sameLogicalMedia_self {i : SetupConfiguration}
    (h : validateSetupConfiguration i = .ok i) : sameLogicalMedia i i = true := by
  rcases (validateSetupConfiguration_eq_ok h).mediaType with htype | htype
  · simp [sameLogicalMedia, htype]
  · simp [sameLogicalMedia, htype]

omit [TextTables] in
theorem replaces_self (i : SetupConfiguration) : replaces i i = true := by
  simp [replaces]

/-- Items with one path stand for one film or one episode. -/
theorem sameLogicalMedia_of_path {i c : SetupConfiguration}
    (hi : validateSetupConfiguration i = .ok i) (hc : validateSetupConfiguration c = .ok c)
    (h : setupVirtualPath i = setupVirtualPath c) : sameLogicalMedia i c = true := by
  obtain ⟨path, hpath⟩ := setupVirtualPath_of_validateSetupConfiguration hc
  have hmovie : ∀ {j}, validateSetupConfiguration j = .ok j → j.mediaType ≠ mediaTypeEpisode →
      j.mediaType = mediaTypeMovie := fun hj hne =>
    (validateSetupConfiguration_eq_ok hj).mediaType.resolve_right hne
  have hsegments : ∀ {l m : List ByteText}, l ≠ [] → m ≠ [] → (∀ s ∈ l, Plain s) →
      (∀ s ∈ m, Plain s) → path = ofSegments l → path = ofSegments m → l = m :=
    fun hl hm hlplain hmplain hlpath hmpath =>
      ofSegments_injective (fun s hs => (hlplain s hs).no_slash)
        (fun s hs => (hmplain s hs).no_slash) hl hm (hlpath.symm.trans hmpath)
  have hne : ∀ {s : ByteText} {l}, s :: l ≠ [] := List.cons_ne_nil _ _
  cases setupVirtualPath_eq_ok (h.trans hpath) with
  | movie hitype hipath hiplain =>
    cases setupVirtualPath_eq_ok hpath with
    | movie hctype hcpath hcplain =>
      obtain ⟨htitle, hyear⟩ :=
        movieSegments_inj (hsegments hne hne hiplain hcplain hipath hcpath)
      simp [sameLogicalMedia, hmovie hi hitype, hmovie hc hctype, htitle, hyear]
    | episode hctype _ _ hcpath hcplain =>
      exact absurd (hsegments hne hne hiplain hcplain hipath hcpath)
        movieSegments_ne_episodeSegments
  | episode hitype his hie hipath hiplain =>
    cases setupVirtualPath_eq_ok hpath with
    | movie hctype hcpath hcplain =>
      exact absurd (hsegments hne hne hcplain hiplain hcpath hipath)
        movieSegments_ne_episodeSegments
    | episode hctype hcs hce hcpath hcplain =>
      obtain ⟨hshow, hyear, hseason, hepisode⟩ := episodeSegments_inj his hcs hie hce
        (hsegments hne hne hiplain hcplain hipath hcpath)
      have hkind : ¬ mediaTypeEpisode = mediaTypeMovie := by decide
      simp [sameLogicalMedia, hitype, hctype, hkind, hshow, hyear, hseason, hepisode]

/-- What does not match the new item can stand beside it in a manifest. -/
theorem distinct_of_not_replaces {c i : SetupConfiguration}
    (hc : validateSetupConfiguration c = .ok c) (hi : validateSetupConfiguration i = .ok i)
    (h : replaces c i = false) :
    objectKey i ≠ objectKey c ∧ setupVirtualPath i ≠ setupVirtualPath c := by
  simp only [replaces, Bool.or_eq_false_iff, decide_eq_false_iff_not] at h
  constructor
  · intro hkey
    obtain ⟨hprovider, hobject⟩ :=
      objectKey_inj (nul_notMem_objectID hi) (nul_notMem_objectID hc) hkey
    apply h.1
    rw [backing_eq hi, backing_eq hc, hprovider, hobject]
  · intro hpath
    rw [sameLogicalMedia_of_path hi hc hpath] at h
    exact Bool.noConfusion h.2

/-- A spliced manifest is a manifest. -/
theorem newSetupManifest_spliced {c : SetupConfiguration} {old new : List SetupConfiguration}
    (hold : newSetupManifest old = .ok ⟨old⟩) (hc : validateSetupConfiguration c = .ok c)
    (h : Spliced c old new) : newSetupManifest new = .ok ⟨new⟩ := by
  obtain ⟨_, hlength, hvalid, hpairs⟩ := newSetupManifest_self_iff.1 hold
  obtain ⟨⟨before, after, rfl, hfilter, hnot⟩, hshort⟩ := h
  have hsublist : (before ++ after).Sublist old := hfilter ▸ List.filter_sublist
  have hothers : ∀ i ∈ before ++ after, validateSetupConfiguration i = .ok i :=
    fun i hi => hvalid i (hsublist.subset hi)
  have hdistinct : ∀ i ∈ before ++ after,
      objectKey i ≠ objectKey c ∧ setupVirtualPath i ≠ setupVirtualPath c :=
    fun i hi => distinct_of_not_replaces hc (hothers i hi) (hnot i hi)
  refine newSetupManifest_self_iff.2 ⟨by simp, hshort hlength, ?_, ?_⟩
  · intro i hi
    rcases List.mem_append.1 hi with hi | hi
    · exact hothers i (List.mem_append_left _ hi)
    · rcases List.mem_cons.1 hi with rfl | hi
      · exact hc
      · exact hothers i (List.mem_append_right _ hi)
  · have hkept := List.pairwise_append.1 (hpairs.sublist hsublist)
    refine List.pairwise_append.2 ⟨hkept.1, List.pairwise_cons.2 ⟨?_, hkept.2.1⟩, ?_⟩
    · intro i hi
      have hi := hdistinct i (List.mem_append_right _ hi)
      exact ⟨hi.1.symm, hi.2.symm⟩
    · intro i hi j hj
      rcases List.mem_cons.1 hj with rfl | hj
      · exact hdistinct i (List.mem_append_left _ hi)
      · exact hkept.2.2 i hi j hj

/-! ## The new item -/

/-- What the configuration of an acquired medium takes over from the request. -/
theorem configurationFromAcquired_fields {media : AcquiredMedia} {c : SetupConfiguration}
    (hrequest : media.request.Accepted) (h : configurationFromAcquired media = .ok c) :
    c.mediaType = mediaTypeText media.request.mediaType ∧ c.year = media.request.year ∧
      (media.request.mediaType = .movie → c.title = media.request.title) ∧
      (media.request.mediaType = .episode → c.showTitle = media.request.title ∧
        c.season = media.request.season ∧ c.episode = media.request.episode) := by
  obtain ⟨⟨type, title, year, season, episode⟩, candidate⟩ := media
  have htrim : ByteText.trimSpace title = title := hrequest.cases.1.trimmed
  cases type with
  | movie =>
    simp only [configurationFromAcquired, newSetupConfiguration, bind_eq_ok, pure_eq_ok,
      htrim] at h
    obtain ⟨_, _, _, _, _, _, _, _, rfl⟩ := h
    exact ⟨rfl, rfl, fun _ => rfl, fun hne => by cases hne⟩
  | episode =>
    simp only [configurationFromAcquired, newSetupEpisodeConfiguration, bind_eq_ok, pure_eq_ok,
      htrim] at h
    obtain ⟨_, _, _, _, _, _, _, _, rfl⟩ := h
    exact ⟨rfl, rfl, (fun hne => by cases hne), fun _ => ⟨rfl, rfl, rfl⟩⟩
  | unset => simp [configurationFromAcquired] at h

/-- `FindPublished` looks for what `PublishAcquired` would replace as the same film or episode. -/
theorem publishedMediaMatches_eq {media : AcquiredMedia} {c : SetupConfiguration}
    (hrequest : media.request.Accepted) (h : configurationFromAcquired media = .ok c)
    (i : SetupConfiguration) : publishedMediaMatches i media.request = sameLogicalMedia i c := by
  obtain ⟨htype, hyear, hmovie, hepisode⟩ := configurationFromAcquired_fields hrequest h
  have hkind : ¬ mediaTypeEpisode = mediaTypeMovie := by decide
  unfold publishedMediaMatches sameLogicalMedia
  rw [htype, hyear]
  by_cases hdiffers : i.mediaType ≠ mediaTypeText media.request.mediaType ∨
      i.year ≠ media.request.year
  · rw [if_pos hdiffers, if_pos hdiffers]
  · rw [if_neg hdiffers, if_neg hdiffers]
    rw [not_or, not_not] at hdiffers
    cases hrequestType : media.request.mediaType with
    | movie =>
      rw [hdiffers.1, hrequestType, hmovie hrequestType]
      simp [mediaTypeText]
    | episode =>
      obtain ⟨hshow, hseason, hnumber⟩ := hepisode hrequestType
      rw [hdiffers.1, hrequestType, hshow, hseason, hnumber]
      simp [mediaTypeText, hkind]
    | unset =>
      rw [hdiffers.1, hrequestType]
      have h₁ : ¬ ([] : ByteText) = mediaTypeMovie := by decide
      have h₂ : ¬ ([] : ByteText) = mediaTypeEpisode := by decide
      simp [mediaTypeText, h₁, h₂]

/-! ## One publication -/

/-- When the items make a manifest as they stand, it is what is saved. -/
theorem publishAcquired_of_items {s : Service} {saved : SavedSetup} {media : AcquiredMedia}
    {c : SetupConfiguration} {new : List SetupConfiguration} (hsaved : s.saved = some saved)
    (hc : configurationFromAcquired media = .ok c)
    (hitems : publishedItems c saved.manifest.items = .ok new)
    (hnew : newSetupManifest new = .ok ⟨new⟩) :
    ∃ t, publishAcquired {} media s = (.ok (), t) ∧ t.saved = some ⟨saved.token, ⟨new⟩, hnew⟩ := by
  have hload : loadManifest (.ok ()) s = .ok saved := by rw [loadManifest, hsaved]
  have hcommit := commitManifest_calm saved.token hnew s
  refine ⟨(commitManifest {} saved.token ⟨new⟩ s).2, ?_, ?_⟩
  · simp only [publishAcquired, hload, hc, hitems, hnew, hcommit, Except.map]
  · rw [hcommit]

/-- A publication that succeeds has saved a manifest of its items. -/
theorem items_of_publishAcquired {s t : Service} {saved : SavedSetup} {media : AcquiredMedia}
    {c : SetupConfiguration} (hsaved : s.saved = some saved)
    (hc : configurationFromAcquired media = .ok c)
    (h : publishAcquired {} media s = (.ok (), t)) :
    ∃ items manifest, publishedItems c saved.manifest.items = .ok items ∧
      newSetupManifest items = .ok manifest ∧ t.saved.map SavedSetup.manifest = some manifest := by
  have hload : loadManifest (.ok ()) s = .ok saved := by rw [loadManifest, hsaved]
  cases hitems : publishedItems c saved.manifest.items with
  | error e => simp [publishAcquired, hload, hc, hitems] at h
  | ok items =>
    cases hnew : newSetupManifest items with
    | error message => simp [publishAcquired, hload, hc, hitems, hnew] at h
    | ok manifest =>
      have hcommit := commitManifest_calm saved.token (newSetupManifest_idem hnew) s
      simp only [publishAcquired, hload, hc, hitems, hnew, hcommit, Prod.mk.injEq] at h
      rw [← h.2]
      exact ⟨items, manifest, rfl, hnew, rfl⟩

/-- The manifest `new` is `old` with the item `c` in the place of everything that it stands for. -/
structure Published (c : SetupConfiguration) (old new : SetupManifest) : Prop where
  backing : new.items.filter (fun i => i.backing = c.backing) = [c]
  logical : new.items.filter (fun i => sameLogicalMedia i c) = [c]
  others : new.items.filter (fun i => !replaces c i) = old.items.filter fun i => !replaces c i

/-- No item matches and there is no room for another. -/
def AtCapacity (c : SetupConfiguration) (m : SetupManifest) : Prop :=
  (∀ i ∈ m.items, replaces c i = false) ∧ m.items.length = maximumSetupManifestItems

/-- Publishing the medium from this state: it succeeds, the new manifest has the new item once and
the others as they were, the new item is found, and publishing again changes nothing. -/
def PublishesOnce (media : AcquiredMedia) (c : SetupConfiguration) (s : Service) : Prop :=
  ∃ t old new, publishAcquired {} media s = (.ok (), t) ∧ s.saved = some old ∧
    t.saved = some new ∧ Published c old.manifest new.manifest ∧
    findPublished (.ok ()) media.request t = .ok (some c.objectID) ∧
    ∃ u, publishAcquired {} media t = (.ok (), u) ∧ u.saved = some new

omit [TextTables] in
theorem published_of_spliced {c : SetupConfiguration} {old new : List SetupConfiguration}
    (hself : sameLogicalMedia c c = true) (h : Spliced c old new) : Published c ⟨old⟩ ⟨new⟩ := by
  obtain ⟨before, after, rfl, hfilter, hnot⟩ := h.split
  have hbacking : ∀ i ∈ before ++ after, decide (i.backing = c.backing) = false := by
    intro i hi
    have hi := hnot i hi
    rw [replaces, Bool.or_eq_false_iff] at hi
    exact hi.1
  have hlogical : ∀ i ∈ before ++ after, sameLogicalMedia i c = false := by
    intro i hi
    have hi := hnot i hi
    rw [replaces, Bool.or_eq_false_iff] at hi
    exact hi.2
  have honly : ∀ p : SetupConfiguration → Bool, p c = true →
      (∀ i ∈ before ++ after, p i = false) → (before ++ c :: after).filter p = [c] := by
    intro p hp hnone
    rw [List.filter_append, List.filter_cons_of_pos hp,
      filter_eq_nil_of_false fun i hi => hnone i (List.mem_append_left _ hi),
      filter_eq_nil_of_false fun i hi => hnone i (List.mem_append_right _ hi)]
    rfl
  refine ⟨honly _ (by simp) hbacking, honly _ hself hlogical, ?_⟩
  dsimp only
  rw [hfilter, List.filter_append, List.filter_cons_of_neg (by simp [replaces_self]),
    ← List.filter_append, filter_not_eq_self hnot]

omit [TextTables] in
/-- Replacing the new item by itself. -/
theorem replaceItem_spliced {c : SetupConfiguration} {before after : List SetupConfiguration}
    (h : ∀ b ∈ before, replaces c b = false) :
    replaceItem c (before ++ c :: after) = some (before ++ c :: after) := by
  induction before with
  | nil => simp [replaceItem, replaces_self]
  | cons b before ih =>
    have hb := h b List.mem_cons_self
    have htail := ih fun b' hb' => h b' (List.mem_cons_of_mem _ hb')
    simp [replaceItem, hb, htail]

omit [TextTables] in
theorem publishedItems_again {c : SetupConfiguration} {old new : List SetupConfiguration}
    (h : Spliced c old new) : publishedItems c new = .ok new := by
  obtain ⟨before, after, rfl, _, hnot⟩ := h.split
  rw [publishedItems, replaceItem_spliced fun b hb => hnot b (List.mem_append_left _ hb)]

omit [TextTables] in
/-- There are items to save, unless there is no room. -/
theorem exists_publishedItems {c : SetupConfiguration} {m : SetupManifest}
    (h : ¬ AtCapacity c m) : ∃ new, publishedItems c m.items = .ok new := by
  unfold publishedItems
  cases hreplaced : replaceItem c m.items with
  | some replaced => exact ⟨replaced, rfl⟩
  | none =>
    have hroom : m.items.length ≠ maximumSetupManifestItems :=
      fun hfull => h ⟨replaceItem_eq_none.1 hreplaced, hfull⟩
    exact ⟨m.items ++ [c], if_neg hroom⟩

/-- With at most one match the publication is what it should be. -/
theorem publishesOnce_of_unique {request : SearchRequest} {candidate : MediaCandidate}
    {media : AcquiredMedia} {c : SetupConfiguration} {s : Service} {saved : SavedSetup}
    (hmedia : newRangeAcquiredMedia request candidate = .ok media)
    (hc : configurationFromAcquired media = .ok c) (hsaved : s.saved = some saved)
    (hroom : ¬ AtCapacity c saved.manifest)
    (hone : (saved.manifest.items.filter (replaces c)).length ≤ 1) : PublishesOnce media c s := by
  obtain ⟨hrequest, hcandidate⟩ := newRangeAcquiredMedia_eq_ok hmedia
  have hvalid := validated_of_configurationFromAcquired hcandidate hc
  obtain ⟨new, hitems⟩ := exists_publishedItems hroom
  have hspliced := publishedItems_spliced hone hitems
  have hnew := newSetupManifest_spliced saved.accepted hvalid hspliced
  have hpublished := published_of_spliced (sameLogicalMedia_self hvalid) hspliced
  obtain ⟨t, ht, htsaved⟩ := publishAcquired_of_items hsaved hc hitems hnew
  obtain ⟨u, hu, husaved⟩ := publishAcquired_of_items htsaved hc (publishedItems_again hspliced) hnew
  refine ⟨t, saved, _, ht, hsaved, htsaved, hpublished, ?_, u, hu, husaved⟩
  have hload : loadManifest (.ok ()) t = .ok ⟨saved.token, ⟨new⟩, hnew⟩ := by
    rw [loadManifest, htsaved]
  have hfind : new.find? (fun i => publishedMediaMatches i media.request) = some c := by
    rw [funext (publishedMediaMatches_eq hrequest hc), ← List.head?_filter, hpublished.logical]
    rfl
  simp only [findPublished, hload, hfind, Option.map_some]

omit [TextTables] in
/-- An item after the new one that passes the same test. -/
theorem filter_ne_singleton {p : SetupConfiguration → Bool} {c a : SetupConfiguration}
    {before after : List SetupConfiguration} (hc : p c = true) (ha : a ∈ after)
    (hpa : p a = true) : (before ++ c :: after).filter p ≠ [c] := by
  intro h
  have hmem : a ∈ after.filter p := List.mem_filter.2 ⟨ha, hpa⟩
  have hlength := congrArg List.length h
  rw [List.filter_append, List.filter_cons_of_pos hc, List.length_append, List.length_cons,
    List.length_singleton] at hlength
  have hpos := List.length_pos_of_mem hmem
  omega

/-- With two matches it is not: the second one stays. -/
theorem unique_of_publishesOnce {request : SearchRequest} {candidate : MediaCandidate}
    {media : AcquiredMedia} {c : SetupConfiguration} {s : Service} {saved : SavedSetup}
    (hmedia : newRangeAcquiredMedia request candidate = .ok media)
    (hc : configurationFromAcquired media = .ok c) (hsaved : s.saved = some saved)
    (h : PublishesOnce media c s) : (saved.manifest.items.filter (replaces c)).length ≤ 1 := by
  obtain ⟨_, hcandidate⟩ := newRangeAcquiredMedia_eq_ok hmedia
  have hvalid := validated_of_configurationFromAcquired hcandidate hc
  obtain ⟨t, _, new, ht, _, htsaved, hpublished, _⟩ := h
  obtain ⟨items, manifest, hitems, hmanifest, hnew⟩ := items_of_publishAcquired hsaved hc ht
  rw [htsaved, Option.map_some, Option.some.injEq] at hnew
  by_contra hmany
  rw [not_le] at hmany
  -- the second match stands after the first, which alone is replaced
  obtain ⟨before, i, after, hold, hbefore, hi, hreplaced⟩ : ∃ before i after,
      saved.manifest.items = before ++ i :: after ∧ (∀ b ∈ before, replaces c b = false) ∧
      replaces c i = true ∧ items = before ++ c :: after := by
    cases hreplace : replaceItem c saved.manifest.items with
    | none =>
      rw [filter_eq_nil_of_false (replaceItem_eq_none.1 hreplace)] at hmany
      exact absurd hmany (by decide)
    | some replaced =>
      rw [publishedItems, hreplace, Except.ok.injEq] at hitems
      exact hitems ▸ replaceItem_eq_some hreplace
  obtain ⟨a, ha, hmatch⟩ : ∃ a ∈ after, replaces c a = true := by
    rw [hold, List.filter_append, filter_eq_nil_of_false hbefore, List.nil_append,
      List.filter_cons_of_pos hi, List.length_cons] at hmany
    have hpos : 0 < (after.filter (replaces c)).length := by omega
    obtain ⟨a, ha⟩ := List.exists_mem_of_length_pos hpos
    exact ⟨a, List.mem_filter.1 ha⟩
  -- so the manifest is the list of the items, which has the second match beside the new item
  have hall : ∀ j ∈ items, validateSetupConfiguration j = .ok j := by
    have hold' := (newSetupManifest_self_iff.1 saved.accepted).2.2.1
    intro j hj
    rw [hreplaced, List.mem_append, List.mem_cons] at hj
    rcases hj with hj | rfl | hj
    · exact hold' j (hold ▸ List.mem_append_left _ hj)
    · exact hvalid
    · exact hold' j (hold ▸ List.mem_append_right _ (List.mem_cons_of_mem _ hj))
  have hmade := newSetupManifest_items hall hmanifest
  rw [hnew, hmade, hreplaced] at hpublished
  rw [replaces, Bool.or_eq_true] at hmatch
  rcases hmatch with hbacking | hlogical
  · exact filter_ne_singleton (by simp) ha hbacking hpublished.backing
  · exact filter_ne_singleton (p := fun j => sameLogicalMedia j c) (sameLogicalMedia_self hvalid) ha
      hlogical hpublished.logical

/-- When no call fails, publishing an acquired medium puts it in the manifest once, in the place of
all that it stands for, exactly when at most one item of the manifest has its object or stands for
the same film or episode. -/
theorem publishesOnce_iff {request : SearchRequest} {candidate : MediaCandidate}
    {media : AcquiredMedia} {c : SetupConfiguration} {s : Service} {saved : SavedSetup}
    (hmedia : newRangeAcquiredMedia request candidate = .ok media)
    (hc : configurationFromAcquired media = .ok c) (hsaved : s.saved = some saved) :
    (¬ AtCapacity c saved.manifest → PublishesOnce media c s) ↔
      (saved.manifest.items.filter (replaces c)).length ≤ 1 := by
  constructor
  · intro h
    by_cases hfull : AtCapacity c saved.manifest
    · rw [filter_eq_nil_of_false hfull.1]
      exact Nat.zero_le 1
    · exact unique_of_publishesOnce hmedia hc hsaved (h hfull)
  · intro hone hroom
    exact publishesOnce_of_unique hmedia hc hsaved hroom hone

end Items

section SmallRuns

attribute [local instance] TextTables.ascii

/-- A film of one byte. -/
def smallFilm (objectID title : String) : SetupConfiguration :=
  { provider := text "torbox", objectID := text objectID, name := text "a.mkv",
    extension := text ".mkv", size := 1, mediaType := mediaTypeMovie, title := text title,
    year := 2000 }

/-- The acquired film `T` with the object `2`. -/
def smallMedia : AcquiredMedia :=
  ⟨⟨.movie, text "T", 2000, 0, 0⟩,
    ⟨text "torbox", text "2", text "a.mkv", text ".mkv", 1⟩⟩

/-- A manifest with another object for the film. -/
def oneMatch : SavedSetup :=
  ⟨text "t", ⟨[smallFilm "1" "T", smallFilm "3" "U"]⟩, by decide +kernel⟩

/-- A manifest with another object for the film, and with the object for another film. -/
def twoMatches : SavedSetup :=
  ⟨text "t", ⟨[smallFilm "1" "T", smallFilm "2" "U"]⟩, by decide +kernel⟩

/-- The theorem above where one item is replaced. -/
theorem publishesOnce_replacing :
    (¬ AtCapacity (smallFilm "2" "T") oneMatch.manifest →
        PublishesOnce smallMedia (smallFilm "2" "T") { saved := some oneMatch }) ↔
      (oneMatch.manifest.items.filter (replaces (smallFilm "2" "T"))).length ≤ 1 := by
  have hmedia : newRangeAcquiredMedia smallMedia.request smallMedia.candidate = .ok smallMedia := by
    decide +kernel
  have hc : configurationFromAcquired smallMedia = .ok (smallFilm "2" "T") := by decide +kernel
  exact publishesOnce_iff hmedia hc rfl

/-- Where two items match, a publication of which no call fails is refused. -/
theorem publication_refused :
    newRangeAcquiredMedia smallMedia.request smallMedia.candidate = .ok smallMedia ∧
      configurationFromAcquired smallMedia = .ok (smallFilm "2" "T") ∧
      ¬ AtCapacity (smallFilm "2" "T") twoMatches.manifest ∧
      (publishAcquired {} smallMedia { saved := some twoMatches }).1 =
        .error ⟨"validate acquired manifest", [.invalidSelection], none⟩ := by
  refine ⟨by decide +kernel, by decide +kernel, ?_, by decide +kernel⟩
  rintro ⟨hnone, _⟩
  have hfirst := hnone (smallFilm "1" "T") List.mem_cons_self
  exact absurd hfirst (by decide)

end SmallRuns

end BlackPearl.SetupService
