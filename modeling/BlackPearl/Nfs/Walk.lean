import BlackPearl.Nfs.Tree

/-!
# Walking the namespace

A walk from the root that lists every directory it comes to finds each medium once, under its path
and with its size. For the media that are registered for an accepted manifest this says that the
manifest and the namespace agree (`manifest_is_namespace`).
-/

set_option autoImplicit false

namespace BlackPearl.Nfs

open BlackPearl.Library BlackPearl.Library.Path BlackPearl.Setup BlackPearl.Catalog

/-- The files below a directory with their sizes, or nothing if the walk goes deeper than `fuel`. -/
def walk (f : Filesystem) : ℕ → ByteText → Option (List (ByteText × Int64))
  | 0, _ => none
  | fuel + 1, d =>
      match f.readDir d with
      | .error _ => none
      | .ok infos => do
          let found ← infos.mapM fun info =>
            if info.directory then walk f fuel (join [d, info.name])
            else some [(join [d, info.name], info.size)]
          return found.flatten

/-- A directory that the walk comes to. -/
inductive Visited (f : Filesystem) : ByteText → Prop
  | root : Visited f []
  | child {d : ByteText} {infos : List FileInfo} {info : FileInfo} : Visited f d →
      f.readDir d = .ok infos → info ∈ infos → info.directory = true →
      Visited f (join [d, info.name])

/-- A listing is sorted, has no name twice, and agrees with `Stat`. -/
structure Listed (f : Filesystem) (d : ByteText) (infos : List FileInfo) : Prop where
  sorted : (infos.map FileInfo.name).Pairwise fun n k => ByteText.le n k = true
  nodup : (infos.map FileInfo.name).Nodup
  stat : ∀ info ∈ infos, f.stat (join [d, info.name]) = .ok info

section Shown

variable {media : List Media} {modified : ℤ} {f : Filesystem}

theorem Covers.plain (hplaced : ∀ m ∈ media, Placed (parts m)) {d : List ByteText}
    (hd : Covers media d) : ∀ s ∈ d, Plain s := by
  rcases hd with rfl | ⟨m, hm, hle⟩
  · intro s hs
    cases hs
  · exact fun s hs => (hplaced m hm).plain s (hle.subset hs)

/-- What a path of the namespace shows. -/
inductive Info (media : List Media) (modified : ℤ) (d : List ByteText) (n : ByteText) :
    FileInfo → Prop
  | file {m : Media} : m ∈ media → parts m = d ++ [n] → Info media modified d n ⟨n, m.size, false, modified⟩
  | directory : (∀ m ∈ media, parts m ≠ d ++ [n]) → Info media modified d n ⟨n, 0, true, modified⟩

theorem Info.name {d : List ByteText} {n : ByteText} {info : FileInfo}
    (h : Info media modified d n info) : info.name = n := by
  cases h with
  | file _ _ => rfl
  | directory _ => rfl

theorem Shows.info (h : Shows media modified f) {d : List ByteText} {n : ByteText}
    (hd : Covers media (d ++ [n])) : ∃ e, f.entries.lookup (ofSegments (d ++ [n])) = some e ∧
      Info media modified d n (infoFor e) := by
  by_cases hfile : ∃ m ∈ media, parts m = d ++ [n]
  · obtain ⟨m, hm, heq⟩ := hfile
    refine ⟨_, by rw [← heq, ofSegments_parts]; exact h.file m hm, ?_⟩
    have hname : (parts m).getLastD [] = n := by rw [heq, List.getLastD_concat]
    rw [hname]
    exact .file hm heq
  · have hnot : ∀ m ∈ media, parts m ≠ d ++ [n] := fun m hm heq => hfile ⟨m, hm, heq⟩
    obtain ⟨l, hl, -⟩ := h.directory _ hd hnot
    refine ⟨_, hl, ?_⟩
    rw [List.getLastD_concat]
    exact .directory hnot

/-- Listing a directory. -/
theorem Shows.readDir (h : Shows media modified f) (hplaced : ∀ m ∈ media, Placed (parts m))
    {d : List ByteText} (hd : Covers media d) (hnot : ∀ m ∈ media, parts m ≠ d) :
    ∃ infos, f.readDir (ofSegments d) = .ok infos ∧ Listed f (ofSegments d) infos ∧
      (∀ n, Covers media (d ++ [n]) ↔ n ∈ infos.map FileInfo.name) ∧
      ∀ info ∈ infos, Info media modified d info.name info := by
  obtain ⟨l, hl, hnodup, hsorted, hmem⟩ := h.directory d hd hnot
  have hdplain := hd.plain hplaced
  have hkey : ∀ n, n ∈ l → cleanPath (join [ofSegments d, n]) = ofSegments (d ++ [n]) := by
    intro n hn
    have hplain := ((hmem n).1 hn).plain hplaced
    have hlast : Plain n := hplain n (List.mem_append_right _ (List.mem_singleton_self n))
    rw [join_ofSegments hdplain hlast, cleanPath_ofSegments hplain]
  let shown : ByteText → FileInfo := fun n =>
    infoFor ((f.entries.lookup (cleanPath (join [ofSegments d, n]))).getD { name := [] })
  have hshown : ∀ n ∈ l, Info media modified d n (shown n) ∧
      f.stat (join [ofSegments d, n]) = .ok (shown n) := by
    intro n hn
    obtain ⟨e, he, hinfo⟩ := h.info ((hmem n).1 hn)
    have hlookup : f.entries.lookup (cleanPath (join [ofSegments d, n])) = some e := by
      rw [hkey n hn, he]
    have hshow : shown n = infoFor e := by
      simp only [shown, hlookup, Option.getD_some]
    rw [hshow]
    refine ⟨hinfo, ?_⟩
    simp only [Filesystem.stat, hlookup]
  have hname : ∀ n ∈ l, (shown n).name = n := fun n hn => (hshown n hn).1.name
  have hnames : (l.map shown).map FileInfo.name = l := by
    rw [List.map_map]
    exact (List.map_congr_left hname).trans (List.map_id' l)
  have hread : f.readDir (ofSegments d) = .ok (l.map shown) := by
    have hparent := hl
    rw [← cleanPath_ofSegments hdplain] at hparent
    simp only [Filesystem.readDir, hparent]
    rw [if_neg (by simp), cleanPath_ofSegments hdplain]
  refine ⟨_, hread, ⟨?_, ?_, ?_⟩, ?_, ?_⟩
  · rwa [hnames]
  · rwa [hnames]
  · intro info hinfo
    obtain ⟨n, hn, rfl⟩ := List.mem_map.1 hinfo
    rw [hname n hn]
    exact (hshown n hn).2
  · intro n
    rw [hnames, hmem]
  · intro info hinfo
    obtain ⟨n, hn, rfl⟩ := List.mem_map.1 hinfo
    rw [hname n hn]
    exact (hshown n hn).1

/-- What a walk finds below `d`: the media there, each once. -/
structure Found (media : List Media) (d : List ByteText) (l : List (ByteText × Int64)) : Prop where
  nodup : (l.map Prod.fst).Nodup
  mem : ∀ x, x ∈ l ↔ ∃ m ∈ media, d <+: parts m ∧ x = (m.virtualPath, m.size)

/-- Two names in one directory lead to different media. -/
theorem name_eq_of_isPrefix {d l : List ByteText} {n k : ByteText} (hn : d ++ [n] <+: l)
    (hk : d ++ [k] <+: l) : n = k := by
  have hle := List.prefix_of_prefix_length_le hn hk (by simp)
  exact (concat_eq.1 (hle.eq_of_length (by simp))).2

/-- What is found below the entries of a directory, put together. -/
theorem found_flatten {d : List ByteText} {infos : List FileInfo}
    {found : List (List (ByteText × Int64))}
    (h : List.Forall₂ (fun info l => Found media (d ++ [info.name]) l) infos found)
    (hnodup : (infos.map FileInfo.name).Nodup) :
    (found.flatten.map Prod.fst).Nodup ∧ ∀ x, x ∈ found.flatten ↔
      ∃ info ∈ infos, ∃ m ∈ media, d ++ [info.name] <+: parts m ∧ x = (m.virtualPath, m.size) := by
  induction h with
  | nil => exact ⟨.nil, fun x => by simp⟩
  | @cons info l infos found hl _ ih =>
    rw [List.map_cons, List.nodup_cons] at hnodup
    obtain ⟨hrest, hmem⟩ := ih hnodup.2
    constructor
    · rw [List.flatten_cons, List.map_append, List.nodup_append]
      refine ⟨hl.nodup, hrest, ?_⟩
      rintro p hp q hq rfl
      obtain ⟨x, hx, rfl⟩ := List.mem_map.1 hp
      obtain ⟨y, hy, heq⟩ := List.mem_map.1 hq
      obtain ⟨m, _, hle, rfl⟩ := (hl.mem x).1 hx
      obtain ⟨info', hinfo', m', _, hle', rfl⟩ := (hmem y).1 hy
      have hparts : parts m' = parts m := congrArg segments heq
      apply hnodup.1
      rw [name_eq_of_isPrefix hle (hparts ▸ hle')]
      exact List.mem_map_of_mem hinfo'
    · intro x
      rw [List.flatten_cons, List.mem_append, hl.mem, hmem, List.exists_mem_cons_iff]

/-- A walk with enough fuel finds the media below a directory. -/
theorem Shows.walk (h : Shows media modified f) (hplaced : ∀ m ∈ media, Placed (parts m)) :
    ∀ (fuel : ℕ) (d : List ByteText), Covers media d → (∀ m ∈ media, parts m ≠ d) →
      5 ≤ d.length + fuel → ∃ l, walk f fuel (ofSegments d) = some l ∧ Found media d l := by
  intro fuel
  induction fuel with
  | zero =>
    rintro d (rfl | ⟨m, hm, hle⟩) _ hdeep
    · simp at hdeep
    · -- no path has more than four segments
      have hlen := hle.length_le
      rcases (hplaced m hm).kind with hkind | hkind
      · omega
      · omega
  | succ fuel ih =>
    intro d hd hnot hdeep
    obtain ⟨infos, hread, hlisted, hnames, hinfos⟩ := h.readDir hplaced hd hnot
    have hdplain := hd.plain hplaced
    have hbelow : ∀ info ∈ infos, ∃ l,
        (if info.directory then Nfs.walk f fuel (join [ofSegments d, info.name])
          else some [(join [ofSegments d, info.name], info.size)]) = some l ∧
        Found media (d ++ [info.name]) l := by
      intro info hinfo
      have hcovers := (hnames info.name).2 (List.mem_map_of_mem hinfo)
      have hplain := hcovers.plain hplaced
      have hlast : Plain info.name :=
        hplain _ (List.mem_append_right _ (List.mem_singleton_self _))
      rw [join_ofSegments hdplain hlast]
      have hcase := hinfos info hinfo
      generalize info.name = n at hcase hcovers
      cases hcase with
      | @file m hm heq =>
        refine ⟨_, rfl, List.nodup_singleton _, fun x => ?_⟩
        rw [List.mem_singleton, ← heq, ofSegments_parts]
        constructor
        · rintro rfl
          exact ⟨m, hm, List.prefix_rfl, rfl⟩
        · rintro ⟨m', hm', hle, rfl⟩
          have hpath : m.virtualPath = m'.virtualPath := by
            rw [← ofSegments_parts, (hplaced m hm).eq_of_isPrefix (hplaced m' hm') hle,
              ofSegments_parts]
          -- one path has one medium
          have hentry := h.file m hm
          rw [hpath, h.file m' hm'] at hentry
          injection hentry with hentry
          injection hentry with _ hmedia
          rw [Option.some.inj hmedia]
      | directory hdirectory =>
        exact ih _ hcovers hdirectory (by rw [List.length_append, List.length_singleton]; omega)
    obtain ⟨found, hfound, hall⟩ := mapM_eq_some _
      (fun (info : FileInfo) l => Found media (d ++ [info.name]) l) hbelow
    obtain ⟨hnodup, hmem⟩ := found_flatten hall hlisted.nodup
    refine ⟨found.flatten, ?_, hnodup, fun x => ?_⟩
    · rw [Nfs.walk, hread]
      simp only [hfound]
      rfl
    · rw [hmem]
      constructor
      · rintro ⟨info, _, m, hm, hle, rfl⟩
        exact ⟨m, hm, (List.prefix_append _ _).trans hle, rfl⟩
      · rintro ⟨m, hm, hle, rfl⟩
        obtain ⟨rest, hrest⟩ := hle
        cases rest with
        | nil => exact absurd (hrest.symm.trans (List.append_nil d)) (hnot m hm)
        | cons n rest =>
          have hle : d ++ [n] <+: parts m := ⟨rest, by rw [← hrest]; simp⟩
          obtain ⟨info, hinfo, rfl⟩ := List.mem_map.1 ((hnames n).1 (Or.inr ⟨m, hm, hle⟩))
          exact ⟨info, hinfo, m, hm, hle, rfl⟩

/-- What a walk comes to is a directory of the namespace. -/
theorem Shows.visited (h : Shows media modified f) (hplaced : ∀ m ∈ media, Placed (parts m))
    {d : ByteText} (hd : Visited f d) :
    ∃ l, d = ofSegments l ∧ Covers media l ∧ ∀ m ∈ media, parts m ≠ l := by
  induction hd with
  | root => exact ⟨[], rfl, Or.inl rfl, fun m hm => (hplaced m hm).ne_nil⟩
  | @child d infos info _ hread hinfo hdirectory ih =>
    obtain ⟨l, rfl, hcovers, hnot⟩ := ih
    obtain ⟨infos', hread', -, hnames, hinfos⟩ := h.readDir hplaced hcovers hnot
    obtain rfl := Except.ok.inj (hread.symm.trans hread')
    have hbelow := (hnames info.name).2 (List.mem_map_of_mem hinfo)
    have hplain := hbelow.plain hplaced
    have hlast : Plain info.name :=
      hplain _ (List.mem_append_right _ (List.mem_singleton_self _))
    refine ⟨l ++ [info.name], join_ofSegments (hcovers.plain hplaced) hlast, hbelow, ?_⟩
    have hcase := hinfos info hinfo
    generalize info.name = n at hcase
    cases hcase with
    | file _ _ => cases hdirectory
    | directory hfiles => exact hfiles

end Shown

/-! ## The namespace of a manifest -/

/-- The filesystem shows exactly the items: a walk finds the virtual path of each of them once, with
its size, and every listing that it meets is sorted, free of duplicates and agrees with `Stat`. -/
structure IsNamespaceOf [TextTables] (items : List SetupConfiguration) (f : Filesystem) : Prop where
  files : ∀ fuel, 5 ≤ fuel → ∃ files located, walk f fuel [] = some files ∧ files.Perm located ∧
    List.Forall₂ (fun (c : SetupConfiguration) x => c.virtualPath = .ok x.1 ∧ x.2 = c.size) items
      located ∧ (located.map Prod.fst).Nodup
  listings : ∀ d, Visited f d → ∃ infos, f.readDir d = .ok infos ∧ Listed f d infos

section Manifests

variable [TextTables] {digest : ByteText → ByteText}

/-- The media of an accepted manifest have the paths of its items. -/
theorem map_virtualPath_of_registers {items validated : List SetupConfiguration}
    {paths : List ByteText} {media : List Media}
    (hchecked : List.Forall₂ (fun c v => validateSetupConfiguration c = .ok v) items validated)
    (hlocated : List.Forall₂ (fun v p => setupVirtualPath v = .ok p) validated paths)
    (hmedia : List.Forall₂ (Registers digest) items media) :
    media.map Media.virtualPath = paths := by
  induction hchecked generalizing paths media with
  | nil =>
    cases hlocated
    cases hmedia
    rfl
  | @cons c v items validated hv _ ih =>
    cases hlocated with
    | @cons _ path _ paths hpath hmore =>
      cases hmedia with
      | @cons _ m _ media hm hrest =>
        have hvirtual := hm.path
        rw [SetupConfiguration.virtualPath, bind_eq_ok] at hvirtual
        obtain ⟨v', hv', hpath'⟩ := hvirtual
        obtain rfl := Except.ok.inj (hv.symm.trans hv')
        rw [List.map_cons, ih hmore hrest, Except.ok.inj (hpath'.symm.trans hpath)]

/-- The items of an accepted manifest have distinct backings. -/
theorem backingKeys_nodup {items : List SetupConfiguration} {m : SetupManifest}
    (hm : newSetupManifest items = .ok m) :
    (items.map fun c => backingKey c.backing).Nodup := by
  obtain ⟨_, _, paths, hitems⟩ := newSetupManifest_eq_ok.1 hm
  have hkeys : items.map (fun c => backingKey c.backing) = m.items.map objectKey := by
    apply map_eq_of_forall₂
    apply hitems.checked.imp
    intro c v hv
    have hvalidated := validateSetupConfiguration_eq_ok hv
    rw [← validated_backing hvalidated, backingKey, SetupConfiguration.backing,
      SetupConfiguration.providerOrDefault, if_neg hvalidated.provider_ne, objectKey]
  rw [hkeys]
  simpa using hitems.keys_nodup

/-- A manifest that is accepted is exactly the namespace: all its items can be registered, none is
lost, the media are accepted by both filesystems, and the namespace has just their files. The hash of
media identifiers must not collide on the objects of the manifest. -/
theorem manifest_is_namespace {items : List SetupConfiguration} {m : SetupManifest}
    (hm : newSetupManifest items = .ok m)
    (hfree : ∀ c ∈ items, ∀ c' ∈ items, digest (backingKey c.backing) = digest (backingKey c'.backing) →
      backingKey c.backing = backingKey c'.backing) (f : Filesystem) (now : ℤ) :
    ∃ r media f', registerItems digest false ∅ items = .ok r ∧ list false r = .ok media ∧
      media.length = items.length ∧
      (∀ x ∈ media, validateVirtualPath x.virtualPath = .ok ()) ∧
      (∃ entries, buildEntries media = .ok entries) ∧
      f.replace false (list false r) now = .ok f' ∧ IsNamespaceOf items f' := by
  obtain ⟨_, _, paths, hitems⟩ := newSetupManifest_eq_ok.1 hm
  have hkeys := backingKeys_nodup hm
  have hids : (items.map fun c => remoteMediaID digest c.backing).Nodup := by
    refine List.Nodup.map_on (fun c hc c' hc' heq => ?_) hkeys.of_map
    exact List.inj_on_of_nodup_map hkeys hc hc' (hfree c hc c' hc' (List.append_cancel_left heq))
  obtain ⟨r, registered, hr, hmedia, hperm⟩ := registerItems_eq_ok
    hitems.checked hitems.located hids ∅ fun c _ => AList.lookup_empty _
  -- the list of the catalog has the registered media in the order of their paths
  let media := (r.entries.map fun e => e.2).insertionSort fun x y =>
    ByteText.le x.virtualPath y.virtualPath
  have hlist : list false r = .ok media := rfl
  have hmediaPerm : media.Perm registered := by
    have hsorted := List.perm_insertionSort
      (fun x y : Media => ByteText.le x.virtualPath y.virtualPath = true) (r.entries.map fun e => e.2)
    simpa using hsorted.trans hperm
  have hplaced : ∀ x ∈ media, Placed (parts x) := by
    intro x hx
    obtain ⟨c, _, hcx⟩ := exists_of_mem_forall₂ hmedia (hmediaPerm.mem_iff.1 hx)
    exact placed_of_built hcx.built
  have hpaths : (registered.map Media.virtualPath).Nodup := by
    rw [map_virtualPath_of_registers hitems.checked hitems.located hmedia]
    simpa using hitems.paths_nodup
  have hnodup : (media.map Media.virtualPath).Nodup := (hmediaPerm.map _).nodup_iff.2 hpaths
  obtain ⟨f', hreplace, -, hbuild, hshows⟩ := replace_eq_ok f now hplaced hnodup
  refine ⟨r, media, f', hr, hlist, ?_, ?_, hbuild, hlist ▸ hreplace, ?_, ?_⟩
  · rw [hmediaPerm.length_eq, hmedia.length_eq]
  · intro x hx
    rw [validateVirtualPath, require_eq_ok]
    exact validParts_of_placed (hplaced x hx)
  · intro fuel hfuel
    obtain ⟨files, hwalk, hfound⟩ := hshows.walk hplaced fuel [] (Or.inl rfl)
      (fun x hx => (hplaced x hx).ne_nil) (by simpa using hfuel)
    let located := registered.map fun x => (x.virtualPath, x.size)
    have hlocated : (located.map Prod.fst).Nodup := by
      rw [List.map_map]
      exact hpaths
    refine ⟨files, located, hwalk, ?_, ?_, hlocated⟩
    · rw [List.perm_ext_iff_of_nodup hfound.nodup.of_map hlocated.of_map]
      intro x
      rw [hfound.mem, List.mem_map]
      constructor
      · rintro ⟨y, hy, -, rfl⟩
        exact ⟨y, hmediaPerm.mem_iff.1 hy, rfl⟩
      · rintro ⟨y, hy, rfl⟩
        exact ⟨y, hmediaPerm.mem_iff.2 hy, List.nil_prefix, rfl⟩
    · rw [List.forall₂_map_right_iff]
      exact hmedia.imp fun c x h => ⟨h.path, h.size⟩
  · intro d hd
    obtain ⟨l, rfl, hcovers, hnot⟩ := hshows.visited hplaced hd
    obtain ⟨infos, hread, hlisted, -⟩ := hshows.readDir hplaced hcovers hnot
    exact ⟨infos, hread, hlisted⟩

end Manifests

section SmallRuns

attribute [local instance] TextTables.ascii

/-- A movie and an episode. -/
def smallItems : List SetupConfiguration :=
  [{ objectID := text "o1", name := text "m.mkv", size := 7, title := text "T", year := 2000 },
    { objectID := text "o2", name := text "s/e.mp4", size := 8, mediaType := mediaTypeEpisode,
      title := text "Pilot", year := 2001, showTitle := text "S", season := 1, episode := 2 }]

/-- The hashes of their backings. -/
def smallDigest (key : ByteText) : ByteText :=
  if key = text "torbox-torrent\x00o1" then text "52c8ff33da2eb127dd569deff66ffae3" else text "b8084e22297c7cf89f0e9b9a880f7c0d"

theorem smallDigest_free : ∀ c ∈ smallItems, ∀ c' ∈ smallItems,
    smallDigest (backingKey c.backing) = smallDigest (backingKey c'.backing) →
      backingKey c.backing = backingKey c'.backing := by
  decide +kernel

/-- The theorem above for a manifest of two items. -/
theorem manifest_is_namespace_small :
    ∃ r media f', registerItems smallDigest false ∅ smallItems = .ok r ∧
      list false r = .ok media ∧ media.length = smallItems.length ∧
      (∀ x ∈ media, validateVirtualPath x.virtualPath = .ok ()) ∧
      (∃ entries, buildEntries media = .ok entries) ∧
      Filesystem.unbuilt.replace false (list false r) 0 = .ok f' ∧ IsNamespaceOf smallItems f' := by
  have haccepted : (newSetupManifest smallItems).toOption.isSome = true := by decide +kernel
  cases hm : newSetupManifest smallItems with
  | error message =>
    rw [hm] at haccepted
    cases haccepted
  | ok m => exact manifest_is_namespace hm smallDigest_free Filesystem.unbuilt 0

end SmallRuns

end BlackPearl.Nfs
