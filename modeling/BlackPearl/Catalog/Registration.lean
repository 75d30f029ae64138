import BlackPearl.Library.Table
import BlackPearl.Setup.Manifest
import Mathlib.Data.List.Sort

/-!
# Registering a manifest

The catalog in memory of `internal/state/memory.go` and the registration of provider-backed media of
`internal/core/catalog.go`. What is registered for an item of an accepted manifest is the medium that
the item's virtual path was derived from, but for its identifier (`registerItem_eq_ok`).
-/

set_option autoImplicit false

namespace BlackPearl.Catalog

open BlackPearl.Library BlackPearl.Setup

/-- `MemoryRepository`: the media by identifier. -/
abbrev MemoryRepository : Type := Table ByteText Media

/-- `MemoryRepository.Upsert`; `cancelled` is whether the context has ended. -/
def upsert (cancelled : Bool) (r : MemoryRepository) (media : Media) : Checked MemoryRepository := do
  require (cancelled = false) "upsert memory media: context canceled"
  return r.insert media.id media

/-- `MemoryRepository.List`: the media in the order of their paths. -/
def list (cancelled : Bool) (r : MemoryRepository) : Checked (List Media) := do
  require (cancelled = false) "list memory media: context canceled"
  return (r.entries.map fun e => e.2).insertionSort fun x y =>
    ByteText.le x.virtualPath y.virtualPath

/-- What a backing is hashed by. -/
def backingKey (backing : BackingRef) : ByteText :=
  backing.provider ++ .char '\x00' :: backing.objectID

section Registration

variable (digest : ByteText → ByteText)

/-- `remoteMediaID`; `digest` gives the hexadecimal form of the first sixteen bytes of a hash. -/
def remoteMediaID (backing : BackingRef) : ByteText :=
  text "blackpearl-remote-" ++ digest (backingKey backing)

variable [TextTables]

/-- `Catalog.RegisterRemoteMovie`. -/
def registerRemoteMovie (cancelled : Bool) (r : MemoryRepository) (c : SetupConfiguration)
    (backing : BackingRef) : Checked (MemoryRepository × Media) := do
  let validated ← within "validate selected movie"
    (newSetupConfiguration c.candidate c.title c.year)
  let validatedBacking ← within "validate selected movie backing"
    (newBackingRef backing.provider backing.objectID)
  let media ← within "construct selected movie"
    (newMovie (remoteMediaID digest validatedBacking) validated.title validated.year
      validated.extension validated.size validatedBacking)
  let r ← within "persist selected movie" (upsert cancelled r media)
  return (r, media)

/-- `Catalog.RegisterRemoteEpisode`. -/
def registerRemoteEpisode (cancelled : Bool) (r : MemoryRepository) (c : SetupConfiguration)
    (backing : BackingRef) : Checked (MemoryRepository × Media) := do
  let validated ← within "validate selected episode"
    (newSetupEpisodeConfiguration c.candidate c.showTitle c.year c.season c.episode c.title)
  let validatedBacking ← within "validate selected episode backing"
    (newBackingRef backing.provider backing.objectID)
  let media ← within "construct selected episode"
    (newEpisode (remoteMediaID digest validatedBacking) validated.showTitle validated.year
      validated.season validated.episode validated.title validated.extension validated.size
      validatedBacking)
  let r ← within "persist selected episode" (upsert cancelled r media)
  return (r, media)

/-- What `prepareRangeCatalog` does for an item whose source was opened. -/
def registerItem (cancelled : Bool) (r : MemoryRepository) (c : SetupConfiguration) :
    Checked (MemoryRepository × Media) :=
  if c.mediaType = mediaTypeEpisode then registerRemoteEpisode digest cancelled r c c.backing
  else registerRemoteMovie digest cancelled r c c.backing

/-- The items of a manifest in turn. -/
def registerItems (cancelled : Bool) (r : MemoryRepository) :
    List SetupConfiguration → Checked MemoryRepository
  | [] => return r
  | c :: items => do
      let (r, _) ← registerItem digest cancelled r c
      registerItems cancelled r items

end Registration

/-! ## What is registered -/

/-- A medium that one of the constructors has made. -/
inductive Built [TextTables] (media : Media) : Prop
  | movie {id title extension : ByteText} {year size : Int64} {backing : BackingRef} :
      newMovie id title year extension size backing = .ok media → Built media
  | episode {id showTitle episodeTitle extension : ByteText} {year season episode size : Int64}
      {backing : BackingRef} :
      newEpisode id showTitle year season episode episodeTitle extension size backing = .ok media →
      Built media

section Registered

variable [TextTables] {digest : ByteText → ByteText}

/-- The medium that is registered for an item. -/
structure Registers (digest : ByteText → ByteText) (c : SetupConfiguration) (media : Media) :
    Prop where
  built : Built media
  id : media.id = remoteMediaID digest c.backing
  path : c.virtualPath = .ok media.virtualPath
  size : media.size = c.size
  backing : media.backing = c.backing

/-- Validation keeps the backing of an item. -/
theorem validated_backing {c v : SetupConfiguration} (h : Validated c v) : v.backing = c.backing := by
  have hdefault : c.providerOrDefault ≠ [] := by
    unfold SetupConfiguration.providerOrDefault
    split
    · decide
    · assumption
  have hprovider : v.provider = c.providerOrDefault := by
    rw [h.provider, MediaCandidate.backing, SetupConfiguration.candidate, if_neg hdefault]
  have hnamed : v.providerOrDefault = v.provider := if_neg h.provider_ne
  rw [SetupConfiguration.backing, SetupConfiguration.backing, hnamed, hprovider, h.objectID]

theorem mediaType_of_newSetupConfiguration {c : MediaCandidate} {title : ByteText} {year : Int64}
    {v : SetupConfiguration} (h : newSetupConfiguration c title year = .ok v) :
    v.mediaType ≠ mediaTypeEpisode := by
  simp only [newSetupConfiguration, bind_eq_ok, pure_eq_ok, require_eq_ok, within_eq_ok] at h
  obtain ⟨_, _, _, _, _, _, _, _, rfl⟩ := h
  have hne : mediaTypeMovie ≠ mediaTypeEpisode := by decide
  exact hne

theorem mediaType_of_newSetupEpisodeConfiguration {c : MediaCandidate}
    {showTitle episodeTitle : ByteText} {year season episode : Int64} {v : SetupConfiguration}
    (h : newSetupEpisodeConfiguration c showTitle year season episode episodeTitle = .ok v) :
    v.mediaType = mediaTypeEpisode := by
  simp only [newSetupEpisodeConfiguration, bind_eq_ok, pure_eq_ok, require_eq_ok,
    within_eq_ok] at h
  obtain ⟨_, _, _, _, _, _, _, _, rfl⟩ := h
  rfl

omit [TextTables] in
theorem remoteMediaID_ne_nil (backing : BackingRef) : remoteMediaID digest backing ≠ [] :=
  List.append_ne_nil_of_left_ne_nil (by decide) _

/-- Registering an item that validation accepts, and that has a path, inserts its medium. -/
theorem registerItem_eq_ok {c v : SetupConfiguration} {path : ByteText} (r : MemoryRepository)
    (hv : validateSetupConfiguration c = .ok v) (hpath : setupVirtualPath v = .ok path) :
    ∃ media, registerItem digest false r c = .ok (r.insert media.id media, media) ∧
      Registers digest c media := by
  have hvalidated := validateSetupConfiguration_eq_ok hv
  have hbacking := validated_backing hvalidated
  have hvirtual : c.virtualPath = .ok path := by
    rw [SetupConfiguration.virtualPath, bind_eq_ok]
    exact ⟨v, hv, hpath⟩
  have hid : remoteMediaID digest c.backing ≠ [] := remoteMediaID_ne_nil c.backing
  unfold validateSetupConfiguration at hv
  split at hv
  · next hkind =>
    have hepisode : c.mediaType ≠ mediaTypeEpisode := by
      rcases hkind with hkind | hkind
      · rw [hkind]
        decide
      · rw [hkind]
        decide
    rw [setupVirtualPath, if_neg (mediaType_of_newSetupConfiguration hv), hbacking,
      bind_eq_ok] at hpath
    obtain ⟨media₀, hmedia, hreturn⟩ := hpath
    obtain rfl := pure_eq_ok.1 hreturn
    obtain ⟨-, htitle, hyear, hfile, rfl⟩ := newMovie_eq_ok.1 hmedia
    have hmovie := newMovie_eq_ok.2 ⟨hid, htitle, hyear, hfile, rfl⟩
    refine ⟨_, ?_, .movie hmovie, rfl, hvirtual, hvalidated.size, rfl⟩
    simp only [registerItem, if_neg hepisode, registerRemoteMovie, bind_eq_ok, within_eq_ok]
    exact ⟨v, hv, c.backing, (validateFile_eq_ok hfile).2.2, _, hmovie, _, rfl, rfl⟩
  · split at hv
    · next hepisode =>
      rw [setupVirtualPath, if_pos (mediaType_of_newSetupEpisodeConfiguration hv), hbacking,
        bind_eq_ok] at hpath
      obtain ⟨media₀, hmedia, hreturn⟩ := hpath
      obtain rfl := pure_eq_ok.1 hreturn
      obtain ⟨-, hshow, htitle, hyear, hseason, hnumber, hfile, hlen, rfl⟩ :=
        newEpisode_eq_ok.1 hmedia
      have hmade := newEpisode_eq_ok.2
        ⟨hid, hshow, htitle, hyear, hseason, hnumber, hfile, hlen, rfl⟩
      refine ⟨_, ?_, .episode hmade, rfl, hvirtual, hvalidated.size, rfl⟩
      simp only [registerItem, if_pos hepisode, registerRemoteEpisode, bind_eq_ok, within_eq_ok]
      exact ⟨v, hv, c.backing, (validateFile_eq_ok hfile).2.2, _, hmade, _, rfl, rfl⟩
    · cases hv

/-- Registering the items of an accepted manifest, whose identifiers differ, keeps one medium for
each. -/
theorem registerItems_eq_ok {items validated : List SetupConfiguration} {paths : List ByteText}
    (hchecked : List.Forall₂ (fun c v => validateSetupConfiguration c = .ok v) items validated)
    (hlocated : List.Forall₂ (fun v p => setupVirtualPath v = .ok p) validated paths)
    (hids : (items.map fun c => remoteMediaID digest c.backing).Nodup) (r : MemoryRepository)
    (hnew : ∀ c ∈ items, r.lookup (remoteMediaID digest c.backing) = none) :
    ∃ r' media, registerItems digest false r items = .ok r' ∧
      List.Forall₂ (Registers digest) items media ∧
      (r'.entries.map fun e => e.2).Perm (media ++ r.entries.map fun e => e.2) := by
  induction hchecked generalizing paths r with
  | nil => exact ⟨r, [], rfl, .nil, List.Perm.refl _⟩
  | @cons c v items validated hv hrest ih =>
    cases hlocated with
    | @cons _ path _ paths hpath hmore =>
      obtain ⟨m, hregister, hm⟩ : ∃ m, registerItem digest false r c = .ok (r.insert m.id m, m) ∧
          Registers digest c m := registerItem_eq_ok r hv hpath
      rw [List.map_cons, List.nodup_cons] at hids
      have hnone : r.lookup m.id = none := by
        rw [hm.id]
        exact hnew c List.mem_cons_self
      obtain ⟨r', media, hr', hmedia, hperm⟩ := ih hmore hids.2 (r.insert m.id m) (by
        intro d hd
        rw [Table.lookup_insert, if_neg, hnew d (List.mem_cons_of_mem _ hd)]
        rw [hm.id]
        intro heq
        exact hids.1 (heq ▸ List.mem_map_of_mem hd))
      refine ⟨r', m :: media, ?_, .cons hm hmedia, ?_⟩
      · rw [registerItems, hregister]
        exact hr'
      · rw [AList.entries_insert_of_notMem (AList.lookup_eq_none.1 hnone), List.map_cons] at hperm
        exact hperm.trans (List.perm_middle)

end Registered

end BlackPearl.Catalog
