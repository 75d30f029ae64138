import BlackPearl.Catalog.Prepare
import BlackPearl.Nfs.Walk
import BlackPearl.Plex.Refresh
import BlackPearl.SetupService.Publication

/-!
# Publishing a catalog

`setupPublisher.Publish` of `cmd/blackpearl/app.go` with what it puts together: the catalogs of
`prepareRangeCatalog`, the filesystem of PearlNFS, `CatalogSwitch` of `internal/core/switch.go` and
the Plex refresh worker. The setup service publishes one catalog at a time; clients of the filesystem
and the refresh worker see what lies between the steps of a publication.

At every point the filesystem and its catalog show the items of one preparation
(`published_catalog`), and when everything is at rest Plex has been refreshed since they were put in
place (`refreshed_since_publication`). A catalog that was prepared is replaced unless the context ends
(`replace_prepared`).
-/

set_option autoImplicit false

namespace BlackPearl.SetupService

open BlackPearl.Library BlackPearl.Library.Path BlackPearl.Setup BlackPearl.Catalog BlackPearl.Nfs
  BlackPearl.Plex

/-! ## State and steps -/

/-- Where `Publish` stands. -/
inductive PublishStage
  | idle
  | replaced
  | activated
  deriving DecidableEq, Repr

/-- The filesystem, its catalog, the delegate of the switch and the refresh worker; a filesystem whose
catalog is the switch has none of its own. `items` are those of the catalog, and `before` is how many
events of the worker came before it was put in place. -/
structure PublisherState where
  nfs : Filesystem
  catalog : Option MemoryRepository
  delegate : Option MemoryRepository
  worker : WorkerState
  stage : PublishStage
  items : List SetupConfiguration
  before : ℕ

/-- What the calls of one preparation and publication return. -/
structure RuntimeCalls where
  cancelled : Bool := false
  allowPartial : Bool
  sources : SetupConfiguration → ItemCalls
  readyCancelled : Bool := false
  sourceReady : Checked Unit := .ok ()
  replaceCancelled : Bool := false
  now : ℤ

inductive PublisherLabel
  | replace (manifest : SetupManifest) (calls : RuntimeCalls)
  | activate
  | notify
  | worker (l : WorkerLabel)

section Publishing

variable (digest : ByteText → ByteText) [TextTables]

/-- A runtime is prepared and probed, and `Replace` is called with it. -/
def replaceCatalog (manifest : SetupManifest) (calls : RuntimeCalls) (s : PublisherState) :
    PublisherState :=
  match prepareRangeCatalog digest calls.cancelled calls.allowPartial calls.sources manifest with
  | .error _ => s
  | .ok p =>
      match Catalog.ready calls.readyCancelled calls.sourceReady p.runtime with
      | .error _ => s
      | .ok () =>
          match s.nfs.replace calls.replaceCancelled (list calls.replaceCancelled p.runtime)
              calls.now with
          | .error _ => s
          | .ok nfs =>
              { s with
                nfs := nfs
                catalog := some p.runtime
                stage := .replaced
                items := p.activeManifest.items
                before := s.worker.events.length }

/-- One step: of a publication, which is called with accepted manifests only, or of the worker, which
nobody else notifies. -/
def publisherStep (s : PublisherState) : PublisherLabel → Option PublisherState
  | .replace manifest calls =>
      if s.stage = .idle ∧ newSetupManifest manifest.items = .ok manifest then
        some (replaceCatalog digest manifest calls s)
      else none
  | .activate =>
      if s.stage = .replaced then some { s with delegate := s.catalog, stage := .activated } else none
  | .notify =>
      if s.stage = .activated then some { s with worker := notify s.worker, stage := .idle } else none
  | .worker l =>
      if l = .notify then none else (workerStep s.worker l).map fun worker => { s with worker := worker }

/-- At the start the filesystem serves the switch, which has no delegate and lists nothing. -/
def publisherSystem : System PublisherState PublisherLabel where
  init s := ∃ now hasRefresher options nfs worker,
    newReloadable false (.ok []) now = .ok nfs ∧ newWorker hasRefresher options = .ok worker ∧
      s = ⟨nfs, none, none, worker, .idle, [], 0⟩
  step := publisherStep digest

end Publishing

/-! ## What a catalog shows -/

/-- The hash of media identifiers does not collide on these items. -/
def DigestFree (digest : ByteText → ByteText) (items : List SetupConfiguration) : Prop :=
  ∀ c ∈ items, ∀ c' ∈ items,
    digest (backingKey c.backing) = digest (backingKey c'.backing) →
      backingKey c.backing = backingKey c'.backing

section Shown

variable {digest : ByteText → ByteText} [TextTables] {items : List SetupConfiguration}
  {r : MemoryRepository}

/-- A catalog finds the media of these items and no others; it finds all of them when the hash does not
collide. -/
structure Offers (digest : ByteText → ByteText) (items : List SetupConfiguration)
    (r : MemoryRepository) : Prop where
  found : ∀ path media, lookup false r path = .ok media →
    media.virtualPath = path ∧ ∃ c ∈ items, Registers digest c media
  every : DigestFree digest items → ∀ c ∈ items, ∃ media,
    lookup false r media.virtualPath = .ok media ∧ Registers digest c media

/-- Two items of an accepted manifest with one path are one. -/
theorem eq_of_virtualPath_eq (hitems : newSetupManifest items = .ok ⟨items⟩)
    {c d : SetupConfiguration} (hc : c ∈ items) (hd : d ∈ items)
    (h : c.virtualPath = d.virtualPath) : c = d := by
  obtain ⟨_, _, hvalid, hpairs⟩ := newSetupManifest_self_iff.1 hitems
  by_contra hne
  have hsymm : Std.Symm fun c d : SetupConfiguration =>
      objectKey c ≠ objectKey d ∧ setupVirtualPath c ≠ setupVirtualPath d :=
    ⟨fun _ _ h => ⟨h.1.symm, h.2.symm⟩⟩
  apply (hpairs.forall hc hd hne).2
  rw [SetupConfiguration.virtualPath, SetupConfiguration.virtualPath, hvalid c hc, hvalid d hd] at h
  exact h

/-- The media of the catalog, each of which is that of an item. -/
theorem registers_of_mem (hitems : newSetupManifest items = .ok ⟨items⟩)
    (hr : registerItems digest false ∅ items = .ok r) {e : (_ : ByteText) × Media}
    (he : e ∈ r.entries) : e.2.id = e.1 ∧ ∃ c ∈ items, Registers digest c e.2 := by
  have hvalid := (newSetupManifest_self_iff.1 hitems).2.2.1
  have hlookup : r.lookup e.1 = some e.2 := (Table.lookup_eq_some_iff_mem r e.1 e.2).2 he
  rcases registers_of_registerItems hvalid hr hlookup with hempty | hregisters
  · rw [AList.lookup_empty] at hempty
    cases hempty
  · exact hregisters

/-- No path is there twice, whatever the hash does. -/
theorem paths_nodup_of_registerItems (hitems : newSetupManifest items = .ok ⟨items⟩)
    (hr : registerItems digest false ∅ items = .ok r) :
    ((r.entries.map fun e => e.2).map Media.virtualPath).Nodup := by
  rw [List.map_map]
  refine List.Nodup.map_on ?_ r.nodupKeys.nodup
  intro e he e' he' hpath
  obtain ⟨hid, c, hc, hregisters⟩ := registers_of_mem hitems hr he
  obtain ⟨hid', d, hd, hregisters'⟩ := registers_of_mem hitems hr he'
  have hpaths : c.virtualPath = d.virtualPath := by
    rw [hregisters.path, hregisters'.path]
    exact congrArg Except.ok hpath
  obtain rfl := eq_of_virtualPath_eq hitems hc hd hpaths
  -- one item has one identifier, and an identifier has one entry
  have hkey : e.1 = e'.1 := by rw [← hid, ← hid', hregisters.id, hregisters'.id]
  have hlookup : r.lookup e.1 = some e.2 := (Table.lookup_eq_some_iff_mem r e.1 e.2).2 he
  have hlookup' : r.lookup e'.1 = some e'.2 := (Table.lookup_eq_some_iff_mem r e'.1 e'.2).2 he'
  rw [hkey, hlookup'] at hlookup
  exact Sigma.ext hkey (heq_of_eq (Option.some.inj hlookup).symm)

/-- The catalog finds its media under their paths. -/
theorem lookup_eq_ok_iff (hitems : newSetupManifest items = .ok ⟨items⟩)
    (hr : registerItems digest false ∅ items = .ok r) {path : ByteText} {media : Media} :
    lookup false r path = .ok media ↔
      media ∈ (r.entries.map fun e => e.2) ∧ media.virtualPath = path := by
  have hfind : lookup false r path = .ok media ↔
      (r.entries.map fun e => e.2).find? (fun m => m.virtualPath = path) = some media := by
    unfold lookup getByVirtualPath
    rw [within_eq_ok]
    cases (r.entries.map fun e => e.2).find? fun m => m.virtualPath = path with
    | none => simp [require]
    | some m => simp [require]
  rw [hfind]
  constructor
  · intro h
    exact ⟨List.mem_of_find?_eq_some h, by simpa using List.find?_some h⟩
  · rintro ⟨hmem, hpath⟩
    cases hm : (r.entries.map fun e => e.2).find? fun m => m.virtualPath = path with
    | none =>
      have hnot := List.find?_eq_none.1 hm media hmem
      exact absurd hpath (by simpa using hnot)
    | some m =>
      have hpath' : m.virtualPath = path := by simpa using List.find?_some hm
      rw [List.inj_on_of_nodup_map (paths_nodup_of_registerItems hitems hr)
        (List.mem_of_find?_eq_some hm) hmem (hpath'.trans hpath.symm)]

/-- The media are those of all the items, when the hash does not collide. -/
theorem media_perm_of_registerItems (hitems : newSetupManifest items = .ok ⟨items⟩)
    (hr : registerItems digest false ∅ items = .ok r) (hfree : DigestFree digest items) :
    ∃ media, List.Forall₂ (Registers digest) items media ∧
      (r.entries.map fun e => e.2).Perm media ∧ (media.map Media.virtualPath).Nodup := by
  obtain ⟨_, _, paths, hmanifest⟩ := newSetupManifest_eq_ok.1 hitems
  have hkeys := backingKeys_nodup hitems
  have hids : (items.map fun c => remoteMediaID digest c.backing).Nodup := by
    refine List.Nodup.map_on (fun c hc c' hc' heq => ?_) hkeys.of_map
    exact List.inj_on_of_nodup_map hkeys hc hc' (hfree c hc c' hc' (List.append_cancel_left heq))
  obtain ⟨r', media, hr', hmedia, hperm⟩ := registerItems_eq_ok
    hmanifest.checked hmanifest.located hids ∅ fun c _ => AList.lookup_empty _
  obtain rfl := Except.ok.inj (hr.symm.trans hr')
  refine ⟨media, hmedia, by simpa using hperm, ?_⟩
  rw [map_virtualPath_of_registers hmanifest.checked hmanifest.located hmedia]
  simpa using hmanifest.paths_nodup

/-- What the catalog of accepted items offers. -/
theorem offers_of_registerItems (hitems : newSetupManifest items = .ok ⟨items⟩)
    (hr : registerItems digest false ∅ items = .ok r) : Offers digest items r where
  found path media h := by
    obtain ⟨hmem, hpath⟩ := (lookup_eq_ok_iff hitems hr).1 h
    obtain ⟨e, he, rfl⟩ := List.mem_map.1 hmem
    exact ⟨hpath, (registers_of_mem hitems hr he).2⟩
  every hfree c hc := by
    obtain ⟨media, hmedia, hperm, _⟩ := media_perm_of_registerItems hitems hr hfree
    obtain ⟨m, hm, hregisters⟩ := exists_of_mem_forall₂ hmedia.flip hc
    exact ⟨m, (lookup_eq_ok_iff hitems hr).2 ⟨hperm.mem_iff.2 hm, rfl⟩, hregisters⟩

/-- A filesystem that shows the media of these items is their namespace. -/
theorem isNamespaceOf_of_shows {f : Filesystem} {modified : ℤ} {media registered : List Media}
    (hshows : Shows media modified f) (hmedia : List.Forall₂ (Registers digest) items registered)
    (hperm : media.Perm registered) (hpaths : (registered.map Media.virtualPath).Nodup) :
    IsNamespaceOf items f := by
  have hplaced : ∀ x ∈ media, Placed (parts x) := by
    intro x hx
    obtain ⟨c, _, hcx⟩ := exists_of_mem_forall₂ hmedia (hperm.mem_iff.1 hx)
    exact placed_of_built hcx.built
  refine ⟨fun fuel hfuel => ?_, fun d hd => ?_⟩
  · obtain ⟨files, hwalk, hfound⟩ := hshows.walk hplaced fuel [] (Or.inl rfl)
      (fun x hx => (hplaced x hx).ne_nil) (by simpa using hfuel)
    have hlocated : ((registered.map fun x => (x.virtualPath, x.size)).map Prod.fst).Nodup := by
      rw [List.map_map]
      exact hpaths
    refine ⟨files, _, hwalk, ?_, ?_, hlocated⟩
    · apply (List.perm_ext_iff_of_nodup hfound.nodup.of_map hlocated.of_map).2
      intro x
      rw [hfound.mem, List.mem_map]
      constructor
      · rintro ⟨y, hy, -, rfl⟩
        exact ⟨y, hperm.mem_iff.1 hy, rfl⟩
      · rintro ⟨y, hy, rfl⟩
        exact ⟨y, hperm.mem_iff.2 hy, List.nil_prefix, rfl⟩
    · rw [List.forall₂_map_right_iff]
      exact hmedia.imp fun c x h => ⟨h.path, h.size⟩
  · obtain ⟨l, rfl, hcovers, hnot⟩ := hshows.visited hplaced hd
    obtain ⟨infos, hread, hlisted, -⟩ := hshows.readDir hplaced hcovers hnot
    exact ⟨infos, hread, hlisted⟩

/-- Replacing the catalog of the filesystem by one of accepted items succeeds, and shows them. -/
theorem replace_registered (hitems : newSetupManifest items = .ok ⟨items⟩)
    (hr : registerItems digest false ∅ items = .ok r) (f : Filesystem) (now : ℤ) :
    ∃ f', f.replace false (list false r) now = .ok f' ∧
      (DigestFree digest items → IsNamespaceOf items f') := by
  let media := (r.entries.map fun e => e.2).insertionSort fun x y =>
    ByteText.le x.virtualPath y.virtualPath
  have hsorted : media.Perm (r.entries.map fun e => e.2) := List.perm_insertionSort _ _
  have hplaced : ∀ x ∈ media, Placed (parts x) := by
    intro x hx
    obtain ⟨e, he, rfl⟩ := List.mem_map.1 (hsorted.mem_iff.1 hx)
    obtain ⟨_, c, _, hregisters⟩ := registers_of_mem hitems hr he
    exact placed_of_built hregisters.built
  have hnodup : (media.map Media.virtualPath).Nodup :=
    (hsorted.map _).nodup_iff.2 (paths_nodup_of_registerItems hitems hr)
  obtain ⟨f', hreplace, -, -, hshows⟩ := replace_eq_ok f now hplaced hnodup
  refine ⟨f', hreplace, fun hfree => ?_⟩
  obtain ⟨registered, hmedia, hperm, hpaths⟩ := media_perm_of_registerItems hitems hr hfree
  exact isNamespaceOf_of_shows hshows hmedia (hsorted.trans hperm) hpaths

end Shown

/-! ## One publication -/

section Publication

variable {digest : ByteText → ByteText} [TextTables] {s t : PublisherState}

/-- What a preparation gives to `Replace`. -/
theorem registered_of_prepared {m : SetupManifest} (hm : newSetupManifest m.items = .ok m)
    {cancelled allowPartial : Bool} {sources : SetupConfiguration → ItemCalls} {p : Preparation}
    (hp : prepareRangeCatalog digest cancelled allowPartial sources m = .ok p) :
    newSetupManifest p.activeManifest.items = .ok ⟨p.activeManifest.items⟩ ∧
      registerItems digest false ∅ p.activeManifest.items = .ok p.runtime := by
  obtain ⟨_, _, hactive, hne, hr⟩ := (prepareRangeCatalog_eq_ok hm).1 hp
  have hsublist : p.activeManifest.items.Sublist m.items := by
    rw [hactive]
    exact List.filter_sublist
  exact ⟨newSetupManifest_sublist hm hsublist hne, hr⟩

/-- A publication leaves everything as it is, or puts a prepared catalog in place. -/
theorem replaceCatalog_cases {m : SetupManifest} (hm : newSetupManifest m.items = .ok m)
    (calls : RuntimeCalls) (s : PublisherState) :
    replaceCatalog digest m calls s = s ∨ ∃ items r nfs,
      newSetupManifest items = .ok ⟨items⟩ ∧ registerItems digest false ∅ items = .ok r ∧
      s.nfs.replace false (list false r) calls.now = .ok nfs ∧
      replaceCatalog digest m calls s =
        ⟨nfs, some r, s.delegate, s.worker, .replaced, items, s.worker.events.length⟩ := by
  unfold replaceCatalog
  split
  · exact Or.inl rfl
  · next p hp =>
    split
    · exact Or.inl rfl
    · split
      · exact Or.inl rfl
      · next nfs hnfs =>
        obtain ⟨hitems, hr⟩ := registered_of_prepared hm hp
        have hcancelled : calls.replaceCancelled = false := by
          simp only [Filesystem.replace, bind_eq_ok, require_eq_ok] at hnfs
          exact hnfs.choose_spec.1
        rw [hcancelled] at hnfs
        exact Or.inr ⟨_, _, nfs, hitems, hr, hnfs, rfl⟩

/-- The catalog of a manifest whose sources answer, or may be left out, is published unless the context
ends or the media source is not ready. -/
theorem replace_prepared {m : SetupManifest} (hm : newSetupManifest m.items = .ok m)
    {calls : RuntimeCalls} (hcancelled : calls.cancelled = false)
    (hsources : ∀ c ∈ m.items,
      (calls.sources c).Serves c ∨ (calls.sources c).Skipped calls.allowPartial)
    (hserved : m.items.filter (fun c => (calls.sources c).Serves c) ≠ [])
    (hready : calls.readyCancelled = false ∧ calls.sourceReady = .ok ())
    (hreplace : calls.replaceCancelled = false) (s : PublisherState) :
    (replaceCatalog digest m calls s).stage = .replaced ∧
      (replaceCatalog digest m calls s).items =
        m.items.filter fun c => (calls.sources c).Serves c := by
  obtain ⟨p, hp, hactive⟩ : ∃ p,
      prepareRangeCatalog digest calls.cancelled calls.allowPartial calls.sources m = .ok p ∧
        p.activeManifest = ⟨m.items.filter fun c => (calls.sources c).Serves c⟩ :=
    (prepareRangeCatalog_isOk_iff hm).2 ⟨hcancelled, hsources, hserved⟩
  obtain ⟨hitems, hr⟩ := registered_of_prepared hm hp
  obtain ⟨nfs, hnfs, _⟩ := replace_registered hitems hr s.nfs calls.now
  -- what was served has been registered, so the catalog is not empty
  have hprobe : Catalog.ready calls.readyCancelled calls.sourceReady p.runtime = .ok () := by
    obtain ⟨hne, _, hvalid, _⟩ := newSetupManifest_self_iff.1 hitems
    have hentries := registerItems_ne_nil hvalid hne hr
    simp only [Catalog.ready, list, bind_eq_ok, within_eq_ok, require_eq_ok, pure_eq_ok]
    refine ⟨(), hready.1, _, ⟨(), hready.1, rfl⟩, (), ?_, hready.2⟩
    intro hnil
    have hlength := congrArg List.length hnil
    rw [List.length_insertionSort, List.length_map] at hlength
    exact hentries (List.length_eq_zero_iff.1 hlength)
  unfold replaceCatalog
  rw [hp]
  dsimp only
  rw [hprobe, hreplace]
  dsimp only
  rw [hnfs]
  exact ⟨rfl, by rw [hactive]⟩

end Publication

/-! ## Runs -/

/-- A refresh that was started after the first `before` events has succeeded. -/
def RefreshedSince (before : ℕ) (events : List RefreshEvent) : Prop :=
  ∃ earlier during after, events.drop before = earlier ++ .started :: (during ++ .ended true :: after) ∧
    ∀ b, .ended b ∉ during

/-- The worker only adds to what has happened. -/
theorem workerStep_events {w w' : WorkerState} {l : WorkerLabel} (h : workerStep w l = some w') :
    w.events <+: w'.events := by
  cases l with
  | notify =>
    cases h
    exact List.prefix_append _ _
  | cancel =>
    cases h
    exact List.prefix_rfl
  | receive =>
    simp only [workerStep] at h
    split at h
    · obtain ⟨c, _, rfl⟩ := Option.map_eq_some_iff.1 h
      exact List.prefix_rfl
    · cases h
  | drain =>
    simp only [workerStep] at h
    split at h
    · split at h <;> cases h <;> exact List.prefix_rfl
    · cases h
  | report =>
    simp only [workerStep] at h
    split at h
    · split at h <;> cases h
      · exact List.prefix_rfl
      · exact List.prefix_append _ _
    · cases h
  | start | refreshed succeeded =>
    simp only [workerStep] at h
    split at h <;> cases h
    exact List.prefix_append _ _
  | debounced | elapsed | stop =>
    simp only [workerStep] at h
    split at h <;> cases h
    exact List.prefix_rfl

/-- When a refresh since the last `Notify` has succeeded, and a `Notify` came after the first events, a
refresh after them has succeeded. -/
theorem refreshedSince_of_notified {events : List RefreshEvent} {before : ℕ}
    (h : RefreshedSinceNotify events) (hnotified : .notified ∈ events.drop before) :
    RefreshedSince before events := by
  obtain ⟨earlier, during, after, rfl, _, hended, hduring, hafter⟩ := h
  by_cases hle : before ≤ earlier.length
  · exact ⟨earlier.drop before, during, after, List.drop_append_of_le_length hle, hended⟩
  · -- then nothing that was notified comes after them
    rw [List.drop_append, List.drop_eq_nil_of_le (Nat.le_of_not_le hle), List.nil_append] at hnotified
    have hmem := List.mem_of_mem_drop hnotified
    simp only [List.mem_cons, List.mem_append, reduceCtorEq, false_or] at hmem
    exact absurd hmem (not_or_intro hduring hafter)

section Runs

variable {digest : ByteText → ByteText} [TextTables] {s t : PublisherState}

/-- What holds at every point of a run. -/
structure PublisherSafe (digest : ByteText → ByteText) (s : PublisherState) : Prop where
  start : s.catalog = none → s.items = [] ∧ IsNamespaceOf [] s.nfs
  offers : ∀ r, s.catalog = some r →
    Offers digest s.items r ∧ (DigestFree digest s.items → IsNamespaceOf s.items s.nfs)
  switched : s.stage ≠ .replaced → s.delegate = s.catalog
  signals : SignalsKept s.worker
  behind : s.before ≤ s.worker.events.length
  notified : s.stage = .idle → s.catalog ≠ none → .notified ∈ s.worker.events.drop s.before

/-- The filesystem at the start is empty. -/
theorem newReloadable_empty {now : ℤ} {nfs : Filesystem}
    (h : newReloadable false (.ok []) now = .ok nfs) : IsNamespaceOf [] nfs := by
  obtain ⟨f', hreplace, -, -, hshows⟩ := replace_eq_ok Filesystem.unbuilt now
    (fun (m : Media) (hm : m ∈ []) => absurd hm List.not_mem_nil) .nil
  simp only [newReloadable, bind_eq_ok, require_eq_ok] at h
  obtain ⟨_, _, hnfs⟩ := h
  obtain rfl := Except.ok.inj (hnfs.symm.trans hreplace)
  have hnone : List.Forall₂ (Registers id) ([] : List SetupConfiguration) [] := .nil
  exact isNamespaceOf_of_shows hshows hnone (List.Perm.refl _) .nil

theorem publisherSafe_init (h : (publisherSystem digest).init s) : PublisherSafe digest s := by
  obtain ⟨now, hasRefresher, options, nfs, worker, hnfs, hworker, rfl⟩ := h
  refine ⟨fun _ => ⟨rfl, newReloadable_empty hnfs⟩, ?_, fun _ => rfl,
    newWorker_kept hworker, Nat.zero_le _, fun _ hnone => absurd rfl hnone⟩
  intro r hr
  cases hr

/-- A step of a publication or of the worker keeps it. -/
theorem publisherStep_safe (h : PublisherSafe digest s) {l : PublisherLabel}
    (hstep : publisherStep digest s l = some t) : PublisherSafe digest t := by
  cases l with
  | replace manifest calls =>
    simp only [publisherStep] at hstep
    split at hstep
    · next henabled =>
      cases hstep
      rcases replaceCatalog_cases henabled.2 calls s with hsame | ⟨items, r, nfs, hitems, hr, hnfs, heq⟩
      · exact hsame.symm ▸ h
      · rw [heq]
        obtain ⟨nfs', hnfs', hshows⟩ := replace_registered hitems hr s.nfs calls.now
        obtain rfl := Except.ok.inj (hnfs.symm.trans hnfs')
        refine ⟨(fun hnone => by cases hnone), ?_, fun hstage => absurd rfl hstage, h.signals, le_refl _,
          (fun hstage => by cases hstage)⟩
        intro r' hr'
        obtain rfl := Option.some.inj hr'
        exact ⟨offers_of_registerItems hitems hr, hshows⟩
    · cases hstep
  | activate =>
    simp only [publisherStep] at hstep
    split at hstep <;> cases hstep
    exact ⟨h.start, h.offers, fun _ => rfl, h.signals, h.behind, (fun hstage => by cases hstage)⟩
  | notify =>
    simp only [publisherStep] at hstep
    split at hstep
    · next hactivated =>
      cases hstep
      have hswitched : s.delegate = s.catalog := h.switched (by rw [hactivated]; decide)
      have hgrows : s.worker.events <+: (notify s.worker).events := List.prefix_append _ _
      refine ⟨h.start, h.offers, fun _ => hswitched, workerStep_kept (l := WorkerLabel.notify) h.signals rfl,
        h.behind.trans hgrows.length_le, fun _ _ => ?_⟩
      -- the notification comes after everything that has happened before
      show RefreshEvent.notified ∈ (s.worker.events ++ [RefreshEvent.notified]).drop s.before
      rw [List.drop_append_of_le_length h.behind]
      exact List.mem_append_right _ (List.mem_singleton_self _)
    · cases hstep
  | worker l =>
    simp only [publisherStep] at hstep
    split at hstep
    · cases hstep
    · obtain ⟨worker, hworker, rfl⟩ := Option.map_eq_some_iff.1 hstep
      have hgrows := workerStep_events hworker
      refine ⟨h.start, h.offers, h.switched, workerStep_kept h.signals hworker,
        h.behind.trans hgrows.length_le, fun hstage hcatalog => ?_⟩
      obtain ⟨more, hmore⟩ := hgrows
      show RefreshEvent.notified ∈ worker.events.drop s.before
      rw [← hmore, List.drop_append_of_le_length h.behind]
      exact List.mem_append_left _ (h.notified hstage hcatalog)

theorem publisherSafe_of_reachable (h : (publisherSystem digest).Reachable s) :
    PublisherSafe digest s :=
  h.invariant (fun _ => publisherSafe_init) fun _ _ _ hs _ hstep => publisherStep_safe hs hstep

/-- What is published, at every point of every run: the filesystem is the namespace of the items, its
catalog finds their media and no others, and the switch follows it. -/
structure PublishedCatalog (digest : ByteText → ByteText) (s : PublisherState) : Prop where
  files : DigestFree digest s.items → IsNamespaceOf s.items s.nfs
  offers : ∀ r, s.catalog = some r → Offers digest s.items r
  empty : s.catalog = none → s.items = []
  switched : s.stage ≠ .replaced → s.delegate = s.catalog

/-- Whatever is published in whatever order, with sources that answer or do not, the filesystem and its
catalog always show the items of one preparation, also while a publication is under way. -/
theorem published_catalog (h : (publisherSystem digest).Reachable s) : PublishedCatalog digest s := by
  have hsafe := publisherSafe_of_reachable h
  refine ⟨fun hfree => ?_, fun r hr => (hsafe.offers r hr).1, fun hnone => (hsafe.start hnone).1,
    hsafe.switched⟩
  cases hcatalog : s.catalog with
  | none =>
    obtain ⟨hitems, hempty⟩ := hsafe.start hcatalog
    exact hitems.symm ▸ hempty
  | some r => exact (hsafe.offers r hcatalog).2 hfree

/-- Between publications, when the refresh worker waits and no signal does, Plex has been refreshed
since the catalog was put in place. -/
theorem refreshed_since_publication (h : (publisherSystem digest).Reachable s) (hidle : s.stage = .idle)
    (hpublished : s.catalog ≠ none) (hwaits : s.worker.phase = .waiting)
    (hquiet : s.worker.notifications.waiting = 0) : RefreshedSince s.before s.worker.events := by
  have hsafe := publisherSafe_of_reachable h
  have hnotified := hsafe.notified hidle hpublished
  rcases hsafe.signals.waiting hwaits with hpos | hnever | hrefreshed
  · omega
  · exact absurd (List.mem_of_mem_drop hnotified) hnever
  · exact refreshedSince_of_notified hrefreshed hnotified

end Runs

section SmallRuns

attribute [local instance] TextTables.ascii

/-- Sources of which only that of the first film answers. -/
def firstAnswers : RuntimeCalls where
  allowPartial := true
  sources c := if c.objectID = text "1" then ⟨.ok { size := 1 }, false⟩ else ⟨.error ⟨"away", true⟩, false⟩
  now := 0

/-- Part of a manifest is published, and Plex is refreshed. -/
def smallPublication : List PublisherLabel :=
  [.replace oneMatch.manifest firstAnswers, .activate, .notify, .worker .receive, .worker .debounced,
    .worker .drain, .worker .start, .worker (.refreshed true)]

/-- The start of a run. -/
def freshPublisher : Option PublisherState :=
  (newReloadable false (.ok []) 0).toOption.map fun nfs =>
    ⟨nfs, none, none, ⟨.waiting, .empty, false, []⟩, .idle, [], 0⟩

/-- A run that publishes. -/
def publishedState : Option PublisherState :=
  freshPublisher.bind fun s => (publisherSystem id).run s smallPublication

theorem publishedState_reachable : ∃ s, publishedState = some s ∧ (publisherSystem id).Reachable s := by
  cases hfresh : newReloadable false (.ok []) 0 with
  | error message =>
    have hsome : publishedState.isSome = true := by decide +kernel
    rw [publishedState, freshPublisher, hfresh] at hsome
    cases hsome
  | ok nfs =>
    obtain ⟨s, hs⟩ : ∃ s, publishedState = some s := Option.isSome_iff_exists.1 (by decide +kernel)
    refine ⟨s, hs, ?_⟩
    rw [publishedState, freshPublisher, hfresh] at hs
    exact System.reachable_of_run ⟨0, true, ⟨1, 1⟩, nfs, _, hfresh, rfl, rfl⟩ hs

/-- Part of the manifest shows at the end of it. -/
theorem published_catalog_part : ∃ s, publishedState = some s ∧ PublishedCatalog id s ∧
    s.items = [smallFilm "1" "T"] := by
  obtain ⟨s, hs, hreachable⟩ := publishedState_reachable
  have hitems : publishedState.map PublisherState.items = some [smallFilm "1" "T"] := by decide +kernel
  rw [hs, Option.map_some, Option.some.injEq] at hitems
  exact ⟨s, hs, published_catalog hreachable, hitems⟩

/-- Its refresh came after the catalog. -/
theorem refreshed_since_publication_part : ∃ s, publishedState = some s ∧
    RefreshedSince s.before s.worker.events := by
  obtain ⟨s, hs, hreachable⟩ := publishedState_reachable
  have hrest : publishedState.map (fun s =>
      (s.stage, s.catalog.isSome, s.worker.phase, s.worker.notifications.waiting)) =
        some (.idle, true, .waiting, 0) := by
    decide +kernel
  rw [hs, Option.map_some, Option.some.injEq, Prod.mk.injEq, Prod.mk.injEq, Prod.mk.injEq] at hrest
  obtain ⟨hidle, hcatalog, hwaits, hquiet⟩ := hrest
  have hpublished : s.catalog ≠ none := by
    intro hnone
    rw [hnone] at hcatalog
    cases hcatalog
  exact ⟨s, hs, refreshed_since_publication hreachable hidle hpublished hwaits hquiet⟩

/-- One of two films can be published over a filesystem that has nothing. -/
theorem replace_prepared_part :
    let s := replaceCatalog id oneMatch.manifest firstAnswers
      ⟨Filesystem.unbuilt, none, none, ⟨.waiting, .empty, false, []⟩, .idle, [], 0⟩
    s.stage = .replaced ∧ s.items =
      oneMatch.manifest.items.filter fun c => (firstAnswers.sources c).Serves c :=
  replace_prepared oneMatch.accepted rfl (by decide +kernel) (by decide +kernel) ⟨rfl, rfl⟩ rfl _

end SmallRuns

end BlackPearl.SetupService
