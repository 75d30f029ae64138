import BlackPearl.Catalog.Registration

/-!
# Preparing a range catalog

`prepareRangeCatalog` of `cmd/blackpearl/app.go`, which makes the catalog of a manifest after it has
opened the source of every item, and the lookups of `internal/core/catalog.go`. A preparation succeeds
exactly when every source answers with the size of its item, or may be left out
(`prepareRangeCatalog_eq_ok`); the items that it keeps are the ones that answered, in order.

What an opener returns for an item is given by item: the items of a manifest differ.
-/

set_option autoImplicit false

namespace BlackPearl.Catalog

open BlackPearl.Library BlackPearl.Setup

/-! ## Answers of the sources -/

/-- An error of a source, and whether it is `ErrUnavailable` of the domain. -/
structure SourceError where
  message : String
  unavailable : Bool
  deriving DecidableEq, Repr

/-- Say in which context a source failed; `%w` keeps what the error is. -/
def SourceError.within (context : String) (e : SourceError) : SourceError :=
  { e with message := context ++ ": " ++ e.message }

/-- A source that was opened: its size, and what closing it returns. -/
structure OpenedSource where
  size : Int64
  close : Option SourceError := none
  deriving DecidableEq, Repr

/-- What happens while one item is prepared: what its opener returns, and whether the context has
ended when its medium is registered. -/
structure ItemCalls where
  opened : Except SourceError OpenedSource
  cancelled : Bool := false
  deriving DecidableEq, Repr

/-- The source answers with the size of its item, and can be closed. -/
def ItemCalls.Serves (calls : ItemCalls) (c : SetupConfiguration) : Prop :=
  calls.opened = .ok { size := c.size } ∧ calls.cancelled = false

instance (calls : ItemCalls) (c : SetupConfiguration) : Decidable (calls.Serves c) :=
  inferInstanceAs (Decidable (_ ∧ _))

/-- The source cannot be reached. -/
def ItemCalls.unavailable (calls : ItemCalls) : Bool :=
  match calls.opened with
  | .error e => e.unavailable
  | .ok _ => false

/-- The source cannot be reached, and the catalog may be partial. -/
def ItemCalls.Skipped (allowPartial : Bool) (calls : ItemCalls) : Prop :=
  allowPartial = true ∧ calls.unavailable = true

instance (allowPartial : Bool) (calls : ItemCalls) : Decidable (calls.Skipped allowPartial) :=
  inferInstanceAs (Decidable (_ ∧ _))

/-! ## Preparing -/

/-- What `prepareRangeCatalog` returns: the catalog and the manifest that it exposes. -/
structure Preparation where
  runtime : MemoryRepository
  activeManifest : SetupManifest

section Preparing

variable (digest : ByteText → ByteText) [TextTables]

/-- The loop of `prepareRangeCatalog`: the catalog and the active items. -/
def prepareItems (allowPartial : Bool) (calls : SetupConfiguration → ItemCalls)
    (r : MemoryRepository) :
    List SetupConfiguration → Except SourceError (MemoryRepository × List SetupConfiguration)
  | [] => .ok (r, [])
  | c :: items =>
      match (calls c).opened with
      | .error e =>
          if allowPartial && e.unavailable then prepareItems allowPartial calls r items
          else .error (e.within "validate selected range source")
      | .ok source =>
          match source.close with
          | some e => .error (e.within "close selected range metadata")
          | none =>
              if source.size ≠ c.size then
                .error ⟨"selected range size changed: got " ++ toString source.size ++ " want " ++
                  toString c.size, false⟩
              else
                match registerItem digest (calls c).cancelled r c with
                | .error message => .error ⟨message, false⟩
                | .ok (r, _) =>
                    (prepareItems allowPartial calls r items).map fun p => (p.1, c :: p.2)

/-- `prepareRangeCatalog`; `cancelled` is whether the context has ended when it is called. -/
def prepareRangeCatalog (cancelled allowPartial : Bool) (calls : SetupConfiguration → ItemCalls)
    (manifest : SetupManifest) : Except SourceError Preparation :=
  if cancelled then .error ⟨"prepare range catalog: context canceled", false⟩
  else
    match prepareItems digest allowPartial calls ∅ manifest.items with
    | .error e => .error e
    | .ok (runtime, active) =>
        if active = [] then
          .error ⟨"no saved range sources are reachable: temporarily unavailable", true⟩
        else
          match newSetupManifest active with
          | .error message => .error ⟨"validate active range manifest: " ++ message, false⟩
          | .ok activeManifest => .ok ⟨runtime, activeManifest⟩

end Preparing

/-! ## Looking up and opening -/

/-- `MemoryRepository.GetByVirtualPath`; the map is gone through in the order of its entries, which
matters only where two media have one path. -/
def getByVirtualPath (cancelled : Bool) (r : MemoryRepository) (virtualPath : ByteText)
    [TextTables] : Checked Media := do
  require (cancelled = false) "get memory media: context canceled"
  match (r.entries.map fun e => e.2).find? fun media => media.virtualPath = virtualPath with
  | some media => return media
  | none => .error ("not found: media path " ++ ByteText.quote virtualPath)

section Opening

variable [TextTables]

/-- `Catalog.Lookup`. -/
def lookup (cancelled : Bool) (r : MemoryRepository) (virtualPath : ByteText) : Checked Media :=
  within "lookup catalog path" (getByVirtualPath cancelled r virtualPath)

/-- `Catalog.Open`, but for the prefetch of the next episode; `source` is what the media source
returns for a medium. The medium goes with the size of the handle. -/
def openMedia (cancelled : Bool) (source : Media → Except SourceError OpenedSource)
    (r : MemoryRepository) (virtualPath : ByteText) : Checked (Media × OpenedSource) := do
  let media ← lookup cancelled r virtualPath
  match source media with
  | .error e => .error ("open cached media: " ++ e.message)
  | .ok reader =>
      require (reader.size = media.size) ("cached media size mismatch: catalog=" ++
        toString media.size ++ " cache=" ++ toString reader.size ++
          ((reader.close.map fun e => "\n" ++ e.message).getD ""))
      return (media, reader)

/-- `Catalog.Ready`; `source` is what the media source says of itself. -/
def ready (cancelled : Bool) (source : Checked Unit) (r : MemoryRepository) : Checked Unit := do
  within "catalog repository is not ready"
    (require (cancelled = false) "ping memory catalog: context canceled")
  let items ← within "list catalog for readiness" (list cancelled r)
  require (items ≠ []) "catalog is empty"
  within "media source is not ready" source

end Opening

/-! ## When a preparation succeeds -/

section Prepared

variable {digest : ByteText → ByteText} {allowPartial : Bool}
  {calls : SetupConfiguration → ItemCalls}

theorem not_serves_of_skipped {a : ItemCalls} {c : SetupConfiguration}
    (h : a.Skipped allowPartial) : ¬ a.Serves c := by
  rintro ⟨hopened, _⟩
  have hunavailable := h.2
  rw [ItemCalls.unavailable, hopened] at hunavailable
  cases hunavailable

variable [TextTables]

/-- Nothing is registered once the context has ended. -/
theorem registerItem_cancelled {cancelled : Bool} {r : MemoryRepository} {c : SetupConfiguration}
    {x : MemoryRepository × Media} (h : registerItem digest cancelled r c = .ok x) :
    cancelled = false := by
  unfold registerItem at h
  split at h
  · simp only [registerRemoteEpisode, bind_eq_ok, within_eq_ok, upsert, require_eq_ok] at h
    obtain ⟨_, _, _, _, _, _, _, ⟨_, hcancelled, _⟩, _⟩ := h
    exact hcancelled
  · simp only [registerRemoteMovie, bind_eq_ok, within_eq_ok, upsert, require_eq_ok] at h
    obtain ⟨_, _, _, _, _, _, _, ⟨_, hcancelled, _⟩, _⟩ := h
    exact hcancelled

theorem prepareItems_cons_skipped {c : SetupConfiguration} (r : MemoryRepository)
    (items : List SetupConfiguration) (h : (calls c).Skipped allowPartial) :
    prepareItems digest allowPartial calls r (c :: items) =
      prepareItems digest allowPartial calls r items := by
  obtain ⟨hmayskip, hunavailable⟩ := h
  unfold ItemCalls.unavailable at hunavailable
  split at hunavailable
  · next e herror =>
    simp only [prepareItems, herror, hmayskip, hunavailable, Bool.and_self, if_true]
  · cases hunavailable

theorem prepareItems_cons_serves {c : SetupConfiguration} (r : MemoryRepository)
    (items : List SetupConfiguration) (h : (calls c).Serves c) :
    prepareItems digest allowPartial calls r (c :: items) =
      match registerItem digest false r c with
      | .error message => .error ⟨message, false⟩
      | .ok (r, _) => (prepareItems digest allowPartial calls r items).map fun p =>
          (p.1, c :: p.2) := by
  obtain ⟨hopened, hcancelled⟩ := h
  simp only [prepareItems, hopened, hcancelled, ne_eq, not_true_eq_false, if_false]

/-- An item that is neither served nor skipped ends the preparation. -/
theorem prepareItems_cons_error {c : SetupConfiguration} (r : MemoryRepository)
    (items : List SetupConfiguration) (hserves : ¬ (calls c).Serves c)
    (hskipped : ¬ (calls c).Skipped allowPartial) :
    ∃ e, prepareItems digest allowPartial calls r (c :: items) = .error e := by
  rw [prepareItems]
  cases hopened : (calls c).opened with
  | error e =>
    have hnot : ¬ (allowPartial && e.unavailable) = true := by
      intro hboth
      rw [Bool.and_eq_true] at hboth
      have hunavailable : (calls c).unavailable = true := by
        rw [ItemCalls.unavailable, hopened]
        exact hboth.2
      exact hskipped ⟨hboth.1, hunavailable⟩
    exact ⟨_, if_neg hnot⟩
  | ok source =>
    obtain ⟨size, close⟩ := source
    cases close with
    | some e => exact ⟨_, rfl⟩
    | none =>
      by_cases hsize : size = c.size
      · subst hsize
        dsimp only
        rw [if_neg (not_not_intro rfl)]
        cases hregister : registerItem digest (calls c).cancelled r c with
        | error message => exact ⟨_, rfl⟩
        | ok x => exact absurd ⟨hopened, registerItem_cancelled hregister⟩ hserves
      · exact ⟨_, if_pos hsize⟩

/-- The loop gets through exactly when each item is served or skipped and those that are served can be
registered; they are the active ones. -/
theorem prepareItems_eq_ok {items active : List SetupConfiguration} {r r' : MemoryRepository} :
    prepareItems digest allowPartial calls r items = .ok (r', active) ↔
      (∀ c ∈ items, (calls c).Serves c ∨ (calls c).Skipped allowPartial) ∧
        active = items.filter (fun c => (calls c).Serves c) ∧
        registerItems digest false r active = .ok r' := by
  induction items generalizing r active with
  | nil =>
    rw [prepareItems]
    constructor
    · intro h
      cases h
      exact ⟨fun c hc => absurd hc List.not_mem_nil, rfl, rfl⟩
    · rintro ⟨_, rfl, hr⟩
      cases hr
      rfl
  | cons c items ih =>
    by_cases hserves : (calls c).Serves c
    · rw [prepareItems_cons_serves r items hserves,
        List.filter_cons_of_pos (by exact decide_eq_true hserves)]
      cases hregister : registerItem digest false r c with
      | error message =>
        constructor
        · intro h
          cases h
        · rintro ⟨_, rfl, hr⟩
          rw [registerItems, hregister] at hr
          cases hr
      | ok x =>
        obtain ⟨r₁, media⟩ := x
        constructor
        · intro h
          cases hrest : prepareItems digest allowPartial calls r₁ items with
          | error e =>
            simp only [hrest] at h
            cases h
          | ok p =>
            obtain ⟨runtime, rest⟩ := p
            simp only [hrest] at h
            cases h
            obtain ⟨hall, hactive, hr⟩ := ih.1 hrest
            refine ⟨?_, by rw [hactive], ?_⟩
            · intro d hd
              rcases List.mem_cons.1 hd with rfl | hd
              · exact Or.inl hserves
              · exact hall d hd
            · rw [registerItems, hregister]
              exact hr
        · rintro ⟨hall, rfl, hr⟩
          rw [registerItems, hregister] at hr
          have hrest := ih.2 ⟨fun d hd => hall d (List.mem_cons_of_mem _ hd), rfl, hr⟩
          simp only [hrest]
          rfl
    · rw [List.filter_cons_of_neg (by simpa using hserves)]
      by_cases hskipped : (calls c).Skipped allowPartial
      · rw [prepareItems_cons_skipped r items hskipped, ih]
        simp only [List.forall_mem_cons, hskipped, or_true, true_and]
      · obtain ⟨e, he⟩ : ∃ e, prepareItems digest allowPartial calls r (c :: items) = .error e :=
          prepareItems_cons_error r items hserves hskipped
        rw [he]
        constructor
        · intro h
          cases h
        · rintro ⟨hall, _⟩
          rcases hall c List.mem_cons_self with h | h
          · exact absurd h hserves
          · exact absurd h hskipped

/-- A part of an accepted manifest is accepted, when it is not empty. -/
theorem newSetupManifest_sublist {items active : List SetupConfiguration}
    (h : newSetupManifest items = .ok ⟨items⟩) (hactive : active.Sublist items)
    (hne : active ≠ []) : newSetupManifest active = .ok ⟨active⟩ := by
  obtain ⟨_, hlength, hvalid, hpairs⟩ := newSetupManifest_self_iff.1 h
  exact newSetupManifest_self_iff.2 ⟨hne, hactive.length_le.trans hlength,
    fun c hc => hvalid c (hactive.subset hc), hpairs.sublist hactive⟩

/-- A manifest is prepared exactly when each of its items is served or may be left out and one is
served; the active items are those that are served, and the catalog has their media. -/
theorem prepareRangeCatalog_eq_ok {m : SetupManifest} (hm : newSetupManifest m.items = .ok m)
    {cancelled : Bool} {p : Preparation} :
    prepareRangeCatalog digest cancelled allowPartial calls m = .ok p ↔ cancelled = false ∧
      (∀ c ∈ m.items, (calls c).Serves c ∨ (calls c).Skipped allowPartial) ∧
      p.activeManifest.items = m.items.filter (fun c => (calls c).Serves c) ∧
      p.activeManifest.items ≠ [] ∧
      registerItems digest false ∅ p.activeManifest.items = .ok p.runtime := by
  unfold prepareRangeCatalog
  cases cancelled with
  | true =>
    rw [if_pos rfl]
    constructor
    · intro h
      cases h
    · rintro ⟨h, _⟩
      cases h
  | false =>
    rw [if_neg Bool.false_ne_true]
    constructor
    · intro h
      cases hitems : prepareItems digest allowPartial calls ∅ m.items with
      | error e =>
        rw [hitems] at h
        cases h
      | ok x =>
        obtain ⟨runtime, active⟩ := x
        obtain ⟨hall, hactive, hr⟩ := prepareItems_eq_ok.1 hitems
        simp only [hitems] at h
        by_cases hnil : active = []
        · rw [if_pos hnil] at h
          cases h
        · have hsublist : active.Sublist m.items := hactive ▸ List.filter_sublist
          have hmanifest := newSetupManifest_sublist hm hsublist hnil
          simp only [if_neg hnil, hmanifest] at h
          cases h
          exact ⟨rfl, hall, hactive, hnil, hr⟩
    · rintro ⟨_, hall, hactive, hnil, hr⟩
      obtain ⟨runtime, ⟨active⟩⟩ := p
      have hitems : prepareItems digest allowPartial calls ∅ m.items = .ok (runtime, active) :=
        prepareItems_eq_ok.2 ⟨hall, hactive, hr⟩
      have hsublist : active.Sublist m.items := by
        have heq : active = m.items.filter fun c => (calls c).Serves c := hactive
        exact heq ▸ List.filter_sublist
      have hmanifest := newSetupManifest_sublist hm hsublist hnil
      have hne : ¬ active = [] := hnil
      simp only [hitems, if_neg hne, hmanifest]

/-- Every medium of the catalog is under its identifier, and was there or is that of an item. -/
theorem registers_of_registerItems {items : List SetupConfiguration} {r r' : MemoryRepository}
    (hvalid : ∀ c ∈ items, validateSetupConfiguration c = .ok c)
    (h : registerItems digest false r items = .ok r') {id : ByteText} {media : Media}
    (hlookup : r'.lookup id = some media) :
    r.lookup id = some media ∨ media.id = id ∧ ∃ c ∈ items, Registers digest c media := by
  induction items generalizing r with
  | nil =>
    cases h
    exact Or.inl hlookup
  | cons c items ih =>
    have hv := hvalid c List.mem_cons_self
    obtain ⟨path, hpath⟩ := setupVirtualPath_of_validateSetupConfiguration hv
    obtain ⟨m, hregister, hm⟩ : ∃ m, registerItem digest false r c = .ok (r.insert m.id m, m) ∧
        Registers digest c m := registerItem_eq_ok r hv hpath
    rw [registerItems, hregister] at h
    rcases ih (fun d hd => hvalid d (List.mem_cons_of_mem _ hd)) h with hthere | ⟨hid, d, hd, hregisters⟩
    · rw [Table.lookup_insert] at hthere
      split at hthere
      · next heq =>
        cases hthere
        exact Or.inr ⟨heq.symm, c, List.mem_cons_self, hm⟩
      · exact Or.inl hthere
    · exact Or.inr ⟨hid, d, List.mem_cons_of_mem _ hd, hregisters⟩

/-- Registering loses no identifier. -/
theorem registerItems_kept {items : List SetupConfiguration} {r r' : MemoryRepository}
    (hvalid : ∀ c ∈ items, validateSetupConfiguration c = .ok c)
    (h : registerItems digest false r items = .ok r') {id : ByteText} (hid : r.lookup id ≠ none) :
    r'.lookup id ≠ none := by
  induction items generalizing r with
  | nil =>
    cases h
    exact hid
  | cons c items ih =>
    have hv := hvalid c List.mem_cons_self
    obtain ⟨path, hpath⟩ := setupVirtualPath_of_validateSetupConfiguration hv
    obtain ⟨m, hregister, _⟩ : ∃ m, registerItem digest false r c = .ok (r.insert m.id m, m) ∧
        Registers digest c m := registerItem_eq_ok r hv hpath
    rw [registerItems, hregister] at h
    apply ih (fun d hd => hvalid d (List.mem_cons_of_mem _ hd)) h
    rw [Table.lookup_insert]
    split
    · exact Option.some_ne_none m
    · exact hid

/-- A catalog of items is not empty. -/
theorem registerItems_ne_nil {items : List SetupConfiguration} {r r' : MemoryRepository}
    (hvalid : ∀ c ∈ items, validateSetupConfiguration c = .ok c) (hne : items ≠ [])
    (h : registerItems digest false r items = .ok r') : r'.entries ≠ [] := by
  cases items with
  | nil => exact absurd rfl hne
  | cons c items =>
    have hv := hvalid c List.mem_cons_self
    obtain ⟨path, hpath⟩ := setupVirtualPath_of_validateSetupConfiguration hv
    obtain ⟨m, hregister, _⟩ : ∃ m, registerItem digest false r c = .ok (r.insert m.id m, m) ∧
        Registers digest c m := registerItem_eq_ok r hv hpath
    rw [registerItems, hregister] at h
    have hthere : r'.lookup m.id ≠ none := by
      apply registerItems_kept (fun d hd => hvalid d (List.mem_cons_of_mem _ hd)) h
      rw [Table.lookup_insert, if_pos rfl]
      exact Option.some_ne_none m
    intro hnil
    obtain ⟨media, hmedia⟩ := Option.ne_none_iff_exists'.1 hthere
    have hmem := (Table.lookup_eq_some_iff_mem r' m.id media).1 hmedia
    rw [hnil] at hmem
    exact List.not_mem_nil hmem

/-- Items that validation gives back can be registered. -/
theorem registerItems_isOk {items : List SetupConfiguration} (r : MemoryRepository)
    (hvalid : ∀ c ∈ items, validateSetupConfiguration c = .ok c) :
    ∃ r', registerItems digest false r items = .ok r' := by
  induction items generalizing r with
  | nil => exact ⟨r, rfl⟩
  | cons c items ih =>
    have hv := hvalid c List.mem_cons_self
    obtain ⟨path, hpath⟩ := setupVirtualPath_of_validateSetupConfiguration hv
    obtain ⟨media, hregister, _⟩ : ∃ media,
        registerItem digest false r c = .ok (r.insert media.id media, media) ∧
          Registers digest c media := registerItem_eq_ok r hv hpath
    obtain ⟨r', hr'⟩ := ih (r.insert media.id media) fun d hd => hvalid d (List.mem_cons_of_mem _ hd)
    refine ⟨r', ?_⟩
    rw [registerItems, hregister]
    exact hr'

/-- So an accepted manifest is prepared exactly when its sources allow it. -/
theorem prepareRangeCatalog_isOk_iff {m : SetupManifest} (hm : newSetupManifest m.items = .ok m)
    {cancelled : Bool} :
    (∃ p, prepareRangeCatalog digest cancelled allowPartial calls m = .ok p ∧
        p.activeManifest = ⟨m.items.filter fun c => (calls c).Serves c⟩) ↔
      cancelled = false ∧
        (∀ c ∈ m.items, (calls c).Serves c ∨ (calls c).Skipped allowPartial) ∧
        m.items.filter (fun c => (calls c).Serves c) ≠ [] := by
  constructor
  · rintro ⟨p, hp, hactive⟩
    obtain ⟨hcancelled, hall, hitems, hne, _⟩ := (prepareRangeCatalog_eq_ok hm).1 hp
    exact ⟨hcancelled, hall, hitems ▸ hne⟩
  · rintro ⟨hcancelled, hall, hne⟩
    have hvalid := (newSetupManifest_self_iff.1 hm).2.2.1
    obtain ⟨r, hr⟩ : ∃ r, registerItems digest false ∅
        (m.items.filter fun c => (calls c).Serves c) = .ok r :=
      registerItems_isOk ∅ fun c hc => hvalid c (List.mem_of_mem_filter hc)
    exact ⟨⟨r, ⟨m.items.filter fun c => (calls c).Serves c⟩⟩,
      (prepareRangeCatalog_eq_ok hm).2 ⟨hcancelled, hall, rfl, hne, hr⟩, rfl⟩

end Prepared

end BlackPearl.Catalog
