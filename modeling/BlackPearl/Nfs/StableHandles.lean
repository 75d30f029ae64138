import BlackPearl.Nfs.HandleTables

/-!
# What a handle stands for

Media of the constructors have no NUL in what a handle is hashed from, but for the identifier, which
comes first: the text tells the medium (`fileIdentity_inj`). So as long as no two of the texts that
were hashed collide, whatever has been stored at the handle of a medium last is a snapshot with that
medium at the stored path (`handles_stable`).
-/

set_option autoImplicit false

namespace BlackPearl.Nfs

open BlackPearl.Library BlackPearl.Library.Path BlackPearl.Library.Recency BlackPearl.Setup
  BlackPearl.Catalog

/-- What a handle is minted for: the identifier, the path, the size and the backing. -/
def mediaIdentity (m : Media) : ByteText × ByteText × Int64 × ByteText × ByteText :=
  (m.id, m.virtualPath, m.size, m.backing.provider, m.backing.objectID)

/-! ## Identities tell media apart -/

/-- The character that separates the parts of an identity. -/
abbrev nul : Piece := .char '\x00'

theorem nul_notMem_ofSegments {l : List ByteText} (hl : ∀ s ∈ l, nul ∉ s) : nul ∉ ofSegments l := by
  induction l with
  | nil => exact List.not_mem_nil
  | cons s l ih =>
    by_cases hne : l = []
    · subst hne
      rw [ofSegments_singleton]
      exact hl s List.mem_cons_self
    · rw [ofSegments_cons hne, List.mem_append, List.mem_cons, not_or, not_or]
      exact ⟨hl s List.mem_cons_self, by decide, ih fun s' hs' => hl s' (List.mem_cons_of_mem _ hs')⟩

section Built

variable [TextTables]

/-- A provider has the characters of a name. -/
theorem nul_notMem_provider {provider : ByteText} {u : Unit}
    (h : validateProvider provider = .ok u) : nul ∉ provider := by
  simp only [validateProvider, bind_eq_ok, require_eq_ok] at h
  obtain ⟨_, _, hchars⟩ := h
  intro hmem
  have hrune : '\x00' ∈ ByteText.runes provider := List.mem_map_of_mem (f := Piece.rune) hmem
  cases hrunes : ByteText.runes provider with
  | nil =>
    rw [hrunes] at hrune
    cases hrune
  | cons c cs =>
    rw [hrunes] at hrune hchars
    have hfound : Domain.invalidProviderCharacter (c :: cs) ≠ none := by
      rw [Domain.invalidProviderCharacter]
      split
      · next hstart =>
        rcases List.mem_cons.1 hrune with rfl | hrest
        · exact absurd hstart (by decide)
        · intro hnone
          exact absurd (List.find?_eq_none.1 hnone _ hrest) (by decide)
      · exact Option.some_ne_none c
    split at hchars
    · cases hchars
    · next hnone => exact hfound hnone

/-- The parts of an identity that have no separator in them. -/
structure Separated (m : Media) : Prop where
  path : nul ∉ m.virtualPath
  provider : nul ∉ m.backing.provider
  objectID : nul ∉ m.backing.objectID

theorem separated_of_built {m : Media} (h : Built m) : Separated m := by
  have hfile : ∀ {extension : ByteText} {size : Int64} {backing : BackingRef},
      validateFile extension size backing = .ok () →
        nul ∉ extension ∧ nul ∉ backing.provider ∧ nul ∉ backing.objectID := by
    intro extension size backing hfile
    obtain ⟨_, hextension, hbacking⟩ := validateFile_eq_ok hfile
    obtain ⟨hprovider, _, hobject, _⟩ := newBackingRef_eq_ok.1 hbacking
    exact ⟨hextension, nul_notMem_provider hprovider, hobject⟩
  have hdisplay : ∀ {title : ByteText} (year : Int64), nul ∉ title → nul ∉ displayName title year :=
    fun year htitle => notMem_displayName htitle (by decide) (by decide)
  cases h with
  | @movie id title extension year size backing h =>
    obtain ⟨hpath, -⟩ := newMovie_path h
    obtain ⟨_, htitle, _, hchecked, rfl⟩ := newMovie_eq_ok.1 h
    obtain ⟨hextension, hprovider, hobject⟩ := hfile hchecked
    have hname := hdisplay year (validateTitle_eq_ok htitle).2.1
    refine ⟨?_, hprovider, hobject⟩
    rw [hpath]
    apply nul_notMem_ofSegments
    intro s hs
    simp only [movieSegments, List.mem_cons, List.not_mem_nil, or_false] at hs
    rcases hs with rfl | rfl | rfl
    · decide
    · exact hname
    · rw [List.mem_append, not_or]
      exact ⟨hname, hextension⟩
  | @episode id showTitle episodeTitle extension year season episode size backing h =>
    obtain ⟨hpath, -⟩ := newEpisode_path h
    obtain ⟨_, hshow, htitle, _, _, _, hchecked, _, rfl⟩ := newEpisode_eq_ok.1 h
    obtain ⟨hextension, hprovider, hobject⟩ := hfile hchecked
    have hname := hdisplay year (validateTitle_eq_ok hshow).2.1
    have hdigits : ∀ n : Int64, nul ∉ formatTwoDigits n := fun n => notMem_formatTwoDigits (by decide)
    refine ⟨?_, hprovider, hobject⟩
    rw [hpath]
    apply nul_notMem_ofSegments
    intro s hs
    simp only [episodeSegments, List.mem_cons, List.not_mem_nil, or_false] at hs
    rcases hs with rfl | rfl | rfl | rfl
    · decide
    · exact hname
    · rw [List.mem_append, not_or]
      exact ⟨by decide, hdigits season⟩
    · have h₁ : nul ∉ text " - S" := by decide
      have h₂ : nul ∉ text "E" := by decide
      have h₃ : nul ∉ text " - " := by decide
      simp only [episodeFilename, List.mem_append, not_or]
      exact ⟨⟨⟨⟨⟨⟨⟨hname, h₁⟩, hdigits season⟩, h₂⟩, hdigits episode⟩, h₃⟩,
        (validateTitle_eq_ok htitle).2.1⟩, hextension⟩

/-- The parts are found from the end of the text: the identifier may have a NUL itself. -/
theorem fileIdentity_inj {m m' : Media} (hm : Built m) (hm' : Built m')
    (h : fileIdentity m = fileIdentity m') : mediaIdentity m = mediaIdentity m' := by
  have hseparator : ∀ a b : ByteText, a ++ text "\x00" ++ b = a ++ nul :: b := by
    intro a b
    rw [List.append_assoc]
    rfl
  have hsize : ∀ n : Int64, nul ∉ formatNumber n :=
    fun n => notMem_formatNumber (by decide) (by decide)
  have hs := separated_of_built hm
  have hs' := separated_of_built hm'
  simp only [fileIdentity, hseparator] at h
  obtain ⟨h, hobject⟩ := append_cons_cancel_right hs.objectID hs'.objectID h
  obtain ⟨h, hprovider⟩ := append_cons_cancel_right hs.provider hs'.provider h
  obtain ⟨h, hnumber⟩ := append_cons_cancel_right (hsize _) (hsize _) h
  obtain ⟨h, hpath⟩ := append_cons_cancel_right hs.path hs'.path h
  have hid := List.append_cancel_left h
  rw [mediaIdentity, mediaIdentity, hid, hpath, formatNumber_injective hnumber, hprovider, hobject]

end Built

/-- The other texts that are hashed begin otherwise. -/
theorem fileIdentity_ne_directoryIdentity (m : Media) (virtualPath : ByteText) :
    fileIdentity m ≠ directoryIdentity virtualPath := by
  intro h
  have hhead := congrArg List.head? h
  simp [fileIdentity, directoryIdentity, text] at hhead

theorem fileIdentity_ne_pathIdentity (m : Media) (filename : ByteText) :
    fileIdentity m ≠ pathIdentity filename := by
  intro h
  have hhead := congrArg List.head? h
  simp [fileIdentity, pathIdentity, text] at hhead

/-! ## The media of a namespace -/

/-- All media of the entries satisfy `P`. -/
def OnlyMedia (P : Media → Prop) (entries : Entries) : Prop :=
  ∀ k e m, entries.lookup k = some e → e.media = some m → P m

section Media

variable {P : Media → Prop} {entries : Entries}

theorem OnlyMedia.insert (h : OnlyMedia P entries) {k : ByteText} {e : Entry}
    (he : ∀ m, e.media = some m → P m) : OnlyMedia P (entries.insert k e) := by
  intro k' e' m hlookup hmedia
  rw [Table.lookup_insert] at hlookup
  split at hlookup
  · rw [← Option.some.inj hlookup] at hmedia
    exact he m hmedia
  · exact h k' e' m hlookup hmedia

theorem OnlyMedia.addChild (h : OnlyMedia P entries) (parent child : ByteText) :
    OnlyMedia P (addChild entries parent child) := by
  simp only [Nfs.addChild]
  split
  · exact h
  · apply h.insert
    intro m hm
    cases hvalue : entries.lookup (cleanPath parent) with
    | none =>
      rw [hvalue] at hm
      cases hm
    | some value =>
      rw [hvalue] at hm
      exact h _ _ m hvalue hm

theorem OnlyMedia.addDirectories {rest : List ByteText} :
    ∀ {entries : Entries} {above : List ByteText}, OnlyMedia P entries →
      OnlyMedia P (addDirectories entries above rest) := by
  induction rest with
  | nil => exact fun h => h
  | cons part rest ih =>
    intro entries above h
    cases rest with
    | nil => exact h
    | cons next rest =>
      refine @ih (addDirectory entries (ofSegments above) part) _ ?_
      apply OnlyMedia.addChild
      split
      · apply h.insert
        intro m hm
        cases hm
      · exact h

theorem OnlyMedia.mapValues (h : OnlyMedia P entries) (g : ByteText → Entry → Entry)
    (hg : ∀ k e, (g k e).media = e.media) : OnlyMedia P (entries.mapValues g) := by
  intro k e m hlookup hmedia
  rw [Table.lookup_mapValues, Option.map_eq_some_iff] at hlookup
  obtain ⟨e', he', rfl⟩ := hlookup
  rw [hg] at hmedia
  exact h k e' m he' hmedia

variable [TextTables]

theorem OnlyMedia.addAll {items : List Media} (hitems : ∀ m ∈ items, P m) :
    ∀ {entries entries' : Entries}, OnlyMedia P entries → addAll entries items = .ok entries' →
      OnlyMedia P entries' := by
  induction items with
  | nil =>
    intro entries entries' h hadded
    obtain rfl := pure_eq_ok.1 hadded
    exact h
  | cons media items ih =>
    intro entries entries' h hadded
    simp only [Nfs.addAll, addMedia, bind_eq_ok, require_eq_ok, pure_eq_ok] at hadded
    obtain ⟨_, ⟨_, _, _, _, rfl⟩, hrest⟩ := hadded
    refine ih (fun m hm => hitems m (List.mem_cons_of_mem _ hm)) ?_ hrest
    apply OnlyMedia.addChild
    apply (OnlyMedia.addDirectories h).insert
    intro m hm
    obtain rfl := Option.some.inj hm
    exact hitems media List.mem_cons_self

/-- A namespace has the media that its catalog lists. -/
theorem onlyMedia_replace {cancelled : Bool} {f f' : Filesystem} {items : Checked (List Media)} {now : ℤ}
    (hP : ∀ media, items = .ok media → ∀ m ∈ media, P m)
    (h : f.replace cancelled items now = .ok f') : OnlyMedia P f'.entries := by
  simp only [Filesystem.replace, buildEntries, bind_eq_ok, require_eq_ok, within_eq_ok,
    pure_eq_ok] at h
  obtain ⟨_, _, media, hmedia, _, ⟨entries, hadded, rfl⟩, rfl⟩ := h
  have hroot : OnlyMedia P ((∅ : Entries).insert [] { name := [slash] }) := by
    apply OnlyMedia.insert
    · intro k e m hlookup
      rw [AList.lookup_empty] at hlookup
      cases hlookup
    · intro m hm
      cases hm
  apply OnlyMedia.mapValues
  · apply OnlyMedia.mapValues
    · exact hroot.addAll (hP media hmedia) hadded
    · exact fun _ _ => rfl
  · exact fun _ _ => rfl

end Media

theorem OnlyMedia.mediaAt {P : Media → Prop} {f : Filesystem} (h : OnlyMedia P f.entries)
    {filename : ByteText} {m : Media} (hm : f.mediaAt filename = some m) : P m := by
  obtain ⟨e, he, hmedia⟩ := Option.bind_eq_some_iff.1 hm
  exact h _ e m he hmedia

/-! ## What a run keeps -/

/-- The medium at a path of the filesystem of a handle. -/
def Server.mediaIn (s : Server) : Target → List ByteText → Option Media
  | .live, path => s.live.mediaAt (join path)
  | .frozen f, path => f.mediaAt (join path)

section Runs

variable [TextTables]

/-- An entry of the table is what the handler keeps for the text it was hashed from. -/
inductive Stands (e : StableHandleEntry) : ByteText → Prop
  | file {f : Filesystem} {m : Media} : e.filesystem = .frozen f → f.mediaAt (join e.path) = some m →
      Built m → Stands e (fileIdentity m)
  | directory (virtualPath : ByteText) : Stands e (directoryIdentity virtualPath)
  | path (filename : ByteText) : Stands e (pathIdentity filename)

/-- What is kept for a path stands for its text. -/
theorem stands_identify {live : Filesystem} (hlive : OnlyMedia Built live.entries)
    (filesystem : Target) (path : List ByteText) :
    Stands ⟨(live.identify filesystem path).1, path⟩ (live.identify filesystem path).2 := by
  cases filesystem with
  | frozen f => exact .path _
  | live =>
    show Stands ⟨(live.handleSnapshot (join path)).1, path⟩ (live.handleSnapshot (join path)).2
    cases hm : live.mediaAt (join path) with
    | none =>
      simp only [Filesystem.handleSnapshot, hm]
      exact .directory _
    | some m =>
      simp only [Filesystem.handleSnapshot, hm]
      exact .file rfl hm (hlive.mediaAt hm)

variable (digest : ByteText → Digest)

/-- What every call preserves. -/
structure Keeps (t : Traced) : Prop where
  tables : Tables t.server.handles
  bounded : t.server.handles.handles.entries.length ≤ handleCacheSize
  order : Orders handleCacheSize t.touched (t.server.handles.recency.map Element.value)
  live : OnlyMedia Built t.server.live.entries
  entries : ∀ d e, t.server.handles.handles.lookup d = some e →
    ∃ x ∈ t.hashed, digest x = d ∧ Stands e x
  minted : ∀ d m, (d, m) ∈ t.minted → Built m ∧ fileIdentity m ∈ t.hashed ∧ digest (fileIdentity m) = d

variable {digest}

theorem keeps_of_opened {t : Traced} (h : Opened t) : Keeps digest t := by
  obtain ⟨⟨cancelled, items, now, hlive, hitems⟩, hhandles, htouched, hhashed, hminted⟩ := h
  simp only [newReloadable, bind_eq_ok, require_eq_ok] at hlive
  obtain ⟨_, _, hreplaced⟩ := hlive
  refine ⟨?_, ?_, ?_, onlyMedia_replace hitems hreplaced, ?_, ?_⟩
  · rw [hhandles]
    exact tables_empty
  · rw [hhandles]
    exact Nat.zero_le _
  · rw [hhandles, htouched]
    exact orders_nil
  · intro d e he
    rw [hhandles] at he
    cases he
  · intro d m hm
    rw [hminted] at hm
    cases hm

/-- What asking for a handle leaves. -/
theorem step_toHandle {t : Traced} {filesystem : Target} {path : List ByteText}
    {handles : StableHandleHandler}
    (h : t.server.handles.store (digest (t.server.live.identify filesystem path).2)
      ⟨(t.server.live.identify filesystem path).1, path⟩ = some handles) :
    t.step digest (.toHandle filesystem path) = some {
      server := { t.server with handles }
      touched := digest (t.server.live.identify filesystem path).2 :: t.touched
      hashed := (t.server.live.identify filesystem path).2 :: t.hashed
      minted := ((t.server.mediaFor filesystem path).map fun m =>
        (digest (t.server.live.identify filesystem path).2, m)).toList ++ t.minted } := by
  simp only [Traced.step, Server.toHandle, h, Option.bind_eq_bind, Option.bind_some,
    Option.pure_def]

/-- Asking for a handle. -/
theorem Keeps.toHandle {t : Traced} (h : Keeps digest t) (filesystem : Target)
    (path : List ByteText) :
    ∃ t', t.step digest (.toHandle filesystem path) = some t' ∧ Keeps digest t' := by
  obtain ⟨handles, hstore, htables, horder, hlen, hstored⟩ := h.tables.store h.order
    (digest (t.server.live.identify filesystem path).2) ⟨(t.server.live.identify filesystem path).1, path⟩
  refine ⟨_, step_toHandle hstore, htables, hlen, horder, h.live, fun d e he => ?_, fun d m hm => ?_⟩
  · rcases hstored d e he with ⟨rfl, rfl⟩ | hold
    · exact ⟨_, List.mem_cons_self, rfl, stands_identify h.live filesystem path⟩
    · obtain ⟨x, hx, hdigest, hstands⟩ := h.entries d e hold
      exact ⟨x, List.mem_cons_of_mem _ hx, hdigest, hstands⟩
  · rcases List.mem_append.1 hm with hnew | hold
    · rw [Option.mem_toList, Option.map_eq_some_iff] at hnew
      obtain ⟨m', hm', heq⟩ := hnew
      obtain ⟨rfl, rfl⟩ := Prod.mk.inj heq
      cases filesystem with
      | frozen f => cases hm'
      | live =>
        have hat : t.server.live.mediaAt (join path) = some m' := hm'
        have hidentity : (t.server.live.identify .live path).2 = fileIdentity m' := by
          simp only [Filesystem.identify, Filesystem.handleSnapshot, hat]
        rw [hidentity]
        exact ⟨h.live.mediaAt hat, List.mem_cons_self, rfl⟩
    · obtain ⟨hbuilt, hmem, hdigest⟩ := h.minted d m hold
      exact ⟨hbuilt, List.mem_cons_of_mem _ hmem, hdigest⟩

/-- Resolving a handle that is in the table. -/
theorem Keeps.touch {t : Traced} (h : Keeps digest t) {d : Digest} (hd : d ∈ t.server.handles.handles) :
    Keeps digest { t with
      server := { t.server with handles := t.server.handles.touchLocked d }
      touched := d :: t.touched } := by
  obtain ⟨htables, hrecency⟩ := h.tables.touch d t.server.handles.handles fun d' => by
    constructor
    · exact Or.inr
    · rintro (rfl | hd')
      · exact hd
      · exact hd'
  refine ⟨htables, ?_, ?_, h.live, fun d' e he => ?_, h.minted⟩
  · rw [handles_touchLocked]
    exact h.bounded
  · show Orders handleCacheSize (d :: t.touched) _
    rw [hrecency]
    exact h.order.use d
  · rw [handles_touchLocked] at he
    exact h.entries d' e he

/-- One call keeps all of it. -/
theorem Keeps.step {t t' : Traced} {a : Call} (h : Keeps digest t) (ha : Lists t a)
    (hstep : t.step digest a = some t') : Keeps digest t' := by
  cases a with
  | replace cancelled items now =>
    simp only [Traced.step] at hstep
    split at hstep
    · obtain rfl := Option.some.inj hstep
      exact h
    · next live hreplaced =>
      obtain rfl := Option.some.inj hstep
      exact ⟨h.tables, h.bounded, h.order, onlyMedia_replace ha hreplaced, h.entries, h.minted⟩
  | toHandle filesystem path =>
    obtain ⟨t'', hstep', hkeeps⟩ := h.toHandle filesystem path
    rw [hstep] at hstep'
    obtain rfl := Option.some.inj hstep'
    exact hkeeps
  | fromHandle value =>
    simp only [Traced.step, StableHandleHandler.fromHandle] at hstep
    by_cases hlen : value.length = 32
    · simp only [dif_pos hlen] at hstep
      cases he : t.server.handles.handles.lookup ⟨value, hlen⟩ with
      | none =>
        rw [he, if_neg (AList.lookup_eq_none.1 he)] at hstep
        obtain rfl := Option.some.inj hstep
        exact h
      | some e =>
        rw [he, if_pos (Table.mem_of_lookup he)] at hstep
        obtain rfl := Option.some.inj hstep
        exact h.touch (Table.mem_of_lookup he)
    · simp only [dif_neg hlen] at hstep
      obtain rfl := Option.some.inj hstep
      exact h

theorem keeps_of_reachable {t : Traced} (ht : (exported digest).ReachableBy Lists t) :
    Keeps digest t :=
  ht.invariant (fun _ h => keeps_of_opened h) fun _ _ _ h ha hstep => h.step ha hstep

/-! ## The server's own calls -/

variable (digest)

/-- The calls that register the paths. -/
def registrations (paths : List ByteText) : List Call :=
  paths.map fun virtualPath => .toHandle .live (registeredPath virtualPath)

/-- Registering paths is a run of calls for handles. -/
theorem registerPaths_eq_run (paths : List ByteText) (t : Traced) :
    registerPaths digest t.server paths =
      ((exported digest).run t (registrations paths)).map Traced.server := by
  induction paths generalizing t with
  | nil => rfl
  | cons virtualPath paths ih =>
    rw [registrations, List.map_cons, System.run_cons, registerPaths]
    cases hmade : t.server.toHandle digest .live (registeredPath virtualPath) with
    | none =>
      have hstep : (exported digest).step t (.toHandle .live (registeredPath virtualPath)) = none := by
        simp only [exported, Traced.step, hmade, Option.bind_eq_bind, Option.bind_none]
      rw [hstep]
      rfl
    | some made =>
      obtain ⟨server, handle⟩ := made
      have hstep : ∃ u : Traced, (exported digest).step t (.toHandle .live (registeredPath virtualPath)) =
          some u ∧ u.server = server := by
        simp only [exported, Traced.step, hmade, Option.bind_eq_bind, Option.bind_some, Option.pure_def]
        exact ⟨_, rfl, rfl⟩
      obtain ⟨u, hu, rfl⟩ := hstep
      rw [hu, Option.bind_some]
      exact ih u

/-- Replacing the catalog of the server is a run: the new namespace, then a handle for each of its
paths. -/
theorem serverReplace_eq_run (t : Traced) {cancelled : Bool} {items : Checked (List Media)} {now : ℤ}
    {live : Filesystem} (h : t.server.live.replace cancelled items now = .ok live) :
    t.server.replace digest cancelled items now =
      ((exported digest).run t
        (.replace cancelled items now :: registrations live.handlePaths)).map
          fun u => .ok u.server := by
  have hstep : (exported digest).step t (.replace cancelled items now) =
      some { t with server := { t.server with live } } := by
    simp only [exported, Traced.step, h]
  have hrun := registerPaths_eq_run digest live.handlePaths { t with server := { t.server with live } }
  rw [System.run_cons, hstep, Option.bind_some, Server.replace, h]
  show (registerPaths digest _ live.handlePaths).map Except.ok = _
  rw [hrun, Option.map_map]
  rfl

/-! ## Handles are stable -/

/-- No two of the texts that were hashed have one hash. -/
def CollisionFree (t : Traced) : Prop :=
  ∀ x ∈ t.hashed, ∀ y ∈ t.hashed, digest x = digest y → x = y

/-- What holds of the handles after any calls. -/
structure StableHandles (t : Traced) : Prop where
  tables : Tables t.server.handles
  bounded : t.server.handles.handles.entries.length ≤ handleCacheSize
  /-- The loop over the oldest handles does not meet the end of the list. -/
  answers : ∀ filesystem path, (t.server.toHandle digest filesystem path).isSome
  /-- A handle of a medium leads to that medium. -/
  identity : ∀ (d : Digest) (m : Media) (filesystem : Target) (path : List ByteText),
    (d, m) ∈ t.minted → (t.server.handles.fromHandle d.value).1 = .ok (filesystem, path) →
      ∃ m', t.server.mediaIn filesystem path = some m' ∧ mediaIdentity m' = mediaIdentity m
  /-- A handle that is stale has made way for others. -/
  stale : ∀ d ∈ t.touched, (t.server.handles.fromHandle d.value).1 = .error .stale →
    handleCacheSize ≤ (since t.touched d).card

variable {digest}

omit [TextTables] in
/-- What a handle resolves to. -/
theorem fromHandle_value (h : StableHandleHandler) (d : Digest) :
    (h.fromHandle d.value).1 = match h.handles.lookup d with
      | none => .error .stale
      | some e => .ok (e.filesystem, e.path) := by
  unfold StableHandleHandler.fromHandle
  rw [dif_pos d.length_value]
  split
  · next h' => rw [h']
  · next e h' => rw [h']

/-- Handles stay with their media under any replacements of the catalog, at most `handleCacheSize`
are kept, and one is stale only after as many others were touched. -/
theorem handles_stable {t : Traced} (ht : (exported digest).ReachableBy Lists t)
    (hfree : CollisionFree digest t) : StableHandles digest t := by
  have hkeeps := keeps_of_reachable ht
  refine ⟨hkeeps.tables, hkeeps.bounded, fun filesystem path => ?_, ?_, ?_⟩
  · obtain ⟨handles, hstore, -⟩ := hkeeps.tables.store hkeeps.order
      (digest (t.server.live.identify filesystem path).2)
      ⟨(t.server.live.identify filesystem path).1, path⟩
    simp only [Server.toHandle, hstore, Option.bind_eq_bind, Option.bind_some, Option.pure_def,
      Option.isSome_some]
  · intro d m filesystem path hminted hresolved
    obtain ⟨hbuilt, hmem, hdigest⟩ := hkeeps.minted d m hminted
    rw [fromHandle_value] at hresolved
    cases he : t.server.handles.handles.lookup d with
    | none =>
      rw [he] at hresolved
      cases hresolved
    | some e =>
      rw [he] at hresolved
      obtain ⟨rfl, rfl⟩ := Prod.mk.inj (Except.ok.inj hresolved)
      obtain ⟨x, hx, hx', hstands⟩ := hkeeps.entries d e he
      obtain rfl : x = fileIdentity m := hfree x hx _ hmem (hx'.trans hdigest.symm)
      generalize htext : fileIdentity m = text at hstands
      cases hstands with
      | @file f m' hfrozen hat hbuilt' =>
        refine ⟨m', ?_, fileIdentity_inj hbuilt' hbuilt htext.symm⟩
        rw [hfrozen]
        exact hat
      | directory virtualPath => exact absurd htext (fileIdentity_ne_directoryIdentity m virtualPath)
      | path filename => exact absurd htext (fileIdentity_ne_pathIdentity m filename)
  · intro d hd hstale
    apply hkeeps.order.dropped d hd
    rw [← hkeeps.tables.mem_recency]
    intro hmem
    obtain ⟨e, he⟩ := Table.lookup_of_mem hmem
    rw [fromHandle_value, he] at hstale
    cases hstale

end Runs

section SmallRuns

attribute [local instance] TextTables.ascii

/-- A movie. -/
def smallMovie : Media :=
  ⟨text "m1", .movie, text "A", 2000, text ".mkv", join (movieSegments (text "A") 2000 (text ".mkv")), 7,
    ⟨text "torbox-torrent", text "o1"⟩⟩

theorem built_smallMovie : Built smallMovie :=
  .movie (newMovie_eq_ok.2 ⟨by decide, rfl, by decide, rfl, rfl⟩)

/-- The hash of its identity; the other texts of the run below are not told apart. -/
def movieDigest (identity : ByteText) : Digest :=
  if identity = fileIdentity smallMovie then
    ⟨[195, 149, 215, 235, 117, 130, 216, 52, 201, 140, 224, 83, 142, 3, 184, 218, 73, 181, 153, 193, 90, 161, 27, 196, 175, 168, 94, 234, 46, 184, 227, 38], rfl⟩
  else ⟨List.replicate 32 0, rfl⟩

/-- The path by which a client asks for it. -/
def moviePath : List ByteText := movieSegments (text "A") 2000 (text ".mkv")

/-- The movie leaves the catalog after a client has got its handle. -/
def smallRun : Option Traced := do
  let live ← (newReloadable false (.ok [smallMovie]) 0).toOption
  (exported movieDigest).run { server := ⟨live, {}⟩ }
    [.toHandle .live moviePath, .replace false (.ok []) 5]

/-- The handle stays with the movie. -/
theorem handles_stable_small : ∃ t : Traced, smallRun = some t ∧ StableHandles movieDigest t ∧
    t.minted = [(movieDigest (fileIdentity smallMovie), smallMovie)] ∧
    t.server.live.mediaAt (join moviePath) = none ∧
    ((t.server.handles.fromHandle (movieDigest (fileIdentity smallMovie)).value).1.toOption.isSome) := by
  have hevaluated : (smallRun.map fun t => (t.hashed, t.minted,
      t.server.live.mediaAt (join moviePath),
      (t.server.handles.fromHandle (movieDigest (fileIdentity smallMovie)).value).1.toOption.isSome)) =
      some ([fileIdentity smallMovie], [(movieDigest (fileIdentity smallMovie), smallMovie)], none,
        true) := by
    decide +kernel
  obtain ⟨t, hrun, hshown⟩ := Option.map_eq_some_iff.1 hevaluated
  obtain ⟨hhashed, hshown⟩ := Prod.mk.inj hshown
  obtain ⟨hminted, hshown⟩ := Prod.mk.inj hshown
  obtain ⟨hgone, hresolved⟩ := Prod.mk.inj hshown
  have hreached := hrun
  simp only [smallRun, Option.bind_eq_bind, Option.bind_eq_some_iff, System.run_cons,
    System.run_nil, Option.some.injEq] at hreached
  obtain ⟨live, hlive, u, hfirst, v, hsecond, rfl⟩ := hreached
  have hopened : newReloadable false (.ok [smallMovie]) 0 = .ok live := by
    cases hmade : newReloadable false (.ok [smallMovie]) 0 with
    | error message =>
      rw [hmade] at hlive
      cases hlive
    | ok made =>
      rw [hmade] at hlive
      exact congrArg _ (Option.some.inj hlive)
  have hone : FromConstructors (.ok [smallMovie]) := by
    intro media heq m hm
    obtain rfl := Except.ok.inj heq
    exact List.mem_singleton.1 hm ▸ built_smallMovie
  have hnone : FromConstructors (.ok []) := by
    intro media heq m hm
    obtain rfl := Except.ok.inj heq
    cases hm
  refine ⟨v, hrun, handles_stable ?_ ?_, hminted, hgone, hresolved⟩
  · have hinit : (exported movieDigest).init { server := ⟨live, {}⟩ } :=
      ⟨⟨false, .ok [smallMovie], 0, hopened, hone⟩, rfl, rfl, rfl, rfl⟩
    have hasked : Lists { server := ⟨live, {}⟩ } (.toHandle .live moviePath) := trivial
    have hreplaced : Lists u (.replace false (.ok []) 5) := hnone
    exact .step (.step (.init hinit) hasked hfirst) hreplaced hsecond
  · intro x hx y hy _
    rw [hhashed, List.mem_singleton] at hx hy
    rw [hx, hy]

end SmallRuns

end BlackPearl.Nfs
