import BlackPearl.Cache.Store

/-!
# What the store keeps

The invariant of the content-addressed store. It speaks of every entry that the directory may come back
with (`Volume.Possible`), so that a power loss is a step like any other: `Frame` says what a step leaves to the
imports it is not a step of, and `StoreInvariant.changeImport` is the step lemma of the imports.
-/

set_option autoImplicit false

namespace BlackPearl.Cache

open BlackPearl.Library BlackPearl.Setup

/-! ## Names -/

/-- The name of an object is not that of a temporary file: a key starts with a digit. -/
theorem blobName_ne_temporaryName {key suffix : ByteText} (hkey : isCacheKey key = true) :
    blobName key ≠ temporaryName suffix := by
  intro h
  cases key with
  | nil => simp [isCacheKey] at hkey
  | cons p key =>
    have hhead := congrArg List.head? h
    simp only [blobName, temporaryName, List.cons_append, List.head?_cons] at hhead
    have hp : p = .char '.' := Option.some.inj hhead
    have hdigit : isHexDigit p = true := by
      simp only [isCacheKey, List.all_cons, Bool.and_eq_true] at hkey
      exact hkey.2.1
    rw [hp] at hdigit
    cases hdigit

theorem blobName_injective {key key' : ByteText} (h : blobName key = blobName key') : key = key' :=
  List.append_cancel_right h

/-! ## The invariant -/

section Store

variable [TextTables] (digest : ContentDigest)

/-- What an object's entry may lead to: nothing, or synchronized content of that digest. -/
def ObjectEntry (s : StoreState) (key : ByteText) (entry : Option ℕ) : Prop :=
  ∀ i, entry = some i →
    ∃ content ∈ s.imported, digest.sum content = key ∧ s.disk.inodes[i]? = some ⟨content, true⟩

omit [TextTables] in
/-- An object that no power loss can take away. -/
def Kept (s : StoreState) (key : ByteText) : Prop :=
  ∀ entry, s.disk.Possible (blobName key) entry → entry ≠ none

/-- A backing in the store, and the size that is told of it. -/
def Backed (s : StoreState) (backing : BackingRef) (size : Int64) : Prop :=
  ∃ content ∈ s.imported, digest.sum content = backing.objectID ∧ size.toInt = content.length ∧
    Kept s backing.objectID

omit [TextTables] in
/-- The temporary file of an import. -/
structure Holds (s : StoreState) (i : Import) (n : Inode UInt8) : Prop where
  named : ∃ suffix, i.temporary = temporaryName suffix
  entry : s.disk.names.lookup i.temporary = some i.file
  inode : s.disk.inodes[i.file]? = some n

/-- What holds of an import before its next call. -/
def ImportSafe (s : StoreState) (i : Import) : Prop :=
  match i.stage with
  | .createTemp => i.copied = []
  | .copy => Holds s i ⟨i.copied, false⟩ ∧ i.copied.length < 2 ^ 63
  | .sync => Holds s i ⟨i.copied, false⟩ ∧ i.copied.length < 2 ^ 63 ∧ i.copied ∈ s.imported
  | .closeTemporary | .rename =>
      Holds s i ⟨i.copied, true⟩ ∧ i.copied.length < 2 ^ 63 ∧ i.copied ∈ s.imported
  | .removeTemporary _ => ∃ n, Holds s i n
  | .chmod | .openDirectory | .syncDirectory =>
      i.copied.length < 2 ^ 63 ∧ i.copied ∈ s.imported ∧
        s.disk.names.lookup (blobName (digest.sum i.copied)) ≠ none
  | .closeDirectory =>
      i.copied.length < 2 ^ 63 ∧ i.copied ∈ s.imported ∧ Kept s (digest.sum i.copied)
  | .closeSource backing =>
      i.copied.length < 2 ^ 63 ∧ i.copied ∈ s.imported ∧ Kept s (digest.sum i.copied) ∧
        backing = ⟨backingProvider, digest.sum i.copied⟩
  | .upsert media => Backed digest s media.backing media.size
  | .returned _ => True

/-- The invariant of the store. -/
structure StoreInvariant (s : StoreState) : Prop where
  current : s.disk.Current
  objects : ∀ key, isCacheKey key = true → ∀ entry, s.disk.Possible (blobName key) entry →
    ObjectEntry digest s key entry
  imports : ∀ id i, s.imports.lookup id = some i → ImportSafe digest s i
  distinct : ∀ id id' i i', id ≠ id' → s.imports.lookup id = some i → s.imports.lookup id' = some i' →
    i.stage.holds = true → i'.stage.holds = true → i.file ≠ i'.file
  rows : ∀ id media, s.rows.lookup id = some media → media.backing.provider = backingProvider →
    Backed digest s media.backing media.size
  readers : ∀ k r, s.readers.lookup k = some r →
    (∃ content ∈ s.imported, digest.sum content = r.name ∧
      s.disk.inodes[r.file]? = some ⟨content, true⟩) ∧
    ∃ content ∈ s.imported, digest.sum content = r.name ∧ r.logicalSize.toInt = content.length

/-! ## What a step leaves alone -/

omit [TextTables] in
/-- What holds after a step that touches at most the temporary name `temporary` and the file `file`. -/
structure Frame (s s' : StoreState) (temporary : ByteText) (file : ℕ) : Prop where
  imported : ∀ content ∈ s.imported, content ∈ s'.imported
  inodes : ∀ k n, s.disk.inodes[k]? = some n → k ≠ file ∨ n.synced = true → s'.disk.inodes[k]? = some n
  temporaries : ∀ suffix, temporaryName suffix ≠ temporary →
    s'.disk.names.lookup (temporaryName suffix) = s.disk.names.lookup (temporaryName suffix)
  blobs : ∀ key, isCacheKey key = true → s.disk.names.lookup (blobName key) ≠ none →
    s'.disk.names.lookup (blobName key) ≠ none
  kept : ∀ key, isCacheKey key = true → Kept s key → Kept s' key

variable {digest} {s s' : StoreState} {temporary : ByteText} {file : ℕ}

omit [TextTables] in
theorem Frame.same (hdisk : s'.disk = s.disk) (himported : ∀ content ∈ s.imported, content ∈ s'.imported) :
    Frame s s' temporary file where
  imported := himported
  inodes k n h _ := by rwa [hdisk]
  temporaries suffix _ := by rw [hdisk]
  blobs key _ h := by rwa [hdisk]
  kept key _ h := by rwa [Kept, hdisk]

omit [TextTables] in
theorem Frame.backed (hframe : Frame s s' temporary file) {backing : BackingRef} {size : Int64}
    (h : Backed digest s backing size) : Backed digest s' backing size := by
  obtain ⟨content, hcontent, hsum, hsize, hkept⟩ := h
  have hkey : isCacheKey backing.objectID = true := hsum ▸ digest.hex content
  exact ⟨content, hframe.imported _ hcontent, hsum, hsize, hframe.kept _ hkey hkept⟩

omit [TextTables] in
/-- The temporary files of other imports stay. -/
theorem Frame.holds (hframe : Frame s s' temporary file) {i : Import} {n : Inode UInt8}
    (hfile : i.file ≠ file) (htemporary : i.temporary ≠ temporary) (h : Holds s i n) : Holds s' i n := by
  obtain ⟨suffix, hsuffix⟩ := h.named
  refine ⟨⟨suffix, hsuffix⟩, ?_, hframe.inodes _ _ h.inode (Or.inl hfile)⟩
  have hentry := h.entry
  rw [hsuffix] at hentry htemporary ⊢
  rw [hframe.temporaries suffix htemporary, hentry]

omit [TextTables] in
/-- What holds of an import still holds after a step of another one. -/
theorem Frame.importSafe (hframe : Frame s s' temporary file) {i : Import}
    (hother : i.stage.holds = true → i.file ≠ file ∧ i.temporary ≠ temporary)
    (h : ImportSafe digest s i) : ImportSafe digest s' i := by
  have hkey := digest.hex i.copied
  unfold ImportSafe at h ⊢
  split at h
  · exact h
  · next hstage =>
    obtain ⟨hfile, htemporary⟩ := hother (by rw [hstage]; rfl)
    exact ⟨hframe.holds hfile htemporary h.1, h.2⟩
  · next hstage =>
    obtain ⟨hfile, htemporary⟩ := hother (by rw [hstage]; rfl)
    exact ⟨hframe.holds hfile htemporary h.1, h.2.1, hframe.imported _ h.2.2⟩
  · next hstage =>
    obtain ⟨hfile, htemporary⟩ := hother (by rw [hstage]; rfl)
    exact ⟨hframe.holds hfile htemporary h.1, h.2.1, hframe.imported _ h.2.2⟩
  · next hstage =>
    obtain ⟨hfile, htemporary⟩ := hother (by rw [hstage]; rfl)
    exact ⟨hframe.holds hfile htemporary h.1, h.2.1, hframe.imported _ h.2.2⟩
  · next hstage =>
    obtain ⟨hfile, htemporary⟩ := hother (by rw [hstage]; rfl)
    obtain ⟨n, hn⟩ := h
    exact ⟨n, hframe.holds hfile htemporary hn⟩
  · exact ⟨h.1, hframe.imported _ h.2.1, hframe.blobs _ hkey h.2.2⟩
  · exact ⟨h.1, hframe.imported _ h.2.1, hframe.blobs _ hkey h.2.2⟩
  · exact ⟨h.1, hframe.imported _ h.2.1, hframe.blobs _ hkey h.2.2⟩
  · exact ⟨h.1, hframe.imported _ h.2.1, hframe.kept _ hkey h.2.2⟩
  · exact ⟨h.1, hframe.imported _ h.2.1, hframe.kept _ hkey h.2.2.1, h.2.2.2⟩
  · exact hframe.backed h
  · exact h

omit [TextTables] in
/-- What an object's entry leads to stays. -/
theorem Frame.objectEntry (hframe : Frame s s' temporary file) {key : ByteText} {entry : Option ℕ}
    (h : ObjectEntry digest s key entry) : ObjectEntry digest s' key entry := by
  intro i hi
  obtain ⟨content, hcontent, hsum, hinode⟩ := h i hi
  exact ⟨content, hframe.imported _ hcontent, hsum, hframe.inodes _ _ hinode (Or.inr rfl)⟩

/-! ## What each call on the directory leaves alone -/

omit [TextTables] in
/-- A step that touches no temporary file leaves what is said of every import. -/
theorem importSafe_anywhere (hframe : ∀ temporary file, Frame s s' temporary file) {i : Import}
    (h : ImportSafe digest s i) : ImportSafe digest s' i := by
  apply (hframe (.char '.' :: i.temporary) (i.file + 1)).importSafe _ h
  intro _
  exact ⟨by omega, fun heq => List.cons_ne_self _ _ heq.symm⟩

omit [TextTables] in
theorem ImportSafe.same {i : Import} (h : ImportSafe digest s i) (hdisk : s'.disk = s.disk)
    (himported : s'.imported = s.imported) : ImportSafe digest s' i :=
  importSafe_anywhere (fun _ _ => Frame.same hdisk fun _ hc => himported ▸ hc) h

omit [TextTables] in
theorem lookup_setEntry {d : Volume ByteText UInt8} {n m : ByteText} {entry : Option ℕ} :
    (d.setEntry n entry).names.lookup m = if m = n then entry else d.names.lookup m :=
  Volume.lookup_putEntry d.names n m entry

omit [TextTables] in
/-- The name of a temporary file gets another entry. -/
theorem Frame.setTemporary {suffix : ByteText} {entry : Option ℕ} {inodes : List (Inode UInt8)}
    (hdisk : s'.disk = { s.disk.setEntry (temporaryName suffix) entry with inodes := inodes })
    (himported : s'.imported = s.imported)
    (hinodes : ∀ k n, s.disk.inodes[k]? = some n → k ≠ file ∨ n.synced = true → inodes[k]? = some n) :
    Frame s s' (temporaryName suffix) file where
  imported := by simp [himported]
  inodes k n hn hk := by
    rw [hdisk]
    exact hinodes k n hn hk
  temporaries other hother := by
    rw [hdisk]
    exact lookup_setEntry.trans (if_neg hother)
  blobs key hkey h := by
    rw [hdisk]
    rwa [show ({ s.disk.setEntry (temporaryName suffix) entry with inodes := inodes } :
      Volume ByteText UInt8).names.lookup (blobName key) = _ from
        lookup_setEntry.trans (if_neg (blobName_ne_temporaryName hkey))]
  kept key hkey h e he := by
    rw [hdisk] at he
    -- a possible entry does not depend on what the files hold
    change (s.disk.setEntry (temporaryName suffix) entry).Possible (blobName key) e at he
    rw [Volume.possible_setEntry] at he
    exact h e (he.resolve_right fun hname => blobName_ne_temporaryName hkey hname.1)

omit [TextTables] in
/-- A file is written or synchronized. -/
theorem Frame.setInodes {inodes : List (Inode UInt8)} (hdisk : s'.disk = { s.disk with inodes := inodes })
    (himported : s'.imported = s.imported)
    (hinodes : ∀ k n, s.disk.inodes[k]? = some n → k ≠ file ∨ n.synced = true → inodes[k]? = some n) :
    Frame s s' temporary file where
  imported := by simp [himported]
  inodes k n hn hk := by
    rw [hdisk]
    exact hinodes k n hn hk
  temporaries other _ := by rw [hdisk]
  blobs key _ h := by
    rw [hdisk]
    exact h
  kept key _ h e he := by
    rw [hdisk] at he
    exact h e he

omit [TextTables] in
/-- A temporary file becomes an object. -/
theorem Frame.publish {suffix key : ByteText}
    (hdisk : s'.disk = s.disk.rename (temporaryName suffix) (blobName key))
    (himported : s'.imported = s.imported) (hkey : isCacheKey key = true)
    (hentry : s.disk.names.lookup (temporaryName suffix) ≠ none) :
    Frame s s' (temporaryName suffix) file where
  imported := by simp [himported]
  inodes k n hn _ := by
    rw [hdisk]
    exact hn
  temporaries other hother := by
    rw [hdisk, Volume.rename, lookup_setEntry, if_neg (blobName_ne_temporaryName hkey).symm,
      lookup_setEntry, if_neg hother]
  blobs key' hkey' h := by
    rw [hdisk, Volume.rename, lookup_setEntry]
    split
    · exact hentry
    · rwa [lookup_setEntry, if_neg (blobName_ne_temporaryName hkey')]
  kept key' hkey' h e he := by
    rw [hdisk, Volume.possible_rename] at he
    rcases he with (he | ⟨hname, -⟩) | ⟨-, rfl⟩
    · exact h e he
    · exact absurd hname (blobName_ne_temporaryName hkey')
    · exact hentry

omit [TextTables] in
theorem Frame.syncDirectory (hdisk : s'.disk = s.disk.syncDirectory) (himported : s'.imported = s.imported)
    (hcurrent : s.disk.Current) : Frame s s' temporary file where
  imported := by simp [himported]
  inodes k n hn _ := by
    rw [hdisk]
    exact hn
  temporaries other _ := by
    rw [hdisk]
    rfl
  blobs key _ h := by
    rw [hdisk]
    exact h
  kept key _ h e he := by
    rw [hdisk, Volume.possible_syncDirectory] at he
    exact h e (he ▸ hcurrent (blobName key))

/-! ## Steps of one import -/

omit [TextTables] in
/-- The step lemma of the imports: the record of one changes, and with it perhaps the directory. -/
theorem StoreInvariant.changeImport (h : StoreInvariant digest s) {id : ℕ} {i' : Import}
    (himports : s'.imports = s.imports.insert id i') (hrows : s'.rows = s.rows)
    (hreaders : s'.readers = s.readers) (hcurrent : s'.disk.Current)
    (hframe : Frame s s' temporary file)
    (hobjects : ∀ key, isCacheKey key = true → ∀ entry, s'.disk.Possible (blobName key) entry →
      s.disk.Possible (blobName key) entry ∨ ObjectEntry digest s' key entry)
    (hsafe : ImportSafe digest s' i')
    (hothers : ∀ id₂ i₂, id₂ ≠ id → s.imports.lookup id₂ = some i₂ → ImportSafe digest s' i₂)
    (hdistinct : i'.stage.holds = true → ∀ id₂ i₂, id₂ ≠ id → s.imports.lookup id₂ = some i₂ →
      i₂.stage.holds = true → i₂.file ≠ i'.file) : StoreInvariant digest s' where
  current := hcurrent
  objects key hkey entry hentry := by
    rcases hobjects key hkey entry hentry with hbefore | hnew
    · exact hframe.objectEntry (h.objects key hkey entry hbefore)
    · exact hnew
  imports id₂ i₂ hi₂ := by
    rw [himports, Table.lookup_insert] at hi₂
    by_cases hid : id₂ = id
    · rw [if_pos hid] at hi₂
      exact Option.some.inj hi₂ ▸ hsafe
    · rw [if_neg hid] at hi₂
      exact hothers id₂ i₂ hid hi₂
  distinct id₁ id₂ i₁ i₂ hne hi₁ hi₂ hholds₁ hholds₂ := by
    rw [himports, Table.lookup_insert] at hi₁ hi₂
    by_cases hid₁ : id₁ = id
    · rw [if_pos hid₁] at hi₁
      obtain rfl := Option.some.inj hi₁
      have hid₂ : id₂ ≠ id := fun heq => hne (hid₁.trans heq.symm)
      rw [if_neg hid₂] at hi₂
      exact (hdistinct hholds₁ id₂ i₂ hid₂ hi₂ hholds₂).symm
    · rw [if_neg hid₁] at hi₁
      by_cases hid₂ : id₂ = id
      · rw [if_pos hid₂] at hi₂
        obtain rfl := Option.some.inj hi₂
        exact hdistinct hholds₂ id₁ i₁ hid₁ hi₁ hholds₁
      · rw [if_neg hid₂] at hi₂
        exact h.distinct id₁ id₂ i₁ i₂ hne hi₁ hi₂ hholds₁ hholds₂
  rows id₂ media hmedia hprovider := by
    rw [hrows] at hmedia
    exact hframe.backed (h.rows id₂ media hmedia hprovider)
  readers k r hr := by
    rw [hreaders] at hr
    obtain ⟨⟨content, hcontent, hsum, hinode⟩, content', hcontent', hsum', hsize⟩ := h.readers k r hr
    exact ⟨⟨content, hframe.imported _ hcontent, hsum, hframe.inodes _ _ hinode (Or.inr rfl)⟩,
      content', hframe.imported _ hcontent', hsum', hsize⟩

omit [TextTables] in
/-- An import goes on without touching the directory. -/
theorem StoreInvariant.changeStage (h : StoreInvariant digest s) {id : ℕ} {i i' : Import}
    (hi : s.imports.lookup id = some i) (himports : s'.imports = s.imports.insert id i')
    (hrows : s'.rows = s.rows) (hreaders : s'.readers = s.readers) (hdisk : s'.disk = s.disk)
    (himported : ∀ content ∈ s.imported, content ∈ s'.imported)
    (hholds : i'.stage.holds = true → i.stage.holds = true ∧ i'.file = i.file)
    (hsafe : ImportSafe digest s' i') : StoreInvariant digest s' := by
  have hframe : Frame s s' [] 0 := Frame.same hdisk himported
  refine h.changeImport himports hrows hreaders (hdisk ▸ h.current) hframe ?_ hsafe ?_ ?_
  · intro key _ entry hentry
    exact Or.inl (hdisk ▸ hentry)
  · intro id₂ i₂ _ hi₂
    exact importSafe_anywhere (fun _ _ => Frame.same hdisk himported) (h.imports id₂ i₂ hi₂)
  · intro hholds' id₂ i₂ hid hi₂ hholds₂
    obtain ⟨hbefore, hfile⟩ := hholds hholds'
    rw [hfile]
    exact h.distinct id₂ id i₂ i hid hi₂ hi hholds₂ hbefore

omit [TextTables] in
theorem ImportSafe.holds {i : Import} (h : ImportSafe digest s i) (hholds : i.stage.holds = true) :
    ∃ n, Holds s i n := by
  cases hstage : i.stage <;> simp only [ImportSafe, hstage] at h <;> rw [hstage] at hholds
  case copy => exact ⟨_, h.1⟩
  case sync => exact ⟨_, h.1⟩
  case closeTemporary => exact ⟨_, h.1⟩
  case rename => exact ⟨_, h.1⟩
  case removeTemporary => exact h
  all_goals cases hholds

omit [TextTables] in
/-- What an import holds, no other import holds. -/
theorem StoreInvariant.apart (h : StoreInvariant digest s) {id id₂ : ℕ} {i i₂ : Import} {n : Inode UInt8}
    (hi : s.imports.lookup id = some i) (hholds : i.stage.holds = true) (hn : Holds s i n)
    (hne : id₂ ≠ id) (hi₂ : s.imports.lookup id₂ = some i₂) (hholds₂ : i₂.stage.holds = true) :
    i₂.file ≠ i.file ∧ i₂.temporary ≠ i.temporary := by
  have hfile := h.distinct id₂ id i₂ i hne hi₂ hi hholds₂ hholds
  refine ⟨hfile, fun htemporary => hfile ?_⟩
  obtain ⟨n₂, hn₂⟩ := (h.imports id₂ i₂ hi₂).holds hholds₂
  have hentry := hn₂.entry
  rw [htemporary, hn.entry] at hentry
  exact (Option.some.inj hentry).symm

omit [TextTables] in
/-- An import changes what it holds. -/
theorem StoreInvariant.changeHeld (h : StoreInvariant digest s) {id : ℕ} {i i' : Import}
    {n : Inode UInt8} (hi : s.imports.lookup id = some i) (hholds : i.stage.holds = true)
    (hn : Holds s i n) (himports : s'.imports = s.imports.insert id i') (hrows : s'.rows = s.rows)
    (hreaders : s'.readers = s.readers) (hcurrent : s'.disk.Current)
    (hframe : Frame s s' i.temporary i.file)
    (hobjects : ∀ key, isCacheKey key = true → ∀ entry, s'.disk.Possible (blobName key) entry →
      s.disk.Possible (blobName key) entry ∨ ObjectEntry digest s' key entry)
    (hsafe : ImportSafe digest s' i') (hfile : i'.file = i.file) : StoreInvariant digest s' := by
  refine h.changeImport himports hrows hreaders hcurrent hframe hobjects hsafe ?_ ?_
  · intro id₂ i₂ hid hi₂
    exact hframe.importSafe (fun hholds₂ => h.apart hi hholds hn hid hi₂ hholds₂) (h.imports id₂ i₂ hi₂)
  · intro _ id₂ i₂ hid hi₂ hholds₂
    rw [hfile]
    exact (h.apart hi hholds hn hid hi₂ hholds₂).1

end Store

end BlackPearl.Cache
