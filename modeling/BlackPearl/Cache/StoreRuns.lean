import BlackPearl.Cache.StoreSafety

/-!
# Runs of the store

Every step keeps the invariant of the store, so that it holds after every run. An item of the catalog
with a backing in the store can be opened and is served its imported bytes, also after power losses
(`store_serves`).
-/

set_option autoImplicit false

namespace BlackPearl.Cache

open BlackPearl.Library BlackPearl.Setup

section Store

variable [TextTables] {digest : ContentDigest} {s s' : StoreState}

/-! ## Steps of one import -/

theorem pocMedia_eq_ok {backing : BackingRef} {size : Int64} {media : Media}
    (h : pocMedia backing size = .ok media) : media.backing = backing ∧ media.size = size := by
  rw [pocMedia, within_eq_ok, newMovie_eq_ok] at h
  obtain ⟨-, -, -, -, rfl⟩ := h
  exact ⟨rfl, rfl⟩

omit [TextTables] in
/-- A file that is not synchronized is written. -/
theorem append_keeps {d : Volume ByteText UInt8} {file k : ℕ} {bytes content : List UInt8} {n : Inode UInt8}
    (hfile : d.inodes[file]? = some ⟨content, false⟩) (hn : d.inodes[k]? = some n)
    (hk : k ≠ file ∨ n.synced = true) : (d.append file bytes).inodes[k]? = some n := by
  rw [Volume.inode_append, hn, Option.map_some, if_neg]
  rintro rfl
  rw [hfile] at hn
  obtain rfl := Option.some.inj hn
  simp at hk

omit [TextTables] in
/-- Synchronizing a file changes no file that is synchronized. -/
theorem sync_keeps {d : Volume ByteText UInt8} {file k : ℕ} {n : Inode UInt8} (hn : d.inodes[k]? = some n)
    (hk : k ≠ file ∨ n.synced = true) : (d.sync file).inodes[k]? = some n := by
  rw [Volume.inode_sync, hn, Option.map_some]
  split
  · next heq =>
    rw [← hk.resolve_left (not_not.mpr heq.symm)]
  · rfl

omit [TextTables] in
/-- The temporary file is synchronized. -/
theorem StoreInvariant.syncTemporary (h : StoreInvariant digest s) {id : ℕ} {i : Import}
    (hi : s.imports.lookup id = some i) (hstage : i.stage = .sync) :
    StoreInvariant digest
      { s.setImport id { i with stage := .closeTemporary } with disk := s.disk.sync i.file } := by
  have hsafe := h.imports id i hi
  simp only [ImportSafe, hstage] at hsafe
  obtain ⟨hn, hlength, himported⟩ := hsafe
  refine h.changeHeld hi (by rw [hstage]; rfl) hn rfl rfl rfl h.current
    (Frame.setInodes rfl rfl fun k n hk hother => sync_keeps hk hother)
    (fun key _ entry hentry => Or.inl hentry) ?_ rfl
  refine ⟨⟨hn.named, hn.entry, ?_⟩, hlength, himported⟩
  show (s.disk.sync i.file).inodes[i.file]? = _
  rw [Volume.inode_sync, hn.inode, Option.map_some, if_pos rfl]

omit [TextTables] in
/-- The temporary file takes the place of its object. -/
theorem StoreInvariant.publish (h : StoreInvariant digest s) {id : ℕ} {i : Import}
    (hi : s.imports.lookup id = some i) (hstage : i.stage = .rename) :
    StoreInvariant digest { s.setImport id { i with stage := .chmod } with
      disk := s.disk.rename i.temporary (blobName (digest.sum i.copied)) } := by
  have hkey := digest.hex i.copied
  have hsafe := h.imports id i hi
  simp only [ImportSafe, hstage] at hsafe
  obtain ⟨hn, hlength, himported⟩ := hsafe
  obtain ⟨suffix, hsuffix⟩ := hn.named
  have hentry : s.disk.names.lookup i.temporary ≠ none := by simp [hn.entry]
  have hframe : Frame s { s.setImport id { i with stage := .chmod } with
      disk := s.disk.rename i.temporary (blobName (digest.sum i.copied)) } i.temporary i.file := by
    rw [hsuffix] at hentry ⊢
    exact Frame.publish rfl rfl hkey hentry
  refine h.changeHeld hi (by rw [hstage]; rfl) hn rfl rfl rfl
    ((h.current.setEntry _ _).setEntry _ _) hframe ?_ ⟨hlength, himported, ?_⟩ rfl
  · intro key hkey' entry hpossible
    rcases Volume.possible_rename.1 hpossible with (hbefore | ⟨hname, -⟩) | ⟨hname, rfl⟩
    · exact Or.inl hbefore
    · exact absurd (hname.trans hsuffix) (blobName_ne_temporaryName hkey')
    · -- the entry of this object is now the file with the content that was hashed
      refine Or.inr fun k hk => ?_
      rw [hn.entry] at hk
      obtain rfl := Option.some.inj hk
      exact ⟨i.copied, himported, (blobName_injective hname).symm, hn.inode⟩
  · show (s.disk.rename _ _).names.lookup _ ≠ none
    rw [Volume.rename, lookup_setEntry, if_pos rfl]
    exact hentry

omit [TextTables] in
/-- The directory is synchronized: what has its place in it keeps it. -/
theorem StoreInvariant.syncDirectory (h : StoreInvariant digest s) {id : ℕ} {i : Import}
    (hi : s.imports.lookup id = some i) (hstage : i.stage = .syncDirectory) :
    StoreInvariant digest
      { s.setImport id { i with stage := .closeDirectory } with disk := s.disk.syncDirectory } := by
  have hsafe := h.imports id i hi
  simp only [ImportSafe, hstage] at hsafe
  obtain ⟨hlength, himported, hplaced⟩ := hsafe
  have hframe : ∀ temporary file, Frame s { s.setImport id { i with stage := .closeDirectory } with
      disk := s.disk.syncDirectory } temporary file :=
    fun _ _ => Frame.syncDirectory rfl rfl h.current
  refine h.changeImport rfl rfl rfl (Volume.current_synced fun _ => rfl) (hframe [] 0) ?_
    ⟨hlength, himported, ?_⟩ (fun id₂ i₂ _ hi₂ => importSafe_anywhere hframe (h.imports id₂ i₂ hi₂)) ?_
  · intro key _ entry hpossible
    rw [Volume.possible_syncDirectory.1 hpossible]
    exact Or.inl (h.current _)
  · intro entry hpossible
    rw [Volume.possible_syncDirectory.1 hpossible]
    exact hplaced
  · intro hholds
    cases hholds

/-- The next call of an import succeeds. -/
theorem StoreInvariant.proceed (h : StoreInvariant digest s) {id : ℕ} {i : Import}
    (hi : s.imports.lookup id = some i) (hstep : s.proceed digest id i = some s') :
    StoreInvariant digest s' := by
  have hsafe := h.imports id i hi
  cases hstage : i.stage <;> simp only [StoreState.proceed, hstage] at hstep <;>
    simp only [ImportSafe, hstage] at hsafe
  case copy =>
    obtain rfl := Option.some.inj hstep
    obtain ⟨hn, hlength⟩ := hsafe
    refine h.changeStage hi rfl rfl rfl rfl (fun c hc => List.mem_cons_of_mem _ hc)
      (fun _ => ⟨by rw [hstage]; rfl, rfl⟩) ?_
    exact ⟨⟨hn.named, hn.entry, hn.inode⟩, hlength, List.mem_cons_self⟩
  case sync =>
    obtain rfl := Option.some.inj hstep
    exact h.syncTemporary hi hstage
  case closeTemporary =>
    obtain rfl := Option.some.inj hstep
    obtain ⟨hn, hlength, himported⟩ := hsafe
    refine h.changeStage hi rfl rfl rfl rfl (fun _ hc => hc) (fun _ => ⟨by rw [hstage]; rfl, rfl⟩) ?_
    exact ⟨⟨hn.named, hn.entry, hn.inode⟩, hlength, himported⟩
  case rename =>
    obtain rfl := Option.some.inj hstep
    exact h.publish hi hstage
  case chmod =>
    obtain rfl := Option.some.inj hstep
    exact h.changeStage hi rfl rfl rfl rfl (fun _ hc => hc) (fun hholds => by cases hholds) hsafe
  case openDirectory =>
    obtain rfl := Option.some.inj hstep
    exact h.changeStage hi rfl rfl rfl rfl (fun _ hc => hc) (fun hholds => by cases hholds) hsafe
  case syncDirectory =>
    obtain rfl := Option.some.inj hstep
    exact h.syncDirectory hi hstage
  case closeDirectory =>
    obtain ⟨hlength, himported, hkept⟩ := hsafe
    cases hbacking : newBackingRef backingProvider (digest.sum i.copied) with
    | ok backing =>
      rw [hbacking] at hstep
      obtain rfl := Option.some.inj hstep
      have hsame := (newBackingRef_eq_ok.1 hbacking).2.2.2
      exact h.changeStage hi rfl rfl rfl rfl (fun _ hc => hc) (fun hholds => by cases hholds)
        ⟨hlength, himported, hkept, hsame⟩
    | error err =>
      rw [hbacking] at hstep
      obtain rfl := Option.some.inj hstep
      exact h.changeStage hi rfl rfl rfl rfl (fun _ hc => hc) (fun hholds => by cases hholds) trivial
  case closeSource backing =>
    obtain ⟨hlength, himported, hkept, rfl⟩ := hsafe
    cases hmedia : pocMedia ⟨backingProvider, digest.sum i.copied⟩ (Int64.ofNat i.copied.length) with
    | ok media =>
      rw [hmedia] at hstep
      obtain rfl := Option.some.inj hstep
      obtain ⟨hbacking, hsize⟩ := pocMedia_eq_ok hmedia
      refine h.changeStage hi rfl rfl rfl rfl (fun _ hc => hc) (fun hholds => by cases hholds) ?_
      show Backed digest _ media.backing media.size
      rw [hbacking, hsize]
      exact ⟨i.copied, himported, rfl, Int64.toInt_ofNat_of_lt hlength, hkept⟩
    | error err =>
      rw [hmedia] at hstep
      obtain rfl := Option.some.inj hstep
      exact h.changeStage hi rfl rfl rfl rfl (fun _ hc => hc) (fun hholds => by cases hholds) trivial
  all_goals cases hstep

omit [TextTables] in
/-- Bytes at the end of the temporary file, before it is synchronized. -/
theorem StoreInvariant.append (h : StoreInvariant digest s) {id : ℕ} {i i' : Import}
    {bytes : List UInt8} (hi : s.imports.lookup id = some i) (hstage : i.stage = .copy)
    (htemporary : i'.temporary = i.temporary) (hfile : i'.file = i.file)
    (hsafe : ∀ s', Holds s' i' ⟨i.copied ++ bytes, false⟩ → ImportSafe digest s' i') :
    StoreInvariant digest { s.setImport id i' with disk := s.disk.append i.file bytes } := by
  have hbefore := h.imports id i hi
  simp only [ImportSafe, hstage] at hbefore
  obtain ⟨hn, -⟩ := hbefore
  refine h.changeHeld hi (by rw [hstage]; rfl) hn rfl rfl rfl h.current
    (Frame.setInodes rfl rfl fun k n hk hother => append_keeps hn.inode hk hother)
    (fun key _ entry hentry => Or.inl hentry) ?_ hfile
  apply hsafe
  refine ⟨htemporary ▸ hn.named, ?_, ?_⟩
  · rw [htemporary, hfile]
    exact hn.entry
  · show (s.disk.append i.file bytes).inodes[i'.file]? = _
    rw [hfile, Volume.inode_append, hn.inode, Option.map_some, if_pos rfl]

omit [TextTables] in
/-- The next call of an import fails. -/
theorem StoreInvariant.fail (h : StoreInvariant digest s) {id : ℕ} {i : Import} {cut : List UInt8}
    (hi : s.imports.lookup id = some i) (hstep : s.fail id i cut = some s') :
    StoreInvariant digest s' := by
  have hsafe := h.imports id i hi
  have hdropped : ∀ stage, stage.holds = false → (∀ t j, j.stage = stage → ImportSafe digest t j) →
      StoreInvariant digest (s.setImport id { i with stage := stage }) := by
    intro stage hholds hany
    refine h.changeStage hi rfl rfl rfl rfl (fun _ hc => hc) (fun hholds' => ?_) (hany _ _ rfl)
    rw [show ({ i with stage := stage } : Import).stage = stage from rfl, hholds] at hholds'
    cases hholds'
  have hended : ∀ err, StoreInvariant digest (s.setImport id { i with stage := importFailed err }) := by
    intro err
    apply hdropped _ rfl
    intro t j hj
    simp only [ImportSafe, hj, importFailed]
  have hremoving : ∀ err, i.stage.holds = true →
      StoreInvariant digest (s.setImport id { i with stage := .removeTemporary err }) := by
    intro err hholds
    obtain ⟨n, hn⟩ := hsafe.holds hholds
    exact h.changeStage hi rfl rfl rfl rfl (fun _ hc => hc) (fun _ => ⟨hholds, rfl⟩)
      ⟨n, hn.named, hn.entry, hn.inode⟩
  cases hstage : i.stage <;> simp only [StoreState.fail, hstage] at hstep
  case copy =>
    obtain rfl := Option.some.inj hstep
    exact h.append hi hstage rfl rfl fun t ht => ⟨_, ht⟩
  case sync | closeTemporary | rename =>
    obtain rfl := Option.some.inj hstep
    exact hremoving _ (by rw [hstage]; rfl)
  case createTemp | chmod | openDirectory | syncDirectory | closeDirectory | closeSource =>
    obtain rfl := Option.some.inj hstep
    exact hended _
  all_goals cases hstep

omit [TextTables] in
/-- A temporary file is created under a name that is free. -/
theorem StoreInvariant.createTemp (h : StoreInvariant digest s) {id : ℕ} {i : Import}
    {suffix : ByteText} (hi : s.imports.lookup id = some i) (hstage : i.stage = .createTemp)
    (hfree : s.disk.names.lookup (temporaryName suffix) = none) :
    StoreInvariant digest { s.setImport id { i with
        stage := .copy, temporary := temporaryName suffix, file := s.disk.inodes.length } with
      disk := s.disk.create (temporaryName suffix) } := by
  have hsafe := h.imports id i hi
  simp only [ImportSafe, hstage] at hsafe
  have hexists : ∀ id₂ i₂, s.imports.lookup id₂ = some i₂ → i₂.stage.holds = true →
      i₂.file ≠ s.disk.inodes.length ∧ i₂.temporary ≠ temporaryName suffix := by
    intro id₂ i₂ hi₂ hholds₂
    obtain ⟨n₂, hn₂⟩ := (h.imports id₂ i₂ hi₂).holds hholds₂
    have hlt := (List.getElem?_eq_some_iff.1 hn₂.inode).1
    refine ⟨by omega, fun heq => ?_⟩
    have hentry := hn₂.entry
    rw [heq, hfree] at hentry
    cases hentry
  have hframe : Frame s { s.setImport id { i with
        stage := .copy, temporary := temporaryName suffix, file := s.disk.inodes.length } with
      disk := s.disk.create (temporaryName suffix) } (temporaryName suffix) s.disk.inodes.length := by
    have hdisk : s.disk.create (temporaryName suffix) =
        { s.disk.setEntry (temporaryName suffix) (some s.disk.inodes.length) with
          inodes := s.disk.inodes ++ [⟨[], false⟩] } := rfl
    refine Frame.setTemporary hdisk rfl ?_
    intro k n hk _
    rw [List.getElem?_append_left (List.getElem?_eq_some_iff.1 hk).1, hk]
  refine h.changeImport rfl rfl rfl (h.current.setEntry _ _) hframe ?_ ⟨⟨⟨suffix, rfl⟩, ?_, ?_⟩, ?_⟩ ?_ ?_
  · intro key hkey entry hpossible
    exact Or.inl ((Volume.possible_create.1 hpossible).resolve_right
      fun hname => blobName_ne_temporaryName hkey hname.1)
  · exact lookup_setEntry.trans (if_pos rfl)
  · show (s.disk.inodes ++ [_])[s.disk.inodes.length]? = _
    rw [List.getElem?_concat_length, hsafe]
  · show i.copied.length < 2 ^ 63
    rw [hsafe]
    decide
  · intro id₂ i₂ _ hi₂
    exact hframe.importSafe (hexists id₂ i₂ hi₂) (h.imports id₂ i₂ hi₂)
  · intro _ id₂ i₂ _ hi₂ hholds₂
    exact (hexists id₂ i₂ hi₂ hholds₂).1

omit [TextTables] in
/-- The temporary file of an import that has failed is removed. -/
theorem StoreInvariant.removeTemporary (h : StoreInvariant digest s) {id : ℕ} {i : Import} {err : String}
    (hi : s.imports.lookup id = some i) (hstage : i.stage = .removeTemporary err) :
    StoreInvariant digest { s.setImport id { i with stage := importFailed err } with
      disk := s.disk.remove i.temporary } := by
  have hsafe := h.imports id i hi
  simp only [ImportSafe, hstage] at hsafe
  obtain ⟨n, hn⟩ := hsafe
  obtain ⟨suffix, hsuffix⟩ := hn.named
  have hframe : Frame s { s.setImport id { i with stage := importFailed err } with
      disk := s.disk.remove i.temporary } i.temporary i.file := by
    have hdisk : s.disk.remove (temporaryName suffix) =
        { s.disk.setEntry (temporaryName suffix) none with inodes := s.disk.inodes } := rfl
    rw [hsuffix]
    exact Frame.setTemporary hdisk rfl fun k n hk _ => hk
  refine h.changeHeld hi (by rw [hstage]; rfl) hn rfl rfl rfl (h.current.setEntry _ _) hframe ?_
    trivial rfl
  intro key hkey entry hpossible
  exact Or.inl ((Volume.possible_setEntry.1 hpossible).resolve_right
    fun hname => blobName_ne_temporaryName hkey (hname.1.trans hsuffix))

/-! ## Rows and readers -/

omit [TextTables] in
/-- What is in the rows after a medium may have been stored. -/
theorem lookup_persist {rows : Table ByteText Media} {media : Media} {answer : UpsertAnswer}
    {id : ByteText} {m : Media} (h : (persist rows media answer).1.lookup id = some m) :
    rows.lookup id = some m ∨ m = media := by
  have hstored : ∀ rows', upsertRow rows media = .ok rows' → rows'.lookup id = some m →
      rows.lookup id = some m ∨ m = media := by
    intro rows' hrows' hm
    simp only [upsertRow, bind_eq_ok, pure_eq_ok] at hrows'
    obtain ⟨-, -, -, -, rfl⟩ := hrows'
    rw [Table.lookup_insert] at hm
    split at hm
    · exact Or.inr (Option.some.inj hm).symm
    · exact Or.inl hm
  unfold persist at h
  split at h
  · exact Or.inl h
  · next hrows' => exact hstored _ (within_eq_ok.1 hrows') h
  · next stored hrows' =>
    dsimp only at h
    split at h
    · exact hstored _ (within_eq_ok.1 hrows') h
    · exact Or.inl h

omit [TextTables] in
/-- A medium with another provider, or one that is backed, is stored. -/
theorem StoreInvariant.persisted (h : StoreInvariant digest s) {media : Media} {answer : UpsertAnswer}
    (hmedia : media.backing.provider = backingProvider → Backed digest s media.backing media.size) :
    StoreInvariant digest { s with rows := (persist s.rows media answer).1 } where
  current := h.current
  objects := h.objects
  imports id i hi := (h.imports id i hi).same rfl rfl
  distinct := h.distinct
  rows id m hm hprovider := by
    rcases lookup_persist hm with hbefore | rfl
    · exact h.rows id m hbefore hprovider
    · exact hmedia hprovider
  readers := h.readers

/-- `RegisterPOC` stores media of other providers only. -/
theorem StoreInvariant.registerPOC (h : StoreInvariant digest s) (provider : RangeProvider)
    (objectID : ByteText) (size : Int64) (answer : UpsertAnswer) :
    StoreInvariant digest
      { s with rows := (registerPOC s.rows ⟨provider.name, objectID⟩ size answer).1 } := by
  unfold Cache.registerPOC
  dsimp only
  split
  · next media hmedia =>
    simp only [bind_eq_ok] at hmedia
    obtain ⟨-, -, backing, hbacking, hmedia⟩ := hmedia
    rw [within_eq_ok] at hbacking
    obtain rfl := (newBackingRef_eq_ok.1 hbacking).2.2.2
    apply h.persisted
    rw [(pocMedia_eq_ok hmedia).1]
    have hother : ∀ p : RangeProvider, p.name ≠ backingProvider := by
      intro p
      cases p <;> decide
    exact fun hprovider => absurd hprovider (hother provider)
  · exact h

/-- What `Open` opens. -/
theorem openObject_eq_ok {disk : Volume ByteText UInt8} {cancelled : Bool} {media : Media} {r : FileReader}
    (h : openStored disk cancelled media = .ok r) : media.backing.provider = backingProvider ∧
      isCacheKey media.backing.objectID = true ∧ r.name = media.backing.objectID ∧
      r.logicalSize = media.size ∧ disk.names.lookup (blobName media.backing.objectID) = some r.file := by
  simp only [openStored, bind_eq_ok, require_eq_ok] at h
  obtain ⟨-, -, -, hprovider, -, hkey, h⟩ := h
  split at h
  · next file hfile =>
    obtain rfl := Except.ok.inj h
    exact ⟨hprovider, hkey, rfl, rfl, hfile⟩
  · cases h

/-- A path leads to a row. -/
theorem getByVirtualPath_eq_ok {rows : Table ByteText Media} {virtualPath : ByteText} {media : Media}
    (h : getByVirtualPath rows virtualPath = .ok media) : ∃ id, rows.lookup id = some media := by
  unfold getByVirtualPath at h
  split at h
  · next e he =>
    obtain rfl := Except.ok.inj h
    exact ⟨e.1, (Table.lookup_eq_some_iff_mem _ _ _).2 (List.mem_of_find?_eq_some he)⟩
  · cases h

/-- A medium is opened. -/
theorem StoreInvariant.openMedia (h : StoreInvariant digest s) {k : ℕ} {cancelled : Bool}
    {virtualPath : ByteText} {r : FileReader} (hr : s.openMedia cancelled virtualPath = .ok r) :
    StoreInvariant digest { s with readers := s.readers.insert k r } where
  current := h.current
  objects := h.objects
  imports id i hi := (h.imports id i hi).same rfl rfl
  distinct := h.distinct
  rows := h.rows
  readers k' r' hr' := by
    rw [Table.lookup_insert] at hr'
    split at hr'
    · obtain rfl := Option.some.inj hr'
      simp only [StoreState.openMedia, bind_eq_ok, pure_eq_ok, within_eq_ok] at hr
      obtain ⟨media, hmedia, _, hopened, -, -, rfl⟩ := hr
      obtain ⟨hprovider, hkey, hname, hsize, hentry⟩ := openObject_eq_ok hopened
      obtain ⟨id, hrow⟩ := getByVirtualPath_eq_ok hmedia
      obtain ⟨content, hcontent, hsum, hlength, -⟩ := h.rows id media hrow hprovider
      refine ⟨?_, content, hcontent, hsum.trans hname.symm, hsize ▸ hlength⟩
      obtain ⟨stored, hstored, hdigest, hinode⟩ := h.objects _ hkey _ (h.current _) _ hentry
      exact ⟨stored, hstored, hdigest.trans hname.symm, hinode⟩
    · exact h.readers k' r' hr'

/-! ## Runs -/

/-- Every step keeps the invariant. -/
theorem StoreInvariant.step (h : StoreInvariant digest s) {a : StoreCall} (hstep : s.step digest a = some s') :
    StoreInvariant digest s' := by
  cases a with
  | importPOC id =>
    simp only [StoreState.step] at hstep
    split at hstep
    · next hnone =>
      obtain rfl := Option.some.inj hstep
      have hframe : Frame s (s.setImport id {}) [] 0 := Frame.same rfl fun _ hc => hc
      refine h.changeImport rfl rfl rfl h.current hframe (fun key _ entry he => Or.inl he) rfl ?_ ?_
      · intro id₂ i₂ _ hi₂
        exact (h.imports id₂ i₂ hi₂).same rfl rfl
      · intro hholds
        cases hholds
    · cases hstep
  | createTemp id suffix =>
    simp only [StoreState.step] at hstep
    split at hstep
    · next i hi =>
      split at hstep
      · next hready =>
        obtain rfl := Option.some.inj hstep
        exact h.createTemp hi hready.1 hready.2
      · cases hstep
    · cases hstep
  | write id bytes =>
    simp only [StoreState.step] at hstep
    split at hstep
    · next i hi =>
      split at hstep
      · next hready =>
        obtain rfl := Option.some.inj hstep
        apply h.append hi hready.1
        · rfl
        · rfl
        · intro t ht
          simp only [ImportSafe, hready.1, List.length_append]
          exact ⟨⟨ht.named, ht.entry, ht.inode⟩, hready.2⟩
      · cases hstep
    · cases hstep
  | proceed id =>
    obtain ⟨i, hi, hproceed⟩ := Option.bind_eq_some_iff.1 hstep
    exact h.proceed hi hproceed
  | fail id cut =>
    obtain ⟨i, hi, hfail⟩ := Option.bind_eq_some_iff.1 hstep
    exact h.fail hi hfail
  | upsert id answer =>
    simp only [StoreState.step] at hstep
    split at hstep
    · next i hi =>
      split at hstep
      · next media hstage =>
        obtain rfl := Option.some.inj hstep
        have hsafe := h.imports id i hi
        simp only [ImportSafe, hstage] at hsafe
        have hreturned : StoreInvariant digest
            (s.setImport id { i with stage := .returned (persist s.rows media answer).2 }) :=
          h.changeStage hi rfl rfl rfl rfl (fun _ hc => hc) (fun hholds => by cases hholds) trivial
        exact hreturned.persisted fun _ => hsafe
      · cases hstep
    · cases hstep
  | removeTemporary id removed =>
    simp only [StoreState.step] at hstep
    split at hstep
    · next i hi =>
      split at hstep
      · next err hstage =>
        obtain rfl := Option.some.inj hstep
        cases removed with
        | true => exact h.removeTemporary hi hstage
        | false =>
          exact h.changeStage hi rfl rfl rfl rfl (fun _ hc => hc) (fun hholds => by cases hholds) trivial
      · cases hstep
    · cases hstep
  | registerPOC provider objectID size answer =>
    obtain rfl := Option.some.inj hstep
    exact h.registerPOC provider objectID size answer
  | openMedia k cancelled virtualPath =>
    simp only [StoreState.step] at hstep
    split at hstep
    · split at hstep
      · next r hr =>
        obtain rfl := Option.some.inj hstep
        exact h.openMedia hr
      · exact Option.some.inj hstep ▸ h
    · cases hstep
  | die =>
    obtain rfl := Option.some.inj hstep
    exact {
      current := h.current
      objects := h.objects
      imports := fun _ _ hi => by cases hi
      distinct := fun _ _ _ _ _ hi => by cases hi
      rows := h.rows
      readers := fun _ _ hr => by cases hr }
  | powerLoss chosen left =>
    obtain rfl := Option.some.inj hstep
    exact {
      current := Volume.current_synced fun _ => rfl
      objects := fun key hkey entry hentry => by
        -- what is found was possible before, and a synchronized file is as it was
        intro k hk
        obtain ⟨content, hcontent, hsum, hinode⟩ :=
          h.objects key hkey entry (Volume.possible_powerLoss hentry) k hk
        exact ⟨content, hcontent, hsum, Volume.inode_powerLoss hinode rfl⟩
      imports := fun _ _ hi => by cases hi
      distinct := fun _ _ _ _ _ hi => by cases hi
      rows := fun id media hmedia hprovider => by
        obtain ⟨content, hcontent, hsum, hsize, hkept⟩ := h.rows id media hmedia hprovider
        exact ⟨content, hcontent, hsum, hsize, fun entry hentry =>
          hkept entry (Volume.possible_powerLoss hentry)⟩
      readers := fun _ _ hr => by cases hr }

/-- The invariant holds in every reachable state. -/
theorem store_invariant (hs : (contentStore digest).Reachable s) : StoreInvariant digest s := by
  apply hs.invariant
  · rintro s rfl
    have hpossible : ∀ n entry, (({} : StoreState).disk).Possible n entry → entry = none := by
      intro n entry hentry
      exact hentry.resolve_right List.not_mem_nil
    exact {
      current := Volume.current_synced fun _ => rfl
      objects := fun key _ entry hentry k hk => by
        rw [hpossible _ _ hentry] at hk
        cases hk
      imports := fun _ _ hi => by cases hi
      distinct := fun _ _ _ _ _ hi => by cases hi
      rows := fun _ _ hmedia => by cases hmedia
      readers := fun _ _ hr => by cases hr }
  · intro s a s' h _ hstep
    exact h.step hstep

/-- A reader of `content`: it has its size, and returns its bytes. -/
def Serves (s : StoreState) (r : FileReader) (content : List UInt8) : Prop :=
  r.logicalSize.toInt = content.length ∧ ∀ wanted offset, r.readAt s.disk false wanted offset =
    if offset < 0 then ([], some (.plain "negative offset"))
    else
      let bytes := slice content offset.toInt.toNat wanted
      (bytes, if bytes.length < wanted then some .eof else none)

omit [TextTables] in
theorem serves_of_inode {r : FileReader} {content : List UInt8} (hsize : r.logicalSize.toInt = content.length)
    (hinode : s.disk.inodes[r.file]? = some ⟨content, true⟩) : Serves s r content := by
  refine ⟨hsize, fun wanted offset => ?_⟩
  simp only [FileReader.readAt, Bool.false_eq_true, if_false, hinode]

/-- Whatever imports were under way, failed or were cut off by the end of the process or a power loss, as
long as no two of the imported contents have the same digest: an item of the catalog with a backing in
the store is opened and is served the bytes that were imported under its key; so are the readers that
are open; and what has the name of an object is that object, complete and synchronized. -/
theorem store_serves (hs : (contentStore digest).Reachable s)
    (hcollide : ∀ c ∈ s.imported, ∀ c' ∈ s.imported, digest.sum c = digest.sum c' → c = c') :
    (∀ virtualPath media, getByVirtualPath s.rows virtualPath = .ok media →
      media.backing.provider = backingProvider →
        ∃ content ∈ s.imported, digest.sum content = media.backing.objectID ∧
          ∃ r, s.openMedia false virtualPath = .ok r ∧ Serves s r content) ∧
    (∀ k r, s.readers.lookup k = some r →
      ∃ content ∈ s.imported, digest.sum content = r.name ∧ Serves s r content) ∧
    ∀ key i, isCacheKey key = true → s.disk.names.lookup (blobName key) = some i →
      ∃ content ∈ s.imported, digest.sum content = key ∧ s.disk.inodes[i]? = some ⟨content, true⟩ := by
  have h := store_invariant hs
  refine ⟨?_, ?_, ?_⟩
  · intro virtualPath media hmedia hprovider
    obtain ⟨id, hrow⟩ := getByVirtualPath_eq_ok hmedia
    obtain ⟨content, hcontent, hsum, hsize, hkept⟩ := h.rows id media hrow hprovider
    have hkey : isCacheKey media.backing.objectID = true := hsum ▸ digest.hex content
    obtain ⟨i, hi⟩ := Option.ne_none_iff_exists'.1 (hkept _ (h.current _))
    obtain ⟨stored, hstored, hdigest, hinode⟩ := h.objects _ hkey _ (h.current _) i hi
    obtain rfl := hcollide _ hcontent _ hstored (hsum.trans hdigest.symm)
    refine ⟨content, hcontent, hsum, ⟨media.backing.objectID, i, media.size⟩, ?_,
      serves_of_inode hsize hinode⟩
    simp [StoreState.openMedia, openStored, hmedia, hprovider, hkey, hi, require, within, bind,
      Except.bind, pure, Except.pure]
  · intro k r hr
    obtain ⟨⟨content, hcontent, hsum, hinode⟩, content', hcontent', hsum', hsize⟩ := h.readers k r hr
    obtain rfl := hcollide _ hcontent _ hcontent' (hsum.trans hsum'.symm)
    exact ⟨content, hcontent, hsum, serves_of_inode hsize hinode⟩
  · intro key i hkey hi
    exact h.objects key hkey _ (h.current _) i hi

end Store

section Example

attribute [local instance] TextTables.ascii

/-- A digest that is right for the three bytes that are imported below, and for no bytes. -/
def threeBytes : ContentDigest where
  sum content :=
    if content = [97, 98, 99] then text "ba7816bf8f01cfea414140de5dae2223b00361a396177a9cb410ff61f20015ad"
    else text "e3b0c44298fc1c149afbf4c8996fb92427ae41e4649b934ca495991b7852b855"
  hex content := by
    split <;> decide

/-- Three bytes are imported, another import is under way, and the power is lost. -/
def interruptedImport : List StoreCall :=
  [.importPOC 0, .createTemp 0 (text "1"), .write 0 [97], .write 0 [98, 99]] ++
    List.replicate 9 (.proceed 0) ++
    [.upsert 0 .committed, .importPOC 1, .createTemp 1 (text "2"), .write 1 [100],
      .powerLoss [0] fun _ => [7]]

/-- After the power loss the three bytes are served. -/
theorem store_serves_three : ∃ s r, (contentStore threeBytes).Reachable s ∧
    s.openMedia false (text "Movies/BlackPearl POC (2026)/BlackPearl POC (2026).mp4") = .ok r ∧
      Serves s r [97, 98, 99] := by
  let path := text "Movies/BlackPearl POC (2026)/BlackPearl POC (2026).mp4"
  have hrun : (((contentStore threeBytes).run {} interruptedImport).map fun s =>
      ((getByVirtualPath s.rows path).toOption.map fun m => m.backing, s.imported)) =
        some (some ⟨backingProvider, threeBytes.sum [97, 98, 99]⟩, [[97, 98, 99]]) := by
    decide +kernel
  obtain ⟨s, hs, hstate⟩ := Option.map_eq_some_iff.1 hrun
  rw [Prod.mk.injEq] at hstate
  obtain ⟨hmedia, himported⟩ := hstate
  obtain ⟨media, hmedia, hbacking⟩ := Option.map_eq_some_iff.1 hmedia
  have hreachable : (contentStore threeBytes).Reachable s := System.reachable_of_run rfl hs
  have hrow : getByVirtualPath s.rows path = .ok media := by
    cases hfound : getByVirtualPath s.rows path with
    | ok m =>
      rw [hfound] at hmedia
      exact congrArg Except.ok (Option.some.inj hmedia)
    | error err =>
      rw [hfound] at hmedia
      cases hmedia
  have hone : ∀ c ∈ s.imported, c = [97, 98, 99] := by
    rw [himported]
    simp
  obtain ⟨hserved, -, -⟩ := store_serves hreachable fun c hc c' hc' _ => (hone c hc).trans (hone c' hc').symm
  obtain ⟨content, hcontent, -, r, hr, hserves⟩ := hserved path media hrow (by rw [hbacking])
  exact ⟨s, r, hreachable, hr, hone content hcontent ▸ hserves⟩

end Example

end BlackPearl.Cache
