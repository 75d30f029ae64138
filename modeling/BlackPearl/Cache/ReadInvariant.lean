import BlackPearl.Cache.Reads

/-!
# The invariant of readers and fetches

`CacheInvariant` ties the goroutines to the pool, to the files and to the objects behind them: every
chunk file holds the bytes of its object at the chunk size it was written with, a fetch in flight
owns its key, and a reader that holds an entry finds the bytes of its object in the file.

A change of the pool is described to the goroutines that take no part in it by `PoolMove`.
-/

set_option autoImplicit false

namespace BlackPearl.Cache

open BlackPearl.Library BlackPearl.Domain

/-- What the cache is a cache of: the bytes that each validator of an object stands for, and the
hash that names objects on disk. -/
structure Origin where
  sha256Hex : String → String
  content : BackingRef → String → Option (List UInt8)

/-- Provider names and object identifiers contain no NUL, and the hash does not collide on the
objects that exist. -/
structure Origin.CollisionFree (o : Origin) : Prop where
  nul_free : ∀ b v, (o.content b v).isSome → '\x00' ∉ b.provider.toList ∧ '\x00' ∉ b.objectID.toList
  injective : ∀ b v b' v', (o.content b v).isSome → (o.content b' v').isSome →
    o.sha256Hex (objectCacheMessage b v) = o.sha256Hex (objectCacheMessage b' v') →
      objectCacheMessage b v = objectCacheMessage b' v'

theorem objectCacheMessage_toList (b : BackingRef) (v : String) :
    (objectCacheMessage b v).toList =
      b.provider.toList ++ '\x00' :: (b.objectID.toList ++ '\x00' :: v.toList) := by
  have hnul : ("\x00" : String).toList = ['\x00'] := rfl
  simp only [objectCacheMessage, String.toList_append, hnul, List.append_assoc, List.cons_append,
    List.nil_append]

/-- Objects that differ in provider, object ID or validator have different cache keys. -/
theorem Origin.CollisionFree.key_injective {o : Origin} (ho : o.CollisionFree) {b b' : BackingRef}
    {v v' : String} (h : (o.content b v).isSome) (h' : (o.content b' v').isSome)
    (hkey : objectCacheKey o.sha256Hex b v = objectCacheKey o.sha256Hex b' v') :
    b = b' ∧ v = v' := by
  have hmessage := congrArg String.toList (ho.injective b v b' v' h h' hkey)
  rw [objectCacheMessage_toList, objectCacheMessage_toList] at hmessage
  obtain ⟨hp, hid⟩ := ho.nul_free b v h
  obtain ⟨hp', hid'⟩ := ho.nul_free b' v' h'
  obtain ⟨hprovider, hrest⟩ := append_cons_cancel hp hp' hmessage
  obtain ⟨hobject, hvalidator⟩ := append_cons_cancel hid hid' hrest
  obtain ⟨p, i⟩ := b
  obtain ⟨p', i'⟩ := b'
  simp only at hprovider hobject
  rw [String.toList_inj.1 hprovider, String.toList_inj.1 hobject, String.toList_inj.1 hvalidator]
  exact ⟨rfl, rfl⟩

/-! ## What providers are assumed to do -/

/-- An exact read of `length` bytes at `offset`: everything up to the end of the object, with the
end reported exactly when it lies before the end of the buffer; a failure delivers a prefix. -/
def ExactRead (content : List UInt8) (offset length : ℕ) (r : RangeRead) : Prop :=
  match r.err with
  | none => r.bytes = slice content offset length ∧ offset + length ≤ content.length
  | some .eof => r.bytes = slice content offset length ∧ content.length < offset + length
  | some (.failed _) => r.bytes <+: slice content offset length

instance (content : List UInt8) (offset length : ℕ) (r : RangeRead) :
    Decidable (ExactRead content offset length r) :=
  match h : r.err with
  | none => decidable_of_iff (r.bytes = slice content offset length ∧ offset + length ≤ content.length)
      (by simp only [ExactRead, h])
  | some .eof => decidable_of_iff
      (r.bytes = slice content offset length ∧ content.length < offset + length)
      (by simp only [ExactRead, h])
  | some (.failed _) => decidable_of_iff (r.bytes <+: slice content offset length)
      (by simp only [ExactRead, h])

/-- An opened source has the size of the content that its validator stands for. -/
def FaithfulOpen (o : Origin) (backing : BackingRef) : OpenOutcome → Prop
  | .failed _ => True
  | .source size validator => ∃ c ∈ o.content backing validator, c.length = size

instance (o : Origin) (backing : BackingRef) :
    (outcome : OpenOutcome) → Decidable (FaithfulOpen o backing outcome)
  | .failed _ => inferInstanceAs (Decidable True)
  | .source size validator =>
      inferInstanceAs (Decidable (∃ c ∈ o.content backing validator, c.length = size))

/-- The range reads in a label are exact for the object that a handle or a fetch is open on. -/
def ExactFor (o : Origin) (backing : BackingRef) (validator : String) (offset length : ℕ)
    (results : List RangeRead) : Prop :=
  ∀ c ∈ o.content backing validator, ∀ result ∈ results, ExactRead c offset length result

instance (o : Origin) (backing : BackingRef) (validator : String) (offset length : ℕ)
    (results : List RangeRead) : Decidable (ExactFor o backing validator offset length results) :=
  inferInstanceAs (Decidable (∀ c ∈ o.content backing validator, ∀ result ∈ results,
    ExactRead c offset length result))

/-- The source that a prefetch has opened. -/
def FaithfulPrefetch (o : Origin) (outcome : OpenOutcome) : Prefetch → Prop
  | .opening backing _ => FaithfulOpen o backing outcome
  | .scheduling _ => True

instance (o : Origin) (outcome : OpenOutcome) :
    (p : Prefetch) → Decidable (FaithfulPrefetch o outcome p)
  | .opening backing _ => inferInstanceAs (Decidable (FaithfulOpen o backing outcome))
  | .scheduling _ => inferInstanceAs (Decidable True)

/-- The provider answers in a label are exact. -/
def Faithful (o : Origin) (s : CacheState) : CacheLabel → Prop
  | .openHandle _ backing _ outcome _ => FaithfulOpen o backing outcome
  | .fetchOpen id outcome _ _ => ∀ f ∈ s.fetchers.lookup id, FaithfulOpen o f.backing outcome
  | .prefetchOpen id outcome _ => ∀ p ∈ s.prefetchers.lookup id, FaithfulPrefetch o outcome p
  | .fetchRead id result _ => ∀ f ∈ s.fetchers.lookup id,
      ExactFor o f.backing f.validator f.offset f.call.expected [result]
  | .direct id attempts => ∀ r ∈ s.readers.lookup id, ∀ h ∈ s.handles.lookup r.handle,
      ExactFor o h.backing h.validator r.offset.toNat r.length (attempts.map Prod.fst)
  | _ => True

/-- A chunk file written with chunk size `written` is also the file a pool with chunk size
`chunkBytes` would write for chunk `index` of an object of `size` bytes. -/
def CompatibleChunk (written chunkBytes index size : ℕ) : Prop :=
  written = chunkBytes ∨ (index = 0 ∧ size ≤ written ∧ size ≤ chunkBytes)

instance (written chunkBytes index size : ℕ) :
    Decidable (CompatibleChunk written chunkBytes index size) :=
  inferInstanceAs (Decidable (written = chunkBytes ∨ _))

/-- When a read finds its chunk present, the file was written with a compatible chunk size. -/
def CompatibleHits (o : Origin) (s : CacheState) : CacheLabel → Prop
  | .acquire id none _ => ∀ r ∈ s.readers.lookup id, ∀ h ∈ s.handles.lookup r.handle,
      ∀ node ∈ s.pool.disk.files.lookup
        (chunkPath (readerKey o.sha256Hex s.pool.shared.options.chunkBytes h r)),
      (s.pool.shared.chunks.lookup
        (readerKey o.sha256Hex s.pool.shared.options.chunkBytes h r)).isSome →
      CompatibleChunk node.writtenWith s.pool.shared.options.chunkBytes
        (readerChunkIndex s.pool.shared.options.chunkBytes r) h.size
  | _ => True

/-! ## Files -/

/-- A chunk file holds the bytes of its object at the chunk size it was written with. -/
def RightFile (o : Origin) (key : ChunkKey) (node : FileNode) : Prop :=
  ∀ b v c, o.content b v = some c → key.object = objectCacheKey o.sha256Hex b v →
    node.content = slice c (key.index * node.writtenWith) node.writtenWith

def DiskRight (o : Origin) (d : Disk) : Prop :=
  ∀ key node, d.files.lookup (chunkPath key) = some node → RightFile o key node

/-- Every entry of the index has its file. -/
def Stored (s : PoolState) : Prop :=
  ∀ k e, s.shared.chunks.lookup k = some e → (s.disk.files.lookup (chunkPath k)).isSome

theorem slice_compatible {written chunkBytes index : ℕ} {c : List UInt8}
    (h : CompatibleChunk written chunkBytes index c.length) :
    slice c (index * written) written = slice c (index * chunkBytes) chunkBytes := by
  rcases h with rfl | ⟨rfl, hw, hc⟩
  · rfl
  · rw [slice_clip c _ written, slice_clip c _ chunkBytes]
    simp only [Nat.zero_mul, Nat.sub_zero]
    rw [Nat.min_eq_right hw, Nat.min_eq_right hc]

theorem chunkPath_ne_temporary {key : ChunkKey} {path : FilePath}
    (h : isFetchTemporary path.name = true) : chunkPath key ≠ path := by
  rintro rfl
  rw [show (chunkPath key).name = chunkFileName key.index from rfl,
    isFetchTemporary_chunkFileName] at h
  exact absurd h (by simp)

theorem isFetchTemporary_prefix (suffix : String) : isFetchTemporary (".fetch-" ++ suffix) = true := by
  unfold isFetchTemporary
  rw [String.toList_append]
  simp

/-! ## Goroutines -/

/-- The object a goroutine works on exists, with the size it assumes. -/
def KnownObject (o : Origin) (backing : BackingRef) (validator : String) (size : ℕ) : Prop :=
  ∃ c, o.content backing validator = some c ∧ c.length = size

/-- What a fetch has in hand in each phase. -/
def FetchPhaseRight (o : Origin) (pool : PoolState) (f : Fetcher) : Prop :=
  match f.phase with
  | .opening | .creating => True
  | .reading temporary => isFetchTemporary temporary.name = true
  | .writing temporary buffer | .renaming temporary buffer =>
      isFetchTemporary temporary.name = true ∧
        ∀ c, o.content f.backing f.validator = some c → buffer = slice c f.offset f.call.expected
  | .sealing => (pool.disk.files.lookup (chunkPath f.key)).isSome
  | .closing stored _ | .returned stored _ =>
      stored = true → (pool.disk.files.lookup (chunkPath f.key)).isSome

structure FetcherRight (o : Origin) (pool : PoolState) (id : ℕ) (f : Fetcher) : Prop where
  ref_eq : f.call.ref = id
  known : KnownObject o f.backing f.validator f.logicalSize
  key_eq : f.key.object = objectCacheKey o.sha256Hex f.backing f.validator
  offset_eq : f.offset = f.key.index * pool.shared.options.chunkBytes
  expected_eq : f.call.expected =
    chunkLength pool.shared.options.chunkBytes f.logicalSize f.key.index
  inflight : pool.shared.inflight.lookup f.key = some f.call
  phase : FetchPhaseRight o pool f

def RunRight (o : Origin) (run : BackgroundRun) : Prop :=
  KnownObject o run.backing run.validator run.logicalSize

def PrefetchRight (o : Origin) : Prefetch → Prop
  | .opening _ _ => True
  | .scheduling run => RunRight o run

/-- The outcome of a `ReadAt` of `length` bytes at `offset` agrees with the content: all wanted
bytes with the end of the object reported exactly when it cuts the read short, or a right prefix and
an error. -/
def ReadOutcome (content : List UInt8) (offset length : ℕ) (buffer : List UInt8)
    (err : Option ReadError) : Prop :=
  match err with
  | some (.failed _) => buffer <+: slice content offset length
  | _ => buffer.length = min length (content.length - offset) ∧ buffer = slice content offset length ∧
      (err = some .eof ↔ content.length - offset < length)

/-- A read between `beginRead` and `finishRead`: it lies within the object and what has been copied
so far is right. -/
structure CopyRight (content : List UInt8) (h : Handle) (r : Reader) : Prop where
  offset_nonneg : 0 ≤ r.offset
  offset_lt : r.offset.toNat < h.size
  buffer_eq : r.buffer = slice content r.offset.toNat r.buffer.length
  buffer_le : r.buffer.length ≤ wantedLength h r

/-- The entry a reader holds is in the index under the reader's key, and its file has the bytes of
that chunk. -/
structure HoldRight (o : Origin) (pool : PoolState) (content : List UInt8) (h : Handle) (r : Reader)
    (entry : ChunkEntry) : Prop where
  wanted : r.buffer.length < wantedLength h r
  path_eq : entry.path =
    chunkPath (readerKey o.sha256Hex pool.shared.options.chunkBytes h r)
  present : ∃ e, pool.shared.chunks.lookup
    (readerKey o.sha256Hex pool.shared.options.chunkBytes h r) = some e ∧ e.ref = entry.ref
  file : ∃ node, pool.disk.files.lookup
    (chunkPath (readerKey o.sha256Hex pool.shared.options.chunkBytes h r)) = some node ∧
    node.content = slice content (readerChunkIndex pool.shared.options.chunkBytes r *
      pool.shared.options.chunkBytes) pool.shared.options.chunkBytes

def ReaderPhaseRight (o : Origin) (pool : PoolState) (content : List UInt8) (h : Handle)
    (r : Reader) : Prop :=
  match r.phase with
  | .starting => r.buffer = []
  | .beginning | .copying | .awaiting _ | .parked _ | .releasing _ _ => CopyRight content h r
  | .holding entry => CopyRight content h r ∧ HoldRight o pool content h r entry
  | .scheduling run =>
      CopyRight content h r ∧ wantedLength h r ≤ r.buffer.length ∧ RunRight o run
  | .direct => CopyRight content h r
  | .done err => 0 ≤ r.offset → r.offset.toNat < h.size →
      ReadOutcome content r.offset.toNat r.length r.buffer err

def ReaderRight (o : Origin) (s : CacheState) (r : Reader) : Prop :=
  ∃ h c, s.handles.lookup r.handle = some h ∧ o.content h.backing h.validator = some c ∧
    c.length = h.size ∧ ReaderPhaseRight o s.pool c h r

/-- The entry a reader has pinned. -/
def Reader.held (r : Reader) : Option ℕ :=
  match r.phase with
  | .holding entry | .releasing entry _ => some entry.ref
  | _ => none

/-- How many readers have pinned the entry at `ref`. -/
def holders (readers : Table ℕ Reader) (ref : ℕ) : ℤ :=
  Table.total (fun _ r => if r.held = some ref then 1 else 0) readers

/-- Every chunk file was written with the chunk size of the pool. -/
def Uniform (s : PoolState) : Prop :=
  ∀ k node, s.disk.files.lookup (chunkPath k) = some node →
    node.writtenWith = s.shared.options.chunkBytes

/-- The invariant of the process; `u` says that the chunk size has never changed. -/
structure CacheInvariant (o : Origin) (u : Prop) (s : CacheState) : Prop where
  uniform : u → Uniform s.pool
  books : Books s.pool
  disk : DiskRight o s.pool.disk
  stored : Stored s.pool
  handles : ∀ id h, s.handles.lookup id = some h → KnownObject o h.backing h.validator h.size
  fetchers : ∀ id f, s.fetchers.lookup id = some f → FetcherRight o s.pool id f
  prefetchers : ∀ id p, s.prefetchers.lookup id = some p → PrefetchRight o p
  readers : ∀ id r, s.readers.lookup id = some r → ReaderRight o s r
  holders_eq : ∀ ref, (s.pool.outstanding.count ref : ℤ) = holders s.readers ref

/-! ## Changes of the pool, as others see them -/

/-- A change of the pool on behalf of the fetch of `own`, or of none: the options stay, pinned
entries and their files stay, and so do the other fetches in flight and their files. -/
structure PoolMove (own : Option ChunkKey) (s t : PoolState) : Prop where
  options_eq : t.shared.options = s.shared.options
  pinned : KeepsPinned s t
  inflight_kept : ∀ k call, own ≠ some k → s.shared.inflight.lookup k = some call →
    t.shared.inflight.lookup k = some call
  file_kept : ∀ k call, own ≠ some k → s.shared.inflight.lookup k = some call →
    t.disk.files.lookup (chunkPath k) = s.disk.files.lookup (chunkPath k)

/-- A change that leaves the index, the fetches in flight and the files alone. -/
theorem PoolMove.of_same {own : Option ChunkKey} {s t : PoolState}
    (hoptions : t.shared.options = s.shared.options) (hchunks : t.shared.chunks = s.shared.chunks)
    (hinflight : t.shared.inflight = s.shared.inflight) (hfiles : t.disk.files = s.disk.files) :
    PoolMove own s t where
  options_eq := hoptions
  pinned := fun k e hk _ => ⟨e, by rw [hchunks, hk], rfl, rfl, rfl, by rw [hfiles]⟩
  inflight_kept := fun k call _ hk => by rw [hinflight, hk]
  file_kept := fun k call _ _ => by rw [hfiles]

theorem PoolMove.refl (own : Option ChunkKey) (s : PoolState) : PoolMove own s s :=
  .of_same rfl rfl rfl rfl

/-- Evictions remove no file of a fetch in flight. -/
theorem Evicted.inflight_file_kept {s t : PoolState} (hev : Evicted s t) (hb : Books s)
    {key : ChunkKey} {call : FetchCall} (hi : s.shared.inflight.lookup key = some call) :
    t.disk.files.lookup (chunkPath key) = s.disk.files.lookup (chunkPath key) := by
  refine hev.files_kept _ fun k e hk _ hpath => ?_
  rw [hb.path_eq k e hk] at hpath
  rw [chunkPath_injective hpath, hb.absent hi] at hk
  exact absurd hk (by simp)

/-- Evictions, followed by a change that only adds a fetch. -/
theorem Evicted.poolMove {s u t : PoolState} (hev : Evicted s u) (hb : Books s)
    (hoptions : t.shared.options = u.shared.options) (hchunks : t.shared.chunks = u.shared.chunks)
    (hinflight : ∀ k call, u.shared.inflight.lookup k = some call →
      t.shared.inflight.lookup k = some call)
    (hfiles : t.disk.files = u.disk.files) : PoolMove none s t where
  options_eq := hoptions.trans hev.options_eq
  pinned := hev.keepsPinned hb hchunks hfiles
  inflight_kept := fun k call _ hk => hinflight k call (by rw [hev.inflight_eq, hk])
  file_kept := fun k call _ hk => by rw [hfiles, hev.inflight_file_kept hb hk]

/-- Evictions keep the entries' files. -/
theorem Evicted.stored {s t : PoolState} (hev : Evicted s t) (hb : Books s) (h : Stored s) :
    Stored t := by
  intro k e hk
  have hk' := hev.chunks_sub k e hk
  have hfile := hev.file_kept hb hk
  rw [hb.path_eq k e hk'] at hfile
  rw [hfile]
  exact h k e hk'

theorem Evicted.diskRight {o : Origin} {s t : PoolState} (hev : Evicted s t)
    (h : DiskRight o s.disk) : DiskRight o t.disk :=
  fun key node hn => h key node (hev.files_sub _ _ hn)

/-- What the goroutines need of a pool change that leaves no fetch of theirs behind. -/
structure PoolStepRight (o : Origin) (own : Option ChunkKey) (s t : PoolState) : Prop where
  move : PoolMove own s t
  books : Books t
  disk : DiskRight o t.disk
  stored : Stored t
  files : ∀ k node, t.disk.files.lookup (chunkPath k) = some node →
    s.disk.files.lookup (chunkPath k) = some node ∨
      node.writtenWith = s.shared.options.chunkBytes

theorem PoolStepRight.refl {o : Origin} (own : Option ChunkKey) {s : PoolState} (hb : Books s)
    (hd : DiskRight o s.disk) (hst : Stored s) : PoolStepRight o own s s :=
  ⟨.refl own s, hb, hd, hst, fun _ _ h => Or.inl h⟩

theorem startFetch_inflight {s : PoolState} {key : ChunkKey} (kind : BackgroundFetchKind)
    (expected : ℕ) (hi : s.shared.inflight.lookup key = none) (k : ChunkKey) (call : FetchCall)
    (hk : s.shared.inflight.lookup k = some call) :
    (reserveAndStart s key kind expected).shared.inflight.lookup k = some call := by
  have hne : k ≠ key := by
    rintro rfl
    exact absurd (hi.symm.trans hk) (by simp)
  show (s.shared.inflight.insert key _).lookup k = some call
  rw [Table.lookup_insert, if_neg hne, hk]

section Moves

variable {o : Origin} {s t : PoolState}

theorem evicted_step (hb : Books s) (hd : DiskRight o s.disk) (hst : Stored s)
    (hev : Evicted s t) : PoolStepRight o none s t :=
  ⟨hev.poolMove hb rfl rfl (fun _ _ h => h) rfl, hev.books hb, hev.diskRight hd, hev.stored hb hst,
    fun _ _ h => Or.inl (hev.files_sub _ _ h)⟩

theorem acquire_step (hb : Books s) (hd : DiskRight o s.disk) (hst : Stored s) {key : ChunkKey}
    {expected : ℕ} {r : AcquireResult} (hs : AcquireSpec s key expected t r) :
    PoolStepRight o none s t := by
  have hbooks := hb.acquire hs
  have hpinned := hs.keepsPinned hb
  cases hs with
  | @hit entry hk =>
    refine ⟨⟨rfl, hpinned, fun _ _ _ h => h, fun _ _ _ _ => rfl⟩, hbooks, hd, ?_,
      fun _ _ h => Or.inl h⟩
    intro k e he
    obtain ⟨e₀, he₀, -⟩ := pinChunk_lookup_cases hk he
    exact hst k e₀ he₀
  | join _ _ => exact .refl none hb hd hst
  | failed hev => exact evicted_step hb hd hst hev
  | wait hev => exact evicted_step hb hd hst hev
  | started hc hi hev _ heq =>
    subst heq
    rw [← hev.inflight_eq] at hi
    exact ⟨hev.poolMove hb rfl rfl (startFetch_inflight .none expected hi) rfl, hbooks,
      hev.diskRight hd, hev.stored hb hst, fun _ _ h => Or.inl (hev.files_sub _ _ h)⟩

theorem recordFetch_inflight (s : PoolState) (kind : BackgroundFetchKind) :
    (recordBackgroundFetchLocked s kind).shared.inflight = s.shared.inflight := by
  cases kind <;> rfl

theorem schedule_step (hb : Books s) (hd : DiskRight o s.disk) (hst : Stored s) {key : ChunkKey}
    {expected : ℕ} {kind : BackgroundFetchKind} {r : ScheduleResult}
    (hs : ScheduleSpec s key expected kind t r) : PoolStepRight o none s t := by
  have hbooks := hb.schedule hs
  cases hs with
  | present => exact .refl none hb hd hst
  | refused hev => exact evicted_step hb hd hst hev
  | @started u hc hi hev _ =>
    rw [← hev.inflight_eq] at hi
    obtain ⟨hchunks, hdisk, hoptions⟩ :=
      chunks_recordFetch (reserveAndStart u key kind expected) kind
    have hinflight := recordFetch_inflight (reserveAndStart u key kind expected) kind
    refine ⟨hev.poolMove hb (hoptions.trans rfl) (hchunks.trans rfl) ?_ (by rw [hdisk]; rfl), hbooks,
      by rw [hdisk]; exact hev.diskRight hd, ?_, ?_⟩
    · intro k call hk
      rw [hinflight]
      exact startFetch_inflight kind expected hi k call hk
    · intro k e hk
      rw [hchunks] at hk
      rw [hdisk]
      exact hev.stored hb hst k e hk
    · intro k node hn
      rw [hdisk] at hn
      exact Or.inl (hev.files_sub _ _ hn)

theorem release_step (hb : Books s) (hd : DiskRight o s.disk) (hst : Stored s) {ref : ℕ}
    (hr : ref ∈ s.outstanding) : PoolStepRight o none s (releaseChunk s ref) := by
  refine ⟨⟨rfl, ?_, fun _ _ _ h => h, fun _ _ _ _ => rfl⟩, hb.release hr, hd, ?_,
    fun _ _ h => Or.inl h⟩
  · exact poolStep_keepsPinned (a := .release ref) hb (by simp [poolStep, hr])
  · intro k e he
    obtain ⟨e₀, he₀, -⟩ := releaseChunk_lookup_cases he
    exact hst k e₀ he₀

/-- A fetch writes a file of its own. -/
theorem write_step (hb : Books s) (hd : DiskRight o s.disk) (hst : Stored s) {key : ChunkKey}
    {path : FilePath} {node : FileNode} (hi : (s.shared.inflight.lookup key).isSome)
    (hown : ownFile key path = true) (hright : ∀ k, chunkPath k = path →
      RightFile o k node ∧ node.writtenWith = s.shared.options.chunkBytes) :
    PoolStepRight o (some key) s { s with disk := s.disk.write path node } := by
  have hother : ∀ k, some key ≠ some k → chunkPath k ≠ path := by
    intro k hne hpath
    rw [ownFile, Bool.or_eq_true, beq_iff_eq] at hown
    rcases hown with rfl | htemp
    · exact hne (congrArg some (chunkPath_injective hpath).symm)
    · exact chunkPath_ne_temporary htemp hpath
  refine ⟨⟨rfl, ?_, fun _ _ _ h => h, fun k _ hne _ => ?_⟩, { hb with }, ?_, ?_, ?_⟩
  · exact poolStep_keepsPinned (a := .writeFile key path node) hb (by simp [poolStep, hi, hown])
  · show (s.disk.write path node).files.lookup _ = _
    rw [Disk.lookup_write, if_neg (hother k hne)]
  · intro k n hn
    change (s.disk.write path node).files.lookup _ = _ at hn
    rw [Disk.lookup_write] at hn
    split at hn
    · next hpath =>
      rw [← Option.some.inj hn]
      exact (hright k hpath).1
    · exact hd k n hn
  · intro k e hk
    show ((s.disk.write path node).files.lookup _).isSome
    rw [Disk.lookup_write]
    split
    · rfl
    · exact hst k e hk
  · intro k n hn
    change (s.disk.write path node).files.lookup _ = _ at hn
    rw [Disk.lookup_write] at hn
    split at hn
    · next hpath =>
      rw [← Option.some.inj hn]
      exact Or.inr (hright k hpath).2
    · exact Or.inl hn

/-- A fetch removes a file of its own. -/
theorem remove_step (hb : Books s) (hd : DiskRight o s.disk) (hst : Stored s) {key : ChunkKey}
    {path : FilePath} (hi : (s.shared.inflight.lookup key).isSome)
    (hown : ownFile key path = true) :
    PoolStepRight o (some key) s { s with disk := s.disk.remove path } := by
  have hother : ∀ k, some key ≠ some k → chunkPath k ≠ path := by
    intro k hne hpath
    rw [ownFile, Bool.or_eq_true, beq_iff_eq] at hown
    rcases hown with rfl | htemp
    · exact hne (congrArg some (chunkPath_injective hpath).symm)
    · exact chunkPath_ne_temporary htemp hpath
  have hsub : ∀ p n, (s.disk.remove path).files.lookup p = some n →
      s.disk.files.lookup p = some n := by
    intro p n hn
    rw [Disk.lookup_remove] at hn
    split at hn
    · exact absurd hn (by simp)
    · exact hn
  refine ⟨⟨rfl, ?_, fun _ _ _ h => h, fun k _ hne _ => ?_⟩, { hb with },
    fun k n hn => hd k n (hsub _ _ hn), ?_, fun k n hn => Or.inl (hsub _ _ hn)⟩
  · exact poolStep_keepsPinned (a := .removeFile key path) hb (by simp [poolStep, hi, hown])
  · show (s.disk.remove path).files.lookup _ = _
    rw [Disk.lookup_remove, if_neg (hother k hne)]
  · intro k e hk
    have hne : chunkPath k ≠ path := by
      have := ownFile_ne hb hi hown hk
      rwa [hb.path_eq k e hk] at this
    show ((s.disk.remove path).files.lookup _).isSome
    rw [Disk.lookup_remove, if_neg hne]
    exact hst k e hk

theorem complete_step (hb : Books s) (hd : DiskRight o s.disk) (hst : Stored s) {key : ChunkKey}
    {call : FetchCall} (hi : s.shared.inflight.lookup key = some call) (stored : Bool)
    (err : Option FetchError)
    (hfile : stored = true → (s.disk.files.lookup (chunkPath key)).isSome) :
    PoolStepRight o (some key) s (completeFetch s key call stored err) := by
  have hpinned := completeFetch_keepsPinned hb hi stored err
  have hbooks := hb.complete hi stored err
  have hsettled := hb.settle hi stored err
  have hoptions := poolStep_options (s := s) (a := .complete key stored err)
    (t := completeFetch s key call stored err) (by simp [poolStep, hi])
  obtain ⟨u, hu, heq⟩ := completeFetch_evicted s key call stored err
  have hdisk := settleFetch_disk s key call stored err
  have hinflight : ∀ k c, some key ≠ some k → s.shared.inflight.lookup k = some c →
      (settleFetch s key call stored err).shared.inflight.lookup k = some c := by
    intro k c hne hk
    have hne' : k ≠ key := fun h => hne (congrArg some h.symm)
    have : (s.shared.inflight.erase key).lookup k = some c := by
      rw [Table.lookup_erase, if_neg hne', hk]
    cases stored <;> exact this
  have hstored : Stored (settleFetch s key call stored err) := by
    intro k e hk
    rw [hdisk]
    by_cases hne : k = key
    · subst hne
      cases stored with
      | true => exact hfile rfl
      | false =>
        have hk' : s.shared.chunks.lookup k = some e := hk
        exact hst k e hk'
    · rw [lookup_settleFetch call stored err hne] at hk
      exact hst k e hk
  refine ⟨⟨hoptions, hpinned, fun k c hne hk => ?_, fun k c hne hk => ?_⟩, hbooks, ?_, ?_, ?_⟩
  · rw [heq]
    show u.shared.inflight.lookup k = some c
    rw [hu.inflight_eq]
    exact hinflight k c hne hk
  · rw [heq]
    show u.disk.files.lookup _ = _
    rw [hu.inflight_file_kept hsettled (hinflight k c hne hk), hdisk]
  · rw [heq]
    refine hu.diskRight ?_
    rw [hdisk]
    exact hd
  · rw [heq]
    exact hu.stored hsettled hstored
  · intro k node hn
    rw [heq] at hn
    have hn' := hu.files_sub _ _ hn
    rw [hdisk] at hn'
    exact Or.inl hn'

end Moves

end BlackPearl.Cache
