import BlackPearl.Cache.ReadInvariant

/-!
# Correctness of cached reads

Every step of the process keeps `CacheInvariant`, as long as the provider's answers are exact and
the chunks that reads find were written with a compatible chunk size. Hence every `ReadAt` that has
returned delivered the bytes of its object.
-/

set_option autoImplicit false

namespace BlackPearl.Cache

open BlackPearl.Library BlackPearl.Domain

/-! ## Goroutines that take no part in a step -/

/-- Handles keep what they were opened with. -/
def HandlesKept (s t : CacheState) : Prop :=
  ∀ id h, s.handles.lookup id = some h → ∃ h', t.handles.lookup id = some h' ∧
    h'.backing = h.backing ∧ h'.size = h.size ∧ h'.validator = h.validator

theorem HandlesKept.of_eq {s t : CacheState} (h : t.handles = s.handles) : HandlesKept s t :=
  fun id h' hh => ⟨h', by rw [h, hh], rfl, rfl, rfl⟩

/-- Replacing a handle by one for the same object. -/
theorem HandlesKept.of_insert {s t : CacheState} {id : ℕ} {h h' : Handle}
    (hh : s.handles.lookup id = some h) (ht : t.handles = s.handles.insert id h')
    (hb : h'.backing = h.backing) (hs : h'.size = h.size) (hv : h'.validator = h.validator) :
    HandlesKept s t := by
  intro id' h₀ h₀h
  rw [ht]
  by_cases hid : id' = id
  · subst hid
    have hsame : h = h₀ := Option.some.inj (hh.symm.trans h₀h)
    subst hsame
    exact ⟨h', by rw [Table.lookup_insert, if_pos rfl], hb, hs, hv⟩
  · exact ⟨h₀, by rw [Table.lookup_insert, if_neg hid, h₀h], rfl, rfl, rfl⟩

section Kept

variable {o : Origin} {u : Prop} {s t : CacheState}

theorem FetcherRight.kept {own : Option ChunkKey} {p q : PoolState} {id : ℕ} {f : Fetcher}
    (h : FetcherRight o p id f) (hm : PoolMove own p q) (hown : own ≠ some f.key) :
    FetcherRight o q id f where
  ref_eq := h.ref_eq
  known := h.known
  key_eq := h.key_eq
  offset_eq := by rw [hm.options_eq, h.offset_eq]
  expected_eq := by rw [hm.options_eq, h.expected_eq]
  inflight := hm.inflight_kept _ _ hown h.inflight
  phase := by
    have hfile := hm.file_kept _ _ hown h.inflight
    have hphase := h.phase
    unfold FetchPhaseRight at hphase ⊢
    split <;> simp_all

/-- The phase of a reader depends on its handle only through the object it was opened on. -/
theorem ReaderPhaseRight.congr {p : PoolState} {c : List UInt8} {h h' : Handle} {r : Reader}
    (hr : ReaderPhaseRight o p c h r) (hb : h'.backing = h.backing) (hs : h'.size = h.size)
    (hv : h'.validator = h.validator) : ReaderPhaseRight o p c h' r := by
  have hwanted : wantedLength h' r = wantedLength h r := by
    simp only [wantedLength, hs]
  have hcopy : CopyRight c h r → CopyRight c h' r := fun hc =>
    ⟨hc.offset_nonneg, by rw [hs]; exact hc.offset_lt, hc.buffer_eq, by rw [hwanted]; exact hc.buffer_le⟩
  have hkey : readerKey o.sha256Hex p.shared.options.chunkBytes h' r =
      readerKey o.sha256Hex p.shared.options.chunkBytes h r := by
    simp only [readerKey, hb, hv]
  unfold ReaderPhaseRight at hr ⊢
  split
  · next hp => simpa only [hp] using hr
  · next hp => simp only [hp] at hr; exact hcopy hr
  · next hp => simp only [hp] at hr; exact hcopy hr
  · next hp => simp only [hp] at hr; exact hcopy hr
  · next hp => simp only [hp] at hr; exact hcopy hr
  · next hp => simp only [hp] at hr; exact hcopy hr
  · next entry hp =>
    simp only [hp] at hr
    refine ⟨hcopy hr.1, ?_⟩
    have hold := hr.2
    exact ⟨by rw [hwanted]; exact hold.wanted, by rw [hkey]; exact hold.path_eq,
      by rw [hkey]; exact hold.present, by rw [hkey]; exact hold.file⟩
  · next run hp =>
    simp only [hp] at hr
    exact ⟨hcopy hr.1, by rw [hwanted]; exact hr.2.1, hr.2.2⟩
  · next hp => simp only [hp] at hr; exact hcopy hr
  · next err hp =>
    simp only [hp] at hr
    intro h₁ h₂
    rw [hs] at h₂
    exact hr h₁ h₂

/-- An entry that a reader holds is pinned. -/
theorem CacheInvariant.pinned (h : CacheInvariant o u s) {id : ℕ} {r : Reader}
    (hr : s.readers.lookup id = some r) {ref : ℕ} (hheld : r.held = some ref) {k : ChunkKey}
    {e : ChunkEntry} (hk : s.pool.shared.chunks.lookup k = some e) (href : e.ref = ref) :
    0 < e.pins := by
  have hle : (if r.held = some ref then (1 : ℤ) else 0) ≤ holders s.readers ref :=
    Table.le_total (f := fun _ r => if r.held = some ref then (1 : ℤ) else 0)
      (fun _ _ _ => by split <;> omega) hr
  rw [if_pos hheld, ← h.holders_eq ref] at hle
  rw [h.books.pins_eq k e hk, href]
  omega

/-- A reader that takes no part in a step keeps what it relies on. -/
theorem CacheInvariant.reader_kept (h : CacheInvariant o u s) {own : Option ChunkKey} {id : ℕ}
    {r : Reader} (hr : s.readers.lookup id = some r) (hm : PoolMove own s.pool t.pool)
    (hh : HandlesKept s t) : ReaderRight o t r := by
  obtain ⟨hd, c, hhandle, hcontent, hsize, hphase⟩ := h.readers id r hr
  obtain ⟨hd', hhandle', hb, hs, hv⟩ := hh _ _ hhandle
  refine ⟨hd', c, hhandle', by rw [hb, hv, hcontent], by rw [hs, hsize], ?_⟩
  refine ReaderPhaseRight.congr ?_ hb hs hv
  have hoptions := hm.options_eq
  unfold ReaderPhaseRight at hphase ⊢
  split <;> rename_i hp <;> simp only [hp] at hphase
  case h_7 entry =>
    obtain ⟨hcopy, hold⟩ := hphase
    obtain ⟨e, he, href⟩ := hold.present
    have hheld : r.held = some entry.ref := by rw [Reader.held, hp]
    obtain ⟨e', he', href', hpath', -, hfile⟩ := hm.pinned _ e he (h.pinned hr hheld he href)
    rw [h.books.path_eq _ e he] at hfile
    refine ⟨hcopy, ⟨hold.wanted, by rw [hoptions]; exact hold.path_eq, ?_, ?_⟩⟩
    · rw [hoptions]
      exact ⟨e', he', href'.trans href⟩
    · rw [hoptions, hfile]
      exact hold.file
  all_goals exact hphase

/-- The step rule: the pool has moved, handles are kept, and every goroutine is either the one it was
or right in the new state. -/
theorem CacheInvariant.of_step (h : CacheInvariant o u s) {own : Option ChunkKey}
    (hp : PoolStepRight o own s.pool t.pool) (hkept : HandlesKept s t)
    (hhandles : ∀ id hd, t.handles.lookup id = some hd → KnownObject o hd.backing hd.validator hd.size)
    (hfetchers : ∀ id f, t.fetchers.lookup id = some f →
      (s.fetchers.lookup id = some f ∧ own ≠ some f.key) ∨ FetcherRight o t.pool id f)
    (hprefetchers : ∀ id p, t.prefetchers.lookup id = some p → PrefetchRight o p)
    (hreaders : ∀ id r, t.readers.lookup id = some r →
      s.readers.lookup id = some r ∨ ReaderRight o t r)
    (hholders : ∀ ref, (t.pool.outstanding.count ref : ℤ) = holders t.readers ref) :
    CacheInvariant o u t where
  uniform := by
    intro hu k node hn
    rw [hp.move.options_eq]
    rcases hp.files k node hn with hn | hn
    · exact h.uniform hu k node hn
    · exact hn
  books := hp.books
  disk := hp.disk
  stored := hp.stored
  handles := hhandles
  fetchers := by
    intro id f hf
    rcases hfetchers id f hf with ⟨hf', hown⟩ | hf'
    · exact (h.fetchers id f hf').kept hp.move hown
    · exact hf'
  prefetchers := hprefetchers
  readers := by
    intro id r hr
    rcases hreaders id r hr with hr' | hr'
    · exact h.reader_kept hr' hp.move hkept
    · exact hr'
  holders_eq := hholders

/-- Two fetches with one key are one fetch. -/
theorem CacheInvariant.fetcher_unique (h : CacheInvariant o u s) {id id' : ℕ} {f f' : Fetcher}
    (hf : s.fetchers.lookup id = some f) (hf' : s.fetchers.lookup id' = some f')
    (hkey : f.key = f'.key) : id = id' := by
  have hi := (h.fetchers id f hf).inflight
  have hi' := (h.fetchers id' f' hf').inflight
  rw [hkey, hi', Option.some.injEq] at hi
  rw [← (h.fetchers id f hf).ref_eq, ← (h.fetchers id' f' hf').ref_eq, hi]

theorem holders_insert {readers : Table ℕ Reader} {id : ℕ} {r : Reader} (hr : readers.lookup id = some r)
    (r' : Reader) (ref : ℕ) : holders (readers.insert id r') ref = holders readers ref -
      (if r.held = some ref then 1 else 0) + (if r'.held = some ref then 1 else 0) :=
  Table.total_insert_of_lookup hr

/-- A step of one reader. -/
theorem CacheInvariant.reader_step (h : CacheInvariant o u s) {id : ℕ} {r r' : Reader}
    (hr : s.readers.lookup id = some r) (hreaders : t.readers = s.readers.insert id r')
    (hp : PoolStepRight o none s.pool t.pool) (hkept : HandlesKept s t)
    (hhandles : ∀ id hd, t.handles.lookup id = some hd → KnownObject o hd.backing hd.validator hd.size)
    (hfetchers : ∀ id f, t.fetchers.lookup id = some f →
      s.fetchers.lookup id = some f ∨ FetcherRight o t.pool id f)
    (hprefetchers : t.prefetchers = s.prefetchers) (hright : ReaderRight o t r')
    (hcount : ∀ ref, (t.pool.outstanding.count ref : ℤ) = s.pool.outstanding.count ref -
      (if r.held = some ref then 1 else 0) + (if r'.held = some ref then 1 else 0)) :
    CacheInvariant o u t := by
  refine h.of_step hp hkept hhandles ?_ ?_ ?_ ?_
  · intro id' f hf
    rcases hfetchers id' f hf with hf | hf
    · exact Or.inl ⟨hf, by simp⟩
    · exact Or.inr hf
  · rw [hprefetchers]
    exact h.prefetchers
  · intro id' r₀ hr₀
    rw [hreaders, Table.lookup_insert] at hr₀
    split at hr₀
    · rw [← Option.some.inj hr₀]
      exact Or.inr hright
    · exact Or.inl hr₀
  · intro ref
    rw [hcount, hreaders, holders_insert hr, h.holders_eq]

/-- A step of one reader that touches neither the pool nor what the reader holds. -/
theorem CacheInvariant.reader_local (h : CacheInvariant o u s) {id : ℕ} {r r' : Reader} {hd : Handle}
    {c : List UInt8} (hr : s.readers.lookup id = some r)
    (hhandle : s.handles.lookup r'.handle = some hd)
    (hcontent : o.content hd.backing hd.validator = some c) (hsize : c.length = hd.size)
    (hheld : r'.held = r.held) (hphase : ReaderPhaseRight o s.pool c hd r') :
    CacheInvariant o u (setReader s id r') := by
  refine h.reader_step hr rfl (.refl none h.books h.disk h.stored) (.of_eq rfl) h.handles
    (fun _ _ hf => Or.inl hf) rfl ⟨hd, c, hhandle, hcontent, hsize, hphase⟩ ?_
  intro ref
  rw [hheld]
  show (s.pool.outstanding.count ref : ℤ) = _
  omega

end Kept

/-! ## Copying -/

section Copying

variable {o : Origin} {c : List UInt8} {h : Handle} {r : Reader}

theorem wantedLength_le (h : Handle) (r : Reader) : wantedLength h r ≤ r.length := Nat.min_le_left _ _

theorem CopyRight.failedOutcome (hc : CopyRight c h r) (err : FetchError) :
    ReadOutcome c r.offset.toNat r.length r.buffer (some (.failed err)) := by
  have hle := le_trans hc.buffer_le (wantedLength_le h r)
  show r.buffer <+: slice c r.offset.toNat r.length
  have happend := slice_append c r.offset.toNat r.buffer.length (r.length - r.buffer.length)
  rw [Nat.add_sub_cancel' hle] at happend
  rw [← happend, ← hc.buffer_eq]
  exact List.prefix_append _ _

/-- A read that has copied all it wants returns the right result. -/
theorem CopyRight.complete (hc : CopyRight c h r) (hsize : c.length = h.size)
    (hfull : wantedLength h r ≤ r.buffer.length) :
    ReadOutcome c r.offset.toNat r.length r.buffer (readResult h r) := by
  have hlen : r.buffer.length = min r.length (c.length - r.offset.toNat) := by
    rw [hsize]
    exact le_antisymm hc.buffer_le hfull
  have hbuffer : r.buffer = slice c r.offset.toNat r.length := by
    rw [slice_clip, ← hlen]
    exact hc.buffer_eq
  have hclipped : partialRead h r = true ↔ c.length - r.offset.toNat < r.length := by
    rw [partialRead, decide_eq_true_eq, hsize]
  unfold readResult
  split
  · next hp => exact ⟨hlen, hbuffer, fun _ => hclipped.1 hp, fun _ => rfl⟩
  · next hp => exact ⟨hlen, hbuffer, fun he => absurd he (by simp), fun hlt => absurd (hclipped.2 hlt) hp⟩

theorem logicalOffset_eq (chunkBytes : ℕ) (r : Reader) :
    readerChunkIndex chunkBytes r * chunkBytes + readerWithinChunk chunkBytes r = logicalOffset r :=
  Nat.div_add_mod' _ _

theorem readerWithinChunk_lt {chunkBytes : ℕ} (hpos : 0 < chunkBytes) (r : Reader) :
    readerWithinChunk chunkBytes r < chunkBytes :=
  Nat.mod_lt _ hpos

/-- Copying from the right bytes of the current chunk extends what has been copied. -/
theorem CopyRight.copy (hc : CopyRight c h r) (hsize : c.length = h.size) {chunkBytes n : ℕ}
    (hpos : 0 < chunkBytes) (hn : n ≤ readerCopyLength chunkBytes h r) (phase : ReaderPhase) :
    (slice (slice c (readerChunkIndex chunkBytes r * chunkBytes) chunkBytes)
      (readerWithinChunk chunkBytes r) n).length = n ∧
    CopyRight c h { r with
      buffer := r.buffer ++ slice (slice c (readerChunkIndex chunkBytes r * chunkBytes) chunkBytes)
        (readerWithinChunk chunkBytes r) n
      phase := phase } := by
  have hwithin := readerWithinChunk_lt hpos r
  have hcopy : n ≤ chunkLength chunkBytes h.size (readerChunkIndex chunkBytes r) -
      readerWithinChunk chunkBytes r := le_trans hn (Nat.min_le_left _ _)
  have hrest : n ≤ wantedLength h r - r.buffer.length := le_trans hn (Nat.min_le_right _ _)
  have hchunk := chunkLength_le chunkBytes h.size (readerChunkIndex chunkBytes r)
  have hle := hc.buffer_le
  have hwanted : wantedLength h r ≤ h.size - r.offset.toNat := Nat.min_le_right _ _
  have hoff := hc.offset_lt
  rw [slice_slice (by omega : readerWithinChunk chunkBytes r + n ≤ chunkBytes), logicalOffset_eq]
  have hlen : (slice c (logicalOffset r) n).length = n := by
    refine length_slice_of_le ?_
    simp only [logicalOffset]
    omega
  refine ⟨hlen, hc.offset_nonneg, hc.offset_lt, ?_, ?_⟩
  · show r.buffer ++ slice c (logicalOffset r) n =
      slice c r.offset.toNat (r.buffer ++ slice c (logicalOffset r) n).length
    rw [List.length_append, hlen, ← slice_append, ← hc.buffer_eq]
    rfl
  · show (r.buffer ++ slice c (logicalOffset r) n).length ≤ wantedLength h r
    rw [List.length_append, hlen]
    omega

/-- Reading the file of a held entry. -/
theorem HoldRight.readChunk {p : PoolState} {entry : ChunkEntry}
    (hold : HoldRight o p c h r entry) (hc : CopyRight c h r) (hsize : c.length = h.size)
    (fault : Option ℕ) (phase : ReaderPhase) :
    CopyRight c h { r with
      buffer := r.buffer ++ (readChunk p.disk entry.path
        (readerCopyLength p.shared.options.chunkBytes h r)
        (readerWithinChunk p.shared.options.chunkBytes r) fault).1
      phase := phase } := by
  obtain ⟨node, hnode, hcontent⟩ := hold.file
  have hpos := p.shared.options.chunkBytes_pos
  unfold Cache.readChunk
  rw [hold.path_eq, hnode]
  cases fault with
  | none =>
    simp only [hcontent]
    exact (hc.copy hsize hpos (le_refl _) phase).2
  | some n =>
    simp only [hcontent]
    exact (hc.copy hsize hpos (Nat.min_le_right _ _) phase).2

/-- Without a read error the file of a held entry is never too short. -/
theorem HoldRight.readChunk_full {p : PoolState} {entry : ChunkEntry}
    (hold : HoldRight o p c h r entry) (hc : CopyRight c h r) (hsize : c.length = h.size) :
    (Cache.readChunk p.disk entry.path (readerCopyLength p.shared.options.chunkBytes h r)
      (readerWithinChunk p.shared.options.chunkBytes r) none).2 = false := by
  obtain ⟨node, hnode, hcontent⟩ := hold.file
  have hlen := (hc.copy hsize p.shared.options.chunkBytes_pos (le_refl _) r.phase).1
  unfold Cache.readChunk
  rw [hold.path_eq, hnode]
  simp only [hcontent, hlen, ne_eq, not_true_eq_false, decide_false]

theorem ExactRead.outcome {offset length : ℕ} {result : RangeRead}
    (h : ExactRead c offset length result) (hoff : offset ≤ c.length) :
    ReadOutcome c offset length result.bytes result.err := by
  unfold ExactRead at h
  split at h
  · next he =>
    rw [he]
    obtain ⟨hbytes, hle⟩ := h
    refine ⟨?_, hbytes, fun h => absurd h (by simp), fun hlt => ?_⟩
    · rw [hbytes, length_slice]
    · omega
  · next he =>
    rw [he]
    obtain ⟨hbytes, hlt⟩ := h
    refine ⟨?_, hbytes, fun _ => ?_, fun _ => rfl⟩
    · rw [hbytes, length_slice]
    · omega
  · next e he =>
    rw [he]
    exact h

theorem directAttempts_mem : ∀ {n : ℕ} {attempts : List (RangeRead × Bool)} {result : RangeRead},
    directAttempts n attempts = some result → ∃ attempt ∈ attempts, attempt.1 = result
  | _, [], _, h => by simp [directAttempts] at h
  | 0, _ :: _, _, h => by simp [directAttempts] at h
  | n + 1, (x, expired) :: rest, result, h => by
    unfold directAttempts at h
    split at h
    · split at h
      · split at h
        · exact ⟨_, List.mem_cons_self, Option.some.inj h⟩
        · exact absurd h (by simp)
      · obtain ⟨attempt, hmem, heq⟩ := directAttempts_mem h
        exact ⟨attempt, List.mem_cons_of_mem _ hmem, heq⟩
    · split at h
      · exact ⟨_, List.mem_cons_self, Option.some.inj h⟩
      · exact absurd h (by simp)

end Copying

/-! ## Steps of a reader -/

/-- How the locked section of `acquireChunk` changes what readers hold. -/
theorem AcquireSpec.outstanding_eq {s t : PoolState} {key : ChunkKey} {expected : ℕ}
    {r : AcquireResult} (hs : AcquireSpec s key expected t r) :
    t.outstanding = match r with
      | .hit entry => entry.ref :: s.outstanding
      | _ => s.outstanding := by
  cases hs with
  | hit _ => rfl
  | join _ _ => rfl
  | failed hev => exact hev.outstanding_eq
  | wait hev => exact hev.outstanding_eq
  | started _ _ hev _ heq =>
    subst heq
    exact hev.outstanding_eq

theorem ScheduleSpec.outstanding_eq {s t : PoolState} {key : ChunkKey} {expected : ℕ}
    {kind : BackgroundFetchKind} {r : ScheduleResult} (hs : ScheduleSpec s key expected kind t r) :
    t.outstanding = s.outstanding := by
  cases hs with
  | present => rfl
  | refused hev => exact hev.outstanding_eq
  | @started u _ _ hev _ =>
    rw [← hev.outstanding_eq]
    cases kind <;> rfl

/-- A fetch that has just been started is in flight under its key. -/
theorem AcquireSpec.started_inflight {s t : PoolState} {key : ChunkKey} {expected : ℕ}
    {call : FetchCall} (hs : AcquireSpec s key expected t (.started call)) :
    t.shared.inflight.lookup key = some call ∧ call.expected = expected := by
  cases hs with
  | @started u _ _ _ _ _ heq =>
    subst heq
    refine ⟨?_, rfl⟩
    show (u.shared.inflight.insert key _).lookup key = _
    rw [Table.lookup_insert, if_pos rfl]
    rfl

theorem ScheduleSpec.started_inflight {s t : PoolState} {key : ChunkKey} {expected : ℕ}
    {kind : BackgroundFetchKind} {call : FetchCall}
    (hs : ScheduleSpec s key expected kind t (.started call)) :
    t.shared.inflight.lookup key = some call ∧ call.expected = expected := by
  cases hs with
  | @started u _ _ _ _ =>
    refine ⟨?_, rfl⟩
    rw [recordFetch_inflight]
    show (u.shared.inflight.insert key _).lookup key = _
    rw [Table.lookup_insert, if_pos rfl]
    rfl

theorem newFetcher_right {o : Origin} {p : PoolState} {call : FetchCall} {parent : Option ℕ}
    {key : ChunkKey} {backing : BackingRef} {validator : String} {size : ℕ}
    (hknown : KnownObject o backing validator size)
    (hkey : key.object = objectCacheKey o.sha256Hex backing validator)
    (hi : p.shared.inflight.lookup key = some call)
    (hexpected : call.expected = chunkLength p.shared.options.chunkBytes size key.index) :
    FetcherRight o p call.ref
      (newFetcher call parent key backing validator size p.shared.options.chunkBytes) :=
  ⟨rfl, hknown, hkey, rfl, hexpected, hi, trivial⟩

section ReaderSteps

variable {o : Origin} {u : Prop} {s t : CacheState} {id : ℕ} {r : Reader} {h : Handle}

/-- What the invariant says about a reader and its handle. -/
theorem CacheInvariant.reader (hinv : CacheInvariant o u s) (hr : s.readers.lookup id = some r)
    (hh : s.handles.lookup r.handle = some h) : ∃ c, o.content h.backing h.validator = some c ∧
      c.length = h.size ∧ ReaderPhaseRight o s.pool c h r := by
  obtain ⟨h', c, hh', hc, hsize, hphase⟩ := hinv.readers id r hr
  have hsame : h = h' := Option.some.inj (hh.symm.trans hh')
  subst hsame
  exact ⟨c, hc, hsize, hphase⟩

theorem CopyRight.with_phase {c : List UInt8} (hc : CopyRight c h r) (phase : ReaderPhase) :
    CopyRight c h { r with phase := phase } :=
  ⟨hc.offset_nonneg, hc.offset_lt, hc.buffer_eq, hc.buffer_le⟩

theorem CopyRight.failed {c : List UInt8} (hc : CopyRight c h r) (p : PoolState) (err : FetchError) :
    ReaderPhaseRight o p c h { r with phase := .done (some (.failed err)) } :=
  fun _ _ => hc.failedOutcome err

/-- The outcomes of the checks at the start of `ReadAt`. -/
inductive StartSpec (h : Handle) (r : Reader) : ReaderPhase → Prop
  | failed (e : FetchError) : StartSpec h r (.done (some (.failed e)))
  | empty : r.length = 0 → StartSpec h r (.done none)
  | past : h.size ≤ r.offset.toNat → StartSpec h r (.done (some .eof))
  | direct : 0 ≤ r.offset → r.offset.toNat < h.size → StartSpec h r .direct
  | cached : 0 ≤ r.offset → r.offset.toNat < h.size → StartSpec h r .beginning

theorem startRead_spec (options : RangeOptions) (h : Handle) (r : Reader)
    (expired : Option FetchError) : StartSpec h r (startRead options h r expired) := by
  unfold startRead
  split
  · exact .failed _
  · split
    · exact .failed _
    · split
      · exact .failed _
      · next hoff =>
        split
        · next hlen => exact .empty hlen
        · split
          · next hpast => exact .past hpast
          · next hpast =>
            split
            · exact .direct (by omega) (by omega)
            · exact .cached (by omega) (by omega)

theorem start_invariant (hinv : CacheInvariant o u s) (hr : s.readers.lookup id = some r)
    (hh : s.handles.lookup r.handle = some h) (expired : Option FetchError)
    (hphase : r.phase = .starting) :
    CacheInvariant o u (setReader s id
      { r with phase := startRead s.pool.shared.options h r expired }) := by
  obtain ⟨c, hc, hsize, hright⟩ := hinv.reader hr hh
  simp only [ReaderPhaseRight, hphase] at hright
  have hheld : r.held = none := by rw [Reader.held, hphase]
  have hcopy : 0 ≤ r.offset → r.offset.toNat < h.size → ∀ phase, CopyRight c h { r with phase := phase } :=
    fun hnonneg hlt phase => ⟨hnonneg, hlt, by simp [hright], by simp [hright]⟩
  generalize hnext : startRead s.pool.shared.options h r expired = phase
  have hspec := startRead_spec s.pool.shared.options h r expired
  rw [hnext] at hspec
  have hlocal : Reader.held { r with phase := phase } = r.held →
      ReaderPhaseRight o s.pool c h { r with phase := phase } →
      CacheInvariant o u (setReader s id { r with phase := phase }) :=
    fun hsame hnext => hinv.reader_local hr hh hc hsize hsame hnext
  cases hspec with
  | failed e =>
    refine hlocal (by rw [hheld]; rfl) fun _ _ => ?_
    show r.buffer <+: _
    rw [hright]
    exact List.nil_prefix
  | empty hlen =>
    refine hlocal (by rw [hheld]; rfl) fun _ _ => ?_
    refine ⟨?_, ?_, fun he => absurd he (by simp), fun hlt => ?_⟩
    · simp only [hright, hlen]
      simp
    · simp only [hright, hlen]
      simp
    · change c.length - r.offset.toNat < r.length at hlt
      omega
  | past hpast =>
    refine hlocal (by rw [hheld]; rfl) fun _ hlt => ?_
    exact absurd hpast (Nat.not_le.2 hlt)
  | direct hnonneg hlt => exact hlocal (by rw [hheld]; rfl) (hcopy hnonneg hlt _)
  | cached hnonneg hlt => exact hlocal (by rw [hheld]; rfl) (hcopy hnonneg hlt _)

theorem begin_invariant (hinv : CacheInvariant o u s) (hr : s.readers.lookup id = some r)
    (hh : s.handles.lookup r.handle = some h) (hphase : r.phase = .beginning) :
    CacheInvariant o u (setReader { (beginRead s h r.offset.toNat).1 with
        handles := (beginRead s h r.offset.toNat).1.handles.insert r.handle
          (beginRead s h r.offset.toNat).2 } id
      { r with
        context := (beginRead s h r.offset.toNat).2.readAheadContext.getD 0
        generation := (beginRead s h r.offset.toNat).2.readAheadGeneration
        phase := .copying }) := by
  obtain ⟨c, hc, hsize, hright⟩ := hinv.reader hr hh
  simp only [ReaderPhaseRight, hphase] at hright
  have hheld : r.held = none := by rw [Reader.held, hphase]
  have hsame : (beginRead s h r.offset.toNat).1.pool = s.pool ∧
      (beginRead s h r.offset.toNat).1.handles = s.handles ∧
      (beginRead s h r.offset.toNat).1.readers = s.readers ∧
      (beginRead s h r.offset.toNat).1.fetchers = s.fetchers ∧
      (beginRead s h r.offset.toNat).1.prefetchers = s.prefetchers := by
    unfold beginRead
    split <;> exact ⟨rfl, rfl, rfl, rfl, rfl⟩
  have hobject : (beginRead s h r.offset.toNat).2.backing = h.backing ∧
      (beginRead s h r.offset.toNat).2.size = h.size ∧
      (beginRead s h r.offset.toNat).2.validator = h.validator := by
    unfold beginRead
    split <;> exact ⟨rfl, rfl, rfl⟩
  generalize (beginRead s h r.offset.toNat).1 = s' at hsame ⊢
  generalize (beginRead s h r.offset.toNat).2 = h' at hobject ⊢
  obtain ⟨hpool, hhandles, hreaders, hfetchers, hprefetchers⟩ := hsame
  obtain ⟨hb, hs, hv⟩ := hobject
  rw [hhandles]
  have hkept : HandlesKept s (setReader { s' with handles := s.handles.insert r.handle h' } id { r with
      context := h'.readAheadContext.getD 0
      generation := h'.readAheadGeneration
      phase := .copying }) := .of_insert hh rfl hb hs hv
  have hpools : PoolStepRight o none s.pool s'.pool := by
    rw [hpool]
    exact .refl none hinv.books hinv.disk hinv.stored
  have hnew : (setReader { s' with handles := s.handles.insert r.handle h' } id { r with
      context := h'.readAheadContext.getD 0
      generation := h'.readAheadGeneration
      phase := .copying }).readers = s.readers.insert id { r with
      context := h'.readAheadContext.getD 0
      generation := h'.readAheadGeneration
      phase := .copying } := congrArg (AList.insert id _) hreaders
  refine hinv.reader_step hr hnew hpools hkept ?_
    (fun _ _ hf => Or.inl (by rw [← hfetchers]; exact hf)) hprefetchers ?_ ?_
  · intro id' hd hhd
    change (s.handles.insert r.handle h').lookup id' = some hd at hhd
    rw [Table.lookup_insert] at hhd
    split at hhd
    · rw [← Option.some.inj hhd, hb, hv, hs]
      exact ⟨c, hc, hsize⟩
    · exact hinv.handles id' hd hhd
  · refine ⟨h', c, ?_, by rw [hb, hv, hc], by rw [hs, hsize], ?_⟩
    · show (s.handles.insert r.handle h').lookup r.handle = some h'
      rw [Table.lookup_insert, if_pos rfl]
    · refine ReaderPhaseRight.congr (h := h) ?_ hb hs hv
      exact ⟨hright.offset_nonneg, hright.offset_lt, hright.buffer_eq, hright.buffer_le⟩
  · intro ref
    have hnone : Reader.held { r with
        context := h'.readAheadContext.getD 0
        generation := h'.readAheadGeneration
        phase := .copying } = none := rfl
    simp only [setReader, hpool, hheld, hnone]
    simp

/-- The changes of the pool that a pass through `acquireChunk` makes, with the reader moved to a
phase in which it holds nothing. -/
theorem acquire_move (hinv : CacheInvariant o u s) (hr : s.readers.lookup id = some r)
    (hh : s.handles.lookup r.handle = some h) (hphase : r.phase = .copying) {pool : PoolState}
    (hpool : PoolStepRight o none s.pool pool) (hout : pool.outstanding = s.pool.outstanding)
    {fetchers : Table ℕ Fetcher} (hfetchers : ∀ id f, fetchers.lookup id = some f →
      s.fetchers.lookup id = some f ∨ FetcherRight o pool id f) {next : Reader}
    (hhandle : next.handle = r.handle) (hheld : next.held = none)
    (hright : ∀ c, o.content h.backing h.validator = some c → c.length = h.size → CopyRight c h r →
      ReaderPhaseRight o pool c h next) :
    CacheInvariant o u (setReader { s with pool := pool, fetchers := fetchers } id next) := by
  obtain ⟨c, hc, hsize, hcopy⟩ := hinv.reader hr hh
  simp only [ReaderPhaseRight, hphase] at hcopy
  refine hinv.reader_step hr rfl hpool (.of_eq rfl) hinv.handles hfetchers rfl
    ⟨h, c, by rw [hhandle]; exact hh, hc, hsize, hright c hc hsize hcopy⟩ ?_
  intro ref
  have hnone : r.held = none := by rw [Reader.held, hphase]
  show (pool.outstanding.count ref : ℤ) = _
  rw [hout, hheld, hnone]
  simp

/-- A reader finds its chunk present. -/
theorem hit_invariant (hinv : CacheInvariant o u s) (hr : s.readers.lookup id = some r)
    (hh : s.handles.lookup r.handle = some h) (hphase : r.phase = .copying)
    (hwanted : r.buffer.length < wantedLength h r) {pool : PoolState} {entry : ChunkEntry}
    {expected : ℕ}
    (hs : AcquireSpec s.pool (readerKey o.sha256Hex s.pool.shared.options.chunkBytes h r) expected
      pool (.hit entry))
    (hcompatible : ∀ node, s.pool.disk.files.lookup
        (chunkPath (readerKey o.sha256Hex s.pool.shared.options.chunkBytes h r)) = some node →
      (s.pool.shared.chunks.lookup
        (readerKey o.sha256Hex s.pool.shared.options.chunkBytes h r)).isSome →
      CompatibleChunk node.writtenWith s.pool.shared.options.chunkBytes
        (readerChunkIndex s.pool.shared.options.chunkBytes r) h.size) :
    CacheInvariant o u (setReader { s with pool := pool } id { r with phase := .holding entry }) := by
  obtain ⟨c, hc, hsize, hcopy⟩ := hinv.reader hr hh
  simp only [ReaderPhaseRight, hphase] at hcopy
  have hpool := acquire_step (o := o) hinv.books hinv.disk hinv.stored hs
  have hout := hs.outstanding_eq
  set key := readerKey o.sha256Hex s.pool.shared.options.chunkBytes h r with hkey
  cases hs with
  | @hit e hk =>
    have hpath : (pinChunk s.pool key e).2.path = chunkPath key := hinv.books.path_eq key e hk
    obtain ⟨node, hnode⟩ := Option.isSome_iff_exists.1 (hinv.stored key e hk)
    have hbytes := hinv.disk key node hnode h.backing h.validator c hc rfl
    have hcompat := hcompatible node hnode (by rw [hk]; rfl)
    rw [← hsize] at hcompat
    refine hinv.reader_step hr rfl hpool (.of_eq rfl) hinv.handles (fun _ _ hf => Or.inl hf) rfl
      ⟨h, c, hh, hc, hsize, hcopy.with_phase _, hwanted, hpath, ?_, ⟨node, hnode, ?_⟩⟩ ?_
    · refine ⟨(pinChunk s.pool key e).2, ?_, rfl⟩
      show (pinChunk s.pool key e).1.shared.chunks.lookup key = _
      rw [lookup_pinChunk, if_pos rfl]
    · rw [hbytes]
      exact slice_compatible hcompat
    · intro ref
      have hnone : r.held = none := by rw [Reader.held, hphase]
      have hnew : Reader.held { r with phase := .holding (pinChunk s.pool key e).2 } =
          some (pinChunk s.pool key e).2.ref := rfl
      show ((pinChunk s.pool key e).1.outstanding.count ref : ℤ) = _
      rw [hout, hnone, hnew, List.count_cons]
      simp

theorem acquire_invariant (hinv : CacheInvariant o u s) (hr : s.readers.lookup id = some r)
    (hh : s.handles.lookup r.handle = some h) {expired : Option FetchError} {fails : List FilePath}
    (hcompatible : CompatibleHits o s (.acquire id expired fails))
    (hstep : stepReader o.sha256Hex s id r h (.acquire id expired fails) = some t) :
    CacheInvariant o u t := by
  obtain ⟨c, hc, hsize, hright⟩ := hinv.reader hr hh
  simp only [stepReader] at hstep
  split at hstep
  · next hguard =>
    obtain ⟨hphase, hwanted⟩ := hguard
    simp only [ReaderPhaseRight, hphase] at hright
    cases expired with
    | some e =>
      cases hstep
      refine hinv.reader_local hr hh hc hsize ?_ (hright.failed s.pool e)
      simp only [Reader.held, hphase]
    | none =>
      simp only at hstep
      have hspec := acquireChunkLocked_spec s.pool
        (readerKey o.sha256Hex s.pool.shared.options.chunkBytes h r) h.size
        (chunkLength s.pool.shared.options.chunkBytes h.size
          (readerKey o.sha256Hex s.pool.shared.options.chunkBytes h r).index) fails
      rcases hacq : acquireChunkLocked s.pool
        (readerKey o.sha256Hex s.pool.shared.options.chunkBytes h r) h.size
        (chunkLength s.pool.shared.options.chunkBytes h.size
          (readerKey o.sha256Hex s.pool.shared.options.chunkBytes h r).index) fails with ⟨pool, result⟩
      rw [hacq] at hspec hstep
      have hpool := acquire_step (o := o) hinv.books hinv.disk hinv.stored hspec
      have hout := hspec.outstanding_eq
      cases result with
      | hit entry =>
        cases hstep
        exact hit_invariant hinv hr hh hphase hwanted hspec
          fun node hnode hpresent => hcompatible r hr h hh node hnode hpresent
      | join call =>
        cases hstep
        exact acquire_move hinv hr hh hphase hpool hout (fun _ _ hf => Or.inl hf) rfl rfl
          fun _ _ _ hcopy => hcopy.with_phase _
      | wait notify =>
        cases hstep
        exact acquire_move hinv hr hh hphase hpool hout (fun _ _ hf => Or.inl hf) rfl rfl
          fun _ _ _ hcopy => hcopy.with_phase _
      | failed =>
        cases hstep
        exact acquire_move hinv hr hh hphase hpool hout (fun _ _ hf => Or.inl hf) rfl rfl
          fun _ _ _ hcopy => hcopy.failed pool .other
      | started call =>
        cases hstep
        obtain ⟨hi, hexpected⟩ := hspec.started_inflight
        refine acquire_move hinv hr hh hphase hpool hout ?_ rfl rfl
          fun _ _ _ hcopy => hcopy.with_phase _
        intro id' f hf
        rw [Table.lookup_insert] at hf
        split at hf
        · next hid =>
          rw [← Option.some.inj hf, hid]
          have hoptions := hpool.move.options_eq
          rw [← hoptions]
          refine Or.inr (newFetcher_right ⟨c, hc, hsize⟩ rfl ?_ ?_)
          · rw [hoptions]
            exact hi
          · rw [hoptions]
            exact hexpected
        · exact Or.inl hf
  · cases hstep

theorem wake_invariant (hinv : CacheInvariant o u s) (hr : s.readers.lookup id = some r)
    (hh : s.handles.lookup r.handle = some h) {expired : Option FetchError}
    (hstep : stepReader o.sha256Hex s id r h (.wake id expired) = some t) : CacheInvariant o u t := by
  obtain ⟨c, hc, hsize, hright⟩ := hinv.reader hr hh
  simp only [stepReader] at hstep
  split at hstep
  · next call hphase =>
    simp only [ReaderPhaseRight, hphase] at hright
    have hheld : r.held = none := by rw [Reader.held, hphase]
    have hfail : ∀ e, CacheInvariant o u
        (setReader s id { r with phase := .done (some (.failed e)) }) := fun e =>
      hinv.reader_local hr hh hc hsize (by rw [hheld]; rfl) (hright.failed s.pool e)
    have hloop : CacheInvariant o u (setReader s id { r with phase := .copying }) :=
      hinv.reader_local hr hh hc hsize (by rw [hheld]; rfl) (hright.with_phase _)
    split at hstep
    · cases hstep
      exact hfail _
    · split at hstep
      · cases hstep
      · cases hstep
        exact hloop
      · split at hstep
        · cases hstep
          exact hloop
        · cases hstep
          exact hfail _
  · cases hstep

theorem unpark_invariant (hinv : CacheInvariant o u s) (hr : s.readers.lookup id = some r)
    (hh : s.handles.lookup r.handle = some h) {expired : Option FetchError}
    (hstep : stepReader o.sha256Hex s id r h (.unpark id expired) = some t) :
    CacheInvariant o u t := by
  obtain ⟨c, hc, hsize, hright⟩ := hinv.reader hr hh
  simp only [stepReader] at hstep
  split at hstep
  · next notify hphase =>
    simp only [ReaderPhaseRight, hphase] at hright
    have hheld : r.held = none := by rw [Reader.held, hphase]
    split at hstep
    · cases hstep
      exact hinv.reader_local hr hh hc hsize (by rw [hheld]; rfl) (hright.failed s.pool _)
    · split at hstep
      · cases hstep
        exact hinv.reader_local hr hh hc hsize (by rw [hheld]; rfl) (hright.with_phase _)
      · cases hstep
  · cases hstep

theorem readFile_invariant (hinv : CacheInvariant o u s) (hr : s.readers.lookup id = some r)
    (hh : s.handles.lookup r.handle = some h) {fault : Option ℕ}
    (hstep : stepReader o.sha256Hex s id r h (.readFile id fault) = some t) :
    CacheInvariant o u t := by
  obtain ⟨c, hc, hsize, hright⟩ := hinv.reader hr hh
  simp only [stepReader] at hstep
  split at hstep
  · next entry hphase =>
    simp only [ReaderPhaseRight, hphase] at hright
    obtain ⟨hcopy, hold⟩ := hright
    cases hstep
    refine hinv.reader_local hr hh hc hsize ?_ (hold.readChunk hcopy hsize fault _)
    simp only [Reader.held, hphase]
  · cases hstep

/-- What a reader holds is outstanding. -/
theorem CacheInvariant.held_outstanding (hinv : CacheInvariant o u s)
    (hr : s.readers.lookup id = some r) {ref : ℕ} (hheld : r.held = some ref) :
    ref ∈ s.pool.outstanding := by
  have hle : (if r.held = some ref then (1 : ℤ) else 0) ≤ holders s.readers ref :=
    Table.le_total (f := fun _ r => if r.held = some ref then (1 : ℤ) else 0)
      (fun _ _ _ => by split <;> omega) hr
  rw [if_pos hheld, ← hinv.holders_eq ref] at hle
  exact List.count_pos_iff.1 (by omega)

theorem release_invariant (hinv : CacheInvariant o u s) (hr : s.readers.lookup id = some r)
    (hh : s.handles.lookup r.handle = some h)
    (hstep : stepReader o.sha256Hex s id r h (.release id) = some t) : CacheInvariant o u t := by
  obtain ⟨c, hc, hsize, hright⟩ := hinv.reader hr hh
  simp only [stepReader] at hstep
  split at hstep
  · next entry failed hphase =>
    simp only [ReaderPhaseRight, hphase] at hright
    have hheld : r.held = some entry.ref := by rw [Reader.held, hphase]
    have hmem := hinv.held_outstanding hr hheld
    cases hstep
    obtain ⟨hnone, hphase'⟩ : Reader.held { r with
          phase := if failed = true then .done (some (.failed .other)) else .copying } = none ∧
        ReaderPhaseRight o (releaseChunk s.pool entry.ref) c h { r with
          phase := if failed = true then .done (some (.failed .other)) else .copying } := by
      cases failed with
      | true => exact ⟨rfl, hright.failed _ .other⟩
      | false => exact ⟨rfl, hright.with_phase _⟩
    refine hinv.reader_step hr rfl (release_step hinv.books hinv.disk hinv.stored hmem) (.of_eq rfl)
      hinv.handles (fun _ _ hf => Or.inl hf) rfl ⟨h, c, hh, hc, hsize, hphase'⟩ ?_
    intro ref
    show ((s.pool.outstanding.erase entry.ref).count ref : ℤ) = _
    rw [hheld, hnone]
    by_cases href : entry.ref = ref
    · have hpos : 0 < s.pool.outstanding.count ref := List.count_pos_iff.2 (href ▸ hmem)
      rw [href, List.count_erase_self]
      simp
      omega
    · rw [List.count_erase_of_ne (Ne.symm href)]
      simp [href]
  · cases hstep

theorem finish_invariant (hinv : CacheInvariant o u s) (hr : s.readers.lookup id = some r)
    (hh : s.handles.lookup r.handle = some h)
    (hstep : stepReader o.sha256Hex s id r h (.finish id) = some t) : CacheInvariant o u t := by
  obtain ⟨c, hc, hsize, hright⟩ := hinv.reader hr hh
  simp only [stepReader] at hstep
  split at hstep
  · next hguard =>
    obtain ⟨hphase, hfull⟩ := hguard
    simp only [ReaderPhaseRight, hphase] at hright
    have hheld : r.held = none := by rw [Reader.held, hphase]
    split at hstep
    · cases hstep
      exact hinv.reader_local hr hh hc hsize (by rw [hheld]; rfl) fun _ _ => hright.complete hsize hfull
    · cases hstep
      refine hinv.reader_step hr rfl (.refl none hinv.books hinv.disk hinv.stored)
        (.of_insert hh rfl rfl rfl rfl) ?_ (fun _ _ hf => Or.inl hf) rfl
        ⟨{ h with lastReadEnd := logicalOffset r, hasLastRead := true }, c, ?_, hc, hsize, ?_⟩ ?_
      · intro id' hd hhd
        change (s.handles.insert r.handle _).lookup id' = some hd at hhd
        rw [Table.lookup_insert] at hhd
        split at hhd
        · rw [← Option.some.inj hhd]
          exact ⟨c, hc, hsize⟩
        · exact hinv.handles id' hd hhd
      · show (s.handles.insert r.handle _).lookup r.handle = some _
        rw [Table.lookup_insert, if_pos rfl]
      · exact ⟨⟨hright.offset_nonneg, hright.offset_lt, hright.buffer_eq, hright.buffer_le⟩, hfull,
          ⟨c, hc, hsize⟩⟩
      · intro ref
        rw [hheld]
        simp [setReader, Reader.held]
  · cases hstep

/-- One round of background scheduling: the pool moves, a new fetch is right, and what is left of
the loop works on the same object. -/
theorem scheduleRound_spec (hinv : CacheInvariant o u s) {run : BackgroundRun} (hrun : RunRight o run)
    (done : Bool) (fails : List FilePath) {pool : PoolState} {fetcher : Option Fetcher}
    {rest : Option BackgroundRun}
    (hround : scheduleRound o.sha256Hex s.pool run done fails = (pool, fetcher, rest)) :
    PoolStepRight o none s.pool pool ∧ pool.outstanding = s.pool.outstanding ∧
      (∀ id f, (addFetcher s.fetchers fetcher).lookup id = some f →
        s.fetchers.lookup id = some f ∨ FetcherRight o pool id f) ∧
      ∀ run', rest = some run' → RunRight o run' := by
  unfold scheduleRound at hround
  simp only at hround
  split at hround
  · simp only [Prod.mk.injEq] at hround
    obtain ⟨rfl, rfl, rfl⟩ := hround
    exact ⟨(.refl none hinv.books hinv.disk hinv.stored), rfl, fun _ _ hf => Or.inl hf,
      fun _ h => absurd h (by simp)⟩
  · set key : ChunkKey := ⟨objectCacheKey o.sha256Hex run.backing run.validator, run.next⟩
    have hspec := scheduleChunkLocked_spec s.pool key run.logicalSize
      (chunkLength s.pool.shared.options.chunkBytes run.logicalSize run.next) run.kind run.keep fails
    have hrest : ∀ run', some { run with next := run.next + 1, remaining := run.remaining - 1 } =
        some run' → RunRight o run' := by
      intro run' heq
      rw [← Option.some.inj heq]
      exact hrun
    split at hround
    · next u hu =>
      rw [hu] at hspec
      simp only [Prod.mk.injEq] at hround
      obtain ⟨rfl, rfl, rfl⟩ := hround
      exact ⟨schedule_step hinv.books hinv.disk hinv.stored hspec, hspec.outstanding_eq,
        fun _ _ hf => Or.inl hf, hrest⟩
    · next u hu =>
      rw [hu] at hspec
      simp only [Prod.mk.injEq] at hround
      obtain ⟨rfl, rfl, rfl⟩ := hround
      exact ⟨schedule_step hinv.books hinv.disk hinv.stored hspec, hspec.outstanding_eq,
        fun _ _ hf => Or.inl hf, fun _ h => absurd h (by simp)⟩
    · next u call hu =>
      rw [hu] at hspec
      simp only [Prod.mk.injEq] at hround
      obtain ⟨rfl, rfl, rfl⟩ := hround
      have hpool := schedule_step (o := o) hinv.books hinv.disk hinv.stored hspec
      obtain ⟨hi, hexpected⟩ := hspec.started_inflight
      refine ⟨hpool, hspec.outstanding_eq, ?_, hrest⟩
      intro id' f hf
      change (s.fetchers.insert call.ref _).lookup id' = some f at hf
      rw [Table.lookup_insert] at hf
      split at hf
      · next hid =>
        have hoptions := hpool.move.options_eq
        rw [← Option.some.inj hf, hid, ← hoptions]
        refine Or.inr (newFetcher_right hrun rfl hi ?_)
        rw [hoptions]
        exact hexpected
      · exact Or.inl hf

theorem schedule_invariant (hinv : CacheInvariant o u s) (hr : s.readers.lookup id = some r)
    (hh : s.handles.lookup r.handle = some h) {fails : List FilePath}
    (hstep : stepReader o.sha256Hex s id r h (.schedule id fails) = some t) :
    CacheInvariant o u t := by
  obtain ⟨c, hc, hsize, hright⟩ := hinv.reader hr hh
  simp only [stepReader] at hstep
  split at hstep
  · next run hphase =>
    simp only [ReaderPhaseRight, hphase] at hright
    obtain ⟨hcopy, hfull, hrun⟩ := hright
    have hheld : r.held = none := by rw [Reader.held, hphase]
    rcases hround : scheduleRound o.sha256Hex s.pool run (contextDone s run.context) fails
      with ⟨pool, fetcher, rest⟩
    rw [hround] at hstep
    obtain ⟨hpool, hout, hfetchers, hrest⟩ := scheduleRound_spec hinv hrun _ fails hround
    cases hstep
    obtain ⟨hnone, hphase'⟩ : Reader.held { r with phase := schedulingPhase h r rest } = none ∧
        ReaderPhaseRight o pool c h { r with phase := schedulingPhase h r rest } := by
      cases rest with
      | some run' => exact ⟨rfl, hcopy.with_phase _, hfull, hrest run' rfl⟩
      | none => exact ⟨rfl, fun _ _ => hcopy.complete hsize hfull⟩
    refine hinv.reader_step hr rfl hpool (.of_eq rfl) hinv.handles hfetchers rfl
      ⟨h, c, hh, hc, hsize, hphase'⟩ ?_
    intro ref
    show (pool.outstanding.count ref : ℤ) = _
    rw [hout, hheld, hnone]
    simp
  · cases hstep

theorem direct_invariant (hinv : CacheInvariant o u s) (hr : s.readers.lookup id = some r)
    (hh : s.handles.lookup r.handle = some h) {attempts : List (RangeRead × Bool)}
    (hfaithful : Faithful o s (.direct id attempts))
    (hstep : stepReader o.sha256Hex s id r h (.direct id attempts) = some t) :
    CacheInvariant o u t := by
  obtain ⟨c, hc, hsize, hright⟩ := hinv.reader hr hh
  simp only [stepReader] at hstep
  split at hstep
  · next hphase =>
    simp only [ReaderPhaseRight, hphase] at hright
    have hheld : r.held = none := by rw [Reader.held, hphase]
    split at hstep
    · split at hstep
      · cases hstep
        exact hinv.reader_local hr hh hc hsize (by rw [hheld]; rfl) (hright.failed s.pool _)
      · cases hstep
    · split at hstep
      · cases hstep
      · next result hresult =>
        cases hstep
        obtain ⟨attempt, hmem, rfl⟩ := directAttempts_mem hresult
        have hexact := hfaithful r hr h hh c hc attempt.1 (List.mem_map_of_mem hmem)
        have hoff : r.offset.toNat ≤ c.length := by
          have := hright.offset_lt
          omega
        refine hinv.reader_step hr rfl
          ⟨.of_same rfl rfl rfl rfl, { hinv.books with }, hinv.disk, hinv.stored, fun _ _ h => Or.inl h⟩
          (.of_eq rfl)
          hinv.handles (fun _ _ hf => Or.inl hf) rfl
          ⟨h, c, hh, hc, hsize, fun _ _ => hexact.outcome hoff⟩ ?_
        intro ref
        rw [hheld]
        simp [setReader, Reader.held]
  · cases hstep

/-- Every step of a reader keeps the invariant. -/
theorem stepReader_invariant (hinv : CacheInvariant o u s) (hr : s.readers.lookup id = some r)
    (hh : s.handles.lookup r.handle = some h) {a : CacheLabel} (hactor : actor a = .reader id)
    (hfaithful : Faithful o s a) (hcompatible : CompatibleHits o s a)
    (hstep : stepReader o.sha256Hex s id r h a = some t) : CacheInvariant o u t := by
  cases a <;> simp only [actor, Actor.reader.injEq, reduceCtorEq] at hactor <;> subst hactor
  case start expired =>
    simp only [stepReader] at hstep
    split at hstep
    · next hphase =>
      cases hstep
      exact start_invariant hinv hr hh expired hphase
    · cases hstep
  case begin =>
    simp only [stepReader] at hstep
    split at hstep
    · next hphase =>
      cases hstep
      exact begin_invariant hinv hr hh hphase
    · cases hstep
  case acquire => exact acquire_invariant hinv hr hh hcompatible hstep
  case wake => exact wake_invariant hinv hr hh hstep
  case unpark => exact unpark_invariant hinv hr hh hstep
  case readFile => exact readFile_invariant hinv hr hh hstep
  case release => exact release_invariant hinv hr hh hstep
  case finish => exact finish_invariant hinv hr hh hstep
  case schedule => exact schedule_invariant hinv hr hh hstep
  case direct => exact direct_invariant hinv hr hh hfaithful hstep

end ReaderSteps

/-! ## Steps of a fetch -/

section FetcherSteps

variable {o : Origin} {u : Prop} {s t : CacheState} {id : ℕ} {f : Fetcher}

/-- A fetch moves on while its own files may change. -/
theorem FetcherRight.update {p q : PoolState} (h : FetcherRight o p id f)
    (hshared : q.shared = p.shared) {attempt : ℕ} {phase : FetchPhase}
    (hphase : FetchPhaseRight o q { f with attempt := attempt, phase := phase }) :
    FetcherRight o q id { f with attempt := attempt, phase := phase } where
  ref_eq := h.ref_eq
  known := h.known
  key_eq := h.key_eq
  offset_eq := by rw [hshared]; exact h.offset_eq
  expected_eq := by rw [hshared]; exact h.expected_eq
  inflight := by rw [hshared]; exact h.inflight
  phase := hphase

theorem CacheInvariant.fetcher_step (hinv : CacheInvariant o u s)
    (hf : s.fetchers.lookup id = some f) {d : Disk}
    (hp : PoolStepRight o (some f.key) s.pool { s.pool with disk := d }) {attempt : ℕ}
    {phase : FetchPhase} (hphase : FetchPhaseRight o { s.pool with disk := d }
      { f with attempt := attempt, phase := phase }) :
    CacheInvariant o u (setFetcher { s with pool := { s.pool with disk := d } } id
      { f with attempt := attempt, phase := phase }) := by
  have hright : FetcherRight o { s.pool with disk := d } id
      { f with attempt := attempt, phase := phase } :=
    (hinv.fetchers id f hf).update (q := { s.pool with disk := d }) rfl hphase
  refine hinv.of_step hp (.of_eq rfl) hinv.handles ?_ hinv.prefetchers (fun _ _ hr => Or.inl hr)
    hinv.holders_eq
  intro id' f₀ hf₀
  change (s.fetchers.insert id _).lookup id' = some f₀ at hf₀
  rw [Table.lookup_insert] at hf₀
  split at hf₀
  · next hid =>
    rw [← Option.some.inj hf₀, hid]
    exact Or.inr hright
  · next hid =>
    refine Or.inl ⟨hf₀, fun hkey => ?_⟩
    exact hid (hinv.fetcher_unique hf₀ hf (Option.some.inj hkey).symm)

/-- A step of a fetch that touches no file. -/
theorem CacheInvariant.fetcher_local (hinv : CacheInvariant o u s)
    (hf : s.fetchers.lookup id = some f) {attempt : ℕ} {phase : FetchPhase}
    (hphase : FetchPhaseRight o s.pool { f with attempt := attempt, phase := phase }) :
    CacheInvariant o u (setFetcher s id { f with attempt := attempt, phase := phase }) :=
  hinv.fetcher_step (d := s.pool.disk) hf (.refl _ hinv.books hinv.disk hinv.stored) hphase

theorem retryFetch_invariant (hinv : CacheInvariant o u s) (hf : s.fetchers.lookup id = some f)
    (err : FetchError) (expired : Bool) :
    CacheInvariant o u (setFetcher s id (retryFetch f err expired)) := by
  unfold retryFetch
  split
  · exact hinv.fetcher_local hf trivial
  · refine hinv.fetcher_local hf ?_
    exact fun h => absurd h (by simp)

theorem openFetch_invariant (hinv : CacheInvariant o u s) (hf : s.fetchers.lookup id = some f)
    (outcome : OpenOutcome) (closeErr : Option FetchError) (expired : Bool) :
    CacheInvariant o u (setFetcher s id (openFetch f outcome closeErr expired)) := by
  unfold openFetch
  split
  · exact retryFetch_invariant hinv hf _ expired
  · split
    · refine hinv.fetcher_local hf ?_
      exact fun h => absurd h (by simp)
    · exact hinv.fetcher_local hf trivial

theorem closeFetch_invariant (hinv : CacheInvariant o u s) (hf : s.fetchers.lookup id = some f)
    {stored : Bool} {err : Option FetchError} (hphase : f.phase = .closing stored err)
    (closeErr : Option FetchError) (expired : Bool) :
    CacheInvariant o u (setFetcher s id (closeFetch f stored err closeErr expired)) := by
  have hright := (hinv.fetchers id f hf).phase
  simp only [FetchPhaseRight, hphase] at hright
  unfold closeFetch
  split
  · refine hinv.fetcher_local hf ?_
    exact hright
  · split
    · next hstored =>
      refine hinv.fetcher_local hf ?_
      exact fun _ => hright hstored
    · exact retryFetch_invariant hinv hf _ expired

/-- Removing a temporary file of a fetch. -/
theorem tryRemove_step (hinv : CacheInvariant o u s) (hf : s.fetchers.lookup id = some f)
    {path : FilePath} (hown : ownFile f.key path = true) (removed : Bool) :
    PoolStepRight o (some f.key) s.pool { s.pool with disk := tryRemove s.pool.disk path removed } := by
  cases removed with
  | false => exact .refl _ hinv.books hinv.disk hinv.stored
  | true =>
    refine remove_step hinv.books hinv.disk hinv.stored ?_ hown
    rw [(hinv.fetchers id f hf).inflight]
    rfl

/-- A failed attempt removes its file and closes its source. -/
theorem abandon_invariant (hinv : CacheInvariant o u s) (hf : s.fetchers.lookup id = some f)
    {path : FilePath} (hown : ownFile f.key path = true) (removed : Bool) (err : FetchError) :
    CacheInvariant o u (setFetcher
      { s with pool := { s.pool with disk := tryRemove s.pool.disk path removed } } id
      { f with phase := .closing false (some err) }) := by
  refine hinv.fetcher_step hf (tryRemove_step hinv hf hown removed) ?_
  exact fun h => absurd h (by simp)

theorem ownFile_temporary {key : ChunkKey} {path : FilePath}
    (h : isFetchTemporary path.name = true) : ownFile key path = true := by
  rw [ownFile, h, Bool.or_true]

theorem write_own (hinv : CacheInvariant o u s) (hf : s.fetchers.lookup id = some f) {path : FilePath}
    (hown : ownFile f.key path = true) {node : FileNode}
    (hright : ∀ k, chunkPath k = path →
      RightFile o k node ∧ node.writtenWith = s.pool.shared.options.chunkBytes) :
    PoolStepRight o (some f.key) s.pool { s.pool with disk := s.pool.disk.write path node } := by
  refine write_step hinv.books hinv.disk hinv.stored ?_ hown hright
  rw [(hinv.fetchers id f hf).inflight]
  rfl

/-- Directories play no part in the invariant. -/
theorem PoolStepRight.mkdir {own : Option ChunkKey} {p q : PoolState}
    (h : PoolStepRight o own p q) {d : Disk} (hfiles : d.files = q.disk.files) :
    PoolStepRight o own p { q with disk := d } where
  move := ⟨h.move.options_eq, fun k e hk hp => by
      obtain ⟨e', he', href, hpath, hsize, hfile⟩ := h.move.pinned k e hk hp
      exact ⟨e', he', href, hpath, hsize, by rw [hfiles, hfile]⟩, h.move.inflight_kept,
    fun k call hne hk => by rw [hfiles]; exact h.move.file_kept k call hne hk⟩
  books := { h.books with }
  disk := fun k node hn => h.disk k node (by rw [← hfiles]; exact hn)
  stored := fun k e hk => by rw [hfiles]; exact h.stored k e hk
  files := fun k node hn => h.files k node (by rw [← hfiles]; exact hn)

/-- Two changes of files in a row. -/
theorem PoolStepRight.trans_disk {own : Option ChunkKey} {p q : PoolState} {d : Disk}
    (h₁ : PoolStepRight o own p { p with disk := d })
    (h₂ : PoolStepRight o own { p with disk := d } q) : PoolStepRight o own p q where
  move := ⟨h₂.move.options_eq, fun k e hk hp => by
      obtain ⟨-, -, -, -, -, hfile₁⟩ := h₁.move.pinned k e hk hp
      obtain ⟨e', he', href, hpath, hsize, hfile₂⟩ := h₂.move.pinned k e hk hp
      exact ⟨e', he', href, hpath, hsize, hfile₂.trans hfile₁⟩, h₂.move.inflight_kept,
    fun k call hne hk => (h₂.move.file_kept k call hne hk).trans (h₁.move.file_kept k call hne hk)⟩
  books := h₂.books
  disk := h₂.disk
  stored := h₂.stored
  files := fun k node hn => by
    rcases h₂.files k node hn with hn | hn
    · exact h₁.files k node hn
    · exact Or.inr hn

theorem create_invariant (hinv : CacheInvariant o u s) (hf : s.fetchers.lookup id = some f)
    {made : Bool} {suffix : Option String}
    (hstep : stepFetcher s id f (.fetchCreate id made suffix) = some t) : CacheInvariant o u t := by
  simp only [stepFetcher] at hstep
  split at hstep
  · have hfiles : (if made then s.pool.disk.mkdir f.key.object else s.pool.disk).files =
        s.pool.disk.files := by
      cases made <;> rfl
    cases suffix with
    | none =>
      cases hstep
      refine hinv.fetcher_step hf ?_ ?_
      · exact PoolStepRight.mkdir (q := s.pool) (.refl _ hinv.books hinv.disk hinv.stored) hfiles
      · exact fun h => absurd h (by simp)
    | some suffix =>
      simp only at hstep
      split at hstep
      · cases hstep
      · cases hstep
        have htemp := isFetchTemporary_prefix suffix
        have hwrite : PoolStepRight o (some f.key) s.pool { s.pool with
            disk := s.pool.disk.write ⟨f.key.object, ".fetch-" ++ suffix⟩ ⟨.regular, [], 0, 0⟩ } :=
          write_own hinv hf (ownFile_temporary htemp)
            fun k hk => absurd hk (chunkPath_ne_temporary htemp)
        refine hinv.fetcher_step hf (hwrite.mkdir ?_) ?_
        · simp only [Disk.write, hfiles]
        · exact htemp
  · cases hstep

theorem fetchRead_invariant (hinv : CacheInvariant o u s) (hf : s.fetchers.lookup id = some f)
    {result : RangeRead} {removed : Bool} (hfaithful : Faithful o s (.fetchRead id result removed))
    (hstep : stepFetcher s id f (.fetchRead id result removed) = some t) : CacheInvariant o u t := by
  have hright := hinv.fetchers id f hf
  simp only [stepFetcher] at hstep
  split at hstep
  · next temporary hphase =>
    have htemp := hright.phase
    simp only [FetchPhaseRight, hphase] at htemp
    split at hstep
    · cases hstep
      exact abandon_invariant hinv hf (ownFile_temporary htemp) removed _
    · next hnone =>
      cases hstep
      refine hinv.fetcher_local hf ?_
      refine ⟨htemp, fun c hc => ?_⟩
      have hexact := hfaithful f hf c hc result List.mem_cons_self
      unfold ExactRead at hexact
      unfold fetchReadError at hnone
      cases herr : result.err with
      | none =>
        rw [herr] at hexact
        exact hexact.1
      | some e =>
        rw [herr] at hexact hnone
        cases e with
        | eof => exact hexact.1
        | failed e => simp at hnone
  · cases hstep

theorem fetchWrite_invariant (hinv : CacheInvariant o u s) (hf : s.fetchers.lookup id = some f)
    {ok removed : Bool} (hstep : stepFetcher s id f (.fetchWrite id ok removed) = some t) :
    CacheInvariant o u t := by
  have hright := (hinv.fetchers id f hf).phase
  simp only [stepFetcher] at hstep
  split at hstep
  · next temporary buffer hphase =>
    simp only [FetchPhaseRight, hphase] at hright
    obtain ⟨htemp, hbuffer⟩ := hright
    split at hstep
    · cases hstep
      refine hinv.fetcher_step hf
        (write_own hinv hf (ownFile_temporary htemp)
          fun k hk => absurd hk (chunkPath_ne_temporary htemp)) ?_
      exact ⟨htemp, hbuffer⟩
    · cases hstep
      exact abandon_invariant hinv hf (ownFile_temporary htemp) removed _
  · cases hstep

/-- The file a fetch publishes is right. -/
theorem published_right (ho : o.CollisionFree) (hinv : CacheInvariant o u s)
    (hf : s.fetchers.lookup id = some f) {buffer : List UInt8}
    (hbuffer : ∀ c, o.content f.backing f.validator = some c →
      buffer = slice c f.offset f.call.expected) (modified : ℤ) :
    RightFile o f.key ⟨.regular, buffer, modified, s.pool.shared.options.chunkBytes⟩ := by
  have hright := hinv.fetchers id f hf
  intro b v c hc hkey
  obtain ⟨c', hc', hsize⟩ := hright.known
  rw [hright.key_eq] at hkey
  obtain ⟨rfl, rfl⟩ := ho.key_injective (by rw [hc']; rfl) (by rw [hc]; rfl) hkey
  have hsame : c' = c := Option.some.inj (hc'.symm.trans hc)
  subst hsame
  show buffer = slice c' (f.key.index * s.pool.shared.options.chunkBytes) s.pool.shared.options.chunkBytes
  rw [hbuffer c' hc', hright.offset_eq, hright.expected_eq, ← hsize, slice_clip c' _
    s.pool.shared.options.chunkBytes, chunkLength]

theorem fetchRename_invariant (ho : o.CollisionFree) (hinv : CacheInvariant o u s)
    (hf : s.fetchers.lookup id = some f) {ok removed : Bool} {modified : ℤ}
    (hstep : stepFetcher s id f (.fetchRename id ok removed modified) = some t) :
    CacheInvariant o u t := by
  have hright := (hinv.fetchers id f hf).phase
  simp only [stepFetcher] at hstep
  split at hstep
  · next temporary buffer hphase =>
    simp only [FetchPhaseRight, hphase] at hright
    obtain ⟨htemp, hbuffer⟩ := hright
    split at hstep
    · cases hstep
      have hremove := tryRemove_step hinv hf (ownFile_temporary htemp) true
      have hi : (s.pool.shared.inflight.lookup f.key).isSome := by
        rw [(hinv.fetchers id f hf).inflight]
        rfl
      have hwrite : PoolStepRight o (some f.key) { s.pool with disk := s.pool.disk.remove temporary }
          { s.pool with
            disk := (s.pool.disk.remove temporary).write (chunkPath f.key)
              ⟨.regular, buffer, modified, s.pool.shared.options.chunkBytes⟩ } :=
        write_step hremove.books hremove.disk hremove.stored hi (by simp [ownFile])
          fun k hk => ⟨chunkPath_injective hk ▸ published_right ho hinv hf hbuffer modified, rfl⟩
      refine hinv.fetcher_step hf (hremove.trans_disk hwrite) ?_
      show (((s.pool.disk.remove temporary).write _ _).files.lookup (chunkPath f.key)).isSome
      rw [Disk.lookup_write, if_pos rfl]
      rfl
    · cases hstep
      exact abandon_invariant hinv hf (ownFile_temporary htemp) removed _
  · cases hstep

theorem fetchSeal_invariant (hinv : CacheInvariant o u s) (hf : s.fetchers.lookup id = some f)
    {ok removed : Bool} (hstep : stepFetcher s id f (.fetchSeal id ok removed) = some t) :
    CacheInvariant o u t := by
  have hright := (hinv.fetchers id f hf).phase
  simp only [stepFetcher] at hstep
  split at hstep
  · next hphase =>
    simp only [FetchPhaseRight, hphase] at hright
    split at hstep
    · cases hstep
      refine hinv.fetcher_local hf ?_
      exact fun _ => hright
    · cases hstep
      exact abandon_invariant hinv hf (by simp [ownFile]) removed _
  · cases hstep

theorem fetchComplete_invariant (hinv : CacheInvariant o u s) (hf : s.fetchers.lookup id = some f)
    (hstep : stepFetcher s id f (.fetchComplete id) = some t) : CacheInvariant o u t := by
  have hright := hinv.fetchers id f hf
  simp only [stepFetcher] at hstep
  split at hstep
  · next stored err hphase =>
    have hfile := hright.phase
    simp only [FetchPhaseRight, hphase] at hfile
    cases hstep
    have hpool := complete_step (o := o) hinv.books hinv.disk hinv.stored hright.inflight stored err hfile
    have hout : (completeFetch s.pool f.key f.call stored err).outstanding = s.pool.outstanding := by
      obtain ⟨u, hu, heq⟩ := completeFetch_evicted s.pool f.key f.call stored err
      rw [heq]
      show u.outstanding = _
      rw [hu.outstanding_eq]
      cases stored <;> rfl
    refine hinv.of_step hpool (.of_eq rfl) hinv.handles ?_ hinv.prefetchers
      (fun _ _ hr => Or.inl hr) ?_
    · intro id' f' hf'
      change (s.fetchers.erase id).lookup id' = some f' at hf'
      rw [Table.lookup_erase] at hf'
      split at hf'
      · cases hf'
      · next hid =>
        refine Or.inl ⟨hf', fun hkey => ?_⟩
        exact hid (hinv.fetcher_unique hf' hf (Option.some.inj hkey).symm)
    · intro ref
      show ((completeFetch s.pool f.key f.call stored err).outstanding.count ref : ℤ) = _
      rw [hout]
      exact hinv.holders_eq ref
  · cases hstep

/-- Every step of a fetch keeps the invariant. -/
theorem stepFetcher_invariant (ho : o.CollisionFree) (hinv : CacheInvariant o u s)
    (hf : s.fetchers.lookup id = some f) {a : CacheLabel} (hactor : actor a = .fetcher id)
    (hfaithful : Faithful o s a) (hstep : stepFetcher s id f a = some t) : CacheInvariant o u t := by
  cases a <;> simp only [actor, Actor.fetcher.injEq, reduceCtorEq] at hactor <;> subst hactor
  case fetchOpen outcome closeErr expired =>
    simp only [stepFetcher] at hstep
    split at hstep
    · cases hstep
      exact openFetch_invariant hinv hf outcome closeErr expired
    · cases hstep
  case fetchCreate => exact create_invariant hinv hf hstep
  case fetchRead => exact fetchRead_invariant hinv hf hfaithful hstep
  case fetchWrite => exact fetchWrite_invariant hinv hf hstep
  case fetchRename => exact fetchRename_invariant ho hinv hf hstep
  case fetchSeal => exact fetchSeal_invariant hinv hf hstep
  case fetchClose closeErr expired =>
    simp only [stepFetcher] at hstep
    split at hstep
    · next stored err hphase =>
      cases hstep
      exact closeFetch_invariant hinv hf hphase closeErr expired
    · cases hstep
  case fetchComplete => exact fetchComplete_invariant hinv hf hstep

end FetcherSteps

end BlackPearl.Cache
