import BlackPearl.Cache.Sections

/-!
# What the other goroutines leave to the fetches

A step that belongs to no fetch removes files only together with their entries, leaves the fetches
alone and at most starts one (`cacheStep_fetch_cases`). Recovery leaves no file but those of the
index (`recovered_indexed`).
-/

set_option autoImplicit false

namespace BlackPearl.Cache

open BlackPearl.Library BlackPearl.Domain

/-! ## Sections that belong to no fetch -/

/-- Files are removed only together with their entries. -/
structure KeepsIndexed (p q : PoolState) : Prop where
  files_sub : ∀ path node, q.disk.files.lookup path = some node → p.disk.files.lookup path = some node
  files_kept : ∀ path, (∀ k e, p.shared.chunks.lookup k = some e → e.path ≠ path) →
    q.disk.files.lookup path = p.disk.files.lookup path
  indexed : ∀ k e, p.shared.chunks.lookup k = some e →
    (q.shared.chunks.lookup k).isSome ∨ q.disk.files.lookup e.path = none
  nextCall_le : p.nextCall ≤ q.nextCall

section Pool

variable {p q : PoolState}

/-- No file is touched and no entry dropped. -/
theorem KeepsIndexed.of_files (hfiles : q.disk.files = p.disk.files)
    (hchunks : ∀ k e, p.shared.chunks.lookup k = some e → (q.shared.chunks.lookup k).isSome)
    (hcall : p.nextCall ≤ q.nextCall) : KeepsIndexed p q where
  files_sub := by
    intro path node h
    rwa [hfiles] at h
  files_kept := by
    intro path _
    rw [hfiles]
  indexed k e h := Or.inl (hchunks k e h)
  nextCall_le := hcall

theorem KeepsIndexed.refl (p : PoolState) : KeepsIndexed p p :=
  .of_files rfl (fun k e h => by rw [h]; rfl) (Nat.le_refl _)

/-- An eviction takes the file away with the entry. -/
theorem Evicted.keepsIndexed {u : PoolState} (h : Evicted p u) (hfiles : q.disk.files = u.disk.files)
    (hchunks : q.shared.chunks = u.shared.chunks) (hcall : u.nextCall ≤ q.nextCall) :
    KeepsIndexed p q where
  files_sub := by
    intro path node hnode
    rw [hfiles] at hnode
    exact h.files_sub path node hnode
  files_kept := by
    intro path hfree
    rw [hfiles]
    exact h.files_kept path fun k e he _ => hfree k e he
  indexed := by
    intro k e he
    rw [hfiles, hchunks]
    cases hu : u.shared.chunks.lookup k with
    | none => exact Or.inr (h.files_dropped k e he hu)
    | some e' => exact Or.inl rfl
  nextCall_le := h.nextCall_eq ▸ hcall

theorem AcquireSpec.keepsIndexed {key : ChunkKey} {expected : ℕ} {r : AcquireResult}
    (h : AcquireSpec p key expected q r) : KeepsIndexed p q := by
  cases h with
  | @hit entry hentry =>
    refine .of_files rfl (fun k e hk => ?_) (Nat.le_refl _)
    rw [lookup_pinChunk]
    split
    · rfl
    · rw [hk]
      rfl
  | join _ _ => exact .refl p
  | failed hev => exact hev.keepsIndexed rfl rfl (Nat.le_refl _)
  | wait hev => exact hev.keepsIndexed rfl rfl (Nat.le_refl _)
  | started _ _ hev _ heq =>
    subst heq
    exact hev.keepsIndexed rfl rfl (Nat.le_succ _)

theorem ScheduleSpec.keepsIndexed {key : ChunkKey} {expected : ℕ} {kind : BackgroundFetchKind}
    {r : ScheduleResult} (h : ScheduleSpec p key expected kind q r) : KeepsIndexed p q := by
  cases h with
  | present => exact .refl p
  | refused hev => exact hev.keepsIndexed rfl rfl (Nat.le_refl _)
  | started _ _ hev _ =>
    cases kind with
    | none => exact hev.keepsIndexed rfl rfl (Nat.le_succ _)
    | readAhead => exact hev.keepsIndexed rfl rfl (Nat.le_succ _)
    | nextEpisode => exact hev.keepsIndexed rfl rfl (Nat.le_succ _)

theorem releaseChunk_keepsIndexed (p : PoolState) (ref : ℕ) : KeepsIndexed p (releaseChunk p ref) := by
  refine .of_files rfl (fun k e hk => ?_) (Nat.le_refl _)
  rw [lookup_releaseChunk, hk]
  rfl

/-- The calls that are started get addresses that were free. -/
theorem AcquireSpec.started_ref {key : ChunkKey} {expected : ℕ} {call : FetchCall}
    (h : AcquireSpec p key expected q (.started call)) : p.nextCall ≤ call.ref ∧ call.ref < q.nextCall := by
  cases h with
  | @started u t _ _ hev _ heq =>
    subst heq
    exact ⟨hev.nextCall_eq.ge, Nat.lt_succ_self _⟩

theorem ScheduleSpec.started_ref {key : ChunkKey} {expected : ℕ} {kind : BackgroundFetchKind}
    {call : FetchCall} (h : ScheduleSpec p key expected kind q (.started call)) :
    p.nextCall ≤ call.ref ∧ call.ref < q.nextCall := by
  cases h with
  | @started u _ _ hev _ =>
    cases kind with
    | none => exact ⟨hev.nextCall_eq.ge, Nat.lt_succ_self _⟩
    | readAhead => exact ⟨hev.nextCall_eq.ge, Nat.lt_succ_self _⟩
    | nextEpisode => exact ⟨hev.nextCall_eq.ge, Nat.lt_succ_self _⟩

end Pool

/-! ## Steps that belong to no fetch -/

/-- Such a step leaves the fetches alone, and at most starts one. -/
structure LeavesFetches (s t : CacheState) : Prop where
  pool : KeepsIndexed s.pool t.pool
  kept : ∀ id f, s.fetchers.lookup id = some f → t.fetchers.lookup id = some f
  started : ∀ id f, t.fetchers.lookup id = some f → s.fetchers.lookup id = some f ∨
    (s.pool.nextCall ≤ id ∧ id < t.pool.nextCall ∧ f.phase = .opening)

section Steps

variable {sha256Hex : String → String} {s t : CacheState} {id : ℕ}

theorem LeavesFetches.of_pool (hpool : KeepsIndexed s.pool t.pool) (hf : t.fetchers = s.fetchers) :
    LeavesFetches s t where
  pool := hpool
  kept := by
    intro id f h
    rwa [hf]
  started := by
    intro id f h
    rw [hf] at h
    exact Or.inl h

/-- Every fetch has an address that is taken. -/
def FetchersBelow (s : CacheState) : Prop :=
  ∀ id f, s.fetchers.lookup id = some f → id < s.pool.nextCall

theorem LeavesFetches.of_insert (hbelow : FetchersBelow s) (hpool : KeepsIndexed s.pool t.pool)
    {f : Fetcher} (hphase : f.phase = .opening)
    (href : s.pool.nextCall ≤ f.call.ref ∧ f.call.ref < t.pool.nextCall)
    (hf : t.fetchers = s.fetchers.insert f.call.ref f) : LeavesFetches s t where
  pool := hpool
  kept := by
    intro id f' h
    rw [hf, Table.lookup_insert, if_neg]
    · exact h
    · intro heq
      have hlt := hbelow id f' h
      have hge := href.1
      omega
  started := by
    intro id f' h
    rw [hf, Table.lookup_insert] at h
    split at h
    · next hid =>
      obtain rfl := Option.some.inj h
      rw [hid]
      exact Or.inr ⟨href.1, href.2, hphase⟩
    · exact Or.inl h

theorem acquire_leaves (hbelow : FetchersBelow s) {r : Reader} {h : Handle} {expired : Option FetchError}
    {fails : List FilePath} (hstep : stepReader sha256Hex s id r h (.acquire id expired fails) = some t) :
    LeavesFetches s t := by
  simp only [stepReader] at hstep
  split at hstep
  · cases expired with
    | some e =>
      cases hstep
      exact .of_pool (.refl _) rfl
    | none =>
      simp only at hstep
      have hspec := acquireChunkLocked_spec s.pool
        (readerKey sha256Hex s.pool.shared.options.chunkBytes h r) h.size
        (chunkLength s.pool.shared.options.chunkBytes h.size
          (readerKey sha256Hex s.pool.shared.options.chunkBytes h r).index) fails
      split at hstep
      · next pool entry heq =>
        rw [heq] at hspec
        cases hstep
        exact .of_pool hspec.keepsIndexed rfl
      · next pool call heq =>
        rw [heq] at hspec
        cases hstep
        exact .of_pool hspec.keepsIndexed rfl
      · next pool notify heq =>
        rw [heq] at hspec
        cases hstep
        exact .of_pool hspec.keepsIndexed rfl
      · next pool heq =>
        rw [heq] at hspec
        cases hstep
        exact .of_pool hspec.keepsIndexed rfl
      · next pool call heq =>
        rw [heq] at hspec
        cases hstep
        exact .of_insert hbelow hspec.keepsIndexed
          (f := newFetcher call none (readerKey sha256Hex s.pool.shared.options.chunkBytes h r)
            h.backing h.validator h.size s.pool.shared.options.chunkBytes) rfl hspec.started_ref rfl
  · cases hstep

/-- A round of background scheduling. -/
theorem scheduleRound_leaves (hbelow : FetchersBelow s) (run : BackgroundRun) (ended : Bool)
    (fails : List FilePath)
    (hpool : t.pool = (scheduleRound sha256Hex s.pool run ended fails).1)
    (hf : t.fetchers = addFetcher s.fetchers (scheduleRound sha256Hex s.pool run ended fails).2.1) :
    LeavesFetches s t := by
  unfold scheduleRound at hpool hf
  simp only at hpool hf
  split at hpool
  · next hstop =>
    rw [if_pos hstop] at hf
    exact .of_pool (hpool ▸ .refl _) hf
  · next hgo =>
    rw [if_neg hgo] at hf
    have hspec := scheduleChunkLocked_spec s.pool
      ⟨objectCacheKey sha256Hex run.backing run.validator, run.next⟩ run.logicalSize
      (chunkLength s.pool.shared.options.chunkBytes run.logicalSize run.next) run.kind run.keep fails
    split at hpool
    · next pool heq =>
      rw [heq] at hspec hf
      exact .of_pool (hpool ▸ hspec.keepsIndexed) hf
    · next pool heq =>
      rw [heq] at hspec hf
      exact .of_pool (hpool ▸ hspec.keepsIndexed) hf
    · next pool call heq =>
      rw [heq] at hspec hf
      have hkept : KeepsIndexed s.pool t.pool := hpool ▸ hspec.keepsIndexed
      have href : s.pool.nextCall ≤ call.ref ∧ call.ref < t.pool.nextCall := hpool ▸ hspec.started_ref
      exact .of_insert hbelow hkept
        (f := newFetcher call run.context ⟨objectCacheKey sha256Hex run.backing run.validator, run.next⟩
          run.backing run.validator run.logicalSize s.pool.shared.options.chunkBytes) rfl href hf

theorem stepReader_leaves (hbelow : FetchersBelow s) {r : Reader} {h : Handle} {a : CacheLabel}
    (hactor : actor a = .reader id) (hstep : stepReader sha256Hex s id r h a = some t) :
    LeavesFetches s t := by
  cases a <;> simp only [actor, Actor.reader.injEq, reduceCtorEq] at hactor <;> subst hactor
  case start expired =>
    simp only [stepReader] at hstep
    split at hstep
    · cases hstep
      exact .of_pool (.refl _) rfl
    · cases hstep
  case begin =>
    simp only [stepReader] at hstep
    split at hstep
    · cases hstep
      refine .of_pool ?_ ?_
      · show KeepsIndexed s.pool (beginRead s h r.offset.toNat).1.pool
        unfold beginRead
        split
        · exact .refl _
        · exact .refl _
      · show (beginRead s h r.offset.toNat).1.fetchers = s.fetchers
        unfold beginRead
        split
        · rfl
        · rfl
    · cases hstep
  case acquire => exact acquire_leaves hbelow hstep
  case wake expired =>
    simp only [stepReader] at hstep
    split at hstep
    · split at hstep
      · cases hstep
        exact .of_pool (.refl _) rfl
      · split at hstep
        · cases hstep
        · cases hstep
          exact .of_pool (.refl _) rfl
        · split at hstep
          · cases hstep
            exact .of_pool (.refl _) rfl
          · cases hstep
            exact .of_pool (.refl _) rfl
    · cases hstep
  case unpark expired =>
    simp only [stepReader] at hstep
    split at hstep
    · split at hstep
      · cases hstep
        exact .of_pool (.refl _) rfl
      · split at hstep
        · cases hstep
          exact .of_pool (.refl _) rfl
        · cases hstep
    · cases hstep
  case readFile fault =>
    simp only [stepReader] at hstep
    split at hstep
    · cases hstep
      exact .of_pool (.refl _) rfl
    · cases hstep
  case release =>
    simp only [stepReader] at hstep
    split at hstep
    · cases hstep
      exact .of_pool (releaseChunk_keepsIndexed _ _) rfl
    · cases hstep
  case finish =>
    simp only [stepReader] at hstep
    split at hstep
    · split at hstep
      · cases hstep
        exact .of_pool (.refl _) rfl
      · cases hstep
        exact .of_pool (.refl _) rfl
    · cases hstep
  case schedule fails =>
    simp only [stepReader] at hstep
    split at hstep
    · next run _ =>
      cases hstep
      exact scheduleRound_leaves hbelow run (contextDone s run.context) fails rfl rfl
    · cases hstep
  case direct attempts =>
    simp only [stepReader] at hstep
    split at hstep
    · split at hstep
      · split at hstep
        · cases hstep
          exact .of_pool (.refl _) rfl
        · cases hstep
      · split at hstep
        · cases hstep
        · cases hstep
          refine .of_pool (.of_files rfl (fun k e hk => ?_) (Nat.le_refl _)) rfl
          show (s.pool.shared.chunks.lookup k).isSome
          rw [hk]
          rfl
    · cases hstep

theorem recordBackgroundErrorLocked_keepsIndexed (p : PoolState) (kind : BackgroundFetchKind) :
    KeepsIndexed p (recordBackgroundErrorLocked p kind) :=
  (recordBackgroundErrorLocked_evicted p kind).keepsIndexed rfl rfl (Nat.le_refl _)

theorem stepPrefetch_leaves (hbelow : FetchersBelow s) {p : Prefetch} {a : CacheLabel}
    (hactor : actor a = .prefetcher id) (hstep : stepPrefetch sha256Hex s id p a = some t) :
    LeavesFetches s t := by
  cases a <;> simp only [actor, Actor.prefetcher.injEq, reduceCtorEq] at hactor <;> subst hactor
  case prefetchOpen outcome closeFails =>
    simp only [stepPrefetch] at hstep
    split at hstep
    · split at hstep
      · cases hstep
        exact .of_pool (recordBackgroundErrorLocked_keepsIndexed s.pool .nextEpisode) rfl
      · split at hstep
        · cases hstep
          exact .of_pool (recordBackgroundErrorLocked_keepsIndexed s.pool .nextEpisode) rfl
        · cases hstep
          exact .of_pool (.refl _) rfl
    · cases hstep
  case prefetchSchedule fails =>
    simp only [stepPrefetch] at hstep
    split at hstep
    · next run =>
      cases hstep
      exact scheduleRound_leaves hbelow run (contextDone s run.context) fails rfl rfl
    · cases hstep

theorem stepOutside_leaves {a : CacheLabel} (hstep : stepOutside sha256Hex s a = some t) :
    LeavesFetches s t := by
  cases a <;> simp only [stepOutside, reduceCtorEq] at hstep
  case openHandle id backing size outcome fails =>
    unfold stepOpen at hstep
    split at hstep
    · cases hstep
    · split at hstep
      · cases hstep
        exact .of_pool (.refl _) rfl
      · next size' validator =>
        split at hstep
        · cases hstep
          exact .of_pool (.refl _) rfl
        · have hev := openObject_evicted s.pool (objectCacheKey sha256Hex backing validator) size fails
          split at hstep
          · next pool heq =>
            rw [heq] at hev
            cases hstep
            exact .of_pool (hev.keepsIndexed rfl rfl (Nat.le_refl _)) rfl
          · next pool _ heq =>
            rw [heq] at hev
            cases hstep
            exact .of_pool (hev.keepsIndexed rfl rfl (Nat.le_refl _)) rfl
  case markClosed id =>
    split at hstep
    · cases hstep
    · split at hstep
      · cases hstep
      · cases hstep
        exact .of_pool (.refl _) rfl
  case stopReadAhead id =>
    split at hstep
    · cases hstep
    · split at hstep
      · cases hstep
        exact .of_pool (.refl _) rfl
      · cases hstep
  case read id handle offset length =>
    split at hstep
    · cases hstep
    · cases hstep
      exact .of_pool (.refl _) rfl
  case prefetch id backing size =>
    split at hstep
    · cases hstep
    · cases hstep
      exact .of_pool (.refl _) rfl
  case shutdown =>
    cases hstep
    exact .of_pool (.refl _) rfl

/-- What a step of the process is, as far as the fetches are concerned. -/
theorem cacheStep_fetch_cases {a : CacheLabel} (hbelow : FetchersBelow s)
    (hrestart : ∀ options fails, a ≠ .restart options fails)
    (hstep : cacheStep sha256Hex s a = some t) :
    (∃ id f, actor a = .fetcher id ∧ s.fetchers.lookup id = some f ∧
      stepFetcher s id f a = some t) ∨
      ((∀ id, actor a ≠ .fetcher id) ∧ LeavesFetches s t) := by
  unfold cacheStep at hstep
  split at hstep
  · next options fails => exact absurd rfl (hrestart options fails)
  · split at hstep
    · cases hstep
    · cases hactor : actor a with
      | outside =>
        simp only [hactor] at hstep
        exact Or.inr ⟨fun id => by simp, stepOutside_leaves hstep⟩
      | reader id =>
        simp only [hactor] at hstep
        obtain ⟨r, hr, hrest⟩ := Option.bind_eq_some_iff.1 hstep
        obtain ⟨h, hh, hrest⟩ := Option.bind_eq_some_iff.1 hrest
        exact Or.inr ⟨fun id => by simp, stepReader_leaves hbelow hactor hrest⟩
      | fetcher id =>
        simp only [hactor] at hstep
        obtain ⟨f, hf, hrest⟩ := Option.bind_eq_some_iff.1 hstep
        exact Or.inl ⟨id, f, rfl, hf, hrest⟩
      | prefetcher id =>
        simp only [hactor] at hstep
        obtain ⟨p, hp, hrest⟩ := Option.bind_eq_some_iff.1 hstep
        exact Or.inr ⟨fun id => by simp, stepPrefetch_leaves hbelow hactor hrest⟩

end Steps

/-! ## Recovery -/

/-- Every file lies in a directory of the cache root. -/
def Disk.Listed (d : Disk) : Prop :=
  ∀ path node, d.files.lookup path = some node → d.root.lookup path.directory = some true

section Recovery

variable {options : RangeOptions} {fails : List FilePath}

/-- A scan that succeeds has found nothing that it refuses, and has removed what it did not recover. -/
theorem recoverScan_left {path : FilePath} {node : FileNode} :
    ∀ {visits : List RecoverVisit} {d d' : Disk} {chunks : List RecoveredChunk},
      recoverScan options fails visits d = (d', .ok chunks) → d'.files.lookup path = some node →
      .badRoot ∉ visits ∧ (path ∈ visits.filterMap visitPath → ∃ c ∈ chunks, c.path = path) := by
  intro visits
  induction visits with
  | nil =>
    intro d d' chunks _ _
    exact ⟨List.not_mem_nil, fun h => by cases h⟩
  | cons visit rest ih =>
    intro d d' chunks h hleft
    cases visit with
    | badRoot => simp [recoverScan] at h
    | file path' node' =>
      unfold recoverScan at h
      split at h
      · simp at h
      · obtain ⟨hroot, hfound⟩ := ih h hleft
        refine ⟨by simpa using hroot, fun hvisited => ?_⟩
        rcases List.mem_cons.1 hvisited with rfl | hvisited
        · -- the abandoned file has been removed
          have hscanned : (recoverScan options fails rest (d.remove path)).1.files.lookup path =
              some node := by
            rw [h]
            exact hleft
          have hold := recoverScan_files_sub hscanned
          rw [Disk.lookup_remove, if_pos rfl] at hold
          cases hold
        · exact hfound hvisited
      · next chunk hfile =>
        split at h
        · next d'' chunks' hrest =>
          simp only [Prod.mk.injEq, Except.ok.injEq] at h
          obtain ⟨rfl, rfl⟩ := h
          obtain ⟨hroot, hfound⟩ := ih hrest hleft
          refine ⟨by simpa using hroot, fun hvisited => ?_⟩
          rcases List.mem_cons.1 hvisited with rfl | hvisited
          · exact ⟨chunk, List.mem_cons_self, (recoverFile_spec hfile).1⟩
          · obtain ⟨c, hc, hpath⟩ := hfound hvisited
            exact ⟨c, List.mem_cons_of_mem _ hc, hpath⟩
        · simp at h

/-- Where nothing is refused every file is visited. -/
theorem mem_recoverVisits {d : Disk} (hd : d.Listed) (hroot : .badRoot ∉ recoverVisits d)
    {path : FilePath} {node : FileNode} (hnode : d.files.lookup path = some node) :
    path ∈ (recoverVisits d).filterMap visitPath := by
  have hentry : (⟨path.directory, true⟩ : (_ : String) × Bool) ∈ d.root.entries :=
    (Table.lookup_eq_some_iff_mem _ _ _).1 (hd path node hnode)
  have hfile : (⟨path, node⟩ : (_ : FilePath) × FileNode) ∈ d.files.entries :=
    (Table.lookup_eq_some_iff_mem _ _ _).1 hnode
  refine List.mem_filterMap.2 ⟨.file path node, List.mem_flatMap.2 ⟨_, hentry, ?_⟩, rfl⟩
  by_cases hpattern : rollingObjectPattern path.directory = true
  · rw [if_pos (by simp [hpattern])]
    exact List.mem_map.2 ⟨⟨path, node⟩, List.mem_filter.2 ⟨hfile, by simp⟩, rfl⟩
  · refine absurd (List.mem_flatMap.2 ⟨_, hentry, ?_⟩) hroot
    rw [if_neg (by simp [hpattern])]
    exact List.mem_singleton_self _

/-- Every recovered chunk is indexed. -/
theorem foldl_indexRecovered_lookup {k : ChunkKey} :
    ∀ {chunks : List RecoveredChunk} {p : PoolState},
      (p.shared.chunks.lookup k).isSome ∨ (∃ c ∈ chunks, c.key = k) →
      ((chunks.foldl indexRecovered p).shared.chunks.lookup k).isSome := by
  intro chunks
  induction chunks with
  | nil =>
    intro p h
    rcases h with h | ⟨c, hc, -⟩
    · exact h
    · cases hc
  | cons c chunks ih =>
    intro p h
    have hlookup := lookup_addEntry p c.key k c.path c.size
    apply ih
    rcases h with h | ⟨c', hc', rfl⟩
    · left
      show ((addEntry p c.key c.path c.size).shared.chunks.lookup k).isSome
      rw [hlookup]
      split
      · rfl
      · exact h
    · rcases List.mem_cons.1 hc' with rfl | hc'
      · left
        show ((addEntry p c'.key c'.path c'.size).shared.chunks.lookup c'.key).isSome
        rw [hlookup, if_pos rfl]
        rfl
      · exact Or.inr ⟨c', hc', rfl⟩

/-- After recovery there are no files but those of the index. -/
theorem recovered_indexed {d : Disk} {p : PoolState} (hd : d.Listed)
    (h : (recoverChunks options d fails).2 = .ok p) {path : FilePath} {node : FileNode}
    (hnode : p.disk.files.lookup path = some node) :
    ∃ k, path = chunkPath k ∧ (p.shared.chunks.lookup k).isSome := by
  unfold recoverChunks at h
  split at h
  · cases h
  · next d₁ recovered hscan =>
    have hs := recoverScan_spec hscan
    have hindex := indexRecovered_spec hscan
    have hev : Evicted _ (evictWhile fails oldestUnpinnedLocked
        (fun sh => sh.options.policy = .rolling ∧ sh.current > sh.options.maxBytes)
        ((recovered.insertionSort recoveredBefore).foldl indexRecovered (emptyPool options d₁))).1 :=
      evictWhile_evicted (offersUnpinned_oldestUnpinned _) _
    simp only at h
    split at h
    · cases h
    · cases h
    · next q hq =>
      rw [hq] at hev
      obtain rfl := Except.ok.inj h
      have hleft : d₁.files.lookup path = some node := by
        have hfile := hev.files_sub path node hnode
        rw [hindex.rest_eq] at hfile
        exact hfile
      have hscanned : (recoverScan options fails (recoverVisits d) d).1.files.lookup path = some node := by
        rw [hscan]
        exact hleft
      have hstart := recoverScan_files_sub hscanned
      obtain ⟨hroot, hfound⟩ := recoverScan_left hscan hleft
      obtain ⟨c, hc, rfl⟩ := hfound (mem_recoverVisits hd hroot hstart)
      obtain ⟨n, -, hr⟩ := hs.recovered c hc
      have hpath := (recoverFile_spec hr).2.1
      have hin : c ∈ recovered.insertionSort recoveredBefore := (List.mem_insertionSort _).2 hc
      have hindexed : (((recovered.insertionSort recoveredBefore).foldl indexRecovered
          (emptyPool options d₁)).shared.chunks.lookup c.key).isSome :=
        foldl_indexRecovered_lookup (Or.inr ⟨c, hin, rfl⟩)
      obtain ⟨e, he⟩ := Option.isSome_iff_exists.1 hindexed
      refine ⟨c.key, hpath.symm, ?_⟩
      cases hkept : q.shared.chunks.lookup c.key with
      | some e' => rfl
      | none =>
        have hgone := hev.files_dropped c.key e he hkept
        rw [hindex.books.path_eq c.key e he, hpath] at hgone
        exact absurd (hnode.symm.trans hgone) (by simp)

end Recovery

end BlackPearl.Cache
