import BlackPearl.Cache.Accounting

/-!
# Rolling retention over whole runs

Recovery establishes the books and the quota, every label of the pool system keeps them, so they
hold in every reachable state. `KeepsPinned` is what a single step guarantees to a reader that holds
an entry.
-/

set_option autoImplicit false

namespace BlackPearl.Cache

open BlackPearl.Library

/-! ## Recovery -/

/-- A successful recovery: the pool it returns and the files it leaves. -/
structure RecoverySpec (options : RangeOptions) (d : Disk) (s : PoolState) : Prop where
  books : Books s
  quota : options.policy = .rolling → Quota s
  options_eq : s.shared.options = options
  inflight_eq : s.shared.inflight = ∅
  outstanding_eq : s.outstanding = []
  finished_eq : s.finished = ∅
  nextCall_eq : s.nextCall = 0
  files_sub : ∀ p node, s.disk.files.lookup p = some node → d.files.lookup p = some node
  entries : ∀ k e, s.shared.chunks.lookup k = some e → ∃ node,
    s.disk.files.lookup (chunkPath k) = some node ∧ node.content.length = e.size

/-- The index that recovery builds before it trims. -/
theorem indexRecovered_spec {options : RangeOptions} {d d₁ : Disk} {fails : List FilePath}
    {recovered : List RecoveredChunk}
    (hscan : recoverScan options fails (recoverVisits d) d = (d₁, .ok recovered)) :
    IndexSpec (emptyPool options d₁)
      ((recovered.insertionSort recoveredBefore).foldl indexRecovered (emptyPool options d₁))
      (recovered.insertionSort recoveredBefore) := by
  have hs := recoverScan_spec hscan
  have hperm := List.perm_insertionSort recoveredBefore recovered
  refine foldl_indexRecovered_spec (emptyPool_books options d₁) (fun _ => rfl) ?_ ?_ (fun _ _ => rfl)
  · intro c hc
    obtain ⟨node, -, hr⟩ := hs.recovered c (hperm.subset hc)
    exact (recoverFile_spec hr).2.1
  · exact (hperm.map _).nodup_iff.2 (hs.paths.nodup (recoverVisits_nodup d))

/-- Recovery only removes files, whatever it ends with. -/
theorem recoverChunks_files_sub {options : RangeOptions} {d : Disk} {fails : List FilePath}
    {p : FilePath} {node : FileNode}
    (h : (recoverChunks options d fails).1.files.lookup p = some node) :
    d.files.lookup p = some node := by
  have hsub : ∀ d₁ result, recoverScan options fails (recoverVisits d) d = (d₁, result) →
      d₁.files.lookup p = some node → d.files.lookup p = some node := by
    intro d₁ result hscan hp
    have hscanned : (recoverScan options fails (recoverVisits d) d).1.files.lookup p = some node := by
      rw [hscan]
      exact hp
    exact recoverScan_files_sub hscanned
  unfold recoverChunks at h
  split at h
  · next d₁ e hscan => exact hsub d₁ _ hscan h
  · next d₁ recovered hscan =>
    have hindex := indexRecovered_spec hscan
    refine hsub d₁ _ hscan ?_
    have hdisk : ((recovered.insertionSort recoveredBefore).foldl indexRecovered
        (emptyPool options d₁)).disk = d₁ := by
      rw [hindex.rest_eq]
      rfl
    have hev : Evicted _ (evictWhile fails oldestUnpinnedLocked
        (fun sh => sh.options.policy = .rolling ∧ sh.current > sh.options.maxBytes)
        ((recovered.insertionSort recoveredBefore).foldl indexRecovered (emptyPool options d₁))).1 :=
      evictWhile_evicted (offersUnpinned_oldestUnpinned _) _
    rw [← hdisk]
    refine hev.files_sub p node ?_
    simp only at h
    split at h <;> next heq => exact (congrArg (fun x => x.1.disk.files.lookup p) heq).trans h

theorem recoverChunks_spec {options : RangeOptions} {d d' : Disk} {fails : List FilePath}
    {s : PoolState} (h : recoverChunks options d fails = (d', .ok s)) :
    d' = s.disk ∧ RecoverySpec options d s := by
  have hall := h
  unfold recoverChunks at h
  split at h
  · simp at h
  · next d₁ recovered hscan =>
    have hs := recoverScan_spec hscan
    set chunks := recovered.insertionSort recoveredBefore with hchunks
    have hperm : chunks.Perm recovered := List.perm_insertionSort _ _
    have hindex := indexRecovered_spec hscan
    set u := chunks.foldl indexRecovered (emptyPool options d₁) with hu
    simp only at h
    have hev : Evicted u (evictWhile fails oldestUnpinnedLocked
        (fun sh => sh.options.policy = .rolling ∧ sh.current > sh.options.maxBytes) u).1 :=
      evictWhile_evicted (offersUnpinned_oldestUnpinned _) u
    split at h
    · simp at h
    · simp at h
    · next v hv =>
      have hfits := evictWhile_fits (congrArg Prod.snd hv)
      rw [hv] at hev hfits
      simp only [Prod.mk.injEq, Except.ok.injEq] at h
      obtain ⟨rfl, rfl⟩ := h
      have hbooks := hev.books hindex.books
      have hoptions : v.shared.options = options := by
        rw [hev.options_eq, hindex.shared_eq]
        rfl
      have hdisk : u.disk = d₁ := by
        rw [hindex.rest_eq]
        rfl
      refine ⟨rfl, { hbooks with }, ?_, hoptions, ?_, ?_, ?_, ?_, ?_, ?_⟩
      · intro hp
        have hcurrent : v.shared.current ≤ v.shared.options.maxBytes := by
          simpa [hoptions, hp] using hfits
        have hreserved : v.shared.reserved = 0 := by
          rw [hev.reserved_eq, hindex.shared_eq]
          rfl
        refine ⟨?_, hcurrent⟩
        show v.shared.current + v.shared.reserved ≤ v.shared.current
        omega
      · show v.shared.inflight = ∅
        rw [hev.inflight_eq, hindex.shared_eq]
        rfl
      · show v.outstanding = []
        rw [hev.outstanding_eq, hindex.rest_eq]
        rfl
      · show v.finished = ∅
        rw [hev.finished_eq, hindex.rest_eq]
        rfl
      · show v.nextCall = 0
        rw [hev.nextCall_eq, hindex.rest_eq]
        rfl
      · intro p node hp
        have hleft : (recoverChunks options d fails).1.files.lookup p = some node := by
          rw [hall]
          exact hp
        exact recoverChunks_files_sub hleft
      · intro k e hk
        have hk' := hev.chunks_sub k e hk
        rcases hindex.entries k e hk' with hnone | ⟨c, hc, hck, hpath, hsize⟩
        · exact absurd hnone (by simp [emptyPool])
        · obtain ⟨node, hvisit, hr⟩ := hs.recovered c (hperm.subset hc)
          obtain ⟨-, -, hlen, -⟩ := recoverFile_spec hr
          refine ⟨node, ?_, by rw [hsize, hlen]⟩
          show v.disk.files.lookup (chunkPath k) = some node
          have hchunk : chunkPath k = e.path := (hindex.books.path_eq k e hk').symm
          have htemp : isFetchTemporary (chunkPath k).name = false :=
            isFetchTemporary_chunkFileName k.index
          have hnode := lookup_of_mem_recoverVisits hvisit
          rw [← hpath, ← hchunk] at hnode
          rw [hchunk, hev.file_kept hindex.books hk, hdisk, ← hchunk, hs.files_kept _ htemp, hnode]

/-! ## What the two reserving sections do -/

/-- Start a fetch on top of a reservation, and count it. -/
def reserveAndStart (s : PoolState) (key : ChunkKey) (kind : BackgroundFetchKind) (expected : ℕ) :
    PoolState :=
  (startFetch (reserveLocked s expected) key kind expected).1

/-- The cases of the locked section of `acquireChunk`. -/
inductive AcquireSpec (s : PoolState) (key : ChunkKey) (expected : ℕ) :
    PoolState → AcquireResult → Prop
  | hit {entry : ChunkEntry} : s.shared.chunks.lookup key = some entry →
      AcquireSpec s key expected (pinChunk s key entry).1 (.hit (pinChunk s key entry).2)
  | join {call : FetchCall} : s.shared.chunks.lookup key = none →
      s.shared.inflight.lookup key = some call → AcquireSpec s key expected s (.join call)
  | failed {u : PoolState} : Evicted s u → AcquireSpec s key expected u .failed
  | wait {u : PoolState} : Evicted s u → AcquireSpec s key expected u (.wait u.shared.notify)
  | started {u t : PoolState} : s.shared.chunks.lookup key = none →
      s.shared.inflight.lookup key = none → Evicted s u →
      (s.shared.options.policy = .rolling →
        u.shared.current + u.shared.reserved + expected ≤ u.shared.options.maxBytes) →
      t = { reserveAndStart u key .none expected with
        shared := { (reserveAndStart u key .none expected).shared with
          misses := u.shared.misses + 1 } } →
      AcquireSpec s key expected t (.started ⟨u.nextCall, .none, expected⟩)

theorem acquireChunkLocked_spec (s : PoolState) (key : ChunkKey) (logicalSize expected : ℕ)
    (fails : List FilePath) :
    AcquireSpec s key expected (acquireChunkLocked s key logicalSize expected fails).1
      (acquireChunkLocked s key logicalSize expected fails).2 := by
  unfold acquireChunkLocked
  split
  · next entry hk => exact .hit hk
  · next hc =>
    split
    · next call hi => exact .join hc hi
    · next hi =>
      have hres := tryReserveLocked_spec s key logicalSize expected fails
      split
      · next u hu =>
        rw [hu] at hres
        cases hres with
        | refused hev => exact .failed hev
      · next u hu =>
        rw [hu] at hres
        cases hres with
        | refused hev => exact .wait hev
      · next u hu =>
        rw [hu] at hres
        cases hres with
        | @granted v hev hroom => exact .started (u := v) hc hi hev hroom rfl

/-- The cases of the locked section of `scheduleBackgroundChunks`. -/
inductive ScheduleSpec (s : PoolState) (key : ChunkKey) (expected : ℕ) (kind : BackgroundFetchKind) :
    PoolState → ScheduleResult → Prop
  | present : ScheduleSpec s key expected kind s .present
  | refused {u : PoolState} : Evicted s u → ScheduleSpec s key expected kind u .refused
  | started {u : PoolState} : s.shared.chunks.lookup key = none →
      s.shared.inflight.lookup key = none → Evicted s u →
      (s.shared.options.policy = .rolling →
        u.shared.current + u.shared.reserved + expected ≤ u.shared.options.maxBytes) →
      ScheduleSpec s key expected kind
        (recordBackgroundFetchLocked (reserveAndStart u key kind expected) kind)
        (.started ⟨u.nextCall, kind, expected⟩)

theorem scheduleChunkLocked_spec (s : PoolState) (key : ChunkKey) (logicalSize expected : ℕ)
    (kind : BackgroundFetchKind) (keep : Option ChunkKey) (fails : List FilePath) :
    ScheduleSpec s key expected kind
      (scheduleChunkLocked s key logicalSize expected kind keep fails).1
      (scheduleChunkLocked s key logicalSize expected kind keep fails).2 := by
  unfold scheduleChunkLocked
  split
  · exact .present
  · next habsent =>
    simp only [not_or, Option.not_isSome_iff_eq_none] at habsent
    have hres := tryReserveBackgroundLocked_spec s key logicalSize expected kind keep fails
    split
    · next u hu =>
      rw [hu] at hres
      cases hres with
      | refused hev => exact .refused hev
    · next u hu =>
      rw [hu] at hres
      cases hres with
      | granted hev hroom => exact .started habsent.1 habsent.2 hev hroom

theorem Books.reserveAndStart {s u : PoolState} (h : Books s) (hev : Evicted s u) {key : ChunkKey}
    (kind : BackgroundFetchKind) (expected : ℕ) (hc : s.shared.chunks.lookup key = none)
    (hi : s.shared.inflight.lookup key = none) : Books (reserveAndStart u key kind expected) := by
  rw [← hev.inflight_eq] at hi
  exact (hev.books h).start kind expected (hev.chunk_absent hc) hi

theorem Books.recordFetch {s : PoolState} (h : Books s) (kind : BackgroundFetchKind) :
    Books (recordBackgroundFetchLocked s kind) := by
  cases kind with
  | none => exact h
  | readAhead => exact { h with }
  | nextEpisode => exact { h with }

theorem Quota.recordFetch {s : PoolState} (h : Quota s) (kind : BackgroundFetchKind) :
    Quota (recordBackgroundFetchLocked s kind) := by
  cases kind with
  | none => exact h
  | readAhead => exact { h with }
  | nextEpisode => exact { h with }

theorem Books.acquire {s t : PoolState} {key : ChunkKey} {expected : ℕ} {r : AcquireResult}
    (h : Books s) (hs : AcquireSpec s key expected t r) : Books t := by
  cases hs with
  | hit hk => exact h.pin hk
  | join _ _ => exact h
  | failed hev => exact hev.books h
  | wait hev => exact hev.books h
  | started hc hi hev _ heq =>
    subst heq
    exact { h.reserveAndStart hev .none expected hc hi with }

theorem Quota.acquire {s t : PoolState} {key : ChunkKey} {expected : ℕ} {r : AcquireResult}
    (h : Quota s) (hp : s.shared.options.policy = .rolling) (hs : AcquireSpec s key expected t r) :
    Quota t := by
  cases hs with
  | hit _ => exact h.pin key _
  | join _ _ => exact h
  | failed hev => exact hev.quota h
  | wait hev => exact hev.quota h
  | started _ _ hev hroom heq =>
    subst heq
    exact { (hev.quota h).start key .none expected (hroom hp) with }

theorem Books.schedule {s t : PoolState} {key : ChunkKey} {expected : ℕ}
    {kind : BackgroundFetchKind} {r : ScheduleResult} (h : Books s)
    (hs : ScheduleSpec s key expected kind t r) : Books t := by
  cases hs with
  | present => exact h
  | refused hev => exact hev.books h
  | started hc hi hev _ => exact (h.reserveAndStart hev kind expected hc hi).recordFetch kind

theorem Quota.schedule {s t : PoolState} {key : ChunkKey} {expected : ℕ}
    {kind : BackgroundFetchKind} {r : ScheduleResult} (h : Quota s)
    (hp : s.shared.options.policy = .rolling) (hs : ScheduleSpec s key expected kind t r) :
    Quota t := by
  cases hs with
  | present => exact h
  | refused hev => exact hev.quota h
  | started _ _ hev hroom => exact ((hev.quota h).start key kind expected (hroom hp)).recordFetch kind

/-! ## What a reader holds -/

/-- Every pinned entry of `s` is still there in `t`, and so is its file. -/
def KeepsPinned (s t : PoolState) : Prop :=
  ∀ k e, s.shared.chunks.lookup k = some e → 0 < e.pins → ∃ e',
    t.shared.chunks.lookup k = some e' ∧ e'.ref = e.ref ∧ e'.path = e.path ∧ e'.size = e.size ∧
      t.disk.files.lookup e.path = s.disk.files.lookup e.path

/-- Evictions keep what is pinned, whatever else changes outside the index and the files. -/
theorem Evicted.keepsPinned {s u t : PoolState} (hev : Evicted s u) (hb : Books s)
    (hchunks : t.shared.chunks = u.shared.chunks) (hfiles : t.disk.files = u.disk.files) :
    KeepsPinned s t := by
  intro k e hk hp
  have hk' := hev.pinned_kept k e hk (by omega)
  exact ⟨e, by rw [hchunks, hk'], rfl, rfl, rfl, by rw [hfiles, hev.file_kept hb hk']⟩

theorem chunks_recordFetch (s : PoolState) (kind : BackgroundFetchKind) :
    (recordBackgroundFetchLocked s kind).shared.chunks = s.shared.chunks ∧
      (recordBackgroundFetchLocked s kind).disk = s.disk ∧
      (recordBackgroundFetchLocked s kind).shared.options = s.shared.options := by
  cases kind <;> exact ⟨rfl, rfl, rfl⟩

theorem AcquireSpec.keepsPinned {s t : PoolState} {key : ChunkKey} {expected : ℕ}
    {r : AcquireResult} (hs : AcquireSpec s key expected t r) (h : Books s) : KeepsPinned s t := by
  cases hs with
  | @hit entry hk =>
    intro k e he hp
    rw [lookup_pinChunk]
    split
    · next hkey =>
      subst hkey
      have hsame : entry = e := Option.some.inj (hk.symm.trans he)
      subst hsame
      exact ⟨_, rfl, rfl, rfl, rfl, rfl⟩
    · exact ⟨e, he, rfl, rfl, rfl, rfl⟩
  | join _ _ => exact (Evicted.refl s).keepsPinned h rfl rfl
  | failed hev => exact hev.keepsPinned h rfl rfl
  | wait hev => exact hev.keepsPinned h rfl rfl
  | started _ _ hev _ heq =>
    subst heq
    exact hev.keepsPinned h rfl rfl

theorem ScheduleSpec.keepsPinned {s t : PoolState} {key : ChunkKey} {expected : ℕ}
    {kind : BackgroundFetchKind} {r : ScheduleResult} (hs : ScheduleSpec s key expected kind t r)
    (h : Books s) : KeepsPinned s t := by
  cases hs with
  | present => exact (Evicted.refl s).keepsPinned h rfl rfl
  | refused hev => exact hev.keepsPinned h rfl rfl
  | @started u _ _ hev _ =>
    obtain ⟨hchunks, hdisk, -⟩ := chunks_recordFetch (reserveAndStart u key kind expected) kind
    exact hev.keepsPinned h (hchunks.trans rfl) (by rw [hdisk]; rfl)

/-- A fetch in flight never owns the file of a present entry. -/
theorem ownFile_ne {s : PoolState} (h : Books s) {key k : ChunkKey} {e : ChunkEntry}
    {path : FilePath} (hi : (s.shared.inflight.lookup key).isSome) (hown : ownFile key path = true)
    (hk : s.shared.chunks.lookup k = some e) : e.path ≠ path := by
  rintro rfl
  rw [ownFile, Bool.or_eq_true, beq_iff_eq, h.path_eq k e hk] at hown
  rcases hown with hpath | htemp
  · rw [← chunkPath_injective hpath, h.disjoint k e hk] at hi
    exact absurd hi (by simp)
  · rw [show (chunkPath k).name = chunkFileName k.index from rfl,
      isFetchTemporary_chunkFileName] at htemp
    exact absurd htemp (by simp)

theorem lookup_settleFetch {s : PoolState} {key k : ChunkKey} (call : FetchCall) (stored : Bool)
    (err : Option FetchError) (hne : k ≠ key) :
    (settleFetch s key call stored err).shared.chunks.lookup k = s.shared.chunks.lookup k := by
  unfold settleFetch
  split
  · rw [storeChunk, lookup_addEntry, if_neg hne]
    rfl
  · rfl

theorem settleFetch_disk (s : PoolState) (key : ChunkKey) (call : FetchCall) (stored : Bool)
    (err : Option FetchError) : (settleFetch s key call stored err).disk = s.disk := by
  cases stored <;> rfl

theorem completeFetch_keepsPinned {s : PoolState} (h : Books s) {key : ChunkKey} {call : FetchCall}
    (hi : s.shared.inflight.lookup key = some call) (stored : Bool) (err : Option FetchError) :
    KeepsPinned s (completeFetch s key call stored err) := by
  obtain ⟨u, hu, heq⟩ := completeFetch_evicted s key call stored err
  intro k e hk hp
  have hne : k ≠ key := by
    rintro rfl
    exact absurd (hk.symm.trans (h.absent hi)) (by simp)
  have hk' := lookup_settleFetch (s := s) call stored err hne
  rw [hk] at hk'
  have hkept := hu.pinned_kept k e hk' (by omega)
  refine ⟨e, by rw [heq]; exact hkept, rfl, rfl, rfl, ?_⟩
  rw [heq, ← settleFetch_disk s key call stored err]
  exact hu.file_kept (h.settle hi stored err) hkept

/-! ## Steps -/

/-- Every label keeps the books. -/
theorem poolStep_books {s t : PoolState} {a : PoolLabel} (h : Books s)
    (hstep : poolStep s a = some t) : Books t := by
  cases a with
  | openObject object logicalSize fails =>
    cases hstep
    exact (openObject_evicted s object logicalSize fails).books h
  | acquire key logicalSize expected fails =>
    cases hstep
    exact h.acquire (acquireChunkLocked_spec s key logicalSize expected fails)
  | release ref =>
    simp only [poolStep] at hstep
    split at hstep
    · next hr =>
      cases hstep
      exact h.release hr
    · cases hstep
  | schedule key logicalSize expected kind keep fails =>
    cases hstep
    exact h.schedule (scheduleChunkLocked_spec s key logicalSize expected kind keep fails)
  | writeFile key path node =>
    simp only [poolStep] at hstep
    split at hstep
    · cases hstep
      exact { h with }
    · cases hstep
  | removeFile key path =>
    simp only [poolStep] at hstep
    split at hstep
    · cases hstep
      exact { h with }
    · cases hstep
  | makeDirectory directory =>
    cases hstep
    exact { h with }
  | complete key stored err =>
    simp only [poolStep] at hstep
    split at hstep
    · next call hi =>
      cases hstep
      exact h.complete hi stored err
    · cases hstep
  | record kind =>
    cases hstep
    exact (recordBackgroundErrorLocked_evicted s kind).books h
  | countDirect misses fetches =>
    cases hstep
    exact { h with }

theorem AcquireSpec.options_eq {s t : PoolState} {key : ChunkKey} {expected : ℕ}
    {r : AcquireResult} (hs : AcquireSpec s key expected t r) :
    t.shared.options = s.shared.options := by
  cases hs with
  | hit _ => rfl
  | join _ _ => rfl
  | failed hev => exact hev.options_eq
  | wait hev => exact hev.options_eq
  | started _ _ hev _ heq =>
    rw [heq]
    exact hev.options_eq

theorem ScheduleSpec.options_eq {s t : PoolState} {key : ChunkKey} {expected : ℕ}
    {kind : BackgroundFetchKind} {r : ScheduleResult} (hs : ScheduleSpec s key expected kind t r) :
    t.shared.options = s.shared.options := by
  cases hs with
  | present => rfl
  | refused hev => exact hev.options_eq
  | @started u _ _ hev _ =>
    exact (chunks_recordFetch (reserveAndStart u key kind expected) kind).2.2.trans hev.options_eq

/-- No label changes the options. -/
theorem poolStep_options {s t : PoolState} {a : PoolLabel} (hstep : poolStep s a = some t) :
    t.shared.options = s.shared.options := by
  cases a with
  | openObject object logicalSize fails =>
    cases hstep
    exact (openObject_evicted s object logicalSize fails).options_eq
  | acquire key logicalSize expected fails =>
    cases hstep
    exact (acquireChunkLocked_spec s key logicalSize expected fails).options_eq
  | release ref =>
    simp only [poolStep] at hstep
    split at hstep <;> cases hstep
    rfl
  | schedule key logicalSize expected kind keep fails =>
    cases hstep
    exact (scheduleChunkLocked_spec s key logicalSize expected kind keep fails).options_eq
  | writeFile key path node =>
    simp only [poolStep] at hstep
    split at hstep <;> cases hstep
    rfl
  | removeFile key path =>
    simp only [poolStep] at hstep
    split at hstep <;> cases hstep
    rfl
  | makeDirectory directory =>
    cases hstep
    rfl
  | complete key stored err =>
    simp only [poolStep] at hstep
    split at hstep <;> cases hstep
    obtain ⟨u, hu, heq⟩ := completeFetch_evicted s key _ stored err
    rw [heq]
    show u.shared.options = _
    rw [hu.options_eq]
    cases stored <;> rfl
  | record kind =>
    cases hstep
    exact (recordBackgroundErrorLocked_evicted s kind).options_eq
  | countDirect misses fetches =>
    cases hstep
    rfl

/-- In a rolling pool every label keeps the quota. -/
theorem poolStep_quota {s t : PoolState} {a : PoolLabel} (h : Quota s)
    (hp : s.shared.options.policy = .rolling) (hstep : poolStep s a = some t) : Quota t := by
  cases a with
  | openObject object logicalSize fails =>
    cases hstep
    exact (openObject_evicted s object logicalSize fails).quota h
  | acquire key logicalSize expected fails =>
    cases hstep
    exact h.acquire hp (acquireChunkLocked_spec s key logicalSize expected fails)
  | release ref =>
    simp only [poolStep] at hstep
    split at hstep <;> cases hstep
    exact h.release ref
  | schedule key logicalSize expected kind keep fails =>
    cases hstep
    exact h.schedule hp (scheduleChunkLocked_spec s key logicalSize expected kind keep fails)
  | writeFile key path node =>
    simp only [poolStep] at hstep
    split at hstep <;> cases hstep
    exact { h with }
  | removeFile key path =>
    simp only [poolStep] at hstep
    split at hstep <;> cases hstep
    exact { h with }
  | makeDirectory directory =>
    cases hstep
    exact { h with }
  | complete key stored err =>
    simp only [poolStep] at hstep
    split at hstep <;> cases hstep
    exact h.complete key _ stored err
  | record kind =>
    cases hstep
    exact (recordBackgroundErrorLocked_evicted s kind).quota h
  | countDirect misses fetches =>
    cases hstep
    exact { h with }

/-- No label takes away an entry that is pinned, or its file. -/
theorem poolStep_keepsPinned {s t : PoolState} {a : PoolLabel} (h : Books s)
    (hstep : poolStep s a = some t) : KeepsPinned s t := by
  cases a with
  | openObject object logicalSize fails =>
    cases hstep
    exact (openObject_evicted s object logicalSize fails).keepsPinned h rfl rfl
  | acquire key logicalSize expected fails =>
    cases hstep
    exact (acquireChunkLocked_spec s key logicalSize expected fails).keepsPinned h
  | release ref =>
    simp only [poolStep] at hstep
    split at hstep <;> cases hstep
    intro k e hk _
    refine ⟨unpin ref e, ?_, unpin_ref _ _, unpin_path _ _, unpin_size _ _, rfl⟩
    rw [lookup_releaseChunk, hk]
    rfl
  | schedule key logicalSize expected kind keep fails =>
    cases hstep
    exact (scheduleChunkLocked_spec s key logicalSize expected kind keep fails).keepsPinned h
  | writeFile key path node =>
    simp only [poolStep] at hstep
    split at hstep <;> cases hstep
    next hown =>
      intro k e hk _
      refine ⟨e, hk, rfl, rfl, rfl, ?_⟩
      rw [Disk.lookup_write, if_neg (ownFile_ne h hown.1 hown.2 hk)]
  | removeFile key path =>
    simp only [poolStep] at hstep
    split at hstep <;> cases hstep
    next hown =>
      intro k e hk _
      refine ⟨e, hk, rfl, rfl, rfl, ?_⟩
      rw [Disk.lookup_remove, if_neg (ownFile_ne h hown.1 hown.2 hk)]
  | makeDirectory directory =>
    cases hstep
    exact fun k e hk _ => ⟨e, hk, rfl, rfl, rfl, rfl⟩
  | complete key stored err =>
    simp only [poolStep] at hstep
    split at hstep
    · next call hi =>
      cases hstep
      exact completeFetch_keepsPinned h hi stored err
    · cases hstep
  | record kind =>
    cases hstep
    exact (recordBackgroundErrorLocked_evicted s kind).keepsPinned h rfl rfl
  | countDirect misses fetches =>
    cases hstep
    exact fun k e hk _ => ⟨e, hk, rfl, rfl, rfl, rfl⟩

/-! ## Runs -/

section Runs

variable {options : RangeOptions} {s : PoolState}

theorem recovered_spec (h : (poolSystem options).init s) : ∃ d, RecoverySpec options d s := by
  obtain ⟨d, fails, hrec⟩ := h
  have hok : recoverChunks options d fails = ((recoverChunks options d fails).1, .ok s) :=
    Prod.ext rfl hrec
  exact ⟨d, (recoverChunks_spec hok).2⟩

/-- The books hold in every reachable state, under either policy. -/
theorem reachable_books (h : (poolSystem options).Reachable s) : Books s :=
  h.invariant (fun _ hi => let ⟨_, hr⟩ := recovered_spec hi; hr.books)
    fun _ _ _ hb _ hstep => poolStep_books hb hstep

theorem reachable_options (h : (poolSystem options).Reachable s) : s.shared.options = options :=
  h.invariant (fun _ hi => let ⟨_, hr⟩ := recovered_spec hi; hr.options_eq)
    fun _ _ _ ho _ hstep => (poolStep_options hstep).trans ho

theorem reachable_quota (hp : options.policy = .rolling) (h : (poolSystem options).Reachable s) :
    Quota s :=
  h.invariant_under (fun _ => reachable_options)
    (fun _ hi => let ⟨_, hr⟩ := recovered_spec hi; hr.quota hp)
    fun _ _ _ ho hq _ hstep => poolStep_quota hq (by rw [ho, hp]) hstep

/-- What the rolling pool promises about a state. -/
structure RetentionAccounting (s : PoolState) : Prop where
  current_eq : s.shared.current = chunkBytesTotal s.shared
  reserved_eq : s.shared.reserved = inflightBytesTotal s.shared
  disjoint : ∀ k, ¬ ((s.shared.chunks.lookup k).isSome ∧ (s.shared.inflight.lookup k).isSome)
  usage_le : s.shared.current + s.shared.reserved ≤ s.shared.options.maxBytes
  highWater_le : s.shared.highWater ≤ s.shared.options.maxBytes
  pins_eq : ∀ k e, s.shared.chunks.lookup k = some e → e.pins = (s.outstanding.count e.ref : ℤ)

/-- The accounting of a rolling pool holds in every reachable state, and no step from there removes
a pinned entry from the index or from disk. -/
theorem rolling_retention_accounting (hp : options.policy = .rolling)
    (h : (poolSystem options).Reachable s) :
    RetentionAccounting s ∧ s.shared.options = options ∧
      ∀ a t, poolStep s a = some t → KeepsPinned s t := by
  have hb := reachable_books h
  have hq := reachable_quota hp h
  refine ⟨⟨hb.current_eq, hb.reserved_eq, ?_, le_trans hq.usage_le hq.highWater_le,
    hq.highWater_le, hb.pins_eq⟩, reachable_options h, fun a t => poolStep_keepsPinned hb⟩
  rintro k ⟨hc, hi⟩
  obtain ⟨e, he⟩ := Option.isSome_iff_exists.1 hc
  rw [hb.disjoint k e he] at hi
  exact absurd hi (by simp)

end Runs

/-- A pool of three chunks of four bytes. -/
def smallOptions : RangeOptions where
  policy := .rolling
  maxBytes := 12
  chunkBytes := 4
  readAheadChunks := 2
  nextEpisodePrefetchChunks := 2
  chunkBytes_pos := by decide
  chunkBytes_le := fun _ => by decide

/-- Fetch a chunk, read it twice, release it once, and start a read-ahead that fails. -/
def smallRun : List PoolLabel :=
  let first : ChunkKey := ⟨"a", 0⟩
  let second : ChunkKey := ⟨"a", 1⟩
  [.acquire first 9 4 [], .writeFile first (chunkPath first) ⟨.regular, [1, 2, 3, 4], 0, 4⟩,
    .complete first true none, .acquire first 9 4 [], .acquire first 9 4 [], .release 0,
    .schedule second 9 4 .readAhead (some first) [], .complete second false (some .other)]

theorem rolling_retention_accounting_small : ∃ s,
    (poolSystem smallOptions).run (emptyPool smallOptions ⟨∅, ∅⟩) smallRun = some s ∧
      s.outstanding = [0] ∧ s.shared.current = 4 ∧ RetentionAccounting s := by
  obtain ⟨s, hs⟩ : ∃ s, (poolSystem smallOptions).run (emptyPool smallOptions ⟨∅, ∅⟩) smallRun =
      some s := Option.isSome_iff_exists.1 (by decide)
  have hvalues : ((poolSystem smallOptions).run (emptyPool smallOptions ⟨∅, ∅⟩) smallRun).map
      (fun s => (s.outstanding, s.shared.current)) = some ([0], 4) := by decide
  rw [hs, Option.map_some, Option.some.injEq, Prod.mk.injEq] at hvalues
  have hinit : (poolSystem smallOptions).init (emptyPool smallOptions ⟨∅, ∅⟩) :=
    ⟨⟨∅, ∅⟩, [], rfl⟩
  exact ⟨s, hs, hvalues.1, hvalues.2,
    (rolling_retention_accounting rfl (System.reachable_of_run hinit hs)).1⟩

end BlackPearl.Cache
