import BlackPearl.Cache.Retention

/-!
# Background fetches and current data

What one background scheduling step of a rolling pool may cost. A read-ahead evicts, but never what
is pinned, never the chunk that was just demanded, and not beyond the headroom of one chunk. A
next-episode prefetch is meant to stop instead of evicting, and does so when the pool is full. Before
it looks at the pool it makes room below the size of its own object, though, and drops that object's
chunks to do so (`scheduleChunkLocked_spares_iff`).
-/

set_option autoImplicit false

namespace BlackPearl.Cache

open BlackPearl.Library

/-! ## Eviction loops -/

section Loops

variable {s : PoolState} {candidate : ChunkKey → Bool} {exceeds : RollingShared → Bool}
  {fails : List FilePath}

/-- An eviction loop keeps every chunk that is no candidate. -/
theorem evictWhile_keeps {k : ChunkKey} {e : ChunkEntry} (hk : candidate k = false)
    (h : s.shared.chunks.lookup k = some e) :
    (evictWhile fails (oldestUnpinned · candidate) exceeds s).1.shared.chunks.lookup k = some e := by
  refine Evictor.run_invariant (I := fun t => t.shared.chunks.lookup k = some e) ?_ _ s h
  intro t u v ht he
  have hne : k ≠ v.1 := by
    rintro rfl
    have hv := (oldestUnpinned_some (e := v.2) he.victim).2.2
    rw [hk] at hv
    cases hv
  rw [he.drop]
  exact (lookup_dropChunk t v k).trans ((if_neg hne).trans ht)

/-- The chunk that an eviction loop takes first is gone after it. -/
theorem evictWhile_drops {v : ChunkKey × ChunkEntry} (hover : exceeds s.shared = true)
    (hv : oldestUnpinned s.shared candidate = some v) (hremovable : v.2.path ∉ fails) :
    (evictWhile fails (oldestUnpinned · candidate) exceeds s).1.shared.chunks.lookup v.1 = none := by
  have hlookup := (oldestUnpinned_some (e := v.2) hv).1
  have hlt := Table.length_erase_lt hlookup
  have hpos : s.shared.chunks.entries.length ≠ 0 := by omega
  obtain ⟨fuel, hfuel⟩ := Nat.exists_eq_succ_of_ne_zero hpos
  have hfirst : (evictor fails (oldestUnpinned · candidate) exceeds).Evicts s (dropChunk s v) v :=
    ⟨hover, hv, decide_eq_true hremovable, rfl⟩
  rw [evictWhile, hfuel, Evictor.run_succ_of_evicts hfirst]
  have hdropped : (dropChunk s v).shared.chunks.lookup v.1 = none := by
    rw [lookup_dropChunk, if_pos rfl]
  exact (evictor_evicted (offersUnpinned_oldestUnpinned candidate) fuel _).chunk_absent hdropped

/-- A loop that has no reason or no means to evict leaves the pool alone. -/
theorem evictWhile_eq_self
    (h : exceeds s.shared = true → ∀ v, oldestUnpinned s.shared candidate = some v →
      v.2.path ∈ fails) :
    (evictWhile fails (oldestUnpinned · candidate) exceeds s).1 = s := by
  refine Evictor.run_eq_self fun hover v hv => ?_
  exact decide_eq_false (not_not.2 (h hover v hv))

end Loops

/-! ## One scheduling step -/

/-- An entry and its file are still there. -/
def KeepsChunk (s t : PoolState) (k : ChunkKey) : Prop :=
  ∀ e, s.shared.chunks.lookup k = some e →
    t.shared.chunks.lookup k = some e ∧ t.disk.files.lookup e.path = s.disk.files.lookup e.path

/-- What a background scheduling step of the given kind, which protects the chunk `keep`, must
leave: the headroom that read-ahead retains, what is pinned, the protected chunk, and for a prefetch
every chunk. -/
structure Spares (s t : PoolState) (kind : BackgroundFetchKind) (keep : Option ChunkKey)
    (result : ScheduleResult) : Prop where
  headroom : kind = .readAhead → (∃ call, result = .started call) →
    t.shared.current + t.shared.reserved ≤
      t.shared.options.maxBytes - (t.shared.options.chunkBytes : ℤ)
  pinned : KeepsPinned s t
  demanded : ∀ k ∈ keep, KeepsChunk s t k
  prefetch : kind = .nextEpisode → ∀ k, KeepsChunk s t k

/-- A step for an absent chunk that would make its object complete, while the object has an unpinned
chunk that is not protected and whose file can be removed. -/
def EvictsOwn (s : PoolState) (key : ChunkKey) (logicalSize expected : ℕ) (keep : Option ChunkKey)
    (fails : List FilePath) : Prop :=
  s.shared.chunks.lookup key = none ∧ s.shared.inflight.lookup key = none ∧
    objectUsageLocked s.shared key.object + expected > (logicalSize : ℤ) - 1 ∧
    ∃ v, oldestUnpinnedObjectChunkExceptLocked s.shared key.object keep = some v ∧
      v.2.path ∉ fails

section Steps

variable {s : PoolState} {key : ChunkKey} {logicalSize expected : ℕ} {kind : BackgroundFetchKind}
  {keep : Option ChunkKey} {fails : List FilePath}

/-- What a reservation attempt of a rolling pool does after it has made room within the object:
evictions, and when it succeeds the reservation, within the headroom. -/
inductive BackgroundReservation (s : PoolState) (expected : ℕ) (keep : Option ChunkKey) :
    PoolState → Bool → Prop
  | refused {u : PoolState} : Evicted s u → (∀ k ∈ keep, KeepsChunk s u k) →
      BackgroundReservation s expected keep u false
  | granted {u : PoolState} : Evicted s u → (∀ k ∈ keep, KeepsChunk s u k) →
      u.shared.current + u.shared.reserved + expected ≤
        u.shared.options.maxBytes - (u.shared.options.chunkBytes : ℤ) →
      BackgroundReservation s expected keep (reserveLocked u expected) true

theorem KeepsChunk.refl (s : PoolState) (k : ChunkKey) : KeepsChunk s s k := fun _ h => ⟨h, rfl⟩

theorem KeepsChunk.trans {s t u : PoolState} {k : ChunkKey} (h₁ : KeepsChunk s t k)
    (h₂ : KeepsChunk t u k) : KeepsChunk s u k := by
  intro e he
  obtain ⟨ht, hfile⟩ := h₁ e he
  obtain ⟨hu, hfile'⟩ := h₂ e ht
  exact ⟨hu, hfile'.trans hfile⟩

/-- Evictions keep a chunk with its file when they keep its entry. -/
theorem Evicted.keepsChunk {t : PoolState} (hev : Evicted s t) (hb : Books s) {k : ChunkKey}
    (h : ∀ e, s.shared.chunks.lookup k = some e → t.shared.chunks.lookup k = some e) :
    KeepsChunk s t k :=
  fun e he => ⟨h e he, hev.file_kept hb (h e he)⟩

theorem recordBackgroundErrorLocked_keepsChunk (s : PoolState) (kind : BackgroundFetchKind)
    (k : ChunkKey) : KeepsChunk s (recordBackgroundErrorLocked s kind) k := by
  cases kind <;> exact KeepsChunk.refl s k

/-- The chunk that a search protects is no candidate of it. -/
theorem ensureIncompleteObjectLocked_keeps (hb : Books s) (object : String) {k : ChunkKey}
    (hk : k ∈ keep) : KeepsChunk s
      (ensureIncompleteObjectLocked s object logicalSize expected keep fails).1 k := by
  refine (ensureIncompleteObjectLocked_evicted s object logicalSize expected keep fails).keepsChunk
    hb fun e he => evictWhile_keeps ?_ he
  rw [Option.mem_def] at hk
  simp [hk]

/-- The loop of a reservation that makes room in the pool. -/
theorem tryReserveBackgroundLocked_cases (hb : Books s)
    (hp : s.shared.options.policy = .rolling) (key : ChunkKey) (logicalSize expected : ℕ)
    (kind : BackgroundFetchKind) (keep : Option ChunkKey) (fails : List FilePath) :
    BackgroundReservation
      (ensureIncompleteObjectLocked s key.object logicalSize expected keep fails).1 expected keep
      (tryReserveBackgroundLocked s key logicalSize expected kind keep fails).1
      (tryReserveBackgroundLocked s key logicalSize expected kind keep fails).2 := by
  have hbu : Books (ensureIncompleteObjectLocked s key.object logicalSize expected keep fails).1 :=
    (ensureIncompleteObjectLocked_evicted s key.object logicalSize expected keep fails).books hb
  simp only [tryReserveBackgroundLocked, hp]
  split
  · next u hu =>
    rw [hu]
    exact .refused (recordBackgroundErrorLocked_evicted u kind)
      fun k _ => recordBackgroundErrorLocked_keepsChunk u kind k
  · next u hu =>
    rw [hu]
    exact .refused (.refl u) fun k _ => KeepsChunk.refl u k
  · next u hu =>
    rw [hu] at hbu ⊢
    split
    · exact .refused (.refl u) fun k _ => KeepsChunk.refl u k
    · have hev : Evicted u (evictWhile fails (oldestUnpinnedExceptLocked · keep)
          (fun sh => sh.current + sh.reserved + expected >
            sh.options.maxBytes - sh.options.chunkBytes) u).1 :=
        evictWhile_evicted (offersUnpinned_oldestUnpinned _) u
      have hkeep : ∀ k ∈ keep, KeepsChunk u (evictWhile fails (oldestUnpinnedExceptLocked · keep)
          (fun sh => sh.current + sh.reserved + expected >
            sh.options.maxBytes - sh.options.chunkBytes) u).1 k := by
        intro k hk
        rw [Option.mem_def] at hk
        exact hev.keepsChunk hbu fun e he => evictWhile_keeps (by simp [hk]) he
      split
      · next v hv =>
        rw [hv] at hev hkeep
        exact .refused (hev.trans (recordBackgroundErrorLocked_evicted v kind)) fun k hk =>
          (hkeep k hk).trans (recordBackgroundErrorLocked_keepsChunk v kind k)
      · next v hv =>
        rw [hv] at hev hkeep
        exact .refused hev hkeep
      · next v hv =>
        have hfits := evictWhile_fits (congrArg Prod.snd hv)
        rw [hv] at hev hkeep hfits
        refine .granted hev hkeep ?_
        simpa using hfits

/-- The files and entries after a fetch has been started are those before. -/
theorem startFetch_keepsChunk (s : PoolState) (key : ChunkKey) (kind : BackgroundFetchKind)
    (expected : ℕ) (k : ChunkKey) : KeepsChunk s
      (recordBackgroundFetchLocked (startFetch (reserveLocked s expected) key kind expected).1
        kind) k := by
  cases kind <;> exact KeepsChunk.refl s k

/-- What a step for an absent chunk does after it has made room within the object: evictions, and
when it starts a fetch the pool is within the headroom. -/
inductive ScheduleCase (u : PoolState) (keep : Option ChunkKey) : PoolState → ScheduleResult → Prop
  | refused {v : PoolState} : Evicted u v → (∀ k ∈ keep, KeepsChunk u v k) →
      ScheduleCase u keep v .refused
  | started {v t : PoolState} {call : FetchCall} : Evicted u v → (∀ k ∈ keep, KeepsChunk u v k) →
      (∀ k, KeepsChunk v t k) → t.shared.chunks = v.shared.chunks →
      t.shared.current + t.shared.reserved ≤
        t.shared.options.maxBytes - (t.shared.options.chunkBytes : ℤ) →
      ScheduleCase u keep t (.started call)

theorem scheduleChunkLocked_cases (hb : Books s) (hp : s.shared.options.policy = .rolling)
    {key : ChunkKey} (hc : s.shared.chunks.lookup key = none)
    (hi : s.shared.inflight.lookup key = none) (logicalSize expected : ℕ)
    (kind : BackgroundFetchKind) (keep : Option ChunkKey) (fails : List FilePath) :
    ScheduleCase (ensureIncompleteObjectLocked s key.object logicalSize expected keep fails).1 keep
      (scheduleChunkLocked s key logicalSize expected kind keep fails).1
      (scheduleChunkLocked s key logicalSize expected kind keep fails).2 := by
  have habsent : ¬ ((s.shared.chunks.lookup key).isSome ∨ (s.shared.inflight.lookup key).isSome) := by
    simp [hc, hi]
  have hres := tryReserveBackgroundLocked_cases hb hp key logicalSize expected kind keep fails
  simp only [scheduleChunkLocked, if_neg habsent]
  split
  · next v hv =>
    rw [hv] at hres
    cases hres with
    | refused hev hkeep => exact .refused hev hkeep
  · next v hv =>
    rw [hv] at hres
    cases hres with
    | @granted w hev hkeep hroom =>
      refine .started hev hkeep (startFetch_keepsChunk w key kind expected) ?_ ?_
      · cases kind <;> rfl
      · have hsum : w.shared.current + (w.shared.reserved + expected) ≤
            w.shared.options.maxBytes - (w.shared.options.chunkBytes : ℤ) := by omega
        cases kind <;> exact hsum

theorem ScheduleCase.keepsDemanded {u t : PoolState} {r : ScheduleResult}
    (h : ScheduleCase u keep t r) : ∀ k ∈ keep, KeepsChunk u t k := by
  cases h with
  | refused _ hkeep => exact hkeep
  | started _ hkeep hsame _ _ => exact fun k hk => (hkeep k hk).trans (hsame k)

/-- A chunk that is gone after the room was made within the object stays away. -/
theorem ScheduleCase.chunk_absent {u t : PoolState} {r : ScheduleResult} {k : ChunkKey}
    (h : ScheduleCase u keep t r) (hk : u.shared.chunks.lookup k = none) :
    t.shared.chunks.lookup k = none := by
  cases h with
  | refused hev _ => exact hev.chunk_absent hk
  | started hev _ _ hchunks _ =>
    rw [hchunks]
    exact hev.chunk_absent hk

theorem ScheduleCase.headroom {u t : PoolState} {r : ScheduleResult}
    (h : ScheduleCase u keep t r) (hr : ∃ call, r = .started call) :
    t.shared.current + t.shared.reserved ≤
      t.shared.options.maxBytes - (t.shared.options.chunkBytes : ℤ) := by
  cases h with
  | refused _ _ =>
    obtain ⟨call, hcall⟩ := hr
    cases hcall
  | started _ _ _ _ hroom => exact hroom

/-- A prefetch that does not evict within its own object evicts nowhere. -/
theorem tryReserveBackgroundLocked_prefetch (hp : s.shared.options.policy = .rolling)
    {key : ChunkKey} {logicalSize expected : ℕ} {keep : Option ChunkKey} {fails : List FilePath}
    (hensure : (ensureIncompleteObjectLocked s key.object logicalSize expected keep fails).1 = s)
    (k : ChunkKey) : KeepsChunk s
      (tryReserveBackgroundLocked s key logicalSize expected .nextEpisode keep fails).1 k := by
  simp only [tryReserveBackgroundLocked, hp]
  split
  · next u hu =>
    rw [hu] at hensure
    obtain rfl : u = s := hensure
    exact recordBackgroundErrorLocked_keepsChunk u _ k
  · next u hu =>
    rw [hu] at hensure
    obtain rfl : u = s := hensure
    exact KeepsChunk.refl u k
  · next u hu =>
    rw [hu] at hensure
    obtain rfl : u = s := hensure
    split
    · exact KeepsChunk.refl u k
    · next hroom =>
      -- the headroom has just been checked, so the loop has nothing to do
      have hloop : (evictWhile fails (oldestUnpinnedExceptLocked · keep)
          (fun sh => sh.current + sh.reserved + expected >
            sh.options.maxBytes - sh.options.chunkBytes) u).1 = u :=
        evictWhile_eq_self fun hover => absurd ⟨trivial, of_decide_eq_true hover⟩ hroom
      split
      · next v hv =>
        rw [hv] at hloop
        obtain rfl : v = u := hloop
        exact recordBackgroundErrorLocked_keepsChunk v _ k
      · next v hv =>
        rw [hv] at hloop
        obtain rfl : v = u := hloop
        exact KeepsChunk.refl v k
      · next v hv =>
        rw [hv] at hloop
        obtain rfl : v = u := hloop
        exact KeepsChunk.refl v k

/-- The step of a prefetch that does not evict within its own object. -/
theorem scheduleChunkLocked_prefetch (hp : s.shared.options.policy = .rolling) {key : ChunkKey}
    {logicalSize expected : ℕ} {keep : Option ChunkKey} {fails : List FilePath}
    (hown : ¬ EvictsOwn s key logicalSize expected keep fails) (k : ChunkKey) :
    KeepsChunk s (scheduleChunkLocked s key logicalSize expected .nextEpisode keep fails).1 k := by
  unfold scheduleChunkLocked
  split
  · exact KeepsChunk.refl s k
  · next habsent =>
    simp only [not_or, Option.not_isSome_iff_eq_none] at habsent
    have hensure :
        (ensureIncompleteObjectLocked s key.object logicalSize expected keep fails).1 = s := by
      refine evictWhile_eq_self fun hover v hv => ?_
      by_contra hremovable
      exact hown ⟨habsent.1, habsent.2, of_decide_eq_true hover, v, hv, hremovable⟩
    have hkeep := tryReserveBackgroundLocked_prefetch hp hensure k
    split
    · next v hv =>
      rw [hv] at hkeep
      exact hkeep
    · next v hv =>
      rw [hv] at hkeep
      exact hkeep

/-- A step that evicts within its own object loses a chunk. -/
theorem EvictsOwn.loses (hb : Books s) (hp : s.shared.options.policy = .rolling) {key : ChunkKey}
    {logicalSize expected : ℕ} {keep : Option ChunkKey} {fails : List FilePath}
    (h : EvictsOwn s key logicalSize expected keep fails) (kind : BackgroundFetchKind) :
    ∃ k, ¬ KeepsChunk s (scheduleChunkLocked s key logicalSize expected kind keep fails).1 k := by
  obtain ⟨hc, hi, hover, v, hv, hremovable⟩ := h
  have hdropped : (ensureIncompleteObjectLocked s key.object logicalSize expected keep
      fails).1.shared.chunks.lookup v.1 = none :=
    evictWhile_drops (decide_eq_true hover) hv hremovable
  refine ⟨v.1, fun hkept => ?_⟩
  have hstep := scheduleChunkLocked_cases hb hp hc hi logicalSize expected kind keep fails
  have hthere := (hkept v.2 (oldestUnpinned_some (e := v.2) hv).1).1
  rw [hstep.chunk_absent hdropped] at hthere
  cases hthere

/-- Whatever the step does, what is pinned and the protected chunk are still there, and the pool is
within the headroom when a fetch has been started. -/
theorem scheduleChunkLocked_keeps (hb : Books s) (hp : s.shared.options.policy = .rolling)
    (key : ChunkKey) (logicalSize expected : ℕ) (kind : BackgroundFetchKind)
    (keep : Option ChunkKey) (fails : List FilePath) :
    (∀ k ∈ keep,
      KeepsChunk s (scheduleChunkLocked s key logicalSize expected kind keep fails).1 k) ∧
    ((∃ call, (scheduleChunkLocked s key logicalSize expected kind keep fails).2 = .started call) →
      (scheduleChunkLocked s key logicalSize expected kind keep fails).1.shared.current +
          (scheduleChunkLocked s key logicalSize expected kind keep fails).1.shared.reserved ≤
        (scheduleChunkLocked s key logicalSize expected kind keep fails).1.shared.options.maxBytes -
          ((scheduleChunkLocked s key logicalSize expected kind keep
            fails).1.shared.options.chunkBytes : ℤ)) := by
  by_cases habsent : (s.shared.chunks.lookup key).isSome ∨ (s.shared.inflight.lookup key).isSome
  · rw [scheduleChunkLocked, if_pos habsent]
    refine ⟨fun k _ => KeepsChunk.refl s k, ?_⟩
    rintro ⟨call, hcall⟩
    cases hcall
  · simp only [not_or, Option.not_isSome_iff_eq_none] at habsent
    have hstep :=
      scheduleChunkLocked_cases hb hp habsent.1 habsent.2 logicalSize expected kind keep fails
    refine ⟨fun k hk => ?_, hstep.headroom⟩
    exact (ensureIncompleteObjectLocked_keeps hb key.object hk).trans (hstep.keepsDemanded k hk)

end Steps

/-! ## Runs -/

/-- In every reachable state of a rolling pool a background scheduling step spares current data,
except a next-episode prefetch that evicts chunks of its own object. -/
theorem scheduleChunkLocked_spares_iff {options : RangeOptions} (hp : options.policy = .rolling)
    {s : PoolState} (h : (poolSystem options).Reachable s) (key : ChunkKey)
    (logicalSize expected : ℕ) (kind : BackgroundFetchKind) (keep : Option ChunkKey)
    (fails : List FilePath) :
    Spares s (scheduleChunkLocked s key logicalSize expected kind keep fails).1 kind keep
        (scheduleChunkLocked s key logicalSize expected kind keep fails).2 ↔
      (kind = .nextEpisode → ¬ EvictsOwn s key logicalSize expected keep fails) := by
  have hb := reachable_books h
  have hrolling : s.shared.options.policy = .rolling := by rw [reachable_options h, hp]
  constructor
  · rintro hspares rfl hown
    obtain ⟨k, hlost⟩ := hown.loses hb hrolling .nextEpisode
    exact hlost (hspares.prefetch rfl k)
  · intro hown
    obtain ⟨hdemanded, hheadroom⟩ :=
      scheduleChunkLocked_keeps hb hrolling key logicalSize expected kind keep fails
    have hpinned := (scheduleChunkLocked_spec s key logicalSize expected kind keep fails).keepsPinned
      hb
    refine ⟨fun _ => hheadroom, hpinned, hdemanded, ?_⟩
    rintro rfl
    exact scheduleChunkLocked_prefetch hrolling (hown rfl)

/-- Prefetch the first chunk of an object of two chunks. -/
def prefetchRun : List PoolLabel :=
  let first : ChunkKey := ⟨"b", 0⟩
  [.schedule first 8 4 .nextEpisode none [],
    .writeFile first (chunkPath first) ⟨.regular, [1, 2, 3, 4], 0, 4⟩, .complete first true none]

/-- The theorem above for a read-ahead behind that chunk. -/
theorem spares_readAhead : ∃ s,
    (poolSystem smallOptions).run (emptyPool smallOptions ⟨∅, ∅⟩) prefetchRun = some s ∧
      (Spares s (scheduleChunkLocked s ⟨"b", 1⟩ 8 4 .readAhead (some ⟨"b", 0⟩) []).1 .readAhead
          (some ⟨"b", 0⟩) (scheduleChunkLocked s ⟨"b", 1⟩ 8 4 .readAhead (some ⟨"b", 0⟩) []).2 ↔
        (BackgroundFetchKind.readAhead = .nextEpisode →
          ¬ EvictsOwn s ⟨"b", 1⟩ 8 4 (some ⟨"b", 0⟩) [])) := by
  obtain ⟨s, hs⟩ : ∃ s, (poolSystem smallOptions).run (emptyPool smallOptions ⟨∅, ∅⟩) prefetchRun =
      some s := Option.isSome_iff_exists.1 (by decide)
  have hinit : (poolSystem smallOptions).init (emptyPool smallOptions ⟨∅, ∅⟩) :=
    ⟨⟨∅, ∅⟩, [], rfl⟩
  exact ⟨s, hs, scheduleChunkLocked_spares_iff rfl (System.reachable_of_run hinit hs) _ _ _ _ _ _⟩

/-- The prefetch of the second chunk takes the first one away. -/
theorem prefetch_evicts : ∃ s, (poolSystem smallOptions).Reachable s ∧
    ¬ Spares s (scheduleChunkLocked s ⟨"b", 1⟩ 8 4 .nextEpisode none []).1 .nextEpisode none
      (scheduleChunkLocked s ⟨"b", 1⟩ 8 4 .nextEpisode none []).2 := by
  obtain ⟨s, hs⟩ : ∃ s, (poolSystem smallOptions).run (emptyPool smallOptions ⟨∅, ∅⟩) prefetchRun =
      some s := Option.isSome_iff_exists.1 (by decide)
  have hvalues : ((poolSystem smallOptions).run (emptyPool smallOptions ⟨∅, ∅⟩) prefetchRun).map
      (fun s => ((s.shared.chunks.lookup ⟨"b", 0⟩).isSome,
        ((scheduleChunkLocked s ⟨"b", 1⟩ 8 4 .nextEpisode none []).1.shared.chunks.lookup
          ⟨"b", 0⟩).isNone)) = some (true, true) := by decide
  rw [hs, Option.map_some, Option.some.injEq, Prod.mk.injEq] at hvalues
  have hinit : (poolSystem smallOptions).init (emptyPool smallOptions ⟨∅, ∅⟩) :=
    ⟨⟨∅, ∅⟩, [], rfl⟩
  refine ⟨s, System.reachable_of_run hinit hs, fun hspares => ?_⟩
  obtain ⟨e, he⟩ := Option.isSome_iff_exists.1 hvalues.1
  have hkept := (hspares.prefetch rfl ⟨"b", 0⟩ e he).1
  rw [Option.isNone_iff_eq_none.1 hvalues.2] at hkept
  cases hkept

end BlackPearl.Cache
