import BlackPearl.Cache.Pool
import Mathlib.Tactic.Linarith

/-!
# Accounting of the shared pool

`Books` is what every section under the pool's mutex keeps: the byte counters are the sums over the
tables, no key is both present and being fetched, the pins of an entry count the readers that hold
it. `Quota` is the bound that only the rolling policy has. Evictions are described once, by
`EvictionFrame`; every other section follows from it.
-/

set_option autoImplicit false

namespace BlackPearl.Cache

open BlackPearl.Library

/-- The sum of the sizes of the entries in `chunks`. -/
def chunkBytesTotal (sh : RollingShared) : ℤ := sh.chunks.total fun _ e => (e.size : ℤ)

/-- The sum of the expected sizes of the fetches in `inflight`. -/
def inflightBytesTotal (sh : RollingShared) : ℤ := sh.inflight.total fun _ c => (c.expected : ℤ)

/-- The bookkeeping invariant of the pool, whatever its policy. -/
structure Books (s : PoolState) : Prop where
  current_eq : s.shared.current = chunkBytesTotal s.shared
  reserved_eq : s.shared.reserved = inflightBytesTotal s.shared
  disjoint : ∀ k e, s.shared.chunks.lookup k = some e → s.shared.inflight.lookup k = none
  pins_eq : ∀ k e, s.shared.chunks.lookup k = some e → e.pins = (s.outstanding.count e.ref : ℤ)
  held : ∀ r ∈ s.outstanding, ∃ k e, s.shared.chunks.lookup k = some e ∧ e.ref = r
  path_eq : ∀ k e, s.shared.chunks.lookup k = some e → e.path = chunkPath k
  ref_lt : ∀ k e, s.shared.chunks.lookup k = some e → e.ref < s.nextEntry
  ref_inj : ∀ k k' e e', s.shared.chunks.lookup k = some e → s.shared.chunks.lookup k' = some e' →
    e.ref = e'.ref → k = k'
  access_le : ∀ k e, s.shared.chunks.lookup k = some e → e.lastAccess ≤ s.shared.tick
  access_inj : ∀ k k' e e', s.shared.chunks.lookup k = some e →
    s.shared.chunks.lookup k' = some e' → e.lastAccess = e'.lastAccess → k = k'

/-- The bound of the rolling policy on what is stored and reserved. -/
structure Quota (s : PoolState) : Prop where
  usage_le : s.shared.current + s.shared.reserved ≤ s.shared.highWater
  highWater_le : s.shared.highWater ≤ s.shared.options.maxBytes

/-! ## Evictions -/

/-- What an eviction loop may have done between two states: it dropped unpinned entries together
with their files, and counted an error; it changed nothing else. -/
structure EvictionFrame (s t : PoolState) : Prop where
  shared_eq : t.shared = { s.shared with
    chunks := t.shared.chunks
    current := t.shared.current
    evictions := t.shared.evictions
    readAheadErrors := t.shared.readAheadErrors
    nextEpisodeErrors := t.shared.nextEpisodeErrors }
  outstanding_eq : t.outstanding = s.outstanding
  finished_eq : t.finished = s.finished
  nextEntry_eq : t.nextEntry = s.nextEntry
  nextCall_eq : t.nextCall = s.nextCall
  root_eq : t.disk.root = s.disk.root
  chunks_sub : ∀ k e, t.shared.chunks.lookup k = some e → s.shared.chunks.lookup k = some e
  pinned_kept : ∀ k e, s.shared.chunks.lookup k = some e → e.pins ≠ 0 →
    t.shared.chunks.lookup k = some e
  files_sub : ∀ p node, t.disk.files.lookup p = some node → s.disk.files.lookup p = some node
  files_kept : ∀ p, (∀ k e, s.shared.chunks.lookup k = some e → t.shared.chunks.lookup k = none →
    e.path ≠ p) → t.disk.files.lookup p = s.disk.files.lookup p
  files_dropped : ∀ k e, s.shared.chunks.lookup k = some e → t.shared.chunks.lookup k = none →
    t.disk.files.lookup e.path = none

namespace EvictionFrame

theorem refl (s : PoolState) : EvictionFrame s s :=
  ⟨rfl, rfl, rfl, rfl, rfl, rfl, fun _ _ h => h, fun _ _ h _ => h, fun _ _ h => h, fun _ _ => rfl,
    fun _ _ h h' => absurd (h.symm.trans h') (by simp)⟩

theorem trans {s t u : PoolState} (h₁ : EvictionFrame s t) (h₂ : EvictionFrame t u) :
    EvictionFrame s u where
  shared_eq := by rw [h₂.shared_eq, h₁.shared_eq]
  outstanding_eq := h₂.outstanding_eq.trans h₁.outstanding_eq
  finished_eq := h₂.finished_eq.trans h₁.finished_eq
  nextEntry_eq := h₂.nextEntry_eq.trans h₁.nextEntry_eq
  nextCall_eq := h₂.nextCall_eq.trans h₁.nextCall_eq
  root_eq := h₂.root_eq.trans h₁.root_eq
  chunks_sub := fun k e h => h₁.chunks_sub k e (h₂.chunks_sub k e h)
  pinned_kept := fun k e h hp => h₂.pinned_kept k e (h₁.pinned_kept k e h hp) hp
  files_sub := fun p node h => h₁.files_sub p node (h₂.files_sub p node h)
  files_kept := fun p hp => by
    rw [h₂.files_kept p fun k e h hu => hp k e (h₁.chunks_sub k e h) hu]
    refine h₁.files_kept p fun k e h ht => hp k e h ?_
    cases hu : u.shared.chunks.lookup k with
    | none => rfl
    | some e' => exact absurd (ht.symm.trans (h₂.chunks_sub k e' hu)) (by simp)
  files_dropped := fun k e h hu => by
    cases ht : t.shared.chunks.lookup k with
    | none =>
      have hgone := h₁.files_dropped k e h ht
      cases hf : u.disk.files.lookup e.path with
      | none => rfl
      | some node => exact absurd (hgone.symm.trans (h₂.files_sub e.path node hf)) (by simp)
    | some e' =>
      have hsame : e' = e := Option.some.inj ((h₁.chunks_sub k e' ht).symm.trans h)
      exact hsame ▸ h₂.files_dropped k e' ht hu

variable {s t : PoolState} (h : EvictionFrame s t)

include h

theorem inflight_eq : t.shared.inflight = s.shared.inflight := by rw [h.shared_eq]

theorem reserved_eq : t.shared.reserved = s.shared.reserved := by rw [h.shared_eq]

theorem highWater_eq : t.shared.highWater = s.shared.highWater := by rw [h.shared_eq]

theorem options_eq : t.shared.options = s.shared.options := by rw [h.shared_eq]

theorem tick_eq : t.shared.tick = s.shared.tick := by rw [h.shared_eq]

/-- The file of an entry that is still there has been kept. -/
theorem file_kept (hb : Books s) {k : ChunkKey} {e : ChunkEntry}
    (hk : t.shared.chunks.lookup k = some e) :
    t.disk.files.lookup e.path = s.disk.files.lookup e.path := by
  refine h.files_kept e.path fun k' e' hk' hdropped hpath => ?_
  rw [hb.path_eq k' e' hk', hb.path_eq k e (h.chunks_sub k e hk)] at hpath
  rw [chunkPath_injective hpath, hk] at hdropped
  exact absurd hdropped (by simp)

theorem chunk_absent {k : ChunkKey} (hk : s.shared.chunks.lookup k = none) :
    t.shared.chunks.lookup k = none := by
  cases hc : t.shared.chunks.lookup k with
  | none => rfl
  | some e =>
    have := h.chunks_sub k e hc
    rw [hk] at this
    exact absurd this (by simp)

end EvictionFrame

/-- Looking up an entry after one was dropped. -/
theorem lookup_dropChunk (s : PoolState) (victim : ChunkKey × ChunkEntry) (k : ChunkKey) :
    (dropChunk s victim).shared.chunks.lookup k =
      if k = victim.1 then none else s.shared.chunks.lookup k :=
  Table.lookup_erase _ _ _

theorem dropChunk_frame {s : PoolState} {k : ChunkKey} {e : ChunkEntry}
    (hk : s.shared.chunks.lookup k = some e) (hp : e.pins = 0) :
    EvictionFrame s (dropChunk s (k, e)) where
  shared_eq := rfl
  outstanding_eq := rfl
  finished_eq := rfl
  nextEntry_eq := rfl
  nextCall_eq := rfl
  root_eq := rfl
  chunks_sub := by
    intro k' e' h
    rw [lookup_dropChunk] at h
    split at h
    · exact absurd h (by simp)
    · exact h
  pinned_kept := by
    intro k' e' h hp'
    have hne : k' ≠ k := by
      rintro rfl
      rw [hk, Option.some.injEq] at h
      exact hp' (h ▸ hp)
    rw [lookup_dropChunk, if_neg hne]
    exact h
  files_sub := by
    intro p node h
    change (s.disk.remove e.path).files.lookup p = some node at h
    rw [Disk.lookup_remove] at h
    split at h
    · exact absurd h (by simp)
    · exact h
  files_kept := by
    intro p hfree
    have hdropped : (dropChunk s (k, e)).shared.chunks.lookup k = none := by
      rw [lookup_dropChunk, if_pos rfl]
    have hne : p ≠ e.path := fun h => hfree k e hk hdropped h.symm
    show (s.disk.remove e.path).files.lookup p = _
    rw [Disk.lookup_remove, if_neg hne]
  files_dropped := by
    intro k' e' h hgone
    rw [lookup_dropChunk] at hgone
    split at hgone
    · next hk' =>
      obtain rfl : k' = k := hk'
      obtain rfl : e = e' := Option.some.inj (hk.symm.trans h)
      show (s.disk.remove e.path).files.lookup e.path = none
      rw [Disk.lookup_remove, if_pos rfl]
    · exact absurd (h.symm.trans hgone) (by simp)

/-- Dropping an unpinned entry keeps the books. -/
theorem Books.drop {s : PoolState} {k : ChunkKey} {e : ChunkEntry} (h : Books s)
    (hk : s.shared.chunks.lookup k = some e) (hp : e.pins = 0) : Books (dropChunk s (k, e)) := by
  have hf := dropChunk_frame hk hp
  have hsub := hf.chunks_sub
  refine ⟨?_, h.reserved_eq, fun k' e' h' => h.disjoint k' e' (hsub k' e' h'),
    fun k' e' h' => h.pins_eq k' e' (hsub k' e' h'), ?_,
    fun k' e' h' => h.path_eq k' e' (hsub k' e' h'), fun k' e' h' => h.ref_lt k' e' (hsub k' e' h'),
    fun _ _ _ _ h₁ h₂ => h.ref_inj _ _ _ _ (hsub _ _ h₁) (hsub _ _ h₂),
    fun k' e' h' => h.access_le k' e' (hsub k' e' h'),
    fun _ _ _ _ h₁ h₂ => h.access_inj _ _ _ _ (hsub _ _ h₁) (hsub _ _ h₂)⟩
  · show s.shared.current - e.size = Table.total _ (s.shared.chunks.erase k)
    rw [Table.total_erase hk, h.current_eq]
    rfl
  · intro r hr
    obtain ⟨k', e', hk', rfl⟩ := h.held r hr
    refine ⟨k', e', hf.pinned_kept k' e' hk' ?_, rfl⟩
    have hcount : 0 < s.outstanding.count e'.ref := List.count_pos_iff.2 hr
    rw [h.pins_eq k' e' hk']
    omega

theorem Quota.drop {s : PoolState} (h : Quota s) (v : ChunkKey × ChunkEntry) :
    Quota (dropChunk s v) := by
  have := h.usage_le
  refine ⟨?_, h.highWater_le⟩
  show s.shared.current - v.2.size + s.shared.reserved ≤ s.shared.highWater
  omega

/-- An eviction frame that also keeps the invariants. -/
structure Evicted (s t : PoolState) : Prop extends EvictionFrame s t where
  books : Books s → Books t
  quota : Quota s → Quota t

theorem Evicted.refl (s : PoolState) : Evicted s s := ⟨.refl s, id, id⟩

theorem Evicted.trans {s t u : PoolState} (h₁ : Evicted s t) (h₂ : Evicted t u) : Evicted s u :=
  ⟨h₁.toEvictionFrame.trans h₂.toEvictionFrame, h₂.books ∘ h₁.books, h₂.quota ∘ h₁.quota⟩

/-- The search of an eviction loop only ever offers unpinned entries of the table. -/
def OffersUnpinned (oldest : RollingShared → Option (ChunkKey × ChunkEntry)) : Prop :=
  ∀ sh k e, oldest sh = some (k, e) → sh.chunks.lookup k = some e ∧ e.pins = 0

theorem offersUnpinned_oldestUnpinned (candidate : ChunkKey → Bool) :
    OffersUnpinned (oldestUnpinned · candidate) := by
  intro sh k e h
  exact ⟨(oldestUnpinned_some h).1, (oldestUnpinned_some h).2.1⟩

theorem evictor_evicted {fails : List FilePath}
    {oldest : RollingShared → Option (ChunkKey × ChunkEntry)} {exceeds : RollingShared → Bool}
    (ho : OffersUnpinned oldest) (fuel : ℕ) (s : PoolState) :
    Evicted s ((evictor fails oldest exceeds).run fuel s).1 := by
  refine Evictor.run_related Evicted.refl (fun _ _ _ => Evicted.trans) ?_ fuel s
  rintro s t ⟨k, e⟩ he
  obtain ⟨hk, hp⟩ := ho _ _ _ he.victim
  rw [he.drop]
  exact ⟨dropChunk_frame hk hp, fun h => h.drop hk hp, fun h => h.drop _⟩

theorem evictWhile_evicted {fails : List FilePath}
    {oldest : RollingShared → Option (ChunkKey × ChunkEntry)} {exceeds : RollingShared → Bool}
    (ho : OffersUnpinned oldest) (s : PoolState) :
    Evicted s (evictWhile fails oldest exceeds s).1 :=
  evictor_evicted ho _ s

theorem evictWhile_fits {fails : List FilePath}
    {oldest : RollingShared → Option (ChunkKey × ChunkEntry)} {exceeds : RollingShared → Bool}
    {s : PoolState} (h : (evictWhile fails oldest exceeds s).2 = .fits) :
    exceeds (evictWhile fails oldest exceeds s).1.shared = false :=
  Evictor.run_fits _ _ h

/-- A loop that is stuck is over its bound and has only pinned candidates left. -/
theorem evictWhile_stuck {fails : List FilePath} (candidate : ChunkKey → Bool)
    {exceeds : RollingShared → Bool} {p q : PoolState}
    (h : evictWhile fails (oldestUnpinned · candidate) exceeds p = (q, .stuck)) :
    exceeds q.shared = true ∧ ∀ k e, q.shared.chunks.lookup k = some e → candidate k = true →
      e.pins ≠ 0 := by
  have hstuck := Evictor.run_stuck (E := evictor fails (oldestUnpinned · candidate) exceeds)
    (μ := fun s => s.shared.chunks.entries.length)
    (fun s v hv => Table.length_erase_lt (oldestUnpinned_some (e := v.2) hv).1)
    p.shared.chunks.entries.length p (le_refl _) (congrArg Prod.snd h)
  change exceeds (evictWhile fails (oldestUnpinned · candidate) exceeds p).1.shared = true ∧
    oldestUnpinned (evictWhile fails (oldestUnpinned · candidate) exceeds p).1.shared candidate = none
    at hstuck
  rw [h] at hstuck
  refine ⟨hstuck.1, fun k e hk hcandidate hpins => ?_⟩
  have hnone := Table.selectMin_eq_none.1 hstuck.2 k e hk
  rw [hcandidate, hpins] at hnone
  exact absurd hnone (by decide)

/-- A pool without entries holds nothing. -/
theorem Books.current_eq_zero {s : PoolState} (h : Books s)
    (hempty : ∀ k e, s.shared.chunks.lookup k ≠ some e) : s.shared.current = 0 := by
  rw [h.current_eq]
  apply Table.total_eq_zero
  intro k e he
  exact absurd ((Table.lookup_eq_some_iff_mem _ k e).2 he) (hempty k e)

theorem ensureIncompleteObjectLocked_evicted (s : PoolState) (object : String)
    (logicalSize expected : ℕ) (keep : Option ChunkKey) (fails : List FilePath) :
    Evicted s (ensureIncompleteObjectLocked s object logicalSize expected keep fails).1 :=
  evictWhile_evicted (offersUnpinned_oldestUnpinned _) s

theorem openObject_evicted (s : PoolState) (object : String) (logicalSize : ℕ)
    (fails : List FilePath) : Evicted s (openObject s object logicalSize fails).1 := by
  unfold openObject
  split
  · exact .refl s
  · exact ensureIncompleteObjectLocked_evicted s object logicalSize 0 none fails

/-! ## Reservations -/

theorem recordBackgroundErrorLocked_evicted (s : PoolState) (kind : BackgroundFetchKind) :
    Evicted s (recordBackgroundErrorLocked s kind) := by
  cases kind with
  | none => exact .refl s
  | readAhead =>
    exact ⟨{ EvictionFrame.refl s with shared_eq := rfl }, fun h => { h with }, fun h => { h with }⟩
  | nextEpisode =>
    exact ⟨{ EvictionFrame.refl s with shared_eq := rfl }, fun h => { h with }, fun h => { h with }⟩

/-- What a reservation attempt comes to: evictions only, or evictions and then the reservation,
which fits under the bound of the rolling policy. -/
inductive Reservation (s : PoolState) (expected : ℕ) : PoolState → Bool → Prop
  | refused {u : PoolState} : Evicted s u → Reservation s expected u false
  | granted {u : PoolState} : Evicted s u →
      (s.shared.options.policy = .rolling →
        u.shared.current + u.shared.reserved + expected ≤ u.shared.options.maxBytes) →
      Reservation s expected (reserveLocked u expected) true

theorem tryReserveLocked_spec (s : PoolState) (key : ChunkKey) (logicalSize expected : ℕ)
    (fails : List FilePath) :
    Reservation s expected (tryReserveLocked s key logicalSize expected fails).1
      ((tryReserveLocked s key logicalSize expected fails).2 == .fits) := by
  unfold tryReserveLocked
  split
  · next hp => exact .granted (.refl s) fun h => absurd (hp.symm.trans h) (by simp)
  · have hens := ensureIncompleteObjectLocked_evicted s key.object logicalSize expected none fails
    split
    · next u hu =>
      rw [hu] at hens
      have hev : Evicted u (evictWhile fails oldestUnpinnedLocked
          (fun sh => sh.current + sh.reserved + expected > sh.options.maxBytes) u).1 :=
        evictWhile_evicted (offersUnpinned_oldestUnpinned _) u
      split
      · next v hv =>
        have hfits := evictWhile_fits (congrArg Prod.snd hv)
        rw [hv] at hev hfits
        exact .granted (hens.trans hev) fun _ => by simpa using hfits
      · next v outcome hne hv =>
        rw [hv] at hev
        have hrefused : (outcome == EvictOutcome.fits) = false := by simpa using hne
        rw [hrefused]
        exact .refused (hens.trans hev)
    · next u outcome hne hu =>
      rw [hu] at hens
      have hrefused : (outcome == EvictOutcome.fits) = false := by simpa using hne
      rw [hrefused]
      exact .refused hens

theorem tryReserveBackgroundLocked_spec (s : PoolState) (key : ChunkKey)
    (logicalSize expected : ℕ) (kind : BackgroundFetchKind) (keep : Option ChunkKey)
    (fails : List FilePath) :
    Reservation s expected
      (tryReserveBackgroundLocked s key logicalSize expected kind keep fails).1
      (tryReserveBackgroundLocked s key logicalSize expected kind keep fails).2 := by
  unfold tryReserveBackgroundLocked
  split
  · next hp => exact .granted (.refl s) fun h => absurd (hp.symm.trans h) (by simp)
  · have hens := ensureIncompleteObjectLocked_evicted s key.object logicalSize expected keep fails
    split
    · next u hu =>
      rw [hu] at hens
      exact .refused (hens.trans (recordBackgroundErrorLocked_evicted u kind))
    · next u hu =>
      rw [hu] at hens
      exact .refused hens
    · next u hu =>
      rw [hu] at hens
      split
      · exact .refused hens
      · have hev : Evicted u (evictWhile fails (oldestUnpinnedExceptLocked · keep)
            (fun sh => sh.current + sh.reserved + expected >
              sh.options.maxBytes - sh.options.chunkBytes) u).1 :=
          evictWhile_evicted (offersUnpinned_oldestUnpinned _) u
        split
        · next v hv =>
          rw [hv] at hev
          exact .refused ((hens.trans hev).trans (recordBackgroundErrorLocked_evicted v kind))
        · next v hv =>
          rw [hv] at hev
          exact .refused (hens.trans hev)
        · next v hv =>
          have hfits := evictWhile_fits (congrArg Prod.snd hv)
          rw [hv] at hev hfits
          refine .granted (hens.trans hev) fun _ => ?_
          simp only [gt_iff_lt, decide_eq_false_iff_not, not_lt] at hfits
          omega

/-! ## Starting, pinning, releasing and finishing -/

/-- A reservation followed by the registration of the fetch keeps the books. -/
theorem Books.start {s : PoolState} (h : Books s) {key : ChunkKey} (kind : BackgroundFetchKind)
    (expected : ℕ) (hc : s.shared.chunks.lookup key = none)
    (hi : s.shared.inflight.lookup key = none) :
    Books (startFetch (reserveLocked s expected) key kind expected).1 := by
  refine { h with reserved_eq := ?_, disjoint := ?_ }
  · show s.shared.reserved + expected = Table.total _ (s.shared.inflight.insert key _)
    rw [Table.total_insert_of_notMem hi, h.reserved_eq]
    rfl
  · intro k e hk
    show (s.shared.inflight.insert key _).lookup k = none
    have hne : k ≠ key := by
      rintro rfl
      exact absurd (hc.symm.trans hk) (by simp)
    rw [Table.lookup_insert, if_neg hne]
    exact h.disjoint k e hk

theorem Quota.start {s : PoolState} (h : Quota s) (key : ChunkKey) (kind : BackgroundFetchKind)
    (expected : ℕ) (hroom : s.shared.current + s.shared.reserved + expected ≤
      s.shared.options.maxBytes) :
    Quota (startFetch (reserveLocked s expected) key kind expected).1 := by
  have h₁ := h.usage_le
  have h₂ := h.highWater_le
  refine ⟨?_, ?_⟩
  · show s.shared.current + (s.shared.reserved + expected) ≤
      max s.shared.highWater (s.shared.current + (s.shared.reserved + expected))
    exact le_max_right _ _
  · show max s.shared.highWater (s.shared.current + (s.shared.reserved + expected)) ≤
      s.shared.options.maxBytes
    exact max_le h₂ (by omega)

theorem lookup_pinChunk (s : PoolState) (key k : ChunkKey) (entry : ChunkEntry) :
    (pinChunk s key entry).1.shared.chunks.lookup k =
      if k = key then some (pinChunk s key entry).2 else s.shared.chunks.lookup k :=
  Table.lookup_insert _ _ _ _

/-- Entries before and after a pin agree on everything but pins and access time. -/
theorem pinChunk_lookup_cases {s : PoolState} {key k : ChunkKey} {entry e : ChunkEntry}
    (hk : s.shared.chunks.lookup key = some entry)
    (h : (pinChunk s key entry).1.shared.chunks.lookup k = some e) :
    ∃ e₀, s.shared.chunks.lookup k = some e₀ ∧ e.ref = e₀.ref ∧ e.path = e₀.path ∧
      e.size = e₀.size ∧
      (k = key ∧ e.pins = e₀.pins + 1 ∧ e.lastAccess = s.shared.tick + 1 ∨ k ≠ key ∧ e = e₀) := by
  rw [lookup_pinChunk] at h
  split at h
  · next hkey =>
    subst hkey
    simp only [Option.some.injEq] at h
    subst h
    exact ⟨entry, hk, rfl, rfl, rfl, Or.inl ⟨rfl, rfl, rfl⟩⟩
  · next hne => exact ⟨e, h, rfl, rfl, rfl, Or.inr ⟨hne, rfl⟩⟩

theorem Books.pin {s : PoolState} (h : Books s) {key : ChunkKey} {entry : ChunkEntry}
    (hk : s.shared.chunks.lookup key = some entry) : Books (pinChunk s key entry).1 where
  current_eq := by
    show s.shared.current = Table.total _ (s.shared.chunks.insert key _)
    rw [Table.total_insert_of_lookup hk, h.current_eq, sub_add_cancel]
    rfl
  reserved_eq := h.reserved_eq
  disjoint := by
    intro k e he
    obtain ⟨e₀, he₀, -⟩ := pinChunk_lookup_cases hk he
    exact h.disjoint k e₀ he₀
  pins_eq := by
    intro k e he
    obtain ⟨e₀, he₀, href, -, -, hcase⟩ := pinChunk_lookup_cases hk he
    show e.pins = ((entry.ref :: s.outstanding).count e.ref : ℤ)
    rw [List.count_cons, href]
    rcases hcase with ⟨rfl, hpins, -⟩ | ⟨hne, rfl⟩
    · have hsame : e₀ = entry := Option.some.inj (he₀.symm.trans hk)
      rw [hpins, h.pins_eq k e₀ he₀, hsame]
      simp
    · have href' : entry.ref ≠ e.ref := fun heq => hne (h.ref_inj _ _ _ _ he₀ hk heq.symm)
      rw [h.pins_eq k e he₀]
      simp [href']
  held := by
    have hkeep : ∀ k e, s.shared.chunks.lookup k = some e → ∃ e',
        (pinChunk s key entry).1.shared.chunks.lookup k = some e' ∧ e'.ref = e.ref := by
      intro k e he
      rw [lookup_pinChunk]
      split
      · next hkey =>
        subst hkey
        have hsame : e = entry := Option.some.inj (he.symm.trans hk)
        exact ⟨_, rfl, by rw [hsame]; rfl⟩
      · exact ⟨e, he, rfl⟩
    intro r hr
    rcases List.mem_cons.1 hr with rfl | hr
    · obtain ⟨e', he', href⟩ := hkeep key entry hk
      exact ⟨key, e', he', href⟩
    · obtain ⟨k, e, he, rfl⟩ := h.held r hr
      obtain ⟨e', he', href⟩ := hkeep k e he
      exact ⟨k, e', he', href⟩
  path_eq := by
    intro k e he
    obtain ⟨e₀, he₀, -, hpath, -⟩ := pinChunk_lookup_cases hk he
    rw [hpath, h.path_eq k e₀ he₀]
  ref_lt := by
    intro k e he
    obtain ⟨e₀, he₀, href, -⟩ := pinChunk_lookup_cases hk he
    rw [href]
    exact h.ref_lt k e₀ he₀
  ref_inj := by
    intro k k' e e' he he' heq
    obtain ⟨e₀, he₀, href, -⟩ := pinChunk_lookup_cases hk he
    obtain ⟨e₀', he₀', href', -⟩ := pinChunk_lookup_cases hk he'
    exact h.ref_inj k k' e₀ e₀' he₀ he₀' (by rw [← href, ← href', heq])
  access_le := by
    intro k e he
    obtain ⟨e₀, he₀, -, -, -, hcase⟩ := pinChunk_lookup_cases hk he
    have hle := h.access_le k e₀ he₀
    show e.lastAccess ≤ s.shared.tick + 1
    rcases hcase with ⟨-, -, hacc⟩ | ⟨-, rfl⟩
    · omega
    · omega
  access_inj := by
    intro k k' e e' he he' heq
    obtain ⟨e₀, he₀, -, -, -, hcase⟩ := pinChunk_lookup_cases hk he
    obtain ⟨e₀', he₀', -, -, -, hcase'⟩ := pinChunk_lookup_cases hk he'
    have hle := h.access_le k e₀ he₀
    have hle' := h.access_le k' e₀' he₀'
    rcases hcase with ⟨hkey, -, hacc⟩ | ⟨-, rfl⟩ <;> rcases hcase' with ⟨hkey', -, hacc'⟩ | ⟨-, rfl⟩
    · rw [hkey, hkey']
    · omega
    · omega
    · exact h.access_inj k k' _ _ he₀ he₀' heq

theorem Quota.pin {s : PoolState} (h : Quota s) (key : ChunkKey) (entry : ChunkEntry) :
    Quota (pinChunk s key entry).1 :=
  ⟨h.usage_le, h.highWater_le⟩

/-- The effect of a release on one entry. -/
def unpin (ref : ℕ) (e : ChunkEntry) : ChunkEntry :=
  if e.ref = ref then { e with pins := e.pins - 1 } else e

theorem lookup_releaseChunk (s : PoolState) (ref : ℕ) (k : ChunkKey) :
    (releaseChunk s ref).shared.chunks.lookup k = (s.shared.chunks.lookup k).map (unpin ref) :=
  Table.lookup_mapValues _ _ _

theorem unpin_ref (ref : ℕ) (e : ChunkEntry) : (unpin ref e).ref = e.ref := by
  unfold unpin
  split <;> rfl

theorem unpin_path (ref : ℕ) (e : ChunkEntry) : (unpin ref e).path = e.path := by
  unfold unpin
  split <;> rfl

theorem unpin_size (ref : ℕ) (e : ChunkEntry) : (unpin ref e).size = e.size := by
  unfold unpin
  split <;> rfl

theorem unpin_lastAccess (ref : ℕ) (e : ChunkEntry) : (unpin ref e).lastAccess = e.lastAccess := by
  unfold unpin
  split <;> rfl

theorem unpin_pins (ref : ℕ) (e : ChunkEntry) :
    (unpin ref e).pins = if e.ref = ref then e.pins - 1 else e.pins := by
  unfold unpin
  split <;> rfl

theorem releaseChunk_lookup_cases {s : PoolState} {ref : ℕ} {k : ChunkKey} {e : ChunkEntry}
    (h : (releaseChunk s ref).shared.chunks.lookup k = some e) :
    ∃ e₀, s.shared.chunks.lookup k = some e₀ ∧ e = unpin ref e₀ := by
  rw [lookup_releaseChunk, Option.map_eq_some_iff] at h
  obtain ⟨e₀, he₀, heq⟩ := h
  exact ⟨e₀, he₀, heq.symm⟩

theorem Books.release {s : PoolState} (h : Books s) {ref : ℕ} (hr : ref ∈ s.outstanding) :
    Books (releaseChunk s ref) where
  current_eq := by
    show s.shared.current = Table.total _ (Table.mapValues (fun _ => unpin ref) s.shared.chunks)
    rw [Table.total_mapValues, h.current_eq]
    exact Table.total_congr fun k e _ => by rw [unpin_size]
  reserved_eq := h.reserved_eq
  disjoint := by
    intro k e he
    obtain ⟨e₀, he₀, -⟩ := releaseChunk_lookup_cases he
    exact h.disjoint k e₀ he₀
  pins_eq := by
    intro k e he
    obtain ⟨e₀, he₀, rfl⟩ := releaseChunk_lookup_cases he
    show (unpin ref e₀).pins = ((s.outstanding.erase ref).count (unpin ref e₀).ref : ℤ)
    rw [unpin_pins, unpin_ref, h.pins_eq k e₀ he₀]
    split
    · next heq =>
      have hpos : 0 < s.outstanding.count ref := List.count_pos_iff.2 hr
      rw [heq, List.count_erase_self]
      omega
    · next hne => rw [List.count_erase_of_ne hne]
  held := by
    intro r hr'
    obtain ⟨k, e, he, rfl⟩ := h.held r (List.mem_of_mem_erase hr')
    refine ⟨k, unpin ref e, ?_, unpin_ref _ _⟩
    rw [lookup_releaseChunk, he]
    rfl
  path_eq := by
    intro k e he
    obtain ⟨e₀, he₀, rfl⟩ := releaseChunk_lookup_cases he
    rw [unpin_path, h.path_eq k e₀ he₀]
  ref_lt := by
    intro k e he
    obtain ⟨e₀, he₀, rfl⟩ := releaseChunk_lookup_cases he
    rw [unpin_ref]
    exact h.ref_lt k e₀ he₀
  ref_inj := by
    intro k k' e e' he he' heq
    obtain ⟨e₀, he₀, rfl⟩ := releaseChunk_lookup_cases he
    obtain ⟨e₀', he₀', rfl⟩ := releaseChunk_lookup_cases he'
    rw [unpin_ref, unpin_ref] at heq
    exact h.ref_inj k k' e₀ e₀' he₀ he₀' heq
  access_le := by
    intro k e he
    obtain ⟨e₀, he₀, rfl⟩ := releaseChunk_lookup_cases he
    rw [unpin_lastAccess]
    exact h.access_le k e₀ he₀
  access_inj := by
    intro k k' e e' he he' heq
    obtain ⟨e₀, he₀, rfl⟩ := releaseChunk_lookup_cases he
    obtain ⟨e₀', he₀', rfl⟩ := releaseChunk_lookup_cases he'
    rw [unpin_lastAccess, unpin_lastAccess] at heq
    exact h.access_inj k k' e₀ e₀' he₀ he₀' heq

theorem Quota.release {s : PoolState} (h : Quota s) (ref : ℕ) : Quota (releaseChunk s ref) :=
  ⟨h.usage_le, h.highWater_le⟩

theorem lookup_addEntry (s : PoolState) (key k : ChunkKey) (path : FilePath) (size : ℕ) :
    (addEntry s key path size).shared.chunks.lookup k =
      if k = key then some ⟨s.nextEntry, path, size, 0, s.shared.tick + 1⟩
      else s.shared.chunks.lookup k :=
  Table.lookup_insert _ _ _ _

/-- A new entry under a key that is neither present nor being fetched keeps the books. -/
theorem Books.add {s : PoolState} (h : Books s) {key : ChunkKey} (size : ℕ)
    (hc : s.shared.chunks.lookup key = none) (hi : s.shared.inflight.lookup key = none) :
    Books (addEntry s key (chunkPath key) size) := by
  have hcases : ∀ k e, (addEntry s key (chunkPath key) size).shared.chunks.lookup k = some e →
      (k = key ∧ e = ⟨s.nextEntry, chunkPath key, size, 0, s.shared.tick + 1⟩) ∨
        (k ≠ key ∧ s.shared.chunks.lookup k = some e) := by
    intro k e he
    rw [lookup_addEntry] at he
    split at he
    · next hk => exact Or.inl ⟨hk, (Option.some.inj he).symm⟩
    · next hk => exact Or.inr ⟨hk, he⟩
  have hfresh : s.nextEntry ∉ s.outstanding := by
    intro hmem
    obtain ⟨k, e, he, href⟩ := h.held _ hmem
    have := h.ref_lt k e he
    omega
  refine ⟨?_, h.reserved_eq, ?_, ?_, ?_, ?_, ?_, ?_, ?_, ?_⟩
  · show s.shared.current + size = Table.total _ (s.shared.chunks.insert key _)
    rw [Table.total_insert_of_notMem hc, h.current_eq]
    rfl
  · intro k e he
    rcases hcases k e he with ⟨rfl, -⟩ | ⟨-, he⟩
    · exact hi
    · exact h.disjoint k e he
  · intro k e he
    rcases hcases k e he with ⟨-, rfl⟩ | ⟨-, he⟩
    · show (0 : ℤ) = (s.outstanding.count s.nextEntry : ℤ)
      rw [List.count_eq_zero.2 hfresh]
      rfl
    · exact h.pins_eq k e he
  · intro r hr
    obtain ⟨k, e, he, href⟩ := h.held r hr
    refine ⟨k, e, ?_, href⟩
    have hne : k ≠ key := by
      rintro rfl
      exact absurd (hc.symm.trans he) (by simp)
    rw [lookup_addEntry, if_neg hne]
    exact he
  · intro k e he
    rcases hcases k e he with ⟨rfl, rfl⟩ | ⟨-, he⟩
    · rfl
    · exact h.path_eq k e he
  · intro k e he
    show e.ref < s.nextEntry + 1
    rcases hcases k e he with ⟨-, rfl⟩ | ⟨-, he⟩
    · exact Nat.lt_succ_self _
    · have := h.ref_lt k e he
      omega
  · intro k k' e e' he he' heq
    rcases hcases k e he with ⟨hk, rfl⟩ | ⟨-, he⟩ <;> rcases hcases k' e' he' with ⟨hk', rfl⟩ | ⟨-, he'⟩
    · rw [hk, hk']
    · have := h.ref_lt k' e' he'
      simp only at heq
      omega
    · have := h.ref_lt k e he
      simp only at heq
      omega
    · exact h.ref_inj k k' e e' he he' heq
  · intro k e he
    show e.lastAccess ≤ s.shared.tick + 1
    rcases hcases k e he with ⟨-, rfl⟩ | ⟨-, he⟩
    · exact le_refl _
    · have := h.access_le k e he
      omega
  · intro k k' e e' he he' heq
    rcases hcases k e he with ⟨hk, rfl⟩ | ⟨-, he⟩ <;> rcases hcases k' e' he' with ⟨hk', rfl⟩ | ⟨-, he'⟩
    · rw [hk, hk']
    · have := h.access_le k' e' he'
      simp only at heq
      omega
    · have := h.access_le k e he
      simp only at heq
      omega
    · exact h.access_inj k k' e e' he he' heq

theorem Books.close {s : PoolState} (h : Books s) {key : ChunkKey} {call : FetchCall}
    (hi : s.shared.inflight.lookup key = some call) (err : Option FetchError) :
    Books (closeCall s key call err) := by
  refine { h with reserved_eq := ?_, disjoint := ?_ }
  · show s.shared.reserved - call.expected = Table.total _ (s.shared.inflight.erase key)
    rw [Table.total_erase hi, h.reserved_eq]
    rfl
  · intro k e hk
    show (s.shared.inflight.erase key).lookup k = none
    rw [Table.lookup_erase]
    split
    · rfl
    · exact h.disjoint k e hk

/-- The pool after a fetch has been taken off the table and its entry, if any, stored. -/
def settleFetch (s : PoolState) (key : ChunkKey) (call : FetchCall) (stored : Bool)
    (err : Option FetchError) : PoolState :=
  if stored then storeChunk (closeCall s key call err) key call.expected
  else closeCall s key call err

/-- The locked section of `runFetch` adds only counters and a signal to `settleFetch`. -/
theorem completeFetch_evicted (s : PoolState) (key : ChunkKey) (call : FetchCall) (stored : Bool)
    (err : Option FetchError) :
    ∃ u, Evicted (settleFetch s key call stored err) u ∧
      completeFetch s key call stored err = signalLocked u := by
  refine ⟨_, ?_, rfl⟩
  cases err with
  | none => exact .refl _
  | some e => exact recordBackgroundErrorLocked_evicted _ _

theorem Books.signal {s : PoolState} (h : Books s) : Books (signalLocked s) := { h with }

theorem Quota.signal {s : PoolState} (h : Quota s) : Quota (signalLocked s) := { h with }

/-- A key that is being fetched is not present. -/
theorem Books.absent {s : PoolState} (h : Books s) {key : ChunkKey} {call : FetchCall}
    (hi : s.shared.inflight.lookup key = some call) : s.shared.chunks.lookup key = none := by
  cases hc : s.shared.chunks.lookup key with
  | none => rfl
  | some e =>
    have := h.disjoint key e hc
    rw [hi] at this
    exact absurd this (by simp)

theorem Books.settle {s : PoolState} (h : Books s) {key : ChunkKey} {call : FetchCall}
    (hi : s.shared.inflight.lookup key = some call) (stored : Bool) (err : Option FetchError) :
    Books (settleFetch s key call stored err) := by
  have hclose := h.close hi err
  have hdone : (closeCall s key call err).shared.inflight.lookup key = none := by
    show (s.shared.inflight.erase key).lookup key = none
    rw [Table.lookup_erase, if_pos rfl]
  unfold settleFetch
  split
  · have hcounted : Books { closeCall s key call err with
        shared := { (closeCall s key call err).shared with
          fetches := (closeCall s key call err).shared.fetches + 1 } } := { hclose with }
    exact hcounted.add call.expected (h.absent hi) hdone
  · exact hclose

theorem Books.complete {s : PoolState} (h : Books s) {key : ChunkKey} {call : FetchCall}
    (hi : s.shared.inflight.lookup key = some call) (stored : Bool) (err : Option FetchError) :
    Books (completeFetch s key call stored err) := by
  obtain ⟨u, hu, heq⟩ := completeFetch_evicted s key call stored err
  rw [heq]
  exact (hu.books (h.settle hi stored err)).signal

theorem Quota.complete {s : PoolState} (h : Quota s) (key : ChunkKey) (call : FetchCall)
    (stored : Bool) (err : Option FetchError) : Quota (completeFetch s key call stored err) := by
  obtain ⟨u, hu, heq⟩ := completeFetch_evicted s key call stored err
  rw [heq]
  refine Quota.signal (hu.quota ?_)
  have husage := h.usage_le
  unfold settleFetch
  split
  · refine ⟨?_, h.highWater_le⟩
    show s.shared.current + call.expected + (s.shared.reserved - call.expected) ≤ s.shared.highWater
    omega
  · refine ⟨?_, h.highWater_le⟩
    show s.shared.current + (s.shared.reserved - call.expected) ≤ s.shared.highWater
    omega

/-! ## Recovery -/

theorem recoverFile_spec {options : RangeOptions} {fails : List FilePath} {path : FilePath}
    {node : FileNode} {chunk : RecoveredChunk}
    (h : recoverFile options fails path node = .ok (some chunk)) :
    chunk.path = path ∧ chunkPath chunk.key = path ∧ chunk.size = node.content.length ∧
      node.kind = .regular := by
  unfold recoverFile at h
  split at h
  · split at h <;> simp at h
  · split at h
    · simp at h
    · next digits hdigits =>
      split at h
      · simp at h
      · split at h
        · simp at h
        · next hfile =>
          simp only [Except.ok.injEq, Option.some.injEq] at h
          subst h
          refine ⟨rfl, ?_, rfl, ?_⟩
          · simp only [chunkPath]
            rw [chunkFileName_of_pattern hdigits]
          · by_contra hk
            exact hfile (Or.inl hk)

/-- The files recovery visits. -/
def visitPath : RecoverVisit → Option FilePath
  | .badRoot => none
  | .file path _ => some path

private theorem visitPaths_of_entry (d : Disk) (name : String) (isDirectory : Bool) :
    (if isDirectory && rollingObjectPattern name then
      (d.files.entries.filter fun f => f.1.directory == name).map fun f =>
        RecoverVisit.file f.1 f.2
    else [RecoverVisit.badRoot]).filterMap visitPath =
    if isDirectory && rollingObjectPattern name then
      (d.files.entries.filter fun f => f.1.directory == name).map Sigma.fst
    else [] := by
  split
  · rw [List.filterMap_map]
    exact congrFun List.filterMap_eq_map _
  · rfl

/-- Recovery visits no file twice. -/
theorem recoverVisits_nodup (d : Disk) : ((recoverVisits d).filterMap visitPath).Nodup := by
  rw [recoverVisits, List.filterMap_flatMap]
  simp only [visitPaths_of_entry]
  rw [List.nodup_flatMap]
  refine ⟨fun entry _ => ?_, ?_⟩
  · split
    · exact (List.filter_sublist.map _).nodup d.files.nodupKeys
    · exact List.nodup_nil
  · refine (List.nodupKeys_iff_pairwise.1 d.root.nodupKeys).imp fun {e e'} hne => ?_
    intro p hp hp'
    simp only at hp hp'
    split at hp
    · split at hp'
      · obtain ⟨f, hf, rfl⟩ := List.mem_map.1 hp
        obtain ⟨f', hf', heq⟩ := List.mem_map.1 hp'
        have h₁ := (List.mem_filter.1 hf).2
        have h₂ := (List.mem_filter.1 hf').2
        rw [beq_iff_eq] at h₁ h₂
        exact hne (by rw [← h₁, ← h₂, heq])
      · simp at hp'
    · simp at hp

theorem lookup_of_mem_recoverVisits {d : Disk} {p : FilePath} {node : FileNode}
    (h : RecoverVisit.file p node ∈ recoverVisits d) : d.files.lookup p = some node := by
  obtain ⟨entry, -, hmem⟩ := List.mem_flatMap.1 h
  split at hmem
  · obtain ⟨f, hf, heq⟩ := List.mem_map.1 hmem
    simp only [RecoverVisit.file.injEq] at heq
    obtain ⟨rfl, rfl⟩ := heq
    exact (Table.lookup_eq_some_iff_mem _ _ _).2 (List.mem_filter.1 hf).1
  · simp at hmem

/-- What the first loop of recovery returns and leaves on disk. -/
structure ScanSpec (options : RangeOptions) (fails : List FilePath) (visits : List RecoverVisit)
    (d d' : Disk) (chunks : List RecoveredChunk) : Prop where
  paths : (chunks.map RecoveredChunk.path).Sublist (visits.filterMap visitPath)
  recovered : ∀ c ∈ chunks, ∃ node, RecoverVisit.file c.path node ∈ visits ∧
    recoverFile options fails c.path node = .ok (some c)
  files_kept : ∀ p, isFetchTemporary p.name = false → d'.files.lookup p = d.files.lookup p

theorem recoverScan_spec {options : RangeOptions} {fails : List FilePath} :
    ∀ {visits : List RecoverVisit} {d d' : Disk} {chunks : List RecoveredChunk},
      recoverScan options fails visits d = (d', .ok chunks) →
        ScanSpec options fails visits d d' chunks
  | [], d, d', chunks, h => by
    simp only [recoverScan, Prod.mk.injEq, Except.ok.injEq] at h
    obtain ⟨rfl, rfl⟩ := h
    exact ⟨List.Sublist.refl _, by simp, fun _ _ => rfl⟩
  | .badRoot :: rest, d, d', chunks, h => by simp [recoverScan] at h
  | .file path node :: rest, d, d', chunks, h => by
    unfold recoverScan at h
    split at h
    · simp at h
    · next hfile =>
      have ih := recoverScan_spec h
      have htemp : isFetchTemporary path.name = true := by
        unfold recoverFile at hfile
        by_contra htemp
        rw [if_neg htemp] at hfile
        split at hfile
        · simp at hfile
        · split at hfile
          · simp at hfile
          · split at hfile <;> simp at hfile
      refine ⟨ih.paths.trans (List.sublist_cons_self _ _), ?_, ?_⟩
      · intro c hc
        obtain ⟨n, hn, hr⟩ := ih.recovered c hc
        exact ⟨n, List.mem_cons_of_mem _ hn, hr⟩
      · intro p hp
        rw [ih.files_kept p hp, Disk.lookup_remove, if_neg]
        rintro rfl
        rw [htemp] at hp
        exact absurd hp (by simp)
    · next chunk hfile =>
      split at h
      · next d'' chunks' hrest =>
        simp only [Prod.mk.injEq, Except.ok.injEq] at h
        obtain ⟨rfl, rfl⟩ := h
        have ih := recoverScan_spec hrest
        have hpath := (recoverFile_spec hfile).1
        refine ⟨?_, ?_, ih.files_kept⟩
        · rw [List.map_cons, hpath]
          exact ih.paths.cons_cons path
        · intro c hc
          rcases List.mem_cons.1 hc with rfl | hc
          · rw [hpath]
            exact ⟨node, List.mem_cons_self, hfile⟩
          · obtain ⟨n, hn, hr⟩ := ih.recovered c hc
            exact ⟨n, List.mem_cons_of_mem _ hn, hr⟩
      · simp at h

/-- The first loop of recovery only removes files, whatever it ends with. -/
theorem recoverScan_files_sub {options : RangeOptions} {fails : List FilePath} {p : FilePath}
    {node : FileNode} :
    ∀ {visits : List RecoverVisit} {d : Disk},
      (recoverScan options fails visits d).1.files.lookup p = some node →
        d.files.lookup p = some node
  | [], _, h => h
  | .badRoot :: _, _, h => h
  | .file path n :: rest, d, h => by
    unfold recoverScan at h
    split at h
    · exact h
    · have hrest := recoverScan_files_sub h
      rw [Disk.lookup_remove] at hrest
      split at hrest
      · exact absurd hrest (by simp)
      · exact hrest
    · have hrest : (recoverScan options fails rest d).1.files.lookup p = some node := by
        split at h <;> next heq => rw [heq]; exact h
      exact recoverScan_files_sub hrest

theorem emptyPool_books (options : RangeOptions) (d : Disk) : Books (emptyPool options d) := by
  have hempty : ∀ k, (emptyPool options d).shared.chunks.lookup k = none := fun _ => rfl
  refine ⟨rfl, rfl, ?_, ?_, by simp [emptyPool], ?_, ?_, ?_, ?_, ?_⟩ <;>
    · intro k
      simp [hempty]

/-- What entering the recovered chunks keeps and adds. -/
structure IndexSpec (s t : PoolState) (chunks : List RecoveredChunk) : Prop where
  books : Books t
  shared_eq : t.shared = { s.shared with
    chunks := t.shared.chunks, current := t.shared.current, tick := t.shared.tick }
  rest_eq : t = { s with shared := t.shared, nextEntry := t.nextEntry }
  entries : ∀ k e, t.shared.chunks.lookup k = some e → s.shared.chunks.lookup k = some e ∨
    ∃ c ∈ chunks, c.key = k ∧ e.path = c.path ∧ e.size = c.size

theorem foldl_indexRecovered_spec :
    ∀ {chunks : List RecoveredChunk} {s : PoolState}, Books s →
      (∀ k, s.shared.inflight.lookup k = none) → (∀ c ∈ chunks, chunkPath c.key = c.path) →
      (chunks.map RecoveredChunk.path).Nodup →
      (∀ c ∈ chunks, s.shared.chunks.lookup c.key = none) →
      IndexSpec s (chunks.foldl indexRecovered s) chunks
  | [], s, h, _, _, _, _ => ⟨h, rfl, rfl, fun _ _ h => Or.inl h⟩
  | c :: rest, s, h, hi, hpath, hnodup, hnew => by
    have hc : chunkPath c.key = c.path := hpath c List.mem_cons_self
    rw [List.map_cons, List.nodup_cons] at hnodup
    have hadd : Books (indexRecovered s c) := by
      have := h.add c.size (hnew c List.mem_cons_self) (hi c.key)
      rwa [hc] at this
    have hlookup : ∀ k, (indexRecovered s c).shared.chunks.lookup k =
        if k = c.key then some ⟨s.nextEntry, c.path, c.size, 0, s.shared.tick + 1⟩
        else s.shared.chunks.lookup k := fun k => lookup_addEntry s c.key k c.path c.size
    have hrest : ∀ c' ∈ rest, (indexRecovered s c).shared.chunks.lookup c'.key = none := by
      intro c' hc'
      have hne : c'.key ≠ c.key := by
        intro heq
        refine hnodup.1 ?_
        rw [← hc, ← heq, hpath c' (List.mem_cons_of_mem _ hc')]
        exact List.mem_map_of_mem hc'
      rw [hlookup, if_neg hne]
      exact hnew c' (List.mem_cons_of_mem _ hc')
    have ih := foldl_indexRecovered_spec hadd hi
      (fun c' hc' => hpath c' (List.mem_cons_of_mem _ hc')) hnodup.2 hrest
    refine ⟨ih.books, ?_, ?_, ?_⟩
    · rw [List.foldl_cons, ih.shared_eq]
      rfl
    · rw [List.foldl_cons, ih.rest_eq]
      rfl
    · intro k e he
      rcases ih.entries k e he with he | ⟨c', hc', hkey⟩
      · rw [hlookup] at he
        split at he
        · next hk =>
          simp only [Option.some.injEq] at he
          subst he
          exact Or.inr ⟨c, List.mem_cons_self, hk.symm, rfl, rfl⟩
        · exact Or.inl he
      · exact Or.inr ⟨c', List.mem_cons_of_mem _ hc', hkey⟩

end BlackPearl.Cache
