import BlackPearl.Cache.Sections

/-!
# Incomplete objects

A rolling pool never holds a complete object once the object has been opened: what it retains of the
object and what it is fetching stays below the object's size. Opening establishes the bound, each of
the two reservation paths checks it again, a completion moves bytes from one sum to the other, and an
eviction only lowers it.
-/

set_option autoImplicit false

namespace BlackPearl.Cache

open BlackPearl.Library BlackPearl.Domain

/-- The sizes of the object's retained chunks. -/
def retainedBytes (sh : RollingShared) (object : String) : ℤ :=
  sh.chunks.total fun k e => if k.object = object then (e.size : ℤ) else 0

/-- The expected sizes of the object's fetches in flight. -/
def fetchingBytes (sh : RollingShared) (object : String) : ℤ :=
  sh.inflight.total fun k c => if k.object = object then (c.expected : ℤ) else 0

theorem objectUsageLocked_eq (sh : RollingShared) (object : String) :
    objectUsageLocked sh object = retainedBytes sh object + fetchingBytes sh object := rfl

theorem retainedBytes_nonneg (sh : RollingShared) (object : String) : 0 ≤ retainedBytes sh object := by
  apply Table.total_nonneg
  intro k e _
  split <;> omega

theorem fetchingBytes_nonneg (sh : RollingShared) (object : String) : 0 ≤ fetchingBytes sh object := by
  apply Table.total_nonneg
  intro k c _
  split <;> omega

/-! ## Evictions and reservations -/

section Pool

variable {p q : PoolState} {object : String} {key : ChunkKey} {size expected : ℕ}
  {fails : List FilePath}

/-- Evictions only lower what an object occupies. -/
theorem Evicted.usage_le (h : Evicted p q) (object : String) :
    objectUsageLocked q.shared object ≤ objectUsageLocked p.shared object := by
  have hretained : retainedBytes q.shared object ≤ retainedBytes p.shared object := by
    apply Table.total_mono
    · intro k e
      split <;> omega
    · exact h.chunks_sub
  rw [objectUsageLocked_eq, objectUsageLocked_eq, fetchingBytes, h.inflight_eq]
  exact Int.add_le_add_right hretained _

theorem ensureIncompleteObjectLocked_fits {keep : Option ChunkKey}
    (h : ensureIncompleteObjectLocked p object size expected keep fails = (q, .fits)) :
    objectUsageLocked q.shared object + expected ≤ (size : ℤ) - 1 := by
  have hfits := evictWhile_fits (congrArg Prod.snd h)
  change ensureIncompleteObjectLocked p object size expected keep fails = _ at h
  rw [ensureIncompleteObjectLocked] at h
  rw [h] at hfits
  simpa using hfits

/-- A foreground reservation leaves room for the object to stay incomplete. -/
theorem tryReserveLocked_incomplete (hp : p.shared.options.policy = .rolling)
    (h : tryReserveLocked p key size expected fails = (q, .fits)) :
    objectUsageLocked q.shared key.object + expected ≤ (size : ℤ) - 1 := by
  simp only [tryReserveLocked, hp] at h
  split at h
  · next u hu =>
    have hroom := ensureIncompleteObjectLocked_fits hu
    split at h
    · next v hv =>
      have hev : Evicted u v := by
        have hevict : Evicted u (evictWhile fails oldestUnpinnedLocked
            (fun sh => sh.current + sh.reserved + expected > sh.options.maxBytes) u).1 :=
          evictWhile_evicted (offersUnpinned_oldestUnpinned fun _ => true) u
        rwa [hv] at hevict
      obtain ⟨rfl, -⟩ := Prod.mk.inj h
      have hle := hev.usage_le key.object
      show objectUsageLocked v.shared key.object + expected ≤ _
      omega
    · next hne _ => exact absurd (Prod.mk.inj h).2 hne
  · next hne _ => exact absurd (Prod.mk.inj h).2 hne

/-- So does a background reservation, whichever chunk it protects. -/
theorem tryReserveBackgroundLocked_incomplete (hp : p.shared.options.policy = .rolling)
    {kind : BackgroundFetchKind} {keep : Option ChunkKey}
    (h : tryReserveBackgroundLocked p key size expected kind keep fails = (q, true)) :
    objectUsageLocked q.shared key.object + expected ≤ (size : ℤ) - 1 := by
  simp only [tryReserveBackgroundLocked, hp] at h
  split at h
  · cases h
  · cases h
  · next u hu =>
    have hroom := ensureIncompleteObjectLocked_fits hu
    split at h
    · cases h
    · split at h
      · cases h
      · cases h
      · next v hv =>
        have hev : Evicted u v := by
          have hevict : Evicted u (evictWhile fails (oldestUnpinnedExceptLocked · keep)
              (fun sh => sh.current + sh.reserved + expected >
                sh.options.maxBytes - sh.options.chunkBytes) u).1 :=
            evictWhile_evicted (offersUnpinned_oldestUnpinned fun k => keep != some k) u
          rwa [hv] at hevict
        obtain ⟨rfl, -⟩ := Prod.mk.inj h
        have hle := hev.usage_le key.object
        show objectUsageLocked v.shared key.object + expected ≤ _
        omega

/-- Starting a fetch adds what it expects to what its object occupies. -/
theorem usage_startFetch (kind : BackgroundFetchKind) (hi : p.shared.inflight.lookup key = none) :
    objectUsageLocked (startFetch p key kind expected).1.shared object =
      objectUsageLocked p.shared object + if key.object = object then (expected : ℤ) else 0 := by
  have hinsert := Table.total_insert_of_notMem
    (f := fun k c => if k.object = object then ((c : FetchCall).expected : ℤ) else 0)
    (v := ⟨p.nextCall, kind, expected⟩) hi
  show retainedBytes p.shared object + Table.total _ (p.shared.inflight.insert key _) = _
  rw [hinsert, objectUsageLocked_eq, fetchingBytes]
  exact (Int.add_assoc _ _ _).symm

/-! ## Sections -/

/-- The object occupies no more than before, or stays incomplete. -/
def StaysBelow (object : String) (objectSize : ℕ) (p q : PoolState) : Prop :=
  objectUsageLocked q.shared object ≤ objectUsageLocked p.shared object ∨
    objectUsageLocked q.shared object ≤ (objectSize : ℤ) - 1

theorem Evicted.staysBelow {objectSize : ℕ} (h : Evicted p q) : StaysBelow object objectSize p q :=
  Or.inl (h.usage_le object)

/-- A fetch started on a reservation that left room for its object. -/
theorem startFetch_staysBelow {objectSize : ℕ} (hev : Evicted p q) (kind : BackgroundFetchKind)
    (hi : p.shared.inflight.lookup key = none)
    (hroom : objectUsageLocked q.shared key.object + expected ≤ (size : ℤ) - 1)
    (hsize : key.object = object → size = objectSize) :
    StaysBelow object objectSize p (startFetch (reserveLocked q expected) key kind expected).1 := by
  rw [← hev.inflight_eq] at hi
  have husage : objectUsageLocked (startFetch (reserveLocked q expected) key kind expected).1.shared
      object = objectUsageLocked (reserveLocked q expected).shared object +
        if key.object = object then (expected : ℤ) else 0 := usage_startFetch kind hi
  change _ = objectUsageLocked q.shared object + _ at husage
  by_cases hkey : key.object = object
  · rw [if_pos hkey] at husage
    rw [hkey, hsize hkey] at hroom
    exact Or.inr (by omega)
  · rw [if_neg hkey] at husage
    have hle := hev.usage_le object
    exact Or.inl (by omega)

theorem pinChunk_usage {entry : ChunkEntry} (hk : p.shared.chunks.lookup key = some entry) :
    objectUsageLocked (pinChunk p key entry).1.shared object = objectUsageLocked p.shared object := by
  have hinsert := Table.total_insert_of_lookup
    (f := fun k e => if k.object = object then ((e : ChunkEntry).size : ℤ) else 0)
    (w := (pinChunk p key entry).2) hk
  have hsame : (pinChunk p key entry).2.size = entry.size := rfl
  rw [hsame, sub_add_cancel] at hinsert
  show Table.total _ (p.shared.chunks.insert key (pinChunk p key entry).2) + _ = _
  rw [hinsert]
  rfl

theorem acquireChunkLocked_staysBelow {objectSize : ℕ} (hp : p.shared.options.policy = .rolling)
    (hsize : key.object = object → size = objectSize) :
    StaysBelow object objectSize p (acquireChunkLocked p key size expected fails).1 := by
  unfold acquireChunkLocked
  split
  · next entry hk => exact Or.inl (le_of_eq (pinChunk_usage hk))
  · split
    · exact Or.inl (le_refl _)
    · next hi =>
      have hres := tryReserveLocked_spec p key size expected fails
      split
      · next u hu =>
        rw [hu] at hres
        cases hres with
        | refused hev => exact hev.staysBelow
      · next u hu =>
        rw [hu] at hres
        cases hres with
        | refused hev => exact hev.staysBelow
      · next u hu =>
        have hroom := tryReserveLocked_incomplete hp hu
        rw [hu] at hres
        cases hres with
        | granted hev _ => exact startFetch_staysBelow hev .none hi hroom hsize

theorem scheduleChunkLocked_staysBelow {objectSize : ℕ} (hp : p.shared.options.policy = .rolling)
    {kind : BackgroundFetchKind} {keep : Option ChunkKey}
    (hsize : key.object = object → size = objectSize) :
    StaysBelow object objectSize p (scheduleChunkLocked p key size expected kind keep fails).1 := by
  unfold scheduleChunkLocked
  split
  · exact Or.inl (le_refl _)
  · next habsent =>
    simp only [not_or, Option.not_isSome_iff_eq_none] at habsent
    have hres := tryReserveBackgroundLocked_spec p key size expected kind keep fails
    split
    · next u hu =>
      rw [hu] at hres
      cases hres with
      | refused hev => exact hev.staysBelow
    · next u hu =>
      have hroom := tryReserveBackgroundLocked_incomplete hp hu
      rw [hu] at hres
      cases hres with
      | granted hev _ =>
        have hstart : StaysBelow object _ _ _ := startFetch_staysBelow hev kind habsent.2 hroom hsize
        cases kind <;> exact hstart

theorem releaseChunk_usage (p : PoolState) (ref : ℕ) (object : String) :
    objectUsageLocked (releaseChunk p ref).shared object = objectUsageLocked p.shared object := by
  show Table.total _ (Table.mapValues (fun _ => unpin ref) p.shared.chunks) + _ = _
  rw [Table.total_mapValues]
  simp only [unpin_size]
  rfl

/-- A completion moves the bytes of its fetch from one sum to the other, or drops them. -/
theorem settleFetch_usage (hb : Books p) {call : FetchCall}
    (hi : p.shared.inflight.lookup key = some call) (stored : Bool) (err : Option FetchError) :
    objectUsageLocked (settleFetch p key call stored err).shared object ≤
      objectUsageLocked p.shared object := by
  have hc := hb.absent hi
  have herase := Table.total_erase
    (f := fun k c => if k.object = object then ((c : FetchCall).expected : ℤ) else 0) hi
  have hclosed : objectUsageLocked (closeCall p key call err).shared object =
      objectUsageLocked p.shared object - if key.object = object then (call.expected : ℤ) else 0 := by
    show retainedBytes p.shared object + Table.total _ (p.shared.inflight.erase key) = _
    rw [herase, objectUsageLocked_eq, fetchingBytes]
    exact (Int.add_sub_assoc _ _ _).symm
  cases stored with
  | false =>
    show objectUsageLocked (closeCall p key call err).shared object ≤ _
    rw [hclosed]
    split <;> omega
  | true =>
    have hinsert := Table.total_insert_of_notMem
      (f := fun k e => if k.object = object then ((e : ChunkEntry).size : ℤ) else 0)
      (v := ⟨p.nextEntry, chunkPath key, call.expected, 0, p.shared.tick + 1⟩) hc
    have hstored : objectUsageLocked (storeChunk (closeCall p key call err) key call.expected).shared
        object = objectUsageLocked (closeCall p key call err).shared object +
          if key.object = object then (call.expected : ℤ) else 0 := by
      show Table.total _ (p.shared.chunks.insert key
          ⟨p.nextEntry, chunkPath key, call.expected, 0, p.shared.tick + 1⟩) +
        fetchingBytes (closeCall p key call err).shared object = _
      rw [hinsert, objectUsageLocked_eq]
      exact Int.add_right_comm _ _ _
    show objectUsageLocked (storeChunk (closeCall p key call err) key call.expected).shared object ≤ _
    rw [hstored, hclosed]
    omega

/-- The sizes that sections are called with for the object. -/
def PoolLabel.OfSize (object : String) (objectSize : ℕ) : PoolLabel → Prop
  | .acquire key logicalSize _ _ | .schedule key logicalSize _ _ _ _ =>
      key.object = object → logicalSize = objectSize
  | _ => True

/-- **Every section keeps the object below its size**, or lowers what it occupies. -/
theorem poolStep_staysBelow {objectSize : ℕ} (hb : Books p)
    (hp : p.shared.options.policy = .rolling) {l : PoolLabel} (hl : l.OfSize object objectSize)
    (hstep : poolStep p l = some q) : StaysBelow object objectSize p q := by
  cases l with
  | openObject object' logicalSize fails =>
    cases hstep
    exact (openObject_evicted p object' logicalSize fails).staysBelow
  | acquire key logicalSize expected fails =>
    cases hstep
    exact acquireChunkLocked_staysBelow hp hl
  | release ref =>
    simp only [poolStep] at hstep
    split at hstep <;> cases hstep
    exact Or.inl (le_of_eq (releaseChunk_usage p ref object))
  | schedule key logicalSize expected kind keep fails =>
    cases hstep
    exact scheduleChunkLocked_staysBelow hp hl
  | writeFile key path node =>
    simp only [poolStep] at hstep
    split at hstep <;> cases hstep
    exact Or.inl (le_refl _)
  | removeFile key path =>
    simp only [poolStep] at hstep
    split at hstep <;> cases hstep
    exact Or.inl (le_refl _)
  | makeDirectory directory =>
    cases hstep
    exact Or.inl (le_refl _)
  | complete key stored err =>
    simp only [poolStep] at hstep
    split at hstep <;> cases hstep
    next call hi =>
      obtain ⟨u, hu, heq⟩ := completeFetch_evicted p key call stored err
      rw [heq]
      exact Or.inl ((hu.usage_le object).trans (settleFetch_usage hb hi stored err))
  | record kind =>
    cases hstep
    exact (recordBackgroundErrorLocked_evicted p kind).staysBelow
  | countDirect misses fetches =>
    cases hstep
    exact Or.inl (le_refl _)

end Pool

/-! ## Runs of the process -/

/-- A prefetch whose medium has the size of the source it has opened, and the cache key of the
object, works on a medium of the object's size. -/
def PrefetchOneSize (sha256Hex : String → String) (object : String) (objectSize size : ℕ)
    (validator : String) : Prefetch → Prop
  | .opening backing mediaSize => size = mediaSize →
      objectCacheKey sha256Hex backing validator = object → size = objectSize
  | .scheduling _ => True

instance (sha256Hex : String → String) (object : String) (objectSize size : ℕ) (validator : String) :
    (p : Prefetch) → Decidable (PrefetchOneSize sha256Hex object objectSize size validator p)
  | .opening backing mediaSize => inferInstanceAs (Decidable (size = mediaSize →
      objectCacheKey sha256Hex backing validator = object → size = objectSize))
  | .scheduling _ => inferInstanceAs (Decidable True)

/-- All media of the object have the same size: a source that opens with the size of its medium, for
a backing and a validator with the cache key of the object, has the object's size. -/
def OneSize (sha256Hex : String → String) (object : String) (objectSize : ℕ) (s : CacheState) :
    CacheLabel → Prop
  | .openHandle _ backing catalogSize (.source size validator) _ =>
      size = catalogSize → objectCacheKey sha256Hex backing validator = object → size = objectSize
  | .prefetchOpen id (.source size validator) _ => ∀ p ∈ s.prefetchers.lookup id,
      PrefetchOneSize sha256Hex object objectSize size validator p
  | _ => True

instance (sha256Hex : String → String) (object : String) (objectSize : ℕ) (s : CacheState) :
    (a : CacheLabel) → Decidable (OneSize sha256Hex object objectSize s a)
  | .openHandle _ backing catalogSize (.source size validator) _ =>
      inferInstanceAs (Decidable (size = catalogSize →
        objectCacheKey sha256Hex backing validator = object → size = objectSize))
  | .prefetchOpen id (.source size validator) _ =>
      inferInstanceAs (Decidable (∀ p ∈ s.prefetchers.lookup id,
        PrefetchOneSize sha256Hex object objectSize size validator p))
  | .openHandle _ _ _ (.failed _) _ | .prefetchOpen _ (.failed _) _ | .markClosed _
  | .stopReadAhead _ | .read _ _ _ _ | .start _ _ | .begin _ | .acquire _ _ _ | .wake _ _
  | .unpark _ _ | .readFile _ _ | .release _ | .finish _ | .schedule _ _ | .direct _ _
  | .prefetch _ _ _ | .prefetchSchedule _ _ | .fetchOpen _ _ _ _ | .fetchCreate _ _ _
  | .fetchRead _ _ _ | .fetchWrite _ _ _ | .fetchRename _ _ _ _ | .fetchSeal _ _ _
  | .fetchClose _ _ _ | .fetchComplete _ | .shutdown | .restart _ _ => .isTrue trivial

/-- The handles and the background loops of the object have its size, and once it has been opened it
is incomplete. -/
structure ObjectIncomplete (sha256Hex : String → String) (object : String) (objectSize : ℕ)
    (s : CacheState) : Prop where
  handles : ∀ id h, s.handles.lookup id = some h →
    objectCacheKey sha256Hex h.backing h.validator = object → h.size = objectSize
  runs : ∀ run, Scheduled s run →
    objectCacheKey sha256Hex run.backing run.validator = object → run.logicalSize = objectSize
  incomplete : ∀ id h, s.handles.lookup id = some h →
    objectCacheKey sha256Hex h.backing h.validator = object →
      objectUsageLocked s.pool.shared object ≤ (objectSize : ℤ) - 1

section Runs

variable {sha256Hex : String → String} {options : RangeOptions} {object : String} {objectSize : ℕ}
  {s t : CacheState} {a : CacheLabel}

/-- The sections of a step use the object's size. -/
theorem ObjectIncomplete.ofSize (h : ObjectIncomplete sha256Hex object objectSize s) {l : PoolLabel}
    (hl : SectionOf sha256Hex s a l) : l.OfSize object objectSize := by
  cases l with
  | acquire key logicalSize expected fails =>
    obtain ⟨id, hd, hh, hkey, rfl, -⟩ := hl
    intro hobject
    exact h.handles id hd hh (hkey.symm.trans hobject)
  | schedule key logicalSize expected kind keep fails =>
    obtain ⟨run, hrun, hkey, rfl, -⟩ := hl
    intro hobject
    exact h.runs run hrun (hkey.symm.trans hobject)
  | _ => trivial

/-- What the process does to the object's usage in one step. -/
theorem StepMove.staysBelow (hmove : StepMove sha256Hex s a t) (hatt : Attached s)
    (hp : s.pool.shared.options.policy = .rolling)
    (h : ObjectIncomplete sha256Hex object objectSize s) :
    StaysBelow object objectSize s.pool t.pool := by
  -- the books and the policy hold between the sections of a step too
  have hall : (Books t.pool ∧ t.pool.shared.options.policy = .rolling) ∧
      StaysBelow object objectSize s.pool t.pool := by
    apply hmove.sections.invariant (I := fun p => (Books p ∧ p.shared.options.policy = .rolling) ∧
      StaysBelow object objectSize s.pool p)
    · rintro p l q ⟨⟨hb, hpolicy⟩, hbelow⟩ hl hstep
      refine ⟨⟨poolStep_books hb hstep, by rw [poolStep_options hstep, hpolicy]⟩, ?_⟩
      rcases poolStep_staysBelow hb hpolicy (h.ofSize hl) hstep with hle | hle
      · rcases hbelow with hbelow | hbelow
        · exact Or.inl (hle.trans hbelow)
        · exact Or.inr (hle.trans hbelow)
      · exact Or.inr hle
    · exact ⟨⟨hatt.books, hp⟩, Or.inl (le_refl _)⟩
  exact hall.2

/-- A successful `Open` leaves the object incomplete. -/
theorem openObject_incomplete {p q : PoolState} {fails : List FilePath}
    (hp : p.shared.options.policy = .rolling)
    (h : openObject p object objectSize fails = (q, .fits)) :
    objectUsageLocked q.shared object ≤ (objectSize : ℤ) - 1 := by
  simp only [openObject, hp] at h
  have := ensureIncompleteObjectLocked_fits h
  simpa using this

/-- Every step keeps the invariant. -/
theorem StepMove.objectIncomplete (hmove : StepMove sha256Hex s a t) (hatt : Attached s)
    (hp : s.pool.shared.options.policy = .rolling) (hone : OneSize sha256Hex object objectSize s a)
    (h : ObjectIncomplete sha256Hex object objectSize s) :
    ObjectIncomplete sha256Hex object objectSize t where
  handles := by
    intro id hd hh hkey
    cases hmove.handles id hd hh with
    | kept hh₀ hb hv hs =>
      rw [← hs]
      exact h.handles id _ hh₀ (by rw [hb, hv, hkey])
    | opened ha _ =>
      subst ha
      exact hone rfl hkey
  runs := by
    intro run hrun hkey
    cases hmove.runs run hrun with
    | kept hrun₀ hb hv hs =>
      rw [← hs]
      exact h.runs _ hrun₀ (by rw [hb, hv, hkey])
    | read hh hb hv hs =>
      rw [← hs]
      exact h.handles _ _ hh (by rw [hb, hv, hkey])
    | prefetched ha hp =>
      subst ha
      exact hone _ hp rfl hkey
  incomplete := by
    intro id hd hh hkey
    cases hmove.handles id hd hh with
    | kept hh₀ hb hv hs =>
      have hbefore := h.incomplete id _ hh₀ (by rw [hb, hv, hkey])
      rcases hmove.staysBelow hatt hp h with hle | hle
      · exact hle.trans hbefore
      · exact hle
    | opened ha hopen =>
      subst ha
      have hsize : hd.size = objectSize := hone rfl hkey
      rw [hkey, hsize] at hopen
      exact openObject_incomplete hp hopen

theorem reachable_objectIncomplete (hp : options.policy = .rolling)
    (h : (poolLifetime sha256Hex options).ReachableBy (OneSize sha256Hex object objectSize) s) :
    ObjectIncomplete sha256Hex object objectSize s := by
  induction h with
  | init hs =>
    obtain ⟨pool, -, rfl⟩ := poolLifetime_init hs
    constructor
    · intro id hd hh
      exact absurd hh (by simp [freshCache])
    · rintro run (⟨id, r, hr, -⟩ | ⟨id, hp⟩)
      · exact absurd hr (by simp [freshCache])
      · exact absurd hp (by simp [freshCache])
    · intro id hd hh
      exact absurd hh (by simp [freshCache])
  | step hs hone hstep ih =>
    have hpolicy := reachable_options (reachable_pool hs)
    exact (reachable_move hs hstep).objectIncomplete (reachable_attached hs) (by rw [hpolicy, hp])
      hone ih

/-- An open handle stays in the table, on the same object. -/
theorem reaches_handle {P : CacheState → CacheLabel → Prop} {u : CacheState}
    (hs : (poolLifetime sha256Hex options).ReachableBy P t)
    (hu : (poolLifetime sha256Hex options).ReachesBy P t u) : HandlesKept t u := by
  apply hu.related hs
  · exact fun _ => .of_eq rfl
  · intro s t u hst htu id hd hh
    obtain ⟨h₁, hh₁, hb₁, hs₁, hv₁⟩ := hst id hd hh
    obtain ⟨h₂, hh₂, hb₂, hs₂, hv₂⟩ := htu id h₁ hh₁
    exact ⟨h₂, hh₂, hb₂.trans hb₁, hs₂.trans hs₁, hv₂.trans hv₁⟩
  · intro s a t hs _ hstep
    exact (reachable_move hs hstep).handles_kept

/-- `Open` makes a new handle. -/
theorem openHandle_fresh {id : ℕ} {backing : BackingRef} {size : ℕ} {outcome : OpenOutcome}
    {fails : List FilePath}
    (h : cacheStep sha256Hex s (.openHandle id backing size outcome fails) = some t) :
    s.handles.lookup id = none := by
  simp only [cacheStep, actor, stepOutside] at h
  split at h
  · cases h
  · unfold stepOpen at h
    split at h
    · cases h
    · next hfresh => exact Option.not_isSome_iff_eq_none.1 hfresh

/-- From a successful `Open` on, the pool never holds the complete object: what it retains and what
it is fetching of the object stays below its size, whatever the goroutines of any number of handles
do. -/
theorem opened_object_incomplete (hp : options.policy = .rolling) {backing : BackingRef}
    {validator : String} {size id : ℕ} {fails : List FilePath} {u : CacheState}
    (hs : (poolLifetime sha256Hex options).ReachableBy
      (OneSize sha256Hex (objectCacheKey sha256Hex backing validator) size) s)
    (hone : OneSize sha256Hex (objectCacheKey sha256Hex backing validator) size s
      (.openHandle id backing size (.source size validator) fails))
    (hopen : (poolLifetime sha256Hex options).step s
      (.openHandle id backing size (.source size validator) fails) = some t)
    (hok : (t.handles.lookup id).isSome)
    (hu : (poolLifetime sha256Hex options).ReachesBy
      (OneSize sha256Hex (objectCacheKey sha256Hex backing validator) size) t u) :
    objectUsageLocked u.pool.shared (objectCacheKey sha256Hex backing validator) ≤ (size : ℤ) - 1 ∧
      retainedBytes u.pool.shared (objectCacheKey sha256Hex backing validator) < size := by
  have ht := System.ReachableBy.step hs hone hopen
  obtain ⟨hd, hh⟩ := Option.isSome_iff_exists.1 hok
  have hobject : hd.backing = backing ∧ hd.validator = validator := by
    cases (reachable_move hs hopen).handles id hd hh with
    | kept hh₀ _ _ _ =>
      have hfresh := openHandle_fresh (poolLifetime_step hopen).2
      exact absurd (hfresh.symm.trans hh₀) (by simp)
    | opened ha _ =>
      obtain ⟨-, hb, -, hsource, -⟩ := CacheLabel.openHandle.inj ha
      exact ⟨hb.symm, (OpenOutcome.source.inj hsource).2.symm⟩
  obtain ⟨hd', hh', hb, -, hv⟩ := reaches_handle ht hu id hd hh
  have hbelow := (reachable_objectIncomplete hp (ht.reaches hu)).incomplete id hd' hh'
    (by rw [hb, hv, hobject.1, hobject.2])
  refine ⟨hbelow, ?_⟩
  rw [objectUsageLocked_eq] at hbelow
  have := fetchingBytes_nonneg u.pool.shared (objectCacheKey sha256Hex backing validator)
  omega

end Runs

/-- A read of two chunks of the object, after its handle has been opened: the third chunk would
complete the object, so its read-ahead evicts the first. -/
theorem opened_object_incomplete_small : ∃ t u,
    (poolLifetime smallOrigin.sha256Hex smallOptions).step
      (freshCache true (emptyPool smallOptions ⟨∅, ∅⟩))
      (.openHandle 0 ⟨"torbox", "7:1"⟩ 10 (.source 10 "v1") []) = some t ∧
    (poolLifetime smallOrigin.sha256Hex smallOptions).ReachesBy (OneSize smallOrigin.sha256Hex
      (objectCacheKey smallOrigin.sha256Hex ⟨"torbox", "7:1"⟩ "v1") 10) t u ∧
    u.pool.shared.chunks.keys.length = 1 ∧ u.pool.shared.inflight.keys.length = 1 ∧
    objectUsageLocked u.pool.shared
      (objectCacheKey smallOrigin.sha256Hex ⟨"torbox", "7:1"⟩ "v1") ≤ (10 : ℕ) - 1 := by
  have hvalues : ((poolLifetime smallOrigin.sha256Hex smallOptions).step
      (freshCache true (emptyPool smallOptions ⟨∅, ∅⟩))
      (.openHandle 0 ⟨"torbox", "7:1"⟩ 10 (.source 10 "v1") [])).bind (fun t =>
        ((poolLifetime smallOrigin.sha256Hex smallOptions).runChecked (OneSize smallOrigin.sha256Hex
          (objectCacheKey smallOrigin.sha256Hex ⟨"torbox", "7:1"⟩ "v1") 10) t
            smallRead.tail).map fun u => ((t.handles.lookup 0).isSome,
              u.pool.shared.chunks.keys.length, u.pool.shared.inflight.keys.length)) =
      some (true, 1, 1) := by
    decide +kernel
  simp only [Option.bind_eq_some_iff, Option.map_eq_some_iff, Prod.mk.injEq] at hvalues
  obtain ⟨t, ht, u, hu, hok, hchunks, hinflight⟩ := hvalues
  have hreaches := System.reachesBy_of_runChecked hu
  have hinit : (poolLifetime smallOrigin.sha256Hex smallOptions).init
      (freshCache true (emptyPool smallOptions ⟨∅, ∅⟩)) := ⟨⟨∅, ∅⟩, [], _, rfl, rfl⟩
  have hpolicy : smallOptions.policy = .rolling := rfl
  have hincomplete := opened_object_incomplete hpolicy (.init hinit) (fun _ _ => rfl) ht hok hreaches
  exact ⟨t, u, ht, hreaches, hchunks, hinflight, hincomplete.1⟩

end BlackPearl.Cache
