import BlackPearl.Cache.ReadCorrectness

/-!
# Reads within the lifetime of one pool

`cacheStep` keeps the invariant, so in every run of one pool whose chunks are right at the start,
every finished `ReadAt` agrees with the content its handle was opened on.
-/

set_option autoImplicit false

namespace BlackPearl.Cache

open BlackPearl.Library BlackPearl.Domain

section Steps

variable {o : Origin} {u : Prop} {s t : CacheState}

/-! ## Steps from outside -/

theorem stepOpen_invariant (hinv : CacheInvariant o u s) {id : ℕ} {backing : BackingRef} {size : ℕ}
    {outcome : OpenOutcome} {fails : List FilePath} (hfaithful : FaithfulOpen o backing outcome)
    (hstep : stepOpen o.sha256Hex s id backing size outcome fails = some t) :
    CacheInvariant o u t := by
  unfold stepOpen at hstep
  split at hstep
  · cases hstep
  · next hfresh =>
    rw [Option.not_isSome_iff_eq_none] at hfresh
    split at hstep
    · cases hstep
      exact hinv
    · next providerSize validator =>
      split at hstep
      · cases hstep
        exact hinv
      · next hsize =>
        have hev := openObject_evicted s.pool (objectCacheKey o.sha256Hex backing validator) size fails
        have hpool := evicted_step (o := o) hinv.books hinv.disk hinv.stored hev
        have hholders : ∀ ref, ((openObject s.pool (objectCacheKey o.sha256Hex backing validator) size
            fails).1.outstanding.count ref : ℤ) = holders s.readers ref := by
          intro ref
          rw [hev.outstanding_eq]
          exact hinv.holders_eq ref
        split at hstep
        · next pool hopen =>
          rw [hopen] at hpool hholders
          cases hstep
          refine hinv.of_step hpool ?_ ?_ (fun _ _ hf => Or.inl ⟨hf, by simp⟩) hinv.prefetchers
            (fun _ _ hr => Or.inl hr) hholders
          · intro id' h hh
            have hne : id' ≠ id := by
              rintro rfl
              exact absurd (hfresh.symm.trans hh) (by simp)
            refine ⟨h, ?_, rfl, rfl, rfl⟩
            show (s.handles.insert id _).lookup id' = some h
            rw [Table.lookup_insert, if_neg hne, hh]
          · intro id' h hh
            change (s.handles.insert id _).lookup id' = some h at hh
            rw [Table.lookup_insert] at hh
            split at hh
            · rw [← Option.some.inj hh]
              obtain ⟨c, hc, hlen⟩ := hfaithful
              simp only [ne_eq, not_not] at hsize
              exact ⟨c, hc, hlen.trans hsize⟩
            · exact hinv.handles id' h hh
        · next pool outcome' hne hopen =>
          rw [hopen] at hpool hholders
          cases hstep
          exact hinv.of_step hpool (.of_eq rfl) hinv.handles (fun _ _ hf => Or.inl ⟨hf, by simp⟩)
            hinv.prefetchers (fun _ _ hr => Or.inl hr) hholders

/-- A step that leaves the pool and all goroutines alone. -/
theorem CacheInvariant.idle (hinv : CacheInvariant o u s) (hpool : t.pool = s.pool)
    (hkept : HandlesKept s t)
    (hhandles : ∀ id h, t.handles.lookup id = some h → KnownObject o h.backing h.validator h.size)
    (hfetchers : t.fetchers = s.fetchers) (hreaders : t.readers = s.readers)
    (hprefetchers : ∀ id p, t.prefetchers.lookup id = some p → PrefetchRight o p) :
    CacheInvariant o u t := by
  have hmove : PoolStepRight o none s.pool t.pool := by
    rw [hpool]
    exact .refl none hinv.books hinv.disk hinv.stored
  refine hinv.of_step hmove hkept hhandles (fun _ _ hf => Or.inl ⟨by rw [← hfetchers]; exact hf, by simp⟩)
    hprefetchers (fun _ _ hr => Or.inl (by rw [← hreaders]; exact hr)) ?_
  intro ref
  rw [hpool, hreaders]
  exact hinv.holders_eq ref

/-- Changing a handle without changing its object. -/
theorem CacheInvariant.set_handle (hinv : CacheInvariant o u s) {id : ℕ} {h h' : Handle}
    (hh : s.handles.lookup id = some h) (hhandles : t.handles = s.handles.insert id h')
    (hb : h'.backing = h.backing) (hs : h'.size = h.size) (hv : h'.validator = h.validator)
    (hpool : t.pool = s.pool) (hfetchers : t.fetchers = s.fetchers)
    (hreaders : t.readers = s.readers) (hprefetchers : t.prefetchers = s.prefetchers) :
    CacheInvariant o u t := by
  refine hinv.idle hpool (.of_insert hh hhandles hb hs hv) ?_ hfetchers hreaders
    (by rw [hprefetchers]; exact hinv.prefetchers)
  intro id' h₀ hh₀
  rw [hhandles, Table.lookup_insert] at hh₀
  split at hh₀
  · rw [← Option.some.inj hh₀, hb, hv, hs]
    exact hinv.handles id h hh
  · exact hinv.handles id' h₀ hh₀

theorem holders_insert_fresh {readers : Table ℕ Reader} {id : ℕ} (hfresh : readers.lookup id = none)
    {r : Reader} (hheld : r.held = none) (ref : ℕ) :
    holders (readers.insert id r) ref = holders readers ref := by
  have hinsert := Table.total_insert_of_notMem
    (f := fun _ r => if r.held = some ref then (1 : ℤ) else 0) (v := r) hfresh
  rw [hheld] at hinsert
  simpa [holders] using hinsert

theorem stepOutside_invariant (hinv : CacheInvariant o u s) {a : CacheLabel}
    (hactor : actor a = .outside) (hfaithful : Faithful o s a)
    (hstep : stepOutside o.sha256Hex s a = some t) : CacheInvariant o u t := by
  cases a <;> simp only [actor, reduceCtorEq] at hactor
  case openHandle => exact stepOpen_invariant hinv hfaithful hstep
  case markClosed id =>
    simp only [stepOutside] at hstep
    split at hstep
    · cases hstep
    · next h hh =>
      split at hstep
      · cases hstep
      · cases hstep
        exact hinv.set_handle hh rfl rfl rfl rfl rfl rfl rfl rfl
  case stopReadAhead id =>
    simp only [stepOutside] at hstep
    split at hstep
    · cases hstep
    · next h hh =>
      split at hstep
      · cases hstep
        exact hinv.set_handle hh rfl rfl rfl rfl rfl rfl rfl rfl
      · cases hstep
  case read id handle offset length =>
    simp only [stepOutside] at hstep
    split at hstep
    · cases hstep
    · next hguard =>
      simp only [not_or, Option.not_isSome_iff_eq_none, Option.isNone_iff_eq_none] at hguard
      obtain ⟨hfresh, hhandle⟩ := hguard
      obtain ⟨h, hh⟩ := Option.ne_none_iff_exists'.1 hhandle
      obtain ⟨c, hc, hsize⟩ := hinv.handles handle h hh
      cases hstep
      refine hinv.of_step (.refl none hinv.books hinv.disk hinv.stored) (.of_eq rfl) hinv.handles
        (fun _ _ hf => Or.inl ⟨hf, by simp⟩) hinv.prefetchers ?_ ?_
      · intro id' r hr
        change (s.readers.insert id _).lookup id' = some r at hr
        rw [Table.lookup_insert] at hr
        split at hr
        · rw [← Option.some.inj hr]
          exact Or.inr ⟨h, c, hh, hc, hsize, rfl⟩
        · exact Or.inl hr
      · intro ref
        show (s.pool.outstanding.count ref : ℤ) = holders (s.readers.insert id _) ref
        rw [holders_insert_fresh hfresh rfl]
        exact hinv.holders_eq ref
  case prefetch id backing size =>
    simp only [stepOutside] at hstep
    split at hstep
    · cases hstep
    · cases hstep
      refine hinv.idle rfl (.of_eq rfl) hinv.handles rfl rfl ?_
      intro id' p hp
      change (s.prefetchers.insert id _).lookup id' = some p at hp
      rw [Table.lookup_insert] at hp
      split at hp
      · rw [← Option.some.inj hp]
        trivial
      · exact hinv.prefetchers id' p hp
  case shutdown =>
    cases hstep
    exact hinv.idle rfl (.of_eq rfl) hinv.handles rfl rfl hinv.prefetchers
  case restart => cases hstep

/-! ## Steps of a prefetch -/

theorem stepPrefetch_invariant (hinv : CacheInvariant o u s) {id : ℕ} {p : Prefetch}
    (hp : s.prefetchers.lookup id = some p) {a : CacheLabel} (hactor : actor a = .prefetcher id)
    (hfaithful : Faithful o s a) (hstep : stepPrefetch o.sha256Hex s id p a = some t) :
    CacheInvariant o u t := by
  have herase : ∀ id' q, (s.prefetchers.erase id).lookup id' = some q → PrefetchRight o q := by
    intro id' q hq
    rw [Table.lookup_erase] at hq
    split at hq
    · cases hq
    · exact hinv.prefetchers id' q hq
  have hinsert : ∀ p', PrefetchRight o p' → ∀ id' q, (s.prefetchers.insert id p').lookup id' = some q →
      PrefetchRight o q := by
    intro p' hp' id' q hq
    rw [Table.lookup_insert] at hq
    split at hq
    · rw [← Option.some.inj hq]
      exact hp'
    · exact hinv.prefetchers id' q hq
  cases a <;> simp only [actor, Actor.prefetcher.injEq, reduceCtorEq] at hactor <;> subst hactor
  case prefetchOpen outcome closeFails =>
    simp only [stepPrefetch] at hstep
    cases p with
    | scheduling run => cases hstep
    | opening backing size =>
      have hfailed : CacheInvariant o u { s with
          pool := recordBackgroundErrorLocked s.pool .nextEpisode
          prefetchers := s.prefetchers.erase _ } :=
        hinv.of_step (evicted_step hinv.books hinv.disk hinv.stored
            (recordBackgroundErrorLocked_evicted s.pool .nextEpisode)) (.of_eq rfl) hinv.handles
          (fun _ _ hf => Or.inl ⟨hf, by simp⟩) herase (fun _ _ hr => Or.inl hr) hinv.holders_eq
      simp only at hstep
      split at hstep
      · cases hstep
        exact hfailed
      · next providerSize validator =>
        split at hstep
        · cases hstep
          exact hfailed
        · next hsize =>
          cases hstep
          refine hinv.idle rfl (.of_eq rfl) hinv.handles rfl rfl (hinsert _ ?_)
          obtain ⟨c, hc, hlen⟩ := hfaithful _ hp
          simp only [not_or, ne_eq, not_not] at hsize
          exact ⟨c, hc, hlen.trans hsize.1⟩
  case prefetchSchedule fails =>
    simp only [stepPrefetch] at hstep
    cases p with
    | opening backing size => cases hstep
    | scheduling run =>
      rcases hround : scheduleRound o.sha256Hex s.pool run (contextDone s run.context) fails
        with ⟨pool, fetcher, rest⟩
      have hrun : RunRight o run := hinv.prefetchers _ _ hp
      obtain ⟨hpool, hout, hfetchers, hrest⟩ := scheduleRound_spec hinv hrun _ fails hround
      simp only [hround] at hstep
      cases hstep
      refine hinv.of_step hpool (.of_eq rfl) hinv.handles ?_ ?_ (fun _ _ hr => Or.inl hr) ?_
      · intro id' f hf
        rcases hfetchers id' f hf with hf | hf
        · exact Or.inl ⟨hf, by simp⟩
        · exact Or.inr hf
      · cases rest with
        | none => exact herase
        | some run' => exact hinsert _ (hrest run' rfl)
      · intro ref
        show (pool.outstanding.count ref : ℤ) = _
        rw [hout]
        exact hinv.holders_eq ref

/-! ## All steps -/

def isRestart : CacheLabel → Bool
  | .restart _ _ => true
  | _ => false

/-- Every step other than a restart keeps the invariant. -/
theorem cacheStep_invariant (ho : o.CollisionFree) (hinv : CacheInvariant o u s) {a : CacheLabel}
    (hrestart : isRestart a = false) (hfaithful : Faithful o s a)
    (hcompatible : CompatibleHits o s a) (hstep : cacheStep o.sha256Hex s a = some t) :
    CacheInvariant o u t := by
  unfold cacheStep at hstep
  split at hstep
  · simp [isRestart] at hrestart
  · split at hstep
    · cases hstep
    · cases hactor : actor a with
      | outside =>
        simp only [hactor] at hstep
        exact stepOutside_invariant hinv hactor hfaithful hstep
      | reader id =>
        simp only [hactor] at hstep
        obtain ⟨r, hr, hrest⟩ := Option.bind_eq_some_iff.1 hstep
        obtain ⟨h, hh, hrest⟩ := Option.bind_eq_some_iff.1 hrest
        exact stepReader_invariant hinv hr hh hactor hfaithful hcompatible hrest
      | fetcher id =>
        simp only [hactor] at hstep
        obtain ⟨f, hf, hrest⟩ := Option.bind_eq_some_iff.1 hstep
        exact stepFetcher_invariant ho hinv hf hactor hfaithful hrest
      | prefetcher id =>
        simp only [hactor] at hstep
        obtain ⟨p, hp, hrest⟩ := Option.bind_eq_some_iff.1 hstep
        exact stepPrefetch_invariant hinv hp hactor hfaithful hrest

end Steps

/-! ## Runs -/

/-- The chunk files below the root are right for chunks of `chunkBytes` bytes. -/
def RightStart (o : Origin) (chunkBytes : ℕ) (d : Disk) : Prop :=
  ∀ key node, d.files.lookup (chunkPath key) = some node →
    node.writtenWith = chunkBytes ∧ RightFile o key node

/-- The process from the creation of a pool on files that are right for its chunk size. -/
def lifetime (o : Origin) (options : RangeOptions) : System CacheState CacheLabel where
  init s := ∃ d fails pool, RightStart o options.chunkBytes d ∧
    (recoverChunks options d fails).2 = .ok pool ∧ s = freshCache true pool
  step := cacheStep o.sha256Hex

/-- The labels within one lifetime, with exact provider answers. -/
def WithinLifetime (o : Origin) (s : CacheState) (a : CacheLabel) : Prop :=
  isRestart a = false ∧ Faithful o s a

/-- A pool that has just been recovered, without goroutines. -/
theorem freshCache_invariant {o : Origin} {u : Prop} {options : RangeOptions} {d : Disk}
    {pool : PoolState} (hrec : RecoverySpec options d pool) (hright : DiskRight o d)
    (huniform : u → ∀ k node, d.files.lookup (chunkPath k) = some node →
      node.writtenWith = options.chunkBytes) : CacheInvariant o u (freshCache true pool) where
  uniform := by
    intro hu k node hn
    show node.writtenWith = pool.shared.options.chunkBytes
    rw [hrec.options_eq]
    exact huniform hu k node (hrec.files_sub _ _ hn)
  books := hrec.books
  disk := fun k node hn => hright k node (hrec.files_sub _ _ hn)
  stored := by
    intro k e hk
    obtain ⟨node, hnode, -⟩ := hrec.entries k e hk
    show (pool.disk.files.lookup (chunkPath k)).isSome
    rw [hnode]
    rfl
  handles := by simp [freshCache]
  fetchers := by simp [freshCache]
  prefetchers := by simp [freshCache]
  readers := by simp [freshCache]
  holders_eq := by
    intro ref
    show (pool.outstanding.count ref : ℤ) = _
    rw [hrec.outstanding_eq]
    rfl

/-- While the chunk size does not change, every chunk a read finds is compatible. -/
theorem CacheInvariant.compatible {o : Origin} {s : CacheState} (hinv : CacheInvariant o True s)
    (a : CacheLabel) : CompatibleHits o s a := by
  unfold CompatibleHits
  split
  · intro r _ h _ node hnode _
    exact Or.inl (hinv.uniform trivial _ node hnode)
  · trivial

theorem lifetime_invariant {o : Origin} (ho : o.CollisionFree) {options : RangeOptions}
    {s : CacheState} (h : (lifetime o options).ReachableBy (WithinLifetime o) s) :
    CacheInvariant o True s := by
  refine h.invariant ?_ ?_
  · rintro s ⟨d, fails, pool, hstart, hrec, rfl⟩
    have hok : recoverChunks options d fails = ((recoverChunks options d fails).1, .ok pool) :=
      Prod.ext rfl hrec
    exact freshCache_invariant (recoverChunks_spec hok).2 (fun k node hn => (hstart k node hn).2)
      fun _ k node hn => (hstart k node hn).1
  · intro s a t hinv hp hstep
    exact cacheStep_invariant ho hinv hp.1 hp.2 (hinv.compatible a) hstep

/-- A finished read agrees with the content of the object its handle was opened on. -/
def ReadsRight (o : Origin) (s : CacheState) : Prop :=
  ∀ id r h err, s.readers.lookup id = some r → s.handles.lookup r.handle = some h →
    r.phase = .done err → 0 ≤ r.offset → r.offset.toNat < h.size →
    ∃ c, o.content h.backing h.validator = some c ∧ c.length = h.size ∧
      ReadOutcome c r.offset.toNat r.length r.buffer err

theorem CacheInvariant.readsRight {o : Origin} {u : Prop} {s : CacheState}
    (hinv : CacheInvariant o u s) : ReadsRight o s := by
  intro id r h err hr hh hphase hnonneg hlt
  obtain ⟨c, hc, hsize, hright⟩ := hinv.reader hr hh
  simp only [ReaderPhaseRight, hphase] at hright
  exact ⟨c, hc, hsize, hright hnonneg hlt⟩

/-- Objects that differ in provider, object ID or validator never share a chunk or its file. -/
def ObjectsApart (o : Origin) : Prop :=
  ∀ b v b' v' (i j : ℕ), (o.content b v).isSome → (o.content b' v').isSome → (b, v) ≠ (b', v') →
    (⟨objectCacheKey o.sha256Hex b v, i⟩ : ChunkKey) ≠ ⟨objectCacheKey o.sha256Hex b' v', j⟩ ∧
      chunkPath ⟨objectCacheKey o.sha256Hex b v, i⟩ ≠
        chunkPath ⟨objectCacheKey o.sha256Hex b' v', j⟩

theorem Origin.CollisionFree.objectsApart {o : Origin} (ho : o.CollisionFree) : ObjectsApart o := by
  intro b v b' v' i j hb hb' hne
  have hkey : (⟨objectCacheKey o.sha256Hex b v, i⟩ : ChunkKey) ≠
      ⟨objectCacheKey o.sha256Hex b' v', j⟩ := by
    intro heq
    obtain ⟨rfl, rfl⟩ := ho.key_injective hb hb' (congrArg ChunkKey.object heq)
    exact hne rfl
  exact ⟨hkey, fun h => hkey (chunkPath_injective h)⟩

/-- In every run of one pool, under either policy, every `ReadAt` that has returned agrees with the
content its handle was opened on, and distinct objects stay apart. -/
theorem rangeCache_reads_correct {o : Origin} (ho : o.CollisionFree) {options : RangeOptions}
    {s : CacheState} (h : (lifetime o options).ReachableBy (WithinLifetime o) s) :
    ReadsRight o s ∧ ObjectsApart o :=
  ⟨(lifetime_invariant ho h).readsRight, ho.objectsApart⟩

instance (o : Origin) (s : CacheState) : (a : CacheLabel) → Decidable (Faithful o s a)
  | .openHandle _ backing _ outcome _ => inferInstanceAs (Decidable (FaithfulOpen o backing outcome))
  | .fetchOpen id outcome _ _ =>
      inferInstanceAs (Decidable (∀ f ∈ s.fetchers.lookup id, FaithfulOpen o f.backing outcome))
  | .prefetchOpen id outcome _ =>
      inferInstanceAs (Decidable (∀ p ∈ s.prefetchers.lookup id, FaithfulPrefetch o outcome p))
  | .fetchRead id result _ => inferInstanceAs (Decidable (∀ f ∈ s.fetchers.lookup id,
      ExactFor o f.backing f.validator f.offset f.call.expected [result]))
  | .direct id attempts => inferInstanceAs (Decidable (∀ r ∈ s.readers.lookup id,
      ∀ h ∈ s.handles.lookup r.handle, ExactFor o h.backing h.validator r.offset.toNat r.length
        (attempts.map Prod.fst)))
  | .markClosed _ | .stopReadAhead _ | .read _ _ _ _ | .start _ _ | .begin _ | .acquire _ _ _
  | .wake _ _ | .unpark _ _ | .readFile _ _ | .release _ | .finish _ | .schedule _ _
  | .prefetch _ _ _ | .prefetchSchedule _ _ | .fetchCreate _ _ _ | .fetchWrite _ _ _
  | .fetchRename _ _ _ _ | .fetchSeal _ _ _ | .fetchClose _ _ _ | .fetchComplete _ | .shutdown
  | .restart _ _ => .isTrue trivial

instance (o : Origin) (s : CacheState) (a : CacheLabel) : Decidable (WithinLifetime o s a) :=
  inferInstanceAs (Decidable (_ ∧ _))

/-- One object of ten bytes, with the SHA-256 of its cache message. -/
def smallOrigin : Origin where
  sha256Hex message :=
    if message = "torbox\x007:1\x00v1" then
      "530a8e49f7a7b5c4f586cceda044694a44e45f9d9aa73db3764d71b030d43dd2"
    else message
  content backing validator :=
    if backing = ⟨"torbox", "7:1"⟩ ∧ validator = "v1" then some [0, 1, 2, 3, 4, 5, 6, 7, 8, 9]
    else none

theorem smallOrigin_collisionFree : smallOrigin.CollisionFree where
  nul_free := by
    intro b v h
    simp only [smallOrigin] at h
    split at h
    · next hb =>
      rw [hb.1]
      decide
    · simp at h
  injective := by
    intro b v b' v' h h' _
    simp only [smallOrigin] at h h'
    split at h
    · next hb =>
      split at h'
      · next hb' => rw [hb.1, hb.2, hb'.1, hb'.2]
      · simp at h'
    · simp at h

/-- The steps of a fetch that succeeds at its first attempt. -/
def fetchLabels (id : ℕ) (suffix : String) (bytes : List UInt8) : List CacheLabel :=
  [.fetchOpen id (.source 10 "v1") none false, .fetchCreate id true (some suffix),
    .fetchRead id ⟨bytes, none⟩ false, .fetchWrite id true true, .fetchRename id true true 0,
    .fetchSeal id true true, .fetchClose id none false, .fetchComplete id]

/-- Read four bytes across the border of the first two chunks, both of them fetched for it. -/
def smallRead : List CacheLabel :=
  [.openHandle 0 ⟨"torbox", "7:1"⟩ 10 (.source 10 "v1") [], .read 0 0 2 4, .start 0 none, .begin 0,
    .acquire 0 none []] ++ fetchLabels 0 "1" [0, 1, 2, 3] ++
  [.wake 0 none, .acquire 0 none [], .readFile 0 none, .release 0, .acquire 0 none []] ++
  fetchLabels 1 "2" [4, 5, 6, 7] ++
  [.wake 0 none, .acquire 0 none [], .readFile 0 none, .release 0, .finish 0, .schedule 0 [],
    .schedule 0 []]

theorem smallStart : (lifetime smallOrigin smallOptions).init
    (freshCache true (emptyPool smallOptions ⟨∅, ∅⟩)) :=
  ⟨⟨∅, ∅⟩, [], emptyPool smallOptions ⟨∅, ∅⟩, fun _ _ h => absurd h (by simp), rfl, rfl⟩

theorem rangeCache_reads_correct_small : ∃ s r,
    (lifetime smallOrigin smallOptions).runChecked (WithinLifetime smallOrigin)
      (freshCache true (emptyPool smallOptions ⟨∅, ∅⟩)) smallRead = some s ∧
    s.readers.lookup 0 = some r ∧ r.phase = .done none ∧ r.buffer = [2, 3, 4, 5] ∧
    ReadsRight smallOrigin s ∧ ObjectsApart smallOrigin := by
  obtain ⟨s, hs⟩ : ∃ s, (lifetime smallOrigin smallOptions).runChecked (WithinLifetime smallOrigin)
      (freshCache true (emptyPool smallOptions ⟨∅, ∅⟩)) smallRead = some s :=
    Option.isSome_iff_exists.1 (by decide +kernel)
  have hvalues : ((lifetime smallOrigin smallOptions).runChecked (WithinLifetime smallOrigin)
      (freshCache true (emptyPool smallOptions ⟨∅, ∅⟩)) smallRead).bind (fun s =>
        (s.readers.lookup 0).map fun r => (r.phase, r.buffer)) = some (.done none, [2, 3, 4, 5]) := by
    decide +kernel
  rw [hs, Option.bind_some, Option.map_eq_some_iff] at hvalues
  obtain ⟨r, hr, hvalue⟩ := hvalues
  simp only [Prod.mk.injEq] at hvalue
  have hcorrect := rangeCache_reads_correct smallOrigin_collisionFree
    (System.ReachableBy.reaches (.init smallStart) (System.reachesBy_of_runChecked hs))
  exact ⟨s, r, hs, hr, hvalue.1, hvalue.2, hcorrect.1, hcorrect.2⟩

end BlackPearl.Cache
