import BlackPearl.Cache.Lifetime

/-!
# The process as a run of the pool

Between two restarts, every step of `cacheStep` runs the pool through a few of its sections, so what
holds in every run of the pool system holds of the process. `StepMove` is the inversion of a step: the
sections it runs, where their objects and sizes come from, and which goroutines it moves. No property
of the provider's answers is used.
-/

set_option autoImplicit false

namespace BlackPearl.Cache

open BlackPearl.Library BlackPearl.Domain

/-! ## Goroutines attached to the pool -/

/-- The temporary file of a fetch. -/
def FetchPhase.temporary : FetchPhase → Option FilePath
  | .reading temporary | .writing temporary _ | .renaming temporary _ => some temporary
  | _ => none

/-- A fetch goroutine works on the call that is in flight under its key. -/
structure FetcherAttached (pool : PoolState) (id : ℕ) (f : Fetcher) : Prop where
  ref_eq : f.call.ref = id
  inflight : pool.shared.inflight.lookup f.key = some f.call
  temporary : ∀ path, f.phase.temporary = some path → isFetchTemporary path.name = true

/-- The goroutines fit the pool: its books are right, fetches are in flight, and the pins are those
of the readers. -/
structure Attached (s : CacheState) : Prop where
  books : Books s.pool
  fetchers : ∀ id f, s.fetchers.lookup id = some f → FetcherAttached s.pool id f
  holders_eq : ∀ ref, (s.pool.outstanding.count ref : ℤ) = holders s.readers ref

/-- What a reader holds is outstanding. -/
theorem Attached.outstanding {s : CacheState} (h : Attached s) {id : ℕ} {r : Reader}
    (hr : s.readers.lookup id = some r) {ref : ℕ} (hheld : r.held = some ref) :
    ref ∈ s.pool.outstanding := by
  have hle : (if r.held = some ref then (1 : ℤ) else 0) ≤ holders s.readers ref :=
    Table.le_total (f := fun _ r => if r.held = some ref then (1 : ℤ) else 0)
      (fun _ _ _ => by split <;> omega) hr
  rw [if_pos hheld, ← h.holders_eq ref] at hle
  exact List.count_pos_iff.1 (by omega)

/-! ## What a section of the pool leaves alone -/

/-- Only its own completion takes a fetch off the in-flight table. -/
theorem poolStep_inflight {p q : PoolState} {l : PoolLabel} (hstep : poolStep p l = some q)
    {key : ChunkKey} {call : FetchCall} (hi : p.shared.inflight.lookup key = some call)
    (hne : ∀ stored err, l ≠ .complete key stored err) :
    q.shared.inflight.lookup key = some call := by
  cases l with
  | openObject object logicalSize fails =>
    cases hstep
    rw [(openObject_evicted p object logicalSize fails).inflight_eq, hi]
  | acquire key' logicalSize expected fails =>
    have hspec := acquireChunkLocked_spec p key' logicalSize expected fails
    cases hstep
    generalize (acquireChunkLocked p key' logicalSize expected fails).1 = u at hspec ⊢
    generalize (acquireChunkLocked p key' logicalSize expected fails).2 = result at hspec
    cases hspec with
    | hit _ => exact hi
    | join _ _ => exact hi
    | failed hev => rw [hev.inflight_eq, hi]
    | wait hev => rw [hev.inflight_eq, hi]
    | started _ hnone hev _ heq =>
      subst heq
      apply startFetch_inflight .none expected
      · rw [hev.inflight_eq, hnone]
      · rw [hev.inflight_eq, hi]
  | release ref =>
    simp only [poolStep] at hstep
    split at hstep <;> cases hstep
    exact hi
  | schedule key' logicalSize expected kind keep fails =>
    have hspec := scheduleChunkLocked_spec p key' logicalSize expected kind keep fails
    cases hstep
    generalize (scheduleChunkLocked p key' logicalSize expected kind keep fails).1 = u at hspec ⊢
    generalize (scheduleChunkLocked p key' logicalSize expected kind keep fails).2 = result at hspec
    cases hspec with
    | present => exact hi
    | refused hev => rw [hev.inflight_eq, hi]
    | started _ hnone hev _ =>
      rw [recordFetch_inflight]
      apply startFetch_inflight kind expected
      · rw [hev.inflight_eq, hnone]
      · rw [hev.inflight_eq, hi]
  | writeFile key' path node =>
    simp only [poolStep] at hstep
    split at hstep <;> cases hstep
    exact hi
  | removeFile key' path =>
    simp only [poolStep] at hstep
    split at hstep <;> cases hstep
    exact hi
  | makeDirectory directory =>
    cases hstep
    exact hi
  | complete key' stored err =>
    simp only [poolStep] at hstep
    split at hstep <;> cases hstep
    next call' hi' =>
      have hkey : key ≠ key' := by
        rintro rfl
        exact hne stored err rfl
      obtain ⟨u, hu, heq⟩ := completeFetch_evicted p key' call' stored err
      rw [heq]
      show u.shared.inflight.lookup key = some call
      rw [hu.inflight_eq]
      have herase : (p.shared.inflight.erase key').lookup key = some call := by
        rw [Table.lookup_erase, if_neg hkey, hi]
      cases stored <;> exact herase
  | record kind =>
    cases hstep
    rw [(recordBackgroundErrorLocked_evicted p kind).inflight_eq, hi]
  | countDirect misses fetches =>
    cases hstep
    exact hi

/-- The sections that neither pin nor release an entry. -/
def PoolLabel.holdsNothing : PoolLabel → Prop
  | .acquire _ _ _ _ | .release _ => False
  | _ => True

theorem completeFetch_outstanding (p : PoolState) (key : ChunkKey) (call : FetchCall) (stored : Bool)
    (err : Option FetchError) :
    (completeFetch p key call stored err).outstanding = p.outstanding := by
  obtain ⟨u, hu, heq⟩ := completeFetch_evicted p key call stored err
  rw [heq]
  show u.outstanding = _
  rw [hu.outstanding_eq]
  cases stored <;> rfl

theorem poolStep_outstanding {p q : PoolState} {l : PoolLabel} (hstep : poolStep p l = some q)
    (hl : l.holdsNothing) : q.outstanding = p.outstanding := by
  cases l with
  | openObject object logicalSize fails =>
    cases hstep
    exact (openObject_evicted p object logicalSize fails).outstanding_eq
  | acquire _ _ _ _ => exact hl.elim
  | release _ => exact hl.elim
  | schedule key logicalSize expected kind keep fails =>
    cases hstep
    exact (scheduleChunkLocked_spec p key logicalSize expected kind keep fails).outstanding_eq
  | writeFile key path node =>
    simp only [poolStep] at hstep
    split at hstep <;> cases hstep
    rfl
  | removeFile key path =>
    simp only [poolStep] at hstep
    split at hstep <;> cases hstep
    rfl
  | makeDirectory directory =>
    cases hstep
    rfl
  | complete key stored err =>
    simp only [poolStep] at hstep
    split at hstep <;> cases hstep
    exact completeFetch_outstanding _ _ _ _ _
  | record kind =>
    cases hstep
    exact (recordBackgroundErrorLocked_evicted p kind).outstanding_eq
  | countDirect misses fetches =>
    cases hstep
    rfl

/-- A fetch that takes no part in a section stays attached. -/
theorem FetcherAttached.kept {p q : PoolState} {id : ℕ} {f : Fetcher} (h : FetcherAttached p id f)
    {l : PoolLabel} (hstep : poolStep p l = some q)
    (hne : ∀ stored err, l ≠ .complete f.key stored err) : FetcherAttached q id f :=
  ⟨h.ref_eq, poolStep_inflight hstep h.inflight hne, h.temporary⟩

/-- A fetch that has just been started is attached. -/
theorem newFetcher_attached {p : PoolState} {call : FetchCall} {key : ChunkKey}
    (hi : p.shared.inflight.lookup key = some call) (parent : Option ℕ) (backing : BackingRef)
    (validator : String) (size chunkBytes : ℕ) :
    FetcherAttached p call.ref (newFetcher call parent key backing validator size chunkBytes) :=
  ⟨rfl, hi, fun _ h => by cases h⟩

/-! ## The inversion of a step -/

/-- The loops of background scheduling that are under way. -/
def Scheduled (s : CacheState) (run : BackgroundRun) : Prop :=
  (∃ id r, s.readers.lookup id = some r ∧ r.phase = .scheduling run) ∨
    ∃ id, s.prefetchers.lookup id = some (.scheduling run)

section Inversion

variable (sha256Hex : String → String)

/-- Where a section of the pool gets its object and sizes from: a handle that is being opened, an
open handle, or a loop of background scheduling. -/
def SectionOf (s : CacheState) (a : CacheLabel) : PoolLabel → Prop
  | .openObject object logicalSize _ => ∃ id backing validator fails,
      a = .openHandle id backing logicalSize (.source logicalSize validator) fails ∧
        object = objectCacheKey sha256Hex backing validator
  | .acquire key logicalSize expected _ => ∃ id h, s.handles.lookup id = some h ∧
      key.object = objectCacheKey sha256Hex h.backing h.validator ∧ logicalSize = h.size ∧
      expected = chunkLength s.pool.shared.options.chunkBytes h.size key.index
  | .schedule key logicalSize expected _ _ _ => ∃ run, Scheduled s run ∧
      key.object = objectCacheKey sha256Hex run.backing run.validator ∧
      logicalSize = run.logicalSize ∧
      expected = chunkLength s.pool.shared.options.chunkBytes run.logicalSize key.index
  | _ => True

/-- The pool runs through sections that belong to the step. -/
def RunsSections (s : CacheState) (a : CacheLabel) (pool : PoolState) : Prop :=
  ∃ ls, (∀ l ∈ ls, SectionOf sha256Hex s a l) ∧
    (poolSystem s.pool.shared.options).run s.pool ls = some pool

/-- A handle after a step: one that was there, for the same object, or one that has just been
opened. -/
inductive HandleFrom (s : CacheState) (a : CacheLabel) (t : CacheState) (id : ℕ) (h : Handle) : Prop
  | kept {h₀ : Handle} : s.handles.lookup id = some h₀ → h₀.backing = h.backing →
      h₀.validator = h.validator → h₀.size = h.size → HandleFrom s a t id h
  | opened {fails : List FilePath} :
      a = .openHandle id h.backing h.size (.source h.size h.validator) fails →
      openObject s.pool (objectCacheKey sha256Hex h.backing h.validator) h.size fails =
        (t.pool, .fits) → HandleFrom s a t id h

end Inversion

/-- A loop of background scheduling after a step: one that was there, or one for the object of an
open handle or of a prefetch that has just opened its source. -/
inductive RunFrom (s : CacheState) (a : CacheLabel) (run : BackgroundRun) : Prop
  | kept {run₀ : BackgroundRun} : Scheduled s run₀ → run₀.backing = run.backing →
      run₀.validator = run.validator → run₀.logicalSize = run.logicalSize → RunFrom s a run
  | read {id : ℕ} {h : Handle} : s.handles.lookup id = some h → h.backing = run.backing →
      h.validator = run.validator → h.size = run.logicalSize → RunFrom s a run
  | prefetched {id : ℕ} {closeFails : Bool} :
      a = .prefetchOpen id (.source run.logicalSize run.validator) closeFails →
      s.prefetchers.lookup id = some (.opening run.backing run.logicalSize) → RunFrom s a run

/-- The phases of a read that goes through the chunks of the pool. -/
def ReaderPhase.cached : ReaderPhase → Bool
  | .starting | .direct | .done _ => false
  | _ => true

/-- A read goes through the chunks because it did so before, or because its object is larger than a
chunk or the pool persistent. -/
inductive CachedFrom (s : CacheState) (id : ℕ) (r : Reader) : Prop
  | kept {r₀ : Reader} : s.readers.lookup id = some r₀ → r₀.handle = r.handle →
      r₀.phase.cached = true → CachedFrom s id r
  | large {h : Handle} : s.handles.lookup r.handle = some h →
      (s.pool.shared.options.policy = .rolling → s.pool.shared.options.chunkBytes < h.size) →
      CachedFrom s id r

/-- A waiting read waited before, or `acquireChunk` has just decided so. -/
inductive ParkedFrom (s : CacheState) (t : CacheState) (id : ℕ) (r : Reader) (notify : ℕ) : Prop
  | kept : s.readers.lookup id = some r → ParkedFrom s t id r notify
  | parked {h : Handle} {key : ChunkKey} {fails : List FilePath} :
      s.handles.lookup r.handle = some h →
      acquireChunkLocked s.pool key h.size
        (chunkLength s.pool.shared.options.chunkBytes h.size key.index) fails =
          (t.pool, .wait notify) → ParkedFrom s t id r notify

/-- What a step other than a restart does. -/
structure StepMove (sha256Hex : String → String) (s : CacheState) (a : CacheLabel) (t : CacheState) :
    Prop where
  sections : RunsSections sha256Hex s a t.pool
  fetchers : ∀ id f, t.fetchers.lookup id = some f → FetcherAttached t.pool id f
  holders_eq : ∀ ref, (t.pool.outstanding.count ref : ℤ) = holders t.readers ref
  handles_kept : HandlesKept s t
  handles : ∀ id h, t.handles.lookup id = some h → HandleFrom sha256Hex s a t id h
  runs : ∀ run, Scheduled t run → RunFrom s a run
  cached : ∀ id r, t.readers.lookup id = some r → r.phase.cached = true → CachedFrom s id r
  parked : ∀ id r notify, t.readers.lookup id = some r → r.phase = .parked notify →
    ParkedFrom s t id r notify

/-! ## Steps of a reader -/

section Steps

variable {sha256Hex : String → String} {s t : CacheState} {a : CacheLabel}

theorem RunsSections.none : RunsSections sha256Hex s a s.pool := ⟨[], by simp, rfl⟩

theorem RunsSections.one {q : PoolState} {l : PoolLabel} (hl : SectionOf sha256Hex s a l)
    (hstep : poolStep s.pool l = some q) : RunsSections sha256Hex s a q := by
  refine ⟨[l], by simpa using hl, ?_⟩
  rw [System.run_cons]
  show (poolStep s.pool l).bind _ = _
  rw [hstep]
  rfl

theorem RunsSections.two {p q : PoolState} {l m : PoolLabel} (hl : SectionOf sha256Hex s a l)
    (hl' : SectionOf sha256Hex s a m) (hstep : poolStep s.pool l = some p)
    (hstep' : poolStep p m = some q) : RunsSections sha256Hex s a q := by
  refine ⟨[l, m], ?_, ?_⟩
  · intro b hb
    rcases List.mem_cons.1 hb with rfl | hb
    · exact hl
    · rw [List.mem_singleton.1 hb]
      exact hl'
  · rw [System.run_cons]
    show (poolStep s.pool l).bind _ = _
    rw [hstep, Option.bind_some, System.run_cons]
    show (poolStep p m).bind _ = _
    rw [hstep']
    rfl

theorem handleFrom_of_eq (h : t.handles = s.handles) :
    ∀ id hd, t.handles.lookup id = some hd → HandleFrom sha256Hex s a t id hd := by
  intro id hd hhd
  rw [h] at hhd
  exact .kept hhd rfl rfl rfl

theorem handleFrom_of_insert {id : ℕ} {h h' : Handle} (hh : s.handles.lookup id = some h)
    (ht : t.handles = s.handles.insert id h') (hb : h'.backing = h.backing) (hs : h'.size = h.size)
    (hv : h'.validator = h.validator) :
    ∀ id hd, t.handles.lookup id = some hd → HandleFrom sha256Hex s a t id hd := by
  intro id' hd hhd
  rw [ht, Table.lookup_insert] at hhd
  split at hhd
  · next hid =>
    obtain rfl := Option.some.inj hhd
    rw [hid]
    exact .kept hh hb.symm hv.symm hs.symm
  · exact .kept hhd rfl rfl rfl

/-- A step of one reader. -/
theorem StepMove.of_reader (hatt : Attached s) {id : ℕ} {r r' : Reader}
    (hr : s.readers.lookup id = some r) (hreaders : t.readers = s.readers.insert id r')
    (hprefetchers : t.prefetchers = s.prefetchers) (hsections : RunsSections sha256Hex s a t.pool)
    (hfetchers : ∀ id f, t.fetchers.lookup id = some f → FetcherAttached t.pool id f)
    (hkept : HandlesKept s t)
    (hhandles : ∀ id h, t.handles.lookup id = some h → HandleFrom sha256Hex s a t id h)
    (hcount : ∀ ref, (t.pool.outstanding.count ref : ℤ) = s.pool.outstanding.count ref -
      (if r.held = some ref then 1 else 0) + (if r'.held = some ref then 1 else 0))
    (hrun : ∀ run, r'.phase = .scheduling run → RunFrom s a run)
    (hcached : r'.phase.cached = true → CachedFrom s id r')
    (hparked : ∀ notify, r'.phase = .parked notify → ParkedFrom s t id r' notify) :
    StepMove sha256Hex s a t where
  sections := hsections
  fetchers := hfetchers
  holders_eq := by
    intro ref
    rw [hcount, hreaders, holders_insert hr, hatt.holders_eq]
  handles_kept := hkept
  handles := hhandles
  runs := by
    rintro run (⟨id', r₀, hr₀, hphase⟩ | ⟨id', hp⟩)
    · rw [hreaders, Table.lookup_insert] at hr₀
      split at hr₀
      · obtain rfl := Option.some.inj hr₀
        exact hrun run hphase
      · exact .kept (Or.inl ⟨id', r₀, hr₀, hphase⟩) rfl rfl rfl
    · rw [hprefetchers] at hp
      exact .kept (Or.inr ⟨id', hp⟩) rfl rfl rfl
  cached := by
    intro id' r₀ hr₀ hphase
    rw [hreaders, Table.lookup_insert] at hr₀
    split at hr₀
    · next hid =>
      obtain rfl := Option.some.inj hr₀
      rw [hid]
      exact hcached hphase
    · exact .kept hr₀ rfl hphase
  parked := by
    intro id' r₀ notify hr₀ hphase
    rw [hreaders, Table.lookup_insert] at hr₀
    split at hr₀
    · next hid =>
      obtain rfl := Option.some.inj hr₀
      rw [hid]
      exact hparked notify hphase
    · exact .kept hr₀

/-- A step of one reader that leaves everything else alone. -/
theorem StepMove.of_local (hatt : Attached s) {id : ℕ} {r r' : Reader}
    (hr : s.readers.lookup id = some r) (hheld : r'.held = r.held)
    (hrun : ∀ run, r'.phase = .scheduling run → RunFrom s a run)
    (hcached : r'.phase.cached = true → CachedFrom s id r')
    (hparked : ∀ notify, r'.phase ≠ .parked notify) :
    StepMove sha256Hex s a (setReader s id r') := by
  refine .of_reader hatt hr rfl rfl .none hatt.fetchers (.of_eq rfl) (handleFrom_of_eq rfl)
    ?_ hrun hcached fun notify h => absurd h (hparked notify)
  · intro ref
    rw [hheld]
    show (s.pool.outstanding.count ref : ℤ) = _
    omega

variable {id : ℕ} {r : Reader} {h : Handle}

/-- A read that is over. -/
theorem StepMove.of_done (hatt : Attached s) (hr : s.readers.lookup id = some r)
    (hheld : r.held = none) (err : Option ReadError) :
    StepMove sha256Hex s a (setReader s id { r with phase := .done err }) := by
  apply StepMove.of_local hatt hr
  · rw [hheld]
    rfl
  · rintro run ⟨⟩
  · rintro ⟨⟩
  · rintro notify ⟨⟩

/-- A read that goes round its loop again. -/
theorem StepMove.of_loop (hatt : Attached s) (hr : s.readers.lookup id = some r)
    (hheld : r.held = none) (hcached : r.phase.cached = true) :
    StepMove sha256Hex s a (setReader s id { r with phase := .copying }) := by
  apply StepMove.of_local hatt hr
  · rw [hheld]
    rfl
  · rintro run ⟨⟩
  · exact fun _ => .kept hr rfl hcached
  · rintro notify ⟨⟩

theorem start_move (hatt : Attached s) (hr : s.readers.lookup id = some r)
    (hh : s.handles.lookup r.handle = some h) {expired : Option FetchError}
    (hstep : stepReader sha256Hex s id r h (.start id expired) = some t) :
    StepMove sha256Hex s (.start id expired) t := by
  simp only [stepReader] at hstep
  split at hstep
  · next hphase =>
    cases hstep
    have hheld : r.held = none := by rw [Reader.held, hphase]
    unfold startRead
    split
    · exact .of_done hatt hr hheld _
    · split
      · exact .of_done hatt hr hheld _
      · split
        · exact .of_done hatt hr hheld _
        · split
          · exact .of_done hatt hr hheld _
          · split
            · exact .of_done hatt hr hheld _
            · split
              -- a small object of a rolling pool is read without the disk cache
              · apply StepMove.of_local hatt hr
                · rw [hheld]
                  rfl
                · rintro run ⟨⟩
                · rintro ⟨⟩
                · rintro notify ⟨⟩
              · next hlarge =>
                apply StepMove.of_local hatt hr
                · rw [hheld]
                  rfl
                · rintro run ⟨⟩
                · intro _
                  refine .large hh fun hp => ?_
                  by_contra hle
                  exact hlarge ⟨hp, by omega⟩
                · rintro notify ⟨⟩
  · cases hstep

theorem begin_move (hatt : Attached s) (hr : s.readers.lookup id = some r)
    (hh : s.handles.lookup r.handle = some h)
    (hstep : stepReader sha256Hex s id r h (.begin id) = some t) :
    StepMove sha256Hex s (.begin id) t := by
  simp only [stepReader] at hstep
  split at hstep
  · next hphase =>
    cases hstep
    have hheld : r.held = none := by rw [Reader.held, hphase]
    unfold beginRead
    split
    all_goals
      refine StepMove.of_reader hatt hr rfl rfl .none hatt.fetchers (.of_insert hh rfl rfl rfl rfl)
        (handleFrom_of_insert hh rfl rfl rfl rfl) ?_ ?_ ?_ ?_
      · intro ref
        rw [hheld]
        simp [setReader, Reader.held]
      · rintro run ⟨⟩
      · exact fun _ => .kept hr rfl (by rw [hphase]; rfl)
      · rintro notify ⟨⟩
  · cases hstep

theorem acquire_fetchers (hatt : Attached s) {key : ChunkKey} {size expected : ℕ}
    {fails : List FilePath} {pool : PoolState} {result : AcquireResult}
    (hacq : acquireChunkLocked s.pool key size expected fails = (pool, result)) :
    ∀ id f, s.fetchers.lookup id = some f → FetcherAttached pool id f := by
  intro id f hf
  have hstep : poolStep s.pool (.acquire key size expected fails) = some pool := by
    simp only [poolStep, hacq]
  exact (hatt.fetchers id f hf).kept hstep (by simp)

/-- The pass through `acquireChunk`. -/
theorem acquire_stepMove (hatt : Attached s) (hr : s.readers.lookup id = some r)
    (hh : s.handles.lookup r.handle = some h) {expired : Option FetchError} {fails : List FilePath}
    (hstep : stepReader sha256Hex s id r h (.acquire id expired fails) = some t) :
    StepMove sha256Hex s (.acquire id expired fails) t := by
  simp only [stepReader] at hstep
  split at hstep
  · next hguard =>
    have hphase := hguard.1
    have hheld : r.held = none := by rw [Reader.held, hphase]
    have hcached : r.phase.cached = true := by rw [hphase]; rfl
    cases expired with
    | some e =>
      cases hstep
      exact .of_done hatt hr hheld _
    | none =>
      simp only at hstep
      rcases hacq : acquireChunkLocked s.pool
        (readerKey sha256Hex s.pool.shared.options.chunkBytes h r) h.size
        (chunkLength s.pool.shared.options.chunkBytes h.size
          (readerKey sha256Hex s.pool.shared.options.chunkBytes h r).index) fails with ⟨pool, result⟩
      have hspec := acquireChunkLocked_spec s.pool
        (readerKey sha256Hex s.pool.shared.options.chunkBytes h r) h.size
        (chunkLength s.pool.shared.options.chunkBytes h.size
          (readerKey sha256Hex s.pool.shared.options.chunkBytes h r).index) fails
      rw [hacq] at hspec hstep
      have hsections : RunsSections sha256Hex s (.acquire id none fails) pool :=
        RunsSections.one (l := .acquire (readerKey sha256Hex s.pool.shared.options.chunkBytes h r)
            h.size (chunkLength s.pool.shared.options.chunkBytes h.size
              (readerKey sha256Hex s.pool.shared.options.chunkBytes h r).index) fails)
          ⟨r.handle, h, hh, rfl, rfl, rfl⟩ (by simp only [poolStep, hacq])
      have hfetchers := acquire_fetchers hatt hacq
      have hout := hspec.outstanding_eq
      cases result with
      | hit entry =>
        cases hstep
        refine .of_reader hatt hr rfl rfl hsections hfetchers (.of_eq rfl) (handleFrom_of_eq rfl)
          ?_ ?_ ?_ ?_
        · intro ref
          show (pool.outstanding.count ref : ℤ) = _
          rw [hout, hheld, List.count_cons]
          simp [Reader.held]
        · rintro run ⟨⟩
        · exact fun _ => .kept hr rfl hcached
        · rintro notify ⟨⟩
      | join call =>
        cases hstep
        refine .of_reader hatt hr rfl rfl hsections hfetchers (.of_eq rfl) (handleFrom_of_eq rfl)
          ?_ ?_ ?_ ?_
        · intro ref
          show (pool.outstanding.count ref : ℤ) = _
          rw [hout, hheld]
          simp [Reader.held]
        · rintro run ⟨⟩
        · exact fun _ => .kept hr rfl hcached
        · rintro notify ⟨⟩
      | wait notify =>
        cases hstep
        refine .of_reader hatt hr rfl rfl hsections hfetchers (.of_eq rfl) (handleFrom_of_eq rfl)
          ?_ ?_ ?_ ?_
        · intro ref
          show (pool.outstanding.count ref : ℤ) = _
          rw [hout, hheld]
          simp [Reader.held]
        · rintro run ⟨⟩
        · exact fun _ => .kept hr rfl hcached
        · rintro notify' hnotify
          obtain rfl : notify = notify' := ReaderPhase.parked.inj hnotify
          exact .parked hh hacq
      | failed =>
        cases hstep
        refine .of_reader hatt hr rfl rfl hsections hfetchers (.of_eq rfl) (handleFrom_of_eq rfl)
          ?_ ?_ ?_ ?_
        · intro ref
          show (pool.outstanding.count ref : ℤ) = _
          rw [hout, hheld]
          simp [Reader.held]
        · rintro run ⟨⟩
        · rintro ⟨⟩
        · rintro notify ⟨⟩
      | started call =>
        cases hstep
        refine .of_reader hatt hr rfl rfl hsections ?_ (.of_eq rfl) (handleFrom_of_eq rfl)
          ?_ ?_ ?_ ?_
        · intro id' f hf
          change (s.fetchers.insert call.ref _).lookup id' = some f at hf
          rw [Table.lookup_insert] at hf
          split at hf
          · next hid =>
            obtain rfl := Option.some.inj hf
            rw [hid]
            exact newFetcher_attached hspec.started_inflight.1 _ _ _ _ _
          · exact hfetchers id' f hf
        · intro ref
          show (pool.outstanding.count ref : ℤ) = _
          rw [hout, hheld]
          simp [Reader.held]
        · rintro run ⟨⟩
        · exact fun _ => .kept hr rfl hcached
        · rintro notify ⟨⟩
  · cases hstep

theorem wake_move (hatt : Attached s) (hr : s.readers.lookup id = some r)
    {expired : Option FetchError}
    (hstep : stepReader sha256Hex s id r h (.wake id expired) = some t) :
    StepMove sha256Hex s (.wake id expired) t := by
  simp only [stepReader] at hstep
  split at hstep
  · next call hphase =>
    have hheld : r.held = none := by rw [Reader.held, hphase]
    have hcached : r.phase.cached = true := by rw [hphase]; rfl
    split at hstep
    · cases hstep
      exact .of_done hatt hr hheld _
    · split at hstep
      · cases hstep
      · cases hstep
        exact .of_loop hatt hr hheld hcached
      · split at hstep
        · cases hstep
          exact .of_loop hatt hr hheld hcached
        · cases hstep
          exact .of_done hatt hr hheld _
  · cases hstep

theorem unpark_move (hatt : Attached s) (hr : s.readers.lookup id = some r)
    {expired : Option FetchError}
    (hstep : stepReader sha256Hex s id r h (.unpark id expired) = some t) :
    StepMove sha256Hex s (.unpark id expired) t := by
  simp only [stepReader] at hstep
  split at hstep
  · next notify hphase =>
    have hheld : r.held = none := by rw [Reader.held, hphase]
    have hcached : r.phase.cached = true := by rw [hphase]; rfl
    split at hstep
    · cases hstep
      exact .of_done hatt hr hheld _
    · split at hstep
      · cases hstep
        exact .of_loop hatt hr hheld hcached
      · cases hstep
  · cases hstep

theorem readFile_move (hatt : Attached s) (hr : s.readers.lookup id = some r) {fault : Option ℕ}
    (hstep : stepReader sha256Hex s id r h (.readFile id fault) = some t) :
    StepMove sha256Hex s (.readFile id fault) t := by
  simp only [stepReader] at hstep
  split at hstep
  · next entry hphase =>
    cases hstep
    apply StepMove.of_local hatt hr
    · simp only [Reader.held, hphase]
    · rintro run ⟨⟩
    · exact fun _ => .kept hr rfl (by rw [hphase]; rfl)
    · rintro notify ⟨⟩
  · cases hstep

theorem release_move (hatt : Attached s) (hr : s.readers.lookup id = some r)
    (hstep : stepReader sha256Hex s id r h (.release id) = some t) :
    StepMove sha256Hex s (.release id) t := by
  simp only [stepReader] at hstep
  split at hstep
  · next entry failed hphase =>
    have hheld : r.held = some entry.ref := by rw [Reader.held, hphase]
    have hmem := hatt.outstanding hr hheld
    have hrelease : poolStep s.pool (.release entry.ref) = some (releaseChunk s.pool entry.ref) := by
      simp only [poolStep, if_pos hmem]
    have hnone : Reader.held { r with
        phase := if failed = true then .done (some (.failed .other)) else .copying } = none := by
      cases failed <;> rfl
    cases hstep
    refine .of_reader hatt hr rfl rfl (.one (l := .release entry.ref) trivial hrelease)
      (fun id' f hf => (hatt.fetchers id' f hf).kept hrelease (by simp)) (.of_eq rfl)
      (handleFrom_of_eq rfl) ?_ ?_ ?_ ?_
    · intro ref
      show ((s.pool.outstanding.erase entry.ref).count ref : ℤ) = _
      rw [hheld, hnone]
      by_cases href : entry.ref = ref
      · have hpos : 0 < s.pool.outstanding.count ref := List.count_pos_iff.2 (href ▸ hmem)
        rw [href, List.count_erase_self]
        simp
        omega
      · rw [List.count_erase_of_ne (Ne.symm href)]
        simp [href]
    · intro run hrun
      cases failed <;> cases hrun
    · exact fun _ => .kept hr rfl (by rw [hphase]; rfl)
    · intro notify hnotify
      cases failed <;> cases hnotify
  · cases hstep

theorem finish_move (hatt : Attached s) (hr : s.readers.lookup id = some r)
    (hh : s.handles.lookup r.handle = some h)
    (hstep : stepReader sha256Hex s id r h (.finish id) = some t) :
    StepMove sha256Hex s (.finish id) t := by
  simp only [stepReader] at hstep
  split at hstep
  · next hguard =>
    have hphase := hguard.1
    have hheld : r.held = none := by rw [Reader.held, hphase]
    split at hstep
    · cases hstep
      exact .of_done hatt hr hheld _
    · cases hstep
      refine .of_reader hatt hr rfl rfl .none hatt.fetchers (.of_insert hh rfl rfl rfl rfl)
        (handleFrom_of_insert hh rfl rfl rfl rfl) ?_ ?_ ?_ ?_
      · intro ref
        rw [hheld]
        simp [setReader, Reader.held]
      · intro run hrun
        obtain rfl := ReaderPhase.scheduling.inj hrun
        exact .read hh rfl rfl rfl
      · exact fun _ => .kept hr rfl (by rw [hphase]; rfl)
      · rintro notify ⟨⟩
  · cases hstep

/-- One round of background scheduling runs at most one section, for the object of the loop, and
starts at most one fetch. -/
theorem scheduleRound_move (hatt : Attached s) {run : BackgroundRun} (hrun : Scheduled s run)
    {done : Bool} {fails : List FilePath} {pool : PoolState} {fetcher : Option Fetcher}
    {rest : Option BackgroundRun}
    (hround : scheduleRound sha256Hex s.pool run done fails = (pool, fetcher, rest)) :
    RunsSections sha256Hex s a pool ∧ pool.outstanding = s.pool.outstanding ∧
      (∀ id f, (addFetcher s.fetchers fetcher).lookup id = some f → FetcherAttached pool id f) ∧
      ∀ run', rest = some run' → RunFrom s a run' := by
  unfold scheduleRound at hround
  simp only at hround
  split at hround
  · simp only [Prod.mk.injEq] at hround
    obtain ⟨rfl, rfl, rfl⟩ := hround
    exact ⟨.none, rfl, hatt.fetchers, fun _ h => absurd h (by simp)⟩
  · set key : ChunkKey := ⟨objectCacheKey sha256Hex run.backing run.validator, run.next⟩
    set expected := chunkLength s.pool.shared.options.chunkBytes run.logicalSize run.next
    have hspec := scheduleChunkLocked_spec s.pool key run.logicalSize expected run.kind run.keep fails
    have hrest : ∀ run', some { run with next := run.next + 1, remaining := run.remaining - 1 } =
        some run' → RunFrom s a run' := by
      intro run' heq
      obtain rfl := Option.some.inj heq
      exact .kept hrun rfl rfl rfl
    have hsection : SectionOf sha256Hex s a
        (.schedule key run.logicalSize expected run.kind run.keep fails) := ⟨run, hrun, rfl, rfl, rfl⟩
    have hpool : poolStep s.pool (.schedule key run.logicalSize expected run.kind run.keep fails) =
        some (scheduleChunkLocked s.pool key run.logicalSize expected run.kind run.keep fails).1 := rfl
    have hkept : ∀ id f, s.fetchers.lookup id = some f → FetcherAttached
        (scheduleChunkLocked s.pool key run.logicalSize expected run.kind run.keep fails).1 id f :=
      fun id f hf => (hatt.fetchers id f hf).kept hpool (by simp)
    split at hround
    · next u hu =>
      rw [hu] at hspec hpool hkept
      simp only [Prod.mk.injEq] at hround
      obtain ⟨rfl, rfl, rfl⟩ := hround
      exact ⟨.one hsection hpool, hspec.outstanding_eq, hkept, hrest⟩
    · next u hu =>
      rw [hu] at hspec hpool hkept
      simp only [Prod.mk.injEq] at hround
      obtain ⟨rfl, rfl, rfl⟩ := hround
      exact ⟨.one hsection hpool, hspec.outstanding_eq, hkept, fun _ h => absurd h (by simp)⟩
    · next u call hu =>
      rw [hu] at hspec hpool hkept
      simp only [Prod.mk.injEq] at hround
      obtain ⟨rfl, rfl, rfl⟩ := hround
      refine ⟨.one hsection hpool, hspec.outstanding_eq, ?_, hrest⟩
      intro id f hf
      change (s.fetchers.insert call.ref _).lookup id = some f at hf
      rw [Table.lookup_insert] at hf
      split at hf
      · next hid =>
        obtain rfl := Option.some.inj hf
        rw [hid]
        exact newFetcher_attached hspec.started_inflight.1 _ _ _ _ _
      · exact hkept id f hf

theorem schedule_move (hatt : Attached s) (hr : s.readers.lookup id = some r) {fails : List FilePath}
    (hstep : stepReader sha256Hex s id r h (.schedule id fails) = some t) :
    StepMove sha256Hex s (.schedule id fails) t := by
  simp only [stepReader] at hstep
  split at hstep
  · next run hphase =>
    have hheld : r.held = none := by rw [Reader.held, hphase]
    rcases hround : scheduleRound sha256Hex s.pool run (contextDone s run.context) fails
      with ⟨pool, fetcher, rest⟩
    rw [hround] at hstep
    obtain ⟨hsections, hout, hfetchers, hrest⟩ :=
      scheduleRound_move (a := .schedule id fails) hatt (Or.inl ⟨id, r, hr, hphase⟩) hround
    have hnone : Reader.held { r with phase := schedulingPhase h r rest } = none := by
      cases rest <;> rfl
    cases hstep
    refine .of_reader hatt hr rfl rfl hsections hfetchers (.of_eq rfl) (handleFrom_of_eq rfl)
      ?_ ?_ ?_ ?_
    · intro ref
      show (pool.outstanding.count ref : ℤ) = _
      rw [hout, hheld, hnone]
      simp
    · intro run' hrun'
      cases rest with
      | none => cases hrun'
      | some run'' =>
        obtain rfl := ReaderPhase.scheduling.inj hrun'
        exact hrest _ rfl
    · exact fun _ => .kept hr rfl (by rw [hphase]; rfl)
    · intro notify hnotify
      cases rest <;> cases hnotify
  · cases hstep

theorem direct_move (hatt : Attached s) (hr : s.readers.lookup id = some r)
    {attempts : List (RangeRead × Bool)}
    (hstep : stepReader sha256Hex s id r h (.direct id attempts) = some t) :
    StepMove sha256Hex s (.direct id attempts) t := by
  simp only [stepReader] at hstep
  split at hstep
  · next hphase =>
    have hheld : r.held = none := by rw [Reader.held, hphase]
    split at hstep
    · split at hstep
      · cases hstep
        exact .of_done hatt hr hheld _
      · cases hstep
    · split at hstep
      · cases hstep
      · next result _ =>
        cases hstep
        have hcount : poolStep s.pool (.countDirect 1 (if result.bytes = [] then 0 else 1)) = some
            { s.pool with shared := { s.pool.shared with
              misses := s.pool.shared.misses + 1
              fetches := s.pool.shared.fetches + if result.bytes = [] then 0 else 1 } } := rfl
        refine .of_reader hatt hr rfl rfl (.one (l := .countDirect 1 (if result.bytes = [] then 0 else 1)) trivial hcount)
          (fun id' f hf => (hatt.fetchers id' f hf).kept hcount (by simp)) (.of_eq rfl)
          (handleFrom_of_eq rfl) ?_ ?_ ?_ ?_
        · intro ref
          rw [hheld]
          simp [setReader, Reader.held]
        · rintro run ⟨⟩
        · rintro ⟨⟩
        · rintro notify ⟨⟩
  · cases hstep

theorem stepReader_move (hatt : Attached s) (hr : s.readers.lookup id = some r)
    (hh : s.handles.lookup r.handle = some h) (hactor : actor a = .reader id)
    (hstep : stepReader sha256Hex s id r h a = some t) : StepMove sha256Hex s a t := by
  cases a <;> simp only [actor, Actor.reader.injEq, reduceCtorEq] at hactor <;> subst hactor
  case start => exact start_move hatt hr hh hstep
  case begin => exact begin_move hatt hr hh hstep
  case acquire => exact acquire_stepMove hatt hr hh hstep
  case wake => exact wake_move hatt hr hstep
  case unpark => exact unpark_move hatt hr hstep
  case readFile => exact readFile_move hatt hr hstep
  case release => exact release_move hatt hr hstep
  case finish => exact finish_move hatt hr hh hstep
  case schedule => exact schedule_move hatt hr hstep
  case direct => exact direct_move hatt hr hstep

/-! ## Steps of a fetch -/

/-- A step that moves no reader, opens no handle and starts no loop of scheduling. -/
theorem StepMove.of_pool (hatt : Attached s) (hreaders : t.readers = s.readers)
    (hprefetchers : ∀ id run, t.prefetchers.lookup id = some (.scheduling run) → RunFrom s a run)
    (hhandles : t.handles = s.handles) (hsections : RunsSections sha256Hex s a t.pool)
    (hout : t.pool.outstanding = s.pool.outstanding)
    (hfetchers : ∀ id f, t.fetchers.lookup id = some f → FetcherAttached t.pool id f) :
    StepMove sha256Hex s a t where
  sections := hsections
  fetchers := hfetchers
  holders_eq := by
    intro ref
    rw [hout, hreaders, hatt.holders_eq]
  handles_kept := .of_eq hhandles
  handles := handleFrom_of_eq hhandles
  runs := by
    rintro run (⟨id, r, hr, hphase⟩ | ⟨id, hp⟩)
    · rw [hreaders] at hr
      exact .kept (Or.inl ⟨id, r, hr, hphase⟩) rfl rfl rfl
    · exact hprefetchers id run hp
  cached := by
    intro id r hr hphase
    rw [hreaders] at hr
    exact .kept hr rfl hphase
  parked := by
    intro id r notify hr _
    rw [hreaders] at hr
    exact .kept hr

/-- The loops of the prefetchers that are there already. -/
theorem runFrom_prefetcher {id : ℕ} {run : BackgroundRun}
    (h : s.prefetchers.lookup id = some (.scheduling run)) : RunFrom s a run :=
  .kept (Or.inr ⟨id, h⟩) rfl rfl rfl

theorem runFrom_of_eq (h : t.prefetchers = s.prefetchers) :
    ∀ id run, t.prefetchers.lookup id = some (.scheduling run) → RunFrom s a run := by
  intro id run hp
  rw [h] at hp
  exact runFrom_prefetcher hp

/-- Two fetches with one key are one fetch. -/
theorem Attached.fetcher_unique (hatt : Attached s) {id id' : ℕ} {f f' : Fetcher}
    (hf : s.fetchers.lookup id = some f) (hf' : s.fetchers.lookup id' = some f')
    (hkey : f.key = f'.key) : id = id' := by
  have hi := (hatt.fetchers id f hf).inflight
  have hi' := (hatt.fetchers id' f' hf').inflight
  rw [hkey, hi', Option.some.injEq] at hi
  rw [← (hatt.fetchers id f hf).ref_eq, ← (hatt.fetchers id' f' hf').ref_eq, hi]

variable {f : Fetcher}

/-- A fetch goes on while sections of the pool that concern only files have run. -/
theorem StepMove.of_fetcher (hatt : Attached s) (hf : s.fetchers.lookup id = some f) {d : Disk}
    (hsections : RunsSections sha256Hex s a { s.pool with disk := d }) {attempt : ℕ}
    {phase : FetchPhase}
    (htemp : ∀ path, phase.temporary = some path → isFetchTemporary path.name = true) :
    StepMove sha256Hex s a (setFetcher { s with pool := { s.pool with disk := d } } id
      { f with attempt := attempt, phase := phase }) := by
  have hattached := hatt.fetchers id f hf
  refine .of_pool hatt rfl (runFrom_of_eq rfl) rfl hsections rfl ?_
  intro id' f' hf'
  change (s.fetchers.insert id _).lookup id' = some f' at hf'
  rw [Table.lookup_insert] at hf'
  split at hf'
  · next hid =>
    obtain rfl := Option.some.inj hf'
    rw [hid]
    exact ⟨hattached.ref_eq, hattached.inflight, htemp⟩
  · have hkept := hatt.fetchers id' f' hf'
    exact ⟨hkept.ref_eq, hkept.inflight, hkept.temporary⟩

/-- A fetch goes on without touching a file. -/
theorem StepMove.of_fetcher_local (hatt : Attached s) (hf : s.fetchers.lookup id = some f)
    {attempt : ℕ} {phase : FetchPhase}
    (htemp : ∀ path, phase.temporary = some path → isFetchTemporary path.name = true) :
    StepMove sha256Hex s a (setFetcher s id { f with attempt := attempt, phase := phase }) :=
  StepMove.of_fetcher (d := s.pool.disk) hatt hf .none htemp

theorem retryFetch_move (hatt : Attached s) (hf : s.fetchers.lookup id = some f) (err : FetchError)
    (expired : Bool) : StepMove sha256Hex s a (setFetcher s id (retryFetch f err expired)) := by
  unfold retryFetch
  split
  · apply StepMove.of_fetcher_local hatt hf
    rintro path ⟨⟩
  · apply StepMove.of_fetcher_local hatt hf
    rintro path ⟨⟩

theorem openFetch_move (hatt : Attached s) (hf : s.fetchers.lookup id = some f)
    (outcome : OpenOutcome) (closeErr : Option FetchError) (expired : Bool) :
    StepMove sha256Hex s a (setFetcher s id (openFetch f outcome closeErr expired)) := by
  unfold openFetch
  split
  · exact retryFetch_move hatt hf _ expired
  · split
    · apply StepMove.of_fetcher_local hatt hf
      rintro path ⟨⟩
    · apply StepMove.of_fetcher_local hatt hf
      rintro path ⟨⟩

theorem closeFetch_move (hatt : Attached s) (hf : s.fetchers.lookup id = some f) (stored : Bool)
    (err closeErr : Option FetchError) (expired : Bool) :
    StepMove sha256Hex s a (setFetcher s id (closeFetch f stored err closeErr expired)) := by
  unfold closeFetch
  split
  · apply StepMove.of_fetcher_local hatt hf
    rintro path ⟨⟩
  · split
    · apply StepMove.of_fetcher_local hatt hf
      rintro path ⟨⟩
    · exact retryFetch_move hatt hf _ expired

/-- A fetch in flight may write and remove its own files. -/
theorem poolStep_write (hatt : Attached s) (hf : s.fetchers.lookup id = some f) {path : FilePath}
    (hown : ownFile f.key path = true) (node : FileNode) (d : Disk) :
    poolStep { s.pool with disk := d } (.writeFile f.key path node) =
      some { s.pool with disk := d.write path node } := by
  have hi : (s.pool.shared.inflight.lookup f.key).isSome = true := by
    rw [(hatt.fetchers id f hf).inflight]
    rfl
  simp only [poolStep, hi, hown, and_self, if_true]

theorem poolStep_remove (hatt : Attached s) (hf : s.fetchers.lookup id = some f) {path : FilePath}
    (hown : ownFile f.key path = true) (d : Disk) :
    poolStep { s.pool with disk := d } (.removeFile f.key path) =
      some { s.pool with disk := d.remove path } := by
  have hi : (s.pool.shared.inflight.lookup f.key).isSome = true := by
    rw [(hatt.fetchers id f hf).inflight]
    rfl
  simp only [poolStep, hi, hown, and_self, if_true]

/-- A failed attempt removes its file, unless the removal fails too. -/
theorem abandon_move (hatt : Attached s) (hf : s.fetchers.lookup id = some f) {path : FilePath}
    (hown : ownFile f.key path = true) (removed : Bool) (err : FetchError) :
    StepMove sha256Hex s a (setFetcher
      { s with pool := { s.pool with disk := tryRemove s.pool.disk path removed } } id
      { f with phase := .closing false (some err) }) := by
  refine .of_fetcher hatt hf ?_ (by rintro path ⟨⟩)
  cases removed with
  | false => exact .none
  | true => exact .one (l := .removeFile f.key path) trivial (poolStep_remove hatt hf hown s.pool.disk)

theorem create_move (hatt : Attached s) (hf : s.fetchers.lookup id = some f) {made : Bool}
    {suffix : Option String} (hstep : stepFetcher s id f (.fetchCreate id made suffix) = some t) :
    StepMove sha256Hex s (.fetchCreate id made suffix) t := by
  simp only [stepFetcher] at hstep
  split at hstep
  · cases suffix with
    | none =>
      cases hstep
      refine .of_fetcher hatt hf ?_ (by rintro path ⟨⟩)
      cases made with
      | false => exact .none
      | true => exact .one (l := .makeDirectory f.key.object) trivial rfl
    | some suffix =>
      have htemp := isFetchTemporary_prefix suffix
      simp only at hstep
      split at hstep
      · cases hstep
      · cases hstep
        refine .of_fetcher hatt hf ?_ ?_
        · cases made with
          | false =>
            exact .one (l := .writeFile f.key ⟨f.key.object, ".fetch-" ++ suffix⟩
              ⟨.regular, [], 0, 0⟩) trivial
              (poolStep_write hatt hf (ownFile_temporary htemp) _ s.pool.disk)
          | true =>
            exact .two (l := .makeDirectory f.key.object)
              (m := .writeFile f.key ⟨f.key.object, ".fetch-" ++ suffix⟩ ⟨.regular, [], 0, 0⟩)
              trivial trivial rfl (poolStep_write hatt hf (ownFile_temporary htemp) _ _)
        · intro path hpath
          obtain rfl := Option.some.inj hpath
          exact htemp
  · cases hstep

theorem fetchRead_move (hatt : Attached s) (hf : s.fetchers.lookup id = some f) {result : RangeRead}
    {removed : Bool} (hstep : stepFetcher s id f (.fetchRead id result removed) = some t) :
    StepMove sha256Hex s (.fetchRead id result removed) t := by
  have htemp := (hatt.fetchers id f hf).temporary
  simp only [stepFetcher] at hstep
  split at hstep
  · next temporary hphase =>
    rw [hphase] at htemp
    split at hstep
    · cases hstep
      exact abandon_move hatt hf (ownFile_temporary (htemp _ rfl)) removed _
    · cases hstep
      exact .of_fetcher_local hatt hf htemp
  · cases hstep

theorem fetchWrite_move (hatt : Attached s) (hf : s.fetchers.lookup id = some f) {ok removed : Bool}
    (hstep : stepFetcher s id f (.fetchWrite id ok removed) = some t) :
    StepMove sha256Hex s (.fetchWrite id ok removed) t := by
  have htemp := (hatt.fetchers id f hf).temporary
  simp only [stepFetcher] at hstep
  split at hstep
  · next temporary buffer hphase =>
    rw [hphase] at htemp
    have hown : ownFile f.key temporary = true := ownFile_temporary (htemp _ rfl)
    split at hstep
    · cases hstep
      refine .of_fetcher hatt hf ?_ htemp
      exact .one (l := .writeFile f.key temporary ⟨.regular, buffer, 0, 0⟩) trivial
        (poolStep_write hatt hf hown _ s.pool.disk)
    · cases hstep
      exact abandon_move hatt hf hown removed _
  · cases hstep

theorem fetchRename_move (hatt : Attached s) (hf : s.fetchers.lookup id = some f)
    {ok removed : Bool} {modified : ℤ}
    (hstep : stepFetcher s id f (.fetchRename id ok removed modified) = some t) :
    StepMove sha256Hex s (.fetchRename id ok removed modified) t := by
  have htemp := (hatt.fetchers id f hf).temporary
  simp only [stepFetcher] at hstep
  split at hstep
  · next temporary buffer hphase =>
    rw [hphase] at htemp
    have hown : ownFile f.key temporary = true := ownFile_temporary (htemp _ rfl)
    split at hstep
    · cases hstep
      refine .of_fetcher hatt hf ?_ (by rintro path ⟨⟩)
      -- a rename takes the temporary file away and writes the chunk file
      exact .two (l := .removeFile f.key temporary) (m := .writeFile f.key (chunkPath f.key)
          ⟨.regular, buffer, modified, s.pool.shared.options.chunkBytes⟩) trivial trivial
        (poolStep_remove hatt hf hown s.pool.disk)
        (poolStep_write hatt hf (by simp [ownFile]) _ _)
    · cases hstep
      exact abandon_move hatt hf hown removed _
  · cases hstep

theorem fetchSeal_move (hatt : Attached s) (hf : s.fetchers.lookup id = some f) {ok removed : Bool}
    (hstep : stepFetcher s id f (.fetchSeal id ok removed) = some t) :
    StepMove sha256Hex s (.fetchSeal id ok removed) t := by
  simp only [stepFetcher] at hstep
  split at hstep
  · split at hstep
    · cases hstep
      exact .of_fetcher_local hatt hf (by rintro path ⟨⟩)
    · cases hstep
      exact abandon_move hatt hf (by simp [ownFile]) removed _
  · cases hstep

theorem fetchComplete_move (hatt : Attached s) (hf : s.fetchers.lookup id = some f)
    (hstep : stepFetcher s id f (.fetchComplete id) = some t) :
    StepMove sha256Hex s (.fetchComplete id) t := by
  have hi := (hatt.fetchers id f hf).inflight
  simp only [stepFetcher] at hstep
  split at hstep
  · next stored err _ =>
    have hcomplete : poolStep s.pool (.complete f.key stored err) =
        some (completeFetch s.pool f.key f.call stored err) := by
      simp only [poolStep, hi]
    cases hstep
    refine .of_pool hatt rfl (runFrom_of_eq rfl) rfl
      (.one (l := .complete f.key stored err) trivial hcomplete)
      (completeFetch_outstanding _ _ _ _ _) ?_
    intro id' f' hf'
    change (s.fetchers.erase id).lookup id' = some f' at hf'
    rw [Table.lookup_erase] at hf'
    split at hf'
    · cases hf'
    · next hid =>
      refine (hatt.fetchers id' f' hf').kept hcomplete ?_
      rintro stored' err' heq
      obtain ⟨hkey, -, -⟩ := PoolLabel.complete.inj heq
      exact hid (hatt.fetcher_unique hf' hf hkey.symm)
  · cases hstep

theorem stepFetcher_move (hatt : Attached s) (hf : s.fetchers.lookup id = some f)
    (hactor : actor a = .fetcher id) (hstep : stepFetcher s id f a = some t) :
    StepMove sha256Hex s a t := by
  cases a <;> simp only [actor, Actor.fetcher.injEq, reduceCtorEq] at hactor <;> subst hactor
  case fetchOpen outcome closeErr expired =>
    simp only [stepFetcher] at hstep
    split at hstep
    · cases hstep
      exact openFetch_move hatt hf outcome closeErr expired
    · cases hstep
  case fetchCreate => exact create_move hatt hf hstep
  case fetchRead => exact fetchRead_move hatt hf hstep
  case fetchWrite => exact fetchWrite_move hatt hf hstep
  case fetchRename => exact fetchRename_move hatt hf hstep
  case fetchSeal => exact fetchSeal_move hatt hf hstep
  case fetchClose closeErr expired =>
    simp only [stepFetcher] at hstep
    split at hstep
    · cases hstep
      exact closeFetch_move hatt hf _ _ closeErr expired
    · cases hstep
  case fetchComplete => exact fetchComplete_move hatt hf hstep

/-! ## Steps of a prefetch -/

/-- Replacing or removing a prefetcher leaves the others' loops alone. -/
theorem runFrom_of_insert {p : Prefetch} (hp : ∀ run, p = .scheduling run → RunFrom s a run) :
    ∀ id' run, (s.prefetchers.insert id p).lookup id' = some (.scheduling run) →
      RunFrom s a run := by
  intro id' run h
  rw [Table.lookup_insert] at h
  split at h
  · exact hp run (Option.some.inj h)
  · exact runFrom_prefetcher h

theorem runFrom_of_erase :
    ∀ id' run, (s.prefetchers.erase id).lookup id' = some (.scheduling run) → RunFrom s a run := by
  intro id' run h
  rw [Table.lookup_erase] at h
  split at h
  · cases h
  · exact runFrom_prefetcher h

theorem stepPrefetch_move (hatt : Attached s) {p : Prefetch} (hp : s.prefetchers.lookup id = some p)
    (hactor : actor a = .prefetcher id) (hstep : stepPrefetch sha256Hex s id p a = some t) :
    StepMove sha256Hex s a t := by
  cases a <;> simp only [actor, Actor.prefetcher.injEq, reduceCtorEq] at hactor
  case prefetchOpen id' outcome closeFails =>
    obtain rfl : id' = id := hactor
    simp only [stepPrefetch] at hstep
    cases p with
    | scheduling run => cases hstep
    | opening backing size =>
      have hrecord : poolStep s.pool (.record .nextEpisode) =
          some (recordBackgroundErrorLocked s.pool .nextEpisode) := rfl
      have hfailed : ∀ a, StepMove sha256Hex s a { s with
          pool := recordBackgroundErrorLocked s.pool .nextEpisode
          prefetchers := s.prefetchers.erase id' } := fun a =>
        .of_pool hatt rfl runFrom_of_erase rfl
          (.one (l := .record .nextEpisode) trivial hrecord) rfl
          fun id' f hf => (hatt.fetchers id' f hf).kept hrecord (by simp)
      simp only at hstep
      split at hstep
      · cases hstep
        exact hfailed _
      · next providerSize validator =>
        split at hstep
        · cases hstep
          exact hfailed _
        · next hsize =>
          cases hstep
          simp only [not_or, ne_eq, not_not] at hsize
          refine .of_pool hatt rfl (runFrom_of_insert ?_) rfl .none rfl hatt.fetchers
          intro run hrun
          obtain rfl := Prefetch.scheduling.inj hrun
          exact .prefetched (by rw [hsize.1]) hp
  case prefetchSchedule id' fails =>
    obtain rfl : id' = id := hactor
    simp only [stepPrefetch] at hstep
    cases p with
    | opening backing size => cases hstep
    | scheduling run =>
      rcases hround : scheduleRound sha256Hex s.pool run (contextDone s run.context) fails
        with ⟨pool, fetcher, rest⟩
      simp only [hround] at hstep
      obtain ⟨hsections, hout, hfetchers, hrest⟩ :=
        scheduleRound_move (a := .prefetchSchedule id' fails) hatt (Or.inr ⟨_, hp⟩) hround
      cases hstep
      refine .of_pool hatt rfl ?_ rfl hsections hout hfetchers
      cases rest with
      | none => exact runFrom_of_erase
      | some run' =>
        apply runFrom_of_insert
        intro run'' hrun
        obtain rfl := Prefetch.scheduling.inj hrun
        exact hrest _ rfl

/-! ## Steps from outside -/

theorem stepOpen_move (hatt : Attached s) {backing : BackingRef} {size : ℕ} {outcome : OpenOutcome}
    {fails : List FilePath} (hstep : stepOpen sha256Hex s id backing size outcome fails = some t) :
    StepMove sha256Hex s (.openHandle id backing size outcome fails) t := by
  have hidle : ∀ a, StepMove sha256Hex s a s := fun a =>
    .of_pool hatt rfl (runFrom_of_eq rfl) rfl .none rfl hatt.fetchers
  unfold stepOpen at hstep
  split at hstep
  · cases hstep
  · next hfresh =>
    rw [Option.not_isSome_iff_eq_none] at hfresh
    split at hstep
    · cases hstep
      exact hidle _
    · next providerSize validator =>
      split at hstep
      · cases hstep
        exact hidle _
      · next hsize =>
        simp only [ne_eq, not_not] at hsize
        subst hsize
        set object := objectCacheKey sha256Hex backing validator with hobject
        have hopened : poolStep s.pool (.openObject object providerSize fails) =
            some (openObject s.pool object providerSize fails).1 := rfl
        have hsections : RunsSections sha256Hex s
            (.openHandle id backing providerSize (.source providerSize validator) fails)
            (openObject s.pool object providerSize fails).1 :=
          .one (l := .openObject object providerSize fails)
            ⟨id, backing, validator, fails, rfl, rfl⟩ hopened
        have hout := poolStep_outstanding hopened trivial
        have hfetchers : ∀ id' f, s.fetchers.lookup id' = some f →
            FetcherAttached (openObject s.pool object providerSize fails).1 id' f :=
          fun id' f hf => (hatt.fetchers id' f hf).kept hopened (by simp)
        split at hstep
        · next pool hopen =>
          rw [hopen] at hsections hout hfetchers
          cases hstep
          refine {
            sections := hsections
            fetchers := hfetchers
            holders_eq := fun ref => ?_
            handles_kept := fun id' h hh => ?_
            handles := fun id' h hh => ?_
            runs := fun run hrun => .kept hrun rfl rfl rfl
            cached := fun id' r hr hphase => .kept hr rfl hphase
            parked := fun id' r notify hr _ => .kept hr }
          · show (pool.outstanding.count ref : ℤ) = holders s.readers ref
            rw [hout, hatt.holders_eq]
          · have hne : id' ≠ id := by
              rintro rfl
              exact absurd (hfresh.symm.trans hh) (by simp)
            refine ⟨h, ?_, rfl, rfl, rfl⟩
            show (s.handles.insert id _).lookup id' = some h
            rw [Table.lookup_insert, if_neg hne, hh]
          · change (s.handles.insert id _).lookup id' = some h at hh
            rw [Table.lookup_insert] at hh
            split at hh
            · next hid =>
              obtain rfl := Option.some.inj hh
              subst hid
              exact .opened rfl hopen
            · exact .kept hh rfl rfl rfl
        · next pool outcome' hne hopen =>
          rw [hopen] at hsections hout hfetchers
          cases hstep
          exact .of_pool hatt rfl (runFrom_of_eq rfl) rfl hsections hout hfetchers

/-- Changing a handle without changing its object. -/
theorem StepMove.of_handle (hatt : Attached s) {h h' : Handle}
    (hh : s.handles.lookup id = some h) (hhandles : t.handles = s.handles.insert id h')
    (hb : h'.backing = h.backing) (hs : h'.size = h.size) (hv : h'.validator = h.validator)
    (hpool : t.pool = s.pool) (hfetchers : t.fetchers = s.fetchers)
    (hreaders : t.readers = s.readers) (hprefetchers : t.prefetchers = s.prefetchers) :
    StepMove sha256Hex s a t where
  sections := by
    rw [hpool]
    exact .none
  fetchers := by
    rw [hpool, hfetchers]
    exact hatt.fetchers
  holders_eq := by
    rw [hpool, hreaders]
    exact hatt.holders_eq
  handles_kept := .of_insert hh hhandles hb hs hv
  handles := handleFrom_of_insert hh hhandles hb hs hv
  runs := by
    rintro run (⟨id, r, hr, hphase⟩ | ⟨id, hp⟩)
    · rw [hreaders] at hr
      exact .kept (Or.inl ⟨id, r, hr, hphase⟩) rfl rfl rfl
    · rw [hprefetchers] at hp
      exact runFrom_prefetcher hp
  cached := by
    intro id r hr hphase
    rw [hreaders] at hr
    exact .kept hr rfl hphase
  parked := by
    intro id r notify hr _
    rw [hreaders] at hr
    exact .kept hr

/-- A read that has just been called. -/
theorem StepMove.of_fresh (hatt : Attached s) (hfresh : s.readers.lookup id = none)
    (hphase : r.phase = .starting) : StepMove sha256Hex s a (setReader s id r) := by
  have hcases : ∀ {id' : ℕ} {r' : Reader}, (s.readers.insert id r).lookup id' = some r' →
      s.readers.lookup id' = some r' ∨ r'.phase = .starting := by
    intro id' r' hr'
    rw [Table.lookup_insert] at hr'
    split at hr'
    · obtain rfl := Option.some.inj hr'
      exact Or.inr hphase
    · exact Or.inl hr'
  have hheld : r.held = none := by rw [Reader.held, hphase]
  constructor
  case sections => exact .none
  case fetchers => exact hatt.fetchers
  case holders_eq =>
    intro ref
    show (s.pool.outstanding.count ref : ℤ) = holders (s.readers.insert id r) ref
    rw [holders_insert_fresh hfresh hheld, hatt.holders_eq]
  case handles_kept => exact .of_eq rfl
  case handles => exact handleFrom_of_eq rfl
  case runs =>
    rintro run (⟨id', r', hr', hrun⟩ | ⟨id', hp⟩)
    · rcases hcases hr' with hr' | hstart
      · exact .kept (Or.inl ⟨id', r', hr', hrun⟩) rfl rfl rfl
      · rw [hstart] at hrun
        cases hrun
    · exact runFrom_prefetcher hp
  case cached =>
    intro id' r' hr' hcached
    rcases hcases hr' with hr' | hstart
    · exact .kept hr' rfl hcached
    · rw [hstart] at hcached
      cases hcached
  case parked =>
    intro id' r' notify hr' hparked
    rcases hcases hr' with hr' | hstart
    · exact .kept hr'
    · rw [hstart] at hparked
      cases hparked

theorem stepOutside_move (hatt : Attached s) (hactor : actor a = .outside)
    (hstep : stepOutside sha256Hex s a = some t) : StepMove sha256Hex s a t := by
  cases a <;> simp only [actor, reduceCtorEq] at hactor
  case openHandle => exact stepOpen_move hatt hstep
  case markClosed id =>
    simp only [stepOutside] at hstep
    split at hstep
    · cases hstep
    · next h hh =>
      split at hstep
      · cases hstep
      · cases hstep
        exact .of_handle hatt hh rfl rfl rfl rfl rfl rfl rfl rfl
  case stopReadAhead id =>
    simp only [stepOutside] at hstep
    split at hstep
    · cases hstep
    · next h hh =>
      split at hstep
      · cases hstep
        exact .of_handle hatt hh rfl rfl rfl rfl rfl rfl rfl rfl
      · cases hstep
  case read id handle offset length =>
    simp only [stepOutside] at hstep
    split at hstep
    · cases hstep
    · next hguard =>
      simp only [not_or, Option.not_isSome_iff_eq_none] at hguard
      cases hstep
      exact .of_fresh hatt hguard.1 rfl
  case prefetch id backing size =>
    simp only [stepOutside] at hstep
    split at hstep
    · cases hstep
    · cases hstep
      refine .of_pool hatt rfl (runFrom_of_insert ?_) rfl .none rfl hatt.fetchers
      rintro run ⟨⟩
  case shutdown =>
    cases hstep
    exact .of_pool hatt rfl (runFrom_of_eq rfl) rfl .none rfl hatt.fetchers
  case restart => cases hstep

/-- **The inversion of a step** other than a restart. -/
theorem cacheStep_move (hatt : Attached s) (hrestart : ∀ options fails, a ≠ .restart options fails)
    (hstep : cacheStep sha256Hex s a = some t) : StepMove sha256Hex s a t := by
  unfold cacheStep at hstep
  split at hstep
  · next options fails => exact absurd rfl (hrestart options fails)
  · split at hstep
    · cases hstep
    · cases hactor : actor a with
      | outside =>
        simp only [hactor] at hstep
        exact stepOutside_move hatt hactor hstep
      | reader id =>
        simp only [hactor] at hstep
        obtain ⟨r, hr, hrest⟩ := Option.bind_eq_some_iff.1 hstep
        obtain ⟨h, hh, hrest⟩ := Option.bind_eq_some_iff.1 hrest
        exact stepReader_move hatt hr hh hactor hrest
      | fetcher id =>
        simp only [hactor] at hstep
        obtain ⟨f, hf, hrest⟩ := Option.bind_eq_some_iff.1 hstep
        exact stepFetcher_move hatt hf hactor hrest
      | prefetcher id =>
        simp only [hactor] at hstep
        obtain ⟨p, hp, hrest⟩ := Option.bind_eq_some_iff.1 hstep
        exact stepPrefetch_move hatt hp hactor hrest

/-- The sections of a step keep what every section keeps. -/
theorem RunsSections.invariant {I : PoolState → Prop} {pool : PoolState}
    (h : RunsSections sha256Hex s a pool)
    (hI : ∀ p l q, I p → SectionOf sha256Hex s a l → poolStep p l = some q → I q) (hs : I s.pool) :
    I pool := by
  obtain ⟨ls, hls, hrun⟩ := h
  exact System.run_invariant hI hls hrun hs

theorem StepMove.attached (h : StepMove sha256Hex s a t) (hatt : Attached s) : Attached t where
  books := h.sections.invariant (fun _ _ _ hb _ hstep => poolStep_books hb hstep) hatt.books
  fetchers := h.fetchers
  holders_eq := h.holders_eq

theorem StepMove.options (h : StepMove sha256Hex s a t) :
    t.pool.shared.options = s.pool.shared.options :=
  h.sections.invariant (I := fun p => p.shared.options = s.pool.shared.options)
    (fun _ _ _ ho _ hstep => (poolStep_options hstep).trans ho) rfl

end Steps

/-! ## Runs of one pool -/

/-- The process over the lifetime of one pool. -/
def poolLifetime (sha256Hex : String → String) (options : RangeOptions) :
    System CacheState CacheLabel where
  init s := ∃ d fails pool, (recoverChunks options d fails).2 = .ok pool ∧ s = freshCache true pool
  step s a :=
    match a with
    | .restart _ _ => none
    | _ => cacheStep sha256Hex s a

section Runs

variable {sha256Hex : String → String} {options : RangeOptions} {P : CacheState → CacheLabel → Prop}
  {s t : CacheState} {a : CacheLabel}

theorem poolLifetime_step (h : (poolLifetime sha256Hex options).step s a = some t) :
    (∀ options fails, a ≠ .restart options fails) ∧ cacheStep sha256Hex s a = some t := by
  cases a with
  | restart options fails => cases h
  | _ => exact ⟨fun _ _ => by simp, h⟩

theorem poolLifetime_init (h : (poolLifetime sha256Hex options).init s) :
    ∃ pool, (poolSystem options).init pool ∧ s = freshCache true pool := by
  obtain ⟨d, fails, pool, hrec, rfl⟩ := h
  exact ⟨pool, ⟨d, fails, hrec⟩, rfl⟩

theorem freshCache_attached {pool : PoolState} (h : (poolSystem options).init pool) :
    Attached (freshCache true pool) := by
  obtain ⟨d, hrec⟩ := recovered_spec h
  refine ⟨hrec.books, fun id f hf => absurd hf (by simp [freshCache]), fun ref => ?_⟩
  show (pool.outstanding.count ref : ℤ) = _
  rw [hrec.outstanding_eq]
  rfl

theorem reachable_attached (h : (poolLifetime sha256Hex options).ReachableBy P s) : Attached s := by
  apply h.invariant
  · intro s hs
    obtain ⟨pool, hpool, rfl⟩ := poolLifetime_init hs
    exact freshCache_attached hpool
  · intro s a t hatt _ hstep
    obtain ⟨hrestart, hstep⟩ := poolLifetime_step hstep
    exact (cacheStep_move hatt hrestart hstep).attached hatt

/-- A step of the process, inverted. -/
theorem reachable_move (h : (poolLifetime sha256Hex options).ReachableBy P s)
    (hstep : (poolLifetime sha256Hex options).step s a = some t) : StepMove sha256Hex s a t := by
  obtain ⟨hrestart, hstep⟩ := poolLifetime_step hstep
  exact cacheStep_move (reachable_attached h) hrestart hstep

/-- The pool of a reachable process is a reachable pool. -/
theorem reachable_pool (h : (poolLifetime sha256Hex options).ReachableBy P s) :
    (poolSystem options).Reachable s.pool := by
  induction h with
  | init hs =>
    obtain ⟨pool, hpool, rfl⟩ := poolLifetime_init hs
    exact .init hpool
  | step hs _ hstep ih =>
    have hmove := reachable_move hs hstep
    exact hmove.sections.invariant (fun _ _ _ hp _ hl => .step hp trivial hl) ih

end Runs

end BlackPearl.Cache
