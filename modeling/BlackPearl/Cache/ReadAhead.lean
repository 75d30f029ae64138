import BlackPearl.Cache.Sections

/-!
# The lifetime of read-ahead contexts

The contexts that `beginRead` creates for a handle, and the fetches that `finishRead` lets a `ReadAt`
start under them. `readAheadStep` is the process with two more things: a record of the contexts and
of the fetches, and the check of the context in `scheduleBackgroundChunks` as an action of its own,
before the section of the pool.

`Close` cancels the context that it finds. A `ReadAt` that has passed its own check of `closed` may
still run `beginRead` after that, and the context it creates is never cancelled.
-/

set_option autoImplicit false

namespace BlackPearl.Cache

open BlackPearl.Library BlackPearl.Domain

/-! ## The process and its record -/

/-- A fetch started by a `ReadAt`: the handle, whether a later read had taken over the generation,
and whether the context of the fetch had been cancelled. -/
structure StartedFetch where
  handle : ℕ
  superseded : Bool
  cancelled : Bool
  deriving DecidableEq, Repr

/-- The process, the reads that have found their context alive and not yet run the section of the
pool, the contexts that each handle has created, and the fetches started for reads. -/
structure ReadAheadState where
  cache : CacheState
  checked : List ℕ
  created : List (ℕ × ℕ)
  started : List StartedFetch

inductive ReadAheadLabel
  | cache (a : CacheLabel)
  | checkContext (id : ℕ)
  | startChunk (id : ℕ) (fails : List FilePath)

section Steps

variable (sha256Hex : String → String)

/-- The context that a `beginRead` has created, if it has. -/
def newContext (s t : CacheState) (handle : ℕ) : List (ℕ × ℕ) :=
  if t.nextContext = s.nextContext then [] else [(handle, s.nextContext)]

/-- The head of the loop of `scheduleBackgroundChunks`: it returns at the end of the loop, for a
cancelled context and behind the end of the object. -/
def stepCheckContext (s : ReadAheadState) (id : ℕ) (r : Reader) (h : Handle) :
    Option ReadAheadState :=
  match r.phase with
  | .scheduling run =>
      if s.checked.contains id then none
      else if run.remaining = 0 ∨ contextDone s.cache run.context ∨
          chunkLength s.cache.pool.shared.options.chunkBytes run.logicalSize run.next = 0 then
        some { s with cache := setReader s.cache id { r with phase := .done (readResult h r) } }
      else some { s with checked := id :: s.checked }
  | _ => none

/-- The section of the pool in that loop. -/
def stepStartChunk (s : ReadAheadState) (id : ℕ) (r : Reader) (h : Handle) (fails : List FilePath) :
    Option ReadAheadState :=
  match r.phase with
  | .scheduling run =>
      if s.checked.contains id then
        let (pool, fetcher, rest) := scheduleRound sha256Hex s.cache.pool run false fails
        some { s with
          cache := setReader { s.cache with
            pool := pool, fetchers := addFetcher s.cache.fetchers fetcher } id
            { r with phase := schedulingPhase h r rest }
          checked := s.checked.filter (· != id)
          started := s.started ++ if fetcher.isSome then
            [⟨r.handle, r.generation ≠ h.readAheadGeneration, contextDone s.cache run.context⟩]
            else [] }
      else none
  | _ => none

/-- One action within the lifetime of a pool. -/
def readAheadStep (s : ReadAheadState) : ReadAheadLabel → Option ReadAheadState
  | .cache (.restart _ _) | .cache (.schedule _ _) => none
  | .cache (.begin id) => do
      let r ← s.cache.readers.lookup id
      let cache ← cacheStep sha256Hex s.cache (.begin id)
      some { s with cache := cache, created := s.created ++ newContext s.cache cache r.handle }
  | .cache a => do
      let cache ← cacheStep sha256Hex s.cache a
      some { s with cache := cache }
  | .checkContext id => do
      let r ← s.cache.readers.lookup id
      let h ← s.cache.handles.lookup r.handle
      stepCheckContext s id r h
  | .startChunk id fails => do
      let r ← s.cache.readers.lookup id
      let h ← s.cache.handles.lookup r.handle
      stepStartChunk sha256Hex s id r h fails

/-- A process that has just created its pool, and its runs. -/
def readAheadSystem : System ReadAheadState ReadAheadLabel where
  init s := ∃ pool, s = ⟨freshCache true pool, [], [], []⟩
  step := readAheadStep sha256Hex

end Steps

/-! ## The promise -/

/-- `Close` has cancelled the read-ahead, and every `ReadAt` of the handle has returned. -/
structure HandleOver (s : CacheState) (id : ℕ) : Prop where
  closed : ∃ h, s.handles.lookup id = some h ∧ h.closed = true ∧ h.readAheadStopped = true
  returned : ∀ rid r, s.readers.lookup rid = some r → r.handle = id → ∃ err, r.phase = .done err

/-- The fetches started for reads of a handle. -/
def startedFor (s : ReadAheadState) (id : ℕ) : List StartedFetch :=
  s.started.filter fun f => f.handle == id

/-- Once a handle is over, every context that it created is cancelled and no further fetch is started
for it; and a read whose generation is superseded starts no fetch under a live context. -/
structure ReadAheadEnds (sha256Hex : String → String) (s : ReadAheadState) : Prop where
  cancelled : ∀ id, HandleOver s.cache id → ∀ c, (id, c) ∈ s.created →
    contextDone s.cache (some c) = true
  quiet : ∀ id, HandleOver s.cache id → ∀ t, (readAheadSystem sha256Hex).Reaches s t →
    startedFor t id = startedFor s id
  superseded : ∀ f ∈ s.started, f.superseded = true → f.cancelled = true

/-- A `beginRead` on a handle whose read-ahead `Close` has cancelled, while the pool is alive. -/
def lateBegin (s : ReadAheadState) : ReadAheadLabel → Bool
  | .cache (.begin id) =>
      match s.cache.readers.lookup id with
      | none => false
      | some r =>
          match s.cache.handles.lookup r.handle with
          | none => false
          | some h => h.readAheadStopped && !s.cache.lifecycleDone
  | _ => false

/-! ## What a step does to reads and handles -/

/-- A read between `beginRead` and its return. -/
def ReaderPhase.begun : ReaderPhase → Bool
  | .starting | .beginning | .direct | .done _ => false
  | _ => true

/-- A read before its first check, or after its return. -/
def ReaderPhase.idle : ReaderPhase → Bool
  | .starting | .done _ => true
  | _ => false

/-- An action of a read other than `beginRead`. -/
structure ReaderMoves (h : Handle) (r r' : Reader) : Prop where
  handle_eq : r'.handle = r.handle
  context_eq : r'.context = r.context
  generation_eq : r'.generation = r.generation
  begun : r'.phase.begun = true → r.phase.begun = true
  run : ∀ run, r'.phase = .scheduling run → run.context = some r'.context
  idle : h.closed = true → r.phase.idle = true → r'.phase.idle = true

/-- What other handles and reads see of a handle. -/
structure SameReadAhead (h h' : Handle) : Prop where
  closed : h.closed = true → h'.closed = true
  stopped_eq : h'.readAheadStopped = h.readAheadStopped
  context_eq : h'.readAheadContext = h.readAheadContext
  generation_eq : h'.readAheadGeneration = h.readAheadGeneration

theorem SameReadAhead.refl (h : Handle) : SameReadAhead h h := ⟨id, rfl, rfl, rfl⟩

/-- A step that neither creates nor cancels a read-ahead context of an open handle. -/
structure ReadAheadFrame (s t : CacheState) : Prop where
  cancelled_eq : t.cancelled = s.cancelled
  lifecycle : s.lifecycleDone = true → t.lifecycleDone = true
  kept : ∀ id h, s.handles.lookup id = some h →
    ∃ h', t.handles.lookup id = some h' ∧ SameReadAhead h h'
  handles : ∀ id h', t.handles.lookup id = some h' →
    (∃ h, s.handles.lookup id = some h ∧ SameReadAhead h h') ∨
      s.handles.lookup id = none ∧ h'.readAheadStopped = false
  readers : ∀ id r', t.readers.lookup id = some r' →
    s.readers.lookup id = some r' ∨
    (r'.phase = .starting ∧ ∃ h, s.handles.lookup r'.handle = some h) ∨
    ∃ r h, s.readers.lookup id = some r ∧ s.handles.lookup r.handle = some h ∧ ReaderMoves h r r'

section Frames

variable {s t : CacheState} {id : ℕ} {r r' : Reader} {h h' : Handle}

theorem frame_handles_of_eq (hhandles : t.handles = s.handles) :
    ∀ id h', t.handles.lookup id = some h' →
      (∃ h, s.handles.lookup id = some h ∧ SameReadAhead h h') ∨
        s.handles.lookup id = none ∧ h'.readAheadStopped = false := by
  intro id h' hh'
  rw [hhandles] at hh'
  exact Or.inl ⟨h', hh', .refl h'⟩

/-- A step that touches neither handles nor reads. -/
theorem ReadAheadFrame.of_eq (hcancelled : t.cancelled = s.cancelled)
    (hlifecycle : s.lifecycleDone = true → t.lifecycleDone = true)
    (hhandles : t.handles = s.handles) (hreaders : t.readers = s.readers) : ReadAheadFrame s t where
  cancelled_eq := hcancelled
  lifecycle := hlifecycle
  kept id h hh := ⟨h, by rw [hhandles, hh], .refl h⟩
  handles := frame_handles_of_eq hhandles
  readers id r' hr' := Or.inl (by rw [← hreaders, hr'])

/-- A step of one handle and, if any, of one read. -/
theorem ReadAheadFrame.of_handle (hh : s.handles.lookup id = some h) (hsame : SameReadAhead h h')
    (hcancelled : t.cancelled = s.cancelled) (hlifecycle : t.lifecycleDone = s.lifecycleDone)
    (hhandles : t.handles = s.handles.insert id h')
    (hreaders : ∀ rid r', t.readers.lookup rid = some r' → s.readers.lookup rid = some r' ∨
      (r'.phase = .starting ∧ ∃ h, s.handles.lookup r'.handle = some h) ∨
      ∃ r h, s.readers.lookup rid = some r ∧ s.handles.lookup r.handle = some h ∧
        ReaderMoves h r r') : ReadAheadFrame s t where
  cancelled_eq := hcancelled
  lifecycle := by rw [hlifecycle]; exact fun h => h
  kept id' h₀ hh₀ := by
    rw [hhandles, Table.lookup_insert]
    split
    · next heq =>
      subst heq
      rw [hh, Option.some.injEq] at hh₀
      exact ⟨h', rfl, hh₀ ▸ hsame⟩
    · exact ⟨h₀, hh₀, .refl h₀⟩
  handles id' h₀ hh₀ := by
    rw [hhandles, Table.lookup_insert] at hh₀
    split at hh₀
    · next heq =>
      rw [heq, ← Option.some.inj hh₀]
      exact Or.inl ⟨h, hh, hsame⟩
    · exact Or.inl ⟨h₀, hh₀, .refl h₀⟩
  readers := hreaders

theorem readers_of_insert (hr : s.readers.lookup id = some r)
    (hh : s.handles.lookup r.handle = some h) (hmoves : ReaderMoves h r r')
    (hreaders : t.readers = s.readers.insert id r') :
    ∀ rid r', t.readers.lookup rid = some r' → s.readers.lookup rid = some r' ∨
      (r'.phase = .starting ∧ ∃ h, s.handles.lookup r'.handle = some h) ∨
      ∃ r h, s.readers.lookup rid = some r ∧ s.handles.lookup r.handle = some h ∧
        ReaderMoves h r r' := by
  intro rid r₀ hr₀
  rw [hreaders, Table.lookup_insert] at hr₀
  split at hr₀
  · next heq =>
    rw [heq, ← Option.some.inj hr₀]
    exact Or.inr (Or.inr ⟨r, h, hr, hh, hmoves⟩)
  · exact Or.inl hr₀

/-- A step of one read. -/
theorem ReadAheadFrame.of_reader (hr : s.readers.lookup id = some r)
    (hh : s.handles.lookup r.handle = some h) (hmoves : ReaderMoves h r r')
    (hcancelled : t.cancelled = s.cancelled) (hlifecycle : t.lifecycleDone = s.lifecycleDone)
    (hhandles : t.handles = s.handles) (hreaders : t.readers = s.readers.insert id r') :
    ReadAheadFrame s t where
  cancelled_eq := hcancelled
  lifecycle := by rw [hlifecycle]; exact fun h => h
  kept id h hh := ⟨h, by rw [hhandles, hh], .refl h⟩
  handles := frame_handles_of_eq hhandles
  readers := readers_of_insert hr hh hmoves hreaders

theorem ReaderPhase.not_idle_of_begun {phase : ReaderPhase} (h : phase.begun = true) :
    phase.idle = false := by
  cases phase <;> first | rfl | cases h

/-- A read under way that goes on without scheduling. -/
theorem ReaderMoves.to_phase (phase : ReaderPhase) (buffer : List UInt8)
    (hbegun : r.phase.begun = true) (hrun : ∀ run, phase ≠ .scheduling run) :
    ReaderMoves h r { r with phase := phase, buffer := buffer } where
  handle_eq := rfl
  context_eq := rfl
  generation_eq := rfl
  begun _ := hbegun
  run run hphase := absurd hphase (hrun run)
  idle _ hidle := by
    rw [ReaderPhase.not_idle_of_begun hbegun] at hidle
    cases hidle

/-! ## Steps of a read -/

variable {sha256Hex : String → String}

theorem start_frame (hr : s.readers.lookup id = some r) (hh : s.handles.lookup r.handle = some h)
    {expired : Option FetchError} (hstep : stepReader sha256Hex s id r h (.start id expired) = some t) :
    ReadAheadFrame s t := by
  have hmoves : ReaderMoves h r
      { r with phase := startRead s.pool.shared.options h r expired } := by
    refine ⟨rfl, rfl, rfl, ?_, ?_, ?_⟩
    · dsimp only
      unfold startRead
      repeat' split
      all_goals exact fun hbegun => by cases hbegun
    · dsimp only
      unfold startRead
      repeat' split
      all_goals exact fun run hrun => by cases hrun
    · intro hclosed _
      dsimp only
      unfold startRead
      cases expired with
      | some e => rfl
      | none => exact congrArg ReaderPhase.idle (if_pos hclosed)
  simp only [stepReader] at hstep
  split at hstep
  · cases hstep
    exact .of_reader hr hh hmoves rfl rfl rfl rfl
  · cases hstep

theorem acquire_frame (hr : s.readers.lookup id = some r) (hh : s.handles.lookup r.handle = some h)
    {expired : Option FetchError} {fails : List FilePath}
    (hstep : stepReader sha256Hex s id r h (.acquire id expired fails) = some t) :
    ReadAheadFrame s t := by
  simp only [stepReader] at hstep
  split at hstep
  · next hcopying =>
    have hbegun : r.phase.begun = true := by rw [hcopying.1]; rfl
    split at hstep
    · cases hstep
      exact .of_reader hr hh (.to_phase (.done _) _ hbegun (by simp)) rfl rfl rfl rfl
    · split at hstep
      · cases hstep
        exact .of_reader hr hh (.to_phase (.holding _) _ hbegun (by simp)) rfl rfl rfl rfl
      · cases hstep
        exact .of_reader hr hh (.to_phase (.awaiting _) _ hbegun (by simp)) rfl rfl rfl rfl
      · cases hstep
        exact .of_reader hr hh (.to_phase (.parked _) _ hbegun (by simp)) rfl rfl rfl rfl
      · cases hstep
        exact .of_reader hr hh (.to_phase (.done _) _ hbegun (by simp)) rfl rfl rfl rfl
      · cases hstep
        exact .of_reader hr hh (.to_phase (.awaiting _) _ hbegun (by simp)) rfl rfl rfl rfl
  · cases hstep

theorem wake_frame (hr : s.readers.lookup id = some r) (hh : s.handles.lookup r.handle = some h)
    {expired : Option FetchError} (hstep : stepReader sha256Hex s id r h (.wake id expired) = some t) :
    ReadAheadFrame s t := by
  simp only [stepReader] at hstep
  split at hstep
  · next call hphase =>
    have hbegun : r.phase.begun = true := by rw [hphase]; rfl
    have hdone : ∀ err, ReadAheadFrame s (setReader s id { r with phase := .done err }) := fun err =>
      .of_reader hr hh (.to_phase (.done err) _ hbegun (by simp)) rfl rfl rfl rfl
    have hcopying : ReadAheadFrame s (setReader s id { r with phase := .copying }) :=
      .of_reader hr hh (.to_phase .copying _ hbegun (by simp)) rfl rfl rfl rfl
    split at hstep
    · cases hstep
      exact hdone _
    · split at hstep
      · cases hstep
      · cases hstep
        exact hcopying
      · split at hstep <;> cases hstep
        · exact hcopying
        · exact hdone _
  · cases hstep

theorem unpark_frame (hr : s.readers.lookup id = some r) (hh : s.handles.lookup r.handle = some h)
    {expired : Option FetchError}
    (hstep : stepReader sha256Hex s id r h (.unpark id expired) = some t) :
    ReadAheadFrame s t := by
  simp only [stepReader] at hstep
  split at hstep
  · next notify hphase =>
    have hbegun : r.phase.begun = true := by rw [hphase]; rfl
    split at hstep
    · cases hstep
      exact .of_reader hr hh (.to_phase (.done _) _ hbegun (by simp)) rfl rfl rfl rfl
    · split at hstep <;> cases hstep
      exact .of_reader hr hh (.to_phase .copying _ hbegun (by simp)) rfl rfl rfl rfl
  · cases hstep

theorem readFile_frame (hr : s.readers.lookup id = some r) (hh : s.handles.lookup r.handle = some h)
    {fault : Option ℕ} (hstep : stepReader sha256Hex s id r h (.readFile id fault) = some t) :
    ReadAheadFrame s t := by
  simp only [stepReader] at hstep
  split at hstep
  · next entry hphase =>
    have hbegun : r.phase.begun = true := by rw [hphase]; rfl
    cases hstep
    exact .of_reader hr hh (.to_phase (.releasing entry _) _ hbegun (by simp)) rfl rfl rfl rfl
  · cases hstep

theorem release_frame (hr : s.readers.lookup id = some r) (hh : s.handles.lookup r.handle = some h)
    (hstep : stepReader sha256Hex s id r h (.release id) = some t) : ReadAheadFrame s t := by
  simp only [stepReader] at hstep
  split at hstep
  · next entry failed hphase =>
    have hbegun : r.phase.begun = true := by rw [hphase]; rfl
    cases hstep
    cases failed with
    | true => exact .of_reader hr hh (.to_phase (.done _) _ hbegun (by simp)) rfl rfl rfl rfl
    | false => exact .of_reader hr hh (.to_phase .copying _ hbegun (by simp)) rfl rfl rfl rfl
  · cases hstep

theorem direct_frame (hr : s.readers.lookup id = some r) (hh : s.handles.lookup r.handle = some h)
    {attempts : List (RangeRead × Bool)}
    (hstep : stepReader sha256Hex s id r h (.direct id attempts) = some t) : ReadAheadFrame s t := by
  simp only [stepReader] at hstep
  have hmoves : ∀ err buffer,
      ReaderMoves h r { r with buffer := buffer, phase := .done err } := fun err buffer =>
    ⟨rfl, rfl, rfl, (fun hbegun => by cases hbegun), (fun run hrun => by cases hrun),
      fun _ _ => rfl⟩
  split at hstep
  · split at hstep
    · split at hstep <;> cases hstep
      exact .of_reader hr hh (hmoves _ r.buffer) rfl rfl rfl rfl
    · split at hstep <;> cases hstep
      exact .of_reader hr hh (hmoves _ _) rfl rfl rfl rfl
  · cases hstep

theorem finish_frame (hr : s.readers.lookup id = some r) (hh : s.handles.lookup r.handle = some h)
    (hstep : stepReader sha256Hex s id r h (.finish id) = some t) : ReadAheadFrame s t := by
  simp only [stepReader] at hstep
  split at hstep
  · next hcopying =>
    have hbegun : r.phase.begun = true := by rw [hcopying.1]; rfl
    split at hstep
    · cases hstep
      exact .of_reader hr hh (.to_phase (.done _) _ hbegun (by simp)) rfl rfl rfl rfl
    · cases hstep
      have hsame : SameReadAhead h { h with lastReadEnd := logicalOffset r, hasLastRead := true } :=
        ⟨fun hclosed => hclosed, rfl, rfl, rfl⟩
      refine .of_handle hh hsame rfl rfl rfl (readers_of_insert hr hh ?_ rfl)
      refine ⟨rfl, rfl, rfl, fun _ => hbegun, ?_, ?_⟩
      · rintro run ⟨⟩
        rfl
      · intro _ hidle
        rw [ReaderPhase.not_idle_of_begun hbegun] at hidle
        cases hidle
  · cases hstep

theorem stepReader_frame (hr : s.readers.lookup id = some r) (hh : s.handles.lookup r.handle = some h)
    {a : CacheLabel} (hactor : actor a = .reader id) (hbegin : ∀ id, a ≠ .begin id)
    (hschedule : ∀ id fails, a ≠ .schedule id fails)
    (hstep : stepReader sha256Hex s id r h a = some t) : ReadAheadFrame s t := by
  cases a <;> simp only [actor, Actor.reader.injEq, reduceCtorEq] at hactor <;> subst hactor
  case start => exact start_frame hr hh hstep
  case begin => exact absurd rfl (hbegin _)
  case acquire => exact acquire_frame hr hh hstep
  case wake => exact wake_frame hr hh hstep
  case unpark => exact unpark_frame hr hh hstep
  case readFile => exact readFile_frame hr hh hstep
  case release => exact release_frame hr hh hstep
  case finish => exact finish_frame hr hh hstep
  case schedule => exact absurd rfl (hschedule _ _)
  case direct => exact direct_frame hr hh hstep

/-! ## Other steps -/

theorem stepFetcher_eq {f : Fetcher} {a : CacheLabel} (hstep : stepFetcher s id f a = some t) :
    ∃ pool fetchers, t = { s with pool := pool, fetchers := fetchers } := by
  cases a <;> simp only [stepFetcher, reduceCtorEq] at hstep
  all_goals
    repeat' split at hstep
    all_goals first | cases hstep; exact ⟨_, _, rfl⟩ | cases hstep

theorem stepPrefetch_eq {p : Prefetch} {a : CacheLabel}
    (hstep : stepPrefetch sha256Hex s id p a = some t) : ∃ pool fetchers prefetchers,
      t = { s with pool := pool, fetchers := fetchers, prefetchers := prefetchers } := by
  cases a <;> simp only [stepPrefetch, reduceCtorEq] at hstep
  all_goals
    repeat' split at hstep
    all_goals first | cases hstep; exact ⟨_, _, _, rfl⟩ | cases hstep

theorem stepOpen_frame {backing : BackingRef} {size : ℕ} {outcome : OpenOutcome}
    {fails : List FilePath} (hstep : stepOpen sha256Hex s id backing size outcome fails = some t) :
    ReadAheadFrame s t := by
  unfold stepOpen at hstep
  split at hstep
  · cases hstep
  · next hfresh =>
    rw [Option.not_isSome_iff_eq_none] at hfresh
    split at hstep
    · cases hstep
      exact .of_eq rfl (fun h => h) rfl rfl
    · split at hstep
      · cases hstep
        exact .of_eq rfl (fun h => h) rfl rfl
      · split at hstep <;> cases hstep
        · refine ⟨rfl, fun h => h, ?_, ?_, fun id' r' hr' => Or.inl hr'⟩
          · intro id' h hh
            have hne : id' ≠ id := by
              rintro rfl
              rw [hfresh] at hh
              cases hh
            exact ⟨h, (Table.lookup_insert _ _ _ _).trans (by rw [if_neg hne, hh]), .refl h⟩
          · intro id' h' hh'
            dsimp only at hh'
            rw [Table.lookup_insert] at hh'
            split at hh'
            · next heq =>
              rw [heq, ← Option.some.inj hh']
              exact Or.inr ⟨hfresh, rfl⟩
            · exact Or.inl ⟨h', hh', .refl h'⟩
        · exact .of_eq rfl (fun h => h) rfl rfl

theorem stepOutside_frame {a : CacheLabel} (hstop : ∀ id, a ≠ .stopReadAhead id)
    (hstep : stepOutside sha256Hex s a = some t) : ReadAheadFrame s t := by
  cases a <;> simp only [stepOutside, reduceCtorEq] at hstep
  case openHandle => exact stepOpen_frame hstep
  case markClosed id =>
    split at hstep
    · cases hstep
    · next h hh =>
      split at hstep <;> cases hstep
      have hsame : SameReadAhead h { h with closed := true } := ⟨fun _ => rfl, rfl, rfl, rfl⟩
      exact .of_handle hh hsame rfl rfl rfl fun rid r' hr' => Or.inl hr'
  case stopReadAhead id => exact absurd rfl (hstop id)
  case read id handle offset length =>
    split at hstep
    · cases hstep
    · next hguard =>
      simp only [not_or, Option.isNone_iff_eq_none] at hguard
      obtain ⟨h, hh⟩ := Option.ne_none_iff_exists'.1 hguard.2
      cases hstep
      refine ⟨rfl, fun h => h, fun id h hh => ⟨h, hh, .refl h⟩, frame_handles_of_eq rfl, ?_⟩
      intro rid r' hr'
      simp only [setReader] at hr'
      rw [Table.lookup_insert] at hr'
      split at hr'
      · rw [← Option.some.inj hr']
        exact Or.inr (Or.inl ⟨rfl, h, hh⟩)
      · exact Or.inl hr'
  case prefetch =>
    split at hstep <;> cases hstep
    exact .of_eq rfl (fun h => h) rfl rfl
  case shutdown =>
    cases hstep
    exact .of_eq rfl (fun _ => rfl) rfl rfl

/-- Every step but the three that create, cancel and use read-ahead contexts. -/
theorem cacheStep_frame {a : CacheLabel} (hrestart : ∀ options fails, a ≠ .restart options fails)
    (hbegin : ∀ id, a ≠ .begin id) (hschedule : ∀ id fails, a ≠ .schedule id fails)
    (hstop : ∀ id, a ≠ .stopReadAhead id) (hstep : cacheStep sha256Hex s a = some t) :
    ReadAheadFrame s t := by
  unfold cacheStep at hstep
  split at hstep
  · next options fails => exact absurd rfl (hrestart options fails)
  · split at hstep
    · cases hstep
    · cases hactor : actor a with
      | outside =>
        simp only [hactor] at hstep
        exact stepOutside_frame hstop hstep
      | reader id =>
        simp only [hactor] at hstep
        obtain ⟨r, hr, hrest⟩ := Option.bind_eq_some_iff.1 hstep
        obtain ⟨h, hh, hrest⟩ := Option.bind_eq_some_iff.1 hrest
        exact stepReader_frame hr hh hactor hbegin hschedule hrest
      | fetcher id =>
        simp only [hactor] at hstep
        obtain ⟨f, hf, hrest⟩ := Option.bind_eq_some_iff.1 hstep
        obtain ⟨pool, fetchers, rfl⟩ := stepFetcher_eq hrest
        exact .of_eq rfl (fun h => h) rfl rfl
      | prefetcher id =>
        simp only [hactor] at hstep
        obtain ⟨p, hp, hrest⟩ := Option.bind_eq_some_iff.1 hstep
        obtain ⟨pool, fetchers, prefetchers, rfl⟩ := stepPrefetch_eq hrest
        exact .of_eq rfl (fun h => h) rfl rfl

end Frames

/-! ## Contexts -/

/-- A context that a handle has created is cancelled or the one it has now; and so is the context of
a read under way, which is of the handle's generation if it is the one that the handle has. -/
structure ContextsRight (s : CacheState) (created : List (ℕ × ℕ)) : Prop where
  created : ∀ id c, (id, c) ∈ created → contextDone s (some c) = true ∨
    ∃ h, s.handles.lookup id = some h ∧ h.readAheadContext = some c
  reads : ∀ id r h, s.readers.lookup id = some r → s.handles.lookup r.handle = some h →
    r.phase.begun = true → contextDone s (some r.context) = true ∨
      h.readAheadContext = some r.context ∧ h.readAheadGeneration = r.generation
  runs : ∀ id r run, s.readers.lookup id = some r → r.phase = .scheduling run →
    run.context = some r.context
  opened : ∀ id r, s.readers.lookup id = some r → ∃ h, s.handles.lookup r.handle = some h

section Contexts

variable {s t : CacheState} {created : List (ℕ × ℕ)} {id : ℕ} {r : Reader} {h h' : Handle}

theorem contextDone_some (s : CacheState) (c : ℕ) :
    contextDone s (some c) = true ↔ s.lifecycleDone = true ∨ c ∈ s.cancelled := by
  simp [contextDone]

/-- Contexts stay cancelled. -/
theorem contextDone_mono (hlifecycle : s.lifecycleDone = true → t.lifecycleDone = true)
    (hcancelled : ∀ c ∈ s.cancelled, c ∈ t.cancelled) {c : ℕ}
    (hdone : contextDone s (some c) = true) : contextDone t (some c) = true := by
  rw [contextDone_some] at hdone ⊢
  exact hdone.imp hlifecycle (hcancelled c)

theorem ReadAheadFrame.done (hframe : ReadAheadFrame s t) {c : ℕ}
    (hdone : contextDone s (some c) = true) : contextDone t (some c) = true :=
  contextDone_mono hframe.lifecycle (by rw [hframe.cancelled_eq]; exact fun _ h => h) hdone

theorem ContextsRight.frame (hright : ContextsRight s created) (hframe : ReadAheadFrame s t) :
    ContextsRight t created where
  created := by
    intro id c hc
    rcases hright.created id c hc with hdone | ⟨h, hh, hcontext⟩
    · exact Or.inl (hframe.done hdone)
    · obtain ⟨h', hh', hsame⟩ := hframe.kept id h hh
      exact Or.inr ⟨h', hh', hsame.context_eq.trans hcontext⟩
  reads := by
    -- the read was under way before, on a handle that was open before
    have hkept : ∀ (id : ℕ) (r r' : Reader) (h' : Handle), s.readers.lookup id = some r →
        r'.handle = r.handle → r'.context = r.context → r'.generation = r.generation →
        r.phase.begun = true → t.handles.lookup r'.handle = some h' →
        contextDone t (some r'.context) = true ∨
          h'.readAheadContext = some r'.context ∧ h'.readAheadGeneration = r'.generation := by
      intro id r r' h' hr hhandle hcontext hgeneration hbegun hh'
      obtain ⟨h, hh⟩ := hright.opened id r hr
      obtain ⟨h₀, hh₀, hsame⟩ := hframe.kept r.handle h hh
      rw [hhandle, hh₀, Option.some.injEq] at hh'
      subst hh'
      rw [hcontext, hgeneration, hsame.context_eq, hsame.generation_eq]
      exact (hright.reads id r h hr hh hbegun).imp_left hframe.done
    intro id r' h' hr' hh' hbegun
    rcases hframe.readers id r' hr' with hr | ⟨hstarting, _⟩ | ⟨r, h, hr, hh, hmoves⟩
    · exact hkept id r' r' h' hr rfl rfl rfl hbegun hh'
    · rw [hstarting] at hbegun
      cases hbegun
    · exact hkept id r r' h' hr hmoves.handle_eq hmoves.context_eq hmoves.generation_eq
        (hmoves.begun hbegun) hh'
  runs := by
    intro id r' run hr' hphase
    rcases hframe.readers id r' hr' with hr | ⟨hstarting, _⟩ | ⟨r, h, hr, hh, hmoves⟩
    · exact hright.runs id r' run hr hphase
    · rw [hstarting] at hphase
      cases hphase
    · exact hmoves.run run hphase
  opened := by
    intro id r' hr'
    have hopen : ∀ handle h, s.handles.lookup handle = some h →
        ∃ h', t.handles.lookup handle = some h' := by
      intro handle h hh
      obtain ⟨h', hh', _⟩ := hframe.kept handle h hh
      exact ⟨h', hh'⟩
    rcases hframe.readers id r' hr' with hr | ⟨_, h, hh⟩ | ⟨r, h, hr, hh, hmoves⟩
    · obtain ⟨h, hh⟩ := hright.opened id r' hr
      exact hopen _ h hh
    · exact hopen _ h hh
    · rw [hmoves.handle_eq]
      exact hopen _ h hh

/-- A handle's context is kept, or cancelled and replaced; one read, if any, goes on under what the
handle has then. -/
theorem ContextsRight.replace (hright : ContextsRight s created) {handle : ℕ}
    (hh : s.handles.lookup handle = some h) (hcancelled : ∀ c ∈ s.cancelled, c ∈ t.cancelled)
    (hlifecycle : t.lifecycleDone = s.lifecycleDone)
    (hhandles : t.handles = s.handles.insert handle h')
    (hold : ∀ c, h.readAheadContext = some c → c ∈ t.cancelled ∨
      h'.readAheadContext = some c ∧ h'.readAheadGeneration = h.readAheadGeneration)
    {created' : List (ℕ × ℕ)} (hcreated : ∀ id c, (id, c) ∈ created' → (id, c) ∈ created ∨
      id = handle ∧ h'.readAheadContext = some c)
    (hreaders : ∀ id r, t.readers.lookup id = some r → s.readers.lookup id = some r ∨
      r.handle = handle ∧ r.phase = .copying ∧ h'.readAheadContext = some r.context ∧
        h'.readAheadGeneration = r.generation) : ContextsRight t created' := by
  have hdone : ∀ c, contextDone s (some c) = true → contextDone t (some c) = true := fun c =>
    contextDone_mono (by rw [hlifecycle]; exact fun h => h) hcancelled
  have hreplaced : ∀ c, h.readAheadContext = some c → contextDone t (some c) = true ∨
      h'.readAheadContext = some c ∧ h'.readAheadGeneration = h.readAheadGeneration := by
    intro c hc
    exact (hold c hc).imp_left fun hmem => (contextDone_some t c).2 (Or.inr hmem)
  have hlookup : ∀ id, t.handles.lookup id =
      if id = handle then some h' else s.handles.lookup id := by
    intro id
    rw [hhandles, Table.lookup_insert]
  constructor
  case created =>
    intro id c hc
    rcases hcreated id c hc with hc | ⟨rfl, hc⟩
    · rcases hright.created id c hc with hd | ⟨h₀, hh₀, hcontext⟩
      · exact Or.inl (hdone c hd)
      · by_cases hid : id = handle
        · subst hid
          obtain rfl : h = h₀ := Option.some.inj (hh.symm.trans hh₀)
          rcases hreplaced c hcontext with hd | ⟨hkept, _⟩
          · exact Or.inl hd
          · exact Or.inr ⟨h', by rw [hlookup, if_pos rfl], hkept⟩
        · exact Or.inr ⟨h₀, by rw [hlookup, if_neg hid, hh₀], hcontext⟩
    · exact Or.inr ⟨h', by rw [hlookup, if_pos rfl], hc⟩
  case reads =>
    intro id r h₀ hr hh₀ hbegun
    rw [hlookup] at hh₀
    rcases hreaders id r hr with hr | ⟨hhandle, _, hcontext, hgeneration⟩
    · split at hh₀
      · next hid =>
        obtain rfl := Option.some.inj hh₀
        rcases hright.reads id r h hr (by rw [hid, hh]) hbegun with hd | ⟨hcontext, hgeneration⟩
        · exact Or.inl (hdone _ hd)
        · exact (hreplaced _ hcontext).imp_right fun hkept => ⟨hkept.1, hkept.2.trans hgeneration⟩
      · exact (hright.reads id r h₀ hr hh₀ hbegun).imp_left (hdone _)
    · rw [if_pos hhandle, Option.some.injEq] at hh₀
      subst hh₀
      exact Or.inr ⟨hcontext, hgeneration⟩
  case runs =>
    intro id r run hr hphase
    rcases hreaders id r hr with hr | ⟨_, hcopying, _⟩
    · exact hright.runs id r run hr hphase
    · rw [hcopying] at hphase
      cases hphase
  case opened =>
    intro id r hr
    have hsome : ∀ i h₀, s.handles.lookup i = some h₀ → ∃ h', t.handles.lookup i = some h' := by
      intro i h₀ hi
      rw [hlookup]
      split
      · exact ⟨h', rfl⟩
      · exact ⟨h₀, hi⟩
    rcases hreaders id r hr with hr | ⟨hhandle, _⟩
    · obtain ⟨h₀, hh₀⟩ := hright.opened id r hr
      exact hsome _ h₀ hh₀
    · rw [hhandle]
      exact hsome handle h hh

/-- What `Close` does to a handle. -/
theorem stopReadAhead_eq {sha256Hex : String → String}
    (hstep : cacheStep sha256Hex s (.stopReadAhead id) = some t) :
    ∃ h, s.handles.lookup id = some h ∧ h.closed = true ∧ t = { s with
      cancelled := s.cancelled ++ h.readAheadContext.toList
      handles := s.handles.insert id
        { h with readAheadContext := none, readAheadStopped := true } } := by
  simp only [cacheStep, actor, stepOutside] at hstep
  split at hstep
  · cases hstep
  · split at hstep
    · cases hstep
    · next h hh =>
      split at hstep
      · next hclosed =>
        cases hstep
        exact ⟨h, hh, hclosed.1, rfl⟩
      · cases hstep

/-- What `beginRead` does: a new context takes the place of the handle's, or the read joins it. -/
inductive Begins (s : CacheState) (id : ℕ) (r : Reader) (h : Handle) (t : CacheState) : Prop
  | creates : t = setReader { s with
      cancelled := s.cancelled ++ h.readAheadContext.toList
      nextContext := s.nextContext + 1
      handles := s.handles.insert r.handle { h with
        readAheadContext := some s.nextContext
        readAheadGeneration := h.readAheadGeneration + 1 } } id { r with
      context := s.nextContext
      generation := h.readAheadGeneration + 1
      phase := .copying } → Begins s id r h t
  | joins (c : ℕ) : h.readAheadContext = some c →
      t = setReader { s with handles := s.handles.insert r.handle h } id { r with
        context := c
        generation := h.readAheadGeneration
        phase := .copying } → Begins s id r h t

theorem begin_eq {sha256Hex : String → String}
    (hstep : cacheStep sha256Hex s (.begin id) = some t) :
    ∃ r h, s.readers.lookup id = some r ∧ s.handles.lookup r.handle = some h ∧
      r.phase = .beginning ∧ Begins s id r h t := by
  simp only [cacheStep, actor] at hstep
  split at hstep
  · cases hstep
  · obtain ⟨r, hr, hrest⟩ := Option.bind_eq_some_iff.1 hstep
    obtain ⟨h, hh, hrest⟩ := Option.bind_eq_some_iff.1 hrest
    simp only [stepReader] at hrest
    split at hrest
    · next hphase =>
      refine ⟨r, h, hr, hh, hphase, ?_⟩
      unfold beginRead at hrest
      split at hrest
      · cases hrest
        exact .creates rfl
      · next hjoins =>
        rw [not_or, Option.isNone_iff_eq_none] at hjoins
        obtain ⟨c, hc⟩ := Option.ne_none_iff_exists'.1 hjoins.1
        cases hrest
        exact .joins c hc (by simp [hc])
    · cases hrest

theorem readers_of_setReader {s' : CacheState} {r' : Reader} (hreaders : s'.readers = s.readers)
    {P : Reader → Prop} (hr' : P r') :
    ∀ rid r, (setReader s' id r').readers.lookup rid = some r →
      s.readers.lookup rid = some r ∨ P r := by
  intro rid r hr
  simp only [setReader, hreaders] at hr
  rw [Table.lookup_insert] at hr
  split at hr
  · rw [← Option.some.inj hr]
    exact Or.inr hr'
  · exact Or.inl hr

theorem ContextsRight.begin (hright : ContextsRight s created)
    (hh : s.handles.lookup r.handle = some h) (hbegins : Begins s id r h t) :
    ContextsRight t (created ++ newContext s t r.handle) := by
  cases hbegins with
  | creates heq =>
    subst heq
    apply hright.replace hh
    case hcancelled => exact fun _ => List.mem_append_left _
    case hlifecycle => rfl
    case hhandles => rfl
    case hreaders => exact readers_of_setReader rfl ⟨rfl, rfl, rfl, rfl⟩
    · intro c hc
      exact Or.inl (List.mem_append_right _ (by rw [hc]; exact List.mem_singleton_self c))
    · intro id' c hc
      rcases List.mem_append.1 hc with hc | hc
      · exact Or.inl hc
      · have hnew : (id', c) = (r.handle, s.nextContext) := by
          simpa [newContext, setReader] using hc
        cases hnew
        exact Or.inr ⟨rfl, rfl⟩
  | joins c hc heq =>
    subst heq
    apply hright.replace hh
    case hcancelled => exact fun _ hmem => hmem
    case hlifecycle => rfl
    case hhandles => rfl
    case hold => exact fun _ hc' => Or.inr ⟨hc', rfl⟩
    case hreaders => exact readers_of_setReader rfl ⟨rfl, rfl, hc, rfl⟩
    case hcreated =>
      intro id' c' hc'
      left
      simpa [newContext, setReader] using hc'

theorem ContextsRight.stop {sha256Hex : String → String} (hright : ContextsRight s created)
    (hstep : cacheStep sha256Hex s (.stopReadAhead id) = some t) : ContextsRight t created := by
  obtain ⟨h, hh, _, rfl⟩ := stopReadAhead_eq hstep
  apply hright.replace hh
  case hcancelled => exact fun _ => List.mem_append_left _
  case hlifecycle => rfl
  case hhandles => rfl
  case hcreated => exact fun _ _ => Or.inl
  case hreaders => exact fun _ _ => Or.inl
  case hold =>
    intro c hc
    exact Or.inl (List.mem_append_right _ (by rw [hc]; exact List.mem_singleton_self c))

end Contexts

/-! ## Every step -/

section Moves

variable {sha256Hex : String → String} {s t : ReadAheadState} {l : ReadAheadLabel}

theorem scheduleRound_context {pool pool' : PoolState} {run : BackgroundRun} {done : Bool}
    {fails : List FilePath} {fetcher : Option Fetcher} {run' : BackgroundRun}
    (h : scheduleRound sha256Hex pool run done fails = (pool', fetcher, some run')) :
    run'.context = run.context := by
  simp only [scheduleRound] at h
  split at h
  · cases h
  · split at h <;> cases h <;> rfl

/-- What a step is: one of the three that create, cancel and use contexts, or one that the others do
not see. -/
inductive ReadAheadMove (sha256Hex : String → String) (s : ReadAheadState) (l : ReadAheadLabel)
    (t : ReadAheadState) : Prop
  | frame : ReadAheadFrame s.cache t.cache → t.created = s.created → t.started = s.started →
      ReadAheadMove sha256Hex s l t
  | begins {id : ℕ} {r : Reader} {h : Handle} : l = .cache (.begin id) →
      s.cache.readers.lookup id = some r → s.cache.handles.lookup r.handle = some h →
      r.phase = .beginning → Begins s.cache id r h t.cache →
      t.created = s.created ++ newContext s.cache t.cache r.handle → t.started = s.started →
      ReadAheadMove sha256Hex s l t
  | stops {id : ℕ} : cacheStep sha256Hex s.cache (.stopReadAhead id) = some t.cache →
      t.created = s.created → t.started = s.started → ReadAheadMove sha256Hex s l t
  | starts {id : ℕ} {r : Reader} {h : Handle} {run : BackgroundRun} :
      s.cache.readers.lookup id = some r → s.cache.handles.lookup r.handle = some h →
      r.phase = .scheduling run → ReadAheadFrame s.cache t.cache → t.created = s.created →
      t.started = s.started ++
        [⟨r.handle, r.generation ≠ h.readAheadGeneration, contextDone s.cache run.context⟩] →
      ReadAheadMove sha256Hex s l t

theorem checkContext_move {id : ℕ} {r : Reader} {h : Handle}
    (hr : s.cache.readers.lookup id = some r)
    (hh : s.cache.handles.lookup r.handle = some h) (hstep : stepCheckContext s id r h = some t) :
    ReadAheadMove sha256Hex s l t := by
  unfold stepCheckContext at hstep
  split at hstep
  · next run hphase =>
    have hbegun : r.phase.begun = true := by rw [hphase]; rfl
    split at hstep
    · cases hstep
    · split at hstep <;> cases hstep
      · exact .frame (.of_reader hr hh (.to_phase (.done _) _ hbegun (by simp)) rfl rfl rfl rfl)
          rfl rfl
      · exact .frame (.of_eq rfl (fun h => h) rfl rfl) rfl rfl
  · cases hstep

theorem startChunk_move (hright : ContextsRight s.cache s.created) {id : ℕ} {r : Reader}
    {h : Handle} (hr : s.cache.readers.lookup id = some r)
    (hh : s.cache.handles.lookup r.handle = some h) {fails : List FilePath}
    (hstep : stepStartChunk sha256Hex s id r h fails = some t) :
    ReadAheadMove sha256Hex s l t := by
  unfold stepStartChunk at hstep
  split at hstep
  · next run hphase =>
    split at hstep
    · rcases hround : scheduleRound sha256Hex s.cache.pool run false fails
        with ⟨pool, fetcher, rest⟩
      rw [hround] at hstep
      cases hstep
      have hbegun : r.phase.begun = true := by rw [hphase]; rfl
      have hmoves : ReaderMoves h r { r with phase := schedulingPhase h r rest } := by
        refine ⟨rfl, rfl, rfl, fun _ => hbegun, ?_, ?_⟩
        · intro run' hrun'
          cases rest with
          | none => cases hrun'
          | some next =>
            obtain rfl := ReaderPhase.scheduling.inj hrun'
            rw [scheduleRound_context hround]
            exact hright.runs id r run hr hphase
        · intro _ hidle
          rw [ReaderPhase.not_idle_of_begun hbegun] at hidle
          cases hidle
      cases fetcher with
      | none =>
        exact .frame (.of_reader hr hh hmoves rfl rfl rfl rfl) rfl (List.append_nil _)
      | some f => exact .starts hr hh hphase (.of_reader hr hh hmoves rfl rfl rfl rfl) rfl rfl
    · cases hstep
  · cases hstep

theorem readAheadStep_move (hright : ContextsRight s.cache s.created)
    (hstep : readAheadStep sha256Hex s l = some t) : ReadAheadMove sha256Hex s l t := by
  have hcache : ∀ a, (∀ options fails, a ≠ .restart options fails) → (∀ id, a ≠ .begin id) →
      (∀ id fails, a ≠ .schedule id fails) →
      (cacheStep sha256Hex s.cache a).bind (fun cache => some { s with cache := cache }) = some t →
      ReadAheadMove sha256Hex s l t := by
    intro a hrestart hbegin hschedule ha
    obtain ⟨cache, hcache, heq⟩ := Option.bind_eq_some_iff.1 ha
    cases heq
    by_cases hstop : ∃ id, a = .stopReadAhead id
    · obtain ⟨id, rfl⟩ := hstop
      exact .stops hcache rfl rfl
    · exact .frame (cacheStep_frame hrestart hbegin hschedule (fun id h => hstop ⟨id, h⟩) hcache)
        rfl rfl
  cases l with
  | cache a =>
    cases a with
    | restart => cases hstep
    | schedule => cases hstep
    | begin id =>
      obtain ⟨r₀, hr₀, hrest⟩ := Option.bind_eq_some_iff.1 hstep
      obtain ⟨cache, hbegin, heq⟩ := Option.bind_eq_some_iff.1 hrest
      cases heq
      obtain ⟨r, h, hr, hh, hphase, hbegins⟩ := begin_eq hbegin
      obtain rfl : r₀ = r := Option.some.inj (hr₀.symm.trans hr)
      exact .begins rfl hr hh hphase hbegins rfl rfl
    | _ => exact hcache _ (by simp) (by simp) (by simp) hstep
  | checkContext id =>
    obtain ⟨r, hr, hrest⟩ := Option.bind_eq_some_iff.1 hstep
    obtain ⟨h, hh, hrest⟩ := Option.bind_eq_some_iff.1 hrest
    exact checkContext_move hr hh hrest
  | startChunk id fails =>
    obtain ⟨r, hr, hrest⟩ := Option.bind_eq_some_iff.1 hstep
    obtain ⟨h, hh, hrest⟩ := Option.bind_eq_some_iff.1 hrest
    exact startChunk_move hright hr hh hrest

theorem ReadAheadMove.contextsRight (hmove : ReadAheadMove sha256Hex s l t)
    (hright : ContextsRight s.cache s.created) : ContextsRight t.cache t.created := by
  cases hmove with
  | frame hframe hcreated _ =>
    rw [hcreated]
    exact hright.frame hframe
  | begins _ _ hh _ hbegins hcreated _ =>
    rw [hcreated]
    exact hright.begin hh hbegins
  | stops hstep hcreated _ =>
    rw [hcreated]
    exact hright.stop hstep
  | starts _ _ _ hframe hcreated _ =>
    rw [hcreated]
    exact hright.frame hframe

/-- A superseded read starts its fetches under a cancelled context. -/
theorem ReadAheadMove.superseded (hmove : ReadAheadMove sha256Hex s l t)
    (hright : ContextsRight s.cache s.created)
    (h : ∀ f ∈ s.started, f.superseded = true → f.cancelled = true) :
    ∀ f ∈ t.started, f.superseded = true → f.cancelled = true := by
  cases hmove with
  | frame _ _ hstarted => rwa [hstarted]
  | begins _ _ _ _ _ _ hstarted => rwa [hstarted]
  | stops _ _ hstarted => rwa [hstarted]
  | @starts id r hd run hr hh hphase _ _ hstarted =>
    rw [hstarted]
    intro f hf hsuperseded
    rcases List.mem_append.1 hf with hf | hf
    · exact h f hf hsuperseded
    · rw [List.mem_singleton.1 hf] at hsuperseded ⊢
      show contextDone s.cache run.context = true
      rw [hright.runs id r run hr hphase]
      have hbegun : r.phase.begun = true := by rw [hphase]; rfl
      rcases hright.reads id r hd hr hh hbegun with hdone | ⟨_, hgeneration⟩
      · exact hdone
      · simp [hgeneration] at hsuperseded

/-- After `Close`, and after the reads of the handle have returned: what calls that come later do. -/
structure HandleQuiet (s : CacheState) (id : ℕ) : Prop where
  closed : ∃ h, s.handles.lookup id = some h ∧ h.closed = true
  idle : ∀ rid r, s.readers.lookup rid = some r → r.handle = id → r.phase.idle = true

theorem HandleOver.quiet {s : CacheState} {id : ℕ} (h : HandleOver s id) : HandleQuiet s id where
  closed := by
    obtain ⟨hd, hh, hclosed, _⟩ := h.closed
    exact ⟨hd, hh, hclosed⟩
  idle rid r hr hhandle := by
    obtain ⟨err, herr⟩ := h.returned rid r hr hhandle
    rw [herr]
    rfl

theorem HandleQuiet.frame {s t : CacheState} {id : ℕ} (hquiet : HandleQuiet s id)
    (hframe : ReadAheadFrame s t) : HandleQuiet t id := by
  obtain ⟨h, hh, hclosed⟩ := hquiet.closed
  constructor
  · obtain ⟨h', hh', hsame⟩ := hframe.kept id h hh
    exact ⟨h', hh', hsame.closed hclosed⟩
  · intro rid r' hr' hhandle
    rcases hframe.readers rid r' hr' with hr | ⟨hstarting, _⟩ | ⟨r, h₀, hr, hh₀, hmoves⟩
    · exact hquiet.idle rid r' hr hhandle
    · rw [hstarting]
      rfl
    · have hid : r.handle = id := hmoves.handle_eq.symm.trans hhandle
      rw [hid, hh, Option.some.injEq] at hh₀
      subst hh₀
      exact hmoves.idle hclosed (hquiet.idle rid r hr hid)

/-- Replacing another handle, or this one by a closed one, keeps it quiet. -/
theorem HandleQuiet.replace {s t : CacheState} {id handle : ℕ} (hquiet : HandleQuiet s id)
    {h h' : Handle} (hh : s.handles.lookup handle = some h) (hclosed : h.closed = true → h'.closed = true)
    (hhandles : t.handles = s.handles.insert handle h')
    (hreaders : ∀ rid r, t.readers.lookup rid = some r → s.readers.lookup rid = some r ∨
      r.handle ≠ id) : HandleQuiet t id := by
  constructor
  · obtain ⟨h₀, hh₀, hclosed₀⟩ := hquiet.closed
    rw [hhandles, Table.lookup_insert]
    split
    · next heq =>
      rw [← heq, hh₀, Option.some.injEq] at hh
      exact ⟨h', rfl, hclosed (hh ▸ hclosed₀)⟩
    · exact ⟨h₀, hh₀, hclosed₀⟩
  · intro rid r hr hid
    rcases hreaders rid r hr with hr | hne
    · exact hquiet.idle rid r hr hid
    · exact absurd hid hne

/-- Nothing more is started for a quiet handle, and it stays quiet. -/
theorem ReadAheadMove.quiet (hmove : ReadAheadMove sha256Hex s l t) {id : ℕ}
    (hquiet : HandleQuiet s.cache id) :
    HandleQuiet t.cache id ∧ startedFor t id = startedFor s id := by
  cases hmove with
  | frame hframe _ hstarted => exact ⟨hquiet.frame hframe, by rw [startedFor, hstarted, startedFor]⟩
  | @begins rid r h _ hr hh hphase hbegins _ hstarted =>
    refine ⟨?_, by rw [startedFor, hstarted, startedFor]⟩
    have hne : r.handle ≠ id := by
      intro hid
      have hidle := hquiet.idle rid r hr hid
      rw [hphase] at hidle
      cases hidle
    cases hbegins with
    | creates heq =>
      rw [heq]
      apply hquiet.replace hh
      case hhandles => rfl
      case hclosed => exact fun hclosed => hclosed
      case hreaders => exact readers_of_setReader rfl hne
    | joins c hc heq =>
      rw [heq]
      apply hquiet.replace hh
      case hhandles => rfl
      case hclosed => exact fun hclosed => hclosed
      case hreaders => exact readers_of_setReader rfl hne
  | @stops rid hstep _ hstarted =>
    refine ⟨?_, by rw [startedFor, hstarted, startedFor]⟩
    obtain ⟨h, hh, _, heq⟩ := stopReadAhead_eq hstep
    rw [heq]
    apply hquiet.replace hh
    case hhandles => rfl
    case hclosed => exact fun hclosed => hclosed
    case hreaders => exact fun _ _ => Or.inl
  | @starts rid r h run hr hh hphase hframe _ hstarted =>
    refine ⟨hquiet.frame hframe, ?_⟩
    have hne : r.handle ≠ id := by
      intro hid
      have hidle := hquiet.idle rid r hr hid
      rw [hphase] at hidle
      cases hidle
    simp [startedFor, hstarted, hne]

/-- A handle that `Close` has stopped has no context, or the pool is shut down. -/
def StoppedEmpty (s : CacheState) : Prop :=
  ∀ id h, s.handles.lookup id = some h → h.readAheadStopped = true →
    h.readAheadContext = none ∨ s.lifecycleDone = true

theorem StoppedEmpty.frame {s t : CacheState} (hempty : StoppedEmpty s)
    (hframe : ReadAheadFrame s t) : StoppedEmpty t := by
  intro id h' hh' hstopped
  rcases hframe.handles id h' hh' with ⟨h, hh, hsame⟩ | ⟨_, hnot⟩
  · rw [hsame.stopped_eq] at hstopped
    rw [hsame.context_eq]
    exact (hempty id h hh hstopped).imp_right hframe.lifecycle
  · rw [hnot] at hstopped
    cases hstopped

theorem StoppedEmpty.replace {s t : CacheState} (hempty : StoppedEmpty s) {handle : ℕ} {h' : Handle}
    (hlifecycle : t.lifecycleDone = s.lifecycleDone)
    (hhandles : t.handles = s.handles.insert handle h')
    (hh' : h'.readAheadStopped = true → h'.readAheadContext = none ∨ s.lifecycleDone = true) :
    StoppedEmpty t := by
  intro id h hh hstopped
  rw [hhandles, Table.lookup_insert] at hh
  rw [hlifecycle]
  split at hh
  · obtain rfl := Option.some.inj hh
    exact hh' hstopped
  · exact hempty id h hh hstopped

theorem ReadAheadMove.stoppedEmpty (hmove : ReadAheadMove sha256Hex s l t)
    (hempty : StoppedEmpty s.cache) (hlate : lateBegin s l = false) : StoppedEmpty t.cache := by
  cases hmove with
  | frame hframe _ _ => exact hempty.frame hframe
  | @begins id r h hl hr hh _ hbegins _ _ =>
    have hstopped : h.readAheadStopped = true → s.cache.lifecycleDone = true := by
      intro hstopped
      simpa [lateBegin, hl, hr, hh, hstopped] using hlate
    cases hbegins with
    | creates heq =>
      rw [heq]
      exact hempty.replace rfl rfl fun hs => Or.inr (hstopped hs)
    | joins c hc heq =>
      rw [heq]
      exact hempty.replace rfl rfl fun hs => Or.inr (hstopped hs)
  | stops hstep _ _ =>
    obtain ⟨h, hh, _, heq⟩ := stopReadAhead_eq hstep
    rw [heq]
    exact hempty.replace rfl rfl fun _ => Or.inl rfl
  | starts _ _ _ hframe _ _ => exact hempty.frame hframe

end Moves

/-! ## Runs -/

section Runs

variable {sha256Hex : String → String} {s : ReadAheadState}

theorem reachable_contextsRight {P : ReadAheadState → ReadAheadLabel → Prop}
    (h : (readAheadSystem sha256Hex).ReachableBy P s) :
    ContextsRight s.cache s.created ∧ ∀ f ∈ s.started, f.superseded = true → f.cancelled = true := by
  refine h.invariant (I := fun s => ContextsRight s.cache s.created ∧
    ∀ f ∈ s.started, f.superseded = true → f.cancelled = true) ?_ ?_
  · rintro s ⟨pool, rfl⟩
    exact ⟨⟨by simp, by simp [freshCache], by simp [freshCache], by simp [freshCache]⟩, by simp⟩
  · rintro s a t ⟨hright, hsuperseded⟩ _ hstep
    have hmove := readAheadStep_move hright hstep
    exact ⟨hmove.contextsRight hright, hmove.superseded hright hsuperseded⟩

/-- Once a handle is over, nothing more is started for it, in any run. -/
theorem handleOver_quiet (hright : ContextsRight s.cache s.created) {id : ℕ}
    (hover : HandleOver s.cache id) {t : ReadAheadState}
    (hreach : (readAheadSystem sha256Hex).Reaches s t) : startedFor t id = startedFor s id := by
  suffices h : ContextsRight t.cache t.created ∧ HandleQuiet t.cache id ∧
      startedFor t id = startedFor s id from h.2.2
  induction hreach with
  | refl => exact ⟨hright, hover.quiet, rfl⟩
  | tail _ _ hstep ih =>
    obtain ⟨hright', hquiet, hstarted⟩ := ih
    have hmove := readAheadStep_move hright' hstep
    obtain ⟨hquiet', hstarted'⟩ := hmove.quiet hquiet
    exact ⟨hmove.contextsRight hright', hquiet', hstarted'.trans hstarted⟩

/-- A handle that has no context now has only cancelled ones, and so has any handle of a pool that is
shut down. -/
theorem ContextsRight.all_done (hright : ContextsRight s.cache s.created) {id : ℕ} {h : Handle}
    (hh : s.cache.handles.lookup id = some h)
    (hempty : h.readAheadContext = none ∨ s.cache.lifecycleDone = true) :
    ∀ c, (id, c) ∈ s.created → contextDone s.cache (some c) = true := by
  intro c hc
  rcases hright.created id c hc with hdone | ⟨h₀, hh₀, hcontext⟩
  · exact hdone
  · obtain rfl : h = h₀ := Option.some.inj (hh.symm.trans hh₀)
    rcases hempty with hnone | hdone
    · rw [hnone] at hcontext
      cases hcontext
    · exact (contextDone_some _ c).2 (Or.inl hdone)

/-- In every run in which no `beginRead` comes after the `cancelReadAhead` of its handle's `Close`,
the read-ahead ends. -/
theorem readAhead_ends
    (h : (readAheadSystem sha256Hex).ReachableBy (fun s l => lateBegin s l = false) s) :
    ReadAheadEnds sha256Hex s := by
  obtain ⟨hright, hsuperseded⟩ := reachable_contextsRight h
  have hempty : StoppedEmpty s.cache := by
    refine h.invariant_under (I := fun s => StoppedEmpty s.cache)
      (fun _ hs => (reachable_contextsRight hs).1) ?_ ?_
    · rintro s ⟨pool, rfl⟩
      exact fun id h hh => by simp [freshCache] at hh
    · intro s a t hright hempty hlate hstep
      exact (readAheadStep_move hright hstep).stoppedEmpty hempty hlate
  refine ⟨fun id hover => ?_, fun id hover t => handleOver_quiet hright hover, hsuperseded⟩
  obtain ⟨hd, hh, _, hstopped⟩ := hover.closed
  exact hright.all_done hh (hempty id hd hh hstopped)

end Runs

/-! ## Two runs -/

/-- Whether a handle is over. -/
def isOver (s : CacheState) (id : ℕ) : Bool :=
  (s.handles.lookup id).any (fun h => h.closed && h.readAheadStopped) &&
    s.readers.entries.all fun e => e.2.handle != id || (e.2.phase.idle && e.2.phase != .starting)

theorem handleOver_of_isOver {s : CacheState} {id : ℕ} (h : isOver s id = true) :
    HandleOver s id := by
  rw [isOver, Bool.and_eq_true, Option.any_eq_true, List.all_eq_true] at h
  obtain ⟨⟨hd, hh, hclosed⟩, hreaders⟩ := h
  rw [Bool.and_eq_true] at hclosed
  refine ⟨⟨hd, hh, hclosed⟩, fun rid r hr hhandle => ?_⟩
  have hphase := hreaders _ ((Table.lookup_eq_some_iff_mem _ _ _).1 hr)
  cases hcase : r.phase with
  | done err => exact ⟨err, rfl⟩
  | _ => simp [hhandle, hcase, ReaderPhase.idle] at hphase

/-- The actions of the process that are the same here. -/
def cacheLabels (labels : List CacheLabel) : List ReadAheadLabel := labels.map .cache

/-- Read four bytes, start the read-ahead of the third chunk, and close the handle. -/
def readAndClose : List ReadAheadLabel :=
  cacheLabels ((smallRead.dropLast).dropLast) ++
    [.checkContext 0, .startChunk 0 [], .checkContext 0, .cache (.markClosed 0),
      .cache (.stopReadAhead 0)]

/-- The theorem above for a read that starts a read-ahead. -/
theorem readAhead_ends_small : ∃ s, (readAheadSystem smallOrigin.sha256Hex).runChecked
      (fun s l => lateBegin s l = false)
      ⟨freshCache true (emptyPool smallOptions ⟨∅, ∅⟩), [], [], []⟩ readAndClose = some s ∧
    isOver s.cache 0 = true ∧ s.created = [(0, 0)] ∧ s.started = [⟨0, false, false⟩] ∧
    ReadAheadEnds smallOrigin.sha256Hex s := by
  obtain ⟨s, hs⟩ : ∃ s, (readAheadSystem smallOrigin.sha256Hex).runChecked
      (fun s l => lateBegin s l = false)
      ⟨freshCache true (emptyPool smallOptions ⟨∅, ∅⟩), [], [], []⟩ readAndClose = some s :=
    Option.isSome_iff_exists.1 (by decide +kernel)
  have hvalues : ((readAheadSystem smallOrigin.sha256Hex).runChecked
      (fun s l => lateBegin s l = false)
      ⟨freshCache true (emptyPool smallOptions ⟨∅, ∅⟩), [], [], []⟩ readAndClose).map
        (fun s => (isOver s.cache 0, s.created, s.started)) =
      some (true, [(0, 0)], [⟨0, false, false⟩]) := by
    decide +kernel
  rw [hs, Option.map_some, Option.some.injEq, Prod.mk.injEq, Prod.mk.injEq] at hvalues
  exact ⟨s, hs, hvalues.1, hvalues.2.1, hvalues.2.2, readAhead_ends
    (System.ReachableBy.reaches (.init ⟨emptyPool smallOptions ⟨∅, ∅⟩, rfl⟩)
      (System.reachesBy_of_runChecked hs))⟩

/-- A read that has found the handle open, and creates its context after `Close` has cancelled the
read-ahead; its request is cancelled before the first chunk. -/
def closeDuringRead : List ReadAheadLabel :=
  cacheLabels [.openHandle 0 ⟨"torbox", "7:1"⟩ 10 (.source 10 "v1") [], .read 0 0 2 4,
    .start 0 none, .markClosed 0, .stopReadAhead 0, .begin 0, .acquire 0 (some .canceled) []]

/-- That context is never cancelled. -/
theorem readAhead_leaks : ∃ s, (readAheadSystem smallOrigin.sha256Hex).Reachable s ∧
    HandleOver s.cache 0 ∧ (0, 0) ∈ s.created ∧ contextDone s.cache (some 0) = false ∧
    ¬ ReadAheadEnds smallOrigin.sha256Hex s := by
  obtain ⟨s, hs⟩ : ∃ s, (readAheadSystem smallOrigin.sha256Hex).run
      ⟨freshCache true (emptyPool smallOptions ⟨∅, ∅⟩), [], [], []⟩ closeDuringRead = some s :=
    Option.isSome_iff_exists.1 (by decide +kernel)
  have hvalues : ((readAheadSystem smallOrigin.sha256Hex).run
      ⟨freshCache true (emptyPool smallOptions ⟨∅, ∅⟩), [], [], []⟩ closeDuringRead).map
        (fun s => (isOver s.cache 0, s.created, contextDone s.cache (some 0))) =
      some (true, [(0, 0)], false) := by
    decide +kernel
  rw [hs, Option.map_some, Option.some.injEq, Prod.mk.injEq, Prod.mk.injEq] at hvalues
  obtain ⟨hover, hcreated, halive⟩ := hvalues
  have hmem : (0, 0) ∈ s.created := by rw [hcreated]; exact List.mem_cons_self
  refine ⟨s, System.reachable_of_run ⟨emptyPool smallOptions ⟨∅, ∅⟩, rfl⟩ hs,
    handleOver_of_isOver hover, hmem, halive, fun hends => ?_⟩
  rw [hends.cancelled 0 (handleOver_of_isOver hover) 0 hmem] at halive
  cases halive

end BlackPearl.Cache
