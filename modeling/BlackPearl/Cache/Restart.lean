import BlackPearl.Cache.Lifetime

/-!
# Restarts with other options

A deployment is a cache root over several processes: each `restart` recovers the files that the
previous one left, with options of its own. The name of a chunk file holds the index of the chunk but
not the chunk size that gives the index its meaning, so after a change of `ChunkBytes` a read may find
a file with the bytes of another range. Reads stay right exactly as long as the chunks they find were
written with a compatible chunk size.
-/

set_option autoImplicit false

namespace BlackPearl.Cache

open BlackPearl.Library BlackPearl.Domain

/-- A restart keeps the invariant; the files stay uniform if the chunk size stays. -/
theorem restart_invariant {o : Origin} {u : Prop} {s : CacheState} (hinv : CacheInvariant o u s)
    (options : RangeOptions) (fails : List FilePath)
    (hsame : u → options.chunkBytes = s.pool.shared.options.chunkBytes) :
    CacheInvariant o u (restartCache s options fails) := by
  have huniform : u → ∀ k node, s.pool.disk.files.lookup (chunkPath k) = some node →
      node.writtenWith = options.chunkBytes := by
    intro hu k node hn
    rw [hsame hu]
    exact hinv.uniform hu k node hn
  unfold restartCache
  split
  · next d pool hrec => exact freshCache_invariant (recoverChunks_spec hrec).2 hinv.disk huniform
  · next d e hrec =>
    have hsub : ∀ p node, d.files.lookup p = some node → s.pool.disk.files.lookup p = some node := by
      intro p node hp
      have hleft : (recoverChunks options s.pool.disk fails).1.files.lookup p = some node := by
        rw [hrec]
        exact hp
      exact recoverChunks_files_sub hleft
    exact {
      uniform := fun hu k node hn => huniform hu k node (hsub _ _ hn)
      books := emptyPool_books options d
      disk := fun k node hn => hinv.disk k node (hsub _ _ hn)
      stored := fun k e hk => absurd hk (by simp [freshCache, emptyPool])
      handles := by simp [freshCache]
      fetchers := by simp [freshCache]
      prefetchers := by simp [freshCache]
      readers := by simp [freshCache]
      holders_eq := fun ref => rfl }

/-- A cache root of one policy, from an empty directory on; the two policies have roots of their
own. -/
def deployment (o : Origin) (policy : RetentionPolicy) : System CacheState CacheLabel where
  init s := ∃ options, s = freshCache false (emptyPool options ⟨∅, ∅⟩)
  step s a :=
    match a with
    | .restart options _ => if options.policy = policy then cacheStep o.sha256Hex s a else none
    | _ => cacheStep o.sha256Hex s a

theorem emptyDeployment_invariant (o : Origin) (u : Prop) (options : RangeOptions) :
    CacheInvariant o u (freshCache false (emptyPool options ⟨∅, ∅⟩)) where
  uniform := fun _ k node hn => absurd hn (by simp [freshCache, emptyPool])
  books := emptyPool_books options ⟨∅, ∅⟩
  disk := fun k node hn => absurd hn (by simp [freshCache, emptyPool])
  stored := fun k e hk => absurd hk (by simp [freshCache, emptyPool])
  handles := by simp [freshCache]
  fetchers := by simp [freshCache]
  prefetchers := by simp [freshCache]
  readers := by simp [freshCache]
  holders_eq := fun ref => rfl

/-- What a step of a deployment is: a restart, or a step of the running process. -/
theorem deployment_step_cases {o : Origin} {policy : RetentionPolicy} {s t : CacheState}
    {a : CacheLabel} (h : (deployment o policy).step s a = some t) :
    (∃ options fails, a = .restart options fails ∧ t = restartCache s options fails) ∨
      (isRestart a = false ∧ cacheStep o.sha256Hex s a = some t) := by
  cases a with
  | restart options fails =>
    simp only [deployment] at h
    split at h
    · exact Or.inl ⟨options, fails, rfl, (Option.some.inj h).symm⟩
    · cases h
  | _ => exact Or.inr ⟨rfl, h⟩

/-- The chunk that a reader holds has the bytes of the reader's range, at full length, so reading it
fails only if the file system does. -/
def HeldChunksRight (o : Origin) (s : CacheState) : Prop :=
  ∀ id r h entry, s.readers.lookup id = some r → s.handles.lookup r.handle = some h →
    r.phase = .holding entry → ∃ c node, o.content h.backing h.validator = some c ∧
      s.pool.disk.files.lookup entry.path = some node ∧
      node.content = slice c (readerChunkIndex s.pool.shared.options.chunkBytes r *
        s.pool.shared.options.chunkBytes) (chunkLength s.pool.shared.options.chunkBytes h.size
          (readerChunkIndex s.pool.shared.options.chunkBytes r)) ∧
      (readChunk s.pool.disk entry.path (readerCopyLength s.pool.shared.options.chunkBytes h r)
        (readerWithinChunk s.pool.shared.options.chunkBytes r) none).2 = false

/-- What reads should be able to rely on across restarts. -/
def RestartSafe (o : Origin) (s : CacheState) : Prop :=
  HeldChunksRight o s ∧ ReadsRight o s

theorem CacheInvariant.restartSafe {o : Origin} {u : Prop} {s : CacheState}
    (hinv : CacheInvariant o u s) : RestartSafe o s := by
  refine ⟨fun id r h entry hr hh hphase => ?_, hinv.readsRight⟩
  obtain ⟨c, hc, hsize, hright⟩ := hinv.reader hr hh
  simp only [ReaderPhaseRight, hphase] at hright
  obtain ⟨hcopy, hold⟩ := hright
  obtain ⟨node, hnode, hcontent⟩ := hold.file
  refine ⟨c, node, hc, by rw [hold.path_eq, hnode], ?_, hold.readChunk_full hcopy hsize⟩
  rw [hcontent, slice_clip, chunkLength, hsize]

/-- The provider answers are exact, and the chunks that reads find are compatible. -/
def CompatibleLabel (o : Origin) (s : CacheState) (a : CacheLabel) : Prop :=
  Faithful o s a ∧ CompatibleHits o s a

/-- In every run over any number of restarts with any admitted options in which reads find only
chunks written with a compatible chunk size, held chunks and finished reads are right. -/
theorem restart_reads_correct {o : Origin} (ho : o.CollisionFree) {policy : RetentionPolicy}
    {s : CacheState} (h : (deployment o policy).ReachableBy (CompatibleLabel o) s) :
    RestartSafe o s := by
  have hinv : CacheInvariant o False s := by
    refine h.invariant ?_ ?_
    · rintro s ⟨options, rfl⟩
      exact emptyDeployment_invariant o False options
    · intro s a t hinv hp hstep
      rcases deployment_step_cases hstep with ⟨options, fails, -, rfl⟩ | ⟨hrun, hstep⟩
      · exact restart_invariant hinv options fails fun hu => hu.elim
      · exact cacheStep_invariant ho hinv hrun hp.1 hp.2 hstep
  exact hinv.restartSafe

/-! ## Two runs -/

instance (o : Origin) (s : CacheState) : (a : CacheLabel) → Decidable (CompatibleHits o s a)
  | .acquire id none _ => inferInstanceAs (Decidable (∀ r ∈ s.readers.lookup id,
      ∀ h ∈ s.handles.lookup r.handle, ∀ node ∈ s.pool.disk.files.lookup
        (chunkPath (readerKey o.sha256Hex s.pool.shared.options.chunkBytes h r)),
      (s.pool.shared.chunks.lookup
        (readerKey o.sha256Hex s.pool.shared.options.chunkBytes h r)).isSome →
      CompatibleChunk node.writtenWith s.pool.shared.options.chunkBytes
        (readerChunkIndex s.pool.shared.options.chunkBytes r) h.size))
  | .acquire _ (some _) _ | .openHandle _ _ _ _ _ | .markClosed _ | .stopReadAhead _
  | .read _ _ _ _ | .start _ _ | .begin _ | .wake _ _ | .unpark _ _ | .readFile _ _ | .release _
  | .finish _ | .schedule _ _ | .direct _ _ | .prefetch _ _ _ | .prefetchOpen _ _ _
  | .prefetchSchedule _ _ | .fetchOpen _ _ _ _ | .fetchCreate _ _ _ | .fetchRead _ _ _
  | .fetchWrite _ _ _ | .fetchRename _ _ _ _ | .fetchSeal _ _ _ | .fetchClose _ _ _
  | .fetchComplete _ | .shutdown | .restart _ _ => .isTrue trivial

instance (o : Origin) (s : CacheState) (a : CacheLabel) : Decidable (CompatibleLabel o s a) :=
  inferInstanceAs (Decidable (_ ∧ _))

/-- A pool of two chunks of eight bytes. -/
def wideOptions : RangeOptions where
  policy := .rolling
  maxBytes := 16
  chunkBytes := 8
  readAheadChunks := 0
  nextEpisodePrefetchChunks := 0
  chunkBytes_pos := by decide
  chunkBytes_le := fun _ => by decide

/-- Open the object, and read two bytes of its second four-byte chunk, which is fetched for it. -/
def fetchSecondChunk : List CacheLabel :=
  [.openHandle 0 ⟨"torbox", "7:1"⟩ 10 (.source 10 "v1") [], .read 0 0 4 2, .start 0 none, .begin 0,
    .acquire 0 none []] ++ fetchLabels 0 "1" [4, 5, 6, 7]

/-- Restart, and read `length` bytes at `offset` from a chunk that recovery has found. -/
def readRecovered (options : RangeOptions) (offset : ℤ) (length : ℕ) : List CacheLabel :=
  [.restart options [], .openHandle 0 ⟨"torbox", "7:1"⟩ 10 (.source 10 "v1") [],
    .read 0 0 offset length, .start 0 none, .begin 0, .acquire 0 none [], .readFile 0 none,
    .release 0, .finish 0, .schedule 0 []]

theorem emptyDeployment_init (o : Origin) (policy : RetentionPolicy) (options : RangeOptions) :
    (deployment o policy).init (freshCache false (emptyPool options ⟨∅, ∅⟩)) :=
  ⟨options, rfl⟩

theorem restart_reads_correct_small : ∃ s r,
    (deployment smallOrigin .rolling).runChecked (CompatibleLabel smallOrigin)
      (freshCache false (emptyPool smallOptions ⟨∅, ∅⟩))
      (.restart smallOptions [] :: fetchSecondChunk ++ readRecovered smallOptions 5 2) = some s ∧
    s.readers.lookup 0 = some r ∧ r.buffer = [5, 6] ∧ RestartSafe smallOrigin s := by
  obtain ⟨s, hs⟩ : ∃ s, (deployment smallOrigin .rolling).runChecked (CompatibleLabel smallOrigin)
      (freshCache false (emptyPool smallOptions ⟨∅, ∅⟩))
      (.restart smallOptions [] :: fetchSecondChunk ++ readRecovered smallOptions 5 2) = some s :=
    Option.isSome_iff_exists.1 (by decide +kernel)
  have hvalues : ((deployment smallOrigin .rolling).runChecked (CompatibleLabel smallOrigin)
      (freshCache false (emptyPool smallOptions ⟨∅, ∅⟩))
      (.restart smallOptions [] :: fetchSecondChunk ++ readRecovered smallOptions 5 2)).bind
        (fun s => (s.readers.lookup 0).map Reader.buffer) = some [5, 6] := by
    decide +kernel
  rw [hs, Option.bind_some, Option.map_eq_some_iff] at hvalues
  obtain ⟨r, hr, hbuffer⟩ := hvalues
  exact ⟨s, r, hs, hr, hbuffer, restart_reads_correct smallOrigin_collisionFree
    (System.ReachableBy.reaches (.init (emptyDeployment_init smallOrigin .rolling smallOptions))
      (System.reachesBy_of_runChecked hs))⟩

/-- A second chunk of four bytes is read as the second chunk of eight bytes after a restart: the
read of bytes 8 and 9 succeeds with bytes 4 and 5. -/
theorem restart_reads_wrong : ¬ ∀ (o : Origin), o.CollisionFree → ∀ (policy : RetentionPolicy)
    (s : CacheState), (deployment o policy).ReachableBy (Faithful o) s → RestartSafe o s := by
  intro hclaim
  obtain ⟨s, hs⟩ : ∃ s, (deployment smallOrigin .rolling).runChecked (Faithful smallOrigin)
      (freshCache false (emptyPool smallOptions ⟨∅, ∅⟩))
      (.restart smallOptions [] :: fetchSecondChunk ++ readRecovered wideOptions 8 2) = some s :=
    Option.isSome_iff_exists.1 (by decide +kernel)
  have hvalues : ((deployment smallOrigin .rolling).runChecked (Faithful smallOrigin)
      (freshCache false (emptyPool smallOptions ⟨∅, ∅⟩))
      (.restart smallOptions [] :: fetchSecondChunk ++ readRecovered wideOptions 8 2)).bind
        (fun s => (s.readers.lookup 0).bind fun r => (s.handles.lookup r.handle).map fun h =>
          ((r.phase, r.buffer), (r.offset, r.length), (h.backing, h.validator, h.size))) =
      some ((.done none, [4, 5]), (8, 2), (⟨"torbox", "7:1"⟩, "v1", 10)) := by
    decide +kernel
  simp only [hs, Option.bind_some, Option.bind_eq_some_iff, Option.map_eq_some_iff,
    Prod.mk.injEq] at hvalues
  obtain ⟨r, hr, h, hh, ⟨hphase, hbuffer⟩, ⟨hoffset, hlength⟩, hbacking, hvalidator, hsize⟩ := hvalues
  obtain ⟨c, hc, -, hread⟩ := (hclaim smallOrigin smallOrigin_collisionFree .rolling s
    (System.ReachableBy.reaches (.init (emptyDeployment_init smallOrigin .rolling smallOptions))
      (System.reachesBy_of_runChecked hs))).2 0 r h none hr hh hphase (by omega) (by omega)
  rw [hbacking, hvalidator] at hc
  obtain rfl : [0, 1, 2, 3, 4, 5, 6, 7, 8, 9] = c := Option.some.inj hc
  rw [hoffset, hlength, hbuffer] at hread
  exact absurd hread.2.1 (by decide)

end BlackPearl.Cache
