import BlackPearl.Cache.FetchSections

/-!
# What a fetch leaves behind

The files below the cache root over a run in which every removal that a fetch asks for succeeds:
each chunk file is indexed or has just been published by a fetch that is about to return its entry,
and each temporary file belongs to a fetch that is working on it. So a fetch that returns no entry
leaves no file (`fetches_clean`). What it publishes is what one of its sources, of the requested size
and validator, has delivered: `Logged` remembers the answers.
-/

set_option autoImplicit false

namespace BlackPearl.Cache

open BlackPearl.Library BlackPearl.Domain

/-! ## The log of a run -/

/-- A process with its labels so far, the last one first. -/
structure Logged where
  cache : CacheState
  log : List CacheLabel

/-- What the opener has returned to the fetch `id` in a step. -/
def openOf (id : ℕ) : CacheLabel → Option OpenOutcome
  | .fetchOpen id' outcome _ _ => if id' = id then some outcome else none
  | _ => none

/-- What the opener has last returned to the fetch `id`. -/
def lastOpened (id : ℕ) (log : List CacheLabel) : Option OpenOutcome := log.findSome? (openOf id)

/-- The fetch `id` has read `bytes`, as many as it expects, from a source that it had opened with the
requested size and validator. -/
def Delivered (log : List CacheLabel) (id : ℕ) (f : Fetcher) (bytes : List UInt8) : Prop :=
  bytes.length = f.call.expected ∧ ∃ err removed earlier,
    (.fetchRead id ⟨bytes, err⟩ removed :: earlier) <:+ log ∧
    lastOpened id earlier = some (.source f.logicalSize f.validator)

/-- The fetch `id` has been given a source of another size or with another validator. -/
def Changed (log : List CacheLabel) (id : ℕ) (f : Fetcher) : Prop :=
  ∃ a ∈ log, ∃ size validator, openOf id a = some (.source size validator) ∧
    (size ≠ f.logicalSize ∨ validator ≠ f.validator)

/-- The lifetime of one pool, over the files that an earlier one has left. -/
def fetchRun (sha256Hex : String → String) (options : RangeOptions) : System Logged CacheLabel where
  init t := ∃ d fails pool, d.Listed ∧ (recoverChunks options d fails).2 = .ok pool ∧
    t = ⟨freshCache true pool, []⟩
  step t a := ((poolLifetime sha256Hex options).step t.cache a).map fun s => ⟨s, a :: t.log⟩

/-- Whether the `os.Remove` that a fetch may call in a step succeeds. -/
def removeSucceeds : CacheLabel → Bool
  | .fetchRead _ _ removed | .fetchWrite _ _ removed | .fetchRename _ _ removed _
  | .fetchSeal _ _ removed => removed
  | _ => true

/-- Every `os.Remove` of a fetch succeeds. -/
def Removes (_ : Logged) (a : CacheLabel) : Prop := removeSucceeds a = true

instance (t : Logged) (a : CacheLabel) : Decidable (Removes t a) := inferInstanceAs (Decidable (_ = _))

section Log

variable {log : List CacheLabel} {a : CacheLabel} {id : ℕ} {f : Fetcher}

theorem openOf_of_actor (h : actor a ≠ .fetcher id) : openOf id a = none := by
  cases a <;> simp_all [openOf, actor]

theorem lastOpened_cons (h : openOf id a = none) : lastOpened id (a :: log) = lastOpened id log := by
  simp [lastOpened, h]

theorem Delivered.cons {bytes : List UInt8} (h : Delivered log id f bytes) :
    Delivered (a :: log) id f bytes := by
  obtain ⟨hlen, err, removed, earlier, hsuffix, hopened⟩ := h
  exact ⟨hlen, err, removed, earlier, hsuffix.trans (List.suffix_cons a log), hopened⟩

theorem Changed.of_cons (ha : openOf id a = none) (h : Changed (a :: log) id f) :
    Changed log id f := by
  obtain ⟨b, hb, size, validator, hopen, hne⟩ := h
  rcases List.mem_cons.1 hb with rfl | hb
  · rw [ha] at hopen
    cases hopen
  · exact ⟨b, hb, size, validator, hopen, hne⟩

end Log

/-! ## The state of a fetch -/

/-- The attempt has a source. -/
def FetchPhase.sourced : FetchPhase → Bool
  | .creating | .reading _ => true
  | _ => false

/-- The bytes that the attempt has read. -/
def FetchPhase.buffer : FetchPhase → Option (List UInt8)
  | .writing _ buffer | .renaming _ buffer => some buffer
  | _ => none

/-- The chunk file is in place. -/
def FetchPhase.published : FetchPhase → Bool
  | .sealing | .closing true _ | .returned true _ => true
  | _ => false

/-- A fetch agrees with the log and with the files. -/
structure FetchRight (d : Disk) (log : List CacheLabel) (id : ℕ) (f : Fetcher) : Prop where
  sourced : f.phase.sourced = true → lastOpened id log = some (.source f.logicalSize f.validator)
  buffer : ∀ bytes, f.phase.buffer = some bytes → Delivered log id f bytes
  published : f.phase.published = true →
    ∃ node, d.files.lookup (chunkPath f.key) = some node ∧ Delivered log id f node.content
  changed : Changed log id f → ∃ e, f.phase = .returned false (some e)

/-- Between two sections, chunk files are indexed or just published, and temporary files belong to
fetches. -/
structure Clean (t : Logged) : Prop where
  attached : Attached t.cache
  below : FetchersBelow t.cache
  logged : ∀ a ∈ t.log, ∀ id, actor a = .fetcher id → id < t.cache.pool.nextCall
  chunkFiles : ∀ k node, t.cache.pool.disk.files.lookup (chunkPath k) = some node →
    (t.cache.pool.shared.chunks.lookup k).isSome ∨
      ∃ id f, t.cache.fetchers.lookup id = some f ∧ f.key = k ∧ f.phase.published = true
  temporaries : ∀ path node, isFetchTemporary path.name = true →
    t.cache.pool.disk.files.lookup path = some node →
    ∃ id f, t.cache.fetchers.lookup id = some f ∧ f.phase.temporary = some path
  fetches : ∀ id f, t.cache.fetchers.lookup id = some f →
    FetchRight t.cache.pool.disk t.log id f

section Fetches

variable {d : Disk} {log : List CacheLabel} {a : CacheLabel} {id : ℕ} {f : Fetcher}

/-- A step of somebody else. -/
theorem FetchRight.other (h : FetchRight d log id f) (ha : openOf id a = none) {d' : Disk}
    (hfile : f.phase.published = true →
      d'.files.lookup (chunkPath f.key) = d.files.lookup (chunkPath f.key)) :
    FetchRight d' (a :: log) id f where
  sourced hphase := (lastOpened_cons ha).trans (h.sourced hphase)
  buffer bytes hphase := (h.buffer bytes hphase).cons
  published := by
    intro hphase
    obtain ⟨node, hnode, hbytes⟩ := h.published hphase
    exact ⟨node, (hfile hphase).trans hnode, hbytes.cons⟩
  changed hchanged := h.changed (hchanged.of_cons ha)

/-- A fetch that goes on has not been given a changed source. -/
theorem FetchRight.unchanged (h : FetchRight d log id f) (hphase : ∀ e, f.phase ≠ .returned false e) :
    ¬ Changed log id f := by
  intro hchanged
  obtain ⟨e, he⟩ := h.changed hchanged
  exact hphase (some e) he

/-- A phase that promises nothing. -/
theorem FetchRight.of_bare (hsourced : f.phase.sourced = false) (hbuffer : f.phase.buffer = none)
    (hpublished : f.phase.published = false) (hchanged : ¬ Changed log id f) :
    FetchRight d log id f where
  sourced hphase := absurd (hsourced.symm.trans hphase) (by simp)
  buffer bytes hphase := absurd (hbuffer.symm.trans hphase) (by simp)
  published hphase := absurd (hpublished.symm.trans hphase) (by simp)
  changed h := absurd h hchanged

end Fetches

/-! ## The locked section of `runFetch` -/

/-- The same files, index and accounts. -/
structure SameBooks (p q : PoolState) : Prop where
  disk_eq : q.disk = p.disk
  chunks_eq : q.shared.chunks = p.shared.chunks
  current_eq : q.shared.current = p.shared.current
  reserved_eq : q.shared.reserved = p.shared.reserved
  nextCall_eq : q.nextCall = p.nextCall

theorem recordBackgroundErrorLocked_same (p : PoolState) (kind : BackgroundFetchKind) :
    SameBooks p (recordBackgroundErrorLocked p kind) := by
  cases kind with
  | none => exact ⟨rfl, rfl, rfl, rfl, rfl⟩
  | readAhead => exact ⟨rfl, rfl, rfl, rfl, rfl⟩
  | nextEpisode => exact ⟨rfl, rfl, rfl, rfl, rfl⟩

/-- Beyond `settleFetch` there are only counters and a signal. -/
theorem completeFetch_same (p : PoolState) (key : ChunkKey) (call : FetchCall) (stored : Bool)
    (err : Option FetchError) :
    SameBooks (settleFetch p key call stored err) (completeFetch p key call stored err) := by
  cases err with
  | none => exact ⟨rfl, rfl, rfl, rfl, rfl⟩
  | some e =>
    obtain ⟨hdisk, hchunks, hcurrent, hreserved, hcall⟩ :=
      recordBackgroundErrorLocked_same (settleFetch p key call stored (some e)) call.kind
    exact ⟨hdisk, hchunks, hcurrent, hreserved, hcall⟩

/-! ## Steps of the process -/

section Steps

variable {sha256Hex : String → String} {t : Logged} {s' : CacheState} {a : CacheLabel} {id : ℕ}
  {f : Fetcher}

/-- Nothing is indexed under the key of a fetch. -/
theorem Clean.absent (h : Clean t) (hf : t.cache.fetchers.lookup id = some f) :
    t.cache.pool.shared.chunks.lookup f.key = none :=
  h.attached.books.absent (h.attached.fetchers id f hf).inflight

/-- There is no chunk file under the key of a fetch that has not published it. -/
theorem Clean.no_file (h : Clean t) (hf : t.cache.fetchers.lookup id = some f)
    (hphase : f.phase.published = false) :
    t.cache.pool.disk.files.lookup (chunkPath f.key) = none := by
  cases hnode : t.cache.pool.disk.files.lookup (chunkPath f.key) with
  | none => rfl
  | some node =>
    rcases h.chunkFiles f.key node hnode with hindexed | ⟨id', f', hf', hkey, hphase'⟩
    · rw [h.absent hf] at hindexed
      cases hindexed
    · obtain rfl := h.attached.fetcher_unique hf' hf hkey
      rw [hf] at hf'
      obtain rfl := Option.some.inj hf'
      rw [hphase] at hphase'
      cases hphase'

/-- **Steps that belong to no fetch keep the files clean.** -/
theorem Clean.leaves (h : Clean t) (hattached : Attached s') (hleaves : LeavesFetches t.cache s')
    (hactor : ∀ id, actor a ≠ .fetcher id) : Clean ⟨s', a :: t.log⟩ where
  attached := hattached
  below := by
    intro id f hf
    rcases hleaves.started id f hf with hold | ⟨-, hlt, -⟩
    · exact (h.below id f hold).trans_le hleaves.pool.nextCall_le
    · exact hlt
  logged := by
    intro b hb id hid
    rcases List.mem_cons.1 hb with rfl | hb
    · exact absurd hid (hactor id)
    · exact (h.logged b hb id hid).trans_le hleaves.pool.nextCall_le
  chunkFiles := by
    intro k node hnode
    rcases h.chunkFiles k node (hleaves.pool.files_sub _ _ hnode) with
      hindexed | ⟨id, f, hf, hkey, hphase⟩
    · obtain ⟨e, he⟩ := Option.isSome_iff_exists.1 hindexed
      rcases hleaves.pool.indexed k e he with hkept | hgone
      · exact Or.inl hkept
      · rw [h.attached.books.path_eq k e he] at hgone
        exact absurd (hgone.symm.trans hnode) (by simp)
    · exact Or.inr ⟨id, f, hleaves.kept id f hf, hkey, hphase⟩
  temporaries := by
    intro path node hname hnode
    obtain ⟨id, f, hf, htemp⟩ := h.temporaries path node hname (hleaves.pool.files_sub _ _ hnode)
    exact ⟨id, f, hleaves.kept id f hf, htemp⟩
  fetches := by
    intro id f hf
    rcases hleaves.started id f hf with hold | ⟨hge, -, hphase⟩
    · refine (h.fetches id f hold).other (openOf_of_actor (hactor id)) fun _ => ?_
      apply hleaves.pool.files_kept
      intro k e he hpath
      rw [h.attached.books.path_eq k e he] at hpath
      obtain rfl := chunkPath_injective hpath
      exact absurd ((h.absent hold).symm.trans he) (by simp)
    · refine .of_bare (by rw [hphase]; rfl) (by rw [hphase]; rfl) (by rw [hphase]; rfl) ?_
      -- the log has no step of an address that was free
      rintro ⟨b, hb, size, validator, hopen, -⟩
      have hactorb : actor b = .fetcher id := by
        by_contra hne
        rw [openOf_of_actor hne] at hopen
        cases hopen
      rcases List.mem_cons.1 hb with rfl | hb
      · exact hactor id hactorb
      · have hlt := h.logged b hb id hactorb
        omega

/-- **A fetch goes on.** It touches no chunk file but its own, which is there only once published, and
no temporary file but its own. -/
theorem Clean.goes_on (h : Clean t) (hf : t.cache.fetchers.lookup id = some f)
    (hactor : actor a = .fetcher id) {d : Disk} {f' : Fetcher}
    (hattached : Attached (setFetcher { t.cache with pool := { t.cache.pool with disk := d } } id f'))
    (hkey : f'.key = f.key)
    (hchunk : ∀ k, k ≠ f.key →
      d.files.lookup (chunkPath k) = t.cache.pool.disk.files.lookup (chunkPath k))
    (hown : (d.files.lookup (chunkPath f.key)).isSome → f'.phase.published = true)
    (htemp : ∀ path node, isFetchTemporary path.name = true → d.files.lookup path = some node →
      f'.phase.temporary = some path ∨
        (t.cache.pool.disk.files.lookup path).isSome ∧ f.phase.temporary ≠ some path)
    (hright : FetchRight d (a :: t.log) id f') :
    Clean ⟨setFetcher { t.cache with pool := { t.cache.pool with disk := d } } id f', a :: t.log⟩ where
  attached := hattached
  below := by
    intro id' f'' hf''
    change (t.cache.fetchers.insert id f').lookup id' = some f'' at hf''
    rw [Table.lookup_insert] at hf''
    split at hf''
    · next hid =>
      rw [hid]
      exact h.below id f hf
    · exact h.below id' f'' hf''
  logged := by
    intro b hb id' hid
    rcases List.mem_cons.1 hb with rfl | hb
    · obtain rfl := Actor.fetcher.inj (hactor.symm.trans hid)
      exact h.below id f hf
    · exact h.logged b hb id' hid
  chunkFiles := by
    intro k node hnode
    by_cases hk : k = f.key
    · subst hk
      exact Or.inr ⟨id, f', by simp [setFetcher], hkey,
        hown (Option.isSome_iff_exists.2 ⟨node, hnode⟩)⟩
    · rcases h.chunkFiles k node ((hchunk k hk).symm.trans hnode) with
        hindexed | ⟨id', f'', hf'', hkey', hphase⟩
      · exact Or.inl hindexed
      · have hid : id' ≠ id := by
          rintro rfl
          rw [hf] at hf''
          obtain rfl := Option.some.inj hf''
          exact hk hkey'.symm
        refine Or.inr ⟨id', f'', ?_, hkey', hphase⟩
        show (t.cache.fetchers.insert id f').lookup id' = some f''
        rw [Table.lookup_insert, if_neg hid, hf'']
  temporaries := by
    intro path node hname hnode
    rcases htemp path node hname hnode with hnew | ⟨hold, hne⟩
    · exact ⟨id, f', by simp [setFetcher], hnew⟩
    · obtain ⟨node', hnode'⟩ := Option.isSome_iff_exists.1 hold
      obtain ⟨id', f'', hf'', hphase⟩ := h.temporaries path node' hname hnode'
      have hid : id' ≠ id := by
        rintro rfl
        rw [hf] at hf''
        obtain rfl := Option.some.inj hf''
        exact hne hphase
      refine ⟨id', f'', ?_, hphase⟩
      show (t.cache.fetchers.insert id f').lookup id' = some f''
      rw [Table.lookup_insert, if_neg hid, hf'']
  fetches := by
    intro id' f'' hf''
    change (t.cache.fetchers.insert id f').lookup id' = some f'' at hf''
    rw [Table.lookup_insert] at hf''
    split at hf''
    · next hid =>
      obtain rfl := Option.some.inj hf''
      rw [hid]
      exact hright
    · next hid =>
      have hopen : openOf id' a = none := by
        apply openOf_of_actor
        rw [hactor]
        simpa using fun hid' : id = id' => hid hid'.symm
      refine (h.fetches id' f'' hf'').other hopen fun _ => hchunk f''.key ?_
      intro hkey'
      exact hid (h.attached.fetcher_unique hf'' hf hkey')

/-- A fetch goes on without touching a file, from one phase before publication to another. -/
theorem Clean.goes_on_local (h : Clean t) (hf : t.cache.fetchers.lookup id = some f)
    (hactor : actor a = .fetcher id) {f' : Fetcher} (hattached : Attached (setFetcher t.cache id f'))
    (hkey : f'.key = f.key) (hpublished : f.phase.published = true → f'.phase.published = true)
    (htemporary : ∀ path, f.phase.temporary = some path → f'.phase.temporary = some path)
    (hright : FetchRight t.cache.pool.disk (a :: t.log) id f') :
    Clean ⟨setFetcher t.cache id f', a :: t.log⟩ := by
  refine h.goes_on (d := t.cache.pool.disk) hf hactor hattached hkey (fun _ _ => rfl) ?_ ?_ hright
  · intro hfile
    apply hpublished
    by_contra hphase
    rw [Bool.not_eq_true] at hphase
    rw [h.no_file hf hphase] at hfile
    cases hfile
  · intro path node hname hnode
    by_cases htemp : f.phase.temporary = some path
    · exact Or.inl (htemporary path htemp)
    · exact Or.inr ⟨Option.isSome_iff_exists.2 ⟨node, hnode⟩, htemp⟩

/-- The next attempt, or a return without an entry. -/
theorem Clean.retry (h : Clean t) (hf : t.cache.fetchers.lookup id = some f)
    (hactor : actor a = .fetcher id) {err : FetchError} {expired : Bool}
    (hattached : Attached (setFetcher t.cache id (retryFetch f err expired)))
    (hpublished : f.phase.published = false) (htemporary : f.phase.temporary = none)
    (hchanged : ¬ Changed (a :: t.log) id f) :
    Clean ⟨setFetcher t.cache id (retryFetch f err expired), a :: t.log⟩ := by
  refine h.goes_on_local hf hactor hattached ?_ ?_ ?_ ?_
  · unfold retryFetch
    split <;> rfl
  · intro hphase
    exact absurd (hpublished.symm.trans hphase) (by simp)
  · intro path hpath
    exact absurd (htemporary.symm.trans hpath) (by simp)
  · unfold retryFetch
    split
    · exact .of_bare rfl rfl rfl hchanged
    · exact .of_bare rfl rfl rfl hchanged

/-- An attempt that fails with its file removed. -/
theorem Clean.abandons (h : Clean t) (hf : t.cache.fetchers.lookup id = some f)
    (hactor : actor a = .fetcher id) {path : FilePath} {err : FetchError} (hopen : openOf id a = none)
    (hattached : Attached (setFetcher { t.cache with pool := { t.cache.pool with
      disk := t.cache.pool.disk.remove path } } id { f with phase := .closing false (some err) }))
    (hpath : f.phase.published = true ∧ f.phase.temporary = none ∧ path = chunkPath f.key ∨
      f.phase.published = false ∧ f.phase.temporary = some path ∧ isFetchTemporary path.name = true)
    (hphase : ∀ e, f.phase ≠ .returned false e) :
    Clean ⟨setFetcher { t.cache with pool := { t.cache.pool with
      disk := t.cache.pool.disk.remove path } } id { f with phase := .closing false (some err) },
      a :: t.log⟩ := by
  have hunchanged := (h.fetches id f hf).unchanged hphase
  refine h.goes_on hf hactor hattached rfl ?_ ?_ ?_
    (.of_bare rfl rfl rfl fun hchanged => hunchanged (hchanged.of_cons hopen))
  · intro k hk
    rw [Disk.lookup_remove, if_neg]
    rcases hpath with ⟨-, -, rfl⟩ | ⟨-, -, hname⟩
    · exact fun heq => hk (chunkPath_injective heq)
    · exact chunkPath_ne_temporary hname
  · intro hfile
    rw [Disk.lookup_remove] at hfile
    rcases hpath with ⟨-, -, rfl⟩ | ⟨hpublished, -, hname⟩
    · rw [if_pos rfl] at hfile
      cases hfile
    · rw [if_neg (chunkPath_ne_temporary hname), h.no_file hf hpublished] at hfile
      cases hfile
  · intro path' node hname' hnode
    rw [Disk.lookup_remove] at hnode
    split at hnode
    · cases hnode
    · next hne =>
      refine Or.inr ⟨Option.isSome_iff_exists.2 ⟨node, hnode⟩, ?_⟩
      rcases hpath with ⟨-, htemp, -⟩ | ⟨-, htemp, -⟩
      · rw [htemp]
        simp
      · rw [htemp]
        simpa using fun heq : path = path' => hne heq.symm

theorem fetchOpen_clean (h : Clean t) (hf : t.cache.fetchers.lookup id = some f)
    {outcome : OpenOutcome} {closeErr : Option FetchError} {expired : Bool} (hattached : Attached s')
    (hstep : stepFetcher t.cache id f (.fetchOpen id outcome closeErr expired) = some s') :
    Clean ⟨s', .fetchOpen id outcome closeErr expired :: t.log⟩ := by
  simp only [stepFetcher] at hstep
  split at hstep
  · next hphase =>
    cases hstep
    have hunchanged : ¬ Changed t.log id f :=
      (h.fetches id f hf).unchanged (by simp [hphase])
    have hopened : openOf id (.fetchOpen id outcome closeErr expired) = some outcome := by
      simp [openOf]
    have hbefore : f.phase.published = false := by rw [hphase]; rfl
    have hnone : f.phase.temporary = none := by rw [hphase]; rfl
    cases outcome with
    | failed e =>
      refine h.retry hf rfl hattached hbefore hnone ?_
      rintro ⟨b, hb, size, validator, hopen, hne⟩
      rcases List.mem_cons.1 hb with rfl | hb
      · rw [hopened] at hopen
        cases hopen
      · exact hunchanged ⟨b, hb, size, validator, hopen, hne⟩
    | source size validator =>
      simp only [openFetch] at hattached ⊢
      split at hattached
      · next hne =>
        rw [if_pos hne]
        -- the source has changed: no entry, and no other attempt
        refine h.goes_on_local hf rfl hattached rfl ?_ ?_ ?_
        · intro hpublished
          exact absurd (hbefore.symm.trans hpublished) (by simp)
        · intro path hpath
          exact absurd (hnone.symm.trans hpath) (by simp)
        · refine ⟨fun hbad => absurd hbad (by simp [FetchPhase.sourced]),
            fun bytes hbad => absurd hbad (by simp [FetchPhase.buffer]),
            fun hbad => absurd hbad (by simp [FetchPhase.published]), fun _ => ?_⟩
          cases closeErr with
          | none => exact ⟨.other, rfl⟩
          | some e =>
            cases e with
            | canceled => exact ⟨.canceled, rfl⟩
            | other => exact ⟨.other, rfl⟩
      · next heq =>
        rw [if_neg heq]
        push Not at heq
        obtain ⟨rfl, rfl⟩ := heq
        refine h.goes_on_local hf rfl hattached rfl ?_ ?_ ?_
        · intro hpublished
          exact absurd (hbefore.symm.trans hpublished) (by simp)
        · intro path hpath
          exact absurd (hnone.symm.trans hpath) (by simp)
        · refine ⟨fun _ => by simp [lastOpened, hopened],
            fun bytes hbad => absurd hbad (by simp [FetchPhase.buffer]),
            fun hbad => absurd hbad (by simp [FetchPhase.published]), ?_⟩
          rintro ⟨b, hb, size, validator, hopen, hne⟩
          rcases List.mem_cons.1 hb with rfl | hb
          · rw [hopened] at hopen
            cases hopen
            exact absurd hne (by simp)
          · exact absurd ⟨b, hb, size, validator, hopen, hne⟩ hunchanged
  · cases hstep

theorem fetchCreate_clean (h : Clean t) (hf : t.cache.fetchers.lookup id = some f) {made : Bool}
    {suffix : Option String} (hattached : Attached s')
    (hstep : stepFetcher t.cache id f (.fetchCreate id made suffix) = some s') :
    Clean ⟨s', .fetchCreate id made suffix :: t.log⟩ := by
  simp only [stepFetcher] at hstep
  split at hstep
  · next hphase =>
    have hunchanged := (h.fetches id f hf).unchanged (by simp [hphase])
    have hopened := (h.fetches id f hf).sourced (by rw [hphase]; rfl)
    have habsent := h.no_file hf (by rw [hphase]; rfl)
    have hfiles : (if made = true then t.cache.pool.disk.mkdir f.key.object
        else t.cache.pool.disk).files = t.cache.pool.disk.files := by
      split <;> rfl
    cases suffix with
    | none =>
      cases hstep
      refine h.goes_on hf rfl hattached rfl ?_ ?_ ?_
        (.of_bare rfl rfl rfl fun hchanged => hunchanged (hchanged.of_cons rfl))
      · intro k _
        rw [hfiles]
      · intro hfile
        rw [hfiles, habsent] at hfile
        cases hfile
      · intro path node _ hnode
        rw [hfiles] at hnode
        refine Or.inr ⟨Option.isSome_iff_exists.2 ⟨node, hnode⟩, ?_⟩
        rw [hphase]
        simp [FetchPhase.temporary]
    | some suffix =>
      have htemp := isFetchTemporary_prefix suffix
      simp only at hstep
      split at hstep
      · cases hstep
      · cases hstep
        refine h.goes_on hf rfl hattached rfl ?_ ?_ ?_
          ⟨fun _ => (lastOpened_cons rfl).trans hopened,
            fun bytes hbad => absurd hbad (by simp [FetchPhase.buffer]),
            fun hbad => absurd hbad (by simp [FetchPhase.published]),
            fun hchanged => absurd (hchanged.of_cons rfl) hunchanged⟩
        · intro k _
          rw [Disk.lookup_write, if_neg (chunkPath_ne_temporary htemp), hfiles]
        · intro hfile
          rw [Disk.lookup_write, if_neg (chunkPath_ne_temporary htemp), hfiles, habsent] at hfile
          cases hfile
        · intro path node _ hnode
          rw [Disk.lookup_write] at hnode
          split at hnode
          · next heq => exact Or.inl (congrArg some heq.symm)
          · rw [hfiles] at hnode
            refine Or.inr ⟨Option.isSome_iff_exists.2 ⟨node, hnode⟩, ?_⟩
            rw [hphase]
            simp [FetchPhase.temporary]
  · cases hstep

theorem fetchRead_clean (h : Clean t) (hf : t.cache.fetchers.lookup id = some f) {result : RangeRead}
    (hattached : Attached s') (hstep : stepFetcher t.cache id f (.fetchRead id result true) = some s') :
    Clean ⟨s', .fetchRead id result true :: t.log⟩ := by
  have hname := (h.attached.fetchers id f hf).temporary
  simp only [stepFetcher] at hstep
  split at hstep
  · next temporary hphase =>
    have hunchanged := (h.fetches id f hf).unchanged (by simp [hphase])
    have hopened := (h.fetches id f hf).sourced (by rw [hphase]; rfl)
    have htemp : f.phase.temporary = some temporary := by rw [hphase]; rfl
    have hbefore : f.phase.published = false := by rw [hphase]; rfl
    split at hstep
    · cases hstep
      exact h.abandons hf rfl rfl hattached (Or.inr ⟨hbefore, htemp, hname _ htemp⟩) (by simp [hphase])
    · next hread =>
      cases hstep
      have hlen : result.bytes.length = f.call.expected := by
        unfold fetchReadError at hread
        split at hread
        · cases hread
        · split at hread
          · assumption
          · cases hread
      refine h.goes_on_local hf rfl hattached rfl ?_ ?_ ?_
      · intro hpublished
        exact absurd (hbefore.symm.trans hpublished) (by simp)
      · intro path hpath
        exact htemp.symm.trans hpath
      · refine ⟨fun hbad => absurd hbad (by simp [FetchPhase.sourced]), ?_,
          fun hbad => absurd hbad (by simp [FetchPhase.published]),
          fun hchanged => absurd (hchanged.of_cons rfl) hunchanged⟩
        intro bytes hbytes
        obtain rfl := Option.some.inj hbytes
        exact ⟨hlen, result.err, true, t.log, List.suffix_rfl, hopened⟩
  · cases hstep

theorem fetchWrite_clean (h : Clean t) (hf : t.cache.fetchers.lookup id = some f) {ok : Bool}
    (hattached : Attached s') (hstep : stepFetcher t.cache id f (.fetchWrite id ok true) = some s') :
    Clean ⟨s', .fetchWrite id ok true :: t.log⟩ := by
  have hname := (h.attached.fetchers id f hf).temporary
  simp only [stepFetcher] at hstep
  split at hstep
  · next temporary buffer hphase =>
    have hunchanged := (h.fetches id f hf).unchanged (by simp [hphase])
    have hbytes := (h.fetches id f hf).buffer buffer (by rw [hphase]; rfl)
    have htemp : f.phase.temporary = some temporary := by rw [hphase]; rfl
    have hbefore : f.phase.published = false := by rw [hphase]; rfl
    have hfetch := hname _ htemp
    split at hstep
    · cases hstep
      refine h.goes_on hf rfl hattached rfl ?_ ?_ ?_
        ⟨fun hbad => absurd hbad (by simp [FetchPhase.sourced]), ?_,
          fun hbad => absurd hbad (by simp [FetchPhase.published]),
          fun hchanged => absurd (hchanged.of_cons rfl) hunchanged⟩
      · intro k _
        rw [Disk.lookup_write, if_neg (chunkPath_ne_temporary hfetch)]
      · intro hfile
        rw [Disk.lookup_write, if_neg (chunkPath_ne_temporary hfetch), h.no_file hf hbefore] at hfile
        cases hfile
      · intro path node _ hnode
        rw [Disk.lookup_write] at hnode
        split at hnode
        · next heq => exact Or.inl (congrArg some heq.symm)
        · next hne =>
          refine Or.inr ⟨Option.isSome_iff_exists.2 ⟨node, hnode⟩, ?_⟩
          rw [htemp]
          simpa using fun heq : temporary = path => hne heq.symm
      · intro bytes hbuffer
        obtain rfl := Option.some.inj hbuffer
        exact hbytes.cons
    · cases hstep
      exact h.abandons hf rfl rfl hattached (Or.inr ⟨hbefore, htemp, hfetch⟩) (by simp [hphase])
  · cases hstep

theorem fetchRename_clean (h : Clean t) (hf : t.cache.fetchers.lookup id = some f) {ok : Bool}
    {modified : ℤ} (hattached : Attached s')
    (hstep : stepFetcher t.cache id f (.fetchRename id ok true modified) = some s') :
    Clean ⟨s', .fetchRename id ok true modified :: t.log⟩ := by
  have hname := (h.attached.fetchers id f hf).temporary
  simp only [stepFetcher] at hstep
  split at hstep
  · next temporary buffer hphase =>
    have hunchanged := (h.fetches id f hf).unchanged (by simp [hphase])
    have hbytes := (h.fetches id f hf).buffer buffer (by rw [hphase]; rfl)
    have htemp : f.phase.temporary = some temporary := by rw [hphase]; rfl
    have hbefore : f.phase.published = false := by rw [hphase]; rfl
    have hfetch := hname _ htemp
    split at hstep
    · cases hstep
      refine h.goes_on hf rfl hattached rfl ?_ (fun _ => rfl) ?_
        ⟨fun hbad => absurd hbad (by simp [FetchPhase.sourced]),
          fun bytes hbad => absurd hbad (by simp [FetchPhase.buffer]), fun _ => ?_,
          fun hchanged => absurd (hchanged.of_cons rfl) hunchanged⟩
      · intro k hk
        rw [Disk.lookup_write, if_neg (fun heq => hk (chunkPath_injective heq)), Disk.lookup_remove,
          if_neg (chunkPath_ne_temporary hfetch)]
      · intro path node hname' hnode
        rw [Disk.lookup_write, if_neg (fun heq => chunkPath_ne_temporary hname' heq.symm),
          Disk.lookup_remove] at hnode
        split at hnode
        · cases hnode
        · next hne =>
          refine Or.inr ⟨Option.isSome_iff_exists.2 ⟨node, hnode⟩, ?_⟩
          rw [htemp]
          simpa using fun heq : temporary = path => hne heq.symm
      · refine ⟨⟨.regular, buffer, modified, t.cache.pool.shared.options.chunkBytes⟩, ?_, hbytes.cons⟩
        rw [Disk.lookup_write, if_pos rfl]
    · cases hstep
      exact h.abandons hf rfl rfl hattached (Or.inr ⟨hbefore, htemp, hfetch⟩) (by simp [hphase])
  · cases hstep

theorem fetchSeal_clean (h : Clean t) (hf : t.cache.fetchers.lookup id = some f) {ok : Bool}
    (hattached : Attached s') (hstep : stepFetcher t.cache id f (.fetchSeal id ok true) = some s') :
    Clean ⟨s', .fetchSeal id ok true :: t.log⟩ := by
  simp only [stepFetcher] at hstep
  split at hstep
  · next hphase =>
    have hunchanged := (h.fetches id f hf).unchanged (by simp [hphase])
    have hafter : f.phase.published = true := by rw [hphase]; rfl
    have hnone : f.phase.temporary = none := by rw [hphase]; rfl
    obtain ⟨node, hnode, hbytes⟩ := (h.fetches id f hf).published hafter
    split at hstep
    · cases hstep
      refine h.goes_on_local hf rfl hattached rfl (fun _ => rfl) ?_
        ⟨fun hbad => absurd hbad (by simp [FetchPhase.sourced]),
          fun bytes hbad => absurd hbad (by simp [FetchPhase.buffer]),
          fun _ => ⟨node, hnode, hbytes.cons⟩,
          fun hchanged => absurd (hchanged.of_cons rfl) hunchanged⟩
      intro path hpath
      exact absurd (hnone.symm.trans hpath) (by simp)
    · cases hstep
      exact h.abandons hf rfl rfl hattached (Or.inl ⟨hafter, hnone, rfl⟩) (by simp [hphase])
  · cases hstep

theorem fetchClose_clean (h : Clean t) (hf : t.cache.fetchers.lookup id = some f)
    {closeErr : Option FetchError} {expired : Bool} (hattached : Attached s')
    (hstep : stepFetcher t.cache id f (.fetchClose id closeErr expired) = some s') :
    Clean ⟨s', .fetchClose id closeErr expired :: t.log⟩ := by
  simp only [stepFetcher] at hstep
  split at hstep
  · next stored err hphase =>
    cases hstep
    have hunchanged := (h.fetches id f hf).unchanged (by simp [hphase])
    have hnone : f.phase.temporary = none := by rw [hphase]; rfl
    have hlog : ¬ Changed (.fetchClose id closeErr expired :: t.log) id f :=
      fun hchanged => hunchanged (hchanged.of_cons rfl)
    cases stored with
    | false =>
      have hbefore : f.phase.published = false := by rw [hphase]; rfl
      unfold closeFetch at hattached ⊢
      split
      · next hjoin =>
        rw [hjoin] at hattached
        refine h.goes_on_local hf rfl hattached rfl ?_ ?_ (.of_bare rfl rfl rfl hlog)
        · intro hpublished
          exact absurd (hbefore.symm.trans hpublished) (by simp)
        · intro path hpath
          exact absurd (hnone.symm.trans hpath) (by simp)
      · next e hjoin =>
        rw [hjoin] at hattached
        exact h.retry hf rfl hattached hbefore hnone hlog
    | true =>
      have hafter : f.phase.published = true := by rw [hphase]; rfl
      obtain ⟨node, hnode, hbytes⟩ := (h.fetches id f hf).published hafter
      have hreturned : closeFetch f true err closeErr expired =
          { f with phase := .returned true (joinErrors err closeErr) } := by
        unfold closeFetch
        split
        · next hjoin => rw [hjoin]
        · next e hjoin => rw [hjoin, if_pos rfl]
      rw [hreturned] at hattached ⊢
      refine h.goes_on_local hf rfl hattached rfl (fun _ => rfl) ?_
        ⟨fun hbad => absurd hbad (by simp [FetchPhase.sourced]),
          fun bytes hbad => absurd hbad (by simp [FetchPhase.buffer]),
          fun _ => ⟨node, hnode, hbytes.cons⟩, fun hchanged => absurd hchanged hlog⟩
      intro path hpath
      exact absurd (hnone.symm.trans hpath) (by simp)
  · cases hstep

theorem fetchComplete_clean (h : Clean t) (hf : t.cache.fetchers.lookup id = some f)
    (hattached : Attached s') (hstep : stepFetcher t.cache id f (.fetchComplete id) = some s') :
    Clean ⟨s', .fetchComplete id :: t.log⟩ := by
  simp only [stepFetcher] at hstep
  split at hstep
  · next stored err hphase =>
    cases hstep
    have hsame := completeFetch_same t.cache.pool f.key f.call stored err
    have hdisk := hsame.disk_eq.trans (settleFetch_disk _ _ _ _ _)
    have hcall : (completeFetch t.cache.pool f.key f.call stored err).nextCall =
        t.cache.pool.nextCall := hsame.nextCall_eq.trans (by cases stored <;> rfl)
    have hkept : ∀ id' f', (t.cache.fetchers.erase id).lookup id' = some f' →
        id' ≠ id ∧ t.cache.fetchers.lookup id' = some f' := by
      intro id' f' hf'
      rw [Table.lookup_erase] at hf'
      split at hf'
      · cases hf'
      · next hid => exact ⟨hid, hf'⟩
    have hrest : ∀ id' f', id' ≠ id → t.cache.fetchers.lookup id' = some f' →
        (t.cache.fetchers.erase id).lookup id' = some f' := by
      intro id' f' hid hf'
      rw [Table.lookup_erase, if_neg hid, hf']
    exact {
      attached := hattached
      below := by
        intro id' f' hf'
        exact (h.below id' f' (hkept id' f' hf').2).trans_eq hcall.symm
      logged := by
        intro b hb id' hid
        rcases List.mem_cons.1 hb with rfl | hb
        · obtain rfl := Actor.fetcher.inj hid
          exact (h.below id f hf).trans_eq hcall.symm
        · exact (h.logged b hb id' hid).trans_eq hcall.symm
      chunkFiles := by
        intro k node hnode
        change (completeFetch t.cache.pool f.key f.call stored err).disk.files.lookup _ = _ at hnode
        rw [hdisk] at hnode
        show ((completeFetch t.cache.pool f.key f.call stored err).shared.chunks.lookup k).isSome ∨ _
        rw [hsame.chunks_eq]
        rcases h.chunkFiles k node hnode with hindexed | ⟨id', f', hf', rfl, hphase'⟩
        · have hne : k ≠ f.key := by
            rintro rfl
            rw [h.absent hf] at hindexed
            cases hindexed
          rw [lookup_settleFetch _ _ _ hne]
          exact Or.inl hindexed
        · by_cases hid : id' = id
          · -- the file that this fetch has published is now indexed
            rw [hid, hf] at hf'
            obtain rfl := Option.some.inj hf'
            rw [hphase] at hphase'
            cases stored with
            | false => cases hphase'
            | true =>
              left
              unfold settleFetch storeChunk
              rw [if_pos rfl, lookup_addEntry, if_pos rfl]
              rfl
          · exact Or.inr ⟨id', f', hrest id' f' hid hf', rfl, hphase'⟩
      temporaries := by
        intro path node hname hnode
        change (completeFetch t.cache.pool f.key f.call stored err).disk.files.lookup _ = _ at hnode
        rw [hdisk] at hnode
        obtain ⟨id', f', hf', htemp⟩ := h.temporaries path node hname hnode
        refine ⟨id', f', hrest id' f' ?_ hf', htemp⟩
        rintro rfl
        rw [hf] at hf'
        obtain rfl := Option.some.inj hf'
        rw [hphase] at htemp
        cases htemp
      fetches := by
        intro id' f' hf'
        show FetchRight (completeFetch t.cache.pool f.key f.call stored err).disk _ _ _
        rw [hdisk]
        exact (h.fetches id' f' (hkept id' f' hf').2).other rfl fun _ => rfl }
  · cases hstep

theorem stepFetcher_clean (h : Clean t) (hf : t.cache.fetchers.lookup id = some f)
    (hremoves : Removes t a) (hactor : actor a = .fetcher id) (hattached : Attached s')
    (hstep : stepFetcher t.cache id f a = some s') : Clean ⟨s', a :: t.log⟩ := by
  cases a <;> simp only [actor, Actor.fetcher.injEq, reduceCtorEq] at hactor <;> subst hactor
  case fetchOpen => exact fetchOpen_clean h hf hattached hstep
  case fetchCreate => exact fetchCreate_clean h hf hattached hstep
  case fetchRead result removed =>
    obtain rfl : removed = true := hremoves
    exact fetchRead_clean h hf hattached hstep
  case fetchWrite ok removed =>
    obtain rfl : removed = true := hremoves
    exact fetchWrite_clean h hf hattached hstep
  case fetchRename ok removed modified =>
    obtain rfl : removed = true := hremoves
    exact fetchRename_clean h hf hattached hstep
  case fetchSeal ok removed =>
    obtain rfl : removed = true := hremoves
    exact fetchSeal_clean h hf hattached hstep
  case fetchClose => exact fetchClose_clean h hf hattached hstep
  case fetchComplete => exact fetchComplete_clean h hf hattached hstep

/-- **One step keeps the files clean.** -/
theorem Clean.step (h : Clean t) (hremoves : Removes t a)
    (hrestart : ∀ options fails, a ≠ .restart options fails)
    (hstep : cacheStep sha256Hex t.cache a = some s') : Clean ⟨s', a :: t.log⟩ := by
  have hattached := (cacheStep_move h.attached hrestart hstep).attached h.attached
  rcases cacheStep_fetch_cases h.below hrestart hstep with ⟨id, f, hactor, hf, hfetch⟩ | ⟨hactor, hleaves⟩
  · exact stepFetcher_clean h hf hremoves hactor hattached hfetch
  · exact h.leaves hattached hleaves hactor

end Steps

/-! ## Runs -/

section Runs

variable {sha256Hex : String → String} {options : RangeOptions} {t : Logged} {id : ℕ} {f : Fetcher}

theorem freshCache_clean {d : Disk} {fails : List FilePath} {pool : PoolState} (hd : d.Listed)
    (h : (recoverChunks options d fails).2 = .ok pool) : Clean ⟨freshCache true pool, []⟩ where
  attached := freshCache_attached ⟨d, fails, h⟩
  below id f hf := absurd hf (by simp [freshCache])
  logged a ha := absurd ha (by simp)
  chunkFiles := by
    intro k node hnode
    obtain ⟨k', hpath, hindexed⟩ := recovered_indexed hd h hnode
    rw [chunkPath_injective hpath]
    exact Or.inl hindexed
  temporaries := by
    intro path node hname hnode
    obtain ⟨k, rfl, -⟩ := recovered_indexed hd h hnode
    exact absurd rfl (chunkPath_ne_temporary hname)
  fetches id f hf := absurd hf (by simp [freshCache])

theorem reachable_clean (h : (fetchRun sha256Hex options).ReachableBy Removes t) : Clean t := by
  apply h.invariant
  · rintro t ⟨d, fails, pool, hd, hrec, rfl⟩
    exact freshCache_clean hd hrec
  · intro t a u ht hremoves hstep
    obtain ⟨s', hs', rfl⟩ := Option.map_eq_some_iff.1 hstep
    obtain ⟨hrestart, hcache⟩ := poolLifetime_step hs'
    exact ht.step hremoves hrestart hcache

/-- Every temporary file belongs to a fetch of another key. -/
def OnlyOtherTemporaries (s : CacheState) (f : Fetcher) : Prop :=
  ∀ path node, isFetchTemporary path.name = true → s.pool.disk.files.lookup path = some node →
    ∃ id' f', s.fetchers.lookup id' = some f' ∧ f'.key ≠ f.key ∧ f'.phase.temporary = some path

theorem Clean.onlyOther (h : Clean t) (hf : t.cache.fetchers.lookup id = some f)
    (hphase : f.phase.temporary = none) : OnlyOtherTemporaries t.cache f := by
  intro path node hname hnode
  obtain ⟨id', f', hf', htemp⟩ := h.temporaries path node hname hnode
  refine ⟨id', f', hf', ?_, htemp⟩
  intro hkey
  obtain rfl := h.attached.fetcher_unique hf' hf hkey
  rw [hf] at hf'
  obtain rfl := Option.some.inj hf'
  rw [hphase] at htemp
  cases htemp

/-- A fetch that returns no entry: no file is left, and `runFetch` gives the reservation back and
leaves the index as it is. -/
structure LeavesNothing (s : CacheState) (f : Fetcher) (err : Option FetchError) : Prop where
  chunk : s.pool.disk.files.lookup (chunkPath f.key) = none
  temporary : OnlyOtherTemporaries s f
  disk_eq : (completeFetch s.pool f.key f.call false err).disk = s.pool.disk
  reserved_eq : (completeFetch s.pool f.key f.call false err).shared.reserved =
    s.pool.shared.reserved - f.call.expected
  current_eq : (completeFetch s.pool f.key f.call false err).shared.current = s.pool.shared.current
  chunks_eq : (completeFetch s.pool f.key f.call false err).shared.chunks = s.pool.shared.chunks

/-- A fetch that returns an entry: the file holds what a source of the requested size and validator
has delivered, and `runFetch` publishes an entry of that size. -/
structure Publishes (t : Logged) (id : ℕ) (f : Fetcher) (err : Option FetchError) : Prop where
  chunk : ∃ node, t.cache.pool.disk.files.lookup (chunkPath f.key) = some node ∧
    Delivered t.log id f node.content
  temporary : OnlyOtherTemporaries t.cache f
  disk_eq : (completeFetch t.cache.pool f.key f.call true err).disk = t.cache.pool.disk
  reserved_eq : (completeFetch t.cache.pool f.key f.call true err).shared.reserved =
    t.cache.pool.shared.reserved - f.call.expected
  current_eq : (completeFetch t.cache.pool f.key f.call true err).shared.current =
    t.cache.pool.shared.current + f.call.expected
  entry : ∃ e, (completeFetch t.cache.pool f.key f.call true err).shared.chunks.lookup f.key = some e ∧
    e.path = chunkPath f.key ∧ e.size = f.call.expected
  others : ∀ k, k ≠ f.key →
    (completeFetch t.cache.pool f.key f.call true err).shared.chunks.lookup k =
      t.cache.pool.shared.chunks.lookup k

theorem Clean.leavesNothing (h : Clean t) (hf : t.cache.fetchers.lookup id = some f)
    {err : Option FetchError} (hphase : f.phase = .returned false err) :
    LeavesNothing t.cache f err where
  chunk := h.no_file hf (by rw [hphase]; rfl)
  temporary := h.onlyOther hf (by rw [hphase]; rfl)
  disk_eq := (completeFetch_same t.cache.pool f.key f.call false err).disk_eq
  reserved_eq := (completeFetch_same t.cache.pool f.key f.call false err).reserved_eq
  current_eq := (completeFetch_same t.cache.pool f.key f.call false err).current_eq
  chunks_eq := (completeFetch_same t.cache.pool f.key f.call false err).chunks_eq

theorem Clean.publishes (h : Clean t) (hf : t.cache.fetchers.lookup id = some f)
    {err : Option FetchError} (hphase : f.phase = .returned true err) : Publishes t id f err where
  chunk := (h.fetches id f hf).published (by rw [hphase]; rfl)
  temporary := h.onlyOther hf (by rw [hphase]; rfl)
  disk_eq := (completeFetch_same t.cache.pool f.key f.call true err).disk_eq
  reserved_eq := (completeFetch_same t.cache.pool f.key f.call true err).reserved_eq
  current_eq := (completeFetch_same t.cache.pool f.key f.call true err).current_eq
  entry := by
    rw [(completeFetch_same t.cache.pool f.key f.call true err).chunks_eq]
    unfold settleFetch storeChunk
    rw [if_pos rfl, lookup_addEntry, if_pos rfl]
    exact ⟨_, rfl, rfl, rfl⟩
  others k hk := by
    rw [(completeFetch_same t.cache.pool f.key f.call true err).chunks_eq, lookup_settleFetch _ _ _ hk]

/-- **A failed fetch leaves nothing behind**, whatever its attempts come to, what a fetch publishes was
delivered by a source of the requested size and validator, and a change of these ends it at once
without an entry. -/
theorem fetches_clean (h : (fetchRun sha256Hex options).ReachableBy Removes t)
    (hf : t.cache.fetchers.lookup id = some f) :
    (∀ err, f.phase = .returned false err → LeavesNothing t.cache f err) ∧
      (∀ err, f.phase = .returned true err → Publishes t id f err) ∧
      (Changed t.log id f → ∃ e, f.phase = .returned false (some e)) := by
  have hclean := reachable_clean h
  exact ⟨fun err hphase => hclean.leavesNothing hf hphase,
    fun err hphase => hclean.publishes hf hphase, (hclean.fetches id f hf).changed⟩

end Runs

/-! ## A small run -/

/-- A fetch whose first attempt reads too little and whose second one publishes. -/
def retriedFetch : List CacheLabel :=
  [.openHandle 0 ⟨"torbox", "7:1"⟩ 10 (.source 10 "v1") [], .read 0 0 2 4, .start 0 none, .begin 0,
    .acquire 0 none [], .fetchOpen 0 (.source 10 "v1") none false, .fetchCreate 0 true (some "1"),
    .fetchRead 0 ⟨[0, 1], none⟩ true, .fetchClose 0 none false,
    .fetchOpen 0 (.source 10 "v1") none false, .fetchCreate 0 false (some "2"),
    .fetchRead 0 ⟨[0, 1, 2, 3], none⟩ true, .fetchWrite 0 true true, .fetchRename 0 true true 0,
    .fetchSeal 0 true true, .fetchClose 0 none false]

/-- A process over an empty cache root. -/
def emptyStart : Logged := ⟨freshCache true (emptyPool smallOptions ⟨∅, ∅⟩), []⟩

theorem emptyStart_init : (fetchRun smallOrigin.sha256Hex smallOptions).init emptyStart :=
  ⟨⟨∅, ∅⟩, [], emptyPool smallOptions ⟨∅, ∅⟩, fun _ _ h => absurd h (by simp), rfl, rfl⟩

theorem fetches_clean_small : ∃ t f,
    (fetchRun smallOrigin.sha256Hex smallOptions).runChecked Removes emptyStart retriedFetch = some t ∧
    t.cache.fetchers.lookup 0 = some f ∧ f.phase = .returned true none ∧ Publishes t 0 f none := by
  obtain ⟨t, ht⟩ : ∃ t, (fetchRun smallOrigin.sha256Hex smallOptions).runChecked Removes emptyStart
      retriedFetch = some t := Option.isSome_iff_exists.1 (by decide +kernel)
  have hvalues : ((fetchRun smallOrigin.sha256Hex smallOptions).runChecked Removes emptyStart
      retriedFetch).bind (fun t => (t.cache.fetchers.lookup 0).map fun f => f.phase) =
        some (.returned true none) := by
    decide +kernel
  rw [ht, Option.bind_some, Option.map_eq_some_iff] at hvalues
  obtain ⟨f, hf, hphase⟩ := hvalues
  have hclean := fetches_clean
    (System.ReachableBy.reaches (.init emptyStart_init) (System.reachesBy_of_runChecked ht)) hf
  exact ⟨t, f, ht, hf, hphase, hclean.2.1 none hphase⟩

end BlackPearl.Cache
