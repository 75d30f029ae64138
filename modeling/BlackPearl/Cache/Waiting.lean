import BlackPearl.Cache.Incomplete

/-!
# Waiting readers

A foreground read that finds nothing to reserve waits for the notify channel. When it decides so, both
admission limits are exhausted by bytes that cannot be evicted, so some entry is pinned or some fetch
is in flight; and whoever releases an entry or completes a fetch closes the channel. Hence no read
waits on the current channel of an idle pool.
-/

set_option autoImplicit false

namespace BlackPearl.Cache

open BlackPearl.Library BlackPearl.Domain

/-- Some entry is pinned or some fetch is in flight. -/
def Busy (sh : RollingShared) : Prop :=
  (∃ k e, sh.chunks.lookup k = some e ∧ 0 < e.pins) ∨ ∃ k call, sh.inflight.lookup k = some call

section Pool

variable {p q : PoolState} {key : ChunkKey} {size expected : ℕ} {fails : List FilePath}

/-! ## Refusals -/

theorem not_busy_inflight {sh : RollingShared} (h : ¬ Busy sh) (k : ChunkKey) :
    sh.inflight.lookup k = none := by
  cases hk : sh.inflight.lookup k with
  | none => rfl
  | some call => exact absurd (Or.inr ⟨k, call, hk⟩) h

/-- In an idle pool no entry is pinned. -/
theorem not_busy_pins (hb : Books p) (h : ¬ Busy p.shared) {k : ChunkKey} {e : ChunkEntry}
    (hk : p.shared.chunks.lookup k = some e) : e.pins = 0 := by
  have hpins := hb.pins_eq k e hk
  by_contra hne
  exact h (Or.inl ⟨k, e, hk, by omega⟩)

/-- The object's own bound refuses a chunk of an object larger than a chunk only in a busy pool. -/
theorem ensureIncompleteObjectLocked_stuck (hb : Books q) (hsize : expected < size)
    (h : ensureIncompleteObjectLocked p key.object size expected none fails = (q, .stuck)) :
    Busy q.shared := by
  obtain ⟨hover, hpinned⟩ := evictWhile_stuck (fun k => k.object == key.object &&
    (none : Option ChunkKey) != some k) h
  by_contra hidle
  have hretained : retainedBytes q.shared key.object = 0 := by
    apply Table.total_eq_zero
    intro k e he
    have hk := (Table.lookup_eq_some_iff_mem _ k e).2 he
    split
    · next hobject =>
      refine absurd (not_busy_pins hb hidle hk) (hpinned k e hk ?_)
      simp [hobject]
    · rfl
  have hfetching : fetchingBytes q.shared key.object = 0 := by
    apply Table.total_eq_zero
    intro k c hc
    have hk := (Table.lookup_eq_some_iff_mem _ k c).2 hc
    rw [not_busy_inflight hidle] at hk
    cases hk
  simp only [gt_iff_lt, decide_eq_true_eq, objectUsageLocked_eq, hretained, hfetching] at hover
  omega

/-- The quota refuses a chunk only in a busy pool. -/
theorem quota_stuck (hb : Books q) (hmax : (expected : ℤ) ≤ q.shared.options.maxBytes)
    (h : evictWhile fails oldestUnpinnedLocked
      (fun sh => sh.current + sh.reserved + expected > sh.options.maxBytes) p = (q, .stuck)) :
    Busy q.shared := by
  obtain ⟨hover, hpinned⟩ := evictWhile_stuck (fun _ => true) h
  by_contra hidle
  have hcurrent : q.shared.current = 0 :=
    hb.current_eq_zero fun k e hk => hpinned k e hk rfl (not_busy_pins hb hidle hk)
  have hreserved : q.shared.reserved = 0 := by
    rw [hb.reserved_eq]
    apply Table.total_eq_zero
    intro k c hc
    have hk := (Table.lookup_eq_some_iff_mem _ k c).2 hc
    rw [not_busy_inflight hidle] at hk
    cases hk
  simp only [gt_iff_lt, decide_eq_true_eq, hcurrent, hreserved] at hover
  omega

/-- **A read decides to wait only in a busy pool**, and for the channel that is current. -/
theorem acquireChunkLocked_wait (hb : Books p) {notify : ℕ}
    (hsize : p.shared.options.chunkBytes < size) (hexpected : expected ≤ p.shared.options.chunkBytes)
    (h : acquireChunkLocked p key size expected fails = (q, .wait notify)) :
    Busy q.shared ∧ notify = q.shared.notify := by
  unfold acquireChunkLocked at h
  split at h
  · cases h
  · split at h
    · cases h
    · split at h
      · cases h
      · next u hu =>
        obtain ⟨rfl, hnotify⟩ := Prod.mk.inj h
        refine ⟨?_, (AcquireResult.wait.inj hnotify).symm⟩
        unfold tryReserveLocked at hu
        split at hu
        · cases hu
        · next hp =>
          have hle := p.shared.options.chunkBytes_le hp
          split at hu
          · next v hv =>
            have hensured : Evicted p v := by
              have := ensureIncompleteObjectLocked_evicted p key.object size expected none fails
              rwa [hv] at this
            split at hu
            · cases hu
            · next w outcome hne hw =>
              obtain ⟨rfl, rfl⟩ := Prod.mk.inj hu
              have hev : Evicted v w := by
                have hevict : Evicted v (evictWhile fails oldestUnpinnedLocked
                    (fun sh => sh.current + sh.reserved + expected > sh.options.maxBytes) v).1 :=
                  evictWhile_evicted (offersUnpinned_oldestUnpinned fun _ => true) v
                rwa [hw] at hevict
              apply quota_stuck ((hensured.trans hev).books hb) _ hw
              rw [(hensured.trans hev).options_eq]
              omega
          · next v outcome hne hv =>
            obtain ⟨rfl, rfl⟩ := Prod.mk.inj hu
            have hensured : Evicted p v := by
              have := ensureIncompleteObjectLocked_evicted p key.object size expected none fails
              rwa [hv] at this
            exact ensureIncompleteObjectLocked_stuck (hensured.books hb) (by omega) hv
      · cases h

/-! ## Signals -/

theorem releaseChunk_notify (p : PoolState) (ref : ℕ) :
    (releaseChunk p ref).shared.notify = p.shared.notify + 1 := rfl

theorem Evicted.notify_eq (h : Evicted p q) : q.shared.notify = p.shared.notify := by
  rw [h.shared_eq]

theorem completeFetch_notify (p : PoolState) (key : ChunkKey) (call : FetchCall) (stored : Bool)
    (err : Option FetchError) :
    (completeFetch p key call stored err).shared.notify = p.shared.notify + 1 := by
  obtain ⟨u, hu, heq⟩ := completeFetch_evicted p key call stored err
  rw [heq]
  show u.shared.notify + 1 = _
  rw [hu.notify_eq]
  cases stored <;> rfl

theorem Evicted.busy (h : Evicted p q) (hbusy : Busy p.shared) : Busy q.shared := by
  rcases hbusy with ⟨k, e, hk, hpins⟩ | ⟨k, call, hk⟩
  · exact Or.inl ⟨k, e, h.pinned_kept k e hk (by omega), hpins⟩
  · exact Or.inr ⟨k, call, by rw [h.inflight_eq, hk]⟩

/-- A section that closes the channel, or keeps the channel and a busy pool busy. -/
def Signals (p q : PoolState) : Prop :=
  p.shared.notify < q.shared.notify ∨
    (q.shared.notify = p.shared.notify ∧ (Busy p.shared → Busy q.shared))

theorem Evicted.signals (h : Evicted p q) : Signals p q := Or.inr ⟨h.notify_eq, h.busy⟩

theorem Signals.trans {u : PoolState} (h₁ : Signals p q) (h₂ : Signals q u) : Signals p u := by
  rcases h₁ with h₁ | ⟨h₁, hb₁⟩
  · rcases h₂ with h₂ | ⟨h₂, -⟩
    · exact Or.inl (h₁.trans h₂)
    · exact Or.inl (by omega)
  · rcases h₂ with h₂ | ⟨h₂, hb₂⟩
    · exact Or.inl (by omega)
    · exact Or.inr ⟨h₂.trans h₁, hb₂ ∘ hb₁⟩

/-- Pins and fetches end only in sections that close the channel. -/
theorem poolStep_signals {l : PoolLabel} (hstep : poolStep p l = some q) : Signals p q := by
  cases l with
  | openObject object logicalSize fails =>
    cases hstep
    exact (openObject_evicted p object logicalSize fails).signals
  | acquire key' logicalSize expected fails =>
    have hspec := acquireChunkLocked_spec p key' logicalSize expected fails
    cases hstep
    generalize (acquireChunkLocked p key' logicalSize expected fails).1 = u at hspec ⊢
    generalize (acquireChunkLocked p key' logicalSize expected fails).2 = result at hspec
    cases hspec with
    | @hit entry hk =>
      refine Or.inr ⟨rfl, ?_⟩
      rintro (⟨k, e, he, hpins⟩ | hinflight)
      · refine Or.inl ⟨k, ?_⟩
        rw [lookup_pinChunk]
        split
        · next hkey =>
          -- the entry was pinned before, and is pinned once more
          subst hkey
          obtain rfl := Option.some.inj (hk.symm.trans he)
          refine ⟨_, rfl, ?_⟩
          show 0 < entry.pins + 1
          omega
        · exact ⟨e, he, hpins⟩
      · exact Or.inr hinflight
    | join _ _ => exact Or.inr ⟨rfl, id⟩
    | failed hev => exact hev.signals
    | wait hev => exact hev.signals
    | @started u _ hc hnone hev _ heq =>
      subst heq
      refine hev.signals.trans (Or.inr ⟨rfl, fun _ => Or.inr ⟨key', ⟨u.nextCall, .none, expected⟩, ?_⟩⟩)
      show (u.shared.inflight.insert key' _).lookup key' = _
      rw [Table.lookup_insert, if_pos rfl]
      rfl
  | release ref =>
    simp only [poolStep] at hstep
    split at hstep <;> cases hstep
    exact Or.inl (by rw [releaseChunk_notify]; omega)
  | schedule key' logicalSize expected kind keep fails =>
    have hspec := scheduleChunkLocked_spec p key' logicalSize expected kind keep fails
    cases hstep
    generalize (scheduleChunkLocked p key' logicalSize expected kind keep fails).1 = u at hspec ⊢
    generalize (scheduleChunkLocked p key' logicalSize expected kind keep fails).2 = result at hspec
    cases hspec with
    | present => exact Or.inr ⟨rfl, id⟩
    | refused hev => exact hev.signals
    | @started u hc hnone hev _ =>
      have hnotify : (recordBackgroundFetchLocked (reserveAndStart u key' kind expected)
          kind).shared.notify = u.shared.notify := by
        cases kind <;> rfl
      refine hev.signals.trans (Or.inr ⟨hnotify, fun _ => Or.inr ⟨key', ⟨u.nextCall, kind, expected⟩, ?_⟩⟩)
      rw [recordFetch_inflight]
      show (u.shared.inflight.insert key' _).lookup key' = _
      rw [Table.lookup_insert, if_pos rfl]
      rfl
  | writeFile key path node =>
    simp only [poolStep] at hstep
    split at hstep <;> cases hstep
    exact Or.inr ⟨rfl, id⟩
  | removeFile key path =>
    simp only [poolStep] at hstep
    split at hstep <;> cases hstep
    exact Or.inr ⟨rfl, id⟩
  | makeDirectory directory =>
    cases hstep
    exact Or.inr ⟨rfl, id⟩
  | complete key stored err =>
    simp only [poolStep] at hstep
    split at hstep <;> cases hstep
    exact Or.inl (by rw [completeFetch_notify]; omega)
  | record kind =>
    cases hstep
    exact (recordBackgroundErrorLocked_evicted p kind).signals
  | countDirect misses fetches =>
    cases hstep
    exact Or.inr ⟨rfl, id⟩

end Pool

/-! ## Runs of the process -/

/-- Reads that go through the chunks are of objects larger than a chunk, and a read that waits on the
current channel waits in a busy pool. -/
structure WaitsBusy (s : CacheState) : Prop where
  large : ∀ id r, s.readers.lookup id = some r → r.phase.cached = true → ∃ h,
    s.handles.lookup r.handle = some h ∧ s.pool.shared.options.chunkBytes < h.size
  parked : ∀ id r notify, s.readers.lookup id = some r → r.phase = .parked notify →
    notify ≤ s.pool.shared.notify ∧ (notify = s.pool.shared.notify → Busy s.pool.shared)

/-- What a waiting read can rely on in a state: its decision to wait was right, it is woken by every
release and every completion, and it never waits on the current channel of an idle pool. -/
structure NoStuckReader (sha256Hex : String → String) (s : CacheState) : Prop where
  decided : ∀ key size expected fails pool notify, s.pool.shared.options.chunkBytes < size →
    expected ≤ s.pool.shared.options.chunkBytes →
    acquireChunkLocked s.pool key size expected fails = (pool, .wait notify) →
      Busy pool.shared ∧ notify = pool.shared.notify
  released : ∀ id t, cacheStep sha256Hex s (.release id) = some t →
    t.pool.shared.notify = s.pool.shared.notify + 1
  completed : ∀ id t, cacheStep sha256Hex s (.fetchComplete id) = some t →
    t.pool.shared.notify = s.pool.shared.notify + 1
  waiting : ∀ id r notify, s.readers.lookup id = some r → r.phase = .parked notify →
    notify ≤ s.pool.shared.notify ∧ (notify = s.pool.shared.notify → Busy s.pool.shared)
  woken : ∀ id r h notify, s.readers.lookup id = some r → s.handles.lookup r.handle = some h →
    r.phase = .parked notify → notify < s.pool.shared.notify →
      stepReader sha256Hex s id r h (.unpark id none) =
        some (setReader s id { r with phase := .copying })

section Runs

variable {sha256Hex : String → String} {options : RangeOptions} {s t : CacheState} {a : CacheLabel}

/-- The handle of a read that goes through the chunks, before the step that moved it there. -/
theorem WaitsBusy.cachedFrom (h : WaitsBusy s) (hp : s.pool.shared.options.policy = .rolling)
    {id : ℕ} {r : Reader} (hr : CachedFrom s id r) : ∃ hd, s.handles.lookup r.handle = some hd ∧
      s.pool.shared.options.chunkBytes < hd.size := by
  cases hr with
  | kept hr₀ hhandle hcached =>
    rw [← hhandle]
    exact h.large id _ hr₀ hcached
  | large hh hlarge => exact ⟨_, hh, hlarge hp⟩

theorem StepMove.waitsBusy (hmove : StepMove sha256Hex s a t) (hatt : Attached s)
    (hp : s.pool.shared.options.policy = .rolling) (h : WaitsBusy s) : WaitsBusy t where
  large := by
    intro id r hr hcached
    obtain ⟨hd, hh, hlarge⟩ := h.cachedFrom hp (hmove.cached id r hr hcached)
    obtain ⟨hd', hh', -, hsize, -⟩ := hmove.handles_kept _ hd hh
    exact ⟨hd', hh', by rw [hmove.options, hsize]; exact hlarge⟩
  parked := by
    intro id r notify hr hphase
    cases hmove.parked id r notify hr hphase with
    | kept hr₀ =>
      obtain ⟨hle, hbusy⟩ := h.parked id r notify hr₀ hphase
      have hsignals : Signals s.pool t.pool :=
        hmove.sections.invariant (I := Signals s.pool)
          (fun _ _ _ hi _ hl => hi.trans (poolStep_signals hl)) (Or.inr ⟨rfl, fun hb => hb⟩)
      rcases hsignals with hlt | ⟨heq, hkeeps⟩
      · exact ⟨by omega, fun hsame => by omega⟩
      · exact ⟨by omega, fun hsame => hkeeps (hbusy (by omega))⟩
    | @parked hd key fails hh hacq =>
      obtain ⟨hd', hh', hlarge⟩ := h.cachedFrom hp (hmove.cached id r hr (by rw [hphase]; rfl))
      obtain rfl := Option.some.inj (hh.symm.trans hh')
      obtain ⟨hbusy, rfl⟩ := acquireChunkLocked_wait hatt.books hlarge (chunkLength_le _ _ _) hacq
      exact ⟨le_refl _, fun _ => hbusy⟩

theorem reachable_waitsBusy (hp : options.policy = .rolling)
    (h : (poolLifetime sha256Hex options).Reachable s) : WaitsBusy s := by
  induction h with
  | init hs =>
    obtain ⟨pool, -, rfl⟩ := poolLifetime_init hs
    constructor
    · intro id r hr
      exact absurd hr (by simp [freshCache])
    · intro id r notify hr
      exact absurd hr (by simp [freshCache])
  | step hs _ hstep ih =>
    have hpolicy := reachable_options (reachable_pool hs)
    exact (reachable_move hs hstep).waitsBusy (reachable_attached hs) (by rw [hpolicy, hp]) ih

theorem cacheStep_release_notify {id : ℕ} (h : cacheStep sha256Hex s (.release id) = some t) :
    t.pool.shared.notify = s.pool.shared.notify + 1 := by
  simp only [cacheStep, actor] at h
  split at h
  · cases h
  · obtain ⟨r, hr, hrest⟩ := Option.bind_eq_some_iff.1 h
    obtain ⟨hd, hh, hrest⟩ := Option.bind_eq_some_iff.1 hrest
    simp only [stepReader] at hrest
    split at hrest
    · cases hrest
      rfl
    · cases hrest

theorem cacheStep_complete_notify {id : ℕ}
    (h : cacheStep sha256Hex s (.fetchComplete id) = some t) :
    t.pool.shared.notify = s.pool.shared.notify + 1 := by
  simp only [cacheStep, actor] at h
  split at h
  · cases h
  · obtain ⟨f, hf, hrest⟩ := Option.bind_eq_some_iff.1 h
    simp only [stepFetcher] at hrest
    split at hrest
    · cases hrest
      exact completeFetch_notify _ _ _ _ _
    · cases hrest

/-- In every reachable state of a rolling pool, whatever its handles, objects, background fetches and
evictions, no foreground read is stuck: it decides to wait only when something is pinned or in flight,
every release and every completion wakes it, and it never waits in an idle pool. -/
theorem no_stuck_reader (hp : options.policy = .rolling)
    (h : (poolLifetime sha256Hex options).Reachable s) : NoStuckReader sha256Hex s where
  decided := fun _ _ _ _ _ _ hsize hexpected hacq =>
    acquireChunkLocked_wait (reachable_attached h).books hsize hexpected hacq
  released := fun _ _ => cacheStep_release_notify
  completed := fun _ _ => cacheStep_complete_notify
  waiting := (reachable_waitsBusy hp h).parked
  woken := by
    intro id r hd notify _ _ hphase hlt
    simp only [stepReader, hphase]
    rw [if_pos (by omega)]

end Runs

/-- One read holds the first chunk, a second one fetches the second chunk, and a third one finds no
room for the third chunk, which would complete the object. -/
def smallWait : List CacheLabel :=
  [.openHandle 0 ⟨"torbox", "7:1"⟩ 10 (.source 10 "v1") [], .read 0 0 0 4, .start 0 none, .begin 0,
    .acquire 0 none []] ++ fetchLabels 0 "1" [0, 1, 2, 3] ++
  [.wake 0 none, .acquire 0 none [], .read 1 0 4 4, .start 1 none, .begin 1, .acquire 1 none [],
    .read 2 0 8 2, .start 2 none, .begin 2, .acquire 2 none []]

theorem no_stuck_reader_small : ∃ s r,
    (poolLifetime smallOrigin.sha256Hex smallOptions).run
      (freshCache true (emptyPool smallOptions ⟨∅, ∅⟩)) smallWait = some s ∧
    s.readers.lookup 2 = some r ∧ r.phase = .parked 1 ∧ s.pool.shared.notify = 1 ∧
    Busy s.pool.shared := by
  have hvalues : ((poolLifetime smallOrigin.sha256Hex smallOptions).run
      (freshCache true (emptyPool smallOptions ⟨∅, ∅⟩)) smallWait).bind (fun s =>
        (s.readers.lookup 2).map fun r => (r.phase, s.pool.shared.notify)) =
      some (.parked 1, 1) := by
    decide +kernel
  simp only [Option.bind_eq_some_iff, Option.map_eq_some_iff, Prod.mk.injEq] at hvalues
  obtain ⟨s, hs, r, hr, hphase, hnotify⟩ := hvalues
  have hinit : (poolLifetime smallOrigin.sha256Hex smallOptions).init
      (freshCache true (emptyPool smallOptions ⟨∅, ∅⟩)) := ⟨⟨∅, ∅⟩, [], _, rfl, rfl⟩
  have hpolicy : smallOptions.policy = .rolling := rfl
  have hsafe := no_stuck_reader hpolicy (System.reachable_of_run hinit hs)
  exact ⟨s, r, hs, hr, hphase, hnotify, (hsafe.waiting 2 r 1 hr hphase).2 hnotify.symm⟩

end BlackPearl.Cache
