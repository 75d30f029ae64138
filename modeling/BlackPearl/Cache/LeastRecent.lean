import BlackPearl.Cache.Retention

/-!
# Eviction in the order of the last uses

The access times of the entries are distinct, so the unpinned candidates have one order of their last
uses (`byLastUse`), and every eviction loop takes from it the shortest prefix that makes the
reservation fit (`OldestFirst`). Go visits the entries in any order, another one in each search
(`AnyOrder`); the loops, the reservations and the whole pool come to the same in all of them.
-/

set_option autoImplicit false

namespace BlackPearl.Cache

open BlackPearl.Library

/-! ## The order of the last uses -/

/-- The unpinned candidates, the one that was used longest ago first. -/
def byLastUse (sh : RollingShared) (candidate : ChunkKey → Bool) : List (ChunkKey × ChunkEntry) :=
  ((sh.chunks.entries.map fun e => (e.1, e.2)).filter fun v =>
    candidate v.1 && v.2.pins == 0).insertionSort fun v w => v.2.lastAccess ≤ w.2.lastAccess

section Order

variable {s : PoolState} {candidate : ChunkKey → Bool} {exceeds : RollingShared → Bool}
  {fails : List FilePath}

theorem mem_byLastUse {sh : RollingShared} {v : ChunkKey × ChunkEntry} :
    v ∈ byLastUse sh candidate ↔
      sh.chunks.lookup v.1 = some v.2 ∧ candidate v.1 = true ∧ v.2.pins = 0 := by
  rw [byLastUse, List.mem_insertionSort, List.mem_filter, Bool.and_eq_true, beq_iff_eq,
    Table.lookup_eq_some_iff_mem, List.mem_map]
  constructor
  · rintro ⟨⟨e, he, rfl⟩, hv⟩
    exact ⟨he, hv⟩
  · rintro ⟨he, hv⟩
    exact ⟨⟨_, he, rfl⟩, hv⟩

/-- Earlier entries were used earlier. -/
theorem byLastUse_pairwise (hb : Books s) (candidate : ChunkKey → Bool) :
    (byLastUse s.shared candidate).Pairwise fun v w => v.2.lastAccess < w.2.lastAccess := by
  have htotal : Std.Total fun v w : ChunkKey × ChunkEntry => v.2.lastAccess ≤ w.2.lastAccess :=
    ⟨fun v w => Nat.le_total _ _⟩
  have htrans : IsTrans (ChunkKey × ChunkEntry) fun v w => v.2.lastAccess ≤ w.2.lastAccess :=
    ⟨fun u v w => Nat.le_trans⟩
  have hsorted : (byLastUse s.shared candidate).Pairwise fun v w =>
      v.2.lastAccess ≤ w.2.lastAccess := List.pairwise_insertionSort _ _
  have hnodup : (byLastUse s.shared candidate).Nodup := by
    refine (List.perm_insertionSort _ _).nodup_iff.2 (List.Nodup.filter _ ?_)
    refine s.shared.chunks.nodupKeys.nodup.map fun e e' h => ?_
    exact Sigma.ext (congrArg Prod.fst h) (heq_of_eq (congrArg Prod.snd h))
  refine (hsorted.and hnodup).imp_of_mem fun {v w} hv hw h => ?_
  refine lt_of_le_of_ne h.1 fun hsame => h.2 ?_
  obtain ⟨hv, -⟩ := mem_byLastUse.1 hv
  obtain ⟨hw, -⟩ := mem_byLastUse.1 hw
  have hkey := hb.access_inj _ _ _ _ hv hw hsame
  rw [← hkey, hv] at hw
  exact Prod.ext hkey (Option.some.inj hw)

/-- The search for the oldest entry finds the first one. -/
theorem oldestUnpinned_eq_head (hb : Books s) :
    oldestUnpinned s.shared candidate = (byLastUse s.shared candidate).head? := by
  have hpairwise := byLastUse_pairwise hb candidate
  cases hfound : oldestUnpinned s.shared candidate with
  | none =>
    cases hqueue : byLastUse s.shared candidate with
    | nil => rfl
    | cons v rest =>
      obtain ⟨hlookup, hcandidate, hpins⟩ := mem_byLastUse.1 (hqueue ▸ List.mem_cons_self)
      have hnone := Table.selectMin_eq_none.1 hfound _ _ hlookup
      simp [hcandidate, hpins] at hnone
  | some u =>
    obtain ⟨hlookup, hpins, hcandidate⟩ := oldestUnpinned_some (e := u.2) hfound
    obtain ⟨-, -, hleast⟩ := Table.selectMin_eq_some (v := u.2) hfound
    have hmem := mem_byLastUse.2 ⟨hlookup, hcandidate, hpins⟩
    cases hqueue : byLastUse s.shared candidate with
    | nil =>
      rw [hqueue] at hmem
      cases hmem
    | cons v rest =>
      rw [hqueue] at hmem hpairwise
      rcases List.mem_cons.1 hmem with rfl | hlater
      · rfl
      · obtain ⟨hv, hvcandidate, hvpins⟩ := mem_byLastUse.1 (hqueue ▸ List.mem_cons_self)
        have hle := hleast _ _ hv (by simp [hvcandidate, hvpins])
        have hless := (List.pairwise_cons.1 hpairwise).1 u hlater
        omega

/-- Dropping the oldest entry takes it off the order. -/
theorem byLastUse_dropChunk (hb : Books s) {v : ChunkKey × ChunkEntry}
    (hv : oldestUnpinned s.shared candidate = some v) :
    byLastUse (dropChunk s v).shared candidate = (byLastUse s.shared candidate).tail := by
  obtain ⟨hlookup, hpins, -⟩ := oldestUnpinned_some (e := v.2) hv
  have hdropped : Books (dropChunk s v) := hb.drop hlookup hpins
  have hpairwise := byLastUse_pairwise hb candidate
  rw [oldestUnpinned_eq_head hb] at hv
  obtain ⟨rest, hqueue⟩ := List.head?_eq_some_iff.1 hv
  rw [hqueue, List.pairwise_cons] at hpairwise
  have hirrefl : Std.Irrefl fun v w : ChunkKey × ChunkEntry => v.2.lastAccess < w.2.lastAccess :=
    ⟨fun v => Nat.lt_irrefl _⟩
  have hantisymm : Std.Antisymm fun v w : ChunkKey × ChunkEntry => v.2.lastAccess < w.2.lastAccess :=
    ⟨fun v w h h' => absurd h (Nat.lt_asymm h')⟩
  rw [hqueue, List.tail_cons]
  refine List.Pairwise.eq_of_mem_iff (byLastUse_pairwise hdropped candidate) hpairwise.2 fun w => ?_
  have hmem : w ∈ byLastUse s.shared candidate ↔ w = v ∨ w ∈ rest := by
    rw [hqueue, List.mem_cons]
  rw [mem_byLastUse, lookup_dropChunk]
  constructor
  · rintro ⟨hw, hrest⟩
    split at hw
    · cases hw
    · next hne =>
      exact (hmem.1 (mem_byLastUse.2 ⟨hw, hrest⟩)).resolve_left fun h => hne (congrArg Prod.fst h)
  · intro hw
    obtain ⟨hlookup', hrest⟩ := mem_byLastUse.1 (hmem.2 (.inr hw))
    have hne : w.1 ≠ v.1 := by
      intro hkey
      have hless := hpairwise.1 w hw
      rw [hkey, hlookup] at hlookup'
      rw [Option.some.inj hlookup'] at hless
      exact Nat.lt_irrefl _ hless
    exact ⟨(if_neg hne).trans hlookup', hrest⟩

end Order

/-! ## Eviction loops -/

/-- How an eviction loop may end, which evicts candidates while the pool exceeds a bound. -/
abbrev LoopRelation :=
  List FilePath → (ChunkKey → Bool) → (RollingShared → Bool) → PoolState →
    PoolState × EvictOutcome → Prop

/-- What a search may find that visits the entries in some order. -/
def Finds (sh : RollingShared) (candidate : ChunkKey → Bool) (found : Option (ChunkKey × ChunkEntry)) :
    Prop :=
  ∃ visited, visited.Perm sh.chunks.entries ∧
    Table.selectMinAux (fun k e => candidate k && e.pins == 0) ChunkEntry.lastAccess none visited = found

/-- The loops of the code: each search visits the entries in some order. -/
def AnyOrder : LoopRelation := fun fails candidate exceeds =>
  (evictor fails (oldestUnpinned · candidate) exceeds).Runs fun s => Finds s.shared candidate

/-- The loops that take the shortest prefix of the candidates in the order of their last uses. -/
def OldestFirst : LoopRelation := fun fails candidate exceeds s =>
  (evictor fails (oldestUnpinned · candidate) exceeds).TakesShortest (byLastUse s.shared candidate) s

section Loops

variable {s : PoolState} {candidate : ChunkKey → Bool} {exceeds : RollingShared → Bool}
  {fails : List FilePath}

/-- Every order of a search finds the same entry. -/
theorem finds_iff (hb : Books s) {found : Option (ChunkKey × ChunkEntry)} :
    Finds s.shared candidate found ↔ found = oldestUnpinned s.shared candidate := by
  constructor
  · rintro ⟨visited, hperm, rfl⟩
    refine Table.selectMinAux_perm hperm fun e he e' he' _ _ hsame => ?_
    have hlookup := (Table.lookup_eq_some_iff_mem _ e.1 e.2).2 (hperm.mem_iff.1 he)
    have hlookup' := (Table.lookup_eq_some_iff_mem _ e'.1 e'.2).2 (hperm.mem_iff.1 he')
    have hkey := hb.access_inj _ _ _ _ hlookup hlookup' hsame
    rw [← hkey, hlookup] at hlookup'
    exact Sigma.ext hkey (heq_of_eq (Option.some.inj hlookup'))
  · rintro rfl
    exact ⟨_, .refl _, rfl⟩

/-- A drop keeps the books and leaves fewer entries. -/
theorem evictor_drop (hb : Books s) {v : ChunkKey × ChunkEntry}
    (hv : oldestUnpinned s.shared candidate = some v) :
    Books (dropChunk s v) ∧
      (dropChunk s v).shared.chunks.entries.length < s.shared.chunks.entries.length := by
  obtain ⟨hlookup, hpins, -⟩ := oldestUnpinned_some (e := v.2) hv
  exact ⟨hb.drop hlookup hpins, Table.length_erase_lt hlookup⟩

theorem anyOrder_iff (hb : Books s) {r : PoolState × EvictOutcome} :
    AnyOrder fails candidate exceeds s r ↔
      r = evictWhile fails (oldestUnpinned · candidate) exceeds s :=
  Evictor.runs_iff (I := Books) (μ := fun t => t.shared.chunks.entries.length)
    (fun _ _ hb => finds_iff hb) (fun _ _ hb hv => evictor_drop hb hv) hb le_rfl

theorem oldestFirst_iff (hb : Books s) {r : PoolState × EvictOutcome} :
    OldestFirst fails candidate exceeds s r ↔
      r = evictWhile fails (oldestUnpinned · candidate) exceeds s := by
  have hlength : (byLastUse s.shared candidate).length ≤ s.shared.chunks.entries.length := by
    rw [byLastUse, List.length_insertionSort]
    exact (List.length_filter_le _ _).trans (List.length_map _).le
  have hrun : evictWhile fails (oldestUnpinned · candidate) exceeds s =
      (evictor fails (oldestUnpinned · candidate) exceeds).runOn (byLastUse s.shared candidate) s :=
    Evictor.run_eq_runOn (I := Books) (fun t => byLastUse t.shared candidate)
      (fun _ hb => oldestUnpinned_eq_head hb)
      (fun _ _ hb hv => ⟨(evictor_drop hb hv).1, byLastUse_dropChunk hb hv⟩) _ s hb hlength
  rw [hrun]
  exact Evictor.takesShortest_iff

end Loops

/-- The loops come to what the loops of the pool come to. -/
def LoopRelation.Agrees (L : LoopRelation) : Prop :=
  ∀ fails candidate exceeds s, Books s → ∀ r,
    L fails candidate exceeds s r ↔ r = evictWhile fails (oldestUnpinned · candidate) exceeds s

theorem anyOrder_agrees : LoopRelation.Agrees AnyOrder := fun _ _ _ _ hb _ => anyOrder_iff hb

theorem oldestFirst_agrees : LoopRelation.Agrees OldestFirst := fun _ _ _ _ hb _ => oldestFirst_iff hb

/-! ## Reservations -/

section Reservations

variable (L : LoopRelation)

/-- `ensureIncompleteObjectLocked`, with these loops. -/
def EnsureIncompleteObject (s : PoolState) (object : String) (logicalSize expected : ℕ)
    (keep : Option ChunkKey) (fails : List FilePath) : PoolState × EvictOutcome → Prop :=
  L fails (fun k => k.object == object && keep != some k)
    (fun sh => objectUsageLocked sh object + expected > (logicalSize : ℤ) - 1) s

/-- `tryReserveLocked`, with these loops. -/
def TryReserve (s : PoolState) (key : ChunkKey) (logicalSize expected : ℕ) (fails : List FilePath)
    (r : PoolState × EvictOutcome) : Prop :=
  match s.shared.options.policy with
  | .persistent => r = (reserveLocked s expected, .fits)
  | .rolling => ∃ first, EnsureIncompleteObject L s key.object logicalSize expected none fails first ∧
      match first with
      | (s, .fits) => ∃ second, L fails (fun _ => true)
          (fun sh => sh.current + sh.reserved + expected > sh.options.maxBytes) s second ∧
          match second with
          | (s, .fits) => r = (reserveLocked s expected, .fits)
          | (s, outcome) => r = (s, outcome)
      | (s, outcome) => r = (s, outcome)

/-- `tryReserveBackgroundLocked`, with these loops. -/
def TryReserveBackground (s : PoolState) (key : ChunkKey) (logicalSize expected : ℕ)
    (kind : BackgroundFetchKind) (keep : Option ChunkKey) (fails : List FilePath)
    (r : PoolState × Bool) : Prop :=
  match s.shared.options.policy with
  | .persistent => r = (reserveLocked s expected, true)
  | .rolling => ∃ first, EnsureIncompleteObject L s key.object logicalSize expected keep fails first ∧
      match first with
      | (s, .failed) => r = (recordBackgroundErrorLocked s kind, false)
      | (s, .stuck) => r = (s, false)
      | (s, .fits) =>
          if kind = .nextEpisode ∧ s.shared.current + s.shared.reserved + expected >
              s.shared.options.maxBytes - s.shared.options.chunkBytes then r = (s, false)
          else ∃ second, L fails (fun k => keep != some k)
              (fun sh => sh.current + sh.reserved + expected >
                sh.options.maxBytes - sh.options.chunkBytes) s second ∧
            match second with
            | (s, .failed) => r = (recordBackgroundErrorLocked s kind, false)
            | (s, .stuck) => r = (s, false)
            | (s, .fits) => r = (reserveLocked s expected, true)

/-- The locked section of `RollingSource.Open`, with these loops. -/
def OpenObject (s : PoolState) (object : String) (logicalSize : ℕ) (fails : List FilePath)
    (r : PoolState × EvictOutcome) : Prop :=
  match s.shared.options.policy with
  | .persistent => r = (s, .fits)
  | .rolling => EnsureIncompleteObject L s object logicalSize 0 none fails r

/-- `recoverChunks`, with these loops. -/
def Recover (options : RangeOptions) (d : Disk) (fails : List FilePath)
    (r : Disk × Except RecoverError PoolState) : Prop :=
  match recoverScan options fails (recoverVisits d) d with
  | (d, .error e) => r = (d, .error e)
  | (d, .ok recovered) => ∃ trimmed, L fails (fun _ => true)
      (fun sh => sh.options.policy = .rolling ∧ sh.current > sh.options.maxBytes)
      ((recovered.insertionSort recoveredBefore).foldl indexRecovered (emptyPool options d)) trimmed ∧
      match trimmed with
      | (s, .failed) => r = (s.disk, .error .removeChunk)
      | (s, .stuck) => r = (s.disk, .error .trimQuota)
      | (s, .fits) =>
          r = (s.disk, .ok { s with shared := { s.shared with highWater := s.shared.current } })

/-! The sections and the pool, with these loops. -/

/-- The locked section of `acquireChunk`, with these loops. -/
def AcquireChunk (s : PoolState) (key : ChunkKey) (logicalSize expected : ℕ) (fails : List FilePath)
    (r : PoolState × AcquireResult) : Prop :=
  match s.shared.chunks.lookup key with
  | some entry => r = ((pinChunk s key entry).1, .hit (pinChunk s key entry).2)
  | none =>
      match s.shared.inflight.lookup key with
      | some call => r = (s, .join call)
      | none => ∃ reserved, TryReserve L s key logicalSize expected fails reserved ∧
          match reserved with
          | (s, .failed) => r = (s, .failed)
          | (s, .stuck) => r = (s, .wait s.shared.notify)
          | (s, .fits) =>
              let (s, call) := startFetch s key .none expected
              r = ({ s with shared := { s.shared with misses := s.shared.misses + 1 } }, .started call)

/-- The locked section of `scheduleBackgroundChunks`, with these loops. -/
def ScheduleChunk (s : PoolState) (key : ChunkKey) (logicalSize expected : ℕ)
    (kind : BackgroundFetchKind) (keep : Option ChunkKey) (fails : List FilePath)
    (r : PoolState × ScheduleResult) : Prop :=
  if (s.shared.chunks.lookup key).isSome ∨ (s.shared.inflight.lookup key).isSome then r = (s, .present)
  else ∃ reserved, TryReserveBackground L s key logicalSize expected kind keep fails reserved ∧
    match reserved with
    | (s, false) => r = (s, .refused)
    | (s, true) =>
        let (s, call) := startFetch s key kind expected
        r = (recordBackgroundFetchLocked s kind, .started call)

/-- A step of the pool, with these loops. -/
def Moves (s : PoolState) (a : PoolLabel) (t : PoolState) : Prop :=
  match a with
  | .openObject object logicalSize fails => ∃ r, OpenObject L s object logicalSize fails r ∧ t = r.1
  | .acquire key logicalSize expected fails =>
      ∃ r, AcquireChunk L s key logicalSize expected fails r ∧ t = r.1
  | .schedule key logicalSize expected kind keep fails =>
      ∃ r, ScheduleChunk L s key logicalSize expected kind keep fails r ∧ t = r.1
  | a => poolStep s a = some t

/-- The states of a pool, with these loops. -/
inductive PoolReaches (options : RangeOptions) : PoolState → Prop
  | recovered {d d' : Disk} {fails : List FilePath} {s : PoolState}
      (h : Recover L options d fails (d', .ok s)) : PoolReaches options s
  | moved {s t : PoolState} {a : PoolLabel} (hs : PoolReaches options s) (h : Moves L s a t) :
      PoolReaches options t

variable {L}

theorem ensureIncompleteObject_iff (hL : L.Agrees) {s : PoolState} (hb : Books s) {object : String}
    {logicalSize expected : ℕ} {keep : Option ChunkKey} {fails : List FilePath}
    {r : PoolState × EvictOutcome} :
    EnsureIncompleteObject L s object logicalSize expected keep fails r ↔
      r = ensureIncompleteObjectLocked s object logicalSize expected keep fails :=
  hL _ _ _ s hb r

theorem tryReserve_iff (hL : L.Agrees) {s : PoolState} (hb : Books s) {key : ChunkKey}
    {logicalSize expected : ℕ} {fails : List FilePath} {r : PoolState × EvictOutcome} :
    TryReserve L s key logicalSize expected fails r ↔
      r = tryReserveLocked s key logicalSize expected fails := by
  unfold TryReserve tryReserveLocked
  cases s.shared.options.policy with
  | persistent => rfl
  | rolling =>
    have hbooks := (ensureIncompleteObjectLocked_evicted s key.object logicalSize expected none
      fails).books hb
    simp only [ensureIncompleteObject_iff hL hb, exists_eq_left]
    generalize ensureIncompleteObjectLocked s key.object logicalSize expected none fails = first
      at hbooks
    obtain ⟨u, outcome⟩ := first
    cases outcome with
    | stuck => rfl
    | failed => rfl
    | fits =>
      have hloop (second : PoolState × EvictOutcome) := hL fails (fun _ => true)
        (fun sh => sh.current + sh.reserved + expected > sh.options.maxBytes) u hbooks second
      simp only [hloop, exists_eq_left]
      have hsame : (oldestUnpinned · fun _ => true) = oldestUnpinnedLocked := rfl
      rw [hsame]
      generalize evictWhile fails oldestUnpinnedLocked _ u = second
      obtain ⟨v, outcome⟩ := second
      cases outcome <;> rfl

theorem tryReserveBackground_iff (hL : L.Agrees) {s : PoolState} (hb : Books s) {key : ChunkKey}
    {logicalSize expected : ℕ} {kind : BackgroundFetchKind} {keep : Option ChunkKey}
    {fails : List FilePath} {r : PoolState × Bool} :
    TryReserveBackground L s key logicalSize expected kind keep fails r ↔
      r = tryReserveBackgroundLocked s key logicalSize expected kind keep fails := by
  unfold TryReserveBackground tryReserveBackgroundLocked
  cases s.shared.options.policy with
  | persistent => rfl
  | rolling =>
    have hbooks := (ensureIncompleteObjectLocked_evicted s key.object logicalSize expected keep
      fails).books hb
    simp only [ensureIncompleteObject_iff hL hb, exists_eq_left]
    generalize ensureIncompleteObjectLocked s key.object logicalSize expected keep fails = first
      at hbooks
    obtain ⟨u, outcome⟩ := first
    cases outcome with
    | stuck => rfl
    | failed => rfl
    | fits =>
      have hloop (second : PoolState × EvictOutcome) := hL fails (fun k => keep != some k)
        (fun sh => sh.current + sh.reserved + expected > sh.options.maxBytes - sh.options.chunkBytes)
        u hbooks second
      simp only [hloop, exists_eq_left]
      split
      · rfl
      · have hsame : (oldestUnpinned · fun k => keep != some k) =
            (oldestUnpinnedExceptLocked · keep) := rfl
        rw [hsame]
        generalize evictWhile fails (oldestUnpinnedExceptLocked · keep) _ u = second
        obtain ⟨v, outcome⟩ := second
        cases outcome <;> rfl

theorem openObject_iff (hL : L.Agrees) {s : PoolState} (hb : Books s) {object : String}
    {logicalSize : ℕ} {fails : List FilePath} {r : PoolState × EvictOutcome} :
    OpenObject L s object logicalSize fails r ↔ r = openObject s object logicalSize fails := by
  unfold OpenObject openObject
  cases s.shared.options.policy with
  | persistent => rfl
  | rolling => exact ensureIncompleteObject_iff hL hb

theorem recover_iff (hL : L.Agrees) {options : RangeOptions} {d : Disk} {fails : List FilePath}
    {r : Disk × Except RecoverError PoolState} :
    Recover L options d fails r ↔ r = recoverChunks options d fails := by
  unfold Recover recoverChunks
  rcases hscan : recoverScan options fails (recoverVisits d) d with ⟨d', _ | recovered⟩
  · rfl
  · have hloop (trimmed : PoolState × EvictOutcome) := hL fails (fun _ => true)
      (fun sh => sh.options.policy = .rolling ∧ sh.current > sh.options.maxBytes) _
      (indexRecovered_spec hscan).books trimmed
    simp only [hloop, exists_eq_left]
    have hsame : (oldestUnpinned · fun _ => true) = oldestUnpinnedLocked := rfl
    rw [hsame]
    generalize evictWhile fails oldestUnpinnedLocked _ _ = trimmed
    obtain ⟨v, outcome⟩ := trimmed
    cases outcome <;> rfl

theorem acquireChunk_iff (hL : L.Agrees) {s : PoolState} (hb : Books s) {key : ChunkKey}
    {logicalSize expected : ℕ} {fails : List FilePath} {r : PoolState × AcquireResult} :
    AcquireChunk L s key logicalSize expected fails r ↔
      r = acquireChunkLocked s key logicalSize expected fails := by
  unfold AcquireChunk acquireChunkLocked
  cases s.shared.chunks.lookup key with
  | some entry => rfl
  | none =>
    cases s.shared.inflight.lookup key with
    | some call => rfl
    | none =>
      simp only [tryReserve_iff hL hb, exists_eq_left]
      generalize tryReserveLocked s key logicalSize expected fails = reserved
      obtain ⟨u, outcome⟩ := reserved
      cases outcome <;> rfl

theorem scheduleChunk_iff (hL : L.Agrees) {s : PoolState} (hb : Books s) {key : ChunkKey}
    {logicalSize expected : ℕ} {kind : BackgroundFetchKind} {keep : Option ChunkKey}
    {fails : List FilePath} {r : PoolState × ScheduleResult} :
    ScheduleChunk L s key logicalSize expected kind keep fails r ↔
      r = scheduleChunkLocked s key logicalSize expected kind keep fails := by
  unfold ScheduleChunk scheduleChunkLocked
  split
  · rfl
  · simp only [tryReserveBackground_iff hL hb, exists_eq_left]
    generalize tryReserveBackgroundLocked s key logicalSize expected kind keep fails = reserved
    obtain ⟨u, granted⟩ := reserved
    cases granted <;> rfl

theorem moves_iff (hL : L.Agrees) {s t : PoolState} (hb : Books s) {a : PoolLabel} :
    Moves L s a t ↔ poolStep s a = some t := by
  unfold Moves
  cases a with
  | openObject object logicalSize fails =>
    simp only [openObject_iff hL hb, exists_eq_left, poolStep, Option.some.injEq, eq_comm]
  | acquire key logicalSize expected fails =>
    simp only [acquireChunk_iff hL hb, exists_eq_left, poolStep, Option.some.injEq, eq_comm]
  | schedule key logicalSize expected kind keep fails =>
    simp only [scheduleChunk_iff hL hb, exists_eq_left, poolStep, Option.some.injEq, eq_comm]
  | _ => rfl

/-- The loops reach the states of the pool. -/
theorem poolReaches_iff (hL : L.Agrees) {options : RangeOptions} {s : PoolState} :
    PoolReaches L options s ↔ (poolSystem options).Reachable s := by
  constructor
  · intro h
    induction h with
    | recovered h =>
      rw [recover_iff hL] at h
      exact .init ⟨_, _, congrArg Prod.snd h.symm⟩
    | moved _ h ih => exact .step ih trivial ((moves_iff hL (reachable_books ih)).1 h)
  · intro h
    induction h with
    | init h =>
      obtain ⟨d, fails, hrecovered⟩ := h
      exact .recovered ((recover_iff hL).2 (Prod.ext rfl hrecovered.symm))
    | step hs _ h ih => exact .moved ih ((moves_iff hL (reachable_books hs)).2 h)

end Reservations

/-! ## Recovery makes room -/

theorem recoverFile_ne_trimQuota {options : RangeOptions} {fails : List FilePath} {path : FilePath}
    {node : FileNode} : recoverFile options fails path node ≠ .error .trimQuota := by
  unfold recoverFile
  split
  · split <;> exact fun h => by cases h
  · split
    · exact fun h => by cases h
    · split
      · exact fun h => by cases h
      · split <;> exact fun h => by cases h

theorem recoverScan_ne_trimQuota (options : RangeOptions) (fails : List FilePath)
    (visits : List RecoverVisit) (d : Disk) :
    (recoverScan options fails visits d).2 ≠ .error .trimQuota := by
  induction visits generalizing d with
  | nil => exact fun h => by cases h
  | cons visit rest ih =>
    cases visit with
    | badRoot => exact fun h => by cases h
    | file path node =>
      unfold recoverScan
      split
      · next e hfile =>
        intro h
        rw [Except.error.inj h] at hfile
        exact recoverFile_ne_trimQuota hfile
      · exact ih _
      · have hrest := ih d
        split
        · exact fun h => by cases h
        · next d' e hscan =>
          rw [hscan] at hrest
          exact fun h => hrest (congrArg Except.error (Except.error.inj h))

/-- The trim of a recovery fails only where a removal does. -/
theorem recoverChunks_ne_trimQuota (options : RangeOptions) (d : Disk) (fails : List FilePath) :
    (recoverChunks options d fails).2 ≠ .error .trimQuota := by
  have hscanned := recoverScan_ne_trimQuota options fails (recoverVisits d) d
  unfold recoverChunks
  rcases hscan : recoverScan options fails (recoverVisits d) d with ⟨d', e | recovered⟩
  · rw [hscan] at hscanned
    exact fun h => hscanned (congrArg Except.error (Except.error.inj h))
  · have hindex := indexRecovered_spec hscan
    simp only
    set u := (recovered.insertionSort recoveredBefore).foldl indexRecovered (emptyPool options d')
    have hev : Evicted u (evictWhile fails oldestUnpinnedLocked
        (fun sh => sh.options.policy = .rolling ∧ sh.current > sh.options.maxBytes) u).1 :=
      evictWhile_evicted (offersUnpinned_oldestUnpinned _) u
    split
    · exact fun h => by cases h
    · next v hv =>
      -- an idle pool that offers nothing holds nothing, which is within the bound
      obtain ⟨hover, hpinned⟩ := evictWhile_stuck (fun _ => true) hv
      rw [hv] at hev
      have hidle : v.outstanding = [] := by
        rw [hev.outstanding_eq, hindex.rest_eq]
        rfl
      have hoptions : v.shared.options = options := by
        rw [hev.options_eq, hindex.shared_eq]
        rfl
      have hbooks : Books v := hev.books hindex.books
      have hzero : v.shared.current = 0 := by
        refine hbooks.current_eq_zero fun k e hk => hpinned k e hk rfl ?_
        rw [hbooks.pins_eq k e hk, hidle]
        rfl
      obtain ⟨hrolling, hexceeds⟩ := of_decide_eq_true hover
      rw [hoptions] at hrolling hexceeds
      have hbound := options.chunkBytes_le hrolling
      omega
    · exact fun h => by cases h

/-! ## What is evicted -/

/-- A section comes to this in whatever order its searches visit the entries, and so it does when its
loops take the shortest prefix of the candidates in the order of their last uses. -/
def Determined {α : Type} (comesTo : LoopRelation → α → Prop) (result : α) : Prop :=
  ∀ r, (comesTo AnyOrder r ↔ r = result) ∧ (comesTo OldestFirst r ↔ r = result)

/-- In every state that a pool reaches the entries have different access times, and what a section
evicts is determined by them; so it is for the trim of a recovery. -/
theorem eviction_oldest_first (options : RangeOptions) :
    (∀ s, PoolReaches AnyOrder options s →
      (∀ k k' e e', s.shared.chunks.lookup k = some e → s.shared.chunks.lookup k' = some e' → k ≠ k' →
        e.lastAccess ≠ e'.lastAccess) ∧
      (∀ k e, s.shared.chunks.lookup k = some e → e.lastAccess ≤ s.shared.tick) ∧
      (∀ candidate, (byLastUse s.shared candidate).Pairwise fun v w =>
        v.2.lastAccess < w.2.lastAccess) ∧
      (∀ object logicalSize fails, Determined (fun L => OpenObject L s object logicalSize fails)
        (openObject s object logicalSize fails)) ∧
      (∀ key logicalSize expected fails, Determined
        (fun L => TryReserve L s key logicalSize expected fails)
        (tryReserveLocked s key logicalSize expected fails)) ∧
      ∀ key logicalSize expected kind keep fails, Determined
        (fun L => TryReserveBackground L s key logicalSize expected kind keep fails)
        (tryReserveBackgroundLocked s key logicalSize expected kind keep fails)) ∧
    ∀ d fails, Determined (fun L => Recover L options d fails) (recoverChunks options d fails) ∧
      (recoverChunks options d fails).2 ≠ .error .trimQuota := by
  constructor
  · intro s hs
    have hb := reachable_books ((poolReaches_iff anyOrder_agrees).1 hs)
    refine ⟨?_, hb.access_le, byLastUse_pairwise hb, ?_, ?_, ?_⟩
    · exact fun k k' e e' hk hk' hne hsame => hne (hb.access_inj k k' e e' hk hk' hsame)
    · exact fun object logicalSize fails r =>
        ⟨openObject_iff anyOrder_agrees hb, openObject_iff oldestFirst_agrees hb⟩
    · exact fun key logicalSize expected fails r =>
        ⟨tryReserve_iff anyOrder_agrees hb, tryReserve_iff oldestFirst_agrees hb⟩
    · exact fun key logicalSize expected kind keep fails r =>
        ⟨tryReserveBackground_iff anyOrder_agrees hb, tryReserveBackground_iff oldestFirst_agrees hb⟩
  · exact fun d fails => ⟨fun r => ⟨recover_iff anyOrder_agrees, recover_iff oldestFirst_agrees⟩,
      recoverChunks_ne_trimQuota options d fails⟩

/-- A pinned chunk, an unpinned one of two bytes, and two fetches that fill the pool. -/
def fillingRun : List PoolLabel :=
  [.acquire ⟨"a", 0⟩ 16 4 [], .complete ⟨"a", 0⟩ true none, .acquire ⟨"a", 0⟩ 16 4 [],
    .acquire ⟨"b", 0⟩ 16 2 [], .complete ⟨"b", 0⟩ true none, .acquire ⟨"c", 0⟩ 16 4 [],
    .acquire ⟨"d", 0⟩ 16 2 []]

theorem fillingRun_reaches {s : PoolState}
    (h : (poolSystem smallOptions).run (emptyPool smallOptions ⟨∅, ∅⟩) fillingRun = some s) :
    PoolReaches AnyOrder smallOptions s :=
  (poolReaches_iff anyOrder_agrees).2 (System.reachable_of_run ⟨⟨∅, ∅⟩, [], rfl⟩ h)

theorem eviction_oldest_first_small : ∃ s, PoolReaches AnyOrder smallOptions s ∧
    (∃ e e', s.shared.chunks.lookup ⟨"a", 0⟩ = some e ∧ s.shared.chunks.lookup ⟨"b", 0⟩ = some e' ∧
      e.lastAccess ≠ e'.lastAccess) ∧
    Determined (fun L => TryReserve L s ⟨"e", 0⟩ 16 4 []) (tryReserveLocked s ⟨"e", 0⟩ 16 4 []) := by
  obtain ⟨s, hs⟩ : ∃ s, (poolSystem smallOptions).run (emptyPool smallOptions ⟨∅, ∅⟩) fillingRun =
      some s := Option.isSome_iff_exists.1 (by decide)
  have hvalues : ((poolSystem smallOptions).run (emptyPool smallOptions ⟨∅, ∅⟩) fillingRun).map
      (fun s => ((s.shared.chunks.lookup ⟨"a", 0⟩).isSome,
        (s.shared.chunks.lookup ⟨"b", 0⟩).isSome)) = some (true, true) := by decide
  rw [hs, Option.map_some, Option.some.injEq, Prod.mk.injEq] at hvalues
  obtain ⟨e, he⟩ := Option.isSome_iff_exists.1 hvalues.1
  obtain ⟨e', he'⟩ := Option.isSome_iff_exists.1 hvalues.2
  have hreaches := fillingRun_reaches hs
  obtain ⟨hdistinct, -, -, -, hreserve, -⟩ := (eviction_oldest_first smallOptions).1 s hreaches
  exact ⟨s, hreaches, ⟨e, e', he, he', hdistinct _ _ e e' he he' (by decide)⟩, hreserve _ _ _ _⟩

/-- A reservation may evict although it does not fit then, without a removal that fails. -/
theorem reservation_stuck : ¬ ∀ s, PoolReaches AnyOrder smallOptions s →
    ∀ key logicalSize expected r, TryReserve AnyOrder s key logicalSize expected [] r →
      r.2 = .fits ∨ r.1.shared.chunks.lookup ⟨"b", 0⟩ = s.shared.chunks.lookup ⟨"b", 0⟩ := by
  intro hall
  obtain ⟨s, hs⟩ : ∃ s, (poolSystem smallOptions).run (emptyPool smallOptions ⟨∅, ∅⟩) fillingRun =
      some s := Option.isSome_iff_exists.1 (by decide)
  have hvalues : ((poolSystem smallOptions).run (emptyPool smallOptions ⟨∅, ∅⟩) fillingRun).map
      (fun s => ((tryReserveLocked s ⟨"e", 0⟩ 16 4 []).2,
        ((tryReserveLocked s ⟨"e", 0⟩ 16 4 []).1.shared.chunks.lookup ⟨"b", 0⟩).isSome,
        (s.shared.chunks.lookup ⟨"b", 0⟩).isSome)) = some (.stuck, false, true) := by decide
  rw [hs, Option.map_some, Option.some.injEq, Prod.mk.injEq, Prod.mk.injEq] at hvalues
  obtain ⟨hstuck, hdropped, hheld⟩ := hvalues
  have hreaches := fillingRun_reaches hs
  have hb := reachable_books ((poolReaches_iff anyOrder_agrees).1 hreaches)
  rcases hall s hreaches ⟨"e", 0⟩ 16 4 _ ((tryReserve_iff anyOrder_agrees hb).2 rfl) with hfits | hsame
  · rw [hstuck] at hfits
    cases hfits
  · rw [hsame, hheld] at hdropped
    cases hdropped

end BlackPearl.Cache
