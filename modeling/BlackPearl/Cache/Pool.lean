import BlackPearl.Library.Eviction
import BlackPearl.Library.Transition
import BlackPearl.Cache.Chunks

/-!
# The shared pool of the range cache

Every section of `internal/cache/rolling.go` that runs under the pool's mutex, as a function on
`PoolState`, and the recovery that `newRangePool` runs before anyone else sees the pool. The pool
system has one label for each section; what the environment decides (which `os.Remove` calls fail,
what a fetch ended with) is part of the label.

Go visits a map in any order. The least-recently-used searches below visit the table in its own
order, which gives the same entry: the access times of the entries are distinct (`Books.access_inj`).
-/

set_option autoImplicit false

namespace BlackPearl.Cache

open BlackPearl.Library

/-- The pool, the files below its root, and what the code keeps outside `rollingShared`:
`outstanding` holds the addresses of the entries that `acquireChunk` returned and that were not
released yet, `finished` the calls whose `done` channel is closed, with their `err`, and the last
two fields the next free addresses. -/
structure PoolState where
  shared : RollingShared
  disk : Disk
  outstanding : List ℕ
  finished : Table ℕ (Option FetchError)
  nextEntry : ℕ
  nextCall : ℕ

/-! ## Usage and the least recently used entries -/

/-- `objectUsageLocked`. -/
def objectUsageLocked (sh : RollingShared) (object : String) : ℤ :=
  sh.chunks.total (fun k e => if k.object = object then (e.size : ℤ) else 0) +
    sh.inflight.total (fun k c => if k.object = object then (c.expected : ℤ) else 0)

/-- The unpinned entry that was used longest ago among those whose key is a candidate. -/
def oldestUnpinned (sh : RollingShared) (candidate : ChunkKey → Bool) :
    Option (ChunkKey × ChunkEntry) :=
  sh.chunks.selectMin (fun k e => candidate k && e.pins == 0) ChunkEntry.lastAccess

def oldestUnpinnedLocked (sh : RollingShared) : Option (ChunkKey × ChunkEntry) :=
  oldestUnpinned sh fun _ => true

def oldestUnpinnedExceptLocked (sh : RollingShared) (keep : Option ChunkKey) :
    Option (ChunkKey × ChunkEntry) :=
  oldestUnpinned sh fun k => keep != some k

def oldestUnpinnedObjectChunkExceptLocked (sh : RollingShared) (object : String)
    (keep : Option ChunkKey) : Option (ChunkKey × ChunkEntry) :=
  oldestUnpinned sh fun k => k.object == object && keep != some k

theorem oldestUnpinned_some {sh : RollingShared} {candidate : ChunkKey → Bool} {k : ChunkKey}
    {e : ChunkEntry} (h : oldestUnpinned sh candidate = some (k, e)) :
    sh.chunks.lookup k = some e ∧ e.pins = 0 ∧ candidate k = true := by
  obtain ⟨hk, hp, -⟩ := Table.selectMin_eq_some h
  rw [Bool.and_eq_true, beq_iff_eq] at hp
  exact ⟨hk, hp.2, hp.1⟩

/-! ## Eviction -/

/-- Drop an entry whose file has been removed. -/
def dropChunk (s : PoolState) (victim : ChunkKey × ChunkEntry) : PoolState :=
  { s with
    shared := { s.shared with
      chunks := s.shared.chunks.erase victim.1
      current := s.shared.current - victim.2.size
      evictions := s.shared.evictions + 1 }
    disk := s.disk.remove victim.2.path }

/-- The eviction loops of the pool: while `over`, take the victim that `oldest` finds; removing its
file fails for the paths in `fails`. -/
def evictor (fails : List FilePath) (oldest : RollingShared → Option (ChunkKey × ChunkEntry))
    (exceeds : RollingShared → Bool) : Evictor PoolState (ChunkKey × ChunkEntry) where
  exceeds s := exceeds s.shared
  victim s := oldest s.shared
  removable v := v.2.path ∉ fails
  drop := dropChunk

/-- Run an eviction loop; each round drops an entry, so the number of entries bounds the rounds. -/
def evictWhile (fails : List FilePath) (oldest : RollingShared → Option (ChunkKey × ChunkEntry))
    (exceeds : RollingShared → Bool) (s : PoolState) : PoolState × EvictOutcome :=
  (evictor fails oldest exceeds).run s.shared.chunks.entries.length s

/-- `ensureIncompleteObjectLocked`: `fits` is `true, nil`, `stuck` is `false, nil` and `failed` is
an error of `os.Remove`. -/
def ensureIncompleteObjectLocked (s : PoolState) (object : String) (logicalSize expected : ℕ)
    (keep : Option ChunkKey) (fails : List FilePath) : PoolState × EvictOutcome :=
  evictWhile fails (oldestUnpinnedObjectChunkExceptLocked · object keep)
    (fun sh => objectUsageLocked sh object + expected > (logicalSize : ℤ) - 1) s

/-- `reserveLocked`. -/
def reserveLocked (s : PoolState) (expected : ℕ) : PoolState :=
  { s with shared := { s.shared with
      reserved := s.shared.reserved + expected
      highWater := max s.shared.highWater (s.shared.current + (s.shared.reserved + expected)) } }

/-- `tryReserveLocked`. -/
def tryReserveLocked (s : PoolState) (key : ChunkKey) (logicalSize expected : ℕ)
    (fails : List FilePath) : PoolState × EvictOutcome :=
  match s.shared.options.policy with
  | .persistent => (reserveLocked s expected, .fits)
  | .rolling =>
      match ensureIncompleteObjectLocked s key.object logicalSize expected none fails with
      | (s, .fits) =>
          match evictWhile fails oldestUnpinnedLocked
              (fun sh => sh.current + sh.reserved + expected > sh.options.maxBytes) s with
          | (s, .fits) => (reserveLocked s expected, .fits)
          | (s, outcome) => (s, outcome)
      | (s, outcome) => (s, outcome)

def recordBackgroundFetchLocked (s : PoolState) (kind : BackgroundFetchKind) : PoolState :=
  match kind with
  | .none => s
  | .readAhead => { s with shared := { s.shared with
      readAheadFetches := s.shared.readAheadFetches + 1 } }
  | .nextEpisode => { s with shared := { s.shared with
      nextEpisodeFetches := s.shared.nextEpisodeFetches + 1 } }

def recordBackgroundErrorLocked (s : PoolState) (kind : BackgroundFetchKind) : PoolState :=
  match kind with
  | .none => s
  | .readAhead => { s with shared := { s.shared with
      readAheadErrors := s.shared.readAheadErrors + 1 } }
  | .nextEpisode => { s with shared := { s.shared with
      nextEpisodeErrors := s.shared.nextEpisodeErrors + 1 } }

/-- `tryReserveBackgroundLocked`: a next-episode fetch gives up where a read-ahead evicts. -/
def tryReserveBackgroundLocked (s : PoolState) (key : ChunkKey) (logicalSize expected : ℕ)
    (kind : BackgroundFetchKind) (keep : Option ChunkKey) (fails : List FilePath) :
    PoolState × Bool :=
  match s.shared.options.policy with
  | .persistent => (reserveLocked s expected, true)
  | .rolling =>
      match ensureIncompleteObjectLocked s key.object logicalSize expected keep fails with
      | (s, .failed) => (recordBackgroundErrorLocked s kind, false)
      | (s, .stuck) => (s, false)
      | (s, .fits) =>
          if kind = .nextEpisode ∧ s.shared.current + s.shared.reserved + expected >
              s.shared.options.maxBytes - s.shared.options.chunkBytes then (s, false)
          else
            match evictWhile fails (oldestUnpinnedExceptLocked · keep)
                (fun sh => sh.current + sh.reserved + expected >
                  sh.options.maxBytes - sh.options.chunkBytes) s with
            | (s, .failed) => (recordBackgroundErrorLocked s kind, false)
            | (s, .stuck) => (s, false)
            | (s, .fits) => (reserveLocked s expected, true)

/-! ## The locked sections -/

/-- What one pass through the locked section of `acquireChunk` comes to: the chunk is present, a
fetch of it is already running, a fetch has been started, nothing could be reserved, or an eviction
failed. -/
inductive AcquireResult
  | hit (entry : ChunkEntry)
  | join (call : FetchCall)
  | started (call : FetchCall)
  | wait (notify : ℕ)
  | failed
  deriving DecidableEq, Repr

/-- Pin a present entry. -/
def pinChunk (s : PoolState) (key : ChunkKey) (entry : ChunkEntry) : PoolState × ChunkEntry :=
  let entry := { entry with lastAccess := s.shared.tick + 1, pins := entry.pins + 1 }
  ({ s with
      shared := { s.shared with
        tick := s.shared.tick + 1
        chunks := s.shared.chunks.insert key entry
        hits := s.shared.hits + 1 }
      outstanding := entry.ref :: s.outstanding }, entry)

/-- Register a new fetch of `key`. -/
def startFetch (s : PoolState) (key : ChunkKey) (kind : BackgroundFetchKind) (expected : ℕ) :
    PoolState × FetchCall :=
  let call : FetchCall := ⟨s.nextCall, kind, expected⟩
  ({ s with
      shared := { s.shared with inflight := s.shared.inflight.insert key call }
      nextCall := s.nextCall + 1 }, call)

/-- The locked section of `acquireChunk`. -/
def acquireChunkLocked (s : PoolState) (key : ChunkKey) (logicalSize expected : ℕ)
    (fails : List FilePath) : PoolState × AcquireResult :=
  match s.shared.chunks.lookup key with
  | some entry =>
      let (s, entry) := pinChunk s key entry
      (s, .hit entry)
  | none =>
      match s.shared.inflight.lookup key with
      | some call => (s, .join call)
      | none =>
          match tryReserveLocked s key logicalSize expected fails with
          | (s, .failed) => (s, .failed)
          | (s, .stuck) => (s, .wait s.shared.notify)
          | (s, .fits) =>
              let (s, call) := startFetch s key .none expected
              ({ s with shared := { s.shared with misses := s.shared.misses + 1 } }, .started call)

/-- `signalLocked`. -/
def signalLocked (s : PoolState) : PoolState :=
  { s with shared := { s.shared with notify := s.shared.notify + 1 } }

/-- `releaseChunk` of the entry at address `ref`. -/
def releaseChunk (s : PoolState) (ref : ℕ) : PoolState :=
  signalLocked { s with
    shared := { s.shared with
      chunks := s.shared.chunks.mapValues fun _ e =>
        if e.ref = ref then { e with pins := e.pins - 1 } else e }
    outstanding := s.outstanding.erase ref }

/-- What one round of `scheduleBackgroundChunks` comes to: the chunk is there or on its way, a fetch
has been started, or the loop returns. -/
inductive ScheduleResult
  | present
  | started (call : FetchCall)
  | refused
  deriving DecidableEq, Repr

/-- The locked section of `scheduleBackgroundChunks`. -/
def scheduleChunkLocked (s : PoolState) (key : ChunkKey) (logicalSize expected : ℕ)
    (kind : BackgroundFetchKind) (keep : Option ChunkKey) (fails : List FilePath) :
    PoolState × ScheduleResult :=
  if (s.shared.chunks.lookup key).isSome ∨ (s.shared.inflight.lookup key).isSome then (s, .present)
  else
    match tryReserveBackgroundLocked s key logicalSize expected kind keep fails with
    | (s, false) => (s, .refused)
    | (s, true) =>
        let (s, call) := startFetch s key kind expected
        (recordBackgroundFetchLocked s kind, .started call)

/-- Put a new unpinned entry into the index. -/
def addEntry (s : PoolState) (key : ChunkKey) (path : FilePath) (size : ℕ) : PoolState :=
  { s with
    shared := { s.shared with
      current := s.shared.current + size
      tick := s.shared.tick + 1
      chunks := s.shared.chunks.insert key ⟨s.nextEntry, path, size, 0, s.shared.tick + 1⟩ }
    nextEntry := s.nextEntry + 1 }

/-- Store the entry of a fetch that returned one. -/
def storeChunk (s : PoolState) (key : ChunkKey) (expected : ℕ) : PoolState :=
  addEntry { s with shared := { s.shared with fetches := s.shared.fetches + 1 } } key
    (chunkPath key) expected

/-- Take the call off the in-flight table and close its `done` channel. -/
def closeCall (s : PoolState) (key : ChunkKey) (call : FetchCall) (err : Option FetchError) :
    PoolState :=
  { s with
    shared := { s.shared with
      reserved := s.shared.reserved - call.expected
      inflight := s.shared.inflight.erase key }
    finished := s.finished.insert call.ref err }

/-- The locked section of `runFetch`: `stored` says whether the fetch returned an entry, `err` what
error it returned. -/
def completeFetch (s : PoolState) (key : ChunkKey) (call : FetchCall) (stored : Bool)
    (err : Option FetchError) : PoolState :=
  let s := closeCall s key call err
  let s := if stored then storeChunk s key call.expected else s
  let s := if err.isSome then recordBackgroundErrorLocked s call.kind else s
  signalLocked s

/-- The locked section of `RollingSource.Open`. -/
def openObject (s : PoolState) (object : String) (logicalSize : ℕ) (fails : List FilePath) :
    PoolState × EvictOutcome :=
  match s.shared.options.policy with
  | .persistent => (s, .fits)
  | .rolling => ensureIncompleteObjectLocked s object logicalSize 0 none fails

/-! ## Recovery -/

inductive RecoverError
  | rootEntry
  | removeTemporary
  | chunkName
  | chunkFile
  | trimQuota
  | removeChunk
  deriving DecidableEq, Repr

/-- `recoveredChunk`. -/
structure RecoveredChunk where
  key : ChunkKey
  path : FilePath
  size : ℕ
  modified : ℤ
  deriving DecidableEq, Repr

/-- One entry of an object directory during recovery: an abandoned temporary file is removed
(`none`), a chunk file is taken over, anything else is refused. -/
def recoverFile (options : RangeOptions) (fails : List FilePath) (path : FilePath)
    (node : FileNode) : Except RecoverError (Option RecoveredChunk) :=
  if isFetchTemporary path.name then
    if path ∈ fails then .error .removeTemporary else .ok none
  else
    match rollingChunkPattern path.name with
    | none => .error .chunkName
    | some digits =>
        if node.kind = .symlink ∨ node.kind = .directory then .error .chunkName
        else if node.kind ≠ .regular ∨ node.content.length = 0 ∨
            node.content.length > options.chunkBytes then .error .chunkFile
        else .ok (some ⟨⟨path.directory, decimalValue digits⟩, path, node.content.length, node.modified⟩)

/-- What recovery comes across: an entry of the root that is no object directory, or a file in an
object directory. -/
inductive RecoverVisit
  | badRoot
  | file (path : FilePath) (node : FileNode)

/-- The entries recovery visits, directory by directory. -/
def recoverVisits (d : Disk) : List RecoverVisit :=
  d.root.entries.flatMap fun entry =>
    if entry.2 && rollingObjectPattern entry.1 then
      (d.files.entries.filter fun f => f.1.directory == entry.1).map fun f => .file f.1 f.2
    else [.badRoot]

/-- The first loop of `recoverChunks`. -/
def recoverScan (options : RangeOptions) (fails : List FilePath) :
    List RecoverVisit → Disk → Disk × Except RecoverError (List RecoveredChunk)
  | [], d => (d, .ok [])
  | .badRoot :: _, d => (d, .error .rootEntry)
  | .file path node :: rest, d =>
      match recoverFile options fails path node with
      | .error e => (d, .error e)
      | .ok none => recoverScan options fails rest (d.remove path)
      | .ok (some chunk) =>
          match recoverScan options fails rest d with
          | (d, .ok chunks) => (d, .ok (chunk :: chunks))
          | (d, .error e) => (d, .error e)

/-- The order of the recovered chunks: by modification time, then by path. -/
def recoveredBefore (l r : RecoveredChunk) : Prop :=
  l.modified < r.modified ∨
    (l.modified = r.modified ∧ l.path.directory ++ "/" ++ l.path.name ≤
      r.path.directory ++ "/" ++ r.path.name)

instance : DecidableRel recoveredBefore := fun l r =>
  inferInstanceAs (Decidable (l.modified < r.modified ∨
    (l.modified = r.modified ∧ l.path.directory ++ "/" ++ l.path.name ≤
      r.path.directory ++ "/" ++ r.path.name)))

/-- Enter a recovered chunk into the index. -/
def indexRecovered (s : PoolState) (chunk : RecoveredChunk) : PoolState :=
  addEntry s chunk.key chunk.path chunk.size

/-- A pool with no chunks and no fetches. -/
def emptyPool (options : RangeOptions) (d : Disk) : PoolState where
  shared := {
    options := options
    chunks := ∅
    inflight := ∅
    notify := 0
    current := 0
    reserved := 0
    highWater := 0
    tick := 0
    hits := 0
    misses := 0
    fetches := 0
    evictions := 0
    readAheadFetches := 0
    readAheadErrors := 0
    nextEpisodeFetches := 0
    nextEpisodeErrors := 0 }
  disk := d
  outstanding := []
  finished := ∅
  nextEntry := 0
  nextCall := 0

/-- `recoverChunks` on the files below the root: the files it leaves and the pool or an error. -/
def recoverChunks (options : RangeOptions) (d : Disk) (fails : List FilePath) :
    Disk × Except RecoverError PoolState :=
  match recoverScan options fails (recoverVisits d) d with
  | (d, .error e) => (d, .error e)
  | (d, .ok recovered) =>
      let s := (recovered.insertionSort recoveredBefore).foldl indexRecovered (emptyPool options d)
      match evictWhile fails oldestUnpinnedLocked
          (fun sh => sh.options.policy = .rolling ∧ sh.current > sh.options.maxBytes) s with
      | (s, .failed) => (s.disk, .error .removeChunk)
      | (s, .stuck) => (s.disk, .error .trimQuota)
      | (s, .fits) =>
          (s.disk, .ok { s with shared := { s.shared with highWater := s.shared.current } })

/-! ## The pool system -/

/-- One section under the mutex, or one change that a running fetch makes to its own files. -/
inductive PoolLabel
  | openObject (object : String) (logicalSize : ℕ) (fails : List FilePath)
  | acquire (key : ChunkKey) (logicalSize expected : ℕ) (fails : List FilePath)
  | release (ref : ℕ)
  | schedule (key : ChunkKey) (logicalSize expected : ℕ) (kind : BackgroundFetchKind)
      (keep : Option ChunkKey) (fails : List FilePath)
  | writeFile (key : ChunkKey) (path : FilePath) (node : FileNode)
  | removeFile (key : ChunkKey) (path : FilePath)
  | makeDirectory (directory : String)
  | complete (key : ChunkKey) (stored : Bool) (err : Option FetchError)
  | record (kind : BackgroundFetchKind)
  | countDirect (misses fetches : ℕ)

/-- A fetch touches the chunk file of its own key and temporary files. -/
def ownFile (key : ChunkKey) (path : FilePath) : Bool :=
  path == chunkPath key || isFetchTemporary path.name

/-- The step function: an entry is released only by someone who acquired it, and only a fetch that
is in flight touches files or completes. -/
def poolStep (s : PoolState) : PoolLabel → Option PoolState
  | .openObject object logicalSize fails => some (openObject s object logicalSize fails).1
  | .acquire key logicalSize expected fails =>
      some (acquireChunkLocked s key logicalSize expected fails).1
  | .release ref => if ref ∈ s.outstanding then some (releaseChunk s ref) else none
  | .schedule key logicalSize expected kind keep fails =>
      some (scheduleChunkLocked s key logicalSize expected kind keep fails).1
  | .writeFile key path node =>
      if (s.shared.inflight.lookup key).isSome ∧ ownFile key path then
        some { s with disk := s.disk.write path node }
      else none
  | .removeFile key path =>
      if (s.shared.inflight.lookup key).isSome ∧ ownFile key path then
        some { s with disk := s.disk.remove path }
      else none
  | .makeDirectory directory => some { s with disk := s.disk.mkdir directory }
  | .complete key stored err =>
      match s.shared.inflight.lookup key with
      | some call => some (completeFetch s key call stored err)
      | none => none
  | .record kind => some (recordBackgroundErrorLocked s kind)
  | .countDirect misses fetches =>
      some { s with shared := { s.shared with
        misses := s.shared.misses + misses, fetches := s.shared.fetches + fetches } }

/-- The pool, started by any successful recovery with the given options. -/
def poolSystem (options : RangeOptions) : System PoolState PoolLabel where
  init s := ∃ d fails, (recoverChunks options d fails).2 = .ok s
  step := poolStep

end BlackPearl.Cache
