import BlackPearl.Library.Slice
import BlackPearl.Domain.Media
import BlackPearl.Cache.Retention

/-!
# Readers, fetches and handles of the range cache

The goroutines around the shared pool: `rollingHandle.ReadAt` from its first check to its return,
`scheduleBackgroundChunks` and `prefetchMediaPrefix`, `runFetch` with the up to three attempts of
`fetchChunkWithRetry`, and `Open` and `Close`. Every label is one atomic action of one of them, so a
run of `cacheStep` is an interleaving. Labels carry what the outside decides: results of the opener
and of range requests, file system failures, whether a context has expired.

A `restart` drops every goroutine and runs recovery on the files that are left.
-/

set_option autoImplicit false

namespace BlackPearl.Cache

open BlackPearl.Library BlackPearl.Domain

/-! ## Objects and their keys -/

/-- The string `objectCacheKey` hashes. -/
def objectCacheMessage (backing : BackingRef) (validator : String) : String :=
  backing.provider ++ "\x00" ++ backing.objectID ++ "\x00" ++ validator

/-- `objectCacheKey`, over the hexadecimal SHA-256 of a string. -/
def objectCacheKey (sha256Hex : String → String) (backing : BackingRef) (validator : String) :
    String :=
  sha256Hex (objectCacheMessage backing validator)

/-! ## Goroutines -/

/-- The error of a range read: the end of the object, or a failure. -/
inductive ReadError
  | eof
  | failed (err : FetchError)
  deriving DecidableEq, Repr

/-- The result of one `RangeSource.ReadAt`: the bytes it delivered and its error. -/
structure RangeRead where
  bytes : List UInt8
  err : Option ReadError
  deriving DecidableEq, Repr

/-- `rollingHandle`. Contexts are numbered; `readAheadStopped` says that `Close` has run
`cancelReadAhead`. -/
structure Handle where
  backing : BackingRef
  size : ℕ
  validator : String
  closed : Bool
  readAheadStopped : Bool
  readAheadContext : Option ℕ
  readAheadGeneration : ℕ
  lastReadEnd : ℕ
  hasLastRead : Bool
  deriving DecidableEq, Repr

/-- The arguments of `scheduleBackgroundChunks` with the loop's progress. No context stands for the
lifecycle of the pool. -/
structure BackgroundRun where
  context : Option ℕ
  backing : BackingRef
  validator : String
  logicalSize : ℕ
  next : ℕ
  remaining : ℕ
  kind : BackgroundFetchKind
  keep : Option ChunkKey
  deriving DecidableEq, Repr

/-- Where a `ReadAt` stands. -/
inductive ReaderPhase
  | starting
  | beginning
  | copying
  | awaiting (call : FetchCall)
  | parked (notify : ℕ)
  | holding (entry : ChunkEntry)
  | releasing (entry : ChunkEntry) (failed : Bool)
  | scheduling (run : BackgroundRun)
  | direct
  | done (err : Option ReadError)
  deriving DecidableEq, Repr

/-- A `ReadAt` call; `buffer` is the part of the destination that has been written. -/
structure Reader where
  handle : ℕ
  offset : ℤ
  length : ℕ
  buffer : List UInt8
  context : ℕ
  generation : ℕ
  phase : ReaderPhase
  deriving DecidableEq, Repr

/-- Where a fetch stands within its current attempt. -/
inductive FetchPhase
  | opening
  | creating
  | reading (temporary : FilePath)
  | writing (temporary : FilePath) (buffer : List UInt8)
  | renaming (temporary : FilePath) (buffer : List UInt8)
  | sealing
  | closing (stored : Bool) (err : Option FetchError)
  | returned (stored : Bool) (err : Option FetchError)
  deriving DecidableEq, Repr

/-- A `runFetch` goroutine. -/
structure Fetcher where
  call : FetchCall
  parent : Option ℕ
  key : ChunkKey
  backing : BackingRef
  validator : String
  logicalSize : ℕ
  offset : ℕ
  attempt : ℕ
  phase : FetchPhase
  deriving DecidableEq, Repr

/-- A `prefetchMediaPrefix` goroutine: before its source is open, or scheduling. -/
inductive Prefetch
  | opening (backing : BackingRef) (size : ℕ)
  | scheduling (run : BackgroundRun)
  deriving DecidableEq, Repr

/-- The process: the pool and its goroutines. `running` is false when recovery has failed. -/
structure CacheState where
  running : Bool
  pool : PoolState
  handles : Table ℕ Handle
  readers : Table ℕ Reader
  fetchers : Table ℕ Fetcher
  prefetchers : Table ℕ Prefetch
  cancelled : List ℕ
  nextContext : ℕ
  lifecycleDone : Bool

/-- A process that has just created its pool. -/
def freshCache (running : Bool) (pool : PoolState) : CacheState where
  running := running
  pool := pool
  handles := ∅
  readers := ∅
  fetchers := ∅
  prefetchers := ∅
  cancelled := []
  nextContext := 0
  lifecycleDone := false

/-- `ctx.Err() != nil` for a read-ahead context or, without one, the lifecycle. -/
def contextDone (s : CacheState) (context : Option ℕ) : Bool :=
  s.lifecycleDone || match context with
    | none => false
    | some c => s.cancelled.contains c

/-! ## Reading -/

/-- The bytes a `ReadAt` wants: the destination clipped at the end of the object. -/
def wantedLength (h : Handle) (r : Reader) : ℕ := min r.length (h.size - r.offset.toNat)

/-- Whether the destination reaches past the end of the object. -/
def partialRead (h : Handle) (r : Reader) : Bool := h.size - r.offset.toNat < r.length

/-- The result at the end of a complete read. -/
def readResult (h : Handle) (r : Reader) : Option ReadError :=
  if partialRead h r then some .eof else none

/-- The phase of a reader after a round of read-ahead scheduling. -/
def schedulingPhase (h : Handle) (r : Reader) : Option BackgroundRun → ReaderPhase
  | some run => .scheduling run
  | none => .done (readResult h r)

/-- The position of the next byte. -/
def logicalOffset (r : Reader) : ℕ := r.offset.toNat + r.buffer.length

def readerChunkIndex (chunkBytes : ℕ) (r : Reader) : ℕ := logicalOffset r / chunkBytes

def readerWithinChunk (chunkBytes : ℕ) (r : Reader) : ℕ := logicalOffset r % chunkBytes

def readerKey (sha256Hex : String → String) (chunkBytes : ℕ) (h : Handle) (r : Reader) : ChunkKey :=
  ⟨objectCacheKey sha256Hex h.backing h.validator, readerChunkIndex chunkBytes r⟩

/-- How many bytes of the current chunk are copied. -/
def readerCopyLength (chunkBytes : ℕ) (h : Handle) (r : Reader) : ℕ :=
  min (chunkLength chunkBytes h.size (readerChunkIndex chunkBytes r) - readerWithinChunk chunkBytes r)
    (wantedLength h r - r.buffer.length)

/-- The checks at the start of `ReadAt`. -/
def startRead (options : RangeOptions) (h : Handle) (r : Reader) (expired : Option FetchError) :
    ReaderPhase :=
  match expired with
  | some e => .done (some (.failed e))
  | none =>
      if h.closed then .done (some (.failed .other))
      else if r.offset < 0 then .done (some (.failed .other))
      else if r.length = 0 then .done none
      else if h.size ≤ r.offset.toNat then .done (some .eof)
      else if options.policy = .rolling ∧ h.size ≤ options.chunkBytes then .direct
      else .beginning

/-- `beginRead`: a read that does not continue the previous one gets a new read-ahead context, and
the old one is cancelled. -/
def beginRead (s : CacheState) (h : Handle) (offset : ℕ) : CacheState × Handle :=
  if h.readAheadContext.isNone ∨ (h.hasLastRead ∧ offset ≠ h.lastReadEnd) then
    ({ s with
        cancelled := s.cancelled ++ h.readAheadContext.toList
        nextContext := s.nextContext + 1 },
      { h with
        readAheadContext := some s.nextContext
        readAheadGeneration := h.readAheadGeneration + 1 })
  else (s, h)

/-- `readChunk` on the file of an entry: `fault` is a read error after that many bytes. -/
def readChunk (d : Disk) (path : FilePath) (count offset : ℕ) (fault : Option ℕ) :
    List UInt8 × Bool :=
  match d.files.lookup path with
  | none => ([], true)
  | some node =>
      match fault with
      | some n => (slice node.content offset (min n count), true)
      | none =>
          let bytes := slice node.content offset count
          (bytes, bytes.length ≠ count)

/-- The attempts of `readWithoutDiskCache`: each comes with whether the context had expired after
it; the loop ends at the first result that is not a failure, at an expired context, or with the last
attempt. -/
def directAttempts : ℕ → List (RangeRead × Bool) → Option RangeRead
  | _, [] => none
  | 0, _ :: _ => none
  | n + 1, (r, expired) :: rest =>
      match r.err with
      | some (.failed _) =>
          if expired ∨ n = 0 then if rest = [] then some r else none else directAttempts n rest
      | _ => if rest = [] then some r else none

/-! ## Fetching -/

/-- `errors.Join`, as far as waiters can tell: a cancellation on either side shows. -/
def joinErrors : Option FetchError → Option FetchError → Option FetchError
  | none, e => e
  | some .canceled, _ => some .canceled
  | some .other, some .canceled => some .canceled
  | some .other, _ => some .other

/-- What `opener.Open` returned. -/
inductive OpenOutcome
  | failed (err : FetchError)
  | source (size : ℕ) (validator : String)
  deriving DecidableEq, Repr

/-- After an attempt has failed: the next attempt, or the return of `fetchChunkWithRetry`. -/
def retryFetch (f : Fetcher) (err : FetchError) (expired : Bool) : Fetcher :=
  if f.attempt < maximumRangeFetchAttempts ∧ ¬ expired then
    { f with attempt := f.attempt + 1, phase := .opening }
  else { f with phase := .returned false (some err) }

/-- The start of an attempt: the opened source must have the requested size and validator.
`closeErr` is the error of closing a source that does not. -/
def openFetch (f : Fetcher) (outcome : OpenOutcome) (closeErr : Option FetchError) (expired : Bool) :
    Fetcher :=
  match outcome with
  | .failed e => retryFetch f e expired
  | .source size validator =>
      if size ≠ f.logicalSize ∨ validator ≠ f.validator then
        { f with phase := .returned false (joinErrors (some .other) closeErr) }
      else { f with phase := .creating }

/-- The end of an attempt: the source is closed. -/
def closeFetch (f : Fetcher) (stored : Bool) (err closeErr : Option FetchError) (expired : Bool) :
    Fetcher :=
  match joinErrors err closeErr with
  | none => { f with phase := .returned stored none }
  | some e =>
      if stored then { f with phase := .returned true (some e) } else retryFetch f e expired

/-- Whether a range read filled the buffer of a fetch. -/
def fetchReadError (expected : ℕ) (r : RangeRead) : Option FetchError :=
  match r.err with
  | some (.failed e) => some e
  | _ => if r.bytes.length = expected then none else some .other

/-- Remove a file, unless the removal fails. -/
def tryRemove (d : Disk) (path : FilePath) (removed : Bool) : Disk :=
  if removed then d.remove path else d

/-- A `runFetch` goroutine that has just been started. -/
def newFetcher (call : FetchCall) (parent : Option ℕ) (key : ChunkKey) (backing : BackingRef)
    (validator : String) (logicalSize chunkBytes : ℕ) : Fetcher where
  call := call
  parent := parent
  key := key
  backing := backing
  validator := validator
  logicalSize := logicalSize
  offset := key.index * chunkBytes
  attempt := 1
  phase := .opening

/-! ## Scheduling -/

/-- One round of `scheduleBackgroundChunks`: the pool afterwards, the fetch it started, and the rest
of the loop unless it returned. -/
def scheduleRound (sha256Hex : String → String) (pool : PoolState) (run : BackgroundRun)
    (contextDone : Bool) (fails : List FilePath) :
    PoolState × Option Fetcher × Option BackgroundRun :=
  let chunkBytes := pool.shared.options.chunkBytes
  let expected := chunkLength chunkBytes run.logicalSize run.next
  if run.remaining = 0 ∨ contextDone ∨ expected = 0 then (pool, none, none)
  else
    let key : ChunkKey := ⟨objectCacheKey sha256Hex run.backing run.validator, run.next⟩
    let rest : BackgroundRun := { run with next := run.next + 1, remaining := run.remaining - 1 }
    match scheduleChunkLocked pool key run.logicalSize expected run.kind run.keep fails with
    | (pool, .present) => (pool, none, some rest)
    | (pool, .refused) => (pool, none, none)
    | (pool, .started call) =>
        (pool, some (newFetcher call run.context key run.backing run.validator run.logicalSize
          chunkBytes), some rest)

/-- The fetch table with a fetch that has just been started. -/
def addFetcher (fetchers : Table ℕ Fetcher) : Option Fetcher → Table ℕ Fetcher
  | none => fetchers
  | some f => fetchers.insert f.call.ref f

/-! ## The step function -/

inductive CacheLabel
  | openHandle (id : ℕ) (backing : BackingRef) (catalogSize : ℕ) (outcome : OpenOutcome)
      (fails : List FilePath)
  | markClosed (id : ℕ)
  | stopReadAhead (id : ℕ)
  | read (id handle : ℕ) (offset : ℤ) (length : ℕ)
  | start (id : ℕ) (expired : Option FetchError)
  | begin (id : ℕ)
  | acquire (id : ℕ) (expired : Option FetchError) (fails : List FilePath)
  | wake (id : ℕ) (expired : Option FetchError)
  | unpark (id : ℕ) (expired : Option FetchError)
  | readFile (id : ℕ) (fault : Option ℕ)
  | release (id : ℕ)
  | finish (id : ℕ)
  | schedule (id : ℕ) (fails : List FilePath)
  | direct (id : ℕ) (attempts : List (RangeRead × Bool))
  | prefetch (id : ℕ) (backing : BackingRef) (size : ℕ)
  | prefetchOpen (id : ℕ) (outcome : OpenOutcome) (closeFails : Bool)
  | prefetchSchedule (id : ℕ) (fails : List FilePath)
  | fetchOpen (id : ℕ) (outcome : OpenOutcome) (closeErr : Option FetchError) (expired : Bool)
  | fetchCreate (id : ℕ) (made : Bool) (suffix : Option String)
  | fetchRead (id : ℕ) (result : RangeRead) (removed : Bool)
  | fetchWrite (id : ℕ) (ok removed : Bool)
  | fetchRename (id : ℕ) (ok removed : Bool) (modified : ℤ)
  | fetchSeal (id : ℕ) (ok removed : Bool)
  | fetchClose (id : ℕ) (closeErr : Option FetchError) (expired : Bool)
  | fetchComplete (id : ℕ)
  | shutdown
  | restart (options : RangeOptions) (fails : List FilePath)

section Steps

variable (sha256Hex : String → String)

/-- Replace a reader. -/
def setReader (s : CacheState) (id : ℕ) (r : Reader) : CacheState :=
  { s with readers := s.readers.insert id r }

/-- Replace a fetch goroutine. -/
def setFetcher (s : CacheState) (id : ℕ) (f : Fetcher) : CacheState :=
  { s with fetchers := s.fetchers.insert id f }

/-- `Open`. -/
def stepOpen (s : CacheState) (id : ℕ) (backing : BackingRef) (catalogSize : ℕ)
    (outcome : OpenOutcome) (fails : List FilePath) : Option CacheState :=
  if (s.handles.lookup id).isSome then none
  else
    match outcome with
    | .failed _ => some s
    | .source size validator =>
        if size ≠ catalogSize then some s
        else
          match openObject s.pool (objectCacheKey sha256Hex backing validator) catalogSize fails with
          | (pool, .fits) => some { s with
              pool := pool
              handles := s.handles.insert id {
                backing := backing
                size := catalogSize
                validator := validator
                closed := false
                readAheadStopped := false
                readAheadContext := none
                readAheadGeneration := 0
                lastReadEnd := 0
                hasLastRead := false } }
          | (pool, _) => some { s with pool := pool }

/-- The actions of a `ReadAt` call, once it and its handle have been found. -/
def stepReader (s : CacheState) (id : ℕ) (r : Reader) (h : Handle) :
    CacheLabel → Option CacheState
  | .start _ expired =>
      if r.phase = .starting then
        some (setReader s id { r with phase := startRead s.pool.shared.options h r expired })
      else none
  | .begin _ =>
      if r.phase = .beginning then
        let (s, h) := beginRead s h r.offset.toNat
        some (setReader { s with handles := s.handles.insert r.handle h } id { r with
          context := h.readAheadContext.getD 0
          generation := h.readAheadGeneration
          phase := .copying })
      else none
  | .acquire _ expired fails =>
      if r.phase = .copying ∧ r.buffer.length < wantedLength h r then
        match expired with
        | some e => some (setReader s id { r with phase := .done (some (.failed e)) })
        | none =>
            let chunkBytes := s.pool.shared.options.chunkBytes
            let key := readerKey sha256Hex chunkBytes h r
            let expected := chunkLength chunkBytes h.size key.index
            match acquireChunkLocked s.pool key h.size expected fails with
            | (pool, .hit entry) =>
                some (setReader { s with pool := pool } id { r with phase := .holding entry })
            | (pool, .join call) =>
                some (setReader { s with pool := pool } id { r with phase := .awaiting call })
            | (pool, .wait notify) =>
                some (setReader { s with pool := pool } id { r with phase := .parked notify })
            | (pool, .failed) =>
                some (setReader { s with pool := pool } id
                  { r with phase := .done (some (.failed .other)) })
            | (pool, .started call) =>
                let fetcher := newFetcher call none key h.backing h.validator h.size chunkBytes
                some (setReader { s with
                  pool := pool, fetchers := s.fetchers.insert call.ref fetcher } id
                  { r with phase := .awaiting call })
      else none
  | .wake _ expired =>
      match r.phase with
      | .awaiting call =>
          match expired with
          | some e => some (setReader s id { r with phase := .done (some (.failed e)) })
          | none =>
              match s.pool.finished.lookup call.ref with
              | none => none
              | some none => some (setReader s id { r with phase := .copying })
              | some (some e) =>
                  if call.kind ≠ .none ∧ e = .canceled then
                    some (setReader s id { r with phase := .copying })
                  else some (setReader s id { r with phase := .done (some (.failed e)) })
      | _ => none
  | .unpark _ expired =>
      match r.phase with
      | .parked notify =>
          match expired with
          | some e => some (setReader s id { r with phase := .done (some (.failed e)) })
          | none =>
              if s.pool.shared.notify ≠ notify then
                some (setReader s id { r with phase := .copying })
              else none
      | _ => none
  | .readFile _ fault =>
      match r.phase with
      | .holding entry =>
          let chunkBytes := s.pool.shared.options.chunkBytes
          let (bytes, failed) := readChunk s.pool.disk entry.path (readerCopyLength chunkBytes h r)
            (readerWithinChunk chunkBytes r) fault
          some (setReader s id { r with
            buffer := r.buffer ++ bytes, phase := .releasing entry failed })
      | _ => none
  | .release _ =>
      match r.phase with
      | .releasing entry failed =>
          some (setReader { s with pool := releaseChunk s.pool entry.ref } id { r with
            phase := if failed then .done (some (.failed .other)) else .copying })
      | _ => none
  | .finish _ =>
      if r.phase = .copying ∧ wantedLength h r ≤ r.buffer.length then
        if r.generation ≠ h.readAheadGeneration then
          some (setReader s id { r with phase := .done (readResult h r) })
        else
          let lastChunk := (r.offset.toNat + wantedLength h r - 1) / s.pool.shared.options.chunkBytes
          some (setReader { s with
            handles := s.handles.insert r.handle { h with
              lastReadEnd := logicalOffset r, hasLastRead := true } } id { r with
            phase := .scheduling {
              context := some r.context
              backing := h.backing
              validator := h.validator
              logicalSize := h.size
              next := lastChunk + 1
              remaining := s.pool.shared.options.readAheadChunks
              kind := .readAhead
              keep := some ⟨objectCacheKey sha256Hex h.backing h.validator, lastChunk⟩ } })
      else none
  | .schedule _ fails =>
      match r.phase with
      | .scheduling run =>
          let (pool, fetcher, rest) :=
            scheduleRound sha256Hex s.pool run (contextDone s run.context) fails
          some (setReader { s with
            pool := pool, fetchers := addFetcher s.fetchers fetcher } id
            { r with phase := schedulingPhase h r rest })
      | _ => none
  | .direct _ attempts =>
      if r.phase = .direct then
        if h.closed then
          if attempts = [] then
            some (setReader s id { r with phase := .done (some (.failed .other)) })
          else none
        else
          match directAttempts maximumRangeFetchAttempts attempts with
          | none => none
          | some result =>
              let pool := { s.pool with shared := { s.pool.shared with
                misses := s.pool.shared.misses + 1
                fetches := s.pool.shared.fetches + if result.bytes = [] then 0 else 1 } }
              some (setReader { s with pool := pool } id { r with
                buffer := result.bytes, phase := .done result.err })
      else none
  | _ => none

/-- The actions of a fetch goroutine. -/
def stepFetcher (s : CacheState) (id : ℕ) (f : Fetcher) : CacheLabel → Option CacheState
  | .fetchOpen _ outcome closeErr expired =>
      if f.phase = .opening then some (setFetcher s id (openFetch f outcome closeErr expired))
      else none
  | .fetchCreate _ made suffix =>
      if f.phase = .creating then
        let made := if made then s.pool.disk.mkdir f.key.object else s.pool.disk
        match suffix with
        | none => some (setFetcher { s with pool := { s.pool with disk := made } } id
            { f with phase := .closing false (some .other) })
        | some suffix =>
            let temporary : FilePath := ⟨f.key.object, ".fetch-" ++ suffix⟩
            if (s.pool.disk.files.lookup temporary).isSome then none
            else
              let disk := made.write temporary ⟨.regular, [], 0, 0⟩
              some (setFetcher { s with pool := { s.pool with disk := disk } } id
                { f with phase := .reading temporary })
      else none
  | .fetchRead _ result removed =>
      match f.phase with
      | .reading temporary =>
          match fetchReadError f.call.expected result with
          | some e =>
              let disk := tryRemove s.pool.disk temporary removed
              some (setFetcher { s with pool := { s.pool with disk := disk } } id
                { f with phase := .closing false (some e) })
          | none => some (setFetcher s id { f with phase := .writing temporary result.bytes })
      | _ => none
  | .fetchWrite _ ok removed =>
      match f.phase with
      | .writing temporary buffer =>
          if ok then
            let disk := s.pool.disk.write temporary ⟨.regular, buffer, 0, 0⟩
            some (setFetcher { s with pool := { s.pool with disk := disk } } id
              { f with phase := .renaming temporary buffer })
          else
            let disk := tryRemove s.pool.disk temporary removed
            some (setFetcher { s with pool := { s.pool with disk := disk } } id
              { f with phase := .closing false (some .other) })
      | _ => none
  | .fetchRename _ ok removed modified =>
      match f.phase with
      | .renaming temporary buffer =>
          if ok then
            let disk := (s.pool.disk.remove temporary).write (chunkPath f.key)
              ⟨.regular, buffer, modified, s.pool.shared.options.chunkBytes⟩
            some (setFetcher { s with pool := { s.pool with disk := disk } } id
              { f with phase := .sealing })
          else
            let disk := tryRemove s.pool.disk temporary removed
            some (setFetcher { s with pool := { s.pool with disk := disk } } id
              { f with phase := .closing false (some .other) })
      | _ => none
  | .fetchSeal _ ok removed =>
      if f.phase = .sealing then
        if ok then some (setFetcher s id { f with phase := .closing true none })
        else
          let disk := tryRemove s.pool.disk (chunkPath f.key) removed
          some (setFetcher { s with pool := { s.pool with disk := disk } } id
            { f with phase := .closing false (some .other) })
      else none
  | .fetchClose _ closeErr expired =>
      match f.phase with
      | .closing stored err => some (setFetcher s id (closeFetch f stored err closeErr expired))
      | _ => none
  | .fetchComplete _ =>
      match f.phase with
      | .returned stored err =>
          some { s with
            pool := completeFetch s.pool f.key f.call stored err
            fetchers := s.fetchers.erase id }
      | _ => none
  | _ => none

/-- The actions of a prefetch goroutine. -/
def stepPrefetch (s : CacheState) (id : ℕ) (p : Prefetch) : CacheLabel → Option CacheState
  | .prefetchOpen _ outcome closeFails =>
      match p with
      | .opening backing size =>
          let failed := { s with
            pool := recordBackgroundErrorLocked s.pool .nextEpisode
            prefetchers := s.prefetchers.erase id }
          match outcome with
          | .failed _ => some failed
          | .source providerSize validator =>
              if providerSize ≠ size ∨ closeFails then some failed
              else some { s with prefetchers := s.prefetchers.insert id (.scheduling {
                context := none
                backing := backing
                validator := validator
                logicalSize := size
                next := 0
                remaining := s.pool.shared.options.nextEpisodePrefetchChunks
                kind := .nextEpisode
                keep := none }) }
      | .scheduling _ => none
  | .prefetchSchedule _ fails =>
      match p with
      | .scheduling run =>
          let (pool, fetcher, rest) :=
            scheduleRound sha256Hex s.pool run (contextDone s run.context) fails
          some { s with
            pool := pool
            fetchers := addFetcher s.fetchers fetcher
            prefetchers := match rest with
              | some run => s.prefetchers.insert id (.scheduling run)
              | none => s.prefetchers.erase id }
      | .opening _ _ => none
  | _ => none

/-- Recovery by a new process on the files that are left. -/
def restartCache (s : CacheState) (options : RangeOptions) (fails : List FilePath) : CacheState :=
  match recoverChunks options s.pool.disk fails with
  | (_, .ok pool) => freshCache true pool
  | (disk, .error _) => freshCache false (emptyPool options disk)

/-- Which goroutine a label belongs to. -/
inductive Actor
  | reader (id : ℕ)
  | fetcher (id : ℕ)
  | prefetcher (id : ℕ)
  | outside

def actor : CacheLabel → Actor
  | .start id _ | .begin id | .acquire id _ _ | .wake id _ | .unpark id _ | .readFile id _
  | .release id | .finish id | .schedule id _ | .direct id _ => .reader id
  | .fetchOpen id _ _ _ | .fetchCreate id _ _ | .fetchRead id _ _ | .fetchWrite id _ _
  | .fetchRename id _ _ _ | .fetchSeal id _ _ | .fetchClose id _ _ | .fetchComplete id =>
      .fetcher id
  | .prefetchOpen id _ _ | .prefetchSchedule id _ => .prefetcher id
  | .openHandle _ _ _ _ _ | .markClosed _ | .stopReadAhead _ | .read _ _ _ _ | .prefetch _ _ _
  | .shutdown | .restart _ _ => .outside

/-- The actions that no running goroutine takes: calls from outside and process events. -/
def stepOutside (s : CacheState) : CacheLabel → Option CacheState
  | .openHandle id backing catalogSize outcome fails =>
      stepOpen sha256Hex s id backing catalogSize outcome fails
  | .markClosed id =>
      match s.handles.lookup id with
      | none => none
      | some h =>
          if h.closed then none
          else some { s with handles := s.handles.insert id { h with closed := true } }
  | .stopReadAhead id =>
      match s.handles.lookup id with
      | none => none
      | some h =>
          if h.closed ∧ ¬ h.readAheadStopped then
            some { s with
              cancelled := s.cancelled ++ h.readAheadContext.toList
              handles := s.handles.insert id { h with
                readAheadContext := none, readAheadStopped := true } }
          else none
  | .read id handle offset length =>
      if (s.readers.lookup id).isSome ∨ (s.handles.lookup handle).isNone then none
      else some (setReader s id {
        handle := handle
        offset := offset
        length := length
        buffer := []
        context := 0
        generation := 0
        phase := .starting })
  | .prefetch id backing size =>
      if (s.prefetchers.lookup id).isSome ∨ s.pool.shared.options.nextEpisodePrefetchChunks = 0 then
        none
      else some { s with prefetchers := s.prefetchers.insert id (.opening backing size) }
  | .shutdown => some { s with lifecycleDone := true }
  | _ => none

/-- One atomic action of the process, or a restart. -/
def cacheStep (s : CacheState) (a : CacheLabel) : Option CacheState :=
  match a with
  | .restart options fails => some (restartCache s options fails)
  | _ =>
      if ¬ s.running then none
      else
        match actor a with
        | .outside => stepOutside sha256Hex s a
        | .reader id => do
            let r ← s.readers.lookup id
            let h ← s.handles.lookup r.handle
            stepReader sha256Hex s id r h a
        | .fetcher id => do
            let f ← s.fetchers.lookup id
            stepFetcher s id f a
        | .prefetcher id => do
            let p ← s.prefetchers.lookup id
            stepPrefetch sha256Hex s id p a

end Steps

end BlackPearl.Cache
