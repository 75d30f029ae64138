import BlackPearl.Library.Table
import BlackPearl.Library.Decimal
import Mathlib.Data.List.Sort

/-!
# Chunks of the range cache

The data of `internal/cache/rolling.go`: chunk keys and the file names they are stored under, the
files below the cache root, the options a pool is created with, and the fields of `rollingShared`.

A Go pointer (`*chunkEntry`, `*fetchCall`) is an address in the model: entries and calls carry the
number they were allocated under. Byte counts that the code has already checked to be non-negative
are natural numbers; the counters that are added to and subtracted from are integers.
-/

set_option autoImplicit false

namespace BlackPearl.Cache

open BlackPearl.Library

/-! ## Keys and file names -/

/-- `chunkKey`: one chunk of one cached object. -/
structure ChunkKey where
  object : String
  index : ℕ
  deriving DecidableEq, Repr

/-- A file below the cache root: the object directory and the name in it. -/
structure FilePath where
  directory : String
  name : String
  deriving DecidableEq, Repr

/-- `fmt.Sprintf("%016d.chunk", index)`. -/
def chunkFileName (index : ℕ) : String := String.ofList (padded 16 index) ++ ".chunk"

/-- The file that `fetchChunk` publishes a chunk under. -/
def chunkPath (key : ChunkKey) : FilePath := ⟨key.object, chunkFileName key.index⟩

/-- `rollingObjectPattern`: sixty-four lowercase hexadecimal digits. -/
def rollingObjectPattern (name : String) : Bool :=
  name.toList.length == 64 &&
    name.toList.all fun c => c.isDigit || ('a' ≤ c && c ≤ 'f')

/-- `rollingChunkPattern`: sixteen digits and `.chunk`; the result is the submatch. -/
def rollingChunkPattern (name : String) : Option (List Char) :=
  if (name.toList.take 16).length = 16 ∧ (name.toList.take 16).all Char.isDigit ∧
      name.toList.drop 16 = ".chunk".toList then
    some (name.toList.take 16)
  else none

/-- The prefix of the names `os.CreateTemp` makes for a fetch. -/
def isFetchTemporary (name : String) : Bool := ".fetch-".toList.isPrefixOf name.toList

theorem chunkFileName_injective : Function.Injective chunkFileName := by
  intro i j h
  have hchars : padded 16 i ++ ".chunk".toList = padded 16 j ++ ".chunk".toList := by
    have := congrArg String.toList h
    simpa only [chunkFileName, String.toList_append, String.toList_ofList] using this
  exact padded_injective 16 (List.append_cancel_right hchars)

theorem chunkPath_injective : Function.Injective chunkPath := by
  rintro ⟨o, i⟩ ⟨o', i'⟩ h
  simp only [chunkPath, FilePath.mk.injEq] at h
  rw [h.1, chunkFileName_injective h.2]

/-- A name that recovery accepts is the name that the recovered index is written under. -/
theorem chunkFileName_of_pattern {name : String} {digits : List Char}
    (h : rollingChunkPattern name = some digits) : chunkFileName (decimalValue digits) = name := by
  unfold rollingChunkPattern at h
  split at h
  · next hname =>
    obtain ⟨hlen, hdigits, hsuffix⟩ := hname
    simp only [Option.some.injEq] at h
    subst h
    have hall : ∀ c ∈ name.toList.take 16, c.isDigit = true := by
      simpa using hdigits
    rw [chunkFileName, padded_decimalValue (by omega) hall hlen]
    apply String.toList_inj.1
    rw [String.toList_append, String.toList_ofList, ← hsuffix, List.take_append_drop]
  · exact absurd h (by simp)

/-- A chunk file is never taken for an abandoned temporary file. -/
theorem isFetchTemporary_chunkFileName (index : ℕ) :
    isFetchTemporary (chunkFileName index) = false := by
  have hne : padded 16 index ≠ [] := by
    simp [padded, Nat.toDigits_ne_nil]
  obtain ⟨c, cs, hcs⟩ := List.exists_cons_of_ne_nil hne
  have hdigit : c.isDigit = true := isDigit_of_mem_padded (by rw [hcs]; exact List.mem_cons_self)
  have hdot : '.' ≠ c := by
    rintro rfl
    exact absurd hdigit (by decide)
  simp [isFetchTemporary, chunkFileName, hcs, List.isPrefixOf, hdot]

/-! ## Files -/

inductive NodeKind
  | regular
  | symlink
  | directory
  | irregular
  deriving DecidableEq, Repr

/-- An entry of an object directory. `writtenWith` is not on disk: it remembers, for the proofs, the
chunk size of the pool that published the file. -/
structure FileNode where
  kind : NodeKind
  content : List UInt8
  modified : ℤ
  writtenWith : ℕ
  deriving DecidableEq, Repr

/-- The cache root: its own entries (with whether each is a directory) and the entries of the object
directories. -/
structure Disk where
  root : Table String Bool
  files : Table FilePath FileNode

namespace Disk

def mkdir (d : Disk) (directory : String) : Disk := { d with root := d.root.insert directory true }

def write (d : Disk) (path : FilePath) (node : FileNode) : Disk :=
  { d with files := d.files.insert path node }

def remove (d : Disk) (path : FilePath) : Disk := { d with files := d.files.erase path }

@[simp] theorem files_mkdir (d : Disk) (directory : String) : (d.mkdir directory).files = d.files := rfl

theorem lookup_write (d : Disk) (p q : FilePath) (node : FileNode) :
    (d.write p node).files.lookup q = if q = p then some node else d.files.lookup q :=
  Table.lookup_insert _ _ _ _

theorem lookup_remove (d : Disk) (p q : FilePath) :
    (d.remove p).files.lookup q = if q = p then none else d.files.lookup q :=
  Table.lookup_erase _ _ _

end Disk

/-! ## Options -/

inductive RetentionPolicy
  | rolling
  | persistent
  deriving DecidableEq, Repr

/-- `RollingOptions` as a caller passes them. -/
structure RollingOptions where
  root : String
  maxBytes : ℤ
  chunkBytes : ℤ
  readAheadChunks : ℤ
  nextEpisodePrefetchChunks : ℤ
  fetchTimeout : ℤ
  deriving DecidableEq, Repr

/-- `PersistentRangeOptions` as a caller passes them. -/
structure PersistentRangeOptions where
  root : String
  chunkBytes : ℤ
  readAheadChunks : ℤ
  nextEpisodePrefetchChunks : ℤ
  fetchTimeout : ℤ
  deriving DecidableEq, Repr

def maximumReadAheadChunks : ℤ := 64

def maximumNextEpisodeChunkPrefix : ℤ := 256

def maximumRangeFetchAttempts : ℕ := 3

/-- Options that a constructor has accepted. -/
structure RangeOptions where
  policy : RetentionPolicy
  maxBytes : ℤ
  chunkBytes : ℕ
  readAheadChunks : ℕ
  nextEpisodePrefetchChunks : ℕ
  chunkBytes_pos : 0 < chunkBytes
  chunkBytes_le : policy = .rolling → (chunkBytes : ℤ) ≤ maxBytes

/-- Why a constructor refuses its options. -/
inductive OptionsError
  | maximumBytes
  | chunkBytes
  | rootNotAbsolute
  | readAheadChunks
  | nextEpisodeChunks
  | fetchTimeout
  deriving DecidableEq, Repr

/-- `validateCommonRangeOptions`. -/
def validateCommonRangeOptions (options : RollingOptions) : Except OptionsError Unit :=
  if ¬ "/".toList.isPrefixOf options.root.toList then .error .rootNotAbsolute
  else if options.readAheadChunks < 0 ∨ options.readAheadChunks > maximumReadAheadChunks then
    .error .readAheadChunks
  else if options.nextEpisodePrefetchChunks < 0 ∨
      options.nextEpisodePrefetchChunks > maximumNextEpisodeChunkPrefix then
    .error .nextEpisodeChunks
  else if options.fetchTimeout ≤ 0 then .error .fetchTimeout
  else .ok ()

/-- The checks of `NewRollingPool`. -/
def rollingPoolOptions (options : RollingOptions) : Except OptionsError RangeOptions :=
  if options.maxBytes ≤ 0 then .error .maximumBytes
  else if h : options.chunkBytes ≤ 0 ∨ options.chunkBytes > options.maxBytes then .error .chunkBytes
  else
    match validateCommonRangeOptions options with
    | .error e => .error e
    | .ok () => .ok {
        policy := .rolling
        maxBytes := options.maxBytes
        chunkBytes := options.chunkBytes.toNat
        readAheadChunks := options.readAheadChunks.toNat
        nextEpisodePrefetchChunks := options.nextEpisodePrefetchChunks.toNat
        chunkBytes_pos := by omega
        chunkBytes_le := fun _ => by omega }

/-- The checks of `NewPersistentRangePool`. -/
def persistentRangePoolOptions (options : PersistentRangeOptions) :
    Except OptionsError RangeOptions :=
  if h : options.chunkBytes ≤ 0 then .error .chunkBytes
  else
    let common : RollingOptions := {
      root := options.root
      maxBytes := 0
      chunkBytes := options.chunkBytes
      readAheadChunks := options.readAheadChunks
      nextEpisodePrefetchChunks := options.nextEpisodePrefetchChunks
      fetchTimeout := options.fetchTimeout }
    match validateCommonRangeOptions common with
    | .error e => .error e
    | .ok () => .ok {
        policy := .persistent
        maxBytes := 0
        chunkBytes := options.chunkBytes.toNat
        readAheadChunks := options.readAheadChunks.toNat
        nextEpisodePrefetchChunks := options.nextEpisodePrefetchChunks.toNat
        chunkBytes_pos := by omega
        chunkBytes_le := fun hp => by cases hp }

/-! ## The shared record -/

/-- `chunkEntry`, with the address it was allocated at. -/
structure ChunkEntry where
  ref : ℕ
  path : FilePath
  size : ℕ
  pins : ℤ
  lastAccess : ℕ
  deriving DecidableEq, Repr

inductive BackgroundFetchKind
  | none
  | readAhead
  | nextEpisode
  deriving DecidableEq, Repr

/-- What waiters can tell about a failed fetch: whether it was cancelled. -/
inductive FetchError
  | canceled
  | other
  deriving DecidableEq, Repr

/-- `fetchCall`, with the address it was allocated at. Its `done` and `err` fields are
`PoolState.finished`. -/
structure FetchCall where
  ref : ℕ
  kind : BackgroundFetchKind
  expected : ℕ
  deriving DecidableEq, Repr

/-- `rollingShared`: the fields that the mutex protects. The notify channel is the number of times
it has been closed and replaced. -/
structure RollingShared where
  options : RangeOptions
  chunks : Table ChunkKey ChunkEntry
  inflight : Table ChunkKey FetchCall
  notify : ℕ
  current : ℤ
  reserved : ℤ
  highWater : ℤ
  tick : ℕ
  hits : ℕ
  misses : ℕ
  fetches : ℕ
  evictions : ℕ
  readAheadFetches : ℕ
  readAheadErrors : ℕ
  nextEpisodeFetches : ℕ
  nextEpisodeErrors : ℕ

/-- `chunkLength`; the code's result is negative where this one is zero. -/
def chunkLength (chunkBytes logicalSize index : ℕ) : ℕ := min chunkBytes (logicalSize - index * chunkBytes)

theorem chunkLength_le (chunkBytes logicalSize index : ℕ) :
    chunkLength chunkBytes logicalSize index ≤ chunkBytes :=
  Nat.min_le_left _ _

end BlackPearl.Cache
