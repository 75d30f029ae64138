import BlackPearl.Library.Volume
import BlackPearl.Library.Failure
import BlackPearl.Library.Transition
import BlackPearl.Setup.Media

/-!
# The content-addressed store

`internal/cache/store.go` with the catalog that stands on it in persistent mode: `ImportPOC`,
`RegisterPOC`, `Lookup` and `Open` of `internal/core/catalog.go`, and the rows of
`internal/state/sqlite.go`. Any number of imports are under way at once, each call of each of them is a
step, and the process may die or the machine lose power between any two of them.

An object is in its place only with synchronized content, and a row is written only when the directory
has been synchronized. So whatever was interrupted, an item of the catalog that is kept in the store has
its bytes there, and its readers return them (`store_serves`).
-/

set_option autoImplicit false

namespace BlackPearl.Cache

open BlackPearl.Library BlackPearl.Setup

/-! ## Names -/

/-- A digit of `hex.EncodeToString`. -/
def isHexDigit : Piece → Bool
  | .char c => ('0' ≤ c && c ≤ '9') || ('a' ≤ c && c ≤ 'f')
  | .stray _ => false

/-- `cacheKeyPattern`. -/
def isCacheKey (key : ByteText) : Bool := key.length = 64 && key.all isHexDigit

/-- `sha256` in hexadecimal digits, of which the store needs only that the result is a cache key. -/
structure ContentDigest where
  sum : List UInt8 → ByteText
  hex : ∀ content, isCacheKey (sum content) = true

/-- `backingProvider`. -/
def backingProvider : ByteText := text "pearlcache"

/-- The entry of `objectPath`. -/
def blobName (key : ByteText) : ByteText := key ++ text ".blob"

/-- A name of `os.CreateTemp(s.root, ".import-*")`. -/
def temporaryName (suffix : ByteText) : ByteText := text ".import-" ++ suffix

/-! ## Rows and objects -/

section Store

variable [TextTables]

/-- `Repository.Upsert` of SQLite, with the constraints of its table. -/
def upsertRow (rows : Table ByteText Media) (media : Media) : Checked (Table ByteText Media) := do
  require (0 ≤ media.size) "CHECK constraint failed: size_bytes >= 0"
  require ((rows.entries.all fun e => e.1 == media.id || e.2.virtualPath != media.virtualPath) = true)
    "UNIQUE constraint failed: media.virtual_path"
  return rows.insert media.id media

/-- `Repository.GetByVirtualPath` of SQLite. -/
def getByVirtualPath (rows : Table ByteText Media) (virtualPath : ByteText) : Checked Media :=
  match rows.entries.find? fun e => e.2.virtualPath == virtualPath with
  | some e => .ok e.2
  | none => .error ("not found: media path " ++ ByteText.quote virtualPath)

/-- `fileReader`: a file that is open under a name. -/
structure FileReader where
  name : ByteText
  file : ℕ
  logicalSize : Int64
  deriving DecidableEq, Repr

/-- `Store.Open`. -/
def openStored (disk : Volume ByteText UInt8) (cancelled : Bool) (media : Media) : Checked FileReader := do
  require (cancelled = false) "open cache object: context canceled"
  require (media.backing.provider = backingProvider)
    ("unsupported backing provider: " ++ ByteText.quote media.backing.provider)
  require (isCacheKey media.backing.objectID = true)
    ("invalid cache object ID: " ++ ByteText.quote media.backing.objectID)
  match disk.names.lookup (blobName media.backing.objectID) with
  | some file => .ok ⟨media.backing.objectID, file, media.size⟩
  | none => .error "open cache object: no such file or directory"

/-- `fileReader.ReadAt`. -/
def FileReader.readAt (r : FileReader) (disk : Volume ByteText UInt8) (cancelled : Bool) (wanted : ℕ)
    (offset : Int64) : List UInt8 × Option Failure :=
  if cancelled then ([], some .canceled)
  else if offset < 0 then ([], some (.plain "negative offset"))
  else
    match disk.inodes[r.file]? with
    | none => ([], some (.plain "bad file descriptor"))
    | some inode =>
        let bytes := slice inode.content offset.toInt.toNat wanted
        (bytes, if bytes.length < wanted then some .eof else none)

/-! ## Imports -/

/-- The call that is next in `ImportPOC`. -/
inductive ImportStage
  | createTemp
  | copy
  | sync
  | closeTemporary
  | rename
  | chmod
  | openDirectory
  | syncDirectory
  | closeDirectory
  | closeSource (backing : BackingRef)
  | upsert (media : Media)
  | removeTemporary (err : String)
  | returned (result : Checked Media)
  deriving DecidableEq, Repr

/-- An `ImportPOC` that has opened its source: `copied` are the bytes that are written and hashed. -/
structure Import where
  stage : ImportStage := .createTemp
  temporary : ByteText := []
  file : ℕ := 0
  copied : List UInt8 := []
  deriving DecidableEq, Repr

/-- What `Import` says of the call that fails. -/
def ImportStage.failure : ImportStage → String
  | .createTemp => "create cache import temporary file"
  | .copy => "copy cache import"
  | .sync => "sync cache import"
  | .closeTemporary => "close cache import"
  | .rename => "publish cache import"
  | .chmod => "set cache object permissions"
  | .openDirectory => "open cache directory for sync"
  | .syncDirectory => "sync cache directory"
  | .closeDirectory => "close cache directory after sync"
  | _ => "close"

/-- The temporary file is there: a failure removes it. -/
def ImportStage.holds : ImportStage → Bool
  | .copy | .sync | .closeTemporary | .rename | .removeTemporary _ => true
  | _ => false

/-- The error of `ImportPOC` when `Import` fails. -/
def importFailed (err : String) : ImportStage := .returned (.error ("import POC fixture: " ++ err))

/-- What the statement of an `Upsert` does: commit, or fail with or without having stored the row. -/
inductive UpsertAnswer
  | committed
  | failed (stored : Bool)
  deriving DecidableEq, Repr

/-- The rest of `persistPOC`. -/
def persist (rows : Table ByteText Media) (media : Media) (answer : UpsertAnswer) :
    Table ByteText Media × Checked Media :=
  match within "persist POC media" (upsertRow rows media), answer with
  | .error err, _ => (rows, .error err)
  | .ok rows', .committed => (rows', .ok media)
  | .ok rows', .failed stored => (if stored then rows' else rows, .error "persist POC media")

/-- The names of `cfg.RangeProvider`. -/
inductive RangeProvider
  | httpRange
  | torboxTorrent
  deriving DecidableEq, Repr

def RangeProvider.name : RangeProvider → ByteText
  | .httpRange => text "http-range"
  | .torboxTorrent => text "torbox-torrent"

/-- The medium that `persistPOC` constructs. -/
def pocMedia (backing : BackingRef) (size : Int64) : Checked Media :=
  within "construct POC media"
    (newMovie (text "blackpearl-poc-2026") (text "BlackPearl POC") 2026 (text ".mp4") size backing)

/-- `RegisterPOC`. -/
def registerPOC (rows : Table ByteText Media) (backing : BackingRef) (size : Int64)
    (answer : UpsertAnswer) : Table ByteText Media × Checked Media :=
  let prepared : Checked Media := do
    require (0 < size) ("POC logical size must be positive: " ++ toString size)
    let validated ← within "validate POC backing" (newBackingRef backing.provider backing.objectID)
    pocMedia validated size
  match prepared with
  | .ok media => persist rows media answer
  | .error err => (rows, .error err)

/-! ## The store in motion -/

/-- The store with its catalog. `imported` are the contents that imports have copied completely. -/
structure StoreState where
  disk : Volume ByteText UInt8 := {}
  rows : Table ByteText Media := ∅
  imports : Table ℕ Import := ∅
  readers : Table ℕ FileReader := ∅
  imported : List (List UInt8) := []

/-- The steps. An import goes on with `proceed` when its next call succeeds and with `fail` when it
does not; `cut` is what a write that fails has written. -/
inductive StoreCall
  | importPOC (id : ℕ)
  | createTemp (id : ℕ) (suffix : ByteText)
  | write (id : ℕ) (bytes : List UInt8)
  | proceed (id : ℕ)
  | fail (id : ℕ) (cut : List UInt8)
  | upsert (id : ℕ) (answer : UpsertAnswer)
  | removeTemporary (id : ℕ) (removed : Bool)
  | registerPOC (provider : RangeProvider) (objectID : ByteText) (size : Int64) (answer : UpsertAnswer)
  | openMedia (reader : ℕ) (cancelled : Bool) (virtualPath : ByteText)
  | die
  | powerLoss (chosen : List ℕ) (left : ℕ → List UInt8)

namespace StoreState

/-- Another record of an import. -/
def setImport (s : StoreState) (id : ℕ) (i : Import) : StoreState :=
  { s with imports := s.imports.insert id i }

/-- `Catalog.Lookup` and `Catalog.Open`. -/
def openMedia (s : StoreState) (cancelled : Bool) (virtualPath : ByteText) : Checked FileReader := do
  let media ← within "lookup catalog path" (getByVirtualPath s.rows virtualPath)
  let reader ← within "open cached media" (openStored s.disk cancelled media)
  require (reader.logicalSize = media.size) ("cached media size mismatch: catalog=" ++
    toString media.size ++ " cache=" ++ toString reader.logicalSize)
  return reader

/-- The next call of an import fails. -/
def fail (s : StoreState) (id : ℕ) (i : Import) (cut : List UInt8) : Option StoreState :=
  match i.stage with
  | .copy =>
      some { s.setImport id { i with stage := .removeTemporary i.stage.failure } with
        disk := s.disk.append i.file cut }
  | .sync | .closeTemporary | .rename =>
      some (s.setImport id { i with stage := .removeTemporary i.stage.failure })
  | .createTemp | .chmod | .openDirectory | .syncDirectory | .closeDirectory | .closeSource _ =>
      some (s.setImport id { i with stage := importFailed i.stage.failure })
  | .upsert _ | .removeTemporary _ | .returned _ => none

section Steps

variable (digest : ContentDigest)

/-- The next call of an import succeeds. -/
def proceed (s : StoreState) (id : ℕ) (i : Import) : Option StoreState :=
  match i.stage with
  | .copy =>
      some { s.setImport id { i with stage := .sync } with imported := i.copied :: s.imported }
  | .sync =>
      some { s.setImport id { i with stage := .closeTemporary } with disk := s.disk.sync i.file }
  | .closeTemporary => some (s.setImport id { i with stage := .rename })
  | .rename =>
      some { s.setImport id { i with stage := .chmod } with
        disk := s.disk.rename i.temporary (blobName (digest.sum i.copied)) }
  | .chmod => some (s.setImport id { i with stage := .openDirectory })
  | .openDirectory => some (s.setImport id { i with stage := .syncDirectory })
  | .syncDirectory =>
      some { s.setImport id { i with stage := .closeDirectory } with disk := s.disk.syncDirectory }
  | .closeDirectory =>
      match newBackingRef backingProvider (digest.sum i.copied) with
      | .ok backing => some (s.setImport id { i with stage := .closeSource backing })
      | .error err =>
          some (s.setImport id
            { i with stage := importFailed ("construct cache backing reference: " ++ err) })
  | .closeSource backing =>
      match pocMedia backing (Int64.ofNat i.copied.length) with
      | .ok media => some (s.setImport id { i with stage := .upsert media })
      | .error err => some (s.setImport id { i with stage := .returned (.error err) })
  | .createTemp | .upsert _ | .removeTemporary _ | .returned _ => none

/-- One step. A file has fewer than `2 ^ 63` bytes. -/
def step (s : StoreState) : StoreCall → Option StoreState
  | .importPOC id => if s.imports.lookup id = none then some (s.setImport id {}) else none
  | .createTemp id suffix =>
      match s.imports.lookup id with
      | some i =>
          if i.stage = .createTemp ∧ s.disk.names.lookup (temporaryName suffix) = none then
            some { s.setImport id { i with
                stage := .copy, temporary := temporaryName suffix, file := s.disk.inodes.length } with
              disk := s.disk.create (temporaryName suffix) }
          else none
      | none => none
  | .write id bytes =>
      match s.imports.lookup id with
      | some i =>
          if i.stage = .copy ∧ i.copied.length + bytes.length < 2 ^ 63 then
            some { s.setImport id { i with copied := i.copied ++ bytes } with
              disk := s.disk.append i.file bytes }
          else none
      | none => none
  | .proceed id => (s.imports.lookup id).bind fun i => s.proceed digest id i
  | .fail id cut => (s.imports.lookup id).bind fun i => s.fail id i cut
  | .upsert id answer =>
      match s.imports.lookup id with
      | some i =>
          match i.stage with
          | .upsert media =>
              let persisted := persist s.rows media answer
              some { s.setImport id { i with stage := .returned persisted.2 } with rows := persisted.1 }
          | _ => none
      | none => none
  | .removeTemporary id removed =>
      match s.imports.lookup id with
      | some i =>
          match i.stage with
          | .removeTemporary err =>
              some { s.setImport id { i with stage := importFailed err } with
                disk := if removed then s.disk.remove i.temporary else s.disk }
          | _ => none
      | none => none
  | .registerPOC provider objectID size answer =>
      some { s with rows := (Cache.registerPOC s.rows ⟨provider.name, objectID⟩ size answer).1 }
  | .openMedia reader cancelled virtualPath =>
      if s.readers.lookup reader = none then
        match s.openMedia cancelled virtualPath with
        | .ok r => some { s with readers := s.readers.insert reader r }
        | .error _ => some s
      else none
  | .die => some { s with imports := ∅, readers := ∅ }
  | .powerLoss chosen left =>
      some { s with disk := s.disk.powerLoss chosen left, imports := ∅, readers := ∅ }

end Steps

end StoreState

/-- The store from its creation on. -/
def contentStore (digest : ContentDigest) : System StoreState StoreCall :=
  ⟨fun s => s = {}, StoreState.step digest⟩

end Store

end BlackPearl.Cache
