import BlackPearl.Library.Recency
import BlackPearl.Library.Transition
import BlackPearl.Nfs.Namespace

/-!
# File handles of PearlNFS

`internal/pearlnfs/server.go`: the handler that names a path by a hash of what is found there. A
medium is named by its identity, and its entry of the table holds a snapshot of the namespace; a
directory is named by its path and refers to the live namespace. At most `handleCacheSize` handles
are kept, the least recently touched ones are dropped: `recency` is the list of `container/list`, its
elements known by their addresses, and `positions` has the address of the element of each handle.

`Traced` records along a run what was touched, what was hashed, and which media got which handles.
-/

set_option autoImplicit false

namespace BlackPearl.Nfs

open BlackPearl.Library BlackPearl.Library.Path BlackPearl.Setup

/-- `handleCacheSize`. -/
def handleCacheSize : ℕ := 4096

/-- `[sha256.Size]byte`. -/
structure Digest where
  value : List UInt8
  length_value : value.length = 32
  deriving DecidableEq

/-- The filesystem of a handle: the one that is served, or a snapshot of it. -/
inductive Target
  | live
  | frozen (f : Filesystem)

/-- `stableHandleEntry`. -/
structure StableHandleEntry where
  filesystem : Target
  path : List ByteText

/-- An element of the list of handles. -/
structure Element where
  address : ℕ
  value : Digest
  deriving DecidableEq

/-- `stableHandleHandler`; `allocated` is the next address. -/
structure StableHandleHandler where
  handles : Table Digest StableHandleEntry := ∅
  recency : List Element := []
  positions : Table Digest ℕ := ∅
  allocated : ℕ := 0

/-- `NFSStatusError`. -/
inductive NFSStatus
  | stale
  deriving DecidableEq, Repr

/-! ## Snapshots -/

/-- What a handle of a medium is the hash of. -/
def fileIdentity (media : Media) : ByteText :=
  text "file\x00" ++ media.id ++ text "\x00" ++ media.virtualPath ++ text "\x00" ++
    formatNumber media.size ++ text "\x00" ++ media.backing.provider ++ text "\x00" ++
    media.backing.objectID

/-- What a handle of another path is the hash of. -/
def directoryIdentity (virtualPath : ByteText) : ByteText := text "directory\x00" ++ virtualPath

/-- What a handle into a snapshot is the hash of. -/
def pathIdentity (filename : ByteText) : ByteText := text "path\x00" ++ filename

/-- The medium at a path. -/
def Filesystem.mediaAt (f : Filesystem) (filename : ByteText) : Option Media :=
  (f.entries.lookup (cleanPath filename)).bind Entry.media

/-- `filesystem.handleSnapshot`; a snapshot has no time of its own. -/
def Filesystem.handleSnapshot (f : Filesystem) (filename : ByteText) : Target × ByteText :=
  match f.mediaAt filename with
  | none => (.live, directoryIdentity (cleanPath filename))
  | some media => (.frozen { f with modified := Filesystem.unbuilt.modified }, fileIdentity media)

/-- `filesystem.handlePaths`. -/
def Filesystem.handlePaths (f : Filesystem) : List ByteText :=
  f.entries.keys.insertionSort fun p q => ByteText.le p q

/-- What the handler keeps for a path of a filesystem, and what it hashes. -/
def Filesystem.identify (live : Filesystem) : Target → List ByteText → Target × ByteText
  | .live, path => live.handleSnapshot (join path)
  | .frozen f, path => (.frozen f, pathIdentity (join path))

/-! ## The handler -/

/-- `List.MoveToBack`. -/
def moveToBack (address : ℕ) (elements : List Element) : List Element :=
  (elements.filter fun e => e.address ≠ address) ++ elements.filter fun e => e.address = address

namespace StableHandleHandler

/-- `touchLocked`. -/
def touchLocked (h : StableHandleHandler) (handle : Digest) : StableHandleHandler :=
  match h.positions.lookup handle with
  | some existing => { h with recency := moveToBack existing h.recency }
  | none =>
      { h with
        recency := h.recency ++ [⟨h.allocated, handle⟩]
        positions := h.positions.insert handle h.allocated
        allocated := h.allocated + 1 }

/-- The loop that drops the oldest handles; it fails where the list ends before. -/
def dropOldest (h : StableHandleHandler) : List Element → Option StableHandleHandler
  | [] => if handleCacheSize < h.handles.entries.length then none else some { h with recency := [] }
  | oldest :: newer =>
      if handleCacheSize < h.handles.entries.length then
        dropOldest
          { h with
            handles := h.handles.erase oldest.value
            positions := h.positions.erase oldest.value } newer
      else some { h with recency := oldest :: newer }

/-- What `ToHandle` does under its lock. -/
def store (h : StableHandleHandler) (handle : Digest) (e : StableHandleEntry) :
    Option StableHandleHandler :=
  let h := { h with handles := h.handles.insert handle e }.touchLocked handle
  h.dropOldest h.recency

/-- `FromHandle`. -/
def fromHandle (h : StableHandleHandler) (value : List UInt8) :
    Except NFSStatus (Target × List ByteText) × StableHandleHandler :=
  if hlen : value.length = 32 then
    match h.handles.lookup ⟨value, hlen⟩ with
    | none => (.error .stale, h)
    | some e => (.ok (e.filesystem, e.path), h.touchLocked ⟨value, hlen⟩)
  else (.error .stale, h)

end StableHandleHandler

/-- `Server`: the filesystem that it serves, and its handler. -/
structure Server where
  live : Filesystem
  handles : StableHandleHandler

section Hashing

variable (digest : ByteText → Digest)

/-- `ToHandle`. -/
def Server.toHandle (s : Server) (filesystem : Target) (path : List ByteText) :
    Option (Server × Digest) := do
  let (kept, identity) := s.live.identify filesystem path
  let handle := digest identity
  let handles ← s.handles.store handle ⟨kept, path⟩
  return ({ s with handles }, handle)

/-- The path of a handle that is registered in advance. -/
def registeredPath (virtualPath : ByteText) : List ByteText :=
  if virtualPath = [] then [virtualPath] else segments virtualPath

/-- The paths in turn. -/
def registerPaths (s : Server) : List ByteText → Option Server
  | [] => some s
  | virtualPath :: paths => do
      let (s, _) ← s.toHandle digest .live (registeredPath virtualPath)
      registerPaths s paths

/-- `registerCurrent`. -/
def Server.registerCurrent (s : Server) : Option Server :=
  registerPaths digest s s.live.handlePaths

variable [TextTables]

/-- `Server.Replace`, and `Server.Reload` where the catalog is listed again; without a result where
the handler fails. -/
def Server.replace (s : Server) (cancelled : Bool) (items : Checked (List Media)) (now : ℤ) :
    Option (Checked Server) :=
  match within "replace PearlNFS" (s.live.replace cancelled items now) with
  | .error message => some (.error message)
  | .ok live => (Server.registerCurrent digest { s with live }).map .ok

/-! ## Runs -/

/-- What the server and its clients do. -/
inductive Call
  | replace (cancelled : Bool) (items : Checked (List Media)) (now : ℤ)
  | toHandle (filesystem : Target) (path : List ByteText)
  | fromHandle (value : List UInt8)

/-- A server with the handles touched so far, the latest first, the texts that were hashed, and the
media for which the live filesystem was asked for a handle. -/
structure Traced where
  server : Server
  touched : List Digest := []
  hashed : List ByteText := []
  minted : List (Digest × Media) := []

/-- The medium at a path of the live filesystem. -/
def Server.mediaFor (s : Server) : Target → List ByteText → Option Media
  | .live, path => s.live.mediaAt (join path)
  | .frozen _, _ => none

/-- One call. -/
def Traced.step (t : Traced) : Call → Option Traced
  | .replace cancelled items now =>
      match t.server.live.replace cancelled items now with
      | .error _ => some t
      | .ok live => some { t with server := { t.server with live } }
  | .toHandle filesystem path => do
      let (server, handle) ← t.server.toHandle digest filesystem path
      return {
        server
        touched := handle :: t.touched
        hashed := (t.server.live.identify filesystem path).2 :: t.hashed
        minted := ((t.server.mediaFor filesystem path).map fun m => (handle, m)).toList ++ t.minted }
  | .fromHandle value =>
      let (_, handles) := t.server.handles.fromHandle value
      some { t with
        server := { t.server with handles }
        touched :=
          if hlen : value.length = 32 then
            if (⟨value, hlen⟩ : Digest) ∈ t.server.handles.handles then ⟨value, hlen⟩ :: t.touched
            else t.touched
          else t.touched }

/-- Every medium of a catalog comes from one of the constructors. -/
def FromConstructors (items : Checked (List Media)) : Prop :=
  ∀ media, items = .ok media → ∀ m ∈ media, Catalog.Built m

/-- A server that has opened its filesystem. -/
structure Opened (t : Traced) : Prop where
  built : ∃ cancelled items now,
    newReloadable cancelled items now = .ok t.server.live ∧ FromConstructors items
  handles : t.server.handles = {}
  touched : t.touched = []
  hashed : t.hashed = []
  minted : t.minted = []

/-- The server under its calls. -/
def exported : System Traced Call := ⟨Opened, Traced.step digest⟩

/-- The catalogs list media of the constructors. -/
def Lists (_ : Traced) : Call → Prop
  | .replace _ items _ => FromConstructors items
  | _ => True

end Hashing

end BlackPearl.Nfs
