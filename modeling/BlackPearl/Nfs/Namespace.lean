import BlackPearl.Catalog.Registration

/-!
# The namespace of PearlNFS

`internal/pearlnfs/filesystem.go`: a catalog snapshot as a read-only tree of directories and files,
built medium by medium, and the check of virtual paths of `internal/pearlfs/filesystem.go`.
-/

set_option autoImplicit false

namespace BlackPearl.Nfs

open BlackPearl.Library BlackPearl.Library.Path BlackPearl.Setup

/-- `entry`: a file if it has a medium, a directory otherwise. -/
structure Entry where
  name : ByteText
  media : Option Media := none
  children : List ByteText := []
  modified : ℤ := 0
  deriving DecidableEq, Repr

/-- The entries by path; the root has the empty path. -/
abbrev Entries : Type := Table ByteText Entry

/-- `filesystem`, with the media of its catalog and times in seconds. -/
structure Filesystem where
  catalog : List Media
  entries : Entries
  generation : ℕ
  modified : ℤ

/-- `fileInfo`. -/
structure FileInfo where
  name : ByteText
  size : Int64
  directory : Bool
  modified : ℤ
  deriving DecidableEq, Repr

/-- `cleanPath`. -/
def cleanPath (filename : ByteText) : ByteText :=
  let cleaned := clean (slash :: filename)
  if cleaned = [slash] then [] else if isAbs cleaned then cleaned.tail else cleaned

/-! ## Building -/

/-- `addChild`. -/
def addChild (entries : Entries) (parent child : ByteText) : Entries :=
  let value := (entries.lookup (cleanPath parent)).getD { name := [] }
  if value.children.contains child then entries
  else entries.insert (cleanPath parent) { value with children := value.children ++ [child] }

/-- `addDirectory`. -/
def addDirectory (entries : Entries) (parent name : ByteText) : Entries :=
  let virtualPath := cleanPath (join [parent, name])
  let entries :=
    if entries.lookup virtualPath = none then entries.insert virtualPath { name := name } else entries
  addChild entries parent name

/-- Whether the segments are those of a movie or an episode, and the path is clean. -/
def validParts (virtualPath : ByteText) : Bool :=
  let parts := segments virtualPath
  let moviePath := parts.length = 3 ∧ parts.head? = some (text "Movies")
  let episodePath := parts.length = 4 ∧ parts.head? = some (text "TV Shows")
  (moviePath ∨ episodePath) ∧ clean virtualPath = virtualPath ∧
    ∀ part ∈ parts, ¬ (part = [] ∨ part = text "." ∨ part = text "..")

/-- The directories above the segments from `index` on. -/
def addDirectories (entries : Entries) (above : List ByteText) : List ByteText → Entries
  | [] => entries
  | [_] => entries
  | part :: rest => addDirectories (addDirectory entries (ofSegments above) part) (above ++ [part]) rest

section Building

variable [TextTables]

/-- `validateVirtualPath`. -/
def validateVirtualPath (virtualPath : ByteText) : Checked Unit :=
  require (validParts virtualPath) ("invalid virtual path: " ++ ByteText.quote virtualPath)

/-- `addMedia`. -/
def addMedia (entries : Entries) (media : Media) : Checked Entries := do
  let parts := segments media.virtualPath
  require (validParts media.virtualPath)
    ("invalid virtual path: " ++ ByteText.quote media.virtualPath)
  require (entries.lookup media.virtualPath = none)
    ("duplicate virtual path: " ++ ByteText.quote media.virtualPath)
  let entries := addDirectories entries [] parts
  let filename := parts.getLastD []
  let entries := entries.insert media.virtualPath { name := filename, media := some media }
  return addChild entries (ofSegments parts.dropLast) filename

/-- The media in turn, from the entries that there are. -/
def addAll (entries : Entries) : List Media → Checked Entries
  | [] => return entries
  | media :: items => do
      let entries ← addMedia entries media
      addAll entries items

/-- `buildEntries`. -/
def buildEntries (items : List Media) : Checked Entries := do
  let entries ← addAll ((∅ : Entries).insert [] { name := [slash] }) items
  return entries.mapValues fun _ e =>
    { e with children := e.children.insertionSort fun n m => ByteText.le n m }

/-- `filesystem.Replace`, given the media that the catalog lists and the time. -/
def Filesystem.replace (cancelled : Bool) (f : Filesystem) (items : Checked (List Media)) (now : ℤ) :
    Checked Filesystem := do
  require (cancelled = false) "replace PearlNFS filesystem: context canceled"
  let items ← within "list catalog for PearlNFS" items
  let entries ← buildEntries items
  let modified := if now > f.modified then now else f.modified + 1
  return {
    catalog := items
    entries := entries.mapValues fun _ e => { e with modified := modified }
    generation := f.generation + 1
    modified := modified }

/-- The filesystem before its first catalog; its time is Go's zero time. -/
def Filesystem.unbuilt : Filesystem := ⟨[], ∅, 0, -62135596800⟩

/-- `NewReloadable`. -/
def newReloadable (cancelled : Bool) (items : Checked (List Media)) (now : ℤ) :
    Checked Filesystem := do
  require (cancelled = false) "create PearlNFS filesystem: context canceled"
  Filesystem.unbuilt.replace cancelled items now

end Building

/-! ## Reading -/

/-- An error of a call on the filesystem. -/
inductive FileError
  | notExist
  | pathError (op : String) (path : ByteText) (text : String)
  deriving DecidableEq, Repr

/-- `infoFor`. -/
def infoFor (value : Entry) : FileInfo :=
  match value.media with
  | none => ⟨value.name, 0, true, value.modified⟩
  | some media => ⟨value.name, media.size, false, value.modified⟩

/-- `filesystem.Stat`. -/
def Filesystem.stat (f : Filesystem) (filename : ByteText) : Except FileError FileInfo :=
  match f.entries.lookup (cleanPath filename) with
  | none => .error .notExist
  | some value => .ok (infoFor value)

/-- `filesystem.ReadDir`. -/
def Filesystem.readDir (f : Filesystem) (dirname : ByteText) : Except FileError (List FileInfo) :=
  let virtualPath := cleanPath dirname
  match f.entries.lookup virtualPath with
  | none => .error .notExist
  | some directory =>
      if directory.media.isSome then .error (.pathError "readdir" dirname "not a directory")
      else .ok (directory.children.map fun child =>
        infoFor ((f.entries.lookup (cleanPath (join [virtualPath, child]))).getD { name := [] }))

/-! ## Paths of plain segments -/

/-- A path of plain segments is its own clean form; so is the path of the root. -/
theorem cleanPath_ofSegments {l : List ByteText} (hl : ∀ s ∈ l, Plain s) :
    cleanPath (ofSegments l) = ofSegments l := by
  by_cases hne : l = []
  · subst hne
    rfl
  · have hsome : ofSegments l ≠ [] := ofSegments_ne_nil hl hne
    simp only [cleanPath, clean_slash_ofSegments hl hne]
    have habs : isAbs (slash :: ofSegments l) = true := by simp [isAbs]
    rw [if_neg, if_pos habs, List.tail_cons]
    intro h
    exact hsome (List.cons.inj h).2

/-- Joining a name to a path of plain segments adds a segment. -/
theorem join_ofSegments {l : List ByteText} {n : ByteText} (hl : ∀ s ∈ l, Plain s) (hn : Plain n) :
    join [ofSegments l, n] = ofSegments (l ++ [n]) := by
  by_cases hne : l = []
  · subst hne
    exact join_plain (l := [n]) (by simpa using hn) (List.cons_ne_nil _ _)
  · have hall : ∀ s ∈ l ++ [n], Plain s := by
      intro s hs
      rcases List.mem_append.1 hs with hs | hs
      · exact hl s hs
      · exact List.mem_singleton.1 hs ▸ hn
    have hdrop : ([ofSegments l, n].dropWhile fun e => decide (e = [])) = [ofSegments l, n] := by
      rw [List.dropWhile_cons_of_neg]
      simpa using ofSegments_ne_nil hl hne
    rw [join, hdrop]
    have hpath : ofSegments [ofSegments l, n] = ofSegments (l ++ [n]) := by
      rw [ofSegments_cons (List.cons_ne_nil _ _), ofSegments_singleton, ofSegments_concat hne]
    show clean (ofSegments [ofSegments l, n]) = _
    rw [hpath, clean_ofSegments hall (by simp)]

end BlackPearl.Nfs
