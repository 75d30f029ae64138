import BlackPearl.Library.Files
import BlackPearl.Setup.Encoding

/-!
# The setup repository

`internal/repository/setup/repository.go`: the token and the manifest of one generation lie in a
directory of their own, and the file `current` names the generation. Every call on files is a step
that may fail or be the last one before a crash; the random names are arguments.
-/

set_option autoImplicit false

namespace BlackPearl.Setup

open BlackPearl.Library BlackPearl.Library.Files BlackPearl.Library.Program

/-! ## Errors -/

/-- The errors that callers ask for with `errors.Is`. -/
inductive Sentinel
  | notExist
  | notFound
  | cleanupDeferred
  deriving DecidableEq, Repr

/-- An error: its text and what it wraps. -/
structure SetupError where
  text : String
  wraps : List Sentinel
  deriving DecidableEq, Repr

def SetupError.is (e : SetupError) (s : Sentinel) : Bool := e.wraps.contains s

/-- `errors.New`. -/
def newError (message : String) : SetupError := ⟨message, []⟩

/-- `fmt.Errorf` with `%w` at the end. -/
def wrapped (context : String) (e : SetupError) : SetupError := ⟨context ++ ": " ++ e.text, e.wraps⟩

/-- `errors.Join`. -/
def joinErrors (e f : SetupError) : SetupError := ⟨e.text ++ "\n" ++ f.text, e.wraps ++ f.wraps⟩

/-- `domain.ErrNotFound`. -/
def errNotFound : SetupError := ⟨"not found", [.notFound]⟩

/-- `domain.ErrCleanupDeferred`. -/
def errCleanupDeferred : SetupError := ⟨"cleanup deferred", [.cleanupDeferred]⟩

instance : FileErrors SetupError where
  notExist := ⟨"file does not exist", [.notExist]⟩
  alreadyExists := newError "file exists"
  failure := newError "input/output error"

/-- A program of the repository. -/
abbrev SetupProgram (α : Type) : Type := FileProgram SetupError α

/-- The result of a check, its error wrapping nothing. -/
def checked {α : Type} (r : Checked α) : SetupProgram α :=
  match r with
  | .ok a => pure a
  | .error message => fail (newError message)

/-! ## Names -/

def tokenFilename : ByteText := text "torbox.token"
def configurationFilename : ByteText := text "configuration.json"
def manifestFilename : ByteText := text "manifest.json"
def currentFilename : ByteText := text "current"
def generationsDirectory : ByteText := text "generations"

def maxTokenBytes : ℕ := 4096
def maxConfigurationBytes : ℕ := 64 * 1024
def maxManifestBytes : ℕ := 512 * 1024

/-- The path of a generation. -/
def generationRoot (generation : ByteText) : FilePath := [generationsDirectory, generation]

/-- `newGenerationID`, given its random bytes. -/
def newGenerationID (random : Vector (Fin 256) 16) : ByteText :=
  (encodeHex (random.toList.map Fin.val)).map .char

/-- The new names of one call that saves: a generation, and the ends of the names of three temporary
files. -/
structure FreshNames where
  generation : Vector (Fin 256) 16
  token : ByteText
  state : ByteText
  current : ByteText

/-! ## Parts -/

/-- `validateToken`. -/
def validateToken (token : ByteText) : Checked Unit :=
  require (¬ (token = [] ∨ ByteText.byteLength token > maxTokenBytes ∨
      ByteText.trimSpace token ≠ token ∨ ByteText.containsChar token '\x00'))
    "TorBox token must contain 1 to 4096 bytes without surrounding whitespace"

/-- `readBounded`. -/
def readBounded (p : FilePath) (maximum : ℕ) : SetupProgram ByteText := do
  let content ← readFile p
  if ByteText.byteLength content ≤ maximum then return content
  else fail (newError "saved setup file exceeds size limit")

/-- Whether a text is the hexadecimal form of sixteen bytes. -/
def isGenerationID (generation : ByteText) : Bool :=
  ((ByteText.chars? generation).bind decodeHex).any fun bytes => bytes.length = 16

/-- `readCurrentGeneration`. -/
def readCurrentGeneration : SetupProgram ByteText := do
  let content ← readBounded [currentFilename] 128
  let generation := ByteText.trimSuffix content (text "\n")
  if isGenerationID generation then return generation
  else fail (newError "invalid setup generation")

/-- `syncDirectory`. -/
def syncDirectory (p : FilePath) : SetupProgram Unit := do
  mapError (touch p) (wrapped "open setup directory for sync")
  mapError (touch p) (wrapped "sync setup directory")

/-- The name of a temporary file. -/
def temporaryName (suffix : ByteText) : ByteText := text ".blackpearl-setup-" ++ suffix

/-- `writeAtomic`; `suffix` ends the name of the temporary file. -/
def writeAtomic (directory : FilePath) (filename suffix content : ByteText) : SetupProgram Unit :=
  replaceFile (directory ++ [temporaryName suffix]) (directory ++ [filename]) content

/-- `Repository.cleanupInactiveGenerations`. -/
def cleanupInactiveGenerations (keep : ByteText) : SetupProgram Unit := do
  let entries ← readDir [generationsDirectory]
  entries.forM fun name => if name = keep then pure () else removeAll (generationRoot name)
  syncDirectory [generationsDirectory]

/-! ## The repository -/

/-- `New`, given whether its root is an absolute path. -/
def new (rootIsAbs : Bool) : SetupProgram Unit := do
  if !rootIsAbs then fail (newError "setup directory must be absolute")
  mapError (mkdirAll []) (wrapped "create setup directory")
  mapError (touch []) (wrapped "protect setup directory")
  mapError (mkdirAll [generationsDirectory]) (wrapped "create setup generations directory")
  mapError (touch [generationsDirectory]) (wrapped "protect setup generations directory")
  let current ← onError readCurrentGeneration fun e =>
    if e.is .notExist then pure [] else fail (newError "inspect saved setup generation")
  mapError (cleanupInactiveGenerations current) (wrapped "clean inactive setup generations")

section Calls

variable [TextTables]

/-- The manifest that the content of `manifest.json` gives. -/
def decodeSavedManifest (content : ByteText) : Except SetupError SetupManifest :=
  match unmarshalManifest content with
  | none => .error (newError "decode saved setup manifest")
  | some decoded =>
      match newSetupManifest decoded.items with
      | .error message => .error (newError ("validate saved setup manifest: " ++ message))
      | .ok validated => .ok validated

/-- The manifest of one item that the content of `configuration.json` gives. -/
def decodeSavedConfiguration (content : ByteText) : Except SetupError SetupManifest :=
  match unmarshalConfiguration content with
  | none => .error (newError "decode saved setup configuration")
  | some decoded =>
      match newSetupManifest [decoded] with
      | .error message => .error (newError ("validate saved setup configuration: " ++ message))
      | .ok validated => .ok validated

/-- Go on with a value that was computed. -/
def computed {α : Type} (r : Except SetupError α) : SetupProgram α :=
  match r with
  | .ok a => pure a
  | .error e => fail e

/-- `Repository.LoadManifest`; `cancelled` is whether the context has ended. -/
def loadManifest (cancelled : Bool) : SetupProgram (ByteText × SetupManifest) := do
  if cancelled then fail (newError "load setup manifest: context canceled")
  let generation ← onError readCurrentGeneration fun e =>
    if e.is .notExist then fail errNotFound else fail (newError "read saved setup generation")
  let root := generationRoot generation
  let token ← mapError (readBounded (root ++ [tokenFilename]) maxTokenBytes)
    fun _ => newError "read saved setup token"
  let tokenValue := ByteText.trimSuffix token (text "\n")
  checked (validateToken tokenValue)
  let manifestJSON ← onError
    (do
      let content ← readBounded (root ++ [manifestFilename]) maxManifestBytes
      return some content)
    (fun e => if e.is .notExist then return none else fail (newError "read saved setup manifest"))
  match manifestJSON with
  | some content =>
      let validated ← computed (decodeSavedManifest content)
      return (tokenValue, validated)
  | none =>
      let content ← mapError (readBounded (root ++ [configurationFilename]) maxConfigurationBytes)
        fun _ => newError "read saved setup configuration"
      let validated ← computed (decodeSavedConfiguration content)
      return (tokenValue, validated)

/-- The files of a generation and the pointer to it, which are written before anything is
committed; `stateError` is the text of the error of the second file. -/
def writeGeneration (generation token stateFilename content : ByteText) (stateError : String)
    (fresh : FreshNames) : SetupProgram Unit := do
  let root := generationRoot generation
  mapError (writeAtomic root tokenFilename fresh.token (token ++ text "\n"))
    fun _ => newError "write setup token"
  mapError (writeAtomic root stateFilename fresh.state content) fun _ => newError stateError
  mapError (syncDirectory root) fun _ => newError "sync setup generation"
  mapError (syncDirectory [generationsDirectory])
    fun _ => newError "sync setup generations directory"
  mapError (writeAtomic [] currentFilename fresh.current (generation ++ text "\n"))
    fun _ => newError "commit setup generation"

/-- What is deferred until an error before the commit. -/
def discardGeneration (generation : ByteText) (e : SetupError) : SetupProgram Unit := do
  let e ← onError (do removeAll (generationRoot generation); return e)
    fun _ => return joinErrors e (newError "remove incomplete setup generation")
  let e ← onError (do syncDirectory [generationsDirectory]; return e)
    fun _ => return joinErrors e (newError "sync removal of incomplete setup generation")
  fail e

/-- What `saveGeneration` and `Save` do after their checks. -/
def commitGeneration (token stateFilename content : ByteText) (stateError : String)
    (fresh : FreshNames) : SetupProgram Unit := do
  let generation := newGenerationID fresh.generation
  mapError (mkdir (generationRoot generation)) fun _ => newError "create setup generation"
  onError (writeGeneration generation token stateFilename content stateError fresh)
    (discardGeneration generation)
  syncDirectory []
  mapError (cleanupInactiveGenerations generation)
    fun e => joinErrors errCleanupDeferred (wrapped "clean inactive setup generations" e)

/-- `Repository.saveGeneration`. -/
def saveGeneration (cancelled : Bool) (token stateFilename content : ByteText)
    (fresh : FreshNames) : SetupProgram Unit := do
  if cancelled then fail (newError "save setup: context canceled")
  checked (validateToken token)
  commitGeneration token stateFilename content "write setup state" fresh

/-- `Repository.SaveManifest`. -/
def saveManifest (cancelled : Bool) (token : ByteText) (manifest : SetupManifest)
    (fresh : FreshNames) : SetupProgram Unit := do
  let validated ← checked (within "validate setup manifest" (newSetupManifest manifest.items))
  saveGeneration cancelled token manifestFilename (marshalLine (encodeManifest validated)) fresh

/-- `Repository.Save`, for one item. -/
def save (cancelled : Bool) (token : ByteText) (c : SetupConfiguration) (fresh : FreshNames) :
    SetupProgram Unit := do
  if cancelled then fail (newError "save setup: context canceled")
  checked (validateToken token)
  let validated ← checked (within "validate setup configuration"
    (newSetupConfiguration c.candidate c.title c.year))
  commitGeneration token configurationFilename (marshalLine (encodeConfiguration validated))
    "write setup configuration" fresh

end Calls

/-- `Repository.Clear`. -/
def clear (cancelled : Bool) : SetupProgram Unit := do
  if cancelled then fail (newError "clear setup: context canceled")
  onError (remove [currentFilename]) fun e =>
    if e.is .notExist then pure () else fail (newError "clear saved setup generation")
  syncDirectory []
  mapError (cleanupInactiveGenerations []) (wrapped "clean cleared setup generations")

end BlackPearl.Setup
