import BlackPearl.Library.Text

/-!
# Media and references to backing objects

The provider-neutral values of `internal/domain/media.go` and `internal/domain/setup.go` that the
cache and the acquisition packages share: references to objects of a provider, and the metadata of
one range-readable file.
-/

set_option autoImplicit false

namespace BlackPearl.Domain

open BlackPearl.Library

/-- `MediaType`; the zero value of the Go type is `unset`. -/
inductive MediaType
  | unset
  | movie
  | episode
  deriving DecidableEq, Repr

/-- `BackingRef`: an object of a provider. -/
structure BackingRef where
  provider : String
  objectID : String
  deriving DecidableEq, Repr

/-- `MediaCandidate`: the metadata of one range-readable provider object. -/
structure MediaCandidate where
  provider : String
  objectID : String
  name : String
  extension : String
  size : ℤ
  deriving DecidableEq, Repr

/-- `defaultSetupProvider`. -/
def defaultSetupProvider : String := "torbox-torrent"

/-- `MediaCandidate.Backing`. -/
def MediaCandidate.backing (c : MediaCandidate) : BackingRef where
  provider := if c.provider = "" then defaultSetupProvider else c.provider
  objectID := c.objectID

section Checks

variable [TextTables]

def isProviderStart (c : Char) : Bool := ('a' ≤ c && c ≤ 'z') || ('0' ≤ c && c ≤ '9')

def isProviderPart (c : Char) : Bool := isProviderStart c || c = '.' || c = '_' || c = '-'

/-- The first character that a provider name may not have where it stands. -/
def invalidProviderCharacter : List Char → Option Char
  | [] => none
  | c :: cs => if isProviderStart c then cs.find? fun c => !isProviderPart c else some c

/-- `validateProvider`. -/
def validateProvider (provider : String) : Checked Unit := do
  require (provider ≠ "") "backing provider is required"
  match invalidProviderCharacter provider.toList with
  | some c => .error ("backing provider contains invalid character " ++ TextTables.quoteRune c)
  | none => .ok ()

/-- `NewBackingRef`. -/
def newBackingRef (provider objectID : String) : Checked BackingRef := do
  validateProvider provider
  require (¬ (trimSpace objectID = "" ∨ '\x00' ∈ objectID.toList))
    "backing object ID is required and must not contain NUL"
  return ⟨provider, objectID⟩

theorem newBackingRef_eq_ok {provider objectID : String} {b : BackingRef}
    (h : newBackingRef provider objectID = .ok b) : b = ⟨provider, objectID⟩ := by
  simp only [newBackingRef, bind_eq_ok, pure_eq_ok] at h
  obtain ⟨_, _, _, _, rfl⟩ := h
  rfl

/-- A reference names a provider and an object. -/
theorem newBackingRef_nonempty {provider objectID : String} {b : BackingRef}
    (h : newBackingRef provider objectID = .ok b) : provider ≠ "" ∧ objectID ≠ "" := by
  simp only [newBackingRef, validateProvider, bind_eq_ok, pure_eq_ok, require_eq_ok] at h
  obtain ⟨_, ⟨_, hprovider, _⟩, _, hobject, rfl⟩ := h
  refine ⟨hprovider, ?_⟩
  rintro rfl
  exact hobject (Or.inl rfl)

/-! ## Paths -/

/-- One step of `path.Clean`: the segments kept so far, last first, and the next segment. -/
def pushSegment (rooted : Bool) (kept : List (List Char)) (segment : List Char) :
    List (List Char) :=
  if segment = [] ∨ segment = ['.'] then kept
  else if segment = ['.', '.'] then
    match kept with
    | [] => if rooted then [] else [segment]
    | top :: rest => if top = ['.', '.'] then segment :: kept else rest
  else segment :: kept

/-- `path.Clean`. -/
def pathClean (path : List Char) : List Char :=
  let rooted := path.head? = some '/'
  let kept := (path.splitOn '/').foldl (pushSegment rooted) []
  let cleaned := (if rooted then ['/'] else []) ++ ['/'].intercalate kept.reverse
  if cleaned = [] then ['.'] else cleaned

/-- `path.Ext`: from the last dot of the last segment. -/
def pathExt (path : List Char) : List Char :=
  let base := path.rtakeWhile fun c => c ≠ '/'
  if '.' ∈ base then '.' :: base.rtakeWhile fun c => c ≠ '.' else []

/-- The name that `NewProviderMediaCandidate` checks: slashes for backslashes, trimmed. -/
def cleanMediaName (name : String) : String :=
  trimSpace (mapCase (fun c => if c = '\\' then '/' else c) name)

/-- `NewProviderMediaCandidate`. -/
def newProviderMediaCandidate (backing : BackingRef) (name : String) (size : ℤ) :
    Checked MediaCandidate := do
  let validated ← within "validate media candidate backing"
    (newBackingRef backing.provider backing.objectID)
  let clean := cleanMediaName name
  let path := clean.toList
  require (¬ (clean = "" ∨ '\x00' ∈ path ∨ path.head? = some '/' ∨ pathClean path ≠ path))
    "media candidate name must be a safe relative path"
  require (∀ segment ∈ path.splitOn '/', ¬ (segment = [] ∨ segment = ['.'] ∨ segment = ['.', '.']))
    "media candidate name contains an unsafe path segment"
  let extension := toLowerString (String.ofList (pathExt path))
  require (extension = ".mp4" ∨ extension = ".mkv")
    ("media candidate extension is unsupported: " ++ TextTables.quote extension)
  require (0 < size) ("media candidate size must be positive: " ++ toString size)
  return {
    provider := validated.provider
    objectID := validated.objectID
    name := clean
    extension := extension
    size := size }

end Checks

/-- Replacing backslashes and trimming change nothing the second time. -/
theorem cleanMediaName_idem (name : String) :
    cleanMediaName (cleanMediaName name) = cleanMediaName name := by
  have hmem : ∀ c ∈ (cleanMediaName name).toList, c ≠ '\\' := by
    intro c hc
    simp only [cleanMediaName, trimSpace, mapCase, String.toList_ofList] at hc
    have hmap := (List.dropWhile_sublist _).subset ((List.rdropWhile_prefix _ _).subset hc)
    obtain ⟨d, _, rfl⟩ := List.mem_map.1 hmap
    split
    · decide
    · assumption
  have hreplace : mapCase (fun c => if c = '\\' then '/' else c) (cleanMediaName name) =
      cleanMediaName name := mapCase_eq_self fun c hc => if_neg (hmem c hc)
  calc cleanMediaName (cleanMediaName name) = trimSpace (cleanMediaName name) := by
        rw [cleanMediaName, hreplace]
    _ = cleanMediaName name := trimSpace_trimSpace _

section Candidates

variable [TextTables]

/-- A checked candidate passes the same check unchanged. -/
theorem newProviderMediaCandidate_idem {backing : BackingRef} {name : String} {size : ℤ}
    {c : MediaCandidate} (h : newProviderMediaCandidate backing name size = .ok c) :
    newProviderMediaCandidate ⟨c.provider, c.objectID⟩ c.name c.size = .ok c ∧
      c.provider = backing.provider ∧ c.objectID = backing.objectID ∧ c.size = size ∧
      c.backing = backing ∧ c.provider ≠ "" ∧ c.objectID ≠ "" ∧ 0 < c.size := by
  simp only [newProviderMediaCandidate, bind_eq_ok, pure_eq_ok, require_eq_ok, within_eq_ok] at h
  obtain ⟨validated, hvalidated, _, hpath, _, hsegments, _, hext, _, hsize, rfl⟩ := h
  have hnonempty := newBackingRef_nonempty hvalidated
  obtain rfl := newBackingRef_eq_ok hvalidated
  refine ⟨?_, rfl, rfl, rfl, ?_, hnonempty.1, hnonempty.2, hsize⟩
  · simp only [newProviderMediaCandidate, bind_eq_ok, pure_eq_ok, require_eq_ok, within_eq_ok,
      cleanMediaName_idem]
    exact ⟨_, hvalidated, (), hpath, (), hsegments, (), hext, (), hsize, rfl⟩
  · simp only [MediaCandidate.backing, if_neg hnonempty.1]

end Candidates

end BlackPearl.Domain
