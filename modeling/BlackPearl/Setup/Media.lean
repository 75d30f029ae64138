import BlackPearl.Library.Decimal
import BlackPearl.Library.Slice
import BlackPearl.Library.Paths
import BlackPearl.Domain.Media

/-!
# Media and their paths

`NewBackingRef`, `NewMovie` and `NewEpisode` of `internal/domain/media.go` on texts of arbitrary
bytes, which is what a saved setup may hold: the titles and identifiers need not be UTF-8. The path
of a medium is made of plain segments (`newMovie_path`, `newEpisode_path`).
-/

set_option autoImplicit false

namespace BlackPearl.Setup

open BlackPearl.Library BlackPearl.Library.Path

/-- `MediaType`. -/
abbrev MediaType := Domain.MediaType

/-- `BackingRef`: an object of a provider. -/
structure BackingRef where
  provider : ByteText
  objectID : ByteText
  deriving DecidableEq, Repr

/-- `Media`: one item of the catalog. -/
structure Media where
  id : ByteText
  mediaType : MediaType
  title : ByteText
  year : Int64
  extension : ByteText
  virtualPath : ByteText
  size : Int64
  backing : BackingRef
  deriving DecidableEq, Repr

/-- A number with format `%d`. -/
def formatNumber (n : Int64) : ByteText := (decimal n.toInt).map .char

/-- A number that is not negative with format `%02d`. -/
def formatTwoDigits (n : Int64) : ByteText := (padded 2 n.toInt.toNat).map .char

theorem byteLength_formatNumber {n : Int64} (hn : 0 ≤ n.toInt) {w : ℕ} (hw : 0 < w)
    (hlt : n.toInt < 10 ^ w) : ByteText.byteLength (formatNumber n) ≤ w := by
  have hascii : ∀ c ∈ decimal n.toInt, c.toNat < 128 := by
    intro c hc
    rcases isDigit_or_minus_of_mem_decimal hc with hdigit | rfl
    · exact toNat_lt_of_isDigit hdigit
    · decide
  have hdecimal : decimal n.toInt = Nat.toDigits 10 n.toInt.natAbs := if_neg (not_lt.2 hn)
  rw [formatNumber, ByteText.byteLength_ascii hascii, hdecimal]
  refine (Nat.length_toDigits_le_iff (by omega) hw).2 ?_
  zify
  rwa [abs_of_nonneg hn]

theorem byteLength_formatTwoDigits {n : Int64} (hn : 0 ≤ n.toInt) {w : ℕ} (hw : 2 ≤ w)
    (hlt : n.toInt < 10 ^ w) : ByteText.byteLength (formatTwoDigits n) ≤ w := by
  have hascii : ∀ c ∈ padded 2 n.toInt.toNat, c.toNat < 128 := fun c hc =>
    toNat_lt_of_isDigit (isDigit_of_mem_padded hc)
  have hdigits : (Nat.toDigits 10 n.toInt.toNat).length ≤ w := by
    refine (Nat.length_toDigits_le_iff (by omega) (by omega)).2 ?_
    zify
    rwa [Int.toNat_of_nonneg hn]
  rw [formatTwoDigits, ByteText.byteLength_ascii hascii, padded, List.length_append,
    List.length_replicate]
  omega

/-- `maximumPlexTitleBytes`. -/
def maximumPlexTitleBytes : ℕ := 200

section Constructors

variable [TextTables]

/-- `validateProvider`. -/
def validateProvider (provider : ByteText) : Checked Unit := do
  require (provider ≠ []) "backing provider is required"
  match Domain.invalidProviderCharacter (ByteText.runes provider) with
  | some c => .error ("backing provider contains invalid character " ++ TextTables.quoteRune c)
  | none => .ok ()

/-- `NewBackingRef`. -/
def newBackingRef (provider objectID : ByteText) : Checked BackingRef := do
  validateProvider provider
  require (¬ (ByteText.trimSpace objectID = [] ∨ ByteText.containsChar objectID '\x00'))
    "backing object ID is required and must not contain NUL"
  return ⟨provider, objectID⟩

/-- `validatePathSegment`. -/
def validatePathSegment (name : String) (value : ByteText) : Checked Unit := do
  let trimmed := ByteText.trimSpace value
  require (¬ (trimmed = [] ∨ trimmed = text "." ∨ trimmed = text ".."))
    (name ++ " must be a non-empty path segment")
  require (¬ (ByteText.containsChar value '/' ∨ ByteText.containsChar value '\\' ∨
      ByteText.containsChar value '\x00' ∨ ByteText.contains value (text "..")))
    (name ++ " contains unsafe path characters: " ++ ByteText.quote value)

/-- `validateTitle`. -/
def validateTitle (title : ByteText) : Checked Unit := do
  validatePathSegment "title" title
  require (ByteText.byteLength title ≤ maximumPlexTitleBytes)
    ("title must not exceed " ++ toString maximumPlexTitleBytes ++ " bytes")

/-- The checks of an extension and a size that both constructors make. -/
def validateFile (extension : ByteText) (size : Int64) (backing : BackingRef) : Checked Unit := do
  require (¬ (ByteText.byteLength extension < 2 ∨ extension.head? ≠ some (.char '.')))
    ("extension must begin with a dot: " ++ ByteText.quote extension)
  validatePathSegment "extension" extension.tail
  require (0 ≤ size) ("size must not be negative: " ++ toString size)
  let _ ← within "invalid backing reference" (newBackingRef backing.provider backing.objectID)
  return ()

/-- `fmt.Sprintf("%s (%d)", title, year)`. -/
def displayName (title : ByteText) (year : Int64) : ByteText :=
  title ++ text " (" ++ formatNumber year ++ text ")"

/-- The segments of a movie's path. -/
def movieSegments (title : ByteText) (year : Int64) (extension : ByteText) : List ByteText :=
  [text "Movies", displayName title year, displayName title year ++ extension]

/-- `NewMovie`. -/
def newMovie (id title : ByteText) (year : Int64) (extension : ByteText) (size : Int64)
    (backing : BackingRef) : Checked Media := do
  require (id ≠ []) "media id is required"
  validateTitle title
  require (¬ (year < 1 ∨ year > 9999)) ("year must be between 1 and 9999: " ++ toString year)
  validateFile extension size backing
  return {
    id := id
    mediaType := .movie
    title := title
    year := year
    extension := extension
    virtualPath := join (movieSegments title year extension)
    size := size
    backing := backing }

/-- The file name of an episode. -/
def episodeFilename (showTitle : ByteText) (year season episode : Int64)
    (episodeTitle extension : ByteText) : ByteText :=
  displayName showTitle year ++ text " - S" ++ formatTwoDigits season ++ text "E" ++
    formatTwoDigits episode ++ text " - " ++ episodeTitle ++ extension

/-- The segments of an episode's path. -/
def episodeSegments (showTitle : ByteText) (year season episode : Int64)
    (episodeTitle extension : ByteText) : List ByteText :=
  [text "TV Shows", displayName showTitle year, text "Season " ++ formatTwoDigits season,
    episodeFilename showTitle year season episode episodeTitle extension]

/-- `NewEpisode`. -/
def newEpisode (id showTitle : ByteText) (year season episode : Int64)
    (episodeTitle extension : ByteText) (size : Int64) (backing : BackingRef) : Checked Media := do
  require (id ≠ []) "media id is required"
  within "invalid show title" (validateTitle showTitle)
  within "invalid episode title" (validateTitle episodeTitle)
  require (¬ (year < 1 ∨ year > 9999)) ("year must be between 1 and 9999: " ++ toString year)
  require (¬ (season < 0 ∨ season > 99)) ("season must be between 0 and 99: " ++ toString season)
  require (¬ (episode < 1 ∨ episode > 999))
    ("episode must be between 1 and 999: " ++ toString episode)
  validateFile extension size backing
  let filename := episodeFilename showTitle year season episode episodeTitle extension
  require (ByteText.byteLength filename ≤ 255) "episode filename must not exceed 255 bytes"
  return {
    id := id
    mediaType := .episode
    title := episodeTitle
    year := year
    extension := extension
    virtualPath := join (episodeSegments showTitle year season episode episodeTitle extension)
    size := size
    backing := backing }

/-! ## What the constructors accept -/

theorem newBackingRef_eq_ok {provider objectID : ByteText} {b : BackingRef} :
    newBackingRef provider objectID = .ok b ↔ validateProvider provider = .ok () ∧
      ByteText.trimSpace objectID ≠ [] ∧ Piece.char '\x00' ∉ objectID ∧
      b = ⟨provider, objectID⟩ := by
  simp only [newBackingRef, bind_eq_ok, pure_eq_ok, require_eq_ok, ByteText.containsChar,
    decide_eq_true_eq, not_or]
  constructor
  · rintro ⟨_, hprovider, _, hobject, rfl⟩
    exact ⟨hprovider, hobject.1, hobject.2, rfl⟩
  · rintro ⟨hprovider, htrim, hnul, rfl⟩
    exact ⟨(), hprovider, (), ⟨htrim, hnul⟩, rfl⟩

theorem newMovie_eq_ok {id title extension : ByteText} {year size : Int64} {backing : BackingRef}
    {m : Media} : newMovie id title year extension size backing = .ok m ↔
      id ≠ [] ∧ validateTitle title = .ok () ∧ ¬ (year < 1 ∨ year > 9999) ∧
        validateFile extension size backing = .ok () ∧
        m = ⟨id, .movie, title, year, extension, join (movieSegments title year extension), size,
          backing⟩ := by
  simp only [newMovie, bind_eq_ok, pure_eq_ok, require_eq_ok]
  constructor
  · rintro ⟨_, hid, _, htitle, _, hyear, _, hfile, rfl⟩
    exact ⟨hid, htitle, hyear, hfile, rfl⟩
  · rintro ⟨hid, htitle, hyear, hfile, rfl⟩
    exact ⟨(), hid, (), htitle, (), hyear, (), hfile, rfl⟩

theorem newEpisode_eq_ok {id showTitle episodeTitle extension : ByteText}
    {year season episode size : Int64} {backing : BackingRef} {m : Media} :
    newEpisode id showTitle year season episode episodeTitle extension size backing = .ok m ↔
      id ≠ [] ∧ validateTitle showTitle = .ok () ∧ validateTitle episodeTitle = .ok () ∧
        ¬ (year < 1 ∨ year > 9999) ∧ ¬ (season < 0 ∨ season > 99) ∧
        ¬ (episode < 1 ∨ episode > 999) ∧ validateFile extension size backing = .ok () ∧
        ByteText.byteLength
          (episodeFilename showTitle year season episode episodeTitle extension) ≤ 255 ∧
        m = ⟨id, .episode, episodeTitle, year, extension,
          join (episodeSegments showTitle year season episode episodeTitle extension), size,
          backing⟩ := by
  simp only [newEpisode, bind_eq_ok, pure_eq_ok, require_eq_ok, within_eq_ok]
  constructor
  · rintro ⟨_, hid, _, hshow, _, htitle, _, hyear, _, hseason, _, hepisode, _, hfile, _, hlen, rfl⟩
    exact ⟨hid, hshow, htitle, hyear, hseason, hepisode, hfile, hlen, rfl⟩
  · rintro ⟨hid, hshow, htitle, hyear, hseason, hepisode, hfile, hlen, rfl⟩
    exact ⟨(), hid, (), hshow, (), htitle, (), hyear, (), hseason, (), hepisode, (), hfile, (),
      hlen, rfl⟩

/-- A checked segment has no separator, no NUL, and is not blank. -/
theorem validatePathSegment_eq_ok {name : String} {value : ByteText} {u : Unit}
    (h : validatePathSegment name value = .ok u) :
    slash ∉ value ∧ Piece.char '\x00' ∉ value ∧ ByteText.trimSpace value ≠ [] := by
  simp only [validatePathSegment, bind_eq_ok, require_eq_ok, ByteText.containsChar,
    decide_eq_true_eq, not_or] at h
  obtain ⟨_, hblank, hslash, _, hnul, _⟩ := h
  exact ⟨hslash, hnul, hblank.1⟩

theorem validateTitle_eq_ok {title : ByteText} {u : Unit} (h : validateTitle title = .ok u) :
    slash ∉ title ∧ Piece.char '\x00' ∉ title ∧ ByteText.trimSpace title ≠ [] := by
  simp only [validateTitle, bind_eq_ok] at h
  obtain ⟨_, hsegment, _⟩ := h
  exact validatePathSegment_eq_ok hsegment

theorem validateFile_eq_ok {extension : ByteText} {size : Int64} {backing : BackingRef} {u : Unit}
    (h : validateFile extension size backing = .ok u) :
    slash ∉ extension ∧ Piece.char '\x00' ∉ extension ∧
      newBackingRef backing.provider backing.objectID = .ok backing := by
  simp only [validateFile, bind_eq_ok, pure_eq_ok, require_eq_ok, within_eq_ok, not_or] at h
  obtain ⟨_, ⟨_, hhead⟩, _, hsegment, _, _, b, hbacking, _⟩ := h
  obtain ⟨hslash, hnul, _⟩ := validatePathSegment_eq_ok hsegment
  have hb : b = backing := (newBackingRef_eq_ok.1 hbacking).2.2.2
  cases extension with
  | nil => simp at hhead
  | cons p rest =>
    simp only [List.head?_cons, ne_eq, Option.some.injEq, not_not] at hhead
    subst hhead
    refine ⟨?_, ?_, hb ▸ hbacking⟩
    · rw [List.mem_cons, not_or]
      exact ⟨by decide, hslash⟩
    · rw [List.mem_cons, not_or]
      exact ⟨by decide, hnul⟩

/-- The checks of a file ask of its provider only that it is a name. -/
theorem validateFile_provider {extension provider other objectID : ByteText} {size : Int64}
    (h : validateFile extension size ⟨provider, objectID⟩ = .ok ())
    (hother : validateProvider other = .ok ()) :
    validateFile extension size ⟨other, objectID⟩ = .ok () := by
  simp only [validateFile, bind_eq_ok, pure_eq_ok, require_eq_ok, within_eq_ok] at h ⊢
  obtain ⟨_, hhead, _, hsegment, _, hsize, b, hbacking, _⟩ := h
  obtain ⟨_, hobject, hnul, _⟩ := newBackingRef_eq_ok.1 hbacking
  exact ⟨(), hhead, (), hsegment, (), hsize, _,
    newBackingRef_eq_ok.2 ⟨hother, hobject, hnul, rfl⟩, trivial⟩

/-! ## Paths -/

omit [TextTables] in
/-- A segment with a character that is no dot, and without a separator. -/
theorem plain_of_mem {s : ByteText} {c : Char} (hc : .char c ∈ s) (hdot : c ≠ '.')
    (hslash : slash ∉ s) : Plain s where
  nonempty := by
    rintro rfl
    cases hc
  not_dot := by
    rintro rfl
    simp [text, hdot] at hc
  not_dots := by
    rintro rfl
    simp [text, hdot] at hc
  no_slash := hslash

omit [TextTables] in
/-- Digits and signs are none of the characters that a path separates or ends with. -/
theorem notMem_formatNumber {n : Int64} {c : Char} (hdigit : c.isDigit = false) (hminus : c ≠ '-') :
    .char c ∉ formatNumber n := by
  intro h
  obtain ⟨d, hd, hdc⟩ := List.mem_map.1 h
  obtain rfl := Piece.char.inj hdc
  rcases isDigit_or_minus_of_mem_decimal hd with hd | rfl
  · rw [hd] at hdigit
    cases hdigit
  · exact hminus rfl

omit [TextTables] in
theorem notMem_formatTwoDigits {n : Int64} {c : Char} (hdigit : c.isDigit = false) :
    .char c ∉ formatTwoDigits n := by
  intro h
  obtain ⟨d, hd, hdc⟩ := List.mem_map.1 h
  obtain rfl := Piece.char.inj hdc
  rw [isDigit_of_mem_padded hd] at hdigit
  cases hdigit

omit [TextTables] in
/-- A display name has the characters of its title, and no others that matter to a path. -/
theorem notMem_displayName {title : ByteText} {year : Int64} {c : Char} (htitle : .char c ∉ title)
    (hdigit : c.isDigit = false) (hother : c ∉ ['-', ' ', '(', ')']) :
    .char c ∉ displayName title year := by
  have hnumber : .char c ∉ formatNumber year :=
    notMem_formatNumber hdigit fun h => hother (by simp [h])
  simp only [List.mem_cons, List.not_mem_nil, or_false, not_or] at hother
  simp [displayName, text, htitle, hnumber, hother]

omit [TextTables] in
theorem plain_displayName {title extension : ByteText} (year : Int64) (htitle : slash ∉ title)
    (hextension : slash ∉ extension) : Plain (displayName title year ++ extension) := by
  apply plain_of_mem (c := '(')
  · simp [displayName, text]
  · decide
  · rw [List.mem_append, not_or]
    exact ⟨notMem_displayName htitle (by decide) (by decide), hextension⟩

omit [TextTables] in
/-- The segments of a movie's path are plain. -/
theorem plain_movieSegments {title extension : ByteText} (year : Int64) (htitle : slash ∉ title)
    (hextension : slash ∉ extension) : ∀ s ∈ movieSegments title year extension, Plain s := by
  have hroot : Plain (text "Movies") := plain_of_mem (c := 'M') (by decide) (by decide) (by decide)
  have hdirectory : Plain (displayName title year) := by
    have h := plain_displayName year htitle (List.not_mem_nil (a := slash))
    rwa [List.append_nil] at h
  intro s hs
  simp only [movieSegments, List.mem_cons, List.not_mem_nil, or_false] at hs
  rcases hs with rfl | rfl | rfl
  · exact hroot
  · exact hdirectory
  · exact plain_displayName year htitle hextension

omit [TextTables] in
/-- So are those of an episode's path. -/
theorem plain_episodeSegments {showTitle episodeTitle extension : ByteText}
    (year season episode : Int64) (hshow : slash ∉ showTitle) (htitle : slash ∉ episodeTitle)
    (hextension : slash ∉ extension) :
    ∀ s ∈ episodeSegments showTitle year season episode episodeTitle extension, Plain s := by
  have hroot : Plain (text "TV Shows") :=
    plain_of_mem (c := 'T') (by decide) (by decide) (by decide)
  have hdirectory : Plain (displayName showTitle year) := by
    have h := plain_displayName year hshow (List.not_mem_nil (a := slash))
    rwa [List.append_nil] at h
  have hseason : ∀ n, slash ∉ formatTwoDigits n := fun n => notMem_formatTwoDigits (by decide)
  intro s hs
  simp only [episodeSegments, List.mem_cons, List.not_mem_nil, or_false] at hs
  rcases hs with rfl | rfl | rfl | rfl
  · exact hroot
  · exact hdirectory
  · apply plain_of_mem (c := 'S')
    · simp [text]
    · decide
    · have htext : slash ∉ text "Season " := by decide
      simp [htext, hseason]
  · have hrest : slash ∉ text " - S" ++ formatTwoDigits season ++ text "E" ++
        formatTwoDigits episode ++ text " - " ++ episodeTitle ++ extension := by
      have h₁ : slash ∉ text " - S" := by decide
      have h₂ : slash ∉ text "E" := by decide
      have h₃ : slash ∉ text " - " := by decide
      simp only [List.mem_append, not_or]
      exact ⟨⟨⟨⟨⟨⟨h₁, hseason _⟩, h₂⟩, hseason _⟩, h₃⟩, htitle⟩, hextension⟩
    have h := plain_displayName year hshow hrest
    simpa only [episodeFilename, List.append_assoc] using h

/-- The path of a movie is clean and has the segments it was made of. -/
theorem newMovie_path {id title extension : ByteText} {year size : Int64} {backing : BackingRef}
    {m : Media} (h : newMovie id title year extension size backing = .ok m) :
    m.virtualPath = ofSegments (movieSegments title year extension) ∧
      ∀ s ∈ movieSegments title year extension, Plain s := by
  obtain ⟨_, htitle, _, hfile, rfl⟩ := newMovie_eq_ok.1 h
  have hplain := plain_movieSegments year (validateTitle_eq_ok htitle).1
    (validateFile_eq_ok hfile).1
  exact ⟨join_plain hplain (List.cons_ne_nil _ _), hplain⟩

theorem newEpisode_path {id showTitle episodeTitle extension : ByteText}
    {year season episode size : Int64} {backing : BackingRef} {m : Media}
    (h : newEpisode id showTitle year season episode episodeTitle extension size backing = .ok m) :
    m.virtualPath =
        ofSegments (episodeSegments showTitle year season episode episodeTitle extension) ∧
      ∀ s ∈ episodeSegments showTitle year season episode episodeTitle extension, Plain s := by
  obtain ⟨_, hshow, htitle, _, _, _, hfile, _, rfl⟩ := newEpisode_eq_ok.1 h
  have hplain := plain_episodeSegments year season episode
    (validateTitle_eq_ok hshow).1 (validateTitle_eq_ok htitle).1 (validateFile_eq_ok hfile).1
  exact ⟨join_plain hplain (List.cons_ne_nil _ _), hplain⟩

end Constructors

/-! ## Paths tell media apart -/

theorem formatNumber_injective : Function.Injective formatNumber := by
  intro m n h
  have hdecimal : decimal m.toInt = decimal n.toInt :=
    List.map_injective_iff.2 (fun _ _ => Piece.char.inj) h
  have hparse := congrArg parseDecimal hdecimal
  rw [parseDecimal_decimal, parseDecimal_decimal, Option.some.injEq] at hparse
  exact Int64.toInt_inj.1 hparse

theorem formatTwoDigits_inj {m n : Int64} (hm : 0 ≤ m.toInt) (hn : 0 ≤ n.toInt)
    (h : formatTwoDigits m = formatTwoDigits n) : m = n := by
  have hpadded : padded 2 m.toInt.toNat = padded 2 n.toInt.toNat :=
    List.map_injective_iff.2 (fun _ _ => Piece.char.inj) h
  have hnat := padded_injective 2 hpadded
  exact Int64.toInt_inj.1 (by omega)

/-- A display name ends with its year, in the last pair of brackets. -/
theorem displayName_inj {title title' : ByteText} {year year' : Int64}
    (h : displayName title year = displayName title' year') : title = title' ∧ year = year' := by
  have hsplit : ∀ (t : ByteText) (y : Int64),
      displayName t y = (t ++ [.char ' ']) ++ .char '(' :: (formatNumber y ++ text ")") := by
    intro t y
    simp [displayName, text]
  have hbracket : ∀ y : Int64, Piece.char '(' ∉ formatNumber y ++ text ")" := by
    intro y
    rw [List.mem_append, not_or]
    exact ⟨notMem_formatNumber (by decide) (by decide), by decide⟩
  rw [hsplit, hsplit] at h
  obtain ⟨htitle, hyear⟩ := append_cons_cancel_right (hbracket _) (hbracket _) h
  exact ⟨List.append_cancel_right htitle, formatNumber_injective (List.append_cancel_right hyear)⟩

/-- The segments of a movie's path tell its title and its year. -/
theorem movieSegments_inj {title title' extension extension' : ByteText} {year year' : Int64}
    (h : movieSegments title year extension = movieSegments title' year' extension') :
    title = title' ∧ year = year' := by
  simp only [movieSegments, List.cons.injEq, true_and] at h
  exact displayName_inj h.1

/-- Those of an episode's path tell the show, its year, the season and the episode. -/
theorem episodeSegments_inj {showTitle showTitle' episodeTitle episodeTitle' extension extension' :
    ByteText} {year year' season season' episode episode' : Int64}
    (hs : 0 ≤ season.toInt) (hs' : 0 ≤ season'.toInt) (he : 0 ≤ episode.toInt)
    (he' : 0 ≤ episode'.toInt)
    (h : episodeSegments showTitle year season episode episodeTitle extension =
      episodeSegments showTitle' year' season' episode' episodeTitle' extension') :
    showTitle = showTitle' ∧ year = year' ∧ season = season' ∧ episode = episode' := by
  simp only [episodeSegments, List.cons.injEq, true_and, and_true] at h
  obtain ⟨hdirectory, hseason, hfilename⟩ := h
  obtain ⟨rfl, rfl⟩ := displayName_inj hdirectory
  obtain rfl := formatTwoDigits_inj hs hs' (List.append_cancel_left hseason)
  refine ⟨rfl, rfl, rfl, formatTwoDigits_inj he he' ?_⟩
  have hspace : ∀ n, Piece.char ' ' ∉ formatTwoDigits n := fun n => notMem_formatTwoDigits (by decide)
  have hdash : text " - " = .char ' ' :: text "- " := by decide
  simp only [episodeFilename, List.append_assoc, hdash, List.cons_append] at hfilename
  have hrest := List.append_cancel_left (List.append_cancel_left (List.append_cancel_left
    (List.append_cancel_left hfilename)))
  exact (append_cons_cancel (hspace _) (hspace _) hrest).1

/-- No movie has an episode's path. -/
theorem movieSegments_ne_episodeSegments {title showTitle episodeTitle extension extension' :
    ByteText} {year year' season episode : Int64} :
    movieSegments title year extension ≠
      episodeSegments showTitle year' season episode episodeTitle extension' := by
  intro h
  have hroot := (List.cons.inj h).1
  exact absurd hroot (by decide)

end BlackPearl.Setup
