import BlackPearl.Acquisition.Search
import BlackPearl.Library.Decimal
import BlackPearl.Library.Words

/-!
# Comparing titles

The text normalization that `internal/service/acquisition`, `internal/service/directrange` and
`internal/resolver` each have a copy of: letters and numbers in lower case, everything else a space,
and single spaces between the words. A phrase is looked for between spaces, so that it is found word
by word: `containsPhrase_iff`.
-/

set_option autoImplicit false

namespace BlackPearl.Acquisition

open BlackPearl.Library BlackPearl.Domain

/-- The letters and the numbers of Unicode. -/
class LetterTables where
  isLetter : Char → Bool
  isNumber : Char → Bool
  isLetter_ascii : ∀ c : Char, c.toNat < 128 → isLetter c = c.isAlpha
  isNumber_ascii : ∀ c : Char, c.toNat < 128 → isNumber c = c.isDigit

/-- Tables that are right for ASCII alone. -/
@[reducible] def LetterTables.ascii : LetterTables where
  isLetter := Char.isAlpha
  isNumber := Char.isDigit
  isLetter_ascii _ _ := rfl
  isNumber_ascii _ _ := rfl

/-! ## Episode numbers -/

/-- `%02d`. -/
def twoDigits : ℤ → List Char
  | .ofNat n => padded 2 n
  | .negSucc n => '-' :: padded 1 (n + 1)

/-- `s%02de%02d`, with the letters that are given. -/
def episodeToken (s e : Char) (request : SearchRequest) : List Char :=
  s :: (twoDigits request.season ++ e :: twoDigits request.episode)

theorem isDigit_of_mem_twoDigits {n : ℤ} (hn : 0 ≤ n) {c : Char} (h : c ∈ twoDigits n) :
    c.isDigit = true := by
  cases n with
  | ofNat n => exact isDigit_of_mem_padded h
  | negSucc n => exact absurd hn (by omega)

section Texts

variable [TextTables] [LetterTables]

/-! ## Normalized text -/

/-- The character that a text is compared by. -/
def comparisonCharacter (c : Char) : Char :=
  if LetterTables.isLetter c || LetterTables.isNumber c then TextTables.toLower c else ' '

/-- The words of a text. -/
def comparisonWords (value : List Char) : List (List Char) :=
  fields isSpace (value.map comparisonCharacter)

/-- `normalizeComparisonText`. -/
def normalizedText (value : List Char) : List Char := joinWords ' ' (comparisonWords value)

theorem comparisonWords_separable (value : List Char) : Separable ' ' (comparisonWords value) :=
  separable_fields (by decide) _

theorem comparisonCharacter_space : comparisonCharacter ' ' = ' ' := by
  have hletter : LetterTables.isLetter ' ' = false := LetterTables.isLetter_ascii _ (by decide)
  have hnumber : LetterTables.isNumber ' ' = false := LetterTables.isNumber_ascii _ (by decide)
  rw [comparisonCharacter, hletter, hnumber]
  rfl

/-- ASCII letters and digits stay, in lower case. -/
theorem comparisonCharacter_ascii {c : Char} (hascii : c.toNat < 128) (h : c.isAlphanum = true) :
    comparisonCharacter c = c.toLower := by
  rw [comparisonCharacter, LetterTables.isLetter_ascii c hascii, LetterTables.isNumber_ascii c hascii,
    ← Char.isAlphanum, h, if_pos rfl, TextTables.toLower_ascii c hascii]

omit [TextTables] [LetterTables] in
theorem toLower_of_isDigit {c : Char} (h : c.isDigit = true) : c.toLower = c := by
  have hall := ascii_cases (P := fun c => c.isDigit = true → c.toLower = c) (by decide) c
    (toNat_lt_of_isDigit h)
  exact hall h

theorem comparisonCharacter_digit {c : Char} (h : c.isDigit = true) : comparisonCharacter c = c := by
  rw [comparisonCharacter_ascii (toNat_lt_of_isDigit h) (by simp [Char.isAlphanum, h]),
    toLower_of_isDigit h]

/-- A text with a space in it has the words before and those after it. -/
theorem comparisonWords_append_space (value value' : List Char) :
    comparisonWords (value ++ ' ' :: value') = comparisonWords value ++ comparisonWords value' := by
  rw [comparisonWords, List.map_append, List.map_cons, comparisonCharacter_space]
  exact fields_append_cons _ _ (by decide)

/-- Between two spaces stands a text that is found word by word. -/
theorem containsText_frame_iff (phrase : List (List Char)) (value : List Char)
    (hphrase : Separable ' ' phrase) (hne : phrase ≠ []) :
    containsText (frame ' ' phrase) (frame ' ' (comparisonWords value)) = true ↔
      phrase <:+: comparisonWords value := by
  rw [containsText_iff, frame_infix_iff hphrase (comparisonWords_separable value) hne]

/-! ## Phrases -/

/-- The phrase has words, and the text has them next to each other. -/
def HasPhrase (value phrase : List Char) : Prop :=
  comparisonWords phrase ≠ [] ∧ comparisonWords phrase <:+: comparisonWords value

/-- `containsComparisonPhrase`. -/
def containsComparisonPhrase (value phrase : List Char) : Bool :=
  let haystack := ' ' :: (normalizedText value ++ [' '])
  let needle := ' ' :: (normalizedText phrase ++ [' '])
  needle != [' ', ' '] && containsText needle haystack

theorem containsComparisonPhrase_iff (value phrase : List Char) :
    containsComparisonPhrase value phrase = true ↔ HasPhrase value phrase := by
  have hneedle : ' ' :: (normalizedText phrase ++ [' ']) = [' ', ' '] ↔
      comparisonWords phrase = [] := by
    rw [← joinWords_eq_nil (comparisonWords_separable phrase)]
    constructor
    · intro h
      rw [normalizedText] at h
      have hlength := congrArg List.length h
      simp only [List.length_cons, List.length_append, List.length_nil] at hlength
      exact List.length_eq_zero_iff.1 (by omega)
    · intro h
      rw [normalizedText, h]
      rfl
  simp only [containsComparisonPhrase, Bool.and_eq_true, bne_iff_ne, ne_eq, hneedle, HasPhrase]
  exact and_congr_right fun hne =>
    containsText_frame_iff _ value (comparisonWords_separable phrase) hne

end Texts

end BlackPearl.Acquisition
