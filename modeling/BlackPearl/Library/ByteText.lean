import BlackPearl.Library.Text
import Mathlib.Data.List.Lex
import Mathlib.Data.List.Infix

/-!
# Texts of arbitrary bytes

A string that need not be UTF-8, as a reader of UTF-8 meets it: a list of pieces, each a character
or a single byte that is part of no character. Trimming, letter case, length and order are those
of such strings; `repair` puts the replacement character for every stray byte, as readers do that
need characters.
-/

set_option autoImplicit false

namespace BlackPearl.Library

/-- A character, or the byte `128 + b` that is part of no character. -/
inductive Piece
  | char (c : Char)
  | stray (b : Fin 128)
  deriving DecidableEq, Repr

/-- A string of arbitrary bytes. -/
abbrev ByteText : Type := List Piece

/-- A text without stray bytes. -/
def text (s : String) : ByteText := s.toList.map .char

theorem text_append (s t : String) : text (s ++ t) = text s ++ text t := by
  simp [text]

theorem text_injective : Function.Injective text := by
  intro s t h
  have hlist : s.toList = t.toList := List.map_injective_iff.2 (fun _ _ => Piece.char.inj) h
  exact String.toList_injective hlist

namespace Piece

/-- The bytes of a piece: the UTF-8 of a character. -/
def bytes : Piece → List ℕ
  | .char c =>
      let n := c.toNat
      if n < 0x80 then [n]
      else if n < 0x800 then [0xc0 + n / 64, 0x80 + n % 64]
      else if n < 0x10000 then [0xe0 + n / 4096, 0x80 + n / 64 % 64, 0x80 + n % 64]
      else [0xf0 + n / 262144, 0x80 + n / 4096 % 64, 0x80 + n / 64 % 64, 0x80 + n % 64]
  | .stray b => [0x80 + b.val]

def isSpace : Piece → Bool
  | .char c => Library.isSpace c
  | .stray _ => false

def isChar : Piece → Bool
  | .char _ => true
  | .stray _ => false

/-- The replacement character for a stray byte. -/
def repair : Piece → Piece
  | .char c => .char c
  | .stray _ => .char '\uFFFD'

/-- The character that a reader meets. -/
def rune : Piece → Char
  | .char c => c
  | .stray _ => '\uFFFD'

theorem repair_eq_self {p : Piece} : p.repair = p ↔ p.isChar = true := by
  cases p <;> simp [repair, isChar]

@[simp] theorem isChar_repair (p : Piece) : p.repair.isChar = true := by
  cases p <;> rfl

end Piece

namespace ByteText

/-- The bytes of a text. -/
def bytes (t : ByteText) : List ℕ := t.flatMap Piece.bytes

/-- The number of bytes. -/
def byteLength (t : ByteText) : ℕ := (bytes t).length

@[simp] theorem byteLength_append (t u : ByteText) :
    byteLength (t ++ u) = byteLength t + byteLength u := by
  simp [byteLength, bytes]

@[simp] theorem bytes_append (t u : ByteText) : bytes (t ++ u) = bytes t ++ bytes u :=
  List.flatMap_append

/-- The bytes of ASCII characters are their numbers. -/
theorem bytes_ascii {cs : List Char} (h : ∀ c ∈ cs, c.toNat < 128) :
    bytes (cs.map .char) = cs.map Char.toNat := by
  induction cs with
  | nil => rfl
  | cons c cs ih =>
    have hc : Piece.bytes (.char c) = [c.toNat] := if_pos (h c List.mem_cons_self)
    have htail := ih fun d hd => h d (List.mem_cons_of_mem c hd)
    rw [List.map_cons, List.map_cons, bytes, List.flatMap_cons, hc, List.singleton_append]
    exact congrArg _ htail

/-- A character of ASCII takes one byte. -/
theorem byteLength_ascii {cs : List Char} (h : ∀ c ∈ cs, c.toNat < 128) :
    byteLength (cs.map .char) = cs.length := by
  rw [byteLength, bytes_ascii h, List.length_map]

/-- The order of strings by their bytes. -/
def le (t u : ByteText) : Bool := decide (bytes t ≤ bytes u)

theorem le_total (t u : ByteText) : le t u || le u t := by
  simp only [le, Bool.or_eq_true, decide_eq_true_eq]
  exact (lt_or_ge (bytes t) (bytes u)).imp le_of_lt id

theorem le_trans {t u v : ByteText} (h₁ : le t u) (h₂ : le u v) : le t v := by
  simp only [le, decide_eq_true_eq] at h₁ h₂ ⊢
  exact h₁.trans h₂

/-- The strict order of strings by their bytes. -/
def lt (t u : ByteText) : Bool := decide (bytes t < bytes u)

/-- What comes before both texts does not matter to their order. -/
theorem lt_append_left (t u v : ByteText) : lt (t ++ u) (t ++ v) = lt u v := by
  have hlist : ∀ l a b : List ℕ, l ++ a < l ++ b ↔ a < b := by
    intro l a b
    induction l with
    | nil => rfl
    | cons n l ih => rw [List.cons_append, List.cons_append, List.cons_lt_cons_self, ih]
  simp only [lt, bytes_append, hlist]

/-- Whether all of the text is characters (valid UTF-8). -/
def isValid (t : ByteText) : Bool := t.all Piece.isChar

/-- Characters only, the replacement character standing for each stray byte. -/
def repair (t : ByteText) : ByteText := t.map Piece.repair

theorem repair_eq_self {t : ByteText} : repair t = t ↔ isValid t = true := by
  unfold repair isValid
  induction t with
  | nil => simp
  | cons p t ih =>
    rw [List.map_cons, List.cons.injEq, Piece.repair_eq_self, ih, List.all_cons, Bool.and_eq_true]

@[simp] theorem isValid_repair (t : ByteText) : isValid (repair t) = true := by
  simp [isValid, repair]

@[simp] theorem isValid_text (s : String) : isValid (text s) = true := by
  simp [isValid, text, Piece.isChar]

@[simp] theorem isValid_append (t u : ByteText) :
    isValid (t ++ u) = (isValid t && isValid u) := by
  simp [isValid]

theorem isValid_of_sublist {t u : ByteText} (h : t.Sublist u) (hu : isValid u = true) :
    isValid t = true := by
  simp only [isValid, List.all_eq_true] at hu ⊢
  exact fun p hp => hu p (h.subset hp)

/-! ## Trimming and letter case -/

/-- Without surrounding white space. -/
def trimSpace (t : ByteText) : ByteText := (t.dropWhile Piece.isSpace).rdropWhile Piece.isSpace

@[simp] theorem trimSpace_trimSpace (t : ByteText) : trimSpace (trimSpace t) = trimSpace t := by
  have hfront : (trimSpace t).dropWhile Piece.isSpace = trimSpace t := dropWhile_rdropWhile _ t
  rw [trimSpace, hfront]
  exact List.rdropWhile_idempotent _ _

theorem trimSpace_sublist (t : ByteText) : (trimSpace t).Sublist t :=
  (List.rdropWhile_prefix _ _).sublist.trans (List.dropWhile_sublist _)

/-- A text that neither begins nor ends with white space. -/
theorem trimSpace_of_ends {t : ByteText} {p q : Piece} (hhead : t.head? = some p)
    (hlast : t.getLast? = some q) (hp : p.isSpace = false) (hq : q.isSpace = false) :
    trimSpace t = t := by
  obtain ⟨rest, rfl⟩ : ∃ rest, t = p :: rest := List.head?_eq_some_iff.1 hhead
  have hfront : (p :: rest).dropWhile Piece.isSpace = p :: rest :=
    List.dropWhile_cons_of_neg (by simp [hp])
  rw [trimSpace, hfront, List.rdropWhile_eq_self_iff]
  intro hne
  rw [List.getLast?_eq_some_getLast hne, Option.some.injEq] at hlast
  rw [hlast, hq]
  exact Bool.false_ne_true

/-- A text that trimming leaves alone has no white space at its end. -/
theorem not_isSpace_of_trimSpace_eq {t : ByteText} {p : Piece} (h : trimSpace t = t)
    (hp : t.getLast? = some p) : p.isSpace = false := by
  rw [trimSpace] at h
  have hne : (t.dropWhile Piece.isSpace).rdropWhile Piece.isSpace ≠ [] := by
    rw [h]
    rintro rfl
    cases hp
  have hlast := List.rdropWhile_last_not Piece.isSpace _ hne
  rw [List.getLast?_eq_some_getLast (by rintro rfl; cases hp), Option.some.injEq] at hp
  have hsame : ((t.dropWhile Piece.isSpace).rdropWhile Piece.isSpace).getLast hne = p := by
    rw [← hp]
    congr 1
  rw [hsame] at hlast
  simpa using hlast

/-- Lower case; a stray byte becomes the replacement character. -/
def toLower [TextTables] (t : ByteText) : ByteText :=
  t.map fun
    | .char c => .char (TextTables.toLower c)
    | .stray _ => .char '\uFFFD'

/-- Upper case, in the same way. -/
def toUpper [TextTables] (t : ByteText) : ByteText :=
  t.map fun
    | .char c => .char (TextTables.toUpper c)
    | .stray _ => .char '\uFFFD'

/-- Lower case leaves a text of ASCII characters alone that has no capital letters. -/
theorem toLower_text [TextTables] {s : String}
    (h : (s.toList.all fun c => c.toNat < 128 && c.toLower = c) = true) :
    toLower (text s) = text s := by
  unfold toLower text
  rw [List.map_map]
  apply List.map_congr_left
  intro c hc
  have hcase := List.all_eq_true.1 h c hc
  simp only [Bool.and_eq_true, decide_eq_true_eq] at hcase
  obtain ⟨hascii, hlower⟩ := hcase
  simp only [Function.comp_apply, TextTables.toLower_ascii c hascii, hlower]

/-- The text in quotation marks, escaped piece by piece. -/
def quote [TextTables] (t : ByteText) : String :=
  let escape : Piece → List Char
    | .char c => (TextTables.quote (String.singleton c)).toList.tail.dropLast
    | .stray b => '\\' :: 'x' :: Nat.toDigits 16 (128 + b.val)
  "\"" ++ String.ofList (t.flatMap escape) ++ "\""

/-! ## Contents -/

/-- Whether `u` stands in `t`. -/
def contains (t u : ByteText) : Bool := decide (u <:+: t)

def containsChar (t : ByteText) (c : Char) : Bool := Piece.char c ∈ t

/-- Without `u` at the end, if it is there. -/
def trimSuffix (t u : ByteText) : ByteText :=
  if u.isSuffixOf t then t.take (t.length - u.length) else t

@[simp] theorem trimSuffix_append (t u : ByteText) : trimSuffix (t ++ u) u = t := by
  have hsuffix : u.isSuffixOf (t ++ u) = true := List.isSuffixOf_iff_suffix.2 (List.suffix_append t u)
  simp [trimSuffix, hsuffix]

/-- The characters that iterating over the string gives. -/
def runes (t : ByteText) : List Char := t.map Piece.rune

@[simp] theorem runes_map (cs : List Char) : runes (cs.map .char) = cs := by
  simp [runes, Function.comp_def, Piece.rune]

/-- The characters of a text, if it has no stray byte. -/
def chars? (t : ByteText) : Option (List Char) :=
  t.mapM fun
    | .char c => some c
    | .stray _ => none

@[simp] theorem chars?_map (cs : List Char) : chars? (cs.map .char) = some cs := by
  unfold chars?
  induction cs with
  | nil => rfl
  | cons c cs ih => simp [List.mapM_cons, ih]

end ByteText

end BlackPearl.Library
