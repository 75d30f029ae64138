import BlackPearl.Library.ByteText
import BlackPearl.Library.Decimal

/-!
# JSON

Values, their compact notation, and a parser of any notation. Numbers keep their literal. The
writer escapes what a page could misread (angle brackets, the ampersand, line separators) and
writes the replacement character for a stray byte; the reader reads every escape, pairs of
surrogates included. So reading what was written gives the value with its texts repaired
(`parse_render`).
-/

set_option autoImplicit false

namespace BlackPearl.Library

/-! ## Numbers -/

/-- Drop digits from the front, if there is at least one. -/
def dropDigits (cs : List Char) : Option (List Char) :=
  if cs.takeWhile Char.isDigit = [] then none else some (cs.dropWhile Char.isDigit)

/-- Drop an integer, which has no leading zero. -/
def dropInteger : List Char → Option (List Char)
  | '0' :: cs => some cs
  | cs => dropDigits cs

/-- Drop a fraction, if there is one. -/
def dropFraction : List Char → Option (List Char)
  | '.' :: cs => dropDigits cs
  | cs => some cs

/-- Drop an exponent, if there is one. -/
def dropExponent : List Char → Option (List Char)
  | e :: cs =>
      if e = 'e' ∨ e = 'E' then
        match cs with
        | [] => none
        | sign :: ds => if sign = '+' ∨ sign = '-' then dropDigits ds else dropDigits (sign :: ds)
      else some (e :: cs)
  | [] => some []

def dropMinus : List Char → List Char
  | '-' :: cs => cs
  | cs => cs

/-- The literals of numbers. -/
def isNumber (cs : List Char) : Bool :=
  (((dropInteger (dropMinus cs)).bind dropFraction).bind dropExponent) == some []

/-- Characters that occur in the literal of a number. -/
def isNumberChar (c : Char) : Bool := c.isDigit || ['+', '-', '.', 'e', 'E'].contains c

theorem dropMinus_decimal (n : ℤ) : dropMinus (decimal n) = Nat.toDigits 10 n.natAbs := by
  by_cases hn : n < 0
  · rw [decimal, if_pos hn]
    rfl
  · rw [decimal, if_neg hn, dropMinus]
    intro cs hcs
    have hminus : '-' ∈ Nat.toDigits 10 n.natAbs := hcs ▸ List.mem_cons_self
    exact absurd (isDigit_of_mem_toDigits hminus) (by decide)

theorem dropInteger_toDigits (n : ℕ) : dropInteger (Nat.toDigits 10 n) = some [] := by
  have hall : ∀ c ∈ Nat.toDigits 10 n, c.isDigit = true := fun c hc => isDigit_of_mem_toDigits hc
  rcases Nat.eq_zero_or_pos n with rfl | hpos
  · rw [Nat.toDigits_zero]
    rfl
  · rw [dropInteger, dropDigits, List.takeWhile_eq_self_iff.2 hall,
      List.dropWhile_eq_nil_iff.2 hall, if_neg Nat.toDigits_ne_nil]
    intro cs hcs
    exact head?_toDigits hpos (by rw [hcs, List.head?_cons])

theorem isNumber_decimal (n : ℤ) : isNumber (decimal n) = true := by
  rw [isNumber, dropMinus_decimal, dropInteger_toDigits]
  rfl

/-! ## Values -/

/-- The literal of a number. -/
abbrev NumberLiteral : Type := { cs : List Char // isNumber cs = true }

/-- A JSON value. -/
inductive Json
  | null
  | bool (b : Bool)
  | number (literal : NumberLiteral)
  | string (t : ByteText)
  | array (elements : List Json)
  | object (members : List (ByteText × Json))

namespace Json

/-- The value of an integer. -/
def int (n : ℤ) : Json := .number ⟨decimal n, isNumber_decimal n⟩

/-! ## Writing -/

/-- The digits of an escape by number. -/
def hexDigits (n : ℕ) : List Char :=
  [Nat.digitChar (n / 4096 % 16), Nat.digitChar (n / 256 % 16), Nat.digitChar (n / 16 % 16),
    Nat.digitChar (n % 16)]

/-- The letter that escapes a character, if it has one. -/
def shortEscape (c : Char) : Option Char :=
  if c = '"' then some '"'
  else if c = '\\' then some '\\'
  else if c = '\x08' then some 'b'
  else if c = '\x0c' then some 'f'
  else if c = '\n' then some 'n'
  else if c = '\r' then some 'r'
  else if c = '\t' then some 't'
  else none

/-- Characters that are written by their number. -/
def escapedByNumber (c : Char) : Bool :=
  c.toNat < 0x20 || ['<', '>', '&', '\u2028', '\u2029'].contains c

/-- The notation of a piece within a string. -/
def escape : Piece → List Char
  | .char c =>
      match shortEscape c with
      | some e => ['\\', e]
      | none => if escapedByNumber c then '\\' :: 'u' :: hexDigits c.toNat else [c]
  | .stray _ => '\\' :: 'u' :: hexDigits 0xFFFD

def renderString (t : ByteText) : List Char := '"' :: (t.flatMap escape ++ ['"'])

mutual

/-- The compact notation of a value. -/
def render : Json → List Char
  | .null => "null".toList
  | .bool true => "true".toList
  | .bool false => "false".toList
  | .number literal => literal.val
  | .string t => renderString t
  | .array [] => ['[', ']']
  | .array (v :: vs) => '[' :: (render v ++ renderElements vs)
  | .object [] => ['{', '}']
  | .object ((k, v) :: ms) => '{' :: (renderString k ++ ':' :: (render v ++ renderMembers ms))

/-- The elements after the first one, and the end of the array. -/
def renderElements : List Json → List Char
  | [] => [']']
  | v :: vs => ',' :: (render v ++ renderElements vs)

/-- The members after the first one, and the end of the object. -/
def renderMembers : List (ByteText × Json) → List Char
  | [] => ['}']
  | (k, v) :: ms => ',' :: (renderString k ++ ':' :: (render v ++ renderMembers ms))

end

/-! ## Reading -/

def isBlank (c : Char) : Bool := c = ' ' || c = '\t' || c = '\n' || c = '\r'

def skipSpace (cs : List Char) : List Char := cs.dropWhile isBlank

/-- The character of a one-letter escape. -/
def unescape (c : Char) : Option Char :=
  if c = '"' ∨ c = '\\' ∨ c = '/' then some c
  else if c = 'b' then some '\x08'
  else if c = 'f' then some '\x0c'
  else if c = 'n' then some '\n'
  else if c = 'r' then some '\r'
  else if c = 't' then some '\t'
  else none

/-- Four hexadecimal digits and the rest. -/
def readHex : List Char → Option (ℕ × List Char)
  | a :: b :: c :: d :: rest => do
      let a ← hexValue a
      let b ← hexValue b
      let c ← hexValue c
      let d ← hexValue d
      return (a * 4096 + b * 256 + c * 16 + d, rest)
  | _ => none

/-- The character of an escape by number; a surrogate without its partner is replaced. -/
def readCode (cs : List Char) : Option (Char × List Char) := do
  let (n, rest) ← readHex cs
  if 0xD800 ≤ n ∧ n < 0xDC00 then
    match rest with
    | '\\' :: 'u' :: more =>
        match readHex more with
        | some (m, after) =>
            if 0xDC00 ≤ m ∧ m < 0xE000 then
              return (Char.ofNat (0x10000 + (n - 0xD800) * 0x400 + (m - 0xDC00)), after)
            else return ('\uFFFD', rest)
        | none => return ('\uFFFD', rest)
    | _ => return ('\uFFFD', rest)
  else if 0xDC00 ≤ n ∧ n < 0xE000 then return ('\uFFFD', rest)
  else return (Char.ofNat n, rest)

/-- One character of a string. -/
def readChar : List Char → Option (Char × List Char)
  | [] => none
  | c :: rest =>
      if c = '\\' then
        match rest with
        | [] => none
        | e :: more => if e = 'u' then readCode more else (unescape e).map fun d => (d, more)
      else if c.toNat < 0x20 then none
      else some (c, rest)

/-- The characters of a string up to its closing quotation mark. -/
def readString : ℕ → List Char → Option (List Char × List Char)
  | 0, _ => none
  | fuel + 1, cs =>
      match cs with
      | '"' :: rest => some ([], rest)
      | cs => do
          let (c, rest) ← readChar cs
          let (more, rest) ← readString fuel rest
          return (c :: more, rest)

/-- A text in quotation marks. -/
def readQuoted : List Char → Option (ByteText × List Char)
  | '"' :: rest => (readString (rest.length + 1) rest).map fun r => (r.1.map .char, r.2)
  | _ => none

/-- The word that `cs` begins with gives `v`. -/
def readWord (word : String) (v : Json) (cs : List Char) : Option (Json × List Char) :=
  if word.toList.isPrefixOf cs then some (v, cs.drop word.toList.length) else none

def readNumber (cs : List Char) : Option (Json × List Char) :=
  let literal := cs.takeWhile isNumberChar
  if h : isNumber literal = true then some (.number ⟨literal, h⟩, cs.dropWhile isNumberChar)
  else none

mutual

/-- A value at the front, with at most `fuel` levels and elements. -/
def readValue : ℕ → List Char → Option (Json × List Char)
  | 0, _ => none
  | fuel + 1, cs =>
      match skipSpace cs with
      | '"' :: rest => (readQuoted ('"' :: rest)).map fun r => (.string r.1, r.2)
      | '[' :: rest =>
          match skipSpace rest with
          | ']' :: rest => some (.array [], rest)
          | rest => (readElements fuel rest).map fun r => (.array r.1, r.2)
      | '{' :: rest =>
          match skipSpace rest with
          | '}' :: rest => some (.object [], rest)
          | rest => (readMembers fuel rest).map fun r => (.object r.1, r.2)
      | rest =>
          readWord "null" .null rest <|> readWord "true" (.bool true) rest <|>
            readWord "false" (.bool false) rest <|> readNumber rest

/-- The elements of an array up to its end. -/
def readElements : ℕ → List Char → Option (List Json × List Char)
  | 0, _ => none
  | fuel + 1, cs => do
      let (v, rest) ← readValue fuel cs
      match skipSpace rest with
      | ',' :: rest => (readElements fuel rest).map fun r => (v :: r.1, r.2)
      | ']' :: rest => return ([v], rest)
      | _ => none

/-- The members of an object up to its end. -/
def readMembers : ℕ → List Char → Option (List (ByteText × Json) × List Char)
  | 0, _ => none
  | fuel + 1, cs => do
      let (k, rest) ← readQuoted (skipSpace cs)
      match skipSpace rest with
      | ':' :: rest =>
          let (v, rest) ← readValue fuel rest
          match skipSpace rest with
          | ',' :: rest => (readMembers fuel rest).map fun r => ((k, v) :: r.1, r.2)
          | '}' :: rest => return ([(k, v)], rest)
          | _ => none
      | _ => none

end

/-- The value of a text that is one value and blanks. -/
def parse (t : ByteText) : Option Json := do
  let (v, rest) ← readValue (t.length + 1) (ByteText.runes t)
  if skipSpace rest = [] then return v else none

mutual

/-- A value with its texts repaired. -/
def repair : Json → Json
  | .null => .null
  | .bool b => .bool b
  | .number literal => .number literal
  | .string t => .string (ByteText.repair t)
  | .array vs => .array (repairElements vs)
  | .object ms => .object (repairMembers ms)

def repairElements : List Json → List Json
  | [] => []
  | v :: vs => repair v :: repairElements vs

def repairMembers : List (ByteText × Json) → List (ByteText × Json)
  | [] => []
  | (k, v) :: ms => (ByteText.repair k, repair v) :: repairMembers ms

end

/-! ## Reading back a string -/

theorem readHex_hexDigits {n : ℕ} (hn : n < 65536) (rest : List Char) :
    readHex (hexDigits n ++ rest) = some (n, rest) := by
  have hdigit : ∀ m, hexValue (Nat.digitChar (m % 16)) = some (m % 16) :=
    fun m => hexValue_digitChar _ (Nat.mod_lt m (by decide))
  have hsum : n / 4096 % 16 * 4096 + n / 256 % 16 * 256 + n / 16 % 16 * 16 + n % 16 = n := by omega
  simp only [hexDigits, List.cons_append, List.nil_append, readHex, hdigit, hsum,
    Option.bind_eq_bind, Option.bind_some, Option.pure_def]

/-- Reading the number of a character below the surrogates or above them gives the character. -/
theorem readCode_hexDigits {c : Char} (hc : c.toNat < 65536) (rest : List Char) :
    readCode (hexDigits c.toNat ++ rest) = some (c, rest) := by
  have hlow : ¬ (0xD800 ≤ c.toNat ∧ c.toNat < 0xDC00) := by
    rintro ⟨h₁, h₂⟩
    rcases c.valid with h | h <;> simp only [Char.toNat] at h₁ h₂ <;> omega
  have hhigh : ¬ (0xDC00 ≤ c.toNat ∧ c.toNat < 0xE000) := by
    rintro ⟨h₁, h₂⟩
    rcases c.valid with h | h <;> simp only [Char.toNat] at h₁ h₂ <;> omega
  simp only [readCode, readHex_hexDigits hc, Option.bind_eq_bind, Option.bind_some, if_neg hlow,
    if_neg hhigh, Char.ofNat_toNat, Option.pure_def]

theorem toNat_of_escapedByNumber {c : Char} (h : escapedByNumber c = true) : c.toNat < 65536 := by
  simp only [escapedByNumber, Bool.or_eq_true, decide_eq_true_eq, List.contains_iff_mem] at h
  rcases h with h | h
  · omega
  · simp only [List.mem_cons, List.not_mem_nil, or_false] at h
    rcases h with rfl | rfl | rfl | rfl | rfl <;> decide

/-- A written piece is read as its character, and does not begin with a quotation mark. -/
theorem readChar_escape (p : Piece) (rest : List Char) :
    ∃ c cs, escape p = c :: cs ∧ c ≠ '"' ∧
      readChar (c :: (cs ++ rest)) = some (p.rune, rest) := by
  cases p with
  | stray b =>
    exact ⟨'\\', _, rfl, by decide, readCode_hexDigits (c := '\uFFFD') (by decide) rest⟩
  | char c =>
    by_cases hshort : (shortEscape c).isSome
    · obtain ⟨e, he⟩ := Option.isSome_iff_exists.1 hshort
      refine ⟨'\\', [e], by rw [escape, he], by decide, ?_⟩
      unfold shortEscape at he
      split_ifs at he with h₁ h₂ h₃ h₄ h₅ h₆ h₇ <;> cases he <;> subst c <;> rfl
    · have hnone : shortEscape c = none := by simpa using hshort
      by_cases hnumber : escapedByNumber c = true
      · refine ⟨'\\', 'u' :: hexDigits c.toNat, by simp only [escape, hnone, if_pos hnumber],
          by decide, ?_⟩
        exact readCode_hexDigits (toNat_of_escapedByNumber hnumber) rest
      · refine ⟨c, [], by simp only [escape, hnone, if_neg hnumber], ?_, ?_⟩
        · rintro rfl
          cases hnone
        · have hslash : c ≠ '\\' := by
            rintro rfl
            cases hnone
          have hcontrol : ¬ c.toNat < 0x20 := by
            intro hlt
            exact hnumber (by simp [escapedByNumber, hlt])
          simp only [readChar, if_neg hslash, if_neg hcontrol, List.nil_append]
          rfl

theorem length_le_flatMap_escape (t : ByteText) : t.length ≤ (t.flatMap escape).length := by
  induction t with
  | nil => exact Nat.le_refl 0
  | cons p t ih =>
    obtain ⟨c, cs, hp, -, -⟩ := readChar_escape p []
    rw [List.flatMap_cons, List.length_append, hp, List.length_cons, List.length_cons]
    omega

theorem readString_escape {t : ByteText} {fuel : ℕ} (hfuel : t.length < fuel) (rest : List Char) :
    readString fuel (t.flatMap escape ++ '"' :: rest) = some (ByteText.runes t, rest) := by
  induction t generalizing fuel with
  | nil =>
    cases fuel with
    | zero => cases hfuel
    | succ fuel => rfl
  | cons p t ih =>
    cases fuel with
    | zero => cases hfuel
    | succ fuel =>
      obtain ⟨c, cs, hp, hquote, hread⟩ := readChar_escape p (t.flatMap escape ++ '"' :: rest)
      have hrest := ih (by simpa using hfuel)
      rw [List.flatMap_cons, hp, List.append_assoc, List.cons_append, readString]
      · simp only [hread, hrest, Option.bind_eq_bind, Option.bind_some, Option.pure_def]
        cases p <;> rfl
      · rintro more heq
        exact hquote (List.cons.inj heq).1

theorem readQuoted_renderString (t : ByteText) (rest : List Char) :
    readQuoted (renderString t ++ rest) = some (ByteText.repair t, rest) := by
  have hlen := length_le_flatMap_escape t
  have hmap : (ByteText.runes t).map Piece.char = ByteText.repair t := by
    rw [ByteText.runes, ByteText.repair, List.map_map]
    exact List.map_congr_left fun p _ => by cases p <;> rfl
  rw [renderString, List.cons_append, List.append_assoc, List.singleton_append, readQuoted,
    readString_escape (by simp only [List.length_append]; omega), Option.map_some, hmap]

/-! ## Reading back a number -/

/-- `cs` is characters of a number, then `rest`. -/
def Drops (cs rest : List Char) : Prop :=
  ∃ front, cs = front ++ rest ∧ ∀ c ∈ front, isNumberChar c = true

theorem Drops.trans {cs ds es : List Char} (h₁ : Drops cs ds) (h₂ : Drops ds es) : Drops cs es := by
  obtain ⟨f, rfl, hf⟩ := h₁
  obtain ⟨g, rfl, hg⟩ := h₂
  refine ⟨f ++ g, (List.append_assoc _ _ _).symm, fun c hc => ?_⟩
  rcases List.mem_append.1 hc with hc | hc
  · exact hf c hc
  · exact hg c hc

theorem Drops.refl (cs : List Char) : Drops cs cs := ⟨[], rfl, fun _ hc => by cases hc⟩

theorem Drops.cons {c : Char} {cs rest : List Char} (hc : isNumberChar c = true)
    (h : Drops cs rest) : Drops (c :: cs) rest := by
  obtain ⟨f, rfl, hf⟩ := h
  refine ⟨c :: f, rfl, fun d hd => ?_⟩
  rcases List.mem_cons.1 hd with rfl | hd
  · exact hc
  · exact hf d hd

theorem drops_of_dropDigits {cs rest : List Char} (h : dropDigits cs = some rest) :
    Drops cs rest := by
  unfold dropDigits at h
  split at h
  · cases h
  · cases h
    refine ⟨cs.takeWhile Char.isDigit, List.takeWhile_append_dropWhile.symm, fun c hc => ?_⟩
    simp only [isNumberChar, Bool.or_eq_true]
    exact Or.inl (List.mem_takeWhile_imp hc)

theorem drops_of_dropInteger {cs rest : List Char} (h : dropInteger cs = some rest) :
    Drops cs rest := by
  unfold dropInteger at h
  split at h
  · cases h
    exact .cons (by decide) (.refl _)
  · exact drops_of_dropDigits h

theorem drops_of_dropFraction {cs rest : List Char} (h : dropFraction cs = some rest) :
    Drops cs rest := by
  unfold dropFraction at h
  split at h
  · exact .cons (by decide) (drops_of_dropDigits h)
  · cases h
    exact .refl _

theorem drops_of_dropExponent {cs rest : List Char} (h : dropExponent cs = some rest) :
    Drops cs rest := by
  cases cs with
  | nil =>
    cases h
    exact .refl _
  | cons e cs =>
    simp only [dropExponent] at h
    split at h
    · next he =>
      have hletter : isNumberChar e = true := by rcases he with rfl | rfl <;> decide
      cases cs with
      | nil => cases h
      | cons sign ds =>
        simp only at h
        split at h
        · next hsign =>
          have hchar : isNumberChar sign = true := by rcases hsign with rfl | rfl <;> decide
          exact .cons hletter (.cons hchar (drops_of_dropDigits h))
        · exact .cons hletter (drops_of_dropDigits h)
    · cases h
      exact .refl _

theorem drops_dropMinus (cs : List Char) : Drops cs (dropMinus cs) := by
  unfold dropMinus
  split
  · exact .cons (by decide) (.refl _)
  · exact .refl _

/-- An integer begins with a digit. -/
theorem head?_of_dropInteger {cs rest : List Char} (h : dropInteger cs = some rest) :
    ∃ c ds, cs = c :: ds ∧ c.isDigit = true := by
  unfold dropInteger at h
  split at h
  · exact ⟨_, _, rfl, by decide⟩
  · unfold dropDigits at h
    split at h
    · cases h
    · next hne =>
      cases cs with
      | nil => exact absurd rfl hne
      | cons c ds =>
        refine ⟨c, ds, rfl, ?_⟩
        by_contra hc
        exact hne (by rw [List.takeWhile_cons_of_neg hc])

/-- The literal of a number is characters of numbers, the first a digit or the minus sign. -/
theorem NumberLiteral.chars (l : NumberLiteral) : (∀ c ∈ l.val, isNumberChar c = true) ∧
    ∃ c cs, l.val = c :: cs ∧ (c.isDigit = true ∨ c = '-') := by
  obtain ⟨cs, h⟩ := l
  simp only [isNumber, beq_iff_eq, Option.bind_eq_some_iff] at h
  obtain ⟨afterFraction, ⟨afterInteger, hinteger, hfraction⟩, hexponent⟩ := h
  constructor
  · obtain ⟨front, hfront, hall⟩ := (drops_dropMinus cs).trans ((drops_of_dropInteger hinteger).trans
      ((drops_of_dropFraction hfraction).trans (drops_of_dropExponent hexponent)))
    rw [List.append_nil] at hfront
    exact hfront ▸ hall
  · obtain ⟨c, ds, hcs, hdigit⟩ := head?_of_dropInteger hinteger
    unfold dropMinus at hcs
    split at hcs
    · exact ⟨'-', _, rfl, Or.inr rfl⟩
    · exact ⟨c, ds, hcs, Or.inl hdigit⟩

/-- What follows a value does not continue a number. -/
def Ends (rest : List Char) : Prop := ∀ c, rest.head? = some c → isNumberChar c = false

theorem ends_nil : Ends [] := fun _ h => by cases h

theorem ends_cons {c : Char} (rest : List Char) (hc : isNumberChar c = false) : Ends (c :: rest) := by
  intro d hd
  rw [List.head?_cons, Option.some.injEq] at hd
  exact hd ▸ hc

theorem readNumber_literal (l : NumberLiteral) {rest : List Char} (hrest : Ends rest) :
    readNumber (l.val ++ rest) = some (.number l, rest) := by
  have hall := (NumberLiteral.chars l).1
  have htail : rest.takeWhile isNumberChar = [] ∧ rest.dropWhile isNumberChar = rest := by
    cases rest with
    | nil => exact ⟨rfl, rfl⟩
    | cons c more =>
      have hc : ¬ isNumberChar c = true := by rw [hrest c rfl]; decide
      exact ⟨List.takeWhile_cons_of_neg hc, List.dropWhile_cons_of_neg hc⟩
  have htake : (l.val ++ rest).takeWhile isNumberChar = l.val := by
    rw [List.takeWhile_append_of_pos hall, htail.1, List.append_nil]
  have hdrop : (l.val ++ rest).dropWhile isNumberChar = rest := by
    rw [List.dropWhile_append_of_pos hall, htail.2]
  have hnumber : isNumber ((l.val ++ rest).takeWhile isNumberChar) = true := by
    rw [htake]
    exact l.property
  rw [readNumber, dif_pos hnumber, hdrop]
  simp only [htake]

/-! ## Reading back a value -/

/-- A value begins with a character that is neither blank nor the end of an array or object. -/
theorem head?_render (v : Json) :
    ∃ c cs, render v = c :: cs ∧ isBlank c = false ∧ c ≠ ']' ∧ c ≠ '}' := by
  cases v with
  | null => exact ⟨'n', _, rfl, by decide, by decide, by decide⟩
  | bool b => cases b <;> exact ⟨_, _, rfl, by decide, by decide, by decide⟩
  | number l =>
    obtain ⟨-, c, cs, hc, hfirst⟩ := NumberLiteral.chars l
    refine ⟨c, cs, hc, ?_, ?_, ?_⟩
    · rcases hfirst with hdigit | rfl
      · cases hb : isBlank c with
        | false => rfl
        | true =>
          simp only [isBlank, Bool.or_eq_true, decide_eq_true_eq] at hb
          rcases hb with ((rfl | rfl) | rfl) | rfl <;> exact absurd hdigit (by decide)
      · rfl
    · rintro rfl
      exact absurd hfirst (by decide)
    · rintro rfl
      exact absurd hfirst (by decide)
  | string t => exact ⟨'"', _, rfl, by decide, by decide, by decide⟩
  | array vs => cases vs <;> exact ⟨'[', _, rfl, by decide, by decide, by decide⟩
  | object ms => cases ms <;> exact ⟨'{', _, rfl, by decide, by decide, by decide⟩

theorem skipSpace_cons {c : Char} (cs : List Char) (hc : isBlank c = false) :
    skipSpace (c :: cs) = c :: cs := by
  rw [skipSpace, List.dropWhile_cons_of_neg (by rw [hc]; decide)]

theorem skipSpace_render (v : Json) (rest : List Char) :
    skipSpace (render v ++ rest) = render v ++ rest := by
  obtain ⟨c, cs, hv, hblank, -, -⟩ := head?_render v
  rw [hv, List.cons_append, skipSpace_cons _ hblank]

/-- What begins with a digit or the minus sign is read as a number. -/
theorem readValue_number {c : Char} {cs : List Char} (hc : c.isDigit = true ∨ c = '-') (fuel : ℕ) :
    readValue (fuel + 1) (c :: cs) = readNumber (c :: cs) := by
  have hne : ∀ d : Char, d.isDigit = false → d ≠ '-' → c ≠ d := by
    rintro d hd hminus rfl
    rcases hc with hc | rfl
    · rw [hd] at hc
      cases hc
    · exact hminus rfl
  have hblank : isBlank c = false := by
    simp only [isBlank, Bool.or_eq_false_iff, decide_eq_false_iff_not]
    exact ⟨⟨⟨hne _ (by decide) (by decide), hne _ (by decide) (by decide)⟩,
      hne _ (by decide) (by decide)⟩, hne _ (by decide) (by decide)⟩
  have hword : ∀ (w : String) (v : Json) (d : Char) (ds : List Char), w.toList = d :: ds →
      d.isDigit = false → d ≠ '-' → readWord w v (c :: cs) = none := by
    intro w v d ds hw hd hminus
    have hdc : (d == c) = false := by
      rw [beq_eq_false_iff_ne]
      exact (hne d hd hminus).symm
    simp [readWord, hw, List.isPrefixOf, hdc]
  rw [readValue, skipSpace_cons _ hblank]
  split
  · next heq => exact absurd (List.cons.inj heq).1 (hne _ (by decide) (by decide))
  · next heq => exact absurd (List.cons.inj heq).1 (hne _ (by decide) (by decide))
  · next heq => exact absurd (List.cons.inj heq).1 (hne _ (by decide) (by decide))
  · rw [hword "null" _ 'n' _ rfl (by decide) (by decide),
      hword "true" _ 't' _ rfl (by decide) (by decide),
      hword "false" _ 'f' _ rfl (by decide) (by decide)]
    rfl

mutual

/-- Reading what was written gives the value with its texts repaired. -/
theorem readValue_render : ∀ (v : Json) (fuel : ℕ) (rest : List Char), (render v).length ≤ fuel →
    Ends rest → readValue fuel (render v ++ rest) = some (repair v, rest)
  | v, 0, rest, hfuel, _ => by
    obtain ⟨c, cs, hv, -⟩ := head?_render v
    rw [hv, List.length_cons] at hfuel
    omega
  | .null, fuel + 1, rest, _, _ => rfl
  | .bool true, fuel + 1, rest, _, _ => rfl
  | .bool false, fuel + 1, rest, _, _ => rfl
  | .number l, fuel + 1, rest, _, hrest => by
    obtain ⟨-, c, cs, hc, hfirst⟩ := NumberLiteral.chars l
    have hread := readNumber_literal l hrest
    rw [render, hc, List.cons_append, readValue_number hfirst, ← List.cons_append, ← hc, hread,
      repair]
  | .string t, fuel + 1, rest, _, _ => by
    have hquoted := readQuoted_renderString t rest
    rw [render, readValue, renderString, List.cons_append, skipSpace_cons _ (by decide)]
    rw [renderString, List.cons_append] at hquoted
    simp only [hquoted, Option.map_some, repair]
  | .array [], fuel + 1, rest, _, _ => rfl
  | .array (v :: vs), fuel + 1, rest, hfuel, _ => by
    simp only [render, List.length_cons, List.length_append] at hfuel
    obtain ⟨c, cs, hv, hblank, hclose, -⟩ := head?_render v
    have helements := readElements_render v vs fuel rest (by
      simp only [List.length_append]
      omega)
    rw [hv, List.append_assoc, List.cons_append] at helements
    rw [render, hv, List.cons_append, List.append_assoc, List.cons_append, readValue,
      skipSpace_cons _ (by decide)]
    simp only [skipSpace_cons _ hblank]
    split
    · next heq => exact absurd (List.cons.inj heq).1 hclose
    · rw [helements, Option.map_some, repair, repairElements]
  | .object [], fuel + 1, rest, _, _ => rfl
  | .object ((k, v) :: ms), fuel + 1, rest, hfuel, _ => by
    simp only [render, List.length_cons, List.length_append] at hfuel
    have hmembers := readMembers_render k v ms fuel rest (by
      simp only [List.length_append, List.length_cons]
      omega)
    rw [renderString] at hmembers
    simp only [List.cons_append, List.append_assoc] at hmembers
    rw [render, renderString, readValue]
    simp only [List.cons_append, List.append_assoc]
    rw [skipSpace_cons _ (by decide)]
    simp only [skipSpace_cons _ (show isBlank '"' = false by decide)]
    split
    · next heq => exact absurd (List.cons.inj heq).1 (by decide)
    · rw [hmembers, Option.map_some, repair, repairMembers]

theorem readElements_render : ∀ (v : Json) (vs : List Json) (fuel : ℕ) (rest : List Char),
    (render v ++ renderElements vs).length ≤ fuel →
    readElements fuel (render v ++ renderElements vs ++ rest) =
      some (repair v :: repairElements vs, rest)
  | v, vs, 0, _, hfuel => by
    obtain ⟨c, cs, hv, -⟩ := head?_render v
    rw [hv, List.cons_append, List.length_cons] at hfuel
    omega
  | v, [], fuel + 1, rest, hfuel => by
    simp only [renderElements, List.length_append, List.length_cons, List.length_nil] at hfuel
    have hvalue := readValue_render v fuel (']' :: rest) (by omega)
      (ends_cons _ (by decide))
    rw [renderElements, List.append_assoc, List.singleton_append, readElements, hvalue]
    rfl
  | v, w :: vs, fuel + 1, rest, hfuel => by
    simp only [renderElements, List.length_append, List.length_cons] at hfuel
    have hvalue := readValue_render v fuel (',' :: (render w ++ renderElements vs ++ rest))
      (by omega) (ends_cons _ (by decide))
    have hmore := readElements_render w vs fuel rest (by
      simp only [List.length_append]
      omega)
    rw [renderElements, List.append_assoc, List.cons_append, readElements, hvalue]
    simp only [Option.bind_eq_bind, Option.bind_some, skipSpace_cons _ (show isBlank ',' = false by decide)]
    rw [hmore, Option.map_some, repairElements]

theorem readMembers_render : ∀ (k : ByteText) (v : Json) (ms : List (ByteText × Json)) (fuel : ℕ)
    (rest : List Char), (renderString k ++ ':' :: (render v ++ renderMembers ms)).length ≤ fuel →
    readMembers fuel (renderString k ++ ':' :: (render v ++ renderMembers ms) ++ rest) =
      some ((ByteText.repair k, repair v) :: repairMembers ms, rest)
  | k, v, ms, 0, _, hfuel => by
    rw [List.length_append, List.length_cons] at hfuel
    omega
  | k, v, [], fuel + 1, rest, hfuel => by
    simp only [renderMembers, List.length_append, List.length_cons, List.length_nil] at hfuel
    have hvalue := readValue_render v fuel ('}' :: rest) (by omega)
      (ends_cons _ (by decide))
    have hquoted := readQuoted_renderString k (':' :: (render v ++ '}' :: rest))
    rw [renderString, List.cons_append] at hquoted
    rw [renderMembers, List.append_assoc, List.cons_append, List.append_assoc,
      List.singleton_append, readMembers, renderString, List.cons_append,
      skipSpace_cons _ (by decide), hquoted]
    simp only [Option.bind_eq_bind, Option.bind_some, skipSpace_cons _ (show isBlank ':' = false by decide),
      hvalue, skipSpace_cons _ (show isBlank '}' = false by decide), Option.pure_def, repairMembers]
  | k, v, (k', w) :: ms, fuel + 1, rest, hfuel => by
    simp only [renderMembers, List.length_append, List.length_cons] at hfuel
    have hmore := readMembers_render k' w ms fuel rest (by
      simp only [List.length_append, List.length_cons]
      omega)
    have hvalue := readValue_render v fuel
      (',' :: (renderString k' ++ ':' :: (render w ++ renderMembers ms) ++ rest)) (by omega)
      (ends_cons _ (by decide))
    have hquoted := readQuoted_renderString k
      (':' :: (render v ++ ',' :: (renderString k' ++ ':' :: (render w ++ renderMembers ms) ++ rest)))
    rw [renderString, List.cons_append] at hquoted
    rw [renderMembers, List.append_assoc, List.cons_append, List.append_assoc, List.cons_append,
      readMembers, renderString, List.cons_append, skipSpace_cons _ (by decide), hquoted]
    simp only [Option.bind_eq_bind, Option.bind_some, skipSpace_cons _ (show isBlank ':' = false by decide),
      hvalue, skipSpace_cons _ (show isBlank ',' = false by decide)]
    rw [hmore, Option.map_some, repairMembers]

end

/-- A written value followed by blanks is read back, its texts repaired. -/
theorem parse_render (v : Json) {blanks : List Char} (hblanks : ∀ c ∈ blanks, isBlank c = true) :
    parse ((render v ++ blanks).map .char) = some (repair v) := by
  have hends : Ends blanks := by
    intro c hc
    have hblank := hblanks c (List.mem_of_head? hc)
    simp only [isBlank, Bool.or_eq_true, decide_eq_true_eq] at hblank
    rcases hblank with ((rfl | rfl) | rfl) | rfl <;> decide
  have hread := readValue_render v ((render v ++ blanks).length + 1) blanks (by
    rw [List.length_append]
    omega) hends
  have hskip : skipSpace blanks = [] := List.dropWhile_eq_nil_iff.2 hblanks
  rw [parse, List.length_map, ByteText.runes_map, hread]
  simp only [Option.bind_eq_bind, Option.bind_some, hskip, if_true, Option.pure_def]

end Json

end BlackPearl.Library
