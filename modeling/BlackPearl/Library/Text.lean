import Mathlib.Data.List.DropRight
import Mathlib.Data.List.Basic
import Mathlib.Algebra.GroupWithZero.Nat

/-!
# Text and checks

Checks that return a value or the text of an error; trimming, control characters, letter case, and
the hexadecimal and base32 encodings of bytes, on strings of Unicode characters. Letter case and
quoting need tables that have no closed form; they are the fields of `TextTables`, with their values
on ASCII as laws.

What a validator needs of each operation is that it changes nothing the second time:
`trimSpace_trimSpace`, `toLowerString_of_decodeHex` and `toUpperString_of_decodeBase32`.
-/

set_option autoImplicit false

namespace BlackPearl.Library

universe u v

/-! ## Checks -/

/-- A checked value, or the text of the error that refuses it. -/
abbrev Checked (α : Type u) := Except String α

/-- Go on if `p` holds. -/
def require (p : Prop) [Decidable p] (message : String) : Checked Unit :=
  if p then .ok () else .error message

/-- Say in which context an error arose. -/
def within {α : Type u} (context : String) : Checked α → Checked α
  | .ok a => .ok a
  | .error message => .error (context ++ ": " ++ message)

@[simp] theorem require_eq_ok {p : Prop} [Decidable p] {message : String} {x : Unit} :
    require p message = .ok x ↔ p := by
  unfold require
  split <;> simp [*]

/-- A condition under which a check refuses. -/
theorem refuse_eq_ok {α : Type u} {p : Prop} [Decidable p] {message : String} {r : Checked α} {a : α} :
    (if p then .error message else r) = .ok a ↔ ¬ p ∧ r = .ok a := by
  split <;> simp [*]

@[simp] theorem within_eq_ok {α : Type u} {context : String} {r : Checked α} {a : α} :
    within context r = .ok a ↔ r = .ok a := by
  cases r <;> simp [within]

@[simp] theorem bind_eq_ok {ε : Type v} {α β : Type u} {r : Except ε α} {f : α → Except ε β} {b : β} :
    r >>= f = .ok b ↔ ∃ a, r = .ok a ∧ f a = .ok b := by
  cases r with
  | ok a =>
    constructor
    · exact fun h => ⟨a, rfl, h⟩
    · rintro ⟨a', ha, h⟩
      cases ha
      exact h
  | error e =>
    constructor
    · exact fun h => by cases h
    · rintro ⟨a, ha, _⟩
      cases ha

@[simp] theorem pure_eq_ok {α : Type u} {a b : α} : (pure a : Checked α) = .ok b ↔ a = b := by
  constructor
  · exact fun h => Except.ok.inj h
  · exact fun h => congrArg Except.ok h

/-- A list is checked when each of its elements is. -/
theorem mapM_eq_ok {α β : Type u} (f : α → Checked β) (P : α → β → Prop) {l : List α}
    (h : ∀ a ∈ l, ∃ b, f a = .ok b ∧ P a b) : ∃ bs, l.mapM f = .ok bs ∧ List.Forall₂ P l bs := by
  induction l with
  | nil => exact ⟨[], rfl, .nil⟩
  | cons a l ih =>
    obtain ⟨b, hb, hab⟩ := h a List.mem_cons_self
    obtain ⟨bs, hbs, hall⟩ := ih fun a' ha' => h a' (List.mem_cons_of_mem _ ha')
    refine ⟨b :: bs, ?_, .cons hab hall⟩
    simp only [List.mapM_cons, bind_eq_ok, pure_eq_ok]
    exact ⟨b, hb, bs, hbs, rfl⟩

/-- The same where failures say nothing. -/
theorem mapM_eq_some {α β : Type u} (f : α → Option β) (P : α → β → Prop) {l : List α}
    (h : ∀ a ∈ l, ∃ b, f a = some b ∧ P a b) : ∃ bs, l.mapM f = some bs ∧ List.Forall₂ P l bs := by
  induction l with
  | nil => exact ⟨[], rfl, .nil⟩
  | cons a l ih =>
    obtain ⟨b, hb, hP⟩ := h a List.mem_cons_self
    obtain ⟨bs, hbs, hall⟩ := ih fun a' ha' => h a' (List.mem_cons_of_mem a ha')
    refine ⟨b :: bs, ?_, .cons hP hall⟩
    rw [List.mapM_cons, hb, hbs]
    rfl

/-- A list of elements that pass their check unchanged passes it unchanged. -/
theorem mapM_self {α : Type u} {f : α → Checked α} {l : List α} (h : ∀ a ∈ l, f a = .ok a) :
    l.mapM f = .ok l := by
  induction l with
  | nil => rfl
  | cons a l ih =>
    simp only [List.mapM_cons, bind_eq_ok, pure_eq_ok]
    exact ⟨a, h a List.mem_cons_self, l, ih fun b hb => h b (List.mem_cons_of_mem _ hb), rfl⟩

/-- Lists whose elements agree in turn have the same image. -/
theorem map_eq_of_forall₂ {α β γ : Type u} {g : α → γ} {k : β → γ} {l : List α} {l' : List β}
    (h : List.Forall₂ (fun a b => g a = k b) l l') : l.map g = l'.map k := by
  induction h with
  | nil => rfl
  | cons hab _ ih => rw [List.map_cons, List.map_cons, hab, ih]

/-- A checked list has the checked elements in their order. -/
theorem forall₂_of_mapM {α β : Type u} {f : α → Checked β} :
    ∀ {l : List α} {bs : List β}, l.mapM f = .ok bs → List.Forall₂ (fun a b => f a = .ok b) l bs
  | [], bs, h => by
    rw [List.mapM_nil, pure_eq_ok] at h
    exact h ▸ .nil
  | a :: l, bs, h => by
    simp only [List.mapM_cons, bind_eq_ok, pure_eq_ok] at h
    obtain ⟨b, hb, rest, hrest, rfl⟩ := h
    exact .cons hb (forall₂_of_mapM hrest)

/-- Each element on the right of a pointwise relation has a partner on the left. -/
theorem exists_of_mem_forall₂ {α β : Type u} {R : α → β → Prop} {l : List α} {bs : List β} {b : β}
    (h : List.Forall₂ R l bs) (hb : b ∈ bs) : ∃ a ∈ l, R a b := by
  induction h with
  | nil => cases hb
  | cons hab _ ih =>
    rcases List.mem_cons.1 hb with rfl | hb
    · exact ⟨_, List.mem_cons_self, hab⟩
    · obtain ⟨a, ha, hab'⟩ := ih hb
      exact ⟨a, List.mem_cons_of_mem _ ha, hab'⟩

/-- Elements that all have partners make a list of partners. -/
theorem exists_forall₂ {α β : Type u} {P : α → β → Prop} :
    ∀ {l : List α}, (∀ a ∈ l, ∃ b, P a b) → ∃ m, List.Forall₂ P l m
  | [], _ => ⟨[], .nil⟩
  | a :: l, h => by
    obtain ⟨b, hb⟩ := h a List.mem_cons_self
    obtain ⟨m, hm⟩ := exists_forall₂ fun a' ha' => h a' (List.mem_cons_of_mem a ha')
    exact ⟨b :: m, .cons hb hm⟩

/-- Lists that correspond have elements of which the same is true in pairs. -/
theorem pairwise_of_forall₂ {α β : Type u} {P : α → β → Prop} {R : α → α → Prop} {Q : β → β → Prop}
    (h : ∀ a a' b b', R a a' → P a b → P a' b' → Q b b') :
    ∀ {l : List α} {m : List β}, List.Forall₂ P l m → l.Pairwise R → m.Pairwise Q
  | [], [], _, _ => List.Pairwise.nil
  | a :: l, b :: m, .cons hab hrest, hpairs => by
    rw [List.pairwise_cons] at hpairs ⊢
    refine ⟨fun b' hb' => ?_, pairwise_of_forall₂ h hrest hpairs.2⟩
    obtain ⟨a', ha', hab'⟩ := exists_of_mem_forall₂ hrest hb'
    exact h a a' b b' (hpairs.1 a' ha') hab hab'

/-- Each element of a checked list is a checked element. -/
theorem exists_of_mem_mapM {α β : Type u} {f : α → Checked β} {l : List α} {bs : List β} {b : β}
    (h : l.mapM f = .ok bs) (hb : b ∈ bs) : ∃ a ∈ l, f a = .ok b :=
  exists_of_mem_forall₂ (R := fun a b => f a = .ok b) (forall₂_of_mapM h) hb

/-! ## Tables -/

/-- Simple letter case mappings, and the quoting of strings and characters in messages. -/
class TextTables where
  toLower : Char → Char
  toUpper : Char → Char
  quote : String → String
  quoteRune : Char → String
  toLower_ascii : ∀ c : Char, c.toNat < 128 → toLower c = c.toLower
  toUpper_ascii : ∀ c : Char, c.toNat < 128 → toUpper c = c.toUpper

/-- Tables that are right for ASCII alone. -/
@[reducible] def TextTables.ascii : TextTables where
  toLower := Char.toLower
  toUpper := Char.toUpper
  quote s := "\"" ++ s ++ "\""
  quoteRune c := "'" ++ String.singleton c ++ "'"
  toLower_ascii _ _ := rfl
  toUpper_ascii _ _ := rfl

/-! ## Spaces and control characters -/

/-- White space in the sense of Unicode. -/
def isSpace (c : Char) : Bool :=
  [0x09, 0x0a, 0x0b, 0x0c, 0x0d, 0x20, 0x85, 0xa0, 0x1680, 0x2028, 0x2029, 0x202f, 0x205f,
    0x3000].contains c.toNat || (0x2000 ≤ c.toNat && c.toNat ≤ 0x200a)

theorem not_isSpace_of_isDigit {c : Char} (h : c.isDigit = true) : isSpace c = false := by
  simp only [Char.isDigit, Bool.and_eq_true, decide_eq_true_eq, ge_iff_le] at h
  have hlow : 48 ≤ c.toNat := h.1
  have hhigh : c.toNat ≤ 57 := h.2
  simp only [isSpace, List.contains_eq_mem, List.mem_cons, List.not_mem_nil, or_false,
    Bool.or_eq_false_iff, decide_eq_false_iff_not, Bool.and_eq_false_iff]
  omega

/-- Control characters in the sense of Unicode (category Cc). -/
def isControl (c : Char) : Bool := c.toNat < 0x20 || (0x7f ≤ c.toNat && c.toNat < 0xa0)

def hasControl (s : String) : Bool := s.toList.any isControl

/-- The length of a text in UTF-8. -/
def byteLength (s : String) : ℕ := (s.toList.map Char.utf8Size).sum

/-- Without the longest prefix and suffix of characters that satisfy `p`. -/
def trimBy (p : Char → Bool) (cs : List Char) : List Char := (cs.dropWhile p).rdropWhile p

def trimSpace (s : String) : String := String.ofList (trimBy isSpace s.toList)

/-- Trimming at the end uncovers nothing to trim at the front. -/
theorem dropWhile_rdropWhile {α : Type u} (p : α → Bool) (l : List α) :
    ((l.dropWhile p).rdropWhile p).dropWhile p = (l.dropWhile p).rdropWhile p := by
  rw [List.dropWhile_eq_self_iff]
  intro hlen
  have hpre : (l.dropWhile p).rdropWhile p <+: l.dropWhile p := List.rdropWhile_prefix p _
  have hlen' : 0 < (l.dropWhile p).length := hlen.trans_le hpre.length_le
  have hhead := List.dropWhile_get_zero_not p l hlen'
  rw [List.get_eq_getElem] at hhead
  rw [hpre.getElem hlen]
  exact hhead

theorem trimBy_trimBy (p : Char → Bool) (cs : List Char) : trimBy p (trimBy p cs) = trimBy p cs := by
  have hleft : (trimBy p cs).dropWhile p = trimBy p cs := dropWhile_rdropWhile p cs
  rw [trimBy, hleft]
  exact List.rdropWhile_idempotent p _

@[simp] theorem trimSpace_trimSpace (s : String) : trimSpace (trimSpace s) = trimSpace s := by
  unfold trimSpace
  rw [String.toList_ofList, trimBy_trimBy]

/-- Trimming leaves a text without white space alone. -/
theorem trimSpace_eq_self {s : String} (h : ∀ c ∈ s.toList, isSpace c = false) : trimSpace s = s := by
  have hfront : s.toList.dropWhile isSpace = s.toList := by
    rw [List.dropWhile_eq_self_iff]
    intro hpos
    rw [h _ (List.getElem_mem hpos)]
    decide
  have hback : s.toList.rdropWhile isSpace = s.toList := by
    rw [List.rdropWhile_eq_self_iff]
    intro hne
    rw [h _ (List.getLast_mem hne)]
    decide
  rw [trimSpace, trimBy, hfront, hback, String.ofList_toList]

/-- Trimming brings in no control character. -/
theorem hasControl_trimSpace {s : String} (h : hasControl s = false) :
    hasControl (trimSpace s) = false := by
  simp only [hasControl, List.any_eq_false] at h ⊢
  intro c hc
  rw [trimSpace, String.toList_ofList] at hc
  apply h c
  exact (List.dropWhile_sublist _).subset ((List.rdropWhile_prefix _ _).subset hc)

/-! ## Letter case -/

def mapCase (f : Char → Char) (s : String) : String := String.ofList (s.toList.map f)

def toLowerString [TextTables] (s : String) : String := mapCase TextTables.toLower s

def toUpperString [TextTables] (s : String) : String := mapCase TextTables.toUpper s

/-- A mapping that fixes every character fixes the string. -/
theorem mapCase_eq_self {f : Char → Char} {s : String} (h : ∀ c ∈ s.toList, f c = c) :
    mapCase f s = s := by
  unfold mapCase
  rw [List.map_congr_left h, List.map_id', String.ofList_toList]

/-- A property of ASCII characters holds if it does for each code below 128. -/
theorem ascii_cases {P : Char → Prop} (h : ∀ n < 128, P (Char.ofNat n)) (c : Char)
    (hc : c.toNat < 128) : P c := by
  have hn := h c.toNat hc
  rwa [Char.ofNat_toNat] at hn

theorem length_le_byteLength (s : String) : s.toList.length ≤ byteLength s := by
  unfold byteLength
  induction s.toList with
  | nil => exact Nat.le_refl 0
  | cons c cs ih =>
    have hpos := Char.utf8Size_pos c
    simp only [List.length_cons, List.map_cons, List.sum_cons]
    omega

theorem byteLength_of_ascii {s : String} (h : ∀ c ∈ s.toList, c.toNat < 128) :
    byteLength s = s.toList.length := by
  have hone : ∀ c ∈ s.toList, Char.utf8Size c = 1 := by
    intro c hc
    -- the order on characters is that of their codes
    have hle : c.val ≤ 127 := UInt32.le_iff_toNat_le.2 (Nat.le_of_lt_succ (h c hc))
    exact Char.utf8Size_eq_one_iff.2 hle
  unfold byteLength
  rw [List.map_congr_left hone, List.map_const', List.sum_replicate_nat, Nat.mul_one]

/-! ## Encodings of bytes -/

/-- The value of a hexadecimal digit. -/
def hexValue (c : Char) : Option ℕ :=
  if '0' ≤ c ∧ c ≤ '9' then some (c.toNat - 48)
  else if 'a' ≤ c ∧ c ≤ 'f' then some (c.toNat - 87)
  else if 'A' ≤ c ∧ c ≤ 'F' then some (c.toNat - 55)
  else none

/-- Two digits for each byte. -/
def decodeHex : List Char → Option (List ℕ)
  | [] => some []
  | [_] => none
  | hi :: lo :: rest => do
      let hi ← hexValue hi
      let lo ← hexValue lo
      let bytes ← decodeHex rest
      return (hi * 16 + lo) :: bytes

/-- Two digits for each byte. -/
def encodeHex : List ℕ → List Char
  | [] => []
  | b :: bytes => Nat.digitChar (b / 16 % 16) :: Nat.digitChar (b % 16) :: encodeHex bytes

theorem hexValue_digitChar : ∀ d < 16, hexValue (Nat.digitChar d) = some d := by
  decide

theorem decodeHex_encodeHex {bytes : List ℕ} (h : ∀ b ∈ bytes, b < 256) :
    decodeHex (encodeHex bytes) = some bytes := by
  induction bytes with
  | nil => rfl
  | cons b bytes ih =>
    have hb := h b List.mem_cons_self
    have hsplit : b / 16 % 16 * 16 + b % 16 = b := by omega
    have hdigit : ∀ n, hexValue (Nat.digitChar (n % 16)) = some (n % 16) :=
      fun n => hexValue_digitChar _ (Nat.mod_lt n (by decide))
    simp only [encodeHex, decodeHex, hdigit, ih fun c hc => h c (List.mem_cons_of_mem _ hc),
      Option.bind_eq_bind, Option.bind_some, Option.pure_def, hsplit]

@[simp] theorem length_encodeHex (bytes : List ℕ) : (encodeHex bytes).length = 2 * bytes.length := by
  induction bytes with
  | nil => rfl
  | cons b bytes ih =>
    simp only [encodeHex, List.length_cons, ih]
    omega

/-- The value of a character of the base32 alphabet. -/
def base32Value (c : Char) : Option ℕ :=
  if 'A' ≤ c ∧ c ≤ 'Z' then some (c.toNat - 65)
  else if '2' ≤ c ∧ c ≤ '7' then some (c.toNat - 24)
  else none

/-- Eight values of five bits for five bytes; an incomplete last group gives the bytes that it
completes if its length is one that an encoder produces, and none otherwise. -/
def packQuintets : List ℕ → List ℕ
  | a :: b :: c :: d :: e :: f :: g :: h :: rest =>
      [a * 8 + b / 4, b % 4 * 64 + c * 2 + d / 16, d % 16 * 16 + e / 2, e % 2 * 128 + f * 4 + g / 8,
        g % 8 * 32 + h] ++ packQuintets rest
  | [a, b, c, d, e, f, g] =>
      [a * 8 + b / 4, b % 4 * 64 + c * 2 + d / 16, d % 16 * 16 + e / 2, e % 2 * 128 + f * 4 + g / 8]
  | [a, b, c, d, e] => [a * 8 + b / 4, b % 4 * 64 + c * 2 + d / 16, d % 16 * 16 + e / 2]
  | [a, b, c, d] => [a * 8 + b / 4, b % 4 * 64 + c * 2 + d / 16]
  | [a, b] => [a * 8 + b / 4]
  | _ => []

def isNewline (c : Char) : Bool := c = '\n' || c = '\r'

/-- Base32 without padding; line breaks are skipped. -/
def decodeBase32 (cs : List Char) : Option (List ℕ) :=
  ((cs.filter fun c => !isNewline c).mapM base32Value).map packQuintets

/-- The digits of a hexadecimal text. -/
theorem hexValue_of_decodeHex : ∀ {cs : List Char}, (decodeHex cs).isSome →
    ∀ c ∈ cs, (hexValue c).isSome
  | [], _, c, hc => by cases hc
  | [_], h, _, _ => by simp [decodeHex] at h
  | hi :: lo :: rest, h, c, hc => by
      cases hhi : hexValue hi with
      | none => simp [decodeHex, hhi] at h
      | some x =>
        cases hlo : hexValue lo with
        | none => simp [decodeHex, hhi, hlo] at h
        | some y =>
          have hrest : (decodeHex rest).isSome := by
            cases hr : decodeHex rest with
            | none => simp [decodeHex, hhi, hlo, hr] at h
            | some bytes => rfl
          rcases List.mem_cons.1 hc with rfl | hc
          · simp [hhi]
          · rcases List.mem_cons.1 hc with rfl | hc
            · simp [hlo]
            · exact hexValue_of_decodeHex hrest c hc

theorem mapM_base32Value : ∀ {cs : List Char}, (cs.mapM base32Value).isSome →
    ∀ c ∈ cs, (base32Value c).isSome
  | [], _, c, hc => by cases hc
  | c :: cs, h, d, hd => by
      cases hc : base32Value c with
      | none => simp [hc] at h
      | some x =>
        have hrest : (cs.mapM base32Value).isSome := by
          cases hr : cs.mapM base32Value with
          | none => simp [hc, hr] at h
          | some values => rfl
        rcases List.mem_cons.1 hd with rfl | hd
        · simp [hc]
        · exact mapM_base32Value hrest d hd

/-- The characters of a base32 text are of the alphabet, or line breaks. -/
theorem base32Value_of_decodeBase32 {cs : List Char} (h : (decodeBase32 cs).isSome) {c : Char}
    (hc : c ∈ cs) : (base32Value c).isSome ∨ isNewline c = true := by
  by_cases hnew : isNewline c = true
  · exact Or.inr hnew
  · unfold decodeBase32 at h
    rw [Option.isSome_map] at h
    exact Or.inl (mapM_base32Value h c (List.mem_filter.2 ⟨hc, by simp [hnew]⟩))

theorem toNat_lt_of_hexValue {c : Char} (h : (hexValue c).isSome) : c.toNat < 128 := by
  unfold hexValue at h
  split_ifs at h with h₁ h₂ h₃
  · exact lt_of_le_of_lt (UInt32.le_iff_toNat_le.1 h₁.2) (by decide)
  · exact lt_of_le_of_lt (UInt32.le_iff_toNat_le.1 h₂.2) (by decide)
  · exact lt_of_le_of_lt (UInt32.le_iff_toNat_le.1 h₃.2) (by decide)
  · cases h

theorem toNat_lt_of_base32Value {c : Char} (h : (base32Value c).isSome ∨ isNewline c = true) :
    c.toNat < 128 := by
  rcases h with h | h
  · unfold base32Value at h
    split_ifs at h with h₁ h₂
    · exact lt_of_le_of_lt (UInt32.le_iff_toNat_le.1 h₁.2) (by decide)
    · exact lt_of_le_of_lt (UInt32.le_iff_toNat_le.1 h₂.2) (by decide)
    · cases h
  · simp only [isNewline, Bool.or_eq_true, decide_eq_true_eq] at h
    rcases h with rfl | rfl <;> decide

section Case

variable [TextTables]

/-- Lowering a hexadecimal digit gives a digit that lowering leaves alone. -/
theorem toLower_hexValue {c : Char} (h : (hexValue c).isSome) :
    TextTables.toLower (TextTables.toLower c) = TextTables.toLower c ∧
      (TextTables.toLower c).toNat < 128 := by
  have hc := toNat_lt_of_hexValue h
  have hascii : c.toLower.toNat < 128 ∧ c.toLower.toLower = c.toLower :=
    ascii_cases (P := fun c => c.toLower.toNat < 128 ∧ c.toLower.toLower = c.toLower)
      (by decide) c hc
  rw [TextTables.toLower_ascii c hc, TextTables.toLower_ascii _ hascii.1]
  exact ⟨hascii.2, hascii.1⟩

/-- Raising changes no character of a base32 text. -/
theorem toUpper_base32Value {c : Char} (h : (base32Value c).isSome ∨ isNewline c = true) :
    TextTables.toUpper c = c := by
  have hc := toNat_lt_of_base32Value h
  rw [TextTables.toUpper_ascii c hc]
  exact ascii_cases (P := fun c => (base32Value c).isSome ∨ isNewline c = true → c.toUpper = c)
    (by decide) c hc h

/-- A lowered hexadecimal text is ASCII, as long as it was, and lowering leaves it alone. -/
theorem toLowerString_of_decodeHex {s : String} (h : (decodeHex s.toList).isSome) :
    toLowerString (toLowerString s) = toLowerString s ∧
      byteLength (toLowerString s) = byteLength s := by
  have hdigits := hexValue_of_decodeHex h
  have hlist : (toLowerString s).toList = s.toList.map TextTables.toLower := by
    rw [toLowerString, mapCase, String.toList_ofList]
  constructor
  · apply mapCase_eq_self
    intro c hc
    rw [hlist] at hc
    obtain ⟨d, hd, rfl⟩ := List.mem_map.1 hc
    exact (toLower_hexValue (hdigits d hd)).1
  · rw [byteLength_of_ascii, byteLength_of_ascii, hlist, List.length_map]
    · exact fun c hc => toNat_lt_of_hexValue (hdigits c hc)
    · intro c hc
      rw [hlist] at hc
      obtain ⟨d, hd, rfl⟩ := List.mem_map.1 hc
      exact (toLower_hexValue (hdigits d hd)).2

@[simp] theorem length_toUpperString (s : String) :
    (toUpperString s).toList.length = s.toList.length := by
  rw [toUpperString, mapCase, String.toList_ofList, List.length_map]

theorem toUpperString_of_decodeBase32 {s : String} (h : (decodeBase32 s.toList).isSome) :
    toUpperString s = s :=
  mapCase_eq_self fun _ hc => toUpper_base32Value (base32Value_of_decodeBase32 h hc)

end Case

end BlackPearl.Library
