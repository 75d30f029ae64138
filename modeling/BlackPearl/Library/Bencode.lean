import BlackPearl.Library.Decimal
import BlackPearl.Library.Slice
import BlackPearl.Library.Text

/-!
# Bencode

Values as trees, and their notation. An integer keeps its numeral, so a tree says how each of its
integers is written. The notation is prefix free (`render_append_inj`): a sequence of bytes starts with
the notation of at most one value whose numerals end where their digits end.
-/

set_option autoImplicit false

namespace BlackPearl.Library

/-- A string of bytes. -/
abbrev Bytes : Type := List UInt8

/-- The byte of an ASCII character. -/
def ascii (c : Char) : UInt8 := c.toNat.toUInt8

/-- The character of a byte. -/
def latin (b : UInt8) : Char := Char.ofNat b.toNat

/-- Whether a byte is a decimal digit. -/
def isDigitByte (b : UInt8) : Bool := ascii '0' ≤ b && b ≤ ascii '9'

/-- The bytes of an ASCII text. -/
def asciiBytes (cs : List Char) : Bytes := cs.map ascii

/-- A value; strings and keys are bytes, an integer is given by its numeral. -/
inductive Bencode
  | integer (numeral : Bytes)
  | string (content : Bytes)
  | list (items : List Bencode)
  | dictionary (members : List (Bytes × Bencode))

namespace Bencode

/-- The digits of a length. -/
def lengthDigits (n : ℕ) : Bytes := asciiBytes (Nat.toDigits 10 n)

/-- The notation of a string: its length and its bytes. -/
def renderString (content : Bytes) : Bytes :=
  lengthDigits content.length ++ ascii ':' :: content

mutual

/-- The notation of a value. -/
def render : Bencode → Bytes
  | .integer numeral => ascii 'i' :: (numeral ++ [ascii 'e'])
  | .string content => renderString content
  | .list items => ascii 'l' :: (renderItems items ++ [ascii 'e'])
  | .dictionary members => ascii 'd' :: (renderMembers members ++ [ascii 'e'])

/-- The notations of the items of a list. -/
def renderItems : List Bencode → Bytes
  | [] => []
  | item :: items => render item ++ renderItems items

/-- The notations of the members of a dictionary. -/
def renderMembers : List (Bytes × Bencode) → Bytes
  | [] => []
  | (key, value) :: members => renderString key ++ (render value ++ renderMembers members)

end

mutual

/-- Whether a value nests at most `n` deep, and its numerals and lengths of strings are admitted. -/
def Admitted (numeral : Bytes → Prop) (length : ℕ → Prop) : ℕ → Bencode → Prop
  | 0, _ => False
  | _ + 1, .integer written => numeral written
  | _ + 1, .string content => length content.length
  | n + 1, .list items => AdmittedItems numeral length n items
  | n + 1, .dictionary members => AdmittedMembers numeral length n members

def AdmittedItems (numeral : Bytes → Prop) (length : ℕ → Prop) : ℕ → List Bencode → Prop
  | _, [] => True
  | n, item :: items => Admitted numeral length n item ∧ AdmittedItems numeral length n items

def AdmittedMembers (numeral : Bytes → Prop) (length : ℕ → Prop) :
    ℕ → List (Bytes × Bencode) → Prop
  | _, [] => True
  | n, (key, value) :: members =>
      length key.length ∧ Admitted numeral length n value ∧ AdmittedMembers numeral length n members

end

section Monotone

variable {numeral numeral' : Bytes → Prop} {length length' : ℕ → Prop}

mutual

theorem Admitted.mono (hn : ∀ w, numeral w → numeral' w) (hl : ∀ n, length n → length' n) :
    ∀ {n : ℕ} {t : Bencode}, Admitted numeral length n t → Admitted numeral' length' n t
  | _ + 1, .integer _, h => hn _ h
  | _ + 1, .string _, h => hl _ h
  | _ + 1, .list _, h => AdmittedItems.mono hn hl h
  | _ + 1, .dictionary _, h => AdmittedMembers.mono hn hl h
  | 0, t, h => by cases t <;> exact h

theorem AdmittedItems.mono (hn : ∀ w, numeral w → numeral' w) (hl : ∀ n, length n → length' n) :
    ∀ {n : ℕ} {l : List Bencode}, AdmittedItems numeral length n l →
      AdmittedItems numeral' length' n l
  | _, [], _ => trivial
  | _, _ :: _, h => ⟨Admitted.mono hn hl h.1, AdmittedItems.mono hn hl h.2⟩

theorem AdmittedMembers.mono (hn : ∀ w, numeral w → numeral' w) (hl : ∀ n, length n → length' n) :
    ∀ {n : ℕ} {l : List (Bytes × Bencode)}, AdmittedMembers numeral length n l →
      AdmittedMembers numeral' length' n l
  | _, [], _ => trivial
  | _, (_, _) :: _, h => ⟨hl _ h.1, Admitted.mono hn hl h.2.1, AdmittedMembers.mono hn hl h.2.2⟩

end

mutual

theorem Admitted.and : ∀ {n : ℕ} {t : Bencode}, Admitted numeral length n t →
    Admitted numeral' length' n t →
      Admitted (fun w => numeral w ∧ numeral' w) (fun k => length k ∧ length' k) n t
  | _ + 1, .integer _, h, h' => ⟨h, h'⟩
  | _ + 1, .string _, h, h' => ⟨h, h'⟩
  | _ + 1, .list _, h, h' => AdmittedItems.and h h'
  | _ + 1, .dictionary _, h, h' => AdmittedMembers.and h h'
  | 0, t, h, _ => by cases t <;> exact h

theorem AdmittedItems.and : ∀ {n : ℕ} {l : List Bencode}, AdmittedItems numeral length n l →
    AdmittedItems numeral' length' n l →
      AdmittedItems (fun w => numeral w ∧ numeral' w) (fun k => length k ∧ length' k) n l
  | _, [], _, _ => trivial
  | _, _ :: _, h, h' => ⟨Admitted.and h.1 h'.1, AdmittedItems.and h.2 h'.2⟩

theorem AdmittedMembers.and : ∀ {n : ℕ} {l : List (Bytes × Bencode)},
    AdmittedMembers numeral length n l → AdmittedMembers numeral' length' n l →
      AdmittedMembers (fun w => numeral w ∧ numeral' w) (fun k => length k ∧ length' k) n l
  | _, [], _, _ => trivial
  | _, (_, _) :: _, h, h' =>
    ⟨⟨h.1, h'.1⟩, Admitted.and h.2.1 h'.2.1, AdmittedMembers.and h.2.2 h'.2.2⟩

end

end Monotone

/-! ## Digits -/

theorem latin_ascii {c : Char} (h : c.isDigit = true) : latin (ascii c) = c := by
  have hcode : c.toNat < 128 := by
    simp only [Char.isDigit, Bool.and_eq_true, decide_eq_true_eq, ge_iff_le] at h
    exact lt_of_le_of_lt (UInt32.le_iff_toNat_le.1 h.2) (by decide)
  exact ascii_cases (P := fun c => latin (ascii c) = c) (by decide) c hcode

theorem isDigitByte_ascii {c : Char} (h : c.isDigit = true) : isDigitByte (ascii c) = true := by
  have hcode : c.toNat < 128 := by
    simp only [Char.isDigit, Bool.and_eq_true, decide_eq_true_eq, ge_iff_le] at h
    exact lt_of_le_of_lt (UInt32.le_iff_toNat_le.1 h.2) (by decide)
  exact ascii_cases (P := fun c => c.isDigit = true → isDigitByte (ascii c) = true) (by decide) c
    hcode h

theorem isDigitByte_of_mem_lengthDigits {n : ℕ} {b : UInt8} (h : b ∈ lengthDigits n) :
    isDigitByte b = true := by
  obtain ⟨c, hc, rfl⟩ := List.mem_map.1 h
  exact isDigitByte_ascii (isDigit_of_mem_toDigits hc)

theorem lengthDigits_ne_nil (n : ℕ) : lengthDigits n ≠ [] := by
  intro h
  exact Nat.toDigits_ne_nil (List.map_eq_nil_iff.1 h)

/-- The number that digits denote. -/
def digitsValue (digits : Bytes) : ℕ := decimalValue (digits.map latin)

@[simp] theorem digitsValue_lengthDigits (n : ℕ) : digitsValue (lengthDigits n) = n := by
  have hself : (asciiBytes (Nat.toDigits 10 n)).map latin = Nat.toDigits 10 n := by
    rw [asciiBytes, List.map_map]
    exact (List.map_congr_left fun c hc => latin_ascii (isDigit_of_mem_toDigits hc)).trans
      (List.map_id' _)
  rw [digitsValue, lengthDigits, hself, decimalValue_toDigits]

/-- A property of bytes holds if it does for each number below 256. -/
theorem byte_cases {P : UInt8 → Prop} (h : ∀ n < 256, P n.toUInt8) (b : UInt8) : P b := by
  have hb := h b.toNat b.toNat_lt
  rwa [Nat.toUInt8_eq, UInt8.ofNat_toNat] at hb

theorem isDigit_latin {b : UInt8} (h : isDigitByte b = true) :
    (latin b).isDigit = true ∧ ascii (latin b) = b :=
  byte_cases (P := fun b => isDigitByte b = true → (latin b).isDigit = true ∧ ascii (latin b) = b)
    (by decide +kernel) b h

/-- Digits without a leading zero are the notation of the number that they denote. -/
theorem lengthDigits_digitsValue {digits : Bytes} (hne : digits ≠ [])
    (hdigits : ∀ b ∈ digits, isDigitByte b = true)
    (hlead : ¬ (1 < digits.length ∧ digits.head? = some (ascii '0'))) :
    lengthDigits (digitsValue digits) = digits := by
  have hcs : ∀ c ∈ digits.map latin, c.isDigit = true := by
    intro c hc
    obtain ⟨b, hb, rfl⟩ := List.mem_map.1 hc
    exact (isDigit_latin (hdigits b hb)).1
  have hpos : 0 < digits.length := List.length_pos_iff.2 hne
  have hpadded : padded digits.length (digitsValue digits) = digits.map latin :=
    padded_decimalValue hpos hcs (List.length_map _)
  have hback : (digits.map latin).map ascii = digits := by
    rw [List.map_map]
    exact (List.map_congr_left fun b hb => (isDigit_latin (hdigits b hb)).2).trans (List.map_id' _)
  by_cases hfill : digits.length - (Nat.toDigits 10 (digitsValue digits)).length = 0
  · rw [padded, hfill, List.replicate_zero, List.nil_append] at hpadded
    rw [lengthDigits, hpadded, asciiBytes, hback]
  · -- zeros that fill up stand in front of at least one digit
    obtain ⟨k, hk⟩ := Nat.exists_eq_succ_of_ne_zero hfill
    have hlen := List.length_pos_iff.2 (Nat.toDigits_ne_nil (b := 10) (n := digitsValue digits))
    refine absurd ⟨by omega, ?_⟩ hlead
    rw [padded, hk, List.replicate_succ, List.cons_append] at hpadded
    rw [← hback, ← hpadded]
    rfl

/-- A length is written without a leading zero. -/
theorem lengthDigits_lead (n : ℕ) :
    ¬ (1 < (lengthDigits n).length ∧ (lengthDigits n).head? = some (ascii '0')) := by
  rintro ⟨hlen, hhead⟩
  rw [lengthDigits, asciiBytes, List.head?_map] at hhead
  obtain ⟨c, hc, hascii⟩ := Option.map_eq_some_iff.1 hhead
  have hdigit : c.isDigit = true := isDigit_of_mem_toDigits (List.mem_of_head? hc)
  have hzero : c = '0' := by
    rw [← latin_ascii hdigit, hascii]
    rfl
  rcases Nat.eq_zero_or_pos n with rfl | hpos
  · exact absurd hlen (by decide)
  · exact head?_toDigits hpos (hzero ▸ hc)

theorem lengthDigits_injective : Function.Injective lengthDigits :=
  Function.LeftInverse.injective digitsValue_lengthDigits

/-! ## The notation is prefix free -/

theorem colon_notMem_lengthDigits (n : ℕ) : ascii ':' ∉ lengthDigits n := by
  intro h
  exact absurd (isDigitByte_of_mem_lengthDigits h) (by decide)

theorem renderString_append_inj {content content' r r' : Bytes}
    (h : renderString content ++ r = renderString content' ++ r') : content = content' ∧ r = r' := by
  rw [renderString, renderString, List.append_assoc, List.append_assoc, List.cons_append,
    List.cons_append] at h
  obtain ⟨hdigits, hrest⟩ := append_cons_cancel (colon_notMem_lengthDigits _)
    (colon_notMem_lengthDigits _) h
  exact List.append_inj hrest (lengthDigits_injective hdigits)

/-- A string starts with a digit. -/
theorem exists_renderString (content : Bytes) :
    ∃ b rest, renderString content = b :: rest ∧ isDigitByte b = true := by
  cases hdigits : lengthDigits content.length with
  | nil => exact absurd hdigits (lengthDigits_ne_nil _)
  | cons b rest =>
    refine ⟨b, rest ++ ascii ':' :: content, by rw [renderString, hdigits, List.cons_append], ?_⟩
    exact isDigitByte_of_mem_lengthDigits (hdigits ▸ List.mem_cons_self)

theorem renderString_append_ne {b : UInt8} {rest r : Bytes} (content : Bytes)
    (hb : isDigitByte b = false) : b :: rest ≠ renderString content ++ r := by
  obtain ⟨d, more, hd, hdigit⟩ := exists_renderString content
  rw [hd]
  intro h
  rw [(List.cons.inj h).1, hdigit] at hb
  cases hb

/-- The first byte of a value: a letter that says its kind, or a digit. -/
theorem exists_render (t : Bencode) : ∃ b rest, render t = b :: rest ∧ b ≠ ascii 'e' := by
  cases t with
  | integer written => exact ⟨_, _, rfl, by decide⟩
  | string content =>
    obtain ⟨b, rest, hb, hdigit⟩ := exists_renderString content
    refine ⟨b, rest, hb, ?_⟩
    rintro rfl
    exact absurd hdigit (by decide)
  | list items => exact ⟨_, _, rfl, by decide⟩
  | dictionary members => exact ⟨_, _, rfl, by decide⟩

section Unique

variable {numeral numeral' : Bytes → Prop} {length length' : ℕ → Prop}

/-- The numerals do not contain the byte that ends them. -/
def Terminated (numeral : Bytes → Prop) : Prop := ∀ w, numeral w → ascii 'e' ∉ w

theorem not_admitted_zero (t : Bencode) : ¬ Admitted numeral length 0 t := by
  intro h
  cases t <;> exact h

mutual

/-- Two values whose notations start the same bytes are equal. -/
theorem render_append_inj (hend : Terminated numeral) (hend' : Terminated numeral') :
    ∀ {n n' : ℕ} {t t' : Bencode} {r r' : Bytes},
    Admitted numeral length n t → Admitted numeral' length' n' t' →
      render t ++ r = render t' ++ r' → t = t' ∧ r = r'
  | n + 1, n' + 1, .integer w, .integer w', r, r', hw, hw', h => by
    simp only [render, List.cons_append, List.append_assoc, List.cons.injEq, true_and,
      List.nil_append] at h
    obtain ⟨rfl, hr⟩ := append_cons_cancel (hend w hw) (hend' w' hw') h
    exact ⟨rfl, hr⟩
  | n + 1, n' + 1, .string content, .string content', r, r', _, _, h => by
    obtain ⟨rfl, hr⟩ := renderString_append_inj h
    exact ⟨rfl, hr⟩
  | n + 1, n' + 1, .list items, .list items', r, r', hi, hi', h => by
    simp only [render, List.cons_append, List.append_assoc, List.cons.injEq, true_and,
      List.nil_append] at h
    obtain ⟨rfl, hr⟩ := renderItems_append_inj hend hend' hi hi' h
    exact ⟨rfl, hr⟩
  | n + 1, n' + 1, .dictionary members, .dictionary members', r, r', hm, hm', h => by
    simp only [render, List.cons_append, List.append_assoc, List.cons.injEq, true_and,
      List.nil_append] at h
    obtain ⟨rfl, hr⟩ := renderMembers_append_inj hend hend' hm hm' h
    exact ⟨rfl, hr⟩
  | 0, _, _, _, _, _, h, _, _ => absurd h (not_admitted_zero _)
  | _, 0, _, _, _, _, _, h, _ => absurd h (not_admitted_zero _)
  -- the first bytes of values of different kinds differ
  | _ + 1, _ + 1, .integer _, .list _, _, _, _, _, h => absurd (List.cons.inj h).1 (by decide)
  | _ + 1, _ + 1, .integer _, .dictionary _, _, _, _, _, h => absurd (List.cons.inj h).1 (by decide)
  | _ + 1, _ + 1, .list _, .integer _, _, _, _, _, h => absurd (List.cons.inj h).1 (by decide)
  | _ + 1, _ + 1, .list _, .dictionary _, _, _, _, _, h => absurd (List.cons.inj h).1 (by decide)
  | _ + 1, _ + 1, .dictionary _, .integer _, _, _, _, _, h => absurd (List.cons.inj h).1 (by decide)
  | _ + 1, _ + 1, .dictionary _, .list _, _, _, _, _, h => absurd (List.cons.inj h).1 (by decide)
  | _ + 1, _ + 1, .string content, .integer _, _, _, _, _, h =>
    absurd h.symm (renderString_append_ne content (by decide))
  | _ + 1, _ + 1, .string content, .list _, _, _, _, _, h =>
    absurd h.symm (renderString_append_ne content (by decide))
  | _ + 1, _ + 1, .string content, .dictionary _, _, _, _, _, h =>
    absurd h.symm (renderString_append_ne content (by decide))
  | _ + 1, _ + 1, .integer _, .string content, _, _, _, _, h =>
    absurd h (renderString_append_ne content (by decide))
  | _ + 1, _ + 1, .list _, .string content, _, _, _, _, h =>
    absurd h (renderString_append_ne content (by decide))
  | _ + 1, _ + 1, .dictionary _, .string content, _, _, _, _, h =>
    absurd h (renderString_append_ne content (by decide))

theorem renderItems_append_inj (hend : Terminated numeral) (hend' : Terminated numeral') :
    ∀ {n n' : ℕ} {l l' : List Bencode} {r r' : Bytes},
    AdmittedItems numeral length n l → AdmittedItems numeral' length' n' l' →
      renderItems l ++ ascii 'e' :: r = renderItems l' ++ ascii 'e' :: r' → l = l' ∧ r = r'
  | _, _, [], [], _, _, _, _, h => ⟨rfl, (List.cons.inj h).2⟩
  | _, _, [], item :: _, _, _, _, _, h => by
    obtain ⟨b, rest, hb, hne⟩ := exists_render item
    simp only [renderItems, hb, List.nil_append, List.cons_append, List.cons.injEq] at h
    exact absurd h.1.symm hne
  | _, _, item :: _, [], _, _, _, _, h => by
    obtain ⟨b, rest, hb, hne⟩ := exists_render item
    simp only [renderItems, hb, List.nil_append, List.cons_append, List.cons.injEq] at h
    exact absurd h.1 hne
  | _, _, item :: l, item' :: l', r, r', ⟨hi, hl⟩, ⟨hi', hl'⟩, h => by
    rw [renderItems, renderItems, List.append_assoc, List.append_assoc] at h
    obtain ⟨rfl, hrest⟩ := render_append_inj hend hend' hi hi' h
    obtain ⟨rfl, hr⟩ := renderItems_append_inj hend hend' hl hl' hrest
    exact ⟨rfl, hr⟩

theorem renderMembers_append_inj (hend : Terminated numeral) (hend' : Terminated numeral') :
    ∀ {n n' : ℕ} {l l' : List (Bytes × Bencode)} {r r' : Bytes},
    AdmittedMembers numeral length n l → AdmittedMembers numeral' length' n' l' →
      renderMembers l ++ ascii 'e' :: r = renderMembers l' ++ ascii 'e' :: r' → l = l' ∧ r = r'
  | _, _, [], [], _, _, _, _, h => ⟨rfl, (List.cons.inj h).2⟩
  | _, _, [], (key, _) :: _, _, _, _, _, h => by
    simp only [renderMembers, List.append_assoc, List.nil_append] at h
    exact absurd h (renderString_append_ne key (by decide))
  | _, _, (key, _) :: _, [], _, _, _, _, h => by
    simp only [renderMembers, List.append_assoc, List.nil_append] at h
    exact absurd h.symm (renderString_append_ne key (by decide))
  | _, _, (key, t) :: l, (key', t') :: l', r, r', ⟨_, ht, hl⟩, ⟨_, ht', hl'⟩, h => by
    simp only [renderMembers, List.append_assoc] at h
    obtain ⟨rfl, hvalue⟩ := renderString_append_inj h
    obtain ⟨rfl, hrest⟩ := render_append_inj hend hend' ht ht' hvalue
    obtain ⟨rfl, hr⟩ := renderMembers_append_inj hend hend' hl hl' hrest
    exact ⟨rfl, hr⟩

end

end Unique

end Bencode

end BlackPearl.Library
