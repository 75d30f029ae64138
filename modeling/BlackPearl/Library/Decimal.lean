import Mathlib.Data.List.Basic
import Mathlib.Tactic.Ring
import Mathlib.Tactic.Linarith

/-!
# Decimal numerals of a least width

`padded width n` are the decimal digits of `n`, filled up with leading zeros to `width`. Reading
them back gives `n`, so the notation is injective, and every string of exactly `width` digits is
the notation of the number it denotes.
-/

set_option autoImplicit false

namespace BlackPearl.Library

/-- The decimal digits of `n`, with leading zeros up to `width`. -/
def padded (width n : ℕ) : List Char :=
  let digits := Nat.toDigits 10 n
  List.replicate (width - digits.length) '0' ++ digits

/-- The number a string of decimal digits denotes. -/
def decimalValue (digits : List Char) : ℕ := Nat.ofDigitChars 10 digits 0

@[simp] theorem decimalValue_padded (width n : ℕ) : decimalValue (padded width n) = n := by
  simp [decimalValue, padded, Nat.ofDigitChars_append]

theorem padded_injective (width : ℕ) : Function.Injective (padded width) :=
  Function.LeftInverse.injective (decimalValue_padded width)

theorem isDigit_of_mem_padded {width n : ℕ} {c : Char} (h : c ∈ padded width n) : c.isDigit := by
  simp only [padded, List.mem_append, List.mem_replicate] at h
  rcases h with ⟨-, rfl⟩ | h
  · rfl
  · exact Nat.isDigit_of_mem_toDigits (by omega) (by omega) h

theorem length_padded {width n : ℕ} (h : n < 10 ^ width) (hw : 0 < width) :
    (padded width n).length = width := by
  have := (Nat.length_toDigits_le_iff (b := 10) (by omega) hw).2 h
  simp only [padded, List.length_append, List.length_replicate]
  omega

theorem decimalValue_cons (c : Char) (cs : List Char) :
    decimalValue (c :: cs) = 10 ^ cs.length * (c.toNat - 48) + decimalValue cs := by
  simp only [decimalValue, Nat.ofDigitChars_cons]
  rw [Nat.ofDigitChars_eq_ofDigitChars_zero]
  simp

theorem toNat_of_isDigit {c : Char} (h : c.isDigit = true) :
    48 ≤ c.toNat ∧ c.toNat ≤ 57 := by
  simp only [Char.isDigit, Bool.and_eq_true, decide_eq_true_eq, ge_iff_le] at h
  exact ⟨h.1, h.2⟩

theorem toNat_lt_of_isDigit {c : Char} (h : c.isDigit = true) : c.toNat < 128 := by
  have hrange := toNat_of_isDigit h
  omega

theorem decimalValue_lt : ∀ cs : List Char, (∀ c ∈ cs, c.isDigit = true) →
    decimalValue cs < 10 ^ cs.length
  | [], _ => by simp [decimalValue]
  | c :: cs, h => by
    have hrest := decimalValue_lt cs fun d hd => h d (List.mem_cons_of_mem _ hd)
    obtain ⟨-, hc⟩ := toNat_of_isDigit (h c List.mem_cons_self)
    have hdigit : c.toNat - 48 ≤ 9 := by omega
    have hmul : 10 ^ cs.length * (c.toNat - 48) ≤ 10 ^ cs.length * 9 := Nat.mul_le_mul_left _ hdigit
    rw [decimalValue_cons, List.length_cons, Nat.pow_succ]
    omega

/-- Two digit strings of one length that denote the same number are equal. -/
theorem decimalValue_inj : ∀ cs ds : List Char, (∀ c ∈ cs, c.isDigit = true) →
    (∀ d ∈ ds, d.isDigit = true) → cs.length = ds.length → decimalValue cs = decimalValue ds → cs = ds
  | [], [], _, _, _, _ => rfl
  | [], _ :: _, _, _, h, _ => by simp at h
  | _ :: _, [], _, _, h, _ => by simp at h
  | c :: cs, d :: ds, hc, hd, hlen, hval => by
    have hcs : ∀ x ∈ cs, x.isDigit = true := fun x hx => hc x (List.mem_cons_of_mem _ hx)
    have hds : ∀ x ∈ ds, x.isDigit = true := fun x hx => hd x (List.mem_cons_of_mem _ hx)
    have hlen' : cs.length = ds.length := by simpa using hlen
    have hltc := decimalValue_lt cs hcs
    have hltd := decimalValue_lt ds hds
    rw [decimalValue_cons, decimalValue_cons, hlen'] at hval
    rw [hlen'] at hltc
    have hhead : c.toNat - 48 = d.toNat - 48 := by
      have hdiv : ∀ q r : ℕ, r < 10 ^ ds.length → (10 ^ ds.length * q + r) / 10 ^ ds.length = q := by
        intro q r hr
        rw [Nat.mul_add_div (Nat.pos_of_ne_zero (by positivity)), Nat.div_eq_of_lt hr, Nat.add_zero]
      rw [← hdiv (c.toNat - 48) _ hltc, ← hdiv (d.toNat - 48) _ hltd, hval]
    have hc' := toNat_of_isDigit (hc c List.mem_cons_self)
    have hd' := toNat_of_isDigit (hd d List.mem_cons_self)
    have hchar : c = d := Char.toNat_inj.1 (by omega)
    rw [hhead] at hval
    rw [hchar, decimalValue_inj cs ds hcs hds hlen' (by omega)]

/-- A string of exactly `width` digits is the notation of the number it denotes. -/
theorem padded_decimalValue {width : ℕ} {cs : List Char} (hw : 0 < width)
    (hd : ∀ c ∈ cs, c.isDigit = true) (hlen : cs.length = width) :
    padded width (decimalValue cs) = cs := by
  have hlt := decimalValue_lt cs hd
  rw [hlen] at hlt
  refine decimalValue_inj _ _ (fun c hc => isDigit_of_mem_padded hc) hd ?_ (by simp)
  rw [length_padded hlt hw, hlen]

/-! ## Order as text -/

/-- Digit strings of one length are ordered as the numbers they denote, whatever follows. -/
theorem digits_lt_of_value : ∀ {cs ds : List Char}, (∀ c ∈ cs, c.isDigit = true) →
    (∀ d ∈ ds, d.isDigit = true) → cs.length = ds.length → decimalValue cs < decimalValue ds →
    ∀ x y : List ℕ, cs.map Char.toNat ++ x < ds.map Char.toNat ++ y
  | [], [], _, _, _, h, _, _ => absurd h (lt_irrefl _)
  | [], _ :: _, _, _, h, _, _, _ => by simp at h
  | _ :: _, [], _, _, h, _, _, _ => by simp at h
  | c :: cs, d :: ds, hc, hd, hlen, hval, x, y => by
    have hcs : ∀ e ∈ cs, e.isDigit = true := fun e he => hc e (List.mem_cons_of_mem _ he)
    have hds : ∀ e ∈ ds, e.isDigit = true := fun e he => hd e (List.mem_cons_of_mem _ he)
    have hlen' : cs.length = ds.length := by simpa using hlen
    have hc' := toNat_of_isDigit (hc c List.mem_cons_self)
    have hd' := toNat_of_isDigit (hd d List.mem_cons_self)
    have hltd := decimalValue_lt ds hds
    rw [decimalValue_cons, decimalValue_cons, hlen'] at hval
    rw [List.map_cons, List.map_cons, List.cons_append, List.cons_append, List.cons_lt_cons_iff]
    rcases lt_trichotomy (c.toNat - 48) (d.toNat - 48) with hlt | heq | hgt
    · exact Or.inl (by omega)
    · rw [heq] at hval
      exact Or.inr ⟨by omega, digits_lt_of_value hcs hds hlen' (by omega) x y⟩
    · -- a larger first digit outweighs the rest
      have hmul : 10 ^ ds.length * (d.toNat - 48 + 1) ≤ 10 ^ ds.length * (c.toNat - 48) :=
        Nat.mul_le_mul_left _ hgt
      rw [Nat.mul_succ] at hmul
      omega

/-- A numeral of two digits or more is that of its tenth and its last digit. -/
theorem padded_two_of_le {n : ℕ} (h : 100 ≤ n) :
    padded 2 n = padded 2 (n / 10) ++ [Nat.digitChar (n % 10)] := by
  have hdigits : ∀ m, 10 ≤ m → padded 2 m = Nat.toDigits 10 m := by
    intro m hm
    have hlength : ¬ (Nat.toDigits 10 m).length ≤ 1 := by
      rw [Nat.length_toDigits_le_iff (by omega) (by omega)]
      omega
    rw [padded, Nat.sub_eq_zero_of_le (by omega)]
    rfl
  rw [hdigits n (by omega), hdigits (n / 10) (by omega),
    Nat.toDigits_of_base_le (by omega) (by omega)]

/-- Where a numeral with at least two digits stands among the texts that go on with a space: a
numeral of three digits follows that of its tenth. -/
def textRank (n : ℕ) : ℕ := if n < 100 then 11 * n else 11 * (n / 10) + 1 + n % 10

theorem textRank_injective : Function.Injective textRank := by
  intro m n h
  unfold textRank at h
  split at h <;> split at h <;> omega

/-- Numerals of at most three digits are ordered by their rank when a space follows. -/
theorem padded_lt_of_textRank {m n : ℕ} (hm : m < 1000) (hn : n < 1000)
    (h : textRank m < textRank n) (x y : List ℕ) :
    (padded 2 m).map Char.toNat ++ 0x20 :: x < (padded 2 n).map Char.toNat ++ 0x20 :: y := by
  have hlt : ∀ a b, a < 100 → b < 100 → a < b → ∀ x y : List ℕ,
      (padded 2 a).map Char.toNat ++ x < (padded 2 b).map Char.toNat ++ y := by
    intro a b ha hb hab
    have hlen : (padded 2 a).length = (padded 2 b).length := by
      rw [length_padded (by omega) (by omega), length_padded (by omega) (by omega)]
    exact digits_lt_of_value (fun c hc => isDigit_of_mem_padded hc)
      (fun c hc => isDigit_of_mem_padded hc) hlen
      (by rwa [decimalValue_padded, decimalValue_padded])
  have hdigit : ∀ d < 10, (Nat.digitChar d).toNat = 48 + d := by decide
  unfold textRank at h
  split at h
  · next hm100 =>
    split at h
    · next hn100 => exact hlt m n hm100 hn100 (by omega) _ _
    · next hn100 =>
      rw [padded_two_of_le (not_lt.1 hn100), List.map_append, List.append_assoc]
      rcases Nat.lt_or_ge m (n / 10) with hlow | hge
      · exact hlt m (n / 10) hm100 (by omega) hlow _ _
      · obtain rfl : m = n / 10 := by omega
        apply List.append_left_lt
        rw [List.map_singleton, List.singleton_append, List.cons_lt_cons_iff, hdigit _ (by omega)]
        exact Or.inl (by omega)
  · next hm100 =>
    rw [padded_two_of_le (not_lt.1 hm100), List.map_append, List.append_assoc]
    split at h
    · next hn100 => exact hlt (m / 10) n (by omega) hn100 (by omega) _ _
    · next hn100 =>
      rw [padded_two_of_le (not_lt.1 hn100), List.map_append, List.append_assoc]
      rcases Nat.lt_or_ge (m / 10) (n / 10) with hlow | hge
      · exact hlt (m / 10) (n / 10) (by omega) (by omega) hlow _ _
      · have heq : m / 10 = n / 10 := by omega
        rw [heq]
        apply List.append_left_lt
        rw [List.map_singleton, List.map_singleton, List.singleton_append, List.singleton_append,
          List.cons_lt_cons_iff, hdigit _ (by omega), hdigit _ (by omega)]
        exact Or.inl (by omega)

/-! ## Integers -/

/-- The decimal notation of an integer. -/
def decimal (n : ℤ) : List Char :=
  if n < 0 then '-' :: Nat.toDigits 10 n.natAbs else Nat.toDigits 10 n.natAbs

/-- The integer that a decimal notation denotes. -/
def parseDecimal (cs : List Char) : Option ℤ :=
  match cs with
  | '-' :: digits =>
      if digits ≠ [] ∧ digits.all Char.isDigit then some (-(decimalValue digits : ℤ)) else none
  | digits =>
      if digits ≠ [] ∧ digits.all Char.isDigit then some (decimalValue digits) else none

theorem isDigit_of_mem_toDigits {n : ℕ} {c : Char} (h : c ∈ Nat.toDigits 10 n) : c.isDigit :=
  Nat.isDigit_of_mem_toDigits (by omega) (by omega) h

@[simp] theorem decimalValue_toDigits (n : ℕ) : decimalValue (Nat.toDigits 10 n) = n := by
  simp [decimalValue]

/-- A number other than zero is written without a leading zero. -/
theorem head?_toDigits {n : ℕ} (hn : 0 < n) : (Nat.toDigits 10 n).head? ≠ some '0' := by
  induction n using Nat.strong_induction_on with
  | _ n ih =>
    by_cases hlt : n < 10
    · rw [Nat.toDigits_of_lt_base hlt, List.head?_cons, ne_eq, Option.some.injEq,
        Nat.digitChar_eq_zero]
      omega
    · rw [Nat.toDigits_of_base_le (by omega) (by omega),
        List.head?_append_of_ne_nil _ Nat.toDigits_ne_nil]
      exact ih (n / 10) (by omega) (by omega)

theorem isDigit_or_minus_of_mem_decimal {n : ℤ} {c : Char} (h : c ∈ decimal n) :
    c.isDigit = true ∨ c = '-' := by
  unfold decimal at h
  split at h
  · rcases List.mem_cons.1 h with rfl | h
    · exact Or.inr rfl
    · exact Or.inl (isDigit_of_mem_toDigits h)
  · exact Or.inl (isDigit_of_mem_toDigits h)

/-- An integer prints as its decimal notation. -/
theorem toList_toString (n : ℤ) : (toString n).toList = decimal n := by
  cases n with
  | ofNat m =>
    have hnonneg : ¬ Int.ofNat m < 0 := by simp
    rw [decimal, if_neg hnonneg]
    exact String.toList_ofList
  | negSucc m =>
    have hneg : Int.negSucc m < 0 := Int.negSucc_lt_zero m
    rw [decimal, if_pos hneg]
    have hdigits : (String.ofList (Nat.toDigits 10 (m + 1))).toList = Nat.toDigits 10 (m + 1) :=
      String.toList_ofList
    show ("-" ++ String.ofList (Nat.toDigits 10 (m + 1))).toList = _
    rw [String.toList_append, hdigits]
    rfl

/-- Reading the notation of an integer gives the integer. -/
@[simp] theorem parseDecimal_decimal (n : ℤ) : parseDecimal (decimal n) = some n := by
  have hne := Nat.toDigits_ne_nil (n := n.natAbs) (b := 10)
  have hall : (Nat.toDigits 10 n.natAbs).all Char.isDigit = true :=
    List.all_eq_true.2 fun c hc => isDigit_of_mem_toDigits hc
  by_cases hn : n < 0
  · simp [decimal, hn, parseDecimal, hne, hall, abs_of_neg hn]
  · have habs : (n.natAbs : ℤ) = n := by omega
    rw [decimal, if_neg hn, parseDecimal]
    · simp [hne, hall, habs]
    · -- the first character is a digit, not a sign
      intro digits h
      have hminus : '-' ∈ Nat.toDigits 10 n.natAbs := h ▸ List.mem_cons_self
      exact absurd (isDigit_of_mem_toDigits hminus) (by decide)

end BlackPearl.Library
