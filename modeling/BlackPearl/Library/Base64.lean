import Mathlib.Data.List.Basic

/-!
# Unpadded base64 with the URL alphabet

Groups of three bytes as four numbers of six bits, written as letters. The reader is lenient, as the
one of the standard library is: it passes over line breaks, and does not look at the bits of the last
number that belong to no byte. So it reads back what was written, but many texts read as the same
bytes.
-/

set_option autoImplicit false

namespace BlackPearl.Library

/-! ## Groups of six bits -/

/-- Groups of eight bits as groups of six, the last one filled up with zeros. -/
def toSextets : List UInt8 → List ℕ
  | [] => []
  | [a] => [a.toNat / 4, a.toNat % 4 * 16]
  | [a, b] => [a.toNat / 4, a.toNat % 4 * 16 + b.toNat / 16, b.toNat % 16 * 4]
  | a :: b :: c :: rest =>
      a.toNat / 4 :: (a.toNat % 4 * 16 + b.toNat / 16) :: (b.toNat % 16 * 4 + c.toNat / 64) ::
        c.toNat % 64 :: toSextets rest

/-- The whole groups of eight bits, unless a single group of six is left. -/
def fromSextets : List ℕ → Option (List UInt8)
  | [] => some []
  | [_] => none
  | [p, q] => some [UInt8.ofNat (p * 4 + q / 16)]
  | [p, q, r] => some [UInt8.ofNat (p * 4 + q / 16), UInt8.ofNat (q % 16 * 16 + r / 4)]
  | p :: q :: r :: s :: rest =>
      (fromSextets rest).map fun bytes =>
        UInt8.ofNat (p * 4 + q / 16) :: UInt8.ofNat (q % 16 * 16 + r / 4) ::
          UInt8.ofNat (r % 4 * 64 + s) :: bytes

theorem ofNat_eq_self {n : ℕ} {a : UInt8} (h : n = a.toNat) : UInt8.ofNat n = a := by
  rw [h, UInt8.ofNat_toNat]

theorem fromSextets_toSextets (bytes : List UInt8) : fromSextets (toSextets bytes) = some bytes := by
  induction bytes using toSextets.induct with
  | case1 => rfl
  | case2 a =>
    rw [toSextets, fromSextets, ofNat_eq_self (a := a) (by omega)]
  | case3 a b =>
    have hb := b.toNat_lt
    rw [toSextets, fromSextets, ofNat_eq_self (a := a) (by omega), ofNat_eq_self (a := b) (by omega)]
  | case4 a b c rest ih =>
    have hb := b.toNat_lt
    have hc := c.toNat_lt
    rw [toSextets, fromSextets, ih, ofNat_eq_self (a := a) (by omega),
      ofNat_eq_self (a := b) (by omega), ofNat_eq_self (a := c) (by omega)]
    rfl

theorem toSextets_lt {bytes : List UInt8} {n : ℕ} (h : n ∈ toSextets bytes) : n < 64 := by
  induction bytes using toSextets.induct with
  | case1 => cases h
  | case2 a =>
    have ha := a.toNat_lt
    simp only [toSextets, List.mem_cons, List.not_mem_nil, or_false] at h
    omega
  | case3 a b =>
    have ha := a.toNat_lt
    have hb := b.toNat_lt
    simp only [toSextets, List.mem_cons, List.not_mem_nil, or_false] at h
    omega
  | case4 a b c rest ih =>
    have ha := a.toNat_lt
    have hb := b.toNat_lt
    have hc := c.toNat_lt
    simp only [toSextets, List.mem_cons] at h
    rcases h with h | h | h | h | h
    · omega
    · omega
    · omega
    · omega
    · exact ih h

/-! ## The alphabet -/

/-- The letter of a number below 64. -/
def sextetLetter (n : ℕ) : UInt8 :=
  if n < 26 then UInt8.ofNat (65 + n)
  else if n < 52 then UInt8.ofNat (71 + n)
  else if n < 62 then UInt8.ofNat (n - 4)
  else if n = 62 then 45
  else 95

/-- The number of a letter. -/
def sextetValue (b : UInt8) : Option ℕ :=
  let n := b.toNat
  if 65 ≤ n ∧ n ≤ 90 then some (n - 65)
  else if 97 ≤ n ∧ n ≤ 122 then some (n - 71)
  else if 48 ≤ n ∧ n ≤ 57 then some (n + 4)
  else if n = 45 then some 62
  else if n = 95 then some 63
  else none

/-- The line breaks that a reader passes over. -/
def isLineBreak (b : UInt8) : Bool := b = 10 || b = 13

theorem sextetValue_letter : ∀ n < 64, sextetValue (sextetLetter n) = some n := by decide

theorem sextetLetter_isLineBreak : ∀ n < 64, isLineBreak (sextetLetter n) = false := by decide

/-! ## Writing and reading -/

/-- `base64.RawURLEncoding.EncodeToString`. -/
def encodeBase64 (bytes : List UInt8) : List UInt8 := (toSextets bytes).map sextetLetter

/-- `base64.RawURLEncoding.DecodeString`. -/
def decodeBase64 (letters : List UInt8) : Option (List UInt8) :=
  ((letters.filter fun b => !isLineBreak b).mapM sextetValue).bind fromSextets

theorem mapM_sextetValue {l : List ℕ} (h : ∀ n ∈ l, n < 64) :
    (l.map sextetLetter).mapM sextetValue = some l := by
  induction l with
  | nil => rfl
  | cons n l ih =>
    rw [List.map_cons, List.mapM_cons, sextetValue_letter n (h n List.mem_cons_self),
      ih fun m hm => h m (List.mem_cons_of_mem n hm)]
    rfl

@[simp] theorem decodeBase64_encodeBase64 (bytes : List UInt8) :
    decodeBase64 (encodeBase64 bytes) = some bytes := by
  have hletters : (encodeBase64 bytes).filter (fun b => !isLineBreak b) = encodeBase64 bytes := by
    refine List.filter_eq_self.2 fun b hb => ?_
    obtain ⟨n, hn, rfl⟩ := List.mem_map.1 hb
    rw [sextetLetter_isLineBreak n (toSextets_lt hn)]
    rfl
  rw [decodeBase64, hletters, encodeBase64, mapM_sextetValue fun n hn => toSextets_lt hn,
    Option.bind_some, fromSextets_toSextets]

/-- A letter stands for a number. -/
theorem sextetValue_isSome_of_mem {bytes : List UInt8} {b : UInt8} (h : b ∈ encodeBase64 bytes) :
    (sextetValue b).isSome = true := by
  obtain ⟨n, hn, rfl⟩ := List.mem_map.1 h
  rw [sextetValue_letter n (toSextets_lt hn)]
  rfl

end BlackPearl.Library
