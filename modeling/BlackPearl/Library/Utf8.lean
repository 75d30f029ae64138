import BlackPearl.Library.ByteText

/-!
# Bytes as text

A string of bytes as a reader of UTF-8 meets it: `ofBytes` reads one character after the other, and
takes a byte that starts none as a stray one. No byte is lost: `bytes_ofBytes`.
-/

set_option autoImplicit false

namespace BlackPearl.Library.ByteText

/-- A byte that continues a character. -/
def isContinuation (b : UInt8) : Bool := 0x80 ≤ b.toNat && b.toNat ≤ 0xbf

/-- The byte as part of no character. -/
def strayByte (b : UInt8) : Piece := .stray (Fin.ofNat 128 (b.toNat - 128))

/-- The piece that starts with a byte, and how many of the bytes after it belong to it. -/
def readPiece (b : UInt8) (rest : List UInt8) : Piece × ℕ :=
  let n := b.toNat
  if n < 0x80 then (.char (Char.ofNat n), 0)
  else if 0xc2 ≤ n ∧ n ≤ 0xdf then
    match rest with
    | c :: _ =>
      if isContinuation c then (.char (Char.ofNat (n % 32 * 64 + c.toNat % 64)), 1)
      else (strayByte b, 0)
    | [] => (strayByte b, 0)
  else if 0xe0 ≤ n ∧ n ≤ 0xef then
    match rest with
    | c :: d :: _ =>
      if (isContinuation c ∧ (n = 0xe0 → 0xa0 ≤ c.toNat) ∧ (n = 0xed → c.toNat ≤ 0x9f)) ∧
          isContinuation d then
        (.char (Char.ofNat (n % 16 * 4096 + c.toNat % 64 * 64 + d.toNat % 64)), 2)
      else (strayByte b, 0)
    | _ => (strayByte b, 0)
  else if 0xf0 ≤ n ∧ n ≤ 0xf4 then
    match rest with
    | c :: d :: e :: _ =>
      if (isContinuation c ∧ (n = 0xf0 → 0x90 ≤ c.toNat) ∧ (n = 0xf4 → c.toNat ≤ 0x8f)) ∧
          isContinuation d ∧ isContinuation e then
        (.char (Char.ofNat (n % 8 * 262144 + c.toNat % 64 * 4096 + d.toNat % 64 * 64 +
          e.toNat % 64)), 3)
      else (strayByte b, 0)
    | _ => (strayByte b, 0)
  else (strayByte b, 0)

/-- The text of a string of bytes, after `skip` bytes that belong to the piece before. -/
def ofBytesFrom : ℕ → List UInt8 → ByteText
  | _, [] => []
  | skip + 1, _ :: rest => ofBytesFrom skip rest
  | 0, b :: rest => (readPiece b rest).1 :: ofBytesFrom (readPiece b rest).2 rest

def ofBytes (bs : List UInt8) : ByteText := ofBytesFrom 0 bs

/-! ## No byte is lost -/

theorem isContinuation_iff {b : UInt8} :
    isContinuation b = true ↔ 0x80 ≤ b.toNat ∧ b.toNat ≤ 0xbf := by
  rw [isContinuation, Bool.and_eq_true, decide_eq_true_eq, decide_eq_true_eq]

theorem bytes_strayByte {b : UInt8} (h : 0x80 ≤ b.toNat) : (strayByte b).bytes = [b.toNat] := by
  have hb := b.toNat_lt
  have hmod : (b.toNat - 128) % 128 = b.toNat - 128 := Nat.mod_eq_of_lt (by omega)
  simp only [strayByte, Piece.bytes, Fin.ofNat, hmod, List.cons.injEq, and_true]
  omega

theorem bytes_char {n : ℕ} (h : n.isValidChar) :
    Piece.bytes (.char (Char.ofNat n)) =
      if n < 0x80 then [n]
      else if n < 0x800 then [0xc0 + n / 64, 0x80 + n % 64]
      else if n < 0x10000 then [0xe0 + n / 4096, 0x80 + n / 64 % 64, 0x80 + n % 64]
      else [0xf0 + n / 262144, 0x80 + n / 4096 % 64, 0x80 + n / 64 % 64, 0x80 + n % 64] := by
  have hn : (Char.ofNat n).toNat = n := by
    rw [Char.ofNat, dif_pos h]
    rfl
  rw [Piece.bytes, hn]

/-- A piece has the byte that it starts with and the following ones that belong to it. -/
theorem bytes_readPiece (b : UInt8) (rest : List UInt8) :
    (readPiece b rest).1.bytes =
      b.toNat :: (rest.take (readPiece b rest).2).map UInt8.toNat := by
  have hb := b.toNat_lt
  unfold readPiece
  dsimp only
  by_cases hascii : b.toNat < 0x80
  · rw [if_pos hascii, bytes_char (Or.inl (by omega)), if_pos hascii]
    rfl
  rw [if_neg hascii]
  have hstray : (strayByte b).bytes = b.toNat :: (rest.take 0).map UInt8.toNat :=
    bytes_strayByte (by omega)
  by_cases htwo : 0xc2 ≤ b.toNat ∧ b.toNat ≤ 0xdf
  · rw [if_pos htwo]
    rcases rest with _ | ⟨c, rest⟩
    · exact hstray
    dsimp only
    by_cases hc : isContinuation c = true
    · rw [if_pos hc]
      rw [isContinuation_iff] at hc
      rw [bytes_char (Or.inl (by omega)), if_neg (by omega), if_pos (by omega)]
      simp only [List.take_succ_cons, List.take_zero, List.map_cons, List.map_nil,
        List.cons.injEq, and_true]
      omega
    · rw [if_neg hc]
      exact hstray
  rw [if_neg htwo]
  by_cases hthree : 0xe0 ≤ b.toNat ∧ b.toNat ≤ 0xef
  · rw [if_pos hthree]
    rcases rest with _ | ⟨c, _ | ⟨d, rest⟩⟩
    · exact hstray
    · exact hstray
    dsimp only
    split
    · rename_i hcd
      rw [isContinuation_iff, isContinuation_iff] at hcd
      rw [bytes_char (by rw [Nat.isValidChar]; omega), if_neg (by omega), if_neg (by omega),
        if_pos (by omega)]
      simp only [List.take_succ_cons, List.take_zero, List.map_cons, List.map_nil,
        List.cons.injEq, and_true]
      omega
    · exact hstray
  rw [if_neg hthree]
  by_cases hfour : 0xf0 ≤ b.toNat ∧ b.toNat ≤ 0xf4
  · rw [if_pos hfour]
    rcases rest with _ | ⟨c, _ | ⟨d, _ | ⟨e, rest⟩⟩⟩
    · exact hstray
    · exact hstray
    · exact hstray
    dsimp only
    split
    · rename_i hcde
      rw [isContinuation_iff, isContinuation_iff, isContinuation_iff] at hcde
      rw [bytes_char (by rw [Nat.isValidChar]; omega), if_neg (by omega), if_neg (by omega),
        if_neg (by omega)]
      simp only [List.take_succ_cons, List.take_zero, List.map_cons, List.map_nil,
        List.cons.injEq, and_true]
      omega
    · exact hstray
  rw [if_neg hfour]
  exact hstray

theorem bytes_ofBytesFrom (skip : ℕ) (bs : List UInt8) :
    bytes (ofBytesFrom skip bs) = (bs.drop skip).map UInt8.toNat := by
  induction bs generalizing skip with
  | nil => cases skip <;> rfl
  | cons b rest ih =>
    cases skip with
    | succ skip => exact ih skip
    | zero =>
      rw [ofBytesFrom, bytes, List.flatMap_cons, bytes_readPiece]
      have hrest := ih (readPiece b rest).2
      rw [bytes] at hrest
      rw [hrest, List.cons_append, ← List.map_append, List.take_append_drop]
      rfl

/-- Reading bytes as text loses none of them. -/
theorem bytes_ofBytes (bs : List UInt8) : bytes (ofBytes bs) = bs.map UInt8.toNat :=
  bytes_ofBytesFrom 0 bs

end BlackPearl.Library.ByteText

namespace BlackPearl.Library

/-! ## Texts as bytes -/

/-- The UTF-8 of a text. -/
def textBytes (s : String) : List UInt8 := s.toList.flatMap String.utf8EncodeChar

/-- The text of ASCII bytes. -/
def asciiText (bs : List UInt8) : String := String.ofList (bs.map fun b => Char.ofNat b.toNat)

theorem textBytes_injective : Function.Injective textBytes := by
  intro s t h
  have hencode : s.toList.utf8Encode = t.toList.utf8Encode := by
    rw [List.utf8Encode, List.utf8Encode]
    exact congrArg List.toByteArray h
  rw [String.utf8Encode_toList, String.utf8Encode_toList] at hencode
  exact String.toByteArray_inj.1 hencode

theorem textBytes_asciiText {bs : List UInt8} (h : ∀ b ∈ bs, b.toNat < 128) :
    textBytes (asciiText bs) = bs := by
  rw [textBytes, asciiText, String.toList_ofList]
  induction bs with
  | nil => rfl
  | cons b bs ih =>
    have hb := h b List.mem_cons_self
    have hchar : (Char.ofNat b.toNat).val.toNat = b.toNat := by
      rw [Char.ofNat, dif_pos (Or.inl (by omega))]
      rfl
    have hone : String.utf8EncodeChar (Char.ofNat b.toNat) = [b] := by
      rw [String.utf8EncodeChar, hchar, if_pos (by omega), UInt8.ofNat_toNat]
    rw [List.map_cons, List.flatMap_cons, hone, ih fun c hc => h c (List.mem_cons_of_mem b hc)]
    rfl

end BlackPearl.Library
