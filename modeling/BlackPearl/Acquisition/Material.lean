import BlackPearl.Library.Bencode
import BlackPearl.Library.Scan

/-!
# Torrent files

The parser of torrent files of `internal/acquisition/material.go`, which finds the raw `info`
dictionary and hashes it. Reading outside of the payload and running forever are results of their own,
so that the parser can be shown to do neither: each of its scanners is right for a language of
`Library.Bencode` (`skip_scan`), and so is the loop over the torrent dictionary (`readMembers_spec`).
-/

set_option autoImplicit false

namespace BlackPearl.Acquisition

open BlackPearl.Library BlackPearl.Library.Bencode

/-- `maximumBencodeDepth`. -/
def maximumBencodeDepth : ℕ := 64

/-- The text of a byte string literal. -/
def literal (s : String) : Bytes := asciiBytes s.toList

def refused {α : Type} (message : String) : Parsed α := .error (.refused message)

/-- `fmt.Errorf` with a context. -/
def wrapped {α : Type} (context : String) : Parsed α → Parsed α
  | .error (.refused message) => refused (context ++ ": " ++ message)
  | r => r

/-! ## The parser -/

section Parser

variable (payload : Bytes)

/-- `bencodeParser.atEnd`. -/
def atEnd (offset : ℕ) : Bool := payload.length ≤ offset

/-- The byte at an index; there is none outside of the payload. -/
def byteAt (index : ℕ) : Parsed UInt8 :=
  match payload[index]? with
  | some b => .ok b
  | none => .error .outOfBounds

/-- The bytes from `start` to `stop`, which must be in order and within the payload. -/
def bytesFrom (start stop : ℕ) : Parsed Bytes :=
  if start ≤ stop ∧ stop ≤ payload.length then .ok (slice payload start (stop - start))
  else .error .outOfBounds

/-- `bencodeParser.peek`. -/
def peek (offset : ℕ) : Parsed UInt8 :=
  if atEnd payload offset then .ok 0 else byteAt payload offset

/-- `bencodeParser.consume`: the offset after the byte if it is the one that is wanted. -/
def consume (want : UInt8) (offset : ℕ) : Parsed (Option ℕ) := do
  let b ← peek payload offset
  return if b = want then some (offset + 1) else none

/-- The loop over digits of `readBytes` and `skipInteger`. -/
def skipDigits : ℕ → ℕ → Parsed ℕ
  | 0, _ => .error .unfinished
  | fuel + 1, offset =>
      if atEnd payload offset then .ok offset
      else do
        let b ← peek payload offset
        if isDigitByte b then skipDigits fuel (offset + 1) else return offset

/-- `strconv.ParseUint` in base ten, of digits. -/
def parseUint (bits : ℕ) (digits : Bytes) : Option ℕ :=
  if digitsValue digits < 2 ^ bits then some (digitsValue digits) else none

/-- `bencodeParser.readBytes`: the string and the offset after it. -/
def readBytes (offset : ℕ) : Parsed (Bytes × ℕ) := do
  let start := offset
  let offset ← skipDigits payload (payload.length + 1) offset
  if start = offset then refused "bencoded byte string length is invalid"
  else match ← consume payload (ascii ':') offset with
    | none => refused "bencoded byte string length is invalid"
    | some offset => do
        let lengthText ← bytesFrom payload start (offset - 1)
        if 1 < lengthText.length ∧ lengthText.head? = some (ascii '0') then
          refused "bencoded byte string length is not canonical"
        else match parseUint 31 lengthText with
          | none => refused "bencoded byte string exceeds payload"
          | some length =>
              if payload.length - offset < length then refused "bencoded byte string exceeds payload"
              else do
                let value ← bytesFrom payload offset (offset + length)
                return (value, offset + length)

/-- Whether a numeral is refused although it has the form of an integer. -/
def nonCanonical (number : Bytes) : Bool :=
  number = literal "-0" || (literal "00").isPrefixOf number || (literal "-0").isPrefixOf number

/-- `bencodeParser.skipInteger`. -/
def skipInteger (offset : ℕ) : Parsed ℕ := do
  let start := offset + 1
  let sign ← peek payload start
  let digits := if sign = ascii '-' then start + 1 else start
  let offset ← skipDigits payload (payload.length + 1) digits
  if digits = offset then refused "bencoded integer is invalid"
  else match ← consume payload (ascii 'e') offset with
    | none => refused "bencoded integer is invalid"
    | some offset => do
        let number ← bytesFrom payload start (offset - 1)
        if nonCanonical number then refused "bencoded integer is not canonical" else return offset

/-- The end of a list or a dictionary. -/
def consumeEnd (message : String) (offset : ℕ) : Parsed ℕ := do
  match ← consume payload (ascii 'e') offset with
  | none => refused message
  | some offset => return offset

mutual

/-- `bencodeParser.skipValue`. -/
def skipValue : ℕ → ℕ → ℕ → Parsed ℕ
  | 0, _, _ => .error .unfinished
  | fuel + 1, depth, offset =>
      if depth > maximumBencodeDepth || atEnd payload offset then
        refused "bencoded value exceeds depth or payload limit"
      else do
        let b ← peek payload offset
        if b = ascii 'i' then skipInteger payload offset
        else if b = ascii 'l' then skipItems fuel (depth + 1) (offset + 1)
        else if b = ascii 'd' then skipMembers fuel (depth + 1) (offset + 1)
        else if isDigitByte b then do
          let (_, offset) ← readBytes payload offset
          return offset
        else refused "unsupported bencoded value"

/-- The loop over the items of a list and its end. -/
def skipItems : ℕ → ℕ → ℕ → Parsed ℕ
  | 0, _, _ => .error .unfinished
  | fuel + 1, depth, offset => do
      let b ← peek payload offset
      if atEnd payload offset || b = ascii 'e' then
        consumeEnd payload "unterminated bencoded list" offset
      else do
        let offset ← skipValue fuel depth offset
        skipItems fuel depth offset

/-- The loop over the members of a dictionary and its end. -/
def skipMembers : ℕ → ℕ → ℕ → Parsed ℕ
  | 0, _, _ => .error .unfinished
  | fuel + 1, depth, offset => do
      let b ← peek payload offset
      if atEnd payload offset || b = ascii 'e' then
        consumeEnd payload "unterminated bencoded dictionary" offset
      else do
        let (_, offset) ← readBytes payload offset
        let offset ← skipValue fuel depth offset
        skipMembers fuel depth offset

end

/-- The loop over the members of the torrent dictionary; `info` is the value of its key `info`. -/
def readMembers : ℕ → Option Bytes → ℕ → Parsed (Option Bytes × ℕ)
  | 0, _, _ => .error .unfinished
  | fuel + 1, info, offset => do
      let b ← peek payload offset
      if atEnd payload offset || b = ascii 'e' then return (info, offset)
      else do
        let (key, start) ← wrapped "read torrent dictionary key" (readBytes payload offset)
        let offset ← wrapped "read torrent dictionary value"
          (skipValue payload (2 * payload.length + 2) 1 start)
        if key = literal "info" then
          if info.isSome then refused "torrent payload contains duplicate info dictionary"
          else if payload[start]? ≠ some (ascii 'd') then
            refused "torrent info value must be a dictionary"
          else do
            let value ← bytesFrom payload start offset
            readMembers fuel (some value) offset
        else readMembers fuel info offset

end Parser

/-- `rawTorrentInfoHash`. -/
def rawTorrentInfoHash (sha1 : Bytes → Bytes) (payload : Bytes) : Parsed String := do
  match ← consume payload (ascii 'd') 0 with
  | none => refused "torrent payload must be a bencoded dictionary"
  | some offset =>
      let (info, offset) ← readMembers payload (payload.length + 1) none offset
      match ← consume payload (ascii 'e') offset with
      | none => refused "torrent payload has an unterminated dictionary or trailing data"
      | some offset =>
          if !atEnd payload offset then
            refused "torrent payload has an unterminated dictionary or trailing data"
          else match info with
            | none | some [] => refused "torrent payload is missing its info dictionary"
            | some info => return String.ofList (encodeHex ((sha1 info).map UInt8.toNat))

/-- A real torrent with its `info` dictionary. -/
example : rawTorrentInfoHash id (literal "d4:infod4:name1:xee") =
    .ok "64343a6e616d65313a7865" := by decide +kernel

/-! ## Reading at an offset -/

section Reading

variable {payload : Bytes} {offset : ℕ}

theorem atEnd_iff : atEnd payload offset = true ↔ payload.drop offset = [] := by
  rw [atEnd, decide_eq_true_eq, List.drop_eq_nil_iff]

/-- At the end `peek` gives zero. -/
theorem peek_eq : peek payload offset = .ok ((payload.drop offset).headD 0) := by
  unfold peek byteAt
  by_cases hend : atEnd payload offset = true
  · rw [if_pos hend, atEnd_iff.1 hend]
    rfl
  · rw [if_neg hend]
    have hlt : offset < payload.length := by
      simpa [atEnd] using hend
    rw [List.getElem?_eq_getElem hlt, List.drop_eq_getElem_cons hlt]
    rfl

theorem consume_eq {want : UInt8} : consume payload want offset =
    .ok (if (payload.drop offset).headD 0 = want then some (offset + 1) else none) := by
  rw [consume, peek_eq]
  rfl

theorem skipDigits_eq : ∀ {fuel offset : ℕ}, (payload.drop offset).length < fuel →
    skipDigits payload fuel offset =
      .ok (offset + ((payload.drop offset).takeWhile isDigitByte).length)
  | 0, _, h => absurd h (Nat.not_lt_zero _)
  | fuel + 1, offset, h => by
    rw [skipDigits, peek_eq]
    cases hrest : payload.drop offset with
    | nil => rw [if_pos (atEnd_iff.2 hrest), List.takeWhile_nil, List.length_nil, Nat.add_zero]
    | cons b rest =>
      have hend : ¬ atEnd payload offset = true := by
        rw [atEnd_iff, hrest]
        exact List.cons_ne_nil _ _
      rw [if_neg hend]
      show (if isDigitByte b = true then skipDigits payload fuel (offset + 1) else .ok offset) = _
      have htail : payload.drop (offset + 1) = rest := by
        rw [← List.drop_drop, hrest]
        rfl
      by_cases hb : isDigitByte b = true
      · have hshort : (payload.drop (offset + 1)).length < fuel := by
          rw [hrest, List.length_cons] at h
          rw [htail]
          omega
        rw [if_pos hb, skipDigits_eq hshort, htail, List.takeWhile_cons_of_pos hb, List.length_cons]
        congr 1
        omega
      · rw [if_neg hb, List.takeWhile_cons_of_neg hb, List.length_nil, Nat.add_zero]

/-- The bytes of a word that stands at an offset. -/
theorem bytesFrom_eq {w : Bytes} (hle : offset ≤ payload.length) (hw : w <+: payload.drop offset) :
    bytesFrom payload offset (offset + w.length) = .ok w := by
  obtain ⟨rest, hrest⟩ := hw
  have hlen : w.length + rest.length = payload.length - offset := by
    rw [← List.length_append, hrest, List.length_drop]
  rw [bytesFrom, if_pos ⟨Nat.le_add_right _ _, by omega⟩, slice, ← hrest, Nat.add_sub_cancel_left,
    List.take_left]

/-- What stands after the digits at an offset does not start with a digit. -/
theorem headD_dropWhile (l : Bytes) : isDigitByte ((l.dropWhile isDigitByte).headD 0) = false := by
  induction l with
  | nil => rfl
  | cons b l ih =>
    by_cases hb : isDigitByte b = true
    · rw [List.dropWhile_cons_of_pos hb]
      exact ih
    · rw [List.dropWhile_cons_of_neg hb]
      simpa using hb

/-- The digits in front of another byte. -/
theorem takeWhile_digits {digits rest : Bytes} {b : UInt8}
    (hdigits : ∀ d ∈ digits, isDigitByte d = true) (hb : isDigitByte b = false) :
    (digits ++ b :: rest).takeWhile isDigitByte = digits := by
  rw [List.takeWhile_append_of_pos hdigits, List.takeWhile_cons_of_neg (by simp [hb]),
    List.append_nil]

theorem ok_bind {α β : Type} (a : α) (f : α → Parsed β) : (Except.ok a >>= f) = f a := rfl

/-! ## Strings and integers -/

/-- The lengths of the strings that `readBytes` admits. -/
def ShortLength (n : ℕ) : Prop := n < 2 ^ 31

/-- What stands in front of a string. -/
theorem digits_of_renderString {v rest : Bytes} (h : renderString v <+: rest) :
    rest.takeWhile isDigitByte = lengthDigits v.length ∧
      v <+: rest.drop ((lengthDigits v.length).length + 1) ∧
      (rest.drop (lengthDigits v.length).length).headD 0 = ascii ':' := by
  obtain ⟨tail, rfl⟩ := h
  have hrest : renderString v ++ tail = lengthDigits v.length ++ ascii ':' :: (v ++ tail) := by
    rw [renderString, List.append_assoc, List.cons_append]
  rw [hrest]
  refine ⟨takeWhile_digits (fun d hd => isDigitByte_of_mem_lengthDigits hd) (by decide), ?_, ?_⟩
  · rw [← List.drop_drop, List.drop_left]
    exact List.prefix_append v tail
  · rw [List.drop_left]
    rfl

theorem readBytes_spec (hle : offset ≤ payload.length) :
    (∃ v, ShortLength v.length ∧ renderString v <+: payload.drop offset ∧
      readBytes payload offset = .ok (v, offset + (renderString v).length)) ∨
    ∃ m, readBytes payload offset = .error (.refused m) ∧
      ∀ v, ShortLength v.length → ¬ renderString v <+: payload.drop offset := by
  have hshort : (payload.drop offset).length < payload.length + 1 := by
    rw [List.length_drop]
    omega
  have hscan := skipDigits_eq hshort
  have hsplit := List.takeWhile_append_dropWhile (p := isDigitByte) (l := payload.drop offset)
  have hall : ∀ d ∈ (payload.drop offset).takeWhile isDigitByte, isDigitByte d = true :=
    fun d hd => List.mem_takeWhile_imp hd
  generalize hdigits : (payload.drop offset).takeWhile isDigitByte = digits at hscan hsplit hall
  generalize (payload.drop offset).dropWhile isDigitByte = after at hsplit
  have hafter : payload.drop (offset + digits.length) = after := by
    rw [← List.drop_drop, ← hsplit, List.drop_left]
  simp only [readBytes, hscan, consume_eq, ok_bind, hafter]
  by_cases hempty : digits = []
  · refine Or.inr ⟨_, if_pos (by rw [hempty]; rfl), fun v _ hv => ?_⟩
    exact lengthDigits_ne_nil _ ((digits_of_renderString hv).1.symm.trans (hdigits.trans hempty))
  have hpos := List.length_pos_iff.2 hempty
  rw [if_neg (by omega)]
  by_cases hcolon : after.headD 0 = ascii ':'
  · obtain ⟨tail, rfl⟩ : ∃ tail, after = ascii ':' :: tail := by
      cases after with
      | nil => exact absurd hcolon (by decide)
      | cons b tail => exact ⟨tail, by rw [← hcolon]; rfl⟩
    have hlength : digits.length + (1 + tail.length) = payload.length - offset := by
      rw [← List.length_drop, ← hsplit, List.length_append, List.length_cons, Nat.add_comm 1]
    have htail : payload.drop (offset + digits.length + 1) = tail := by
      rw [← List.drop_drop, hafter]
      rfl
    have htext : bytesFrom payload offset (offset + digits.length) = .ok digits :=
      bytesFrom_eq hle (hsplit ▸ List.prefix_append _ _)
    simp only [if_pos hcolon, Nat.add_sub_cancel, htext, ok_bind]
    -- what a string at the offset says about the digits
    have hwords : ∀ v, renderString v <+: payload.drop offset →
        digits = lengthDigits v.length ∧ v <+: tail := by
      intro v hv
      obtain ⟨hlen, hcontent, -⟩ := digits_of_renderString hv
      rw [hdigits] at hlen
      rw [← hlen, List.drop_drop, ← Nat.add_assoc, htail] at hcontent
      exact ⟨hlen, hcontent⟩
    by_cases hlead : 1 < digits.length ∧ digits.head? = some (ascii '0')
    · refine Or.inr ⟨_, if_pos hlead, fun v _ hv => ?_⟩
      rw [(hwords v hv).1] at hlead
      exact lengthDigits_lead _ hlead
    rw [if_neg hlead, parseUint]
    by_cases hvalue : digitsValue digits < 2 ^ 31
    · rw [if_pos hvalue]
      by_cases hfits : payload.length - (offset + digits.length + 1) < digitsValue digits
      · refine Or.inr ⟨_, if_pos hfits, fun v _ hv => ?_⟩
        have hv' := hwords v hv
        have hvlen := hv'.2.length_le
        rw [hv'.1, digitsValue_lengthDigits] at hfits
        rw [hv'.1] at hlength
        omega
      · have hcount : (tail.take (digitsValue digits)).length = digitsValue digits := by
          rw [List.length_take]
          omega
        have hcontent : bytesFrom payload (offset + digits.length + 1)
            (offset + digits.length + 1 + digitsValue digits) =
              .ok (tail.take (digitsValue digits)) := by
          have hread : bytesFrom payload (offset + digits.length + 1)
              (offset + digits.length + 1 + (tail.take (digitsValue digits)).length) =
                .ok (tail.take (digitsValue digits)) := by
            apply bytesFrom_eq
            · omega
            · rw [htail]
              exact List.take_prefix _ _
          rwa [hcount] at hread
        have hrender : renderString (tail.take (digitsValue digits)) =
            digits ++ ascii ':' :: tail.take (digitsValue digits) := by
          rw [renderString, hcount, lengthDigits_digitsValue hempty hall hlead]
        refine Or.inl ⟨tail.take (digitsValue digits), ?_, ?_, ?_⟩
        · rw [ShortLength, hcount]
          exact hvalue
        · rw [hrender, ← hsplit, List.prefix_append_right_inj, List.cons_prefix_cons]
          exact ⟨rfl, List.take_prefix _ _⟩
        · simp only [if_neg hfits, hcontent, hrender, List.length_append, List.length_cons, hcount,
            ok_bind]
          show Except.ok _ = Except.ok _
          congr 2
          omega
    · rw [if_neg hvalue]
      refine Or.inr ⟨_, rfl, fun v hv hle => hvalue ?_⟩
      rw [(hwords v hle).1, digitsValue_lengthDigits]
      exact hv
  · simp only [if_neg hcolon]
    refine Or.inr ⟨_, rfl, fun v _ hv => hcolon ?_⟩
    obtain ⟨hlen, -, hhead⟩ := digits_of_renderString hv
    rw [hdigits] at hlen
    rw [← hhead, ← hlen, List.drop_drop, hafter]

/-- The numerals that `skipInteger` admits. -/
structure AdmittedNumeral (w : Bytes) : Prop where
  form : ∃ sign digits, w = sign ++ digits ∧ (sign = [] ∨ sign = [ascii '-']) ∧ digits ≠ [] ∧
    ∀ d ∈ digits, isDigitByte d = true
  canonical : nonCanonical w = false

/-- The notations of integers. -/
def IntegerWord (numeral : Bytes → Prop) (w : Bytes) : Prop :=
  ∃ written, numeral written ∧ w = render (.integer written)

theorem terminated_admittedNumeral : Terminated AdmittedNumeral := by
  rintro w ⟨⟨sign, digits, rfl, hsign, -, hdigits⟩, -⟩ hmem
  rcases List.mem_append.1 hmem with hmem | hmem
  · rcases hsign with rfl | rfl
    · cases hmem
    · exact absurd (List.mem_singleton.1 hmem) (by decide)
  · exact absurd (hdigits _ hmem) (by decide)

/-- A numeral starts with a sign exactly if it has one. -/
theorem headD_numeral {written sign digits tail rest : Bytes} (hform : written = sign ++ digits)
    (hsign : sign = [] ∨ sign = [ascii '-']) (hne : digits ≠ [])
    (hdigits : ∀ d ∈ digits, isDigitByte d = true) (hrest : written ++ ascii 'e' :: tail = rest) :
    rest.headD 0 = ascii '-' ↔ sign = [ascii '-'] := by
  subst hform hrest
  rcases hsign with rfl | rfl
  · cases digits with
    | nil => exact absurd rfl hne
    | cons d digits =>
      have hd := hdigits d List.mem_cons_self
      constructor
      · intro h
        have hminus : d = ascii '-' := h
        rw [hminus] at hd
        exact absurd hd (by decide)
      · nofun
  · exact ⟨fun _ => rfl, fun _ => rfl⟩

theorem skipInteger_scan (hi : (payload.drop offset).headD 0 = ascii 'i') :
    Scan payload offset (IntegerWord AdmittedNumeral) (skipInteger payload offset) := by
  obtain ⟨rest, hrest⟩ : ∃ rest, payload.drop offset = ascii 'i' :: rest := by
    cases hdrop : payload.drop offset with
    | nil =>
      rw [hdrop] at hi
      exact absurd hi (by decide)
    | cons b rest =>
      rw [hdrop] at hi
      exact ⟨rest, by rw [← hi]; rfl⟩
  have hstart : payload.drop (offset + 1) = rest := by
    rw [← List.drop_drop, hrest]
    rfl
  have hlen : offset + 1 + rest.length = payload.length := by
    have h := congrArg List.length hrest
    rw [List.length_drop, List.length_cons] at h
    omega
  -- the sign and the digits after it
  obtain ⟨sign, unsigned, hsplit, hsign, hminus⟩ : ∃ sign unsigned, rest = sign ++ unsigned ∧
      (sign = [] ∨ sign = [ascii '-']) ∧ (rest.headD 0 = ascii '-' ↔ sign = [ascii '-']) := by
    by_cases h : rest.headD 0 = ascii '-'
    · cases rest with
      | nil => exact absurd h (by decide)
      | cons b rest => exact ⟨[b], rest, rfl, Or.inr (by rw [← h]; rfl), by simp⟩
    · exact ⟨[], rest, rfl, Or.inl rfl, by simpa using h⟩
  have hunsigned : payload.drop (offset + 1 + sign.length) = unsigned := by
    rw [← List.drop_drop, hstart, hsplit, List.drop_left]
  have hbegin : (if rest.headD 0 = ascii '-' then offset + 1 + 1 else offset + 1) =
      offset + 1 + sign.length := by
    rcases hsign with rfl | rfl
    · rw [if_neg (by simpa using hminus)]
      rfl
    · rw [if_pos (hminus.2 rfl)]
      rfl
  have hshort : (payload.drop (offset + 1 + sign.length)).length < payload.length + 1 := by
    rw [List.length_drop]
    omega
  have hscan := skipDigits_eq hshort
  have hdrop := List.takeWhile_append_dropWhile (p := isDigitByte) (l := unsigned)
  have hall : ∀ d ∈ unsigned.takeWhile isDigitByte, isDigitByte d = true :=
    fun d hd => List.mem_takeWhile_imp hd
  rw [hunsigned] at hscan
  -- an integer at the offset has this sign and these digits, and ends after them
  have hwords : ∀ w, IntegerWord AdmittedNumeral w → w <+: payload.drop offset →
      ∃ tail, w = render (.integer (sign ++ unsigned.takeWhile isDigitByte)) ∧
        AdmittedNumeral (sign ++ unsigned.takeWhile isDigitByte) ∧
        unsigned.takeWhile isDigitByte ≠ [] ∧
        unsigned.dropWhile isDigitByte = ascii 'e' :: tail := by
    rintro w ⟨written, hwritten, rfl⟩ hle
    obtain ⟨sign', digits', hform, hsign', hne', hdigits'⟩ := hwritten.form
    rw [hrest, render, List.cons_prefix_cons] at hle
    obtain ⟨-, tail, htail⟩ := hle
    rw [List.append_assoc, List.singleton_append] at htail
    have hminus' := headD_numeral hform hsign' hne' hdigits' htail
    have hsame : sign' = sign := by
      rcases hsign with rfl | rfl
      · rcases hsign' with rfl | rfl
        · rfl
        · exact (hminus.1 (hminus'.2 rfl)).symm
      · rcases hsign' with rfl | rfl
        · exact hminus'.1 (hminus.2 rfl)
        · rfl
    subst hsame
    rw [hsplit, hform, List.append_assoc, List.append_cancel_left_eq] at htail
    have htake : unsigned.takeWhile isDigitByte = digits' := by
      rw [← htail]
      exact takeWhile_digits hdigits' (by decide)
    rw [htake, ← hform]
    refine ⟨tail, rfl, hwritten, hne', ?_⟩
    rw [← htail, List.dropWhile_append_of_pos hdigits', List.dropWhile_cons_of_neg (by decide)]
  generalize unsigned.takeWhile isDigitByte = digits at *
  generalize unsigned.dropWhile isDigitByte = after at *
  have hafter : payload.drop (offset + 1 + sign.length + digits.length) = after := by
    rw [← List.drop_drop, hunsigned, ← hdrop, List.drop_left]
  simp only [skipInteger, peek_eq, ok_bind, hstart, hbegin, hscan, consume_eq, hafter]
  by_cases hempty : digits = []
  · rw [if_pos (by rw [hempty]; rfl)]
    refine .refused fun w hw hle => ?_
    obtain ⟨_, _, _, hne, _⟩ := hwords w hw hle
    exact hne hempty
  have hpos := List.length_pos_iff.2 hempty
  rw [if_neg (by omega)]
  by_cases hend : after.headD 0 = ascii 'e'
  · obtain ⟨tail, rfl⟩ : ∃ tail, after = ascii 'e' :: tail := by
      cases after with
      | nil => exact absurd hend (by decide)
      | cons b tail => exact ⟨tail, by rw [← hend]; rfl⟩
    have hnumber : bytesFrom payload (offset + 1) (offset + 1 + sign.length + digits.length) =
        .ok (sign ++ digits) := by
      have hread : bytesFrom payload (offset + 1) (offset + 1 + (sign ++ digits).length) =
          .ok (sign ++ digits) := by
        apply bytesFrom_eq
        · omega
        · rw [hstart, hsplit, ← hdrop, ← List.append_assoc]
          exact List.prefix_append _ _
      rwa [List.length_append, ← Nat.add_assoc] at hread
    simp only [if_pos hend, Nat.add_sub_cancel, hnumber, ok_bind]
    by_cases hcanonical : nonCanonical (sign ++ digits) = true
    · rw [if_pos hcanonical]
      refine .refused fun w hw hle => ?_
      obtain ⟨_, _, hadmitted, _⟩ := hwords w hw hle
      rw [hadmitted.canonical] at hcanonical
      cases hcanonical
    · rw [if_neg hcanonical]
      have hword : render (.integer (sign ++ digits)) <+: payload.drop offset := by
        rw [hrest, hsplit, ← hdrop, render, List.cons_prefix_cons]
        refine ⟨rfl, tail, ?_⟩
        rw [List.append_assoc, List.append_assoc, List.singleton_append]
      have hend' : offset + 1 + sign.length + digits.length + 1 =
          offset + (render (.integer (sign ++ digits))).length := by
        simp only [render, List.length_cons, List.length_append, List.length_nil]
        omega
      show Scan payload offset _ (.ok (offset + 1 + sign.length + digits.length + 1))
      rw [hend']
      refine .found ⟨_, ⟨⟨sign, digits, rfl, hsign, hempty, hall⟩, ?_⟩, rfl⟩ hword
      simpa using hcanonical
  · simp only [if_neg hend]
    refine .refused fun w hw hle => ?_
    obtain ⟨tail, _, _, _, htail⟩ := hwords w hw hle
    rw [htail] at hend
    exact hend rfl

/-! ## Values -/

/-- The notations of strings. -/
def StringWord (w : Bytes) : Prop := ∃ v : Bytes, ShortLength v.length ∧ w = renderString v

/-- The notations of values that nest at most `n` deep. -/
def ValueWord (n : ℕ) (w : Bytes) : Prop :=
  ∃ t, Admitted AdmittedNumeral ShortLength n t ∧ w = render t

/-- The notations of the items of a list, with their end. -/
def ItemsWord (n : ℕ) (w : Bytes) : Prop :=
  ∃ l, AdmittedItems AdmittedNumeral ShortLength n l ∧ w = renderItems l ++ [ascii 'e']

/-- The notations of the members of a dictionary, with their end. -/
def MembersWord (n : ℕ) (w : Bytes) : Prop :=
  ∃ l, AdmittedMembers AdmittedNumeral ShortLength n l ∧ w = renderMembers l ++ [ascii 'e']

theorem renderString_unique {v v' l : Bytes} (h : renderString v <+: l)
    (h' : renderString v' <+: l) : v = v' := by
  obtain ⟨r, hr⟩ := h
  obtain ⟨r', hr'⟩ := h'
  exact (renderString_append_inj (hr.trans hr'.symm)).1

theorem render_unique {n : ℕ} {t t' : Bencode} {l : Bytes}
    (ht : Admitted AdmittedNumeral ShortLength n t)
    (ht' : Admitted AdmittedNumeral ShortLength n t') (h : render t <+: l) (h' : render t' <+: l) :
    t = t' := by
  obtain ⟨r, hr⟩ := h
  obtain ⟨r', hr'⟩ := h'
  exact (render_append_inj terminated_admittedNumeral terminated_admittedNumeral ht ht'
    (hr.trans hr'.symm)).1

theorem prefixFree_stringWord : PrefixFree StringWord := by
  rintro _ _ _ ⟨v, -, rfl⟩ ⟨v', -, rfl⟩ h h'
  rw [renderString_unique h h']

theorem prefixFree_valueWord (n : ℕ) : PrefixFree (ValueWord n) := by
  rintro _ _ _ ⟨t, ht, rfl⟩ ⟨t', ht', rfl⟩ h h'
  rw [render_unique ht ht' h h']

/-- `readBytes` where the string is not needed. -/
def skipBytes (payload : Bytes) (offset : ℕ) : Parsed ℕ := do
  let (_, offset) ← readBytes payload offset
  return offset

theorem skipBytes_scan (hle : offset ≤ payload.length) :
    Scan payload offset StringWord (skipBytes payload offset) := by
  rcases readBytes_spec hle with ⟨v, hv, hword, heq⟩ | ⟨m, heq, hnone⟩
  · rw [skipBytes, heq]
    exact .found ⟨v, hv, rfl⟩ hword
  · rw [skipBytes, heq]
    apply Scan.refused
    rintro _ ⟨v, hv, rfl⟩
    exact hnone v hv

theorem readBytes_bind {β : Type} (f : ℕ → Parsed β) :
    (readBytes payload offset >>= fun p => f p.2) = skipBytes payload offset >>= f := by
  rw [skipBytes]
  cases readBytes payload offset with
  | error e => rfl
  | ok p => rfl

/-- The first byte of a value says its kind. -/
theorem valueWord_cases {n : ℕ} {b : UInt8} {rest w : Bytes} (h : ValueWord (n + 1) w)
    (hw : w <+: b :: rest) :
    (b = ascii 'i' ∧ IntegerWord AdmittedNumeral w) ∨
      (b = ascii 'l' ∧ ∃ v, ItemsWord n v ∧ w = b :: v) ∨
      (b = ascii 'd' ∧ ∃ v, MembersWord n v ∧ w = b :: v) ∨
      (isDigitByte b = true ∧ StringWord w) := by
  obtain ⟨t, ht, rfl⟩ := h
  cases t with
  | integer written =>
    rw [render, List.cons_prefix_cons] at hw
    exact Or.inl ⟨hw.1.symm, written, ht, rfl⟩
  | list items =>
    have hb := (List.cons_prefix_cons.1 hw).1
    exact Or.inr (Or.inl ⟨hb.symm, _, ⟨items, ht, rfl⟩, by rw [← hb]; rfl⟩)
  | dictionary members =>
    have hb := (List.cons_prefix_cons.1 hw).1
    exact Or.inr (Or.inr (Or.inl ⟨hb.symm, _, ⟨members, ht, rfl⟩, by rw [← hb]; rfl⟩))
  | string content =>
    obtain ⟨d, more, hd, hdigit⟩ := exists_renderString content
    have hhead : d :: more <+: b :: rest := hd ▸ hw
    have hb := (List.cons_prefix_cons.1 hhead).1
    exact Or.inr (Or.inr (Or.inr ⟨hb ▸ hdigit, content, ht, rfl⟩))

theorem length_pos_of_valueWord {n : ℕ} {w : Bytes} (h : ValueWord n w) : 0 < w.length := by
  obtain ⟨t, -, rfl⟩ := h
  obtain ⟨b, rest, hb, -⟩ := exists_render t
  rw [hb, List.length_cons]
  exact Nat.succ_pos _

theorem headD_of_valueWord {n : ℕ} {w : Bytes} (h : ValueWord n w) : w.headD 0 ≠ ascii 'e' := by
  obtain ⟨t, -, rfl⟩ := h
  obtain ⟨b, rest, hb, hne⟩ := exists_render t
  rw [hb]
  exact hne

/-- At the end of the payload no word stands. -/
theorem consumeEnd_scan {words : Bytes → Prop} {message : String}
    (hend : atEnd payload offset = true ∨ (payload.drop offset).headD 0 = ascii 'e')
    (hnil : words [ascii 'e']) (hne : ¬ words []) :
    Scan payload offset words (consumeEnd payload message offset) := by
  rw [consumeEnd, consume_eq, ok_bind]
  cases hrest : payload.drop offset with
  | nil =>
    have hother : ¬ ([] : Bytes).headD 0 = ascii 'e' := by decide
    rw [if_neg hother]
    apply Scan.refused
    intro w hw hle
    rw [hrest, List.prefix_nil] at hle
    exact hne (hle ▸ hw)
  | cons b rest =>
    have hb : (b :: rest).headD 0 = ascii 'e' := by
      rcases hend with hend | hend
      · rw [atEnd_iff, hrest] at hend
        cases hend
      · rwa [hrest] at hend
    rw [if_pos hb]
    apply Scan.found hnil
    rw [hrest, List.cons_prefix_cons]
    exact ⟨hb.symm, List.nil_prefix⟩

/-- What is left of the payload after a word. -/
theorem drop_after {w : Bytes} (hle : offset ≤ payload.length) (hw : w <+: payload.drop offset) :
    offset + w.length ≤ payload.length ∧
      (payload.drop (offset + w.length)).length + w.length = (payload.drop offset).length := by
  have hlen := hw.length_le
  rw [List.length_drop] at hlen ⊢
  rw [List.length_drop]
  omega

variable {fuel depth : ℕ}

theorem skipValue_step
    (hitems : ∀ offset, offset ≤ payload.length → 2 * (payload.drop offset).length + 1 < fuel →
      Scan payload offset (ItemsWord (maximumBencodeDepth - depth))
        (skipItems payload fuel (depth + 1) offset))
    (hmembers : ∀ offset, offset ≤ payload.length → 2 * (payload.drop offset).length + 1 < fuel →
      Scan payload offset (MembersWord (maximumBencodeDepth - depth))
        (skipMembers payload fuel (depth + 1) offset))
    (hle : offset ≤ payload.length) (hfuel : 2 * (payload.drop offset).length < fuel + 1) :
    Scan payload offset (ValueWord (maximumBencodeDepth + 1 - depth))
      (skipValue payload (fuel + 1) depth offset) := by
  rw [skipValue]
  by_cases hbound : (decide (depth > maximumBencodeDepth) || atEnd payload offset) = true
  · rw [if_pos hbound]
    apply Scan.refused
    intro w hw hword
    rw [Bool.or_eq_true, decide_eq_true_eq, atEnd_iff] at hbound
    rcases hbound with hdeep | hnil
    · have hzero : maximumBencodeDepth + 1 - depth = 0 := by omega
      rw [hzero] at hw
      obtain ⟨t, ht, -⟩ := hw
      exact not_admitted_zero t ht
    · rw [hnil, List.prefix_nil] at hword
      have hpos := length_pos_of_valueWord hw
      rw [hword] at hpos
      exact Nat.lt_irrefl _ hpos
  rw [if_neg hbound, peek_eq, ok_bind]
  rw [Bool.or_eq_true, decide_eq_true_eq, atEnd_iff, not_or] at hbound
  obtain ⟨hshallow, hne⟩ := hbound
  have hdepth : maximumBencodeDepth + 1 - depth = maximumBencodeDepth - depth + 1 := by omega
  obtain ⟨b, rest, hrest⟩ := List.exists_cons_of_ne_nil hne
  have hbyte : [b] <+: payload.drop offset := by
    rw [hrest, List.cons_prefix_cons]
    exact ⟨rfl, List.nil_prefix⟩
  have hlen : offset + 1 ≤ payload.length ∧
      (payload.drop (offset + 1)).length + 1 = (payload.drop offset).length := drop_after hle hbyte
  have hhead : (payload.drop offset).headD 0 = b := by
    rw [hrest]
    rfl
  rw [hhead, hdepth]
  by_cases hi : b = ascii 'i'
  · rw [if_pos hi]
    apply (skipInteger_scan (hhead.trans hi)).congr
    intro w hw
    constructor
    · rintro ⟨written, hwritten, rfl⟩
      exact ⟨.integer written, hwritten, rfl⟩
    · intro hword
      rw [hrest] at hw
      rcases valueWord_cases hword hw with ⟨-, h⟩ | ⟨h, -⟩ | ⟨h, -⟩ | ⟨h, -⟩
      · exact h
      · exact absurd (hi.symm.trans h) (by decide)
      · exact absurd (hi.symm.trans h) (by decide)
      · rw [hi] at h
        exact absurd h (by decide)
  rw [if_neg hi]
  by_cases hl : b = ascii 'l'
  · rw [if_pos hl]
    apply ((hitems (offset + 1) hlen.1 (by omega)).cons hrest).congr
    intro w hw
    constructor
    · rintro ⟨_, ⟨items, hall, rfl⟩, rfl⟩
      exact ⟨.list items, hall, by rw [hl]; rfl⟩
    · intro hword
      rw [hrest] at hw
      rcases valueWord_cases hword hw with ⟨h, -⟩ | ⟨-, h⟩ | ⟨h, -⟩ | ⟨h, -⟩
      · exact absurd h hi
      · exact h
      · exact absurd (hl.symm.trans h) (by decide)
      · rw [hl] at h
        exact absurd h (by decide)
  rw [if_neg hl]
  by_cases hd : b = ascii 'd'
  · rw [if_pos hd]
    apply ((hmembers (offset + 1) hlen.1 (by omega)).cons hrest).congr
    intro w hw
    constructor
    · rintro ⟨_, ⟨members, hall, rfl⟩, rfl⟩
      exact ⟨.dictionary members, hall, by rw [hd]; rfl⟩
    · intro hword
      rw [hrest] at hw
      rcases valueWord_cases hword hw with ⟨h, -⟩ | ⟨h, -⟩ | ⟨-, h⟩ | ⟨h, -⟩
      · exact absurd h hi
      · exact absurd h hl
      · exact h
      · rw [hd] at h
        exact absurd h (by decide)
  rw [if_neg hd]
  by_cases hdigit : isDigitByte b = true
  · rw [if_pos hdigit]
    apply (skipBytes_scan hle).congr
    intro w hw
    constructor
    · rintro ⟨content, hcontent, rfl⟩
      exact ⟨.string content, hcontent, rfl⟩
    · intro hword
      rw [hrest] at hw
      rcases valueWord_cases hword hw with ⟨h, -⟩ | ⟨h, -⟩ | ⟨h, -⟩ | ⟨-, h⟩
      · exact absurd h hi
      · exact absurd h hl
      · exact absurd h hd
      · exact h
  · rw [if_neg hdigit]
    apply Scan.refused
    intro w hword hw
    rw [hrest] at hw
    rcases valueWord_cases hword hw with ⟨h, -⟩ | ⟨h, -⟩ | ⟨h, -⟩ | ⟨h, -⟩
    · exact hi h
    · exact hl h
    · exact hd h
    · exact hdigit h

/-- Where the loops end. -/
theorem loop_ends_iff : (atEnd payload offset || decide ((payload.drop offset).headD 0 = ascii 'e'))
    = true ↔ atEnd payload offset = true ∨ (payload.drop offset).headD 0 = ascii 'e' := by
  rw [Bool.or_eq_true, decide_eq_true_eq]

theorem skipItems_step {n : ℕ}
    (hvalue : ∀ offset, offset ≤ payload.length → 2 * (payload.drop offset).length < fuel →
      Scan payload offset (ValueWord n) (skipValue payload fuel depth offset))
    (hitems : ∀ offset, offset ≤ payload.length → 2 * (payload.drop offset).length + 1 < fuel →
      Scan payload offset (ItemsWord n) (skipItems payload fuel depth offset))
    (hle : offset ≤ payload.length) (hfuel : 2 * (payload.drop offset).length + 1 < fuel + 1) :
    Scan payload offset (ItemsWord n) (skipItems payload (fuel + 1) depth offset) := by
  rw [skipItems, peek_eq, ok_bind]
  by_cases hend : (atEnd payload offset || decide ((payload.drop offset).headD 0 = ascii 'e')) = true
  · rw [if_pos hend]
    apply consumeEnd_scan (loop_ends_iff.1 hend)
    · exact ⟨[], by simp [AdmittedItems], rfl⟩
    · rintro ⟨l, -, hl⟩
      exact absurd hl.symm (by simp)
  · rw [if_neg hend]
    rw [loop_ends_iff, not_or] at hend
    have hseq := (hvalue offset hle (by omega)).seq (prefixFree_valueWord n) (fun w hw hword => by
      have hlen := drop_after hle hword
      have hpos := length_pos_of_valueWord hw
      exact hitems (offset + w.length) hlen.1 (by omega))
    apply hseq.congr
    intro w hw
    constructor
    · rintro ⟨_, _, ⟨t, ht, rfl⟩, ⟨l, hl, rfl⟩, rfl⟩
      refine ⟨t :: l, ⟨ht, hl⟩, ?_⟩
      rw [renderItems, List.append_assoc]
    · rintro ⟨l, hl, rfl⟩
      cases l with
      | nil =>
        obtain ⟨tail, htail⟩ := hw
        rw [← htail] at hend
        exact absurd rfl hend.2
      | cons t l =>
        refine ⟨_, _, ⟨t, hl.1, rfl⟩, ⟨l, hl.2, rfl⟩, ?_⟩
        rw [renderItems, List.append_assoc]

theorem skipMembers_step {n : ℕ}
    (hvalue : ∀ offset, offset ≤ payload.length → 2 * (payload.drop offset).length < fuel →
      Scan payload offset (ValueWord n) (skipValue payload fuel depth offset))
    (hmembers : ∀ offset, offset ≤ payload.length → 2 * (payload.drop offset).length + 1 < fuel →
      Scan payload offset (MembersWord n) (skipMembers payload fuel depth offset))
    (hle : offset ≤ payload.length) (hfuel : 2 * (payload.drop offset).length + 1 < fuel + 1) :
    Scan payload offset (MembersWord n) (skipMembers payload (fuel + 1) depth offset) := by
  rw [skipMembers, peek_eq, ok_bind]
  by_cases hend : (atEnd payload offset || decide ((payload.drop offset).headD 0 = ascii 'e')) = true
  · rw [if_pos hend]
    apply consumeEnd_scan (loop_ends_iff.1 hend)
    · exact ⟨[], by simp [AdmittedMembers], rfl⟩
    · rintro ⟨l, -, hl⟩
      exact absurd hl.symm (by simp)
  · rw [if_neg hend]
    rw [loop_ends_iff, not_or] at hend
    show Scan payload offset _ (readBytes payload offset >>= fun p =>
      skipValue payload fuel depth p.2 >>= fun o => skipMembers payload fuel depth o)
    rw [readBytes_bind fun o => skipValue payload fuel depth o >>= fun o =>
      skipMembers payload fuel depth o]
    -- after a key come a value and the other members
    have hrest : ∀ w, StringWord w → w <+: payload.drop offset →
        Scan payload (offset + w.length) (Followed (ValueWord n) (MembersWord n))
          (skipValue payload fuel depth (offset + w.length) >>= fun o =>
            skipMembers payload fuel depth o) := by
      intro w _ hword
      have hlen := drop_after hle hword
      apply (hvalue (offset + w.length) hlen.1 (by omega)).seq (prefixFree_valueWord n)
      intro v hv hvalueWord
      have hlen' := drop_after hlen.1 hvalueWord
      have hpos := length_pos_of_valueWord hv
      exact hmembers (offset + w.length + v.length) hlen'.1 (by omega)
    have hseq := (skipBytes_scan hle).seq (f := fun o => skipValue payload fuel depth o >>= fun o =>
      skipMembers payload fuel depth o) prefixFree_stringWord hrest
    apply hseq.congr
    intro w hw
    constructor
    · rintro ⟨_, _, ⟨key, hkey, rfl⟩, ⟨_, _, ⟨t, ht, rfl⟩, ⟨l, hl, rfl⟩, rfl⟩, rfl⟩
      refine ⟨(key, t) :: l, ⟨hkey, ht, hl⟩, ?_⟩
      rw [renderMembers, List.append_assoc, List.append_assoc]
    · rintro ⟨l, hl, rfl⟩
      cases l with
      | nil =>
        obtain ⟨tail, htail⟩ := hw
        rw [← htail] at hend
        exact absurd rfl hend.2
      | cons m l =>
        obtain ⟨key, t⟩ := m
        refine ⟨_, _, ⟨key, hl.1, rfl⟩, ⟨_, _, ⟨t, hl.2.1, rfl⟩, ⟨l, hl.2.2, rfl⟩, rfl⟩, ?_⟩
        rw [renderMembers, List.append_assoc, List.append_assoc]

/-- The scanners of values, of items and of members, by induction on the fuel: each step of a loop
passes a byte, and what a container contains starts after one. -/
theorem skip_scan (payload : Bytes) : ∀ fuel : ℕ,
    (∀ depth offset, offset ≤ payload.length → 2 * (payload.drop offset).length < fuel →
      Scan payload offset (ValueWord (maximumBencodeDepth + 1 - depth))
        (skipValue payload fuel depth offset)) ∧
    (∀ depth offset, offset ≤ payload.length → 2 * (payload.drop offset).length + 1 < fuel →
      Scan payload offset (ItemsWord (maximumBencodeDepth + 1 - depth))
        (skipItems payload fuel depth offset)) ∧
    (∀ depth offset, offset ≤ payload.length → 2 * (payload.drop offset).length + 1 < fuel →
      Scan payload offset (MembersWord (maximumBencodeDepth + 1 - depth))
        (skipMembers payload fuel depth offset)) := by
  intro fuel
  induction fuel with
  | zero => exact ⟨fun _ _ _ h => by omega, fun _ _ _ h => by omega, fun _ _ _ h => by omega⟩
  | succ fuel ih =>
    obtain ⟨hvalue, hitems, hmembers⟩ := ih
    refine ⟨fun depth offset hle hfuel => ?_, fun depth offset hle hfuel => ?_,
      fun depth offset hle hfuel => ?_⟩
    · have hdeeper : maximumBencodeDepth + 1 - (depth + 1) = maximumBencodeDepth - depth := by omega
      apply skipValue_step (fun o => ?_) (fun o => ?_) hle hfuel
      · exact hdeeper ▸ hitems (depth + 1) o
      · exact hdeeper ▸ hmembers (depth + 1) o
    · exact skipItems_step (hvalue depth) (hitems depth) hle hfuel
    · exact skipMembers_step (hvalue depth) (hmembers depth) hle hfuel

/-! ## The torrent dictionary -/

/-- The value of the key `info` after some members, given what was found before them; nothing if the
members have a second one or one that is no dictionary. -/
def collectInfo : Option Bytes → List (Bytes × Bencode) → Option (Option Bytes)
  | info, [] => some info
  | info, (key, value) :: members =>
      if key = literal "info" then
        if info.isSome ∨ (render value).headD 0 ≠ ascii 'd' then none
        else collectInfo (some (render value)) members
      else collectInfo info members

/-- Members that stand where no dictionary ends: the first one and the others, each at its offset. -/
theorem members_at {n : ℕ} {members : List (Bytes × Bencode)}
    (hend : (payload.drop offset).headD 0 ≠ ascii 'e')
    (hm : AdmittedMembers AdmittedNumeral ShortLength n members)
    (hw : renderMembers members ++ [ascii 'e'] <+: payload.drop offset) :
    ∃ key value rest, members = (key, value) :: rest ∧ ShortLength key.length ∧
      Admitted AdmittedNumeral ShortLength n value ∧
      AdmittedMembers AdmittedNumeral ShortLength n rest ∧
      renderString key <+: payload.drop offset ∧
      render value <+: payload.drop (offset + (renderString key).length) ∧
      renderMembers rest ++ [ascii 'e'] <+:
        payload.drop (offset + (renderString key).length + (render value).length) := by
  cases members with
  | nil =>
    obtain ⟨tail, htail⟩ := hw
    rw [← htail] at hend
    exact absurd rfl hend
  | cons member rest =>
    obtain ⟨key, value⟩ := member
    rw [renderMembers, List.append_assoc, List.append_assoc] at hw
    have hkey : renderString key <+: payload.drop offset := (List.prefix_append _ _).trans hw
    have hmore := (prefix_append_iff hkey).1 hw
    rw [List.drop_drop] at hmore
    have hvalue := (List.prefix_append _ _).trans hmore
    have hrest := (prefix_append_iff hvalue).1 hmore
    rw [List.drop_drop] at hrest
    exact ⟨key, value, rest, rfl, hm.1, hm.2.1, hm.2.2, hkey, hvalue, hrest⟩

/-- What the loop over members is to give at an offset: it has come to the end of members with at most
one value of `info`, or refuses because no such members stand there. -/
inductive MembersRead (payload : Bytes) (info : Option Bytes) (offset : ℕ) :
    Parsed (Option Bytes × ℕ) → Prop
  | found {members : List (Bytes × Bencode)} {found : Option Bytes} :
      AdmittedMembers AdmittedNumeral ShortLength maximumBencodeDepth members →
      renderMembers members <+: payload.drop offset → collectInfo info members = some found →
      (atEnd payload (offset + (renderMembers members).length) = true ∨
        (payload.drop (offset + (renderMembers members).length)).headD 0 = ascii 'e') →
      MembersRead payload info offset (.ok (found, offset + (renderMembers members).length))
  | refused {message : String} :
      (∀ members, AdmittedMembers AdmittedNumeral ShortLength maximumBencodeDepth members →
        renderMembers members ++ [ascii 'e'] <+: payload.drop offset →
        collectInfo info members = none) →
      MembersRead payload info offset (.error (.refused message))

/-- A member that does not end the loop is followed by what the loop gives after it. -/
theorem MembersRead.member {info info' : Option Bytes} {key : Bytes} {value : Bencode}
    {r : Parsed (Option Bytes × ℕ)} (hend : (payload.drop offset).headD 0 ≠ ascii 'e')
    (hkey : ShortLength key.length)
    (hvalue : Admitted AdmittedNumeral ShortLength maximumBencodeDepth value)
    (hword : renderString key <+: payload.drop offset)
    (hword' : render value <+: payload.drop (offset + (renderString key).length))
    (hinfo : ∀ rest, collectInfo info ((key, value) :: rest) = collectInfo info' rest)
    (h : MembersRead payload info' (offset + (renderString key).length + (render value).length) r) :
    MembersRead payload info offset r := by
  cases h with
  | @found rest found hrest hmore hcollect hstop =>
    have hlen : offset + (renderString key).length + (render value).length +
        (renderMembers rest).length = offset + (renderMembers ((key, value) :: rest)).length := by
      rw [renderMembers, List.length_append, List.length_append]
      omega
    rw [hlen] at hstop ⊢
    refine .found ⟨hkey, hvalue, hrest⟩ ?_ ((hinfo rest).trans hcollect) hstop
    rw [renderMembers, prefix_append_iff hword, List.drop_drop, prefix_append_iff hword',
      List.drop_drop]
    exact hmore
  | refused hnone =>
    refine .refused fun members hm hmembers => ?_
    obtain ⟨key', value', rest, rfl, _, hvalue', hrest, hkeyWord, hvalueWord, hmore⟩ :=
      members_at hend hm hmembers
    obtain rfl := renderString_unique hkeyWord hword
    obtain rfl := render_unique hvalue' hvalue hvalueWord hword'
    rw [hinfo rest]
    exact hnone rest hrest hmore

theorem readMembers_spec : ∀ {fuel : ℕ} {info : Option Bytes} {offset : ℕ},
    offset ≤ payload.length → (payload.drop offset).length < fuel →
      MembersRead payload info offset (readMembers payload fuel info offset) := by
  intro fuel
  induction fuel with
  | zero => exact fun _ h => absurd h (Nat.not_lt_zero _)
  | succ fuel ih =>
    intro info offset hle hfuel
    rw [readMembers, peek_eq, ok_bind]
    by_cases hend : (atEnd payload offset || decide ((payload.drop offset).headD 0 = ascii 'e'))
        = true
    · rw [if_pos hend]
      exact .found (show AdmittedMembers AdmittedNumeral ShortLength _ [] by simp [AdmittedMembers])
        List.nil_prefix rfl
        (loop_ends_iff.1 hend)
    rw [if_neg hend]
    rw [loop_ends_iff, not_or] at hend
    rcases readBytes_spec hle with ⟨key, hkey, hword, heq⟩ | ⟨m, heq, hnone⟩
    · have hlen := drop_after hle hword
      have hscan := (skip_scan payload (2 * payload.length + 2)).1 1
        (offset + (renderString key).length) hlen.1 (by rw [List.length_drop]; omega)
      rw [heq]
      simp only [wrapped, ok_bind]
      generalize skipValue payload (2 * payload.length + 2) 1 (offset + (renderString key).length)
        = r at hscan
      cases hscan with
      | @found w hw hvalue =>
        obtain ⟨value, hadmitted, rfl⟩ := hw
        have hlen' := drop_after hlen.1 hvalue
        have hpos := length_pos_of_valueWord ⟨value, hadmitted, rfl⟩
        simp only [ok_bind]
        -- the members at the offset start with what was read
        have hfirst : ∀ members, AdmittedMembers AdmittedNumeral ShortLength maximumBencodeDepth
            members → renderMembers members ++ [ascii 'e'] <+: payload.drop offset →
            ∃ rest, members = (key, value) :: rest := by
          intro members hm hmembers
          obtain ⟨key', value', rest, rfl, _, hvalue', _, hword', hword'', _⟩ :=
            members_at hend.2 hm hmembers
          obtain rfl := renderString_unique hword' hword
          obtain rfl := render_unique hvalue' hadmitted hword'' hvalue
          exact ⟨rest, rfl⟩
        have hrest : ∀ info', MembersRead payload info'
            (offset + (renderString key).length + (render value).length)
            (readMembers payload fuel info'
              (offset + (renderString key).length + (render value).length)) :=
          fun info' => ih hlen'.1 (by omega)
        obtain ⟨b, more, hb, -⟩ := exists_render value
        have hhead : (render value).headD 0 = b := by
          rw [hb]
          rfl
        have hbyte : payload[offset + (renderString key).length]? = some b := by
          obtain ⟨tail, htail⟩ := hvalue
          rw [← List.head?_drop, ← htail, hb]
          rfl
        by_cases hname : key = literal "info"
        · rw [if_pos hname]
          by_cases hsecond : info.isSome = true
          · rw [if_pos hsecond]
            refine .refused fun members hm hmembers => ?_
            obtain ⟨rest, rfl⟩ := hfirst members hm hmembers
            rw [collectInfo, if_pos hname, if_pos (Or.inl hsecond)]
          rw [if_neg hsecond, hbyte]
          by_cases hkind : b = ascii 'd'
          · rw [if_neg (by rw [hkind]; simp), bytesFrom_eq hlen.1 hvalue, ok_bind]
            refine (hrest _).member hend.2 hkey hadmitted hword hvalue fun rest => ?_
            rw [collectInfo, if_pos hname, if_neg]
            rw [hhead, not_or]
            exact ⟨hsecond, not_not_intro hkind⟩
          · rw [if_pos (fun h => hkind (Option.some.inj h))]
            refine .refused fun members hm hmembers => ?_
            obtain ⟨rest, rfl⟩ := hfirst members hm hmembers
            rw [collectInfo, if_pos hname, if_pos (Or.inr (hhead ▸ hkind))]
        · rw [if_neg hname]
          refine (hrest info).member hend.2 hkey hadmitted hword hvalue fun rest => ?_
          rw [collectInfo, if_neg hname]
      | @refused m hnone =>
        refine .refused fun members hm hmembers => ?_
        obtain ⟨key', value', _, rfl, _, hvalue', _, hword', hword'', _⟩ :=
          members_at hend.2 hm hmembers
        obtain rfl := renderString_unique hword' hword
        exact absurd hword'' (hnone _ ⟨value', hvalue', rfl⟩)
    · rw [heq]
      refine .refused fun members hm hw => ?_
      obtain ⟨key, _, _, _, hkey, _, _, hword, _⟩ := members_at hend.2 hm hw
      exact absurd hword (hnone key hkey)

end Reading

end BlackPearl.Acquisition
