import BlackPearl.Library.ByteText

/-!
# Hexadecimal and base32 notations of bytes

How many bytes a notation denotes, and that two notations of the same bytes differ in letter case at
most: `decodeHex_inj` for hexadecimal digits, `decodeQuintets_inj` for whole groups of eight base32
letters.
-/

set_option autoImplicit false

namespace BlackPearl.Library

/-! ## Hexadecimal digits -/

theorem hexValue_toLower {c : Char} (h : (hexValue c).isSome) :
    hexValue c.toLower = hexValue c ∧ c.toLower.toNat < 128 :=
  ascii_cases (P := fun c => (hexValue c).isSome →
    hexValue c.toLower = hexValue c ∧ c.toLower.toNat < 128) (by decide) c (toNat_lt_of_hexValue h) h

/-- A digit is given by its value, up to case. -/
theorem hexValue_spec {c : Char} {v : ℕ} (h : hexValue c = some v) :
    v < 16 ∧ c.toLower = Nat.digitChar v := by
  have hc := toNat_lt_of_hexValue (Option.isSome_iff_exists.2 ⟨v, h⟩)
  have hall : ∀ w ∈ hexValue c, w < 16 ∧ c.toLower = Nat.digitChar w :=
    ascii_cases (P := fun c => ∀ w ∈ hexValue c, w < 16 ∧ c.toLower = Nat.digitChar w)
      (by decide) c hc
  exact hall v h

theorem decodeHex_eq_some : ∀ {cs : List Char} {bytes : List ℕ}, decodeHex cs = some bytes →
    cs.length = 2 * bytes.length ∧ ∀ b ∈ bytes, b < 256
  | [], bytes, h => by
    obtain rfl := Option.some.inj h
    exact ⟨rfl, nofun⟩
  | [_], _, h => by cases h
  | hi :: lo :: rest, bytes, h => by
    simp only [decodeHex, Option.bind_eq_bind, Option.bind_eq_some_iff, Option.pure_def,
      Option.some.injEq] at h
    obtain ⟨x, hx, y, hy, more, hmore, rfl⟩ := h
    obtain ⟨hlen, hall⟩ := decodeHex_eq_some hmore
    have hx' := (hexValue_spec hx).1
    have hy' := (hexValue_spec hy).1
    refine ⟨by rw [List.length_cons, List.length_cons, List.length_cons, hlen]; omega, ?_⟩
    rintro b (_ | ⟨_, hb⟩)
    · omega
    · exact hall b hb

/-- Digits in pairs denote bytes. -/
theorem decodeHex_isSome : ∀ {cs : List Char}, cs.length % 2 = 0 →
    (∀ c ∈ cs, (hexValue c).isSome) → (decodeHex cs).isSome
  | [], _, _ => rfl
  | [_], h, _ => by simp at h
  | hi :: lo :: rest, hlen, h => by
    obtain ⟨x, hx⟩ := Option.isSome_iff_exists.1 (h hi List.mem_cons_self)
    obtain ⟨y, hy⟩ := Option.isSome_iff_exists.1 (h lo (List.mem_cons_of_mem _ List.mem_cons_self))
    have hlen' : rest.length % 2 = 0 := by
      rw [List.length_cons, List.length_cons] at hlen
      omega
    obtain ⟨more, hmore⟩ := Option.isSome_iff_exists.1 (decodeHex_isSome hlen' fun c hc =>
      h c (List.mem_cons_of_mem _ (List.mem_cons_of_mem _ hc)))
    simp [decodeHex, hx, hy, hmore]

theorem decodeHex_map_toLower : ∀ {cs : List Char}, (decodeHex cs).isSome →
    decodeHex (cs.map Char.toLower) = decodeHex cs
  | [], _ => rfl
  | [_], h => by cases h
  | hi :: lo :: rest, h => by
    have hdigits := hexValue_of_decodeHex h
    have hhi := (hexValue_toLower (hdigits hi List.mem_cons_self)).1
    have hlo := (hexValue_toLower (hdigits lo (List.mem_cons_of_mem _ List.mem_cons_self))).1
    have hrest : (decodeHex rest).isSome := by
      obtain ⟨bytes, hbytes⟩ := Option.isSome_iff_exists.1 h
      simp only [decodeHex, Option.bind_eq_bind, Option.bind_eq_some_iff] at hbytes
      obtain ⟨_, _, _, _, more, hmore, _⟩ := hbytes
      rw [hmore]
      rfl
    rw [List.map_cons, List.map_cons, decodeHex, decodeHex, hhi, hlo, decodeHex_map_toLower hrest]

/-- Notations of the same bytes differ in case at most. -/
theorem decodeHex_inj : ∀ {cs cs' : List Char} {bytes : List ℕ}, decodeHex cs = some bytes →
    decodeHex cs' = some bytes → cs.map Char.toLower = cs'.map Char.toLower
  | [], [], _, _, _ => rfl
  | [_], _, _, h, _ => by cases h
  | _, [_], _, _, h => by cases h
  | [], _ :: _ :: _, bytes, h, h' => by
    have hlen := (decodeHex_eq_some h).1
    have hlen' := (decodeHex_eq_some h').1
    simp only [List.length_nil, List.length_cons] at hlen hlen'
    omega
  | _ :: _ :: _, [], bytes, h, h' => by
    have hlen := (decodeHex_eq_some h).1
    have hlen' := (decodeHex_eq_some h').1
    simp only [List.length_nil, List.length_cons] at hlen hlen'
    omega
  | hi :: lo :: rest, hi' :: lo' :: rest', bytes, h, h' => by
    simp only [decodeHex, Option.bind_eq_bind, Option.bind_eq_some_iff, Option.pure_def,
      Option.some.injEq] at h h'
    obtain ⟨x, hx, y, hy, more, hmore, rfl⟩ := h
    obtain ⟨x', hx', y', hy', more', hmore', hsame⟩ := h'
    obtain ⟨hbyte, rfl⟩ := List.cons.inj hsame
    obtain ⟨hx16, hxl⟩ := hexValue_spec hx
    obtain ⟨hy16, hyl⟩ := hexValue_spec hy
    obtain ⟨hx16', hxl'⟩ := hexValue_spec hx'
    obtain ⟨hy16', hyl'⟩ := hexValue_spec hy'
    have hhigh : x' = x := by omega
    have hlow : y' = y := by omega
    rw [List.map_cons, List.map_cons, List.map_cons, List.map_cons, hxl, hyl, hxl', hyl', hhigh, hlow,
      decodeHex_inj hmore hmore']

/-! ## Base32 letters -/

/-- The letter of a value. -/
def base32Char (v : ℕ) : Char := if v < 26 then Char.ofNat (65 + v) else Char.ofNat (24 + v)

theorem base32Value_spec {c : Char} {v : ℕ} (h : base32Value c = some v) :
    v < 32 ∧ c = base32Char v := by
  have hc := toNat_lt_of_base32Value (Or.inl (Option.isSome_iff_exists.2 ⟨v, h⟩))
  have hall : ∀ w ∈ base32Value c, w < 32 ∧ c = base32Char w :=
    ascii_cases (P := fun c => ∀ w ∈ base32Value c, w < 32 ∧ c = base32Char w) (by decide) c hc
  exact hall v h

/-- Whole groups: eight values for five bytes. -/
theorem packQuintets_groups : ∀ {values : List ℕ}, values.length % 8 = 0 → (∀ v ∈ values, v < 32) →
    5 * values.length = 8 * (packQuintets values).length ∧ ∀ b ∈ packQuintets values, b < 256
  | [], _, _ => ⟨rfl, nofun⟩
  | a :: b :: c :: d :: e :: f :: g :: h :: rest, hlen, hall => by
    have hlen' : rest.length % 8 = 0 := by
      simp only [List.length_cons] at hlen
      omega
    obtain ⟨hcount, hbytes⟩ := packQuintets_groups hlen' fun v hv => hall v (by simp [hv])
    have hsmall : a < 32 ∧ b < 32 ∧ c < 32 ∧ d < 32 ∧ e < 32 ∧ f < 32 ∧ g < 32 ∧ h < 32 := by
      refine ⟨hall a ?_, hall b ?_, hall c ?_, hall d ?_, hall e ?_, hall f ?_, hall g ?_, hall h ?_⟩
        <;> simp
    constructor
    · simp only [packQuintets, List.length_cons, List.length_append, List.length_nil]
      omega
    · intro n hn
      rw [packQuintets, List.mem_append] at hn
      rcases hn with hn | hn
      · simp only [List.mem_cons, List.not_mem_nil, or_false] at hn
        omega
      · exact hbytes n hn
  | [_], h, _ | [_, _], h, _ | [_, _, _], h, _ | [_, _, _, _], h, _ | [_, _, _, _, _], h, _
  | [_, _, _, _, _, _], h, _ | [_, _, _, _, _, _, _], h, _ => by simp at h

theorem packQuintets_inj : ∀ {values values' : List ℕ}, values.length % 8 = 0 →
    values'.length = values.length → (∀ v ∈ values, v < 32) → (∀ v ∈ values', v < 32) →
    packQuintets values = packQuintets values' → values = values'
  | [], [], _, _, _, _, _ => rfl
  | a :: b :: c :: d :: e :: f :: g :: h :: rest, a' :: b' :: c' :: d' :: e' :: f' :: g' :: h' :: rest',
      hlen, hsame, hall, hall', heq => by
    have hlen' : rest.length % 8 = 0 := by
      simp only [List.length_cons] at hlen
      omega
    have hsame' : rest'.length = rest.length := by
      simp only [List.length_cons] at hsame
      omega
    have hsmall : a < 32 ∧ b < 32 ∧ c < 32 ∧ d < 32 ∧ e < 32 ∧ f < 32 ∧ g < 32 ∧ h < 32 := by
      refine ⟨hall a ?_, hall b ?_, hall c ?_, hall d ?_, hall e ?_, hall f ?_, hall g ?_, hall h ?_⟩
        <;> simp
    have hsmall' : a' < 32 ∧ b' < 32 ∧ c' < 32 ∧ d' < 32 ∧ e' < 32 ∧ f' < 32 ∧ g' < 32 ∧ h' < 32 := by
      refine ⟨hall' a' ?_, hall' b' ?_, hall' c' ?_, hall' d' ?_, hall' e' ?_, hall' f' ?_,
        hall' g' ?_, hall' h' ?_⟩ <;> simp
    simp only [packQuintets, List.cons_append, List.nil_append, List.cons.injEq] at heq
    obtain ⟨h₁, h₂, h₃, h₄, h₅, hrest⟩ := heq
    obtain rfl := packQuintets_inj hlen' hsame' (fun v hv => hall v (by simp [hv]))
      (fun v hv => hall' v (by simp [hv])) hrest
    simp only [List.cons.injEq, and_true]
    omega
  | [_], _, h, _, _, _, _ | [_, _], _, h, _, _, _, _ | [_, _, _], _, h, _, _, _, _
  | [_, _, _, _], _, h, _, _, _, _ | [_, _, _, _, _], _, h, _, _, _, _
  | [_, _, _, _, _, _], _, h, _, _, _, _ | [_, _, _, _, _, _, _], _, h, _, _, _, _ => by simp at h

/-- The bytes of base32 letters in either case. -/
def decodeQuintets (cs : List Char) : Option (List ℕ) :=
  (cs.mapM fun c => base32Value c.toUpper).map packQuintets

theorem mapM_base32_spec : ∀ {cs : List Char} {values : List ℕ},
    cs.mapM (fun c => base32Value c.toUpper) = some values →
      values.length = cs.length ∧ (∀ v ∈ values, v < 32) ∧
        cs.map Char.toUpper = values.map base32Char
  | [], values, h => by
    obtain rfl := Option.some.inj h
    exact ⟨rfl, nofun, rfl⟩
  | c :: cs, values, h => by
    simp only [List.mapM_cons, Option.bind_eq_bind, Option.bind_eq_some_iff, Option.pure_def,
      Option.some.injEq] at h
    obtain ⟨v, hv, more, hmore, rfl⟩ := h
    obtain ⟨hlen, hall, hletters⟩ := mapM_base32_spec hmore
    obtain ⟨hsmall, hletter⟩ := base32Value_spec hv
    refine ⟨by rw [List.length_cons, List.length_cons, hlen], ?_, ?_⟩
    · rintro w (_ | ⟨_, hw⟩)
      · exact hsmall
      · exact hall w hw
    · rw [List.map_cons, List.map_cons, hletters, ← hletter]

theorem mapM_isSome_iff {f : Char → Option ℕ} {cs : List Char} :
    (cs.mapM f).isSome ↔ ∀ c ∈ cs, (f c).isSome := by
  induction cs with
  | nil => simp
  | cons c cs ih =>
    rw [List.mapM_cons, List.forall_mem_cons, ← ih]
    cases f c with
    | none => simp
    | some v => cases cs.mapM f <;> simp

theorem decodeQuintets_isSome_iff {cs : List Char} :
    (decodeQuintets cs).isSome ↔ ∀ c ∈ cs, (base32Value c.toUpper).isSome := by
  rw [decodeQuintets, Option.isSome_map, mapM_isSome_iff]

/-- Letters in either case are ASCII. -/
theorem toNat_lt_of_toUpper {c : Char} (h : (base32Value c.toUpper).isSome) : c.toNat < 128 := by
  unfold Char.toUpper at h
  split at h
  · next hlower => exact lt_of_le_of_lt (UInt32.le_iff_toNat_le.1 hlower.2) (by decide)
  · exact toNat_lt_of_base32Value (Or.inl h)

/-- The decoder of letters in upper case skips line breaks. -/
theorem decodeBase32_isSome_iff {cs : List Char} :
    (decodeBase32 cs).isSome ↔ ∀ c ∈ cs, (base32Value c).isSome ∨ isNewline c = true := by
  rw [decodeBase32, Option.isSome_map, mapM_isSome_iff]
  constructor
  · intro h c hc
    by_cases hnew : isNewline c = true
    · exact Or.inr hnew
    · exact Or.inl (h c (List.mem_filter.2 ⟨hc, by simpa using hnew⟩))
  · intro h c hc
    obtain ⟨hmem, hnew⟩ := List.mem_filter.1 hc
    rcases h c hmem with hvalue | hbreak
    · exact hvalue
    · rw [hbreak] at hnew
      cases hnew

theorem decodeQuintets_eq_some {cs : List Char} {bytes : List ℕ} (hlen : cs.length % 8 = 0)
    (h : decodeQuintets cs = some bytes) :
    5 * cs.length = 8 * bytes.length ∧ ∀ b ∈ bytes, b < 256 := by
  obtain ⟨values, hvalues, rfl⟩ := Option.map_eq_some_iff.1 h
  obtain ⟨hcount, hall, -⟩ := mapM_base32_spec hvalues
  rw [← hcount] at hlen ⊢
  exact packQuintets_groups hlen hall

/-- Whole groups of letters for the same bytes differ in case at most. -/
theorem decodeQuintets_inj {cs cs' : List Char} {bytes : List ℕ} (hlen : cs.length % 8 = 0)
    (hlen' : cs'.length = cs.length) (h : decodeQuintets cs = some bytes)
    (h' : decodeQuintets cs' = some bytes) : cs.map Char.toUpper = cs'.map Char.toUpper := by
  obtain ⟨values, hvalues, rfl⟩ := Option.map_eq_some_iff.1 h
  obtain ⟨values', hvalues', hsame⟩ := Option.map_eq_some_iff.1 h'
  obtain ⟨hcount, hall, hletters⟩ := mapM_base32_spec hvalues
  obtain ⟨hcount', hall', hletters'⟩ := mapM_base32_spec hvalues'
  obtain rfl := packQuintets_inj (by rw [hcount]; exact hlen) (by rw [hcount, hcount', hlen']) hall
    hall' hsame.symm
  rw [hletters, hletters']

theorem decodeQuintets_map_toUpper : ∀ {cs : List Char}, (decodeQuintets cs).isSome →
    decodeQuintets (cs.map Char.toUpper) = decodeQuintets cs := by
  intro cs h
  have hletters := decodeQuintets_isSome_iff.1 h
  have hsame : ∀ c ∈ cs, base32Value c.toUpper.toUpper = base32Value c.toUpper := by
    intro c hc
    have hletter := hletters c hc
    have hascii := toNat_lt_of_base32Value (Or.inl hletter)
    rw [ascii_cases (P := fun d => (base32Value d).isSome → d.toUpper = d) (by decide) _ hascii hletter]
  rw [decodeQuintets, decodeQuintets]
  congr 1
  clear h hletters
  induction cs with
  | nil => rfl
  | cons c cs ih =>
    rw [List.map_cons, List.mapM_cons, List.mapM_cons, hsame c List.mem_cons_self,
      ih fun d hd => hsame d (List.mem_cons_of_mem c hd)]

/-! ## Strings of ASCII characters -/

namespace ByteText

/-- The bytes of a string, as characters. -/
def byteChars (t : ByteText) : List Char := (bytes t).map Char.ofNat

theorem bytes_map_char {cs : List Char} (h : ∀ c ∈ cs, c.toNat < 128) :
    bytes (cs.map .char) = cs.map Char.toNat := by
  rw [bytes, List.flatMap_map]
  induction cs with
  | nil => rfl
  | cons c cs ih =>
    have hc : Piece.bytes (.char c) = [c.toNat] := if_pos (h c List.mem_cons_self)
    rw [List.flatMap_cons, hc, ih fun d hd => h d (List.mem_cons_of_mem c hd), List.map_cons,
      List.singleton_append]

@[simp] theorem byteChars_map_char {cs : List Char} (h : ∀ c ∈ cs, c.toNat < 128) :
    byteChars (cs.map .char) = cs := by
  rw [byteChars, bytes_map_char h, List.map_map]
  have hself : Char.ofNat ∘ Char.toNat = id := funext Char.ofNat_toNat
  rw [hself, List.map_id]

theorem byteLength_char (c : Char) : byteLength [Piece.char c] = c.utf8Size := by
  have hle : ∀ n : UInt32, c.val ≤ n ↔ c.toNat < n.toNat + 1 := fun n =>
    UInt32.le_iff_toNat_le.trans Nat.lt_succ_iff.symm
  rw [byteLength, bytes, List.flatMap_singleton]
  simp only [Piece.bytes, Char.utf8Size, hle]
  split_ifs with h₁ h₂ h₃ h₄ h₅ h₆ <;> first | rfl | (exfalso; simp at *; omega)

theorem byteLength_text (s : String) : byteLength (text s) = Library.byteLength s := by
  unfold text Library.byteLength
  induction s.toList with
  | nil => rfl
  | cons c cs ih =>
    have hsplit : (c :: cs).map Piece.char = [Piece.char c] ++ cs.map Piece.char := rfl
    rw [hsplit, byteLength_append, ih, List.map_cons, List.sum_cons, byteLength_char]

theorem text_eq_map_char {s : String} {cs : List Char} (h : text s = cs.map .char) :
    s.toList = cs :=
  List.map_injective_iff.2 (fun _ _ => Piece.char.inj) h

/-- A string without stray bytes consists of characters. -/
theorem exists_chars {t : ByteText} (h : ∀ p ∈ t, ∃ c, p = .char c) :
    ∃ cs : List Char, t = cs.map .char := by
  refine ⟨runes t, ?_⟩
  rw [runes, List.map_map]
  refine (List.map_id' t).symm.trans (List.map_congr_left fun p hp => ?_)
  obtain ⟨c, rfl⟩ := h p hp
  rfl

/-- A piece with a byte of ASCII is an ASCII character. -/
theorem ascii_piece {p : Piece} (h : ∀ n ∈ p.bytes, n < 128) : ∃ c, p = .char c ∧ c.toNat < 128 := by
  cases p with
  | stray b =>
    have hbyte := h (0x80 + b.val) (List.mem_singleton.2 rfl)
    omega
  | char c =>
    refine ⟨c, rfl, ?_⟩
    by_contra hlarge
    have hhead : ∃ n ∈ Piece.bytes (.char c), 128 ≤ n := by
      have hc : ¬ c.toNat < 0x80 := hlarge
      simp only [Piece.bytes, if_neg hc]
      split_ifs
      · exact ⟨_, List.mem_cons_self, by omega⟩
      · exact ⟨_, List.mem_cons_self, by omega⟩
      · exact ⟨_, List.mem_cons_self, by omega⟩
    obtain ⟨n, hn, hle⟩ := hhead
    exact absurd (h n hn) (by omega)

/-- A string whose bytes are ASCII consists of ASCII characters. -/
theorem ascii_of_bytes {t : ByteText} (h : ∀ n ∈ bytes t, n < 128) :
    ∃ cs : List Char, t = cs.map .char ∧ ∀ c ∈ cs, c.toNat < 128 := by
  induction t with
  | nil => exact ⟨[], rfl, nofun⟩
  | cons p t ih =>
    obtain ⟨c, rfl, hc⟩ := ascii_piece fun n hn => h n (List.mem_flatMap.2 ⟨p, List.mem_cons_self, hn⟩)
    obtain ⟨cs, rfl, hcs⟩ := ih fun n hn => by
      obtain ⟨q, hq, hn⟩ := List.mem_flatMap.1 hn
      exact h n (List.mem_flatMap.2 ⟨q, List.mem_cons_of_mem _ hq, hn⟩)
    exact ⟨c :: cs, rfl, List.forall_mem_cons.2 ⟨hc, hcs⟩⟩

/-- A byte that is read as an ASCII character other than zero is one. -/
theorem lt_of_ofNat {n : ℕ} (h : (Char.ofNat n).toNat < 128) (hzero : Char.ofNat n ≠ '\x00') :
    n < 128 := by
  by_cases hn : n.isValidChar
  · have hsame : (Char.ofNat n).toNat = n := by
      rw [Char.ofNat, dif_pos hn]
      rfl
    rwa [hsame] at h
  · rw [Char.ofNat, dif_neg hn] at hzero
    exact absurd rfl hzero

/-- A string that a decoder reads as ASCII characters consists of them. -/
theorem ascii_of_byteChars {t : ByteText} {P : Char → Prop} (hascii : ∀ c, P c → c.toNat < 128)
    (hzero : ¬ P '\x00') (h : ∀ c ∈ byteChars t, P c) :
    ∃ cs : List Char, t = cs.map .char ∧ (∀ c ∈ cs, c.toNat < 128) ∧ ∀ c ∈ cs, P c := by
  have hbytes : ∀ n ∈ bytes t, n < 128 := by
    intro n hn
    have hP := h _ (List.mem_map_of_mem hn)
    exact lt_of_ofNat (hascii _ hP) fun heq => hzero (heq ▸ hP)
  obtain ⟨cs, rfl, hcs⟩ := ascii_of_bytes hbytes
  rw [byteChars_map_char hcs] at h
  exact ⟨cs, rfl, hcs, h⟩

end ByteText

end BlackPearl.Library
