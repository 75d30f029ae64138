import BlackPearl.Acquisition.Job
import BlackPearl.Library.Encoding

/-!
# Info hashes

An info hash is twenty bytes, written as 40 hexadecimal digits or as 32 base32 letters in either case
(`spelledHash`). `normalizeInfoHash` accepts more: the base32 decoder skips line breaks, and a letter
that is not ASCII can have an ASCII letter as its upper case. What it returns then denotes fewer bytes,
and may be refused the next time.
-/

set_option autoImplicit false

namespace BlackPearl.Acquisition

open BlackPearl.Library BlackPearl.Library.ByteText

/-- The bytes of an info hash that is written as the grammar of hashes has it. -/
def spelledHash (cs : List Char) : Option (List ℕ) :=
  if cs.length = 40 then decodeHex cs else if cs.length = 32 then decodeQuintets cs else none

theorem spelledHash_eq_some {cs : List Char} {hash : List ℕ} (h : spelledHash cs = some hash) :
    hash.length = 20 ∧ (∀ b ∈ hash, b < 256) ∧ ∀ c ∈ cs, c.toNat < 128 := by
  unfold spelledHash at h
  split_ifs at h with h40 h32
  · obtain ⟨hlen, hbytes⟩ := decodeHex_eq_some h
    have hdigits := hexValue_of_decodeHex (Option.isSome_iff_exists.2 ⟨hash, h⟩)
    exact ⟨by omega, hbytes, fun c hc => toNat_lt_of_hexValue (hdigits c hc)⟩
  · obtain ⟨hlen, hbytes⟩ := decodeQuintets_eq_some (by omega) h
    have hletters := decodeQuintets_isSome_iff.1 (Option.isSome_iff_exists.2 ⟨hash, h⟩)
    exact ⟨by omega, hbytes, fun c hc => toNat_lt_of_toUpper (hletters c hc)⟩

/-- The text is a spelling of the hash. -/
def Spells (value : ByteText) (hash : List ℕ) : Prop :=
  ∃ cs : List Char, value = cs.map .char ∧ spelledHash cs = some hash

/-- The spelling of an info hash that normalization gives. -/
def normalSpelling (cs : List Char) : List Char :=
  if cs.length = 40 then cs.map Char.toLower else cs.map Char.toUpper

@[simp] theorem length_normalSpelling (cs : List Char) : (normalSpelling cs).length = cs.length := by
  unfold normalSpelling
  split <;> exact List.length_map _

theorem spelledHash_normalSpelling {cs : List Char} {hash : List ℕ}
    (h : spelledHash cs = some hash) : spelledHash (normalSpelling cs) = some hash := by
  unfold spelledHash at h
  split_ifs at h with h40 h32
  · rw [spelledHash, length_normalSpelling, if_pos h40, normalSpelling, if_pos h40,
      decodeHex_map_toLower (Option.isSome_iff_exists.2 ⟨hash, h⟩), h]
  · rw [spelledHash, length_normalSpelling, if_neg h40, if_pos h32, normalSpelling, if_neg h40,
      decodeQuintets_map_toUpper (Option.isSome_iff_exists.2 ⟨hash, h⟩), h]

theorem normalSpelling_normalSpelling {cs : List Char} {hash : List ℕ}
    (h : spelledHash cs = some hash) : normalSpelling (normalSpelling cs) = normalSpelling cs := by
  have hascii := (spelledHash_eq_some h).2.2
  have hlower : ∀ c ∈ cs, c.toLower.toLower = c.toLower := fun c hc =>
    ascii_cases (P := fun c => c.toLower.toLower = c.toLower) (by decide) c (hascii c hc)
  have hupper : ∀ c ∈ cs, c.toUpper.toUpper = c.toUpper := fun c hc =>
    ascii_cases (P := fun c => c.toUpper.toUpper = c.toUpper) (by decide) c (hascii c hc)
  by_cases h40 : cs.length = 40
  · rw [normalSpelling, length_normalSpelling, if_pos h40, normalSpelling, if_pos h40, List.map_map]
    exact List.map_congr_left hlower
  · rw [normalSpelling, length_normalSpelling, if_neg h40, normalSpelling, if_neg h40, List.map_map]
    exact List.map_congr_left hupper

/-! ## Normalization of strings of bytes -/

theorem decodeHex_byteChars {value : ByteText} (hlen : ByteText.byteLength value = 40) :
    (decodeHex (byteChars value)).isSome ↔
      ∃ cs : List Char, value = cs.map .char ∧ cs.length = 40 ∧ ∀ c ∈ cs, (hexValue c).isSome := by
  constructor
  · intro h
    obtain ⟨cs, rfl, hascii, hcs⟩ := ascii_of_byteChars (P := fun c => (hexValue c).isSome)
      (fun c => toNat_lt_of_hexValue) (by decide) (hexValue_of_decodeHex h)
    rw [byteLength_ascii hascii] at hlen
    exact ⟨cs, rfl, hlen, hcs⟩
  · rintro ⟨cs, rfl, hcount, hcs⟩
    rw [byteChars_map_char fun c hc => toNat_lt_of_hexValue (hcs c hc)]
    exact decodeHex_isSome (by rw [hcount]) hcs

section Normalization

variable [TextTables]

/-- `normalizeInfoHash`, on strings that need not be UTF-8. -/
def normalizeInfoHashBytes (value : ByteText) : Checked ByteText :=
  if value = [] then .ok []
  else if ByteText.byteLength value = 40 then
    if (decodeHex (byteChars value)).isSome then .ok (toLower value)
    else .error "release info hash must be hexadecimal SHA-1 or base32 BTIH"
  else if ByteText.byteLength value = 32 then
    if (decodeBase32 (byteChars (toUpper value))).isSome then .ok (toUpper value)
    else .error "release info hash must be hexadecimal SHA-1 or base32 BTIH"
  else .error "release info hash must be hexadecimal SHA-1 or base32 BTIH"

/-- A character that the base32 decoder passes once it is in upper case. -/
def Lenient (c : Char) : Prop :=
  (base32Value (TextTables.toUpper c)).isSome ∨ isNewline (TextTables.toUpper c) = true

/-- The condition for normalization: a string of 32 bytes that the base32 decoder passes has ASCII
characters only, and no line break. -/
def PlainHash (value : ByteText) : Prop :=
  ByteText.byteLength value = 32 → (∀ p ∈ value, ∃ c, p = .char c ∧ Lenient c) →
    ∀ c, Piece.char c ∈ value → c.toNat < 128 ∧ isNewline c = false

/-- What upper case makes of a string of which it leaves characters only. -/
theorem toUpper_map_char (cs : List Char) :
    toUpper (cs.map .char) = (cs.map TextTables.toUpper).map .char := by
  rw [toUpper, List.map_map, List.map_map]
  rfl

theorem decodeBase32_byteChars {value : ByteText} :
    (decodeBase32 (byteChars (toUpper value))).isSome ↔ ∀ p ∈ value, ∃ c, p = .char c ∧ Lenient c := by
  rw [decodeBase32_isSome_iff]
  constructor
  · intro h p hp
    obtain ⟨cs, hupper, -, hcs⟩ := ascii_of_byteChars
      (P := fun c => (base32Value c).isSome ∨ isNewline c = true)
      (fun c => toNat_lt_of_base32Value) (by decide) h
    cases p with
    | stray b =>
      have hmem : Piece.char '\uFFFD' ∈ toUpper value := List.mem_map.2 ⟨_, hp, rfl⟩
      rw [hupper, List.mem_map] at hmem
      obtain ⟨c, hc, hsame⟩ := hmem
      rw [Piece.char.injEq] at hsame
      have hascii := toNat_lt_of_base32Value (hcs c hc)
      rw [hsame] at hascii
      exact absurd hascii (by decide)
    | char c =>
      have hmem : Piece.char (TextTables.toUpper c) ∈ toUpper value := List.mem_map.2 ⟨_, hp, rfl⟩
      rw [hupper, List.mem_map] at hmem
      obtain ⟨d, hd, hsame⟩ := hmem
      rw [Piece.char.injEq] at hsame
      have hletter := hcs d hd
      rw [hsame] at hletter
      exact ⟨c, rfl, hletter⟩
  · intro h
    obtain ⟨cs, rfl⟩ := exists_chars fun p hp => (h p hp).imp fun c hc => hc.1
    have hcs : ∀ c ∈ cs, Lenient c := by
      intro c hc
      obtain ⟨d, hd, hlenient⟩ := h (.char c) (List.mem_map_of_mem hc)
      rw [Piece.char.injEq] at hd
      rwa [hd]
    have hupper : ∀ c ∈ cs.map TextTables.toUpper, (base32Value c).isSome ∨ isNewline c = true := by
      intro c hc
      obtain ⟨d, hd, rfl⟩ := List.mem_map.1 hc
      exact hcs d hd
    rw [toUpper_map_char, byteChars_map_char fun c hc => toNat_lt_of_base32Value (hupper c hc)]
    exact hupper

/-- A spelling of an info hash is accepted, and its normal spelling returned. -/
theorem normalizeInfoHashBytes_spelled {cs : List Char} {hash : List ℕ}
    (h : spelledHash cs = some hash) :
    normalizeInfoHashBytes (cs.map .char) = .ok ((normalSpelling cs).map .char) := by
  have hascii := (spelledHash_eq_some h).2.2
  have hlen := byteLength_ascii hascii
  unfold spelledHash at h
  split_ifs at h with h40 h32
  · have hne : cs.map Piece.char ≠ [] := by
      rintro hnil
      rw [List.map_eq_nil_iff.1 hnil] at h40
      cases h40
    have hdigits := hexValue_of_decodeHex (Option.isSome_iff_exists.2 ⟨hash, h⟩)
    rw [normalizeInfoHashBytes, if_neg hne, hlen, if_pos h40,
      if_pos ((decodeHex_byteChars (hlen.trans h40)).2 ⟨cs, rfl, h40, hdigits⟩), normalSpelling,
      if_pos h40, toLower, List.map_map, List.map_map]
    congr 1
    apply List.map_congr_left
    intro c hc
    simp only [Function.comp_apply, TextTables.toLower_ascii c (hascii c hc)]
  · have hne : cs.map Piece.char ≠ [] := by
      rintro hnil
      rw [List.map_eq_nil_iff.1 hnil] at h32
      cases h32
    have hletters := decodeQuintets_isSome_iff.1 (Option.isSome_iff_exists.2 ⟨hash, h⟩)
    have hupper : ∀ c ∈ cs, TextTables.toUpper c = c.toUpper := fun c hc =>
      TextTables.toUpper_ascii c (hascii c hc)
    have hlenient : ∀ p ∈ cs.map Piece.char, ∃ c, p = .char c ∧ Lenient c := by
      intro p hp
      obtain ⟨c, hc, rfl⟩ := List.mem_map.1 hp
      refine ⟨c, rfl, Or.inl ?_⟩
      rw [hupper c hc]
      exact hletters c hc
    rw [normalizeInfoHashBytes, if_neg hne, hlen, if_neg h40, if_pos h32,
      if_pos (decodeBase32_byteChars.2 hlenient), normalSpelling, if_neg h40, toUpper_map_char,
      List.map_congr_left hupper]

/-- Normalization accepts spellings of info hashes, and strings of 32 bytes that the base32 decoder
passes. -/
theorem normalizeInfoHashBytes_isOk_iff {value : ByteText} (hne : value ≠ []) :
    (∃ normal, normalizeInfoHashBytes value = .ok normal) ↔
      (∃ hash, Spells value hash) ∨
        (ByteText.byteLength value = 32 ∧ ∀ p ∈ value, ∃ c, p = .char c ∧ Lenient c) := by
  constructor
  · rintro ⟨normal, h⟩
    rw [normalizeInfoHashBytes, if_neg hne] at h
    split_ifs at h with h40 hhex h32 hbase
    · obtain ⟨cs, rfl, hcount, hdigits⟩ := (decodeHex_byteChars h40).1 hhex
      obtain ⟨hash, hhash⟩ := Option.isSome_iff_exists.1 (decodeHex_isSome (by rw [hcount]) hdigits)
      exact Or.inl ⟨hash, cs, rfl, by rw [spelledHash, if_pos hcount, hhash]⟩
    · exact Or.inr ⟨h32, decodeBase32_byteChars.1 hbase⟩
  · rintro (⟨hash, cs, rfl, hhash⟩ | ⟨h32, hlenient⟩)
    · exact ⟨_, normalizeInfoHashBytes_spelled hhash⟩
    · refine ⟨toUpper value, ?_⟩
      rw [normalizeInfoHashBytes, if_neg hne, h32, if_neg (by decide), if_pos rfl,
        if_pos (decodeBase32_byteChars.2 hlenient)]

/-- Normalization accepts exactly the spellings of info hashes of twenty bytes, keeps their length and
their bytes, and returns what it returns for itself. -/
structure NormalizesHash (value : ByteText) : Prop where
  accepts : (∃ normal, normalizeInfoHashBytes value = .ok normal) ↔ ∃ hash, Spells value hash
  preserves : ∀ normal, normalizeInfoHashBytes value = .ok normal →
    ByteText.byteLength normal = ByteText.byteLength value ∧
      (∃ hash, hash.length = 20 ∧ Spells value hash ∧ Spells normal hash) ∧
      normalizeInfoHashBytes normal = .ok normal

/-- What the normal spelling of an info hash is worth. -/
theorem Spells.normalized {value : ByteText} {hash : List ℕ} (h : Spells value hash) :
    ∃ normal, normalizeInfoHashBytes value = .ok normal ∧
      ByteText.byteLength normal = ByteText.byteLength value ∧ hash.length = 20 ∧ Spells normal hash ∧
      normalizeInfoHashBytes normal = .ok normal := by
  obtain ⟨cs, rfl, hcs⟩ := h
  have hnormal := spelledHash_normalSpelling hcs
  have hagain := normalizeInfoHashBytes_spelled hnormal
  rw [normalSpelling_normalSpelling hcs] at hagain
  refine ⟨_, normalizeInfoHashBytes_spelled hcs, ?_, (spelledHash_eq_some hcs).1,
    ⟨_, rfl, hnormal⟩, hagain⟩
  rw [byteLength_ascii (spelledHash_eq_some hcs).2.2,
    byteLength_ascii (spelledHash_eq_some hnormal).2.2, length_normalSpelling]

/-- A string of 32 bytes that the base32 decoder passes spells an info hash exactly if it is plain. -/
theorem spells_iff_of_lenient {value : ByteText} (h32 : ByteText.byteLength value = 32)
    (hlenient : ∀ p ∈ value, ∃ c, p = .char c ∧ Lenient c) :
    (∃ hash, Spells value hash) ↔
      ∀ c, Piece.char c ∈ value → c.toNat < 128 ∧ isNewline c = false := by
  constructor
  · rintro ⟨hash, cs, rfl, hcs⟩ c hc
    obtain ⟨d, hd, hsame⟩ := List.mem_map.1 hc
    rw [Piece.char.injEq] at hsame
    subst hsame
    have hascii := (spelledHash_eq_some hcs).2.2
    refine ⟨hascii d hd, ?_⟩
    rw [byteLength_ascii hascii] at h32
    rw [spelledHash, if_neg (by omega), if_pos h32] at hcs
    have hletter := decodeQuintets_isSome_iff.1 (Option.isSome_iff_exists.2 ⟨hash, hcs⟩) d hd
    exact ascii_cases (P := fun c => (base32Value c.toUpper).isSome → isNewline c = false) (by decide)
      d (hascii d hd) hletter
  · intro hplain
    obtain ⟨cs, rfl⟩ := exists_chars fun p hp => (hlenient p hp).imp fun c hc => hc.1
    have hchars : ∀ c ∈ cs, c.toNat < 128 ∧ isNewline c = false := fun c hc =>
      hplain c (List.mem_map_of_mem hc)
    have hcount : cs.length = 32 := by
      rwa [byteLength_ascii fun c hc => (hchars c hc).1] at h32
    have hletters : ∀ c ∈ cs, (base32Value c.toUpper).isSome := by
      intro c hc
      obtain ⟨hascii, hbreak⟩ := hchars c hc
      obtain ⟨d, hd, hletter⟩ := hlenient (.char c) (List.mem_map_of_mem hc)
      rw [Piece.char.injEq] at hd
      subst hd
      rw [Lenient, TextTables.toUpper_ascii c hascii] at hletter
      refine hletter.resolve_right ?_
      have hkeeps := ascii_cases (P := fun c => isNewline c.toUpper = isNewline c) (by decide) c hascii
      rw [hkeeps, hbreak]
      decide
    obtain ⟨hash, hhash⟩ := Option.isSome_iff_exists.1 (decodeQuintets_isSome_iff.2 hletters)
    exact ⟨hash, cs, rfl, by rw [spelledHash, if_neg (by omega), if_pos hcount, hhash]⟩

theorem normalizesHash_iff {value : ByteText} (hne : value ≠ []) :
    NormalizesHash value ↔ PlainHash value := by
  constructor
  · intro h h32 hlenient
    have hok := (normalizeInfoHashBytes_isOk_iff hne).2 (Or.inr ⟨h32, hlenient⟩)
    exact (spells_iff_of_lenient h32 hlenient).1 (h.accepts.1 hok)
  · intro hplain
    have haccepts : (∃ normal, normalizeInfoHashBytes value = .ok normal) ↔
        ∃ hash, Spells value hash := by
      rw [normalizeInfoHashBytes_isOk_iff hne, or_iff_left_iff_imp]
      rintro ⟨h32, hlenient⟩
      exact (spells_iff_of_lenient h32 hlenient).2 (hplain h32 hlenient)
    refine ⟨haccepts, fun normal hnormal => ?_⟩
    obtain ⟨hash, hhash⟩ := haccepts.1 ⟨normal, hnormal⟩
    obtain ⟨normal', hnormal', hlen, hcount, hspells, hagain⟩ := hhash.normalized
    obtain rfl : normal' = normal := Except.ok.inj (hnormal'.symm.trans hnormal)
    exact ⟨hlen, ⟨hash, hcount, hhash, hspells⟩, hagain⟩

/-! ## Strings of characters -/

/-- Normalization of strings of bytes is that of strings of characters where these are such. -/
theorem normalizeInfoHashBytes_text (s : String) :
    normalizeInfoHashBytes (text s) = (normalizeInfoHash s).map text := by
  have hempty : text s = [] ↔ s = "" := by
    rw [text, List.map_eq_nil_iff, String.toList_eq_nil_iff]
  unfold normalizeInfoHashBytes normalizeInfoHash
  by_cases hne : s = ""
  · rw [if_pos (hempty.2 hne), if_pos hne]
    rfl
  rw [if_neg (hempty.not.2 hne), if_neg hne, byteLength_text]
  by_cases h40 : Library.byteLength s = 40
  · have hhex : (decodeHex (byteChars (text s))).isSome ↔ (decodeHex s.toList).isSome := by
      rw [decodeHex_byteChars ((byteLength_text s).trans h40)]
      constructor
      · rintro ⟨cs, hcs, hcount, hdigits⟩
        rw [text_eq_map_char hcs]
        exact decodeHex_isSome (by rw [hcount]) hdigits
      · intro h
        have hdigits := hexValue_of_decodeHex h
        refine ⟨s.toList, rfl, ?_, hdigits⟩
        rw [← h40, byteLength_of_ascii fun c hc => toNat_lt_of_hexValue (hdigits c hc)]
    have hlower : ByteText.toLower (text s) = text (toLowerString s) := by
      rw [ByteText.toLower, text, text, toLowerString, mapCase, String.toList_ofList, List.map_map,
        List.map_map]
      rfl
    rw [if_pos h40, if_pos h40, hlower]
    by_cases hdigits : (decodeHex s.toList).isSome
    · rw [if_pos (hhex.2 hdigits), if_pos hdigits]
      rfl
    · rw [if_neg (hhex.not.2 hdigits), if_neg hdigits]
      rfl
  rw [if_neg h40, if_neg h40]
  by_cases h32 : Library.byteLength s = 32
  · have hupper : toUpper (text s) = text (toUpperString s) := by
      rw [text, toUpper_map_char, text, toUpperString, mapCase, String.toList_ofList]
    have hbase : (decodeBase32 (byteChars (toUpper (text s)))).isSome ↔
        (decodeBase32 (toUpperString s).toList).isSome := by
      rw [decodeBase32_byteChars, decodeBase32_isSome_iff, toUpperString, mapCase,
        String.toList_ofList, List.forall_mem_map, text, List.forall_mem_map]
      constructor
      · intro h c hc
        obtain ⟨d, hd, hletter⟩ := h c hc
        rw [Piece.char.injEq] at hd
        rwa [hd]
      · exact fun h c hc => ⟨c, rfl, h c hc⟩
    rw [if_pos h32, if_pos h32, hupper]
    by_cases hletters : (decodeBase32 (toUpperString s).toList).isSome
    · rw [← hupper, if_pos (hbase.2 hletters), if_pos hletters, hupper]
      rfl
    · rw [← hupper, if_neg (hbase.not.2 hletters), if_neg hletters]
      rfl
  · rw [if_neg h32, if_neg h32]
    rfl

theorem normalizeInfoHash_eq_ok_iff {s hash : String} :
    normalizeInfoHash s = .ok hash ↔ normalizeInfoHashBytes (text s) = .ok (text hash) := by
  rw [normalizeInfoHashBytes_text]
  cases normalizeInfoHash s with
  | error message => simp [Except.map]
  | ok normal =>
    simp only [Except.map, Except.ok.injEq]
    exact text_injective.eq_iff.symm

end Normalization

end BlackPearl.Acquisition
