import BlackPearl.Setup.Manifest
import BlackPearl.Library.Base64
import BlackPearl.Library.Utf8

/-!
# The identity of an archive file

`encodeFileObjectID` and `decodeFileObjectID` of `internal/gateway/internetarchive/files.go`. The
identity of published media is the item and the name of the file, both in base64. Strings are bytes
here, since decoding may give any.

The library's decoder accepts many spellings of the same bytes. The gateway encodes again what it
decoded and compares, so that each file has one identity: `fileObjectID_codec`.
-/

set_option autoImplicit false

namespace BlackPearl.InternetArchive

open BlackPearl.Library BlackPearl.Setup

/-- `FileProviderName`. -/
def fileProviderName : String := "internet-archive-file"

def maximumRangeObjectIDBytes : ℕ := 512

/-- The bytes of a text of ASCII characters. -/
def asciiBytes (s : String) : List UInt8 := s.toList.map fun c => UInt8.ofNat c.toNat

/-- The letter between the two parts of an identity. -/
def separator : UInt8 := 126

section Codec

variable [TextTables]

/-! ## The codec -/

/-- Whether `archiveTorrentURL` accepts an item; `joins` is whether `url.JoinPath` does. -/
def archiveTorrentURL (joins : List UInt8 → Bool) (identifier : List UInt8) : Bool :=
  !(identifier = [] || identifier = asciiBytes "." || identifier = asciiBytes ".." ||
    identifier.any fun b => (asciiBytes "/\\?#").contains b) && joins identifier

/-- `encodeFileObjectID`. -/
def encodeFileObjectID (joins : List UInt8 → Bool) (identifier filename : List UInt8) :
    Checked (List UInt8) := do
  require (archiveTorrentURL joins identifier = true) "invalid Archive file identifier"
  require ((newProviderMediaCandidate ⟨text fileProviderName, text "validation"⟩
    (ByteText.ofBytes filename) 1).isOk = true) "invalid Archive file name"
  let encoded := encodeBase64 identifier ++ separator :: encodeBase64 filename
  require (encoded.length ≤ maximumRangeObjectIDBytes) "archive file identity is too long"
  return encoded

/-- `decodeFileObjectID`. -/
def decodeFileObjectID (joins : List UInt8 → Bool) (objectID : List UInt8) :
    Checked (List UInt8 × List UInt8) :=
  if objectID.length = 0 ∨ maximumRangeObjectIDBytes < objectID.length ∨
      objectID.count separator ≠ 1 then
    .error "invalid Archive file identity"
  else
    match decodeBase64 (objectID.takeWhile (· ≠ separator)),
        decodeBase64 ((objectID.dropWhile (· ≠ separator)).drop 1) with
    | some identifier, some filename =>
      match encodeFileObjectID joins identifier filename with
      | .ok reencoded =>
        if reencoded = objectID then .ok (identifier, filename)
        else .error "invalid Archive file identity"
      | .error _ => .error "invalid Archive file identity"
    | _, _ => .error "invalid Archive file identity"

/-! ## One identity for each file -/

omit [TextTables] in
/-- The separator is not a letter of the encoding. -/
theorem separator_not_mem_encodeBase64 (bytes : List UInt8) : separator ∉ encodeBase64 bytes := by
  intro h
  have hsome := sextetValue_isSome_of_mem h
  revert hsome
  decide

omit [TextTables] in
theorem sextetLetter_lt : ∀ n < 64, (sextetLetter n).toNat < 128 := by decide

/-- What is decoded is what encodes to the identity. -/
theorem encodeFileObjectID_of_decode {joins : List UInt8 → Bool} {objectID : List UInt8}
    {file : List UInt8 × List UInt8} (h : decodeFileObjectID joins objectID = .ok file) :
    encodeFileObjectID joins file.1 file.2 = .ok objectID := by
  unfold decodeFileObjectID at h
  split at h
  · cases h
  · split at h
    · split at h
      · rename_i reencoded hencode
        split at h
        · rename_i hsame
          cases h
          exact hsame ▸ hencode
        · cases h
      · cases h
    · cases h

theorem encodeFileObjectID_eq_ok {joins : List UInt8 → Bool} {identifier filename o : List UInt8}
    (h : encodeFileObjectID joins identifier filename = .ok o) :
    o = encodeBase64 identifier ++ separator :: encodeBase64 filename ∧
      o.length ≤ maximumRangeObjectIDBytes := by
  simp only [encodeFileObjectID, bind_eq_ok, pure_eq_ok, require_eq_ok] at h
  obtain ⟨_, -, _, -, _, hlength, rfl⟩ := h
  exact ⟨rfl, hlength⟩

/-- An identity is ASCII. -/
theorem encodeFileObjectID_ascii {joins : List UInt8 → Bool} {identifier filename o : List UInt8}
    (h : encodeFileObjectID joins identifier filename = .ok o) {b : UInt8} (hb : b ∈ o) :
    b.toNat < 128 := by
  have hletters : ∀ bytes, b ∈ encodeBase64 bytes → b.toNat < 128 := by
    intro bytes hmem
    obtain ⟨n, hn, rfl⟩ := List.mem_map.1 hmem
    exact sextetLetter_lt n (toSextets_lt hn)
  rw [(encodeFileObjectID_eq_ok h).1] at hb
  rcases List.mem_append.1 hb with hb | hb
  · exact hletters identifier hb
  · rcases List.mem_cons.1 hb with rfl | hb
    · decide
    · exact hletters filename hb

/-- An identity decodes to what was encoded. -/
theorem decodeFileObjectID_of_encode {joins : List UInt8 → Bool}
    {identifier filename objectID : List UInt8}
    (h : encodeFileObjectID joins identifier filename = .ok objectID) :
    decodeFileObjectID joins objectID = .ok (identifier, filename) := by
  obtain ⟨hobject, hlength⟩ := encodeFileObjectID_eq_ok h
  have hfree : ∀ b ∈ encodeBase64 identifier, decide (b ≠ separator) = true := by
    intro b hb
    rw [decide_eq_true_eq]
    rintro rfl
    exact separator_not_mem_encodeBase64 identifier hb
  have hfirst : objectID.takeWhile (· ≠ separator) = encodeBase64 identifier := by
    rw [hobject, List.takeWhile_append_of_pos hfree, List.takeWhile_cons_of_neg (by simp),
      List.append_nil]
  have hrest : (objectID.dropWhile (· ≠ separator)).drop 1 = encodeBase64 filename := by
    rw [hobject, List.dropWhile_append_of_pos hfree, List.dropWhile_cons_of_neg (by simp)]
    rfl
  have hcount : objectID.count separator = 1 := by
    rw [hobject, List.count_append, List.count_cons_self,
      List.count_eq_zero.2 (separator_not_mem_encodeBase64 identifier),
      List.count_eq_zero.2 (separator_not_mem_encodeBase64 filename)]
  have haccepted : ¬ (objectID.length = 0 ∨ maximumRangeObjectIDBytes < objectID.length ∨
      objectID.count separator ≠ 1) := by
    have hpos : objectID.length ≠ 0 := by
      rw [hobject, List.length_append, List.length_cons]
      omega
    rw [hcount]
    omega
  rw [decodeFileObjectID, if_neg haccepted, hfirst, hrest, decodeBase64_encodeBase64,
    decodeBase64_encodeBase64]
  dsimp only
  rw [h]
  dsimp only
  rw [if_pos rfl]

/-- Decoding gives a file exactly for the identity that encoding gives it: so no two files share an
identity, decoding undoes encoding, and no file has two identities. -/
theorem fileObjectID_codec (joins : List UInt8 → Bool) :
    (∀ objectID identifier filename,
      decodeFileObjectID joins objectID = .ok (identifier, filename) ↔
        encodeFileObjectID joins identifier filename = .ok objectID) ∧
    (∀ identifier filename identifier' filename' objectID,
      encodeFileObjectID joins identifier filename = .ok objectID →
      encodeFileObjectID joins identifier' filename' = .ok objectID →
        identifier = identifier' ∧ filename = filename') ∧
    (∀ objectID objectID' file, decodeFileObjectID joins objectID = .ok file →
      decodeFileObjectID joins objectID' = .ok file → objectID = objectID') := by
  refine ⟨fun objectID identifier filename => ⟨encodeFileObjectID_of_decode,
    decodeFileObjectID_of_encode⟩, ?_, ?_⟩
  · intro identifier filename identifier' filename' objectID h h'
    have hfile := (decodeFileObjectID_of_encode h).symm.trans (decodeFileObjectID_of_encode h')
    exact Prod.mk.inj (Except.ok.inj hfile)
  · intro objectID objectID' file h h'
    exact Except.ok.inj ((encodeFileObjectID_of_decode h).symm.trans
      (encodeFileObjectID_of_decode h'))

end Codec

end BlackPearl.InternetArchive
