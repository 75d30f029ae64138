import BlackPearl.Acquisition.InfoHash
import BlackPearl.Acquisition.Material

/-!
# Transient torrent locators

The magnets and torrent files of `internal/acquisition/material.go` that are checked against the info
hash of a selected release. Both checks compare hashes as texts, up to case: a magnet with the hash in
the other encoding, and a file for a hash in base32, are refused.
-/

set_option autoImplicit false

namespace BlackPearl.Acquisition

open BlackPearl.Library

/-- The classes of characters that differ in case only, each given by one of its characters. -/
class FoldTables where
  fold : Char → Char
  fold_ascii : ∀ c d : Char, c.toNat < 128 → d.toNat < 128 → (fold c = fold d ↔ c.toLower = d.toLower)

/-- Tables that are right for ASCII alone. -/
@[reducible] def FoldTables.ascii : FoldTables where
  fold := Char.toLower
  fold_ascii _ _ _ _ := Iff.rfl

/-- `strings.EqualFold`. -/
def equalFold [FoldTables] (s t : String) : Bool :=
  s.toList.map FoldTables.fold = t.toList.map FoldTables.fold

/-- `TorrentInput`; a magnet or a file. -/
inductive TorrentInput
  | magnet (infoHash magnet : String)
  | file (infoHash : String) (payload : Bytes)
  deriving DecidableEq, Repr

/-- `TorrentInput.InfoHash`. -/
def TorrentInput.infoHash : TorrentInput → String
  | .magnet infoHash _ => infoHash
  | .file infoHash _ => infoHash

/-- `MaximumTorrentFileBytes`. -/
def maximumTorrentFileBytes : ℕ := 4 * 2 ^ 20

section Inputs

variable [TextTables] [FoldTables]

/-- The hash that a torrent input must have. -/
def expectedInfoHash (hash : String) : Checked String :=
  match normalizeInfoHash hash with
  | .ok expected =>
      if expected = "" then .error "torrent input requires a valid expected info hash" else .ok expected
  | .error _ => .error "torrent input requires a valid expected info hash"

/-- Whether an exact topic names the hash. -/
def topicMatches (expected topic : String) : Bool :=
  match btihTopic topic with
  | none => false
  | some hash =>
      match normalizeInfoHash hash with
      | .ok normal => equalFold normal expected
      | .error _ => false

/-- `NewMagnetTorrentInput`. -/
def newMagnetTorrentInput [URLParser] (hash magnet : String) : Checked TorrentInput := do
  let expected ← expectedInfoHash hash
  within "validate torrent input magnet" (validateMagnetURL magnet)
  match URLParser.parse magnet with
  | none => .error "parse torrent input magnet"
  | some parsed => do
      require (parsed.exactTopics.any (topicMatches expected) = true)
        "torrent input magnet does not match selected info hash"
      return .magnet expected magnet

/-- `NewTorrentFileInput`. -/
def newTorrentFileInput (sha1 : Bytes → Bytes) (hash : String) (payload : Bytes) :
    Parsed TorrentInput :=
  match expectedInfoHash hash with
  | .error message => refused message
  | .ok expected =>
      if payload.length = 0 then refused "torrent file is required"
      else if maximumTorrentFileBytes < payload.length then
        refused ("torrent file exceeds " ++ toString maximumTorrentFileBytes ++ " bytes")
      else do
        let actual ← wrapped "validate torrent file" (rawTorrentInfoHash sha1 payload)
        if equalFold actual expected then return .file expected payload
        else refused "torrent file info hash does not match selected release"

end Inputs

/-! ## Spellings of info hashes -/

/-- Texts that lower case makes equal have equal upper case, if they are ASCII. -/
theorem map_toUpper_of_toLower {cs ds : List Char} (hcs : ∀ c ∈ cs, c.toNat < 128)
    (hds : ∀ d ∈ ds, d.toNat < 128) (h : cs.map Char.toLower = ds.map Char.toLower) :
    cs.map Char.toUpper = ds.map Char.toUpper := by
  have hupper : ∀ l : List Char, (∀ c ∈ l, c.toNat < 128) →
      (l.map Char.toLower).map Char.toUpper = l.map Char.toUpper := by
    intro l hl
    rw [List.map_map]
    exact List.map_congr_left fun c hc =>
      ascii_cases (P := fun c => c.toLower.toUpper = c.toUpper) (by decide) c (hl c hc)
  rw [← hupper cs hcs, h, hupper ds hds]

theorem map_toLower_of_toUpper {cs ds : List Char} (hcs : ∀ c ∈ cs, c.toNat < 128)
    (hds : ∀ d ∈ ds, d.toNat < 128) (h : cs.map Char.toUpper = ds.map Char.toUpper) :
    cs.map Char.toLower = ds.map Char.toLower := by
  have hlower : ∀ l : List Char, (∀ c ∈ l, c.toNat < 128) →
      (l.map Char.toUpper).map Char.toLower = l.map Char.toLower := by
    intro l hl
    rw [List.map_map]
    exact List.map_congr_left fun c hc =>
      ascii_cases (P := fun c => c.toUpper.toLower = c.toLower) (by decide) c (hl c hc)
  rw [← hlower cs hcs, h, hlower ds hds]

/-- Two spellings differ in case only exactly if they spell the same hash in the same encoding. -/
theorem map_toLower_eq_iff {cs ds : List Char} {a b : List ℕ} (hcs : spelledHash cs = some a)
    (hds : spelledHash ds = some b) :
    cs.map Char.toLower = ds.map Char.toLower ↔ a = b ∧ cs.length = ds.length := by
  have hca := (spelledHash_eq_some hcs).2.2
  have hda := (spelledHash_eq_some hds).2.2
  constructor
  · intro h
    have hlen : cs.length = ds.length := by
      rw [← List.length_map Char.toLower, h, List.length_map]
    refine ⟨?_, hlen⟩
    have hupper := map_toUpper_of_toLower hca hda h
    -- both are read in the same case
    have hsame : normalSpelling cs = normalSpelling ds := by
      rw [normalSpelling, normalSpelling, hlen, h, hupper]
    have hcs' := spelledHash_normalSpelling hcs
    rw [hsame, spelledHash_normalSpelling hds] at hcs'
    exact (Option.some.inj hcs').symm
  · rintro ⟨rfl, hlen⟩
    unfold spelledHash at hcs hds
    rw [← hlen] at hds
    split_ifs at hcs hds with h40 h32
    · exact decodeHex_inj hcs hds
    · exact map_toLower_of_toUpper hca hda (decodeQuintets_inj (by omega) hlen.symm hcs hds)

end BlackPearl.Acquisition
