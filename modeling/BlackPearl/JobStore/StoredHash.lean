import BlackPearl.Acquisition.InfoHash
import BlackPearl.JobStore.Tables

/-!
# The hashes that are carried and stored

A release, a magnet or a selection that passes its checks carries an info hash that normalization has
accepted. It is of twenty bytes, and accepted again when a row is read back, exactly if the string it
came from is plain (`infoHash_normalization`).
-/

set_option autoImplicit false

namespace BlackPearl.JobStore

open BlackPearl.Library BlackPearl.Acquisition

section Carriers

variable [TextTables] [URLParser]

/-- The hash is one of twenty bytes that normalization returns as it is. -/
def Carried (hash : String) : Prop :=
  (∃ bytes, bytes.length = 20 ∧ Spells (text hash) bytes) ∧ normalizeInfoHash hash = .ok hash

/-- What carries the hash `value` carries twenty bytes that stay what they are: a release, a magnet all
of whose topics name the hash, and a selection, which is stored and read back. -/
structure CarriersKeep (value : ByteText) : Prop where
  release : ∀ input release, text input.infoHash = value → newRelease input = .ok release →
    Carried release.infoHash
  magnet : ∀ url parsed, URLParser.parse url = some parsed →
    (∀ topic ∈ parsed.exactTopics, ∀ hash ∈ btihTopic topic, text hash = value) →
    validateMagnetURL url = .ok () → ∃ bytes, bytes.length = 20 ∧ Spells value bytes
  selection : ∀ input release s, text input.infoHash = value → newRelease input = .ok release →
    newTorrentJobSelection release = .ok s → Carried s.infoHash ∧
      ∀ releaseContext selectionContext,
        persistedTorrent releaseContext selectionContext (selectionColumns s) = .ok s

omit [URLParser] in
theorem carried_of_normalizesHash {s hash : String} (h : NormalizesHash (text s))
    (hhash : normalizeInfoHash s = .ok hash) : Carried hash := by
  obtain ⟨-, ⟨bytes, hcount, -, hspells⟩, hagain⟩ :=
    h.preserves (text hash) (normalizeInfoHash_eq_ok_iff.1 hhash)
  exact ⟨⟨bytes, hcount, hspells⟩, normalizeInfoHash_eq_ok_iff.2 hagain⟩

theorem carriersKeep_of_normalizesHash {value : ByteText} (h : NormalizesHash value) :
    CarriersKeep value := by
  have hrelease : ∀ input release, text input.infoHash = value → newRelease input = .ok release →
      Carried release.infoHash := by
    rintro input release rfl hnew
    simp only [newRelease, bind_eq_ok, pure_eq_ok, require_eq_ok, within_eq_ok,
      normalInfoHash_eq_ok] at hnew
    obtain ⟨_, _, _, _, _, _, _, _, _, _, _, _, hash, hhash, _, _, _, _, _, _, _, _, _, _, rfl⟩ := hnew
    exact carried_of_normalizesHash h hhash
  refine ⟨hrelease, ?_, ?_⟩
  · intro url parsed hparse htopics hvalid
    simp only [validateMagnetURL, hparse, bind_eq_ok, require_eq_ok] at hvalid
    obtain ⟨_, _, topic, htopic, hash, hhash, hok⟩ := hvalid
    have hvalue := htopics topic htopic hash hhash
    obtain ⟨normal, hnormal⟩ : ∃ normal, normalizeInfoHash hash = .ok normal := by
      cases hcase : normalizeInfoHash hash with
      | ok normal => exact ⟨normal, rfl⟩
      | error message =>
        rw [hcase] at hok
        cases hok
    rw [normalizeInfoHash_eq_ok_iff, hvalue] at hnormal
    obtain ⟨-, ⟨bytes, hcount, hspells, -⟩, -⟩ := h.preserves _ hnormal
    exact ⟨bytes, hcount, hspells⟩
  · intro input release s hvalue hnew hselection
    obtain ⟨hsettled, hkind, hsame, -⟩ := newTorrentJobSelection_settled hselection
    refine ⟨?_, fun _ _ => persistedTorrent_selectionColumns hsettled hkind _ _⟩
    rw [JobSelection.infoHash, hsame]
    exact hrelease input release hvalue hnew

theorem infoHash_normalization (value : ByteText) (hne : value ≠ []) :
    (NormalizesHash value ∧ CarriersKeep value) ↔ PlainHash value := by
  constructor
  · exact fun h => (normalizesHash_iff hne).1 h.1
  · intro h
    have hnormalizes := (normalizesHash_iff hne).2 h
    exact ⟨hnormalizes, carriersKeep_of_normalizesHash hnormalizes⟩

end Carriers

section SmallRuns

attribute [local instance] TextTables.ascii URLParser.refuseAll

theorem infoHash_normalization_letters :
    NormalizesHash (List.replicate 32 (.char 'a')) ∧ CarriersKeep (List.replicate 32 (.char 'a')) := by
  refine (infoHash_normalization _ (by decide)).2 fun _ _ c hc => ?_
  rw [Piece.char.inj (List.eq_of_mem_replicate hc)]
  decide

/-- Thirty-one letters and a line break. -/
def brokenHash : ByteText := List.replicate 31 (.char 'A') ++ [.char '\n']

theorem brokenHash_accepted :
    ¬ (NormalizesHash brokenHash ∧ CarriersKeep brokenHash) := by
  rintro ⟨h, -⟩
  have hok : normalizeInfoHashBytes brokenHash = .ok brokenHash := by decide +kernel
  obtain ⟨hash, cs, hcs, hspelled⟩ := h.accepts.1 ⟨_, hok⟩
  have hchars : brokenHash = (List.replicate 31 'A' ++ ['\n']).map Piece.char := by decide
  have hsame : cs = List.replicate 31 'A' ++ ['\n'] :=
    List.map_injective_iff.2 (fun _ _ => Piece.char.inj) (hcs.symm.trans hchars)
  subst hsame
  have hnone : spelledHash (List.replicate 31 'A' ++ ['\n']) = none := by decide
  rw [hnone] at hspelled
  cases hspelled

end SmallRuns

end BlackPearl.JobStore
