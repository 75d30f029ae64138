import BlackPearl.Acquisition.TorrentInput
import BlackPearl.Library.Decimal

/-!
# Torrents of an account

The two requests of `internal/gateway/torbox` that compare info hashes: the search for an object of
the account by its hash, and the creation of one. What the provider answers is a parameter; requests
that fail before that are refused with its message.
-/

set_option autoImplicit false

namespace BlackPearl.Torbox

open BlackPearl.Library BlackPearl.Domain BlackPearl.Acquisition

/-- `providerName`. -/
def providerName : String := "torbox-torrent"

/-- The part of a `torrentRecord` that reconciliation reads. -/
structure TorrentRecord where
  id : ℤ
  hash : String
  deriving DecidableEq, Repr

/-- `createTorrentResponse`. -/
structure CreateTorrentResponse where
  hash : String
  torrentID : ℤ
  deriving DecidableEq, Repr

/-- The errors of reconciliation that its callers tell apart. -/
inductive ReconcileError
  | notFound
  | ambiguous
  | failed (message : String)
  deriving DecidableEq, Repr

section Requests

variable [TextTables] [FoldTables]

/-- Whether a torrent of the account is the one that is looked for. -/
def recordMatches (infoHash : String) (torrent : TorrentRecord) : Bool :=
  0 < torrent.id && equalFold (trimSpace torrent.hash) infoHash

/-- `Gateway.FindTorrentByHash`, given what the provider lists. -/
def findTorrentByHash [URLParser] (listed : Checked (List TorrentRecord)) (infoHash : String) :
    Except ReconcileError CreatedObject :=
  match newMagnetTorrentInput infoHash ("magnet:?xt=urn:btih:" ++ infoHash) with
  | .error _ => .error (.failed "reconcile TorBox torrent requires a valid info hash")
  | .ok validated =>
      match listed with
      | .error message => .error (.failed message)
      | .ok torrents =>
          match torrents.filter (recordMatches validated.infoHash) with
          | [] => .error .notFound
          | [torrent] =>
              match newCreatedObject providerName (toString torrent.id) with
              | .ok created => .ok created
              | .error _ => .error (.failed "map reconciled TorBox torrent")
          | _ => .error .ambiguous

/-- `Gateway.createTorrent`, given how the provider answers the request for an input. -/
def createTorrent (respond : TorrentInput → Checked CreateTorrentResponse) (input : TorrentInput) :
    Checked CreatedObject := do
  require (input.infoHash ≠ "") "TorBox creation requires validated torrent material"
  let data ← respond input
  require (0 < data.torrentID) "TorBox returned an invalid created torrent ID"
  require (equalFold (trimSpace data.hash) input.infoHash = true)
    "TorBox returned a mismatched created torrent hash"
  match newCreatedObject providerName (toString data.torrentID) with
  | .ok created => .ok created
  | .error _ => .error "map created TorBox torrent"

omit [FoldTables] in
/-- A positive number names an object of the account. -/
theorem newCreatedObject_toString {id : ℤ} (h : 0 < id) :
    newCreatedObject providerName (toString id) = .ok ⟨⟨providerName, toString id⟩⟩ := by
  obtain ⟨n, rfl⟩ := Int.eq_ofNat_of_zero_le h.le
  have hlist : (toString (n : ℤ)).toList = Nat.toDigits 10 n := String.toList_ofList
  have hdigits : ∀ c ∈ (toString (n : ℤ)).toList, isSpace c = false ∧ c ≠ '\x00' := by
    intro c hc
    rw [hlist] at hc
    have hdigit : c.isDigit = true := Nat.isDigit_of_mem_toDigits (by decide) (by decide) hc
    have hcode : c.toNat < 128 := by
      simp only [Char.isDigit, Bool.and_eq_true, decide_eq_true_eq, ge_iff_le] at hdigit
      exact lt_of_le_of_lt (UInt32.le_iff_toNat_le.1 hdigit.2) (by decide)
    exact ascii_cases (P := fun c => c.isDigit = true → isSpace c = false ∧ c ≠ '\x00') (by decide) c
      hcode hdigit
  have hvalid : validateProvider providerName = .ok () := rfl
  have hobject : ¬ (trimSpace (toString (n : ℤ)) = "" ∨ '\x00' ∈ (toString (n : ℤ)).toList) := by
    rw [trimSpace_eq_self fun c hc => (hdigits c hc).1, not_or]
    refine ⟨fun hempty => ?_, fun hmem => (hdigits _ hmem).2 rfl⟩
    exact Nat.toDigits_ne_nil (hlist.symm.trans (congrArg String.toList hempty))
  simp only [newCreatedObject, newBackingRef, bind_eq_ok, pure_eq_ok, within_eq_ok, require_eq_ok]
  exact ⟨_, ⟨(), hvalid, (), hobject, rfl⟩, rfl⟩

end Requests

end BlackPearl.Torbox
