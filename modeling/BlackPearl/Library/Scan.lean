import Mathlib.Data.List.Infix

/-!
# Scanners

A scanner reads a sequence from an offset and returns the offset after what it has read. It may refuse
the sequence; reading outside of it and not coming to an end are faults of the scanner itself.
`Scan words r` says that `r` is right for a language of words: the scanner has read the word that
stands at the offset, or refuses because none does. Scanners for languages without a word that starts
another one compose (`Scan.seq`).
-/

set_option autoImplicit false

namespace BlackPearl.Library

universe u v

/-- How a scanner ends without a result. -/
inductive Fault
  | refused (message : String)
  | outOfBounds
  | unfinished
  deriving DecidableEq, Repr

/-- A result of a scanner. -/
abbrev Parsed (α : Type v) : Type v := Except Fault α

variable {α : Type u}

/-- No word of the language starts another one. -/
def PrefixFree (words : List α → Prop) : Prop :=
  ∀ a b l, words a → words b → a <+: l → b <+: l → a = b

/-- The words of one language followed by those of another. -/
def Followed (words more : List α → Prop) (w : List α) : Prop :=
  ∃ a b, words a ∧ more b ∧ w = a ++ b

/-- The result of a scanner at an offset is the one for a language. -/
inductive Scan (payload : List α) (offset : ℕ) (words : List α → Prop) : Parsed ℕ → Prop
  | found {w : List α} : words w → w <+: payload.drop offset →
      Scan payload offset words (.ok (offset + w.length))
  | refused {message : String} : (∀ w, words w → ¬ w <+: payload.drop offset) →
      Scan payload offset words (.error (.refused message))

variable {payload : List α} {offset : ℕ} {words words' more : List α → Prop} {r : Parsed ℕ}

/-- Languages that agree on what stands at the offset have the same scanners. -/
theorem Scan.congr (h : Scan payload offset words r)
    (hwords : ∀ w, w <+: payload.drop offset → (words w ↔ words' w)) :
    Scan payload offset words' r := by
  cases h with
  | found hw hle => exact .found ((hwords _ hle).1 hw) hle
  | refused hnone => exact .refused fun w hw hle => hnone w ((hwords w hle).2 hw) hle

/-- What stands after a word. -/
theorem prefix_append_iff {w b l : List α} (hw : w <+: l) : w ++ b <+: l ↔ b <+: l.drop w.length := by
  obtain ⟨rest, rfl⟩ := hw
  rw [List.prefix_append_right_inj, List.drop_left]

theorem Scan.seq {f : ℕ → Parsed ℕ} (hfree : PrefixFree words) (h : Scan payload offset words r)
    (hf : ∀ w, words w → w <+: payload.drop offset →
      Scan payload (offset + w.length) more (f (offset + w.length))) :
    Scan payload offset (Followed words more) (r >>= f) := by
  cases h with
  | @found w hw hle =>
    have hmore := hf w hw hle
    have hdrop : payload.drop (offset + w.length) = (payload.drop offset).drop w.length := by
      rw [List.drop_drop]
    show Scan payload offset (Followed words more) (f (offset + w.length))
    generalize f (offset + w.length) = s at hmore
    cases hmore with
    | @found b hb hble =>
      rw [hdrop] at hble
      have hlen : offset + w.length + b.length = offset + (w ++ b).length := by
        rw [List.length_append, Nat.add_assoc]
      rw [hlen]
      exact .found ⟨w, b, hw, hb, rfl⟩ ((prefix_append_iff hle).2 hble)
    | refused hnone =>
      apply Scan.refused
      rintro _ ⟨a, b, ha, hb, rfl⟩ hab
      -- the first word is the one that was read
      obtain rfl := hfree a w _ ha hw ((List.prefix_append a b).trans hab) hle
      apply hnone b hb
      rw [hdrop]
      exact (prefix_append_iff hle).1 hab
  | refused hnone =>
    apply Scan.refused
    rintro _ ⟨a, b, ha, -, rfl⟩ hab
    exact hnone a ha ((List.prefix_append a b).trans hab)

/-- A scanner that has passed one element. -/
theorem Scan.cons {b : α} {rest : List α} (hrest : payload.drop offset = b :: rest)
    (h : Scan payload (offset + 1) words r) :
    Scan payload offset (fun w => ∃ v, words v ∧ w = b :: v) r := by
  have htail : payload.drop (offset + 1) = rest := by
    rw [← List.drop_drop, hrest]
    rfl
  cases h with
  | @found w hw hle =>
    have hlen : offset + 1 + w.length = offset + (b :: w).length := by
      rw [List.length_cons, Nat.add_assoc, Nat.add_comm 1]
    rw [hlen]
    refine .found ⟨w, hw, rfl⟩ ?_
    rw [hrest, List.cons_prefix_cons]
    exact ⟨rfl, htail ▸ hle⟩
  | refused hnone =>
    apply Scan.refused
    rintro _ ⟨v, hv, rfl⟩ hle
    rw [hrest, List.cons_prefix_cons] at hle
    exact hnone v hv (htail.symm ▸ hle.2)

/-- Scanners neither leave the sequence nor run forever. -/
theorem Scan.sound (h : Scan payload offset words r) :
    r ≠ .error .outOfBounds ∧ r ≠ .error .unfinished := by
  cases h with
  | found _ _ => exact ⟨nofun, nofun⟩
  | refused _ => exact ⟨nofun, nofun⟩

/-- A scanner succeeds exactly if a word stands at the offset. -/
theorem Scan.eq_ok_iff (hfree : PrefixFree words) (h : Scan payload offset words r) {o : ℕ} :
    r = .ok o ↔ ∃ w, words w ∧ w <+: payload.drop offset ∧ o = offset + w.length := by
  cases h with
  | @found w hw hle =>
    constructor
    · intro heq
      exact ⟨w, hw, hle, (Except.ok.inj heq).symm⟩
    · rintro ⟨a, ha, hale, rfl⟩
      rw [hfree a w _ ha hw hale hle]
  | refused hnone =>
    constructor
    · nofun
    · rintro ⟨a, ha, hale, -⟩
      exact absurd hale (hnone a ha)

end BlackPearl.Library
