import Mathlib.Data.List.Basic
import Mathlib.Tactic.Common

/-!
# Slices of lists

`slice l start count` is the run of at most `count` elements from position `start`, clipped at the
end of the list. A list is split in one way at the first `c` (`append_cons_cancel`), and in one way
at the last (`append_cons_cancel_right`).
-/

set_option autoImplicit false

namespace BlackPearl.Library

universe u

variable {α : Type u}

/-- At most `count` elements of `l` from position `start`. -/
def slice (l : List α) (start count : ℕ) : List α := (l.drop start).take count

theorem length_slice (l : List α) (start count : ℕ) :
    (slice l start count).length = min count (l.length - start) := by
  simp [slice]

theorem length_slice_of_le {l : List α} {start count : ℕ} (h : start + count ≤ l.length) :
    (slice l start count).length = count := by
  rw [length_slice]
  omega

@[simp] theorem slice_zero (l : List α) (start : ℕ) : slice l start 0 = [] := by
  simp [slice]

/-- Two adjacent slices make one. -/
theorem slice_append (l : List α) (start m n : ℕ) :
    slice l start m ++ slice l (start + m) n = slice l start (m + n) := by
  simp only [slice, List.take_add, List.drop_drop]

/-- A slice within a slice is a slice of the original list. -/
theorem slice_slice {l : List α} {start n start' m : ℕ} (h : start' + m ≤ n) :
    slice (slice l start n) start' m = slice l (start + start') m := by
  simp only [slice, List.drop_take, List.take_take, List.drop_drop]
  congr 1
  omega

theorem take_slice (l : List α) (start n m : ℕ) : (slice l start n).take m = slice l start (min m n) := by
  simp only [slice, List.take_take]

/-- A slice that reaches past the end is the same as one clipped to the end. -/
theorem slice_clip (l : List α) (start count : ℕ) :
    slice l start count = slice l start (min count (l.length - start)) := by
  simp only [slice]
  rcases Nat.le_total count (l.length - start) with h | h
  · rw [Nat.min_eq_left h]
  · rw [Nat.min_eq_right h, List.take_of_length_le (by simpa using h),
      List.take_of_length_le (by simp)]

/-- A prefix of a slice is a shorter slice. -/
theorem eq_slice_of_prefix {l p : List α} {start count : ℕ} (h : p <+: slice l start count) :
    p = slice l start p.length := by
  have hle := h.length_le
  rw [length_slice] at hle
  obtain ⟨q, hq⟩ := h
  have hp : p = (slice l start count).take p.length := by
    rw [← hq]
    simp
  rw [take_slice] at hp
  rwa [Nat.min_eq_left (by omega)] at hp

/-! ## Terminated runs -/

/-- A run up to the first `c` and what follows are determined by the list. -/
theorem append_cons_cancel {c : α} :
    ∀ {a a' x x' : List α}, c ∉ a → c ∉ a' → a ++ c :: x = a' ++ c :: x' → a = a' ∧ x = x'
  | [], [], _, _, _, _, h => ⟨rfl, (List.cons.inj h).2⟩
  | [], d :: a', _, _, _, hc, h => absurd ((List.cons.inj h).1 ▸ List.mem_cons_self) hc
  | d :: a, [], _, _, hc, _, h => absurd ((List.cons.inj h).1 ▸ List.mem_cons_self) hc
  | d :: a, d' :: a', _, _, hc, hc', h => by
    obtain ⟨rfl, htail⟩ := List.cons.inj h
    obtain ⟨ha, hx⟩ := append_cons_cancel (fun hm => hc (List.mem_cons_of_mem _ hm))
      (fun hm => hc' (List.mem_cons_of_mem _ hm)) htail
    exact ⟨by rw [ha], hx⟩

/-- So are what comes before the last `c` and the rest. -/
theorem append_cons_cancel_right {c : α} {a a' x x' : List α} (hx : c ∉ x) (hx' : c ∉ x')
    (h : a ++ c :: x = a' ++ c :: x') : a = a' ∧ x = x' := by
  have hrev : x.reverse ++ c :: a.reverse = x'.reverse ++ c :: a'.reverse := by
    simpa using congrArg List.reverse h
  obtain ⟨hrest, hfront⟩ := append_cons_cancel (fun hm => hx (List.mem_reverse.1 hm))
    (fun hm => hx' (List.mem_reverse.1 hm)) hrev
  exact ⟨List.reverse_injective hfront, List.reverse_injective hrest⟩

end BlackPearl.Library
