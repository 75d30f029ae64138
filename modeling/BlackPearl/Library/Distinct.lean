import Mathlib.Data.List.Nodup

/-!
# Lists without repeated keys

A list that grows at its end, where an element is left out when its key is already there: the first
element with each key stays. Nothing is lost exactly when no key comes twice.
-/

set_option autoImplicit false

namespace BlackPearl.Library

universe u v

section Distinct

variable {α : Type u} {κ : Type v} [DecidableEq κ] (key : α → κ)

/-- Append `a`, unless its key is there. -/
def insertNew (xs : List α) (a : α) : List α :=
  if key a ∈ xs.map key then xs else xs ++ [a]

/-- Append the elements of a list one after the other. -/
def appendNew (xs as : List α) : List α := as.foldl (insertNew key) xs

@[simp] theorem appendNew_nil (xs : List α) : appendNew key xs [] = xs := rfl

@[simp] theorem appendNew_cons (xs as : List α) (a : α) :
    appendNew key xs (a :: as) = appendNew key (insertNew key xs a) as := rfl

theorem appendNew_append (xs as bs : List α) :
    appendNew key xs (as ++ bs) = appendNew key (appendNew key xs as) bs :=
  List.foldl_append

theorem appendNew_singleton (xs : List α) (a : α) : appendNew key xs [a] = insertNew key xs a := rfl

variable {key}

theorem insertNew_length_le (xs : List α) (a : α) :
    (insertNew key xs a).length ≤ xs.length + 1 := by
  unfold insertNew
  split
  · omega
  · simp

theorem insertNew_nodup {xs : List α} (a : α) (h : (xs.map key).Nodup) :
    ((insertNew key xs a).map key).Nodup := by
  unfold insertNew
  split
  · exact h
  · rename_i hnew
    rw [List.map_append, List.map_singleton]
    exact List.nodup_append'.2 ⟨h, List.nodup_singleton _, List.disjoint_singleton.2 hnew⟩

theorem appendNew_length_le (xs as : List α) :
    (appendNew key xs as).length ≤ xs.length + as.length := by
  induction as generalizing xs with
  | nil => simp
  | cons a as ih =>
    have hrest := ih (insertNew key xs a)
    have hone : (insertNew key xs a).length ≤ xs.length + 1 := insertNew_length_le xs a
    rw [appendNew_cons, List.length_cons]
    omega

theorem appendNew_nodup {xs : List α} (as : List α) (h : (xs.map key).Nodup) :
    ((appendNew key xs as).map key).Nodup := by
  induction as generalizing xs with
  | nil => exact h
  | cons a as ih => exact ih (insertNew_nodup a h)

/-- Elements that are given in a list without repeated keys are all appended. -/
theorem appendNew_eq_append {xs as : List α} (h : ((xs ++ as).map key).Nodup) :
    appendNew key xs as = xs ++ as := by
  induction as generalizing xs with
  | nil => simp
  | cons a as ih =>
    have hsplit : xs ++ a :: as = xs ++ [a] ++ as := by simp
    have hnew : key a ∉ xs.map key := by
      rw [hsplit, List.map_append, List.map_append, List.map_singleton] at h
      have hfirst := List.nodup_append'.1 (List.nodup_append'.1 h).1
      exact List.disjoint_singleton.1 hfirst.2.2
    rw [appendNew_cons, insertNew, if_neg hnew, ih (hsplit ▸ h), ← hsplit]

theorem insertNew_sublist {xs ys : List α} (a : α) (h : xs.Sublist ys) :
    (insertNew key xs a).Sublist (ys ++ [a]) := by
  unfold insertNew
  split
  · exact h.trans (List.sublist_append_left ys [a])
  · exact h.append (List.Sublist.refl [a])

theorem appendNew_sublist_append {xs ys : List α} (as : List α) (h : xs.Sublist ys) :
    (appendNew key xs as).Sublist (ys ++ as) := by
  induction as generalizing xs ys with
  | nil => simpa using h
  | cons a as ih =>
    have hone : (insertNew key xs a).Sublist (ys ++ [a]) := insertNew_sublist a h
    have hrest := ih hone
    rwa [List.append_assoc, List.singleton_append] at hrest

theorem appendNew_sublist (as : List α) : (appendNew key [] as).Sublist as :=
  appendNew_sublist_append as (List.Sublist.refl [])

theorem mem_map_insertNew {xs : List α} {a : α} {k : κ} :
    k ∈ (insertNew key xs a).map key ↔ k ∈ xs.map key ∨ k = key a := by
  unfold insertNew
  split
  · rename_i hold
    constructor
    · exact Or.inl
    · rintro (h | rfl)
      · exact h
      · exact hold
  · rw [List.map_append, List.mem_append, List.map_singleton, List.mem_singleton]

/-- No key is lost. -/
theorem mem_map_appendNew {xs as : List α} {k : κ} :
    k ∈ (appendNew key xs as).map key ↔ k ∈ xs.map key ∨ k ∈ as.map key := by
  induction as generalizing xs with
  | nil => simp
  | cons a as ih =>
    rw [appendNew_cons, ih, mem_map_insertNew, List.map_cons, List.mem_cons, or_assoc]

/-- What stays was there, or is the first element with a new key. -/
theorem appendNew_first {xs as : List α} {a : α} (h : a ∈ appendNew key xs as) :
    a ∈ xs ∨ (key a ∉ xs.map key ∧
      ∃ before after, as = before ++ a :: after ∧ key a ∉ before.map key) := by
  induction as generalizing xs with
  | nil => exact Or.inl h
  | cons b as ih =>
    rcases ih h with hx | ⟨hnew, before, after, hsplit, hfirst⟩
    · unfold insertNew at hx
      split at hx
      · exact Or.inl hx
      · rename_i hnew
        rcases List.mem_append.1 hx with hx | hx
        · exact Or.inl hx
        · obtain rfl := List.mem_singleton.1 hx
          exact Or.inr ⟨hnew, [], as, rfl, List.not_mem_nil⟩
    · rw [mem_map_insertNew, not_or] at hnew
      refine Or.inr ⟨hnew.1, b :: before, after, by rw [hsplit, List.cons_append], ?_⟩
      rw [List.map_cons, List.mem_cons]
      exact not_or.2 ⟨hnew.2, hfirst⟩

end Distinct

end BlackPearl.Library
