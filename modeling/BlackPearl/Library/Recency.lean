import Mathlib.Data.Finset.Card
import Mathlib.Data.List.Dedup

/-!
# The most recently used elements

A log of uses, the latest first, and the list of the elements that are kept, the least recently used
first. `Orders` says that the list is in the order of the last uses, and that an element that is no
longer kept has made way for `bound` others that were used since. Using an element and dropping the
first one of a list that is too long preserve it.
-/

set_option autoImplicit false

namespace BlackPearl.Library.Recency

universe u

variable {α : Type u} [DecidableEq α]

/-- The elements used since the last use of `a`. -/
def since (log : List α) (a : α) : Finset α := (log.takeWhile fun b => b ≠ a).toFinset

@[simp] theorem since_self (log : List α) (a : α) : since (a :: log) a = ∅ := by
  simp [since]

theorem since_cons {log : List α} {a b : α} (h : b ≠ a) :
    since (b :: log) a = insert b (since log a) := by
  simp [since, h]

/-- Of two elements only one has been used since the last use of the other. -/
theorem notMem_since {log : List α} {a b : α} (h : a ∈ since log b) : b ∉ since log a := by
  induction log with
  | nil => simp [since] at h
  | cons c log ih =>
    by_cases hb : c = b
    · subst hb
      simp at h
    · by_cases ha : c = a
      · subst ha
        simp
      · rw [since_cons hb, Finset.mem_insert] at h
        rw [since_cons ha, Finset.mem_insert]
        rintro (rfl | hlater)
        · exact hb rfl
        · exact ih (h.resolve_left fun heq => ha heq.symm) hlater

/-- The kept elements are in the order of their last uses, and the others made way for `bound`. -/
structure Orders (bound : ℕ) (log kept : List α) : Prop where
  nodup : kept.Nodup
  used : ∀ a ∈ kept, a ∈ log
  order : kept.Pairwise fun a b => b ∈ since log a
  closed : ∀ a ∈ kept, ∀ b ∈ since log a, b ∈ kept
  dropped : ∀ a ∈ log, a ∉ kept → bound ≤ (since log a).card

variable {bound : ℕ} {log kept : List α}

theorem orders_nil : Orders bound ([] : List α) [] where
  nodup := .nil
  used := by
    intro a ha
    cases ha
  order := .nil
  closed := by
    intro a ha
    cases ha
  dropped := by
    intro a ha
    cases ha

/-- Using an element moves it to the end. -/
theorem Orders.use (h : Orders bound log kept) (a : α) :
    Orders bound (a :: log) (kept.erase a ++ [a]) where
  nodup := by
    refine List.nodup_append.2 ⟨h.nodup.erase a, List.nodup_singleton a, ?_⟩
    rintro b hb c hc rfl
    exact h.nodup.not_mem_erase (List.mem_singleton.1 hc ▸ hb)
  used := by
    intro b hb
    rcases List.mem_append.1 hb with hb | hb
    · exact List.mem_cons_of_mem _ (h.used b (List.mem_of_mem_erase hb))
    · exact List.mem_singleton.1 hb ▸ List.mem_cons_self
  order := by
    refine List.pairwise_append.2 ⟨?_, List.pairwise_singleton _ _, ?_⟩
    · refine (h.order.sublist List.erase_sublist).imp_of_mem fun {b c} hb _ hbc => ?_
      have hne : a ≠ b := by
        rintro rfl
        exact h.nodup.not_mem_erase hb
      rw [since_cons hne]
      exact Finset.mem_insert_of_mem hbc
    · intro b hb c hc
      have hne : a ≠ b := by
        rintro rfl
        exact h.nodup.not_mem_erase hb
      rw [since_cons hne, List.mem_singleton.1 hc]
      exact Finset.mem_insert_self _ _
  closed := by
    intro b hb c hc
    rcases List.mem_append.1 hb with hb | hb
    · have hne : a ≠ b := by
        rintro rfl
        exact h.nodup.not_mem_erase hb
      rw [since_cons hne, Finset.mem_insert] at hc
      by_cases hca : c = a
      · exact List.mem_append_right _ (List.mem_singleton.2 hca)
      · have hkept := h.closed b (List.mem_of_mem_erase hb) c (hc.resolve_left hca)
        exact List.mem_append_left _ ((List.mem_erase_of_ne hca).2 hkept)
    · rw [List.mem_singleton.1 hb, since_self] at hc
      exact absurd hc (Finset.notMem_empty c)
  dropped := by
    intro b hb hnot
    rw [List.mem_append, not_or, List.mem_singleton] at hnot
    have hold : b ∉ kept := fun hk => hnot.1 ((List.mem_erase_of_ne hnot.2).2 hk)
    have hlog : b ∈ log := (List.mem_cons.1 hb).resolve_left hnot.2
    rw [since_cons fun heq => hnot.2 heq.symm]
    exact (h.dropped b hlog hold).trans (Finset.card_le_card (Finset.subset_insert _ _))

/-- The least recently used element may be dropped while at least `bound` others are kept. -/
theorem Orders.drop {a : α} (h : Orders bound log (a :: kept)) (hbound : bound ≤ kept.length) :
    Orders bound log kept where
  nodup := (List.nodup_cons.1 h.nodup).2
  used b hb := h.used b (List.mem_cons_of_mem a hb)
  order := (List.pairwise_cons.1 h.order).2
  closed := by
    intro b hb c hc
    rcases List.mem_cons.1 (h.closed b (List.mem_cons_of_mem a hb) c hc) with rfl | hkept
    · exact absurd ((List.pairwise_cons.1 h.order).1 b hb) (notMem_since hc)
    · exact hkept
  dropped := by
    intro b hb hnot
    by_cases hba : b = a
    · -- all that are kept were used since
      subst hba
      have hsub : kept.toFinset ⊆ since log b := by
        intro c hc
        exact (List.pairwise_cons.1 h.order).1 c (List.mem_toFinset.1 hc)
      calc bound ≤ kept.length := hbound
        _ = kept.toFinset.card := (List.toFinset_card_of_nodup (List.nodup_cons.1 h.nodup).2).symm
        _ ≤ (since log b).card := Finset.card_le_card hsub
    · apply h.dropped b hb
      rw [List.mem_cons, not_or]
      exact ⟨hba, hnot⟩

end BlackPearl.Library.Recency
