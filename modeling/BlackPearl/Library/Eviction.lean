import Mathlib.Order.Basic
import Mathlib.Tactic.Common

/-!
# Eviction loops

A cache that must make room repeats one step: while the cache is over its bound, pick a victim,
try to remove it, and drop it from the books. The loop ends in one of three ways, recorded by
`EvictOutcome`. `Evictor.run` is that loop with an explicit iteration bound; a measure that every
drop decreases makes the bound harmless (`run_stuck`).

Where the victims come from a queue, the loop takes the shortest prefix of the queue that makes the
state fit, or all of it, or stops at a removal that fails (`TakesShortest`). `Runs` are the loops of a
search that may find several victims.
-/

set_option autoImplicit false

namespace BlackPearl.Library

universe u v

/-- How an eviction loop ends: nothing is over the bound any more, no victim is left, or removing
the chosen victim failed. -/
inductive EvictOutcome
  | fits
  | stuck
  | failed
  deriving DecidableEq, Repr

/-- The parts of an eviction loop over states `σ` with victims `ν`. -/
structure Evictor (σ : Type u) (ν : Type v) where
  exceeds : σ → Bool
  victim : σ → Option ν
  removable : ν → Bool
  drop : σ → ν → σ

namespace Evictor

variable {σ : Type u} {ν : Type v} (E : Evictor σ ν)

/-- Evict until the state fits, no victim is left or a removal fails, at most `fuel` times. -/
def run : ℕ → σ → σ × EvictOutcome
  | 0, s => (s, if E.exceeds s then .stuck else .fits)
  | fuel + 1, s =>
      if E.exceeds s then
        match E.victim s with
        | none => (s, .stuck)
        | some v => if E.removable v then run fuel (E.drop s v) else (s, .failed)
      else (s, .fits)

/-- One eviction: the state is over its bound and the removable victim is dropped. -/
structure Evicts (s t : σ) (v : ν) : Prop where
  exceeds : E.exceeds s = true
  victim : E.victim s = some v
  removable : E.removable v = true
  drop : t = E.drop s v

variable {E}

/-- What every single eviction preserves, the loop preserves. -/
theorem run_invariant {I : σ → Prop} (hstep : ∀ s t v, I s → E.Evicts s t v → I t) (fuel : ℕ)
    (s : σ) (hs : I s) : I (E.run fuel s).1 := by
  induction fuel generalizing s with
  | zero => exact hs
  | succ fuel ih =>
    unfold run
    split
    · next hover =>
      split
      · exact hs
      · next v hv =>
        split
        · next hr => exact ih _ (hstep s _ v hs ⟨hover, hv, hr, rfl⟩)
        · exact hs
    · exact hs

/-- A reflexive and transitive relation that every single eviction respects holds between the
state before the loop and the state after it. -/
theorem run_related {R : σ → σ → Prop} (hrefl : ∀ s, R s s)
    (htrans : ∀ s t u, R s t → R t u → R s u) (hstep : ∀ s t v, E.Evicts s t v → R s t)
    (fuel : ℕ) (s : σ) : R s (E.run fuel s).1 :=
  run_invariant (fun t u v h he => htrans s t u h (hstep t u v he)) fuel s (hrefl s)

/-- A loop that cannot evict anything leaves the state alone. -/
theorem run_eq_self {fuel : ℕ} {s : σ}
    (h : E.exceeds s = true → ∀ v, E.victim s = some v → E.removable v = false) :
    (E.run fuel s).1 = s := by
  cases fuel with
  | zero => rfl
  | succ fuel =>
    unfold run
    split
    · next hover =>
      split
      · rfl
      · next v hv => rw [h hover v hv, if_neg Bool.false_ne_true]
    · rfl

/-- A loop that can evict something begins with it. -/
theorem run_succ_of_evicts {fuel : ℕ} {s t : σ} {v : ν} (h : E.Evicts s t v) :
    E.run (fuel + 1) s = E.run fuel t := by
  rw [run, if_pos h.exceeds, h.victim, h.drop]
  exact if_pos h.removable

/-- When the loop reports that the state fits, it does. -/
theorem run_fits (fuel : ℕ) (s : σ) (h : (E.run fuel s).2 = .fits) :
    E.exceeds (E.run fuel s).1 = false := by
  induction fuel generalizing s with
  | zero =>
    simp only [run] at h ⊢
    by_cases ho : E.exceeds s = true
    · simp [ho] at h
    · simpa using ho
  | succ fuel ih =>
    unfold run at h ⊢
    split
    · next hover =>
      simp only [hover, if_true] at h
      split
      · next hv => simp [hv] at h
      · next v hv =>
        simp only [hv] at h
        split
        · next hr =>
          simp only [hr, if_true] at h
          exact ih _ h
        · next hr => simp [hr] at h
    · next hover => simpa using hover

/-- When the loop reports that it is stuck, the state is over its bound and offers no victim,
provided the fuel covers a measure that every eviction decreases. -/
theorem run_stuck {μ : σ → ℕ} (hμ : ∀ s v, E.victim s = some v → μ (E.drop s v) < μ s) (fuel : ℕ)
    (s : σ) (hfuel : μ s ≤ fuel) (h : (E.run fuel s).2 = .stuck) :
    E.exceeds (E.run fuel s).1 = true ∧ E.victim (E.run fuel s).1 = none := by
  induction fuel generalizing s with
  | zero =>
    simp only [run] at h ⊢
    by_cases ho : E.exceeds s = true
    · refine ⟨ho, ?_⟩
      cases hv : E.victim s with
      | none => rfl
      | some v =>
        have := hμ s v hv
        omega
    · simp [ho] at h
  | succ fuel ih =>
    unfold run at h ⊢
    split
    · next hover =>
      simp only [hover, if_true] at h
      split
      · next hv => exact ⟨hover, hv⟩
      · next v hv =>
        simp only [hv] at h
        split
        · next hr =>
          simp only [hr, if_true] at h
          have := hμ s v hv
          exact ih _ (by omega) h
        · next hr => simp [hr] at h
    · next hover => simp [hover] at h

/-! ## Queues -/

variable (E)

/-- The loop whose victims come from a queue. -/
def runOn : List ν → σ → σ × EvictOutcome
  | [], s => (s, if E.exceeds s then .stuck else .fits)
  | v :: queue, s =>
      if E.exceeds s then
        if E.removable v then runOn queue (E.drop s v) else (s, .failed)
      else (s, .fits)

/-- How a loop may end when `rest` is left of its queue. -/
def EndsRight (rest : List ν) (s : σ) : EvictOutcome → Prop
  | .fits => E.exceeds s = false
  | .stuck => E.exceeds s = true ∧ rest = []
  | .failed => E.exceeds s = true ∧ ∃ v, rest.head? = some v ∧ E.removable v = false

/-- The shortest prefix of the queue that makes the state fit has been dropped; or the whole queue, and
the state does not fit; or all that comes before a victim that cannot be removed. -/
def TakesShortest (queue : List ν) (s : σ) (r : σ × EvictOutcome) : Prop :=
  ∃ taken rest, queue = taken ++ rest ∧ r.1 = taken.foldl E.drop s ∧
    (∀ v ∈ taken, E.removable v = true) ∧
    (∀ fewer more, taken = fewer ++ more → more ≠ [] → E.exceeds (fewer.foldl E.drop s) = true) ∧
    E.EndsRight rest r.1 r.2

variable {E}

/-- A loop that ends at once. -/
theorem EndsRight.takesNothing {queue : List ν} {s : σ} {outcome : EvictOutcome}
    (h : E.EndsRight queue s outcome) : E.TakesShortest queue s (s, outcome) := by
  refine ⟨[], queue, rfl, rfl, ?_, ?_, h⟩
  · intro v hv
    cases hv
  · intro fewer more hnil hne
    exact absurd (List.append_eq_nil_iff.1 hnil.symm).2 hne

theorem takesShortest_runOn (queue : List ν) (s : σ) : E.TakesShortest queue s (E.runOn queue s) := by
  induction queue generalizing s with
  | nil =>
    refine EndsRight.takesNothing ?_
    by_cases hover : E.exceeds s = true
    · rw [if_pos hover]
      exact ⟨hover, rfl⟩
    · rw [if_neg hover]
      exact Bool.eq_false_iff.2 hover
  | cons v queue ih =>
    unfold runOn
    by_cases hover : E.exceeds s = true
    · rw [if_pos hover]
      by_cases hremovable : E.removable v = true
      · rw [if_pos hremovable]
        obtain ⟨taken, rest, hqueue, hresult, htaken, hshortest, hend⟩ := ih (E.drop s v)
        refine ⟨v :: taken, rest, by rw [hqueue, List.cons_append], hresult, ?_, ?_, hend⟩
        · intro w hw
          rcases List.mem_cons.1 hw with rfl | hw
          · exact hremovable
          · exact htaken w hw
        · intro fewer more h hne
          cases fewer with
          | nil => exact hover
          | cons w fewer =>
            rw [List.cons_append, List.cons.injEq] at h
            rw [← h.1]
            exact hshortest fewer more h.2 hne
      · rw [if_neg hremovable]
        exact EndsRight.takesNothing ⟨hover, v, rfl, Bool.eq_false_iff.2 hremovable⟩
    · rw [if_neg hover]
      exact EndsRight.takesNothing (Bool.eq_false_iff.2 hover)

/-- What has been dropped, and the outcome, depend on the queue and the state only. -/
theorem takesShortest_iff {queue : List ν} {s : σ} {r : σ × EvictOutcome} :
    E.TakesShortest queue s r ↔ r = E.runOn queue s := by
  constructor
  · rintro ⟨taken, rest, rfl, hresult, htaken, hshortest, hend⟩
    induction taken generalizing s with
    | nil =>
      obtain ⟨t, outcome⟩ := r
      obtain rfl : t = s := hresult
      cases rest with
      | nil =>
        cases outcome with
        | fits => simp [runOn, show E.exceeds t = false from hend]
        | stuck => simp [runOn, show E.exceeds t = true from hend.1]
        | failed =>
          obtain ⟨v, hv, -⟩ := hend.2
          cases hv
      | cons w rest =>
        cases outcome with
        | fits => simp [runOn, show E.exceeds t = false from hend]
        | stuck => cases hend.2
        | failed =>
          obtain ⟨hover, v, hv, hremovable⟩ := hend
          obtain rfl := Option.some.inj hv
          simp [runOn, show E.exceeds t = true from hover, hremovable]
    | cons v taken ih =>
      have hover : E.exceeds s = true := hshortest [] (v :: taken) rfl (List.cons_ne_nil v taken)
      have hremovable := htaken v List.mem_cons_self
      have hrest : r = E.runOn (taken ++ rest) (E.drop s v) := by
        refine ih hresult (fun w hw => htaken w (List.mem_cons_of_mem v hw)) ?_
        intro fewer more h hne
        exact hshortest (v :: fewer) more (by rw [h, List.cons_append]) hne
      rw [List.cons_append, runOn, if_pos hover, if_pos hremovable]
      exact hrest
  · rintro rfl
    exact takesShortest_runOn queue s

/-- A loop that finds the head of a queue, which each drop takes off. -/
theorem run_eq_runOn {I : σ → Prop} (queue : σ → List ν)
    (hvictim : ∀ s, I s → E.victim s = (queue s).head?)
    (hdrop : ∀ s v, I s → E.victim s = some v → I (E.drop s v) ∧ queue (E.drop s v) = (queue s).tail)
    (fuel : ℕ) (s : σ) (hs : I s) (hfuel : (queue s).length ≤ fuel) :
    E.run fuel s = E.runOn (queue s) s := by
  induction fuel generalizing s with
  | zero =>
    rw [List.length_eq_zero_iff.1 (Nat.le_zero.1 hfuel)]
    rfl
  | succ fuel ih =>
    have hv := hvictim s hs
    have hnext := hdrop s
    unfold run
    cases hqueue : queue s with
    | nil =>
      rw [hqueue] at hv
      simp only [hv, List.head?_nil, runOn]
      split <;> rfl
    | cons v rest =>
      rw [hqueue] at hv
      obtain ⟨hI, htail⟩ := hnext v hs hv
      rw [hqueue, List.tail_cons] at htail
      have hlength : (queue (E.drop s v)).length ≤ fuel := by
        rw [htail]
        rw [hqueue, List.length_cons] at hfuel
        omega
      have hrest := ih (E.drop s v) hI hlength
      rw [htail] at hrest
      simp only [hv, List.head?_cons, runOn, hrest]

/-! ## Searches that may find several victims -/

variable (E)

/-- A loop that drops what the search may find. -/
inductive Runs (finds : σ → Option ν → Prop) : σ → σ × EvictOutcome → Prop
  | fits {s : σ} (h : E.exceeds s = false) : Runs finds s (s, .fits)
  | stuck {s : σ} (h : E.exceeds s = true) (hv : finds s none) : Runs finds s (s, .stuck)
  | failed {s : σ} {v : ν} (h : E.exceeds s = true) (hv : finds s (some v))
      (hr : E.removable v = false) : Runs finds s (s, .failed)
  | evicts {s : σ} {v : ν} {r : σ × EvictOutcome} (h : E.exceeds s = true) (hv : finds s (some v))
      (hr : E.removable v = true) (hrest : Runs finds (E.drop s v) r) : Runs finds s r

variable {E}

/-- If the search can find only one victim, the loop can end in one way only. -/
theorem runs_iff {I : σ → Prop} {finds : σ → Option ν → Prop} {μ : σ → ℕ}
    (hfinds : ∀ s found, I s → (finds s found ↔ found = E.victim s))
    (hdrop : ∀ s v, I s → E.victim s = some v → I (E.drop s v) ∧ μ (E.drop s v) < μ s)
    {fuel : ℕ} {s : σ} (hs : I s) (hfuel : μ s ≤ fuel) {r : σ × EvictOutcome} :
    E.Runs finds s r ↔ r = E.run fuel s := by
  induction fuel generalizing s r with
  | zero =>
    have hnone : E.victim s = none := by
      cases hv : E.victim s with
      | none => rfl
      | some v =>
        have := (hdrop s v hs hv).2
        omega
    constructor
    · intro h
      cases h with
      | fits h => simp [run, h]
      | stuck h => simp [run, h]
      | failed _ hv | evicts _ hv =>
        rw [hfinds s _ hs, hnone] at hv
        cases hv
    · rintro rfl
      unfold run
      by_cases hover : E.exceeds s = true
      · rw [if_pos hover]
        exact .stuck hover ((hfinds s _ hs).2 hnone.symm)
      · rw [if_neg hover]
        exact .fits (Bool.eq_false_iff.2 hover)
  | succ fuel ih =>
    constructor
    · intro h
      cases h with
      | fits h => simp [run, h]
      | stuck h hv =>
        rw [hfinds s _ hs] at hv
        simp [run, h, ← hv]
      | failed h hv hr =>
        rw [hfinds s _ hs] at hv
        simp [run, h, ← hv, hr]
      | @evicts _ v _ h hv hr hrest =>
        rw [hfinds s _ hs] at hv
        obtain ⟨hI, hμ⟩ := hdrop s v hs hv.symm
        rw [run, if_pos h, ← hv]
        simp only [if_pos hr]
        exact (ih hI (by omega)).1 hrest
    · rintro rfl
      unfold run
      by_cases hover : E.exceeds s = true
      · rw [if_pos hover]
        cases hv : E.victim s with
        | none => exact .stuck hover ((hfinds s _ hs).2 hv.symm)
        | some v =>
          obtain ⟨hI, hμ⟩ := hdrop s v hs hv
          have hfound := (hfinds s _ hs).2 hv.symm
          by_cases hr : E.removable v = true
          · simp only [if_pos hr]
            exact .evicts hover hfound hr ((ih hI (by omega)).2 rfl)
          · simp only [if_neg hr]
            exact .failed hover hfound (Bool.eq_false_iff.2 hr)
      · rw [if_neg hover]
        exact .fits (Bool.eq_false_iff.2 hover)

end Evictor

end BlackPearl.Library
