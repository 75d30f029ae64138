import Mathlib.Logic.Relation

/-!
# Executable transition systems

A `System` has a predicate on initial states and a partial step function: `step s a = none` says
that the label `a` is not enabled at `s`. Labels carry whatever the environment decides (arguments,
responses, failures), so the step function itself is deterministic and can be evaluated.

`ReachableBy P` restricts runs to steps whose state and label satisfy `P`; `Reachable` puts no
restriction. Properties of whole runs follow from one-step facts by `ReachableBy.invariant` (a
property of states) and `ReachesBy.related` (a reflexive and transitive relation between an earlier
and a later state).
-/

set_option autoImplicit false

namespace BlackPearl.Library

universe u v

/-- A transition system with an executable partial step function. -/
structure System (σ : Type u) (α : Type v) where
  init : σ → Prop
  step : σ → α → Option σ

namespace System

variable {σ : Type u} {α : Type v} (S : System σ α)

/-- The state after the labels `as`, when each of them is enabled in turn. -/
def run (s : σ) : List α → Option σ
  | [] => some s
  | a :: as => (S.step s a).bind fun t => run t as

/-- States reachable by steps that all satisfy `P`. -/
inductive ReachableBy (P : σ → α → Prop) : σ → Prop
  | init {s : σ} : S.init s → ReachableBy P s
  | step {s t : σ} {a : α} : ReachableBy P s → P s a → S.step s a = some t → ReachableBy P t

/-- States reachable by any steps. -/
abbrev Reachable : σ → Prop := S.ReachableBy fun _ _ => True

/-- `t` is reached from `s` by steps that all satisfy `P`. -/
inductive ReachesBy (P : σ → α → Prop) (s : σ) : σ → Prop
  | refl : ReachesBy P s s
  | tail {t u : σ} {a : α} : ReachesBy P s t → P t a → S.step t a = some u → ReachesBy P s u

/-- `t` is reached from `s` by any steps. -/
abbrev Reaches : σ → σ → Prop := S.ReachesBy fun _ _ => True

/-- The same, refusing labels that do not satisfy `P`. -/
def runChecked (P : σ → α → Prop) [∀ s a, Decidable (P s a)] (s : σ) : List α → Option σ
  | [] => some s
  | a :: as => if P s a then (S.step s a).bind fun t => runChecked P t as else none

variable {S}

@[simp] theorem run_nil (s : σ) : S.run s [] = some s := rfl

/-- What every step with an admitted label preserves, a run of admitted labels preserves. -/
theorem run_invariant {I : σ → Prop} {P : α → Prop}
    (hstep : ∀ s a t, I s → P a → S.step s a = some t → I t) :
    ∀ {as : List α} {s t : σ}, (∀ a ∈ as, P a) → S.run s as = some t → I s → I t
  | [], s, t, _, h, hs => by
    rw [run, Option.some.injEq] at h
    exact h ▸ hs
  | a :: as, s, t, hP, h, hs => by
    rw [run, Option.bind_eq_some_iff] at h
    obtain ⟨u, hu, hrest⟩ := h
    have hu' := hstep s a u hs (hP a List.mem_cons_self) hu
    exact run_invariant hstep (fun b hb => hP b (List.mem_cons_of_mem _ hb)) hrest hu'

theorem run_cons (s : σ) (a : α) (as : List α) :
    S.run s (a :: as) = (S.step s a).bind fun t => S.run t as := rfl

theorem run_append (s : σ) (as bs : List α) :
    S.run s (as ++ bs) = (S.run s as).bind fun t => S.run t bs := by
  induction as generalizing s with
  | nil => rfl
  | cons a as ih =>
    rw [List.cons_append, run_cons, run_cons, Option.bind_assoc]
    congr 1
    funext t
    exact ih t

/-- A run and one more step. -/
theorem run_concat_eq_some {s u : σ} {as : List α} {a : α} :
    S.run s (as ++ [a]) = some u ↔ ∃ t, S.run s as = some t ∧ S.step t a = some u := by
  rw [run_append, Option.bind_eq_some_iff]
  constructor
  · rintro ⟨t, ht, h⟩
    rw [run_cons, Option.bind_eq_some_iff] at h
    obtain ⟨v, hv, hnil⟩ := h
    rw [run_nil, Option.some.injEq] at hnil
    exact ⟨t, ht, hnil ▸ hv⟩
  · rintro ⟨t, ht, h⟩
    exact ⟨t, ht, by rw [run_cons, h]; rfl⟩

/-- An inductive invariant holds in every reachable state. -/
theorem ReachableBy.invariant {P : σ → α → Prop} {I : σ → Prop} {s : σ}
    (hs : S.ReachableBy P s) (hinit : ∀ s, S.init s → I s)
    (hstep : ∀ s a t, I s → P s a → S.step s a = some t → I t) : I s := by
  induction hs with
  | init h => exact hinit _ h
  | step _ hp h ih => exact hstep _ _ _ ih hp h

/-- An invariant that needs an invariant `J` already known to hold. -/
theorem ReachableBy.invariant_under {P : σ → α → Prop} {I J : σ → Prop} {s : σ}
    (hs : S.ReachableBy P s) (hJ : ∀ s, S.ReachableBy P s → J s) (hinit : ∀ s, S.init s → I s)
    (hstep : ∀ s a t, J s → I s → P s a → S.step s a = some t → I t) : I s := by
  induction hs with
  | init h => exact hinit _ h
  | step hr hp h ih => exact hstep _ _ _ (hJ _ hr) ih hp h

theorem ReachableBy.mono {P Q : σ → α → Prop} (hPQ : ∀ s a, P s a → Q s a) {s : σ}
    (hs : S.ReachableBy P s) : S.ReachableBy Q s := by
  induction hs with
  | init h => exact .init h
  | step _ hp h ih => exact .step ih (hPQ _ _ hp) h

/-- Reachability continues along a further run. -/
theorem ReachableBy.reaches {P : σ → α → Prop} {s t : σ} (hs : S.ReachableBy P s)
    (h : S.ReachesBy P s t) : S.ReachableBy P t := by
  induction h with
  | refl => exact hs
  | tail _ hp h ih => exact .step ih hp h

theorem ReachesBy.trans {P : σ → α → Prop} {s t u : σ} (h₁ : S.ReachesBy P s t)
    (h₂ : S.ReachesBy P t u) : S.ReachesBy P s u := by
  induction h₂ with
  | refl => exact h₁
  | tail _ hp h ih => exact .tail ih hp h

theorem ReachesBy.mono {P Q : σ → α → Prop} (hPQ : ∀ s a, P s a → Q s a) {s t : σ}
    (h : S.ReachesBy P s t) : S.ReachesBy Q s t := by
  induction h with
  | refl => exact .refl
  | tail _ hp h ih => exact .tail ih (hPQ _ _ hp) h

/-- A reflexive and transitive relation that every step from a reachable state respects relates
the two ends of every run. -/
theorem ReachesBy.related {P : σ → α → Prop} {R : σ → σ → Prop} {s t : σ}
    (hs : S.ReachableBy P s) (h : S.ReachesBy P s t) (hrefl : ∀ s, R s s)
    (htrans : ∀ s t u, R s t → R t u → R s u)
    (hstep : ∀ s a t, S.ReachableBy P s → P s a → S.step s a = some t → R s t) : R s t := by
  induction h with
  | refl => exact hrefl _
  | tail h₁ hp h ih => exact htrans _ _ _ ih (hstep _ _ _ (hs.reaches h₁) hp h)

/-- A computed run gives a run whose steps satisfy no restriction. -/
theorem reachesBy_of_run {s t : σ} {as : List α} (h : S.run s as = some t) :
    S.ReachesBy (fun _ _ => True) s t := by
  induction as generalizing s with
  | nil =>
    simp only [run_nil, Option.some.injEq] at h
    subst h
    exact .refl
  | cons a as ih =>
    rw [run_cons, Option.bind_eq_some_iff] at h
    obtain ⟨u, hu, hrest⟩ := h
    exact (ReachesBy.tail .refl trivial hu).trans (ih hrest)

/-- A computed run whose labels have been checked is a run under the restriction. -/
theorem reachesBy_of_runChecked {P : σ → α → Prop} [∀ s a, Decidable (P s a)] {s t : σ} {as : List α}
    (h : S.runChecked P s as = some t) : S.ReachesBy P s t := by
  induction as generalizing s with
  | nil =>
    simp only [runChecked, Option.some.injEq] at h
    subst h
    exact .refl
  | cons a as ih =>
    unfold runChecked at h
    split at h
    · next hp =>
      rw [Option.bind_eq_some_iff] at h
      obtain ⟨u, hu, hrest⟩ := h
      exact (ReachesBy.tail .refl hp hu).trans (ih hrest)
    · exact absurd h (by simp)

/-- A computed run from an initial state ends in a reachable state. -/
theorem reachable_of_run {s t : σ} {as : List α} (hs : S.init s) (h : S.run s as = some t) :
    S.Reachable t :=
  ReachableBy.reaches (.init hs) (reachesBy_of_run h)

end System

end BlackPearl.Library
