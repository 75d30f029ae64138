import Mathlib.Data.List.Basic
import Mathlib.Tactic.Common

/-!
# Programs whose steps may fail and that may crash

A program works on a state in steps. At every step the environment gives a verdict: the step takes
effect, it fails, or the process ends there; a step that is cut short may leave something behind.
`Spec A P m Q E C` says what holds of the state when `m`, started where `P` holds under verdicts that
all satisfy `A`, returns (`Q`), returns an error (`E`) or is cut off by a crash (`C`). The rules are
those of a Hoare logic; a proof about `m` never looks at the verdicts.
-/

set_option autoImplicit false

namespace BlackPearl.Library

universe u v w

/-- How a program ends. -/
inductive Outcome (ε : Type u) (α : Type v)
  | ok (a : α)
  | error (e : ε)
  | crashed
  deriving DecidableEq, Repr

/-- A program that ends with a result that was computed. -/
def Outcome.of {ε : Type u} {α : Type v} : Except ε α → Outcome ε α
  | .ok a => .ok a
  | .error e => .error e

/-- What becomes of a step; `left` is what a step leaves that is cut short. -/
inductive Verdict (τ : Type u)
  | done
  | fails (left : τ)
  | crashes (left : τ)

/-- A state and the verdicts on the steps to come. -/
structure Machine (σ : Type u) (τ : Type v) where
  state : σ
  verdicts : ℕ → Verdict τ

/-- A machine on which every step takes effect. -/
def Machine.calm {σ : Type u} {τ : Type v} (s : σ) : Machine σ τ := ⟨s, fun _ => .done⟩

/-- A program with results `α` and errors `ε`. -/
def Program (σ : Type u) (τ : Type v) (ε α : Type w) : Type (max u v w) :=
  Machine σ τ → Outcome ε α × Machine σ τ

namespace Program

variable {σ : Type u} {τ : Type v} {ε α β : Type w}

/-- Go on with the result; errors and crashes end the program. -/
def andThen (m : Program σ τ ε α) (f : α → Program σ τ ε β) : Program σ τ ε β := fun s =>
  match m s with
  | (.ok a, t) => f a t
  | (.error e, t) => (.error e, t)
  | (.crashed, t) => (.crashed, t)

instance : Monad (Program σ τ ε) where
  pure a := fun s => (.ok a, s)
  bind := andThen

/-- End with an error. -/
def fail (e : ε) : Program σ τ ε α := fun s => (.error e, s)

/-- Do something else on an error. -/
def onError (m : Program σ τ ε α) (h : ε → Program σ τ ε α) : Program σ τ ε α := fun s =>
  match m s with
  | (.ok a, t) => (.ok a, t)
  | (.error e, t) => h e t
  | (.crashed, t) => (.crashed, t)

/-- Say something else of an error. -/
def mapError (m : Program σ τ ε α) (f : ε → ε) : Program σ τ ε α := onError m fun e => fail (f e)

/-- One step: its effect, what it leaves when it is cut short, and the error when it fails. -/
def step (effect : σ → Except ε (α × σ)) (torn : τ → σ → σ) (failure : ε) : Program σ τ ε α := fun s =>
  let later := fun n => s.verdicts (n + 1)
  match s.verdicts 0 with
  | .done =>
      match effect s.state with
      | .ok (a, t) => (.ok a, ⟨t, later⟩)
      | .error e => (.error e, ⟨s.state, later⟩)
  | .fails left => (.error failure, ⟨torn left s.state, later⟩)
  | .crashes left => (.crashed, ⟨torn left s.state, later⟩)

/-- The state in which a program ends. -/
inductive Ends (Q : α → σ → Prop) (E : ε → σ → Prop) (C : σ → Prop) : Outcome ε α → σ → Prop
  | ok {a : α} {s : σ} : Q a s → Ends Q E C (.ok a) s
  | error {e : ε} {s : σ} : E e s → Ends Q E C (.error e) s
  | crashed {s : σ} : C s → Ends Q E C .crashed s

/-- What a program guarantees of the state in which it ends; it is cut off only where the environment
may do so. -/
def Spec (A : Verdict τ → Prop) (P : σ → Prop) (m : Program σ τ ε α) (Q : α → σ → Prop)
    (E : ε → σ → Prop) (C : σ → Prop) : Prop :=
  ∀ s, (∀ n, A (s.verdicts n)) → P s.state →
    Ends Q E (fun t => C t ∧ ∃ left, A (.crashes left)) (m s).1 (m s).2.state ∧
      ∀ n, A ((m s).2.verdicts n)

variable {A : Verdict τ → Prop} {P P' : σ → Prop} {Q Q' : α → σ → Prop} {E E' : ε → σ → Prop}
  {C C' : σ → Prop}

theorem Ends.mono {o : Outcome ε α} {s : σ} (h : Ends Q E C o s) (hQ : ∀ a s, Q a s → Q' a s)
    (hE : ∀ e s, E e s → E' e s) (hC : ∀ s, C s → C' s) : Ends Q' E' C' o s := by
  cases h with
  | ok h => exact .ok (hQ _ _ h)
  | error h => exact .error (hE _ _ h)
  | crashed h => exact .crashed (hC _ h)

/-- The rule of consequence. -/
theorem Spec.weaken {m : Program σ τ ε α} (h : Spec A P m Q E C) (hP : ∀ s, P' s → P s)
    (hQ : ∀ a s, Q a s → Q' a s) (hE : ∀ e s, E e s → E' e s) (hC : ∀ s, C s → C' s) :
    Spec A P' m Q' E' C' := by
  intro s hA hs
  obtain ⟨hends, hlater⟩ := h s hA (hP _ hs)
  exact ⟨hends.mono hQ hE fun t h => ⟨hC t h.1, h.2⟩, hlater⟩

/-- It suffices to start from each state that the precondition admits. -/
theorem Spec.start {m : Program σ τ ε α} (h : ∀ s, P s → Spec A (fun t => t = s) m Q E C) :
    Spec A P m Q E C :=
  fun s hA hs => h s.state hs s hA rfl

theorem Spec.pure {a : α} (h : ∀ s, P s → Q a s) : Spec A P (Pure.pure a : Program σ τ ε α) Q E C :=
  fun _ hA hs => ⟨.ok (h _ hs), hA⟩

theorem Spec.fail {e : ε} (h : ∀ s, P s → E e s) : Spec A P (Program.fail e : Program σ τ ε α) Q E C :=
  fun _ hA hs => ⟨.error (h _ hs), hA⟩

/-- The rule of sequencing. -/
theorem Spec.bind {m : Program σ τ ε α} {f : α → Program σ τ ε β} {R : α → σ → Prop}
    {Q : β → σ → Prop} (hm : Spec A P m R E C) (hf : ∀ a, Spec A (R a) (f a) Q E C) :
    Spec A P (m >>= f) Q E C := by
  intro s hA hs
  obtain ⟨hends, hlater⟩ := hm s hA hs
  have hbind : (m >>= f) s = andThen m f s := rfl
  rw [hbind, andThen]
  generalize m s = r at hends hlater
  obtain ⟨o, t⟩ := r
  cases hends with
  | ok h => exact hf _ t hlater h
  | error h => exact ⟨.error h, hlater⟩
  | crashed h => exact ⟨.crashed h, hlater⟩

/-- The rule of errors: the handler starts in the state in which the error arose. -/
theorem Spec.onError {m : Program σ τ ε α} {h : ε → Program σ τ ε α} {F : ε → σ → Prop}
    (hm : Spec A P m Q F C) (hh : ∀ e, Spec A (F e) (h e) Q E C) :
    Spec A P (onError m h) Q E C := by
  intro s hA hs
  obtain ⟨hends, hlater⟩ := hm s hA hs
  unfold Program.onError
  generalize m s = r at hends hlater
  obtain ⟨o, t⟩ := r
  cases hends with
  | ok h => exact ⟨.ok h, hlater⟩
  | error he => exact hh _ t hlater he
  | crashed h => exact ⟨.crashed h, hlater⟩

theorem Spec.mapError {m : Program σ τ ε α} {f : ε → ε} (hm : Spec A P m Q (fun e => E (f e)) C) :
    Spec A P (mapError m f) Q E C :=
  Spec.onError hm fun _ => .fail fun _ h => h

/-- The rule of a step: its effect, and what remains of it when it fails or the process ends. -/
theorem Spec.step {effect : σ → Except ε (α × σ)} {torn : τ → σ → σ} {failure : ε}
    (hok : ∀ s a t, P s → effect s = .ok (a, t) → Q a t)
    (herror : ∀ s e, P s → effect s = .error e → E e s)
    (hfails : ∀ s left, P s → A (.fails left) → E failure (torn left s))
    (hcrashes : ∀ s left, P s → A (.crashes left) → C (torn left s)) :
    Spec A P (step effect torn failure) Q E C := by
  intro s hA hs
  have hlater : ∀ n, A (s.verdicts (n + 1)) := fun n => hA (n + 1)
  have hnow := hA 0
  unfold Program.step
  generalize s.verdicts 0 = verdict at hnow
  cases verdict with
  | done =>
    cases heffect : effect s.state with
    | ok r =>
      obtain ⟨a, t⟩ := r
      exact ⟨.ok (hok _ _ _ hs heffect), hlater⟩
    | error e => exact ⟨.error (herror _ _ hs heffect), hlater⟩
  | fails left => exact ⟨.error (hfails _ left hs hnow), hlater⟩
  | crashes left => exact ⟨.crashed ⟨hcrashes _ left hs hnow, left, hnow⟩, hlater⟩

/-- The rule of a loop over a list; the invariant speaks of the elements still to come. -/
theorem Spec.forM {l : List β} {f : β → Program σ τ ε PUnit} {I : List β → σ → Prop}
    (hstep : ∀ b more, b :: more <:+ l → Spec A (I (b :: more)) (f b) (fun _ => I more) E C) :
    Spec A (I l) (l.forM f) (fun _ => I []) E C := by
  induction l with
  | nil => exact .pure fun _ h => h
  | cons b more ih =>
    have hmore : Spec A (I more) (more.forM f) (fun _ => I []) E C :=
      ih fun c rest hsuffix => hstep c rest (hsuffix.trans (List.suffix_cons b more))
    exact Spec.bind (hstep b more List.suffix_rfl) fun _ => hmore

/-- Where every step takes effect, a program without errors returns. -/
theorem Spec.returns {m : Program σ τ ε α} {s : σ}
    (h : Spec (fun v => v = .done) P m Q (fun _ _ => False) C) (hs : P s) :
    ∃ a t, m (.calm s) = (.ok a, .calm t) ∧ Q a t := by
  obtain ⟨hends, hlater⟩ := h (.calm s) (fun _ => rfl) hs
  generalize hr : m (.calm s) = r at hends hlater
  obtain ⟨o, t, verdicts⟩ := r
  obtain rfl : verdicts = fun _ => .done := funext hlater
  cases hends with
  | ok h => exact ⟨_, t, rfl, h⟩
  | error h => exact h.elim
  | crashed h => exact absurd h.2.choose_spec (by rintro ⟨⟩)

/-- Where every step takes effect, a program that can only end with one result ends with it. -/
theorem Spec.decides {m : Program σ τ ε α} {r : Except ε α} {s : σ}
    (h : Spec (fun v => v = .done) P m (fun a _ => r = .ok a) (fun e _ => r = .error e) C)
    (hs : P s) : (m (.calm s)).1 = Outcome.of r := by
  obtain ⟨hends, _⟩ := h (.calm s) (fun _ => rfl) hs
  generalize m (.calm s) = ended at hends
  obtain ⟨o, t⟩ := ended
  cases hends with
  | ok h => rw [h, Outcome.of]
  | error h => rw [h, Outcome.of]
  | crashed h => exact absurd h.2.choose_spec (by rintro ⟨⟩)

end Program

end BlackPearl.Library
