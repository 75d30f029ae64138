/-!
# Errors with causes

An error as a tree: plain errors, errors that wrap another one with a text, and joined errors. `is`
finds a sentinel anywhere in the tree; the sentinel itself is a different value from an error that
wraps it.
-/

set_option autoImplicit false

namespace BlackPearl.Library

/-- An error: the sentinels `io.EOF` and those of `context`, `errors.New`, `fmt.Errorf` with `%w`, and
what `errors.Join` returns for one or two errors. -/
inductive Failure
  | eof
  | canceled
  | deadlineExceeded
  | plain (text : String)
  | wrapped (text : String) (cause : Failure)
  | joined (only : Failure)
  | joinedBoth (first second : Failure)
  deriving DecidableEq, Repr

namespace Failure

/-- `errors.Is`, for a sentinel. -/
def is : Failure → Failure → Bool
  | .wrapped text cause, target => .wrapped text cause = target || is cause target
  | .joined only, target => .joined only = target || is only target
  | .joinedBoth first second, target =>
      .joinedBoth first second = target || is first target || is second target
  | e, target => e = target

/-- `errors.Join`. -/
def join : Option Failure → Option Failure → Option Failure
  | none, none => none
  | some e, none => some (.joined e)
  | none, some e => some (.joined e)
  | some e, some e' => some (.joinedBoth e e')

end Failure

/-- What `ctx.Err()` can be. -/
inductive ContextError
  | canceled
  | deadlineExceeded
  deriving DecidableEq, Repr

/-- The error of a context as an error. -/
def ContextError.failure : ContextError → Failure
  | .canceled => .canceled
  | .deadlineExceeded => .deadlineExceeded

theorem ContextError.failure_ne_eof (e : ContextError) : e.failure ≠ .eof := by
  cases e <;> exact fun h => Failure.noConfusion h

universe u v

/-- Where a computation of two parts fails. -/
theorem bind_eq_error {ε : Type v} {α β : Type u} {r : Except ε α} {f : α → Except ε β} {e : ε} :
    r >>= f = .error e ↔ r = .error e ∨ ∃ a, r = .ok a ∧ f a = .error e := by
  cases r with
  | ok a =>
    constructor
    · exact fun h => .inr ⟨a, rfl, h⟩
    · rintro (h | ⟨a', ha, h⟩)
      · cases h
      · cases ha
        exact h
  | error e' =>
    constructor
    · intro h
      cases h
      exact .inl rfl
    · rintro (h | ⟨a, ha, _⟩)
      · cases h
        rfl
      · cases ha

end BlackPearl.Library
