import BlackPearl.HttpRange.Strict

/-!
# Cancelled calls of range sources

A call of a range source whose context is cancelled fails where it stands: at the check of the context,
at a request, or while it reads a body. Its caller can tell only if the cancellation is a cause of the
error (`Shows`). What the calls of the sources have in common is here.
-/

set_option autoImplicit false

namespace BlackPearl.HttpRange

open BlackPearl.Library

universe u v

/-! ## Errors that show a cancellation -/

@[simp] theorem is_canceled_canceled : Failure.is .canceled .canceled = true := rfl

@[simp] theorem is_canceled_plain (text : String) : Failure.is (.plain text) .canceled = false := rfl

@[simp] theorem is_canceled_wrapped (text : String) (cause : Failure) :
    Failure.is (.wrapped text cause) .canceled = cause.is .canceled := rfl

@[simp] theorem is_canceled_joined (only : Failure) :
    Failure.is (.joined only) .canceled = only.is .canceled := rfl

@[simp] theorem is_canceled_joinedBoth (first second : Failure) :
    Failure.is (.joinedBoth first second) .canceled = (first.is .canceled || second.is .canceled) := rfl

@[simp] theorem failure_canceled : ContextError.failure .canceled = .canceled := rfl

/-- The call fails with an error that shows the cancellation. -/
def Shows {α : Type u} (result : Except Failure α) : Prop :=
  ∃ e, result = .error e ∧ e.is .canceled = true

theorem Shows.bind {α β : Type u} {x : Except Failure α} {f : α → Except Failure β} (h : Shows x) :
    Shows (x >>= f) := by
  obtain ⟨e, rfl, he⟩ := h
  exact ⟨e, rfl, he⟩

/-- The failure of a read that has copied nothing shows the cancellation. -/
def ReadResult.Shows (result : ReadResult) : Prop :=
  ∃ e, result.err = some e ∧ e.is .canceled = true

theorem shows_failed {destination : List UInt8} {e : Failure} (h : e.is .canceled = true) :
    (failed destination e).Shows := ⟨e, rfl, h⟩

/-- The error of a deferred `Close` is joined to any error. -/
def joinClose {α : Type u} (result : Except Failure α) (closeError : Option Failure) : Except Failure α :=
  match result, closeError with
  | .ok value, none => .ok value
  | .ok _, some e => .error (.joined e)
  | .error e, none => .error (.joined e)
  | .error e, some closeError => .error (.joinedBoth e closeError)

theorem Shows.joinClose {α : Type u} {result : Except Failure α} (h : Shows result)
    (closeError : Option Failure) : Shows (joinClose result closeError) := by
  obtain ⟨e, rfl, he⟩ := h
  cases closeError with
  | none => exact ⟨_, rfl, he⟩
  | some closeError => exact ⟨_, rfl, by rw [is_canceled_joinedBoth, he, Bool.true_or]⟩

theorem shows_join {e : Failure} (h : e.is .canceled = true) (closeError : Option Failure) :
    ∃ e', Failure.join (some e) closeError = some e' ∧ e'.is .canceled = true := by
  cases closeError with
  | none => exact ⟨_, rfl, h⟩
  | some closeError => exact ⟨_, rfl, by rw [is_canceled_joinedBoth, h, Bool.true_or]⟩

/-! ## Requests -/

/-- A request for a URL: `http.NewRequestWithContext`, `Client.Do`, and `ctx.Err()` after a request that
has failed. -/
structure Exchange (ρ : Type v) where
  newRequest : String → Option Failure
  send : String → Except Failure ρ
  after : Option ContextError

/-! ## Reads -/

/-- A read that gets to its request. -/
structure Ready (closed : Bool) (size : ℤ) (ctx : ReadContext) (destination : List UInt8) (offset wanted : ℤ)
    (clipped : Bool) : Prop where
  live : ctx.before = none
  isOpen : closed = false
  wanted : Wanted size destination offset wanted clipped

theorem readAvailable_cancelled {texts : SourceTexts} {closed : Bool} {size : ℤ} {ctx : ReadContext}
    {destination : List UInt8} {offset : ℤ} {read : ℤ → Bool → ReadResult}
    (h : ctx.before = some .canceled) :
    (readAvailable texts closed size ctx destination offset read).Shows := by
  simp only [readAvailable, h]
  exact shows_failed rfl

theorem Ready.readAvailable {texts : SourceTexts} {closed : Bool} {size : ℤ} {ctx : ReadContext}
    {destination : List UInt8} {offset wanted : ℤ} {clipped : Bool} {read : ℤ → Bool → ReadResult}
    (h : Ready closed size ctx destination offset wanted clipped) :
    readAvailable texts closed size ctx destination offset read = read wanted clipped := by
  have hpos : destination.length ≠ 0 := (List.length_pos_iff.2 h.wanted.nonempty).ne'
  have hcount := h.wanted.count
  simp only [HttpRange.readAvailable, h.live, h.isOpen, Bool.false_eq_true, if_false,
    if_neg (not_lt.2 h.wanted.low), if_neg hpos, if_neg (not_le.2 h.wanted.less)]
  cases clipped with
  | true =>
    have hless := h.wanted.clipped_iff.1 rfl
    rw [if_pos hless, hcount, min_eq_right hless.le]
  | false =>
    have hle : ¬ size - offset < destination.length := fun hless =>
      Bool.false_ne_true (h.wanted.clipped_iff.2 hless)
    rw [if_neg hle, hcount, min_eq_left (not_lt.1 hle)]

/-- The body of a response that is accepted so far ends with an error. -/
structure BodyFails (texts : SourceTexts) (size : ℤ) (validator : Response → Except Failure Unit)
    (response : Response) (offset wanted : ℤ) (e : Failure) : Prop where
  status : response.statusCode = statusPartialContent
  range : checkContentRange texts.contentRange (response.header "Content-Range") offset
    (offset + wanted - 1) size = .ok ()
  validated : validator response = .ok ()
  unread : response.body.readLimited (wanted + 1).toNat = .error e

theorem BodyFails.completeBody {texts : SourceTexts} {size : ℤ}
    {validator : Response → Except Failure Unit} {response : Response} {offset wanted : ℤ} {e : Failure}
    (h : BodyFails texts size validator response offset wanted e) :
    completeBody texts size validator response offset wanted = .error (texts.unread e) := by
  have hstatus : ¬ response.statusCode ≠ statusPartialContent := not_not.2 h.status
  simp only [HttpRange.completeBody, if_neg hstatus, h.range, h.validated, h.unread]
  rfl

end BlackPearl.HttpRange
