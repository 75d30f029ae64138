import Mathlib.Tactic.Common

/-!
# Buffered channels of signals

A channel whose elements carry no data, with a buffer of `capacity` places. `send` and `receive`
block when the buffer is full or empty; `trySend` is the `select` with a default that drops the
signal instead.
-/

set_option autoImplicit false

namespace BlackPearl.Library

/-- A channel with the signals that wait in its buffer. -/
structure Signals (capacity : ℕ) where
  waiting : ℕ
  waiting_le : waiting ≤ capacity
  deriving DecidableEq, Repr

namespace Signals

variable {capacity : ℕ}

/-- A channel that has just been made. -/
def empty : Signals capacity := ⟨0, Nat.zero_le capacity⟩

/-- Put a signal into the buffer; `none` while it is full. -/
def send (c : Signals capacity) : Option (Signals capacity) :=
  if h : c.waiting < capacity then some ⟨c.waiting + 1, h⟩ else none

/-- Take a signal from the buffer; `none` while it is empty. -/
def receive (c : Signals capacity) : Option (Signals capacity) :=
  if c.waiting = 0 then none else some ⟨c.waiting - 1, Nat.le_trans (Nat.sub_le _ _) c.waiting_le⟩

/-- Put a signal into the buffer, or drop it. -/
def trySend (c : Signals capacity) : Signals capacity := c.send.getD c

/-- With room for a signal at all, one waits after a `trySend`. -/
theorem waiting_trySend_pos (hcapacity : 0 < capacity) (c : Signals capacity) :
    0 < c.trySend.waiting := by
  unfold trySend send
  split
  · exact Nat.succ_pos _
  · next hfull => exact Nat.lt_of_lt_of_le hcapacity (Nat.not_lt.1 hfull)

end Signals

end BlackPearl.Library
