import BlackPearl.Library.Failure
import BlackPearl.Library.Slice
import BlackPearl.Library.Transition
import Mathlib.Algebra.Order.Ring.Int
import Mathlib.Data.Int.Cast.Lemmas

/-!
# Open files

`mediaFile` of `internal/pearlnfs/filesystem.go`: a position over a handle that reads at offsets. `Read`
and `Seek` hold the lock of the position for their whole call, so a call is one step; what the handle
answers is part of the label.

As long as the handle delivers bytes of its object, what has been read since the last `Seek` is the
object from there on, `Seek` goes exactly where it is told to or refuses, although its sums are of 64
bits, and the handle is closed once (`mediaFile_serves`).
-/

set_option autoImplicit false

namespace BlackPearl.Nfs

open BlackPearl.Library

/-! ## State and steps -/

/-- What `ReadAt` of a handle answers: the bytes it has copied, and its error. -/
structure ReadAnswer where
  bytes : List UInt8
  err : Option Failure := none
  deriving DecidableEq, Repr

/-- `io.SeekStart`, `io.SeekCurrent`, `io.SeekEnd`, or another number. -/
inductive Whence
  | seekStart
  | seekCurrent
  | seekEnd
  | unknown
  deriving DecidableEq, Repr

/-- `mediaFile` with the size of its handle. `closeErr` is what the one `Close` of the handle has
returned, and `handleCloses` counts these calls; `delivered` are the bytes of the `Read` calls since the
position was `origin`, where the last `Seek` has left it. -/
structure MediaFile where
  size : Int64
  offset : Int64 := 0
  closeErr : Option (Option Failure) := none
  handleCloses : ℕ := 0
  origin : ℕ := 0
  delivered : List UInt8 := []
  deriving DecidableEq, Repr

namespace MediaFile

/-- `Read`, of which the handle's answer is the result. -/
def read (f : MediaFile) (answer : ReadAnswer) : MediaFile :=
  { f with
    offset := f.offset + Int64.ofNat answer.bytes.length
    delivered := f.delivered ++ answer.bytes }

/-- `ReadAt`, which leaves the position alone. -/
def readAt (offset : Int64) (answer : ReadAnswer) : ReadAnswer :=
  if offset < 0 then ⟨[], some (.plain "negative offset")⟩ else answer

/-- Where `Seek` wants to go. -/
def target (f : MediaFile) (offset : Int64) : Whence → Option Int64
  | .seekStart => some offset
  | .seekCurrent => some (f.offset + offset)
  | .seekEnd => some (f.size + offset)
  | .unknown => none

/-- `Seek`. -/
def seek (f : MediaFile) (offset : Int64) (whence : Whence) : Except Failure Int64 × MediaFile :=
  match f.target offset whence with
  | none => (.error (.plain "invalid whence"), f)
  | some next =>
      if next < 0 then (.error (.plain "negative position"), f)
      else (.ok next, { f with offset := next, origin := next.toInt.toNat, delivered := [] })

/-- `Close`; `answer` is what the handle would return. -/
def close (f : MediaFile) (answer : Option Failure) : Option Failure × MediaFile :=
  match f.closeErr with
  | some closeErr => (closeErr, f)
  | none => (answer, { f with closeErr := some answer, handleCloses := f.handleCloses + 1 })

end MediaFile

/-- The calls, with what the handle answers. -/
inductive FileCall
  | read (wanted : ℕ) (answer : ReadAnswer)
  | readAt (wanted : ℕ) (offset : Int64) (answer : ReadAnswer)
  | seek (offset : Int64) (whence : Whence)
  | close (answer : Option Failure)

/-- The file after a call. -/
def MediaFile.call (f : MediaFile) : FileCall → MediaFile
  | .read _ answer => f.read answer
  | .readAt _ _ _ => f
  | .seek offset whence => (f.seek offset whence).2
  | .close answer => (f.close answer).2

section Object

variable (content : List UInt8)

/-- A file that has just been opened, on an object whose size is a number of 64 bits. -/
structure Opens (f : MediaFile) : Prop where
  size : f.size.toInt = content.length
  start : f = { size := f.size }

/-- The file under its calls. -/
def openedFile : System MediaFile FileCall := ⟨Opens content, fun f c => some (f.call c)⟩

/-- The handle copies bytes of the object from the offset it is given, no more than are wanted. -/
def Delivers (f : MediaFile) : FileCall → Prop
  | .read wanted answer => answer.bytes <+: slice content f.offset.toInt.toNat wanted
  | .readAt wanted offset answer => 0 ≤ offset → answer.bytes <+: slice content offset.toInt.toNat wanted
  | .seek _ _ => True
  | .close _ => True

/-- Where a `Seek` is told to go, in the integers. -/
def wantedPosition (f : MediaFile) (offset : Int64) : Whence → Option ℤ
  | .seekStart => some offset.toInt
  | .seekCurrent => some (f.origin + f.delivered.length + offset.toInt)
  | .seekEnd => some (content.length + offset.toInt)
  | .unknown => none

/-- What a `Seek` does: it goes where it is told to, as long as that is a position of 64 bits, and
otherwise leaves the file alone. -/
def SeeksTo (f : MediaFile) (offset : Int64) (whence : Whence) : Prop :=
  match wantedPosition content f offset whence with
  | none => f.seek offset whence = (.error (.plain "invalid whence"), f)
  | some p =>
      if 0 ≤ p ∧ p < 2 ^ 63 then
        ∃ next : Int64, next.toInt = p ∧
          f.seek offset whence = (.ok next, { f with offset := next, origin := p.toNat, delivered := [] })
      else f.seek offset whence = (.error (.plain "negative position"), f)

/-- What holds of a file between two calls. -/
structure FileInvariant (f : MediaFile) : Prop where
  size : f.size.toInt = content.length
  offset : f.offset.toInt = f.origin + f.delivered.length
  delivered : f.delivered = slice content f.origin f.delivered.length
  closes : f.handleCloses = if f.closeErr.isSome then 1 else 0

end Object

/-! ## Steps -/

section Steps

variable {content : List UInt8} {f : MediaFile}

/-- A sum of a position and a number is exact, or wraps to a negative number. -/
theorem toInt_add_of_nonneg {x y : Int64} (hx : 0 ≤ x.toInt) :
    (x + y).toInt = if x.toInt + y.toInt < 2 ^ 63 then x.toInt + y.toInt
      else x.toInt + y.toInt - 2 ^ 64 := by
  have hxhigh := x.toInt_lt
  have hylow := y.le_toInt
  have hyhigh := y.toInt_lt
  rw [Int64.toInt_add, Int.bmod_def]
  split <;> split <;> omega

theorem lt_zero_iff {x : Int64} : x < 0 ↔ x.toInt < 0 := Int64.lt_iff_toInt_lt

/-- `Seek` goes where it is told to, if that is a number of 64 bits that is not negative. -/
theorem FileInvariant.target (h : FileInvariant content f) (offset : Int64) (whence : Whence) :
    (f.target offset whence = none ↔ wantedPosition content f offset whence = none) ∧
      ∀ next p, f.target offset whence = some next → wantedPosition content f offset whence = some p →
        (0 ≤ next.toInt ↔ 0 ≤ p ∧ p < 2 ^ 63) ∧ (0 ≤ next.toInt → next.toInt = p) := by
  have hsum : ∀ x : Int64, 0 ≤ x.toInt → ∀ p, x.toInt + offset.toInt = p →
      (0 ≤ (x + offset).toInt ↔ 0 ≤ p ∧ p < 2 ^ 63) ∧ (0 ≤ (x + offset).toInt → (x + offset).toInt = p) := by
    rintro x hx p rfl
    have hlow := x.toInt_lt
    have hhigh := offset.toInt_lt
    rw [toInt_add_of_nonneg hx]
    split <;> omega
  cases whence with
  | seekStart =>
    refine ⟨by simp [MediaFile.target, wantedPosition], ?_⟩
    rintro next p hnext hp
    obtain rfl := Option.some.inj hnext
    obtain rfl := Option.some.inj hp
    have hhigh := offset.toInt_lt
    omega
  | seekCurrent =>
    refine ⟨by simp [MediaFile.target, wantedPosition], ?_⟩
    rintro next p hnext hp
    obtain rfl := Option.some.inj hnext
    obtain rfl := Option.some.inj hp
    have hposition := h.offset
    exact hsum f.offset (by omega) _ (by rw [hposition])
  | seekEnd =>
    refine ⟨by simp [MediaFile.target, wantedPosition], ?_⟩
    rintro next p hnext hp
    obtain rfl := Option.some.inj hnext
    obtain rfl := Option.some.inj hp
    have hsize := h.size
    exact hsum f.size (by omega) _ (by rw [hsize])
  | unknown =>
    refine ⟨by simp [MediaFile.target, wantedPosition], ?_⟩
    rintro next p hnext _
    cases hnext

/-- A `Read` goes on where the one before has stopped. -/
theorem FileInvariant.read (h : FileInvariant content f) {wanted : ℕ} {answer : ReadAnswer}
    (hanswer : answer.bytes <+: slice content f.offset.toInt.toNat wanted) :
    FileInvariant content (f.read answer) := by
  have hposition : f.offset.toInt.toNat = f.origin + f.delivered.length := by
    have := h.offset
    omega
  rw [hposition] at hanswer
  have hbytes := eq_slice_of_prefix hanswer
  have hcontent : (content.length : ℤ) < 2 ^ 63 := by
    have := f.size.toInt_lt
    rw [h.size] at this
    exact this
  constructor
  · exact h.size
  · -- nothing is copied from beyond the end of the object, so that the sum does not wrap
    have hend : answer.bytes.length = 0 ∨
        f.origin + f.delivered.length + answer.bytes.length ≤ content.length := by
      have hlength := congrArg List.length hbytes
      rw [length_slice] at hlength
      omega
    have hcount : (Int64.ofNat answer.bytes.length).toInt = answer.bytes.length := by
      apply Int64.toInt_ofNat_of_lt
      omega
    have hoffset := h.offset
    have hhigh := f.offset.toInt_lt
    show (f.offset + Int64.ofNat answer.bytes.length).toInt = _
    rw [toInt_add_of_nonneg (by omega), hcount, hoffset]
    simp only [MediaFile.read, List.length_append]
    push_cast
    split <;> omega
  · show f.delivered ++ answer.bytes = _
    rw [MediaFile.read, List.length_append, ← slice_append, ← h.delivered, ← hbytes]
  · exact h.closes

/-- Every call keeps the invariant. -/
theorem FileInvariant.call (h : FileInvariant content f) (c : FileCall) (hc : Delivers content f c) :
    FileInvariant content (f.call c) := by
  cases c with
  | read wanted answer => exact h.read hc
  | readAt wanted offset answer => exact h
  | seek offset whence =>
    show FileInvariant content (f.seek offset whence).2
    unfold MediaFile.seek
    split
    · exact h
    · next next hnext =>
      split
      · exact h
      · next hnonneg =>
        rw [lt_zero_iff, not_lt] at hnonneg
        refine ⟨h.size, ?_, by simp, h.closes⟩
        simp only [List.length_nil, Int.natCast_zero, add_zero]
        omega
  | close answer =>
    show FileInvariant content (f.close answer).2
    unfold MediaFile.close
    have hcloses := h.closes
    split
    · exact h
    · next hopen =>
      rw [hopen] at hcloses
      refine ⟨h.size, h.offset, h.delivered, ?_⟩
      rw [hcloses]
      rfl

/-- `Seek` in the integers. -/
theorem FileInvariant.seeksTo (h : FileInvariant content f) (offset : Int64) (whence : Whence) :
    SeeksTo content f offset whence := by
  obtain ⟨hnone, hsome⟩ := h.target offset whence
  unfold SeeksTo MediaFile.seek
  cases hp : wantedPosition content f offset whence with
  | none => rw [hnone.mpr hp]
  | some p =>
    cases hnext : f.target offset whence with
    | none =>
      rw [hnone.mp hnext] at hp
      cases hp
    | some next =>
      obtain ⟨hrange, hexact⟩ := hsome next p hnext hp
      have hnegative : next < 0 ↔ ¬(0 ≤ p ∧ p < 2 ^ 63) := by
        rw [lt_zero_iff, ← not_le, hrange]
      dsimp only
      by_cases hin : 0 ≤ p ∧ p < 2 ^ 63
      · have hposition := hexact (hrange.mpr hin)
        rw [if_pos hin, if_neg (fun h => hnegative.mp h hin), hposition]
        exact ⟨next, hposition, rfl⟩
      · rw [if_neg hin, if_pos (hnegative.mpr hin)]

theorem FileInvariant.opened (h : Opens content f) : FileInvariant content f := by
  obtain ⟨hsize, hstart⟩ := h
  rw [hstart]
  exact ⟨hsize, by simp, by simp, rfl⟩

/-- No call forgets what the handle's `Close` has returned. -/
theorem closeErr_call {closeErr : Option Failure} (h : f.closeErr = some closeErr) (c : FileCall) :
    (f.call c).closeErr = some closeErr := by
  cases c with
  | read wanted answer => exact h
  | readAt wanted offset answer => exact h
  | seek offset whence =>
    show (f.seek offset whence).2.closeErr = _
    unfold MediaFile.seek
    split
    · exact h
    · split <;> exact h
  | close answer =>
    show (f.close answer).2.closeErr = _
    unfold MediaFile.close
    rw [h]
    exact h

end Steps

/-! ## Runs -/

/-- However `Read`, `ReadAt`, `Seek` and `Close` follow each other on an open file whose handle delivers
bytes of its object: what was read since the last `Seek` is the object from where the `Seek` had gone,
without a gap, and the position is behind it; every `Seek` goes exactly where it is told to, or refuses
and leaves the file alone; the handle is closed at most once, and every later `Close` returns what that
one has returned. -/
theorem mediaFile_serves (content : List UInt8) {f : MediaFile}
    (hf : (openedFile content).ReachableBy (Delivers content) f) :
    f.delivered = slice content f.origin f.delivered.length ∧
      f.offset.toInt = f.origin + f.delivered.length ∧
      (∀ offset whence, SeeksTo content f offset whence) ∧
      f.handleCloses ≤ 1 ∧
      ∀ g closeErr answer, (openedFile content).ReachesBy (Delivers content) f g →
        f.closeErr = some closeErr → g.close answer = (closeErr, g) := by
  have hinvariant : FileInvariant content f := by
    apply hf.invariant
    · intro s hs
      exact FileInvariant.opened hs
    · rintro s c t hs hc hst
      obtain rfl := Option.some.inj hst
      exact hs.call c hc
  refine ⟨hinvariant.delivered, hinvariant.offset, hinvariant.seeksTo, ?_, ?_⟩
  · rw [hinvariant.closes]
    split <;> omega
  · intro g closeErr answer hg hclosed
    have hkept : g.closeErr = some closeErr := by
      induction hg with
      | refl => exact hclosed
      | @tail t u c _ _ hstep ih =>
        obtain rfl := Option.some.inj hstep
        exact closeErr_call ih c
    unfold MediaFile.close
    rw [hkept]

/-- Six bytes of which three are read, one is skipped and the rest is read. -/
theorem mediaFile_serves_six :
    ∃ f : MediaFile, f.delivered = [4, 5] ∧ f.offset = 6 ∧ f.handleCloses = 1 ∧
      f.delivered = slice [0, 1, 2, 3, 4, 5] f.origin f.delivered.length := by
  let content : List UInt8 := [0, 1, 2, 3, 4, 5]
  let start : MediaFile := { size := 6 }
  let calls : List FileCall :=
    [.read 3 ⟨[0, 1, 2], none⟩, .seek 1 .seekCurrent, .read 4 ⟨[4, 5], some .eof⟩, .close none]
  have hfile : ∃ f, (openedFile content).ReachableBy (Delivers content) f ∧
      f.delivered = [4, 5] ∧ f.offset = 6 ∧ f.handleCloses = 1 := by
    have hstart : (openedFile content).ReachableBy (Delivers content) start :=
      .init ⟨by decide, rfl⟩
    refine ⟨_, .step (.step (.step (.step hstart (a := calls[0]) ?_ rfl) (a := calls[1]) trivial rfl)
      (a := calls[2]) ?_ rfl) (a := calls[3]) trivial rfl, ?_, ?_, ?_⟩
    · exact ⟨[], by decide⟩
    · exact ⟨[], by decide⟩
    all_goals decide
  obtain ⟨f, hf, hdelivered, hoffset, hcloses⟩ := hfile
  exact ⟨f, hdelivered, hoffset, hcloses, (mediaFile_serves content hf).1⟩

end BlackPearl.Nfs
