import BlackPearl.Library.Signals
import BlackPearl.Library.Transition
import Mathlib.Data.Int.Notation

/-!
# The Plex refresh worker

`internal/service/plexrefresh/worker.go`. Publications call `Notify` at any time; one goroutine runs
`Run`, which waits for a signal, lets further ones pass for a while, and refreshes until a refresh
succeeds. Every label is one action of a caller or of the worker, so a run of `workerStep` is an
interleaving.

The state remembers what has happened, for the statement that no notification is lost: when the
worker waits and no signal does, a refresh that was started after the last `Notify` has succeeded.
-/

set_option autoImplicit false

namespace BlackPearl.Plex

open BlackPearl.Library

/-! ## The worker -/

/-- What callers and the refresher can tell about a run. -/
inductive RefreshEvent
  | notified
  | started
  | ended (succeeded : Bool)
  | reported
  deriving DecidableEq, Repr

/-- Where `Run` stands: at its receive, in one of its two waits, before, in and after the drain, or
with the result of a refresh. -/
inductive WorkerPhase
  | waiting
  | debouncing
  | draining
  | attempting
  | refreshing
  | failed
  | retrying
  | stopped
  deriving DecidableEq, Repr

/-- `Worker` with the goroutine that runs it. -/
structure WorkerState where
  phase : WorkerPhase
  notifications : Signals 1
  cancelled : Bool
  events : List RefreshEvent
  deriving DecidableEq, Repr

/-- `Options`, in nanoseconds. -/
structure RefreshOptions where
  debounce : ℤ
  retryInterval : ℤ
  deriving DecidableEq, Repr

/-- `New`, and the start of `Run`. -/
def newWorker (hasRefresher : Bool) (options : RefreshOptions) : Except String WorkerState :=
  if ¬ hasRefresher then .error "plex refresher is required"
  else if options.debounce ≤ 0 ∨ options.retryInterval ≤ 0 then
    .error "plex refresh debounce and retry interval must be positive"
  else .ok {
    phase := .waiting
    notifications := .empty
    cancelled := false
    events := [] }

inductive WorkerLabel
  | notify
  | cancel
  | receive
  | debounced
  | drain
  | start
  | refreshed (succeeded : Bool)
  | report
  | elapsed
  | stop
  deriving DecidableEq, Repr

/-- `Notify`. -/
def notify (s : WorkerState) : WorkerState :=
  { s with notifications := s.notifications.trySend, events := s.events ++ [.notified] }

/-- One action. -/
def workerStep (s : WorkerState) : WorkerLabel → Option WorkerState
  | .notify => some (notify s)
  | .cancel => some { s with cancelled := true }
  | .receive =>
      if s.phase = .waiting then
        s.notifications.receive.map fun c => { s with notifications := c, phase := .debouncing }
      else none
  | .debounced => if s.phase = .debouncing then some { s with phase := .draining } else none
  | .drain =>
      if s.phase = .draining then
        match s.notifications.receive with
        | some c => some { s with notifications := c }
        | none => some { s with phase := .attempting }
      else none
  | .start =>
      if s.phase = .attempting then
        some { s with phase := .refreshing, events := s.events ++ [.started] }
      else none
  | .refreshed succeeded =>
      if s.phase = .refreshing then
        some { s with
          phase := if succeeded then .waiting else .failed
          events := s.events ++ [.ended succeeded] }
      else none
  | .report =>
      if s.phase = .failed then
        if s.cancelled then some { s with phase := .stopped }
        else some { s with phase := .retrying, events := s.events ++ [.reported] }
      else none
  | .elapsed => if s.phase = .retrying then some { s with phase := .draining } else none
  | .stop =>
      if s.cancelled ∧ (s.phase = .waiting ∨ s.phase = .debouncing ∨ s.phase = .retrying) then
        some { s with phase := .stopped }
      else none

/-- A worker that has just been made, and its runs. -/
def workerSystem : System WorkerState WorkerLabel where
  init s := ∃ hasRefresher options, newWorker hasRefresher options = .ok s
  step := workerStep

/-! ## What it promises -/

/-- The last refresh that was started, with what has happened since: it is still running. -/
def RefreshRunning (events since : List RefreshEvent) : Prop :=
  ∃ before, events = before ++ .started :: since ∧ .started ∉ since ∧ ∀ b, .ended b ∉ since

/-- A refresh that was started after the last `Notify` has succeeded. -/
def RefreshedSinceNotify (events : List RefreshEvent) : Prop :=
  ∃ before during after, events = before ++ .started :: (during ++ .ended true :: after) ∧
    .started ∉ during ∧ (∀ b, .ended b ∉ during) ∧ .notified ∉ during ∧ .notified ∉ after

/-- No notification is lost, and none waits for the worker. -/
structure NoLostRefresh (s : WorkerState) : Prop where
  refreshed : s.phase = .waiting → s.notifications.waiting = 0 →
    .notified ∉ s.events ∨ RefreshedSinceNotify s.events
  never_blocks : ∃ t, workerStep s .notify = some t ∧ t.phase = s.phase

/-- What holds at every point of a run: a signal waits, or nothing has been missed; and what has been
notified during a refresh waits for the next one. -/
structure SignalsKept (s : WorkerState) : Prop where
  waiting : s.phase = .waiting → 0 < s.notifications.waiting ∨
    .notified ∉ s.events ∨ RefreshedSinceNotify s.events
  running : s.phase = .refreshing → ∃ since, RefreshRunning s.events since ∧
    (.notified ∈ since → 0 < s.notifications.waiting)

/-- Away from the receive and from a running refresh there is nothing to keep. -/
theorem SignalsKept.of_phase {s : WorkerState} (hwaiting : s.phase ≠ .waiting)
    (hrefreshing : s.phase ≠ .refreshing) : SignalsKept s :=
  ⟨fun h => absurd h hwaiting, fun h => absurd h hrefreshing⟩

theorem newWorker_kept {hasRefresher : Bool} {options : RefreshOptions} {s : WorkerState}
    (h : newWorker hasRefresher options = .ok s) : SignalsKept s := by
  unfold newWorker at h
  split at h
  · cases h
  · split at h
    · cases h
    · cases h
      exact ⟨fun _ => Or.inr (Or.inl List.not_mem_nil), (fun h => by cases h)⟩

theorem RefreshRunning.notify {events since : List RefreshEvent} (h : RefreshRunning events since) :
    RefreshRunning (events ++ [.notified]) (since ++ [.notified]) := by
  obtain ⟨before, rfl, hstarted, hended⟩ := h
  refine ⟨before, by simp, ?_, fun b => ?_⟩
  · simpa using hstarted
  · simpa using hended b

/-- The refresh that was running has succeeded, and nobody has called `Notify` meanwhile. -/
theorem RefreshRunning.succeed {events since : List RefreshEvent} (h : RefreshRunning events since)
    (hquiet : .notified ∉ since) : RefreshedSinceNotify (events ++ [.ended true]) := by
  obtain ⟨before, rfl, hstarted, hended⟩ := h
  exact ⟨before, since, [], by simp, hstarted, hended, hquiet, List.not_mem_nil⟩

/-- A step keeps the signals. -/
theorem workerStep_kept {s t : WorkerState} {l : WorkerLabel} (h : SignalsKept s)
    (hstep : workerStep s l = some t) : SignalsKept t := by
  cases l with
  | notify =>
    cases hstep
    have hpos := Signals.waiting_trySend_pos Nat.one_pos s.notifications
    refine ⟨fun _ => Or.inl hpos, fun hphase => ?_⟩
    obtain ⟨since, hrunning, _⟩ := h.running hphase
    exact ⟨_, hrunning.notify, fun _ => hpos⟩
  | cancel =>
    cases hstep
    exact ⟨h.waiting, h.running⟩
  | receive =>
    simp only [workerStep] at hstep
    split at hstep
    · obtain ⟨c, _, rfl⟩ := Option.map_eq_some_iff.1 hstep
      exact .of_phase (by simp) (by simp)
    · cases hstep
  | debounced =>
    simp only [workerStep] at hstep
    split at hstep <;> cases hstep
    exact .of_phase (by simp) (by simp)
  | drain =>
    simp only [workerStep] at hstep
    split at hstep
    · next hdraining =>
      split at hstep <;> cases hstep
      · exact .of_phase (by rw [hdraining]; decide) (by rw [hdraining]; decide)
      · exact .of_phase (by simp) (by simp)
    · cases hstep
  | start =>
    simp only [workerStep] at hstep
    split at hstep <;> cases hstep
    refine ⟨(fun hphase => by cases hphase), fun _ => ⟨[], ⟨s.events, rfl, ?_, ?_⟩, ?_⟩⟩
    · exact List.not_mem_nil
    · exact fun _ => List.not_mem_nil
    · exact fun hmem => absurd hmem List.not_mem_nil
  | refreshed succeeded =>
    simp only [workerStep] at hstep
    split at hstep
    · next hrefreshing =>
      cases hstep
      obtain ⟨since, hrunning, hsignal⟩ := h.running hrefreshing
      cases succeeded with
      | false => exact .of_phase (by simp) (by simp)
      | true =>
        refine ⟨fun _ => ?_, (fun hphase => by cases hphase)⟩
        by_cases hnotified : .notified ∈ since
        · exact Or.inl (hsignal hnotified)
        · exact Or.inr (Or.inr (hrunning.succeed hnotified))
    · cases hstep
  | report =>
    simp only [workerStep] at hstep
    split at hstep
    · split at hstep <;> cases hstep
      · exact .of_phase (by simp) (by simp)
      · exact .of_phase (by simp) (by simp)
    · cases hstep
  | elapsed =>
    simp only [workerStep] at hstep
    split at hstep <;> cases hstep
    exact .of_phase (by simp) (by simp)
  | stop =>
    simp only [workerStep] at hstep
    split at hstep <;> cases hstep
    exact .of_phase (by simp) (by simp)

/-- In every run, no refresh is lost, and `Notify` never blocks. -/
theorem reachable_noLostRefresh {s : WorkerState} (h : workerSystem.Reachable s) :
    NoLostRefresh s := by
  have hkept : SignalsKept s := by
    refine h.invariant ?_ fun s l t hs _ hstep => workerStep_kept hs hstep
    rintro s ⟨hasRefresher, options, hnew⟩
    exact newWorker_kept hnew
  refine ⟨fun hphase hempty => ?_, notify s, rfl, rfl⟩
  rcases hkept.waiting hphase with hpos | hdone
  · omega
  · exact hdone

/-- A notification between the drain and the refresh, and one during a retry. -/
def lateNotifications : List WorkerLabel :=
  [.notify, .receive, .debounced, .drain, .notify, .start, .refreshed false, .report, .notify,
    .elapsed, .drain, .drain, .start, .refreshed true]

/-- The theorem above for a worker that waits after them. -/
theorem noLostRefresh_late : ∃ s, workerSystem.run ⟨.waiting, .empty, false, []⟩ lateNotifications =
    some s ∧ s.phase = .waiting ∧ s.notifications.waiting = 0 ∧ NoLostRefresh s := by
  obtain ⟨s, hs⟩ : ∃ s, workerSystem.run ⟨.waiting, .empty, false, []⟩ lateNotifications = some s :=
    Option.isSome_iff_exists.1 (by decide)
  have hvalues : (workerSystem.run ⟨.waiting, .empty, false, []⟩ lateNotifications).map
      (fun s => (s.phase, s.notifications.waiting)) = some (.waiting, 0) := by decide
  rw [hs, Option.map_some, Option.some.injEq, Prod.mk.injEq] at hvalues
  exact ⟨s, hs, hvalues.1, hvalues.2, reachable_noLostRefresh
    (System.reachable_of_run ⟨true, ⟨1, 1⟩, rfl⟩ hs)⟩

end BlackPearl.Plex
