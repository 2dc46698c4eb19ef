import Mathlib.Logic.Function.Basic

/-!
# Trace states and trace events

The two enumerations of the tracer and the event that a change of state
signals, as the chain of tests in `set_trace_state` picks it.
-/

namespace Ultrasight

inductive TraceState where
  | initState | finiState | readyState | runningState | suspendedState
  deriving DecidableEq, Repr

inductive TraceEvent where
  | initEvent | finiEvent | readyEvent | startEvent | stopEvent | suspendEvent | resumeEvent
  deriving DecidableEq, Repr

open TraceState TraceEvent

/-- The event for a change from `old` to `new`; `none` where the source reports
an unexpected transition. -/
def signalled (old new : TraceState) : Option TraceEvent :=
  if old = initState then some initEvent
  else if new = finiState then some finiEvent
  else if new = readyState then some stopEvent
  else if old = readyState ∧ new = runningState then some startEvent
  else if old = runningState ∧ new = suspendedState then some suspendEvent
  else if old = suspendedState ∧ new = runningState then some resumeEvent
  else none

/-- The table in the comment on the function, read from the top. -/
def documented : TraceState → TraceState → Option TraceEvent
  | initState, _ => some initEvent
  | _, finiState => some finiEvent
  | _, readyState => some stopEvent
  | readyState, runningState => some startEvent
  | runningState, suspendedState => some suspendEvent
  | suspendedState, runningState => some resumeEvent
  | _, _ => none

theorem signalled_documented (old new : TraceState) : signalled old new = documented old new := by
  cases old <;> cases new <;> rfl

/-- The states between start and stop of a trace. -/
def TraceState.active (s : TraceState) : Bool := s == runningState || s == suspendedState

/-- The events that tell the fetcher to do its last fetch. -/
def TraceEvent.last (e : TraceEvent) : Bool := e == stopEvent || e == finiEvent

theorem signalled_init (new : TraceState) : signalled initState new = some initEvent := by
  cases new <;> rfl

theorem signalled_fini {old : TraceState} (h : old ≠ initState) :
    signalled old finiState = some finiEvent := by
  cases old with
  | initState => exact absurd rfl h
  | finiState | readyState | runningState | suspendedState => rfl

theorem signalled_ready {old : TraceState} (h : old ≠ initState) :
    signalled old readyState = some stopEvent := by
  cases old with
  | initState => exact absurd rfl h
  | finiState | readyState | runningState | suspendedState => rfl

/-- Only a change to the ready or to the final state signals a last event. -/
theorem signalled_last {old new : TraceState} {e : TraceEvent} (h : signalled old new = some e)
    (last : e.last = true) : new = readyState ∨ new = finiState := by
  cases new with
  | readyState => exact .inl rfl
  | finiState => exact .inr rfl
  | initState | runningState | suspendedState => cases old <;> cases h <;> cases last

end Ultrasight
