import Ultrasight.Reports
import Ultrasight.Signals

/-!
# The fetch cycle and the stopped tracee

Between `kill(SIGSTOP)` and `kill(SIGCONT)` the fetcher turns the sinks off, so
a tracee that runs then loses its trace. `kill` returns before the tracee takes
the signal, and the wait in between is satisfied by any `suspend_event`. It
follows that the tracee is stopped by the fetcher as far as no other stop is
pending, in force or heard of when the signal is sent.
-/

namespace Ultrasight.Handshake

open Threads TraceState TraceEvent

variable {r : Ring}

/-- From the return of `wait_trace_event(suspend_event)` to `kill(SIGCONT)`. -/
def FetcherPc.window : FetcherPc → Bool
  | .work task _ => task != .lastFetch
  | .cont => true
  | .wait _ _ | .received _ | .initPos | .alive | .offset | .stop | .resample | .nanosleep
  | .exit _ | .leave | .returned => false

/-- From the fetcher's `SIGSTOP` on, the wait included. -/
def FetcherPc.stopping : FetcherPc → Bool
  | .wait reason _ => reason == .suspended
  | q => q.window

theorem FetcherPc.window_stopping {q : FetcherPc} (h : q.window = true) : q.stopping = true := by
  cases q <;> first | exact h | cases h

/-- No one else continues the tracee after the fetcher's `SIGSTOP`. -/
def considerate (v : View r) : Action → Bool
  | .sigcont => !v.fetcher.stopping
  | _ => true

/-- Whether a status makes the parent suspend the trace. -/
def suspends (wstatus : Nat) : Bool := dispatch true wstatus == .suspend

/-- On the way to `suspend_event`, as far as the state allows it. -/
def ParentPc.suspending : ParentPc → Bool
  | .set _ (.signal e _) => e == suspendEvent
  | .set site p => site == .suspendCallback && p.unwritten
  | _ => false

/-- A stop was reported: `trace_event` tells of it, or the parent still has it to
read or to handle. -/
def hearsStop (m : Mem r) (p : ParentPc) : Bool :=
  m.traceEvent == suspendEvent || m.statuses.any suspends || p == .branch && suspends m.wstatus ||
    p.suspending

/-- When the fetcher's `SIGSTOP` is sent, no one else's is pending or in force,
and no stop is heard of. -/
def firstStop (v : View r) : Action → Bool
  | .fetcher .ok => v.fetcher != .stop || v.mem.tracee == .reaped ||
      v.mem.tracee.stopOf != some .other && !hearsStop v.mem v.parent
  | _ => true

/-- `hearsStop` is false, and stays so: `wstatus` of a reaped tracee, which every
later `waitpid` leaves as it is, is no stop. -/
structure Unheard (m : Mem r) (p : ParentPc) : Prop where
  event : m.traceEvent ≠ suspendEvent
  statuses : ∀ w ∈ m.statuses, suspends w = false
  branch : p = .branch → suspends m.wstatus = false
  parent : p.suspending = false
  reaped : m.tracee = .reaped → suspends m.wstatus = false

theorem unheard_of {m : Mem r} {p : ParentPc} (h : hearsStop m p = false)
    (there : m.tracee ≠ .reaped) : Unheard m p := by
  simp only [hearsStop, Bool.or_eq_false_iff, beq_eq_false_iff_ne, List.any_eq_false,
    Bool.and_eq_false_iff, Bool.not_eq_true] at h
  obtain ⟨⟨⟨event, statuses⟩, branch⟩, parent⟩ := h
  exact ⟨event, statuses, fun at_ => branch.resolve_left (not_not_intro at_), parent,
    fun gone => absurd gone there⟩

/-! ## What the parent hears -/

theorem suspends_terminated {status : Nat} (final : terminated status = true) :
    suspends status = false := by
  simp only [terminated, Bool.or_eq_true] at final
  unfold suspends dispatch
  rcases final with exited | signaled
  · rw [if_pos exited]
    split <;> rfl
  · obtain ⟨notExited, notStopped, notContinued⟩ := signaled_other signaled
    simp [notExited, notStopped, notContinued]

/-- Only a change from running to suspended signals `suspend_event`. -/
theorem signalled_suspend {old new : TraceState} (h : signalled old new = some suspendEvent) :
    old = runningState ∧ new = suspendedState := by
  cases old <;> cases new <;> first | exact ⟨rfl, rfl⟩ | cases h

theorem suspending_written (site : Site) : (ParentPc.set site .leave).suspending = false :=
  Bool.and_false _

theorem Unheard.like {m m' : Mem r} {p q : ParentPc} (h : Unheard m p)
    (event : m'.traceEvent = m.traceEvent) (process : SameProcess m m') (branch : q ≠ .branch)
    (parent : q.suspending = false) : Unheard m' q := by
  refine ⟨?_, ?_, fun at_ => absurd at_ branch, parent, ?_⟩
  · rw [event]
    exact h.event
  · rw [process.statuses]
    exact h.statuses
  · rw [process.tracee, process.wstatus]
    exact h.reaped

/-- The tracee changes without a report. -/
theorem Unheard.silent {m m' : Mem r} {p : ParentPc} (h : Unheard m p)
    (event : m'.traceEvent = m.traceEvent) (statuses : m'.statuses = m.statuses)
    (wstatus : m'.wstatus = m.wstatus) (gone : m'.tracee = .reaped → m.tracee = .reaped) : Unheard m' p := by
  refine ⟨?_, ?_, ?_, h.parent, ?_⟩
  · rw [event]
    exact h.event
  · rw [statuses]
    exact h.statuses
  · rw [wstatus]
    exact h.branch
  · rw [wstatus]
    exact fun reaped => h.reaped (gone reaped)

/-- Without a report the parent hears of no stop. -/
theorem Unheard.parent_move {o : Outcome} {m m' : Mem r} {p q : ParentPc} (h : Unheard m p)
    (moved : ParentMove o m p m' q) : Unheard m' q := by
  have before := h.parent
  cases moved with
  | setSignals site old e signals =>
    refine h.like rfl ⟨rfl, rfl, rfl⟩ nofun ?_
    cases suspend : e == suspendEvent with
    | false => exact suspend
    | true =>
      rw [beq_iff_eq.mp suspend] at signals
      have new := (signalled_suspend signals).2
      cases site with
      | suspendCallback => cases before
      | initTrace | startTrace | resumeCallback | stopTrace | finiTrace => cases new
  | setSilent site old => exact h.like rfl ⟨rfl, rfl, rfl⟩ nofun (suspending_written site)
  | signalLeave site e => exact h.like rfl ⟨rfl, rfl, rfl⟩ nofun (suspending_written site)
  | assign site e =>
    have other : e ≠ suspendEvent := by simpa [ParentPc.suspending] using before
    exact ⟨other, h.statuses, nofun, before, h.reaped⟩
  | setLeave site =>
    exact h.like rfl ⟨rfl, rfl, rfl⟩ (by cases site <;> nofun) (by cases site <;> rfl)
  | enableBody =>
    exact h.like (enableCsTrace_trace o m).event (enableCsTrace_process o m) nofun rfl
  | disableBody =>
    exact h.like (disableCsTrace_trace true o m).event (disableCsTrace_process true o m) nofun rfl
  | detach =>
    have after :=
      h.silent (detach_trace m).event (detach_process m).1 (detach_process m).2 detach_reaped
    exact ⟨after.event, after.statuses, nofun, rfl, after.reaped⟩
  | waitpid m' reported =>
    rcases waitpid_cases reported with ⟨w, rest, statuses, rfl⟩ | ⟨_, gone, rfl⟩
    · have all := h.statuses
      rw [statuses] at all
      have read := all w List.mem_cons_self
      exact ⟨h.event, fun x hx => all x (List.mem_cons_of_mem w hx), fun _ => read, rfl,
        fun _ => read⟩
    · exact ⟨h.event, h.statuses, fun _ => h.reaped gone, rfl, h.reaped⟩
  | suspend stop =>
    have none := h.branch rfl
    rw [suspends, stop] at none
    cases none
  | _ => exact h.like rfl ⟨rfl, rfl, rfl⟩ nofun before

theorem Unheard.sigstop {m : Mem r} {p : ParentPc} (h : Unheard m p) (sender : Sender) :
    Unheard (m.sigstop sender) p :=
  h.silent (sigstop_trace sender m).event (sigstop_statuses sender m) (sigstop_wstatus sender m)
    (sigstop_gone sender)

/-- The termination of the tracee is no stop. -/
theorem Unheard.exit {m : Mem r} {p : ParentPc} (h : Unheard m p) {status : Nat}
    (final : terminated status = true) : Unheard (m.exit status) p := by
  refine ⟨h.event, fun w hw => ?_, h.branch, h.parent, nofun⟩
  rcases List.mem_append.mp hw with hw | hw
  · exact h.statuses w hw
  · rw [List.mem_singleton.mp hw]
    exact suspends_terminated final

/-! ## The fetcher's stop -/

/-- The wait for `suspend_event`, which it has not found. -/
def FetcherPc.awaits : FetcherPc → Bool
  | .wait .suspended .enter | .wait .suspended .test | .wait .suspended .sleep => true
  | _ => false

/-- The fetcher's stop is pending or in force, or the tracee runs no more. -/
def Tracee.held : Tracee → Bool
  | .traced pending | .running pending => pending == some .fetcher
  | .stopped sender => sender == .fetcher
  | .zombie _ | .reaped => true

theorem sigstop_held {m : Mem r} (first : m.tracee.stopOf ≠ some .other) :
    (m.sigstop .fetcher).tracee.held = true := by
  unfold Mem.sigstop
  cases tracee : m.tracee with
  | traced pending | running pending =>
    rw [tracee] at first
    cases pending with
    | none => rfl
    | some sender =>
      cases sender with
      | fetcher => simp [tracee, Tracee.held]
      | other => exact absurd rfl first
  | stopped sender =>
    rw [tracee] at first
    cases sender with
    | fetcher => simp [tracee, Tracee.held]
    | other => exact absurd rfl first
  | zombie | reaped => simp [tracee, Tracee.held]

/-- A second `SIGSTOP` changes nothing. -/
theorem sigstop_of_held {m : Mem r} (held : m.tracee.held = true) (sender : Sender) :
    m.sigstop sender = m := by
  unfold Mem.sigstop
  cases tracee : m.tracee with
  | traced pending | running pending =>
    rw [tracee] at held
    cases pending with
    | none => cases held
    | some first => rfl
  | stopped | zombie | reaped => rfl

theorem detach_held {m : Mem r} (held : m.tracee.held = true) : m.detach.tracee.held = true := by
  unfold Mem.detach
  split
  · rename_i traced
    rw [traced] at held
    exact held
  · exact held
  · exact held
  · exact held
  · exact held

theorem waitpid_held {m m' : Mem r} (reported : m.waitpid = some m') (held : m.tracee.held = true) :
    m'.tracee.held = true := by
  rcases waitpid_cases reported with ⟨w, rest, _, rfl⟩ | ⟨_, _, rfl⟩
  · dsimp only
    split
    · rfl
    · exact held
  · exact held

/-- The wait goes on while `suspend_event` does not stand. -/
theorem FetcherMove.awaits {threshold : BitVec 64} {o : Outcome} {m m' : Mem r}
    {p q : FetcherPc} (h : FetcherMove threshold o m p m' q) (waits : p.awaits = true)
    (event : m.traceEvent ≠ suspendEvent) : q.awaits = true ∧ m' = m := by
  cases h with
  | waitEnter reason => cases reason <;> first | exact ⟨rfl, rfl⟩ | cases waits
  | found reason want =>
    cases reason with
    | suspended => exact absurd (beq_iff_eq.mp want) event
    | worker | resumed | killed => cases waits
  | notFound reason => cases reason <;> first | exact ⟨rfl, rfl⟩ | cases waits
  | sleep reason => cases reason <;> first | exact ⟨rfl, rfl⟩ | cases waits
  | waitLeave reason => cases reason <;> cases waits
  | _ => cases waits

theorem FetcherPc.window_awaits {q : FetcherPc} (h : q.window = true) : q.awaits = false := by
  cases q <;> first | rfl | cases h

/-- The cycle starts with the fetcher's `SIGSTOP` and a wait, and leaves the tracee
alone from there on. -/
theorem FetcherMove.stopping {threshold : BitVec 64} {o : Outcome} {m m' : Mem r}
    {p q : FetcherPc} (h : FetcherMove threshold o m p m' q) (stopping : q.stopping = true) :
    p.stopping = true ∧ m'.tracee = m.tracee ∨
      p = .stop ∧ o = .ok ∧ m.tracee ≠ .reaped ∧ q.awaits = true ∧
        SameTrace (m.sigstop .fetcher) m' ∧ SameProcess (m.sigstop .fetcher) m' := by
  cases h with
  | stop ok there =>
    refine .inr ⟨rfl, ok, there, rfl, ?_⟩
    unfold Mem.sigstop Mem.log
    dsimp only
    split <;> exact ⟨⟨rfl, rfl⟩, rfl, rfl, rfl⟩
  | waitLeave reason e =>
    cases reason with
    | suspended => exact .inl ⟨rfl, rfl⟩
    | worker | resumed | killed => cases stopping
  | workBody task => exact .inl ⟨stopping, (work_process task o m).tracee⟩
  | workLeave task o' => cases task <;> cases o' <;> first | exact .inl ⟨rfl, rfl⟩ | cases stopping
  | _ => first | exact .inl ⟨stopping, rfl⟩ | cases stopping

/-- From the fetcher's `SIGSTOP` on the tracee is stopped by it, or the fetcher
waits and is not about to find `suspend_event` before that stop is reported. -/
def Stopped (v : View r) : Prop :=
  v.fetcher.stopping = true → v.mem.tracee = .stopped .fetcher ∨
    v.fetcher.awaits = true ∧ v.mem.tracee.held = true ∧ Unheard v.mem v.parent

theorem Stopped.window {v : View r} (h : Stopped v) (window : v.fetcher.window = true) :
    v.mem.tracee = .stopped .fetcher := by
  rcases h (FetcherPc.window_stopping window) with tracee | ⟨waits, _⟩
  · exact tracee
  · rw [FetcherPc.window_awaits window] at waits
    cases waits

theorem stopped_parent {o : Outcome} {v : View r} {m' : Mem r} {q : ParentPc}
    (reports : Reports v) (moved : ParentMove o v.mem v.parent m' q)
    (h : v.mem.tracee = .stopped .fetcher ∨
      v.fetcher.awaits = true ∧ v.mem.tracee.held = true ∧ Unheard v.mem v.parent) :
    m'.tracee = .stopped .fetcher ∨
      v.fetcher.awaits = true ∧ m'.tracee.held = true ∧ Unheard m' q := by
  rcases h with before | ⟨waits, held, unheard⟩
  · refine .inl ?_
    rcases moved.process with same | ⟨_, _, rfl⟩ | ⟨_, _, reported⟩
    · exact same.tracee.trans before
    · simp [Mem.detach, before]
    · rw [(reports.memory.waitpid reported).2.2 (by rw [before]; rfl)]
      exact before
  · refine .inr ⟨waits, ?_, unheard.parent_move moved⟩
    rcases moved.process with same | ⟨_, _, rfl⟩ | ⟨_, _, reported⟩
    · rw [same.tracee]
      exact held
    · exact detach_held held
    · exact waitpid_held reported held

theorem stopped_move {threshold : BitVec 64} {v v' : View r} {a : Action}
    (reports : Reports v) (h : Stopped v) (alone : considerate v a = true)
    (first : firstStop v a = true) (moved : Move threshold v a v') : Stopped v' := by
  intro stopping
  cases moved with
  | still => exact h stopping
  | parent o m' q moved => exact stopped_parent (v := v) reports moved (h stopping)
  | fetcher o m' q moved =>
    rcases moved.stopping stopping with ⟨earlier, same⟩ | ⟨at_, rfl, there, waits, trace, process⟩
    · rcases h earlier with before | ⟨waits, held, unheard⟩
      · exact .inl (same.trans before)
      · obtain ⟨still, rfl⟩ := moved.awaits waits unheard.event
        exact .inr ⟨still, held, unheard⟩
    · -- the kill itself: only here does the condition say anything
      simp only [firstStop, at_, bne_self_eq_false, Bool.false_or, Bool.or_eq_true, beq_iff_eq,
        there, false_or, Bool.and_eq_true, bne_iff_ne, Bool.not_eq_true'] at first
      obtain ⟨alone, unheard⟩ := first
      refine .inr ⟨waits, ?_, ((unheard_of unheard there).sigstop .fetcher).silent trace.event
        process.statuses process.wstatus fun gone => process.tracee ▸ gone⟩
      rw [process.tracee]
      exact sigstop_held alone
  | write n running =>
    rcases h stopping with before | ⟨waits, held, unheard⟩
    · rw [before] at running
      cases running
    · have process := write_process n v.mem
      refine .inr ⟨waits, ?_, unheard.silent (write_trace n v.mem).event process.statuses process.wstatus
        fun gone => process.tracee ▸ gone⟩
      rw [process.tracee]
      exact held
  | exit status running final =>
    rcases h stopping with before | ⟨waits, held, unheard⟩
    · rw [before] at running
      cases running
    · exact .inr ⟨waits, rfl, unheard.exit final⟩
  | takeStop sender running =>
    rcases h stopping with before | ⟨waits, held, unheard⟩
    · rw [before] at running
      cases running
    · rw [running] at held
      obtain rfl : sender = .fetcher := by simpa [Tracee.held] using held
      exact .inl rfl
  | sigstop =>
    rcases h stopping with before | ⟨waits, held, unheard⟩
    · exact .inl (by simp [Mem.sigstop, before])
    · rw [sigstop_of_held held]
      exact .inr ⟨waits, held, unheard⟩
  | sigcont => simp [considerate, show v.fetcher.stopping = true from stopping] at alone

/-- **While the fetcher works on the sinks, the tracee is stopped by it** and
the parent has not begun to close, in every run in which nobody continues the
tracee behind the fetcher's back and each of its `SIGSTOP`s is the only stop that
is pending, in force or heard of. -/
theorem window_stopped (threshold : BitVec 64) (etr : r.Writer) (initPos : BitVec 64)
    (w : System r)
    (h : Reach (step threshold)
      (fun w a => considerate (view w) a && firstStop (view w) a) (start etr initPos) w)
    (window : (view w).fetcher.window = true) :
    (view w).mem.tracee = .stopped .fetcher ∧ (view w).parent.closing = false := by
  have stopped : Stopped (view w) := by
    refine view_invariant_with (fun w => reports) ?_ ?_ h
    · intro stopping
      cases stopping
    · intro u a v' reports stopped allowed moved
      obtain ⟨alone, first⟩ := Bool.and_eq_true_iff.mp allowed
      exact stopped_move reports stopped alone first moved
  have tracee := stopped.window window
  refine ⟨tracee, ?_⟩
  cases closing : (view w).parent.closing with
  | false => rfl
  | true =>
    rw [(reports h).closing closing] at tracee
    cases tracee

/-- A first fetch cycle, up to its `disable_cs_trace`. -/
theorem window_stopped_first : ∃ w : System Polling.defaultRing,
    Reach (step Polling.defaultThreshold)
      (fun w a => considerate (view w) a && firstStop (view w) a)
      (start Polling.defaultRing.empty 0) w ∧
    (view w).fetcher.window = true ∧ (view w).mem.tracee = .stopped .fetcher ∧
    (view w).parent.closing = false := by
  have replay : (exec (step Polling.defaultThreshold)
      (fun w a => considerate (view w) a && firstStop (view w) a)
      (start Polling.defaultRing.empty 0)
      (opening ++ [.write 0x3000] ++ List.replicate 3 (.fetcher .ok) ++ [.takeStop] ++
        List.replicate 10 (.parent .ok) ++ List.replicate 4 (.fetcher .ok))).any
      (fun w => (view w).fetcher.window) = true := by
    decide +kernel
  obtain ⟨w, reached, window⟩ := reach_of_exec replay
  exact ⟨w, reached, window, window_stopped _ _ _ w reached window⟩

/-- Someone else stops and continues the tracee, which leaves `suspend_event`
behind; the tracee exits before the fetcher's `SIGSTOP`. The wait returns at
once, and the fetcher disables the sinks next to `stop_trace`. -/
theorem window_stale : ∃ w : System Polling.defaultRing,
    Reach (step Polling.defaultThreshold) (fun w a => considerate (view w) a)
      (start Polling.defaultRing.empty 0) w ∧
    (view w).fetcher.window = true ∧ (view w).mem.tracee = .reaped ∧
    (view w).parent.closing = true := by
  have replay : (exec (step Polling.defaultThreshold) (fun w a => considerate (view w) a)
      (start Polling.defaultRing.empty 0)
      (opening ++ [.write 0x3000, .sigstop, .takeStop] ++ List.replicate 10 (.parent .ok) ++ [.sigcont] ++
        List.replicate 2 (.fetcher .ok) ++ [.exit 0] ++ List.replicate 4 (.fetcher .ok) ++
        List.replicate 5 (.parent .ok))).any
      (fun w => (view w).fetcher.window && ((view w).mem.tracee == .reaped) &&
        (view w).parent.closing) = true := by
    decide +kernel
  obtain ⟨w, reached, test⟩ := reach_of_exec replay
  simp only [Bool.and_eq_true, beq_iff_eq] at test
  exact ⟨w, reached, test.1.1, test.1.2, test.2⟩

end Ultrasight.Handshake
