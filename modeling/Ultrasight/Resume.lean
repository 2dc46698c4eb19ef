import Ultrasight.FinalFetch
import Ultrasight.Teardown

/-!
# The wait for `resume_event`

`parent()` looks for the continuation of the tracee among the stops, where it is
never reported. So `resume_event` is not signalled in any run, and a fetcher that
has sent its `SIGCONT` waits for ever.
-/

namespace Ultrasight.Handshake

open Threads TraceState TraceEvent

variable {r : Ring}

/-- Whether a status would make the parent resume the trace. -/
def resumes (wstatus : Nat) : Bool := dispatch true wstatus == .resume

theorem resumes_terminated {status : Nat} (final : terminated status = true) :
    resumes status = false := by
  simp only [terminated, Bool.or_eq_true] at final
  unfold resumes dispatch
  rcases final with exited | signaled
  · rw [if_pos exited]
    split <;> rfl
  · obtain ⟨notExited, notStopped, notContinued⟩ := signaled_other signaled
    simp [notExited, notStopped, notContinued]

/-- The reports of the tracee are not of that kind. -/
structure Quiet (m : Mem r) : Prop where
  statuses : ∀ w ∈ m.statuses, resumes w = false
  wstatus : resumes m.wstatus = false

theorem Quiet.like {m m' : Mem r} (h : Quiet m) (same : SameProcess m m') : Quiet m' := by
  constructor
  · rw [same.statuses]
    exact h.statuses
  · rw [same.wstatus]
    exact h.wstatus

/-- One more report. -/
theorem Quiet.snoc {m m' : Mem r} (h : Quiet m) {status : Nat} (none : resumes status = false)
    (statuses : m'.statuses = m.statuses ++ [status]) (wstatus : m'.wstatus = m.wstatus) :
    Quiet m' := by
  constructor
  · intro w hw
    rw [statuses] at hw
    rcases List.mem_append.mp hw with hw | hw
    · exact h.statuses w hw
    · rw [List.mem_singleton.mp hw]
      exact none
  · rw [wstatus]
    exact h.wstatus

theorem Quiet.sigstop {m : Mem r} (h : Quiet m) (sender : Sender) : Quiet (m.sigstop sender) := by
  unfold Mem.sigstop
  split <;> exact ⟨h.statuses, h.wstatus⟩

theorem Quiet.stop {m : Mem r} (h : Quiet m) (sender : Sender) : Quiet (m.stop sender) := by
  have none : resumes (stopStatus Ultrasight.sigstop) = false := by decide
  exact h.snoc none rfl rfl

theorem Quiet.sigcont {m : Mem r} (h : Quiet m) : Quiet m.sigcont := by
  have none : resumes continuedStatus = false := by decide
  unfold Mem.sigcont
  split
  · exact ⟨h.statuses, h.wstatus⟩
  · exact ⟨h.statuses, h.wstatus⟩
  · exact h.snoc none rfl rfl
  · exact h
  · exact h

theorem Quiet.detach {m : Mem r} (h : Quiet m) : Quiet m.detach := by
  unfold Mem.detach
  split <;> exact ⟨h.statuses, h.wstatus⟩

theorem Quiet.waitpid {m m' : Mem r} (h : Quiet m) (reported : m.waitpid = some m') : Quiet m' := by
  rcases waitpid_cases reported with ⟨w, rest, statuses, rfl⟩ | ⟨_, _, rfl⟩
  · have all := h.statuses
    rw [statuses] at all
    exact ⟨fun x hx => all x (List.mem_cons_of_mem w hx), all w List.mem_cons_self⟩
  · exact h

theorem quiet_move {threshold : BitVec 64} {v v' : View r} {a : Action} (h : Quiet v.mem)
    (moved : Move threshold v a v') : Quiet v'.mem := by
  cases moved with
  | still => exact h
  | parent o m' q moved =>
    rcases moved.process with same | ⟨_, _, rfl⟩ | ⟨_, _, reported⟩
    · exact h.like same
    · exact h.detach
    · exact h.waitpid reported
  | fetcher o m' q moved =>
    rcases moved.process with same | ⟨_, _, _, same⟩ | ⟨_, _, _, same⟩
    · exact h.like same
    · exact (h.sigstop .fetcher).like same
    · exact h.sigcont.like same
  | write n => exact h.like (write_process n v.mem)
  | exit status running final => exact h.snoc (resumes_terminated final) rfl rfl
  | takeStop sender => exact h.stop sender
  | sigstop => exact h.sigstop .other
  | sigcont => exact h.sigcont

/-! ## The parent -/

/-- The point is not on the way to `resume_event`. -/
def ParentPc.onward : ParentPc → Bool
  | .set .resumeCallback _ => false
  | .set .startTrace (.write old) => old != suspendedState
  | .set _ (.signal e _) => e != resumeEvent
  | _ => true

/-- The parent has not let the tracee go before. -/
theorem ParentMove.starting_back {o : Outcome} {m m' : Mem r} {p q : ParentPc}
    (h : ParentMove o m p m' q) (starting : q.starting = true) : p.starting = true := by
  cases h with
  | setLeave site => cases site <;> first | rfl | cases starting
  | enableEnter | enableBody | enabled | notEnabled | bound | unbound => rfl
  | detach | waitpid | finish | ignore | suspend | resume | disableEnter | disableBody | disabled
  | notDisabled | join | exportTrace | cleanUp => cases starting
  | _ => exact starting

/-- Nothing has been or will be said about a continuation. -/
structure Unresumed (v : View r) : Prop where
  quiet : Quiet v.mem
  onward : v.parent.onward = true
  state : v.parent.starting = true → v.mem.traceState ≠ suspendedState
  event : v.mem.traceEvent ≠ resumeEvent
  signals : resumeEvent ∉ v.mem.signals
  waits : (∀ e, v.fetcher ≠ .wait .resumed (.leave e)) ∧ v.fetcher ≠ .resample

/-- Only a change from suspended to running signals `resume_event`. -/
theorem signalled_resume {old new : TraceState} (h : signalled old new = some resumeEvent) :
    old = suspendedState ∧ new = runningState := by
  cases old <;> cases new <;> first | exact ⟨rfl, rfl⟩ | cases h

/-- The changes of state before the tracee is let go do not suspend the trace. -/
theorem onward_state (site : Site) {p : SetPc} (first : (ParentPc.set site p).starting = true) :
    site.state ≠ suspendedState := by
  cases site with
  | initTrace | startTrace => exact nofun
  | suspendCallback | resumeCallback | stopTrace | finiTrace => cases first

/-- A step that says nothing. -/
theorem Unresumed.parent {m m' : Mem r} {p q : ParentPc} {f : FetcherPc}
    (h : Unresumed ⟨m, p, f⟩) (quiet : Quiet m') (same : SameTrace m m')
    (signals : m'.signals = m.signals) (onward : q.onward = true)
    (starting : q.starting = true → p.starting = true) : Unresumed ⟨m', q, f⟩ := by
  refine ⟨quiet, onward, ?_, ?_, ?_, h.waits⟩
  · rw [same.state]
    exact fun first => h.state (starting first)
  · rw [same.event]
    exact h.event
  · rw [signals]
    exact h.signals

theorem unresumed_parent {m m' : Mem r} {p q : ParentPc} {f : FetcherPc} {o : Outcome}
    (h : Unresumed ⟨m, p, f⟩) (quiet : Quiet m') (moved : ParentMove o m p m' q) :
    Unresumed ⟨m', q, f⟩ := by
  have back := moved.starting_back
  have onward : p.onward = true := h.onward
  cases moved with
  | setEnter site => exact h.parent quiet ⟨rfl, rfl⟩ rfl (by cases site <;> exact onward) back
  | setRead site =>
    refine h.parent quiet ⟨rfl, rfl⟩ rfl ?_ back
    cases site with
    | startTrace => simpa [ParentPc.onward] using h.state rfl
    | resumeCallback => cases onward
    | initTrace | suspendCallback | stopTrace | finiTrace => rfl
  | setSignals site old e signals =>
    have other : e ≠ resumeEvent := by
      rintro rfl
      obtain ⟨rfl, running⟩ := signalled_resume signals
      cases site with
      | startTrace | resumeCallback => simp [ParentPc.onward] at onward
      | initTrace | suspendCallback | stopTrace | finiTrace => cases running
    refine ⟨quiet, ?_, onward_state site, h.event, h.signals, h.waits⟩
    cases site with
    | resumeCallback => cases onward
    | initTrace | startTrace | suspendCallback | stopTrace | finiTrace =>
      simpa [ParentPc.onward] using other
  | setSilent site old =>
    refine ⟨quiet, ?_, onward_state site, h.event, h.signals, h.waits⟩
    cases site with
    | resumeCallback => cases onward
    | initTrace | startTrace | suspendCallback | stopTrace | finiTrace => rfl
  | signalEnter site e => exact h.parent quiet ⟨rfl, rfl⟩ rfl (by cases site <;> exact onward) back
  | assign site e =>
    have other : e ≠ resumeEvent := by
      cases site with
      | resumeCallback => cases onward
      | initTrace | startTrace | suspendCallback | stopTrace | finiTrace =>
        simpa [ParentPc.onward] using onward
    refine ⟨quiet, by cases site <;> exact onward, h.state, other, ?_, h.waits⟩
    simp only [List.mem_cons, not_or]
    exact ⟨Ne.symm other, h.signals⟩
  | broadcast site e => exact h.parent quiet ⟨rfl, rfl⟩ rfl (by cases site <;> exact onward) back
  | signalLeave site e =>
    refine h.parent quiet ⟨rfl, rfl⟩ rfl ?_ back
    cases site <;> first | rfl | cases onward
  | setLeave site => exact h.parent quiet ⟨rfl, rfl⟩ rfl (by cases site <;> rfl) back
  | enableBody =>
    refine h.parent quiet (enableCsTrace_trace o m) ?_ rfl back
    cases o <;> rfl
  | disableBody =>
    refine h.parent quiet (disableCsTrace_trace true o m) ?_ rfl back
    cases o <;> rfl
  | detach => exact h.parent quiet (detach_trace m) (detach_signals m) rfl back
  | waitpid m' reported =>
    exact h.parent quiet (waitpid_trace reported) (waitpid_signals reported) rfl back
  | resume cont =>
    have none := h.quiet.wstatus
    rw [resumes, show dispatch true m.wstatus = .resume from cont] at none
    cases none
  | suspend stop => exact h.parent quiet ⟨rfl, rfl⟩ rfl rfl back
  | _ => exact h.parent quiet ⟨rfl, rfl⟩ rfl rfl back

/-! ## The fetcher -/

theorem FetcherMove.waits {threshold : BitVec 64} {o : Outcome} {m m' : Mem r} {p q : FetcherPc}
    (h : FetcherMove threshold o m p m' q) (event : m.traceEvent ≠ resumeEvent)
    (before : (∀ e, p ≠ .wait .resumed (.leave e)) ∧ p ≠ .resample) :
    ((∀ e, q ≠ .wait .resumed (.leave e)) ∧ q ≠ .resample) ∧
      ((∃ p', p = .wait .resumed p') → ∃ q', q = .wait .resumed q') := by
  cases h with
  | found reason want =>
    cases reason with
    | resumed => exact absurd (beq_iff_eq.mp want) event
    | worker | suspended | killed => exact ⟨⟨by simp, by simp⟩, by simp⟩
  | waitLeave reason e =>
    cases reason with
    | resumed => exact absurd rfl (before.1 e)
    | worker | suspended | killed => exact ⟨⟨by simp [Wait.next], by simp [Wait.next]⟩, by simp⟩
  | workLeave task o' =>
    cases task <;> cases o' <;> exact ⟨⟨by simp [Task.next], by simp [Task.next]⟩, by simp⟩
  | resample => exact absurd rfl before.2
  | waitEnter | notFound | sleep => exact ⟨⟨by simp, by simp⟩, by simp⟩
  | _ => exact ⟨⟨by simp, by simp⟩, by simp⟩

/-- A step of neither thread. -/
theorem Unresumed.outside {v : View r} (h : Unresumed v) {m : Mem r} (quiet : Quiet m)
    (same : SameTrace v.mem m) (signals : m.signals = v.mem.signals) :
    Unresumed ⟨m, v.parent, v.fetcher⟩ := by
  refine ⟨quiet, h.onward, ?_, ?_, ?_, h.waits⟩
  · rw [same.state]
    exact h.state
  · rw [same.event]
    exact h.event
  · rw [signals]
    exact h.signals

theorem unresumed_move {threshold : BitVec 64} {v v' : View r} {a : Action} (h : Unresumed v)
    (moved : Move threshold v a v') : Unresumed v' := by
  have quiet := quiet_move h.quiet moved
  cases moved with
  | still => exact h
  | parent o m' q moved => exact unresumed_parent h quiet moved
  | fetcher o m' q moved =>
    have same := moved.trace
    refine ⟨quiet, h.onward, ?_, ?_, ?_, (moved.waits h.event h.waits).1⟩
    · rw [same.state]
      exact h.state
    · rw [same.event]
      exact h.event
    · rw [moved.signals]
      exact h.signals
  | write n => exact h.outside quiet (write_trace n v.mem) (write_signals n v.mem)
  | exit | takeStop => exact h.outside quiet ⟨rfl, rfl⟩ rfl
  | sigstop => exact h.outside quiet (sigstop_trace .other v.mem) (sigstop_signals .other v.mem)
  | sigcont => exact h.outside quiet (sigcont_trace v.mem) (sigcont_signals v.mem)

theorem unresumed_start (etr : r.Writer) (initPos : BitVec 64) :
    Unresumed (view (start etr initPos)) := by
  have traced : resumes (stopStatus sigtrap) = false := by decide
  refine ⟨⟨nofun, traced⟩, rfl, ?_, ?_, nofun, ?_, ?_⟩
  · intro _ suspended
    cases suspended
  · intro resumed
    cases resumed
  · intro e at_
    cases at_
  · intro at_
    cases at_

theorem unresumed {threshold : BitVec 64} {ok : System r → Action → Bool} {etr : r.Writer}
    {initPos : BitVec 64} {w : System r}
    (h : Reach (step threshold) ok (start etr initPos) w) : Unresumed (view w) :=
  view_invariant (unresumed_start etr initPos) (fun _ _ _ inv _ moved => unresumed_move inv moved) h

/-! ## The end of a cycle -/

/-- In the wait for `resume_event`. -/
def InResumed (v : View r) : Prop := ∃ p, v.fetcher = .wait .resumed p

theorem resumed_move {threshold : BitVec 64} {v v' : View r} {a : Action} (h : Unresumed v)
    (waits : InResumed v) (moved : Move threshold v a v') : InResumed v' := by
  cases moved with
  | fetcher o m' q moved => exact (moved.waits h.event h.waits).2 waits
  | still | parent | write | exit | takeStop | sigstop | sigcont => exact waits

/-- **No fetch cycle ends.** In every run, whatever fails and whoever signals the
tracee: `resume_event` is never signalled and the fetcher never gets past its wait
for it, so a fetcher that has reached that wait stays in it, and the parent never
reaches the export. -/
theorem no_cycle_ends (threshold : BitVec 64) (etr : r.Writer) (initPos : BitVec 64)
    (w : System r) (h : Reach (step threshold) (fun _ _ => true) (start etr initPos) w) :
    resumeEvent ∉ w.mem.signals ∧ (view w).fetcher ≠ .resample ∧
    (InResumed (view w) → ∀ actions w',
      exec (step threshold) (fun _ _ => true) w actions = some w' →
        InResumed (view w') ∧ (view w').parent.tearing = false) := by
  have known := unresumed h
  refine ⟨known.signals, known.waits.2, ?_⟩
  intro waits actions w' run
  have both : Unresumed (view w') ∧ InResumed (view w') := by
    apply (exec_reach run).invariant
    · exact ⟨known, waits⟩
    · intro u a u' inv _ moved
      have move := step_move moved
      exact ⟨unresumed_move inv.1 move, resumed_move inv.1 inv.2 move⟩
  refine ⟨both.2, ?_⟩
  have joined := joined (h.trans (exec_reach run))
  cases tearing : (view w').parent.tearing with
  | false => rfl
  | true =>
    obtain ⟨p, here⟩ := both.2
    rw [joined.ended (joined.joined tearing)] at here
    cases here

/-- A fetch cycle as far as it goes. -/
def cycleRun : List Action :=
  opening ++ [.write 0x3000] ++ List.replicate 3 (.fetcher .ok) ++ [.takeStop] ++
    List.replicate 10 (.parent .ok) ++ List.replicate 13 (.fetcher .ok)

theorem no_cycle_ends_first : ∃ w : System Polling.defaultRing,
    Reach (step Polling.defaultThreshold) (fun _ _ => true) (start Polling.defaultRing.empty 0) w ∧
    (view w).fetcher = .wait .resumed .enter ∧ ∀ w',
      exec (step Polling.defaultThreshold) (fun _ _ => true) w closingDown = some w' →
        (view w').parent.tearing = false := by
  have replay : (exec (step Polling.defaultThreshold) (fun _ _ => true)
      (start Polling.defaultRing.empty 0) cycleRun).any
      (fun w => (view w).fetcher == .wait .resumed .enter) = true := by
    decide +kernel
  obtain ⟨w, reached, test⟩ := reach_of_exec replay
  have here : (view w).fetcher = .wait .resumed .enter := by simpa using test
  have stays := (no_cycle_ends _ _ _ w reached).2.2 ⟨_, here⟩
  exact ⟨w, reached, here, fun w' run => (stays closingDown w' run).2⟩

end Ultrasight.Handshake
