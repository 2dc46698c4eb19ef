import Ultrasight.FinalFetch
import Ultrasight.Teardown

/-!
# The end of a session

Once the tracee is reaped with status 0, every step brings the session nearer to
its end, apart from wake-ups that no broadcast caused.

* `stepsLeft`: what the two threads have still to do at most;
* `session_ends`: the steps of any continuation are bounded by it;
* `session_completes`: without a fetch cycle a continuation that goes on as long
  as it can ends with both threads finished.
-/

namespace Ultrasight.Handshake

open Threads TraceState TraceEvent

variable {r : Ring}

/-! ## Steps left -/

def SignalPc.left : SignalPc → Nat
  | .leave => 1
  | .broadcast => 2
  | .assign => 3
  | .enter => 4

def SetPc.left : SetPc → Nat
  | .leave => 1
  | .signal _ p => 1 + p.left
  | .write _ => 6
  | .read => 7
  | .enter => 8

def SectionPc.left : SectionPc → Nat
  | .leave _ => 1
  | .body => 2
  | .enter => 3

def ExitPc.left : ExitPc → Nat
  | .leave => 1
  | .broadcast => 2
  | .assign => 3
  | .enter => 4

/-- The steps of the parent to its end, once it is told that the tracee is gone. -/
def ParentPc.left : ParentPc → Nat
  | .done => 0
  | .cleanUp => 1
  | .exportTrace => 2
  | .join => 3
  | .set .finiTrace p => 3 + p.left
  | .set .stopTrace p => 11 + p.left
  | .disable p => 19 + p.left
  | .branch => 23
  | .waitpid => 24
  | .set .suspendCallback p | .set .resumeCallback p => 24 + p.left
  | .detach => 25
  | .set .startTrace p => 25 + p.left
  | .enable p => 33 + p.left
  | .setCpuAffinity => 37
  | .set .initTrace p => 37 + p.left

/-- A wait that is satisfied at once, or sleeps and is woken once; `next` is what
is left behind it. -/
def WaitPc.left (next : Nat) : WaitPc → Nat
  | .leave _ => next
  | .sleep => next + 3
  | .test => next + 4
  | .enter => next + 5

/-- What the worker does with an event. Another one than these two takes it back
to its wait. -/
def receivedLeft (e : TraceEvent) : Nat :=
  if e = finiEvent then 2 else if e = startEvent then 24 else 31

/-- The steps of the fetcher to its end. `last` says whether the event in the
variable is one behind which `start_event` does not come back. -/
def FetcherPc.left (last : Bool) : FetcherPc → Nat
  | .returned => 0
  | .leave => 1
  | .received e => receivedLeft e
  | .wait .worker (.leave e) => receivedLeft e + 1
  | .wait .worker p => p.left (if last then 3 else 25)
  | .exit p => (if last then 8 else 30) + p.left
  | .work .lastFetch p => 12 + p.left
  | .wait .killed p => p.left 16
  | .alive | .stop => 22
  | .initPos | .nanosleep => 23
  | .resample | .offset => 24
  | .wait .resumed p => p.left 25
  | .cont => 35
  | .work .enable p => 35 + p.left
  | .work .fetch p => 38 + p.left
  | .work .disable p => 41 + p.left
  | .wait .suspended p => p.left 45

/-- A sleeping thread has its test to do only when it is woken. -/
def restLeft (last : Bool) : Ctl Mutex Cond FetcherPc → Nat
  | .run p => p.left last
  | .woken _ p => p.left last + 1
  | .asleep _ _ p => p.left last - 3

/-- A broadcast of the parent costs the fetcher at most four steps. -/
def stepsLeft (w : System r) : Nat :=
  5 * (view w).parent.left + restLeft w.mem.traceEvent.last (w.ctl .fetcher)

theorem left_mono {last last' : Bool} (h : last = true → last' = true) (p : FetcherPc) :
    p.left last' ≤ p.left last := by
  cases last with
  | true =>
    cases h rfl
    exact Nat.le_refl _
  | false =>
    cases last' with
    | false => exact Nat.le_refl _
    | true =>
      cases p with
      | wait reason p =>
        cases reason with
        | worker => cases p <;> simp [FetcherPc.left, WaitPc.left]
        | suspended | resumed | killed => exact Nat.le_refl _
      | exit p => simp [FetcherPc.left]
      | work task p => cases task <;> exact Nat.le_refl _
      | _ => exact Nat.le_refl _

theorem restLeft_mono {last last' : Bool} (h : last = true → last' = true)
    (k : Ctl Mutex Cond FetcherPc) : restLeft last' k ≤ restLeft last k := by
  cases k with
  | run p => exact left_mono h p
  | woken m p => exact Nat.succ_le_succ (left_mono h p)
  | asleep c m p => exact Nat.sub_le_sub_right (left_mono h p) 3

theorem restLeft_wake (last : Bool) (c : Cond) (k : Ctl Mutex Cond FetcherPc) :
    restLeft last (k.wake c) ≤ restLeft last k + 4 := by
  cases k with
  | run | woken => exact Nat.le_add_right _ _
  | asleep c' m p =>
    by_cases same : c' = c
    · simp only [Ctl.wake, if_pos same, restLeft]
      omega
    · simp only [Ctl.wake, if_neg same]
      exact Nat.le_add_right _ _

theorem parent_left_le (p : ParentPc) : p.left ≤ 45 := by
  cases p with
  | set site p =>
    have inner : p.left ≤ 8 := by
      cases p with
      | signal e p => cases p <;> simp [SetPc.left, SignalPc.left]
      | _ => simp [SetPc.left]
    cases site <;> simp only [ParentPc.left] <;> omega
  | enable p | disable p => cases p <;> simp [ParentPc.left, SectionPc.left]
  | _ => simp [ParentPc.left]

theorem fetcher_left_le (last : Bool) (p : FetcherPc) : p.left last ≤ 50 := by
  have unset : false = true → last = true := nofun
  apply Nat.le_trans (left_mono unset p)
  cases p with
  | wait reason p =>
    cases reason <;> cases p <;> simp only [FetcherPc.left, WaitPc.left, receivedLeft] <;> grind
  | received e => simp only [FetcherPc.left, receivedLeft]; grind
  | work task p => cases task <;> cases p <;> simp [FetcherPc.left, SectionPc.left]
  | exit p => cases p <;> simp [FetcherPc.left, ExitPc.left]
  | _ => simp [FetcherPc.left]

theorem left_le (w : System r) : stepsLeft w ≤ 276 := by
  have parent := parent_left_le (view w).parent
  have fetcher : restLeft w.mem.traceEvent.last (w.ctl .fetcher) ≤ 51 := by
    cases w.ctl .fetcher with
    | run p => exact Nat.le_succ_of_le (fetcher_left_le _ p)
    | woken m p => exact Nat.succ_le_succ (fetcher_left_le _ p)
    | asleep c m p =>
      have below := fetcher_left_le w.mem.traceEvent.last p
      simp only [restLeft]
      omega
  simp only [stepsLeft]
  omega

/-! ## What holds once the tracee is reaped -/

/-- Nothing is left to report, and the last report was a good one. -/
structure Ended (m : Mem r) : Prop where
  reaped : m.tracee = .reaped
  statuses : m.statuses = []
  wstatus : m.wstatus = 0

theorem Ended.waitpid {m m' : Mem r} (h : Ended m) (reported : m.waitpid = some m') : m' = m := by
  rcases waitpid_cases reported with ⟨w, rest, statuses, _⟩ | ⟨_, _, same⟩
  · rw [h.statuses] at statuses
    cases statuses
  · exact same

theorem Ended.like {m m' : Mem r} (h : Ended m) (same : SameProcess m m') : Ended m' :=
  ⟨same.tracee.trans h.reaped, same.statuses.trans h.statuses, same.wstatus.trans h.wstatus⟩

/-- Behind the wait for a last event there is one. -/
def FetcherPc.told : FetcherPc → Bool
  | .wait .killed (.leave _) => true
  | .work task _ => task == .lastFetch
  | _ => false

def Told (v : View r) : Prop := v.fetcher.told = true → v.mem.traceEvent.last = true

/-- A last event is followed by last events only. -/
theorem ParentMove.last {o : Outcome} {m m' : Mem r} {p q : ParentPc} {f : FetcherPc}
    (signals : Signals ⟨m, p, f⟩) (h : ParentMove o m p m' q) (last : m.traceEvent.last = true) :
    m'.traceEvent.last = true := by
  cases h with
  | assign site e =>
    have announced := signals.last last
    have announces := signals.signal site e .assign rfl
    cases site with
    | finiTrace =>
      show e.last = true
      rw [show e = finiEvent from announces]
      rfl
    | stopTrace | initTrace | startTrace | suspendCallback | resumeCallback => cases announced
  | enableBody =>
    rw [(enableCsTrace_trace o m).event]
    exact last
  | disableBody =>
    rw [(disableCsTrace_trace true o m).event]
    exact last
  | detach =>
    rw [(detach_trace m).event]
    exact last
  | waitpid m' reported =>
    rw [(waitpid_trace reported).event]
    exact last
  | _ => exact last

theorem FetcherMove.told {threshold : BitVec 64} {o : Outcome} {m m' : Mem r} {p q : FetcherPc}
    (h : FetcherMove threshold o m p m' q) (told : q.told = true) :
    p.told = true ∨ m.traceEvent.last = true := by
  cases h with
  | found reason want =>
    cases reason with
    | killed => exact .inr want
    | worker | suspended | resumed => cases told
  | waitLeave reason e =>
    cases reason with
    | killed => exact .inl rfl
    | worker | suspended | resumed => cases told
  | workLeave task o' => cases task <;> cases o' <;> cases told
  | workEnter | workBody => exact .inl told
  | waitEnter reason | notFound reason | sleep reason => cases reason <;> cases told
  | _ => cases told

theorem told_move {threshold : BitVec 64} {v v' : View r} {a : Action} (signals : Signals v)
    (h : Told v) (moved : Move threshold v a v') : Told v' := by
  cases moved with
  | still => exact h
  | parent o m' q moved => exact fun told => moved.last signals (h told)
  | fetcher o m' q moved =>
    intro told
    show m'.traceEvent.last = true
    rw [moved.trace.event]
    rcases moved.told told with before | last
    · exact h before
    · exact last
  | write n =>
    intro told
    show (v.mem.write n).traceEvent.last = true
    rw [(write_trace n v.mem).event]
    exact h told
  | exit | takeStop => exact h
  | sigstop =>
    intro told
    show (v.mem.sigstop .other).traceEvent.last = true
    rw [(sigstop_trace .other v.mem).event]
    exact h told
  | sigcont =>
    intro told
    show v.mem.sigcont.traceEvent.last = true
    rw [(sigcont_trace v.mem).event]
    exact h told

/-! ## Every step counts -/

theorem ParentMove.left {o : Outcome} {m m' : Mem r} {p q : ParentPc}
    (h : ParentMove o m p m' q) (ended : Ended m) : q.left < p.left := by
  have final : dispatch true m.wstatus = .finish := (dispatch_finish_iff _ _).mpr ended.wstatus
  cases h with
  | ignore other | suspend other | resume other =>
    rw [final] at other
    cases other
  | setEnter site | setRead site | setSignals site | setSilent site | signalEnter site
  | assign site | broadcast site | signalLeave site =>
    cases site <;> simp [ParentPc.left, SetPc.left, SignalPc.left]
  | setLeave site => cases site <;> simp [ParentPc.left, Site.next, SetPc.left]
  | _ => simp [ParentPc.left, SetPc.left, SectionPc.left]

theorem FetcherMove.left {threshold : BitVec 64} {o : Outcome} {m m' : Mem r} {p q : FetcherPc}
    (h : FetcherMove threshold o m p m' q) (ended : Ended m)
    (told : p.told = true → m.traceEvent.last = true) :
    q.left m.traceEvent.last < p.left m.traceEvent.last ∨
      ∃ reason, p = .wait reason .sleep ∧ q = .wait reason .test := by
  have reaped := ended.reaped
  cases h with
  | sleep reason => exact .inr ⟨reason, rfl, rfl⟩
  | alive ok there | stop ok there | cont ok there => exact absurd reaped there
  | found reason want =>
    refine .inl ?_
    cases reason with
    | worker =>
      -- the worker takes the start event or the final one
      cases e : m.traceEvent with
      | startEvent | finiEvent => decide
      | initEvent | readyEvent | stopEvent | suspendEvent | resumeEvent =>
        rw [e] at want
        cases want
    | suspended | resumed | killed => simp [FetcherPc.left, WaitPc.left]
  | waitEnter reason | notFound reason =>
    cases reason <;> exact .inl (by simp [FetcherPc.left, WaitPc.left])
  | waitLeave reason e =>
    cases reason <;>
      exact .inl (by simp [FetcherPc.left, Wait.next, WaitPc.left, SectionPc.left])
  | finished | started => exact .inl (by simp [FetcherPc.left, receivedLeft])
  | neither e start fini =>
    refine .inl ?_
    simp only [FetcherPc.left, WaitPc.left, receivedLeft, if_neg start, if_neg fini]
    split <;> omega
  | workLeave task o' =>
    refine .inl ?_
    cases task with
    | lastFetch =>
      have last := told rfl
      cases o' <;> simp [FetcherPc.left, Task.next, SectionPc.left, ExitPc.left, last]
    | disable | fetch | enable =>
      cases o' <;> simp only [FetcherPc.left, Task.next, SectionPc.left, ExitPc.left] <;>
        (try split) <;> omega
  | workEnter task | workBody task =>
    cases task <;> exact .inl (by simp [FetcherPc.left, SectionPc.left])
  | contFails | exitLeave =>
    refine .inl ?_
    simp only [FetcherPc.left, ExitPc.left, WaitPc.left]
    split <;> omega
  | _ => exact .inl (by simp [FetcherPc.left, WaitPc.left, ExitPc.left])

/-! ## The last report -/

theorem sigstop_back {m : Mem r} {sender : Sender} (h : (m.sigstop sender).tracee = .reaped) :
    m.tracee = .reaped := by
  unfold Mem.sigstop at h
  split at h <;> first | exact h | cases h

theorem sigcont_back {m : Mem r} (h : m.sigcont.tracee = .reaped) : m.tracee = .reaped := by
  unfold Mem.sigcont at h
  split at h <;> first | exact h | cases h

theorem detach_back {m : Mem r} (h : m.detach.tracee = .reaped) : m.tracee = .reaped := by
  unfold Mem.detach at h
  split at h <;> first | exact h | cases h

/-- What a move does to a tracee that is reaped afterwards. -/
theorem Move.reaped {threshold : BitVec 64} {v v' : View r} {a : Action}
    (moved : Move threshold v a v') (reaped : v'.mem.tracee = .reaped) :
    v.mem.tracee = .reaped ∧ SameProcess v.mem v'.mem ∨ v.mem.waitpid = some v'.mem := by
  have same : SameProcess v.mem v.mem := ⟨rfl, rfl, rfl⟩
  cases moved with
  | still => exact .inl ⟨reaped, same⟩
  | parent o m' q moved =>
    rcases moved.process with like | ⟨_, _, rfl⟩ | ⟨_, _, reported⟩
    · exact .inl ⟨like.tracee.symm.trans reaped, like⟩
    · have before := detach_back reaped
      have still : v.mem.detach = v.mem := by simp [Mem.detach, before]
      rw [still]
      exact .inl ⟨before, same⟩
    · exact .inr reported
  | fetcher o m' q moved =>
    rcases moved.process with like | ⟨_, _, there, like⟩ | ⟨_, _, there, like⟩
    · exact .inl ⟨like.tracee.symm.trans reaped, like⟩
    · exact absurd (sigstop_back (like.tracee.symm.trans reaped)) there
    · exact absurd (sigcont_back (like.tracee.symm.trans reaped)) there
  | write n => exact .inl ⟨(write_process n v.mem).tracee.symm.trans reaped, write_process n v.mem⟩
  | exit | takeStop => cases reaped
  | sigstop =>
    have before := sigstop_back reaped
    rw [sigstop_reaped before]
    exact .inl ⟨before, same⟩
  | sigcont =>
    have before := sigcont_back reaped
    rw [sigcont_reaped before]
    exact .inl ⟨before, same⟩

/-- A reaped tracee has nothing more to report. -/
def Silent (v : View r) : Prop := v.mem.tracee = .reaped → v.mem.statuses = []

/-- The report that reaps the tracee is the last one, and the one it exited with. -/
theorem Reported.reaps {m m' : Mem r} (h : Reported m) (reported : m.waitpid = some m')
    (reaped : m'.tracee = .reaped) (there : m.tracee ≠ .reaped) :
    m'.statuses = [] ∧ m.tracee = .zombie m'.wstatus := by
  obtain ⟨before, alive, eq⟩ := h.statuses
  rcases waitpid_cases reported with ⟨w, rest, statuses, rfl⟩ | ⟨_, gone, _⟩
  · have final : terminated w = true := by
      cases final : terminated w with
      | true => rfl
      | false => simp [final, there] at reaped
    rw [statuses] at eq
    cases before with
    | nil =>
      cases zombie : m.tracee with
      | zombie status =>
        rw [zombie] at eq
        obtain ⟨rfl, rfl⟩ : w = status ∧ rest = [] := by simpa [Tracee.report] using eq
        exact ⟨rfl, rfl⟩
      | traced | running | stopped | reaped =>
        rw [zombie] at eq
        cases eq
    | cons w' before =>
      rw [List.cons_append, List.cons.injEq] at eq
      rw [eq.1, alive w' List.mem_cons_self] at final
      cases final
  · exact absurd gone there

theorem silent_move {threshold : BitVec 64} {v v' : View r} {a : Action} (reports : Reports v)
    (h : Silent v) (moved : Move threshold v a v') : Silent v' := by
  intro reaped
  rcases moved.reaped reaped with ⟨before, same⟩ | reported
  · exact same.statuses.trans (h before)
  · by_cases before : v.mem.tracee = .reaped
    · rcases waitpid_cases reported with ⟨w, rest, statuses, _⟩ | ⟨none, _, same⟩
      · rw [h before] at statuses
        cases statuses
      · rw [same]
        exact none
    · exact (reports.memory.reaps reported reaped before).1

/-- What every run of the handshake keeps for its end. -/
structure Closable (w : System r) : Prop where
  reports : Reports (view w)
  silent : Silent (view w)
  told : Told (view w)
  signals : Signals (view w)
  awake : Awake w

theorem closable_step {threshold : BitVec 64} {w w' : System r} {a : Action} (h : Closable w)
    (moved : step threshold w a = some w') : Closable w' := by
  have move := step_move moved
  exact ⟨reports_move h.reports move, silent_move h.reports h.silent move,
    told_move h.signals h.told move, signals_move h.signals move, awake_step h.awake moved⟩

theorem closable {threshold : BitVec 64} {ok : System r → Action → Bool} {etr : r.Writer}
    {initPos : BitVec 64} {w : System r}
    (h : Reach (step threshold) ok (start etr initPos) w) : Closable w := by
  apply h.invariant
  · refine ⟨reports_start etr initPos, ?_, ?_, signals_start etr initPos, ⟨_, rfl⟩⟩
    · intro reaped
      cases reaped
    · intro told
      cases told
  · exact fun _ _ _ inv _ moved => closable_step inv moved

/-! ## Every step of the system counts -/

/-- What every continuation keeps. -/
structure Closing (w : System r) : Prop where
  closable : Closable w
  ended : Ended w.mem

theorem left_parent {threshold : BitVec 64} {o : Outcome} {w w' : System r} (h : Closing w)
    (moved : fire (code r threshold) .parent o w = some w') : stepsLeft w' < stepsLeft w := by
  obtain ⟨p, here⟩ := h.closable.awake
  have move : ParentMove o w.mem p w'.mem (w'.ctl .parent).point :=
    parent_move (run_after here moved)
  have parent : (view w').parent.left < (view w).parent.left := by
    simp only [view, here, Ctl.point]
    exact move.left h.ended
  have signals : Signals ⟨w.mem, p, (w.ctl .fetcher).point⟩ := by
    have known := h.closable.signals
    rwa [view, here] at known
  have last := restLeft_mono (move.last signals) (w'.ctl .fetcher)
  have woken : restLeft w.mem.traceEvent.last (w'.ctl .fetcher) ≤
      restLeft w.mem.traceEvent.last (w.ctl .fetcher) + 4 := by
    have other : Thread.fetcher ≠ .parent := by decide
    rcases fire_wakes moved other with same | ⟨c, woken⟩
    · rw [same]
      exact Nat.le_add_right _ _
    · rw [woken]
      exact restLeft_wake _ c _
  simp only [stepsLeft]
  omega

/-- What the fetcher does at a point where it does not sleep. -/
theorem left_run {threshold : BitVec 64} {o : Outcome} {w w' : System r} (h : Closing w)
    {p : FetcherPc} (here : w.ctl .fetcher = .run p)
    (moved : fire (code r threshold) .fetcher o w = some w')
    (awake : ∀ c m q, fetcherCode (r := r) threshold p ≠ .wait c m q) :
    (w'.ctl .fetcher).point.left w.mem.traceEvent.last < p.left w.mem.traceEvent.last := by
  have move : FetcherMove threshold o w.mem p w'.mem (w'.ctl .fetcher).point :=
    fetcher_move (run_after here moved)
  have told : p.told = true → w.mem.traceEvent.last = true := by
    have known := h.closable.told
    simpa only [Told, view, here, Ctl.point] using known
  rcases move.left h.ended told with less | ⟨reason, rfl, _⟩
  · exact less
  · exact absurd rfl (awake .traceEventCond .traceEventMutex (.wait reason .test))

theorem left_fetcher {threshold : BitVec 64} {o : Outcome} {w w' : System r} (h : Closing w)
    (moved : fire (code r threshold) .fetcher o w = some w') : stepsLeft w' < stepsLeft w := by
  have event : w'.mem.traceEvent = w.mem.traceEvent := by
    rcases fire_mem moved with same | ⟨p, q, _, after⟩
    · rw [same]
    · exact (fetcher_move after).trace.event
  have parent : (view w').parent = (view w).parent := fire_other moved (by decide)
  have rest : restLeft w.mem.traceEvent.last (w'.ctl .fetcher) <
      restLeft w.mem.traceEvent.last (w.ctl .fetcher) := by
    cases fire_fires moved with
    | reacquire m p here =>
      rw [goto_self, here]
      exact Nat.lt_succ_self _
    | lock p m q here instr | unlock p m q here instr | broadcast p c q here instr
    | act p f s q here instr =>
      have less := left_run h here moved fun c m q waiting => by
        cases instr.symm.trans waiting
      rw [goto_self] at less ⊢
      rw [here]
      exact less
    | wait p c m q here instr =>
      obtain ⟨_, _, reason, rfl, rfl⟩ := fetcherCode_wait instr
      rw [goto_self, here]
      cases reason <;> simp only [restLeft, FetcherPc.left, WaitPc.left] <;> omega
  simp only [stepsLeft, event, parent]
  omega

/-- A reaped tracee does nothing, and nothing can be done to it. -/
theorem Move.ended {threshold : BitVec 64} {v v' : View r} {a : Action} (h : Ended v.mem)
    (moved : Move threshold v a v') : Ended v'.mem := by
  cases moved with
  | still => exact h
  | parent o m' q moved =>
    rcases moved.process with same | ⟨_, _, rfl⟩ | ⟨_, _, reported⟩
    · exact h.like same
    · have still : v.mem.detach = v.mem := by simp [Mem.detach, h.reaped]
      rw [still]
      exact h
    · rw [h.waitpid reported]
      exact h
  | fetcher o m' q moved =>
    rcases moved.process with same | ⟨_, _, there, _⟩ | ⟨_, _, there, _⟩
    · exact h.like same
    · exact absurd h.reaped there
    · exact absurd h.reaped there
  | write n running | exit status running | takeStop sender running =>
    rw [h.reaped] at running
    cases running
  | sigstop =>
    rw [sigstop_reaped h.reaped]
    exact h
  | sigcont =>
    rw [sigcont_reaped h.reaped]
    exact h

theorem left_wake {t : Thread} {w w' : System r} (h : Closing w)
    (moved : spurious t w = some w') : stepsLeft w' ≤ stepsLeft w + 4 := by
  obtain ⟨mem, points⟩ := spurious_point moved
  have parent : (view w').parent = (view w).parent := points .parent
  have rest : restLeft w.mem.traceEvent.last (w'.ctl .fetcher) ≤
      restLeft w.mem.traceEvent.last (w.ctl .fetcher) + 4 := by
    obtain ⟨p, awake⟩ := h.closable.awake
    cases t with
    | parent =>
      simp only [spurious, awake] at moved
      cases moved
    | fetcher =>
      unfold spurious at moved
      split at moved
      · rename_i c m q here
        cases moved
        rw [goto_self, here]
        simp only [restLeft]
        omega
      · cases moved
  simp only [stepsLeft, mem, parent]
  omega

def Action.wakes : Action → Bool
  | .wake _ => true
  | .parent _ | .fetcher _ | .write _ | .exit _ | .takeStop | .sigstop | .sigcont => false

/-- A wake-up without a broadcast lets the fetcher test its event once more. -/
def Action.brings (a : Action) : Nat := if a.wakes then 5 else 0

theorem sum_brings (actions : List Action) :
    (actions.map Action.brings).sum = 5 * actions.countP Action.wakes := by
  induction actions with
  | nil => rfl
  | cons a rest ih =>
    simp only [List.map_cons, List.sum_cons, ih, List.countP_cons, Action.brings]
    split <;> omega

theorem closing_step {threshold : BitVec 64} {w w' : System r} {a : Action} (h : Closing w)
    (moved : step threshold w a = some w') :
    Closing w' ∧ stepsLeft w' + 1 ≤ stepsLeft w + a.brings := by
  refine ⟨⟨closable_step h.closable moved, (step_move moved).ended h.ended⟩, ?_⟩
  have reaped := h.ended.reaped
  cases a with
  | parent o => exact left_parent h moved
  | fetcher o => exact left_fetcher h moved
  | wake t => exact Nat.succ_le_succ (left_wake h moved)
  | write n | exit n => simp [step, reaped, Tracee.runs] at moved
  | takeStop => simp [step, reaped, Mem.takeStop] at moved
  | sigstop | sigcont => simp [step, reaped] at moved

theorem closing_run {threshold : BitVec 64} {ok : System r → Action → Bool}
    {actions : List Action} {w w' : System r} (h : Closing w)
    (run : exec (step threshold) ok w actions = some w') :
    Closing w' ∧ actions.length ≤ stepsLeft w + 5 * actions.countP Action.wakes := by
  obtain ⟨closing, paid⟩ := exec_potential stepsLeft (fun _ => 1) Action.brings
    (fun _ _ _ inv _ moved => closing_step inv moved) h run
  refine ⟨closing, ?_⟩
  rw [sum_brings] at paid
  rw [List.map_const', List.sum_replicate_nat, Nat.mul_one] at paid
  omega

/-- **What is left of a session is bounded.** In every run, whatever fails, whoever
else signals the tracee and however the threads are interleaved: once the tracee is
reaped with status 0, a continuation has at most 276 steps, and five more for every
wake-up that no broadcast caused. It may end in a deadlock before the session does. -/
theorem session_ends (threshold : BitVec 64) (etr : r.Writer) (initPos : BitVec 64) (w : System r)
    (h : Reach (step threshold) (fun _ _ => true) (start etr initPos) w)
    (gone : w.mem.tracee = .reaped) (status : w.mem.wstatus = 0) (actions : List Action)
    (w' : System r) (run : exec (step threshold) (fun _ _ => true) w actions = some w') :
    actions.length ≤ 276 + 5 * actions.countP Action.wakes := by
  have closable := closable h
  have closing : Closing w := ⟨closable, gone, closable.silent gone, status⟩
  have bound := left_le w
  have counted := (closing_run closing run).2
  omega

/-- The tracee has exited and is reaped, and the fetcher polls. -/
def reapedRun : List Action := opening ++ [.exit 0] ++ List.replicate 2 (.parent .ok)

/-- The rest of that session. -/
def lastSteps : List Action :=
  List.replicate 19 (.parent .ok) ++ List.replicate 16 (.fetcher .ok) ++
    List.replicate 3 (.parent .ok)

theorem session_ends_opening : ∃ w w' : System Polling.defaultRing,
    Reach (step Polling.defaultThreshold) (fun _ _ => true) (start Polling.defaultRing.empty 0) w ∧
    w.mem.tracee = .reaped ∧
    exec (step Polling.defaultThreshold) (fun _ _ => true) w lastSteps = some w' ∧
    lastSteps.length ≤ 276 + 5 * lastSteps.countP Action.wakes := by
  have replay : (exec (step Polling.defaultThreshold) (fun _ _ => true)
      (start Polling.defaultRing.empty 0) reapedRun).any
      (fun w => w.mem.tracee == .reaped && w.mem.wstatus == 0 &&
        (exec (step Polling.defaultThreshold) (fun _ _ => true) w lastSteps).isSome) = true := by
    decide +kernel
  obtain ⟨w, reached, test⟩ := reach_of_exec replay
  simp only [Bool.and_eq_true, beq_iff_eq, Option.isSome_iff_exists] at test
  obtain ⟨⟨gone, status⟩, w', run⟩ := test
  exact ⟨w, w', reached, gone, run, session_ends _ _ _ w reached gone status lastSteps w' run⟩

/-! ## Without a fetch cycle -/

/-- The tracee exits with status 0, and the parent is told so. -/
structure Clean (v : View r) : Prop where
  zombie : ∀ status, v.mem.tracee = .zombie status → status = 0
  reaped : v.mem.tracee = .reaped → v.mem.wstatus = 0

/-- Only an exit makes a zombie. -/
theorem Move.zombie {threshold : BitVec 64} {v v' : View r} {a : Action} {status : Nat}
    (moved : Move threshold v a v') (zombie : v'.mem.tracee = .zombie status) :
    v.mem.tracee = .zombie status ∨ a = .exit status := by
  cases moved with
  | still => exact .inl zombie
  | parent o m' q moved =>
    rcases moved.process with same | ⟨_, _, rfl⟩ | ⟨_, _, reported⟩
    · exact .inl (same.tracee.symm.trans zombie)
    · refine .inl ?_
      unfold Mem.detach at zombie
      split at zombie <;> first | exact zombie | cases zombie
    · rcases waitpid_cases reported with ⟨w, rest, _, rfl⟩ | ⟨_, gone, rfl⟩
      · cases final : terminated w with
        | true => simp [final] at zombie
        | false => exact .inl (by simpa [final] using zombie)
      · exact .inl zombie
  | fetcher o m' q moved =>
    rcases moved.process with same | ⟨_, _, _, same⟩ | ⟨_, _, _, same⟩
    · exact .inl (same.tracee.symm.trans zombie)
    · rw [same.tracee] at zombie
      unfold Mem.sigstop at zombie
      split at zombie <;> first | exact .inl zombie | cases zombie
    · rw [same.tracee] at zombie
      unfold Mem.sigcont at zombie
      split at zombie <;> first | exact .inl zombie | cases zombie
  | write n => exact .inl ((write_process n v.mem).tracee.symm.trans zombie)
  | exit s =>
    cases zombie
    exact .inr rfl
  | takeStop => cases zombie
  | sigstop =>
    change (v.mem.sigstop .other).tracee = _ at zombie
    unfold Mem.sigstop at zombie
    split at zombie <;> first | exact .inl zombie | cases zombie
  | sigcont =>
    change v.mem.sigcont.tracee = _ at zombie
    unfold Mem.sigcont at zombie
    split at zombie <;> first | exact .inl zombie | cases zombie

theorem clean_move {threshold : BitVec 64} {v v' : View r} {a : Action} (reports : Reports v)
    (silent : Silent v) (h : Clean v) (party : threeParties a = true)
    (moved : Move threshold v a v') : Clean v' := by
  constructor
  · intro status zombie
    rcases moved.zombie zombie with before | rfl
    · exact h.zombie status before
    · simpa [threeParties] using party
  · intro reaped
    rcases moved.reaped reaped with ⟨before, same⟩ | reported
    · exact same.wstatus.trans (h.reaped before)
    · by_cases before : v.mem.tracee = .reaped
      · rcases waitpid_cases reported with ⟨w, rest, statuses, _⟩ | ⟨_, _, same⟩
        · rw [silent before] at statuses
          cases statuses
        · rw [same]
          exact h.reaped before
      · exact h.zombie _ (reports.memory.reaps reported reaped before).2

/-- The three parties, with at most a late `SIGSTOP`. -/
def withoutCycle (w : System r) (a : Action) : Bool := threeParties a && noCycle (view w) a

theorem clean {threshold : BitVec 64} {etr : r.Writer} {initPos : BitVec 64} {w : System r}
    (h : Reach (step threshold) withoutCycle (start etr initPos) w) : Clean (view w) := by
  have both : Closable w ∧ Clean (view w) := by
    apply h.invariant
    · have first : Reach (step threshold) withoutCycle (start etr initPos) (start etr initPos) :=
        .start
      refine ⟨closable first, ?_, ?_⟩
      · intro status zombie
        cases zombie
      · intro reaped
        cases reaped
    · intro u a u' inv allowed moved
      obtain ⟨known, clean⟩ := inv
      obtain ⟨party, _⟩ := Bool.and_eq_true_iff.mp allowed
      exact ⟨closable_step known moved,
        clean_move known.reports known.silent clean party (step_move moved)⟩
  exact both.2

/-- **Without a fetch cycle a session completes.** Once the tracee is reaped, every
continuation is short, and one that has come to its end, since none of the
three parties can go on, has taken the parent through its teardown and the fetcher
to its return. -/
theorem session_completes (threshold : BitVec 64) (etr : r.Writer) (initPos : BitVec 64)
    (w : System r) (h : Reach (step threshold) withoutCycle (start etr initPos) w)
    (gone : w.mem.tracee = .reaped) (actions : List Action) (w' : System r)
    (run : exec (step threshold) withoutCycle w actions = some w') :
    actions.length ≤ 276 + 5 * actions.countP Action.wakes ∧
    ((∀ a, proceeds a = true → step threshold w' a = none) →
      (view w').parent = .done ∧ (view w').fetcher = .returned) := by
  have closable := closable h
  have closing : Closing w := ⟨closable, gone, closable.silent gone, (clean h).reaped gone⟩
  constructor
  · have bound := left_le w
    have counted := (closing_run closing run).2
    omega
  · intro still
    have reached : Reach (step threshold) withoutCycle (start etr initPos) w' :=
      h.trans (exec_reach run)
    have going := (never_stuck threshold etr initPos w' reached).2
    by_contra unfinished
    exact going ⟨unfinished, still⟩

/-- The end of that session. -/
theorem session_completes_opening : ∃ w w' : System Polling.defaultRing,
    Reach (step Polling.defaultThreshold) withoutCycle (start Polling.defaultRing.empty 0) w ∧
    w.mem.tracee = .reaped ∧
    exec (step Polling.defaultThreshold) withoutCycle w lastSteps = some w' ∧
    (view w').parent = .done ∧ (view w').fetcher = .returned := by
  have replay : (exec (step Polling.defaultThreshold) withoutCycle
      (start Polling.defaultRing.empty 0) reapedRun).any
      (fun w => w.mem.tracee == .reaped && (exec (step Polling.defaultThreshold) withoutCycle
        w lastSteps).any fun w' => w'.mem.tracee == .reaped &&
          (step Polling.defaultThreshold w' (.parent .ok)).isNone &&
          (step Polling.defaultThreshold w' (.fetcher .ok)).isNone) = true := by
    decide +kernel
  obtain ⟨w, reached, test⟩ := reach_of_exec replay
  simp only [Bool.and_eq_true, beq_iff_eq] at test
  obtain ⟨gone, finished⟩ := test
  cases run : exec (step Polling.defaultThreshold) withoutCycle w lastSteps with
  | none => simp [run] at finished
  | some w' =>
    simp only [run, Option.any_some, Bool.and_eq_true, beq_iff_eq, Option.isNone_iff_eq_none]
      at finished
    obtain ⟨⟨reaped, parent⟩, fetcher⟩ := finished
    have ended := (session_completes _ _ _ w reached gone lastSteps w' run).2
    refine ⟨w, w', reached, gone, run, ended ?_⟩
    intro a able
    cases a with
    | parent o =>
      obtain rfl : o = .ok := by simpa [proceeds] using able
      exact parent
    | fetcher o =>
      obtain rfl : o = .ok := by simpa [proceeds] using able
      exact fetcher
    | write n => simp [step, reaped, Tracee.runs]
    | exit status => simp [step, reaped, Tracee.runs]
    | takeStop => simp [step, reaped, Mem.takeStop]
    | sigstop | sigcont | wake => cases able

end Ultrasight.Handshake
