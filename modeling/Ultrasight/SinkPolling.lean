import Ultrasight.Polling
import Ultrasight.Runs
import Ultrasight.WaitStatus

/-!
# The polling function by itself

`trace_sink_polling` with everything around it left open: a call may answer
anything, a wait may end at any time, and the ETR ring may be written at any
time.

* `step` takes the function from one point of the source to the next, or writes
  to the ring;
* `leaves_running_iff` says which runs end with the tracee let go and with the
  failure returned.
-/

namespace Ultrasight.SinkPolling

inductive Pc where
  | initPos | alive | offset | stop
  | waitSuspended | disable | fetch | enable | cont | waitResumed
  | resample | nanosleep
  | killed | lastFetch
  | returned
  deriving DecidableEq, Repr

/-- The calls made, with their results; for `kill` also whether `errno` is
`ESRCH`. -/
inductive Call where
  | kill (signal : Nat) (rc : Int) (esrch : Bool)
  | disableCsTrace (rc : Int)
  | fetchTrace (rc : Int)
  | enableCsTrace (rc : Int)
  | lastFetch (rc : Int)
  deriving DecidableEq, Repr

/-- `initPos` and `ret` are the locals of that name; the log is newest first. -/
structure State (r : Ring) where
  pc : Pc
  etr : r.Writer
  initPos : BitVec 64
  ret : Int
  calls : List Call

inductive Action where
  | write (n : Nat)
  /-- The function goes on; the call it makes, if any, answers `rc`. -/
  | next (rc : Int) (esrch : Bool)
  deriving DecidableEq, Repr

variable {r : Ring}

namespace State

def goto (pc : Pc) (s : State r) : State r := { s with pc := pc }

/-- Put a call on record and assign its result to `ret`. -/
def log (c : Call) (ret : Int) (s : State r) : State r := { s with calls := c :: s.calls, ret := ret }

/-- `fetch_trace` empties the ring, unless it fails. -/
def fetched (rc : Int) (s : State r) : State r := if rc < 0 then s else { s with etr := r.empty }

/-- `cs_get_buffer_rwp(devices.etb) - init_pos`. -/
def currOffset (s : State r) : BitVec 64 := s.etr.position - s.initPos

end State

/-- `trace_sink_polling`, from one point to the next. -/
def advance (fetchThreshold : BitVec 64) (rc : Int) (esrch : Bool) (s : State r) :
    Option (State r) :=
  match s.pc with
  | .initPos => some { s with initPos := s.etr.position, pc := .alive }
  | .alive => some (s.goto (if rc = 0 then .offset else .killed))
  | .offset => some (s.goto (if fetchThreshold < s.currOffset then .stop else .nanosleep))
  | .stop =>
    -- `goto killed` on `ESRCH` and `break` on another error lead to the same place.
    some ((s.log (.kill sigstop rc esrch) rc).goto (if rc < 0 then .killed else .waitSuspended))
  | .waitSuspended => some (s.goto .disable)
  | .disable =>
    -- `ret` is assigned the value of the comparison.
    some ((s.log (.disableCsTrace rc) (if rc < 0 then 1 else 0)).goto
      (if rc < 0 then .returned else .fetch))
  | .fetch =>
    some (((s.log (.fetchTrace rc) rc).fetched rc).goto (if rc < 0 then .returned else .enable))
  | .enable =>
    some ((s.log (.enableCsTrace rc) rc).goto (if rc < 0 then .returned else .cont))
  | .cont =>
    some ((s.log (.kill sigcont rc esrch) rc).goto
      (if rc < 0 then (if esrch then .killed else .returned) else .waitResumed))
  | .waitResumed => some (s.goto .resample)
  | .resample => some { s with initPos := s.etr.position, pc := .nanosleep }
  | .nanosleep => some (s.goto .alive)
  | .killed => some (s.goto .lastFetch)
  | .lastFetch => some (((s.log (.lastFetch rc) rc).fetched rc).goto .returned)
  | .returned => none

def step (fetchThreshold : BitVec 64) (s : State r) : Action → Option (State r)
  | .write n => some { s with etr := s.etr.write n }
  | .next rc esrch => advance fetchThreshold rc esrch s

/-- The function is called on a ring whose position may be anywhere, and
`unread` counts from now on. `ret` and `initPos` hold anything. -/
def start (offset : Nat) (inside : offset < r.size) (initPos : BitVec 64) (ret : Int) : State r :=
  ⟨.initPos, ⟨offset, inside, 0⟩, initPos, ret, []⟩

/-! ## What is asked of an exit -/

/-- After the last `SIGSTOP` that was sent, a `SIGCONT` was tried. -/
def letGo : List Call → Bool
  | [] => true
  | .kill signal rc _ :: older =>
    if signal = sigcont then true else if signal = sigstop ∧ 0 ≤ rc then false else letGo older
  | .disableCsTrace _ :: older | .fetchTrace _ :: older | .enableCsTrace _ :: older
  | .lastFetch _ :: older => letGo older

/-- A step of a cycle failed; `ESRCH` is no failure. -/
def Call.failed : Call → Bool
  | .kill _ rc esrch => decide (rc < 0) && !esrch
  | .disableCsTrace rc | .fetchTrace rc | .enableCsTrace rc => decide (rc < 0)
  | .lastFetch _ => false

/-- The tracee was let go, and a failed step is returned as a negative value. -/
def LeavesRunning (s : State r) : Prop :=
  letGo s.calls = true ∧ ((∃ c ∈ s.calls, c.failed = true) → s.ret < 0)

/-! ## When it is so -/

/-- A call between `SIGSTOP` and `SIGCONT` failed. -/
def Call.strands : Call → Bool
  | .disableCsTrace rc | .fetchTrace rc | .enableCsTrace rc => decide (rc < 0)
  | .kill .. | .lastFetch _ => false

/-- `SIGSTOP` failed, the last fetch did not. -/
def swallowed : List Call → Bool
  | .lastFetch rc :: .kill signal rc' esrch :: _ =>
    decide (0 ≤ rc) && decide (signal = sigstop) && decide (rc' < 0) && !esrch
  | _ => false

/-- The runs that end well. -/
def Orderly (calls : List Call) : Prop :=
  (∀ c ∈ calls, c.strands = false) ∧ swallowed calls = false

/-- Nothing has failed, and the tracee was let go or not. -/
structure Smooth (released : Bool) (calls : List Call) : Prop where
  letGo : letGo calls = released
  none : ∀ c ∈ calls, c.failed = false

theorem strands_failed {c : Call} (h : c.strands = true) : c.failed = true := by
  cases c with
  | disableCsTrace | fetchTrace | enableCsTrace => exact h
  | kill | lastFetch => cases h

theorem Smooth.strands {released : Bool} {calls : List Call} (h : Smooth released calls) :
    ∀ c ∈ calls, c.strands = false := by
  intro c hc
  by_contra strands
  have failed := strands_failed (Bool.of_not_eq_false strands)
  rw [h.none c hc] at failed
  cases failed

theorem Smooth.cons {released after : Bool} {calls : List Call} (h : Smooth released calls)
    {c : Call} (fine : c.failed = false) (last : SinkPolling.letGo (c :: calls) = after) :
    Smooth after (c :: calls) := by
  constructor
  · exact last
  · rw [List.forall_mem_cons]
    exact ⟨fine, h.none⟩

/-- Behind the label `killed`: as before, or after a `SIGSTOP` that failed. -/
def AtKilled (calls : List Call) : Prop :=
  Smooth true calls ∨ ∃ rc older, calls = .kill sigstop rc false :: older ∧ rc < 0 ∧ Smooth true older

def Known (s : State r) : Prop :=
  match s.pc with
  | .initPos | .alive | .offset | .stop | .waitResumed | .resample | .nanosleep =>
    Smooth true s.calls
  | .waitSuspended | .disable | .fetch | .enable | .cont => Smooth false s.calls
  | .killed | .lastFetch => AtKilled s.calls
  | .returned => LeavesRunning s ↔ Orderly s.calls

/-- A failed call between `SIGSTOP` and `SIGCONT` is the last one. -/
theorem stranded {s : State r} {c : Call} {older : List Call} (h : Smooth false older)
    (calls : s.calls = c :: older) (strands : c.strands = true) :
    LeavesRunning s ↔ Orderly s.calls := by
  rw [calls]
  refine iff_of_false ?_ ?_
  · rintro ⟨released, _⟩
    have same : letGo (c :: older) = letGo older := by
      cases c with
      | disableCsTrace | fetchTrace | enableCsTrace => rfl
      | kill | lastFetch => cases strands
    rw [calls, same, h.letGo] at released
    cases released
  · rintro ⟨none, _⟩
    rw [none c List.mem_cons_self] at strands
    cases strands

/-- A `SIGCONT` that failed is returned as such. -/
theorem tried_last {s : State r} {older : List Call} (h : Smooth false older)
    (calls : s.calls = .kill sigcont s.ret false :: older) (failed : s.ret < 0) :
    LeavesRunning s ↔ Orderly s.calls := by
  rw [calls]
  refine iff_of_true ⟨?_, fun _ => failed⟩ ⟨?_, rfl⟩
  · rw [calls]
    rfl
  · rw [List.forall_mem_cons]
    exact ⟨rfl, h.strands⟩

/-- The last fetch returns its own result, whatever happened before. -/
theorem fetched_last {s : State r} {older : List Call} (h : AtKilled older)
    (calls : s.calls = .lastFetch s.ret :: older) : LeavesRunning s ↔ Orderly s.calls := by
  rcases h with smooth | ⟨rc, earlier, rfl, failed, smooth⟩
  · have none : ∀ c ∈ s.calls, c.failed = false := by
      rw [calls, List.forall_mem_cons]
      exact ⟨rfl, smooth.none⟩
    refine iff_of_true ⟨?_, ?_⟩ ⟨?_, ?_⟩
    · rw [calls]
      exact smooth.letGo
    · rintro ⟨c, hc, fails⟩
      rw [none c hc] at fails
      cases fails
    · rw [calls, List.forall_mem_cons]
      exact ⟨rfl, smooth.strands⟩
    · rw [calls]
      unfold swallowed
      split
      · rename_i last signal rc esrch earlier eq
        cases eq
        have fine := smooth.none _ List.mem_cons_self
        simp only [Call.failed] at fine
        rw [Bool.and_assoc, fine, Bool.and_false]
      · rfl
  · have released : letGo s.calls = true := by
      rw [calls]
      simpa [letGo, sigstop, sigcont, Int.not_le.mpr failed] using smooth.letGo
    have strands : ∀ c ∈ s.calls, c.strands = false := by
      simp only [calls, List.forall_mem_cons]
      exact ⟨rfl, rfl, smooth.strands⟩
    have fails : ∃ c ∈ s.calls, c.failed = true := by
      refine ⟨.kill sigstop rc false, by simp [calls], ?_⟩
      simpa [Call.failed] using failed
    have lost : swallowed s.calls = decide (0 ≤ s.ret) := by
      rw [calls]
      simp [swallowed, failed]
    constructor
    · rintro ⟨_, negative⟩
      refine ⟨strands, ?_⟩
      rw [lost, decide_eq_false (Int.not_le.mpr (negative fails))]
    · rintro ⟨_, kept⟩
      rw [lost] at kept
      exact ⟨released, fun _ => Int.not_le.mp (of_decide_eq_false kept)⟩

theorem known_advance {threshold : BitVec 64} {rc : Int} {esrch : Bool} {s t : State r}
    (h : Known s) (moved : advance threshold rc esrch s = some t) : Known t := by
  obtain ⟨pc, etr, initPos, ret, calls⟩ := s
  cases pc with
  | initPos | waitResumed | resample | nanosleep | waitSuspended => cases moved; exact h
  | killed => cases moved; exact h
  | alive =>
    have smooth : Smooth true calls := h
    cases moved
    simp only [State.goto]
    split
    · exact smooth
    · exact .inl smooth
  | offset =>
    cases moved
    simp only [State.goto]
    split <;> exact h
  | stop =>
    have smooth : Smooth true calls := h
    cases moved
    simp only [State.goto, State.log]
    split
    · rename_i failed
      cases esrch with
      | true =>
        left
        apply smooth.cons
        · exact Bool.and_false _
        · simpa [letGo, sigstop, sigcont, Int.not_le.mpr failed] using smooth.letGo
      | false => exact .inr ⟨rc, calls, rfl, failed, smooth⟩
    · rename_i done
      apply smooth.cons
      · simp [Call.failed, done]
      · simp [letGo, sigstop, sigcont, Int.not_lt.mp done]
  | disable | enable =>
    have smooth : Smooth false calls := h
    cases moved
    simp only [State.goto, State.log]
    split
    · rename_i failed
      exact stranded smooth rfl (decide_eq_true failed)
    · rename_i done
      exact smooth.cons (decide_eq_false done) smooth.letGo
  | fetch =>
    have smooth : Smooth false calls := h
    cases moved
    simp only [State.goto, State.log, State.fetched]
    split
    · rename_i failed
      exact stranded smooth rfl (decide_eq_true failed)
    · rename_i done
      exact smooth.cons (decide_eq_false done) smooth.letGo
  | cont =>
    have smooth : Smooth false calls := h
    cases moved
    simp only [State.goto, State.log]
    split
    · rename_i failed
      cases esrch with
      | true => exact .inl (smooth.cons (Bool.and_false _) rfl)
      | false => exact tried_last smooth rfl failed
    · rename_i done
      apply smooth.cons
      · simp [Call.failed, done]
      · rfl
  | lastFetch =>
    have last : AtKilled calls := h
    cases moved
    simp only [State.goto, State.log, State.fetched]
    split <;> exact fetched_last last rfl
  | returned => cases moved

theorem known_start (offset : Nat) (inside : offset < r.size) (initPos : BitVec 64) (ret : Int) :
    Known (start offset inside initPos ret) := ⟨rfl, fun _ none => by cases none⟩

/-- **When the tracee is left running.** On every exit of `trace_sink_polling`:
a `SIGCONT` was tried after the last `SIGSTOP` and a failed step is returned as
a negative value, exactly if no call between `SIGSTOP` and `SIGCONT` has failed,
and a `SIGSTOP` that failed was not followed by a last fetch that did not. -/
theorem leaves_running_iff (threshold : BitVec 64) (offset : Nat) (inside : offset < r.size)
    (initPos : BitVec 64) (ret : Int) (s : State r)
    (h : Reach (step threshold) (fun _ _ => true) (start offset inside initPos ret) s)
    (returned : s.pc = .returned) : LeavesRunning s ↔ Orderly s.calls := by
  have known : Known s := by
    refine h.invariant (known_start offset inside initPos ret) ?_
    intro s a t known _ moved
    cases a with
    | write n => cases moved; exact known
    | next rc esrch => exact known_advance known moved
  simpa only [Known, returned] using known

/-- The function samples the position, the tracee writes more than the
threshold, and the next poll stops it. -/
def stopping : List Action :=
  [.next 0 false, .write 0x3000] ++ List.replicate 4 (.next 0 false)

/-- One cycle, and then the tracee is gone. -/
theorem leaves_running_one_cycle : ∃ s : State Polling.defaultRing,
    Reach (step Polling.defaultThreshold) (fun _ _ => true) (start 0 (by decide) 0 0) s ∧
    s.pc = .returned ∧ LeavesRunning s := by
  have replay : (exec (step Polling.defaultThreshold) (fun _ _ => true)
      (start 0 (by decide) 0 0 : State Polling.defaultRing)
      (stopping ++ List.replicate 7 (.next 0 false) ++ [.next (-1) true, .next 0 false,
        .next 0 false])).any
      (fun s => s.pc == .returned && s.calls.all (fun c => !c.strands) && !swallowed s.calls) =
      true := by
    decide +kernel
  obtain ⟨s, reached, test⟩ := reach_of_exec replay
  simp only [Bool.and_eq_true, beq_iff_eq, List.all_eq_true, Bool.not_eq_true'] at test
  obtain ⟨⟨returned, strands⟩, kept⟩ := test
  exact ⟨s, reached, returned,
    (leaves_running_iff _ 0 (by decide) 0 0 s reached returned).mpr ⟨strands, kept⟩⟩

/-- `disable_cs_trace` fails after the tracee was stopped: no `SIGCONT` is sent,
and the function returns 1. And a `SIGSTOP` that fails is forgotten after the
last fetch. -/
theorem stopped_for_ever :
    (∃ s : State Polling.defaultRing,
      Reach (step Polling.defaultThreshold) (fun _ _ => true) (start 0 (by decide) 0 0) s ∧
      s.pc = .returned ∧ s.calls = [.disableCsTrace (-1), .kill sigstop 0 false] ∧ s.ret = 1 ∧
      ¬ LeavesRunning s) ∧
    ∃ s : State Polling.defaultRing,
      Reach (step Polling.defaultThreshold) (fun _ _ => true) (start 0 (by decide) 0 0) s ∧
      s.pc = .returned ∧ s.calls = [.lastFetch 0, .kill sigstop (-1) false] ∧ s.ret = 0 ∧
      ¬ LeavesRunning s := by
  have disable : (exec (step Polling.defaultThreshold) (fun _ _ => true)
      (start 0 (by decide) 0 0 : State Polling.defaultRing)
      (stopping ++ [.next (-1) false])).any (fun s => s.pc == .returned &&
        s.calls == [.disableCsTrace (-1), .kill sigstop 0 false] && s.ret == 1) = true := by
    decide +kernel
  have stop : (exec (step Polling.defaultThreshold) (fun _ _ => true)
      (start 0 (by decide) 0 0 : State Polling.defaultRing)
      (stopping.take 4 ++ [.next (-1) false, .next 0 false, .next 0 false])).any
      (fun s => s.pc == .returned &&
        s.calls == [.lastFetch 0, .kill sigstop (-1) false] && s.ret == 0) = true := by
    decide +kernel
  obtain ⟨s, reached, test⟩ := reach_of_exec disable
  obtain ⟨s', reached', test'⟩ := reach_of_exec stop
  simp only [Bool.and_eq_true, beq_iff_eq] at test test'
  obtain ⟨⟨returned, calls⟩, ret⟩ := test
  obtain ⟨⟨returned', calls'⟩, ret'⟩ := test'
  refine ⟨⟨s, reached, returned, calls, ret, ?_⟩, s', reached', returned', calls', ret', ?_⟩
  · rintro ⟨released, _⟩
    rw [calls] at released
    revert released
    decide
  · rintro ⟨_, negative⟩
    have failed : ∃ c ∈ s'.calls, c.failed = true :=
      ⟨.kill sigstop (-1) false, by rw [calls']; decide, by decide⟩
    have := negative failed
    omega

end Ultrasight.SinkPolling
