import Ultrasight.Signals
import Ultrasight.Wakeups

/-!
# The critical sections of the handshake

Which mutexes are held at each program point, the order in which they nest, and
what the waits wait for. Each shared function is checked on its own; the two
threads inherit the checks.
-/

namespace Ultrasight.Handshake

open Threads TraceState TraceEvent

variable {r : Ring}

/-! ## Mutexes held -/

def nothing : Mutex → Bool := fun _ => false

def holding (m : Mutex) : Mutex → Bool := fun n => n == m

def SignalPc.held (outside : Mutex → Bool) : SignalPc → Mutex → Bool
  | .enter => outside
  | .assign | .broadcast | .leave => Function.update outside .traceEventMutex true

def SetPc.held : SetPc → Mutex → Bool
  | .enter => nothing
  | .read | .write _ | .leave => holding .traceStateMutex
  | .signal _ p => p.held (holding .traceStateMutex)

def WaitPc.held : WaitPc → Mutex → Bool
  | .enter => nothing
  | .test | .sleep | .leave _ => holding .traceEventMutex

def SectionPc.held : SectionPc → Mutex → Bool
  | .enter => nothing
  | .body | .leave _ => holding .traceMutex

def ExitPc.held : ExitPc → Mutex → Bool
  | .enter => nothing
  | .assign | .broadcast | .leave => holding .traceFetcherMutex

def ParentPc.held : ParentPc → Mutex → Bool
  | .set _ p => p.held
  | .enable p | .disable p => p.held
  | .setCpuAffinity | .detach | .waitpid | .branch | .join | .exportTrace | .cleanUp | .done =>
    nothing

def FetcherPc.held : FetcherPc → Mutex → Bool
  | .wait _ p => p.held
  | .work _ p => p.held
  | .exit p => p.held
  | .received _ | .initPos | .alive | .offset | .stop | .cont | .resample | .nanosleep | .leave
  | .returned => nothing

def held : (t : Thread) → Point t → Mutex → Bool
  | .parent => ParentPc.held
  | .fetcher => FetcherPc.held

/-- `set_trace_state` takes the event mutex inside the state mutex. -/
def rank : Mutex → Nat
  | .traceMutex => 0
  | .traceStateMutex => 1
  | .traceEventMutex => 2
  | .traceFetcherMutex => 3

theorem rank_bounded (m : Mutex) : rank m < 4 := by cases m <;> decide

theorem update_nothing (m : Mutex) : Function.update nothing m true = holding m := by
  funext n
  by_cases h : n = m <;> simp [nothing, holding, h]

theorem update_holding (m : Mutex) : Function.update (holding m) m false = nothing := by
  funext n
  by_cases h : n = m <;> simp [nothing, holding, h]

/-! ## The shared functions -/

theorem signalTraceEvent_checks (e : TraceEvent) {outside : Mutex → Bool}
    (free : outside .traceEventMutex = false) (p : SignalPc) :
    (signalTraceEvent e p : Body r _).Checks (p.held outside)
      (fun q => q.elim outside (SignalPc.held outside)) := by
  cases p with
  | enter => exact ⟨free, rfl⟩
  | assign =>
    rintro o m m' q ⟨⟩
    rfl
  | broadcast => rfl
  | leave =>
    refine ⟨by simp [SignalPc.held], ?_⟩
    simp [SignalPc.held, ← free]

theorem setTraceState_checks (new : TraceState) (p : SetPc) :
    (setTraceState new p : Body r _).Checks p.held (fun q => q.elim nothing SetPc.held) := by
  cases p with
  | enter => exact ⟨rfl, (update_nothing _).symm⟩
  | read =>
    rintro o m m' q ⟨⟩
    rfl
  | write old =>
    rintro o m m' q ⟨⟩
    cases signalled old new <;> rfl
  | signal e p =>
    apply checks_map (signalTraceEvent_checks e rfl p)
    intro q
    cases q <;> rfl
  | leave => exact ⟨rfl, (update_holding _).symm⟩

theorem waitEvent_checks (wanted : TraceEvent → Bool) (p : WaitPc) :
    (waitEvent wanted p : Body r _).Checks p.held (fun q => q.elim WaitPc.held fun _ => nothing) := by
  cases p with
  | enter => exact ⟨rfl, (update_nothing _).symm⟩
  | test =>
    rintro o m m' q ⟨⟩
    simp only [Sum.elim_inl]
    split <;> rfl
  | sleep => exact ⟨fun n => by simp [WaitPc.held, holding], rfl⟩
  | leave e => exact ⟨rfl, (update_holding _).symm⟩

theorem underTraceMutex_checks (work : Outcome → Mem r → Mem r) (p : SectionPc) :
    (underTraceMutex work p).Checks p.held (fun q => q.elim SectionPc.held fun _ => nothing) := by
  cases p with
  | enter => exact ⟨rfl, (update_nothing _).symm⟩
  | body =>
    rintro o m m' q ⟨⟩
    rfl
  | leave o => exact ⟨rfl, (update_holding _).symm⟩

theorem exitBlock_checks (p : ExitPc) :
    (exitBlock p : Body r _).Checks p.held (fun q => q.elim nothing ExitPc.held) := by
  cases p with
  | enter => exact ⟨rfl, (update_nothing _).symm⟩
  | assign =>
    rintro o m m' q ⟨⟩
    rfl
  | broadcast => rfl
  | leave => exact ⟨rfl, (update_holding _).symm⟩

theorem signalTraceEvent_nests (e : TraceEvent) (p : SignalPc) :
    (signalTraceEvent e p : Body r _).Nests rank (p.held (holding .traceStateMutex)) := by
  cases p with
  | enter => intro n; cases n <;> decide
  | assign => exact fun _ _ _ _ => ⟨_, rfl⟩
  | broadcast | leave => trivial

theorem setTraceState_nests (new : TraceState) (p : SetPc) :
    (setTraceState new p : Body r _).Nests rank p.held := by
  cases p with
  | enter => exact fun _ h => by cases h
  | read | write => exact fun _ _ _ _ => ⟨_, rfl⟩
  | signal e p => exact nests_map (signalTraceEvent_nests e p)
  | leave => trivial

theorem waitEvent_nests (wanted : TraceEvent → Bool) (p : WaitPc) :
    (waitEvent wanted p : Body r _).Nests rank p.held := by
  cases p with
  | enter => exact fun _ h => by cases h
  | test => exact fun _ _ _ _ => ⟨_, rfl⟩
  | sleep | leave => trivial

theorem underTraceMutex_nests (work : Outcome → Mem r → Mem r) (p : SectionPc) :
    (underTraceMutex work p).Nests rank p.held := by
  cases p with
  | enter => exact fun _ h => by cases h
  | body => exact fun _ _ _ _ => ⟨_, rfl⟩
  | leave => trivial

theorem exitBlock_nests (p : ExitPc) : (exitBlock p : Body r _).Nests rank p.held := by
  cases p with
  | enter => exact fun _ h => by cases h
  | assign => exact fun _ _ _ _ => ⟨_, rfl⟩
  | broadcast | leave => trivial

/-! ## The threads -/

theorem parentCode_checks (p : ParentPc) :
    (parentCode p : Body r _).Checks p.held ParentPc.held := by
  cases p with
  | set site p =>
    apply checks_map (setTraceState_checks site.state p)
    intro q
    cases q with
    | none => cases site <;> rfl
    | some p => rfl
  | enable p | disable p =>
    apply checks_map (underTraceMutex_checks _ p)
    intro q
    rcases q with q | o
    · rfl
    · cases o <;> rfl
  | setCpuAffinity =>
    rintro o m m' q ⟨⟩
    cases o <;> rfl
  | waitpid =>
    intro o m m' q moved
    obtain ⟨_, _, eq⟩ := Option.map_eq_some_iff.mp moved
    cases eq
    rfl
  | branch =>
    rintro o m m' q ⟨⟩
    split <;> rfl
  | join =>
    intro o m m' q moved
    simp only [Option.ite_none_right_eq_some] at moved
    cases moved.2
    rfl
  | detach | exportTrace | cleanUp =>
    rintro o m m' q ⟨⟩
    rfl
  | done => exact fun _ => rfl

theorem fetcherCode_checks (threshold : BitVec 64) (p : FetcherPc) :
    (fetcherCode threshold p : Body r _).Checks p.held FetcherPc.held := by
  cases p with
  | wait reason p =>
    apply checks_map (waitEvent_checks reason.wanted p)
    intro q
    rcases q with q | e
    · rfl
    · cases reason <;> rfl
  | work task p =>
    apply checks_map (underTraceMutex_checks task.work p)
    intro q
    rcases q with q | o
    · rfl
    · cases task <;> cases o <;> rfl
  | exit p =>
    apply checks_map (exitBlock_checks p)
    intro q
    cases q <;> rfl
  | received e =>
    rintro o m m' q moved
    cases e <;> cases moved <;> rfl
  | alive | offset | stop =>
    rintro o m m' q moved
    simp only [Option.some.injEq] at moved
    split at moved <;> cases moved <;> rfl
  | cont =>
    rintro o m m' q moved
    simp only [Option.some.injEq] at moved
    split at moved
    · cases moved; rfl
    · split at moved <;> cases moved <;> rfl
  | initPos | resample | nanosleep | leave =>
    rintro o m m' q ⟨⟩
    rfl
  | returned => exact fun _ => rfl

theorem discipline (threshold : BitVec 64) : Discipline (code r threshold) held := by
  intro t p
  cases t with
  | parent => exact parentCode_checks p
  | fetcher => exact fetcherCode_checks threshold p

theorem ordered (threshold : BitVec 64) : Ordered (code r threshold) held rank := by
  intro t p
  cases t with
  | parent =>
    cases p with
    | set site p => exact nests_map (setTraceState_nests site.state p)
    | enable p | disable p => exact nests_map (underTraceMutex_nests _ p)
    | setCpuAffinity | detach | waitpid | branch | join | exportTrace | cleanUp =>
      exact fun _ h => by cases h
    | done => trivial
  | fetcher =>
    cases p with
    | wait reason p => exact nests_map (waitEvent_nests reason.wanted p)
    | work task p => exact nests_map (underTraceMutex_nests task.work p)
    | exit p => exact nests_map (exitBlock_nests p)
    | received | initPos | alive | offset | stop | cont | resample | nanosleep | leave =>
      exact fun _ h => by cases h
    | returned => trivial

/-! ## Waits and broadcasts -/

/-- What the wait that resumes at a point waits for. -/
def FetcherPc.wanted : FetcherPc → TraceEvent → Bool
  | .wait reason _ => reason.wanted
  | _ => fun _ => false

/-- The parent never waits. -/
def wanted : (t : Thread) → Point t → Mem r → Bool
  | .parent, _, _ => false
  | .fetcher, q, m => FetcherPc.wanted q m.traceEvent

/-- Only the assignment in `signal_trace_event` changes the event, and a
broadcast follows it. -/
theorem ParentMove.event {o : Outcome} {m m' : Mem r} {p q : ParentPc}
    (h : ParentMove o m p m' q) :
    m'.traceEvent = m.traceEvent ∨
      ∃ site e, p = .set site (.signal e .assign) ∧ q = .set site (.signal e .broadcast) := by
  cases h with
  | assign site e => exact .inr ⟨site, e, rfl, rfl⟩
  | enableBody => exact .inl (enableCsTrace_trace o m).event
  | disableBody => exact .inl (disableCsTrace_trace true o m).event
  | detach => exact .inl (detach_trace m).event
  | waitpid m' reported => exact .inl (waitpid_trace reported).event
  | _ => exact .inl rfl

theorem parentCode_wait {p q : ParentPc} {c : Cond} {m : Mutex} :
    (parentCode p : Body r _) ≠ .wait c m q := by
  intro h
  cases p with
  | set site p =>
    cases p with
    | signal e p => cases p <;> cases h
    | enter | read | write | leave => cases h
  | enable p | disable p => cases p <;> cases h
  | setCpuAffinity | detach | waitpid | branch | join | exportTrace | cleanUp | done => cases h

/-- The fetcher only waits for events. -/
theorem fetcherCode_wait {threshold : BitVec 64} {p q : FetcherPc} {c : Cond} {m : Mutex}
    (h : (fetcherCode threshold p : Body r _) = .wait c m q) :
    c = .traceEventCond ∧ m = .traceEventMutex ∧
      ∃ reason, p = .wait reason .sleep ∧ q = .wait reason .test := by
  cases p with
  | wait reason p =>
    cases p with
    | sleep => cases h; exact ⟨rfl, rfl, reason, rfl, rfl⟩
    | enter | test | leave => cases h
  | work task p => cases p <;> cases h
  | exit p => cases p <;> cases h
  | received | initPos | alive | offset | stop | cont | resample | nanosleep | leave | returned =>
    cases h

/-- A sleep follows a test that failed. -/
theorem FetcherMove.sleeps {threshold : BitVec 64} {o : Outcome} {m m' : Mem r} {p : FetcherPc}
    {reason : Wait} (h : FetcherMove threshold o m p m' (.wait reason .sleep)) :
    reason.wanted m'.traceEvent = false := by
  generalize at_ : FetcherPc.wait reason .sleep = q at h
  cases h with
  | notFound reason' unwanted => cases at_; exact unwanted
  | waitLeave reason' e => cases reason' <;> cases at_
  | workLeave task o' => cases task <;> cases o' <;> cases at_
  | _ => cases at_

/-- The waits of the handshake are signalled as they should be. -/
theorem signalled_waits (threshold : BitVec 64) :
    Signalled (code r threshold) held wanted := by
  constructor
  · intro t p i s s' q moved c m q' waiting
    cases t with
    | parent => rfl
    | fetcher =>
      obtain ⟨_, _, reason, rfl, rfl⟩ := fetcherCode_wait waiting
      exact (fetcher_move moved).sleeps
  · intro t p c m q waiting c' m' q' again
    cases t with
    | parent => exact parentCode_wait waiting
    | fetcher =>
      obtain ⟨_, _, _, _, rfl⟩ := fetcherCode_wait waiting
      cases again
  · intro t p c m q waiting u p' i s s' q' moved before after
    cases t with
    | parent => cases after
    | fetcher =>
      obtain ⟨rfl, rfl, _, _, _⟩ := fetcherCode_wait waiting
      have changed : s'.traceEvent ≠ s.traceEvent := by
        intro same
        simp only [wanted, same] at before after
        rw [before] at after
        cases after
      cases u with
      | fetcher => exact absurd (fetcher_move moved).trace.event changed
      | parent =>
        rcases (parent_move moved).event with same | ⟨site, e, rfl, rfl⟩
        · exact absurd same changed
        · exact ⟨rfl, .set site (.signal e .leave), rfl⟩

/-! ## Runs -/

/-- Mutexes are held as the points say, and nobody oversleeps. -/
structure Orderly (threshold : BitVec 64) (w : System r) : Prop where
  guarded : Guarded held w
  wakeful : Wakeful (code r threshold) wanted w

theorem orderly_start (threshold : BitVec 64) (etr : r.Writer) (initPos : BitVec 64) :
    Orderly threshold (start etr initPos) := by
  refine ⟨⟨?_, ?_⟩, ⟨?_, ?_, ?_, ?_⟩⟩
  · intro m t
    cases t <;> simp [start, Ctl.holds, held, ParentPc.held, SetPc.held, FetcherPc.held, WaitPc.held,
      nothing]
  · intro t
    cases t <;> trivial
  · intro t c m q sleeps
    cases t <;> cases sleeps
  · intro t m q wakes
    cases t <;> cases wakes
  · intro t c m q sleeps
    cases t <;> cases sleeps
  · intro t p c m q here waiting
    cases t with
    | parent => exact absurd waiting parentCode_wait
    | fetcher =>
      obtain ⟨_, _, _, rfl, _⟩ := fetcherCode_wait waiting
      cases here

/-- The world outside the threads does not touch the event. -/
theorem Orderly.store {threshold : BitVec 64} {w : System r} (h : Orderly threshold w) {m : Mem r}
    (same : m.traceEvent = w.mem.traceEvent) : Orderly threshold (w.store m) := by
  refine ⟨guarded_store h.guarded m, wakeful_store h.wakeful ?_⟩
  intro t q
  cases t with
  | parent => rfl
  | fetcher => simp only [wanted, same]

theorem orderly_step {threshold : BitVec 64} {w w' : System r} {a : Action}
    (h : Orderly threshold w) (moved : step threshold w a = some w') : Orderly threshold w' := by
  have fired : ∀ {t : Thread} {o : Outcome}, fire (code r threshold) t o w = some w' →
      Orderly threshold w' := fun moved =>
    ⟨guarded_fire (discipline threshold) h.guarded moved,
      wakeful_fire (discipline threshold) (signalled_waits threshold) h.guarded h.wakeful moved⟩
  cases a with
  | parent o => exact fired moved
  | fetcher o => exact fired moved
  | write n =>
    simp only [step, Option.ite_none_right_eq_some, Option.some.injEq] at moved
    obtain ⟨_, rfl⟩ := moved
    exact h.store (write_trace n w.mem).event
  | exit status =>
    simp only [step, Option.ite_none_right_eq_some, Option.some.injEq] at moved
    obtain ⟨_, rfl⟩ := moved
    exact h.store rfl
  | takeStop =>
    obtain ⟨m', taken, rfl⟩ := Option.map_eq_some_iff.mp moved
    obtain ⟨sender, _, rfl⟩ := takeStop_cases taken
    exact h.store rfl
  | sigstop =>
    simp only [step, Option.ite_none_left_eq_some, Option.some.injEq] at moved
    obtain ⟨_, rfl⟩ := moved
    exact h.store (sigstop_trace .other w.mem).event
  | sigcont =>
    simp only [step, Option.ite_none_left_eq_some, Option.some.injEq] at moved
    obtain ⟨_, rfl⟩ := moved
    exact h.store (sigcont_trace w.mem).event
  | wake t =>
    exact ⟨guarded_spurious h.guarded moved, wakeful_spurious h.wakeful moved⟩

theorem orderly {threshold : BitVec 64} {ok : System r → Action → Bool} {etr : r.Writer}
    {initPos : BitVec 64} {w : System r}
    (h : Reach (step threshold) ok (start etr initPos) w) : Orderly threshold w :=
  h.invariant (orderly_start threshold etr initPos) fun _ _ _ inv _ moved => orderly_step inv moved

end Ultrasight.Handshake
