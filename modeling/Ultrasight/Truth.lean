import Ultrasight.Runs
import Ultrasight.Typestate

/-!
# What `trace_state` says about the session

`parent()` ignores the results of `init_trace` and `start_trace` and passes
every stop of the tracee on, so the callbacks can change the state of a trace
that was never started, and `set_trace_state` makes every change asked for.

* `parentStep` makes the calls in the order in which `parent()` makes them;
* `trace_state_truthful` says that the state tells the truth in runs whose
  callbacks find a session.
-/

namespace Ultrasight.Session

open Fn
open Parent (Pid)

/-- The calls that `parent()` makes in its loop. -/
def Api.inLoop : Api → Bool
  | .traceSuspendCallback | .traceResumeCallback => true
  | .stopTrace disableAll => disableAll
  | .initTrace _ | .startTrace .. | .fetchTrace _ | .finiTrace _ => false

/-- The order of the calls of `parent()`: a first stop with `SIGTRAP` is
answered with `init_trace` and `start_trace`, whatever the first one returns,
and then or without them the loop begins. -/
def parentAdmits : List ApiEvent → Api → Bool
  | [], .initTrace _ => true
  | [], c => c.inLoop
  | .returned (.initTrace _) _ :: _, .startTrace _ use _ => use
  | .returned (.startTrace ..) _ :: _, c | .returned .traceSuspendCallback _ :: _, c
  | .returned .traceResumeCallback _ :: _, c => c.inLoop
  | .returned (.stopTrace _) _ :: _, .finiTrace _ => true
  | _, _ => false

variable {e : Csal} {o : Settings} {c : Api} {h h' : History} {old : TraceState}

/-- One call of `parent()`; there is no next state when the process dies in it. -/
def parentStep (e : Csal) (o : Settings) (h : History) (c : Api) : Option History :=
  if parentAdmits h.events c then
    match enter e o c h with
    | .ok _ h' => some h'
    | .error _ _ => none
  else none

/-! ## The order is that of `parent()` -/

/-- Each call is admitted after the ones before it, whatever they return. -/
def Follows : List ApiEvent → List Api → Prop
  | _, [] => True
  | events, c :: rest =>
    parentAdmits events c = true ∧ ∀ rc, Follows (.returned c rc :: .called c :: events) rest

/-- The loop goes on. -/
def Looping (events : List ApiEvent) : Prop := ∀ c, c.inLoop = true → parentAdmits events c = true

theorem looping_nil : Looping [] := by
  intro c loop
  cases c <;> first | exact loop | cases loop

theorem looping_start {pid : Pid} {use : Bool} {a : StartAnswers} {rc : Int}
    {events : List ApiEvent} : Looping (.returned (.startTrace pid use a) rc :: events) :=
  fun _ loop => loop

theorem looping_callback {rc : Int} {events : List ApiEvent}
    (callback : c = .traceSuspendCallback ∨ c = .traceResumeCallback) :
    Looping (.returned c rc :: events) := by
  rcases callback with rfl | rfl <;> exact fun _ loop => loop

theorem finishing_follows (a : Answers) (options : Parent.Options) {events : List ApiEvent}
    (looping : Looping events) :
    Follows events ((Parent.finishing options).filterMap (toApi a)) := by
  rw [toApi_finishing]
  exact ⟨looping _ rfl, fun _ => ⟨rfl, fun _ => trivial⟩⟩

theorem loop_follows (a : Answers) (options : Parent.Options) {joins : Bool} {fuel wstatus : Nat}
    {statuses : List Nat} {calls : List Parent.Call} {e : Parent.Exit} {events : List ApiEvent}
    (run : Parent.loop options joins fuel wstatus statuses = some (calls, e))
    (looping : Looping events) : Follows events (calls.filterMap (toApi a)) := by
  induction fuel generalizing wstatus statuses calls events with
  | zero => cases run
  | succ fuel ih =>
    simp only [Parent.loop] at run
    split at run
    · cases run
      exact finishing_follows a options looping
    · obtain ⟨⟨rest, last⟩, tail, eq⟩ := Option.map_eq_some_iff.mp run
      cases eq
      rw [List.filterMap_append, Parent.callbacks]
      split
      · exact ⟨looping _ rfl, fun _ => ih tail (looping_callback (.inl rfl))⟩
      · exact ⟨looping _ rfl, fun _ => ih tail (looping_callback (.inr rfl))⟩
      · exact ih tail looping
      · exact ih tail looping

/-- Every list of calls that `parent()` makes is in this order. -/
theorem parent_follows (a : Answers) (options : Parent.Options) {joins : Bool} (self pid : Pid)
    {fuel wstatus : Nat} {statuses : List Nat} {calls : List Parent.Call} {e : Parent.Exit}
    (run : Parent.parent options joins self pid fuel wstatus statuses = some (calls, e)) :
    Follows [] (calls.filterMap (toApi a)) := by
  simp only [Parent.parent] at run
  obtain ⟨⟨rest, last⟩, tail, eq⟩ := Option.map_eq_some_iff.mp run
  cases eq
  rw [List.filterMap_append]
  split
  · rw [toApi_starting]
    exact ⟨rfl, fun _ => ⟨rfl, fun _ => loop_follows a options tail looping_start⟩⟩
  · exact loop_follows a options tail looping_nil

/-! ## What the calls do to the state -/

/-- The state after a call that returned `rc`, from the state before it. -/
def Api.turns (c : Api) (rc : Int) (old new : TraceState) : Prop :=
  match c with
  | .initTrace _ => new = old ∨ new = .readyState
  | .startTrace .. => 0 ≤ rc ∧ new = .runningState ∨ rc < 0 ∧ new = old
  | .fetchTrace _ => new = old
  | .traceSuspendCallback => new = .suspendedState
  | .traceResumeCallback => new = .runningState
  | .stopTrace _ => 0 ≤ rc ∧ new = .readyState ∨ rc < 0 ∧ new = old
  | .finiTrace _ => new = old ∨ new = .finiState

/-- Work on the devices does not touch the state. -/
theorem onRig_state {α : Type} {P : TraceState → Prop} (x : Fn Rig α) :
    Keeps (fun g => P g.traceState) (onRig x) := by
  intro g inv
  apply (ensures_zoom x).mpr
  exact ensures_const inv x g.rig

theorem state_dataFree {P : TraceState → Prop} : DataFree fun g => P g.traceState where
  same := fun g g' same inv => by
    have state : g'.traceState = g.traceState := congrArg Core.traceState same
    exact state.symm ▸ inv
  data := fun _ _ _ _ inv => inv

theorem setTraceState_state {P : TraceState → Prop} {new : TraceState} (fine : P new) :
    Keeps (fun g => P g.traceState) (setTraceState new) := keeps_modify fun _ _ => fine

theorem enableCsTrace_state {P : TraceState → Prop} (pid : Pid) :
    Keeps (fun g => P g.traceState) (enableCsTrace e o pid) :=
  enableCsTrace_keeps onRig_state (fun _ inv => inv) pid

theorem disableCsTrace_state {P : TraceState → Prop} (all : Bool) :
    Keeps (fun g => P g.traceState) (disableCsTrace e all) :=
  disableCsTrace_keeps onRig_state all

theorem fetchTrace_state {P : TraceState → Prop} (f : TraceBuffer.Fetch) :
    Keeps (fun g => P g.traceState) (fetchTrace e f) :=
  state_dataFree.fetchTrace (fun _ _ => onRig_state _) f

theorem initTrace_state {P : TraceState → Prop} (ready : P .readyState) (a : InitAnswers) :
    Keeps (fun g => P g.traceState) (initTrace e o a) := by
  apply state_dataFree.initTrace
  · exact setupNamedBoard_keeps (onRig_state _) fun _ inv => inv
  · exact setTraceState_state ready
  · exact onRig_state _

theorem finiTrace_state {P : TraceState → Prop} (fini : P .finiState) (a : FiniAnswers) :
    Keeps (fun g => P g.traceState) (finiTrace e o a) := by
  apply state_dataFree.finiTrace fun _ _ => onRig_state _
  · exact setTraceState_state fini
  · exact onRig_state _

theorem enableCsTrace_through (pid : Pid) : Through (enableCsTrace e o pid) := by
  apply (through_enclose _).bind
  intro rc
  apply (Through.when _ (Through.zoom fun r => ensures_call.mpr trivial)).bind
  exact fun _ => through_pure _

theorem disableLoop_through (all : Bool) (trials : Nat) (ret : Int) :
    Through (disableLoop e all trials ret) := by
  have attempt : Through (disableAttempt e all) := by
    apply through_get.bind
    intro g
    cases all
    · exact (through_enclose _).zoom
    · exact (through_enclose _).zoom
  induction trials generalizing ret with
  | zero => exact through_pure _
  | succ trials ih =>
    apply attempt.bind
    intro ret
    split
    · exact through_pure _
    · apply (through_modify _).zoom.bind
      exact fun _ => ih ret

theorem startTrace_turns (pid : Pid) (use : Bool) (a : StartAnswers) (g : Globals) :
    Ensures (startTrace e o pid use a)
      (fun rc g' => (Api.startTrace pid use a).turns rc g.traceState g'.traceState)
      (fun _ _ => True) g := by
  have enabled (g₁ : Globals) (same : g₁.traceState = g.traceState) (pid' : Pid) :=
    (enableCsTrace_through (e := e) (o := o) pid').keeps
      (enableCsTrace_state (P := (· = g.traceState)) pid') same
  have rest (g₁ : Globals) (same : g₁.traceState = g.traceState) :
      Ensures (enableCsTrace e o (if use then pid else 0))
        (fun rc g' =>
          (0 ≤ rc → (Api.startTrace pid use a).turns rc g.traceState .runningState) ∧
          (¬ 0 ≤ rc → (Api.startTrace pid use a).turns rc g.traceState g'.traceState))
        (fun x g' => ∀ rc, x = .ret rc →
          (Api.startTrace pid use a).turns rc g.traceState g'.traceState) g₁ := by
    apply (enabled g₁ same _).mono
    · intro rc g' kept
      constructor
      · exact fun done => .inl ⟨done, rfl⟩
      · exact fun failed => .inr ⟨Int.not_le.mp failed, kept⟩
    · rintro x g' ⟨rfl, _⟩ rc same
      cases same
  apply ensures_returned
  simp only [ensures_bind, ensures_require, decide_eq_true_eq, decide_eq_false_iff_not, Exit.ret.injEq,
    forall_eq', allocTraceBuf, allocKsightBuf, fetcherSize, ensures_modify, ensures_when, setTraceState, ensures_pure]
  constructor
  · intro bound
    constructor
    · exact fun _ => rest _ rfl
    · exact fun _ => rest _ rfl
  · exact fun unbound => .inr ⟨Int.not_le.mp unbound, rfl⟩

theorem stopTrace_turns (all : Bool) (g : Globals) :
    Ensures (stopTrace e all)
      (fun rc g' => (Api.stopTrace all).turns rc g.traceState g'.traceState) (fun _ _ => True) g := by
  apply (ensures_enclose _).mpr
  simp only [ensures_bind, ensures_require, decide_eq_true_eq, decide_eq_false_iff_not,
    setTraceState, ensures_modify, ensures_pure]
  have disabled := (disableLoop_through (e := e) all traceDisableTrial (-1)).keeps
    (disableCsTrace_state (P := (· = g.traceState)) all) rfl
  apply disabled.mono
  · intro rc g' same
    constructor
    · exact fun done => .inl ⟨done, rfl⟩
    · exact fun failed => .inr ⟨Int.not_le.mp failed, same⟩
  · rintro x g' ⟨rfl, _⟩
    trivial

/-- What each call does to the state. -/
theorem body_turns (c : Api) (g : Globals) :
    Ensures (c.body e o) (fun rc g' => c.turns rc g.traceState g'.traceState) (fun _ _ => True) g := by
  cases c with
  | initTrace a =>
    apply (initTrace_state (P := fun s => s = g.traceState ∨ s = .readyState) (.inr rfl) a g
      (.inl rfl)).mono
    · exact fun _ _ turned => turned
    · exact fun _ _ _ => trivial
  | startTrace pid use a => exact startTrace_turns pid use a g
  | fetchTrace f =>
    apply (fetchTrace_state (P := (· = g.traceState)) f g rfl).mono
    · exact fun _ _ same => same
    · exact fun _ _ _ => trivial
  | traceSuspendCallback | traceResumeCallback =>
    simp only [Api.body, setTraceState, ensures_bind, ensures_modify, ensures_pure, Api.turns]
  | stopTrace all => exact stopTrace_turns all g
  | finiTrace a =>
    apply (finiTrace_state (P := fun s => s = g.traceState ∨ s = .finiState) (.inr rfl) a g
      (.inl rfl)).mono
    · exact fun _ _ turned => turned
    · exact fun _ _ _ => trivial

/-! ## The truth -/

/-- Some `start_trace` has returned a non-negative value, and no `stop_trace`
has since. -/
def started : List ApiEvent → Bool
  | [] => false
  | .returned (.startTrace ..) rc :: older => decide (0 ≤ rc) || started older
  | .returned (.stopTrace _) rc :: older => !decide (0 ≤ rc) && started older
  | _ :: older => started older

def Truthful (h : History) : Prop := h.globals.traceState.active = true → started h.events = true

/-- A call changed the state, if at all, along a row of the table. -/
def InTable (old new : TraceState) : Prop := new = old ∨ (documented old new).isSome = true

/-- The callbacks are called while the state is running or suspended. -/
def inSession (h : History) : Api → Bool
  | .traceSuspendCallback | .traceResumeCallback => h.globals.traceState.active
  | _ => true

/-- The state and the record of the calls agree. -/
structure Agrees (h : History) : Prop where
  fresh : h.events = [] → h.globals.traceState = .initState
  prepared : ∀ a rc older, h.events = .returned (.initTrace a) rc :: older →
    h.globals.traceState = .initState ∨ h.globals.traceState = .readyState
  truthful : Truthful h

theorem parentStep_turns (moved : parentStep e o h c = some h') :
    parentAdmits h.events c = true ∧ ∃ rc, h'.events = .returned c rc :: .called c :: h.events ∧
      c.turns rc h.globals.traceState h'.globals.traceState := by
  unfold parentStep at moved
  split at moved
  · rename_i admitted
    refine ⟨admitted, ?_⟩
    have entered : Ensures (enter e o c) (fun _ h' => ∃ rc,
        h'.events = .returned c rc :: .called c :: h.events ∧
          c.turns rc h.globals.traceState h'.globals.traceState) (fun _ _ => True) h := by
      apply ensures_enter.mpr
      apply (body_turns c h.globals).mono
      · exact fun rc g turned => ⟨rc, rfl, turned⟩
      · exact fun _ _ _ => trivial
    cases ran : enter e o c h with
    | ok _ t =>
      rw [ran] at moved
      cases moved
      exact (ensures_of_ok ran).mp entered
    | error _ t => rw [ran] at moved; cases moved
  · cases moved

theorem documented_ready (old : TraceState) : (documented old .readyState).isSome = true := by
  cases old <;> rfl

theorem documented_fini (old : TraceState) : (documented old .finiState).isSome = true := by
  cases old <;> rfl

/-- Within a session every callback changes the state along a row, or not at
all. -/
theorem table_callback {old new : TraceState} (before : old.active = true)
    (after : new.active = true) : InTable old new := by
  cases old <;> cases before <;> cases new <;> cases after
  · exact .inl rfl
  · exact .inr rfl
  · exact .inr rfl
  · exact .inl rfl

/-- A call that is neither the first one nor `init_trace`. -/
theorem agrees_later {rc : Int} (events : h'.events = .returned c rc :: .called c :: h.events)
    (later : ∀ a, c ≠ .initTrace a) (truthful : Truthful h') : Agrees h' := by
  constructor
  · intro none
    rw [events] at none
    cases none
  · intro a rc' older first
    rw [events] at first
    cases first
    exact absurd rfl (later a)
  · exact truthful

/-- A call that leaves the state and the session alone. -/
theorem truthful_same (agrees : Agrees h) (same : h'.globals.traceState = h.globals.traceState)
    (record : started h.events = true → started h'.events = true) : Truthful h' := by
  intro active
  rw [same] at active
  exact record (agrees.truthful active)

theorem admits_init {a : InitAnswers} {events : List ApiEvent}
    (admitted : parentAdmits events (.initTrace a) = true) : events = [] := by
  cases events with
  | nil => rfl
  | cons v older =>
    cases v with
    | called => cases admitted
    | returned c rc => cases c <;> cases admitted

theorem admits_start {pid : Pid} {use : Bool} {a : StartAnswers} {events : List ApiEvent}
    (admitted : parentAdmits events (.startTrace pid use a) = true) :
    ∃ a rc older, events = .returned (.initTrace a) rc :: older := by
  cases events with
  | nil => cases admitted
  | cons v older =>
    cases v with
    | called => cases admitted
    | returned c rc =>
      cases c with
      | initTrace a => exact ⟨a, rc, older, rfl⟩
      | startTrace | fetchTrace | traceSuspendCallback | traceResumeCallback | stopTrace
      | finiTrace => cases admitted

theorem admits_fetch {f : TraceBuffer.Fetch} {events : List ApiEvent} :
    parentAdmits events (.fetchTrace f) ≠ true := by
  cases events with
  | nil => exact Bool.false_ne_true
  | cons v older =>
    cases v with
    | called => exact Bool.false_ne_true
    | returned c rc => cases c <;> exact Bool.false_ne_true

theorem agrees_step (agrees : Agrees h) (allowed : inSession h c = true)
    (moved : parentStep e o h c = some h') :
    Agrees h' ∧ InTable h.globals.traceState h'.globals.traceState := by
  obtain ⟨admitted, rc, events, turned⟩ := parentStep_turns moved
  cases c with
  | initTrace a =>
    have before := agrees.fresh (admits_init admitted)
    refine ⟨⟨?_, ?_, ?_⟩, ?_⟩
    · intro none
      rw [events] at none
      cases none
    · intro _ _ _ _
      rcases turned with same | ready
      · exact .inl (same.trans before)
      · exact .inr ready
    · intro active
      rcases turned with same | ready
      · rw [same, before] at active
        cases active
      · rw [ready] at active
        cases active
    · rw [before]
      exact .inr rfl
  | startTrace pid use a =>
    obtain ⟨a', rc', older, first⟩ := admits_start admitted
    have prepared := agrees.prepared a' rc' older first
    rcases turned with ⟨done, running⟩ | ⟨failed, same⟩
    · refine ⟨agrees_later events (fun _ => nofun) ?_, ?_⟩
      · intro _
        simp [events, started, done]
      · rw [running]
        rcases prepared with before | before
        · rw [before]
          exact .inr rfl
        · rw [before]
          exact .inr rfl
    · refine ⟨agrees_later events (fun _ => nofun) ?_, .inl same⟩
      apply truthful_same agrees same
      intro before
      simp [events, started, before]
  | fetchTrace f => exact absurd admitted admits_fetch
  | traceSuspendCallback | traceResumeCallback =>
    have session := agrees.truthful allowed
    refine ⟨agrees_later events (fun _ => nofun) ?_, ?_⟩
    · intro _
      rw [events]
      exact session
    · exact table_callback allowed (by rw [show _ = _ from turned]; rfl)
  | stopTrace all =>
    rcases turned with ⟨done, ready⟩ | ⟨failed, same⟩
    · refine ⟨agrees_later events (fun _ => nofun) ?_, ?_⟩
      · intro active
        rw [ready] at active
        cases active
      · rw [ready]
        exact .inr (documented_ready _)
    · refine ⟨agrees_later events (fun _ => nofun) ?_, .inl same⟩
      apply truthful_same agrees same
      intro before
      simp [events, started, before, Int.not_le.mpr failed]
  | finiTrace a =>
    rcases turned with same | fini
    · refine ⟨agrees_later events (fun _ => nofun) ?_, .inl same⟩
      apply truthful_same agrees same
      intro before
      rw [events]
      exact before
    · refine ⟨agrees_later events (fun _ => nofun) ?_, ?_⟩
      · intro active
        rw [fini] at active
        cases active
      · rw [fini]
        exact .inr (documented_fini _)

theorem agrees (rig : Rig) (traceCpu : Int)
    (reached : Reach (parentStep e o) inSession (.initial rig traceCpu) h) : Agrees h := by
  apply reached.invariant
  · constructor
    · exact fun _ => rfl
    · exact fun _ _ _ first => by cases first
    · exact fun active => by cases active
  · intro h c h' agrees allowed moved
    exact (agrees_step agrees allowed moved).1

/-- **`trace_state` tells the truth** in every run of the calls of `parent()`,
whatever succeeds or fails in them, whose callbacks find the state running or
suspended: it is so only if a `start_trace` has succeeded and no `stop_trace`
since, and it changes along the rows of the table only. -/
theorem trace_state_truthful (rig : Rig) (traceCpu : Int)
    (reached : Reach (parentStep e o) inSession (.initial rig traceCpu) h) :
    Truthful h ∧ ∀ c h', inSession h c = true → parentStep e o h c = some h' →
      InTable h.globals.traceState h'.globals.traceState := by
  have agree := agrees rig traceCpu reached
  exact ⟨agree.truthful, fun c h' allowed moved => (agrees_step agree allowed moved).2⟩

def fetching : Settings := ⟨⟨true, false⟩, false⟩

/-- A session in which the tracee is stopped. -/
theorem suspended_session : ∃ h,
    Reach (parentStep zcu104 fetching) inSession (.initial .idle (-1)) h ∧
    h.globals.traceState = .suspendedState ∧ started h.events = true := by
  have run : (exec (parentStep zcu104 fetching) inSession (.initial .idle (-1))
      [.initTrace healthy.init, .startTrace 42 true healthy.start, .traceSuspendCallback]).any
      (fun h => h.globals.traceState == .suspendedState) = true := by
    decide +kernel
  obtain ⟨h, reached, test⟩ := reach_of_exec run
  have suspended : h.globals.traceState = .suspendedState := by simpa using test
  have active : h.globals.traceState.active = true := by rw [suspended]; rfl
  exact ⟨h, reached, suspended, (trace_state_truthful .idle (-1) reached).1 active⟩

/-- `start_trace` fails because the CPU cannot be bound, `parent()` lets the
tracee go nevertheless, and the tracee is stopped: the state goes from ready to
suspended, which is no row of the table, and no trace was started. -/
theorem suspended_without_trace : ∃ h h',
    Reach (parentStep zcu104 fetching) (fun _ _ => true) (.initial .idle (-1)) h ∧
    parentStep zcu104 fetching h .traceSuspendCallback = some h' ∧
    ¬ InTable h.globals.traceState h'.globals.traceState ∧ ¬ Truthful h' := by
  have run : (exec (parentStep zcu104 fetching) (fun _ _ => true) (.initial .idle (-1))
      [.initTrace healthy.init, .startTrace 42 true { healthy.start with affinity := -1 }]).any
      (fun h => (parentStep zcu104 fetching h .traceSuspendCallback).any fun h' =>
        h.globals.traceState == .readyState && h'.globals.traceState == .suspendedState &&
          !started h'.events) = true := by
    decide +kernel
  obtain ⟨h, reached, test⟩ := reach_of_exec run
  obtain ⟨h', moved, test⟩ := (Option.any_eq_true _ _).mp test
  simp only [Bool.and_eq_true, beq_iff_eq, Bool.not_eq_true'] at test
  obtain ⟨⟨ready, suspended⟩, never⟩ := test
  refine ⟨h, h', reached, moved, ?_, ?_⟩
  · rw [ready, suspended]
    rintro (same | row)
    · cases same
    · cases row
  · intro truth
    rw [truth (by rw [suspended]; rfl)] at never
    cases never

end Ultrasight.Session
