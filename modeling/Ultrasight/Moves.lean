import Ultrasight.Frames

/-!
# What a step of the handshake can be

`ParentMove` and `FetcherMove` say once, with one constructor for each program
point and outcome, what the two threads can do when mutexes are left aside.
Every invariant of the handshake is a case analysis on them.
-/

namespace Ultrasight.Handshake

open Threads TraceState TraceEvent

variable {r : Ring}

inductive ParentMove (o : Outcome) (m : Mem r) : ParentPc → Mem r → ParentPc → Prop
  | setEnter (site : Site) : ParentMove o m (.set site .enter) m (.set site .read)
  | setRead (site : Site) :
    ParentMove o m (.set site .read) m (.set site (.write m.traceState))
  | setSignals (site : Site) (old : TraceState) (e : TraceEvent)
      (signals : signalled old site.state = some e) :
    ParentMove o m (.set site (.write old))
      { m with traceState := site.state, transitions := (old, site.state) :: m.transitions }
      (.set site (.signal e .enter))
  | setSilent (site : Site) (old : TraceState) (silent : signalled old site.state = none) :
    ParentMove o m (.set site (.write old))
      { m with traceState := site.state, transitions := (old, site.state) :: m.transitions }
      (.set site .leave)
  | signalEnter (site : Site) (e : TraceEvent) :
    ParentMove o m (.set site (.signal e .enter)) m (.set site (.signal e .assign))
  | assign (site : Site) (e : TraceEvent) :
    ParentMove o m (.set site (.signal e .assign))
      { m with traceEvent := e, signals := e :: m.signals } (.set site (.signal e .broadcast))
  | broadcast (site : Site) (e : TraceEvent) :
    ParentMove o m (.set site (.signal e .broadcast)) m (.set site (.signal e .leave))
  | signalLeave (site : Site) (e : TraceEvent) :
    ParentMove o m (.set site (.signal e .leave)) m (.set site .leave)
  | setLeave (site : Site) : ParentMove o m (.set site .leave) m site.next
  | bound (ok : o = .ok) : ParentMove o m .setCpuAffinity m (.enable .enter)
  | unbound (fail : o = .fail) : ParentMove o m .setCpuAffinity m .detach
  | enableEnter : ParentMove o m (.enable .enter) m (.enable .body)
  | enableBody : ParentMove o m (.enable .body) (m.enableCsTrace o) (.enable (.leave o))
  | enabled : ParentMove o m (.enable (.leave .ok)) m (.set .startTrace .enter)
  | notEnabled : ParentMove o m (.enable (.leave .fail)) m .detach
  | detach : ParentMove o m .detach m.detach .waitpid
  | waitpid (m' : Mem r) (reported : m.waitpid = some m') : ParentMove o m .waitpid m' .branch
  | finish (final : dispatch true m.wstatus = .finish) :
    ParentMove o m .branch m (.disable .enter)
  | ignore (ignored : dispatch true m.wstatus = .ignore) : ParentMove o m .branch m .waitpid
  | suspend (stop : dispatch true m.wstatus = .suspend) :
    ParentMove o m .branch m (.set .suspendCallback .enter)
  | resume (cont : dispatch true m.wstatus = .resume) :
    ParentMove o m .branch m (.set .resumeCallback .enter)
  | disableEnter : ParentMove o m (.disable .enter) m (.disable .body)
  | disableBody : ParentMove o m (.disable .body) (m.disableCsTrace true o) (.disable (.leave o))
  | disabled : ParentMove o m (.disable (.leave .ok)) m (.set .stopTrace .enter)
  | notDisabled : ParentMove o m (.disable (.leave .fail)) m (.set .finiTrace .enter)
  | join (returned : m.fetcherReturned = true) : ParentMove o m .join m .exportTrace
  | exportTrace : ParentMove o m .exportTrace (m.log .exportTrace) .cleanUp
  | cleanUp : ParentMove o m .cleanUp { m.log .csShutdown with etr := r.empty } .done

theorem parent_move {p q : ParentPc} {o : Outcome} {m m' : Mem r}
    (h : (parentCode p).after o m = some (m', q)) : ParentMove o m p m' q := by
  cases p with
  | set site p =>
    cases p with
    | enter => cases h; exact .setEnter site
    | read => cases h; exact .setRead site
    | write old =>
      cases signals : signalled old site.state with
      | some e =>
        simp only [parentCode, setTraceState, Instr.map, Instr.after, signals, Option.map_some] at h
        cases h
        exact .setSignals site old e signals
      | none =>
        simp only [parentCode, setTraceState, Instr.map, Instr.after, signals, Option.map_some] at h
        cases h
        exact .setSilent site old signals
    | signal e p =>
      cases p with
      | enter => cases h; exact .signalEnter site e
      | assign => cases h; exact .assign site e
      | broadcast => cases h; exact .broadcast site e
      | leave => cases h; exact .signalLeave site e
    | leave => cases h; exact .setLeave site
  | setCpuAffinity =>
    cases o with
    | ok => cases h; exact .bound rfl
    | fail => cases h; exact .unbound rfl
  | enable p =>
    cases p with
    | enter => cases h; exact .enableEnter
    | body => cases h; exact .enableBody
    | leave o' =>
      cases o' with
      | ok => cases h; exact .enabled
      | fail => cases h; exact .notEnabled
  | detach => cases h; exact .detach
  | waitpid =>
    obtain ⟨m₁, reported, eq⟩ := Option.map_eq_some_iff.mp h
    cases eq
    exact .waitpid m' reported
  | branch =>
    simp only [parentCode, Instr.after, Option.some.injEq, Prod.mk.injEq] at h
    obtain ⟨rfl, rfl⟩ := h
    cases branch : dispatch true m.wstatus with
    | finish => exact .finish branch
    | ignore => exact .ignore branch
    | suspend => exact .suspend branch
    | resume => exact .resume branch
  | disable p =>
    cases p with
    | enter => cases h; exact .disableEnter
    | body => cases h; exact .disableBody
    | leave o' =>
      cases o' with
      | ok => cases h; exact .disabled
      | fail => cases h; exact .notDisabled
  | join =>
    simp only [parentCode, Instr.after, Option.ite_none_right_eq_some] at h
    cases h.2
    exact .join h.1
  | exportTrace => cases h; exact .exportTrace
  | cleanUp => cases h; exact .cleanUp
  | done => cases h

inductive FetcherMove (threshold : BitVec 64) (o : Outcome) (m : Mem r) :
    FetcherPc → Mem r → FetcherPc → Prop
  | waitEnter (reason : Wait) :
    FetcherMove threshold o m (.wait reason .enter) m (.wait reason .test)
  | found (reason : Wait) (want : reason.wanted m.traceEvent = true) :
    FetcherMove threshold o m (.wait reason .test) m (.wait reason (.leave m.traceEvent))
  | notFound (reason : Wait) (unwanted : reason.wanted m.traceEvent = false) :
    FetcherMove threshold o m (.wait reason .test) m (.wait reason .sleep)
  | sleep (reason : Wait) :
    FetcherMove threshold o m (.wait reason .sleep) m (.wait reason .test)
  | waitLeave (reason : Wait) (e : TraceEvent) :
    FetcherMove threshold o m (.wait reason (.leave e)) m (reason.next e)
  | started :
    FetcherMove threshold o m (.received startEvent) (m.log .polling) .initPos
  | finished : FetcherMove threshold o m (.received finiEvent) m .leave
  | neither (e : TraceEvent) (start : e ≠ startEvent) (fini : e ≠ finiEvent) :
    FetcherMove threshold o m (.received e) m (.wait .worker .enter)
  | initPos : FetcherMove threshold o m .initPos { m with initPos := m.etr.position } .alive
  | alive (ok : o = .ok) (there : m.tracee ≠ .reaped) : FetcherMove threshold o m .alive m .offset
  | gone (none : ¬ (o = .ok ∧ m.tracee ≠ .reaped)) :
    FetcherMove threshold o m .alive m (.wait .killed .enter)
  | exceeded (full : Polling.overThreshold threshold m.etr.position m.initPos = true) :
    FetcherMove threshold o m .offset m .stop
  | within (room : Polling.overThreshold threshold m.etr.position m.initPos = false) :
    FetcherMove threshold o m .offset m .nanosleep
  | stop (ok : o = .ok) (there : m.tracee ≠ .reaped) :
    FetcherMove threshold o m .stop
      { (m.log (.kill sigstop .ok)).sigstop .fetcher with ret := 0 } (.wait .suspended .enter)
  | notStopped (none : ¬ (o = .ok ∧ m.tracee ≠ .reaped)) :
    FetcherMove threshold o m .stop { m.log (.kill sigstop .fail) with ret := -1 }
      (.wait .killed .enter)
  | workEnter (task : Task) : FetcherMove threshold o m (.work task .enter) m (.work task .body)
  | workBody (task : Task) :
    FetcherMove threshold o m (.work task .body) (task.work o m) (.work task (.leave o))
  | workLeave (task : Task) (o' : Outcome) :
    FetcherMove threshold o m (.work task (.leave o')) m (task.next o')
  | contFails (fail : o = .fail) :
    FetcherMove threshold o m .cont { m.log (.kill sigcont .fail) with ret := -1 } (.exit .enter)
  | contGone (ok : o = .ok) (reaped : m.tracee = .reaped) :
    FetcherMove threshold o m .cont { m.log (.kill sigcont .fail) with ret := -1 }
      (.wait .killed .enter)
  | cont (ok : o = .ok) (there : m.tracee ≠ .reaped) :
    FetcherMove threshold o m .cont { (m.log (.kill sigcont .ok)).sigcont with ret := 0 }
      (.wait .resumed .enter)
  | resample : FetcherMove threshold o m .resample { m with initPos := m.etr.position } .nanosleep
  | nanosleep : FetcherMove threshold o m .nanosleep m .alive
  | exitEnter : FetcherMove threshold o m (.exit .enter) m (.exit .assign)
  | exitAssign :
    FetcherMove threshold o m (.exit .assign) { m with fetcherReady := true } (.exit .broadcast)
  | exitBroadcast : FetcherMove threshold o m (.exit .broadcast) m (.exit .leave)
  | exitLeave : FetcherMove threshold o m (.exit .leave) m (.wait .worker .enter)
  | leave : FetcherMove threshold o m .leave { m with fetcherReturned := true } .returned

theorem fetcher_move {threshold : BitVec 64} {p q : FetcherPc} {o : Outcome} {m m' : Mem r}
    (h : (fetcherCode threshold p).after o m = some (m', q)) :
    FetcherMove threshold o m p m' q := by
  cases p with
  | wait reason p =>
    cases p with
    | enter => cases h; exact .waitEnter reason
    | test =>
      cases want : reason.wanted m.traceEvent with
      | true =>
        simp only [fetcherCode, waitEvent, Instr.map, Instr.after, want, Option.map_some] at h
        cases h
        exact .found reason want
      | false =>
        simp only [fetcherCode, waitEvent, Instr.map, Instr.after, want, Option.map_some] at h
        cases h
        exact .notFound reason want
    | sleep => cases h; exact .sleep reason
    | leave e => cases h; exact .waitLeave reason e
  | received e =>
    cases e with
    | startEvent => cases h; exact .started
    | finiEvent => cases h; exact .finished
    | initEvent | readyEvent | stopEvent | suspendEvent | resumeEvent =>
      cases h
      exact .neither _ (by decide) (by decide)
  | initPos => cases h; exact .initPos
  | alive =>
    simp only [fetcherCode, Instr.after, Option.some.injEq, Prod.mk.injEq] at h
    obtain ⟨rfl, rfl⟩ := h
    split
    · rename_i there; exact .alive there.1 there.2
    · rename_i none; exact .gone none
  | offset =>
    simp only [fetcherCode, Instr.after, Option.some.injEq, Prod.mk.injEq] at h
    obtain ⟨rfl, rfl⟩ := h
    split
    · rename_i full; exact .exceeded full
    · rename_i room; exact .within (by simpa using room)
  | stop =>
    simp only [fetcherCode, Instr.after, Option.some.injEq] at h
    split at h
    · rename_i there; cases h; exact .stop there.1 there.2
    · rename_i none; cases h; exact .notStopped none
  | work task p =>
    cases p with
    | enter => cases h; exact .workEnter task
    | body => cases h; exact .workBody task
    | leave o' => cases h; exact .workLeave task o'
  | cont =>
    simp only [fetcherCode, Instr.after, Option.some.injEq] at h
    split at h
    · rename_i fail; cases h; exact .contFails fail
    · rename_i ok
      have ok : o = .ok := by cases o <;> simp_all
      split at h
      · rename_i reaped; cases h; exact .contGone ok reaped
      · rename_i there; cases h; exact .cont ok there
  | resample => cases h; exact .resample
  | nanosleep => cases h; exact .nanosleep
  | exit p =>
    cases p with
    | enter => cases h; exact .exitEnter
    | assign => cases h; exact .exitAssign
    | broadcast => cases h; exact .exitBroadcast
    | leave => cases h; exact .exitLeave
  | leave => cases h; exact .leave
  | returned => cases h

/-! ## Steps of the system -/

/-- A state with the mutexes left aside. -/
structure View (r : Ring) where
  mem : Mem r
  parent : ParentPc
  fetcher : FetcherPc

def view (w : System r) : View r := ⟨w.mem, (w.ctl .parent).point, (w.ctl .fetcher).point⟩

inductive Move (threshold : BitVec 64) (v : View r) : Action → View r → Prop
  | parent (o : Outcome) (m' : Mem r) (q : ParentPc) (moved : ParentMove o v.mem v.parent m' q) :
    Move threshold v (.parent o) { v with mem := m', parent := q }
  | fetcher (o : Outcome) (m' : Mem r) (q : FetcherPc)
      (moved : FetcherMove threshold o v.mem v.fetcher m' q) :
    Move threshold v (.fetcher o) { v with mem := m', fetcher := q }
  /-- A thread wakes up or takes a mutex again. -/
  | still (a : Action) : Move threshold v a v
  | write (n : Nat) (running : v.mem.tracee.runs = true) :
    Move threshold v (.write n) { v with mem := v.mem.write n }
  | exit (status : Nat) (running : v.mem.tracee.runs = true) (final : terminated status = true) :
    Move threshold v (.exit status) { v with mem := v.mem.exit status }
  | takeStop (sender : Sender) (running : v.mem.tracee = .running (some sender)) :
    Move threshold v .takeStop { v with mem := v.mem.stop sender }
  | sigstop : Move threshold v .sigstop { v with mem := v.mem.sigstop .other }
  | sigcont : Move threshold v .sigcont { v with mem := v.mem.sigcont }

theorem step_move {threshold : BitVec 64} {w w' : System r} {a : Action}
    (h : step threshold w a = some w') : Move threshold (view w) a (view w') := by
  cases a with
  | parent o =>
    have other : (w'.ctl .fetcher).point = (w.ctl .fetcher).point := fire_other h (by decide)
    rcases fire_after h with ⟨mem, point⟩ | moved
    · have same : view w' = view w := by simp only [view, mem, point, other]
      rw [same]
      exact .still _
    · have next : view w' = ⟨w'.mem, (w'.ctl .parent).point, (view w).fetcher⟩ := by
        simp only [view, other]
      rw [next]
      exact .parent o _ _ (parent_move moved)
  | fetcher o =>
    have other : (w'.ctl .parent).point = (w.ctl .parent).point := fire_other h (by decide)
    rcases fire_after h with ⟨mem, point⟩ | moved
    · have same : view w' = view w := by simp only [view, mem, point, other]
      rw [same]
      exact .still _
    · have next : view w' = ⟨w'.mem, (view w).parent, (w'.ctl .fetcher).point⟩ := by
        simp only [view, other]
      rw [next]
      exact .fetcher o _ _ (fetcher_move moved)
  | write n =>
    simp only [step, Option.ite_none_right_eq_some, Option.some.injEq] at h
    obtain ⟨running, rfl⟩ := h
    exact .write n running
  | exit status =>
    simp only [step, Option.ite_none_right_eq_some, Option.some.injEq] at h
    obtain ⟨⟨running, final⟩, rfl⟩ := h
    exact .exit status running final
  | takeStop =>
    obtain ⟨m', taken, rfl⟩ := Option.map_eq_some_iff.mp h
    obtain ⟨sender, running, rfl⟩ := takeStop_cases taken
    exact .takeStop sender running
  | sigstop =>
    simp only [step, Option.ite_none_left_eq_some, Option.some.injEq] at h
    obtain ⟨_, rfl⟩ := h
    exact .sigstop
  | sigcont =>
    simp only [step, Option.ite_none_left_eq_some, Option.some.injEq] at h
    obtain ⟨_, rfl⟩ := h
    exact .sigcont
  | wake t =>
    obtain ⟨mem, points⟩ := spurious_point h
    have same : view w' = view w := by simp only [view, mem, points]
    rw [same]
    exact .still _

/-- What the first view has and every admitted move keeps, every view of a run
has. -/
theorem view_invariant {threshold : BitVec 64} {ok : System r → Action → Bool}
    {w₀ w : System r} {Inv : View r → Prop} (first : Inv (view w₀))
    (keep : ∀ u a v', Inv (view u) → ok u a = true → Move threshold (view u) a v' → Inv v')
    (h : Reach (step threshold) ok w₀ w) : Inv (view w) := by
  apply @Reach.invariant _ _ _ _ _ (fun w => Inv (view w)) first _ _ h
  intro u a w' inv allowed moved
  exact keep u a _ inv allowed (step_move moved)

/-- The same with something already known of every view of a run. -/
theorem view_invariant_with {threshold : BitVec 64} {ok : System r → Action → Bool}
    {w₀ w : System r} {Known Inv : View r → Prop}
    (known : ∀ w, Reach (step threshold) ok w₀ w → Known (view w)) (first : Inv (view w₀))
    (keep : ∀ u a v', Known (view u) → Inv (view u) → ok u a = true →
      Move threshold (view u) a v' → Inv v')
    (h : Reach (step threshold) ok w₀ w) : Inv (view w) := by
  apply @Reach.invariant_with _ _ _ _ _ (fun w => Known (view w)) (fun w => Inv (view w)) known
    first _ _ h
  intro u a w' before inv allowed moved
  exact keep u a _ before inv allowed (step_move moved)

end Ultrasight.Handshake
