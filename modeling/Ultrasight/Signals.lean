import Ultrasight.Moves

/-!
# The events the parent signals

Only the parent changes `trace_state` and `trace_event`, so its program point
says what they are: the state leaves `init_state` once, each change of state
signals the event of its row of the table, a stop or final event has been
signalled only by `stop_trace` or `fini_trace`, and the final one stands.
-/

namespace Ultrasight.Handshake

open Threads TraceState TraceEvent

variable {r : Ring}

/-- Before the assignment of the state. -/
def SetPc.unwritten : SetPc → Bool
  | .enter | .read | .write _ => true
  | .signal _ _ | .leave => false

/-- From the assignment of the event on. -/
def SetPc.announced : SetPc → Bool
  | .signal _ p => p == .broadcast || p == .leave
  | .leave => true
  | .enter | .read | .write _ => false

/-- Before the first change of state. -/
def ParentPc.initial : ParentPc → Bool
  | .set site p => site == .initTrace && p.unwritten
  | _ => false

/-- From the assignment of the event of `stop_trace` or from the beginning of
the last change of state on. -/
def ParentPc.announced : ParentPc → Bool
  | .set site p => site == .finiTrace || site == .stopTrace && p.announced
  | .join | .exportTrace | .cleanUp | .done => true
  | .setCpuAffinity | .enable _ | .detach | .waitpid | .branch | .disable _ => false

/-- From the assignment of `fini_event` on. -/
def ParentPc.finished : ParentPc → Bool
  | .set site p => site == .finiTrace && p.announced
  | .join | .exportTrace | .cleanUp | .done => true
  | .setCpuAffinity | .enable _ | .detach | .waitpid | .branch | .disable _ => false

/-- The events that the changes of state of a function can signal. -/
def Site.announces : Site → TraceEvent → Prop
  | .initTrace, e => e = initEvent
  | .stopTrace, e => e = stopEvent
  | .finiTrace, e => e = finiEvent
  | .startTrace, e | .suspendCallback, e | .resumeCallback, e => e.last = false

structure Signals (v : View r) : Prop where
  state : v.mem.traceState = initState ↔ v.parent.initial = true
  old : ∀ site old, v.parent = .set site (.write old) → (old = initState ↔ site = .initTrace)
  signal : ∀ site e p, v.parent = .set site (.signal e p) → site.announces e
  last : v.mem.traceEvent.last = true → v.parent.announced = true
  fini : v.parent.finished = true → v.mem.traceEvent = finiEvent

theorem Site.announces_of_signalled {site : Site} {old : TraceState} {e : TraceEvent}
    (init : old = initState ↔ site = .initTrace) (h : signalled old site.state = some e) :
    site.announces e := by
  cases site with
  | initTrace =>
    rw [init.mpr rfl, signalled_init] at h
    exact (Option.some.inj h).symm
  | stopTrace =>
    have later : old ≠ initState := fun first => by cases init.mp first
    rw [Site.state, signalled_ready later] at h
    exact (Option.some.inj h).symm
  | finiTrace =>
    have later : old ≠ initState := fun first => by cases init.mp first
    rw [Site.state, signalled_fini later] at h
    exact (Option.some.inj h).symm
  | startTrace | suspendCallback | resumeCallback =>
    show e.last = false
    cases last : e.last with
    | false => rfl
    | true => rcases signalled_last h last with impossible | impossible <;> cases impossible

/-- A change of state by `fini_trace` is never silent. -/
theorem signalled_finiTrace {site : Site} {old : TraceState}
    (init : old = initState ↔ site = .initTrace) (h : signalled old site.state = none) :
    site ≠ .finiTrace ∧ site ≠ .stopTrace := by
  constructor
  · rintro rfl
    have later : old ≠ initState := fun first => by cases init.mp first
    rw [Site.state, signalled_fini later] at h
    cases h
  · rintro rfl
    have later : old ≠ initState := fun first => by cases init.mp first
    rw [Site.state, signalled_ready later] at h
    cases h

theorem FetcherMove.trace {threshold : BitVec 64} {o : Outcome} {m m' : Mem r} {p q : FetcherPc}
    (h : FetcherMove threshold o m p m' q) : SameTrace m m' := by
  cases h with
  | stop =>
    have same := sigstop_trace .fetcher (m.log (.kill sigstop .ok))
    exact ⟨same.state, same.event⟩
  | cont =>
    have same := sigcont_trace (m.log (.kill sigcont .ok))
    exact ⟨same.state, same.event⟩
  | workBody task => exact work_trace task o m
  | _ => exact ⟨rfl, rfl⟩

/-- A step of the parent that changes neither keeps the invariant, if its points
fit. -/
theorem Signals.goto {v : View r} (h : Signals v) {m : Mem r} (same : SameTrace v.mem m)
    {q : ParentPc} {f : FetcherPc} (initial : q.initial = v.parent.initial)
    (old : ∀ site old, q ≠ .set site (.write old))
    (signal : ∀ site e p, q = .set site (.signal e p) → site.announces e)
    (announced : v.parent.announced = true → q.announced = true)
    (finished : q.finished = true → v.parent.finished = true) : Signals ⟨m, q, f⟩ := by
  refine ⟨?_, fun site o at_ => absurd at_ (old site o), signal, ?_, ?_⟩
  · rw [same.state, initial]
    exact h.state
  · rw [same.event]
    exact fun last => announced (h.last last)
  · rw [same.event]
    exact fun fini => h.fini (finished fini)

theorem signals_parent {m m' : Mem r} {p q : ParentPc} {f : FetcherPc} {o : Outcome}
    (h : Signals ⟨m, p, f⟩) (moved : ParentMove o m p m' q) : Signals ⟨m', q, f⟩ := by
  cases moved with
  | setEnter site => exact h.goto ⟨rfl, rfl⟩ rfl (by simp) (by simp) id id
  | setRead site =>
    refine ⟨h.state, ?_, by simp, h.last, h.fini⟩
    intro site' old at_
    cases at_
    rw [h.state]
    simp [ParentPc.initial, SetPc.unwritten]
  | setSignals site old e signals =>
    refine ⟨?_, by simp, ?_, h.last, by simp [ParentPc.finished, SetPc.announced]⟩
    · cases site <;> simp [Site.state, ParentPc.initial, SetPc.unwritten]
    · intro site' e' p at_
      cases at_
      exact Site.announces_of_signalled (h.old site old rfl) signals
  | setSilent site old silent =>
    obtain ⟨notFini, notStop⟩ := signalled_finiTrace (h.old site old rfl) silent
    refine ⟨?_, by simp, by simp, ?_, by simp [ParentPc.finished, notFini]⟩
    · cases site <;> simp [Site.state, ParentPc.initial, SetPc.unwritten]
    · intro last
      have before := h.last last
      simp [ParentPc.announced, SetPc.announced, notFini] at before
  | signalEnter site e =>
    refine h.goto ⟨rfl, rfl⟩ rfl (by simp) ?_ id id
    intro site' e' p at_
    cases at_
    exact h.signal site e .enter rfl
  | assign site e =>
    have announces := h.signal site e .assign rfl
    refine ⟨h.state, by simp, ?_, ?_, ?_⟩
    · intro site' e' p at_
      cases at_
      exact announces
    · intro last
      cases site with
      | stopTrace | finiTrace => rfl
      | initTrace => cases announces; cases last
      | startTrace | suspendCallback | resumeCallback =>
        simp only [Site.announces] at announces
        rw [announces] at last
        cases last
    · intro fini
      cases site with
      | finiTrace => exact announces
      | initTrace | startTrace | suspendCallback | resumeCallback | stopTrace => cases fini
  | broadcast site e =>
    refine h.goto ⟨rfl, rfl⟩ rfl (by simp) ?_ id id
    intro site' e' p at_
    cases at_
    exact h.signal site e .broadcast rfl
  | signalLeave site e => exact h.goto ⟨rfl, rfl⟩ rfl (by simp) (by simp) id id
  | setLeave site =>
    refine h.goto ⟨rfl, rfl⟩ ?_ ?_ ?_ ?_ ?_
    · cases site <;> rfl
    · cases site <;> simp [Site.next]
    · cases site <;> simp [Site.next]
    · cases site <;> simp [Site.next, ParentPc.announced]
    · cases site <;> simp [Site.next, ParentPc.finished, SetPc.announced]
  | enableBody => exact h.goto (enableCsTrace_trace o m) rfl (by simp) (by simp) id id
  | disableBody => exact h.goto (disableCsTrace_trace true o m) rfl (by simp) (by simp) id id
  | detach => exact h.goto (detach_trace m) rfl (by simp) (by simp) id id
  | waitpid m' reported => exact h.goto (waitpid_trace reported) rfl (by simp) (by simp) id id
  | notDisabled => exact h.goto ⟨rfl, rfl⟩ rfl (by simp) (by simp) (fun _ => rfl) id
  | exportTrace =>
    have same : SameTrace m (m.log .exportTrace) := ⟨rfl, rfl⟩
    exact h.goto same rfl (by simp) (by simp) id id
  | cleanUp =>
    have same : SameTrace m { m.log .csShutdown with etr := r.empty } := ⟨rfl, rfl⟩
    exact h.goto same rfl (by simp) (by simp) id id
  | _ => exact h.goto ⟨rfl, rfl⟩ rfl (by simp) (by simp) id id

theorem signals_move {threshold : BitVec 64} {v v' : View r} {a : Action} (h : Signals v)
    (moved : Move threshold v a v') : Signals v' := by
  have outside : ∀ {m : Mem r} {f : FetcherPc}, SameTrace v.mem m → Signals ⟨m, v.parent, f⟩ := by
    intro m f same
    exact ⟨by rw [same.state]; exact h.state, h.old, h.signal, by rw [same.event]; exact h.last,
      by rw [same.event]; exact h.fini⟩
  cases moved with
  | still => exact h
  | parent o m' q moved => exact signals_parent h moved
  | fetcher o m' q moved => exact outside moved.trace
  | write n => exact outside (write_trace n v.mem)
  | exit | takeStop => exact outside ⟨rfl, rfl⟩
  | sigstop => exact outside (sigstop_trace .other v.mem)
  | sigcont => exact outside (sigcont_trace v.mem)

theorem signals_start (etr : r.Writer) (initPos : BitVec 64) :
    Signals (view (start etr initPos)) := by
  refine ⟨by simp [view, start, Ctl.point, ParentPc.initial, SetPc.unwritten], ?_, ?_, ?_, ?_⟩
  · intro site old at_
    cases at_
  · intro site e p at_
    cases at_
  · intro last
    cases last
  · intro fini
    cases fini

theorem signals {threshold : BitVec 64} {ok : System r → Action → Bool} {etr : r.Writer}
    {initPos : BitVec 64} {w : System r}
    (h : Reach (step threshold) ok (start etr initPos) w) : Signals (view w) :=
  view_invariant (signals_start etr initPos) (fun _ _ _ inv _ moved => signals_move inv moved) h

end Ultrasight.Handshake
