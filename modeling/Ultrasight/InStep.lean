import Ultrasight.Discipline

/-!
# State and event in step

`trace_state` and `trace_event` are two variables with a mutex each. Since
`set_trace_state` takes the second mutex inside the first one, the events follow
the changes of state one by one, whatever the threads do: between a change and
its event only the thread that made the change can be inside.
-/

namespace Ultrasight.Crew

open Threads TraceState TraceEvent Handshake

variable {r : Ring}

/-- Successive changes, the newest first: each begins where the one before ended. -/
def Linked (first last : TraceState) : List (TraceState × TraceState) → Prop
  | [] => last = first
  | (old, new) :: older => last = new ∧ Linked first old older

/-- The events of the table for the changes of state made so far. -/
def owed (s : Shared r) : List TraceEvent := s.transitions.filterMap fun c => documented c.1 c.2

theorem owed_change (s : Shared r) (old new : TraceState) :
    owed { s with traceState := new, transitions := (old, new) :: s.transitions } =
      (documented old new).toList ++ owed s := by
  simp only [owed, List.filterMap_cons]
  cases documented old new <;> rfl

/-- The event that is still to be assigned after the change of state. -/
def CrewPc.pending : CrewPc → Option TraceEvent
  | .set _ (.signal e .enter) | .set _ (.signal e .assign) => some e
  | _ => none

/-- Past the lock of `trace_state_mutex` and not past its unlock. -/
def CrewPc.inside : CrewPc → Bool
  | .set _ .enter => false
  | .set _ _ => true
  | _ => false

variable {T : Type}

/-- What holds of the memory and of the points of all threads. -/
structure InStep (first s : Shared r) (pcs : T → CrewPc) : Prop where
  linked : Linked first.traceState s.traceState s.transitions
  read : ∀ t new old, pcs t = .set new (.write old) → old = s.traceState
  owed : ∀ t e, (pcs t).pending = some e → owed s = e :: s.signals
  settled : (∀ t, (pcs t).pending = none) → s.signals = Crew.owed s
  latest : s.traceEvent = s.signals.headD first.traceEvent

theorem pending_inside {p : CrewPc} {e : TraceEvent} (h : p.pending = some e) :
    p.inside = true := by
  cases p with
  | set new p =>
    cases p with
    | signal => rfl
    | enter | read | write | leave => cases h
  | idle | wait | exit | enable | disable | fetch => cases h

theorem inside_held {p : CrewPc} (h : p.inside = true) : p.held .traceStateMutex = true := by
  cases p with
  | set new p =>
    cases p with
    | enter => cases h
    | read | write | leave => rfl
    | signal e p => cases p <;> rfl
  | idle | wait | exit | enable | disable | fetch => cases h

/-! ## A step -/

/-- The variables of `set_trace_state` and what is on record of them. -/
structure SameChanges (s s' : Shared r) : Prop where
  state : s'.traceState = s.traceState
  event : s'.traceEvent = s.traceEvent
  transitions : s'.transitions = s.transitions
  signals : s'.signals = s.signals

variable {first s s' : Shared r} {pcs : T → CrewPc} {t : T} {q : CrewPc}

/-- Nobody but `t` is inside. -/
def Alone (pcs : T → CrewPc) (t : T) : Prop := ∀ u, u ≠ t → (pcs u).inside = false

theorem Alone.pending (h : Alone pcs t) {u : T} (other : u ≠ t) :
    (pcs u).pending = none := by
  cases pends : (pcs u).pending with
  | none => rfl
  | some e =>
    have inside := pending_inside pends
    rw [h u other] at inside
    cases inside

variable [DecidableEq T]

/-- A step that neither writes the state or the event nor comes to a new write. -/
theorem InStep.quiet (h : InStep first s pcs) (same : SameChanges s s')
    (pending : q.pending = (pcs t).pending)
    (read : ∀ new old, q = .set new (.write old) → old = s.traceState) :
    InStep first s' (Function.update pcs t q) := by
  have all : ∀ u, (Function.update pcs t q u).pending = (pcs u).pending := by
    intro u
    by_cases hu : u = t
    · subst hu
      rw [Function.update_self, pending]
    · rw [Function.update_of_ne hu]
  have same_owed : Crew.owed s' = Crew.owed s := by rw [Crew.owed, same.transitions, Crew.owed]
  constructor
  · rw [same.state, same.transitions]
    exact h.linked
  · intro u new old at_
    rw [same.state]
    by_cases hu : u = t
    · subst hu
      rw [Function.update_self] at at_
      exact read new old at_
    · rw [Function.update_of_ne hu] at at_
      exact h.read u new old at_
  · intro u e pends
    rw [all] at pends
    rw [same_owed, same.signals]
    exact h.owed u e pends
  · intro none
    rw [same_owed, same.signals]
    apply h.settled
    intro u
    rw [← all]
    exact none u
  · rw [same.event, same.signals]
    exact h.latest

theorem Alone.pending_update (h : Alone pcs t) (silent : q.pending = none) (u : T) :
    (Function.update pcs t q u).pending = none := by
  by_cases hu : u = t
  · subst hu
    rw [Function.update_self, silent]
  · rw [Function.update_of_ne hu]
    exact h.pending hu

theorem Alone.read (h : Alone pcs t) {u : T} {new old : TraceState}
    (at_ : Function.update pcs t q u = .set new (.write old))
    (other : q ≠ .set new (.write old)) : False := by
  by_cases hu : u = t
  · subst hu
    rw [Function.update_self] at at_
    exact other at_
  · rw [Function.update_of_ne hu] at at_
    have outside := h u hu
    rw [at_] at outside
    cases outside

/-- The write of a state: the events so far are settled, since the writer is alone
and has not signalled yet. -/
theorem InStep.write (h : InStep first s pcs) (alone : Alone pcs t) {old new : TraceState}
    (at_ : pcs t = .set new (.write old))
    (signals : q.pending = signalled old new) (quiet : ∀ new' old', q ≠ .set new' (.write old')) :
    InStep first { s with traceState := new, transitions := (old, new) :: s.transitions }
      (Function.update pcs t q) := by
  obtain rfl := h.read t new old at_
  have settled : s.signals = Crew.owed s := by
    apply h.settled
    intro u
    by_cases hu : u = t
    · subst hu
      rw [at_]
      rfl
    · exact alone.pending hu
  constructor
  · exact ⟨rfl, h.linked⟩
  · intro u new' old' at_'
    exact (alone.read at_' (quiet new' old')).elim
  · intro u e pends
    by_cases hu : u = t
    · subst hu
      rw [Function.update_self, signals, signalled_documented] at pends
      rw [owed_change, pends, ← settled]
      rfl
    · rw [Function.update_of_ne hu, alone.pending hu] at pends
      cases pends
  · intro none
    have silent := none t
    rw [Function.update_self, signals, signalled_documented] at silent
    rw [owed_change, silent, ← settled]
    rfl
  · exact h.latest

/-- The write of the event that is pending. -/
theorem InStep.assign (h : InStep first s pcs) (alone : Alone pcs t) {e : TraceEvent}
    (pends : (pcs t).pending = some e) (silent : q.pending = none)
    (quiet : ∀ new' old', q ≠ .set new' (.write old')) :
    InStep first { s with traceEvent := e, signals := e :: s.signals }
      (Function.update pcs t q) := by
  constructor
  · exact h.linked
  · intro u new' old' at_'
    exact (alone.read at_' (quiet new' old')).elim
  · intro u e' pends'
    rw [alone.pending_update silent u] at pends'
    cases pends'
  · exact fun _ => (h.owed t e pends).symm
  · rfl

theorem inStep_move (h : InStep first s pcs) (alone : (pcs t).inside = true → Alone pcs t)
    (moved : CrewMove s (pcs t) s' q) : InStep first s' (Function.update pcs t q) := by
  have same : SameChanges s s := ⟨rfl, rfl, rfl, rfl⟩
  generalize at_ : pcs t = p at moved
  cases moved with
  | set new p m' q moved =>
    cases moved with
    | enter => exact h.quiet same (by rw [at_]; rfl) nofun
    | read =>
      apply h.quiet same (by rw [at_]; rfl)
      rintro new' old ⟨⟩
      rfl
    | signals old e signals =>
      exact h.write (alone (by rw [at_]; rfl)) at_ signals.symm nofun
    | silent old silent =>
      exact h.write (alone (by rw [at_]; rfl)) at_ silent.symm nofun
    | assign e => exact h.assign (alone (by rw [at_]; rfl)) (by rw [at_]; rfl) rfl nofun
    | signalEnter | broadcast | signalLeave | leave =>
      exact h.quiet same (by rw [at_]; rfl) nofun
  | start job =>
    apply h.quiet same
    · rw [at_]
      cases job <;> rfl
    · cases job <;> exact nofun
  | aside p s' q owned trace transitions signals before after =>
    apply h.quiet ⟨trace.state, trace.event, transitions, signals⟩
    · rw [at_]
      cases p with
      | set new p => exact absurd rfl (before new p)
      | idle | wait | exit | enable | disable | fetch =>
        cases q with
        | set new p => exact absurd rfl (after new p)
        | idle | wait | exit | enable | disable | fetch => rfl
    · intro new old write
      exact absurd write (after new _)

/-! ## Runs -/

def points (w : World r T) (t : T) : CrewPc := (w.ctl t).point

/-- Nobody waits for an event inside `set_trace_state`. -/
theorem crewCode_wait {p q : CrewPc} {c : Cond} {m : Mutex}
    (h : (crewCode p : CrewBody r _) = .wait c m q) : q.inside = false := by
  cases p with
  | wait awaited p => cases p <;> cases h; rfl
  | set new p =>
    cases p with
    | signal e p => cases p <;> cases h
    | enter | read | write | leave => cases h
  | disable all p =>
    cases p with
    | trial left ret => cases left <;> cases h
    | enter | attempt | reset | leave => cases h
  | idle => cases h
  | exit p => cases p <;> cases h
  | enable p => cases p <;> cases h
  | fetch p => cases p <;> cases h

/-- Who is inside holds `trace_state_mutex`, so that nobody else is. -/
theorem alone_inside {w : World r T} (guarded : Guarded (fun _ => CrewPc.held) w)
    (rests : ∀ u, (w.ctl u).Rests fun p => p.inside = false) (inside : (points w t).inside = true) :
    Alone (points w) t := by
  have holds : ∀ u, (points w u).inside = true →
      (w.ctl u).holds CrewPc.held .traceStateMutex = true := by
    intro u inside
    have rest := rests u
    cases here : w.ctl u with
    | run p =>
      rw [points, here] at inside
      exact inside_held inside
    | asleep c m p | woken m p =>
      rw [here] at rest
      rw [points, here] at inside
      exact absurd rest (by simpa [Ctl.Rests, Ctl.point] using inside)
  intro u other
  by_contra also
  exact other (guarded.exclusive (holds u (Bool.of_not_eq_false also)) (holds t inside))

structure Together (first : Shared r) (w : World r T) : Prop where
  guarded : Guarded (fun _ => CrewPc.held) w
  rests : ∀ u, (w.ctl u).Rests fun p => p.inside = false
  inStep : InStep first w.mem (points w)

theorem together_step {w w' : World r T} {x : Action T} (h : Together first w)
    (moved : crewStep w x = some w') : Together first w' := by
  cases x with
  | run t a =>
    have waits : ∀ u p c m q, code r T u p = .wait c m q → q.inside = false :=
      fun _ _ _ _ _ => crewCode_wait
    refine ⟨guarded_fire crew_discipline h.guarded moved, rests_fire waits h.rests moved, ?_⟩
    have at_ : points w' = Function.update (points w) t (points w' t) := fire_points moved
    rw [at_]
    rcases fire_after moved with ⟨mem, same⟩ | after
    · rw [mem, points, same]
      exact h.inStep.quiet ⟨rfl, rfl, rfl, rfl⟩ rfl (h.inStep.read t)
    · exact inStep_move h.inStep (alone_inside h.guarded h.rests) (crew_move after)
  | wake t =>
    obtain ⟨mem, same⟩ := spurious_point moved
    have at_ : points w' = points w := funext same
    refine ⟨guarded_spurious h.guarded moved, rests_spurious h.rests moved, ?_⟩
    rw [mem, at_]
    exact h.inStep

theorem together_start (s : Shared r) : Together s (start s : World r T) := by
  refine ⟨crew_guarded .start, fun _ => trivial, ?_⟩
  constructor
  · rfl
  · exact nofun
  · exact nofun
  · exact fun _ => rfl
  · rfl

/-- **State and event in step.** In every interleaving of any number of threads,
the changes of state follow each other, the events written are those of the
table for the changes made, in their order, apart from one that a thread inside
`set_trace_state` has yet to write; and if nobody is inside, the event is that of
the last change that has one. -/
theorem state_and_event_in_step (s : Shared r) (w : World r T)
    (h : Reach crewStep (fun _ _ => true) (start s) w) :
    Linked s.traceState w.mem.traceState w.mem.transitions ∧
    (∀ t e, (points w t).pending = some e → owed w.mem = e :: w.mem.signals) ∧
    ((∀ t, (points w t).pending = none) → w.mem.signals = owed w.mem) ∧
    ((∀ t, (points w t).inside = false) →
      w.mem.signals = owed w.mem ∧ w.mem.traceEvent = (owed w.mem).headD s.traceEvent) := by
  have together : Together s w :=
    h.invariant (together_start s) fun _ _ _ inv _ moved => together_step inv moved
  obtain ⟨linked, _, owed, settled, latest⟩ := together.inStep
  refine ⟨linked, owed, settled, ?_⟩
  intro outside
  have same : w.mem.signals = Crew.owed w.mem := by
    apply settled
    intro t
    cases pends : (points w t).pending with
    | none => rfl
    | some e =>
      have inside := pending_inside pends
      rw [outside t] at inside
      cases inside
  exact ⟨same, same ▸ latest⟩

/-- Two threads make the trace ready and running, one behind the other. -/
theorem two_changes : ∃ w : World Polling.defaultRing (Fin 2),
    Reach crewStep (fun _ _ => true) (start booted) w ∧
    w.mem.transitions = [(readyState, runningState), (initState, readyState)] ∧
    (points w 0).pending = some startEvent ∧ owed w.mem = startEvent :: w.mem.signals := by
  have replay : (exec crewStep (fun _ _ => true) (start booted : World _ (Fin 2))
      (List.replicate 9 (.run 1 (succeeds (.setTraceState readyState))) ++
        List.replicate 4 (.run 0 (succeeds (.setTraceState runningState))))).any
      (fun w => w.mem.transitions == [(readyState, runningState), (initState, readyState)] &&
        (points w 0).pending == some startEvent) = true := by
    decide +kernel
  obtain ⟨w, reached, test⟩ := reach_of_exec replay
  simp only [Bool.and_eq_true, beq_iff_eq] at test
  obtain ⟨changes, pends⟩ := test
  exact ⟨w, reached, changes, pends, (state_and_event_in_step booted w reached).2.1 0 _ pends⟩

end Ultrasight.Crew
