import Ultrasight.Crew

/-!
# Mutex discipline

Which mutexes a thread of the crew holds at each point, that the four mutexes
nest in the order of `rank`, and from this, for every interleaving: what a call
locks it unlocks, the shared variables are changed by the owner of their mutex,
and owner chains end in a thread that is not blocked on a mutex.
-/

namespace Ultrasight.Crew

open Threads TraceState TraceEvent Handshake

variable {r : Ring}

/-! ## Mutexes held -/

def EnablePc.held : EnablePc → Mutex → Bool
  | .enter => nothing
  | _ => holding .traceMutex

def DisablePc.held : DisablePc → Mutex → Bool
  | .enter => nothing
  | _ => holding .traceMutex

def FetchPc.held : FetchPc → Mutex → Bool
  | .enter => nothing
  | _ => holding .traceMutex

def CrewPc.held : CrewPc → Mutex → Bool
  | .idle => nothing
  | .set _ p => p.held
  | .wait _ p => p.held
  | .exit p => p.held
  | .enable p => p.held
  | .disable _ p => p.held
  | .fetch p => p.held

theorem enableCsTrace_checks (p : EnablePc) :
    (enableCsTrace p : CrewBody r _).Checks p.held
      (fun q => q.elim EnablePc.held fun _ => nothing) := by
  cases p with
  | enter => exact ⟨rfl, (update_nothing _).symm⟩
  | first | configure | enable | sinksOnly =>
    intro a s s' q moved
    simp only [Option.some.injEq, Prod.mk.injEq] at moved
    obtain ⟨_, rfl⟩ := moved
    simp only [Sum.elim_inl]
    split <;> rfl
  | clear | dump | exit =>
    rintro a s s' q ⟨⟩
    rfl
  | leave ret => exact ⟨rfl, (update_holding _).symm⟩

theorem disableCsTrace_checks (all : Bool) (p : DisablePc) :
    (disableCsTrace all p : CrewBody r _).Checks p.held
      (fun q => q.elim DisablePc.held fun _ => nothing) := by
  cases p with
  | enter => exact ⟨rfl, (update_nothing _).symm⟩
  | trial left ret =>
    cases left with
    | zero | succ left =>
      rintro a s s' q ⟨⟩
      rfl
  | attempt left =>
    intro a s s' q moved
    simp only [Option.some.injEq, Prod.mk.injEq] at moved
    obtain ⟨_, rfl⟩ := moved
    simp only [Sum.elim_inl]
    split <;> rfl
  | reset left ret =>
    rintro a s s' q ⟨⟩
    rfl
  | leave ret => exact ⟨rfl, (update_holding _).symm⟩

theorem fetchTrace_checks (p : FetchPc) :
    (fetchTrace p : CrewBody r _).Checks p.held
      (fun q => q.elim FetchPc.held fun _ => nothing) := by
  cases p with
  | enter => exact ⟨rfl, (update_nothing _).symm⟩
  | test len remain =>
    intro a s s' q moved
    simp only [Option.some.injEq, Prod.mk.injEq] at moved
    obtain ⟨_, rfl⟩ := moved
    simp only [Sum.elim_inl]
    split <;> rfl
  | grow len =>
    intro a s s' q moved
    simp only [Option.some.injEq] at moved
    split at moved <;> cases moved <;> rfl
  | count | align | remain | setPtr | setBuf | setSize | read | empty | advance =>
    rintro a s s' q ⟨⟩
    rfl
  | leave ret => exact ⟨rfl, (update_holding _).symm⟩

theorem crewCode_checks (p : CrewPc) : (crewCode p : CrewBody r _).Checks p.held CrewPc.held := by
  cases p with
  | idle =>
    rintro a s s' q ⟨⟩
    cases a.job <;> rfl
  | set new p =>
    apply checks_map (checks_on (setTraceState_checks new p))
    intro q
    cases q <;> rfl
  | wait awaited p =>
    apply checks_map (checks_on (waitEvent_checks awaited.wanted p))
    intro q
    cases q <;> rfl
  | exit p =>
    apply checks_map (checks_on (exitBlock_checks p))
    intro q
    cases q <;> rfl
  | enable p =>
    apply checks_map (enableCsTrace_checks p)
    intro q
    cases q <;> rfl
  | disable all p =>
    apply checks_map (disableCsTrace_checks all p)
    intro q
    cases q <;> rfl
  | fetch p =>
    apply checks_map (fetchTrace_checks p)
    intro q
    cases q <;> rfl

/-! ## The lock order -/

theorem enableCsTrace_nests (p : EnablePc) :
    (enableCsTrace p : CrewBody r _).Nests rank p.held := by
  cases p with
  | enter => exact fun _ h => by cases h
  | leave => trivial
  | _ => exact fun _ _ _ _ => ⟨_, rfl⟩

theorem disableCsTrace_nests (all : Bool) (p : DisablePc) :
    (disableCsTrace all p : CrewBody r _).Nests rank p.held := by
  cases p with
  | enter => exact fun _ h => by cases h
  | trial left ret => cases left <;> exact fun _ _ _ _ => ⟨_, rfl⟩
  | attempt | reset => exact fun _ _ _ _ => ⟨_, rfl⟩
  | leave => trivial

theorem fetchTrace_nests (p : FetchPc) : (fetchTrace p : CrewBody r _).Nests rank p.held := by
  cases p with
  | enter => exact fun _ h => by cases h
  | leave => trivial
  | _ => exact fun _ _ _ _ => ⟨_, rfl⟩

theorem crewCode_nests (p : CrewPc) : (crewCode p : CrewBody r _).Nests rank p.held := by
  cases p with
  | idle => exact fun _ h => by cases h
  | set new p => exact nests_map (nests_on (setTraceState_nests new p))
  | wait awaited p => exact nests_map (nests_on (waitEvent_nests awaited.wanted p))
  | exit p => exact nests_map (nests_on (exitBlock_nests p))
  | enable p => exact nests_map (enableCsTrace_nests p)
  | disable all p => exact nests_map (disableCsTrace_nests all p)
  | fetch p => exact nests_map (fetchTrace_nests p)

/-! ## Who changes what -/

/-- A step of a thread that owns `mine`: a variable changes, or is written at all
where the writes are on record, only if its mutex is among them. -/
structure Owned (mine : Mutex → Prop) (s s' : Shared r) : Prop where
  state : s'.traceState = s.traceState ∧ s'.transitions = s.transitions ∨ mine .traceStateMutex
  event : s'.traceEvent = s.traceEvent ∧ s'.signals = s.signals ∨ mine .traceEventMutex
  buffer : s'.traceBuf = s.traceBuf ∨ mine .traceMutex
  device : s'.isFirstTrace = s.isFirstTrace ∧ s'.device = s.device ∨ mine .traceMutex
  fetcher : s'.fetcherReady = s.fetcherReady ∨ mine .traceFetcherMutex

theorem owned_same (mine : Mutex → Prop) (s : Shared r) : Owned mine s s :=
  ⟨.inl ⟨rfl, rfl⟩, .inl ⟨rfl, rfl⟩, .inl rfl, .inl ⟨rfl, rfl⟩, .inl rfl⟩

theorem Owned.mono {mine mine' : Mutex → Prop} {s s' : Shared r} (h : Owned mine s s')
    (more : ∀ m, mine m → mine' m) : Owned mine' s s' :=
  ⟨h.state.imp_right (more _), h.event.imp_right (more _), h.buffer.imp_right (more _),
    h.device.imp_right (more _), h.fetcher.imp_right (more _)⟩

/-- The memory of the handshake stays, and what else changes belongs to
`trace_mutex`. -/
def InTraceMutex (held : Mutex → Bool) (s s' : Shared r) : Prop :=
  s' = s ∨ s'.toMem = s.toMem ∧ held .traceMutex = true

theorem InTraceMutex.mem {held : Mutex → Bool} {s s' : Shared r} (h : InTraceMutex held s s') :
    s'.toMem = s.toMem := by
  rcases h with rfl | ⟨same, _⟩
  · rfl
  · exact same

theorem InTraceMutex.owned {held : Mutex → Bool} {s s' : Shared r} (h : InTraceMutex held s s') :
    Owned (held · = true) s s' := by
  rcases h with rfl | ⟨same, mine⟩
  · exact owned_same _ _
  · constructor
    · rw [same]
      exact .inl ⟨rfl, rfl⟩
    · rw [same]
      exact .inl ⟨rfl, rfl⟩
    · exact .inr mine
    · exact .inr mine
    · rw [same]
      exact .inl rfl

theorem enableCsTrace_after {p : EnablePc} {a : Answer} {s s' : Shared r} {q : EnablePc ⊕ Int}
    (h : (enableCsTrace p).after a s = some (s', q)) : InTraceMutex p.held s s' := by
  cases p with
  | enter | leave =>
    cases h
    exact .inl rfl
  | first | configure | enable | clear | sinksOnly =>
    cases h
    exact .inr ⟨rfl, rfl⟩
  | dump | exit =>
    cases h
    refine .inr ⟨?_, rfl⟩
    split <;> rfl

theorem disableCsTrace_after {all : Bool} {p : DisablePc} {a : Answer} {s s' : Shared r}
    {q : DisablePc ⊕ Int} (h : (disableCsTrace all p).after a s = some (s', q)) :
    InTraceMutex p.held s s' := by
  cases p with
  | enter | leave =>
    cases h
    exact .inl rfl
  | trial left ret =>
    cases left with
    | zero | succ left =>
      cases h
      exact .inr ⟨rfl, rfl⟩
  | attempt | reset =>
    cases h
    exact .inr ⟨rfl, rfl⟩

theorem fetchTrace_after {p : FetchPc} {a : Answer} {s s' : Shared r} {q : FetchPc ⊕ Int}
    (h : (fetchTrace p).after a s = some (s', q)) : InTraceMutex p.held s s' := by
  cases p with
  | enter | leave =>
    cases h
    exact .inl rfl
  | grow len =>
    simp only [fetchTrace, Instr.after, Option.some.injEq] at h
    split at h
    · cases h
      exact .inr ⟨rfl, rfl⟩
    · cases h
      exact .inr ⟨rfl, rfl⟩
  | count | align | remain | test | setPtr | setBuf | setSize | read | empty | advance =>
    cases h
    exact .inr ⟨rfl, rfl⟩

theorem waitEvent_after {wanted : TraceEvent → Bool} {p : WaitPc} {o : Outcome} {m m' : Mem r}
    {q : WaitPc ⊕ TraceEvent} (h : (waitEvent wanted p).after o m = some (m', q)) : m' = m := by
  cases p <;> cases h <;> rfl

theorem exitBlock_after {p : ExitPc} {o : Outcome} {m m' : Mem r} {q : Option ExitPc}
    (h : (exitBlock p).after o m = some (m', q)) :
    m' = m ∨ p.held .traceFetcherMutex = true ∧ m' = { m with fetcherReady := true } := by
  cases p with
  | assign =>
    cases h
    exact .inr ⟨rfl, rfl⟩
  | enter | broadcast | leave =>
    cases h
    exact .inl rfl

/-- What a step inside `set_trace_state` can be. -/
inductive SetMove (new : TraceState) (m : Mem r) : SetPc → Mem r → Option SetPc → Prop
  | enter : SetMove new m .enter m (some .read)
  | read : SetMove new m .read m (some (.write m.traceState))
  | signals (old : TraceState) (e : TraceEvent) (signals : signalled old new = some e) :
    SetMove new m (.write old)
      { m with traceState := new, transitions := (old, new) :: m.transitions }
      (some (.signal e .enter))
  | silent (old : TraceState) (silent : signalled old new = none) :
    SetMove new m (.write old)
      { m with traceState := new, transitions := (old, new) :: m.transitions } (some .leave)
  | signalEnter (e : TraceEvent) : SetMove new m (.signal e .enter) m (some (.signal e .assign))
  | assign (e : TraceEvent) :
    SetMove new m (.signal e .assign) { m with traceEvent := e, signals := e :: m.signals }
      (some (.signal e .broadcast))
  | broadcast (e : TraceEvent) :
    SetMove new m (.signal e .broadcast) m (some (.signal e .leave))
  | signalLeave (e : TraceEvent) : SetMove new m (.signal e .leave) m (some .leave)
  | leave : SetMove new m .leave m none

theorem set_move {new : TraceState} {p : SetPc} {o : Outcome} {m m' : Mem r} {q : Option SetPc}
    (h : (setTraceState new p).after o m = some (m', q)) : SetMove new m p m' q := by
  cases p with
  | enter => cases h; exact .enter
  | read => cases h; exact .read
  | write old =>
    simp only [setTraceState, Instr.after, Option.some.injEq, Prod.mk.injEq] at h
    obtain ⟨rfl, rfl⟩ := h
    cases signals : signalled old new with
    | some e => exact .signals old e signals
    | none => exact .silent old signals
  | signal e p =>
    cases p with
    | enter => cases h; exact .signalEnter e
    | assign => cases h; exact .assign e
    | broadcast => cases h; exact .broadcast e
    | leave => cases h; exact .signalLeave e
  | leave => cases h; exact .leave

/-- What a step of a thread can be: one of `set_trace_state`, or one that leaves
state and event alone. -/
inductive CrewMove (s : Shared r) : CrewPc → Shared r → CrewPc → Prop
  | set (new : TraceState) (p : SetPc) (m' : Mem r) (q : Option SetPc)
      (moved : SetMove new s.toMem p m' q) :
    CrewMove s (.set new p) { s with toMem := m' } (q.elim .idle (.set new))
  | start (job : Job) : CrewMove s .idle s job.entry
  | aside (p : CrewPc) (s' : Shared r) (q : CrewPc) (owned : Owned (p.held · = true) s s')
      (same : SameTrace s.toMem s'.toMem) (transitions : s'.transitions = s.transitions)
      (signals : s'.signals = s.signals) (before : ∀ new p', p ≠ .set new p')
      (after : ∀ new p', q ≠ .set new p') : CrewMove s p s' q

theorem InTraceMutex.move {s s' : Shared r} {p q : CrewPc} (h : InTraceMutex p.held s s')
    (before : ∀ new p', p ≠ .set new p') (after : ∀ new p', q ≠ .set new p') :
    CrewMove s p s' q := by
  have same := h.mem
  apply CrewMove.aside p s' q h.owned
  · rw [same]
    exact ⟨rfl, rfl⟩
  · rw [same]
  · rw [same]
  · exact before
  · exact after

theorem crew_move {p q : CrewPc} {a : Answer} {s s' : Shared r}
    (h : (crewCode p).after a s = some (s', q)) : CrewMove s p s' q := by
  cases p with
  | idle =>
    cases h
    exact .start a.job
  | set new p =>
    rw [crewCode, after_map, shared, after_on fun _ => rfl] at h
    obtain ⟨⟨s₁, q₁⟩, moved, eq⟩ := Option.map_eq_some_iff.mp h
    obtain ⟨⟨m', q'⟩, body, eq'⟩ := Option.map_eq_some_iff.mp moved
    cases eq'
    cases eq
    have step := CrewMove.set (s := s) new p m' q' (set_move body)
    cases q' <;> exact step
  | wait awaited p =>
    rw [crewCode, after_map, shared, after_on fun _ => rfl] at h
    obtain ⟨⟨s₁, q₁⟩, moved, eq⟩ := Option.map_eq_some_iff.mp h
    obtain ⟨⟨m', q'⟩, body, eq'⟩ := Option.map_eq_some_iff.mp moved
    cases eq'
    cases eq
    obtain rfl := waitEvent_after body
    refine .aside (.wait awaited p) s _ (owned_same _ s) ⟨rfl, rfl⟩ rfl rfl nofun ?_
    cases q' <;> exact nofun
  | exit p =>
    rw [crewCode, after_map, shared, after_on fun _ => rfl] at h
    obtain ⟨⟨s₁, q₁⟩, moved, eq⟩ := Option.map_eq_some_iff.mp h
    obtain ⟨⟨m', q'⟩, body, eq'⟩ := Option.map_eq_some_iff.mp moved
    cases eq'
    cases eq
    have after : ∀ new p', q'.elim CrewPc.idle .exit ≠ .set new p' := by cases q' <;> exact nofun
    rcases exitBlock_after body with rfl | ⟨mine, rfl⟩
    · have step := CrewMove.aside (.exit p) s _ (owned_same _ s) ⟨rfl, rfl⟩ rfl rfl nofun after
      cases q' <;> exact step
    · have owned : Owned (CrewPc.held (.exit p) · = true) s
          { s with toMem := { s.toMem with fetcherReady := true } } :=
        ⟨.inl ⟨rfl, rfl⟩, .inl ⟨rfl, rfl⟩, .inl rfl, .inl ⟨rfl, rfl⟩, .inr mine⟩
      have step := CrewMove.aside (.exit p) _ _ owned ⟨rfl, rfl⟩ rfl rfl nofun after
      cases q' <;> exact step
  | enable p =>
    rw [crewCode, after_map] at h
    obtain ⟨⟨s₁, q₁⟩, moved, eq⟩ := Option.map_eq_some_iff.mp h
    cases eq
    apply InTraceMutex.move (p := .enable p) (enableCsTrace_after moved) nofun
    cases q₁ <;> exact nofun
  | disable all p =>
    rw [crewCode, after_map] at h
    obtain ⟨⟨s₁, q₁⟩, moved, eq⟩ := Option.map_eq_some_iff.mp h
    cases eq
    apply InTraceMutex.move (p := .disable all p) (disableCsTrace_after moved) nofun
    cases q₁ <;> exact nofun
  | fetch p =>
    rw [crewCode, after_map] at h
    obtain ⟨⟨s₁, q₁⟩, moved, eq⟩ := Option.map_eq_some_iff.mp h
    cases eq
    apply InTraceMutex.move (p := .fetch p) (fetchTrace_after moved) nofun
    cases q₁ <;> exact nofun

/-- Inside `set_trace_state` the state is written with its mutex held, and the
event with both. -/
theorem SetMove.owned {new : TraceState} {s : Shared r} {p : SetPc} {m' : Mem r}
    {q : Option SetPc} (h : SetMove new s.toMem p m' q) :
    Owned (p.held · = true) s { s with toMem := m' } := by
  cases h with
  | signals | silent =>
    exact ⟨.inr rfl, .inl ⟨rfl, rfl⟩, .inl rfl, .inl ⟨rfl, rfl⟩, .inl rfl⟩
  | assign => exact ⟨.inl ⟨rfl, rfl⟩, .inr rfl, .inl rfl, .inl ⟨rfl, rfl⟩, .inl rfl⟩
  | enter | read | signalEnter | broadcast | signalLeave | leave => exact owned_same _ s

theorem CrewMove.owned {s s' : Shared r} {p q : CrewPc} (h : CrewMove s p s' q) :
    Owned (p.held · = true) s s' := by
  cases h with
  | set new p m' q moved => exact moved.owned
  | start => exact owned_same _ s
  | aside _ _ _ owned => exact owned

/-! ## Runs -/

section
variable {T : Type}

theorem crew_discipline : Discipline (code r T) fun _ => CrewPc.held := fun _ => crewCode_checks

theorem crew_ordered : Ordered (code r T) (fun _ => CrewPc.held) rank := fun _ => crewCode_nests

variable [DecidableEq T]

theorem crew_guarded {s : Shared r} {w : World r T}
    (h : Reach crewStep (fun _ _ => true) (start s) w) : Guarded (fun _ => CrewPc.held) w := by
  apply h.invariant
  · constructor
    · intro m t
      constructor
      · exact nofun
      · exact nofun
    · exact fun _ => trivial
  · intro w x w' guarded _ moved
    cases x with
    | run t a => exact guarded_fire crew_discipline guarded moved
    | wake t => exact guarded_spurious guarded moved

/-- Each call gives back what it took: a thread unlocks, and waits with, what it
owns, locks what it does not own, and owns nothing between two calls. -/
structure Balanced (w : World r T) : Prop where
  unlocks : ∀ t p m q, w.ctl t = .run p → (crewCode p : CrewBody r _) = .unlock m q →
    w.owner m = some t
  waits : ∀ t p c m q, w.ctl t = .run p → (crewCode p : CrewBody r _) = .wait c m q →
    w.owner m = some t
  locks : ∀ t p m q, w.ctl t = .run p → (crewCode p : CrewBody r _) = .lock m q →
    w.owner m ≠ some t
  wakes : ∀ t m p, w.ctl t = .woken m p → ∀ n, w.owner n ≠ some t
  idle : ∀ t, w.ctl t = .run .idle → ∀ m, w.owner m ≠ some t

theorem balanced {w : World r T} (guarded : Guarded (fun _ => CrewPc.held) w) : Balanced w := by
  constructor
  · intro t p m q here instr
    apply (guarded.owns here m).mpr
    exact (crew_discipline.unlock (t := t) instr).1
  · intro t p c m q here instr
    apply (guarded.owns here m).mpr
    exact ((crew_discipline.wait (t := t) instr).1 m).mpr rfl
  · intro t p m q here instr owner
    have mine := (guarded.owns here m).mp owner
    rw [(crew_discipline.lock (t := t) instr).1] at mine
    cases mine
  · intro t m p here n owner
    have mine := (guarded.owned n t).mp owner
    rw [here] at mine
    cases mine
  · intro t here m owner
    have mine := (guarded.owns here m).mp owner
    cases mine

theorem owned_fire {t : T} {a : Answer} {w w' : World r T}
    (guarded : Guarded (fun _ => CrewPc.held) w) (moved : fire (code r T) t a w = some w') :
    Owned (w.owner · = some t) w.mem w'.mem := by
  rcases fire_mem moved with same | ⟨p, q, here, done⟩
  · rw [same]
    exact owned_same _ _
  · apply (crew_move done).owned.mono
    intro m mine
    exact (guarded.owns here m).mpr mine

/-- **Mutex discipline.** Any number of threads run the locked functions, each in
any order, with any results of the calls inside them, and are interleaved in any
way. What a call locks it unlocks and nothing else; the state, the event and the
trace buffer are changed by the owner of their mutex; and from a thread that is
blocked on a mutex the owner chain ends in one that is not blocked. -/
theorem mutex_discipline (s : Shared r) (w : World r T)
    (h : Reach crewStep (fun _ _ => true) (start s) w) :
    Balanced w ∧
    (∀ t a w', crewStep w (.run t a) = some w' → Owned (w.owner · = some t) w.mem w'.mem ∧
      ∀ m, w'.owner m = w.owner m ∨ w.owner m = none ∧ w'.owner m = some t ∨
        w.owner m = some t ∧ w'.owner m = none) ∧
    (∀ t w', crewStep w (.wake t) = some w' → w'.mem = w.mem ∧ w'.owner = w.owner) ∧
    ∀ t m, Blocked (code r T) w t m → ∃ u, OwnerChain (code r T) w m u := by
  have guarded := crew_guarded h
  refine ⟨balanced guarded, ?_, ?_, ?_⟩
  · intro t a w' moved
    exact ⟨owned_fire guarded moved, owner_fire crew_discipline guarded moved⟩
  · intro t w' moved
    exact ⟨(spurious_point moved).1, spurious_owner moved⟩
  · intro t m blocked
    obtain ⟨u, owner⟩ := Option.ne_none_iff_exists'.mp blocked.1
    exact owner_chain crew_ordered rank_bounded guarded owner

end

/-- A call whose callees succeed. -/
def succeeds (job : Job) : Answer := ⟨job, 0, ⟨0, fun _ => none, 0, []⟩⟩

/-- A thread in the way of a thread in the way of a third one. -/
theorem chain_of_two : ∃ w : World Polling.defaultRing (Fin 3),
    Reach crewStep (fun _ _ => true) (start booted) w ∧
    Blocked (code _ _) w 2 .traceStateMutex ∧
    ∃ u, OwnerChain (code _ _) w .traceStateMutex u := by
  have replay : (exec crewStep (fun _ _ => true) (start booted : World _ (Fin 3))
      (List.replicate 2 (.run 1 (succeeds .waitLastEvent)) ++
        List.replicate 4 (.run 0 (succeeds (.setTraceState readyState))) ++
        [.run 2 (succeeds (.setTraceState finiState))])).any
      (fun w => w.owner .traceStateMutex == some 0 && w.owner .traceEventMutex == some 1 &&
        w.ctl 0 == .run (.set readyState (.signal initEvent .enter)) &&
        w.ctl 2 == .run (.set finiState .enter)) = true := by
    decide +kernel
  obtain ⟨w, reached, test⟩ := reach_of_exec replay
  simp only [Bool.and_eq_true, beq_iff_eq] at test
  obtain ⟨⟨⟨owner, _⟩, _⟩, here⟩ := test
  have blocked : Blocked (code _ _) w 2 .traceStateMutex := by
    constructor
    · rw [owner]
      exact nofun
    · exact .inl ⟨_, _, here, rfl⟩
  exact ⟨w, reached, blocked, (mutex_discipline booted w reached).2.2.2 2 _ blocked⟩

end Ultrasight.Crew
