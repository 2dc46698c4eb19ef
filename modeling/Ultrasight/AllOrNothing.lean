import Ultrasight.Footprints
import Ultrasight.OwnErrors
import Ultrasight.Resources
import Ultrasight.TwoRuns

/-!
# What `start_trace` leaves behind

`start_trace` looks at the results of `set_cpu_affinity` and `enable_cs_trace`,
but not at those of the two allocations, and it unmaps nothing when it fails.

* `Process.startTrace` is `start_trace` with the mappings of the process; it does
  to the variables what `startTrace` does;
* `all_or_nothing_iff`: which outcomes of the four steps end well.
-/

namespace Ultrasight.Session

open Fn Holdings
open TraceBuffer (defaultTraceSize)

/-- The variables, and what the process holds. -/
structure Process where
  globals : Globals
  holds : Holdings (List UInt8)

def onGlobals {α : Type} (x : Fn Globals α) : Fn Process α :=
  zoom Process.globals (fun g p => { p with globals := g }) x

def onHoldings {α : Type} (x : Fn (Holdings (List UInt8)) α) : Fn Process α :=
  zoom Process.holds (fun h p => { p with holds := h }) x

namespace Process

def allocTraceBuf (placed : Option (Placement defaultTraceSize.toNat)) : Fn Process Unit := do
  let _ ← onHoldings (mapAnonymous defaultTraceSize placed)
  onGlobals (Session.allocTraceBuf placed)

def allocKsightBuf (placed : Option (Placement defaultTraceSize.toNat)) : Fn Process Unit := do
  let _ ← onHoldings (mapAnonymous defaultTraceSize placed)
  onGlobals (Session.allocKsightBuf placed)

def startTrace (e : Csal) (o : Settings) (pid : Parent.Pid) (usePidTrace : Bool)
    (a : StartAnswers) : Fn Process Int := enclose do
  require (0 ≤ a.affinity) a.affinity
  allocTraceBuf a.traceBuf
  when o.ksightOn (allocKsightBuf a.ksightBuf)
  onGlobals (modify fun g => { g with childPid := pid })
  onGlobals (fetcherSize o a.etrSize)
  let rc ← onGlobals (enableCsTrace e o (if usePidTrace then pid else 0))
  require (0 ≤ rc) rc
  onGlobals (setTraceState .runningState)
  pure rc

end Process

/-! ## The same, without the mappings -/

section
variable {α : Type}

theorem alike_onGlobals (x : Fn Globals α) :
    Alike (fun (p : Process) g => p.globals = g) (onGlobals x) x := by
  rintro p g rfl
  simp only [onGlobals, zoom]
  cases x p.globals with
  | ok a g' => exact .ok rfl
  | error e g' => exact .error rfl

theorem alike_mapped (size : BitVec 64) (placed : Option (Placement size.toNat))
    (x : Fn Globals α) : Alike (fun (p : Process) g => p.globals = g)
      (do let _ ← onHoldings (mapAnonymous size placed); onGlobals x) x := by
  rintro p g rfl
  cases placed with
  | none => exact alike_onGlobals x p p.globals rfl
  | some q => exact alike_onGlobals x _ p.globals rfl

theorem startTrace_alike (e : Csal) (o : Settings) (pid : Parent.Pid) (use : Bool)
    (a : StartAnswers) : Alike (fun (p : Process) g => p.globals = g)
      (Process.startTrace e o pid use a) (startTrace e o pid use a) := by
  apply Alike.enclose
  apply (alike_closed.require _ _).bind
  intro _
  apply (alike_mapped _ _ _).bind
  intro _
  apply (alike_closed.when fun _ => alike_mapped _ _ _).bind
  intro _
  apply (alike_onGlobals _).bind
  intro _
  apply (alike_onGlobals _).bind
  intro _
  apply (alike_onGlobals _).bind
  intro rc
  apply (alike_closed.require _ _).bind
  intro _
  apply (alike_onGlobals _).bind
  exact fun _ => alike_pure rc

end

/-! ## What is asked of `start_trace` -/

/-- The buffer is mapped, with its position at the start and its size set. -/
structure Allocated (b : Buf) (maps : List (Mapping (List UInt8))) : Prop where
  sound : b.Sound
  start : b.ptr = b.buf
  size : b.size = defaultTraceSize
  mapped : ⟨b.buf, b.size, none⟩ ∈ maps

/-- Everything is running, or everything is as before. -/
def AllOrNothing (o : Settings) (p p' : Process) (rc : Int) : Prop :=
  (0 ≤ rc ∧ p'.globals.traceState = .runningState ∧
    Allocated p'.globals.traceBuf p'.holds.maps ∧
    (o.ksightOn = true → Allocated p'.globals.ksightBuf p'.holds.maps)) ∨
  (rc < 0 ∧ p'.globals.traceState = p.globals.traceState ∧ p'.holds.maps = p.holds.maps)

/-! ## When it is so -/

/-- A buffer variable after `mmap`. -/
def allocated (placed : Option (Placement defaultTraceSize.toNat)) (b : Buf) : Buf :=
  match placed with
  | some p => .map defaultTraceSize p
  | none => unmapped b

/-- The mapping that `mmap` made. -/
def mapping : Option (Placement defaultTraceSize.toNat) → List (Mapping (List UInt8))
  | some p => [⟨p.addr, defaultTraceSize, none⟩]
  | none => []

/-- The variables when `enable_cs_trace` is called. -/
def readied (o : Settings) (pid : Parent.Pid) (a : StartAnswers) (g : Globals) : Globals :=
  { g with
    traceBuf := allocated a.traceBuf g.traceBuf
    ksightBuf := if o.ksightOn then allocated a.ksightBuf g.ksightBuf else g.ksightBuf
    childPid := pid
    etrRam := if o.fetcherOn && g.etrRam.2 == 0 then (g.etrRam.1, a.etrSize.getD 0) else g.etrRam }

/-- The mappings that `start_trace` makes. -/
def mappings (o : Settings) (a : StartAnswers) : List (Mapping (List UInt8)) :=
  (if o.ksightOn then mapping a.ksightBuf else []) ++ mapping a.traceBuf

section
variable {e : Csal} {o : Settings} {pid : Parent.Pid} {use : Bool} {a : StartAnswers}
  {p : Process} {placed : Option (Placement defaultTraceSize.toNat)} {b : Buf}
  {maps : List (Mapping (List UInt8))}

theorem allocTraceBuf_eq : Process.allocTraceBuf placed p = .ok ()
    ⟨{ p.globals with traceBuf := allocated placed p.globals.traceBuf },
      ⟨p.holds.fds, mapping placed ++ p.holds.maps⟩⟩ := by
  cases placed <;> rfl

theorem allocKsightBuf_eq : Process.allocKsightBuf placed p = .ok ()
    ⟨{ p.globals with ksightBuf := allocated placed p.globals.ksightBuf },
      ⟨p.holds.fds, mapping placed ++ p.holds.maps⟩⟩ := by
  cases placed <;> rfl

theorem allocKsightBuf_if :
    when o.ksightOn (Process.allocKsightBuf a.ksightBuf)
      ⟨{ p.globals with traceBuf := b }, ⟨p.holds.fds, mapping placed ++ p.holds.maps⟩⟩ =
    .ok () ⟨{ p.globals with
        traceBuf := b
        ksightBuf := if o.ksightOn then allocated a.ksightBuf p.globals.ksightBuf
          else p.globals.ksightBuf },
      ⟨p.holds.fds, (if o.ksightOn then mapping a.ksightBuf else []) ++ mapping placed ++
        p.holds.maps⟩⟩ := by
  cases o.ksightOn with
  | false => rfl
  | true =>
    simp only [when, if_true, allocKsightBuf_eq, List.append_assoc]

/-- The result is that of `enable_cs_trace`, and what was mapped stays mapped. -/
theorem startTrace_ends (bound : 0 ≤ a.affinity) {rc : Int} {g : Globals}
    (enabled : enableCsTrace e o (if use then pid else 0) (readied o pid a p.globals) = .ok rc g) :
    Ensures (Process.startTrace e o pid use a)
      (fun rc' p' => rc' = rc ∧ p'.holds.maps = mappings o a ++ p.holds.maps ∧
        p'.globals.traceBuf = g.traceBuf ∧ p'.globals.ksightBuf = g.ksightBuf ∧
        p'.globals.traceState = if 0 ≤ rc then .runningState else g.traceState)
      (fun _ _ => False) p := by
  have rest (h : Holdings (List UInt8)) : Ensures (do
      let rc ← onGlobals (enableCsTrace e o (if use then pid else 0))
      require (0 ≤ rc) rc
      onGlobals (setTraceState .runningState)
      pure rc)
      (fun rc' p' => rc' = rc ∧ p'.holds = h ∧ p'.globals.traceBuf = g.traceBuf ∧
        p'.globals.ksightBuf = g.ksightBuf ∧
        p'.globals.traceState = if 0 ≤ rc then .runningState else g.traceState)
      (fun x p' => x = .ret rc ∧ p' = ⟨g, h⟩ ∧ rc < 0) ⟨readied o pid a p.globals, h⟩ := by
    simp only [onGlobals, ensures_bind, ensures_zoom, ensures_of_ok enabled, ensures_require,
      ensures_pure, setTraceState, ensures_modify, decide_eq_true_eq, decide_eq_false_iff_not]
    refine ⟨fun fine => ?_, fun failed => ?_⟩
    · simp [fine]
    · simp at failed ⊢
      exact failed
  apply (ensures_enclose _).mpr
  apply (ensures_bind _ _).mpr
  apply (ensures_require _ _).mpr
  refine ⟨fun _ => ?_, fun unbound => absurd bound (of_decide_eq_false unbound)⟩
  apply (ensures_bind _ _).mpr
  apply (ensures_of_ok allocTraceBuf_eq).mpr
  apply (ensures_bind _ _).mpr
  apply (ensures_of_ok allocKsightBuf_if).mpr
  apply (ensures_bind _ _).mpr
  apply (ensures_zoom _).mpr
  apply (ensures_modify _).mpr
  apply (ensures_bind _ _).mpr
  apply (ensures_zoom _).mpr
  apply (ensures_modify _).mpr
  apply (rest ⟨p.holds.fds, mappings o a ++ p.holds.maps⟩).mono
  · rintro rc' p' ⟨result, holds, same⟩
    exact ⟨result, by rw [holds], same⟩
  · rintro x p' ⟨rfl, rfl, failed⟩
    exact ⟨rfl, rfl, rfl, rfl, by rw [if_neg (by omega)]⟩

theorem allocated_iff (inside : mapping placed ⊆ maps) :
    Allocated (allocated placed b) maps ↔ placed.isSome = true := by
  cases placed with
  | none =>
    simp only [Option.isSome_none, Bool.false_eq_true, iff_false]
    intro valid
    have base := valid.sound.base
    simp [allocated, unmapped] at base
  | some q =>
    simp only [Option.isSome_some, iff_true]
    constructor
    · exact Buf.sound_map q ⟨16, by decide⟩
    · rfl
    · rfl
    · exact inside (List.mem_singleton_self _)

theorem mappings_empty : mappings o a = [] ↔
    a.traceBuf = none ∧ (o.ksightOn = true → a.ksightBuf = none) := by
  have mapping_nil (placed : Option (Placement defaultTraceSize.toNat)) :
      mapping placed = [] ↔ placed = none := by
    cases placed <;> simp [mapping]
  cases on : o.ksightOn <;> simp [mappings, on, mapping_nil, and_comm]

/-- Enabling touches neither the buffers nor the state. -/
theorem enableCsTrace_leaves {q : Parent.Pid} {g g' : Globals} {rc : Int}
    (enabled : enableCsTrace e o q g = .ok rc g') :
    g'.traceBuf = g.traceBuf ∧ g'.ksightBuf = g.ksightBuf ∧ g'.traceState = g.traceState := by
  let Same (t : Globals) : Prop :=
    t.traceBuf = g.traceBuf ∧ t.ksightBuf = g.ksightBuf ∧ t.traceState = g.traceState
  have free {α : Type} (x : Fn Rig α) : Keeps Same (onRig x) :=
    fun t same => (ensures_zoom x).mpr (ensures_const same x t.rig)
  have keeps : Keeps Same (enableCsTrace e o q) := enableCsTrace_keeps free (fun _ same => same) q
  exact (ensures_of_ok enabled).mp (keeps g ⟨rfl, rfl, rfl⟩)

/-- The process was not bound; or all that is needed was mapped, and enabling
succeeded; or nothing was mapped, and enabling failed. -/
def EndsWell (o : Settings) (a : StartAnswers) (rc : Int) : Prop :=
  a.affinity < 0 ∨
  (0 ≤ rc ∧ a.traceBuf.isSome = true ∧ (o.ksightOn = true → a.ksightBuf.isSome = true)) ∨
  (rc < 0 ∧ a.traceBuf = none ∧ (o.ksightOn = true → a.ksightBuf = none))

/-- **All or nothing.** Whatever the four steps answer, `start_trace` ends with
everything running or with everything as before exactly if they end well. -/
theorem all_or_nothing_iff {rc : Int} {g : Globals} (enabled : 0 ≤ a.affinity →
      enableCsTrace e o (if use then pid else 0) (readied o pid a p.globals) = .ok rc g) :
    Ensures (Process.startTrace e o pid use a)
      (fun rc' p' => AllOrNothing o p p' rc' ↔ EndsWell o a rc) (fun _ _ => False) p := by
  by_cases unbound : a.affinity < 0
  · apply (ensures_enclose _).mpr
    apply (ensures_bind _ _).mpr
    apply (ensures_require _ _).mpr
    refine ⟨fun bound => absurd (of_decide_eq_true bound) (by omega), fun _ => ?_⟩
    exact ⟨fun _ => .inl unbound, fun _ => .inr ⟨unbound, rfl, rfl⟩⟩
  have bound : 0 ≤ a.affinity := by omega
  have ran := enabled bound
  obtain ⟨buf, ksight, state⟩ := enableCsTrace_leaves ran
  apply (startTrace_ends bound ran).mono
  · rintro rc' p' ⟨rfl, maps, buf', ksight', state'⟩
    by_cases failed : rc' < 0
    · have none := @mappings_empty o a
      simp only [AllOrNothing, EndsWell, maps, state', state, unbound, failed, false_or, true_and,
        show ¬ 0 ≤ rc' by omega, false_and, if_false, List.append_left_eq_self, none]
      simp [readied]
    · have trace : mapping a.traceBuf ⊆ mappings o a ++ p.holds.maps := by
        intro m hm
        simp [mappings, hm]
      have fine : 0 ≤ rc' := by omega
      simp only [AllOrNothing, EndsWell, maps, state', buf', buf, ksight', ksight, unbound, failed,
        fine, false_or, true_and, false_and, or_false, if_true, readied, allocated_iff trace]
      cases on : o.ksightOn with
      | false => simp
      | true =>
        have events : mapping a.ksightBuf ⊆ mappings o a ++ p.holds.maps := by
          intro m hm
          simp [mappings, on, hm]
        simp only [if_true, forall_const, allocated_iff events]
  · exact fun _ _ => False.elim

end

/-- The board of the ZCU-104 was set up, and nothing was started. -/
def ready : Process := ⟨{ running with rig := .idle }, ⟨[], []⟩⟩

/-- A session on the ZCU-104. -/
theorem session_all : Ensures (Process.startTrace zcu104 plain 42 true healthy.start)
    (fun rc p => AllOrNothing plain ready p rc) (fun _ _ => False) ready := by
  have run : returnsZero (fun _ => true)
      (enableCsTrace zcu104 plain 42 (readied plain 42 healthy.start ready.globals)) = true := by
    decide +kernel
  obtain ⟨g, enabled, _⟩ := returnsZero_spec run
  apply (@all_or_nothing_iff zcu104 plain 42 true _ ready _ _ fun _ => enabled).mono
  · intro rc p well
    exact well.mpr (.inr (.inl ⟨Int.le_refl 0, rfl, nofun⟩))
  · exact fun _ _ => False.elim

/-- A session that runs without a trace buffer. -/
theorem session_without_buffer :
    ¬ Ensures (Process.startTrace zcu104 plain 42 true ⟨0, none, none, none⟩)
      (fun rc p => AllOrNothing plain ready p rc) (fun _ _ => True) ready := by
  have run : returnsZero (fun _ => true)
      (enableCsTrace zcu104 plain 42 (readied plain 42 ⟨0, none, none, none⟩ ready.globals)) = true := by
    decide +kernel
  obtain ⟨g, enabled, _⟩ := returnsZero_spec run
  intro all
  have buffer := (enableCsTrace_leaves enabled).1
  apply all.excluded (@startTrace_ends zcu104 plain 42 true _ ready (Int.le_refl 0) _ _ enabled)
  · rintro rc p all ⟨rfl, maps, same, _⟩
    rcases all with ⟨_, _, valid, _⟩ | ⟨failed, _⟩
    · have base := valid.sound.base
      rw [same, buffer] at base
      simp [readied, allocated, unmapped] at base
    · omega
  · exact fun _ _ _ => id

end Ultrasight.Session
