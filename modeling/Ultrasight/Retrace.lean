import Ultrasight.Footprints
import Ultrasight.Programming
import Ultrasight.Runs

/-!
# Which sessions trace

`enable_cs_trace` sets up the ETMs for the first trace only, and later ones
switch on the sinks alone. So a session traces if it is the first, or if the
first was for the same process and `stop_trace` was not told to disable all
since: `every_session_traces` is about the runs in which that is so, and every
call succeeds.
-/

namespace Ultrasight.Session

open Fn CsCall
open Parent (Pid)

/-- What the calls so far have made of the ETMs: they are set up by the first
`start_trace` that succeeds, and switched off with all components. -/
inductive Etms where
  | untouched
  | tracing (pid : Pid)
  | off
  deriving DecidableEq

def Etms.stop : Etms → Etms
  | .untouched => .untouched
  | _ => .off

def etms : List ApiEvent → Etms
  | [] => .untouched
  | .called (.stopTrace true) :: older | .called (.finiTrace _) :: older => (etms older).stop
  | .returned (.startTrace pid _ _) rc :: older =>
    if 0 ≤ rc ∧ etms older = .untouched then .tracing pid else etms older
  | _ :: older => etms older

/-- `start_trace` is called, if it can bind the process, with the ID of a
process that the ETMs are or can be set up for. -/
def sameProcess (h : History) : Api → Bool
  | .startTrace pid use a =>
    decide (a.affinity < 0) || (use && pid != 0 &&
      decide (etms h.events = .untouched ∨ etms h.events = .tracing pid))
  | _ => true

def sources (e : Csal) : List Dev := sourcesIn e.board e.devices e.source

/-- All components are enabled, and the ETMs select the process `pid`. -/
structure Tracing (e : Csal) (pid : Pid) (r : Rig) : Prop where
  on : ∀ d ∈ e.devices.collecting ++ sources e, r.enabled d = true
  cid : ∀ i < e.board.nCpu, (r.etm (e.source i)).cid = pid.signExtend 64

/-- The same, but for the sinks. -/
structure Prepared (e : Csal) (pid : Pid) (r : Rig) : Prop where
  on : ∀ d ∈ sources e, r.enabled d = true ∨ d ∈ e.devices.collecting
  cid : ∀ i < e.board.nCpu, (r.etm (e.source i)).cid = pid.signExtend 64

theorem Tracing.prepared {e : Csal} {pid : Pid} {r : Rig} (h : Tracing e pid r) :
    Prepared e pid r :=
  ⟨fun d hd => .inl (h.on d (List.mem_append_right _ hd)), h.cid⟩

section
variable {e : Csal} (h : e.Succeeds)

include h

/-! ## Switching on and off -/

variable {pid : Pid} {r : Rig}

theorem enableTrace_traces (ram : BitVec 64 × BitVec 64)
    (written : ∀ i < e.board.nCpu, r.ptm i = e.source i ∧
      (r.etm (e.source i)).cid = pid.signExtend 64) :
    Ensures (enableTrace e (some e.board) e.devices ram) (fun _ => Tracing e pid)
      (fun _ _ => False) r := by
  have found : sourcesIn e.board e.devices r.ptm = sources e := by
    simp only [sources, sourcesIn, List.cons.injEq, true_and]
    apply List.map_congr_left
    intro i hi
    exact (written i (List.mem_range.mp hi)).1
  have raises : ∀ c ∈ CsCall.sinkEtrSetup e.devices.etb ⟨ram.1, ram.2, e.board.etrAxictl⟩ ::
      enableSinksCalls e.devices ++ enableSourcesCalls e e.board e.devices r.ptm,
      c.raising = true := by
    simp only [List.cons_append, List.forall_mem_cons, List.forall_mem_append]
    exact ⟨rfl, enableSinks_raising, enableSources_raising⟩
  apply (ensures_of_ok (enableTrace_eq h e.board e.devices ram r)).mpr
  constructor
  · intro d hd
    apply made_switched h
    · exact fun c hc => raising_switches (raises c hc)
    · rcases List.mem_append.mp hd with hd | hd
      · obtain ⟨c, hc, sets⟩ := enableSinks_sets hd
        exact ⟨c, List.mem_append_left _ (List.mem_cons_of_mem _ hc), sets⟩
      · obtain ⟨c, hc, sets⟩ := enableSources_sets (found ▸ hd)
        exact ⟨c, List.mem_append_right _ hc, sets⟩
  · intro i hi
    have same := @made_etm e r _ fun c hc => raising_programs (raises c hc)
    exact (congrArg (fun regs => (regs (e.source i)).cid) same).trans (written i hi).2

theorem enableSinks_traces (prepared : Prepared e pid r) :
    Ensures (enableTraceSinksOnly e e.devices) (fun _ => Tracing e pid) (fun _ _ => False) r := by
  have raises : ∀ c ∈ enableSinksCalls e.devices ++ [.checkpoint], c.raising = true := by
    simp only [List.forall_mem_append, List.forall_mem_singleton]
    exact ⟨enableSinks_raising, rfl⟩
  apply (ensures_of_ok (enableTraceSinksOnly_eq h e.devices r)).mpr
  constructor
  · intro d hd
    have up : r.enabled d = true ∨ d ∈ e.devices.collecting := by
      rcases List.mem_append.mp hd with hd | hd
      · exact .inr hd
      · exact prepared.on d hd
    rcases up with up | hd
    · exact made_stays h (fun c hc => raising_switches (raises c hc)) up
    · obtain ⟨c, hc, sets⟩ := enableSinks_sets hd
      apply made_switched h (fun c hc => raising_switches (raises c hc))
      exact ⟨c, List.mem_append_left _ hc, sets⟩
  · intro i hi
    have same := @made_etm e r _ fun c hc => raising_programs (raises c hc)
    exact (congrArg (fun regs => (regs (e.source i)).cid) same).trans (prepared.cid i hi)

/-- Disabling the sinks leaves the sources on. -/
theorem disableSinks_prepared : Keeps (Prepared e pid) (disableTraceSinksOnly e e.devices) := by
  intro r prepared
  have lowers : ∀ c ∈ flushCalls e e.devices r ++ disableSinksCalls e.devices,
      c.lowering e.devices.collecting = true := by
    simp only [List.forall_mem_append]
    exact ⟨fun c hc => looking_lowering _ (flush_looking c hc), disableSinks_lowering⟩
  apply (ensures_of_ok (disableTraceSinksOnly_eq h e.devices r)).mpr
  constructor
  · intro d hd
    by_cases sink : d ∈ e.devices.collecting
    · exact .inr sink
    · left
      have same := @made_still e r _ _ fun c hc => lowering_others (lowers c hc) sink
      exact same.trans ((prepared.on d hd).resolve_right sink)
  · intro i hi
    have same := @made_etm e r _ fun c hc => lowering_programs (lowers c hc)
    exact (congrArg (fun regs => (regs (e.source i)).cid) same).trans (prepared.cid i hi)

end

section
variable {e : Csal} {pid : Pid}

theorem prepared_stable : Stable e looking (Prepared e pid) := by
  have view := stable_view e fun _ on regs =>
    (∀ d ∈ sources e, on d = true ∨ d ∈ e.devices.collecting) ∧
    ∀ i < e.board.nCpu, (regs (e.source i)).cid = pid.signExtend 64
  constructor
  · intro c r looks prepared
    have kept := view.after c r looks ⟨prepared.on, prepared.cid⟩
    exact ⟨kept.1, kept.2⟩
  · exact fun r prepared => ⟨prepared.on, prepared.cid⟩

theorem tracing_stable : Stable e looking (Tracing e pid) := by
  have view := stable_view e fun _ on regs =>
    (∀ d ∈ e.devices.collecting ++ sources e, on d = true) ∧
    ∀ i < e.board.nCpu, (regs (e.source i)).cid = pid.signExtend 64
  constructor
  · intro c r looks tracing
    have kept := view.after c r looks ⟨tracing.on, tracing.cid⟩
    exact ⟨kept.1, kept.2⟩
  · exact fun r tracing => ⟨tracing.on, tracing.cid⟩

end

/-! ## The functions of the API -/

/-- The variables that `enable_cs_trace` goes by, and the devices. -/
structure Setting (b : Option Board) (ds : Devices) (first : Bool) (R : Rig → Prop) (g : Globals) :
    Prop where
  board : g.board = b
  devices : g.devices = ds
  isFirstTrace : g.isFirstTrace = first
  rig : R g.rig

section
variable {e : Csal} {o : Settings} {b : Option Board} {ds : Devices} {first : Bool}
  {R R' : Rig → Prop}

theorem setting_ensures {α : Type} {x : Fn Rig α} {Q : α → Rig → Prop} {E : Exit → Rig → Prop}
    {g : Globals} (setting : Setting b ds first R g) (body : Ensures x Q E g.rig) :
    Ensures (onRig x) (fun a => Setting b ds first (Q a)) (fun x => Setting b ds first (E x)) g := by
  apply (ensures_zoom x).mpr
  apply body.mono
  · exact fun a r holds => ⟨setting.board, setting.devices, setting.isFirstTrace, holds⟩
  · exact fun x r holds => ⟨setting.board, setting.devices, setting.isFirstTrace, holds⟩

theorem setting_onRig {α : Type} {x : Fn Rig α} (h : Leads R R' x) :
    Leads (Setting b ds first R) (Setting b ds first R') (onRig x) :=
  fun _ setting => setting_ensures setting (h _ setting.rig)

theorem setting_state (new : TraceState) : Keeps (Setting b ds first R) (setTraceState new) :=
  keeps_modify fun _ setting =>
    ⟨setting.board, setting.devices, setting.isFirstTrace, setting.rig⟩

theorem stopTrace_setting (all : Bool)
    (attempt : ∀ board, Keeps R (bif all then disableTrace e board ds else disableTraceSinksOnly e ds))
    (reset : Keeps R csResetErrorCount) : Keeps (Setting b ds first R) (stopTrace e all) := by
  have once : Keeps (Setting b ds first R) (disableAttempt e all) := by
    intro g setting
    apply (ensures_bind _ _).mpr
    apply ensures_get.mpr
    rw [setting.devices]
    cases all
    · exact setting_onRig (attempt none) g setting
    · exact setting_onRig (attempt g.board) g setting
  exact stopTrace_leads once once (setting_onRig reset) (setting_state _)

theorem setting_dataFree : DataFree (Setting b ds first R) where
  same := fun g g' same setting => by
    have rig : g'.rig = g.rig := congrArg Core.rig same
    constructor
    · exact (congrArg Core.board same).trans setting.board
    · exact (congrArg Core.devices same).trans setting.devices
    · exact (congrArg Core.isFirstTrace same).trans setting.isFirstTrace
    · exact rig.symm ▸ setting.rig
  data := fun _ _ _ _ setting =>
    ⟨setting.board, setting.devices, setting.isFirstTrace, setting.rig⟩

theorem fetchTrace_setting (f : TraceBuffer.Fetch) (looks : Stable e looking R) :
    Keeps (Setting b ds first R) (fetchTrace e f) :=
  setting_dataFree.fetchTrace (fun _ p => setting_onRig (looks.call p)) f

theorem setting_free {α : Type} (x : Fn Rig α) :
    Keeps (Setting b ds first fun _ => True) (onRig x) :=
  setting_onRig fun r _ => ensures_const trivial x r

theorem finiTrace_setting (a : FiniAnswers) :
    Keeps (Setting b ds first fun _ => True) (finiTrace e o a) := by
  apply setting_dataFree.finiTrace fun _ _ => setting_free _
  · exact setting_state _
  · exact setting_free _

/-- The board is not set up, or set up as the library found it. -/
def OnBoard (e : Csal) (g : Globals) : Prop :=
  g.board = none ∨ g.board = some e.board ∧ g.devices = e.devices

/-- Nothing is traced yet. -/
def Fresh (e : Csal) (g : Globals) : Prop := g.isFirstTrace = true ∧ OnBoard e g

theorem fresh_onRig {α : Type} (x : Fn Rig α) : Keeps (Fresh e) (onRig x) := by
  intro g fresh
  apply (ensures_zoom x).mpr
  apply (ensures_const fresh x g.rig).mono
  · exact fun _ r fresh => fresh
  · exact fun _ r fresh => fresh

theorem fresh_coreOnly : CoreOnly (Fresh e) := by
  constructor
  intro g g' same fresh
  have board : g'.board = g.board := congrArg Core.board same
  have devices : g'.devices = g.devices := congrArg Core.devices same
  have first : g'.isFirstTrace = g.isFirstTrace := congrArg Core.isFirstTrace same
  rw [Fresh, OnBoard, board, devices, first]
  exact fresh

theorem initTrace_fresh (a : InitAnswers) : Keeps (Fresh e) (initTrace e o a) := by
  apply fresh_coreOnly.initTrace
  · exact setupNamedBoard_keeps (fresh_onRig _) fun g fresh => ⟨fresh.1, .inr ⟨rfl, rfl⟩⟩
  · exact keeps_modify fun _ fresh => fresh
  · exact fresh_onRig _

variable {pid : Pid}

theorem Setting.fresh {g : Globals} (setting : Setting (some e.board) e.devices true R g) :
    Fresh e g := ⟨setting.isFirstTrace, .inr ⟨setting.board, setting.devices⟩⟩

/-- `enable_cs_trace` after the branch that it takes: all is enabled, or it
fails with the variables `Old`. -/
theorem enableCsTrace_ensures {Old : Globals → Prop} {g : Globals}
    (shutdown : Keeps Old (onRig (call e .shutdown)))
    (branch : Ensures (bif g.isFirstTrace then enableFirst e pid else enableAgain e)
      (fun _ => Setting (some e.board) e.devices false (Tracing e pid))
      (fun x g' => Failing x ∧ Old g') g) :
    Ensures (enableCsTrace e o pid)
      (fun rc g' => (0 ≤ rc → Setting (some e.board) e.devices false (Tracing e pid) g') ∧
        (rc < 0 → Old g')) (fun x _ => x = .crash) g := by
  apply (ensures_bind _ _).mpr
  apply (ensures_enclose _).mpr
  apply (ensures_bind _ _).mpr
  apply ensures_get.mpr
  apply (ensures_bind _ _).mpr
  apply branch.mono
  · intro _ g₁ enabled
    have dumped : Ensures (when o.exportConfig (onRig (call e .dumpConfig)))
        (fun _ => Setting (some e.board) e.devices false (Tracing e pid)) (fun _ _ => False) g₁ := by
      have looks := @tracing_stable e pid
      have kept := setting_onRig (@Stable.call _ _ _ .dumpConfig looks rfl) g₁ enabled
      simp only [onRig, ensures_when, ensures_zoom, ensures_call] at kept ⊢
      exact ⟨fun _ => kept, fun _ => enabled⟩
    apply (ensures_bind _ _).mpr
    apply dumped.mono
    · intro _ g₂ enabled
      simp [enabled, -bind_pure_comp]
    · exact fun _ _ impossible => impossible.elim
  · rintro x g₁ ⟨failing, old⟩
    cases x with
    | crash => rfl
    | ret rc =>
      have negative := failing rc rfl
      have kept := shutdown g₁ old
      simp only [onRig, ensures_zoom, ensures_call] at kept
      simp only [onRig, ensures_bind, ensures_when, ensures_zoom, ensures_call, ensures_pure,
        negative, decide_true]
      exact ⟨fun _ => ⟨fun success => by omega, fun _ => kept⟩, fun impossible => by cases impossible⟩

/-- `start_trace`: the components are enabled for `pid`, or it fails. -/
theorem startTrace_ensures {Old : Globals → Prop} {use : Bool} {a : StartAnswers} {g : Globals}
    (setting : Setting b ds first R g) (asked : 0 ≤ a.affinity → use = true)
    (old : ∀ g, Setting b ds first R g → Old g) (shutdown : Keeps Old (onRig (call e .shutdown)))
    (branch : 0 ≤ a.affinity → ∀ g, Setting b ds first R g →
      Ensures (bif g.isFirstTrace then enableFirst e pid else enableAgain e)
        (fun _ => Setting (some e.board) e.devices false (Tracing e pid))
        (fun x g' => Failing x ∧ Old g') g) :
    Ensures (startTrace e o pid use a)
      (fun rc g' => (0 ≤ rc → Setting (some e.board) e.devices false (Tracing e pid) g') ∧
        (rc < 0 → Old g')) (fun _ _ => True) g := by
  apply ensures_returned
  apply (ensures_bind _ _).mpr
  apply (ensures_require _ _).mpr
  refine ⟨fun bound => ?_, fun unbound rc same => ?_⟩
  · have bound := of_decide_eq_true bound
    rw [asked bound]
    simp only [allocTraceBuf, allocKsightBuf, fetcherSize, ensures_bind (modify _), ensures_modify,
      ensures_bind (when _ _), ensures_when, if_true]
    have go (g₁ : Globals) (setting : Setting b ds first R g₁) :
        Ensures (do
          let rc ← enableCsTrace e o pid
          require (0 ≤ rc) rc
          setTraceState .runningState
          pure rc) (fun rc g' =>
            (0 ≤ rc → Setting (some e.board) e.devices false (Tracing e pid) g') ∧
            (rc < 0 → Old g'))
          (fun x g' => ∀ rc, x = .ret rc →
            (0 ≤ rc → Setting (some e.board) e.devices false (Tracing e pid) g') ∧
            (rc < 0 → Old g')) g₁ := by
      apply (ensures_bind _ _).mpr
      apply (enableCsTrace_ensures shutdown (branch bound g₁ setting)).mono
      · rintro rc g₂ ⟨enabled, failed⟩
        apply (ensures_bind _ _).mpr
        apply (ensures_require _ _).mpr
        refine ⟨fun success => ?_, fun _ rc' same => ?_⟩
        · have success := of_decide_eq_true success
          have now := enabled success
          simp only [setTraceState, ensures_bind, ensures_modify, ensures_pure]
          refine ⟨fun _ => ⟨now.board, now.devices, now.isFirstTrace, now.rig⟩, fun _ => by omega⟩
        · cases same
          exact ⟨enabled, failed⟩
      · rintro x g₂ rfl rc same
        cases same
    refine ⟨fun _ => go _ ?_, fun _ => go _ ?_⟩
    · exact ⟨setting.board, setting.devices, setting.isFirstTrace, setting.rig⟩
    · exact ⟨setting.board, setting.devices, setting.isFirstTrace, setting.rig⟩
  · cases same
    exact ⟨fun success => absurd success (of_decide_eq_false unbound), fun _ => old g setting⟩

end

section
variable {e : Csal} (h : e.Succeeds) {pid : Pid}

include h

/-- What `enable_cs_trace` finds for the first trace with the board set up. -/
theorem enableFirst_board (nonzero : pid ≠ 0) {g : Globals}
    (setting : Setting (some e.board) e.devices true (fun _ => True) g) :
    Ensures (enableFirst e pid)
      (fun _ => Setting (some e.board) e.devices false (Tracing e pid))
      (fun x g' => Failing x ∧ Fresh e g') g := by
  have configured := configureTrace_ensures h.configures nonzero e.board e.devices g.mapInfo g.rig
  apply (ensures_bind _ _).mpr
  apply ensures_get.mpr
  rw [setting.board, setting.devices]
  apply (ensures_bind _ _).mpr
  apply (setting_ensures setting configured).mono
  · intro rc g₁ configured
    apply (ensures_bind _ _).mpr
    apply (ensures_require _ _).mpr
    refine ⟨fun success => ?_, fun _ => ⟨failing_ret (by decide), configured.fresh⟩⟩
    have written := configured.rig (of_decide_eq_true success)
    have selected : ∀ i < e.board.nCpu, g₁.rig.ptm i = e.source i ∧
        (g₁.rig.etm (e.source i)).cid = pid.signExtend 64 :=
      fun i hi => ⟨(written i hi).1, (written i hi).2.cid⟩
    apply (ensures_bind _ _).mpr
    apply (setting_ensures configured (enableTrace_traces h g.etrRam selected)).mono
    · intro rc g₂ enabled
      simp only [ensures_bind, ensures_require, ensures_modify]
      refine ⟨fun _ => ?_, fun _ => ⟨failing_ret (by decide), enabled.fresh⟩⟩
      exact ⟨enabled.board, enabled.devices, rfl, enabled.rig⟩
    · exact fun _ _ impossible => impossible.rig.elim
  · intro x g₁ crashed
    exact ⟨crashed.rig ▸ failing_crash, crashed.fresh⟩

/-- The first trace is set up, or nothing has happened. -/
theorem enableFirst_ensures (nonzero : pid ≠ 0) {g : Globals} (fresh : Fresh e g) :
    Ensures (enableFirst e pid)
      (fun _ => Setting (some e.board) e.devices false (Tracing e pid))
      (fun x g' => Failing x ∧ Fresh e g') g := by
  obtain ⟨isFirst, absent | ⟨board, devices⟩⟩ := fresh
  · have refused : configureTrace e none g.devices g.mapInfo pid g.rig = .ok (-1) g.rig := rfl
    apply (ensures_bind _ _).mpr
    apply ensures_get.mpr
    rw [absent]
    apply (ensures_bind _ _).mpr
    apply (ensures_zoom _).mpr
    apply (ensures_of_ok refused).mpr
    apply (ensures_bind _ _).mpr
    apply (ensures_require _ _).mpr
    exact ⟨fun impossible => absurd impossible (by decide),
      fun _ => ⟨failing_ret (by decide), isFirst, .inl absent⟩⟩
  · exact enableFirst_board h nonzero ⟨board, devices, isFirst, trivial⟩

theorem enableAgain_ensures {g : Globals}
    (setting : Setting (some e.board) e.devices false (Prepared e pid) g) :
    Ensures (enableAgain e)
      (fun _ => Setting (some e.board) e.devices false (Tracing e pid))
      (fun x g' => Failing x ∧ Setting (some e.board) e.devices false (Prepared e pid) g') g := by
  apply (ensures_bind _ _).mpr
  apply ensures_get.mpr
  rw [setting.devices]
  apply (ensures_bind _ _).mpr
  apply (setting_ensures setting (enableSinks_traces h setting.rig)).mono
  · intro rc g₁ enabled
    apply (ensures_require _ _).mpr
    refine ⟨fun _ => enabled, fun _ => ⟨failing_ret (by decide), ?_⟩⟩
    exact ⟨enabled.board, enabled.devices, enabled.isFirstTrace, enabled.rig.prepared⟩
  · exact fun _ _ impossible => impossible.rig.elim

end

/-! ## Runs -/

section
variable {e : Csal} {R : Rig → Prop} {pid : Pid}

/-- The sources are ready for the process that the ETMs trace, if any. -/
def Readied (e : Csal) (m : Etms) (r : Rig) : Prop := ∀ pid, m = .tracing pid → Prepared e pid r

/-- What a run keeps: the variables and the ETMs are as the calls tell, and
after a `start_trace` that succeeded everything traces. -/
structure Kept (e : Csal) (h : History) : Prop where
  board : OnBoard e h.globals
  first : h.globals.isFirstTrace = decide (etms h.events = .untouched)
  found : ∀ pid, etms h.events = .tracing pid →
    h.globals.board = some e.board ∧ h.globals.devices = e.devices
  ready : Readied e (etms h.events) h.globals.rig
  traces : ∀ pid use a rc older, h.events = .returned (.startTrace pid use a) rc :: older →
    0 ≤ rc → Tracing e pid h.globals.rig

theorem Etms.stop_eq (m : Etms) : decide (m.stop = .untouched) = decide (m = .untouched) ∧
    ∀ pid, m.stop ≠ .tracing pid := by
  cases m <;> simp [Etms.stop]

/-- A call other than `start_trace` that leaves the variables alone. -/
theorem Kept.setting {hist : History} (kept : Kept e hist) {c : Api} {rc : Int} {g : Globals}
    {m : Etms} (now : etms (.returned c rc :: .called c :: hist.events) = m)
    (noStart : rc < 0 ∨ ∀ pid use a, c ≠ .startTrace pid use a)
    (same : m = etms hist.events ∨ m = (etms hist.events).stop)
    (setting : Setting hist.globals.board hist.globals.devices hist.globals.isFirstTrace
      (Readied e m) g) : Kept e ⟨g, .returned c rc :: .called c :: hist.events⟩ where
  board := by
    rw [OnBoard, setting.board, setting.devices]
    exact kept.board
  first := by
    rw [now, setting.isFirstTrace, kept.first]
    rcases same with rfl | rfl
    · rfl
    · exact (Etms.stop_eq _).1.symm
  found pid tracing := by
    rw [setting.board, setting.devices]
    rcases same with rfl | rfl
    · exact kept.found pid (now.symm.trans tracing)
    · exact absurd (now.symm.trans tracing) ((Etms.stop_eq _).2 pid)
  ready := now ▸ setting.rig
  traces pid use a rc' older events success := by
    cases events
    rcases noStart with failed | other
    · omega
    · exact absurd rfl (other pid use a)

theorem ready_stable (m : Etms) : Stable e looking (Readied e m) :=
  ⟨fun c r looks ready pid tracing => prepared_stable.after c r looks (ready pid tracing),
    fun r ready pid tracing => prepared_stable.count r (ready pid tracing)⟩

/-- As long as nothing is traced. -/
theorem Fresh.kept {g : Globals} {c : Api} {rc : Int} {events : List ApiEvent} (fresh : Fresh e g)
    (noStart : rc < 0 ∨ ∀ pid use a, c ≠ .startTrace pid use a)
    (untouched : etms (.returned c rc :: .called c :: events) = .untouched) :
    Kept e ⟨g, .returned c rc :: .called c :: events⟩ where
  board := fresh.2
  first := by rw [fresh.1, untouched]; rfl
  found pid tracing := by rw [untouched] at tracing; cases tracing
  ready pid tracing := by rw [untouched] at tracing; cases tracing
  traces pid use a rc' older same success := by
    cases same
    rcases noStart with failed | other
    · omega
    · exact absurd rfl (other pid use a)

theorem fresh_same {g g' : Globals} (fresh : Fresh e g)
    (setting : Setting g.board g.devices g.isFirstTrace R g') : Fresh e g' := by
  refine ⟨setting.isFirstTrace.trans fresh.1, ?_⟩
  rw [OnBoard, setting.board, setting.devices]
  exact fresh.2

/-- After a `start_trace` that succeeded. -/
theorem kept_started {g : Globals} {use : Bool} {a : StartAnswers} {rc : Int}
    {events : List ApiEvent} (setting : Setting (some e.board) e.devices false (Tracing e pid) g)
    (tracing : etms (.returned (.startTrace pid use a) rc :: .called (.startTrace pid use a) ::
      events) = .tracing pid) :
    Kept e ⟨g, .returned (.startTrace pid use a) rc :: .called (.startTrace pid use a) ::
      events⟩ where
  board := .inr ⟨setting.board, setting.devices⟩
  first := by rw [setting.isFirstTrace, tracing]; rfl
  found _ _ := ⟨setting.board, setting.devices⟩
  ready pid' same := by
    cases tracing.symm.trans same
    exact setting.rig.prepared
  traces pid' use' a' rc' older same _ := by
    cases same
    exact setting.rig

end

section
variable {e : Csal} {o : Settings} {ds : Devices} (h : e.Succeeds) {pid : Pid}

include h

theorem ready_disableSinks {m : Etms} (found : ∀ pid, m = .tracing pid → ds = e.devices) :
    Keeps (Readied e m) (disableTraceSinksOnly e ds) := by
  by_cases tracing : ∃ pid, m = .tracing pid
  · obtain ⟨pid, rfl⟩ := tracing
    rw [found pid rfl]
    intro r ready
    apply (disableSinks_prepared h r (ready pid rfl)).mono
    · intro _ r' prepared pid' same
      cases same
      exact prepared
    · intro _ r' prepared pid' same
      cases same
      exact prepared
  · have none (r : Rig) : Readied e m r := fun pid same => absurd ⟨pid, same⟩ tracing
    intro r _
    exact (ensures_const trivial _ r).mono (fun _ r' _ => none r') (fun _ r' _ => none r')

theorem kept_stop {hist hist' : History} (kept : Kept e hist) {all : Bool}
    (moved : step e o hist (.stopTrace all) = some hist') : Kept e hist' := by
  let m := bif all then (etms hist.events).stop else etms hist.events
  have now (rc : Int) :
      etms (.returned (.stopTrace all) rc :: .called (.stopTrace all) :: hist.events) = m := by
    cases all <;> rfl
  have same : m = etms hist.events ∨ m = (etms hist.events).stop := by
    cases all
    · exact .inl rfl
    · exact .inr rfl
  have attempt (board : Option Board) : Keeps (Readied e m) (bif all then
      disableTrace e board hist.globals.devices
      else disableTraceSinksOnly e hist.globals.devices) := by
    cases all
    · exact ready_disableSinks h fun pid tracing => (kept.found pid tracing).2
    · have none (r : Rig) : Readied e m r := fun pid same => absurd same ((Etms.stop_eq _).2 pid)
      intro r _
      exact (ensures_const trivial _ r).mono (fun _ r' _ => none r') (fun _ r' _ => none r')
  have start : Setting hist.globals.board hist.globals.devices hist.globals.isFirstTrace (Readied e m)
      hist.globals := by
    refine ⟨rfl, rfl, rfl, ?_⟩
    rcases same with same | same
    · exact same ▸ kept.ready
    · exact fun pid tracing => absurd (same.symm.trans tracing) ((Etms.stop_eq _).2 pid)
  have body := stopTrace_setting all attempt (keeps_modify fun r ready pid tracing =>
    ⟨(ready pid tracing).on, (ready pid tracing).cid⟩) _ start
  exact (@step_ensures e o (.stopTrace all) hist (Kept e) _ hist' moved (body.mono
    (fun rc g setting => kept.setting (now rc) (.inr fun _ _ _ other => by cases other) same
      setting)
    (fun _ _ left => left))).2

theorem kept_start {hist hist' : History} (kept : Kept e hist) {use : Bool}
    {a : StartAnswers} (allowed : sameProcess hist (.startTrace pid use a) = true)
    (moved : step e o hist (.startTrace pid use a) = some hist') : Kept e hist' := by
  have done (body : Ensures (startTrace e o pid use a) (fun rc g =>
      Kept e ⟨g, .returned (.startTrace pid use a) rc :: .called (.startTrace pid use a) ::
        hist.events⟩) (fun _ _ => True) hist.globals) : Kept e hist' :=
    (@step_ensures e o (.startTrace pid use a) hist (Kept e) _ hist' moved body).2
  have start : Setting hist.globals.board hist.globals.devices hist.globals.isFirstTrace
      (Readied e (etms hist.events)) hist.globals := ⟨rfl, rfl, rfl, kept.ready⟩
  simp only [sameProcess, Bool.or_eq_true, Bool.and_eq_true, decide_eq_true_eq, bne_iff_ne] at allowed
  rcases allowed with unbound | ⟨⟨asked, nonzero⟩, untouched | tracing⟩
  · apply done
    apply (ensures_enclose _).mpr
    apply (ensures_bind _ _).mpr
    apply (ensures_require _ _).mpr
    refine ⟨fun bound => absurd (of_decide_eq_true bound) (by omega), fun _ => ?_⟩
    have now : etms (.returned (.startTrace pid use a) a.affinity ::
        .called (.startTrace pid use a) :: hist.events) = etms hist.events := by
      simp [etms, show ¬ 0 ≤ a.affinity by omega]
    exact kept.setting now (.inl unbound) (.inl rfl) start
  · have fresh : Fresh e hist.globals := by
      refine ⟨?_, kept.board⟩
      rw [kept.first, untouched]
      rfl
    have branch (g : Globals) (setting : Setting hist.globals.board hist.globals.devices
        hist.globals.isFirstTrace (Readied e (etms hist.events)) g) :
        Ensures (bif g.isFirstTrace then enableFirst e pid else enableAgain e)
          (fun _ => Setting (some e.board) e.devices false (Tracing e pid))
          (fun x g' => Failing x ∧ Fresh e g') g := by
      have here := fresh_same fresh setting
      rw [here.1]
      exact enableFirst_ensures h nonzero here
    apply done
    apply (startTrace_ensures start (fun _ => asked) (fun g => fresh_same fresh)
      (fresh_onRig _) (fun _ => branch)).mono
    · rintro rc g ⟨success, failure⟩
      by_cases negative : rc < 0
      · apply (failure negative).kept (.inl negative)
        simp [etms, untouched, show ¬ 0 ≤ rc by omega]
      · apply kept_started (success (by omega))
        simp [etms, untouched, show 0 ≤ rc by omega]
    · exact fun _ _ _ => trivial
  · have first : hist.globals.isFirstTrace = false := by
      rw [kept.first, tracing]
      rfl
    obtain ⟨board, devices⟩ := kept.found pid tracing
    have prepared : Setting (some e.board) e.devices false (Prepared e pid) hist.globals :=
      ⟨board, devices, first, kept.ready pid tracing⟩
    have branch (g : Globals) (setting : Setting (some e.board) e.devices false (Prepared e pid) g) :
        Ensures (bif g.isFirstTrace then enableFirst e pid else enableAgain e)
          (fun _ => Setting (some e.board) e.devices false (Tracing e pid))
          (fun x g' => Failing x ∧ Setting (some e.board) e.devices false (Prepared e pid) g') g := by
      rw [setting.isFirstTrace]
      exact enableAgain_ensures h setting
    have shutdown : Keeps (Setting (some e.board) e.devices false (Prepared e pid))
        (onRig (call e .shutdown)) := by
      apply setting_onRig
      intro r ready
      apply ensures_call.mpr
      rw [after_performs h]
      exact ⟨ready.on, ready.cid⟩
    apply done
    apply (startTrace_ensures prepared (fun _ => asked) (fun g same => same) shutdown
      (fun _ => branch)).mono
    · rintro rc g ⟨success, failure⟩
      by_cases negative : rc < 0
      · have now : etms (.returned (.startTrace pid use a) rc :: .called (.startTrace pid use a) ::
            hist.events) = etms hist.events := by simp [etms, tracing]
        have same := failure negative
        apply kept.setting now (.inl negative) (.inl rfl)
        refine ⟨same.board.trans board.symm, same.devices.trans devices.symm,
          same.isFirstTrace.trans first.symm, ?_⟩
        intro pid' tracing'
        cases tracing.symm.trans tracing'
        exact same.rig
      · apply kept_started (success (by omega))
        simp [etms, tracing]
    · exact fun _ _ _ => trivial

theorem kept_step {hist hist' : History} {c : Api} (allowed : sameProcess hist c = true)
    (moved : step e o hist c = some hist') (kept : Kept e hist) : Kept e hist' := by
  have start : Setting hist.globals.board hist.globals.devices hist.globals.isFirstTrace
      (Readied e (etms hist.events)) hist.globals := ⟨rfl, rfl, rfl, kept.ready⟩
  have done (body : Ensures (c.body e o)
      (fun rc g => Kept e ⟨g, .returned c rc :: .called c :: hist.events⟩) (fun _ _ => True)
      hist.globals) : Kept e hist' := (@step_ensures e o c hist (Kept e) _ hist' moved body).2
  cases c with
  | initTrace a =>
    have admitted := (@step_ensures e o (.initTrace a) hist (fun _ => True) _ hist' moved
      (ensures_const trivial _ _)).1
    have none : hist.events = [] := by
      cases events : hist.events with
      | nil => rfl
      | cons v older =>
        rw [events] at admitted
        simp [admits] at admitted
    have fresh : Fresh e hist.globals := by
      refine ⟨?_, kept.board⟩
      rw [kept.first, none]
      rfl
    apply done
    apply (initTrace_fresh a _ fresh).mono
    · intro rc g fresh
      apply fresh.kept (.inr fun _ _ _ other => by cases other)
      rw [none]
      rfl
    · exact fun _ _ _ => trivial
  | startTrace pid use a => exact kept_start h kept allowed moved
  | stopTrace all => exact kept_stop h kept moved
  | fetchTrace f =>
    apply done
    apply (fetchTrace_setting f (ready_stable (etms hist.events)) _ start).mono
    · intro rc g setting
      exact kept.setting rfl (.inr fun _ _ _ other => by cases other) (.inl rfl) setting
    · exact fun _ _ _ => trivial
  | traceSuspendCallback | traceResumeCallback =>
    apply done
    apply (((setting_state _).bind fun _ => keeps_pure _) _ start).mono
    · intro rc g setting
      exact kept.setting rfl (.inr fun _ _ _ other => by cases other) (.inl rfl) setting
    · exact fun _ _ _ => trivial
  | finiTrace a =>
    apply done
    apply (finiTrace_setting a _ ⟨rfl, rfl, rfl, trivial⟩).mono
    · intro rc g setting
      apply kept.setting rfl (.inr fun _ _ _ other => by cases other) (.inr rfl)
      refine ⟨setting.board, setting.devices, setting.isFirstTrace, fun pid tracing => ?_⟩
      exact absurd tracing ((Etms.stop_eq _).2 pid)
    · exact fun _ _ _ => trivial

/-- **Every session traces.** When every call succeeds and each `start_trace`
is for the process of the first one, with no `stop_trace(true)` in between,
then after every `start_trace` that returned no error all components are
enabled and the ETMs select its process. -/
theorem every_session_traces {rig : Rig} {traceCpu : Int} {hist : History}
    (reached : Reach (step e o) sameProcess (.initial rig traceCpu) hist) {use : Bool}
    {a : StartAnswers} {rc : Int} {older : List ApiEvent}
    (last : hist.events = .returned (.startTrace pid use a) rc :: older) (success : 0 ≤ rc) :
    Tracing e pid hist.globals.rig := by
  have first : Kept e (.initial rig traceCpu) :=
    ⟨.inl rfl, rfl, (fun _ tracing => by cases tracing), (fun _ tracing => by cases tracing),
      fun _ _ _ _ _ none => by cases none⟩
  have kept := reached.invariant first fun s c t kept allowed moved =>
    kept_step h allowed moved kept
  exact kept.traces pid use a rc older last success

end

/-- The last event is the end of a `start_trace` for `pid` that succeeded. -/
def startedFor (pid : Pid) : List ApiEvent → Bool
  | .returned (.startTrace p _ _) rc :: _ => p == pid && decide (0 ≤ rc)
  | _ => false

theorem startedFor_spec {pid : Pid} {events : List ApiEvent} (h : startedFor pid events = true) :
    ∃ use a rc older, events = .returned (.startTrace pid use a) rc :: older ∧ 0 ≤ rc := by
  unfold startedFor at h
  split at h
  · simp only [Bool.and_eq_true, beq_iff_eq, decide_eq_true_eq] at h
    obtain ⟨rfl, success⟩ := h
    exact ⟨_, _, _, _, rfl, success⟩
  · cases h

/-- Two sessions for one process, with the sinks disabled between them. -/
theorem second_session_traces : ∃ hist,
    Reach (step zcu104 plain) sameProcess (.initial .idle (-1)) hist ∧
    startedFor 42 hist.events = true ∧ Tracing zcu104 42 hist.globals.rig := by
  have run : (exec (step zcu104 plain) sameProcess (.initial .idle (-1))
      [.initTrace healthy.init, .startTrace 42 true healthy.start, .stopTrace false,
        .startTrace 42 true healthy.start]).any (fun hist => startedFor 42 hist.events) = true := by
    decide +kernel
  obtain ⟨hist, reached, started⟩ := reach_of_exec run
  obtain ⟨use, a, rc, older, last, success⟩ := startedFor_spec started
  exact ⟨hist, reached, started, every_session_traces (fun _ _ => rfl) reached last success⟩

/-- After `stop_trace(true)` the next session has its ETMs disabled. -/
theorem session_without_etms : ∃ hist,
    Reach (step zcu104 plain) (fun _ _ => true) (.initial .idle (-1)) hist ∧
    ∃ pid use a rc older, hist.events = .returned (.startTrace pid use a) rc :: older ∧
      0 ≤ rc ∧ ¬ Tracing zcu104 pid hist.globals.rig := by
  have run : (exec (step zcu104 plain) (fun _ _ => true) (.initial .idle (-1))
      [.initTrace healthy.init, .startTrace 42 true healthy.start, .stopTrace true,
        .startTrace 42 true healthy.start]).any (fun hist => startedFor 42 hist.events &&
        !hist.globals.rig.enabled 6) = true := by
    decide +kernel
  obtain ⟨hist, reached, wrong⟩ := reach_of_exec run
  simp only [Bool.and_eq_true, Bool.not_eq_true'] at wrong
  obtain ⟨use, a, rc, older, last, success⟩ := startedFor_spec wrong.1
  refine ⟨hist, reached, 42, use, a, rc, older, last, success, fun tracing => ?_⟩
  have on := tracing.on 6 (by decide)
  rw [wrong.2] at on
  cases on

end Ultrasight.Session
