import Ultrasight.Retrace
import Ultrasight.SwitchedOff
import Ultrasight.TraceCpu
import Ultrasight.Wiring

/-!
# Whose trace it is

All sources write into one trace, and only the ID under which a source does so tells
its part from the others'. The IDs are set at the first trace; the one of the CPU
that the tracee is bound to is worked out on its own, by `get_trace_id`.

* `streams_apart_iff`: the sources can be told apart on up to 16 CPUs;
* `tracee_stream`: `trace_id` is the ID of the CPU that the tracee runs on.
-/

namespace Ultrasight

/-- The calls that name a source. -/
def CsCall.labels : CsCall → Bool
  | .setTraceSourceId .. => true
  | _ => false

theorem CsCall.inert_labels {c : CsCall} (inert : c.inert = true) : c.labels = false := by
  cases c with
  | setTraceSourceId d id => cases inert
  | _ => rfl

namespace Session

open Fn CsCall

/-- The ID that a source accepted last, among these calls. -/
def traceSourceId (e : Csal) : List CsCall → Dev → Option Nat
  | [], _ => none
  | .setTraceSourceId d' id :: older, d =>
    if d' = d ∧ 0 ≤ (e.answer older (.setTraceSourceId d' id)).rc then some id
    else traceSourceId e older d
  | _ :: older, d => traceSourceId e older d

/-- Each source has the ID that `configure_trace` means it to have. -/
structure Labelled (e : Csal) (calls : List CsCall) : Prop where
  stm : traceSourceId e calls e.devices.itm = some 0x20
  cpu : ∀ i < e.board.nCpu, traceSourceId e calls (e.source i) = some (0x10 + i)

variable {e : Csal} {o : Settings} {calls : List CsCall} {c : CsCall}

theorem traceSourceId_other (other : c.labels = false) :
    traceSourceId e (c :: calls) = traceSourceId e calls := by
  funext d
  cases c with
  | setTraceSourceId d' id => cases other
  | _ => rfl

theorem traceSourceId_set {d : Dev} {id : Nat}
    (accepted : 0 ≤ (e.answer calls (.setTraceSourceId d id)).rc) :
    traceSourceId e (.setTraceSourceId d id :: calls) =
      Function.update (traceSourceId e calls) d (some id) := by
  funext d'
  simp only [traceSourceId, accepted, and_true, Function.update_apply, eq_comm]

/-! ## The devices -/

section
variable {ids : Dev → Option Nat} {r : Rig}

/-- The sources have these IDs. -/
def Ids (e : Csal) (ids : Dev → Option Nat) (r : Rig) : Prop := traceSourceId e r.calls = ids

theorem ids_walk : Walk e e.registrationVerbose (fun c => c.labels = false)
    fun {α} (x _ : Fn Rig α) => Keeps (Ids e ids) x where
  toClosed := keeps_closed
  op := fun _ other _ inv => ensures_op.mpr ((traceSourceId_other other).trans inv)
  log := keeps_modify fun _ inv => (traceSourceId_other rfl).trans inv
  look := fun _ rest => keeps_get.bind rest

theorem ids_showEtmConfig (etm : Dev) : Keeps (Ids e ids) (showEtmConfig e etm) :=
  keeps_showEtmConfig ids_walk (fun _ _ inert => inert_labels inert) etm

theorem ids_initEtm (dev : Dev) : Keeps (Ids e ids) (initEtm e dev) :=
  ids_walk.initEtm (fun _ _ _ inert => inert_labels inert) (keeps_assert _) (keeps_assert _)

/-- The first loop of `configure_trace` names the source of one CPU, or leaves. -/
theorem preparePtm_names (i : Nat) : Ensures (preparePtm e i)
    (fun _ => Ids e (Function.update (traceSourceId e r.calls) (e.source i) (some (0x10 + i))))
    (fun x _ => Failing x) r := by
  simp only [preparePtm, csCpuGetDevice, ensures_bind, ensures_op, ensures_pure, ensures_modify,
    ensures_require]
  by_cases found : (e.answer r.calls (.cpuGetDevice i)).rc = 0
  · simp only [found, if_true]
    refine ⟨fun _ => ⟨fun accepted => ?_, fun _ => failing_ret (by decide)⟩,
      fun _ => failing_ret (by decide)⟩
    have looked : traceSourceId e (.cpuGetDevice i :: r.calls) = traceSourceId e r.calls :=
      traceSourceId_other rfl
    have named := traceSourceId_set (of_decide_eq_true accepted)
    rw [after_calls, looked] at named
    have init := @ids_initEtm e (Function.update (traceSourceId e r.calls) (e.source i)
      (some (0x10 + i))) (e.source i)
    refine Ensures.mono ((init _ ?_).and (through_enclose _ _)) ?_ ?_
    · exact named
    · exact fun _ _ inv => ⟨fun _ => inv.1, fun _ => failing_ret (by decide)⟩
    · rintro _ _ ⟨-, rfl⟩
      exact failing_crash
  · simp only [found, if_false, bne_self_eq_false, Bool.false_eq_true, false_implies, true_and]
    exact fun _ => failing_ret (by decide)

/-- The loop names the sources of all CPUs. -/
theorem preparePtms_name (apart : (sources e).Nodup) :
    Ensures (each (List.range e.board.nCpu) (preparePtm e))
      (fun _ r' => ∀ i < e.board.nCpu,
        traceSourceId e r'.calls (e.source i) = some (0x10 + i))
      (fun x _ => Failing x) r := by
  have distinct : (List.range e.board.nCpu).Pairwise fun i j => e.source i ≠ e.source j :=
    List.pairwise_map.mp (List.nodup_cons.mp apart).2
  have loop : Ensures (each (List.range e.board.nCpu) (preparePtm e))
      (fun _ r' => ∀ i ∈ List.range e.board.nCpu,
        traceSourceId e r'.calls (e.source i) = some (0x10 + i))
      (fun x _ => Failing x) r := by
    apply ensures_each fun (done : List Nat) (r' : Rig) =>
      ∀ i ∈ done, traceSourceId e r'.calls (e.source i) = some (0x10 + i)
    · intro done i rest split r₁ named
      apply (preparePtm_names i).mono _ fun _ _ failing => failing
      intro _ r₂ ids j member
      rw [show traceSourceId e r₂.calls = _ from ids]
      obtain before | last := List.mem_append.mp member
      · have other : e.source j ≠ e.source i := by
          rw [split] at distinct
          exact (List.pairwise_append.mp distinct).2.2 j before i List.mem_cons_self
        rw [Function.update_of_ne other]
        exact named j before
      · obtain rfl := List.mem_singleton.mp last
        exact Function.update_self _ _ _
    · exact List.forall_mem_nil _
  apply loop.mono _ fun _ _ failing => failing
  exact fun _ _ named i below => named i (List.mem_range.mpr below)

/-- `configure_trace` names all sources, or fails. -/
theorem configureTrace_labels (apart : (sources e).Nodup) (range : MapInfo) (pid : BitVec 32) :
    Ensures (configureTrace e (some e.board) e.devices range pid)
      (fun rc r' => 0 ≤ rc → Labelled e r'.calls) (fun _ _ => True) r := by
  have rest (ids : Dev → Option Nat) : Keeps (Ids e ids) (do
      call e .checkpoint
      each (List.range e.board.nCpu) (programPtm e range pid)
      let ffcrVal ← csDeviceRead e e.devices.etb .flfmtCtrl
      call e (.deviceWrite e.devices.etb .flfmtCtrl (ffcrVal ||| e.stopFl))
      checkErrors
      pure (0 : Int)) := by
    apply Leads.bind (ids_walk.call rfl)
    intro _
    apply Leads.bind
    · apply keeps_each
      intro i _
      apply ids_walk.programPtm fun _ _ _ inert => inert_labels inert
      exact fun etm _ => keeps_when _ (ids_showEtmConfig etm)
    intro _
    apply Leads.bind (ids_walk.csDeviceRead rfl)
    intro _
    apply Leads.bind (ids_walk.call rfl)
    exact fun _ => ids_walk.checked
  have left (x : Exit) (r' : Rig) (failing : Failing x) (rc : Int) (early : x = .ret rc)
      (success : 0 ≤ rc) : Labelled e r'.calls :=
    absurd (failing rc early) (by omega)
  apply ensures_returned
  apply (ensures_bind _ _).mpr
  apply ensures_call.mpr
  apply (ensures_bind _ _).mpr
  apply ensures_call.mpr
  apply (ensures_bind _ _).mpr
  apply (preparePtms_name apart).mono _ left
  intro _ r₁ cpus
  apply (ensures_bind _ _).mpr
  apply ensures_op.mpr
  apply (ensures_bind _ _).mpr
  apply (ensures_require _ _).mpr
  refine ⟨fun accepted => ?_, fun _ => left _ _ (failing_ret (by decide))⟩
  have stm := traceSourceId_set (of_decide_eq_true accepted)
  have labelled (r' : Rig) (ids : traceSourceId e r'.calls =
      Function.update (traceSourceId e r₁.calls) e.devices.itm (some 0x20)) :
      Labelled e r'.calls := by
    constructor
    · rw [ids, Function.update_self]
    · intro i below
      have other : e.source i ≠ e.devices.itm := fun same =>
        (List.nodup_cons.mp apart).1 (same ▸ List.mem_map_of_mem (List.mem_range.mpr below))
      rw [ids, Function.update_of_ne other]
      exact cpus i below
  apply (rest _ (r₁.after e (.setTraceSourceId e.devices.itm 0x20)) stm).mono
  · exact fun _ r' ids _ => labelled r' ids
  · exact fun _ r' ids _ _ _ => labelled r' ids

theorem ids_enableTrace (board : Option Board) (devices : Devices) (ram : BitVec 64 × BitVec 64) :
    Keeps (Ids e ids) (enableTrace e board devices ram) := by
  apply ids_walk.enableTrace fun _ _ _ inert => inert_labels inert
  · exact fun _ _ => rfl
  · exact keeps_when _ (ids_walk.call rfl)

theorem ids_disableTrace (board : Option Board) (devices : Devices) :
    Keeps (Ids e ids) (disableTrace e board devices) := by
  cases board with
  | none => exact (keeps_ret _).enclose
  | some board =>
    apply ids_walk.disableTrace ids_walk.opens (ids_walk.call rfl)
    · exact fun _ _ _ inert => inert_labels inert
    · apply keeps_when
      apply keeps_each
      exact fun i _ => keeps_get.bind fun r => ids_showEtmConfig (r.ptm i)

end

/-! ## The variables -/

/-- Once all was enabled, all sources are named. -/
structure Named (e : Csal) (g : Globals) : Prop where
  board : g.board = none ∨ g.board = some e.board ∧ g.devices = e.devices
  labelled : g.isFirstTrace = false → Labelled e g.rig.calls

section
variable {g : Globals} {α : Type}

theorem Named.same {g' : Globals} (h : Named e g) (rig : g'.rig = g.rig)
    (board : g'.board = g.board) (devices : g'.devices = g.devices)
    (first : g'.isFirstTrace = g.isFirstTrace) : Named e g' := by
  obtain ⟨found, labelled⟩ := h
  rw [← board, ← devices] at found
  rw [← rig, ← first] at labelled
  exact ⟨found, labelled⟩

theorem named_coreOnly : CoreOnly (Named e) :=
  ⟨fun _ _ same h => h.same (congrArg Core.rig same) (congrArg Core.board same)
    (congrArg Core.devices same) (congrArg Core.isFirstTrace same)⟩

theorem named_wiringOnly : WiringOnly (Named e) :=
  ⟨fun _ _ same h => h.same (congrArg Wiring.rig same) (congrArg Wiring.board same)
    (congrArg Wiring.devices same) (congrArg Wiring.isFirstTrace same)⟩

theorem named_onRig {x : Fn Rig α} (keeps : ∀ ids, Keeps (Ids e ids) x) :
    Keeps (Named e) (onRig x) := by
  intro g inv
  have same {r : Rig} (ids : Ids e (traceSourceId e g.rig.calls) r) : Named e { g with rig := r } := by
    refine ⟨inv.board, fun again => ?_⟩
    obtain ⟨stm, cpu⟩ := inv.labelled again
    have ids : traceSourceId e r.calls = traceSourceId e g.rig.calls := ids
    constructor
    · rw [ids]
      exact stm
    · intro i below
      rw [ids]
      exact cpu i below
  apply (ensures_zoom x).mpr
  apply (keeps _ g.rig rfl).mono
  · exact fun _ _ => same
  · exact fun _ _ => same

theorem named_call (other : c.labels = false) : Keeps (Named e) (onRig (call e c)) :=
  named_onRig fun _ => ids_walk.call other

theorem named_initTrace (a : InitAnswers) : Keeps (Named e) (initTrace e o a) := by
  apply named_coreOnly.initTrace _ (named_wiringOnly.setTraceState _) (named_call rfl)
  apply setupNamedBoard_keeps
  · exact named_onRig fun _ => ids_walk.op _ rfl
  · exact fun g inv => ⟨.inr ⟨rfl, rfl⟩, inv.labelled⟩

theorem named_stopTrace (all : Bool) : Keeps (Named e) (stopTrace e all) := by
  have attempt : Keeps (Named e) (disableAttempt e all) := by
    apply keeps_get.bind
    intro g
    cases all with
    | false =>
      apply named_onRig
      exact fun _ => ids_walk.disableTraceSinksOnly fun _ _ _ inert => inert_labels inert
    | true => exact named_onRig fun _ => ids_disableTrace _ _
  have reset : Keeps (Named e) (onRig csResetErrorCount) :=
    named_onRig fun _ => keeps_modify fun _ inv => (traceSourceId_other rfl).trans inv
  exact stopTrace_leads attempt attempt reset (named_wiringOnly.setTraceState _)

/-- The first trace names the sources. -/
theorem enableFirst_names (apart : (sources e).Nodup) (first : g.isFirstTrace = true)
    (inv : Named e g) (pid : Parent.Pid) :
    Ensures (enableFirst e pid) (fun _ g' => Named e g' ∧ g'.isFirstTrace = false)
      (fun x g' => Named e g' ∧ Failing x) g := by
  have early (r : Rig) : Named e { g with rig := r } :=
    ⟨inv.board, fun again => absurd (first.symm.trans again) Bool.noConfusion⟩
  have configured : Ensures (configureTrace e g.board g.devices g.mapInfo pid)
      (fun rc r => 0 ≤ rc → Labelled e r.calls) (fun x _ => x = .crash) g.rig := by
    obtain none | ⟨board, devices⟩ := inv.board
    · rw [none]
      apply (ensures_enclose _).mpr
      apply (ensures_ret _).mpr
      exact fun success => absurd success (by decide)
    · rw [board, devices]
      apply ((configureTrace_labels apart g.mapInfo pid).and (through_enclose _ _)).mono
      · exact fun _ _ labelled => labelled.1
      · exact fun _ _ died => died.2
  apply (ensures_bind _ _).mpr
  apply ensures_get.mpr
  apply (ensures_bind _ _).mpr
  apply (ensures_zoom _).mpr
  apply configured.mono
  · intro rc r labelled
    apply (ensures_bind _ _).mpr
    apply (ensures_require _ _).mpr
    refine ⟨fun success => ?_, fun _ => ⟨early r, failing_ret (by decide)⟩⟩
    apply (ensures_bind _ _).mpr
    apply (ensures_zoom _).mpr
    apply ((ids_enableTrace g.board g.devices g.etrRam r rfl).and (through_enclose _ r)).mono
    · rintro rc r' ⟨ids, -⟩
      simp only [ensures_bind, ensures_require, ensures_modify, and_true]
      refine ⟨fun _ => ⟨inv.board, fun _ => ?_⟩, fun _ => ⟨early r', failing_ret (by decide)⟩⟩
      obtain ⟨stm, cpu⟩ := labelled (of_decide_eq_true success)
      have ids : traceSourceId e r'.calls = traceSourceId e r.calls := ids
      exact ⟨ids ▸ stm, fun i below => ids ▸ cpu i below⟩
    · rintro _ r' ⟨-, rfl⟩
      exact ⟨early r', failing_crash⟩
  · rintro _ r rfl
    exact ⟨early r, failing_crash⟩

/-- The sinks alone are only enabled later. -/
theorem enableAgain_names (later : g.isFirstTrace = false) (inv : Named e g) :
    Ensures (enableAgain e) (fun _ g' => Named e g' ∧ g'.isFirstTrace = false)
      (fun x g' => Named e g' ∧ Failing x) g := by
  have named : Keeps (Named e) (onRig (enableTraceSinksOnly e g.devices)) :=
    named_onRig fun _ => ids_walk.enableTraceSinksOnly (fun _ _ _ inert => inert_labels inert) _
  have sinks := named g inv
  apply (ensures_bind _ _).mpr
  apply ensures_get.mpr
  apply (ensures_bind _ _).mpr
  apply (ensures_zoom _).mpr
  apply (((ensures_zoom _).mp sinks).and (through_enclose _ _)).mono
  · rintro rc r ⟨named, -⟩
    apply (ensures_require _ _).mpr
    exact ⟨fun _ => ⟨named, later⟩, fun _ => ⟨named, failing_ret (by decide)⟩⟩
  · rintro _ r ⟨named, rfl⟩
    exact ⟨named, failing_crash⟩

/-- Where it succeeds, all has been enabled at some time. -/
theorem enableCsTrace_names (apart : (sources e).Nodup) (inv : Named e g) (pid : Parent.Pid) :
    Ensures (enableCsTrace e o pid)
      (fun rc g' => Named e g' ∧ (0 ≤ rc → g'.isFirstTrace = false))
      (fun x g' => Named e g' ∧ x = .crash) g := by
  have branch : Ensures (bif g.isFirstTrace then enableFirst e pid else enableAgain e)
      (fun _ g' => Named e g' ∧ g'.isFirstTrace = false)
      (fun x g' => Named e g' ∧ Failing x) g := by
    cases first : g.isFirstTrace with
    | false => exact enableAgain_names first inv
    | true => exact enableFirst_names apart first inv pid
  have components : Ensures (enableComponents e o pid)
      (fun rc g' => Named e g' ∧ (0 ≤ rc → g'.isFirstTrace = false))
      (fun x g' => Named e g' ∧ x = .crash) g := by
    apply ensures_ended
    apply (ensures_bind _ _).mpr
    apply ensures_get.mpr
    apply (ensures_bind _ _).mpr
    apply branch.mono
    · rintro _ g₁ ⟨named, enabled⟩
      simp only [onRig, ensures_bind, ensures_when, ensures_zoom, ensures_call, ensures_pure]
      refine ⟨fun _ => ⟨?_, fun _ => enabled⟩, fun _ => ⟨named, fun _ => enabled⟩⟩
      have dumped := @named_call e .dumpConfig rfl g₁ named
      simpa only [onRig, ensures_zoom, ensures_call] using dumped
    · rintro x g₁ ⟨named, failing⟩
      refine ⟨fun rc left => ⟨named, fun success => ?_⟩, fun _ => ⟨named, rfl⟩⟩
      have := failing rc left
      omega
  apply (ensures_bind _ _).mpr
  apply components.mono _ fun _ _ died => died
  rintro rc g₁ ⟨named, enabled⟩
  simp only [onRig, ensures_bind, ensures_when, ensures_zoom, ensures_call, ensures_pure]
  refine ⟨fun failed => ⟨?_, fun success => ?_⟩, fun _ => ⟨named, enabled⟩⟩
  · have shut := @named_call e .shutdown rfl g₁ named
    simpa only [onRig, ensures_zoom, ensures_call] using shut
  · have := of_decide_eq_true failed
    omega

theorem named_enableCsTrace (apart : (sources e).Nodup) (pid : Parent.Pid) :
    Keeps (Named e) (enableCsTrace e o pid) := by
  intro g inv
  apply (enableCsTrace_names apart inv pid).mono
  · exact fun _ _ names => names.1
  · exact fun _ _ died => died.1

theorem body_named (apart : (sources e).Nodup) (api : Api) : Keeps (Named e) (api.body e o) := by
  apply named_wiringOnly.body fun _ _ inert => named_call (inert_labels inert)
  · exact fun a _ => named_initTrace a
  · exact fun _ _ _ _ => keeps_modify fun _ inv => inv.same rfl rfl rfl rfl
  · exact named_enableCsTrace apart
  · exact named_stopTrace
  · exact named_call rfl

/-- A start that succeeds has enabled all, or did so before. -/
theorem startTrace_enabled (apart : (sources e).Nodup) (inv : Named e g) (pid : Parent.Pid)
    (use : Bool) (a : StartAnswers) :
    Ensures (startTrace e o pid use a) (fun rc g' => 0 ≤ rc → g'.isFirstTrace = false)
      (fun _ _ => True) g := by
  have enable (g' : Globals) (named : Named e g') : Ensures (do
      let rc ← enableCsTrace e o (if use then pid else 0)
      require (0 ≤ rc) rc
      setTraceState .runningState
      pure rc) (fun rc g' => 0 ≤ rc → g'.isFirstTrace = false)
        (fun x g' => ∀ rc, x = .ret rc → 0 ≤ rc → g'.isFirstTrace = false) g' := by
    apply (ensures_bind _ _).mpr
    apply (enableCsTrace_names apart named _).mono
    · rintro rc g₁ ⟨-, enabled⟩
      simp only [setTraceState, ensures_bind, ensures_require, ensures_modify, ensures_pure]
      refine ⟨fun _ => enabled, fun failed => ?_⟩
      rintro _ ⟨⟩ success
      exact absurd success (of_decide_eq_false failed)
    · rintro _ g₁ ⟨-, rfl⟩ rc ⟨⟩
  apply ensures_returned
  simp only [allocTraceBuf, allocKsightBuf, fetcherSize, ensures_bind (require _ _),
    ensures_require, ensures_bind (modify _), ensures_modify, ensures_bind (when _ _), ensures_when]
  refine ⟨fun _ => ⟨fun _ => enable _ ?_, fun _ => enable _ ?_⟩, fun unbound => ?_⟩
  · exact inv.same rfl rfl rfl rfl
  · exact inv.same rfl rfl rfl rfl
  · rintro _ ⟨⟩ success
    exact absurd success (of_decide_eq_false unbound)

end

/-! ## The CPU -/

/-- This CPU is traced, and the ID was worked out for it. -/
structure IdFits (cpu : Int) (g : Globals) : Prop where
  traced : g.traceCpu = cpu
  id : g.traceId = getTraceId cpu

section
variable {g : Globals} {cpu : Int}

theorem fits_wiringOnly : WiringOnly (IdFits cpu) :=
  ⟨fun _ _ same fits => ⟨(congrArg Wiring.traceCpu same).trans fits.traced,
    (congrArg Wiring.traceId same).trans fits.id⟩⟩

theorem fits_onRig {α : Type} (x : Fn Rig α) : Keeps (IdFits cpu) (onRig x) := by
  intro g inv
  apply (ensures_zoom x).mpr
  apply (ensures_const inv x g.rig).mono
  · exact fun _ _ inv => ⟨inv.traced, inv.id⟩
  · exact fun _ _ inv => ⟨inv.traced, inv.id⟩

/-- A CPU that was chosen once is not chosen anew. -/
theorem body_fits (chosen : 0 ≤ cpu) (api : Api) : Keeps (IdFits cpu) (api.body e o) := by
  apply fits_wiringOnly.body fun _ _ _ => fits_onRig _
  · intro a _
    apply initTrace_leads
    · apply keeps_modify
      intro g inv
      have same : selectTraceCpu a g.traceCpu = g.traceCpu := if_neg (by rw [inv.traced]; omega)
      exact ⟨same.trans inv.traced, inv.id⟩
    · exact keeps_modify fun _ inv => ⟨inv.traced, inv.id⟩
    · exact keeps_modify fun _ inv => ⟨inv.traced, inv.id⟩
    · exact keeps_modify fun _ inv => ⟨inv.traced, congrArg getTraceId inv.traced⟩
    · exact setupNamedBoard_keeps (fits_onRig _) fun _ inv => ⟨inv.traced, inv.id⟩
    · exact fits_wiringOnly.setTraceState _
    · exact fits_onRig _
  · exact fun _ _ _ _ => keeps_modify fun _ inv => ⟨inv.traced, inv.id⟩
  · exact fun pid => enableCsTrace_keeps fits_onRig (fun _ inv => ⟨inv.traced, inv.id⟩) pid
  · exact stopTrace_free fits_onRig (fits_wiringOnly.setTraceState _)
  · exact fits_onRig _

/-- An `init_trace` that returns 0 has worked it out. -/
theorem initTrace_fits (a : InitAnswers) :
    Ensures (initTrace e o a) (fun rc g' => rc = 0 → ∃ cpu, 0 ≤ cpu ∧ IdFits cpu g')
      (fun _ _ => True) g := by
  have components : Ensures (initComponents e o a)
      (fun rc g' => rc = 0 → ∃ cpu, 0 ≤ cpu ∧ IdFits cpu g') (fun _ _ => True) g := by
    have early {rc : Int} (failed : rc ≠ 0) {g' : Globals} (rc' : Int) (same : Exit.ret rc = .ret rc')
        (zero : rc' = 0) : ∃ cpu, 0 ≤ cpu ∧ IdFits cpu g' := by
      cases same
      exact absurd zero failed
    apply ensures_returned
    apply (ensures_bind _ _).mpr
    apply (ensures_modify _).mpr
    have cpu := selectTraceCpu_nonneg a g.traceCpu
    apply (ensures_bind _ _).mpr
    apply (ensures_modify _).mpr
    apply (ensures_bind _ _).mpr
    apply (ensures_require _ _).mpr
    refine ⟨fun _ => ?_, fun _ => early (by decide)⟩
    apply (ensures_bind _ _).mpr
    apply (ensures_require _ _).mpr
    refine ⟨fun _ => ?_, fun _ => early (by decide)⟩
    apply (ensures_bind _ _).mpr
    apply (ensures_modify _).mpr
    apply (ensures_bind _ _).mpr
    apply (ensures_require _ _).mpr
    refine ⟨fun _ => ?_, fun _ => early (by decide)⟩
    have board (g₁ : Globals) (cpu : 0 ≤ g₁.traceCpu) :
        Ensures (setupNamedBoard e) (fun _ g' => 0 ≤ g'.traceCpu) (fun _ _ => False) g₁ := by
      simp only [setupNamedBoard, onRig, ensures_bind, ensures_zoom, ensures_op, ensures_when,
        ensures_modify, ensures_pure, cpu, implies_true, and_self]
    apply (ensures_bind _ _).mpr
    refine (board _ cpu).mono ?_ fun _ _ never => never.elim
    intro rc g₁ cpu
    apply (ensures_bind _ _).mpr
    apply (ensures_require _ _).mpr
    refine ⟨fun _ => ?_, fun _ => early (by decide)⟩
    apply (ensures_bind _ _).mpr
    apply (ensures_require _ _).mpr
    refine ⟨fun _ => ?_, fun thread => early ?_⟩
    · have id : 0 ≤ getTraceId g₁.traceCpu := by
        unfold getTraceId
        omega
      simp only [setTraceState, ensures_bind, ensures_modify, ensures_get, ensures_require, id,
        decide_true, true_implies, Bool.true_eq_false, false_implies, and_true, ensures_pure]
      exact ⟨g₁.traceCpu, cpu, rfl, rfl⟩
    · intro zero
      rw [zero, beq_self_eq_true, Bool.or_true] at thread
      cases thread
  apply (ensures_bind _ _).mpr
  apply components.mono _ fun _ _ _ => trivial
  intro rc g₁ fits
  simp only [onRig, ensures_bind, ensures_when, ensures_zoom, ensures_call, ensures_pure]
  refine ⟨fun failed zero => ?_, fun _ => fits⟩
  rw [zero] at failed
  cases failed

end

/-! ## Runs -/

/-- A start has succeeded. -/
def EverStarted (events : List ApiEvent) : Prop :=
  ∃ pid use a rc, .returned (.startTrace pid use a) rc ∈ events ∧ 0 ≤ rc

/-- `init_trace` has succeeded. -/
def EverReady (events : List ApiEvent) : Prop := ∃ a, .returned (.initTrace a) 0 ∈ events

/-- What is known of the IDs between two calls. -/
structure Identified (e : Csal) (h : History) : Prop where
  named : Named e h.globals
  started : EverStarted h.events → h.globals.isFirstTrace = false
  ready : EverReady h.events → ∃ cpu, 0 ≤ cpu ∧ IdFits cpu h.globals

section
variable {h h' : History} {api : Api}

theorem body_later (api : Api) :
    Keeps (fun g => g.isFirstTrace = false) (api.body e o) := by
  have wiring : WiringOnly fun g => g.isFirstTrace = false :=
    ⟨fun _ _ same later => (congrArg Wiring.isFirstTrace same).trans later⟩
  have core : CoreOnly fun g => g.isFirstTrace = false :=
    ⟨fun _ _ same later => (congrArg Core.isFirstTrace same).trans later⟩
  have rig {α : Type} (x : Fn Rig α) : Keeps (fun g => g.isFirstTrace = false) (onRig x) := by
    intro g later
    apply (ensures_zoom x).mpr
    exact ensures_const later x g.rig
  apply wiring.body fun _ _ _ => rig _
  · intro a _
    apply core.initTrace _ (wiring.setTraceState _) (rig _)
    exact setupNamedBoard_keeps (rig _) fun _ later => later
  · exact fun _ _ _ _ => keeps_modify fun _ later => later
  · exact enableCsTrace_keeps rig fun _ _ => rfl
  · exact stopTrace_free rig (wiring.setTraceState _)
  · exact rig _

theorem identified_step (apart : (sources e).Nodup) (inv : Identified e h)
    (moved : anyStep e o h api = some h') : Identified e h' := by
  obtain ⟨rc, events, named⟩ := anyStep_ensures moved (body_named apart api h.globals inv.named)
  refine ⟨named, ?_, ?_⟩
  · rintro ⟨pid, use, a, rc', member, success⟩
    rw [events] at member
    obtain last | ⟨⟨⟩⟩ | before : _ ∨ _ ∨ _ := by simpa only [List.mem_cons] using member
    · cases last
      obtain ⟨_, events', enabled⟩ :=
        anyStep_ensures moved (startTrace_enabled apart inv.named pid use a)
      rw [events] at events'
      cases events'
      exact enabled success
    · obtain ⟨_, -, later⟩ := anyStep_ensures moved
        (body_later api h.globals (inv.started ⟨pid, use, a, rc', before, success⟩))
      exact later
  · rintro ⟨a, member⟩
    rw [events] at member
    obtain last | ⟨⟨⟩⟩ | before : _ ∨ _ ∨ _ := by simpa only [List.mem_cons] using member
    · cases last
      obtain ⟨_, events', fits⟩ := anyStep_ensures moved (initTrace_fits a)
      rw [events] at events'
      cases events'
      exact fits rfl
    · obtain ⟨cpu, chosen, fits⟩ := inv.ready ⟨a, before⟩
      obtain ⟨_, -, fits⟩ := anyStep_ensures moved (body_fits chosen api h.globals fits)
      exact ⟨cpu, chosen, fits⟩

theorem identified (apart : (sources e).Nodup) {rig : Rig} {traceCpu : Int}
    (reached : Reach (anyStep e o) (fun _ _ => true) (.initial rig traceCpu) h) :
    Identified e h := by
  apply reached.invariant
  · refine ⟨⟨.inl rfl, fun later => absurd later Bool.noConfusion⟩, ?_, ?_⟩
    · rintro ⟨_, _, _, _, ⟨⟩, _⟩
    · rintro ⟨_, ⟨⟩⟩
  · exact fun _ _ _ inv _ moved => identified_step apart inv moved

/-- **The sources can be told apart on up to 16 CPUs.** Once a start succeeded, in
any run, every source has its ID, and no two have the same one, unless there is a
CPU 16: its ID is that of the STM. -/
theorem streams_apart_iff (apart : (sources e).Nodup) {rig : Rig} {traceCpu : Int}
    (reached : Reach (anyStep e o) (fun _ _ => true) (.initial rig traceCpu) h)
    (started : EverStarted h.events) :
    Labelled e h.globals.rig.calls ∧
    (Set.InjOn (traceSourceId e h.globals.rig.calls) {d | d ∈ sources e} ↔
      e.board.nCpu ≤ 16) := by
  have inv := identified apart reached
  have labelled := inv.named.labelled (inv.started started)
  refine ⟨labelled, ?_⟩
  have stm : e.devices.itm ∈ sources e := List.mem_cons_self
  have cpu {i : Nat} (below : i < e.board.nCpu) : e.source i ∈ sources e :=
    List.mem_cons_of_mem _ (List.mem_map_of_mem (List.mem_range.mpr below))
  constructor
  · intro distinct
    by_contra many
    have below : 16 < e.board.nCpu := by omega
    have same := distinct stm (cpu below) (labelled.stm.trans (labelled.cpu 16 below).symm)
    exact (List.nodup_cons.mp apart).1 (same ▸ List.mem_map_of_mem (List.mem_range.mpr below))
  · intro few d member d' member' same
    obtain rfl | of_cpu := List.mem_cons.mp member
    · obtain rfl | of_cpu' := List.mem_cons.mp member'
      · rfl
      · obtain ⟨j, below, rfl⟩ := List.mem_map.mp of_cpu'
        have below := List.mem_range.mp below
        rw [labelled.stm, labelled.cpu j below, Option.some.injEq] at same
        omega
    · obtain ⟨i, below, rfl⟩ := List.mem_map.mp of_cpu
      have below := List.mem_range.mp below
      obtain rfl | of_cpu' := List.mem_cons.mp member'
      · rw [labelled.stm, labelled.cpu i below, Option.some.injEq] at same
        omega
      · obtain ⟨j, below', rfl⟩ := List.mem_map.mp of_cpu'
        rw [labelled.cpu i below, labelled.cpu j (List.mem_range.mp below'),
          Option.some.injEq] at same
        rw [show i = j by omega]

end

/-- A start on the ZCU-104, with its four CPUs. -/
theorem streams_apart_zcu104 : ∃ h,
    Reach (anyStep zcu104 plain) (fun _ _ => true) (.initial .idle (-1)) h ∧
    Set.InjOn (traceSourceId zcu104 h.globals.rig.calls) {d | d ∈ sources zcu104} := by
  have replay : (exec (anyStep zcu104 plain) (fun _ _ => true) (.initial .idle (-1))
      [.initTrace healthy.init, .startTrace 42 true healthy.start]).any
      (fun h => startedFor 42 h.events) = true := by
    decide +kernel
  obtain ⟨h, reached, succeeded⟩ := reach_of_exec replay
  obtain ⟨use, a, rc, older, returned, success⟩ := startedFor_spec succeeded
  have started : EverStarted h.events :=
    ⟨42, use, a, rc, returned ▸ List.mem_cons_self, success⟩
  exact ⟨h, reached, (streams_apart_iff (by decide) reached started).2.mpr (by decide)⟩

section
variable {h : History}

/-- What a start leads to, it leads to on a machine that binds the tracee. -/
theorem startTraceOn_globals {m : Scheduler} {g : Globals} {P : Int → Globals → Prop}
    {pid : Parent.Pid} {use : Bool} (starts : ∀ a, Ensures (startTrace e o pid use a) P
      (fun _ _ => True) g) (affinity : m.Affinity) (a : StartAnswers) :
    Ensures (startTraceOn e o m pid use a) (fun rc s => P rc s.globals) (fun _ _ => True)
      ⟨g, affinity⟩ := by
  simp only [startTraceOn, ensures_bind, ensures_get, ensures_zoom]
  apply (ensures_const trivial _ _).mono
  · exact fun rc _ _ => starts { a with affinity := rc }
  · exact fun _ _ _ => trivial

/-- **The ID is that of the tracee's CPU.** After any calls, among them an
`init_trace` that succeeded, a start that succeeds has bound the tracee to the one
CPU that is traced; of all CPUs' sources just this one's has the ID that `trace_id`
says, and the STM has it too on CPU 16. -/
theorem tracee_stream (apart : (sources e).Nodup) {rig : Rig} {traceCpu : Int}
    (reached : Reach (anyStep e o) (fun _ _ => true) (.initial rig traceCpu) h)
    (ready : EverReady h.events) {cpu : Nat} (traced : h.globals.traceCpu = cpu)
    (int : cpu < 2 ^ 31) {m : Scheduler} (affinity : m.Affinity) (pid : Parent.Pid) (use : Bool)
    (a : StartAnswers) :
    Ensures (startTraceOn e o m pid use a)
      (fun rc s => 0 ≤ rc → (s.affinity pid).members = {cpu} ∧
        (∀ i < e.board.nCpu, traceSourceId e s.globals.rig.calls (e.source i) =
          some s.globals.traceId.toNat ↔ i = cpu) ∧
        (traceSourceId e s.globals.rig.calls e.devices.itm = some s.globals.traceId.toNat ↔
          cpu = 16))
      (fun _ _ => True) ⟨h.globals, affinity⟩ := by
  have inv := identified apart reached
  obtain ⟨_, chosen, fits⟩ := inv.ready ready
  obtain rfl := fits.traced.symm.trans traced
  have starts (a : StartAnswers) : Ensures (startTrace e o pid use a)
      (fun rc g => 0 ≤ rc → Labelled e g.rig.calls ∧ g.traceId = 0x10 + cpu)
      (fun _ _ => True) h.globals := by
    have named := body_named (o := o) apart (.startTrace pid use a) h.globals inv.named
    have enabled := startTrace_enabled (o := o) apart inv.named pid use a
    have fits := body_fits (e := e) (o := o) chosen (.startTrace pid use a) h.globals fits
    apply ((named.and enabled).and fits).mono
    · rintro rc g ⟨⟨named, enabled⟩, fits⟩ success
      exact ⟨named.labelled (enabled success), fits.id⟩
    · exact fun _ _ _ => trivial
  apply ((startTraceOn_binds traced int affinity pid use a).and
    (startTraceOn_globals starts affinity a)).mono
  · rintro rc s ⟨bound, labelled⟩ success
    obtain ⟨⟨stm, cpus⟩, id⟩ := labelled success
    have number : s.globals.traceId.toNat = 0x10 + cpu := by omega
    rw [number]
    refine ⟨bound success, fun i below => ?_, ?_⟩
    · rw [cpus i below, Option.some.injEq]
      omega
    · rw [stm, Option.some.injEq]
      omega
  · exact fun _ _ _ => trivial

end

/-- The last call was an `init_trace` that succeeded. -/
def initSucceeded : List ApiEvent → Bool
  | .returned (.initTrace _) rc :: _ => rc == 0
  | _ => false

/-- The tracee is bound to CPU 1 of the ZCU-104. -/
theorem tracee_stream_zcu104 : ∃ h,
    Reach (anyStep zcu104 plain) (fun _ _ => true) (.initial .idle (-1)) h ∧
    Ensures (startTraceOn zcu104 plain fourCpus 42 true healthy.start)
      (fun rc s => 0 ≤ rc → (s.affinity 42).members = {1} ∧
        (∀ i < 4, traceSourceId zcu104 s.globals.rig.calls (zcu104.source i) =
          some s.globals.traceId.toNat ↔ i = 1) ∧
        (traceSourceId zcu104 s.globals.rig.calls zcu104.devices.itm =
          some s.globals.traceId.toNat ↔ 1 = 16))
      (fun _ _ => True) ⟨h.globals, fun _ => 0xf⟩ := by
  have replay : (exec (anyStep zcu104 plain) (fun _ _ => true) (.initial .idle (-1))
      [.initTrace healthy.init]).any
      (fun h => h.globals.traceCpu == 1 && initSucceeded h.events) = true := by
    decide +kernel
  obtain ⟨h, reached, succeeded⟩ := reach_of_exec replay
  refine ⟨h, reached, ?_⟩
  rw [Bool.and_eq_true, beq_iff_eq] at succeeded
  obtain ⟨traced, succeeded⟩ := succeeded
  unfold initSucceeded at succeeded
  split at succeeded
  · rename_i a rc older returned
    obtain rfl := eq_of_beq succeeded
    have ready : EverReady h.events := ⟨a, returned ▸ List.mem_cons_self⟩
    exact tracee_stream (by decide) reached ready traced (by decide) (fun _ => 0xf) 42 true
      healthy.start
  · cases succeeded

end Session

end Ultrasight
