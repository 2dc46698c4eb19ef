import Ultrasight.Survival

/-!
# Machines that cannot be traced

`init_etm` asserts that a source is an ETMv4, before `configure_trace` could skip it
as unsupported, and to show a configuration writes it through a null pointer. So
where the devices do all they are asked, the kind of the sources and the level
decide whether any call dies: `survives_iff`.
-/

namespace Ultrasight.Session

open Fn
open Verbosity (prepare program prepare_finds program_dies configureTrace_eq Etmv4Cores Setup)

/-- What `init_etm` asks of the source of a CPU. -/
def Fit (e : Csal) (i : Nat) : Prop :=
  e.isSource (e.source i) = true ∧ e.isEtmv4 (e.source i) = true

variable {e : Csal} {o : Settings}

theorem anyStep_died {h : History} {c : Api} (died : Died (c.body e o h.globals)) :
    anyStep e o h c = none := by
  cases moved : anyStep e o h c with
  | none => rfl
  | some h' =>
    obtain ⟨g, died⟩ := died
    have never := anyStep_ensures (Q := fun _ _ => False) (E := fun _ _ => True) moved
      ((ensures_of_error died).mpr trivial)
    exact never.elim fun _ ends => ends.2.elim

section
variable (ok : e.Succeeds) (there : ∀ i < e.board.nCpu, e.source i ≠ csErrdesc)

include ok

/-- A source that is there is fit, or its CPU is the last one that is prepared. -/
theorem preparePtm_fit {i : Nat} (found : e.source i ≠ csErrdesc) (r : Rig) :
    Ensures (preparePtm e i) (fun _ _ => Fit e i) (fun x _ => x = .crash) r := by
  have real : (e.source i != csErrdesc) = true := bne_iff_ne.mpr found
  simp only [preparePtm, initEtm, csCpuGetDevice, csDeviceHasClass, csEtmConfigInitEx,
    csEtmConfigGetEx, ensures_bind, ensures_op, ensures_call, ensures_pure, ensures_modify,
    ensures_get, ensures_require, ensures_assert, ensures_enclose, ok _ _, if_true, real,
    Int.le_refl, decide_true, beq_self_eq_true, true_implies, Bool.true_eq_false, false_implies,
    implies_true, and_true]
  exact fun source version => ⟨source, version⟩

include there

/-- If the first part of `configure_trace` is survived, all sources are fit. -/
theorem prepare_fit (r : Rig) :
    Ensures (prepare e) (fun _ _ => ∀ i < e.board.nCpu, Fit e i) (fun x _ => x = .crash) r := by
  have loop (r : Rig) : Ensures (each (List.range e.board.nCpu) (preparePtm e))
      (fun _ _ => ∀ i ∈ List.range e.board.nCpu, Fit e i) (fun x _ => x = .crash) r := by
    apply ensures_each fun (done : List Nat) (_ : Rig) => ∀ i ∈ done, Fit e i
    · intro done i rest split r₁ fit
      have below : i ∈ List.range e.board.nCpu :=
        split ▸ List.mem_append_right done List.mem_cons_self
      apply (preparePtm_fit ok (there i (List.mem_range.mp below)) r₁).mono
      · intro _ _ last j member
        obtain before | same := List.mem_append.mp member
        · exact fit j before
        · exact List.mem_singleton.mp same ▸ last
      · exact fun _ _ died => died
    · exact List.forall_mem_nil _
  simp only [prepare, ensures_bind (call e _), ensures_call]
  apply (ensures_bind _ _).mpr
  apply (loop _).mono
  · intro _ r₁ fit
    simp only [ensures_bind, ensures_op, ensures_require, ensures_call, ok _ _, Int.le_refl,
      decide_true, true_implies, Bool.true_eq_false, false_implies, and_true]
    exact fun i below => fit i (List.mem_range.mpr below)
  · exact fun _ _ died => died

/-- Otherwise `configure_trace` dies, and also where it shows what it has configured. -/
theorem configureTrace_dies (null : e.isSource csErrdesc = false) (cpus : 0 < e.board.nCpu)
    (unfit : ¬ ((∀ i < e.board.nCpu, Fit e i) ∧ e.registrationVerbose ≤ 0)) (range : MapInfo)
    (pid : BitVec 32) (r : Rig) :
    Died (configureTrace e (some e.board) e.devices range pid r) := by
  let u : Setup := ⟨range, pid, 0, 0⟩
  show Died (Verbosity.ConfigCall.configureTrace.body e u r)
  rw [configureTrace_eq]
  apply died_enclose
  by_cases fit : ∀ i < e.board.nCpu, Fit e i
  · have cores : Etmv4Cores e := ⟨fun i below => (fit i below).1, fun i below => (fit i below).2, null⟩
    have loud : 0 < e.registrationVerbose := by
      by_contra quiet
      exact unfit ⟨fit, by omega⟩
    apply died_of
    apply (ensures_bind _ _).mpr
    apply ((prepare_fit ok there r).and (prepare_finds r)).mono
    · intro _ r₁ found
      obtain ⟨r₂, died⟩ := program_dies cores loud cpus found.2 u
      exact (ensures_of_error died).mpr rfl
    · exact fun _ _ died => died.1
  · apply died_bind
    apply died_of
    apply (prepare_fit ok there r).mono
    · exact fun _ _ fit' => fit fit'
    · exact fun _ _ died => died

/-- The first trace gets there. -/
theorem enableCsTrace_dies (null : e.isSource csErrdesc = false) (cpus : 0 < e.board.nCpu)
    (unfit : ¬ ((∀ i < e.board.nCpu, Fit e i) ∧ e.registrationVerbose ≤ 0)) (g : Globals)
    (board : g.board = some e.board) (devices : g.devices = e.devices)
    (first : g.isFirstTrace = true) (pid : Parent.Pid) (rest : Int → Fn Globals Int) :
    Ensures (enableCsTrace e o pid >>= rest) (fun _ _ => False) (fun x _ => x = .crash) g := by
  apply (ensures_bind _ _).mpr
  apply (ensures_bind _ _).mpr
  apply (ensures_enclose _).mpr
  apply (ensures_bind _ _).mpr
  apply ensures_get.mpr
  rw [first]
  apply (ensures_bind _ _).mpr
  apply (ensures_bind _ _).mpr
  apply ensures_get.mpr
  apply (ensures_bind _ _).mpr
  apply (ensures_zoom _).mpr
  rw [board, devices]
  obtain ⟨r, died⟩ := configureTrace_dies ok there null cpus unfit g.mapInfo pid g.rig
  exact (ensures_of_error died).mpr rfl

theorem startTrace_dies (null : e.isSource csErrdesc = false) (cpus : 0 < e.board.nCpu)
    (unfit : ¬ ((∀ i < e.board.nCpu, Fit e i) ∧ e.registrationVerbose ≤ 0)) {g : Globals}
    (board : g.board = some e.board) (devices : g.devices = e.devices)
    (first : g.isFirstTrace = true) (pid : Parent.Pid) (use : Bool) {a : StartAnswers}
    (bound : 0 ≤ a.affinity) : Died (startTrace e o pid use a g) := by
  apply died_enclose
  apply died_of
  simp only [allocTraceBuf, allocKsightBuf, fetcherSize, ensures_bind (require _ _), ensures_require, bound,
    decide_true, true_implies, Bool.true_eq_false, false_implies, and_true, ensures_bind (modify _),
    ensures_modify, ensures_bind (when _ _), ensures_when]
  -- With ksight and without it.
  constructor
  all_goals
    intro _
    apply enableCsTrace_dies ok there null cpus unfit
    · exact board
    · exact devices
    · exact first

omit there

theorem initTrace_boards :
    Ensures (initTrace e o healthy.init) (fun _ g => g.board = some e.board ∧
      g.devices = e.devices ∧ g.isFirstTrace = true) (fun _ _ => False) (.initial .idle (-1)) := by
  simp only [initTrace, initComponents, setupNamedBoard, onRig, setTraceState, ensures_enclose,
    ensures_bind, ensures_modify, ensures_require, ensures_when, ensures_zoom,
    ensures_op, ensures_call, ensures_get, ensures_pure, ok _ _]
  simp [healthy, Globals.initial, selectTraceCpu, getTraceId]

/-- A start of a trace for which there is room. -/
def roomy : Api := .startTrace 42 true ⟨0, some TraceBuffer.somewhere, some TraceBuffer.somewhere, none⟩

include there

/-- **What can be traced at all.** On a machine whose devices do all they are asked, no
call dies in any run of served calls if and only if the sources of all CPUs are ETMv4s
and nothing is to be shown. -/
theorem survives_iff (null : e.isSource csErrdesc = false) (cpus : 0 < e.board.nCpu) :
    (∀ (rig : Rig) (traceCpu : Int) (h : History) (c : Api),
      Reach (anyStep e o) (served o) (.initial rig traceCpu) h → served o h c = true →
        ∃ h', anyStep e o h c = some h') ↔
    (∀ i < e.board.nCpu, Fit e i) ∧ e.registrationVerbose ≤ 0 := by
  constructor
  · intro survives
    by_contra unfit
    obtain ⟨h, moved⟩ := survives .idle (-1) (.initial .idle (-1)) (.initTrace healthy.init)
      .start rfl
    obtain ⟨rc, events, board, devices, first⟩ :=
      anyStep_ensures moved (initTrace_boards (o := o) ok)
    have more : served o h roomy = true := by
      have room : roomy.served o h.globals = true := by simp [roomy, Api.served, Api.traceServed, Api.eventsServed]
      rw [served, events, room]
      rfl
    obtain ⟨h', moved'⟩ := survives .idle (-1) h roomy (.next .start rfl moved) more
    have dies : Died (roomy.body e o h.globals) :=
      startTrace_dies ok there null cpus unfit board devices first 42 true (by decide)
    rw [anyStep_died dies] at moved'
    cases moved'
  · rintro ⟨fit, quiet⟩ rig traceCpu h c reached next
    have cores : Etmv4Cores e :=
      ⟨fun i below => (fit i below).1, fun i below => (fit i below).2, null⟩
    exact session_survives cores quiet reached next

end

/-- The ZCU-104 can be traced. -/
theorem survives_iff_zcu104 : (∀ (rig : Rig) (traceCpu : Int) (h : History) (c : Api),
      Reach (anyStep zcu104 plain) (served plain) (.initial rig traceCpu) h →
        served plain h c = true → ∃ h', anyStep zcu104 plain h c = some h') ↔
    (∀ i < 4, Fit zcu104 i) ∧ zcu104.registrationVerbose ≤ 0 :=
  survives_iff (fun _ _ => rfl) (by decide) rfl (by decide)

end Ultrasight.Session
