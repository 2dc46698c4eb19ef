import Ultrasight.Effects

/-!
# The configuration functions when every call succeeds

Then enabling and disabling come down to lists of calls.

* `Rig.made` makes a list of calls; `made_stays` and `made_switched` say what
  becomes of a device's flag;
* `Makes` says which calls a body makes;
* each function of `config.c` that switches devices has its list.
-/

namespace Ultrasight

open Fn CsCall

/-- The sinks that there are. -/
def Devices.collecting (d : Devices) : List Dev :=
  d.etb :: ((if d.tpiu = 0 then [] else [d.tpiu]) ++ d.traceSinks)

/-- What a call does to the flag of a device, if anything. -/
def CsCall.switches (c : CsCall) (d : Dev) : Option Bool :=
  if c.enables = some d then some true else if c.disables = some d then some false else none

/-- The devices after the calls of a list. -/
def Rig.made (e : Csal) (calls : List CsCall) (r : Rig) : Rig :=
  calls.foldl (fun r c => r.after e c) r

section
variable {e : Csal} {r : Rig} {c : CsCall} {calls more : List CsCall} {d : Dev}

@[simp] theorem made_nil : r.made e [] = r := rfl

@[simp] theorem made_cons : r.made e (c :: calls) = (r.after e c).made e calls := rfl

theorem made_append : r.made e (calls ++ more) = (r.made e calls).made e more :=
  List.foldl_append

theorem after_made : (r.made e calls).after e c = r.made e (calls ++ [c]) := by
  rw [made_append]
  rfl

@[simp] theorem made_ptm : (r.made e calls).ptm = r.ptm := by
  induction calls generalizing r with
  | nil => rfl
  | cons c calls ih => rw [made_cons, ih, after_ptm]

theorem made_calls : (r.made e calls).calls = calls.reverse ++ r.calls := by
  induction calls generalizing r with
  | nil => rfl
  | cons c calls ih => rw [made_cons, ih, after_calls, List.reverse_cons, List.append_assoc,
      List.singleton_append]

/-! ## What becomes of a device -/

theorem after_enabled_eq : (r.after e c).enabled d =
    if (e.answer r.calls c).rc = 0 then (c.switches d).getD (r.enabled d) else r.enabled d := by
  simp only [Rig.after]
  split
  · simp only [perform_enabled, CsCall.switches]
    split
    · rfl
    · split <;> rfl
  · rfl

/-- A call that does not switch a device leaves its flag. -/
theorem after_unswitched (none : c.switches d = none) : (r.after e c).enabled d = r.enabled d := by
  rw [after_enabled_eq, none]
  split <;> rfl

/-- A call that writes no registers leaves those of every ETM. -/
theorem after_unprogrammed (none : c.programs = none) : (r.after e c).etm = r.etm := by
  funext d
  exact after_etm (by rw [none]; exact (Option.some_ne_none _).symm)

theorem made_still (still : ∀ c ∈ calls, c.switches d = none) :
    (r.made e calls).enabled d = r.enabled d := by
  induction calls generalizing r with
  | nil => rfl
  | cons c calls ih =>
    rw [List.forall_mem_cons] at still
    rw [made_cons, ih still.2, after_unswitched still.1]

theorem made_etm (still : ∀ c ∈ calls, c.programs = none) : (r.made e calls).etm = r.etm := by
  induction calls generalizing r with
  | nil => rfl
  | cons c calls ih =>
    rw [List.forall_mem_cons] at still
    rw [made_cons, ih still.2, after_unprogrammed still.1]

/-- Looking at devices changes no flag and no register. -/
theorem stable_view (e : Csal) (P : (Nat → Dev) → (Dev → Bool) → (Dev → EtmRegs) → Prop) :
    Stable e looking fun r => P r.ptm r.enabled r.etm := by
  constructor
  · intro c r looks inv
    simp only [looking, Bool.and_eq_true, Option.isNone_iff_eq_none] at looks
    obtain ⟨⟨⟨on, off⟩, programs⟩, _⟩ := looks
    have enabled : (r.after e c).enabled = r.enabled := by
      funext d
      apply after_unswitched
      rw [switches, on, off]
      rfl
    rw [after_ptm, enabled, after_unprogrammed programs]
    exact inv
  · exact fun r inv => inv

variable (h : e.Succeeds)

include h

theorem after_performs : r.after e c = { c.perform e r with
    errorCount := r.errorCount, calls := c :: r.calls } := by
  have answer := h r.calls c
  simp only [Rig.after, answer, if_true, Nat.add_zero]

theorem after_enabled : (r.after e c).enabled d = (c.switches d).getD (r.enabled d) := by
  rw [after_enabled_eq, h, if_pos rfl]

theorem made_errorCount : (r.made e calls).errorCount = r.errorCount := by
  induction calls generalizing r with
  | nil => rfl
  | cons c calls ih => rw [made_cons, ih, after_performs h]

/-- A flag that no call changes to the other value keeps its value. -/
theorem made_stays {v : Bool} (same : ∀ c ∈ calls, c.switches d ≠ some !v) (was : r.enabled d = v) :
    (r.made e calls).enabled d = v := by
  induction calls generalizing r with
  | nil => exact was
  | cons c calls ih =>
    rw [List.forall_mem_cons] at same
    apply ih same.2
    rw [after_enabled h, was]
    cases switched : c.switches d with
    | none => rfl
    | some w =>
      have : w ≠ !v := fun other => same.1 (by rw [switched, other])
      cases w <;> cases v <;> simp_all

/-- A call that sets a flag, and no call that sets it to the other value. -/
theorem made_switched {v : Bool} (same : ∀ c ∈ calls, c.switches d ≠ some !v)
    (set : ∃ c ∈ calls, c.switches d = some v) : (r.made e calls).enabled d = v := by
  obtain ⟨c, hc, switches⟩ := set
  obtain ⟨before, after, rfl⟩ := List.append_of_mem hc
  rw [made_append, made_cons]
  apply made_stays h
  · intro c hc
    exact same c (List.mem_append_right _ (List.mem_cons_of_mem _ hc))
  · rw [after_enabled h, switches, Option.getD_some]

end

/-! ## The calls of each function -/

/-- `x` makes the calls given for the ETMs in `ptm`, and ends. -/
def Makes (e : Csal) (x : Fn Rig Unit) (calls : (Nat → Dev) → List CsCall) : Prop :=
  ∀ r, x r = .ok () (r.made e (calls r.ptm))

def enableEtfCalls (d : Dev) : List CsCall := [.sinkEtfSetup d .hwFifo, .tmcHwFifoEnable d 0]

def enableSinksCalls (devices : Devices) : List CsCall :=
  .sinkEnable devices.etb ::
    ((if devices.tpiu = 0 then [] else [.sinkEnable devices.tpiu]) ++
      devices.traceSinks.flatMap enableEtfCalls)

def disableSinksCalls (devices : Devices) : List CsCall :=
  (if devices.tpiu = 0 then [] else [.sinkDisable devices.tpiu]) ++
    devices.traceSinks.flatMap (fun d => if d = 0 then [] else [.sinkDisable d]) ++
    [.sinkDisable devices.etb]

def enableSourcesCalls (e : Csal) (board : Board) (devices : Devices) (ptm : Nat → Dev) :
    List CsCall :=
  (List.range board.nCpu).flatMap (fun i => [.traceEnable (ptm i)]) ++
    [.traceSwstimEnableAllPorts devices.itm, .traceSwstimSetSyncRepeat devices.itm 32,
      .traceEnable devices.itm, .checkpoint] ++
    (if 0 < e.registrationVerbose then [.ctiDiag] else [])

def disableAllCalls (board : Board) (devices : Devices) (ptm : Nat → Dev) : List CsCall :=
  (List.range board.nCpu).flatMap (fun i => [.traceDisable (ptm i)]) ++
    .traceDisable devices.itm ::
    (devices.traceSinks.flatMap (fun d => if d = 0 then [] else [.sinkDisable d]) ++
    .sinkDisable devices.etb :: (if devices.tpiu = 0 then [] else [.sinkDisable devices.tpiu]))

/-- `csEtbFlushAndWaitStop` when it finds the ETB enabled or not. -/
def flushCalls (e : Csal) (devices : Devices) (r : Rig) : List CsCall :=
  .sinkIsEnabled devices.etb ::
    if r.enabled devices.etb then
      [.deviceRead devices.etb .flfmtCtrl,
        .deviceWrite devices.etb .flfmtCtrl (r.reg devices.etb .flfmtCtrl ||| e.fOnMan),
        .deviceWait devices.etb .status]
    else []

/-- The sources whose ETMs are in `ptm`. -/
def sourcesIn (board : Board) (devices : Devices) (ptm : Nat → Dev) : List Dev :=
  devices.itm :: (List.range board.nCpu).map ptm

/-! ## What these calls are about -/

section
variable {c : CsCall} {d : Dev} {ds : List Dev}

theorem raising_switches (h : c.raising = true) : c.switches d ≠ some false := by
  simp only [raising, Bool.and_eq_true, Option.isNone_iff_eq_none] at h
  rw [switches, h.1.1]
  split <;> simp

theorem raising_programs (h : c.raising = true) : c.programs = none := by
  simp only [raising, Bool.and_eq_true, Option.isNone_iff_eq_none] at h
  exact h.1.2

theorem calm_switches (h : c.calm = true) : c.switches d ≠ some true := by
  simp only [calm, Bool.and_eq_true, Option.isNone_iff_eq_none] at h
  rw [switches, h.1]
  split
  · rename_i impossible
    cases impossible
  · split <;> simp

theorem lowering_others (h : c.lowering ds = true) (other : d ∉ ds) : c.switches d = none := by
  simp only [lowering, Bool.and_eq_true, Option.isNone_iff_eq_none] at h
  obtain ⟨⟨⟨on, off⟩, _⟩, _⟩ := h
  rw [switches, on, if_neg (Option.some_ne_none _).symm]
  apply if_neg
  intro disables
  rw [disables] at off
  exact other (of_decide_eq_true off)

theorem lowering_programs (h : c.lowering ds = true) : c.programs = none := by
  simp only [lowering, Bool.and_eq_true, Option.isNone_iff_eq_none] at h
  exact h.1.2

variable {devices : Devices} {board : Board} {ptm : Nat → Dev} {e : Csal} {r : Rig}

theorem enableSinks_raising : ∀ c ∈ enableSinksCalls devices, c.raising = true := by
  intro c hc
  simp only [enableSinksCalls, enableEtfCalls, List.mem_cons, List.mem_append, List.mem_flatMap] at hc
  rcases hc with rfl | hc | ⟨d, _, rfl | rfl | none⟩
  · rfl
  · split at hc
    · cases hc
    · rw [List.mem_singleton.mp hc]
      rfl
  · rfl
  · rfl
  · cases none

theorem enableSources_raising : ∀ c ∈ enableSourcesCalls e board devices ptm, c.raising = true := by
  intro c hc
  simp only [enableSourcesCalls, List.mem_cons, List.mem_append, List.mem_flatMap] at hc
  rcases hc with (⟨i, _, rfl | none⟩ | rfl | rfl | rfl | rfl | none) | hc
  · rfl
  · cases none
  · rfl
  · rfl
  · rfl
  · rfl
  · cases none
  · split at hc
    · rw [List.mem_singleton.mp hc]
      rfl
    · cases hc

theorem flush_looking : ∀ c ∈ flushCalls e devices r, c.looking = true := by
  intro c hc
  simp only [flushCalls, List.mem_cons] at hc
  rcases hc with rfl | hc
  · rfl
  · split at hc
    · simp only [List.mem_cons, List.not_mem_nil, or_false] at hc
      rcases hc with rfl | rfl | rfl <;> rfl
    · cases hc

theorem disableTpiu_lowering (sub : devices.collecting ⊆ ds) :
    ∀ c ∈ (if devices.tpiu = 0 then [] else [CsCall.sinkDisable devices.tpiu]),
      c.lowering ds = true := by
  intro c hc
  split at hc
  · cases hc
  · rename_i present
    rw [List.mem_singleton.mp hc]
    apply lowering_sinkDisable
    apply sub
    simp [Devices.collecting, present]

theorem disableEtfs_lowering (sub : devices.collecting ⊆ ds) :
    ∀ c ∈ devices.traceSinks.flatMap (fun d => if d = 0 then [] else [CsCall.sinkDisable d]),
      c.lowering ds = true := by
  intro c hc
  obtain ⟨d, hd, hc⟩ := List.mem_flatMap.mp hc
  split at hc
  · cases hc
  · rw [List.mem_singleton.mp hc]
    apply lowering_sinkDisable
    apply sub
    simp [Devices.collecting, hd]

theorem disableSinks_lowering :
    ∀ c ∈ disableSinksCalls devices, c.lowering devices.collecting = true := by
  intro c hc
  simp only [disableSinksCalls, List.mem_append] at hc
  rcases hc with (hc | hc) | hc
  · exact disableTpiu_lowering (List.Subset.refl _) c hc
  · exact disableEtfs_lowering (List.Subset.refl _) c hc
  · rw [List.mem_singleton.mp hc]
    exact lowering_sinkDisable List.mem_cons_self

theorem disableAll_lowering : ∀ c ∈ disableAllCalls board devices ptm,
    c.lowering (devices.collecting ++ sourcesIn board devices ptm) = true := by
  have sub : devices.collecting ⊆ devices.collecting ++ sourcesIn board devices ptm :=
    List.subset_append_left _ _
  have source (d : Dev) (hd : d ∈ sourcesIn board devices ptm) :
      (CsCall.traceDisable d).lowering (devices.collecting ++ sourcesIn board devices ptm) = true := by
    simp [lowering, enables, disables, programs, working, isShutdown, hd]
  intro c hc
  simp only [disableAllCalls, List.mem_append, List.mem_cons] at hc
  rcases hc with hc | rfl | hc | rfl | hc
  · obtain ⟨i, hi, hc⟩ := List.mem_flatMap.mp hc
    rw [List.mem_singleton.mp hc]
    exact source _ (List.mem_cons_of_mem _ (List.mem_map_of_mem hi))
  · exact source _ List.mem_cons_self
  · exact disableEtfs_lowering sub c hc
  · exact lowering_sinkDisable (sub List.mem_cons_self)
  · exact disableTpiu_lowering sub c hc

theorem enableSinks_sets (hd : d ∈ devices.collecting) :
    ∃ c ∈ enableSinksCalls devices, c.switches d = some true := by
  simp only [Devices.collecting, List.mem_cons, List.mem_append] at hd
  rcases hd with rfl | hd | hd
  · exact ⟨.sinkEnable devices.etb, List.mem_cons_self, by simp [switches, enables]⟩
  · split at hd
    · cases hd
    · rename_i present
      rw [List.mem_singleton.mp hd]
      refine ⟨.sinkEnable devices.tpiu, ?_, by simp [switches, enables]⟩
      simp [enableSinksCalls, present]
  · refine ⟨.tmcHwFifoEnable d 0, ?_, by simp [switches, enables]⟩
    simp [enableSinksCalls, enableEtfCalls, hd]

theorem enableSources_sets (hd : d ∈ sourcesIn board devices ptm) :
    ∃ c ∈ enableSourcesCalls e board devices ptm, c.switches d = some true := by
  refine ⟨.traceEnable d, ?_, by simp [switches, enables]⟩
  rcases List.mem_cons.mp hd with rfl | hd
  · simp [enableSourcesCalls]
  · obtain ⟨i, hi, rfl⟩ := List.mem_map.mp hd
    simp only [enableSourcesCalls, List.mem_append, List.mem_flatMap]
    exact .inl (.inl ⟨i, hi, List.mem_cons_self⟩)

theorem enableSinks_others (other : d ∉ devices.collecting) :
    ∀ c ∈ enableSinksCalls devices, c.switches d = none := by
  simp only [Devices.collecting, List.mem_cons, List.mem_append, not_or] at other
  obtain ⟨etb, tpiu, etf⟩ := other
  have off (d' : Dev) (different : d ≠ d') :
      (CsCall.sinkEnable d').switches d = none ∧ (CsCall.tmcHwFifoEnable d' 0).switches d = none := by
    simp [switches, enables, disables, Ne.symm different]
  intro c hc
  simp only [enableSinksCalls, enableEtfCalls, List.mem_cons, List.mem_append, List.mem_flatMap,
    List.not_mem_nil, or_false] at hc
  rcases hc with rfl | hc | ⟨d', hd', rfl | rfl⟩
  · exact (off _ etb).1
  · split at hc
    · cases hc
    · rename_i present
      rw [List.mem_singleton.mp hc]
      exact (off _ (by simpa [present] using tpiu)).1
  · simp [switches, enables, disables]
  · exact (off d' (fun same => etf (same ▸ hd'))).2

theorem disableSinks_sets (nonnull : ∀ d ∈ devices.traceSinks, d ≠ 0) (hd : d ∈ devices.collecting) :
    ∃ c ∈ disableSinksCalls devices, c.switches d = some false := by
  refine ⟨.sinkDisable d, ?_, by simp [switches, enables, disables]⟩
  simp only [Devices.collecting, List.mem_cons, List.mem_append] at hd
  simp only [disableSinksCalls, List.mem_append, List.mem_flatMap]
  rcases hd with rfl | hd | hd
  · exact .inr List.mem_cons_self
  · split at hd
    · cases hd
    · rename_i present
      rw [List.mem_singleton.mp hd, if_neg present]
      exact .inl (.inl List.mem_cons_self)
  · exact .inl (.inr ⟨d, hd, by simp [nonnull d hd]⟩)

theorem disableAll_sets (nonnull : ∀ d ∈ devices.traceSinks, d ≠ 0)
    (hd : d ∈ devices.collecting ++ sourcesIn board devices ptm) :
    ∃ c ∈ disableAllCalls board devices ptm, c.switches d = some false := by
  simp only [Devices.collecting, sourcesIn, List.mem_append, List.mem_cons, List.mem_map] at hd
  simp only [disableAllCalls, List.mem_append, List.mem_cons, List.mem_flatMap]
  rcases hd with (rfl | hd | hd) | rfl | ⟨i, hi, rfl⟩
  · exact ⟨.sinkDisable devices.etb, by simp, by simp [switches, enables, disables]⟩
  · split at hd
    · cases hd
    · rename_i present
      rw [List.mem_singleton.mp hd]
      exact ⟨.sinkDisable devices.tpiu, by simp [present], by simp [switches, enables, disables]⟩
  · refine ⟨.sinkDisable d, .inr (.inr (.inl ⟨d, hd, ?_⟩)), by simp [switches, enables, disables]⟩
    simp [nonnull d hd]
  · exact ⟨.traceDisable devices.itm, by simp, by simp [switches, enables, disables]⟩
  · exact ⟨.traceDisable (ptm i), .inl ⟨i, hi, .inl rfl⟩, by simp [switches, enables, disables]⟩

end

/-! ## The functions -/

section
variable {e : Csal} {x y : Fn Rig Unit} {xs ys : (Nat → Dev) → List CsCall} {c : CsCall}

theorem makes_pure : Makes e (pure ()) fun _ => [] := fun _ => rfl

theorem makes_call : Makes e (call e c) fun _ => [c] := fun _ => rfl

theorem Makes.bind (hx : Makes e x xs) (hy : Makes e y ys) :
    Makes e (x >>= fun _ => y) fun ptm => xs ptm ++ ys ptm := by
  intro r
  simp only [Bind.bind, EStateM.bind, hx r, hy _, made_append, made_ptm]

theorem Makes.when (b : Bool) (hx : Makes e x xs) :
    Makes e (when b x) fun ptm => if b then xs ptm else [] := by
  cases b
  · exact makes_pure
  · exact hx

theorem makes_each {α : Type} {body : α → Fn Rig Unit} {calls : (Nat → Dev) → α → List CsCall}
    (l : List α) (h : ∀ a ∈ l, Makes e (body a) fun ptm => calls ptm a) :
    Makes e (each l body) fun ptm => l.flatMap (calls ptm) := by
  induction l with
  | nil => exact makes_pure
  | cons a l ih =>
    rw [List.forall_mem_cons] at h
    exact h.1.bind (ih h.2)

theorem Makes.next {α : Type} {f : Unit → Fn Rig α} {Q : α → Rig → Prop} {E : Exit → Rig → Prop}
    {r : Rig} (hx : Makes e x xs) (rest : Ensures (f ()) Q E (r.made e (xs r.ptm))) :
    Ensures (x >>= f) Q E r :=
  (ensures_bind x f).mpr ((ensures_of_ok (hx r)).mpr rest)

/-- What a function with an error check at its end returns and leaves. -/
def Ends (e : Csal) (x : Fn Rig Int) (calls : (Nat → Dev) → List CsCall) : Prop :=
  ∀ r, enclose x r =
    .ok (if r.errorCount = 0 then 0 else -1) ((r.made e (calls r.ptm)).log .errorCount)

theorem ends_check : Ends e (do checkErrors; pure 0) fun _ => [] := by
  intro r
  have counted : csErrorCount r = .ok r.errorCount (r.log .errorCount) := rfl
  rw [checkErrors, bind_assoc, enclose_bind counted]
  by_cases none : r.errorCount = 0
  · simp only [none]
    rfl
  · have some : (r.errorCount == 0) = false := beq_eq_false_iff_ne.mpr none
    rw [some, if_neg none]
    rfl

theorem makes_callPtm (on : Dev → CsCall) (i : Nat) :
    Makes e (callPtm e on i) fun ptm => [on (ptm i)] := fun _ => rfl

/-- A flush reads the flag and the register that were there before it. -/
theorem flush_eq (devices : Devices) (r : Rig) :
    csEtbFlushAndWaitStop e devices r = .ok () (r.made e (flushCalls e devices r)) := by
  have enabled : csSinkIsEnabled e devices.etb r =
      .ok (r.enabled devices.etb) (r.after e (.sinkIsEnabled devices.etb)) := by
    rw [← @after_unswitched e r (.sinkIsEnabled devices.etb) devices.etb rfl]
    rfl
  have read : ((r.after e (.sinkIsEnabled devices.etb)).after e
      (.deviceRead devices.etb .flfmtCtrl)).reg = r.reg := by
    simp only [Rig.after, perform, ite_self]
  rw [csEtbFlushAndWaitStop, bind_ok enabled]
  simp only [flushCalls, Fn.when]
  split
  · rw [← read]
    rfl
  · rfl

theorem makes_disableSink (d : Dev) :
    Makes e (disableSink e d) fun _ => if d = 0 then [] else [.sinkDisable d] := by
  intro r
  by_cases absent : d = 0
  · simp only [disableSink, Fn.when, absent]
    rfl
  · simp only [disableSink, Fn.when, bne_iff_ne.mpr absent, if_neg absent]
    rfl

theorem makes_disableSinks {devices : Devices} :
    Makes e (each devices.traceSinks (disableSink e)) fun _ =>
      devices.traceSinks.flatMap fun d => if d = 0 then [] else [.sinkDisable d] :=
  makes_each devices.traceSinks fun d _ => makes_disableSink d

variable (h : e.Succeeds)

include h

theorem Makes.before {y : Fn Rig Int} (hx : Makes e x xs) (hy : Ends e y ys) :
    Ends e (x >>= fun _ => y) fun ptm => xs ptm ++ ys ptm := by
  intro r
  have rest := hy (r.made e (xs r.ptm))
  rw [made_errorCount h, made_ptm, ← made_append] at rest
  rw [← rest]
  exact enclose_bind (hx r)

theorem makes_must : Makes e (must e c) fun _ => [c] := by
  intro r
  have answer := h r.calls c
  simp only [must, op, require, answer, bind, EStateM.bind]
  rfl

theorem makes_mustNotFail : Makes e (mustNotFail e c) fun _ => [c] := by
  intro r
  have answer := h r.calls c
  simp only [mustNotFail, op, require, answer, bind, EStateM.bind]
  rfl

theorem makes_enableEtf (d : Dev) : Makes e (enableEtf e d) fun _ => enableEtfCalls d :=
  (makes_must h).bind (makes_must h)

/-- Calls for the TPIU, if there is one. -/
theorem makes_tpiu (c : Dev → CsCall) (devices : Devices) :
    Makes e (when (devices.tpiu != 0) (must e (c devices.tpiu)))
      fun _ => if devices.tpiu = 0 then [] else [c devices.tpiu] := by
  have made := (@makes_must e (c devices.tpiu) h).when (devices.tpiu != 0)
  by_cases absent : devices.tpiu = 0
  · simpa [absent] using made
  · simpa [absent] using made

theorem enableTraceSinksOnly_eq (devices : Devices) (r : Rig) :
    enableTraceSinksOnly e devices r = .ok (if r.errorCount = 0 then 0 else -1)
      ((r.made e (enableSinksCalls devices ++ [.checkpoint])).log .errorCount) := by
  have etfs := makes_each devices.traceSinks fun d _ => makes_enableEtf h d
  have all := (@makes_must e (.sinkEnable devices.etb) h).before h
    ((makes_tpiu h .sinkEnable devices).before h
      (etfs.before h ((@makes_call e .checkpoint).before h ends_check)))
  rw [enableTraceSinksOnly, all, enableSinksCalls]
  simp only [List.append_assoc, List.append_nil, List.cons_append, List.nil_append]

theorem enableTrace_eq (board : Board) (devices : Devices) (ram : BitVec 64 × BitVec 64) (r : Rig) :
    enableTrace e (some board) devices ram r = .ok (if r.errorCount = 0 then 0 else -1)
      ((r.made e (.sinkEtrSetup devices.etb ⟨ram.1, ram.2, board.etrAxictl⟩ ::
        enableSinksCalls devices ++ enableSourcesCalls e board devices r.ptm)).log .errorCount) := by
  have etfs := makes_each devices.traceSinks fun d _ => makes_enableEtf h d
  have etms := makes_each (List.range board.nCpu) fun i _ =>
    @makes_callPtm e .traceEnable i
  have diag := (@makes_call e .ctiDiag).when (0 < e.registrationVerbose)
  have last := (@makes_call e .checkpoint).before h (diag.before h ends_check)
  have stm := (@makes_mustNotFail e (.traceSwstimEnableAllPorts devices.itm) h).before h
    ((@makes_mustNotFail e (.traceSwstimSetSyncRepeat devices.itm 32) h).before h
      ((@makes_call e (.traceEnable devices.itm)).before h last))
  have sinks := (@makes_must e (.sinkEnable devices.etb) h).before h
    ((makes_tpiu h .sinkEnable devices).before h (etfs.before h (etms.before h stm)))
  have all := (@makes_must e (.sinkEtrSetup devices.etb ⟨ram.1, ram.2, board.etrAxictl⟩) h).before h
    sinks
  rw [enableTrace, all, enableSinksCalls, enableSourcesCalls]
  simp only [List.append_assoc, List.append_nil, List.cons_append, List.nil_append,
    decide_eq_true_eq]

theorem disableTraceSinksOnly_eq (devices : Devices) (r : Rig) :
    disableTraceSinksOnly e devices r = .ok (if r.errorCount = 0 then 0 else -1)
      ((r.made e (flushCalls e devices r ++ disableSinksCalls devices)).log .errorCount) := by
  have etfs := @makes_disableSinks e devices
  have all := (makes_tpiu h .sinkDisable devices).before h (etfs.before h
    ((@makes_call e (.sinkDisable devices.etb)).before h ends_check))
    (r.made e (flushCalls e devices r))
  rw [made_errorCount h, ← made_append] at all
  rw [disableTraceSinksOnly, enclose_bind (flush_eq devices r), all, disableSinksCalls]
  simp only [List.append_assoc, List.append_nil]

/-- `disable_trace` ends with diagnostics, which may break off but change no
device. -/
theorem disableTrace_ensures {Q : Rig → Prop} (looks : Stable e looking Q) {board : Board}
    {devices : Devices} {r : Rig}
    (lowered : Q (r.made e (flushCalls e devices r ++ disableAllCalls board devices r.ptm))) :
    Ensures (disableTrace e (some board) devices) (fun _ => Q) (fun _ => Q) r := by
  have etms := makes_each (List.range board.nCpu) fun i _ => @makes_callPtm e .traceDisable i
  have etfs := @makes_disableSinks e devices
  have rest : Keeps Q (do
      when (1 < e.registrationVerbose) do
        each (List.range board.nCpu) fun i => do
          let r ← get
          showEtmConfig e (r.ptm i)
      checkErrors
      pure (0 : Int)) := by
    apply (keeps_when _ (looks.showEtmConfigs _)).bind
    exact fun _ => looks.checked
  apply Ensures.enclosed
  apply (ensures_bind _ _).mpr
  apply (ensures_of_ok (flush_eq devices r)).mpr
  apply etms.next
  apply (@makes_call e (.traceDisable devices.itm)).next
  apply etfs.next
  apply (@makes_call e (.sinkDisable devices.etb)).next
  apply (makes_tpiu h .sinkDisable devices).next
  simp only [made_ptm, ← made_append]
  simp only [disableAllCalls, List.append_assoc, List.cons_append, List.nil_append] at lowered ⊢
  exact rest _ lowered

end

end Ultrasight
