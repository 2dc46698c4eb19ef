import Ultrasight.Healthy

/-!
# What `configure_trace` writes into the ETMs

When it succeeds, the ETM of every CPU was found, includes exactly the address
range it was given, and selects the process. Of the library it is only relied on
that configurations are written and that `cs_etm_clean` reports a failure by a
negative value.
-/

namespace Ultrasight

open Fn CsCall

structure Csal.Configures (e : Csal) : Prop where
  put : ∀ before d config, (e.answer before (.etmConfigPut d config)).rc = 0
  clean : ∀ before d, (e.answer before (.etmClean d)).rc ≤ 0

theorem Csal.Succeeds.configures {e : Csal} (h : e.Succeeds) : e.Configures where
  put before d config := by rw [h]
  clean before d := Int.le_of_eq (by rw [h])

/-- The address that a comparator holds. -/
def AdrCmp.address (c : AdrCmp) : BitVec 64 := c.acvrH ++ c.acvrL

/-- The comparators hold the range, and are tied (bits 3:2 are 01) to context
comparator 0 (bits 6:4), which holds `cid`; pair 0 is the one that is included. -/
structure Selects (e : Csal) (range : MapInfo) (cid : BitVec 64) (regs : EtmRegs) : Prop where
  pair : regs.viiectlr = 1
  start : (regs.addrComps 0).address = range.start
  stop : (regs.addrComps 1).address = range.stop
  tied : ∀ k < 2, (regs.addrComps k).acatrL = e.excludedLevels ||| 0x4
  cid : regs.cid = cid

/-! ## One configuration -/

theorem word_halves (word : BitVec 64) : (word >>> 32).setWidth 32 ++ word.setWidth 32 = word := by
  ext i hi
  simp only [BitVec.getElem_append, BitVec.getElem_setWidth, BitVec.getLsbD_ushiftRight]
  split
  · simp [BitVec.getLsbD_eq_getElem hi]
  · rw [show 32 + (i - 32) = i by omega]
    simp [BitVec.getLsbD_eq_getElem hi]

theorem signExtend_pos {pid : BitVec 32} (nonzero : pid ≠ 0) : 0 < pid.signExtend 64 := by
  have low : (pid.signExtend 64).setWidth 32 = pid := by
    ext i hi
    simp [hi, BitVec.getLsbD_signExtend]
    omega
  rw [BitVec.lt_def]
  apply Nat.pos_of_ne_zero
  intro toNat
  have zero : pid.signExtend 64 = 0 := BitVec.eq_of_toNat_eq toNat
  rw [zero] at low
  exact nonzero low.symm

section
variable {e : Csal}

/-- What is put selects the range, if no other range was included before. -/
theorem put_selects (range : MapInfo) {cid : BitVec 64} (nonzero : 0 < cid) {t : EtmConfig}
    (traces : t.flags.traceEnable = true) (fresh : t.regs.viiectlr ||| 1 = 1) (hw : EtmRegs) :
    Selects e range cid ((setRange e range cid (setCid cid t)).put hw) := by
  have context : (t.cxidCompsAccMask ||| 1).getLsbD 0 = true := by simp
  have first : (t.addrCompsAccMask ||| 3).getLsbD 0 = true := by simp
  have second : (t.addrCompsAccMask ||| 3).getLsbD 1 = true := by simp
  have zero : (0 : Nat) ≠ 1 := by decide
  constructor
  · simpa [EtmConfig.put, EtmConfig.copy, setRange, setCid, traces] using fresh
  · simp only [AdrCmp.address, EtmConfig.put, EtmConfig.copy, setRange, setCid, first,
      setEtmv4AddrRange, Function.update_of_ne zero, Function.update_self, Bool.true_and, if_true]
    exact word_halves range.start
  · simp only [AdrCmp.address, EtmConfig.put, EtmConfig.copy, setRange, setCid, second,
      setEtmv4AddrRange, Function.update_self, Bool.true_and, if_true]
    exact word_halves range.stop
  · intro k hk
    obtain rfl | rfl : k = 0 ∨ k = 1 := by omega
    · simp only [EtmConfig.put, EtmConfig.copy, setRange, setCid, first, setEtmv4AddrRange,
        Function.update_of_ne zero, Function.update_self, Bool.true_and, if_true, if_pos nonzero]
      rfl
    · simp only [EtmConfig.put, EtmConfig.copy, setRange, setCid, second, setEtmv4AddrRange,
        Function.update_self, Bool.true_and, if_true, if_pos nonzero]
      rfl
  · simp only [EtmRegs.cid, EtmConfig.put, EtmConfig.copy, setRange, setCid, context,
      Function.update_self, Bool.true_and, if_true]
    exact word_halves cid

end

/-! ## One function -/

/-- An exit that does not look like a success. -/
def Failing (x : Exit) : Prop := ∀ rc, x = .ret rc → rc < 0

theorem failing_ret {rc : Int} (negative : rc < 0) : Failing (.ret rc) := by
  intro rc' same
  cases same
  exact negative

theorem failing_crash : Failing .crash := by
  intro rc same
  cases same

/-- A function whose early exits are failures establishes what its end does. -/
theorem ensures_success {x : Fn Rig Int} {P : Rig → Prop} {r : Rig}
    (body : Ensures x (fun _ => P) (fun x _ => Failing x) r) :
    Ensures (enclose x) (fun rc r' => 0 ≤ rc → P r') (fun x _ => x = .crash) r := by
  apply (ensures_enclose _).mpr
  apply body.mono
  · exact fun _ r' holds _ => holds
  · intro x r' failing
    cases x with
    | ret rc =>
      intro success
      have := failing rc rfl
      omega
    | crash => rfl

section
variable {e : Csal} (h : e.Configures)

include h

/-- The registers after a configuration is put. -/
theorem after_put (d : Dev) (config : EtmConfig) (r : Rig) :
    (r.after e (.etmConfigPut d config)).etm = Function.update r.etm d (config.put (r.etm d)) := by
  simp only [Rig.after, h.put, if_true, perform]

/-- An ETM that `init_etm` has set up is an ETMv4 and includes no range. -/
theorem initEtm_ensures (dev : Dev) (r : Rig) :
    Ensures (initEtm e dev)
      (fun rc r' => r'.ptm = r.ptm ∧ (∀ d ≠ dev, r'.etm d = r.etm d) ∧
        (0 ≤ rc → e.isEtmv4 dev = true ∧ (r'.etm dev).viiectlr = 0))
      (fun x _ => x = .crash) r := by
  have cleaned {d : Dev} (other : d ≠ dev) (r : Rig) :
      (r.after e (.etmClean dev)).etm d = r.etm d :=
    after_etm fun same => other (Option.some.inj same).symm
  simp only [initEtm, csDeviceHasClass, csEtmConfigInitEx, csEtmConfigGetEx, ensures_enclose,
    ensures_bind, ensures_call, ensures_op, ensures_get, ensures_pure, ensures_assert,
    ensures_require, after_ptm, beq_iff_eq, beq_eq_false_iff_ne]
  refine ⟨fun _ => ⟨fun _ => ⟨fun v4 => ⟨trivial, ?_, fun _ => ⟨v4, ?_⟩⟩, fun _ => trivial⟩, ?_⟩,
    fun _ => trivial⟩
  · intro d other
    rw [after_put h, Function.update_of_ne other, after_unprogrammed rfl, after_unprogrammed rfl,
      cleaned other, after_unprogrammed rfl, after_unprogrammed rfl]
  · rw [after_put h, Function.update_self]
    rfl
  · intro failed
    refine ⟨trivial, fun d other => ?_, fun success => ?_⟩
    · rw [cleaned other, after_unprogrammed rfl, after_unprogrammed rfl]
    · exact absurd (Int.le_antisymm (h.clean _ _) success) failed

/-- One ETM is programmed; no other is touched. -/
theorem configureEtm_ensures {cid : BitVec 64} (nonzero : 0 < cid) (etm : Dev) (range : MapInfo)
    {r : Rig} (fresh : (r.etm etm).viiectlr ||| 1 = 1) :
    Ensures (configureEtmv4AddrRangeCid e etm range cid)
      (fun rc r' => (rc = 0 ∨ rc = -1) ∧ r'.ptm = r.ptm ∧ Selects e range cid (r'.etm etm) ∧
        ∀ d ≠ etm, r'.etm d = r.etm d)
      (fun x _ => x = .crash) r := by
  let Written (r' : Rig) : Prop :=
    r'.ptm = r.ptm ∧ Selects e range cid (r'.etm etm) ∧ ∀ d ≠ etm, r'.etm d = r.etm d
  have looks : Stable e looking Written := stable_view e fun ptm _ regs =>
    ptm = r.ptm ∧ Selects e range cid (regs etm) ∧ ∀ d ≠ etm, regs d = r.etm d
  have tail (r' : Rig) (written : Written r') : Ensures (do
      when (0 < e.registrationVerbose) (showEtmConfig e etm)
      checkErrors
      pure (0 : Int)) (fun rc r'' => rc = 0 ∧ Written r'')
      (fun x r'' => (x = .ret (-1) ∨ x = .crash) ∧ Written r'') r' := by
    apply Ensures.with
    · simp [showEtmConfig, checkErrors, csErrorCount, csDeviceHasClass, -bind_pure_comp]
    · apply (keeps_when _ (looks.showEtmConfig etm)).bind
      exact fun _ => looks.checked
    · exact written
  have put (config : EtmConfig) (r' : Rig) (ptm : r'.ptm = r.ptm) (regs : r'.etm = r.etm)
      (selects : Selects e range cid (config.put (r.etm etm))) :
      Written (r'.after e (.etmConfigPut etm config)) := by
    simp only [Written, after_put h, after_ptm, ptm, regs, Function.update_self, true_and]
    exact ⟨selects, fun d other => Function.update_of_ne other _ _⟩
  apply (ensures_enclose _).mpr
  simp only [csEtmConfigInitEx, csEtmConfigGetEx, bind_assoc, pure_bind, ensures_bind (call e _),
    ensures_bind (op e _), ensures_bind get, ensures_call, ensures_op, ensures_get]
  rw [if_pos nonzero]
  apply (tail _ (put _ _ ?_ ?_ ?_)).mono
  · rintro rc r' ⟨rfl, written⟩
    exact ⟨.inl rfl, written⟩
  · rintro x r' ⟨rfl | rfl, written⟩
    · exact ⟨.inr rfl, written⟩
    · trivial
  · simp only [after_ptm]
  · rw [after_unprogrammed rfl, after_unprogrammed rfl]
  · apply put_selects range nonzero
    · split <;> rfl
    · have initial : EtmConfig.init.regs.viiectlr ||| 1 = 1 := by decide
      split
      · rw [after_unprogrammed rfl, after_unprogrammed rfl]
        exact fresh
      · exact initial

/-! ## The two loops -/

/-- The ETM of a CPU is found, and is one that `programPtm` programs. -/
def Found (e : Csal) (i : Nat) (r : Rig) : Prop :=
  r.ptm i = e.source i ∧ e.isEtmv4 (e.source i) = true

/-- Such an ETM that includes no other range than that of comparator pair 0. -/
def Initialised (e : Csal) (i : Nat) (r : Rig) : Prop :=
  Found e i r ∧ (r.etm (e.source i)).viiectlr ||| 1 = 1

theorem preparePtm_ensures {done : List Nat} (i : Nat) {r : Rig}
    (found : ∀ j ∈ done, Initialised e j r) :
    Ensures (preparePtm e i) (fun _ r' => ∀ j ∈ done ++ [i], Initialised e j r')
      (fun x _ => Failing x) r := by
  simp only [preparePtm, csCpuGetDevice, ensures_bind, ensures_op, ensures_pure, ensures_modify,
    ensures_require]
  refine ⟨fun there => ⟨fun _ => ?_, fun _ => failing_ret (by decide)⟩,
    fun _ => failing_ret (by decide)⟩
  by_cases answered : (e.answer r.calls (.cpuGetDevice i)).rc = 0
  · rw [if_pos answered]
    apply (initEtm_ensures h _ _).mono
    · rintro rc r' ⟨ptm, others, initialised⟩
      refine ⟨fun success j hj => ?_, fun _ => failing_ret (by decide)⟩
      obtain ⟨v4, none⟩ := initialised (by simpa using success)
      simp only [after_ptm, after_unprogrammed (c := .setTraceSourceId _ _) rfl,
        after_unprogrammed (c := .cpuGetDevice _) rfl] at ptm others
      by_cases same : j = i
      · subst same
        refine ⟨⟨by rw [ptm, Function.update_self], v4⟩, ?_⟩
        rw [none]
        rfl
      · have earlier : j ∈ done := by simpa [same] using hj
        obtain ⟨⟨place, version⟩, fresh⟩ := found j earlier
        refine ⟨⟨by rw [ptm, Function.update_of_ne same, place], version⟩, ?_⟩
        by_cases shared : e.source j = e.source i
        · rw [shared, none]
          rfl
        · rw [others _ shared]
          exact fresh
    · rintro x r' rfl
      exact failing_crash
  · simp [answered] at there

theorem programPtm_ensures {pid : BitVec 32} (nonzero : pid ≠ 0) (range : MapInfo) {n i : Nat}
    {done : List Nat} (inside : i < n) {r : Rig} (found : ∀ j < n, Initialised e j r)
    (written : ∀ j ∈ done, Selects e range (pid.signExtend 64) (r.etm (e.source j))) :
    Ensures (programPtm e range pid i)
      (fun _ r' => (∀ j < n, Initialised e j r') ∧
        ∀ j ∈ done ++ [i], Selects e range (pid.signExtend 64) (r'.etm (e.source j)))
      (fun x _ => Failing x) r := by
  obtain ⟨⟨ptm, v4⟩, fresh⟩ := found i inside
  have version : etmv4 ≤ e.etmMajor (e.source i) := e.etmv4 _ v4
  have looked : (r.after e (.etmGetVersion (e.source i))).etm = r.etm := after_unprogrammed rfl
  simp only [programPtm, ptm, ensures_bind, ensures_get, ensures_call, ensures_when, version,
    decide_true, ensures_require]
  refine ⟨fun _ => ?_, fun impossible => absurd impossible (by decide)⟩
  apply (configureEtm_ensures h (signExtend_pos nonzero) _ range (by rw [looked]; exact fresh)).mono
  · rintro rc r' ⟨result, ptm', selects, others⟩
    rw [looked] at others
    constructor
    · intro _
      refine ⟨fun j hj => ?_, fun j hj => ?_⟩
      · obtain ⟨⟨place, version'⟩, fresh'⟩ := found j hj
        refine ⟨⟨by rw [ptm', after_ptm, place], version'⟩, ?_⟩
        by_cases same : e.source j = e.source i
        · rw [same, selects.pair]
          rfl
        · rw [others _ same]
          exact fresh'
      · by_cases same : e.source j = e.source i
        · rw [same]
          exact selects
        · have earlier : j ∈ done := by
            cases List.mem_append.mp hj with
            | inl early => exact early
            | inr late => exact absurd (by rw [List.mem_singleton.mp late]) same
          rw [others _ same]
          exact written j earlier
    · intro nonzero
      rcases result with rfl | rfl
      · cases nonzero
      · exact failing_ret (by decide)
  · rintro x r' rfl
    exact failing_crash

theorem preparePtms_ensures (n : Nat) (r : Rig) :
    Ensures (each (List.range n) (preparePtm e)) (fun _ r' => ∀ j < n, Initialised e j r')
      (fun x _ => Failing x) r := by
  have none : ∀ j ∈ ([] : List Nat), Initialised e j r := fun j hj => absurd hj List.not_mem_nil
  have loop := ensures_each (fun done r => ∀ j ∈ done, Initialised e j r)
    (fun done i _ (_ : List.range n = _) r' found => preparePtm_ensures h i found) none
  apply loop.mono
  · exact fun _ r' found j hj => found j (List.mem_range.mpr hj)
  · exact fun _ _ failing => failing

theorem programPtms_ensures {pid : BitVec 32} (nonzero : pid ≠ 0) (range : MapInfo) {n : Nat}
    {r : Rig} (found : ∀ j < n, Initialised e j r) :
    Ensures (each (List.range n) (programPtm e range pid))
      (fun _ r' => ∀ j < n, r'.ptm j = e.source j ∧
        Selects e range (pid.signExtend 64) (r'.etm (e.source j))) (fun x _ => Failing x) r := by
  have loop := ensures_each (fun done r => (∀ j < n, Initialised e j r) ∧
      ∀ j ∈ done, Selects e range (pid.signExtend 64) (r.etm (e.source j)))
    (fun done i rest (split : List.range n = _) r' ⟨found, written⟩ => by
      have inside : i < n := List.mem_range.mp (split ▸ List.mem_append_right _ List.mem_cons_self)
      exact programPtm_ensures h nonzero range inside found written)
    ⟨found, List.forall_mem_nil _⟩
  apply loop.mono
  · exact fun _ r' written j hj => ⟨(written.1 j hj).1.1, written.2 j (List.mem_range.mpr hj)⟩
  · exact fun _ _ failing => failing

/-- The ETMs after a `configure_trace` that succeeds. -/
theorem configureTrace_ensures {pid : BitVec 32} (nonzero : pid ≠ 0) (board : Board)
    (devices : Devices) (range : MapInfo) (r : Rig) :
    Ensures (configureTrace e (some board) devices range pid)
      (fun rc r' => 0 ≤ rc → ∀ i < board.nCpu, r'.ptm i = e.source i ∧
        Selects e range (pid.signExtend 64) (r'.etm (e.source i))) (fun x _ => x = .crash) r := by
  let Written (r' : Rig) : Prop := ∀ i < board.nCpu, r'.ptm i = e.source i ∧
    Selects e range (pid.signExtend 64) (r'.etm (e.source i))
  have looks : Stable e looking Written := stable_view e fun ptm _ regs =>
    ∀ i < board.nCpu, ptm i = e.source i ∧ Selects e range (pid.signExtend 64) (regs (e.source i))
  apply ensures_success
  simp only [ensures_bind (call e _), ensures_call]
  apply (ensures_bind _ _).mpr
  apply (preparePtms_ensures h board.nCpu _).mono _ (fun _ _ failing => failing)
  intro _ r₁ found
  simp only [ensures_bind (op e _), ensures_op, ensures_bind (call e _), ensures_call,
    ensures_bind (require _ _), ensures_require]
  refine ⟨fun _ => ?_, fun _ => failing_ret (by decide)⟩
  apply (ensures_bind _ _).mpr
  have tail (r' : Rig) (written : Written r') : Ensures (do
        let ffcrVal ← csDeviceRead e devices.etb .flfmtCtrl
        call e (.deviceWrite devices.etb .flfmtCtrl (ffcrVal ||| e.stopFl))
        checkErrors
        pure (0 : Int)) (fun _ r'' => True ∧ Written r'') (fun x r'' => Failing x ∧ Written r'') r' := by
    apply Ensures.with
    · simp [csDeviceRead, checkErrors, csErrorCount, failing_ret, -bind_pure_comp]
    · refine (looks.csDeviceRead rfl).bind fun ffcrVal => ?_
      refine (looks.call rfl).bind fun _ => ?_
      exact looks.checked
    · exact written
  apply (@programPtms_ensures e h pid nonzero range board.nCpu _ ?_).mono _
    (fun _ _ failing => failing)
  · intro j hj
    unfold Initialised Found
    rw [after_ptm, after_ptm, after_unprogrammed rfl, after_unprogrammed rfl]
    exact found j hj
  · intro _ r₂ programmed
    apply (tail r₂ programmed).mono
    · exact fun _ _ kept => kept.2
    · exact fun _ _ kept => kept.1

end

end Ultrasight
