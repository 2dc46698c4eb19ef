import Ultrasight.Retries
import Ultrasight.Sinks

/-!
# The attempts of `disable_cs_trace`

An attempt to disable fails if its own checks do, or if errors are counted at
its end, whoever raised them. `disable_cs_trace` makes up to eight attempts and
resets the count after each that failed, so that what was left by earlier calls
costs one attempt.

* `ChecksPass` and `OwnClean` are about one attempt;
* `attempt_success`: when it succeeds;
* `disable_retries`: what all attempts make of it.
-/

namespace Ultrasight

open Fn CsCall

section
variable {e : Csal} {board : Board} {devices : Devices} {r : Rig}

/-- `disable_trace` up to its look at the TPIU. -/
def sourcesOff (e : Csal) (board : Board) (devices : Devices) (r : Rig) : List CsCall :=
  flushCalls e devices r ++ (List.range board.nCpu).flatMap (fun i => [.traceDisable (r.ptm i)]) ++
    [.traceDisable devices.itm] ++
    devices.traceSinks.flatMap (fun d => if d = 0 then [] else [.sinkDisable d]) ++
    [.sinkDisable devices.etb]

/-- There is no TPIU, or it can be disabled after these calls. -/
def TpiuOff (e : Csal) (devices : Devices) (calls : List CsCall) (r : Rig) : Prop :=
  devices.tpiu = 0 ∨ (e.answer (calls.reverse ++ r.calls) (.sinkDisable devices.tpiu)).rc = 0

/-- A function succeeds if its own checks do and no errors are counted. -/
def Judged (checks : Prop) (rc : Int) (r : Rig) : Prop := 0 ≤ rc ↔ checks ∧ r.errorCount = 0

theorem judged_fails {checks : Prop} {r' : Rig} (fails : ¬ (checks ∧ r'.errorCount = 0)) :
    Judged checks (-1) r' :=
  ⟨fun impossible => absurd impossible (by decide), fun passes => absurd passes fails⟩

/-- An early return, as `ensures_ended` asks for it. -/
theorem left_early {Q : Int → Prop} {rc : Int} {died : Prop} (h : Q rc) :
    (∀ rc', Exit.ret rc = .ret rc' → Q rc') ∧ (Exit.ret rc = .crash → died) := by
  refine ⟨?_, by simp⟩
  rintro rc' ⟨⟩
  exact h

/-- The end of a function whose checks passed. -/
theorem ends_judged {checks : Prop} {E : Exit → Rig → Prop} (passed : checks)
    (stopped : ∀ r', Judged checks (-1) r' → E (.ret (-1)) r') (r : Rig) :
    Ensures (do checkErrors; pure (0 : Int)) (Judged checks) E r := by
  simp only [checkErrors, csErrorCount, bind_assoc, pure_bind, ensures_bind, ensures_modify,
    ensures_get, ensures_require, ensures_pure]
  constructor
  · intro none
    have clean : (r.log .errorCount).errorCount = 0 := beq_iff_eq.mp none
    exact ⟨fun _ => ⟨passed, clean⟩, fun _ => Int.le_refl 0⟩
  · intro some
    apply stopped
    apply judged_fails
    rintro ⟨_, clean⟩
    exact beq_eq_false_iff_ne.mp some clean

/-- The rest of a function from its look at the TPIU on. -/
theorem tpiu_judged {calls : List CsCall} {rest : Fn Rig Int} {E : Exit → Rig → Prop}
    (passed : TpiuOff e devices calls r →
      ∀ r', Ensures rest (Judged (TpiuOff e devices calls r)) E r')
    (stopped : ∀ r', Judged (TpiuOff e devices calls r) (-1) r' → E (.ret (-1)) r') :
    Ensures (do when (devices.tpiu != 0) (must e (.sinkDisable devices.tpiu)); rest)
      (Judged (TpiuOff e devices calls r)) E (r.made e calls) := by
  simp only [ensures_bind, ensures_when, ensures_must, made_calls, bne_iff_ne]
  refine ⟨fun present => ⟨fun works => passed (.inr works) _, fun fails => ?_⟩, fun absent => ?_⟩
  · apply stopped
    apply judged_fails
    rintro ⟨absent | works, _⟩
    · exact present absent
    · exact fails works
  · exact passed (.inl (by simpa using absent)) _

theorem disableTraceSinksOnly_judged (r : Rig) : Ensures (disableTraceSinksOnly e devices)
    (Judged (TpiuOff e devices (flushCalls e devices r) r)) (fun _ _ => False) r := by
  apply ensures_ended
  apply (ensures_bind _ _).mpr
  apply (ensures_of_ok (flush_eq devices r)).mpr
  apply tpiu_judged
  · intro passed r'
    apply makes_disableSinks.next
    apply (@makes_call e (.sinkDisable devices.etb)).next
    exact ends_judged passed (fun _ judged => left_early judged) _
  · exact fun _ judged => left_early judged

/-- It dies only in diagnostics that are switched on. -/
theorem disableTrace_judged (r : Rig) : Ensures (disableTrace e (some board) devices)
    (Judged (TpiuOff e devices (sourcesOff e board devices r) r))
    (fun x _ => x = .crash ∧ 1 < e.registrationVerbose) r := by
  have etms := makes_each (List.range board.nCpu) fun i _ => @makes_callPtm e .traceDisable i
  have shown (r' : Rig) : Ensures (each (List.range board.nCpu) fun i => do
      let r ← get
      showEtmConfig e (r.ptm i)) (fun _ _ => True) (fun x _ => x = .crash) r' := by
    apply ensures_each fun _ _ => True
    · intro done i rest split s _
      simp [showEtmConfig, csDeviceHasClass]
    · trivial
  apply ensures_ended
  apply (ensures_bind _ _).mpr
  apply (ensures_of_ok (flush_eq devices r)).mpr
  apply etms.next
  apply (@makes_call e (.traceDisable devices.itm)).next
  apply makes_disableSinks.next
  apply (@makes_call e (.sinkDisable devices.etb)).next
  simp only [made_ptm, ← made_append]
  apply tpiu_judged
  · intro passed r'
    apply (ensures_bind _ _).mpr
    apply (ensures_when _ _).mpr
    constructor
    · intro loud
      apply (shown r').mono
      · exact fun _ r'' _ => ends_judged passed (fun _ judged => left_early judged) r''
      · rintro x r'' rfl
        exact ⟨by simp, fun _ => ⟨trivial, of_decide_eq_true loud⟩⟩
    · exact fun _ => ends_judged passed (fun _ judged => left_early judged) r'
  · exact fun _ judged => left_early judged

end

namespace Session

/-- The calls of an attempt up to its look at the TPIU. -/
def untilTpiu (e : Csal) (all : Bool) (g : Globals) : List CsCall :=
  match all, g.board with
  | true, some board => sourcesOff e board g.devices g.rig
  | _, _ => flushCalls e g.devices g.rig

/-- The checks that an attempt makes itself. -/
def ChecksPass (e : Csal) (all : Bool) (g : Globals) : Prop :=
  (all = true → g.board ≠ none) ∧ TpiuOff e g.devices (untilTpiu e all g) g.rig

/-- An attempt that raised no errors and failed none of its checks. -/
def OwnClean (e : Csal) (all : Bool) (t : Try Globals) : Prop :=
  ChecksPass e all t.before ∧ t.after.rig.errorCount = t.before.rig.errorCount

/-- `cs_reset_error_count` between two attempts. -/
def resetErrors (g : Globals) : Globals :=
  { g with rig := { g.rig.log .resetErrorCount with errorCount := 0 } }

variable {e : Csal} {all : Bool}

theorem disableLoop_eq_retry (trials : Nat) (ret : Int) :
    disableLoop e all trials ret = retry (disableAttempt e all) resetErrors trials ret := by
  induction trials generalizing ret with
  | zero => rfl
  | succ trials ih =>
    rw [disableLoop, retry]
    congr
    funext ret
    rw [ih]
    rfl

theorem attempt_judged (g : Globals) : Ensures (disableAttempt e all)
    (fun rc g' => 0 ≤ rc ↔ ChecksPass e all g ∧ g'.rig.errorCount = 0)
    (fun x _ => x = .crash ∧ all = true ∧ 1 < e.registrationVerbose) g := by
  cases all with
  | false =>
    simp only [disableAttempt, onRig, ensures_bind, ensures_get, ensures_zoom, Bool.false_eq_true,
      if_false]
    apply (disableTraceSinksOnly_judged g.rig).mono _ (fun _ _ never => never.elim)
    intro rc r judged
    simpa [Judged, ChecksPass, untilTpiu] using judged
  | true =>
    simp only [disableAttempt, onRig, ensures_bind, ensures_get, ensures_zoom, if_true]
    cases found : g.board with
    | none => simp [disableTrace, ChecksPass, found]
    | some board =>
      apply (disableTrace_judged g.rig).mono
      · intro rc r judged
        simpa [Judged, ChecksPass, untilTpiu, found] using judged
      · exact fun x _ died => ⟨died.1, trivial, died.2⟩

/-- An attempt succeeds if its checks do and no errors are counted at its end. -/
theorem attempt_success {g g' : Globals} {rc : Int} (made : disableAttempt e all g = .ok rc g') :
    0 ≤ rc ↔ ChecksPass e all g ∧ g'.rig.errorCount = 0 :=
  (ensures_of_ok made).mp (attempt_judged g)

/-- The loop is left only by an attempt that dies. -/
theorem disableCsTrace_retried (g : Globals) : Ensures (disableCsTrace e all)
    (fun rc g' => ∃ tries,
      Retried (disableAttempt e all) resetErrors traceDisableTrial g tries rc g')
    (fun x _ => x = .crash ∧ all = true ∧ 1 < e.registrationVerbose) g := by
  have stops (g : Globals) : Ensures (disableAttempt e all) (fun _ _ => True)
      (fun x _ => x = .crash ∧ all = true ∧ 1 < e.registrationVerbose) g :=
    (attempt_judged g).mono (fun _ _ _ => trivial) fun _ _ died => died
  rw [disableCsTrace, disableLoop_eq_retry]
  exact ensures_retry stops 7 (-1) g

/-- However it ends, no errors are counted behind it. -/
theorem retried_clean {g g' : Globals} {trials : Nat} {tries : List (Try Globals)} {rc : Int}
    (h : Retried (disableAttempt e all) resetErrors trials g tries rc g') :
    g'.rig.errorCount = 0 := by
  apply h.ends (P := fun g => g.rig.errorCount = 0) _ fun _ => rfl
  exact fun g rc g' made success => ((attempt_success made).mp success).2

/-- When disabling returns, no errors are counted. -/
theorem disableCsTrace_clean (g : Globals) : Ensures (disableCsTrace e all)
    (fun _ g' => g'.rig.errorCount = 0) (fun _ _ => True) g := by
  apply (disableCsTrace_retried g).mono _ (fun _ _ _ => trivial)
  rintro rc g' ⟨tries, h⟩
  exact retried_clean h

/-- **Up to eight attempts, and the count is 0 afterwards.** `disable_cs_trace`
stops at the first attempt that succeeds; errors of earlier calls cost one
attempt. It does not return only if `show_etm_config` is called. -/
theorem disable_retries (e : Csal) (all : Bool) (g : Globals) :
    Ensures (disableCsTrace e all)
      (fun rc g' => ∃ tries,
        Retried (disableAttempt e all) resetErrors traceDisableTrial g tries rc g' ∧
        1 ≤ tries.length ∧ tries.length ≤ traceDisableTrial ∧
        (0 ≤ rc ↔ ∃ t ∈ tries, 0 ≤ t.rc) ∧
        (∀ t ∈ tries, t.rc < 0 ↔ ¬ ChecksPass e all t.before ∨ 0 < t.after.rig.errorCount) ∧
        g'.rig.errorCount = 0 ∧
        ((∀ t ∈ tries.take 2, OwnClean e all t) → 0 ≤ rc))
      (fun x _ => x = .crash ∧ all = true ∧ 1 < e.registrationVerbose) g := by
  apply (disableCsTrace_retried g).mono _ (fun _ _ died => died)
  rintro rc g' ⟨tries, h⟩
  have each := h.made.each
  refine ⟨tries, h, List.length_pos_iff.mpr h.made.ne_nil, h.few, h.success_iff, ?_,
    retried_clean h, ?_⟩
  · intro t ht
    have success := attempt_success (each t ht)
    rw [← Int.not_le, success, not_and_or, Nat.pos_iff_ne_zero]
  · intro clean
    have reset (g : Globals) : (resetErrors g).rig.errorCount = 0 := rfl
    apply h.second (P := fun g => g.rig.errorCount = 0) (by decide) reset
    intro t ht zero
    obtain ⟨passes, unraised⟩ := clean t ht
    exact (attempt_success (each t (List.mem_of_mem_take ht))).mpr ⟨passes, unraised.trans zero⟩

end Session

end Ultrasight
