import Ultrasight.Healthy
import Ultrasight.Session

/-!
# Which sinks are reached by a disable attempt

`disable_trace` switches off the TPIU last, `disable_trace_sinks_only` first;
both return at once if that fails. So in the second one a failing TPIU keeps the
ETFs and the ETR on, however often `disable_cs_trace` tries.

* `Reaches`: a run issues `cs_sink_disable` on every sink;
* `Unblocked`: nothing is in the way of it;
* `disable_reaches_sinks` for one attempt and for all of them.
-/

namespace Ultrasight

open Fn CsCall

/-- The sinks that the disabling functions are about. -/
def Devices.fitted (d : Devices) : List Dev :=
  d.etb :: ((if d.tpiu = 0 then [] else [d.tpiu]) ++ d.traceSinks.filter (· ≠ 0))

/-- The disabling of every sink is issued, whatever is returned. -/
def Reaches (devices : Devices) (x : Fn Rig Int) (r : Rig) : Prop :=
  Leaves x (MadeSince r.calls fun new => ∀ d ∈ devices.fitted, .sinkDisable d ∈ new) r

/-- The calls when the flush is over. -/
def flushed (e : Csal) (devices : Devices) (r : Rig) : List CsCall :=
  (flushCalls e devices r).reverse ++ r.calls

/-- The ETFs and the ETR come before the TPIU, or the TPIU does not fail, or
there is no other sink. -/
def Unblocked (e : Csal) (all : Bool) (devices : Devices) (r : Rig) : Prop :=
  all = true ∨ devices.tpiu = 0 ∨
    (e.answer (flushed e devices r) (.sinkDisable devices.tpiu)).rc = 0 ∨
    ∀ d ∈ devices.fitted, d = devices.tpiu

/-- Disabling `d` never fails. -/
def Obeys (e : Csal) (d : Dev) : Prop := ∀ before, (e.answer before (.sinkDisable d)).rc = 0

/-- Of all sinks, `s` is the one that keeps failing. -/
structure Stuck (e : Csal) (devices : Devices) (s : Dev) : Prop where
  failing : ∀ before, (e.answer before (.sinkDisable s)).rc ≠ 0
  others : ∀ d ∈ devices.fitted, d ≠ s → Obeys e d

/-- All sinks but `s` are off. -/
def OthersOff (devices : Devices) (s : Dev) (r : Rig) : Prop :=
  ∀ d ∈ devices.fitted, d ≠ s → r.enabled d = false

section
variable {e : Csal} {devices : Devices} {board : Board} {r : Rig} {d : Dev}

theorem mem_fitted : d ∈ devices.fitted ↔
    d = devices.etb ∨ (devices.tpiu ≠ 0 ∧ d = devices.tpiu) ∨ d ∈ devices.traceSinks ∧ d ≠ 0 := by
  by_cases absent : devices.tpiu = 0 <;> simp [Devices.fitted, absent]

/-! ## One attempt -/

/-- With the ETR, the ETFs and the TPIU, if there is one, all sinks are reached. -/
theorem reaches_all {calls : List CsCall} (etr : .sinkDisable devices.etb ∈ calls)
    (etfs : devices.traceSinks.flatMap (fun d => if d = 0 then [] else [.sinkDisable d]) ⊆ calls)
    (tpiu : devices.tpiu ≠ 0 → .sinkDisable devices.tpiu ∈ calls) :
    MadeSince r.calls (fun new => ∀ d ∈ devices.fitted, .sinkDisable d ∈ new)
      (r.made e calls) := by
  refine ⟨calls.reverse, made_calls, fun d hd => List.mem_reverse.mpr ?_⟩
  rcases mem_fitted.mp hd with rfl | ⟨present, rfl⟩ | ⟨member, present⟩
  · exact etr
  · exact tpiu present
  · exact etfs (List.mem_flatMap.mpr ⟨d, member, by simp [present]⟩)

/-- All sinks are disabled before the early return and the diagnostics. -/
theorem disableTrace_reaches : Reaches devices (disableTrace e (some board) devices) r := by
  let Asked := MadeSince r.calls fun new => ∀ d ∈ devices.fitted, .sinkDisable d ∈ new
  have grows : Stable e (fun _ => true) Asked :=
    stable_madeSince rfl fun c new _ asked d hd => List.mem_cons_of_mem c (asked d hd)
  have rest : Keeps Asked (do
      when (1 < e.registrationVerbose) do
        each (List.range board.nCpu) fun i => do
          let r ← get
          showEtmConfig e (r.ptm i)
      checkErrors
      pure (0 : Int)) := by
    apply (keeps_when _ ((grows.mono fun _ _ => rfl).showEtmConfigs _)).bind
    exact fun _ => grows.checked
  have etms := makes_each (List.range board.nCpu) fun i _ => @makes_callPtm e .traceDisable i
  apply Ensures.enclosed
  apply (ensures_bind _ _).mpr
  apply (ensures_of_ok (flush_eq devices r)).mpr
  apply etms.next
  apply (@makes_call e (.traceDisable devices.itm)).next
  apply makes_disableSinks.next
  apply (@makes_call e (.sinkDisable devices.etb)).next
  simp only [made_ptm, ← made_append]
  by_cases absent : devices.tpiu = 0
  · simp only [absent, bne_self_eq_false]
    apply rest
    apply reaches_all (by simp) _ fun present => absurd absent present
    intro c hc
    simp only [List.mem_append, List.mem_cons, hc, true_or, or_true]
  · rw [bne_iff_ne.mpr absent]
    apply Leaves.bind _ fun _ => rest
    apply leaves_must
    rw [after_made]
    apply reaches_all _ _ fun _ => List.mem_append_right _ (List.mem_singleton_self _)
    · simp
    · intro c hc
      simp only [List.mem_append, List.mem_cons, hc, true_or, or_true]

/-- A TPIU that cannot be disabled is the last device that is tried. -/
theorem disableTraceSinksOnly_blocked (present : devices.tpiu ≠ 0)
    (fails : (e.answer (flushed e devices r) (.sinkDisable devices.tpiu)).rc ≠ 0) :
    Ensures (disableTraceSinksOnly e devices)
      (fun rc r' => rc = -1 ∧ r'.enabled = r.enabled ∧
        r'.calls = .sinkDisable devices.tpiu :: flushed e devices r)
      (fun _ _ => False) r := by
  have calls : (r.made e (flushCalls e devices r)).calls = flushed e devices r := made_calls
  have enabled : (r.made e (flushCalls e devices r)).enabled = r.enabled := by
    funext d
    apply made_still
    intro c hc
    exact lowering_others (looking_lowering [] (flush_looking c hc)) List.not_mem_nil
  apply (ensures_enclose _).mpr
  apply (ensures_bind _ _).mpr
  apply (ensures_of_ok (flush_eq devices r)).mpr
  apply (ensures_bind _ _).mpr
  simp only [bne_iff_ne.mpr present, Fn.when, if_true, ensures_must, calls]
  refine ⟨fun works => absurd works fails, fun _ => ⟨trivial, ?_, ?_⟩⟩
  · funext d
    rw [after_enabled_eq, calls, if_neg fails, enabled]
  · rw [after_calls, calls]

theorem disableTraceSinksOnly_reaches (works : devices.tpiu = 0 ∨
    (e.answer (flushed e devices r) (.sinkDisable devices.tpiu)).rc = 0) :
    Reaches devices (disableTraceSinksOnly e devices) r := by
  have grows : Stable e (fun _ => true)
      (MadeSince r.calls fun new => ∀ d ∈ devices.fitted, .sinkDisable d ∈ new) :=
    stable_madeSince rfl fun c new _ asked d hd => List.mem_cons_of_mem c (asked d hd)
  have calls : (r.made e (flushCalls e devices r)).calls = flushed e devices r := made_calls
  apply Ensures.enclosed
  apply (ensures_bind _ _).mpr
  apply (ensures_of_ok (flush_eq devices r)).mpr
  apply (ensures_bind _ _).mpr
  by_cases absent : devices.tpiu = 0
  · simp only [absent, bne_self_eq_false, Fn.when, Bool.false_eq_true, if_false, ensures_pure]
    apply makes_disableSinks.next
    apply (@makes_call e (.sinkDisable devices.etb)).next
    rw [← made_append, ← made_append]
    apply grows.checked
    apply reaches_all (by simp) _ fun present => absurd absent present
    intro c hc
    simp only [List.mem_append, hc, true_or, or_true]
  · have answers := works.resolve_left absent
    simp only [bne_iff_ne.mpr absent, Fn.when, if_true, ensures_must, calls]
    refine ⟨fun _ => ?_, fun fails => absurd answers fails⟩
    apply makes_disableSinks.next
    apply (@makes_call e (.sinkDisable devices.etb)).next
    rw [after_made, ← made_append, ← made_append]
    apply grows.checked
    apply reaches_all (by simp) _ fun _ => by simp
    intro c hc
    simp only [List.mem_append, hc, true_or, or_true]

theorem attempt_reaches_iff (all : Bool) :
    Reaches devices (if all then disableTrace e (some board) devices
      else disableTraceSinksOnly e devices) r ↔ Unblocked e all devices r := by
  cases all with
  | true => exact ⟨fun _ => .inl rfl, fun _ => disableTrace_reaches⟩
  | false =>
    constructor
    · intro reaches
      by_contra blocked
      simp only [Unblocked, Bool.false_eq_true, false_or, not_or, not_forall] at blocked
      obtain ⟨present, fails, d, member, other⟩ := blocked
      apply Ensures.excluded reaches (disableTraceSinksOnly_blocked present fails)
      · rintro rc r' ⟨new, split, asked⟩ ⟨_, _, calls⟩
        rw [split, flushed, ← List.cons_append, List.append_cancel_right_eq] at calls
        have issued := asked d member
        rw [calls, List.mem_cons, List.mem_reverse, CsCall.sinkDisable.injEq] at issued
        have looked := flush_looking _ (issued.resolve_left other)
        simp [looking, disables] at looked
      · exact fun _ _ _ impossible => impossible
    · rintro (impossible | absent | works | alone)
      · cases impossible
      · exact disableTraceSinksOnly_reaches (.inl absent)
      · exact disableTraceSinksOnly_reaches (.inr works)
      · by_cases works : devices.tpiu = 0 ∨
            (e.answer (flushed e devices r) (.sinkDisable devices.tpiu)).rc = 0
        · exact disableTraceSinksOnly_reaches works
        · obtain ⟨present, fails⟩ := not_or.mp works
          apply (disableTraceSinksOnly_blocked present fails).mono
          · rintro rc r' ⟨_, _, calls⟩
            refine ⟨_ :: (flushCalls e devices r).reverse, calls, fun d hd => ?_⟩
            rw [alone d hd]
            exact List.mem_cons_self
          · exact fun _ _ => False.elim

/-! ## All attempts -/

/-- A device whose disabling was issued since the log was `old` is off, unless it
may fail. -/
def Told (e : Csal) (old : List CsCall) (r : Rig) : Prop :=
  ∀ new, r.calls = new ++ old → ∀ d, Obeys e d → .sinkDisable d ∈ new → r.enabled d = false

theorem told_first : Told e r.calls r := by
  intro new split d _ asked
  rw [List.self_eq_append_left.mp split] at asked
  cases asked

theorem stable_told (old : List CsCall) : Stable e calm (Told e old) := by
  have cons {c : CsCall} {r r' : Rig} (told : Told e old r) (calls : r'.calls = c :: r.calls)
      (issued : ∀ d, Obeys e d → c = .sinkDisable d → r'.enabled d = false)
      (stays : ∀ d, r.enabled d = false → r'.enabled d = false) : Told e old r' := by
    intro new split d obeys asked
    cases new with
    | nil => cases asked
    | cons c' new =>
      rw [calls, List.cons_append, List.cons.injEq] at split
      obtain ⟨rfl, split⟩ := split
      rcases List.mem_cons.mp asked with same | earlier
      · exact issued d obeys same.symm
      · exact stays d (told new split d obeys earlier)
  constructor
  · intro c r k told
    apply cons told after_calls
    · rintro d obeys rfl
      rw [after_enabled_eq, if_pos (obeys _)]
      simp [switches, enables, disables]
    · intro d off
      rw [after_enabled_eq, off]
      have kept := @calm_switches c d k
      split
      · cases switched : c.switches d with
        | none => rfl
        | some v =>
          rw [switched] at kept
          cases v
          · rfl
          · exact absurd rfl kept
      · rfl
  · intro r told
    exact cons told rfl (fun _ _ other => by cases other) fun _ off => off

/-- An attempt that reaches all sinks switches off those that do not fail. -/
theorem attempt_switches {all : Bool}
    (unblocked : all = true ∨ devices.tpiu = 0 ∨ Obeys e devices.tpiu) :
    Leaves (if all then disableTrace e (some board) devices else disableTraceSinksOnly e devices)
      (fun r' => ∀ d ∈ devices.fitted, Obeys e d → r'.enabled d = false) r := by
  have reaches := (@attempt_reaches_iff e devices board r all).mpr
    (unblocked.imp_right fun h => h.imp_right fun obeys => .inl (obeys _))
  have told := @stable_told e r.calls
  have keeps : Keeps (Told e r.calls) (if all then disableTrace e (some board) devices
      else disableTraceSinksOnly e devices) := by
    cases all
    · exact (told.mono fun _ => lowering_calm).disableTraceSinksOnly
    · exact told.disableTrace (some board) devices
  have off (r' : Rig) : MadeSince r.calls (fun new => ∀ d ∈ devices.fitted, .sinkDisable d ∈ new) r' ∧
      Told e r.calls r' → ∀ d ∈ devices.fitted, Obeys e d → r'.enabled d = false := by
    rintro ⟨⟨new, split, asked⟩, told⟩ d member obeys
    exact told new split d obeys (asked d member)
  exact (reaches.with keeps told_first).mono (fun _ => off) fun _ => off

namespace Session

/-- The board was set up. -/
def HasBoard (board : Board) (devices : Devices) (g : Globals) : Prop :=
  g.board = some board ∧ g.devices = devices

variable {g : Globals} {all : Bool}

theorem ensures_disableAttempt {Q : Int → Globals → Prop} {E : Exit → Globals → Prop}
    (has : HasBoard board devices g) : Ensures (disableAttempt e all) Q E g ↔
      Ensures (if all then disableTrace e (some board) devices else disableTraceSinksOnly e devices)
        (fun rc r => Q rc { g with rig := r }) (fun x r => E x { g with rig := r }) g.rig := by
  obtain ⟨found, fitted⟩ := has
  cases all <;> simp [disableAttempt, onRig, found, fitted]

theorem disableCsTrace_switches
    (unblocked : all = true ∨ devices.tpiu = 0 ∨ Obeys e devices.tpiu) :
    Leads (HasBoard board devices)
      (fun g => HasBoard board devices g ∧ ∀ d ∈ devices.fitted, Obeys e d → g.rig.enabled d = false)
      (disableCsTrace e all) := by
  have attempt : Leads (HasBoard board devices)
      (fun g => HasBoard board devices g ∧
        ∀ d ∈ devices.fitted, Obeys e d → g.rig.enabled d = false) (disableAttempt e all) := by
    intro g has
    apply (ensures_disableAttempt has).mpr
    apply (attempt_switches unblocked).mono
    · exact fun rc r off => ⟨has, off⟩
    · exact fun x r off => ⟨has, off⟩
  apply disableCsTrace_leads attempt
  · exact fun g kept => attempt g kept.1
  · exact keeps_modify fun _ h => h

/-- With a TPIU that always fails, no attempt does anything to another sink. -/
theorem disableLoop_blocked (present : devices.tpiu ≠ 0)
    (failing : ∀ before, (e.answer before (.sinkDisable devices.tpiu)).rc ≠ 0) (trials : Nat)
    {on : Dev → Bool} (has : HasBoard board devices g) (enabled : g.rig.enabled = on) :
    Ensures (disableLoop e false trials (-1)) (fun rc g' => rc = -1 ∧ g'.rig.enabled = on)
      (fun _ _ => False) g := by
  induction trials generalizing g with
  | zero => exact (ensures_pure _).mpr ⟨rfl, enabled⟩
  | succ trials ih =>
    apply (ensures_bind _ _).mpr
    apply (ensures_disableAttempt has).mpr
    apply (disableTraceSinksOnly_blocked present (failing _)).mono
    · rintro rc r ⟨rfl, same, _⟩
      apply (ensures_bind _ _).mpr
      apply (ensures_zoom _).mpr
      apply (ensures_modify _).mpr
      apply ih
      · exact has
      · exact same.trans enabled
    · exact fun _ _ => False.elim

theorem disableCsTrace_spares_iff {s : Dev} (stuck : Stuck e devices s)
    (has : HasBoard board devices g) :
    Ensures (disableCsTrace e all) (fun rc g' => rc < 0 → OthersOff devices s g'.rig)
        (fun _ _ => True) g ↔
      all = true ∨ devices.tpiu = 0 ∨ s ≠ devices.tpiu ∨ OthersOff devices s g.rig := by
  by_cases unblocked : all = true ∨ devices.tpiu = 0 ∨ Obeys e devices.tpiu
  · constructor
    · intro _
      apply unblocked.imp_right
      intro rest
      apply rest.imp_right
      rintro obeys
      refine .inl fun same => ?_
      exact stuck.failing [] (by rw [same]; exact obeys [])
    · intro _
      apply (disableCsTrace_switches unblocked g has).mono
      · exact fun rc g' off _ d member other => off.2 d member (stuck.others d member other)
      · exact fun _ _ _ => trivial
  · simp only [not_or] at unblocked
    obtain ⟨partly, present, disobeys⟩ := unblocked
    have same : s = devices.tpiu := by
      by_contra other
      exact disobeys (stuck.others _ (mem_fitted.mpr (.inr (.inl ⟨present, rfl⟩))) (Ne.symm other))
    have stays := disableLoop_blocked present (same ▸ stuck.failing) traceDisableTrial has rfl
    rw [Bool.not_eq_true] at partly
    simp only [partly, present, same, Bool.false_eq_true, ne_eq, not_true_eq_false, false_or]
    apply stays.decided
    rintro rc g' ⟨rfl, enabled⟩
    simp only [OthersOff, enabled]
    exact ⟨fun off => off (by decide), fun off _ => off⟩

/-- **Which sinks are reached.** A run of `disable_trace` issues the disabling of
every sink; one of `disable_trace_sinks_only` does unless the TPIU fails and there
are other sinks. When a sink keeps failing and the others do not, then after
`disable_cs_trace` has given up the others are off, unless the sinks only are to
be disabled, the one that fails is the TPIU, and the others were on. -/
theorem disable_reaches_sinks (e : Csal) (board : Board) (devices : Devices) (all : Bool) :
    (∀ r, Reaches devices (if all then disableTrace e (some board) devices
      else disableTraceSinksOnly e devices) r ↔ Unblocked e all devices r) ∧
    ∀ s, Stuck e devices s → ∀ g, HasBoard board devices g →
      (Ensures (disableCsTrace e all) (fun rc g' => rc < 0 → OthersOff devices s g'.rig)
          (fun _ _ => True) g ↔
        all = true ∨ devices.tpiu = 0 ∨ s ≠ devices.tpiu ∨ OthersOff devices s g.rig) :=
  ⟨fun _ => attempt_reaches_iff all, fun _ stuck _ has => disableCsTrace_spares_iff stuck has⟩

end Session

end

/-- The ZCU-104 with a TPIU that cannot be switched off. -/
def stuckTpiu : Csal := { zcu104 with
  answer := fun _ c => match c with
    | .sinkDisable 3 => ⟨-1, 0⟩
    | _ => ⟨0, 0⟩ }

/-- The ETR and the ETFs are not reached. -/
theorem sinks_unreached :
    ¬ Reaches zcu104.devices (disableTraceSinksOnly stuckTpiu zcu104.devices) .idle := by
  intro reaches
  have unblocked : Unblocked stuckTpiu false zcu104.devices .idle :=
    (@attempt_reaches_iff stuckTpiu _ zcu104.board _ false).mp reaches
  unfold Unblocked at unblocked
  revert unblocked
  decide

namespace Session

/-- The board of the ZCU-104 was set up, and every device is on. -/
def running : Globals :=
  { Globals.initial { Rig.idle with enabled := fun _ => true } (-1) with
    board := some zcu104.board, devices := zcu104.devices }

/-- They are still on when `disable_cs_trace` has given up. -/
theorem sinks_left_on : ¬ Ensures (disableCsTrace stuckTpiu false)
    (fun rc g => rc < 0 → OthersOff zcu104.devices 3 g.rig) (fun _ _ => True) running := by
  have stuck : Stuck stuckTpiu zcu104.devices 3 := by
    refine ⟨fun _ => (by decide : (-1 : Int) ≠ 0), ?_⟩
    intro d _ other before
    simp only [stuckTpiu]
    split
    · rename_i tpiu
      cases tpiu
      exact absurd rfl other
    · rfl
  have spares := (disable_reaches_sinks stuckTpiu zcu104.board zcu104.devices false).2 3 stuck
    running ⟨rfl, rfl⟩
  rw [spares]
  unfold OthersOff
  decide

end Session

end Ultrasight
