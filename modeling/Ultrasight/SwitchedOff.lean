import Ultrasight.Healthy
import Ultrasight.Survival

/-!
# What a successful stop means

`disable_trace` and `disable_trace_sinks_only` look at few of their results, but they
end with the error count. Where a call that fails raises it, a stop that returns no
error has switched everything off, also after calls that failed half way.

* `Counts` is what is asked of the library;
* `stopped_is_off`: what is off after a stop that succeeded.
-/

namespace Ultrasight.Session

open Fn CsCall
open Verbosity (Known)

/-- Calls that fail to disable a device are counted as errors, and there is no source
at the null descriptor. -/
structure Counts (e : Csal) : Prop where
  failed : ∀ before c, c.disables ≠ none → (e.answer before c).rc ≠ 0 →
    0 < (e.answer before c).errors
  null : ∀ before, (e.answer before (.traceDisable csErrdesc)).rc ≠ 0

variable {e : Csal} {o : Settings} {r : Rig} {c : CsCall} {d : Dev} {S : Dev → Prop}
  {devices : Devices}

/-! ## One attempt -/

/-- An error was counted, or the devices are off. -/
def Off (S : Dev → Prop) (r : Rig) : Prop :=
  0 < r.errorCount ∨ ∀ d, S d → r.enabled d = false

theorem after_errorCount :
    (r.after e c).errorCount = r.errorCount + (e.answer r.calls c).errors := rfl

theorem off_stable : Stable e calm (Off S) := by
  constructor
  · rintro c r calm (counted | off)
    · left
      rw [after_errorCount]
      omega
    · right
      intro d member
      rw [after_enabled_eq, off d member]
      simp only [CsCall.calm, Bool.and_eq_true, Option.isNone_iff_eq_none] at calm
      rw [switches, calm.1]
      split
      · simp only [reduceCtorEq, if_false]
        split <;> rfl
      · rfl
  · exact fun r off => off

/-- A call that disables a device adds it. -/
theorem off_disabled (counts : Counts e) (disables : c.disables = some d) (off : Off S r) :
    Off (fun d' => S d' ∨ d' = d) (r.after e c) := by
  have calm : c.calm = true := by cases c <;> first | rfl | cases disables
  by_cases works : (e.answer r.calls c).rc = 0
  · obtain counted | off := off_stable.after c r calm off
    · exact .inl counted
    · right
      rintro d' (member | rfl)
      · exact off d' member
      · have off : c.switches d' = some false := by
          cases c <;> cases disables <;> simp [switches, CsCall.enables, CsCall.disables]
        rw [after_enabled_eq, if_pos works, off]
        rfl
  · left
    have := counts.failed r.calls c (by simp [disables]) works
    rw [after_errorCount]
    omega

/-- No other source is at the null descriptor. -/
theorem off_source (counts : Counts e) (off : Off S r) :
    Off (fun d' => S d' ∨ d' = d ∨ d = csErrdesc) (r.after e (.traceDisable d)) := by
  by_cases null : d = csErrdesc
  · left
    subst null
    have := counts.failed r.calls _ (by simp [CsCall.disables]) (counts.null r.calls)
    rw [after_errorCount]
    omega
  · simpa only [null, or_false] using @off_disabled e r _ d S counts rfl off

/-- The same, with the array that the sources are taken from. -/
def Quenched (ptm : Nat → Dev) (S : Dev → Prop) (r : Rig) : Prop := r.ptm = ptm ∧ Off S r

/-- An early return says that something failed. -/
def Refused (x : Exit) (_ : Rig) : Prop := ∀ rc, x = .ret rc → rc < 0

/-- `x` adds the devices of `T`, unless it is left early. -/
def Adds {α : Type} (ptm : Nat → Dev) (T : Dev → Prop) (x : Fn Rig α) : Prop :=
  ∀ S r, Quenched ptm S r → Ensures x (fun _ => Quenched ptm fun d => S d ∨ T d) Refused r

section
variable {ptm : Nat → Dev} {T : Dev → Prop}

theorem quenched_stable : Stable e calm (Quenched ptm S) := by
  constructor
  · intro c r calm inv
    exact ⟨after_ptm.trans inv.1, off_stable.after c r calm inv.2⟩
  · exact fun r inv => inv

theorem Quenched.mono {S' : Dev → Prop} (h : Quenched ptm S r) (fewer : ∀ d, S' d → S d) :
    Quenched ptm S' r :=
  ⟨h.1, h.2.imp_right fun off d member => off d (fewer d member)⟩

/-- What is added first stays. -/
theorem Adds.next {α β : Type} {x : Fn Rig α} {f : α → Fn Rig β} {Q : β → Rig → Prop}
    (hx : Adds ptm T x) (h : Quenched ptm S r)
    (rest : ∀ a r', Quenched ptm (fun d => S d ∨ T d) r' → Ensures (f a) Q Refused r') :
    Ensures (x >>= f) Q Refused r := by
  apply (ensures_bind x f).mpr
  exact (hx S r h).mono rest fun _ _ refused => refused

theorem adds_call (counts : Counts e) (disables : c.disables = some d) :
    Adds ptm (· = d) (call e c) :=
  fun _ _ inv => ensures_call.mpr ⟨after_ptm.trans inv.1, off_disabled counts disables inv.2⟩

theorem adds_callPtm (counts : Counts e) (i : Nat) :
    Adds ptm (fun d => d = ptm i ∨ ptm i = csErrdesc) (callPtm e .traceDisable i) := by
  intro S r inv
  apply (ensures_bind _ _).mpr
  apply ensures_get.mpr
  apply ensures_call.mpr
  rw [inv.1]
  exact ⟨after_ptm.trans inv.1, off_source counts inv.2⟩

/-- A body that is left out for the null descriptor. -/
theorem Adds.when {x : Fn Rig Unit} (h : Adds ptm (· = d) x) :
    Adds ptm (fun d' => d' = d ∧ d' ≠ csErrdesc) (when (d != 0) x) := by
  intro S r inv
  apply (ensures_when _ _).mpr
  constructor
  · intro _
    apply (h S r inv).mono _ fun _ _ refused => refused
    exact fun _ _ inv => inv.mono fun d' => Or.imp_right And.left
  · intro null
    have null : d = csErrdesc := by simpa [csErrdesc] using null
    exact inv.mono fun d' member => member.resolve_right fun other => other.2 (other.1.trans null)

theorem adds_must (counts : Counts e) (disables : c.disables = some d) :
    Adds ptm (· = d) (must e c) := by
  intro S r inv
  apply ensures_must.mpr
  constructor
  · exact fun _ => ⟨after_ptm.trans inv.1, off_disabled counts disables inv.2⟩
  · rintro - rc ⟨⟩
    decide

theorem adds_each {α : Type} {body : α → Fn Rig Unit} {adds : α → Dev → Prop} {l : List α}
    (round : ∀ a, Adds ptm (adds a) (body a)) :
    Adds ptm (fun d => ∃ a ∈ l, adds a d) (each l body) := by
  intro S r inv
  apply ensures_each fun done r => Quenched ptm (fun d => S d ∨ ∃ a ∈ done, adds a d) r
  · intro done a rest _ r inv
    apply (round a _ r inv).mono _ fun _ _ refused => refused
    intro _ r inv
    apply inv.mono
    rintro d (member | ⟨b, member, added⟩)
    · exact .inl (.inl member)
    · obtain earlier | rfl := List.mem_append.mp member |>.imp_right List.mem_singleton.mp
      · exact .inl (.inr ⟨b, earlier, added⟩)
      · exact .inr added
  · exact inv.mono fun d member => member.resolve_right (by simp)

/-- What switches nothing on keeps what is off. -/
theorem quenched_next {α β : Type} {x : Fn Rig α} {f : α → Fn Rig β} {Q : β → Rig → Prop}
    (keeps : Keeps (Quenched ptm S) x) (through : Through x) (h : Quenched ptm S r)
    (rest : ∀ a r', Quenched ptm S r' → Ensures (f a) Q Refused r') :
    Ensures (x >>= f) Q Refused r := by
  apply (ensures_bind x f).mpr
  apply (through.keeps keeps h).mono rest
  rintro _ _ ⟨rfl, -⟩ rc ⟨⟩

theorem through_flush : Through (csEtbFlushAndWaitStop e devices) :=
  fun r => (ensures_of_ok (flush_eq devices r)).mpr trivial

theorem quenched_looks : Stable e looking (Quenched ptm S) :=
  quenched_stable.mono fun _ => looking_calm

/-- Both functions begin with the flush, behind which nothing has been told yet. -/
theorem quenched_flush {α : Type} {f : Unit → Fn Rig α} {Q : α → Rig → Prop}
    (rest : ∀ a r', Quenched r.ptm (fun _ => False) r' → Ensures (f a) Q Refused r') :
    Ensures (csEtbFlushAndWaitStop e devices >>= f) Q Refused r := by
  have first : Quenched r.ptm (fun _ => False) r := ⟨rfl, .inr nofun⟩
  have keeps : Keeps (Quenched r.ptm fun _ => False) (csEtbFlushAndWaitStop e devices) :=
    quenched_looks.walk.csEtbFlushAndWaitStop leads_opens (quenched_looks.call rfl)
      fun _ looking _ _ => looking
  exact quenched_next keeps through_flush first rest

/-- The error count at the end tells. -/
theorem checked_off (h : Quenched ptm S r) :
    Ensures (do checkErrors; pure (0 : Int)) (fun _ r' => ∀ d, S d → r'.enabled d = false) Refused
      r := by
  simp only [checkErrors, csErrorCount, ensures_bind, ensures_modify, ensures_get, ensures_pure,
    ensures_require, beq_iff_eq, beq_eq_false_iff_ne]
  constructor
  · intro none
    apply h.2.resolve_left
    have none : r.errorCount = 0 := none
    omega
  · rintro - rc ⟨⟩
    decide

theorem ensures_positive {x : Fn Rig Int} {P : Rig → Prop}
    (body : Ensures x (fun _ => P) Refused r) :
    Ensures (enclose x) (fun rc r' => 0 ≤ rc → P r') (fun _ _ => True) r := by
  apply ensures_returned
  apply body.mono
  · exact fun _ _ off _ => off
  · exact fun _ _ refused rc left positive => absurd (refused rc left) (by omega)

theorem disableTrace_off (counts : Counts e) (board : Board) (r : Rig) :
    Ensures (disableTrace e (some board) devices)
      (fun rc r' => 0 ≤ rc → ∀ d, d ≠ csErrdesc →
        d ∈ devices.sinks ∨ d = devices.itm ∨
          (∃ i < board.nCpu, d = r.ptm i ∨ r.ptm i = csErrdesc) → r'.enabled d = false)
      (fun _ _ => True) r := by
  apply ensures_positive
  apply quenched_flush
  intro _ r₁ off
  apply (adds_each (adds_callPtm counts)).next off
  intro _ r₂ off
  apply (adds_call counts rfl).next off
  intro _ r₃ off
  apply (adds_each fun d => (adds_call counts rfl).when).next off
  intro _ r₄ off
  apply (adds_call counts rfl).next off
  intro _ r₅ off
  apply ((adds_must counts rfl).when).next off
  intro _ r₆ off
  apply quenched_next (keeps_when _ (quenched_looks.showEtmConfigs _)) _ off
  · intro _ r₇ off
    apply (checked_off off).mono _ fun _ _ refused => refused
    intro _ r₈ off d real member
    apply off
    simp only [Devices.sinks, List.mem_cons] at member
    obtain (rfl | rfl | sink) | rfl | ⟨i, below, source⟩ := member
    · exact .inl (.inr rfl)
    · exact .inr ⟨rfl, real⟩
    · exact .inl (.inl (.inr ⟨d, sink, rfl, real⟩))
    · exact .inl (.inl (.inl (.inr rfl)))
    · exact .inl (.inl (.inl (.inl (.inr ⟨i, List.mem_range.mpr below, source⟩))))
  · apply Through.when
    apply through_each
    exact fun _ => through_get.bind fun _ => through_showEtmConfig _

theorem disableTraceSinksOnly_off (counts : Counts e) (r : Rig) :
    Ensures (disableTraceSinksOnly e devices)
      (fun rc r' => 0 ≤ rc → ∀ d, d ≠ csErrdesc → d ∈ devices.sinks → r'.enabled d = false)
      (fun _ _ => True) r := by
  apply ensures_positive
  apply quenched_flush
  intro _ r₁ off
  apply ((adds_must counts rfl).when).next off
  intro _ r₂ off
  apply (adds_each fun d => (adds_call counts rfl).when).next off
  intro _ r₃ off
  apply (adds_call counts rfl).next off
  intro _ r₄ off
  apply (checked_off off).mono _ fun _ _ refused => refused
  intro _ r₅ off d real member
  apply off
  simp only [Devices.sinks, List.mem_cons] at member
  obtain rfl | rfl | sink := member
  · exact .inr rfl
  · exact .inl (.inl (.inr ⟨rfl, real⟩))
  · exact .inl (.inr ⟨d, sink, rfl, real⟩)

end

/-! ## What can be on -/

/-- A descriptor that the board's devices have, or none. -/
def OfBoard (e : Csal) (d : Dev) : Prop :=
  d = csErrdesc ∨ d ∈ e.devices.sinks ∨ d = e.devices.itm ∨ ∃ i < e.board.nCpu, d = e.source i

/-- Nothing but devices of the board is on, and `ptm` has its sources. -/
structure Lit (e : Csal) (r : Rig) : Prop where
  known : Known e r
  lit : ∀ d, r.enabled d = true → OfBoard e d

theorem lit_after (lit : Lit e r) (enables : ∀ d, c.enables = some d → OfBoard e d) :
    Lit e (r.after e c) := by
  constructor
  · intro i below
    rw [after_ptm]
    exact lit.known i below
  · intro d on
    rw [after_enabled_eq] at on
    by_cases switched : c.enables = some d
    · exact enables d switched
    · apply lit.lit d
      split at on
      · rw [switches, if_neg switched] at on
        split at on
        · cases on
        · exact on
      · exact on

theorem lit_stable : Stable e calm (Lit e) := by
  constructor
  · intro c r calm lit
    apply lit_after lit
    simp only [CsCall.calm, Bool.and_eq_true, Option.isNone_iff_eq_none] at calm
    intro d enables
    rw [calm.1] at enables
    cases enables
  · exact fun r lit => ⟨lit.known, lit.lit⟩

theorem lit_configureTrace {board : Option Board} (known : board = none ∨ board = some e.board)
    (range : MapInfo) (pid : BitVec 32) :
    Keeps (Lit e) (configureTrace e board devices range pid) := by
  have looks : Stable e looking (Lit e) := lit_stable.mono fun _ => looking_calm
  obtain rfl | rfl := known
  · exact (keeps_ret _).enclose
  · apply lit_stable.walk.configureTrace (fun _ p _ _ => p) fun _ _ => rfl
    · intro i below
      apply lit_stable.walk.preparePtm (fun _ p _ _ => p) fun _ _ => rfl
      · intro dev found
        apply keeps_modify
        intro r lit
        refine ⟨fun j inside => ?_, lit.lit⟩
        by_cases same : j = i
        · subst same
          simpa using found
        · simpa [Function.update_of_ne same] using lit.known j inside
      · exact lit_stable.initEtm _
    · exact fun etm _ => keeps_when _ (looks.showEtmConfig etm)

section
variable (enables : ∀ d, c.enables = some d → OfBoard e d)

include enables

theorem lit_call : Keeps (Lit e) (call e c) :=
  fun _ lit => ensures_call.mpr (lit_after lit enables)

theorem lit_must : Keeps (Lit e) (must e c) :=
  fun _ lit => leaves_must (lit_after lit enables)

end

theorem lit_enableEtf (found : OfBoard e d) : Keeps (Lit e) (enableEtf e d) := by
  apply Leads.bind (lit_stable.walk.must rfl)
  intro _
  apply lit_must
  rintro _ ⟨⟩
  exact found

theorem lit_enableTraceSinksOnly (found : ∀ d ∈ devices.sinks, OfBoard e d) :
    Keeps (Lit e) (enableTraceSinksOnly e devices) := by
  have sink {d : Dev} (member : d ∈ devices.sinks) : Keeps (Lit e) (must e (.sinkEnable d)) := by
    apply lit_must
    rintro _ ⟨⟩
    exact found d member
  apply Leads.enclose
  apply (sink List.mem_cons_self).bind
  intro _
  apply (keeps_when _ (sink (by simp [Devices.sinks]))).bind
  intro _
  apply Leads.bind
  · apply keeps_each
    intro d member
    exact lit_enableEtf (found d (by simp [Devices.sinks, member]))
  intro _
  exact (lit_stable.call rfl).bind fun _ => lit_stable.checked

theorem lit_enableTrace {board : Option Board} (known : board = none ∨ board = some e.board)
    (found : ∀ d ∈ devices.sinks, OfBoard e d) (itm : OfBoard e devices.itm)
    (ram : BitVec 64 × BitVec 64) : Keeps (Lit e) (enableTrace e board devices ram) := by
  obtain rfl | rfl := known
  · exact (keeps_ret _).enclose
  have walk := (@lit_stable e).walk
  have sink {d : Dev} (member : d ∈ devices.sinks) : Keeps (Lit e) (must e (.sinkEnable d)) := by
    apply lit_must
    rintro _ ⟨⟩
    exact found d member
  have source {i : Nat} (below : i < e.board.nCpu) : Keeps (Lit e) (callPtm e .traceEnable i) := by
    intro r lit
    apply (ensures_bind _ _).mpr
    apply ensures_get.mpr
    apply lit_call _ r lit
    rintro _ ⟨⟩
    obtain null | found := lit.known i below
    · exact .inl null
    · exact .inr (.inr (.inr ⟨i, below, found⟩))
  apply Leads.enclose
  apply Leads.bind (walk.must rfl)
  intro _
  apply (sink List.mem_cons_self).bind
  intro _
  apply (keeps_when _ (sink (by simp [Devices.sinks]))).bind
  intro _
  apply Leads.bind
  · apply keeps_each
    intro d member
    exact lit_enableEtf (found d (by simp [Devices.sinks, member]))
  intro _
  apply Leads.bind
  · apply keeps_each
    exact fun i member => source (List.mem_range.mp member)
  intro _
  apply Leads.bind (walk.mustNotFail rfl)
  intro _
  apply Leads.bind (walk.mustNotFail rfl)
  intro _
  apply Leads.bind
  · apply lit_call
    rintro _ ⟨⟩
    exact itm
  intro _
  apply (lit_stable.call rfl).bind
  intro _
  exact (keeps_when _ (lit_stable.call rfl)).bind fun _ => lit_stable.checked

/-! ## Runs -/

/-- The devices are those of the board, once it is known. -/
structure Wired (e : Csal) (g : Globals) : Prop where
  board : g.board = none ∧ g.devices = .zero ∨ g.board = some e.board ∧ g.devices = e.devices
  lit : Lit e g.rig

section
variable {g : Globals} {all : Bool}

theorem Wired.known (h : Wired e g) : g.board = none ∨ g.board = some e.board :=
  h.board.imp And.left And.left

theorem Wired.sinks (h : Wired e g) : ∀ d ∈ g.devices.sinks, OfBoard e d := by
  obtain ⟨-, none⟩ | ⟨-, found⟩ := h.board
  · intro d member
    rw [none] at member
    simp only [Devices.sinks, Devices.zero, List.mem_cons, List.not_mem_nil, or_false,
      or_self] at member
    exact .inl member
  · rw [found]
    exact fun d member => .inr (.inl member)

theorem Wired.itm (h : Wired e g) : OfBoard e g.devices.itm := by
  obtain ⟨-, none⟩ | ⟨-, found⟩ := h.board
  · rw [none]
    exact .inl rfl
  · rw [found]
    exact .inr (.inr (.inl rfl))

theorem wired_onRig {α : Type} {x : Fn Rig α} (keeps : Keeps (Lit e) x) :
    Keeps (Wired e) (onRig x) := by
  intro g wired
  apply (ensures_zoom x).mpr
  apply (keeps g.rig wired.lit).mono
  · exact fun _ r lit => ⟨wired.board, lit⟩
  · exact fun _ r lit => ⟨wired.board, lit⟩

theorem wired_shutdown : Keeps (Wired e) (onRig (call e .shutdown)) := by
  apply wired_onRig
  apply lit_call
  rintro _ ⟨⟩

theorem wired_dataFree : DataFree (Wired e) where
  same := by
    intro g g' same wired
    have rig : g'.rig = g.rig := congrArg Core.rig same
    have board : g'.board = g.board := congrArg Core.board same
    have devices : g'.devices = g.devices := congrArg Core.devices same
    obtain ⟨found, lit⟩ := wired
    rw [← board, ← devices] at found
    rw [← rig] at lit
    exact ⟨found, lit⟩
  data := fun _ _ _ _ wired => ⟨wired.board, wired.lit⟩

theorem wired_setTraceState (new : TraceState) : Keeps (Wired e) (setTraceState new) :=
  keeps_modify fun _ wired => ⟨wired.board, wired.lit⟩

theorem wired_enableCsTrace (pid : Parent.Pid) : Keeps (Wired e) (enableCsTrace e o pid) := by
  have first : Keeps (Wired e) (enableFirst e pid) := by
    apply keeps_read
    intro g wired
    apply (wired_onRig (lit_configureTrace wired.known _ _)).bind
    intro rc
    apply (keeps_require _ _).bind
    intro _
    apply (wired_onRig (lit_enableTrace wired.known wired.sinks wired.itm _)).bind
    intro rc
    apply (keeps_require _ _).bind
    intro _
    exact keeps_modify fun _ wired => ⟨wired.board, wired.lit⟩
  have again : Keeps (Wired e) (enableAgain e) := by
    apply keeps_read
    intro g wired
    exact (wired_onRig (lit_enableTraceSinksOnly wired.sinks)).bind fun _ => keeps_require _ _
  have components : Keeps (Wired e) (enableComponents e o pid) := by
    apply Leads.enclose
    apply keeps_read
    intro g _
    apply Leads.bind
    · cases g.isFirstTrace
      · exact again
      · exact first
    · intro _
      exact (keeps_when _ (wired_onRig (lit_stable.call rfl))).bind fun _ => keeps_pure _
  apply components.bind
  intro rc
  exact (keeps_when _ wired_shutdown).bind fun _ => keeps_pure _

theorem wired_disableAttempt (all : Bool) : Keeps (Wired e) (disableAttempt e all) := by
  apply keeps_get.bind
  intro g
  cases all
  · apply wired_onRig
    exact (lit_stable.mono fun _ => lowering_calm).disableTraceSinksOnly
  · exact wired_onRig (lit_stable.disableTrace _ _)

theorem wired_reset : Keeps (Wired e) (onRig csResetErrorCount) :=
  wired_onRig (keeps_modify fun _ lit => ⟨lit.known, lit.lit⟩)

theorem body_wired (c : Api) : Keeps (Wired e) (c.body e o) := by
  have looks (c : CsCall) (looking : c.looking = true) : Keeps (Wired e) (onRig (call e c)) :=
    wired_onRig (lit_stable.call (looking_calm looking))
  cases c with
  | initTrace a =>
    apply wired_dataFree.toCoreOnly.initTrace _ (wired_setTraceState _) wired_shutdown
    apply setupNamedBoard_keeps (wired_onRig (lit_stable.op rfl))
    exact fun g wired => ⟨.inr ⟨rfl, rfl⟩, wired.lit⟩
  | startTrace pid use a =>
    apply Leads.enclose
    apply (keeps_require _ _).bind
    intro _
    apply Leads.bind
    · exact keeps_modify fun _ wired => ⟨wired.board, wired.lit⟩
    intro _
    apply Leads.bind
    · exact keeps_when _ (keeps_modify fun _ wired => ⟨wired.board, wired.lit⟩)
    intro _
    apply Leads.bind
    · exact keeps_modify fun _ wired => ⟨wired.board, wired.lit⟩
    intro _
    apply Leads.bind
    · exact keeps_modify fun _ wired => ⟨wired.board, wired.lit⟩
    intro _
    apply (wired_enableCsTrace _).bind
    intro rc
    apply (keeps_require _ _).bind
    intro _
    exact (wired_setTraceState _).bind fun _ => keeps_pure _
  | fetchTrace f => exact wired_dataFree.fetchTrace looks f
  | traceSuspendCallback | traceResumeCallback =>
    exact (wired_setTraceState _).bind fun _ => keeps_pure _
  | stopTrace all =>
    exact stopTrace_leads (wired_disableAttempt all) (wired_disableAttempt all) wired_reset
      (wired_setTraceState _)
  | finiTrace a => exact wired_dataFree.finiTrace looks (wired_setTraceState _) wired_shutdown a

/-- What a stop is to switch off. -/
def OffAfter (all : Bool) (g : Globals) : Prop :=
  ∀ d, d ≠ csErrdesc → all = true ∨ d ∈ g.devices.sinks → g.rig.enabled d = false

/-- An attempt that succeeds has done so. -/
theorem disableAttempt_off (counts : Counts e) (wired : Wired e g) :
    Ensures (disableAttempt e all) (fun rc g' => 0 ≤ rc → OffAfter all g') (fun _ _ => True) g := by
  apply (ensures_bind _ _).mpr
  apply ensures_get.mpr
  cases all with
  | false =>
    apply (ensures_zoom _).mpr
    apply (disableTraceSinksOnly_off counts g.rig).mono _ fun _ _ _ => trivial
    intro rc r off positive d real sink
    exact off positive d real (sink.resolve_left Bool.false_ne_true)
  | true =>
    obtain ⟨none, -⟩ | ⟨board, devices⟩ := wired.board
    · apply (ensures_zoom _).mpr
      rw [none]
      apply (ensures_enclose _).mpr
      apply (ensures_ret _).mpr
      intro positive
      exact absurd positive (by decide)
    · apply (ensures_zoom _).mpr
      rw [board]
      apply ((disableTrace_off counts e.board g.rig).with
        (lit_stable.disableTrace (some e.board) g.devices) wired.lit).mono _ fun _ _ _ => trivial
      rintro rc r ⟨off, lit⟩ positive d real -
      by_contra on
      obtain null | sink | itm | ⟨i, below, source⟩ := lit.lit d (Bool.not_eq_false _ ▸ on)
      · exact real null
      · exact on (off positive d real (.inl (devices ▸ sink)))
      · exact on (off positive d real (.inr (.inl (devices ▸ itm))))
      · apply on (off positive d real (.inr (.inr ⟨i, below, ?_⟩)))
        obtain null | found := wired.lit.known i below
        · exact .inr null
        · exact .inl (source.trans found.symm)

theorem disableLoop_off (counts : Counts e) (trials : Nat) {ret : Int} (failed : ret < 0)
    (wired : Wired e g) :
    Ensures (disableLoop e all trials ret) (fun rc g' => 0 ≤ rc → OffAfter all g')
      (fun _ _ => True) g := by
  induction trials generalizing ret g with
  | zero => exact (ensures_pure _).mpr fun positive => absurd positive (by omega)
  | succ trials ih =>
    apply (ensures_bind _ _).mpr
    apply ((disableAttempt_off counts wired).with (wired_disableAttempt all) wired).mono _
      fun _ _ _ => trivial
    rintro rc g₁ ⟨off, wired₁⟩
    by_cases positive : 0 ≤ rc
    · rw [if_pos positive]
      exact (ensures_pure _).mpr fun _ => off positive
    · rw [if_neg positive]
      apply (ensures_bind _ _).mpr
      apply (wired_reset g₁ wired₁).mono _ fun _ _ _ => trivial
      exact fun _ g₂ wired₂ => ih (by omega) wired₂

theorem stopTrace_off (counts : Counts e) (wired : Wired e g) :
    Ensures (stopTrace e all) (fun rc g' => 0 ≤ rc → OffAfter all g') (fun _ _ => True) g := by
  apply ensures_returned
  apply (ensures_bind _ _).mpr
  apply ((disableLoop_off counts _ (by decide) wired).and (disableLoop_through all _ _ g)).mono
  · rintro rc g₁ ⟨off, -⟩
    simp only [ensures_bind, ensures_require, setTraceState, ensures_modify, ensures_pure,
      decide_eq_true_eq, decide_eq_false_iff_not]
    constructor
    · exact fun positive _ => off positive
    · rintro negative rc' ⟨⟩ positive
      exact absurd positive negative
  · rintro _ _ ⟨-, rfl⟩ rc ⟨⟩

/-- **A stop that succeeds has switched everything off**: all sinks, and all sources
if it was asked to, whatever calls were made before and whichever of them failed. -/
theorem stopped_is_off (counts : Counts e) {rig : Rig} (dark : ∀ d, rig.enabled d = false)
    (zeroed : ∀ i, rig.ptm i = csErrdesc) {traceCpu : Int} {h : History}
    (reached : Reach (anyStep e o) (fun _ _ => true) (.initial rig traceCpu) h) {rc : Int}
    {older : List ApiEvent} (stopped : h.events = .returned (.stopTrace all) rc :: older)
    (success : 0 ≤ rc) : OffAfter all h.globals := by
  let Inv (h : History) : Prop := Wired e h.globals
  have first : Inv (.initial rig traceCpu) := by
    refine ⟨.inl ⟨rfl, rfl⟩, fun i _ => .inl (zeroed i), fun d on => ?_⟩
    have off : rig.enabled d = true := on
    rw [dark d] at off
    cases off
  have wired {h : History} (reached : Reach (anyStep e o) (fun _ _ => true)
      (.initial rig traceCpu) h) : Inv h := by
    apply reached.invariant first
    intro s c t inv _ moved
    obtain ⟨_, -, wired⟩ := anyStep_ensures moved (body_wired c s.globals inv)
    exact wired
  cases reached with
  | start => cases stopped
  | next before _ moved =>
    obtain ⟨_, events, -⟩ := anyStep_ensures moved (ensures_const trivial _ _)
    rw [stopped] at events
    cases events
    obtain ⟨_, events, off⟩ := anyStep_ensures moved (stopTrace_off counts (wired before))
    rw [stopped] at events
    cases events
    exact off success

end

/-- On this ZCU-104 no sink can be disabled before the error count was reset. -/
def stubborn : Csal := { zcu104 with
  answer := fun before c =>
    match c with
    | .traceDisable 0 => ⟨-1, 1⟩
    | .sinkDisable _ =>
      if before.any fun c => match c with
        | .resetErrorCount => true
        | _ => false
      then ⟨0, 0⟩ else ⟨-1, 1⟩
    | _ => ⟨0, 0⟩ }

theorem stubborn_counts : Counts stubborn := by
  constructor
  · intro before c disables fails
    cases c with
    | sinkDisable d =>
      simp only [stubborn] at fails ⊢
      split
      · rename_i reset
        rw [if_pos reset] at fails
        exact absurd rfl fails
      · decide
    | traceDisable d =>
      cases d with
      | zero => exact Nat.one_pos
      | succ d => exact absurd rfl fails
    | _ => exact absurd rfl disables
  · intro before
    show (-1 : Int) ≠ 0
    decide

/-- The last call was a stop of all devices, and succeeded. -/
def stopSucceeded (h : History) : Bool :=
  match h.events with
  | .returned (.stopTrace true) rc :: _ => decide (0 ≤ rc)
  | _ => false

theorem stopped_is_off_retried : ∃ h,
    Reach (anyStep stubborn plain) (fun _ _ => true) (.initial .idle (-1)) h ∧
    stopSucceeded h = true ∧ OffAfter true h.globals := by
  have replay : (exec (anyStep stubborn plain) (fun _ _ => true) (.initial .idle (-1))
      [.initTrace healthy.init, .startTrace 42 true healthy.start, .stopTrace true]).any
      stopSucceeded = true := by
    decide +kernel
  obtain ⟨h, reached, succeeded⟩ := reach_of_exec replay
  refine ⟨h, reached, succeeded, ?_⟩
  have succeeded' := succeeded
  unfold stopSucceeded at succeeded'
  split at succeeded'
  · rename_i stopped
    exact stopped_is_off stubborn_counts (fun _ => rfl) (fun _ => rfl) reached stopped
      (of_decide_eq_true succeeded')
  · cases succeeded'

end Ultrasight.Session
