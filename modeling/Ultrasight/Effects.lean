import Ultrasight.Walks

/-!
# What the configuration functions leave alone

`Stable` is an invariant that calls of a kind keep. The functions that make only
calls of this kind keep it. `MadeSince` is about the calls a run has made so far.
-/

namespace Ultrasight

open Fn CsCall

@[simp] theorem ensures_must {e : Csal} {c : CsCall} {Q : Unit → Rig → Prop}
    {E : Exit → Rig → Prop} {r : Rig} :
    Ensures (must e c) Q E r ↔ ((e.answer r.calls c).rc = 0 → Q () (r.after e c)) ∧
      ((e.answer r.calls c).rc ≠ 0 → E (.ret (-1)) (r.after e c)) := by
  simp [must]

theorem leaves_must {e : Csal} {c : CsCall} {P : Rig → Prop} {r : Rig} (h : P (r.after e c)) :
    Leaves (must e c) P r := ensures_must.mpr ⟨fun _ => h, fun _ => h⟩

/-- To show an ETM, three calls are made. -/
theorem keeps_showEtmConfig {e : Csal} {K : CsCall → Prop} {Inv : Rig → Prop}
    (w : Walk e e.registrationVerbose K fun {α} (x _ : Fn Rig α) => Keeps Inv x)
    (kind : ∀ c : CsCall, c.looking = true → c.inert = true → K c) (etm : Dev) :
    Keeps Inv (showEtmConfig e etm) := by
  apply Leads.bind ((w.call (kind _ rfl rfl)).bind fun _ => keeps_pure _)
  intro source
  apply (keeps_assert source).bind
  intro _
  apply Leads.bind (w.call (kind _ rfl rfl))
  intro _
  apply keeps_when
  exact (w.call (kind _ rfl rfl)).bind fun _ => keeps_crash

/-- Calls of the kind `P` keep `Inv`, and so does a look at the error count. -/
structure Stable (e : Csal) (P : CsCall → Bool) (Inv : Rig → Prop) : Prop where
  after : ∀ c r, P c = true → Inv r → Inv (r.after e c)
  count : ∀ r, Inv r → Inv (r.log .errorCount)

namespace Stable

variable {e : Csal} {P : CsCall → Bool} {Inv : Rig → Prop} {c : CsCall}

theorem mono {P' : CsCall → Bool} (h : Stable e P Inv) (weaker : ∀ c, P' c = true → P c = true) :
    Stable e P' Inv :=
  ⟨fun c r p => h.after c r (weaker c p), h.count⟩

theorem op (h : Stable e P Inv) (p : P c = true) : Keeps Inv (op e c) :=
  fun r inv => ensures_op.mpr (h.after c r p inv)

theorem call (h : Stable e P Inv) (p : P c = true) : Keeps Inv (call e c) :=
  fun r inv => ensures_call.mpr (h.after c r p inv)

theorem walk (h : Stable e P Inv) :
    Walk e e.registrationVerbose (fun c => P c = true) fun {α} (x _ : Fn Rig α) => Keeps Inv x where
  toClosed := keeps_closed
  op := fun _ p => h.op p
  log := keeps_modify h.count
  look := fun _ rest => keeps_get.bind rest

theorem checked (h : Stable e P Inv) :
    Keeps Inv (checkErrors >>= fun _ => (pure 0 : Fn Rig Int)) := h.walk.checked

theorem csDeviceRead (h : Stable e P Inv) {d : Dev} {reg : EtbReg}
    (p : P (.deviceRead d reg) = true) : Keeps Inv (csDeviceRead e d reg) :=
  h.walk.csDeviceRead p

theorem showEtmConfig (h : Stable e looking Inv) (etm : Dev) : Keeps Inv (showEtmConfig e etm) :=
  keeps_showEtmConfig h.walk (fun _ p _ => p) etm

/-- The loop at the end of `disable_trace`. -/
theorem showEtmConfigs (h : Stable e looking Inv) (cpus : List Nat) :
    Keeps Inv (each cpus fun i => get >>= fun r => Ultrasight.showEtmConfig e (r.ptm i)) := by
  apply keeps_each
  intro i _
  exact keeps_get.bind fun r => h.showEtmConfig (r.ptm i)

theorem enableTraceSinksOnly (h : Stable e raising Inv) (devices : Devices) :
    Keeps Inv (enableTraceSinksOnly e devices) :=
  h.walk.enableTraceSinksOnly (fun _ p _ _ => p) devices

theorem enableTrace (h : Stable e raising Inv) (board : Option Board) (devices : Devices)
    (ram : BitVec 64 × BitVec 64) : Keeps Inv (enableTrace e board devices ram) :=
  h.walk.enableTrace (fun _ p _ _ => p) (fun _ _ => rfl) (keeps_when _ (h.call rfl)) board devices ram

theorem disableTraceSinksOnly {devices : Devices} (h : Stable e (lowering devices.sinks) Inv) :
    Keeps Inv (disableTraceSinksOnly e devices) :=
  h.walk.disableTraceSinksOnly fun _ p _ _ => p

theorem disableTrace_leads {Pre : Rig → Prop} (h : Stable e calm Inv) {devices : Devices}
    (first : Leads Pre Inv (Ultrasight.call e (.sinkIsEnabled devices.etb))) (board : Board) :
    Leads Pre Inv (Ultrasight.disableTrace e (some board) devices) := by
  have looks : Stable e looking Inv := h.mono fun _ => looking_calm
  apply h.walk.disableTrace leads_opens first fun _ p _ _ => p
  exact keeps_when _ (looks.showEtmConfigs _)

theorem disableTrace (h : Stable e calm Inv) (board : Option Board) (devices : Devices) :
    Keeps Inv (disableTrace e board devices) := by
  cases board with
  | none => exact (keeps_ret _).enclose
  | some board => exact h.disableTrace_leads (h.call rfl) board

theorem initEtm (h : Stable e calm Inv) (dev : Dev) : Keeps Inv (initEtm e dev) :=
  h.walk.initEtm (fun _ p _ _ => p) (keeps_assert _) (keeps_assert _)

/-- `configure_trace` also writes the array `ptm`. -/
theorem configureTrace (h : Stable e calm Inv)
    (ptm : ∀ r i d, Inv r → Inv { r with ptm := Function.update r.ptm i d })
    (board : Option Board) (devices : Devices) (range : MapInfo) (pid : BitVec 32) :
    Keeps Inv (configureTrace e board devices range pid) := by
  have looks : Stable e looking Inv := h.mono fun _ => looking_calm
  cases board with
  | none => exact (keeps_ret _).enclose
  | some board =>
    apply h.walk.configureTrace (fun _ p _ _ => p) fun _ _ => rfl
    · intro i _
      apply h.walk.preparePtm (fun _ p _ _ => p) fun _ _ => rfl
      · exact fun dev _ => keeps_modify fun r => ptm r i dev
      · exact h.initEtm _
    · exact fun etm _ => keeps_when _ (looks.showEtmConfig etm)

end Stable

/-! ## Survival -/

section
variable {e : Csal} {c : CsCall}

theorem through_call : Through (call e c) := fun _ => ensures_call.mpr trivial

theorem through_showEtmConfig (etm : Dev) : Through (showEtmConfig e etm) := by
  apply Through.bind
  · exact through_call.bind fun _ => through_pure _
  intro source
  apply (through_assert _).bind
  intro _
  apply through_call.bind
  intro _
  exact Through.when _ (through_call.bind fun _ => through_crash)

theorem survives_op : Survives (op e c) := fun _ => ensures_op.mpr trivial

/-- No call is deadly. -/
theorem survives_walk :
    Walk e e.registrationVerbose (fun _ => True) fun {α} (x _ : Fn Rig α) => Survives x where
  toClosed := survives_closed
  op := fun _ _ => survives_op
  log := survives_modify _
  look := fun _ rest => survives_get.bind rest

end

/-! ## The calls of a run -/

/-- The calls made since the log was `old`, newest first, are as `P` says. -/
def MadeSince (old : List CsCall) (P : List CsCall → Prop) (r : Rig) : Prop :=
  ∃ new, r.calls = new ++ old ∧ P new

section
variable {e : Csal} {old : List CsCall} {P : List CsCall → Prop}

theorem madeSince_cons {K : CsCall → Bool} (h : ∀ c new, K c = true → P new → P (c :: new))
    {c : CsCall} {r r' : Rig} (k : K c = true) (calls : r'.calls = c :: r.calls)
    (made : MadeSince old P r) : MadeSince old P r' := by
  obtain ⟨new, split, holds⟩ := made
  exact ⟨c :: new, by rw [calls, split, List.cons_append], h c new k holds⟩

theorem stable_madeSince {K : CsCall → Bool} (look : K .errorCount = true)
    (h : ∀ c new, K c = true → P new → P (c :: new)) : Stable e K (MadeSince old P) :=
  ⟨fun _ _ k => madeSince_cons h k rfl, fun _ => madeSince_cons h look rfl⟩

end

end Ultrasight
