import Ultrasight.Attempts
import Ultrasight.Footprints

/-!
# Errors that enabling takes for its own

`enable_trace` and `enable_trace_sinks_only` end with a look at CSAL's error
count, which holds all errors since it was last reset. Only `disable_cs_trace`
resets it, between two tries. So enabling fails without a failure of its own
exactly if the count was not 0 before.

* `soundly` looks at the answers to a list of calls;
* `Plans` is a body that makes its calls as long as they are answered soundly;
* `own_errors_iff` for the two functions and for a fetch cycle.
-/

namespace Ultrasight

open Fn CsCall

/-- The call succeeded and raised no error. The functions that set up the ports
of the STM fail with a negative result; reading the error count cannot fail. -/
def CsCall.sound (c : CsCall) (a : Answer) : Bool :=
  match c with
  | .errorCount => true
  | .traceSwstimEnableAllPorts _ | .traceSwstimSetSyncRepeat _ _ => decide (0 ≤ a.rc) && a.errors == 0
  | _ => a.rc == 0 && a.errors == 0

/-- All calls since the log was `old`, newest first, were sound. -/
def soundly (e : Csal) (old : List CsCall) : List CsCall → Bool
  | [] => true
  | c :: earlier => c.sound (e.answer (earlier ++ old) c) && soundly e old earlier

/-- A call since the log was `old` failed or raised errors. -/
def Troubled (e : Csal) (old : List CsCall) : Rig → Prop :=
  MadeSince old fun new => soundly e old new = false

section
variable {e : Csal} {r : Rig} {c : CsCall} {old : List CsCall}

theorem soundly_append (later earlier : List CsCall) :
    soundly e old (later ++ earlier) = (soundly e (earlier ++ old) later && soundly e old earlier) := by
  induction later with
  | nil => rfl
  | cons c later ih =>
    rw [List.cons_append, soundly, soundly, ih, List.append_assoc, Bool.and_assoc]

theorem sound_errors {a : Answer} (sound : c.sound a = true) (counted : c ≠ .errorCount) :
    a.errors = 0 := by
  cases c <;> simp_all [CsCall.sound]

theorem stable_troubled : Stable e (fun _ => true) (Troubled e old) :=
  stable_madeSince rfl fun c new _ unsound => by rw [soundly, unsound, Bool.and_false]

/-! ## Bodies that make a list of calls -/

/-- `x` makes the calls given for the ETMs in `ptm` if they are answered soundly.
If not, one of the calls it makes is not. -/
structure Plans (e : Csal) (x : Fn Rig Unit) (calls : (Nat → Dev) → List CsCall) : Prop where
  done : ∀ r, soundly e r.calls (calls r.ptm).reverse = true → x r = .ok () (r.made e (calls r.ptm))
  count : ∀ r : Rig, soundly e r.calls (calls r.ptm).reverse = true →
    (r.made e (calls r.ptm)).errorCount = r.errorCount
  troubled : ∀ r, soundly e r.calls (calls r.ptm).reverse = false → Leaves x (Troubled e r.calls) r
  keeps : ∀ old, Keeps (Troubled e old) x

variable {x y : Fn Rig Unit} {xs ys : (Nat → Dev) → List CsCall}

theorem plans_pure : Plans e (pure ()) fun _ => [] where
  done := fun _ _ => rfl
  count := fun _ _ => rfl
  troubled := fun _ impossible => by cases impossible
  keeps := fun _ => keeps_pure ()

theorem Plans.bind (hx : Plans e x xs) (hy : Plans e y ys) :
    Plans e (x >>= fun _ => y) fun ptm => xs ptm ++ ys ptm where
  done := by
    intro r sound
    rw [List.reverse_append, soundly_append, Bool.and_eq_true, ← made_calls (e := e)] at sound
    have first := hx.done r sound.2
    have second := hy.done (r.made e (xs r.ptm)) (by rw [made_ptm]; exact sound.1)
    rw [made_ptm] at second
    rw [bind_ok first, second, made_append]
  count := by
    intro r sound
    rw [List.reverse_append, soundly_append, Bool.and_eq_true, ← made_calls (e := e)] at sound
    have second := hy.count (r.made e (xs r.ptm)) (by rw [made_ptm]; exact sound.1)
    rw [made_ptm] at second
    rw [made_append, second, hx.count r sound.2]
  troubled := by
    intro r unsound
    rw [List.reverse_append, soundly_append, ← made_calls (e := e)] at unsound
    cases sound : soundly e r.calls (xs r.ptm).reverse with
    | false => exact Leaves.bind (hx.troubled r sound) fun _ => hy.keeps r.calls
    | true =>
      rw [sound, Bool.and_true] at unsound
      apply (ensures_bind _ _).mpr
      apply (ensures_of_ok (hx.done r sound)).mpr
      have second := hy.troubled (r.made e (xs r.ptm)) (by rw [made_ptm]; exact unsound)
      have since (s : Rig) : Troubled e (r.made e (xs r.ptm)).calls s → Troubled e r.calls s := by
        rintro ⟨new, split, trouble⟩
        refine ⟨new ++ (xs r.ptm).reverse, by rw [split, made_calls, List.append_assoc], ?_⟩
        show soundly e r.calls (new ++ (xs r.ptm).reverse) = false
        rw [soundly_append, ← made_calls (e := e), trouble, Bool.false_and]
      exact second.mono (fun _ => since) fun _ => since
  keeps := fun old => (hx.keeps old).bind fun _ => hy.keeps old

theorem Plans.congr (h : Plans e x xs) (same : ∀ ptm, xs ptm = ys ptm) : Plans e x ys :=
  funext same ▸ h

theorem Plans.when (b : Bool) (hx : Plans e x xs) :
    Plans e (when b x) fun ptm => if b then xs ptm else [] := by
  cases b
  · exact plans_pure
  · exact hx

theorem plans_each {α : Type} {body : α → Fn Rig Unit} {calls : (Nat → Dev) → α → List CsCall}
    (l : List α) (h : ∀ a ∈ l, Plans e (body a) fun ptm => calls ptm a) :
    Plans e (each l body) fun ptm => l.flatMap (calls ptm) := by
  induction l with
  | nil => exact plans_pure
  | cons a l ih =>
    rw [List.forall_mem_cons] at h
    exact h.1.bind (ih h.2)

/-- A call, and a look at its result that stops nothing if the call was sound. -/
theorem plans_op (counted : c ≠ .errorCount) {f : Int → Fn Rig Unit}
    (goes : ∀ a : Answer, c.sound a = true → f a.rc = pure ())
    (keeps : ∀ rc old, Keeps (Troubled e old) (f rc)) : Plans e (op e c >>= f) fun _ => [c] where
  done := by
    intro r sound
    rw [List.reverse_singleton, soundly, Bool.and_eq_true] at sound
    have rest := goes (e.answer r.calls c) sound.1
    simp only [Bind.bind, EStateM.bind, op, rest]
    rfl
  count := by
    intro r sound
    rw [List.reverse_singleton, soundly, Bool.and_eq_true] at sound
    have none : (e.answer r.calls c).errors = 0 := sound_errors sound.1 counted
    rw [made_cons, made_nil, Rig.after, none, Nat.add_zero]
  troubled := by
    intro r unsound
    apply (ensures_bind _ _).mpr
    apply ensures_op.mpr
    exact keeps _ r.calls _ ⟨[c], rfl, unsound⟩
  keeps := fun old => (stable_troubled.op rfl).bind fun rc => keeps rc old

theorem plans_call (counted : c ≠ .errorCount) : Plans e (call e c) fun _ => [c] :=
  plans_op counted (fun _ _ => rfl) fun _ _ => keeps_pure ()

theorem plans_must (counted : c ≠ .errorCount)
    (strict : ∀ a : Answer, c.sound a = true → a.rc = 0) : Plans e (must e c) fun _ => [c] := by
  apply plans_op counted
  · intro a sound
    rw [strict a sound]
    rfl
  · exact fun _ _ => keeps_require _ _

theorem plans_mustNotFail (counted : c ≠ .errorCount) :
    Plans e (mustNotFail e c) fun _ => [c] := by
  apply plans_op counted
  · intro a sound
    have negative : decide (0 ≤ a.rc) = true := by
      cases c <;> simp_all [CsCall.sound]
    rw [negative]
    rfl
  · exact fun _ _ => keeps_require _ _

theorem plans_callPtm {on : Dev → CsCall} (counted : ∀ d, on d ≠ .errorCount) (i : Nat) :
    Plans e (callPtm e on i) fun ptm => [on (ptm i)] where
  done := fun r sound => (plans_call (counted (r.ptm i))).done r sound
  count := fun r sound => (plans_call (counted (r.ptm i))).count r sound
  troubled := fun r unsound => (ensures_bind _ _).mpr
    (ensures_get.mpr ((plans_call (counted (r.ptm i))).troubled r unsound))
  keeps := fun old => keeps_get.bind fun r => (plans_call (counted (r.ptm i))).keeps old

/-- Without a failure of its own, a function with an error check at its end
returns what the count before it says. -/
theorem Plans.ended (hx : Plans e x xs) (sound : soundly e r.calls (xs r.ptm).reverse = true) :
    enclose (x >>= fun _ => do checkErrors; pure 0) r =
      .ok (if r.errorCount = 0 then 0 else -1) ((r.made e (xs r.ptm)).log .errorCount) := by
  have rest := ends_check (e := e) (r.made e (xs r.ptm))
  rw [hx.count r sound] at rest
  exact (enclose_bind (hx.done r sound)).trans rest

theorem Plans.checked (hx : Plans e x xs)
    (alive : Survives (enclose (x >>= fun _ => do checkErrors; pure 0))) (r : Rig) :
    Ensures (enclose (x >>= fun _ => do checkErrors; pure 0))
      (fun rc r' => (rc = -1 → Troubled e r.calls r') ↔
        r.errorCount = 0 ∨ soundly e r.calls (xs r.ptm).reverse = false)
      (fun _ _ => False) r := by
  cases sound : soundly e r.calls (xs r.ptm).reverse with
  | true =>
    apply (ensures_of_ok (hx.ended sound)).mpr
    have calm : ¬ Troubled e r.calls ((r.made e (xs r.ptm)).log .errorCount) := by
      rintro ⟨new, split, trouble⟩
      have all : new = .errorCount :: (xs r.ptm).reverse := by
        rw [Rig.log, made_calls, ← List.cons_append, List.append_cancel_right_eq] at split
        exact split.symm
      rw [all, soundly, sound] at trouble
      cases trouble
    by_cases none : r.errorCount = 0
    · simp [none]
    · simp [none, calm]
  | false =>
    obtain ⟨rc, r', ended⟩ := alive.returns r
    have troubled := (ensures_of_ok ended).mp
      (Leaves.bind (hx.troubled r sound) fun _ => stable_troubled.checked).enclosed
    apply (ensures_of_ok ended).mpr
    exact ⟨fun _ => .inr rfl, fun _ _ => troubled⟩

/-! ## The enabling functions -/

variable (devices : Devices) (board : Board) (ram : BitVec 64 × BitVec 64)

theorem plans_tpiu : Plans e (when (devices.tpiu != 0) (must e (.sinkEnable devices.tpiu)))
    fun _ => if devices.tpiu = 0 then [] else [.sinkEnable devices.tpiu] := by
  have enabled : Plans e (must e (.sinkEnable devices.tpiu)) fun _ => [.sinkEnable devices.tpiu] :=
    plans_must nofun fun a sound => by simp_all [CsCall.sound]
  have planned := enabled.when (devices.tpiu != 0)
  by_cases absent : devices.tpiu = 0 <;> simpa [absent] using planned

theorem plans_etfs : Plans e (each devices.traceSinks (enableEtf e))
    fun _ => devices.traceSinks.flatMap enableEtfCalls := by
  apply plans_each devices.traceSinks
  intro d _
  have setup : Plans e (must e (.sinkEtfSetup d .hwFifo)) fun _ => [.sinkEtfSetup d .hwFifo] :=
    plans_must nofun fun a sound => by simp_all [CsCall.sound]
  have fifo : Plans e (must e (.tmcHwFifoEnable d 0)) fun _ => [.tmcHwFifoEnable d 0] :=
    plans_must nofun fun a sound => by simp_all [CsCall.sound]
  exact setup.bind fifo

/-- What `enable_trace_sinks_only` would like to call. -/
def sinksPlan (devices : Devices) : List CsCall := enableSinksCalls devices ++ [.checkpoint]

theorem plans_sinks : Plans e (do
      must e (.sinkEnable devices.etb)
      when (devices.tpiu != 0) (must e (.sinkEnable devices.tpiu))
      each devices.traceSinks (enableEtf e)
      call e .checkpoint) fun _ => sinksPlan devices := by
  have etr : Plans e (must e (.sinkEnable devices.etb)) fun _ => [.sinkEnable devices.etb] :=
    plans_must nofun fun a sound => by simp_all [CsCall.sound]
  have last : Plans e (call e .checkpoint) fun _ => [.checkpoint] := plans_call nofun
  apply (etr.bind ((plans_tpiu devices).bind ((plans_etfs devices).bind last))).congr
  intro _
  simp only [sinksPlan, enableSinksCalls, List.append_assoc, List.cons_append, List.nil_append]

/-- What `enable_trace` would like to call. -/
def enablePlan (e : Csal) (board : Board) (devices : Devices) (ram : BitVec 64 × BitVec 64)
    (ptm : Nat → Dev) : List CsCall :=
  .sinkEtrSetup devices.etb ⟨ram.1, ram.2, board.etrAxictl⟩ ::
    (enableSinksCalls devices ++ enableSourcesCalls e board devices ptm)

theorem plans_all : Plans e (do
      must e (.sinkEtrSetup devices.etb ⟨ram.1, ram.2, board.etrAxictl⟩)
      must e (.sinkEnable devices.etb)
      when (devices.tpiu != 0) (must e (.sinkEnable devices.tpiu))
      each devices.traceSinks (enableEtf e)
      each (List.range board.nCpu) (callPtm e .traceEnable)
      mustNotFail e (.traceSwstimEnableAllPorts devices.itm)
      mustNotFail e (.traceSwstimSetSyncRepeat devices.itm 32)
      call e (.traceEnable devices.itm)
      call e .checkpoint
      when (0 < e.registrationVerbose) (call e .ctiDiag)) (enablePlan e board devices ram) := by
  have setup : Plans e (must e (.sinkEtrSetup devices.etb ⟨ram.1, ram.2, board.etrAxictl⟩))
      fun _ => [.sinkEtrSetup devices.etb ⟨ram.1, ram.2, board.etrAxictl⟩] :=
    plans_must nofun fun a sound => by simp_all [CsCall.sound]
  have etr : Plans e (must e (.sinkEnable devices.etb)) fun _ => [.sinkEnable devices.etb] :=
    plans_must nofun fun a sound => by simp_all [CsCall.sound]
  have etms := plans_each (List.range board.nCpu) fun i _ =>
    @plans_callPtm e .traceEnable nofun i
  have diag : Plans e (when (0 < e.registrationVerbose) (call e .ctiDiag)) _ :=
    Plans.when _ (plans_call nofun)
  have stm := (@plans_mustNotFail e (.traceSwstimEnableAllPorts devices.itm) nofun).bind
    ((@plans_mustNotFail e (.traceSwstimSetSyncRepeat devices.itm 32) nofun).bind
      ((@plans_call e (.traceEnable devices.itm) nofun).bind
        ((@plans_call e .checkpoint nofun).bind diag)))
  apply (setup.bind (etr.bind ((plans_tpiu devices).bind
    ((plans_etfs devices).bind (etms.bind stm))))).congr
  intro ptm
  simp only [enablePlan, enableSinksCalls, enableSourcesCalls, List.append_assoc,
    List.cons_append, List.nil_append, decide_eq_true_eq]

theorem enableTraceSinksOnly_own_iff (r : Rig) : Ensures (enableTraceSinksOnly e devices)
    (fun rc r' => (rc = -1 → Troubled e r.calls r') ↔
      r.errorCount = 0 ∨ soundly e r.calls (sinksPlan devices).reverse = false)
    (fun _ _ => False) r := by
  have alive := survives_walk.enableTraceSinksOnly (e := e) (fun _ _ _ _ => trivial) devices
  have checked := (plans_sinks (e := e) devices).checked
  simp only [bind_assoc] at checked
  exact checked alive r

theorem enableTrace_own_iff (r : Rig) : Ensures (enableTrace e (some board) devices ram)
    (fun rc r' => (rc = -1 → Troubled e r.calls r') ↔
      r.errorCount = 0 ∨ soundly e r.calls (enablePlan e board devices ram r.ptm).reverse = false)
    (fun _ _ => False) r := by
  have alive := survives_walk.enableTrace (e := e) (fun _ _ _ _ => trivial) (fun _ _ => trivial)
    (survives_closed.when (y := call e .ctiDiag) fun _ => survives_walk.call trivial)
    (some board) devices ram
  have checked := (plans_all (e := e) devices board ram).checked
  simp only [bind_assoc] at checked
  exact checked alive r

variable {devices}

theorem enableTraceSinksOnly_sound (sound : soundly e r.calls (sinksPlan devices).reverse = true) :
    enableTraceSinksOnly e devices r = .ok (if r.errorCount = 0 then 0 else -1)
      ((r.made e (sinksPlan devices)).log .errorCount) := by
  have ended := (plans_sinks devices).ended sound
  simp only [bind_assoc] at ended
  exact ended

theorem sinksPlan_shutdowns :
    ((r.made e (sinksPlan devices)).log .errorCount).shutdowns = r.shutdowns := by
  have none : (sinksPlan devices).reverse.countP isShutdown = 0 := by
    apply List.countP_eq_zero.mpr
    intro c hc
    have raises : c.raising = true := by
      rcases List.mem_append.mp (List.mem_reverse.mp hc) with hc | hc
      · exact enableSinks_raising c hc
      · rw [List.mem_singleton.mp hc]
        rfl
    simpa [working] using raising_working raises
  simp only [Rig.shutdowns, Rig.log, made_calls, List.countP_cons, List.countP_append, none]
  simp [isShutdown]

/-! ## A fetch cycle -/

/-- The errors that the calls since the log was `old`, newest first, raised. -/
def errorsIn (e : Csal) (old : List CsCall) : List CsCall → Nat
  | [] => 0
  | c :: earlier => (e.answer (earlier ++ old) c).errors + errorsIn e old earlier

/-- The calls of a `fetch_trace` that returns 0. -/
def fetchCalls (devices : Devices) : List CsCall :=
  [.getBufferUnreadBytes devices.etb, .getTraceData devices.etb, .emptyTraceBuffer devices.etb]

theorem made_errors (calls : List CsCall) :
    (r.made e calls).errorCount = r.errorCount + errorsIn e r.calls calls.reverse := by
  induction calls generalizing r with
  | nil => rfl
  | cons c calls ih =>
    have split (later : List CsCall) : errorsIn e r.calls (later ++ [c]) =
        errorsIn e (c :: r.calls) later + (e.answer r.calls c).errors := by
      induction later with
      | nil => simp [errorsIn]
      | cons c' later ih =>
        rw [List.cons_append, errorsIn, errorsIn, ih, List.append_assoc, List.singleton_append]
        omega
    rw [made_cons, ih, List.reverse_cons, split, after_calls, Rig.after]
    simp only
    omega

namespace Session

variable {o : Settings} {g : Globals}

theorem fetchTrace_makes (f : TraceBuffer.Fetch) (g : Globals) : Ensures (fetchTrace e f)
    (fun rc g' => rc = 0 → g'.rig = g.rig.made e (fetchCalls g.devices) ∧
      g'.isFirstTrace = g.isFirstTrace) (fun _ _ => True) g := by
  simp only [fetchTrace, ensures_enclose, ensures_bind, ensures_get, onRig, ensures_zoom,
    ensures_call]
  split
  · simp
  · simp only [ensures_bind, ensures_modify, ensures_require, ensures_zoom, ensures_call,
      ensures_pure, decide_eq_false_iff_not]
    constructor
    · exact fun _ _ => ⟨rfl, trivial⟩
    · intro failed none
      omega

/-- Enabling the sinks without a failure of its own ends in `cs_shutdown` unless
no errors were counted before. -/
theorem enableCsTrace_spares_iff (pid : Parent.Pid) (again : g.isFirstTrace = false)
    (sound : soundly e g.rig.calls (sinksPlan g.devices).reverse = true) :
    Ensures (enableCsTrace e o pid) (fun _ g' => g'.rig.shutdowns = g.rig.shutdowns)
      (fun _ _ => False) g ↔ g.rig.errorCount = 0 := by
  have ended := enableTraceSinksOnly_sound sound
  have kept := @sinksPlan_shutdowns e g.rig g.devices
  simp only [enableCsTrace, enableComponents, enableAgain, onRig, ensures_bind, ensures_enclose,
    ensures_get, again, cond_false, ensures_zoom, ensures_of_ok ended]
  simp only [Rig.shutdowns] at kept ⊢
  by_cases none : g.rig.errorCount = 0
  · simp [none, kept, isShutdown]
  · simp [none, kept, isShutdown, List.countP_cons]

/-- **Errors of its own.** The enabling functions fail without a failure of their
own exactly if errors were counted before. A fetch cycle in which disabling and
fetching succeed, and enabling has no failure of its own, is not shut down exactly
if `fetch_trace` raised no errors. -/
theorem own_errors_iff (e : Csal) (o : Settings) (board : Board) (devices : Devices)
    (ram : BitVec 64 × BitVec 64) :
    (∀ r, Ensures (enableTraceSinksOnly e devices)
      (fun rc r' => (rc = -1 → Troubled e r.calls r') ↔
        r.errorCount = 0 ∨ soundly e r.calls (sinksPlan devices).reverse = false)
      (fun _ _ => False) r) ∧
    (∀ r, Ensures (enableTrace e (some board) devices ram)
      (fun rc r' => (rc = -1 → Troubled e r.calls r') ↔
        r.errorCount = 0 ∨ soundly e r.calls (enablePlan e board devices ram r.ptm).reverse = false)
      (fun _ _ => False) r) ∧
    ∀ (g g₁ g₂ : Globals) (f : TraceBuffer.Fetch) (rc : Int) (pid : Parent.Pid),
      g.isFirstTrace = false → disableCsTrace e false g = .ok rc g₁ → 0 ≤ rc →
      fetchTrace e f g₁ = .ok 0 g₂ →
      soundly e g₂.rig.calls (sinksPlan g₂.devices).reverse = true →
      (Ensures (enableCsTrace e o pid) (fun _ g' => g'.rig.shutdowns = g₂.rig.shutdowns)
          (fun _ _ => False) g₂ ↔
        errorsIn e g₁.rig.calls (fetchCalls g₁.devices).reverse = 0) := by
  refine ⟨enableTraceSinksOnly_own_iff devices, enableTrace_own_iff devices board ram, ?_⟩
  intro g g₁ g₂ f rc pid again disabled _ fetched sound
  have clean : g₁.rig.errorCount = 0 := (ensures_of_ok disabled).mp (disableCsTrace_clean g)
  have kept : g₁.isFirstTrace = false := by
    have free {α : Type} (x : Fn Rig α) : Keeps (fun g => g.isFirstTrace = false) (onRig x) :=
      fun t same => (ensures_zoom x).mpr (ensures_const same x t.rig)
    exact (ensures_of_ok disabled).mp (disableCsTrace_keeps free false g again)
  obtain ⟨rig, first⟩ := (ensures_of_ok fetched).mp (fetchTrace_makes f g₁) rfl
  rw [enableCsTrace_spares_iff pid (first.trans kept) sound, rig, made_errors, clean, Nat.zero_add]

end Session

end

/-- One error of an earlier call, and no failure since. -/
theorem earlier_error_blamed : ¬ Ensures (enableTraceSinksOnly zcu104 zcu104.devices)
    (fun rc r => rc = -1 → Troubled zcu104 [] r) (fun _ _ => True)
    { Rig.idle with errorCount := 1 } := by
  intro blameless
  apply blameless.excluded (enableTraceSinksOnly_own_iff zcu104.devices _)
  · intro rc r only exactly
    have wrong := exactly.mp only
    revert wrong
    decide
  · exact fun _ _ _ impossible => impossible

/-- The ZCU-104 where reading the trace raises an error. -/
def noisyFetch : Csal := { zcu104 with
  answer := fun _ c => match c with
    | .getTraceData _ => ⟨0, 1⟩
    | _ => ⟨0, 0⟩ }

namespace Session

/-- In the middle of a trace, with a small buffer. -/
def tracing : Globals :=
  { running with
    isFirstTrace := false, traceBuf := ⟨0x1000, 8, 0x1000, ⟨0x1000, List.replicate 8 0⟩⟩ }

/-- The call returned 0, in a state as `q` says. -/
def returnsZero (q : Globals → Bool) : EStateM.Result Exit Globals Int → Bool
  | .ok rc g => rc == 0 && q g
  | .error _ _ => false

theorem returnsZero_spec {q : Globals → Bool} {p : EStateM.Result Exit Globals Int}
    (h : returnsZero q p = true) : ∃ g, p = .ok 0 g ∧ q g = true := by
  cases p with
  | ok rc g =>
    simp only [returnsZero, Bool.and_eq_true, beq_iff_eq] at h
    exact ⟨g, by rw [h.1], h.2⟩
  | error x g => cases h

/-- A cycle without a failure that is shut down. -/
theorem sound_cycle_shut : ∃ g₁ g₂, disableCsTrace noisyFetch false tracing = .ok 0 g₁ ∧
    fetchTrace noisyFetch healthy.fini.fetch g₁ = .ok 0 g₂ ∧
    ¬ Ensures (enableCsTrace noisyFetch plain 42) (fun _ g => g.rig.shutdowns = g₂.rig.shutdowns)
      (fun _ _ => False) g₂ := by
  have run : returnsZero (fun g₁ => returnsZero (fun g₂ =>
      soundly noisyFetch g₂.rig.calls (sinksPlan g₂.devices).reverse &&
        errorsIn noisyFetch g₁.rig.calls (fetchCalls g₁.devices).reverse != 0)
      (fetchTrace noisyFetch healthy.fini.fetch g₁)) (disableCsTrace noisyFetch false tracing) =
      true := by decide +kernel
  obtain ⟨g₁, disabled, run⟩ := returnsZero_spec run
  obtain ⟨g₂, fetched, run⟩ := returnsZero_spec run
  simp only [Bool.and_eq_true, bne_iff_ne] at run
  have shut := (own_errors_iff noisyFetch plain zcu104.board zcu104.devices (0, 0)).2.2
    tracing g₁ g₂ _ 0 42 rfl disabled (Int.le_refl 0) fetched run.1
  exact ⟨g₁, g₂, disabled, fetched, fun spared => run.2 (shut.mp spared)⟩

end Session

end Ultrasight
