import Ultrasight.OwnErrors

/-!
# What a failed enable does

`enable_cs_trace` undoes nothing: when a step fails it leaves the devices as they
are and calls `cs_shutdown`. The only explicit disabling, in `configure_trace`,
comes before all enabling.

* `RolledBack`: all devices that were enabled were disabled again;
* `Forward`: nothing was disabled after that;
* `failed_enable_forward` for every failing step.
-/

namespace Ultrasight

open Fn CsCall

/-- In the calls since the log was `old`, newest first, every call that enabled a
device was followed by one that disables it; `off` are the devices disabled
since. -/
def rolledBack (e : Csal) (old : List CsCall) (off : List Dev) : List CsCall → Bool
  | [] => true
  | c :: earlier =>
    c.enables.all (fun d => off.contains d || (e.answer (earlier ++ old) c).rc != 0) &&
      rolledBack e old (c.disables.toList ++ off) earlier

/-- After the first enabling call there is no disabling one. -/
def Forward (new : List CsCall) : Prop :=
  ∃ later earlier, new = later ++ earlier ∧ (∀ c ∈ later, c.disables = none) ∧
    ∀ c ∈ earlier, c.enables = none

/-- No enabling call succeeded. -/
def nothingEnabled (e : Csal) (old : List CsCall) : List CsCall → Bool
  | [] => true
  | c :: earlier =>
    (c.enables.isNone || (e.answer (earlier ++ old) c).rc != 0) && nothingEnabled e old earlier

section
variable {e : Csal} {old : List CsCall}

/-- Going forward only is no rollback, unless there is nothing to roll back. -/
theorem forward_rolledBack {new : List CsCall} (h : Forward new) :
    rolledBack e old [] new = nothingEnabled e old new := by
  obtain ⟨later, earlier, rfl, raised, calm⟩ := h
  induction later with
  | nil =>
    have still (off : List Dev) : rolledBack e old off earlier = nothingEnabled e old earlier := by
      induction earlier generalizing off with
      | nil => rfl
      | cons c earlier ih =>
        rw [List.forall_mem_cons] at calm
        rw [rolledBack, nothingEnabled, calm.1, ih calm.2]
        rfl
    exact still []
  | cons c later ih =>
    rw [List.forall_mem_cons] at raised
    rw [List.cons_append, rolledBack, nothingEnabled, raised.1, ← ih raised.2]
    cases c.enables <;> simp

/-- No device is enabled, and no call is `cs_shutdown`. -/
def Calm (new : List CsCall) : Prop := ∀ c ∈ new, c.calm = true

theorem stable_calm : Stable e calm (MadeSince old Calm) :=
  stable_madeSince rfl fun _ _ k all => List.forall_mem_cons.mpr ⟨k, all⟩

/-- No call is `cs_shutdown`, either. -/
def Working (new : List CsCall) : Prop := Forward new ∧ ∀ c ∈ new, c.working = true

theorem Calm.working {new : List CsCall} (h : Calm new) : Working new := by
  refine ⟨⟨[], new, rfl, List.forall_mem_nil _, fun c hc => ?_⟩, fun c hc => calm_working (h c hc)⟩
  have calm := h c hc
  simp only [CsCall.calm, Bool.and_eq_true, Option.isNone_iff_eq_none] at calm
  exact calm.1

theorem stable_working : Stable e raising (MadeSince old Working) := by
  apply stable_madeSince rfl
  rintro c new k ⟨⟨later, earlier, rfl, raised, calm⟩, works⟩
  refine ⟨⟨c :: later, earlier, rfl, List.forall_mem_cons.mpr ⟨?_, raised⟩, calm⟩,
    List.forall_mem_cons.mpr ⟨raising_working k, works⟩⟩
  simp only [raising, Bool.and_eq_true, Option.isNone_iff_eq_none] at k
  exact k.1.1

end

namespace Session

variable {e : Csal} {o : Settings} {g : Globals} {old : List CsCall}

/-- Where `enable_cs_trace` is before the end: it has gone forward only. -/
def Going (old : List CsCall) (g : Globals) : Prop := MadeSince old Working g.rig

theorem enableFirst_forward (pid : Parent.Pid) (g : Globals) : Ensures (enableFirst e pid)
    (fun _ => Going g.rig.calls)
    (fun _ g' => Going g.rig.calls g' ∧ g'.isFirstTrace = g.isFirstTrace) g := by
  have configured : Keeps (MadeSince g.rig.calls Calm)
      (configureTrace e g.board g.devices g.mapInfo pid) :=
    stable_calm.configureTrace (fun _ _ _ made => made) _ _ _ _
  have enabled : Keeps (MadeSince g.rig.calls Working)
      (enableTrace e g.board g.devices g.etrRam) := stable_working.enableTrace _ _ _
  have goes (r : Rig) (made : MadeSince g.rig.calls Calm r) : MadeSince g.rig.calls Working r := by
    obtain ⟨new, split, calm⟩ := made
    exact ⟨new, split, calm.working⟩
  simp only [enableFirst, onRig, ensures_bind, ensures_get, ensures_zoom, ensures_require,
    ensures_modify]
  apply (configured g.rig ⟨[], rfl, List.forall_mem_nil _⟩).mono
  · intro rc r calm
    constructor
    · intro _
      apply (enabled r (goes r calm)).mono
      · exact fun rc r' working => ⟨fun _ => working, fun _ => ⟨working, trivial⟩⟩
      · exact fun _ _ working => ⟨working, trivial⟩
    · exact fun _ => ⟨goes r calm, trivial⟩
  · exact fun _ r calm => ⟨goes r calm, trivial⟩

theorem enableAgain_forward (g : Globals) : Ensures (enableAgain e)
    (fun _ => Going g.rig.calls)
    (fun _ g' => Going g.rig.calls g' ∧ g'.isFirstTrace = g.isFirstTrace) g := by
  have enabled : Keeps (MadeSince g.rig.calls Working) (enableTraceSinksOnly e g.devices) :=
    stable_working.enableTraceSinksOnly _
  have start : Working ([] : List CsCall) := Calm.working (List.forall_mem_nil _)
  simp only [enableAgain, onRig, ensures_bind, ensures_get, ensures_zoom, ensures_require]
  apply (enabled g.rig ⟨[], rfl, start⟩).mono
  · exact fun rc r working => ⟨fun _ => working, fun _ => ⟨working, trivial⟩⟩
  · exact fun _ _ working => ⟨working, trivial⟩

theorem enableComponents_forward (pid : Parent.Pid) (g : Globals) :
    Ensures (enableComponents e o pid)
      (fun rc g' => Going g.rig.calls g' ∧ (rc < 0 → g'.isFirstTrace = g.isFirstTrace))
      (fun _ _ => True) g := by
  have branch : Ensures (bif g.isFirstTrace then enableFirst e pid else enableAgain e)
      (fun _ => Going g.rig.calls)
      (fun _ g' => Going g.rig.calls g' ∧ g'.isFirstTrace = g.isFirstTrace) g := by
    rw [cond_eq_ite]
    split
    · exact enableFirst_forward pid g
    · exact enableAgain_forward g
  simp only [enableComponents, ensures_enclose, ensures_bind, ensures_get]
  apply branch.mono
  · intro _ g' going
    simp only [onRig, ensures_when, ensures_zoom, ensures_call, ensures_pure]
    have dumped : Going g.rig.calls { g' with rig := g'.rig.after e .dumpConfig } :=
      stable_working.after .dumpConfig g'.rig rfl going
    exact ⟨fun _ => ⟨dumped, fun impossible => by omega⟩, fun _ => ⟨going, fun impossible => by omega⟩⟩
  · rintro (rc | _) g' ⟨going, same⟩
    · exact ⟨going, fun _ => same⟩
    · trivial

/-- **A failed enable.** When `enable_cs_trace` fails, `is_first_trace` is
unchanged, and the last call is the one of `cs_shutdown`; of the calls before it,
none that disables a device comes after one that enables a device, so that
nothing is rolled back unless nothing was enabled. -/
theorem failed_enable_forward (e : Csal) (o : Settings) (pid : Parent.Pid) (g : Globals) :
    Ensures (enableCsTrace e o pid)
      (fun rc g' => rc < 0 → g'.isFirstTrace = g.isFirstTrace ∧
        ∃ new, g'.rig.calls = .shutdown :: (new ++ g.rig.calls) ∧
          (∀ c ∈ new, c.isShutdown = false) ∧ Forward new ∧
          rolledBack e g.rig.calls [] new = nothingEnabled e g.rig.calls new)
      (fun _ _ => True) g := by
  simp only [enableCsTrace, onRig, ensures_bind, ensures_when, ensures_zoom, ensures_call,
    ensures_pure, decide_eq_true_eq, decide_eq_false_iff_not]
  apply (enableComponents_forward pid g).mono
  · rintro rc g' ⟨⟨new, split, forward, works⟩, same⟩
    constructor
    · intro failed _
      refine ⟨same failed, new, ?_, fun c hc => ?_, forward, forward_rolledBack forward⟩
      · rw [after_calls, split]
      · simpa [working] using works c hc
    · exact fun fine failed => absurd failed fine
  · exact fun _ _ _ => trivial

/-- The ZCU-104 where the first ETF cannot be set up. -/
def brokenEtf : Csal := { zcu104 with
  answer := fun _ c => match c with
    | .sinkEtfSetup 4 _ => ⟨-1, 0⟩
    | _ => ⟨0, 0⟩ }

/-- The ETR and the TPIU were enabled, and nothing disables them before
`cs_shutdown`. -/
theorem failed_enable_kept : ¬ Ensures (enableCsTrace brokenEtf plain 42)
    (fun rc g => rc = -1 → rolledBack brokenEtf [] [] g.rig.calls = true) (fun _ _ => True)
    { running with rig := .idle } := by
  decide +kernel

end Session

end Ultrasight
