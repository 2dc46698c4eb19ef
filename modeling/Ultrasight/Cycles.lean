import Ultrasight.Healthy

/-!
# Fetch cycles leave the devices as they were

Before a fetch `disable_trace_sinks_only` switches the sinks off, and
`enable_trace_sinks_only` switches them on again. When all calls succeed, any
number of such cycles leaves every flag, mode and RAM setup as `enable_trace`
left it: `cycles_neutral`.
-/

namespace Ultrasight

open Fn CsCall

/-- One cycle; it breaks off when a function fails. -/
def cycle (e : Csal) (devices : Devices) : Fn Rig Unit := do
  let rc ← disableTraceSinksOnly e devices
  require (0 ≤ rc) rc
  let rc ← enableTraceSinksOnly e devices
  require (0 ≤ rc) rc

def cycles (e : Csal) (devices : Devices) : Nat → Fn Rig Unit
  | 0 => pure ()
  | k + 1 => do
    cycles e devices k
    cycle e devices

/-- The same ETMs, flags, modes and RAM setups. -/
structure SameDevices (r r' : Rig) : Prop where
  ptm : r'.ptm = r.ptm
  enabled : r'.enabled = r.enabled
  mode : r'.mode = r.mode
  ram : r'.ram = r.ram

theorem SameDevices.trans {r r' r'' : Rig} (h : SameDevices r r') (h' : SameDevices r' r'') :
    SameDevices r r'' := by
  constructor
  · exact h'.ptm.trans h.ptm
  · exact h'.enabled.trans h.enabled
  · exact h'.mode.trans h.mode
  · exact h'.ram.trans h.ram

/-- All sinks are on, the ETFs as hardware FIFOs, and no error was counted. -/
structure Up (devices : Devices) (r : Rig) : Prop where
  on : ∀ d ∈ devices.collecting, r.enabled d = true
  mode : ∀ d ∈ devices.traceSinks, r.mode d = some .hwFifo
  clean : r.errorCount = 0

/-- Half a cycle: the sinks are off, and nothing else has changed. -/
structure Half (devices : Devices) (r r' : Rig) : Prop where
  off : ∀ d ∈ devices.collecting, r'.enabled d = false
  others : ∀ d ∉ devices.collecting, r'.enabled d = r.enabled d
  ptm : r'.ptm = r.ptm
  mode : r'.mode = r.mode
  ram : r'.ram = r.ram
  clean : r'.errorCount = 0

namespace CsCall

/-- The mode that a call gives a device, if any. -/
def setsMode (c : CsCall) (d : Dev) : Option TmcMode :=
  match c with
  | .sinkEtfSetup d' mode => if d' = d then some mode else none
  | _ => none

def setsRam : CsCall → Bool
  | .sinkEtrSetup _ _ => true
  | _ => false

end CsCall

variable {e : Csal} {r : Rig} {calls : List CsCall} {devices : Devices} {d : Dev}

section
variable (h : e.Succeeds)

include h

/-! ## Modes and RAM -/

theorem after_mode {c : CsCall} : (r.after e c).mode d = (c.setsMode d).or (r.mode d) := by
  rw [after_performs h]
  cases c with
  | sinkEtfSetup d' mode =>
    by_cases same : d' = d
    · simp [CsCall.perform, setsMode, same]
    · simp [CsCall.perform, setsMode, same, Ne.symm same]
  | _ => rfl

/-- A mode that no call changes to another. -/
theorem made_mode (same : ∀ c ∈ calls, ∀ m, c.setsMode d = some m → r.mode d = some m) :
    (r.made e calls).mode d = r.mode d := by
  induction calls generalizing r with
  | nil => rfl
  | cons c calls ih =>
    rw [List.forall_mem_cons] at same
    have kept : (r.after e c).mode d = r.mode d := by
      rw [after_mode h]
      cases sets : c.setsMode d with
      | none => rfl
      | some m => exact (same.1 m sets).symm
    rw [made_cons, ih, kept]
    intro c hc m sets
    rw [kept]
    exact same.2 c hc m sets

/-- A mode that some call sets and no call changes to another. -/
theorem made_sets_mode {m : TmcMode} (same : ∀ c ∈ calls, ∀ m', c.setsMode d = some m' → m' = m)
    (set : ∃ c ∈ calls, c.setsMode d = some m) : (r.made e calls).mode d = some m := by
  obtain ⟨c, hc, sets⟩ := set
  obtain ⟨before, after, rfl⟩ := List.append_of_mem hc
  have now : ((r.made e before).after e c).mode d = some m := by rw [after_mode h, sets]; rfl
  rw [made_append, made_cons, made_mode h, now]
  intro c hc m' sets'
  rw [now, same c (List.mem_append_right _ (List.mem_cons_of_mem _ hc)) m' sets']

theorem made_ram (none : ∀ c ∈ calls, c.setsRam = false) : (r.made e calls).ram = r.ram := by
  induction calls generalizing r with
  | nil => rfl
  | cons c calls ih =>
    rw [List.forall_mem_cons] at none
    rw [made_cons, ih none.2, after_performs h]
    cases c with
    | sinkEtrSetup d ram => cases none.1
    | _ => rfl

end

theorem enableSinks_mode : ∀ c ∈ enableSinksCalls devices, c.setsRam = false ∧
    ∀ d m, c.setsMode d = some m → m = .hwFifo ∧ d ∈ devices.traceSinks := by
  intro c hc
  simp only [enableSinksCalls, enableEtfCalls, List.mem_cons, List.mem_append, List.mem_flatMap,
    List.not_mem_nil, or_false] at hc
  rcases hc with rfl | hc | ⟨d', hd', rfl | rfl⟩
  · exact ⟨rfl, fun d m sets => by cases sets⟩
  · split at hc
    · cases hc
    · rw [List.mem_singleton.mp hc]
      exact ⟨rfl, fun d m sets => by cases sets⟩
  · refine ⟨rfl, fun d m sets => ?_⟩
    simp only [setsMode, Option.ite_none_right_eq_some, Option.some.injEq] at sets
    obtain ⟨rfl, rfl⟩ := sets
    exact ⟨rfl, hd'⟩
  · exact ⟨rfl, fun d m sets => by cases sets⟩

theorem disableSinks_mode : ∀ c ∈ disableSinksCalls devices, c.setsRam = false ∧
    ∀ d, c.setsMode d = none := by
  intro c hc
  simp only [disableSinksCalls, List.mem_append, List.mem_flatMap] at hc
  rcases hc with (hc | ⟨d, _, hc⟩) | hc
  · split at hc
    · cases hc
    · rw [List.mem_singleton.mp hc]
      exact ⟨rfl, fun _ => rfl⟩
  · split at hc
    · cases hc
    · rw [List.mem_singleton.mp hc]
      exact ⟨rfl, fun _ => rfl⟩
  · rw [List.mem_singleton.mp hc]
    exact ⟨rfl, fun _ => rfl⟩

theorem enableSinks_sets_mode (hd : d ∈ devices.traceSinks) :
    ∃ c ∈ enableSinksCalls devices, c.setsMode d = some .hwFifo := by
  refine ⟨.sinkEtfSetup d .hwFifo, ?_, by simp [setsMode]⟩
  simp only [enableSinksCalls, enableEtfCalls, List.mem_cons, List.mem_append, List.mem_flatMap]
  exact .inr (.inr ⟨d, hd, .inl rfl⟩)

theorem enableSources_mode {board : Board} {ptm : Nat → Dev} :
    ∀ c ∈ enableSourcesCalls e board devices ptm, ∀ d, c.setsMode d = none := by
  intro c hc
  simp only [enableSourcesCalls, List.mem_cons, List.mem_append, List.mem_flatMap,
    List.not_mem_nil, or_false] at hc
  rcases hc with (⟨i, _, rfl⟩ | rfl | rfl | rfl | rfl) | hc
  all_goals try exact fun _ => rfl
  split at hc
  · rw [List.mem_singleton.mp hc]
    exact fun _ => rfl
  · cases hc

theorem flush_mode : ∀ c ∈ flushCalls e devices r, c.setsRam = false ∧
    ∀ d, c.setsMode d = none := by
  intro c hc
  simp only [flushCalls, List.mem_cons] at hc
  rcases hc with rfl | hc
  · exact ⟨rfl, fun _ => rfl⟩
  · split at hc
    · simp only [List.mem_cons, List.not_mem_nil, or_false] at hc
      rcases hc with rfl | rfl | rfl <;> exact ⟨rfl, fun _ => rfl⟩
    · cases hc

/-! ## One cycle -/

section
variable (h : e.Succeeds)

include h

theorem disableSinks_half (nonnull : ∀ d ∈ devices.traceSinks, d ≠ 0) (clean : r.errorCount = 0) :
    ∃ r', disableTraceSinksOnly e devices r = .ok 0 r' ∧ Half devices r r' := by
  have result := disableTraceSinksOnly_eq h devices r
  rw [if_pos clean] at result
  refine ⟨_, result, ?_⟩
  have lowers : ∀ c ∈ flushCalls e devices r ++ disableSinksCalls devices,
      c.lowering devices.collecting = true := by
    rw [List.forall_mem_append]
    exact ⟨fun c hc => looking_lowering _ (flush_looking c hc), disableSinks_lowering⟩
  have setup : ∀ c ∈ flushCalls e devices r ++ disableSinksCalls devices, c.setsRam = false ∧
      ∀ d, c.setsMode d = none := by
    rw [List.forall_mem_append]
    exact ⟨flush_mode, disableSinks_mode⟩
  constructor
  · intro d hd
    obtain ⟨c, hc, sets⟩ := disableSinks_sets nonnull hd
    apply made_switched h (fun c hc => calm_switches (lowering_calm (lowers c hc)))
    exact ⟨c, List.mem_append_right _ hc, sets⟩
  · intro d other
    exact made_still fun c hc => lowering_others (lowers c hc) other
  · exact made_ptm
  · funext d
    exact made_mode h fun c hc m sets => by rw [(setup c hc).2 d] at sets; cases sets
  · exact made_ram h fun c hc => (setup c hc).1
  · exact (made_errorCount h).trans clean

/-- The other half switches the sinks on again. -/
theorem enableSinks_up {r' : Rig} (up : Up devices r) (half : Half devices r r') :
    ∃ r'', enableTraceSinksOnly e devices r' = .ok 0 r'' ∧ SameDevices r r'' ∧ Up devices r'' := by
  have result := enableTraceSinksOnly_eq h devices r'
  rw [if_pos half.clean] at result
  have raises : ∀ c ∈ enableSinksCalls devices ++ [.checkpoint], c.raising = true := by
    simp only [List.forall_mem_append, List.forall_mem_singleton]
    exact ⟨enableSinks_raising, rfl⟩
  have setup : ∀ c ∈ enableSinksCalls devices ++ [.checkpoint], c.setsRam = false ∧
      ∀ d m, c.setsMode d = some m → m = .hwFifo ∧ d ∈ devices.traceSinks := by
    simp only [List.forall_mem_append, List.forall_mem_singleton]
    exact ⟨enableSinks_mode, rfl, fun d m sets => by cases sets⟩
  have on (d : Dev) (hd : d ∈ devices.collecting) :
      (r'.made e (enableSinksCalls devices ++ [.checkpoint])).enabled d = true := by
    obtain ⟨c, hc, sets⟩ := enableSinks_sets hd
    apply made_switched h (fun c hc => raising_switches (raises c hc))
    exact ⟨c, List.mem_append_left _ hc, sets⟩
  have same : SameDevices r (r'.made e (enableSinksCalls devices ++ [.checkpoint])) := by
    constructor
    · exact made_ptm.trans half.ptm
    · funext d
      by_cases sink : d ∈ devices.collecting
      · rw [on d sink, up.on d sink]
      · rw [← half.others d sink]
        apply made_still
        rw [List.forall_mem_append]
        exact ⟨enableSinks_others sink, List.forall_mem_singleton.mpr rfl⟩
    · rw [← half.mode]
      funext d
      apply made_mode h
      intro c hc m sets
      obtain ⟨rfl, sink⟩ := (setup c hc).2 d m sets
      rw [half.mode]
      exact up.mode d sink
    · rw [← half.ram]
      exact made_ram h fun c hc => (setup c hc).1
  refine ⟨_, result, ⟨same.ptm, same.enabled, same.mode, same.ram⟩, on, fun d hd => ?_, ?_⟩
  · exact (congrFun same.mode d).trans (up.mode d hd)
  · exact (made_errorCount h).trans half.clean

theorem cycle_up (nonnull : ∀ d ∈ devices.traceSinks, d ≠ 0) (up : Up devices r) :
    ∃ r', cycle e devices r = .ok () r' ∧ SameDevices r r' ∧ Up devices r' := by
  obtain ⟨r₁, disabled, half⟩ := disableSinks_half h nonnull up.clean
  obtain ⟨r₂, enabled, same, up⟩ := enableSinks_up h up half
  refine ⟨r₂, ?_, same, up⟩
  have fine (r : Rig) : require (decide ((0 : Int) ≤ 0)) 0 r = .ok () r := rfl
  rw [cycle, bind_ok disabled, bind_ok (fine r₁), bind_ok enabled, fine]

theorem cycles_up (nonnull : ∀ d ∈ devices.traceSinks, d ≠ 0) (k : Nat) (up : Up devices r) :
    ∃ r', cycles e devices k r = .ok () r' ∧ SameDevices r r' ∧ Up devices r' := by
  induction k with
  | zero => exact ⟨r, rfl, ⟨rfl, rfl, rfl, rfl⟩, up⟩
  | succ k ih =>
    obtain ⟨r₁, before, same₁, up₁⟩ := ih
    obtain ⟨r₂, again, same₂, up₂⟩ := cycle_up h nonnull up₁
    refine ⟨r₂, ?_, same₁.trans same₂, up₂⟩
    rw [cycles, bind_ok before, again]

theorem enableTrace_up {board : Board} (ram : BitVec 64 × BitVec 64) (clean : r.errorCount = 0) :
    ∃ r', enableTrace e (some board) devices ram r = .ok 0 r' ∧ Up devices r' ∧
      r'.ptm = r.ptm := by
  have result := enableTrace_eq h board devices ram r
  rw [if_pos clean] at result
  have raises : ∀ c ∈ CsCall.sinkEtrSetup devices.etb ⟨ram.1, ram.2, board.etrAxictl⟩ ::
      enableSinksCalls devices ++ enableSourcesCalls e board devices r.ptm, c.raising = true := by
    simp only [List.cons_append, List.forall_mem_cons, List.forall_mem_append]
    exact ⟨rfl, enableSinks_raising, enableSources_raising⟩
  refine ⟨_, result, ⟨fun d hd => ?_, fun d hd => ?_, ?_⟩, made_ptm⟩
  · obtain ⟨c, hc, sets⟩ := enableSinks_sets hd
    apply made_switched h (fun c hc => raising_switches (raises c hc))
    exact ⟨c, List.mem_append_left _ (List.mem_cons_of_mem _ hc), sets⟩
  · apply made_sets_mode h
    · intro c hc m sets
      rcases List.mem_append.mp hc with hc | hc
      · rcases List.mem_cons.mp hc with rfl | hc
        · cases sets
        · exact ((enableSinks_mode c hc).2 d m sets).1
      · rw [enableSources_mode c hc d] at sets
        cases sets
    · obtain ⟨c, hc, sets⟩ := enableSinks_sets_mode hd
      exact ⟨c, List.mem_append_left _ (List.mem_cons_of_mem _ hc), sets⟩
  · exact (made_errorCount h).trans clean

/-- **The cycle is neutral.** On any board, with the TPIU or without, when all
calls succeed: `enable_trace` and then `k` cycles leave all flags, modes and RAM
setups as `enable_trace` alone; the first half of one more cycle switches off
every sink and no source; and `disable_trace`, however it ends, leaves every
sink and source off. -/
theorem cycles_neutral {board : Board} (ram : BitVec 64 × BitVec 64) (clean : r.errorCount = 0)
    (nonnull : ∀ d ∈ devices.traceSinks, d ≠ 0)
    (distinct : ∀ d ∈ sourcesIn board devices r.ptm, d ∉ devices.collecting) (k : Nat) :
    ∃ up done half, enableTrace e (some board) devices ram r = .ok 0 up ∧
      cycles e devices k up = .ok () done ∧ SameDevices up done ∧
      disableTraceSinksOnly e devices done = .ok 0 half ∧
      (∀ d ∈ devices.collecting, half.enabled d = false) ∧
      (∀ d ∈ sourcesIn board devices r.ptm, half.enabled d = done.enabled d) ∧
      Ensures (disableTrace e (some board) devices)
        (fun _ r' => ∀ d ∈ devices.collecting ++ sourcesIn board devices r.ptm, r'.enabled d = false)
        (fun _ r' => ∀ d ∈ devices.collecting ++ sourcesIn board devices r.ptm, r'.enabled d = false)
        done := by
  obtain ⟨up, enabled, isUp, ptm⟩ := @enableTrace_up e r devices h board ram clean
  obtain ⟨done, ran, same, isUp⟩ := cycles_up h nonnull k isUp
  obtain ⟨half, disabled, isHalf⟩ := disableSinks_half h nonnull isUp.clean
  refine ⟨up, done, half, enabled, ran, same, disabled, isHalf.off,
    fun d hd => isHalf.others d (distinct d hd), ?_⟩
  have looks : Stable e looking fun r' => ∀ d ∈ devices.collecting ++ sourcesIn board devices r.ptm,
      r'.enabled d = false :=
    stable_view e fun _ enabled _ => ∀ d ∈ devices.collecting ++ sourcesIn board devices r.ptm,
      enabled d = false
  apply disableTrace_ensures h looks
  intro d hd
  rw [same.ptm, ptm]
  apply made_switched h
  · intro c hc
    rcases List.mem_append.mp hc with hc | hc
    · exact calm_switches (looking_calm (flush_looking c hc))
    · exact calm_switches (lowering_calm (disableAll_lowering c hc))
  · obtain ⟨c, hc, sets⟩ := disableAll_sets nonnull hd
    exact ⟨c, List.mem_append_right _ hc, sets⟩

end

/-- Two cycles on the ZCU-104. -/
theorem zcu104_cycles :
    let r : Rig := { Rig.idle with ptm := zcu104.source }
    ∃ up done half, enableTrace zcu104 (some zcu104.board) zcu104.devices (0, 0) r = .ok 0 up ∧
      cycles zcu104 zcu104.devices 2 up = .ok () done ∧ SameDevices up done ∧
      disableTraceSinksOnly zcu104 zcu104.devices done = .ok 0 half ∧
      half.enabled 1 = false ∧ half.enabled 6 = done.enabled 6 := by
  obtain ⟨up, done, half, enabled, ran, same, disabled, off, others, _⟩ :=
    @cycles_neutral zcu104 { Rig.idle with ptm := zcu104.source } zcu104.devices
      (fun _ _ => rfl) zcu104.board (0, 0) rfl (by decide) (by decide) 2
  exact ⟨up, done, half, enabled, ran, same, disabled, off 1 (by decide), others 6 (by decide)⟩

end Ultrasight
