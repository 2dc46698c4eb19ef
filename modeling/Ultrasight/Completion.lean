import Ultrasight.Effects
import Ultrasight.Verbosity

/-!
# Runs that come to their end

Exactly the calls that come to `show_etm_config` end the process. So two runs at
two levels complete and agree if and only if no call of either run comes to it:
`verbosity_diagnostic_iff`.
-/

namespace Ultrasight.Verbosity

open Fn

variable {e : Csal} {v v' : Int} {r r' : Rig} {c : CsCall}

/-! ## Survival -/

theorem survives_preparePtm (cores : Etmv4Cores e) {i : Nat} (hi : i < e.board.nCpu) :
    Survives (preparePtm e i) := by
  apply survives_walk.preparePtm (fun _ _ _ _ => trivial) fun _ _ => trivial
  · exact fun _ _ => survives_modify _
  · apply survives_walk.initEtm fun _ _ _ _ => trivial
    · exact survives_assert (cores.source i hi)
    · exact survives_assert (cores.version i hi)

theorem survives_programPtm (quiet : e.registrationVerbose ≤ 0) (range : MapInfo)
    (pid : BitVec 32) (i : Nat) : Survives (programPtm e range pid i) := by
  apply survives_walk.programPtm fun _ _ _ _ => trivial
  intro etm _
  apply Survives.when
  intro loud
  have := of_decide_eq_true loud
  omega

/-! ## Up to `show_etm_config` -/

/-- `configure_trace` up to its second loop. -/
def prepare (e : Csal) : Fn Rig Unit := do
  call e .disableTpiu
  call e (.sinkDisable e.devices.etb)
  each (List.range e.board.nCpu) (preparePtm e)
  let rc ← op e (.setTraceSourceId e.devices.itm 0x20)
  require (0 ≤ rc) (-1)
  call e .checkpoint

/-- The second loop, and the rest. -/
def program (e : Csal) (u : Setup) : Fn Rig Int := do
  each (List.range e.board.nCpu) (programPtm e u.range u.pid)
  let ffcrVal ← csDeviceRead e e.devices.etb .flfmtCtrl
  call e (.deviceWrite e.devices.etb .flfmtCtrl (ffcrVal ||| e.stopFl))
  checkErrors
  pure 0

/-- `disable_trace` up to its last loop. -/
def switchOff (e : Csal) : Fn Rig Unit := do
  csEtbFlushAndWaitStop e e.devices
  each (List.range e.board.nCpu) (callPtm e .traceDisable)
  call e (.traceDisable e.devices.itm)
  each e.devices.traceSinks (disableSink e)
  call e (.sinkDisable e.devices.etb)
  when (e.devices.tpiu != 0) (must e (.sinkDisable e.devices.tpiu))

def showAndCheck (e : Csal) : Fn Rig Int := do
  when (1 < e.registrationVerbose) (showAll e)
  checkErrors
  pure 0

theorem configureTrace_eq (u : Setup) :
    ConfigCall.configureTrace.body e u = enclose (prepare e >>= fun _ => program e u) := by
  simp only [ConfigCall.body, configureTrace, prepare, program, bind_assoc]

theorem disableTrace_eq (u : Setup) :
    ConfigCall.disableTrace.body e u = enclose (switchOff e >>= fun _ => showAndCheck e) := by
  simp only [ConfigCall.body, disableTrace, switchOff, showAndCheck, showAll, bind_assoc]

theorem prepare_atLevel : prepare (e.atLevel v) = prepare e := rfl

theorem switchOff_atLevel : switchOff (e.atLevel v) = switchOff e := rfl

theorem survives_prepare (cores : Etmv4Cores e) : Survives (prepare e) := by
  have walk := @survives_walk e
  apply Survives.bind (walk.call trivial)
  intro _
  apply Survives.bind (walk.call trivial)
  intro _
  apply Survives.bind
  · apply survives_each
    intro i hi
    exact survives_preparePtm cores (List.mem_range.mp hi)
  intro _
  apply survives_op.bind
  intro rc
  apply Survives.bind (walk.require _ _)
  exact fun _ => walk.call trivial

/-- The walk through `disable_trace` up to its last loop. -/
theorem walk_switchOff {level : Int} {K : CsCall → Prop}
    {P : ∀ {α : Type}, Fn Rig α → Fn Rig α → Prop} (w : Walk e level K P)
    (kind : ∀ c : CsCall, c.working = true → c.diagnostic = false → K c) :
    P (switchOff e) (switchOff (e.atLevel level)) := by
  have looks : ∀ c : CsCall, c.looking = true → c.diagnostic = false → c.inert = true → K c :=
    fun c looking loud _ => kind c (CsCall.looking_working looking) loud
  apply w.bind (w.csEtbFlushAndWaitStop w.opens (w.call (kind _ rfl rfl)) looks)
  intro _
  apply w.bind (w.each fun i _ => w.callPtm (fun _ => kind _ rfl rfl) i)
  intro _
  apply w.bind (w.call (kind _ rfl rfl))
  intro _
  apply w.bind (w.each fun _ _ => w.disableSink (kind _ rfl rfl))
  intro _
  apply w.bind (w.call (kind _ rfl rfl))
  exact fun _ => w.when fun _ => w.must (kind _ rfl rfl)

theorem survives_switchOff : Survives (switchOff e) :=
  walk_switchOff survives_walk fun _ _ _ => trivial

/-- Without a CPU, or at a level that shows nothing, the second loop is survived. -/
theorem survives_program (hidden : e.registrationVerbose ≤ 0 ∨ e.board.nCpu = 0) (u : Setup) :
    Survives (program e u) := by
  have walk := @survives_walk e
  apply Survives.bind
  · rcases hidden with quiet | none
    · exact survives_each fun i _ => survives_programPtm quiet _ _ i
    · rw [none]
      exact survives_pure ()
  intro _
  apply Survives.bind (walk.csDeviceRead trivial)
  intro _
  apply Survives.bind (walk.call trivial)
  exact fun _ => walk.checked

theorem survives_showAndCheck (hidden : e.registrationVerbose ≤ 1 ∨ e.board.nCpu = 0) :
    Survives (showAndCheck e) := by
  apply Survives.bind
  · apply Survives.when
    intro loud
    rcases hidden with quiet | none
    · have := of_decide_eq_true loud
      omega
    · rw [showAll, none]
      exact survives_pure ()
  · exact fun _ => (@survives_walk e).checked

/-! ## The end of a call -/

/-- The body comes to its end. -/
def passes (x : Fn Rig Unit) (r : Rig) : Bool :=
  match x r with
  | .ok _ _ => true
  | .error _ _ => false

/-- The call comes to `show_etm_config`: the level is high enough, there is a
CPU, and nothing fails before. -/
def ConfigCall.shows (e : Csal) (level : Int) (r : Rig) : ConfigCall → Bool
  | .configureTrace => decide (0 < level) && decide (0 < e.board.nCpu) && passes (prepare e) r
  | .disableTrace => decide (1 < level) && decide (0 < e.board.nCpu) && passes (switchOff e) r
  | .enableTrace | .disableTraceSinksOnly | .enableTraceSinksOnly => false

/-- A body in two parts, the second of which is survived if the first one comes
to its end. -/
theorem returns_of_parts {x : Fn Rig Unit} {y : Fn Rig Int} (first : Survives x)
    (second : passes x r = true → Survives y) :
    ∃ rc s, enclose (x >>= fun _ => y) r = .ok rc s := by
  have alive := first r
  cases ended : x r with
  | ok a s =>
    rw [enclose_bind ended]
    apply (second _).enclose.returns
    rw [passes, ended]
  | error exit s =>
    cases exit with
    | ret rc => exact ⟨rc, s, by simp only [enclose, Bind.bind, EStateM.bind, ended]⟩
    | crash => exact absurd rfl ((ensures_of_error ended).mp alive)

theorem hidden_returns (cores : Etmv4Cores e) (u : Setup) {c : ConfigCall}
    (hidden : c.shows e v r = false) : ∃ rc s, c.body (e.atLevel v) u r = .ok rc s := by
  have walk := @survives_walk (e.atLevel v)
  cases c with
  | configureTrace =>
    rw [configureTrace_eq]
    have cores' : Etmv4Cores (e.atLevel v) := ⟨cores.source, cores.version, cores.null⟩
    apply returns_of_parts (survives_prepare cores')
    intro reached
    rw [prepare_atLevel] at reached
    apply survives_program
    by_contra shown
    simp only [not_or, Int.not_le, Csal.atLevel] at shown
    have some : 0 < e.board.nCpu := Nat.pos_of_ne_zero shown.2
    simp [ConfigCall.shows, reached, shown.1, some] at hidden
  | disableTrace =>
    rw [disableTrace_eq]
    apply returns_of_parts survives_switchOff
    intro reached
    rw [switchOff_atLevel] at reached
    apply survives_showAndCheck
    by_contra shown
    simp only [not_or, Int.not_le, Csal.atLevel] at shown
    have some : 0 < e.board.nCpu := Nat.pos_of_ne_zero shown.2
    simp [ConfigCall.shows, reached, shown.1, some] at hidden
  | enableTrace =>
    have alive : Survives (enableTrace (e.atLevel v) (some e.board) e.devices u.ram) :=
      walk.enableTrace (fun _ _ _ _ => trivial) (fun _ _ => trivial)
        (Survives.when _ fun _ => walk.call trivial) _ _ _
    exact alive.returns r
  | disableTraceSinksOnly =>
    have alive : Survives (disableTraceSinksOnly (e.atLevel v) e.devices) :=
      walk.disableTraceSinksOnly fun _ _ _ _ => trivial
    exact alive.returns r
  | enableTraceSinksOnly =>
    have alive : Survives (enableTraceSinksOnly (e.atLevel v) e.devices) :=
      walk.enableTraceSinksOnly (fun _ _ _ _ => trivial) _
    exact alive.returns r

/-- No call writes `ptm`. -/
theorem stable_ptm {K : CsCall → Bool} (ptm : Nat → Dev) : Stable e K fun s => s.ptm = ptm := by
  constructor
  · intro c s _ same
    rw [after_ptm, same]
  · exact fun s same => same

/-- Where the first loop of `configure_trace` succeeds, it has found the source of
the CPU. -/
theorem preparePtm_ptm (i : Nat) (r : Rig) :
    Ensures (preparePtm e i) (fun _ s => s.ptm = Function.update r.ptm i (e.source i))
      (fun _ _ => True) r := by
  simp only [preparePtm, csCpuGetDevice, ensures_bind, ensures_op, ensures_pure, ensures_modify,
    ensures_require]
  constructor
  · intro found
    have ok : (e.answer r.calls (.cpuGetDevice i)).rc = 0 := by
      by_contra fail
      simp [fail] at found
    simp only [ok, if_true, after_ptm]
    constructor
    · intro _
      apply ((stable_ptm (Function.update r.ptm i (e.source i))).initEtm (e.source i) _ _).mono
      · exact fun rc s same => ⟨fun _ => same, fun _ => trivial⟩
      · exact fun _ _ _ => trivial
      · rw [after_ptm]
    · exact fun _ => trivial
  · exact fun _ => trivial

/-- What `configure_trace` has found before its second loop. -/
theorem prepare_finds (r : Rig) :
    Ensures (prepare e) (fun _ s => ∀ i < e.board.nCpu, s.ptm i = e.source i) (fun _ _ => True)
      r := by
  simp only [prepare, ensures_bind, ensures_call, ensures_op, ensures_require, after_ptm]
  have round : ∀ done i rest, List.range e.board.nCpu = done ++ i :: rest → ∀ s : Rig,
      (∀ j ∈ done, s.ptm j = e.source j) →
      Ensures (preparePtm e i) (fun _ s' => ∀ j ∈ done ++ [i], s'.ptm j = e.source j)
        (fun _ _ => True) s := by
    intro done i rest _ s found
    apply (preparePtm_ptm i s).mono
    · intro _ s' now j hj
      rw [now]
      by_cases same : j = i
      · rw [same, Function.update_self]
      · rw [Function.update_of_ne same]
        apply found
        rcases List.mem_append.mp hj with hj | hj
        · exact hj
        · exact absurd (List.mem_singleton.mp hj) same
    · exact fun _ _ _ => trivial
  apply (ensures_each _ round (List.forall_mem_nil _)).mono
  · intro _ s found
    constructor
    · intro _ i hi
      exact found i (List.mem_range.mpr hi)
    · exact fun _ => trivial
  · exact fun _ _ _ => trivial

theorem switchOff_ptm (r : Rig) :
    Ensures (switchOff e) (fun _ s => s.ptm = r.ptm) (fun _ _ => True) r := by
  have keeps : Keeps (fun s : Rig => s.ptm = r.ptm) (switchOff e) :=
    walk_switchOff (stable_ptm r.ptm).walk fun _ working _ => working
  exact (keeps r rfl).mono (fun _ _ same => same) fun _ _ _ => trivial

/-- The second loop, for an ETMv4 at a level that shows its configuration. -/
theorem programPtm_dies (loud : 0 < e.registrationVerbose) (range : MapInfo) (pid : BitVec 32)
    {i : Nat} (new : etmv4 ≤ e.etmMajor (r.ptm i)) : Died (programPtm e range pid i r) := by
  apply died_of
  have shown : ∀ s, Ensures (showEtmConfig e (r.ptm i)) (fun _ _ => False) (fun x _ => x = .crash)
      s := by
    intro s
    obtain ⟨s', died⟩ := show_dies (fun _ => new) s
    exact (ensures_of_error died).mpr rfl
  simp only [programPtm, configureEtmv4AddrRangeCid, csEtmConfigInitEx, csEtmConfigGetEx,
    ensures_bind, ensures_get, ensures_call, ensures_op, ensures_when, ensures_enclose, ensures_pure,
    decide_eq_true_eq, decide_eq_false_iff_not]
  constructor
  · intro _
    constructor
    · intro _
      apply (shown _).mono
      · exact fun _ _ none => none.elim
      · rintro _ _ rfl
        trivial
    · exact fun quiet => absurd loud quiet
  · exact fun old => absurd new old

theorem program_dies (cores : Etmv4Cores e) (loud : 0 < e.registrationVerbose)
    (some : 0 < e.board.nCpu) (found : ∀ i < e.board.nCpu, r.ptm i = e.source i) (u : Setup) :
    Died (program e u r) := by
  obtain ⟨n, hn⟩ : ∃ n, e.board.nCpu = n + 1 := ⟨e.board.nCpu - 1, by omega⟩
  apply died_bind
  rw [hn, List.range_succ_eq_map]
  apply died_each
  apply programPtm_dies loud
  rw [found 0 some]
  exact e.etmv4 _ (cores.version 0 some)

theorem passes_ok {x : Fn Rig Unit} (h : passes x r = true) : ∃ s, x r = .ok () s := by
  unfold passes at h
  split at h
  · rename_i s ended
    exact ⟨s, ended⟩
  · cases h

/-- What dies after a first part. -/
theorem died_second {x : Fn Rig Unit} {y : Fn Rig Int} {s : Rig} (first : x r = .ok () s)
    (second : Died (y s)) : Died (enclose (x >>= fun _ => y) r) := by
  rw [enclose_bind first]
  exact died_enclose second

theorem shows_dies (cores : Etmv4Cores e) (known : Known e r) (u : Setup) {c : ConfigCall}
    (shown : c.shows e v r = true) : Died (c.body (e.atLevel v) u r) := by
  have cores' : Etmv4Cores (e.atLevel v) := ⟨cores.source, cores.version, cores.null⟩
  cases c with
  | configureTrace =>
    simp only [ConfigCall.shows, Bool.and_eq_true, decide_eq_true_eq] at shown
    obtain ⟨⟨loud, some⟩, reached⟩ := shown
    obtain ⟨s, ended⟩ := passes_ok reached
    rw [configureTrace_eq]
    apply died_second ended
    exact program_dies cores' loud some ((ensures_of_ok ended).mp (prepare_finds r)) u
  | disableTrace =>
    simp only [ConfigCall.shows, Bool.and_eq_true, decide_eq_true_eq] at shown
    obtain ⟨⟨loud, some⟩, reached⟩ := shown
    obtain ⟨s, ended⟩ := passes_ok reached
    rw [disableTrace_eq]
    have same : s.ptm = r.ptm := (ensures_of_ok ended).mp (switchOff_ptm r)
    have known' : Known e s := by
      intro i hi
      rw [same]
      exact known i hi
    apply died_second ended
    apply died_bind
    rw [show decide (1 < (e.atLevel v).registrationVerbose) = true from decide_eq_true loud]
    exact showAll_dies cores some known'
  | enableTrace | disableTraceSinksOnly | enableTraceSinksOnly => cases shown

/-- **The end of a call.** It returns exactly if it does not come to
`show_etm_config`. -/
theorem returns_iff (cores : Etmv4Cores e) (known : Known e r) (u : Setup) (c : ConfigCall) :
    (∃ rc s, c.body (e.atLevel v) u r = .ok rc s) ↔ c.shows e v r = false := by
  constructor
  · rintro ⟨rc, s, ended⟩
    by_contra shown
    exact died_not_ok (shows_dies cores known u (Bool.of_not_eq_false shown)) ended
  · exact hidden_returns cores u

/-! ## Runs -/

/-- No call of the run comes to `show_etm_config`. -/
def Hidden (e : Csal) (u : Setup) (level : Int) : List ConfigCall → Rig → Prop
  | [], _ => True
  | c :: rest, r => c.shows e level r = false ∧
      ∀ rc s, c.body (e.atLevel level) u r = .ok rc s → Hidden e u level rest s

theorem known_body (blind : Blind e) (cores : Etmv4Cores e) (known : Known e r) {u : Setup}
    {c : ConfigCall} {rc : Int} {s : Rig} (ended : c.body (e.atLevel v) u r = .ok rc s) :
    Known e s := by
  have agree : Agree (Related e) (c.body (e.atLevel v) u) (c.body (e.atLevel v) u) :=
    agree_body blind cores u c
  have both := agree r r ⟨rfl, known⟩
  rw [ended] at both
  rcases both with matched | ⟨_, died⟩ | ⟨_, died⟩
  · cases matched with
    | ok related => exact related.known
  · cases died
  · cases died

/-- A run comes to its end exactly if all its calls do. -/
theorem run_returns_iff (blind : Blind e) (cores : Etmv4Cores e) (u : Setup)
    (script : List ConfigCall) (known : Known e r) :
    (∃ rcs s, run (e.atLevel v) u script r = .ok rcs s) ↔ Hidden e u v script r := by
  induction script generalizing r with
  | nil => exact ⟨fun _ => trivial, fun _ => ⟨[], r, rfl⟩⟩
  | cons c rest ih =>
    by_cases hidden : c.shows e v r = false
    · obtain ⟨rc, s, ended⟩ := (returns_iff cores known u c).mpr hidden
      have after : run (e.atLevel v) u (c :: rest) r =
          (run (e.atLevel v) u rest >>= fun rcs => pure (rc :: rcs)) s := by
        rw [run, bind_ok ended]
      have first : Hidden e u v (c :: rest) r ↔ Hidden e u v rest s := by
        constructor
        · exact fun all => all.2 rc s ended
        · intro tail
          refine ⟨hidden, fun rc' s' ended' => ?_⟩
          rw [ended] at ended'
          cases ended'
          exact tail
      rw [first, ← ih (known_body blind cores known ended), after]
      simp only [Bind.bind, EStateM.bind]
      cases run (e.atLevel v) u rest s with
      | ok rcs s' => exact ⟨fun _ => ⟨rcs, s', rfl⟩, fun _ => ⟨rc :: rcs, s', rfl⟩⟩
      | error exit s' =>
        constructor
        · rintro ⟨_, _, ended'⟩
          cases ended'
        · rintro ⟨_, _, ended'⟩
          cases ended'
    · have died := shows_dies cores known u (Bool.of_not_eq_false hidden)
      constructor
      · rintro ⟨rcs, s, ended⟩
        exact absurd ended (died_not_ok (died_bind died))
      · exact fun all => absurd all.1 hidden

/-- At level 0 nothing is shown. -/
theorem hidden_low (u : Setup) (low : v ≤ 0) (script : List ConfigCall)
    (r : Rig) : Hidden e u v script r := by
  induction script generalizing r with
  | nil => trivial
  | cons c rest ih =>
    refine ⟨?_, fun _ s _ => ih s⟩
    have first : ¬ 0 < v := by omega
    have second : ¬ 1 < v := by omega
    cases c <;> simp [ConfigCall.shows, first, second]

/-- Both runs come to their end, with the same codes and the same calls in the
same order but for the diagnostic ones, and leave the devices in the same state. -/
def Same (p q : EStateM.Result Exit Rig (List Int)) : Prop :=
  ∃ rcs s s', p = .ok rcs s ∧ q = .ok rcs s' ∧ s'.quiet = s.quiet

/-- **The verbosity level is only diagnostic** as long as nothing is shown. On a
board of ETMv4 cores whose CSAL does not care what is printed, two runs of any
calls at two levels come to their end and do the same if and only if in neither
of them a call comes to `show_etm_config`. -/
theorem verbosity_diagnostic_iff (e : Csal) (blind : Blind e) (cores : Etmv4Cores e) (u : Setup)
    (script : List ConfigCall) (v v' : Int) (r : Rig) (known : Known e r) :
    Same (run (e.atLevel v) u script r) (run (e.atLevel v') u script r) ↔
      Hidden e u v script r ∧ Hidden e u v' script r := by
  rw [← run_returns_iff blind cores u script known, ← run_returns_iff blind cores u script known]
  constructor
  · rintro ⟨rcs, s, s', ended, ended', _⟩
    exact ⟨⟨rcs, s, ended⟩, ⟨rcs, s', ended'⟩⟩
  · rintro ⟨⟨rcs, s, ended⟩, ⟨rcs', s', ended'⟩⟩
    have agree : Agree (Related e) (run (e.atLevel v) u script) (run (e.atLevel v') u script) :=
      agree_run blind cores u script
    have both := agree r r ⟨rfl, known⟩
    rw [ended, ended'] at both
    rcases both with matched | ⟨_, died⟩ | ⟨_, died⟩
    · cases matched with
      | ok related => exact ⟨rcs, s, s', ended, ended', related.same⟩
    · cases died
    · cases died

theorem zcu104_blind : Blind zcu104 := ⟨fun _ _ => rfl, fun _ _ _ => rfl⟩

theorem zcu104_cores : Etmv4Cores zcu104 := by
  constructor
  · intro i _
    show (6 + i == 2 || decide (5 < 6 + i)) = true
    have large : 5 < 6 + i := by omega
    rw [decide_eq_true large, Bool.or_true]
  · exact fun _ _ => rfl
  · rfl

theorem idle_known (e : Csal) : Known e .idle := fun _ _ => .inl rfl

def plain : Setup := ⟨⟨0x400000, 0x500000⟩, 42, ⟨0x10000000, 0x400000⟩⟩

/-- With the ETMs left as they are, the first level only prints. -/
theorem printed_only : Same
    (run (zcu104.atLevel 1) plain
      [.enableTrace, .disableTraceSinksOnly, .enableTraceSinksOnly, .disableTrace] .idle)
    (run (zcu104.atLevel 0) plain
      [.enableTrace, .disableTraceSinksOnly, .enableTraceSinksOnly, .disableTrace] .idle) :=
  (verbosity_diagnostic_iff zcu104 zcu104_blind zcu104_cores plain _ 1 0 .idle
    (idle_known zcu104)).mpr
    ⟨⟨rfl, fun _ _ _ => ⟨rfl, fun _ _ _ => ⟨rfl, fun _ _ _ => ⟨rfl, fun _ _ _ => trivial⟩⟩⟩⟩,
      hidden_low plain (Int.le_refl 0) _ _⟩

/-- A session at the first level ends in the configuration of the first ETM. -/
theorem first_level_dies : Blind zcu104 ∧ Etmv4Cores zcu104 ∧ Known zcu104 .idle ∧
    ¬ Same
      (run (zcu104.atLevel 0) plain
        [.configureTrace, .enableTrace, .disableTraceSinksOnly, .enableTraceSinksOnly,
          .disableTrace] .idle)
      (run (zcu104.atLevel 1) plain
        [.configureTrace, .enableTrace, .disableTraceSinksOnly, .enableTraceSinksOnly,
          .disableTrace] .idle) := by
  refine ⟨zcu104_blind, zcu104_cores, idle_known zcu104, ?_⟩
  rintro ⟨rcs, s, s', _, ended, _⟩
  have shown : ConfigCall.configureTrace.shows zcu104 1 .idle = true := by decide +kernel
  have died := shows_dies zcu104_cores (idle_known zcu104) plain shown
  exact died_not_ok (died_bind died) ended

end Ultrasight.Verbosity
