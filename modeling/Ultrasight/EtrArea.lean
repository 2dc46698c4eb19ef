import Ultrasight.Survival
import Ultrasight.Udmabuf
import Ultrasight.Wiring

/-!
# The memory that the trace is written to

The ETR writes to physical memory, wherever it is told to. It is told so once, at
the first trace, and `enable_trace_sinks_only` takes for granted that it was.

* `Fenced` is about all calls of the library: no memory is given to a device but
  some of the areas to the ETR, and none is enabled before that was done;
* `getUdmabufInfo_answers`: what `init_trace` is told is what `get_udmabuf_info` found;
* `etr_area_reported`: the areas are those that a u-dma-buf reported, as long as it
  reported both numbers of them.
-/

namespace Ultrasight

open Fn

/-- What `get_udmabuf_info` has stored when it returns, with the attributes like that. -/
def Sysfs.answer (sys : Sysfs) (num : Int) : Session.UdmabufAnswer :=
  let physAddr := (sys.physAddr num).bind fun p => (Text.number 16 p).map fun a => Text.toULong a.1
  match sys.physAddr num, sys.size num with
  | none, _ => ⟨-1, none, none⟩
  | some _, none => ⟨-1, physAddr, none⟩
  | some _, some s => ⟨0, physAddr, (Text.number 10 s).map fun n => Text.toLong n.1⟩

/-- `get_udmabuf_info` returns and stores what `init_trace` is told. -/
theorem getUdmabufInfo_answers {sys : Sysfs} {num : Int} {v : DmaInfo} (short : sys.Short) :
    Ensures (getUdmabufInfo sys num)
      (fun rc v' => rc = (sys.answer num).rc ∧
        (v'.physAddr, v'.size) = (sys.answer num).stored (v.physAddr, v.size))
      (fun _ _ => False) v := by
  have stored {α β : Type} (o : Option α) (f : α → β) (b : β) : o.elim b f = (o.map f).getD b := by
    cases o <;> rfl
  apply (getUdmabufInfo_ends short).mono
  · intro rc v' ends
    cases ends with
    | unread unread => simp [Sysfs.answer, unread, Session.UdmabufAnswer.stored]
    | half read unread =>
      simp [Sysfs.answer, read, unread, Session.UdmabufAnswer.stored, DmaInfo.afterPhysAddr, stored]
    | both read read' =>
      simp [Sysfs.answer, read, read', Session.UdmabufAnswer.stored, DmaInfo.afterPhysAddr,
        DmaInfo.afterSize, stored]
  · exact fun _ _ never => never

/-- The memory that a call gives to a device. -/
def CsCall.gives : CsCall → Option (Dev × EtrRam)
  | .sinkEtrSetup d ram => some (d, ram)
  | _ => none

theorem CsCall.inert_gives {c : CsCall} (inert : c.inert = true) : c.gives = none := by
  cases c with
  | sinkEtrSetup d ram => cases inert
  | _ => rfl

namespace Session

open Fn CsCall

abbrev Area := BitVec 64 × BitVec 64

/-- Both numbers are stored where `get_udmabuf_info` succeeds, and none where it
fails. -/
structure UdmabufAnswer.Whole (u : UdmabufAnswer) : Prop where
  success : 0 ≤ u.rc → u.physAddr.isSome = true ∧ u.size.isSome = true
  failure : u.rc < 0 → u.physAddr = none ∧ u.size = none

/-- Both numbers are read from the attributes, or no address. -/
theorem answer_whole_iff {sys : Sysfs} {num : Int} : (sys.answer num).Whole ↔
    sys.numbers num ≠ none ∨ (sys.answer num).physAddr = none ∧ sys.size num = none ∨
      sys.physAddr num = none := by
  cases read : sys.physAddr num with
  | none =>
    have nothing : sys.answer num = ⟨-1, none, none⟩ := by simp only [Sysfs.answer, read]
    rw [nothing]
    exact ⟨fun _ => .inr (.inr rfl), fun _ => ⟨fun positive => absurd positive (by decide),
      fun _ => ⟨rfl, rfl⟩⟩⟩
  | some p =>
    cases read' : sys.size num with
    | none =>
      have half : sys.answer num =
          ⟨-1, (Text.number 16 p).map fun a => Text.toULong a.1, none⟩ := by
        simp only [Sysfs.answer, read, read', Option.bind_some]
      have numbers : sys.numbers num = none := by simp [Sysfs.numbers, read, read']
      simp only [half, numbers, ne_eq, not_true_eq_false, false_or, and_true, reduceCtorEq, or_false]
      constructor
      · exact fun whole => (whole.failure (Int.negSucc_lt_zero 0)).1
      · intro missing
        exact ⟨fun positive => absurd (Int.negSucc_lt_zero 0) (Int.not_lt.mpr positive),
          fun _ => ⟨missing, rfl⟩⟩
    | some s =>
      have both : sys.answer num = ⟨0, (Text.number 16 p).map fun a => Text.toULong a.1,
          (Text.number 10 s).map fun n => Text.toLong n.1⟩ := by
        simp only [Sysfs.answer, read, read', Option.bind_some]
      have numbers : sys.numbers num ≠ none ↔
          (Text.number 16 p).isSome = true ∧ (Text.number 10 s).isSome = true := by
        simp only [Sysfs.numbers, read, read', Option.bind_eq_bind, Option.bind_some]
        cases Text.number 16 p <;> cases Text.number 10 s <;> simp
      simp only [both, numbers, reduceCtorEq, and_false, or_false]
      constructor
      · intro whole
        simpa using whole.success (Int.le_refl 0)
      · intro found
        exact ⟨fun _ => by simpa using found, fun failed => absurd failed (Int.lt_irrefl 0)⟩

/-- The fetcher thread asked the ETR for its size, and this was the answer. -/
def Asked (o : Settings) (events : List ApiEvent) (size : BitVec 64) : Prop :=
  o.fetcherOn = true ∧
    ∃ pid use a, .called (.startTrace pid use a) ∈ events ∧ a.etrSize = some size

/-- A u-dma-buf reported this area to `init_trace`, or its address and size 0, which
the fetcher thread replaced. -/
def Reported (o : Settings) (events : List ApiEvent) (area : Area) : Prop :=
  ∃ a, .called (.initTrace a) ∈ events ∧ a.udmabuf.physAddr = some area.1 ∧
    (a.udmabuf.size = some area.2 ∨ a.udmabuf.size = some 0 ∧ Asked o events area.2)

/-- The area was reported, if every report was whole. -/
def Granted (o : Settings) (events : List ApiEvent) (area : Area) : Prop :=
  (∀ a, .called (.initTrace a) ∈ events → a.udmabuf.Whole) → Reported o events area

/-- Among these calls, newest first, the ETR was set up with one of the areas. -/
def SetUp (e : Csal) (A : Area → Prop) (calls : List CsCall) : Prop :=
  ∃ newer ram older, calls = newer ++ .sinkEtrSetup e.devices.etb ram :: older ∧
    (e.answer older (.sinkEtrSetup e.devices.etb ram)).rc = 0 ∧ A (ram.addr, ram.size)

/-- Of these calls each gives memory to the ETR only, and one of the areas, and
enables a device only once the ETR is set up. -/
def Fenced (e : Csal) (A : Area → Prop) : List CsCall → Prop
  | [] => True
  | c :: older =>
    (∀ d ram, c.gives = some (d, ram) → d = e.devices.etb ∧ A (ram.addr, ram.size)) ∧
      (c.enables ≠ none → SetUp e A older) ∧ Fenced e A older

variable {e : Csal} {o : Settings} {A B : Area → Prop} {calls : List CsCall} {c : CsCall}
  {devices : Devices} {area : Area}

theorem SetUp.mono (h : SetUp e A calls) (more : ∀ area, A area → B area) : SetUp e B calls := by
  obtain ⟨newer, ram, older, split, succeeded, inside⟩ := h
  exact ⟨newer, ram, older, split, succeeded, more _ inside⟩

theorem setUp_cons (h : SetUp e A calls) : SetUp e A (c :: calls) := by
  obtain ⟨newer, ram, older, split, done⟩ := h
  exact ⟨c :: newer, ram, older, by rw [split, List.cons_append], done⟩

theorem Fenced.mono (h : Fenced e A calls) (more : ∀ area, A area → B area) :
    Fenced e B calls := by
  induction calls with
  | nil => trivial
  | cons c older ih =>
    obtain ⟨gives, enables, before⟩ := h
    exact ⟨fun d ram given => (gives d ram given).imp_right (more _),
      fun on => (enables on).mono more, ih before⟩

/-! ## The devices -/

/-- The calls are fenced, and where `p` says so the ETR is set up. -/
def Armed (e : Csal) (A : Area → Prop) (p : Prop) (r : Rig) : Prop :=
  Fenced e A r.calls ∧ (p → SetUp e A r.calls)

section
variable {p : Prop} {r : Rig}

theorem armed_log {r' : Rig} (h : Armed e A p r) (calls : r'.calls = c :: r.calls)
    (gives : c.gives = none) (enables : c.enables = none ∨ p) : Armed e A p r' := by
  rw [Armed, calls]
  refine ⟨⟨?_, ?_, h.1⟩, fun set => setUp_cons (h.2 set)⟩
  · rw [gives]
    nofun
  · intro on
    exact h.2 (enables.resolve_left on)

/-- As long as no memory is given, and nothing is enabled unless the ETR is set up. -/
theorem armed_walk : Walk e e.registrationVerbose
    (fun c => c.gives = none ∧ (c.enables = none ∨ p))
    fun {α} (x _ : Fn Rig α) => Keeps (Armed e A p) x where
  toClosed := keeps_closed
  op := fun _ kind _ inv => ensures_op.mpr (armed_log inv rfl kind.1 kind.2)
  log := keeps_modify fun _ inv => armed_log inv rfl rfl (.inl rfl)
  look := fun _ rest => keeps_get.bind rest

theorem calm_kind (calm : c.calm = true) (_ : c.diagnostic = false) (inert : c.inert = true) :
    c.gives = none ∧ (c.enables = none ∨ p) := by
  simp only [CsCall.calm, Bool.and_eq_true, Option.isNone_iff_eq_none] at calm
  exact ⟨inert_gives inert, .inl calm.1⟩

theorem armed_showEtmConfig (etm : Dev) : Keeps (Armed e A p) (showEtmConfig e etm) := by
  apply keeps_showEtmConfig armed_walk
  intro c looking inert
  simp only [CsCall.looking, Bool.and_eq_true, Option.isNone_iff_eq_none] at looking
  exact ⟨inert_gives inert, .inl looking.1.1.1⟩

theorem armed_configureTrace (board : Option Board) (range : MapInfo) (pid : BitVec 32) :
    Keeps (Armed e A p) (configureTrace e board devices range pid) := by
  have walk := @armed_walk e A p
  cases board with
  | none => exact (keeps_ret _).enclose
  | some board =>
    apply walk.configureTrace (fun _ => calm_kind) fun _ _ => ⟨rfl, .inl rfl⟩
    · intro i _
      apply walk.preparePtm (fun _ => calm_kind) fun _ _ => ⟨rfl, .inl rfl⟩
      · exact fun dev _ => keeps_modify fun _ inv => inv
      · exact walk.initEtm (fun _ => calm_kind) (keeps_assert _) (keeps_assert _)
    · exact fun etm _ => keeps_when _ (armed_showEtmConfig etm)

theorem armed_disableTrace (board : Option Board) :
    Keeps (Armed e A p) (disableTrace e board devices) := by
  have walk := @armed_walk e A p
  cases board with
  | none => exact (keeps_ret _).enclose
  | some board =>
    apply walk.disableTrace walk.opens (walk.call ⟨rfl, .inl rfl⟩) fun _ => calm_kind
    apply keeps_when
    apply keeps_each
    exact fun i _ => keeps_get.bind fun r => armed_showEtmConfig (r.ptm i)

theorem armed_disableTraceSinksOnly :
    Keeps (Armed e A p) (disableTraceSinksOnly e devices) :=
  armed_walk.disableTraceSinksOnly fun _ lowering => calm_kind (lowering_calm lowering)

/-- The sinks alone are enabled where the ETR is set up. -/
theorem armed_enableTraceSinksOnly (set : p) :
    Keeps (Armed e A p) (enableTraceSinksOnly e devices) :=
  armed_walk.enableTraceSinksOnly (fun _ _ _ inert => ⟨inert_gives inert, .inr set⟩) devices

/-- `enable_trace` sets the ETR up first, and leaves if that fails. -/
theorem enableTrace_arms (board : Option Board)
    (known : board = none ∨ devices = e.devices ∧ A area) (before : Armed e A p r) :
    Ensures (enableTrace e board devices area)
      (fun rc r' => Armed e A p r' ∧ (0 ≤ rc → SetUp e A r'.calls)) (fun _ => Armed e A p) r := by
  cases board with
  | none =>
    apply (ensures_enclose _).mpr
    exact (ensures_ret _).mpr ⟨before, fun positive => absurd positive (by decide)⟩
  | some board =>
    obtain ⟨rfl, inside⟩ := known.resolve_left nofun
    let set : CsCall := .sinkEtrSetup e.devices.etb ⟨area.1, area.2, board.etrAxictl⟩
    have fenced : Armed e A p (r.after e set) := by
      refine ⟨⟨?_, nofun, before.1⟩, fun done => setUp_cons (before.2 done)⟩
      rintro _ _ ⟨⟩
      exact ⟨rfl, inside⟩
    have walk := @armed_walk e A True
    have rest : Keeps (Armed e A True) (do
        must e (.sinkEnable e.devices.etb)
        when (e.devices.tpiu != 0) (must e (.sinkEnable e.devices.tpiu))
        each e.devices.traceSinks (enableEtf e)
        each (List.range board.nCpu) (callPtm e .traceEnable)
        mustNotFail e (.traceSwstimEnableAllPorts e.devices.itm)
        mustNotFail e (.traceSwstimSetSyncRepeat e.devices.itm 32)
        call e (.traceEnable e.devices.itm)
        call e .checkpoint
        when (0 < e.registrationVerbose) (call e .ctiDiag)
        checkErrors
        pure (0 : Int)) := by
      have on {c : CsCall} (gives : c.gives = none) :
          c.gives = none ∧ (c.enables = none ∨ True) := ⟨gives, .inr trivial⟩
      apply Leads.bind (walk.must (on rfl))
      intro _
      apply (keeps_when _ (walk.must (on rfl))).bind
      intro _
      apply Leads.bind (keeps_each fun d _ => walk.enableEtf fun _ _ _ inert => on (inert_gives inert))
      intro _
      apply Leads.bind (keeps_each fun i _ => walk.callPtm (fun _ => on rfl) i)
      intro _
      apply Leads.bind (walk.mustNotFail (on rfl))
      intro _
      apply Leads.bind (walk.mustNotFail (on rfl))
      intro _
      apply Leads.bind (walk.call (on rfl))
      intro _
      apply Leads.bind (walk.call (on rfl))
      intro _
      exact (keeps_when _ (walk.call (on rfl))).bind fun _ => walk.checked
    apply (ensures_enclose _).mpr
    apply (ensures_bind _ _).mpr
    apply ensures_must.mpr
    constructor
    · intro succeeded
      have armed : Armed e A True (r.after e set) :=
        ⟨fenced.1, fun _ => ⟨[], _, r.calls, rfl, succeeded, inside⟩⟩
      have weaker {r : Rig} (armed : Armed e A True r) : Armed e A p r :=
        ⟨armed.1, fun _ => armed.2 trivial⟩
      apply (rest _ armed).mono
      · exact fun _ _ armed => ⟨weaker armed, fun _ => armed.2 trivial⟩
      · intro x r' armed
        cases x with
        | ret rc => exact ⟨weaker armed, fun _ => armed.2 trivial⟩
        | crash => exact weaker armed
    · exact fun _ => ⟨fenced, fun positive => absurd positive (by decide)⟩

end

/-! ## The variables -/

/-- The board's ETR and one of the areas go together, and the sinks alone are only
enabled once the ETR is set up. -/
structure Guarded (e : Csal) (A : Area → Prop) (g : Globals) : Prop where
  board : g.board = none ∨ g.devices = e.devices ∧ A g.etrRam
  armed : Armed e A (g.isFirstTrace = false) g.rig

section
variable {g : Globals} {α : Type}

theorem Guarded.mono (h : Guarded e A g) (more : ∀ area, A area → B area) : Guarded e B g :=
  ⟨h.board.imp_right (And.imp_right (more _)), h.armed.1.mono more, fun again =>
    (h.armed.2 again).mono more⟩

theorem guarded_wiringOnly : WiringOnly (Guarded e A) := by
  constructor
  intro g g' same inv
  obtain ⟨board, armed⟩ := inv
  simp only [Globals.wiring, Wiring.mk.injEq] at same
  obtain ⟨rig, sameBoard, devices, ram, -, -, first⟩ := same
  rw [← sameBoard, ← devices, ← ram] at board
  rw [← rig, ← first] at armed
  exact ⟨board, armed⟩

theorem guarded_onRig {x : Fn Rig α} (keeps : ∀ p, Keeps (Armed e A p) x) :
    Keeps (Guarded e A) (onRig x) := by
  intro g inv
  apply (ensures_zoom x).mpr
  apply (keeps _ g.rig inv.armed).mono
  · exact fun _ _ armed => ⟨inv.board, armed⟩
  · exact fun _ _ armed => ⟨inv.board, armed⟩

theorem guarded_call (gives : c.gives = none) (enables : c.enables = none) :
    Keeps (Guarded e A) (onRig (call e c)) :=
  guarded_onRig fun _ => armed_walk.call ⟨gives, .inl enables⟩

theorem guarded_looks (looking : c.looking = true) (inert : c.inert = true) :
    Keeps (Guarded e A) (onRig (call e c)) := by
  simp only [CsCall.looking, Bool.and_eq_true, Option.isNone_iff_eq_none] at looking
  exact guarded_call (inert_gives inert) looking.1.1.1

/-- The sources and the sinks for the first time. -/
theorem guarded_enableFirst (pid : Parent.Pid) : Keeps (Guarded e A) (enableFirst e pid) := by
  apply keeps_read
  intro g inv
  apply (guarded_onRig fun _ => armed_configureTrace _ _ _).bind
  intro rc
  apply (keeps_require _ _).bind
  intro _ g₁ inv₁
  apply (ensures_bind _ _).mpr
  apply (ensures_zoom _).mpr
  apply (enableTrace_arms g.board inv.board inv₁.armed).mono
  · rintro rc r ⟨armed, setUp⟩
    simp only [ensures_bind, ensures_require, ensures_modify, decide_eq_true_eq]
    refine ⟨fun positive => ?_, fun _ => ⟨inv₁.board, armed⟩⟩
    exact ⟨inv₁.board, armed.1, fun _ => setUp positive⟩
  · exact fun _ _ armed => ⟨inv₁.board, armed⟩

theorem guarded_enableCsTrace (pid : Parent.Pid) :
    Keeps (Guarded e A) (enableCsTrace e o pid) := by
  have again {g : Globals} (later : g.isFirstTrace = false) (inv : Guarded e A g) :
      Leaves (enableAgain e) (Guarded e A) g := by
    apply (ensures_bind _ _).mpr
    apply ensures_get.mpr
    change Leaves _ (Guarded e A) g
    apply Leaves.bind
    · apply (ensures_zoom _).mpr
      apply (armed_enableTraceSinksOnly later g.rig inv.armed).mono
      · exact fun _ _ armed => ⟨inv.board, armed⟩
      · exact fun _ _ armed => ⟨inv.board, armed⟩
    · exact fun _ => keeps_require _ _
  have components : Keeps (Guarded e A) (enableComponents e o pid) := by
    apply Leads.enclose
    intro g inv
    apply (ensures_bind _ _).mpr
    apply ensures_get.mpr
    change Leaves _ (Guarded e A) g
    apply Leaves.bind
    · cases later : g.isFirstTrace with
      | false => exact again later inv
      | true => exact guarded_enableFirst pid g inv
    · exact fun _ => (keeps_when _ (guarded_call rfl rfl)).bind fun _ => keeps_pure _
  apply components.bind
  intro rc
  exact (keeps_when _ (guarded_call rfl rfl)).bind fun _ => keeps_pure _

theorem guarded_stopTrace (all : Bool) : Keeps (Guarded e A) (stopTrace e all) := by
  have attempt : Keeps (Guarded e A) (disableAttempt e all) := by
    apply keeps_get.bind
    intro g
    cases all with
    | false => exact guarded_onRig fun _ => armed_disableTraceSinksOnly
    | true => exact guarded_onRig fun _ => armed_disableTrace _
  have reset : Keeps (Guarded e A) (onRig csResetErrorCount) :=
    guarded_onRig fun _ => keeps_modify fun _ inv => armed_log inv rfl rfl (.inl rfl)
  exact stopTrace_leads attempt attempt reset (guarded_wiringOnly.setTraceState _)

/-- `init_trace` takes the area that it is told: one of those, if all went well, and
none else if nothing did. -/
theorem guarded_initTrace {a : InitAnswers}
    (told : ∀ area, 0 ≤ a.udmabuf.rc → A (a.udmabuf.stored area))
    (kept : ∀ area, a.udmabuf.rc < 0 → A area → A (a.udmabuf.stored area)) :
    Keeps (Guarded e A) (initTrace e o a) := by
  let Inv (g : Globals) : Prop := Guarded e A g ∧ A g.etrRam
  have aside {f : Globals → Globals} (same : ∀ g, Guarded e A g → Guarded e A (f g))
      (ram : ∀ g, (f g).etrRam = g.etrRam) : Keeps Inv (modify f : Fn Globals _) :=
    keeps_modify fun g inv => ⟨same g inv.1, ram g ▸ inv.2⟩
  have board : Keeps Inv (setupNamedBoard e) := by
    apply setupNamedBoard_keeps
    · intro g inv
      apply (ensures_zoom _).mpr
      apply (armed_walk.op _ ⟨rfl, .inl rfl⟩ g.rig inv.1.armed).mono
      · exact fun _ _ armed => ⟨⟨inv.1.board, armed⟩, inv.2⟩
      · exact fun _ _ armed => ⟨⟨inv.1.board, armed⟩, inv.2⟩
    · exact fun g inv => ⟨⟨.inr ⟨rfl, inv.2⟩, inv.1.armed⟩, inv.2⟩
  have components : Keeps (Guarded e A) (initComponents e o a) := by
    apply Leads.enclose
    apply Leads.bind
    · exact keeps_modify fun _ inv => ⟨inv.board, inv.armed⟩
    intro _ g inv
    apply (ensures_bind _ _).mpr
    apply (ensures_modify _).mpr
    apply (ensures_bind _ _).mpr
    apply (ensures_require _ _).mpr
    constructor
    rotate_left
    · intro failed
      have negative := of_decide_eq_false failed
      exact ⟨inv.board.imp_right (And.imp_right (kept _ (by omega))), inv.armed⟩
    intro succeeded
    have ram := told g.etrRam (of_decide_eq_true succeeded)
    have before : Inv { g with etrRam := a.udmabuf.stored g.etrRam } :=
      ⟨⟨inv.board.imp_right (And.imp_right fun _ => ram), inv.armed⟩, ram⟩
    suffices rest : Leaves _ Inv { g with etrRam := a.udmabuf.stored g.etrRam } from
      rest.mono (fun _ _ inv => inv.1) fun _ _ inv => inv.1
    refine Leads.bind (keeps_require _ _) ?_ _ before
    intro _
    apply Leads.bind
    · exact aside (fun _ inv => ⟨inv.board, inv.armed⟩) fun _ => rfl
    intro _
    apply (keeps_require _ _).bind
    intro _
    apply board.bind
    intro rc
    apply (keeps_require _ _).bind
    intro _
    apply (keeps_require _ _).bind
    intro _
    apply Leads.bind
    · exact aside (fun _ inv => ⟨inv.board, inv.armed⟩) fun _ => rfl
    intro _
    apply keeps_get.bind
    intro g
    apply (keeps_require _ _).bind
    intro _
    apply Leads.bind
    · exact aside (fun _ inv => ⟨inv.board, inv.armed⟩) fun _ => rfl
    · exact fun _ => keeps_pure _
  apply components.bind
  intro rc
  exact (keeps_when _ (guarded_call rfl rfl)).bind fun _ => keeps_pure _

end

/-! ## Runs -/

section
variable {g : Globals} {h : History} {api : Api}

theorem granted_cons {event : ApiEvent} {events : List ApiEvent}
    (granted : Granted o events area) : Granted o (event :: events) area := by
  intro whole
  obtain ⟨a, called, address, size⟩ :=
    granted fun a called => whole a (List.mem_cons_of_mem _ called)
  refine ⟨a, List.mem_cons_of_mem _ called, address, size.imp_right (And.imp_right ?_)⟩
  rintro ⟨on, pid, use, b, started, asked⟩
  exact ⟨on, pid, use, b, List.mem_cons_of_mem _ started, asked⟩

section
variable {events : List ApiEvent} {a : InitAnswers}

theorem granted_told (called : .called (.initTrace a) ∈ events) (succeeded : 0 ≤ a.udmabuf.rc) :
    Granted o events (a.udmabuf.stored area) := by
  intro whole
  obtain ⟨address, size⟩ := (whole a called).success succeeded
  obtain ⟨x, address⟩ := Option.isSome_iff_exists.mp address
  obtain ⟨s, size⟩ := Option.isSome_iff_exists.mp size
  refine ⟨a, called, ?_, .inl ?_⟩
  · rw [UdmabufAnswer.stored, address]
    rfl
  · rw [UdmabufAnswer.stored, size]
    rfl

theorem granted_kept (called : .called (.initTrace a) ∈ events) (failed : a.udmabuf.rc < 0)
    (granted : Granted o events area) : Granted o events (a.udmabuf.stored area) := by
  intro whole
  obtain ⟨address, size⟩ := (whole a called).failure failed
  rw [UdmabufAnswer.stored, address, size]
  exact granted whole

/-- The fetcher thread replaces a size of 0 only. -/
theorem granted_sized {pid : Parent.Pid} {use : Bool} {b : StartAnswers}
    (called : .called (.startTrace pid use b) ∈ events) (on : o.fetcherOn = true)
    (empty : area.2 = 0) (granted : Granted o events area) :
    Granted o events (area.1, b.etrSize.getD 0) := by
  cases asked : b.etrSize with
  | none =>
    rw [Option.getD_none, ← empty]
    exact granted
  | some size =>
    intro whole
    obtain ⟨a, reported, address, zero⟩ := granted whole
    rw [empty] at zero
    have nothing : a.udmabuf.size = some 0 := zero.elim id And.left
    exact ⟨a, reported, address, .inr ⟨nothing, on, pid, use, b, called, asked⟩⟩

end

/-- Every call keeps the devices guarded, if it is on record. -/
theorem body_guarded {events : List ApiEvent} (called : .called api ∈ events) :
    Keeps (Guarded e (Granted o events)) (api.body e o) := by
  apply guarded_wiringOnly.body fun _ => guarded_looks
  · rintro a rfl
    exact guarded_initTrace (fun _ => granted_told called) fun _ => granted_kept called
  · rintro pid use a rfl
    apply keeps_modify
    intro g inv
    cases replaced : o.fetcherOn && g.etrRam.2 == 0 with
    | false => exact ⟨inv.board, inv.armed⟩
    | true =>
      obtain ⟨on, empty⟩ := Bool.and_eq_true_iff.mp replaced
      exact ⟨inv.board.imp_right (And.imp_right (granted_sized called on (beq_iff_eq.mp empty))),
        inv.armed⟩
  · exact guarded_enableCsTrace
  · exact guarded_stopTrace
  · exact guarded_call rfl rfl

/-- However a call ends, the areas are those reported up to it. -/
theorem enter_guarded (before : Guarded e (Granted o h.events) h.globals) :
    Leaves (enter e o api) (fun h' => Guarded e (Granted o h'.events) h'.globals) h := by
  have entered : Guarded e (Granted o (.called api :: h.events)) h.globals :=
    before.mono fun _ granted => granted_cons granted
  apply ensures_enter.mpr
  apply (body_guarded List.mem_cons_self h.globals entered).mono
  · exact fun _ _ guarded => guarded.mono fun _ granted => granted_cons granted
  · exact fun _ _ guarded => guarded

/-- **The trace is written to reported memory only.** Whatever calls are made, in
whatever order, and whichever of them fail or die: no device is given memory but the
ETR, and neither a source nor a sink is enabled before that was done. As long as
`get_udmabuf_info` stores both numbers or none, it is an area that a u-dma-buf
reported to `init_trace`, but for a size of 0, which the fetcher thread replaces. -/
theorem etr_area_reported {rig : Rig} (untouched : rig.calls = []) {traceCpu : Int}
    (reached : Reach (anyStep e o) (fun _ _ => true) (.initial rig traceCpu) h) :
    Leaves (enter e o api) (fun h' => Fenced e (Granted o h'.events) h'.globals.rig.calls) h := by
  have guarded : Guarded e (Granted o h.events) h.globals := by
    apply reached.invariant
    · refine ⟨.inl rfl, ?_, fun again => absurd again Bool.noConfusion⟩
      exact untouched.symm ▸ trivial
    · intro s c t before _ moved
      unfold anyStep at moved
      split at moved
      · rename_i ran
        cases moved
        exact (ensures_of_ok ran).mp (enter_guarded before)
      · cases moved
  apply (enter_guarded guarded).mono
  · exact fun _ _ after => after.armed.1
  · exact fun _ _ after => after.armed.1

end

/-- The first trace on the ZCU-104, which gives the reported memory to the ETR. -/
theorem etr_area_reported_started : ∃ h h',
    anyStep zcu104 plain (.initial .idle (-1)) (.initTrace healthy.init) = some h ∧
    anyStep zcu104 plain h (.startTrace 42 true healthy.start) = some h' ∧
    (h'.globals.rig.calls.any fun c => c.gives.isSome) = true ∧
    Fenced zcu104 (Reported plain h'.events) h'.globals.rig.calls := by
  have replay : (anyStep zcu104 plain (.initial .idle (-1)) (.initTrace healthy.init)).any (fun h =>
      (anyStep zcu104 plain h (.startTrace 42 true healthy.start)).any fun h' =>
        h'.globals.rig.calls.any fun c => c.gives.isSome) = true := by
    decide +kernel
  obtain ⟨h, booted, started⟩ := (Option.any_eq_true _ _).mp replay
  obtain ⟨h', moved, given⟩ := (Option.any_eq_true _ _).mp started
  obtain ⟨rc, before⟩ := anyStep_events booted
  obtain ⟨rc', after⟩ := anyStep_events moved
  have whole : ∀ a, .called (.initTrace a) ∈ h'.events → a.udmabuf.Whole := by
    intro a called
    rw [after, before] at called
    have same : a = healthy.init := by
      simpa [History.initial] using called
    rw [same]
    exact ⟨fun _ => ⟨rfl, rfl⟩, fun failed => absurd failed (by decide)⟩
  have reached : Reach (anyStep zcu104 plain) (fun _ _ => true) (.initial .idle (-1)) h :=
    .next .start rfl booted
  have fenced : Fenced zcu104 (Granted plain h'.events) h'.globals.rig.calls := by
    have entered : Leaves (enter zcu104 plain (.startTrace 42 true healthy.start))
        (fun h => Fenced zcu104 (Granted plain h.events) h.globals.rig.calls) h :=
      etr_area_reported rfl reached
    unfold anyStep at moved
    split at moved
    · rename_i ran
      cases moved
      exact (ensures_of_ok ran).mp entered
    · cases moved
  exact ⟨h, h', booted, moved, given, fenced.mono fun _ granted => granted whole⟩

end Session

end Ultrasight
