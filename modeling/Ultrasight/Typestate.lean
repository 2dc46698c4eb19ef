import Ultrasight.Deaths

/-!
# The order of API and library calls

`parent()` should call `start_trace`, `stop_trace` and `fini_trace` only after
`init_trace` returned 0, and `cs_shutdown` should be the last library call and
be made once. `typestate_iff` says when that is so: the first wait status must
be the `SIGTRAP` stop, every step of `init_trace` must succeed, the devices must
come up if `start_trace` gets that far, and neither `stop_trace` nor `fini_trace`
may die.
-/

namespace Ultrasight.Session

open Fn CsCall
open Parent (Pid)

/-! ## What is asked for -/

def Api.needsInit : Api → Bool
  | .startTrace .. | .stopTrace _ | .finiTrace _ => true
  | _ => false

/-- On record (newest first), a call that needs it comes after an `init_trace`
that returned 0. -/
def InitFirst : List ApiEvent → Prop
  | [] => True
  | .called c :: older =>
    (c.needsInit = true → ∃ a, .returned (.initTrace a) 0 ∈ older) ∧ InitFirst older
  | .returned _ _ :: older => InitFirst older

/-- No library call was made after `cs_shutdown`. -/
def ShutdownLast (r : Rig) : Prop := ∀ c ∈ r.calls.tail, c.isShutdown = false

structure Typestate (h : History) : Prop where
  initFirst : InitFirst h.events
  shutdownLast : ShutdownLast h.globals.rig

def ShutdownOnce (h : History) : Prop :=
  (∃ a, .called (.initTrace a) ∈ h.events) → h.globals.rig.shutdowns = 1

def Obeyed (h : History) : Prop := Typestate h ∧ ShutdownOnce h

/-- A list of calls obeys the law, however it ends. -/
def Lawful (e : Csal) (o : Settings) (calls : List Api) (h : History) : Prop :=
  Leaves (each calls (enter e o)) Obeyed h

/-! ## What `parent()` does -/

/-- The calls of `parent()` that go to the API. -/
def toApi (a : Answers) : Parent.Call → Option Api
  | .initTrace _ _ => some (.initTrace a.init)
  | .startTrace pid use => some (.startTrace pid use a.start)
  | .suspendCallback => some .traceSuspendCallback
  | .resumeCallback => some .traceResumeCallback
  | .stopTrace all => some (.stopTrace all)
  | .finiTrace => some (.finiTrace a.fini)
  | .ksightSetTracedPid _ | .ksightSetEnable _ | .detach _ => none

def perform (e : Csal) (o : Settings) (a : Answers) (calls : List Parent.Call) : Fn History Unit :=
  each (calls.filterMap (toApi a)) (enter e o)

/-! ## Library calls on record -/

/-- No `cs_shutdown` so far. -/
def Open (r : Rig) : Prop := ∀ c ∈ r.calls, c.working = true

/-- `cs_shutdown` was the last call. -/
def JustShut (r : Rig) : Prop := ∃ older, r.calls = .shutdown :: older

def Misused (r : Rig) : Prop := ∃ c ∈ r.calls.tail, c.isShutdown = true

theorem misused_not {r : Rig} (h : Misused r) : ¬ ShutdownLast r := by
  obtain ⟨c, late, shut⟩ := h
  intro last
  rw [last c late] at shut
  cases shut

theorem misused_cons {r r' : Rig} {c : CsCall} (h : Misused r) (calls : r'.calls = c :: r.calls) :
    Misused r' := by
  obtain ⟨d, late, shut⟩ := h
  exact ⟨d, by rw [calls]; exact List.mem_of_mem_tail late, shut⟩

theorem justShut_cons {r r' : Rig} {c : CsCall} (h : JustShut r) (calls : r'.calls = c :: r.calls) :
    Misused r' := by
  obtain ⟨older, first⟩ := h
  exact ⟨.shutdown, by rw [calls, first]; exact List.mem_cons_self, rfl⟩

theorem open_cons {r r' : Rig} {c : CsCall} (h : Open r) (calls : r'.calls = c :: r.calls)
    (working : c.working = true) : Open r' := by
  intro d hd
  rw [calls] at hd
  cases hd with
  | head => exact working
  | tail _ hd => exact h d hd

theorem open_never_shut {r : Rig} (h : Open r) : r.shutdowns = 0 := by
  apply List.countP_eq_zero.mpr
  intro c hc
  simpa [CsCall.working] using h c hc

/-- After its first `cs_shutdown` and nothing else, the library was shut down
once and last. -/
theorem shut_of_open {r r' : Rig} (h : Open r) (calls : r'.calls = .shutdown :: r.calls) :
    ShutdownLast r' ∧ r'.shutdowns = 1 := by
  constructor
  · intro c hc
    rw [calls] at hc
    simpa [CsCall.working] using h c hc
  · have before := open_never_shut h
    rw [Rig.shutdowns] at before
    rw [Rig.shutdowns, calls, List.countP_cons, before]
    rfl

variable {e : Csal} {o : Settings}

theorem stable_open : Stable e working Open :=
  ⟨fun _ _ p h => open_cons h rfl p, fun _ h => open_cons h rfl rfl⟩

theorem stable_misused : Stable e working Misused :=
  ⟨fun _ _ _ h => misused_cons h rfl, fun _ h => misused_cons h rfl⟩

/-! ## What the functions of the API keep -/

theorem setTraceState_keeps {Inv : Rig → Prop} (new : TraceState) :
    Keeps (fun g => Inv g.rig) (setTraceState new) := keeps_modify fun _ inv => inv

theorem reset_keeps {Inv : Rig → Prop}
    (h : ∀ r, Inv r → Inv { r.log .resetErrorCount with errorCount := 0 }) :
    Keeps (fun g => Inv g.rig) (onRig csResetErrorCount) := onRig_leads (keeps_modify h)

theorem disableAttempt_keeps {Inv : Rig → Prop} (h : Stable e working Inv) (all : Bool) :
    Keeps (fun g => Inv g.rig) (disableAttempt e all) := by
  refine keeps_get.bind fun g => ?_
  cases all
  · exact onRig_leads (h.mono fun c => lowering_working).disableTraceSinksOnly
  · exact onRig_leads ((h.mono fun c => calm_working).disableTrace g.board g.devices)

theorem stopTrace_keeps {Inv : Rig → Prop} (h : Stable e working Inv)
    (reset : ∀ r, Inv r → Inv { r.log .resetErrorCount with errorCount := 0 }) (all : Bool) :
    Keeps (fun g => Inv g.rig) (stopTrace e all) := by
  have attempt := disableAttempt_keeps h all
  exact stopTrace_leads attempt attempt (reset_keeps reset) (setTraceState_keeps _)

theorem reset_misused {r : Rig} (h : Misused r) :
    Misused { r.log .resetErrorCount with errorCount := 0 } := misused_cons h rfl

/-- The first thing `stop_trace` does with a board is a library call. -/
theorem stopTrace_misuses :
    Leads (fun g => JustShut g.rig ∧ ∃ b, g.board = some b) (fun g => Misused g.rig)
      (stopTrace e true) := by
  have attempt := disableAttempt_keeps (@stable_misused e) true
  apply stopTrace_leads _ attempt (reset_keeps fun _ => reset_misused) (setTraceState_keeps _)
  rintro g ⟨shut, board, found⟩
  apply (ensures_bind _ _).mpr
  apply ensures_get.mpr
  rw [if_pos rfl, found]
  have calmly : Stable e calm Misused := stable_misused.mono fun _ => calm_working
  apply onRig_leads (calmly.disableTrace_leads _ board) g shut
  intro r just
  exact ensures_call.mpr (justShut_cons just rfl)

theorem rig_dataFree {Inv : Rig → Prop} : DataFree fun g => Inv g.rig where
  same := fun g g' same inv => by
    have rig : g'.rig = g.rig := congrArg Core.rig same
    exact rig.symm ▸ inv
  data := fun _ _ _ _ inv => inv

theorem rig_looks {Inv : Rig → Prop} (h : Stable e working Inv) (c : CsCall)
    (looks : c.looking = true) : Keeps (fun g => Inv g.rig) (onRig (call e c)) :=
  onRig_leads (h.call (looking_working looks))

/-- `fini_trace` up to its `cs_shutdown`. -/
theorem finiTrace_before {Inv : Rig → Prop} (h : Stable e working Inv) (a : FiniAnswers)
    {Q : Int → Globals → Prop} {E : Exit → Globals → Prop} {g : Globals} (inv : Inv g.rig)
    (shut : ∀ g' : Globals, Inv g'.rig → Q 0 { g' with rig := g'.rig.after e .shutdown })
    (left : ∀ x (g' : Globals), Inv g'.rig → E x g') : Ensures (finiTrace e o a) Q E g := by
  have looks := rig_looks h
  have last : Keeps (fun g => Inv g.rig) (lastFetch e o a) :=
    rig_dataFree.lastFetch looks (setTraceState_keeps _) a
  refine last.before inv (fun _ g₁ inv => ?_) left
  refine (rig_dataFree.exportTrace _).before inv (fun _ g₂ inv => ?_) left
  refine (rig_dataFree.events a).before inv (fun _ g₃ inv => ?_) left
  refine (rig_dataFree.freeTraceBuf looks).before inv (fun _ g₄ inv => ?_) left
  simp only [onRig, ensures_bind, ensures_zoom, ensures_call, ensures_pure]
  exact shut g₄ inv

/-! ## `init_trace` -/

/-- Every step of `init_trace` succeeds, without the fetcher. -/
structure InitSucceeds (e : Csal) (o : Settings) (a : InitAnswers) : Prop where
  udmabuf : 0 ≤ a.udmabuf.rc
  ksight : o.ksightOn = true → a.ksightInfo = true
  maps : 0 ≤ a.rangeCount
  board : 0 ≤ (e.answer [] .setupNamedBoard).rc

/-- What `init_trace` leaves when all its steps succeed. -/
structure Initialised (e : Csal) (a : InitAnswers) (rig : Rig) (g : Globals) : Prop where
  rig : g.rig = rig.after e .setupNamedBoard
  board : g.board = some e.board
  devices : g.devices = e.devices
  ram : g.etrRam = a.udmabuf.stored (0, 0)
  mapInfo : g.mapInfo = if 0 < a.rangeCount then a.mapInfo else ⟨0, 0⟩
  isFirstTrace : g.isFirstTrace = true
  traceBuf : g.traceBuf = .null
  ksightBuf : g.ksightBuf = .null

theorem selectTraceCpu_nonneg (a : InitAnswers) (traceCpu : Int) :
    0 ≤ selectTraceCpu a traceCpu := by
  unfold selectTraceCpu defaultTraceCpu
  dsimp only
  split
  · split <;> omega
  · omega

/-- `init_trace` returns 0 exactly when all its steps succeed. -/
def InitResult (e : Csal) (o : Settings) (a : InitAnswers) (rig : Rig) (rc : Int) (g : Globals) :
    Prop :=
  InitSucceeds e o a ∧ rc = 0 ∧ Initialised e a rig g ∨ ¬ InitSucceeds e o a ∧ rc ≠ 0

theorem initComponents_spec (off : o.fetcherOn = false) (a : InitAnswers) {rig : Rig}
    (fresh : rig.calls = []) (traceCpu : Int) :
    Ensures (initComponents e o a) (InitResult e o a rig) (fun _ _ => False)
      (.initial rig traceCpu) := by
  have traceId := selectTraceCpu_nonneg a traceCpu
  have failed (g : Globals) (h : ¬ InitSucceeds e o a) : InitResult e o a rig (-1) g :=
    .inr ⟨h, by decide⟩
  simp only [initComponents, setupNamedBoard, onRig, setTraceState, off, ensures_enclose,
    ensures_bind, ensures_modify, ensures_require, ensures_when, ensures_zoom,
    ensures_op, ensures_get, ensures_pure, Globals.initial, fresh, decide_eq_true_eq,
    decide_eq_false_iff_not]
  refine ⟨fun udmabuf => ⟨fun ksight => ⟨fun maps => ?_, fun maps => ?_⟩, fun ksight => ?_⟩,
    fun missing => ?_⟩
  · by_cases board : 0 ≤ (e.answer [] .setupNamedBoard).rc
    · have succeeds : InitSucceeds e o a :=
        ⟨udmabuf, fun on => by simpa [on] using ksight, maps, board⟩
      refine ⟨fun _ => ⟨fun _ => ⟨fun _ => ⟨fun _ => ?_, fun negative => ?_⟩, fun on => ?_⟩,
        fun negative => absurd board negative⟩, fun negative => absurd board negative⟩
      · exact .inl ⟨succeeds, rfl, rfl, rfl, rfl, rfl, rfl, rfl, rfl, rfl⟩
      · exact absurd (by simp only [getTraceId]; omega) negative
      · cases on
    · have fails : ¬ InitSucceeds e o a := fun h => board h.board
      exact ⟨fun h => absurd h board, fun _ => ⟨fun h => absurd h board, fun _ => failed _ fails⟩⟩
  · exact failed _ fun h => maps h.maps
  · apply failed
    intro h
    cases on : o.ksightOn
    · rw [on] at ksight; cases ksight
    · rw [h.ksight on, Bool.or_true] at ksight; cases ksight
  · exact failed _ fun h => missing h.udmabuf

/-- A failed `init_trace` shuts the library down and says so. -/
theorem initTrace_spec (off : o.fetcherOn = false) (a : InitAnswers) {rig : Rig}
    (fresh : rig.calls = []) (traceCpu : Int) :
    Ensures (initTrace e o a) (InitResult e o a rig) (fun _ _ => False)
      (.initial rig traceCpu) := by
  apply (ensures_bind _ _).mpr
  apply (initComponents_spec off a fresh traceCpu).mono _ (fun _ _ h => h)
  intro rc g result
  simp only [onRig, ensures_bind, ensures_when, ensures_zoom, ensures_call, ensures_pure]
  refine ⟨fun nonzero => ?_, fun _ => result⟩
  rcases result with ⟨_, zero, _⟩ | failed
  · simp [zero] at nonzero
  · exact .inr failed

/-! ## `start_trace` -/

/-- `configure_trace` and then `enable_trace` return, and no negative value. -/
def ComesUp (e : Csal) (g : Globals) (pid : Pid) : Prop :=
  Ensures (configureTrace e g.board g.devices g.mapInfo pid)
    (fun rc r => 0 ≤ rc ∧
      Ensures (enableTrace e g.board g.devices g.etrRam) (fun rc _ => 0 ≤ rc) (fun _ _ => False) r)
    (fun _ _ => False) g.rig

/-- What is known after bringing up the devices. -/
structure Started (e : Csal) (pid : Pid) (before : Globals) (rc : Int) (g : Globals) : Prop where
  clean : Open g.rig
  board : g.board = before.board
  ok : 0 ≤ rc ↔ ComesUp e before pid

theorem comesUp_iff {g : Globals} {pid : Pid} {rc : Int} {r : Rig}
    (run : configureTrace e g.board g.devices g.mapInfo pid g.rig = .ok rc r) :
    ComesUp e g pid ↔ 0 ≤ rc ∧ Ensures (enableTrace e g.board g.devices g.etrRam)
      (fun rc _ => 0 ≤ rc) (fun _ _ => False) r := ensures_of_ok run

theorem enableFirst_spec (pid : Pid) {g : Globals} (clean : Open g.rig) :
    Ensures (enableFirst e pid) (fun _ => Started e pid g 0)
      (fun x g' => match x with
        | .ret rc => Started e pid g rc g'
        | .crash => Open g'.rig ∧ ¬ ComesUp e g pid) g := by
  have configured : Keeps Open (configureTrace e g.board g.devices g.mapInfo pid) :=
    ((@stable_open e).mono fun _ => calm_working).configureTrace (fun _ _ _ h => h) _ _ _ _
  have enabled : Keeps Open (enableTrace e g.board g.devices g.etrRam) :=
    ((@stable_open e).mono fun _ => raising_working).enableTrace _ _ _
  simp only [enableFirst, ensures_bind, ensures_get, onRig, ensures_zoom, ensures_require,
    ensures_modify, decide_eq_true_eq, decide_eq_false_iff_not]
  obtain ⟨rc, r, run⟩ | ⟨r, run⟩ :
      (∃ rc r, configureTrace e g.board g.devices g.mapInfo pid g.rig = .ok rc r) ∨ _ :=
    enclose_cases _ _
  · have clean₁ : Open r := (ensures_of_ok run).mp (configured g.rig clean)
    apply (ensures_of_ok run).mpr
    constructor
    · intro ok
      obtain ⟨rc₂, r₂, run₂⟩ | ⟨r₂, run₂⟩ :
          (∃ rc₂ r₂, enableTrace e g.board g.devices g.etrRam r = .ok rc₂ r₂) ∨ _ :=
        enclose_cases _ _
      · have clean₂ : Open r₂ := (ensures_of_ok run₂).mp (enabled r clean₁)
        have up : ComesUp e g pid ↔ 0 ≤ rc₂ := by
          rw [comesUp_iff run, and_iff_right ok]
          exact ensures_of_ok run₂
        apply (ensures_of_ok run₂).mpr
        exact ⟨fun ok₂ => ⟨clean₂, rfl, by simp [up, ok₂]⟩,
          fun bad => ⟨clean₂, rfl, by simpa [up] using bad⟩⟩
      · apply (ensures_of_error run₂).mpr
        refine ⟨(ensures_of_error run₂).mp (enabled r clean₁), fun up => ?_⟩
        exact (ensures_of_error run₂).mp ((comesUp_iff run).mp up).2
    · intro bad
      exact ⟨clean₁, rfl, by simp [comesUp_iff run, bad]⟩
  · apply (ensures_of_error run).mpr
    exact ⟨(ensures_of_error run).mp (configured g.rig clean), (ensures_of_error run).mp⟩

theorem enableComponents_spec (pid : Pid) {g : Globals} (first : g.isFirstTrace = true)
    (clean : Open g.rig) :
    Ensures (enableComponents e o pid) (Started e pid g)
      (fun _ g' => Open g'.rig ∧ ¬ ComesUp e g pid) g := by
  apply (ensures_enclose _).mpr
  simp only [ensures_bind, ensures_get, first, cond_true, onRig, ensures_when, ensures_zoom,
    ensures_call, ensures_pure]
  apply (enableFirst_spec pid clean).mono
  · intro _ g' started
    exact ⟨fun _ => ⟨open_cons started.clean rfl rfl, started.board, started.ok⟩,
      fun _ => started⟩
  · intro x g' left
    cases x <;> exact left

/-- `start_trace` leaves the library open if the devices come up, and shut down
otherwise. -/
def StartResult (e : Csal) (pid : Pid) (before g : Globals) : Prop :=
  ComesUp e before pid ∧ Open g.rig ∨
    ¬ ComesUp e before pid ∧ JustShut g.rig ∧ g.board = before.board

theorem enableCsTrace_spec (pid : Pid) {g : Globals} (first : g.isFirstTrace = true)
    (clean : Open g.rig) :
    Ensures (enableCsTrace e o pid) (fun _ => StartResult e pid g)
      (fun x g' => x = .crash ∧ Open g'.rig ∧ ¬ ComesUp e g pid) g := by
  apply (ensures_bind _ _).mpr
  apply ((enableComponents_spec pid first clean).and (through_enclose _ g)).mono
  · rintro rc g' ⟨started, -⟩
    simp only [onRig, ensures_bind, ensures_when, ensures_zoom, ensures_call, ensures_pure,
      decide_eq_true_eq, decide_eq_false_iff_not]
    constructor
    · intro bad
      refine .inr ⟨fun up => ?_, ⟨_, rfl⟩, started.board⟩
      have := started.ok.mpr up
      omega
    · intro ok
      exact .inl ⟨started.ok.mp (by omega), started.clean⟩
  · exact fun _ _ left => left.symm

/-- Without the fetcher no size is asked for. -/
theorem fetcherSize_off (off : o.fetcherOn = false) (size : Option (BitVec 64)) :
    fetcherSize o size = modify id := by
  simp only [fetcherSize, off, Bool.false_and, Bool.false_eq_true, if_false]
  rfl

theorem startTrace_spec (off : o.fetcherOn = false) (pid : Pid) (a : StartAnswers) {g : Globals}
    (first : g.isFirstTrace = true) (clean : Open g.rig) (bound : 0 ≤ a.affinity) :
    Ensures (startTrace e o pid true a) (fun _ => StartResult e pid g)
      (fun _ g' => Open g'.rig ∧ ¬ ComesUp e g pid) g := by
  have enabled (g₁ : Globals) (first : g₁.isFirstTrace = true) (clean : Open g₁.rig)
      (up : ComesUp e g₁ pid ↔ ComesUp e g pid) (board : g₁.board = g.board) :
      Ensures (enableCsTrace e o pid) (fun _ => StartResult e pid g)
        (fun x g' => x = .crash ∧ Open g'.rig ∧ ¬ ComesUp e g pid) g₁ := by
    apply (enableCsTrace_spec pid first clean).mono
    · intro rc g' result
      rwa [StartResult, up, board] at result
    · intro x g' left
      rwa [up] at left
  apply (ensures_enclose _).mpr
  simp only [ensures_bind, ensures_require, decide_eq_true_eq, decide_eq_false_iff_not,
    allocTraceBuf, allocKsightBuf, fetcherSize_off off, ensures_modify, ensures_when, ite_true,
    setTraceState, ensures_pure, id_eq]
  refine ⟨fun _ => ⟨fun _ => ?_, fun _ => ?_⟩, fun bad => absurd bound bad⟩
  all_goals
    apply Ensures.mono
    · exact enabled _ first clean Iff.rfl rfl
    · exact fun _ _ result => ⟨fun _ => result, fun _ => result⟩
    · rintro _ _ ⟨rfl, left⟩
      exact left

/-! ## The buffers -/

/-- The two buffers. -/
def Holding (trace events : Buf) (g : Globals) : Prop := g.traceBuf = trace ∧ g.ksightBuf = events

section
variable {trace events : Buf}

theorem holding_onRig {α : Type} (x : Fn Rig α) : Keeps (Holding trace events) (onRig x) :=
  fun g inv => (ensures_zoom x).mpr (ensures_const inv x g.rig)

theorem stopTrace_holding (all : Bool) : Keeps (Holding trace events) (stopTrace e all) :=
  stopTrace_free holding_onRig (keeps_modify fun _ inv => inv) all

theorem allocTraceBuf_holding {placed : Option (Placement TraceBuffer.defaultTraceSize.toNat)}
    {E : Exit → Globals → Prop} {g : Globals} (none : Holding .null events g) :
    Ensures (allocTraceBuf placed) (fun _ => Holding (mapped placed) events) E g := by
  apply (ensures_modify _).mpr
  refine ⟨?_, none.2⟩
  cases placed with
  | none => exact congrArg unmapped none.1
  | some p => rfl

theorem allocKsightBuf_holding {placed : Option (Placement TraceBuffer.defaultTraceSize.toNat)}
    {E : Exit → Globals → Prop} {g : Globals} (none : Holding trace .null g) :
    Ensures (allocKsightBuf placed) (fun _ => Holding trace (mapped placed)) E g := by
  apply (ensures_modify _).mpr
  refine ⟨none.1, ?_⟩
  cases placed with
  | none => exact congrArg unmapped none.2
  | some p => rfl

/-- What `init_trace` finds stays set. -/
def Boards (e : Csal) (g : Globals) : Prop := g.board = some e.board ∧ g.devices = e.devices

theorem startTrace_boards (pid : Pid) (use : Bool) (a : StartAnswers) :
    Keeps (Boards e) (startTrace e o pid use a) := by
  have onRig {α : Type} (x : Fn Rig α) : Keeps (Boards e) (onRig x) :=
    fun g inv => (ensures_zoom x).mpr (ensures_const inv x g.rig)
  by_cases bound : 0 ≤ a.affinity
  · apply startTrace_bound bound
    · exact fun _ _ inv => inv
    · exact keeps_when _ (keeps_modify fun _ inv => inv)
    · exact fun _ inv => inv
    · exact keeps_modify fun _ inv => inv
    · exact fun _ => enableCsTrace_keeps onRig (fun _ inv => inv) _
    · exact keeps_modify fun _ inv => inv
  · exact startTrace_unbound bound

theorem startTrace_holding (pid : Pid) (use : Bool) (a : StartAnswers) {g : Globals}
    (none : Holding .null .null g) :
    Leaves (startTrace e o pid use a) (Holding a.traceBufLeft (a.ksightBufLeft o)) g := by
  have rest (trace events : Buf) : Keeps (Holding trace events) (do
      modify fun g => { g with childPid := pid }
      fetcherSize o a.etrSize
      let rc ← enableCsTrace e o (if use then pid else 0)
      require (0 ≤ rc) rc
      setTraceState .runningState
      pure rc) := by
    apply Leads.bind
    · exact keeps_modify fun _ inv => inv
    intro _
    apply Leads.bind
    · exact keeps_modify fun _ inv => inv
    intro _
    apply (enableCsTrace_keeps holding_onRig (fun _ inv => inv) _).bind
    intro rc
    apply (keeps_require _ _).bind
    intro _
    apply Leads.bind
    · exact keeps_modify fun _ inv => inv
    · exact fun _ => keeps_pure rc
  apply Ensures.enclosed
  apply (ensures_bind _ _).mpr
  apply (ensures_require _ _).mpr
  simp only [StartAnswers.traceBufLeft, StartAnswers.ksightBufLeft, decide_eq_true_eq,
    decide_eq_false_iff_not]
  refine ⟨fun bound => ?_, fun unbound => ?_⟩
  · simp only [bound, true_and, if_true]
    apply (ensures_bind _ _).mpr
    apply (allocTraceBuf_holding none).mono
    · intro _ g₁ traced
      apply (ensures_bind _ _).mpr
      apply (ensures_when _ _).mpr
      refine ⟨fun on => ?_, fun off => ?_⟩
      · rw [if_pos on]
        apply (allocKsightBuf_holding traced).mono
        · exact fun _ g₂ held => rest _ _ g₂ held
        · exact fun _ _ held => held
      · rw [if_neg (Bool.eq_false_iff.mp off)]
        exact rest _ _ g₁ traced
    · exact fun _ _ held => held
  · rw [if_neg unbound, if_neg fun both => unbound both.1]
    exact none

end

/-! ## Calls on record -/

/-- `init_trace` has returned 0. -/
def Ready (events : List ApiEvent) : Prop := ∃ a, .returned (.initTrace a) 0 ∈ events

theorem ready_cons {events : List ApiEvent} (h : Ready events) (v : ApiEvent) :
    Ready (v :: events) := by
  obtain ⟨a, ha⟩ := h
  exact ⟨a, List.mem_cons_of_mem v ha⟩

theorem initFirst_tail {v : ApiEvent} {events : List ApiEvent} (h : InitFirst (v :: events)) :
    InitFirst events := by
  cases v with
  | called c => exact h.2
  | returned c rc => exact h

/-- A call before `init_trace` has returned 0 stays on record. -/
theorem enter_early {c : Api} (needs : c.needsInit = true) :
    Leads (fun h => ¬ Ready h.events) (fun h => ¬ InitFirst h.events) (enter e o c) := by
  intro h early
  apply ensures_enter.mpr
  have wrong : ¬ InitFirst (.called c :: h.events) := fun first => early (first.1 needs)
  exact ensures_const wrong _ _

theorem enter_keeps_early (c : Api) : Keeps (fun h => ¬ InitFirst h.events) (enter e o c) := by
  intro h wrong
  apply ensures_enter.mpr
  have still : ¬ InitFirst (.called c :: h.events) := fun first => wrong (initFirst_tail first)
  exact ensures_const still _ _

/-- All is well so far: `init_trace` has returned 0, and the library is open. -/
structure Clean (h : History) : Prop where
  clean : Open h.globals.rig
  entered : ∃ a, .called (.initTrace a) ∈ h.events
  ready : Ready h.events
  initFirst : InitFirst h.events

section
variable {h : History} {c : Api} {rest : List Api}

theorem Clean.called (clean : Clean h) (c : Api) : InitFirst (.called c :: h.events) :=
  ⟨fun _ => clean.ready, clean.initFirst⟩

/-- After a call that leaves the library open, all is still well. -/
theorem Clean.returned (clean : Clean h) {g : Globals} (still : Open g.rig) (c : Api) (rc : Int) :
    Clean ⟨g, .returned c rc :: .called c :: h.events⟩ := by
  refine ⟨still, ?_, ready_cons (ready_cons clean.ready _) _, clean.called c⟩
  obtain ⟨a, entered⟩ := clean.entered
  exact ⟨a, List.mem_cons_of_mem _ (List.mem_cons_of_mem _ entered)⟩

/-- In a call that dies while the library is open, it is never shut down. -/
theorem Clean.died (clean : Clean h) {g : Globals} (still : Open g.rig) (c : Api) :
    ¬ Obeyed ⟨g, .called c :: h.events⟩ := by
  rintro ⟨-, once⟩
  obtain ⟨a, entered⟩ := clean.entered
  have shut := once ⟨a, List.mem_cons_of_mem _ entered⟩
  rw [open_never_shut still] at shut
  cases shut

theorem lawful_returned {g : Globals} {rc : Int} (ran : c.body e o h.globals = .ok rc g) :
    Lawful e o (c :: rest) h ↔
      Lawful e o rest ⟨g, .returned c rc :: .called c :: h.events⟩ :=
  (ensures_bind _ _).trans (ensures_enter.trans (ensures_of_ok ran))

theorem lawful_died {g : Globals} {x : Exit} (ran : c.body e o h.globals = .error x g) :
    Lawful e o (c :: rest) h ↔ Obeyed ⟨g, .called c :: h.events⟩ :=
  (ensures_bind _ _).trans (ensures_enter.trans (ensures_of_error ran))

theorem lawful_nil : Lawful e o [] h ↔ Obeyed h := ensures_pure _

theorem not_lawful {calls : List Api}
    (wrong : Leaves (each calls (enter e o)) (fun h' => ¬ Obeyed h') h) : ¬ Lawful e o calls h :=
  fun lawful => lawful.excluded wrong (fun _ _ fine bad => bad fine) (fun _ _ fine bad => bad fine)

/-- Calls made before `init_trace` has returned 0. -/
theorem early_not_lawful (needs : c.needsInit = true) (later : List Api)
    (early : ¬ Ready h.events) : ¬ Lawful e o (c :: later) h := by
  have run : Leads (fun h => ¬ Ready h.events) (fun h => ¬ InitFirst h.events)
      (each (c :: later) (enter e o)) :=
    (enter_early needs).bind fun _ => keeps_each fun c _ => enter_keeps_early c
  have wrong {h : History} (wrong : ¬ InitFirst h.events) : ¬ Obeyed h :=
    fun fine => wrong fine.1.initFirst
  exact not_lawful ((run h early).mono (fun _ _ => wrong) (fun _ _ => wrong))

/-- After a `cs_shutdown` in `start_trace`, the library is used again. -/
theorem misused_not_lawful (shut : JustShut h.globals.rig) (board : ∃ b, h.globals.board = some b)
    (a : FiniAnswers) : ¬ Lawful e o [.stopTrace true, .finiTrace a] h := by
  have not {h' : History} (misused : Misused h'.globals.rig) : ¬ Obeyed h' :=
    fun fine => misused_not misused fine.1.shutdownLast
  apply not_lawful
  simp only [each, ensures_bind, ensures_pure, ensures_enter]
  apply (@stopTrace_misuses e h.globals ⟨shut, board⟩).mono
  · intro rc g misused
    apply finiTrace_before stable_misused a misused
    · intro g' still
      exact not (misused_cons still rfl)
    · intro x g' still
      exact not still
  · intro x g misused
    exact not misused

theorem Clean.fini_iff (clean : Clean h) (off : o.fetcherOn = false) (a : FiniAnswers) :
    Lawful e o [.finiTrace a] h ↔ a.fits o h.globals.traceBuf h.globals.ksightBuf = true := by
  have before : Ensures (finiTrace e o a)
      (fun _ g => ∃ g' : Globals, Open g'.rig ∧ g = { g' with rig := g'.rig.after e .shutdown })
      (fun _ g => Open g.rig) h.globals :=
    finiTrace_before stable_open a clean.clean (fun g' still => ⟨g', still, rfl⟩) fun _ _ still => still
  rw [← finiTrace_returns_iff (e := e) off]
  cases ran : finiTrace e o a h.globals with
  | ok rc g =>
    obtain ⟨g', still, rfl⟩ := (ensures_of_ok ran).mp before
    have shut := @shut_of_open _ (g'.rig.after e .shutdown) still rfl
    rw [lawful_returned (c := .finiTrace a) ran, ensures_of_ok ran, lawful_nil, iff_true]
    exact ⟨⟨clean.called _, shut.1⟩, fun _ => shut.2⟩
  | error x g =>
    rw [lawful_died (c := .finiTrace a) ran, ensures_of_error ran, iff_false]
    exact clean.died ((ensures_of_error ran).mp before) _

theorem Clean.stop_iff (clean : Clean h) (off : o.fetcherOn = false)
    (boards : Boards e h.globals) (a : FiniAnswers) :
    Lawful e o [.stopTrace true, .finiTrace a] h ↔
      Unshown e e.board e.devices h.globals.rig ∧
        a.fits o h.globals.traceBuf h.globals.ksightBuf = true := by
  have kept : Leaves (stopTrace e true)
      (fun g => Open g.rig ∧ Holding h.globals.traceBuf h.globals.ksightBuf g) h.globals :=
    (stopTrace_keeps stable_open (fun _ h => open_cons h rfl rfl) true _ clean.clean).and
      (stopTrace_holding true _ ⟨rfl, rfl⟩)
  have ends := not_congr (stopTrace_died_iff (e := e) boards.1)
  rw [not_not, boards.2] at ends
  cases ran : stopTrace e true h.globals with
  | ok rc g =>
    obtain ⟨still, trace, events⟩ := (ensures_of_ok ran).mp kept
    have unshown : Unshown e e.board e.devices h.globals.rig :=
      ends.mp fun died => died_not_ok died ran
    rw [lawful_returned (c := .stopTrace true) ran, and_iff_right unshown,
      (clean.returned still _ rc).fini_iff off, trace, events]
  | error x g =>
    rw [lawful_died (c := .stopTrace true) ran]
    have crashed : x = .crash := (ensures_of_error ran).mp (through_enclose _ h.globals)
    rw [crashed] at ran
    apply iff_of_false
    · exact clean.died ((ensures_of_error ran).mp kept).1 _
    · exact fun both => ends.mpr both.1 ⟨g, ran⟩

end

/-! ## The parent's calls -/

theorem loop_off {o : Parent.Options} (off : o.fetcherOn = false) {joins : Bool} {fuel w : Nat}
    {final : Parent.Exit} {statuses : List Nat} {calls : List Parent.Call}
    (run : Parent.loop o joins fuel w statuses = some (calls, final)) :
    calls = Parent.finishing o := by
  induction fuel generalizing w statuses calls with
  | zero => cases run
  | succ fuel ih =>
    simp only [Parent.loop] at run
    split at run
    · cases run
      rfl
    · obtain ⟨⟨later, _⟩, rest, eq⟩ := Option.map_eq_some_iff.mp run
      cases eq
      have quiet : Parent.callbacks o (Parent.waitpid w statuses).1 = [] := by
        unfold Parent.callbacks
        rw [off, dispatch_off]
        by_cases zero : (Parent.waitpid w statuses).1 = 0
        · rw [if_pos zero]
        · rw [if_neg zero]
      rw [quiet, ih rest, List.nil_append]

/-- Without the fetcher, `parent()` makes the calls of the first stop, if that
is the `SIGTRAP` stop, and those of the end. -/
theorem parent_off {o : Parent.Options} (off : o.fetcherOn = false) {joins : Bool} {self pid : Pid}
    {fuel w₀ w : Nat} {final : Parent.Exit} {rest : List Nat} {calls : List Parent.Call}
    (run : Parent.parent o joins self pid fuel w₀ (w :: rest) = some (calls, final)) :
    calls = (if wifstopped w && wstopsig w == sigtrap then Parent.starting o self pid else []) ++
      Parent.finishing o := by
  obtain ⟨⟨later, _⟩, looped, eq⟩ := Option.map_eq_some_iff.mp run
  cases eq
  rw [loop_off off looped]

theorem toApi_starting (a : Answers) (options : Parent.Options) (self pid : Pid) :
    (Parent.starting options self pid).filterMap (toApi a) =
      [.initTrace a.init, .startTrace pid true a.start] := by
  cases on : options.ksightOn <;> simp only [Parent.starting, on] <;> rfl

theorem toApi_finishing (a : Answers) (options : Parent.Options) :
    (Parent.finishing options).filterMap (toApi a) = [.stopTrace true, .finiTrace a.fini] := by
  cases on : options.ksightOn <;> simp only [Parent.finishing, on] <;> rfl

/-! ## The law -/

/-- From what `init_trace` leaves, `start_trace` does not get to the devices or
brings them up, and `stop_trace` shows no ETM after it. -/
structure Runs (e : Csal) (o : Settings) (a : StartAnswers) (pid : Pid) (g : Globals) : Prop where
  up : a.affinity < 0 ∨ ComesUp e g pid
  stops : ∀ rc g', startTrace e o pid true a g = .ok rc g' →
    Unshown e e.board e.devices g'.rig

/-- What follows an `init_trace` that returned 0. -/
theorem started_iff (off : o.fetcherOn = false) (a : Answers) {rig : Rig} (fresh : rig.calls = [])
    (pid : Pid) {g : Globals} (left : Initialised e a.init rig g) :
    Lawful e o [.startTrace pid true a.start, .stopTrace true, .finiTrace a.fini]
        ⟨g, [.returned (.initTrace a.init) 0, .called (.initTrace a.init)]⟩ ↔
      Runs e o a.start pid g ∧ a.fini.Inside o a.start := by
  have clean : Clean ⟨g, [.returned (.initTrace a.init) 0, .called (.initTrace a.init)]⟩ := by
    have noNeed : (Api.initTrace a.init).needsInit ≠ true := Bool.false_ne_true
    refine ⟨?_, ⟨a.init, by simp⟩, ⟨a.init, List.mem_cons_self⟩,
      ⟨fun needs => absurd needs noNeed, trivial⟩⟩
    rw [left.rig]
    exact open_cons (by simp [Open, fresh]) rfl rfl
  have buffers := startTrace_holding (e := e) (o := o) pid true a.start
    ⟨left.traceBuf, left.ksightBuf⟩
  have boards := startTrace_boards (e := e) (o := o) pid true a.start g ⟨left.board, left.devices⟩
  have opened (up : a.start.affinity < 0 ∨ ComesUp e g pid) :
      Ensures (startTrace e o pid true a.start) (fun _ g' => Open g'.rig) (fun _ _ => False) g := by
    by_cases bound : 0 ≤ a.start.affinity
    · have up := up.resolve_left (by omega)
      apply (startTrace_spec off pid a.start left.isFirstTrace clean.clean bound).mono
      · rintro _ g' (⟨_, still⟩ | ⟨down, _⟩)
        · exact still
        · exact absurd up down
      · exact fun _ _ died => died.2 up
    · apply (ensures_enclose _).mpr
      apply (ensures_bind _ _).mpr
      apply (ensures_require _ _).mpr
      exact ⟨fun yes => absurd (of_decide_eq_true yes) bound, fun _ => clean.clean⟩
  have shut (down : ¬ (a.start.affinity < 0 ∨ ComesUp e g pid)) :
      Ensures (startTrace e o pid true a.start)
        (fun _ g' => JustShut g'.rig ∧ g'.board = some e.board) (fun _ g' => Open g'.rig) g := by
    have bound : 0 ≤ a.start.affinity := by
      by_contra unbound
      exact down (.inl (by omega))
    apply (startTrace_spec off pid a.start left.isFirstTrace clean.clean bound).mono
    · rintro _ g' (⟨up, _⟩ | ⟨_, shut, board⟩)
      · exact absurd (.inr up) down
      · exact ⟨shut, board.trans left.board⟩
    · exact fun _ _ died => died.1
  cases ran : startTrace e o pid true a.start g with
  | ok rc g' =>
    rw [lawful_returned (e := e) (o := o) (h := ⟨g, _⟩) (c := .startTrace pid true a.start) ran]
    obtain ⟨trace, events⟩ := (ensures_of_ok ran).mp buffers
    by_cases up : a.start.affinity < 0 ∨ ComesUp e g pid
    · have still := (ensures_of_ok ran).mp (opened up)
      have found : Boards e g' := (ensures_of_ok ran).mp boards
      rw [(clean.returned still _ rc).stop_iff off found, trace, events, fits_iff]
      apply and_congr_left
      intro _
      constructor
      · intro stops
        refine ⟨up, fun rc' g'' ran' => ?_⟩
        rw [ran] at ran'
        cases ran'
        exact stops
      · exact fun runs => runs.stops rc g' ran
    · obtain ⟨shut, board⟩ := (ensures_of_ok ran).mp (shut up)
      apply iff_of_false
      · exact misused_not_lawful shut ⟨_, board⟩ a.fini
      · exact fun both => up both.1.up
  | error x g' =>
    rw [lawful_died (e := e) (o := o) (h := ⟨g, _⟩) (c := .startTrace pid true a.start) ran]
    by_cases up : a.start.affinity < 0 ∨ ComesUp e g pid
    · exact ((ensures_of_error ran).mp (opened up)).elim
    · apply iff_of_false
      · exact clean.died ((ensures_of_error ran).mp (shut up)) _
      · exact fun both => up both.1.up

/-- A session whose first stop was seen. -/
theorem lawful_iff (off : o.fetcherOn = false) (a : Answers) {rig : Rig} (fresh : rig.calls = [])
    (traceCpu : Int) (pid : Pid) :
    Lawful e o [.initTrace a.init, .startTrace pid true a.start, .stopTrace true,
        .finiTrace a.fini] (.initial rig traceCpu) ↔
      InitSucceeds e o a.init ∧
        (∀ g, initTrace e o a.init (.initial rig traceCpu) = .ok 0 g → Runs e o a.start pid g) ∧
        a.fini.Inside o a.start := by
  have init := @initTrace_spec e o off a.init rig fresh traceCpu
  obtain ⟨rc, g, ran, result⟩ := init.returns
  rw [lawful_returned (e := e) (o := o) (h := .initial rig traceCpu) (c := .initTrace a.init) ran]
  rcases result with ⟨succeeds, rfl, left⟩ | ⟨fails, nonzero⟩
  · rw [and_iff_right succeeds]
    refine (started_iff off a fresh pid left).trans (and_congr_left fun _ => ?_)
    constructor
    · intro runs g' ran'
      rw [ran] at ran'
      cases ran'
      exact runs
    · exact fun runs => runs g ran
  · apply iff_of_false
    · apply early_not_lawful rfl
      rintro ⟨b, hb⟩
      simp only [History.initial, List.mem_cons, List.not_mem_nil, or_false, reduceCtorEq,
        ApiEvent.returned.injEq] at hb
      exact nonzero hb.2.symm
    · exact fun both => fails both.1

/-- **When the calls come in order.** Without the fetcher, for a first wait
status `w` and any others after which `parent()` returns: the API is called
only after `init_trace` returned 0 and `cs_shutdown` is made once and last,
exactly when `w` is the `SIGTRAP` stop, every step of `init_trace` succeeds,
`start_trace` either fails to bind the tracee or gets the devices up,
`stop_trace` then shows no ETM, and what `fini_trace` stores and exports is mapped. -/
theorem typestate_iff (off : o.fetcherOn = false) (a : Answers) {rig : Rig} (fresh : rig.calls = [])
    (traceCpu : Int) {joins : Bool} {self pid : Pid} {fuel w₀ w : Nat} {final : Parent.Exit}
    {rest : List Nat} {calls : List Parent.Call}
    (run : Parent.parent o.toOptions joins self pid fuel w₀ (w :: rest) = some (calls, final)) :
    Lawful e o (calls.filterMap (toApi a)) (.initial rig traceCpu) ↔
      (wifstopped w = true ∧ wstopsig w = sigtrap) ∧ InitSucceeds e o a.init ∧
        (∀ g, initTrace e o a.init (.initial rig traceCpu) = .ok 0 g → Runs e o a.start pid g) ∧
        a.fini.Inside o a.start := by
  rw [parent_off off run, List.filterMap_append, toApi_finishing]
  by_cases trap : wifstopped w = true ∧ wstopsig w = sigtrap
  · rw [if_pos (by simp [trap]), toApi_starting]
    simp only [trap, and_self, true_and]
    exact lawful_iff off a fresh traceCpu pid
  · rw [if_neg (by simpa using trap)]
    simp only [trap, false_and, iff_false]
    apply early_not_lawful rfl
    rintro ⟨_, none⟩
    cases none

/-- What `init_trace` leaves on the ZCU-104. -/
theorem healthy_initialised {g : Globals}
    (ran : initTrace zcu104 plain healthy.init (.initial .idle (-1)) = .ok 0 g) :
    InitSucceeds zcu104 plain healthy.init ∧ Initialised zcu104 healthy.init .idle g := by
  have init := @initTrace_spec zcu104 plain rfl healthy.init .idle rfl (-1)
  rcases (ensures_of_ok ran).mp init with ⟨succeeds, -, left⟩ | ⟨-, nonzero⟩
  · exact ⟨succeeds, left⟩
  · exact absurd rfl nonzero

/-- On the ZCU-104, for a tracee that runs and exits, the law holds. -/
theorem typestate_healthy :
    Lawful zcu104 plain
      ((Parent.starting plain.toOptions 7 42 ++ Parent.finishing plain.toOptions).filterMap
        (toApi healthy)) (.initial .idle (-1)) := by
  have run : Parent.parent plain.toOptions false 7 42 2 0 [stopStatus sigtrap, exitStatus 0] =
      some (Parent.starting plain.toOptions 7 42 ++ Parent.finishing plain.toOptions, .left 0) := by
    decide
  apply (@typestate_iff zcu104 plain rfl healthy Rig.idle rfl (-1) _ _ _ _ _ _ _ _ _ run).mpr
  refine ⟨by decide, ⟨by decide, by decide, by decide, by decide⟩, ?_, ?_⟩
  · intro g ran
    have left := (healthy_initialised ran).2
    refine ⟨.inr ?_, fun _ g' _ => .inl (.inl (by decide))⟩
    rw [ComesUp, left.rig, left.board, left.devices, left.mapInfo, left.ram]
    decide +kernel
  · have roomy : healthy.fini.Roomy := fun _ _ => ⟨Nat.zero_le _, fun _ => Nat.zero_le _⟩
    constructor
    · exact fun unbound => absurd unbound (by decide)
    · exact fun _ none => absurd none (Option.some_ne_none _)
    · exact fun _ _ _ => .inr roomy
    · exact fun _ on => Bool.noConfusion on

/-- A byte is delivered to a buffer that could not be mapped. -/
def unmappedByte : Answers :=
  { healthy with
    start := { healthy.start with traceBuf := none }
    fini := { healthy.fini with fetch := ⟨1, fun _ => none, 1, [7]⟩ } }

/-- When `execvpe` fails, the first status is already the exit: `stop_trace`
and `fini_trace` are called although `init_trace` never was. And when the trace
buffer cannot be mapped, `fini_trace` dies before it shuts the library down. -/
theorem typestate_broken_by_exec :
    (∃ fuel calls, Parent.parent plain.toOptions false 7 42 fuel 0 [exitStatus 0] =
        some (calls, .left 0) ∧
      ¬ Lawful zcu104 plain (calls.filterMap (toApi healthy)) (.initial .idle (-1))) ∧
    ∃ fuel calls, Parent.parent plain.toOptions false 7 42 fuel 0
        [stopStatus sigtrap, exitStatus 0] = some (calls, .left 0) ∧
      ¬ Lawful zcu104 plain (calls.filterMap (toApi unmappedByte)) (.initial .idle (-1)) := by
  constructor
  · refine ⟨1, Parent.finishing plain.toOptions, by decide, ?_⟩
    rw [toApi_finishing]
    apply early_not_lawful rfl
    rintro ⟨_, none⟩
    exact List.not_mem_nil none
  · refine ⟨2, Parent.starting plain.toOptions 7 42 ++ Parent.finishing plain.toOptions, by decide, ?_⟩
    rw [List.filterMap_append, toApi_starting, toApi_finishing]
    intro lawful
    obtain ⟨-, -, inside⟩ := (lawful_iff rfl unmappedByte rfl (-1) 42).mp lawful
    have none : ([7] : List UInt8) = [] := (inside.unmapped (by decide) rfl).1
    cases none

end Ultrasight.Session
