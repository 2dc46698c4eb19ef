import Ultrasight.Config
import Ultrasight.Ksight
import Ultrasight.Parent
import Ultrasight.TraceState

/-!
# Trace sessions

The functions of `common.h` on the global variables of `common.c`, one after
the other as a single thread calls them: locks and the fetcher thread are left
to the handshake. What the system answers is an argument of each call.

* `initTrace`, `startTrace`, `fetchTrace`, `stopTrace` and `finiTrace` are the
  functions of the API;
* `Api` is a call of one of them, and `enter` makes it and puts it on record;
* `step` admits the calls in the order that the comments ask for.
-/

namespace Ultrasight.Session

open Fn TraceBuffer Ksight
open Parent (Pid)

def defaultTraceCpu : Int := 0
def traceDisableTrial : Nat := 8

structure Settings extends Parent.Options where
  exportConfig : Bool

/-- The global variables. `map_info` has `RANGE_MAX`, that is one, element.
`exported` and `exportedKsight` are the files written, `fetched` is a record of
the chunks stored by `fetch_trace`. -/
structure Globals where
  rig : Rig
  board : Option Board
  devices : Devices
  etrRam : BitVec 64 × BitVec 64
  rangeCount : Int
  mapInfo : MapInfo
  traceCpu : Int
  traceId : Int
  childPid : Pid
  isFirstTrace : Bool
  traceState : TraceState
  traceEvent : TraceEvent
  traceBuf : Buf
  ksightBuf : Buf
  exported : Option (List UInt8)
  exportedKsight : Option (List UInt8)
  fetched : List (List UInt8)

/-- The program starts on devices in some state, with the CPU its command line
chose or -1. -/
def Globals.initial (rig : Rig) (traceCpu : Int) : Globals where
  rig := rig
  board := none
  devices := .zero
  etrRam := (0, 0)
  rangeCount := 0
  mapInfo := ⟨0, 0⟩
  traceCpu := traceCpu
  traceId := -1
  childPid := -1
  isFirstTrace := true
  traceState := .initState
  traceEvent := .initEvent
  traceBuf := .null
  ksightBuf := .null
  exported := none
  exportedKsight := none
  fetched := []

/-- What `get_udmabuf_info` returns, and what it has stored by then: an address
and a size, each as soon as it was read. -/
structure UdmabufAnswer where
  rc : Int
  physAddr : Option (BitVec 64)
  size : Option (BitVec 64)

/-- The variables after it. -/
def UdmabufAnswer.stored (u : UdmabufAnswer) (ram : BitVec 64 × BitVec 64) :
    BitVec 64 × BitVec 64 := (u.physAddr.getD ram.1, u.size.getD ram.2)

/-- What `init_trace` is told: CPU numbers, whether `/sys` and `/proc` could be
read and what was found there. -/
structure InitAnswers where
  preferredCpu : Int
  freeCpu : Int
  udmabuf : UdmabufAnswer
  ksightInfo : Bool
  rangeCount : Int
  mapInfo : MapInfo
  pthreadCreate : Int

/-- What `start_trace` is told: the result of `set_cpu_affinity`, where `mmap`
places the buffers, and the size of the ETR if the fetcher thread has asked for it
by now. -/
structure StartAnswers where
  affinity : Int
  traceBuf : Option (Placement defaultTraceSize.toNat)
  ksightBuf : Option (Placement defaultTraceSize.toNat)
  etrSize : Option (BitVec 64)

/-- What `fini_trace` is told: whether the fetcher thread returns, the answers to
its fetches, and whether the files could be opened. -/
structure FiniAnswers where
  joined : Bool
  fetch : Fetch
  exportOpened : Bool
  ksightOpened : Bool
  ksightRemap : Remap
  ksightQueue : List Event
  ksightExportOpened : Bool

/-! ## The functions of `common.c` -/

/-- Work on the devices. -/
def onRig {α : Type} (x : Fn Rig α) : Fn Globals α := zoom Globals.rig (fun r g => { g with rig := r }) x

def setTraceState (new : TraceState) : Fn Globals Unit := modify fun g =>
  { g with traceState := new, traceEvent := (signalled g.traceState new).getD g.traceEvent }

/-- A buffer variable after a failed `mmap`: nothing is mapped at `MAP_FAILED`. -/
def unmapped (b : Buf) : Buf := { b with buf := -1, region := ⟨0, []⟩ }

def allocTraceBuf (placed : Option (Placement defaultTraceSize.toNat)) : Fn Globals Unit :=
  modify fun g =>
    { g with traceBuf := match placed with
        | some p => TraceBuffer.allocTraceBuf p
        | none => unmapped g.traceBuf }

def allocKsightBuf (placed : Option (Placement defaultTraceSize.toNat)) : Fn Globals Unit :=
  modify fun g =>
    { g with ksightBuf := match placed with
        | some p => Ksight.allocKsightBuf p
        | none => unmapped g.ksightBuf }

/-- A join that does not return is an end like the death of the process: nothing
comes after it. -/
def pthreadJoin (returns : Bool) : Fn Globals Unit := assert returns

/-- `munmap`, and the position set to `NULL`. -/
def freeBuf (b : Buf) : Buf := if b.buf = 0 then b else { b with ptr := 0, region := ⟨0, []⟩ }

/-- The bytes that `fwrite` reads are mapped. -/
def readable (b : Buf) : Bool :=
  b.ptr == b.buf ||
    b.region.base == b.buf && decide ((b.ptr - b.buf).toNat ≤ b.region.bytes.length)

theorem holds_readable {b : Buf} {content : List UInt8} (h : b.Holds content) :
    readable b = true := by
  have fits := h.room
  simp only [readable, h.base, h.used, h.length, beq_self_eq_true, Bool.true_and, Bool.or_eq_true]
  exact .inr (decide_eq_true fits)

section
variable (e : Csal) (o : Settings)

/-- The branch of `enable_cs_trace` for the first trace. -/
def enableFirst (pid : Pid) : Fn Globals Unit := do
  let g ← get
  let rc ← onRig (configureTrace e g.board g.devices g.mapInfo pid)
  require (0 ≤ rc) (-1)
  let rc ← onRig (enableTrace e g.board g.devices g.etrRam)
  require (0 ≤ rc) (-1)
  modify fun g => { g with isFirstTrace := false }

/-- The other branch: the ETMs are taken to be enabled already. -/
def enableAgain : Fn Globals Unit := do
  let g ← get
  let rc ← onRig (enableTraceSinksOnly e g.devices)
  require (0 ≤ rc) (-1)

/-- The body of `enable_cs_trace` up to its label `exit`. -/
def enableComponents (pid : Pid) : Fn Globals Int := enclose do
  let g ← get
  bif g.isFirstTrace then enableFirst e pid else enableAgain e
  when o.exportConfig (onRig (call e .dumpConfig))
  pure 0

def enableCsTrace (pid : Pid) : Fn Globals Int := do
  let rc ← enableComponents e o pid
  when (rc < 0) (onRig (call e .shutdown))
  pure rc

/-- One of the two functions that `disable_cs_trace` tries. -/
def disableAttempt (disableAll : Bool) : Fn Globals Int := do
  let g ← get
  if disableAll then onRig (disableTrace e g.board g.devices)
  else onRig (disableTraceSinksOnly e g.devices)

/-- The `while` loop of `disable_cs_trace`; `ret` is the variable of that name. -/
def disableLoop (disableAll : Bool) : Nat → Int → Fn Globals Int
  | 0, ret => pure ret
  | trials + 1, _ => do
    let ret ← disableAttempt e disableAll
    if 0 ≤ ret then pure ret
    else do
      onRig csResetErrorCount
      disableLoop disableAll trials ret

def disableCsTrace (disableAll : Bool) : Fn Globals Int :=
  disableLoop e disableAll traceDisableTrial (-1)

def fetchTrace (f : Fetch) : Fn Globals Int := enclose do
  let g ← get
  onRig (call e (.getBufferUnreadBytes g.devices.etb))
  match TraceBuffer.fetchTrace f g.traceBuf with
  | .error _ => do
    onRig (call e (.getTraceData g.devices.etb))
    crash
  | .ok (rc, b) => do
    modify fun g => { g with traceBuf := b }
    require (0 ≤ rc) rc
    onRig (call e (.getTraceData g.devices.etb))
    onRig (call e (.emptyTraceBuffer g.devices.etb))
    modify fun g => { g with fetched := g.fetched ++ [f.data] }
    pure 0

/-- The beginning of `fetcher_worker`, as far as the other thread has come: a size
that was not reported is asked of the ETR. -/
def fetcherSize (size : Option (BitVec 64)) : Fn Globals Unit := modify fun g =>
  { g with etrRam :=
      if o.fetcherOn && g.etrRam.2 == 0 then (g.etrRam.1, size.getD 0) else g.etrRam }

def startTrace (pid : Pid) (usePidTrace : Bool) (a : StartAnswers) : Fn Globals Int := enclose do
  require (0 ≤ a.affinity) a.affinity
  allocTraceBuf a.traceBuf
  when o.ksightOn (allocKsightBuf a.ksightBuf)
  modify fun g => { g with childPid := pid }
  fetcherSize o a.etrSize
  let rc ← enableCsTrace e o (if usePidTrace then pid else 0)
  require (0 ≤ rc) rc
  setTraceState .runningState
  pure rc

def stopTrace (disableAll : Bool) : Fn Globals Int := enclose do
  let rc ← disableCsTrace e disableAll
  require (0 ≤ rc) rc
  setTraceState .readyState
  pure rc

/-- The choice of a CPU in `init_trace`. The variable is assigned the result of
the comparison `find_free_cpu() < 0`. -/
def selectTraceCpu (a : InitAnswers) (traceCpu : Int) : Int :=
  if traceCpu < 0 then
    let preferredCpu :=
      if a.preferredCpu < 0 then (if a.freeCpu < 0 then 1 else 0) else a.preferredCpu
    if 0 ≤ preferredCpu then preferredCpu else defaultTraceCpu
  else traceCpu

/-- The `int` of the source overflows from CPU `2 ^ 31 - 16` on, where C leaves the
result open. -/
def getTraceId (cpu : Int) : Int := 0x10 + cpu

/-- `setup_named_board`, a function of the library. -/
def setupNamedBoard : Fn Globals Int := do
  let rc ← onRig (op e .setupNamedBoard)
  when (0 ≤ rc) (modify fun g => { g with board := some e.board, devices := e.devices })
  pure rc

/-- The body of `init_trace` up to its label `exit`. -/
def initComponents (a : InitAnswers) : Fn Globals Int := enclose do
  modify fun g => { g with traceCpu := selectTraceCpu a g.traceCpu }
  modify fun g => { g with etrRam := a.udmabuf.stored g.etrRam }
  require (0 ≤ a.udmabuf.rc) (-1)
  require (!o.ksightOn || a.ksightInfo) (-1)
  modify fun g =>
    { g with rangeCount := a.rangeCount, mapInfo := if 0 < a.rangeCount then a.mapInfo else g.mapInfo }
  require (0 ≤ a.rangeCount) (-1)
  let rc ← setupNamedBoard e
  require (0 ≤ rc) (-1)
  -- From here on `ret` holds the result of `pthread_create`.
  require (!o.fetcherOn || a.pthreadCreate == 0) a.pthreadCreate
  modify fun g => { g with traceId := getTraceId g.traceCpu }
  let g ← get
  require (0 ≤ g.traceId) (if o.fetcherOn then 0 else -1)
  setTraceState .readyState
  pure 0

def initTrace (a : InitAnswers) : Fn Globals Int := do
  let rc ← initComponents e o a
  when (rc != 0) (onRig (call e .shutdown))
  pure rc

/-- `export_trace` or `export_ksight`: a file is written if it can be opened. -/
def exportBuf (opened : Bool) (b : Globals → Buf) (write : List UInt8 → Globals → Globals) :
    Fn Globals Unit := do
  let g ← get
  when opened do
    assert (readable (b g))
    modify (write (b g).contents)

def exportTrace (opened : Bool) : Fn Globals Unit :=
  exportBuf opened Globals.traceBuf fun content g => { g with exported := some content }

def exportKsight (opened : Bool) : Fn Globals Unit :=
  exportBuf opened Globals.ksightBuf fun content g => { g with exportedKsight := some content }

def fetchKsightEvents (a : FiniAnswers) : Fn Globals Unit := do
  let g ← get
  match Ksight.fetchKsightEvents a.ksightOpened a.ksightRemap a.ksightQueue g.ksightBuf with
  | .error _ => crash
  | .ok (_, d) => modify fun g => { g with ksightBuf := d.buf }

def freeTraceBuf : Fn Globals Unit := do
  let g ← get
  when (g.devices.etb != 0) (onRig (call e (.emptyTraceBuffer g.devices.etb)))
  modify fun g => { g with traceBuf := freeBuf g.traceBuf }

/-- With the fetcher on, the last fetch is the fetcher thread's, which is waited for. -/
def lastFetch (a : FiniAnswers) : Fn Globals Unit :=
  if o.fetcherOn then do
    setTraceState .finiState
    pthreadJoin a.joined
  else do
    let _ ← fetchTrace e a.fetch
    pure ()

def finiTrace (a : FiniAnswers) : Fn Globals Int := do
  lastFetch e o a
  exportTrace a.exportOpened
  when o.ksightOn do
    fetchKsightEvents a
    exportKsight a.ksightExportOpened
    modify fun g => { g with ksightBuf := freeBuf g.ksightBuf }
  freeTraceBuf e
  onRig (call e .shutdown)
  pure 0

end

/-! ## Rules -/

section
variable {e : Csal}

theorem onRig_leads {α : Type} {P Q : Rig → Prop} {x : Fn Rig α} (h : Leads P Q x) :
    Leads (fun g => P g.rig) (fun g => Q g.rig) (onRig x) :=
  h.zoom fun _ _ => rfl

variable {P Q : Globals → Prop} {all : Bool}

theorem disableLoop_keeps (attempt : Keeps Q (disableAttempt e all))
    (reset : Keeps Q (onRig csResetErrorCount)) (trials : Nat) (ret : Int) :
    Keeps Q (disableLoop e all trials ret) := by
  induction trials generalizing ret with
  | zero => exact keeps_pure _
  | succ trials ih =>
    refine attempt.bind fun ret => ?_
    split
    · exact keeps_pure _
    · exact reset.bind fun _ => ih ret

/-- What the first attempt to disable leads to, the others keep. -/
theorem disableCsTrace_leads (first : Leads P Q (disableAttempt e all))
    (attempt : Keeps Q (disableAttempt e all)) (reset : Keeps Q (onRig csResetErrorCount)) :
    Leads P Q (disableCsTrace e all) := by
  refine first.bind fun ret => ?_
  split
  · exact keeps_pure _
  · exact reset.bind fun _ => disableLoop_keeps attempt reset _ ret

theorem stopTrace_leads (first : Leads P Q (disableAttempt e all))
    (attempt : Keeps Q (disableAttempt e all)) (reset : Keeps Q (onRig csResetErrorCount))
    (state : Keeps Q (setTraceState .readyState)) : Leads P Q (stopTrace e all) := by
  apply Leads.enclose
  refine (disableCsTrace_leads first attempt reset).bind fun rc => ?_
  refine (keeps_require _ _).bind fun _ => ?_
  exact state.bind fun _ => keeps_pure _

end

/-! ## The API -/

/-- A call of the API, with what the system answers to it. -/
inductive Api where
  | initTrace (a : InitAnswers)
  | startTrace (pid : Pid) (usePidTrace : Bool) (a : StartAnswers)
  | fetchTrace (f : Fetch)
  | traceSuspendCallback
  | traceResumeCallback
  | stopTrace (disableAll : Bool)
  | finiTrace (a : FiniAnswers)

/-- Functions without a result return 0. -/
def Api.body (e : Csal) (o : Settings) : Api → Fn Globals Int
  | .initTrace a => Session.initTrace e o a
  | .startTrace pid use a => Session.startTrace e o pid use a
  | .fetchTrace f => Session.fetchTrace e f
  | .traceSuspendCallback => do
    setTraceState .suspendedState
    pure 0
  | .traceResumeCallback => do
    setTraceState .runningState
    pure 0
  | .stopTrace all => Session.stopTrace e all
  | .finiTrace a => Session.finiTrace e o a

inductive ApiEvent where
  | called (c : Api)
  | returned (c : Api) (rc : Int)

/-- The variables and the record of the calls, newest first. -/
structure History where
  globals : Globals
  events : List ApiEvent

def History.initial (rig : Rig) (traceCpu : Int) : History := ⟨.initial rig traceCpu, []⟩

def History.log (v : ApiEvent) (h : History) : History := { h with events := v :: h.events }

/-- Make a call and put it on record. -/
def enter (e : Csal) (o : Settings) (c : Api) : Fn History Unit := do
  modify (History.log (.called c))
  let rc ← zoom History.globals (fun g h => { h with globals := g }) (c.body e o)
  modify (History.log (.returned c rc))

/-- What the comments on the functions allow: `init_trace` first and once,
sessions from `start_trace` to `stop_trace` after it, `fini_trace` after all of
them, and fetches whenever a session runs. -/
def admits : List ApiEvent → Api → Bool
  | [], .initTrace _ => true
  | .returned (.initTrace _) rc :: _, .startTrace .. | .returned (.initTrace _) rc :: _, .finiTrace _ =>
    rc == 0
  | .returned (.stopTrace _) _ :: _, .startTrace .. | .returned (.stopTrace _) _ :: _, .finiTrace _ =>
    true
  | .returned (.startTrace ..) _ :: _, .fetchTrace _
  | .returned (.startTrace ..) _ :: _, .stopTrace _
  | .returned (.fetchTrace _) _ :: _, .fetchTrace _
  | .returned (.fetchTrace _) _ :: _, .stopTrace _ => true
  | _, _ => false

/-- One call in a run; there is no next state when the process dies in it. -/
def step (e : Csal) (o : Settings) (h : History) (c : Api) : Option History :=
  if admits h.events c then
    match enter e o c h with
    | .ok _ h' => some h'
    | .error _ _ => none
  else none

section
variable {e : Csal} {o : Settings} {c : Api} {h : History}

theorem ensures_enter {Q : Unit → History → Prop} {E : Exit → History → Prop} :
    Ensures (enter e o c) Q E h ↔
      Ensures (c.body e o) (fun rc g => Q () ⟨g, .returned c rc :: .called c :: h.events⟩)
        (fun x g => E x ⟨g, .called c :: h.events⟩) h.globals := by
  simp only [enter, ensures_bind, ensures_modify, ensures_zoom]
  exact Iff.rfl

theorem step_eq : step e o h c =
    if admits h.events c then
      match c.body e o h.globals with
      | .ok rc g => some ⟨g, .returned c rc :: .called c :: h.events⟩
      | .error _ _ => none
    else none := by
  simp only [step, enter, bind, EStateM.bind, zoom, modify_run, History.log]
  cases c.body e o h.globals <;> rfl

/-- What a call ensures holds after the step that makes it. -/
theorem step_ensures {P : History → Prop} {E : Exit → Globals → Prop} {h' : History}
    (moved : step e o h c = some h')
    (body : Ensures (c.body e o) (fun rc g => P ⟨g, .returned c rc :: .called c :: h.events⟩) E
      h.globals) : admits h.events c = true ∧ P h' := by
  unfold step at moved
  split at moved
  · rename_i admitted
    refine ⟨admitted, ?_⟩
    have entered : Ensures (enter e o c) (fun _ => P) (fun x h' => E x h'.globals) h :=
      ensures_enter.mpr body
    cases ran : enter e o c h with
    | ok _ t =>
      rw [ran] at moved
      cases moved
      exact (ensures_of_ok ran).mp entered
    | error _ t => rw [ran] at moved; cases moved
  · cases moved

end

/-- What the system answers in a run with one session. -/
structure Answers where
  init : InitAnswers
  start : StartAnswers
  fini : FiniAnswers

/-- Answers under which everything works. -/
def healthy : Answers where
  init := ⟨1, 2, ⟨0, some 0x70000000, some 0x80000⟩, true, 1, ⟨0x400000, 0x401000⟩, 0⟩
  start := ⟨0, some TraceBuffer.somewhere, none, none⟩
  fini := ⟨true, ⟨0, fun _ => none, 0, []⟩, true, false, fun _ => none, [], false⟩

def plain : Settings := ⟨⟨false, false⟩, false⟩

end Ultrasight.Session
