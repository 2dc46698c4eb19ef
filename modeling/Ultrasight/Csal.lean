import Ultrasight.Functions

/-!
# The CoreSight access library

The tracer drives its devices through CSAL, which is not part of the
repository. Here it is an environment: `Csal.answer` decides how each call
turns out, given the calls before it, and a call that succeeds has the effect
on the devices that its name says.

* `Rig` is the state of the devices, with the log of all calls;
* `CsCall.perform` is the effect of each call;
* `op` makes a call and returns its result.
-/

namespace Ultrasight

open Fn

/-- A CSAL descriptor; 0 is `NULL`. -/
abbrev Dev := Nat

def csErrdesc : Dev := 0

inductive TmcMode where
  | circularBuffer | swFifo | hwFifo
  deriving DecidableEq

/-- The RAM area and AXI control value that an ETR is set up with. -/
structure EtrRam where
  addr : BitVec 64
  size : BitVec 64
  axictl : BitVec 32
  deriving DecidableEq

inductive EtbReg where
  | flfmtCtrl | status
  deriving DecidableEq

/-- `struct board`, as far as it is read. -/
structure Board where
  nCpu : Nat
  etrAxictl : BitVec 32

/-- `struct cs_devices_t`, but for `ptm`; its `num_trace_sinks` is the length of
the list. -/
structure Devices where
  etb : Dev
  itm : Dev
  tpiu : Dev
  traceSinks : List Dev

/-- Before `setup_named_board`. -/
def Devices.zero : Devices := ⟨0, 0, 0, []⟩

/-- Everything the trace is collected in. -/
def Devices.sinks (d : Devices) : List Dev := d.etb :: d.tpiu :: d.traceSinks

/-! ## ETM configurations -/

/-- The bits of `configr` that the code writes, and the others. -/
structure Configr where
  vmid : Bool
  cid : Bool
  rs : Bool
  bb : Bool
  cci : Bool
  other : BitVec 27
  deriving DecidableEq

structure AdrCmp where
  acvrL : BitVec 32
  acvrH : BitVec 32
  acatrL : BitVec 32
  deriving DecidableEq

structure CxidCmp where
  cidcvrL : BitVec 32
  cidcvrH : BitVec 32
  deriving DecidableEq

/-- The registers of an ETMv4. -/
structure EtmRegs where
  configr : Configr
  stallcrlr : BitVec 32
  syncpr : BitVec 32
  victlr : BitVec 32
  viiectlr : BitVec 32
  vissctlr : BitVec 32
  eventctlr0r : BitVec 32
  eventctlr1r : BitVec 32
  cidcctlr0 : BitVec 32
  cxidComps : Nat → CxidCmp
  addrComps : Nat → AdrCmp

/-- All registers zero. -/
def EtmRegs.zero : EtmRegs :=
  ⟨⟨false, false, false, false, false, 0⟩, 0, 0, 0, 0, 0, 0, 0, 0, fun _ => ⟨0, 0⟩,
    fun _ => ⟨0, 0, 0⟩⟩

/-- The context ID that comparator 0 holds. -/
def EtmRegs.cid (r : EtmRegs) : BitVec 64 :=
  (r.cxidComps 0).cidcvrH ++ (r.cxidComps 0).cidcvrL

/-- `CS_ETMC_*`: the groups of registers a configuration is about. -/
structure EtmFlags where
  config : Bool
  traceEnable : Bool
  eventselect : Bool
  cxidComp : Bool
  addrComp : Bool
  deriving DecidableEq

/-- `cs_etmv4_config_t`. -/
structure EtmConfig where
  flags : EtmFlags
  regs : EtmRegs
  cxidCompsAccMask : BitVec 32
  addrCompsAccMask : BitVec 32

namespace EtmConfig

/-- What `cs_etm_config_init_ex` fills in. -/
def init : EtmConfig := ⟨⟨false, false, false, false, false⟩, .zero, 0, 0⟩

/-- `dst` with the groups that `c` selects taken from `src`; of the comparators,
those in the masks. -/
def copy (c : EtmConfig) (src dst : EtmRegs) : EtmRegs where
  configr := if c.flags.config then src.configr else dst.configr
  stallcrlr := if c.flags.config then src.stallcrlr else dst.stallcrlr
  syncpr := if c.flags.config then src.syncpr else dst.syncpr
  victlr := if c.flags.traceEnable then src.victlr else dst.victlr
  viiectlr := if c.flags.traceEnable then src.viiectlr else dst.viiectlr
  vissctlr := if c.flags.traceEnable then src.vissctlr else dst.vissctlr
  eventctlr0r := if c.flags.eventselect then src.eventctlr0r else dst.eventctlr0r
  eventctlr1r := if c.flags.eventselect then src.eventctlr1r else dst.eventctlr1r
  cidcctlr0 := if c.flags.cxidComp then src.cidcctlr0 else dst.cidcctlr0
  cxidComps i :=
    if c.flags.cxidComp && c.cxidCompsAccMask.getLsbD i then src.cxidComps i else dst.cxidComps i
  addrComps i :=
    if c.flags.addrComp && c.addrCompsAccMask.getLsbD i then src.addrComps i else dst.addrComps i

/-- `cs_etm_config_get_ex`. -/
def get (c : EtmConfig) (hw : EtmRegs) : EtmConfig := { c with regs := c.copy hw c.regs }

/-- `cs_etm_config_put_ex`. -/
def put (c : EtmConfig) (hw : EtmRegs) : EtmRegs := c.copy c.regs hw

end EtmConfig

/-! ## Calls -/

/-- The calls the tracer makes, with the arguments that matter. -/
inductive CsCall where
  | setupNamedBoard
  | disableTpiu
  | sinkEnable (d : Dev)
  | sinkDisable (d : Dev)
  | sinkIsEnabled (d : Dev)
  | sinkEtrSetup (d : Dev) (ram : EtrRam)
  | sinkEtfSetup (d : Dev) (mode : TmcMode)
  | tmcHwFifoEnable (d : Dev) (bufwm : BitVec 32)
  | traceEnable (d : Dev)
  | traceDisable (d : Dev)
  | traceSwstimEnableAllPorts (d : Dev)
  | traceSwstimSetSyncRepeat (d : Dev) (rate : BitVec 32)
  | cpuGetDevice (cpu : Nat)
  | setTraceSourceId (d : Dev) (id : Nat)
  | deviceHasClass (d : Dev)
  | etmGetVersion (d : Dev)
  | etmClean (d : Dev)
  | etmConfigInit (d : Dev)
  | etmConfigGet (d : Dev)
  | etmConfigPut (d : Dev) (config : EtmConfig)
  | deviceRead (d : Dev) (reg : EtbReg)
  | deviceWrite (d : Dev) (reg : EtbReg) (val : BitVec 32)
  | deviceWait (d : Dev) (reg : EtbReg)
  | checkpoint
  | ctiDiag
  | errorCount
  | resetErrorCount
  | dumpConfig
  | getBufferUnreadBytes (d : Dev)
  | getTraceData (d : Dev)
  | emptyTraceBuffer (d : Dev)
  | shutdown

namespace CsCall

def isShutdown : CsCall → Bool
  | .shutdown => true
  | _ => false

/-- The device that a call switches on. -/
def enables : CsCall → Option Dev
  | .sinkEnable d | .tmcHwFifoEnable d _ | .traceEnable d => some d
  | _ => none

/-- The device that a call switches off. -/
def disables : CsCall → Option Dev
  | .sinkDisable d | .traceDisable d => some d
  | _ => none

/-- The ETM whose registers a call writes. -/
def programs : CsCall → Option Dev
  | .etmClean d | .etmConfigPut d _ => some d
  | _ => none

end CsCall

/-- What a call returns and by how much it raises CSAL's error count. -/
structure Answer where
  rc : Int
  errors : Nat
  deriving DecidableEq

/-- The library on a given machine, and the macros of its headers. -/
structure Csal where
  answer : List CsCall → CsCall → Answer
  /-- What `setup_named_board` finds. -/
  board : Board
  devices : Devices
  /-- The trace source of each CPU. -/
  source : Nat → Dev
  isSource : Dev → Bool
  /-- `CS_ETMVERSION_MAJOR` and `CS_ETMVERSION_IS_ETMV4` of the ETM's version. -/
  etmMajor : Dev → Nat
  isEtmv4 : Dev → Bool
  etmv4 : ∀ d, isEtmv4 d = true → 4 ≤ etmMajor d
  vmidsize : Dev → Nat
  cidsize : Dev → Nat
  /-- What `cs_etm_clean` leaves of an ETM's registers. -/
  clean : EtmRegs → EtmRegs
  /-- `CS_ETMV4_ACATR_ExEL0_S | … | CS_ETMV4_ACATR_ExEL2_NS`. -/
  excludedLevels : BitVec 32
  /-- `CS_ETB_FLFMT_CTRL_FOnMan` and `CS_ETB_FLFMT_CTRL_StopFl`. -/
  fOnMan : BitVec 32
  stopFl : BitVec 32
  registrationVerbose : Int

/-- Every call succeeds and raises no error. -/
def Csal.Succeeds (e : Csal) : Prop := ∀ before c, e.answer before c = ⟨0, 0⟩

/-! ## The devices -/

/-- The devices, CSAL's error count, the log of calls (newest first), and
`ptm`, the one member of `struct cs_devices_t` that the tracer writes. -/
structure Rig where
  ptm : Nat → Dev
  enabled : Dev → Bool
  mode : Dev → Option TmcMode
  ram : Dev → Option EtrRam
  etm : Dev → EtmRegs
  reg : Dev → EtbReg → BitVec 32
  errorCount : Nat
  calls : List CsCall

/-- The effect of a call that succeeds. -/
def CsCall.perform (e : Csal) (c : CsCall) (r : Rig) : Rig :=
  match c with
  | .sinkEnable d | .tmcHwFifoEnable d _ | .traceEnable d =>
    { r with enabled := Function.update r.enabled d true }
  | .sinkDisable d | .traceDisable d => { r with enabled := Function.update r.enabled d false }
  | .sinkEtrSetup d ram => { r with ram := Function.update r.ram d (some ram) }
  | .sinkEtfSetup d mode => { r with mode := Function.update r.mode d (some mode) }
  | .etmClean d => { r with etm := Function.update r.etm d (e.clean (r.etm d)) }
  | .etmConfigPut d config => { r with etm := Function.update r.etm d (config.put (r.etm d)) }
  | .deviceWrite d reg val =>
    { r with reg := Function.update r.reg d (Function.update (r.reg d) reg val) }
  | _ => r

namespace Rig

def log (c : CsCall) (r : Rig) : Rig := { r with calls := c :: r.calls }

/-- After a call: logged, its errors counted, and performed if it succeeded. -/
def after (e : Csal) (c : CsCall) (r : Rig) : Rig :=
  let a := e.answer r.calls c
  { (if a.rc = 0 then c.perform e r else r) with
    errorCount := r.errorCount + a.errors, calls := c :: r.calls }

/-- The calls of `cs_shutdown` so far. -/
def shutdowns (r : Rig) : Nat := r.calls.countP CsCall.isShutdown

end Rig

/-- Devices that nothing was done with. -/
def Rig.idle : Rig :=
  ⟨fun _ => 0, fun _ => false, fun _ => none, fun _ => none, fun _ => .zero, fun _ _ => 0, 0, []⟩

/-- The ZCU-104 as `do_registration_zcu104` sets it up, when every call
succeeds: the ETR, the STM, the TPIU, two ETFs and the ETMs of four CPUs. -/
def zcu104 : Csal where
  answer _ _ := ⟨0, 0⟩
  board := ⟨4, 0⟩
  devices := ⟨1, 2, 3, [4, 5]⟩
  source i := 6 + i
  isSource d := d == 2 || 5 < d
  etmMajor _ := 4
  isEtmv4 _ := true
  etmv4 _ _ := Nat.le_refl 4
  vmidsize _ := 1
  cidsize _ := 4
  clean r := r
  excludedLevels := 0x7700
  fOnMan := 0x40
  stopFl := 0x1000
  registrationVerbose := 0

section
variable (e : Csal)

/-- One call with its result. -/
def op (c : CsCall) : Fn Rig Int := fun r => .ok (e.answer r.calls c).rc (r.after e c)

/-- One call whose result is not looked at. -/
def call (c : CsCall) : Fn Rig Unit := fun r => .ok () (r.after e c)

def csCpuGetDevice (cpu : Nat) : Fn Rig Dev := do
  let rc ← op e (.cpuGetDevice cpu)
  pure (if rc = 0 then e.source cpu else csErrdesc)

def csDeviceHasClass (d : Dev) : Fn Rig Bool := do
  call e (.deviceHasClass d)
  pure (e.isSource d)

def csSinkIsEnabled (d : Dev) : Fn Rig Bool := do
  call e (.sinkIsEnabled d)
  let r ← get
  pure (r.enabled d)

def csDeviceRead (d : Dev) (reg : EtbReg) : Fn Rig (BitVec 32) := do
  call e (.deviceRead d reg)
  let r ← get
  pure (r.reg d reg)

def csEtmConfigInitEx (d : Dev) : Fn Rig EtmConfig := do
  call e (.etmConfigInit d)
  pure .init

def csEtmConfigGetEx (d : Dev) (config : EtmConfig) : Fn Rig EtmConfig := do
  let rc ← op e (.etmConfigGet d)
  let r ← get
  pure (if rc = 0 then config.get (r.etm d) else config)

/-- `cs_error_count`: a counter is read, nothing can fail. -/
def csErrorCount : Fn Rig Nat := do
  modify (Rig.log .errorCount)
  let r ← get
  pure r.errorCount

def csResetErrorCount : Fn Rig Unit :=
  modify fun r => { r.log .resetErrorCount with errorCount := 0 }

end

/-! ## What one call does -/

section
variable {e : Csal} {c : CsCall} {r : Rig} {E : Exit → Rig → Prop}

@[simp] theorem ensures_op {Q : Int → Rig → Prop} :
    Ensures (op e c) Q E r ↔ Q (e.answer r.calls c).rc (r.after e c) := by
  simp only [Ensures, op]

@[simp] theorem ensures_call {Q : Unit → Rig → Prop} :
    Ensures (call e c) Q E r ↔ Q () (r.after e c) := by
  simp only [Ensures, call]

@[simp] theorem after_calls : (r.after e c).calls = c :: r.calls := rfl

theorem perform_enabled (d : Dev) :
    (c.perform e r).enabled d =
      if c.enables = some d then true else if c.disables = some d then false
      else r.enabled d := by
  cases c <;> simp [CsCall.perform, CsCall.enables, CsCall.disables, Function.update_apply, eq_comm]

theorem perform_etm {d : Dev} (h : c.programs ≠ some d) : (c.perform e r).etm d = r.etm d := by
  cases c with
  | etmClean d' | etmConfigPut d' _ =>
    have other : d ≠ d' := fun same => h (by rw [same]; rfl)
    simp [CsCall.perform, Function.update_of_ne other]
  | _ => rfl

/-- A call that fails, or does not program an ETM, leaves its registers. -/
theorem after_etm {d : Dev} (h : c.programs ≠ some d) : (r.after e c).etm d = r.etm d := by
  simp only [Rig.after]
  split
  · exact perform_etm h
  · rfl

@[simp] theorem perform_ptm : (c.perform e r).ptm = r.ptm := by cases c <;> rfl

@[simp] theorem after_ptm : (r.after e c).ptm = r.ptm := by
  simp only [Rig.after]
  split <;> simp

end

end Ultrasight
