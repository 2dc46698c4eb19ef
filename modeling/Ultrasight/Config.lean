import Ultrasight.Csal

/-!
# Configuring, enabling and disabling the trace

The functions of `config.c`. All are given the addresses of global variables,
so of the null checks only that of `board` remains: it is null until
`setup_named_board` has run.
-/

namespace Ultrasight

open Fn

/-- The address range in `struct map_info`. -/
structure MapInfo where
  start : BitVec 64
  stop : BitVec 64
  deriving DecidableEq

def returnStack : Bool := false
def branchBroadcast : Bool := true
def cycleCount : Bool := false

def etmv4 : Nat := 4

variable (e : Csal)

/-- `cs_error_count` at the end of a function. -/
def checkErrors : Fn Rig Unit := do
  let errorCount ← csErrorCount
  require (errorCount == 0) (-1)

def csEtbFlushAndWaitStop (devices : Devices) : Fn Rig Unit := do
  let enabled ← csSinkIsEnabled e devices.etb
  when enabled do
    let ffcrVal ← csDeviceRead e devices.etb .flfmtCtrl
    call e (.deviceWrite devices.etb .flfmtCtrl (ffcrVal ||| e.fOnMan))
    call e (.deviceWait devices.etb .status)

/-- Both pointers are addresses of array elements, never null. -/
def setEtmv4AddrRange (range : MapInfo) (accTypeEx : BitVec 32) (addrComps : Nat → AdrCmp) :
    Nat → AdrCmp :=
  let accType := e.excludedLevels ||| accTypeEx
  let first : AdrCmp := ⟨range.start.setWidth 32, (range.start >>> 32).setWidth 32, accType⟩
  let second : AdrCmp := ⟨range.stop.setWidth 32, (range.stop >>> 32).setWidth 32, accType⟩
  Function.update (Function.update addrComps 0 first) 1 second

/-- The static part of the configuration: no VMID, the context ID if there is
one, and the features chosen. -/
def setConfigr (etm : Dev) (cid : BitVec 64) (c : Configr) : Configr where
  vmid := if 0 < e.vmidsize etm then false else c.vmid
  cid := decide (0 < e.cidsize etm ∧ 0 < cid)
  rs := if returnStack then true else c.rs
  bb := if branchBroadcast then true else c.bb
  cci := if cycleCount then true else c.cci
  other := c.other

/-- Context comparator 0 set to `cid`. -/
def setCid (cid : BitVec 64) (t : EtmConfig) : EtmConfig :=
  { t with
    regs.cxidComps :=
      Function.update t.regs.cxidComps 0 ⟨cid.setWidth 32, (cid >>> 32).setWidth 32⟩
    regs.cidcctlr0 := t.regs.cidcctlr0 &&& ~~~1
    cxidCompsAccMask := t.cxidCompsAccMask ||| 1
    flags.cxidComp := true }

/-- Address comparators 0 and 1 set to the range, as the include range. -/
def setRange (range : MapInfo) (cid : BitVec 64) (t : EtmConfig) : EtmConfig :=
  { t with
    regs.addrComps :=
      setEtmv4AddrRange e range (if 0 < cid then 0 <<< 4 ||| 0x1 <<< 2 else 0) t.regs.addrComps
    regs.viiectlr := t.regs.viiectlr ||| 1
    addrCompsAccMask := t.addrCompsAccMask ||| 0x3
    flags.addrComp := true }

/-- `show_etm_config`: the configuration pointer is null. -/
def showEtmConfig (etm : Dev) : Fn Rig Unit := do
  let source ← csDeviceHasClass e etm
  assert source
  call e (.etmGetVersion etm)
  when (etmv4 ≤ e.etmMajor etm) do
    call e (.etmConfigInit etm)
    crash

/-- The count of ranges is passed to this function, but it does not look at
it. -/
def configureEtmv4AddrRangeCid (etm : Dev) (range : MapInfo) (cid : BitVec 64) : Fn Rig Int :=
  enclose do
    let tconfig ← csEtmConfigInitEx e etm
    let tconfig ← csEtmConfigGetEx e etm
      { tconfig with flags := ⟨true, true, true, false, false⟩ }
    let tconfig :=
      { tconfig with regs.configr := setConfigr e etm cid tconfig.regs.configr }
    let tconfig := if 0 < cid then setCid cid tconfig else tconfig
    call e (.etmConfigPut etm (setRange e range cid tconfig))
    when (0 < e.registrationVerbose) (showEtmConfig e etm)
    checkErrors
    pure 0

/-- The values `init_etm` writes. -/
def initialRegs (r : EtmRegs) : EtmRegs :=
  { r with
    victlr := 0x201, viiectlr := 0, vissctlr := 0
    eventctlr0r := 0, eventctlr1r := 0
    stallcrlr := 1 <<< 13, syncpr := 0 }

def initEtm (dev : Dev) : Fn Rig Int := enclose do
  let source ← csDeviceHasClass e dev
  assert source
  call e (.etmGetVersion dev)
  let rc ← op e (.etmClean dev)
  require (rc == 0) rc
  assert (e.isEtmv4 dev)
  let v4config ← csEtmConfigInitEx e dev
  let v4config ← csEtmConfigGetEx e dev
    { v4config with flags := ⟨true, false, false, false, false⟩ }
  call e (.etmConfigPut dev
    { v4config with flags := ⟨true, true, true, false, false⟩, regs := initialRegs v4config.regs })
  pure 0

/-- The first loop of `configure_trace`: find and initialise one ETM. -/
def preparePtm (i : Nat) : Fn Rig Unit := do
  let dev ← csCpuGetDevice e i
  modify fun r => { r with ptm := Function.update r.ptm i dev }
  require (dev != csErrdesc) (-1)
  let rc ← op e (.setTraceSourceId dev (0x10 + i))
  require (0 ≤ rc) (-1)
  let rc ← initEtm e dev
  require (0 ≤ rc) (-1)

/-- The second loop of `configure_trace`: program one ETM; one that is not an
ETMv4 is left as it is. -/
def programPtm (range : MapInfo) (pid : BitVec 32) (i : Nat) : Fn Rig Unit := do
  let r ← get
  call e (.etmGetVersion (r.ptm i))
  when (etmv4 ≤ e.etmMajor (r.ptm i)) do
    let rc ← configureEtmv4AddrRangeCid e (r.ptm i) range (pid.signExtend 64)
    require (rc == 0) rc

def configureTrace (board : Option Board) (devices : Devices) (range : MapInfo)
    (pid : BitVec 32) : Fn Rig Int := enclose do
  match board with
  | none => ret (-1)
  | some board =>
    call e .disableTpiu
    call e (.sinkDisable devices.etb)
    each (List.range board.nCpu) (preparePtm e)
    let rc ← op e (.setTraceSourceId devices.itm 0x20)
    require (0 ≤ rc) (-1)
    call e .checkpoint
    each (List.range board.nCpu) (programPtm e range pid)
    let ffcrVal ← csDeviceRead e devices.etb .flfmtCtrl
    call e (.deviceWrite devices.etb .flfmtCtrl (ffcrVal ||| e.stopFl))
    checkErrors
    pure 0

/-- A call that must return 0. -/
def must (c : CsCall) : Fn Rig Unit := do
  let rc ← op e c
  require (rc == 0) (-1)

/-- A call that must not return a negative value. -/
def mustNotFail (c : CsCall) : Fn Rig Unit := do
  let rc ← op e c
  require (0 ≤ rc) (-1)

/-- Set up one ETF and switch it on as a hardware FIFO. -/
def enableEtf (d : Dev) : Fn Rig Unit := do
  must e (.sinkEtfSetup d .hwFifo)
  must e (.tmcHwFifoEnable d 0)

/-- The call for the ETM of one CPU. -/
def callPtm (c : Dev → CsCall) (i : Nat) : Fn Rig Unit := do
  let r ← get
  call e (c (r.ptm i))

/-- `ram` stands for `etr_ram_addr` and `etr_ram_size`. -/
def enableTrace (board : Option Board) (devices : Devices) (ram : BitVec 64 × BitVec 64) :
    Fn Rig Int := enclose do
  match board with
  | none => ret (-1)
  | some board =>
    must e (.sinkEtrSetup devices.etb ⟨ram.1, ram.2, board.etrAxictl⟩)
    must e (.sinkEnable devices.etb)
    when (devices.tpiu != 0) (must e (.sinkEnable devices.tpiu))
    each devices.traceSinks (enableEtf e)
    each (List.range board.nCpu) (callPtm e .traceEnable)
    mustNotFail e (.traceSwstimEnableAllPorts devices.itm)
    mustNotFail e (.traceSwstimSetSyncRepeat devices.itm 32)
    call e (.traceEnable devices.itm)
    call e .checkpoint
    when (0 < e.registrationVerbose) (call e .ctiDiag)
    checkErrors
    pure 0

/-- Switch off one intermediate sink, if it is there. -/
def disableSink (d : Dev) : Fn Rig Unit := when (d != 0) (call e (.sinkDisable d))

def disableTrace (board : Option Board) (devices : Devices) : Fn Rig Int := enclose do
  match board with
  | none => ret (-1)
  | some board =>
    csEtbFlushAndWaitStop e devices
    each (List.range board.nCpu) (callPtm e .traceDisable)
    call e (.traceDisable devices.itm)
    each devices.traceSinks (disableSink e)
    call e (.sinkDisable devices.etb)
    when (devices.tpiu != 0) (must e (.sinkDisable devices.tpiu))
    when (1 < e.registrationVerbose) do
      each (List.range board.nCpu) fun i => do
        let r ← get
        showEtmConfig e (r.ptm i)
    checkErrors
    pure 0

/-- The board is passed to this function, but it does not look at it. -/
def enableTraceSinksOnly (devices : Devices) : Fn Rig Int := enclose do
  must e (.sinkEnable devices.etb)
  when (devices.tpiu != 0) (must e (.sinkEnable devices.tpiu))
  each devices.traceSinks (enableEtf e)
  call e .checkpoint
  checkErrors
  pure 0

def disableTraceSinksOnly (devices : Devices) : Fn Rig Int := enclose do
  csEtbFlushAndWaitStop e devices
  when (devices.tpiu != 0) (must e (.sinkDisable devices.tpiu))
  each devices.traceSinks (disableSink e)
  call e (.sinkDisable devices.etb)
  checkErrors
  pure 0

end Ultrasight
