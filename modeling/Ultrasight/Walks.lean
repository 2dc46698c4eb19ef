import Ultrasight.Config

/-!
# Walks through the configuration functions

What every way to build a body keeps, and what is true of single calls, is true
of the functions of `config.c`. A `Walk` says so of two bodies, the second one on
the same machine at another verbosity level; what is said of one body alone does
not look at the second one.

Which calls a function may make is told by their kinds: `looking` (no effect on
the state of a device), `raising` (may switch devices on), `lowering` (may switch
off the given devices), `calm` (may do anything but switch devices on) and
`working` (anything but `cs_shutdown`).
-/

namespace Ultrasight

open Fn

namespace CsCall

def working (c : CsCall) : Bool := !c.isShutdown

def calm (c : CsCall) : Bool := c.enables.isNone && c.working

def raising (c : CsCall) : Bool := c.disables.isNone && c.programs.isNone && c.working

def lowering (devices : List Dev) (c : CsCall) : Bool :=
  c.enables.isNone && c.disables.all (· ∈ devices) && c.programs.isNone && c.working

def looking (c : CsCall) : Bool :=
  c.enables.isNone && c.disables.isNone && c.programs.isNone && c.working

/-- Calls that only print. -/
def diagnostic : CsCall → Bool
  | .ctiDiag => true
  | _ => false

/-- Calls that neither give memory to a device nor name a trace source. -/
def inert : CsCall → Bool
  | .sinkEtrSetup .. | .setTraceSourceId .. => false
  | _ => true

variable {c : CsCall}

theorem raising_working (h : c.raising = true) : c.working = true := by
  simp only [raising, Bool.and_eq_true] at h
  exact h.2

theorem lowering_working {devices : List Dev} (h : c.lowering devices = true) :
    c.working = true := by
  simp only [lowering, Bool.and_eq_true] at h
  exact h.2

theorem looking_raising (h : c.looking = true) : c.raising = true := by
  simp only [looking, raising, Bool.and_eq_true] at h ⊢
  exact ⟨⟨h.1.1.2, h.1.2⟩, h.2⟩

theorem looking_working (h : c.looking = true) : c.working = true :=
  raising_working (looking_raising h)

theorem calm_working (h : c.calm = true) : c.working = true := by
  simp only [calm, Bool.and_eq_true] at h
  exact h.2

theorem lowering_calm {devices : List Dev} (h : c.lowering devices = true) : c.calm = true := by
  simp only [lowering, calm, Bool.and_eq_true] at h ⊢
  exact ⟨h.1.1.1, h.2⟩

theorem looking_calm (h : c.looking = true) : c.calm = true := by
  simp only [looking, calm, Bool.and_eq_true] at h ⊢
  exact ⟨h.1.1.1, h.2⟩

theorem looking_lowering (devices : List Dev) (h : c.looking = true) :
    c.lowering devices = true := by
  simp only [looking, lowering, Bool.and_eq_true, Option.isNone_iff_eq_none] at h ⊢
  exact ⟨⟨⟨h.1.1.1, by simp [h.1.1.2]⟩, h.1.2⟩, h.2⟩

theorem lowering_sinkDisable {devices : List Dev} {d : Dev} (h : d ∈ devices) :
    (sinkDisable d).lowering devices = true := by
  simp [lowering, enables, disables, programs, working, isShutdown, h]

end CsCall

open CsCall

/-- The same machine at another level. -/
def Csal.atLevel (e : Csal) (level : Int) : Csal := { e with registrationVerbose := level }

/-- Calls of the kind `K` have the property, and so does a look at the rig that
does not see the calls made so far. -/
structure Walk (e : Csal) (level : Int) (K : CsCall → Prop)
    (P : ∀ {α : Type}, Fn Rig α → Fn Rig α → Prop) : Prop extends Closed P where
  op : ∀ c, K c → P (op e c) (op (e.atLevel level) c)
  log : P (modify (Rig.log .errorCount)) (modify (Rig.log .errorCount))
  look : ∀ {α : Type} {f g : Rig → Fn Rig α}, (∀ r calls, f { r with calls := calls } = f r) →
    (∀ r, P (f r) (g r)) → P (get >>= f) (get >>= g)

namespace Walk

variable {e : Csal} {level : Int} {K : CsCall → Prop} {c : CsCall} {d : Dev}
  {P Q : ∀ {α : Type}, Fn Rig α → Fn Rig α → Prop}

theorem call (w : Walk e level K P) (k : K c) : P (call e c) (call (e.atLevel level) c) :=
  w.bind (w.op c k) fun _ => w.pure ()

theorem must (w : Walk e level K P) (k : K c) : P (must e c) (must (e.atLevel level) c) :=
  w.bind (w.op c k) fun _ => w.require _ _

theorem mustNotFail (w : Walk e level K P) (k : K c) :
    P (mustNotFail e c) (mustNotFail (e.atLevel level) c) :=
  w.bind (w.op c k) fun _ => w.require _ _

theorem checkErrors (w : Walk e level K P) : P checkErrors checkErrors := by
  apply w.bind
  · apply w.bind w.log
    intro _
    exact w.look (fun _ _ => rfl) fun _ => w.pure _
  · exact fun _ => w.require _ _

/-- The end of most functions. -/
theorem checked (w : Walk e level K P) :
    P (Ultrasight.checkErrors >>= fun _ => (pure 0 : Fn Rig Int))
      (Ultrasight.checkErrors >>= fun _ => pure 0) :=
  w.bind w.checkErrors fun _ => w.pure 0

theorem callPtm (w : Walk e level K P) {on : Dev → CsCall} (k : ∀ d, K (on d)) (i : Nat) :
    P (callPtm e on i) (callPtm (e.atLevel level) on i) :=
  w.look (fun _ _ => rfl) fun _ => w.call (k _)

theorem csDeviceRead (w : Walk e level K P) {reg : EtbReg} (k : K (.deviceRead d reg)) :
    P (csDeviceRead e d reg) (csDeviceRead (e.atLevel level) d reg) := by
  apply w.bind (w.call k)
  intro _
  exact w.look (fun _ _ => rfl) fun _ => w.pure _

theorem csEtmConfigGetEx (w : Walk e level K P) (k : K (.etmConfigGet d)) (config : EtmConfig) :
    P (csEtmConfigGetEx e d config) (csEtmConfigGetEx (e.atLevel level) d config) := by
  apply w.bind (w.op _ k)
  intro _
  exact w.look (fun _ _ => rfl) fun _ => w.pure _

/-- The flush starts with a call, and what begins with it may begin otherwise. -/
theorem csEtbFlushAndWaitStop (w : Walk e level K P) (o : Opens P Q) {devices : Devices}
    (first : Q (Ultrasight.call e (.sinkIsEnabled devices.etb))
      (Ultrasight.call (e.atLevel level) (.sinkIsEnabled devices.etb)))
    (kind : ∀ c : CsCall, c.looking = true → c.diagnostic = false → c.inert = true → K c) :
    Q (csEtbFlushAndWaitStop e devices) (csEtbFlushAndWaitStop (e.atLevel level) devices) := by
  apply o.bind
  · apply o.bind first
    intro _
    exact w.look (fun _ _ => rfl) fun _ => w.pure _
  intro enabled
  apply w.when
  intro _
  apply w.bind (w.csDeviceRead (kind _ rfl rfl rfl))
  intro ffcrVal
  apply w.bind (w.call (kind _ rfl rfl rfl))
  intro _
  exact w.call (kind _ rfl rfl rfl)

theorem enableEtf (w : Walk e level K P)
    (kind : ∀ c : CsCall, c.raising = true → c.diagnostic = false → c.inert = true → K c) :
    P (enableEtf e d) (enableEtf (e.atLevel level) d) :=
  w.bind (w.must (kind _ rfl rfl rfl)) fun _ => w.must (kind _ rfl rfl rfl)

theorem disableSink (w : Walk e level K P) (k : K (.sinkDisable d)) :
    P (disableSink e d) (disableSink (e.atLevel level) d) :=
  w.when fun _ => w.call k

theorem enableTraceSinksOnly (w : Walk e level K P)
    (kind : ∀ c : CsCall, c.raising = true → c.diagnostic = false →
      c.inert = true → K c) (devices : Devices) :
    P (enableTraceSinksOnly e devices) (enableTraceSinksOnly (e.atLevel level) devices) := by
  apply w.enclose
  apply w.bind (w.must (kind _ rfl rfl rfl))
  intro _
  apply w.bind (w.when fun _ => w.must (kind _ rfl rfl rfl))
  intro _
  apply w.bind (w.each fun _ _ => w.enableEtf kind)
  intro _
  apply w.bind (w.call (kind _ rfl rfl rfl))
  exact fun _ => w.checked

/-- The only call that depends on the level is the diagnostic one. -/
theorem enableTrace (w : Walk e level K P)
    (kind : ∀ c : CsCall, c.raising = true → c.diagnostic = false → c.inert = true → K c)
    (gives : ∀ d ram, K (.sinkEtrSetup d ram))
    (diag : P (when (0 < e.registrationVerbose) (Ultrasight.call e .ctiDiag))
      (when (0 < level) (Ultrasight.call (e.atLevel level) .ctiDiag)))
    (board : Option Board) (devices : Devices) (ram : BitVec 64 × BitVec 64) :
    P (enableTrace e board devices ram) (enableTrace (e.atLevel level) board devices ram) := by
  apply w.enclose
  cases board with
  | none => exact w.ret _
  | some board =>
    apply w.bind (w.must (gives _ _))
    intro _
    apply w.bind (w.must (kind _ rfl rfl rfl))
    intro _
    apply w.bind (w.when fun _ => w.must (kind _ rfl rfl rfl))
    intro _
    apply w.bind (w.each fun _ _ => w.enableEtf kind)
    intro _
    apply w.bind (w.each fun i _ => w.callPtm (fun _ => kind _ rfl rfl rfl) i)
    intro _
    apply w.bind (w.mustNotFail (kind _ rfl rfl rfl))
    intro _
    apply w.bind (w.mustNotFail (kind _ rfl rfl rfl))
    intro _
    apply w.bind (w.call (kind _ rfl rfl rfl))
    intro _
    apply w.bind (w.call (kind _ rfl rfl rfl))
    intro _
    apply w.bind diag
    exact fun _ => w.checked

theorem disableTraceSinksOnly (w : Walk e level K P) {devices : Devices}
    (kind : ∀ c : CsCall, c.lowering devices.sinks = true → c.diagnostic = false →
      c.inert = true → K c) :
    P (disableTraceSinksOnly e devices) (disableTraceSinksOnly (e.atLevel level) devices) := by
  have looks : ∀ c : CsCall, c.looking = true → c.diagnostic = false → c.inert = true → K c :=
    fun c looking loud fixed => kind c (looking_lowering _ looking) loud fixed
  have off : ∀ d ∈ devices.sinks, K (.sinkDisable d) :=
    fun d hd => kind _ (lowering_sinkDisable hd) rfl rfl
  apply w.enclose
  apply w.bind (w.csEtbFlushAndWaitStop w.opens (w.call (looks _ rfl rfl rfl)) looks)
  intro _
  apply w.bind (w.when fun _ => w.must (off _ (by simp [Devices.sinks])))
  intro _
  apply w.bind (w.each fun d hd => w.disableSink (off d (by simp [Devices.sinks, hd])))
  intro _
  apply w.bind (w.call (off _ (by simp [Devices.sinks])))
  exact fun _ => w.checked

/-- What `disable_trace` shows depends on the level. -/
theorem disableTrace (w : Walk e level K P) (o : Opens P Q) {devices : Devices} {board : Board}
    (first : Q (Ultrasight.call e (.sinkIsEnabled devices.etb))
      (Ultrasight.call (e.atLevel level) (.sinkIsEnabled devices.etb)))
    (kind : ∀ c : CsCall, c.calm = true → c.diagnostic = false → c.inert = true → K c)
    (shows : P
      (when (1 < e.registrationVerbose) (each (List.range board.nCpu) fun i =>
        get >>= fun r => showEtmConfig e (r.ptm i)))
      (when (1 < level) (each (List.range board.nCpu) fun i =>
        get >>= fun r => showEtmConfig (e.atLevel level) (r.ptm i)))) :
    Q (disableTrace e (some board) devices)
      (disableTrace (e.atLevel level) (some board) devices) := by
  have looks : ∀ c : CsCall, c.looking = true → c.diagnostic = false → c.inert = true → K c :=
    fun c looking loud fixed => kind c (looking_calm looking) loud fixed
  apply o.enclose
  apply o.bind (w.csEtbFlushAndWaitStop o first looks)
  intro _
  apply w.bind (w.each fun i _ => w.callPtm (fun _ => kind _ rfl rfl rfl) i)
  intro _
  apply w.bind (w.call (kind _ rfl rfl rfl))
  intro _
  apply w.bind (w.each fun _ _ => w.disableSink (kind _ rfl rfl rfl))
  intro _
  apply w.bind (w.call (kind _ rfl rfl rfl))
  intro _
  apply w.bind (w.when fun _ => w.must (kind _ rfl rfl rfl))
  intro _
  apply w.bind shows
  exact fun _ => w.checked

theorem configureEtmv4AddrRangeCid (w : Walk e level K P)
    (kind : ∀ c : CsCall, c.calm = true → c.diagnostic = false → c.inert = true → K c) {etm : Dev}
    (shows : P (when (0 < e.registrationVerbose) (showEtmConfig e etm))
      (when (0 < level) (showEtmConfig (e.atLevel level) etm)))
    (range : MapInfo) (cid : BitVec 64) :
    P (configureEtmv4AddrRangeCid e etm range cid)
      (configureEtmv4AddrRangeCid (e.atLevel level) etm range cid) := by
  apply w.enclose
  apply w.bind (w.bind (w.call (kind _ rfl rfl rfl)) fun _ => w.pure _)
  intro tconfig
  apply w.bind (w.csEtmConfigGetEx (kind _ rfl rfl rfl) _)
  intro tconfig
  apply w.bind (w.call (kind _ rfl rfl rfl))
  intro _
  apply w.bind shows
  exact fun _ => w.checked

/-- The assertions of `init_etm` do not hold of every device. -/
theorem initEtm (w : Walk e level K P)
    (kind : ∀ c : CsCall, c.calm = true → c.diagnostic = false → c.inert = true → K c)
    (source : P (assert (e.isSource d)) (assert (e.isSource d)))
    (version : P (assert (e.isEtmv4 d)) (assert (e.isEtmv4 d))) :
    P (initEtm e d) (initEtm (e.atLevel level) d) := by
  apply w.enclose
  simp only [csDeviceHasClass, bind_assoc, pure_bind]
  apply w.bind (w.call (kind _ rfl rfl rfl))
  intro _
  apply w.bind source
  intro _
  apply w.bind (w.call (kind _ rfl rfl rfl))
  intro _
  apply w.bind (w.op _ (kind _ rfl rfl rfl))
  intro rc
  apply w.bind (w.require _ _)
  intro _
  apply w.bind version
  intro _
  apply w.bind (w.bind (w.call (kind _ rfl rfl rfl)) fun _ => w.pure _)
  intro v4config
  apply w.bind (w.csEtmConfigGetEx (kind _ rfl rfl rfl) _)
  intro v4config
  apply w.bind (w.call (kind _ rfl rfl rfl))
  exact fun _ => w.pure _

/-- An ETM that is initialised is the source of its CPU. -/
theorem preparePtm (w : Walk e level K P)
    (kind : ∀ c : CsCall, c.calm = true → c.diagnostic = false → c.inert = true → K c)
    (names : ∀ d id, K (.setTraceSourceId d id)) {i : Nat}
    (found : ∀ dev, dev = csErrdesc ∨ dev = e.source i →
      P (modify fun r => { r with ptm := Function.update r.ptm i dev })
        (modify fun r => { r with ptm := Function.update r.ptm i dev }))
    (init : P (Ultrasight.initEtm e (e.source i))
      (Ultrasight.initEtm (e.atLevel level) (e.source i))) :
    P (preparePtm e i) (preparePtm (e.atLevel level) i) := by
  simp only [Ultrasight.preparePtm, csCpuGetDevice, bind_assoc, pure_bind]
  apply w.bind (w.op _ (kind _ rfl rfl rfl))
  intro rc
  by_cases ok : rc = 0
  · simp only [ok, if_true]
    apply w.bind (found _ (.inr rfl))
    intro _
    apply w.bind (w.require _ _)
    intro _
    apply w.bind (w.op _ (names _ _))
    intro rc
    apply w.bind (w.require _ _)
    intro _
    apply w.bind init
    exact fun _ => w.require _ _
  · simp only [ok, if_false]
    apply w.bind (found _ (.inl rfl))
    intro _
    exact w.ret _

theorem programPtm (w : Walk e level K P)
    (kind : ∀ c : CsCall, c.calm = true → c.diagnostic = false → c.inert = true → K c)
    (shows : ∀ etm, etmv4 ≤ e.etmMajor etm →
      P (when (0 < e.registrationVerbose) (showEtmConfig e etm))
        (when (0 < level) (showEtmConfig (e.atLevel level) etm)))
    (range : MapInfo) (pid : BitVec 32) (i : Nat) :
    P (programPtm e range pid i) (programPtm (e.atLevel level) range pid i) := by
  apply w.look (fun _ _ => rfl)
  intro r
  apply w.bind (w.call (kind _ rfl rfl rfl))
  intro _
  apply w.when
  intro new
  apply w.bind (w.configureEtmv4AddrRangeCid kind (shows _ (of_decide_eq_true new)) _ _)
  exact fun _ => w.require _ _

theorem configureTrace (w : Walk e level K P)
    (kind : ∀ c : CsCall, c.calm = true → c.diagnostic = false → c.inert = true → K c)
    (names : ∀ d id, K (.setTraceSourceId d id)) {board : Board}
    (prepared : ∀ i < board.nCpu, P (Ultrasight.preparePtm e i)
      (Ultrasight.preparePtm (e.atLevel level) i))
    (shows : ∀ etm, etmv4 ≤ e.etmMajor etm →
      P (when (0 < e.registrationVerbose) (showEtmConfig e etm))
        (when (0 < level) (showEtmConfig (e.atLevel level) etm)))
    (devices : Devices) (range : MapInfo) (pid : BitVec 32) :
    P (configureTrace e (some board) devices range pid)
      (configureTrace (e.atLevel level) (some board) devices range pid) := by
  apply w.enclose
  apply w.bind (w.call (kind _ rfl rfl rfl))
  intro _
  apply w.bind (w.call (kind _ rfl rfl rfl))
  intro _
  apply w.bind (w.each fun i hi => prepared i (List.mem_range.mp hi))
  intro _
  apply w.bind (w.op _ (names _ _))
  intro rc
  apply w.bind (w.require _ _)
  intro _
  apply w.bind (w.call (kind _ rfl rfl rfl))
  intro _
  apply w.bind (w.each fun i _ => w.programPtm kind shows range pid i)
  intro _
  apply w.bind (w.csDeviceRead (kind _ rfl rfl rfl))
  intro ffcrVal
  apply w.bind (w.call (kind _ rfl rfl rfl))
  exact fun _ => w.checked

end Walk

end Ultrasight
