import Ultrasight.Footprints

/-!
# What the library keeps about its machine

Some properties look at what `init_trace` found out as well: the memory for the ETR
and the CPU that is traced. After it no function of the API writes these variables,
so that only what is done to the devices is left open here, and what the fetcher
thread does to the size of the memory.
-/

namespace Ultrasight.Session

open Fn

/-- The devices, and the variables that say which they are and which to use. -/
structure Wiring where
  rig : Rig
  board : Option Board
  devices : Devices
  etrRam : BitVec 64 × BitVec 64
  traceCpu : Int
  traceId : Int
  isFirstTrace : Bool

def Globals.wiring (g : Globals) : Wiring :=
  ⟨g.rig, g.board, g.devices, g.etrRam, g.traceCpu, g.traceId, g.isFirstTrace⟩

/-- A property of the wiring. -/
structure WiringOnly (Inv : Globals → Prop) : Prop where
  same : ∀ g g', g'.wiring = g.wiring → Inv g → Inv g'

namespace WiringOnly

variable {e : Csal} {o : Settings} {Inv : Globals → Prop} (h : WiringOnly Inv)

include h

theorem aside {f : Globals → Globals} (same : ∀ g, (f g).wiring = g.wiring) :
    Keeps Inv (modify f : Fn Globals _) :=
  keeps_modify fun g inv => h.same g (f g) (same g) inv

theorem setTraceState (new : TraceState) : Keeps Inv (setTraceState new) :=
  h.aside fun _ => rfl

theorem exportBuf {b : Globals → Buf} {write : List UInt8 → Globals → Globals}
    (same : ∀ content g, (write content g).wiring = g.wiring) (opened : Bool) :
    Keeps Inv (exportBuf opened b write) := by
  apply keeps_get.bind
  intro g
  apply keeps_when
  exact (keeps_assert _).bind fun _ => h.aside (same _)

theorem startTrace (enable : ∀ pid, Keeps Inv (enableCsTrace e o pid)) (pid : Parent.Pid)
    (use : Bool) (a : StartAnswers) (size : Keeps Inv (fetcherSize o a.etrSize)) :
    Keeps Inv (startTrace e o pid use a) := by
  by_cases bound : 0 ≤ a.affinity
  · apply startTrace_bound bound
    · exact fun g b => h.same g { g with traceBuf := b } rfl
    · exact keeps_when _ (h.aside fun _ => rfl)
    · exact fun g => h.same g _ rfl
    · exact size
    · exact enable
    · exact h.setTraceState _
  · exact startTrace_unbound bound

section
variable (looks : ∀ c, c.looking = true → c.inert = true → Keeps Inv (onRig (call e c)))

include looks

theorem fetchTrace (f : TraceBuffer.Fetch) : Keeps Inv (fetchTrace e f) := by
  apply fetchTrace_keeps looks
  · exact fun g b => h.same g { g with traceBuf := b } rfl
  · exact fun g chunks => h.same g { g with fetched := chunks } rfl

theorem finiTrace (shut : Keeps Inv (onRig (call e .shutdown))) (a : FiniAnswers) :
    Keeps Inv (finiTrace e o a) := by
  have last : Keeps Inv (lastFetch e o a) :=
    lastFetch_keeps (h.setTraceState _) (h.fetchTrace looks _)
  have events : Keeps Inv (fetchKsightEvents a) := by
    apply keeps_get.bind
    intro g
    split
    · exact keeps_crash
    · exact h.aside fun _ => rfl
  apply last.bind
  intro _
  apply Leads.bind
  · apply h.exportBuf
    exact fun _ _ => rfl
  intro _
  apply Leads.bind
  · apply keeps_when
    apply events.bind
    intro _
    apply Leads.bind
    · apply h.exportBuf
      exact fun _ _ => rfl
    · exact fun _ => h.aside fun _ => rfl
  intro _
  apply Leads.bind
  · apply keeps_get.bind
    intro g
    apply (keeps_when _ (looks _ rfl rfl)).bind
    exact fun _ => h.aside fun _ => rfl
  exact fun _ => shut.bind fun _ => keeps_pure _

/-- A call of the API does what it does to the devices. -/
theorem body {c : Api} (init : ∀ a, c = .initTrace a → Keeps Inv (initTrace e o a))
    (size : ∀ pid use a, c = .startTrace pid use a → Keeps Inv (fetcherSize o a.etrSize))
    (enable : ∀ pid, Keeps Inv (enableCsTrace e o pid))
    (stop : ∀ all, Keeps Inv (stopTrace e all)) (shut : Keeps Inv (onRig (call e .shutdown))) :
    Keeps Inv (c.body e o) := by
  cases c with
  | initTrace a => exact init a rfl
  | startTrace pid use a => exact h.startTrace enable pid use a (size pid use a rfl)
  | fetchTrace f => exact h.fetchTrace looks f
  | traceSuspendCallback | traceResumeCallback =>
    exact (h.setTraceState _).bind fun _ => keeps_pure _
  | stopTrace all => exact stop all
  | finiTrace a => exact h.finiTrace looks shut a

end

end WiringOnly

end Ultrasight.Session
