import Ultrasight.Effects
import Ultrasight.Session

/-!
# What the functions of the API write

A property of the global variables is kept by a function that writes none of the
variables it looks at. Those that some property looks at are the `core`; to write
the others is no matter. Each function is walked through once, with what it does
to the core left open.
-/

namespace Ultrasight.Session

open Fn

/-- The variables that properties look at. -/
structure Core where
  rig : Rig
  board : Option Board
  devices : Devices
  isFirstTrace : Bool
  traceState : TraceState
  traceBuf : Buf
  exported : Option (List UInt8)
  fetched : List (List UInt8)

def Globals.core (g : Globals) : Core :=
  ⟨g.rig, g.board, g.devices, g.isFirstTrace, g.traceState, g.traceBuf, g.exported, g.fetched⟩

/-- A property of the core. -/
structure CoreOnly (Inv : Globals → Prop) : Prop where
  same : ∀ g g', g'.core = g.core → Inv g → Inv g'

/-- A property of the core that does not look at what was fetched. -/
structure DataFree (Inv : Globals → Prop) : Prop extends CoreOnly Inv where
  data : ∀ g b file chunks, Inv g →
    Inv { g with traceBuf := b, exported := file, fetched := chunks }

variable {e : Csal} {o : Settings} {Inv : Globals → Prop}

/-! ## Any work on the devices -/

section
variable (free : ∀ {α : Type} (x : Fn Rig α), Keeps Inv (onRig x))

include free

theorem enableCsTrace_keeps (first : ∀ g, Inv g → Inv { g with isFirstTrace := false })
    (pid : Parent.Pid) : Keeps Inv (enableCsTrace e o pid) := by
  have components : Keeps Inv (enableComponents e o pid) := by
    apply Leads.enclose
    apply keeps_get.bind
    intro g
    apply Leads.bind
    · cases g.isFirstTrace
      · apply keeps_get.bind
        intro g
        exact (free _).bind fun _ => keeps_require _ _
      · apply keeps_get.bind
        intro g
        apply (free _).bind
        intro _
        apply (keeps_require _ _).bind
        intro _
        apply (free _).bind
        intro _
        exact (keeps_require _ _).bind fun _ => keeps_modify first
    · intro _
      exact (keeps_when _ (free _)).bind fun _ => keeps_pure _
  apply components.bind
  intro rc
  exact (keeps_when _ (free _)).bind fun _ => keeps_pure _

theorem disableAttempt_free (all : Bool) : Keeps Inv (disableAttempt e all) := by
  apply keeps_get.bind
  intro g
  cases all
  · exact free _
  · exact free _

theorem disableCsTrace_keeps (all : Bool) : Keeps Inv (disableCsTrace e all) :=
  disableLoop_keeps (disableAttempt_free free all) (free _) _ _

theorem stopTrace_free (state : Keeps Inv (setTraceState .readyState)) (all : Bool) :
    Keeps Inv (stopTrace e all) := by
  have attempt := disableAttempt_free (e := e) free all
  exact stopTrace_leads attempt attempt (free _) state

end

theorem setupNamedBoard_keeps (set : Keeps Inv (onRig (op e .setupNamedBoard)))
    (found : ∀ g, Inv g → Inv { g with board := some e.board, devices := e.devices }) :
    Keeps Inv (setupNamedBoard e) := by
  apply set.bind
  intro rc
  exact (keeps_when _ (keeps_modify found)).bind fun _ => keeps_pure _

section
variable {pid : Parent.Pid} {use : Bool} {a : StartAnswers}

/-- `start_trace` of a tracee that could be bound: what the buffer of the events
leads to, the rest keeps. -/
theorem startTrace_bound {P : Globals → Prop} (bound : 0 ≤ a.affinity)
    (mapped : ∀ g b, P g → P { g with traceBuf := b })
    (events : Leads P Inv (when o.ksightOn (allocKsightBuf a.ksightBuf)))
    (child : ∀ g, Inv g → Inv { g with childPid := pid })
    (size : Keeps Inv (fetcherSize o a.etrSize))
    (enable : ∀ pid, Keeps Inv (enableCsTrace e o pid))
    (state : Keeps Inv (setTraceState .runningState)) :
    Leads P Inv (startTrace e o pid use a) := by
  have rest : Leads P Inv (do
      when o.ksightOn (allocKsightBuf a.ksightBuf)
      modify fun g => { g with childPid := pid }
      fetcherSize o a.etrSize
      let rc ← enableCsTrace e o (if use then pid else 0)
      require (0 ≤ rc) rc
      setTraceState .runningState
      pure rc) := by
    apply events.bind
    intro _
    apply (keeps_modify child).bind
    intro _
    apply size.bind
    intro _
    apply (enable _).bind
    intro rc
    apply (keeps_require _ _).bind
    intro _
    exact state.bind fun _ => keeps_pure _
  apply Leads.enclose
  intro g pre
  apply (ensures_bind _ _).mpr
  apply (ensures_require _ _).mpr
  refine ⟨fun _ => ?_, fun unbound => absurd bound (of_decide_eq_false unbound)⟩
  apply (ensures_bind _ _).mpr
  apply (ensures_modify _).mpr
  exact rest _ (mapped g _ pre)

theorem startTrace_unbound (unbound : ¬ 0 ≤ a.affinity) : Keeps Inv (startTrace e o pid use a) := by
  have refused : decide (0 ≤ a.affinity) = false := decide_eq_false unbound
  intro g inv
  simp only [startTrace, refused, ensures_enclose, ensures_bind, ensures_require,
    Bool.false_eq_true, false_implies, true_and, forall_const]
  exact inv

end

theorem fetchTrace_keeps
    (looks : ∀ c, c.looking = true → c.inert = true → Keeps Inv (onRig (call e c)))
    (stored : ∀ g b, Inv g → Inv { g with traceBuf := b })
    (delivered : ∀ g chunks, Inv g → Inv { g with fetched := chunks }) (f : TraceBuffer.Fetch) :
    Keeps Inv (fetchTrace e f) := by
  apply Leads.enclose
  apply keeps_get.bind
  intro g
  apply (looks _ rfl rfl).bind
  intro _
  split
  · exact (looks _ rfl rfl).bind fun _ => keeps_crash
  · apply Leads.bind
    · exact keeps_modify fun g => stored g _
    intro _
    apply (keeps_require _ _).bind
    intro _
    apply (looks _ rfl rfl).bind
    intro _
    apply (looks _ rfl rfl).bind
    intro _
    apply Leads.bind
    · exact keeps_modify fun g => delivered g _
    · exact fun _ => keeps_pure _

theorem lastFetch_keeps {a : FiniAnswers} (state : Keeps Inv (setTraceState .finiState))
    (fetch : Keeps Inv (fetchTrace e a.fetch)) : Keeps Inv (lastFetch e o a) := by
  unfold lastFetch
  split
  · exact state.bind fun _ => keeps_assert _
  · exact fetch.bind fun _ => keeps_pure _

/-- What the choice of a CPU leads to, the rest of `init_trace` keeps. -/
theorem initTrace_leads {P : Globals → Prop} {a : InitAnswers}
    (first : Leads P Inv (modify fun g => { g with traceCpu := selectTraceCpu a g.traceCpu }))
    (ram : Keeps Inv (modify fun g => { g with etrRam := a.udmabuf.stored g.etrRam }))
    (ranges : Keeps Inv (modify fun g =>
      { g with
        rangeCount := a.rangeCount
        mapInfo := if 0 < a.rangeCount then a.mapInfo else g.mapInfo }))
    (id : Keeps Inv (modify fun g => { g with traceId := getTraceId g.traceCpu }))
    (board : Keeps Inv (setupNamedBoard e)) (state : Keeps Inv (setTraceState .readyState))
    (shut : Keeps Inv (onRig (call e .shutdown))) : Leads P Inv (initTrace e o a) := by
  have components : Leads P Inv (initComponents e o a) := by
    apply Leads.enclose
    apply first.bind
    intro _
    apply ram.bind
    intro _
    apply (keeps_require _ _).bind
    intro _
    apply (keeps_require _ _).bind
    intro _
    apply ranges.bind
    intro _
    apply (keeps_require _ _).bind
    intro _
    apply board.bind
    intro rc
    apply (keeps_require _ _).bind
    intro _
    apply (keeps_require _ _).bind
    intro _
    apply id.bind
    intro _
    apply keeps_get.bind
    intro g
    apply (keeps_require _ _).bind
    intro _
    exact state.bind fun _ => keeps_pure _
  apply components.bind
  intro rc
  exact (keeps_when _ shut).bind fun _ => keeps_pure _

namespace CoreOnly

variable (h : CoreOnly Inv)

include h

theorem aside {f : Globals → Globals} (same : ∀ g, (f g).core = g.core) :
    Keeps Inv (modify f : Fn Globals _) :=
  keeps_modify fun g inv => h.same g (f g) (same g) inv

theorem initTrace (board : Keeps Inv (setupNamedBoard e))
    (state : Keeps Inv (setTraceState .readyState)) (shut : Keeps Inv (onRig (call e .shutdown)))
    (a : InitAnswers) : Keeps Inv (initTrace e o a) := by
  apply initTrace_leads _ _ _ _ board state shut
  · exact h.aside fun _ => rfl
  · exact h.aside fun _ => rfl
  · exact h.aside fun _ => rfl
  · exact h.aside fun _ => rfl

/-- The events of the kernel have variables of their own. -/
theorem events (a : FiniAnswers) :
    Keeps Inv (when o.ksightOn do
      fetchKsightEvents a
      exportKsight a.ksightExportOpened
      modify fun g => { g with ksightBuf := freeBuf g.ksightBuf }) := by
  apply keeps_when
  apply Leads.bind
  · apply keeps_get.bind
    intro g
    split
    · exact keeps_crash
    · exact h.aside fun _ => rfl
  intro _
  apply Leads.bind
  · apply keeps_get.bind
    intro g
    apply keeps_when
    exact (keeps_assert _).bind fun _ => h.aside fun _ => rfl
  · exact fun _ => h.aside fun _ => rfl

end CoreOnly

namespace DataFree

variable (h : DataFree Inv) (looks : ∀ c, c.looking = true → Keeps Inv (onRig (call e c)))

include h

theorem exportTrace (opened : Bool) : Keeps Inv (exportTrace opened) := by
  apply keeps_get.bind
  intro g
  apply keeps_when
  apply (keeps_assert _).bind
  intro _
  exact keeps_modify fun g inv => h.data g g.traceBuf _ g.fetched inv

include looks

theorem fetchTrace (f : TraceBuffer.Fetch) : Keeps Inv (fetchTrace e f) := by
  apply Leads.enclose
  apply keeps_get.bind
  intro g
  apply (looks _ rfl).bind
  intro _
  split
  · exact (looks _ rfl).bind fun _ => keeps_crash
  · apply Leads.bind
    · exact keeps_modify fun g inv => h.data g _ g.exported g.fetched inv
    intro _
    apply (keeps_require _ _).bind
    intro _
    apply (looks _ rfl).bind
    intro _
    apply (looks _ rfl).bind
    intro _
    apply Leads.bind
    · exact keeps_modify fun g inv => h.data g g.traceBuf g.exported _ inv
    · exact fun _ => keeps_pure _

theorem lastFetch (state : Keeps Inv (setTraceState .finiState)) (a : FiniAnswers) :
    Keeps Inv (lastFetch e o a) :=
  lastFetch_keeps state (h.fetchTrace looks a.fetch)

theorem freeTraceBuf : Keeps Inv (freeTraceBuf e) := by
  apply keeps_get.bind
  intro g
  apply (keeps_when _ (looks _ rfl)).bind
  intro _
  exact keeps_modify fun g inv => h.data g _ g.exported g.fetched inv

theorem finiTrace (state : Keeps Inv (setTraceState .finiState))
    (shut : Keeps Inv (onRig (call e .shutdown))) (a : FiniAnswers) :
    Keeps Inv (finiTrace e o a) := by
  apply (h.lastFetch looks state a).bind
  intro _
  apply (h.exportTrace a.exportOpened).bind
  intro _
  apply (h.events a).bind
  intro _
  apply (h.freeTraceBuf looks).bind
  intro _
  exact shut.bind fun _ => keeps_pure _

end DataFree

end Ultrasight.Session
