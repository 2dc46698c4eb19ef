import Ultrasight.Survival
import Ultrasight.Tracer

/-!
# A trace without the fetcher

Without `--fetcher` there is one fetch, in `fini_trace`. Whatever fails on the
devices, the tracer goes on to it and writes a file.

* `plain_calls`: what comes of the calls of `parent()`;
* `plain_trace_exported`: what is in the file.
-/

namespace Ultrasight.Session

open Fn TraceBuffer
open Parent (Pid)
open Getopt (Word)
open Verbosity (Etmv4Cores)

/-- What `main` leaves in the variables for `common.c`. -/
def settings (options : CommandLine.Options) : Settings :=
  ⟨Tracer.watches options, options.exportConfig⟩

/-- The buffers are mapped, that of the events can be moved, and the fetch delivers
no more than it counts. -/
structure Answers.Served (o : Settings) (a : Answers) : Prop where
  traceBuf : ∃ p, a.start.traceBuf = some p
  ksightBuf : o.ksightOn = true → ∃ q, a.start.ksightBuf = some q ∧
    eventsMoved a.fini (Ksight.allocKsightBuf q) = true
  delivered : Delivered a.fini.fetch = true

/-- The file of a trace: what the fetch delivered, unless there is no buffer for it or
it cannot grow. -/
structure Exports (a : Answers) (content : List UInt8) : Prop where
  unbound : a.start.affinity < 0 → content = []
  refused : ∀ p, a.start.traceBuf = some p → a.fini.fetch.Refused (TraceBuffer.allocTraceBuf p) →
    content = []
  stored : ∀ p, a.start.traceBuf = some p → 0 ≤ a.start.affinity →
    ¬a.fini.fetch.Refused (TraceBuffer.allocTraceBuf p) → content = a.fini.fetch.data

/-- The file is written, if it could be opened, and the library shut down. -/
def Answers.Written (a : Answers) (g : Globals) : Prop :=
  ∃ content, Exports a content ∧ JustShut g.rig ∧
    g.exported = if a.fini.exportOpened then some content else none

/-! ## The calls -/

/-- Stops and continuations are ignored, so the API is called four times. -/
theorem plain_calls {o : Parent.Options} (plain : o.fetcherOn = false) (self pid : Pid)
    (program : Tracer.Life) (a : Answers) :
    (Parent.starting o self pid ++ program.alive.flatMap (Parent.callbacks o) ++
      Parent.finishing o).filterMap (toApi a) =
        [.initTrace a.init, .startTrace pid true a.start, .stopTrace true, .finiTrace a.fini] := by
  have silent : program.alive.flatMap (Parent.callbacks o) = [] := by
    apply List.flatMap_eq_nil_iff.mpr
    intro w member
    have goes := Parent.alive_ne_zero (program.live w member)
    simp only [Parent.callbacks, plain, dispatch_off, if_neg goes]
  rw [silent, Parent.starting, Parent.finishing]
  cases o.ksightOn <;> rfl

/-! ## The fetch -/

section
variable {f : Fetch}

/-- The first fetch into a new buffer. -/
theorem fetchTrace_first (delivered : Delivered f = true)
    (p : Placement defaultTraceSize.toNat) :
    ∃ rc b, TraceBuffer.fetchTrace f (TraceBuffer.allocTraceBuf p) = .ok (rc, b) ∧
      (f.Refused (TraceBuffer.allocTraceBuf p) → b.contents = []) ∧
      (¬f.Refused (TraceBuffer.allocTraceBuf p) → b.contents = f.data) := by
  have sound : (TraceBuffer.allocTraceBuf p).Sound := Buf.sound_map p ⟨16, by decide⟩
  have holds : (TraceBuffer.allocTraceBuf p).Holds [] := run_holds .alloc
  obtain ⟨counted, within, ints⟩ := delivered_spec delivered
  obtain ⟨grown, -, -, same, ⟨failed, refused⟩ | ⟨room, -, never⟩⟩ :=
    @fetchTrace_cases f (TraceBuffer.allocTraceBuf p) sound
  · refine ⟨-1, grown, failed, fun _ => ?_, absurd refused⟩
    rw [same, holds.align.contents_eq]
    rfl
  · have positive : 0 ≤ f.len := by
      by_contra negative
      exact never (negative_refused sound ints (Int.not_le.mp negative))
    have honest : f.Honest := ⟨counted, by omega, ints.len.2⟩
    obtain ⟨b, failed, -⟩ | ⟨b, done, kept⟩ := fetchTrace_spec honest holds
    · rw [failed] at room
      cases written : grown.region.write grown.ptr f.data with
      | ok region => rw [written] at room; cases room
      | error stop => rw [written] at room; cases room
    · exact ⟨0, b, done, fun refused => absurd refused never, fun _ => kept.contents_eq⟩

end

/-! ## The session -/

section
variable {e : Csal} {o : Settings} {a : Answers} {g : Globals}

/-- Nothing is written yet, and this is the buffer. -/
def Unwritten (b : Buf) (g : Globals) : Prop := g.traceBuf = b ∧ g.exported = none

theorem unwritten_bufferOnly (b : Buf) : BufferOnly (Unwritten b) := by
  constructor
  intro g g' buf _ exported h
  rw [Unwritten, buf, exported]
  exact h

theorem startTrace_buffer {pid : Pid} {use : Bool} {s : StartAnswers}
    {p : Placement defaultTraceSize.toNat} (placed : s.traceBuf = some p)
    (before : Unwritten .null g) :
    Ensures (startTrace e o pid use s)
      (fun _ => Unwritten (if 0 ≤ s.affinity then TraceBuffer.allocTraceBuf p else .null))
      (fun _ _ => True) g := by
  by_cases bound : 0 ≤ s.affinity
  · rw [if_pos bound]
    apply (startTrace_fresh (unwritten_bufferOnly _) bound placed ⟨rfl, before.2⟩).mono
    · exact fun _ _ fresh => fresh
    · exact fun _ _ _ => trivial
  · rw [if_neg bound]
    have refused : decide (0 ≤ s.affinity) = false := decide_eq_false bound
    simp only [startTrace, refused, ensures_enclose, ensures_bind, ensures_require,
      Bool.false_eq_true, false_implies, true_and, forall_const]
    exact before

/-- What is written stays in the file. -/
theorem finiTrace_written {b b' : Buf} {rc : Int} {s : FiniAnswers} {content : List UInt8}
    (plain : o.fetcherOn = false) (before : Unwritten b g)
    (fetched : TraceBuffer.fetchTrace s.fetch b = .ok (rc, b')) (holds : b'.contents = content) :
    Ensures (finiTrace e o s)
      (fun _ g' => g'.exported = if s.exportOpened then some content else none)
      (fun _ _ => True) g := by
  have last : Ensures (lastFetch e o s) (fun _ => Unwritten b') (fun _ _ => True) g := by
    obtain ⟨rfl, nothing⟩ := before
    simp only [lastFetch, plain, Bool.false_eq_true, if_false, Session.fetchTrace, fetched, onRig,
      ensures_bind, ensures_enclose, ensures_get, ensures_zoom, ensures_call, ensures_modify,
      ensures_require, ensures_pure]
    exact ⟨fun _ => ⟨rfl, nothing⟩, fun _ => ⟨rfl, nothing⟩⟩
  let Written (g : Globals) : Prop := g.exported = if s.exportOpened then some content else none
  have only : BufferOnly Written := ⟨fun g g' _ _ exported (h : Written g) => exported.trans h⟩
  apply (ensures_bind _ _).mpr
  apply last.mono _ fun _ _ _ => trivial
  intro _ g₁ unwritten
  apply (ensures_bind _ _).mpr
  have exports : Ensures (exportTrace s.exportOpened) (fun _ => Written) (fun _ _ => True) g₁ := by
    obtain ⟨rfl, nothing⟩ := unwritten
    simp only [exportTrace, exportBuf, ensures_bind, ensures_get, ensures_when, ensures_assert,
      ensures_modify]
    refine ⟨fun opened => ⟨fun _ => ?_, fun _ => trivial⟩, fun closed => ?_⟩
    · exact (congrArg some holds).trans (if_pos opened).symm
    · exact nothing.trans (if_neg (by rw [closed]; exact Bool.false_ne_true)).symm
  apply exports.mono _ fun _ _ _ => trivial
  intro _ g₂ written
  have rest : Keeps Written (do
      when o.ksightOn do
        fetchKsightEvents s
        exportKsight s.ksightExportOpened
        modify fun g => { g with ksightBuf := freeBuf g.ksightBuf }
      freeTraceBuf e
      onRig (call e .shutdown)
      pure (0 : Int)) := by
    apply (only.coreOnly.events s).bind
    intro _
    apply Leads.bind
    · apply keeps_get.bind
      intro g
      apply (keeps_when _ (only.onRig _)).bind
      exact fun _ => keeps_modify fun g h => h
    · exact fun _ => (only.onRig _).bind fun _ => keeps_pure 0
  apply (rest g₂ written).mono
  · exact fun _ _ written => written
  · exact fun _ _ _ => trivial

theorem finiTrace_justShut (s : FiniAnswers) (g : Globals) :
    Ensures (finiTrace e o s) (fun _ g' => JustShut g'.rig) (fun _ _ => True) g := by
  have nothing : Stable e CsCall.working fun _ => True :=
    ⟨fun _ _ _ _ => trivial, fun _ _ => trivial⟩
  apply finiTrace_before nothing s trivial
  · exact fun g' _ => ⟨g'.rig.calls, rfl⟩
  · exact fun _ _ _ => trivial

/-- Where no buffer was mapped, nothing is stored. -/
theorem fetchTrace_unbound {f : Fetch} (delivered : Delivered f = true) :
    ∃ rc b, TraceBuffer.fetchTrace f .null = .ok (rc, b) ∧ b.contents = [] := by
  obtain ⟨rc, done⟩ := fetchTrace_nowhere delivered
  exact ⟨rc, .null, done, rfl⟩

/-- The buffer of the events is new and can be moved, or there is none. -/
def Answers.EventsBuf (a : Answers) (b : Buf) : Prop :=
  b = .null ∨ ∃ q, b = Ksight.allocKsightBuf q ∧ eventsMoved a.fini b = true

/-- `fini_trace` at the end of a plain session. -/
theorem finiTrace_exports (plain : o.fetcherOn = false) (served : a.Served o)
    {p : Placement defaultTraceSize.toNat} (placed : a.start.traceBuf = some p)
    (sane : Sane e a.EventsBuf g)
    (before : Unwritten
      (if 0 ≤ a.start.affinity then TraceBuffer.allocTraceBuf p else .null) g) :
    Ensures (finiTrace e o a.fini) (fun _ => a.Written) (fun _ _ => False) g := by
  have unread : Sane e Unread g :=
    ⟨sane.board, sane.traceBuf, sane.ksightBuf.imp id (Exists.imp fun _ => And.left)⟩
  have moved : g.ksightBuf = .null ∨ eventsMoved a.fini g.ksightBuf = true :=
    sane.ksightBuf.imp id fun new => new.elim fun _ => And.right
  have ends {content : List UInt8} (exports : Exports a content)
      (written : Ensures (finiTrace e o a.fini)
        (fun _ g' => g'.exported = if a.fini.exportOpened then some content else none)
        (fun _ _ => True) g) :
      Ensures (finiTrace e o a.fini) (fun _ => a.Written) (fun _ _ => False) g := by
    have fetched : (Api.finiTrace a.fini).traceServed o = true := by
      rw [Api.traceServed, plain]
      exact served.delivered
    apply (((finiTrace_survives fetched unread moved).and
      (finiTrace_justShut a.fini g)).and written).mono
    · rintro _ _ ⟨⟨-, shut⟩, file⟩
      exact ⟨content, exports, shut, file⟩
    · exact fun _ _ never => never.1.1
  by_cases bound : 0 ≤ a.start.affinity
  · rw [if_pos bound] at before
    obtain ⟨rc, b, fetched, refused, stored⟩ := fetchTrace_first served.delivered p
    apply ends _ (finiTrace_written plain before fetched rfl)
    constructor
    · exact fun unbound => absurd bound (by omega)
    · intro p' placed' refuses
      obtain rfl := Option.some.inj (placed.symm.trans placed')
      exact refused refuses
    · intro p' placed' _ never
      obtain rfl := Option.some.inj (placed.symm.trans placed')
      exact stored never
  · rw [if_neg bound] at before
    obtain ⟨rc, b, fetched, empty⟩ := fetchTrace_unbound served.delivered
    apply ends _ (finiTrace_written plain before fetched empty)
    exact ⟨fun _ => rfl, fun _ _ _ => rfl, fun _ _ positive => absurd positive bound⟩

/-- A call before the last one returns, and what it is known to leave is left. -/
theorem call_returns {K : Buf → Prop} {c : Api} (more : c.isFini = false)
    (safe : Safe (Sane e K) (c.body e o)) (sane : Sane e K g) {Q : Globals → Prop}
    (leaves : Ensures (c.body e o) (fun _ => Q) (fun _ _ => True) g) :
    Ensures (c.body e o) (fun _ g' => Sane e K g' ∧ Q g') (fun _ _ => False) g := by
  apply ((safe.returned (through_body more) sane).and leaves).mono
  · exact fun _ _ both => both
  · exact fun _ _ left => left.1

theorem ensures_perform_cons {c : Api} {rest : List Api} {h : History} {P : Globals → Prop}
    (first : Ensures (c.body e o) (fun _ g => ∀ events,
      Ensures (each rest (enter e o)) (fun _ h => P h.globals) (fun _ _ => False) ⟨g, events⟩)
        (fun _ _ => False) h.globals) :
    Ensures (each (c :: rest) (enter e o)) (fun _ h => P h.globals) (fun _ _ => False) h := by
  apply (ensures_bind _ _).mpr
  apply ensures_enter.mpr
  apply first.mono
  · exact fun _ _ others => others _
  · exact fun _ _ never => never

/-- The four calls of a plain session. -/
theorem plain_session (cores : Etmv4Cores e) (quiet : e.registrationVerbose ≤ 0)
    (plain : o.fetcherOn = false) (served : a.Served o) (pid : Pid) (rig : Rig) (traceCpu : Int) :
    Ensures (each [.initTrace a.init, .startTrace pid true a.start, .stopTrace true,
        .finiTrace a.fini] (enter e o))
      (fun _ h => a.Written h.globals) (fun _ _ => False) (.initial rig traceCpu) := by
  obtain ⟨p, placed⟩ := served.traceBuf
  have initial : Sane e a.EventsBuf (.initial rig traceCpu) := ⟨.inl rfl, .inl rfl, .inl rfl⟩
  have events (on : o.ksightOn = true) : ∃ q, a.start.ksightBuf = some q ∧
      a.EventsBuf (Ksight.allocKsightBuf q) := by
    obtain ⟨q, there, moved⟩ := served.ksightBuf on
    exact ⟨q, there, .inr ⟨q, rfl, moved⟩⟩
  have aside {c : Api} {b : Buf} {g : Globals} (keeps : Keeps (Unwritten b) (c.body e o))
      (before : Unwritten b g) :
      Ensures (c.body e o) (fun _ => Unwritten b) (fun _ _ => True) g :=
    (keeps g before).mono (fun _ _ kept => kept) fun _ _ _ => trivial
  have init : Ensures (Api.body e o (.initTrace a.init))
      (fun _ g => Sane e a.EventsBuf g ∧ Unwritten .null g) (fun _ _ => False)
      (.initial rig traceCpu) :=
    call_returns rfl (safe_initTrace a.init) initial
      (aside ((unwritten_bufferOnly .null).initTrace a.init) ⟨rfl, rfl⟩)
  apply ensures_perform_cons
  apply init.mono _ fun _ _ never => never
  rintro _ g₁ ⟨sane₁, before₁⟩ _
  have start : Ensures (startTrace e o pid true a.start)
      (fun _ => Unwritten
        (if 0 ≤ a.start.affinity then TraceBuffer.allocTraceBuf p else .null))
      (fun _ _ => True) g₁ := startTrace_buffer placed before₁
  apply ensures_perform_cons
  apply (@call_returns e o _ _ (.startTrace pid true a.start) rfl
    (safe_startTrace cores quiet (by rw [placed]; rfl) events) sane₁ _ start).mono _
      fun _ _ never => never
  rintro _ g₂ ⟨sane₂, before₂⟩ _
  apply ensures_perform_cons
  apply (@call_returns e o _ _ (.stopTrace true) rfl (safe_stopTrace quiet true) sane₂ _
    (aside ((unwritten_bufferOnly _).stopTrace true) before₂)).mono _ fun _ _ never => never
  rintro _ g₃ ⟨sane₃, before₃⟩ _
  apply ensures_perform_cons
  apply (finiTrace_exports plain served placed sane₃ before₃).mono _ fun _ _ never => never
  exact fun _ _ written _ => (ensures_pure _).mpr written

/-- **A plain trace writes its one fetch.** If the tracer ends without the fetcher,
then whatever failed on the devices it has written a file with what the fetch
delivered, or an empty one if the tracee could not be bound or the buffer not grow;
and it has shut the library down. -/
theorem plain_trace_exported (cores : Etmv4Cores e) (quiet : e.registrationVerbose ≤ 0)
    {argv argvp : List Word} {options : CommandLine.Options} {pid self : Pid} {wstatus : Nat}
    {child : Tracer.ChildAnswers} {program : Tracer.Life} {r : List Parent.Call × Nat}
    (launched : CommandLine.main argv = .launch options argvp) (plain : options.fetcherOn = false)
    (executes : Tracer.child child = .executes program)
    {joins : Bool} (ended : ∃ fuel, Tracer.run argv (some pid) joins self fuel wstatus child = some r)
    (served : a.Served (settings options)) (rig : Rig) :
    ∃ h, perform e (settings options) a r.1 (.initial rig options.traceCpu.toInt) = .ok () h ∧
      a.Written h.globals := by
  obtain ⟨-, final, ended⟩ := (Tracer.run_ends launched).mp ended
  rw [executes] at ended
  obtain ⟨-, followed⟩ := (Tracer.parent_executed program).mp ended
  obtain ⟨calls, -⟩ := Prod.ext_iff.mp followed
  have session := plain_session cores quiet (o := settings options) plain served pid rig
    options.traceCpu.toInt
  rw [← plain_calls (o := Tracer.watches options) plain self pid program a] at session
  obtain ⟨_, h, ran, written⟩ := session.returns
  refine ⟨h, ?_, written⟩
  rw [perform, calls]
  exact ran

end

/-- A fetch of three bytes. -/
def threeBytes : Answers :=
  { healthy with fini := { healthy.fini with fetch := ⟨3, fun _ => none, 3, [1, 2, 3]⟩ } }

/-- On this ZCU-104 nothing can be enabled. -/
def deadDevices : Csal := { zcu104 with
  answer := fun _ c => if c.enables.isSome then ⟨-1, 1⟩ else ⟨0, 0⟩ }

theorem plain_trace_exported_dead : ∃ h,
    perform deadDevices plain threeBytes
      [.initTrace 7 42, .startTrace 42 true, .detach 42, .stopTrace true, .finiTrace]
      (.initial .idle (-1)) = .ok () h ∧ h.globals.exported = some [1, 2, 3] := by
  have served : threeBytes.Served plain := by
    refine ⟨⟨_, rfl⟩, ?_, by decide⟩
    intro on
    cases on
  have cores : Etmv4Cores deadDevices :=
    ⟨Verbosity.zcu104_cores.source, Verbosity.zcu104_cores.version, Verbosity.zcu104_cores.null⟩
  have launched : CommandLine.main (["cs-trace", "--", "ls"].map Text.ascii) =
      .launch .initial [Text.ascii "ls"] := by decide
  have executes : Tracer.child ⟨true, true, true, some Tracer.stoppedOnce⟩ =
      .executes Tracer.stoppedOnce := rfl
  have ended : ∃ fuel, Tracer.run (["cs-trace", "--", "ls"].map Text.ascii) (some 42) false 7 fuel 0
      ⟨true, true, true, some Tracer.stoppedOnce⟩ = some
        ([.initTrace 7 42, .startTrace 42 true, .detach 42, .stopTrace true, .finiTrace], 0) :=
    (Tracer.run_ends launched).mpr ⟨rfl, 0, 3, rfl⟩
  obtain ⟨h, ran, content, exports, -, file⟩ :=
    plain_trace_exported cores (by decide) launched rfl executes ended served .idle
  refine ⟨h, ran, ?_⟩
  have sound : (TraceBuffer.allocTraceBuf somewhere).Sound := Buf.sound_map _ ⟨16, by decide⟩
  have fits : ¬threeBytes.fini.fetch.Refused (TraceBuffer.allocTraceBuf somewhere) :=
    fits_not_refused sound (by decide)
  rw [file, exports.stored somewhere rfl (by decide) fits]
  rfl

end Ultrasight.Session
