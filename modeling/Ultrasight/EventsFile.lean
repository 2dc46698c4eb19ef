import Ultrasight.Survival

/-!
# The file of the events

With `--ksight`, `fini_trace` drains the queue of the kernel's events into a buffer
that `start_trace` has mapped, and writes it to a file of its own. Nothing else of a
session matters to this file.

* `EventsOnly`: properties of that buffer and that file;
* `events_exported`: what the file has in it.
-/

namespace Ultrasight.Session

open Fn
open TraceBuffer (defaultTraceSize)

/-- A `start_trace` has bound its tracee, and so went on to map the buffers. -/
def everBound : List ApiEvent → Bool
  | [] => false
  | .called (.startTrace _ _ a) :: older => decide (0 ≤ a.affinity) || everBound older
  | .called _ :: older | .returned _ _ :: older => everBound older

/-- The whole queue, if there is a buffer for it and the device could be opened. -/
def drained (bound : Bool) (a : FiniAnswers) : List UInt8 :=
  if bound && a.ksightOpened then Ksight.payload a.ksightQueue else []

def eventsFile (o : Settings) (bound : Bool) (a : FiniAnswers) : Option (List UInt8) :=
  if o.ksightOn && a.ksightExportOpened then some (drained bound a) else none

/-- The buffer between two calls: mapped and empty once a tracee was bound. -/
def Room (bound : Bool) (b : Buf) : Prop :=
  if bound then ∃ p, b = Ksight.allocKsightBuf p else b = .null

variable {e : Csal} {o : Settings} {g : Globals} {b : Buf}

/-! ## Functions that do not touch the events -/

/-- A property of the events' buffer and file. -/
structure EventsOnly (P : Globals → Prop) : Prop where
  same : ∀ g g', g'.ksightBuf = g.ksightBuf → g'.exportedKsight = g.exportedKsight → P g → P g'

namespace EventsOnly

variable {P : Globals → Prop} (h : EventsOnly P)

include h

theorem aside {f : Globals → Globals} (buf : ∀ g, (f g).ksightBuf = g.ksightBuf)
    (file : ∀ g, (f g).exportedKsight = g.exportedKsight) : Keeps P (modify f : Fn Globals _) :=
  keeps_modify fun g inv => h.same g (f g) (buf g) (file g) inv

theorem onRig {α : Type} (x : Fn Rig α) : Keeps P (onRig x) := by
  intro g inv
  apply (ensures_zoom x).mpr
  apply (ensures_const inv x g.rig).mono
  · exact fun _ r inv => h.same g { g with rig := r } rfl rfl inv
  · exact fun _ r inv => h.same g { g with rig := r } rfl rfl inv

theorem setTraceState (new : TraceState) : Keeps P (setTraceState new) :=
  h.aside (fun _ => rfl) fun _ => rfl

theorem enableCsTrace (pid : Parent.Pid) : Keeps P (enableCsTrace e o pid) :=
  enableCsTrace_keeps h.onRig (fun g => h.same g _ rfl rfl) pid

theorem stopTrace (all : Bool) : Keeps P (stopTrace e all) :=
  stopTrace_free h.onRig (h.setTraceState _) all

theorem initTrace (a : InitAnswers) : Keeps P (initTrace e o a) := by
  apply initTrace_leads
  · exact h.aside (fun _ => rfl) fun _ => rfl
  · exact h.aside (fun _ => rfl) fun _ => rfl
  · exact h.aside (fun _ => rfl) fun _ => rfl
  · exact h.aside (fun _ => rfl) fun _ => rfl
  · exact setupNamedBoard_keeps (h.onRig _) fun g => h.same g _ rfl rfl
  · exact h.setTraceState _
  · exact h.onRig _

theorem fetchTrace (f : TraceBuffer.Fetch) : Keeps P (fetchTrace e f) := by
  apply fetchTrace_keeps fun c _ _ => h.onRig (call e c)
  · exact fun g b => h.same g { g with traceBuf := b } rfl rfl
  · exact fun g chunks => h.same g { g with fetched := chunks } rfl rfl

theorem lastFetch (a : FiniAnswers) : Keeps P (lastFetch e o a) :=
  lastFetch_keeps (h.setTraceState _) (h.fetchTrace a.fetch)

theorem exportTrace (opened : Bool) : Keeps P (exportTrace opened) := by
  apply keeps_get.bind
  intro g
  apply keeps_when
  exact (keeps_assert _).bind fun _ => h.aside (fun _ => rfl) fun _ => rfl

theorem freeTraceBuf : Keeps P (freeTraceBuf e) := by
  apply keeps_get.bind
  intro g
  exact (keeps_when _ (h.onRig _)).bind fun _ => h.aside (fun _ => rfl) fun _ => rfl

end EventsOnly

/-- Before the end: the buffer between two calls, and no file yet. -/
def Waiting (mapped : Bool) (g : Globals) : Prop := Room mapped g.ksightBuf ∧ g.exportedKsight = none

theorem waiting_only (mapped : Bool) : EventsOnly (Waiting mapped) := by
  refine ⟨fun g g' buf exported h => ?_⟩
  rw [Waiting, buf, exported]
  exact h

theorem file_only (b : Buf) (file : Option (List UInt8)) :
    EventsOnly fun g => g.ksightBuf = b ∧ g.exportedKsight = file := by
  refine ⟨fun g g' buf exported h => ?_⟩
  rw [buf, exported]
  exact h

/-! ## The calls -/

theorem startTrace_waiting {pid : Parent.Pid} {use : Bool} {a : StartAnswers} {bound : Bool}
    (placed : o.ksightOn = true → a.ksightBuf.isSome = true)
    (waiting : Waiting (o.ksightOn && bound) g) :
    Leaves (startTrace e o pid use a)
      (Waiting (o.ksightOn && (decide (0 ≤ a.affinity) || bound))) g := by
  by_cases binds : 0 ≤ a.affinity
  · rw [decide_eq_true binds, Bool.true_or, Bool.and_true]
    have after := waiting_only o.ksightOn
    refine startTrace_bound binds ?_ ?_ ?_ ?_ after.enableCsTrace (after.setTraceState _) g waiting
    · exact fun g b => (waiting_only _).same g { g with traceBuf := b } rfl rfl
    · intro g waiting
      apply (ensures_when _ _).mpr
      constructor
      · intro on
        obtain ⟨p, eq⟩ := Option.isSome_iff_exists.mp (placed on)
        rw [allocKsightBuf, ensures_modify, eq, on]
        exact ⟨⟨p, rfl⟩, waiting.2⟩
      · intro off
        rw [off] at waiting ⊢
        exact waiting
    · exact fun g => after.same g { g with childPid := pid } rfl rfl
    · exact after.aside (fun _ => rfl) fun _ => rfl
  · rw [decide_eq_false binds, Bool.false_or]
    exact startTrace_unbound binds g waiting

theorem contents_nil (nothing : b.region.bytes = []) : b.contents = [] := by
  rw [Buf.contents, Region.read, nothing, List.drop_nil, List.take_nil]

/-- What `fini_trace` fetches, it exports. -/
theorem fetchKsightEvents_drains {a : FiniAnswers} {bound : Bool} (room : Room bound b)
    (moved : b = .null ∨ eventsMoved a b = true) :
    ∃ rc d, Ksight.fetchKsightEvents a.ksightOpened a.ksightRemap a.ksightQueue b = .ok (rc, d) ∧
      d.buf.contents = drained bound a := by
  unfold drained
  cases bound with
  | false =>
    obtain rfl : b = .null := room
    rw [Bool.false_and, if_neg Bool.false_ne_true]
    cases opened : a.ksightOpened with
    | false => exact ⟨-1, _, rfl, contents_nil rfl⟩
    | true =>
      have aligned : Buf.null.align = .null := by decide
      refine ⟨0, ⟨nowhere, a.ksightQueue, [0], false⟩, ?_, contents_nil rfl⟩
      rw [Ksight.fetchKsightEvents, if_pos rfl, aligned, drainLoop_nowhere]
  | true =>
    obtain ⟨p, rfl⟩ : ∃ p, b = Ksight.allocKsightBuf p := room
    obtain ⟨-, holds, large⟩ := Ksight.run_holds (.alloc : Ksight.Run p [] [] _)
    cases opened : a.ksightOpened with
    | false => exact ⟨-1, _, rfl, holds.contents_eq⟩
    | true =>
      obtain null | moved := moved
      · exact absurd (congrArg Buf.buf null) p.nonnull
      · obtain ⟨rc, d, done, stored⟩ := fetchKsightEvents_stores p moved opened
        exact ⟨rc, d, done, stored.contents_eq⟩

theorem finiTrace_events {a : FiniAnswers} {bound : Bool} (waiting : Waiting (o.ksightOn && bound) g)
    (moved : g.ksightBuf = .null ∨ eventsMoved a g.ksightBuf = true) :
    Ensures (finiTrace e o a) (fun _ g' => g'.exportedKsight = eventsFile o bound a)
      (fun _ _ => True) g := by
  obtain ⟨room, file⟩ := waiting
  have before := file_only g.ksightBuf none
  apply (before.lastFetch a).before ⟨rfl, file⟩ _ fun _ _ _ => trivial
  intro _ g₁ events₁
  apply (before.exportTrace a.exportOpened).before events₁ _ fun _ _ _ => trivial
  rintro _ g₂ ⟨buf, none⟩
  have rest (g' : Globals) (written : g'.exportedKsight = eventsFile o bound a) :
      Ensures (do freeTraceBuf e; onRig (call e .shutdown); pure 0)
        (fun (_ : Int) g' => g'.exportedKsight = eventsFile o bound a) (fun _ _ => True) g' := by
    have after := file_only g'.ksightBuf (eventsFile o bound a)
    apply after.freeTraceBuf.before ⟨rfl, written⟩ _ fun _ _ _ => trivial
    intro _ g₃ events₃
    apply (after.onRig (call e .shutdown)).before events₃ _ fun _ _ _ => trivial
    exact fun _ g₄ events₄ => (ensures_pure _).mpr events₄.2
  apply (ensures_bind _ _).mpr
  apply (ensures_when _ _).mpr
  constructor
  · intro on
    rw [on, Bool.true_and] at room
    obtain ⟨rc, d, done, contents⟩ := fetchKsightEvents_drains room moved
    have block : Ensures (do
          fetchKsightEvents a
          exportKsight a.ksightExportOpened
          modify fun g => { g with ksightBuf := freeBuf g.ksightBuf })
        (fun _ g' => g'.exportedKsight = eventsFile o bound a) (fun _ _ => True) g₂ := by
      simp only [fetchKsightEvents, exportKsight, exportBuf, ensures_bind, ensures_get, buf, done,
        ensures_modify, ensures_when, ensures_assert, eventsFile, on, Bool.true_and]
      refine ⟨fun opened => ⟨fun _ => ?_, fun _ => trivial⟩, fun closed => ?_⟩
      · rw [if_pos opened, contents]
      · rw [closed]
        exact none
    exact block.mono (fun _ => rest) fun _ _ _ => trivial
  · intro off
    apply rest
    rw [eventsFile, off]
    exact none

/-! ## Runs -/

/-- The calls of a run: any before `fini_trace` and that one, as long as the events
have a buffer. -/
def eventsServed (o : Settings) (h : History) (c : Api) : Bool :=
  !finished h.events && c.eventsServed o h.globals

theorem eventsServed_of_served {h : History} {c : Api} (answered : served o h c = true) :
    eventsServed o h c = true := by
  simp only [served, Api.served, Bool.and_eq_true] at answered
  rw [eventsServed, answered.1, answered.2.2]
  rfl

section
variable {h h' : History} {c : Api}

/-- A call before the last one. -/
theorem body_waiting (more : c.isFini = false) (answered : c.eventsServed o g = true)
    {events : List ApiEvent} (waiting : Waiting (o.ksightOn && everBound events) g) :
    Leaves (c.body e o) (Waiting (o.ksightOn && everBound (.called c :: events))) g := by
  have only := waiting_only (o.ksightOn && everBound events)
  cases c with
  | initTrace a => exact only.initTrace a g waiting
  | startTrace pid use a =>
    simp only [Api.eventsServed, Bool.or_eq_true, Bool.not_eq_true'] at answered
    exact startTrace_waiting (fun on => answered.resolve_left (by simp [on])) waiting
  | fetchTrace f => exact only.fetchTrace f g waiting
  | traceSuspendCallback | traceResumeCallback =>
    exact ((only.setTraceState _).bind fun _ => keeps_pure _) g waiting
  | stopTrace all => exact only.stopTrace all g waiting
  | finiTrace a => cases more

/-- What is known of the events in any run before its end. -/
theorem waiting_run {rig : Rig} {traceCpu : Int}
    (reached : Reach (anyStep e o) (eventsServed o) (.initial rig traceCpu) h) :
    finished h.events = false → Waiting (o.ksightOn && everBound h.events) h.globals := by
  apply reached.invariant
  · intro _
    rw [show everBound (History.initial rig traceCpu).events = false from rfl, Bool.and_false]
    exact ⟨rfl, rfl⟩
  · intro s c t inv allowed moved open_
    simp only [eventsServed, Bool.and_eq_true, Bool.not_eq_true'] at allowed
    have more : c.isFini = false := by
      obtain ⟨rc, events, -⟩ := anyStep_ensures moved (ensures_const trivial _ _)
      rw [events] at open_
      exact (Bool.or_eq_false_iff.mp open_).1
    obtain ⟨rc, events, waiting⟩ :=
      anyStep_ensures moved (body_waiting more allowed.2 (inv allowed.1))
    rw [events]
    exact waiting

/-- **The file of the events is the queue.** In every run of calls in any order, in
which the events' buffer could be mapped and moved, the file that the first
`fini_trace` writes, if it returns, has all events that the kernel has queued, in
order, if a tracee was bound and the device could be opened, and is empty otherwise;
whatever failed on the devices. -/
theorem events_exported {rig : Rig} {traceCpu : Int}
    (reached : Reach (anyStep e o) (eventsServed o) (.initial rig traceCpu) h) {a : FiniAnswers}
    (next : eventsServed o h (.finiTrace a) = true) (moved : anyStep e o h (.finiTrace a) = some h') :
    h'.globals.exportedKsight = eventsFile o (everBound h.events) a := by
  have waiting := waiting_run reached
  simp only [eventsServed, Bool.and_eq_true, Bool.not_eq_true', Api.eventsServed, Bool.or_eq_true,
    beq_iff_eq] at next
  obtain ⟨rc, -, written⟩ := anyStep_ensures moved (finiTrace_events (waiting next.1) next.2)
  exact written

end

/-- Few events need no larger buffer. -/
theorem eventsMoved_fits {a : FiniAnswers}
    (few : Ksight.eventSize * (a.ksightQueue.length + 1) ≤ b.size.toNat) :
    eventsMoved a b = true := by
  simp only [eventsMoved, Bool.or_eq_true, List.all_eq_true, decide_eq_true_eq]
  right
  intro k _
  have more : b.size.toNat * 1 ≤ b.size.toNat * 2 ^ k := Nat.mul_le_mul_left _ Nat.one_le_two_pow
  exact .inl (by omega)

/-- With ksight and without the fetcher. -/
def watchful : Settings := ⟨⟨false, true⟩, false⟩

/-- Two events are queued when the session ends. -/
def twoEvents : FiniAnswers :=
  { healthy.fini with
    ksightOpened := true
    ksightQueue := [Ksight.blank 1, Ksight.blank 2]
    ksightExportOpened := true }

theorem events_exported_two : ∃ h h',
    Reach (anyStep zcu104 watchful) (eventsServed watchful) (.initial .idle (-1)) h ∧
    anyStep zcu104 watchful h (.finiTrace twoEvents) = some h' ∧
    h'.globals.exportedKsight = some (Ksight.payload [Ksight.blank 1, Ksight.blank 2]) := by
  have replay : (exec (anyStep zcu104 watchful) (served watchful) (.initial .idle (-1))
      [.initTrace healthy.init,
        .startTrace 42 true { healthy.start with ksightBuf := some TraceBuffer.somewhere },
        .stopTrace true]).any (fun h => !finished h.events && everBound h.events) = true := by
    decide +kernel
  obtain ⟨h, reached, test⟩ := reach_of_exec replay
  simp only [Bool.and_eq_true, Bool.not_eq_true'] at test
  obtain ⟨more, bound⟩ := test
  have calls := reached.mono fun _ _ => eventsServed_of_served
  have room := (waiting_run calls more).1
  rw [bound] at room
  obtain ⟨p, buf⟩ : ∃ p, h.globals.ksightBuf = Ksight.allocKsightBuf p := room
  have next : served watchful h (.finiTrace twoEvents) = true := by
    have mapped : (Ksight.allocKsightBuf p).size = defaultTraceSize := rfl
    have moved := eventsMoved_fits (a := twoEvents) (b := Ksight.allocKsightBuf p)
      (by rw [mapped]; decide)
    rw [← buf] at moved
    rw [served, Api.served, Api.eventsServed, more, moved, Bool.or_true]
    rfl
  obtain ⟨h', moved⟩ := session_survives Verbosity.zcu104_cores (by decide) reached next
  have file := events_exported calls (eventsServed_of_served next) moved
  rw [bound] at file
  exact ⟨h, h', calls, moved, file⟩

end Ultrasight.Session
