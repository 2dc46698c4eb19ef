import Ultrasight.Completion
import Ultrasight.FailedFetch
import Ultrasight.Retention
import Ultrasight.Truth

/-!
# No call dies

An assertion that fails and a buffer that is not mapped end the process. Neither
happens as long as the buffers could be mapped and `cs_get_trace_data` does not
fail, whatever else does: in any order of the calls up to the first `fini_trace`,
so in that of `parent()`, which looks at none of the results. With the fetcher the
fetcher thread must return, too.

* `Api.served` is what is asked of the system;
* `session_survives`: every call that is served in a run of such calls returns.
-/

namespace Ultrasight.Session

open Fn CsCall TraceBuffer
open Verbosity (Etmv4Cores)

/-! ## What is asked of the system -/

/-- No more is delivered than was counted as unread, and it is counted rightly.
The count itself may be an error. -/
def Delivered (f : Fetch) : Bool :=
  f.n == f.data.length && decide (f.data.length ≤ f.len.toNat) &&
    decide (-2 ^ 31 ≤ f.len) && decide (f.len < 2 ^ 31)

/-- `mremap` moves the events' buffer whenever that is too small for them. There are
no more doublings of a word than it has bits. -/
def eventsMoved (a : FiniAnswers) (b : Buf) : Bool :=
  !a.ksightOpened || (List.range 64).all fun k =>
    decide (Ksight.eventSize * (a.ksightQueue.length + 1) ≤ b.size.toNat * 2 ^ k) ||
      (a.ksightRemap (b.size * 2 ^ k * 2)).isSome

/-- The trace has a buffer, no delivery fails, and the fetcher thread returns. -/
def Api.traceServed (o : Settings) : Api → Bool
  | .startTrace _ _ a => a.traceBuf.isSome
  | .fetchTrace f => Delivered f
  | .finiTrace a => bif o.fetcherOn then a.joined else Delivered a.fetch
  | _ => true

/-- The events have a buffer that can grow. -/
def Api.eventsServed (o : Settings) (g : Globals) : Api → Bool
  | .startTrace _ _ a => !o.ksightOn || a.ksightBuf.isSome
  | .finiTrace a => g.ksightBuf == .null || eventsMoved a g.ksightBuf
  | _ => true

def Api.served (o : Settings) (g : Globals) (c : Api) : Bool :=
  c.traceServed o && c.eventsServed o g

def Api.isFini : Api → Bool
  | .finiTrace _ => true
  | _ => false

/-- `fini_trace` was called. -/
def finished : List ApiEvent → Bool
  | [] => false
  | .called c :: older => c.isFini || finished older
  | .returned _ _ :: older => finished older

/-- The calls of a run: any, served, before `fini_trace` and that one. -/
def served (o : Settings) (h : History) (c : Api) : Bool :=
  !finished h.events && c.served o h.globals

/-- A call in any order; there is no next state when the process dies in it. -/
def anyStep (e : Csal) (o : Settings) (h : History) (c : Api) : Option History :=
  match enter e o c h with
  | .ok _ h' => some h'
  | .error _ _ => none

/-! ## What is known of the variables -/

/-- Before `fini_trace`, no buffer is mapped or a whole one, and no board is known
or the one there is. Of the events' buffer, `K` is known. -/
structure Sane (e : Csal) (K : Buf → Prop) (g : Globals) : Prop where
  board : g.board = none ∨ g.board = some e.board
  traceBuf : g.traceBuf = .null ∨ g.traceBuf.Sound
  ksightBuf : K g.ksightBuf

/-- No events were fetched yet. -/
def Unread (b : Buf) : Prop := b = .null ∨ ∃ p, b = Ksight.allocKsightBuf p

variable {e : Csal} {o : Settings} {K : Buf → Prop} {g : Globals} {f : Fetch} {b : Buf}

theorem sane_initial (rig : Rig) (traceCpu : Int) : Sane e Unread (.initial rig traceCpu) :=
  ⟨.inl rfl, .inl rfl, .inl rfl⟩

/-- The variables that it is about. -/
def Globals.mapped (g : Globals) : Option Board × Buf × Buf := (g.board, g.traceBuf, g.ksightBuf)

theorem sane_same {g' : Globals} (h : Sane e K g) (same : g'.mapped = g.mapped) : Sane e K g' := by
  obtain ⟨board, traceBuf, ksightBuf⟩ := h
  simp only [Globals.mapped, Prod.mk.injEq] at same
  obtain ⟨sameBoard, sameTrace, sameKsight⟩ := same
  rw [← sameBoard] at board
  rw [← sameTrace] at traceBuf
  rw [← sameKsight] at ksightBuf
  exact ⟨board, traceBuf, ksightBuf⟩

theorem safe_onRig {α : Type} {x : Fn Rig α} (alive : Survives x) : Safe (Sane e K) (onRig x) := by
  intro g sane
  apply (ensures_zoom x).mpr
  apply (alive g.rig).mono
  · exact fun _ _ _ => sane_same sane rfl
  · exact fun _ _ alive => ⟨alive, sane_same sane rfl⟩

theorem safe_call (c : CsCall) : Safe (Sane e K) (onRig (call e c)) :=
  safe_onRig (survives_walk.call trivial)

theorem safe_aside {f : Globals → Globals} (same : ∀ g, (f g).mapped = g.mapped) :
    Safe (Sane e K) (modify f : Fn Globals _) :=
  safe_modify fun g sane => sane_same sane (same g)

theorem safe_setTraceState (new : TraceState) : Safe (Sane e K) (setTraceState new) :=
  safe_aside fun _ => rfl

/-! ## The devices -/

section
variable (quiet : e.registrationVerbose ≤ 0)

/-- Nothing is shown. -/
theorem survives_shown {v : Int} (low : e.registrationVerbose ≤ v) (x : Fn Rig Unit) :
    Survives (when (v < e.registrationVerbose) x) := by
  apply Survives.when
  intro loud
  have := of_decide_eq_true loud
  omega

include quiet

theorem survives_configureTrace (cores : Etmv4Cores e) {board : Option Board}
    (known : board = none ∨ board = some e.board) (devices : Devices) (range : MapInfo)
    (pid : BitVec 32) : Survives (configureTrace e board devices range pid) := by
  obtain rfl | rfl := known
  · exact (survives_ret _).enclose
  · apply survives_walk.configureTrace (fun _ _ _ _ => trivial) fun _ _ => trivial
    · exact fun i hi => Verbosity.survives_preparePtm cores hi
    · exact fun _ _ => survives_shown quiet _

theorem survives_enableTrace (board : Option Board) (devices : Devices)
    (ram : BitVec 64 × BitVec 64) : Survives (enableTrace e board devices ram) :=
  survives_walk.enableTrace (fun _ _ _ _ => trivial) (fun _ _ => trivial) (survives_shown quiet _)
    board devices ram

theorem survives_disableTrace (board : Option Board) (devices : Devices) :
    Survives (disableTrace e board devices) := by
  cases board with
  | none => exact (survives_ret _).enclose
  | some board =>
    have walk := @survives_walk e
    apply walk.disableTrace walk.opens (walk.call trivial) fun _ _ _ _ => trivial
    exact survives_shown (show e.registrationVerbose ≤ 1 by omega) _

end

/-! ## The buffers -/

theorem delivered_spec (delivered : Delivered f = true) :
    f.n = f.data.length ∧ f.data.length ≤ f.len.toNat ∧ f.Ints := by
  simp only [Delivered, Bool.and_eq_true, beq_iff_eq, decide_eq_true_eq] at delivered
  obtain ⟨⟨⟨counted, within⟩, low⟩, high⟩ := delivered
  exact ⟨counted, within, ⟨low, high⟩, by omega⟩

/-- A fetch into a buffer that is whole leaves a whole one. -/
theorem fetchTrace_sound (delivered : Delivered f = true) (sound : b.Sound) :
    ∃ rc b', TraceBuffer.fetchTrace f b = .ok (rc, b') ∧ b'.Sound := by
  obtain ⟨counted, within, ints⟩ := delivered_spec delivered
  obtain ⟨grown, kept, -, -, ⟨failed, -⟩ | ⟨stored, room, never⟩⟩ := @fetchTrace_cases f b sound
  · exact ⟨-1, grown, failed, kept⟩
  · have positive : 0 ≤ f.len := by
      by_contra negative
      exact never (negative_refused sound ints (Int.not_le.mp negative))
    have asked : f.asked = f.len.toNat := by
      have := ints.len
      rw [Fetch.asked, BitVec.toNat_ofInt]
      omega
    have used := kept.used_add
    have below := kept.used_le
    have fits := kept.fits
    have inside : grown.region.base.toNat ≤ grown.ptr.toNat ∧ grown.ptr.toNat + f.data.length ≤
        grown.region.base.toNat + grown.region.bytes.length := by
      rw [kept.base, kept.length]
      omega
    rw [Region.write, if_pos inside, counted, BitVec.ofInt_natCast] at stored
    refine ⟨0, _, stored, sound_of_fetch sound stored ?_ ?_⟩
    · show grown.buf.toNat ≤ (grown.ptr + BitVec.ofNat 64 f.data.length).toNat
      rw [BitVec.toNat_add, BitVec.toNat_ofNat]
      omega
    · show (grown.ptr + BitVec.ofNat 64 f.data.length).toNat ≤ grown.buf.toNat + grown.size.toNat
      rw [BitVec.toNat_add, BitVec.toNat_ofNat]
      omega

/-- Where nothing is mapped, there is no room. -/
theorem fetchTrace_nowhere (delivered : Delivered f = true) :
    ∃ rc, TraceBuffer.fetchTrace f .null = .ok (rc, .null) := by
  obtain ⟨counted, within, ints⟩ := delivered_spec delivered
  have aligned : Buf.null.align = .null := by decide
  by_cases more : Buf.null.remain < BitVec.ofInt 64 f.len
  · have refused : f.remap (Buf.null.size * 2) = none := by
      cases moved : f.remap (Buf.null.size * 2) with
      | none => rfl
      | some p => exact absurd p.pos (by decide)
    refine ⟨-1, ?_⟩
    simp only [TraceBuffer.fetchTrace, aligned, growFuel, growLoop, if_pos more, refused]
  · have nothing : f.data = [] := by
      have remain : Buf.null.remain.toNat = 0 := by decide
      rw [BitVec.lt_def, remain, BitVec.toNat_ofInt] at more
      have := ints.len
      exact List.eq_nil_of_length_eq_zero (by omega)
    rw [nothing] at counted
    refine ⟨0, ?_⟩
    simp only [TraceBuffer.fetchTrace, aligned, growFuel, growLoop_fits more, nothing, counted]
    rfl

theorem fetchTrace_usable (delivered : Delivered f = true) (usable : b = .null ∨ b.Sound) :
    ∃ rc b', TraceBuffer.fetchTrace f b = .ok (rc, b') ∧ (b' = .null ∨ b'.Sound) := by
  obtain rfl | sound := usable
  · obtain ⟨rc, done⟩ := fetchTrace_nowhere delivered
    exact ⟨rc, .null, done, .inl rfl⟩
  · obtain ⟨rc, b', done, sound'⟩ := fetchTrace_sound delivered sound
    exact ⟨rc, b', done, .inr sound'⟩

theorem usable_readable (usable : b = .null ∨ b.Sound) : readable b = true := by
  obtain rfl | sound := usable
  · rfl
  · exact sound_readable sound

theorem eventsMoved_granted {a : FiniAnswers} (moved : eventsMoved a b = true)
    (opened : a.ksightOpened = true) :
    ¬ Ksight.Refused a.ksightRemap b.size (Ksight.eventSize * (a.ksightQueue.length + 1)) := by
  rintro ⟨k, short, refused⟩
  simp only [eventsMoved, opened, Bool.not_true, Bool.false_or, List.all_eq_true, List.mem_range,
    Bool.or_eq_true, decide_eq_true_eq] at moved
  by_cases few : k < 64
  · rcases moved k few with enough | granted
    · omega
    · rw [refused] at granted
      cases granted
  · -- The last doubling is to 0 bytes, which cannot be mapped.
    have zero : b.size * 2 ^ 63 * 2 = 0 := by
      have wraps : (2 ^ 63 * 2 : BitVec 64) = 0#64 := by decide +kernel
      rw [BitVec.mul_assoc, wraps, BitVec.mul_zero]
      rfl
    rcases moved 63 (by decide) with enough | granted
    · have more : b.size.toNat * 2 ^ 63 ≤ b.size.toNat * 2 ^ k :=
        Nat.mul_le_mul_left _ (Nat.pow_le_pow_right (by decide) (by omega))
      omega
    · obtain ⟨p, -⟩ := Option.isSome_iff_exists.mp granted
      exact absurd p.pos (by rw [zero]; decide)

/-- A first fetch stores the events when the buffer is moved as asked. -/
theorem fetchKsightEvents_stores {a : FiniAnswers} (p : Placement TraceBuffer.defaultTraceSize.toNat)
    (moved : eventsMoved a (Ksight.allocKsightBuf p) = true) (opened : a.ksightOpened = true) :
    ∃ rc d, Ksight.fetchKsightEvents true a.ksightRemap a.ksightQueue (Ksight.allocKsightBuf p) =
      .ok (rc, d) ∧ d.buf.Holds (Ksight.payload a.ksightQueue) := by
  obtain ⟨-, holds, large⟩ := Ksight.run_holds (.alloc : Ksight.Run p [] [] _)
  have pages : pageSize ≤ (Ksight.allocKsightBuf p).size.toNat := by
    show pageSize ≤ TraceBuffer.defaultTraceSize.toNat
    decide
  obtain ⟨⟨rc, d⟩, done⟩ := Ksight.fetch_returns true a.ksightRemap a.ksightQueue
    (Ksight.allocKsightBuf p)
  obtain ⟨-, refused⟩ | ⟨kept, -⟩ := Ksight.fetch_ends holds pages done
  · rw [List.length_nil, Nat.zero_add] at refused
    exact absurd refused (eventsMoved_granted moved opened)
  · obtain ⟨-, -, -, stored, -⟩ := Ksight.fetch_spec holds large done kept
    exact ⟨rc, d, done, stored⟩

/-- The events can be exported after they were fetched. -/
theorem fetchKsightEvents_readable {a : FiniAnswers}
    (before : Unread b)
    (moved : b = .null ∨ eventsMoved a b = true) :
    ∃ rc d, Ksight.fetchKsightEvents a.ksightOpened a.ksightRemap a.ksightQueue b = .ok (rc, d) ∧
      readable d.buf = true := by
  cases opened : a.ksightOpened with
  | false =>
    refine ⟨-1, _, rfl, ?_⟩
    obtain rfl | ⟨p, rfl⟩ := before
    · rfl
    · exact usable_readable (.inr (Buf.sound_map p ⟨16, by decide⟩))
  | true =>
    obtain rfl | ⟨p, rfl⟩ := before
    · have aligned : Buf.null.align = .null := by decide
      refine ⟨0, ⟨nowhere, a.ksightQueue, [0], false⟩, ?_, rfl⟩
      rw [Ksight.fetchKsightEvents, if_pos rfl, aligned, drainLoop_nowhere]
    · obtain null | moved := moved
      · exact absurd (congrArg Buf.buf null) p.nonnull
      · obtain ⟨rc, d, done, stored⟩ := fetchKsightEvents_stores p moved opened
        exact ⟨rc, d, done, holds_readable stored⟩

/-! ## The calls -/

section
variable (cores : Etmv4Cores e) (quiet : e.registrationVerbose ≤ 0)

include cores quiet

theorem safe_enableCsTrace (pid : Parent.Pid) : Safe (Sane e K) (enableCsTrace e o pid) := by
  have first : Safe (Sane e K) (enableFirst e pid) := by
    apply safe_get
    intro g sane
    apply (safe_onRig (survives_configureTrace quiet cores sane.board _ _ _)).bind
    intro rc
    apply (safe_require _ _).bind
    intro _
    apply (safe_onRig (survives_enableTrace quiet _ _ _)).bind
    intro rc
    apply (safe_require _ _).bind
    intro _
    exact safe_aside fun _ => rfl
  have again : Safe (Sane e K) (enableAgain e) := by
    apply safe_get
    intro g _
    have walk := @survives_walk e
    exact (safe_onRig (walk.enableTraceSinksOnly (fun _ _ _ _ => trivial) _)).bind fun _ =>
      safe_require _ _
  have components : Safe (Sane e K) (enableComponents e o pid) := by
    apply Safe.enclose
    apply safe_get
    intro g _
    apply Safe.bind
    · cases g.isFirstTrace
      · exact again
      · exact first
    · exact fun _ => (Safe.when _ fun _ => safe_call _).bind fun _ => safe_pure 0
  apply components.bind
  intro rc
  exact (Safe.when _ fun _ => safe_call _).bind fun _ => safe_pure rc

theorem safe_startTrace {pid : Parent.Pid} {use : Bool} {a : StartAnswers}
    (mapped : a.traceBuf.isSome = true)
    (room : o.ksightOn = true → ∃ q, a.ksightBuf = some q ∧ K (Ksight.allocKsightBuf q)) :
    Safe (Sane e K) (startTrace e o pid use a) := by
  obtain ⟨p, placed⟩ := Option.isSome_iff_exists.mp mapped
  apply Safe.enclose
  apply (safe_require _ _).bind
  intro _
  apply Safe.bind
  · apply safe_modify
    intro g sane
    rw [placed]
    exact ⟨sane.board, .inr (Buf.sound_map p ⟨16, by decide⟩), sane.ksightBuf⟩
  intro _
  apply Safe.bind
  · apply Safe.when
    intro on
    obtain ⟨q, placed, allowed⟩ := room on
    apply safe_modify
    intro g sane
    rw [placed]
    exact ⟨sane.board, sane.traceBuf, allowed⟩
  intro _
  apply Safe.bind
  · exact safe_aside fun _ => rfl
  intro _
  apply Safe.bind
  · exact safe_aside fun _ => rfl
  intro _
  apply (safe_enableCsTrace cores quiet _).bind
  intro rc
  apply (safe_require _ _).bind
  intro _
  exact (safe_setTraceState _).bind fun _ => safe_pure rc

omit cores

theorem safe_stopTrace (all : Bool) : Safe (Sane e K) (stopTrace e all) := by
  have attempt : Safe (Sane e K) (disableAttempt e all) := by
    apply safe_get
    intro g _
    have walk := @survives_walk e
    cases all
    · exact safe_onRig (walk.disableTraceSinksOnly fun _ _ _ _ => trivial)
    · exact safe_onRig (survives_disableTrace quiet _ _)
  have loop (trials : Nat) (ret : Int) : Safe (Sane e K) (disableLoop e all trials ret) := by
    induction trials generalizing ret with
    | zero => exact safe_pure ret
    | succ trials ih =>
      apply attempt.bind
      intro ret
      split
      · exact safe_pure ret
      · exact (safe_onRig (survives_modify _)).bind fun _ => ih ret
  apply Safe.enclose
  apply (loop _ _).bind
  intro rc
  apply (safe_require _ _).bind
  intro _
  exact (safe_setTraceState _).bind fun _ => safe_pure rc

omit quiet

theorem safe_initTrace (a : InitAnswers) : Safe (Sane e K) (initTrace e o a) := by
  have components : Safe (Sane e K) (initComponents e o a) := by
    apply Safe.enclose
    apply Safe.bind
    · exact safe_aside fun _ => rfl
    intro _
    apply Safe.bind
    · exact safe_aside fun _ => rfl
    intro _
    apply (safe_require _ _).bind
    intro _
    apply (safe_require _ _).bind
    intro _
    apply Safe.bind
    · exact safe_aside fun _ => rfl
    intro _
    apply (safe_require _ _).bind
    intro _
    apply Safe.bind
    · apply (safe_onRig survives_op).bind
      intro rc
      apply Safe.bind
      · apply Safe.when
        intro _
        exact safe_modify fun g sane => ⟨.inr rfl, sane.traceBuf, sane.ksightBuf⟩
      · exact fun _ => safe_pure rc
    intro rc
    apply (safe_require _ _).bind
    intro _
    apply (safe_require _ _).bind
    intro _
    apply Safe.bind
    · exact safe_aside fun _ => rfl
    intro _
    apply safe_get
    intro g _
    apply (safe_require _ _).bind
    intro _
    exact (safe_setTraceState _).bind fun _ => safe_pure 0
  apply components.bind
  intro rc
  exact (Safe.when _ fun _ => safe_call _).bind fun _ => safe_pure rc

theorem safe_fetchTrace (delivered : Delivered f = true) : Safe (Sane e K) (fetchTrace e f) := by
  apply Safe.enclose
  apply safe_get
  intro g sane
  apply (safe_call _).bind
  intro _
  obtain ⟨rc, b, done, usable⟩ := fetchTrace_usable delivered sane.traceBuf
  rw [done]
  apply Safe.bind
  · exact safe_modify fun g sane => ⟨sane.board, usable, sane.ksightBuf⟩
  intro _
  apply (safe_require _ _).bind
  intro _
  apply (safe_call _).bind
  intro _
  apply (safe_call _).bind
  intro _
  apply Safe.bind
  · exact safe_aside fun _ => rfl
  exact fun _ => safe_pure 0

theorem safe_lastFetch {a : FiniAnswers} (served : (Api.finiTrace a).traceServed o = true) :
    Safe (Sane e K) (lastFetch e o a) := by
  unfold lastFetch
  split
  · rename_i on
    have joined : a.joined = true := by simpa [Api.traceServed, on] using served
    exact (safe_setTraceState _).bind fun _ => safe_assert joined
  · rename_i off
    have delivered : Delivered a.fetch = true := by simpa [Api.traceServed, off] using served
    exact (safe_fetchTrace delivered).bind fun _ => safe_pure ()

theorem through_lastFetch (a : FiniAnswers) : Through (lastFetch e o a) := by
  unfold lastFetch
  split
  · exact (through_modify _).bind fun _ => through_assert _
  · exact (through_enclose _).bind fun _ => through_pure ()

/-- The last call finds what it exports. -/
theorem finiTrace_survives {a : FiniAnswers} (served : (Api.finiTrace a).traceServed o = true)
    (sane : Sane e Unread g) (moved : g.ksightBuf = .null ∨ eventsMoved a g.ksightBuf = true) :
    Ensures (finiTrace e o a) (fun _ _ => True) (fun _ _ => False) g := by
  have same : Sane e (· = g.ksightBuf) g := ⟨sane.board, sane.traceBuf, rfl⟩
  apply (ensures_bind _ _).mpr
  apply ((safe_lastFetch served).returned (through_lastFetch a) same).mono
  · intro _ g₁ sane₁
    obtain ⟨rc, d, done, events⟩ := fetchKsightEvents_readable sane.ksightBuf moved
    have trace := usable_readable sane₁.traceBuf
    rw [← sane₁.ksightBuf] at done
    simp only [exportTrace, exportKsight, exportBuf, fetchKsightEvents, freeTraceBuf, onRig,
      ensures_bind, ensures_get, ensures_when, ensures_assert, ensures_modify, ensures_zoom,
      ensures_call, ensures_pure, done, trace, events, Bool.true_eq_false, false_implies,
      implies_true, and_self]
  · exact fun _ _ left => left

end

/-! ## Runs -/

section
variable {h h' : History} {c : Api}

/-- The calls before the last one leave no early return to their caller. -/
theorem through_body (more : c.isFini = false) : Through (c.body e o) := by
  cases c with
  | initTrace a =>
    exact (through_enclose _).bind fun rc =>
      (Through.when _ through_call.zoom).bind fun _ => through_pure rc
  | startTrace pid use a => exact through_enclose _
  | fetchTrace f => exact through_enclose _
  | traceSuspendCallback | traceResumeCallback =>
    exact (through_modify _).bind fun _ => through_pure 0
  | stopTrace all => exact through_enclose _
  | finiTrace a => cases more

/-- A call that is served returns, and leaves the variables sane unless it was the
last one. -/
theorem body_survives (cores : Etmv4Cores e) (quiet : e.registrationVerbose ≤ 0)
    (sane : Sane e Unread g) (answered : c.served o g = true) :
    Ensures (c.body e o) (fun _ g' => c.isFini = false → Sane e Unread g') (fun _ _ => False)
      g := by
  have kept (safe : Safe (Sane e Unread) (c.body e o)) (more : c.isFini = false) :
      Ensures (c.body e o) (fun _ g' => c.isFini = false → Sane e Unread g') (fun _ _ => False)
        g := by
    apply (safe.returned (through_body more) sane).mono
    · exact fun _ _ sane _ => sane
    · exact fun _ _ left => left
  cases c with
  | initTrace a => exact kept (safe_initTrace a) rfl
  | startTrace pid use a =>
    simp only [Api.served, Api.traceServed, Api.eventsServed, Bool.and_eq_true, Bool.or_eq_true,
      Bool.not_eq_true'] at answered
    apply kept _ rfl
    apply safe_startTrace cores quiet answered.1
    intro on
    obtain ⟨q, placed⟩ := Option.isSome_iff_exists.mp (answered.2.resolve_left (by simp [on]))
    exact ⟨q, placed, .inr ⟨q, rfl⟩⟩
  | fetchTrace f =>
    rw [Api.served, Bool.and_eq_true] at answered
    exact kept (safe_fetchTrace answered.1) rfl
  | traceSuspendCallback | traceResumeCallback =>
    exact kept ((safe_setTraceState _).bind fun _ => safe_pure 0) rfl
  | stopTrace all => exact kept (safe_stopTrace quiet all) rfl
  | finiTrace a =>
    rw [Api.served, Bool.and_eq_true] at answered
    obtain ⟨trace, events⟩ := answered
    simp only [Api.eventsServed, Bool.or_eq_true, beq_iff_eq] at events
    apply (finiTrace_survives trace sane events).mono
    · exact fun _ _ _ last => absurd last Bool.noConfusion
    · exact fun _ _ left => left

/-- What a call ensures holds after it. -/
theorem anyStep_ensures {Q : Int → Globals → Prop} {E : Exit → Globals → Prop}
    (moved : anyStep e o h c = some h') (body : Ensures (c.body e o) Q E h.globals) :
    ∃ rc, h'.events = .returned c rc :: .called c :: h.events ∧ Q rc h'.globals := by
  have entered : Ensures (enter e o c) (fun _ h' => ∃ rc,
      h'.events = .returned c rc :: .called c :: h.events ∧ Q rc h'.globals)
      (fun x h' => E x h'.globals) h := by
    apply ensures_enter.mpr
    exact body.mono (fun rc _ holds => ⟨rc, rfl, holds⟩) fun _ _ left => left
  unfold anyStep at moved
  split at moved
  · rename_i ran
    cases moved
    exact (ensures_of_ok ran).mp entered
  · cases moved

theorem anyStep_events (moved : anyStep e o h c = some h') :
    ∃ rc, h'.events = .returned c rc :: .called c :: h.events := by
  have anything : Ensures (c.body e o) (fun _ _ => True) (fun _ _ => True) h.globals :=
    ensures_const trivial _ _
  obtain ⟨rc, events, -⟩ := anyStep_ensures moved anything
  exact ⟨rc, events⟩

theorem survives_step (cores : Etmv4Cores e) (quiet : e.registrationVerbose ≤ 0)
    (sane : Sane e Unread h.globals) (answered : c.served o h.globals = true) :
    ∃ h', anyStep e o h c = some h' ∧ (c.isFini = false → Sane e Unread h'.globals) ∧
      finished h'.events = (c.isFini || finished h.events) := by
  have entered : Ensures (enter e o c) (fun _ h' => (c.isFini = false → Sane e Unread h'.globals) ∧
      finished h'.events = (c.isFini || finished h.events)) (fun _ _ => False) h := by
    apply ensures_enter.mpr
    apply (body_survives cores quiet sane answered).mono
    · exact fun _ _ kept => ⟨kept, rfl⟩
    · exact fun _ _ left => left
  obtain ⟨_, h', ran, left⟩ := entered.returns
  exact ⟨h', by rw [anyStep, ran], left⟩

/-- **No call dies.** On ETMv4 cores and with nothing to show, every call that is
served returns, in any run of such calls up to the first `fini_trace`. -/
theorem session_survives (cores : Etmv4Cores e) (quiet : e.registrationVerbose ≤ 0) {rig : Rig}
    {traceCpu : Int} (reached : Reach (anyStep e o) (served o) (.initial rig traceCpu) h)
    (next : served o h c = true) : ∃ h', anyStep e o h c = some h' := by
  have sane : finished h.events = false → Sane e Unread h.globals := by
    apply reached.invariant (fun _ => sane_initial rig traceCpu)
    intro s c t inv allowed moved open_
    simp only [served, Bool.and_eq_true, Bool.not_eq_true'] at allowed
    obtain ⟨t', moved', kept, closed⟩ := survives_step cores quiet (inv allowed.1) allowed.2
    rw [moved] at moved'
    cases moved'
    rw [open_, allowed.1, Bool.or_false] at closed
    exact kept closed.symm
  simp only [served, Bool.and_eq_true, Bool.not_eq_true'] at next
  obtain ⟨h', moved, -⟩ := survives_step cores quiet (sane next.1) next.2
  exact ⟨h', moved⟩

end

/-- The end of a session on the ZCU-104 that could not bind its tracee. -/
theorem session_survives_unbound : ∃ h h',
    Reach (anyStep zcu104 plain) (served plain) (.initial .idle (-1)) h ∧
    anyStep zcu104 plain h (.finiTrace healthy.fini) = some h' := by
  have replay : (exec (anyStep zcu104 plain) (served plain) (.initial .idle (-1))
      [.initTrace healthy.init, .startTrace 42 true { healthy.start with affinity := -1 },
        .stopTrace true]).any (fun h => served plain h (.finiTrace healthy.fini)) = true := by
    decide +kernel
  obtain ⟨h, reached, next⟩ := reach_of_exec replay
  obtain ⟨h', moved⟩ := session_survives Verbosity.zcu104_cores (by decide) reached next
  exact ⟨h, h', reached, moved⟩

end Ultrasight.Session
