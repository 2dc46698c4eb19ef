import Ultrasight.Footprints
import Ultrasight.Runs
import Ultrasight.TwoRuns

/-!
# What the sessions before the last one leave

`start_trace` maps a new trace buffer each time and forgets the one it had, so
the file that `fini_trace` writes has the chunks fetched since the last
`start_trace`. Nothing is lost as long as nothing was fetched before it:
`nothing_lost` is about every run whose starts come before any data.
-/

namespace Ultrasight.Session

open Fn Chunks TraceBuffer

instance (f : Fetch) : Decidable f.Honest :=
  decidable_of_iff (f.n = f.data.length ∧ (f.data.length : Int) ≤ f.len ∧ f.len < 2 ^ 31)
    ⟨fun h => ⟨h.1, h.2.1, h.2.2⟩, fun h => ⟨h.counted, h.enough, h.int⟩⟩

/-- The calls to the system and to the library succeed. -/
def Api.succeeds : Api → Bool
  | .startTrace _ _ a => decide (0 ≤ a.affinity) && a.traceBuf.isSome
  | .fetchTrace f => f.Honest
  | .finiTrace a => a.fetch.Honest
  | _ => true

def Api.isStart : Api → Bool
  | .startTrace .. => true
  | _ => false

/-- `start_trace` is called only as long as nothing was fetched. -/
def beforeData (h : History) (c : Api) : Bool :=
  c.succeeds && (!c.isStart || h.globals.fetched.all List.isEmpty)

/-- The buffer has all the chunks fetched so far, in order. -/
def Stored (g : Globals) : Prop :=
  (g.traceBuf = .null ∧ ∀ c ∈ g.fetched, c = []) ∨
    ∃ content, g.traceBuf.Holds content ∧ OccursInOrder g.fetched content

/-- Nothing is exported before the end, and all chunks are stored. -/
def Storing (g : Globals) : Prop := g.exported = none ∧ Stored g

variable {e : Csal} {o : Settings}

/-! ## Functions that do not touch the buffer -/

/-- A property of the buffer and the file. -/
structure BufferOnly (P : Globals → Prop) : Prop where
  same : ∀ g g', g'.traceBuf = g.traceBuf → g'.fetched = g.fetched → g'.exported = g.exported →
    P g → P g'

theorem storing_bufferOnly : BufferOnly Storing := by
  refine ⟨fun g g' buf fetched exported h => ?_⟩
  rw [Storing, Stored, buf, fetched, exported]
  exact h

namespace BufferOnly

variable {P : Globals → Prop} (h : BufferOnly P)

include h

theorem onRig {α : Type} (x : Fn Rig α) : Keeps P (onRig x) := by
  intro g inv
  apply (ensures_zoom x).mpr
  apply (ensures_const inv x g.rig).mono
  · exact fun _ r inv => h.same g { g with rig := r } rfl rfl rfl inv
  · exact fun _ r inv => h.same g { g with rig := r } rfl rfl rfl inv

theorem setTraceState (new : TraceState) : Keeps P (setTraceState new) :=
  keeps_modify fun g => h.same g _ rfl rfl rfl

theorem coreOnly : CoreOnly P := by
  constructor
  intro g g' same
  exact h.same g g' (congrArg Core.traceBuf same) (congrArg Core.fetched same)
    (congrArg Core.exported same)

theorem enableCsTrace (pid : Parent.Pid) : Keeps P (enableCsTrace e o pid) :=
  enableCsTrace_keeps h.onRig (fun g => h.same g _ rfl rfl rfl) pid

theorem stopTrace (all : Bool) : Keeps P (stopTrace e all) :=
  stopTrace_free h.onRig (h.setTraceState _) all

theorem initTrace (a : InitAnswers) : Keeps P (initTrace e o a) := by
  apply h.coreOnly.initTrace
  · exact setupNamedBoard_keeps (h.onRig _) fun g => h.same g _ rfl rfl rfl
  · exact h.setTraceState _
  · exact h.onRig _

end BufferOnly

/-! ## Functions that do -/

/-- Before `start_trace` there is no room, so nothing but an empty chunk can be
fetched. -/
theorem fetchTrace_null {f : Fetch} (honest : f.Honest) :
    TraceBuffer.fetchTrace f .null = .ok (-1, .null) ∨
      TraceBuffer.fetchTrace f .null = .ok (0, .null) ∧ f.data = [] := by
  have aligned : Buf.null.align = .null := by decide
  have remain : Buf.null.remain = 0 := by decide
  by_cases more : Buf.null.remain < BitVec.ofInt 64 f.len
  · have refused : f.remap (Buf.null.size * 2) = none := by
      cases h : f.remap (Buf.null.size * 2) with
      | none => rfl
      | some p => exact absurd p.pos (by decide)
    have failed : growLoop f growFuel .null = .ok (.failed .null) := by
      rw [growFuel, growLoop, if_pos more, refused]
    left
    simp only [TraceBuffer.fetchTrace, aligned, failed]
  · have fits : growLoop f growFuel .null = .ok (.room .null) := growLoop_fits more
    have nothing : f.data = [] := by
      rw [BitVec.lt_def, honest.len_toNat.1, remain] at more
      have delivered := honest.len_toNat.2
      have none : f.len.toNat = 0 := by simpa using more
      exact List.eq_nil_of_length_eq_zero (by omega)
    have zero : f.n = 0 := by rw [honest.counted, nothing]; rfl
    right
    refine ⟨?_, nothing⟩
    simp only [TraceBuffer.fetchTrace, aligned, fits, nothing, zero]
    rfl

/-- A fetch stores its chunk behind the others, or fails and keeps them. -/
theorem stored_fetch {f : Fetch} (honest : f.Honest) {g : Globals} (h : Stored g) :
    (∃ b, TraceBuffer.fetchTrace f g.traceBuf = .ok (-1, b) ∧ Stored { g with traceBuf := b }) ∨
    ∃ b, TraceBuffer.fetchTrace f g.traceBuf = .ok (0, b) ∧
      Stored { g with traceBuf := b, fetched := g.fetched ++ [f.data] } := by
  obtain ⟨null, empty⟩ | ⟨content, holds, occurs⟩ := h
  · rw [null]
    rcases fetchTrace_null honest with failed | ⟨done, nothing⟩
    · exact .inl ⟨_, failed, .inl ⟨rfl, empty⟩⟩
    · refine .inr ⟨_, done, .inl ⟨rfl, ?_⟩⟩
      intro c hc
      rcases List.mem_append.mp hc with hc | hc
      · exact empty c hc
      · rw [List.mem_singleton.mp hc, nothing]
  · have padded : OccursInOrder g.fetched (padTo 8 0 content) := by
      have more := @occurs_append _ g.fetched [] content
        (List.replicate (roundUp content.length 8 - content.length) 0) occurs trivial
      rwa [List.append_nil] at more
    rcases fetchTrace_spec honest holds with ⟨b, failed, kept⟩ | ⟨b, done, kept⟩
    · exact .inl ⟨b, failed, .inr ⟨_, kept, padded⟩⟩
    · refine .inr ⟨b, done, .inr ⟨_, kept, ?_⟩⟩
      exact occurs_append padded ⟨[], [], by simp, trivial⟩

theorem fetchTrace_storing {f : Fetch} (honest : f.Honest) :
    Keeps Storing (fetchTrace e f) := by
  rintro g ⟨none, stored⟩
  apply (ensures_enclose _).mpr
  simp only [ensures_bind, ensures_get, onRig, ensures_zoom, ensures_call]
  rcases stored_fetch honest stored with ⟨b, failed, kept⟩ | ⟨b, done, kept⟩
  · simp only [failed, ensures_bind, ensures_modify, ensures_require]
    exact ⟨fun ok => absurd ok (by decide), fun _ => ⟨none, kept⟩⟩
  · simp only [done, ensures_bind, ensures_modify, ensures_require, ensures_zoom, ensures_call,
      ensures_pure]
    exact ⟨fun _ => ⟨none, kept⟩, fun bad => absurd bad (by decide)⟩

/-- What a new buffer has, it has until the next call. -/
theorem startTrace_fresh {P : Globals → Prop} (only : BufferOnly P) {pid : Parent.Pid} {use : Bool}
    {a : StartAnswers} (bound : 0 ≤ a.affinity) {p : Placement defaultTraceSize.toNat}
    (placed : a.traceBuf = some p) {g : Globals}
    (fresh : P { g with traceBuf := TraceBuffer.allocTraceBuf p }) :
    Ensures (startTrace e o pid use a) (fun _ => P) (fun _ => P) g := by
  have rest : Keeps P (do
      when o.ksightOn (allocKsightBuf a.ksightBuf)
      modify fun g => { g with childPid := pid }
      fetcherSize o a.etrSize
      let rc ← enableCsTrace e o (if use then pid else 0)
      require (0 ≤ rc) rc
      setTraceState .runningState
      pure rc) := by
    refine Leads.bind (keeps_when _ ?_) fun _ => ?_
    · exact keeps_modify fun g => only.same g _ rfl rfl rfl
    refine Leads.bind ?_ fun _ => ?_
    · exact keeps_modify fun g => only.same g _ rfl rfl rfl
    refine Leads.bind ?_ fun _ => ?_
    · exact keeps_modify fun g => only.same g _ rfl rfl rfl
    refine (only.enableCsTrace _).bind fun rc => ?_
    refine (keeps_require _ _).bind fun _ => ?_
    exact (only.setTraceState _).bind fun _ => keeps_pure _
  apply (ensures_enclose _).mpr
  apply (ensures_bind _ _).mpr
  apply (ensures_require _ _).mpr
  refine ⟨fun _ => ?_, fun bad => absurd bound (of_decide_eq_false bad)⟩
  simp only [allocTraceBuf, placed, ensures_bind (modify _), ensures_modify]
  apply (rest _ fresh).mono (fun _ _ h => h)
  intro x g' h
  cases x <;> exact h

/-- A new buffer holds everything if there is nothing yet. -/
theorem startTrace_storing {pid : Parent.Pid} {use : Bool} {a : StartAnswers} {g : Globals}
    (storing : Storing g) (succeeds : Api.succeeds (.startTrace pid use a) = true)
    (empty : ∀ c ∈ g.fetched, c = []) :
    Ensures (startTrace e o pid use a) (fun _ => Storing) (fun _ => Storing) g := by
  simp only [Api.succeeds, Bool.and_eq_true, decide_eq_true_eq] at succeeds
  obtain ⟨bound, mapped⟩ := succeeds
  obtain ⟨p, placed⟩ := Option.isSome_iff_exists.mp mapped
  apply startTrace_fresh storing_bufferOnly bound placed
  exact ⟨storing.1, .inr ⟨[], run_holds .alloc, occurs_empty empty []⟩⟩

/-- What is exported has all chunks. -/
def Complete (g : Globals) : Prop :=
  ∀ content, g.exported = some content → OccursInOrder g.fetched content

theorem complete_bufferOnly : BufferOnly Complete := by
  refine ⟨fun g g' _ fetched exported h => ?_⟩
  rw [Complete, fetched, exported]
  exact h

theorem stored_contents {g : Globals} (h : Stored g) : OccursInOrder g.fetched g.traceBuf.contents := by
  obtain ⟨_, empty⟩ | ⟨content, holds, occurs⟩ := h
  · exact occurs_empty empty _
  · rw [holds.contents_eq]
    exact occurs

theorem finiTrace_completes {a : FiniAnswers} (honest : a.fetch.Honest) :
    Leads Storing Complete (finiTrace e o a) := by
  have last : Keeps Storing (lastFetch e o a) :=
    lastFetch_keeps (storing_bufferOnly.setTraceState _) (fetchTrace_storing honest)
  have exports : Leads Storing Complete (exportTrace a.exportOpened) := by
    rintro g ⟨none, stored⟩
    simp only [exportTrace, exportBuf, ensures_bind, ensures_get, ensures_when, ensures_assert,
      ensures_modify]
    have before : Complete g := fun content some => by rw [none] at some; cases some
    refine ⟨fun _ => ⟨fun _ content written => ?_, fun _ => before⟩, fun _ => before⟩
    cases written
    exact stored_contents stored
  have only := complete_bufferOnly
  intro g storing
  apply last.before storing
  · intro _ g₁ storing
    apply exports.bind _ g₁ storing
    intro _
    refine (only.coreOnly.events a).bind fun _ => Leads.bind ?_ fun _ => ?_
    · refine keeps_get.bind fun g => ?_
      refine (keeps_when _ (only.onRig _)).bind fun _ => ?_
      exact keeps_modify fun g h => h
    · exact (only.onRig _).bind fun _ => keeps_pure _
  · rintro x g₁ ⟨none, _⟩ content some
    rw [none] at some
    cases some

/-! ## Runs -/

/-- Nothing is exported yet, or it was, and no call is left to make. -/
def Retained (h : History) : Prop :=
  Storing h.globals ∨ Complete h.globals ∧ ∀ c, admits h.events c = false

theorem storing_complete {g : Globals} (h : Storing g) : Complete g := by
  intro content some
  rw [h.1] at some
  cases some

theorem step_retains {h h' : History} {c : Api} (allowed : beforeData h c = true)
    (moved : step e o h c = some h') (retained : Retained h) : Retained h' := by
  simp only [beforeData, Bool.and_eq_true] at allowed
  obtain ⟨succeeds, early⟩ := allowed
  rcases retained with storing | ⟨_, ended⟩
  · have keep (body : Ensures (c.body e o) (fun _ => Storing) (fun _ => Storing) h.globals) :
        Retained h' :=
      .inl (@step_ensures e o c h (fun h' => Storing h'.globals) _ h' moved body).2
    cases c with
    | initTrace a => exact keep (storing_bufferOnly.initTrace a _ storing)
    | startTrace pid use a =>
      have empty : ∀ c ∈ h.globals.fetched, c = [] := by simpa [Api.isStart] using early
      exact keep (startTrace_storing storing succeeds empty)
    | fetchTrace f => exact keep (fetchTrace_storing (of_decide_eq_true succeeds) _ storing)
    | traceSuspendCallback | traceResumeCallback =>
      exact keep (((storing_bufferOnly.setTraceState _).bind fun _ => keeps_pure _) _ storing)
    | stopTrace all => exact keep (storing_bufferOnly.stopTrace all _ storing)
    | finiTrace a =>
      have body := @finiTrace_completes e o a (of_decide_eq_true succeeds) h.globals storing
      apply Or.inr
      apply (@step_ensures e o (.finiTrace a) h
        (fun h' => Complete h'.globals ∧ ∀ c, admits h'.events c = false) (fun _ => Complete) h'
        moved ?_).2
      exact body.mono (fun _ _ complete => ⟨complete, fun _ => rfl⟩) (fun _ _ complete => complete)
  · have body := ensures_const True.intro (c.body e o) h.globals
    have admitted := (@step_ensures e o c h (fun _ => True) _ h' moved body).1
    rw [ended c] at admitted
    cases admitted

/-- **Nothing is lost.** In every run in which each `start_trace` comes before
any data was fetched, the exported file has all chunks in the order of the
fetches. -/
theorem nothing_lost {rig : Rig} {traceCpu : Int} {h : History}
    (reached : Reach (step e o) beforeData (.initial rig traceCpu) h) {content : List UInt8}
    (exported : h.globals.exported = some content) : OccursInOrder h.globals.fetched content := by
  have first : Retained (.initial rig traceCpu) :=
    .inl ⟨rfl, .inl ⟨rfl, fun _ none => absurd none (List.not_mem_nil)⟩⟩
  have retained := reached.invariant first fun s c t inv allowed moved =>
    step_retains allowed moved inv
  rcases retained with storing | ⟨complete, _⟩
  · exact storing_complete storing content exported
  · exact complete content exported

/-! ## Two sessions -/

/-- The same with another buffer. -/
def withBuf (b : Buf) (g : Globals) : Globals := { g with traceBuf := b }

/-- Stopping the trace does not depend on the buffer. -/
theorem stopTrace_withBuf (b : Buf) (all : Bool) :
    Alike (fun g g' => g' = withBuf b g) (stopTrace e all) (stopTrace e all) := by
  have onRig {α : Type} (x : Fn Rig α) :
      Alike (fun g g' => g' = withBuf b g) (onRig x) (onRig x) := by
    intro g g' same
    subst same
    simp only [Session.onRig, zoom, withBuf]
    cases x g.rig with
    | ok a r => exact .ok rfl
    | error x r => exact .error rfl
  have attempt : Alike (fun g g' => g' = withBuf b g) (disableAttempt e all)
      (disableAttempt e all) := by
    apply alike_get
    rintro g g' rfl
    cases all
    · exact onRig _
    · exact onRig _
  have loop (trials : Nat) (ret : Int) : Alike (fun g g' => g' = withBuf b g)
      (disableLoop e all trials ret) (disableLoop e all trials ret) := by
    induction trials generalizing ret with
    | zero => exact alike_pure _
    | succ trials ih =>
      apply attempt.bind
      intro ret
      split
      · exact alike_pure _
      · exact (onRig _).bind fun _ => ih ret
  apply Alike.enclose
  apply (loop _ _).bind
  intro rc
  apply Alike.bind (alike_closed.require _ _)
  intro _
  apply Alike.bind
  · apply alike_modify
    rintro g g' rfl
    rfl
  · exact fun _ => alike_pure _

/-- A new buffer replaces the old one. -/
theorem startTrace_withBuf (b : Buf) {pid : Parent.Pid} {use : Bool} {a : StartAnswers}
    (succeeds : Api.succeeds (.startTrace pid use a) = true) (g : Globals) :
    startTrace e o pid use a (withBuf b g) = startTrace e o pid use a g := by
  simp only [Api.succeeds, Bool.and_eq_true, decide_eq_true_eq] at succeeds
  obtain ⟨bound, mapped⟩ := succeeds
  obtain ⟨p, placed⟩ := Option.isSome_iff_exists.mp mapped
  simp only [startTrace, bound, placed]
  rfl

/-- What happens to the other variables does not depend on the buffer. -/
theorem step_stop_withBuf (b : Buf) {all : Bool} {h h' : History}
    (moved : step e o h (.stopTrace all) = some h') :
    step e o ⟨withBuf b h.globals, h.events⟩ (.stopTrace all) =
      some ⟨withBuf b h'.globals, h'.events⟩ := by
  have stopped := @stopTrace_withBuf e b all h.globals _ rfl
  simp only [step_eq, Api.body] at moved ⊢
  generalize stopTrace e all h.globals = x at stopped moved
  generalize stopTrace e all (withBuf b h.globals) = y at stopped
  split at moved
  · rename_i admitted
    rw [if_pos admitted]
    cases stopped with
    | ok same => cases moved; rw [same]
    | error same => cases moved
  · cases moved

theorem step_start_withBuf (b : Buf) {use : Bool} {pid : Parent.Pid} {a : StartAnswers}
    (succeeds : Api.succeeds (.startTrace pid use a) = true) (h : History) :
    step e o ⟨withBuf b h.globals, h.events⟩ (.startTrace pid use a) =
      step e o h (.startTrace pid use a) := by
  simp only [step_eq, Api.body, startTrace_withBuf b succeeds]

/-- The variables, but for the buffer, after a fetch of `data`. -/
def afterFetch (e : Csal) (data : List UInt8) (g : Globals) : Globals :=
  let etb := g.devices.etb
  { g with
    rig := ((g.rig.after e (.getBufferUnreadBytes etb)).after e (.getTraceData etb)).after e
      (.emptyTraceBuffer etb)
    fetched := g.fetched ++ [data] }

theorem step_fetch {f : Fetch} {h : History} {b : Buf} (admitted : admits h.events (.fetchTrace f) = true)
    (done : TraceBuffer.fetchTrace f h.globals.traceBuf = .ok (0, b)) :
    step e o h (.fetchTrace f) = some ⟨withBuf b (afterFetch e f.data h.globals),
      .returned (.fetchTrace f) 0 :: .called (.fetchTrace f) :: h.events⟩ := by
  simp only [step_eq, admitted, if_true, Api.body, fetchTrace, enclose, bind, EStateM.bind, get_run,
    onRig, zoom, call, done]
  rfl

theorem step_start {pid : Parent.Pid} {use : Bool} {a : StartAnswers} {h h' : History}
    {p : Placement defaultTraceSize.toNat} (bound : 0 ≤ a.affinity) (placed : a.traceBuf = some p)
    (moved : step e o h (.startTrace pid use a) = some h') :
    h'.globals.traceBuf = TraceBuffer.allocTraceBuf p := by
  have only : BufferOnly fun g => g.traceBuf = TraceBuffer.allocTraceBuf p :=
    ⟨fun g g' buf _ _ h => buf.trans h⟩
  exact (@step_ensures e o (.startTrace pid use a) h
    (fun h' => h'.globals.traceBuf = TraceBuffer.allocTraceBuf p) _ h' moved
    (startTrace_fresh only bound placed rfl)).2

/-- The last fetch and the export, when there is room. -/
theorem step_fini {a : FiniAnswers} {h : History} {content : List UInt8} (off : o.fetcherOn = false)
    (quiet : o.ksightOn = false) (admitted : admits h.events (.finiTrace a) = true)
    (opened : a.exportOpened = true) (honest : a.fetch.Honest)
    (holds : h.globals.traceBuf.Holds content)
    (fit : (padTo 8 0 content).length + a.fetch.len.toNat ≤ h.globals.traceBuf.size.toNat) :
    ∃ h', step e o h (.finiTrace a) = some h' ∧
      h'.globals.exported = some (padTo 8 0 content ++ a.fetch.data) ∧
      h'.globals.fetched = h.globals.fetched ++ [a.fetch.data] := by
  obtain ⟨b, done, _⟩ := fetchTrace_fits honest holds fit
  have stored : b.Holds (padTo 8 0 content ++ a.fetch.data) := by
    rcases fetchTrace_spec honest holds with ⟨_, failed, _⟩ | ⟨_, done', stored⟩
    · rw [done] at failed; cases failed
    · rw [done] at done'; cases done'; exact stored
  have last : Ensures (lastFetch e o a) (fun _ g => g.traceBuf = b ∧
      g.fetched = h.globals.fetched ++ [a.fetch.data]) (fun _ _ => False) h.globals := by
    simp only [lastFetch, off, Bool.false_eq_true, if_false, fetchTrace, onRig, ensures_bind,
      ensures_enclose, ensures_get, ensures_zoom, ensures_call]
    rw [done]
    simp [-bind_pure_comp]
  have body : Ensures (finiTrace e o a) (fun _ g =>
      g.exported = some (padTo 8 0 content ++ a.fetch.data) ∧
      g.fetched = h.globals.fetched ++ [a.fetch.data]) (fun _ _ => False) h.globals := by
    apply (ensures_bind _ _).mpr
    apply last.mono
    · rintro _ g ⟨rfl, fetched⟩
      simp [exportTrace, exportBuf, freeTraceBuf, onRig, opened, quiet, holds_readable stored,
        stored.contents_eq, fetched, -bind_pure_comp]
    · exact fun _ _ impossible => impossible
  obtain ⟨rc, g, returned, exported, fetched⟩ := body.returns
  refine ⟨⟨g, .returned (.finiTrace a) rc :: .called (.finiTrace a) :: h.events⟩, ?_, exported,
    fetched⟩
  simp only [step_eq, admitted, if_true, Api.body, returned]

/-- The file of a session that is started, stopped and finished. -/
theorem step_session {idle running h : History} {pid : Parent.Pid} {use all : Bool}
    {a : StartAnswers} {p : Placement defaultTraceSize.toNat} {fini : FiniAnswers}
    (bound : 0 ≤ a.affinity) (placed : a.traceBuf = some p)
    (started : step e o idle (.startTrace pid use a) = some running)
    (stopped : step e o running (.stopTrace all) = some h)
    (off : o.fetcherOn = false) (quiet : o.ksightOn = false)
    (admitted : admits h.events (.finiTrace fini) = true) (opened : fini.exportOpened = true)
    (honest : fini.fetch.Honest) (fit : fini.fetch.len.toNat ≤ defaultTraceSize.toNat) :
    ∃ last, step e o h (.finiTrace fini) = some last ∧
      last.globals.exported = some fini.fetch.data ∧
      last.globals.fetched = h.globals.fetched ++ [fini.fetch.data] := by
  have only : BufferOnly fun g => g.traceBuf = TraceBuffer.allocTraceBuf p :=
    ⟨fun g g' buf _ _ h => buf.trans h⟩
  have buf : h.globals.traceBuf = TraceBuffer.allocTraceBuf p :=
    (@step_ensures e o (.stopTrace all) running
      (fun h' => h'.globals.traceBuf = TraceBuffer.allocTraceBuf p) _ h stopped
      (only.stopTrace all _ (step_start bound placed started))).2
  have empty : h.globals.traceBuf.Holds [] := buf ▸ run_holds .alloc
  have size : h.globals.traceBuf.size = defaultTraceSize := by rw [buf]; rfl
  apply step_fini off quiet admitted opened honest empty
  rw [size, padTo_of_dvd (by decide) 0 (Nat.dvd_zero 8)]
  simpa using fit

def oneByte : Fetch := ⟨1, fun _ => none, 1, [1]⟩

theorem oneByte_honest : oneByte.Honest := ⟨rfl, by decide, by decide⟩

def readsOneByte : FiniAnswers := { healthy.fini with fetch := oneByte }

theorem empty_session :
    (exec (step zcu104 plain) beforeData (.initial .idle (-1))
      [.initTrace healthy.init, .startTrace 42 true healthy.start, .stopTrace false]).any
      (fun idle =>
    (step zcu104 plain idle (.startTrace 43 true healthy.start)).any fun running =>
    (step zcu104 plain running (.stopTrace true)).any fun h =>
    beforeData idle (.startTrace 43 true healthy.start) &&
    admits h.events (.finiTrace readsOneByte)) = true := by
  decide +kernel

/-- A first session that fetches nothing, and a second one with one byte. -/
theorem second_session_kept : ∃ h,
    Reach (step zcu104 plain) beforeData (.initial .idle (-1)) h ∧
    h.globals.exported = some [1] ∧ OccursInOrder h.globals.fetched [1] := by
  obtain ⟨idle, ran, run⟩ := (Option.any_eq_true _ _).mp empty_session
  obtain ⟨running, started, run⟩ := (Option.any_eq_true _ _).mp run
  obtain ⟨h, stopped, run⟩ := (Option.any_eq_true _ _).mp run
  simp only [Bool.and_eq_true] at run
  obtain ⟨last, done, exported, _⟩ := step_session (by decide) rfl started stopped rfl rfl run.2 rfl
    oneByte_honest (by decide)
  have reached := (((exec_reach ran).next run.1 started).next rfl stopped).next rfl done
  exact ⟨last, reached, exported, nothing_lost reached exported⟩

def oneByteEvents (events : List ApiEvent) : List ApiEvent :=
  .returned (.fetchTrace oneByte) 0 :: .called (.fetchTrace oneByte) :: events

theorem fetched_session :
    (exec (step zcu104 plain) (fun _ c => c.succeeds) (.initial .idle (-1))
      [.initTrace healthy.init]).any (fun ready =>
    (step zcu104 plain ready (.startTrace 42 true healthy.start)).any fun fetching =>
    (step zcu104 plain ⟨afterFetch zcu104 oneByte.data fetching.globals,
      oneByteEvents fetching.events⟩ (.stopTrace false)).any fun idle =>
    (step zcu104 plain idle (.startTrace 43 true healthy.start)).any fun running =>
    (step zcu104 plain running (.stopTrace true)).any fun h =>
    admits fetching.events (.fetchTrace oneByte) && admits h.events (.finiTrace healthy.fini) &&
    h.globals.fetched == [[1]]) = true := by
  decide +kernel

/-- Two sessions: the first fetches a byte, the second nothing, and the file
stays empty. -/
theorem first_session_lost : ∃ h,
    Reach (step zcu104 plain) (fun _ c => c.succeeds) (.initial .idle (-1)) h ∧
    ∃ content, h.globals.exported = some content ∧
      ¬ OccursInOrder h.globals.fetched content := by
  obtain ⟨ready, ran, run⟩ := (Option.any_eq_true _ _).mp fetched_session
  obtain ⟨fetching, started, run⟩ := (Option.any_eq_true _ _).mp run
  obtain ⟨idle, stopped, run⟩ := (Option.any_eq_true _ _).mp run
  obtain ⟨running, restarted, run⟩ := (Option.any_eq_true _ _).mp run
  obtain ⟨h, restopped, run⟩ := (Option.any_eq_true _ _).mp run
  simp only [Bool.and_eq_true, beq_iff_eq] at run
  obtain ⟨⟨admitted, ended⟩, fetched⟩ := run
  -- The fetch of the first session.
  have buf := step_start (by decide) rfl started
  have empty : fetching.globals.traceBuf.Holds [] := buf ▸ run_holds .alloc
  obtain ⟨b, done, _⟩ := fetchTrace_fits oneByte_honest empty (by rw [buf]; decide)
  have fetch := @step_fetch zcu104 plain _ _ _ admitted done
  -- The second session, from the end of the first, where the buffer is `b`.
  obtain ⟨last, finished, exported, all⟩ := step_session (by decide) rfl restarted restopped rfl
    rfl ended rfl ⟨rfl, by decide, by decide⟩ (by decide)
  have restarted' := (@step_start_withBuf zcu104 plain b true 43 healthy.start rfl idle).trans
    restarted
  have reached := ((exec_reach ran).next rfl started).next rfl fetch
  have reached := (reached.next rfl (step_stop_withBuf b stopped)).next rfl restarted'
  refine ⟨last, (reached.next rfl restopped).next rfl finished, _, exported, ?_⟩
  rw [all, fetched]
  rintro ⟨gap, rest, impossible, _⟩
  simp [healthy] at impossible

end Ultrasight.Session
