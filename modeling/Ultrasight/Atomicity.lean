import Ultrasight.Discipline
import Ultrasight.Sections

/-!
# The locked functions are atomic

`enable_cs_trace`, `disable_cs_trace` and `fetch_trace` work with `trace_mutex`
held. Here each call is one transition of an abstract machine that has no
threads and no steps inside a call; the crew refines it.

* `Whole`: what one call does, and the chunk that it delivers;
* `AtomicRun`: calls one after the other;
* `crew_refines_atomic`: whatever the interleaving, the variables of
  `trace_mutex` and the record of device calls are those of an atomic run.
-/

namespace Ultrasight.Crew

open Threads TraceState TraceEvent Handshake

variable {r : Ring}

/-! ## The abstract machine -/

/-- The variables that belong to `trace_mutex`, and the device calls, which are
made with it held. -/
structure TraceData where
  isFirstTrace : Bool
  traceBuf : Buf
  device : List DeviceCall

/-- What `cs_get_trace_data` returned, and what it stored. -/
abbrev Chunk := Int × List UInt8

namespace TraceData

/-- Calls of the device, newest first. -/
def record (v : TraceData) (calls : List DeviceCall) : TraceData :=
  { v with device := calls ++ v.device }

def stored (v : TraceData) (b : Buf) : TraceData := { v with traceBuf := b }

end TraceData

/-- Any number of successful rounds of the growth loop. -/
inductive Grown (b : Buf) : Buf → Prop
  | none : Grown b b
  | round {c : Buf} (p : Placement (c.size * 2).toNat) : Grown b c → Grown b (c.move (c.size * 2) p)

/-- An attempt to disable. -/
def attempted (all : Bool) (rc : Int) : DeviceCall :=
  if all then .disableTrace rc else .disableTraceSinksOnly rc

/-- Attempts that failed, each with the reset behind it, newest first. -/
def failures (all : Bool) : List Int → List DeviceCall
  | [] => []
  | rc :: older => .csResetErrorCount :: attempted all rc :: failures all older

/-- The buffer behind `cs_get_trace_data` and the advance of the position. -/
def delivery (f : TraceBuffer.Fetch) (b : Buf) : Buf :=
  { getTraceData f b.remain b with
    ptr := (getTraceData f b.remain b).ptr + BitVec.ofInt 64 f.n }

/-- What one call of a locked function does between its lock and its unlock. -/
inductive Whole (v : TraceData) : TraceData → List Chunk → Prop
  | enabled (rc rc' : Int) (dump : List DeviceCall) (first : v.isFirstTrace = true) (ok : 0 ≤ rc)
      (ok' : 0 ≤ rc') (dumps : dump = [] ∨ dump = [DeviceCall.doDumpConfig]) :
      Whole v (TraceData.record { v with isFirstTrace := false }
        (dump ++ [.enableTrace rc', .configureTrace rc])) []
  | notConfigured (rc : Int) (first : v.isFirstTrace = true) (fail : rc < 0) :
      Whole v (v.record [.csShutdown, .configureTrace rc]) []
  | notEnabled (rc rc' : Int) (first : v.isFirstTrace = true) (ok : 0 ≤ rc) (fail : rc' < 0) :
      Whole v (v.record [.csShutdown, .enableTrace rc', .configureTrace rc]) []
  | sinksEnabled (rc : Int) (dump : List DeviceCall) (again : v.isFirstTrace = false) (ok : 0 ≤ rc)
      (dumps : dump = [] ∨ dump = [DeviceCall.doDumpConfig]) :
      Whole v (v.record (dump ++ [.enableTraceSinksOnly rc])) []
  | sinksNotEnabled (rc : Int) (again : v.isFirstTrace = false) (fail : rc < 0) :
      Whole v (v.record [.csShutdown, .enableTraceSinksOnly rc]) []
  | disabled (all : Bool) (failed : List Int) (rc : Int) (fail : ∀ x ∈ failed, x < 0)
      (few : failed.length < Session.traceDisableTrial) (ok : 0 ≤ rc) :
      Whole v (v.record (attempted all rc :: failures all failed)) []
  | notDisabled (all : Bool) (failed : List Int) (fail : ∀ x ∈ failed, x < 0)
      (many : failed.length = Session.traceDisableTrial) : Whole v (v.record (failures all failed)) []
  | fetched (len : Int) (f : TraceBuffer.Fetch) (b : Buf) (grown : Grown v.traceBuf.align b)
      (room : ¬ b.remain < BitVec.ofInt 64 len) :
      Whole v ((v.stored (delivery f b)).record
        [.csEmptyTraceBuffer, .csGetTraceData f.n, .csGetBufferUnreadBytes len])
        [(f.n, f.data.take b.remain.toNat)]
  | notFetched (len : Int) (b : Buf) (grown : Grown v.traceBuf.align b)
      (short : b.remain < BitVec.ofInt 64 len) :
      Whole v ((v.stored b).record [.csGetBufferUnreadBytes len]) []

/-- Calls one after the other, with the chunks they delivered. -/
inductive AtomicRun (first : TraceData) : TraceData → List Chunk → Prop
  | start : AtomicRun first first []
  | next {v v' : TraceData} {out inner : List Chunk} : AtomicRun first v out → Whole v v' inner →
      AtomicRun first v' (out ++ inner)

/-! ## Inside a call -/

def traceData (s : Shared r) : TraceData := ⟨s.isFirstTrace, s.traceBuf, s.device⟩

/-- What a step at this point delivers. -/
def delivered : CrewPc → Answer → List Chunk
  | .fetch (.read remain), a => [(a.fetch.n, a.fetch.data.take remain.toNat)]
  | _, _ => []

/-- What `enable_cs_trace` has done to `v` when it is at a point. -/
def EnableAt (v : TraceData) : EnablePc → TraceData → Prop
  | .enter, _ => False
  | .first, u => u = v
  | .configure, u => v.isFirstTrace = true ∧ u = v
  | .enable, u => v.isFirstTrace = true ∧ ∃ rc, 0 ≤ rc ∧ u = v.record [.configureTrace rc]
  | .clear, u => v.isFirstTrace = true ∧ ∃ rc rc', 0 ≤ rc ∧ 0 ≤ rc' ∧
      u = v.record [.enableTrace rc', .configureTrace rc]
  | .sinksOnly, u => v.isFirstTrace = false ∧ u = v
  | .dump, u => ∀ dump, (dump = [] ∨ dump = [DeviceCall.doDumpConfig]) → Whole v (u.record dump) []
  | .exit ret, u => if ret < 0 then Whole v (u.record [.csShutdown]) [] else Whole v u []
  | .leave _, u => Whole v u []

/-- What `disable_cs_trace` has done to `v` when it is at a point: all attempts
before the last have failed. -/
def DisableAt (all : Bool) (v : TraceData) : DisablePc → TraceData → Prop
  | .enter, _ => False
  | .trial left _, u => ∃ failed : List Int, (∀ x ∈ failed, x < 0) ∧
      failed.length + left = Session.traceDisableTrial ∧ u = v.record (failures all failed)
  | .attempt left, u => ∃ failed : List Int, (∀ x ∈ failed, x < 0) ∧
      failed.length + (left + 1) = Session.traceDisableTrial ∧ u = v.record (failures all failed)
  | .reset left ret, u => ret < 0 ∧ ∃ failed : List Int, (∀ x ∈ failed, x < 0) ∧
      failed.length + (left + 1) = Session.traceDisableTrial ∧
      u = v.record (attempted all ret :: failures all failed)
  | .leave _, u => Whole v u []

/-- What `fetch_trace` has done to `v` when it is at a point. Between the three
assignments of a round the variables of the buffer are not those of any buffer. -/
def FetchAt (v : TraceData) : FetchPc → TraceData → List Chunk → Prop
  | .enter, _, _ => False
  | .count, u, out => u = v ∧ out = []
  | .align len, u, out => u = v.record [.csGetBufferUnreadBytes len] ∧ out = []
  | .remain len, u, out => out = [] ∧ ∃ b, Grown v.traceBuf.align b ∧
      u = (v.stored b).record [.csGetBufferUnreadBytes len]
  | .test len remain, u, out => out = [] ∧ ∃ b, Grown v.traceBuf.align b ∧ remain = b.remain ∧
      u = (v.stored b).record [.csGetBufferUnreadBytes len]
  | .grow len, u, out => out = [] ∧ ∃ b, Grown v.traceBuf.align b ∧
      b.remain < BitVec.ofInt 64 len ∧ u = (v.stored b).record [.csGetBufferUnreadBytes len]
  | .setPtr len buf size, u, out => out = [] ∧ ∃ b, Grown v.traceBuf.align b ∧
      size = b.size * 2 ∧ ∃ p : Placement (b.size * 2).toNat, buf = p.addr ∧
      u = (v.stored { b with region := b.region.move p }).record [.csGetBufferUnreadBytes len]
  | .setBuf len buf size, u, out => out = [] ∧ ∃ b, Grown v.traceBuf.align b ∧
      size = b.size * 2 ∧ ∃ p : Placement (b.size * 2).toNat, buf = p.addr ∧
      u = (v.stored { b with region := b.region.move p, ptr := buf + (b.ptr - b.buf) }).record
        [.csGetBufferUnreadBytes len]
  | .setSize len size, u, out => out = [] ∧ ∃ b, Grown v.traceBuf.align b ∧
      size = b.size * 2 ∧ ∃ p : Placement (b.size * 2).toNat,
      u = (v.stored { b.move (b.size * 2) p with size := b.size }).record
        [.csGetBufferUnreadBytes len]
  | .read remain, u, out => out = [] ∧ ∃ b len, Grown v.traceBuf.align b ∧ remain = b.remain ∧
      ¬ b.remain < BitVec.ofInt 64 len ∧ u = (v.stored b).record [.csGetBufferUnreadBytes len]
  | .empty n, u, out => ∃ b len, Grown v.traceBuf.align b ∧ ¬ b.remain < BitVec.ofInt 64 len ∧
      ∃ f : TraceBuffer.Fetch, n = f.n ∧ out = [(f.n, f.data.take b.remain.toNat)] ∧
      u = (v.stored (getTraceData f b.remain b)).record
        [.csGetTraceData f.n, .csGetBufferUnreadBytes len]
  | .advance n, u, out => ∃ b len, Grown v.traceBuf.align b ∧ ¬ b.remain < BitVec.ofInt 64 len ∧
      ∃ f : TraceBuffer.Fetch, n = f.n ∧ out = [(f.n, f.data.take b.remain.toNat)] ∧
      u = (v.stored (getTraceData f b.remain b)).record
        [.csEmptyTraceBuffer, .csGetTraceData f.n, .csGetBufferUnreadBytes len]
  | .leave _, u, out => Whole v u out

/-- What a thread that holds `trace_mutex` has done to `v`. -/
def CallAt (v : TraceData) : CrewPc → TraceData → List Chunk → Prop
  | .enable p, u, out => out = [] ∧ EnableAt v p u
  | .disable all p, u, out => out = [] ∧ DisableAt all v p u
  | .fetch p, u, out => FetchAt v p u out
  | _, _, _ => False

variable {v : TraceData}

theorem enable_step {p : EnablePc} {a : Answer} {s s' : Shared r} {q : EnablePc ⊕ Int}
    (h : EnableAt v p (traceData s)) (stays : ∀ ret, p ≠ .leave ret)
    (moved : (enableCsTrace p).after a s = some (s', q)) :
    ∃ q', q = .inl q' ∧ EnableAt v q' (traceData s') := by
  cases p with
  | enter => cases h
  | leave ret => exact absurd rfl (stays ret)
  | first =>
    cases moved
    refine ⟨_, rfl, ?_⟩
    rw [EnableAt] at h
    split
    · rename_i first
      exact ⟨h ▸ first, h⟩
    · rename_i again
      exact ⟨h ▸ (Bool.not_eq_true _).mp again, h⟩
  | configure =>
    cases moved
    obtain ⟨first, rfl⟩ := h
    refine ⟨_, rfl, ?_⟩
    split
    · rename_i fail
      exact .notConfigured a.rc first fail
    · rename_i ok
      exact ⟨first, a.rc, Int.not_lt.mp ok, rfl⟩
  | enable =>
    cases moved
    obtain ⟨first, rc, ok, eq⟩ := h
    have next : traceData (s.record (.enableTrace a.rc)) =
        v.record [.enableTrace a.rc, .configureTrace rc] := by
      show TraceData.record (traceData s) [.enableTrace a.rc] = _
      rw [eq]
      rfl
    refine ⟨_, rfl, ?_⟩
    rw [next]
    split
    · rename_i fail
      exact .notEnabled rc a.rc first ok fail
    · rename_i ok'
      exact ⟨first, rc, a.rc, ok, Int.not_lt.mp ok', rfl⟩
  | clear =>
    cases moved
    obtain ⟨first, rc, rc', ok, ok', eq⟩ := h
    have next : traceData { s with isFirstTrace := false } =
        TraceData.record { v with isFirstTrace := false } [.enableTrace rc', .configureTrace rc] := by
      show { traceData s with isFirstTrace := false } = _
      rw [eq]
      rfl
    refine ⟨_, rfl, ?_⟩
    intro dump dumps
    have whole := Whole.enabled rc rc' dump first ok ok' dumps
    rw [next]
    simpa only [TraceData.record, List.append_assoc] using whole
  | sinksOnly =>
    cases moved
    obtain ⟨again, rfl⟩ := h
    refine ⟨_, rfl, ?_⟩
    split
    · rename_i fail
      exact .sinksNotEnabled a.rc again fail
    · rename_i ok
      intro dump dumps
      have whole := Whole.sinksEnabled a.rc dump again (Int.not_lt.mp ok) dumps
      rw [TraceData.record, List.append_assoc] at whole
      exact whole
  | dump =>
    cases moved
    refine ⟨_, rfl, ?_⟩
    show Whole v _ []
    split
    · exact h [.doDumpConfig] (.inr rfl)
    · exact h [] (.inl rfl)
  | exit ret =>
    cases moved
    refine ⟨_, rfl, ?_⟩
    rw [EnableAt] at h
    show Whole v _ []
    split
    · rename_i fail
      rw [if_pos fail] at h
      exact h
    · rename_i ok
      rw [if_neg ok] at h
      exact h

theorem disable_step {all : Bool} {p : DisablePc} {a : Answer} {s s' : Shared r}
    {q : DisablePc ⊕ Int} (h : DisableAt all v p (traceData s)) (stays : ∀ ret, p ≠ .leave ret)
    (moved : (disableCsTrace all p).after a s = some (s', q)) :
    ∃ q', q = .inl q' ∧ DisableAt all v q' (traceData s') := by
  cases p with
  | enter => cases h
  | leave ret => exact absurd rfl (stays ret)
  | trial left ret =>
    obtain ⟨failed, fail, count, eq⟩ := h
    cases left with
    | zero =>
      cases moved
      refine ⟨_, rfl, ?_⟩
      rw [eq]
      exact .notDisabled all failed fail count
    | succ left =>
      cases moved
      exact ⟨_, rfl, failed, fail, count, eq⟩
  | attempt left =>
    cases moved
    obtain ⟨failed, fail, count, eq⟩ := h
    have next : traceData (s.record (attempted all a.rc)) =
        v.record (attempted all a.rc :: failures all failed) := by
      show TraceData.record (traceData s) [attempted all a.rc] = _
      rw [eq]
      rfl
    refine ⟨_, rfl, ?_⟩
    split
    · rename_i again
      exact ⟨again, failed, fail, count, next⟩
    · rename_i done
      show Whole v (traceData (s.record (attempted all a.rc))) []
      rw [next]
      exact .disabled all failed a.rc fail (by omega) (Int.not_lt.mp done)
  | reset left ret =>
    cases moved
    obtain ⟨again, failed, fail, count, eq⟩ := h
    refine ⟨_, rfl, ret :: failed, ?_, ?_, ?_⟩
    · intro x hx
      rcases List.mem_cons.mp hx with rfl | hx
      · exact again
      · exact fail x hx
    · rw [List.length_cons]
      omega
    · show TraceData.record (traceData s) [.csResetErrorCount] = _
      rw [eq]
      rfl

theorem fetch_step {p : FetchPc} {a : Answer} {s s' : Shared r} {q : FetchPc ⊕ Int}
    {out : List Chunk} (h : FetchAt v p (traceData s) out) (stays : ∀ ret, p ≠ .leave ret)
    (moved : (fetchTrace p).after a s = some (s', q)) :
    ∃ q', q = .inl q' ∧ FetchAt v q' (traceData s') (out ++ delivered (.fetch p) a) := by
  cases p with
  | enter => cases h
  | leave ret => exact absurd rfl (stays ret)
  | count =>
    cases moved
    obtain ⟨eq, rfl⟩ := h
    refine ⟨_, rfl, ?_, rfl⟩
    show TraceData.record (traceData s) [.csGetBufferUnreadBytes a.fetch.len] = _
    rw [eq]
  | align len =>
    cases moved
    obtain ⟨eq, rfl⟩ := h
    refine ⟨_, rfl, rfl, v.traceBuf.align, .none, ?_⟩
    show (traceData s).stored (traceData s).traceBuf.align = _
    rw [eq]
    rfl
  | remain len =>
    cases moved
    obtain ⟨rfl, b, grown, eq⟩ := h
    refine ⟨_, rfl, rfl, b, grown, ?_, eq⟩
    show (traceData s).traceBuf.remain = _
    rw [eq]
    rfl
  | test len remain =>
    cases moved
    obtain ⟨rfl, b, grown, rfl, eq⟩ := h
    refine ⟨_, rfl, ?_⟩
    split
    · rename_i short
      exact ⟨rfl, b, grown, short, eq⟩
    · rename_i room
      exact ⟨rfl, b, len, grown, rfl, room, eq⟩
  | grow len =>
    obtain ⟨rfl, b, grown, short, eq⟩ := h
    have buf : s.traceBuf = b := by
      show (traceData s).traceBuf = b
      rw [eq]
      rfl
    simp only [fetchTrace, Instr.after, Option.some.injEq] at moved
    split at moved
    · cases moved
      refine ⟨_, rfl, ?_⟩
      show Whole v (traceData s) []
      rw [eq]
      exact .notFetched len b grown short
    · rename_i p _
      subst buf
      cases moved
      refine ⟨_, rfl, rfl, s.traceBuf, grown, rfl, p, rfl, ?_⟩
      show (traceData s).stored _ = _
      rw [eq]
      rfl
  | setPtr len buf size =>
    cases moved
    obtain ⟨rfl, b, grown, size, p, addr, eq⟩ := h
    refine ⟨_, rfl, rfl, b, grown, size, p, addr, ?_⟩
    show (traceData s).stored { (traceData s).traceBuf with
      ptr := buf + ((traceData s).traceBuf.ptr - (traceData s).traceBuf.buf) } = _
    rw [eq]
    rfl
  | setBuf len buf size =>
    cases moved
    obtain ⟨rfl, b, grown, size, p, rfl, eq⟩ := h
    refine ⟨_, rfl, rfl, b, grown, size, p, ?_⟩
    show (traceData s).stored { (traceData s).traceBuf with buf := p.addr } = _
    rw [eq]
    rfl
  | setSize len size =>
    cases moved
    obtain ⟨rfl, b, grown, rfl, p, eq⟩ := h
    refine ⟨_, rfl, rfl, b.move (b.size * 2) p, .round p grown, ?_⟩
    show (traceData s).stored { (traceData s).traceBuf with size := b.size * 2 } = _
    rw [eq]
    rfl
  | read remain =>
    cases moved
    obtain ⟨rfl, b, len, grown, rfl, room, eq⟩ := h
    refine ⟨_, rfl, b, len, grown, room, a.fetch, rfl, rfl, ?_⟩
    show ((traceData s).stored (getTraceData a.fetch b.remain (traceData s).traceBuf)).record
      [.csGetTraceData a.fetch.n] = _
    rw [eq]
    rfl
  | empty n =>
    cases moved
    obtain ⟨b, len, grown, room, f, rfl, rfl, eq⟩ := h
    refine ⟨_, rfl, b, len, grown, room, f, rfl, rfl, ?_⟩
    show TraceData.record (traceData s) [.csEmptyTraceBuffer] = _
    rw [eq]
    rfl
  | advance n =>
    cases moved
    obtain ⟨b, len, grown, room, f, rfl, rfl, eq⟩ := h
    refine ⟨_, rfl, ?_⟩
    have next : traceData { s with traceBuf :=
          { s.traceBuf with ptr := s.traceBuf.ptr + BitVec.ofInt 64 f.n } } =
        (v.stored (delivery f b)).record
          [.csEmptyTraceBuffer, .csGetTraceData f.n, .csGetBufferUnreadBytes len] := by
      show (traceData s).stored { (traceData s).traceBuf with
        ptr := (traceData s).traceBuf.ptr + BitVec.ofInt 64 f.n } = _
      rw [eq]
      rfl
    show Whole v _ _
    rw [next]
    exact .fetched len f b grown room

/-! ## From one end of a section to the other -/

section
variable {T : Type}

/-- A thread that leaves `trace_mutex` returns from one of its three functions. -/
theorem leaves_at {t : T} {p : CrewPc} (h : LeavesAt (code r T) .traceMutex t p) :
    (∃ ret, p = .enable (.leave ret)) ∨ (∃ all ret, p = .disable all (.leave ret)) ∨
      ∃ ret, p = .fetch (.leave ret) := by
  obtain ⟨q, instr⟩ := h
  cases p with
  | idle => rcases instr with instr | ⟨c, instr⟩ <;> cases instr
  | set new p =>
    cases p with
    | signal e p => cases p <;> rcases instr with instr | ⟨c, instr⟩ <;> cases instr
    | _ => rcases instr with instr | ⟨c, instr⟩ <;> cases instr
  | wait awaited p => cases p <;> rcases instr with instr | ⟨c, instr⟩ <;> cases instr
  | exit p => cases p <;> rcases instr with instr | ⟨c, instr⟩ <;> cases instr
  | enable p =>
    cases p with
    | leave ret => exact .inl ⟨ret, rfl⟩
    | _ => rcases instr with instr | ⟨c, instr⟩ <;> cases instr
  | disable all p =>
    cases p with
    | leave ret => exact .inr (.inl ⟨all, ret, rfl⟩)
    | trial left ret => cases left <;> rcases instr with instr | ⟨c, instr⟩ <;> cases instr
    | _ => rcases instr with instr | ⟨c, instr⟩ <;> cases instr
  | fetch p =>
    cases p with
    | leave ret => exact .inr (.inr ⟨ret, rfl⟩)
    | _ => rcases instr with instr | ⟨c, instr⟩ <;> cases instr

/-- A thread that has taken `trace_mutex` has just called one of the three. -/
theorem enters_at {t : T} {p : CrewPc} (h : EntersAt (code r T) .traceMutex t p) :
    CallAt v p v [] := by
  obtain ⟨before, instr⟩ := h
  cases before with
  | idle => rcases instr with instr | ⟨c, instr⟩ <;> cases instr
  | set new p =>
    cases p with
    | signal e p => cases p <;> rcases instr with instr | ⟨c, instr⟩ <;> cases instr
    | _ => rcases instr with instr | ⟨c, instr⟩ <;> cases instr
  | wait awaited p => cases p <;> rcases instr with instr | ⟨c, instr⟩ <;> cases instr
  | exit p => cases p <;> rcases instr with instr | ⟨c, instr⟩ <;> cases instr
  | enable p =>
    cases p with
    | enter =>
      rcases instr with instr | ⟨c, instr⟩ <;> cases instr
      exact ⟨rfl, rfl⟩
    | _ => rcases instr with instr | ⟨c, instr⟩ <;> cases instr
  | disable all p =>
    cases p with
    | enter =>
      rcases instr with instr | ⟨c, instr⟩ <;> cases instr
      exact ⟨rfl, [], nofun, rfl, rfl⟩
    | trial left ret => cases left <;> rcases instr with instr | ⟨c, instr⟩ <;> cases instr
    | _ => rcases instr with instr | ⟨c, instr⟩ <;> cases instr
  | fetch p =>
    cases p with
    | enter =>
      rcases instr with instr | ⟨c, instr⟩ <;> cases instr
      exact ⟨rfl, rfl⟩
    | _ => rcases instr with instr | ⟨c, instr⟩ <;> cases instr

/-- A step inside a call goes on in the same call. -/
theorem call_step {t : T} {p q : CrewPc} {a : Answer} {u u' : TraceData} {out : List Chunk}
    (h : CallAt v p u out) (stays : ¬ LeavesAt (code r T) .traceMutex t p)
    (step : PartStep (code r T) traceData t a p u q u') :
    CallAt v q u' (out ++ delivered p a) := by
  obtain ⟨s, s', after, rfl, rfl⟩ := step
  cases p with
  | idle | set | wait | exit => cases h
  | enable p =>
    obtain ⟨rfl, h⟩ := h
    rw [code, crewCode, after_map] at after
    obtain ⟨⟨s₁, q₁⟩, moved, eq⟩ := Option.map_eq_some_iff.mp after
    cases eq
    have inside : ∀ ret, p ≠ .leave ret := by
      rintro ret rfl
      exact stays ⟨_, .inl rfl⟩
    obtain ⟨q', rfl, next⟩ := enable_step h inside moved
    exact ⟨rfl, next⟩
  | disable all p =>
    obtain ⟨rfl, h⟩ := h
    rw [code, crewCode, after_map] at after
    obtain ⟨⟨s₁, q₁⟩, moved, eq⟩ := Option.map_eq_some_iff.mp after
    cases eq
    have inside : ∀ ret, p ≠ .leave ret := by
      rintro ret rfl
      exact stays ⟨_, .inl rfl⟩
    obtain ⟨q', rfl, next⟩ := disable_step h inside moved
    exact ⟨rfl, next⟩
  | fetch p =>
    rw [code, crewCode, after_map] at after
    obtain ⟨⟨s₁, q₁⟩, moved, eq⟩ := Option.map_eq_some_iff.mp after
    cases eq
    have inside : ∀ ret, p ≠ .leave ret := by
      rintro ret rfl
      exact stays ⟨_, .inl rfl⟩
    obtain ⟨q', rfl, next⟩ := fetch_step h inside moved
    exact next

theorem within_call {t : T} {p q : CrewPc} {u : TraceData} {out : List Chunk}
    (enters : EntersAt (code r T) .traceMutex t p)
    (within : Within (code r T) .traceMutex traceData (fun _ => delivered) t p v q u out) :
    CallAt v q u out :=
  within.invariant (enters_at enters) fun _ _ _ _ _ _ => call_step

/-- A section that is left was one whole call. -/
theorem section_whole {t : T} {p q : CrewPc} {u : TraceData} {out : List Chunk}
    (enters : EntersAt (code r T) .traceMutex t p)
    (within : Within (code r T) .traceMutex traceData (fun _ => delivered) t p v q u out)
    (leaves : LeavesAt (code r T) .traceMutex t q) : Whole v u out := by
  have done := within_call enters within
  rcases leaves_at leaves with ⟨ret, rfl⟩ | ⟨all, ret, rfl⟩ | ⟨ret, rfl⟩
  · obtain ⟨rfl, whole⟩ := done
    exact whole
  · obtain ⟨rfl, whole⟩ := done
    exact whole
  · exact done

/-- The buffer, the flag and the device belong to `trace_mutex`. -/
theorem trace_belongs : Belongs (code r T) (fun _ => CrewPc.held) .traceMutex traceData
    (fun _ => delivered) := by
  constructor
  · intro t p a s s' q after free
    have owned := (crew_move after).owned
    have buffer : s'.traceBuf = s.traceBuf := owned.buffer.resolve_right (by simp [free])
    have device := owned.device.resolve_right (by simp [free])
    simp only [traceData, buffer, device]
  · intro t p a free
    unfold delivered
    split
    · cases free
    · rfl
  · intro t p a leaves
    rcases leaves_at leaves with ⟨ret, rfl⟩ | ⟨all, ret, rfl⟩ | ⟨ret, rfl⟩ <;> rfl

theorem serial_run {first v : TraceData} {chunks : List Chunk}
    (h : Serial (code r T) .traceMutex traceData (fun _ => delivered) first v chunks) :
    AtomicRun first v chunks := by
  induction h with
  | start => exact .start
  | next _ enters within leaves ih => exact ih.next (section_whole enters within leaves)

/-! ## Runs -/

variable [DecidableEq T]

/-- The crew with the chunks that have been delivered, in the order of the reads. -/
def deliverStep (x : World r T × List Chunk) (a : Action T) : Option (World r T × List Chunk) :=
  (crewStep x.1 a).map fun w =>
    (w, x.2 ++ match a with
      | .run t answer => output (fun _ => delivered) x.1 t answer
      | .wake _ => [])

/-- Every run of the crew is one that delivers chunks. -/
theorem delivers {s : Shared r} {w : World r T}
    (h : Reach crewStep (fun _ _ => true) (start s) w) :
    ∃ chunks, Reach deliverStep (fun _ _ => true) (start s, []) (w, chunks) := by
  induction h with
  | start => exact ⟨[], .start⟩
  | @next w w' a _ allowed moved ih =>
    obtain ⟨chunks, before⟩ := ih
    have step : ∃ chunks', deliverStep (w, chunks) a = some (w', chunks') := by
      simp only [deliverStep, moved, Option.map_some, Option.some.injEq, Prod.mk.injEq, true_and,
        exists_eq']
    obtain ⟨chunks', step⟩ := step
    exact ⟨chunks', .next before rfl step⟩

theorem crew_atomic {s : Shared r} {x : World r T × List Chunk}
    (h : Reach deliverStep (fun _ _ => true) (start s, []) x) :
    Guarded (fun _ => CrewPc.held) x.1 ∧
    Atomic (code r T) .traceMutex traceData (fun _ => delivered) ⟨s.isFirstTrace, s.traceBuf, []⟩
      x.1 x.2 := by
  have begins : Atomic (code r T) .traceMutex traceData (fun _ => delivered)
      (traceData (start s : World r T).mem) (start s) [] :=
    atomic_start (fun _ => ⟨CrewPc.idle, rfl⟩) fun _ => rfl
  apply h.invariant
  · exact ⟨crew_guarded .start, begins⟩
  · rintro ⟨w, chunks⟩ a ⟨w', chunks'⟩ ⟨guarded, atomic⟩ _ step
    obtain ⟨w₁, moved, eq⟩ := Option.map_eq_some_iff.mp step
    cases eq
    cases a with
    | run t answer =>
      exact ⟨guarded_fire crew_discipline guarded moved,
        atomic_fire crew_discipline trace_belongs guarded atomic moved⟩
    | wake t =>
      simp only [List.append_nil]
      exact ⟨guarded_spurious guarded moved, atomic_spurious atomic moved⟩

/-- **The locked functions are atomic.** Any number of threads, interleaved in any
way: when `trace_mutex` is free, the buffer, the flag, the device calls and the
chunks are those of calls made one after the other; when it is not, its owner is
inside one call, and the calls before that one were made one after the other. -/
theorem crew_refines_atomic (s : Shared r) (x : World r T × List Chunk)
    (h : Reach deliverStep (fun _ _ => true) (start s, []) x) :
    (x.1.owner .traceMutex = none →
      AtomicRun ⟨s.isFirstTrace, s.traceBuf, []⟩ (traceData x.1.mem) x.2) ∧
    ∀ t, x.1.owner .traceMutex = some t → ∃ v p before inside,
      AtomicRun ⟨s.isFirstTrace, s.traceBuf, []⟩ v before ∧ x.1.ctl t = .run p ∧
        CallAt v p (traceData x.1.mem) inside ∧ x.2 = before ++ inside := by
  have atomic := (crew_atomic h).2
  constructor
  · intro free
    exact serial_run (atomic.free free)
  · intro t owner
    obtain ⟨v, before, p, q, inner, here, serial, enters, within, eq⟩ := atomic.owned t owner
    exact ⟨v, q, before, inner, serial_run serial, here, within_call enters within, eq⟩

end

/-- A trace buffer of 16 bytes. -/
def small : Shared Polling.defaultRing := { booted with traceBuf := .map 16 TraceBuffer.sixteen }

/-- A call of `fetch_trace` that is given `data`; the buffer can be moved to `0x3000`. -/
def fetches (data : List UInt8) : Answer where
  job := .fetchTrace
  rc := 0
  fetch := ⟨data.length, fun size =>
    if h : 0 < size.toNat ∧ size.toNat < 2 ^ 40 then
      some ⟨0x3000, by decide, by decide, Nat.lt_trans (Nat.add_lt_add_left h.2 _) (by decide), h.1⟩
    else none, data.length, data⟩

/-- Two threads fetch, and the second one has to make room. -/
theorem two_threads_fetch : ∃ x : World Polling.defaultRing (Fin 2) × List Chunk,
    Reach deliverStep (fun _ _ => true) (start small, []) x ∧ x.1.owner .traceMutex = none ∧
    x.2 = [(3, [1, 2, 3]), (12, List.replicate 12 4)] := by
  have replay : (exec deliverStep (fun _ _ => true)
      ((start small, []) : World _ (Fin 2) × List Chunk)
      ([.run 1 (fetches (List.replicate 12 4))] ++ List.replicate 10 (.run 0 (fetches [1, 2, 3])) ++
        List.replicate 15 (.run 1 (fetches (List.replicate 12 4))))).any
      (fun x => x.1.owner .traceMutex == none &&
        x.2 == [(3, [1, 2, 3]), (12, List.replicate 12 4)]) = true := by
    decide +kernel
  obtain ⟨x, reached, test⟩ := reach_of_exec replay
  simp only [Bool.and_eq_true, beq_iff_eq] at test
  exact ⟨x, reached, test.1, test.2⟩

/-- Two interleaved fetches are one after the other. -/
theorem two_fetches_atomic : ∃ x : World Polling.defaultRing (Fin 2) × List Chunk,
    Reach deliverStep (fun _ _ => true) (start small, []) x ∧
    x.2 = [(3, [1, 2, 3]), (12, List.replicate 12 4)] ∧
    AtomicRun ⟨true, small.traceBuf, []⟩ (traceData x.1.mem) x.2 := by
  obtain ⟨x, reached, free, chunks⟩ := two_threads_fetch
  exact ⟨x, reached, chunks, (crew_refines_atomic small x reached).1 free⟩

end Ultrasight.Crew
