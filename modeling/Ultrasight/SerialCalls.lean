import Ultrasight.Atomicity

/-!
# Calls of the locked functions in any order

What one call keeps, runs of calls keep, and with them every interleaving of
threads that make the calls.

* `enabled_once`: the sources of the CPUs are configured and switched on once,
  however many threads ask for it;
* `crew_exports_layout`: the buffer holds the chunks of all threads, in the order
  of the reads.
-/

namespace Ultrasight.Crew

open Threads TraceState TraceEvent Handshake Chunks

variable {r : Ring} {v : TraceData}

/-! ## The sources -/

/-- The call programs or switches on the sources of the CPUs. -/
def DeviceCall.configuring : DeviceCall → Bool
  | .configureTrace _ | .enableTrace _ => true
  | _ => false

/-- The call switched the sources on. -/
def DeviceCall.enabling : DeviceCall → Bool
  | .enableTrace rc => 0 ≤ rc
  | _ => false

/-- Behind a call that switched the sources on, none programs them again. -/
def Once (calls : List DeviceCall) : Prop :=
  calls.Pairwise fun later earlier => earlier.enabling = true → later.configuring = false

/-- `is_first_trace` says whether the sources have been switched on. -/
structure Flagged (flag : Bool) (v : TraceData) : Prop where
  once : Once v.device
  first : v.isFirstTrace = false ↔ flag = false ∨ ∃ c ∈ v.device, c.enabling = true

theorem once_quiet {calls older : List DeviceCall} (quiet : ∀ c ∈ calls, c.configuring = false)
    (once : Once older) : Once (calls ++ older) := by
  induction calls with
  | nil => exact once
  | cons c calls ih =>
    obtain ⟨here, rest⟩ := List.forall_mem_cons.mp quiet
    exact List.Pairwise.cons (fun _ _ _ => here) (ih rest)

theorem enabling_configuring {c : DeviceCall} (quiet : c.configuring = false) :
    c.enabling = false := by
  cases c <;> first | rfl | cases quiet

/-- Calls that switch nothing on leave the flag right. -/
theorem Flagged.silent {flag : Bool} {calls : List DeviceCall} (h : Flagged flag v)
    (silent : ∀ c ∈ calls, c.enabling = false) (once : Once (calls ++ v.device)) :
    Flagged flag (v.record calls) := by
  constructor
  · exact once
  · show v.isFirstTrace = false ↔ _ ∨ ∃ c ∈ calls ++ v.device, _
    rw [h.first]
    constructor
    · rintro (off | ⟨c, hc, on⟩)
      · exact .inl off
      · exact .inr ⟨c, List.mem_append_right _ hc, on⟩
    · rintro (off | ⟨c, hc, on⟩)
      · exact .inl off
      · rcases List.mem_append.mp hc with hc | hc
        · rw [silent c hc] at on
          cases on
        · exact .inr ⟨c, hc, on⟩

theorem Flagged.quiet {flag : Bool} {calls : List DeviceCall} (h : Flagged flag v)
    (quiet : ∀ c ∈ calls, c.configuring = false) : Flagged flag (v.record calls) :=
  h.silent (fun c hc => enabling_configuring (quiet c hc)) (once_quiet quiet h.once)

theorem Flagged.stored {flag : Bool} (h : Flagged flag v) (b : Buf) : Flagged flag (v.stored b) :=
  ⟨h.once, h.first⟩

/-- While nothing has been switched on, everything may be called. -/
theorem Once.cons {c : DeviceCall} {older : List DeviceCall} (h : Once older)
    (none : ∀ c ∈ older, c.enabling = false) : Once (c :: older) := by
  refine List.Pairwise.cons ?_ h
  intro c' hc on
  rw [none c' hc] at on
  cases on

theorem Once.append {calls older : List DeviceCall} (h : Once older)
    (none : ∀ c ∈ older, c.enabling = false) (silent : ∀ c ∈ calls, c.enabling = false) :
    Once (calls ++ older) := by
  induction calls with
  | nil => exact h
  | cons c calls ih =>
    obtain ⟨_, rest⟩ := List.forall_mem_cons.mp silent
    apply (ih rest).cons
    intro c' hc
    rcases List.mem_append.mp hc with hc | hc
    · exact rest c' hc
    · exact none c' hc

theorem Flagged.none {flag : Bool} (h : Flagged flag v) (first : v.isFirstTrace = true) :
    flag = true ∧ ∀ c ∈ v.device, c.enabling = false := by
  have never := (not_congr h.first).mp (by simp [first])
  constructor
  · cases flag with
    | true => rfl
    | false => exact absurd (.inl rfl) never
  · intro c hc
    cases on : c.enabling with
    | false => rfl
    | true => exact absurd (.inr ⟨c, hc, on⟩) never

/-- A first call that fails leaves the flag set. -/
theorem Flagged.failed {flag : Bool} {calls : List DeviceCall} (h : Flagged flag v)
    (first : v.isFirstTrace = true) (silent : ∀ c ∈ calls, c.enabling = false) :
    Flagged flag (v.record calls) :=
  h.silent silent (h.once.append (h.none first).2 silent)

theorem failures_quiet (all : Bool) (failed : List Int) :
    ∀ c ∈ failures all failed, c.configuring = false := by
  induction failed with
  | nil => exact nofun
  | cons rc older ih =>
    have attempt : (attempted all rc).configuring = false := by cases all <;> rfl
    exact List.forall_mem_cons.mpr ⟨rfl, List.forall_mem_cons.mpr ⟨attempt, ih⟩⟩

theorem attempts_quiet (all : Bool) (rc : Int) (failed : List Int) :
    ∀ c ∈ attempted all rc :: failures all failed, c.configuring = false := by
  have attempt : (attempted all rc).configuring = false := by cases all <;> rfl
  exact List.forall_mem_cons.mpr ⟨attempt, failures_quiet all failed⟩

theorem dump_quiet {dump : List DeviceCall} (dumps : dump = [] ∨ dump = [DeviceCall.doDumpConfig]) :
    ∀ c ∈ dump, c.configuring = false := by
  rcases dumps with rfl | rfl
  · exact nofun
  · simp [DeviceCall.configuring]

/-- Every call keeps the flag right. -/
theorem Whole.flagged {flag : Bool} {u : TraceData} {out : List Chunk} (h : Whole v u out)
    (before : Flagged flag v) : Flagged flag u := by
  cases h with
  | enabled rc rc' dump first ok ok' dumps =>
    obtain ⟨rfl, none⟩ := before.none first
    have configured : Once (.configureTrace rc :: v.device) := before.once.cons none
    have programmed : Once (.enableTrace rc' :: .configureTrace rc :: v.device) := by
      apply configured.cons
      simpa [DeviceCall.enabling] using none
    constructor
    · simp only [TraceData.record, List.append_assoc, List.cons_append, List.nil_append]
      exact once_quiet (dump_quiet dumps) programmed
    · simp only [TraceData.record, true_iff]
      refine .inr ⟨.enableTrace rc', ?_, decide_eq_true ok'⟩
      simp
  | notConfigured rc first fail =>
    apply before.failed first
    simp [DeviceCall.enabling]
  | notEnabled rc rc' first ok fail =>
    apply before.failed first
    simpa [DeviceCall.enabling] using fail
  | sinksEnabled rc dump again ok dumps =>
    apply before.quiet
    intro c hc
    rcases List.mem_append.mp hc with hc | hc
    · exact dump_quiet dumps c hc
    · rw [List.mem_singleton.mp hc]
      rfl
  | sinksNotEnabled rc again fail =>
    apply before.quiet
    simp [DeviceCall.configuring]
  | disabled all failed rc => exact before.quiet (attempts_quiet all rc failed)
  | notDisabled all failed => exact before.quiet (failures_quiet all failed)
  | fetched len f b =>
    apply (before.stored _).quiet
    simp [DeviceCall.configuring]
  | notFetched len b =>
    apply (before.stored _).quiet
    simp [DeviceCall.configuring]

theorem AtomicRun.flagged {first : TraceData} {chunks : List Chunk}
    (h : AtomicRun first v chunks) (begins : first.device = []) :
    Flagged first.isFirstTrace v := by
  induction h with
  | start =>
    constructor
    · rw [begins]
      exact .nil
    · simp [begins]
  | next _ whole ih => exact whole.flagged ih

/-- The sources are not switched on twice inside of a call either. -/
theorem EnableAt.once {flag : Bool} {p : EnablePc} {u : TraceData} (h : EnableAt v p u)
    (before : Flagged flag v) : Once u.device := by
  cases p with
  | enter => cases h
  | first =>
    obtain rfl := h
    exact before.once
  | configure | sinksOnly =>
    obtain ⟨_, rfl⟩ := h
    exact before.once
  | enable =>
    obtain ⟨first, rc, ok, rfl⟩ := h
    exact before.once.cons (before.none first).2
  | clear =>
    obtain ⟨first, rc, rc', ok, ok', rfl⟩ := h
    have whole := Whole.enabled rc rc' [] first ok ok' (.inl rfl)
    exact (whole.flagged before).once
  | dump => exact ((h [] (.inl rfl)).flagged before).once
  | exit ret =>
    rw [EnableAt] at h
    split at h
    · exact (h.flagged before).once.of_cons
    · exact (h.flagged before).once
  | leave ret => exact (Whole.flagged h before).once

theorem DisableAt.once {flag all : Bool} {p : DisablePc} {u : TraceData}
    (h : DisableAt all v p u) (before : Flagged flag v) : Once u.device := by
  cases p with
  | enter => cases h
  | trial left ret =>
    obtain ⟨failed, _, _, rfl⟩ := h
    exact once_quiet (failures_quiet all failed) before.once
  | attempt left =>
    obtain ⟨failed, _, _, rfl⟩ := h
    exact once_quiet (failures_quiet all failed) before.once
  | reset left ret =>
    obtain ⟨_, failed, _, _, rfl⟩ := h
    exact once_quiet (attempts_quiet all ret failed) before.once
  | leave ret => exact (Whole.flagged h before).once

theorem FetchAt.once {flag : Bool} {p : FetchPc} {u : TraceData} {out : List Chunk}
    (h : FetchAt v p u out) (before : Flagged flag v) : Once u.device := by
  have unread (len : Int) : Once (.csGetBufferUnreadBytes len :: v.device) :=
    List.Pairwise.cons (fun _ _ _ => rfl) before.once
  have got (n len : Int) : Once (.csGetTraceData n :: .csGetBufferUnreadBytes len :: v.device) :=
    List.Pairwise.cons (fun _ _ _ => rfl) (unread len)
  cases p with
  | enter => cases h
  | count =>
    obtain ⟨rfl, _⟩ := h
    exact before.once
  | align len =>
    obtain ⟨rfl, _⟩ := h
    exact unread len
  | remain len =>
    obtain ⟨_, b, _, rfl⟩ := h
    exact unread len
  | test len remain | grow len =>
    obtain ⟨_, b, _, _, rfl⟩ := h
    exact unread len
  | setPtr len buf size | setBuf len buf size =>
    obtain ⟨_, b, _, _, p, _, rfl⟩ := h
    exact unread len
  | setSize len size =>
    obtain ⟨_, b, _, _, p, rfl⟩ := h
    exact unread len
  | read remain =>
    obtain ⟨_, b, len, _, _, _, rfl⟩ := h
    exact unread len
  | empty n =>
    obtain ⟨b, len, _, _, f, _, _, rfl⟩ := h
    exact got f.n len
  | advance n =>
    obtain ⟨b, len, _, _, f, _, _, rfl⟩ := h
    exact List.Pairwise.cons (fun _ _ _ => rfl) (got f.n len)
  | leave ret => exact (Whole.flagged h before).once

theorem CallAt.once {flag : Bool} {p : CrewPc} {u : TraceData} {out : List Chunk}
    (h : CallAt v p u out) (before : Flagged flag v) : Once u.device := by
  cases p with
  | idle | set | wait | exit => cases h
  | enable p => exact h.2.once before
  | disable all p => exact h.2.once before
  | fetch p => exact FetchAt.once h before

section
variable {T : Type} [DecidableEq T]

/-- **The sources are switched on once.** However many threads call
`enable_cs_trace`, and whatever fails: once `enable_trace` has succeeded no call
configures or enables the sources again, and `is_first_trace` says whether it
has. -/
theorem enabled_once (s : Shared r) (w : World r T)
    (h : Reach crewStep (fun _ _ => true) (start s) w) :
    Once w.mem.device ∧
    (w.owner .traceMutex = none → (w.mem.isFirstTrace = false ↔
      s.isFirstTrace = false ∨ ∃ c ∈ w.mem.device, c.enabling = true)) := by
  obtain ⟨chunks, delivered⟩ := delivers h
  obtain ⟨free, owned⟩ := crew_refines_atomic s (w, chunks) delivered
  constructor
  · cases owner : w.owner .traceMutex with
    | none => exact ((free owner).flagged rfl).once
    | some t =>
      obtain ⟨v, p, _, _, run, _, inside, _⟩ := owned t owner
      exact inside.once (run.flagged rfl)
  · intro none
    exact ((free none).flagged rfl).first

end

/-! ## The buffer -/

/-- The device says how many bytes it stored. -/
def Counted (chunks : List Chunk) : Prop := ∀ c ∈ chunks, c.1 = c.2.length

/-- What the device stored, call by call. -/
def stored (chunks : List Chunk) : List (List UInt8) := chunks.map Prod.snd

theorem Grown.holds {b b' : Buf} {content : List UInt8} (grown : Grown b b')
    (h : b.Holds content) : b'.Holds content := by
  induction grown with
  | none => exact h
  | round p _ ih => exact (ih.move p).1

/-- What fits is delivered behind what is stored. -/
theorem delivery_holds {f : TraceBuffer.Fetch} {b : Buf} {content : List UInt8}
    (h : b.Holds content) (counted : f.n = (f.data.take b.remain.toNat).length) :
    (delivery f b).Holds (content ++ f.data.take b.remain.toNat) := by
  have fit : content.length + (f.data.take b.remain.toNat).length ≤ b.size.toNat := by
    have room := h.room
    have short := List.length_take_le b.remain.toNat f.data
    have remain := h.remain
    omega
  obtain ⟨b', appended, holds, _⟩ := h.append fit
  have same : delivery f b = b' := by
    simp only [Buf.append] at appended
    cases written : b.region.write b.ptr (f.data.take b.remain.toNat) with
    | error e =>
      rw [written] at appended
      cases appended
    | ok region =>
      rw [written] at appended
      cases appended
      simp only [delivery, getTraceData, written, counted, BitVec.ofInt_natCast]
  rw [same]
  exact holds

theorem Whole.lays {u : TraceData} {before out : List Chunk} (h : Whole v u out)
    (lays : TraceBuffer.Lays v.traceBuf (stored before)) (counted : Counted out) :
    TraceBuffer.Lays u.traceBuf (stored (before ++ out)) := by
  cases h with
  | fetched len f b grown room =>
    have here : f.n = (f.data.take b.remain.toNat).length := counted _ List.mem_cons_self
    have holds := delivery_holds (grown.holds lays.align) here
    refine .inl ?_
    rw [stored, List.map_append, List.map_singleton, layout_snoc]
    exact holds
  | notFetched len b grown short =>
    rw [List.append_nil]
    exact .inr (grown.holds lays.align)
  | enabled | notConfigured | notEnabled | sinksEnabled | sinksNotEnabled | disabled
  | notDisabled =>
    rw [List.append_nil]
    exact lays

theorem AtomicRun.lays {first : TraceData} {chunks : List Chunk} (h : AtomicRun first v chunks)
    (empty : first.traceBuf.Holds []) (counted : Counted chunks) :
    TraceBuffer.Lays v.traceBuf (stored chunks) := by
  induction h with
  | start => exact .inl empty
  | next _ whole ih =>
    obtain ⟨before, inner⟩ := List.forall_mem_append.mp counted
    exact whole.lays (ih before) inner

/-- A thread in the way of another one, both wanting the first trace. -/
theorem enabled_once_by_two : ∃ w : World Polling.defaultRing (Fin 2),
    Reach crewStep (fun _ _ => true) (start booted) w ∧
    w.mem.device = [.enableTraceSinksOnly 0, .enableTrace 0, .configureTrace 0] ∧
    Once w.mem.device := by
  have replay : (exec crewStep (fun _ _ => true) (start booted : World _ (Fin 2))
      ([.run 1 (succeeds .enableCsTrace)] ++
        List.replicate 9 (.run 0 (succeeds .enableCsTrace)) ++
        List.replicate 6 (.run 1 (succeeds .enableCsTrace)))).any
      (fun w => w.mem.device == [.enableTraceSinksOnly 0, .enableTrace 0, .configureTrace 0]) =
        true := by
    decide +kernel
  obtain ⟨w, reached, test⟩ := reach_of_exec replay
  exact ⟨w, reached, beq_iff_eq.mp test, (enabled_once booted w reached).1⟩

section
variable {T : Type} [DecidableEq T]

/-- **No chunk is lost, doubled or mixed with another.** Any number of threads
fetch into one buffer, and call everything else as well. Whenever `trace_mutex` is
free the buffer holds the chunks in the order of the reads, each at a multiple
of 8, and the export is their layout, up to the zeros of an alignment. -/
theorem crew_exports_layout (s : Shared r) (empty : s.traceBuf.Holds [])
    (x : World r T × List Chunk) (h : Reach deliverStep (fun _ _ => true) (start s, []) x)
    (free : x.1.owner .traceMutex = none) (counted : Counted x.2) :
    TraceBuffer.Lays x.1.mem.traceBuf (stored x.2) ∧
    (TraceBuffer.exportTrace x.1.mem.traceBuf = layout 8 0 (stored x.2) ∨
      TraceBuffer.exportTrace x.1.mem.traceBuf = padTo 8 0 (layout 8 0 (stored x.2))) := by
  have run := (crew_refines_atomic s x h).1 free
  have lays : TraceBuffer.Lays x.1.mem.traceBuf (stored x.2) := run.lays empty counted
  exact ⟨lays, lays.exported⟩

end

/-- The second chunk stands behind the first one, at offset 8. -/
theorem two_threads_exported : ∃ x : World Polling.defaultRing (Fin 2) × List Chunk,
    Reach deliverStep (fun _ _ => true) (start small, []) x ∧
    x.2 = [(3, [1, 2, 3]), (12, List.replicate 12 4)] ∧
    layout 8 0 (stored x.2) = [1, 2, 3, 0, 0, 0, 0, 0] ++ List.replicate 12 4 ∧
    TraceBuffer.Lays x.1.mem.traceBuf (stored x.2) := by
  obtain ⟨x, reached, free, chunks⟩ := two_threads_fetch
  have counted : Counted x.2 := by
    simp [Counted, chunks]
  have empty : small.traceBuf.Holds [] := Buf.holds_map TraceBuffer.sixteen ⟨1, rfl⟩
  have lays := crew_exports_layout small empty x reached free counted
  refine ⟨x, reached, chunks, ?_, lays.1⟩
  rw [chunks]
  decide

end Ultrasight.Crew
