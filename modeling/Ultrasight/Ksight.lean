import Ultrasight.TraceBuffer

/-!
# The ksight event buffer

`fetch_ksight_events` reads whole event records from `/dev/ksight` into a
buffer of its own, which doubles when less than one record fits. The record
size does not divide the buffer size, so the room left at a growth varies.
-/

namespace Ultrasight.Ksight

open Chunks TraceBuffer

/-- Size and alignment of a C struct whose fields have the given ones. -/
def structLayout (fields : List (Nat × Nat)) : Nat × Nat :=
  let align := fields.foldl (fun a f => max a f.2) 1
  (roundUp (fields.foldl (fun offset f => roundUp offset f.2 + f.1) 0) align, align)

/-- `struct ksight_object` under LP64: three 32-bit and two 64-bit fields. -/
def ksightObject : Nat × Nat := structLayout [(4, 4), (4, 4), (4, 4), (8, 8), (8, 8)]

/-- `struct ksight_tag_event`: two objects and a 64-bit timestamp. -/
def ksightTagEvent : Nat × Nat := structLayout [ksightObject, ksightObject, (8, 8)]

/-- `sizeof(struct ksight_tag_event)`. -/
def eventSize : Nat := ksightTagEvent.1

theorem eventSize_eq : eventSize = 72 := by decide

/-- One record as the driver copies it out. -/
structure Event where
  bytes : List UInt8
  size : bytes.length = eventSize

/-- `alloc_ksight_buf` when `mmap` succeeds at `p`. -/
def allocKsightBuf (p : Placement defaultTraceSize.toNat) : Buf := .map defaultTraceSize p

/-- What a call works on: the buffer, the driver's queue, and a record of the
call so far, namely the rooms passed to `read` and whether every `mremap`
succeeded. -/
structure Drain where
  buf : Buf
  queue : List Event
  rooms : List (BitVec 64)
  moved : Bool

/-- `mremap` to twice the size and the variables recomputed from its result;
`MAP_FAILED` is the address with all bits set, and the mapping stays. `none`:
the null result that the source tests for. -/
def grow (remap : Remap) (d : Drain) : Option Drain :=
  match remap (d.buf.size * 2) with
  | some p =>
    if p.addr = 0 then none else some { d with buf := d.buf.move (d.buf.size * 2) p }
  | none => some { d with buf := d.buf.rebase (-1) (d.buf.size * 2), moved := false }

/-- The `while (1)` loop. `read` copies as many whole records as fit in the
room, and gives 0 or `EAGAIN` when that is none; it fails with `EFAULT` when
the buffer is not mapped. -/
def drainLoop (remap : Remap) : Nat → Drain → Except Abort (Int × Drain)
  | 0, _ => .error .outOfFuel
  | fuel + 1, d =>
    match if d.buf.remain < BitVec.ofNat 64 eventSize then grow remap d else some d with
    | none => .ok (-1, d)
    | some d =>
      let room := d.buf.remain
      let events := d.queue.take (room.toNat / eventSize)
      let d := { d with rooms := d.rooms ++ [room] }
      if events.isEmpty then .ok (0, d)
      else
        match d.buf.append (events.map Event.bytes).flatten with
        | .error _ => .ok (-1, d)
        | .ok buf =>
          drainLoop remap fuel { d with buf, queue := d.queue.drop (room.toNat / eventSize) }

/-- `fetch_ksight_events` on a queue; `opened` tells whether the device could
be opened. Every round but the last takes a record, so there are at most one
more than records. -/
def fetchKsightEvents (opened : Bool) (remap : Remap) (queue : List Event) (b : Buf) :
    Except Abort (Int × Drain) :=
  if opened then drainLoop remap (queue.length + 1) ⟨b.align, queue, [], true⟩
  else .ok (-1, ⟨b, queue, [], true⟩)

/-- What `export_ksight` writes to the file. -/
def exportKsight (b : Buf) : List UInt8 := b.contents

def payload (events : List Event) : List UInt8 := (events.map Event.bytes).flatten

theorem payload_append (a b : List Event) : payload (a ++ b) = payload a ++ payload b := by
  simp [payload]

theorem payload_length (events : List Event) :
    (payload events).length = eventSize * events.length := by
  induction events with
  | nil => rfl
  | cons e es ih =>
    have size := e.size
    simp only [payload, List.map_cons, List.flatten_cons, List.length_append,
      List.length_cons] at ih ⊢
    rw [ih, size, Nat.mul_succ, Nat.add_comm]

/-- A record is a multiple of 8 bytes, so the alignment of a call changes
nothing. -/
theorem align_payload {b : Buf} {events : List Event} (h : b.Holds (payload events)) :
    b.align.Holds (payload events) := by
  have whole : 8 ∣ (payload events).length := by
    rw [payload_length]
    exact Nat.dvd_trans (by decide) (Nat.dvd_mul_right eventSize events.length)
  have aligned := h.align
  rw [padTo_of_dvd (by decide) 0 whole] at aligned
  exact aligned

theorem grow_queue {remap : Remap} {d d' : Drain} (h : grow remap d = some d') :
    d'.queue = d.queue ∧ d'.rooms = d.rooms ∧ (d'.moved = true → d.moved = true) := by
  unfold grow at h
  split at h
  · split at h
    · cases h
    · cases h; exact ⟨rfl, rfl, id⟩
  · cases h; exact ⟨rfl, rfl, by simp⟩

/-- Growing a buffer that holds content, when `mremap` succeeds. -/
theorem grow_holds (remap : Remap) {d : Drain} {content : List UInt8}
    (h : d.buf.Holds content) :
    ∃ d', grow remap d = some d' ∧
      (d'.moved = true → d'.buf.Holds content ∧ d'.buf.size.toNat = 2 * d.buf.size.toNat) := by
  unfold grow
  split
  · rename_i p _
    rw [if_neg p.nonnull]
    exact ⟨_, rfl, fun _ => h.move p⟩
  · exact ⟨_, rfl, by simp⟩

theorem drainLoop_returns (remap : Remap) {fuel : Nat} {d : Drain} (h : d.queue.length < fuel) :
    ∃ result, drainLoop remap fuel d = .ok result := by
  induction fuel generalizing d with
  | zero => omega
  | succ fuel ih =>
    simp only [drainLoop]
    split
    · exact ⟨_, rfl⟩
    · rename_i d' grown
      have queue : d'.queue = d.queue := by
        split at grown
        · exact (grow_queue grown).1
        · cases grown; rfl
      split
      · exact ⟨_, rfl⟩
      · rename_i some
        split
        · exact ⟨_, rfl⟩
        · apply ih
          simp only [List.isEmpty_iff, List.take_eq_nil_iff, not_or] at some
          have taken := Nat.pos_of_ne_zero some.1
          have left : 0 < d'.queue.length := List.length_pos_iff.mpr some.2
          rw [queue] at left
          rw [List.length_drop, queue]
          omega

/-- Each round leaves fewer records to fetch, whatever `mremap` answers. -/
theorem fetch_returns (opened : Bool) (remap : Remap) (queue : List Event) (b : Buf) :
    ∃ result, fetchKsightEvents opened remap queue b = .ok result := by
  cases opened with
  | false => exact ⟨_, rfl⟩
  | true => exact drainLoop_returns remap (Nat.lt_succ_self _)

/-- A failed `mremap` stays on record. -/
theorem drainLoop_moved {remap : Remap} {fuel : Nat} {d d' : Drain} {ret : Int}
    (h : drainLoop remap fuel d = .ok (ret, d')) (moved : d'.moved = true) : d.moved = true := by
  induction fuel generalizing d with
  | zero => cases h
  | succ fuel ih =>
    simp only [drainLoop] at h
    split at h
    · cases h; exact moved
    · rename_i d₁ grown
      have earlier : d₁.moved = true → d.moved = true := by
        split at grown
        · exact (grow_queue grown).2.2
        · cases grown; exact id
      apply earlier
      split at h
      · cases h; exact moved
      · split at h
        · cases h; exact moved
        · have kept := ih h
          exact kept

/-- A `read` gives no more records than there is room for. -/
theorem taken_fits {b : Buf} {content : List UInt8} (h : b.Holds content) (queue : List Event) :
    content.length + (payload (queue.take (b.remain.toNat / eventSize))).length ≤ b.size.toNat := by
  have few := List.length_take_le (b.remain.toNat / eventSize) queue
  have whole := Nat.mul_le_mul_left eventSize few
  have below := Nat.mul_div_le b.remain.toNat eventSize
  have remain := h.remain
  have room := h.room
  rw [payload_length]
  omega

/-- A growth that `mremap` grants, where there is one. -/
theorem grow_granted {remap : Remap} {d d₁ : Drain} {content : List UInt8}
    (h : d.buf.Holds content) (grants : remap.Grants (2 * (content.length + eventSize)))
    (grown : (if d.buf.remain < BitVec.ofNat 64 eventSize then grow remap d else some d) = some d₁) :
    d₁.buf.Holds content ∧ d₁.moved = d.moved ∧ d₁.queue = d.queue := by
  have word : (BitVec.ofNat 64 eventSize).toNat = eventSize := by decide
  split at grown
  · rename_i short
    rw [BitVec.lt_def, word, h.remain] at short
    unfold grow at grown
    split at grown
    · rename_i p _
      rw [if_neg p.nonnull] at grown
      cases grown
      exact ⟨(h.move p).1, rfl, rfl⟩
    · rename_i refused
      exact absurd refused (grants.double h.size_pos (by omega))
  · cases grown
    exact ⟨h, rfl, rfl⟩

/-- The buffer has room for a record before each `read`. -/
theorem grow_room {remap : Remap} {d d₁ : Drain} {content : List UInt8}
    (h : d.buf.Holds content) (large : eventSize ≤ d.buf.size.toNat)
    (grown : (if d.buf.remain < BitVec.ofNat 64 eventSize then grow remap d else some d) = some d₁)
    (moved : d₁.moved = true) :
    d₁.buf.Holds content ∧ eventSize ≤ d₁.buf.size.toNat ∧ eventSize ≤ d₁.buf.remain.toNat ∧
      d₁.queue = d.queue ∧ d₁.rooms = d.rooms := by
  have room := h.room
  split at grown
  · obtain ⟨queue, rooms, _⟩ := grow_queue grown
    obtain ⟨d₂, grown₂, kept⟩ := grow_holds remap h
    obtain rfl : d₁ = d₂ := Option.some.inj (grown.symm.trans grown₂)
    obtain ⟨holds, twice⟩ := kept moved
    refine ⟨holds, by omega, ?_, queue, rooms⟩
    rw [holds.remain]
    omega
  · rename_i enough
    cases grown
    refine ⟨h, large, ?_, rfl, rfl⟩
    have word : (BitVec.ofNat 64 eventSize).toNat = eventSize := by decide
    rw [BitVec.lt_def, word] at enough
    omega

/-- **One drain.** If every `mremap` of the call succeeded, the call returns 0
with the queue empty, never read into less than a record, and appended exactly
the records of the queue. -/
theorem drainLoop_spec {remap : Remap} {fuel : Nat} {d d' : Drain} {ret : Int}
    {content : List UInt8} (h : d.buf.Holds content) (large : eventSize ≤ d.buf.size.toNat)
    (rooms : ∀ room ∈ d.rooms, eventSize ≤ room.toNat)
    (result : drainLoop remap fuel d = .ok (ret, d')) (moved : d'.moved = true) :
    ret = 0 ∧ d'.queue = [] ∧ (∀ room ∈ d'.rooms, eventSize ≤ room.toNat) ∧
      d'.buf.Holds (content ++ payload d.queue) ∧ eventSize ≤ d'.buf.size.toNat := by
  induction fuel generalizing d content with
  | zero => cases result
  | succ fuel ih =>
    simp only [drainLoop] at result
    split at result
    · rename_i stuck
      split at stuck
      · obtain ⟨d₂, grown₂, _⟩ := grow_holds remap h
        rw [stuck] at grown₂
        cases grown₂
      · cases stuck
    · rename_i d₁ grown
      have moved₁ : d₁.moved = true := by
        split at result
        · cases result; exact moved
        · split at result
          · cases result; exact moved
          · have kept := drainLoop_moved result moved
            exact kept
      obtain ⟨holds, large₁, room, queue, rooms₁⟩ := grow_room h large grown moved₁
      have rooms' : ∀ room ∈ d₁.rooms ++ [d₁.buf.remain], eventSize ≤ room.toNat := by
        intro r hr
        rcases List.mem_append.mp hr with hr | hr
        · exact rooms r (rooms₁ ▸ hr)
        · rw [List.mem_singleton.mp hr]; exact room
      have some : d₁.buf.remain.toNat / eventSize ≠ 0 := by
        have : 0 < d₁.buf.remain.toNat / eventSize := Nat.div_pos room (by decide)
        omega
      split at result
      · rename_i none
        cases result
        rw [List.isEmpty_iff, List.take_eq_nil_iff] at none
        have empty : d.queue = [] := queue ▸ none.resolve_left some
        refine ⟨rfl, none.resolve_left some, rooms', ?_, large₁⟩
        rw [empty]
        simpa [payload] using holds
      · obtain ⟨b, appended, holds', size⟩ := holds.append (taken_fits holds d₁.queue)
        rw [show d₁.buf.append (List.map Event.bytes _).flatten = .ok b from appended] at result
        obtain ⟨ret0, drained, ok, final⟩ := ih holds' (by rw [size]; exact large₁) rooms' result
        refine ⟨ret0, drained, ok, ?_⟩
        rw [List.append_assoc, ← payload_append, List.take_append_drop, queue] at final
        exact final

/-- A queue that leaves room for one more record needs no `mremap`. -/
theorem drainLoop_fits {remap : Remap} {fuel : Nat} {d d' : Drain} {ret : Int}
    {content : List UInt8} (h : d.buf.Holds content)
    (fit : content.length + (payload d.queue).length + eventSize ≤ d.buf.size.toNat)
    (result : drainLoop remap fuel d = .ok (ret, d')) :
    d'.moved = d.moved ∧ d'.buf.size = d.buf.size := by
  induction fuel generalizing d content with
  | zero => cases result
  | succ fuel ih =>
    have word : (BitVec.ofNat 64 eventSize).toNat = eventSize := by decide
    have remain := h.remain
    have enough : ¬ d.buf.remain < BitVec.ofNat 64 eventSize := by
      rw [BitVec.lt_def, word]
      omega
    simp only [drainLoop, if_neg enough] at result
    split at result
    · cases result; exact ⟨rfl, rfl⟩
    · have parts := congrArg List.length (congrArg payload
        (List.take_append_drop (d.buf.remain.toNat / eventSize) d.queue))
      rw [payload_append, List.length_append] at parts
      have taken : content.length +
          (payload (d.queue.take (d.buf.remain.toNat / eventSize))).length ≤
            d.buf.size.toNat := by omega
      obtain ⟨b, appended, holds, size⟩ := h.append taken
      rw [show d.buf.append (List.map Event.bytes _).flatten = .ok b from appended] at result
      have fit' : (content ++ payload (d.queue.take (d.buf.remain.toNat / eventSize))).length +
          (payload (d.queue.drop (d.buf.remain.toNat / eventSize))).length + eventSize ≤
            b.size.toNat := by
        rw [List.length_append, size]
        omega
      obtain ⟨moved, same⟩ := ih holds fit' result
      exact ⟨moved, same.trans size⟩

/-- Every `mremap` of a call succeeds if it grants twice what the records need. -/
theorem drainLoop_granted {remap : Remap} {fuel : Nat} {d d' : Drain} {ret : Int}
    {content : List UInt8} (h : d.buf.Holds content)
    (grants : remap.Grants (2 * (content.length + (payload d.queue).length + eventSize)))
    (result : drainLoop remap fuel d = .ok (ret, d')) : d'.moved = d.moved := by
  induction fuel generalizing d content with
  | zero => cases result
  | succ fuel ih =>
    simp only [drainLoop] at result
    split at result
    · cases result; rfl
    · rename_i d₁ grown
      obtain ⟨holds, moved, queue⟩ := grow_granted h (fun size pos below => grants size pos (by omega))
        grown
      split at result
      · cases result; exact moved
      · obtain ⟨b, appended, holds', _⟩ := holds.append (taken_fits holds d₁.queue)
        rw [show d₁.buf.append (List.map Event.bytes _).flatten = .ok b from appended] at result
        refine (ih holds' ?_ result).trans moved
        show remap.Grants (2 * ((content ++ payload _).length +
          (payload (d₁.queue.drop (d₁.buf.remain.toNat / eventSize))).length + eventSize))
        have parts := congrArg List.length (congrArg payload
          (List.take_append_drop (d₁.buf.remain.toNat / eventSize) d₁.queue))
        rw [payload_append, List.length_append, queue] at parts
        rw [List.length_append, queue]
        exact fun size pos below => grants size pos (by omega)

/-- Any number of calls after `alloc_ksight_buf` at `p`, with the records that
arrived before each and those still queued. -/
inductive Run (p : Placement defaultTraceSize.toNat) : List Event → List Event → Buf → Prop
  | alloc : Run p [] [] (allocKsightBuf p)
  | fetch {events left arrived : List Event} {b : Buf} {remap : Remap} {ret : Int} {d : Drain} :
      Run p events left b → fetchKsightEvents true remap (left ++ arrived) b = .ok (ret, d) →
      d.moved = true → Run p (events ++ arrived) d.queue d.buf

/-- A call on a buffer that holds whole records. -/
theorem fetch_spec {remap : Remap} {queue : List Event} {b : Buf} {events : List Event}
    {ret : Int} {d : Drain} (h : b.Holds (payload events)) (large : eventSize ≤ b.size.toNat)
    (result : fetchKsightEvents true remap queue b = .ok (ret, d)) (moved : d.moved = true) :
    ret = 0 ∧ d.queue = [] ∧ (∀ room ∈ d.rooms, eventSize ≤ room.toNat) ∧
      d.buf.Holds (payload (events ++ queue)) ∧ eventSize ≤ d.buf.size.toNat := by
  rw [payload_append]
  exact drainLoop_spec (align_payload h) large (by simp) result moved

theorem run_holds {p : Placement defaultTraceSize.toNat} {events left : List Event} {b : Buf}
    (h : Run p events left b) :
    left = [] ∧ b.Holds (payload events) ∧ eventSize ≤ b.size.toNat := by
  induction h with
  | alloc =>
    refine ⟨rfl, Buf.holds_map p ⟨16, by decide⟩, ?_⟩
    show eventSize ≤ defaultTraceSize.toNat
    decide
  | fetch _ result moved ih =>
    obtain ⟨rfl, holds, large⟩ := ih
    obtain ⟨_, drained, _, holds', large'⟩ := fetch_spec holds large result moved
    exact ⟨drained, holds', large'⟩

/-- In a call every `mremap` succeeds if it grants twice what the records need. -/
theorem fetch_granted {remap : Remap} {queue : List Event} {b : Buf} {events : List Event}
    {ret : Int} {d : Drain} (h : b.Holds (payload events))
    (grants : remap.Grants (2 * (eventSize * (events.length + queue.length + 1))))
    (result : fetchKsightEvents true remap queue b = .ok (ret, d)) : d.moved = true := by
  refine drainLoop_granted (align_payload h) ?_ result
  show remap.Grants (2 * ((payload events).length + (payload queue).length + eventSize))
  rw [payload_length, payload_length, ← Nat.mul_add, ← Nat.mul_succ]
  exact grants

/-- **The exported file is the queue, record by record.** In every state a run
of calls reaches, the position is inside the buffer, the next call returns and,
if the kernel moves the buffer whenever asked, returns 0 with the queue drained
and without a `read` into less than a record; and slot `k` of the export is
record `k`. The kernel does so if `mremap` succeeds for every size that the records
can ask for. -/
theorem run_exports_events {p : Placement defaultTraceSize.toNat} {events left : List Event}
    {b : Buf} (h : Run p events left b) :
    (b.buf.toNat ≤ b.ptr.toNat ∧ b.ptr.toNat ≤ b.buf.toNat + b.size.toNat) ∧
    (∀ remap arrived, ∃ ret d, fetchKsightEvents true remap (left ++ arrived) b = .ok (ret, d) ∧
      (d.moved = true →
        ret = 0 ∧ d.queue = [] ∧ ∀ room ∈ d.rooms, eventSize ≤ room.toNat) ∧
      (remap.Grants (2 * (eventSize * (events.length + arrived.length + 1))) → d.moved = true)) ∧
    exportKsight b = payload events ∧
    ∀ (k : Nat) (e : Event), events[k]? = some e →
      ((exportKsight b).drop (72 * k)).take 72 = e.bytes := by
  obtain ⟨rfl, holds, large⟩ := run_holds h
  have exported : exportKsight b = payload events := holds.contents_eq
  refine ⟨holds.inside, ?_, exported, ?_⟩
  · intro remap arrived
    obtain ⟨⟨ret, d⟩, result⟩ := fetch_returns true remap ([] ++ arrived) b
    refine ⟨ret, d, result, fun moved => ?_, fun grants => ?_⟩
    · obtain ⟨ret0, drained, rooms, _⟩ := fetch_spec holds large result moved
      exact ⟨ret0, drained, rooms⟩
    · exact fetch_granted holds grants result
  · intro k e found
    rw [exported]
    apply flatten_slot
    · intro c hc
      obtain ⟨e', _, rfl⟩ := List.mem_map.mp hc
      rw [e'.size, eventSize_eq]
    · rw [List.getElem?_map, found]
      rfl

/-- A run goes on by a call whose records fit. -/
theorem run_fits {p : Placement defaultTraceSize.toNat} {events left : List Event} {b : Buf}
    (h : Run p events left b) (arrived : List Event)
    (fit : eventSize * (events.length + arrived.length + 1) ≤ b.size.toNat) :
    ∃ b', Run p (events ++ arrived) [] b' ∧ b'.size = b.size := by
  obtain ⟨rfl, holds, large⟩ := run_holds h
  obtain ⟨⟨ret, d⟩, result⟩ := fetch_returns true (fun _ => none) ([] ++ arrived) b
  have room : (payload events).length + (payload ([] ++ arrived)).length + eventSize ≤
      b.align.size.toNat := by
    simp only [payload_length, List.nil_append]
    rw [Nat.mul_succ, Nat.mul_add] at fit
    exact fit
  obtain ⟨moved, size⟩ := drainLoop_fits (align_payload holds) room result
  have run := Run.fetch h result moved
  obtain ⟨drained, _⟩ := run_holds run
  rw [drained] at run
  exact ⟨d.buf, run, size⟩

def blank (tag : UInt8) : Event := ⟨List.replicate 72 tag, rfl⟩

/-- One record in a first call and 7300 in a second one, for which the buffer is
moved. -/
theorem grown_events_exported : ∃ b,
    Run somewhere ([blank 1] ++ List.replicate 7300 (blank 2)) [] b ∧
      exportKsight b = payload ([blank 1] ++ List.replicate 7300 (blank 2)) ∧
      defaultTraceSize.toNat < (exportKsight b).length := by
  have first : Run somewhere [] [] (allocKsightBuf somewhere) := .alloc
  obtain ⟨b₁, run₁, _⟩ := run_fits first [blank 1] (by decide)
  have count : (List.replicate 7300 (blank 2)).length = 7300 := List.length_replicate
  obtain ⟨ret, d, result, drained, moved⟩ :=
    (run_exports_events run₁).2.1 elsewhere (List.replicate 7300 (blank 2))
  have grown := moved fun size pos below =>
    elsewhere_grants size pos (Nat.lt_trans below (by rw [count]; decide))
  have run₂ := run₁.fetch result grown
  rw [(drained grown).2.1] at run₂
  have exported := (run_exports_events run₂).2.2.1
  refine ⟨d.buf, run₂, exported, ?_⟩
  rw [exported, payload_length, List.length_append, count]
  decide

end Ultrasight.Ksight
