import Ultrasight.SinkPolling

/-!
# What a poll counts

`curr_offset` is the distance of the write position from where `init_pos` was
sampled. It is the number of unread bytes as long as nothing is written before
the sampling and no write reaches the end of the ring: `poll_counts_unread`.
-/

namespace Ultrasight.SinkPolling

variable {r : Ring}

/-- Fewer bytes are unread than the ring holds. -/
def few (s : State r) : Action → Bool
  | .write n => s.etr.unread + n < r.size
  | .next _ _ => true

/-- `init_pos` is about to be compared with. -/
def Pc.sampled : Pc → Bool
  | .alive | .offset | .nanosleep => true
  | _ => false

/-- The ring is empty, and `init_pos` is still to be sampled. -/
def Pc.unsampled : Pc → Bool
  | .initPos | .enable | .cont | .waitResumed | .resample => true
  | _ => false

/-- Nothing is written before `init_pos` is sampled, and from then on no write
reaches the end of the ring until a poll stops the tracee. -/
def counted (s : State r) : Action → Bool
  | .write n =>
    !(s.pc.unsampled && n != 0) && !(s.pc.sampled && decide (r.size ≤ s.etr.offset + n))
  | .next _ _ => true

/-- `init_pos` is as far behind the write position as bytes are unread. -/
def Sampled (s : State r) : Prop :=
  ∃ v : r.Writer, s.initPos = v.position ∧ v.offset + s.etr.unread = s.etr.offset

structure Counts (s : State r) : Prop where
  sampled : s.pc.sampled = true → Sampled s
  unsampled : s.pc.unsampled = true → s.etr.unread = 0

theorem Sampled.currOffset {s : State r} (h : Sampled s) :
    s.currOffset.toNat = s.etr.unread := by
  obtain ⟨v, initPos, behind⟩ := h
  rw [State.currOffset, initPos, Ring.Writer.distance v s.etr (by omega)]
  omega

/-- Sampling an empty ring. -/
theorem sampled_now {s : State r} (empty : s.etr.unread = 0) (initPos : s.initPos = s.etr.position) :
    Sampled s := ⟨s.etr, initPos, by omega⟩

theorem counts_write {s : State r} {n : Nat} (h : Counts s) (fine : counted s (.write n) = true) :
    Counts { s with etr := s.etr.write n } := by
  simp only [counted, Bool.and_eq_true, Bool.not_eq_true', Bool.and_eq_false_iff, bne_eq_false_iff_eq,
    decide_eq_false_iff_not, Nat.not_le] at fine
  obtain ⟨quiet, inside⟩ := fine
  constructor
  · intro sampled
    obtain ⟨v, initPos, behind⟩ := h.sampled sampled
    have room := inside.resolve_left (by rw [sampled]; decide)
    refine ⟨v, initPos, ?_⟩
    rw [Ring.Writer.write_offset _ _ room, Ring.Writer.write_unread]
    omega
  · intro unsampled
    have none := quiet.resolve_left (by rw [unsampled]; decide)
    show s.etr.unread + n = 0
    rw [h.unsampled unsampled, none]

/-- Nothing is asked of the other points. -/
theorem counts_other {s : State r} (sampled : s.pc.sampled = false)
    (unsampled : s.pc.unsampled = false) : Counts s := by
  constructor
  · intro at_
    rw [sampled] at at_
    cases at_
  · intro at_
    rw [unsampled] at at_
    cases at_

/-- A point at which the start is sampled. -/
theorem counts_sampled {s : State r} (now : Sampled s) (unsampled : s.pc.unsampled = false) :
    Counts s := by
  constructor
  · exact fun _ => now
  · intro at_
    rw [unsampled] at at_
    cases at_

/-- A point at which the ring is empty. -/
theorem counts_unsampled {s : State r} (sampled : s.pc.sampled = false) (empty : s.etr.unread = 0) :
    Counts s := by
  constructor
  · intro at_
    rw [sampled] at at_
    cases at_
  · exact fun _ => empty

theorem counts_advance {threshold : BitVec 64} {rc : Int} {esrch : Bool} {s t : State r}
    (h : Counts s) (moved : advance threshold rc esrch s = some t) : Counts t := by
  obtain ⟨pc, etr, initPos, ret, calls⟩ := s
  cases pc with
  | initPos | resample =>
    cases moved
    exact ⟨fun _ => sampled_now (h.unsampled rfl) rfl, fun _ => h.unsampled rfl⟩
  | alive =>
    cases moved
    simp only [State.goto]
    split
    · exact counts_sampled (h.sampled rfl) rfl
    · exact counts_other rfl rfl
  | offset =>
    cases moved
    simp only [State.goto]
    split
    · exact counts_other rfl rfl
    · exact counts_sampled (h.sampled rfl) rfl
  | nanosleep =>
    cases moved
    exact counts_sampled (h.sampled rfl) rfl
  | stop | disable =>
    cases moved
    simp only [State.goto, State.log]
    split <;> exact counts_other rfl rfl
  | waitSuspended | killed =>
    cases moved
    exact counts_other rfl rfl
  | fetch =>
    cases moved
    simp only [State.goto, State.log, State.fetched]
    split
    · exact counts_other rfl rfl
    · exact counts_unsampled rfl rfl
  | enable =>
    cases moved
    simp only [State.goto, State.log]
    split
    · exact counts_other rfl rfl
    · exact counts_unsampled rfl (h.unsampled rfl)
  | cont =>
    cases moved
    simp only [State.goto, State.log]
    split
    · split <;> exact counts_other rfl rfl
    · exact counts_unsampled rfl (h.unsampled rfl)
  | waitResumed =>
    cases moved
    exact counts_unsampled rfl (h.unsampled rfl)
  | lastFetch =>
    cases moved
    simp only [State.goto, State.log, State.fetched]
    split <;> exact counts_other rfl rfl
  | returned => cases moved

/-- **What a poll counts.** Wherever the write position is at the start, in
every run in which fewer bytes are unread than the ring holds, nothing is
written between the emptying of the ring, or the start, and the sampling of
`init_pos`, and no write reaches the end of the ring between that sampling and
the poll that stops the tracee: each poll finds the number of unread bytes, and
stops the tracee if and only if it is above the threshold. -/
theorem poll_counts_unread (threshold : BitVec 64) (offset : Nat) (inside : offset < r.size)
    (initPos : BitVec 64) (ret : Int) (s : State r)
    (h : Reach (step threshold) (fun s a => few s a && counted s a)
      (start offset inside initPos ret) s) (poll : s.pc = .offset) :
    s.currOffset.toNat = s.etr.unread ∧
      (threshold < s.currOffset ↔ threshold.toNat < s.etr.unread) := by
  have counts : Counts s := by
    refine h.invariant ⟨nofun, fun _ => rfl⟩ ?_
    intro s a t counts allowed moved
    cases a with
    | write n =>
      cases moved
      exact counts_write counts (Bool.and_eq_true_iff.mp allowed).2
    | next rc esrch => exact counts_advance counts moved
  have found := (counts.sampled (by rw [poll]; rfl)).currOffset
  refine ⟨found, ?_⟩
  rw [BitVec.lt_def, found]

/-- The ring is half full when tracing starts; the second poll finds 0x300
bytes after a fetch cycle. -/
theorem poll_counts_second : ∃ s : State Polling.defaultRing,
    Reach (step Polling.defaultThreshold) (fun s a => few s a && counted s a)
      (start 0x40000 (by decide) 0 0) s ∧ s.pc = .offset ∧ s.etr.unread = 0x300 ∧
    s.currOffset.toNat = s.etr.unread := by
  have replay : (exec (step Polling.defaultThreshold) (fun s a => few s a && counted s a)
      (start 0x40000 (by decide) 0 0 : State Polling.defaultRing)
      (stopping ++ List.replicate 6 (.next 0 false) ++ [.write 0x300] ++
        List.replicate 2 (.next 0 false))).any
      (fun s => s.pc == .offset && s.etr.unread == 0x300) = true := by
    decide +kernel
  obtain ⟨s, reached, test⟩ := reach_of_exec replay
  simp only [Bool.and_eq_true, beq_iff_eq] at test
  obtain ⟨poll, unread⟩ := test
  exact ⟨s, reached, poll, unread,
    (poll_counts_unread _ 0x40000 (by decide) 0 0 s reached poll).1⟩

/-- A poll that finds another number than there are. -/
def miscounts (s : State r) : Bool := s.pc == .offset && s.currOffset.toNat != s.etr.unread

/-- Tracing starts 0x10 bytes before the end of the ring and 0x20 are written:
the difference is not taken modulo the capacity, and the poll stops the tracee.
And bytes written between `enable_cs_trace` and the sampling after a fetch are
missing from the next count. -/
theorem poll_miscounts :
    (∃ s : State Polling.defaultRing,
      Reach (step Polling.defaultThreshold) few (start 0x7fff0 (by decide) 0 0) s ∧
      s.etr.unread = 0x20 ∧ miscounts s = true ∧ Polling.defaultThreshold < s.currOffset) ∧
    ∃ s : State Polling.defaultRing,
      Reach (step Polling.defaultThreshold) few (start 0 (by decide) 0 0) s ∧
      s.etr.unread = 0x100 ∧ miscounts s = true ∧ s.currOffset = 0 := by
  have wraps : (exec (step Polling.defaultThreshold) few
      (start 0x7fff0 (by decide) 0 0 : State Polling.defaultRing)
      [.next 0 false, .write 0x20, .next 0 false]).any
      (fun s => s.etr.unread == 0x20 && miscounts s &&
        decide (Polling.defaultThreshold < s.currOffset)) = true := by
    decide +kernel
  have early : (exec (step Polling.defaultThreshold) few
      (start 0 (by decide) 0 0 : State Polling.defaultRing)
      (stopping ++ List.replicate 3 (.next 0 false) ++ [.write 0x100] ++
        List.replicate 5 (.next 0 false))).any
      (fun s => s.etr.unread == 0x100 && miscounts s && s.currOffset == 0) = true := by
    decide +kernel
  obtain ⟨s, reached, test⟩ := reach_of_exec wraps
  obtain ⟨s', reached', test'⟩ := reach_of_exec early
  simp only [Bool.and_eq_true, beq_iff_eq, decide_eq_true_eq] at test test'
  exact ⟨⟨s, reached, test.1.1, test.1.2, test.2⟩, s', reached', test'.1.1, test'.1.2, test'.2⟩

end Ultrasight.SinkPolling
