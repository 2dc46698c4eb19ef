import Ultrasight.Offsets

/-!
# Polling that is fast enough

No unread byte is overwritten if the threshold lies below the size of the ring and
few enough bytes are written before a poll sees them: `fetch_before_wrap`. A poll
over the threshold does not stop the tracee at once, and what is written between
it and the emptying of the ring is bounded together with what was written before.
-/

namespace Ultrasight.SinkPolling

open Polling

variable {r : Ring}

/-- Every poll, whatever it decides. -/
def polls (s : State r) (_ : Int) : Bool := s.pc == .offset

/-- A poll that does not stop the tracee, or a fetch that empties the ring. -/
def settles (threshold : BitVec 64) (s : State r) (rc : Int) : Bool :=
  match s.pc with
  | .offset => !decide (threshold < s.currOffset)
  | .fetch | .lastFetch => decide (0 ≤ rc)
  | _ => false

/-- The number of bytes written since the function made a step that resets it. -/
def since (resets : State r → Int → Bool) (x : State r × Nat) : Action → Nat
  | .write n => x.2 + n
  | .next rc _ => if resets x.1 rc then 0 else x.2

/-- The polling function with this number beside it. -/
def meter (threshold : BitVec 64) (resets : State r → Int → Bool) (x : State r × Nat)
    (a : Action) : Option (State r × Nat) :=
  (step threshold x.1 a).map fun s => (s, since resets x a)

/-- Fewer than `size - threshold` bytes are written in between. -/
def paced (threshold : BitVec 64) (x : State r × Nat) : Action → Bool
  | .write n => x.2 + n < r.size - threshold.toNat
  | .next _ _ => true

/-- Nothing is written before `init_pos` is sampled. -/
def quiet (x : State r × Nat) : Action → Bool
  | .write n => !x.1.pc.unsampled || n == 0
  | .next _ _ => true

/-- What paced and quiet polling keeps: the ring has not wrapped, and the bytes
that no poll has seen yet are few. -/
structure Kept (threshold : BitVec 64) (x : State r × Nat) : Prop where
  counts : Counts x.1
  offset : x.1.etr.offset = x.1.etr.unread
  since : x.1.etr.unread ≤ threshold.toNat + x.2
  room : threshold.toNat + x.2 < r.size

theorem Kept.bound {threshold : BitVec 64} {x : State r × Nat} (h : Kept threshold x) :
    x.1.etr.unread < r.size := Nat.lt_of_le_of_lt h.since h.room

/-- As long as the ring has not wrapped, a poll sees every unread byte. -/
theorem Kept.sees {threshold : BitVec 64} {x : State r × Nat} (h : Kept threshold x)
    (poll : x.1.pc = .offset) :
    threshold < x.1.currOffset ↔ threshold.toNat < x.1.etr.unread := by
  rw [BitVec.lt_def, (h.counts.sampled (by rw [poll]; rfl)).currOffset]

theorem kept_write {threshold : BitVec 64} {x : State r × Nat} {n : Nat} (h : Kept threshold x)
    (pace : paced threshold x (.write n) = true) (calm : quiet x (.write n) = true) :
    Kept threshold ({ x.1 with etr := x.1.etr.write n }, x.2 + n) := by
  have pace : x.2 + n < r.size - threshold.toNat := of_decide_eq_true pace
  have few := h.since
  have offset := h.offset
  have total : x.1.etr.offset + n < r.size := by omega
  have fine : counted x.1 (.write n) = true := by
    simp only [quiet, Bool.or_eq_true, Bool.not_eq_true', beq_iff_eq] at calm
    simp only [counted, Bool.and_eq_true, Bool.not_eq_true', Bool.and_eq_false_iff,
      bne_eq_false_iff_eq, decide_eq_false_iff_not, Nat.not_le]
    exact ⟨calm, .inr total⟩
  refine ⟨counts_write h.counts fine, ?_, ?_, ?_⟩
  · show (x.1.etr.write n).offset = x.1.etr.unread + n
    rw [Ring.Writer.write_offset _ _ total, offset]
  · show x.1.etr.unread + n ≤ threshold.toNat + (x.2 + n)
    omega
  · show threshold.toNat + (x.2 + n) < r.size
    omega

/-- Only a fetch that succeeds touches the ring, and it empties it. -/
theorem advance_etr {threshold : BitVec 64} {rc : Int} {esrch : Bool} {s t : State r}
    (h : advance threshold rc esrch s = some t) :
    t.etr = s.etr ∧ (settles threshold s rc = true → s.pc = .offset ∧ ¬ threshold < s.currOffset) ∨
      t.etr = r.empty ∧ settles threshold s rc = true := by
  obtain ⟨pc, etr, initPos, ret, calls⟩ := s
  cases pc with
  | offset =>
    cases h
    exact .inl ⟨rfl, fun settled => ⟨rfl, by simpa [settles] using settled⟩⟩
  | fetch | lastFetch =>
    cases h
    simp only [State.goto, State.log, State.fetched]
    by_cases failed : rc < 0
    · rw [if_pos failed]
      refine .inl ⟨rfl, fun settled => ?_⟩
      exact absurd (of_decide_eq_true settled) (Int.not_le.mpr failed)
    · rw [if_neg failed]
      exact .inr ⟨rfl, decide_eq_true (Int.not_lt.mp failed)⟩
  | returned => cases h
  | _ => cases h; exact .inl ⟨rfl, fun settled => absurd settled Bool.noConfusion⟩

theorem kept_advance {threshold : BitVec 64} {rc : Int} {esrch : Bool} {x : State r × Nat}
    {t : State r} (h : Kept threshold x) (moved : advance threshold rc esrch x.1 = some t) :
    Kept threshold (t, if settles threshold x.1 rc then 0 else x.2) := by
  have counts := counts_advance h.counts moved
  have room := h.room
  rcases advance_etr moved with ⟨same, poll⟩ | ⟨empty, settled⟩
  · cases settled : settles threshold x.1 rc with
    | false => exact ⟨counts, by rw [same]; exact h.offset, by rw [same]; exact h.since, room⟩
    | true =>
      obtain ⟨at_, under⟩ := poll settled
      rw [h.sees at_] at under
      refine ⟨counts, by rw [same]; exact h.offset, ?_, ?_⟩
      · rw [same]
        show x.1.etr.unread ≤ threshold.toNat + 0
        omega
      · show threshold.toNat + 0 < r.size
        omega
  · rw [if_pos settled]
    refine ⟨counts, by rw [empty]; rfl, by rw [empty]; exact Nat.zero_le _, ?_⟩
    show threshold.toNat + 0 < r.size
    omega

/-- **The threshold lies below the capacity exactly when an ETF is present and
twice its size is below it.** Then no unread byte is overwritten, and a poll stops
the tracee if and only if more bytes are unread than the threshold, in every run
from an emptied ring in which nothing is written before `init_pos` is sampled and
fewer than `capacity - threshold` bytes between a poll that lets the tracee run,
or the emptying of the ring, and the next. -/
theorem fetch_before_wrap (r : Ring) (etrRamSize etbBytes : BitVec 64)
    (etf : Option (BitVec 64)) (capacity : r.size = (etrCapacity etrRamSize etbBytes).toNat)
    (initPos : BitVec 64) (ret : Int) :
    let threshold := fetchThreshold (etrCapacity etrRamSize etbBytes) etf
    (threshold.toNat < r.size ↔ Fits (etrCapacity etrRamSize etbBytes) etf) ∧
    (Fits (etrCapacity etrRamSize etbBytes) etf → ∀ x,
      Reach (meter threshold (settles threshold)) (fun x a => paced threshold x a && quiet x a)
        (start 0 r.pos initPos ret, 0) x →
        x.1.etr.unread < r.size ∧ (x.1.pc = .offset → ∀ rc esrch,
          (advance threshold rc esrch x.1 = some (x.1.goto .stop) ↔
            threshold.toNat < x.1.etr.unread))) := by
  intro threshold
  have below : threshold.toNat < r.size ↔ Fits (etrCapacity etrRamSize etbBytes) etf := by
    rw [capacity, ← BitVec.lt_def]
    exact threshold_lt_iff _ _
  refine ⟨below, fun fits x reached => ?_⟩
  have kept : Kept threshold x := by
    refine reached.invariant
      ⟨⟨fun early => absurd early Bool.noConfusion, fun _ => rfl⟩, rfl, Nat.zero_le _,
        below.mpr fits⟩ ?_
    intro x a y h allowed moved
    obtain ⟨pace, calm⟩ := Bool.and_eq_true_iff.mp allowed
    obtain ⟨t, next, rfl⟩ := Option.map_eq_some_iff.mp moved
    cases a with
    | write n => cases next; exact kept_write h pace calm
    | next rc esrch => exact kept_advance h next
  refine ⟨kept.bound, fun poll rc esrch => ?_⟩
  rw [← kept.sees poll]
  simp only [advance, poll, Option.some.injEq]
  by_cases exceeds : threshold < x.1.currOffset
  · simp only [exceeds, if_true]
  · simp only [exceeds, if_false, State.goto, State.mk.injEq, iff_false]
    exact fun same => Pc.noConfusion same.1

/-- Some bytes are written between the poll and the fetch, and the next poll finds
0x300 more. -/
theorem fetch_before_wrap_default : ∃ x : State defaultRing × Nat,
    Reach (meter defaultThreshold (settles defaultThreshold))
      (fun x a => paced defaultThreshold x a && quiet x a) (start 0 (by decide) 0 0, 0) x ∧
    x.1.pc = .offset ∧ x.1.etr.unread = 0x300 ∧ x.1.etr.unread < defaultRing.size := by
  have replay : (exec (meter defaultThreshold (settles defaultThreshold))
      (fun x a => paced defaultThreshold x a && quiet x a)
      ((start 0 (by decide) 0 0, 0) : State defaultRing × Nat)
      ([.next 0 false, .write 0x3000] ++ List.replicate 2 (.next 0 false) ++ [.write 0x100] ++
        List.replicate 8 (.next 0 false) ++ [.write 0x300] ++ List.replicate 2 (.next 0 false))).any
      (fun x => x.1.pc == .offset && x.1.etr.unread == 0x300) = true := by
    decide +kernel
  obtain ⟨x, reached, test⟩ := reach_of_exec replay
  simp only [Bool.and_eq_true, beq_iff_eq] at test
  exact ⟨x, reached, test.1, test.2,
    ((fetch_before_wrap defaultRing 0x80000 0 (some 0x1000) rfl 0 0).2
      ⟨0x1000, rfl, by decide, by decide⟩ x reached).1⟩

/-- A poll that lets the tracee run with more bytes unread than the threshold. -/
def misses (threshold : BitVec 64) (s : State r) : Bool :=
  s.pc == .offset && decide (threshold.toNat < s.etr.unread) && !decide (threshold < s.currOffset)

/-- Without an ETF, and with one of at least half the ring, the threshold is the
capacity or more. Below it, with few bytes between any two polls: the ring overflows
by what is written between a poll and its fetch, and bytes written before `init_pos`
is sampled again are missing from every later comparison. -/
theorem threshold_not_below_default :
    ¬ (fetchThreshold (etrCapacity 0x80000 0) none).toNat < defaultRing.size ∧
    ¬ (fetchThreshold (etrCapacity 0x80000 0) (some 0x40000)).toNat < defaultRing.size ∧
    (∃ x : State defaultRing × Nat, Reach (meter defaultThreshold polls)
      (fun x a => paced defaultThreshold x a && quiet x a) (start 0 (by decide) 0 0, 0) x ∧
      defaultRing.size < x.1.etr.unread) ∧
    ∃ x : State defaultRing × Nat, Reach (meter defaultThreshold polls)
      (paced defaultThreshold) (start 0 (by decide) 0 0, 0) x ∧
      misses defaultThreshold x.1 = true := by
  have overflows : (exec (meter defaultThreshold polls)
      (fun x a => paced defaultThreshold x a && quiet x a)
      ((start 0 (by decide) 0 0, 0) : State defaultRing × Nat)
      ([.next 0 false, .write 0x7d000] ++ List.replicate 2 (.next 0 false) ++ [.write 0x7d000])).any
      (fun x => decide (defaultRing.size < x.1.etr.unread)) = true := by
    decide +kernel
  have early : (exec (meter defaultThreshold polls) (paced defaultThreshold)
      ((start 0 (by decide) 0 0, 0) : State defaultRing × Nat)
      (stopping ++ List.replicate 2 (.next 0 false) ++ [.write 0x2001] ++
        List.replicate 6 (.next 0 false))).any (fun x => misses defaultThreshold x.1) = true := by
    decide +kernel
  obtain ⟨x, reached, overflown⟩ := reach_of_exec overflows
  exact ⟨by decide, by decide, ⟨x, reached, of_decide_eq_true overflown⟩, reach_of_exec early⟩

end Ultrasight.SinkPolling
