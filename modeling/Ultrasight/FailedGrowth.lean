import Mathlib.Data.Nat.Prime.Basic
import Ultrasight.Ksight

/-!
# A ksight buffer that cannot grow

`fetch_ksight_events` takes a null result of `mremap` for its failure. The real
one, `MAP_FAILED`, is made the base of the buffer, and the size is doubled.

* `drainEvents` is the call with a device that answers anything to `read`;
* `drainLoop_eq`: with a queue behind the device it is `drainLoop`;
* `failed_growth_loses`: no call in which `mremap` failed keeps the buffer;
* `fetch_ends`: the buffer is lost exactly if `mremap` refuses a doubling that the
  records ask for.
-/

namespace Ultrasight.Ksight

open Chunks TraceBuffer

/-- What `read` does: it delivers bytes, 0 of them at the end of the file; or it
fails with `EAGAIN`, or otherwise. -/
inductive ReadAnswer where
  | data (bytes : List UInt8)
  | again
  | failed
  deriving DecidableEq

/-- A call, on a device in a state of `σ`. `failedAt` is the buffer when `mremap`
first failed, and `late` are the addresses and lengths passed to `read` since. -/
structure Call (σ : Type) where
  buf : Buf
  device : σ
  failedAt : Option Buf
  late : List (BitVec 64 × BitVec 64)
  closed : Bool

section
variable {σ : Type} (remap : Remap) (driver : σ → BitVec 64 → ReadAnswer × σ)

/-- The growth step; `none` is the early exit. -/
def Call.grow (c : Call σ) : Option (Call σ) :=
  match remap (c.buf.size * 2) with
  | some p => if p.addr = 0 then none else some { c with buf := c.buf.move (c.buf.size * 2) p }
  | none =>
    some { c with
      buf := c.buf.rebase (-1) (c.buf.size * 2)
      failedAt := some (c.failedAt.getD c.buf) }

/-- `read` with the room that is left. -/
def Call.read (c : Call σ) : ReadAnswer × Call σ :=
  let (answer, device) := driver c.device c.buf.remain
  (answer, { c with
    device := device
    late := if c.failedAt.isSome then c.late ++ [(c.buf.ptr, c.buf.remain)] else c.late })

def eventsLoop : Nat → Call σ → Except Abort (Int × Call σ)
  | 0, _ => .error .outOfFuel
  | fuel + 1, c =>
    match if c.buf.remain < BitVec.ofNat 64 eventSize then c.grow remap else some c with
    | none => .ok (-1, c)
    | some c =>
      match c.read driver with
      | (.again, c) => .ok (0, c)
      | (.failed, c) => .ok (-1, c)
      | (.data bytes, c) =>
        if bytes.isEmpty then .ok (0, c)
        else
          match c.buf.append bytes with
          | .error _ => .ok (-1, c)
          | .ok buf => eventsLoop fuel { c with buf := buf }

/-- `fetch_ksight_events`: both exits of the loop close the device. -/
def drainEvents (opened : Bool) (fuel : Nat) (device : σ) (b : Buf) :
    Except Abort (Int × Call σ) :=
  if opened then
    (eventsLoop remap driver fuel ⟨b.align, device, none, [], false⟩).map fun r =>
      (r.1, { r.2 with closed := true })
  else .ok (-1, ⟨b, device, none, [], true⟩)

end

/-- What is asked of a call in which `mremap` failed on the buffer `old`: it fails
with the device closed, the variables still describe that buffer, and nothing
outside it was read into since. -/
def Kept {σ : Type} (old : Buf) (rc : Int) (c : Call σ) : Prop :=
  rc = -1 ∧ c.closed = true ∧ c.buf = old ∧
    ∀ r ∈ c.late, old.buf.toNat ≤ r.1.toNat ∧
      r.1.toNat + r.2.toNat ≤ old.buf.toNat + old.size.toNat

/-! ## The queue behind the device -/

/-- The driver copies as many whole records as there is room for. -/
def readQueue (queue : List Event) (room : BitVec 64) : ReadAnswer × List Event :=
  let events := queue.take (room.toNat / eventSize)
  if events.isEmpty then (.again, queue)
  else (.data (payload events), queue.drop (room.toNat / eventSize))

/-- The parts of a call that `Drain` has too, but for its record of `read`s. -/
def Call.drained (c : Call (List Event)) (rooms : List (BitVec 64)) : Drain :=
  ⟨c.buf, c.device, rooms, c.failedAt.isNone⟩

theorem grow_drained (remap : Remap) (c : Call (List Event)) (rooms : List (BitVec 64)) :
    grow remap (c.drained rooms) = (c.grow remap).map fun c => c.drained rooms := by
  simp only [grow, Call.grow, Call.drained]
  cases remap (c.buf.size * 2) with
  | none => simp
  | some p =>
    simp only
    split <;> rfl

/-- With a queue behind the device, the loop returns what `drainLoop` does, and
leaves the same buffer. -/
theorem drainLoop_eq (remap : Remap) (fuel : Nat) (c : Call (List Event))
    (rooms : List (BitVec 64)) :
    (drainLoop remap fuel (c.drained rooms)).map (fun r => (r.1, r.2.buf, r.2.moved)) =
      (eventsLoop remap readQueue fuel c).map fun r => (r.1, r.2.buf, r.2.failedAt.isNone) := by
  induction fuel generalizing c rooms with
  | zero => rfl
  | succ fuel ih =>
    have grown : (if (c.drained rooms).buf.remain < BitVec.ofNat 64 eventSize
        then grow remap (c.drained rooms) else some (c.drained rooms)) =
        (if c.buf.remain < BitVec.ofNat 64 eventSize then c.grow remap else some c).map
          fun c => c.drained rooms := by
      have same : (c.drained rooms).buf = c.buf := rfl
      rw [same, grow_drained]
      split <;> rfl
    simp only [drainLoop, eventsLoop, grown]
    cases (if c.buf.remain < BitVec.ofNat 64 eventSize then c.grow remap else some c) with
    | none => rfl
    | some c =>
      simp only [Option.map_some, Call.read, readQueue, Call.drained]
      by_cases none : (c.device.take (c.buf.remain.toNat / eventSize)).isEmpty = true
      · simp [none, Except.map]
      · have some : (payload (c.device.take (c.buf.remain.toNat / eventSize))).isEmpty = false := by
          rw [List.isEmpty_iff, ← List.length_eq_zero_iff] at none
          rw [List.isEmpty_eq_false_iff, ← List.length_pos_iff, payload_length]
          exact Nat.mul_pos (by decide) (Nat.pos_of_ne_zero none)
        simp only [if_neg none, some, Bool.false_eq_true, if_false]
        rw [show List.flatten _ = payload (c.device.take (c.buf.remain.toNat / eventSize)) from rfl]
        cases c.buf.append (payload (c.device.take (c.buf.remain.toNat / eventSize))) with
        | error => rfl
        | ok buf => exact ih ⟨buf, _, c.failedAt, _, c.closed⟩ (rooms ++ [c.buf.remain])

/-! ## The size after a failed growth -/

/-- Doubling a word never leads back to it, unless it is 0. -/
theorem doubled_ne {s : Nat} (pos : 0 < s) (word : s < 2 ^ 64) (k : Nat) :
    s * 2 ^ (k + 1) % 2 ^ 64 ≠ s := by
  intro same
  have below : 1 ≤ 2 ^ (k + 1) := Nat.one_le_two_pow
  have multiple : 2 ^ 64 ∣ s * (2 ^ (k + 1) - 1) := by
    rw [Nat.mul_sub, Nat.mul_one]
    have split := Nat.div_add_mod (s * 2 ^ (k + 1)) (2 ^ 64)
    rw [same] at split
    exact ⟨_, by rw [← split, Nat.add_sub_cancel]⟩
  have odd : Odd (2 ^ (k + 1) - 1) := ⟨2 ^ k - 1, by
    have : 1 ≤ 2 ^ k := Nat.one_le_two_pow
    rw [Nat.pow_succ]
    omega⟩
  have coprime : Nat.Coprime (2 ^ 64) (2 ^ (k + 1) - 1) :=
    Nat.Coprime.pow_left 64 (Nat.coprime_two_left.mpr odd)
  have divides := coprime.dvd_of_dvd_mul_right multiple
  exact absurd (Nat.le_of_dvd pos divides) (by omega)

/-- Until `mremap` fails, the size is not 0; since then, it was doubled. -/
structure Sized {σ : Type} (c : Call σ) : Prop where
  before : c.failedAt = none → 0 < c.buf.size.toNat
  since : ∀ old, c.failedAt = some old → 0 < old.size.toNat ∧
    ∃ k, c.buf.size.toNat = old.size.toNat * 2 ^ (k + 1) % 2 ^ 64

section
variable {σ : Type} {remap : Remap} {driver : σ → BitVec 64 → ReadAnswer × σ} {c c' : Call σ}

theorem double_since {old : Buf} {s : BitVec 64}
    (h : ∃ k, s.toNat = old.size.toNat * 2 ^ (k + 1) % 2 ^ 64) :
    ∃ k, (s * 2).toNat = old.size.toNat * 2 ^ (k + 1) % 2 ^ 64 := by
  obtain ⟨k, size⟩ := h
  refine ⟨k + 1, ?_⟩
  rw [BitVec.toNat_mul, size, Nat.pow_succ 2 (k + 1), ← Nat.mul_assoc]
  show _ * 2 % 2 ^ 64 = _
  omega

theorem grow_sized (h : Sized c) (grown : c.grow remap = some c') : Sized c' := by
  unfold Call.grow at grown
  split at grown
  · rename_i p _
    split at grown
    · cases grown
    · cases grown
      constructor
      · exact fun _ => p.pos
      · intro old failed
        obtain ⟨pos, doubled⟩ := h.since old failed
        exact ⟨pos, double_since doubled⟩
  · cases grown
    constructor
    · exact fun none => by cases none
    · intro old failed
      cases earlier : c.failedAt with
      | none =>
        simp only [earlier, Option.getD_none, Option.some.injEq] at failed
        subst failed
        refine ⟨h.before earlier, 0, ?_⟩
        show (c.buf.size * 2).toNat = _
        rw [BitVec.toNat_mul]
        rfl
      | some first =>
        simp only [earlier, Option.getD_some, Option.some.injEq] at failed
        subst failed
        obtain ⟨pos, doubled⟩ := h.since first earlier
        exact ⟨pos, double_since doubled⟩

theorem append_size {b b' : Buf} {data : List UInt8} (h : b.append data = .ok b') :
    b'.size = b.size := by
  unfold Buf.append at h
  cases written : b.region.write b.ptr data with
  | error => rw [written] at h; cases h
  | ok region => rw [written] at h; cases h; rfl

theorem eventsLoop_sized {fuel : Nat} {rc : Int} (h : Sized c)
    (result : eventsLoop remap driver fuel c = .ok (rc, c')) : Sized c' := by
  induction fuel generalizing c with
  | zero => cases result
  | succ fuel ih =>
    simp only [eventsLoop] at result
    split at result
    · cases result
      exact h
    · rename_i c₁ grown
      have sized : Sized c₁ := by
        split at grown
        · exact grow_sized h grown
        · cases grown
          exact h
      have read : Sized (c₁.read driver).2 := ⟨sized.before, sized.since⟩
      split at result
      · rename_i taken
        cases result
        rw [taken] at read
        exact read
      · rename_i taken
        cases result
        rw [taken] at read
        exact read
      · rename_i bytes c₂ taken
        rw [taken] at read
        split at result
        · cases result
          exact read
        · split at result
          · cases result
            exact read
          · rename_i buf appended
            apply ih _ result
            have same : buf.size = c₂.buf.size := append_size appended
            exact ⟨fun none => same ▸ read.before none, fun old failed => same ▸ read.since old failed⟩

/-- **A failed growth loses the buffer.** In no call in which `mremap` failed are
the variables, the result and the reads as they should be: the size is never the
old one again. -/
theorem failed_growth_loses {opened : Bool} {fuel : Nat} {device : σ} {b old : Buf} {rc : Int}
    (size : 0 < b.size.toNat)
    (result : drainEvents remap driver opened fuel device b = .ok (rc, c))
    (failed : c.failedAt = some old) : ¬ Kept old rc c := by
  rintro ⟨_, _, same, _⟩
  unfold drainEvents at result
  split at result
  · cases looped : eventsLoop remap driver fuel ⟨b.align, device, none, [], false⟩ with
    | error => rw [looped] at result; cases result
    | ok r =>
      rw [looped] at result
      cases result
      have start : Sized (⟨b.align, device, none, [], false⟩ : Call σ) :=
        ⟨fun _ => size, fun _ none => by cases none⟩
      obtain ⟨pos, k, doubled⟩ := (eventsLoop_sized start looped).since old failed
      have back : r.2.buf.size = old.size := congrArg Buf.size same
      rw [back] at doubled
      exact doubled_ne pos old.size.isLt k doubled.symm
  · cases result
    cases failed

end

/-! ## What is left of the buffer -/

/-- The `k`-th doubling is asked for where so many bytes are needed, and `mremap`
refuses it. -/
def RefusedAt (remap : Remap) (size : BitVec 64) (needs k : Nat) : Prop :=
  size.toNat * 2 ^ k < needs ∧ remap (size * 2 ^ k * 2) = none

def Refused (remap : Remap) (size : BitVec 64) (needs : Nat) : Prop :=
  ∃ k, RefusedAt remap size needs k

/-- The variables describe no memory, and the position is not at the base. -/
structure Lost (b : Buf) : Prop where
  buf : b.buf = -1
  base : b.region.base ≠ -1
  ptr : b.ptr ≠ -1

section
variable {remap : Remap} {d d' : Drain} {content : List UInt8} {fuel : Nat} {ret : Int}

theorem refusedAt_zero {size : BitVec 64} {needs : Nat} :
    RefusedAt remap size needs 0 ↔ size.toNat < needs ∧ remap (size * 2) = none := by
  rw [RefusedAt, Nat.pow_zero, BitVec.pow_zero, Nat.mul_one, BitVec.mul_one]

/-- The first doubling, or a later one. -/
theorem refused_double {size : BitVec 64} (twice : (size * 2).toNat = 2 * size.toNat) {needs : Nat} :
    Refused remap size needs ↔
      size.toNat < needs ∧ remap (size * 2) = none ∨ Refused remap (size * 2) needs := by
  have later (k : Nat) : RefusedAt remap (size * 2) needs k ↔ RefusedAt remap size needs (k + 1) := by
    rw [RefusedAt, RefusedAt, Buf.double_pow, Buf.double_pow_toNat twice]
  constructor
  · rintro ⟨k, refused⟩
    cases k with
    | zero => exact .inl (refusedAt_zero.mp refused)
    | succ k => exact .inr ⟨k, (later k).mpr refused⟩
  · rintro (refused | ⟨k, refused⟩)
    · exact ⟨0, refusedAt_zero.mpr refused⟩
    · exact ⟨k + 1, (later k).mp refused⟩

/-- Nothing is asked for where there is room. -/
theorem not_refused {size : BitVec 64} {needs : Nat} (room : needs ≤ size.toNat) :
    ¬ Refused remap size needs := by
  rintro ⟨k, short, -⟩
  have grown : size.toNat * 1 ≤ size.toNat * 2 ^ k := Nat.mul_le_mul_left _ Nat.one_le_two_pow
  omega

/-- With room for a record, some are taken if there are any. -/
theorem taken_some (enough : ¬ d.buf.remain < BitVec.ofNat 64 eventSize) (some : d.queue ≠ []) :
    (d.queue.take (d.buf.remain.toNat / eventSize)).isEmpty = false := by
  have word : (BitVec.ofNat 64 eventSize).toNat = eventSize := by decide
  rw [BitVec.lt_def, word, Nat.not_lt] at enough
  rw [List.isEmpty_eq_false_iff, ne_eq, List.take_eq_nil_iff, not_or]
  exact ⟨Nat.pos_iff_ne_zero.mp (Nat.div_pos enough (by decide)), some⟩

/-! One round of the loop. -/

theorem drainLoop_empty (enough : ¬ d.buf.remain < BitVec.ofNat 64 eventSize) (none : d.queue = []) :
    drainLoop remap (fuel + 1) d = .ok (0, { d with rooms := d.rooms ++ [d.buf.remain] }) := by
  simp only [drainLoop, if_neg enough, none, List.take_nil, List.isEmpty_nil, if_true]

theorem drainLoop_grown {p : Placement (d.buf.size * 2).toNat}
    (short : d.buf.remain < BitVec.ofNat 64 eventSize) (moved : remap (d.buf.size * 2) = some p)
    (enough : ¬ (d.buf.move (d.buf.size * 2) p).remain < BitVec.ofNat 64 eventSize) :
    drainLoop remap (fuel + 1) d =
      drainLoop remap (fuel + 1) { d with buf := d.buf.move (d.buf.size * 2) p } := by
  simp only [drainLoop, if_pos short, if_neg enough, grow, moved, if_neg p.nonnull]

theorem drainLoop_taken (h : d.buf.Holds content)
    (enough : ¬ d.buf.remain < BitVec.ofNat 64 eventSize) (some : d.queue ≠ []) :
    ∃ d₁ : Drain, drainLoop remap (fuel + 1) d = drainLoop remap fuel d₁ ∧
      d₁.buf.size = d.buf.size ∧ d₁.moved = d.moved ∧
      ∃ taken, d₁.buf.Holds (content ++ payload taken) ∧ taken ++ d₁.queue = d.queue := by
  obtain ⟨b, appended, holds, size⟩ := h.append (taken_fits h d.queue)
  have stored : d.buf.append
      ((d.queue.take (d.buf.remain.toNat / eventSize)).map Event.bytes).flatten = .ok b := appended
  refine ⟨⟨b, d.queue.drop (d.buf.remain.toNat / eventSize), d.rooms ++ [d.buf.remain], d.moved⟩,
    ?_, size, rfl, _, holds, List.take_append_drop _ _⟩
  simp only [drainLoop, if_neg enough, taken_some enough some, Bool.false_eq_true, if_false, stored]

/-- What is left of the buffer `old` after a doubling that `mremap` refused. What can
still be written to are the bytes of `old`, where its address is low enough. -/
structure Stray (old b : Buf) : Prop where
  buf : b.buf = -1
  size : b.size = old.size * 2
  base : b.region.base = old.buf
  length : b.region.bytes.length = old.size.toNat
  near : b.ptr.toNat ≤ old.buf.toNat + old.size.toNat

section
variable {old b b' : Buf}

theorem Stray.lost (h : old.Holds content) (pages : pageSize ≤ old.size.toNat) (stray : Stray old b) :
    Lost b := by
  obtain ⟨q, whole⟩ := h.pages pages
  have page := h.page
  have fits := h.fits
  have last : (-1 : BitVec 64).toNat = 2 ^ 64 - 1 := by decide
  simp only [pageSize] at whole page
  refine ⟨stray.buf, ?_, ?_⟩
  · intro far
    have base := congrArg BitVec.toNat (stray.base.symm.trans far)
    omega
  · intro far
    have near := stray.near
    rw [far, last] at near
    omega

theorem Stray.remain (h : old.Holds content) (stray : Stray old b)
    (low : b.ptr.toNat + 1 < 2 * old.size.toNat) :
    b.remain.toNat = 2 * old.size.toNat - (b.ptr.toNat + 1) := by
  have half := h.half
  have fits := h.fits
  have near := stray.near
  have last : (-1 : BitVec 64).toNat = 2 ^ 64 - 1 := by decide
  have two : (2 : BitVec 64).toNat = 2 := rfl
  have used : (b.ptr - (-1)).toNat = b.ptr.toNat + 1 := by
    rw [BitVec.toNat_sub, last]
    omega
  rw [Buf.remain, stray.buf, stray.size, BitVec.toNat_sub, used, BitVec.toNat_mul, two]
  omega

theorem Stray.append (h : old.Holds content) (stray : Stray old b) {data : List UInt8}
    (appended : b.append data = .ok b') :
    Stray old b' ∧ old.buf.toNat ≤ b.ptr.toNat ∧ b'.ptr.toNat = b.ptr.toNat + data.length := by
  have fits := h.fits
  rw [Buf.append, Region.write, stray.base, stray.length] at appended
  split at appended
  · rename_i inside
    cases appended
    have word : (BitVec.ofNat 64 data.length).toNat = data.length := by
      rw [BitVec.toNat_ofNat]
      omega
    have moved : (b.ptr + BitVec.ofNat 64 data.length).toNat = b.ptr.toNat + data.length := by
      rw [BitVec.toNat_add, word]
      omega
    refine ⟨⟨stray.buf, stray.size, stray.base, ?_, ?_⟩, inside.1, moved⟩
    · rw [Region.splice_length, stray.length]
      rw [stray.length]
      omega
    · rw [moved]
      exact inside.2
  · cases appended

end

/-- One more `read` may succeed, but it takes all that is left of the queue. -/
theorem stray_lost {old : Buf} (h : old.Holds content) (pages : pageSize ≤ old.size.toNat)
    (stray : Stray old d.buf) (low : d.buf.ptr.toNat < old.size.toNat)
    (result : drainLoop remap (fuel + 1) d = .ok (ret, d')) : Lost d'.buf := by
  obtain ⟨q, whole⟩ := h.pages pages
  have page := h.page
  have word : (BitVec.ofNat 64 eventSize).toNat = 72 := by decide
  have remain := stray.remain h (by omega)
  simp only [pageSize] at pages whole page
  have enough : ¬ d.buf.remain < BitVec.ofNat 64 eventSize := by
    rw [BitVec.lt_def, word, remain]
    omega
  by_cases none : d.queue = []
  · rw [drainLoop_empty enough none] at result
    cases result
    exact stray.lost h pages
  · simp only [drainLoop, if_neg enough, taken_some enough none, Bool.false_eq_true, if_false] at result
    split at result
    · cases result
      exact stray.lost h pages
    · rename_i b appended
      obtain ⟨stray', above, moved⟩ := stray.append h appended
      have near := stray'.near
      have size := payload_length (d.queue.take (d.buf.remain.toNat / eventSize))
      rw [payload] at size
      rw [moved, size, List.length_take, eventSize_eq, remain] at near
      have all : d.queue.drop (d.buf.remain.toNat / eventSize) = [] := by
        rw [List.drop_eq_nil_iff, remain, eventSize_eq]
        omega
      have remain' := stray'.remain h (by have := stray'.near; omega)
      have enough' : ¬ b.remain < BitVec.ofNat 64 eventSize := by
        rw [BitVec.lt_def, word, remain']
        have := stray'.near
        omega
      rw [all] at result
      cases fuel with
      | zero => cases result
      | succ fuel =>
        have ends :=
          @drainLoop_empty remap ⟨b, [], d.rooms ++ [d.buf.remain], d.moved⟩ fuel enough' rfl
        rw [ends] at result
        cases result
        exact stray'.lost h pages

theorem drainLoop_refused (h : d.buf.Holds content) (pages : pageSize ≤ d.buf.size.toNat)
    (short : d.buf.remain < BitVec.ofNat 64 eventSize) (refused : remap (d.buf.size * 2) = none)
    (result : drainLoop remap (fuel + 1) d = .ok (ret, d')) : Lost d'.buf := by
  have word : (BitVec.ofNat 64 eventSize).toNat = 72 := by decide
  have last : (-1 : BitVec 64).toNat = 2 ^ 64 - 1 := by decide
  have room := h.room
  have large : 72 < pageSize := by decide
  have gap := short
  rw [BitVec.lt_def, word, h.remain] at gap
  have start : (d.buf.rebase (-1) (d.buf.size * 2)).ptr.toNat = content.length - 1 := by
    show (-1 + (d.buf.ptr - d.buf.buf)).toNat = _
    have := d.buf.size.isLt
    rw [BitVec.toNat_add, h.used, last]
    omega
  have stray : Stray d.buf (d.buf.rebase (-1) (d.buf.size * 2)) :=
    ⟨rfl, rfl, h.base, h.length, by rw [start]; omega⟩
  have enough : ¬ (d.buf.rebase (-1) (d.buf.size * 2)).remain < BitVec.ofNat 64 eventSize := by
    rw [BitVec.lt_def, word, stray.remain h (by omega), start]
    omega
  have grown : drainLoop remap (fuel + 1) d = drainLoop remap (fuel + 1)
      { d with buf := d.buf.rebase (-1) (d.buf.size * 2), moved := false } := by
    simp only [drainLoop, if_pos short, if_neg enough, grow, refused]
  rw [grown] at result
  refine stray_lost h pages (d := { d with buf := d.buf.rebase (-1) (d.buf.size * 2), moved := false })
    stray ?_ result
  show (d.buf.rebase (-1) (d.buf.size * 2)).ptr.toNat < _
  omega

/-- How a drain that started at `d` ends at `d'`: it was refused a doubling and has
lost the buffer, or no `mremap` failed. -/
def Ends (remap : Remap) (needs : Nat) (d d' : Drain) : Prop :=
  Lost d'.buf ∧ Refused remap d.buf.size needs ∨
    d'.moved = d.moved ∧ ¬ Refused remap d.buf.size needs

theorem drainLoop_ends (h : d.buf.Holds content) (pages : pageSize ≤ d.buf.size.toNat)
    (result : drainLoop remap fuel d = .ok (ret, d')) :
    Ends remap (content.length + (payload d.queue).length + eventSize) d d' := by
  have word : (BitVec.ofNat 64 eventSize).toNat = eventSize := by decide
  induction fuel generalizing d content with
  | zero => cases result
  | succ fuel ih =>
    -- A round in which there is room for a record.
    have round (d : Drain) (h : d.buf.Holds content) (pages : pageSize ≤ d.buf.size.toNat)
        (enough : ¬ d.buf.remain < BitVec.ofNat 64 eventSize)
        (result : drainLoop remap (fuel + 1) d = .ok (ret, d')) :
        Ends remap (content.length + (payload d.queue).length + eventSize) d d' := by
      by_cases none : d.queue = []
      · rw [drainLoop_empty enough none] at result
        cases result
        refine .inr ⟨rfl, not_refused ?_⟩
        have room := h.room
        have record : 0 < eventSize := by decide
        rw [BitVec.lt_def, word, h.remain] at enough
        rw [none, payload_length, List.length_nil]
        omega
      · obtain ⟨d₁, next, size, moved, taken, holds, parts⟩ := drainLoop_taken h enough none
        rw [next] at result
        have needs : (content ++ payload taken).length + (payload d₁.queue).length + eventSize =
            content.length + (payload d.queue).length + eventSize := by
          rw [← parts, payload_append, List.length_append, List.length_append,
            Nat.add_assoc content.length]
        rw [← needs, Ends, ← size, ← moved]
        exact ih holds (by rw [size]; exact pages) result
    by_cases short : d.buf.remain < BitVec.ofNat 64 eventSize
    · have below : d.buf.size.toNat < content.length + (payload d.queue).length + eventSize := by
        rw [BitVec.lt_def, word, h.remain] at short
        omega
      cases moved : remap (d.buf.size * 2) with
      | none =>
        have lost := drainLoop_refused h pages short moved result
        exact .inl ⟨lost, 0, refusedAt_zero.mpr ⟨below, moved⟩⟩
      | some p =>
        obtain ⟨holds, twice⟩ := h.move p
        have enough : ¬ (d.buf.move (d.buf.size * 2) p).remain < BitVec.ofNat 64 eventSize := by
          have room := h.room
          have record : eventSize ≤ pageSize := by decide
          rw [BitVec.lt_def, word, holds.remain, twice]
          omega
        rw [drainLoop_grown short moved enough] at result
        have ended := round { d with buf := d.buf.move (d.buf.size * 2) p } holds
          (by rw [twice]; omega) enough result
        have granted : ¬ (d.buf.size.toNat < content.length + (payload d.queue).length + eventSize ∧
            remap (d.buf.size * 2) = none) := by
          rw [moved]
          rintro ⟨-, refused⟩
          cases refused
        rw [Ends, refused_double twice, or_iff_right granted]
        exact ended
    · exact round d h pages short result

/-- The same of a whole call. -/
theorem fetch_ends {queue : List Event} {b : Buf} {events : List Event}
    (h : b.Holds (payload events)) (pages : pageSize ≤ b.size.toNat)
    (result : fetchKsightEvents true remap queue b = .ok (ret, d)) :
    Lost d.buf ∧ Refused remap b.size (eventSize * (events.length + queue.length + 1)) ∨
      d.moved = true ∧ ¬ Refused remap b.size (eventSize * (events.length + queue.length + 1)) := by
  have ends := drainLoop_ends (align_payload h) pages result
  have needs : (payload events).length + (payload queue).length + eventSize =
      eventSize * (events.length + queue.length + 1) := by
    rw [payload_length, payload_length, Nat.mul_succ, Nat.mul_add]
  rw [← needs]
  exact ends

end

/-! ## A full buffer -/

/-- A device that gives the listed answers. -/
def readNext : List ReadAnswer → BitVec 64 → ReadAnswer × List ReadAnswer
  | [], _ => (.again, [])
  | answer :: rest, _ => (answer, rest)

theorem payload_replicate_succ (n : Nat) (e : Event) :
    payload (List.replicate (n + 1) e) = payload (List.replicate n e) ++ e.bytes := by
  rw [List.replicate_succ', payload_append]
  simp [payload]

/-- 7280 records are stored, the next one fills the buffer, and `mremap` fails. Then
there are no more records, or the kernel cannot copy to the address it is given. -/
theorem full_buffer_run (more : Bool) : ∃ b old c,
    Run somewhere (List.replicate 7280 (blank 0)) [] b ∧
    old.Holds (payload (List.replicate 7281 (blank 0))) ∧
    drainEvents (fun _ => none) readNext true 2
        [.data (blank 0).bytes, if more then .failed else .again] b =
      .ok (if more then -1 else 0, c) ∧
    c.failedAt = some old ∧ c.buf = old.rebase (-1) (old.size * 2) := by
  have first : Run somewhere [] [] (allocKsightBuf somewhere) := .alloc
  have room : eventSize * (([] : List Event).length + (List.replicate 7280 (blank 0)).length + 1) ≤
      (allocKsightBuf somewhere).size.toNat := by
    rw [List.length_replicate]
    decide
  obtain ⟨b, run, size⟩ := run_fits first _ room
  have holds := align_payload (run_holds run).2.1
  rw [List.nil_append] at run holds
  have stored (n : Nat) : (payload (List.replicate n (blank 0))).length = 72 * n := by
    rw [payload_length, List.length_replicate, eventSize_eq]
  have large : b.align.size.toNat = 524288 := by
    show b.size.toNat = _
    rw [size]
    decide
  have record : (blank 0).bytes.length = 72 := (blank 0).size
  have small : (BitVec.ofNat 64 eventSize).toNat = 72 := by decide
  have fit : (payload (List.replicate 7280 (blank 0))).length + (blank 0).bytes.length ≤
      b.align.size.toNat := by
    rw [stored, large, record]
    omega
  obtain ⟨old, appended, full, same⟩ := holds.append fit
  rw [← payload_replicate_succ] at full
  have enough : ¬ b.align.remain < BitVec.ofNat 64 eventSize := by
    rw [BitVec.lt_def, holds.remain, stored, large, small]
    omega
  have short : old.remain < BitVec.ofNat 64 eventSize := by
    rw [BitVec.lt_def, full.remain, stored, same, large, small]
    omega
  have some : (blank 0).bytes.isEmpty = false := rfl
  refine ⟨b, old, ⟨old.rebase (-1) (old.size * 2), [], .some old,
    [((old.rebase (-1) (old.size * 2)).ptr, (old.rebase (-1) (old.size * 2)).remain)], true⟩,
    run, full, ?_, rfl, rfl⟩
  simp only [drainEvents, eventsLoop, if_neg enough, Call.read, readNext, some, appended,
    if_pos short, Call.grow]
  cases more <;> rfl

/-- The call fails, and the variables no longer describe the buffer with the 7281
records. -/
theorem full_buffer_lost : ∃ b old c,
    Run somewhere (List.replicate 7280 (blank 0)) [] b ∧
    drainEvents (fun _ => none) readNext true 2 [.data (blank 0).bytes, .failed] b = .ok (-1, c) ∧
    c.failedAt = some old ∧ ¬ Kept old (-1) c := by
  obtain ⟨b, old, c, run, full, result, failed, lost⟩ := full_buffer_run true
  refine ⟨b, old, c, run, result, failed, ?_⟩
  rintro ⟨_, _, same, _⟩
  have base : old.buf = -1 := by
    rw [← same, lost]
    rfl
  have page := full.page
  rw [base] at page
  revert page
  decide

/-- With no more records, the call even returns 0. -/
theorem full_buffer_zero : ∃ b old c,
    Run somewhere (List.replicate 7280 (blank 0)) [] b ∧
    drainEvents (fun _ => none) readNext true 2 [.data (blank 0).bytes, .again] b = .ok (0, c) ∧
    c.failedAt = some old ∧ ¬ Kept old 0 c := by
  obtain ⟨b, old, c, run, _, result, failed, _⟩ := full_buffer_run false
  have large := (run_holds run).2.2
  have size : 0 < b.size.toNat := Nat.lt_of_lt_of_le (by decide) large
  exact ⟨b, old, c, run, result, failed, failed_growth_loses size result failed⟩

end Ultrasight.Ksight
