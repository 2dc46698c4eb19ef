import Mathlib.Data.Nat.Find
import Mathlib.Order.Bounds.Basic
import Ultrasight.FailedFetch

/-!
# The growth loop

`fetch_trace` doubles the buffer until the unread bytes fit. While the buffer is
far from filling the address space, no operation on sizes wraps, and the number
of doublings is the least that suffices.

* `Growth f k b b'`: `k` rounds of the loop lead from `b` to `b'` and to its end,
  and none of their operations wraps;
* `growth_loop_ends`: there are such rounds, and they are what the loop does.
-/

namespace Ultrasight.TraceBuffer

/-! ## Doubling -/

section
variable {s n k : Nat}

theorem exists_least_doubling (pos : 0 < s) (n : Nat) : ∃ k, IsLeast {k | n ≤ s * 2 ^ k} k := by
  have enough : ∃ k, n ≤ s * 2 ^ k :=
    ⟨n, Nat.le_trans (Nat.le_of_lt Nat.lt_two_pow_self) (Nat.le_mul_of_pos_left _ pos)⟩
  exact ⟨Nat.find enough, Nat.find_spec enough, fun _ h => Nat.find_min' enough h⟩

/-- If more than no doubling is needed, one less is needed after the first. -/
theorem least_doubling_succ (h : IsLeast {k | n ≤ s * 2 ^ k} (k + 1)) :
    s < n ∧ IsLeast {k | n ≤ s * 2 * 2 ^ k} k := by
  have shift (j : Nat) : s * 2 * 2 ^ j = s * 2 ^ (j + 1) := by
    rw [Nat.pow_succ', Nat.mul_assoc]
  have short : s < n := by
    by_contra fits
    have zero : 0 ∈ {k | n ≤ s * 2 ^ k} := by simpa using fits
    exact absurd (h.2 zero) (by omega)
  refine ⟨short, ?_, ?_⟩
  · show n ≤ _
    rw [shift]
    exact h.1
  · intro j fits
    have later : j + 1 ∈ {k | n ≤ s * 2 ^ k} := by
      show n ≤ _
      rw [← shift]
      exact fits
    exact Nat.le_of_succ_le_succ (h.2 later)

/-- And one more than after the first, if none is not enough. -/
theorem least_doubling_double (short : s < n) (least : IsLeast {k | n ≤ s * 2 * 2 ^ k} k) :
    IsLeast {k | n ≤ s * 2 ^ k} (k + 1) := by
  have shift (j : Nat) : s * 2 * 2 ^ j = s * 2 ^ (j + 1) := by
    rw [Nat.pow_succ', Nat.mul_assoc]
  constructor
  · show n ≤ _
    rw [← shift]
    exact least.1
  · intro j fits
    cases j with
    | zero =>
      have fits : n ≤ s * 2 ^ 0 := fits
      omega
    | succ j =>
      have fits : n ≤ s * 2 ^ (j + 1) := fits
      rw [← shift] at fits
      exact Nat.succ_le_succ (least.2 fits)

end

/-! ## The size at the end -/

/-- A loop that ends with room does so at the least size that has it. -/
theorem growLoop_room {f : Fetch} {b b' : Buf} {fuel : Nat} (h : b.Sound)
    (room : growLoop f fuel b = .ok (.room b')) :
    b'.Sound ∧ b'.used = b.used ∧ ∃ k, b'.size.toNat = b.size.toNat * 2 ^ k ∧
      IsLeast {k | b.used + f.asked ≤ b.size.toNat * 2 ^ k} k := by
  induction fuel generalizing b with
  | zero => cases room
  | succ fuel ih =>
    have remain := h.remain
    have inside := h.used_le
    simp only [growLoop] at room
    split at room
    · rename_i more
      rw [BitVec.lt_def, remain] at more
      have short : b.size.toNat < b.used + f.asked := by
        simp only [Fetch.asked]
        omega
      split at room
      · cases room
      · rename_i p moved
        obtain ⟨sound, used, _⟩ := h.move p
        obtain ⟨sound', used', k, grown, least⟩ := ih sound room
        have twice : (b.move (b.size * 2) p).size.toNat = b.size.toNat * 2 :=
          (Buf.double_toNat p h.double).trans (Nat.mul_comm 2 _)
        rw [used, twice] at least
        refine ⟨sound', used'.trans used, k + 1, ?_, least_doubling_double short least⟩
        rw [grown, twice, Nat.pow_succ', Nat.mul_assoc]
    · rename_i fits
      rw [BitVec.lt_def, remain] at fits
      have enough : b.used + f.asked ≤ b.size.toNat * 2 ^ 0 := by
        simp only [Fetch.asked]
        omega
      cases room
      exact ⟨h, rfl, 0, (Nat.mul_one _).symm, enough, fun _ _ => Nat.zero_le _⟩

/-! ## Rounds -/

/-- The two subtractions that give `buf_remain` do not wrap. -/
structure Exact (b : Buf) : Prop where
  used : b.used + b.buf.toNat = b.ptr.toNat
  remain : b.remain.toNat + b.used = b.size.toNat

/-- The loop ends at `b'` after `k` rounds from `b`. The product and the sum of
each round do not wrap either. -/
inductive Growth (f : Fetch) : Nat → Buf → Buf → Prop
  | fits {b : Buf} : Exact b → ¬ b.remain < BitVec.ofInt 64 f.len → Growth f 0 b b
  | round {k : Nat} {b b' : Buf} {p : Placement (b.size * 2).toNat} : Exact b →
      b.remain < BitVec.ofInt 64 f.len → f.remap (b.size * 2) = some p →
      (b.size * 2).toNat = b.size.toNat * 2 →
      (b.move (b.size * 2) p).ptr.toNat = p.addr.toNat + b.used →
      Growth f k (b.move (b.size * 2) p) b' → Growth f (k + 1) b b'

/-- A buffer before the loop: its region is mapped, its position is inside, and
no doubling that the unread count asks for is refused. -/
structure Ready (f : Fetch) (b : Buf) : Prop where
  base : b.region.base = b.buf
  length : b.region.bytes.length = b.size.toNat
  size : 0 < b.size.toNat
  low : b.buf.toNat ≤ b.ptr.toNat
  used : b.used ≤ b.size.toNat
  count : 0 ≤ f.len ∧ f.len < 2 ^ 31
  bounded : b.used + f.len.toNat ≤ 2 ^ 62
  remaps : ∀ k, ¬ f.RefusedAt b k

section
variable {f : Fetch} {b b' : Buf} {k : Nat}

theorem Growth.loop (h : Growth f k b b') {fuel : Nat} (enough : k < fuel) :
    growLoop f fuel b = .ok (.room b') := by
  induction h generalizing fuel with
  | fits _ fits =>
    obtain ⟨fuel, rfl⟩ := Nat.exists_eq_add_one_of_ne_zero (by omega : fuel ≠ 0)
    exact growLoop_fits fits
  | round _ more moved _ _ _ ih =>
    obtain ⟨fuel, rfl⟩ := Nat.exists_eq_add_one_of_ne_zero (by omega : fuel ≠ 0)
    rw [growLoop, if_pos more, moved]
    exact ih (by omega)

theorem Ready.exact (h : Ready f b) : Exact b := by
  have low := h.low
  have inside := h.used
  have word := b.ptr.isLt
  have size := b.size.isLt
  constructor
  · rw [Buf.used, BitVec.toNat_sub]
    omega
  · rw [Buf.remain, BitVec.toNat_sub]
    simp only [Buf.used] at inside ⊢
    omega

theorem Ready.asked (h : Ready f b) : f.asked = f.len.toNat := by
  obtain ⟨positive, int⟩ := h.count
  rw [Fetch.asked, BitVec.toNat_ofInt]
  omega

/-- The condition of the loop. -/
theorem Ready.more_iff (h : Ready f b) :
    b.remain < BitVec.ofInt 64 f.len ↔ b.size.toNat < b.used + f.len.toNat := by
  have remain := h.exact.remain
  have asked := h.asked
  rw [BitVec.lt_def]
  simp only [Fetch.asked] at asked
  omega

/-- A round of the loop leads to a buffer of twice the size that is ready too. -/
theorem Ready.round (h : Ready f b) (more : b.size.toNat < b.used + f.len.toNat) :
    ∃ p, f.remap (b.size * 2) = some p ∧ (b.size * 2).toNat = b.size.toNat * 2 ∧
      (b.move (b.size * 2) p).ptr.toNat = p.addr.toNat + b.used ∧
      (b.move (b.size * 2) p).used = b.used ∧
      (b.move (b.size * 2) p).contents = b.contents ∧ Ready f (b.move (b.size * 2) p) := by
  have inside := h.used
  have bounded := h.bounded
  have twice : (b.size * 2).toNat = b.size.toNat * 2 := by
    show (b.size * 2#64).toNat = _
    rw [BitVec.toNat_mul]
    show b.size.toNat * 2 % 2 ^ 64 = _
    omega
  cases moved : f.remap (b.size * 2) with
  | none =>
    refine absurd (refusedAt_zero.mpr ⟨?_, moved⟩) (h.remaps 0)
    rw [h.asked]
    omega
  | some p =>
    have fits := p.fits
    have offset : (p.addr + (b.ptr - b.buf)).toNat = p.addr.toNat + b.used := by
      rw [BitVec.toNat_add]
      simp only [Buf.used] at inside ⊢
      omega
    have used : (b.move (b.size * 2) p).used = b.used := by
      show (p.addr + (b.ptr - b.buf) - p.addr).toNat = _
      rw [BitVec.toNat_sub, offset]
      have := p.addr.isLt
      omega
    have bytes : (b.move (b.size * 2) p).region.bytes =
        b.region.bytes ++ List.replicate ((b.size * 2).toNat - b.region.bytes.length) 0 := by
      apply List.take_of_length_le
      rw [List.length_append, List.length_replicate, h.length]
      omega
    have contents : (b.move (b.size * 2) p).contents = b.contents := by
      rw [Buf.contents_of_base rfl, Buf.contents_of_base h.base, used, bytes]
      exact List.take_append_of_le_length (by rw [h.length]; omega)
    refine ⟨p, rfl, twice, offset, used, contents, ?_⟩
    constructor
    · rfl
    · rw [bytes, List.length_append, List.length_replicate, h.length]
      show _ = (b.size * 2).toNat
      omega
    · exact p.pos
    · show p.addr.toNat ≤ (p.addr + (b.ptr - b.buf)).toNat
      omega
    · show _ ≤ (b.size * 2).toNat
      omega
    · exact h.count
    · rw [used]
      exact bounded
    · intro k refused
      exact h.remaps (k + 1) ((refusedAt_double (twice.trans (Nat.mul_comm _ _)) used k).mp refused)

/-- The rounds that double until everything fits. -/
theorem Ready.growth (h : Ready f b)
    (least : IsLeast {k | b.used + f.len.toNat ≤ b.size.toNat * 2 ^ k} k) :
    ∃ b', Growth f k b b' ∧ b'.size.toNat = b.size.toNat * 2 ^ k ∧ Exact b' ∧
      b'.used = b.used ∧ b'.contents = b.contents := by
  induction k generalizing b with
  | zero =>
    have room : b.used + f.len.toNat ≤ b.size.toNat := by simpa using least.1
    have done : ¬ b.remain < BitVec.ofInt 64 f.len := by
      rw [h.more_iff]
      omega
    exact ⟨b, .fits h.exact done, by simp, h.exact, rfl, rfl⟩
  | succ k ih =>
    obtain ⟨short, fewer⟩ := least_doubling_succ least
    obtain ⟨p, moved, twice, offset, used, contents, ready⟩ := h.round short
    have size : (b.move (b.size * 2) p).size.toNat = b.size.toNat * 2 := twice
    rw [← size, ← used] at fewer
    obtain ⟨b', rounds, grown, exact', used', contents'⟩ := ih ready fewer
    refine ⟨b', .round h.exact (h.more_iff.mpr short) moved twice offset rounds, ?_, exact',
      used'.trans used, contents'.trans contents⟩
    rw [grown, size, Nat.pow_succ', Nat.mul_assoc]

/-- **The loop ends with the least size that has room.** None of its operations
on sizes wraps, and the bytes stored so far are kept. -/
theorem growth_loop_ends (h : Ready f b.align) : ∃ k grown,
    IsLeast {k | f.len ≤ (b.size.toNat : Int) * 2 ^ k - b.align.used} k ∧
    (∀ fuel, k < fuel → growLoop f fuel b.align = .ok (.room grown)) ∧
    growLoop f growFuel b.align = .ok (.room grown) ∧
    Growth f k b.align grown ∧
    grown.size.toNat = b.size.toNat * 2 ^ k ∧
    grown.remain.toNat = grown.size.toNat - grown.used ∧
    grown.used = b.align.used ∧ grown.contents = b.align.contents := by
  have positive := h.count.1
  have size : b.align.size = b.size := rfl
  obtain ⟨k, least⟩ := exists_least_doubling h.size (b.align.used + f.len.toNat)
  obtain ⟨grown, rounds, final, exact', used, contents⟩ := h.growth least
  have same : {k : Nat | f.len ≤ (b.size.toNat : Int) * 2 ^ k - b.align.used} =
      {k | b.align.used + f.len.toNat ≤ b.align.size.toNat * 2 ^ k} := by
    ext j
    have cast : ((b.size.toNat * 2 ^ j : Nat) : Int) = (b.size.toNat : Int) * 2 ^ j := by
      push_cast
      rfl
    simp only [Set.mem_ofPred_eq, size, ← cast]
    omega
  have short : k < growFuel := by
    cases k with
    | zero => decide
    | succ k =>
      by_contra long
      have wide : 2 ^ 63 ≤ 2 ^ k := Nat.pow_le_pow_right (by decide) (by
        simp only [growFuel] at long
        omega)
      have fits : b.align.used + f.len.toNat ≤ b.align.size.toNat * 2 ^ k := by
        have := Nat.le_mul_of_pos_left (2 ^ k) h.size
        have := h.bounded
        omega
      exact absurd (least.2 fits) (by omega)
  have remain := exact'.remain
  exact ⟨k, grown, same ▸ least, fun fuel enough => rounds.loop enough, rounds.loop short, rounds,
    final, by omega, used, contents⟩

end

/-- 16 bytes, of which 3 are stored. -/
def sixteenBytes : Buf := ⟨0x1000, 16, 0x1003, ⟨0x1000, List.replicate 16 7⟩⟩

/-- 40 bytes are unread, and there is room elsewhere. -/
def fortyUnread : Fetch where
  len := 40
  remap size :=
    if h : 0 < size.toNat ∧ size.toNat < 2 ^ 32 then
      some ⟨0x2000, by decide, by decide, Nat.lt_trans (Nat.add_lt_add_left h.2 _) (by decide), h.1⟩
    else none
  n := 40
  data := List.replicate 40 1

/-- With 8 bytes in use, two doublings make room for 40 more. -/
theorem sixteen_bytes_grown : ∃ grown,
    growLoop fortyUnread growFuel sixteenBytes.align = .ok (.room grown) ∧
      grown.size.toNat = 64 ∧ grown.used = 8 := by
  have used : sixteenBytes.align.used = 8 := by decide
  have asked : fortyUnread.asked = 40 := by decide
  have ready : Ready fortyUnread sixteenBytes.align := by
    constructor
    · rfl
    · rfl
    · decide
    · decide
    · decide
    · decide
    · decide
    · rintro k ⟨short, refused⟩
      rw [used, asked] at short
      have few : k < 2 := by
        by_contra many
        have : 2 ^ 2 ≤ 2 ^ k := Nat.pow_le_pow_right (by decide) (by omega)
        change 16 * 2 ^ k - 8 < 40 at short
        omega
      obtain rfl | rfl : k = 0 ∨ k = 1 := by omega
      · cases refused
      · cases refused
  obtain ⟨k, grown, least, _, ends, _, size, _, same, _⟩ := growth_loop_ends ready
  have two : k = 2 := least.unique (by
    refine ⟨by decide, ?_⟩
    intro j fits
    by_contra fewer
    obtain rfl | rfl : j = 0 ∨ j = 1 := by omega
    · revert fits
      decide
    · revert fits
      decide)
  refine ⟨grown, ends, ?_, same.trans used⟩
  rw [size, two]
  rfl

end Ultrasight.TraceBuffer
