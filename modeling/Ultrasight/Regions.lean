import Mathlib.Algebra.Group.Nat.Defs
import Ultrasight.Chunks

/-!
# Growing buffers in mapped memory

A region is a stretch of mapped memory; a placement is an address at which the
kernel can map a given number of bytes. A buffer is a region together with the
three variables a program keeps about it: base, size and the position of the
next byte. All address arithmetic is on 64-bit words, as the machine does it;
`Buf.Holds` relates the words to the content stored so far, and every operation
has one rule saying what it does to that content.
-/

namespace Ultrasight

open Chunks

/-- Why a computation has no result: it touched memory outside its region, or
it was not given enough rounds. -/
inductive Abort where
  | fault | outOfFuel
  deriving DecidableEq, Repr

def pageSize : Nat := 0x1000

/-- `ALIGN_UP` on an address. -/
def alignUp (val align : BitVec 64) : BitVec 64 := (val + align - 1) &&& ~~~(align - 1)

theorem and_not_seven (n : Nat) (h : n < 2 ^ 64) : n &&& 2 ^ 64 - 8 = n / 8 * 8 := by
  have shifted : n / 8 * 8 = n >>> 3 <<< 3 := by
    rw [Nat.shiftRight_eq_div_pow, Nat.shiftLeft_eq]
  have mask : 2 ^ 64 - 8 = (2 ^ 61 - 1) <<< 3 := by decide
  rw [shifted, mask]
  apply Nat.eq_of_testBit_eq
  intro i
  have high : 64 ≤ i → n.testBit i = false := fun le =>
    Nat.testBit_lt_two_pow (Nat.lt_of_lt_of_le h (Nat.pow_le_pow_right (by decide) le))
  simp only [Nat.testBit_and, Nat.testBit_shiftLeft, Nat.testBit_shiftRight,
    Nat.testBit_two_pow_sub_one]
  by_cases low : 3 ≤ i
  · by_cases inside : i < 64
    · simp [low, show i - 3 < 61 by omega, show 3 + (i - 3) = i by omega]
    · simp [low, high (by omega), show 3 + (i - 3) = i by omega]
  · simp [low]

theorem alignUp_toNat (p : BitVec 64) (h : p.toNat + 7 < 2 ^ 64) :
    (alignUp p 8).toNat = roundUp p.toNat 8 := by
  have sum : (p + 8 - 1).toNat = p.toNat + 7 := by
    rw [BitVec.toNat_sub, BitVec.toNat_add]
    simp only [BitVec.toNat_ofNat, BitVec.ofNat_eq_ofNat]
    omega
  have mask : (~~~((8 : BitVec 64) - 1)).toNat = 2 ^ 64 - 8 := by decide
  rw [alignUp, BitVec.toNat_and, sum, mask, and_not_seven _ (by omega)]
  rfl

/-- An address where `n` bytes can be mapped: a whole page but not the null
page, inside the address space and not at its very end. Nothing of length 0 can
be mapped. -/
structure Placement (n : Nat) where
  addr : BitVec 64
  nonnull : addr ≠ 0
  page : addr.toNat % pageSize = 0
  fits : addr.toNat + n < 2 ^ 64
  pos : 0 < n

/-- Where `mremap` puts a region for each size it is asked for; `none` stands for
`MAP_FAILED`. -/
abbrev Remap := (size : BitVec 64) → Option (Placement size.toNat)

/-- `mremap` succeeds for every size below `n`. -/
def Remap.Grants (remap : Remap) (n : Nat) : Prop :=
  ∀ size : BitVec 64, 0 < size.toNat → size.toNat < n → (remap size).isSome = true

/-- The whole address space cannot be mapped. -/
theorem Remap.Grants.bounded {remap : Remap} {n : Nat} (h : remap.Grants n) : n < 2 ^ 64 := by
  by_contra wide
  have last : (-1 : BitVec 64).toNat = 2 ^ 64 - 1 := by decide
  obtain ⟨p, -⟩ := Option.isSome_iff_exists.mp (h (-1) (by omega) (by omega))
  have fits := p.fits
  have zero : p.addr.toNat = 0 := by omega
  exact p.nonnull (BitVec.eq_of_toNat_eq zero)

theorem Remap.Grants.double {remap : Remap} {n : Nat} (h : remap.Grants n) {size : BitVec 64}
    (pos : 0 < size.toNat) (below : 2 * size.toNat < n) : remap (size * 2) ≠ none := by
  have bounded := h.bounded
  have twice : (size * 2).toNat = 2 * size.toNat := by
    have product : (size * 2).toNat = size.toNat * 2 % 2 ^ 64 := BitVec.toNat_mul _ _
    omega
  have moved := h (size * 2) (by omega) (by omega)
  intro refused
  rw [refused] at moved
  cases moved

structure Region where
  base : BitVec 64
  bytes : List UInt8
  deriving DecidableEq

/-- A fresh anonymous mapping is zero-filled. -/
def Region.map {n : Nat} (p : Placement n) : Region := ⟨p.addr, List.replicate n 0⟩

/-- `mremap`: the content moves to the new place, what is new is zero-filled. -/
def Region.move {n : Nat} (r : Region) (p : Placement n) : Region :=
  ⟨p.addr, (r.bytes ++ List.replicate (n - r.bytes.length) 0).take n⟩

/-- `data` in the place of the bytes from offset `i` on. -/
def Region.splice (r : Region) (i : Nat) (data : List UInt8) : Region :=
  ⟨r.base, r.bytes.take i ++ data ++ r.bytes.drop (i + data.length)⟩

theorem Region.splice_length {r : Region} {i : Nat} {data : List UInt8}
    (fit : i + data.length ≤ r.bytes.length) :
    (r.splice i data).bytes.length = r.bytes.length := by
  simp only [Region.splice, List.length_append, List.length_take, List.length_drop]
  omega

/-- Store `data` from address `p` on. -/
def Region.write (r : Region) (p : BitVec 64) (data : List UInt8) : Except Abort Region :=
  if r.base.toNat ≤ p.toNat ∧ p.toNat + data.length ≤ r.base.toNat + r.bytes.length then
    .ok (r.splice (p.toNat - r.base.toNat) data)
  else .error .fault

/-- The `n` bytes from address `p` on. -/
def Region.read (r : Region) (p : BitVec 64) (n : Nat) : List UInt8 :=
  (r.bytes.drop (p.toNat - r.base.toNat)).take n

structure Buf where
  buf : BitVec 64
  size : BitVec 64
  ptr : BitVec 64
  region : Region
  deriving DecidableEq

namespace Buf

/-- The variables before anything is mapped. -/
def null : Buf := ⟨0, 0, 0, ⟨0, []⟩⟩

def map (size : BitVec 64) (p : Placement size.toNat) : Buf :=
  ⟨p.addr, size, p.addr, .map p⟩

def remain (b : Buf) : BitVec 64 := b.size - (b.ptr - b.buf)

def align (b : Buf) : Buf := { b with ptr := alignUp b.ptr 8 }

/-- The variables recomputed for a buffer of `size` bytes at `addr`. -/
def rebase (b : Buf) (addr size : BitVec 64) : Buf :=
  ⟨addr, size, addr + (b.ptr - b.buf), b.region⟩

/-- The variables and the region after a successful `mremap` to `size` bytes. -/
def move (b : Buf) (size : BitVec 64) (p : Placement size.toNat) : Buf :=
  { b.rebase p.addr size with region := b.region.move p }

/-- Store `data` at the position and advance it. -/
def append (b : Buf) (data : List UInt8) : Except Abort Buf :=
  (b.region.write b.ptr data).map fun region =>
    { b with ptr := b.ptr + BitVec.ofNat 64 data.length, region := region }

/-- What is stored: the bytes from the base up to the position. -/
def contents (b : Buf) : List UInt8 := b.region.read b.buf (b.ptr - b.buf).toNat

/-- The variables describe their region, `content` is stored in it and the rest
is still zero. Sizes are powers of two: they only ever double. -/
structure Holds (b : Buf) (content : List UInt8) : Prop where
  base : b.region.base = b.buf
  page : b.buf.toNat % pageSize = 0
  fits : b.buf.toNat + b.size.toNat < 2 ^ 64
  double : ∃ k, b.size.toNat = 2 ^ (k + 3)
  ptr : b.ptr.toNat = b.buf.toNat + content.length
  room : content.length ≤ b.size.toNat
  bytes : b.region.bytes = content ++ List.replicate (b.size.toNat - content.length) 0

variable {b : Buf} {content : List UInt8}

theorem Holds.inside (h : b.Holds content) :
    b.buf.toNat ≤ b.ptr.toNat ∧ b.ptr.toNat ≤ b.buf.toNat + b.size.toNat := by
  have := h.ptr
  have := h.room
  omega

theorem Holds.used (h : b.Holds content) : (b.ptr - b.buf).toNat = content.length := by
  have := h.ptr
  have := b.ptr.isLt
  rw [BitVec.toNat_sub]
  omega

theorem Holds.remain (h : b.Holds content) :
    b.remain.toNat = b.size.toNat - content.length := by
  have := h.used
  have := h.room
  have := b.size.isLt
  rw [Buf.remain, BitVec.toNat_sub]
  omega

theorem Holds.contents_eq (h : b.Holds content) : b.contents = content := by
  rw [contents, h.used, Region.read, h.base, Nat.sub_self, List.drop_zero, h.bytes,
    List.take_left']
  rfl

theorem Holds.size_pos (h : b.Holds content) : 0 < b.size.toNat := by
  obtain ⟨k, hk⟩ := h.double
  rw [hk]
  exact Nat.two_pow_pos _

theorem Holds.length (h : b.Holds content) : b.region.bytes.length = b.size.toNat := by
  have := h.room
  rw [h.bytes, List.length_append, List.length_replicate]
  omega

theorem Holds.size_dvd (h : b.Holds content) : 8 ∣ b.size.toNat := by
  obtain ⟨k, hk⟩ := h.double
  exact ⟨2 ^ k, by rw [hk, Nat.pow_add]; omega⟩

/-- At most half of the address space. -/
theorem Holds.half (h : b.Holds content) : b.size.toNat ≤ 2 ^ 63 := by
  obtain ⟨k, hk⟩ := h.double
  have wide := b.size.isLt
  rw [hk] at wide ⊢
  have small : k + 3 < 64 := (Nat.pow_lt_pow_iff_right (show 1 < 2 by decide)).mp wide
  exact Nat.pow_le_pow_right (by decide) (by omega)

/-- A whole number of pages, if it is one. -/
theorem Holds.pages (h : b.Holds content) (large : pageSize ≤ b.size.toNat) :
    pageSize ∣ b.size.toNat := by
  obtain ⟨k, hk⟩ := h.double
  rw [hk] at large ⊢
  have twelve : 12 ≤ k + 3 := (Nat.pow_le_pow_iff_right (show 1 < 2 by decide)).mp large
  exact Nat.pow_dvd_pow 2 twelve

theorem holds_map {size : BitVec 64} (p : Placement size.toNat)
    (double : ∃ k, size.toNat = 2 ^ (k + 3)) : (map size p).Holds [] :=
  ⟨rfl, p.page, p.fits, double, rfl, Nat.zero_le _, rfl⟩

/-- Aligning the position fills the gap with the zeros that are there. -/
theorem Holds.align (h : b.Holds content) : b.align.Holds (padTo 8 0 content) := by
  have page := h.page
  have fits := h.fits
  have ptr := h.ptr
  obtain ⟨q, hq⟩ := h.size_dvd
  have below : roundUp content.length 8 ≤ b.size.toNat :=
    roundUp_least (by decide) h.room h.size_dvd
  have above := le_roundUp content.length (show 0 < 8 by decide)
  have word : b.ptr.toNat + 7 < 2 ^ 64 := by
    have := h.room
    simp only [pageSize] at page
    omega
  refine ⟨h.base, h.page, h.fits, h.double, ?_, ?_, ?_⟩
  · show (alignUp b.ptr 8).toNat = b.buf.toNat + _
    rw [alignUp_toNat _ word, padTo_length (by decide), ptr]
    simp only [roundUp, pageSize] at page ⊢
    omega
  · rw [padTo_length (by decide)]
    exact below
  · show b.region.bytes = _ ++ List.replicate (b.size.toNat - _) 0
    rw [padTo_length (by decide), h.bytes, padTo, List.append_assoc, List.replicate_append_replicate]
    congr 2
    omega

/-- The doubled size does not wrap, because nothing of length 0 can be mapped. -/
theorem double_toNat {size : BitVec 64} (p : Placement (size * 2).toNat)
    (double : ∃ k, size.toNat = 2 ^ (k + 3)) : (size * 2).toNat = 2 * size.toNat := by
  obtain ⟨k, hk⟩ := double
  have bound := size.isLt
  have pos := p.pos
  have product : (size * 2).toNat = size.toNat * 2 % 2 ^ 64 := BitVec.toNat_mul _ _
  rw [product] at pos ⊢
  have wide : size.toNat * 2 < 2 ^ 64 := by
    by_contra wrap
    have small : k + 3 < 64 := by
      rw [hk] at bound
      exact (Nat.pow_lt_pow_iff_right (by decide)).mp bound
    have exact_ : k + 3 = 63 := by
      by_contra other
      have : 2 ^ (k + 3) ≤ 2 ^ 62 := Nat.pow_le_pow_right (by decide) (by omega)
      omega
    rw [hk, exact_] at pos
    simp at pos
  omega

/-- Doubling once and `k` times more. -/
theorem double_pow (size : BitVec 64) (k : Nat) : size * 2 * 2 ^ k = size * 2 ^ (k + 1) := by
  rw [BitVec.mul_assoc, BitVec.mul_comm 2, ← BitVec.pow_succ]

theorem double_pow_toNat {size : BitVec 64} (twice : (size * 2).toNat = 2 * size.toNat) (k : Nat) :
    (size * 2).toNat * 2 ^ k = size.toNat * 2 ^ (k + 1) := by
  rw [twice, Nat.pow_succ', Nat.mul_comm 2, Nat.mul_assoc]

/-- Moving to twice the size keeps the content. -/
theorem Holds.move (h : b.Holds content) (p : Placement (b.size * 2).toNat) :
    (b.move (b.size * 2) p).Holds content ∧
      (b.move (b.size * 2) p).size.toNat = 2 * b.size.toNat := by
  have twice := double_toNat p h.double
  obtain ⟨k, hk⟩ := h.double
  have room := h.room
  have fits := p.fits
  have used := h.used
  refine ⟨⟨rfl, p.page, p.fits, ⟨k + 1, ?_⟩, ?_, ?_, ?_⟩, twice⟩
  · show (b.size * 2).toNat = _
    rw [twice, hk]
    exact (Nat.pow_succ' ..).symm
  · show (p.addr + (b.ptr - b.buf)).toNat = p.addr.toNat + content.length
    rw [BitVec.toNat_add, used]
    omega
  · show content.length ≤ (b.size * 2).toNat
    omega
  · show (b.region.bytes ++ _).take _ = content ++ List.replicate ((b.size * 2).toNat - _) 0
    have length := h.length
    rw [length, List.take_of_length_le (by
      rw [List.length_append, List.length_replicate, length]; omega), h.bytes, List.append_assoc,
      List.replicate_append_replicate]
    congr 2
    omega

theorem append_inside {data : List UInt8} (lo : b.region.base.toNat ≤ b.ptr.toNat)
    (hi : b.ptr.toNat + data.length ≤ b.region.base.toNat + b.region.bytes.length) :
    b.append data = .ok ⟨b.buf, b.size, b.ptr + BitVec.ofNat 64 data.length,
      b.region.splice (b.ptr.toNat - b.region.base.toNat) data⟩ := by
  rw [append, Region.write, if_pos ⟨lo, hi⟩]
  rfl

/-- Appending what fits in the remaining room. -/
theorem Holds.append (h : b.Holds content) {data : List UInt8}
    (fit : content.length + data.length ≤ b.size.toNat) :
    ∃ b', b.append data = .ok b' ∧ b'.Holds (content ++ data) ∧ b'.size = b.size := by
  have length : b.region.bytes.length = b.size.toNat := by
    have := h.room
    rw [h.bytes, List.length_append, List.length_replicate]; omega
  have ptr := h.ptr
  have fits := h.fits
  have offset : b.ptr.toNat - b.region.base.toNat = content.length := by rw [h.base]; omega
  refine ⟨_, append_inside (by rw [h.base]; omega) (by rw [h.base, length]; omega), ?_, rfl⟩
  refine ⟨h.base, h.page, h.fits, h.double, ?_, ?_, ?_⟩
  · show (b.ptr + BitVec.ofNat 64 data.length).toNat = b.buf.toNat + _
    rw [BitVec.toNat_add, BitVec.toNat_ofNat, List.length_append]
    omega
  · rw [List.length_append]
    exact fit
  · show _ ++ data ++ _ = content ++ data ++ List.replicate (b.size.toNat - _) 0
    rw [offset, h.bytes, List.take_left' rfl, List.drop_append, List.drop_of_length_le (by simp),
      List.nil_append, List.drop_replicate, List.length_append]
    congr 2
    omega

/-! ## Whatever is stored -/

/-- The variables describe their region, and the position is inside it. -/
structure Sound (b : Buf) : Prop where
  base : b.region.base = b.buf
  page : b.buf.toNat % pageSize = 0
  fits : b.buf.toNat + b.size.toNat < 2 ^ 64
  double : ∃ k, b.size.toNat = 2 ^ (k + 3)
  length : b.region.bytes.length = b.size.toNat
  low : b.buf.toNat ≤ b.ptr.toNat
  high : b.ptr.toNat ≤ b.buf.toNat + b.size.toNat

/-- The length that is exported, `ptr - buf`. -/
def used (b : Buf) : Nat := (b.ptr - b.buf).toNat

theorem sound_map {size : BitVec 64} (p : Placement size.toNat)
    (double : ∃ k, size.toNat = 2 ^ (k + 3)) : (map size p).Sound := by
  constructor
  · rfl
  · exact p.page
  · exact p.fits
  · exact double
  · exact List.length_replicate
  · exact Nat.le_refl _
  · exact Nat.le_add_right _ _

theorem Sound.used_add (h : b.Sound) : b.buf.toNat + b.used = b.ptr.toNat := by
  have := h.low
  have := b.ptr.isLt
  rw [used, BitVec.toNat_sub]
  omega

theorem Sound.used_le (h : b.Sound) : b.used ≤ b.size.toNat := by
  have := h.used_add
  have := h.high
  omega

theorem Sound.remain (h : b.Sound) : b.remain.toNat = b.size.toNat - b.used := by
  have := h.used_le
  have := b.size.isLt
  rw [Buf.remain, BitVec.toNat_sub]
  simp only [used] at *
  omega

theorem contents_of_base (base : b.region.base = b.buf) :
    b.contents = b.region.bytes.take b.used := by
  rw [contents, Region.read, base, Nat.sub_self, List.drop_zero]
  rfl

theorem Sound.contents_eq (h : b.Sound) : b.contents = b.region.bytes.take b.used :=
  contents_of_base h.base

/-- Aligning moves the position by less than 8, and not past the end. -/
theorem Sound.align (h : b.Sound) : b.align.Sound ∧ b.align.used = roundUp b.used 8 := by
  have page := h.page
  have fits := h.fits
  have used := h.used_add
  have above := le_roundUp b.used (show 0 < 8 by decide)
  obtain ⟨k, size⟩ := h.double
  have dvd : 8 ∣ b.size.toNat := ⟨2 ^ k, by rw [size, Nat.pow_add]; omega⟩
  have below : roundUp b.used 8 ≤ b.size.toNat := roundUp_least (by decide) h.used_le dvd
  have aligned : b.align.ptr.toNat = b.buf.toNat + roundUp b.used 8 := by
    have word : b.ptr.toNat + 7 < 2 ^ 64 := by
      have := h.high
      obtain ⟨q, hq⟩ := dvd
      simp only [pageSize] at page
      omega
    show (alignUp b.ptr 8).toNat = _
    rw [alignUp_toNat _ word, ← used]
    simp only [roundUp, pageSize] at page ⊢
    omega
  have sound : b.align.Sound := by
    constructor
    · exact h.base
    · exact h.page
    · exact h.fits
    · exact h.double
    · exact h.length
    · show b.buf.toNat ≤ _
      omega
    · show _ ≤ b.buf.toNat + b.size.toNat
      omega
  refine ⟨sound, ?_⟩
  have := sound.used_add
  have : b.align.buf.toNat = b.buf.toNat := rfl
  omega

/-- Moving to twice the size keeps the offset and what is stored. -/
theorem Sound.move (h : b.Sound) (p : Placement (b.size * 2).toNat) :
    (b.move (b.size * 2) p).Sound ∧ (b.move (b.size * 2) p).used = b.used ∧
      (b.move (b.size * 2) p).contents = b.contents := by
  have twice := double_toNat p h.double
  have fits := p.fits
  have inside := h.used_le
  have length := h.length
  have offset : (p.addr + (b.ptr - b.buf)).toNat = p.addr.toNat + b.used := by
    rw [BitVec.toNat_add]
    simp only [used] at inside ⊢
    omega
  have moved : (b.move (b.size * 2) p).region.bytes =
      b.region.bytes ++ List.replicate ((b.size * 2).toNat - b.region.bytes.length) 0 := by
    show (b.region.bytes ++ _).take _ = _
    apply List.take_of_length_le
    rw [List.length_append, List.length_replicate]
    omega
  have sound : (b.move (b.size * 2) p).Sound := by
    obtain ⟨k, size⟩ := h.double
    constructor
    · rfl
    · exact p.page
    · exact p.fits
    · refine ⟨k + 1, ?_⟩
      show (b.size * 2).toNat = _
      rw [twice, size]
      exact (Nat.pow_succ' ..).symm
    · rw [moved, List.length_append, List.length_replicate, length]
      show _ = (b.size * 2).toNat
      omega
    · show p.addr.toNat ≤ (p.addr + (b.ptr - b.buf)).toNat
      omega
    · show (p.addr + (b.ptr - b.buf)).toNat ≤ p.addr.toNat + (b.size * 2).toNat
      omega
  have same : (b.move (b.size * 2) p).used = b.used := by
    have := sound.used_add
    have : (b.move (b.size * 2) p).ptr.toNat = p.addr.toNat + b.used := offset
    have : (b.move (b.size * 2) p).buf.toNat = p.addr.toNat := rfl
    omega
  refine ⟨sound, same, ?_⟩
  rw [sound.contents_eq, h.contents_eq, same, moved]
  exact List.take_append_of_le_length (by omega)

end Buf

end Ultrasight
