import Mathlib.Algebra.Group.Nat.Defs
import Mathlib.Logic.Function.Basic

/-!
# A ring written by hardware

A ring occupies `size` addresses from `base` on. The writer puts each byte at
its write position and goes back to `base` at the end of the range; it never
waits for a reader. Positions are 64-bit words, so the distance of two
positions is a wrapping subtraction.
-/

namespace Ultrasight

structure Ring where
  base : BitVec 64
  size : Nat
  pos : 0 < size
  word : size < 2 ^ 64
  fits : base.toNat + size ≤ 2 ^ 64

/-- The writer's side of a ring: the offset of the next byte, and the number
of bytes written since the ring was last emptied. -/
structure Ring.Writer (r : Ring) where
  offset : Nat
  inside : offset < r.size
  unread : Nat

variable {r : Ring}

def Ring.empty (r : Ring) : r.Writer := ⟨0, r.pos, 0⟩

namespace Ring.Writer

def position (w : r.Writer) : BitVec 64 := r.base + BitVec.ofNat 64 w.offset

def write (w : r.Writer) (n : Nat) : r.Writer :=
  ⟨(w.offset + n) % r.size, Nat.mod_lt _ r.pos, w.unread + n⟩

theorem position_toNat (w : r.Writer) : w.position.toNat = r.base.toNat + w.offset := by
  have := w.inside
  have := r.fits
  simp only [position, BitVec.toNat_add, BitVec.toNat_ofNat]
  omega

/-- Without a wrap in between, the distance of two positions is the number of
bytes between them. -/
theorem distance (v w : r.Writer) (h : v.offset ≤ w.offset) :
    (w.position - v.position).toNat = w.offset - v.offset := by
  have hw := w.position_toNat
  have hv := v.position_toNat
  have := w.inside
  have := r.fits
  rw [BitVec.toNat_sub]
  omega

@[simp] theorem write_unread (w : r.Writer) (n : Nat) : (w.write n).unread = w.unread + n := rfl

theorem write_offset (w : r.Writer) (n : Nat) (h : w.offset + n < r.size) :
    (w.write n).offset = w.offset + n := Nat.mod_eq_of_lt h

end Ring.Writer

@[simp] theorem Ring.empty_unread (r : Ring) : r.empty.unread = 0 := rfl

@[simp] theorem Ring.empty_offset (r : Ring) : r.empty.offset = 0 := rfl

end Ultrasight
