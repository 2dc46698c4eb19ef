import Mathlib.Data.List.DropRight
import Mathlib.Data.List.Rotate
import Ultrasight.Ring

/-!
# What a ring gives back

The cells of a ring, written one after the other and round and round. Reading
back starts at the base as long as nothing was overwritten, and behind the write
position afterwards.

* `Holds xs`: what has been written since the ring was last emptied;
* `readBack_holds`: reading back gives the newest elements that there is room
  for, whatever the cells held before the ring was emptied.
-/

namespace Ultrasight

/-- A ring with its cells. -/
structure Ring.Memory (r : Ring) (α : Type) extends r.Writer where
  cells : List α
  full : cells.length = r.size

namespace Ring.Memory

variable {r : Ring} {α : Type}

/-- Emptying takes the write position back to the base; the cells stay. -/
def empty (m : r.Memory α) : r.Memory α := { m with toWriter := r.empty }

def put (m : r.Memory α) (x : α) : r.Memory α where
  toWriter := m.toWriter.write 1
  cells := m.cells.set m.offset x
  full := by rw [List.length_set, m.full]

def putAll (m : r.Memory α) (xs : List α) : r.Memory α := xs.foldl put m

/-- Reading back from the oldest cell on that was written. -/
def readBack (m : r.Memory α) : List α :=
  if m.unread ≤ r.size then m.cells.take m.unread else m.cells.rotate m.offset

/-- `xs` was written since the ring was last emptied: the newest elements stand
in the cells, each at its number modulo the size. -/
structure Holds (m : r.Memory α) (xs : List α) : Prop where
  unread : m.unread = xs.length
  offset : m.offset = xs.length % r.size
  newest : ∀ j, j < xs.length → xs.length ≤ j + r.size → m.cells[j % r.size]? = xs[j]?

theorem holds_empty (m : r.Memory α) : m.empty.Holds [] := by
  constructor
  · rfl
  · exact (Nat.zero_mod _).symm
  · exact fun j short => absurd short (Nat.not_lt_zero j)

/-- Two numbers less than a turn apart stand in different cells. -/
theorem cells_apart {j n size : Nat} (before : j < n) (near : n < j + size) :
    n % size ≠ j % size := by
  intro same
  have dvd : size ∣ n - j := Nat.dvd_of_mod_eq_zero (Nat.sub_mod_eq_zero_of_mod_eq same)
  have := Nat.le_of_dvd (by omega) dvd
  omega

theorem Holds.put {m : r.Memory α} {xs : List α} (h : m.Holds xs) (x : α) :
    (m.put x).Holds (xs ++ [x]) := by
  have inside := m.inside
  constructor
  · show m.unread + 1 = _
    rw [h.unread, List.length_append, List.length_singleton]
  · show (m.offset + 1) % r.size = _
    rw [h.offset, List.length_append, List.length_singleton, Nat.mod_add_mod]
  · intro j short recent
    rw [List.length_append, List.length_singleton] at short recent
    show (m.cells.set m.offset x)[j % r.size]? = _
    by_cases last : j = xs.length
    · subst last
      rw [← h.offset, List.getElem?_set_self (by rw [m.full]; exact inside),
        List.getElem?_concat_length]
    · have other : m.offset ≠ j % r.size := by
        rw [h.offset]
        exact cells_apart (by omega) (by omega)
      rw [List.getElem?_set_ne other, h.newest j (by omega) (by omega),
        List.getElem?_append_left (by omega)]

theorem Holds.putAll {m : r.Memory α} {xs : List α} (h : m.Holds xs) (ys : List α) :
    (m.putAll ys).Holds (xs ++ ys) := by
  induction ys generalizing m xs with
  | nil =>
    rw [List.append_nil]
    exact h
  | cons y ys ih =>
    have next := ih (h.put y)
    rw [List.append_assoc] at next
    exact next

/-- **A ring gives back the newest elements that it has room for.** -/
theorem readBack_holds {m : r.Memory α} {xs : List α} (h : m.Holds xs) :
    m.readBack = xs.rtake r.size := by
  have full := m.full
  have pos := r.pos
  unfold readBack
  split
  · rename_i fits
    rw [h.unread] at fits
    have all : xs.rtake r.size = xs := by
      rw [List.rtake.eq_1, Nat.sub_eq_zero_of_le fits, List.drop_zero]
    rw [all]
    apply List.ext_getElem?
    intro j
    by_cases short : j < xs.length
    · rw [List.getElem?_take_of_lt (by rw [h.unread]; exact short),
        ← h.newest j short (by omega), Nat.mod_eq_of_lt (by omega)]
    · rw [List.getElem?_eq_none (by rw [List.length_take, h.unread]; omega),
        List.getElem?_eq_none (by omega)]
  · rename_i wrapped
    rw [h.unread] at wrapped
    apply List.ext_getElem?
    intro j
    rw [List.rtake.eq_1, List.getElem?_drop]
    by_cases short : j < r.size
    · rw [List.getElem?_rotate (by omega), full, h.offset,
        ← h.newest (xs.length - r.size + j) (by omega) (by omega)]
      congr 1
      rw [Nat.add_mod_mod, ← Nat.add_mod_right (xs.length - r.size + j)]
      congr 1
      omega
    · rw [List.getElem?_eq_none (by rw [List.length_rotate, full]; omega),
        List.getElem?_eq_none (by omega)]

theorem write_write (w : r.Writer) (n k : Nat) : (w.write n).write k = w.write (n + k) := by
  simp only [Writer.write, Nat.mod_add_mod, Nat.add_assoc]

/-- The writer does not look at the cells. -/
theorem putAll_writer (m : r.Memory α) (xs : List α) :
    (m.putAll xs).toWriter = m.toWriter.write xs.length := by
  induction xs generalizing m with
  | nil =>
    have inside := Nat.mod_eq_of_lt m.inside
    simp only [putAll, List.foldl_nil, Writer.write, List.length_nil, Nat.add_zero, inside]
  | cons x xs ih =>
    show ((m.put x).putAll xs).toWriter = _
    rw [ih]
    show (m.toWriter.write 1).write xs.length = _
    rw [write_write, List.length_cons, Nat.add_comm]

end Ring.Memory

end Ultrasight
