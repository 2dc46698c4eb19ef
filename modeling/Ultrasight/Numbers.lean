import Ultrasight.Text

/-!
# Numbers at the start of a text

`strtol` and `scanf` read a number and fit it into a variable. `number` is the
number itself; the conversions are what becomes of it.

* `scanHex_eq`: `%lx` is the conversion to a word of the number in base 16;
* `toULong_toNat_iff`, `toLong_toNat_iff`: which numbers are stored as they are;
* `number_decimal`: a number that `%d` wrote is read back.
-/

namespace Ultrasight.Text

/-- The number a text starts with, and the text behind it: blanks, a sign, in
base 16 a `0x`, and digits. -/
def number (b : Nat) (s : List UInt8) : Option (Int × List UInt8) :=
  let (negative, s) := sign (s.dropWhile isSpace)
  let s := if b = 16 then (behindMarker s).elim s (48 :: ·) else s
  if startsWith (isDigit b) s then
    let (n, rest) := digits b s
    some (if negative then -n else n, rest)
  else none

/-- To `unsigned long`, as `strtoul` does it. -/
def toULong (n : Int) : BitVec 64 := if 2 ^ 64 ≤ n.natAbs then -1 else .ofInt 64 n

/-- To `long`, as `strtol` does it. -/
def toLong (n : Int) : BitVec 64 := .ofInt 64 (max longMin (min longMax n))

/-- `%ld`. -/
def scanLong (s : List UInt8) : Option (BitVec 64 × List UInt8) :=
  (number 10 s).map fun p => (toLong p.1, p.2)

/-- `%u`: it is read as a `long` and cut off. -/
def scanUnsigned (s : List UInt8) : Option (BitVec 32 × List UInt8) :=
  (number 10 s).map fun p => ((toULong p.1).setWidth 32, p.2)

/-- `atoi`. -/
def atoi (s : List UInt8) : BitVec 32 := (toLong ((number 10 s).elim 0 Prod.fst)).setWidth 32

/-! ## Numbers that fit -/

theorem toULong_toNat_iff (n : Int) : ((toULong n).toNat : Int) = n ↔ 0 ≤ n ∧ n < 2 ^ 64 := by
  rw [toULong]
  split
  · have largest : ((-1 : BitVec 64).toNat : Int) = 2 ^ 64 - 1 := by decide
    rw [largest]
    omega
  · rw [BitVec.toNat_ofInt]
    omega

theorem toLong_toNat_iff (n : Int) : ((toLong n).toNat : Int) = n ↔ 0 ≤ n ∧ n < 2 ^ 63 := by
  rw [toLong, BitVec.toNat_ofInt]
  simp only [longMin, longMax]
  omega

theorem scanHex_eq (s : List UInt8) :
    scanHex s = (number 16 s).map fun p => (toULong p.1, p.2) := by
  have word (negative : Bool) (n : Nat) :
      (if (negative && decide (n < 2 ^ 64)) = true
        then -(if 2 ^ 64 ≤ n then (-1 : BitVec 64) else .ofNat 64 n)
        else if 2 ^ 64 ≤ n then -1 else .ofNat 64 n) =
      toULong (if negative = true then -(n : Int) else n) := by
    by_cases large : 2 ^ 64 ≤ n
    · have more : ¬ n < 2 ^ 64 := by omega
      cases negative <;>
        simp only [Bool.false_and, Bool.true_and, Bool.false_eq_true, decide_eq_true_eq, if_false,
          if_true, toULong, Int.natAbs_neg, Int.natAbs_natCast, if_pos large, if_neg more]
    · have less : n < 2 ^ 64 := by omega
      cases negative <;>
        simp only [Bool.false_and, Bool.true_and, Bool.false_eq_true, decide_eq_true_eq, if_false,
          if_true, toULong, Int.natAbs_neg, Int.natAbs_natCast, if_neg large, if_pos less,
          BitVec.ofInt_neg, BitVec.ofInt_natCast]
  simp only [scanHex, number, if_true, word]
  cases startsWith (isDigit 16) _ with
  | false => rfl
  | true => rfl

/-! ## Numbers as `printf` writes them -/

section
variable {n : Nat} {rest : List UInt8}

theorem digits_start {s : List UInt8} (h : Numeral 10 n s) (rest : List UInt8) :
    startsWith (isDigit 10) (s ++ rest) = true := by
  obtain ⟨c, s, rfl⟩ := List.exists_cons_of_ne_nil h.nonempty
  exact h.digits c List.mem_cons_self

/-- What stands behind the number does not go on with it. -/
theorem number_numeral {s : List UInt8} (h : Numeral 10 n s)
    (stop : startsWith (isDigit 10) rest = false) :
    number 10 (s ++ rest) = some ((n : Int), rest) := by
  obtain ⟨c, t, rfl⟩ := List.exists_cons_of_ne_nil h.nonempty
  have first := digit_plain (isDigit_mono (by decide) (h.digits c List.mem_cons_self))
  have read := digits_append h stop
  have start := digits_start h rest
  rw [List.cons_append] at read start ⊢
  have unsigned : sign (c :: (t ++ rest)) = (false, c :: (t ++ rest)) := by
    simp [sign, startsWith, first.2.1, first.2.2.1]
  simp [number, first.1, unsigned, start, read]

theorem scanUnsigned_numeral {s : List UInt8} (h : Numeral 10 n s) (small : n < 2 ^ 32)
    (stop : startsWith (isDigit 10) rest = false) :
    scanUnsigned (s ++ rest) = some (.ofNat 32 n, rest) := by
  have whole := (toULong_toNat_iff n).mpr (by omega)
  have word : (toULong n).setWidth 32 = .ofNat 32 n := by
    apply BitVec.eq_of_toNat_eq
    rw [BitVec.toNat_setWidth, BitVec.toNat_ofNat]
    omega
  rw [scanUnsigned, number_numeral h stop, Option.map_some, word]

theorem number_decimal (n : Int) (stop : startsWith (isDigit 10) rest = false) :
    number 10 (decimal n ++ rest) = some (n, rest) := by
  have plain := numeral_numeral (b := 10) (by decide) (by decide) n.natAbs
  by_cases negative : n < 0
  · have blank : (45 :: (numeral 10 n.natAbs ++ rest)).dropWhile isSpace =
        45 :: (numeral 10 n.natAbs ++ rest) := rfl
    have signed : sign (45 :: (numeral 10 n.natAbs ++ rest)) =
        (true, numeral 10 n.natAbs ++ rest) := rfl
    have read := digits_append plain stop
    have start := digits_start plain rest
    rw [decimal, if_pos negative, List.append_assoc, List.cons_append, List.nil_append]
    simp only [number, blank, signed, if_neg (show ¬10 = 16 by decide), start, read, if_true,
      Option.some.injEq, Prod.mk.injEq, and_true]
    omega
  · rw [decimal, if_neg negative, List.nil_append, number_numeral plain stop]
    congr
    omega

end

end Ultrasight.Text
