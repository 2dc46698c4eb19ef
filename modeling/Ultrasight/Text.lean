import Mathlib.Algebra.Group.Int.Defs
import Mathlib.Algebra.Group.Nat.Defs
import Mathlib.Data.List.TakeWhile

/-!
# Text as bytes

What a C program does to text: numerals and their values, `getdelim` (a text cut
behind each delimiter), `strtol` and `sscanf`.

* A `Numeral` of a number in a base is any string of digits with that value,
  leading zeros or not; reading one gives the number and stops behind it.
* `scanf` runs a list of conversions, each with the variable it assigns; the
  first that does not match ends it.
-/

namespace Ultrasight.Text

def ascii (s : String) : List UInt8 := s.toList.map Char.toUInt8

/-- What can be read of the file at a path, up to its end or to a read that
fails; nothing if it cannot be opened. -/
abbrev Files := List UInt8 → Option (List UInt8)

/-- A C string ends before its first zero byte. -/
def cString (s : List UInt8) : List UInt8 := s.takeWhile (· != 0)

/-- `isspace`. -/
def isSpace (c : UInt8) : Bool := c == 32 || (9 ≤ c && c ≤ 13)

theorem cString_eq {s : List UInt8} (h : 0 ∉ s) : cString s = s := by
  apply List.takeWhile_eq_self_iff.mpr
  intro c hc
  have : c ≠ 0 := fun zero => h (zero ▸ hc)
  simpa using this

/-! ## Cutting a text behind each delimiter -/

/-- The results of `getdelim`, called until it fails. -/
def delimited (d : UInt8) : List UInt8 → List (List UInt8)
  | [] => []
  | c :: s =>
    if c = d then [c] :: delimited d s
    else match delimited d s with
      | [] => [[c]]
      | piece :: pieces => (c :: piece) :: pieces

section
variable {d : UInt8} {s : List UInt8}

theorem delimited_append (h : d ∉ s) (rest : List UInt8) :
    delimited d (s ++ d :: rest) = (s ++ [d]) :: delimited d rest := by
  induction s with
  | nil => simp [delimited]
  | cons c s ih =>
    have other : c ≠ d := fun same => h (same ▸ List.mem_cons_self)
    have later := ih fun hd => h (List.mem_cons_of_mem c hd)
    simp only [List.cons_append, delimited, if_neg other, later]

theorem delimited_last (h : d ∉ s) (nonempty : s ≠ []) : delimited d s = [s] := by
  induction s with
  | nil => exact absurd rfl nonempty
  | cons c s ih =>
    have other : c ≠ d := fun same => h (same ▸ List.mem_cons_self)
    cases s with
    | nil => simp [delimited, other]
    | cons c' s =>
      have later := ih (fun hd => h (List.mem_cons_of_mem c hd)) (List.cons_ne_nil c' s)
      rw [delimited, if_neg other, later]

/-- Texts with a delimiter behind each are cut into these texts. -/
theorem delimited_flatMap {texts : List (List UInt8)} (h : ∀ t ∈ texts, d ∉ t) :
    delimited d (texts.flatMap (· ++ [d])) = texts.map (· ++ [d]) := by
  induction texts with
  | nil => rfl
  | cons t texts ih =>
    have later := ih fun u hu => h u (List.mem_cons_of_mem t hu)
    rw [List.flatMap_cons, List.append_assoc, List.singleton_append,
      delimited_append (h t List.mem_cons_self), later]
    rfl

end

/-! ## Numerals -/

/-- The value of a digit or of a letter in its place. -/
def digitValue (c : UInt8) : Option Nat :=
  if 48 ≤ c && c ≤ 57 then some (c.toNat - 48)
  else if 97 ≤ c && c ≤ 122 then some (c.toNat - 87)
  else if 65 ≤ c && c ≤ 90 then some (c.toNat - 55)
  else none

def isDigit (b : Nat) (c : UInt8) : Bool := (digitValue c).any fun v => decide (v < b)

/-- The value of a string of digits. -/
def value (b : Nat) (s : List UInt8) : Nat :=
  s.foldl (fun n c => n * b + (digitValue c).getD 0) 0

/-- The digits `printf` writes, without leading zeros. -/
def numeral (b n : Nat) : List UInt8 := (b.toDigits n).map Char.toUInt8

/-- The same with leading zeros up to a width, as `%0*x` has it. -/
def padded (width b n : Nat) : List UInt8 :=
  List.replicate (width - (numeral b n).length) 48 ++ numeral b n

/-- `%d`. -/
def decimal (n : Int) : List UInt8 := (if n < 0 then [45] else []) ++ numeral 10 n.natAbs

/-- A string of digits in base `b` with value `n`. -/
structure Numeral (b n : Nat) (s : List UInt8) : Prop where
  nonempty : s ≠ []
  digits : ∀ c ∈ s, isDigit b c = true
  value : value b s = n

/-- What is no digit differs from every digit. -/
theorem digit_ne {b : Nat} {c d : UInt8} (h : isDigit b c = true) (other : isDigit b d = false) :
    c ≠ d := by
  rintro rfl
  simp [h] at other

theorem Numeral.not_mem {b n : Nat} {s : List UInt8} (h : Numeral b n s) {d : UInt8}
    (other : isDigit b d = false) : d ∉ s := fun hd => digit_ne (h.digits d hd) other rfl

theorem value_append (b : Nat) (s t : List UInt8) :
    value b (s ++ t) = t.foldl (fun n c => n * b + (digitValue c).getD 0) (value b s) :=
  List.foldl_append ..

/-- The digits of the bases that `printf` knows. -/
theorem digitChar_spec : ∀ v < 16,
    digitValue v.digitChar.toUInt8 = some v ∧ (v.digitChar.toUInt8 = 48 → v = 0) := by
  decide

section
variable {b : Nat}

theorem numeral_spec (two : 2 ≤ b) (sixteen : b ≤ 16) (n : Nat) :
    Numeral b n (numeral b n) ∧ (n ≠ 0 → (numeral b n).head? ≠ some 48) := by
  induction n using Nat.strongRecOn with
  | ind n ih =>
    rw [numeral, Nat.toDigits_eq_if two]
    by_cases small : n < b
    · have digit := digitChar_spec n (by omega)
      rw [if_pos small]
      refine ⟨⟨List.cons_ne_nil _ _, ?_, ?_⟩, ?_⟩
      · simp [isDigit, digit.1, small]
      · simp [Text.value, digit.1]
      · intro positive zero
        exact positive (digit.2 (by simpa using zero))
    · have less : n / b < n := Nat.div_lt_self (by omega) two
      have last : n % b < b := Nat.mod_lt n (by omega)
      have digit := digitChar_spec (n % b) (by omega)
      obtain ⟨before, leading⟩ := ih (n / b) less
      rw [if_neg small, List.map_append, ← numeral]
      refine ⟨⟨by simp, ?_, ?_⟩, ?_⟩
      · intro c hc
        cases List.mem_append.mp hc with
        | inl early => exact before.digits c early
        | inr late =>
          obtain rfl : c = (n % b).digitChar.toUInt8 := by simpa using late
          simp [isDigit, digit.1, last]
      · have split := Nat.div_add_mod n b
        rw [value_append, before.value]
        simp only [List.map_cons, List.map_nil, List.foldl_cons, List.foldl_nil, digit.1,
          Option.getD_some]
        rw [Nat.mul_comm]
        exact split
      · intro _
        have positive : n / b ≠ 0 := (Nat.div_pos (by omega) (by omega)).ne'
        obtain ⟨c, rest, same⟩ := List.exists_cons_of_ne_nil before.nonempty
        rw [same] at leading ⊢
        exact leading positive

theorem numeral_numeral (two : 2 ≤ b) (sixteen : b ≤ 16) (n : Nat) : Numeral b n (numeral b n) :=
  (numeral_spec two sixteen n).1

theorem padded_numeral (two : 2 ≤ b) (sixteen : b ≤ 16) (width n : Nat) :
    Numeral b n (padded width b n) := by
  have plain := numeral_numeral two sixteen n
  have zero : digitValue 48 = some 0 := by decide
  refine ⟨by simp [padded, plain.nonempty], ?_, ?_⟩
  · intro c hc
    cases List.mem_append.mp hc with
    | inl early =>
      obtain rfl := (List.mem_replicate.mp early).2
      simp [isDigit, zero]
      omega
    | inr late => exact plain.digits c late
  · have leading (k : Nat) : value b (List.replicate k 48) = 0 := by
      induction k with
      | zero => rfl
      | succ k ih =>
        rw [List.replicate_succ', value_append, ih]
        simp [zero]
    rw [padded, value_append, leading]
    exact plain.value

/-! ## Reading a numeral -/

/-- The value of the digits a text starts with, and the text behind them. -/
def digits (b : Nat) (s : List UInt8) : Nat × List UInt8 :=
  (value b (s.takeWhile (isDigit b)), s.dropWhile (isDigit b))

def startsWith (p : UInt8 → Bool) (s : List UInt8) : Bool := s.head?.any p

theorem digits_append {n : Nat} {s rest : List UInt8} (h : Numeral b n s)
    (ends : startsWith (isDigit b) rest = false) : digits b (s ++ rest) = (n, rest) := by
  have stop : rest.takeWhile (isDigit b) = [] ∧ rest.dropWhile (isDigit b) = rest := by
    cases rest with
    | nil => exact ⟨rfl, rfl⟩
    | cons c rest =>
      have other : isDigit b c = false := ends
      simp [other]
  rw [digits, List.takeWhile_append_of_pos h.digits, List.dropWhile_append_of_pos h.digits,
    stop.1, stop.2, List.append_nil, h.value]

end

/-- Whether there is a minus sign, and what stands behind the sign. -/
def sign (s : List UInt8) : Bool × List UInt8 :=
  if startsWith (· == 45) s then (true, s.tail)
  else if startsWith (· == 43) s then (false, s.tail)
  else (false, s)

/-- What stands behind a `0x`. -/
def behindMarker (s : List UInt8) : Option (List UInt8) :=
  match s with
  | zero :: x :: rest => if zero == 48 && (x == 120 || x == 88) then some rest else none
  | _ => none

def longMax : Int := 2 ^ 63 - 1
def longMin : Int := -2 ^ 63

/-- `strtol` in base 0: the text itself tells the base. A text without a number
gives 0. -/
def strtol (s : List UInt8) : Int :=
  let (negative, s) := sign (s.dropWhile isSpace)
  let n : Nat :=
    match (behindMarker s).filter (startsWith (isDigit 16)) with
    | some rest => (digits 16 rest).1
    | none => if startsWith (· == 48) s then (digits 8 s).1 else (digits 10 s).1
  max longMin (min longMax (if negative then -n else n))

/-- `%lx`: the number and the text behind it, unless there is no number. What is
too large for a word becomes the largest word. -/
def scanHex (s : List UInt8) : Option (BitVec 64 × List UInt8) :=
  let (negative, s) := sign (s.dropWhile isSpace)
  let s := (behindMarker s).elim s (48 :: ·)
  if startsWith (isDigit 16) s then
    let (n, rest) := digits 16 s
    let word : BitVec 64 := if 2 ^ 64 ≤ n then -1 else .ofNat 64 n
    some (if negative && n < 2 ^ 64 then -word else word, rest)
  else none

/-- Digits are neither blanks nor signs nor the letter of `0x`, up to base 16. -/
theorem digit_plain {c : UInt8} (h : isDigit 16 c = true) :
    isSpace c = false ∧ c ≠ 45 ∧ c ≠ 43 ∧ c ≠ 120 ∧ c ≠ 88 := by
  refine ⟨?_, digit_ne h rfl, digit_ne h rfl, digit_ne h rfl, digit_ne h rfl⟩
  simp only [isDigit, digitValue, isSpace] at h ⊢
  grind

/-- What can stand behind a number: it belongs to no number in any base. -/
def ends (s : List UInt8) : Bool := !startsWith (isDigit 36) s

section
variable {b n : Nat} {s rest : List UInt8}

theorem isDigit_mono {b' : Nat} (le : b ≤ b') {c : UInt8} (h : isDigit b c = true) :
    isDigit b' c = true := by
  simp only [isDigit, Option.any_eq_true, decide_eq_true_eq] at h ⊢
  obtain ⟨v, same, less⟩ := h
  exact ⟨v, same, by omega⟩

theorem ends_digit (le : b ≤ 36) (h : ends rest = true) : startsWith (isDigit b) rest = false := by
  cases rest with
  | nil => rfl
  | cons c rest =>
    have none : isDigit 36 c = false := by simpa [ends, startsWith] using h
    cases digit : isDigit b c with
    | true => simp [isDigit_mono le digit] at none
    | false => exact digit

theorem Numeral.mono (b' : Nat) (le : b ≤ b') (h : Numeral b n s) : Numeral b' (Text.value b' s) s :=
  ⟨h.nonempty, fun c hc => isDigit_mono le (h.digits c hc), rfl⟩

/-- A numeral has no blanks, no sign and no marker in front. -/
theorem Numeral.bare (h : Numeral 16 n s) (stop : ends rest = true) :
    (s ++ rest).dropWhile isSpace = s ++ rest ∧ sign (s ++ rest) = (false, s ++ rest) ∧
      behindMarker (s ++ rest) = none := by
  obtain ⟨c, s, rfl⟩ := List.exists_cons_of_ne_nil h.nonempty
  have first := digit_plain (h.digits c List.mem_cons_self)
  refine ⟨?_, ?_, ?_⟩
  · simp [first.1]
  · simp [sign, startsWith, first.2.1, first.2.2.1]
  · cases s with
    | cons c' s =>
      have second := digit_plain (h.digits c' (List.mem_cons_of_mem c List.mem_cons_self))
      simp [behindMarker, second.2.2.2]
    | nil =>
      cases rest with
      | nil => rfl
      | cons c' rest =>
        have other : isDigit 36 c' = false := by simpa [ends, startsWith] using stop
        have letter : c' ≠ 120 ∧ c' ≠ 88 := by
          constructor <;>
          · rintro rfl
            revert other
            decide
        simp [behindMarker, letter]

theorem scanHex_numeral {n : BitVec 64} (h : Numeral 16 n.toNat s) (stop : ends rest = true) :
    scanHex (s ++ rest) = some (n, rest) := by
  obtain ⟨blank, unsigned, unmarked⟩ := h.bare stop
  have read := digits_append h (ends_digit (by decide) stop)
  have first : startsWith (isDigit 16) (s ++ rest) = true := by
    obtain ⟨c, s, rfl⟩ := List.exists_cons_of_ne_nil h.nonempty
    exact h.digits c List.mem_cons_self
  have inside : ¬2 ^ 64 ≤ n.toNat := Nat.not_le.mpr n.isLt
  simp only [scanHex, blank, unsigned, unmarked, Option.elim_none, first, read, if_true,
    if_neg inside, Bool.false_and, Bool.false_eq_true, if_false, BitVec.ofNat_toNat,
    BitVec.setWidth_eq]

/-- A decimal numeral without leading zeros is read whole, as far as a `long`
reaches. -/
theorem strtol_numeral (n : Nat) (rest : List UInt8) (stop : ends rest = true) :
    strtol (numeral 10 n ++ rest) = min longMax n := by
  obtain ⟨numeral, leading⟩ := numeral_spec (b := 10) (by decide) (by decide) n
  obtain ⟨blank, unsigned, unmarked⟩ := (numeral.mono 16 (by decide)).bare stop
  have bound : longMin ≤ 0 ∧ 0 ≤ longMax := by decide
  have clamped : max longMin (min longMax (n : Int)) = min longMax n := by omega
  simp only [strtol, blank, unsigned, unmarked, Option.filter_none]
  by_cases zero : n = 0
  · subst zero
    have octal : Numeral 8 0 (Text.numeral 10 0) := ⟨numeral.nonempty, List.all_eq_true.mp rfl, rfl⟩
    have read := digits_append octal (ends_digit (by decide) stop)
    have first : startsWith (· == 48) (Text.numeral 10 0 ++ rest) = true := rfl
    simpa [first, read] using clamped
  · have first : startsWith (· == 48) (Text.numeral 10 n ++ rest) = false := by
      have start := leading zero
      obtain ⟨c, s, same⟩ := List.exists_cons_of_ne_nil numeral.nonempty
      rw [same] at start ⊢
      simpa [startsWith] using start
    have read := digits_append numeral (ends_digit (by decide) stop)
    simpa [first, read] using clamped

end

/-! ## Conversions -/

/-- One conversion of a `scanf` format, with the variable it assigns. -/
inductive Conversion (σ : Type) where
  | space
  | literal (c : UInt8)
  | char (assign : UInt8 → σ → σ)
  | hex (assign : BitVec 64 → σ → σ)

/-- `sscanf`: what follows a conversion that fails keeps its old value. -/
def scanf {σ : Type} : List (Conversion σ) → List UInt8 → σ → σ
  | [], _, v => v
  | .space :: format, s, v => scanf format (s.dropWhile isSpace) v
  | .literal c :: format, s, v => if s.head? = some c then scanf format s.tail v else v
  | .char assign :: format, c :: s, v => scanf format s (assign c v)
  | .char _ :: _, [], v => v
  | .hex assign :: format, s, v =>
    match scanHex s with
    | some (n, rest) => scanf format rest (assign n v)
    | none => v

section
variable {σ : Type} {format : List (Conversion σ)} {v : σ}

@[simp] theorem scanf_nil (s : List UInt8) : scanf [] s v = v := rfl

@[simp] theorem scanf_space (s : List UInt8) :
    scanf (.space :: format) s v = scanf format (s.dropWhile isSpace) v := rfl

@[simp] theorem scanf_literal (c : UInt8) (s : List UInt8) :
    scanf (.literal c :: format) (c :: s) v = scanf format s v := by
  simp [scanf]

@[simp] theorem scanf_char (assign : UInt8 → σ → σ) (c : UInt8) (s : List UInt8) :
    scanf (.char assign :: format) (c :: s) v = scanf format s (assign c v) := rfl

theorem scanf_hex {assign : BitVec 64 → σ → σ} {n : BitVec 64} {s rest : List UInt8}
    (h : Numeral 16 n.toNat s) (stop : ends rest = true) :
    scanf (.hex assign :: format) (s ++ rest) v = scanf format rest (assign n v) := by
  simp only [scanf, scanHex_numeral h stop]

end

end Ultrasight.Text
