import Ultrasight.Text

/-!
# Lines in a buffer

`fgets` reads a line, or as much of it as the buffer holds. If only the newline
is left out, it is the next chunk.

* `fgetsAll` is every result until it fails;
* `fgetsAll_broken`: these are the lines, but for newlines of their own.
-/

namespace Ultrasight.Text

/-- The results of `fgets` with a buffer of `n` bytes, called until it fails, when
`room` more bytes are read into the first of them. -/
def fgetsFrom (n : Nat) : Nat → List UInt8 → List (List UInt8)
  | _, [] => []
  | room, c :: s =>
    if c = 10 ∨ room ≤ 1 then [c] :: fgetsFrom n (n - 1) s
    else match fgetsFrom n (room - 1) s with
      | [] => [[c]]
      | piece :: pieces => (c :: piece) :: pieces

/-- The last byte of the buffer is for the zero at the end. -/
def fgetsAll (n : Nat) (s : List UInt8) : List (List UInt8) := fgetsFrom n (n - 1) s

/-- Chunks of a text and its lines: a chunk may end before the newline. -/
inductive Broken : List (List UInt8) → List (List UInt8) → Prop
  | nil : Broken [] []
  | whole {line : List UInt8} {chunks lines : List (List UInt8)} : Broken chunks lines →
      Broken (line :: chunks) (line :: lines)
  | cut {t : List UInt8} {chunks lines : List (List UInt8)} : 10 ∉ t → Broken chunks lines →
      Broken (t :: [10] :: chunks) ((t ++ [10]) :: lines)

variable {n room : Nat} {t s rest : List UInt8}

/-- Every text is one line without a newline, or a line and a text. -/
theorem lines_induction {P : List UInt8 → Prop} (last : ∀ t, 10 ∉ t → P t)
    (line : ∀ t rest, 10 ∉ t → P rest → P (t ++ 10 :: rest)) (s : List UInt8) : P s := by
  induction length : s.length using Nat.strongRecOn generalizing s with
  | ind k ih =>
    by_cases newline : 10 ∈ s
    · obtain ⟨t, rest, rfl, plain⟩ := List.eq_append_cons_of_mem newline
      rw [List.length_append, List.length_cons] at length
      exact line t rest plain (ih rest.length (by omega) rest rfl)
    · exact last s newline

theorem fgetsFrom_line (plain : 10 ∉ t) (fits : t.length < room) :
    fgetsFrom n room (t ++ 10 :: rest) = (t ++ [10]) :: fgetsFrom n (n - 1) rest := by
  induction t generalizing room with
  | nil => simp [fgetsFrom]
  | cons c t ih =>
    have other : c ≠ 10 := fun same => plain (same ▸ List.mem_cons_self)
    rw [List.length_cons] at fits
    have later := @ih (room - 1) (fun h => plain (List.mem_cons_of_mem c h)) (by omega)
    have inside : ¬ (c = 10 ∨ room ≤ 1) := by
      rintro (same | full)
      · exact other same
      · omega
    rw [List.cons_append, fgetsFrom, if_neg inside, later]
    rfl

theorem fgetsFrom_full (plain : 10 ∉ t) (nonempty : t ≠ []) (full : t.length = room) :
    fgetsFrom n room (t ++ rest) = t :: fgetsFrom n (n - 1) rest := by
  induction t generalizing room with
  | nil => exact absurd rfl nonempty
  | cons c t ih =>
    have other : c ≠ 10 := fun same => plain (same ▸ List.mem_cons_self)
    subst full
    cases t with
    | nil => simp [fgetsFrom]
    | cons c' t =>
      have later := @ih (c' :: t).length (fun h => plain (List.mem_cons_of_mem c h))
        (List.cons_ne_nil c' t) rfl
      have inside : ¬ (c = 10 ∨ (c :: c' :: t).length ≤ 1) := by simp [other]
      have left : (c :: c' :: t).length - 1 = (c' :: t).length := rfl
      rw [List.cons_append, fgetsFrom, if_neg inside, left, later]

theorem fgetsFrom_last (plain : 10 ∉ t) (nonempty : t ≠ []) (fits : t.length ≤ room) :
    fgetsFrom n room t = [t] := by
  induction t generalizing room with
  | nil => exact absurd rfl nonempty
  | cons c t ih =>
    have other : c ≠ 10 := fun same => plain (same ▸ List.mem_cons_self)
    cases t with
    | nil => simp [fgetsFrom]
    | cons c' t =>
      rw [List.length_cons, List.length_cons] at fits
      have later := @ih (room - 1) (fun h => plain (List.mem_cons_of_mem c h))
        (List.cons_ne_nil c' t) (by rw [List.length_cons]; omega)
      have inside : ¬ (c = 10 ∨ room ≤ 1) := by
        rintro (same | full)
        · exact other same
        · omega
      rw [fgetsFrom, if_neg inside, later]

/-- The chunks of a text whose lines fit in the buffer but for the newline. -/
theorem fgetsAll_broken
    (short : ∀ line ∈ delimited 10 s, (line.takeWhile (· != 10)).length < n) :
    Broken (fgetsAll n s) (delimited 10 s) := by
  have bare {t : List UInt8} (plain : 10 ∉ t) : t.takeWhile (· != 10) = t := by
    apply List.takeWhile_eq_self_iff.mpr
    intro c hc
    have : c ≠ 10 := fun same => plain (same ▸ hc)
    simpa using this
  induction s using lines_induction with
  | last t plain =>
    by_cases nonempty : t = []
    · subst nonempty
      exact .nil
    · have fits := short t (by rw [delimited_last plain nonempty]; exact List.mem_singleton_self t)
      rw [bare plain] at fits
      rw [delimited_last plain nonempty, fgetsAll, fgetsFrom_last plain nonempty (by omega)]
      exact .whole .nil
  | line t rest plain ih =>
    rw [delimited_append plain] at short ⊢
    have rest_broken := ih fun line hl => short line (List.mem_cons_of_mem _ hl)
    have fits := short _ List.mem_cons_self
    rw [List.takeWhile_append, bare plain, if_pos rfl] at fits
    replace fits : t.length < n := by simpa using fits
    by_cases room : t.length < n - 1
    · rw [fgetsAll, fgetsFrom_line plain room]
      exact .whole rest_broken
    · cases t with
      | nil =>
        have first : fgetsAll n ([] ++ 10 :: rest) = [10] :: fgetsAll n rest := by
          simp [fgetsAll, fgetsFrom]
        rw [first]
        exact .whole rest_broken
      | cons c t =>
        have newline : fgetsFrom n (n - 1) (10 :: rest) = [10] :: fgetsAll n rest := by
          simp [fgetsAll, fgetsFrom]
        rw [fgetsAll, fgetsFrom_full plain (List.cons_ne_nil c t) (by omega), newline]
        exact .cut plain rest_broken

end Ultrasight.Text
