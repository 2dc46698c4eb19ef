import Mathlib.Logic.Function.Basic

/-!
# Chunks stored at aligned offsets

`layout a pad chunks` is the content of a store to which the chunks were
appended one after the other, each at the least multiple of `a` that is not
below the end of the content before it, with `pad` in the gaps. `OccursInOrder`
says that chunks can be found in a content one after the other without
overlap.
-/

namespace Ultrasight.Chunks

/-- The least multiple of `a` not below `n`. -/
def roundUp (n a : Nat) : Nat := (n + (a - 1)) / a * a

theorem le_roundUp (n : Nat) {a : Nat} (h : 0 < a) : n ≤ roundUp n a := by
  have divided := Nat.div_add_mod (n + (a - 1)) a
  have small := Nat.mod_lt (n + (a - 1)) h
  rw [Nat.mul_comm] at divided
  simp only [roundUp]
  omega

theorem roundUp_least {n a m : Nat} (h : 0 < a) (le : n ≤ m) (dvd : a ∣ m) : roundUp n a ≤ m := by
  obtain ⟨k, rfl⟩ := dvd
  have below : (n + (a - 1)) / a < k + 1 := by
    apply Nat.div_lt_of_lt_mul
    rw [Nat.mul_add]
    omega
  rw [roundUp, Nat.mul_comm a k]
  exact Nat.mul_le_mul_right a (Nat.le_of_lt_succ below)

theorem roundUp_of_dvd {n a : Nat} (h : 0 < a) (dvd : a ∣ n) : roundUp n a = n :=
  Nat.le_antisymm (roundUp_least h (Nat.le_refl n) dvd) (le_roundUp n h)

section
variable {α : Type}

/-- `content` filled up with `pad` to the next multiple of `a`. -/
def padTo (a : Nat) (pad : α) (content : List α) : List α :=
  content ++ List.replicate (roundUp content.length a - content.length) pad

/-- The content after appending every chunk at the next multiple of `a`. -/
def layout (a : Nat) (pad : α) (chunks : List (List α)) : List α :=
  chunks.foldl (fun content chunk => padTo a pad content ++ chunk) []

theorem padTo_length {a : Nat} (h : 0 < a) (pad : α) (content : List α) :
    (padTo a pad content).length = roundUp content.length a := by
  have := le_roundUp content.length h
  simp only [padTo, List.length_append, List.length_replicate]
  omega

theorem padTo_of_dvd {a : Nat} (h : 0 < a) (pad : α) {content : List α}
    (dvd : a ∣ content.length) : padTo a pad content = content := by
  simp [padTo, roundUp_of_dvd h dvd]

theorem padTo_padTo {a : Nat} (h : 0 < a) (pad : α) (content : List α) :
    padTo a pad (padTo a pad content) = padTo a pad content := by
  apply padTo_of_dvd h
  rw [padTo_length h]
  exact Nat.dvd_mul_left a _

@[simp] theorem layout_nil (a : Nat) (pad : α) : layout a pad [] = [] := rfl

theorem layout_snoc (a : Nat) (pad : α) (chunks : List (List α)) (chunk : List α) :
    layout a pad (chunks ++ [chunk]) = padTo a pad (layout a pad chunks) ++ chunk := by
  simp [layout, List.foldl_append]

/-- Chunks of one length stand in slots of that length. -/
theorem flatten_slot {n : Nat} {chunks : List (List α)} (same : ∀ c ∈ chunks, c.length = n)
    {k : Nat} {chunk : List α} (h : chunks[k]? = some chunk) :
    (chunks.flatten.drop (n * k)).take n = chunk := by
  induction chunks generalizing k with
  | nil => cases h
  | cons c cs ih =>
    have length := same c List.mem_cons_self
    cases k with
    | zero =>
      obtain rfl : c = chunk := by simpa using h
      simp [← length]
    | succ k =>
      have later := ih (fun d hd => same d (List.mem_cons_of_mem c hd)) (by simpa using h)
      rw [List.flatten_cons, Nat.mul_succ, Nat.add_comm, ← List.drop_drop, ← length,
        List.drop_left, length]
      exact later

/-! ## Occurrence in order -/

/-- The chunks occur in the content one after the other, without overlap. -/
def OccursInOrder : List (List α) → List α → Prop
  | [], _ => True
  | chunk :: chunks, content =>
    ∃ gap rest, content = gap ++ chunk ++ rest ∧ OccursInOrder chunks rest

theorem occurs_append {chunks more : List (List α)} {content tail : List α}
    (h : OccursInOrder chunks content) (ht : OccursInOrder more tail) :
    OccursInOrder (chunks ++ more) (content ++ tail) := by
  induction chunks generalizing content with
  | nil =>
    cases more with
    | nil => trivial
    | cons c cs =>
      obtain ⟨gap, rest, rfl, later⟩ := ht
      exact ⟨content ++ gap, rest, by simp, later⟩
  | cons c cs ih =>
    obtain ⟨gap, rest, rfl, later⟩ := h
    exact ⟨gap, rest ++ tail, by simp, ih later⟩

theorem occurs_empty {chunks : List (List α)} (h : ∀ c ∈ chunks, c = []) (content : List α) :
    OccursInOrder chunks content := by
  induction chunks with
  | nil => trivial
  | cons c cs ih =>
    refine ⟨[], content, ?_, ih fun d hd => h d (List.mem_cons_of_mem c hd)⟩
    simp [h c List.mem_cons_self]

end

end Ultrasight.Chunks
