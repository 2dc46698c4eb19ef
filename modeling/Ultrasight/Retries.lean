import Ultrasight.Functions

/-!
# Retries

`retry` makes an attempt until one does not return a negative number or all
trials are used up; after each attempt that fails, the state is reset.

* `Tries` are attempts made one after the other, each in the state that the
  reset behind the one before leaves;
* `Retried` says which attempts a loop makes, and how it ends;
* `ensures_retry`: every loop that ends is one of these.
-/

namespace Ultrasight.Fn

variable {σ : Type}

/-- An attempt that was made: where it began, what it returned, where it ended. -/
structure Try (σ : Type) where
  before : σ
  rc : Int
  after : σ

/-- `ret` is the variable that holds the last result. -/
def retry (attempt : Fn σ Int) (reset : σ → σ) : Nat → Int → Fn σ Int
  | 0, ret => pure ret
  | trials + 1, _ => do
    let ret ← attempt
    if 0 ≤ ret then pure ret
    else do
      modify reset
      retry attempt reset trials ret

section
variable (attempt : Fn σ Int) (reset : σ → σ)

inductive Tries : σ → List (Try σ) → Prop
  | one {s s' : σ} {rc : Int} : attempt s = .ok rc s' → Tries s [⟨s, rc, s'⟩]
  | more {s s' : σ} {rc : Int} {tries : List (Try σ)} : attempt s = .ok rc s' →
      Tries (reset s') tries → Tries s (⟨s, rc, s'⟩ :: tries)

/-- All attempts but the last fail. The loop ends behind the last one if it
succeeds, and after a reset if it is one too many. -/
structure Retried (trials : Nat) (s : σ) (tries : List (Try σ)) (rc : Int) (s' : σ) : Prop where
  made : Tries attempt reset s tries
  few : tries.length ≤ trials
  failed : ∀ t ∈ tries.dropLast, t.rc < 0
  last : ∃ t, tries.getLast? = some t ∧ t.rc = rc ∧
    (0 ≤ rc ∧ s' = t.after ∨ rc < 0 ∧ tries.length = trials ∧ s' = reset t.after)

end

section
variable {attempt : Fn σ Int} {reset : σ → σ} {trials : Nat} {s s' : σ} {tries : List (Try σ)}
  {rc : Int} {P : σ → Prop}

theorem Tries.ne_nil (h : Tries attempt reset s tries) : tries ≠ [] := by
  cases h <;> exact List.cons_ne_nil _ _

theorem Tries.each (h : Tries attempt reset s tries) :
    ∀ t ∈ tries, attempt t.before = .ok t.rc t.after := by
  induction h with
  | one made =>
    intro t ht
    obtain rfl := List.mem_singleton.mp ht
    exact made
  | more made _ ih =>
    intro t ht
    rcases List.mem_cons.mp ht with rfl | later
    · exact made
    · exact ih t later

/-- A loop that begins with a failure goes on after a reset. -/
theorem Retried.cons {first : Int} {s₁ : σ} (made : attempt s = .ok first s₁) (failed : first < 0)
    (h : Retried attempt reset trials (reset s₁) tries rc s') :
    Retried attempt reset (trials + 1) s (⟨s, first, s₁⟩ :: tries) rc s' := by
  obtain ⟨t, final, result, ends⟩ := h.last
  have nonempty := h.made.ne_nil
  constructor
  · exact .more made h.made
  · exact Nat.succ_le_succ h.few
  · intro u hu
    rw [List.dropLast_cons_of_ne_nil nonempty] at hu
    rcases List.mem_cons.mp hu with rfl | later
    · exact failed
    · exact h.failed u later
  · refine ⟨t, ?_, result, ?_⟩
    · rw [List.getLast?_cons, final]
      rfl
    · rcases ends with success | ⟨negative, all, state⟩
      · exact .inl success
      · exact .inr ⟨negative, by rw [List.length_cons, all], state⟩

/-- A loop whose only attempt succeeds, or is the last one allowed. -/
theorem retried_one {s₁ : σ} (made : attempt s = .ok rc s₁)
    (ends : 0 ≤ rc ∧ s' = s₁ ∨ rc < 0 ∧ trials = 0 ∧ s' = reset s₁) :
    Retried attempt reset (trials + 1) s [⟨s, rc, s₁⟩] rc s' := by
  constructor
  · exact .one made
  · exact Nat.le_add_left 1 trials
  · intro t none
    cases none
  · refine ⟨_, rfl, rfl, ?_⟩
    rcases ends with success | ⟨negative, rfl, state⟩
    · exact .inl success
    · exact .inr ⟨negative, rfl, state⟩

/-- What a loop does that is left only if an attempt does not return. -/
theorem ensures_retry {E : Exit → σ → Prop} (stops : ∀ s, Ensures attempt (fun _ _ => True) E s)
    (trials : Nat) (ret : Int) (s : σ) :
    Ensures (retry attempt reset (trials + 1) ret)
      (fun rc s' => ∃ tries, Retried attempt reset (trials + 1) s tries rc s') E s := by
  induction trials generalizing ret s with
  | zero =>
    rw [retry, ensures_bind]
    cases made : attempt s with
    | error x s₁ => exact (ensures_of_error made).mpr ((ensures_of_error made).mp (stops s))
    | ok first s₁ =>
      apply (ensures_of_ok made).mpr
      split
      · rename_i succeeds
        exact (ensures_pure _).mpr ⟨_, retried_one made (.inl ⟨succeeds, rfl⟩)⟩
      · rename_i fails
        simp only [retry, ensures_bind, ensures_modify, ensures_pure]
        exact ⟨_, retried_one made (.inr ⟨by omega, rfl, rfl⟩)⟩
  | succ trials ih =>
    rw [retry, ensures_bind]
    cases made : attempt s with
    | error x s₁ => exact (ensures_of_error made).mpr ((ensures_of_error made).mp (stops s))
    | ok first s₁ =>
      apply (ensures_of_ok made).mpr
      split
      · rename_i succeeds
        exact (ensures_pure _).mpr ⟨_, retried_one made (.inl ⟨succeeds, rfl⟩)⟩
      · rename_i fails
        simp only [ensures_bind, ensures_modify]
        apply (ih first (reset s₁)).mono _ (fun _ _ left => left)
        rintro rc s' ⟨tries, rest⟩
        exact ⟨_, rest.cons made (by omega)⟩

/-- The loop succeeds exactly if an attempt does. -/
theorem Retried.success_iff (h : Retried attempt reset trials s tries rc s') :
    0 ≤ rc ↔ ∃ t ∈ tries, 0 ≤ t.rc := by
  obtain ⟨t, final, rfl, _⟩ := h.last
  constructor
  · exact fun success => ⟨t, List.mem_of_getLast? final, success⟩
  · rintro ⟨u, hu, success⟩
    rw [← List.dropLast_concat_getLast h.made.ne_nil, List.mem_append, List.mem_singleton] at hu
    rcases hu with early | rfl
    · have := h.failed u early
      omega
    · rw [List.getLast?_eq_some_getLast h.made.ne_nil, Option.some.injEq] at final
      exact final ▸ success

/-- What success and a reset lead to holds at the end. -/
theorem Retried.ends (h : Retried attempt reset trials s tries rc s')
    (success : ∀ s rc s', attempt s = .ok rc s' → 0 ≤ rc → P s') (again : ∀ s, P (reset s)) :
    P s' := by
  obtain ⟨t, final, rfl, ⟨succeeds, rfl⟩ | ⟨_, _, rfl⟩⟩ := h.last
  · exact success _ _ _ (h.made.each t (List.mem_of_getLast? final)) succeeds
  · exact again _

/-- If attempts succeed after a reset, the second one is the last. -/
theorem Retried.second (h : Retried attempt reset trials s tries rc s') (two : 2 ≤ trials)
    (again : ∀ s, P (reset s)) (succeeds : ∀ t ∈ tries.take 2, P t.before → 0 ≤ t.rc) : 0 ≤ rc := by
  obtain ⟨t, final, rfl, ends⟩ := h.last
  cases h.made with
  | one made =>
    rcases ends with ⟨success, _⟩ | ⟨_, all, _⟩
    · exact success
    · simp only [List.length_singleton] at all
      omega
  | more made rest =>
    cases rest with
    | one made' =>
      obtain rfl : _ = t := Option.some.inj final
      exact succeeds _ (List.mem_cons_of_mem _ List.mem_cons_self) (again _)
    | more made' rest' =>
      have success := succeeds _ (List.mem_cons_of_mem _ List.mem_cons_self) (again _)
      have failure := h.failed _ (by
        rw [List.dropLast_cons_of_ne_nil (List.cons_ne_nil _ _),
          List.dropLast_cons_of_ne_nil rest'.ne_nil]
        exact List.mem_cons_of_mem _ List.mem_cons_self)
      exact absurd success (by omega)

end

end Ultrasight.Fn
