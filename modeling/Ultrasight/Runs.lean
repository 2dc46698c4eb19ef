import Mathlib.Algebra.GroupWithZero.Nat
import Mathlib.Logic.Function.Basic

/-!
# Runs of a partial step function

A system is a step function `step : σ → α → Option σ` (`none`: the action is
not enabled) together with a filter `ok` on its steps. `Reach` collects the
states that runs passing the filter can visit, `Reach.invariant` is the only
induction over runs the development needs, and `exec` replays a list of
actions, so that a concrete run can be evaluated.
-/

namespace Ultrasight

section
variable {σ α : Type}

/-- States visited from `s₀` by runs all of whose steps pass `ok`. -/
inductive Reach (step : σ → α → Option σ) (ok : σ → α → Bool) (s₀ : σ) : σ → Prop
  | start : Reach step ok s₀ s₀
  | next {s t : σ} {a : α} : Reach step ok s₀ s → ok s a = true → step s a = some t →
      Reach step ok s₀ t

variable {step : σ → α → Option σ} {ok ok' : σ → α → Bool} {s₀ : σ}

/-- What the first state has and every admitted step keeps, every visited
state has. -/
theorem Reach.invariant {Inv : σ → Prop} (first : Inv s₀)
    (keep : ∀ s a t, Inv s → ok s a = true → step s a = some t → Inv t)
    {s : σ} (h : Reach step ok s₀ s) : Inv s := by
  induction h with
  | start => exact first
  | next _ allowed moved ih => exact keep _ _ _ ih allowed moved

/-- The same with an invariant already proved of every visited state. -/
theorem Reach.invariant_with {Known Inv : σ → Prop}
    (known : ∀ s, Reach step ok s₀ s → Known s) (first : Inv s₀)
    (keep : ∀ s a t, Known s → Inv s → ok s a = true → step s a = some t → Inv t)
    {s : σ} (h : Reach step ok s₀ s) : Inv s := by
  induction h with
  | start => exact first
  | next before allowed moved ih => exact keep _ _ _ (known _ before) ih allowed moved

/-- A stricter filter visits fewer states. -/
theorem Reach.mono (weaker : ∀ s a, ok s a = true → ok' s a = true) {s : σ}
    (h : Reach step ok s₀ s) : Reach step ok' s₀ s := by
  induction h with
  | start => exact .start
  | next _ allowed moved ih => exact .next ih (weaker _ _ allowed) moved

theorem Reach.trans {s t : σ} (h : Reach step ok s₀ s) (h' : Reach step ok s t) :
    Reach step ok s₀ t := by
  induction h' with
  | start => exact h
  | next _ allowed moved ih => exact .next ih allowed moved

/-- Replay of a list of actions; `none` when one is not enabled or not admitted. -/
def exec (step : σ → α → Option σ) (ok : σ → α → Bool) : σ → List α → Option σ
  | s, [] => some s
  | s, a :: rest => if ok s a then (step s a).bind (exec step ok · rest) else none

theorem exec_reach {actions : List α} {s : σ} (h : exec step ok s₀ actions = some s) :
    Reach step ok s₀ s := by
  induction actions generalizing s₀ with
  | nil => cases h; exact .start
  | cons a rest ih =>
    simp only [exec] at h
    split at h
    · rename_i allowed
      obtain ⟨t, moved, tail⟩ := Option.bind_eq_some_iff.mp h
      exact (Reach.next .start allowed moved).trans (ih tail)
    · cases h

/-- A replay whose last state passes a test reaches such a state. -/
theorem reach_of_exec {actions : List α} {test : σ → Bool}
    (h : (exec step ok s₀ actions).any test = true) :
    ∃ s, Reach step ok s₀ s ∧ test s = true := by
  cases hs : exec step ok s₀ actions with
  | none => simp [hs] at h
  | some s => exact ⟨s, exec_reach hs, by simpa [hs] using h⟩

/-! ## Potentials -/

/-- A potential that pays for every step bounds what a run can cost: what one
step costs and leaves is no more than what was there and what the step brings. -/
theorem exec_potential (potential : σ → Nat) (cost gain : α → Nat) {Inv : σ → Prop}
    (pays : ∀ s a t, Inv s → ok s a = true → step s a = some t →
      Inv t ∧ potential t + cost a ≤ potential s + gain a)
    {actions : List α} {s t : σ} (inv : Inv s) (run : exec step ok s actions = some t) :
    Inv t ∧ potential t + (actions.map cost).sum ≤ potential s + (actions.map gain).sum := by
  induction actions generalizing s with
  | nil =>
    cases run
    exact ⟨inv, Nat.le_refl _⟩
  | cons a rest ih =>
    simp only [exec] at run
    split at run
    · rename_i allowed
      obtain ⟨u, moved, tail⟩ := Option.bind_eq_some_iff.mp run
      obtain ⟨next, paid⟩ := pays s a u inv allowed moved
      obtain ⟨last, rest⟩ := ih next tail
      refine ⟨last, ?_⟩
      simp only [List.map_cons, List.sum_cons]
      omega
    · cases run

end

end Ultrasight
