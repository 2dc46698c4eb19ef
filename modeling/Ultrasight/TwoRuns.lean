import Ultrasight.Functions

/-!
# Two runs side by side

`Alike R x y`: from states related by `R`, the bodies `x` and `y` end the same
way, with the same value and in related states; `Agree R x y` leaves out the runs
in which one of them dies. Both are closed under all ways to build a body.
-/

namespace Ultrasight.Fn

variable {σ τ σ' τ' α β : Type}

/-- Both runs ended the same way, in related states. -/
inductive Matched (R : σ → τ → Prop) : EStateM.Result Exit σ α → EStateM.Result Exit τ α → Prop
  | ok {a : α} {s : σ} {t : τ} (h : R s t) : Matched R (.ok a s) (.ok a t)
  | error {x : Exit} {s : σ} {t : τ} (h : R s t) : Matched R (.error x s) (.error x t)

def Alike (R : σ → τ → Prop) (x : Fn σ α) (y : Fn τ α) : Prop :=
  ∀ s t, R s t → Matched R (x s) (y t)

variable {R : σ → τ → Prop}

theorem Alike.bind {x : Fn σ α} {y : Fn τ α} {f : α → Fn σ β} {g : α → Fn τ β} (h : Alike R x y)
    (rest : ∀ a, Alike R (f a) (g a)) : Alike R (x >>= f) (y >>= g) := by
  intro s t related
  have first := h s t related
  simp only [Bind.bind, EStateM.bind]
  generalize x s = p at first
  generalize y t = q at first
  cases first with
  | ok related => exact rest _ _ _ related
  | error related => exact .error related

theorem Alike.enclose {x : Fn σ Int} {y : Fn τ Int} (h : Alike R x y) :
    Alike R (enclose x) (enclose y) := by
  intro s t related
  have body := h s t related
  simp only [Fn.enclose]
  generalize x s = p at body
  generalize y t = q at body
  cases body with
  | ok related => exact .ok related
  | @error e _ _ related =>
    cases e with
    | ret rc => exact .ok related
    | crash => exact .error related

theorem alike_pure (a : α) : Alike R (pure a) (pure a) := fun _ _ related => .ok related

theorem alike_ret (rc : Int) : Alike R (ret rc : Fn σ α) (ret rc) := fun _ _ related => .error related

theorem alike_crash : Alike R (crash : Fn σ α) crash := fun _ _ related => .error related

theorem alike_modify {f : σ → σ} {g : τ → τ} (h : ∀ s t, R s t → R (f s) (g t)) :
    Alike R (modify f : Fn σ _) (modify g) := fun s t related => .ok (h s t related)

theorem alike_closed : Closed fun {α} (x : Fn σ α) (y : Fn τ α) => Alike R x y where
  pure := alike_pure
  ret := alike_ret
  bind := Alike.bind
  enclose := Alike.enclose

theorem alike_assert (c : Bool) : Alike R (assert c) (assert c) := by
  cases c
  · exact alike_crash
  · exact alike_pure ()

/-- Both runs look at their state, and go on alike from what they see. -/
theorem alike_get {f : σ → Fn σ β} {g : τ → Fn τ β} (h : ∀ s t, R s t → Alike R (f s) (g t)) :
    Alike R (get >>= f) (get >>= g) := fun s t related => h s t related s t related

/-- Bodies on parts of the states; `R` relates the wholes if it relates the
parts, whatever these become. -/
theorem Alike.zoom {S : σ' → τ' → Prop} {part : σ → σ'} {put : σ' → σ → σ} {part' : τ → τ'}
    {put' : τ' → τ → τ} {x : Fn σ' α} {y : Fn τ' α} (h : Alike S x y)
    (parts : ∀ s t, R s t → S (part s) (part' t))
    (wholes : ∀ s t, R s t → ∀ p q, S p q → R (put p s) (put' q t)) :
    Alike R (zoom part put x) (zoom part' put' y) := by
  intro s t related
  have body := h _ _ (parts s t related)
  simp only [Fn.zoom]
  generalize x (part s) = p at body
  generalize y (part' t) = q at body
  cases body with
  | ok kept => exact .ok (wholes s t related _ _ kept)
  | error kept => exact .error (wholes s t related _ _ kept)

/-! ## Unless one of them dies -/

def Agree (R : σ → τ → Prop) (x : Fn σ α) (y : Fn τ α) : Prop :=
  ∀ s t, R s t → Matched R (x s) (y t) ∨ Died (x s) ∨ Died (y t)

theorem Alike.agree {x : Fn σ α} {y : Fn τ α} (h : Alike R x y) : Agree R x y :=
  fun s t related => .inl (h s t related)

theorem Agree.bind {x : Fn σ α} {y : Fn τ α} {f : α → Fn σ β} {g : α → Fn τ β} (h : Agree R x y)
    (rest : ∀ a, Agree R (f a) (g a)) : Agree R (x >>= f) (y >>= g) := by
  intro s t related
  rcases h s t related with first | died | died
  · simp only [Bind.bind, EStateM.bind]
    generalize x s = p at first
    generalize y t = q at first
    cases first with
    | ok related => exact rest _ _ _ related
    | error related => exact .inl (.error related)
  · exact .inr (.inl (died_bind died))
  · exact .inr (.inr (died_bind died))

theorem Agree.enclose {x : Fn σ Int} {y : Fn τ Int} (h : Agree R x y) :
    Agree R (enclose x) (enclose y) := by
  intro s t related
  rcases h s t related with body | died | died
  · simp only [Fn.enclose]
    generalize x s = p at body
    generalize y t = q at body
    cases body with
    | ok related => exact .inl (.ok related)
    | @error e _ _ related =>
      cases e with
      | ret rc => exact .inl (.ok related)
      | crash => exact .inl (.error related)
  · exact .inr (.inl (died_enclose died))
  · exact .inr (.inr (died_enclose died))

theorem agree_closed : Closed fun {α} (x : Fn σ α) (y : Fn τ α) => Agree R x y where
  pure := fun a => (alike_pure a).agree
  ret := fun rc => (alike_ret rc).agree
  bind := Agree.bind
  enclose := Agree.enclose

/-- Both runs look at their state, and agree from what they see on. -/
theorem agree_get {f : σ → Fn σ β} {g : τ → Fn τ β} (h : ∀ s t, R s t → Agree R (f s) (g t)) :
    Agree R (get >>= f) (get >>= g) := fun s t related => h s t related s t related

/-- What one run may do and the other not, if they do not survive it. -/
theorem agree_dying {x : Fn σ Unit} {y : Fn τ Unit} (c c' : Bool)
    (left : ∀ s t, R s t → Died (x s)) (right : ∀ s t, R s t → Died (y t)) :
    Agree R (Fn.when c x) (Fn.when c' y) := by
  intro s t related
  cases c with
  | true => exact .inr (.inl (left s t related))
  | false =>
    cases c' with
    | true => exact .inr (.inr (right s t related))
    | false => exact .inl (.ok related)

end Ultrasight.Fn
