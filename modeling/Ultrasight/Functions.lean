import Mathlib.Logic.Function.Basic

/-!
# C functions on a state

`Fn σ α` is the body of a C function: it changes a state and ends at its end,
by an early `return`, or with the death of the process. `enclose` is the call
of such a body, `require` a check with an early return, `each` a loop over a
list, `zoom` a body that works on a part of the state.

* `Ensures x Q E s`: run from `s`, `x` ends at its end as `Q` says or earlier
  as `E` says.
* `Leads P Q x`: from a state with `P`, `x` leads to one with `Q`, however it
  ends; `Keeps Inv x` is the case of an invariant.

They have one rule for each way to build a body.
-/

namespace Ultrasight

/-- How a body ends before its end. -/
inductive Exit where
  | ret (rc : Int)
  | crash
  deriving DecidableEq

abbrev Fn (σ α : Type) := EStateM Exit σ α

namespace Fn

variable {σ τ α β : Type}

def ret (rc : Int) : Fn σ α := throw (.ret rc)

/-- A failed assertion, or an access to memory that is not there. -/
def crash : Fn σ α := throw .crash

/-- Go on if `c`, else return `rc`. -/
def require (c : Bool) (rc : Int) : Fn σ Unit := if c then pure () else ret rc

def assert (c : Bool) : Fn σ Unit := if c then pure () else crash

/-- The value of a call that may fail. -/
def given (x : Option α) (rc : Int) : Fn σ α :=
  match x with
  | some a => pure a
  | none => ret rc

def when (c : Bool) (x : Fn σ Unit) : Fn σ Unit := if c then x else pure ()

/-- The call of a function: what it returns, early or not. -/
def enclose (x : Fn σ Int) : Fn σ Int := fun s =>
  match x s with
  | .ok rc s' | .error (.ret rc) s' => .ok rc s'
  | .error .crash s' => .error .crash s'

/-- A loop over a list. -/
def each : List α → (α → Fn σ Unit) → Fn σ Unit
  | [], _ => pure ()
  | a :: rest, body => do
    body a
    each rest body

def zoom (part : τ → σ) (put : σ → τ → τ) (x : Fn σ α) : Fn τ α := fun t =>
  match x (part t) with
  | .ok a s => .ok a (put s t)
  | .error e s => .error e (put s t)

/-! ## Runs of a body -/

theorem get_run (s : σ) : (get : Fn σ σ) s = .ok s s := rfl

theorem modify_run (f : σ → σ) (s : σ) : (modify f : Fn σ Unit) s = .ok () (f s) := rfl

theorem bind_ok {x : Fn σ α} {f : α → Fn σ β} {a : α} {s s' : σ} (h : x s = .ok a s') :
    (x >>= f) s = f a s' := by
  simp only [Bind.bind, EStateM.bind, h]

theorem enclose_bind {x : Fn σ α} {f : α → Fn σ Int} {a : α} {s s' : σ} (h : x s = .ok a s') :
    enclose (x >>= f) s = enclose (f a) s' := by
  simp only [enclose, bind_ok h]

/-! ## Postconditions -/

/-- Run from `s`, `x` ends at its end as `Q` says or earlier as `E` says. It is
irreducible so that no unification runs a program. -/
@[irreducible] def Ensures (x : Fn σ α) (Q : α → σ → Prop) (E : Exit → σ → Prop) (s : σ) : Prop :=
  match x s with
  | .ok a s' => Q a s'
  | .error e s' => E e s'

section
variable {Q Q' : α → σ → Prop} {E E' : Exit → σ → Prop} {s : σ}

@[simp] theorem ensures_pure (a : α) : Ensures (pure a) Q E s ↔ Q a s := by
  simp only [Ensures]
  exact Iff.rfl

@[simp] theorem ensures_ret (rc : Int) : Ensures (ret rc) Q E s ↔ E (.ret rc) s := by
  simp only [Ensures]
  exact Iff.rfl

@[simp] theorem ensures_crash : Ensures crash Q E s ↔ E .crash s := by
  simp only [Ensures]
  exact Iff.rfl

@[simp] theorem ensures_get {Q : σ → σ → Prop} : Ensures get Q E s ↔ Q s s := by
  simp only [Ensures]
  exact Iff.rfl

@[simp] theorem ensures_modify {Q : Unit → σ → Prop} (f : σ → σ) :
    Ensures (modify f) Q E s ↔ Q () (f s) := by
  simp only [Ensures]
  exact Iff.rfl

@[simp] theorem ensures_bind (x : Fn σ α) (f : α → Fn σ β) {Q : β → σ → Prop} :
    Ensures (x >>= f) Q E s ↔ Ensures x (fun a s' => Ensures (f a) Q E s') E s := by
  simp only [Ensures, bind, EStateM.bind]
  cases x s <;> exact Iff.rfl

@[simp] theorem ensures_require {Q : Unit → σ → Prop} (c : Bool) (rc : Int) :
    Ensures (require c rc) Q E s ↔ (c = true → Q () s) ∧ (c = false → E (.ret rc) s) := by
  cases c <;> simp [require]

@[simp] theorem ensures_assert {Q : Unit → σ → Prop} (c : Bool) :
    Ensures (assert c) Q E s ↔ (c = true → Q () s) ∧ (c = false → E .crash s) := by
  cases c <;> simp [assert]

@[simp] theorem ensures_given (x : Option α) (rc : Int) :
    Ensures (given x rc) Q E s ↔ (∀ a, x = some a → Q a s) ∧ (x = none → E (.ret rc) s) := by
  cases x <;> simp [given]

@[simp] theorem ensures_when {Q : Unit → σ → Prop} (c : Bool) (x : Fn σ Unit) :
    Ensures (when c x) Q E s ↔ (c = true → Ensures x Q E s) ∧ (c = false → Q () s) := by
  cases c <;> simp [when]

@[simp] theorem ensures_enclose {Q : Int → σ → Prop} (x : Fn σ Int) :
    Ensures (enclose x) Q E s ↔
      Ensures x Q (fun e s' => match e with
        | .ret rc => Q rc s'
        | .crash => E .crash s') s := by
  simp only [Ensures, enclose]
  rcases x s with ⟨rc, s'⟩ | ⟨_ | _, s'⟩ <;> exact Iff.rfl

@[simp] theorem ensures_zoom {part : τ → σ} {put : σ → τ → τ} (x : Fn σ α)
    {Q : α → τ → Prop} {E : Exit → τ → Prop} {t : τ} :
    Ensures (zoom part put x) Q E t ↔
      Ensures x (fun a s' => Q a (put s' t)) (fun e s' => E e (put s' t)) (part t) := by
  simp only [Ensures, zoom]
  cases x (part t) <;> exact Iff.rfl

theorem ensures_of_ok {x : Fn σ α} {a : α} {s' : σ} (h : x s = .ok a s') :
    Ensures x Q E s ↔ Q a s' := by
  simp only [Ensures, h]

theorem ensures_of_error {x : Fn σ α} {e : Exit} {s' : σ} (h : x s = .error e s') :
    Ensures x Q E s ↔ E e s' := by
  simp only [Ensures, h]

instance {Q : α → σ → Prop} {E : Exit → σ → Prop} [∀ a s, Decidable (Q a s)]
    [∀ e s, Decidable (E e s)] (x : Fn σ α) (s : σ) : Decidable (Ensures x Q E s) :=
  match h : x s with
  | .ok a s' => decidable_of_iff (Q a s') (ensures_of_ok h).symm
  | .error e s' => decidable_of_iff (E e s') (ensures_of_error h).symm

/-- A call returns a value, or the process dies in it. -/
theorem enclose_cases (x : Fn σ Int) (s : σ) :
    (∃ rc s', enclose x s = .ok rc s') ∨ ∃ s', enclose x s = .error .crash s' := by
  simp only [enclose]
  rcases x s with ⟨rc, s'⟩ | ⟨rc | _, s'⟩
  · exact .inl ⟨rc, s', rfl⟩
  · exact .inl ⟨rc, s', rfl⟩
  · exact .inr ⟨s', rfl⟩

theorem Ensures.mono {x : Fn σ α} (h : Ensures x Q E s) (hQ : ∀ a s', Q a s' → Q' a s')
    (hE : ∀ e s', E e s' → E' e s') : Ensures x Q' E' s := by
  simp only [Ensures] at h ⊢
  cases hx : x s with
  | ok a s' => rw [hx] at h; exact hQ a s' h
  | error e s' => rw [hx] at h; exact hE e s' h

/-- A function ends as its body does, early or not, or it dies in it. -/
theorem ensures_ended {x : Fn σ Int} {Q : Int → σ → Prop}
    (body : Ensures x Q (fun e s' => (∀ rc, e = .ret rc → Q rc s') ∧ (e = .crash → E .crash s')) s) :
    Ensures (enclose x) Q E s := by
  apply (ensures_enclose x).mpr
  apply body.mono (fun _ _ done => done)
  intro e s' left
  cases e with
  | ret rc => exact left.1 rc rfl
  | crash => exact left.2 rfl

theorem ensures_returned {x : Fn σ Int} {Q : Int → σ → Prop}
    (body : Ensures x Q (fun e s' => ∀ rc, e = .ret rc → Q rc s') s) :
    Ensures (enclose x) Q (fun _ _ => True) s := by
  apply ensures_ended
  exact body.mono (fun _ _ done => done) fun _ _ left => ⟨left, fun _ => trivial⟩

/-- A loop establishes for the whole list what each round establishes for the
elements done so far. -/
theorem ensures_each {body : α → Fn σ Unit} (Inv : List α → σ → Prop) {l : List α}
    (round : ∀ done a rest, l = done ++ a :: rest → ∀ s, Inv done s →
      Ensures (body a) (fun _ => Inv (done ++ [a])) E s)
    (first : Inv [] s) : Ensures (each l body) (fun _ => Inv l) E s := by
  have tail : ∀ rest done s, l = done ++ rest → Inv done s →
      Ensures (each rest body) (fun _ => Inv l) E s := by
    intro rest
    induction rest with
    | nil =>
      intro done s split inv
      rw [List.append_nil] at split
      exact (ensures_pure _).mpr (split ▸ inv)
    | cons a rest ih =>
      intro done s split inv
      apply (ensures_bind _ _).mpr
      apply (round done a rest split s inv).mono _ (fun _ _ h => h)
      intro _ s' inv'
      exact ih (done ++ [a]) s' (by rw [split, List.append_assoc, List.singleton_append]) inv'
  exact tail l [] s rfl first

theorem ensures_const {p : Prop} (h : p) (x : Fn σ α) (s : σ) :
    Ensures x (fun _ _ => p) (fun _ _ => p) s := by
  simp only [Ensures]
  cases x s <;> exact h

/-- A body that always ends at its end, in states where `Q` is decided by `c`. -/
theorem Ensures.decided {x : Fn σ α} {c : Prop} (h : Ensures x Q' (fun _ _ => False) s)
    (decided : ∀ a s', Q' a s' → (Q a s' ↔ c)) : Ensures x Q E s ↔ c := by
  simp only [Ensures] at h ⊢
  cases hx : x s with
  | ok a s' => rw [hx] at h; exact decided a s' h
  | error e s' => rw [hx] at h; exact h.elim

/-- A body that always ends at its end has a result. -/
theorem Ensures.returns {x : Fn σ α} (h : Ensures x Q (fun _ _ => False) s) :
    ∃ a s', x s = .ok a s' ∧ Q a s' := by
  simp only [Ensures] at h
  cases hx : x s with
  | ok a s' => rw [hx] at h; exact ⟨a, s', rfl, h⟩
  | error e s' => rw [hx] at h; exact h.elim

theorem Ensures.and {x : Fn σ α} (h : Ensures x Q E s) (h' : Ensures x Q' E' s) :
    Ensures x (fun a s' => Q a s' ∧ Q' a s') (fun e s' => E e s' ∧ E' e s') s := by
  simp only [Ensures] at h h' ⊢
  cases hx : x s with
  | ok a s' => rw [hx] at h h'; exact ⟨h, h'⟩
  | error e s' => rw [hx] at h h'; exact ⟨h, h'⟩

/-- A run does not end in two ways that exclude each other. -/
theorem Ensures.excluded {x : Fn σ α} (h : Ensures x Q E s) (h' : Ensures x Q' E' s)
    (hQ : ∀ a s', Q a s' → ¬ Q' a s') (hE : ∀ e s', E e s' → ¬ E' e s') : False := by
  simp only [Ensures] at h h'
  cases hx : x s with
  | ok a s' => rw [hx] at h h'; exact hQ a s' h h'
  | error e s' => rw [hx] at h h'; exact hE e s' h h'

end

/-! ## What is kept by every way to build a body -/

/-- A property of two bodies that are built the same way; one of a single body
does not look at the second one. -/
structure Closed (P : ∀ {α : Type}, Fn σ α → Fn τ α → Prop) : Prop where
  pure : ∀ {α : Type} (a : α), P (Pure.pure a) (Pure.pure a)
  ret : ∀ {α : Type} (rc : Int), P (Fn.ret rc : Fn σ α) (Fn.ret rc)
  bind : ∀ {α β : Type} {x : Fn σ α} {y : Fn τ α} {f : α → Fn σ β} {g : α → Fn τ β},
    P x y → (∀ a, P (f a) (g a)) → P (x >>= f) (y >>= g)
  enclose : ∀ {x : Fn σ Int} {y : Fn τ Int}, P x y → P (Fn.enclose x) (Fn.enclose y)

/-- Bodies that begin as `Q` says and go on as `P` says are as `Q` says. -/
structure Opens (P Q : ∀ {α : Type}, Fn σ α → Fn τ α → Prop) : Prop where
  bind : ∀ {α β : Type} {x : Fn σ α} {y : Fn τ α} {f : α → Fn σ β} {g : α → Fn τ β},
    Q x y → (∀ a, P (f a) (g a)) → Q (x >>= f) (y >>= g)
  enclose : ∀ {x : Fn σ Int} {y : Fn τ Int}, Q x y → Q (Fn.enclose x) (Fn.enclose y)

namespace Closed

variable {P : ∀ {α : Type}, Fn σ α → Fn τ α → Prop}

theorem opens (h : Closed P) : Opens P P := ⟨h.bind, h.enclose⟩

theorem require (h : Closed P) (c : Bool) (rc : Int) :
    P (Fn.require c rc) (Fn.require c rc) := by
  cases c
  · exact h.ret rc
  · exact h.pure ()

theorem when (h : Closed P) {c : Bool} {x : Fn σ Unit} {y : Fn τ Unit}
    (body : c = true → P x y) : P (Fn.when c x) (Fn.when c y) := by
  cases c
  · exact h.pure ()
  · exact body rfl

theorem each (h : Closed P) {l : List α} {f : α → Fn σ Unit} {g : α → Fn τ Unit}
    (body : ∀ a ∈ l, P (f a) (g a)) : P (Fn.each l f) (Fn.each l g) := by
  induction l with
  | nil => exact h.pure ()
  | cons a rest ih =>
    apply h.bind (body a List.mem_cons_self)
    intro _
    exact ih fun b hb => body b (List.mem_cons_of_mem a hb)

end Closed

/-! ## Invariants -/

/-- From a state with `P`, `x` leads to one with `Q`, however it ends. -/
def Leads (P Q : σ → Prop) (x : Fn σ α) : Prop :=
  ∀ s, P s → Ensures x (fun _ => Q) (fun _ => Q) s

/-- `x` keeps the invariant. -/
abbrev Keeps (Inv : σ → Prop) (x : Fn σ α) : Prop := Leads Inv Inv x

/-- Run from `s`, `x` leaves a state with `P`, however it ends. -/
abbrev Leaves (x : Fn σ α) (P : σ → Prop) (s : σ) : Prop := Ensures x (fun _ => P) (fun _ => P) s

section
variable {P Inv : σ → Prop} {x : Fn σ α}

theorem Ensures.enclosed {x : Fn σ Int} {s : σ} (h : Leaves x P s) : Leaves (Fn.enclose x) P s := by
  apply (ensures_enclose x).mpr
  apply h.mono (fun _ _ holds => holds)
  intro e s' holds
  cases e <;> exact holds

/-- Once the invariant holds, the rest of a body keeps it. -/
theorem Leaves.bind {f : α → Fn σ β} {s : σ} (hx : Leaves x Inv s) (hf : ∀ a, Keeps Inv (f a)) :
    Leaves (x >>= f) Inv s := by
  apply (ensures_bind x f).mpr
  exact hx.mono (fun a s' inv => hf a s' inv) (fun _ _ inv => inv)

theorem Leads.bind {f : α → Fn σ β} (hx : Leads P Inv x) (hf : ∀ a, Keeps Inv (f a)) :
    Leads P Inv (x >>= f) := fun s pre => Leaves.bind (hx s pre) hf

/-- What holds once `x` is done is known to the rest of a body. -/
theorem Leads.before {f : α → Fn σ β} {Q : β → σ → Prop} {E : Exit → σ → Prop} {s : σ}
    (hx : Leads P Inv x) (pre : P s) (rest : ∀ a s', Inv s' → Ensures (f a) Q E s')
    (left : ∀ e s', Inv s' → E e s') : Ensures (x >>= f) Q E s := by
  apply (ensures_bind x f).mpr
  exact (hx s pre).mono rest left

theorem Leads.enclose {x : Fn σ Int} (h : Leads P Inv x) : Leads P Inv (enclose x) := by
  intro s pre
  exact (h s pre).enclosed

/-- What a body does to a part of the state, it does to the whole. -/
theorem Leads.zoom {part : τ → σ} {put : σ → τ → τ} (law : ∀ s t, part (put s t) = s)
    (h : Leads P Inv x) : Leads (fun t => P (part t)) (fun t => Inv (part t)) (zoom part put x) := by
  intro t pre
  apply (ensures_zoom x).mpr
  apply (h _ pre).mono
  · intro a s' inv
    rw [law]
    exact inv
  · intro e s' inv
    rw [law]
    exact inv

theorem keeps_pure (a : α) : Keeps Inv (pure a) := fun _ h => (ensures_pure a).mpr h

theorem keeps_ret (rc : Int) : Keeps Inv (ret rc : Fn σ α) := fun _ h => (ensures_ret rc).mpr h

theorem keeps_crash : Keeps Inv (crash : Fn σ α) := fun _ h => ensures_crash.mpr h

theorem keeps_get : Keeps Inv (get : Fn σ σ) := fun _ h => ensures_get.mpr h

/-- What is read has the invariant. -/
theorem keeps_read {f : σ → Fn σ α} (h : ∀ s, Inv s → Keeps Inv (f s)) : Keeps Inv (get >>= f) := by
  intro s inv
  apply (ensures_bind _ _).mpr
  exact ensures_get.mpr (h s inv s inv)

theorem keeps_modify {f : σ → σ} (h : ∀ s, Inv s → Inv (f s)) : Keeps Inv (modify f : Fn σ _) :=
  fun s inv => (ensures_modify f).mpr (h s inv)

theorem keeps_closed : Closed fun {α} (x _ : Fn σ α) => Keeps Inv x where
  pure := keeps_pure
  ret := keeps_ret
  bind := Leads.bind
  enclose := Leads.enclose

theorem leads_opens :
    Opens (fun {α} (x _ : Fn σ α) => Keeps Inv x) fun {α} (x _ : Fn σ α) => Leads P Inv x where
  bind := Leads.bind
  enclose := Leads.enclose

theorem keeps_require (c : Bool) (rc : Int) : Keeps Inv (require c rc) :=
  keeps_closed.require c rc

theorem keeps_assert (c : Bool) : Keeps Inv (assert c) := by
  cases c
  · exact keeps_crash
  · exact keeps_pure ()

theorem keeps_when {x : Fn σ Unit} (c : Bool) (h : Keeps Inv x) : Keeps Inv (when c x) :=
  keeps_closed.when (y := x) fun _ => h

theorem keeps_each {body : α → Fn σ Unit} {l : List α} (h : ∀ a ∈ l, Keeps Inv (body a)) :
    Keeps Inv (each l body) := keeps_closed.each (g := body) h

/-- An invariant may be added to what a body ensures. -/
theorem Ensures.with {Q : α → σ → Prop} {E : Exit → σ → Prop} {s : σ} (h : Ensures x Q E s)
    (keeps : Keeps Inv x) (inv : Inv s) :
    Ensures x (fun a s' => Q a s' ∧ Inv s') (fun e s' => E e s' ∧ Inv s') s :=
  h.and (keeps s inv)

/-! ## Bodies without an early return -/

/-- `x` reaches its end, or the process dies in it. -/
def Through (x : Fn σ α) : Prop := ∀ s, Ensures x (fun _ _ => True) (fun e _ => e = .crash) s

theorem through_pure (a : α) : Through (pure a : Fn σ α) := fun _ => (ensures_pure a).mpr trivial

theorem through_get : Through (get : Fn σ σ) := fun _ => ensures_get.mpr trivial

theorem through_modify (f : σ → σ) : Through (modify f : Fn σ _) :=
  fun _ => (ensures_modify f).mpr trivial

/-- A call of another function. -/
theorem through_enclose (x : Fn σ Int) : Through (Fn.enclose x) := by
  intro s
  rcases enclose_cases x s with ⟨rc, s', ended⟩ | ⟨s', died⟩
  · exact (ensures_of_ok ended).mpr trivial
  · exact (ensures_of_error died).mpr rfl

theorem Through.bind {f : α → Fn σ β} (hx : Through x) (hf : ∀ a, Through (f a)) :
    Through (x >>= f) := by
  intro s
  apply (ensures_bind x f).mpr
  exact (hx s).mono (fun a s' _ => hf a s') (fun _ _ died => died)

theorem Through.when {x : Fn σ Unit} (c : Bool) (h : Through x) : Through (Fn.when c x) := by
  cases c
  · exact through_pure ()
  · exact h

theorem through_crash : Through (crash : Fn σ α) := fun _ => ensures_crash.mpr rfl

theorem through_assert (c : Bool) : Through (assert c : Fn σ _) := by
  cases c
  · exact through_crash
  · exact through_pure ()

theorem through_each {body : α → Fn σ Unit} {l : List α} (h : ∀ a, Through (body a)) :
    Through (each l body) := by
  induction l with
  | nil => exact through_pure ()
  | cons a rest ih => exact (h a).bind fun _ => ih

theorem Through.zoom {part : τ → σ} {put : σ → τ → τ} (h : Through x) :
    Through (Fn.zoom part put x) := fun t => (ensures_zoom x).mpr (h (part t))

/-- What a body keeps, it has kept at its end. -/
theorem Through.keeps (through : Through x) (keeps : Keeps Inv x) {s : σ} (inv : Inv s) :
    Ensures x (fun _ => Inv) (fun e s' => e = .crash ∧ Inv s') s := by
  apply ((through s).with keeps inv).mono
  · exact fun _ _ kept => kept.2
  · exact fun _ _ died => died

end

/-! ## Life and death -/

/-- `x` ends at its end or returns early. -/
def Survives (x : Fn σ α) : Prop := ∀ s, Ensures x (fun _ _ => True) (fun e _ => e ≠ .crash) s

/-- The process died in a body that ended so. -/
def Died (p : EStateM.Result Exit σ α) : Prop := ∃ s, p = .error .crash s

section
variable {x : Fn σ α} {s : σ}

theorem survives_pure (a : α) : Survives (pure a : Fn σ α) := fun _ => (ensures_pure a).mpr trivial

theorem survives_ret (rc : Int) : Survives (ret rc : Fn σ α) := fun _ => (ensures_ret rc).mpr nofun

theorem survives_get : Survives (get : Fn σ σ) := fun _ => ensures_get.mpr trivial

theorem survives_modify (f : σ → σ) : Survives (modify f : Fn σ _) :=
  fun _ => (ensures_modify f).mpr trivial

theorem survives_assert {c : Bool} (h : c = true) : Survives (assert c : Fn σ _) := by
  rw [h]
  exact survives_pure ()

theorem Survives.bind {f : α → Fn σ β} (hx : Survives x) (hf : ∀ a, Survives (f a)) :
    Survives (x >>= f) := by
  intro s
  apply (ensures_bind x f).mpr
  exact (hx s).mono (fun a s' _ => hf a s') (fun _ _ alive => alive)

theorem Survives.alive (h : Survives x) : ¬ Died (x s) := by
  rintro ⟨s', died⟩
  exact (ensures_of_error died).mp (h s) rfl

theorem Survives.enclose {x : Fn σ Int} (h : Survives x) : Survives (Fn.enclose x) := by
  intro s
  apply (ensures_enclose x).mpr
  apply (h s).mono (fun _ _ _ => trivial)
  intro e s' alive
  cases e with
  | ret rc => trivial
  | crash => exact alive

theorem survives_closed : Closed fun {α} (x _ : Fn σ α) => Survives x where
  pure := survives_pure
  ret := survives_ret
  bind := Survives.bind
  enclose := Survives.enclose

theorem Survives.when {x : Fn σ Unit} (c : Bool) (h : c = true → Survives x) :
    Survives (Fn.when c x) := survives_closed.when (y := x) h

theorem survives_each {body : α → Fn σ Unit} {l : List α} (h : ∀ a ∈ l, Survives (body a)) :
    Survives (each l body) := survives_closed.each (g := body) h

/-- A call that is survived returns. -/
theorem Survives.returns {x : Fn σ Int} (h : Survives (Fn.enclose x)) (s : σ) :
    ∃ rc s', Fn.enclose x s = .ok rc s' := by
  rcases enclose_cases x s with returns | died
  · exact returns
  · exact absurd died h.alive

theorem died_of (h : Ensures x (fun _ _ => False) (fun e _ => e = .crash) s) : Died (x s) := by
  cases ended : x s with
  | ok a s' => exact ((ensures_of_ok ended).mp h).elim
  | error e s' =>
    obtain rfl := (ensures_of_error ended).mp h
    exact ⟨s', rfl⟩

theorem died_bind {f : α → Fn σ β} (h : Died (x s)) : Died ((x >>= f) s) := by
  obtain ⟨s', died⟩ := h
  exact ⟨s', by simp only [Bind.bind, EStateM.bind, died]⟩

theorem died_each {body : α → Fn σ Unit} {a : α} {rest : List α} (h : Died (body a s)) :
    Died (each (a :: rest) body s) := died_bind h

theorem died_enclose {x : Fn σ Int} (h : Died (x s)) : Died (enclose x s) := by
  obtain ⟨s', died⟩ := h
  exact ⟨s', by simp only [enclose, died]⟩

theorem died_not_ok {a : α} {s' : σ} (h : Died (x s)) : x s ≠ .ok a s' := by
  obtain ⟨s'', died⟩ := h
  rw [died]
  exact nofun

end

/-- From a state with the invariant, `x` survives and keeps it. -/
def Safe (Inv : σ → Prop) (x : Fn σ α) : Prop :=
  ∀ s, Inv s → Ensures x (fun _ => Inv) (fun e s' => e ≠ .crash ∧ Inv s') s

section
variable {Inv : σ → Prop}

theorem safe_pure (a : α) : Safe Inv (pure a : Fn σ α) := fun _ inv => (ensures_pure a).mpr inv

theorem safe_ret (rc : Int) : Safe Inv (ret rc : Fn σ α) :=
  fun _ inv => (ensures_ret rc).mpr ⟨nofun, inv⟩

theorem safe_assert {c : Bool} (h : c = true) : Safe Inv (assert c : Fn σ _) := by
  rw [h]
  exact safe_pure ()

theorem safe_modify {f : σ → σ} (h : ∀ s, Inv s → Inv (f s)) : Safe Inv (modify f : Fn σ _) :=
  fun s inv => (ensures_modify f).mpr (h s inv)

theorem Safe.bind {x : Fn σ α} {f : α → Fn σ β} (hx : Safe Inv x) (hf : ∀ a, Safe Inv (f a)) :
    Safe Inv (x >>= f) := by
  intro s inv
  apply (ensures_bind x f).mpr
  exact (hx s inv).mono (fun a s' inv => hf a s' inv) (fun _ _ left => left)

theorem Safe.enclose {x : Fn σ Int} (hx : Safe Inv x) : Safe Inv (Fn.enclose x) := by
  intro s inv
  apply (ensures_enclose x).mpr
  apply (hx s inv).mono (fun _ _ inv => inv)
  intro e s' left
  cases e with
  | ret rc => exact left.2
  | crash => exact absurd rfl left.1

theorem safe_closed : Closed fun {α} (x _ : Fn σ α) => Safe Inv x where
  pure := safe_pure
  ret := safe_ret
  bind := Safe.bind
  enclose := Safe.enclose

theorem safe_require (c : Bool) (rc : Int) : Safe Inv (require c rc) := safe_closed.require c rc

theorem Safe.when {x : Fn σ Unit} (c : Bool) (h : c = true → Safe Inv x) : Safe Inv (Fn.when c x) :=
  safe_closed.when (y := x) h

/-- What survives and can only end by a crash returns. -/
theorem Safe.returned {x : Fn σ α} {s : σ} (safe : Safe Inv x) (through : Through x) (inv : Inv s) :
    Ensures x (fun _ => Inv) (fun _ _ => False) s := by
  apply ((safe s inv).and (through s)).mono
  · exact fun _ _ both => both.1
  · exact fun _ _ both => both.1.1 both.2

/-- What is read has the invariant. -/
theorem safe_get {f : σ → Fn σ α} (h : ∀ s, Inv s → Safe Inv (f s)) : Safe Inv (get >>= f) := by
  intro s inv
  apply (ensures_bind _ _).mpr
  exact ensures_get.mpr (h s inv s inv)

end

end Fn

end Ultrasight
