import Ultrasight.Runs

/-!
# Threads with mutexes and condition variables

A thread is a control-flow graph: every program point carries one instruction,
and a step of a thread executes the instruction of the point it stands at.

* `fire`: one step of one thread, executable;
* `Fires`: the same step read as a relation, one constructor for each thing a
  step can do;
* `Discipline`: an annotation of the program points with the mutexes held
  there, checked instruction by instruction;
* `guarded_fire`: if the annotation checks, a mutex is owned exactly by the
  thread whose program point says so;
* `owner_chain`: if mutexes are also nested in one order, following the owners
  ends at a thread that is not blocked, and `owner_progress`: it can move.

A condition wait gives up its mutex and sleeps in one step; a woken thread
takes the mutex again before it goes on. Waking up without a broadcast is a
step of the environment (`spurious`).
-/

set_option linter.unusedSectionVars false

namespace Ultrasight.Threads

/-- The instruction at a program point. `act` reads an input, tests and changes
the shared memory, and blocks while it yields nothing. -/
inductive Instr (M C I S P : Type) where
  | lock (m : M) (next : P)
  | unlock (m : M) (next : P)
  | wait (c : C) (m : M) (next : P)
  | broadcast (c : C) (next : P)
  | act (f : I → S → Option (S × P))
  | halt

/-- The same instruction in a program whose points are named by `g`. -/
def Instr.map {M C I S P Q : Type} (g : P → Q) : Instr M C I S P → Instr M C I S Q
  | .lock m next => .lock m (g next)
  | .unlock m next => .unlock m (g next)
  | .wait c m next => .wait c m (g next)
  | .broadcast c next => .broadcast c (g next)
  | .act f => .act fun i s => (f i s).map fun r => (r.1, g r.2)
  | .halt => .halt

/-- Where a thread is: at a point, asleep in a condition wait, or woken and
about to take the mutex of the wait again. -/
inductive Ctl (M C P : Type) where
  | run (p : P)
  | asleep (c : C) (m : M) (p : P)
  | woken (m : M) (p : P)
  deriving DecidableEq

/-- What an instruction does to the shared memory and to the point of its
thread, mutexes left aside. -/
def Instr.after {M C I S P : Type} (i : I) (s : S) : Instr M C I S P → Option (S × P)
  | .lock _ q | .unlock _ q | .wait _ _ q | .broadcast _ q => some (s, q)
  | .act f => f i s
  | .halt => none

theorem after_map {M C I S P Q : Type} (g : P → Q) (i : I) (s : S) (x : Instr M C I S P) :
    (x.map g).after i s = (x.after i s).map fun r => (r.1, g r.2) := by
  cases x <;> rfl

/-- The same instruction on a memory of which its own is a part, with an input
of which it reads a part. -/
def Instr.on {M C I I' S S' P : Type} (input : I' → I) (part : S' → S) (put : S' → S → S') :
    Instr M C I S P → Instr M C I' S' P
  | .lock m next => .lock m next
  | .unlock m next => .unlock m next
  | .wait c m next => .wait c m next
  | .broadcast c next => .broadcast c next
  | .act f => .act fun i s => (f (input i) (part s)).map fun r => (put s r.1, r.2)
  | .halt => .halt

theorem after_on {M C I I' S S' P : Type} {input : I' → I} {part : S' → S} {put : S' → S → S'}
    (same : ∀ s, put s (part s) = s) (i : I') (s : S') (x : Instr M C I S P) :
    (x.on input part put).after i s =
      (x.after (input i) (part s)).map fun r => (put s r.1, r.2) := by
  cases x with
  | lock | unlock | wait | broadcast => simp only [Instr.on, Instr.after, Option.map_some, same]
  | act | halt => rfl

/-- The point a thread is at, or goes on from. -/
def Ctl.point {M C P : Type} : Ctl M C P → P
  | .run p | .asleep _ _ p | .woken _ p => p

section
variable {M C I S T : Type} {P : T → Type} [DecidableEq M] [DecidableEq C] [DecidableEq T]

structure World (M C S T : Type) (P : T → Type) where
  mem : S
  owner : M → Option T
  ctl : (t : T) → Ctl M C (P t)

abbrev Code (M C I S T : Type) (P : T → Type) := (t : T) → P t → Instr M C I S (P t)

def Ctl.wake {Q : Type} (c : C) : Ctl M C Q → Ctl M C Q
  | .asleep c' m p => if c' = c then .woken m p else .asleep c' m p
  | k => k

def World.goto (w : World M C S T P) (t : T) (k : Ctl M C (P t)) : World M C S T P :=
  { w with ctl := Function.update w.ctl t k }

def World.give (w : World M C S T P) (m : M) (o : Option T) : World M C S T P :=
  { w with owner := Function.update w.owner m o }

def World.wakeAll (w : World M C S T P) (c : C) : World M C S T P :=
  { w with ctl := fun u => (w.ctl u).wake c }

def World.store (w : World M C S T P) (s : S) : World M C S T P := { w with mem := s }

/-- One step of thread `t` on input `i`; `none` when it cannot move. -/
def fire (code : Code M C I S T P) (t : T) (i : I) (w : World M C S T P) :
    Option (World M C S T P) :=
  match w.ctl t with
  | .asleep _ _ _ => none
  | .woken m p => if w.owner m = none then some ((w.give m (some t)).goto t (.run p)) else none
  | .run p =>
    match code t p with
    | .lock m q => if w.owner m = none then some ((w.give m (some t)).goto t (.run q)) else none
    | .unlock m q => some ((w.give m none).goto t (.run q))
    | .wait c m q => some ((w.give m none).goto t (.asleep c m q))
    | .broadcast c q => some ((w.wakeAll c).goto t (.run q))
    | .act f => (f i w.mem).map fun r => (w.store r.1).goto t (.run r.2)
    | .halt => none

/-- A wake-up of `t` that no broadcast caused. -/
def spurious (t : T) (w : World M C S T P) : Option (World M C S T P) :=
  match w.ctl t with
  | .asleep _ m p => some (w.goto t (.woken m p))
  | _ => none

/-- What a step of thread `t` can be. -/
inductive Fires (code : Code M C I S T P) (t : T) (i : I) (w : World M C S T P) :
    World M C S T P → Prop
  | reacquire (m : M) (p : P t) (here : w.ctl t = .woken m p) (free : w.owner m = none) :
      Fires code t i w ((w.give m (some t)).goto t (.run p))
  | lock (p : P t) (m : M) (q : P t) (here : w.ctl t = .run p)
      (instr : code t p = .lock m q) (free : w.owner m = none) :
      Fires code t i w ((w.give m (some t)).goto t (.run q))
  | unlock (p : P t) (m : M) (q : P t) (here : w.ctl t = .run p)
      (instr : code t p = .unlock m q) : Fires code t i w ((w.give m none).goto t (.run q))
  | wait (p : P t) (c : C) (m : M) (q : P t) (here : w.ctl t = .run p)
      (instr : code t p = .wait c m q) : Fires code t i w ((w.give m none).goto t (.asleep c m q))
  | broadcast (p : P t) (c : C) (q : P t) (here : w.ctl t = .run p)
      (instr : code t p = .broadcast c q) : Fires code t i w ((w.wakeAll c).goto t (.run q))
  | act (p : P t) (f : I → S → Option (S × P t)) (s : S) (q : P t) (here : w.ctl t = .run p)
      (instr : code t p = .act f) (result : f i w.mem = some (s, q)) :
      Fires code t i w ((w.store s).goto t (.run q))

theorem fire_fires {code : Code M C I S T P} {t : T} {i : I} {w w' : World M C S T P}
    (h : fire code t i w = some w') : Fires code t i w w' := by
  unfold fire at h
  split at h
  · cases h
  · rename_i m p here
    split at h
    · rename_i free; cases h; exact .reacquire m p here free
    · cases h
  · rename_i p here
    split at h
    · rename_i m q instr
      split at h
      · rename_i free; cases h; exact .lock p m q here instr free
      · cases h
    · rename_i m q instr; cases h; exact .unlock p m q here instr
    · rename_i c m q instr; cases h; exact .wait p c m q here instr
    · rename_i c q instr; cases h; exact .broadcast p c q here instr
    · rename_i f instr
      obtain ⟨⟨s, q⟩, result, rfl⟩ := Option.map_eq_some_iff.mp h
      exact .act p f s q here instr result
    · cases h

theorem point_wake {Q : Type} (c : C) (k : Ctl M C Q) : (k.wake c).point = k.point := by
  cases k with
  | run | woken => rfl
  | asleep c' => by_cases hc : c' = c <;> simp [Ctl.wake, Ctl.point, hc]

@[simp] theorem goto_mem (w : World M C S T P) (t : T) (k : Ctl M C (P t)) :
    (w.goto t k).mem = w.mem := rfl

@[simp] theorem goto_owner (w : World M C S T P) (t : T) (k : Ctl M C (P t)) :
    (w.goto t k).owner = w.owner := rfl

@[simp] theorem goto_self (w : World M C S T P) (t : T) (k : Ctl M C (P t)) :
    (w.goto t k).ctl t = k := by simp [World.goto]

theorem goto_other (w : World M C S T P) {t u : T} (k : Ctl M C (P t)) (h : u ≠ t) :
    (w.goto t k).ctl u = w.ctl u := by simp [World.goto, h]

@[simp] theorem give_mem (w : World M C S T P) (m : M) (o : Option T) :
    (w.give m o).mem = w.mem := rfl

@[simp] theorem give_ctl (w : World M C S T P) (m : M) (o : Option T) :
    (w.give m o).ctl = w.ctl := rfl

@[simp] theorem give_owner_self (w : World M C S T P) (m : M) (o : Option T) :
    (w.give m o).owner m = o := by simp [World.give]

theorem give_owner_other (w : World M C S T P) {m n : M} (o : Option T) (h : n ≠ m) :
    (w.give m o).owner n = w.owner n := by simp [World.give, h]

@[simp] theorem wakeAll_mem (w : World M C S T P) (c : C) : (w.wakeAll c).mem = w.mem := rfl

@[simp] theorem wakeAll_owner (w : World M C S T P) (c : C) :
    (w.wakeAll c).owner = w.owner := rfl

@[simp] theorem wakeAll_ctl (w : World M C S T P) (c : C) (u : T) :
    (w.wakeAll c).ctl u = (w.ctl u).wake c := rfl

@[simp] theorem store_mem (w : World M C S T P) (s : S) : (w.store s).mem = s := rfl

@[simp] theorem store_owner (w : World M C S T P) (s : S) :
    (w.store s).owner = w.owner := rfl

@[simp] theorem store_ctl (w : World M C S T P) (s : S) : (w.store s).ctl = w.ctl := rfl

/-- Mutexes aside, a step either takes a mutex again after a wait and changes
nothing else, or does what the instruction at its point says. -/
theorem fire_after {code : Code M C I S T P} {t : T} {i : I} {w w' : World M C S T P}
    (h : fire code t i w = some w') :
    (w'.mem = w.mem ∧ (w'.ctl t).point = (w.ctl t).point) ∨
      (code t (w.ctl t).point).after i w.mem = some (w'.mem, (w'.ctl t).point) := by
  cases fire_fires h with
  | reacquire m p here => exact .inl ⟨rfl, by simp [here, Ctl.point]⟩
  | lock p m q here instr => exact .inr (by simp [here, Ctl.point, instr, Instr.after])
  | unlock p m q here instr => exact .inr (by simp [here, Ctl.point, instr, Instr.after])
  | wait p c m q here instr => exact .inr (by simp [here, Ctl.point, instr, Instr.after])
  | broadcast p c q here instr => exact .inr (by simp [here, Ctl.point, instr, Instr.after])
  | act p f s q here instr result =>
    exact .inr (by simp [here, Ctl.point, instr, Instr.after, result])

/-- A running thread does what the instruction at its point says. -/
theorem run_after {code : Code M C I S T P} {t : T} {i : I} {w w' : World M C S T P} {p : P t}
    (here : w.ctl t = .run p) (h : fire code t i w = some w') :
    (code t p).after i w.mem = some (w'.mem, (w'.ctl t).point) := by
  cases fire_fires h with
  | reacquire m q at_ =>
    rw [here] at at_
    cases at_
  | lock q _ _ at_ instr | unlock q _ _ at_ instr | wait q _ _ _ at_ instr
  | broadcast q _ _ at_ instr =>
    cases here.symm.trans at_
    simp [Ctl.point, instr, Instr.after]
  | act q f s _ at_ instr result =>
    cases here.symm.trans at_
    simp [Ctl.point, instr, Instr.after, result]

/-- A step wakes other threads up at most. -/
theorem fire_wakes {code : Code M C I S T P} {t u : T} {i : I} {w w' : World M C S T P}
    (h : fire code t i w = some w') (other : u ≠ t) :
    w'.ctl u = w.ctl u ∨ ∃ c, w'.ctl u = (w.ctl u).wake c := by
  cases fire_fires h with
  | broadcast p c q =>
    rw [goto_other _ _ other]
    exact .inr ⟨c, rfl⟩
  | reacquire | lock | unlock | wait | act =>
    rw [goto_other _ _ other]
    exact .inl rfl

/-- A step moves no other thread. -/
theorem fire_other {code : Code M C I S T P} {t u : T} {i : I} {w w' : World M C S T P}
    (h : fire code t i w = some w') (other : u ≠ t) :
    (w'.ctl u).point = (w.ctl u).point := by
  cases fire_fires h with
  | broadcast p c q => simp [goto_other _ _ other, point_wake]
  | reacquire | lock | unlock | wait | act => simp [goto_other _ _ other]

/-- A wake-up changes neither the memory nor any point. -/
theorem spurious_point {t : T} {w w' : World M C S T P} (h : spurious t w = some w') :
    w'.mem = w.mem ∧ ∀ u, (w'.ctl u).point = (w.ctl u).point := by
  unfold spurious at h
  split at h
  · rename_i c m p here
    cases h
    refine ⟨rfl, fun u => ?_⟩
    by_cases hu : u = t
    · subst hu; simp [here, Ctl.point]
    · simp [goto_other _ _ hu]
  · cases h

theorem spurious_owner {t : T} {w w' : World M C S T P} (h : spurious t w = some w') :
    w'.owner = w.owner := by
  unfold spurious at h
  split at h
  · cases h
    rfl
  · cases h

/-- The points of all threads after a step. -/
theorem fire_points {code : Code M C I S T P} {t : T} {i : I} {w w' : World M C S T P}
    (h : fire code t i w = some w') :
    (fun u => (w'.ctl u).point) =
      Function.update (fun u => (w.ctl u).point) t (w'.ctl t).point := by
  funext u
  by_cases hu : u = t
  · subst hu
    rw [Function.update_self]
  · rw [Function.update_of_ne hu]
    exact fire_other h hu

/-- A thread that sleeps, or was woken, resumes at a point that is `ok`. -/
def Ctl.Rests {Q : Type} (ok : Q → Prop) : Ctl M C Q → Prop
  | .run _ => True
  | .asleep _ _ p | .woken _ p => ok p

theorem rests_wake {Q : Type} {ok : Q → Prop} {k : Ctl M C Q} (h : k.Rests ok) (c : C) :
    (k.wake c).Rests ok := by
  cases k with
  | run | woken => exact h
  | asleep c' m p =>
    by_cases hc : c' = c
    · simpa [Ctl.wake, Ctl.Rests, hc] using h
    · simpa [Ctl.wake, hc] using h

/-- What every wait resumes at, every sleeping or woken thread resumes at. -/
theorem rests_fire {code : Code M C I S T P} {ok : (t : T) → P t → Prop}
    (waits : ∀ t p c m q, code t p = .wait c m q → ok t q) {t : T} {i : I}
    {w w' : World M C S T P} (h : ∀ u, (w.ctl u).Rests (ok u)) (step : fire code t i w = some w')
    (u : T) : (w'.ctl u).Rests (ok u) := by
  by_cases hu : u = t
  · subst hu
    cases fire_fires step with
    | wait p c m q here instr => simpa [Ctl.Rests] using waits _ p c m q instr
    | reacquire | lock | unlock | broadcast | act => simp [Ctl.Rests]
  · cases fire_fires step with
    | broadcast p c q =>
      rw [goto_other _ _ hu]
      exact rests_wake (h u) c
    | reacquire | lock | unlock | wait | act =>
      rw [goto_other _ _ hu]
      exact h u

theorem rests_spurious {ok : (t : T) → P t → Prop} {t : T} {w w' : World M C S T P}
    (h : ∀ u, (w.ctl u).Rests (ok u)) (step : spurious t w = some w') (u : T) :
    (w'.ctl u).Rests (ok u) := by
  unfold spurious at step
  split at step
  · rename_i c m p here
    cases step
    by_cases hu : u = t
    · subst hu
      have rests := h u
      rw [here] at rests
      simpa [Ctl.Rests] using rests
    · rw [goto_other _ _ hu]
      exact h u
  · cases step

/-! ## Which mutexes a thread holds -/

/-- An instruction at a point where the mutexes `here` are held changes them to
those held at the points it goes on to; a wait gives up the only mutex held, and
a thread that ends holds none. -/
def Instr.Checks {Q : Type} (here : M → Bool) (held : Q → M → Bool) : Instr M C I S Q → Prop
  | .lock m q => here m = false ∧ held q = Function.update here m true
  | .unlock m q => here m = true ∧ held q = Function.update here m false
  | .wait _ m q => (∀ n, here n = true ↔ n = m) ∧ held q = here
  | .broadcast _ q => held q = here
  | .act f => ∀ i s s' q, f i s = some (s', q) → held q = here
  | .halt => ∀ m, here m = false

/-- The annotation `held t p`, the mutexes thread `t` holds at its point `p`,
checks at every point. -/
def Discipline (code : Code M C I S T P) (held : (t : T) → P t → M → Bool) : Prop :=
  ∀ t p, (code t p).Checks (held t p) (held t)

/-- A body checks wherever it is put, if the points it goes on to hold what the
body says. -/
theorem checks_map {Q R : Type} {g : Q → R} {here : M → Bool} {inner : Q → M → Bool}
    {held : R → M → Bool} {x : Instr M C I S Q} (h : x.Checks here inner)
    (same : ∀ q, held (g q) = inner q) : (x.map g).Checks here held := by
  cases x with
  | lock m q => exact ⟨h.1, (same q).trans h.2⟩
  | unlock m q => exact ⟨h.1, (same q).trans h.2⟩
  | wait c m q => exact ⟨h.1, (same q).trans h.2⟩
  | broadcast c q => exact (same q).trans h
  | act f =>
    intro i s s' q moved
    obtain ⟨⟨s₁, q₁⟩, result, eq⟩ := Option.map_eq_some_iff.mp moved
    cases eq
    exact (same q₁).trans (h i s s₁ q₁ result)
  | halt => exact h

theorem checks_on {I' S' Q : Type} {input : I' → I} {part : S' → S} {put : S' → S → S'}
    {here : M → Bool} {held : Q → M → Bool} {x : Instr M C I S Q} (h : x.Checks here held) :
    (x.on input part put).Checks here held := by
  cases x with
  | act f =>
    intro i s s' q moved
    obtain ⟨⟨s₁, q₁⟩, result, eq⟩ := Option.map_eq_some_iff.mp moved
    cases eq
    exact h (input i) (part s) s₁ q₁ result
  | lock | unlock | wait | broadcast | halt => exact h

/-- The mutexes held, given those held at each point: none while asleep or
woken. -/
def Ctl.holds {Q : Type} (held : Q → M → Bool) : Ctl M C Q → M → Bool
  | .run p, m => held p m
  | _, _ => false

/-- The point a wait resumes at holds exactly the mutex of the wait. -/
def Ctl.resumes {Q : Type} (held : Q → M → Bool) : Ctl M C Q → Prop
  | .run _ => True
  | .asleep _ m p | .woken m p => ∀ n, held p n = true ↔ n = m

/-- Owners and program points tell the same story. -/
structure Guarded (held : (t : T) → P t → M → Bool) (w : World M C S T P) : Prop where
  owned : ∀ m t, w.owner m = some t ↔ (w.ctl t).holds (held t) m = true
  resumes : ∀ t, (w.ctl t).resumes (held t)

variable {code : Code M C I S T P} {held : (t : T) → P t → M → Bool}

theorem Discipline.lock (hd : Discipline code held) {t : T} {p q : P t} {m : M}
    (instr : code t p = .lock m q) :
    held t p m = false ∧ held t q = Function.update (held t p) m true := by
  have checked := hd t p
  rwa [instr] at checked

theorem Discipline.unlock (hd : Discipline code held) {t : T} {p q : P t} {m : M}
    (instr : code t p = .unlock m q) :
    held t p m = true ∧ held t q = Function.update (held t p) m false := by
  have checked := hd t p
  rwa [instr] at checked

theorem Discipline.wait (hd : Discipline code held) {t : T} {p q : P t} {c : C} {m : M}
    (instr : code t p = .wait c m q) :
    (∀ n, held t p n = true ↔ n = m) ∧ held t q = held t p := by
  have checked := hd t p
  rwa [instr] at checked

theorem Discipline.broadcast (hd : Discipline code held) {t : T} {p q : P t} {c : C}
    (instr : code t p = .broadcast c q) : held t q = held t p := by
  have checked := hd t p
  rwa [instr] at checked

theorem Discipline.act (hd : Discipline code held) {t : T} {p q : P t} {f : I → S → Option (S × P t)}
    (instr : code t p = .act f) {i : I} {s s' : S} (result : f i s = some (s', q)) :
    held t q = held t p := by
  have checked := hd t p
  rw [instr] at checked
  exact checked i s s' q result

theorem Discipline.halt (hd : Discipline code held) {t : T} {p : P t} (instr : code t p = .halt)
    (m : M) : held t p m = false := by
  have checked := hd t p
  rw [instr] at checked
  exact checked m

theorem holds_wake {Q : Type} (f : Q → M → Bool) (c : C) (k : Ctl M C Q) (m : M) :
    (k.wake c).holds f m = k.holds f m := by
  cases k with
  | run | woken => rfl
  | asleep c' =>
    by_cases hc : c' = c
    · simp [Ctl.wake, Ctl.holds, hc]
    · simp [Ctl.wake, Ctl.holds, hc]

theorem resumes_wake {Q : Type} (f : Q → M → Bool) (c : C) (k : Ctl M C Q) :
    (k.wake c).resumes f ↔ k.resumes f := by
  cases k with
  | run | woken => rfl
  | asleep c' =>
    by_cases hc : c' = c
    · simp [Ctl.wake, Ctl.resumes, hc]
    · simp [Ctl.wake, Ctl.resumes, hc]

/-- Moving one thread between points that hold the same mutexes. -/
theorem Guarded.goto {w : World M C S T P} (h : Guarded held w) (t : T) (k : Ctl M C (P t))
    (same : ∀ m, k.holds (held t) m = (w.ctl t).holds (held t) m)
    (ready : k.resumes (held t)) : Guarded held (w.goto t k) := by
  constructor
  · intro m u
    by_cases hu : u = t
    · subst hu; simp [same, h.owned m u]
    · simp [goto_other _ _ hu, h.owned m u]
  · intro u
    by_cases hu : u = t
    · subst hu; simpa using ready
    · simpa [goto_other _ _ hu] using h.resumes u

/-- One thread takes a free mutex. -/
theorem Guarded.take {w : World M C S T P} (h : Guarded held w) (t : T) (m : M) (p : P t)
    (free : w.owner m = none)
    (gained : ∀ n, held t p n = true ↔ n = m ∨ (w.ctl t).holds (held t) n = true) :
    Guarded held ((w.give m (some t)).goto t (.run p)) := by
  constructor
  · intro n u
    have other : (w.ctl u).holds (held u) m ≠ true := by simp [← h.owned m u, free]
    by_cases hn : n = m
    · subst hn
      by_cases hu : u = t
      · subst hu; simp [Ctl.holds, gained]
      · simp [goto_other _ _ hu, other, Ne.symm hu]
    · by_cases hu : u = t
      · subst hu; simp [Ctl.holds, gained, hn, give_owner_other _ _ hn, h.owned n u]
      · simp [goto_other _ _ hu, give_owner_other _ _ hn, h.owned n u]
  · intro u
    by_cases hu : u = t
    · subst hu; simp [Ctl.resumes]
    · simpa [goto_other _ _ hu] using h.resumes u

/-- One thread gives up a mutex it holds. -/
theorem Guarded.release {w : World M C S T P} (h : Guarded held w) (t : T) (m : M)
    (k : Ctl M C (P t)) (mine : (w.ctl t).holds (held t) m = true)
    (lost : ∀ n, k.holds (held t) n = true ↔ n ≠ m ∧ (w.ctl t).holds (held t) n = true)
    (ready : k.resumes (held t)) : Guarded held ((w.give m none).goto t k) := by
  have owner := (h.owned m t).mpr mine
  constructor
  · intro n u
    by_cases hn : n = m
    · subst hn
      by_cases hu : u = t
      · subst hu; simp [lost]
      · have other : (w.ctl u).holds (held u) n ≠ true := by
          rw [Ne, ← h.owned n u, owner]; simpa using Ne.symm hu
        simp [goto_other _ _ hu, other]
    · by_cases hu : u = t
      · subst hu; simp [lost, hn, give_owner_other _ _ hn, h.owned n u]
      · simp [goto_other _ _ hu, give_owner_other _ _ hn, h.owned n u]
  · intro u
    by_cases hu : u = t
    · subst hu; simpa using ready
    · simpa [goto_other _ _ hu] using h.resumes u

/-- **Ownership follows the program points.** A step of a disciplined program
keeps every mutex with the thread that stands inside its critical section. -/
theorem guarded_fire (hd : Discipline code held) {t : T} {i : I} {w w' : World M C S T P}
    (h : Guarded held w) (step : fire code t i w = some w') : Guarded held w' := by
  cases fire_fires step with
  | reacquire m p here free =>
    have sole := h.resumes t
    rw [here] at sole
    exact h.take t m p free fun n => by simp [here, Ctl.holds, sole n]
  | lock p m q here instr free =>
    obtain ⟨_, gained⟩ := hd.lock instr
    refine h.take t m q free fun n => ?_
    by_cases hn : n = m <;> simp [here, Ctl.holds, gained, hn]
  | unlock p m q here instr =>
    obtain ⟨mine, lost⟩ := hd.unlock instr
    refine h.release t m _ (by simpa [here, Ctl.holds] using mine) (fun n => ?_) trivial
    by_cases hn : n = m <;> simp [here, Ctl.holds, lost, hn]
  | wait p c m q here instr =>
    obtain ⟨sole, same⟩ := hd.wait instr
    refine h.release t m _ (by simpa [here, Ctl.holds] using sole m) (fun n => ?_) ?_
    · simp [here, Ctl.holds, sole n]
    · simpa [Ctl.resumes, same] using sole
  | broadcast p c q here instr =>
    have woken : Guarded held (w.wakeAll c) :=
      ⟨fun m u => by simpa [holds_wake] using h.owned m u,
        fun u => by simpa [resumes_wake] using h.resumes u⟩
    refine woken.goto t _ (fun m => ?_) trivial
    simp [here, Ctl.holds, Ctl.wake, hd.broadcast instr]
  | act p f s q here instr result =>
    have stored : Guarded held (w.store s) := ⟨h.owned, h.resumes⟩
    refine stored.goto t _ (fun m => ?_) trivial
    simp [here, Ctl.holds, hd.act instr result]

theorem guarded_spurious {t : T} {w w' : World M C S T P} (h : Guarded held w)
    (step : spurious t w = some w') : Guarded held w' := by
  unfold spurious at step
  split at step
  · rename_i c m p here
    cases step
    have sole := h.resumes t
    rw [here] at sole
    exact h.goto t _ (fun n => by simp [here, Ctl.holds]) sole
  · cases step

theorem guarded_store {w : World M C S T P} (h : Guarded held w) (s : S) :
    Guarded held (w.store s) := ⟨h.owned, h.resumes⟩

/-- What a running thread owns. -/
theorem Guarded.owns {w : World M C S T P} (h : Guarded held w) {t : T} {p : P t}
    (here : w.ctl t = .run p) (m : M) : w.owner m = some t ↔ held t p m = true := by
  rw [h.owned m t, here]
  rfl

/-- Two threads never hold one mutex. -/
theorem Guarded.exclusive {w : World M C S T P} (h : Guarded held w) {t u : T} {m : M}
    (ht : (w.ctl t).holds (held t) m = true) (hu : (w.ctl u).holds (held u) m = true) :
    t = u := by
  have := (h.owned m t).mpr ht
  rw [(h.owned m u).mpr hu] at this
  exact (Option.some.inj this).symm

/-- A step takes a free mutex, gives one back that was its own, or leaves the
owners as they are. -/
theorem owner_fire (hd : Discipline code held) {t : T} {i : I} {w w' : World M C S T P}
    (h : Guarded held w) (step : fire code t i w = some w') (m : M) :
    w'.owner m = w.owner m ∨ w.owner m = none ∧ w'.owner m = some t ∨
      w.owner m = some t ∧ w'.owner m = none := by
  have takes : ∀ (n : M) (k : Ctl M C (P t)), w.owner n = none →
      ((w.give n (some t)).goto t k).owner m = w.owner m ∨
        w.owner m = none ∧ ((w.give n (some t)).goto t k).owner m = some t := by
    intro n k free
    by_cases hm : m = n
    · subst hm
      exact .inr ⟨free, give_owner_self ..⟩
    · exact .inl (give_owner_other w _ hm)
  have gives : ∀ (n : M) (k : Ctl M C (P t)), w.owner n = some t →
      ((w.give n none).goto t k).owner m = w.owner m ∨
        w.owner m = some t ∧ ((w.give n none).goto t k).owner m = none := by
    intro n k mine
    by_cases hm : m = n
    · subst hm
      exact .inr ⟨mine, give_owner_self ..⟩
    · exact .inl (give_owner_other w _ hm)
  cases fire_fires step with
  | reacquire n p here free => exact (takes n _ free).imp_right .inl
  | lock p n q here instr free => exact (takes n _ free).imp_right .inl
  | unlock p n q here instr =>
    apply (gives n _ _).imp_right .inr
    apply (h.owned n t).mpr
    rw [here]
    exact (hd.unlock instr).1
  | wait p c n q here instr =>
    apply (gives n _ _).imp_right .inr
    apply (h.owned n t).mpr
    rw [here]
    exact ((hd.wait instr).1 n).mpr rfl
  | broadcast | act => exact .inl rfl

/-- What a step does to the memory it does at a point of its thread. -/
theorem fire_mem {code : Code M C I S T P} {t : T} {i : I} {w w' : World M C S T P}
    (step : fire code t i w = some w') :
    w'.mem = w.mem ∨ ∃ p q, w.ctl t = .run p ∧ (code t p).after i w.mem = some (w'.mem, q) := by
  cases fire_fires step with
  | act p f s q here instr result =>
    refine .inr ⟨p, q, here, ?_⟩
    rw [instr]
    exact result
  | reacquire | lock | unlock | wait | broadcast => exact .inl rfl

/-! ## Progress under a lock order -/

/-- A lock goes above the mutexes held, and an action inside a critical section
never blocks. -/
def Instr.Nests {Q : Type} (rank : M → Nat) (here : M → Bool) : Instr M C I S Q → Prop
  | .lock m _ => ∀ n, here n = true → rank n < rank m
  | .act f => ∀ m, here m = true → ∀ i s, ∃ r, f i s = some r
  | .unlock _ _ | .wait _ _ _ | .broadcast _ _ | .halt => True

/-- Mutexes are nested in the order of `rank`. -/
def Ordered (code : Code M C I S T P) (held : (t : T) → P t → M → Bool) (rank : M → Nat) : Prop :=
  ∀ t p, (code t p).Nests rank (held t p)

theorem nests_map {Q R : Type} {g : Q → R} {rank : M → Nat} {here : M → Bool}
    {x : Instr M C I S Q} (h : x.Nests rank here) : (x.map g).Nests rank here := by
  cases x with
  | lock | unlock | wait | broadcast | halt => exact h
  | act f =>
    intro m mine i s
    obtain ⟨result, done⟩ := h m mine i s
    exact ⟨_, congrArg (Option.map _) done⟩

theorem nests_on {I' S' Q : Type} {input : I' → I} {part : S' → S} {put : S' → S → S'}
    {rank : M → Nat} {here : M → Bool} {x : Instr M C I S Q} (h : x.Nests rank here) :
    (x.on input part put).Nests rank here := by
  cases x with
  | lock | unlock | wait | broadcast | halt => exact h
  | act f =>
    intro m mine i s
    obtain ⟨result, done⟩ := h m mine (input i) (part s)
    exact ⟨_, congrArg (Option.map _) done⟩

theorem Ordered.lock {rank : M → Nat} (ho : Ordered code held rank) {t : T} {p q : P t} {m : M}
    (instr : code t p = .lock m q) (n : M) (mine : held t p n = true) : rank n < rank m := by
  have nested := ho t p
  rw [instr] at nested
  exact nested n mine

theorem Ordered.act {rank : M → Nat} (ho : Ordered code held rank) {t : T} {p : P t}
    {f : I → S → Option (S × P t)} (instr : code t p = .act f) {m : M}
    (mine : held t p m = true) (i : I) (s : S) : ∃ r, f i s = some r := by
  have nested := ho t p
  rw [instr] at nested
  exact nested m mine i s

/-- Thread `t` is at a lock of `m`, or wakes from a wait with it, while it is
owned. -/
def Blocked (code : Code M C I S T P) (w : World M C S T P) (t : T) (m : M) : Prop :=
  w.owner m ≠ none ∧
    ((∃ p q, w.ctl t = .run p ∧ code t p = .lock m q) ∨ ∃ p, w.ctl t = .woken m p)

/-- The owner chain of `m` ends in `u`: the owner of `m` is `u` and not blocked,
or it is blocked on a mutex whose owner chain ends in `u`. -/
inductive OwnerChain (code : Code M C I S T P) (w : World M C S T P) : M → T → Prop
  | ends {m : M} {u : T} (owner : w.owner m = some u) (free : ∀ n, ¬ Blocked code w u n) :
      OwnerChain code w m u
  | next {m n : M} {v u : T} (owner : w.owner m = some v) (blocked : Blocked code w v n)
      (rest : OwnerChain code w n u) : OwnerChain code w m u

/-- **Owner chains end.** The mutexes along a chain rise in the lock order. -/
theorem owner_chain {rank : M → Nat} {bound : Nat} (ho : Ordered code held rank)
    (bounded : ∀ m, rank m < bound) {w : World M C S T P} (h : Guarded held w) {m : M} {u : T}
    (owner : w.owner m = some u) : ∃ v, OwnerChain code w m v := by
  generalize hk : bound - rank m = k
  induction k using Nat.strongRecOn generalizing m u with
  | ind k ih =>
    by_cases blocked : ∃ n, Blocked code w u n
    · obtain ⟨n, owned, at_⟩ := blocked
      have mine := (h.owned m u).mp owner
      have above : rank m < rank n := by
        rcases at_ with ⟨p, q, here, instr⟩ | ⟨p, here⟩
        · rw [here] at mine
          exact ho.lock instr m mine
        · rw [here] at mine
          cases mine
      obtain ⟨v, next⟩ := Option.ne_none_iff_exists'.mp owned
      have := bounded n
      obtain ⟨last, rest⟩ := ih (bound - rank n) (by omega) next rfl
      exact ⟨last, .next owner ⟨owned, at_⟩ rest⟩
    · exact ⟨u, .ends owner fun n blocked_ => blocked ⟨n, blocked_⟩⟩

/-- The thread at the end of a chain owns a mutex and is not blocked. -/
theorem OwnerChain.last {w : World M C S T P} {m : M} {u : T} (h : OwnerChain code w m u) :
    ∃ n, w.owner n = some u ∧ ∀ n, ¬ Blocked code w u n := by
  induction h with
  | ends owner free => exact ⟨_, owner, free⟩
  | next _ _ _ ih => exact ih

/-- An owner that is not blocked can move, since nothing else blocks inside a
critical section. -/
theorem owner_moves {rank : M → Nat} (hd : Discipline code held) (ho : Ordered code held rank)
    {w : World M C S T P} (h : Guarded held w) {m : M} {u : T} (owner : w.owner m = some u)
    (free : ∀ n, ¬ Blocked code w u n) (i : I) : ∃ w', fire code u i w = some w' := by
  have mine := (h.owned m u).mp owner
  cases here : w.ctl u with
  | asleep c n p | woken n p =>
    rw [here] at mine
    cases mine
  | run p =>
    have holds : held u p m = true := by simpa [here, Ctl.holds] using mine
    cases instr : code u p with
    | lock n q =>
      have unowned : w.owner n = none := by
        by_contra owned
        exact free n ⟨owned, .inl ⟨p, q, here, instr⟩⟩
      exact ⟨_, by simp only [fire, here, instr, unowned]; rfl⟩
    | unlock n q => exact ⟨_, by simp only [fire, here, instr]; rfl⟩
    | wait c n q => exact ⟨_, by simp only [fire, here, instr]; rfl⟩
    | broadcast c q => exact ⟨_, by simp only [fire, here, instr]; rfl⟩
    | act f =>
      obtain ⟨r, hr⟩ := ho.act instr holds i w.mem
      exact ⟨_, by simp only [fire, here, instr, hr]; rfl⟩
    | halt => simp [hd.halt instr m] at holds

/-- **An owned mutex never blocks everyone.** Following the owners upwards in
the lock order ends at a thread that can move. -/
theorem owner_progress {rank : M → Nat} {bound : Nat} (hd : Discipline code held)
    (ho : Ordered code held rank) (bounded : ∀ m, rank m < bound) {w : World M C S T P}
    (h : Guarded held w) {m : M} {u : T} (owner : w.owner m = some u) :
    ∃ v n, w.owner n = some v ∧ ∀ i, ∃ w', fire code v i w = some w' := by
  obtain ⟨v, chain⟩ := owner_chain ho bounded h owner
  obtain ⟨n, last, free⟩ := chain.last
  exact ⟨v, n, last, owner_moves hd ho h last free⟩

end

end Ultrasight.Threads
