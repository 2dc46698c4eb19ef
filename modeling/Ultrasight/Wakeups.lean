import Ultrasight.Threads

/-!
# No lost wake-ups

A thread sleeps until the memory satisfies what it waits for. `wanted t q` is
that condition for the wait of thread `t` that resumes at `q`; `Signalled`
collects what the code has to do for it (test before sleeping, change under the
mutex of the wait, broadcast after the change), and `wakeful_fire` concludes
that a thread whose condition holds does not stay asleep unless a broadcast is
about to come. `blocked_cases` says what is left to be checked when no thread
can move.
-/

set_option linter.unusedSectionVars false

namespace Ultrasight.Threads

section
variable {M C I S T : Type} {P : T → Type} [DecidableEq M] [DecidableEq C] [DecidableEq T]

structure Signalled (code : Code M C I S T P) (held : (t : T) → P t → M → Bool)
    (wanted : (t : T) → P t → S → Bool) : Prop where
  /-- A wait is only reached by a test that fails. -/
  tested : ∀ t p i s s' q, (code t p).after i s = some (s', q) →
    ∀ c m q', code t q = .wait c m q' → wanted t q' s' = false
  /-- A wait does not resume at a wait. -/
  resumed : ∀ t p c m q, code t p = .wait c m q → ∀ c' m' q', code t q ≠ .wait c' m' q'
  /-- What makes a condition true holds its mutex and goes on to a broadcast. -/
  announced : ∀ t p c m q, code t p = .wait c m q → ∀ u p' i s s' q',
    (code u p').after i s = some (s', q') → wanted t q s = false → wanted t q s' = true →
      held u p' m = true ∧ ∃ q'', code u q' = .broadcast c q''

/-- Some thread is about to broadcast. -/
def Announces (code : Code M C I S T P) (w : World M C S T P) (c : C) : Prop :=
  ∃ u p q, w.ctl u = .run p ∧ code u p = .broadcast c q

structure Wakeful (code : Code M C I S T P) (wanted : (t : T) → P t → S → Bool)
    (w : World M C S T P) : Prop where
  waits : ∀ t c m q, w.ctl t = .asleep c m q → ∃ p, code t p = .wait c m q
  resumes : ∀ t m q, w.ctl t = .woken m q → ∃ p c, code t p = .wait c m q
  asleep : ∀ t c m q, w.ctl t = .asleep c m q → wanted t q w.mem = true → Announces code w c
  tested : ∀ t p c m q, w.ctl t = .run p → code t p = .wait c m q → wanted t q w.mem = false

variable {code : Code M C I S T P} {held : (t : T) → P t → M → Bool}
  {wanted : (t : T) → P t → S → Bool}

/-- A step of `t` that is no broadcast leaves the announcements of others. -/
theorem Announces.goto {w : World M C S T P} {c : C} (h : Announces code w c) {t : T}
    (k : Ctl M C (P t)) (silent : ∀ p q, w.ctl t = .run p → code t p ≠ .broadcast c q) :
    Announces code (w.goto t k) c := by
  obtain ⟨u, p, q, here, instr⟩ := h
  have other : u ≠ t := by
    rintro rfl
    exact silent p q here instr
  exact ⟨u, p, q, (goto_other w k other).trans here, instr⟩

/-- What a thread other than the one that moves needs, when the memory stays. -/
theorem Wakeful.goto {w : World M C S T P} (h : Wakeful code wanted w) (t : T)
    (k : Ctl M C (P t)) (silent : ∀ p c q, w.ctl t = .run p → code t p ≠ .broadcast c q)
    (waits : ∀ c m q, k = .asleep c m q →
      (∃ p, code t p = .wait c m q) ∧ wanted t q w.mem = false)
    (resumes : ∀ m q, k = .woken m q → ∃ p c, code t p = .wait c m q)
    (tested : ∀ p c m q, k = .run p → code t p = .wait c m q → wanted t q w.mem = false) :
    Wakeful code wanted (w.goto t k) := by
  constructor
  · intro v c m q here
    by_cases hv : v = t
    · subst hv
      exact (waits c m q (by simpa using here)).1
    · exact h.waits v c m q (by simpa [goto_other _ _ hv] using here)
  · intro v m q here
    by_cases hv : v = t
    · subst hv
      exact resumes m q (by simpa using here)
    · exact h.resumes v m q (by simpa [goto_other _ _ hv] using here)
  · intro v c m q here want
    by_cases hv : v = t
    · subst hv
      have := (waits c m q (by simpa using here)).2
      simp only [goto_mem] at want
      rw [this] at want
      cases want
    · have before := h.asleep v c m q (by simpa [goto_other _ _ hv] using here) want
      exact before.goto k fun p q' => silent p c q'
  · intro v p c m q here instr
    by_cases hv : v = t
    · subst hv
      exact tested p c m q (by simpa using here) instr
    · exact h.tested v p c m q (by simpa [goto_other _ _ hv] using here) instr

theorem wakeful_give {w : World M C S T P} (h : Wakeful code wanted w) (m : M) (o : Option T) :
    Wakeful code wanted (w.give m o) := ⟨h.waits, h.resumes, h.asleep, h.tested⟩

/-- After a broadcast nobody sleeps on its condition variable. -/
theorem wakeful_broadcast {w : World M C S T P} (h : Wakeful code wanted w) {t : T} {p q : P t}
    {c : C} (here : w.ctl t = .run p) (instr : code t p = .broadcast c q)
    (leads : ∀ c' m q', code t q = .wait c' m q' → wanted t q' w.mem = false) :
    Wakeful code wanted ((w.wakeAll c).goto t (.run q)) := by
  have asleep : ∀ {v c' m q'}, (w.ctl v).wake c = .asleep c' m q' →
      w.ctl v = .asleep c' m q' ∧ c' ≠ c := by
    intro v c' m q' sleeps
    cases hv : w.ctl v with
    | run | woken => simp [hv, Ctl.wake] at sleeps
    | asleep c₁ m₁ q₁ =>
      by_cases same : c₁ = c
      · simp [hv, Ctl.wake, same] at sleeps
      · simp only [hv, Ctl.wake, if_neg same, Ctl.asleep.injEq] at sleeps
        obtain ⟨rfl, rfl, rfl⟩ := sleeps
        exact ⟨rfl, same⟩
  have stays : ∀ {v p'}, (w.ctl v).wake c = .run p' → w.ctl v = .run p' := by
    intro v p' runs
    cases hv : w.ctl v with
    | run => simpa [hv, Ctl.wake] using runs
    | woken => simp [hv, Ctl.wake] at runs
    | asleep c₁ m₁ q₁ => by_cases same : c₁ = c <;> simp [hv, Ctl.wake, same] at runs
  constructor
  · intro v c' m q' sleeps
    by_cases hv : v = t
    · subst hv; simp at sleeps
    · simp only [goto_other _ _ hv, wakeAll_ctl] at sleeps
      exact h.waits v c' m q' (asleep sleeps).1
  · intro v m q' wakes
    by_cases hv : v = t
    · subst hv; simp at wakes
    · simp only [goto_other _ _ hv, wakeAll_ctl] at wakes
      cases hc : w.ctl v with
      | run => simp [hc, Ctl.wake] at wakes
      | woken m₁ q₁ =>
        simp only [hc, Ctl.wake, Ctl.woken.injEq] at wakes
        obtain ⟨rfl, rfl⟩ := wakes
        exact h.resumes v m₁ q₁ hc
      | asleep c₁ m₁ q₁ =>
        by_cases same : c₁ = c
        · simp only [hc, Ctl.wake, if_pos same, Ctl.woken.injEq] at wakes
          obtain ⟨rfl, rfl⟩ := wakes
          obtain ⟨p', instr'⟩ := h.waits v c₁ m₁ q₁ hc
          exact ⟨p', c₁, instr'⟩
        · simp [hc, Ctl.wake, same] at wakes
  · intro v c' m q' sleeps want
    by_cases hv : v = t
    · subst hv; simp at sleeps
    · simp only [goto_other _ _ hv, wakeAll_ctl] at sleeps
      obtain ⟨before, other⟩ := asleep sleeps
      obtain ⟨u, p', q'', runs, announces⟩ := h.asleep v c' m q' before want
      have hu : u ≠ t := by
        rintro rfl
        obtain rfl : p' = p := by simpa [here] using runs.symm
        rw [instr] at announces
        cases announces
        exact other rfl
      exact ⟨u, p', q'', by simp [goto_other _ _ hu, runs, Ctl.wake], announces⟩
  · intro v p' c' m q' runs waiting
    by_cases hv : v = t
    · subst hv
      obtain rfl : q = p' := by simpa using runs
      exact leads c' m q' waiting
    · simp only [goto_other _ _ hv, wakeAll_ctl] at runs
      exact h.tested v p' c' m q' (stays runs) waiting

/-- A thread that takes or releases a mutex and goes on. -/
theorem wakeful_passes {w : World M C S T P} (h : Wakeful code wanted w) {t : T} {p q : P t}
    (here : w.ctl t = .run p) (silent : ∀ c q', code t p ≠ .broadcast c q')
    (leads : ∀ c m q', code t q = .wait c m q' → wanted t q' w.mem = false) (m : M)
    (o : Option T) : Wakeful code wanted ((w.give m o).goto t (.run q)) := by
  apply (wakeful_give h m o).goto
  · intro p' c q' runs
    simp only [give_ctl, here, Ctl.run.injEq] at runs
    subst runs
    exact silent c q'
  · simp
  · simp
  · intro p' c m' q' eq waiting
    cases eq
    exact leads c m' q' waiting

/-- A thread that acts on the memory: it announces what it makes true, in the
critical section of those who wait for it. -/
theorem wakeful_act (hd : Discipline code held) (hs : Signalled code held wanted) {t : T} {i : I}
    {w : World M C S T P} (hg : Guarded held w) (h : Wakeful code wanted w) {p q : P t}
    {f : I → S → Option (S × P t)} {s : S} (here : w.ctl t = .run p) (instr : code t p = .act f)
    (result : f i w.mem = some (s, q)) : Wakeful code wanted ((w.store s).goto t (.run q)) := by
  have after : (code t p).after i w.mem = some (s, q) := by rw [instr]; exact result
  have silent : ∀ p' c q', w.ctl t = .run p' → code t p' ≠ .broadcast c q' := by
    intro p' c q' runs
    obtain rfl : p = p' := by simpa [here] using runs
    simp [instr]
  constructor
  · intro v c m q' sleeps
    by_cases hv : v = t
    · subst hv; simp at sleeps
    · exact h.waits v c m q' (by simpa [goto_other _ _ hv] using sleeps)
  · intro v m q' wakes
    by_cases hv : v = t
    · subst hv; simp at wakes
    · exact h.resumes v m q' (by simpa [goto_other _ _ hv] using wakes)
  · intro v c m q' sleeps want
    by_cases hv : v = t
    · subst hv; simp at sleeps
    · have before : w.ctl v = .asleep c m q' := by simpa [goto_other _ _ hv] using sleeps
      cases already : wanted v q' w.mem with
      | true =>
        have announced : Announces code (w.store s) c := h.asleep v c m q' before already
        exact announced.goto _ fun p' q'' => silent p' c q''
      | false =>
        obtain ⟨p₀, waiting⟩ := h.waits v c m q' before
        obtain ⟨_, q'', next⟩ := hs.announced v p₀ c m q' waiting t p i w.mem s q after already want
        exact ⟨t, q, q'', by simp, next⟩
  · intro v p' c m q' runs waiting
    by_cases hv : v = t
    · subst hv
      obtain rfl : q = p' := by simpa using runs
      exact hs.tested v p i w.mem s q after c m q' waiting
    · have before : w.ctl v = .run p' := by simpa [goto_other _ _ hv] using runs
      have unwanted := h.tested v p' c m q' before waiting
      cases want : wanted v q' s with
      | false => exact want
      | true =>
        -- both would stand inside the critical section of the mutex of the wait
        obtain ⟨mine, _⟩ := hs.announced v p' c m q' waiting t p i w.mem s q after unwanted want
        have its : held v p' m = true := ((hd.wait waiting).1 m).mpr rfl
        have inside : (w.ctl v).holds (held v) m = true := by simpa [before, Ctl.holds] using its
        have acting : (w.ctl t).holds (held t) m = true := by simpa [here, Ctl.holds] using mine
        exact absurd (hg.exclusive inside acting) hv

/-- **No wake-up is lost.** A step keeps every thread whose condition holds
from sleeping without a broadcast ahead. -/
theorem wakeful_fire (hd : Discipline code held) (hs : Signalled code held wanted) {t : T} {i : I}
    {w w' : World M C S T P} (hg : Guarded held w) (h : Wakeful code wanted w)
    (step : fire code t i w = some w') : Wakeful code wanted w' := by
  cases fire_fires step with
  | reacquire m p here free =>
    obtain ⟨p₀, c, instr⟩ := h.resumes t m p here
    apply (wakeful_give h m (some t)).goto
    · intro p' c' q' runs
      simp [here] at runs
    · simp
    · simp
    · intro p' c' m' q' eq waiting
      cases eq
      exact absurd waiting (hs.resumed t p₀ c m p instr c' m' q')
  | lock p m q here instr free =>
    apply wakeful_passes h here (by simp [instr])
    exact hs.tested t p i w.mem w.mem q (by rw [instr]; rfl)
  | unlock p m q here instr =>
    apply wakeful_passes h here (by simp [instr])
    exact hs.tested t p i w.mem w.mem q (by rw [instr]; rfl)
  | wait p c m q here instr =>
    apply (wakeful_give h m none).goto
    · intro p' c' q' runs
      simp only [give_ctl, here, Ctl.run.injEq] at runs
      subst runs
      simp [instr]
    · intro c' m' q' eq
      cases eq
      exact ⟨⟨p, instr⟩, h.tested t p c m q here instr⟩
    · simp
    · simp
  | broadcast p c q here instr =>
    apply wakeful_broadcast h here instr
    exact hs.tested t p i w.mem w.mem q (by rw [instr]; rfl)
  | act p f s q here instr result => exact wakeful_act hd hs hg h here instr result

theorem wakeful_spurious {t : T} {w w' : World M C S T P} (h : Wakeful code wanted w)
    (step : spurious t w = some w') : Wakeful code wanted w' := by
  unfold spurious at step
  split at step
  · rename_i c m p here
    cases step
    apply h.goto
    · intro p' c' q' runs
      simp [here] at runs
    · simp
    · intro m' q' eq
      cases eq
      obtain ⟨p₀, instr⟩ := h.waits t c m p here
      exact ⟨p₀, c, instr⟩
    · simp
  · cases step

/-- The environment may change what no thread waits for. -/
theorem wakeful_store {w : World M C S T P} (h : Wakeful code wanted w) {s : S}
    (same : ∀ t q, wanted t q s = wanted t q w.mem) : Wakeful code wanted (w.store s) := by
  refine ⟨h.waits, h.resumes, ?_, ?_⟩
  · intro t c m q sleeps want
    exact h.asleep t c m q sleeps (by rw [← same]; exact want)
  · intro t p c m q runs waiting
    rw [store_mem, same]
    exact h.tested t p c m q runs waiting

/-- **When no thread can move**, every thread is asleep on a condition that
does not hold, or stands at an action that is not possible, or has ended. -/
theorem blocked_cases {rank : M → Nat} {bound : Nat} (hd : Discipline code held)
    (ho : Ordered code held rank) (bounded : ∀ m, rank m < bound) {w : World M C S T P}
    (hg : Guarded held w) (h : Wakeful code wanted w) {i : I}
    (blocked : ∀ t, fire code t i w = none) (t : T) :
    (∃ c m q, w.ctl t = .asleep c m q ∧ wanted t q w.mem = false) ∨
      ∃ p, w.ctl t = .run p ∧ (code t p).after i w.mem = none := by
  have moves : ∀ {u : T} {w' : World M C S T P}, fire code u i w = some w' → False := by
    intro u w' moved
    rw [blocked u] at moved
    cases moved
  have free : ∀ m, w.owner m = none := by
    intro m
    cases owner : w.owner m with
    | none => rfl
    | some u =>
      obtain ⟨v, _, _, able⟩ := owner_progress hd ho bounded hg owner
      obtain ⟨w', moved⟩ := able i
      exact (moves moved).elim
  cases here : w.ctl t with
  | asleep c m q =>
    refine .inl ⟨c, m, q, rfl, ?_⟩
    cases want : wanted t q w.mem with
    | false => rfl
    | true =>
      obtain ⟨u, p, q', runs, announces⟩ := h.asleep t c m q here want
      exact (moves (u := u) (by simp only [fire, runs, announces]; rfl)).elim
  | woken m q => exact (moves (u := t) (by simp only [fire, here, free]; rfl)).elim
  | run p =>
    refine .inr ⟨p, rfl, ?_⟩
    cases instr : code t p with
    | lock m q => exact (moves (u := t) (by simp only [fire, here, instr, free]; rfl)).elim
    | unlock m q => exact (moves (u := t) (by simp only [fire, here, instr]; rfl)).elim
    | wait c m q => exact (moves (u := t) (by simp only [fire, here, instr]; rfl)).elim
    | broadcast c q => exact (moves (u := t) (by simp only [fire, here, instr]; rfl)).elim
    | act f =>
      cases result : f i w.mem with
      | none => exact result
      | some r => exact (moves (u := t) (by simp only [fire, here, instr, result]; rfl)).elim
    | halt => rfl

end

end Ultrasight.Threads
