import Ultrasight.Threads

/-!
# Critical sections are atomic

A part of the memory belongs to a mutex if only its owner changes it. Then the
threads may be interleaved in any way: the part is what whole critical sections,
executed one after the other, have made of it.

* `Within`: the steps of one thread inside a critical section, as far as the
  part sees them;
* `Serial`: whole sections one after the other;
* `atomic_fire`: every step of every interleaving keeps to a serial execution,
  and what it puts out comes in the same order there.
-/

set_option linter.unusedSectionVars false

namespace Ultrasight.Threads

section
variable {M C I S T V O : Type} {P : T → Type} [DecidableEq M] [DecidableEq C] [DecidableEq T]

/-- Behind this point the mutex is given up, for good or for a wait. -/
def LeavesAt (code : Code M C I S T P) (m : M) (t : T) (p : P t) : Prop :=
  ∃ q, code t p = .unlock m q ∨ ∃ c, code t p = .wait c m q

/-- A critical section begins here, behind a lock or a wait. -/
def EntersAt (code : Code M C I S T P) (m : M) (t : T) (p : P t) : Prop :=
  ∃ before, code t before = .lock m p ∨ ∃ c, code t before = .wait c m p

/-- Outside of its critical sections nobody changes the part or puts anything
out, and nobody puts anything out in leaving one. -/
structure Belongs (code : Code M C I S T P) (held : (t : T) → P t → M → Bool) (m : M)
    (part : S → V) (emit : (t : T) → P t → I → List O) : Prop where
  outside : ∀ t p i s s' q, (code t p).after i s = some (s', q) → held t p m = false →
    part s' = part s
  silent : ∀ t p i, held t p m = false → emit t p i = []
  leaving : ∀ t p i, LeavesAt code m t p → emit t p i = []

/-- A step from `p` to `q` on some memory, seen through `part`. -/
def PartStep (code : Code M C I S T P) (part : S → V) (t : T) (i : I) (p : P t) (v : V) (q : P t)
    (v' : V) : Prop :=
  ∃ s s', (code t p).after i s = some (s', q) ∧ part s = v ∧ part s' = v'

/-- Inside a section of `t` that began at `p` with `v`. -/
inductive Within (code : Code M C I S T P) (m : M) (part : S → V)
    (emit : (t : T) → P t → I → List O) (t : T) (p : P t) (v : V) : P t → V → List O → Prop
  | enter : Within code m part emit t p v p v []
  | step {q r : P t} {u u' : V} {out : List O} {i : I} :
      Within code m part emit t p v q u out → ¬ LeavesAt code m t q →
      PartStep code part t i q u r u' → Within code m part emit t p v r u' (out ++ emit t q i)

/-- Whole sections, one after the other. -/
inductive Serial (code : Code M C I S T P) (m : M) (part : S → V)
    (emit : (t : T) → P t → I → List O) (first : V) : V → List O → Prop
  | start : Serial code m part emit first first []
  | next {v v' : V} {out inner : List O} {t : T} {p q : P t} :
      Serial code m part emit first v out → EntersAt code m t p →
      Within code m part emit t p v q v' inner → LeavesAt code m t q →
      Serial code m part emit first v' (out ++ inner)

/-- What a step of `t` on input `i` puts out. -/
def output (emit : (t : T) → P t → I → List O) (w : World M C S T P) (t : T) (i : I) : List O :=
  match w.ctl t with
  | .run p => emit t p i
  | .asleep _ _ _ | .woken _ _ => []

/-- A wait with the mutex, sleeping or woken, that resumes at `p`. -/
def Ctl.WaitsWith {Q : Type} (m : M) (p : Q) (k : Ctl M C Q) : Prop :=
  k = .woken m p ∨ ∃ c, k = .asleep c m p

/-- The part is what a serial execution made of it, up to the section that its
owner is in. -/
structure Atomic (code : Code M C I S T P) (m : M) (part : S → V)
    (emit : (t : T) → P t → I → List O) (first : V) (w : World M C S T P) (out : List O) :
    Prop where
  waiting : ∀ t p, (w.ctl t).WaitsWith m p → EntersAt code m t p
  free : w.owner m = none → Serial code m part emit first (part w.mem) out
  owned : ∀ t, w.owner m = some t → ∃ v before p q inner, w.ctl t = .run q ∧
    Serial code m part emit first v before ∧ EntersAt code m t p ∧
    Within code m part emit t p v q (part w.mem) inner ∧ out = before ++ inner

variable {code : Code M C I S T P} {held : (t : T) → P t → M → Bool} {m : M} {part : S → V}
  {emit : (t : T) → P t → I → List O} {first : V} {w w' : World M C S T P} {out : List O}

omit [DecidableEq M] [DecidableEq C] [DecidableEq T] in
/-- What holds at the beginning of a section and is kept by its steps holds inside. -/
theorem Within.invariant {t : T} {p q : P t} {v u : V} {out : List O}
    {Inv : P t → V → List O → Prop} (begins : Inv p v [])
    (keep : ∀ q r u u' out i, Inv q u out → ¬ LeavesAt code m t q → PartStep code part t i q u r u' →
      Inv r u' (out ++ emit t q i))
    (h : Within code m part emit t p v q u out) : Inv q u out := by
  induction h with
  | enter => exact begins
  | step _ stays step ih => exact keep _ _ _ _ _ _ ih stays step

/-- What every section keeps, serial executions keep. -/
theorem Serial.invariant {Inv : V → List O → Prop} (begins : Inv first [])
    (keep : ∀ v out t p q v' inner, Inv v out → EntersAt code m t p →
      Within code m part emit t p v q v' inner → LeavesAt code m t q → Inv v' (out ++ inner))
    {v : V} (h : Serial code m part emit first v out) : Inv v out := by
  induction h with
  | start => exact begins
  | next _ enters within leaves ih => exact keep _ _ _ _ _ _ _ ih enters within leaves

theorem atomic_start (awake : ∀ t, ∃ p, w.ctl t = .run p) (free : ∀ n, w.owner n = none) :
    Atomic code m part emit (part w.mem) w [] := by
  constructor
  · intro t p waits
    obtain ⟨q, runs⟩ := awake t
    rw [runs] at waits
    rcases waits with waits | ⟨c, waits⟩ <;> cases waits
  · intro _
    exact .start
  · intro t owner
    rw [free m] at owner
    cases owner

theorem waitsWith_wake {Q : Type} {p : Q} {k : Ctl M C Q} {c : C}
    (h : (k.wake c).WaitsWith m p) : k.WaitsWith m p := by
  cases k with
  | run | woken => exact h
  | asleep c' n q =>
    by_cases same : c' = c
    · simp only [Ctl.wake, if_pos same, Ctl.WaitsWith] at h
      rcases h with h | ⟨c₁, h⟩
      · cases h
        exact .inr ⟨c', rfl⟩
      · cases h
    · simpa only [Ctl.wake, if_neg same] using h

/-- A thread that waits with the mutex resumes inside a section. -/
theorem waiting_fire (h : ∀ t p, (w.ctl t).WaitsWith m p → EntersAt code m t p) {t : T} {i : I}
    (step : fire code t i w = some w') (u : T) (p : P u) (waits : (w'.ctl u).WaitsWith m p) :
    EntersAt code m u p := by
  by_cases hu : u = t
  · subst hu
    cases fire_fires step with
    | wait q c n r here instr =>
      rw [goto_self] at waits
      rcases waits with waits | ⟨c', waits⟩
      · cases waits
      · cases waits
        exact ⟨q, .inr ⟨c, instr⟩⟩
    | reacquire | lock | unlock | broadcast | act =>
      rw [goto_self] at waits
      rcases waits with waits | ⟨c', waits⟩
      · cases waits
      · cases waits
  · apply h u p
    cases fire_fires step with
    | broadcast q c =>
      rw [goto_other _ _ hu, wakeAll_ctl] at waits
      exact waitsWith_wake waits
    | reacquire | lock | unlock | wait | act =>
      rw [goto_other _ _ hu] at waits
      exact waits

/-! ## A step -/

/-- What the thread at `q` puts out is what its step puts out. -/
theorem output_run {t : T} {q : P t} (here : w.ctl t = .run q) (i : I) :
    output emit w t i = emit t q i := by
  simp only [output, here]

/-- A thread that does not hold the mutex neither changes the part nor puts
anything out. -/
theorem outside_fire (hb : Belongs code held m part emit) {t : T} {i : I}
    (none : (w.ctl t).holds (held t) m = false) (step : fire code t i w = some w') :
    part w'.mem = part w.mem ∧ output emit w t i = [] := by
  constructor
  · rcases fire_mem step with same | ⟨p, q, here, after⟩
    · rw [same]
    · rw [here] at none
      exact hb.outside t p i _ _ q after none
  · unfold output
    split
    · rename_i p here
      rw [here] at none
      exact hb.silent t p i none
    · rfl
    · rfl

/-- The owner goes on inside its section. -/
theorem Atomic.inside (h : Atomic code m part emit first w out) {t : T} {i : I} {q r : P t}
    (owner : w.owner m = some t) (here : w.ctl t = .run q) (stays : ¬ LeavesAt code m t q)
    (after : (code t q).after i w.mem = some (w'.mem, r)) (there : w'.ctl t = .run r)
    (same : w'.owner m = some t) (waiting : ∀ u p, (w'.ctl u).WaitsWith m p → EntersAt code m u p) :
    Atomic code m part emit first w' (out ++ output emit w t i) := by
  obtain ⟨v, before, p, q', inner, at_, serial, enters, within, rfl⟩ := h.owned t owner
  obtain rfl : q = q' := by
    rw [here] at at_
    cases at_
    rfl
  refine ⟨waiting, fun none => ?_, fun u mine => ?_⟩
  · rw [same] at none
    cases none
  · rw [same] at mine
    cases mine
    have next := within.step stays ⟨w.mem, w'.mem, after, rfl, rfl⟩
    refine ⟨v, before, p, r, _, there, serial, enters, next, ?_⟩
    rw [output_run here, List.append_assoc]

/-- The owner leaves its section. -/
theorem Atomic.leave (hb : Belongs code held m part emit) (h : Atomic code m part emit first w out)
    {t : T} {i : I} {q : P t} (owner : w.owner m = some t) (here : w.ctl t = .run q)
    (leaves : LeavesAt code m t q) (mem : w'.mem = w.mem) (free : w'.owner m = none)
    (waiting : ∀ u p, (w'.ctl u).WaitsWith m p → EntersAt code m u p) :
    Atomic code m part emit first w' (out ++ output emit w t i) := by
  obtain ⟨v, before, p, q', inner, at_, serial, enters, within, rfl⟩ := h.owned t owner
  obtain rfl : q = q' := by
    rw [here] at at_
    cases at_
    rfl
  refine ⟨waiting, fun _ => ?_, fun u mine => ?_⟩
  · rw [output_run here, hb.leaving t q i leaves, List.append_nil, mem]
    exact serial.next enters within leaves
  · rw [free] at mine
    cases mine

/-- A thread takes the free mutex and enters a section. -/
theorem Atomic.enter (h : Atomic code m part emit first w out) {t : T} {p : P t}
    (free : w.owner m = none) (enters : EntersAt code m t p) (mem : w'.mem = w.mem)
    (taken : w'.owner m = some t) (there : w'.ctl t = .run p)
    (waiting : ∀ u p, (w'.ctl u).WaitsWith m p → EntersAt code m u p) :
    Atomic code m part emit first w' out := by
  refine ⟨waiting, fun none => ?_, fun u mine => ?_⟩
  · rw [taken] at none
    cases none
  · rw [taken] at mine
    cases mine
    refine ⟨part w.mem, out, p, p, [], there, h.free free, enters, ?_, (List.append_nil out).symm⟩
    rw [mem]
    exact .enter

/-- A thread outside of all sections leaves everyone where they are. -/
theorem Atomic.aside (h : Atomic code m part emit first w out) {t : T}
    (other : w.owner m ≠ some t) (same : w'.owner m = w.owner m) (part_ : part w'.mem = part w.mem)
    (others : ∀ u, u ≠ t → ∀ q, w.ctl u = .run q → w'.ctl u = .run q)
    (waiting : ∀ u p, (w'.ctl u).WaitsWith m p → EntersAt code m u p) :
    Atomic code m part emit first w' out := by
  refine ⟨waiting, fun none => ?_, fun u mine => ?_⟩
  · rw [part_]
    exact h.free (same.symm.trans none)
  · have owner := same.symm.trans mine
    obtain ⟨v, before, p, q, inner, here, rest⟩ := h.owned u owner
    have hu : u ≠ t := by
      rintro rfl
      exact other owner
    refine ⟨v, before, p, q, inner, others u hu q here, ?_⟩
    rw [part_]
    exact rest

/-- A step leaves the other threads running where they are. -/
theorem fire_running {t u : T} {i : I} (step : fire code t i w = some w') (other : u ≠ t)
    {q : P u} (here : w.ctl u = .run q) : w'.ctl u = .run q := by
  rcases fire_wakes step other with same | ⟨c, woken⟩
  · exact same.trans here
  · rw [woken, here]
    rfl

theorem atomic_outside (hd : Discipline code held) (hb : Belongs code held m part emit)
    (h : Atomic code m part emit first w out) {t : T} {i : I}
    (none : (w.ctl t).holds (held t) m = false) (other : w.owner m ≠ some t)
    (step : fire code t i w = some w') : Atomic code m part emit first w' out := by
  have waiting := waiting_fire h.waiting step
  have part_ := (outside_fire hb none step).1
  have others := fun u hu q => fire_running (u := u) (q := q) step hu
  cases fire_fires step with
  | reacquire n p here free =>
    by_cases hn : n = m
    · subst hn
      exact h.enter free (h.waiting t p (.inl here)) rfl (give_owner_self ..) (goto_self ..) waiting
    · exact h.aside other (give_owner_other w _ (Ne.symm hn)) part_ others waiting
  | lock p n q here instr free =>
    by_cases hn : n = m
    · subst hn
      exact h.enter free ⟨p, .inl instr⟩ rfl (give_owner_self ..) (goto_self ..) waiting
    · exact h.aside other (give_owner_other w _ (Ne.symm hn)) part_ others waiting
  | unlock p n q here instr =>
    have hn : m ≠ n := by
      rintro rfl
      rw [here, Ctl.holds, (hd.unlock instr).1] at none
      cases none
    exact h.aside other (give_owner_other w _ hn) part_ others waiting
  | wait p c n q here instr =>
    have hn : m ≠ n := by
      rintro rfl
      rw [here, Ctl.holds, ((hd.wait instr).1 m).mpr rfl] at none
      cases none
    exact h.aside other (give_owner_other w _ hn) part_ others waiting
  | broadcast | act => exact h.aside other rfl part_ others waiting

theorem atomic_inside (hd : Discipline code held) (hb : Belongs code held m part emit)
    (guarded : Guarded held w) (h : Atomic code m part emit first w out) {t : T} {i : I} {p : P t}
    (owner : w.owner m = some t) (here : w.ctl t = .run p) (step : fire code t i w = some w') :
    Atomic code m part emit first w' (out ++ output emit w t i) := by
  have waiting := waiting_fire h.waiting step
  have mine := (guarded.owns here m).mp owner
  cases fire_fires step with
  | reacquire n q at_ =>
    rw [here] at at_
    cases at_
  | lock p' n q at_ instr free =>
    cases here.symm.trans at_
    have hn : m ≠ n := by
      rintro rfl
      rw [owner] at free
      cases free
    refine h.inside owner here ?_ (by rw [instr]; rfl) (goto_self ..) ?_ waiting
    · rintro ⟨r, leaves | ⟨c, leaves⟩⟩
      · cases instr.symm.trans leaves
      · cases instr.symm.trans leaves
    · exact (give_owner_other w _ hn).trans owner
  | unlock p' n q at_ instr =>
    cases here.symm.trans at_
    by_cases hn : n = m
    · subst hn
      exact h.leave hb owner here ⟨q, .inl instr⟩ rfl (give_owner_self ..) waiting
    · refine h.inside owner here ?_ (by rw [instr]; rfl) (goto_self ..) ?_ waiting
      · rintro ⟨r, leaves | ⟨c, leaves⟩⟩
        · cases instr.symm.trans leaves
          exact hn rfl
        · cases instr.symm.trans leaves
      · exact (give_owner_other w _ (Ne.symm hn)).trans owner
  | wait p' c n q at_ instr =>
    cases here.symm.trans at_
    obtain rfl : m = n := ((hd.wait instr).1 m).mp mine
    exact h.leave hb owner here ⟨q, .inr ⟨c, instr⟩⟩ rfl (give_owner_self ..) waiting
  | broadcast p' c q at_ instr =>
    cases here.symm.trans at_
    refine h.inside owner here ?_ (by rw [instr]; rfl) (goto_self ..) owner waiting
    rintro ⟨r, leaves | ⟨c', leaves⟩⟩
    · cases instr.symm.trans leaves
    · cases instr.symm.trans leaves
  | act p' f s q at_ instr result =>
    cases here.symm.trans at_
    refine h.inside owner here ?_ (by rw [instr]; exact result) (goto_self ..) owner waiting
    rintro ⟨r, leaves | ⟨c', leaves⟩⟩
    · cases instr.symm.trans leaves
    · cases instr.symm.trans leaves

/-- **Critical sections are atomic.** A step of any thread, in any interleaving,
keeps to a serial execution of whole sections. -/
theorem atomic_fire (hd : Discipline code held) (hb : Belongs code held m part emit)
    (guarded : Guarded held w) (h : Atomic code m part emit first w out) {t : T} {i : I}
    (step : fire code t i w = some w') :
    Atomic code m part emit first w' (out ++ output emit w t i) := by
  cases mine : (w.ctl t).holds (held t) m with
  | true =>
    have owner := (guarded.owned m t).mpr mine
    obtain ⟨_, _, _, p, _, here, _⟩ := h.owned t owner
    exact atomic_inside hd hb guarded h owner here step
  | false =>
    have other : w.owner m ≠ some t := by
      intro owner
      rw [(guarded.owned m t).mp owner] at mine
      cases mine
    rw [(outside_fire hb mine step).2, List.append_nil]
    exact atomic_outside hd hb h mine other step

theorem atomic_spurious (h : Atomic code m part emit first w out) {t : T}
    (step : spurious t w = some w') : Atomic code m part emit first w' out := by
  unfold spurious at step
  split at step
  · rename_i c n p here
    cases step
    constructor
    · intro u q waits
      by_cases hu : u = t
      · subst hu
        rw [goto_self] at waits
        rcases waits with waits | ⟨c', waits⟩
        · cases waits
          exact h.waiting u q (.inr ⟨c, here⟩)
        · cases waits
      · rw [goto_other _ _ hu] at waits
        exact h.waiting u q waits
    · exact h.free
    · intro u owner
      obtain ⟨v, before, p', q, inner, at_, rest⟩ := h.owned u owner
      refine ⟨v, before, p', q, inner, ?_, rest⟩
      by_cases hu : u = t
      · subst hu
        cases at_.symm.trans here
      · rw [goto_other _ _ hu]
        exact at_
  · cases step

end

end Ultrasight.Threads
