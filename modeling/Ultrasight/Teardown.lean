import Ultrasight.Deadlock

/-!
# The teardown

Behind `pthread_join`, `fini_trace` exports and frees the trace buffer, shuts
CSAL down and destroys the mutexes and condition variables. In every run, with
any failures, the parent is then alone.
-/

namespace Ultrasight.Handshake

open Threads TraceState TraceEvent

variable {r : Ring}

/-- Behind `pthread_join`. -/
def ParentPc.tearing : ParentPc → Bool
  | .exportTrace | .cleanUp | .done => true
  | .set _ _ | .setCpuAffinity | .enable _ | .detach | .waitpid | .branch | .disable _
  | .join => false

/-- The fetcher has returned if its thread says so, and the parent has passed its
join only then. -/
structure Joined (v : View r) : Prop where
  ended : v.mem.fetcherReturned = true → v.fetcher = .returned
  joined : v.parent.tearing = true → v.mem.fetcherReturned = true

theorem tearing_iff {p : ParentPc} :
    p.tearing = true ↔ p = .exportTrace ∨ p = .cleanUp ∨ p = .done := by
  cases p <;> simp [ParentPc.tearing]

/-- Nobody but the fetcher says that it has returned. -/
theorem Joined.outside {v : View r} (h : Joined v) {m : Mem r}
    (same : m.fetcherReturned = v.mem.fetcherReturned) : Joined ⟨m, v.parent, v.fetcher⟩ := by
  constructor
  · rw [same]
    exact h.ended
  · rw [same]
    exact h.joined

theorem joined_move {threshold : BitVec 64} {v v' : View r} {a : Action} (h : Joined v)
    (moved : Move threshold v a v') : Joined v' := by
  cases moved with
  | still => exact h
  | parent o m' q moved =>
    constructor
    · rw [moved.returned]
      exact h.ended
    · intro tearing
      rw [moved.returned]
      rcases moved.joined (tearing_iff.mp tearing) with at_ | at_ | at_ | returned
      · exact h.joined (tearing_iff.mpr (.inl at_))
      · exact h.joined (tearing_iff.mpr (.inr (.inl at_)))
      · exact h.joined (tearing_iff.mpr (.inr (.inr at_)))
      · exact returned
  | fetcher o m' q moved =>
    rcases moved.returned with ⟨same, before, _⟩ | ⟨after, returned⟩
    · constructor
      · rw [same]
        exact fun returned => absurd (h.ended returned) before
      · rw [same]
        exact h.joined
    · exact ⟨fun _ => after, fun _ => returned⟩
  | write n => exact h.outside (write_returned n v.mem)
  | exit | takeStop => exact h.outside rfl
  | sigstop => exact h.outside (sigstop_log .other v.mem).returned
  | sigcont => exact h.outside (sigcont_log v.mem).returned

theorem joined {threshold : BitVec 64} {ok : System r → Action → Bool} {etr : r.Writer}
    {initPos : BitVec 64} {w : System r}
    (h : Reach (step threshold) ok (start etr initPos) w) : Joined (view w) := by
  refine view_invariant ⟨?_, ?_⟩ (fun _ _ _ inv _ moved => joined_move inv moved) h
  · intro returned
    cases returned
  · intro tearing
    cases tearing

/-- A thread at a point without mutexes is running there. -/
theorem runs_at {w : System r} (guarded : Guarded held w) {t : Thread} {p : Point t}
    (here : (w.ctl t).point = p) (bare : ∀ m, held t p m = false) : w.ctl t = .run p := by
  have resumes := guarded.resumes t
  cases at_ : w.ctl t with
  | run q =>
    rw [at_] at here
    exact congrArg _ here
  | asleep c m q | woken m q =>
    rw [at_] at here resumes
    obtain rfl : q = p := here
    have mine : held t q m = true := (resumes m).mpr rfl
    rw [bare m] at mine
    cases mine

/-- **The parent is alone at the teardown.** In every run, whatever fails and
however the threads are interleaved: behind the join the fetcher has returned and
cannot move, nobody sleeps or is about to wake up, and no mutex is locked when it
is destroyed. -/
theorem teardown_alone (threshold : BitVec 64) (etr : r.Writer) (initPos : BitVec 64) (w : System r)
    (h : Reach (step threshold) (fun _ _ => true) (start etr initPos) w)
    (tearing : (view w).parent.tearing = true) :
    w.ctl .fetcher = .run (.returned : FetcherPc) ∧ w.ctl .parent = .run (view w).parent ∧
    (∀ m, w.owner m = none) ∧ (∀ o, step threshold w (.fetcher o) = none) ∧
    ∀ t, step threshold w (.wake t) = none := by
  have guarded := (orderly h).guarded
  have returned := (joined h).ended ((joined h).joined tearing)
  have parent : w.ctl .parent = .run (view w).parent := by
    apply runs_at guarded rfl
    intro m
    show (view w).parent.held m = false
    rcases tearing_iff.mp tearing with at_ | at_ | at_ <;> rw [at_] <;> rfl
  have fetcher : w.ctl .fetcher = .run (.returned : FetcherPc) :=
    runs_at guarded returned fun _ => rfl
  refine ⟨fetcher, parent, ?_, ?_, ?_⟩
  · intro m
    cases owner : w.owner m with
    | none => rfl
    | some t =>
      have mine := (guarded.owned m t).mp owner
      cases t with
      | parent =>
        rw [parent] at mine
        change (view w).parent.held m = true at mine
        rcases tearing_iff.mp tearing with at_ | at_ | at_ <;> rw [at_] at mine <;> cases mine
      | fetcher =>
        rw [fetcher] at mine
        cases mine
  · intro o
    simp only [step, fire, fetcher]
    rfl
  · intro t
    cases t with
    | parent => simp only [step, spurious, parent]
    | fetcher => simp only [step, spurious, fetcher]

/-- A session whose last fetch fails, about to shut CSAL down. -/
theorem teardown_failed_fetch : ∃ w : System Polling.defaultRing,
    Reach (step Polling.defaultThreshold) (fun _ _ => true) (start Polling.defaultRing.empty 0) w ∧
    (view w).parent = .cleanUp ∧ .fetchTrace true .fail ∈ w.mem.calls ∧
    w.ctl .fetcher = .run (.returned : FetcherPc) := by
  have replay : (exec (step Polling.defaultThreshold) (fun _ _ => true)
      (start Polling.defaultRing.empty 0)
      (opening ++ closingDown ++ List.replicate 5 (.fetcher .ok) ++ [.fetcher .fail] ++
        List.replicate 10 (.fetcher .ok) ++ List.replicate 2 (.parent .ok))).any
      (fun w => (view w).parent == .cleanUp &&
        w.mem.calls.contains (.fetchTrace true .fail)) = true := by
    decide +kernel
  obtain ⟨w, reached, test⟩ := reach_of_exec replay
  simp only [Bool.and_eq_true, beq_iff_eq, List.contains_iff_mem] at test
  have tearing : (view w).parent.tearing = true := by rw [test.1]; rfl
  exact ⟨w, reached, test.1, test.2, (teardown_alone _ _ _ w reached tearing).1⟩

end Ultrasight.Handshake
