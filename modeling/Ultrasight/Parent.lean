import Ultrasight.WaitStatus

/-!
# The parent process

`parent()` ignores the results of everything it calls, so it is a function
from the sequence of wait statuses to the list of calls it makes. After the
last status `waitpid` fails and leaves `wstatus` as it is. The last call is
`fini_trace`, which with the fetcher returns only after the fetcher thread has.
-/

namespace Ultrasight.Parent

abbrev Pid := BitVec 32

structure Options where
  fetcherOn : Bool
  ksightOn : Bool

/-- The calls `parent()` makes, with their arguments. -/
inductive Call where
  | initTrace (parentPid pid : Pid)
  | startTrace (pid : Pid) (usePidTrace : Bool)
  | ksightSetTracedPid (pid : Pid)
  | ksightSetEnable (enable : Bool)
  | detach (pid : Pid)
  | suspendCallback
  | resumeCallback
  | stopTrace (disableAll : Bool)
  | finiTrace
  deriving DecidableEq, Repr

/-- `waitpid` on the statuses the child still has to report: the value of
`wstatus` after the call and the statuses left. -/
def waitpid (wstatus : Nat) : List Nat → Nat × List Nat
  | [] => (wstatus, [])
  | w :: rest => (w, rest)

/-- What the loop does with the exit status it breaks on. -/
def finishing (o : Options) : List Call :=
  (if o.ksightOn then [.ksightSetEnable false, .ksightSetTracedPid 0] else []) ++
    [.stopTrace true, .finiTrace]

/-- What `parent()` does between the first stop and its loop. -/
def starting (o : Options) (self pid : Pid) : List Call :=
  [.initTrace self pid, .startTrace pid true] ++
    (if o.ksightOn then [.ksightSetTracedPid pid, .ksightSetEnable true] else []) ++
    [.detach pid]

def callbacks (o : Options) (wstatus : Nat) : List Call :=
  match dispatch o.fetcherOn wstatus with
  | .suspend => [.suspendCallback]
  | .resume => [.resumeCallback]
  | .finish | .ignore => []

/-- How the session ends: with the `break` and the final `wstatus`, or inside
`fini_trace`, in a `pthread_join` that does not return. -/
inductive Exit where
  | left (wstatus : Nat)
  | joining
  deriving DecidableEq, Repr

/-- Behind `fini_trace`, which joins the fetcher thread if there is one; `joins`
tells whether that thread returns. -/
def finish (o : Options) (joins : Bool) (wstatus : Nat) : Exit :=
  if o.fetcherOn && !joins then .joining else .left wstatus

/-- The `while (1)` loop, for at most `fuel` rounds: the calls made and how it
ends. -/
def loop (o : Options) (joins : Bool) : Nat → Nat → List Nat → Option (List Call × Exit)
  | 0, _, _ => none
  | fuel + 1, wstatus, statuses =>
    let (wstatus, statuses) := waitpid wstatus statuses
    match dispatch o.fetcherOn wstatus with
    | .finish => some (finishing o, finish o joins wstatus)
    | _ => (loop o joins fuel wstatus statuses).map fun r => (callbacks o wstatus ++ r.1, r.2)

/-- `parent()`; `wstatus` is what the variable holds before the first wait. -/
def parent (o : Options) (joins : Bool) (self pid : Pid) (fuel wstatus : Nat)
    (statuses : List Nat) : Option (List Call × Exit) :=
  let (wstatus, statuses) := waitpid wstatus statuses
  let before :=
    if wifstopped wstatus && wstopsig wstatus == sigtrap then starting o self pid else []
  (loop o joins fuel wstatus statuses).map fun r => (before ++ r.1, r.2)

/-- Stops and continuations: the statuses of a live child. -/
def Alive (w : Nat) : Prop := wifstopped w = true ∨ wifcontinued w = true

def Terminated (w : Nat) : Prop := wifexited w = true ∨ wifsignaled w = true

theorem alive_ne_zero {w : Nat} (h : Alive w) : w ≠ 0 := by
  rintro rfl
  rcases h with h | h <;> cases h

theorem loop_continues (o : Options) (joins : Bool) {fuel v w : Nat} {rest : List Nat} (h : w ≠ 0) :
    loop o joins (fuel + 1) v (w :: rest) =
      (loop o joins fuel w rest).map fun r => (callbacks o w ++ r.1, r.2) := by
  have goes : dispatch o.fetcherOn w ≠ .finish := fun e => h ((dispatch_finish_iff _ _).mp e)
  simp only [loop, waitpid]

/-- The loop works through the statuses of a live child, one round each. -/
theorem loop_alive (o : Options) (joins : Bool) {alive : List Nat} (h : ∀ w ∈ alive, Alive w)
    (fuel v : Nat) (rest : List Nat) :
    ∃ u, loop o joins (alive.length + fuel) v (alive ++ rest) =
      (loop o joins fuel u rest).map fun r => (alive.flatMap (callbacks o) ++ r.1, r.2) := by
  induction alive generalizing v with
  | nil => exact ⟨v, by simp⟩
  | cons w ws ih =>
    obtain ⟨u, hu⟩ := ih (fun x hx => h x (List.mem_cons_of_mem w hx)) w
    have more : w ≠ 0 := alive_ne_zero (h w List.mem_cons_self)
    have rounds : (w :: ws).length + fuel = ws.length + fuel + 1 := by
      simp only [List.length_cons]; omega
    refine ⟨u, ?_⟩
    rw [rounds, List.cons_append, loop_continues o joins more, hu]
    simp [Function.comp_def]

/-- A status other than 0 that nothing follows is read again for ever. -/
theorem loop_spins (o : Options) (joins : Bool) {w : Nat} (h : w ≠ 0) (fuel : Nat) :
    loop o joins fuel w [] = none := by
  induction fuel with
  | zero => rfl
  | succ fuel ih =>
    have goes : dispatch o.fetcherOn w ≠ .finish := fun e => h ((dispatch_finish_iff _ _).mp e)
    simp only [loop, waitpid, ih, Option.map_none]

theorem loop_fuel {o : Options} {joins : Bool} {fuel more w : Nat} {statuses : List Nat}
    {r : List Call × Exit} (h : loop o joins fuel w statuses = some r) (le : fuel ≤ more) :
    loop o joins more w statuses = some r := by
  induction fuel generalizing more w statuses r with
  | zero => cases h
  | succ fuel ih =>
    obtain ⟨k, rfl⟩ : ∃ k, more = k + 1 := ⟨more - 1, by omega⟩
    simp only [loop] at h ⊢
    split at h
    · rename_i finish; simpa [finish] using h
    · rename_i goes
      obtain ⟨q, hq, rfl⟩ := Option.map_eq_some_iff.mp h
      rw [ih hq (by omega)]
      rfl

/-- A tracee that ends with another status than 0 keeps the loop running. -/
theorem loop_never (o : Options) (joins : Bool) {alive : List Nat} (live : ∀ w ∈ alive, Alive w)
    {last : Nat} (other : last ≠ 0) (fuel v : Nat) : loop o joins fuel v (alive ++ [last]) = none := by
  by_contra some
  obtain ⟨r, hr⟩ := Option.ne_none_iff_exists'.mp some
  obtain ⟨u, hu⟩ := loop_alive o joins live (fuel + 1) v [last]
  have long := loop_fuel hr (show fuel ≤ alive.length + (fuel + 1) by omega)
  rw [hu, loop_continues o joins other, loop_spins o joins other] at long
  cases long

/-- The session is closed at the end, in order and only there. -/
def Finished (o : Options) (calls : List Call) : Prop :=
  ∃ before, calls = before ++ finishing o ∧
    ∀ c ∈ before, c ≠ .finiTrace ∧ ∀ all, c ≠ .stopTrace all

/-- Past the first stop, the parent is in its loop. -/
theorem parent_enters (o : Options) (joins : Bool) (self pid : Pid) (fuel wstatus : Nat)
    {trap : Nat} (stop : wifstopped trap = true) (sig : wstopsig trap = sigtrap)
    (rest : List Nat) :
    parent o joins self pid fuel wstatus (trap :: rest) =
      (loop o joins fuel trap rest).map fun r => (starting o self pid ++ r.1, r.2) := by
  simp [parent, waitpid, stop, sig]

end Ultrasight.Parent
