import Mathlib.Logic.Function.Basic

/-!
# Wait statuses

The macros of `<sys/wait.h>` on the `int` that `waitpid` stores, and the test
that the loop of `parent()` makes on it.
-/

namespace Ultrasight

def sigtrap : Nat := 5
def sigcont : Nat := 18
def sigstop : Nat := 19

def wtermsig (wstatus : Nat) : Nat := wstatus &&& 0x7f

def wexitstatus (wstatus : Nat) : Nat := (wstatus &&& 0xff00) >>> 8

def wifexited (wstatus : Nat) : Bool := wtermsig wstatus == 0

/-- `((signed char)(((status) & 0x7f) + 1) >> 1) > 0`. -/
def wifsignaled (wstatus : Nat) : Bool :=
  let c := (wstatus &&& 0x7f) + 1
  (if c < 128 then (c : Int) else c - 256) / 2 > 0

def wifstopped (wstatus : Nat) : Bool := wstatus &&& 0xff == 0x7f

def wstopsig (wstatus : Nat) : Nat := wexitstatus wstatus

def wifcontinued (wstatus : Nat) : Bool := wstatus == 0xffff

/-- The status of a child stopped by `sig`. -/
def stopStatus (sig : Nat) : Nat := sig <<< 8 ||| 0x7f

def continuedStatus : Nat := 0xffff

/-- The status of a child that exited with `code`. -/
def exitStatus (code : Nat) : Nat := code <<< 8

/-- The branches of the loop in `parent()`. -/
inductive Branch where
  | finish | ignore | suspend | resume
  deriving DecidableEq, Repr

/-- The status tests of `parent()`, in the order of the source. -/
def dispatch (fetcherOn : Bool) (wstatus : Nat) : Branch :=
  if wifexited wstatus then
    if wstatus == 0 then .finish else .ignore
  else if wifcontinued wstatus then .ignore
  else if wifstopped wstatus then
    if fetcherOn then
      if wstopsig wstatus == sigstop then .suspend
      else if wstopsig wstatus == sigcont then .resume
      else .ignore
    else .ignore
  else .ignore

theorem wtermsig_eq (w : Nat) : wtermsig w = w % 128 := Nat.and_two_pow_sub_one_eq_mod w 7

theorem low_byte_eq (w : Nat) : w &&& 0xff = w % 256 := Nat.and_two_pow_sub_one_eq_mod w 8

theorem wifsignaled_iff (w : Nat) : wifsignaled w = true ↔ 0 < w % 128 ∧ w % 128 < 127 := by
  have masked : w &&& 0x7f = w % 128 := Nat.and_two_pow_sub_one_eq_mod w 7
  simp only [wifsignaled, masked, gt_iff_lt, decide_eq_true_eq]
  split <;> omega

/-- A child killed by a signal neither exited, stopped nor continued. -/
theorem signaled_other {w : Nat} (h : wifsignaled w = true) :
    wifexited w = false ∧ wifstopped w = false ∧ wifcontinued w = false := by
  rw [wifsignaled_iff] at h
  refine ⟨?_, ?_, ?_⟩
  · simp only [wifexited, wtermsig_eq, beq_eq_false_iff_ne]
    omega
  · simp only [wifstopped, low_byte_eq, beq_eq_false_iff_ne]
    omega
  · simp only [wifcontinued, beq_eq_false_iff_ne]
    rintro rfl
    omega

/-- The loop breaks on no status but 0. -/
theorem dispatch_finish_iff (fetcherOn : Bool) (w : Nat) :
    dispatch fetcherOn w = .finish ↔ w = 0 := by
  constructor
  · intro h
    unfold dispatch at h
    split at h
    · split at h
      · rename_i zero; simpa using zero
      · cases h
    · split at h
      · cases h
      · split at h
        · split at h
          · split at h
            · cases h
            · split at h <;> cases h
          · cases h
        · cases h
  · rintro rfl
    rfl

/-- Without the fetcher, the loop does nothing until it breaks. -/
theorem dispatch_off (w : Nat) : dispatch false w = if w = 0 then .finish else .ignore := by
  by_cases zero : w = 0
  · simp [zero, (dispatch_finish_iff false 0).mpr]
  · unfold dispatch
    simp [zero]

end Ultrasight
