import Ultrasight.Footprints
import Ultrasight.PreferredCpu

/-!
# The trace CPU

If no CPU was asked for, `init_trace` takes the preferred one, or else a free
one, or else a default. It stores the outcome of the test whether one is free in
the place of its number.

* `startTraceOn` is `start_trace` together with the affinities of the processes;
* `initTrace_traceCpu`: which CPU is chosen, however `init_trace` ends;
* `trace_cpu_iff`: when it is the right one.
-/

namespace Ultrasight

open Fn

namespace CpuSet

variable {setsize : Nat} {x y : CpuSet setsize}

theorem members_and : (x &&& y).members = x.members ∩ y.members := by
  ext n
  simp [members, has]

theorem members_nonempty (h : x ≠ 0) : x.members.Nonempty := by
  by_contra empty
  apply h
  apply BitVec.eq_of_getLsbD_eq
  intro n _
  have none : ¬ x.getLsbD n = true := fun member => empty ⟨n, member⟩
  simpa using none

theorem members_zero : (0 : CpuSet setsize).members = ∅ := by
  ext n
  simp [members, has]

end CpuSet

/-! ## Binding a process -/

/-- What the system tells: whether `CPU_ALLOC` succeeds, and the CPUs that each
process can be bound to; none if there is no such process. -/
structure Scheduler where
  nprocs : Nat
  alloc : Bool
  allowed : Parent.Pid → Option (CpuSet (cpuAllocSize nprocs))

namespace Scheduler

variable (m : Scheduler)

/-- The CPUs each process is bound to. -/
abbrev Affinity := Parent.Pid → CpuSet (cpuAllocSize m.nprocs)

/-- CPUs that are not allowed are ignored, unless none is left. -/
def schedSetaffinity (pid : Parent.Pid) (set : CpuSet (cpuAllocSize m.nprocs)) :
    Fn m.Affinity Int :=
  match m.allowed pid with
  | none => pure (-1)
  | some allowed =>
    if set &&& allowed = 0 then pure (-1)
    else do
      modify fun affinity => Function.update affinity pid (set &&& allowed)
      pure 0

def setCpuAffinity (cpu : Int) (pid : Parent.Pid) : Fn m.Affinity Int := enclose do
  require m.alloc (-1)
  let rc ← m.schedSetaffinity pid (CpuSet.add (.ofInt 32 cpu) 0)
  require (0 ≤ rc) (-1)
  pure 0

/-- It fails, or the process is bound to this CPU. -/
theorem setCpuAffinity_spec {n : Nat} (small : n < 2 ^ 31) (pid : Parent.Pid) (s : m.Affinity) :
    Ensures (m.setCpuAffinity n pid)
      (fun rc s' => rc < 0 ∨ rc = 0 ∧ (s' pid).members = {n}) (fun _ _ => False) s := by
  have only := CpuSet.members_add small (0 : CpuSet (cpuAllocSize m.nprocs))
  rw [CpuSet.members_zero, Set.empty_union] at only
  simp only [setCpuAffinity, schedSetaffinity, ensures_enclose, ensures_bind, ensures_require,
    BitVec.ofInt_natCast]
  refine ⟨fun _ => ?_, fun _ => .inl (by decide)⟩
  cases m.allowed pid with
  | none => simp
  | some allowed =>
    simp only
    split
    · simp
    · rename_i some
      simp only [ensures_bind, ensures_modify, ensures_pure, Function.update_self]
      refine ⟨fun _ => .inr ⟨trivial, ?_⟩, by simp⟩
      obtain ⟨k, member⟩ := CpuSet.members_nonempty some
      have inside : (CpuSet.add (.ofNat 32 n) 0 &&& allowed).members ⊆ {n} := by
        rw [CpuSet.members_and, only]
        rintro j ⟨⟨rfl, _⟩, _⟩
        rfl
      apply Set.Subset.antisymm inside
      rintro j rfl
      obtain rfl := inside member
      exact member

end Scheduler

namespace Session

structure Machine (m : Scheduler) where
  globals : Globals
  affinity : m.Affinity

/-- `start_trace`, and not only what `set_cpu_affinity` returned. -/
def startTraceOn (e : Csal) (o : Settings) (m : Scheduler) (pid : Parent.Pid)
    (usePidTrace : Bool) (a : StartAnswers) : Fn (Machine m) Int := do
  let s ← get
  let rc ← zoom Machine.affinity (fun affinity s => { s with affinity := affinity })
    (m.setCpuAffinity s.globals.traceCpu pid)
  zoom Machine.globals (fun g s => { s with globals := g })
    (startTrace e o pid usePidTrace { a with affinity := rc })

/-- The preferred CPU, or else a free one, or else the default. -/
structure Chosen (a : InitAnswers) (cpu : Int) : Prop where
  preferred : 0 ≤ a.preferredCpu → cpu = a.preferredCpu
  free : a.preferredCpu < 0 → 0 ≤ a.freeCpu → cpu = a.freeCpu
  default : a.preferredCpu < 0 → a.freeCpu < 0 → cpu = defaultTraceCpu

/-- If a free CPU is looked for and found, `start_trace` binds the tracee to it. -/
def BindsFree (e : Csal) (o : Settings) (a : InitAnswers) (g : Globals) : Prop :=
  a.preferredCpu < 0 → 0 ≤ a.freeCpu →
    ∀ (m : Scheduler) (affinity : m.Affinity) (pid : Parent.Pid) (usePidTrace : Bool)
      (s : StartAnswers),
      Ensures (startTraceOn e o m pid usePidTrace s)
        (fun rc g' => 0 ≤ rc → (g'.affinity pid).members = {a.freeCpu.toNat})
        (fun _ _ => True) ⟨g, affinity⟩

section
variable {e : Csal} {o : Settings} {a : InitAnswers} {g : Globals}

/-- The choice is made first, and nothing else changes it. -/
theorem initTrace_traceCpu (g : Globals) :
    Leaves (initTrace e o a) (fun g' => g'.traceCpu = selectTraceCpu a g.traceCpu) g := by
  let Inv (g' : Globals) := g'.traceCpu = selectTraceCpu a g.traceCpu
  have aside {f : Globals → Globals} (same : ∀ g', (f g').traceCpu = g'.traceCpu) :
      Keeps Inv (modify f : Fn Globals _) := keeps_modify fun g' inv => (same g').trans inv
  have onRig_keeps {α : Type} (x : Fn Rig α) : Keeps Inv (onRig x) := by
    intro s inv
    apply (ensures_zoom x).mpr
    exact ensures_const inv x s.rig
  have all : Leads (· = g) Inv (initTrace e o a) := by
    apply initTrace_leads
    · rintro s rfl
      exact (ensures_modify _).mpr rfl
    · exact aside fun _ => rfl
    · exact aside fun _ => rfl
    · exact aside fun _ => rfl
    · exact setupNamedBoard_keeps (onRig_keeps _) fun _ inv => inv
    · exact aside fun _ => rfl
    · exact onRig_keeps _
  exact all g rfl

theorem startTraceOn_binds {m : Scheduler} {n : Nat} (cpu : g.traceCpu = n) (small : n < 2 ^ 31)
    (affinity : m.Affinity) (pid : Parent.Pid) (usePidTrace : Bool) (s : StartAnswers) :
    Ensures (startTraceOn e o m pid usePidTrace s)
      (fun rc g' => 0 ≤ rc → (g'.affinity pid).members = {n}) (fun _ _ => True) ⟨g, affinity⟩ := by
  simp only [startTraceOn, ensures_bind, ensures_get, ensures_zoom, cpu]
  apply (m.setCpuAffinity_spec small pid affinity).mono _ (fun _ _ _ => trivial)
  rintro rc affinity' (refused | ⟨rfl, bound⟩)
  · have early : decide (0 ≤ rc) = false := decide_eq_false (by omega)
    simp only [startTrace, early, ensures_enclose, ensures_bind, ensures_require,
      Bool.false_eq_true, false_implies, true_and, forall_const]
    intro success
    omega
  · apply (ensures_const bound _ _).mono
    · exact fun _ _ bound _ => bound
    · exact fun _ _ _ => trivial

/-- The choice is right if the preferred CPU is known, or CPU 0 is free. -/
theorem selectTraceCpu_chosen_iff {cpu : Int} (unset : cpu < 0) :
    Chosen a (selectTraceCpu a cpu) ↔ 0 ≤ a.preferredCpu ∨ a.freeCpu = 0 := by
  rw [selectTraceCpu, if_pos unset]
  by_cases known : a.preferredCpu < 0
  · by_cases none : a.freeCpu < 0
    · constructor
      · intro chosen
        exact absurd (chosen.default known none) (by simp [known, none, defaultTraceCpu])
      · omega
    · constructor
      · intro chosen
        have same := chosen.free known (by omega)
        simp [known, none] at same
        omega
      · intro free
        have zero : a.freeCpu = 0 := by omega
        constructor
        · omega
        · intros
          simp [known, zero]
        · omega
  · have preferred : 0 ≤ a.preferredCpu := by omega
    refine ⟨fun _ => .inl preferred, fun _ => ?_⟩
    constructor
    · intros
      simp [known, preferred]
    · omega
    · omega

/-- The choice is the right one, and a tracee for which a free CPU was found is
bound to it, exactly if no free CPU is looked for, or CPU 0 is free. -/
theorem trace_cpu_iff (unset : g.traceCpu < 0) :
    Leaves (initTrace e o a) (fun g' => Chosen a g'.traceCpu ∧ BindsFree e o a g') g ↔
      0 ≤ a.preferredCpu ∨ a.freeCpu = 0 := by
  have cpu := initTrace_traceCpu (e := e) (o := o) (a := a) g
  rw [← selectTraceCpu_chosen_iff unset]
  constructor
  · intro right
    by_contra wrong
    apply Ensures.excluded right cpu
    · intro rc g' chosen same
      exact wrong (same ▸ chosen.1)
    · intro x g' chosen same
      exact wrong (same ▸ chosen.1)
  · intro chosen
    have binds (g' : Globals) (same : g'.traceCpu = selectTraceCpu a g.traceCpu) :
        Chosen a g'.traceCpu ∧ BindsFree e o a g' := by
      refine ⟨same ▸ chosen, ?_⟩
      intro unknown free m affinity pid use s
      have zero : a.freeCpu = 0 := by
        have := (selectTraceCpu_chosen_iff unset).mp chosen
        omega
      have first : g'.traceCpu = (0 : Nat) := by
        rw [same, chosen.free unknown free, zero]
        rfl
      rw [zero]
      exact startTraceOn_binds first (by decide) affinity pid use s
    exact cpu.mono (fun _ => binds) fun _ => binds

end

/-- Answers with which `init_trace` succeeds on the ZCU-104. -/
def answers (preferredCpu freeCpu : Int) : InitAnswers :=
  ⟨preferredCpu, freeCpu, ⟨0, some 0x70000000, some 0x100000⟩, true, 1, ⟨0x400000, 0x500000⟩, 0⟩

theorem preferred_cpu_chosen :
    Leaves (initTrace zcu104 plain (answers 3 (-1)))
      (fun g => Chosen (answers 3 (-1)) g.traceCpu ∧ BindsFree zcu104 plain (answers 3 (-1)) g)
      (.initial .idle (-1)) :=
  (trace_cpu_iff (by decide)).mpr (.inl (by decide))

/-- A machine with four CPUs, on which a process may use all of them. -/
def fourCpus : Scheduler := ⟨4, true, fun _ => some 0xf⟩

/-- No CPU is preferred and CPU 2 is free, but CPU 0 is chosen and the tracee bound
to it. -/
theorem free_cpu_ignored :
    Leaves (initTrace zcu104 plain (answers (-1) 2)) (fun g => g.traceCpu = 0)
      (.initial .idle (-1)) ∧
    Ensures (fourCpus.setCpuAffinity 0 7) (fun rc s => rc = 0 ∧ s 7 = 1) (fun _ _ => False)
      (fun _ => 0xf) ∧
    ¬ Leaves (initTrace zcu104 plain (answers (-1) 2))
      (fun g => Chosen (answers (-1) 2) g.traceCpu ∧ BindsFree zcu104 plain (answers (-1) 2) g)
      (.initial .idle (-1)) := by
  have zero := initTrace_traceCpu (e := zcu104) (o := plain) (a := answers (-1) 2)
    (.initial .idle (-1))
  refine ⟨zero, by decide, ?_⟩
  · intro right
    have wrong (g : Globals) (chosen : Chosen (answers (-1) 2) g.traceCpu)
        (same : g.traceCpu = selectTraceCpu (answers (-1) 2) (-1)) : False := by
      have two := chosen.free (by decide) (by decide)
      rw [same] at two
      revert two
      decide
    apply Ensures.excluded right zero
    · exact fun _ g chosen => wrong g chosen.1
    · exact fun _ g chosen => wrong g chosen.1

end Session

end Ultrasight
