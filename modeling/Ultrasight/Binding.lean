import Ultrasight.FreeCpu
import Ultrasight.TraceCpu

/-!
# Binding the tracee

`init_trace` chooses among the numbers that `utils.c` found out, and `start_trace`
binds the tracee to the one chosen. Both files rely on `get_nprocs` only.

* `setCpuAffinity_binds`: when a process is bound, and what is left if it is not;
* `chosen_cpu_binds`: the CPU that is chosen is there, so that only the system can
  refuse it.
-/

namespace Ultrasight

open Fn

/-! ## The numbers -/

section
variable {host : Host} {pid : Int} {fs : ProcFs}

/-- What `get_preferred_cpu` returns is -1 or a processor. -/
theorem getPreferredCpu_below (set : CpuSet (cpuAllocSize host.nprocs)) :
    Ensures (getPreferredCpu host pid) (fun rc _ => rc < host.nprocs) (fun _ _ => True) set := by
  have negative : (-1 : Int) < host.nprocs := by omega
  have early (x : Exit) (failed : x = .ret (-1) ∨ x = .crash) (rc : Int) (left : x = .ret rc) :
      rc < host.nprocs := by
    obtain rfl | rfl := failed
    · cases left
      exact negative
    · cases left
  have siblings (cpuSet set : CpuSet (cpuAllocSize host.nprocs)) :
      Ensures (each (List.range host.nprocs) (addSiblings host cpuSet)) (fun _ _ => True)
        (fun x _ => x = .ret (-1) ∨ x = .crash) set := by
    apply ensures_each fun _ _ => True
    · intro done i rest _ set _
      simp only [addSiblings, ensures_when, ensures_bind, ensures_require]
      refine ⟨fun _ => ?_, fun _ => trivial⟩
      apply (through_enclose _ set).mono
      · exact fun _ _ _ => ⟨fun _ => trivial, fun _ => .inl trivial⟩
      · exact fun _ _ died => .inr died
    · trivial
  apply ensures_returned
  apply (ensures_bind _ _).mpr
  apply (ensures_given _ _).mpr
  refine ⟨fun cpuSet _ => ?_, fun _ => early _ (.inl rfl)⟩
  apply (ensures_bind _ _).mpr
  apply (ensures_modify _).mpr
  apply (ensures_bind _ _).mpr
  apply (siblings cpuSet _).mono _ fun x _ => early x
  intro _ coreCpuSet _
  simp only [ensures_bind, ensures_get, ensures_pure]
  cases found : (List.range host.nprocs).find? fun i => !coreCpuSet.has i with
  | none => exact negative
  | some i =>
    have below := List.mem_range.mp (List.mem_of_find?_eq_some found)
    simp only [Option.elim_some, Int.ofNat_eq_natCast]
    omega

/-- `find_free_cpu` fails only if there are two processors to choose from. -/
theorem findFreeCpu_fails (nprocs : Int) (cpuUsed : Nat → Bool) :
    Ensures (findFreeCpu fs nprocs) (fun rc _ => rc < 0 → 2 ≤ nprocs) (fun _ _ => True)
      cpuUsed := by
  apply ensures_returned
  apply (ensures_bind _ _).mpr
  apply (ensures_require _ _).mpr
  constructor
  · intro two
    apply (ensures_const (of_decide_eq_true two) _ _).mono
    · exact fun _ _ two _ => two
    · exact fun _ _ two _ _ _ => two
  · rintro _ _ ⟨⟩ negative
    exact absurd negative (by decide)

end

/-! ## The system -/

/-- The process is bound to the CPU and no other if the system allows this, and
nothing changes otherwise. -/
structure Scheduler.Binds (m : Scheduler) (cpu : Nat) (pid : Parent.Pid) (affinity : m.Affinity)
    (rc : Int) (affinity' : m.Affinity) : Prop where
  result : rc = 0 ∨ rc = -1
  allowed : rc = 0 ↔ m.alloc = true ∧ ∃ set, m.allowed pid = some set ∧ cpu ∈ set.members
  bound : rc = 0 → (affinity' pid).members = {cpu}
  others : ∀ q ≠ pid, affinity' q = affinity q
  refused : rc = -1 → affinity' = affinity

theorem setCpuAffinity_binds (m : Scheduler) {cpu : Nat} (real : cpu < m.nprocs)
    (int : m.nprocs < 2 ^ 31) (pid : Parent.Pid) (affinity : m.Affinity) :
    Ensures (m.setCpuAffinity cpu pid) (m.Binds cpu pid affinity) (fun _ _ => False) affinity := by
  have room : cpu < 8 * cpuAllocSize m.nprocs := by
    unfold cpuAllocSize
    omega
  have only := CpuSet.members_add (show cpu < 2 ^ 31 by omega) (0 : CpuSet (cpuAllocSize m.nprocs))
  rw [CpuSet.members_zero, Set.empty_union] at only
  have fails (no : ¬ (m.alloc = true ∧ ∃ set, m.allowed pid = some set ∧ cpu ∈ set.members)) :
      m.Binds cpu pid affinity (-1) affinity :=
    ⟨.inr rfl, iff_of_false (by decide) no, fun zero => absurd zero (by decide), fun _ _ => rfl,
      fun _ => rfl⟩
  simp only [Scheduler.setCpuAffinity, Scheduler.schedSetaffinity, ensures_enclose, ensures_bind,
    ensures_require, BitVec.ofInt_natCast]
  refine ⟨fun alloc => ?_, fun full => ?_⟩
  · cases known : m.allowed pid with
    | none =>
      simp only [ensures_pure]
      refine ⟨fun zero => absurd zero (by decide), fun _ => fails ?_⟩
      rintro ⟨-, set, found, -⟩
      rw [known] at found
      cases found
    | some allowed =>
      have common : (CpuSet.add (.ofNat 32 cpu) 0 &&& allowed).members =
          {k | k = cpu ∧ k ∈ allowed.members} := by
        rw [CpuSet.members_and, only]
        ext k
        constructor
        · rintro ⟨⟨rfl, -⟩, member⟩
          exact ⟨rfl, member⟩
        · rintro ⟨rfl, member⟩
          exact ⟨⟨rfl, room⟩, member⟩
      simp only
      split
      · rename_i none
        simp only [ensures_pure]
        refine ⟨fun zero => absurd zero (by decide), fun _ => fails ?_⟩
        rintro ⟨-, set, found, member⟩
        cases known.symm.trans found
        rw [none, CpuSet.members_zero] at common
        exact (Set.ext_iff.mp common cpu).mpr ⟨rfl, member⟩
      · rename_i nonempty
        have member : cpu ∈ allowed.members := by
          obtain ⟨k, inside⟩ := CpuSet.members_nonempty nonempty
          rw [common] at inside
          exact inside.1 ▸ inside.2
        simp only [ensures_bind, ensures_modify, ensures_pure]
        refine ⟨fun _ => ?_, fun impossible => absurd impossible (by decide)⟩
        refine ⟨.inl rfl, iff_of_true rfl ⟨alloc, allowed, known, member⟩, fun _ => ?_, ?_, ?_⟩
        · rw [Function.update_self, common]
          ext k
          exact ⟨fun inside => inside.1, fun same => ⟨same, same ▸ member⟩⟩
        · exact fun q other => Function.update_of_ne other _ _
        · exact fun failed => absurd failed (by decide)
  · apply fails
    rintro ⟨alloc, -⟩
    rw [alloc] at full
    cases full

namespace Session

/-- The answers to `init_trace` are those of the functions in `utils.c`, of which the
second is called if the first one fails. -/
structure Surveyed (host : Host) (fs : ProcFs) (self : Int) (a : InitAnswers) : Prop where
  preferred : ∃ set set', getPreferredCpu host self set = .ok a.preferredCpu set'
  free : a.preferredCpu < 0 →
    ∃ cpuUsed cpuUsed', findFreeCpu fs host.nprocs cpuUsed = .ok a.freeCpu cpuUsed'

section
variable {e : Csal} {o : Settings} {host : Host} {fs : ProcFs} {self : Int} {a : InitAnswers}

/-- The CPU chosen is a processor, also where the outcome of a test is taken for one. -/
theorem selectTraceCpu_below (surveyed : Surveyed host fs self a) (some : 0 < host.nprocs)
    {traceCpu : Int} (unset : traceCpu < 0) :
    ∃ cpu < host.nprocs, selectTraceCpu a traceCpu = (cpu : Nat) := by
  obtain ⟨⟨set, set', preferred⟩, free⟩ := surveyed
  have below := (ensures_of_ok preferred).mp (getPreferredCpu_below set)
  rw [selectTraceCpu, if_pos unset]
  dsimp only
  by_cases unknown : a.preferredCpu < 0
  · obtain ⟨cpuUsed, cpuUsed', tried⟩ := free unknown
    have two := (ensures_of_ok tried).mp (findFreeCpu_fails host.nprocs cpuUsed)
    rw [if_pos unknown]
    by_cases failed : a.freeCpu < 0
    · refine ⟨1, ?_, by rw [if_pos failed]; rfl⟩
      have := two failed
      omega
    · exact ⟨0, some, by rw [if_neg failed]; rfl⟩
  · refine ⟨a.preferredCpu.toNat, by omega, ?_⟩
    rw [if_neg unknown, if_pos (by omega)]
    omega

/-- **The CPU that is chosen can be bound.** However `init_trace` ends, the CPU it has
chosen is one of the processors, and binding any process to it succeeds exactly if
there is memory and the process may use it; then it uses this one only. -/
theorem chosen_cpu_binds (surveyed : Surveyed host fs self a) (some : 0 < host.nprocs)
    (int : host.nprocs < 2 ^ 31) {g : Globals} (unset : g.traceCpu < 0) :
    Leaves (initTrace e o a) (fun g' => ∃ cpu < host.nprocs, g'.traceCpu = (cpu : Nat) ∧
      ∀ m : Scheduler, m.nprocs = host.nprocs → ∀ (pid : Parent.Pid) (affinity : m.Affinity),
        Ensures (m.setCpuAffinity g'.traceCpu pid) (m.Binds cpu pid affinity) (fun _ _ => False)
          affinity) g := by
  obtain ⟨cpu, below, chosen⟩ := selectTraceCpu_below surveyed some unset
  have binds (g' : Globals) (same : g'.traceCpu = selectTraceCpu a g.traceCpu) :
      ∃ cpu < host.nprocs, g'.traceCpu = (cpu : Nat) ∧ ∀ m : Scheduler, m.nprocs = host.nprocs →
        ∀ (pid : Parent.Pid) (affinity : m.Affinity), Ensures (m.setCpuAffinity g'.traceCpu pid)
          (m.Binds cpu pid affinity) (fun _ _ => False) affinity := by
    refine ⟨cpu, below, same.trans chosen, ?_⟩
    intro m processors pid affinity
    rw [same, chosen]
    exact setCpuAffinity_binds m (by omega) (by omega) pid affinity
  apply (initTrace_traceCpu g).mono
  · exact fun _ g' => binds g'
  · exact fun _ g' => binds g'

end

/-- On these two processors nothing is preferred, since no list can be read, and CPU 1
is free. -/
theorem chosen_cpu_binds_two :
    Leaves (initTrace zcu104 plain (answers (-1) 1)) (fun g' =>
      ∃ cpu < 2, g'.traceCpu = (cpu : Nat) ∧
        ∀ m : Scheduler, m.nprocs = 2 → ∀ (pid : Parent.Pid) (affinity : m.Affinity),
          Ensures (m.setCpuAffinity g'.traceCpu pid) (m.Binds cpu pid affinity) (fun _ _ => False)
            affinity) (.initial .idle (-1)) := by
  have surveyed : Surveyed (twoProcessors none) (oneThread boundToFirst) 1 (answers (-1) 1) := by
    have refused : Ensures (getPreferredCpu (twoProcessors none) 1) (fun rc _ => rc = -1)
        (fun _ _ => False) 0 := by decide +kernel
    have found : Ensures (findFreeCpu (oneThread boundToFirst) 2) (fun rc _ => rc = 1)
        (fun _ _ => False) (fun _ => false) := by decide +kernel
    obtain ⟨_, set', preferred, rfl⟩ := refused.returns
    obtain ⟨_, cpuUsed', free, rfl⟩ := found.returns
    exact ⟨⟨0, set', preferred⟩, fun _ => ⟨fun _ => false, cpuUsed', free⟩⟩
  exact chosen_cpu_binds surveyed (by decide) (by decide) (by decide)

end Session

end Ultrasight
