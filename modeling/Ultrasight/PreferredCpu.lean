import Mathlib.Order.Bounds.Basic
import Ultrasight.CpuLists

/-!
# The preferred CPU

`get_preferred_cpu` collects the CPUs that share a core with one the process may
run on, and takes the first CPU outside.

* `getPreferredCpu_spec`: what it returns, as far as it can read the lists;
* `preferred_cpu_iff`: a list that it can open but not read is taken for an
  empty one.
-/

namespace Ultrasight

open Fn Text

/-- `CPU_ALLOC_SIZE`: whole words of 64 CPUs. -/
def cpuAllocSize (nprocs : Nat) : Nat := (nprocs + 63) / 64 * 8

/-- What the system tells: `get_nprocs`, `sched_getaffinity` for each process,
and the files. Allocations succeed. -/
structure Host where
  nprocs : Nat
  affinity : Int → Option (CpuSet (cpuAllocSize nprocs))
  files : Files

/-- One round of the first loop of `get_preferred_cpu`. -/
def addSiblings (host : Host) (cpuSet : CpuSet (cpuAllocSize host.nprocs)) (i : Nat) :
    Fn (CpuSet (cpuAllocSize host.nprocs)) Unit :=
  when (cpuSet.has i) do
    let rc ← setCoreCpus host.files i
    require (0 ≤ rc) (-1)

/-- The state is the memory of `core_cpu_set`. -/
def getPreferredCpu (host : Host) (pid : Int) : Fn (CpuSet (cpuAllocSize host.nprocs)) Int :=
  enclose do
    let cpuSet ← given (host.affinity pid) (-1)
    modify fun _ => 0
    each (List.range host.nprocs) (addSiblings host cpuSet)
    let coreCpuSet ← get
    pure (((List.range host.nprocs).find? fun i => !coreCpuSet.has i).elim (-1) Int.ofNat)

/-! ## Topologies -/

/-- The `core_cpus_list` of one CPU: single CPUs, in any order. It can be missing,
or break when it is read. -/
inductive CoreList where
  | cpus (l : List Nat) (nonempty : l ≠ []) (small : ∀ n ∈ l, n < 2 ^ 31)
  | missing
  | broken

namespace CoreList

def file : CoreList → Option (List UInt8)
  | cpus l _ _ => some (listText (l.map .single))
  | missing => none
  | broken => some []

/-- The CPUs it names, as far as it can be read. -/
def named : CoreList → Set Nat
  | cpus l _ _ => {n | n ∈ l}
  | missing | broken => ∅

end CoreList

namespace Host

variable (host : Host) (pid : Int) (topology : Nat → CoreList)

/-- Each CPU has the list that the topology says. -/
def Has : Prop :=
  ∀ j < host.nprocs, host.files (coreCpusListPath j) = (topology j).file

/-- The CPUs whose lists are looked at. -/
def Consulted (j : Nat) : Prop :=
  j < host.nprocs ∧ ∃ set, host.affinity pid = some set ∧ j ∈ set.members

/-- The affinity or a list is not there. -/
def Misses : Prop :=
  host.affinity pid = none ∨ ∃ j, host.Consulted pid j ∧ topology j = .missing

/-- The CPUs that no list names. -/
def free : Set Nat :=
  {i | i < host.nprocs ∧ ∀ j, host.Consulted pid j → i ∉ (topology j).named}

def Readable : Prop :=
  host.affinity pid ≠ none ∧
    ∀ j, host.Consulted pid j → topology j ≠ .missing ∧ topology j ≠ .broken

/-- The least CPU that no list names, or -1 if there is none or not everything
can be read. -/
structure Prefers (rc : Int) : Prop where
  least : ∀ i : Nat, rc = i ↔
    host.Readable pid topology ∧ IsLeast (host.free pid topology) i
  none : rc = -1 ↔ host.free pid topology = ∅ ∨ ¬host.Readable pid topology

end Host

/-! ## One list -/

section
variable {setsize : Nat} {files : Files} {cpu : Int} {set : CpuSet setsize}

theorem setCoreCpus_missing (file : files (coreCpusListPath cpu) = none) :
    Ensures (setCoreCpus files cpu) (fun rc _ => rc = -1) (fun _ _ => False) set := by
  simp [setCoreCpus, file]

/-- An empty file, and one that cannot be read, is an empty list. -/
theorem setCoreCpus_broken (room : setsize ≠ 0) (file : files (coreCpusListPath cpu) = some []) :
    Ensures (setCoreCpus files cpu) (fun rc set' => rc = 0 ∧ set' = set) (fun _ _ => False) set := by
  simp [setCoreCpus, file, room, delimited, each]

end

section
variable {host : Host} {pid : Int} {topology : Nat → CoreList}
  {cpuSet set : CpuSet (cpuAllocSize host.nprocs)}

theorem addSiblings_spec (has : host.Has topology) {j : Nat} (processor : j < host.nprocs) :
    Ensures (addSiblings host cpuSet j)
      (fun _ set' => (j ∈ cpuSet.members → topology j ≠ .missing) ∧ set'.members = set.members ∪
        {n | n < 8 * cpuAllocSize host.nprocs ∧ j ∈ cpuSet.members ∧ n ∈ (topology j).named})
      (fun x _ => x = .ret (-1) ∧ j ∈ cpuSet.members ∧ topology j = .missing) set := by
  have file := has j processor
  have room : cpuAllocSize host.nprocs ≠ 0 := by
    simp only [cpuAllocSize]
    omega
  have member : cpuSet.has j = true ↔ j ∈ cpuSet.members := Iff.rfl
  rw [addSiblings, ensures_when, ensures_bind]
  constructor
  · intro asked
    rw [member] at asked
    cases list : topology j with
    | cpus l nonempty small =>
      rw [list] at file
      have items : l.map CpuItem.single ≠ [] := by simpa using nonempty
      apply (setCoreCpus_spec room items (by simpa [CpuItem.single] using small) file).mono
      · rintro rc set' ⟨rfl, added⟩
        simpa [asked, CoreList.named, CpuItem.single] using added
      · exact fun _ _ never => never.elim
    | missing =>
      rw [list] at file
      apply (setCoreCpus_missing file).mono
      · rintro rc set' rfl
        simp [asked]
      · exact fun _ _ never => never.elim
    | broken =>
      rw [list] at file
      apply (setCoreCpus_broken room file).mono
      · rintro rc set' ⟨rfl, rfl⟩
        simp [CoreList.named]
      · exact fun _ _ never => never.elim
  · intro other
    have out : j ∉ cpuSet.members := by simp [← member, other]
    simp [out]

/-! ## The choice -/

/-- The first CPU outside of a set. -/
theorem find_least {n : Nat} {p : Nat → Bool} {S : Set Nat}
    (outside : ∀ i, i ∈ S ↔ i < n ∧ p i = true) :
    (∀ i : Nat, ((List.range n).find? p).elim (-1) Int.ofNat = i ↔ IsLeast S i) ∧
      (((List.range n).find? p).elim (-1) Int.ofNat = -1 ↔ S = ∅) := by
  cases found : (List.range n).find? p with
  | none =>
    have empty : S = ∅ := by
      ext i
      rw [outside]
      constructor
      · rintro ⟨less, holds⟩
        exact absurd holds (by simpa using List.find?_range_eq_none.mp found i less)
      · exact False.elim
    subst empty
    refine ⟨fun i => ?_, by simp⟩
    constructor
    · intro same
      exact absurd same (by simp)
    · exact fun least => least.1.elim
  | some k =>
    obtain ⟨holds, less, before⟩ := List.find?_range_eq_some.mp found
    have least : IsLeast S k := by
      refine ⟨(outside k).mpr ⟨List.mem_range.mp less, holds⟩, ?_⟩
      intro i hi
      by_contra smaller
      have fails := before i (by omega)
      simp [((outside i).mp hi).2] at fails
    constructor
    · intro i
      simp only [Option.elim_some, Int.ofNat_eq_natCast, Int.natCast_inj]
      constructor
      · rintro rfl
        exact least
      · exact fun other => least.unique other
    · have inhabited : S ≠ ∅ := fun empty => by simpa [empty] using least.1
      simp only [Option.elim_some, Int.ofNat_eq_natCast, inhabited, iff_false]
      omega

/-- The loop collects the siblings, unless a list is missing. -/
theorem siblings_collected (has : host.Has topology)
    (cpuSet : CpuSet (cpuAllocSize host.nprocs)) :
    Ensures (each (List.range host.nprocs) (addSiblings host cpuSet))
      (fun _ set' => (∀ j ∈ List.range host.nprocs, j ∈ cpuSet.members → topology j ≠ .missing) ∧
        set'.members = {n | n < 8 * cpuAllocSize host.nprocs ∧
          ∃ j ∈ List.range host.nprocs, j ∈ cpuSet.members ∧ n ∈ (topology j).named})
      (fun x _ => x = .ret (-1) ∧
        ∃ j, j < host.nprocs ∧ j ∈ cpuSet.members ∧ topology j = .missing) 0 := by
  apply ensures_each fun (done : List Nat) (set' : CpuSet (cpuAllocSize host.nprocs)) =>
    (∀ j ∈ done, j ∈ cpuSet.members → topology j ≠ .missing) ∧
      set'.members = {n | n < 8 * cpuAllocSize host.nprocs ∧
        ∃ j ∈ done, j ∈ cpuSet.members ∧ n ∈ (topology j).named}
  · rintro done j rest split set' ⟨there, collected⟩
    have processor : j < host.nprocs := List.mem_range.mp (by simp [split])
    apply (addSiblings_spec has processor).mono
    · rintro _ set'' ⟨here, added⟩
      refine ⟨?_, ?_⟩
      · intro k hk
        cases List.mem_append.mp hk with
        | inl early => exact there k early
        | inr late =>
          obtain rfl := List.mem_singleton.mp late
          exact here
      · rw [added, collected]
        ext n
        simp only [Set.mem_union, Set.mem_ofPred_eq, List.mem_append, List.mem_singleton]
        grind
    · rintro x _ ⟨stopped, member, missing⟩
      exact ⟨stopped, j, processor, member, missing⟩
  · refine ⟨List.forall_mem_nil _, ?_⟩
    ext n
    simp [CpuSet.members, CpuSet.has]

/-- Unless the affinity or a list is missing, the lists that can be read decide. -/
theorem getPreferredCpu_spec (has : host.Has topology) :
    Ensures (getPreferredCpu host pid)
      (fun rc _ => (host.Misses pid topology → rc = -1) ∧ (¬host.Misses pid topology →
        (∀ i : Nat, rc = i ↔ IsLeast (host.free pid topology) i) ∧
          (rc = -1 ↔ host.free pid topology = ∅)))
      (fun _ _ => False) set := by
  cases affinity : host.affinity pid with
  | none => simp [getPreferredCpu, Host.Misses, affinity]
  | some cpuSet =>
    have consulted (j : Nat) : host.Consulted pid j ↔ j < host.nprocs ∧ j ∈ cpuSet.members := by
      simp [Host.Consulted, affinity]
    simp only [getPreferredCpu, ensures_enclose, ensures_bind, ensures_given, affinity,
      Option.some.injEq, forall_eq', ensures_modify, ensures_get, ensures_pure, reduceCtorEq,
      false_implies, and_true]
    apply (siblings_collected has cpuSet).mono
    · rintro _ set' ⟨there, collected⟩
      have present : ¬host.Misses pid topology := by
        rintro (none | ⟨j, asked, missing⟩)
        · simp [affinity] at none
        · obtain ⟨processor, member⟩ := (consulted j).mp asked
          exact there j (List.mem_range.mpr processor) member missing
      refine ⟨fun misses => absurd misses present, fun _ => ?_⟩
      apply find_least
      intro i
      have named : set'.has i = true ↔ i < 8 * cpuAllocSize host.nprocs ∧
          ∃ j ∈ List.range host.nprocs, j ∈ cpuSet.members ∧ i ∈ (topology j).named :=
        Set.ext_iff.mp collected i
      have room : host.nprocs ≤ 8 * cpuAllocSize host.nprocs := by
        simp only [cpuAllocSize]
        omega
      simp only [Host.free, Set.mem_ofPred_eq, consulted, Bool.not_eq_true', ← Bool.not_eq_true,
        named, List.mem_range]
      grind
    · rintro x _ ⟨rfl, j, processor, member, missing⟩
      have misses : host.Misses pid topology :=
        .inr ⟨j, (consulted j).mpr ⟨processor, member⟩, missing⟩
      exact ⟨fun _ => rfl, fun present => absurd misses present⟩

theorem readable_iff : host.Readable pid topology ↔
    ¬host.Misses pid topology ∧ ∀ j, host.Consulted pid j → topology j ≠ .broken := by
  simp only [Host.Readable, Host.Misses, not_or, not_exists, not_and]
  constructor
  · rintro ⟨known, lists⟩
    exact ⟨⟨known, fun j asked => (lists j asked).1⟩, fun j asked => (lists j asked).2⟩
  · rintro ⟨⟨known, there⟩, sound⟩
    exact ⟨known, fun j asked => ⟨there j asked, sound j asked⟩⟩

/-- The choice is right if and only if no list breaks when it is read, or the
answer is -1 for another reason: something is missing, or no CPU is free. -/
theorem preferred_cpu_iff (has : host.Has topology) :
    Ensures (getPreferredCpu host pid) (fun rc _ => host.Prefers pid topology rc)
      (fun _ _ => False) set ↔
    host.Misses pid topology ∨ (∀ j, host.Consulted pid j → topology j ≠ .broken) ∨
      host.free pid topology = ∅ := by
  apply (getPreferredCpu_spec has).decided
  rintro rc _ ⟨missed, chosen⟩
  by_cases misses : host.Misses pid topology
  · have unreadable : ¬host.Readable pid topology := fun r => (readable_iff.mp r).1 misses
    obtain rfl := missed misses
    refine ⟨fun _ => .inl misses, fun _ => ⟨?_, ?_⟩⟩
    · intro i
      simp only [unreadable, false_and, iff_false]
      omega
    · simp [unreadable]
  obtain ⟨least, none⟩ := chosen misses
  by_cases sound : ∀ j, host.Consulted pid j → topology j ≠ .broken
  · have readable := readable_iff.mpr ⟨misses, sound⟩
    refine ⟨fun _ => .inr (.inl sound), fun _ => ⟨?_, ?_⟩⟩
    · intro i
      rw [least i]
      exact (and_iff_right readable).symm
    · rw [none]
      simp [readable]
  · have unreadable : ¬host.Readable pid topology := fun r => sound (readable_iff.mp r).2
    constructor
    · intro prefers
      exact .inr (.inr (none.mp (prefers.none.mpr (.inr unreadable))))
    · rintro (wrong | wrong | full)
      · exact absurd wrong misses
      · exact absurd wrong sound
      · obtain rfl := none.mpr full
        refine ⟨?_, by simp [full]⟩
        intro i
        simp only [unreadable, false_and, iff_false]
        omega

end

/-- Two processors, of which the process uses the first. -/
def twoProcessors (list : Option (List UInt8)) : Host := ⟨2, fun _ => some 1, fun _ => list⟩

theorem second_preferred :
    Ensures (getPreferredCpu (twoProcessors (some (listText [.single 0]))) 1)
      (fun rc _ => (twoProcessors (some (listText [.single 0]))).Prefers 1
        (fun _ => .cpus [0] (by decide) (by decide)) rc)
      (fun _ _ => False) 0 := by
  apply (preferred_cpu_iff ?_).mpr
  · exact .inr (.inl fun _ _ => CoreList.noConfusion)
  · exact fun _ _ => rfl

/-- The list of CPU 0 cannot be read, and CPU 0 itself is preferred. -/
theorem unread_list_ignored :
    (twoProcessors (some [])).Has (fun _ => .broken) ∧
    getPreferredCpu (twoProcessors (some [])) 1 0 = .ok 0 0 ∧
    ¬(twoProcessors (some [])).Readable 1 (fun _ => .broken) ∧
    ¬(twoProcessors (some [])).Prefers 1 (fun _ => .broken) 0 := by
  have unreadable : ¬(twoProcessors (some [])).Readable 1 (fun _ => .broken) := by
    intro readable
    exact (readable.2 0 ⟨by decide, 1, rfl, rfl⟩).2 rfl
  refine ⟨fun _ _ => rfl, rfl, unreadable, ?_⟩
  intro prefers
  exact unreadable ((prefers.least 0).mp rfl).1

end Ultrasight
