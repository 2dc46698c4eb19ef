import Ultrasight.Lines
import Ultrasight.Numbers
import Ultrasight.PreferredCpu

/-!
# A free CPU

`find_free_cpu` looks through `/proc` for threads that are bound to one CPU, and
takes the first CPU with none. Kernel threads have no `VmSize` line, and are not
counted.

* `readStatus` is its loop over the lines of a status file, and
  `readStatus_iff` what it finds in one that the kernel wrote;
* `Adds`: a loop marks CPUs as used, and no others;
* `free_cpu_least`: the result is the least CPU that no thread is bound to.
-/

namespace Ultrasight

open Fn Text

def maxLine : Nat := 8192
def maxCpus : Nat := 4096

/-- `/proc`: the entries of each directory that can be opened, and the files. -/
structure ProcFs where
  readdir : List UInt8 → Option (List (List UInt8))
  files : Files

/-! ## The code -/

def procPath : List UInt8 := ascii "/proc"

def taskPath (proc : List UInt8) : List UInt8 := ascii "/proc/" ++ proc ++ ascii "/task"

def statusPath (proc task : List UInt8) : List UInt8 :=
  ascii "/proc/" ++ proc ++ ascii "/task/" ++ task ++ ascii "/status"

def vmSize : List UInt8 := ascii "VmSize:\t"
def cpusAllowedList : List UInt8 := ascii "Cpus_allowed_list:\t"

/-- The second `if` in the loop over the lines: the CPU that is flagged. -/
def flagged (hasVmsize : Bool) (tmp : List UInt8) : Option Nat :=
  if cpusAllowedList.isPrefixOf tmp && !(cString tmp).contains 45 && !(cString tmp).contains 44 then
    ((scanUnsigned (cString (tmp.drop 19))).map fun p => p.1.toNat).filter fun hval =>
      decide (hval < maxCpus) && hasVmsize
  else none

/-- The loop over the lines of a status file, up to its `break`. -/
def readStatus : Bool → List (List UInt8) → Option Nat
  | _, [] => none
  | hasVmsize, tmp :: rest =>
    let hasVmsize := hasVmsize || vmSize.isPrefixOf tmp
    match flagged hasVmsize tmp with
    | some hval => some hval
    | none => readStatus hasVmsize rest

def numbered (name : List UInt8) : Bool := startsWith (isDigit 10) name

section
variable (fs : ProcFs)

/-- The state is `cpu_used`, an array of `MAX_CPUS` flags. -/
def flagThread (proc task : List UInt8) : Fn (Nat → Bool) Unit :=
  when (numbered task) do
    match fs.files (statusPath proc task) with
    | none => pure ()
    | some status =>
      match readStatus false (fgetsAll maxLine status) with
      | none => pure ()
      | some hval => do
        assert (hval < maxCpus)
        modify fun cpuUsed => Function.update cpuUsed hval true

def flagProcess (proc : List UInt8) : Fn (Nat → Bool) Unit :=
  when (numbered proc) do
    match fs.readdir (taskPath proc) with
    | none => pure ()
    | some tasks => each tasks (flagThread fs proc)

/-- One round of the last loop. -/
def tryCpu (i : Nat) : Fn (Nat → Bool) Unit := do
  assert (i < maxCpus)
  let cpuUsed ← get
  require (cpuUsed i) i

def findFreeCpu (nprocs : Int) : Fn (Nat → Bool) Int := enclose do
  require (2 ≤ nprocs) 0
  modify fun _ _ => false
  let procs ← given (fs.readdir procPath) (-1)
  each procs (flagProcess fs)
  each (List.range nprocs.toNat) tryCpu
  pure (-1)

end

/-! ## What the kernel writes -/

/-- The items of a CPU list, separated by commas; there may be none. -/
def listItems (items : List CpuItem) : List UInt8 := [44].intercalate (items.map CpuItem.text)

/-- The line lists these CPUs. The last line of a file may have no newline. -/
def Lists (items : List CpuItem) (line : List UInt8) : Prop :=
  line = cpusAllowedList ++ listItems items ∨ line = cpusAllowedList ++ listItems items ++ [10]

/-- A status file: lines shorter than the buffer, and at most one with allowed
CPUs, whose numbers fit in an `unsigned int`. -/
structure StatusFile (status : List UInt8) : Prop where
  short : ∀ line ∈ delimited 10 status, (line.takeWhile (· != 10)).length < maxLine
  one : ((delimited 10 status).filter cpusAllowedList.isPrefixOf).length ≤ 1
  listed : ∀ line ∈ delimited 10 status, cpusAllowedList <+: line →
    ∃ items, Lists items line ∧ ∀ i ∈ items, i.last < 2 ^ 32

/-- A `VmSize` line, and later one that allows CPU `i` only. -/
def BoundTo (i : Nat) (status : List UInt8) : Prop :=
  ∃ before line after, delimited 10 status = before ++ line :: after ∧
    (∃ l ∈ before, vmSize <+: l) ∧ Lists [.single i] line

namespace ProcFs

variable (fs : ProcFs)

/-- `status` is the status file of a thread that is reached and can be read. -/
def Reads (status : List UInt8) : Prop :=
  ∃ procs proc tasks task, fs.readdir procPath = some procs ∧ proc ∈ procs ∧
    numbered proc = true ∧ fs.readdir (taskPath proc) = some tasks ∧ task ∈ tasks ∧
    numbered task = true ∧ fs.files (statusPath proc task) = some status

/-- The status files of all threads are as the kernel writes them. -/
def Regular : Prop := ∀ status, fs.Reads status → StatusFile status

/-- A thread is bound to CPU `i`. -/
def Taken (i : Nat) : Prop := ∃ status, fs.Reads status ∧ BoundTo i status

/-- The least CPU that no thread is bound to, or -1 if there is none or `/proc`
cannot be opened. -/
structure Finds (nprocs : Nat) (rc : Int) : Prop where
  least : ∀ i : Nat, rc = i ↔
    fs.readdir procPath ≠ none ∧ IsLeast {i | i < nprocs ∧ ¬fs.Taken i} i
  none : rc = -1 ↔ fs.readdir procPath = none ∨ ∀ i < nprocs, fs.Taken i

end ProcFs

/-! ## One line -/

section
variable {items : List CpuItem} {line t : List UInt8} {vm : Bool} {i : Nat} {c : UInt8}

theorem item_plain (i : CpuItem) (digit : isDigit 10 c = false) (other : c ≠ 45) : c ∉ i.text := by
  have number (n : Nat) : c ∉ numeral 10 n :=
    (numeral_numeral (b := 10) (by decide) (by decide) n).not_mem digit
  rw [CpuItem.text]
  split
  · exact number _
  · simp [number, other]

/-- The bytes of a list are digits, dashes and commas. -/
theorem items_plain (digit : isDigit 10 c = false) (dash : c ≠ 45) (comma : c ≠ 44) :
    c ∉ listItems items := by
  induction items with
  | nil => simp [listItems]
  | cons i items ih =>
    cases items with
    | nil => simpa [listItems] using item_plain i digit dash
    | cons j items =>
      have split : listItems (i :: j :: items) = i.text ++ 44 :: listItems (j :: items) := by
        simp [listItems, List.intercalate_cons_cons]
      simp [split, item_plain i digit dash, comma, ih]

/-- A line that lists CPUs is the name, the list and the rest. -/
theorem Lists.split (h : Lists items line) :
    ∃ rest, (rest = [] ∨ rest = [10]) ∧ line = cpusAllowedList ++ (listItems items ++ rest) := by
  rcases h with rfl | rfl
  · exact ⟨[], .inl rfl, by simp⟩
  · exact ⟨[10], .inr rfl, by simp⟩

/-- `flagged` on a line that has no zero byte. -/
theorem flagged_eq {text : List UInt8} (plain : 0 ∉ text) :
    flagged vm (cpusAllowedList ++ text) =
      if 45 ∈ text ∨ 44 ∈ text then none
      else ((scanUnsigned text).map fun p => p.1.toNat).filter fun hval =>
        decide (hval < maxCpus) && vm := by
  have zero : 0 ∉ cpusAllowedList ++ text := by
    rw [List.mem_append]
    rintro (name | later)
    · revert name
      decide
    · exact plain later
  have name : 45 ∉ cpusAllowedList ∧ 44 ∉ cpusAllowedList := by decide
  have behind : (cpusAllowedList ++ text).drop 19 = text := rfl
  have named : cpusAllowedList.isPrefixOf (cpusAllowedList ++ text) = true := by simp
  rw [flagged, cString_eq zero, behind, cString_eq plain, named]
  by_cases dash : 45 ∈ text
  · simp [dash]
  · by_cases comma : 44 ∈ text
    · simp [comma]
    · simp [dash, comma, name]

/-- A line flags a CPU if it lists only this one. -/
theorem flagged_iff (h : Lists items line) (small : ∀ i ∈ items, i.last < 2 ^ 32) :
    flagged vm line = some i ↔ vm = true ∧ i < maxCpus ∧ items = [.single i] := by
  obtain ⟨rest, newline, rfl⟩ := h.split
  have tail : 0 ∉ rest ∧ 45 ∉ rest ∧ 44 ∉ rest ∧ startsWith (isDigit 10) rest = false := by
    rcases newline with rfl | rfl <;> decide
  have zero : 0 ∉ listItems items ++ rest := by
    simp [@items_plain items 0 rfl (by decide) (by decide), tail]
  rw [flagged_eq zero]
  cases items with
  | nil =>
    have none : scanUnsigned (listItems [] ++ rest) = none := by
      rcases newline with rfl | rfl <;> rfl
    simp [none]
  | cons j others =>
    cases others with
    | nil =>
      have only : listItems [j] = j.text := by simp [listItems]
      by_cases one : j.first = j.last
      · have digits := numeral_numeral (b := 10) (by decide) (by decide) j.first
        have text : j.text = numeral 10 j.first := by rw [CpuItem.text, if_pos one]
        have bare : 45 ∉ j.text ++ rest ∧ 44 ∉ j.text ++ rest := by
          simp [text, digits.not_mem (d := 45) rfl, digits.not_mem (d := 44) rfl, tail]
        have fits : j.first < 2 ^ 32 := by
          have := small j List.mem_cons_self
          omega
        have read : scanUnsigned (j.text ++ rest) = some (.ofNat 32 j.first, rest) := by
          rw [text]
          exact scanUnsigned_numeral digits fits tail.2.2.2
        have value : (BitVec.ofNat 32 j.first).toNat = j.first := by
          rw [BitVec.toNat_ofNat]
          omega
        have same : [j] = [CpuItem.single i] ↔ j.first = i := by
          obtain ⟨first, last, ordered⟩ := j
          obtain rfl : first = last := one
          simp [CpuItem.single]
        rw [only, if_neg (by simp [bare]), read, same]
        simp only [Option.map_some, value, Option.filter_eq_some_iff, Option.some.injEq,
          Bool.and_eq_true, decide_eq_true_eq]
        constructor
        · rintro ⟨rfl, inside, loud⟩
          exact ⟨loud, inside, rfl⟩
        · rintro ⟨loud, inside, rfl⟩
          exact ⟨rfl, inside, loud⟩
      · have dash : 45 ∈ j.text := by simp [CpuItem.text, one]
        have other : [j] ≠ [CpuItem.single i] := by
          rintro same
          obtain rfl := List.singleton_inj.mp same
          exact one rfl
        simp [only, dash, other]
    | cons k others =>
      have comma : 44 ∈ listItems (j :: k :: others) := by
        simp [listItems, List.intercalate_cons_cons]
      simp [comma]

/-- If it has allowed CPUs, it lists some. -/
def Listed (line : List UInt8) : Prop :=
  cpusAllowedList <+: line → ∃ items, Lists items line ∧ ∀ i ∈ items, i.last < 2 ^ 32

theorem Lists.named (h : Lists items line) : cpusAllowedList <+: line := by
  obtain ⟨rest, _, rfl⟩ := h.split
  exact List.prefix_append _ _

theorem flagged_unnamed (other : ¬cpusAllowedList <+: line) : flagged vm line = none := by
  rw [flagged, Bool.eq_false_iff.mpr (mt List.isPrefixOf_iff_prefix.mp other)]
  rfl

theorem Listed.flagged_iff (h : Listed line) :
    flagged vm line = some i ↔ vm = true ∧ i < maxCpus ∧ Lists [.single i] line := by
  have one (inside : i < maxCpus) : ∀ j ∈ [CpuItem.single i], j.last < 2 ^ 32 := by
    intro j hj
    obtain rfl := List.mem_singleton.mp hj
    exact Nat.lt_trans inside (by decide)
  constructor
  · intro found
    by_cases named : cpusAllowedList <+: line
    · obtain ⟨items, lists, small⟩ := h named
      obtain ⟨loud, inside, rfl⟩ := (Ultrasight.flagged_iff lists small).mp found
      exact ⟨loud, inside, lists⟩
    · rw [flagged_unnamed named] at found
      cases found
  · rintro ⟨loud, inside, lists⟩
    exact (Ultrasight.flagged_iff lists (one inside)).mpr ⟨loud, inside, rfl⟩

/-- Without its newline, a line says the same. -/
theorem lists_newline_iff (plain : 10 ∉ t) : Lists items (t ++ [10]) ↔ Lists items t := by
  have ends : 10 ∉ cpusAllowedList ++ listItems items := by
    rw [List.mem_append]
    rintro (name | list)
    · revert name
      decide
    · exact items_plain rfl (by decide) (by decide) list
  have bare (s : List UInt8) : t ≠ s ++ [10] := by
    rintro rfl
    simp at plain
  constructor
  · rintro (whole | cut)
    · exact absurd (whole ▸ by simp) ends
    · exact .inl (List.append_cancel_right cut)
  · rintro (rfl | same)
    · exact .inr rfl
    · exact absurd same (bare _)

theorem named_newline_iff {name : List UInt8} (plain : 10 ∉ name) :
    name <+: t ++ [10] ↔ name <+: t := by
  rw [List.prefix_concat_iff]
  constructor
  · rintro (rfl | short)
    · simp at plain
    · exact short
  · exact .inr

theorem Listed.bare (h : Listed (t ++ [10])) (plain : 10 ∉ t) : Listed t := by
  intro named
  obtain ⟨items, lists, small⟩ := h ((named_newline_iff (by decide)).mpr named)
  exact ⟨items, (lists_newline_iff plain).mp lists, small⟩

theorem flagged_newline (h : Listed (t ++ [10])) (plain : 10 ∉ t) :
    flagged vm t = flagged vm (t ++ [10]) := by
  apply Option.ext
  intro i
  rw [(h.bare plain).flagged_iff, h.flagged_iff, lists_newline_iff plain]

/-! ## A status file -/

/-- Newlines on their own do not matter. -/
theorem readStatus_broken {chunks lines : List (List UInt8)} (h : Broken chunks lines)
    (listed : ∀ line ∈ lines, Listed line) : readStatus vm chunks = readStatus vm lines := by
  induction h generalizing vm with
  | nil => rfl
  | whole _ ih =>
    simp only [readStatus, ih fun line hl => listed line (List.mem_cons_of_mem _ hl)]
  | @cut t _ _ plain _ ih =>
    have size : vmSize.isPrefixOf t = vmSize.isPrefixOf (t ++ [10]) := by
      rw [Bool.eq_iff_iff, List.isPrefixOf_iff_prefix, List.isPrefixOf_iff_prefix,
        named_newline_iff (by decide)]
    have same (vm : Bool) : flagged vm t = flagged vm (t ++ [10]) :=
      flagged_newline (listed _ List.mem_cons_self) plain
    have newline (vm : Bool) : (vm || vmSize.isPrefixOf [10]) = vm ∧ flagged vm [10] = none := by
      cases vm <;> decide
    simp only [readStatus, size, same, (newline _).1, (newline _).2,
      ih fun line hl => listed line (List.mem_cons_of_mem _ hl)]

/-- Behind a line with a size, or behind any if there was one before, a line lists
this CPU only. -/
def BoundBehind (i : Nat) (vm : Bool) (lines : List (List UInt8)) : Prop :=
  ∃ before line after, lines = before ++ line :: after ∧
    (vm = true ∨ ∃ l ∈ before, vmSize <+: l) ∧ Lists [.single i] line

theorem boundBehind_cons {tmp : List UInt8} {rest : List (List UInt8)} :
    BoundBehind i vm (tmp :: rest) ↔ vm = true ∧ Lists [.single i] tmp ∨
      BoundBehind i (vm || vmSize.isPrefixOf tmp) rest := by
  have loud_iff : (vm || vmSize.isPrefixOf tmp) = true ↔ vm = true ∨ vmSize <+: tmp := by
    rw [Bool.or_eq_true, List.isPrefixOf_iff_prefix]
  constructor
  · rintro ⟨before, line, after, split, loud, lists⟩
    cases before with
    | nil =>
      obtain ⟨rfl, rfl⟩ := List.cons.inj split
      exact .inl ⟨by simpa using loud, lists⟩
    | cons b before =>
      obtain ⟨rfl, rfl⟩ := List.cons.inj split
      refine .inr ⟨before, line, after, rfl, ?_, lists⟩
      rw [loud_iff, or_assoc]
      exact loud.imp_right fun earlier => by simpa using earlier
  · rintro (⟨loud, lists⟩ | ⟨before, line, after, rfl, loud, lists⟩)
    · exact ⟨[], tmp, rest, rfl, .inl loud, lists⟩
    · refine ⟨tmp :: before, line, after, rfl, ?_, lists⟩
      rw [loud_iff, or_assoc] at loud
      exact loud.imp_right fun earlier => by simpa using earlier

theorem readStatus_iff {lines : List (List UInt8)} (listed : ∀ line ∈ lines, Listed line)
    (one : (lines.filter cpusAllowedList.isPrefixOf).length ≤ 1) :
    readStatus vm lines = some i ↔ i < maxCpus ∧ BoundBehind i vm lines := by
  induction lines generalizing vm with
  | nil => simp [readStatus, BoundBehind]
  | cons tmp rest ih =>
    have here := listed tmp List.mem_cons_self
    have later := fun line hl => listed line (List.mem_cons_of_mem tmp hl)
    rw [List.filter_cons] at one
    rw [boundBehind_cons]
    simp only [readStatus]
    cases found : flagged (vm || vmSize.isPrefixOf tmp) tmp with
    | some hval =>
      obtain ⟨loud, inside, lists⟩ := here.flagged_iff.mp found
      have named := lists.named
      have alone : ∀ l ∈ rest, ¬cpusAllowedList <+: l := by
        rw [if_pos (List.isPrefixOf_iff_prefix.mpr named), List.length_cons] at one
        have none : rest.filter cpusAllowedList.isPrefixOf = [] :=
          List.length_eq_zero_iff.mp (by omega)
        intro l hl again
        exact List.filter_eq_nil_iff.mp none l hl (List.isPrefixOf_iff_prefix.mpr again)
      have early : vm = true := by
        refine (Bool.or_eq_true _ _ ▸ loud).resolve_right fun size => ?_
        have size := List.isPrefixOf_iff_prefix.mp size
        rcases List.prefix_or_prefix_of_prefix size named with clash | clash
        · revert clash
          decide
        · revert clash
          decide
      constructor
      · rintro ⟨⟩
        exact ⟨inside, .inl ⟨early, lists⟩⟩
      · rintro ⟨fits, ⟨_, lists'⟩ | ⟨before, line, after, rfl, _, lists'⟩⟩
        · exact found.symm.trans (here.flagged_iff.mpr ⟨loud, fits, lists'⟩)
        · exact absurd lists'.named (alone line (by simp))
    | none =>
      have rest_one : (rest.filter cpusAllowedList.isPrefixOf).length ≤ 1 := by
        split at one
        · rw [List.length_cons] at one
          omega
        · exact one
      have not_here (inside : i < maxCpus) : ¬ (vm = true ∧ Lists [.single i] tmp) := by
        rintro ⟨early, lists⟩
        have loud : (vm || vmSize.isPrefixOf tmp) = true := by rw [early, Bool.true_or]
        have flags := here.flagged_iff.mpr ⟨loud, inside, lists⟩
        rw [found] at flags
        cases flags
      rw [ih later rest_one]
      exact and_congr_right fun inside => (or_iff_right (not_here inside)).symm

theorem StatusFile.read_iff {status : List UInt8} (h : StatusFile status) :
    readStatus false (fgetsAll maxLine status) = some i ↔ i < maxCpus ∧ BoundTo i status := by
  rw [readStatus_broken (fgetsAll_broken h.short) h.listed, readStatus_iff h.listed h.one]
  simp [BoundTo, BoundBehind]

end

/-! ## The loops -/

/-- `x` marks the CPUs in `S` as used. -/
def Adds (x : Fn (Nat → Bool) Unit) (S : Set Nat) : Prop :=
  ∀ cpuUsed, Ensures x (fun _ used => ∀ i, used i = true ↔ cpuUsed i = true ∨ i ∈ S)
    (fun _ _ => False) cpuUsed

section
variable {S : Set Nat} {x : Fn (Nat → Bool) Unit}

theorem adds_nothing : Adds (pure ()) ∅ := by
  intro cpuUsed
  simp

theorem Adds.congr {T : Set Nat} (h : Adds x S) (same : ∀ i, i ∈ S ↔ i ∈ T) : Adds x T :=
  (Set.ext same : S = T) ▸ h

theorem Adds.when {c : Bool} (h : c = true → Adds x S) : Adds (when c x) {i | c = true ∧ i ∈ S} := by
  cases c with
  | false => exact adds_nothing.congr (by simp)
  | true => exact (h rfl).congr (by simp)

theorem adds_each {α : Type} {l : List α} {body : α → Fn (Nat → Bool) Unit} {S : α → Set Nat}
    (h : ∀ a ∈ l, Adds (body a) (S a)) : Adds (each l body) {i | ∃ a ∈ l, i ∈ S a} := by
  intro cpuUsed
  apply ensures_each fun (done : List α) (used : Nat → Bool) =>
    ∀ i, used i = true ↔ cpuUsed i = true ∨ i ∈ {i | ∃ a ∈ done, i ∈ S a}
  · intro done a rest split used inv
    apply (h a (by simp [split]) used).mono _ (fun _ _ never => never)
    intro _ used' step i
    rw [step i, inv i]
    simp only [Set.mem_ofPred_eq, List.mem_append, List.mem_singleton]
    grind
  · simp

variable {fs : ProcFs}

/-- A thread adds the CPU it is bound to. -/
theorem adds_flagThread {proc task : List UInt8} (file : numbered task = true →
    ∀ status, fs.files (statusPath proc task) = some status → StatusFile status) :
    Adds (flagThread fs proc task) {i | numbered task = true ∧
      ∃ status, fs.files (statusPath proc task) = some status ∧ i < maxCpus ∧ BoundTo i status} := by
  apply Adds.when (S := {i | ∃ status, fs.files (statusPath proc task) = some status ∧
    i < maxCpus ∧ BoundTo i status})
  intro thread
  cases readable : fs.files (statusPath proc task) with
  | none => exact adds_nothing.congr (by simp)
  | some status =>
    have read (i : Nat) := (file thread status readable).read_iff (i := i)
    simp only [Option.some.injEq, exists_eq_left']
    cases found : readStatus false (fgetsAll maxLine status) with
    | none =>
      apply adds_nothing.congr
      intro i
      simpa [found] using read i
    | some hval =>
      intro cpuUsed
      have inside := ((read hval).mp found).1
      simp only [ensures_bind, ensures_assert, ensures_modify, inside, decide_true, true_implies,
        reduceCtorEq, false_implies, and_true]
      intro i
      have only : i < maxCpus ∧ BoundTo i status ↔ hval = i := by simpa [found] using (read i).symm
      simp only [Set.mem_ofPred_eq, only, Function.update_apply]
      grind

theorem adds_flagProcess {proc : List UInt8} (files : numbered proc = true → ∀ tasks task,
    fs.readdir (taskPath proc) = some tasks → task ∈ tasks → numbered task = true →
    ∀ status, fs.files (statusPath proc task) = some status → StatusFile status) :
    Adds (flagProcess fs proc) {i | numbered proc = true ∧ ∃ tasks task,
      fs.readdir (taskPath proc) = some tasks ∧ task ∈ tasks ∧ numbered task = true ∧
      ∃ status, fs.files (statusPath proc task) = some status ∧ i < maxCpus ∧ BoundTo i status} := by
  apply Adds.when (S := {i | ∃ tasks task,
    fs.readdir (taskPath proc) = some tasks ∧ task ∈ tasks ∧ numbered task = true ∧
    ∃ status, fs.files (statusPath proc task) = some status ∧ i < maxCpus ∧ BoundTo i status})
  intro process
  cases opened : fs.readdir (taskPath proc) with
  | none => exact adds_nothing.congr (by simp)
  | some tasks =>
    apply (adds_each fun task htask => adds_flagThread (files process tasks task opened htask)).congr
    intro i
    simp

theorem adds_all {procs : List (List UInt8)} (regular : fs.Regular)
    (opened : fs.readdir procPath = some procs) :
    Adds (each procs (flagProcess fs)) {i | i < maxCpus ∧ fs.Taken i} := by
  have files (proc : List UInt8) (hproc : proc ∈ procs) := @adds_flagProcess fs proc
    fun process tasks task listed htask thread status file =>
      regular status ⟨procs, proc, tasks, task, opened, hproc, process, listed, htask, thread, file⟩
  apply (adds_each files).congr
  intro i
  simp only [Set.mem_ofPred_eq, ProcFs.Taken, ProcFs.Reads, opened, Option.some.injEq]
  constructor
  · rintro ⟨proc, hproc, numbered, tasks, task, listed, htask, numbered', status, file, inside, bound⟩
    exact ⟨inside, status,
      ⟨procs, proc, tasks, task, rfl, hproc, numbered, listed, htask, numbered', file⟩, bound⟩
  · rintro ⟨inside, status,
      ⟨_, proc, tasks, task, rfl, hproc, numbered, listed, htask, numbered', file⟩, bound⟩
    exact ⟨proc, hproc, numbered, tasks, task, listed, htask, numbered', status, file, inside, bound⟩

/-- The last loop returns the first CPU that is not used. -/
theorem tryCpus {cpuUsed : Nat → Bool} {n : Nat} (table : n ≤ maxCpus) :
    Ensures (each (List.range n) tryCpu) (fun _ _ => ∀ i < n, cpuUsed i = true)
      (fun x _ => ∃ i < n, x = .ret i ∧ cpuUsed i = false ∧ ∀ j < i, cpuUsed j = true) cpuUsed := by
  have loop : Ensures (each (List.range n) tryCpu)
      (fun _ used => used = cpuUsed ∧ ∀ i ∈ List.range n, cpuUsed i = true)
      (fun x _ => ∃ i < n, x = .ret i ∧ cpuUsed i = false ∧ ∀ j < i, cpuUsed j = true) cpuUsed := by
    apply ensures_each fun (done : List Nat) (used : Nat → Bool) =>
      used = cpuUsed ∧ ∀ i ∈ done, cpuUsed i = true
    · rintro done a rest split used ⟨rfl, before⟩
      have less : a < n := List.mem_range.mp (by simp [split])
      have ascending : (done ++ a :: rest).Pairwise (· < ·) := split ▸ List.pairwise_lt_range
      have inside : a < maxCpus := by omega
      simp only [tryCpu, ensures_bind, ensures_assert, ensures_get, ensures_require, inside,
        decide_true, true_implies, reduceCtorEq, false_implies, and_true]
      constructor
      · intro taken
        refine ⟨trivial, fun i hi => ?_⟩
        rcases List.mem_append.mp hi with early | last
        · exact before i early
        · obtain rfl := List.mem_singleton.mp last
          exact taken
      · intro free
        refine ⟨a, less, rfl, free, fun j smaller => ?_⟩
        have member : j ∈ done ++ a :: rest := split ▸ List.mem_range.mpr (by omega)
        rcases List.mem_append.mp member with early | late
        · exact before j early
        · rcases List.mem_cons.mp late with rfl | late
          · omega
          · have := List.rel_of_pairwise_cons (List.pairwise_append.mp ascending).2.1 late
            omega
    · exact ⟨rfl, by simp⟩
  apply loop.mono
  · exact fun _ _ all i hi => all.2 i (List.mem_range.mpr hi)
  · exact fun _ _ found => found

/-- **The least free CPU is found.** In any `/proc` whose status files are as the
kernel writes them, the result is the least CPU that no thread is bound to, or -1
if there is none or `/proc` cannot be opened. No index is behind the end of the
array. -/
theorem free_cpu_least (regular : fs.Regular) {nprocs : Nat} (two : 2 ≤ nprocs)
    (table : nprocs ≤ maxCpus) (cpuUsed : Nat → Bool) :
    Ensures (findFreeCpu fs nprocs) (fun rc _ => fs.Finds nprocs rc) (fun _ _ => False) cpuUsed := by
  have many : decide (2 ≤ (nprocs : Int)) = true := decide_eq_true (by omega)
  simp only [findFreeCpu, ensures_enclose, ensures_bind, ensures_require, ensures_given,
    ensures_modify, many, true_implies, reduceCtorEq, false_implies, and_true]
  constructor
  · intro procs opened
    apply (adds_all regular opened _).mono _ (fun _ _ never => never.elim)
    intro _ used marked
    have taken (i : Nat) (less : i < nprocs) : used i = true ↔ fs.Taken i := by
      have inside : i < maxCpus := by omega
      simpa [inside] using marked i
    have there : fs.readdir procPath ≠ none := by simp [opened]
    rw [Int.toNat_natCast]
    apply (tryCpus table).mono
    · intro rc _ all
      have full : ∀ i < nprocs, fs.Taken i := fun i less => (taken i less).mp (all i less)
      apply (ensures_pure _).mpr
      refine ⟨fun i => ⟨fun same => by omega, ?_⟩, fun _ => .inr full, fun _ => rfl⟩
      rintro ⟨_, least⟩
      exact absurd (full i least.1.1) least.1.2
    · rintro x _ ⟨i, less, rfl, free, before⟩
      have untaken : ¬fs.Taken i := by
        rw [← taken i less, free]
        exact Bool.false_ne_true
      have least : IsLeast {i | i < nprocs ∧ ¬fs.Taken i} i := by
        refine ⟨⟨less, untaken⟩, ?_⟩
        rintro j ⟨less', untaken'⟩
        by_contra smaller
        exact untaken' ((taken j less').mp (before j (by omega)))
      constructor
      · intro k
        constructor
        · intro same
          obtain rfl : i = k := by omega
          exact ⟨there, least⟩
        · rintro ⟨_, other⟩
          rw [least.unique other]
      · constructor
        · intro impossible
          omega
        · rintro (none | full)
          · exact absurd none there
          · exact absurd (full i less) untaken
  · intro closed
    refine ⟨fun i => ⟨fun same => by omega, ?_⟩, fun _ => .inl closed, fun _ => rfl⟩
    rintro ⟨there, _⟩
    exact absurd closed there

end

/-- One thread, with this status file. -/
def oneThread (status : List UInt8) : ProcFs where
  readdir path := if path = procPath then some [ascii "self", ascii "7"] else some [ascii "7"]
  files _ := some status

def boundToFirst : List UInt8 := ascii "VmSize:\t8 kB\nCpus_allowed_list:\t0\n"

/-- The thread is bound to CPU 0, so that CPU 1 is found. -/
theorem second_cpu_free :
    Ensures (findFreeCpu (oneThread boundToFirst) 4)
      (fun rc _ => (oneThread boundToFirst).Finds 4 rc ∧ rc = 1) (fun _ _ => False)
      fun _ => true := by
  have lines : delimited 10 boundToFirst =
      [ascii "VmSize:\t8 kB\n", ascii "Cpus_allowed_list:\t0\n"] := by rfl
  have status : StatusFile boundToFirst := by
    constructor
    · rw [lines]
      exact List.forall_mem_cons.mpr ⟨by decide, List.forall_mem_singleton.mpr (by decide)⟩
    · decide
    · rw [lines]
      refine List.forall_mem_cons.mpr ⟨?_, List.forall_mem_singleton.mpr ?_⟩
      · intro named
        exact absurd named (by decide)
      · intro _
        exact ⟨[.single 0], .inr (by decide), List.forall_mem_singleton.mpr (by decide)⟩
  have regular : (oneThread boundToFirst).Regular := by
    rintro text ⟨_, _, _, _, _, _, _, _, _, _, file⟩
    obtain rfl := Option.some.inj file
    exact status
  have computed : Ensures (findFreeCpu (oneThread boundToFirst) 4) (fun rc _ => rc = 1)
      (fun _ _ => False) (fun _ => true) := by decide +kernel
  have least := @free_cpu_least _ regular 4 (by decide) (by decide) (fun _ => true)
  apply (least.and computed).mono
  · exact fun _ _ both => both
  · exact fun _ _ never => never.1

end Ultrasight
