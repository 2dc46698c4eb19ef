import Mathlib.Data.List.Pairwise
import Mathlib.Data.Set.Basic
import Ultrasight.Functions
import Ultrasight.Text

/-!
# CPU sets and CPU lists

A `cpu_set_t` is a set of bits, and `set_core_cpus` adds to it the CPUs that
share a core with a given one, as `core_cpus_list` has them.

* `setCoreCpus_spec`: what it adds is the first CPU of every item of the list;
* `set_core_cpus_iff`: so it loses the others of a range `a-b`.
-/

namespace Ultrasight

open Fn Text

/-! ## Sets of CPUs -/

/-- A `cpu_set_t` of `setsize` bytes. -/
abbrev CpuSet (setsize : Nat) := BitVec (8 * setsize)

namespace CpuSet

variable {setsize : Nat}

/-- `CPU_SET_S`: the number becomes a `size_t`, and one behind the end of the
set is dropped. -/
def add (cpu : BitVec 32) (set : CpuSet setsize) : CpuSet setsize :=
  let cpu := (cpu.signExtend 64).toNat
  if cpu / 8 < setsize then set ||| BitVec.twoPow (8 * setsize) cpu else set

/-- `CPU_ISSET_S`. -/
def has (cpu : Nat) (set : CpuSet setsize) : Bool := set.getLsbD cpu

def members (set : CpuSet setsize) : Set Nat := {n | set.has n = true}

theorem signExtend_of_small {n : Nat} (small : n < 2 ^ 31) :
    ((BitVec.ofNat 32 n).signExtend 64).toNat = n := by
  have positive : (BitVec.ofNat 32 n).msb = false := by
    rw [BitVec.msb_eq_false_iff_two_mul_lt, BitVec.toNat_ofNat]
    omega
  rw [BitVec.signExtend_eq_setWidth_of_msb_false positive, BitVec.toNat_setWidth,
    BitVec.toNat_ofNat]
  omega

/-- A CPU behind the end is dropped, any other is added. -/
theorem members_add {n : Nat} (small : n < 2 ^ 31) (set : CpuSet setsize) :
    (set.add (.ofNat 32 n)).members = set.members ∪ {m | m = n ∧ m < 8 * setsize} := by
  ext m
  simp only [add, members, has, signExtend_of_small small, Set.mem_ofPred_eq, Set.mem_union]
  by_cases inside : n / 8 < setsize
  · rw [if_pos inside, BitVec.getLsbD_or, BitVec.getLsbD_twoPow]
    have fits : n < 8 * setsize := by omega
    simp only [fits, decide_true, Bool.true_and, Bool.or_eq_true, decide_eq_true_eq]
    constructor
    · rintro (old | rfl)
      · exact .inl old
      · exact .inr ⟨rfl, fits⟩
    · rintro (old | ⟨rfl, _⟩)
      · exact .inl old
      · exact .inr rfl
  · rw [if_neg inside]
    constructor
    · exact .inl
    · rintro (old | ⟨rfl, fits⟩)
      · exact old
      · omega

end CpuSet

/-! ## Reading a CPU list -/

def coreCpusListPath (cpu : Int) : List UInt8 :=
  ascii "/sys/devices/system/cpu/cpu" ++ decimal cpu ++ ascii "/topology/core_cpus_list"

/-- The last byte of a token is overwritten, unless it is the only one. -/
def terminate (token : List UInt8) : List UInt8 :=
  if 1 < token.length ∧ token.getLast? ≠ some 0 then token.dropLast ++ [0] else token

/-- The number in front of a token. -/
def tokenNumber (token : List UInt8) : Int := strtol (cString (terminate token))

variable {setsize : Nat}

def addToken (token : List UInt8) : Fn (CpuSet setsize) Unit := do
  let coreCpu := tokenNumber token
  require (coreCpu != longMin && coreCpu != longMax) (-1)
  modify (CpuSet.add (.ofInt 32 coreCpu))

/-- `set_core_cpus` on a set that is there. -/
def setCoreCpus (files : Files) (cpu : Int) : Fn (CpuSet setsize) Int := enclose do
  require (setsize != 0) (-1)
  let list ← given (files (coreCpusListPath cpu)) (-1)
  each (delimited 44 list) addToken
  pure 0

/-! ## The format of the kernel -/

/-- An item of a CPU list: one CPU, or a range. -/
structure CpuItem where
  first : Nat
  last : Nat
  ordered : first ≤ last

def CpuItem.single (cpu : Nat) : CpuItem := ⟨cpu, cpu, Nat.le_refl cpu⟩

def CpuItem.cpus (i : CpuItem) : Set Nat := {n | i.first ≤ n ∧ n ≤ i.last}

def CpuItem.text (i : CpuItem) : List UInt8 :=
  if i.first = i.last then numeral 10 i.first
  else numeral 10 i.first ++ 45 :: numeral 10 i.last

def listText (items : List CpuItem) : List UInt8 :=
  [44].intercalate (items.map CpuItem.text) ++ [10]

/-- What the kernel writes: at least one item, and the numbers increase. -/
structure CpuList where
  items : List CpuItem
  nonempty : items ≠ []
  increasing : items.Pairwise fun i j => i.last < j.first

def CpuList.cpus (l : CpuList) : Set Nat := {n | ∃ i ∈ l.items, n ∈ i.cpus}

/-! ## What is read -/

theorem item_text (i : CpuItem) :
    i.text ≠ [] ∧ 0 ∉ i.text ∧ 44 ∉ i.text ∧ strtol i.text = min longMax i.first := by
  have digits (n : Nat) := numeral_numeral (b := 10) (by decide) (by decide) n
  have zero (n : Nat) : 0 ∉ numeral 10 n := (digits n).not_mem rfl
  have comma (n : Nat) : 44 ∉ numeral 10 n := (digits n).not_mem rfl
  rw [CpuItem.text]
  by_cases one : i.first = i.last
  · have read := strtol_numeral i.first [] rfl
    rw [List.append_nil] at read
    rw [if_pos one]
    exact ⟨(digits i.first).nonempty, zero _, comma _, read⟩
  · have read := strtol_numeral i.first (45 :: numeral 10 i.last) rfl
    rw [if_neg one]
    refine ⟨by simp, ?_, ?_, read⟩
    · simp [zero]
    · simp [comma]

theorem tokenNumber_item (i : CpuItem) {c : UInt8} (h : c ≠ 0) :
    tokenNumber (i.text ++ [c]) = min longMax i.first := by
  obtain ⟨nonempty, plain, _, read⟩ := item_text i
  have long : 1 < (i.text ++ [c]).length := by
    have := List.length_pos_iff.mpr nonempty
    simp only [List.length_append, List.length_singleton]
    omega
  have cut : terminate (i.text ++ [c]) = i.text ++ [0] := by
    rw [terminate, if_pos ⟨long, by simpa using h⟩, List.dropLast_concat]
  have string : cString (i.text ++ [0]) = i.text := by
    have all := cString_eq plain
    rw [cString] at all ⊢
    rw [List.takeWhile_append, all]
    simp
  rw [tokenNumber, cut, string, read]

/-- The tokens are the items. -/
theorem tokens_listText {items : List CpuItem} (nonempty : items ≠ []) :
    (delimited 44 (listText items)).map tokenNumber =
      items.map fun i => min longMax (i.first : Int) := by
  induction items with
  | nil => exact absurd rfl nonempty
  | cons i items ih =>
    obtain ⟨_, _, comma, _⟩ := item_text i
    cases items with
    | nil =>
      have one : delimited 44 (i.text ++ [10]) = [i.text ++ [10]] :=
        delimited_last (by simp [comma]) (by simp)
      simp [listText, one, tokenNumber_item]
    | cons j items =>
      have split : listText (i :: j :: items) = i.text ++ 44 :: listText (j :: items) := by
        simp [listText, List.intercalate_cons_cons]
      rw [split, delimited_append comma, List.map_cons, ih (List.cons_ne_nil j items),
        tokenNumber_item i (by decide)]
      rfl

/-! ## What is added -/

section
variable {files : Files} {cpu : Int} {items : List CpuItem} {set : CpuSet setsize}

theorem addToken_spec {token : List UInt8} {n : Nat} (number : tokenNumber token = n)
    (small : n < 2 ^ 31) :
    Ensures (addToken token)
      (fun _ set' => set'.members = set.members ∪ {m | m = n ∧ m < 8 * setsize})
      (fun _ _ => False) set := by
  have neither : (tokenNumber token != longMin && tokenNumber token != longMax) = true := by
    simp only [number, longMin, longMax, Bool.and_eq_true, bne_iff_ne]
    omega
  have word : BitVec.ofInt 32 (tokenNumber token) = .ofNat 32 n := by
    rw [number, BitVec.ofInt_natCast]
  simp only [addToken, ensures_bind, ensures_require, ensures_modify, neither, word]
  refine ⟨fun _ => CpuSet.members_add small set, ?_⟩
  intro never
  cases never

theorem addTokens_spec (set : CpuSet setsize) {tokens : List (List UInt8)}
    (number : ∀ t ∈ tokens, ∃ n : Nat, tokenNumber t = n ∧ n < 2 ^ 31) :
    Ensures (each tokens addToken)
      (fun _ set' => set'.members =
        set.members ∪ {n | n < 8 * setsize ∧ ∃ t ∈ tokens, tokenNumber t = n})
      (fun _ _ => False) set := by
  apply ensures_each fun (done : List (List UInt8)) (set' : CpuSet setsize) =>
    set'.members = set.members ∪ {n | n < 8 * setsize ∧ ∃ t ∈ done, tokenNumber t = n}
  · intro done t rest split set' inv
    obtain ⟨i, first, small⟩ := number t (by simp [split])
    apply (addToken_spec first small).mono _ (fun _ _ never => never)
    intro _ set'' step
    rw [step, inv]
    ext n
    simp only [Set.mem_union, Set.mem_ofPred_eq, List.mem_append, List.mem_singleton]
    constructor
    · rintro ((old | ⟨fits, t', ht', same⟩) | ⟨rfl, fits⟩)
      · exact .inl old
      · exact .inr ⟨fits, t', .inl ht', same⟩
      · exact .inr ⟨fits, t, .inr rfl, first⟩
    · rintro (old | ⟨fits, t', ht' | rfl, same⟩)
      · exact .inl (.inl old)
      · exact .inl (.inr ⟨fits, t', ht', same⟩)
      · exact .inr ⟨by omega, fits⟩
  · simp

/-- Of every item the first CPU is added, if the set has room for it. -/
theorem setCoreCpus_spec (room : setsize ≠ 0) (nonempty : items ≠ [])
    (small : ∀ i ∈ items, i.first < 2 ^ 31)
    (file : files (coreCpusListPath cpu) = some (listText items)) :
    Ensures (setCoreCpus files cpu)
      (fun rc set' => rc = 0 ∧ set'.members =
        set.members ∪ {n | n < 8 * setsize ∧ ∃ i ∈ items, n = i.first})
      (fun _ _ => False) set := by
  have unclamped : (items.map fun i => min longMax (i.first : Int)) =
      items.map fun i => (i.first : Int) := by
    apply List.map_congr_left
    intro i hi
    have bound := small i hi
    simp only [longMax]
    omega
  have tokens := (tokens_listText nonempty).trans unclamped
  have listed (k : Int) : (∃ t ∈ delimited 44 (listText items), tokenNumber t = k) ↔
      ∃ i ∈ items, (i.first : Int) = k := by
    rw [← List.mem_map, ← List.mem_map (f := fun i : CpuItem => (i.first : Int)), tokens]
  have numbers : ∀ t ∈ delimited 44 (listText items), ∃ n : Nat, tokenNumber t = n ∧ n < 2 ^ 31 := by
    intro t ht
    obtain ⟨i, hi, same⟩ := (listed (tokenNumber t)).mp ⟨t, ht, rfl⟩
    exact ⟨i.first, same.symm, small i hi⟩
  have loop := addTokens_spec set numbers
  simp only [listed, Int.natCast_inj] at loop
  simp only [setCoreCpus, ensures_enclose, ensures_bind, ensures_require, ensures_given, file,
    bne_iff_ne, Option.some.injEq, forall_eq', ensures_pure, reduceCtorEq, false_implies,
    and_true]
  refine ⟨fun _ => ?_, ?_⟩
  · apply loop.mono _ (fun _ _ never => never.elim)
    intro _ set' done
    simpa only [true_and, eq_comm] using done
  · intro none
    simp [room] at none

end

/-! ## Ranges -/

/-- No number of a range is the first number of another item. -/
theorem CpuList.first_ne (l : CpuList) {i j : CpuItem} (hi : i ∈ l.items) (hj : j ∈ l.items)
    {n : Nat} (behind : i.first < n) (inside : n ≤ i.last) : n ≠ j.first := by
  have symmetric : Std.Symm fun i j : CpuItem => i.last < j.first ∨ j.last < i.first :=
    ⟨fun _ _ => Or.symm⟩
  have either : l.items.Pairwise fun i j => i.last < j.first ∨ j.last < i.first :=
    l.increasing.imp fun less => .inl less
  have apart := either.forall hi hj
  rintro rfl
  by_cases same : i = j
  · subst same
    omega
  · have := j.ordered
    have := apart same
    omega

/-- `alloc_cpu_set` makes no set of more bytes: the number of processors is an
`int`. -/
def maxSetsize : Nat := 2 ^ 28

/-- The set gets exactly the CPUs of the list if and only if those that stand in
a range behind its first number are in it already. -/
theorem set_core_cpus_iff {files : Files} {cpu : Int} (l : CpuList)
    (file : files (coreCpusListPath cpu) = some (listText l.items))
    (bounded : setsize ≤ maxSetsize) (fits : ∀ n ∈ l.cpus, n < 8 * setsize)
    (set : CpuSet setsize) :
    Ensures (setCoreCpus files cpu)
      (fun rc set' => rc = 0 ∧ set'.members = set.members ∪ l.cpus) (fun _ _ => False) set ↔
    ∀ i ∈ l.items, ∀ n, i.first < n → n ≤ i.last → n ∈ set.members := by
  have first {i : CpuItem} (hi : i ∈ l.items) : i.first ∈ l.cpus :=
    ⟨i, hi, Nat.le_refl _, i.ordered⟩
  have small : ∀ i ∈ l.items, i.first < 2 ^ 31 := by
    intro i hi
    have := fits _ (first hi)
    simp only [maxSetsize] at bounded
    omega
  have room : setsize ≠ 0 := by
    obtain ⟨i, rest, same⟩ := List.exists_cons_of_ne_nil l.nonempty
    have := fits _ (first (same ▸ List.mem_cons_self))
    omega
  apply (setCoreCpus_spec room l.nonempty small file).decided
  rintro rc set' ⟨rfl, added⟩
  rw [added]
  constructor
  · rintro ⟨_, same⟩ i hi n behind inside
    have member : n ∈ set.members ∪ l.cpus := .inr ⟨i, hi, Nat.le_of_lt behind, inside⟩
    rw [← same] at member
    cases member with
    | inl old => exact old
    | inr new =>
      obtain ⟨_, j, hj, eq⟩ := new
      exact absurd eq (l.first_ne hi hj behind inside)
  · intro there
    refine ⟨rfl, ?_⟩
    ext n
    constructor
    · rintro (old | ⟨_, i, hi, rfl⟩)
      · exact .inl old
      · exact .inr (first hi)
    · rintro (old | ⟨i, hi, low, high⟩)
      · exact .inl old
      · by_cases start : n = i.first
        · exact .inr ⟨fits n ⟨i, hi, low, high⟩, i, hi, start⟩
        · exact .inl (there i hi n (by omega) high)

/-- Two CPUs on one core. -/
def twoSiblings : CpuList := ⟨[⟨0, 1, by decide⟩], by decide, List.pairwise_singleton _ _⟩

theorem twoSiblings_item : ∀ i ∈ twoSiblings.items, i.first = 0 ∧ i.last = 1 := by
  intro i hi
  obtain rfl := List.mem_singleton.mp hi
  exact ⟨rfl, rfl⟩

theorem range_already_there :
    Ensures (setCoreCpus (fun _ => some (listText twoSiblings.items)) 0)
      (fun rc set' => rc = 0 ∧ set'.members = CpuSet.members (2 : CpuSet 8) ∪ twoSiblings.cpus)
      (fun _ _ => False) (2 : CpuSet 8) := by
  apply (set_core_cpus_iff twoSiblings rfl (by decide) ?_ 2).mpr
  · intro i hi n behind inside
    have range := twoSiblings_item i hi
    obtain rfl : n = 1 := by omega
    rfl
  · rintro n ⟨i, hi, -, inside⟩
    have range := twoSiblings_item i hi
    omega

/-- Of the range `0-1`, only CPU 0 is added. -/
theorem range_sibling_lost :
    listText twoSiblings.items = ascii "0-1\n" ∧
    setCoreCpus (fun _ => some (ascii "0-1\n")) 0 (0 : CpuSet 8) = .ok 0 1 ∧
    1 ∈ twoSiblings.cpus ∧ 1 ∉ CpuSet.members (1 : CpuSet 8) := by
  refine ⟨by decide, rfl, ⟨_, List.mem_cons_self, by decide, by decide⟩, ?_⟩
  exact Bool.false_ne_true

end Ultrasight
