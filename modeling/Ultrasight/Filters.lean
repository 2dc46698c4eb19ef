import Ultrasight.Maps
import Ultrasight.Programming

/-!
# The filter of the ETMs

`init_trace` extracts at most one mapping of the tracee, and `configure_trace`
programs it into the ETMs. The number of mappings is passed along, but not looked
at: with none, the ETMs get the range of an empty table entry.

* `etm_filter_iff`: the filter is the tracee's code if and only if the first
  mapping that is accepted is a file.
-/

namespace Ultrasight

open Fn Text

def rangeMax : Nat := 1

/-- `map_info[0]`. The table is static, so an entry that is not filled is zero. -/
def Extraction.range (s : Extraction) : MapInfo := (s.table.head?.map MapEntry.toMapInfo).getD ⟨0, 0⟩

/-- The ETM includes one range, which is code of a file of the tracee, and selects
the tracee by context comparator 0: the context type is in bits 3:2 of an access
type, the number of the comparator in bits 6:4. -/
structure FiltersTracee (mappings : List Vma) (pid : BitVec 32) (regs : EtmRegs) : Prop where
  pair : regs.viiectlr = 1
  mapping : ∃ v ∈ mappings, v.wanted = true ∧ (regs.addrComps 0).address = v.start ∧
    (regs.addrComps 1).address = v.stop
  tied : ∀ k < 2, (regs.addrComps k).acatrL.extractLsb' 2 2 = 1 ∧
    (regs.addrComps k).acatrL.extractLsb' 4 3 = 0
  cid : regs.cid.toNat = pid.toNat

/-- The excluded exception levels are no context bits. -/
def Csal.LevelsApart (e : Csal) : Prop :=
  e.excludedLevels.extractLsb' 2 2 = 0 ∧ e.excludedLevels.extractLsb' 4 3 = 0

section
variable {files : Files} {answers : FileAnswers} {init : Scanned} {pid : Int} {s s' : Extraction}
  {mappings : List Vma} {count : Int}

/-- The entry that is programmed is the first mapping that is accepted. -/
theorem extraction_range (file : files (mapsPath pid) = some (procMaps mappings))
    (extracted : setupMapInfo files answers init pid rangeMax s = .ok count s') :
    s'.range = ((mappings.filter Vma.accepted).head?.map fun v => ⟨v.start, v.stop⟩).getD ⟨0, 0⟩ := by
  have spec := (ensures_of_ok extracted).mp (setupMapInfo_spec file)
  obtain ⟨-, table, -⟩ := spec
  rw [parseMaps_eq] at table
  rw [Extraction.range, table]
  cases mappings.filter Vma.accepted <;> rfl

end

section
variable {e : Csal} {mappings : List Vma} {pid : BitVec 32} {range : MapInfo} {regs : EtmRegs}

/-- An ETM that is programmed filters the tracee if the range is code of a file. -/
theorem selects_filters (levels : e.LevelsApart) (positive : 0 < pid.toInt)
    (selects : Selects e range (pid.signExtend 64) regs) :
    FiltersTracee mappings pid regs ↔
      ∃ v ∈ mappings, v.wanted = true ∧ range.start = v.start ∧ range.stop = v.stop := by
  have msb : pid.msb = false := by
    rw [BitVec.msb_eq_toInt]
    simp only [decide_eq_false_iff_not]
    omega
  constructor
  · intro filters
    obtain ⟨v, hv, wanted, start, stop⟩ := filters.mapping
    exact ⟨v, hv, wanted, selects.start.symm.trans start, selects.stop.symm.trans stop⟩
  · rintro ⟨v, hv, wanted, start, stop⟩
    refine ⟨selects.pair, ⟨v, hv, wanted, selects.start.trans start, selects.stop.trans stop⟩, ?_, ?_⟩
    · intro k hk
      rw [selects.tied k hk, BitVec.extractLsb'_or, BitVec.extractLsb'_or, levels.1, levels.2]
      decide
    · rw [selects.cid, BitVec.signExtend_eq_setWidth_of_msb_false msb, BitVec.toNat_setWidth]
      have := pid.isLt
      omega

/-- The first executable mapping with a slash in its pathname is that of a file. -/
def FirstIsFile (mappings : List Vma) : Prop :=
  ∃ v, (mappings.filter Vma.accepted).head? = some v ∧ v.pathname.isFile = true

/-- When the mappings are extracted and the trace is configured, every ETM filters
the tracee if there is none, or the first mapping that is accepted is a file; and
only then, if no two mappings start at one address. -/
theorem etm_filter_iff (configures : e.Configures) (levels : e.LevelsApart)
    (positive : 0 < pid.toInt) {files : Files}
    (file : files (mapsPath pid.toInt) = some (procMaps mappings)) {answers : FileAnswers}
    {init : Scanned} {s s' : Extraction} {count : Int}
    (extracted : setupMapInfo files answers init pid.toInt rangeMax s = .ok count s')
    {board : Board} {devices : Devices} {r r' : Rig}
    (configured : configureTrace e (some board) devices s'.range pid r = .ok 0 r') :
    (board.nCpu = 0 ∨ FirstIsFile mappings →
      ∀ i < board.nCpu, FiltersTracee mappings pid (r'.etm (e.source i))) ∧
    (mappings.Pairwise (fun v w => v.start ≠ w.start) →
      (∀ i < board.nCpu, FiltersTracee mappings pid (r'.etm (e.source i))) →
      board.nCpu = 0 ∨ FirstIsFile mappings) := by
  have nonzero : pid ≠ 0 := by
    rintro rfl
    exact absurd positive (by decide)
  have spec := configureTrace_ensures configures nonzero board devices s'.range r
  have programmed := (ensures_of_ok configured).mp spec (Int.le_refl 0)
  have filters (i : Nat) (hi : i < board.nCpu) :=
    @selects_filters e mappings pid s'.range (r'.etm (e.source i)) levels positive
      (programmed i hi).2
  have range := extraction_range file extracted
  constructor
  · rintro (none | ⟨v, first, isFile⟩) i hi
    · omega
    · have member := List.mem_filter.mp (List.mem_of_mem_head? first)
      have wanted : v.wanted = true := by
        have accepted := member.2
        simp only [Vma.accepted, Bool.and_eq_true] at accepted
        simp [Vma.wanted, accepted.1, isFile]
      rw [filters i hi, range, first]
      exact ⟨v, member.1, wanted, rfl, rfl⟩
  · intro distinct all
    by_cases none : board.nCpu = 0
    · exact .inl none
    · obtain ⟨w, hw, wanted, start, -⟩ :=
        (filters 0 (by omega)).mp (all 0 (by omega))
      have accepted : w ∈ mappings.filter Vma.accepted := by
        have both := List.mem_filter.mpr ⟨hw, wanted⟩
        rw [wanted_eq] at both
        exact (List.mem_filter.mp both).1
      obtain ⟨v, rest, list⟩ := List.exists_cons_of_ne_nil (List.ne_nil_of_mem accepted)
      have symmetric : Std.Symm fun v w : Vma => v.start ≠ w.start := ⟨fun _ _ => Ne.symm⟩
      have first : v ∈ mappings := (List.mem_filter.mp (list ▸ List.mem_cons_self)).1
      rw [range, list] at start
      have same : v = w := by
        by_contra different
        exact distinct.forall first hw different start
      refine .inr ⟨v, by rw [list]; rfl, ?_⟩
      rw [same]
      exact (Bool.and_eq_true_iff.mp wanted).2

end

/-! ## A process without code of a file -/

theorem cat_configured :
    Ensures (configureTrace zcu104 (some zcu104.board) zcu104.devices ⟨0x400000, 0x401000⟩ 1)
      (fun rc _ => rc = 0) (fun _ _ => False) Rig.idle := by
  decide +kernel

theorem cat_filtered : ∃ s' r',
    setupMapInfo (fun _ => some (procMaps catCode)) roomy unset 1 rangeMax emptyTable = .ok 1 s' ∧
    configureTrace zcu104 (some zcu104.board) zcu104.devices s'.range 1 Rig.idle = .ok 0 r' ∧
    ∀ i < 4, FiltersTracee catCode 1 (r'.etm (zcu104.source i)) := by
  have extraction := @setupMapInfo_spec (fun _ => some (procMaps catCode)) roomy unset 1 rangeMax
    emptyTable _ rfl
  obtain ⟨_, s', extracted, rfl, -⟩ := extraction.returns
  have one : (parseMaps rangeMax unset (procMaps catCode)).length = 1 := by
    rw [parseMaps_eq]
    rfl
  rw [one] at extracted
  have first : ((catCode.filter Vma.accepted).head?.map fun v => (⟨v.start, v.stop⟩ : MapInfo)) =
      some ⟨0x400000, 0x401000⟩ := by rfl
  have range := @extraction_range _ _ _ _ _ s' catCode _ rfl extracted
  rw [first, Option.getD_some] at range
  obtain ⟨_, r', configured, rfl⟩ := cat_configured.returns
  rw [← range] at configured
  have succeeds : zcu104.Succeeds := fun _ _ => rfl
  have levels : zcu104.LevelsApart := ⟨by decide, by decide⟩
  have filters := @etm_filter_iff zcu104 catCode 1 succeeds.configures levels (by decide) _ rfl
    _ _ _ _ _ extracted _ _ _ _ configured
  exact ⟨s', r', extracted, configured, filters.1 (.inr ⟨catCode[0], rfl, rfl⟩)⟩

/-- Without a line that is accepted, the ETMs are programmed all the same. -/
theorem empty_range_programmed : ∃ s' r',
    setupMapInfo (fun _ => some (procMaps [])) roomy unset 1 rangeMax emptyTable = .ok 0 s' ∧
    configureTrace zcu104 (some zcu104.board) zcu104.devices s'.range 1 Rig.idle = .ok 0 r' ∧
    ((r'.etm (zcu104.source 0)).viiectlr = 1 ∧
      ((r'.etm (zcu104.source 0)).addrComps 0).address = 0 ∧
      ((r'.etm (zcu104.source 0)).addrComps 1).address = 0) ∧
    ¬FiltersTracee [] 1 (r'.etm (zcu104.source 0)) := by
  have extraction := @setupMapInfo_spec (fun _ => some (procMaps [])) roomy unset 1 rangeMax
    emptyTable _ rfl
  obtain ⟨_, s', extracted, rfl, -⟩ := extraction.returns
  have range := @extraction_range _ _ _ _ _ s' [] _ rfl extracted
  have configuration : Ensures
      (configureTrace zcu104 (some zcu104.board) zcu104.devices ⟨0, 0⟩ 1)
      (fun rc r' => rc = 0 ∧ (r'.etm (zcu104.source 0)).viiectlr = 1 ∧
        ((r'.etm (zcu104.source 0)).addrComps 0).address = 0 ∧
        ((r'.etm (zcu104.source 0)).addrComps 1).address = 0)
      (fun _ _ => False) Rig.idle := by
    decide +kernel
  obtain ⟨_, r', configured, rfl, programmed⟩ := configuration.returns
  refine ⟨s', r', extracted, ?_, programmed, ?_⟩
  · rw [range]
    exact configured
  · intro filters
    obtain ⟨v, impossible, _⟩ := filters.mapping
    exact List.not_mem_nil impossible

end Ultrasight
