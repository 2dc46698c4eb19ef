import Ultrasight.Maps

/-!
# Files that cannot be mapped

The second loop of `setup_map_info` checks `open` for values below -1 and `mmap`
for a null pointer. `open` fails with -1 and `mmap` with `MAP_FAILED`, so that it
sees neither failure.

* `map_failures_iff`: it reports and undoes a failure only if it does so for the
  `maps` file.
-/

namespace Ultrasight

open Fn Text Holdings

/-- The entry's buffer is a mapping of its file. -/
def MapEntry.MappedIn (entry : MapEntry) (maps : List (Mapping (List UInt8))) : Prop :=
  ⟨entry.buf, entry.bufSize, some (entry.path, entry.offset)⟩ ∈ maps

/-- Either all entries were mapped by the call, or it failed and released what it
had. -/
def Reported (before : Extraction) (rc : Int) (after : Extraction) : Prop :=
  (0 ≤ rc ∧ rc = after.table.length ∧
    ∃ created, after.holds.maps = created ++ before.holds.maps ∧
      ∀ entry ∈ after.table, entry.MappedIn created) ∨
  (rc = -1 ∧ after.holds = before.holds)

section
variable {files : Files} {answers : FileAnswers} {init : Scanned} {pid : Int} {infoCountMax : Nat}
  {s : Extraction}

theorem mapping_isSome {i : Nat} {entry : MapEntry} :
    (answers.mapping i entry).isSome = true ↔
      (answers.opened i).isSome = true ∧ (answers.placed i entry.bufSize).isSome = true := by
  cases opened : answers.opened i <;> simp [FileAnswers.mapping, opened]

/-- A file that is mapped is what its entry says. -/
theorem finish_mapped {i : Nat} {entry : MapEntry} {m : Mapping (List UInt8)}
    (mapped : answers.mapping i entry = some m) :
    m = ⟨(answers.finish i entry).buf, entry.bufSize, some (entry.path, entry.offset)⟩ ∧
      m.addr ≠ mapFailed := by
  simp only [FileAnswers.finish, mapped, Option.elim_some]
  simp only [FileAnswers.mapping, Option.ite_none_right_eq_some, Option.map_eq_some_iff] at mapped
  obtain ⟨_, p, _, rfl⟩ := mapped
  exact ⟨rfl, placement_ne_mapFailed p⟩

/-- A failure is reported and undone if and only if it is one to open the `maps`
file: all extracted files must be opened and mapped. -/
theorem map_failures_iff :
    Ensures (setupMapInfo files answers init pid infoCountMax) (Reported s) (fun _ _ => False) s ↔
    ∀ text, files (mapsPath pid) = some text →
      ∀ (i : Nat) (entry : MapEntry), (parseMaps infoCountMax init text)[i]? = some entry →
        (answers.opened i).isSome = true ∧ (answers.placed i entry.bufSize).isSome = true := by
  cases file : files (mapsPath pid) with
  | none => simp [setupMapInfo, file, Reported]
  | some text =>
    simp only [Option.some.injEq, forall_eq']
    apply (setupMapInfo_spec file).decided
    rintro rc s' ⟨count, table, _, created, maps, which⟩
    have length : s'.table.length = (parseMaps infoCountMax init text).length := by
      rw [table, List.length_mapIdx]
    constructor
    · rintro (⟨_, _, created', maps', all⟩ | ⟨failed, _⟩) i entry there
      · obtain rfl : created' = created := List.append_cancel_right (maps'.symm.trans maps)
        rw [← mapping_isSome]
        have finished : answers.finish i entry ∈ s'.table := by
          apply List.mem_of_getElem? (i := i)
          rw [table, List.getElem?_mapIdx, there]
          rfl
        obtain ⟨j, other, _, mapped⟩ := (which _).mp (all _ finished)
        have addr := (finish_mapped mapped).2
        cases mapping : answers.mapping i entry with
        | some m => rfl
        | none => exact absurd (by simp [FileAnswers.finish, mapping]) addr
      · omega
    · intro succeed
      refine .inl ⟨by omega, by omega, created, maps, ?_⟩
      intro entry hentry
      obtain ⟨i, there⟩ := List.mem_iff_getElem?.mp hentry
      rw [table, List.getElem?_mapIdx, Option.map_eq_some_iff] at there
      obtain ⟨extracted, there, rfl⟩ := there
      obtain ⟨m, mapped⟩ := Option.isSome_iff_exists.mp (mapping_isSome.mpr (succeed i _ there))
      have same := (finish_mapped mapped).1
      apply (which _).mpr
      refine ⟨i, extracted, there, ?_⟩
      rw [mapped, same]
      rfl

end

/-- The binary cannot be opened, but the call returns one entry, whose buffer is
`MAP_FAILED`. -/
theorem deleted_binary_unreported :
    Ensures (setupMapInfo (fun _ => some (procMaps catCode)) { roomy with opened _ := none } unset 1 1)
      (fun rc s' => rc = 1 ∧ s'.table.map MapEntry.buf = [mapFailed] ∧
        ¬Reported emptyTable rc s')
      (fun _ _ => False) emptyTable := by
  have extracted : parseMaps 1 unset (procMaps catCode) = [catCode[0].extracted] := by
    rw [parseMaps_eq]
    rfl
  have spec := @setupMapInfo_spec (fun _ => some (procMaps catCode)) { roomy with opened _ := none }
    unset 1 1 emptyTable (procMaps catCode) rfl
  rw [extracted] at spec
  apply spec.mono _ (fun _ _ never => never)
  rintro rc s' ⟨count, table, _, created, maps, which⟩
  have buf : s'.table.map MapEntry.buf = [mapFailed] := by
    rw [table]
    rfl
  refine ⟨count, buf, ?_⟩
  rintro (⟨_, _, created', maps', all⟩ | ⟨failed, _⟩)
  · obtain rfl : created' = created := List.append_cancel_right (maps'.symm.trans maps)
    obtain ⟨entry, hentry, _⟩ := List.mem_map.mp (buf ▸ List.mem_singleton.mpr rfl)
    obtain ⟨_, _, _, mapped⟩ := (which _).mp (all entry hentry)
    cases mapped
  · simp [count] at failed

end Ultrasight
