import Ultrasight.Functions
import Ultrasight.Regions

/-!
# What a process holds

Open descriptors and live mappings, and the system calls that make and release
them. Each call is told the answer of the kernel and returns what the C function
returns.

* `openFile` and `closeFile`;
* `mapAnonymous` and `mapFile`; a file is mapped through an open descriptor.
-/

namespace Ultrasight

open Fn

/-- Memory mapped at `addr`: a file from an offset on, or anonymous. -/
structure Mapping (F : Type) where
  addr : BitVec 64
  size : BitVec 64
  backing : Option (F × BitVec 64)
  deriving DecidableEq

structure Holdings (F : Type) where
  fds : List (Nat × F)
  maps : List (Mapping F)

def mapFailed : BitVec 64 := -1

namespace Holdings

variable {F : Type}

def map (m : Mapping F) (h : Holdings F) : Holdings F := { h with maps := m :: h.maps }

/-- The file that a descriptor is open on. -/
def fileOf (fd : Int) (h : Holdings F) : Option F :=
  (h.fds.find? fun d => decide ((d.1 : Int) = fd)).map Prod.snd

def openFile (f : F) (answer : Option Nat) : Fn (Holdings F) Int :=
  match answer with
  | some fd => do
    modify fun h => { h with fds := (fd, f) :: h.fds }
    pure fd
  | none => pure (-1)

/-- On a number that is no descriptor, it does nothing. -/
def closeFile (fd : Int) : Fn (Holdings F) Unit :=
  modify fun h => { h with fds := h.fds.eraseP fun d => decide ((d.1 : Int) = fd) }

def mapAnonymous (size : BitVec 64) (answer : Option (Placement size.toNat)) :
    Fn (Holdings F) (BitVec 64) :=
  match answer with
  | some p => do
    modify (map ⟨p.addr, size, none⟩)
    pure p.addr
  | none => pure mapFailed

/-- On a number that is no descriptor, it fails whatever the kernel could do. -/
def mapFile (size : BitVec 64) (fd : Int) (offset : BitVec 64)
    (answer : Option (Placement size.toNat)) : Fn (Holdings F) (BitVec 64) := do
  let h ← get
  match h.fileOf fd, answer with
  | some f, some p => do
    modify (map ⟨p.addr, size, some (f, offset)⟩)
    pure p.addr
  | _, _ => pure mapFailed

section
variable {h : Holdings F} {f : F} {fd : Nat} {size offset : BitVec 64}

@[simp] theorem fileOf_opened : fileOf fd { h with fds := (fd, f) :: h.fds } = some f := by
  simp [fileOf]

@[simp] theorem fileOf_failed : h.fileOf (-1) = none := by
  simp only [fileOf, Option.map_eq_none_iff, List.find?_eq_none, decide_eq_true_eq]
  intro d _
  omega

section
variable {Q : Int → Holdings F → Prop} {E : Exit → Holdings F → Prop}

@[simp] theorem ensures_openFile_some :
    Ensures (openFile f (some fd)) Q E h ↔ Q fd { h with fds := (fd, f) :: h.fds } := by
  simp only [openFile, ensures_bind, ensures_modify, ensures_pure]

@[simp] theorem ensures_openFile_none : Ensures (openFile f none) Q E h ↔ Q (-1) h := by
  simp only [openFile, ensures_pure]

end

section
variable {Q : Unit → Holdings F → Prop} {E : Exit → Holdings F → Prop}

@[simp] theorem ensures_closeFile_opened {fds : List (Nat × F)} {maps : List (Mapping F)} :
    Ensures (closeFile fd) Q E ⟨(fd, f) :: fds, maps⟩ ↔ Q () ⟨fds, maps⟩ := by
  simp [closeFile]

@[simp] theorem ensures_closeFile_failed : Ensures (closeFile (-1)) Q E h ↔ Q () h := by
  have kept : h.fds.eraseP (fun d => decide ((d.1 : Int) = -1)) = h.fds := by
    apply List.eraseP_of_forall_not
    intro d _
    simp only [decide_eq_true_eq]
    omega
  simp only [closeFile, ensures_modify, kept]

end

section
variable {Q : BitVec 64 → Holdings F → Prop} {E : Exit → Holdings F → Prop}

theorem ensures_mapFile_some {fd : Int} (opened : h.fileOf fd = some f) (p : Placement size.toNat) :
    Ensures (mapFile size fd offset (some p)) Q E h ↔
      Q p.addr (h.map ⟨p.addr, size, some (f, offset)⟩) := by
  simp only [mapFile, ensures_bind, ensures_get, opened, ensures_modify, ensures_pure]

@[simp] theorem ensures_mapFile_none {fd : Int} :
    Ensures (mapFile size fd offset none) Q E h ↔ Q mapFailed h := by
  cases opened : h.fileOf fd <;>
    simp only [mapFile, ensures_bind, ensures_get, opened, ensures_pure]

@[simp] theorem ensures_mapFile_failed {answer : Option (Placement size.toNat)} :
    Ensures (mapFile size (-1) offset answer) Q E h ↔ Q mapFailed h := by
  simp only [mapFile, ensures_bind, ensures_get, fileOf_failed, ensures_pure]

end

theorem placement_ne_mapFailed {n : Nat} (p : Placement n) : p.addr ≠ mapFailed := by
  intro failed
  have page := p.page
  rw [failed] at page
  revert page
  decide

end

end Holdings

end Ultrasight
