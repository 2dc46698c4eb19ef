import Ultrasight.Functions
import Ultrasight.Numbers

/-!
# The attributes of a u-dma-buf

`get_udmabuf_info` reads two numbers, an address and a size, from files of their
own. It stores each as soon as it is read, and does not look at what `sscanf`
returns.

* `getUdmabufInfo_ends`: how it ends for each way the files can be;
* `udmabuf_info_iff`: when both numbers are stored or none is.
-/

namespace Ultrasight

open Fn Text

/-- What `open` and `read` say of an attribute. -/
inductive Attribute where
  | missing
  | unreadable
  | content (bytes : List UInt8)

/-- `stat`, as far as it is looked at, and the files. -/
structure Sysfs where
  isDir : List UInt8 → Option Bool
  file : List UInt8 → Attribute

/-- The variables whose addresses are passed. -/
structure DmaInfo where
  physAddr : BitVec 64
  size : BitVec 64
  deriving DecidableEq

/-! ## The code -/

def attrSize : Nat := 1024

def udmabufPath (num : Int) : List UInt8 := ascii "/sys/class/u-dma-buf/udmabuf" ++ decimal num

/-- `attr` after `memset` and `read`. -/
def attrBuffer (bytes : List UInt8) : List UInt8 :=
  bytes.take attrSize ++ List.replicate (attrSize - bytes.length) 0

/-- The text in `attr`, for a file that can be read. A string that does not end
in `attr` is read on behind it. -/
def readAttribute (a : Attribute) : Fn DmaInfo (List UInt8) :=
  match a with
  | .missing | .unreadable => ret (-1)
  | .content bytes => do
    assert (decide (0 ∈ attrBuffer bytes))
    pure (cString (attrBuffer bytes))

def getUdmabufInfo (sys : Sysfs) (num : Int) : Fn DmaInfo Int := enclose do
  let isDir ← given (sys.isDir (udmabufPath num)) (-1)
  require isDir (-1)
  let attr ← readAttribute (sys.file (udmabufPath num ++ ascii "/phys_addr"))
  modify (scanf [.hex fun n v => { v with physAddr := n }] attr)
  let attr ← readAttribute (sys.file (udmabufPath num ++ ascii "/size"))
  modify fun v => (scanLong attr).elim v fun p => { v with size := p.1 }
  pure 0

/-! ## What the attributes say -/

def Attribute.text : Attribute → Option (List UInt8)
  | .content bytes => some (cString bytes)
  | _ => none

namespace Sysfs

variable (sys : Sysfs) (num : Int)

/-- Every attribute fits in `attr`. -/
def Short : Prop := ∀ path bytes, sys.file path = .content bytes → bytes.length < attrSize

/-- The text of an attribute, if the device is there and the file can be read. -/
def text (name : List UInt8) : Option (List UInt8) :=
  if sys.isDir (udmabufPath num) = some true then (sys.file (udmabufPath num ++ name)).text
  else none

def physAddr : Option (List UInt8) := sys.text num (ascii "/phys_addr")

def size : Option (List UInt8) := sys.text num (ascii "/size")

/-- The numbers that both attributes start with. -/
def numbers : Option (Int × Int) := do
  let a ← number 16 (← sys.physAddr num)
  let s ← number 10 (← sys.size num)
  pure (a.1, s.1)

/-- 0 and both numbers, or -1 and nothing changed. -/
structure Atomic (v : DmaInfo) (rc : Int) (v' : DmaInfo) : Prop where
  success : rc = 0 ↔ sys.numbers num ≠ none
  stored : ∀ a s, sys.numbers num = some (a, s) → v'.physAddr.toNat = a ∧ v'.size.toNat = s
  failure : sys.numbers num = none → rc = -1 ∧ v' = v

end Sysfs

/-! ## What is read and stored -/

namespace DmaInfo

def afterPhysAddr (attr : List UInt8) (v : DmaInfo) : DmaInfo :=
  { v with physAddr := (number 16 attr).elim v.physAddr fun p => toULong p.1 }

def afterSize (attr : List UInt8) (v : DmaInfo) : DmaInfo :=
  { v with size := (number 10 attr).elim v.size fun p => toLong p.1 }

end DmaInfo

/-- The three ways in which the function ends. -/
inductive UdmabufEnd (sys : Sysfs) (num : Int) (v : DmaInfo) : Int → DmaInfo → Prop
  | unread : sys.physAddr num = none → UdmabufEnd sys num v (-1) v
  | half {p : List UInt8} : sys.physAddr num = some p → sys.size num = none →
      UdmabufEnd sys num v (-1) (v.afterPhysAddr p)
  | both {p s : List UInt8} : sys.physAddr num = some p → sys.size num = some s →
      UdmabufEnd sys num v 0 ((v.afterPhysAddr p).afterSize s)

section
variable {sys : Sysfs} {num : Int} {v : DmaInfo}

theorem cString_append_zero (s rest : List UInt8) : cString (s ++ 0 :: rest) = cString s := by
  induction s with
  | nil => rfl
  | cons c s ih =>
    simp only [cString, List.cons_append, List.takeWhile_cons] at ih ⊢
    rw [ih]

theorem attrBuffer_text {bytes : List UInt8} (short : bytes.length < attrSize) :
    0 ∈ attrBuffer bytes ∧ cString (attrBuffer bytes) = cString bytes := by
  obtain ⟨k, pad⟩ : ∃ k, attrSize - bytes.length = k + 1 := ⟨attrSize - bytes.length - 1, by omega⟩
  rw [attrBuffer, List.take_of_length_le (Nat.le_of_lt short), pad, List.replicate_succ]
  exact ⟨List.mem_append_right _ List.mem_cons_self, cString_append_zero _ _⟩

theorem ensures_readAttribute {a : Attribute} {Q : List UInt8 → DmaInfo → Prop}
    {E : Exit → DmaInfo → Prop} (short : ∀ bytes, a = .content bytes → bytes.length < attrSize) :
    Ensures (readAttribute a) Q E v ↔
      (∀ t, a.text = some t → Q t v) ∧ (a.text = none → E (.ret (-1)) v) := by
  cases a with
  | missing => simp [readAttribute, Attribute.text]
  | unreadable => simp [readAttribute, Attribute.text]
  | content bytes =>
    obtain ⟨ends, text⟩ := attrBuffer_text (short bytes rfl)
    simp [readAttribute, Attribute.text, ends, text, -bind_pure_comp]

theorem scanf_physAddr (attr : List UInt8) :
    scanf [.hex fun n v => { v with physAddr := n }] attr v = v.afterPhysAddr attr := by
  rw [scanf, scanHex_eq, DmaInfo.afterPhysAddr]
  cases number 16 attr with
  | none => rfl
  | some p => rfl

theorem scanLong_size (attr : List UInt8) :
    (scanLong attr).elim v (fun p => { v with size := p.1 }) = v.afterSize attr := by
  rw [scanLong, DmaInfo.afterSize]
  cases number 10 attr with
  | none => rfl
  | some p => rfl

theorem afterPhysAddr_eq_iff {attr : List UInt8} :
    v.afterPhysAddr attr = v ↔ ∀ a, scanHex attr = some a → a.1 = v.physAddr := by
  rw [scanHex_eq]
  cases found : number 16 attr with
  | none => simp [DmaInfo.afterPhysAddr, found]
  | some p =>
    constructor
    · intro same a read
      obtain rfl := Option.some.inj read
      rw [← same]
      simp [DmaInfo.afterPhysAddr, found]
    · intro same
      have stays : toULong p.1 = v.physAddr := same _ rfl
      simp [DmaInfo.afterPhysAddr, found, stays]

theorem getUdmabufInfo_ends (short : sys.Short) :
    Ensures (getUdmabufInfo sys num) (UdmabufEnd sys num v) (fun _ _ => False) v := by
  have text (name : List UInt8) (found : sys.isDir (udmabufPath num) = some true) :
      sys.text num name = (sys.file (udmabufPath num ++ name)).text := if_pos found
  simp only [getUdmabufInfo, ensures_enclose, ensures_bind, ensures_given, ensures_require,
    ensures_readAttribute (short _), ensures_modify, ensures_pure, scanf_physAddr, scanLong_size]
  refine ⟨?_, fun missing => .unread (if_neg (by simp [missing]))⟩
  intro isDir stat
  refine ⟨?_, fun file => .unread (if_neg (by simp [stat, file]))⟩
  rintro rfl
  refine ⟨?_, fun unread => .unread ((text _ stat).trans unread)⟩
  intro p read
  refine ⟨?_, fun unread => .half ((text _ stat).trans read) ((text _ stat).trans unread)⟩
  intro s read'
  exact .both ((text _ stat).trans read) ((text _ stat).trans read')

/-- Both numbers are stored or none, exactly if the first file cannot be read; or
the second one cannot, and the first leaves the address as it is; or both start
with numbers that fit. -/
theorem udmabuf_info_iff (short : sys.Short) :
    Ensures (getUdmabufInfo sys num) (sys.Atomic num v) (fun _ _ => False) v ↔
      sys.physAddr num = none ∨
      (∃ p, sys.physAddr num = some p ∧ sys.size num = none ∧
        ∀ a, scanHex p = some a → a.1 = v.physAddr) ∨
      ∃ a s, sys.numbers num = some (a, s) ∧ (0 ≤ a ∧ a < 2 ^ 64) ∧ (0 ≤ s ∧ s < 2 ^ 63) := by
  apply (getUdmabufInfo_ends short).decided
  intro rc v' ends
  cases ends with
  | unread unread =>
    have none : sys.numbers num = none := by simp [Sysfs.numbers, unread]
    refine ⟨fun _ => .inl unread, fun _ => ⟨?_, ?_, fun _ => ⟨rfl, rfl⟩⟩⟩
    · simp [none]
    · simp [none]
  | half read unread =>
    rename_i p
    have none : sys.numbers num = none := by simp [Sysfs.numbers, read, unread]
    constructor
    · intro atomic
      exact .inr (.inl ⟨p, read, unread, afterPhysAddr_eq_iff.mp (atomic.failure none).2⟩)
    · rintro (missing | ⟨p', again, _, same⟩ | ⟨a, s, both, _⟩)
      · rw [read] at missing
        cases missing
      · obtain rfl := Option.some.inj (read.symm.trans again)
        refine ⟨by simp [none], by simp [none], fun _ => ⟨rfl, afterPhysAddr_eq_iff.mpr same⟩⟩
      · rw [none] at both
        cases both
  | both read read' =>
    rename_i p s
    have numbers : sys.numbers num =
        (number 16 p).bind fun a => (number 10 s).map fun s => (a.1, s.1) := by
      simp only [Sysfs.numbers, read, read', Option.bind_eq_bind, Option.bind_some]
      cases number 16 p <;> cases number 10 s <;> rfl
    have others : ¬ (sys.physAddr num = none ∨ ∃ p, sys.physAddr num = some p ∧
        sys.size num = none ∧ ∀ a, scanHex p = some a → a.1 = v.physAddr) := by
      simp [read, read']
    rw [← or_assoc, or_iff_right others]
    cases first : number 16 p with
    | none =>
      have none : sys.numbers num = none := by rw [numbers, first]; rfl
      exact ⟨fun atomic => absurd none (atomic.success.mp rfl), by simp [none]⟩
    | some a =>
      cases second : number 10 s with
      | none =>
        have none : sys.numbers num = none := by rw [numbers, first, second]; rfl
        exact ⟨fun atomic => absurd none (atomic.success.mp rfl), by simp [none]⟩
      | some n =>
        have both : sys.numbers num = some (a.1, n.1) := by rw [numbers, first, second]; rfl
        have stored : ((v.afterPhysAddr p).afterSize s) = ⟨toULong a.1, toLong n.1⟩ := by
          simp [DmaInfo.afterPhysAddr, DmaInfo.afterSize, first, second]
        rw [stored]
        constructor
        · intro atomic
          obtain ⟨address, size⟩ := atomic.stored _ _ both
          exact ⟨_, _, both, (toULong_toNat_iff _).mp address, (toLong_toNat_iff _).mp size⟩
        · rintro ⟨a', s', same, address, size⟩
          obtain ⟨rfl, rfl⟩ := Prod.mk.inj (Option.some.inj (both.symm.trans same))
          refine ⟨by simp [both], ?_, by simp [both]⟩
          intro a' s' same
          obtain ⟨rfl, rfl⟩ := Prod.mk.inj (Option.some.inj (both.symm.trans same))
          exact ⟨(toULong_toNat_iff _).mpr address, (toLong_toNat_iff _).mpr size⟩

end

/-! ## A device -/

/-- A device with these attributes. -/
def udmabuf0 (physAddr size : List UInt8) : Sysfs where
  isDir _ := some true
  file path := .content (if path = udmabufPath 0 ++ ascii "/size" then size else physAddr)

theorem udmabuf_info_stored :
    Ensures (getUdmabufInfo (udmabuf0 (ascii "0x70000000\n") (ascii "1048576\n")) 0)
      ((udmabuf0 (ascii "0x70000000\n") (ascii "1048576\n")).Atomic 0 ⟨0, 0⟩)
      (fun _ _ => False) ⟨0, 0⟩ := by
  apply (udmabuf_info_iff _).mpr
  · exact .inr (.inr ⟨0x70000000, 1048576, by decide, by decide, by decide⟩)
  · intro path bytes content
    obtain rfl := Attribute.content.inj content
    split <;> decide

/-- The size is no number. It is left as it was, but the address is stored, and the
result is 0. -/
theorem udmabuf_info_half :
    getUdmabufInfo (udmabuf0 (ascii "0x70000000\n") (ascii "\n")) 0 ⟨0, 0⟩ =
      .ok 0 ⟨0x70000000, 0⟩ ∧
    ¬ Ensures (getUdmabufInfo (udmabuf0 (ascii "0x70000000\n") (ascii "\n")) 0)
      ((udmabuf0 (ascii "0x70000000\n") (ascii "\n")).Atomic 0 ⟨0, 0⟩)
      (fun _ _ => False) ⟨0, 0⟩ := by
  have result : getUdmabufInfo (udmabuf0 (ascii "0x70000000\n") (ascii "\n")) 0 ⟨0, 0⟩ =
      .ok 0 ⟨0x70000000, 0⟩ := by
    rfl
  refine ⟨result, fun atomic => ?_⟩
  have success := ((ensures_of_ok result).mp atomic).success.mp rfl
  exact success (by decide)

end Ultrasight
