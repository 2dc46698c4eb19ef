import Ultrasight.Text

/-!
# The text of `/proc/<pid>/maps`

The mappings of a process, and the line that the kernel writes for each.

* A pathname is empty, a name in brackets, or an absolute path; a newline in a
  path is written as `\012`;
* `line_plain`: a line has no zero byte and no newline;
* `line_path`: its first slash is the first one of the pathname.
-/

namespace Ultrasight

open Text

/-- `is_valid_name_char`, for names that processes give to anonymous memory. -/
def validNameChar (c : UInt8) : Bool := 0x1f < c && c < 0x7f && !(ascii "\\`$[]").contains c

inductive Pathname where
  | anonymous
  | pseudo (name : List UInt8) (valid : ∀ c ∈ name, validNameChar c = true)
  | file (path : List UInt8) (absolute : path.head? = some 47) (string : 0 ∉ path)

structure Vma where
  start : BitVec 64
  stop : BitVec 64
  readable : Bool
  writable : Bool
  executable : Bool
  shared : Bool
  offset : BitVec 64
  major : Nat
  minor : Nat
  inode : Nat
  pathname : Pathname

/-- A newline is written as its octal code. -/
def escape (path : List UInt8) : List UInt8 :=
  path.flatMap fun c => if c = 10 then ascii "\\012" else [c]

namespace Pathname

def text : Pathname → List UInt8
  | anonymous => []
  | pseudo name _ => 91 :: name ++ [93]
  | file path _ _ => escape path

/-- The text from its first slash on. -/
def slashed (p : Pathname) : List UInt8 := p.text.dropWhile (· != 47)

def isFile : Pathname → Bool
  | file .. => true
  | _ => false

/-- The absolute path, if it is one. -/
def path : Pathname → List UInt8
  | file path _ _ => path
  | _ => []

end Pathname

namespace Vma

def hex (width n : Nat) : List UInt8 := padded width 16 n

/-- The flag of the third column, as the kernel shows it. -/
def executableFlag (v : Vma) : UInt8 := if v.executable then 120 else 45

/-- The columns behind the flags: offset, device and inode. -/
def numbers (v : Vma) : List UInt8 :=
  hex 8 v.offset.toNat ++ 32 :: (hex 2 v.major ++ 58 :: (hex 2 v.minor ++
    32 :: (numeral 10 v.inode ++ [32])))

/-- The columns before the pathname. -/
def header (v : Vma) : List UInt8 :=
  hex 8 v.start.toNat ++ 45 :: (hex 8 v.stop.toNat ++ 32 :: (if v.readable then 114 else 45) ::
    (if v.writable then 119 else 45) :: v.executableFlag :: (if v.shared then 115 else 112) ::
    32 :: v.numbers)

/-- A pathname stands in column 73, or behind a longer header. -/
def line (v : Vma) : List UInt8 :=
  match v.pathname with
  | .anonymous => v.header
  | name => v.header ++ (List.replicate (72 - v.header.length) 32 ++ 32 :: name.text)

end Vma

def procMaps (mappings : List Vma) : List UInt8 := mappings.flatMap fun v => v.line ++ [10]

/-! ## Bytes that are not there -/

theorem hex_numeral (width n : Nat) : Numeral 16 n (Vma.hex width n) :=
  padded_numeral (by decide) (by decide) width n

section
variable (v : Vma)

/-- No zero byte, newline or slash stands before the pathname. -/
theorem header_plain {d : UInt8} (h : d = 0 ∨ d = 10 ∨ d = 47) : d ∉ v.header := by
  have digits (width n : Nat) : d ∉ Vma.hex width n := by
    apply (hex_numeral width n).not_mem
    rcases h with rfl | rfl | rfl <;> rfl
  have decimals (n : Nat) : d ∉ numeral 10 n := by
    apply (numeral_numeral (by decide) (by decide) n).not_mem
    rcases h with rfl | rfl | rfl <;> rfl
  have flags : d ≠ 45 ∧ d ≠ 32 ∧ d ≠ 114 ∧ d ≠ 119 ∧ d ≠ 120 ∧ d ≠ 115 ∧ d ≠ 112 ∧ d ≠ 58 := by
    rcases h with rfl | rfl | rfl <;> decide
  simp only [Vma.header, Vma.executableFlag, Vma.numbers, List.mem_append, List.mem_cons, digits,
    decimals, List.not_mem_nil, false_or, or_false]
  grind

theorem escape_plain {path : List UInt8} (string : 0 ∉ path) :
    0 ∉ escape path ∧ 10 ∉ escape path := by
  have code : (0 : UInt8) ∉ ascii "\\012" ∧ (10 : UInt8) ∉ ascii "\\012" := by decide
  simp only [escape, List.mem_flatMap, not_exists, not_and]
  constructor
  · intro c hc
    by_cases newline : c = 10
    · rw [if_pos newline]
      exact code.1
    · have : c ≠ 0 := fun zero => string (zero ▸ hc)
      simp [newline, this.symm]
  · intro c _
    by_cases newline : c = 10
    · rw [if_pos newline]
      exact code.2
    · simp [newline, Ne.symm newline]

/-- As far as there is no newline, a path is written as it is. -/
theorem escape_take {path : List UInt8} {n : Nat} (plain : 10 ∉ path.take n) :
    (escape path).take n = path.take n := by
  have same {s : List UInt8} (h : 10 ∉ s) : escape s = s := by
    induction s with
    | nil => rfl
    | cons c s ih =>
      have other : c ≠ 10 := fun newline => h (newline ▸ List.mem_cons_self)
      have later := ih fun hs => h (List.mem_cons_of_mem c hs)
      rw [escape] at later ⊢
      rw [List.flatMap_cons, if_neg other, later]
      rfl
  have split : escape path = path.take n ++ escape (path.drop n) := by
    have cut : escape (path.take n ++ path.drop n) = escape (path.take n) ++ escape (path.drop n) :=
      List.flatMap_append
    rw [List.take_append_drop, same plain] at cut
    exact cut
  rw [split]
  by_cases long : n ≤ path.length
  · have length : (path.take n).length = n := by simp [long]
    rw [List.take_append_of_le_length (by omega), List.take_take, Nat.min_self]
  · have rest : path.drop n = [] := List.drop_eq_nil_of_le (by omega)
    simp [rest, escape, List.take_take]

/-- The text of a path starts with its slash. -/
theorem slashed_file {p : Pathname} (file : p.isFile = true) :
    p.slashed = escape p.path ∧ p.slashed ≠ [] := by
  cases p with
  | anonymous => cases file
  | pseudo name valid => cases file
  | file path absolute string =>
    obtain ⟨rest, rfl⟩ := List.head?_eq_some_iff.mp absolute
    have text : (Pathname.file (47 :: rest) absolute string).slashed = 47 :: escape rest := rfl
    exact ⟨text, by simp [text]⟩

theorem text_plain (p : Pathname) : 0 ∉ p.text ∧ 10 ∉ p.text := by
  cases p with
  | anonymous => exact ⟨List.not_mem_nil, List.not_mem_nil⟩
  | file path _ string => exact escape_plain string
  | pseudo name valid =>
    have zero : (0 : UInt8) ∉ name := fun h => absurd (valid 0 h) (by decide)
    have newline : (10 : UInt8) ∉ name := fun h => absurd (valid 10 h) (by decide)
    simp [Pathname.text, zero, newline]

theorem line_plain : 0 ∉ v.line ∧ 10 ∉ v.line := by
  have zero := header_plain v (d := 0) (.inl rfl)
  have newline := header_plain v (d := 10) (.inr (.inl rfl))
  obtain ⟨name0, name10⟩ := text_plain v.pathname
  rw [Vma.line]
  split
  · exact ⟨zero, newline⟩
  · simp [zero, newline, name0, name10]

/-- The first slash of a line is the first slash of the pathname. -/
theorem line_path : v.line.dropWhile (· != 47) = v.pathname.slashed := by
  have header : ∀ c ∈ v.header, (c != 47) = true := by
    intro c hc
    have : c ≠ 47 := fun slash => header_plain v (.inr (.inr rfl)) (slash ▸ hc)
    simpa using this
  rw [Vma.line, Pathname.slashed]
  split
  · next anonymous =>
    rw [anonymous, ← List.append_nil v.header, List.dropWhile_append_of_pos header]
    rfl
  · rw [List.dropWhile_append_of_pos header, List.dropWhile_append_of_pos]
    · rfl
    · intro c hc
      obtain rfl := (List.mem_replicate.mp hc).2
      rfl

end

example : Vma.line ⟨0x400000, 0x407000, true, false, true, false, 0x3000, 8, 2, 1234,
      .file (ascii "/bin/cat") rfl (by decide)⟩ =
    ascii "00400000-00407000 r-xp 00003000 08:02 1234                               /bin/cat" := by
  decide

end Ultrasight
