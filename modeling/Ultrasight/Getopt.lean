import Ultrasight.Text

/-!
# `getopt_long`

The GNU `getopt_long`, called until it returns -1. It moves what it finds to the
front of the arguments and leaves the operands behind; a `--` ends the options.

* `Reads`: words read one after the other, none of them such a `--`;
* `reads_or_ended`: all the words are read, or a `--` ends the options;
* `operands_eq_iff`: when the operands are the words behind a given `--`.
-/

namespace Ultrasight.Getopt

abbrev Word := List UInt8

/-- `has_arg`. -/
inductive Arg where
  | no
  | required
  | optional
  deriving DecidableEq

/-- An option without a `flag`. -/
structure LongOption where
  name : Word
  arg : Arg
  val : UInt8

/-- The option string, with no `W;` and no `+`, `-` or `:` in front, and the long
options. -/
structure Table where
  short : List UInt8
  long : List LongOption

/-- What a call returns, and `optarg`. -/
structure Found where
  opt : UInt8
  optarg : Option Word
  deriving DecidableEq

/-- A `?`, for an option that is not known, ambiguous, or wrongly with or without
an argument. -/
def unknown : Found := ⟨63, none⟩

def dashes : Word := [45, 45]

/-- A word that starts with a `-` and is more than that. -/
def isOption : Word → Bool
  | 45 :: _ :: _ => true
  | _ => false

/-! ## One word -/

/-- What the option string says of a letter. -/
def Table.shortArg (t : Table) (c : UInt8) : Option Arg :=
  if c = 58 ∨ c = 59 then none
  else match t.short.dropWhile (· != c) with
    | [] => none
    | _ :: 58 :: 58 :: _ => some .optional
    | _ :: 58 :: _ => some .required
    | _ => some .no

/-- The long option of this name, or the one that it abbreviates: it may abbreviate
several that are the same. -/
def Table.longOption (t : Table) (name : Word) : Option LongOption :=
  match t.long.find? (·.name = name), t.long.filter (name.isPrefixOf ·.name) with
  | some o, _ => some o
  | none, [] => none
  | none, o :: others => if others.all fun p => p.arg = o.arg ∧ p.val = o.val then some o else none

/-- The letters of a word, and the last of them if its argument is the next word. -/
def letters (t : Table) : Word → List Found × Option UInt8
  | [] => ([], none)
  | c :: s =>
    match t.shortArg c with
    | none => (unknown :: (letters t s).1, (letters t s).2)
    | some .no => (⟨c, none⟩ :: (letters t s).1, (letters t s).2)
    | some .required => if s = [] then ([], some c) else ([⟨c, some s⟩], none)
    | some .optional => ([⟨c, if s = [] then none else some s⟩], none)

/-- A name, and behind a `=` an argument. -/
def longWord (t : Table) (s : Word) : List Found × Option UInt8 :=
  match t.longOption (s.takeWhile (· != 61)), s.dropWhile (· != 61) with
  | none, _ => ([unknown], none)
  | some o, [] => if o.arg = .required then ([], some o.val) else ([⟨o.val, none⟩], none)
  | some o, _ :: value => ([if o.arg = .no then unknown else ⟨o.val, some value⟩], none)

def optionWord (t : Table) : Word → List Found × Option UInt8
  | 45 :: 45 :: s => longWord t s
  | s => letters t s.tail

/-- What is found in some words, those that are moved to the front and those that
are not. -/
structure Parse where
  found : List Found
  options : List Word
  operands : List Word
  deriving DecidableEq

instance : Append Parse where
  append r s := ⟨r.found ++ s.found, r.options ++ s.options, r.operands ++ s.operands⟩

/-- A word, when `p` is an option whose argument it would be. The `--` that ends
the options is not read. -/
def read (t : Table) (p : Option UInt8) (w : Word) : Option (Parse × Option UInt8) :=
  match p with
  | some c => some (⟨[⟨c, some w⟩], [w], []⟩, none)
  | none =>
    if w = dashes then none
    else if isOption w then some (⟨(optionWord t w).1, [w], []⟩, (optionWord t w).2)
    else some (⟨[], [], [w]⟩, none)

/-- Every call, on the words behind the name of the program. They are left as the
options and the operands, and `optind` is where the operands start. -/
def getopt (t : Table) : Option UInt8 → List Word → Parse
  | p, [] => ⟨(p.map fun _ => unknown).toList, [], []⟩
  | p, w :: ws =>
    match read t p w with
    | some (r, q) => r ++ getopt t q ws
    | none => ⟨[], [w], ws⟩

/-! ## Words one after the other -/

/-- Words that are options, arguments of the option in front, and operands: `p`
takes the first word as its argument, and `q` would take the next one. -/
inductive Reads (t : Table) : Option UInt8 → List Word → Parse → Option UInt8 → Prop
  | nil {p : Option UInt8} : Reads t p [] ⟨[], [], []⟩ p
  | cons {p q s : Option UInt8} {w : Word} {ws : List Word} {r r' : Parse} :
      read t p w = some (r, q) → Reads t q ws r' s → Reads t p (w :: ws) (r ++ r') s

/-- What is found in words that leave no operand, and the option that would take the
next word. -/
def takes (t : Table) : Option UInt8 → List Word → Option (List Found × Option UInt8)
  | p, [] => some ([], p)
  | p, w :: ws =>
    (read t p w).bind fun first =>
      if first.1.operands = [] then
        (takes t first.2 ws).map fun later => (first.1.found ++ later.1, later.2)
      else none

section
variable {t : Table} {p q s : Option UInt8} {w : Word} {ws rest : List Word} {r r' : Parse}
  {fs : List Found}

@[simp] theorem Parse.found_append : (r ++ r').found = r.found ++ r'.found := rfl

@[simp] theorem Parse.options_append : (r ++ r').options = r.options ++ r'.options := rfl

@[simp] theorem Parse.operands_append : (r ++ r').operands = r.operands ++ r'.operands := rfl

@[simp] theorem Parse.nil_append : (⟨[], [], []⟩ : Parse) ++ r = r := rfl

theorem Parse.append_assoc (a b c : Parse) : a ++ b ++ c = a ++ (b ++ c) := by
  change Parse.mk _ _ _ = Parse.mk _ _ _
  simp

theorem read_none_iff : read t p w = none ↔ p = none ∧ w = dashes := by
  cases p with
  | some c => simp [read]
  | none =>
    by_cases ends : w = dashes
    · simp [read, ends]
    · cases option : isOption w <;> simp [read, ends, option]

theorem read_operand (plain : isOption w = false) :
    read t none w = some (⟨[], [], [w]⟩, none) := by
  have other : w ≠ dashes := by
    rintro rfl
    cases plain
  simp [read, other, plain]

/-- A word becomes an option or an operand. -/
theorem read_cases (h : read t p w = some (r, q)) :
    r.options = [w] ∧ r.operands = [] ∨ isOption w = false ∧ r = ⟨[], [], [w]⟩ := by
  cases p with
  | some c =>
    cases h
    exact .inl ⟨rfl, rfl⟩
  | none =>
    by_cases ends : w = dashes
    · rw [read_none_iff.mpr ⟨rfl, ends⟩] at h
      cases h
    · cases option : isOption w with
      | true =>
        simp only [read, if_neg ends, option, if_true] at h
        cases h
        exact .inl ⟨rfl, rfl⟩
      | false =>
        rw [read_operand option] at h
        cases h
        exact .inr ⟨rfl, rfl⟩

namespace Reads

theorem plain (h : Reads t p ws r q) : ∀ v ∈ r.operands, isOption v = false := by
  induction h with
  | nil => simp
  | cons first _ ih =>
    rw [Parse.operands_append, List.forall_mem_append]
    refine ⟨?_, ih⟩
    obtain ⟨-, none_left⟩ | ⟨plain, rfl⟩ := read_cases first
    · simp [none_left]
    · simpa using plain

theorem kept (h : Reads t p ws r q) (none_left : r.operands = []) : r.options = ws := by
  induction h with
  | nil => rfl
  | cons first _ ih =>
    obtain ⟨one, others⟩ := List.append_eq_nil_iff.mp none_left
    obtain ⟨moved, -⟩ | ⟨-, rfl⟩ := read_cases first
    · rw [Parse.options_append, moved, ih others]
      rfl
    · cases one

theorem operands (plain : ∀ w ∈ ws, isOption w = false) : Reads t none ws ⟨[], [], ws⟩ none := by
  induction ws with
  | nil => exact .nil
  | cons w ws ih =>
    exact .cons (read_operand (plain w List.mem_cons_self))
      (ih fun v hv => plain v (List.mem_cons_of_mem w hv))

theorem unique (h : Reads t p ws r q) (h' : Reads t p ws r' s) : r = r' ∧ q = s := by
  induction h generalizing r' with
  | nil =>
    cases h'
    exact ⟨rfl, rfl⟩
  | cons first _ ih =>
    cases h' with
    | cons first' later' =>
      rw [first] at first'
      cases first'
      obtain ⟨rfl, rfl⟩ := ih later'
      exact ⟨rfl, rfl⟩

theorem getopt (h : Reads t p ws r q) (rest : List Word) :
    getopt t p (ws ++ rest) = r ++ Getopt.getopt t q rest := by
  induction h with
  | nil => rfl
  | cons first _ ih =>
    rw [List.cons_append, Getopt.getopt, first, Parse.append_assoc, ← ih]

theorem getopt_ended (h : Reads t none ws r none) (rest : List Word) :
    Getopt.getopt t none (ws ++ dashes :: rest) = r ++ ⟨[], [dashes], rest⟩ := by
  rw [h.getopt, Getopt.getopt, read_none_iff.mpr ⟨rfl, rfl⟩]

end Reads

theorem takes_iff :
    takes t p ws = some (fs, q) ↔ ∃ r, Reads t p ws r q ∧ r.operands = [] ∧ r.found = fs := by
  induction ws generalizing p fs with
  | nil =>
    constructor
    · rintro ⟨⟩
      exact ⟨_, .nil, rfl, rfl⟩
    · rintro ⟨r, h, -, rfl⟩
      cases h
      rfl
  | cons w ws ih =>
    constructor
    · intro h
      obtain ⟨⟨r, p'⟩, first, h⟩ := Option.bind_eq_some_iff.mp h
      obtain ⟨none_left, h⟩ := Option.ite_none_right_eq_some.mp h
      obtain ⟨⟨gs, s⟩, later, h⟩ := Option.map_eq_some_iff.mp h
      cases h
      obtain ⟨r', back, none_later, rfl⟩ := ih.mp later
      refine ⟨r ++ r', .cons first back, ?_, rfl⟩
      exact List.append_eq_nil_iff.mpr ⟨none_left, none_later⟩
    · rintro ⟨r, h, none_left, rfl⟩
      cases h with
      | cons first back =>
        obtain ⟨one, others⟩ := List.append_eq_nil_iff.mp none_left
        have later := ih.mpr ⟨_, back, others, rfl⟩
        rw [takes, first, Option.bind_some, if_pos one, later]
        rfl

theorem takes_word :
    takes t none [w] = if isOption w ∧ w ≠ dashes then some (optionWord t w) else none := by
  rw [takes]
  by_cases ends : w = dashes
  · rw [read_none_iff.mpr ⟨rfl, ends⟩, if_neg fun option => option.2 ends]
    rfl
  · cases option : isOption w with
    | true => simp [read, ends, option, takes]
    | false => simp [read_operand option]

theorem takes_append (ws vs : List Word) :
    takes t p (ws ++ vs) = (takes t p ws).bind fun front =>
      (takes t front.2 vs).map fun back => (front.1 ++ back.1, back.2) := by
  induction ws generalizing p with
  | nil => simp [takes]
  | cons w ws ih =>
    rw [List.cons_append, takes, takes]
    cases read t p w with
    | none => rfl
    | some first =>
      rw [Option.bind_some, Option.bind_some]
      split
      · rw [ih]
        cases takes t first.2 ws with
        | none => rfl
        | some front => simp [Function.comp_def]
      · rfl

theorem reads_or_ended (t : Table) (p : Option UInt8) (words : List Word) :
    (∃ r q, Reads t p words r q) ∨
    ∃ front r rest, words = front ++ dashes :: rest ∧ Reads t p front r none := by
  induction words generalizing p with
  | nil => exact .inl ⟨_, p, .nil⟩
  | cons w ws ih =>
    cases first : read t p w with
    | none =>
      obtain ⟨rfl, rfl⟩ := read_none_iff.mp first
      exact .inr ⟨[], _, ws, rfl, .nil⟩
    | some result =>
      obtain ⟨r, q⟩ := result
      obtain ⟨r', s, later⟩ | ⟨front, r', rest, rfl, later⟩ := ih q
      · exact .inl ⟨_, s, .cons first later⟩
      · exact .inr ⟨w :: front, _, rest, rfl, .cons first later⟩

theorem getopt_operands (plain : ∀ w ∈ ws, isOption w = false) :
    getopt t none ws = ⟨[], [], ws⟩ := by
  have whole := (Reads.operands (t := t) plain).getopt []
  rw [List.append_nil] at whole
  rw [whole, getopt]
  change Parse.mk _ _ _ = _
  simp

namespace Reads

theorem getopt_all (h : Reads t p ws r q) : (Getopt.getopt t p ws).operands = r.operands := by
  have whole := h.getopt []
  rw [List.append_nil] at whole
  rw [whole, Getopt.getopt, Parse.operands_append, List.append_nil]

theorem getopt_taken {c : UInt8} (h : Reads t none ws r (some c)) (rest : List Word) :
    Getopt.getopt t none (ws ++ dashes :: rest) =
      r ++ (⟨[⟨c, some dashes⟩], [dashes], []⟩ ++ Getopt.getopt t none rest) :=
  h.getopt (dashes :: rest)

end Reads

/-- A `--` behind words that leave no operand. If it is the argument of an option,
the words behind it must be operands. -/
theorem getopt_takes (front : takes t none ws = some (fs, q))
    (plain : q ≠ none → ∀ w ∈ rest, isOption w = false) :
    getopt t none (ws ++ dashes :: rest) =
      ⟨fs ++ (q.map fun c => ⟨c, some dashes⟩).toList, ws ++ [dashes], rest⟩ := by
  obtain ⟨r, h, none_left, rfl⟩ := takes_iff.mp front
  have kept := h.kept none_left
  cases q with
  | none =>
    rw [h.getopt_ended]
    change Parse.mk _ _ _ = _
    simp [kept, none_left]
  | some c =>
    rw [h.getopt_taken, getopt_operands (plain (Option.some_ne_none c))]
    change Parse.mk _ _ _ = _
    simp [kept, none_left]

theorem operands_eq_iff :
    (getopt t none (ws ++ dashes :: rest)).operands = rest ↔
      ∃ fs q, takes t none ws = some (fs, q) ∧
        (q ≠ none → ∀ w ∈ rest, isOption w = false) := by
  constructor
  · intro same
    obtain ⟨r, q, front⟩ | ⟨front, r, behind, rfl, ended⟩ := reads_or_ended t none ws
    · cases q with
      | none =>
        rw [front.getopt_ended, Parse.operands_append, List.append_left_eq_self] at same
        exact ⟨_, none, takes_iff.mpr ⟨r, front, same, rfl⟩, fun taken => absurd rfl taken⟩
      | some c =>
        replace same : r.operands ++ (getopt t none rest).operands = rest := by
          rwa [front.getopt_taken] at same
        obtain ⟨r', q', back⟩ | ⟨before, r', after, rfl, back⟩ := reads_or_ended t none rest
        · rw [back.getopt_all] at same
          have plain : ∀ w ∈ rest, isOption w = false := by
            rw [← same]
            exact List.forall_mem_append.mpr ⟨front.plain, back.plain⟩
          obtain ⟨rfl, -⟩ := back.unique (.operands plain)
          rw [List.append_left_eq_self] at same
          exact ⟨_, some c, takes_iff.mpr ⟨r, front, same, rfl⟩, fun _ => plain⟩
        · -- a `--` behind ends the options, but it would have to be an operand
          rw [back.getopt_ended, Parse.operands_append, ← List.append_assoc,
            List.append_cons before, List.append_cancel_right_eq] at same
          have inside : dashes ∈ r.operands ++ r'.operands := by
            rw [same]
            exact List.mem_append_right before (List.mem_singleton_self dashes)
          have plain := List.forall_mem_append.mpr ⟨front.plain, back.plain⟩ dashes inside
          cases plain
    · rw [List.append_assoc, List.cons_append, ended.getopt_ended, Parse.operands_append] at same
      have longer := congrArg List.length same
      simp only [List.length_append, List.length_cons] at longer
      omega
  · rintro ⟨fs, q, front, plain⟩
    rw [getopt_takes front plain]

end

end Ultrasight.Getopt
