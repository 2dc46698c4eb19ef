import Mathlib.Data.List.Induction
import Ultrasight.Getopt
import Ultrasight.Numbers

/-!
# The command line

`main` sets a variable for each option and launches the command behind them.
`usage` gives a short and a long form of each; the option string has a `:` behind
`e`, `f` and `k`, and no `u`.

* `main_launch_iff`: what is launched;
* `command_iff`: when that is what follows the `--`;
* `main_longLine`: the long forms are read as they are meant;
* `spellings_settings`: what is read of the short ones;
* `short_forms_iff`: when both lines launch the same.
-/

namespace Ultrasight.CommandLine

open Text Getopt

/-! ## The code -/

/-- `long_options`, and the option string. -/
def optionTable : Table where
  short := ascii "b:c:e:f:k:v::h"
  long :=
    [⟨ascii "board", .required, 'b'.toUInt8⟩,
      ⟨ascii "cpu", .required, 'c'.toUInt8⟩,
      ⟨ascii "export", .no, 'e'.toUInt8⟩,
      ⟨ascii "fetcher", .no, 'f'.toUInt8⟩,
      ⟨ascii "udmabuf", .required, 'u'.toUInt8⟩,
      ⟨ascii "ksight", .no, 'k'.toUInt8⟩,
      ⟨ascii "verbose", .optional, 'v'.toUInt8⟩,
      ⟨ascii "help", .no, 'h'.toUInt8⟩]

/-- The variables that are set. -/
structure Options where
  boardName : Word
  traceCpu : BitVec 32
  exportConfig : Bool
  fetcherOn : Bool
  udmabufNum : BitVec 32
  ksightOn : Bool
  registrationVerbose : BitVec 32
  deriving DecidableEq

namespace Options

/-- Their values in front of the loop. -/
def initial : Options := ⟨ascii "ZCU-104", -1, false, false, 0, false, 0⟩

/-- The body of the loop, but for `usage`. Where `optarg` is not looked at before it
is used, the tables require it. -/
def set (o : Options) (f : Found) : Option Options :=
  let optarg := f.optarg.getD []
  if f.opt = 'b'.toUInt8 then some { o with boardName := optarg }
  else if f.opt = 'c'.toUInt8 then some { o with traceCpu := atoi optarg }
  else if f.opt = 'e'.toUInt8 then some { o with exportConfig := true }
  else if f.opt = 'f'.toUInt8 then some { o with fetcherOn := true }
  else if f.opt = 'u'.toUInt8 then some { o with udmabufNum := atoi optarg }
  else if f.opt = 'k'.toUInt8 then some { o with ksightOn := true }
  else if f.opt = 'v'.toUInt8 then
    some { o with registrationVerbose := f.optarg.elim 1 atoi }
  else if f.opt = 'h'.toUInt8 then none
  else some o

/-- The loop. -/
def settle (found : List Found) : Option Options := found.foldlM set initial

end Options

/-- How `main` ends, or what it has when it forks: `argvp` goes to `child`. -/
inductive Outcome where
  | exit (status : Nat)
  | launch (options : Options) (argvp : List Word)
  deriving DecidableEq

def main (argv : List Word) : Outcome :=
  if argv.length < 3 then .exit 0
  else
    let parse := getopt optionTable none argv.tail
    let argv := argv.take 1 ++ parse.options ++ parse.operands
    let optind := 1 + parse.options.length
    match Options.settle parse.found with
    | none => .exit 0
    | some options =>
      if argv.length ≤ optind ∨ argv[optind - 1]? ≠ some dashes then .exit 1
      else .launch options (argv.drop optind)

/-! ## What is launched -/

/-- A line in which a `--` ends the options, with `strays` in front of it that are
neither options nor their arguments, and `rest` behind it. -/
def Ended (argv strays rest : List Word) : Prop :=
  ∃ program front r, argv = program :: (front ++ dashes :: rest) ∧
    Reads optionTable none front r none ∧ r.operands = strays

section
variable {program : Word} {argv args argvp strays rest : List Word} {options : Options}

theorem main_launch_iff :
    main (program :: args) = .launch options argvp ↔
      2 ≤ args.length ∧ Options.settle (getopt optionTable none args).found = some options ∧
      (program :: (getopt optionTable none args).options).getLast? = some dashes ∧
      (getopt optionTable none args).operands = argvp ∧ argvp ≠ [] := by
  rw [main, List.tail_cons, List.length_cons]
  obtain ⟨found, front, operands⟩ := getopt optionTable none args
  have last : ([program] ++ front ++ operands)[1 + front.length - 1]? =
      (program :: front).getLast? := by
    rw [List.getElem?_append_left (by simp), List.getLast?_eq_getElem?]
    simp
  have behind : ([program] ++ front ++ operands).drop (1 + front.length) = operands :=
    List.drop_left' (by simp [Nat.add_comm])
  have some_left : ([program] ++ front ++ operands).length ≤ 1 + front.length ↔
      operands = [] := by
    rw [← List.length_eq_zero_iff]
    simp only [List.length_append, List.length_singleton]
    omega
  by_cases few : args.length + 1 < 3
  · simp only [if_pos few, reduceCtorEq, false_iff]
    omega
  · rw [if_neg few]
    have enough : 2 ≤ args.length := by omega
    simp only [List.take_succ_cons, List.take_zero, last, behind, some_left]
    cases Options.settle found with
    | none => simp
    | some o =>
      simp only
      by_cases refused : operands = [] ∨ (program :: front).getLast? ≠ some dashes
      · simp only [if_pos refused, reduceCtorEq, false_iff]
        rintro ⟨-, -, ends, rfl, nonempty⟩
        obtain none_left | other := refused
        · exact nonempty none_left
        · exact other ends
      · rw [if_neg refused]
        rw [not_or, not_not] at refused
        constructor
        · rintro ⟨⟩
          exact ⟨enough, rfl, refused.2, rfl, refused.1⟩
        · rintro ⟨-, ⟨⟩, -, rfl, -⟩
          rfl

/-- What was in front of the `--` is launched with what is behind it. -/
theorem Ended.launched (ended : Ended argv strays rest)
    (launched : main argv = .launch options argvp) : argvp = strays ++ rest := by
  obtain ⟨program, front, r, rfl, reads, rfl⟩ := ended
  obtain ⟨-, -, -, behind, -⟩ := main_launch_iff.mp launched
  rw [reads.getopt_ended, Parse.operands_append] at behind
  exact behind.symm

/-- A line that is not refused launches what is behind the `--` that ends the
options if and only if there is one, with no stray word in front of it. -/
theorem command_iff (launched : main argv = .launch options argvp) :
    (argvp ≠ [] ∧ ∃ strays, Ended argv strays argvp) ↔ ∃ rest, Ended argv [] rest := by
  constructor
  · rintro ⟨-, strays, ended⟩
    have same := ended.launched launched
    rw [List.self_eq_append_left] at same
    exact ⟨argvp, same ▸ ended⟩
  · rintro ⟨rest, ended⟩
    have same : argvp = rest := ended.launched launched
    subst same
    refine ⟨?_, [], ended⟩
    obtain ⟨program, front, r, rfl, -⟩ := ended
    exact (main_launch_iff.mp launched).2.2.2.2

end

theorem listing_launched :
    [ascii "ls", ascii "-l"] ≠ [] ∧ ∃ strays,
      Ended (["cs-trace", "--cpu=2", "--verbose", "--", "ls", "-l"].map ascii) strays
        [ascii "ls", ascii "-l"] :=
  (command_iff (show main _ =
      .launch { Options.initial with traceCpu := 2, registrationVerbose := 1 }
        [ascii "ls", ascii "-l"] by decide)).mpr
    ⟨_, ascii "cs-trace", [ascii "--cpu=2", ascii "--verbose"], _, rfl,
      .cons rfl (.cons rfl .nil), rfl⟩

/-- The word in front of the `--` is the program that is launched. -/
theorem stray_launched :
    ¬ ∀ strays rest options argvp, Ended (["cs-trace", "stray", "--", "ls"].map ascii) strays rest →
      main (["cs-trace", "stray", "--", "ls"].map ascii) = .launch options argvp →
      argvp = rest ∧ rest ≠ [] := by
  intro always
  have ended : Ended (["cs-trace", "stray", "--", "ls"].map ascii) [ascii "stray"] [ascii "ls"] :=
    ⟨_, [ascii "stray"], _, rfl, .cons rfl .nil, rfl⟩
  have launched : main (["cs-trace", "stray", "--", "ls"].map ascii) =
      .launch .initial [ascii "stray", ascii "ls"] := by decide
  exact absurd (always _ _ _ _ ended launched).1 (by decide)

/-! ## The forms that `usage` prints -/

/-- An option of `usage`, with what it is set to. -/
inductive Setting where
  | board (name : Word)
  | cpu (n : Int)
  | exportConfig
  | fetcher
  | udmabuf (n : Int)
  | ksight
  | verbose (level : Option Int)

/-- The number as an `int`. -/
def toInt (n : Int) : BitVec 32 := (toLong n).setWidth 32

namespace Setting

/-- The first word of the short form. -/
def flag : Setting → Word
  | board _ => ascii "-b"
  | cpu _ => ascii "-c"
  | exportConfig => ascii "-e"
  | fetcher => ascii "-f"
  | udmabuf _ => ascii "-u"
  | ksight => ascii "-k"
  | verbose none => ascii "-v"
  | verbose (some n) => ascii "-v" ++ decimal n

/-- The second one. -/
def value : Setting → Option Word
  | board name => some name
  | cpu n | udmabuf n => some (decimal n)
  | _ => none

def short (s : Setting) : List Word := s.flag :: s.value.toList

def long : Setting → Word
  | board name => ascii "--board=" ++ name
  | cpu n => ascii "--cpu=" ++ decimal n
  | exportConfig => ascii "--export"
  | fetcher => ascii "--fetcher"
  | udmabuf n => ascii "--udmabuf=" ++ decimal n
  | ksight => ascii "--ksight"
  | verbose none => ascii "--verbose"
  | verbose (some n) => ascii "--verbose=" ++ decimal n

/-- The option that it is, and its argument. -/
def found : Setting → Found
  | board name => ⟨'b'.toUInt8, some name⟩
  | cpu n => ⟨'c'.toUInt8, some (decimal n)⟩
  | exportConfig => ⟨'e'.toUInt8, none⟩
  | fetcher => ⟨'f'.toUInt8, none⟩
  | udmabuf n => ⟨'u'.toUInt8, some (decimal n)⟩
  | ksight => ⟨'k'.toUInt8, none⟩
  | verbose level => ⟨'v'.toUInt8, level.map decimal⟩

/-- What it means. -/
def change (o : Options) : Setting → Options
  | board name => { o with boardName := name }
  | cpu n => { o with traceCpu := toInt n }
  | exportConfig => { o with exportConfig := true }
  | fetcher => { o with fetcherOn := true }
  | udmabuf n => { o with udmabufNum := toInt n }
  | ksight => { o with ksightOn := true }
  | verbose level => { o with registrationVerbose := level.elim 1 toInt }

end Setting

/-- What they all mean. -/
def Options.of (settings : List Setting) : Options := settings.foldl Setting.change .initial

/-- The words behind the name of the program. -/
def shortLine (settings : List Setting) (command : List Word) : List Word :=
  settings.flatMap Setting.short ++ dashes :: command

def longLine (settings : List Setting) (command : List Word) : List Word :=
  settings.map Setting.long ++ dashes :: command

/-! ## What the settings mean -/

inductive Variable where
  | boardName
  | traceCpu
  | exportConfig
  | fetcherOn
  | udmabufNum
  | ksightOn
  | registrationVerbose
  deriving DecidableEq

def Setting.variable : Setting → Variable
  | board _ => .boardName
  | cpu _ => .traceCpu
  | exportConfig => .exportConfig
  | fetcher => .fetcherOn
  | udmabuf _ => .udmabufNum
  | ksight => .ksightOn
  | verbose _ => .registrationVerbose

def lastOf (x : Variable) (settings : List Setting) : Option Setting :=
  (settings.filter fun s => s.variable = x).getLast?

/-- What the last setting of a variable makes of the defaults. -/
def lastChange (x : Variable) (settings : List Setting) : Options :=
  (lastOf x settings).elim .initial (Setting.change .initial)

section
variable {read settings : List Setting}

/-- The defaults, but for one variable. -/
def Options.only (o : Options) : Variable → Options
  | .boardName => { initial with boardName := o.boardName }
  | .traceCpu => { initial with traceCpu := o.traceCpu }
  | .exportConfig => { initial with exportConfig := o.exportConfig }
  | .fetcherOn => { initial with fetcherOn := o.fetcherOn }
  | .udmabufNum => { initial with udmabufNum := o.udmabufNum }
  | .ksightOn => { initial with ksightOn := o.ksightOn }
  | .registrationVerbose => { initial with registrationVerbose := o.registrationVerbose }

theorem only_change (o : Options) (s : Setting) (x : Variable) :
    (s.change o).only x = if s.variable = x then s.change .initial else o.only x := by
  cases s <;> cases x <;> rfl

theorem only_ext {o o' : Options} (same : ∀ x, o.only x = o'.only x) : o = o' := by
  obtain ⟨b, c, e, f, u, k, v⟩ := o
  obtain rfl : b = o'.boardName := congrArg Options.boardName (same .boardName)
  obtain rfl : c = o'.traceCpu := congrArg Options.traceCpu (same .traceCpu)
  obtain rfl : e = o'.exportConfig := congrArg Options.exportConfig (same .exportConfig)
  obtain rfl : f = o'.fetcherOn := congrArg Options.fetcherOn (same .fetcherOn)
  obtain rfl : u = o'.udmabufNum := congrArg Options.udmabufNum (same .udmabufNum)
  obtain rfl : k = o'.ksightOn := congrArg Options.ksightOn (same .ksightOn)
  obtain rfl : v = o'.registrationVerbose :=
    congrArg Options.registrationVerbose (same .registrationVerbose)
  rfl

/-- All the settings together set each variable as the last of it does. -/
theorem only_of (x : Variable) (settings : List Setting) :
    (Options.of settings).only x = lastChange x settings := by
  induction settings using List.reverseRecOn with
  | nil => cases x <;> rfl
  | append_singleton settings s ih =>
    rw [Options.of] at ih
    rw [Options.of, List.foldl_append, List.foldl_cons, List.foldl_nil, only_change, ih, lastChange,
      lastChange, lastOf, lastOf, List.filter_append]
    by_cases mine : s.variable = x
    · simp [mine]
    · simp [mine]

theorem of_eq_iff :
    Options.of read = .of settings ↔ ∀ x, lastChange x read = lastChange x settings := by
  constructor
  · intro same x
    rw [← only_of, ← only_of, same]
  · intro same
    apply only_ext
    intro x
    rw [only_of, only_of, same]

end

/-! ## The settings that options stand for -/

/-- The number that a word starts with. -/
def leading (w : Word) : Int := (number 10 w).elim 0 Prod.fst

/-- The setting that an option stands for. -/
def settingOf (f : Found) : Option Setting :=
  let optarg := f.optarg.getD []
  if f.opt = 'b'.toUInt8 then some (.board optarg)
  else if f.opt = 'c'.toUInt8 then some (.cpu (leading optarg))
  else if f.opt = 'e'.toUInt8 then some .exportConfig
  else if f.opt = 'f'.toUInt8 then some .fetcher
  else if f.opt = 'u'.toUInt8 then some (.udmabuf (leading optarg))
  else if f.opt = 'k'.toUInt8 then some .ksight
  else if f.opt = 'v'.toUInt8 then some (.verbose (f.optarg.map leading))
  else none

/-- The settings that options stand for, unless one of them asks for help. -/
def spell (found : List Found) : Option (List Setting) :=
  if ∀ f ∈ found, f.opt ≠ 'h'.toUInt8 then some (found.filterMap settingOf) else none

theorem leading_decimal (n : Int) : leading (decimal n) = n := by
  have whole : number 10 (decimal n ++ []) = some (n, []) := number_decimal n rfl
  rw [List.append_nil] at whole
  rw [leading, whole]
  rfl

theorem set_settingOf (o : Options) (f : Found) :
    o.set f = if f.opt = 'h'.toUInt8 then none
      else some ((settingOf f).elim o (Setting.change o)) := by
  by_cases help : f.opt = 'h'.toUInt8
  · rw [if_pos help, Options.set, help]
    rfl
  · rw [if_neg help]
    simp only [Options.set, settingOf, if_neg help]
    -- Only `-v` looks whether it has an argument.
    cases f.optarg <;> split_ifs <;> rfl

theorem spell_cons (f : Found) (found : List Found) :
    spell (f :: found) = if f.opt = 'h'.toUInt8 then none
      else (spell found).map ((settingOf f).toList ++ ·) := by
  by_cases help : f.opt = 'h'.toUInt8
  · simp [spell, help]
  · cases read : settingOf f <;> simp [spell, help, read, apply_ite]

theorem spell_append (found others : List Found) :
    spell (found ++ others) =
      (spell found).bind fun front => (spell others).map (front ++ ·) := by
  induction found with
  | nil => simp [spell]
  | cons f found ih =>
    rw [List.cons_append, spell_cons, spell_cons, ih]
    split_ifs
    · rfl
    · cases spell found with
      | none => rfl
      | some front => cases spell others <;> simp

/-- `main` sets its variables as the settings do that the options stand for. -/
theorem settle_spell (found : List Found) :
    Options.settle found = (spell found).map .of := by
  change found.foldlM Options.set .initial =
    (spell found).map fun read => read.foldl Setting.change .initial
  generalize Options.initial = o
  induction found generalizing o with
  | nil => rfl
  | cons f found ih =>
    rw [List.foldlM_cons, set_settingOf, spell_cons]
    split_ifs
    · rfl
    · change List.foldlM _ _ found = _
      rw [ih]
      cases spell found with
      | none => rfl
      | some read => cases settingOf f <;> rfl

theorem settingOf_found (s : Setting) : settingOf s.found = some s := by
  cases s with
  | cpu n | udmabuf n =>
    nth_rewrite 2 [← leading_decimal n]
    rfl
  | verbose level =>
    cases level with
    | none => rfl
    | some n =>
      nth_rewrite 2 [← leading_decimal n]
      rfl
  | board | exportConfig | fetcher | ksight => rfl

theorem spell_found (settings : List Setting) :
    spell (settings.map Setting.found) = some settings := by
  induction settings with
  | nil => rfl
  | cons s settings ih =>
    have plain : s.found.opt ≠ 'h'.toUInt8 := bne_iff_ne.mp (by cases s <;> rfl)
    rw [List.map_cons, spell_cons, if_neg plain, ih, settingOf_found]
    rfl

/-! ## What is read of the long forms -/

section
variable {program : Word} {command : List Word} {settings : List Setting}

theorem read_long (s : Setting) :
    Getopt.read optionTable none s.long = some (⟨[s.found], [s.long], []⟩, none) := by
  cases s with
  | verbose level => cases level <;> rfl
  | board | cpu | exportConfig | fetcher | udmabuf | ksight => rfl

theorem takes_long (settings : List Setting) :
    takes optionTable none (settings.map Setting.long) =
      some (settings.map Setting.found, none) := by
  induction settings with
  | nil => rfl
  | cons s settings ih =>
    rw [List.map_cons, takes, read_long, Option.bind_some, if_pos rfl, ih]
    rfl

theorem settle_found (settings : List Setting) :
    Options.settle (settings.map Setting.found) = some (.of settings) := by
  rw [settle_spell, spell_found]
  rfl

theorem line_length {front : List Word} (given : command ≠ []) :
    2 ≤ (front ++ dashes :: command).length := by
  have := List.length_pos_iff.mpr given
  simp only [List.length_append, List.length_cons]
  omega

/-- The long forms are read as they are meant. -/
theorem main_longLine (given : command ≠ []) :
    main (program :: longLine settings command) = .launch (.of settings) command := by
  have parsed : getopt optionTable none (longLine settings command) = _ :=
    getopt_takes (takes_long settings) fun taken => absurd rfl taken
  apply main_launch_iff.mpr
  rw [parsed]
  refine ⟨?_, ?_, ?_, rfl, given⟩
  · exact line_length given
  · simpa using settle_found settings
  · rw [← List.cons_append, List.getLast?_concat]

end

/-! ## What is read of the short forms -/

/-- The settings in some options and in a value that is not the argument of any. The
value is read as a word of its own; nothing is read if that is no option. -/
def lone (found : List Found) : Option Word → Option (List Setting × Option UInt8)
  | none => (spell found).map fun read => (read, none)
  | some w =>
    if isOption w ∧ w ≠ dashes then
      (spell (found ++ (optionWord optionTable w).1)).map fun read =>
        (read, (optionWord optionTable w).2)
    else none

/-- The settings that are read of one. An option that waits for its argument takes the
flag; so do `-e`, `-f` and `-k` with the next word, and there is no `-u`. -/
def Setting.seen (s : Setting) : Option UInt8 → Option (List Setting × Option UInt8)
  | some c => lone [⟨c, some s.flag⟩] s.value
  | none =>
    match s with
    | .exportConfig | .fetcher | .ksight => some ([], some s.found.opt)
    | .udmabuf _ => lone [] s.value
    | .board _ | .cpu _ | .verbose _ => some ([s], none)

/-- The settings that are read of them all, and the last flag if it takes the next
word. -/
def seen : Option UInt8 → List Setting → Option (List Setting × Option UInt8)
  | p, [] => some ([], p)
  | p, s :: settings =>
    (s.seen p).bind fun first =>
      (seen first.2 settings).map fun later => (first.1 ++ later.1, later.2)

/-- No value is left over, and the last setting of each variable that is read says
the same as the last one of all. A flag that takes the `--` leaves the command to be
looked through for options. -/
def Agrees (settings : List Setting) (command : List Word) : Prop :=
  ∃ front taker last, seen none settings = some (front, taker) ∧
    spell (taker.map fun c => ⟨c, some dashes⟩).toList = some last ∧
    (∀ x, lastChange x (front ++ last) = lastChange x settings) ∧
    (taker ≠ none → ∀ w ∈ command, isOption w = false)

section
variable {program : Word} {command : List Word} {options : Options} {settings : List Setting}
  {p : Option UInt8}

theorem decimal_nonempty (n : Int) : decimal n ≠ [] := by
  have digits := (numeral_numeral (b := 10) (by decide) (by decide) n.natAbs).nonempty
  rw [decimal]
  simp [digits]

/-- The settings that words stand for. -/
def spellings (taken : Option (List Found × Option UInt8)) :
    Option (List Setting × Option UInt8) :=
  taken.bind fun t => (spell t.1).map fun read => (read, t.2)

theorem spellings_lone {flag : Found} {w : Word}
    (first : Getopt.read optionTable p w = some (⟨[flag], [w], []⟩, none)) (value : Option Word) :
    spellings (takes optionTable p (w :: value.toList)) = lone [flag] value := by
  rw [takes, first, Option.bind_some, if_pos rfl]
  cases value with
  | none => rfl
  | some v =>
    rw [Option.toList_some, takes_word, lone]
    split
    · rfl
    · rfl

theorem lone_unknown (value : Option Word) : lone [unknown] value = lone [] value := by
  have same (found : List Found) : spell (unknown :: found) = spell found := by
    rw [spell_cons, if_neg (by decide)]
    simp [show settingOf unknown = none from rfl]
  cases value with
  | none => rw [lone, lone, same]
  | some w => simp [lone, same]

/-- The level stands in the word of its `-v`. -/
theorem takes_verbose (level : Option Int) : takes optionTable none (Setting.verbose level).short =
    some ([(Setting.verbose level).found], none) := by
  cases level with
  | none => rfl
  | some n =>
    have argument : optionWord optionTable (45 :: 118 :: decimal n) =
        ([⟨118, some (decimal n)⟩], none) := by
      have optional : optionTable.shortArg 118 = some .optional := by decide
      change letters optionTable (118 :: decimal n) = _
      rw [letters, optional]
      simp only [if_neg (decimal_nonempty n)]
    have option : isOption (45 :: 118 :: decimal n) = true ∧ 45 :: 118 :: decimal n ≠ dashes :=
      ⟨rfl, nofun⟩
    change takes optionTable none [45 :: 118 :: decimal n] = _
    rw [takes_word, if_pos option, argument]
    rfl

theorem spellings_short (s : Setting) : spellings (takes optionTable p s.short) = s.seen p := by
  cases p with
  | some c => exact spellings_lone rfl s.value
  | none =>
    have known (taken : takes optionTable none s.short = some ([s.found], none)) :
        spellings (takes optionTable none s.short) = some ([s], none) := by
      rw [taken, spellings, Option.bind_some, show [s.found] = [s].map Setting.found from rfl,
        spell_found]
      rfl
    cases s with
    | udmabuf n =>
      have alone : spellings (takes optionTable none (Setting.udmabuf n).short) =
          lone [unknown] (some (decimal n)) := spellings_lone rfl _
      exact alone.trans (lone_unknown _)
    | verbose level => exact known (takes_verbose level)
    | board | cpu => exact known rfl
    | exportConfig | fetcher | ksight => rfl

theorem spellings_settings (settings : List Setting) :
    spellings (takes optionTable p (settings.flatMap Setting.short)) = seen p settings := by
  induction settings generalizing p with
  | nil => rfl
  | cons s settings ih =>
    rw [List.flatMap_cons, takes_append, seen, ← spellings_short]
    cases takes optionTable p s.short with
    | none => rfl
    | some first =>
      rw [Option.bind_some, spellings, spellings, Option.bind_some]
      cases own : spell first.1 with
      | none =>
        cases takes optionTable first.2 (settings.flatMap Setting.short) <;>
          simp [spell_append, own]
      | some front =>
        rw [Option.map_some, Option.bind_some, ← ih]
        cases takes optionTable first.2 (settings.flatMap Setting.short) with
        | none => rfl
        | some later => simp [spellings, spell_append, own, Function.comp_def]

/-- What is launched of the short forms. -/
theorem main_shortLine_iff (given : command ≠ []) :
    main (program :: shortLine settings command) = .launch options command ↔
      ∃ front taker last, seen none settings = some (front, taker) ∧
        spell (taker.map fun c => ⟨c, some dashes⟩).toList = some last ∧
        Options.of (front ++ last) = options ∧
        (taker ≠ none → ∀ w ∈ command, isOption w = false) := by
  rw [← spellings_settings]
  constructor
  · intro launched
    obtain ⟨-, settled, -, behind, -⟩ := main_launch_iff.mp launched
    obtain ⟨found, taker, taken, plain⟩ := operands_eq_iff.mp behind
    rw [shortLine, getopt_takes taken plain, settle_spell] at settled
    obtain ⟨read, spelled, rfl⟩ := Option.map_eq_some_iff.mp settled
    rw [spell_append, Option.bind_eq_some_iff] at spelled
    obtain ⟨front, own, spelled⟩ := spelled
    obtain ⟨last, behind, rfl⟩ := Option.map_eq_some_iff.mp spelled
    refine ⟨front, taker, last, ?_, behind, rfl, plain⟩
    rw [taken, spellings, Option.bind_some, own]
    rfl
  · rintro ⟨front, taker, last, spelled, behind, rfl, plain⟩
    obtain ⟨⟨found, q⟩, taken, spells⟩ := Option.bind_eq_some_iff.mp spelled
    obtain ⟨read, own, same⟩ := Option.map_eq_some_iff.mp spells
    cases same
    apply main_launch_iff.mpr
    rw [shortLine, getopt_takes taken plain]
    refine ⟨?_, ?_, ?_, rfl, given⟩
    · exact line_length given
    · rw [settle_spell, spell_append, own, behind]
      rfl
    · rw [← List.cons_append, List.getLast?_concat]

/-- Both lines launch the command with the same options if and only if the short
forms agree with the settings. -/
theorem short_forms_iff (given : command ≠ []) :
    (∃ options, main (program :: longLine settings command) = .launch options command ∧
      main (program :: shortLine settings command) = .launch options command) ↔
      Agrees settings command := by
  rw [main_longLine given]
  constructor
  · rintro ⟨options, ⟨⟩, launched⟩
    obtain ⟨front, taker, last, read, behind, same, plain⟩ := (main_shortLine_iff given).mp launched
    exact ⟨front, taker, last, read, behind, of_eq_iff.mp same, plain⟩
  · rintro ⟨front, taker, last, read, behind, same, plain⟩
    refine ⟨_, rfl, (main_shortLine_iff given).mpr ?_⟩
    exact ⟨front, taker, last, read, behind, of_eq_iff.mpr same, plain⟩

end

/-- The second `-e` is lost, but the first has set what it sets. -/
theorem repeated_export_agrees :
    ∃ options,
      main (ascii "cs-trace" :: longLine [.exportConfig, .exportConfig, .cpu 2, .verbose none]
        [ascii "ls", ascii "-l"]) = .launch options [ascii "ls", ascii "-l"] ∧
      main (ascii "cs-trace" :: shortLine [.exportConfig, .exportConfig, .cpu 2, .verbose none]
        [ascii "ls", ascii "-l"]) = .launch options [ascii "ls", ascii "-l"] :=
  (short_forms_iff (List.cons_ne_nil _ _)).mpr
    ⟨_, none, [], rfl, rfl, fun x => by cases x <;> rfl, fun taken => absurd rfl taken⟩

/-- There is no `-u`, and its number is launched. -/
theorem udmabuf_launched :
    ¬ ∃ options,
      main (ascii "cs-trace" :: longLine [.udmabuf 1] [ascii "ls"]) =
        .launch options [ascii "ls"] ∧
      main (ascii "cs-trace" :: shortLine [.udmabuf 1] [ascii "ls"]) =
        .launch options [ascii "ls"] := by
  rintro ⟨options, -, launched⟩
  have number : main (ascii "cs-trace" :: shortLine [.udmabuf 1] [ascii "ls"]) =
      .launch .initial [ascii "1", ascii "ls"] := by decide
  rw [number, Outcome.launch.injEq] at launched
  exact absurd launched.2 (by decide)

end Ultrasight.CommandLine
