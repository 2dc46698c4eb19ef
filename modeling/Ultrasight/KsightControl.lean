import Mathlib.Logic.Function.Basic
import Ultrasight.Numbers
import Ultrasight.Parent
import Ultrasight.Resources

/-!
# The switches of ksight

`parent()` names the tracee to the ksight module and switches it on before the
tracee runs, and takes both back when the tracee is gone. The two attributes are
files of the module; what the functions that write them return is not looked at.
The module is not part of the program: it is a `Driver`, and what the comments say
of it are the fields of `Documented`.

* `setAttribute` is what these functions have in common;
* `soFar` are the calls of `parent()` up to some round of its loop;
* `records_only_tracee_iff`: when nothing but the tracee is ever recorded.
-/

namespace Ultrasight

/-! ## Along a run -/

/-- `P` holds at the start and after every step of the run. -/
def Always {σ α : Type} (step : σ → α → σ) (P : σ → Prop) (s : σ) (run : List α) : Prop :=
  ∀ n, P ((run.take n).foldl step s)

section
variable {σ α : Type} {step : σ → α → σ} {P : σ → Prop} {s : σ} {run run' : List α} {a : α}

theorem always_nil : Always step P s [] ↔ P s := by
  simp [Always]

theorem always_cons : Always step P s (a :: run) ↔ P s ∧ Always step P (step s a) run := by
  constructor
  · intro h
    exact ⟨h 0, fun n => h (n + 1)⟩
  · rintro ⟨now, later⟩ n
    cases n with
    | zero => exact now
    | succ n => exact later n

theorem always_append :
    Always step P s (run ++ run') ↔ Always step P s run ∧ Always step P (run.foldl step s) run' := by
  induction run generalizing s with
  | nil =>
    rw [List.nil_append, always_nil]
    exact ⟨fun h => ⟨h 0, h⟩, And.right⟩
  | cons a run ih =>
    rw [List.cons_append, always_cons, always_cons, ih, List.foldl_cons, and_assoc]

/-- Steps that change nothing. -/
theorem foldl_idle (idle : ∀ a ∈ run, ∀ s, step s a = s) : run.foldl step s = s := by
  induction run with
  | nil => rfl
  | cons a run ih =>
    rw [List.foldl_cons, idle a List.mem_cons_self]
    exact ih fun b hb => idle b (List.mem_cons_of_mem a hb)

theorem always_idle (idle : ∀ a ∈ run, ∀ s, step s a = s) : Always step P s run ↔ P s := by
  have same (n : Nat) : (run.take n).foldl step s = s :=
    foldl_idle fun a ha => idle a (List.mem_of_mem_take ha)
  constructor
  · intro h
    rw [← same 0]
    exact h 0
  · intro now n
    rw [same]
    exact now

end

namespace KsightControl

open Fn Text Holdings
open Parent (Call Pid Options)

/-! ## The module -/

/-- The ksight module, with states of its own: what a `write` to an attribute makes of
them, by the path, the text and what it returns; what they are, seen from here; and
which processes are recorded. -/
structure Driver (σ : Type) where
  write : List UInt8 → List UInt8 → Int → σ → σ
  enabled : σ → Bool
  tracedPid : σ → Int
  records : σ → Int → Prop

def ksightPath : List UInt8 := ascii "/sys/class/ksight/ksight"
def tracedPidPath : List UInt8 := ksightPath ++ ascii "/traced_pid"
def enablePath : List UInt8 := ksightPath ++ ascii "/enable"

/-- The text that `%d` and a newline make of an `int`. -/
def line (n : BitVec 32) : List UInt8 := decimal n.toInt ++ [10]

namespace Driver

variable {σ : Type}

def set (k : Driver σ) (path : List UInt8) (n : BitVec 32) (s : σ) : σ :=
  k.write path (line n) (line n).length s

/-- What the comments of `utils.c` say. An attribute takes a whole number and keeps it,
and a `write` that does not take all of its text takes nothing. Switched on, the module
records the process it was told, and with 0 every process. -/
structure Documented (k : Driver σ) : Prop where
  setTracedPid : ∀ n s, k.tracedPid (k.set tracedPidPath n s) = n.toInt ∧
    k.enabled (k.set tracedPidPath n s) = k.enabled s
  setEnable : ∀ n s, k.enabled (k.set enablePath n s) = (n != 0) ∧
    k.tracedPid (k.set enablePath n s) = k.tracedPid s
  refused : ∀ path n (rc : Int) s, rc ≠ (line n).length → k.write path (line n) rc s = s
  records_iff : ∀ s p, k.records s p ↔
    k.enabled s = true ∧ (k.tracedPid s = 0 ∨ k.tracedPid s = p)

end Driver

/-! ## The code -/

/-- What `stat`, `open` and `write` say. -/
structure SetAnswers where
  isDir : Option Bool
  fd : Option Nat
  written : Int

/-- The module and the open descriptors. -/
structure System (σ : Type) where
  state : σ
  held : Holdings (List UInt8)

def bufSize : Nat := 64

/-- What `snprintf` stores, and the length it returns. -/
def snprintf (size : Nat) (text : List UInt8) : List UInt8 × Nat := (text.take (size - 1), text.length)

section
variable {σ : Type} (k : Driver σ)

def onHeld {α : Type} (x : Fn (Holdings (List UInt8)) α) : Fn (System σ) α :=
  zoom System.held (fun h m => { m with held := h }) x

/-- The number goes to the attribute as a line of text. -/
def setAttribute (path : List UInt8) (value : BitVec 32) (a : SetAnswers) : Fn (System σ) Int :=
  enclose do
    let isDir ← given a.isDir (-1)
    require isDir (-1)
    let fd ← onHeld (openFile path a.fd)
    require (0 ≤ fd) (-1)
    let (buf, len) := snprintf bufSize (line value)
    modify fun m => { m with state := k.write path buf a.written m.state }
    if a.written = len then
      onHeld (closeFile fd)
      pure 0
    else
      onHeld (closeFile fd)
      ret (-1)

def ksightSetTracedPid (pid : Pid) (a : SetAnswers) : Fn (System σ) Int :=
  setAttribute k tracedPidPath pid a

def ksightSetEnable (enable : BitVec 32) (a : SetAnswers) : Fn (System σ) Int :=
  setAttribute k enablePath enable a

/-- A call of `parent()`, as far as the module is concerned. -/
def control : Call → SetAnswers → Fn (System σ) Int
  | .ksightSetTracedPid pid, a => ksightSetTracedPid k pid a
  | .ksightSetEnable enable, a => ksightSetEnable k (if enable then 1 else 0) a
  | _, _ => pure 0

/-- The module after a call, whatever it returned. -/
def perform (m : System σ) (c : Call × SetAnswers) : System σ :=
  match control k c.1 c.2 m with
  | .ok _ m' | .error _ m' => m'

end

/-- The calls in at most `fuel` rounds of the loop. -/
def loopSoFar (o : Options) : Nat → Nat → List Nat → List Call
  | 0, _, _ => []
  | fuel + 1, wstatus, statuses =>
    let (wstatus, statuses) := Parent.waitpid wstatus statuses
    match dispatch o.fetcherOn wstatus with
    | .finish => Parent.finishing o
    | _ => Parent.callbacks o wstatus ++ loopSoFar o fuel wstatus statuses

/-- The calls of `parent()` up to then. -/
def soFar (o : Options) (self pid : Pid) (fuel wstatus : Nat) (statuses : List Nat) : List Call :=
  let (wstatus, statuses) := Parent.waitpid wstatus statuses
  (if wifstopped wstatus && wstopsig wstatus == sigtrap then Parent.starting o self pid else []) ++
    loopSoFar o fuel wstatus statuses

/-! ## What is recorded -/

namespace Driver

variable {σ : Type} (k : Driver σ)

/-- Nothing but `pid` is recorded. -/
def OnlyTracee (pid : Pid) (m : System σ) : Prop := ∀ p, k.records m.state p → p = pid.toInt

/-- Switched off, and nobody named. -/
structure Idle (m : System σ) : Prop where
  off : k.enabled m.state = false
  nobody : k.tracedPid m.state = 0

end Driver

/-- The attribute is written. -/
def SetAnswers.Works (value : BitVec 32) (a : SetAnswers) : Prop :=
  a.isDir = some true ∧ a.fd ≠ none ∧ a.written = (line value).length

instance (value : BitVec 32) (a : SetAnswers) : Decidable (a.Works value) :=
  inferInstanceAs (Decidable (_ ∧ _ ∧ _))

/-- The number that a call writes. -/
def written : Call → BitVec 32
  | .ksightSetTracedPid pid => pid
  | .ksightSetEnable enable => if enable then 1 else 0
  | _ => 0

/-- The call was made and did its work. -/
def Worked (c : Call) (made : List (Call × SetAnswers)) : Prop :=
  ∃ a, (c, a) ∈ made ∧ a.Works (written c)

/-! ## One call -/

/-- The text of every `int` has room. -/
theorem snprintf_int (n : BitVec 32) :
    snprintf bufSize (line n) = (line n, (line n).length) := by
  have digits : (numeral 10 n.toInt.natAbs).length ≤ 10 := by
    rw [numeral, List.length_map, Nat.length_toDigits_le_iff (by decide) (by decide)]
    have low := BitVec.le_toInt n
    have high := n.toInt_lt
    omega
  refine Prod.ext (List.take_of_length_le ?_) rfl
  rw [line, decimal, List.length_append, List.length_append, List.length_singleton, bufSize]
  split
  · rw [List.length_singleton]
    omega
  · rw [List.length_nil]
    omega

section
variable {σ : Type} {k : Driver σ}

/-- With a number written to an attribute. -/
def System.set (k : Driver σ) (m : System σ) (path : List UInt8) (n : BitVec 32) : System σ :=
  { m with state := k.set path n m.state }

@[simp] theorem set_state (m : System σ) (path : List UInt8) (n : BitVec 32) :
    (m.set k path n).state = k.set path n m.state := rfl

@[simp] theorem set_held (m : System σ) (path : List UInt8) (n : BitVec 32) :
    (m.set k path n).held = m.held := rfl

namespace Driver.Documented

variable (doc : k.Documented)

include doc

theorem traced_setPid (pid : Pid) (s : σ) :
    k.tracedPid (k.set tracedPidPath pid s) = pid.toInt := (doc.setTracedPid pid s).1

theorem enabled_setPid (pid : Pid) (s : σ) :
    k.enabled (k.set tracedPidPath pid s) = k.enabled s := (doc.setTracedPid pid s).2

theorem enabled_setEnable (n : BitVec 32) (s : σ) :
    k.enabled (k.set enablePath n s) = (n != 0) := (doc.setEnable n s).1

theorem traced_setEnable (n : BitVec 32) (s : σ) :
    k.tracedPid (k.set enablePath n s) = k.tracedPid s := (doc.setEnable n s).2

/-- Switched on, the module must have been told the tracee. -/
theorem onlyTracee_iff {pid : Pid} (child : pid ≠ 0) (m : System σ) :
    k.OnlyTracee pid m ↔ (k.enabled m.state = true → k.tracedPid m.state = pid.toInt) := by
  constructor
  · intro only on
    by_cases everyone : k.tracedPid m.state = 0
    · have another := only (pid.toInt + 1) ((doc.records_iff _ _).mpr ⟨on, .inl everyone⟩)
      omega
    · exact only _ ((doc.records_iff _ _).mpr ⟨on, .inr rfl⟩)
  · intro told p recorded
    obtain ⟨on, everyone | traced⟩ := (doc.records_iff _ _).mp recorded
    · refine absurd ?_ child
      rw [← BitVec.toInt_inj, ← told on, everyone]
      rfl
    · exact traced.symm.trans (told on)

end Driver.Documented

end

section
variable {σ : Type} {k : Driver σ}

/-- How a function ends: its attribute is written or nothing has changed, and no
descriptor is left open. -/
def Ended (k : Driver σ) (path : List UInt8) (n : BitVec 32) (a : SetAnswers) (m : System σ)
    (rc : Int) (m' : System σ) : Prop :=
  if a.Works n then rc = 0 ∧ m' = m.set k path n else rc = -1 ∧ m' = m

theorem setAttribute_ends (doc : k.Documented) (path : List UInt8) (n : BitVec 32)
    (a : SetAnswers) (m : System σ) :
    Ensures (setAttribute k path n a) (Ended k path n a m) (fun _ _ => False) m := by
  have fails (other : ¬ a.Works n) : Ended k path n a m (-1) m := by
    rw [Ended, if_neg other]
    exact ⟨rfl, rfl⟩
  simp only [setAttribute, onHeld, ensures_enclose, ensures_bind, ensures_given, ensures_require,
    ensures_zoom]
  refine ⟨?_, fun missing => fails fun works => by simp [works.1] at missing⟩
  intro isDir stat
  refine ⟨?_, fun other => fails fun works => by simp [works.1, other] at stat⟩
  rintro rfl
  cases opened : a.fd with
  | none =>
    simp only [ensures_openFile_none]
    refine ⟨fun positive => absurd positive (by decide), fun _ => ?_⟩
    exact fails fun works => works.2.1 opened
  | some fd =>
    simp only [ensures_openFile_some, snprintf_int, ensures_modify]
    refine ⟨fun _ => ?_, fun negative => by simp at negative⟩
    by_cases whole : a.written = (line n).length
    · rw [if_pos whole]
      simp only [ensures_bind, ensures_zoom, ensures_closeFile_opened, ensures_pure]
      have works : a.Works n := ⟨stat, opened ▸ Option.some_ne_none fd, whole⟩
      rw [Ended, if_pos works, whole]
      exact ⟨rfl, rfl⟩
    · rw [if_neg whole]
      simp only [ensures_bind, ensures_zoom, ensures_closeFile_opened, ensures_ret]
      rw [doc.refused path n a.written m.state whole]
      exact fails fun works => whole works.2.2

/-- The number of a call goes to its attribute, if to any. -/
theorem perform_eq (doc : k.Documented) (m : System σ) (c : Call) (a : SetAnswers) :
    perform k m (c, a) =
    match c with
    | .ksightSetTracedPid pid => if a.Works pid then m.set k tracedPidPath pid else m
    | .ksightSetEnable enable =>
      if a.Works (if enable then 1 else 0) then m.set k enablePath (if enable then 1 else 0) else m
    | _ => m := by
  have one (path : List UInt8) (n : BitVec 32) :
      (match setAttribute k path n a m with | .ok _ m' | .error _ m' => m') =
        if a.Works n then m.set k path n else m := by
    have ends := setAttribute_ends doc path n a m
    cases ran : setAttribute k path n a m with
    | ok rc m' =>
      have ended := (ensures_of_ok ran).mp ends
      unfold Ended at ended
      split at ended
      · rw [if_pos ‹_›]
        exact ended.2
      · rw [if_neg ‹_›]
        exact ended.2
    | error e m' => exact ((ensures_of_error ran).mp ends).elim
  cases c with
  | ksightSetTracedPid pid => exact one tracedPidPath pid
  | ksightSetEnable enable => exact one enablePath _
  | initTrace | startTrace | detach | suspendCallback | resumeCallback | stopTrace | finiTrace => rfl

end

/-! ## The calls of `parent()` -/

/-- A callback of the parent's loop. -/
def IsCallback (c : Call) : Prop := c = .suspendCallback ∨ c = .resumeCallback

theorem callbacks_plain (o : Options) (w : Nat) : ∀ c ∈ Parent.callbacks o w, IsCallback c := by
  unfold Parent.callbacks
  split <;> simp [IsCallback]

theorem not_callback_setEnable (on : Bool) : ¬ IsCallback (.ksightSetEnable on) := by
  simp [IsCallback]

theorem not_callback_setTracedPid (pid : Pid) : ¬ IsCallback (.ksightSetTracedPid pid) := by
  simp [IsCallback]

/-- The loop makes callbacks, and at most once what stands behind its end. -/
theorem loopSoFar_shape (o : Options) (fuel wstatus : Nat) (statuses : List Nat) :
    ∃ between, (∀ c ∈ between, IsCallback c) ∧
      (loopSoFar o fuel wstatus statuses = between ∨
        loopSoFar o fuel wstatus statuses = between ++ Parent.finishing o) := by
  induction fuel generalizing wstatus statuses with
  | zero => exact ⟨[], nofun, .inl rfl⟩
  | succ fuel ih =>
    simp only [loopSoFar]
    split
    · exact ⟨[], nofun, .inr rfl⟩
    · obtain ⟨between, plain, shape⟩ := ih (Parent.waitpid wstatus statuses).1
        (Parent.waitpid wstatus statuses).2
      refine ⟨Parent.callbacks o (Parent.waitpid wstatus statuses).1 ++ between, ?_, ?_⟩
      · intro c hc
        rcases List.mem_append.mp hc with hc | hc
        · exact callbacks_plain o _ c hc
        · exact plain c hc
      · rw [List.append_assoc]
        exact shape.imp (congrArg _) (congrArg _)

/-- In a run that ends, they are the calls that the run makes. -/
theorem loopSoFar_eq {o : Options} {joins : Bool} {fuel wstatus : Nat} {statuses : List Nat}
    {calls : List Call} {e : Parent.Exit}
    (run : Parent.loop o joins fuel wstatus statuses = some (calls, e)) :
    loopSoFar o fuel wstatus statuses = calls := by
  induction fuel generalizing wstatus statuses calls with
  | zero => cases run
  | succ fuel ih =>
    unfold Parent.loop at run
    unfold loopSoFar
    generalize Parent.waitpid wstatus statuses = next at run ⊢
    obtain ⟨w, rest⟩ := next
    cases branch : dispatch o.fetcherOn w with
    | finish =>
      simp only [branch] at run ⊢
      cases run
      rfl
    | ignore | suspend | resume =>
      simp only [branch] at run ⊢
      obtain ⟨⟨later, last⟩, loop, eq⟩ := Option.map_eq_some_iff.mp run
      cases eq
      rw [ih loop]

theorem soFar_eq {o : Options} {joins : Bool} {self pid : Pid} {fuel wstatus : Nat}
    {statuses : List Nat} {calls : List Call} {e : Parent.Exit}
    (run : Parent.parent o joins self pid fuel wstatus statuses = some (calls, e)) :
    soFar o self pid fuel wstatus statuses = calls := by
  unfold Parent.parent at run
  unfold soFar
  generalize Parent.waitpid wstatus statuses = next at run ⊢
  obtain ⟨w, rest⟩ := next
  obtain ⟨⟨later, last⟩, loop, eq⟩ := Option.map_eq_some_iff.mp run
  cases eq
  rw [← loopSoFar_eq loop]

/-! ## What worked -/

section
variable {c d : Call} {a : SetAnswers} {made made' : List (Call × SetAnswers)}

theorem worked_nil : ¬ Worked c [] := by
  simp [Worked]

theorem worked_cons : Worked c ((d, a) :: made) ↔ c = d ∧ a.Works (written c) ∨ Worked c made := by
  constructor
  · rintro ⟨b, hb, works⟩
    rcases List.mem_cons.mp hb with eq | hb
    · cases eq
      exact .inl ⟨rfl, works⟩
    · exact .inr ⟨b, hb, works⟩
  · rintro (⟨rfl, works⟩ | ⟨b, hb, works⟩)
    · exact ⟨a, List.mem_cons_self, works⟩
    · exact ⟨b, List.mem_cons_of_mem _ hb, works⟩

theorem worked_append : Worked c (made ++ made') ↔ Worked c made ∨ Worked c made' := by
  simp only [Worked, List.mem_append, or_and_right, exists_or]

theorem worked_plain (plain : ∀ d ∈ made.map Prod.fst, IsCallback d) (other : ¬ IsCallback c) :
    ¬ Worked c made := by
  rintro ⟨b, hb, _⟩
  exact other (plain c (List.mem_map_of_mem hb))

end

/-- Callbacks leave the module alone. -/
theorem perform_plain {σ : Type} {k : Driver σ} {made : List (Call × SetAnswers)}
    (plain : ∀ d ∈ made.map Prod.fst, IsCallback d) :
    ∀ call ∈ made, ∀ m, perform k m call = m := by
  rintro ⟨c, a⟩ hc m
  rcases plain c (List.mem_map_of_mem hc) with rfl | rfl
  · rfl
  · rfl

theorem map_fst_cons {c : Call} {cs : List Call} {made : List (Call × SetAnswers)} :
    made.map Prod.fst = c :: cs ↔ ∃ a rest, made = (c, a) :: rest ∧ rest.map Prod.fst = cs := by
  rw [List.map_eq_cons_iff]
  constructor
  · rintro ⟨⟨_, a⟩, rest, rfl, rfl, later⟩
    exact ⟨a, rest, rfl, later⟩
  · rintro ⟨a, rest, rfl, later⟩
    exact ⟨(c, a), rest, rfl, rfl, later⟩

section
variable {o : Options} {self pid : Pid} {made : List (Call × SetAnswers)} {σ : Type}
  {k : Driver σ} {m : System σ}

/-- What the calls before the loop make of an idle module. -/
structure Opened (k : Driver σ) (pid : Pid) (m : System σ) (made : List (Call × SetAnswers)) :
    Prop where
  enabled : k.enabled (made.foldl (perform k) m).state = true ↔ Worked (.ksightSetEnable true) made
  always : Always (perform k) (k.OnlyTracee pid) m made ↔
    (Worked (.ksightSetEnable true) made → Worked (.ksightSetTracedPid pid) made)
  others : ¬ Worked (.ksightSetEnable false) made ∧ ¬ Worked (.ksightSetTracedPid 0) made

theorem nothing_opened (doc : k.Documented) (child : pid ≠ 0) (idle : k.Idle m) :
    Opened k pid m [] := by
  refine ⟨?_, ?_, worked_nil, worked_nil⟩
  · simp [worked_nil, idle.off]
  · simp [worked_nil, always_nil, doc.onlyTracee_iff child, idle.off]

theorem starting_opened (doc : k.Documented) (calls : made.map Prod.fst = Parent.starting o self pid)
    (child : pid ≠ 0) (idle : k.Idle m) : Opened k pid m made := by
  have others : 0#32 ≠ pid := Ne.symm child
  have nobody : (0 : Int) ≠ pid.toInt := fun same => others (BitVec.toInt_inj.mp same)
  have off := idle.off
  cases ksight : o.ksightOn with
  | false =>
    simp only [Parent.starting, ksight, Bool.false_eq_true, if_false, List.append_nil,
      List.cons_append, List.nil_append, map_fst_cons, List.map_eq_nil_iff] at calls
    obtain ⟨a, _, rfl, b, _, rfl, c, _, rfl, rfl⟩ := calls
    refine ⟨?_, ?_, ?_⟩
    · simp [worked_cons, worked_nil, perform_eq doc, off]
    · simp [worked_cons, worked_nil, perform_eq doc, always_cons, always_nil,
        doc.onlyTracee_iff child, off]
    · simp [worked_cons, worked_nil]
  | true =>
    simp only [Parent.starting, ksight, if_true, List.cons_append, List.nil_append, map_fst_cons,
      List.map_eq_nil_iff] at calls
    obtain ⟨a, _, rfl, b, _, rfl, named, _, rfl, on, _, rfl, c, _, rfl, rfl⟩ := calls
    refine ⟨?_, ?_, ?_⟩
    · by_cases told : named.Works pid <;> by_cases switched : on.Works 1#32 <;>
        simp [worked_cons, worked_nil, perform_eq doc, written, doc.enabled_setEnable,
          doc.enabled_setPid, told, switched, off]
    · by_cases told : named.Works pid <;> by_cases switched : on.Works 1#32 <;>
        simp [worked_cons, worked_nil, perform_eq doc, written, always_cons, always_nil,
          doc.onlyTracee_iff child, doc.enabled_setEnable, doc.enabled_setPid, doc.traced_setPid,
          doc.traced_setEnable, told, switched, off, idle.nobody, nobody]
    · simp [worked_cons, worked_nil, others]

/-- What the calls behind the loop do to the module. -/
structure Closed (k : Driver σ) (pid : Pid) (m : System σ) (made : List (Call × SetAnswers)) :
    Prop where
  enabled : k.enabled (made.foldl (perform k) m).state = true ↔
    k.enabled m.state = true ∧ ¬ Worked (.ksightSetEnable false) made
  always : Always (perform k) (k.OnlyTracee pid) m made ↔ k.OnlyTracee pid m ∧
    (k.enabled m.state = true → Worked (.ksightSetTracedPid 0) made → Worked (.ksightSetEnable false) made)
  others : ¬ Worked (.ksightSetEnable true) made ∧ ¬ Worked (.ksightSetTracedPid pid) made

theorem nothing_closed (pid : Pid) (m : System σ) : Closed k pid m [] := by
  refine ⟨?_, ?_, worked_nil, worked_nil⟩
  · simp [worked_nil]
  · simp [worked_nil, always_nil]

theorem finishing_closed (doc : k.Documented) (calls : made.map Prod.fst = Parent.finishing o)
    (child : pid ≠ 0) : Closed k pid m made := by
  have others : pid ≠ 0#32 := child
  have nobody : (0 : Int) ≠ pid.toInt := fun same => child (BitVec.toInt_inj.mp same.symm)
  cases ksight : o.ksightOn with
  | false =>
    simp only [Parent.finishing, ksight, Bool.false_eq_true, if_false, List.nil_append,
      map_fst_cons, List.map_eq_nil_iff] at calls
    obtain ⟨a, _, rfl, b, _, rfl, rfl⟩ := calls
    refine ⟨?_, ?_, ?_⟩ <;>
      simp [worked_cons, worked_nil, perform_eq doc, always_cons, always_nil]
  | true =>
    simp only [Parent.finishing, ksight, if_true, List.cons_append, List.nil_append, map_fst_cons,
      List.map_eq_nil_iff] at calls
    obtain ⟨off, _, rfl, named, _, rfl, a, _, rfl, b, _, rfl, rfl⟩ := calls
    refine ⟨?_, ?_, ?_⟩
    · by_cases switched : off.Works 0#32 <;> by_cases told : named.Works 0#32 <;>
        simp [worked_cons, worked_nil, perform_eq doc, written, doc.enabled_setEnable,
          doc.enabled_setPid, told, switched]
    · by_cases switched : off.Works 0#32 <;> by_cases told : named.Works 0#32 <;>
        simp [worked_cons, worked_nil, perform_eq doc, written, always_cons, always_nil,
          doc.onlyTracee_iff child, doc.enabled_setEnable, doc.enabled_setPid, doc.traced_setPid,
          doc.traced_setEnable, told, switched, nobody]
    · simp [worked_cons, worked_nil, others]

end

/-- The calls of a run in three parts. -/
theorem soFar_parts {o : Options} {self pid : Pid} {fuel wstatus : Nat} {statuses : List Nat}
    {made : List (Call × SetAnswers)}
    (calls : made.map Prod.fst = soFar o self pid fuel wstatus statuses) :
    ∃ before between after, made = before ++ (between ++ after) ∧
      (before = [] ∨ before.map Prod.fst = Parent.starting o self pid) ∧
      (∀ c ∈ between.map Prod.fst, IsCallback c) ∧
      (after = [] ∨ after.map Prod.fst = Parent.finishing o) := by
  unfold soFar at calls
  generalize Parent.waitpid wstatus statuses = next at calls
  obtain ⟨w, rest⟩ := next
  obtain ⟨before, loop, rfl, starting, calls⟩ := List.map_eq_append_iff.mp calls
  have opening : before = [] ∨ before.map Prod.fst = Parent.starting o self pid := by
    split at starting
    · exact .inr starting
    · exact .inl (List.map_eq_nil_iff.mp starting)
  obtain ⟨between, plain, rest | rest⟩ := loopSoFar_shape o fuel w rest
  · rw [rest] at calls
    exact ⟨before, loop, [], by rw [List.append_nil], opening, calls ▸ plain, .inl rfl⟩
  · rw [rest] at calls
    obtain ⟨between', after, rfl, rfl, finishing⟩ := List.map_eq_append_iff.mp calls
    exact ⟨before, between', after, rfl, opening, plain, .inr finishing⟩

section
variable {σ : Type} {k : Driver σ}

theorem perform_held (doc : k.Documented) (m : System σ) (c : Call × SetAnswers) :
    (perform k m c).held = m.held := by
  obtain ⟨c, a⟩ := c
  rw [perform_eq doc]
  cases c with
  | ksightSetTracedPid pid =>
    dsimp only
    split <;> rfl
  | ksightSetEnable enable =>
    dsimp only
    split <;> split <;> rfl
  | initTrace | startTrace | detach | suspendCallback | resumeCallback | stopTrace | finiTrace => rfl

theorem foldl_held (doc : k.Documented) (m : System σ) (made : List (Call × SetAnswers)) :
    (made.foldl (perform k) m).held = m.held := by
  induction made generalizing m with
  | nil => rfl
  | cons c made ih => rw [List.foldl_cons, ih, perform_held doc]

/-- **Ksight records the tracee or nobody** at every moment of a run that starts with
the module idle exactly if, once it was switched on, it had been told the tracee, and
it is told to forget the tracee only after it was switched off. It is left on exactly
if it was switched on and not off. No descriptor is left open. This holds in every
round of the loop and for any wait statuses. -/
theorem records_only_tracee_iff (doc : k.Documented) (o : Options) (self pid : Pid) (child : pid ≠ 0)
    (fuel wstatus : Nat) (statuses : List Nat) (made : List (Call × SetAnswers))
    (calls : made.map Prod.fst = soFar o self pid fuel wstatus statuses) (m : System σ)
    (idle : k.Idle m) :
    (Always (perform k) (k.OnlyTracee pid) m made ↔
      (Worked (.ksightSetEnable true) made → Worked (.ksightSetTracedPid pid) made ∧
        (Worked (.ksightSetTracedPid 0) made → Worked (.ksightSetEnable false) made))) ∧
    (k.enabled (made.foldl (perform k) m).state = true ↔
      Worked (.ksightSetEnable true) made ∧ ¬ Worked (.ksightSetEnable false) made) ∧
    (made.foldl (perform k) m).held = m.held := by
  obtain ⟨before, between, after, rfl, opening, plain, closing⟩ := soFar_parts calls
  have opened : Opened k pid m before := by
    rcases opening with rfl | starting
    · exact nothing_opened doc child idle
    · exact starting_opened doc starting child idle
  have closed : Closed k pid (before.foldl (perform k) m) after := by
    rcases closing with rfl | finishing
    · exact nothing_closed pid _
    · exact finishing_closed doc finishing child
  have silent {c : Call} (other : ¬ IsCallback c) :
      Worked c (before ++ (between ++ after)) ↔ Worked c before ∨ Worked c after := by
    rw [worked_append, worked_append, or_iff_right (worked_plain plain other)]
  have idle := @perform_plain σ k between plain
  have here : Always (perform k) (k.OnlyTracee pid) m before →
      k.OnlyTracee pid (before.foldl (perform k) m) := by
    intro always
    have last := always before.length
    rwa [List.take_length] at last
  rw [opened.always] at here
  obtain ⟨noOff, noReset⟩ := opened.others
  obtain ⟨noOn, noName⟩ := closed.others
  have switching (on : Bool) := silent (not_callback_setEnable on)
  have naming (pid : Pid) := silent (not_callback_setTracedPid pid)
  refine ⟨?_, ?_, foldl_held doc _ _⟩
  · rw [always_append, always_append, always_idle idle, foldl_idle idle, closed.always,
      opened.enabled, opened.always, switching, switching, naming, naming]
    grind
  · rw [List.foldl_append, List.foldl_append, foldl_idle idle, closed.enabled, opened.enabled,
      switching, switching]
    grind

end

/-- A module whose attributes hold text. -/
def sysfs : Driver (List UInt8 → List UInt8) where
  write path text rc s := if rc = text.length then Function.update s path text else s
  enabled s := (number 10 (s enablePath)).any fun p => p.1 != 0
  tracedPid s := (number 10 (s tracedPidPath)).elim 0 Prod.fst
  records s p := ((number 10 (s enablePath)).any fun q => q.1 != 0) = true ∧
    ((number 10 (s tracedPidPath)).elim 0 Prod.fst = 0 ∨
      (number 10 (s tracedPidPath)).elim 0 Prod.fst = p)

theorem sysfs_documented : sysfs.Documented := by
  have read (n : BitVec 32) : number 10 (line n) = some (n.toInt, [10]) :=
    number_decimal n.toInt (by decide)
  have zero (n : BitVec 32) : (n.toInt != 0) = (n != 0) := by
    rw [Bool.eq_iff_iff, bne_iff_ne, bne_iff_ne, Ne, Ne, ← BitVec.toInt_inj]
    rfl
  have apart : tracedPidPath ≠ enablePath := by decide
  refine ⟨fun n s => ?_, fun n s => ?_, fun path n rc s short => if_neg short, fun _ _ => Iff.rfl⟩
  · simp [sysfs, Driver.set, read, Function.update_of_ne apart.symm]
  · simp [sysfs, Driver.set, read, Function.update_of_ne apart, zero]

/-- Attributes that hold 0. -/
def fresh : System (List UInt8 → List UInt8) := ⟨fun _ => [48, 10], ⟨[], []⟩⟩

/-- A file that takes `count` bytes. -/
def taken (count : Nat) : SetAnswers := ⟨some true, some 3, count⟩

/-- A whole session with ksight. -/
def tracedSession : List (Call × SetAnswers) :=
  [(.initTrace 7 42, taken 0), (.startTrace 42 true, taken 0), (.ksightSetTracedPid 42, taken 3),
    (.ksightSetEnable true, taken 2), (.detach 42, taken 0), (.ksightSetEnable false, taken 2),
    (.ksightSetTracedPid 0, taken 2), (.stopTrace true, taken 0), (.finiTrace, taken 0)]

theorem records_only_tracee_once :
    Always (perform sysfs) (sysfs.OnlyTracee 42) fresh tracedSession ∧
    sysfs.enabled (tracedSession.foldl (perform sysfs) fresh).state = false := by
  have calls : tracedSession.map Prod.fst =
      soFar ⟨false, true⟩ 7 42 1 0 [stopStatus sigtrap, exitStatus 0] := by decide
  obtain ⟨always, left, _⟩ := records_only_tracee_iff sysfs_documented ⟨false, true⟩ 7 42
    (by decide) 1 0 [stopStatus sigtrap, exitStatus 0] tracedSession calls fresh
    ⟨by decide, by decide⟩
  have named : Worked (.ksightSetTracedPid 42) tracedSession :=
    ⟨taken 3, by simp [tracedSession], by decide +kernel⟩
  have off : Worked (.ksightSetEnable false) tracedSession :=
    ⟨taken 2, by simp [tracedSession], by decide +kernel⟩
  refine ⟨always.mpr fun _ => ⟨named, fun _ => off⟩, ?_⟩
  rw [← Bool.not_eq_true, left]
  exact fun on => on.2 off

end KsightControl

end Ultrasight
