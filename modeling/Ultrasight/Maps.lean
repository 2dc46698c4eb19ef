import Mathlib.Data.List.Pairwise
import Ultrasight.Config
import Ultrasight.ProcMaps
import Ultrasight.Resources

/-!
# Extracting the mappings

`setup_map_info` reads `/proc/<pid>/maps` line by line into a table, and then
maps the files in the table.

* `parseMaps_eq`: of the text that the kernel writes, it takes the executable
  mappings with a slash in their pathname;
* `setup_map_info_iff`: when these are the executable mappings of files.
-/

namespace Ultrasight

open Fn Text Holdings

def pathMax : Nat := 4096

/-- `struct map_info`. The table is static, so that the last byte of a path is
zero. -/
structure MapEntry extends MapInfo where
  offset : BitVec 64
  buf : BitVec 64
  path : List UInt8
  deriving DecidableEq

/-- The variables that `sscanf` assigns. They are not reset between the lines. -/
structure Scanned where
  start : BitVec 64
  stop : BitVec 64
  offset : BitVec 64
  x : UInt8
  c : UInt8

/-! ## The code -/

def mapsPath (pid : Int) : List UInt8 := ascii "/proc/" ++ decimal pid ++ ascii "/maps"

/-- `"%lx-%lx %c%c%c%c %lx"`. -/
def mapsFormat : List (Conversion Scanned) :=
  [.hex fun n v => { v with start := n }, .literal 45, .hex fun n v => { v with stop := n }, .space,
    .char fun c v => { v with c := c }, .char fun c v => { v with c := c },
    .char fun c v => { v with x := c }, .char fun c v => { v with c := c },
    .space, .hex fun n v => { v with offset := n }]

def stripNewline (line : List UInt8) : List UInt8 :=
  if line.getLast? = some 10 then line.dropLast else line

/-- One round of the first loop of `setup_map_info`. -/
def readLine (infoCountMax : Nat) (s : Scanned × List MapEntry) (line : List UInt8) :
    Scanned × List MapEntry :=
  let text := cString (stripNewline line)
  let v := scanf mapsFormat text s.1
  let path := text.dropWhile (· != 47)
  if v.x ≠ 120 then (v, s.2)
  else if infoCountMax ≤ s.2.length then (v, s.2)
  else if path = [] then (v, s.2)
  else (v, s.2 ++ [⟨⟨v.start, v.stop⟩, v.offset, 0, path.take (pathMax - 1)⟩])

/-- The table after the first loop; the variables start with any values. -/
def parseMaps (infoCountMax : Nat) (init : Scanned) (text : List UInt8) : List MapEntry :=
  ((delimited 10 text).foldl (readLine infoCountMax) (init, [])).2

/-- What the process holds, and the part of the table that is filled. -/
structure Extraction where
  holds : Holdings (List UInt8)
  table : List MapEntry

def onHolds {α : Type} (x : Fn (Holdings (List UInt8)) α) : Fn Extraction α :=
  zoom Extraction.holds (fun h s => { s with holds := h }) x

/-- How `open` and `mmap` answer for each entry of the table. -/
structure FileAnswers where
  opened : Nat → Option Nat
  placed : Nat → (size : BitVec 64) → Option (Placement size.toNat)

/-- `buf_size`. -/
def MapEntry.bufSize (m : MapEntry) : BitVec 64 := alignUp (m.stop - m.start) 0x1000

/-- One round of the second loop of `setup_map_info`. `open` is checked for
values below -1, and `mmap` for a null pointer. -/
def mapEntry (answers : FileAnswers) (i : Nat) : Fn Extraction Unit := do
  let s ← get
  match s.table[i]? with
  | none => crash
  | some entry =>
    let fd ← onHolds (openFile entry.path (answers.opened i))
    require (-1 ≤ fd) (-1)
    let buf ← onHolds (mapFile entry.bufSize fd entry.offset (answers.placed i entry.bufSize))
    when (buf == 0) do
      onHolds (closeFile fd)
      ret (-1)
    modify fun s => { s with table := s.table.set i { entry with buf := buf } }
    onHolds (closeFile fd)

def setupMapInfo (files : Files) (answers : FileAnswers) (init : Scanned) (pid : Int)
    (infoCountMax : Nat) : Fn Extraction Int := enclose do
  let text ← given (files (mapsPath pid)) (-1)
  let table := parseMaps infoCountMax init text
  modify fun s => { s with table := table }
  each (List.range table.length) (mapEntry answers)
  pure table.length

/-! ## The second loop -/

/-- What `open` and `mmap` make of an entry. -/
def FileAnswers.mapping (answers : FileAnswers) (i : Nat) (entry : MapEntry) :
    Option (Mapping (List UInt8)) :=
  if (answers.opened i).isSome then
    (answers.placed i entry.bufSize).map fun p =>
      ⟨p.addr, entry.bufSize, some (entry.path, entry.offset)⟩
  else none

/-- The entry behind the loop. -/
def FileAnswers.finish (answers : FileAnswers) (i : Nat) (entry : MapEntry) : MapEntry :=
  { entry with buf := (answers.mapping i entry).elim mapFailed Mapping.addr }

/-- The round for an entry never fails. -/
theorem mapEntry_spec (answers : FileAnswers) {i : Nat} {entry : MapEntry} {s : Extraction}
    (there : s.table[i]? = some entry) :
    Ensures (mapEntry answers i)
      (fun _ s' => s'.table = s.table.set i (answers.finish i entry) ∧
        s'.holds = { s.holds with maps := (answers.mapping i entry).toList ++ s.holds.maps })
      (fun _ _ => False) s := by
  have failed : ¬mapFailed = 0#64 := by decide
  simp only [mapEntry, ensures_bind, ensures_get, there, onHolds, ensures_zoom, ensures_require,
    ensures_when, ensures_modify, FileAnswers.finish, FileAnswers.mapping]
  cases opened : answers.opened i with
  | none => simp [failed]
  | some fd =>
    have valid : (-1 : Int) ≤ fd := by omega
    cases placed : answers.placed i entry.bufSize with
    | none => simp [failed, valid]
    | some p =>
      have nonnull : ¬p.addr = 0#64 := p.nonnull
      simp [ensures_mapFile_some fileOf_opened p, nonnull, valid, map]

/-- Every entry is finished, and the files that could be mapped are. -/
def Finished (answers : FileAnswers) (table : List MapEntry) (before after : Extraction) : Prop :=
  after.table = table.mapIdx answers.finish ∧
  after.holds.fds = before.holds.fds ∧
  ∃ created, after.holds.maps = created ++ before.holds.maps ∧
    ∀ m, m ∈ created ↔ ∃ i entry, table[i]? = some entry ∧ answers.mapping i entry = some m

/-- The same for some of the entries. -/
def FinishedIn (answers : FileAnswers) (before : Extraction) (done : List Nat)
    (after : Extraction) : Prop :=
  (∀ i : Nat, after.table[i]? = before.table[i]?.map fun entry =>
    if i ∈ done then answers.finish i entry else entry) ∧
  after.holds.fds = before.holds.fds ∧
  ∃ created, after.holds.maps = created ++ before.holds.maps ∧
    ∀ m, m ∈ created ↔ ∃ i ∈ done, ∃ entry, before.table[i]? = some entry ∧
      answers.mapping i entry = some m

theorem FinishedIn.round {answers : FileAnswers} {s s' : Extraction} {done : List Nat} {j : Nat}
    (processed : j < s.table.length) (h : FinishedIn answers s done s') :
    Ensures (mapEntry answers j) (fun _ => FinishedIn answers s (done ++ [j]))
      (fun _ _ => False) s' := by
  obtain ⟨entries, fds, created, maps, which⟩ := h
  have there := entries j
  rw [List.getElem?_eq_getElem processed, Option.map_some] at there
  apply (mapEntry_spec answers there).mono _ (fun _ _ never => never)
  rintro _ s'' ⟨finished, mapped⟩
  -- An entry that is met again is finished as before.
  have again (b : Prop) [Decidable b] (entry : MapEntry) :
      answers.finish j (if b then answers.finish j entry else entry) = answers.finish j entry ∧
      answers.mapping j (if b then answers.finish j entry else entry) =
        answers.mapping j entry := by
    split <;> exact ⟨rfl, rfl⟩
  rw [(again _ _).1] at finished
  rw [(again _ _).2] at mapped
  refine ⟨?_, by rw [mapped]; exact fds,
    (answers.mapping j s.table[j]).toList ++ created, ?_, ?_⟩
  · intro i
    have length : j < s'.table.length := (List.getElem?_eq_some_iff.mp there).1
    rw [finished, List.getElem?_set]
    by_cases same : j = i
    · subst same
      simp [length, processed]
    · rw [if_neg same, entries i]
      simp [Ne.symm same]
  · rw [mapped, maps, List.append_assoc]
  · intro m
    simp only [List.mem_append, Option.mem_toList, which, List.mem_singleton]
    constructor
    · rintro (new | ⟨i, hi, entry, found, mapping⟩)
      · exact ⟨j, .inr rfl, s.table[j], List.getElem?_eq_getElem processed, new⟩
      · exact ⟨i, .inl hi, entry, found, mapping⟩
    · rintro ⟨i, hi | rfl, entry, found, mapping⟩
      · exact .inr ⟨i, hi, entry, found, mapping⟩
      · rw [List.getElem?_eq_getElem processed] at found
        obtain rfl := Option.some.inj found
        exact .inl mapping

theorem mapEntries_spec (answers : FileAnswers) (s : Extraction) :
    Ensures (each (List.range s.table.length) (mapEntry answers))
      (fun _ s' => Finished answers s.table s s') (fun _ _ => False) s := by
  have loop : Ensures (each (List.range s.table.length) (mapEntry answers))
      (fun _ => FinishedIn answers s (List.range s.table.length)) (fun _ _ => False) s := by
    apply ensures_each (FinishedIn answers s)
    · intro done j rest split s' h
      exact h.round (List.mem_range.mp (by simp [split]))
    · exact ⟨fun i => by simp, rfl, [], rfl, by simp⟩
  apply loop.mono _ (fun _ _ never => never)
  rintro _ s' ⟨entries, fds, created, maps, which⟩
  have inside {i : Nat} {entry : MapEntry} (h : s.table[i]? = some entry) :
      i ∈ List.range s.table.length :=
    List.mem_range.mpr (List.getElem?_eq_some_iff.mp h).1
  refine ⟨?_, fds, created, maps, ?_⟩
  · apply List.ext_getElem?
    intro i
    rw [entries i, List.getElem?_mapIdx]
    cases h : s.table[i]? with
    | none => rfl
    | some entry => simp [List.mem_range.mp (inside h)]
  · intro m
    rw [which]
    constructor
    · rintro ⟨i, -, entry, found, mapping⟩
      exact ⟨i, entry, found, mapping⟩
    · rintro ⟨i, entry, found, mapping⟩
      exact ⟨i, inside found, entry, found, mapping⟩

theorem setupMapInfo_spec {files : Files} {answers : FileAnswers} {init : Scanned} {pid : Int}
    {infoCountMax : Nat} {s : Extraction} {text : List UInt8}
    (file : files (mapsPath pid) = some text) :
    Ensures (setupMapInfo files answers init pid infoCountMax)
      (fun rc s' => rc = (parseMaps infoCountMax init text).length ∧
        Finished answers (parseMaps infoCountMax init text) s s')
      (fun _ _ => False) s := by
  simp only [setupMapInfo, ensures_enclose, ensures_bind, ensures_given, file, Option.some.injEq,
    forall_eq', ensures_modify, ensures_pure, reduceCtorEq, false_implies, and_true]
  generalize parseMaps infoCountMax init text = table
  apply (mapEntries_spec answers { s with table := table }).mono
  · intro _ s' finished
    exact ⟨trivial, finished⟩
  · exact fun _ _ never => False.elim never

/-! ## The first loop -/

namespace Vma

/-- What the first loop looks for: an executable mapping with a slash in its
pathname. -/
def accepted (v : Vma) : Bool := v.executable && v.pathname.slashed != []

def extracted (v : Vma) : MapEntry :=
  ⟨⟨v.start, v.stop⟩, v.offset, 0, v.pathname.slashed.take (pathMax - 1)⟩

end Vma

section
variable (v : Vma)

theorem line_rest : ∃ rest, ends rest = true ∧
    v.line = Vma.hex 8 v.start.toNat ++ 45 :: (Vma.hex 8 v.stop.toNat ++
      32 :: (if v.readable then 114 else 45) :: (if v.writable then 119 else 45) ::
      v.executableFlag :: (if v.shared then 115 else 112) ::
      32 :: (Vma.hex 8 v.offset.toNat ++ rest)) := by
  rw [Vma.line]
  split
  · refine ⟨_, ?_, rfl⟩
    rfl
  · simp only [Vma.header, Vma.numbers, List.append_assoc, List.cons_append]
    refine ⟨_, ?_, rfl⟩
    rfl

theorem scanf_line (init : Scanned) :
    ∃ c, scanf mapsFormat v.line init = ⟨v.start, v.stop, v.offset, v.executableFlag, c⟩ := by
  obtain ⟨rest, stop, line⟩ := line_rest v
  have offset := hex_numeral 8 v.offset.toNat
  have blank (c : UInt8) (s : List UInt8) (h : isSpace c = false) :
      (32 :: c :: s).dropWhile isSpace = c :: s := by
    rw [List.dropWhile_cons_of_pos rfl, List.dropWhile_cons_of_neg (by simp [h])]
  refine ⟨if v.shared then 115 else 112, ?_⟩
  rw [line, mapsFormat, scanf_hex (hex_numeral 8 v.start.toNat) rfl, scanf_literal,
    scanf_hex (hex_numeral 8 v.stop.toNat) rfl, scanf_space, blank _ _ (by split <;> rfl),
    scanf_char, scanf_char, scanf_char, scanf_char, scanf_space]
  have column : (32 :: (Vma.hex 8 v.offset.toNat ++ rest)).dropWhile isSpace =
      Vma.hex 8 v.offset.toNat ++ rest := by
    simpa [isSpace, List.dropWhile_cons] using (offset.bare stop).1
  rw [column, scanf_hex offset stop]
  rfl

/-- One line of the kernel. -/
theorem readLine_line (infoCountMax : Nat) (s : Scanned × List MapEntry) :
    (readLine infoCountMax s (v.line ++ [10])).2 =
      if v.accepted ∧ s.2.length < infoCountMax then s.2 ++ [v.extracted] else s.2 := by
  have stripped : stripNewline (v.line ++ [10]) = v.line := by simp [stripNewline]
  obtain ⟨c, scanned⟩ := scanf_line v s.1
  simp only [readLine, stripped, cString_eq (line_plain v).1, scanned, line_path]
  by_cases executable : v.executable = true
  · by_cases full : infoCountMax ≤ s.2.length
    · simp [Vma.executableFlag, executable, full, Nat.not_lt.mpr full]
    · by_cases plain : v.pathname.slashed = []
      · simp [Vma.executableFlag, executable, full, Vma.accepted, plain]
      · simp [Vma.executableFlag, executable, full, Vma.accepted, plain, Vma.extracted,
          Nat.lt_of_not_le full]
  · simp [Vma.executableFlag, executable, Vma.accepted]

end

theorem readLines_eq (infoCountMax : Nat) (mappings : List Vma) (s : Scanned × List MapEntry) :
    (((mappings.map Vma.line).map (· ++ [10])).foldl (readLine infoCountMax) s).2 =
      s.2 ++ ((mappings.filter Vma.accepted).take (infoCountMax - s.2.length)).map
        Vma.extracted := by
  induction mappings generalizing s with
  | nil => simp
  | cons v mappings ih =>
    rw [List.map_cons, List.map_cons, List.foldl_cons, ih, readLine_line]
    by_cases taken : v.accepted = true
    · by_cases room : s.2.length < infoCountMax
      · obtain ⟨k, left⟩ : ∃ k, infoCountMax - s.2.length = k + 1 :=
          ⟨infoCountMax - s.2.length - 1, by omega⟩
        have less : infoCountMax - (s.2.length + 1) = k := by omega
        simp [taken, room, left, less]
      · simp [room, Nat.sub_eq_zero_of_le (Nat.le_of_not_lt room)]
    · simp [taken]

/-- The table holds the first mappings that are accepted. -/
theorem parseMaps_eq (infoCountMax : Nat) (init : Scanned) (mappings : List Vma) :
    parseMaps infoCountMax init (procMaps mappings) =
      ((mappings.filter Vma.accepted).take infoCountMax).map Vma.extracted := by
  have plain : ∀ t ∈ mappings.map Vma.line, 10 ∉ t := by
    intro t ht
    obtain ⟨v, _, rfl⟩ := List.mem_map.mp ht
    exact (line_plain v).2
  have lines : delimited 10 (procMaps mappings) = (mappings.map Vma.line).map (· ++ [10]) := by
    rw [← delimited_flatMap plain, procMaps, List.flatMap_map]
  rw [parseMaps, lines, readLines_eq]
  simp

/-! ## What is asked of the extraction -/

/-- A mapping that is to be traced: code of a file. -/
def Vma.wanted (v : Vma) : Bool := v.executable && v.pathname.isFile

def Vma.described (v : Vma) : MapEntry :=
  ⟨⟨v.start, v.stop⟩, v.offset, 0, v.pathname.path.take (pathMax - 1)⟩

/-- The first mappings that are wanted, and their number; the buffers apart. -/
def Exact (mappings : List Vma) (infoCountMax : Nat) (rc : Int) (table : List MapEntry) : Prop :=
  rc = min infoCountMax (mappings.filter Vma.wanted).length ∧
  table.map (fun entry => { entry with buf := 0 }) =
    ((mappings.filter Vma.wanted).take infoCountMax).map Vma.described

/-- The path of a file, without a newline in the part that is kept. -/
def Pathname.Verbatim (p : Pathname) : Prop := p.isFile = true ∧ 10 ∉ p.path.take (pathMax - 1)

theorem take_filter_of_all {α : Type} {p : α → Bool} {l : List α} {n : Nat}
    (all : ∀ a ∈ l.take n, p a = true) : (l.filter p).take n = l.take n := by
  induction l generalizing n with
  | nil => rfl
  | cons a l ih =>
    cases n with
    | zero => rfl
    | succ n =>
      have first := all a (by simp)
      have later := ih (n := n) fun b hb => all b (by simp [hb])
      rw [List.filter_cons_of_pos first, List.take_succ_cons, List.take_succ_cons, later]

theorem wanted_eq (mappings : List Vma) :
    mappings.filter Vma.wanted = (mappings.filter Vma.accepted).filter (·.pathname.isFile) := by
  rw [List.filter_filter]
  congr 1
  ext v
  cases file : v.pathname.isFile with
  | false => simp [Vma.wanted, file]
  | true => simp [Vma.wanted, Vma.accepted, file, (slashed_file file).2]

section
variable {files : Files} {answers : FileAnswers} {init : Scanned} {pid : Int} {infoCountMax : Nat}
  {s : Extraction} {mappings : List Vma}

/-- The extraction is exact if and only if the mappings it accepts look like the
ones that are wanted. -/
theorem exact_iff (file : files (mapsPath pid) = some (procMaps mappings)) :
    Ensures (setupMapInfo files answers init pid infoCountMax)
      (fun rc s' => Exact mappings infoCountMax rc s'.table) (fun _ _ => False) s ↔
    ((mappings.filter Vma.accepted).take infoCountMax).map Vma.extracted =
      ((mappings.filter Vma.wanted).take infoCountMax).map Vma.described := by
  apply (setupMapInfo_spec file).decided
  rintro rc s' ⟨rfl, finished, _⟩
  rw [parseMaps_eq] at finished ⊢
  have table : s'.table.map (fun entry => { entry with buf := 0 }) =
      ((mappings.filter Vma.accepted).take infoCountMax).map Vma.extracted := by
    apply List.ext_getElem?
    intro i
    rw [finished, List.getElem?_map, List.getElem?_mapIdx, List.getElem?_map]
    cases ((mappings.filter Vma.accepted).take infoCountMax)[i]? <;> rfl
  rw [Exact, table]
  constructor
  · exact And.right
  · intro same
    have length := congrArg List.length same
    simp only [List.length_map, List.length_take] at length ⊢
    exact ⟨by omega, same⟩

theorem extracted_eq {v : Vma} (verbatim : v.pathname.Verbatim) : v.extracted = v.described := by
  rw [Vma.extracted, Vma.described, (slashed_file verbatim.1).1, escape_take verbatim.2]

/-- The extraction is exact if the mappings it takes are files, with no newline in
the part of the path that is kept; and only then, if no two mappings start at one
address. -/
theorem setup_map_info_iff (file : files (mapsPath pid) = some (procMaps mappings)) :
    ((∀ v ∈ (mappings.filter Vma.accepted).take infoCountMax, v.pathname.Verbatim) →
      Ensures (setupMapInfo files answers init pid infoCountMax)
        (fun rc s' => Exact mappings infoCountMax rc s'.table) (fun _ _ => False) s) ∧
    (mappings.Pairwise (fun v w => v.start ≠ w.start) →
      Ensures (setupMapInfo files answers init pid infoCountMax)
        (fun rc s' => Exact mappings infoCountMax rc s'.table) (fun _ _ => False) s →
      ∀ v ∈ (mappings.filter Vma.accepted).take infoCountMax, v.pathname.Verbatim) := by
  rw [exact_iff file]
  constructor
  · intro verbatim
    rw [wanted_eq, take_filter_of_all fun v hv => (verbatim v hv).1]
    exact List.map_congr_left fun v hv => extracted_eq (verbatim v hv)
  · intro distinct same v hv
    have symmetric : Std.Symm fun v w : Vma => v.start ≠ w.start := ⟨fun _ _ => Ne.symm⟩
    have entry := List.mem_map_of_mem (f := Vma.extracted) hv
    rw [same] at entry
    obtain ⟨w, hw, described⟩ := List.mem_map.mp entry
    have start : w.start = v.start := congrArg (fun e : MapEntry => e.start) described
    have wanted := List.mem_filter.mp (List.mem_of_mem_take hw)
    have member : v ∈ mappings := (List.mem_filter.mp (List.mem_of_mem_take hv)).1
    obtain rfl : w = v := by
      by_contra different
      exact distinct.forall wanted.1 member different start
    have isFile : w.pathname.isFile = true := (Bool.and_eq_true_iff.mp wanted.2).2
    have path := congrArg MapEntry.path described
    simp only [Vma.described, Vma.extracted, (slashed_file isFile).1] at path
    refine ⟨isFile, ?_⟩
    rw [path]
    intro newline
    cases name : w.pathname with
    | anonymous => simp [name, Pathname.isFile] at isFile
    | pseudo => simp [name, Pathname.isFile] at isFile
    | file p absolute string =>
      rw [name] at newline
      exact (escape_plain string).2 (List.mem_of_mem_take newline)

end

/-! ## A bracketed name with a slash -/

/-- A kernel that opens and maps everything of a reasonable size. -/
def roomy : FileAnswers where
  opened _ := some 3
  placed _ size :=
    if h : 0 < size.toNat ∧ size.toNat < 2 ^ 47 then
      some ⟨0x7f0000000000, by decide, by decide, by
        have : (0x7f0000000000 : BitVec 64).toNat = 0x7f0000000000 := rfl
        omega, h.1⟩
    else none

def codeAt (start : BitVec 64) (pathname : Pathname) : Vma :=
  ⟨start, start + 0x1000, true, false, true, false, 0, 8, 2, 1234, pathname⟩

/-- A mapping with no file behind it. -/
def unbacked (v : Vma) : Vma := { v with major := 0, minor := 0, inode := 0 }

def unset : Scanned := ⟨0, 0, 0, 0, 0⟩

def emptyTable : Extraction := ⟨⟨[], []⟩, []⟩

def catCode : List Vma :=
  [codeAt 0x400000 (.file (ascii "/bin/cat") rfl (by decide)),
    unbacked (codeAt 0x7fff0000 (.pseudo (ascii "vdso") (List.all_eq_true.mp rfl)))]

theorem cat_extracted :
    Ensures (setupMapInfo (fun _ => some (procMaps catCode)) roomy unset 1 1)
      (fun rc s' => Exact catCode 1 rc s'.table) (fun _ _ => False) emptyTable := by
  apply (setup_map_info_iff rfl).1
  intro v hv
  have only : (catCode.filter Vma.accepted).take 1 = [catCode[0]] := by rfl
  rw [only] at hv
  obtain rfl := List.mem_singleton.mp hv
  exact ⟨rfl, by decide⟩

/-- A bracketed name with a slash is taken for the path that starts there. -/
theorem anonymous_name_extracted :
    let mappings :=
      [unbacked (codeAt 0x400000 (.pseudo (ascii "anon:a/b") (List.all_eq_true.mp rfl)))]
    parseMaps 1 unset (procMaps mappings) = [⟨⟨0x400000, 0x401000⟩, 0, 0, ascii "/b]"⟩] ∧
    mappings.filter Vma.wanted = [] ∧
    ¬Ensures (setupMapInfo (fun _ => some (procMaps mappings)) roomy unset 1 1)
      (fun rc s' => Exact mappings 1 rc s'.table) (fun _ _ => False) emptyTable := by
  refine ⟨by rw [parseMaps_eq]; rfl, rfl, ?_⟩
  rw [exact_iff rfl]
  decide

end Ultrasight
