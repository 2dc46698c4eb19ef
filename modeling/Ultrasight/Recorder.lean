import Ultrasight.RingMemory
import Ultrasight.Teardown
import Ultrasight.TraceBuffer

/-!
# What is recorded

The handshake with the bytes: the tracee writes into the ring of the ETR, a fetch
appends what the ring gives back to the trace buffer, and the parent exports it.
A fetch is one step here, since it is made with `trace_mutex` held.

* `Tape`: the ring, the buffer and the file, with a record of what went where;
* `record`: the steps of the handshake, each with what it does to the bytes. What
  the ETR counts and delivers at a fetch is an input;
* `recorded_in_order`: in every run in which it delivers what the ring gives back,
  the file is made of consecutive pieces of what the tracee wrote, each cut down to
  what the ring could hold.
-/

namespace Ultrasight.Handshake

open Threads Chunks TraceBuffer

variable {r : Ring}

/-- `produced` is what the tracee wrote and `collected` what of it went into the
ring: `segments` until the fetches that emptied it, then `current`. -/
structure Tape (r : Ring) where
  ring : r.Memory UInt8
  traceBuf : Buf
  file : Option (List UInt8)
  produced : List UInt8
  collected : List UInt8
  segments : List (List UInt8)
  current : List UInt8

namespace Tape

/-- The tracee writes; without a sink that collects, the bytes are lost. -/
def write (collecting : Bool) (bytes : List UInt8) (t : Tape r) : Tape r :=
  if collecting then
    { t with
      ring := t.ring.putAll bytes
      produced := t.produced ++ bytes
      collected := t.collected ++ bytes
      current := t.current ++ bytes }
  else { t with produced := t.produced ++ bytes }

/-- `fetch_trace` with the answers `f`, where it returns. -/
def fetch (f : Fetch) (t : Tape r) : Outcome × Tape r :=
  match fetchTrace f t.traceBuf with
  | .ok (ret, b) =>
    if ret < 0 then (.fail, { t with traceBuf := b })
    else (.ok, { t with
      ring := t.ring.empty
      traceBuf := b
      segments := t.segments ++ [t.current]
      current := [] })
  | .error _ => (.fail, t)

def exportFile (t : Tape r) : Tape r := { t with file := some (exportTrace t.traceBuf) }

end Tape

/-- The actions of the handshake with their bytes. -/
inductive Input where
  | parent (outcome : Outcome)
  | fetcher (outcome : Outcome) (f : Fetch)
  | write (bytes : List UInt8)
  | exit (status : Nat)
  | takeStop
  | sigstop
  | sigcont
  | wake (thread : Thread)

/-- The fetcher is about to call `fetch_trace`, in a cycle or for the last time. -/
def fetching (w : System r) : Bool :=
  w.ctl .fetcher == .run (.work .fetch .body : FetcherPc) ||
    w.ctl .fetcher == .run (.work .lastFetch .body : FetcherPc)

/-- Whether a fetch succeeds is up to the buffer. -/
def Input.action (x : System r × Tape r) : Input → Action
  | .parent o => .parent o
  | .fetcher o f => .fetcher (if fetching x.1 then (x.2.fetch f).1 else o)
  | .write bytes => .write bytes.length
  | .exit status => .exit status
  | .takeStop => .takeStop
  | .sigstop => .sigstop
  | .sigcont => .sigcont
  | .wake t => .wake t

/-- What happens to the bytes. What is in the ring when CSAL is shut down is not
read any more. -/
def Tape.follow (w : System r) (t : Tape r) : Input → Tape r
  | .parent _ => if w.ctl .parent = .run (.exportTrace : ParentPc) then t.exportFile else t
  | .fetcher _ f => if fetching w then (t.fetch f).2 else t
  | .write bytes => t.write w.mem.collecting bytes
  | .exit _ | .takeStop | .sigstop | .sigcont | .wake _ => t

/-- A fetch that stores outside the trace buffer: the process dies of it. -/
def Input.faults (x : System r × Tape r) : Input → Bool
  | .fetcher _ f => fetching x.1 && !(fetchTrace f x.2.traceBuf).isOk
  | .parent _ | .write _ | .exit _ | .takeStop | .sigstop | .sigcont | .wake _ => false

def record (fetchThreshold : BitVec 64) (x : System r × Tape r) (i : Input) :
    Option (System r × Tape r) :=
  if i.faults x then none
  else (step fetchThreshold x.1 (i.action x)).map fun w => (w, x.2.follow x.1 i)

/-- At a fetch, `cs_get_buffer_unread_bytes` counts and `cs_get_trace_data`
delivers what the ring gives back. -/
def delivers (x : System r × Tape r) : Input → Bool
  | .fetcher _ f => !fetching x.1 || f.data == x.2.ring.readBack &&
      f.len == x.2.ring.readBack.length && f.n == x.2.ring.readBack.length
  | .parent _ | .write _ | .exit _ | .takeStop | .sigstop | .sigcont | .wake _ => true

/-- The trace buffer is `b`, and the cells of the ring hold anything. -/
def blank (cells : r.Memory UInt8) (b : Buf) : Tape r where
  ring := cells.empty
  traceBuf := b
  file := none
  produced := []
  collected := []
  segments := []
  current := []

/-- A step with bytes is a step of the handshake. -/
theorem record_step {threshold : BitVec 64} {x x' : System r × Tape r} {i : Input}
    (h : record threshold x i = some x') :
    step threshold x.1 (i.action x) = some x'.1 ∧ x'.2 = x.2.follow x.1 i := by
  unfold record at h
  split at h
  · cases h
  · obtain ⟨w', step, rfl⟩ := Option.map_eq_some_iff.mp h
    exact ⟨step, rfl⟩

/-- A run with bytes is a run of the handshake. -/
theorem record_reach {threshold : BitVec 64} {ok : System r → Action → Bool} {w₀ : System r}
    {t₀ : Tape r} {x : System r × Tape r}
    (h : Reach (record threshold) (fun x i => ok x.1 (i.action x) && delivers x i) (w₀, t₀) x) :
    Reach (step threshold) ok w₀ x.1 := by
  induction h with
  | start => exact .start
  | next _ allowed moved ih =>
    exact .next ih (Bool.and_eq_true_iff.mp allowed).1 (record_step moved).1

/-- What of a segment the ring can give back. -/
def kept (r : Ring) (segments : List (List UInt8)) : List (List UInt8) :=
  segments.map fun s => s.rtake r.size

/-! ## The bytes -/

/-- The records say what is in the ring and in the buffer. -/
structure Tape.Good (t : Tape r) : Prop where
  ring : t.ring.Holds t.current
  buffer : Lays t.traceBuf (kept r t.segments)
  collected : t.collected = t.segments.flatten ++ t.current

theorem blank_good (cells : r.Memory UInt8) {b : Buf} (empty : b.Holds []) :
    (blank cells b).Good :=
  ⟨cells.holds_empty, .inl empty, rfl⟩

theorem Tape.Good.write {t : Tape r} (h : t.Good) (collecting : Bool) (bytes : List UInt8) :
    (t.write collecting bytes).Good := by
  cases collecting with
  | false => exact ⟨h.ring, h.buffer, h.collected⟩
  | true =>
    refine ⟨h.ring.putAll bytes, h.buffer, ?_⟩
    show t.collected ++ bytes = t.segments.flatten ++ (t.current ++ bytes)
    rw [h.collected, List.append_assoc]

theorem Tape.write_same (t : Tape r) (collecting : Bool) (bytes : List UInt8) :
    (t.write collecting bytes).file = t.file ∧
      (t.write collecting bytes).traceBuf = t.traceBuf := by
  cases collecting <;> exact ⟨rfl, rfl⟩

/-- The answers `f` of the ETR are what the ring gives back. -/
structure Tape.Delivers (t : Tape r) (f : Fetch) : Prop where
  data : f.data = t.ring.readBack
  len : f.len = t.ring.readBack.length
  n : f.n = t.ring.readBack.length

theorem delivers_fetch {x : System r × Tape r} {o : Outcome} {f : Fetch}
    (h : delivers x (.fetcher o f) = true) (now : fetching x.1 = true) : x.2.Delivers f := by
  simp only [delivers, now, Bool.not_true, Bool.false_or, Bool.and_eq_true, beq_iff_eq] at h
  exact ⟨h.1.1, h.1.2, h.2⟩

/-- The count of `cs_get_buffer_unread_bytes` is an `int`. -/
theorem Tape.Delivers.honest {t : Tape r} {f : Fetch} (h : t.Delivers f) (good : t.Good)
    (small : r.size < 2 ^ 31) : f.Honest := by
  have back := Ring.Memory.readBack_holds good.ring
  have short : t.ring.readBack.length ≤ r.size := by
    rw [back, List.rtake.eq_1, List.length_drop]
    omega
  have len := h.len
  exact ⟨by rw [h.n, h.data], Int.le_of_eq (by rw [h.len, h.data]), by omega⟩

/-- What a fetch does: one that succeeds takes all of the ring, one that fails
takes nothing. -/
inductive Tape.Fetched (t : Tape r) : Outcome → Tape r → Prop
  | ok (b : Buf) (holds : b.Holds (layout 8 0 (kept r (t.segments ++ [t.current])))) :
    Fetched t .ok { t with
      ring := t.ring.empty
      traceBuf := b
      segments := t.segments ++ [t.current]
      current := [] }
  | fail (b : Buf) (lays : Lays b (kept r t.segments)) : Fetched t .fail { t with traceBuf := b }

theorem Tape.Good.fetched {t : Tape r} (h : t.Good) (small : r.size < 2 ^ 31) {f : Fetch}
    (delivers : t.Delivers f) : t.Fetched (t.fetch f).1 (t.fetch f).2 := by
  have back : f.data = t.current.rtake r.size :=
    delivers.data.trans (Ring.Memory.readBack_holds h.ring)
  rcases lays_fetch (delivers.honest h small) h.buffer with ⟨b, done, lays⟩ | ⟨b, done, holds⟩
  · simp only [Tape.fetch, done]
    exact .fail b lays
  · simp only [Tape.fetch, done]
    refine .ok b ?_
    rw [kept, List.map_append, List.map_singleton, ← back]
    exact holds

theorem Tape.Fetched.good {t t' : Tape r} {o : Outcome} (h : t.Good) (fetched : t.Fetched o t') :
    t'.Good := by
  cases fetched with
  | ok b holds =>
    refine ⟨t.ring.holds_empty, .inl holds, ?_⟩
    show t.collected = (t.segments ++ [t.current]).flatten ++ []
    rw [h.collected]
    simp
  | fail b lays => exact ⟨h.ring, lays, h.collected⟩

theorem Tape.Fetched.file {t t' : Tape r} {o : Outcome} (fetched : t.Fetched o t') :
    t'.file = t.file := by
  cases fetched <;> rfl

/-! ## The bytes and the handshake -/

/-- The ring of the handshake is the one with the bytes, and the file is written
when no fetch can follow. -/
structure Taping (x : System r × Tape r) : Prop where
  good : x.2.Good
  etr : (view x.1).parent = .done ∨ x.1.mem.etr = x.2.ring.toWriter
  file : ∀ bytes, x.2.file = some bytes →
    (view x.1).fetcher = .returned ∧ bytes = exportTrace x.2.traceBuf

theorem ParentMove.etr {o : Outcome} {m m' : Mem r} {p q : ParentPc}
    (h : ParentMove o m p m' q) : p ≠ .done ∧ (m'.etr = m.etr ∨ q = .done) := by
  cases h with
  | enableBody => cases o <;> exact ⟨by simp, .inl rfl⟩
  | disableBody => cases o <;> exact ⟨by simp, .inl rfl⟩
  | detach => exact ⟨by simp, .inl (detach_log m).etr⟩
  | waitpid m' reported => exact ⟨by simp, .inl (waitpid_log reported).etr⟩
  | cleanUp => exact ⟨by simp, .inr rfl⟩
  | _ => exact ⟨by simp, .inl rfl⟩

theorem FetcherMove.etr {threshold : BitVec 64} {o : Outcome} {m m' : Mem r} {p q : FetcherPc}
    (h : FetcherMove threshold o m p m' q) :
    p ≠ .returned ∧ (m'.etr = m.etr ∨ p = .work .fetch .body ∨ p = .work .lastFetch .body) := by
  cases h with
  | workBody task =>
    cases task with
    | fetch => exact ⟨by simp, .inr (.inl rfl)⟩
    | lastFetch => exact ⟨by simp, .inr (.inr rfl)⟩
    | disable | enable => cases o <;> exact ⟨by simp, .inl rfl⟩
  | stop => exact ⟨by simp, .inl (sigstop_log .fetcher (m.log (.kill sigstop .ok))).etr⟩
  | cont => exact ⟨by simp, .inl (sigcont_log (m.log (.kill sigcont .ok))).etr⟩
  | _ => exact ⟨by simp, .inl rfl⟩

/-- A step beside the ring, the buffer and the points of the threads. -/
theorem Taping.aside {x : System r × Tape r} (h : Taping x) {w' : System r}
    (etr : w'.mem.etr = x.1.mem.etr) (parent : (view w').parent = (view x.1).parent)
    (fetcher : (view w').fetcher = (view x.1).fetcher) : Taping (w', x.2) := by
  refine ⟨h.good, ?_, ?_⟩
  · show (view w').parent = .done ∨ w'.mem.etr = _
    rw [parent, etr]
    exact h.etr
  · show ∀ bytes, _ → (view w').fetcher = .returned ∧ _
    rw [fetcher]
    exact h.file

theorem taping_parent {threshold : BitVec 64} {x : System r × Tape r} {w' : System r} {o : Outcome}
    (known : Joined (view x.1)) (h : Taping x)
    (moved : fire (code r threshold) .parent o x.1 = some w') :
    Taping (w', x.2.follow x.1 (.parent o)) := by
  have fetcher : (view w').fetcher = (view x.1).fetcher := fire_other moved (by decide)
  have etr : (view w').parent = .done ∨ w'.mem.etr = x.2.ring.toWriter := by
    rcases fire_after moved with ⟨mem, point⟩ | after
    · rw [show (view w').parent = (view x.1).parent from point, mem]
      exact h.etr
    · obtain ⟨going, same | done⟩ := (parent_move after).etr
      · rcases h.etr with done | eq
        · exact absurd done going
        · exact .inr (same.trans eq)
      · exact .inl done
  by_cases exporting : x.1.ctl .parent = .run (.exportTrace : ParentPc)
  · have follows : x.2.follow x.1 (.parent o) = x.2.exportFile := if_pos exporting
    have tearing : (view x.1).parent.tearing = true := by
      simp only [view, exporting, Ctl.point]
      rfl
    rw [follows]
    refine ⟨⟨h.good.ring, h.good.buffer, h.good.collected⟩, etr, ?_⟩
    intro bytes written
    cases written
    exact ⟨fetcher.trans (known.ended (known.joined tearing)), rfl⟩
  · have follows : x.2.follow x.1 (.parent o) = x.2 := if_neg exporting
    rw [follows]
    refine ⟨h.good, etr, ?_⟩
    intro bytes written
    obtain ⟨returned, eq⟩ := h.file bytes written
    exact ⟨fetcher.trans returned, eq⟩

theorem work_mem {threshold : BitVec 64} {w w' : System r} {task : Task} {o : Outcome}
    (here : w.ctl .fetcher = .run (.work task .body : FetcherPc))
    (moved : fire (code r threshold) .fetcher o w = some w') : w'.mem = task.work o w.mem := by
  have after := run_after here moved
  simp only [code, fetcherCode, underTraceMutex, Instr.map, Instr.after, Option.map_some,
    Option.some.injEq, Prod.mk.injEq] at after
  exact after.1.symm

/-- A fetch, whose outcome is that of the bytes. -/
theorem taping_fetch {threshold : BitVec 64} (small : r.size < 2 ^ 31) {x : System r × Tape r}
    {w' : System r} {f : Fetch} (h : Taping x) (delivers : x.2.Delivers f) {task : Task}
    (here : x.1.ctl .fetcher = .run (.work task .body : FetcherPc))
    (fetches : task = .fetch ∨ task = .lastFetch)
    (moved : fire (code r threshold) .fetcher (x.2.fetch f).1 x.1 = some w') :
    Taping (w', (x.2.fetch f).2) := by
  have fetched := h.good.fetched small delivers
  have at_ : (view x.1).fetcher = .work task .body := by
    simp only [view, here, Ctl.point]
  have work := work_mem here moved
  have parent : (view w').parent = (view x.1).parent := fire_other moved (by decide)
  refine ⟨fetched.good h.good, ?_, ?_⟩
  · show (view w').parent = .done ∨ w'.mem.etr = _
    rw [parent, work]
    refine h.etr.imp_right ?_
    intro eq
    generalize (x.2.fetch f).1 = o at fetched
    generalize (x.2.fetch f).2 = t at fetched
    cases fetched with
    | ok b => rcases fetches with rfl | rfl <;> rfl
    | fail b =>
      show _ = x.2.ring.toWriter
      rw [← eq]
      rcases fetches with rfl | rfl <;> rfl
  · intro bytes written
    have before := (h.file bytes (fetched.file.symm.trans written)).1
    rw [at_] at before
    cases before

theorem taping_fetcher {threshold : BitVec 64} (small : r.size < 2 ^ 31) {x : System r × Tape r}
    {w' : System r} {o : Outcome} {f : Fetch} (h : Taping x)
    (delivery : delivers x (.fetcher o f) = true)
    (moved : step threshold x.1 ((Input.fetcher o f).action x) = some w') :
    Taping (w', x.2.follow x.1 (.fetcher o f)) := by
  by_cases now : fetching x.1 = true
  · have follows : x.2.follow x.1 (.fetcher o f) = (x.2.fetch f).2 := if_pos now
    have fired : fire (code r threshold) .fetcher (x.2.fetch f).1 x.1 = some w' := by
      simpa only [Input.action, if_pos now, step] using moved
    have delivered := delivers_fetch delivery now
    rw [follows]
    simp only [fetching, Bool.or_eq_true, beq_iff_eq] at now
    rcases now with here | here
    · exact taping_fetch small h delivered here (.inl rfl) fired
    · exact taping_fetch small h delivered here (.inr rfl) fired
  · have follows : x.2.follow x.1 (.fetcher o f) = x.2 := if_neg now
    have fired : fire (code r threshold) .fetcher o x.1 = some w' := by
      simpa only [Input.action, if_neg now, step] using moved
    have etr : w'.mem.etr = x.1.mem.etr := by
      rcases fire_mem fired with same | ⟨p, q, here, after⟩
      · rw [same]
      · obtain ⟨_, same | rfl | rfl⟩ := (fetcher_move after).etr
        · exact same
        · simp [fetching, here] at now
        · simp [fetching, here] at now
    have parent : (view w').parent = (view x.1).parent := fire_other fired (by decide)
    rw [follows]
    refine ⟨h.good, ?_, ?_⟩
    · show (view w').parent = .done ∨ w'.mem.etr = _
      rw [parent, etr]
      exact h.etr
    · intro bytes written
      obtain ⟨returned, eq⟩ := h.file bytes written
      refine ⟨?_, eq⟩
      rcases fire_after fired with ⟨_, point⟩ | after
      · exact point.trans returned
      · exact absurd returned (fetcher_move after).etr.1

theorem taping_step {threshold : BitVec 64} (small : r.size < 2 ^ 31) {x x' : System r × Tape r}
    {i : Input} (known : Joined (view x.1)) (h : Taping x) (delivery : delivers x i = true)
    (moved : record threshold x i = some x') : Taping x' := by
  obtain ⟨w', t'⟩ := x'
  obtain ⟨step, rfl⟩ := record_step moved
  cases i with
  | parent o => exact taping_parent known h step
  | fetcher o f => exact taping_fetcher small h delivery step
  | write bytes =>
    simp only [Input.action, Handshake.step, Option.ite_none_right_eq_some,
      Option.some.injEq] at step
    obtain ⟨_, rfl⟩ := step
    refine ⟨h.good.write _ bytes, ?_, ?_⟩
    · refine h.etr.imp_right ?_
      intro eq
      show (x.1.mem.write bytes.length).etr = (x.2.write x.1.mem.collecting bytes).ring.toWriter
      unfold Mem.write Tape.write
      split
      · rw [Ring.Memory.putAll_writer, ← eq]
      · exact eq
    · intro bytes' written
      obtain ⟨file, buffer⟩ := x.2.write_same x.1.mem.collecting bytes
      obtain ⟨returned, eq⟩ := h.file bytes' (file.symm.trans written)
      exact ⟨returned, eq.trans (congrArg exportTrace buffer.symm)⟩
  | exit status =>
    simp only [Input.action, Handshake.step, Option.ite_none_right_eq_some,
      Option.some.injEq] at step
    obtain ⟨_, rfl⟩ := step
    exact h.aside rfl rfl rfl
  | takeStop =>
    obtain ⟨m', taken, rfl⟩ := Option.map_eq_some_iff.mp step
    obtain ⟨sender, _, rfl⟩ := takeStop_cases taken
    exact h.aside rfl rfl rfl
  | sigstop =>
    simp only [Input.action, Handshake.step, Option.ite_none_left_eq_some,
      Option.some.injEq] at step
    obtain ⟨_, rfl⟩ := step
    exact h.aside (sigstop_log .other x.1.mem).etr rfl rfl
  | sigcont =>
    simp only [Input.action, Handshake.step, Option.ite_none_left_eq_some,
      Option.some.injEq] at step
    obtain ⟨_, rfl⟩ := step
    exact h.aside (sigcont_log x.1.mem).etr rfl rfl
  | wake t =>
    obtain ⟨mem, points⟩ := spurious_point step
    exact h.aside (congrArg Mem.etr mem) (points .parent) (points .fetcher)

/-! ## Runs -/

theorem taping {threshold : BitVec 64} (ok : System r → Action → Bool) (small : r.size < 2 ^ 31)
    {cells : r.Memory UInt8} {b : Buf} (empty : b.Holds []) {initPos : BitVec 64}
    {x : System r × Tape r}
    (h : Reach (record threshold) (fun x i => ok x.1 (i.action x) && delivers x i)
      (start r.empty initPos, blank cells b) x) : Taping x := by
  have known : ∀ x, Reach (record threshold) (fun x i => ok x.1 (i.action x) && delivers x i)
      (start r.empty initPos, blank cells b) x → Joined (view x.1) :=
    fun _ reached => joined (record_reach reached)
  refine h.invariant_with known ⟨blank_good cells empty, .inr rfl, nofun⟩ ?_
  intro x i x' known inv allowed moved
  exact taping_step small known inv (Bool.and_eq_true_iff.mp allowed).2 moved

/-- A ring of 8 bytes. -/
def smallRing : Ring := ⟨0x60000000#64, 8, by decide, by decide, by decide⟩

/-- A ring whose cells still hold something else. -/
def staleCells : smallRing.Memory UInt8 := ⟨smallRing.empty, List.replicate 8 9, rfl⟩

/-- A session whose tracee writes `bytes`, up to the export; the last fetch is
delivered `data`. -/
def sessionWriting (bytes data : List UInt8) : List Input :=
  let fetch : Fetch := ⟨data.length, fun _ => none, data.length, data⟩
  List.replicate 20 (.parent .ok) ++ List.replicate 5 (.fetcher .ok fetch) ++ [.parent .ok] ++
    [.write bytes, .exit 0] ++ List.replicate 21 (.parent .ok) ++
    List.replicate 16 (.fetcher .ok fetch) ++ List.replicate 2 (.parent .ok)

end Ultrasight.Handshake
