import Ultrasight.Attempts
import Ultrasight.Completion
import Ultrasight.FailedGrowth
import Ultrasight.Footprints
import Ultrasight.Growth

/-!
# What `stop_trace` and `fini_trace` die of

Of the calls that end a session, `stop_trace` dies where an attempt to disable all
comes to show an ETM, and `fini_trace` where it stores what it fetched, or exports
what it holds, outside of what is mapped. Both are decided by the state before the
call and by what the kernel and the devices answer.

* `stopTrace_died_iff`: the level is low, all that would be shown is old, or the TPIU
  ends each attempt before;
* `finiTrace_returns_iff` and `fits_iff`: for the buffers that `start_trace` leaves,
  what may be stored and exported.
-/

namespace Ultrasight

open Fn CsCall

/-! ## Showing an ETM -/

section
variable {e : Csal} {board : Board} {devices : Devices} {r : Rig}

/-- To show this device is harmless: it is a source, but not a recent one. -/
def Harmless (e : Csal) (d : Dev) : Prop := e.isSource d = true ∧ ¬ etmv4 ≤ e.etmMajor d

/-- The last loop of `disable_trace` comes to its end. -/
def ShowsNone (e : Csal) (board : Board) (r : Rig) : Prop :=
  e.registrationVerbose ≤ 1 ∨ ∀ i < board.nCpu, Harmless e (r.ptm i)

/-- `cs_reset_error_count`. -/
def Rig.reset (r : Rig) : Rig := { r.log .resetErrorCount with errorCount := 0 }

/-- An attempt that ends at the TPIU, and the reset behind it. -/
def refusedAttempt (e : Csal) (board : Board) (devices : Devices) (r : Rig) : Rig :=
  ((r.made e (sourcesOff e board devices r)).after e (.sinkDisable devices.tpiu)).reset

/-- Each of the next attempts ends at the TPIU. -/
def TpiuRefuses (e : Csal) (board : Board) (devices : Devices) : Nat → Rig → Prop
  | 0, _ => True
  | trials + 1, r => ¬ TpiuOff e devices (sourcesOff e board devices r) r ∧
      TpiuRefuses e board devices trials (refusedAttempt e board devices r)

/-- `stop_trace` does not come to show an ETM. -/
def Unshown (e : Csal) (board : Board) (devices : Devices) (r : Rig) : Prop :=
  ShowsNone e board r ∨ TpiuRefuses e board devices Session.traceDisableTrial r

/-- Harmless devices are looked at, and nothing else happens. -/
theorem showEtmConfig_harmless {d : Dev} (harmless : Harmless e d) (r : Rig) :
    ∃ s, showEtmConfig e d r = .ok () s ∧ s.ptm = r.ptm := by
  have ends : Ensures (showEtmConfig e d) (fun _ s => s.ptm = r.ptm) (fun _ _ => False) r := by
    simp [showEtmConfig, csDeviceHasClass, harmless.1, harmless.2]
  obtain ⟨_, s, ended, same⟩ := ends.returns
  exact ⟨s, ended, same⟩

theorem showEtmConfig_dies {d : Dev} (harmful : ¬ Harmless e d) (r : Rig) :
    Died (showEtmConfig e d r) := by
  apply Verbosity.show_dies
  intro source
  by_contra old
  exact harmful ⟨source, old⟩

theorem showAll_died_iff (l : List Nat) (r : Rig) :
    Died (each l (fun i => do let r ← get; showEtmConfig e (r.ptm i)) r) ↔
      ¬ ∀ i ∈ l, Harmless e (r.ptm i) := by
  induction l generalizing r with
  | nil =>
    apply iff_of_false
    · rintro ⟨s, died⟩
      cases died
    · exact fun harmful => harmful (List.forall_mem_nil _)
  | cons i rest ih =>
    by_cases harmless : Harmless e (r.ptm i)
    · obtain ⟨s, ended, same⟩ := showEtmConfig_harmless harmless r
      have first : (do let r ← get; showEtmConfig e (r.ptm i)) r = .ok () s := ended
      rw [each, bind_ok first, ih, same, List.forall_mem_cons, and_iff_right harmless]
    · apply iff_of_true
      · exact died_each (showEtmConfig_dies harmless r)
      · exact fun all => harmless (all i List.mem_cons_self)

/-- The part of `disable_trace` from its look at the TPIU on. -/
def disableRest (e : Csal) (board : Board) (devices : Devices) : Fn Rig Int := do
  when (devices.tpiu != 0) (must e (.sinkDisable devices.tpiu))
  when (1 < e.registrationVerbose) do
    each (List.range board.nCpu) fun i => do
      let r ← get
      showEtmConfig e (r.ptm i)
  checkErrors
  pure 0

theorem disableTrace_until (r : Rig) : disableTrace e (some board) devices r =
    enclose (disableRest e board devices) (r.made e (sourcesOff e board devices r)) := by
  have etms := makes_each (List.range board.nCpu) fun i _ => @makes_callPtm e .traceDisable i
  simp only [disableTrace]
  rw [enclose_bind (flush_eq devices r), enclose_bind (etms _),
    enclose_bind (@makes_call e (.traceDisable devices.itm) _),
    enclose_bind (makes_disableSinks _), enclose_bind (@makes_call e (.sinkDisable devices.etb) _)]
  simp only [made_ptm, ← made_append]
  rfl

theorem disableTrace_refused (refused : ¬ TpiuOff e devices (sourcesOff e board devices r) r) :
    disableTrace e (some board) devices r = .ok (-1)
      ((r.made e (sourcesOff e board devices r)).after e (.sinkDisable devices.tpiu)) := by
  obtain ⟨present, fails⟩ := not_or.mp refused
  have early : Ensures (enclose (disableRest e board devices))
      (fun rc s => rc = -1 ∧
        s = (r.made e (sourcesOff e board devices r)).after e (.sinkDisable devices.tpiu))
      (fun _ _ => False) (r.made e (sourcesOff e board devices r)) := by
    apply (ensures_enclose _).mpr
    apply (ensures_bind _ _).mpr
    simp only [ensures_when, ensures_must, bne_iff_ne, made_calls]
    exact ⟨fun _ => ⟨fun works => absurd works fails, fun _ => ⟨trivial, trivial⟩⟩,
      fun absent => absurd (by simpa using absent) present⟩
  obtain ⟨rc, s, ended, rfl, rfl⟩ := early.returns
  rw [disableTrace_until, ended]

theorem disableTrace_died_iff (off : TpiuOff e devices (sourcesOff e board devices r) r) :
    Died (disableTrace e (some board) devices r) ↔ ¬ ShowsNone e board r := by
  have passed : ∃ s, when (devices.tpiu != 0) (must e (.sinkDisable devices.tpiu))
      (r.made e (sourcesOff e board devices r)) = .ok () s ∧ s.ptm = r.ptm := by
    have ends : Ensures (when (devices.tpiu != 0) (must e (.sinkDisable devices.tpiu)))
        (fun _ s => s.ptm = r.ptm) (fun _ _ => False) (r.made e (sourcesOff e board devices r)) := by
      simp only [ensures_when, ensures_must, bne_iff_ne, made_calls, after_ptm, made_ptm, implies_true,
        true_and, and_true]
      exact fun present fails => fails (off.resolve_left present)
    obtain ⟨_, s, ended, same⟩ := ends.returns
    exact ⟨s, ended, same⟩
  obtain ⟨s, passed, same⟩ := passed
  have checks : Survives (do checkErrors; pure (0 : Int)) := (@survives_walk e).checked
  rw [disableTrace_until, disableRest, enclose_bind passed]
  by_cases loud : 1 < e.registrationVerbose
  · have kept : ShowsNone e board r ↔ ∀ i ∈ List.range board.nCpu, Harmless e (s.ptm i) := by
      rw [ShowsNone, or_iff_right (by omega), same]
      simp only [List.mem_range]
    rw [kept, ← showAll_died_iff, decide_eq_true loud]
    cases ran : each (List.range board.nCpu) (fun i => do let r ← get; showEtmConfig e (r.ptm i)) s with
    | ok _ s' =>
      have shown : when true (each (List.range board.nCpu) fun i => do
          let r ← get; showEtmConfig e (r.ptm i)) s = .ok () s' := ran
      rw [enclose_bind shown]
      apply iff_of_false
      · exact checks.enclose.alive
      · rintro ⟨s'', died⟩
        cases died
    | error x s' =>
      have shows : Through (each (List.range board.nCpu) fun i => do
          let r ← get; showEtmConfig e (r.ptm i)) :=
        through_each fun i => through_get.bind fun r => through_showEtmConfig _
      obtain rfl := (ensures_of_error ran).mp (shows s)
      apply iff_of_true
      · apply died_enclose
        apply died_bind
        exact ⟨s', ran⟩
      · exact ⟨s', rfl⟩
  · have quiet : decide (1 < e.registrationVerbose) = false := decide_eq_false loud
    rw [quiet]
    apply iff_of_false
    · have rest : Survives (do
          when false (each (List.range board.nCpu) fun i => do
            let r ← get
            showEtmConfig e (r.ptm i))
          checkErrors
          pure (0 : Int)) := (survives_pure ()).bind fun _ => checks
      exact rest.enclose.alive
    · exact fun harmful => harmful (.inl (by omega))

end

namespace Session

open Verbosity (stable_ptm)
open TraceBuffer (defaultTraceSize)

/-! ## `stop_trace` -/

section
variable {e : Csal} {board : Board}

/-- One attempt, in the state of all variables. -/
theorem disableAttempt_ok {g : Globals} (found : g.board = some board) {rc : Int} {s : Rig}
    (ended : disableTrace e (some board) g.devices g.rig = .ok rc s) :
    disableAttempt e true g = .ok rc { g with rig := s } := by
  have attempt : disableAttempt e true g = onRig (disableTrace e (some board) g.devices) g := by
    rw [← found]
    rfl
  rw [attempt]
  simp only [onRig, zoom, ended]

theorem disableAttempt_died {g : Globals} (found : g.board = some board)
    (died : Died (disableTrace e (some board) g.devices g.rig)) : Died (disableAttempt e true g) := by
  have attempt : disableAttempt e true g = onRig (disableTrace e (some board) g.devices) g := by
    rw [← found]
    rfl
  obtain ⟨s, died⟩ := died
  rw [attempt]
  exact ⟨{ g with rig := s }, by simp only [onRig, zoom, died]⟩

/-- The attempts end the process unless nothing is shown or they all end before. -/
theorem disableLoop_died_iff {trials : Nat} {ret : Int} {g : Globals}
    (found : g.board = some board) : Died (disableLoop e true trials ret g) ↔
      ¬ (ShowsNone e board g.rig ∨ TpiuRefuses e board g.devices trials g.rig) := by
  induction trials generalizing ret g with
  | zero =>
    apply iff_of_false
    · rintro ⟨s, died⟩
      cases died
    · exact fun shown => shown (.inr trivial)
  | succ trials ih =>
    -- Behind an attempt that failed.
    have again (rc : Int) {s : Rig} (same : s.ptm = g.rig.ptm) :
        Died ((onRig csResetErrorCount >>= fun _ => disableLoop e true trials rc)
          { g with rig := s }) ↔
            ¬ (ShowsNone e board g.rig ∨ TpiuRefuses e board g.devices trials s.reset) := by
      have reset : (onRig csResetErrorCount : Fn Globals Unit) { g with rig := s } =
          .ok () { g with rig := s.reset } := rfl
      have shown : ShowsNone e board s.reset ↔ ShowsNone e board g.rig := by
        rw [ShowsNone, ShowsNone, ← same]
        exact Iff.rfl
      rw [bind_ok reset, ← shown]
      exact @ih rc { g with rig := s.reset } found
    rw [disableLoop]
    by_cases off : TpiuOff e g.devices (sourcesOff e board g.devices g.rig) g.rig
    · by_cases shown : ShowsNone e board g.rig
      · obtain ⟨rc, s, ended⟩ | died :
            (∃ rc s, disableTrace e (some board) g.devices g.rig = .ok rc s) ∨ _ :=
          enclose_cases _ _
        · have same : s.ptm = g.rig.ptm := by
            have keeps : Keeps (fun s : Rig => s.ptm = g.rig.ptm)
                (disableTrace e (some board) g.devices) := (stable_ptm g.rig.ptm).disableTrace _ _
            exact (ensures_of_ok ended).mp (keeps g.rig rfl)
          rw [bind_ok (disableAttempt_ok found ended)]
          split
          · apply iff_of_false
            · rintro ⟨s', died⟩
              cases died
            · exact fun harmful => harmful (.inl shown)
          · apply (again rc same).trans
            exact iff_of_false (fun harmful => harmful (.inl shown)) fun harmful => harmful (.inl shown)
        · exact absurd shown ((disableTrace_died_iff off).mp died)
      · apply iff_of_true
        · exact died_bind (disableAttempt_died found ((disableTrace_died_iff off).mpr shown))
        · rintro (shown' | ⟨refused, -⟩)
          · exact shown shown'
          · exact refused off
    · rw [bind_ok (disableAttempt_ok found (disableTrace_refused off)), if_neg (by decide)]
      apply (again (-1) (by rw [after_ptm, made_ptm])).trans
      rw [TpiuRefuses, and_iff_right off]
      exact Iff.rfl

/-- `stop_trace` dies exactly where it comes to show an ETM. -/
theorem stopTrace_died_iff {g : Globals} (found : g.board = some board) :
    Died (stopTrace e true g) ↔ ¬ Unshown e board g.devices g.rig := by
  rw [Unshown, ← disableLoop_died_iff found]
  show Died (stopTrace e true g) ↔ Died (disableCsTrace e true g)
  cases ran : disableCsTrace e true g with
  | ok rc g' =>
    have rest : Survives (do
        require (0 ≤ rc) rc
        setTraceState .readyState
        pure rc) :=
      (survives_closed.require _ _).bind fun _ => (survives_modify _).bind fun _ => survives_pure rc
    rw [stopTrace, enclose_bind ran]
    apply iff_of_false
    · exact rest.enclose.alive
    · rintro ⟨s, died⟩
      cases died
  | error x g' =>
    have early : (disableCsTrace e true >>= fun rc => do
        require (0 ≤ rc) rc
        setTraceState .readyState
        pure rc) g = .error x g' := by
      simp only [Bind.bind, EStateM.bind, ran]
    simp only [stopTrace, enclose, early]
    cases x with
    | ret rc => simp [Died]
    | crash => simp [Died]

end

/-! ## `fini_trace` -/

/-- A buffer that `start_trace` maps. -/
def mapped (placed : Option (Placement TraceBuffer.defaultTraceSize.toNat)) : Buf :=
  (placed.map (Buf.map TraceBuffer.defaultTraceSize)).getD (unmapped .null)

namespace StartAnswers

/-- The buffers after a first `start_trace`: mapped once the tracee is bound. -/
def traceBufLeft (a : StartAnswers) : Buf := if 0 ≤ a.affinity then mapped a.traceBuf else .null

def ksightBufLeft (a : StartAnswers) (o : Settings) : Buf :=
  if 0 ≤ a.affinity ∧ o.ksightOn = true then mapped a.ksightBuf else .null

end StartAnswers

section
variable {e : Csal} {o : Settings}

/-- The trace that `fini_trace` fetches fits into what is mapped at this buffer, and
so does what it then exports. -/
def FiniAnswers.traceFits (a : FiniAnswers) (b : Buf) : Bool :=
  match TraceBuffer.fetchTrace a.fetch b with
  | .ok (_, b) => !a.exportOpened || readable b
  | .error _ => false

def FiniAnswers.eventsFit (a : FiniAnswers) (b : Buf) : Bool :=
  match Ksight.fetchKsightEvents a.ksightOpened a.ksightRemap a.ksightQueue b with
  | .ok (_, d) => !a.ksightExportOpened || readable d.buf
  | .error _ => false

/-- `fini_trace` stays in what is mapped. -/
def FiniAnswers.fits (o : Settings) (a : FiniAnswers) (trace events : Buf) : Bool :=
  a.traceFits trace && (!o.ksightOn || a.eventsFit events)

theorem fetchTrace_fits_iff {f : TraceBuffer.Fetch} {Q : Buf → Buf → Prop} {g : Globals} :
    Ensures (fetchTrace e f) (fun _ g' => Q g'.traceBuf g'.ksightBuf) (fun _ _ => False) g ↔
      ∃ rc b, TraceBuffer.fetchTrace f g.traceBuf = .ok (rc, b) ∧ Q b g.ksightBuf := by
  simp only [fetchTrace, onRig, ensures_enclose, ensures_bind, ensures_get, ensures_zoom,
    ensures_call]
  cases TraceBuffer.fetchTrace f g.traceBuf with
  | error _ => simp only [ensures_bind, ensures_zoom, ensures_call, ensures_crash, reduceCtorEq,
      false_and, exists_false]
  | ok fetched =>
    obtain ⟨rc, b⟩ := fetched
    simp only [ensures_bind, ensures_modify, ensures_require, ensures_zoom, ensures_call, ensures_pure,
      Except.ok.injEq, Prod.mk.injEq, and_assoc, exists_and_left, exists_eq_left',
      decide_eq_true_eq, decide_eq_false_iff_not]
    exact ⟨fun fits => (Decidable.em _).elim fits.1 fits.2, fun fits => ⟨fun _ => fits, fun _ => fits⟩⟩

theorem eventsFit_iff {a : FiniAnswers} {Q : Prop} {g : Globals} :
    Ensures (do
      fetchKsightEvents a
      exportKsight a.ksightExportOpened
      modify fun g => { g with ksightBuf := freeBuf g.ksightBuf })
        (fun _ _ => Q) (fun _ _ => False) g ↔ a.eventsFit g.ksightBuf = true ∧ Q := by
  simp only [fetchKsightEvents, exportKsight, exportBuf, ensures_bind, ensures_get,
    FiniAnswers.eventsFit]
  cases Ksight.fetchKsightEvents a.ksightOpened a.ksightRemap a.ksightQueue g.ksightBuf with
  | error _ => simp
  | ok drained =>
    cases a.ksightExportOpened with
    | false => simp
    | true =>
      simp only [ensures_bind, ensures_modify, ensures_when, ensures_assert, true_implies,
        Bool.true_eq_false, false_implies, and_true, Bool.not_true, Bool.false_or, imp_false,
        Bool.not_eq_false]
      exact ⟨fun fit => ⟨fit.2, fit.1 fit.2⟩, fun fit => ⟨fun _ => fit.2, fit.1⟩⟩

/-- Without the fetcher, `fini_trace` returns exactly if it stays in what is mapped. -/
theorem finiTrace_returns_iff (off : o.fetcherOn = false) (a : FiniAnswers) (g : Globals) :
    Ensures (finiTrace e o a) (fun _ _ => True) (fun _ _ => False) g ↔
      a.fits o g.traceBuf g.ksightBuf = true := by
  let Fine (trace events : Buf) : Prop :=
    (a.exportOpened = true → readable trace = true) ∧
      (o.ksightOn = true → a.eventsFit events = true)
  have events (g : Globals) : Ensures (do
      when o.ksightOn do
        fetchKsightEvents a
        exportKsight a.ksightExportOpened
        modify fun g => { g with ksightBuf := freeBuf g.ksightBuf }
      freeTraceBuf e
      onRig (call e .shutdown)
      pure (0 : Int)) (fun _ _ => True) (fun _ _ => False) g ↔
        (o.ksightOn = true → a.eventsFit g.ksightBuf = true) := by
    have rest (g : Globals) : Ensures (do freeTraceBuf e; onRig (call e .shutdown); pure (0 : Int))
        (fun _ _ => True) (fun _ _ => False) g ↔ True := by
      simp only [freeTraceBuf, onRig, ensures_bind, ensures_get, ensures_when, ensures_zoom,
        ensures_call, ensures_modify, ensures_pure, implies_true, and_self]
    rw [ensures_bind]
    simp only [rest, ensures_when, eventsFit_iff, and_true, implies_true]
  have exports (g : Globals) : Ensures (do
      exportTrace a.exportOpened
      when o.ksightOn do
        fetchKsightEvents a
        exportKsight a.ksightExportOpened
        modify fun g => { g with ksightBuf := freeBuf g.ksightBuf }
      freeTraceBuf e
      onRig (call e .shutdown)
      pure (0 : Int)) (fun _ _ => True) (fun _ _ => False) g ↔ Fine g.traceBuf g.ksightBuf := by
    rw [ensures_bind]
    simp only [events, exportTrace, exportBuf, ensures_bind, ensures_get, ensures_when,
      ensures_assert, ensures_modify, imp_false, Bool.not_eq_false, Fine]
    cases a.exportOpened with
    | false => simp
    | true =>
      simp only [true_implies, Bool.true_eq_false, false_implies, and_true]
      exact ⟨fun fit => ⟨fit.2, fit.1 fit.2⟩, fun fit => ⟨fun _ => fit.2, fit.1⟩⟩
  have fetched : Ensures (lastFetch e o a) (fun _ g' => Fine g'.traceBuf g'.ksightBuf)
      (fun _ _ => False) g ↔ a.fits o g.traceBuf g.ksightBuf = true := by
    simp only [lastFetch, off, Bool.false_eq_true, if_false, ensures_bind, ensures_pure]
    rw [fetchTrace_fits_iff, FiniAnswers.fits, FiniAnswers.traceFits]
    cases TraceBuffer.fetchTrace a.fetch g.traceBuf with
    | error _ => simp
    | ok fetched =>
      obtain ⟨rc, b⟩ := fetched
      simp only [Except.ok.injEq, Prod.mk.injEq, and_assoc, exists_and_left, exists_eq_left', Fine]
      cases a.exportOpened <;> cases o.ksightOn <;> simp
  rw [← fetched, finiTrace, ensures_bind]
  simp only [exports]

end

/-! ## The trace -/

section
variable {a : FiniAnswers} {b : Buf}

theorem sound_readable (sound : b.Sound) : readable b = true := by
  have used := sound.used_le
  rw [Buf.used] at used
  simp only [readable, sound.base, sound.length, beq_self_eq_true, Bool.true_and, Bool.or_eq_true]
  exact .inr (decide_eq_true used)

/-- What a fetch for which there is room stores and leaves. -/
theorem traceFits_room {grown : Buf}
    (room : TraceBuffer.growLoop a.fetch TraceBuffer.growFuel b.align = .ok (.room grown)) :
    a.traceFits b = true ↔ ∃ region, grown.region.write grown.ptr a.fetch.data = .ok region ∧
      (a.exportOpened = true →
        readable { grown with ptr := grown.ptr + BitVec.ofInt 64 a.fetch.n, region } = true) := by
  rw [FiniAnswers.traceFits, TraceBuffer.fetchTrace, room]
  cases written : grown.region.write grown.ptr a.fetch.data with
  | error stop => simp [written, Except.map]
  | ok region => cases a.exportOpened <;> simp [written, Except.map]

/-- Nothing is stored, and the position that is exported is this one. -/
def FiniAnswers.Untouched (a : FiniAnswers) (buf : BitVec 64) : Prop :=
  a.fetch.data = [] ∧ (a.exportOpened = true → BitVec.ofInt 64 a.fetch.n = buf)

/-- Where nothing is mapped, nothing can be stored, and nothing be read. -/
theorem traceFits_nowhere (nothing : b.region = ⟨0, []⟩) (start : b.ptr = 0)
    (room : TraceBuffer.growLoop a.fetch TraceBuffer.growFuel b.align = .ok (.room b)) :
    a.traceFits b = true ↔ a.Untouched b.buf := by
  have stored (region : Region) : b.region.write b.ptr a.fetch.data = .ok region ↔
      a.fetch.data = [] ∧ region = ⟨0, []⟩ := by
    by_cases empty : a.fetch.data = []
    · have same : b.region.write b.ptr a.fetch.data = .ok ⟨0, []⟩ := by
        rw [nothing, start, empty]
        rfl
      rw [same, Except.ok.injEq, eq_comm, and_iff_right empty]
    · have long : 0 < a.fetch.data.length := List.length_pos_iff.mpr empty
      have outside : b.region.write b.ptr a.fetch.data = .error .fault := by
        rw [Region.write, if_neg]
        rw [nothing, start]
        rintro ⟨-, inside⟩
        simp only [List.length_nil, Nat.add_zero] at inside
        omega
      simp [outside, empty]
  have unread (p : BitVec 64) : readable { b with ptr := p, region := ⟨0, []⟩ } = true ↔ p = b.buf := by
    simp only [readable, List.length_nil, Nat.le_zero, Bool.or_eq_true, beq_iff_eq,
      Bool.and_eq_true, decide_eq_true_eq]
    constructor
    · rintro (same | ⟨-, zero⟩)
      · exact same
      · rw [BitVec.toNat_sub] at zero
        apply BitVec.eq_of_toNat_eq
        have := p.isLt
        have := b.buf.isLt
        omega
    · exact .inl
  have sum : b.ptr + BitVec.ofInt 64 a.fetch.n = BitVec.ofInt 64 a.fetch.n := by
    rw [start]
    exact BitVec.zero_add _
  simp only [traceFits_room room, stored, sum, and_assoc, exists_and_left, exists_eq_left, unread,
    FiniAnswers.Untouched]

theorem traceFits_null : a.traceFits .null = true ↔ (a.fetch.asked = 0 → a.Untouched 0) := by
  have aligned : Buf.null.align = .null := by decide
  have remain : Buf.null.remain.toNat = 0 := by decide
  have more : Buf.null.remain < BitVec.ofInt 64 a.fetch.len ↔ a.fetch.asked ≠ 0 := by
    rw [BitVec.lt_def, remain]
    exact Nat.pos_iff_ne_zero
  by_cases none : a.fetch.asked = 0
  · rw [traceFits_nowhere rfl rfl]
    · simp only [none, true_implies]
      rfl
    · rw [aligned]
      exact TraceBuffer.growLoop_fits fun some => more.mp some none
  · have refused : a.fetch.remap (Buf.null.size * 2) = Option.none := by
      cases moved : a.fetch.remap (Buf.null.size * 2) with
      | none => rfl
      | some p => exact absurd p.pos (by decide)
    have failed : TraceBuffer.fetchTrace a.fetch .null = .ok (-1, .null) := by
      simp only [TraceBuffer.fetchTrace, aligned, TraceBuffer.growFuel, TraceBuffer.growLoop,
        if_pos (more.mpr none), refused]
    rw [FiniAnswers.traceFits, failed]
    simp only [none, false_implies, iff_true, Bool.or_eq_true]
    exact .inr rfl

theorem traceFits_unmapped : a.traceFits (mapped none) = true ↔ a.Untouched (-1) := by
  have aligned : (mapped none).align = mapped none := by decide
  have most : (mapped none).remain = BitVec.allOnes 64 := by decide
  apply traceFits_nowhere rfl rfl
  rw [aligned]
  apply TraceBuffer.growLoop_fits
  rw [most, BitVec.lt_def, BitVec.toNat_allOnes]
  have := (BitVec.ofInt 64 a.fetch.len).isLt
  omega

/-- No more is stored, and counted if it is exported, than the least doubling of the
buffer holds that holds what is unread. -/
def FiniAnswers.Roomy (a : FiniAnswers) : Prop :=
  ∀ k, IsLeast {k | a.fetch.asked ≤ defaultTraceSize.toNat * 2 ^ k} k →
    a.fetch.data.length ≤ defaultTraceSize.toNat * 2 ^ k ∧
      (a.exportOpened = true →
        (BitVec.ofInt 64 a.fetch.n).toNat ≤ defaultTraceSize.toNat * 2 ^ k)

/-- An empty buffer of the first size. -/
theorem traceFits_empty (sound : b.Sound) (first : b.size = defaultTraceSize) (start : b.used = 0) :
    a.traceFits b = true ↔ a.fetch.Refused b ∨ a.Roomy := by
  obtain ⟨aligned, used⟩ := sound.align
  rw [start] at used
  have used : b.align.used = 0 := used
  have size : b.align.size = defaultTraceSize := first
  obtain ⟨grown, kept, -, -, ⟨failed, refused⟩ | ⟨room, -, never⟩⟩ :=
    @TraceBuffer.growLoop_cases a.fetch b.align TraceBuffer.growFuel 19 aligned
      (by rw [size]; decide) (by decide)
  · have stopped : TraceBuffer.fetchTrace a.fetch b = .ok (-1, grown) := by
      simp only [TraceBuffer.fetchTrace, failed]
    rw [FiniAnswers.traceFits, stopped, Bool.or_eq_true]
    exact iff_of_true (.inr (sound_readable kept)) (.inl refused)
  · obtain ⟨-, same, k, wide, least⟩ := TraceBuffer.growLoop_room aligned room
    rw [size] at wide
    rw [used, size, Nat.zero_add] at least
    rw [used] at same
    have ptr : grown.ptr = grown.buf := by
      have := kept.used_add
      rw [same] at this
      exact BitVec.eq_of_toNat_eq this.symm
    have kind : ¬ a.fetch.Refused b := not_exists.mpr never
    rw [traceFits_room room, or_iff_right kind]
    have stored (region : Region) : grown.region.write grown.ptr a.fetch.data = .ok region ↔
        a.fetch.data.length ≤ defaultTraceSize.toNat * 2 ^ k ∧
          region = grown.region.splice 0 a.fetch.data := by
      rw [Region.write, kept.base, ptr, kept.length, wide, Nat.sub_self]
      split
      · rename_i inside
        rw [Except.ok.injEq, eq_comm, and_iff_right (by omega)]
      · rename_i outside
        simp only [reduceCtorEq, false_iff, not_and]
        intro fit
        omega
    have unread (fit : a.fetch.data.length ≤ defaultTraceSize.toNat * 2 ^ k) :
        readable { grown with
          ptr := grown.ptr + BitVec.ofInt 64 a.fetch.n
          region := grown.region.splice 0 a.fetch.data } = true ↔
        (BitVec.ofInt 64 a.fetch.n).toNat ≤ defaultTraceSize.toNat * 2 ^ k := by
      have length : (grown.region.splice 0 a.fetch.data).bytes.length =
          defaultTraceSize.toNat * 2 ^ k := by
        rw [Region.splice_length, kept.length, wide]
        rw [kept.length, wide]
        omega
      have base : (grown.region.splice 0 a.fetch.data).base = grown.buf := kept.base
      have moved : grown.ptr + BitVec.ofInt 64 a.fetch.n - grown.buf = BitVec.ofInt 64 a.fetch.n := by
        rw [ptr, BitVec.add_comm]
        exact BitVec.add_sub_cancel _ _
      simp only [readable, base, length, moved, beq_self_eq_true, Bool.true_and, Bool.or_eq_true,
        beq_iff_eq, decide_eq_true_eq, or_iff_right_iff_imp]
      intro unmoved
      rw [unmoved, BitVec.sub_self] at moved
      rw [← moved]
      exact Nat.zero_le _
    constructor
    · rintro ⟨region, written, opened⟩ k' least'
      obtain ⟨fit, rfl⟩ := (stored region).mp written
      obtain rfl := least.unique least'
      exact ⟨fit, fun open' => (unread fit).mp (opened open')⟩
    · intro inside
      obtain ⟨fit, counted⟩ := inside k least
      exact ⟨_, (stored _).mpr ⟨fit, rfl⟩, fun open' => (unread fit).mpr (counted open')⟩

theorem mapped_some (p : Placement defaultTraceSize.toNat) :
    mapped (some p) = TraceBuffer.allocTraceBuf p := rfl

theorem traceFits_mapped (p : Placement defaultTraceSize.toNat) :
    a.traceFits (TraceBuffer.allocTraceBuf p) = true ↔
      a.fetch.Refused (TraceBuffer.allocTraceBuf p) ∨ a.Roomy := by
  apply traceFits_empty (Buf.sound_map p ⟨16, by decide⟩) rfl
  show (p.addr - p.addr).toNat = 0
  rw [BitVec.sub_self]
  rfl

/-! ## The events -/

/-- What is left of no buffer when it could not grow. -/
def nowhere : Buf := ⟨-1, 0, -1, ⟨0, []⟩⟩

/-- Where nothing is mapped, nothing can be moved and nothing is read. -/
theorem drainLoop_nowhere (remap : Remap) (fuel : Nat) (queue : List Ksight.Event) :
    Ksight.drainLoop remap (fuel + 1) ⟨.null, queue, [], true⟩ =
      .ok (0, ⟨nowhere, queue, [0], false⟩) := by
  have refused : remap (Buf.null.size * 2) = none := by
    cases moved : remap (Buf.null.size * 2) with
    | none => rfl
    | some p => exact absurd p.pos (by decide)
  have small : Buf.null.remain < BitVec.ofNat 64 Ksight.eventSize := by decide
  have rebased : Buf.null.rebase (-1) (Buf.null.size * 2) = nowhere := by decide
  have room : nowhere.remain = 0 := by decide
  have none (n : Nat) : (0 : BitVec 64).toNat / n = 0 := Nat.zero_div n
  simp only [Ksight.drainLoop, Ksight.grow, if_pos small, refused, rebased, room, none,
    List.take_zero, List.isEmpty_nil, if_true, List.nil_append]

/-- A doubling that the events ask for is refused. -/
def FiniAnswers.EventsRefused (a : FiniAnswers) : Prop :=
  a.ksightOpened = true ∧ Ksight.Refused a.ksightRemap defaultTraceSize
    (Ksight.eventSize * (a.ksightQueue.length + 1))

theorem lost_unreadable (lost : Ksight.Lost b) : readable b = false := by
  have moved : (b.ptr == b.buf) = false := by
    rw [lost.buf]
    exact beq_eq_false_iff_ne.mpr lost.ptr
  have elsewhere : (b.region.base == b.buf) = false := by
    rw [lost.buf]
    exact beq_eq_false_iff_ne.mpr lost.base
  rw [readable, moved, elsewhere]
  rfl

theorem eventsFit_mapped (p : Placement defaultTraceSize.toNat) :
    a.eventsFit (Ksight.allocKsightBuf p) = true ↔
      (a.ksightExportOpened = true → ¬ a.EventsRefused) := by
  have empty : (Ksight.allocKsightBuf p).Holds (Ksight.payload []) :=
    Buf.holds_map p ⟨16, by decide⟩
  have drained : ∃ rc d, Ksight.fetchKsightEvents a.ksightOpened a.ksightRemap a.ksightQueue
      (Ksight.allocKsightBuf p) = .ok (rc, d) ∧ (readable d.buf = true ↔ ¬ a.EventsRefused) := by
    cases opened : a.ksightOpened with
    | false =>
      refine ⟨-1, _, rfl, iff_of_true (holds_readable empty) ?_⟩
      rintro ⟨on, -⟩
      rw [opened] at on
      cases on
    | true =>
      obtain ⟨⟨rc, d⟩, returned⟩ :=
        Ksight.fetch_returns true a.ksightRemap a.ksightQueue (Ksight.allocKsightBuf p)
      have pages : pageSize ≤ (Ksight.allocKsightBuf p).size.toNat := by
        show pageSize ≤ defaultTraceSize.toNat
        decide
      have needs : Ksight.eventSize * (([] : List Ksight.Event).length + a.ksightQueue.length + 1) =
          Ksight.eventSize * (a.ksightQueue.length + 1) := by
        rw [List.length_nil, Nat.zero_add]
      refine ⟨rc, d, returned, ?_⟩
      obtain ⟨lost, refused⟩ | ⟨moved, granted⟩ := Ksight.fetch_ends empty pages returned
      · rw [needs] at refused
        apply iff_of_false
        · rw [lost_unreadable lost]
          exact Bool.false_ne_true
        · exact fun whole => whole ⟨opened, refused⟩
      · obtain ⟨-, -, -, holds, -⟩ := Ksight.fetch_spec empty (Nat.le_trans (by decide) pages) returned moved
        rw [needs] at granted
        exact iff_of_true (holds_readable holds) fun both => granted both.2
  obtain ⟨rc, d, returned, whole⟩ := drained
  rw [FiniAnswers.eventsFit, returned, ← whole]
  cases a.ksightExportOpened <;> simp

theorem eventsFit_null : a.eventsFit .null = true := by
  have aligned : Buf.null.align = .null := by decide
  rw [FiniAnswers.eventsFit]
  cases a.ksightOpened with
  | false => exact Bool.or_true _
  | true =>
    rw [Ksight.fetchKsightEvents, if_pos rfl, aligned, drainLoop_nowhere]
    exact Bool.or_true _

/-- Where `mmap` failed there is room for any record, and none can be stored. -/
theorem drainLoop_unmapped (remap : Remap) (fuel : Nat) (queue : List Ksight.Event) :
    ∃ rc rooms, Ksight.drainLoop remap (fuel + 1) ⟨mapped none, queue, [], true⟩ =
      .ok (rc, ⟨mapped none, queue, rooms, true⟩) := by
  have large : ¬ (mapped none).remain < BitVec.ofNat 64 Ksight.eventSize := by decide
  have some : (mapped none).remain.toNat / Ksight.eventSize ≠ 0 := by decide
  simp only [Ksight.drainLoop, if_neg large]
  split
  · exact ⟨0, _, rfl⟩
  · rename_i taken
    have outside : (mapped none).append (Ksight.payload
        (queue.take ((mapped none).remain.toNat / Ksight.eventSize))) = .error .fault := by
      have long : 0 < (Ksight.payload
          (queue.take ((mapped none).remain.toNat / Ksight.eventSize))).length := by
        rw [Ksight.payload_length]
        apply Nat.mul_pos (by decide)
        apply List.length_pos_iff.mpr
        simpa using taken
      rw [Buf.append, Region.write, if_neg]
      · rfl
      · rintro ⟨-, inside⟩
        have nothing : (mapped none).region = ⟨0, []⟩ := rfl
        simp only [nothing, List.length_nil, Nat.add_zero] at inside
        have base : (0 : BitVec 64).toNat = 0 := rfl
        omega
    simp only [Ksight.payload] at outside
    rw [outside]
    exact ⟨-1, _, rfl⟩

theorem eventsFit_unmapped : a.eventsFit (mapped none) = true ↔ a.ksightExportOpened = false := by
  have aligned : (mapped none).align = mapped none := by decide
  have unread : readable (mapped none) = false := by decide
  rw [FiniAnswers.eventsFit]
  cases a.ksightOpened with
  | false =>
    rw [Ksight.fetchKsightEvents, if_neg Bool.false_ne_true]
    simp only [unread, Bool.or_false, Bool.not_eq_true']
  | true =>
    obtain ⟨rc, rooms, drained⟩ :=
      drainLoop_unmapped a.ksightRemap a.ksightQueue.length a.ksightQueue
    rw [Ksight.fetchKsightEvents, if_pos rfl, aligned, drained]
    simp only [unread, Bool.or_false, Bool.not_eq_true']

/-! ## Both -/

/-- What `fini_trace` stores and exports, after this `start_trace`, is mapped. -/
structure FiniAnswers.Inside (o : Settings) (a : FiniAnswers) (s : StartAnswers) : Prop where
  unbound : s.affinity < 0 → a.fetch.asked = 0 → a.Untouched 0
  unmapped : 0 ≤ s.affinity → s.traceBuf = none → a.Untouched (-1)
  mapped : 0 ≤ s.affinity → ∀ p, s.traceBuf = some p →
    a.fetch.Refused (TraceBuffer.allocTraceBuf p) ∨ a.Roomy
  events : 0 ≤ s.affinity → o.ksightOn = true → a.ksightExportOpened = true →
    s.ksightBuf.isSome = true ∧ ¬ a.EventsRefused

theorem traceFits_iff {s : StartAnswers} : a.traceFits s.traceBufLeft = true ↔
    (s.affinity < 0 → a.fetch.asked = 0 → a.Untouched 0) ∧
    (0 ≤ s.affinity → s.traceBuf = none → a.Untouched (-1)) ∧
    (0 ≤ s.affinity → ∀ p, s.traceBuf = some p →
      a.fetch.Refused (TraceBuffer.allocTraceBuf p) ∨ a.Roomy) := by
  by_cases bound : 0 ≤ s.affinity
  · have below : ¬ s.affinity < 0 := by omega
    rw [StartAnswers.traceBufLeft, if_pos bound]
    cases s.traceBuf with
    | none =>
      simp only [below, bound, traceFits_unmapped, true_implies, false_implies, true_and, reduceCtorEq,
        implies_true, and_true]
    | some p =>
      rw [mapped_some, traceFits_mapped]
      simp only [below, bound, true_implies, false_implies, true_and, reduceCtorEq,
        Option.some.injEq, forall_eq']
  · have below : s.affinity < 0 := by omega
    rw [StartAnswers.traceBufLeft, if_neg bound, traceFits_null]
    simp only [below, bound, true_implies, false_implies, and_true]

theorem eventsFit_left_iff {o : Settings} {s : StartAnswers} (on : o.ksightOn = true) :
    a.eventsFit (s.ksightBufLeft o) = true ↔
      (0 ≤ s.affinity → a.ksightExportOpened = true →
        s.ksightBuf.isSome = true ∧ ¬ a.EventsRefused) := by
  by_cases bound : 0 ≤ s.affinity
  · rw [StartAnswers.ksightBufLeft, if_pos ⟨bound, on⟩]
    cases s.ksightBuf with
    | none => simp [bound, eventsFit_unmapped]
    | some p =>
      have same : mapped (some p) = Ksight.allocKsightBuf p := rfl
      simp only [bound, true_implies, same, eventsFit_mapped, Option.isSome_some, true_and]
  · rw [StartAnswers.ksightBufLeft, if_neg fun both => bound both.1]
    simp only [bound, eventsFit_null, false_implies]

theorem fits_iff {o : Settings} {s : StartAnswers} :
    a.fits o s.traceBufLeft (s.ksightBufLeft o) = true ↔ a.Inside o s := by
  rw [FiniAnswers.fits, Bool.and_eq_true, traceFits_iff]
  cases on : o.ksightOn with
  | false =>
    constructor
    · exact fun fits => ⟨fits.1.1, fits.1.2.1, fits.1.2.2, fun _ off => by rw [on] at off; cases off⟩
    · exact fun inside => ⟨⟨inside.unbound, inside.unmapped, inside.mapped⟩, rfl⟩
  | true =>
    rw [Bool.not_true, Bool.false_or, eventsFit_left_iff on]
    constructor
    · exact fun fits => ⟨fits.1.1, fits.1.2.1, fits.1.2.2, fun bound _ => fits.2 bound⟩
    · exact fun inside =>
        ⟨⟨inside.unbound, inside.unmapped, inside.mapped⟩, fun bound => inside.events bound on⟩

end

end Session

end Ultrasight
