import Ultrasight.Moves

/-!
# What the parent is told about the tracee

A running, stopped or traced child has only stops and continuations to report;
the termination status is the last one, and reading it reaps the child. So the
parent is past its exit branch only when the tracee is gone.
-/

namespace Ultrasight.Handshake

open Threads TraceState TraceEvent

variable {r : Ring}

/-- The termination status still to be reported. -/
def Tracee.report : Tracee → List Nat
  | .zombie status => [status]
  | .traced _ | .running _ | .stopped _ | .reaped => []

/-- The statuses in the order in which the parent will read them. -/
structure Reported (m : Mem r) : Prop where
  statuses : ∃ alive, (∀ w ∈ alive, terminated w = false) ∧ m.statuses = alive ++ m.tracee.report
  final : ∀ status, m.tracee = .zombie status → terminated status = true

theorem terminated_stop : terminated (stopStatus sigstop) = false := by decide

theorem terminated_continued : terminated continuedStatus = false := by decide

/-! ## The operations on the tracee -/

theorem Reported.same {m m' : Mem r} (h : Reported m) (tracee : m'.tracee = m.tracee)
    (statuses : m'.statuses = m.statuses) : Reported m' :=
  ⟨by rw [tracee, statuses]; exact h.statuses, by rw [tracee]; exact h.final⟩

/-- One more report of a live child. -/
theorem Reported.snoc {m m' : Mem r} (h : Reported m) (live : m.tracee.report = [])
    {status : Nat} (alive : terminated status = false) (statuses : m'.statuses = m.statuses ++ [status])
    (live' : m'.tracee.report = []) : Reported m' := by
  obtain ⟨before, all, eq⟩ := h.statuses
  constructor
  · refine ⟨before ++ [status], ?_, by rw [statuses, eq, live, live']; simp⟩
    intro w hw
    rcases List.mem_append.mp hw with hw | hw
    · exact all w hw
    · rw [List.mem_singleton.mp hw]
      exact alive
  · intro w zombie
    rw [zombie] at live'
    cases live'

theorem Reported.sigstop {m : Mem r} (h : Reported m) (sender : Sender) :
    Reported (m.sigstop sender) := by
  unfold Mem.sigstop
  split
  · rename_i traced
    exact ⟨by simpa [traced, Tracee.report] using h.statuses, by simp⟩
  · rename_i running
    exact ⟨by simpa [running, Tracee.report] using h.statuses, by simp⟩
  · exact h
  · exact h
  · exact h
  · exact h
  · exact h

theorem Reported.stop {m : Mem r} (h : Reported m) {pending : Option Sender}
    (running : m.tracee = .running pending) (sender : Sender) : Reported (m.stop sender) :=
  h.snoc (by rw [running]; rfl) terminated_stop rfl rfl

theorem Reported.sigcont {m : Mem r} (h : Reported m) : Reported m.sigcont := by
  unfold Mem.sigcont
  split
  · rename_i traced
    exact ⟨by simpa [traced, Tracee.report] using h.statuses, by simp⟩
  · rename_i running
    exact ⟨by simpa [running, Tracee.report] using h.statuses, by simp⟩
  · rename_i stopped
    exact h.snoc (by rw [stopped]; rfl) terminated_continued rfl rfl
  · exact h
  · exact h

theorem Reported.detach {m : Mem r} (h : Reported m) : Reported m.detach := by
  unfold Mem.detach
  split
  · rename_i traced
    exact ⟨by simpa [traced, Tracee.report] using h.statuses, by simp⟩
  · exact h
  · exact h
  · exact h
  · exact h

theorem Reported.exit {m : Mem r} (h : Reported m) (running : m.tracee.runs = true) {status : Nat}
    (final : terminated status = true) : Reported (m.exit status) := by
  obtain ⟨before, all, eq⟩ := h.statuses
  obtain ⟨pending, running⟩ := runs_cases running
  rw [running, Tracee.report, List.append_nil] at eq
  constructor
  · exact ⟨before, all, by simp [Mem.exit, Tracee.report, eq]⟩
  · intro w zombie
    cases zombie
    exact final

/-- Reading a report: the child is reaped with its termination status, and no
other status changes its state. -/
theorem Reported.waitpid {m m' : Mem r} (h : Reported m) (reported : m.waitpid = some m') :
    Reported m' ∧ (terminated m'.wstatus = true → m'.tracee = .reaped) ∧
      (m.tracee.report = [] → m'.tracee = m.tracee) := by
  obtain ⟨before, all, eq⟩ := h.statuses
  rcases waitpid_cases reported with ⟨w, rest, statuses, rfl⟩ | ⟨_, gone, rfl⟩
  · rw [statuses] at eq
    cases before with
    | nil =>
      cases zombie : m.tracee with
      | zombie status =>
        rw [zombie] at eq
        obtain ⟨rfl, rfl⟩ : w = status ∧ rest = [] := by simpa [Tracee.report] using eq
        have final := h.final w zombie
        exact ⟨⟨⟨[], by simp, by simp [final, Tracee.report]⟩, by simp [final]⟩, by simp [final],
          by simp [Tracee.report]⟩
      | traced | running | stopped | reaped => rw [zombie] at eq; cases eq
    | cons w' before =>
      rw [List.cons_append, List.cons.injEq] at eq
      obtain ⟨rfl, rfl⟩ := eq
      have alive := all w List.mem_cons_self
      refine ⟨⟨⟨before, fun x hx => all x (List.mem_cons_of_mem w hx), by simp [alive]⟩, ?_⟩,
        by simp [alive], by simp [alive]⟩
      simpa [alive] using h.final
  · exact ⟨h, fun _ => gone, fun _ => rfl⟩

theorem sigstop_reaped {m : Mem r} (reaped : m.tracee = .reaped) (sender : Sender) :
    m.sigstop sender = m := by simp [Mem.sigstop, reaped]

theorem sigstop_gone {m : Mem r} (sender : Sender) (h : (m.sigstop sender).tracee = .reaped) :
    m.tracee = .reaped := by
  unfold Mem.sigstop at h
  split at h <;> first | exact h | cases h

theorem detach_reaped {m : Mem r} (h : m.detach.tracee = .reaped) : m.tracee = .reaped := by
  unfold Mem.detach at h
  split at h <;> first | exact h | cases h

theorem sigcont_reaped {m : Mem r} (reaped : m.tracee = .reaped) : m.sigcont = m := by
  simp [Mem.sigcont, reaped]

/-! ## The moves -/

/-- The parent changes the state of the tracee by a detach or a wait only. -/
theorem ParentMove.process {o : Outcome} {m m' : Mem r} {p q : ParentPc}
    (h : ParentMove o m p m' q) :
    SameProcess m m' ∨ p = .detach ∧ q = .waitpid ∧ m' = m.detach ∨
      p = .waitpid ∧ q = .branch ∧ m.waitpid = some m' := by
  cases h with
  | detach => exact .inr (.inl ⟨rfl, rfl, rfl⟩)
  | waitpid m' reported => exact .inr (.inr ⟨rfl, rfl, reported⟩)
  | enableBody => exact .inl (enableCsTrace_process o m)
  | disableBody => exact .inl (disableCsTrace_process true o m)
  | _ => exact .inl ⟨rfl, rfl, rfl⟩

/-- The fetcher changes it by its two signals only. -/
theorem FetcherMove.process {threshold : BitVec 64} {o : Outcome} {m m' : Mem r}
    {p q : FetcherPc} (h : FetcherMove threshold o m p m' q) :
    SameProcess m m' ∨
      p = .stop ∧ q = .wait .suspended .enter ∧ m.tracee ≠ .reaped ∧
        SameProcess (m.sigstop .fetcher) m' ∨
      p = .cont ∧ q = .wait .resumed .enter ∧ m.tracee ≠ .reaped ∧ SameProcess m.sigcont m' := by
  cases h with
  | stop ok there =>
    refine .inr (.inl ⟨rfl, rfl, there, ?_⟩)
    unfold Mem.sigstop Mem.log
    dsimp only
    split <;> exact ⟨rfl, rfl, rfl⟩
  | cont ok there =>
    refine .inr (.inr ⟨rfl, rfl, there, ?_⟩)
    unfold Mem.sigcont Mem.log
    dsimp only
    split <;> exact ⟨rfl, rfl, rfl⟩
  | workBody task => exact .inl (work_process task o m)
  | _ => exact .inl ⟨rfl, rfl, rfl⟩

/-- `stop_trace` and everything after it. -/
def ParentPc.closing : ParentPc → Bool
  | .set site _ => site == .stopTrace || site == .finiTrace
  | .disable _ | .join | .exportTrace | .cleanUp | .done => true
  | .setCpuAffinity | .enable _ | .detach | .waitpid | .branch => false

/-- Closing begins with the exit branch and does not end. -/
theorem ParentMove.closing {o : Outcome} {m m' : Mem r} {p q : ParentPc}
    (h : ParentMove o m p m' q) (closing : q.closing = true) :
    p.closing = true ∨ p = .branch ∧ m' = m ∧ dispatch true m.wstatus = .finish := by
  cases h with
  | finish final => exact .inr ⟨rfl, rfl, final⟩
  | setLeave site => cases site <;> first | exact .inl rfl | cases closing
  | enabled | suspend | resume => cases closing
  | _ => exact .inl closing

/-- The tests on `wstatus` follow a wait. -/
theorem ParentMove.branch {o : Outcome} {m m' : Mem r} {p : ParentPc}
    (h : ParentMove o m p m' .branch) : m.waitpid = some m' := by
  generalize at_ : ParentPc.branch = q at h
  cases h with
  | waitpid m' reported => exact reported
  | setLeave site => cases site <;> cases at_
  | _ => cases at_

structure Reports (v : View r) : Prop where
  memory : Reported v.mem
  branch : v.parent = .branch → terminated v.mem.wstatus = true → v.mem.tracee = .reaped
  closing : v.parent.closing = true → v.mem.tracee = .reaped

/-- Nobody but the parent needs to be watched once the tracee is gone. -/
theorem Reports.other {v : View r} (h : Reports v) {m : Mem r} {q : FetcherPc}
    (memory : Reported m) (wstatus : m.wstatus = v.mem.wstatus)
    (gone : v.mem.tracee = .reaped → m.tracee = .reaped) : Reports ⟨m, v.parent, q⟩ :=
  ⟨memory, fun at_ read => gone (h.branch at_ (wstatus ▸ read)), fun closed => gone (h.closing closed)⟩

theorem Reported.like {m m' : Mem r} (h : Reported m) (same : SameProcess m m') : Reported m' :=
  h.same same.tracee same.statuses

/-- Every step keeps the reports in order. -/
theorem reports_move {threshold : BitVec 64} {v v' : View r} {a : Action} (h : Reports v)
    (moved : Move threshold v a v') : Reports v' := by
  cases moved with
  | still => exact h
  | parent o m' q moved =>
    refine ⟨?_, ?_, ?_⟩
    · rcases moved.process with same | ⟨_, _, rfl⟩ | ⟨_, _, reported⟩
      · exact h.memory.like same
      · exact h.memory.detach
      · exact (h.memory.waitpid reported).1
    · rintro rfl read
      exact (h.memory.waitpid moved.branch).2.1 read
    · intro closed
      have reaped : v.mem.tracee = .reaped := by
        rcases moved.closing closed with before | ⟨at_, _, final⟩
        · exact h.closing before
        · apply h.branch at_
          rw [(dispatch_finish_iff _ _).mp final]
          rfl
      rcases moved.process with same | ⟨_, rfl, _⟩ | ⟨_, rfl, _⟩
      · rw [same.tracee]
        exact reaped
      · cases closed
      · cases closed
  | fetcher o m' q moved =>
    rcases moved.process with same | ⟨_, _, there, same⟩ | ⟨_, _, there, same⟩
    · exact h.other (h.memory.like same) same.wstatus fun gone => same.tracee.trans gone
    · exact h.other ((h.memory.sigstop .fetcher).like same)
        (same.wstatus.trans (sigstop_wstatus _ _)) fun gone => absurd gone there
    · exact h.other (h.memory.sigcont.like same) (same.wstatus.trans (sigcont_wstatus _))
        fun gone => absurd gone there
  | write n running =>
    have same := write_process n v.mem
    exact h.other (h.memory.like same) same.wstatus fun gone => same.tracee.trans gone
  | exit status running final =>
    exact h.other (h.memory.exit running final) rfl fun gone => by rw [gone] at running; cases running
  | takeStop sender running =>
    exact h.other (h.memory.stop running sender) rfl fun gone => by rw [running] at gone; cases gone
  | sigstop =>
    exact h.other (h.memory.sigstop .other) (sigstop_wstatus _ _) fun gone => by
      rw [sigstop_reaped gone]; exact gone
  | sigcont =>
    exact h.other h.memory.sigcont (sigcont_wstatus _) fun gone => by
      rw [sigcont_reaped gone]; exact gone

theorem reports_start (etr : r.Writer) (initPos : BitVec 64) :
    Reports (view (start etr initPos)) :=
  ⟨⟨⟨[], by simp, rfl⟩, by simp [view, start]⟩, by simp [view, start, Ctl.point],
    by simp [view, start, Ctl.point, ParentPc.closing]⟩

theorem reports {threshold : BitVec 64} {ok : System r → Action → Bool} {etr : r.Writer}
    {initPos : BitVec 64} {w : System r}
    (h : Reach (step threshold) ok (start etr initPos) w) : Reports (view w) :=
  view_invariant (reports_start etr initPos) (fun _ _ _ inv _ moved => reports_move inv moved) h

end Ultrasight.Handshake
