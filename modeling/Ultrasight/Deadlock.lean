import Ultrasight.Critical
import Ultrasight.Reports

/-!
# Deadlock

The parent turns the report of a stop into `suspend_event`, but it looks for
the continuation among the stops, so `resume_event` is never signalled and a
fetch cycle never ends. Without a fetch cycle nothing blocks: whoever waits in
the handshake is woken, and the parent waits for the tracee or for the fetcher
only.
-/

namespace Ultrasight.Handshake

open Threads TraceState TraceEvent

variable {r : Ring}

/-- Only the two threads and the tracee act, their calls succeed, and the tracee
exits with status 0. -/
def threeParties : Action → Bool
  | .parent o | .fetcher o => o == .ok
  | .exit status => status == 0
  | .write _ | .takeStop | .wake _ => true
  | .sigstop | .sigcont => false

/-- The fetcher never sends its `SIGSTOP` to a tracee that is not reaped. -/
def noCycle (v : View r) : Action → Bool
  | .fetcher _ => v.fetcher != .stop || v.mem.tracee == .reaped
  | _ => true

/-- The parent has not let the tracee go yet. -/
def ParentPc.starting : ParentPc → Bool
  | .set site _ => site == .initTrace || site == .startTrace
  | .setCpuAffinity | .enable _ | .detach => true
  | .waitpid | .branch | .disable _ | .join | .exportTrace | .cleanUp | .done => false

/-- From the fetcher's `SIGSTOP` to the next sampling. -/
def FetcherPc.cycle : FetcherPc → Bool
  | .wait reason _ => reason == .suspended || reason == .resumed
  | .work task _ => task != .lastFetch
  | .cont | .resample => true
  | .received _ | .initPos | .alive | .offset | .stop | .nanosleep | .exit _ | .leave
  | .returned => false

structure Calm (v : View r) : Prop where
  succeeded : ∀ task o, v.fetcher = .work task (.leave o) → o = .ok
  cycle : v.fetcher.cycle = false
  unstopped : v.mem.tracee.stopOf = none
  traced : v.mem.tracee = .traced none → v.parent.starting = true
  ended : v.fetcher = .returned ↔ v.mem.fetcherReturned = true
  joined : v.parent = .exportTrace ∨ v.parent = .cleanUp ∨ v.parent = .done →
    v.mem.fetcherReturned = true

/-! ## The invariant -/

theorem ParentMove.returned {o : Outcome} {m m' : Mem r} {p q : ParentPc}
    (h : ParentMove o m p m' q) : m'.fetcherReturned = m.fetcherReturned := by
  cases h with
  | enableBody => exact enableCsTrace_returned o m
  | disableBody => exact disableCsTrace_returned true o m
  | detach => exact (detach_log m).returned
  | waitpid m' reported => exact (waitpid_log reported).returned
  | _ => rfl

theorem ParentMove.joined {o : Outcome} {m m' : Mem r} {p q : ParentPc}
    (h : ParentMove o m p m' q) (after : q = .exportTrace ∨ q = .cleanUp ∨ q = .done) :
    p = .exportTrace ∨ p = .cleanUp ∨ p = .done ∨ m.fetcherReturned = true := by
  cases h with
  | join returned => exact .inr (.inr (.inr returned))
  | exportTrace => exact .inl rfl
  | cleanUp => exact .inr (.inl rfl)
  | setLeave site => cases site <;> simp [Site.next] at after
  | _ => simp at after

/-- The start ends with the detach. -/
theorem ParentMove.starting {o : Outcome} {m m' : Mem r} {p q : ParentPc}
    (h : ParentMove o m p m' q) (starting : p.starting = true) :
    q.starting = true ∨ p = .detach ∧ m' = m.detach := by
  cases h with
  | detach => exact .inr ⟨rfl, rfl⟩
  | setLeave site => cases site <;> first | exact .inl rfl | cases starting
  | enableEnter | enableBody | enabled | notEnabled | bound | unbound => exact .inl rfl
  | _ => exact .inl starting

theorem calm_parent {m m' : Mem r} {p q : ParentPc} {f : FetcherPc} {o : Outcome}
    (h : Calm ⟨m, p, f⟩) (moved : ParentMove o m p m' q) : Calm ⟨m', q, f⟩ := by
  have tracee : m'.tracee = m.tracee ∨ m' = m.detach ∨ m'.tracee = .reaped := by
    rcases moved.process with same | ⟨_, _, detached⟩ | ⟨_, _, reported⟩
    · exact .inl same.tracee
    · exact .inr (.inl detached)
    · rcases waitpid_cases reported with ⟨w, rest, _, rfl⟩ | ⟨_, _, rfl⟩
      · cases final : terminated w with
        | true => exact .inr (.inr (by simp))
        | false => exact .inl (by simp)
      · exact .inl rfl
  refine ⟨h.succeeded, h.cycle, ?_, ?_, ?_, ?_⟩
  · show m'.tracee.stopOf = none
    rcases tracee with same | rfl | reaped
    · rw [same]
      exact h.unstopped
    · rw [detach_stopOf]
      exact h.unstopped
    · rw [reaped]
      rfl
  · intro traced
    have before : m.tracee = .traced none := by
      rcases tracee with same | rfl | reaped
      · exact same.symm.trans traced
      · exact absurd traced (detach_untraced m none)
      · rw [reaped] at traced
        cases traced
    rcases moved.starting (h.traced before) with starting | ⟨_, rfl⟩
    · exact starting
    · exact absurd traced (detach_untraced m none)
  · exact h.ended.trans (by rw [moved.returned])
  · intro after
    rw [moved.returned]
    rcases moved.joined after with at_ | at_ | at_ | returned
    · exact h.joined (.inl at_)
    · exact h.joined (.inr (.inl at_))
    · exact h.joined (.inr (.inr at_))
    · exact returned

/-- Without a `SIGSTOP` the fetcher stays out of the cycle. -/
theorem FetcherMove.calm {threshold : BitVec 64} {m m' : Mem r} {f g : FetcherPc}
    (h : FetcherMove threshold .ok m f m' g) (quiet : f = .stop → m.tracee = .reaped)
    (worked : ∀ task o, f = .work task (.leave o) → o = .ok) (before : f.cycle = false) :
    g.cycle = false ∧ SameProcess m m' ∧ (∀ task o, g = .work task (.leave o) → o = .ok) := by
  cases h with
  | stop ok there => exact absurd (quiet rfl) there
  | waitLeave reason e =>
    cases reason with
    | worker | killed => exact ⟨rfl, ⟨rfl, rfl, rfl⟩, by simp [Wait.next]⟩
    | suspended | resumed => cases before
  | workBody task => exact ⟨before, work_process task .ok m, by simp⟩
  | workLeave task o' =>
    cases worked task o' rfl
    cases task with
    | lastFetch => exact ⟨rfl, ⟨rfl, rfl, rfl⟩, by simp [Task.next]⟩
    | disable | fetch | enable => cases before
  | cont | contGone | resample => cases before
  | contFails fail => cases fail
  | waitEnter | found | notFound | sleep | workEnter =>
    exact ⟨before, ⟨rfl, rfl, rfl⟩, by simp⟩
  | _ => exact ⟨rfl, ⟨rfl, rfl, rfl⟩, by simp⟩

/-- The fetcher returns once. -/
theorem FetcherMove.returned {threshold : BitVec 64} {o : Outcome} {m m' : Mem r}
    {f g : FetcherPc} (h : FetcherMove threshold o m f m' g) :
    m'.fetcherReturned = m.fetcherReturned ∧ f ≠ .returned ∧ g ≠ .returned ∨
      g = .returned ∧ m'.fetcherReturned = true := by
  cases h with
  | leave => exact .inr ⟨rfl, rfl⟩
  | waitLeave reason e => cases reason <;> exact .inl ⟨rfl, by simp, by simp [Wait.next]⟩
  | workLeave task o' =>
    cases task <;> cases o' <;> exact .inl ⟨rfl, by simp, by simp [Task.next]⟩
  | workBody task => exact .inl ⟨work_returned task o m, by simp, by simp⟩
  | stop =>
    exact .inl ⟨(sigstop_log .fetcher (m.log (.kill sigstop .ok))).returned, by simp, by simp⟩
  | cont => exact .inl ⟨(sigcont_log (m.log (.kill sigcont .ok))).returned, by simp, by simp⟩
  | _ => exact .inl ⟨rfl, by simp, by simp⟩

theorem calm_move {threshold : BitVec 64} {v v' : View r} {a : Action} (h : Calm v)
    (party : threeParties a = true) (quiet : noCycle v a = true)
    (moved : Move threshold v a v') : Calm v' := by
  cases moved with
  | still => exact h
  | parent o m' q moved => exact calm_parent h moved
  | fetcher o m' q moved =>
    obtain rfl : o = .ok := by simpa [threeParties] using party
    have reaped : v.fetcher = .stop → v.mem.tracee = .reaped := by
      intro at_
      simpa [noCycle, at_] using quiet
    obtain ⟨cycle, same, worked⟩ := moved.calm reaped h.succeeded h.cycle
    refine ⟨worked, cycle, ?_, ?_, ?_, ?_⟩
    · rw [same.tracee]
      exact h.unstopped
    · rw [same.tracee]
      exact h.traced
    · rcases moved.returned with ⟨returned, before, after⟩ | ⟨after, returned⟩
      · rw [returned, ← h.ended]
        exact ⟨fun at_ => absurd at_ after, fun at_ => absurd at_ before⟩
      · exact ⟨fun _ => returned, fun _ => after⟩
    · intro at_
      rcases moved.returned with ⟨returned, _, _⟩ | ⟨_, returned⟩
      · exact returned.trans (h.joined at_)
      · exact returned
  | write n running =>
    have same := write_process n v.mem
    refine ⟨h.succeeded, h.cycle, ?_, ?_, ?_, ?_⟩
    · rw [same.tracee]
      exact h.unstopped
    · rw [same.tracee]
      exact h.traced
    · rw [write_returned]
      exact h.ended
    · rw [write_returned]
      exact h.joined
  | exit status running final =>
    exact ⟨h.succeeded, h.cycle, rfl, by simp [Mem.exit], h.ended, h.joined⟩
  | takeStop sender running =>
    have none := h.unstopped
    rw [running] at none
    cases none
  | sigstop => cases party
  | sigcont => cases party

/-! ## Progress -/

/-- A step that one of the three parties can take by itself. -/
def proceeds : Action → Bool
  | .parent o | .fetcher o => o == .ok
  | .exit status => status == 0
  | .write _ | .takeStop => true
  | .sigstop | .sigcont | .wake _ => false

/-- Someone is not done, and nobody can go on. -/
def Stuck (threshold : BitVec 64) (w : System r) : Prop :=
  ¬ ((view w).parent = .done ∧ (view w).fetcher = .returned) ∧
    ∀ a, proceeds a = true → step threshold w a = none

/-- What can hold up the parent. -/
theorem parent_blocked {p : ParentPc} {m : Mem r} (h : (parentCode p).after .ok m = none) :
    p = .done ∨ p = .waitpid ∧ m.waitpid = none ∨ p = .join ∧ m.fetcherReturned = false := by
  cases p with
  | set site p =>
    cases p with
    | signal e p => cases p <;> cases h
    | enter | read | write | leave => cases h
  | enable p | disable p => cases p <;> cases h
  | waitpid => exact .inr (.inl ⟨rfl, Option.map_eq_none_iff.mp h⟩)
  | join =>
    refine .inr (.inr ⟨rfl, ?_⟩)
    simpa [parentCode, Instr.after] using h
  | done => exact .inl rfl
  | setCpuAffinity | detach | branch | exportTrace | cleanUp => cases h

theorem fetcher_blocked {threshold : BitVec 64} {f : FetcherPc} {m : Mem r}
    (h : (fetcherCode threshold f).after .ok m = none) : f = .returned := by
  cases f with
  | wait reason p => cases p <;> cases h
  | work task p => cases p <;> cases h
  | exit p => cases p <;> cases h
  | returned => rfl
  | received | initPos | alive | offset | stop | cont | resample | nanosleep | leave => cases h

/-- A parent that waits in vain waits for a tracee that is still there. -/
theorem waitpid_blocked {m : Mem r} (h : m.waitpid = none) :
    m.statuses = [] ∧ m.tracee ≠ .reaped := by
  unfold Mem.waitpid at h
  split at h
  · cases h
  · rename_i none
    split at h
    · cases h
    · rename_i there
      exact ⟨none, there⟩

theorem calm_start (etr : r.Writer) (initPos : BitVec 64) : Calm (view (start etr initPos)) := by
  refine ⟨?_, rfl, rfl, fun _ => rfl, ?_, ?_⟩
  · intro task o at_
    cases at_
  · constructor
    · intro at_
      cases at_
    · intro returned
      cases returned
  · rintro (at_ | at_ | at_) <;> cases at_

/-- **Without a fetch cycle the handshake never gets stuck.** In every run of
the three parties in which the fetcher sends its `SIGSTOP` at most to a tracee
that is already reaped, it stays out of the waits of the cycle, and one of the
three can go on until the parent has left its loop and the fetcher returned. -/
theorem never_stuck (threshold : BitVec 64) (etr : r.Writer) (initPos : BitVec 64) (w : System r)
    (h : Reach (step threshold) (fun w a => threeParties a && noCycle (view w) a)
      (start etr initPos) w) :
    (view w).fetcher.cycle = false ∧ ¬ Stuck threshold w := by
  have calm : Calm (view w) := by
    refine view_invariant (calm_start etr initPos) ?_ h
    intro u a v' calm allowed moved
    obtain ⟨party, quiet⟩ := Bool.and_eq_true_iff.mp allowed
    exact calm_move calm party quiet moved
  refine ⟨calm.cycle, ?_⟩
  rintro ⟨unfinished, blocked⟩
  obtain ⟨guarded, wakeful⟩ := orderly h
  have still : ∀ t, fire (code r threshold) t .ok w = none := by
    intro t
    cases t with
    | parent => exact blocked (.parent .ok) rfl
    | fetcher => exact blocked (.fetcher .ok) rfl
  have stays := blocked_cases (discipline threshold) (ordered threshold) rank_bounded guarded
    wakeful still
  have fetcher : (view w).fetcher = .returned ∨
      ∃ reason p, (view w).fetcher = .wait reason p ∧ reason.wanted w.mem.traceEvent = false := by
    rcases stays .fetcher with ⟨c, m, q, sleeps, unwanted⟩ | ⟨f, here, none⟩
    · obtain ⟨p₀, waiting⟩ := wakeful.waits .fetcher c m q sleeps
      obtain ⟨_, _, reason, _, rfl⟩ := fetcherCode_wait waiting
      exact .inr ⟨reason, .test, by simp [view, sleeps, Ctl.point], unwanted⟩
    · refine .inl ?_
      rw [← fetcher_blocked none]
      simp [view, here, Ctl.point]
  rcases stays .parent with ⟨c, m, q, sleeps, _⟩ | ⟨p, here, none⟩
  · obtain ⟨p₀, waiting⟩ := wakeful.waits .parent c m q sleeps
    exact parentCode_wait waiting
  · have at_ : (view w).parent = p := by simp [view, here, Ctl.point]
    rcases parent_blocked none with rfl | ⟨rfl, nothing⟩ | ⟨rfl, notReturned⟩
    · -- the parent is done: it has joined the fetcher
      exact unfinished ⟨at_, calm.ended.mpr (calm.joined (.inr (.inr at_)))⟩
    · -- the parent waits for the tracee: it is running, so it can exit
      obtain ⟨empty, there⟩ := waitpid_blocked nothing
      have unstopped : w.mem.tracee.stopOf = .none := calm.unstopped
      have running : w.mem.tracee.runs = true := by
        cases tracee : w.mem.tracee with
        | running => rfl
        | reaped => exact absurd tracee there
        | stopped sender =>
          rw [tracee] at unstopped
          cases unstopped
        | zombie status =>
          obtain ⟨alive, _, eq⟩ := (reports h).memory.statuses
          rw [show (view w).mem.statuses = [] from empty,
            show (view w).mem.tracee = .zombie status from tracee] at eq
          simp [Tracee.report] at eq
        | traced pending =>
          cases pending with
          | some sender =>
            rw [tracee] at unstopped
            cases unstopped
          | none =>
            have starting := calm.traced tracee
            rw [at_] at starting
            cases starting
      have exits := blocked (.exit 0) rfl
      simp [step, running, show terminated 0 = true from rfl] at exits
    · -- the parent joins the fetcher: it has been told to finish, and nothing else holds it up
      have final : w.mem.traceEvent = finiEvent := (signals h).fini (by rw [at_]; rfl)
      rcases fetcher with returned | ⟨reason, p, waits, unwanted⟩
      · have flag : w.mem.fetcherReturned = true := calm.ended.mp returned
        rw [flag] at notReturned
        cases notReturned
      · have cycle := calm.cycle
        rw [waits] at cycle
        rw [final] at unwanted
        cases reason with
        | worker | killed => cases unwanted
        | suspended | resumed => cases cycle

/-- A whole session without a fetch cycle, one step before its end. -/
theorem never_stuck_session : ∃ w : System Polling.defaultRing,
    Reach (step Polling.defaultThreshold) (fun w a => threeParties a && noCycle (view w) a)
      (start Polling.defaultRing.empty 0) w ∧
    (view w).parent = .cleanUp ∧ (view w).fetcher.cycle = false ∧
    ¬ Stuck Polling.defaultThreshold w := by
  have replay : (exec (step Polling.defaultThreshold)
      (fun w a => threeParties a && noCycle (view w) a) (start Polling.defaultRing.empty 0)
      (opening ++ [.write 0x1800] ++ List.replicate 3 (.fetcher .ok) ++ closingDown ++
        List.replicate 16 (.fetcher .ok) ++ List.replicate 2 (.parent .ok))).any
      (fun w => (view w).parent == .cleanUp) = true := by
    decide +kernel
  obtain ⟨w, reached, test⟩ := reach_of_exec replay
  exact ⟨w, reached, by simpa using test, never_stuck _ _ _ w reached⟩

/-- One fetch cycle, after which the fetcher waits for `resume_event`: the parent
ignores the continuation, and when the tracee has exited it joins the fetcher. -/
theorem stuck_after_cycle : ∃ w : System Polling.defaultRing,
    Reach (step Polling.defaultThreshold) (fun _ a => threeParties a)
      (start Polling.defaultRing.empty 0) w ∧
    (view w).parent = .join ∧ (view w).fetcher = .wait .resumed .test ∧
    Stuck Polling.defaultThreshold w := by
  have replay : (exec (step Polling.defaultThreshold) (fun _ a => threeParties a)
      (start Polling.defaultRing.empty 0)
      (opening ++ [.write 0x3000] ++ List.replicate 3 (.fetcher .ok) ++ [.takeStop] ++
        List.replicate 10 (.parent .ok) ++ List.replicate 16 (.fetcher .ok) ++
        List.replicate 2 (.parent .ok) ++ closingDown ++ List.replicate 3 (.fetcher .ok))).any
      (fun w => ((view w).parent == .join) && ((view w).fetcher == .wait .resumed .test) &&
        (w.mem.tracee == .reaped) && (step Polling.defaultThreshold w (.parent .ok)).isNone &&
        (step Polling.defaultThreshold w (.fetcher .ok)).isNone) = true := by
    decide +kernel
  obtain ⟨w, reached, test⟩ := reach_of_exec replay
  simp only [Bool.and_eq_true, beq_iff_eq, Option.isNone_iff_eq_none] at test
  obtain ⟨⟨⟨⟨parent, fetcher⟩, reaped⟩, parentBlocked⟩, fetcherBlocked⟩ := test
  refine ⟨w, reached, parent, fetcher, by simp [parent], ?_⟩
  intro a able
  cases a with
  | parent o =>
    obtain rfl : o = .ok := by simpa [proceeds] using able
    exact parentBlocked
  | fetcher o =>
    obtain rfl : o = .ok := by simpa [proceeds] using able
    exact fetcherBlocked
  | write n => simp [step, reaped, Tracee.runs]
  | exit status => simp [step, reaped, Tracee.runs]
  | takeStop => simp [step, reaped, Mem.takeStop]
  | sigstop | sigcont | wake => cases able

end Ultrasight.Handshake
