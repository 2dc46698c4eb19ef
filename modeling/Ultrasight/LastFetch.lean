import Ultrasight.Reports
import Ultrasight.Signals

/-!
# The last fetch

The export of a session is complete if the fetcher fetched once more after the
sinks were disabled for good. It does so on its way out of `trace_sink_polling`,
which it enters when it finds `start_event` in the event variable. So what
matters is that it looks before `stop_trace` overwrites that event.
-/

namespace Ultrasight.Handshake

open Threads TraceState TraceEvent

variable {r : Ring}

/-- Every call succeeds. -/
def flawless : Action → Bool
  | .parent o | .fetcher o => o == .ok
  | .write _ | .exit _ | .takeStop | .sigstop | .sigcont | .wake _ => true

/-- A fetch succeeded after `disable_cs_trace(true)` had. The newest call comes
first. -/
def FetchedAfterStop (calls : List Call) : Prop :=
  ∃ newer last older, calls = newer ++ .fetchTrace last .ok :: older ∧
    .disableCsTrace true .ok ∈ older

theorem FetchedAfterStop.cons {calls : List Call} (h : FetchedAfterStop calls) (c : Call) :
    FetchedAfterStop (c :: calls) := by
  obtain ⟨newer, last, older, rfl, stopped⟩ := h
  exact ⟨c :: newer, last, older, rfl, stopped⟩

theorem FetchedAfterStop.stopped {calls : List Call} (h : FetchedAfterStop calls) :
    .disableCsTrace true .ok ∈ calls := by
  obtain ⟨newer, last, older, rfl, stopped⟩ := h
  exact List.mem_append_right _ (List.mem_cons_of_mem _ stopped)

/-- Only a fetch makes it true. -/
theorem fetchedAfterStop_cons {calls : List Call} {c : Call} (h : FetchedAfterStop (c :: calls))
    (other : ∀ last, c ≠ .fetchTrace last .ok) : FetchedAfterStop calls := by
  obtain ⟨newer, last, older, eq, stopped⟩ := h
  cases newer with
  | nil =>
    rw [List.nil_append, List.cons.injEq] at eq
    exact absurd eq.1 (other last)
  | cons c' newer =>
    rw [List.cons_append, List.cons.injEq] at eq
    exact ⟨newer, last, older, eq.2, stopped⟩

/-- After `disable_cs_trace(true)`. -/
def ParentPc.stopped : ParentPc → Bool
  | .disable p => match p with
    | .leave _ => true
    | .enter | .body => false
  | .set site _ => site == .stopTrace || site == .finiTrace
  | .join | .exportTrace | .cleanUp | .done => true
  | .setCpuAffinity | .enable _ | .detach | .waitpid | .branch => false

/-- The fetcher has found `start_event`. -/
def started (v : View r) : Bool :=
  v.mem.calls.contains .polling || v.fetcher == .wait .worker (.leave startEvent) ||
    v.fetcher == .received startEvent

/-- `stop_trace` does not assign its event before the fetcher found the start
event. -/
def seesStart (v : View r) : Action → Bool
  | .parent _ => match v.parent with
    | .set .stopTrace (.signal _ .assign) => started v
    | _ => true
  | _ => true

/-- Past the wait behind `killed`, or told to finish by the worker's wait. -/
def FetcherPc.late : FetcherPc → Bool
  | .wait .killed (.leave _) => true
  | .wait .worker (.leave e) | .received e => e == finiEvent
  | .work task _ => task == .lastFetch
  | .exit _ | .leave | .returned => true
  | .wait _ _ | .initPos | .alive | .offset | .stop | .cont | .resample | .nanosleep => false

/-- Past the last fetch, still in `trace_sink_polling`. -/
def FetcherPc.fetched : FetcherPc → Bool
  | .work task p => task == .lastFetch && match p with
    | .leave _ => true
    | .enter | .body => false
  | .exit _ => true
  | _ => false

/-- In `fetcher_worker`. -/
def FetcherPc.outside : FetcherPc → Bool
  | .wait reason _ => reason == .worker
  | .received _ | .leave | .returned => true
  | _ => false

structure Delivered (v : View r) : Prop where
  succeeded : ∀ o, v.parent = .disable (.leave o) → o = .ok
  worked : ∀ task o, v.fetcher = .work task (.leave o) → o = .ok
  stopped : .disableCsTrace true .ok ∈ v.mem.calls ↔ v.parent.stopped = true
  started : v.parent.announced = true → started v = true
  late : v.fetcher.late = true → v.parent.announced = true
  fetched : v.fetcher.fetched = true → FetchedAfterStop v.mem.calls
  polled : v.fetcher.outside = true → .polling ∈ v.mem.calls → FetchedAfterStop v.mem.calls
  returned : v.mem.fetcherReturned = true → v.fetcher = .returned
  joined : v.parent = .exportTrace → v.mem.fetcherReturned = true
  drained : FetchedAfterStop v.mem.calls → v.mem.etr.unread = 0

/-- What is announced was stopped before. -/
theorem announced_stopped {p : ParentPc} (h : p.announced = true) : p.stopped = true := by
  cases p with
  | set site p => cases site <;> first | rfl | cases h
  | join | exportTrace | cleanUp | done => rfl
  | setCpuAffinity | enable | detach | waitpid | branch | disable => cases h

theorem stopped_closing {p : ParentPc} (h : p.stopped = true) : p.closing = true := by
  cases p with
  | set site p => exact h
  | disable | join | exportTrace | cleanUp | done => rfl
  | setCpuAffinity | enable | detach | waitpid | branch => cases h

/-! ## The parent -/

/-- A step of the parent makes no call that counts for the fetcher, and puts
nothing into the ETR. -/
theorem ParentMove.log {m m' : Mem r} {p q : ParentPc} (h : ParentMove .ok m p m' q) :
    SameLog m m' ∨
      (∃ c, m'.calls = c :: m.calls ∧ c ≠ .polling ∧ ∀ last, c ≠ .fetchTrace last .ok) ∧
        (m'.etr = m.etr ∨ m'.etr = r.empty) ∧ m'.fetcherReturned = m.fetcherReturned := by
  cases h with
  | enableBody => exact .inr ⟨⟨_, rfl, by simp, by simp⟩, .inl rfl, rfl⟩
  | disableBody => exact .inr ⟨⟨_, rfl, by simp, by simp⟩, .inl rfl, rfl⟩
  | exportTrace => exact .inr ⟨⟨_, rfl, by simp, by simp⟩, .inl rfl, rfl⟩
  | cleanUp => exact .inr ⟨⟨_, rfl, by simp, by simp⟩, .inr rfl, rfl⟩
  | detach => exact .inl (detach_log m)
  | waitpid m' reported => exact .inl (waitpid_log reported)
  | _ => exact .inl ⟨rfl, rfl, rfl⟩

theorem ParentMove.stopped {m m' : Mem r} {p q : ParentPc} (h : ParentMove .ok m p m' q)
    (before : .disableCsTrace true .ok ∈ m.calls ↔ p.stopped = true) :
    .disableCsTrace true .ok ∈ m'.calls ↔ q.stopped = true := by
  cases h with
  | disableBody => exact ⟨fun _ => rfl, fun _ => List.mem_cons_self⟩
  | enableBody =>
    rw [Mem.enableCsTrace, Mem.log, List.mem_cons]
    exact (or_iff_right (by simp)).trans before
  | exportTrace =>
    rw [Mem.log, List.mem_cons]
    exact (or_iff_right (by simp)).trans before
  | cleanUp =>
    rw [Mem.log, List.mem_cons]
    exact (or_iff_right (by simp)).trans before
  | setLeave site => cases site <;> exact before
  | detach =>
    rw [(detach_log m).calls]
    exact before
  | waitpid m' reported =>
    rw [(waitpid_log reported).calls]
    exact before
  | _ => exact before

/-- An announcement begins where `stop_trace` assigns its event, or after a
failure to disable the trace. -/
theorem ParentMove.announces {o : Outcome} {m m' : Mem r} {p q : ParentPc} {f : FetcherPc}
    (signals : Signals ⟨m, p, f⟩) (h : ParentMove o m p m' q) (announced : q.announced = true) :
    p.announced = true ∨ (∃ e, p = .set .stopTrace (.signal e .assign)) ∨
      p = .disable (.leave .fail) := by
  cases h with
  | assign site e =>
    cases site with
    | stopTrace => exact .inr (.inl ⟨e, rfl⟩)
    | finiTrace => exact .inl rfl
    | initTrace | startTrace | suspendCallback | resumeCallback => cases announced
  | setSilent site old silent =>
    obtain ⟨notFini, notStop⟩ := signalled_finiTrace (signals.old site old rfl) silent
    simp [ParentPc.announced, notFini, notStop] at announced
  | setLeave site => cases site <;> first | exact .inl rfl | cases announced
  | notDisabled => exact .inr (.inr rfl)
  | _ => exact .inl announced

/-- It does not end. -/
theorem ParentMove.announced {o : Outcome} {m m' : Mem r} {p q : ParentPc}
    (h : ParentMove o m p m' q) (announced : p.announced = true) : q.announced = true := by
  cases h with
  | setSilent site old silent => cases site <;> first | rfl | cases announced
  | assign site e => cases site <;> first | rfl | cases announced
  | setLeave site => cases site <;> first | rfl | cases announced
  | _ => first | rfl | exact announced

theorem ParentMove.exporting {o : Outcome} {m m' : Mem r} {p : ParentPc}
    (h : ParentMove o m p m' .exportTrace) : m'.fetcherReturned = true := by
  generalize at_ : ParentPc.exportTrace = q at h
  cases h with
  | join returned => exact returned
  | setLeave site => cases site <;> cases at_
  | _ => cases at_

theorem ParentMove.disable_ok {m m' : Mem r} {p : ParentPc} {o : Outcome}
    (h : ParentMove .ok m p m' (.disable (.leave o))) : o = .ok := by
  generalize at_ : ParentPc.disable (.leave o) = q at h
  cases h with
  | disableBody => cases at_; rfl
  | setLeave site => cases site <;> cases at_
  | _ => cases at_

theorem delivered_parent {m m' : Mem r} {p q : ParentPc} {f : FetcherPc}
    (signals : Signals ⟨m, p, f⟩) (h : Delivered ⟨m, p, f⟩) (a : Outcome)
    (sees : seesStart ⟨m, p, f⟩ (.parent a) = true) (moved : ParentMove .ok m p m' q) :
    Delivered ⟨m', q, f⟩ := by
  have polling : .polling ∈ m'.calls ↔ .polling ∈ m.calls := by
    rcases moved.log with same | ⟨⟨c, calls, notPolling, _⟩, _, _⟩
    · rw [same.calls]
    · rw [calls, List.mem_cons]
      exact or_iff_right (Ne.symm notPolling)
  have grows : FetchedAfterStop m.calls → FetchedAfterStop m'.calls := by
    intro fetched
    rcases moved.log with same | ⟨⟨c, calls, _, _⟩, _, _⟩
    · rw [same.calls]
      exact fetched
    · rw [calls]
      exact fetched.cons c
  have returned : m'.fetcherReturned = m.fetcherReturned := by
    rcases moved.log with same | ⟨_, _, same⟩
    · exact same.returned
    · exact same
  have start : started ⟨m', q, f⟩ = started ⟨m, p, f⟩ := by
    simp only [started]
    congr 2
    rw [Bool.eq_iff_iff, List.contains_iff_mem, List.contains_iff_mem]
    exact polling
  refine ⟨?_, h.worked, moved.stopped h.stopped, ?_, fun late => moved.announced (h.late late),
    fun fetched => grows (h.fetched fetched), ?_, ?_, ?_, ?_⟩
  · rintro o rfl
    exact moved.disable_ok
  · intro announced
    rw [start]
    rcases moved.announces signals announced with before | ⟨e, rfl⟩ | rfl
    · exact h.started before
    · exact sees
    · cases h.succeeded _ rfl
  · intro outside polled
    exact grows (h.polled outside (polling.mp polled))
  · rw [returned]
    exact h.returned
  · rintro rfl
    exact moved.exporting
  · intro fetched
    rcases moved.log with same | ⟨⟨c, calls, _, notFetch⟩, etr, _⟩
    · rw [same.etr]
      rw [same.calls] at fetched
      exact h.drained fetched
    · rw [calls] at fetched
      have before := h.drained (fetchedAfterStop_cons fetched notFetch)
      rcases etr with etr | etr
      · rw [etr]
        exact before
      · rw [etr]
        rfl

/-! ## The fetcher -/

/-- The calls that the invariant is about. -/
def Call.counts : Call → Bool
  | .polling | .disableCsTrace true .ok | .fetchTrace _ .ok => true
  | _ => false

/-- At most one call was made, and not one that counts. -/
structure Uneventful (m m' : Mem r) : Prop where
  calls : m'.calls = m.calls ∨ ∃ c, m'.calls = c :: m.calls ∧ c.counts = false
  etr : m'.etr = m.etr
  returned : m'.fetcherReturned = m.fetcherReturned

theorem Uneventful.mem {m m' : Mem r} (h : Uneventful m m') {c : Call} (counts : c.counts = true) :
    c ∈ m'.calls ↔ c ∈ m.calls := by
  rcases h.calls with calls | ⟨c', calls, silent⟩
  · rw [calls]
  · rw [calls, List.mem_cons]
    apply or_iff_right
    rintro rfl
    rw [counts] at silent
    cases silent

theorem Uneventful.fetched {m m' : Mem r} (h : Uneventful m m') :
    FetchedAfterStop m'.calls ↔ FetchedAfterStop m.calls := by
  rcases h.calls with calls | ⟨c, calls, silent⟩
  · rw [calls]
  · rw [calls]
    refine ⟨fun fetched => fetchedAfterStop_cons fetched ?_, fun fetched => fetched.cons c⟩
    rintro last rfl
    cases silent

/-- A step of the fetcher that makes no call that counts. -/
theorem Delivered.fetcher {m m' : Mem r} {p : ParentPc} {f g : FetcherPc}
    (signals : Signals ⟨m, p, f⟩) (h : Delivered ⟨m, p, f⟩) (log : Uneventful m m')
    (worked : ∀ task o, g = .work task (.leave o) → o = .ok)
    (seen : f = .wait .worker (.leave startEvent) → g = .received startEvent)
    (start : f ≠ .received startEvent)
    (late : g.late = true → f.late = true ∨ m.traceEvent.last = true)
    (fetched : g.fetched = true → f.fetched = true)
    (outside : g.outside = true → f.outside = true ∨ f.fetched = true)
    (more : f ≠ .returned) : Delivered ⟨m', p, g⟩ := by
  refine ⟨h.succeeded, worked, (log.mem rfl).trans h.stopped, ?_, ?_, ?_, ?_, ?_, ?_, ?_⟩
  · intro announced
    have before := h.started announced
    simp only [Handshake.started, Bool.or_eq_true, beq_iff_eq, List.contains_iff_mem] at before ⊢
    rcases before with (polled | waits) | received
    · exact .inl (.inl ((log.mem rfl).mpr polled))
    · exact .inr (seen waits)
    · exact absurd received start
  · intro after
    rcases late after with before | last
    · exact h.late before
    · exact signals.last last
  · exact fun after => log.fetched.mpr (h.fetched (fetched after))
  · intro after polled
    rcases outside after with before | before
    · exact log.fetched.mpr (h.polled before ((log.mem rfl).mp polled))
    · exact log.fetched.mpr (h.fetched before)
  · intro returned
    exact absurd (h.returned (log.returned ▸ returned)) more
  · intro at_
    exact log.returned.trans (h.joined at_)
  · intro after
    show m'.etr.unread = 0
    rw [log.etr]
    exact h.drained (log.fetched.mp after)

/-- A step inside the polling loop, before the last fetch is due. -/
theorem Delivered.loop {m m' : Mem r} {p : ParentPc} {f g : FetcherPc}
    (signals : Signals ⟨m, p, f⟩) (h : Delivered ⟨m, p, f⟩) (log : Uneventful m m')
    (inside : f.outside = false ∧ g.outside = false) (early : g.late = false ∧ g.fetched = false)
    (worked : ∀ task o, g ≠ .work task (.leave o)) : Delivered ⟨m', p, g⟩ := by
  apply h.fetcher signals log
  · exact fun task o at_ => absurd at_ (worked task o)
  · rintro rfl
    cases inside.1
  · rintro rfl
    cases inside.1
  · simp [early.1]
  · simp [early.2]
  · simp [inside.2]
  · rintro rfl
    cases inside.1

theorem delivered_fetcher {threshold : BitVec 64} {m m' : Mem r} {p : ParentPc} {f g : FetcherPc}
    (signals : Signals ⟨m, p, f⟩) (h : Delivered ⟨m, p, f⟩)
    (moved : FetcherMove threshold .ok m f m' g) : Delivered ⟨m', p, g⟩ := by
  have same : Uneventful m m := ⟨.inl rfl, rfl, rfl⟩
  cases moved with
  | waitEnter reason | notFound reason | sleep reason =>
    refine h.fetcher signals same (by simp) (by simp) (by simp) ?_ (by simp [FetcherPc.fetched]) .inl
      (by simp)
    cases reason <;> exact .inl
  | found reason want =>
    refine h.fetcher signals same (by simp) (by simp) (by simp) ?_ (by simp [FetcherPc.fetched]) .inl
      (by simp)
    intro late
    cases reason with
    | worker =>
      have fini : m.traceEvent = finiEvent := by simpa [FetcherPc.late] using late
      exact .inr (by rw [fini]; rfl)
    | killed => exact .inr want
    | suspended | resumed => cases late
  | waitLeave reason e =>
    cases reason with
    | worker =>
      exact h.fetcher signals same (by simp [Wait.next]) (by simp [Wait.next]) (by simp) .inl
        (by simp [Wait.next, FetcherPc.fetched]) .inl (by simp)
    | suspended | resumed =>
      exact h.loop signals same ⟨rfl, rfl⟩ ⟨rfl, rfl⟩ (by simp [Wait.next])
    | killed =>
      exact h.fetcher signals same (by simp [Wait.next]) (by simp) (by simp) (fun _ => .inl rfl)
        (by simp [Wait.next, FetcherPc.fetched]) (by simp [Wait.next, FetcherPc.outside]) (by simp)
  | workLeave task o' =>
    cases h.worked task o' rfl
    cases task with
    | disable | fetch | enable =>
      exact h.loop signals same ⟨rfl, rfl⟩ ⟨rfl, rfl⟩ (by simp [Task.next])
    | lastFetch =>
      exact h.fetcher signals same (by simp [Task.next]) (by simp) (by simp) (fun _ => .inl rfl)
        (fun _ => rfl) (by simp [Task.next, FetcherPc.outside]) (by simp)
  | workEnter task =>
    exact h.fetcher signals same (by simp) (by simp) (by simp) .inl (by simp [FetcherPc.fetched])
      (by simp [FetcherPc.outside]) (by simp)
  | finished =>
    exact h.fetcher signals same (by simp) (by simp) (by simp) (fun _ => .inl rfl)
      (by simp [FetcherPc.fetched]) .inl (by simp)
  | neither e start fini =>
    exact h.fetcher signals same (by simp) (by simp) (by simpa using start) (by simp [FetcherPc.late])
      (by simp [FetcherPc.fetched]) .inl (by simp)
  | exitEnter | exitBroadcast =>
    exact h.fetcher signals same (by simp) (by simp) (by simp) .inl id
      (by simp [FetcherPc.outside]) (by simp)
  | exitLeave =>
    exact h.fetcher signals same (by simp) (by simp) (by simp) (by simp [FetcherPc.late])
      (by simp [FetcherPc.fetched]) (fun _ => .inr rfl) (by simp)
  | alive | gone | exceeded | within | nanosleep =>
    exact h.loop signals same ⟨rfl, rfl⟩ ⟨rfl, rfl⟩ (by simp)
  | initPos | resample =>
    have sampled : Uneventful m { m with initPos := m.etr.position } := ⟨.inl rfl, rfl, rfl⟩
    exact h.loop signals sampled ⟨rfl, rfl⟩ ⟨rfl, rfl⟩ (by simp)
  | exitAssign =>
    have ready : Uneventful m { m with fetcherReady := true } := ⟨.inl rfl, rfl, rfl⟩
    exact h.fetcher signals ready (by simp) (by simp) (by simp) .inl id
      (by simp [FetcherPc.outside]) (by simp)
  | stop ok there =>
    have log := sigstop_log .fetcher (m.log (.kill sigstop .ok))
    have killed : Uneventful m { (m.log (.kill sigstop .ok)).sigstop .fetcher with ret := 0 } :=
      ⟨.inr ⟨_, log.calls, rfl⟩, log.etr, log.returned⟩
    exact h.loop signals killed ⟨rfl, rfl⟩ ⟨rfl, rfl⟩ (by simp)
  | cont ok there =>
    have log := sigcont_log (m.log (.kill sigcont .ok))
    have killed : Uneventful m { (m.log (.kill sigcont .ok)).sigcont with ret := 0 } :=
      ⟨.inr ⟨_, log.calls, rfl⟩, log.etr, log.returned⟩
    exact h.loop signals killed ⟨rfl, rfl⟩ ⟨rfl, rfl⟩ (by simp)
  | notStopped none =>
    have killed : Uneventful m { m.log (.kill sigstop .fail) with ret := -1 } :=
      ⟨.inr ⟨_, rfl, rfl⟩, rfl, rfl⟩
    exact h.loop signals killed ⟨rfl, rfl⟩ ⟨rfl, rfl⟩ (by simp)
  | contGone ok reaped =>
    have killed : Uneventful m { m.log (.kill sigcont .fail) with ret := -1 } :=
      ⟨.inr ⟨_, rfl, rfl⟩, rfl, rfl⟩
    exact h.loop signals killed ⟨rfl, rfl⟩ ⟨rfl, rfl⟩ (by simp)
  | contFails fail => cases fail
  | started =>
    refine ⟨h.succeeded, by simp, ?_, ?_, by simp [FetcherPc.late], by simp [FetcherPc.fetched],
      by simp [FetcherPc.outside], ?_, h.joined, ?_⟩
    · rw [Mem.log, List.mem_cons]
      exact (or_iff_right (by simp)).trans h.stopped
    · intro announced
      simp [Handshake.started, Mem.log]
    · intro returned
      cases h.returned returned
    · intro fetched
      exact h.drained (fetchedAfterStop_cons fetched (by simp))
  | workBody task =>
    cases task with
    | disable =>
      have log : Uneventful m (Task.disable.work .ok m) := ⟨.inr ⟨_, rfl, rfl⟩, rfl, rfl⟩
      exact h.fetcher signals log (by simp) (by simp) (by simp) .inl (by simp [FetcherPc.fetched])
        (by simp [FetcherPc.outside]) (by simp)
    | enable =>
      have log : Uneventful m (Task.enable.work .ok m) := ⟨.inr ⟨_, rfl, rfl⟩, rfl, rfl⟩
      exact h.fetcher signals log (by simp) (by simp) (by simp) .inl (by simp [FetcherPc.fetched])
        (by simp [FetcherPc.outside]) (by simp)
    | fetch | lastFetch =>
      refine ⟨h.succeeded, by simp, ?_, ?_, h.late, ?_, by simp [FetcherPc.outside], ?_, h.joined,
        fun _ => rfl⟩
      · exact List.mem_cons.trans ((or_iff_right (by simp)).trans h.stopped)
      · intro announced
        have before := h.started announced
        simp only [Handshake.started, Bool.or_eq_true, beq_iff_eq, List.contains_iff_mem,
          reduceCtorEq, or_false] at before ⊢
        exact List.mem_cons_of_mem _ before
      · intro fetched
        simp only [FetcherPc.fetched, Bool.and_true] at fetched
        exact ⟨[], _, m.calls, rfl, h.stopped.mpr (announced_stopped (h.late fetched))⟩
      · intro returned
        cases h.returned returned
  | leave =>
    refine ⟨h.succeeded, by simp, h.stopped, ?_, fun _ => h.late rfl, by simp [FetcherPc.fetched],
      fun _ => h.polled rfl, fun _ => rfl, fun _ => rfl, h.drained⟩
    intro announced
    have before := h.started announced
    simpa [Handshake.started] using before

/-! ## Runs -/

/-- What is known of every view of a run. -/
structure Settled (v : View r) : Prop where
  reports : Reports v
  signals : Signals v

theorem settled {threshold : BitVec 64} {ok : System r → Action → Bool} {etr : r.Writer}
    {initPos : BitVec 64} {w : System r}
    (h : Reach (step threshold) ok (start etr initPos) w) : Settled (view w) :=
  ⟨reports h, signals h⟩

/-- A step of neither thread. -/
theorem Delivered.outside {v : View r} (h : Delivered v) {m : Mem r}
    (calls : m.calls = v.mem.calls) (returned : m.fetcherReturned = v.mem.fetcherReturned)
    (drained : FetchedAfterStop m.calls → m.etr.unread = 0) :
    Delivered ⟨m, v.parent, v.fetcher⟩ := by
  refine ⟨h.succeeded, h.worked, ?_, ?_, h.late, ?_, ?_, ?_, ?_, drained⟩
  · rw [calls]
    exact h.stopped
  · simpa [Handshake.started, calls] using h.started
  · rw [calls]
    exact h.fetched
  · rw [calls]
    exact h.polled
  · rw [returned]
    exact h.returned
  · rw [returned]
    exact h.joined

theorem delivered_move {threshold : BitVec 64} {v v' : View r} {a : Action}
    (known : Settled v) (h : Delivered v) (perfect : flawless a = true)
    (sees : seesStart v a = true) (moved : Move threshold v a v') : Delivered v' := by
  have outside : ∀ {m : Mem r}, SameLog v.mem m → Delivered ⟨m, v.parent, v.fetcher⟩ := by
    intro m same
    exact h.outside same.calls same.returned (by rw [same.calls, same.etr]; exact h.drained)
  cases moved with
  | still => exact h
  | parent o m' q moved =>
    obtain rfl : o = .ok := by simpa [flawless] using perfect
    exact delivered_parent known.signals h .ok sees moved
  | fetcher o m' q moved =>
    obtain rfl : o = .ok := by simpa [flawless] using perfect
    exact delivered_fetcher known.signals h moved
  | write n running =>
    -- once the trace is stopped the tracee is gone, so there is nothing to drain again
    apply h.outside (write_calls n v.mem) (write_returned n v.mem)
    rw [write_calls]
    intro after
    have gone := known.reports.closing (stopped_closing (h.stopped.mp after.stopped))
    rw [gone] at running
    cases running
  | exit | takeStop => exact outside ⟨rfl, rfl, rfl⟩
  | sigstop => exact outside (sigstop_log .other v.mem)
  | sigcont => exact outside (sigcont_log v.mem)

theorem delivered_start (etr : r.Writer) (initPos : BitVec 64) :
    Delivered (view (start etr initPos)) := by
  refine ⟨by simp [view, start, Ctl.point], by simp [view, start, Ctl.point], ?_, ?_, ?_, ?_, ?_, ?_,
    ?_, ?_⟩
  · simp [view, start, Ctl.point, ParentPc.stopped]
  · intro announced
    cases announced
  · intro late
    cases late
  · intro fetched
    cases fetched
  · intro _ polled
    cases polled
  · intro returned
    cases returned
  · intro at_
    cases at_
  · rintro ⟨newer, last, older, eq, _⟩
    cases newer <;> cases eq

end Ultrasight.Handshake
