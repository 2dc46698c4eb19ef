import Ultrasight.Critical
import Ultrasight.Reports
import Ultrasight.Signals

/-!
# One polling run and one final fetch

The parent may be told anything about the tracee here, so that its loop makes
any callbacks (`freeStep`). Nevertheless `start_event` is signalled once: the
state leaves `ready_state` once before the trace is stopped. And the polling
function is left with another event in the slot, so the worker never finds
`start_event` again.
-/

namespace Ultrasight.Handshake

open Threads TraceState TraceEvent

variable {r : Ring}

/-- The steps of the handshake, and any status for the next `waitpid`. -/
inductive FreeAction where
  | own (a : Action)
  | report (status : Nat)

def freeStep (fetchThreshold : BitVec 64) (w : System r) : FreeAction → Option (System r)
  | .own a => step fetchThreshold w a
  | .report status => some (w.store { w.mem with statuses := w.mem.statuses ++ [status] })

/-! ## `start_event` -/

/-- Before the assignment of `start_event`. -/
def ParentPc.startPending : ParentPc → Bool
  | .set _ (.signal e p) => e == startEvent && (p == .enter || p == .assign)
  | _ => false

/-- At the write of a state. -/
def ParentPc.writing : ParentPc → Bool
  | .set _ (.write _) => true
  | _ => false

/-- `start_event` may still be assigned. -/
def startable (m : Mem r) (p : ParentPc) : Bool :=
  p.startPending || !p.closing && (m.traceState == initState || m.traceState == readyState)

structure Starts (m : Mem r) (p : ParentPc) : Prop where
  old : ∀ site old, p = .set site (.write old) → old = m.traceState
  pending : p.startPending = true → m.traceState = runningState
  event : m.traceEvent = startEvent → startable m p = false

theorem false_of_back {a b : Bool} (back : a = true → b = true) (none : b = false) : a = false := by
  cases a with
  | false => rfl
  | true => rw [back rfl] at none; cases none

theorem startPending_startable {m : Mem r} {p : ParentPc} (h : p.startPending = true) :
    startable m p = true := by rw [startable, h, Bool.true_or]

/-- Only the write of a state makes `start_event` pending, and that write finds
the trace ready. -/
theorem signalled_start {old new : TraceState} (h : signalled old new = some startEvent) :
    old = readyState ∧ new = runningState := by
  cases old <;> cases new <;> first | exact ⟨rfl, rfl⟩ | cases h

/-- A move that leaves the trace alone and does not make `start_event` pending. -/
theorem startable_same {m m' : Mem r} {p q : ParentPc} (same : SameTrace m m')
    (pending : q.startPending = true → p.startPending = true)
    (closing : q.closing = false → p.closing = false) (after : startable m' q = true) :
    startable m p = true := by
  simp only [startable, Bool.or_eq_true, Bool.and_eq_true, Bool.not_eq_true', same.state] at after ⊢
  rcases after with first | ⟨opened, state⟩
  · exact .inl (pending first)
  · exact .inr ⟨closing opened, state⟩

/-- What a step of the parent does to all this. -/
structure StartStep (m : Mem r) (p : ParentPc) (m' : Mem r) (q : ParentPc) : Prop where
  starts : Starts m' q
  back : startable m' q = true → startable m p = true

theorem Starts.same {m m' : Mem r} {p : ParentPc} (h : Starts m p) (same : SameTrace m m') :
    StartStep m p m' p := by
  have back := @startable_same r m m' p p same id id
  refine ⟨⟨?_, ?_, ?_⟩, back⟩
  · rw [same.state]
    exact h.old
  · rw [same.state]
    exact h.pending
  · rw [same.event]
    exact fun start => false_of_back back (h.event start)

theorem Starts.goto {m m' : Mem r} {p q : ParentPc} (h : Starts m p) (same : SameTrace m m')
    (elsewhere : q.writing = false)
    (pending : q.startPending = true → p.startPending = true)
    (closing : q.closing = false → p.closing = false) : StartStep m p m' q := by
  have back := @startable_same r m m' p q same pending closing
  refine ⟨⟨?_, ?_, ?_⟩, back⟩
  · rintro site old rfl
    cases elsewhere
  · rw [same.state]
    exact fun first => h.pending (pending first)
  · rw [same.event]
    intro start
    exact false_of_back back (h.event start)

/-- A move to a point from which `start_event` is not assigned at once. -/
theorem Starts.pass {m m' : Mem r} {p q : ParentPc} (h : Starts m p) (same : SameTrace m m')
    (elsewhere : q.writing = false) (silent : q.startPending = false)
    (closing : q.closing = false → p.closing = false) : StartStep m p m' q := by
  apply h.goto same elsewhere _ closing
  intro pending
  rw [silent] at pending
  cases pending

/-- A write of the state from which `start_event` can still follow was one before
which it could. -/
theorem startable_write {m m' : Mem r} {site : Site} {old : TraceState} {p : SetPc}
    (before : old = m.traceState) (init : old = initState ↔ site = .initTrace)
    (written : m'.traceState = site.state)
    (pending : (ParentPc.set site p).startPending = true → signalled old site.state = some startEvent)
    (after : startable m' (.set site p) = true) : startable m (.set site (.write old)) = true := by
  simp only [startable, Bool.or_eq_true, Bool.and_eq_true, Bool.not_eq_true', beq_iff_eq,
    written] at after ⊢
  right
  rcases after with first | ⟨opened, state⟩
  · obtain ⟨ready, running⟩ := signalled_start (pending first)
    refine ⟨?_, .inr (before.symm.trans ready)⟩
    cases site <;> first | rfl | cases running
  · refine ⟨opened, .inl (before.symm.trans (init.mpr ?_))⟩
    cases site with
    | initTrace => rfl
    | startTrace | suspendCallback | resumeCallback => rcases state with state | state <;> cases state
    | stopTrace | finiTrace => cases opened

theorem starts_parent {m m' : Mem r} {p q : ParentPc} {f : FetcherPc} {o : Outcome}
    (known : Signals ⟨m, p, f⟩) (h : Starts m p) (moved : ParentMove o m p m' q) :
    StartStep m p m' q := by
  cases moved with
  | setEnter site => exact h.pass ⟨rfl, rfl⟩ rfl rfl id
  | setRead site =>
    refine ⟨⟨?_, ?_, h.event⟩, id⟩
    · intro site' old at_
      cases at_
      rfl
    · intro pending
      cases pending
  | setSignals site old e signals =>
    have back := @startable_write r m { m with
        traceState := site.state, transitions := (old, site.state) :: m.transitions }
      site old (.signal e .enter) (h.old site old rfl) (known.old site old rfl) rfl (by
        intro pending
        obtain rfl : e = startEvent := by simpa [ParentPc.startPending] using pending
        exact signals)
    refine ⟨⟨?_, ?_, ?_⟩, back⟩
    · intro _ _ at_
      cases at_
    · intro pending
      obtain rfl : e = startEvent := by simpa [ParentPc.startPending] using pending
      exact (signalled_start signals).2
    · exact fun start => false_of_back back (h.event start)
  | setSilent site old silent =>
    have back := @startable_write r m { m with
        traceState := site.state, transitions := (old, site.state) :: m.transitions }
      site old .leave (h.old site old rfl) (known.old site old rfl) rfl (by
        intro pending
        cases pending)
    refine ⟨⟨?_, ?_, fun start => false_of_back back (h.event start)⟩, back⟩
    · intro _ _ at_
      cases at_
    · intro pending
      cases pending
  | signalEnter site e => exact h.goto ⟨rfl, rfl⟩ rfl id id
  | assign site e =>
    refine ⟨⟨?_, by simp [ParentPc.startPending], ?_⟩, ?_⟩
    · intro _ _ at_
      cases at_
    · rintro rfl
      have running := h.pending rfl
      simp [startable, ParentPc.startPending, running]
    · intro after
      simp only [startable, Bool.or_eq_true, Bool.and_eq_true] at after ⊢
      exact after.imp (by simp [ParentPc.startPending]) id
  | broadcast site e => exact h.pass ⟨rfl, rfl⟩ rfl (by simp [ParentPc.startPending]) id
  | setLeave site =>
    apply h.pass ⟨rfl, rfl⟩
    · cases site <;> rfl
    · cases site <;> rfl
    · cases site <;> simp [Site.next, ParentPc.closing]
  | enableBody => exact h.pass (enableCsTrace_trace o m) rfl rfl id
  | disableBody => exact h.pass (disableCsTrace_trace true o m) rfl rfl id
  | detach => exact h.pass (detach_trace m) rfl rfl id
  | waitpid m' reported => exact h.pass (waitpid_trace reported) rfl rfl id
  | exportTrace =>
    have same : SameTrace m (m.log .exportTrace) := ⟨rfl, rfl⟩
    exact h.pass same rfl rfl id
  | cleanUp =>
    have same : SameTrace m { m.log .csShutdown with etr := r.empty } := ⟨rfl, rfl⟩
    exact h.pass same rfl rfl id
  | _ => exact h.pass ⟨rfl, rfl⟩ rfl rfl (by simp [ParentPc.closing])

/-! ## The polling function -/

/-- The worker has `start_event` in hand. -/
def FetcherPc.sawStart : FetcherPc → Bool
  | .wait .worker (.leave e) | .received e => e == startEvent
  | _ => false

/-- Inside `trace_sink_polling`. -/
def FetcherPc.polls : FetcherPc → Bool
  | .wait .worker _ | .received _ | .leave | .returned => false
  | _ => true

/-- Points that are reached with another event in the slot, or outside of the
polling function. -/
def FetcherPc.past : FetcherPc → Bool
  | .wait .worker _ | .received _ | .leave | .returned => true
  | .wait _ (.leave _) | .work _ _ | .cont | .exit _ => true
  | _ => false

/-- From the last fetch on. -/
def FetcherPc.fetchedLast : FetcherPc → Bool
  | .work .lastFetch (.leave _) | .exit _ => true
  | .wait .worker _ | .received _ | .leave | .returned => true
  | _ => false

def Call.fetches : Call → Bool
  | .fetchTrace _ _ => true
  | _ => false

def Call.fetchesLast : Call → Bool
  | .fetchTrace last _ => last
  | _ => false

/-- No fetch is newer than a last one. -/
def Final (calls : List Call) : Prop :=
  ∀ c ∈ (calls.filter Call.fetches).tail, c.fetchesLast = false

/-- What is known of the fetcher and of the log. -/
structure Polls (m : Mem r) (p : ParentPc) (f : FetcherPc) : Prop where
  saw : f.sawStart = true → startable m p = false
  spent : .polling ∈ m.calls → startable m p = false
  past : .polling ∈ m.calls → f.past = true → m.traceEvent ≠ startEvent
  outside : .polling ∈ m.calls → f.sawStart = false
  inside : f.polls = true → .polling ∈ m.calls
  once : m.calls.countP (· == .polling) ≤ 1
  last : (∃ c ∈ m.calls, c.fetchesLast = true) → f.fetchedLast = true ∧ .polling ∈ m.calls
  final : Final m.calls

/-- Calls are put on record that neither begin to poll nor fetch. -/
def Recorded (calls calls' : List Call) : Prop :=
  ∃ new, calls' = new ++ calls ∧ ∀ c ∈ new, c ≠ .polling ∧ c.fetches = false

theorem recorded_none {calls : List Call} : Recorded calls calls := ⟨[], rfl, nofun⟩

theorem recorded_one {calls calls' : List Call} {c : Call} (h : calls' = c :: calls)
    (other : c ≠ .polling) (none : c.fetches = false) : Recorded calls calls' :=
  ⟨[c], h, List.forall_mem_singleton.mpr ⟨other, none⟩⟩

theorem Recorded.polling {calls calls' : List Call} (h : Recorded calls calls') :
    .polling ∈ calls' ↔ .polling ∈ calls := by
  obtain ⟨new, rfl, fine⟩ := h
  rw [List.mem_append, or_iff_right]
  exact fun polled => (fine _ polled).1 rfl

theorem Recorded.count {calls calls' : List Call} (h : Recorded calls calls') :
    calls'.countP (· == .polling) = calls.countP (· == .polling) := by
  obtain ⟨new, rfl, fine⟩ := h
  have none : new.countP (· == .polling) = 0 := by
    apply List.countP_eq_zero.mpr
    intro c hc
    simpa using (fine c hc).1
  rw [List.countP_append, none, Nat.zero_add]

theorem fetchesLast_fetches {c : Call} (h : c.fetchesLast = true) : c.fetches = true := by
  cases c with
  | fetchTrace => rfl
  | _ => cases h

theorem Recorded.last {calls calls' : List Call} (h : Recorded calls calls')
    (last : ∃ c ∈ calls', c.fetchesLast = true) : ∃ c ∈ calls, c.fetchesLast = true := by
  obtain ⟨new, rfl, fine⟩ := h
  obtain ⟨c, hc, fetches⟩ := last
  rcases List.mem_append.mp hc with hc | hc
  · have none := (fine c hc).2
    rw [fetchesLast_fetches fetches] at none
    cases none
  · exact ⟨c, hc, fetches⟩

theorem Recorded.final {calls calls' : List Call} (h : Recorded calls calls')
    (final : Final calls) : Final calls' := by
  obtain ⟨new, rfl, fine⟩ := h
  have none : new.filter Call.fetches = [] := by
    apply List.filter_eq_nil_iff.mpr
    intro c hc
    simp [(fine c hc).2]
  rw [Final, List.filter_append, none]
  exact final

/-- A fetch while no last one is on record. -/
theorem final_fetch {calls : List Call} {c : Call}
    (none : ¬ ∃ d ∈ calls, d.fetchesLast = true) (fetches : c.fetches = true) :
    Final (c :: calls) := by
  rw [Final, List.filter_cons_of_pos fetches]
  intro d hd
  by_contra last
  exact none ⟨d, (List.mem_filter.mp hd).1, Bool.of_not_eq_false last⟩

/-- A step of the parent. -/
theorem Polls.parent {m m' : Mem r} {p q : ParentPc} {f : FetcherPc} (h : Polls m p f)
    (moved : StartStep m p m' q) (record : Recorded m.calls m'.calls)
    (event : m'.traceEvent = startEvent → m.traceEvent = startEvent ∨ startable m p = true) :
    Polls m' q f := by
  constructor
  · exact fun saw => false_of_back moved.back (h.saw saw)
  · exact fun polled => false_of_back moved.back (h.spent (record.polling.mp polled))
  · intro polled past start
    have before := record.polling.mp polled
    rcases event start with same | may
    · exact h.past before past same
    · rw [h.spent before] at may
      cases may
  · exact fun polled => h.outside (record.polling.mp polled)
  · exact fun polls => record.polling.mpr (h.inside polls)
  · rw [record.count]
    exact h.once
  · intro last
    obtain ⟨done, polled⟩ := h.last (record.last last)
    exact ⟨done, record.polling.mpr polled⟩
  · exact record.final h.final

/-- A step of the fetcher that does not begin to poll and does not fetch. -/
theorem Polls.fetcher {m m' : Mem r} {p : ParentPc} {f g : FetcherPc} (h : Polls m p f)
    (starts : Starts m p) (same : SameTrace m m') (record : Recorded m.calls m'.calls)
    (saw : g.sawStart = true → f.sawStart = true ∨ f.past = true ∧ m.traceEvent = startEvent)
    (past : g.past = true → f.past = true ∨ m.traceEvent ≠ startEvent)
    (inside : g.polls = true → f.polls = true)
    (last : f.fetchedLast = true → .polling ∈ m.calls → g.fetchedLast = true) : Polls m' p g := by
  have may : startable m' p = startable m p := by simp only [startable, same.state]
  constructor
  · intro now
    rw [may]
    rcases saw now with before | ⟨_, start⟩
    · exact h.saw before
    · exact starts.event start
  · intro polled
    rw [may]
    exact h.spent (record.polling.mp polled)
  · intro polled now
    rw [same.event]
    rcases past now with before | other
    · exact h.past (record.polling.mp polled) before
    · exact other
  · intro polled
    have before := record.polling.mp polled
    by_contra sees
    rcases saw (Bool.of_not_eq_false sees) with saw | ⟨past, start⟩
    · rw [h.outside before] at saw
      cases saw
    · exact h.past before past start
  · exact fun polls => record.polling.mpr (h.inside (inside polls))
  · rw [record.count]
    exact h.once
  · intro fetched
    obtain ⟨done, polled⟩ := h.last (record.last fetched)
    exact ⟨last done polled, record.polling.mpr polled⟩
  · exact record.final h.final

/-- A fetch inside the polling function. -/
theorem Polls.fetch {m m' : Mem r} {p : ParentPc} {task : Task} {o : Outcome} {c : Call}
    (h : Polls m p (.work task .body)) (same : SameTrace m m') (record : m'.calls = c :: m.calls)
    (fetches : c.fetches = true) (last : c.fetchesLast = true → task = .lastFetch) :
    Polls m' p (.work task (.leave o)) := by
  have polled := h.inside rfl
  have noLast : ¬ ∃ c ∈ m.calls, c.fetchesLast = true := by
    intro fetched
    cases task <;> cases (h.last fetched).1
  have still : .polling ∈ m'.calls := by
    rw [record]
    exact List.mem_cons_of_mem _ polled
  constructor
  · exact nofun
  · intro _
    simp only [startable, same.state]
    exact h.spent polled
  · intro _ _
    rw [same.event]
    exact h.past polled rfl
  · exact fun _ => rfl
  · exact fun _ => still
  · rw [record, List.countP_cons_of_neg]
    · exact h.once
    · intro polls
      obtain rfl : c = .polling := by simpa using polls
      cases fetches
  · rintro ⟨d, hd, fetchesLast⟩
    rw [record] at hd
    rcases List.mem_cons.mp hd with rfl | hd
    · obtain rfl := last fetchesLast
      exact ⟨rfl, still⟩
    · exact absurd ⟨d, hd, fetchesLast⟩ noLast
  · rw [record]
    exact final_fetch noLast fetches

theorem polls_fetcher {threshold : BitVec 64} {m m' : Mem r} {p : ParentPc} {f g : FetcherPc}
    {o : Outcome} (starts : Starts m p) (h : Polls m p f)
    (moved : FetcherMove threshold o m f m' g) : Polls m' p g := by
  have trace := moved.trace
  have none : Recorded m.calls m.calls := recorded_none
  cases moved with
  | waitEnter reason | notFound reason | sleep reason =>
    cases reason with
    | worker => exact h.fetcher starts trace none nofun (fun _ => .inl rfl) nofun (fun _ _ => rfl)
    | suspended | resumed | killed =>
      exact h.fetcher starts trace none nofun nofun (fun _ => rfl) nofun
  | found reason want =>
    cases reason with
    | worker =>
      apply h.fetcher starts trace none
      · intro saw
        exact .inr ⟨rfl, by simpa [FetcherPc.sawStart] using saw⟩
      · exact fun _ => .inl rfl
      · exact nofun
      · exact fun _ _ => rfl
    | suspended | resumed | killed =>
      apply h.fetcher starts trace none
      · exact nofun
      · intro _
        refine .inr fun start => ?_
        rw [start] at want
        cases want
      · exact fun _ => rfl
      · exact nofun
  | waitLeave reason e =>
    cases reason with
    | worker => exact h.fetcher starts trace none .inl (fun _ => .inl rfl) nofun (fun _ _ => rfl)
    | suspended | killed =>
      exact h.fetcher starts trace none nofun (fun _ => .inl rfl) (fun _ => rfl) nofun
    | resumed => exact h.fetcher starts trace none nofun nofun (fun _ => rfl) nofun
  | workLeave task o' =>
    cases task <;> cases o' <;>
      exact h.fetcher starts trace none nofun (fun _ => .inl rfl) (fun _ => rfl) (by
        simp [FetcherPc.fetchedLast, Task.next])
  | workEnter task =>
    exact h.fetcher starts trace none nofun (fun _ => .inl rfl) (fun _ => rfl)
      (by cases task <;> nofun)
  | finished | neither | leave =>
    exact h.fetcher starts trace none nofun (fun _ => .inl rfl) nofun (fun _ _ => rfl)
  | exitEnter | exitAssign | exitBroadcast | exitLeave =>
    exact h.fetcher starts trace none nofun (fun _ => .inl rfl) (fun _ => rfl) (fun _ _ => rfl)
  | initPos | alive | gone | exceeded | within | resample | nanosleep =>
    exact h.fetcher starts trace none nofun nofun (fun _ => rfl) nofun
  | stop ok there =>
    have record := (sigstop_log .fetcher (m.log (.kill sigstop .ok))).calls
    exact h.fetcher starts trace (recorded_one record nofun rfl) nofun nofun (fun _ => rfl) nofun
  | notStopped | contGone =>
    exact h.fetcher starts trace (recorded_one rfl nofun rfl) nofun nofun (fun _ => rfl) nofun
  | cont ok there =>
    have record := (sigcont_log (m.log (.kill sigcont .ok))).calls
    exact h.fetcher starts trace (recorded_one record nofun rfl) nofun nofun (fun _ => rfl) nofun
  | contFails =>
    exact h.fetcher starts trace (recorded_one rfl nofun rfl) nofun (fun _ => .inl rfl)
      (fun _ => rfl) (fun _ _ => rfl)
  | started =>
    have first : .polling ∉ m.calls := by
      intro polled
      cases h.outside polled
    have noLast : ¬ ∃ c ∈ m.calls, c.fetchesLast = true := fun last => first (h.last last).2
    constructor
    · exact nofun
    · exact fun _ => h.saw rfl
    · exact nofun
    · exact fun _ => rfl
    · exact fun _ => List.mem_cons_self
    · have zero : m.calls.countP (· == .polling) = 0 := by
        apply List.countP_eq_zero.mpr
        rintro c hc polls
        obtain rfl : c = .polling := by simpa using polls
        exact first hc
      simp [Mem.log, zero]
    · rintro ⟨c, hc, last⟩
      rcases List.mem_cons.mp hc with rfl | hc
      · cases last
      · exact absurd ⟨c, hc, last⟩ noLast
    · exact h.final
  | workBody task =>
    cases task with
    | disable =>
      have record : Recorded m.calls (Task.disable.work o m).calls := by
        cases o <;> exact recorded_one rfl nofun rfl
      exact h.fetcher starts trace record nofun (fun _ => .inl rfl) (fun _ => rfl) nofun
    | enable =>
      have record : Recorded m.calls (Task.enable.work o m).calls := by
        cases o with
        | ok => exact recorded_one rfl nofun rfl
        | fail => exact ⟨[.csShutdown, .enableCsTrace .fail], rfl, by simp [Call.fetches]⟩
      exact h.fetcher starts trace record nofun (fun _ => .inl rfl) (fun _ => rfl) nofun
    | fetch => cases o <;> exact h.fetch trace rfl rfl nofun
    | lastFetch => cases o <;> exact h.fetch trace rfl rfl fun _ => rfl

/-- Nothing newer than a last fetch fetches. -/
theorem final_newest {newer older : List Call} {o : Outcome}
    (h : Final (newer ++ .fetchTrace true o :: older)) (last : Bool) (o' : Outcome) :
    .fetchTrace last o' ∉ newer := by
  intro mem
  have some : newer.filter Call.fetches ≠ [] := by
    intro none
    exact absurd rfl (List.filter_eq_nil_iff.mp none _ mem)
  rw [Final, List.filter_append, List.filter_cons_of_pos rfl,
    List.tail_append_of_ne_nil some] at h
  cases h _ (List.mem_append_right _ List.mem_cons_self)

theorem final_count {calls : List Call} (h : Final calls) : calls.countP Call.fetchesLast ≤ 1 := by
  have same : calls.countP Call.fetchesLast =
      (calls.filter Call.fetches).countP Call.fetchesLast := by
    rw [List.countP_filter]
    apply List.countP_congr
    intro c _
    cases c <;> simp [Call.fetchesLast, Call.fetches]
  rw [same]
  cases fetches : calls.filter Call.fetches with
  | nil => exact Nat.zero_le 1
  | cons c rest =>
    rw [Final, fetches] at h
    have none : rest.countP Call.fetchesLast = 0 := by
      apply List.countP_eq_zero.mpr
      intro d hd
      simp [h d hd]
    rw [List.countP_cons, none]
    split
    · exact Nat.le_refl 1
    · exact Nat.zero_le 1

/-! ## Steps -/

theorem parent_record {m m' : Mem r} {p q : ParentPc} {o : Outcome} (moved : ParentMove o m p m' q) :
    Recorded m.calls m'.calls := by
  cases moved with
  | enableBody =>
    cases o with
    | ok => exact recorded_one rfl nofun rfl
    | fail => exact ⟨[.csShutdown, .enableCsTrace .fail], rfl, by simp [Call.fetches]⟩
  | disableBody => cases o <;> exact recorded_one rfl nofun rfl
  | detach =>
    rw [(detach_log m).calls]
    exact recorded_none
  | waitpid m' reported =>
    rw [(waitpid_log reported).calls]
    exact recorded_none
  | exportTrace | cleanUp => exact recorded_one rfl nofun rfl
  | _ => exact recorded_none

/-- The parent assigns `start_event` only where it is pending. -/
theorem parent_event {m m' : Mem r} {p q : ParentPc} {o : Outcome} (moved : ParentMove o m p m' q)
    (start : m'.traceEvent = startEvent) :
    m.traceEvent = startEvent ∨ startable m p = true := by
  cases moved with
  | assign site e =>
    obtain rfl : e = startEvent := start
    exact .inr (startPending_startable rfl)
  | enableBody =>
    rw [(enableCsTrace_trace o m).event] at start
    exact .inl start
  | disableBody =>
    rw [(disableCsTrace_trace true o m).event] at start
    exact .inl start
  | detach =>
    rw [(detach_trace m).event] at start
    exact .inl start
  | waitpid m' reported =>
    rw [(waitpid_trace reported).event] at start
    exact .inl start
  | _ => exact .inl start

structure OnePolling (v : View r) : Prop where
  signals : Signals v
  starts : Starts v.mem v.parent
  polls : Polls v.mem v.parent v.fetcher

theorem Signals.same {v : View r} (h : Signals v) {m : Mem r} (same : SameTrace v.mem m) :
    Signals ⟨m, v.parent, v.fetcher⟩ := by
  constructor
  · rw [same.state]
    exact h.state
  · exact h.old
  · exact h.signal
  · rw [same.event]
    exact h.last
  · rw [same.event]
    exact h.fini

/-- What neither thread does. -/
theorem OnePolling.outside {v : View r} (h : OnePolling v) {m : Mem r} (same : SameTrace v.mem m)
    (calls : m.calls = v.mem.calls) : OnePolling ⟨m, v.parent, v.fetcher⟩ := by
  have next := h.starts.same same
  refine ⟨h.signals.same same, next.starts, ?_⟩
  apply h.polls.parent next
  · rw [calls]
    exact recorded_none
  · rw [same.event]
    exact .inl

theorem onePolling_move {threshold : BitVec 64} {v v' : View r} {a : Action} (h : OnePolling v)
    (moved : Move threshold v a v') : OnePolling v' := by
  have signals := signals_move h.signals moved
  cases moved with
  | still => exact h
  | parent o m' q moved =>
    have next := starts_parent h.signals h.starts moved
    exact ⟨signals, next.starts, h.polls.parent next (parent_record moved) (parent_event moved)⟩
  | fetcher o m' g moved =>
    have starts := (h.starts.same moved.trace).starts
    exact ⟨signals, starts, polls_fetcher h.starts h.polls moved⟩
  | write n => exact h.outside (write_trace n v.mem) (write_calls n v.mem)
  | exit | takeStop => exact h.outside ⟨rfl, rfl⟩ rfl
  | sigstop => exact h.outside (sigstop_trace .other v.mem) (sigstop_log .other v.mem).calls
  | sigcont => exact h.outside (sigcont_trace v.mem) (sigcont_log v.mem).calls

/-! ## Broadcasts -/

/-- The event is assigned, the broadcast is still to come. -/
def ParentPc.broadcasting : ParentPc → Bool
  | .set _ (.signal _ .broadcast) => true
  | _ => false

/-- The events that have been broadcast. -/
def broadcasts (m : Mem r) (p : ParentPc) : List TraceEvent :=
  if p.broadcasting then m.signals.tail else m.signals

/-- The fetcher has found a last event and goes to its last fetch. -/
def FetcherPc.heard : FetcherPc → Bool
  | .wait .killed (.leave _) | .work .lastFetch _ => true
  | _ => false

structure Heard (v : View r) : Prop where
  event : v.mem.traceEvent = initEvent ∨ v.mem.traceEvent ∈ v.mem.signals
  heard : v.fetcher.heard = true ∨ (∃ c ∈ v.mem.calls, c.fetchesLast = true) →
    ∃ e ∈ broadcasts v.mem v.parent, e.last = true

theorem waitpid_signals {m m' : Mem r} (h : m.waitpid = some m') : m'.signals = m.signals := by
  rcases waitpid_cases h with ⟨w, rest, _, rfl⟩ | ⟨_, _, rfl⟩ <;> rfl

theorem detach_signals (m : Mem r) : m.detach.signals = m.signals := by
  unfold Mem.detach
  split <;> rfl

theorem sigstop_signals (sender : Sender) (m : Mem r) :
    (m.sigstop sender).signals = m.signals := by
  unfold Mem.sigstop
  split <;> rfl

theorem sigcont_signals (m : Mem r) : m.sigcont.signals = m.signals := by
  unfold Mem.sigcont
  split <;> rfl

theorem write_signals (n : Nat) (m : Mem r) : (m.write n).signals = m.signals := by
  unfold Mem.write
  split <;> rfl

/-- The parent adds to the broadcasts, and what it assigns it has signalled. -/
theorem ParentMove.broadcasts {m m' : Mem r} {p q : ParentPc} {o : Outcome}
    (moved : ParentMove o m p m' q) :
    (∀ e ∈ broadcasts m p, e ∈ Handshake.broadcasts m' q) ∧
      (m'.traceEvent = m.traceEvent ∧ m'.signals = m.signals ∨ m'.traceEvent ∈ m'.signals) := by
  have same : ∀ {m' : Mem r} {p q : ParentPc}, p.broadcasting = false → q.broadcasting = false →
      m'.signals = m.signals → ∀ e ∈ Handshake.broadcasts m p, e ∈ Handshake.broadcasts m' q := by
    intro m' p q before after signals e he
    simpa only [Handshake.broadcasts, before, after, signals] using he
  cases moved with
  | assign site e => exact ⟨fun _ he => he, .inr List.mem_cons_self⟩
  | broadcast site e => exact ⟨fun _ he => List.mem_of_mem_tail he, .inl ⟨rfl, rfl⟩⟩
  | setLeave site => exact ⟨same rfl (by cases site <;> rfl) rfl, .inl ⟨rfl, rfl⟩⟩
  | enableBody => cases o <;> exact ⟨same rfl rfl rfl, .inl ⟨rfl, rfl⟩⟩
  | disableBody => cases o <;> exact ⟨same rfl rfl rfl, .inl ⟨rfl, rfl⟩⟩
  | detach =>
    exact ⟨same rfl rfl (detach_signals m), .inl ⟨(detach_trace m).event, detach_signals m⟩⟩
  | waitpid m' reported =>
    have signals := waitpid_signals reported
    exact ⟨same rfl rfl signals, .inl ⟨(waitpid_trace reported).event, signals⟩⟩
  | _ => exact ⟨same rfl rfl rfl, .inl ⟨rfl, rfl⟩⟩

theorem FetcherMove.signals {threshold : BitVec 64} {o : Outcome} {m m' : Mem r} {p q : FetcherPc}
    (h : FetcherMove threshold o m p m' q) : m'.signals = m.signals := by
  cases h with
  | stop => exact sigstop_signals .fetcher (m.log (.kill sigstop .ok))
  | cont => exact sigcont_signals (m.log (.kill sigcont .ok))
  | workBody task => cases task <;> cases o <;> rfl
  | _ => rfl

/-- How the fetcher comes to its last fetch: only by finding a last event. -/
theorem FetcherMove.heard {threshold : BitVec 64} {o : Outcome} {m m' : Mem r} {f g : FetcherPc}
    (h : FetcherMove threshold o m f m' g)
    (after : g.heard = true ∨ ∃ c ∈ m'.calls, c.fetchesLast = true) :
    (f.heard = true ∨ ∃ c ∈ m.calls, c.fetchesLast = true) ∨
      f = .wait .killed .test ∧ g = .wait .killed (.leave m.traceEvent) ∧
        m.traceEvent.last = true := by
  have still (none : g.heard = false) (record : Recorded m.calls m'.calls) :
      f.heard = true ∨ ∃ c ∈ m.calls, c.fetchesLast = true := by
    rcases after with now | last
    · rw [none] at now
      cases now
    · exact .inr (record.last last)
  cases h with
  | found reason want =>
    cases reason with
    | killed => exact .inr ⟨rfl, rfl, want⟩
    | worker | suspended | resumed => exact .inl (still rfl recorded_none)
  | waitLeave reason e =>
    cases reason with
    | killed => exact .inl (.inl rfl)
    | worker | suspended | resumed => exact .inl (still rfl recorded_none)
  | waitEnter reason | notFound reason | sleep reason =>
    cases reason <;> exact .inl (still rfl recorded_none)
  | workEnter task =>
    cases task with
    | lastFetch => exact .inl (.inl rfl)
    | disable | fetch | enable => exact .inl (still rfl recorded_none)
  | workLeave task o' =>
    cases task <;> cases o' <;> exact .inl (still rfl recorded_none)
  | workBody task =>
    cases task with
    | lastFetch => exact .inl (.inl rfl)
    | disable => cases o <;> exact .inl (still rfl (recorded_one rfl nofun rfl))
    | enable =>
      cases o with
      | ok => exact .inl (still rfl (recorded_one rfl nofun rfl))
      | fail =>
        have record : Recorded m.calls (Task.enable.work .fail m).calls :=
          ⟨[.csShutdown, .enableCsTrace .fail], rfl, by simp [Call.fetches]⟩
        exact .inl (still rfl record)
    | fetch =>
      rcases after with now | ⟨c, hc, last⟩
      · cases now
      · have added : (Task.fetch.work o m).calls = .fetchTrace false o :: m.calls := by
          cases o <;> rfl
        rw [added] at hc
        rcases List.mem_cons.mp hc with rfl | hc
        · cases last
        · exact .inl (.inr ⟨c, hc, last⟩)
  | started =>
    rcases after with now | ⟨c, hc, last⟩
    · cases now
    · rcases List.mem_cons.mp hc with rfl | hc
      · cases last
      · exact .inl (.inr ⟨c, hc, last⟩)
  | stop ok there =>
    have record := (sigstop_log .fetcher (m.log (.kill sigstop .ok))).calls
    exact .inl (still rfl (recorded_one record nofun rfl))
  | cont ok there =>
    have record := (sigcont_log (m.log (.kill sigcont .ok))).calls
    exact .inl (still rfl (recorded_one record nofun rfl))
  | notStopped | contGone | contFails => exact .inl (still rfl (recorded_one rfl nofun rfl))
  | _ => exact .inl (still rfl recorded_none)

theorem heard_move {threshold : BitVec 64} {v v' : View r} {a : Action} (h : Heard v)
    (free : v.fetcher = .wait .killed .test → v'.fetcher = .wait .killed (.leave v.mem.traceEvent) →
      v.parent.broadcasting = false) (moved : Move threshold v a v') : Heard v' := by
  have outside : ∀ {m : Mem r}, SameTrace v.mem m → m.signals = v.mem.signals →
      m.calls = v.mem.calls → Heard ⟨m, v.parent, v.fetcher⟩ := by
    intro m same signals calls
    constructor
    · rw [same.event, signals]
      exact h.event
    · simp only [calls, broadcasts, signals]
      exact h.heard
  cases moved with
  | still => exact h
  | parent o m' q moved =>
    obtain ⟨more, event⟩ := moved.broadcasts
    constructor
    · rcases event with ⟨same, signals⟩ | now
      · rw [same, signals]
        exact h.event
      · exact .inr now
    · intro after
      obtain ⟨e, he, last⟩ := h.heard (after.imp id (parent_record moved).last)
      exact ⟨e, more e he, last⟩
  | fetcher o m' g moved =>
    have event := moved.trace.event
    have signals := moved.signals
    constructor
    · rw [event, signals]
      exact h.event
    · intro after
      simp only [broadcasts, signals]
      rcases moved.heard after with before | ⟨test, found, last⟩
      · exact h.heard before
      · rw [free test found]
        refine ⟨v.mem.traceEvent, ?_, last⟩
        rcases h.event with first | signalled
        · rw [first] at last
          cases last
        · exact signalled
  | write n => exact outside (write_trace n v.mem) (write_signals n v.mem) (write_calls n v.mem)
  | exit | takeStop => exact outside ⟨rfl, rfl⟩ rfl rfl
  | sigstop =>
    exact outside (sigstop_trace .other v.mem) (sigstop_signals .other v.mem)
      (sigstop_log .other v.mem).calls
  | sigcont =>
    exact outside (sigcont_trace v.mem) (sigcont_signals v.mem) (sigcont_log v.mem).calls

/-! ## Runs -/

/-- The parent never waits on a condition. -/
def Awake (w : System r) : Prop := ∃ p, w.ctl .parent = .run p

theorem awake_fire {threshold : BitVec 64} {t : Thread} {o : Outcome} {w w' : System r}
    (h : Awake w) (moved : fire (code r threshold) t o w = some w') : Awake w' := by
  obtain ⟨p, here⟩ := h
  cases t with
  | parent =>
    cases fire_fires moved with
    | wait p c m q _ instr => exact absurd instr parentCode_wait
    | reacquire | lock | unlock | broadcast | act => exact ⟨_, goto_self _ _ _⟩
  | fetcher =>
    have other : Thread.parent ≠ .fetcher := by decide
    cases fire_fires moved with
    | broadcast => exact ⟨p, by rw [goto_other _ _ other, wakeAll_ctl, here]; rfl⟩
    | reacquire | lock | unlock | wait => exact ⟨p, by rw [goto_other _ _ other]; exact here⟩
    | act => exact ⟨p, by rw [goto_other _ _ other]; exact here⟩

theorem awake_step {threshold : BitVec 64} {w w' : System r} {a : Action} (h : Awake w)
    (moved : step threshold w a = some w') : Awake w' := by
  cases a with
  | parent o => exact awake_fire h moved
  | fetcher o => exact awake_fire h moved
  | write n =>
    simp only [step, Option.ite_none_right_eq_some, Option.some.injEq] at moved
    obtain ⟨_, rfl⟩ := moved
    exact h
  | exit status =>
    simp only [step, Option.ite_none_right_eq_some, Option.some.injEq] at moved
    obtain ⟨_, rfl⟩ := moved
    exact h
  | takeStop =>
    obtain ⟨m', _, rfl⟩ := Option.map_eq_some_iff.mp moved
    exact h
  | sigstop | sigcont =>
    simp only [step, Option.ite_none_left_eq_some, Option.some.injEq] at moved
    obtain ⟨_, rfl⟩ := moved
    exact h
  | wake t =>
    obtain ⟨p, here⟩ := h
    simp only [step, spurious] at moved
    cases t with
    | parent => rw [here] at moved; cases moved
    | fetcher =>
      split at moved
      · cases moved
        have other : Thread.parent ≠ .fetcher := by decide
        exact ⟨p, by rw [goto_other _ _ other]; exact here⟩
      · cases moved

theorem broadcasting_holds {p : ParentPc} (h : p.broadcasting = true) :
    p.held .traceEventMutex = true := by
  cases p with
  | set site p =>
    cases p with
    | signal e p => cases p <;> first | rfl | cases h
    | enter | read | write | leave => cases h
  | _ => cases h

/-- While the fetcher finds a last event the parent is not between the
assignment and the broadcast of one, since both are inside `trace_event_mutex`. -/
theorem found_exclusive {threshold : BitVec 64} {o : Outcome} {w w' : System r}
    (orderly : Orderly threshold w) (awake : Awake w)
    (moved : fire (code r threshold) .fetcher o w = some w')
    (test : (view w).fetcher = .wait .killed .test)
    (found : (view w').fetcher = .wait .killed (.leave w.mem.traceEvent)) :
    (view w).parent.broadcasting = false := by
  obtain ⟨p, at_⟩ := awake
  by_contra broadcasting
  have holds : (w.ctl .parent).holds (held .parent) .traceEventMutex = true := by
    simp only [view, at_, Ctl.point, Bool.not_eq_false] at broadcasting
    rw [at_]
    exact broadcasting_holds broadcasting
  have mine : (w.ctl .fetcher).holds (held .fetcher) .traceEventMutex = true := by
    have running : ∀ p, w.ctl .fetcher = .run p →
        (w.ctl .fetcher).holds (held .fetcher) .traceEventMutex = true := by
      intro p here
      simp only [view, here, Ctl.point] at test
      rw [here, test]
      rfl
    cases fire_fires moved with
    | reacquire m p here =>
      simp only [view, here, Ctl.point, goto_self] at test found
      rw [test] at found
      cases found
    | lock p _ _ here | unlock p _ _ here | broadcast p _ _ here => exact running p here
    | wait p _ _ _ here | act p _ _ _ here => exact running p here
  cases orderly.guarded.exclusive holds mine

structure Free (threshold : BitVec 64) (w : System r) : Prop where
  orderly : Orderly threshold w
  awake : Awake w
  onePolling : OnePolling (view w)
  heard : Heard (view w)

theorem free_start (threshold : BitVec 64) (etr : r.Writer) (initPos : BitVec 64) :
    Free threshold (start etr initPos) := by
  refine ⟨orderly_start threshold etr initPos, ⟨_, rfl⟩, ⟨signals_start etr initPos, ?_, ?_⟩, ?_⟩
  · exact ⟨nofun, nofun, nofun⟩
  · constructor
    · exact nofun
    · exact nofun
    · exact nofun
    · exact nofun
    · exact nofun
    · exact Nat.zero_le 1
    · rintro ⟨c, hc, _⟩
      cases hc
    · exact nofun
  · refine ⟨.inl rfl, ?_⟩
    rintro (now | ⟨c, hc, _⟩)
    · cases now
    · cases hc

theorem Move.fetcher_same {threshold : BitVec 64} {v v' : View r} {a : Action}
    (h : Move threshold v a v') (other : ∀ o, a ≠ .fetcher o) : v'.fetcher = v.fetcher := by
  cases h with
  | fetcher o => exact absurd rfl (other o)
  | _ => rfl

theorem free_step {threshold : BitVec 64} {w w' : System r} {a : FreeAction}
    (h : Free threshold w) (moved : freeStep threshold w a = some w') : Free threshold w' := by
  cases a with
  | report status =>
    cases moved
    exact ⟨h.orderly.store rfl, h.awake, h.onePolling.outside ⟨rfl, rfl⟩ rfl, h.heard.event,
      h.heard.heard⟩
  | own a =>
    have move := step_move moved
    refine ⟨orderly_step h.orderly moved, ?_, onePolling_move h.onePolling move, ?_⟩
    · exact awake_step h.awake moved
    · apply heard_move h.heard _ move
      intro test found
      by_cases fetcher : ∃ o, a = .fetcher o
      · obtain ⟨o, rfl⟩ := fetcher
        exact found_exclusive h.orderly h.awake moved test found
      · rw [move.fetcher_same fun o at_ => fetcher ⟨o, at_⟩, test] at found
        cases found

/-- **One polling run and one final fetch.** Whatever the parent is told about
the tracee, whatever succeeds or fails, and in every interleaving: the worker
enters `trace_sink_polling` at most once, the fetch behind the label `killed` is
executed at most once, no fetch follows it, and `stop_event` or `fini_event` was
broadcast before it. -/
theorem one_polling_one_final_fetch (threshold : BitVec 64) (etr : r.Writer) (initPos : BitVec 64)
    (w : System r)
    (h : Reach (freeStep threshold) (fun _ _ => true) (start etr initPos) w) :
    w.mem.calls.countP (· == .polling) ≤ 1 ∧ w.mem.calls.countP Call.fetchesLast ≤ 1 ∧
    ∀ newer o older, w.mem.calls = newer ++ .fetchTrace true o :: older →
      (∀ last o', .fetchTrace last o' ∉ newer) ∧
      ∃ e ∈ broadcasts w.mem (view w).parent, e = stopEvent ∨ e = finiEvent := by
  have free : Free threshold w :=
    h.invariant (free_start threshold etr initPos) fun _ _ _ inv _ moved => free_step inv moved
  have final := free.onePolling.polls.final
  refine ⟨free.onePolling.polls.once, final_count final, ?_⟩
  intro newer o older split
  constructor
  · exact final_newest (split ▸ final)
  · have fetched : ∃ c ∈ w.mem.calls, c.fetchesLast = true :=
      ⟨.fetchTrace true o, by rw [split]; exact List.mem_append_right _ List.mem_cons_self, rfl⟩
    obtain ⟨e, he, last⟩ := free.heard.heard (.inr fetched)
    exact ⟨e, he, by simpa [TraceEvent.last] using last⟩

/-- A session with a last fetch, in which the parent is also told that the tracee
was stopped by `SIGCONT`. -/
theorem one_final_fetch_session : ∃ w : System Polling.defaultRing,
    Reach (freeStep Polling.defaultThreshold) (fun _ _ => true)
      (start Polling.defaultRing.empty 0) w ∧
    .fetchTrace true .ok ∈ w.mem.calls ∧ w.mem.calls.countP Call.fetchesLast ≤ 1 := by
  have replay : (exec (freeStep Polling.defaultThreshold) (fun _ _ => true)
      (start Polling.defaultRing.empty 0)
      (opening.map .own ++ [.report (stopStatus sigcont)] ++
        List.replicate 6 (.own (.parent .ok)) ++ closingDown.map .own ++
        List.replicate 16 (.own (.fetcher .ok)))).any
      (fun w => w.mem.calls.contains (.fetchTrace true .ok)) = true := by
    decide +kernel
  obtain ⟨w, reached, fetched⟩ := reach_of_exec replay
  exact ⟨w, reached, List.contains_iff_mem.mp fetched,
    (one_polling_one_final_fetch _ _ _ w reached).2.1⟩

end Ultrasight.Handshake
