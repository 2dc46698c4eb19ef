import Ultrasight.LastFetch
import Ultrasight.Recorder
import Ultrasight.Resume
import Ultrasight.Window

/-!
# The file of an undisturbed session

Nothing fails, the fetcher sees the start of the trace, and nobody interferes
with the signals that it sends to the tracee. Then the sinks collect whenever the
tracee runs, the trace is fetched once, at the end, and the file has the newest
bytes that the tracee produced, as many as the ring holds.
-/

namespace Ultrasight.Handshake

open Threads TraceState TraceEvent Chunks TraceBuffer

variable {r : Ring}

/-- The runs without a failure or an intrusion. -/
def undisturbed (w : System r) (a : Action) : Bool :=
  flawless a && seesStart (view w) a && considerate (view w) a && firstStop (view w) a

/-! ## The sinks collect while the tracee runs -/

/-- Before `enable_cs_trace` has switched the sinks on. -/
def ParentPc.early : ParentPc → Bool
  | .set site _ => site == .initTrace
  | .setCpuAffinity => true
  | .enable p => match p with
    | .enter | .body => true
    | .leave _ => false
  | .detach | .waitpid | .branch | .disable _ | .join | .exportTrace | .cleanUp | .done => false

/-- Between the fetcher's `disable_cs_trace` and its `enable_cs_trace`. -/
def FetcherPc.paused : FetcherPc → Bool
  | .work .disable (.leave _) | .work .fetch _ | .work .enable .enter | .work .enable .body => true
  | _ => false

theorem FetcherPc.paused_window {q : FetcherPc} (h : q.paused = true) : q.window = true := by
  cases q with
  | work task p => cases task <;> first | rfl | cases h
  | _ => cases h

structure Collects (v : View r) : Prop where
  worked : ∀ task o, v.fetcher = .work task (.leave o) → o = .ok
  starting : v.parent.starting = true → ∃ pending, v.mem.tracee = .traced pending
  sinks : v.mem.collecting = true ∨ v.parent.early = true ∨ v.fetcher.paused = true ∨
    v.parent.closing = true

theorem early_starting {p : ParentPc} (h : p.early = true) : p.starting = true := by
  cases p with
  | set site p => cases site <;> first | rfl | cases h
  | setCpuAffinity | enable => rfl
  | detach | waitpid | branch | disable | join | exportTrace | cleanUp | done => cases h

theorem Collects.running {v : View r} (h : Collects v) (reports : Reports v) (stopped : Stopped v)
    (running : v.mem.tracee.runs = true) : v.mem.collecting = true := by
  obtain ⟨sent, running⟩ := runs_cases running
  rcases h.sinks with on | early | paused | closing
  · exact on
  · obtain ⟨pending, traced⟩ := h.starting (early_starting early)
    rw [running] at traced
    cases traced
  · have still := stopped.window (FetcherPc.paused_window paused)
    rw [running] at still
    cases still
  · have gone := reports.closing closing
    rw [running] at gone
    cases gone

theorem ParentMove.sinks {m m' : Mem r} {p q : ParentPc} (h : ParentMove .ok m p m' q)
    (sinks : m.collecting = true ∨ p.early = true ∨ p.closing = true) :
    m'.collecting = true ∨ q.early = true ∨ q.closing = true := by
  cases h with
  | enableBody => exact .inl rfl
  | disableBody | finish => exact .inr (.inr rfl)
  | setLeave site =>
    cases site with
    | initTrace => exact .inr (.inl rfl)
    | startTrace | suspendCallback | resumeCallback => exact sinks
    | stopTrace | finiTrace => exact .inr (.inr rfl)
  | unbound fail => cases fail
  | bound | enableEnter => exact .inr (.inl rfl)
  | detach =>
    refine .inl ?_
    have on := sinks.resolve_right (by rintro (off | off) <;> cases off)
    unfold Mem.detach
    split <;> exact on
  | waitpid m' reported =>
    refine .inl ?_
    have on := sinks.resolve_right (by rintro (off | off) <;> cases off)
    rcases waitpid_cases reported with ⟨w, rest, _, rfl⟩ | ⟨_, _, rfl⟩ <;> exact on
  | suspend | resume =>
    have on := sinks.resolve_right (by rintro (off | off) <;> cases off)
    exact .inl on
  | _ => exact sinks

/-- A signal to the tracee does not touch the sinks. -/
theorem signals_collecting (m : Mem r) (sender : Sender) :
    (m.sigstop sender).collecting = m.collecting ∧ m.sigcont.collecting = m.collecting := by
  constructor
  · unfold Mem.sigstop
    split <;> rfl
  · unfold Mem.sigcont
    split <;> rfl

/-- A piece of work that was done in a run without failures was done well. -/
theorem FetcherMove.works {threshold : BitVec 64} {m m' : Mem r} {p q : FetcherPc}
    (h : FetcherMove threshold .ok m p m' q) (worked : ∀ task o, p = .work task (.leave o) → o = .ok)
    (task : Task) (o : Outcome) (at_ : q = .work task (.leave o)) : o = .ok := by
  cases h with
  | workBody task' =>
    cases at_
    rfl
  | workLeave task' o' => cases task' <;> cases o' <;> cases at_
  | waitLeave reason e => cases reason <;> cases at_
  | _ => cases at_

theorem FetcherMove.sinks {threshold : BitVec 64} {m m' : Mem r} {p q : FetcherPc}
    (h : FetcherMove threshold .ok m p m' q) (worked : ∀ task o, p = .work task (.leave o) → o = .ok)
    (sinks : m.collecting = true ∨ p.paused = true) :
    m'.collecting = true ∨ q.paused = true := by
  cases h with
  | workBody task =>
    cases task with
    | disable | fetch => exact .inr rfl
    | enable => exact .inl rfl
    | lastFetch => exact sinks
  | workLeave task o' =>
    cases worked task o' rfl
    cases task with
    | disable | fetch => exact .inr rfl
    | enable | lastFetch => exact sinks
  | workEnter task => cases task <;> exact sinks
  | waitLeave reason e => cases reason <;> exact sinks
  | stop =>
    have same := (signals_collecting (m.log (.kill sigstop .ok)) .fetcher).1
    exact sinks.imp same.trans id
  | cont =>
    have same := (signals_collecting (m.log (.kill sigcont .ok)) .fetcher).2
    have on : m.collecting = true := sinks.resolve_right nofun
    exact .inl (same.trans on)
  | contFails fail => cases fail
  | _ => exact sinks

/-- A signal to a tracee in its ptrace stop is left for later. -/
theorem signals_traced {m : Mem r} (sender : Sender) (h : ∃ pending, m.tracee = .traced pending) :
    (∃ pending, (m.sigstop sender).tracee = .traced pending) ∧
      ∃ pending, m.sigcont.tracee = .traced pending := by
  obtain ⟨pending, traced⟩ := h
  constructor
  · cases pending with
    | none => exact ⟨some sender, by simp [Mem.sigstop, traced]⟩
    | some first => exact ⟨some first, by simp [Mem.sigstop, traced]⟩
  · exact ⟨none, by simp [Mem.sigcont, traced]⟩

/-- A step of neither thread. -/
theorem Collects.outside {v : View r} (h : Collects v) {m : Mem r}
    (collecting : m.collecting = v.mem.collecting)
    (traced : v.parent.starting = true → ∃ pending, m.tracee = .traced pending) :
    Collects ⟨m, v.parent, v.fetcher⟩ :=
  ⟨h.worked, traced, h.sinks.imp_left collecting.trans⟩

theorem collects_move {threshold : BitVec 64} {v v' : View r} {a : Action} (h : Collects v)
    (perfect : flawless a = true) (moved : Move threshold v a v') : Collects v' := by
  cases moved with
  | still => exact h
  | parent o m' q moved =>
    obtain rfl : o = .ok := by simpa [flawless] using perfect
    refine ⟨h.worked, ?_, ?_⟩
    · intro starting
      obtain ⟨pending, traced⟩ := h.starting (moved.starting_back starting)
      rcases moved.process with same | ⟨_, rfl, _⟩ | ⟨_, rfl, _⟩
      · exact ⟨pending, same.tracee.trans traced⟩
      · cases starting
      · cases starting
    · have sinks := h.sinks
      have next := moved.sinks
      tauto
  | fetcher o m' q moved =>
    obtain rfl : o = .ok := by simpa [flawless] using perfect
    have next := moved.sinks h.worked
    refine ⟨?_, ?_, ?_⟩
    · exact moved.works h.worked
    · intro starting
      have before := h.starting starting
      rcases moved.process with same | ⟨_, _, _, same⟩ | ⟨_, _, _, same⟩
      · rw [same.tracee]
        exact before
      · rw [same.tracee]
        exact (signals_traced .fetcher before).1
      · rw [same.tracee]
        exact (signals_traced .fetcher before).2
    · have sinks := h.sinks
      tauto
  | write n running =>
    have same := (write_process n v.mem).tracee
    refine h.outside ?_ fun starting => same ▸ h.starting starting
    unfold Mem.write
    split <;> rfl
  | exit status running =>
    refine h.outside rfl fun starting => ?_
    obtain ⟨pending, traced⟩ := h.starting starting
    rw [traced] at running
    cases running
  | takeStop sender running =>
    refine h.outside rfl fun starting => ?_
    obtain ⟨pending, traced⟩ := h.starting starting
    rw [traced] at running
    cases running
  | sigstop =>
    exact h.outside (signals_collecting v.mem .other).1 fun starting =>
      (signals_traced .other (h.starting starting)).1
  | sigcont =>
    exact h.outside (signals_collecting v.mem .other).2 fun starting =>
      (signals_traced .other (h.starting starting)).2

/-! ## One fetch -/

/-- From the fetch of a cycle to the wait that does not end. -/
def FetcherPc.trapped : FetcherPc → Bool
  | .work .fetch (.leave _) | .work .enable _ | .cont | .wait .resumed _ => true
  | _ => false

def Call.empties : Call → Bool
  | .fetchTrace _ o => o == .ok
  | _ => false

/-- How often the ring has been emptied by a fetch. -/
def emptied (calls : List Call) : Nat := calls.countP Call.empties

theorem Recorded.emptied {calls calls' : List Call} (h : Recorded calls calls') :
    emptied calls' = emptied calls := by
  obtain ⟨new, rfl, fine⟩ := h
  have none : new.countP Call.empties = 0 := by
    apply List.countP_eq_zero.mpr
    intro c hc empties
    have other := (fine c hc).2
    cases c with
    | fetchTrace => cases other
    | _ => cases empties
  rw [Handshake.emptied, List.countP_append, none, Nat.zero_add]
  rfl

/-- The fetcher empties the ring by its two fetches only. -/
theorem FetcherMove.fetches {threshold : BitVec 64} {m m' : Mem r} {p q : FetcherPc}
    (h : FetcherMove threshold .ok m p m' q) :
    emptied m'.calls = emptied m.calls ∧ (∀ c ∈ m.calls, c ∈ m'.calls) ∨
      p = .work .fetch .body ∧ q = .work .fetch (.leave .ok) ∧
        m'.calls = .fetchTrace false .ok :: m.calls ∨
      p = .work .lastFetch .body ∧ m'.calls = .fetchTrace true .ok :: m.calls := by
  have one {c : Call} (same : m'.calls = c :: m.calls) (other : c.empties = false) :
      emptied m'.calls = emptied m.calls ∧ ∀ c ∈ m.calls, c ∈ m'.calls := by
    rw [same]
    refine ⟨?_, fun _ => List.mem_cons_of_mem c⟩
    rw [emptied, List.countP_cons, other]
    rfl
  cases h with
  | workBody task =>
    cases task with
    | disable | enable => exact .inl (one rfl rfl)
    | fetch => exact .inr (.inl ⟨rfl, rfl, rfl⟩)
    | lastFetch => exact .inr (.inr ⟨rfl, rfl⟩)
  | started | notStopped | contFails | contGone => exact .inl (one rfl rfl)
  | stop => exact .inl (one (sigstop_log .fetcher (m.log (.kill sigstop .ok))).calls rfl)
  | cont => exact .inl (one (sigcont_log (m.log (.kill sigcont .ok))).calls rfl)
  | _ => exact .inl ⟨rfl, fun _ hc => hc⟩

theorem FetcherMove.stays {threshold : BitVec 64} {m m' : Mem r} {p q : FetcherPc}
    (h : FetcherMove threshold .ok m p m' q) (worked : ∀ task o, p = .work task (.leave o) → o = .ok)
    (waits : ∀ e, p ≠ .wait .resumed (.leave e)) (there : p = .cont → m.tracee ≠ .reaped)
    (trapped : p.trapped = true) : q.trapped = true := by
  cases h with
  | workLeave task o' =>
    cases worked task o' rfl
    cases task <;> first | rfl | cases trapped
  | workBody task => cases task <;> first | rfl | cases trapped
  | workEnter task => cases task <;> first | rfl | cases trapped
  | waitLeave reason e =>
    cases reason with
    | resumed => exact absurd rfl (waits e)
    | worker | suspended | killed => cases trapped
  | contGone _ gone => exact absurd gone (there rfl)
  | contFails fail => cases fail
  | cont => rfl
  | waitEnter reason | found reason | notFound reason | sleep reason =>
    cases reason <;> first | rfl | cases trapped
  | _ => cases trapped

/-- The ring has not been emptied, or by the last fetch only, or the fetcher does
not get any further. -/
def FetchesOnce (v : View r) : Prop :=
  v.fetcher.trapped = true ∨ emptied v.mem.calls ≤ 1 ∧
    (emptied v.mem.calls ≠ 0 → ∃ c ∈ v.mem.calls, c.fetchesLast = true)

/-- What is known of a run without failures or intrusions. -/
structure Watched (v : View r) : Prop where
  reports : Reports v
  unresumed : Unresumed v
  stopped : Stopped v
  polling : OnePolling v
  delivered : Delivered v
  collects : Collects v
  fetches : FetchesOnce v

theorem FetchesOnce.same {v : View r} (h : FetchesOnce v) {m : Mem r} {p : ParentPc}
    (calls : emptied m.calls = emptied v.mem.calls) (grows : ∀ c ∈ v.mem.calls, c ∈ m.calls) :
    FetchesOnce ⟨m, p, v.fetcher⟩ := by
  refine h.imp id ?_
  rintro ⟨once, last⟩
  show emptied m.calls ≤ 1 ∧ (emptied m.calls ≠ 0 → _)
  rw [calls]
  refine ⟨once, fun some => ?_⟩
  obtain ⟨c, hc, fetches⟩ := last some
  exact ⟨c, grows c hc, fetches⟩

theorem fetches_move {threshold : BitVec 64} {v v' : View r} {a : Action} (h : Watched v)
    (perfect : flawless a = true) (moved : Move threshold v a v') : FetchesOnce v' := by
  cases moved with
  | still => exact h.fetches
  | parent o m' q moved =>
    have record := parent_record moved
    refine h.fetches.same record.emptied ?_
    obtain ⟨new, calls, _⟩ := record
    intro c hc
    rw [calls]
    exact List.mem_append_right _ hc
  | fetcher o m' q moved =>
    obtain rfl : o = .ok := by simpa [flawless] using perfect
    by_cases trapped : v.fetcher.trapped = true
    · refine .inl (moved.stays h.collects.worked h.unresumed.waits.1 ?_ trapped)
      intro at_ gone
      have still := h.stopped.window (by rw [at_]; rfl)
      rw [gone] at still
      cases still
    · obtain ⟨once, last⟩ := h.fetches.resolve_left trapped
      rcases moved.fetches with ⟨same, grows⟩ | ⟨_, rfl, _⟩ | ⟨here, calls⟩
      · refine .inr ?_
        show emptied m'.calls ≤ 1 ∧ (emptied m'.calls ≠ 0 → _)
        rw [same]
        refine ⟨once, fun some => ?_⟩
        obtain ⟨c, hc, fetches⟩ := last some
        exact ⟨c, grows c hc, fetches⟩
      · exact .inl rfl
      · -- a last fetch follows no other
        have none : emptied v.mem.calls = 0 := by
          by_contra some
          have late := (h.polling.polls.last (last some)).1
          rw [here] at late
          cases late
        refine .inr ⟨?_, fun _ => ⟨.fetchTrace true .ok, ?_, rfl⟩⟩
        · show emptied m'.calls ≤ 1
          rw [calls, emptied, List.countP_cons, show List.countP _ _ = 0 from none]
          exact Nat.le_refl 1
        · rw [calls]
          exact List.mem_cons_self
  | write n =>
    have same := write_calls n v.mem
    exact h.fetches.same (congrArg emptied same) fun _ hc => same ▸ hc
  | exit => exact h.fetches.same rfl fun _ hc => hc
  | takeStop => exact h.fetches.same rfl fun _ hc => hc
  | sigstop =>
    have same := (sigstop_log .other v.mem).calls
    exact h.fetches.same (congrArg emptied same) fun _ hc => same ▸ hc
  | sigcont =>
    have same := (sigcont_log v.mem).calls
    exact h.fetches.same (congrArg emptied same) fun _ hc => same ▸ hc

theorem watched_start (threshold : BitVec 64) (etr : r.Writer) (initPos : BitVec 64) :
    Watched (view (start etr initPos)) := by
  constructor
  · exact reports_start etr initPos
  · exact unresumed_start etr initPos
  · exact nofun
  · exact (free_start threshold etr initPos).onePolling
  · exact delivered_start etr initPos
  · exact ⟨nofun, fun _ => ⟨none, rfl⟩, .inr (.inl rfl)⟩
  · exact .inr ⟨Nat.zero_le 1, fun some => absurd rfl some⟩

theorem watched {threshold : BitVec 64} {etr : r.Writer} {initPos : BitVec 64} {w : System r}
    (h : Reach (step threshold) undisturbed (start etr initPos) w) : Watched (view w) := by
  refine view_invariant (watched_start threshold etr initPos) ?_ h
  intro u a v' known allowed moved
  simp only [undisturbed, Bool.and_eq_true] at allowed
  obtain ⟨⟨⟨perfect, sees⟩, alone⟩, found⟩ := allowed
  constructor
  · exact reports_move known.reports moved
  · exact unresumed_move known.unresumed moved
  · exact stopped_move known.reports known.stopped alone found moved
  · exact onePolling_move known.polling moved
  · exact delivered_move ⟨known.reports, known.polling.signals⟩ known.delivered perfect sees moved
  · exact collects_move known.collects perfect moved
  · exact fetches_move known perfect moved

/-! ## The bytes -/

theorem ParentMove.tears {o : Outcome} {m m' : Mem r} {p q : ParentPc}
    (h : ParentMove o m p m' q) (tearing : p.tearing = true) : q.tearing = true := by
  cases h with
  | exportTrace | cleanUp => rfl
  | _ => cases tearing

theorem tearing_announced {p : ParentPc} (h : p.tearing = true) : p.announced = true := by
  cases p with
  | exportTrace | cleanUp | done => rfl
  | _ => cases h

/-- At the teardown of a trace that was polled the last fetch has been made. -/
theorem Delivered.complete {v : View r} (h : Delivered v) (ended : v.fetcher = .returned)
    (tearing : v.parent.tearing = true) : FetchedAfterStop v.mem.calls := by
  have found := h.started (tearing_announced tearing)
  have polled : .polling ∈ v.mem.calls := by simpa [Handshake.started, ended] using found
  exact h.polled (by rw [ended]; rfl) polled

theorem FetchedAfterStop.emptied {calls : List Call} (h : FetchedAfterStop calls) :
    emptied calls ≠ 0 := by
  obtain ⟨newer, last, older, rfl, _⟩ := h
  intro none
  exact List.countP_eq_zero.mp none _ (List.mem_append_right _ List.mem_cons_self) rfl

/-- Nothing is lost between the tracee and the file but what the ring overwrites. -/
structure Lossless (x : System r × Tape r) : Prop where
  counted : x.2.segments.length = emptied x.1.mem.calls
  buffer : x.2.traceBuf.Holds (layout 8 0 (kept r x.2.segments))
  collected : x.2.collected = x.2.produced
  file : x.2.file ≠ none → (view x.1).parent.tearing = true ∧ x.2.current = []

/-- A step beside the bytes. -/
theorem Lossless.aside {x : System r × Tape r} (h : Lossless x) {w' : System r}
    (calls : emptied w'.mem.calls = emptied x.1.mem.calls)
    (tears : (view x.1).parent.tearing = true → (view w').parent.tearing = true) :
    Lossless (w', x.2) :=
  ⟨h.counted.trans calls.symm, h.buffer, h.collected, fun written => (h.file written).imp_left tears⟩

theorem lossless_parent {threshold : BitVec 64} {x : System r × Tape r} {w' : System r}
    {o : Outcome} (known : Watched (view x.1)) (joined : Joined (view x.1)) (taping : Taping x)
    (h : Lossless x) (moved : fire (code r threshold) .parent o x.1 = some w') :
    Lossless (w', x.2.follow x.1 (.parent o)) := by
  have calls : emptied w'.mem.calls = emptied x.1.mem.calls := by
    rcases fire_after moved with ⟨mem, _⟩ | after
    · rw [mem]
    · exact (parent_record (parent_move after)).emptied
  have tears : (view x.1).parent.tearing = true → (view w').parent.tearing = true := by
    intro tearing
    rcases fire_after moved with ⟨_, point⟩ | after
    · rw [show (view w').parent = (view x.1).parent from point]
      exact tearing
    · exact (parent_move after).tears tearing
  by_cases exporting : x.1.ctl .parent = .run (.exportTrace : ParentPc)
  · have at_ : (view x.1).parent = .exportTrace := by simp only [view, exporting, Ctl.point]
    have tearing : (view x.1).parent.tearing = true := by rw [at_]; rfl
    have fetched := known.delivered.complete (joined.ended (joined.joined tearing)) tearing
    have unread : x.2.ring.unread = 0 := by
      have etr := taping.etr.resolve_left fun done => by
        rw [at_] at done
        cases done
      rw [← etr]
      exact known.delivered.drained fetched
    have follows : x.2.follow x.1 (.parent o) = x.2.exportFile := if_pos exporting
    rw [follows]
    refine ⟨h.counted.trans calls.symm, h.buffer, h.collected, fun _ => ⟨tears tearing, ?_⟩⟩
    rw [taping.good.ring.unread] at unread
    exact List.eq_nil_of_length_eq_zero unread
  · have follows : x.2.follow x.1 (.parent o) = x.2 := if_neg exporting
    rw [follows]
    exact h.aside calls tears

theorem lossless_fetcher {threshold : BitVec 64} (small : r.size < 2 ^ 31)
    {x : System r × Tape r} {w' : System r} {o : Outcome} {f : Fetch} (taping : Taping x)
    (h : Lossless x) (perfect : flawless ((Input.fetcher o f).action x) = true)
    (delivery : delivers x (.fetcher o f) = true)
    (moved : step threshold x.1 ((Input.fetcher o f).action x) = some w') :
    Lossless (w', x.2.follow x.1 (.fetcher o f)) := by
  have parent : (view w').parent = (view x.1).parent := fire_other moved (by decide)
  by_cases now : fetching x.1 = true
  · have follows : x.2.follow x.1 (.fetcher o f) = (x.2.fetch f).2 := if_pos now
    have fetched := taping.good.fetched small (delivers_fetch delivery now)
    simp only [Input.action, if_pos now, flawless, beq_iff_eq] at perfect moved
    rw [perfect] at fetched moved
    have calls : emptied w'.mem.calls = emptied x.1.mem.calls + 1 := by
      simp only [fetching, Bool.or_eq_true, beq_iff_eq] at now
      have one {c : Call} (added : w'.mem.calls = c :: x.1.mem.calls) (empties : c.empties = true) :
          emptied w'.mem.calls = emptied x.1.mem.calls + 1 := by
        rw [added, emptied, List.countP_cons, if_pos empties]
        rfl
      rcases now with here | here
      · exact one (congrArg Mem.calls (work_mem here moved)) rfl
      · exact one (congrArg Mem.calls (work_mem here moved)) rfl
    rw [follows]
    generalize (x.2.fetch f).2 = t at fetched
    cases fetched with
    | ok b holds =>
      refine ⟨?_, holds, h.collected, ?_⟩
      · show (x.2.segments ++ [x.2.current]).length = emptied w'.mem.calls
        rw [List.length_append, h.counted, calls]
        rfl
      · intro written
        show (view w').parent.tearing = true ∧ _
        rw [parent]
        exact ⟨(h.file written).1, rfl⟩
  · have follows : x.2.follow x.1 (.fetcher o f) = x.2 := if_neg now
    simp only [Input.action, if_neg now, flawless, beq_iff_eq] at perfect moved
    subst perfect
    rw [follows]
    refine h.aside ?_ (by rw [parent]; exact id)
    rcases fire_mem moved with same | ⟨p, q, here, after⟩
    · rw [same]
    · rcases (fetcher_move after).fetches with ⟨same, _⟩ | ⟨rfl, _⟩ | ⟨rfl, _⟩
      · exact same
      · simp [fetching, here] at now
      · simp [fetching, here] at now

theorem lossless_step {threshold : BitVec 64} (small : r.size < 2 ^ 31)
    {x x' : System r × Tape r} {i : Input} (known : Watched (view x.1)) (joined : Joined (view x.1))
    (taping : Taping x) (h : Lossless x) (perfect : flawless (i.action x) = true)
    (delivery : delivers x i = true) (moved : record threshold x i = some x') : Lossless x' := by
  obtain ⟨w', t'⟩ := x'
  obtain ⟨step, rfl⟩ := record_step moved
  cases i with
  | parent o => exact lossless_parent known joined taping h step
  | fetcher o f => exact lossless_fetcher small taping h perfect delivery step
  | write bytes =>
    simp only [Input.action, Handshake.step, Option.ite_none_right_eq_some,
      Option.some.injEq] at step
    obtain ⟨running, rfl⟩ := step
    have on := known.collects.running known.reports known.stopped running
    have follows : x.2.follow x.1 (.write bytes) = x.2.write true bytes := congrArg (x.2.write · bytes) on
    rw [follows]
    refine ⟨?_, h.buffer, ?_, ?_⟩
    · show x.2.segments.length = emptied (x.1.mem.write bytes.length).calls
      rw [write_calls]
      exact h.counted
    · exact congrArg (· ++ bytes) h.collected
    · intro written
      have gone := known.reports.closing (stopped_closing (announced_stopped
        (tearing_announced (h.file written).1)))
      rw [show x.1.mem.tracee = .reaped from gone] at running
      cases running
  | exit status =>
    simp only [Input.action, Handshake.step, Option.ite_none_right_eq_some,
      Option.some.injEq] at step
    obtain ⟨_, rfl⟩ := step
    exact h.aside rfl id
  | takeStop =>
    obtain ⟨m', taken, rfl⟩ := Option.map_eq_some_iff.mp step
    obtain ⟨sender, _, rfl⟩ := takeStop_cases taken
    exact h.aside rfl id
  | sigstop =>
    simp only [Input.action, Handshake.step, Option.ite_none_left_eq_some,
      Option.some.injEq] at step
    obtain ⟨_, rfl⟩ := step
    exact h.aside (congrArg emptied (sigstop_log .other x.1.mem).calls) id
  | sigcont =>
    simp only [Input.action, Handshake.step, Option.ite_none_left_eq_some,
      Option.some.injEq] at step
    obtain ⟨_, rfl⟩ := step
    exact h.aside (congrArg emptied (sigcont_log x.1.mem).calls) id
  | wake t =>
    obtain ⟨mem, points⟩ := spurious_point step
    refine h.aside (by rw [mem]) ?_
    rw [show (view w').parent = (view x.1).parent from points .parent]
    exact id

theorem lossless {threshold : BitVec 64} (small : r.size < 2 ^ 31) {cells : r.Memory UInt8}
    {b : Buf} (empty : b.Holds []) {initPos : BitVec 64} {x : System r × Tape r}
    (h : Reach (record threshold) (fun x i => undisturbed x.1 (i.action x) && delivers x i)
      (start r.empty initPos, blank cells b) x) : Lossless x := by
  have known : ∀ x, Reach (record threshold)
      (fun x i => undisturbed x.1 (i.action x) && delivers x i)
      (start r.empty initPos, blank cells b) x →
        Watched (view x.1) ∧ Joined (view x.1) ∧ Taping x := fun _ reached =>
    ⟨watched (record_reach reached), joined (record_reach reached),
      taping undisturbed small empty reached⟩
  refine h.invariant_with known ⟨rfl, empty, rfl, fun written => absurd rfl written⟩ ?_
  rintro x i x' ⟨watched, joined, taping⟩ inv allowed moved
  simp only [undisturbed, Bool.and_eq_true] at allowed
  exact lossless_step small watched joined taping inv allowed.1.1.1.1 allowed.2 moved

/-- **The file is the end of what the tracee produced.** In every run in which
nothing fails, the ETR delivers what the ring gives back, the fetcher sees the start
of the trace, each of its `SIGSTOP`s is the only stop pending, in force or heard of,
and nobody else continues the tracee in the fetch cycle, the file is written after
one fetch of all that the tracee produced, and it has the newest bytes of it, as
many as the ring has room for. -/
theorem whole_trace_exported (threshold : BitVec 64) (small : r.size < 2 ^ 31)
    (cells : r.Memory UInt8) (b : Buf) (empty : b.Holds []) (initPos : BitVec 64)
    (x : System r × Tape r)
    (h : Reach (record threshold) (fun x i => undisturbed x.1 (i.action x) && delivers x i)
      (start r.empty initPos, blank cells b) x) (bytes : List UInt8)
    (written : x.2.file = some bytes) :
    x.2.segments = [x.2.produced] ∧ bytes = x.2.produced.rtake r.size := by
  have lossless : Lossless x := lossless small empty h
  have watched := watched (record_reach h)
  have taping : Taping x := taping undisturbed small empty h
  obtain ⟨tearing, current⟩ := lossless.file (by rw [written]; nofun)
  obtain ⟨returned, eq⟩ := taping.file bytes written
  have some := (watched.delivered.complete returned tearing).emptied
  have once : emptied x.1.mem.calls ≤ 1 := by
    rcases watched.fetches with trapped | ⟨once, _⟩
    · rw [returned] at trapped
      cases trapped
    · exact once
  obtain ⟨s, single⟩ : ∃ s, x.2.segments = [s] := by
    apply List.length_eq_one_iff.mp
    rw [lossless.counted]
    exact Nat.le_antisymm once (Nat.pos_of_ne_zero some)
  have all : s = x.2.produced := by
    have collected := taping.good.collected
    rw [single, current, lossless.collected] at collected
    simpa using collected.symm
  rw [single, all]
  refine ⟨rfl, ?_⟩
  rw [eq, exportTrace, lossless.buffer.contents_eq, single, all]
  rfl

/-- Ten bytes in a ring of eight. -/
theorem whole_trace_ten : ∃ x : System smallRing × Tape smallRing,
    Reach (record 16) (fun x i => undisturbed x.1 (i.action x) && delivers x i)
      (start smallRing.empty 0, blank staleCells (.map 16 TraceBuffer.sixteen)) x ∧
    x.2.file = some [3, 4, 5, 6, 7, 8, 9, 10] ∧ x.2.segments = [x.2.produced] ∧
    x.2.produced.rtake 8 = [3, 4, 5, 6, 7, 8, 9, 10] := by
  have replay : (exec (record 16) (fun x i => undisturbed x.1 (i.action x) && delivers x i)
      ((start smallRing.empty 0, blank staleCells (.map 16 TraceBuffer.sixteen)) :
        System smallRing × Tape smallRing)
      (sessionWriting [1, 2, 3, 4, 5, 6, 7, 8, 9, 10] [3, 4, 5, 6, 7, 8, 9, 10])).any
      (fun x => x.2.file == some [3, 4, 5, 6, 7, 8, 9, 10]) = true := by
    decide +kernel
  obtain ⟨x, reached, test⟩ := reach_of_exec replay
  have written : x.2.file = some [3, 4, 5, 6, 7, 8, 9, 10] := by simpa using test
  have empty : (Buf.map 16 TraceBuffer.sixteen).Holds [] := Buf.holds_map _ ⟨1, rfl⟩
  obtain ⟨once, bytes⟩ := whole_trace_exported 16 (by decide) staleCells _ empty 0 x reached _ written
  exact ⟨x, reached, written, once, bytes.symm⟩

end Ultrasight.Handshake
