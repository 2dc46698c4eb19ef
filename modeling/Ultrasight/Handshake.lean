import Ultrasight.Threads
import Ultrasight.TraceState
import Ultrasight.Parent
import Ultrasight.Polling

/-!
# The handshake of parent, fetcher and tracee

In fetcher mode two threads of the tracer run beside the tracee. `parent()`
drives the session and turns wait statuses into trace states, and the fetcher
thread polls the ETR, stops the tracee, fetches and lets it go on. They meet in
`trace_state`, `trace_event`, four mutexes and the process state of the tracee.

* the shared functions (`setTraceState`, `waitEvent`, `underTraceMutex`, the
  exit block) are bodies with program points of their own;
* `ParentPc` and `FetcherPc` are the points of the two threads, `code` is what
  stands there;
* `step` interleaves them with the tracee and with other processes.

A run starts in `init_trace`, just after the fetcher thread was created.
-/

namespace Ultrasight.Handshake

open Threads TraceState TraceEvent

inductive Mutex where
  | traceMutex | traceStateMutex | traceEventMutex | traceFetcherMutex
  deriving DecidableEq, Repr

inductive Cond where
  | traceEventCond | traceFetcherCond
  deriving DecidableEq, Repr

/-- How a call inside a step turns out. -/
inductive Outcome where
  | ok | fail
  deriving DecidableEq, Repr

inductive Sender where
  | fetcher | other
  deriving DecidableEq, Repr

/-- The process state of the tracee: in a ptrace stop or running, either perhaps
with a `SIGSTOP` that was sent and is not taken yet, stopped by someone, exited
with a status, and reaped. -/
inductive Tracee where
  | traced (pending : Option Sender)
  | running (pending : Option Sender)
  | stopped (sender : Sender)
  | zombie (status : Nat)
  | reaped
  deriving DecidableEq, Repr

def Tracee.runs : Tracee → Bool
  | .running _ => true
  | .traced _ | .stopped _ | .zombie _ | .reaped => false

/-- Who sent the `SIGSTOP` that is pending or in force. -/
def Tracee.stopOf : Tracee → Option Sender
  | .traced pending | .running pending => pending
  | .stopped sender => some sender
  | .zombie _ | .reaped => none

/-- What the two threads do to each other's world, newest first in the log. -/
inductive Call where
  | polling
  | kill (signal : Nat) (outcome : Outcome)
  | enableCsTrace (outcome : Outcome)
  | disableCsTrace (all : Bool) (outcome : Outcome)
  | fetchTrace (last : Bool) (outcome : Outcome)
  | exportTrace
  | csShutdown
  deriving DecidableEq, Repr

/-- Everything that is not a program point or a mutex. `ret` and `initPos` are
the locals of `trace_sink_polling`, `transitions`, `signals` and `calls` are
records of what was done. -/
structure Mem (r : Ring) where
  traceState : TraceState
  traceEvent : TraceEvent
  transitions : List (TraceState × TraceState)
  signals : List TraceEvent
  fetcherReady : Bool
  fetcherReturned : Bool
  tracee : Tracee
  statuses : List Nat
  wstatus : Nat
  etr : r.Writer
  collecting : Bool
  initPos : BitVec 64
  ret : Int
  calls : List Call

variable {r : Ring}

def terminated (wstatus : Nat) : Bool := wifexited wstatus || wifsignaled wstatus

namespace Mem

def log (c : Call) (m : Mem r) : Mem r := { m with calls := c :: m.calls }

/-- `SIGSTOP` to the tracee. `kill` only leaves the signal with the process. -/
def sigstop (sender : Sender) (m : Mem r) : Mem r :=
  match m.tracee with
  | .traced none => { m with tracee := .traced (some sender) }
  | .running none => { m with tracee := .running (some sender) }
  | .traced (some _) | .running (some _) | .stopped _ | .zombie _ | .reaped => m

def stop (sender : Sender) (m : Mem r) : Mem r :=
  { m with tracee := .stopped sender, statuses := m.statuses ++ [stopStatus Ultrasight.sigstop] }

/-- The running tracee takes the `SIGSTOP` that was sent, and its stop is reported. -/
def takeStop (m : Mem r) : Option (Mem r) :=
  match m.tracee with
  | .running (some sender) => some (m.stop sender)
  | .traced _ | .running none | .stopped _ | .zombie _ | .reaped => none

/-- `SIGCONT` to the tracee. It removes a `SIGSTOP` that is not taken yet, and only
a continuation from a stop is reported. -/
def sigcont (m : Mem r) : Mem r :=
  match m.tracee with
  | .traced _ => { m with tracee := .traced none }
  | .running _ => { m with tracee := .running none }
  | .stopped _ => { m with tracee := .running none, statuses := m.statuses ++ [continuedStatus] }
  | .zombie _ | .reaped => m

/-- `PTRACE_DETACH`: the tracee runs on. -/
def detach (m : Mem r) : Mem r :=
  match m.tracee with
  | .traced pending => { m with tracee := .running pending }
  | .running _ | .stopped _ | .zombie _ | .reaped => m

/-- The tracee writes `n` bytes of trace; they are lost while no sink collects. -/
def write (n : Nat) (m : Mem r) : Mem r :=
  if m.collecting then { m with etr := m.etr.write n } else m

def exit (status : Nat) (m : Mem r) : Mem r :=
  { m with tracee := .zombie status, statuses := m.statuses ++ [status] }

/-- `waitpid(pid, &wstatus, WUNTRACED | WCONTINUED)`: blocks (`none`) while
there is nothing to report, reaps the child with its last status, and fails
without touching `wstatus` afterwards. -/
def waitpid (m : Mem r) : Option (Mem r) :=
  match m.statuses with
  | w :: rest =>
    some { m with wstatus := w, statuses := rest, tracee := if terminated w then .reaped else m.tracee }
  | [] => if m.tracee = .reaped then some m else none

/-- `enable_cs_trace` inside its critical section; it shuts CSAL down when it
fails. -/
def enableCsTrace (o : Outcome) (m : Mem r) : Mem r :=
  match o with
  | .ok => { m.log (.enableCsTrace o) with collecting := true }
  | .fail => (m.log (.enableCsTrace o)).log .csShutdown

/-- `disable_cs_trace` inside its critical section. -/
def disableCsTrace (all : Bool) (o : Outcome) (m : Mem r) : Mem r :=
  match o with
  | .ok => { m.log (.disableCsTrace all o) with collecting := false }
  | .fail => m.log (.disableCsTrace all o)

/-- `fetch_trace` inside its critical section; it empties the ETR. -/
def fetchTrace (last : Bool) (o : Outcome) (m : Mem r) : Mem r :=
  match o with
  | .ok => { m.log (.fetchTrace last o) with etr := r.empty }
  | .fail => m.log (.fetchTrace last o)

end Mem

/-! ## The shared functions -/

abbrev Body (r : Ring) (P : Type) := Instr Mutex Cond Outcome (Mem r) P

inductive SignalPc where
  | enter | assign | broadcast | leave
  deriving DecidableEq, Repr

/-- `signal_trace_event`; `none` is the return. -/
def signalTraceEvent (event : TraceEvent) : SignalPc → Body r (Option SignalPc)
  | .enter => .lock .traceEventMutex (some .assign)
  | .assign => .act fun _ m =>
      some ({ m with traceEvent := event, signals := event :: m.signals }, some .broadcast)
  | .broadcast => .broadcast .traceEventCond (some .leave)
  | .leave => .unlock .traceEventMutex none

inductive SetPc where
  | enter
  | read
  | write (old : TraceState)
  | signal (event : TraceEvent) (p : SignalPc)
  | leave
  deriving DecidableEq, Repr

/-- `set_trace_state`. -/
def setTraceState (new : TraceState) : SetPc → Body r (Option SetPc)
  | .enter => .lock .traceStateMutex (some .read)
  | .read => .act fun _ m => some (m, some (.write m.traceState))
  | .write old => .act fun _ m =>
      some ({ m with traceState := new, transitions := (old, new) :: m.transitions },
        match signalled old new with
        | some event => some (.signal event .enter)
        | none => some .leave)
  | .signal event p => (signalTraceEvent event p).map fun
      | some p => some (.signal event p)
      | none => some .leave
  | .leave => .unlock .traceStateMutex none

inductive WaitPc where
  | enter
  | test
  | sleep
  | leave (event : TraceEvent)
  deriving DecidableEq, Repr

/-- `wait_trace_event`, and the same loop written out where several events are
waited for; it returns the event found. -/
def waitEvent (wanted : TraceEvent → Bool) : WaitPc → Body r (WaitPc ⊕ TraceEvent)
  | .enter => .lock .traceEventMutex (.inl .test)
  | .test => .act fun _ m =>
      some (m, .inl (if wanted m.traceEvent then .leave m.traceEvent else .sleep))
  | .sleep => .wait .traceEventCond .traceEventMutex (.inl .test)
  | .leave event => .unlock .traceEventMutex (.inr event)

inductive SectionPc where
  | enter
  | body
  | leave (outcome : Outcome)
  deriving DecidableEq, Repr

/-- A function that does its work with `trace_mutex` held. -/
def underTraceMutex (work : Outcome → Mem r → Mem r) : SectionPc → Body r (SectionPc ⊕ Outcome)
  | .enter => .lock .traceMutex (.inl .body)
  | .body => .act fun o m => some (work o m, .inl (.leave o))
  | .leave o => .unlock .traceMutex (.inr o)

inductive ExitPc where
  | enter | assign | broadcast | leave
  deriving DecidableEq, Repr

/-- The block behind the `exit` label of `trace_sink_polling`. -/
def exitBlock : ExitPc → Body r (Option ExitPc)
  | .enter => .lock .traceFetcherMutex (some .assign)
  | .assign => .act fun _ m => some ({ m with fetcherReady := true }, some .broadcast)
  | .broadcast => .broadcast .traceFetcherCond (some .leave)
  | .leave => .unlock .traceFetcherMutex none

/-! ## The parent -/

/-- The calls of `set_trace_state`, by the function that makes them. -/
inductive Site where
  | initTrace | startTrace | suspendCallback | resumeCallback | stopTrace | finiTrace
  deriving DecidableEq, Repr

def Site.state : Site → TraceState
  | .initTrace => readyState
  | .startTrace => runningState
  | .suspendCallback => suspendedState
  | .resumeCallback => runningState
  | .stopTrace => readyState
  | .finiTrace => finiState

inductive ParentPc where
  | set (site : Site) (p : SetPc)
  | setCpuAffinity
  | enable (p : SectionPc)
  | detach
  | waitpid
  | branch
  | disable (p : SectionPc)
  | join
  | exportTrace
  | cleanUp
  | done
  deriving DecidableEq, Repr

/-- Where the parent goes on after a change of state. -/
def Site.next : Site → ParentPc
  | .initTrace => .setCpuAffinity
  | .startTrace => .detach
  | .suspendCallback | .resumeCallback => .waitpid
  | .stopTrace => .set .finiTrace .enter
  | .finiTrace => .join

/-- `parent()` from the last steps of `init_trace` on, with `fetcher_on` set. It
ignores the results of `start_trace` and `stop_trace`. -/
def parentCode : ParentPc → Body r ParentPc
  | .set site p => (setTraceState site.state p).map fun
      | some p => .set site p
      | none => site.next
  | .setCpuAffinity => .act fun o m =>
      some (m, match o with | .ok => .enable .enter | .fail => .detach)
  | .enable p => (underTraceMutex Mem.enableCsTrace p).map fun
      | .inl p => .enable p
      | .inr .ok => .set .startTrace .enter
      | .inr .fail => .detach
  | .detach => .act fun _ m => some (m.detach, .waitpid)
  | .waitpid => .act fun _ m => m.waitpid.map fun m => (m, .branch)
  | .branch => .act fun _ m =>
      some (m, match dispatch true m.wstatus with
        | .finish => .disable .enter
        | .ignore => .waitpid
        | .suspend => .set .suspendCallback .enter
        | .resume => .set .resumeCallback .enter)
  | .disable p => (underTraceMutex (Mem.disableCsTrace true) p).map fun
      | .inl p => .disable p
      | .inr .ok => .set .stopTrace .enter
      | .inr .fail => .set .finiTrace .enter
  | .join => .act fun _ m => if m.fetcherReturned then some (m, .exportTrace) else none
  | .exportTrace => .act fun _ m => some (m.log .exportTrace, .cleanUp)
  | .cleanUp => .act fun _ m => some ({ m.log .csShutdown with etr := r.empty }, .done)
  | .done => .halt

/-! ## The fetcher -/

/-- The waits of the fetcher: in `fetcher_worker`, twice in a fetch cycle, and
behind the `killed` label. -/
inductive Wait where
  | worker | suspended | resumed | killed
  deriving DecidableEq, Repr

def Wait.wanted : Wait → TraceEvent → Bool
  | .worker, e => e == startEvent || e == finiEvent
  | .suspended, e => e == suspendEvent
  | .resumed, e => e == resumeEvent
  | .killed, e => e.last

/-- What the fetcher does with the trace mutex held. -/
inductive Task where
  | disable | fetch | enable | lastFetch
  deriving DecidableEq, Repr

/-- The call together with the assignment of its result to `ret`, which after
`disable_cs_trace` is the value of a comparison. -/
def Task.work (task : Task) (o : Outcome) (m : Mem r) : Mem r :=
  match task with
  | .disable => { m.disableCsTrace false o with ret := if o = .fail then 1 else 0 }
  | .fetch => { m.fetchTrace false o with ret := if o = .fail then -1 else 0 }
  | .enable => { m.enableCsTrace o with ret := if o = .fail then -1 else 0 }
  | .lastFetch => { m.fetchTrace true o with ret := if o = .fail then -1 else 0 }

inductive FetcherPc where
  | wait (reason : Wait) (p : WaitPc)
  | received (event : TraceEvent)
  | initPos
  | alive
  | offset
  | stop
  | work (task : Task) (p : SectionPc)
  | cont
  | resample
  | nanosleep
  | exit (p : ExitPc)
  | leave
  | returned
  deriving DecidableEq, Repr

def Wait.next : Wait → TraceEvent → FetcherPc
  | .worker, event => .received event
  | .suspended, _ => .work .disable .enter
  | .resumed, _ => .resample
  | .killed, _ => .work .lastFetch .enter

def Task.next : Task → Outcome → FetcherPc
  | .disable, .ok => .work .fetch .enter
  | .fetch, .ok => .work .enable .enter
  | .enable, .ok => .cont
  | .lastFetch, .ok => .exit .enter
  | _, .fail => .exit .enter

/-- `fetcher_worker` with `trace_sink_polling` inlined. -/
def fetcherCode (fetchThreshold : BitVec 64) : FetcherPc → Body r FetcherPc
  | .wait reason p => (waitEvent reason.wanted p).map fun
      | .inl p => .wait reason p
      | .inr event => reason.next event
  | .received event => .act fun _ m =>
      some (match event with
        | startEvent => (m.log .polling, .initPos)
        | finiEvent => (m, .leave)
        | _ => (m, .wait .worker .enter))
  | .initPos => .act fun _ m => some ({ m with initPos := m.etr.position }, .alive)
  | .alive => .act fun o m =>
      some (m, if o = .ok ∧ m.tracee ≠ .reaped then .offset else .wait .killed .enter)
  | .offset => .act fun _ m =>
      some (m, if Polling.overThreshold fetchThreshold m.etr.position m.initPos then .stop
        else .nanosleep)
  | .stop => .act fun o m =>
      some (if o = .ok ∧ m.tracee ≠ .reaped then
          ({ (m.log (.kill sigstop .ok)).sigstop .fetcher with ret := 0 }, .wait .suspended .enter)
        else ({ m.log (.kill sigstop .fail) with ret := -1 }, .wait .killed .enter))
  | .work task p => (underTraceMutex task.work p).map fun
      | .inl p => .work task p
      | .inr o => task.next o
  | .cont => .act fun o m =>
      some (if o = .fail then ({ m.log (.kill sigcont .fail) with ret := -1 }, .exit .enter)
        else if m.tracee = .reaped then
          ({ m.log (.kill sigcont .fail) with ret := -1 }, .wait .killed .enter)
        else ({ (m.log (.kill sigcont .ok)).sigcont with ret := 0 }, .wait .resumed .enter))
  | .resample => .act fun _ m => some ({ m with initPos := m.etr.position }, .nanosleep)
  | .nanosleep => .act fun _ m => some (m, .alive)
  | .exit p => (exitBlock p).map fun
      | some p => .exit p
      | none => .wait .worker .enter
  | .leave => .act fun _ m => some ({ m with fetcherReturned := true }, .returned)
  | .returned => .halt

/-! ## The system -/

inductive Thread where
  | parent | fetcher
  deriving DecidableEq, Repr

abbrev Point : Thread → Type
  | .parent => ParentPc
  | .fetcher => FetcherPc

abbrev System (r : Ring) := World Mutex Cond (Mem r) Thread Point

def code (r : Ring) (fetchThreshold : BitVec 64) : Code Mutex Cond Outcome (Mem r) Thread Point
  | .parent => parentCode
  | .fetcher => fetcherCode fetchThreshold

/-- Steps of the two threads, of the tracee, of other processes that signal the
tracee, and wake-ups without a broadcast. -/
inductive Action where
  | parent (outcome : Outcome)
  | fetcher (outcome : Outcome)
  | write (n : Nat)
  | exit (status : Nat)
  | takeStop
  | sigstop
  | sigcont
  | wake (thread : Thread)
  deriving DecidableEq, Repr

def step (fetchThreshold : BitVec 64) (w : System r) : Action → Option (System r)
  | .parent o => fire (code r fetchThreshold) .parent o w
  | .fetcher o => fire (code r fetchThreshold) .fetcher o w
  | .write n => if w.mem.tracee.runs then some (w.store (w.mem.write n)) else none
  | .exit status =>
    if w.mem.tracee.runs ∧ terminated status then some (w.store (w.mem.exit status)) else none
  | .takeStop => w.mem.takeStop.map w.store
  | .sigstop => if w.mem.tracee = .reaped then none else some (w.store (w.mem.sigstop .other))
  | .sigcont => if w.mem.tracee = .reaped then none else some (w.store w.mem.sigcont)
  | .wake t => spurious t w

/-- Both threads at their first point; `init_trace` is about to mark the trace
as ready and the tracee is in its first ptrace stop. -/
def start (etr : r.Writer) (initPos : BitVec 64) : System r where
  mem := {
    traceState := initState, traceEvent := initEvent, transitions := [], signals := []
    fetcherReady := true, fetcherReturned := false
    tracee := .traced none, statuses := [], wstatus := stopStatus sigtrap
    etr, collecting := false, initPos, ret := 0, calls := [] }
  owner := fun _ => none
  ctl
    | .parent => .run (.set .initTrace .enter : ParentPc)
    | .fetcher => .run (.wait .worker .enter : FetcherPc)

/-- The usual opening: the parent starts the trace, the fetcher sees that and
samples the write position, and the parent lets the tracee go. -/
def opening : List Action :=
  List.replicate 20 (.parent .ok) ++ List.replicate 5 (.fetcher .ok) ++ [.parent .ok]

/-- The parent from the exit of the tracee to its join. -/
def closingDown : List Action := [.exit 0] ++ List.replicate 21 (.parent .ok)

end Ultrasight.Handshake
