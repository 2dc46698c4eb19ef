import Ultrasight.Critical
import Ultrasight.Session

/-!
# Any number of threads in the locked functions

Every thread calls `set_trace_state`, `wait_trace_event`, the wait and the exit
block at the end of `trace_sink_polling`, `enable_cs_trace`, `disable_cs_trace`
and `fetch_trace`, in any order and as often as it likes. Here the three that
hold `trace_mutex` are written out step by step, with the trace buffer and the
calls of the device; the others are the bodies of the handshake, on the part of
the memory that they know.

* `crewCode`: what stands at each point of a thread, `.idle` being the point
  between two calls;
* `crewStep`: the threads are interleaved, and wake up when they like.
-/

namespace Ultrasight.Crew

open Threads TraceState TraceEvent Handshake

/-- Calls of the device library and of the code above it, with their results. -/
inductive DeviceCall where
  | configureTrace (rc : Int)
  | enableTrace (rc : Int)
  | enableTraceSinksOnly (rc : Int)
  | doDumpConfig
  | csShutdown
  | disableTrace (rc : Int)
  | disableTraceSinksOnly (rc : Int)
  | csResetErrorCount
  | csGetBufferUnreadBytes (len : Int)
  | csGetTraceData (n : Int)
  | csEmptyTraceBuffer
  deriving DecidableEq, Repr

/-- What the threads share. `device` records the calls, newest first. -/
structure Shared (r : Ring) extends Mem r where
  isFirstTrace : Bool
  exportConfig : Bool
  traceBuf : Buf
  device : List DeviceCall

variable {r : Ring}

def Shared.record (c : DeviceCall) (s : Shared r) : Shared r := { s with device := c :: s.device }

/-! ## `enable_cs_trace` -/

inductive EnablePc where
  | enter | first | configure | enable | clear | sinksOnly | dump
  | exit (ret : Int)
  | leave (ret : Int)
  deriving DecidableEq, Repr

/-- What a call is told by its callees: a result code, and the answers of
`fetch_trace`. A thread between two calls is told what to call next. -/
inductive Job where
  | setTraceState (new : TraceState)
  | waitTraceEvent (event : TraceEvent)
  | waitLastEvent
  | exitBlock
  | enableCsTrace
  | disableCsTrace (all : Bool)
  | fetchTrace

structure Answer where
  job : Job
  rc : Int
  fetch : TraceBuffer.Fetch

abbrev CrewBody (r : Ring) (P : Type) := Instr Mutex Cond Answer (Shared r) P

/-- The right-hand points are the return. -/
def enableCsTrace : EnablePc → CrewBody r (EnablePc ⊕ Int)
  | .enter => .lock .traceMutex (.inl .first)
  | .first => .act fun _ s => some (s, .inl (if s.isFirstTrace then .configure else .sinksOnly))
  | .configure => .act fun a s =>
      some (s.record (.configureTrace a.rc), .inl (if a.rc < 0 then .exit (-1) else .enable))
  | .enable => .act fun a s =>
      some (s.record (.enableTrace a.rc), .inl (if a.rc < 0 then .exit (-1) else .clear))
  | .clear => .act fun _ s => some ({ s with isFirstTrace := false }, .inl .dump)
  | .sinksOnly => .act fun a s =>
      some (s.record (.enableTraceSinksOnly a.rc), .inl (if a.rc < 0 then .exit (-1) else .dump))
  | .dump => .act fun _ s =>
      some (if s.exportConfig then s.record .doDumpConfig else s, .inl (.exit 0))
  | .exit ret => .act fun _ s => some (if ret < 0 then s.record .csShutdown else s, .inl (.leave ret))
  | .leave ret => .unlock .traceMutex (.inr ret)

/-! ## `disable_cs_trace` -/

inductive DisablePc where
  | enter
  | trial (left : Nat) (ret : Int)
  | attempt (left : Nat)
  | reset (left : Nat) (ret : Int)
  | leave (ret : Int)
  deriving DecidableEq, Repr

/-- `left` counts the trials down; the `ret` of the first one is not read. -/
def disableCsTrace (all : Bool) : DisablePc → CrewBody r (DisablePc ⊕ Int)
  | .enter => .lock .traceMutex (.inl (.trial Session.traceDisableTrial (-1)))
  | .trial 0 ret => .act fun _ s => some (s, .inl (.leave ret))
  | .trial (left + 1) _ => .act fun _ s => some (s, .inl (.attempt left))
  | .attempt left => .act fun a s =>
      some (s.record (if all then .disableTrace a.rc else .disableTraceSinksOnly a.rc),
        .inl (if a.rc < 0 then .reset left a.rc else .leave a.rc))
  | .reset left ret => .act fun _ s => some (s.record .csResetErrorCount, .inl (.trial left ret))
  | .leave ret => .unlock .traceMutex (.inr ret)

/-! ## `fetch_trace` -/

/-- `len`, `remain`, `buf`, `size` and `n` are the locals of those names. -/
inductive FetchPc where
  | enter
  | count
  | align (len : Int)
  | remain (len : Int)
  | test (len : Int) (remain : BitVec 64)
  | grow (len : Int)
  | setPtr (len : Int) (buf size : BitVec 64)
  | setBuf (len : Int) (buf size : BitVec 64)
  | setSize (len : Int) (size : BitVec 64)
  | read (remain : BitVec 64)
  | empty (n : Int)
  | advance (n : Int)
  | leave (ret : Int)
  deriving DecidableEq, Repr

/-- `cs_get_trace_data` stores at most `remain` bytes; a store that is not
inside the region would be a fault and stores nothing here. -/
def getTraceData (f : TraceBuffer.Fetch) (remain : BitVec 64) (b : Buf) : Buf :=
  match b.region.write b.ptr (f.data.take remain.toNat) with
  | .ok region => { b with region := region }
  | .error _ => b

def fetchTrace : FetchPc → CrewBody r (FetchPc ⊕ Int)
  | .enter => .lock .traceMutex (.inl .count)
  | .count => .act fun a s =>
      some (s.record (.csGetBufferUnreadBytes a.fetch.len), .inl (.align a.fetch.len))
  | .align len => .act fun _ s => some ({ s with traceBuf := s.traceBuf.align }, .inl (.remain len))
  | .remain len => .act fun _ s => some (s, .inl (.test len s.traceBuf.remain))
  | .test len remain => .act fun _ s =>
      some (s, .inl (if remain < BitVec.ofInt 64 len then .grow len else .read remain))
  | .grow len => .act fun a s =>
      some (match a.fetch.remap (s.traceBuf.size * 2) with
        | none => (s, .inl (.leave (-1)))
        | some p => ({ s with traceBuf := { s.traceBuf with region := s.traceBuf.region.move p } },
            .inl (.setPtr len p.addr (s.traceBuf.size * 2))))
  | .setPtr len buf size => .act fun _ s =>
      some ({ s with traceBuf :=
        { s.traceBuf with ptr := buf + (s.traceBuf.ptr - s.traceBuf.buf) } },
        .inl (.setBuf len buf size))
  | .setBuf len buf size => .act fun _ s =>
      some ({ s with traceBuf := { s.traceBuf with buf := buf } }, .inl (.setSize len size))
  | .setSize len size => .act fun _ s =>
      some ({ s with traceBuf := { s.traceBuf with size := size } }, .inl (.remain len))
  | .read remain => .act fun a s =>
      some ({ s with traceBuf := getTraceData a.fetch remain s.traceBuf }.record
        (.csGetTraceData a.fetch.n), .inl (.empty a.fetch.n))
  | .empty n => .act fun _ s => some (s.record .csEmptyTraceBuffer, .inl (.advance n))
  | .advance n => .act fun _ s =>
      some ({ s with traceBuf := { s.traceBuf with ptr := s.traceBuf.ptr + BitVec.ofInt 64 n } },
        .inl (.leave 0))
  | .leave ret => .unlock .traceMutex (.inr ret)

/-! ## The threads -/

/-- `wait_trace_event`, and the wait behind `killed`. -/
inductive Awaited where
  | one (event : TraceEvent)
  | last
  deriving DecidableEq, Repr

def Awaited.wanted : Awaited → TraceEvent → Bool
  | .one event, e => e == event
  | .last, e => e.last

inductive CrewPc where
  | idle
  | set (new : TraceState) (p : SetPc)
  | wait (awaited : Awaited) (p : WaitPc)
  | exit (p : ExitPc)
  | enable (p : EnablePc)
  | disable (all : Bool) (p : DisablePc)
  | fetch (p : FetchPc)
  deriving DecidableEq, Repr

def Job.entry : Job → CrewPc
  | .setTraceState new => .set new .enter
  | .waitTraceEvent event => .wait (.one event) .enter
  | .waitLastEvent => .wait .last .enter
  | .exitBlock => .exit .enter
  | .enableCsTrace => .enable .enter
  | .disableCsTrace all => .disable all .enter
  | .fetchTrace => .fetch .enter

/-- A body of the handshake here; none of those used looks at an outcome. -/
def shared {P : Type} (x : Body r P) : CrewBody r P :=
  x.on (fun _ => .ok) (·.toMem) fun s m => { s with toMem := m }

/-- The points of a thread. A function that returns leaves its thread idle. -/
def crewCode : CrewPc → CrewBody r CrewPc
  | .idle => .act fun a s => some (s, a.job.entry)
  | .set new p => (shared (setTraceState new p)).map fun
      | some p => .set new p
      | none => .idle
  | .wait awaited p => (shared (waitEvent awaited.wanted p)).map fun
      | .inl p => .wait awaited p
      | .inr _ => .idle
  | .exit p => (shared (exitBlock p)).map fun
      | some p => .exit p
      | none => .idle
  | .enable p => (enableCsTrace p).map fun
      | .inl p => .enable p
      | .inr _ => .idle
  | .disable all p => (disableCsTrace all p).map fun
      | .inl p => .disable all p
      | .inr _ => .idle
  | .fetch p => (fetchTrace p).map fun
      | .inl p => .fetch p
      | .inr _ => .idle

section
variable {T : Type} [DecidableEq T]

abbrev World (r : Ring) (T : Type) := Threads.World Mutex Cond (Shared r) T fun _ => CrewPc

/-- Every thread runs the same code. -/
def code (r : Ring) (T : Type) : Code Mutex Cond Answer (Shared r) T fun _ => CrewPc :=
  fun _ => crewCode

inductive Action (T : Type) where
  | run (t : T) (answer : Answer)
  | wake (t : T)

def crewStep (w : World r T) : Action T → Option (World r T)
  | .run t a => fire (code r T) t a w
  | .wake t => spurious t w

/-- Nobody has called anything, and nothing is on record. -/
def start (s : Shared r) : World r T where
  mem := { s with transitions := [], signals := [], device := [] }
  owner := fun _ => none
  ctl := fun _ => .run .idle

end

/-- The variables as the program starts. -/
def booted : Shared Polling.defaultRing :=
  { (Handshake.start Polling.defaultRing.empty 0).mem with
    isFirstTrace := true, exportConfig := false, traceBuf := .null, device := [] }

end Ultrasight.Crew
