import Ultrasight.Handshake

/-!
# What the operations of the handshake leave alone

The operations on the tracee touch neither the trace variables nor the log, and
the operations on the sinks touch neither the trace variables nor the tracee.
-/

namespace Ultrasight.Handshake

variable {r : Ring}

/-- The process state of the tracee is the same. -/
structure SameProcess (m m' : Mem r) : Prop where
  tracee : m'.tracee = m.tracee
  statuses : m'.statuses = m.statuses
  wstatus : m'.wstatus = m.wstatus

/-- The trace state and event are the same. -/
structure SameTrace (m m' : Mem r) : Prop where
  state : m'.traceState = m.traceState
  event : m'.traceEvent = m.traceEvent

/-- Nothing was called, and neither the ETR nor the fetcher's end changed. -/
structure SameLog (m m' : Mem r) : Prop where
  calls : m'.calls = m.calls
  etr : m'.etr = m.etr
  returned : m'.fetcherReturned = m.fetcherReturned

/-! ## Operations on the tracee -/

theorem sigstop_trace (sender : Sender) (m : Mem r) : SameTrace m (m.sigstop sender) := by
  unfold Mem.sigstop
  split <;> exact ⟨rfl, rfl⟩

theorem sigstop_log (sender : Sender) (m : Mem r) : SameLog m (m.sigstop sender) := by
  unfold Mem.sigstop
  split <;> exact ⟨rfl, rfl, rfl⟩

theorem sigstop_wstatus (sender : Sender) (m : Mem r) :
    (m.sigstop sender).wstatus = m.wstatus := by
  unfold Mem.sigstop
  split <;> rfl

theorem runs_cases {t : Tracee} (h : t.runs = true) : ∃ pending, t = .running pending := by
  cases t with
  | running pending => exact ⟨pending, rfl⟩
  | traced | stopped | zombie | reaped => cases h

/-- Only a running tracee takes a stop. -/
theorem takeStop_cases {m m' : Mem r} (h : m.takeStop = some m') :
    ∃ sender, m.tracee = .running (some sender) ∧ m' = m.stop sender := by
  unfold Mem.takeStop at h
  split at h
  · rename_i sender running
    exact ⟨sender, running, (Option.some.inj h).symm⟩
  · cases h
  · cases h
  · cases h
  · cases h
  · cases h

theorem sigcont_trace (m : Mem r) : SameTrace m m.sigcont := by
  unfold Mem.sigcont
  split <;> exact ⟨rfl, rfl⟩

theorem sigcont_log (m : Mem r) : SameLog m m.sigcont := by
  unfold Mem.sigcont
  split <;> exact ⟨rfl, rfl, rfl⟩

theorem sigcont_wstatus (m : Mem r) : m.sigcont.wstatus = m.wstatus := by
  unfold Mem.sigcont
  split <;> rfl

theorem detach_trace (m : Mem r) : SameTrace m m.detach := by
  unfold Mem.detach
  split <;> exact ⟨rfl, rfl⟩

/-- A stop is reported when it is taken, not when it is sent. -/
theorem sigstop_statuses (sender : Sender) (m : Mem r) :
    (m.sigstop sender).statuses = m.statuses := by
  unfold Mem.sigstop
  split <;> rfl

theorem detach_process (m : Mem r) : m.detach.statuses = m.statuses ∧ m.detach.wstatus = m.wstatus := by
  unfold Mem.detach
  split <;> exact ⟨rfl, rfl⟩

/-- A detach leaves a pending stop pending. -/
theorem detach_stopOf (m : Mem r) : m.detach.tracee.stopOf = m.tracee.stopOf := by
  unfold Mem.detach
  split
  · rename_i traced
    rw [traced]
    rfl
  · rfl
  · rfl
  · rfl
  · rfl

theorem detach_untraced (m : Mem r) (pending : Option Sender) :
    m.detach.tracee ≠ .traced pending := by
  unfold Mem.detach
  split
  · exact nofun
  · rename_i other
    rw [other]
    exact nofun
  · rename_i other
    rw [other]
    exact nofun
  · rename_i other
    rw [other]
    exact nofun
  · rename_i other
    rw [other]
    exact nofun

theorem detach_log (m : Mem r) : SameLog m m.detach := by
  unfold Mem.detach
  split <;> exact ⟨rfl, rfl, rfl⟩

/-- A wait takes the first status off the list, or finds the child gone. -/
theorem waitpid_cases {m m' : Mem r} (h : m.waitpid = some m') :
    (∃ w rest, m.statuses = w :: rest ∧ m' = { m with
        wstatus := w, statuses := rest, tracee := if terminated w then .reaped else m.tracee }) ∨
      m.statuses = [] ∧ m.tracee = .reaped ∧ m' = m := by
  unfold Mem.waitpid at h
  split at h
  · rename_i w rest statuses
    exact .inl ⟨w, rest, statuses, (Option.some.inj h).symm⟩
  · rename_i none
    split at h
    · rename_i gone
      exact .inr ⟨none, gone, (Option.some.inj h).symm⟩
    · cases h

theorem waitpid_trace {m m' : Mem r} (h : m.waitpid = some m') : SameTrace m m' := by
  rcases waitpid_cases h with ⟨w, rest, _, rfl⟩ | ⟨_, _, rfl⟩ <;> exact ⟨rfl, rfl⟩

theorem waitpid_log {m m' : Mem r} (h : m.waitpid = some m') : SameLog m m' := by
  rcases waitpid_cases h with ⟨w, rest, _, rfl⟩ | ⟨_, _, rfl⟩ <;> exact ⟨rfl, rfl, rfl⟩

/-! ## Operations on the sinks -/

theorem write_process (n : Nat) (m : Mem r) : SameProcess m (m.write n) := by
  unfold Mem.write
  split <;> exact ⟨rfl, rfl, rfl⟩

theorem write_trace (n : Nat) (m : Mem r) : SameTrace m (m.write n) := by
  unfold Mem.write
  split <;> exact ⟨rfl, rfl⟩

theorem write_calls (n : Nat) (m : Mem r) : (m.write n).calls = m.calls := by
  unfold Mem.write
  split <;> rfl

theorem write_returned (n : Nat) (m : Mem r) :
    (m.write n).fetcherReturned = m.fetcherReturned := by
  unfold Mem.write
  split <;> rfl

theorem enableCsTrace_process (o : Outcome) (m : Mem r) : SameProcess m (m.enableCsTrace o) := by
  cases o <;> exact ⟨rfl, rfl, rfl⟩

theorem enableCsTrace_trace (o : Outcome) (m : Mem r) : SameTrace m (m.enableCsTrace o) := by
  cases o <;> exact ⟨rfl, rfl⟩

theorem enableCsTrace_returned (o : Outcome) (m : Mem r) :
    (m.enableCsTrace o).fetcherReturned = m.fetcherReturned := by
  cases o <;> rfl

theorem disableCsTrace_process (all : Bool) (o : Outcome) (m : Mem r) :
    SameProcess m (m.disableCsTrace all o) := by
  cases o <;> exact ⟨rfl, rfl, rfl⟩

theorem disableCsTrace_trace (all : Bool) (o : Outcome) (m : Mem r) :
    SameTrace m (m.disableCsTrace all o) := by
  cases o <;> exact ⟨rfl, rfl⟩

theorem disableCsTrace_returned (all : Bool) (o : Outcome) (m : Mem r) :
    (m.disableCsTrace all o).fetcherReturned = m.fetcherReturned := by
  cases o <;> rfl

theorem work_process (task : Task) (o : Outcome) (m : Mem r) : SameProcess m (task.work o m) := by
  cases task <;> cases o <;> exact ⟨rfl, rfl, rfl⟩

theorem work_trace (task : Task) (o : Outcome) (m : Mem r) : SameTrace m (task.work o m) := by
  cases task <;> cases o <;> exact ⟨rfl, rfl⟩

theorem work_returned (task : Task) (o : Outcome) (m : Mem r) :
    (task.work o m).fetcherReturned = m.fetcherReturned := by
  cases task <;> cases o <;> rfl

end Ultrasight.Handshake
