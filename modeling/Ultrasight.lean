import Ultrasight.Runs
import Ultrasight.Threads
import Ultrasight.Wakeups
import Ultrasight.Ring
import Ultrasight.RingMemory
import Ultrasight.Polling
import Ultrasight.WaitStatus
import Ultrasight.Parent
import Ultrasight.Chunks
import Ultrasight.Regions
import Ultrasight.TraceBuffer
import Ultrasight.Ksight
import Ultrasight.TraceState
import Ultrasight.Handshake
import Ultrasight.Frames
import Ultrasight.Moves
import Ultrasight.Reports
import Ultrasight.Window
import Ultrasight.LastFetch
import Ultrasight.Signals
import Ultrasight.Critical
import Ultrasight.Deadlock
import Ultrasight.Functions
import Ultrasight.Csal
import Ultrasight.Config
import Ultrasight.Session
import Ultrasight.Walks
import Ultrasight.Effects
import Ultrasight.Footprints
import Ultrasight.Deaths
import Ultrasight.Typestate
import Ultrasight.Retention
import Ultrasight.Healthy
import Ultrasight.Retrace
import Ultrasight.Cycles
import Ultrasight.FailedFetch
import Ultrasight.SinkPolling
import Ultrasight.Offsets
import Ultrasight.Pace
import Ultrasight.Truth
import Ultrasight.FinalFetch
import Ultrasight.Teardown
import Ultrasight.Termination
import Ultrasight.Resume
import Ultrasight.Recorder
import Ultrasight.WholeTrace
import Ultrasight.KsightControl
import Ultrasight.Crew
import Ultrasight.Discipline
import Ultrasight.Sections
import Ultrasight.Atomicity
import Ultrasight.SerialCalls
import Ultrasight.InStep
import Ultrasight.Verbosity
import Ultrasight.Completion
import Ultrasight.Sinks
import Ultrasight.Survival
import Ultrasight.FirstStart
import Ultrasight.SwitchedOff
import Ultrasight.Wiring
import Ultrasight.EtrArea
import Ultrasight.OwnErrors
import Ultrasight.FailedEnable
import Ultrasight.AllOrNothing
import Ultrasight.FailedGrowth
import Ultrasight.Text
import Ultrasight.CpuLists
import Ultrasight.PreferredCpu
import Ultrasight.ProcMaps
import Ultrasight.Maps
import Ultrasight.MapFailures
import Ultrasight.Programming
import Ultrasight.Filters
import Ultrasight.Growth
import Ultrasight.Attempts
import Ultrasight.TraceCpu
import Ultrasight.TraceIds
import Ultrasight.Numbers
import Ultrasight.Udmabuf
import Ultrasight.Lines
import Ultrasight.FreeCpu
import Ultrasight.Binding
import Ultrasight.Getopt
import Ultrasight.CommandLine
import Ultrasight.Tracer
import Ultrasight.PlainTrace
import Ultrasight.EventsFile
