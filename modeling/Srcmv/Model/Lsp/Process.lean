import Srcmv.Model.Lsp.Framing

/-! # Supervision of a process

Four workers move bytes and the status of a child through bounded channels to one orchestrator, which
waits on a channel of one wake token. Every access to what threads share is a step of its own, and
any thread may take the next step.
-/

namespace Srcmv.Lsp

open Srcmv.Core

/-! ## Events -/

abbrev ExitStatus := UInt32

inductive ProcessWorker where
  | stdin
  | stdout
  | stderr
  | status
deriving DecidableEq

inductive ErrorKind where
  | brokenPipe
  | connectionAborted
  | connectionReset
  | notConnected
  | writeZero
  | other (code : ℕ)
deriving DecidableEq

inductive ProcessFaultKind where
  | io (errorKind : ErrorKind) (message : String)
  | resourceLimit (queue : String) (itemBytes capacityBytes : ℕ)
deriving DecidableEq

structure ProcessFault where
  worker : ProcessWorker
  kind : ProcessFaultKind
deriving DecidableEq

def ProcessFault.isResourceLimit (fault : ProcessFault) : Bool :=
  match fault.kind with
  | .resourceLimit .. => true
  | .io .. => false

inductive ProcessEvent where
  | exited (status : ExitStatus)
  | fault (fault : ProcessFault)
  | stdout (bytes : Bytes)
  | stdoutClosed
  | stdinClosed

/-- Failures of the process other than an expired deadline; those of setup and cleanup are left out. -/
inductive ProcessError where
  | byteCapacityExceeded (queue : String) (itemBytes capacityBytes : ℕ)
  | disconnected (channel : String)
  | exited (status : ExitStatus)
  | stdinClosed

/-! ## Limits and budgets -/

structure ProcessLimits where
  inboundEvents : ℕ := 32
  inboundBytes : ℕ := 32 * 1024 * 1024
  outboundFrames : ℕ := 16
  outboundBytes : ℕ := 64 * 1024 * 1024
  completionEvents : ℕ := 16
  stderrTailBytes : ℕ := 64 * 1024

/-- No limits are returned when they are invalid. -/
def ProcessLimits.validate (limits : ProcessLimits) : Option ProcessLimits :=
  if limits.inboundEvents = 0 ∨ limits.inboundBytes = 0 ∨ limits.outboundFrames = 0 ∨ limits.outboundBytes = 0 ∨
      limits.completionEvents = 0 ∨ limits.stderrTailBytes = 0 ∨ limits.completionEvents < 4 then none
  else some limits

structure ByteBudget where
  used : ℕ
  capacity : ℕ
  /-- The assertion of a release has failed. -/
  underflowed : Bool := false

namespace ByteBudget

def reserve (budget : ByteBudget) (bytes : ℕ) : Option ByteBudget :=
  if budget.used + bytes ≤ usizeMax ∧ budget.used + bytes ≤ budget.capacity then some { budget with used := budget.used + bytes }
  else none

/-- The subtraction wraps around. -/
def release (budget : ByteBudget) (bytes : ℕ) : ByteBudget :=
  { budget with
    used := if bytes ≤ budget.used then budget.used - bytes else budget.used + (usizeMax + 1) - bytes
    underflowed := budget.underflowed || decide (budget.used < bytes) }

end ByteBudget

/-! ## Channels and threads -/

inductive InputCommand where
  | bytes (bytes : Bytes)
  | close

inductive Completion where
  | exited (status : ExitStatus)
  | fault (fault : ProcessFault)
  | stdinClosed

inductive StdoutItem where
  | bytes (bytes : Bytes)
  | closed

/-- What a worker does: its own activity, a completion that it is about to send, or the notification
after a send, with the activity that follows. -/
inductive Worker (Activity : Type) where
  | active (activity : Activity)
  | reporting (completion : Completion)
  | notifying (resume : Option Activity)
  | stopped

inductive StdinActivity where
  | receiving
  | writing (bytes : Bytes)
  | releasing (bytes : Bytes) (failure : Option (ErrorKind × String))
  | failing (errorKind : ErrorKind) (message : String)

inductive StdoutActivity where
  | reading
  | closing
  | reserving (bytes : Bytes)
  | sending (bytes : Bytes)
  | abandoning (bytes : Bytes)

inductive StatusActivity where
  | polling
  | storing (status : ExitStatus)

/-- The calls that look for an event: without waiting, waiting, or for the last time. -/
inductive EventCall where
  | tryNext
  | next
  | last

/-- What the orchestrator does. -/
inductive Orchestrator where
  | idle
  | queueing (command : InputCommand)
  | refused (bytes : Bytes)
  | draining (call : EventCall) (readyExit : Option ExitStatus)
  | checkingResource (call : EventCall) (readyExit : Option ExitStatus)
  | checkingExit (call : EventCall) (readyExit : Option ExitStatus)
  | checkingStdin (call : EventCall)
  | checkingFaults (call : EventCall)
  | receiving (call : EventCall)
  | releasing (bytes : Bytes)
  | closing
  | waiting

structure ManagedProcess where
  limits : ProcessLimits
  input : List InputCommand := []
  inputOpen : Bool := true
  stdout : List StdoutItem := []
  completions : List Completion := []
  wake : Bool := false
  outboundBudget : ByteBudget
  inboundBudget : ByteBudget
  observedStatus : Option ExitStatus := none
  exitEventDelivered : Bool := false
  pendingStdinClosed : Bool := false
  stdinClosed : Bool := false
  pendingFaults : List ProcessFault := []
  cancelling : Bool := false
  stdinWorker : Worker StdinActivity := .active .receiving
  stdoutWorker : Worker StdoutActivity := .active .reading
  stderrWorker : Worker Unit := .active ()
  statusWorker : Worker StatusActivity := .active .polling
  orchestrator : Orchestrator := .idle
  /-- The status with which the child has exited. -/
  exit : Option ExitStatus := none
  /-- What the child has written and the worker has not read. -/
  pipe : Bytes := []
  pipeOpen : Bool := true
  /-- History: what the child has written, what was read of it, the events that calls returned, and
  the completions that a full channel dropped. -/
  written : Bytes := []
  read : Bytes := []
  delivered : List ProcessEvent := []
  dropped : List Completion := []

namespace ManagedProcess

def spawn (limits : ProcessLimits) : Option ManagedProcess :=
  limits.validate.map fun limits =>
    { limits := limits
      outboundBudget := ⟨0, limits.outboundBytes, false⟩
      inboundBudget := ⟨0, limits.inboundBytes, false⟩ }

def isTerminalStdinError : ErrorKind → Bool
  | .brokenPipe | .connectionAborted | .connectionReset | .notConnected | .writeZero => true
  | .other _ => false

/-- The completion that `report_fault` sends. -/
def faultCompletion (worker : ProcessWorker) (errorKind : ErrorKind) (message : String) : Completion :=
  if worker = .stdin ∧ isTerminalStdinError errorKind then .stdinClosed else .fault ⟨worker, .io errorKind message⟩

/-- `try_send`, whose failure is ignored. -/
def report (process : ManagedProcess) (completion : Completion) : ManagedProcess :=
  if process.completions.length < process.limits.completionEvents then
    { process with completions := process.completions ++ [completion] }
  else { process with dropped := process.dropped ++ [completion] }

/-- A second token is dropped. -/
def notify (process : ManagedProcess) : ManagedProcess := { process with wake := true }

/-- A call returns an event. -/
def deliver (process : ManagedProcess) (event : ProcessEvent) : ManagedProcess :=
  { process with
    orchestrator := .idle
    delivered := process.delivered ++ [event] }

def isExited : ProcessEvent → Bool
  | .exited _ => true
  | _ => false

end ManagedProcess

/-- The worker after its notification. -/
def Worker.resumed {Activity : Type} (resume : Option Activity) : Worker Activity := resume.elim .stopped .active

/-! ## Steps of the workers -/

/-- The worker that writes frames to the child. -/
inductive StdinStep : ManagedProcess → ManagedProcess → Prop
  | receive {process : ManagedProcess} {bytes : Bytes} {rest : List InputCommand} (idle : process.stdinWorker = .active .receiving)
      (queue : process.input = .bytes bytes :: rest) :
      StdinStep process { process with stdinWorker := .active (.writing bytes), input := rest }
  -- The queue is dropped with its receiver.
  | close {process : ManagedProcess} {rest : List InputCommand} (idle : process.stdinWorker = .active .receiving)
      (queue : process.input = .close :: rest) : StdinStep process { process with stdinWorker := .stopped, input := [] }
  | disconnected {process : ManagedProcess} (idle : process.stdinWorker = .active .receiving) (queue : process.input = [])
      (dropped : process.inputOpen = false) : StdinStep process { process with stdinWorker := .stopped }
  | write {process : ManagedProcess} {bytes : Bytes} (writing : process.stdinWorker = .active (.writing bytes))
      (failure : Option (ErrorKind × String)) : StdinStep process { process with stdinWorker := .active (.releasing bytes failure) }
  | release {process : ManagedProcess} {bytes : Bytes} {failure : Option (ErrorKind × String)}
      (written : process.stdinWorker = .active (.releasing bytes failure)) :
      StdinStep process
        { process with
          stdinWorker := .active (failure.elim .receiving fun failure => .failing failure.1 failure.2)
          outboundBudget := process.outboundBudget.release bytes.length }
  | fail {process : ManagedProcess} {errorKind : ErrorKind} {message : String}
      (failed : process.stdinWorker = .active (.failing errorKind message)) :
      StdinStep process
        { process with
          stdinWorker := .reporting (ManagedProcess.faultCompletion .stdin errorKind message)
          stdinClosed := process.stdinClosed || ManagedProcess.isTerminalStdinError errorKind }
  | report {process : ManagedProcess} {completion : Completion} (failed : process.stdinWorker = .reporting completion) :
      StdinStep process { process.report completion with stdinWorker := .notifying none }
  | notify {process : ManagedProcess} {resume : Option StdinActivity} (sent : process.stdinWorker = .notifying resume) :
      StdinStep process { process.notify with stdinWorker := .resumed resume, input := [] }

def readChunkBytes : ℕ := 8 * 1024

/-- The worker that reads the output of the child. A send times out at any moment; it is given up when
the transport is cancelled. -/
inductive StdoutStep : ManagedProcess → ManagedProcess → Prop
  | read {process : ManagedProcess} {bytes rest : Bytes} (reading : process.stdoutWorker = .active .reading) (some_ : bytes ≠ [])
      (chunk : bytes.length ≤ readChunkBytes) (pipe : process.pipe = bytes ++ rest) :
      StdoutStep process
        { process with
          stdoutWorker := .active (.reserving bytes)
          pipe := rest
          read := process.read ++ bytes }
  | ended {process : ManagedProcess} (reading : process.stdoutWorker = .active .reading) (pipe : process.pipe = [])
      (closed : process.pipeOpen = false) : StdoutStep process { process with stdoutWorker := .active .closing }
  | fail {process : ManagedProcess} (reading : process.stdoutWorker = .active .reading) (errorKind : ErrorKind) (message : String) :
      StdoutStep process { process with stdoutWorker := .reporting (ManagedProcess.faultCompletion .stdout errorKind message) }
  | cancel {process : ManagedProcess} (waits : process.stdoutWorker = .active .reading ∨ process.stdoutWorker = .active .closing)
      (cancelling : process.cancelling = true) : StdoutStep process { process with stdoutWorker := .stopped }
  | close {process : ManagedProcess} (closing : process.stdoutWorker = .active .closing)
      (room : process.stdout.length < process.limits.inboundEvents) :
      StdoutStep process { process with stdoutWorker := .notifying none, stdout := process.stdout ++ [.closed] }
  | reserve {process : ManagedProcess} {bytes : Bytes} {budget : ByteBudget}
      (reserving : process.stdoutWorker = .active (.reserving bytes))
      (reserved : process.inboundBudget.reserve bytes.length = some budget) :
      StdoutStep process { process with stdoutWorker := .active (.sending bytes), inboundBudget := budget }
  | reject {process : ManagedProcess} {bytes : Bytes} (reserving : process.stdoutWorker = .active (.reserving bytes))
      (full : process.inboundBudget.reserve bytes.length = none) :
      StdoutStep process
        { process with
          stdoutWorker := .reporting
            (.fault ⟨.stdout, .resourceLimit "inbound" bytes.length process.inboundBudget.capacity⟩) }
  | send {process : ManagedProcess} {bytes : Bytes} (sending : process.stdoutWorker = .active (.sending bytes))
      (room : process.stdout.length < process.limits.inboundEvents) :
      StdoutStep process
        { process with
          stdoutWorker := .notifying (some .reading)
          stdout := process.stdout ++ [.bytes bytes] }
  | abandon {process : ManagedProcess} {bytes : Bytes} (sending : process.stdoutWorker = .active (.sending bytes))
      (cancelling : process.cancelling = true) : StdoutStep process { process with stdoutWorker := .active (.abandoning bytes) }
  | release {process : ManagedProcess} {bytes : Bytes} (abandoned : process.stdoutWorker = .active (.abandoning bytes)) :
      StdoutStep process
        { process with
          stdoutWorker := .stopped
          inboundBudget := process.inboundBudget.release bytes.length }
  | report {process : ManagedProcess} {completion : Completion} (failed : process.stdoutWorker = .reporting completion) :
      StdoutStep process { process.report completion with stdoutWorker := .notifying none }
  | notify {process : ManagedProcess} {resume : Option StdoutActivity} (sent : process.stdoutWorker = .notifying resume) :
      StdoutStep process { process.notify with stdoutWorker := .resumed resume }

/-- The worker that keeps the tail of the diagnostics, which are no part of any event. -/
inductive StderrStep : ManagedProcess → ManagedProcess → Prop
  | ended {process : ManagedProcess} (reading : process.stderrWorker = .active ()) :
      StderrStep process { process with stderrWorker := .stopped }
  | fail {process : ManagedProcess} (reading : process.stderrWorker = .active ()) (errorKind : ErrorKind) (message : String) :
      StderrStep process { process with stderrWorker := .reporting (ManagedProcess.faultCompletion .stderr errorKind message) }
  | report {process : ManagedProcess} {completion : Completion} (failed : process.stderrWorker = .reporting completion) :
      StderrStep process { process.report completion with stderrWorker := .notifying none }
  | notify {process : ManagedProcess} {resume : Option Unit} (sent : process.stderrWorker = .notifying resume) :
      StderrStep process { process.notify with stderrWorker := .resumed resume }

/-- The worker that waits for the child to exit. -/
inductive StatusStep : ManagedProcess → ManagedProcess → Prop
  | observe {process : ManagedProcess} {status : ExitStatus} (polling : process.statusWorker = .active .polling)
      (exited : process.exit = some status) : StatusStep process { process with statusWorker := .active (.storing status) }
  | fail {process : ManagedProcess} (polling : process.statusWorker = .active .polling) (errorKind : ErrorKind) (message : String) :
      StatusStep process { process with statusWorker := .reporting (ManagedProcess.faultCompletion .status errorKind message) }
  | store {process : ManagedProcess} {status : ExitStatus} (exited : process.statusWorker = .active (.storing status)) :
      StatusStep process { process with statusWorker := .reporting (.exited status), observedStatus := some status }
  | report {process : ManagedProcess} {completion : Completion} (failed : process.statusWorker = .reporting completion) :
      StatusStep process { process.report completion with statusWorker := .notifying none }
  | notify {process : ManagedProcess} {resume : Option StatusActivity} (sent : process.statusWorker = .notifying resume) :
      StatusStep process { process.notify with statusWorker := .resumed resume }

/-! ## Steps of the orchestrator -/

/-- What `refresh_child_status` finds: a probe may also fail. -/
inductive Refreshes (process : ManagedProcess) : ManagedProcess → Option ExitStatus → Prop
  | known {status : ExitStatus} (observed : process.observedStatus = some status) : Refreshes process process (some status)
  | probed {status : ExitStatus} (unknown : process.observedStatus = none) (exited : process.exit = some status) :
      Refreshes process { process with observedStatus := some status } (some status)
  | nothing (unknown : process.observedStatus = none) : Refreshes process process none

namespace ManagedProcess

/-- The exit is delivered once. -/
def deliverExit (process : ManagedProcess) (status : ExitStatus) : ManagedProcess :=
  { process.deliver (.exited status) with exitEventDelivered := true }

/-- Resource faults go first. -/
def pendFault (process : ManagedProcess) (fault : ProcessFault) : ManagedProcess :=
  { process with
    pendingFaults := if fault.isResourceLimit then fault :: process.pendingFaults else process.pendingFaults ++ [fault] }

end ManagedProcess

/-- The thread that queues frames and takes events. -/
inductive OrchestratorStep : ManagedProcess → ManagedProcess → Prop
  -- A frame is queued, or its bytes are released again: after a timeout, or without a sender or a worker.
  | reserve {process : ManagedProcess} {bytes : Bytes} {budget : ByteBudget} (idle : process.orchestrator = .idle)
      (reserved : process.outboundBudget.reserve bytes.length = some budget) :
      OrchestratorStep process { process with orchestrator := .queueing (.bytes bytes), outboundBudget := budget }
  | queue {process : ManagedProcess} {bytes : Bytes} (queueing : process.orchestrator = .queueing (.bytes bytes))
      (sender : process.inputOpen = true) (room : process.input.length < process.limits.outboundFrames)
      (receiver : process.stdinWorker ≠ .stopped) :
      OrchestratorStep process { process with orchestrator := .idle, input := process.input ++ [.bytes bytes] }
  | refuse {process : ManagedProcess} {bytes : Bytes} (queueing : process.orchestrator = .queueing (.bytes bytes)) :
      OrchestratorStep process { process with orchestrator := .refused bytes }
  | release {process : ManagedProcess} {bytes : Bytes} (refused : process.orchestrator = .refused bytes) :
      OrchestratorStep process
        { process with
          orchestrator := .idle
          outboundBudget := process.outboundBudget.release bytes.length }
  -- Standard input is closed after the queued frames, and the sender is dropped.
  | queueClose {process : ManagedProcess} (idle : process.orchestrator = .idle) :
      OrchestratorStep process { process with orchestrator := .queueing .close }
  | closeQueued {process : ManagedProcess} (queueing : process.orchestrator = .queueing .close) (sender : process.inputOpen = true)
      (room : process.input.length < process.limits.outboundFrames) (receiver : process.stdinWorker ≠ .stopped) :
      OrchestratorStep process { process with orchestrator := .idle, input := process.input ++ [.close], inputOpen := false }
  | closeRefused {process : ManagedProcess} (queueing : process.orchestrator = .queueing .close) :
      OrchestratorStep process { process with orchestrator := .idle, inputOpen := false }
  -- Cleanup cancels the transport and reaps the child; a failed send looks for its status as well.
  | dropInput {process : ManagedProcess} (idle : process.orchestrator = .idle) :
      OrchestratorStep process { process with inputOpen := false }
  | cancel {process : ManagedProcess} (idle : process.orchestrator = .idle) :
      OrchestratorStep process { process with cancelling := true }
  | refresh {process next : ManagedProcess} {status : Option ExitStatus} (refreshes : Refreshes process next status) :
      OrchestratorStep process next
  -- Completions are taken first.
  | begin {process : ManagedProcess} (idle : process.orchestrator = .idle) (call : EventCall) :
      OrchestratorStep process { process with orchestrator := .draining call none }
  | drainExited {process : ManagedProcess} {call : EventCall} {readyExit : Option ExitStatus} {status : ExitStatus}
      {rest : List Completion} (draining : process.orchestrator = .draining call readyExit)
      (queue : process.completions = .exited status :: rest) :
      OrchestratorStep process { process with orchestrator := .draining call (some status), completions := rest }
  | drainStdinClosed {process : ManagedProcess} {call : EventCall} {readyExit : Option ExitStatus} {rest : List Completion}
      (draining : process.orchestrator = .draining call readyExit) (queue : process.completions = .stdinClosed :: rest) :
      OrchestratorStep process { process with completions := rest, pendingStdinClosed := true }
  | drainFault {process : ManagedProcess} {call : EventCall} {readyExit : Option ExitStatus} {fault : ProcessFault}
      {rest : List Completion} (draining : process.orchestrator = .draining call readyExit)
      (queue : process.completions = .fault fault :: rest) :
      OrchestratorStep process { process.pendFault fault with completions := rest }
  | drained {process : ManagedProcess} {call : EventCall} {readyExit : Option ExitStatus}
      (draining : process.orchestrator = .draining call readyExit) (empty : process.completions = []) :
      OrchestratorStep process { process with orchestrator := .checkingResource call readyExit }
  -- Then the kinds of events are checked in their order.
  | resource {process : ManagedProcess} {call : EventCall} {readyExit : Option ExitStatus} {fault : ProcessFault}
      {rest : List ProcessFault} (checking : process.orchestrator = .checkingResource call readyExit)
      (pending : process.pendingFaults = fault :: rest) (limit : fault.isResourceLimit = true) :
      OrchestratorStep process { process.deliver (.fault fault) with pendingFaults := rest }
  | noResource {process : ManagedProcess} {call : EventCall} {readyExit : Option ExitStatus}
      (checking : process.orchestrator = .checkingResource call readyExit)
      (other : ∀ fault ∈ process.pendingFaults.head?, fault.isResourceLimit = false) :
      OrchestratorStep process { process with orchestrator := .checkingExit call readyExit }
  | exit {process : ManagedProcess} {call : EventCall} {readyExit : Option ExitStatus} {status : ExitStatus}
      (checking : process.orchestrator = .checkingExit call readyExit) (exited : readyExit.or process.observedStatus = some status)
      (first : process.exitEventDelivered = false) : OrchestratorStep process (process.deliverExit status)
  | noExit {process : ManagedProcess} {call : EventCall} {readyExit : Option ExitStatus}
      (checking : process.orchestrator = .checkingExit call readyExit)
      (other : readyExit.or process.observedStatus = none ∨ process.exitEventDelivered = true) :
      OrchestratorStep process { process with orchestrator := .checkingStdin call }
  | stdinExit {process next : ManagedProcess} {call : EventCall} {status : ExitStatus}
      (checking : process.orchestrator = .checkingStdin call) (pending : process.pendingStdinClosed = true)
      (refreshes : Refreshes process next (some status)) (first : process.exitEventDelivered = false) :
      OrchestratorStep process (next.deliverExit status)
  | stdinClosed {process next : ManagedProcess} {call : EventCall} {status : Option ExitStatus}
      (checking : process.orchestrator = .checkingStdin call) (pending : process.pendingStdinClosed = true)
      (refreshes : Refreshes process next status) (other : status = none ∨ process.exitEventDelivered = true) :
      OrchestratorStep process { next.deliver .stdinClosed with pendingStdinClosed := false }
  | noStdin {process : ManagedProcess} {call : EventCall} (checking : process.orchestrator = .checkingStdin call)
      (other : process.pendingStdinClosed = false) : OrchestratorStep process { process with orchestrator := .checkingFaults call }
  | faultExit {process next : ManagedProcess} {call : EventCall} {status : ExitStatus}
      (checking : process.orchestrator = .checkingFaults call) (pending : process.pendingFaults ≠ [])
      (refreshes : Refreshes process next (some status)) (first : process.exitEventDelivered = false) :
      OrchestratorStep process (next.deliverExit status)
  | fault {process next : ManagedProcess} {call : EventCall} {status : Option ExitStatus} {fault : ProcessFault}
      {rest : List ProcessFault} (checking : process.orchestrator = .checkingFaults call)
      (pending : process.pendingFaults = fault :: rest) (refreshes : Refreshes process next status)
      (other : status = none ∨ process.exitEventDelivered = true) :
      OrchestratorStep process { next.deliver (.fault fault) with pendingFaults := rest }
  | noFault {process : ManagedProcess} {call : EventCall} (checking : process.orchestrator = .checkingFaults call)
      (other : process.pendingFaults = []) : OrchestratorStep process { process with orchestrator := .receiving call }
  -- Chunks come last.
  | receive {process : ManagedProcess} {call : EventCall} {bytes : Bytes} {rest : List StdoutItem}
      (receiving : process.orchestrator = .receiving call) (queue : process.stdout = .bytes bytes :: rest) :
      OrchestratorStep process { process with orchestrator := .releasing bytes, stdout := rest }
  | releaseChunk {process : ManagedProcess} {bytes : Bytes} (received : process.orchestrator = .releasing bytes) :
      OrchestratorStep process
        { process.deliver (.stdout bytes) with inboundBudget := process.inboundBudget.release bytes.length }
  | receiveClosed {process : ManagedProcess} {call : EventCall} {rest : List StdoutItem}
      (receiving : process.orchestrator = .receiving call) (queue : process.stdout = .closed :: rest) :
      OrchestratorStep process { process with orchestrator := .closing, stdout := rest }
  | closedExit {process next : ManagedProcess} {status : ExitStatus} (closing : process.orchestrator = .closing)
      (refreshes : Refreshes process next (some status)) (first : process.exitEventDelivered = false) :
      OrchestratorStep process (next.deliverExit status)
  | closed {process next : ManagedProcess} {status : Option ExitStatus} (closing : process.orchestrator = .closing)
      (refreshes : Refreshes process next status) (other : status = none ∨ process.exitEventDelivered = true) :
      OrchestratorStep process (next.deliver .stdoutClosed)
  | nothing {process : ManagedProcess} {call : EventCall} (receiving : process.orchestrator = .receiving call)
      (empty : process.stdout = []) (returns : call ≠ .next) : OrchestratorStep process { process with orchestrator := .idle }
  -- Without an event a call waits for the token, and gives up when the deadline passes.
  | wait {process : ManagedProcess} (receiving : process.orchestrator = .receiving .next) (empty : process.stdout = []) :
      OrchestratorStep process { process with orchestrator := .waiting }
  | woken {process : ManagedProcess} (waiting : process.orchestrator = .waiting) (token : process.wake = true) :
      OrchestratorStep process { process with orchestrator := .draining .next none, wake := false }
  | timeout {process : ManagedProcess} (waiting : process.orchestrator = .waiting) :
      OrchestratorStep process { process with orchestrator := .idle }
  | disconnected {process : ManagedProcess} (waiting : process.orchestrator = .waiting) (token : process.wake = false)
      (stdin : process.stdinWorker = .stopped) (stdout : process.stdoutWorker = .stopped)
      (stderr : process.stderrWorker = .stopped) (status : process.statusWorker = .stopped) :
      OrchestratorStep process { process with orchestrator := .draining .last none }

/-! ## Runs -/

/-- The child writes, closes its output and exits when it likes. -/
inductive ChildStep : ManagedProcess → ManagedProcess → Prop
  | write {process : ManagedProcess} (bytes : Bytes) (open_ : process.pipeOpen = true) :
      ChildStep process { process with pipe := process.pipe ++ bytes, written := process.written ++ bytes }
  | close {process : ManagedProcess} : ChildStep process { process with pipeOpen := false }
  | exit {process : ManagedProcess} (status : ExitStatus) (running : process.exit = none) :
      ChildStep process { process with exit := some status }

inductive ProcessStep (process next : ManagedProcess) : Prop
  | stdin (step : StdinStep process next)
  | stdout (step : StdoutStep process next)
  | stderr (step : StderrStep process next)
  | status (step : StatusStep process next)
  | orchestrator (step : OrchestratorStep process next)
  | child (step : ChildStep process next)

/-- Any interleaving, as long as the orchestrator keeps its process. -/
inductive ProcessReaches (initial : ManagedProcess) : ManagedProcess → Prop
  | start : ProcessReaches initial initial
  | step {process next : ManagedProcess} (reached : ProcessReaches initial process) (step : ProcessStep process next) :
      ProcessReaches initial next

end Srcmv.Lsp
