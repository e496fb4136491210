import Srcmv.Model.Lsp.Process
import Mathlib.Tactic

/-! # Supervision loses nothing

Every worker reports at most once, hence no completion finds a full channel. Bytes are reserved
exactly while they are on their way, chunks arrive in the order in which they were read, and a
waiting orchestrator has a token coming for whatever is in its channels.
-/

namespace Srcmv.Lsp

open Srcmv.Core

variable {process next : ManagedProcess}

theorem ManagedProcess.report_frame (process : ManagedProcess) (completion : Completion) :
    ∃ completions dropped, process.report completion = { process with completions := completions, dropped := dropped } := by
  rw [report]
  split_ifs
  · exact ⟨_, process.dropped, rfl⟩
  · exact ⟨process.completions, _, rfl⟩

theorem Refreshes.frame {status : Option ExitStatus} (refreshes : Refreshes process next status) :
    ∃ observed, next = { process with observedStatus := observed } := by
  cases refreshes with
  | known => exact ⟨process.observedStatus, rfl⟩
  | probed => exact ⟨_, rfl⟩
  | nothing => exact ⟨process.observedStatus, rfl⟩

/-! ### What threads leave alone -/

theorem StdinStep.frame (step : StdinStep process next) : ∃ worker input budget closed completions dropped wake,
    next =
      { process with
        stdinWorker := worker
        input := input
        outboundBudget := budget
        stdinClosed := closed
        completions := completions
        dropped := dropped
        wake := wake } := by
  cases step with
  | @report completion failed =>
    obtain ⟨completions, dropped, same⟩ := process.report_frame completion
    rw [same]
    exact ⟨_, _, _, _, _, _, _, rfl⟩
  | _ => exact ⟨_, _, _, _, _, _, _, rfl⟩

theorem StdoutStep.frame (step : StdoutStep process next) : ∃ worker pipe read stdout budget completions dropped wake,
    next =
      { process with
        stdoutWorker := worker
        pipe := pipe
        read := read
        stdout := stdout
        inboundBudget := budget
        completions := completions
        dropped := dropped
        wake := wake } := by
  cases step with
  | @report completion failed =>
    obtain ⟨completions, dropped, same⟩ := process.report_frame completion
    rw [same]
    exact ⟨_, _, _, _, _, _, _, _, rfl⟩
  | _ => exact ⟨_, _, _, _, _, _, _, _, rfl⟩

theorem StderrStep.frame (step : StderrStep process next) : ∃ worker completions dropped wake,
    next = { process with stderrWorker := worker, completions := completions, dropped := dropped, wake := wake } := by
  cases step with
  | @report completion failed =>
    obtain ⟨completions, dropped, same⟩ := process.report_frame completion
    rw [same]
    exact ⟨_, _, _, _, rfl⟩
  | _ => exact ⟨_, _, _, _, rfl⟩

theorem StatusStep.frame (step : StatusStep process next) : ∃ worker observed completions dropped wake,
    next =
      { process with
        statusWorker := worker
        observedStatus := observed
        completions := completions
        dropped := dropped
        wake := wake } := by
  cases step with
  | @report completion failed =>
    obtain ⟨completions, dropped, same⟩ := process.report_frame completion
    rw [same]
    exact ⟨_, _, _, _, _, rfl⟩
  | _ => exact ⟨_, _, _, _, _, rfl⟩

/-! ## Reports -/

/-- The completions that a worker may still send. -/
def Worker.pendingReports {Activity : Type} : Worker Activity → ℕ
  | active _ | reporting _ | notifying (some _) => 1
  | notifying none | stopped => 0

section Simp

variable {Activity : Type}

@[simp] theorem Worker.pendingReports_active (activity : Activity) : (active activity).pendingReports = 1 := rfl
@[simp] theorem Worker.pendingReports_reporting (completion : Completion) :
    (reporting completion : Worker Activity).pendingReports = 1 := rfl
@[simp] theorem Worker.pendingReports_sent : (notifying none : Worker Activity).pendingReports = 0 := rfl
@[simp] theorem Worker.pendingReports_resume (activity : Activity) : (notifying (some activity)).pendingReports = 1 := rfl
@[simp] theorem Worker.pendingReports_stopped : (stopped : Worker Activity).pendingReports = 0 := rfl

@[simp] theorem Worker.pendingReports_resumed (resume : Option Activity) :
    (Worker.resumed resume).pendingReports = (Worker.notifying resume).pendingReports := by
  cases resume <;> rfl

end Simp

def ManagedProcess.pendingReports (process : ManagedProcess) : ℕ :=
  process.stdinWorker.pendingReports + process.stdoutWorker.pendingReports + process.stderrWorker.pendingReports +
    process.statusWorker.pendingReports

/-- The completions that were sent and that may still be sent fit into their channel. -/
structure Reported (process : ManagedProcess) : Prop where
  room : 4 ≤ process.limits.completionEvents
  bounded : process.completions.length + process.pendingReports ≤ 4
  kept : process.dropped = []

namespace Reported

theorem mono (reported : Reported process) (limits : next.limits = process.limits)
    (completions : next.completions.length ≤ process.completions.length) (dropped : next.dropped = process.dropped)
    (reports : next.pendingReports ≤ process.pendingReports) : Reported next :=
  ⟨limits ▸ reported.room, le_trans (Nat.add_le_add completions reports) reported.bounded, dropped.trans reported.kept⟩

/-- A worker sends its completion, and no other. -/
theorem report (reported : Reported process) {completion : Completion} (limits : next.limits = process.limits)
    (completions : next.completions = (process.report completion).completions)
    (dropped : next.dropped = (process.report completion).dropped)
    (reports : next.pendingReports + 1 = process.pendingReports) : Reported next := by
  have bounded := reported.bounded
  have room := reported.room
  rw [ManagedProcess.report, if_pos (by omega)] at completions dropped
  refine ⟨limits ▸ room, ?_, dropped.trans reported.kept⟩
  rw [completions, List.length_append, List.length_singleton]
  omega

theorem stdin (reported : Reported process) (step : StdinStep process next) : Reported next := by
  cases step with
  | receive idle => exact reported.mono rfl le_rfl rfl (by simp [ManagedProcess.pendingReports, idle])
  | close idle => exact reported.mono rfl le_rfl rfl (by simp [ManagedProcess.pendingReports, idle])
  | disconnected idle => exact reported.mono rfl le_rfl rfl (by simp [ManagedProcess.pendingReports, idle])
  | write writing => exact reported.mono rfl le_rfl rfl (by simp [ManagedProcess.pendingReports, writing])
  | release written => exact reported.mono rfl le_rfl rfl (by simp [ManagedProcess.pendingReports, written])
  | fail failed => exact reported.mono rfl le_rfl rfl (by simp [ManagedProcess.pendingReports, failed])
  | @report completion failed =>
    obtain ⟨completions, dropped, same⟩ := process.report_frame completion
    exact reported.report (by rw [same]) rfl rfl (by rw [same]; simp [ManagedProcess.pendingReports, failed]; omega)
  | notify sent => exact reported.mono rfl le_rfl rfl (by simp [ManagedProcess.pendingReports, ManagedProcess.notify, sent])

theorem stdout (reported : Reported process) (step : StdoutStep process next) : Reported next := by
  cases step with
  | read reading => exact reported.mono rfl le_rfl rfl (by simp [ManagedProcess.pendingReports, reading])
  | ended reading => exact reported.mono rfl le_rfl rfl (by simp [ManagedProcess.pendingReports, reading])
  | fail reading => exact reported.mono rfl le_rfl rfl (by simp [ManagedProcess.pendingReports, reading])
  | cancel waits =>
    rcases waits with reading | closing
    · exact reported.mono rfl le_rfl rfl (by simp [ManagedProcess.pendingReports, reading])
    · exact reported.mono rfl le_rfl rfl (by simp [ManagedProcess.pendingReports, closing])
  | close closing => exact reported.mono rfl le_rfl rfl (by simp [ManagedProcess.pendingReports, closing])
  | reserve reserving => exact reported.mono rfl le_rfl rfl (by simp [ManagedProcess.pendingReports, reserving])
  | reject reserving => exact reported.mono rfl le_rfl rfl (by simp [ManagedProcess.pendingReports, reserving])
  | send sending => exact reported.mono rfl le_rfl rfl (by simp [ManagedProcess.pendingReports, sending])
  | abandon sending => exact reported.mono rfl le_rfl rfl (by simp [ManagedProcess.pendingReports, sending])
  | release abandoned => exact reported.mono rfl le_rfl rfl (by simp [ManagedProcess.pendingReports, abandoned])
  | @report completion failed =>
    obtain ⟨completions, dropped, same⟩ := process.report_frame completion
    exact reported.report (by rw [same]) rfl rfl (by rw [same]; simp [ManagedProcess.pendingReports, failed]; omega)
  | notify sent => exact reported.mono rfl le_rfl rfl (by simp [ManagedProcess.pendingReports, ManagedProcess.notify, sent])

theorem stderr (reported : Reported process) (step : StderrStep process next) : Reported next := by
  cases step with
  | ended reading => exact reported.mono rfl le_rfl rfl (by simp [ManagedProcess.pendingReports, reading])
  | fail reading => exact reported.mono rfl le_rfl rfl (by simp [ManagedProcess.pendingReports, reading])
  | @report completion failed =>
    obtain ⟨completions, dropped, same⟩ := process.report_frame completion
    exact reported.report (by rw [same]) rfl rfl (by rw [same]; simp [ManagedProcess.pendingReports, failed]; omega)
  | notify sent => exact reported.mono rfl le_rfl rfl (by simp [ManagedProcess.pendingReports, ManagedProcess.notify, sent])

theorem status (reported : Reported process) (step : StatusStep process next) : Reported next := by
  cases step with
  | observe polling => exact reported.mono rfl le_rfl rfl (by simp [ManagedProcess.pendingReports, polling])
  | fail polling => exact reported.mono rfl le_rfl rfl (by simp [ManagedProcess.pendingReports, polling])
  | store exited => exact reported.mono rfl le_rfl rfl (by simp [ManagedProcess.pendingReports, exited])
  | @report completion failed =>
    obtain ⟨completions, dropped, same⟩ := process.report_frame completion
    exact reported.report (by rw [same]) rfl rfl (by rw [same]; simp [ManagedProcess.pendingReports, failed])
  | notify sent => exact reported.mono rfl le_rfl rfl (by simp [ManagedProcess.pendingReports, ManagedProcess.notify, sent])

/-- The orchestrator only takes completions. -/
theorem orchestrator (reported : Reported process) (step : OrchestratorStep process next) : Reported next := by
  cases step with
  | drainExited _ queue => exact reported.mono rfl (by simp [queue]) rfl le_rfl
  | drainStdinClosed _ queue => exact reported.mono rfl (by simp [queue]) rfl le_rfl
  | drainFault _ queue => exact reported.mono rfl (by simp [queue]) rfl le_rfl
  | refresh refreshes | stdinExit _ _ refreshes | stdinClosed _ _ refreshes | faultExit _ _ refreshes | fault _ _ refreshes
  | closedExit _ refreshes | closed _ refreshes =>
    obtain ⟨observed, rfl⟩ := refreshes.frame
    exact reported.mono rfl le_rfl rfl le_rfl
  | _ => exact reported.mono rfl le_rfl rfl le_rfl

theorem step (reported : Reported process) (step : ProcessStep process next) : Reported next := by
  cases step with
  | stdin step => exact reported.stdin step
  | stdout step => exact reported.stdout step
  | stderr step => exact reported.stderr step
  | status step => exact reported.status step
  | orchestrator step => exact reported.orchestrator step
  | child step => cases step <;> exact reported.mono rfl le_rfl rfl le_rfl

end Reported

/-! ## Exits -/

/-- The events of the exit that were delivered, and the flag that records one. -/
def ExitsOnce (process : ManagedProcess) : Prop :=
  (process.delivered.filter ManagedProcess.isExited).length ≤ if process.exitEventDelivered then 1 else 0

namespace ExitsOnce

private theorem deliver (once : ExitsOnce process) {event : ProcessEvent} (other : ManagedProcess.isExited event = false)
    (delivered : next.delivered = process.delivered ++ [event]) (flag : next.exitEventDelivered = process.exitEventDelivered) :
    ExitsOnce next := by
  rw [ExitsOnce, delivered, flag, List.filter_append, List.filter_cons_of_neg (by rw [other]; exact Bool.false_ne_true),
    List.filter_nil, List.append_nil]
  exact once

private theorem deliverExit (once : ExitsOnce process) {status : ExitStatus} (first : process.exitEventDelivered = false)
    (delivered : next.delivered = process.delivered ++ [.exited status]) (flag : next.exitEventDelivered = true) : ExitsOnce next := by
  rw [ExitsOnce, first, if_neg Bool.false_ne_true] at once
  rw [ExitsOnce, delivered, flag, if_pos rfl, List.filter_append, List.length_append]
  exact Nat.add_le_add once (List.length_filter_le _ [_])

theorem orchestrator (once : ExitsOnce process) (step : OrchestratorStep process next) : ExitsOnce next := by
  cases step with
  | resource => exact once.deliver rfl rfl rfl
  | exit _ _ first => exact once.deliverExit first rfl rfl
  | stdinExit _ _ refreshes first | faultExit _ _ refreshes first | closedExit _ refreshes first =>
    obtain ⟨observed, rfl⟩ := refreshes.frame
    exact once.deliverExit first rfl rfl
  | stdinClosed _ _ refreshes | fault _ _ refreshes | closed _ refreshes =>
    obtain ⟨observed, rfl⟩ := refreshes.frame
    exact once.deliver rfl rfl rfl
  | releaseChunk => exact once.deliver rfl rfl rfl
  | refresh refreshes =>
    obtain ⟨observed, rfl⟩ := refreshes.frame
    exact once
  | _ => exact once

/-- Only the orchestrator delivers events. -/
theorem step (once : ExitsOnce process) (step : ProcessStep process next) : ExitsOnce next := by
  cases step with
  | stdin step =>
    obtain ⟨_, _, _, _, _, _, _, rfl⟩ := step.frame
    exact once
  | stdout step =>
    obtain ⟨_, _, _, _, _, _, _, _, rfl⟩ := step.frame
    exact once
  | stderr step =>
    obtain ⟨_, _, _, _, rfl⟩ := step.frame
    exact once
  | status step =>
    obtain ⟨_, _, _, _, _, rfl⟩ := step.frame
    exact once
  | orchestrator step => exact once.orchestrator step
  | child step => cases step <;> exact once

end ExitsOnce

/-! ## The output of the child -/

/-- What a worker does, or will do after its notification. -/
def Worker.activity? {Activity : Type} : Worker Activity → Option Activity
  | active activity => some activity
  | notifying resume => resume
  | reporting _ | stopped => none

section Simp

variable {Activity : Type}

@[simp] theorem Worker.activity?_active (activity : Activity) : (active activity).activity? = some activity := rfl
@[simp] theorem Worker.activity?_notifying (resume : Option Activity) : (notifying resume).activity? = resume := rfl
@[simp] theorem Worker.activity?_reporting (completion : Completion) : (reporting completion : Worker Activity).activity? = none := rfl
@[simp] theorem Worker.activity?_stopped : (stopped : Worker Activity).activity? = none := rfl

@[simp] theorem Worker.activity?_resumed (resume : Option Activity) : (Worker.resumed resume).activity? = resume := by
  cases resume <;> rfl

end Simp

@[simp] def StdoutItem.content : StdoutItem → Bytes
  | .bytes chunk => chunk
  | .closed => []

@[simp] def ProcessEvent.content : ProcessEvent → Bytes
  | .stdout bytes => bytes
  | _ => []

/-- The chunk that is to be sent. -/
@[simp] def StdoutActivity.chunk : StdoutActivity → Bytes
  | .reserving bytes | .sending bytes => bytes
  | _ => []

/-- The chunk that was taken from the channel and is to be delivered. -/
@[simp] def Orchestrator.chunk : Orchestrator → Bytes
  | .releasing bytes => bytes
  | _ => []

/-- The worker has lost none of what it has read. -/
@[simp] def StdoutActivity.Current : StdoutActivity → Prop
  | .abandoning _ => False
  | _ => True

namespace ManagedProcess

/-- What calls returned of the output of the child. -/
def deliveredBytes (process : ManagedProcess) : Bytes := process.delivered.flatMap ProcessEvent.content

/-- What was read, from what was delivered first to what the worker holds. -/
def inOrder (process : ManagedProcess) : Bytes :=
  process.deliveredBytes ++ process.orchestrator.chunk ++ process.stdout.flatMap StdoutItem.content ++
    process.stdoutWorker.activity?.elim [] StdoutActivity.chunk

end ManagedProcess

structure Streamed (process : ManagedProcess) : Prop where
  written : process.written = process.read ++ process.pipe
  ordered : process.inOrder <+: process.read
  current : (∃ activity, process.stdoutWorker.activity? = some activity ∧ activity.Current) → process.inOrder = process.read

namespace Streamed

private theorem move (streamed : Streamed process) (written : next.written = process.written) (read : next.read = process.read)
    (pipe : next.pipe = process.pipe) (order : next.inOrder = process.inOrder)
    (current : (∃ activity, next.stdoutWorker.activity? = some activity ∧ activity.Current) →
      ∃ activity, process.stdoutWorker.activity? = some activity ∧ activity.Current) : Streamed next := by
  refine ⟨?_, ?_, fun holds => ?_⟩
  · rw [written, read, pipe]
    exact streamed.written
  · rw [order, read]
    exact streamed.ordered
  · rw [order, read]
    exact streamed.current (current holds)

/-- What the worker does not send any more is at the end. -/
private theorem drop (streamed : Streamed process) (written : next.written = process.written) (read : next.read = process.read)
    (pipe : next.pipe = process.pipe) (order : next.inOrder <+: process.inOrder)
    (gone : ¬∃ activity, next.stdoutWorker.activity? = some activity ∧ activity.Current) : Streamed next := by
  refine ⟨?_, ?_, fun holds => absurd holds gone⟩
  · rw [written, read, pipe]
    exact streamed.written
  · rw [read]
    exact order.trans streamed.ordered

theorem stdout (streamed : Streamed process) (step : StdoutStep process next) : Streamed next := by
  cases step with
  | @read bytes rest reading _ _ pipe =>
    have current := streamed.current ⟨.reading, by rw [reading]; rfl, trivial⟩
    rw [ManagedProcess.inOrder, reading] at current
    have order : process.deliveredBytes ++ process.orchestrator.chunk ++ process.stdout.flatMap StdoutItem.content ++ bytes =
        process.read ++ bytes := by simpa using congrArg (· ++ bytes) current
    refine ⟨?_, ?_, fun _ => order⟩
    · rw [streamed.written, pipe, List.append_assoc]
    · exact order ▸ List.prefix_rfl
  | ended reading => exact streamed.move rfl rfl rfl (by simp [ManagedProcess.inOrder, ManagedProcess.deliveredBytes, reading]) (by simp [reading])
  | fail reading => exact streamed.drop rfl rfl rfl (by simp [ManagedProcess.inOrder, ManagedProcess.deliveredBytes, reading]) (by simp)
  | cancel waits =>
    refine streamed.drop rfl rfl rfl ?_ (by simp)
    rcases waits with reading | closing
    · simp [ManagedProcess.inOrder, ManagedProcess.deliveredBytes, reading]
    · simp [ManagedProcess.inOrder, ManagedProcess.deliveredBytes, closing]
  | close closing =>
    exact streamed.drop rfl rfl rfl (by simp [ManagedProcess.inOrder, ManagedProcess.deliveredBytes, closing]) (by simp)
  | reserve reserving =>
    exact streamed.move rfl rfl rfl (by simp [ManagedProcess.inOrder, ManagedProcess.deliveredBytes, reserving]) (by simp [reserving])
  | reject reserving =>
    exact streamed.drop rfl rfl rfl (by simp [ManagedProcess.inOrder, ManagedProcess.deliveredBytes, reserving]) (by simp)
  | send sending =>
    exact streamed.move rfl rfl rfl (by simp [ManagedProcess.inOrder, ManagedProcess.deliveredBytes, sending]) (by simp [sending])
  | abandon sending =>
    exact streamed.drop rfl rfl rfl (by simp [ManagedProcess.inOrder, ManagedProcess.deliveredBytes, sending]) (by simp)
  | release abandoned =>
    exact streamed.drop rfl rfl rfl (by simp [ManagedProcess.inOrder, ManagedProcess.deliveredBytes, abandoned]) (by simp)
  | @report completion failed =>
    obtain ⟨completions, dropped, same⟩ := process.report_frame completion
    rw [same]
    exact streamed.drop rfl rfl rfl (by simp [ManagedProcess.inOrder, ManagedProcess.deliveredBytes, failed]) (by simp)
  | notify sent =>
    exact streamed.move rfl rfl rfl (by simp [ManagedProcess.inOrder, ManagedProcess.deliveredBytes, ManagedProcess.notify, sent])
      (by simp [sent])

theorem orchestrator (streamed : Streamed process) (step : OrchestratorStep process next) : Streamed next := by
  cases step with
  | refresh refreshes =>
    obtain ⟨observed, rfl⟩ := refreshes.frame
    exact streamed.move rfl rfl rfl rfl id
  | dropInput | cancel | drainStdinClosed | drainFault => exact streamed.move rfl rfl rfl rfl id
  | reserve state | queue state | refuse state | release state | queueClose state | closeQueued state | closeRefused state
  | begin state | drainExited state | drained state | noResource state | noExit state | noStdin state | noFault state
  | nothing state | wait state | woken state | timeout state | disconnected state =>
    exact streamed.move rfl rfl rfl (by simp [ManagedProcess.inOrder, ManagedProcess.deliveredBytes, state]) id
  | resource state | exit state =>
    exact streamed.move rfl rfl rfl (by
      simp [ManagedProcess.inOrder, ManagedProcess.deliveredBytes, ManagedProcess.deliver, ManagedProcess.deliverExit, state]) id
  | stdinExit state _ refreshes | stdinClosed state _ refreshes | faultExit state _ refreshes | fault state _ refreshes
  | closedExit state refreshes | closed state refreshes =>
    obtain ⟨observed, rfl⟩ := refreshes.frame
    exact streamed.move rfl rfl rfl (by
      simp [ManagedProcess.inOrder, ManagedProcess.deliveredBytes, ManagedProcess.deliver, ManagedProcess.deliverExit, state]) id
  | receive state queue | receiveClosed state queue =>
    exact streamed.move rfl rfl rfl (by simp [ManagedProcess.inOrder, ManagedProcess.deliveredBytes, state, queue]) id
  | releaseChunk state =>
    exact streamed.move rfl rfl rfl (by
      simp [ManagedProcess.inOrder, ManagedProcess.deliveredBytes, ManagedProcess.deliver, state]) id

theorem step (streamed : Streamed process) (step : ProcessStep process next) : Streamed next := by
  cases step with
  | stdin step =>
    obtain ⟨_, _, _, _, _, _, _, rfl⟩ := step.frame
    exact streamed.move rfl rfl rfl rfl id
  | stdout step => exact streamed.stdout step
  | stderr step =>
    obtain ⟨_, _, _, _, rfl⟩ := step.frame
    exact streamed.move rfl rfl rfl rfl id
  | status step =>
    obtain ⟨_, _, _, _, _, rfl⟩ := step.frame
    exact streamed.move rfl rfl rfl rfl id
  | orchestrator step => exact streamed.orchestrator step
  | child step =>
    cases step with
    | write bytes =>
      refine ⟨?_, streamed.ordered, streamed.current⟩
      rw [streamed.written, List.append_assoc]
    | close => exact streamed.move rfl rfl rfl rfl id
    | exit => exact streamed.move rfl rfl rfl rfl id

end Streamed

/-! ## Budgets -/

/-- The bytes that are reserved for chunks. -/
@[simp] def StdoutActivity.reserved : StdoutActivity → ℕ
  | .sending bytes | .abandoning bytes => bytes.length
  | _ => 0

@[simp] def InputCommand.size : InputCommand → ℕ
  | .bytes frame => frame.length
  | .close => 0

/-- The frame that a worker writes until its bytes are released. -/
@[simp] def StdinActivity.held : StdinActivity → ℕ
  | .writing bytes | .releasing bytes _ => bytes.length
  | _ => 0

/-- The frame that is to be queued or was refused. -/
@[simp] def Orchestrator.held : Orchestrator → ℕ
  | .queueing command => command.size
  | .refused bytes => bytes.length
  | _ => 0

namespace ManagedProcess

/-- The chunks between the reservation and the release of their bytes. -/
def inboundBytes (process : ManagedProcess) : ℕ :=
  (process.stdout.map fun item => item.content.length).sum + process.stdoutWorker.activity?.elim 0 StdoutActivity.reserved +
    process.orchestrator.chunk.length

def outboundBytes (process : ManagedProcess) : ℕ :=
  (process.input.map InputCommand.size).sum + process.stdinWorker.activity?.elim 0 StdinActivity.held + process.orchestrator.held

end ManagedProcess

/-- A budget within its capacity that covers what is on its way. -/
structure ByteBudget.Covers (budget : ByteBudget) (capacity bytes : ℕ) : Prop where
  bound : budget.capacity = capacity
  within : budget.used ≤ capacity
  covers : bytes ≤ budget.used
  asserted : budget.underflowed = false

namespace ByteBudget.Covers

variable {budget reserved : ByteBudget} {capacity bytes more : ℕ}

theorem reserve (covered : budget.Covers capacity bytes) (success : budget.reserve more = some reserved) :
    reserved.Covers capacity (bytes + more) := by
  rw [ByteBudget.reserve] at success
  split_ifs at success with room
  obtain rfl := Option.some.inj success
  exact ⟨covered.bound, covered.bound ▸ room.2, Nat.add_le_add_right covered.covers _, covered.asserted⟩

/-- Only what is covered is released. -/
theorem release (covered : budget.Covers capacity (bytes + more)) : (budget.release more).Covers capacity bytes := by
  have covers := covered.covers
  have enough : more ≤ budget.used := by omega
  refine ⟨covered.bound, ?_, ?_, ?_⟩
  · rw [ByteBudget.release, if_pos enough]
    exact le_trans (Nat.sub_le _ _) covered.within
  · rw [ByteBudget.release, if_pos enough]
    dsimp only
    omega
  · rw [ByteBudget.release]
    dsimp only
    rw [covered.asserted, decide_eq_false (by omega)]
    rfl

theorem mono (covered : budget.Covers capacity bytes) {fewer : ℕ} (less : fewer ≤ bytes) : budget.Covers capacity fewer :=
  ⟨covered.bound, covered.within, le_trans less covered.covers, covered.asserted⟩

end ByteBudget.Covers

/-- Both budgets cover what is between their two sides. -/
structure Budgeted (limits : ProcessLimits) (process : ManagedProcess) : Prop where
  inbound : process.inboundBudget.Covers limits.inboundBytes process.inboundBytes
  outbound : process.outboundBudget.Covers limits.outboundBytes process.outboundBytes

namespace Budgeted

variable {limits : ProcessLimits}

theorem stdin (budgeted : Budgeted limits process) (step : StdinStep process next) : Budgeted limits next := by
  have outbound := budgeted.outbound
  cases step with
  | receive idle queue =>
    exact ⟨budgeted.inbound, outbound.mono (by simp [ManagedProcess.outboundBytes, idle, queue]; omega)⟩
  | close idle => exact ⟨budgeted.inbound, outbound.mono (by simp [ManagedProcess.outboundBytes, idle])⟩
  | disconnected idle => exact ⟨budgeted.inbound, outbound.mono (by simp [ManagedProcess.outboundBytes, idle])⟩
  | write writing => exact ⟨budgeted.inbound, outbound.mono (by simp [ManagedProcess.outboundBytes, writing])⟩
  | @release bytes failure written =>
    refine ⟨budgeted.inbound, (outbound.mono ?_).release⟩
    cases failure <;> simp [ManagedProcess.outboundBytes, written] <;> omega
  | fail failed => exact ⟨budgeted.inbound, outbound.mono (by simp [ManagedProcess.outboundBytes, failed])⟩
  | @report completion failed =>
    obtain ⟨completions, dropped, same⟩ := process.report_frame completion
    rw [same]
    exact ⟨budgeted.inbound, outbound.mono (by simp [ManagedProcess.outboundBytes, failed])⟩
  | notify sent =>
    exact ⟨budgeted.inbound, outbound.mono (by simp [ManagedProcess.outboundBytes, ManagedProcess.notify, sent])⟩

theorem stdout (budgeted : Budgeted limits process) (step : StdoutStep process next) : Budgeted limits next := by
  have inbound := budgeted.inbound
  cases step with
  | read reading => exact ⟨inbound.mono (by simp [ManagedProcess.inboundBytes, reading]), budgeted.outbound⟩
  | ended reading => exact ⟨inbound.mono (by simp [ManagedProcess.inboundBytes, reading]), budgeted.outbound⟩
  | fail reading => exact ⟨inbound.mono (by simp [ManagedProcess.inboundBytes, reading]), budgeted.outbound⟩
  | cancel => exact ⟨inbound.mono (by simp [ManagedProcess.inboundBytes]), budgeted.outbound⟩
  | close closing => exact ⟨inbound.mono (by simp [ManagedProcess.inboundBytes, closing]), budgeted.outbound⟩
  | reserve reserving reserved =>
    exact ⟨(inbound.reserve reserved).mono (by simp [ManagedProcess.inboundBytes, reserving]; omega), budgeted.outbound⟩
  | reject reserving => exact ⟨inbound.mono (by simp [ManagedProcess.inboundBytes, reserving]), budgeted.outbound⟩
  | send sending => exact ⟨inbound.mono (by simp [ManagedProcess.inboundBytes, sending]), budgeted.outbound⟩
  | abandon sending => exact ⟨inbound.mono (by simp [ManagedProcess.inboundBytes, sending]), budgeted.outbound⟩
  | release abandoned => exact ⟨(inbound.mono (by simp [ManagedProcess.inboundBytes, abandoned]; omega)).release, budgeted.outbound⟩
  | @report completion failed =>
    obtain ⟨completions, dropped, same⟩ := process.report_frame completion
    rw [same]
    exact ⟨inbound.mono (by simp [ManagedProcess.inboundBytes, failed]), budgeted.outbound⟩
  | notify sent => exact ⟨inbound.mono (by simp [ManagedProcess.inboundBytes, ManagedProcess.notify, sent]), budgeted.outbound⟩

private theorem move (budgeted : Budgeted limits process) (inbound : next.inboundBudget = process.inboundBudget)
    (outbound : next.outboundBudget = process.outboundBudget) (chunks : next.inboundBytes ≤ process.inboundBytes)
    (frames : next.outboundBytes ≤ process.outboundBytes) : Budgeted limits next :=
  ⟨inbound ▸ budgeted.inbound.mono chunks, outbound ▸ budgeted.outbound.mono frames⟩

theorem orchestrator (budgeted : Budgeted limits process) (step : OrchestratorStep process next) : Budgeted limits next := by
  cases step with
  | refresh refreshes =>
    obtain ⟨observed, rfl⟩ := refreshes.frame
    exact budgeted.move rfl rfl le_rfl le_rfl
  | dropInput | cancel | drainStdinClosed | drainFault => exact budgeted.move rfl rfl le_rfl le_rfl
  | reserve state reserved =>
    exact ⟨budgeted.inbound.mono (by simp [ManagedProcess.inboundBytes, state]),
      (budgeted.outbound.reserve reserved).mono (by simp [ManagedProcess.outboundBytes, state])⟩
  | release state =>
    exact ⟨budgeted.inbound.mono (by simp [ManagedProcess.inboundBytes, state]),
      (budgeted.outbound.mono (by simp [ManagedProcess.outboundBytes, state])).release⟩
  | queue state | refuse state | queueClose state | closeQueued state | closeRefused state | begin state | drainExited state
  | drained state | noResource state | noExit state | noStdin state | noFault state | nothing state | wait state | woken state
  | timeout state | disconnected state =>
    exact budgeted.move rfl rfl (by simp [ManagedProcess.inboundBytes, state])
      (by simp [ManagedProcess.outboundBytes, state]; try omega)
  | resource state | exit state =>
    exact budgeted.move rfl rfl
      (by simp [ManagedProcess.inboundBytes, ManagedProcess.deliver, ManagedProcess.deliverExit, state])
      (by simp [ManagedProcess.outboundBytes, ManagedProcess.deliver, ManagedProcess.deliverExit, state])
  | stdinExit state _ refreshes | stdinClosed state _ refreshes | faultExit state _ refreshes | fault state _ refreshes
  | closedExit state refreshes | closed state refreshes =>
    obtain ⟨observed, rfl⟩ := refreshes.frame
    exact budgeted.move rfl rfl
      (by simp [ManagedProcess.inboundBytes, ManagedProcess.deliver, ManagedProcess.deliverExit, state])
      (by simp [ManagedProcess.outboundBytes, ManagedProcess.deliver, ManagedProcess.deliverExit, state])
  | receive state queue | receiveClosed state queue =>
    exact budgeted.move rfl rfl (by simp [ManagedProcess.inboundBytes, state, queue]; try omega)
      (by simp [ManagedProcess.outboundBytes, state])
  | releaseChunk state =>
    exact ⟨(budgeted.inbound.mono (by simp [ManagedProcess.inboundBytes, ManagedProcess.deliver, state])).release,
      budgeted.outbound.mono (by simp [ManagedProcess.outboundBytes, ManagedProcess.deliver, state])⟩

theorem step (budgeted : Budgeted limits process) (step : ProcessStep process next) : Budgeted limits next := by
  cases step with
  | stdin step => exact budgeted.stdin step
  | stdout step => exact budgeted.stdout step
  | stderr step =>
    obtain ⟨_, _, _, _, rfl⟩ := step.frame
    exact budgeted.move rfl rfl le_rfl le_rfl
  | status step =>
    obtain ⟨_, _, _, _, _, rfl⟩ := step.frame
    exact budgeted.move rfl rfl le_rfl le_rfl
  | orchestrator step => exact budgeted.orchestrator step
  | child step => cases step <;> exact budgeted.move rfl rfl le_rfl le_rfl

end Budgeted

/-! ## Wakes -/

/-- A worker between its send and its notification. -/
def Worker.isNotifying {Activity : Type} : Worker Activity → Prop
  | notifying _ => True
  | _ => False

section Simp

variable {Activity : Type}

@[simp] theorem Worker.isNotifying_active (activity : Activity) : (active activity).isNotifying ↔ False := Iff.rfl
@[simp] theorem Worker.isNotifying_reporting (completion : Completion) :
    (reporting completion : Worker Activity).isNotifying ↔ False := Iff.rfl
@[simp] theorem Worker.isNotifying_notifying (resume : Option Activity) : (notifying resume).isNotifying ↔ True := Iff.rfl
@[simp] theorem Worker.isNotifying_stopped : (stopped : Worker Activity).isNotifying ↔ False := Iff.rfl

end Simp

/-- A token is there or about to be sent. -/
def ManagedProcess.Wakes (process : ManagedProcess) : Prop :=
  process.wake = true ∨ process.stdinWorker.isNotifying ∨ process.stdoutWorker.isNotifying ∨ process.stderrWorker.isNotifying ∨
    process.statusWorker.isNotifying

/-- A call has found no completion, and has not returned an event. -/
@[simp] def Orchestrator.PastCompletions : Orchestrator → Prop
  | .checkingResource .. | .checkingExit .. | .checkingStdin _ | .checkingFaults _ | .receiving _ | .waiting => True
  | _ => False

/-- Whatever was put in a channel after it was found empty comes with a token. -/
structure Woken (process : ManagedProcess) : Prop where
  completions : process.orchestrator.PastCompletions → process.completions ≠ [] → process.Wakes
  stdout : process.orchestrator = .waiting → process.stdout ≠ [] → process.Wakes

namespace Woken

/-- A step that puts nothing in a channel and takes no token. -/
private theorem move (woken : Woken process) (past : next.orchestrator.PastCompletions → process.orchestrator.PastCompletions)
    (waits : next.orchestrator = .waiting → process.orchestrator = .waiting)
    (completions : next.completions ≠ [] → process.completions ≠ []) (stdout : next.stdout ≠ [] → process.stdout ≠ [])
    (wakes : process.Wakes → next.Wakes) : Woken next :=
  ⟨fun later found => wakes (woken.completions (past later) (completions found)),
    fun later found => wakes (woken.stdout (waits later) (stdout found))⟩

/-- Elsewhere the orchestrator will look into its channels before it waits. -/
private theorem of_elsewhere (elsewhere : ¬next.orchestrator.PastCompletions) : Woken next :=
  ⟨fun past => absurd past elsewhere, fun waiting => absurd (by rw [waiting]; trivial) elsewhere⟩

private theorem of_wakes (wakes : next.Wakes) : Woken next := ⟨fun _ _ => wakes, fun _ _ => wakes⟩

theorem stdin (woken : Woken process) (step : StdinStep process next) : Woken next := by
  cases step with
  | receive state | close state | disconnected state | write state | release state | fail state =>
    exact woken.move id id id id (by simp [ManagedProcess.Wakes, state])
  | report => exact of_wakes (.inr (.inl trivial))
  | notify => exact of_wakes (.inl rfl)

theorem stdout_ (woken : Woken process) (step : StdoutStep process next) : Woken next := by
  cases step with
  | read state | ended state | fail state | reserve state | reject state | abandon state | release state =>
    exact woken.move id id id id (by simp [ManagedProcess.Wakes, state])
  | cancel waits =>
    rcases waits with state | state
    · exact woken.move id id id id (by simp [ManagedProcess.Wakes, state])
    · exact woken.move id id id id (by simp [ManagedProcess.Wakes, state])
  | close | send | report => exact of_wakes (.inr (.inr (.inl trivial)))
  | notify => exact of_wakes (.inl rfl)

theorem stderr (woken : Woken process) (step : StderrStep process next) : Woken next := by
  cases step with
  | ended state | fail state => exact woken.move id id id id (by simp [ManagedProcess.Wakes, state])
  | report => exact of_wakes (.inr (.inr (.inr (.inl trivial))))
  | notify => exact of_wakes (.inl rfl)

theorem status (woken : Woken process) (step : StatusStep process next) : Woken next := by
  cases step with
  | observe state | fail state | store state => exact woken.move id id id id (by simp [ManagedProcess.Wakes, state])
  | report => exact of_wakes (.inr (.inr (.inr (.inr trivial))))
  | notify => exact of_wakes (.inl rfl)

/-- The orchestrator takes the token only to look into its channels again. -/
theorem orchestrator (woken : Woken process) (step : OrchestratorStep process next) : Woken next := by
  cases step with
  | refresh refreshes =>
    obtain ⟨observed, rfl⟩ := refreshes.frame
    exact woken.move id id id id id
  | dropInput | cancel => exact woken.move id id id id id
  | drainStdinClosed state | drainFault state => exact of_elsewhere (by simp [ManagedProcess.pendFault, state])
  | drained state empty => exact ⟨fun _ found => absurd empty found, fun impossible => by cases impossible⟩
  | noResource state | noExit state | noStdin state | noFault state =>
    exact woken.move (fun _ => by simp [state]) (fun impossible => by cases impossible) id id id
  | wait state empty => exact ⟨fun _ => woken.completions (by simp [state]), fun _ found => absurd empty found⟩
  | _ => exact of_elsewhere id

theorem step (woken : Woken process) (step : ProcessStep process next) : Woken next := by
  cases step with
  | stdin step => exact woken.stdin step
  | stdout step => exact woken.stdout_ step
  | stderr step => exact woken.stderr step
  | status step => exact woken.status step
  | orchestrator step => exact woken.orchestrator step
  | child step => cases step <;> exact woken.move id id id id id

end Woken

/-! ## Runs -/

/-- What holds in every state of every interleaving. -/
structure Supervised (limits : ProcessLimits) (process : ManagedProcess) : Prop where
  reported : Reported process
  once : ExitsOnce process
  streamed : Streamed process
  budgeted : Budgeted limits process
  woken : Woken process

variable {limits : ProcessLimits} {initial : ManagedProcess}

theorem Supervised.of_spawn (spawned : ManagedProcess.spawn limits = some initial) : Supervised limits initial := by
  rw [ManagedProcess.spawn, ProcessLimits.validate] at spawned
  split_ifs at spawned with invalid
  · cases spawned
  · obtain rfl := Option.some.inj spawned
    have room : 4 ≤ limits.completionEvents := by omega
    refine ⟨⟨room, le_rfl, rfl⟩, Nat.zero_le _, ⟨rfl, List.prefix_rfl, fun _ => rfl⟩, ⟨?_, ?_⟩, ?_⟩
    · exact ⟨rfl, Nat.zero_le _, le_rfl, rfl⟩
    · exact ⟨rfl, Nat.zero_le _, le_rfl, rfl⟩
    · exact ⟨fun impossible => absurd impossible id, fun impossible => by cases impossible⟩

theorem Supervised.reaches (supervised : Supervised limits initial) (reached : ProcessReaches initial process) :
    Supervised limits process := by
  induction reached with
  | start => exact supervised
  | step _ step ih =>
    exact ⟨ih.reported.step step, ih.once.step step, ih.streamed.step step, ih.budgeted.step step, ih.woken.step step⟩

/-- Under any interleaving no completion is dropped, the exit is delivered at most once, what is
delivered of the output is what was written first, no budget is exceeded or released below zero, and
a waiting orchestrator with an item in a channel has a token, or a worker is about to send one. -/
theorem supervision_loses_nothing (spawned : ManagedProcess.spawn limits = some initial) (reached : ProcessReaches initial process) :
    process.dropped = [] ∧ (process.delivered.filter ManagedProcess.isExited).length ≤ 1 ∧
      process.deliveredBytes <+: process.written ∧
      (process.inboundBudget.used ≤ limits.inboundBytes ∧ process.inboundBudget.underflowed = false) ∧
      (process.outboundBudget.used ≤ limits.outboundBytes ∧ process.outboundBudget.underflowed = false) ∧
      (process.orchestrator = .waiting → process.completions ≠ [] ∨ process.stdout ≠ [] → process.Wakes) := by
  obtain ⟨reported, once, streamed, budgeted, woken⟩ := (Supervised.of_spawn spawned).reaches reached
  refine ⟨reported.kept, le_trans once ?_, ?_, ⟨budgeted.inbound.within, budgeted.inbound.asserted⟩,
    ⟨budgeted.outbound.within, budgeted.outbound.asserted⟩, ?_⟩
  · split_ifs <;> decide
  · rw [streamed.written]
    have first : process.deliveredBytes <+: process.inOrder := by
      rw [ManagedProcess.inOrder, List.append_assoc, List.append_assoc]
      exact List.prefix_append _ _
    exact (first.trans streamed.ordered).trans (List.prefix_append _ _)
  · intro waiting found
    rcases found with completion | chunk
    · exact woken.completions (by rw [waiting]; trivial) completion
    · exact woken.stdout waiting chunk

/-- A process under the default limits. -/
private def defaultProcess : ManagedProcess where
  limits := {}
  outboundBudget := ⟨0, 64 * 1024 * 1024, false⟩
  inboundBudget := ⟨0, 32 * 1024 * 1024, false⟩

/-- The child exits while the orchestrator waits, and its worker has not sent the token yet. -/
theorem supervision_loses_nothing_example : ∃ process : ManagedProcess, process.wake = false ∧ process.orchestrator = .waiting ∧
    process.completions ≠ [] ∧ process.Wakes := by
  have started : ProcessReaches defaultProcess defaultProcess := .start
  have drained := (started.step (.orchestrator (.begin rfl .next))).step (.orchestrator (.drained rfl rfl))
  have checked := (drained.step (.orchestrator (.noResource rfl (by simp [defaultProcess])))).step (.orchestrator (.noExit rfl (.inl rfl)))
  have waits := ((checked.step (.orchestrator (.noStdin rfl rfl))).step (.orchestrator (.noFault rfl rfl))).step
    (.orchestrator (.wait rfl rfl))
  have stored := ((waits.step (.child (.exit 0 rfl))).step (.status (.observe rfl rfl))).step (.status (.store rfl))
  have reported := stored.step (.status (.report rfl))
  have all := supervision_loses_nothing (show ManagedProcess.spawn {} = some defaultProcess from rfl) reported
  exact ⟨_, rfl, rfl, List.cons_ne_nil _ _, all.2.2.2.2.2 rfl (.inl (List.cons_ne_nil _ _))⟩

end Srcmv.Lsp
