import RemotePi.Daemon.Registry
import RemotePi.Daemon.RpcChild
import RemotePi.Lib.PromiseChain

/-!
# The supervisor of daemons

Model of the lifecycle of a daemon in `Supervisor` (`pi-extension/src/daemon/supervisor.ts`):
its registration, its slot with the child and the timers, and the operations that control
requests, events of the child, timers and reconciliations put into the queue of its id.

The registry and the maps of the class are keyed by the daemon id, and nothing that happens
for one id reads what they hold for another one: the state is kept for each id.

JavaScript runs the continuations of promises before it takes the next event. An operation
runs in two steps, up to the stop of a child that it waits for and from there on; events of
a child and timers come only when neither step of an operation of the id is due, requests
and reconciliations, which may themselves be continuations, at any time.

An operation throws when the file of the registry cannot be read or written. Errors that
are shown, times, the replies to requests and a supervisor that shuts down are left out.

Results:
* `spawnChild_eq`, `stopChild_eq`: a child is spawned and stopped without an event.
-/

namespace RemotePi.Daemon

open RemotePi.Lib

/-! ## Slots -/

/-- `ChildSlot` (line 54). The number stands for the identity of the object. -/
structure ChildSlot where
  number : ℕ
  entry : DaemonEntry
  child : ChildRun
  restartTimer : Bool
  stabilityTimer : Bool
  restartAttempt : ℕ
  blocked : Bool
  missingCwdObservations : ℕ
  reconcileInProgress : Bool
deriving DecidableEq, Repr

/-- The number of `RESTART_BACKOFFS_MS` (line 30). -/
def restartBackoffs : ℕ := 4

/-- `MISSING_CWD_CONFIRMATIONS` (line 30). -/
def missingCwdConfirmations : ℕ := 2

namespace ChildSlot

/-- A slot of `createSlot` (lines 509–518). -/
def new (number : ℕ) (entry : DaemonEntry) : ChildSlot where
  number := number
  entry := entry
  child := .initial
  restartTimer := false
  stabilityTimer := false
  restartAttempt := 0
  blocked := false
  missingCwdObservations := 0
  reconcileInProgress := false

/-- `cancelRetry` (lines 578–582). -/
def cancelRetry (slot : ChildSlot) : ChildSlot := { slot with restartTimer := false }

/-- `cancelStabilityReset` (lines 584–587). -/
def cancelStabilityReset (slot : ChildSlot) : ChildSlot := { slot with stabilityTimer := false }

/-- `scheduleRetry` (lines 558–576), up to the timer. -/
def scheduleRetry (slot : ChildSlot) : ChildSlot :=
  if slot.restartTimer || slot.blocked || slot.entry.desiredState ≠ .running then slot
  else if restartBackoffs ≤ slot.restartAttempt then slot
  else { slot with restartTimer := true }

/-- The process is running or spawning. -/
def isLive (slot : ChildSlot) : Bool :=
  slot.child.rpc.process = .running || slot.child.rpc.process = .spawning

/-- The slot after `child.spawn()` whose first write does not throw. -/
def respawned (slot : ChildSlot) : ChildSlot :=
  { slot with child := (slot.child.step (.spawn true)).getD slot.child }

/-- The slot after `child.stop()` whose `kill` does not throw. -/
def halted (slot : ChildSlot) : ChildSlot :=
  { slot with child := (slot.child.step (.stop true)).getD slot.child }

end ChildSlot

/-! ## The queue of an id -/

/-- The operations that are enqueued. Those of events, timers and reconciliations have a slot
    in mind. -/
inductive LifecycleOp where
  | start
  | stop
  | restart
  | unregister
  /-- The stop after a failure of the runtime (lines 543 and 547). -/
  | halt (slot : ℕ)
  /-- The restart by the timer (lines 569–574). -/
  | retry (slot : ℕ)
  /-- The removal of a daemon whose directory is gone (lines 607–612). -/
  | remove (slot : ℕ)
deriving DecidableEq, Repr

/-- An operation waits for the stop of a child, which has come to its end when the child has
    exited; a restart goes on with the entry that it has updated. -/
structure StopWait where
  slot : ℕ
  exited : Bool
  updated : Option DaemonEntry
deriving DecidableEq, Repr

/-- How far an operation has come. -/
inductive Progress where
  | queued
  | waits (wait : StopWait)
  | returned
  | threw
deriving DecidableEq, Repr

structure Lifecycle where
  op : LifecycleOp
  progress : Progress
deriving DecidableEq, Repr

/-- A wait for the exit of a slot ends. -/
def Lifecycle.resolve (number : ℕ) (work : Lifecycle) : Lifecycle :=
  match work.progress with
  | .waits wait =>
    if wait.slot = number then { work with progress := .waits { wait with exited := true } }
    else work
  | _ => work

@[simp] theorem Lifecycle.op_resolve (number : ℕ) (work : Lifecycle) :
    (work.resolve number).op = work.op := by
  unfold Lifecycle.resolve
  split
  · split_ifs <;> rfl
  · rfl

/-- What happens for an id: operations are enqueued, begin, and return or throw, a process is
    spawned, the timer restarts a child, and a stable child has its restarts reset. -/
inductive LifecycleEvent where
  | enqueued (token : ℕ) (op : LifecycleOp)
  | began (token : ℕ) (op : LifecycleOp)
  | returned (token : ℕ) (op : LifecycleOp)
  | threw (token : ℕ) (op : LifecycleOp)
  | spawned
  | restarted (slot : ℕ)
  | reset (slot : ℕ)
deriving DecidableEq, Repr

/-- What the supervisor holds for an id: the entry of the registry, the slot of `children`,
    the slots that have been there before, and the queue. -/
structure DaemonLifecycle where
  registered : Option DaemonEntry
  slot : Option ChildSlot
  removed : List ChildSlot
  nextSlot : ℕ
  queue : PromiseChain Lifecycle
deriving DecidableEq, Repr

/-- Whether `kill` and the first write to a process do not throw. -/
structure ProcessCalls where
  kills : ℕ → ProcessId → Bool
  writes : ℕ → ProcessId → Bool

/-- The signals and lines of the supervisor are valid: `kill` returns whether it could deliver
    its signal, and `write` reports errors through the stream. -/
structure ProcessCalls.NeverThrow (calls : ProcessCalls) : Prop where
  kills : ∀ slot process, calls.kills slot process = true
  writes : ∀ slot process, calls.writes slot process = true

namespace DaemonLifecycle

/-- `enqueueLifecycle` (lines 493–502). -/
def enqueueLifecycle (s : DaemonLifecycle) (op : LifecycleOp) :
    DaemonLifecycle × List LifecycleEvent :=
  ({ s with queue := s.queue.enqueue ⟨op, .queued⟩ }, [.enqueued s.queue.next op])

/-! ## Events of a child -/

/-- `onRuntimeReady` (lines 526–534), for the slot of the id. -/
def onRuntimeReady (s : DaemonLifecycle) (slot : ChildSlot) :
    DaemonLifecycle × List LifecycleEvent :=
  if slot.entry.desiredState ≠ .running then (s, [])
  else ({ s with slot := some { slot with stabilityTimer := true } }, [])

/-- `onRuntimeFailed` (lines 536–548). -/
def onRuntimeFailed (s : DaemonLifecycle) (slot : ChildSlot) (retryable : Bool) :
    DaemonLifecycle × List LifecycleEvent :=
  if slot.entry.desiredState = .stopped then (s, [])
  else if !retryable then
    { s with
      slot := some { slot with blocked := true }.cancelRetry.cancelStabilityReset
      : DaemonLifecycle }.enqueueLifecycle (.halt slot.number)
  else
    { s with slot := some slot.scheduleRetry : DaemonLifecycle }.enqueueLifecycle
      (.halt slot.number)

/-- `onChildExit` (lines 550–556). -/
def onChildExit (s : DaemonLifecycle) (slot : ChildSlot) (isCrash : Bool) :
    DaemonLifecycle × List LifecycleEvent :=
  if slot.entry.desiredState = .stopped || slot.blocked then (s, [])
  else
    let slot := slot.cancelStabilityReset
    if !isCrash then ({ s with slot := some slot }, [])
    else ({ s with slot := some slot.scheduleRetry }, [])

/-- The handlers of a slot (lines 520–522); those of a slot that is not in `children` any
    more return at once. -/
def receive (s : DaemonLifecycle) (number : ℕ) (event : ChildEvent) :
    DaemonLifecycle × List LifecycleEvent :=
  match s.slot with
  | none => (s, [])
  | some slot =>
    if slot.number ≠ number then (s, [])
    else
      match event with
      | .exit isCrash => s.onChildExit slot isCrash
      | .runtimeReady => s.onRuntimeReady slot
      | .runtimeFailed _ retryable => s.onRuntimeFailed slot retryable

def receiveAll (s : DaemonLifecycle) (number : ℕ) :
    List ChildEvent → DaemonLifecycle × List LifecycleEvent
  | [] => (s, [])
  | event :: events =>
    let (s, log) := s.receive number event
    let (s, rest) := s.receiveAll number events
    (s, log ++ rest)

/-! ## Operations -/

variable (calls : ProcessCalls)

/-- `slot.child.spawn()` on the slot that is in `children`. -/
def spawnChild (s : DaemonLifecycle) (slot : ChildSlot) : DaemonLifecycle × List LifecycleEvent :=
  let writes := calls.writes slot.number slot.child.nextProcess
  let child := (slot.child.step (.spawn writes)).getD slot.child
  let (s, log) := receiveAll { s with slot := some { slot with child := child } } slot.number
    (slot.child.rpc.spawn slot.child.nextProcess writes).2
  (s, (if slot.child.rpc.child.isNone then [.spawned] else []) ++ log)

/-- `slot.child.stop()`: the slot after the call, and what is waited for. -/
def stopChild (slot : ChildSlot) (updated : Option DaemonEntry) : ChildSlot × StopWait :=
  let kills := slot.child.rpc.child.all fun process => calls.kills slot.number process
  ({ slot with child := (slot.child.step (.stop kills)).getD slot.child },
    ⟨slot.number, !(slot.child.rpc.stop kills).2, updated⟩)

/-- `createSlot` (lines 504–524). -/
def createSlot (s : DaemonLifecycle) (entry : DaemonEntry) :
    DaemonLifecycle × List LifecycleEvent :=
  spawnChild calls { s with nextSlot := s.nextSlot + 1 } (.new s.nextSlot entry)

/-- `this.children.delete(id)`. -/
def deleteSlot (s : DaemonLifecycle) : DaemonLifecycle :=
  { s with slot := none, removed := s.removed ++ s.slot.toList }

/-- The state after a step of an operation, what has happened, and how far it has come. -/
abbrev Outcome := DaemonLifecycle × List LifecycleEvent × Progress

/-- An operation that has called `setDaemonDesiredState`, which throws when the registry
    cannot be saved, and that returns when the id is not registered. -/
def withDesiredState (s : DaemonLifecycle) (saves : Bool) (desired : DesiredState)
    (operation : DaemonLifecycle → DaemonEntry → Outcome) : Outcome :=
  if !saves then (s, [], .threw)
  else
    match s.registered with
    | none => (s, [], .returned)
    | some entry =>
      let updated := { entry with desiredState := desired }
      operation { s with registered := some updated } updated

/-- A child is stopped, and the operation waits. -/
def waitForStop (s : DaemonLifecycle) (slot : ChildSlot) (updated : Option DaemonEntry) : Outcome :=
  let (slot, wait) := stopChild calls slot updated
  ({ s with slot := some slot }, [], .waits wait)

/-- A step after which the operation returns. -/
def returning (result : DaemonLifecycle × List LifecycleEvent) : Outcome :=
  (result.1, result.2, .returned)

/-- The operation of `startEntry` (lines 234–251), up to its wait. -/
def beginStart (s : DaemonLifecycle) (updated : DaemonEntry) : Outcome :=
  match s.slot with
  | none => returning (createSlot calls s updated)
  | some slot =>
    let slot := { slot with entry := updated }
    if slot.isLive && !slot.blocked then ({ s with slot := some slot }, [], .returned)
    else
      let slot := { slot.cancelRetry with blocked := false }
      if slot.child.rpc.process = .exited || slot.child.rpc.child.isNone then
        returning (spawnChild calls s slot)
      else waitForStop calls s slot none

/-- The rest of `startEntry` (lines 247–248). -/
def finishStart (s : DaemonLifecycle) (wait : StopWait) : Outcome :=
  match s.slot with
  | none => (s, [], .returned)
  | some slot =>
    if slot.number = wait.slot && slot.entry.desiredState = .running then
      returning (spawnChild calls s slot)
    else (s, [], .returned)

/-- The operation of `stopEntry` (lines 275–282), up to its wait. -/
def beginStop (s : DaemonLifecycle) (updated : DaemonEntry) : Outcome :=
  match s.slot with
  | none => (s, [], .returned)
  | some slot =>
    waitForStop calls s { slot with entry := updated }.cancelRetry.cancelStabilityReset none

/-- The operation of `restartEntry` (lines 306–315), up to its wait. -/
def beginRestart (s : DaemonLifecycle) (updated : DaemonEntry) : Outcome :=
  match s.slot with
  | none => returning (createSlot calls s updated)
  | some slot =>
    waitForStop calls s { slot.cancelRetry.cancelStabilityReset with blocked := false }
      (some updated)

/-- The slot that has been stopped is deleted. -/
def deleteStopped (s : DaemonLifecycle) (wait : StopWait) : DaemonLifecycle :=
  if s.slot.any fun slot => slot.number = wait.slot then s.deleteSlot else s

/-- The rest of `restartEntry` (lines 313–315). -/
def finishRestart (s : DaemonLifecycle) (wait : StopWait) : Outcome :=
  match wait.updated with
  | none => (s.deleteStopped wait, [], .returned)
  | some updated => returning (createSlot calls (s.deleteStopped wait) updated)

/-- The operation of `unregister` (lines 352–362), up to its wait. That the registry cannot be
    saved is an answer of it. -/
def beginUnregister (s : DaemonLifecycle) (saves : Bool) : Outcome :=
  match s.slot with
  | none => ({ s with registered := if saves then none else s.registered }, [], .returned)
  | some slot => waitForStop calls s slot.cancelRetry.cancelStabilityReset none

/-- The rest of `unregister` (lines 358–361). -/
def finishUnregister (s : DaemonLifecycle) (wait : StopWait) (saves : Bool) : Outcome :=
  let s := s.deleteStopped wait
  ({ s with registered := if saves then none else s.registered }, [], .returned)

/-- The rest of a removal (lines 610–611). -/
def finishRemove (s : DaemonLifecycle) (wait : StopWait) (saves : Bool) : Outcome :=
  let s := s.deleteStopped wait
  if saves then ({ s with registered := none }, [], .returned) else (s, [], .threw)

/-- The stop after a failure (lines 543 and 547) and a removal (lines 607–609): a child is
    stopped that is still in its slot. -/
def beginHalt (s : DaemonLifecycle) (number : ℕ) : Outcome :=
  match s.slot with
  | none => (s, [], .returned)
  | some slot => if slot.number ≠ number then (s, [], .returned) else waitForStop calls s slot none

/-- The restart by the timer (lines 569–574). -/
def beginRetry (s : DaemonLifecycle) (number : ℕ) : Outcome :=
  match s.slot with
  | none => (s, [], .returned)
  | some slot =>
    if slot.number ≠ number || slot.blocked || slot.entry.desiredState ≠ .running then
      (s, [], .returned)
    else
      let child := { slot.child with rpc := slot.child.rpc.noteRestart }
      let (s, log) := spawnChild calls s
        { slot with restartAttempt := slot.restartAttempt + 1, child := child }
      (s, .restarted number :: log, .returned)

/-- An operation up to its wait. -/
def begin (s : DaemonLifecycle) (saves : Bool) : LifecycleOp → Outcome
  | .start => s.withDesiredState saves .running (beginStart calls)
  | .stop => s.withDesiredState saves .stopped (beginStop calls)
  | .restart => s.withDesiredState saves .running (beginRestart calls)
  | .unregister => beginUnregister calls s saves
  | .halt number => beginHalt calls s number
  | .retry number => beginRetry calls s number
  | .remove number => beginHalt calls s number

/-- The rest of an operation that has waited. -/
def finish (s : DaemonLifecycle) (saves : Bool) (wait : StopWait) : LifecycleOp → Outcome
  | .start => finishStart calls s wait
  | .restart => finishRestart calls s wait
  | .unregister => s.finishUnregister wait saves
  | .remove _ => s.finishRemove wait saves
  | .stop => (s, [], .returned)
  | .halt _ => (s, [], .returned)
  | .retry _ => (s, [], .returned)

/-- What is left of an operation that has begun. -/
def conclude (s : DaemonLifecycle) (saves : Bool) (work : Lifecycle) : Outcome :=
  match work.progress with
  | .waits wait => finish calls s saves wait work.op
  | progress => (s, [], progress)

section Calls

variable {calls}

theorem spawnChild_eq (hcalls : calls.NeverThrow) (s : DaemonLifecycle) (slot : ChildSlot) :
    spawnChild calls s slot =
      ({ s with slot := some slot.respawned },
        if slot.child.rpc.child.isNone then [.spawned] else []) := by
  have hevents : (slot.child.rpc.spawn slot.child.nextProcess true).2 = [] := by
    unfold RpcChild.spawn
    split_ifs <;> rfl
  rw [spawnChild, hcalls.writes]
  dsimp only
  rw [hevents, receiveAll]
  dsimp only
  rw [List.append_nil]
  rfl

theorem stopChild_eq (hcalls : calls.NeverThrow) (slot : ChildSlot) (updated : Option DaemonEntry) :
    stopChild calls slot updated =
      (slot.halted, ⟨slot.number, slot.child.rpc.child.isNone, updated⟩) := by
  have hall : (slot.child.rpc.child.all fun process => calls.kills slot.number process) = true := by
    cases slot.child.rpc.child with
    | none => rfl
    | some process => exact hcalls.kills _ _
  rw [stopChild, hall]
  refine Prod.ext rfl ?_
  cases hchild : slot.child.rpc.child with
  | none => rw [RpcChild.stop_of_none hchild]; rfl
  | some process => rw [RpcChild.stop_of_child (by rw [hchild]; rfl)]; rfl

end Calls

/-! ## Steps -/

/-- What happens to the process of a child. -/
inductive ProcessEvent where
  | spawned (process : ProcessId)
  | spawnFailed (process : ProcessId)
  | exited (process : ProcessId)
  | message (message : RuntimeMessage)
  | readinessTimeout
deriving DecidableEq, Repr

def ProcessEvent.label : ProcessEvent → ChildRun.Label
  | .spawned process => .spawned process
  | .spawnFailed process => .spawnFailed process
  | .exited process => .exited process
  | .message said => .message said
  | .readinessTimeout => .readinessTimeout

/-- What the child emits. -/
def ProcessEvent.emits (rpc : RpcChild) : ProcessEvent → List ChildEvent
  | .spawned _ => []
  | .spawnFailed _ => rpc.onError.2
  | .exited _ => rpc.onExit.2
  | .message said => (rpc.onMessage said).2
  | .readinessTimeout => { rpc with readinessTimer := false }.onReadinessTimeout.2

inductive Request where
  | start
  | stop
  | restart
  | unregister
deriving DecidableEq, Repr

def Request.op : Request → LifecycleOp
  | .start => .start
  | .stop => .stop
  | .restart => .restart
  | .unregister => .unregister

/-- The requests of one id, whether they come alone or for all ids, the steps of its
    operations, the reconciliation of its directory, and the events and timers of its
    slots. -/
inductive Label where
  | request (request : Request)
  | register (entry : DaemonEntry)
  | run (token : ℕ) (saves : Bool)
  | resume (token : ℕ) (saves : Bool)
  | reconcile (cwdExists : Bool)
  | process (slot : ℕ) (event : ProcessEvent)
  | retryTimer (slot : ℕ)
  | stabilityTimer (slot : ℕ)
deriving DecidableEq, Repr

/-- The operation has come to the end of its wait, or has not waited. -/
def resumable (t : ChainTask Lifecycle) : Bool :=
  t.started &&
    match t.work.progress with
    | .waits wait => wait.exited
    | _ => true

/-- No step of an operation is due. -/
def idle (s : DaemonLifecycle) : Bool :=
  s.queue.tasks.all fun t => !s.queue.ready t && !resumable t

/-- The waits for the exit of a slot end. -/
def resolveWaits (s : DaemonLifecycle) (number : ℕ) : DaemonLifecycle :=
  { s with queue := s.queue.mapWork (Lifecycle.resolve number) }

/-- A slot that is not in `children` any more. -/
def updateRemoved (s : DaemonLifecycle) (number : ℕ) (f : ChildSlot → ChildSlot) :
    DaemonLifecycle :=
  { s with removed := s.removed.map fun slot => if slot.number = number then f slot else slot }

/-- An iteration of `reconcileRegistryCwds` (lines 593–612). -/
def reconcile (s : DaemonLifecycle) (cwdExists : Bool) : DaemonLifecycle × List LifecycleEvent :=
  match s.slot with
  | none => (if cwdExists then s else { s with registered := none }, [])
  | some slot =>
    if cwdExists then ({ s with slot := some { slot with missingCwdObservations := 0 } }, [])
    else
      let slot := { slot with missingCwdObservations := slot.missingCwdObservations + 1 }
      if slot.missingCwdObservations < missingCwdConfirmations || slot.reconcileInProgress then
        ({ s with slot := some slot }, [])
      else
        { s with slot := some { slot with reconcileInProgress := true }.cancelRetry
          : DaemonLifecycle }.enqueueLifecycle (.remove slot.number)

/-- An event of the process of the slot. -/
def onProcess (s : DaemonLifecycle) (slot : ChildSlot) (event : ProcessEvent) :
    Option (DaemonLifecycle × List LifecycleEvent) :=
  match slot.child.step event.label with
  | none => none
  | some child =>
    let s : DaemonLifecycle := { s with slot := some { slot with child := child } }
    let s := match event with
      | .exited _ => s.resolveWaits slot.number
      | _ => s
    some (s.receiveAll slot.number (event.emits slot.child.rpc))

/-- The timer of `scheduleRetry` (lines 566–575). -/
def onRetryTimer (s : DaemonLifecycle) (slot : ChildSlot) :
    Option (DaemonLifecycle × List LifecycleEvent) :=
  if !slot.restartTimer then none
  else
    some (enqueueLifecycle { s with slot := some { slot with restartTimer := false } }
      (.retry slot.number))

/-- The timer of `onRuntimeReady` (lines 529–532). -/
def onStabilityTimer (s : DaemonLifecycle) (slot : ChildSlot) :
    Option (DaemonLifecycle × List LifecycleEvent) :=
  if !slot.stabilityTimer then none
  else if slot.child.rpc.runtime = .ready && !slot.blocked then
    some ({ s with slot := some { slot with stabilityTimer := false, restartAttempt := 0 } },
      [.reset slot.number])
  else some ({ s with slot := some { slot with stabilityTimer := false } }, [])

/-- One step for an id. `none` when it cannot happen. -/
def step (s : DaemonLifecycle) : Label → Option (DaemonLifecycle × List LifecycleEvent)
  | .request request => some (s.enqueueLifecycle request.op)
  | .register entry =>
    if s.registered.isSome || entry.desiredState ≠ .running then none
    else some (enqueueLifecycle { s with registered := some entry } .start)
  | .run token saves =>
    match s.queue.find? token with
    | none => none
    | some t =>
      if !s.queue.ready t then none
      else
        let (s, log, progress) := begin calls s saves t.work.op
        some ({ s with queue := s.queue.start token ⟨t.work.op, progress⟩ },
          .began token t.work.op :: log)
  | .resume token saves =>
    match s.queue.find? token with
    | none => none
    | some t =>
      if !resumable t then none
      else
        let (s, log, progress) := conclude calls s saves t.work
        some ({ s with queue := s.queue.settle token },
          log ++ [if progress = .threw then .threw token t.work.op else .returned token t.work.op])
  | .reconcile cwdExists => some (s.reconcile cwdExists)
  | .process number event =>
    if !s.idle then none
    else
      match s.slot.filter fun slot => slot.number = number with
      | some slot => s.onProcess slot event
      | none => some (s.updateRemoved number fun slot =>
          { slot with child := (slot.child.step event.label).getD slot.child }, [])
  | .retryTimer number =>
    if !s.idle then none
    else
      match s.slot.filter fun slot => slot.number = number with
      | some slot => s.onRetryTimer slot
      | none =>
        if s.removed.any fun slot => slot.number = number && slot.restartTimer then
          some ((s.updateRemoved number fun slot => slot.cancelRetry).enqueueLifecycle
            (.retry number))
        else none
  | .stabilityTimer number =>
    if !s.idle then none
    else
      match s.slot.filter fun slot => slot.number = number with
      | some slot => s.onStabilityTimer slot
      | none => some (s.updateRemoved number fun slot => slot.cancelStabilityReset, [])

/-- An id when the supervisor has started (lines 72–73): an entry whose directory is gone is
    removed, and a daemon that is to run has a slot. -/
def started (entry : Option DaemonEntry) (cwdExists : Bool) :
    DaemonLifecycle × List LifecycleEvent :=
  let s : DaemonLifecycle := ⟨entry.filter fun _ => cwdExists, none, [], 0, .empty⟩
  match s.registered with
  | none => (s, [])
  | some entry => if entry.desiredState = .running then createSlot calls s entry else (s, [])

end DaemonLifecycle

/-! ## The supervisor -/

/-- What the maps of the class and the registry hold by the id, and what has happened. -/
abbrev Supervisor := String → DaemonLifecycle × List LifecycleEvent

namespace Supervisor

variable (calls : ProcessCalls)

/-- `start` (lines 69–79) on a registry, and on the directories that exist. -/
def start (registry : DaemonRegistry) (cwdExists : String → Bool) : Supervisor := fun id =>
  let entry := registry.daemons.find? fun entry => entry.id = id
  DaemonLifecycle.started calls entry (entry.all fun entry => cwdExists entry.cwd)

/-- A step for one id. -/
def step (s : Supervisor) (label : String × DaemonLifecycle.Label) : Option Supervisor :=
  (logged (DaemonLifecycle.step calls) (s label.1) label.2).map (Function.update s label.1)

end Supervisor

end RemotePi.Daemon
