import RemotePi.Lib.Trace

/-!
# The child of a daemon

Model of `RpcChild` (`pi-extension/src/daemon/rpc_child.ts`): the handle of a process, what
is known of its runtime, and the handlers of its events.

A process is its number. What the operating system does is an event: a process that has
been spawned starts or fails to start, and one that has started exits once. The texts of
errors, prompts and the busy flag are left out.

Results:
* `handle_iff_starts`: in a run, a handle is held exactly for the process that can still
  exit if and only if no process fails to start.
* `dead_handle_stays`: the handle of a process that failed to start is never dropped; no
  spawn starts a process again, and no stop that waits goes on.
* `Held.step`: of the processes of a child at most one can exit, whether they start or not.
-/

namespace RemotePi.Daemon

open RemotePi.Lib

abbrev ProcessId := ℕ

inductive DaemonState where
  | stopped
  | starting
  | running
  | crashed
  | blocked
deriving DecidableEq, Repr

inductive ProcessState where
  | absent
  | spawning
  | running
  | exited
deriving DecidableEq, Repr

inductive RuntimeState where
  | pending
  | ready
  | failed
deriving DecidableEq, Repr

inductive RelayState where
  | disconnected
  | connecting
  | connected
  | reconnecting
deriving DecidableEq, Repr

/-- What `RpcChild` emits to the supervisor. -/
inductive ChildEvent where
  | exit (isCrash : Bool)
  | runtimeReady
  | runtimeFailed (code : String) (retryable : Bool)
deriving DecidableEq, Repr

/-- `RpcChild` (lines 192–212). -/
structure RpcChild where
  child : Option ProcessId
  state : DaemonState
  process : ProcessState
  runtime : RuntimeState
  relay : RelayState
  restartCount : ℕ
  stopping : Bool
  rpcReady : Bool
  extensionReady : Bool
  readinessTimer : Bool
deriving DecidableEq, Repr

/-- What the process says on its standard output (lines 371–432). -/
inductive RuntimeMessage where
  /-- The reply to `get_state`. -/
  | stateReply (success : Bool)
  /-- `runtime_ready`, with whether its protocol version and its identity fit. -/
  | extensionReady (version identity : Bool)
  | runtimeFailed (code : String) (retryable : Bool)
  | relayState (state : RelayState)
deriving DecidableEq, Repr

namespace RpcChild

def new : RpcChild where
  child := none
  state := .stopped
  process := .absent
  runtime := .pending
  relay := .disconnected
  restartCount := 0
  stopping := false
  rpcReady := false
  extensionReady := false
  readinessTimer := false

/-! ## Handlers -/

/-- `failRuntime` (lines 445–453). -/
def failRuntime (c : RpcChild) (code : String) (retryable : Bool) : RpcChild × List ChildEvent :=
  if c.runtime = .failed then (c, [])
  else
    ({ c with
        readinessTimer := false
        runtime := .failed
        state := if retryable then .crashed else .blocked },
      [.runtimeFailed code retryable])

/-- `startReadinessProbe` (lines 325–340); `writes` when the write does not throw. -/
def startReadinessProbe (c : RpcChild) (writes : Bool) : RpcChild × List ChildEvent :=
  let c := { c with readinessTimer := true }
  if writes then (c, []) else c.failRuntime "readiness_probe_write_failed" true

/-- `spawn` (lines 231–276), which may start a process. -/
def spawn (c : RpcChild) (process : ProcessId) (writes : Bool) : RpcChild × List ChildEvent :=
  if c.child.isSome then (c, [])
  else
    { c with
      child := some process
      state := .starting
      process := .spawning
      runtime := .pending
      relay := .connecting
      stopping := false
      rpcReady := false
      extensionReady := false }.startReadinessProbe writes

/-- The `spawn` event of a process (lines 264–266). -/
def onSpawn (c : RpcChild) (process : ProcessId) : RpcChild :=
  if c.child = some process ∧ c.process = .spawning then { c with process := .running } else c

/-- The `error` event of a process (lines 270–273). -/
def onError (c : RpcChild) : RpcChild × List ChildEvent :=
  let (c, events) := c.failRuntime "spawn_failed" true
  ({ c with process := .exited }, events)

/-- `onExit` (lines 455–475). -/
def onExit (c : RpcChild) : RpcChild × List ChildEvent :=
  ({ c with
      readinessTimer := false
      process := .exited
      runtime := if c.runtime = .failed then .failed else .pending
      state := if c.stopping then .stopped else .crashed
      child := none
      relay := .disconnected }, [.exit !c.stopping])

/-- `stop` up to its wait (lines 299–305); the second part says whether it waits for `exit`,
    `kills` when `kill` does not throw. -/
def stop (c : RpcChild) (kills : Bool) : RpcChild × Bool :=
  if c.child.isNone then (c, false) else ({ c with stopping := true }, kills)

/-- `maybeMarkReady` (lines 434–443). -/
def maybeMarkReady (c : RpcChild) : RpcChild × List ChildEvent :=
  if !c.rpcReady || !c.extensionReady || c.runtime = .failed || c.child.isNone then (c, [])
  else
    ({ c with
        process := .running
        readinessTimer := false
        runtime := .ready
        state := .running }, [.runtimeReady])

/-- `handleResponse`, `handleRuntimeEvent` and `acceptExtensionReady` (lines 371–432). -/
def onMessage (c : RpcChild) : RuntimeMessage → RpcChild × List ChildEvent
  | .stateReply success =>
    if success then { c with rpcReady := true }.maybeMarkReady
    else c.failRuntime "readiness_probe_rejected" true
  | .extensionReady version identity =>
    if c.runtime = .failed || c.child.isNone then (c, [])
    else if !version then c.failRuntime "control_protocol_mismatch" false
    else if !identity then c.failRuntime "runtime_identity_mismatch" false
    else { c with extensionReady := true }.maybeMarkReady
  | .runtimeFailed code retryable => c.failRuntime code retryable
  | .relayState state => ({ c with relay := state }, [])

/-- The readiness timer (lines 327–333). -/
def onReadinessTimeout (c : RpcChild) : RpcChild × List ChildEvent :=
  if c.rpcReady && !c.extensionReady then c.failRuntime "extension_not_ready" false
  else c.failRuntime "readiness_timeout" true

/-- `noteRestart` (line 477). -/
def noteRestart (c : RpcChild) : RpcChild := { c with restartCount := c.restartCount + 1 }

/-! ## The handle -/

@[simp] theorem child_failRuntime (c : RpcChild) (code : String) (retryable : Bool) :
    (c.failRuntime code retryable).1.child = c.child := by
  unfold failRuntime
  split_ifs <;> rfl

@[simp] theorem child_startReadinessProbe (c : RpcChild) (writes : Bool) :
    (c.startReadinessProbe writes).1.child = c.child := by
  unfold startReadinessProbe
  dsimp only
  split_ifs
  · rfl
  · exact child_failRuntime _ _ _

@[simp] theorem child_maybeMarkReady (c : RpcChild) : c.maybeMarkReady.1.child = c.child := by
  unfold maybeMarkReady
  split_ifs <;> rfl

@[simp] theorem child_onSpawn (c : RpcChild) (process : ProcessId) :
    (c.onSpawn process).child = c.child := by
  unfold onSpawn
  split_ifs <;> rfl

@[simp] theorem child_onError (c : RpcChild) : c.onError.1.child = c.child :=
  child_failRuntime c "spawn_failed" true

@[simp] theorem child_onExit (c : RpcChild) : c.onExit.1.child = none := rfl

@[simp] theorem child_stop (c : RpcChild) (kills : Bool) : (c.stop kills).1.child = c.child := by
  unfold stop
  split_ifs <;> rfl

@[simp] theorem child_onMessage (c : RpcChild) (message : RuntimeMessage) :
    (c.onMessage message).1.child = c.child := by
  cases message with
  | stateReply success =>
    cases success with
    | true => exact child_maybeMarkReady _
    | false => exact child_failRuntime _ _ _
  | extensionReady version identity =>
    simp only [onMessage]
    split_ifs
    · rfl
    · exact child_failRuntime _ _ _
    · exact child_failRuntime _ _ _
    · exact child_maybeMarkReady _
  | runtimeFailed code retryable => exact child_failRuntime _ _ _
  | relayState state => rfl

@[simp] theorem child_onReadinessTimeout (c : RpcChild) :
    c.onReadinessTimeout.1.child = c.child := by
  unfold onReadinessTimeout
  split_ifs <;> exact child_failRuntime _ _ _

theorem child_spawn (c : RpcChild) (process : ProcessId) (writes : Bool) :
    (c.spawn process writes).1.child = some (c.child.getD process) := by
  unfold spawn
  cases hchild : c.child with
  | none =>
    rw [if_neg (by simp)]
    exact child_startReadinessProbe _ _
  | some held =>
    rw [if_pos Option.isSome_some]
    exact hchild

/-! ## What a handler leaves -/

section Hears

variable {c : RpcChild} {r : RpcChild × List ChildEvent}

/-- What a handler leaves of a child, and what it emits. -/
structure Hears (c : RpcChild) (r : RpcChild × List ChildEvent) : Prop where
  child : r.1.child = c.child
  stopping : r.1.stopping = c.stopping
  present : c.process ≠ .absent → r.1.process ≠ .absent
  failed : c.runtime = .failed → r.1.runtime = .failed
  emits : r.2 = [] ∨ r.2 = [.runtimeReady] ∨
    c.runtime ≠ .failed ∧ r.1.runtime = .failed ∧
      ∃ code retryable, r.2 = [.runtimeFailed code retryable]

theorem Hears.silent {c' : RpcChild} (hchild : c'.child = c.child)
    (hstopping : c'.stopping = c.stopping) (hpresent : c.process ≠ .absent → c'.process ≠ .absent)
    (hruntime : c'.runtime = c.runtime) : Hears c (c', []) where
  child := hchild
  stopping := hstopping
  present := hpresent
  failed := hruntime.trans
  emits := .inl rfl

/-- A handler that first sets what `Hears` does not speak of. -/
theorem Hears.of_same {c' : RpcChild} (h : Hears c' r) (hchild : c'.child = c.child)
    (hstopping : c'.stopping = c.stopping) (hprocess : c'.process = c.process)
    (hruntime : c'.runtime = c.runtime) : Hears c r where
  child := h.child.trans hchild
  stopping := h.stopping.trans hstopping
  present := by rw [← hprocess]; exact h.present
  failed := by rw [← hruntime]; exact h.failed
  emits := by rw [← hruntime]; exact h.emits

theorem stop_of_child (hchild : c.child.isSome = true) (kills : Bool) :
    c.stop kills = ({ c with stopping := true }, kills) := by
  rw [stop, if_neg]
  rw [Option.isNone_eq_false_iff.mpr hchild]
  exact Bool.false_ne_true

theorem stop_of_none (hchild : c.child = none) (kills : Bool) : c.stop kills = (c, false) := by
  rw [stop, if_pos (by rw [hchild]; rfl)]

@[simp] theorem process_stop (c : RpcChild) (kills : Bool) :
    (c.stop kills).1.process = c.process := by
  unfold stop
  split_ifs <;> rfl

@[simp] theorem runtime_stop (c : RpcChild) (kills : Bool) :
    (c.stop kills).1.runtime = c.runtime := by
  unfold stop
  split_ifs <;> rfl

theorem hears_failRuntime (c : RpcChild) (code : String) (retryable : Bool) :
    Hears c (c.failRuntime code retryable) := by
  unfold failRuntime
  by_cases hfailed : c.runtime = .failed
  · rw [if_pos hfailed]
    exact .silent rfl rfl id rfl
  · rw [if_neg hfailed]
    exact ⟨rfl, rfl, id, fun _ => rfl, .inr (.inr ⟨hfailed, rfl, code, retryable, rfl⟩)⟩

theorem hears_maybeMarkReady (c : RpcChild) : Hears c c.maybeMarkReady := by
  unfold maybeMarkReady
  split_ifs with hnot
  · exact .silent rfl rfl id rfl
  · refine ⟨rfl, rfl, fun _ => nofun, fun hfailed => ?_, .inr (.inl rfl)⟩
    simp [hfailed] at hnot

theorem hears_onSpawn (c : RpcChild) (process : ProcessId) : Hears c (c.onSpawn process, []) := by
  unfold onSpawn
  split_ifs
  · exact .silent rfl rfl (fun _ => nofun) rfl
  · exact .silent rfl rfl id rfl

theorem hears_onError (c : RpcChild) : Hears c c.onError := by
  have h := hears_failRuntime c "spawn_failed" true
  exact ⟨h.child, h.stopping, fun _ => nofun, h.failed, h.emits⟩

theorem hears_onMessage (c : RpcChild) (message : RuntimeMessage) :
    Hears c (c.onMessage message) := by
  cases message with
  | stateReply success =>
    cases success with
    | true => exact (hears_maybeMarkReady { c with rpcReady := true }).of_same rfl rfl rfl rfl
    | false => exact hears_failRuntime c _ _
  | extensionReady version identity =>
    simp only [onMessage]
    split_ifs
    · exact .silent rfl rfl id rfl
    · exact hears_failRuntime c _ _
    · exact hears_failRuntime c _ _
    · exact (hears_maybeMarkReady { c with extensionReady := true }).of_same rfl rfl rfl rfl
  | runtimeFailed code retryable => exact hears_failRuntime c code retryable
  | relayState state => exact .silent rfl rfl id rfl

theorem hears_onReadinessTimeout (c : RpcChild) : Hears c c.onReadinessTimeout := by
  unfold onReadinessTimeout
  split_ifs <;> exact hears_failRuntime c _ _

end Hears

end RpcChild

/-! ## Runs -/

/-- A child with its processes: those that have been spawned and may still start or fail to
    start, those that have started, and the calls of `stop` that wait for `exit`. -/
structure ChildRun where
  rpc : RpcChild
  starting : List ProcessId
  started : List ProcessId
  nextProcess : ProcessId
  waiting : ℕ
deriving DecidableEq, Repr

namespace ChildRun

def initial : ChildRun := ⟨.new, [], [], 0, 0⟩

inductive Label where
  | spawn (writes : Bool)
  | stop (kills : Bool)
  /-- The process has started. -/
  | spawned (process : ProcessId)
  /-- The process could not be started; Node emits no `exit` for it. -/
  | spawnFailed (process : ProcessId)
  | exited (process : ProcessId)
  | message (message : RuntimeMessage)
  | readinessTimeout
deriving DecidableEq, Repr

/-- One call or event. `none` when it cannot happen. -/
def step (s : ChildRun) : Label → Option ChildRun
  | .spawn writes =>
    some
      { s with
        rpc := (s.rpc.spawn s.nextProcess writes).1
        starting := if s.rpc.child.isSome then s.starting else s.starting ++ [s.nextProcess]
        nextProcess := s.nextProcess + 1 }
  | .stop kills =>
    some
      { s with
        rpc := (s.rpc.stop kills).1
        waiting := if (s.rpc.stop kills).2 then s.waiting + 1 else s.waiting }
  | .spawned process =>
    if process ∈ s.starting then
      some
        { s with
          rpc := s.rpc.onSpawn process
          starting := s.starting.erase process
          started := s.started ++ [process] }
    else none
  | .spawnFailed process =>
    if process ∈ s.starting then
      some { s with rpc := s.rpc.onError.1, starting := s.starting.erase process }
    else none
  | .exited process =>
    if process ∈ s.started then
      some { s with rpc := s.rpc.onExit.1, started := s.started.erase process, waiting := 0 }
    else none
  | .message message => some { s with rpc := (s.rpc.onMessage message).1 }
  | .readinessTimeout =>
    if s.rpc.readinessTimer then
      some { s with rpc := { s.rpc with readinessTimer := false }.onReadinessTimeout.1 }
    else none

/-- The process can still emit `exit`. -/
def CanExit (s : ChildRun) (process : ProcessId) : Prop :=
  process ∈ s.starting ∨ process ∈ s.started

instance (s : ChildRun) (process : ProcessId) : Decidable (s.CanExit process) :=
  inferInstanceAs (Decidable (_ ∨ _))

/-- The handle that is held is the process that can still exit, and a `stop` waits only for
    one. -/
structure Handled (s : ChildRun) : Prop where
  handle : ∀ process, s.rpc.child = some process ↔ s.CanExit process
  waiting : 0 < s.waiting → ∃ process, s.CanExit process

/-- After the step the handle is right, and a spawn has started a process that can exit. -/
def Handles (s : ChildRun) (label : Label) : Prop :=
  ∀ s', s.step label = some s' → s'.Handled ∧
    ∀ writes, label = .spawn writes → ∃ process, s'.CanExit process

/-- No process fails to start in the step. -/
def Starts (s : ChildRun) (label : Label) : Prop :=
  ∀ process, label = .spawnFailed process → process ∉ s.starting

/-- The processes are distinct, and the handle is right. -/
structure Inv (s : ChildRun) : Prop where
  handled : s.Handled
  nodup : (s.starting ++ s.started).Nodup

theorem inv_initial : initial.Inv where
  handled := ⟨fun process => by simp [initial, RpcChild.new, CanExit], fun h => absurd h (by decide)⟩
  nodup := by decide

/-- At most one process can exit, the one of the handle, and a child with a handle has been
    spawned. -/
structure Held (c : ChildRun) : Prop where
  handle : ∀ process, c.CanExit process → c.rpc.child = some process
  one : c.starting.length + c.started.length ≤ 1
  present : c.rpc.child.isSome = true → c.rpc.process ≠ .absent

section Held

variable {c c' : ChildRun}

theorem held_initial : initial.Held where
  handle := by
    rintro process (hmem | hmem) <;> cases hmem
  one := Nat.zero_le 1
  present := fun h => absurd h Bool.false_ne_true

theorem Held.noteRestart (h : c.Held) : { c with rpc := c.rpc.noteRestart }.Held :=
  ⟨h.handle, h.one, h.present⟩

/-- No process can exit without a handle. -/
theorem Held.nil_of_child (h : c.Held) (hchild : c.rpc.child = none) :
    c.starting = [] ∧ c.started = [] := by
  have hnone : ∀ process, ¬ c.CanExit process := by
    intro process hcan
    have hsome := h.handle process hcan
    rw [hchild] at hsome
    cases hsome
  exact ⟨List.eq_nil_iff_forall_not_mem.mpr fun process hmem => hnone process (.inl hmem),
    List.eq_nil_iff_forall_not_mem.mpr fun process hmem => hnone process (.inr hmem)⟩

/-- A handler leaves the processes that can exit, or drops one. -/
theorem Held.of_hears (h : c.Held) {r : RpcChild × List ChildEvent} (hears : c.rpc.Hears r)
    (hrpc : c'.rpc = r.1) (hcan : ∀ process, c'.CanExit process → c.CanExit process)
    (hone : c'.starting.length + c'.started.length ≤ c.starting.length + c.started.length) :
    c'.Held := by
  have hchild : c'.rpc.child = c.rpc.child := by rw [hrpc]; exact hears.child
  refine ⟨fun process hexit => ?_, Nat.le_trans hone h.one, fun hsome => ?_⟩
  · rw [hchild]
    exact h.handle process (hcan process hexit)
  · rw [hchild] at hsome
    rw [hrpc]
    exact hears.present (h.present hsome)

theorem Held.spawn (h : c.Held) {writes : Bool} (hstep : c.step (.spawn writes) = some c') :
    c'.Held := by
  cases hstep
  cases hchild : c.rpc.child with
  | some process =>
    have hspawn : c.rpc.spawn c.nextProcess writes = (c.rpc, []) := by
      rw [RpcChild.spawn, if_pos (by rw [hchild]; rfl)]
    rw [hspawn, if_pos (by rfl)]
    exact ⟨fun process hcan => (h.handle process hcan), h.one, h.present⟩
  | none =>
    obtain ⟨hstarting, hstarted⟩ := h.nil_of_child hchild
    rw [if_neg (by exact Bool.false_ne_true), hstarting, List.nil_append]
    refine ⟨?_, ?_, fun _ => ?_⟩
    · rintro process (hmem | hmem)
      · rw [RpcChild.child_spawn, hchild, List.mem_singleton.mp hmem]
        rfl
      · rw [hstarted] at hmem
        cases hmem
    · rw [hstarted]
      exact Nat.le_refl 1
    · rw [RpcChild.spawn, if_neg (by rw [hchild]; exact Bool.false_ne_true)]
      dsimp only [RpcChild.startReadinessProbe]
      split_ifs
      · exact nofun
      · exact (RpcChild.hears_failRuntime _ _ _).present nofun

theorem Held.exited (h : c.Held) {process : ProcessId}
    (hstep : c.step (.exited process) = some c') : c'.Held := by
  simp only [ChildRun.step] at hstep
  split_ifs at hstep with hmem
  cases hstep
  have hlength := List.length_erase_of_mem hmem
  have hpos := List.length_pos_of_mem hmem
  have hone := h.one
  have hstarting : c.starting = [] := List.length_eq_zero_iff.mp (by omega)
  have hstarted : c.started.erase process = [] := List.length_eq_zero_iff.mp (by omega)
  rw [hstarting, hstarted]
  refine ⟨?_, Nat.zero_le 1, fun hsome => absurd hsome Bool.false_ne_true⟩
  rintro other (hother | hother) <;> cases hother

theorem Held.step (h : c.Held) {label : Label} (hstep : c.step label = some c') : c'.Held := by
  cases label with
  | spawn writes => exact h.spawn hstep
  | stop kills =>
    cases hstep
    refine ⟨fun process hcan => ?_, h.one, fun hsome => ?_⟩
    · exact (RpcChild.child_stop _ _).trans (h.handle process hcan)
    · rw [RpcChild.child_stop] at hsome
      rw [RpcChild.process_stop]
      exact h.present hsome
  | spawned process =>
    simp only [ChildRun.step] at hstep
    split_ifs at hstep with hmem
    cases hstep
    refine h.of_hears (c.rpc.hears_onSpawn process) rfl ?_ ?_
    · rintro other (hother | hother)
      · exact .inl (List.mem_of_mem_erase hother)
      · rcases List.mem_append.mp hother with hother | hother
        · exact .inr hother
        · rw [List.mem_singleton.mp hother]
          exact .inl hmem
    · have hlength := List.length_erase_of_mem hmem
      have hpos := List.length_pos_of_mem hmem
      dsimp only
      rw [List.length_append, List.length_singleton]
      omega
  | spawnFailed process =>
    simp only [ChildRun.step] at hstep
    split_ifs at hstep with hmem
    cases hstep
    refine h.of_hears c.rpc.hears_onError rfl ?_ ?_
    · exact fun other hcan => hcan.imp_left List.mem_of_mem_erase
    · exact Nat.add_le_add_right List.length_erase_le _
  | exited process => exact h.exited hstep
  | message message =>
    cases hstep
    exact h.of_hears (c.rpc.hears_onMessage message) rfl (fun _ hcan => hcan) (Nat.le_refl _)
  | readinessTimeout =>
    simp only [ChildRun.step] at hstep
    split_ifs at hstep
    cases hstep
    exact h.of_hears ((RpcChild.hears_onReadinessTimeout
      { c.rpc with readinessTimer := false }).of_same rfl rfl rfl rfl) rfl
      (fun _ hcan => hcan) (Nat.le_refl _)

end Held

section Steps

variable {s s' : ChildRun}

/-- The one process that can exit. -/
theorem Inv.eq_of_canExit (h : s.Inv) {process other : ProcessId} (hp : s.CanExit process)
    (ho : s.CanExit other) : process = other := by
  have hheld := (h.handled.handle process).mpr hp
  rw [(h.handled.handle other).mpr ho] at hheld
  exact (Option.some.inj hheld).symm

/-- A step that leaves the handle and the processes that can exit. -/
theorem Inv.of_perm (h : s.Inv) (hchild : s'.rpc.child = s.rpc.child)
    (hperm : (s'.starting ++ s'.started).Perm (s.starting ++ s.started))
    (hwaiting : 0 < s'.waiting → 0 < s.waiting ∨ ∃ process, s.CanExit process) : s'.Inv := by
  have hsame : ∀ process, s'.CanExit process ↔ s.CanExit process := by
    intro process
    unfold CanExit
    rw [← List.mem_append, ← List.mem_append, hperm.mem_iff]
  refine ⟨⟨fun process => ?_, fun hpos => ?_⟩, ?_⟩
  · rw [hchild, hsame]
    exact h.handled.handle process
  · have hlive : ∃ process, s.CanExit process := by
      rcases hwaiting hpos with hpos | hlive
      · exact h.handled.waiting hpos
      · exact hlive
    obtain ⟨process, hcan⟩ := hlive
    exact ⟨process, (hsame process).mpr hcan⟩
  · exact hperm.nodup_iff.mpr h.nodup

theorem Inv.spawn (h : s.Inv) {writes : Bool} (hstep : s.step (.spawn writes) = some s') :
    s'.Inv ∧ ∃ process, s'.CanExit process := by
  cases hstep
  cases hchild : s.rpc.child with
  | some process =>
    have hheld := (h.handled.handle process).mp hchild
    refine ⟨h.of_perm ?_ ?_ Or.inl, process, ?_⟩
    · rw [RpcChild.child_spawn, hchild]
      rfl
    · simp
    · simpa [CanExit] using hheld
  | none =>
    have hnone : ∀ process, ¬ s.CanExit process := fun process hcan => by
      have hheld := (h.handled.handle process).mpr hcan
      rw [hchild] at hheld
      cases hheld
    have hstarting : s.starting = [] := List.eq_nil_iff_forall_not_mem.mpr fun process hmem =>
      hnone process (Or.inl hmem)
    have hstarted : s.started = [] := List.eq_nil_iff_forall_not_mem.mpr fun process hmem =>
      hnone process (Or.inr hmem)
    refine ⟨⟨⟨fun process => ?_, fun _ => ?_⟩, ?_⟩, s.nextProcess, ?_⟩
    · rw [RpcChild.child_spawn, hchild]
      simp [CanExit, hstarting, hstarted, eq_comm]
    · exact ⟨s.nextProcess, by simp [CanExit]⟩
    · simp [hstarting, hstarted]
    · simp [CanExit]

theorem Inv.stop (h : s.Inv) {kills : Bool} (hstep : s.step (.stop kills) = some s') : s'.Inv := by
  cases hstep
  refine h.of_perm (RpcChild.child_stop _ _) (.refl _) fun hpos => ?_
  dsimp only at hpos
  split_ifs at hpos with hwaits
  · right
    unfold RpcChild.stop at hwaits
    split_ifs at hwaits with hnone
    rw [Option.isNone_iff_eq_none, ← ne_eq, Option.ne_none_iff_exists'] at hnone
    obtain ⟨process, hchild⟩ := hnone
    exact ⟨process, (h.handled.handle process).mp hchild⟩
  · exact Or.inl hpos

theorem Inv.spawned (h : s.Inv) {process : ProcessId}
    (hstep : s.step (.spawned process) = some s') : s'.Inv := by
  simp only [step] at hstep
  split_ifs at hstep with hmem
  cases hstep
  refine h.of_perm (RpcChild.child_onSpawn _ _) ?_ Or.inl
  calc s.starting.erase process ++ (s.started ++ [process])
      _ = (s.starting.erase process ++ s.started) ++ [process] := (List.append_assoc _ _ _).symm
      List.Perm _ ([process] ++ (s.starting.erase process ++ s.started)) := List.perm_append_comm
      List.Perm _ (s.starting ++ s.started) :=
        (List.perm_cons_erase hmem).symm.append_right s.started

theorem Inv.exited (h : s.Inv) {process : ProcessId}
    (hstep : s.step (.exited process) = some s') : s'.Inv := by
  simp only [step] at hstep
  split_ifs at hstep with hmem
  cases hstep
  obtain ⟨-, hstarted, hdisjoint⟩ := List.nodup_append.mp h.nodup
  refine ⟨⟨fun other => ?_, fun hpos => absurd hpos (Nat.lt_irrefl 0)⟩, ?_⟩
  · rw [RpcChild.child_onExit]
    refine iff_of_false nofun fun hcan => ?_
    rcases hcan with hother | hother
    · obtain rfl := h.eq_of_canExit (Or.inl hother) (Or.inr hmem)
      exact hdisjoint _ hother _ hmem rfl
    · obtain rfl := h.eq_of_canExit (Or.inr (List.mem_of_mem_erase hother)) (Or.inr hmem)
      exact hstarted.not_mem_erase hother
  · exact h.nodup.sublist (List.Sublist.append_left List.erase_sublist s.starting)

/-- The handle of a process that has failed to start is not dropped. -/
theorem Inv.spawnFailed (h : s.Inv) {process : ProcessId} (hmem : process ∈ s.starting) :
    ∃ s', s.step (.spawnFailed process) = some s' ∧ s'.rpc.child = some process ∧
      ¬ s'.CanExit process := by
  refine ⟨_, if_pos hmem, ?_, ?_⟩
  · rw [RpcChild.child_onError]
    exact (h.handled.handle process).mpr (Or.inl hmem)
  · obtain ⟨hstarting, -, hdisjoint⟩ := List.nodup_append.mp h.nodup
    rintro (hleft | hstarted)
    · exact hstarting.not_mem_erase hleft
    · exact hdisjoint _ hmem _ hstarted rfl

/-- What a step keeps in which no process fails to start. -/
theorem Inv.step (h : s.Inv) {label : Label} (hstarts : s.Starts label)
    (hstep : s.step label = some s') : s'.Inv := by
  cases label with
  | spawn writes => exact (h.spawn hstep).1
  | stop kills => exact h.stop hstep
  | spawned process => exact h.spawned hstep
  | spawnFailed process =>
    simp only [ChildRun.step] at hstep
    rw [if_neg (hstarts process rfl)] at hstep
    cases hstep
  | exited process => exact h.exited hstep
  | message message =>
    cases hstep
    exact h.of_perm (RpcChild.child_onMessage _ _) (.refl _) Or.inl
  | readinessTimeout =>
    simp only [ChildRun.step] at hstep
    split_ifs at hstep
    cases hstep
    exact h.of_perm (RpcChild.child_onReadinessTimeout _) (.refl _) Or.inl

theorem handles_iff (h : s.Inv) (label : Label) : s.Handles label ↔ s.Starts label := by
  constructor
  · rintro hhandles process rfl hmem
    obtain ⟨s', hstep, hchild, hgone⟩ := h.spawnFailed hmem
    exact hgone (((hhandles s' hstep).1.handle process).mp hchild)
  · intro hstarts s' hstep
    refine ⟨(h.step hstarts hstep).handled, ?_⟩
    rintro writes rfl
    exact (h.spawn hstep).2

/-- The handle of a process that is gone keeps every later call from having an effect. -/
theorem dead_handle_stays {process : ProcessId} {labels : List Label}
    (hchild : s.rpc.child = some process) (hstarting : s.starting = []) (hstarted : s.started = [])
    (hrun : run step s labels = some s') :
    s'.rpc.child = some process ∧ s'.starting = [] ∧ s'.started = [] ∧ s.waiting ≤ s'.waiting := by
  refine @invariant_run _ _ step (fun t => t.rpc.child = some process ∧ t.starting = [] ∧
    t.started = [] ∧ s.waiting ≤ t.waiting) ?_ s s' labels
    ⟨hchild, hstarting, hstarted, Nat.le_refl _⟩ hrun
  rintro t label t' ⟨hheld, hfirst, hsecond, hle⟩ hstep
  cases label with
  | spawn writes =>
    cases hstep
    refine ⟨?_, ?_, hsecond, hle⟩
    · rw [RpcChild.child_spawn, hheld]
      rfl
    · rw [hheld, if_pos Option.isSome_some, hfirst]
  | stop kills =>
    cases hstep
    refine ⟨(RpcChild.child_stop _ _).trans hheld, hfirst, hsecond, ?_⟩
    dsimp only
    split_ifs
    · exact Nat.le_succ_of_le hle
    · exact hle
  | spawned other =>
    simp only [ChildRun.step] at hstep
    rw [hfirst, if_neg List.not_mem_nil] at hstep
    cases hstep
  | spawnFailed other =>
    simp only [ChildRun.step] at hstep
    rw [hfirst, if_neg List.not_mem_nil] at hstep
    cases hstep
  | exited other =>
    simp only [ChildRun.step] at hstep
    rw [hsecond, if_neg List.not_mem_nil] at hstep
    cases hstep
  | message message =>
    cases hstep
    exact ⟨(RpcChild.child_onMessage _ _).trans hheld, hfirst, hsecond, hle⟩
  | readinessTimeout =>
    simp only [ChildRun.step] at hstep
    split_ifs at hstep
    cases hstep
    exact ⟨(RpcChild.child_onReadinessTimeout _).trans hheld, hfirst, hsecond, hle⟩

end Steps

/-- In a run, the handle is held exactly for the process that can still exit, a spawn has
    started a process, and a stop waits only for an exit that can come, if and only if no
    process fails to start. -/
theorem handle_iff_starts (labels : List Label) :
    Along step Handles initial labels ↔ Along step Starts initial labels :=
  along_congr (fun (s : ChildRun) _ _ (h : s.Inv) hstarts hstep => h.step hstarts hstep)
    (fun _ label h => handles_iff h label) inv_initial labels

/-- The first spawn of a process that cannot be started leaves its handle. -/
theorem spawn_failure_keeps_handle :
    ¬ Along step Handles initial [.spawn true, .spawnFailed 0] := by
  rintro ⟨-, hrest⟩
  obtain ⟨s, hs⟩ := Option.isSome_iff_exists.mp
    (show (initial.step (.spawn true)).isSome = true by decide)
  obtain ⟨hhandles, -⟩ := hrest s hs
  obtain ⟨s', hs'⟩ := Option.isSome_iff_exists.mp
    (show ((initial.step (.spawn true)).bind fun s => s.step (.spawnFailed 0)).isSome = true by
      decide)
  rw [hs, Option.bind_some] at hs'
  have hheld := ((hhandles s' hs').1.handle 0).mp
  have hfinal : ((initial.step (.spawn true)).bind fun s => s.step (.spawnFailed 0)).any
      (fun s => decide (s.rpc.child = some 0 ∧ ¬ s.CanExit 0)) = true := by decide
  rw [hs, Option.bind_some, hs', Option.any_some] at hfinal
  obtain ⟨hchild, hgone⟩ := of_decide_eq_true hfinal
  exact hgone (hheld hchild)

end ChildRun

end RemotePi.Daemon
