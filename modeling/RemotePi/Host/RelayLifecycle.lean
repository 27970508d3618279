import RemotePi.Pairing.OwnerStorage

/-!
# The relay lifecycle

Model of `RelayLifecycle` (`pi-extension/src/runtime/relay_lifecycle.ts`): the
initial connect and the reconnects, each an operation with its awaits, and the
generation that makes a superseded operation fail.

A relay client is its number; it is open from the moment it connects until its socket
closes or it is closed. The backoff delays, the texts shown to the user and the relay URL
of an operation are left out.

Results:
* `Wf.step`: a generation has one operation, and an active relay belongs to a started
  lifecycle.
* `step_isCurrent`: a current relay stays current until a disconnect is reported.
-/

namespace RemotePi.Host

open RemotePi.Pairing

abbrev RelayId := ℕ

inductive RemoteState where
  | idle
  | started
deriving DecidableEq, Repr

/-- Where a connect operation waits. -/
inductive ConnectPhase where
  | loadingIdentity
  /-- `buildConnectOptions` reads the Owners. -/
  | readingOptions
  | optionsRead (authorizedOwnerIds : List String)
  | connecting (candidate : RelayId) (authorizedOwnerIds : List String)
deriving DecidableEq, Repr

/-- A run of `startInitial` (`initial`) or of `reconnect`. -/
structure ConnectOp where
  expectedGeneration : ℕ
  initial : Bool
  phase : ConnectPhase
deriving DecidableEq, Repr

structure RelayLifecycle where
  currentState : RemoteState
  activeRelay : Option RelayId
  pendingCandidate : Option RelayId
  currentRelayUrl : Option String
  identity : Bool
  initialAttempt : Option ℕ
  reconnectTimer : Option ℕ
  generation : ℕ
  isDisposed : Bool
  connects : List ConnectOp
  openRelays : List RelayId
  closedCandidates : List RelayId
  nextRelay : RelayId
deriving DecidableEq

/-- How `loadIdentity` and `resolveRelayUrl` end (lines 119–130). -/
inductive IdentityOutcome where
  /-- `loadIdentity` throws. -/
  | failed
  /-- `resolveRelayUrl` throws. -/
  | unresolved
  | resolved (url : String)
deriving DecidableEq, Repr

/-- What the lifecycle tells its owner: `onConnected` with the Owners of the hello
    and whether a context was passed, or `onDisconnected`. -/
inductive LifecycleEvent where
  | quiet
  | connected (client : RelayId) (ctx : Bool) (authorizedOwnerIds : List String)
  | disconnected
deriving DecidableEq, Repr

namespace RelayLifecycle

def initial : RelayLifecycle where
  currentState := .idle
  activeRelay := none
  pendingCandidate := none
  currentRelayUrl := none
  identity := false
  initialAttempt := none
  reconnectTimer := none
  generation := 0
  isDisposed := false
  connects := []
  openRelays := []
  closedCandidates := []
  nextRelay := 0

/-- `isCurrent` (lines 52–54). -/
def isCurrent (l : RelayLifecycle) (candidate : RelayId) : Bool :=
  !l.isDisposed && l.currentState = .started && l.activeRelay = some candidate

def isOpen (l : RelayLifecycle) (relay : RelayId) : Bool := l.openRelays.contains relay

/-- `isOperationCurrent` (lines 251–253). -/
def isOperationCurrent (l : RelayLifecycle) (expected : ℕ) : Bool :=
  !l.isDisposed && l.generation = expected

/-- `isReconnectCurrent` (lines 255–257). -/
def isReconnectCurrent (l : RelayLifecycle) (expected : ℕ) : Bool :=
  l.currentState = .started && l.isOperationCurrent expected

/-- The socket of a client closes. -/
def socketClosed (l : RelayLifecycle) (relay : RelayId) : RelayLifecycle :=
  { l with openRelays := l.openRelays.filter fun r => r ≠ relay }

/-- A client connects; one that has been closed stays closed (`transport/relay_client.ts`,
    lines 120–130). -/
def socketOpened (l : RelayLifecycle) (relay : RelayId) : RelayLifecycle :=
  if relay ∈ l.closedCandidates then l else { l with openRelays := l.openRelays ++ [relay] }

/-- `closeCandidateOnce` (lines 240–244). -/
def closeCandidateOnce (l : RelayLifecycle) : Option RelayId → RelayLifecycle
  | none => l
  | some candidate =>
    if candidate ∈ l.closedCandidates then l
    else
      { l with closedCandidates := l.closedCandidates ++ [candidate] }.socketClosed candidate

/-- `clearInitialAttempt` (lines 246–249), run when an initial operation ends. -/
def clearInitialAttempt (l : RelayLifecycle) (op : ConnectOp) : RelayLifecycle :=
  if op.initial && l.initialAttempt = some op.expectedGeneration then
    { l with initialAttempt := none }
  else l

/-- `scheduleReconnect` (lines 166–176). -/
def scheduleReconnect (l : RelayLifecycle) : RelayLifecycle :=
  if !l.identity || l.isDisposed || l.currentState ≠ .started then l
  else
    { l with
      generation := l.generation + 1
      reconnectTimer := some (l.generation + 1) }

/-- An operation leaves its await. -/
def withdraw (l : RelayLifecycle) (op : ConnectOp) : RelayLifecycle :=
  { l with connects := l.connects.erase op }

/-- An operation goes on to its next await. -/
def resume (l : RelayLifecycle) (op : ConnectOp) (phase : ConnectPhase) : RelayLifecycle :=
  { l with connects := l.connects ++ [{ op with phase := phase }] }

/-- `start` (lines 60–85) with the synchronous part of `startInitial` (line 117). -/
def start (l : RelayLifecycle) : RelayLifecycle :=
  if l.initialAttempt.isSome then l
  else if l.currentState ≠ .idle then l
  else
    { l with
      generation := l.generation + 1
      initialAttempt := some (l.generation + 1)
      connects := l.connects ++ [⟨l.generation + 1, true, .loadingIdentity⟩] }

/-- `startInitial` after `loadIdentity` (lines 119–137). -/
def identityLoaded (l : RelayLifecycle) (op : ConnectOp) (outcome : IdentityOutcome) :
    RelayLifecycle :=
  let l := l.withdraw op
  if !l.isOperationCurrent op.expectedGeneration then l.clearInitialAttempt op
  else
    match outcome with
    | .failed => l.clearInitialAttempt op
    | .unresolved => { l with identity := true }.clearInitialAttempt op
    | .resolved url =>
      { l with
        identity := true
        currentRelayUrl := some url
        currentState := .started }.resume op .readingOptions

/-- A connect that fails (lines 138–141, 147–152, 184–191, 198–205, 227–232). -/
def connectionFailure (l : RelayLifecycle) (op : ConnectOp) : RelayLifecycle :=
  let l := l.clearInitialAttempt op
  if l.isReconnectCurrent op.expectedGeneration then l.scheduleReconnect else l

/-- After `buildConnectOptions` (lines 135–145, 182–195); `ok` when it did not throw, `creates`
    when `createClient` does not throw. -/
def optionsBuilt (l : RelayLifecycle) (op : ConnectOp) (authorizedOwnerIds : List String)
    (ok creates : Bool) : RelayLifecycle :=
  let l := l.withdraw op
  if !ok then l.connectionFailure op
  else if !l.isReconnectCurrent op.expectedGeneration then l.clearInitialAttempt op
  else if !creates then l.clearInitialAttempt op
  else
    { l with
      pendingCandidate := some l.nextRelay
      nextRelay := l.nextRelay + 1 }.resume op (.connecting l.nextRelay authorizedOwnerIds)

/-- After `candidate.connect` (lines 153–163, 206–216). -/
def connected (l : RelayLifecycle) (op : ConnectOp) (candidate : RelayId)
    (authorizedOwnerIds : List String) : RelayLifecycle × LifecycleEvent :=
  let l := ((l.withdraw op).clearInitialAttempt op).socketOpened candidate
  if !l.isReconnectCurrent op.expectedGeneration || l.pendingCandidate ≠ some candidate then
    (l.closeCandidateOnce (some candidate), .quiet)
  else
    ({ l with
        pendingCandidate := none
        activeRelay := some candidate },
      .connected candidate op.initial authorizedOwnerIds)

/-- After `candidate.connect` threw (lines 148–152, 198–205). -/
def connectFailed (l : RelayLifecycle) (op : ConnectOp) (candidate : RelayId) : RelayLifecycle :=
  let l := l.withdraw op
  let l :=
    if l.pendingCandidate = some candidate then
      { l with pendingCandidate := none }.closeCandidateOnce (some candidate)
    else l
  l.connectionFailure op

/-- The callback of the reconnect timer with the start of `reconnect` (lines 171–180). -/
def reconnectTimerFired (l : RelayLifecycle) (expected : ℕ) : RelayLifecycle :=
  let l := { l with reconnectTimer := none }
  if !l.isReconnectCurrent expected || !l.identity then l
  else { l with connects := l.connects ++ [⟨expected, false, .readingOptions⟩] }

/-- `onRelayClose` (lines 219–225). -/
def onRelayClose (l : RelayLifecycle) (closed : RelayId) : RelayLifecycle × LifecycleEvent :=
  let l := l.socketClosed closed
  if l.activeRelay ≠ some closed || l.currentState = .idle then (l, .quiet)
  else
    let l := { l with activeRelay := none }
    (if l.currentRelayUrl.isSome then l.scheduleReconnect else l, .disconnected)

/-- `stop` (lines 91–114). -/
def stop (l : RelayLifecycle) : RelayLifecycle :=
  { (l.closeCandidateOnce l.activeRelay).closeCandidateOnce l.pendingCandidate with
    generation := l.generation + 1
    reconnectTimer := none
    activeRelay := none
    pendingCandidate := none
    currentRelayUrl := none
    initialAttempt := none
    currentState := .idle }

end RelayLifecycle

/-! ## Steps -/

inductive LifecycleLabel where
  | start
  | identityLoaded (op : ConnectOp) (outcome : IdentityOutcome)
  /-- The file is read for the options of a connect. -/
  | readOptions (op : ConnectOp)
  | optionsBuilt (op : ConnectOp) (ok creates : Bool)
  | connected (op : ConnectOp)
  | connectFailed (op : ConnectOp)
  | reconnectTimerFired
  /-- The socket leaves the open state; its close event comes later. -/
  | relayClosing (relay : RelayId)
  | relayClosed (relay : RelayId)
  | stop
  | setDisposed (value : Bool)
deriving DecidableEq, Repr

/-- One step of the lifecycle. `none` when the label is not enabled. -/
def RelayLifecycle.step (l : RelayLifecycle) (file : PeersFile) :
    LifecycleLabel → Option (RelayLifecycle × LifecycleEvent)
  | .start => some (l.start, .quiet)
  | .identityLoaded op outcome =>
    -- `resolveRelayUrl` returns no empty URL (`config.ts`, lines 52–61)
    if op ∈ l.connects ∧ op.phase = .loadingIdentity ∧ outcome ≠ .resolved "" then
      some (l.identityLoaded op outcome, .quiet)
    else none
  | .readOptions op =>
    if op ∈ l.connects ∧ op.phase = .readingOptions then
      some ((l.withdraw op).resume op (.optionsRead (authorizedOwnerIds file)), .quiet)
    else none
  | .optionsBuilt op ok creates =>
    match op.phase with
    | .optionsRead owners =>
      if op ∈ l.connects then some (l.optionsBuilt op owners ok creates, .quiet) else none
    | _ => none
  | .connected op =>
    match op.phase with
    | .connecting candidate owners =>
      if op ∈ l.connects then some (l.connected op candidate owners) else none
    | _ => none
  | .connectFailed op =>
    match op.phase with
    | .connecting candidate _ =>
      if op ∈ l.connects then some (l.connectFailed op candidate, .quiet) else none
    | _ => none
  | .reconnectTimerFired =>
    match l.reconnectTimer with
    | some expected => some (l.reconnectTimerFired expected, .quiet)
    | none => none
  | .relayClosing relay => some (l.socketClosed relay, .quiet)
  | .relayClosed relay => some (l.onRelayClose relay)
  | .stop => some (l.stop, .disconnected)
  | .setDisposed value => some ({ l with isDisposed := value }, .quiet)

/-! ## What the steps keep -/

namespace RelayLifecycle

/-- The operations of the current generation: a connect that waits, a scheduled timer, an
    active relay. -/
def tally (l : RelayLifecycle) : ℕ :=
  l.connects.countP (fun op => op.expectedGeneration = l.generation) +
    (if l.reconnectTimer = some l.generation then 1 else 0) +
    if l.activeRelay.isSome then 1 else 0

/-- A generation has one operation, and an active relay belongs to a started lifecycle. -/
structure Wf (l : RelayLifecycle) : Prop where
  connects : ∀ op ∈ l.connects, op.expectedGeneration ≤ l.generation
  timer : ∀ expected ∈ l.reconnectTimer, expected ≤ l.generation
  single : l.tally ≤ 1
  active : l.activeRelay.isSome = true → l.currentState = .started

section Frames

/-- What `clearInitialAttempt` may change. -/
theorem clearInitialAttempt_frame (l : RelayLifecycle) (op : ConnectOp) :
    ∃ initialAttempt, l.clearInitialAttempt op = { l with initialAttempt } := by
  unfold clearInitialAttempt
  split_ifs <;> exact ⟨_, rfl⟩

theorem socketOpened_frame (l : RelayLifecycle) (relay : RelayId) :
    ∃ openRelays, l.socketOpened relay = { l with openRelays } := by
  unfold socketOpened
  split_ifs <;> exact ⟨_, rfl⟩

theorem closeCandidateOnce_frame (l : RelayLifecycle) (candidate : Option RelayId) :
    ∃ openRelays closedCandidates,
      l.closeCandidateOnce candidate = { l with openRelays, closedCandidates } := by
  unfold closeCandidateOnce
  split
  · exact ⟨_, _, rfl⟩
  · split_ifs <;> exact ⟨_, _, rfl⟩

end Frames

theorem wf_initial : initial.Wf where
  connects op h := by cases h
  timer expected h := by cases h
  single := by decide
  active h := by cases h

section Steps

variable {l : RelayLifecycle} {op : ConnectOp}

theorem isReconnectCurrent_iff {expected : ℕ} : l.isReconnectCurrent expected = true ↔
    l.currentState = .started ∧ l.isDisposed = false ∧ l.generation = expected := by
  simp [isReconnectCurrent, isOperationCurrent]

/-- A generation that is new has no operation yet. -/
theorem countP_of_lt {generation : ℕ} (h : ∀ op ∈ l.connects, op.expectedGeneration < generation) :
    l.connects.countP (fun op => op.expectedGeneration = generation) = 0 := by
  rw [List.countP_eq_zero]
  intro op hop
  have hlt := h op hop
  simp only [decide_eq_true_eq]
  omega

theorem tally_withdraw (h : op ∈ l.connects) :
    (l.withdraw op).tally + (if op.expectedGeneration = l.generation then 1 else 0) =
      l.tally := by
  have hcount := (List.perm_cons_erase h).countP_eq
    (fun op => decide (op.expectedGeneration = l.generation))
  rw [List.countP_cons] at hcount
  simp only [decide_eq_true_eq] at hcount
  unfold tally withdraw
  dsimp only
  omega

theorem tally_resume (phase : ConnectPhase) : (l.resume op phase).tally =
    l.tally + if op.expectedGeneration = l.generation then 1 else 0 := by
  unfold tally resume
  dsimp only
  rw [List.countP_append, List.countP_singleton]
  simp only [decide_eq_true_eq]
  omega

theorem Wf.withdraw (h : l.Wf) (hop : op ∈ l.connects) : (l.withdraw op).Wf where
  connects other hother := h.connects other (List.mem_of_mem_erase hother)
  timer := h.timer
  single := by
    have heq := tally_withdraw hop
    have hle := h.single
    omega
  active := h.active

/-- An operation that waits comes back to its generation. -/
theorem Wf.resume (h : l.Wf) (hop : op.expectedGeneration ≤ l.generation)
    (hfree : op.expectedGeneration = l.generation → l.tally = 0) (phase : ConnectPhase) :
    (l.resume op phase).Wf where
  connects other hother := by
    rcases List.mem_append.mp hother with hother | hother
    · exact h.connects other hother
    · obtain rfl := List.mem_singleton.mp hother
      exact hop
  timer := h.timer
  single := by
    have hle := h.single
    rw [tally_resume]
    split_ifs with heq
    · have hzero := hfree heq
      omega
    · exact hle
  active := h.active

theorem free_withdraw (h : l.Wf) (hop : op ∈ l.connects)
    (heq : op.expectedGeneration = l.generation) : (l.withdraw op).tally = 0 := by
  have htally := tally_withdraw hop
  have hle := h.single
  rw [if_pos heq] at htally
  omega

theorem Wf.clearInitialAttempt (h : l.Wf) : (l.clearInitialAttempt op).Wf := by
  unfold RelayLifecycle.clearInitialAttempt
  split_ifs
  · exact ⟨h.connects, h.timer, h.single, h.active⟩
  · exact h

/-- A new generation starts without operations; its timer is the first. -/
theorem Wf.scheduleReconnect (h : l.Wf) (hfree : l.activeRelay = none) :
    l.scheduleReconnect.Wf := by
  unfold RelayLifecycle.scheduleReconnect
  split_ifs
  · exact h
  · refine ⟨fun op hop => ?_, fun expected hexpected => ?_, ?_, fun hactive => ?_⟩
    · exact Nat.le_succ_of_le (h.connects op hop)
    · cases hexpected
      exact Nat.le_refl _
    · have hzero := @countP_of_lt l (l.generation + 1) fun op hop =>
        Nat.lt_succ_of_le (h.connects op hop)
      unfold tally
      dsimp only
      rw [hzero, hfree]
      simp
    · have hnone : l.activeRelay.isSome = true := hactive
      rw [hfree] at hnone
      cases hnone

@[simp] theorem activeRelay_clearInitialAttempt :
    (l.clearInitialAttempt op).activeRelay = l.activeRelay := by
  unfold RelayLifecycle.clearInitialAttempt
  split_ifs <;> rfl

@[simp] theorem generation_clearInitialAttempt :
    (l.clearInitialAttempt op).generation = l.generation := by
  unfold RelayLifecycle.clearInitialAttempt
  split_ifs <;> rfl

theorem tally_clearInitialAttempt : (l.clearInitialAttempt op).tally = l.tally := by
  unfold RelayLifecycle.clearInitialAttempt
  split_ifs <;> rfl

theorem activeRelay_of_tally (h : l.tally = 0) : l.activeRelay = none := by
  unfold tally at h
  rw [← Option.not_isSome_iff_eq_none]
  intro hsome
  rw [if_pos hsome] at h
  omega

theorem Wf.connectionFailure (h : l.Wf)
    (hfree : op.expectedGeneration = l.generation → l.tally = 0) :
    (l.connectionFailure op).Wf := by
  unfold RelayLifecycle.connectionFailure
  dsimp only
  split_ifs with hcurrent
  · refine h.clearInitialAttempt.scheduleReconnect ?_
    obtain ⟨-, -, heq⟩ := isReconnectCurrent_iff.mp hcurrent
    rw [generation_clearInitialAttempt] at heq
    rw [activeRelay_clearInitialAttempt]
    exact activeRelay_of_tally (hfree heq.symm)
  · exact h.clearInitialAttempt

theorem Wf.start (h : l.Wf) : l.start.Wf := by
  unfold RelayLifecycle.start
  split_ifs with hattempt hidle
  · exact h
  · exact h
  · have hnone : l.activeRelay = none := by
      rw [← Option.not_isSome_iff_eq_none]
      intro hsome
      exact hidle (h.active hsome ▸ nofun)
    refine ⟨fun other hother => ?_, fun expected hexpected => ?_, ?_, fun hactive => ?_⟩
    · rcases List.mem_append.mp hother with hother | hother
      · exact Nat.le_succ_of_le (h.connects other hother)
      · obtain rfl := List.mem_singleton.mp hother
        exact Nat.le_refl _
    · exact Nat.le_succ_of_le (h.timer expected hexpected)
    · have hzero := @countP_of_lt l (l.generation + 1) fun op hop =>
        Nat.lt_succ_of_le (h.connects op hop)
      have htimer : ¬ l.reconnectTimer = some (l.generation + 1) := by
        intro heq
        have hle := h.timer _ heq
        omega
      unfold tally
      dsimp only
      rw [List.countP_append, hzero, hnone, if_neg htimer]
      simp
    · have hsome : l.activeRelay.isSome = true := hactive
      rw [hnone] at hsome
      cases hsome

theorem Wf.identityLoaded (h : l.Wf) (hop : op ∈ l.connects) (outcome : IdentityOutcome) :
    (l.identityLoaded op outcome).Wf := by
  have hwithdraw := h.withdraw hop
  unfold RelayLifecycle.identityLoaded
  dsimp only
  split_ifs with hcurrent
  · exact hwithdraw.clearInitialAttempt
  · cases outcome with
    | failed => exact hwithdraw.clearInitialAttempt
    | unresolved =>
      have hidentified : { l.withdraw op with identity := true }.Wf :=
        ⟨hwithdraw.connects, hwithdraw.timer, hwithdraw.single, hwithdraw.active⟩
      exact hidentified.clearInitialAttempt
    | resolved url =>
      have hloaded : ({ l.withdraw op with
          identity := true
          currentRelayUrl := some url
          currentState := .started } : RelayLifecycle).Wf :=
        ⟨hwithdraw.connects, hwithdraw.timer, hwithdraw.single, fun _ => rfl⟩
      exact hloaded.resume (h.connects op hop) (fun heq => free_withdraw h hop heq) _

theorem Wf.optionsBuilt (h : l.Wf) (hop : op ∈ l.connects) (owners : List String)
    (ok creates : Bool) : (l.optionsBuilt op owners ok creates).Wf := by
  have hwithdraw := h.withdraw hop
  unfold RelayLifecycle.optionsBuilt
  dsimp only
  split_ifs
  · exact hwithdraw.connectionFailure fun heq => free_withdraw h hop heq
  · exact hwithdraw.clearInitialAttempt
  · exact hwithdraw.clearInitialAttempt
  · have hcandidate : ({ l.withdraw op with
        pendingCandidate := some (l.withdraw op).nextRelay
        nextRelay := (l.withdraw op).nextRelay + 1 } : RelayLifecycle).Wf :=
      ⟨hwithdraw.connects, hwithdraw.timer, hwithdraw.single, hwithdraw.active⟩
    exact hcandidate.resume (h.connects op hop) (fun heq => free_withdraw h hop heq) _

theorem Wf.closeCandidateOnce (h : l.Wf) (candidate : Option RelayId) :
    (l.closeCandidateOnce candidate).Wf := by
  obtain ⟨_, _, hframe⟩ := closeCandidateOnce_frame l candidate
  rw [hframe]
  exact ⟨h.connects, h.timer, h.single, h.active⟩

theorem Wf.socketOpened (h : l.Wf) (relay : RelayId) : (l.socketOpened relay).Wf := by
  obtain ⟨_, hframe⟩ := socketOpened_frame l relay
  rw [hframe]
  exact ⟨h.connects, h.timer, h.single, h.active⟩

theorem Wf.connected (h : l.Wf) (hop : op ∈ l.connects) (candidate : RelayId)
    (owners : List String) : (l.connected op candidate owners).1.Wf := by
  have hclear : ((l.withdraw op).clearInitialAttempt op).Wf := (h.withdraw hop).clearInitialAttempt
  have hopened := hclear.socketOpened candidate
  obtain ⟨_, hframe⟩ := socketOpened_frame ((l.withdraw op).clearInitialAttempt op) candidate
  unfold RelayLifecycle.connected
  dsimp only
  split_ifs with hcurrent
  · exact hopened.closeCandidateOnce (some candidate)
  · simp only [Bool.or_eq_true, Bool.not_eq_true', not_or, Bool.not_eq_false] at hcurrent
    obtain ⟨hstarted, -, heq⟩ := isReconnectCurrent_iff.mp hcurrent.1
    refine ⟨hopened.connects, hopened.timer, ?_, fun _ => hstarted⟩
    rw [hframe] at heq ⊢
    have heq : op.expectedGeneration = (l.withdraw op).generation := by
      rw [← heq]
      exact generation_clearInitialAttempt
    have hfree := free_withdraw h hop heq
    rw [← @tally_clearInitialAttempt _ op] at hfree
    unfold tally at hfree ⊢
    dsimp only
    rw [Option.isSome_some, if_pos rfl]
    omega

theorem Wf.connectFailed (h : l.Wf) (hop : op ∈ l.connects) (candidate : RelayId) :
    (l.connectFailed op candidate).Wf := by
  have hwithdraw := h.withdraw hop
  unfold RelayLifecycle.connectFailed
  dsimp only
  split_ifs
  · have hdropped : { l.withdraw op with pendingCandidate := none }.Wf :=
      ⟨hwithdraw.connects, hwithdraw.timer, hwithdraw.single, hwithdraw.active⟩
    refine (hdropped.closeCandidateOnce _).connectionFailure fun heq => ?_
    obtain ⟨_, _, hframe⟩ := closeCandidateOnce_frame
      { l.withdraw op with pendingCandidate := none } (some candidate)
    rw [hframe] at heq ⊢
    exact free_withdraw h hop heq
  · exact hwithdraw.connectionFailure fun heq => free_withdraw h hop heq

theorem Wf.reconnectTimerFired (h : l.Wf) {expected : ℕ}
    (htimer : l.reconnectTimer = some expected) : (l.reconnectTimerFired expected).Wf := by
  have hle := h.timer expected htimer
  have hsingle := h.single
  unfold RelayLifecycle.reconnectTimerFired
  dsimp only
  split_ifs with hcurrent
  · refine ⟨h.connects, nofun, ?_, h.active⟩
    unfold tally at hsingle ⊢
    dsimp only
    rw [if_neg (Option.some_ne_none _).symm]
    omega
  · simp only [Bool.or_eq_true, Bool.not_eq_true', not_or, Bool.not_eq_false] at hcurrent
    obtain ⟨-, -, heq⟩ := isReconnectCurrent_iff.mp hcurrent.1
    have heq : l.generation = expected := heq
    refine ⟨fun other hother => ?_, nofun, ?_, h.active⟩
    · rcases List.mem_append.mp hother with hother | hother
      · exact h.connects other hother
      · obtain rfl := List.mem_singleton.mp hother
        exact hle
    · unfold tally at hsingle ⊢
      dsimp only
      rw [htimer, heq, if_pos rfl] at hsingle
      rw [List.countP_append, List.countP_singleton, if_neg (Option.some_ne_none _).symm, heq,
        if_pos (decide_eq_true rfl)]
      omega

theorem Wf.socketClosed (h : l.Wf) (relay : RelayId) : (l.socketClosed relay).Wf :=
  ⟨h.connects, h.timer, h.single, h.active⟩

/-- The active client is gone. -/
theorem Wf.left (h : l.Wf) (closed : RelayId) :
    { l.socketClosed closed with activeRelay := none }.Wf := by
  refine ⟨h.connects, h.timer, ?_, nofun⟩
  have hsingle := h.single
  unfold tally RelayLifecycle.socketClosed at *
  dsimp only
  rw [Option.isSome_none, if_neg Bool.false_ne_true]
  omega

theorem Wf.onRelayClose (h : l.Wf) (closed : RelayId) : (l.onRelayClose closed).1.Wf := by
  have hclosed := h.left closed
  unfold RelayLifecycle.onRelayClose
  dsimp only
  split_ifs
  · exact h.socketClosed _
  · exact hclosed.scheduleReconnect rfl
  · exact hclosed

/-- What closing the clients of a lifecycle that stops may change. -/
theorem stop_frame (l : RelayLifecycle) : ∃ openRelays closedCandidates, l.stop =
    { l with
      openRelays
      closedCandidates
      generation := l.generation + 1
      reconnectTimer := none
      activeRelay := none
      pendingCandidate := none
      currentRelayUrl := none
      initialAttempt := none
      currentState := .idle } := by
  obtain ⟨_, _, hactive⟩ := closeCandidateOnce_frame l l.activeRelay
  obtain ⟨_, _, hpending⟩ :=
    closeCandidateOnce_frame (l.closeCandidateOnce l.activeRelay) l.pendingCandidate
  unfold RelayLifecycle.stop
  rw [hpending, hactive]
  exact ⟨_, _, rfl⟩

theorem wf_stop (h : ∀ op ∈ l.connects, op.expectedGeneration ≤ l.generation) : l.stop.Wf := by
  obtain ⟨_, _, hframe⟩ := stop_frame l
  rw [hframe]
  refine ⟨fun op hop => Nat.le_succ_of_le (h op hop), nofun, ?_, nofun⟩
  have hzero := @countP_of_lt l (l.generation + 1) fun op hop => Nat.lt_succ_of_le (h op hop)
  unfold tally
  dsimp only
  rw [hzero]
  simp

end Steps

/-- Every step keeps the lifecycle well formed. -/
theorem Wf.step {l l' : RelayLifecycle} {file : PeersFile} {label : LifecycleLabel}
    {event : LifecycleEvent} (h : l.Wf) (hstep : l.step file label = some (l', event)) :
    l'.Wf := by
  cases label with
  | start => cases hstep; exact h.start
  | identityLoaded op outcome =>
    simp only [RelayLifecycle.step] at hstep
    split_ifs at hstep with hop
    cases hstep
    exact h.identityLoaded hop.1 outcome
  | readOptions op =>
    simp only [RelayLifecycle.step] at hstep
    split_ifs at hstep with hop
    cases hstep
    exact (h.withdraw hop.1).resume (h.connects op hop.1)
      (fun heq => free_withdraw h hop.1 heq) _
  | optionsBuilt op ok creates =>
    simp only [RelayLifecycle.step] at hstep
    split at hstep
    · split_ifs at hstep with hop
      cases hstep
      exact h.optionsBuilt hop _ _ _
    · cases hstep
  | connected op =>
    simp only [RelayLifecycle.step] at hstep
    split at hstep
    · split_ifs at hstep with hop
      obtain rfl : (l.connected op _ _).1 = l' := congrArg Prod.fst (Option.some.inj hstep)
      exact h.connected hop _ _
    · cases hstep
  | connectFailed op =>
    simp only [RelayLifecycle.step] at hstep
    split at hstep
    · split_ifs at hstep with hop
      cases hstep
      exact h.connectFailed hop _
    · cases hstep
  | reconnectTimerFired =>
    simp only [RelayLifecycle.step] at hstep
    split at hstep
    · rename_i expected htimer
      cases hstep
      exact h.reconnectTimerFired htimer
    · cases hstep
  | relayClosing relay => cases hstep; exact h.socketClosed _
  | relayClosed relay =>
    obtain rfl : (l.onRelayClose relay).1 = l' := congrArg Prod.fst (Option.some.inj hstep)
    exact h.onRelayClose relay
  | stop => cases hstep; exact wf_stop h.connects
  | setDisposed value =>
    cases hstep
    exact ⟨h.connects, h.timer, h.single, h.active⟩

@[simp] theorem isCurrent_withdraw (l : RelayLifecycle) (op : ConnectOp) (relay : RelayId) :
    (l.withdraw op).isCurrent relay = l.isCurrent relay := rfl

@[simp] theorem isCurrent_resume (l : RelayLifecycle) (op : ConnectOp) (phase : ConnectPhase)
    (relay : RelayId) : (l.resume op phase).isCurrent relay = l.isCurrent relay := rfl

@[simp] theorem isCurrent_socketOpened (l : RelayLifecycle) (opened relay : RelayId) :
    (l.socketOpened opened).isCurrent relay = l.isCurrent relay := by
  obtain ⟨_, hframe⟩ := socketOpened_frame l opened
  rw [hframe]
  rfl

@[simp] theorem isCurrent_closeCandidateOnce (l : RelayLifecycle) (candidate : Option RelayId)
    (relay : RelayId) : (l.closeCandidateOnce candidate).isCurrent relay = l.isCurrent relay := by
  obtain ⟨_, _, hframe⟩ := closeCandidateOnce_frame l candidate
  rw [hframe]
  rfl

@[simp] theorem isCurrent_clearInitialAttempt (l : RelayLifecycle) (op : ConnectOp)
    (relay : RelayId) : (l.clearInitialAttempt op).isCurrent relay = l.isCurrent relay := by
  unfold clearInitialAttempt
  split_ifs <;> rfl

theorem isCurrent_iff {l : RelayLifecycle} {relay : RelayId} : l.isCurrent relay = true ↔
    l.isDisposed = false ∧ l.currentState = .started ∧ l.activeRelay = some relay := by
  simp [isCurrent, and_assoc]

/-- While a relay is current, no operation of the generation waits. -/
theorem stale_of_isCurrent {l : RelayLifecycle} {op : ConnectOp} {relay : RelayId} (h : l.Wf)
    (hcurrent : l.isCurrent relay = true) (hop : op ∈ l.connects) :
    op.expectedGeneration ≠ l.generation := by
  intro heq
  have hactive := (isCurrent_iff.mp hcurrent).2.2
  have hzero := activeRelay_of_tally (free_withdraw h hop heq)
  rw [show (l.withdraw op).activeRelay = l.activeRelay from rfl, hactive] at hzero
  cases hzero

/-- The failure of a stale operation leaves the current relay. -/
theorem isCurrent_connectionFailure {l : RelayLifecycle} {op : ConnectOp} {relay : RelayId}
    (hstale : op.expectedGeneration ≠ l.generation) :
    (l.connectionFailure op).isCurrent relay = l.isCurrent relay := by
  unfold connectionFailure
  dsimp only
  rw [if_neg]
  · exact isCurrent_clearInitialAttempt l op relay
  · intro hcurrent
    obtain ⟨-, -, heq⟩ := isReconnectCurrent_iff.mp hcurrent
    rw [generation_clearInitialAttempt] at heq
    exact hstale heq.symm

theorem isCurrent_identityLoaded {l : RelayLifecycle} {op : ConnectOp} {relay : RelayId}
    (hstale : op.expectedGeneration ≠ l.generation) (outcome : IdentityOutcome) :
    (l.identityLoaded op outcome).isCurrent relay = l.isCurrent relay := by
  unfold identityLoaded
  dsimp only
  rw [if_pos, isCurrent_clearInitialAttempt, isCurrent_withdraw]
  rw [Bool.not_eq_true', isOperationCurrent, Bool.and_eq_false_iff]
  exact Or.inr (decide_eq_false fun heq => hstale (Eq.symm heq))

theorem isCurrent_optionsBuilt {l : RelayLifecycle} {op : ConnectOp} {relay : RelayId}
    (hstale : op.expectedGeneration ≠ l.generation) (owners : List String) (ok creates : Bool) :
    (l.optionsBuilt op owners ok creates).isCurrent relay = l.isCurrent relay := by
  unfold optionsBuilt
  dsimp only
  split_ifs
  · rw [isCurrent_connectionFailure (l := l.withdraw op) hstale, isCurrent_withdraw]
  · rw [isCurrent_clearInitialAttempt, isCurrent_withdraw]
  · rw [isCurrent_clearInitialAttempt, isCurrent_withdraw]
  · rfl

theorem connected_of_stale {l : RelayLifecycle} {op : ConnectOp}
    (hstale : op.expectedGeneration ≠ l.generation) (candidate : RelayId)
    (owners : List String) :
    l.connected op candidate owners = ((((l.withdraw op).clearInitialAttempt op).socketOpened
      candidate).closeCandidateOnce (some candidate), .quiet) := by
  unfold connected
  dsimp only
  rw [if_pos]
  rw [Bool.or_eq_true, Bool.not_eq_true']
  refine Or.inl (Bool.eq_false_iff.mpr fun hcurrent => ?_)
  obtain ⟨_, hframe⟩ := socketOpened_frame ((l.withdraw op).clearInitialAttempt op) candidate
  obtain ⟨-, -, heq⟩ := isReconnectCurrent_iff.mp hcurrent
  rw [hframe] at heq
  exact hstale (heq.symm.trans generation_clearInitialAttempt)

theorem isCurrent_connectFailed {l : RelayLifecycle} {op : ConnectOp} {relay : RelayId}
    (hstale : op.expectedGeneration ≠ l.generation) (candidate : RelayId) :
    (l.connectFailed op candidate).isCurrent relay = l.isCurrent relay := by
  unfold connectFailed
  dsimp only
  split_ifs
  · rw [isCurrent_connectionFailure, isCurrent_closeCandidateOnce]
    · rfl
    · obtain ⟨_, _, hframe⟩ := closeCandidateOnce_frame
        { l.withdraw op with pendingCandidate := none } (some candidate)
      rw [hframe]
      exact hstale
  · exact isCurrent_connectionFailure hstale

theorem isCurrent_reconnectTimerFired (l : RelayLifecycle) (expected : ℕ) (relay : RelayId) :
    (l.reconnectTimerFired expected).isCurrent relay = l.isCurrent relay := by
  unfold reconnectTimerFired
  dsimp only
  split_ifs <;> rfl

/-- A current relay stays current until the lifecycle reports a disconnect, and no other one
    connects before. -/
theorem step_isCurrent {l l' : RelayLifecycle} {file : PeersFile} {label : LifecycleLabel}
    {event : LifecycleEvent} {relay : RelayId} (h : l.Wf) (hcurrent : l.isCurrent relay = true)
    (hlabel : ∀ value, label ≠ .setDisposed value)
    (hstep : l.step file label = some (l', event)) :
    event = .disconnected ∨ (event = .quiet ∧ l'.isCurrent relay = true) := by
  obtain ⟨hdisposed, hstarted, hactive⟩ := isCurrent_iff.mp hcurrent
  cases label with
  | start =>
    cases hstep
    refine Or.inr ⟨rfl, ?_⟩
    have hidle : l.currentState ≠ .idle := by
      rw [hstarted]
      nofun
    unfold RelayLifecycle.start
    rw [if_pos hidle]
    split_ifs <;> exact hcurrent
  | identityLoaded op outcome =>
    simp only [RelayLifecycle.step] at hstep
    split_ifs at hstep with hop
    cases hstep
    refine Or.inr ⟨rfl, ?_⟩
    rw [isCurrent_identityLoaded (stale_of_isCurrent h hcurrent hop.1), hcurrent]
  | readOptions op =>
    simp only [RelayLifecycle.step] at hstep
    split_ifs at hstep with hop
    cases hstep
    exact Or.inr ⟨rfl, hcurrent⟩
  | optionsBuilt op ok creates =>
    simp only [RelayLifecycle.step] at hstep
    split at hstep
    · split_ifs at hstep with hop
      cases hstep
      refine Or.inr ⟨rfl, ?_⟩
      rw [isCurrent_optionsBuilt (stale_of_isCurrent h hcurrent hop), hcurrent]
    · cases hstep
  | connected op =>
    simp only [RelayLifecycle.step] at hstep
    split at hstep
    · split_ifs at hstep with hop
      rw [connected_of_stale (stale_of_isCurrent h hcurrent hop)] at hstep
      cases hstep
      refine Or.inr ⟨rfl, ?_⟩
      rw [isCurrent_closeCandidateOnce, isCurrent_socketOpened, isCurrent_clearInitialAttempt,
        isCurrent_withdraw, hcurrent]
    · cases hstep
  | connectFailed op =>
    simp only [RelayLifecycle.step] at hstep
    split at hstep
    · split_ifs at hstep with hop
      cases hstep
      refine Or.inr ⟨rfl, ?_⟩
      rw [isCurrent_connectFailed (stale_of_isCurrent h hcurrent hop), hcurrent]
    · cases hstep
  | reconnectTimerFired =>
    simp only [RelayLifecycle.step] at hstep
    split at hstep
    · cases hstep
      refine Or.inr ⟨rfl, ?_⟩
      rw [isCurrent_reconnectTimerFired, hcurrent]
    · cases hstep
  | relayClosing closing =>
    cases hstep
    exact Or.inr ⟨rfl, hcurrent⟩
  | relayClosed closed =>
    simp only [RelayLifecycle.step, Option.some.injEq] at hstep
    unfold onRelayClose at hstep
    dsimp only at hstep
    split_ifs at hstep <;> cases hstep
    · exact Or.inr ⟨rfl, hcurrent⟩
    · exact Or.inl rfl
    · exact Or.inl rfl
  | stop =>
    cases hstep
    exact Or.inl rfl
  | setDisposed value => exact absurd rfl (hlabel value)

end RelayLifecycle

theorem eq_of_isCurrent {lifecycle : RelayLifecycle} {relay relay' : RelayId}
    (h : lifecycle.isCurrent relay = true) (h' : lifecycle.isCurrent relay' = true) :
    relay' = relay := by
  have hactive := (RelayLifecycle.isCurrent_iff.mp h).2.2
  rw [(RelayLifecycle.isCurrent_iff.mp h').2.2] at hactive
  exact Option.some.inj hactive

end RemotePi.Host
