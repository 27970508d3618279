import RemotePi.Daemon.RpcChild
import RemotePi.Lib.Json
import RemotePi.Lib.Trim
import RemotePi.Lib.Utf8

/-!
# The output of a daemon's child

Model of the way from the standard output of a child to its readiness
(`pi-extension/src/daemon/rpc_child.ts`): `onStdout` with its buffer, the lines that it takes
out, and what a line says.

The processes are those of `ChildRun`. A chunk may come from any process that has been spawned,
also after its exit. A line counts as handled for the process that was spawned last, whose
runtime it is taken to be about.

Results:
* `takeLines_append`: the loop takes the same lines out of a text that comes in parts.
* `framed_run`: where no chunk splits a character, no text of an earlier process is left at a
  spawn and none comes later, every process has its own lines.
-/

namespace RemotePi.Daemon

open RemotePi.Lib

/-! ## Lines -/

/-- The lines that the loop of `onStdout` (lines 342–350) takes out of a buffer, and what it
    leaves there, after the characters of an unfinished line. -/
def takeLines (line : List Char) : List Char → List (List Char) × List Char
  | [] => ([], line)
  | c :: rest =>
    if c = '\n' then (line :: (takeLines [] rest).1, (takeLines [] rest).2)
    else takeLines (line ++ [c]) rest

/-- The newline-terminated lines of the decoding of some bytes. -/
def linesOf (bytes : List Byte) : List (List Char) := (takeLines [] (Utf8.decode bytes)).1

/-- The characters after the last of these lines. -/
def remainderOf (bytes : List Byte) : List Char := (takeLines [] (Utf8.decode bytes)).2

/-- `line.trim()` is empty. -/
def isBlank (line : List Char) : Bool := line.all isWhiteSpace

theorem takeLines_append (line text text' : List Char) :
    takeLines line (text ++ text') =
      ((takeLines line text).1 ++ (takeLines (takeLines line text).2 text').1,
        (takeLines (takeLines line text).2 text').2) := by
  induction text generalizing line with
  | nil => rfl
  | cons c rest ih =>
    rw [List.cons_append, takeLines, takeLines]
    by_cases hline : c = '\n'
    · rw [if_pos hline, if_pos hline, ih]
      rfl
    · rw [if_neg hline, if_neg hline, ih]

theorem takeLines_of_not_mem (line : List Char) {text : List Char} (h : '\n' ∉ text) :
    takeLines line text = ([], line ++ text) := by
  induction text generalizing line with
  | nil => rw [takeLines, List.append_nil]
  | cons c rest ih =>
    rw [List.mem_cons, not_or] at h
    rw [takeLines, if_neg (Ne.symm h.1), ih _ h.2, List.append_assoc]
    rfl

theorem newline_not_mem_takeLines {line : List Char} (h : '\n' ∉ line) (text : List Char) :
    '\n' ∉ (takeLines line text).2 := by
  induction text generalizing line with
  | nil => exact h
  | cons c rest ih =>
    rw [takeLines]
    by_cases hline : c = '\n'
    · rw [if_pos hline]
      exact ih List.not_mem_nil
    · rw [if_neg hline]
      refine ih ?_
      rw [List.mem_append, List.mem_singleton, not_or]
      exact ⟨h, Ne.symm hline⟩

/-- What the loop leaves can be put before the next characters. -/
theorem takeLines_remainder (text text' : List Char) :
    takeLines [] ((takeLines [] text).2 ++ text') = takeLines (takeLines [] text).2 text' := by
  have hnone := newline_not_mem_takeLines List.not_mem_nil text
  rw [takeLines_append, takeLines_of_not_mem [] hnone]
  rfl

/-- A chunk that splits no character adds its lines to those of the bytes before it. -/
theorem takeLines_chunk {bytes chunk : List Byte}
    (h : Utf8.splitsCharacter bytes chunk = false) :
    linesOf (bytes ++ chunk) =
        linesOf bytes ++ (takeLines [] (remainderOf bytes ++ Utf8.decode chunk)).1 ∧
      remainderOf (bytes ++ chunk) =
        (takeLines [] (remainderOf bytes ++ Utf8.decode chunk)).2 := by
  have htake : takeLines [] (remainderOf bytes ++ Utf8.decode chunk) =
      takeLines (remainderOf bytes) (Utf8.decode chunk) := takeLines_remainder _ _
  rw [htake, linesOf, linesOf, remainderOf, remainderOf, Utf8.decode_append h, takeLines_append]
  exact ⟨rfl, rfl⟩

/-! ## What a line says -/

/-- `RPC_CONTROL_STATUS_KEY` (line 53). -/
def rpcControlStatusKey : String := "remote-pi:control"

/-- A member that is a string. -/
def stringOf? (members : List (String × Json)) (key : String) : Option String :=
  match members.lookup key with
  | some (.string s) => some s
  | _ => none

/-- The members of a member that is an object. -/
def membersOf? (members : List (String × Json)) (key : String) : Option (List (String × Json)) :=
  match members.lookup key with
  | some (.object inner) => some inner
  | _ => none

section Messages

variable (parse : List Char → Option Json)

/-- `parseResponse` and the part of `handleResponse` that the runtime depends on
    (lines 362–391). -/
def stateReply? (line : List Char) : Option RuntimeMessage :=
  match parse line with
  | some (.object members) =>
    if stringOf? members "type" = some "response" ∧ (stringOf? members "id").isSome = true ∧
        stringOf? members "command" = some "get_state" then
      some (.stateReply (match members.lookup "success" with
        | some (.bool success) => success
        | _ => false))
    else none
  | _ => none

/-- The direct control event, or the one that a status request carries (lines 136–145). -/
def controlMembers (line : List Char) : Option (List (String × Json)) :=
  match parse line with
  | some (.object members) =>
    if stringOf? members "type" = some "extension_ui_request" ∧
        stringOf? members "method" = some "setStatus" ∧
        stringOf? members "statusKey" = some rpcControlStatusKey then
      match stringOf? members "statusText" with
      | none => none
      | some text =>
        match parse text.toList with
        | some (.object inner) => some inner
        | _ => none
    else some members
  | _ => none

/-- The type of a custom message (line 155). -/
def customTypeName (customType : String) : String :=
  let stripped := if "remote-pi:".toList.isPrefixOf customType.toList then
    customType.toList.drop "remote-pi:".length else customType.toList
  String.ofList (stripped.map fun c => if c = '-' then '_' else c)

/-- The type and the payload of an event, which a custom message may carry (lines 146–158). -/
def typeAndPayload (members : List (String × Json)) : Option String × List (String × Json) :=
  let type := stringOf? members "type"
  let container :=
    if type = some "entry_appended" then membersOf? members "entry"
    else if type = some "message_start" ∨ type = some "message_end" then
      membersOf? members "message"
    else none
  match container with
  | none => (type, members)
  | some custom =>
    match stringOf? custom "customType", membersOf? custom "details" with
    | some customType, some details => (some (customTypeName customType), details)
    | _, _ => (type, members)

/-- `payload["state"] ?? payload["status"]`, when it names a state of the relay. -/
def relayState? (payload : List (String × Json)) : Option RelayState :=
  let state := match payload.lookup "state" with
    | none | some .null => payload.lookup "status"
    | some value => some value
  match state with
  | some (.string "disconnected") => some .disconnected
  | some (.string "connecting") => some .connecting
  | some (.string "connected") => some .connected
  | some (.string "reconnecting") => some .reconnecting
  | _ => none

/-- `parseRuntimeEvent` (lines 135–190) with the checks of `acceptExtensionReady` against what
    the runtime was started with (lines 418–427). -/
def runtimeEvent? (endpointId instanceId : Option String) (line : List Char) :
    Option RuntimeMessage :=
  (controlMembers parse line).bind fun members =>
    let (type, payload) := typeAndPayload members
    if type = some "runtime_ready" then
      let version := match payload.lookup "control_protocol_version" with
        | some (.number n) => decide (n = 2)
        | _ => false
      some (.extensionReady version (decide (stringOf? payload "endpoint_id" = endpointId ∧
        stringOf? payload "runtime_instance_id" = instanceId)))
    else if type = some "runtime_failed" then
      match stringOf? payload "code", payload.lookup "retryable" with
      | some code, some (.bool retryable) => some (.runtimeFailed code retryable)
      | _, _ => none
    else if type = some "relay_state_changed" ∨ type = some "relay_state" then
      (relayState? payload).map .relayState
    else none

/-- `handleStdoutLine` (lines 352–360). -/
def messagesOf (endpointId instanceId : Option String) (line : List Char) : List RuntimeMessage :=
  (stateReply? parse line).toList ++ (runtimeEvent? parse endpointId instanceId line).toList

end Messages

/-! ## Evidence of readiness -/

/-- The runtime counts as ready only on a reply to `get_state` and a fitting `runtime_ready`
    among these messages, for a process that is there. -/
structure RpcChild.Shown (c : RpcChild) (seen : RuntimeMessage → Prop) : Prop where
  rpcReady : c.rpcReady = true → seen (.stateReply true)
  extensionReady : c.extensionReady = true → seen (.extensionReady true true)
  ready : c.runtime = .ready → c.rpcReady = true ∧ c.extensionReady = true ∧ c.child.isSome = true

namespace RpcChild.Shown

variable {c : RpcChild} {seen : RuntimeMessage → Prop}

theorem mono (h : c.Shown seen) {seen' : RuntimeMessage → Prop}
    (hle : ∀ message, seen message → seen' message) : c.Shown seen' :=
  ⟨fun hr => hle _ (h.rpcReady hr), fun he => hle _ (h.extensionReady he), h.ready⟩

theorem failRuntime (h : c.Shown seen) (code : String) (retryable : Bool) :
    (c.failRuntime code retryable).1.Shown seen := by
  unfold RpcChild.failRuntime
  by_cases hfailed : c.runtime = .failed
  · rw [if_pos hfailed]
    exact h
  · rw [if_neg hfailed]
    exact ⟨h.rpcReady, h.extensionReady, fun hready => by cases hready⟩

theorem maybeMarkReady (h : c.Shown seen) : c.maybeMarkReady.1.Shown seen := by
  unfold RpcChild.maybeMarkReady
  split_ifs with hnot
  · exact h
  · simp only [Bool.or_eq_true, not_or, Bool.not_eq_true', Bool.not_eq_false, Bool.not_eq_true,
      decide_eq_true_eq, Option.isNone_eq_false_iff] at hnot
    obtain ⟨⟨⟨hrpc, hextension⟩, -⟩, hchild⟩ := hnot
    exact ⟨h.rpcReady, h.extensionReady, fun _ => ⟨hrpc, hextension, hchild⟩⟩

theorem of_not_ready (hrpc : c.rpcReady = false) (hextension : c.extensionReady = false)
    (hready : c.runtime ≠ .ready) : c.Shown seen := by
  refine ⟨fun h => ?_, fun h => ?_, fun h => absurd h hready⟩
  · rw [hrpc] at h
    cases h
  · rw [hextension] at h
    cases h

/-- A process that is spawned has shown nothing. -/
theorem spawn (h : c.child.isSome = true → c.Shown seen) (process : ProcessId) (writes : Bool) :
    (c.spawn process writes).1.Shown seen := by
  unfold RpcChild.spawn
  by_cases hchild : c.child.isSome = true
  · rw [if_pos hchild]
    exact h hchild
  · rw [if_neg hchild]
    unfold RpcChild.startReadinessProbe
    cases writes with
    | true => exact of_not_ready rfl rfl (fun hready => by cases hready)
    | false =>
      dsimp only
      rw [if_neg Bool.false_ne_true]
      refine failRuntime ?_ _ _
      exact of_not_ready rfl rfl (fun hready => by cases hready)

theorem stop (h : c.Shown seen) (kills : Bool) : (c.stop kills).1.Shown seen := by
  unfold RpcChild.stop
  split_ifs
  · exact h
  · exact ⟨h.rpcReady, h.extensionReady, h.ready⟩

theorem onSpawn (h : c.Shown seen) (process : ProcessId) : (c.onSpawn process).Shown seen := by
  unfold RpcChild.onSpawn
  split_ifs
  · exact ⟨h.rpcReady, h.extensionReady, h.ready⟩
  · exact h

theorem onError (h : c.Shown seen) : c.onError.1.Shown seen := by
  have hfailed := h.failRuntime "spawn_failed" true
  exact ⟨hfailed.rpcReady, hfailed.extensionReady, hfailed.ready⟩

theorem onExit (h : c.Shown seen) : c.onExit.1.Shown seen := by
  refine ⟨h.rpcReady, h.extensionReady, fun hready => ?_⟩
  unfold RpcChild.onExit at hready
  dsimp only at hready
  split_ifs at hready

theorem onReadinessTimeout (h : c.Shown seen) : c.onReadinessTimeout.1.Shown seen := by
  unfold RpcChild.onReadinessTimeout
  split_ifs <;> exact h.failRuntime _ _

theorem onMessage (h : c.Shown seen) {message : RuntimeMessage} (hseen : seen message) :
    (c.onMessage message).1.Shown seen := by
  cases message with
  | stateReply success =>
    cases success with
    | false => exact h.failRuntime _ _
    | true =>
      refine maybeMarkReady ⟨fun _ => hseen, h.extensionReady, fun hready => ?_⟩
      obtain ⟨-, hextension, hchild⟩ := h.ready hready
      exact ⟨rfl, hextension, hchild⟩
  | extensionReady version identity =>
    unfold RpcChild.onMessage
    dsimp only
    split_ifs with hfailed hversion hidentity
    · exact h
    · exact h.failRuntime _ _
    · exact h.failRuntime _ _
    · have hboth : version = true ∧ identity = true := by
        cases version <;> cases identity <;> simp at hversion hidentity ⊢
      rw [hboth.1, hboth.2] at hseen
      refine maybeMarkReady ⟨h.rpcReady, fun _ => hseen, fun hready => ?_⟩
      obtain ⟨hrpc, -, hchild⟩ := h.ready hready
      exact ⟨hrpc, rfl, hchild⟩
  | runtimeFailed code retryable => exact h.failRuntime _ _
  | relayState state => exact ⟨h.rpcReady, h.extensionReady, h.ready⟩

/-- Handling messages that are seen. -/
theorem foldl_onMessage (h : c.Shown seen) {messages : List RuntimeMessage}
    (hseen : ∀ message ∈ messages, seen message) :
    (messages.foldl (fun c message => (c.onMessage message).1) c).Shown seen := by
  induction messages generalizing c with
  | nil => exact h
  | cons message rest ih =>
    refine ih (h.onMessage (hseen message List.mem_cons_self)) ?_
    intro other hother
    exact hseen other (List.mem_cons_of_mem _ hother)

end RpcChild.Shown

/-! ## Runs -/

/-- A child with its processes and the buffer of their output. The last two fields record, for
    every process, what it has written and the lines that have been handled for it. -/
structure OutputRun where
  run : ChildRun
  processes : List ProcessId
  latest : Option ProcessId
  stdoutBuf : List Char
  output : ProcessId → List Byte
  handled : ProcessId → List (List Char)

namespace OutputRun

def initial : OutputRun := ⟨.initial, [], none, [], fun _ => [], fun _ => []⟩

inductive Label where
  | spawn (writes : Bool)
  /-- A call or an event that is neither a spawn nor output. -/
  | other (label : ChildRun.Label)
  | stdout (process : ProcessId) (chunk : List Byte)

/-- What a line says to the runtime of a process. -/
structure Reader where
  parse : List Char → Option Json
  endpointId : Option String
  /-- `randomUUID` at the spawn of a process (line 243). -/
  instanceId : ProcessId → String

variable (reader : Reader)

def Reader.messages (process : ProcessId) (line : List Char) : List RuntimeMessage :=
  messagesOf reader.parse reader.endpointId (some (reader.instanceId process)) line

/-- `onStdout` (lines 342–350) for the process that was spawned last. -/
def onStdout (s : OutputRun) (latest process : ProcessId) (chunk : List Byte) : OutputRun :=
  let taken := takeLines [] (s.stdoutBuf ++ Utf8.decode chunk)
  let lines := taken.1.filter fun line => !isBlank line
  let messages := lines.flatMap (reader.messages latest)
  { s with
    run := { s.run with
      rpc := messages.foldl (fun rpc message => (rpc.onMessage message).1) s.run.rpc }
    stdoutBuf := taken.2
    output := Function.update s.output process (s.output process ++ chunk)
    handled := Function.update s.handled latest (s.handled latest ++ lines) }

/-- One call or event. A spawn while a process is held does nothing. -/
def step (s : OutputRun) : Label → Option OutputRun
  | .spawn writes =>
    (s.run.step (.spawn writes)).map fun run =>
      if s.run.rpc.child.isSome then { s with run }
      else
        { s with
          run
          processes := s.processes ++ [s.run.nextProcess]
          latest := some s.run.nextProcess }
  | .other (.spawn _) => none
  | .other (.message _) => none
  | .other label => (s.run.step label).map fun run => { s with run }
  | .stdout process chunk =>
    match s.latest with
    | none => none
    | some latest =>
      if process ∈ s.processes then some (s.onStdout reader latest process chunk) else none

/-- The lines of every process are its own: those of the decoding of what it has written, but
    for blank ones, which are skipped. And a process counts as ready only on its own lines. -/
structure Framed (s : OutputRun) : Prop where
  lines : ∀ process,
    s.handled process = (linesOf (s.output process)).filter fun line => !isBlank line
  noBlank : ∀ process, (∀ line ∈ linesOf (s.output process), isBlank line = false) →
    s.handled process = linesOf (s.output process)
  ready : s.run.rpc.runtime = .ready → ∃ process, s.run.rpc.child = some process ∧
    (∃ line ∈ linesOf (s.output process), .stateReply true ∈ reader.messages process line) ∧
    ∃ line ∈ linesOf (s.output process), .extensionReady true true ∈ reader.messages process line

/-- A spawn that starts a process finds no text of an earlier one in the buffer, and a chunk
    comes from the process that was spawned last and splits no character of its output. -/
def Met (s : OutputRun) : Label → Prop
  | .spawn _ => s.run.rpc.child = none → s.stdoutBuf = []
  | .other _ => True
  | .stdout process chunk =>
    s.latest = some process ∧ Utf8.splitsCharacter (s.output process) chunk = false

instance (s : OutputRun) (label : Label) : Decidable (s.Met label) := by
  cases label <;> unfold Met <;> infer_instance

/-- What the lines of a process have said. -/
def Said (s : OutputRun) (process : ProcessId) (message : RuntimeMessage) : Prop :=
  ∃ line ∈ s.handled process, message ∈ reader.messages process line

structure Inv (s : OutputRun) : Prop where
  lines : ∀ process,
    s.handled process = (linesOf (s.output process)).filter fun line => !isBlank line
  buffer : ∀ process, s.latest = some process → s.stdoutBuf = remainderOf (s.output process)
  held : ∀ process, s.run.rpc.child = some process → s.latest = some process
  fresh : ∀ process, s.run.nextProcess ≤ process → s.output process = []
  bounded : ∀ process ∈ s.processes, process < s.run.nextProcess
  unspawned : s.latest = none → s.stdoutBuf = []
  shown : s.run.rpc.Shown fun message => ∃ process, s.latest = some process ∧
    s.Said reader process message

theorem inv_initial : initial.Inv reader where
  lines process := rfl
  buffer process h := by cases h
  held process h := by cases h
  fresh process _ := rfl
  bounded process h := by cases h
  unspawned _ := rfl
  shown := RpcChild.Shown.of_not_ready rfl rfl fun h => by cases h

variable {reader} {s s' : OutputRun}

theorem Inv.framed (h : s.Inv reader) : s.Framed reader where
  lines := h.lines
  noBlank process hnone := by
    rw [h.lines process, List.filter_eq_self]
    intro line hline
    rw [hnone line hline]
    rfl
  ready hready := by
    obtain ⟨hrpc, hextension, hchild⟩ := h.shown.ready hready
    obtain ⟨process, hprocess⟩ := Option.isSome_iff_exists.mp hchild
    have hlatest := h.held process hprocess
    have hown : ∀ message, (∃ other, s.latest = some other ∧ s.Said reader other message) →
        ∃ line ∈ linesOf (s.output process), message ∈ reader.messages process line := by
      rintro message ⟨other, hother, line, hline, hmessage⟩
      rw [hlatest] at hother
      cases hother
      rw [h.lines process] at hline
      exact ⟨line, List.mem_of_mem_filter hline, hmessage⟩
    exact ⟨process, hprocess, hown _ (h.shown.rpcReady hrpc),
      hown _ (h.shown.extensionReady hextension)⟩

theorem Inv.spawn (h : s.Inv reader) {writes : Bool} (hmet : s.Met (.spawn writes))
    (hstep : s.step reader (.spawn writes) = some s') : s'.Inv reader := by
  simp only [step, Option.map_eq_some_iff] at hstep
  obtain ⟨run, hrun, rfl⟩ := hstep
  cases hrun
  cases hchild : s.run.rpc.child with
  | some process =>
    rw [if_pos Option.isSome_some]
    have hspawn : (s.run.rpc.spawn s.run.nextProcess writes).1 = s.run.rpc := by
      rw [RpcChild.spawn, hchild, if_pos Option.isSome_some]
    refine ⟨h.lines, h.buffer, ?_, ?_, ?_, h.unspawned, ?_⟩
    · intro other hother
      rw [hspawn] at hother
      exact h.held other hother
    · intro other hle
      exact h.fresh other (Nat.le_of_succ_le hle)
    · intro other hmem
      exact Nat.lt_succ_of_lt (h.bounded other hmem)
    · rw [hspawn]
      exact h.shown
  | none =>
    rw [if_neg (by simp)]
    have hempty : s.stdoutBuf = [] := hmet hchild
    refine ⟨h.lines, ?_, ?_, ?_, ?_, ?_, ?_⟩
    · intro process hlatest
      cases hlatest
      show s.stdoutBuf = remainderOf (s.output s.run.nextProcess)
      rw [hempty, h.fresh _ (Nat.le_refl _)]
      rfl
    · intro process hheld
      rw [RpcChild.child_spawn, hchild] at hheld
      exact hheld
    · intro process hle
      exact h.fresh process (Nat.le_of_succ_le hle)
    · intro process hmem
      rcases List.mem_append.mp hmem with hmem | hmem
      · exact Nat.lt_succ_of_lt (h.bounded process hmem)
      · rw [List.mem_singleton.mp hmem]
        exact Nat.lt_succ_self _
    · intro hnone
      cases hnone
    · refine RpcChild.Shown.spawn (fun hsome => ?_) _ _
      rw [hchild] at hsome
      cases hsome

theorem Inv.of_rpc (h : s.Inv reader) {run : ChildRun}
    (hchild : ∀ process, run.rpc.child = some process → s.run.rpc.child = some process)
    (hnext : s.run.nextProcess ≤ run.nextProcess)
    (hshown : ∀ seen, s.run.rpc.Shown seen → run.rpc.Shown seen) :
    ({ s with run } : OutputRun).Inv reader where
  lines := h.lines
  buffer := h.buffer
  held process hprocess := h.held process (hchild process hprocess)
  fresh process hle := h.fresh process (Nat.le_trans hnext hle)
  bounded process hmem := Nat.lt_of_lt_of_le (h.bounded process hmem) hnext
  unspawned := h.unspawned
  shown := hshown _ h.shown

theorem Inv.other (h : s.Inv reader) {label : ChildRun.Label}
    (hstep : s.step reader (.other label) = some s') : s'.Inv reader := by
  cases label with
  | spawn writes => cases hstep
  | message message => cases hstep
  | stop kills =>
    simp only [step, Option.map_eq_some_iff] at hstep
    obtain ⟨run, hrun, rfl⟩ := hstep
    cases hrun
    refine h.of_rpc (fun process => ?_) (Nat.le_refl _) fun seen hseen => hseen.stop kills
    rw [RpcChild.child_stop]
    exact id
  | spawned process =>
    simp only [step, Option.map_eq_some_iff] at hstep
    obtain ⟨run, hrun, rfl⟩ := hstep
    simp only [ChildRun.step] at hrun
    split_ifs at hrun
    cases hrun
    refine h.of_rpc (fun process => ?_) (Nat.le_refl _) fun seen hseen => hseen.onSpawn _
    rw [RpcChild.child_onSpawn]
    exact id
  | spawnFailed process =>
    simp only [step, Option.map_eq_some_iff] at hstep
    obtain ⟨run, hrun, rfl⟩ := hstep
    simp only [ChildRun.step] at hrun
    split_ifs at hrun
    cases hrun
    refine h.of_rpc (fun process => ?_) (Nat.le_refl _) fun seen hseen => hseen.onError
    rw [RpcChild.child_onError]
    exact id
  | exited process =>
    simp only [step, Option.map_eq_some_iff] at hstep
    obtain ⟨run, hrun, rfl⟩ := hstep
    simp only [ChildRun.step] at hrun
    split_ifs at hrun
    cases hrun
    refine h.of_rpc (fun process hheld => ?_) (Nat.le_refl _) fun seen hseen => hseen.onExit
    cases hheld
  | readinessTimeout =>
    simp only [step, Option.map_eq_some_iff] at hstep
    obtain ⟨run, hrun, rfl⟩ := hstep
    simp only [ChildRun.step] at hrun
    split_ifs at hrun
    cases hrun
    refine h.of_rpc (fun process => ?_) (Nat.le_refl _) fun seen hseen => ?_
    · rw [RpcChild.child_onReadinessTimeout]
      exact id
    · exact RpcChild.Shown.onReadinessTimeout ⟨hseen.rpcReady, hseen.extensionReady, hseen.ready⟩

theorem child_foldl_onMessage (messages : List RuntimeMessage) (c : RpcChild) :
    (messages.foldl (fun c message => (c.onMessage message).1) c).child = c.child := by
  induction messages generalizing c with
  | nil => rfl
  | cons message rest ih => exact (ih _).trans (RpcChild.child_onMessage c message)

/-- A chunk of the last process that splits no character adds to its own lines. -/
theorem Inv.stdout (h : s.Inv reader) {process : ProcessId} {chunk : List Byte}
    (hmet : s.Met (.stdout process chunk))
    (hstep : s.step reader (.stdout process chunk) = some s') : s'.Inv reader := by
  obtain ⟨hlatest, hsplits⟩ := hmet
  simp only [step, hlatest] at hstep
  split_ifs at hstep with hmem
  cases hstep
  obtain ⟨hlines, hrest⟩ := takeLines_chunk hsplits
  rw [← h.buffer process hlatest] at hlines hrest
  have hsaid : ∀ message, (∃ other, s.latest = some other ∧ s.Said reader other message) →
      ∃ other, s.latest = some other ∧
        (s.onStdout reader process process chunk).Said reader other message := by
    rintro message ⟨other, hother, line, hline, hmessage⟩
    refine ⟨other, hother, line, ?_, hmessage⟩
    rw [hlatest] at hother
    cases hother
    show line ∈ Function.update s.handled process _ process
    rw [Function.update_self]
    exact List.mem_append_left _ hline
  refine ⟨?_, ?_, ?_, ?_, h.bounded, ?_, ?_⟩
  · intro other
    show Function.update s.handled process _ other =
      (linesOf (Function.update s.output process _ other)).filter _
    by_cases hother : other = process
    · subst hother
      rw [Function.update_self, Function.update_self, hlines, List.filter_append, h.lines other]
    · rw [Function.update_of_ne hother, Function.update_of_ne hother]
      exact h.lines other
  · intro other hother
    have hsame : s.latest = some other := hother
    rw [hlatest] at hsame
    cases hsame
    show _ = remainderOf (Function.update s.output process _ process)
    rw [Function.update_self, hrest]
    rfl
  · intro other hother
    refine h.held other ?_
    rw [← hother]
    exact (child_foldl_onMessage _ _).symm
  · intro other hle
    have hne : other ≠ process := by
      rintro rfl
      exact Nat.lt_irrefl _ (Nat.lt_of_lt_of_le (h.bounded other hmem) hle)
    show Function.update s.output process _ other = []
    rw [Function.update_of_ne hne]
    exact h.fresh other hle
  · intro hnone
    have hsame : s.latest = none := hnone
    rw [hlatest] at hsame
    cases hsame
  · refine RpcChild.Shown.foldl_onMessage (h.shown.mono hsaid) ?_
    intro message hmessage
    obtain ⟨line, hline, hsays⟩ := List.mem_flatMap.mp hmessage
    refine ⟨process, hlatest, line, ?_, hsays⟩
    show line ∈ Function.update s.handled process _ process
    rw [Function.update_self]
    exact List.mem_append_right _ hline

theorem Inv.step (h : s.Inv reader) {label : Label} (hmet : s.Met label)
    (hstep : s.step reader label = some s') : s'.Inv reader := by
  cases label with
  | spawn writes => exact h.spawn hmet hstep
  | other label => exact h.other hstep
  | stdout process chunk => exact h.stdout hmet hstep

end OutputRun

/-- In every run in which no spawn finds text in the buffer, and every chunk comes from the
    process that was spawned last and splits no character, each process has exactly its own
    lines, however they were cut, and counts as ready only on them. -/
theorem framed_run (reader : OutputRun.Reader) {labels : List OutputRun.Label} {s : OutputRun}
    (hmet : Along (OutputRun.step reader) OutputRun.Met .initial labels)
    (hrun : run (OutputRun.step reader) .initial labels = some s) : s.Framed reader :=
  (invariant_along (fun _ _ _ (h : OutputRun.Inv reader _) hmet hstep => h.step hmet hstep)
    (OutputRun.inv_initial reader) hmet hrun).framed

/-! ## Pieces of lines -/

/-- The bytes with these values. -/
def bytesOf (values : List ℕ) : List Byte := values.map Utf8.byte

/-- A reader to which no line says anything. -/
def silentReader : OutputRun.Reader := ⟨fun _ => none, none, fun _ => ""⟩

/-- The letter é in one chunk, and the rest of its line in the next. -/
def wholeCharacters : List OutputRun.Label :=
  [.spawn true, .other (.spawned 0), .stdout 0 (bytesOf [0xc3, 0xa9]),
    .stdout 0 (bytesOf [0x61, 0x0a])]

/-- The letter é in two chunks. -/
def splitCharacter : List OutputRun.Label :=
  [.spawn true, .other (.spawned 0), .stdout 0 (bytesOf [0xc3]),
    .stdout 0 (bytesOf [0xa9, 0x0a])]

/-- A process exits after a text without its newline; the next one writes a line. -/
def leftText : List OutputRun.Label :=
  [.spawn true, .other (.spawned 0), .stdout 0 (bytesOf [0x61]), .other (.exited 0),
    .spawn true, .other (.spawned 1), .stdout 1 (bytesOf [0x62, 0x0a])]

/-- What is handled for a process after some labels, and the lines of what it has written. -/
def linesAfter (labels : List OutputRun.Label) (process : ProcessId) :
    Option (List (List Char) × List (List Char)) :=
  (run (OutputRun.step silentReader) .initial labels).map fun s =>
    (s.handled process, linesOf (s.output process))

/-- Where the text is cut between characters, the line is handled as it was written. -/
theorem wholeCharacters_framed :
    ((run (OutputRun.step silentReader) .initial wholeCharacters).map fun s => s.handled 0) =
      some [['é', 'a']] := by
  have hmet : Along (OutputRun.step silentReader) OutputRun.Met .initial wholeCharacters := by
    decide
  have hlines : (linesAfter wholeCharacters 0).map Prod.snd = some [['é', 'a']] := by decide
  unfold linesAfter at hlines
  rw [Option.map_map, Option.map_eq_some_iff] at hlines
  obtain ⟨s, hrun, hlines⟩ := hlines
  have hown : linesOf (s.output 0) = [['é', 'a']] := hlines
  rw [hrun, Option.map_some, (framed_run silentReader hmet hrun).lines 0, hown]
  decide

/-- A process of which other lines are handled than it has written. -/
theorem not_framed_of_linesAfter {labels : List OutputRun.Label} {process : ProcessId}
    {lines own : List (List Char)} (h : linesAfter labels process = some (lines, own))
    (hne : lines ≠ own.filter fun line => !isBlank line) {s : OutputRun}
    (hrun : run (OutputRun.step silentReader) .initial labels = some s) :
    ¬s.Framed silentReader := by
  intro hframed
  rw [linesAfter, hrun, Option.map_some] at h
  cases h
  exact hne (hframed.lines process)

/-- A process writes é and a newline, and two replacement characters are handled for it; the text
    of a process that is gone begins a line of the next one. -/
theorem split_character_replaced :
    (∃ s, run (OutputRun.step silentReader) .initial splitCharacter = some s ∧
        s.handled 0 = [[Utf8.replacement, Utf8.replacement]] ∧ linesOf (s.output 0) = [['é']] ∧
        ¬s.Framed silentReader) ∧
      ∃ s, run (OutputRun.step silentReader) .initial leftText = some s ∧
        s.handled 1 = [['a', 'b']] ∧ linesOf (s.output 1) = [['b']] ∧ ¬s.Framed silentReader := by
  have hsplit : linesAfter splitCharacter 0 =
      some ([[Utf8.replacement, Utf8.replacement]], [['é']]) := by decide
  have hleft : linesAfter leftText 1 = some ([['a', 'b']], [['b']]) := by decide
  obtain ⟨s, hs, hslines⟩ := Option.map_eq_some_iff.mp hsplit
  obtain ⟨t, ht, htlines⟩ := Option.map_eq_some_iff.mp hleft
  obtain ⟨hs₁, hs₂⟩ := Prod.mk.inj hslines
  obtain ⟨ht₁, ht₂⟩ := Prod.mk.inj htlines
  exact ⟨⟨s, hs, hs₁, hs₂, not_framed_of_linesAfter hsplit (by decide) hs⟩,
    t, ht, ht₁, ht₂, not_framed_of_linesAfter hleft (by decide) ht⟩

end RemotePi.Daemon
