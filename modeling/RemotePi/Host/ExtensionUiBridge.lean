import RemotePi.Host.AskEvents
import RemotePi.Lib.LastEvent
import RemotePi.Lib.OrderedMap
import RemotePi.Lib.Trace

/-!
# The bridge of the clarification flows

Model of `createExtensionUiBridge` (`pi-extension/src/extension_ui_bridge.ts`): the flows that
`pi-ask` has started and not completed, their timers, and the answers of the app.

A timer of the host is an object of its own until it fires or is cleared; it fires at some time
after its deadline. The bridge broadcasts and emits as the last thing that it does on an event.

Results:
* `requestForFlow_options`: the labels that a client without the envelope can choose from.
* `flows_of_log`: what is pending, and for how long, by what the bridge has sent.
* `strict_answer`: what such a client chooses is what `pi-ask` gets.
-/

namespace RemotePi.Host

open RemotePi.Lib

/-! ## Frames -/

/-- `AskEnrichmentWire` (`protocol/types.ts`, lines 67–73): a flow with all its questions. -/
abbrev AskEnrichment := ActiveFlow

inductive NotifyType where
  | info
  | warning
  | error
deriving DecidableEq, Repr

/-- The `extension_ui_request` frames that the bridge sends, by their method. -/
inductive UiMethod where
  | select (title : String) (options : List String) (ask : AskEnrichment)
  | input (title : String) (placeholder : Option String) (ask : AskEnrichment)
  | notify (message : String) (notifyType : Option NotifyType)
deriving DecidableEq, Repr

structure UiRequest where
  targetChannelId : String
  id : String
  method : UiMethod
deriving DecidableEq, Repr

/-- `requestForFlow` (lines 308–347). -/
def requestForFlow (flow : ActiveFlow) : UiRequest :=
  let title := flow.title.getD flow.first.prompt
  let options := flow.first.options.map fun option => option.label.val
  { targetChannelId := flow.flowId
    id := flow.flowId
    method :=
      if options = [] then .input title (some flow.first.prompt) flow
      else .select title options flow }

def notifyFlow (flowId message : String) (notifyType : Option NotifyType) : UiRequest :=
  ⟨flowId, flowId, .notify message notifyType⟩

/-- `AskAnswerWire`. -/
structure AskAnswer where
  values : Option (List String)
  customText : Option String
  note : Option String
  optionNotes : Option (List (String × String))
deriving DecidableEq, Repr

inductive AskMode where
  | submit
  | elaborate
deriving DecidableEq, Repr

/-- `AskResponseEnrichmentWire`. -/
inductive AskResponse where
  | answer (flowId : String) (mode : Option AskMode) (answers : List (String × AskAnswer))
  | cancel (flowId : String)
deriving DecidableEq, Repr

def AskResponse.flowId : AskResponse → String
  | .answer flowId _ _ => flowId
  | .cancel flowId => flowId

/-- What an `extension_ui_response` has beside the envelope. -/
inductive UiAnswer where
  | value (text : String)
  | confirmed (value : Bool)
  | cancelled
  | none
deriving DecidableEq, Repr

structure UiResponse where
  id : String
  answer : UiAnswer
  ask : Option AskResponse
deriving DecidableEq, Repr

/-- The `response` of a submit event. -/
inductive Submission where
  | answer (mode : Option AskMode) (answers : List (String × AskAnswer))
  | cancel
deriving DecidableEq, Repr

/-! ## The bridge -/

def flowTtlMs : ℕ := 10 * 60 * 1000

/-- A timer that is set and has not fired. -/
structure Timeout where
  id : ℕ
  flowId : String
  deadline : ℕ
deriving DecidableEq, Repr

/-- What the bridge sends: a frame to the app, by the place of the `broadcast`, or an event to
    `pi-ask`. Its disposal sends nothing. -/
inductive FlowEvent where
  | opened (flow : ActiveFlow) (time : ℕ)
  | expired (flowId : String) (time : ℕ)
  | resolved (flowId : String)
  | refused (flowId message : String)
  | submitted (requestId flowId : String) (response : Submission)
  | disposed
deriving DecidableEq, Repr

/-- The frame that is broadcast. -/
def FlowEvent.frame : FlowEvent → Option UiRequest
  | .opened flow _ => some (requestForFlow flow)
  | .expired flowId _ =>
    some (notifyFlow flowId "Clarification expired on the bridge — retry or answer on desktop."
      (some .warning))
  | .resolved flowId => some (notifyFlow flowId "Clarification resolved." none)
  | .refused flowId message => some (notifyFlow flowId message (some .warning))
  | .submitted _ _ _ => none
  | .disposed => none

structure Bridge where
  now : ℕ
  activeFlows : OrderedMap String ActiveFlow
  flowTimers : OrderedMap String ℕ
  timeouts : List Timeout
  nextTimeout : ℕ
  subscribed : Bool

namespace Bridge

def initial : Bridge where
  now := 0
  activeFlows := .empty
  flowTimers := .empty
  timeouts := []
  nextTimeout := 0
  subscribed := true

def clearTimeout (b : Bridge) (timer : ℕ) : Bridge :=
  { b with timeouts := b.timeouts.filter fun timeout => timeout.id ≠ timer }

/-- `clearFlowTtl` (lines 102–108). -/
def clearFlowTtl (b : Bridge) (flowId : String) : Bridge :=
  match b.flowTimers.get? flowId with
  | none => b
  | some timer => { b.clearTimeout timer with flowTimers := b.flowTimers.erase flowId }

/-- `armFlowTtl` (lines 109–133). -/
def armFlowTtl (b : Bridge) (flowId : String) : Bridge :=
  let b := b.clearFlowTtl flowId
  { b with
    flowTimers := b.flowTimers.set flowId b.nextTimeout
    timeouts := b.timeouts ++ [⟨b.nextTimeout, flowId, b.now + flowTtlMs⟩]
    nextTimeout := b.nextTimeout + 1 }

/-- A timer fires (lines 113–131). -/
def onTimeout (b : Bridge) (timeout : Timeout) : Bridge × List FlowEvent :=
  let b := b.clearTimeout timeout.id
  if b.activeFlows.contains timeout.flowId then
    ({ b with
        activeFlows := b.activeFlows.erase timeout.flowId
        flowTimers := b.flowTimers.erase timeout.flowId }, [.expired timeout.flowId b.now])
  else (b, [])

/-- The listener of the `started` events (lines 135–148). -/
def onStarted (b : Bridge) (raw : Json) : Bridge × List FlowEvent :=
  match parseStartedEvent raw with
  | none => (b, [])
  | some flow =>
    ({ b with activeFlows := b.activeFlows.set flow.flowId flow }.armFlowTtl flow.flowId,
      [.opened flow b.now])

/-- The listener of the `completed` events (lines 150–167). -/
def onCompleted (b : Bridge) (raw : Json) : Bridge × List FlowEvent :=
  match completedFlow raw with
  | none => (b, [])
  | some flowId =>
    let b := b.clearFlowTtl flowId
    ({ b with activeFlows := b.activeFlows.erase flowId }, [.resolved flowId])

/-- The flow of a `submit-result` that names none (lines 194–201). -/
def onlyFlow (b : Bridge) : Option String :=
  match b.activeFlows.keys with
  | [flowId] => some flowId
  | _ => none

/-- The listener of the `submit-result` events (lines 175–212). -/
def onSubmitResult (b : Bridge) (raw : Json) : List FlowEvent :=
  match submitError raw with
  | none => []
  | some (named, message) =>
    match named.or b.onlyFlow with
    | none => []
    | some flowId => if flowId = "" then [] else [.refused flowId message]

def isCancel (response : UiResponse) : Bool :=
  response.answer = .cancelled ||
    match response.ask with
    | some (.cancel _) => true
    | _ => false

/-- The answer to a question of a client that knows labels only (lines 247–258). -/
def degradedAnswer (question : AskQuestion) (label : String) : AskAnswer :=
  match question.options.find? fun option => option.label.val = label with
  | some option => ⟨some [option.value.val], none, none, none⟩
  | none => ⟨none, if label = "" then none else some label, none, none⟩

/-- `respond` (lines 214–264). -/
def respond (b : Bridge) (response : UiResponse) : List FlowEvent :=
  if isCancel response then
    match (response.ask.map AskResponse.flowId).or
      (if b.activeFlows.contains response.id then some response.id else none) with
    | none => []
    | some flowId => if flowId = "" then [] else [.submitted response.id flowId .cancel]
  else
    match response.ask with
    | some (.answer flowId mode answers) =>
      [.submitted response.id flowId (.answer mode answers)]
    | _ =>
      match b.activeFlows.get? response.id with
      | none => []
      | some flow =>
        let label :=
          match response.answer with
          | .value text => text
          | _ => ""
        [.submitted response.id flow.flowId
          (.answer (some .submit) [(flow.first.id, degradedAnswer flow.first label)])]

/-- `pendingRequests` (line 295). -/
def pendingRequests (b : Bridge) : List UiRequest := b.activeFlows.values.map requestForFlow

/-- `dispose` (lines 296–303). -/
def dispose (b : Bridge) : Bridge :=
  { b with
    subscribed := false
    timeouts := b.timeouts.filter fun timeout => timeout.id ∉ b.flowTimers.values
    flowTimers := .empty
    activeFlows := .empty }

/-! ## Steps -/

inductive Label where
  | tick (ms : ℕ)
  | started (raw : Json)
  | completed (raw : Json)
  | submitResult (raw : Json)
  /-- The timer with this number fires. -/
  | timeout (timer : ℕ)
  | respond (response : UiResponse)
  | dispose

def move (b : Bridge) : Label → Option (Bridge × List FlowEvent)
  | .tick ms => some ({ b with now := b.now + ms }, [])
  | .started raw => if b.subscribed then some (b.onStarted raw) else none
  | .completed raw => if b.subscribed then some (b.onCompleted raw) else none
  | .submitResult raw => if b.subscribed then some (b, b.onSubmitResult raw) else none
  | .timeout timer =>
    (b.timeouts.find? fun timeout => timeout.id = timer && timeout.deadline ≤ b.now).map
      b.onTimeout
  | .respond response => some (b, b.respond response)
  | .dispose => some (b.dispose, [.disposed])

/-- A step of the bridge and the log of what it has sent. -/
def step : Bridge × List FlowEvent → Label → Option (Bridge × List FlowEvent) := logged move

/-! ## What the log says of a flow -/

/-- The event opens, renews or ends the flow of this id. -/
def about (id : String) : FlowEvent → Bool
  | .opened flow _ => flow.flowId = id
  | .expired flowId _ => flowId = id
  | .resolved flowId => flowId = id
  | .refused _ _ => false
  | .submitted _ _ _ => false
  | .disposed => true

/-- The event ends the flow of this id. -/
def ends (id : String) : FlowEvent → Bool
  | .opened _ _ => false
  | event => about id event

/-- The last opening of the flow, when nothing about it has come since. -/
def openingBy (log : List FlowEvent) (id : String) : Option (ActiveFlow × ℕ) :=
  (lastOf (about id) log).bind fun event =>
    match event with
    | .opened flow time => some (flow, time)
    | _ => none

/-- The flow that is pending by the log. -/
def pendingBy (log : List FlowEvent) (id : String) : Option ActiveFlow :=
  (openingBy log id).map Prod.fst

/-- When the flow that is pending by the log expires. -/
def deadlineBy (log : List FlowEvent) (id : String) : Option ℕ :=
  (openingBy log id).map fun opening => opening.2 + flowTtlMs

/-- At some time the first flow was open and the second was not, and the first has not ended
    since. -/
def Precedes (log : List FlowEvent) (id id' : String) : Prop :=
  ∃ before after, log = before ++ after ∧ (pendingBy before id).isSome = true ∧
    pendingBy before id' = none ∧ ∀ event ∈ after, ends id event = false

/-- A flow expires when it is open since its time to live. -/
def Overdue (before : List FlowEvent) : FlowEvent → Prop
  | .expired flowId time => ∃ deadline, deadlineBy before flowId = some deadline ∧ deadline ≤ time
  | _ => True

section Log

variable {log : List FlowEvent} {event : FlowEvent} {id id' : String}

theorem about_of_ends (h : ends id event = true) : about id event = true := by
  cases event with
  | opened flow time => cases h
  | _ => exact h

theorem openingBy_append_of_not_about (h : about id event = false) :
    openingBy (log ++ [event]) id = openingBy log id := by
  unfold openingBy
  rw [lastOf_append_of_forall (by simpa using h)]

theorem openingBy_opened (flow : ActiveFlow) (time : ℕ) :
    openingBy (log ++ [.opened flow time]) flow.flowId = some (flow, time) := by
  have habout : about flow.flowId (.opened flow time) = true := decide_eq_true rfl
  unfold openingBy
  rw [lastOf_append_singleton habout]
  rfl

theorem openingBy_of_ends (h : ends id event = true) : openingBy (log ++ [event]) id = none := by
  unfold openingBy
  rw [lastOf_append_singleton (about_of_ends h)]
  cases event with
  | opened flow time => cases h
  | _ => rfl

theorem pendingBy_append_of_not_about (h : about id event = false) :
    pendingBy (log ++ [event]) id = pendingBy log id := by
  unfold pendingBy
  rw [openingBy_append_of_not_about h]

theorem deadlineBy_append_of_not_about (h : about id event = false) :
    deadlineBy (log ++ [event]) id = deadlineBy log id := by
  unfold deadlineBy
  rw [openingBy_append_of_not_about h]

theorem isSome_deadlineBy : (deadlineBy log id).isSome = (pendingBy log id).isSome := by
  unfold deadlineBy pendingBy
  rw [Option.isSome_map, Option.isSome_map]

theorem flowId_of_pendingBy {flow : ActiveFlow} (h : pendingBy log id = some flow) :
    flow.flowId = id := by
  unfold pendingBy openingBy at h
  cases hlast : lastOf (about id) log with
  | none =>
    rw [hlast] at h
    cases h
  | some event =>
    rw [hlast] at h
    obtain ⟨habout, -⟩ := lastOf_eq_some.mp hlast
    cases event with
    | opened flow' time =>
      cases h
      exact of_decide_eq_true habout
    | _ => cases h

theorem Precedes.append (h : Precedes log id id') (hends : ends id event = false) :
    Precedes (log ++ [event]) id id' := by
  obtain ⟨before, after, rfl, hopen, hclosed, hafter⟩ := h
  refine ⟨before, after ++ [event], by rw [List.append_assoc], hopen, hclosed, ?_⟩
  intro later hmem
  rcases List.mem_append.mp hmem with hmem | hmem
  · exact hafter later hmem
  · rw [List.mem_singleton.mp hmem]
    exact hends

end Log

/-! ## Timers -/

/-- The timers that are set are those of `flowTimers`. -/
structure Timed (b : Bridge) : Prop where
  timers : ∀ timeout ∈ b.timeouts, b.flowTimers.get? timeout.flowId = some timeout.id
  set : ∀ id timer, b.flowTimers.get? id = some timer →
    ∃ timeout ∈ b.timeouts, timeout.flowId = id ∧ timeout.id = timer
  nodup : (b.timeouts.map Timeout.id).Nodup
  fresh : ∀ timeout ∈ b.timeouts, timeout.id < b.nextTimeout

section Timed

variable {b : Bridge} {id : String} {timeout timeout' : Timeout}

theorem timed_initial : Timed initial where
  timers timeout h := by cases h
  set id timer h := by cases h
  nodup := .nil
  fresh timeout h := by cases h

theorem Timed.withFlows (h : b.Timed) (activeFlows : OrderedMap String ActiveFlow) :
    Timed { b with activeFlows } := ⟨h.timers, h.set, h.nodup, h.fresh⟩

theorem Timed.eq_of_id (h : b.Timed) (hmem : timeout ∈ b.timeouts) (hmem' : timeout' ∈ b.timeouts)
    (hid : timeout.id = timeout'.id) : timeout = timeout' :=
  List.inj_on_of_nodup_map h.nodup hmem hmem' hid

/-- The timer of a flow is its only one. -/
theorem Timed.eq_of_flowId (h : b.Timed) (hmem : timeout ∈ b.timeouts)
    (hmem' : timeout' ∈ b.timeouts) (hid : timeout.flowId = timeout'.flowId) :
    timeout = timeout' := by
  refine h.eq_of_id hmem hmem' (Option.some.inj ?_)
  rw [← h.timers timeout hmem, ← h.timers timeout' hmem', hid]

/-- The timer with this number is that of its flow. -/
theorem Timed.clearTimeout_eq (h : b.Timed) (hmem : timeout ∈ b.timeouts) :
    b.clearTimeout timeout.id =
      { b with timeouts := b.timeouts.filter fun other => other.flowId ≠ timeout.flowId } := by
  unfold clearTimeout
  congr 1
  refine List.filter_congr fun other hother => ?_
  refine decide_eq_decide.mpr (not_congr ⟨fun hid => ?_, fun hid => ?_⟩)
  · rw [h.eq_of_id hother hmem hid]
  · rw [h.eq_of_flowId hother hmem hid]

theorem Timed.clearFlowTtl_eq (h : b.Timed) (id : String) :
    b.clearFlowTtl id =
      { b with
        flowTimers := b.flowTimers.erase id
        timeouts := b.timeouts.filter fun timeout => timeout.flowId ≠ id } := by
  unfold clearFlowTtl
  cases hget : b.flowTimers.get? id with
  | none =>
    have hall : b.timeouts.filter (fun timeout => timeout.flowId ≠ id) = b.timeouts := by
      refine List.filter_eq_self.mpr fun timeout hmem => decide_eq_true ?_
      rintro rfl
      rw [h.timers timeout hmem] at hget
      cases hget
    rw [hall, OrderedMap.erase_of_none hget]
  | some timer =>
    obtain ⟨timeout, hmem, rfl, rfl⟩ := h.set id timer hget
    dsimp only
    rw [h.clearTimeout_eq hmem]

theorem Timed.erase (h : b.Timed) (id : String) :
    Timed { b with
      flowTimers := b.flowTimers.erase id
      timeouts := b.timeouts.filter fun timeout => timeout.flowId ≠ id } where
  timers timeout hmem := by
    obtain ⟨hmem, hne⟩ := List.mem_filter.mp hmem
    rw [OrderedMap.get?_erase_of_ne _ (of_decide_eq_true hne)]
    exact h.timers timeout hmem
  set id' timer hget := by
    rw [OrderedMap.get?_erase] at hget
    split_ifs at hget with hne
    obtain ⟨timeout, hmem, rfl, rfl⟩ := h.set id' timer hget
    exact ⟨timeout, List.mem_filter.mpr ⟨hmem, decide_eq_true hne⟩, rfl, rfl⟩
  nodup := h.nodup.sublist (List.filter_sublist.map _)
  fresh timeout hmem := h.fresh timeout (List.mem_of_mem_filter hmem)

theorem Timed.armFlowTtl_eq (h : b.Timed) (id : String) :
    b.armFlowTtl id =
      { b with
        flowTimers := (b.flowTimers.erase id).set id b.nextTimeout
        timeouts := (b.timeouts.filter fun timeout => timeout.flowId ≠ id) ++
          [⟨b.nextTimeout, id, b.now + flowTtlMs⟩]
        nextTimeout := b.nextTimeout + 1 } := by
  unfold armFlowTtl
  rw [h.clearFlowTtl_eq]

theorem Timed.armFlowTtl (h : b.Timed) (id : String) : (b.armFlowTtl id).Timed := by
  have herase := h.erase id
  rw [h.armFlowTtl_eq]
  refine ⟨fun timeout hmem => ?_, fun id' timer hget => ?_, ?_, fun timeout hmem => ?_⟩
  · rcases List.mem_append.mp hmem with hmem | hmem
    · rw [OrderedMap.get?_set_of_ne _ _ (of_decide_eq_true (List.mem_filter.mp hmem).2)]
      exact herase.timers timeout hmem
    · rw [List.mem_singleton.mp hmem]
      exact OrderedMap.get?_set_self _ _ _
  · rw [OrderedMap.get?_set] at hget
    split_ifs at hget with heq
    · cases hget
      exact ⟨_, List.mem_append_right _ (List.mem_singleton_self _), heq.symm, rfl⟩
    · obtain ⟨timeout, hmem, hid⟩ := herase.set id' timer hget
      exact ⟨timeout, List.mem_append_left _ hmem, hid⟩
  · rw [List.map_append]
    refine List.Nodup.append herase.nodup (List.nodup_singleton _) ?_
    intro timer hold hnew
    obtain ⟨timeout, hmem, rfl⟩ := List.mem_map.mp hold
    rw [List.map_singleton, List.mem_singleton] at hnew
    exact absurd hnew (Nat.ne_of_lt (herase.fresh timeout hmem))
  · rcases List.mem_append.mp hmem with hmem | hmem
    · exact Nat.lt_succ_of_lt (herase.fresh timeout hmem)
    · rw [List.mem_singleton.mp hmem]
      exact Nat.lt_succ_self _

end Timed

/-! ## The state and the log -/

/-- The flows and the timers are those of the log. -/
structure Accords (b : Bridge) (log : List FlowEvent) : Prop where
  timed : b.Timed
  flows : ∀ id, b.activeFlows.get? id = pendingBy log id
  due : ∀ timeout ∈ b.timeouts, deadlineBy log timeout.flowId = some timeout.deadline
  armed : ∀ id, (pendingBy log id).isSome = true → ∃ timeout ∈ b.timeouts, timeout.flowId = id
  order : b.activeFlows.keys.Pairwise (Precedes log)

section Accords

variable {b b' : Bridge} {log : List FlowEvent} {event : FlowEvent} {id : String}

theorem accords_initial : Accords initial [] where
  timed := timed_initial
  flows id := rfl
  due timeout h := by cases h
  armed id h := by cases h
  order := .nil

/-- An event about no flow. -/
theorem Accords.append (h : b.Accords log) (habout : ∀ id, about id event = false) :
    b.Accords (log ++ [event]) where
  timed := h.timed
  flows id := by rw [pendingBy_append_of_not_about (habout id), h.flows]
  due timeout hmem := by
    rw [deadlineBy_append_of_not_about (habout _)]
    exact h.due timeout hmem
  armed id hsome := by
    rw [pendingBy_append_of_not_about (habout id)] at hsome
    exact h.armed id hsome
  order := h.order.imp fun hprecedes => hprecedes.append (by
    cases hends : ends _ event with
    | false => rfl
    | true => rw [← about_of_ends hends, habout])

/-- The flow with the id ends. -/
theorem Accords.erase (h : b.Accords log)
    (habout : ∀ id', about id' event = decide (id' = id)) (hends : ends id event = true) :
    Accords { b with
      activeFlows := b.activeFlows.erase id
      flowTimers := b.flowTimers.erase id
      timeouts := b.timeouts.filter fun timeout => timeout.flowId ≠ id } (log ++ [event]) where
  timed := (h.timed.erase id).withFlows _
  flows id' := by
    rw [OrderedMap.get?_erase]
    split_ifs with heq
    · rw [heq]
      unfold pendingBy
      rw [openingBy_of_ends hends]
      rfl
    · rw [pendingBy_append_of_not_about (by rw [habout, decide_eq_false heq]), h.flows]
  due timeout hmem := by
    obtain ⟨hmem, hne⟩ := List.mem_filter.mp hmem
    have hne := of_decide_eq_true hne
    rw [deadlineBy_append_of_not_about (by rw [habout, decide_eq_false hne])]
    exact h.due timeout hmem
  armed id' hsome := by
    by_cases heq : id' = id
    · rw [heq] at hsome
      unfold pendingBy at hsome
      rw [openingBy_of_ends hends] at hsome
      cases hsome
    · rw [pendingBy_append_of_not_about (by rw [habout, decide_eq_false heq])] at hsome
      obtain ⟨timeout, hmem, hid⟩ := h.armed id' hsome
      exact ⟨timeout, List.mem_filter.mpr ⟨hmem, decide_eq_true (by rw [hid]; exact heq)⟩, hid⟩
  order := by
    rw [OrderedMap.keys_erase]
    refine List.Pairwise.imp_of_mem ?_ (h.order.sublist List.filter_sublist)
    intro id₁ id₂ hmem _ hprecedes
    have hne := of_decide_eq_true (List.mem_filter.mp hmem).2
    refine hprecedes.append ?_
    cases hends₁ : ends id₁ event with
    | false => rfl
    | true => rw [← about_of_ends hends₁, habout, decide_eq_false hne]

/-- The flow opens, or opens again. -/
theorem Accords.opened (h : b.Accords log) (flow : ActiveFlow) :
    Accords ({ b with activeFlows := b.activeFlows.set flow.flowId flow }.armFlowTtl flow.flowId)
      (log ++ [.opened flow b.now]) := by
  have htimed := (h.timed.withFlows (b.activeFlows.set flow.flowId flow)).armFlowTtl flow.flowId
  have hother : ∀ id, id ≠ flow.flowId → about id (.opened flow b.now) = false :=
    fun id hne => decide_eq_false (Ne.symm hne)
  rw [(h.timed.withFlows _).armFlowTtl_eq] at htimed ⊢
  refine ⟨htimed, fun id => ?_, fun timeout hmem => ?_, fun id hsome => ?_, ?_⟩
  · rw [OrderedMap.get?_set]
    split_ifs with heq
    · rw [heq]
      unfold pendingBy
      rw [openingBy_opened]
      rfl
    · rw [pendingBy_append_of_not_about (hother id heq), h.flows]
  · rcases List.mem_append.mp hmem with hmem | hmem
    · obtain ⟨hmem, hne⟩ := List.mem_filter.mp hmem
      rw [deadlineBy_append_of_not_about (hother _ (of_decide_eq_true hne))]
      exact h.due timeout hmem
    · rw [List.mem_singleton.mp hmem]
      unfold deadlineBy
      rw [openingBy_opened]
      rfl
  · by_cases heq : id = flow.flowId
    · exact ⟨_, List.mem_append_right _ (List.mem_singleton_self _), heq.symm⟩
    · rw [pendingBy_append_of_not_about (hother id heq)] at hsome
      obtain ⟨timeout, hmem, hid⟩ := h.armed id hsome
      refine ⟨timeout, List.mem_append_left _ (List.mem_filter.mpr ⟨hmem, ?_⟩), hid⟩
      exact decide_eq_true (by rw [hid]; exact heq)
  · have horder := h.order.imp fun {id id'} hprecedes =>
      @Precedes.append log (.opened flow b.now) id id' hprecedes rfl
    cases hget : b.activeFlows.get? flow.flowId with
    | some before =>
      rw [OrderedMap.keys_set_of_some hget]
      exact horder
    | none =>
      rw [OrderedMap.keys_set_of_none _ hget]
      refine List.pairwise_append.mpr ⟨horder, List.pairwise_singleton _ _, ?_⟩
      intro id hmem id' hmem'
      rw [List.mem_singleton.mp hmem']
      obtain ⟨before, hbefore⟩ := OrderedMap.mem_keys.mp hmem
      refine ⟨log, [.opened flow b.now], rfl, ?_, ?_, fun event hmem => ?_⟩
      · rw [← h.flows, hbefore]
        rfl
      · rw [← h.flows, hget]
      · rw [List.mem_singleton.mp hmem]
        rfl

theorem Accords.dispose (h : b.Accords log) : b.dispose.Accords (log ++ [.disposed]) := by
  have hnone : ∀ id, openingBy (log ++ [.disposed]) id = none :=
    fun id => openingBy_of_ends rfl
  have htimeouts : b.timeouts.filter (fun timeout => timeout.id ∉ b.flowTimers.values) = [] := by
    refine List.filter_eq_nil_iff.mpr fun timeout hmem hnot => of_decide_eq_true hnot ?_
    exact OrderedMap.mem_values.mpr ⟨timeout.flowId, h.timed.timers timeout hmem⟩
  unfold Bridge.dispose
  rw [htimeouts]
  refine ⟨⟨?_, ?_, .nil, ?_⟩, fun id => ?_, ?_, fun id hsome => ?_, .nil⟩
  · exact fun timeout hmem => by cases hmem
  · exact fun id timer hget => by cases hget
  · exact fun timeout hmem => by cases hmem
  · unfold pendingBy
    rw [hnone]
    rfl
  · exact fun timeout hmem => by cases hmem
  · unfold pendingBy at hsome
    rw [hnone] at hsome
    cases hsome

/-- Events about no flow. -/
theorem Accords.appendAll (h : b.Accords log) {events : List FlowEvent}
    (habout : ∀ event ∈ events, ∀ id, about id event = false) : b.Accords (log ++ events) := by
  induction events generalizing log with
  | nil =>
    rw [List.append_nil]
    exact h
  | cons event events ih =>
    have hfirst := h.append (habout event List.mem_cons_self)
    have hrest := ih hfirst fun other hmem => habout other (List.mem_cons_of_mem _ hmem)
    rw [List.append_assoc] at hrest
    exact hrest

theorem about_onSubmitResult (b : Bridge) (raw : Json) :
    ∀ event ∈ b.onSubmitResult raw, ∀ id, about id event = false := by
  unfold onSubmitResult
  split
  · exact fun event hmem => by cases hmem
  · split
    · exact fun event hmem => by cases hmem
    · split_ifs
      · exact fun event hmem => by cases hmem
      · intro event hmem id
        rw [List.mem_singleton.mp hmem]
        rfl

theorem about_respond (b : Bridge) (response : UiResponse) :
    ∀ event ∈ b.respond response, ∀ id, about id event = false := by
  have hsubmitted : ∀ requestId flowId submission,
      ∀ event ∈ [FlowEvent.submitted requestId flowId submission], ∀ id,
        about id event = false := by
    intro requestId flowId submission event hmem id
    rw [List.mem_singleton.mp hmem]
    rfl
  unfold respond
  by_cases hcancel : isCancel response = true
  · rw [if_pos hcancel]
    split
    · exact fun event hmem => by cases hmem
    · split_ifs
      · exact fun event hmem => by cases hmem
      · exact hsubmitted _ _ _
  · rw [if_neg hcancel]
    split
    · exact hsubmitted _ _ _
    · split
      · exact fun event hmem => by cases hmem
      · exact hsubmitted _ _ _

theorem Accords.onTimeout (h : b.Accords log) {timeout : Timeout} (hmem : timeout ∈ b.timeouts) :
    b.onTimeout timeout =
        ({ b with
            activeFlows := b.activeFlows.erase timeout.flowId
            flowTimers := b.flowTimers.erase timeout.flowId
            timeouts := b.timeouts.filter fun other => other.flowId ≠ timeout.flowId },
          [.expired timeout.flowId b.now]) := by
  have hcontains : b.activeFlows.contains timeout.flowId = true := by
    unfold OrderedMap.contains
    rw [h.flows, ← isSome_deadlineBy, h.due timeout hmem]
    rfl
  unfold Bridge.onTimeout
  rw [h.timed.clearTimeout_eq hmem]
  dsimp only
  rw [if_pos hcontains]

/-- What a step does to the flows and timers is what it sends about them. -/
theorem Accords.move {events : List FlowEvent} {label : Label} (h : b.Accords log)
    (hmove : b.move label = some (b', events)) :
    b'.Accords (log ++ events) ∧ Throughout (fun before => Overdue (log ++ before)) events := by
  cases label with
  | tick ms =>
    cases hmove
    rw [List.append_nil]
    exact ⟨⟨⟨h.timed.timers, h.timed.set, h.timed.nodup, h.timed.fresh⟩, h.flows, h.due, h.armed,
      h.order⟩, throughout_nil⟩
  | started raw =>
    unfold Bridge.move at hmove
    dsimp only at hmove
    split_ifs at hmove
    have hstarted := Option.some.inj hmove
    unfold onStarted at hstarted
    split at hstarted
    · cases hstarted
      rw [List.append_nil]
      exact ⟨h, throughout_nil⟩
    · cases hstarted
      exact ⟨h.opened _, throughout_singleton.mpr trivial⟩
  | completed raw =>
    unfold Bridge.move at hmove
    dsimp only at hmove
    split_ifs at hmove
    have hcompleted := Option.some.inj hmove
    unfold onCompleted at hcompleted
    split at hcompleted
    · cases hcompleted
      rw [List.append_nil]
      exact ⟨h, throughout_nil⟩
    · rename_i flowId hflow
      rw [h.timed.clearFlowTtl_eq] at hcompleted
      cases hcompleted
      refine ⟨h.erase (fun id => ?_) (decide_eq_true rfl), throughout_singleton.mpr trivial⟩
      exact decide_eq_decide.mpr eq_comm
  | submitResult raw =>
    unfold Bridge.move at hmove
    dsimp only at hmove
    split_ifs at hmove
    cases hmove
    have habout := about_onSubmitResult b raw
    refine ⟨h.appendAll habout, throughout_of_forall fun before event hmem => ?_⟩
    cases event with
    | expired flowId time => exact absurd (habout _ hmem flowId) (by simp [about])
    | _ => trivial
  | timeout timer =>
    obtain ⟨timeout, hfind, hfires⟩ := Option.map_eq_some_iff.mp hmove
    have hmem := List.mem_of_find?_eq_some hfind
    have hdue := List.find?_some hfind
    rw [Bool.and_eq_true, decide_eq_true_eq, decide_eq_true_eq] at hdue
    rw [h.onTimeout hmem] at hfires
    cases hfires
    refine ⟨h.erase (fun id => decide_eq_decide.mpr eq_comm) (decide_eq_true rfl),
      throughout_singleton.mpr ⟨timeout.deadline, ?_, hdue.2⟩⟩
    rw [List.append_nil]
    exact h.due timeout hmem
  | respond response =>
    cases hmove
    have habout := about_respond b response
    refine ⟨h.appendAll habout, throughout_of_forall fun before event hmem => ?_⟩
    cases event with
    | expired flowId time => exact absurd (habout _ hmem flowId) (by simp [about])
    | _ => trivial
  | dispose =>
    cases hmove
    exact ⟨h.dispose, throughout_singleton.mpr trivial⟩

theorem accords_run {labels : List Label}
    (hrun : run step (initial, []) labels = some (b, log)) :
    b.Accords log ∧ Throughout Overdue log := by
  refine @invariant_run _ _ step (fun s => s.1.Accords s.2 ∧ Throughout Overdue s.2) ?_ _ _ _
    ⟨accords_initial, throughout_nil⟩ hrun
  rintro ⟨b, log⟩ label ⟨b', log'⟩ ⟨haccords, hoverdue⟩ hstep
  obtain ⟨events, hmove, hlog⟩ := logged_eq_some.mp hstep
  obtain ⟨haccords', hevents⟩ := haccords.move hmove
  dsimp only at hlog ⊢
  rw [hlog]
  exact ⟨haccords', throughout_append.mpr ⟨hoverdue, hevents⟩⟩

theorem Accords.pendingRequests_eq (h : b.Accords log) :
    b.pendingRequests =
      b.activeFlows.keys.filterMap fun id => (pendingBy log id).map requestForFlow := by
  unfold pendingRequests OrderedMap.values OrderedMap.keys
  rw [List.map_map, List.filterMap_map, ← List.filterMap_eq_map]
  refine List.filterMap_congr fun entry hmem => ?_
  obtain ⟨id, flow⟩ := entry
  have hget : pendingBy log id = some flow := by
    rw [← h.flows]
    exact OrderedMap.mem_entries_iff.mp hmem
  dsimp only [Function.comp]
  rw [hget]
  rfl

/-- A flow has the one timer of its last opening, or none. -/
theorem Accords.timeouts_eq (h : b.Accords log) (id : String) :
    (b.timeouts.filter fun timeout => timeout.flowId = id).map Timeout.deadline =
      (deadlineBy log id).toList := by
  cases hdeadline : deadlineBy log id with
  | none =>
    have hnil : b.timeouts.filter (fun timeout => timeout.flowId = id) = [] := by
      refine List.filter_eq_nil_iff.mpr fun timeout hmem hid => ?_
      have hdue := h.due timeout hmem
      rw [of_decide_eq_true hid, hdeadline] at hdue
      cases hdue
    rw [hnil]
    rfl
  | some deadline =>
    obtain ⟨timeout, hmem, hid⟩ := h.armed id (by rw [← isSome_deadlineBy, hdeadline]; rfl)
    have hone : b.timeouts.filter (fun other => other.flowId = id) = [timeout] := by
      have hnodup : (b.timeouts.filter fun other => other.flowId = id).Nodup :=
        h.timed.nodup.of_map.filter _
      refine List.perm_singleton.mp
        ((List.perm_ext_iff_of_nodup hnodup (List.nodup_singleton _)).mpr fun other => ?_)
      rw [List.mem_filter, List.mem_singleton]
      constructor
      · rintro ⟨hother, heq⟩
        exact h.timed.eq_of_flowId hother hmem ((of_decide_eq_true heq).trans hid.symm)
      · rintro rfl
        exact ⟨hmem, decide_eq_true hid⟩
    have hdue := h.due timeout hmem
    rw [hid, hdeadline] at hdue
    rw [hone, List.map_singleton, Option.toList_some, Option.some.inj hdue]

end Accords

end Bridge

/-! ## Runs -/

/-- In every run the pending requests are those that have been opened and have not been resolved,
    expired or disposed of since, oldest first; each has one timer, set at its last opening, and
    no other timer is set. A flow expires only when its last opening is as old as its time to
    live. -/
theorem flows_of_log (labels : List Bridge.Label) (b : Bridge) (log : List FlowEvent)
    (hrun : run Bridge.step (.initial, []) labels = some (b, log)) :
    (∃ ids : List String, ids.Nodup ∧
      (∀ id, id ∈ ids ↔ (Bridge.pendingBy log id).isSome = true) ∧
      ids.Pairwise (Bridge.Precedes log) ∧
      b.pendingRequests =
        ids.filterMap fun id => (Bridge.pendingBy log id).map requestForFlow) ∧
      (∀ id, (b.timeouts.filter fun timeout => timeout.flowId = id).map Timeout.deadline =
        (Bridge.deadlineBy log id).toList) ∧
      Throughout Bridge.Overdue log := by
  obtain ⟨haccords, hoverdue⟩ := Bridge.accords_run hrun
  refine ⟨⟨b.activeFlows.keys, b.activeFlows.nodup, fun id => ?_, haccords.order,
    haccords.pendingRequests_eq⟩, haccords.timeouts_eq, hoverdue⟩
  rw [OrderedMap.mem_keys, ← haccords.flows, Option.isSome_iff_exists]

/-- One question with two options, asked twice and then expired. -/
private def askedEvent : Json :=
  .object [("version", .number 1), ("flowId", .string "tool:1"), ("questions", .array [
    .object [("id", .string "goal"), ("prompt", .string "What next?"), ("options", .array [
      .object [("value", .string "a"), ("label", .string "Alpha")],
      .object [("label", .string "Beta")]])]])]

private def askedTwice : List Bridge.Label :=
  [.started askedEvent, .tick 600000, .started askedEvent, .tick 600000, .timeout 1]

theorem flows_of_log_expired : ∃ b log,
    run Bridge.step (.initial, []) askedTwice = some (b, log) ∧ b.pendingRequests = [] ∧
      Throughout Bridge.Overdue log := by
  obtain ⟨⟨b, log⟩, hrun⟩ := Option.isSome_iff_exists.mp
    (show (run Bridge.step (.initial, []) askedTwice).isSome = true by decide)
  have hpending : (run Bridge.step (.initial, []) askedTwice).any (fun s =>
      decide (s.1.pendingRequests = [])) = true := by decide
  rw [hrun, Option.any_some, decide_eq_true_eq] at hpending
  exact ⟨b, log, hrun, hpending, (flows_of_log askedTwice b log hrun).2.2⟩

/-! ## Clients without the envelope -/

/-- The flow of a pending request is found by the id of the request. -/
theorem Bridge.Accords.get?_of_pending {b : Bridge} {log : List FlowEvent} {request : UiRequest}
    (h : b.Accords log) (hmem : request ∈ b.pendingRequests) :
    ∃ flow, requestForFlow flow = request ∧ b.activeFlows.get? request.id = some flow ∧
      flow.flowId = request.id := by
  obtain ⟨flow, hflow, rfl⟩ := List.mem_map.mp hmem
  obtain ⟨id, hget⟩ := OrderedMap.mem_values.mp hflow
  have hid : flow.flowId = id := flowId_of_pendingBy (by rw [← h.flows, hget])
  rw [← hid] at hget
  exact ⟨flow, rfl, hget, rfl⟩

/-- The first option with a label. -/
theorem find?_label {options : List AskOption} {i : ℕ} {label : String}
    (hlabel : (options.map fun option => option.label.val)[i]? = some label)
    (hfirst : label ∉ (options.map fun option => option.label.val).take i) :
    ∃ option, options[i]? = some option ∧
      options.find? (fun option => option.label.val = label) = some option := by
  rw [List.getElem?_map] at hlabel
  obtain ⟨option, hoption, rfl⟩ := Option.map_eq_some_iff.mp hlabel
  refine ⟨option, hoption, List.find?_eq_some_iff_append.mpr ⟨decide_eq_true rfl, ?_⟩⟩
  obtain ⟨hlt, hget⟩ := List.getElem?_eq_some_iff.mp hoption
  refine ⟨options.take i, options.drop (i + 1), ?_, fun other hmem => ?_⟩
  · rw [← hget, List.getElem_cons_drop hlt, List.take_append_drop]
  · rw [Bool.not_eq_true', decide_eq_false_iff_not]
    intro heq
    rw [← List.map_take] at hfirst
    exact hfirst (List.mem_map.mpr ⟨other, hmem, heq⟩)

theorem requestForFlow_select {flow ask : ActiveFlow} {title : String} {options : List String}
    (h : (requestForFlow flow).method = .select title options ask) :
    ask = flow ∧ options = flow.first.options.map fun option => option.label.val := by
  unfold requestForFlow at h
  dsimp only at h
  split_ifs at h
  cases h
  exact ⟨rfl, rfl⟩

theorem requestForFlow_input {flow ask : ActiveFlow} {title : String}
    {placeholder : Option String}
    (h : (requestForFlow flow).method = .input title placeholder ask) :
    ask = flow ∧ flow.first.options = [] := by
  unfold requestForFlow at h
  dsimp only at h
  split_ifs at h with hnil
  cases h
  exact ⟨rfl, List.map_eq_nil_iff.mp hnil⟩

/-- In every state that is reached, a client that shows a pending request by its labels alone
    and sends the chosen label, or the typed text, answers the first question of that flow with
    the value of the first option of that label, or with the text. Where nothing is pending
    under the id, it answers nothing. -/
theorem strict_answer (labels : List Bridge.Label) (b : Bridge) (log : List FlowEvent)
    (hrun : run Bridge.step (.initial, []) labels = some (b, log)) :
    (∀ request ∈ b.pendingRequests, ∀ title options ask,
      request.method = .select title options ask →
      ∀ i label, options[i]? = some label → label ∉ options.take i →
        ∃ option, ask.first.options[i]? = some option ∧
          b.respond ⟨request.id, .value label, none⟩ = [.submitted request.id ask.flowId
            (.answer (some .submit)
              [(ask.first.id, ⟨some [option.value.val], none, none, none⟩)])]) ∧
      (∀ request ∈ b.pendingRequests, ∀ title placeholder ask,
        request.method = .input title placeholder ask → ∀ text, text ≠ "" →
          b.respond ⟨request.id, .value text, none⟩ = [.submitted request.id ask.flowId
            (.answer (some .submit) [(ask.first.id, ⟨none, some text, none, none⟩)])]) ∧
      ∀ id answer, Bridge.pendingBy log id = none → b.respond ⟨id, answer, none⟩ = [] := by
  obtain ⟨haccords, -⟩ := Bridge.accords_run hrun
  refine ⟨fun request hmem title options ask hmethod i label hlabel hfirst => ?_,
    fun request hmem title placeholder ask hmethod text htext => ?_, fun id answer hnone => ?_⟩
  · obtain ⟨flow, rfl, hget, hid⟩ := haccords.get?_of_pending hmem
    obtain ⟨rfl, rfl⟩ := requestForFlow_select hmethod
    obtain ⟨option, hoption, hfind⟩ := find?_label hlabel hfirst
    refine ⟨option, hoption, ?_⟩
    simp only [Bridge.respond, Bridge.isCancel, hget, Bridge.degradedAnswer, hfind]
    rfl
  · obtain ⟨flow, rfl, hget, hid⟩ := haccords.get?_of_pending hmem
    obtain ⟨rfl, hnil⟩ := requestForFlow_input hmethod
    simp only [Bridge.respond, Bridge.isCancel, hget, Bridge.degradedAnswer, hnil,
      List.find?_nil, if_neg htext]
    rfl
  · have hget : b.activeFlows.get? id = none := by rw [haccords.flows, hnone]
    have hcontains : b.activeFlows.contains id = false := by
      unfold OrderedMap.contains
      rw [hget]
      rfl
    simp only [Bridge.respond, Option.map_none, Option.none_or, hcontains, hget,
      Bool.false_eq_true, if_false, ite_self]

theorem strict_answer_beta : ∃ b log,
    run Bridge.step (.initial, []) [.started askedEvent] = some (b, log) ∧
      b.respond ⟨"tool:1", .value "Beta", none⟩ = [.submitted "tool:1" "tool:1"
        (.answer (some .submit) [("goal", ⟨some ["Beta"], none, none, none⟩)])] := by
  obtain ⟨⟨b, log⟩, hrun⟩ := Option.isSome_iff_exists.mp
    (show (run Bridge.step (.initial, []) [.started askedEvent]).isSome = true by decide +kernel)
  have hpending : (run Bridge.step (.initial, []) [.started askedEvent]).any (fun s =>
      decide (s.1.pendingRequests = (parseStartedEvent askedEvent).toList.map requestForFlow)) =
        true := by decide +kernel
  rw [hrun, Option.any_some, decide_eq_true_eq] at hpending
  obtain ⟨flow, hflow⟩ := Option.isSome_iff_exists.mp
    (show (parseStartedEvent askedEvent).isSome = true by decide +kernel)
  have hfields : (parseStartedEvent askedEvent).any (fun flow =>
      decide ((requestForFlow flow).method =
        .select "What next?" ["Alpha", "Beta"] flow) &&
      decide (flow.flowId = "tool:1" ∧ flow.first.id = "goal") &&
      decide (flow.first.options[1]?.map (fun option => option.value.val) = some "Beta")) =
        true := by decide +kernel
  rw [hflow, Option.any_some, Bool.and_eq_true, Bool.and_eq_true, decide_eq_true_eq,
    decide_eq_true_eq, decide_eq_true_eq] at hfields
  obtain ⟨⟨hmethod, hflowId, hquestion⟩, hvalue⟩ := hfields
  rw [hflow, Option.toList_some, List.map_singleton] at hpending
  obtain ⟨option, hoption, hsubmit⟩ := (strict_answer _ b log hrun).1 (requestForFlow flow)
    (by rw [hpending]; exact List.mem_singleton_self _) "What next?" ["Alpha", "Beta"] flow
    hmethod 1 "Beta" rfl (by decide)
  rw [hoption, Option.map_some, Option.some.injEq] at hvalue
  refine ⟨b, log, hrun, ?_⟩
  rw [hvalue, hquestion, hflowId] at hsubmit
  have hid : (requestForFlow flow).id = "tool:1" := hflowId
  rw [hid] at hsubmit
  exact hsubmit

end RemotePi.Host
