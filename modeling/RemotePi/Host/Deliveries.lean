import RemotePi.Host.Channels
import RemotePi.Timeline.InFlight

/-!
# Messages handed to the agent

A user message of an owner reaches `sendUserMessage` through the service of the binding that
the owner has at that moment (`pi-extension/src/index.ts`, lines 288–295 and 316–360). The
record that makes a retry harmless is in that service. It goes when the owner is detached,
and the binding of the next attachment has none.

Results:
* `sent_step`: the calls of `sendUserMessage` in a step.
* `Inv.step`: a binding that has sent a request keeps the record of it.
* `sent_once_iff`: a request is sent at most once exactly if no other binding takes it in
  after the one that has sent it.
-/

namespace RemotePi.Host

open RemotePi.Lib RemotePi.Pairing RemotePi.Timeline

/-! ## Sends -/

/-- `piApi` during a call: `null`, or whether `sendUserMessage` throws. -/
inductive PiApi where
  | null
  | sends
  | throws
deriving DecidableEq, Repr

/-- `wakeAgent` (lines 288–295), as `onUserMessage` returns it. -/
def PiApi.wakeAgent : PiApi → UserMessageResult
  | .null => .declined
  | .sends => .accepted
  | .throws => .declined

/-- `wakeAgent` calls `sendUserMessage`. -/
def PiApi.isCalled : PiApi → Bool
  | .null => false
  | .sends => true
  | .throws => true

/-- What a service reads in a call, with the callback of `createBinding` (lines 326–334). -/
def PiApi.env (piApi : PiApi) (env : ServiceEnv) : ServiceEnv :=
  { env with callbacks := { env.callbacks with onUserMessage := piApi.wakeAgent } }

/-- A request of an owner, in a history generation. -/
structure MessageRequest where
  ownerId : OwnerId
  generation : String
  clientRequestId : String
deriving DecidableEq

/-- A call of `sendUserMessage`, with the binding that makes it. -/
structure Sent where
  request : MessageRequest
  binding : ℕ
deriving DecidableEq

/-- The generation and the id of the message that a call hands over. -/
def handedOver : ServiceCall → Option (String × String)
  | .onUserMessage frame message _ => some (frame.historyGeneration, message.clientRequestId)
  | _ => none

/-- The calls of `sendUserMessage` that the calls of a service make. -/
def sentBy (piApi : PiApi) (ownerId : OwnerId) (binding : ℕ) (calls : List ServiceCall) :
    List Sent :=
  if piApi.isCalled then
    (calls.filterMap handedOver).map fun (generation, clientRequestId) =>
      ⟨⟨ownerId, generation, clientRequestId⟩, binding⟩
  else []

/-- The calls of `sendUserMessage` in an event, after which the owners are as given. -/
def sentIn (piApi : PiApi) (owners : Owners) : HostEvent → List Sent
  | .handled ownerId _ _ _ calls =>
    (owners.activeOwners.get? ownerId).toList.flatMap fun binding =>
      sentBy piApi ownerId binding.id calls
  | _ => []

/-- The generation and the id of the message that a frame makes a service take in as new. -/
def takesIn (service : TimelineV2Service) (env : ServiceEnv) :
    ClientFrame → Option (String × String)
  | .inChannel frame (.userMessage message) =>
    if service.accepts frame && (liveRecord service env message.clientRequestId).isNone then
      some (frame.historyGeneration, message.clientRequestId)
    else none
  | _ => none

/-! ## Runs -/

/-- The owners, with the generations there have been and the messages sent. -/
structure Deliveries where
  owners : Owners
  generations : List String
  sent : List Sent

/-- A step: a call of the owners, or one of the timeline to the service of an owner. -/
inductive DeliveryStep where
  | host (call : Owners.Call) (piApi : PiApi)
  | timeline (ownerId : OwnerId) (call : ServiceStep)

namespace Owners

/-- The call, with what its services read. -/
def Call.withApi (piApi : PiApi) : Call → Call
  | .attachAndRoute relay ownerId env frame =>
    .attachAndRoute relay ownerId (piApi.env env) frame
  | .route ownerId env frame => .route ownerId (piApi.env env) frame
  | call => call

/-- The generation that a call makes up. -/
def Call.rotates : Call → Option String
  | .sessionStart _ generation => some generation
  | .sessionTree _ generation => some generation
  | _ => none

/-- The service of an owner takes a call. -/
def serve (s : Owners) (ownerId : OwnerId) (call : ServiceStep) : Owners :=
  match s.activeOwners.get? ownerId with
  | none => s
  | some binding =>
    { s with
      activeOwners := s.activeOwners.set ownerId
        { binding with service := (binding.service.apply call).service } }

end Owners

/-- What `ensureTimeline` calls when a message starts or is published (lines 243–261). -/
def isTimelineCall : ServiceStep → Bool
  | .started _ _ => true
  | .commit _ _ _ _ => true
  | _ => false

namespace Deliveries

/-- The process starts. -/
def initial (generation : String) : Deliveries := ⟨.initial generation, [generation], []⟩

/-- A step; `randomUUID` makes up a generation that there has not been. -/
def step (s : Deliveries) : DeliveryStep → Option Deliveries
  | .host call piApi =>
    if ∀ generation ∈ call.rotates, generation ≠ "" ∧ generation ∉ s.generations then
      let (owners, events) := s.owners.apply (call.withApi piApi)
      some ⟨owners, call.rotates.toList ++ s.generations,
        s.sent ++ events.flatMap (sentIn piApi owners)⟩
    else none
  | .timeline ownerId call =>
    if isTimelineCall call then some { s with owners := s.owners.serve ownerId call } else none

/-! ## Conditions -/

/-- The call that the service of an owner's binding takes in a step. -/
def callOf (ownerId : OwnerId) (binding : OwnerBinding) : DeliveryStep → Option ServiceStep
  | .host (.route other env frame) piApi =>
    if other = ownerId then some (.handle (serviceEnv (piApi.env env) binding) frame) else none
  | .timeline other call => if other = ownerId then some call else none
  | _ => none

/-- The record that a service has of a request is not dropped in a call: it has not expired,
    makes no room for another one, and the owner does not observe the request. -/
def KeepsRecord (service : TimelineV2Service) (clientRequestId : String) (call : ServiceStep) :
    Prop :=
  (service.state.records.get? (service.recordKey clientRequestId)).isSome = true →
    (InFlightRun.mk service [clientRequestId]).Remembers call ∧
      (InFlightRun.mk service [clientRequestId]).observes call ≠ some clientRequestId

/-- The step drops no record of the request. -/
def Keeps (request : MessageRequest) (s : Deliveries) (step : DeliveryStep) : Prop :=
  ∀ binding ∈ s.owners.activeOwners.get? request.ownerId,
    binding.service.generation = request.generation →
      ∀ call ∈ callOf request.ownerId binding step,
        KeepsRecord binding.service request.clientRequestId call

instance (request : MessageRequest) (s : Deliveries) (step : DeliveryStep) :
    Decidable (s.Keeps request step) :=
  inferInstanceAs (Decidable (∀ _ ∈ _, _ → ∀ _ ∈ _, (_ → _ ∧ _)))

/-- The messages that a step sends. -/
def sends (s : Deliveries) : DeliveryStep → List Sent
  | .host (.route ownerId env frame) piApi =>
    if piApi.isCalled then
      (s.owners.activeOwners.get? ownerId).toList.flatMap fun binding =>
        (takesIn binding.service (serviceEnv (piApi.env env) binding) frame).toList.map
          fun (generation, clientRequestId) =>
            ⟨⟨ownerId, generation, clientRequestId⟩, binding.id⟩
    else []
  | _ => []

/-- A retry reaches a binding that has no record of the request, after another binding has
    sent it. -/
def TakenAgain (request : MessageRequest) (s : Deliveries) : DeliveryStep → Prop
  | .host (.route ownerId env frame) piApi =>
    ownerId = request.ownerId ∧ piApi.isCalled = true ∧
      ∃ binding ∈ s.owners.activeOwners.get? request.ownerId,
        takesIn binding.service (serviceEnv (piApi.env env) binding) frame =
            some (request.generation, request.clientRequestId) ∧
          ∃ sent ∈ s.sent, sent.request = request ∧ sent.binding ≠ binding.id
  | _ => False

instance (request : MessageRequest) (s : Deliveries) (step : DeliveryStep) :
    Decidable (s.TakenAgain request step) :=
  match step with
  | .host (.route _ _ _) _ =>
    inferInstanceAs (Decidable (_ ∧ _ ∧ ∃ _ ∈ _, _ ∧ ∃ _ ∈ s.sent, _ ∧ _))
  | .timeline _ _ => instDecidableFalse
  | .host .nothing _ => instDecidableFalse
  | .host (.attach _ _) _ => instDecidableFalse
  | .host (.attachAndRoute _ _ _ _) _ => instDecidableFalse
  | .host (.close _) _ => instDecidableFalse
  | .host (.detachAll _) _ => instDecidableFalse
  | .host (.sessionStart _ _) _ => instDecidableFalse
  | .host (.sessionTree _ _) _ => instDecidableFalse
  | .host .sessionShutdown _ => instDecidableFalse
  | .host .sessionNewStart _ => instDecidableFalse
  | .host .sessionNewEnd _ => instDecidableFalse

/-- How often a request has been sent. -/
def timesSent (s : Deliveries) (request : MessageRequest) : ℕ :=
  (s.sent.map Sent.request).count request

end Deliveries

/-! ## What a service hands over -/

section Service

variable {service : TimelineV2Service} {env : ServiceEnv}

theorem calls_handleUserMessage_of_new (frame : ChannelFrame) (hok : ServiceOk service)
    {message : UserMessage}
    (hnone : liveRecord service env message.clientRequestId = none) :
    ∃ correlation, (service.handleUserMessage env frame message).calls =
      [.onUserMessage frame message correlation] := by
  obtain ⟨record, -, -, hbegin⟩ := begin_of_not_live hok hnone
  have hresult := congrArg Prod.snd hbegin
  unfold TimelineV2Service.handleUserMessage
  dsimp only at hresult ⊢
  rw [hresult]
  exact ⟨_, rfl⟩

/-- Only a message is handed over. -/
theorem handedOver_handleReady (frame : ChannelFrame) {request : ChannelRequest}
    (h : ∀ message, request ≠ .userMessage message) :
    (service.handleReady env frame request).calls.filterMap handedOver = [] := by
  cases request with
  | userMessage message => exact absurd rfl (h message)
  | userMessageObserved clientRequestId messageId =>
    unfold TimelineV2Service.handleReady TimelineV2Service.handleObserved
    dsimp only
    split
    · rfl
    · split_ifs <;> rfl
  | cancel =>
    unfold TimelineV2Service.handleReady TimelineV2Service.handleCancel
    dsimp only
    split <;> dsimp only <;> split_ifs <;> rfl
  | action action =>
    unfold TimelineV2Service.handleReady TimelineV2Service.handleAction
    dsimp only
    split <;> rfl
  | listModels =>
    unfold TimelineV2Service.handleReady TimelineV2Service.handleListModels
    dsimp only
    split <;> rfl
  | queuedMessageClear targetId =>
    unfold TimelineV2Service.handleReady
    dsimp only
    split_ifs <;> rfl
  | _ => rfl

/-- A service hands over what it takes in as new. -/
theorem handedOver_handle (hok : ServiceOk service) (clientFrame : ClientFrame) :
    (service.handle env clientFrame).calls.filterMap handedOver =
      (takesIn service env clientFrame).toList := by
  cases clientFrame with
  | pairRequest id token deviceName => rfl
  | sessionHello id channelId => rfl
  | inChannel frame request =>
    by_cases hmessage : ∃ message, request = .userMessage message
    · obtain ⟨message, rfl⟩ := hmessage
      unfold takesIn
      dsimp only
      cases haccepts : service.accepts frame with
      | false =>
        obtain ⟨refusal, hhandle, -⟩ := handle_of_refuses env (.userMessage message) haccepts
        rw [hhandle]
        rfl
      | true =>
        rw [handle_of_accepts env _ haccepts]
        have htouched := hok.touch env.now frame.channelId
        cases hfound : liveRecord service env message.clientRequestId with
        | some record =>
          rw [← liveRecord_touch frame.channelId] at hfound
          exact congrArg _ (calls_handleUserMessage_of_live htouched hfound)
        | none =>
          rw [← liveRecord_touch frame.channelId] at hfound
          obtain ⟨correlation, hcalls⟩ :=
            calls_handleUserMessage_of_new frame htouched hfound
          exact congrArg _ hcalls
    · have hother : ∀ message, request ≠ .userMessage message :=
        fun message heq => hmessage ⟨message, heq⟩
      have hnone : takesIn service env (.inChannel frame request) = none := by
        unfold takesIn
        split
        · rename_i heq
          cases heq
          exact absurd rfl (hother _)
        · rfl
      rw [hnone]
      cases haccepts : service.accepts frame with
      | false =>
        obtain ⟨refusal, hhandle, -⟩ := handle_of_refuses env request haccepts
        rw [hhandle]
        rfl
      | true =>
        rw [handle_of_accepts env request haccepts]
        exact handedOver_handleReady frame hother

theorem takesIn_eq_some {clientFrame : ClientFrame} {generation clientRequestId : String}
    (h : takesIn service env clientFrame = some (generation, clientRequestId)) :
    ∃ frame message, clientFrame = .inChannel frame (.userMessage message) ∧
      service.accepts frame = true ∧ service.generation = generation ∧
        message.clientRequestId = clientRequestId ∧
          liveRecord service env clientRequestId = none := by
  unfold takesIn at h
  split at h
  · rename_i frame message
    split_ifs at h with hnew
    obtain ⟨haccepts, hnone⟩ := Bool.and_eq_true_iff.mp hnew
    cases h
    obtain ⟨-, hgeneration⟩ := Bool.and_eq_true_iff.mp haccepts
    exact ⟨frame, message, rfl, haccepts, (of_decide_eq_true hgeneration).symm, rfl,
      Option.isNone_iff_eq_none.mp hnone⟩
  · cases h

/-- What a service takes in as new it has a record of, as long as nothing is rejected. -/
theorem recorded_of_takesIn (hok : ServiceOk service)
    (hresult : env.callbacks.onUserMessage ≠ .rejected) {clientFrame : ClientFrame}
    {generation clientRequestId : String}
    (h : takesIn service env clientFrame = some (generation, clientRequestId)) :
    Recorded (service.handle env clientFrame).service clientRequestId := by
  obtain ⟨frame, message, rfl, haccepts, -, rfl, hnone⟩ := takesIn_eq_some h
  refine InFlightRun.recorded_of_handOver (s := ⟨service, []⟩) hok ?_ hresult
  dsimp only
  rw [handle_of_accepts env _ haccepts]
  rw [← liveRecord_touch frame.channelId] at hnone
  obtain ⟨correlation, hcalls⟩ :=
    calls_handleUserMessage_of_new frame (hok.touch env.now frame.channelId) hnone
  exact (congrArg (List.any · ServiceCall.isHandOver) hcalls).trans rfl

/-- A request whose record is kept is not taken in as new. -/
theorem not_takesIn_of_recorded {clientFrame : ClientFrame} {generation clientRequestId : String}
    (hok : ServiceOk service) (h : Recorded service clientRequestId)
    (hkeeps : Deliveries.KeepsRecord service clientRequestId (.handle env clientFrame)) :
    takesIn service env clientFrame ≠ some (generation, clientRequestId) := by
  intro htakes
  obtain ⟨frame, message, rfl, haccepts, -, rfl, hnone⟩ := takesIn_eq_some htakes
  obtain ⟨record, hget⟩ := h.1
  obtain ⟨hremembers, hobserves⟩ := hkeeps (by rw [hget]; rfl)
  have hlive := (hremembers _ (List.mem_singleton.mpr rfl) hobserves).1 env.now
    (if_pos haccepts)
  obtain ⟨⟨found, hfound, -⟩, -⟩ := (h.holds hlive).prune hok
  cases hnone.symm.trans hfound

/-- A record that is kept is there after the call. -/
theorem recorded_apply_of_keeps {clientRequestId : String} {call : ServiceStep}
    (hok : ServiceOk service) (h : Recorded service clientRequestId)
    (hkeeps : Deliveries.KeepsRecord service clientRequestId call)
    (hcall : ∀ next, call ≠ .refreshGeneration next) :
    Recorded (service.apply call).service clientRequestId := by
  obtain ⟨record, hget⟩ := h.1
  obtain ⟨hremembers, hobserves⟩ := hkeeps (by rw [hget]; rfl)
  exact InFlightRun.recorded_apply (s := ⟨service, [clientRequestId]⟩) hok h
    (List.mem_singleton.mpr rfl) hremembers hobserves (fun next heq => absurd heq (hcall next))

/-- A new service takes nothing in. -/
theorem takesIn_new (senderRef generation : String) (clientFrame : ClientFrame) :
    takesIn (.new senderRef generation) env clientFrame = none := by
  unfold takesIn
  split <;> rfl

end Service

namespace Deliveries

variable {request : MessageRequest} {s t : Deliveries}

/-! ## What a step sends -/

/-- The messages that a frame sends when it is routed to a binding. -/
theorem sentIn_routeClientFrame {owners : Owners} {ownerId : OwnerId} {env : ServiceEnv}
    (hok : ∀ binding, owners.activeOwners.get? ownerId = some binding → ServiceOk binding.service)
    (piApi : PiApi) (frame : ClientFrame) :
    (owners.routeClientFrame env ownerId frame).2.flatMap
        (sentIn piApi (owners.routeClientFrame env ownerId frame).1) =
      if piApi.isCalled then
        (owners.activeOwners.get? ownerId).toList.flatMap fun binding =>
          (takesIn binding.service (serviceEnv env binding) frame).toList.map
            fun (generation, clientRequestId) =>
              ⟨⟨ownerId, generation, clientRequestId⟩, binding.id⟩
      else [] := by
  cases hget : owners.activeOwners.get? ownerId with
  | none =>
    rw [Owners.routeClientFrame_of_none owners ownerId env frame hget]
    split_ifs <;> rfl
  | some binding =>
    rw [Owners.routeClientFrame_of_some owners ownerId env frame hget]
    simp only [List.flatMap_cons, List.flatMap_nil, List.append_nil, sentIn,
      OrderedMap.get?_set_self, Option.toList_some]
    unfold sentBy
    rw [handedOver_handle (hok binding hget)]
    rfl

/-- What is known of every state of a run that drops no record of the request. -/
structure Inv (request : MessageRequest) (s : Deliveries) : Prop where
  bindings : ∀ ownerId binding, s.owners.activeOwners.get? ownerId = some binding →
    ServiceOk binding.service ∧ binding.service.generation ∈ s.generations ∧
      binding.id < s.owners.nextBinding
  current : s.owners.timelineGeneration ∈ s.generations
  sent : ∀ sent ∈ s.sent, sent.request.generation ∈ s.generations ∧
    sent.binding < s.owners.nextBinding
  recorded : ∀ binding, s.owners.activeOwners.get? request.ownerId = some binding →
    binding.service.generation = request.generation → ⟨request, binding.id⟩ ∈ s.sent →
      Recorded binding.service request.clientRequestId

theorem inv_initial (generation : String) : (initial generation).Inv request where
  bindings ownerId binding h := by cases h
  current := List.mem_singleton.mpr rfl
  sent sent h := by cases h
  recorded binding h := by cases h

/-- Bindings may go. -/
theorem Inv.of_bindings (h : s.Inv request) {owners : Owners}
    (hget : ∀ ownerId binding, owners.activeOwners.get? ownerId = some binding →
      s.owners.activeOwners.get? ownerId = some binding)
    (hnext : owners.nextBinding = s.owners.nextBinding)
    (hcurrent : owners.timelineGeneration = s.owners.timelineGeneration) :
    Inv request { s with owners } where
  bindings ownerId binding hfound := by
    dsimp only at hfound ⊢
    rw [hnext]
    exact h.bindings ownerId binding (hget _ _ hfound)
  current := by
    dsimp only
    rw [hcurrent]
    exact h.current
  sent sent hsent := by
    dsimp only
    rw [hnext]
    exact h.sent sent hsent
  recorded binding hfound := h.recorded binding (hget _ _ hfound)

/-- A generation that is made up; the bindings stay as they are. -/
theorem Inv.rotate (h : s.Inv request) {owners : Owners} (generation : String)
    (hget : ∀ ownerId binding, owners.activeOwners.get? ownerId = some binding →
      s.owners.activeOwners.get? ownerId = some binding)
    (hnext : owners.nextBinding = s.owners.nextBinding)
    (hcurrent : owners.timelineGeneration = generation) :
    Inv request ⟨owners, generation :: s.generations, s.sent⟩ where
  bindings ownerId binding hfound := by
    obtain ⟨hok, hgeneration, hid⟩ := h.bindings ownerId binding (hget _ _ hfound)
    dsimp only
    rw [hnext]
    exact ⟨hok, List.mem_cons_of_mem _ hgeneration, hid⟩
  current := List.mem_cons.mpr (Or.inl hcurrent)
  sent sent hsent := by
    obtain ⟨hgeneration, hbinding⟩ := h.sent sent hsent
    dsimp only
    rw [hnext]
    exact ⟨List.mem_cons_of_mem _ hgeneration, hbinding⟩
  recorded binding hfound := h.recorded binding (hget _ _ hfound)

/-- A new binding has sent nothing. -/
theorem Inv.attach (h : s.Inv request) (relay : RelayId) (ownerId : OwnerId) :
    Inv request { s with owners := (s.owners.attachOwner relay ownerId).1 } := by
  cases hsession : s.owners.currentSession with
  | none =>
    rw [Owners.attachOwner_of_none s.owners relay ownerId hsession]
    exact h.of_bindings (fun _ _ hfound => OrderedMap.get?_of_sublist List.filter_sublist hfound)
      rfl rfl
  | some session =>
    have hget : ∀ other binding,
        (s.owners.attachOwner relay ownerId).1.activeOwners.get? other = some binding →
          s.owners.activeOwners.get? other = some binding ∨
            binding = s.owners.newBinding relay ownerId session := by
      intro other binding hfound
      rcases Owners.get?_attachOwner hfound with ⟨-, hold⟩ | ⟨-, session', hsession', hnew⟩
      · exact Or.inl hold
      · cases hsession.symm.trans hsession'
        exact Or.inr hnew
    have hnext : (s.owners.attachOwner relay ownerId).1.nextBinding = s.owners.nextBinding + 1 := by
      rw [Owners.attachOwner_of_session s.owners relay ownerId hsession]
    have hcurrent : (s.owners.attachOwner relay ownerId).1.timelineGeneration =
        s.owners.timelineGeneration := by
      rw [Owners.attachOwner_of_session s.owners relay ownerId hsession]
    constructor
    · intro other binding hfound
      dsimp only
      rw [hnext]
      rcases hget other binding hfound with hold | rfl
      · obtain ⟨hok, hgeneration, hid⟩ := h.bindings other binding hold
        exact ⟨hok, hgeneration, Nat.lt_succ_of_lt hid⟩
      · exact ⟨serviceOk_new _ _, h.current, Nat.lt_succ_self _⟩
    · dsimp only
      rw [hcurrent]
      exact h.current
    · intro sent hsent
      obtain ⟨hgeneration, hbinding⟩ := h.sent sent hsent
      dsimp only
      rw [hnext]
      exact ⟨hgeneration, Nat.lt_succ_of_lt hbinding⟩
    · intro binding hfound hgeneration hsent
      rcases hget request.ownerId binding hfound with hold | rfl
      · exact h.recorded binding hold hgeneration hsent
      · exact absurd (h.sent _ hsent).2 (Nat.lt_irrefl _)

/-- The service of a binding takes a call, in which the binding may send. -/
theorem Inv.serve (h : s.Inv request) {ownerId : OwnerId} {binding : OwnerBinding}
    (hget : s.owners.activeOwners.get? ownerId = some binding) {call : ServiceStep}
    (hcall : ∀ next, call ≠ .refreshGeneration next) {new : List Sent}
    (hnew : ∀ sent ∈ new, sent.request.ownerId = ownerId ∧
      sent.request.generation = binding.service.generation ∧ sent.binding = binding.id)
    (hrecorded : ownerId = request.ownerId → binding.service.generation = request.generation →
      ⟨request, binding.id⟩ ∈ s.sent ++ new →
        Recorded (binding.service.apply call).service request.clientRequestId) :
    Inv request ⟨{ s.owners with
      activeOwners := s.owners.activeOwners.set ownerId
        { binding with service := (binding.service.apply call).service } },
      s.generations, s.sent ++ new⟩ := by
  obtain ⟨hok, hgeneration, hid⟩ := h.bindings ownerId binding hget
  have hsame := generation_apply binding.service hcall
  constructor
  · intro other found hfound
    dsimp only at hfound ⊢
    rw [OrderedMap.get?_set] at hfound
    split_ifs at hfound
    · cases hfound
      dsimp only
      rw [hsame]
      exact ⟨hok.apply call, hgeneration, hid⟩
    · exact h.bindings other found hfound
  · exact h.current
  · intro sent hsent
    rcases List.mem_append.mp hsent with hsent | hsent
    · exact h.sent sent hsent
    · obtain ⟨-, hrequest, hbinding⟩ := hnew sent hsent
      dsimp only
      rw [hrequest, hbinding]
      exact ⟨hgeneration, hid⟩
  · intro found hfound hfoundGeneration hsent
    dsimp only at hfound
    rw [OrderedMap.get?_set] at hfound
    split_ifs at hfound with howner
    · cases hfound
      exact hrecorded howner.symm (hsame.symm.trans hfoundGeneration) hsent
    · refine h.recorded found hfound hfoundGeneration ?_
      rcases List.mem_append.mp hsent with hsent | hsent
      · exact hsent
      · exact absurd (hnew _ hsent).1 howner

theorem wakeAgent_ne_rejected (piApi : PiApi) (env : ServiceEnv) (binding : OwnerBinding) :
    (serviceEnv (piApi.env env) binding).callbacks.onUserMessage ≠ .rejected := by
  intro h
  cases piApi <;> cases h

/-- A message is sent by the binding that takes it in as new. -/
theorem mem_sends {step : DeliveryStep} {sent : Sent} (h : sent ∈ s.sends step) :
    ∃ env frame piApi binding, step = .host (.route sent.request.ownerId env frame) piApi ∧
      piApi.isCalled = true ∧
        s.owners.activeOwners.get? sent.request.ownerId = some binding ∧
          sent.binding = binding.id ∧
            takesIn binding.service (serviceEnv (piApi.env env) binding) frame =
              some (sent.request.generation, sent.request.clientRequestId) := by
  unfold sends at h
  split at h
  · rename_i ownerId env frame piApi
    split_ifs at h with hcalled
    · obtain ⟨binding, hbinding, h⟩ := List.mem_flatMap.mp h
      obtain ⟨⟨generation, clientRequestId⟩, htakes, rfl⟩ := List.mem_map.mp h
      exact ⟨env, frame, piApi, binding, rfl, hcalled, Option.mem_toList.mp hbinding, rfl,
        Option.mem_toList.mp htakes⟩
    · cases h
  · cases h

theorem sends_of_takesIn {ownerId : OwnerId} {env : ServiceEnv} {frame : ClientFrame}
    {piApi : PiApi} {binding : OwnerBinding} {generation clientRequestId : String}
    (hcalled : piApi.isCalled = true) (hget : s.owners.activeOwners.get? ownerId = some binding)
    (htakes : takesIn binding.service (serviceEnv (piApi.env env) binding) frame =
      some (generation, clientRequestId)) :
    s.sends (.host (.route ownerId env frame) piApi) =
      [⟨⟨ownerId, generation, clientRequestId⟩, binding.id⟩] := by
  unfold sends
  dsimp only
  rw [if_pos hcalled, hget]
  simp only [Option.toList_some, List.flatMap_cons, List.flatMap_nil, htakes, List.map_cons,
    List.map_nil, List.append_nil]

/-- A step sends one message at most. -/
theorem length_sends_le (s : Deliveries) (step : DeliveryStep) : (s.sends step).length ≤ 1 := by
  unfold sends
  split
  · split_ifs
    · rename_i ownerId env frame piApi _
      cases s.owners.activeOwners.get? ownerId with
      | none => exact Nat.zero_le 1
      | some binding =>
        simp only [Option.toList_some, List.flatMap_cons, List.flatMap_nil, List.append_nil,
          List.length_map]
        exact Option.length_toList_le
    · exact Nat.zero_le 1
  · exact Nat.zero_le 1

/-- A frame that is routed to a binding. -/
theorem Inv.route (h : s.Inv request) (ownerId : OwnerId) (env : ServiceEnv)
    (frame : ClientFrame) (piApi : PiApi)
    (hkeeps : ∀ binding, s.owners.activeOwners.get? ownerId = some binding →
      ownerId = request.ownerId → binding.service.generation = request.generation →
        KeepsRecord binding.service request.clientRequestId
          (.handle (serviceEnv (piApi.env env) binding) frame)) :
    Inv request ⟨(s.owners.routeClientFrame (piApi.env env) ownerId frame).1, s.generations,
      s.sent ++ s.sends (.host (.route ownerId env frame) piApi)⟩ := by
  cases hget : s.owners.activeOwners.get? ownerId with
  | none =>
    have hsends : s.sends (.host (.route ownerId env frame) piApi) = [] := by
      unfold sends
      dsimp only
      rw [hget]
      split_ifs <;> rfl
    rw [hsends, List.append_nil, Owners.routeClientFrame_of_none _ _ _ _ hget]
    exact h
  | some binding =>
    obtain ⟨hok, -, -⟩ := h.bindings ownerId binding hget
    have hsent : ∀ sent ∈ s.sends (.host (.route ownerId env frame) piApi),
        takesIn binding.service (serviceEnv (piApi.env env) binding) frame =
            some (sent.request.generation, sent.request.clientRequestId) ∧
          sent.request.ownerId = ownerId ∧ sent.binding = binding.id := by
      intro sent hsent
      obtain ⟨env', frame', piApi', found, hstep, -, hfound, hbinding, htakes⟩ := mem_sends hsent
      cases hstep
      cases hget.symm.trans hfound
      exact ⟨htakes, rfl, hbinding⟩
    rw [Owners.routeClientFrame_of_some _ _ _ _ hget]
    have hcall : ∀ next, ServiceStep.handle (serviceEnv (piApi.env env) binding) frame ≠
        .refreshGeneration next := by
      intro next heq
      cases heq
    refine h.serve hget hcall ?_ ?_
    · intro sent hmem
      obtain ⟨htakes, howner, hbinding⟩ := hsent sent hmem
      obtain ⟨-, -, -, -, hgeneration, -, -⟩ := takesIn_eq_some htakes
      exact ⟨howner, hgeneration.symm, hbinding⟩
    · intro howner hgeneration hmem
      rcases List.mem_append.mp hmem with hold | hnew
      · exact recorded_apply_of_keeps hok (h.recorded binding (howner ▸ hget) hgeneration hold)
          (hkeeps binding hget howner hgeneration) hcall
      · exact recorded_of_takesIn hok (wakeAgent_ne_rejected piApi env binding)
          (hsent _ hnew).1

/-- The binding of an owner that has just been attached. -/
theorem service_of_attached {relay : RelayId} {ownerId : OwnerId} {binding : OwnerBinding}
    {owners : Owners}
    (h : (owners.attachOwner relay ownerId).1.activeOwners.get? ownerId = some binding) :
    binding.service = .new ownerId.key owners.timelineGeneration := by
  rcases Owners.get?_attachOwner h with ⟨hne, -⟩ | ⟨-, session, -, rfl⟩
  · exact absurd rfl hne
  · rfl

/-- A binding that has just been attached sends nothing. -/
theorem sends_of_attached (relay : RelayId) (ownerId : OwnerId) (env : ServiceEnv)
    (frame : ClientFrame) (piApi : PiApi) :
    sends { s with owners := (s.owners.attachOwner relay ownerId).1 }
      (.host (.route ownerId env frame) piApi) = [] := by
  unfold sends
  dsimp only
  cases hget : (s.owners.attachOwner relay ownerId).1.activeOwners.get? ownerId with
  | none => split_ifs <;> rfl
  | some binding =>
    simp only [Option.toList_some, List.flatMap_cons, List.flatMap_nil,
      service_of_attached hget, takesIn_new, Option.toList_none, List.map_nil, List.append_nil,
      ite_self]

theorem Inv.attachAndRoute (h : s.Inv request) (relay : RelayId) (ownerId : OwnerId)
    (env : ServiceEnv) (frame : ClientFrame) (piApi : PiApi) :
    Inv request { s with
      owners := ((s.owners.attachOwner relay ownerId).1.routeClientFrame (piApi.env env) ownerId
        frame).1 } := by
  have hroute := (h.attach relay ownerId).route ownerId env frame piApi (by
    intro binding hget howner hgeneration hrecord
    rw [service_of_attached hget] at hrecord
    cases hrecord)
  rw [sends_of_attached, List.append_nil] at hroute
  exact hroute

/-- The services forget what was sent in the generation before. -/
theorem Inv.sessionTree (h : s.Inv request) (env : ServiceEnv) {generation : String}
    (hempty : generation ≠ "") (hfresh : generation ∉ s.generations) :
    Inv request ⟨(s.owners.sessionTree env generation).1, generation :: s.generations, s.sent⟩ := by
  have hget : ∀ ownerId binding,
      (s.owners.sessionTree env generation).1.activeOwners.get? ownerId = some binding →
        ServiceOk binding.service ∧ binding.service.generation = generation ∧
          binding.id < s.owners.nextBinding := by
    intro ownerId binding hfound
    unfold Owners.sessionTree at hfound
    dsimp only at hfound
    rw [OrderedMap.get?_mapValues] at hfound
    obtain ⟨old, hold, rfl⟩ := Option.map_eq_some_iff.mp hfound
    obtain ⟨hok, hgeneration, hid⟩ := h.bindings ownerId old hold
    have hnew : (old.service.refreshGeneration generation).generation = generation := by
      unfold TimelineV2Service.refreshGeneration
      rw [if_neg]
      rintro (heq | heq)
      · exact hempty heq
      · exact hfresh (heq ▸ hgeneration)
    exact ⟨(hok.refreshGeneration generation).apply (.reset (serviceEnv env old) .branchChanged),
      hnew, hid⟩
  constructor
  · intro ownerId binding hfound
    obtain ⟨hok, hgeneration, hid⟩ := hget ownerId binding hfound
    exact ⟨hok, List.mem_cons.mpr (Or.inl hgeneration), hid⟩
  · exact List.mem_cons_self
  · intro sent hsent
    obtain ⟨hgeneration, hbinding⟩ := h.sent sent hsent
    exact ⟨List.mem_cons_of_mem _ hgeneration, hbinding⟩
  · intro binding hfound hgeneration hsent
    obtain ⟨-, hnew, -⟩ := hget request.ownerId binding hfound
    have hold := (h.sent _ hsent).1
    dsimp only at hold
    rw [← hgeneration, hnew] at hold
    exact absurd hold hfresh

/-! ## Steps -/

/-- What a step of the host leaves. -/
theorem host_of_step {call : Owners.Call} {piApi : PiApi}
    (h : s.step (.host call piApi) = some t) :
    (∀ generation ∈ call.rotates, generation ≠ "" ∧ generation ∉ s.generations) ∧
      t = ⟨(s.owners.apply (call.withApi piApi)).1, call.rotates.toList ++ s.generations,
        s.sent ++ (s.owners.apply (call.withApi piApi)).2.flatMap
          (sentIn piApi (s.owners.apply (call.withApi piApi)).1)⟩ := by
  unfold step at h
  dsimp only at h
  split_ifs at h with hfresh
  exact ⟨hfresh, (Option.some.inj h).symm⟩

theorem sentIn_of_silent {events : List HostEvent} (h : Silent events) (piApi : PiApi)
    (owners : Owners) : events.flatMap (sentIn piApi owners) = [] := by
  refine List.flatMap_eq_nil_iff.mpr fun event hevent => ?_
  cases event with
  | handled ownerId frame generation answers calls => exact absurd hevent (h _ _ _ _ _)
  | _ => rfl

/-- The messages that a step sends are appended to those before. -/
theorem sent_step (hinv : s.Inv request) {step : DeliveryStep} (h : s.step step = some t) :
    t.sent = s.sent ++ s.sends step := by
  cases step with
  | timeline ownerId call =>
    unfold Deliveries.step at h
    dsimp only at h
    split_ifs at h
    cases h
    exact (List.append_nil _).symm
  | host call piApi =>
    obtain ⟨-, rfl⟩ := host_of_step h
    refine congrArg (s.sent ++ ·) ?_
    cases call with
    | route ownerId env frame =>
      exact sentIn_routeClientFrame
        (fun binding hget => (hinv.bindings ownerId binding hget).1) piApi frame
    | attachAndRoute relay ownerId env frame =>
      have hattached := silent_attachOwner s.owners relay ownerId
      have hok := (hinv.attach relay ownerId).bindings ownerId
      show (((s.owners.attachOwner relay ownerId).2.2 ++
        ((s.owners.attachOwner relay ownerId).1.routeClientFrame (piApi.env env) ownerId
          frame).2).flatMap _) = []
      rw [List.flatMap_append, sentIn_of_silent hattached, List.nil_append]
      refine (sentIn_routeClientFrame (fun binding hget => (hok binding hget).1) piApi
        frame).trans ?_
      exact @sends_of_attached s relay ownerId env frame piApi
    | _ => exact sentIn_of_silent (silent_apply s.owners rfl) piApi _

theorem counters_finishSessionReplacement (owners : Owners) :
    owners.finishSessionReplacement.1.nextBinding = owners.nextBinding ∧
      owners.finishSessionReplacement.1.timelineGeneration = owners.timelineGeneration := by
  unfold Owners.finishSessionReplacement
  split
  · exact ⟨rfl, rfl⟩
  · split_ifs <;> exact ⟨rfl, rfl⟩

theorem Inv.sessionStart (h : s.Inv request) (session : Session) (generation : String) :
    Inv request
      ⟨(s.owners.sessionStart session generation).1, generation :: s.generations, s.sent⟩ := by
  unfold Owners.sessionStart
  dsimp only
  split_ifs
  · exact h.rotate generation (fun _ _ hfound => hfound) rfl rfl
  · obtain ⟨hnext, hcurrent⟩ := counters_finishSessionReplacement { s.owners with
      currentSession := some session
      timelineGeneration := generation }
    exact h.rotate generation
      (fun _ _ hfound => @Owners.get?_finishSessionReplacement { s.owners with
        currentSession := some session
        timelineGeneration := generation } _ _ hfound)
      hnext hcurrent

/-- A call that routes no frame to a binding that there was. -/
theorem Inv.apply (h : s.Inv request) {call : Owners.Call} (piApi : PiApi)
    (hroute : ∀ ownerId env frame, call ≠ .route ownerId env frame)
    (hfresh : ∀ generation ∈ call.rotates, generation ≠ "" ∧ generation ∉ s.generations) :
    Inv request ⟨(s.owners.apply (call.withApi piApi)).1, call.rotates.toList ++ s.generations,
      s.sent⟩ := by
  cases call with
  | nothing => exact h
  | attach relay ownerId => exact h.attach relay ownerId
  | attachAndRoute relay ownerId env frame => exact h.attachAndRoute relay ownerId env frame piApi
  | route ownerId env frame => exact absurd rfl (hroute ownerId env frame)
  | close ownerId =>
    have hclose : (s.owners.apply (.close ownerId)).1 =
        { s.owners with activeOwners := s.owners.activeOwners.erase ownerId } := by
      show (s.owners.closeOwner ownerId).1 = _
      rw [Owners.closeOwner_eq]
    show Inv request { s with owners := (s.owners.apply (.close ownerId)).1 }
    rw [hclose]
    exact h.of_bindings (fun _ _ hfound => OrderedMap.get?_of_sublist List.filter_sublist hfound)
      rfl rfl
  | detachAll reason =>
    cases reason with
    | none => exact h.of_bindings (fun _ _ hfound => by cases hfound) rfl rfl
    | some reason => exact h.of_bindings (fun _ _ hfound => by cases hfound) rfl rfl
  | sessionStart session generation => exact h.sessionStart session generation
  | sessionTree env generation =>
    obtain ⟨hempty, hunused⟩ := hfresh generation rfl
    exact h.sessionTree env hempty hunused
  | sessionShutdown => exact h.of_bindings (fun _ _ hfound => hfound) rfl rfl
  | sessionNewStart => exact h.of_bindings (fun _ _ hfound => hfound) rfl rfl
  | sessionNewEnd =>
    obtain ⟨hnext, hcurrent⟩ := counters_finishSessionReplacement { s.owners with
      sessionNewRunning := false }
    exact h.of_bindings
      (fun _ _ hfound => @Owners.get?_finishSessionReplacement { s.owners with
        sessionNewRunning := false } _ _ hfound)
      hnext hcurrent

/-- A step that drops no record of the request. -/
theorem Inv.step (h : s.Inv request) {step : DeliveryStep} (hkeeps : s.Keeps request step)
    (hstep : s.step step = some t) : t.Inv request := by
  have hsent := sent_step h hstep
  cases step with
  | timeline ownerId call =>
    unfold Deliveries.step at hstep
    dsimp only at hstep
    split_ifs at hstep with hcall
    cases hstep
    unfold Owners.serve
    cases hget : s.owners.activeOwners.get? ownerId with
    | none => exact h
    | some binding =>
      have hother : ∀ next, call ≠ .refreshGeneration next := by
        rintro next rfl
        cases hcall
      have hserve := @Inv.serve _ _ h _ _ hget _ hother [] (fun sent hmem => by cases hmem) (by
        intro howner hgeneration hmem
        rw [List.append_nil] at hmem
        subst howner
        exact recorded_apply_of_keeps (h.bindings _ _ hget).1
          (h.recorded binding hget hgeneration hmem)
          (hkeeps binding hget hgeneration call (if_pos rfl)) hother)
      rw [List.append_nil] at hserve
      exact hserve
  | host call piApi =>
    obtain ⟨hfresh, rfl⟩ := host_of_step hstep
    dsimp only at hsent
    rw [hsent]
    by_cases hroute : ∃ ownerId env frame, call = .route ownerId env frame
    · obtain ⟨ownerId, env, frame, rfl⟩ := hroute
      refine h.route ownerId env frame piApi fun binding hget howner hgeneration => ?_
      subst howner
      exact hkeeps binding hget hgeneration _ (if_pos rfl)
    · have hroute : ∀ ownerId env frame, call ≠ .route ownerId env frame :=
        fun ownerId env frame heq => hroute ⟨ownerId, env, frame, heq⟩
      have hnil : s.sends (.host call piApi) = [] := by
        cases call with
        | route ownerId env frame => exact absurd rfl (hroute ownerId env frame)
        | _ => rfl
      rw [hnil, List.append_nil]
      exact h.apply piApi hroute hfresh

/-! ## How often a request is sent -/

theorem timesSent_step (hinv : s.Inv request) {step : DeliveryStep} (h : s.step step = some t) :
    t.timesSent request =
      s.timesSent request + ((s.sends step).map Sent.request).count request := by
  unfold timesSent
  rw [sent_step hinv h, List.map_append, List.count_append]

theorem timesSent_pos : 0 < s.timesSent request ↔ ∃ sent ∈ s.sent, sent.request = request := by
  unfold timesSent
  rw [List.count_pos_iff, List.mem_map]

/-- A step that sends a request again is one that makes another binding take it in. -/
theorem takenAgain_iff (h : s.Inv request) {step : DeliveryStep}
    (hkeeps : s.Keeps request step) (hsent : 0 < s.timesSent request) :
    s.TakenAgain request step ↔ 0 < ((s.sends step).map Sent.request).count request := by
  rw [List.count_pos_iff, List.mem_map]
  constructor
  · intro htaken
    unfold TakenAgain at htaken
    split at htaken
    · obtain ⟨rfl, hcalled, binding, hget, htakes, -⟩ := htaken
      rw [sends_of_takesIn hcalled hget htakes]
      exact ⟨_, List.mem_singleton.mpr rfl, rfl⟩
    · exact htaken.elim
  · rintro ⟨new, hnew, rfl⟩
    obtain ⟨env, frame, piApi, binding, rfl, hcalled, hget, -, htakes⟩ := mem_sends hnew
    obtain ⟨sent, hmem, hrequest⟩ := timesSent_pos.mp hsent
    refine ⟨rfl, hcalled, binding, hget, htakes, sent, hmem, hrequest, fun hbinding => ?_⟩
    obtain ⟨hok, -, -⟩ := h.bindings _ binding hget
    obtain ⟨-, -, -, -, hgeneration, -, -⟩ := takesIn_eq_some htakes
    have hown : (⟨new.request, binding.id⟩ : Sent) ∈ s.sent := by
      rw [← hrequest, ← hbinding]
      exact hmem
    exact not_takesIn_of_recorded hok (h.recorded binding hget hgeneration hown)
      (hkeeps binding hget hgeneration _ (if_pos rfl)) htakes

theorem timesSent_mono {steps : List DeliveryStep} (h : s.Inv request)
    (hkeeps : Along Deliveries.step (Keeps request) s steps)
    (hrun : run Deliveries.step s steps = some t) : s.timesSent request ≤ t.timesSent request := by
  induction steps generalizing s with
  | nil =>
    cases hrun
    exact le_rfl
  | cons step steps ih =>
    obtain ⟨u, hstep, hrest⟩ := run_cons_eq_some.mp hrun
    obtain ⟨hfirst, hkeeps⟩ := (along_cons_of_step hstep).mp hkeeps
    have hmore := ih (h.step hfirst hstep) hkeeps hrest
    rw [timesSent_step h hstep] at hmore
    omega

/-- From a state in which the request has been sent once at most. -/
theorem timesSent_le_one_iff {steps : List DeliveryStep} (h : s.Inv request)
    (honce : s.timesSent request ≤ 1)
    (hkeeps : Along Deliveries.step (Keeps request) s steps)
    (hrun : run Deliveries.step s steps = some t) :
    t.timesSent request ≤ 1 ↔
      Along Deliveries.step (fun s step => ¬ s.TakenAgain request step) s steps := by
  induction steps generalizing s with
  | nil =>
    cases hrun
    exact ⟨fun _ => trivial, fun _ => honce⟩
  | cons step steps ih =>
    obtain ⟨u, hstep, hrest⟩ := run_cons_eq_some.mp hrun
    obtain ⟨hfirst, hkeeps⟩ := (along_cons_of_step hstep).mp hkeeps
    have hinv := h.step hfirst hstep
    have htimes := timesSent_step h hstep
    rw [along_cons_of_step hstep]
    by_cases htaken : s.TakenAgain request step
    · have hsent : 0 < s.timesSent request := by
        unfold TakenAgain at htaken
        split at htaken
        · obtain ⟨-, -, binding, -, -, sent, hmem, hrequest, -⟩ := htaken
          exact timesSent_pos.mpr ⟨sent, hmem, hrequest⟩
        · exact htaken.elim
      have hagain := (takenAgain_iff h hfirst hsent).mp htaken
      have hmore := timesSent_mono hinv hkeeps hrest
      constructor
      · intro hle
        omega
      · intro halong
        exact absurd htaken halong.1
    · have hle : u.timesSent request ≤ 1 := by
        have hone := (List.count_le_length (a := request) (l := (s.sends step).map Sent.request))
        rw [List.length_map] at hone
        have hlength := length_sends_le s step
        rcases Nat.eq_zero_or_pos (s.timesSent request) with hzero | hsent
        · omega
        · have hnone := mt (takenAgain_iff h hfirst hsent).mpr htaken
          omega
      rw [ih hinv hle hkeeps hrest]
      exact ⟨fun halong => ⟨htaken, halong⟩, fun halong => halong.2⟩

end Deliveries

/-- A request of an owner is sent at most once in a run that drops no record of it, exactly if
    no binding takes it in that has no record of it after another one has sent it. -/
theorem sent_once_iff (request : MessageRequest) (generation : String)
    (steps : List DeliveryStep) {s : Deliveries}
    (hrun : run Deliveries.step (.initial generation) steps = some s)
    (hkeeps : Along Deliveries.step (Deliveries.Keeps request) (.initial generation) steps) :
    s.timesSent request ≤ 1 ↔
      Along Deliveries.step (fun s step => ¬ s.TakenAgain request step) (.initial generation)
        steps :=
  Deliveries.timesSent_le_one_iff (Deliveries.inv_initial generation) (Nat.zero_le 1) hkeeps hrun

/-! ## A request that is sent again after a reconnection -/

/-- The owner says hello over a relay, as its first frame there. -/
private def reconnects (relay : RelayId) : DeliveryStep :=
  .host (.attachAndRoute relay zeroOwner idleEnv (.sessionHello "h" "c1")) .sends

/-- The owner sends the request `r1`. -/
private def submits : DeliveryStep :=
  .host (.route zeroOwner idleEnv
    (.inChannel ⟨"f1", "c1", "g1"⟩ (.userMessage ⟨"r1", "hello", [], false⟩))) .sends

private theorem session_named : "s" ≠ "" := by decide

private def opened : List DeliveryStep :=
  [.host (.sessionStart ⟨0, "s", session_named⟩ "g1") .sends, reconnects 0, submits]

/-- A retry in the channel of the first attempt is answered from the record. -/
theorem retry_sent_once : ∃ s, run Deliveries.step (.initial "g0") (opened ++ [submits]) = some s ∧
    s.timesSent ⟨zeroOwner, "g1", "r1"⟩ ≤ 1 := by
  obtain ⟨s, hrun⟩ := Option.isSome_iff_exists.mp
    (show (run Deliveries.step (.initial "g0") (opened ++ [submits])).isSome = true by
      decide)
  exact ⟨s, hrun, (sent_once_iff ⟨zeroOwner, "g1", "r1"⟩ "g0" _ hrun
    (by decide +kernel)).mpr (by decide +kernel)⟩

/-- The relay disconnects after the message was sent; the owner comes back and sends it again,
    and no record has been dropped from a service. -/
theorem retry_sent_twice : ∃ s,
    run Deliveries.step (.initial "g0")
        (opened ++ [.host (.detachAll none) .sends, reconnects 1, submits]) = some s ∧
      Along Deliveries.step (Deliveries.Keeps ⟨zeroOwner, "g1", "r1"⟩) (.initial "g0")
        (opened ++ [.host (.detachAll none) .sends, reconnects 1, submits]) ∧
      ¬ s.timesSent ⟨zeroOwner, "g1", "r1"⟩ ≤ 1 := by
  have htwice : (run Deliveries.step (.initial "g0")
      (opened ++ [.host (.detachAll none) .sends, reconnects 1, submits])).any (fun s =>
        2 ≤ s.timesSent ⟨zeroOwner, "g1", "r1"⟩) = true := by decide +kernel
  obtain ⟨s, hrun, hsent⟩ := (Option.any_eq_true _ _).mp htwice
  exact ⟨s, hrun, by decide +kernel, fun hle =>
    absurd (Nat.le_trans (of_decide_eq_true hsent) hle) (by decide)⟩

end RemotePi.Host
