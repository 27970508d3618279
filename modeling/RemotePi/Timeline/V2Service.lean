import RemotePi.Protocol.SessionState
import RemotePi.Timeline.History

/-!
# The session service of an owner

Model of `TimelineV2Service` (`pi-extension/src/timeline/v2_service.ts`): it answers
the frames that an owner sends in a session, hands user messages to the agent, and
reports how they fare.

The callbacks of the service are outside of it: `Callbacks` says what they return
during a call, and the calls themselves are an output. A callback returns before any
message starts, since the agent starts messages asynchronously.

Results:
* `IsReady.handle`: a channel that is ready stays ready.
* `isReady_of_sessionReady`, `not_invalidChannel`: what `session_ready` opens, and that an
  open channel is never refused.
-/

namespace RemotePi.Timeline

open RemotePi.Lib RemotePi.Protocol

/-! ## Client frames (`protocol/v2/schemas.ts`, lines 279–324) -/

/-- `wireImage` (lines 203–206). -/
structure WireImage where
  data : String
  mime : String
deriving DecidableEq

/-- `user_message`, without the members that all frames of a channel have. -/
structure UserMessage where
  clientRequestId : String
  text : String
  images : List WireImage
  steer : Bool
deriving DecidableEq

inductive ThinkingLevel where
  | off
  | minimal
  | low
  | medium
  | high
  | xhigh
deriving DecidableEq, Repr

/-- `V2ActionFrame` (lines 15–18). -/
inductive Action where
  | sessionNew
  | sessionCompact
  | modelSet (provider modelId : String)
  | thinkingSet (level : ThinkingLevel)
deriving DecidableEq

/-- What is asked in a channel. -/
inductive ChannelRequest where
  | userMessage (message : UserMessage)
  | userMessageObserved (clientRequestId messageId : String)
  | sessionSync (before : Option String) (limit : Option ℕ)
  | ping
  | cancel
  | action (action : Action)
  | listModels
  | queuedMessageSet (text : String) (images : List WireImage)
  | queuedMessageClear (targetId : Option String)
  | approveTool (toolCallId : String) (allow : Bool)
  | extensionUiResponse
deriving DecidableEq

/-- The members that the frames of a channel share. -/
structure ChannelFrame where
  id : String
  channelId : String
  historyGeneration : String
deriving DecidableEq

inductive ClientFrame where
  | pairRequest (id token deviceName : String)
  | sessionHello (id channelId : String)
  | inChannel (frame : ChannelFrame) (request : ChannelRequest)
deriving DecidableEq

/-! ## Server frames -/

inductive MessageOrigin where
  | pwa
  | extension
  | unknown
deriving DecidableEq, Repr

inductive MessageDelivery where
  | normal
  | queued
  | unknown
deriving DecidableEq, Repr

/-- `Correlation` (`timeline/runtime.ts`, lines 34–41). -/
structure Correlation where
  clientRequestId : Option String
  channelId : Option String
  requestId : Option String
  origin : MessageOrigin
  delivery : MessageDelivery
  senderRef : Option String
deriving DecidableEq

/-- The blocks of a user message. -/
inductive UserBlock where
  | text (text : String)
  | image (mimeType data : String) (byteLength : ℕ)
deriving DecidableEq

inductive MessageRole where
  | user
  | assistant
  | toolResult
deriving DecidableEq, Repr

/-- `TimelineStarted` (`timeline/runtime.ts`, lines 54–60). -/
structure TimelineStarted where
  eventId : String
  groupId : String
  role : MessageRole
  correlation : Correlation
  blocks : List UserBlock
deriving DecidableEq

/-- The message of `user_message_started`. -/
structure StartedMessage where
  id : String
  groupId : String
  blocks : List UserBlock
  origin : MessageOrigin
  senderRef : Option String
  delivery : MessageDelivery
deriving DecidableEq

inductive MessageStatus where
  | received
  | accepted
  | committed
  | unknownDelivery
deriving DecidableEq, Repr

inductive ServiceErrorCode where
  | protocolUpgradeRequired
  | invalidChannel
  | invalidMessage
  | unsupportedType
  | tooLarge
  | internalError
deriving DecidableEq, Repr

inductive ServiceResetReason where
  | generationChanged
  | branchChanged
  | sessionReplaced
deriving DecidableEq, Repr

structure WireModel where
  id : String
  name : String
  provider : String
  reasoning : Bool
  contextWindow : ℕ
  vision : Bool
deriving DecidableEq

/-- The result of `onListModels`. -/
structure ModelsList where
  models : List WireModel
  current : Option WireModel
deriving DecidableEq

/-- The frames that the service answers with. -/
inductive ServiceFrame where
  | sessionReady (targetChannelId inReplyTo sessionId historyGeneration selfSenderRef : String)
  | userMessageStatus (targetChannelId inReplyTo sessionId historyGeneration : String)
      (clientRequestId : String) (status : MessageStatus) (messageId groupId : Option String)
  | userMessageStarted (targetChannelId inReplyTo sessionId historyGeneration : String)
      (message : StartedMessage)
  | pong (targetChannelId inReplyTo : String)
  | cancelled (targetChannelId inReplyTo : String)
  | modelsList (targetChannelId inReplyTo : String) (models : ModelsList)
  | protocolError (targetChannelId : Option String) (inReplyTo : String)
      (code : ServiceErrorCode) (message : String)
  | reset (targetChannelId sessionId historyGeneration : String) (reason : ServiceResetReason)
  | history (frame : Protocol.ServerFrame)
deriving DecidableEq

/-! ## Callbacks -/

inductive UserMessageResult where
  | accepted
  | declined
  | queued
  | rejected
  | throws
deriving DecidableEq, Repr

inductive CancelResult where
  | aborted
  | idle
  | throws (detail : String)
deriving DecidableEq

/-- What the callbacks return when they are called (lines 20–34); none for one that the
    service does not have. -/
structure Callbacks where
  onUserMessage : UserMessageResult
  onCancel : Option CancelResult
  /-- whether it throws -/
  onAction : Option Bool
  hasQueuedMessageClear : Bool
  /-- none where it throws -/
  onListModels : Option (Option ModelsList)
deriving DecidableEq

inductive ServiceCall where
  | onUserMessage (frame : ChannelFrame) (message : UserMessage) (correlation : Correlation)
  | onCancel
  | onAction (frame : ChannelFrame) (action : Action)
  | onQueuedMessageClear (targetId : Option String)
  | onListModels
deriving DecidableEq

/-- What a call of the service reads: the clock, the session, fresh cursor tokens, the
    callbacks. -/
structure ServiceEnv where
  digest : Json → String
  token : ℕ → String
  now : ℤ
  manager : SessionManager
  callbacks : Callbacks

/-- The service after a call, with what it answers and calls. -/
structure Answer (σ : Type) where
  service : σ
  frames : List ServiceFrame
  calls : List ServiceCall

/-! ## The service -/

/-- `TimelineV2Service` (lines 43–74). -/
structure TimelineV2Service where
  senderRef : String
  generation : String
  state : SessionState
  requestChannels : OrderedMap String String
  pager : Pager

namespace TimelineV2Service

def new (senderRef generation : String) : TimelineV2Service :=
  ⟨senderRef, generation, .new generation, .empty, .initial⟩

/-- `reset` (lines 78–87). -/
def reset (env : ServiceEnv) (s : TimelineV2Service) (reason : ServiceResetReason) :
    TimelineV2Service × List ServiceFrame :=
  ({ s with state := s.state.prune env.now },
    s.state.channels.values.map fun channel =>
      .reset channel.channelId env.manager.sessionId s.generation reason)

/-- `refreshGeneration` (lines 89–95). -/
def refreshGeneration (s : TimelineV2Service) (next : String) : TimelineV2Service :=
  if next = "" ∨ next = s.generation then s
  else
    { s with
      generation := next
      state := s.state.setGeneration next
      requestChannels := .empty }

/-- `recordKey` (lines 451–453). -/
def recordKey (s : TimelineV2Service) (clientRequestId : String) : String :=
  SessionState.recordKey s.generation s.senderRef clientRequestId

/-- `findRecord` (lines 455–460). -/
def findRecord (env : ServiceEnv) (s : TimelineV2Service) (clientRequestId : String) :
    TimelineV2Service × Option (IdempotencyRecord × String) :=
  let (state, record) := s.state.getRecord env.now (s.recordKey clientRequestId)
  ({ s with state },
    record.bind fun record => (s.requestChannels.get? clientRequestId).map fun channelId =>
      (record, channelId))

/-- `started` (lines 129–162). -/
def started (env : ServiceEnv) (s : TimelineV2Service) (started : TimelineStarted) :
    TimelineV2Service × List ServiceFrame :=
  match started.correlation.clientRequestId with
  | none => (s, [])
  | some clientRequestId =>
    let (s, request) := s.findRecord env clientRequestId
    match request with
    | none => (s, [])
    | some (record, channelId) =>
      let (state, _) := s.state.update env.now record.key .accepted started.eventId started.groupId
      let inReplyTo := started.correlation.requestId.getD clientRequestId
      ({ s with state },
        [.userMessageStatus channelId inReplyTo env.manager.sessionId s.generation
            clientRequestId .accepted started.eventId started.groupId,
          .userMessageStarted channelId inReplyTo env.manager.sessionId s.generation
            { id := started.eventId
              groupId := started.groupId
              blocks := started.blocks
              origin := started.correlation.origin
              senderRef := started.correlation.senderRef
              delivery := started.correlation.delivery }])

/-- `commit` (lines 164–179). -/
def commit (env : ServiceEnv) (s : TimelineV2Service) (clientRequestId messageId : String)
    (groupId : Option String) : TimelineV2Service × List ServiceFrame :=
  let (s, request) := s.findRecord env clientRequestId
  match request with
  | none => (s, [])
  | some (record, channelId) =>
    let (state, updated) := s.state.update env.now record.key .committed messageId groupId
    ({ s with state },
      if updated.isNone then []
      else [.userMessageStatus channelId clientRequestId env.manager.sessionId s.generation
        clientRequestId .committed messageId groupId])

/-- `unknownDelivery` (lines 186–200). -/
def unknownDelivery (env : ServiceEnv) (s : TimelineV2Service) (clientRequestId : String) :
    TimelineV2Service × List ServiceFrame :=
  let (s, request) := s.findRecord env clientRequestId
  match request with
  | none => (s, [])
  | some (record, channelId) =>
    let (state, updated) := s.state.update env.now record.key .unknownDelivery none none
    ({ s with state },
      if updated.isNone then []
      else [.userMessageStatus channelId clientRequestId env.manager.sessionId s.generation
        clientRequestId .unknownDelivery none none])

/-- `ensureReady` (lines 405–421): the frame that refuses the request, or the service with
    its channel touched. -/
def ensureReady (env : ServiceEnv) (s : TimelineV2Service) (frame : ChannelFrame) :
    Except ServiceFrame TimelineV2Service :=
  if (s.state.channel s.senderRef frame.channelId).isNone then
    .error (.protocolError frame.channelId frame.id .invalidChannel "session_hello required")
  else if frame.historyGeneration ≠ s.generation then
    .error (.reset frame.channelId env.manager.sessionId s.generation .generationChanged)
  else .ok { s with state := s.state.touch env.now s.senderRef frame.channelId }

/-- `ready` (lines 239–250). -/
def ready (env : ServiceEnv) (s : TimelineV2Service) (id channelId : String) :
    TimelineV2Service × ServiceFrame :=
  ({ s with state := s.state.hello env.now s.senderRef channelId },
    .sessionReady channelId id env.manager.sessionId s.generation s.senderRef)

/-- `idempotencyPayload` (lines 443–449). -/
def idempotencyPayload (message : UserMessage) : Json :=
  .object [("text", .string message.text),
    ("images", .array (message.images.map fun image =>
      .object [("data", .string image.data), ("mime", .string image.mime)])),
    ("streaming_behavior", if message.steer then .string "steer" else .null)]

/-- `status` (lines 357–373). -/
def status (env : ServiceEnv) (s : TimelineV2Service) (frame : ChannelFrame)
    (message : UserMessage) (status : MessageStatus) (messageId groupId : Option String) :
    ServiceFrame :=
  .userMessageStatus frame.channelId frame.id env.manager.sessionId s.generation
    message.clientRequestId status messageId groupId

/-- `replay` (lines 347–355). -/
def replay (env : ServiceEnv) (s : TimelineV2Service) (frame : ChannelFrame)
    (message : UserMessage) (record : IdempotencyRecord) :
    TimelineV2Service × List ServiceFrame :=
  match record.status with
  | .unknownDelivery => s.unknownDelivery env message.clientRequestId
  | .received => (s, [s.status env frame message .received none none])
  | .queued => (s, [s.status env frame message .accepted none none])
  | .committed => (s, [s.status env frame message .committed record.messageId record.groupId])
  | .accepted => (s, [s.status env frame message .accepted record.messageId record.groupId])

/-- The correlation under which a message is handed over (lines 318–327). -/
def correlationOf (s : TimelineV2Service) (frame : ChannelFrame) (message : UserMessage) :
    Correlation :=
  if message.steer then
    { clientRequestId := none, channelId := frame.channelId, requestId := frame.id
      origin := .unknown, delivery := .unknown, senderRef := none }
  else
    { clientRequestId := message.clientRequestId, channelId := frame.channelId
      requestId := frame.id, origin := .pwa, delivery := .normal, senderRef := s.senderRef }

/-- What follows the hand-over of a new message (lines 328–344). -/
def delivered (env : ServiceEnv) (s : TimelineV2Service) (frame : ChannelFrame)
    (message : UserMessage) (record : IdempotencyRecord) :
    TimelineV2Service × List ServiceFrame :=
  match env.callbacks.onUserMessage with
  | .rejected =>
    ({ s with
        state := s.state.forget record.key
        requestChannels := s.requestChannels.erase message.clientRequestId },
      [.protocolError frame.channelId frame.id .tooLarge
        "The image queue is full; retry after queued work drains."])
  | .declined => s.unknownDelivery env message.clientRequestId
  | .throws => s.unknownDelivery env message.clientRequestId
  | .queued =>
    let (state, _) := s.state.update env.now record.key .queued none none
    ({ s with state }, [s.status env frame message .accepted none none])
  | .accepted =>
    if message.steer then s.unknownDelivery env message.clientRequestId
    else (s, [s.status env frame message .received none none])

/-- `handleUserMessage` (lines 305–345), in a channel that is ready. -/
def handleUserMessage (env : ServiceEnv) (s : TimelineV2Service) (frame : ChannelFrame)
    (message : UserMessage) : Answer TimelineV2Service :=
  let (state, result) := s.state.begin env.digest env.now s.senderRef message.clientRequestId
    (idempotencyPayload message)
  let s := { s with state }
  match result with
  | .conflict _ =>
    ⟨s, [.protocolError frame.channelId frame.id .invalidMessage
      "client_request_id payload conflict"], []⟩
  | .replay record =>
    let (s, frames) := s.replay env frame message record
    ⟨s, frames, []⟩
  | .new record =>
    let s := { s with
      requestChannels := s.requestChannels.set message.clientRequestId frame.channelId }
    let (s', frames) := s.delivered env frame message record
    ⟨s', frames, [.onUserMessage frame message (s.correlationOf frame message)]⟩

/-- `handleObserved` (lines 294–303). -/
def handleObserved (env : ServiceEnv) (s : TimelineV2Service) (frame : ChannelFrame)
    (clientRequestId : String) : Answer TimelineV2Service :=
  let (state, record) := s.state.getRecord env.now (s.recordKey clientRequestId)
  let s := { s with state }
  match record with
  | none =>
    ⟨s, [.protocolError frame.channelId frame.id .invalidMessage "unknown observed request"], []⟩
  | some record =>
    if record.senderRef ≠ s.senderRef then
      ⟨s, [.protocolError frame.channelId frame.id .invalidMessage "unknown observed request"], []⟩
    else
      ⟨{ s with
          state := s.state.forget record.key
          requestChannels := s.requestChannels.erase clientRequestId }, [], []⟩

/-- `handleCancel` (lines 275–292). -/
def handleCancel (env : ServiceEnv) (s : TimelineV2Service) (frame : ChannelFrame) :
    Answer TimelineV2Service :=
  let calls := if env.callbacks.onCancel.isSome then [.onCancel] else []
  match env.callbacks.onCancel.getD .idle with
  | .aborted => ⟨s, [.cancelled frame.channelId frame.id], calls⟩
  | .idle =>
    ⟨s, [.protocolError frame.channelId frame.id .internalError "no active request to cancel"],
      calls⟩
  | .throws detail =>
    ⟨s, [.protocolError frame.channelId frame.id .internalError ("cancel failed: " ++ detail)],
      calls⟩

/-- `handleAction` (lines 387–398). -/
def handleAction (env : ServiceEnv) (s : TimelineV2Service) (frame : ChannelFrame)
    (action : Action) : Answer TimelineV2Service :=
  match env.callbacks.onAction with
  | none =>
    ⟨s, [.protocolError frame.channelId frame.id .unsupportedType
      "session action is unavailable"], []⟩
  | some false => ⟨s, [], [.onAction frame action]⟩
  | some true =>
    ⟨s, [.protocolError frame.channelId frame.id .internalError
      "Could not execute session action."], [.onAction frame action]⟩

/-- `handleListModels` (lines 375–385). -/
def handleListModels (env : ServiceEnv) (s : TimelineV2Service) (frame : ChannelFrame) :
    Answer TimelineV2Service :=
  match env.callbacks.onListModels with
  | none =>
    ⟨s, [.protocolError frame.channelId frame.id .unsupportedType
      "model listing is unavailable"], []⟩
  | some (some models) =>
    ⟨s, [.modelsList frame.channelId frame.id models], [.onListModels]⟩
  | some none =>
    ⟨s, [.protocolError frame.channelId frame.id .internalError
      "Could not list available models."], [.onListModels]⟩

/-- `handleHistory` (lines 252–261), which reads the generation of the service. -/
def handleHistory (env : ServiceEnv) (s : TimelineV2Service) (frame : ChannelFrame)
    (before : Option String) (limit : Option ℕ) : Answer TimelineV2Service :=
  let manager := { env.manager with historyGeneration := s.generation }
  let (pager, frames) := sync env.token manager s.pager
    { requestId := frame.id, targetChannelId := frame.channelId, before, limit }
  ⟨{ s with pager }, frames.map .history, []⟩

/-- What is asked in a channel that is ready (lines 103–126). -/
def handleReady (env : ServiceEnv) (s : TimelineV2Service) (frame : ChannelFrame) :
    ChannelRequest → Answer TimelineV2Service
  | .sessionSync before limit => s.handleHistory env frame before limit
  | .ping => ⟨s, [.pong frame.channelId frame.id], []⟩
  | .cancel => s.handleCancel env frame
  | .userMessage message => s.handleUserMessage env frame message
  | .userMessageObserved clientRequestId _ => s.handleObserved env frame clientRequestId
  | .action action => s.handleAction env frame action
  | .listModels => s.handleListModels env frame
  | .queuedMessageClear targetId =>
    ⟨s, [], if env.callbacks.hasQueuedMessageClear then [.onQueuedMessageClear targetId] else []⟩
  | .queuedMessageSet _ _ | .approveTool _ _ | .extensionUiResponse =>
    ⟨s, [.protocolError frame.channelId frame.id .unsupportedType "frame is not implemented"], []⟩

/-- `handle` (lines 97–127). -/
def handle (env : ServiceEnv) (s : TimelineV2Service) : ClientFrame → Answer TimelineV2Service
  | .sessionHello id channelId =>
    let (s, frame) := s.ready env id channelId
    ⟨s, [frame], []⟩
  | .pairRequest id _ _ =>
    ⟨s, [.protocolError none id .protocolUpgradeRequired
      "pairing is handled before session_hello"], []⟩
  | .inChannel frame request =>
    match s.ensureReady env frame with
    | .error refusal => ⟨s, [refusal], []⟩
    | .ok s => s.handleReady env frame request

/-! ## Channels -/

section Channels

variable {env : ServiceEnv} {s : TimelineV2Service} {frame : ChannelFrame}
  {channelId : String}

/-- The channel of the sender is ready. -/
def IsReady (s : TimelineV2Service) (channelId : String) : Prop :=
  (s.state.channel s.senderRef channelId).isSome = true

theorem IsReady.of_channels {s' : TimelineV2Service} (h : s.IsReady channelId)
    (hsender : s'.senderRef = s.senderRef) (hchannels : s'.state.channels = s.state.channels) :
    s'.IsReady channelId := by
  unfold IsReady SessionState.channel at h ⊢
  rw [hsender, hchannels]
  exact h

/-- The sender and the channels are the same. -/
def SameChannels (s s' : TimelineV2Service) : Prop :=
  s'.senderRef = s.senderRef ∧ s'.state.channels = s.state.channels

theorem SameChannels.trans {s' s'' : TimelineV2Service} (h : SameChannels s s')
    (h' : SameChannels s' s'') : SameChannels s s'' := ⟨h'.1.trans h.1, h'.2.trans h.2⟩

theorem sameChannels_findRecord (s : TimelineV2Service) (clientRequestId : String) :
    SameChannels s (s.findRecord env clientRequestId).1 := ⟨rfl, rfl⟩

theorem sameChannels_unknownDelivery (s : TimelineV2Service) (clientRequestId : String) :
    SameChannels s (s.unknownDelivery env clientRequestId).1 := by
  unfold unknownDelivery
  dsimp only
  split
  · exact sameChannels_findRecord s clientRequestId
  · exact ⟨rfl, SessionState.channels_update _ _ _ _ _ _⟩

theorem sameChannels_replay (s : TimelineV2Service) (message : UserMessage)
    (record : IdempotencyRecord) : SameChannels s (s.replay env frame message record).1 := by
  unfold replay
  split
  · exact sameChannels_unknownDelivery s _
  all_goals exact ⟨rfl, rfl⟩

theorem sameChannels_delivered (s : TimelineV2Service) (message : UserMessage)
    (record : IdempotencyRecord) : SameChannels s (s.delivered env frame message record).1 := by
  unfold delivered
  split
  · exact ⟨rfl, rfl⟩
  · exact sameChannels_unknownDelivery s _
  · exact sameChannels_unknownDelivery s _
  · exact ⟨rfl, SessionState.channels_update _ _ _ _ _ _⟩
  · split_ifs
    · exact sameChannels_unknownDelivery s _
    · exact ⟨rfl, rfl⟩

/-- What is asked in a ready channel changes no channel. -/
theorem sameChannels_handleReady (s : TimelineV2Service) (request : ChannelRequest) :
    SameChannels s (s.handleReady env frame request).service := by
  cases request with
  | userMessage message =>
    have hbegin := SessionState.channels_begin env.digest s.state env.now s.senderRef
      message.clientRequestId (idempotencyPayload message)
    unfold handleReady handleUserMessage
    dsimp only
    generalize s.state.begin env.digest env.now s.senderRef message.clientRequestId
      (idempotencyPayload message) = begun at hbegin
    obtain ⟨state, result⟩ := begun
    cases result with
    | conflict record => exact ⟨rfl, hbegin⟩
    | replay record =>
      obtain ⟨hsender, hchannels⟩ := @sameChannels_replay env frame { s with state } message record
      exact ⟨hsender, hchannels.trans hbegin⟩
    | new record =>
      obtain ⟨hsender, hchannels⟩ := @sameChannels_delivered env frame { s with
        state
        requestChannels := s.requestChannels.set message.clientRequestId frame.channelId }
        message record
      exact ⟨hsender, hchannels.trans hbegin⟩
  | userMessageObserved clientRequestId messageId =>
    unfold handleReady handleObserved
    dsimp only
    split
    · exact ⟨rfl, rfl⟩
    · split_ifs <;> exact ⟨rfl, rfl⟩
  | sessionSync before limit => exact ⟨rfl, rfl⟩
  | ping => exact ⟨rfl, rfl⟩
  | cancel =>
    unfold handleReady handleCancel
    dsimp only
    split <;> exact ⟨rfl, rfl⟩
  | action action =>
    unfold handleReady handleAction
    dsimp only
    split <;> exact ⟨rfl, rfl⟩
  | listModels =>
    unfold handleReady handleListModels
    dsimp only
    split <;> exact ⟨rfl, rfl⟩
  | queuedMessageSet text images => exact ⟨rfl, rfl⟩
  | queuedMessageClear targetId => exact ⟨rfl, rfl⟩
  | approveTool toolCallId allow => exact ⟨rfl, rfl⟩
  | extensionUiResponse => exact ⟨rfl, rfl⟩

@[simp] theorem senderRef_handle (env : ServiceEnv) (s : TimelineV2Service)
    (frame : ClientFrame) : (s.handle env frame).service.senderRef = s.senderRef := by
  cases frame with
  | pairRequest id token deviceName => rfl
  | sessionHello id channelId => rfl
  | inChannel frame request =>
    unfold handle ensureReady
    dsimp only
    split_ifs
    · rfl
    · rfl
    · exact (sameChannels_handleReady _ request).1

/-- A ready channel stays ready, whatever comes. -/
theorem IsReady.handle (h : s.IsReady channelId) (env : ServiceEnv) (frame : ClientFrame) :
    (s.handle env frame).service.IsReady channelId := by
  cases frame with
  | pairRequest id token deviceName => exact h
  | sessionHello id channelId' =>
    exact SessionState.isSome_channel_hello _ _ _ _ (Or.inr h)
  | inChannel frame request =>
    unfold TimelineV2Service.handle ensureReady
    dsimp only
    split_ifs
    · exact h
    · exact h
    · obtain ⟨hsender, hchannels⟩ := @sameChannels_handleReady env frame
        { s with state := s.state.touch env.now s.senderRef frame.channelId } request
      exact IsReady.of_channels (s := { s with
        state := s.state.touch env.now s.senderRef frame.channelId })
        (SessionState.isSome_channel_touch _ _ _ _ h) hsender hchannels

theorem IsReady.refreshGeneration (h : s.IsReady channelId) (next : String) :
    (s.refreshGeneration next).IsReady channelId := by
  unfold TimelineV2Service.refreshGeneration
  split_ifs
  · exact h
  · exact h.of_channels rfl (SessionState.channels_setGeneration _ _)

theorem IsReady.reset (h : s.IsReady channelId) (env : ServiceEnv) (reason : ServiceResetReason) :
    (s.reset env reason).1.IsReady channelId := h.of_channels rfl rfl

/-- The frames about channels: `session_ready` and `invalid_channel`. -/
def isGate : ServiceFrame → Bool
  | .sessionReady _ _ _ _ _ => true
  | .protocolError _ _ .invalidChannel _ => true
  | _ => false

theorem isGate_unknownDelivery (s : TimelineV2Service) (clientRequestId : String) :
    ∀ f ∈ (s.unknownDelivery env clientRequestId).2, isGate f = false := by
  unfold unknownDelivery
  dsimp only
  split
  · simp
  · split_ifs <;> simp [isGate]

theorem isGate_replay (s : TimelineV2Service) (message : UserMessage)
    (record : IdempotencyRecord) :
    ∀ f ∈ (s.replay env frame message record).2, isGate f = false := by
  unfold replay
  split
  · exact isGate_unknownDelivery s _
  all_goals simp [isGate, status]

theorem isGate_delivered (s : TimelineV2Service) (message : UserMessage)
    (record : IdempotencyRecord) :
    ∀ f ∈ (s.delivered env frame message record).2, isGate f = false := by
  unfold delivered
  split
  · simp [isGate]
  · exact isGate_unknownDelivery s _
  · exact isGate_unknownDelivery s _
  · simp [isGate, status]
  · split_ifs
    · exact isGate_unknownDelivery s _
    · simp [isGate, status]

/-- What is asked in a ready channel is not answered with a frame about channels. -/
theorem isGate_handleReady (s : TimelineV2Service) (request : ChannelRequest) :
    ∀ f ∈ (s.handleReady env frame request).frames, isGate f = false := by
  cases request with
  | userMessage message =>
    unfold handleReady handleUserMessage
    dsimp only
    split
    · simp [isGate]
    · exact isGate_replay _ message _
    · exact isGate_delivered _ message _
  | userMessageObserved clientRequestId messageId =>
    unfold handleReady handleObserved
    dsimp only
    split
    · simp [isGate]
    · split_ifs <;> simp [isGate]
  | sessionSync before limit =>
    intro f hf
    obtain ⟨_, -, rfl⟩ := List.mem_map.mp hf
    rfl
  | ping => simp [handleReady, isGate]
  | cancel =>
    unfold handleReady handleCancel
    dsimp only
    split <;> simp [isGate]
  | action action =>
    unfold handleReady handleAction
    dsimp only
    split <;> simp [isGate]
  | listModels =>
    unfold handleReady handleListModels
    dsimp only
    split <;> simp [isGate]
  | queuedMessageSet text images => simp [handleReady, isGate]
  | queuedMessageClear targetId => simp [handleReady]
  | approveTool toolCallId allow => simp [handleReady, isGate]
  | extensionUiResponse => simp [handleReady, isGate]

/-- A `session_ready` opens the channel it is sent to. -/
theorem isReady_of_sessionReady {inReplyTo sessionId generation selfSenderRef : String}
    {clientFrame : ClientFrame}
    (h : .sessionReady channelId inReplyTo sessionId generation selfSenderRef ∈
      (s.handle env clientFrame).frames) : (s.handle env clientFrame).service.IsReady channelId := by
  cases clientFrame with
  | pairRequest id token deviceName => simp [handle] at h
  | sessionHello id channelId' =>
    have hframe := List.mem_singleton.mp h
    cases hframe
    exact SessionState.isSome_channel_hello _ _ _ _ (Or.inl rfl)
  | inChannel frame request =>
    exfalso
    unfold handle ensureReady at h
    dsimp only at h
    split_ifs at h
    · simp at h
    · simp at h
    · have hplain := isGate_handleReady _ request _ h
      cases hplain

/-- A frame in a ready channel is not answered with `invalid_channel`. -/
theorem not_invalidChannel {request : ChannelRequest} (h : s.IsReady frame.channelId)
    {targetChannelId : Option String} {inReplyTo message : String} :
    .protocolError targetChannelId inReplyTo .invalidChannel message ∉
      (s.handle env (.inChannel frame request)).frames := by
  intro hmem
  have hsome : ¬ (s.state.channel s.senderRef frame.channelId).isNone = true := by
    rw [Option.isNone_iff_eq_none]
    exact Option.isSome_iff_ne_none.mp h
  unfold handle ensureReady at hmem
  dsimp only at hmem
  rw [if_neg hsome] at hmem
  split_ifs at hmem
  · simp at hmem
  · have hplain := isGate_handleReady _ request _ hmem
    cases hplain

end Channels

end TimelineV2Service

end RemotePi.Timeline
