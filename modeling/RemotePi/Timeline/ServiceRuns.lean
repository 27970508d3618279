import RemotePi.Timeline.RequestStatus

/-!
# Calls of the service

The calls that `TimelineV2Service` (`pi-extension/src/timeline/v2_service.ts`) takes, in any
order and at any times, with a clock for each of them.

Results:
* `ServiceOk.apply`: the service keeps its table through every call.
* `generation_apply`: and its generation, through every call but one.
* `commit_eq`, `unknownDelivery_eq`: what the later calls send, in terms of the record that
  they find.
* `begin_of_live`: a message whose request has a live record is a retry or a conflict.
-/

namespace RemotePi.Timeline

open RemotePi.Lib RemotePi.Protocol

/-- A call of the service. -/
inductive ServiceStep where
  | handle (env : ServiceEnv) (frame : ClientFrame)
  | started (env : ServiceEnv) (message : TimelineStarted)
  | commit (env : ServiceEnv) (clientRequestId messageId : String) (groupId : Option String)
  | unknownDelivery (env : ServiceEnv) (clientRequestId : String)
  | canDrain (env : ServiceEnv) (clientRequestId : String)
  | reset (env : ServiceEnv) (reason : ServiceResetReason)
  | refreshGeneration (next : String)

namespace TimelineV2Service

/-- `canDrain` (lines 181–184). -/
def canDrain (env : ServiceEnv) (s : TimelineV2Service) (clientRequestId : String) :
    TimelineV2Service × Bool :=
  let (s, request) := s.findRecord env clientRequestId
  (s, request.any fun (record, _) => record.status = .received ∨ record.status = .queued)

/-- The service after a call, with what it answers and calls. -/
def apply (s : TimelineV2Service) : ServiceStep → Answer TimelineV2Service
  | .handle env frame => s.handle env frame
  | .started env message => ⟨(s.started env message).1, (s.started env message).2, []⟩
  | .commit env clientRequestId messageId groupId =>
    ⟨(s.commit env clientRequestId messageId groupId).1,
      (s.commit env clientRequestId messageId groupId).2, []⟩
  | .unknownDelivery env clientRequestId =>
    ⟨(s.unknownDelivery env clientRequestId).1, (s.unknownDelivery env clientRequestId).2, []⟩
  | .canDrain env clientRequestId => ⟨(s.canDrain env clientRequestId).1, [], []⟩
  | .reset env reason => ⟨(s.reset env reason).1, (s.reset env reason).2, []⟩
  | .refreshGeneration next => ⟨s.refreshGeneration next, [], []⟩

end TimelineV2Service

/-! ## The table of the service -/

/-- The service keeps its table, with the limits that it starts with. -/
structure ServiceOk (s : TimelineV2Service) : Prop extends ServiceWf s where
  capacity : s.state.maxEntries = 512
  ttl : s.state.ttlMs = 10 * 60 * 1000

section Table

variable {env : ServiceEnv} {s : TimelineV2Service} {frame : ChannelFrame} {message : UserMessage}
  {clientRequestId : String}

theorem ServiceOk.of_state (h : ServiceOk s) {state : SessionState} (hwf : state.Wf)
    (hgeneration : state.generation = s.state.generation)
    (hlimits : state.maxEntries = s.state.maxEntries ∧ state.ttlMs = s.state.ttlMs)
    (requestChannels : OrderedMap String String) :
    ServiceOk { s with state, requestChannels } :=
  ⟨⟨hwf, hgeneration.trans h.generation⟩, hlimits.1.trans h.capacity, hlimits.2.trans h.ttl⟩

theorem ServiceOk.prune (h : ServiceOk s) (now : ℤ) :
    ServiceOk { s with state := s.state.prune now } :=
  h.of_state (h.state.prune now) rfl ⟨rfl, rfl⟩ s.requestChannels

theorem ServiceOk.forget (h : ServiceOk s) (key : String)
    (requestChannels : OrderedMap String String) :
    ServiceOk { s with state := s.state.forget key, requestChannels } :=
  h.of_state (h.state.forget key) rfl ⟨rfl, rfl⟩ requestChannels

theorem ServiceOk.update (h : ServiceOk s) (now : ℤ) (key : String) (status : IdempotencyStatus)
    (messageId groupId : Option String) :
    ServiceOk { s with state := (s.state.update now key status messageId groupId).1 } :=
  h.of_state (h.state.update now key status messageId groupId)
    (SessionState.generation_update _ _ _ _ _ _) (SessionState.limits_update _ _ _ _ _ _)
    s.requestChannels

theorem ServiceOk.begin (h : ServiceOk s) (digest : Json → String) (now : ℤ)
    (senderRef clientRequestId : String) (payload : Json)
    (requestChannels : OrderedMap String String) :
    ServiceOk { s with
      state := (s.state.begin digest now senderRef clientRequestId payload).1, requestChannels } :=
  h.of_state (h.state.begin digest now senderRef clientRequestId payload)
    (SessionState.generation_begin _ _ _ _ _ _) (SessionState.limits_begin _ _ _ _ _ _)
    requestChannels

theorem ServiceOk.touch (h : ServiceOk s) (now : ℤ) (channelId : String) :
    ServiceOk { s with state := s.state.touch now s.senderRef channelId } :=
  h.of_state
    (h.state.of_records (SessionState.records_touch _ _ _ _) (SessionState.maxEntries_touch _ _ _ _))
    (SessionState.generation_touch _ _ _ _)
    ⟨SessionState.maxEntries_touch _ _ _ _, SessionState.ttlMs_touch _ _ _ _⟩ s.requestChannels

theorem ServiceOk.unknownDelivery (h : ServiceOk s) :
    ServiceOk (s.unknownDelivery env clientRequestId).1 := by
  unfold TimelineV2Service.unknownDelivery
  dsimp only
  split
  · exact h.prune env.now
  · exact (h.prune env.now).update env.now _ _ _ _

theorem ServiceOk.started (h : ServiceOk s) (message : TimelineStarted) :
    ServiceOk (s.started env message).1 := by
  unfold TimelineV2Service.started
  split
  · exact h
  · dsimp only
    split
    · exact h.prune env.now
    · exact (h.prune env.now).update env.now _ _ _ _

theorem ServiceOk.commit (h : ServiceOk s) (messageId : String) (groupId : Option String) :
    ServiceOk (s.commit env clientRequestId messageId groupId).1 := by
  unfold TimelineV2Service.commit
  dsimp only
  split
  · exact h.prune env.now
  · exact (h.prune env.now).update env.now _ _ _ _

theorem ServiceOk.replay (h : ServiceOk s) (record : IdempotencyRecord) :
    ServiceOk (s.replay env frame message record).1 := by
  unfold TimelineV2Service.replay
  split
  · exact h.unknownDelivery
  all_goals exact h

theorem ServiceOk.delivered (h : ServiceOk s) (record : IdempotencyRecord) :
    ServiceOk (s.delivered env frame message record).1 := by
  unfold TimelineV2Service.delivered
  split
  · exact h.forget _ _
  · exact h.unknownDelivery
  · exact h.unknownDelivery
  · exact h.update _ _ _ _ _
  · split_ifs
    · exact h.unknownDelivery
    · exact h

theorem ServiceOk.handleReady (h : ServiceOk s) (request : ChannelRequest) :
    ServiceOk (s.handleReady env frame request).service := by
  cases request with
  | userMessage message =>
    unfold TimelineV2Service.handleReady TimelineV2Service.handleUserMessage
    dsimp only
    split
    · exact h.begin _ _ _ _ _ _
    · exact (h.begin _ _ _ _ _ s.requestChannels).replay _
    · exact (h.begin _ _ _ _ _ (s.requestChannels.set _ _)).delivered _
  | userMessageObserved clientRequestId _ =>
    unfold TimelineV2Service.handleReady TimelineV2Service.handleObserved SessionState.getRecord
    dsimp only
    split
    · exact h.prune env.now
    · split_ifs
      · exact h.prune env.now
      · exact (h.prune env.now).forget _ _
  | sessionSync before limit => exact ⟨⟨h.state, h.generation⟩, h.capacity, h.ttl⟩
  | cancel =>
    unfold TimelineV2Service.handleReady TimelineV2Service.handleCancel
    dsimp only
    split <;> exact h
  | action action =>
    unfold TimelineV2Service.handleReady TimelineV2Service.handleAction
    dsimp only
    split <;> exact h
  | listModels =>
    unfold TimelineV2Service.handleReady TimelineV2Service.handleListModels
    dsimp only
    split <;> exact h
  | _ => exact h

theorem ServiceOk.handle (h : ServiceOk s) (clientFrame : ClientFrame) :
    ServiceOk (s.handle env clientFrame).service := by
  cases clientFrame with
  | pairRequest id token deviceName => exact h
  | sessionHello id channelId =>
    exact ⟨⟨h.state.of_records rfl rfl, h.generation⟩, h.capacity, h.ttl⟩
  | inChannel frame request =>
    unfold TimelineV2Service.handle
    dsimp only
    split
    · exact h
    · rename_i hready
      rw [ensureReady_eq_ok hready]
      exact (h.touch env.now frame.channelId).handleReady request

theorem ServiceOk.refreshGeneration (h : ServiceOk s) (next : String) :
    ServiceOk (s.refreshGeneration next) := by
  unfold TimelineV2Service.refreshGeneration
  split_ifs with hsame
  · exact h
  · have hstate : s.state.setGeneration next =
        { s.state with generation := next, records := .empty } := by
      refine if_neg fun heq => hsame (Or.inr ?_)
      rw [heq, h.generation]
    rw [hstate]
    exact ⟨⟨⟨Nat.zero_le _, fun _ _ hget => by cases hget⟩, rfl⟩, h.capacity, h.ttl⟩

/-- Every call keeps the table. -/
theorem ServiceOk.apply (h : ServiceOk s) (call : ServiceStep) :
    ServiceOk (s.apply call).service := by
  cases call with
  | handle env frame => exact h.handle frame
  | started env message => exact h.started message
  | commit env clientRequestId messageId groupId => exact h.commit messageId groupId
  | unknownDelivery env clientRequestId => exact h.unknownDelivery
  | canDrain env clientRequestId => exact h.prune env.now
  | reset env reason => exact h.prune env.now
  | refreshGeneration next => exact h.refreshGeneration next

theorem serviceOk_new (senderRef generation : String) : ServiceOk (.new senderRef generation) :=
  ⟨⟨SessionState.wf_new generation, rfl⟩, rfl, rfl⟩

end Table

/-! ## The generation of the service -/

section Generation

variable {env : ServiceEnv} (s : TimelineV2Service) {frame : ChannelFrame}

theorem generation_unknownDelivery (clientRequestId : String) :
    (s.unknownDelivery env clientRequestId).1.generation = s.generation := by
  unfold TimelineV2Service.unknownDelivery
  dsimp only
  split <;> rfl

theorem generation_delivered (message : UserMessage) (record : IdempotencyRecord) :
    (s.delivered env frame message record).1.generation = s.generation := by
  unfold TimelineV2Service.delivered
  split
  · rfl
  · exact generation_unknownDelivery s _
  · exact generation_unknownDelivery s _
  · rfl
  · split_ifs
    · exact generation_unknownDelivery s _
    · rfl

theorem generation_handleUserMessage (message : UserMessage) :
    (s.handleUserMessage env frame message).service.generation = s.generation := by
  unfold TimelineV2Service.handleUserMessage
  dsimp only
  split
  · rfl
  · unfold TimelineV2Service.replay
    split
    · exact generation_unknownDelivery _ _
    all_goals rfl
  · exact generation_delivered _ _ _

theorem generation_handleReady (request : ChannelRequest) :
    (s.handleReady env frame request).service.generation = s.generation := by
  cases request with
  | userMessage message => exact generation_handleUserMessage s message
  | userMessageObserved clientRequestId messageId =>
    unfold TimelineV2Service.handleReady TimelineV2Service.handleObserved
    dsimp only
    split
    · rfl
    · split_ifs <;> rfl
  | cancel =>
    unfold TimelineV2Service.handleReady TimelineV2Service.handleCancel
    dsimp only
    split <;> rfl
  | action action =>
    unfold TimelineV2Service.handleReady TimelineV2Service.handleAction
    dsimp only
    split <;> rfl
  | listModels =>
    unfold TimelineV2Service.handleReady TimelineV2Service.handleListModels
    dsimp only
    split <;> rfl
  | _ => rfl

theorem generation_handle (clientFrame : ClientFrame) :
    (s.handle env clientFrame).service.generation = s.generation := by
  cases clientFrame with
  | pairRequest id token deviceName => rfl
  | sessionHello id channelId => rfl
  | inChannel frame request =>
    unfold TimelineV2Service.handle
    dsimp only
    split
    · rfl
    · rename_i hready
      rw [ensureReady_eq_ok hready]
      exact generation_handleReady _ request

/-- Only `refreshGeneration` changes the generation of a service. -/
theorem generation_apply {call : ServiceStep} (h : ∀ next, call ≠ .refreshGeneration next) :
    (s.apply call).service.generation = s.generation := by
  cases call with
  | handle env clientFrame => exact generation_handle s clientFrame
  | started env message =>
    show (s.started env message).1.generation = s.generation
    unfold TimelineV2Service.started
    split
    · rfl
    · dsimp only
      split <;> rfl
  | commit env clientRequestId messageId groupId =>
    show (s.commit env clientRequestId messageId groupId).1.generation = s.generation
    unfold TimelineV2Service.commit
    dsimp only
    split <;> rfl
  | unknownDelivery env clientRequestId => exact generation_unknownDelivery s clientRequestId
  | canDrain env clientRequestId => rfl
  | reset env reason => rfl
  | refreshGeneration next => exact absurd rfl (h next)

end Generation

/-! ## What the later calls send -/

section Sent

variable {env : ServiceEnv} {s : TimelineV2Service} {clientRequestId : String}

/-- The record of a request that is alive at the time of a call. -/
def liveRecord (s : TimelineV2Service) (env : ServiceEnv) (clientRequestId : String) :
    Option IdempotencyRecord :=
  (s.state.prune env.now).records.get? (s.recordKey clientRequestId)

theorem findRecord_eq (s : TimelineV2Service) (env : ServiceEnv) (clientRequestId : String) :
    (s.findRecord env clientRequestId).2 = (liveRecord s env clientRequestId).bind fun record =>
      (s.requestChannels.get? clientRequestId).map fun channelId => (record, channelId) := rfl

/-- A record that is found is marked. -/
theorem update_found (h : ServiceOk s) {record : IdempotencyRecord}
    (hlive : liveRecord s env clientRequestId = some record) (status : IdempotencyStatus)
    (messageId groupId : Option String) :
    ((s.state.prune env.now).update env.now record.key status messageId groupId).2 =
      some (SessionState.updated record env.now status messageId groupId) := by
  have hkey := (h.state.prune env.now).keys _ _ hlive
  have hget : (s.state.prune env.now).records.get? record.key = some record := hkey ▸ hlive
  exact (update_mark h.state hget).1

theorem commit_eq (h : ServiceOk s) (messageId : String) (groupId : Option String) :
    (s.commit env clientRequestId messageId groupId).2 =
      match liveRecord s env clientRequestId, s.requestChannels.get? clientRequestId with
      | some _, some channelId =>
        [.userMessageStatus channelId clientRequestId env.manager.sessionId s.generation
          clientRequestId .committed messageId groupId]
      | _, _ => [] := by
  unfold TimelineV2Service.commit
  dsimp only
  rw [findRecord_eq]
  cases hlive : liveRecord s env clientRequestId with
  | none => rfl
  | some record =>
    cases hchannel : s.requestChannels.get? clientRequestId with
    | none => rfl
    | some channelId =>
      have hstate : (s.findRecord env clientRequestId).1.state = s.state.prune env.now := rfl
      dsimp only [Option.bind_some, Option.map_some]
      rw [hstate, update_found h hlive]
      rfl

theorem unknownDelivery_eq (h : ServiceOk s) :
    (s.unknownDelivery env clientRequestId).2 =
      match liveRecord s env clientRequestId, s.requestChannels.get? clientRequestId with
      | some _, some channelId =>
        [.userMessageStatus channelId clientRequestId env.manager.sessionId s.generation
          clientRequestId .unknownDelivery none none]
      | _, _ => [] := by
  unfold TimelineV2Service.unknownDelivery
  dsimp only
  rw [findRecord_eq]
  cases hlive : liveRecord s env clientRequestId with
  | none => rfl
  | some record =>
    cases hchannel : s.requestChannels.get? clientRequestId with
    | none => rfl
    | some channelId =>
      have hstate : (s.findRecord env clientRequestId).1.state = s.state.prune env.now := rfl
      dsimp only [Option.bind_some, Option.map_some]
      rw [hstate, update_found h hlive]
      rfl

end Sent

/-! ## Frames in a channel -/

/-- The service does not refuse the frame (`ensureReady`, lines 405–421). -/
def TimelineV2Service.accepts (s : TimelineV2Service) (frame : ChannelFrame) : Bool :=
  (s.state.channel s.senderRef frame.channelId).isSome && frame.historyGeneration = s.generation

section Frames

variable {s : TimelineV2Service} {frame : ChannelFrame}

theorem handle_of_accepts (env : ServiceEnv) (request : ChannelRequest)
    (h : s.accepts frame = true) : s.handle env (.inChannel frame request) =
      TimelineV2Service.handleReady env
        { s with state := s.state.touch env.now s.senderRef frame.channelId } frame request := by
  obtain ⟨hready, hgeneration⟩ := Bool.and_eq_true_iff.mp h
  have hok : s.ensureReady env frame =
      .ok { s with state := s.state.touch env.now s.senderRef frame.channelId } := by
    unfold TimelineV2Service.ensureReady
    rw [if_neg, if_neg (not_not.mpr (of_decide_eq_true hgeneration))]
    rw [Option.isNone_iff_eq_none]
    exact Option.isSome_iff_ne_none.mp hready
  simp only [TimelineV2Service.handle, hok]

/-- A frame that is refused changes nothing, and is answered in its channel. -/
theorem handle_of_refuses (env : ServiceEnv) (request : ChannelRequest)
    (h : s.accepts frame = false) : ∃ refusal,
      s.handle env (.inChannel frame request) = ⟨s, [refusal], []⟩ ∧
        (refusal = .protocolError (some frame.channelId) frame.id .invalidChannel
            "session_hello required" ∨
          refusal = .reset frame.channelId env.manager.sessionId s.generation
            .generationChanged) := by
  have hrefused : ∃ refusal, s.ensureReady env frame = .error refusal ∧
      (refusal = .protocolError (some frame.channelId) frame.id .invalidChannel
          "session_hello required" ∨
        refusal = .reset frame.channelId env.manager.sessionId s.generation
          .generationChanged) := by
    unfold TimelineV2Service.ensureReady
    split_ifs with hchannel hgeneration
    · exact ⟨_, rfl, Or.inl rfl⟩
    · exact ⟨_, rfl, Or.inr rfl⟩
    · have haccepts : s.accepts frame = true := by
        refine Bool.and_eq_true_iff.mpr ⟨?_, decide_eq_true (not_not.mp hgeneration)⟩
        exact Option.isSome_iff_ne_none.mpr fun hnone => hchannel (by rw [hnone]; rfl)
      rw [haccepts] at h
      cases h
  obtain ⟨refusal, hready, hform⟩ := hrefused
  exact ⟨refusal, by simp only [TimelineV2Service.handle, hready], hform⟩

end Frames

/-! ## User messages -/

section Begin

variable {env : ServiceEnv} {s : TimelineV2Service} {message : UserMessage}

theorem liveRecord_touch (channelId clientRequestId : String) :
    liveRecord { s with state := s.state.touch env.now s.senderRef channelId } env
      clientRequestId = liveRecord s env clientRequestId := by
  unfold liveRecord
  dsimp only
  rw [SessionState.records_prune_touch]
  rfl

/-- A message whose request has a live record is a retry of it, or conflicts with it. -/
theorem begin_of_live (h : ServiceOk s) {record : IdempotencyRecord}
    (hlive : liveRecord s env message.clientRequestId = some record) :
    s.state.begin env.digest env.now s.senderRef message.clientRequestId
        (TimelineV2Service.idempotencyPayload message) =
      ({ s.state.prune env.now with
          records := (s.state.prune env.now).records.moveLast
            (s.recordKey message.clientRequestId) { record with touchedAt := env.now } },
        if record.fingerprint =
            fingerprintPayload env.digest (TimelineV2Service.idempotencyPayload message) then
          .replay { record with touchedAt := env.now }
        else .conflict { record with touchedAt := env.now }) := by
  unfold liveRecord at hlive
  have hkey : s.recordKey message.clientRequestId =
      SessionState.recordKey (s.state.prune env.now).generation s.senderRef
        message.clientRequestId := by
    rw [SessionState.generation_prune, h.generation]
    rfl
  rw [hkey] at hlive ⊢
  unfold SessionState.begin
  dsimp only
  rw [hlive]

/-- A message whose request has none is new, and gets one. -/
theorem begin_of_not_live (h : ServiceOk s)
    (hlive : liveRecord s env message.clientRequestId = none) :
    ∃ record : IdempotencyRecord, record.key = s.recordKey message.clientRequestId ∧
      record.touchedAt = env.now ∧
      s.state.begin env.digest env.now s.senderRef message.clientRequestId
          (TimelineV2Service.idempotencyPayload message) =
        (SessionState.pruneCapacity { s.state.prune env.now with
          records := (s.state.prune env.now).records.set
            (s.recordKey message.clientRequestId) record }, .new record) := by
  unfold liveRecord at hlive
  have hkey : s.recordKey message.clientRequestId =
      SessionState.recordKey (s.state.prune env.now).generation s.senderRef
        message.clientRequestId := by
    rw [SessionState.generation_prune, h.generation]
    rfl
  rw [hkey] at hlive ⊢
  unfold SessionState.begin
  dsimp only
  rw [hlive]
  exact ⟨_, rfl, rfl, rfl⟩

/-- A record that has just been touched is alive. -/
theorem liveRecord_moveLast (h : ServiceOk s) {record : IdempotencyRecord}
    (hlive : liveRecord s env message.clientRequestId = some record) :
    liveRecord { s with state := (s.state.begin env.digest env.now s.senderRef
        message.clientRequestId (TimelineV2Service.idempotencyPayload message)).1 } env
      message.clientRequestId = some { record with touchedAt := env.now } := by
  have hok := h.begin env.digest env.now s.senderRef message.clientRequestId
    (TimelineV2Service.idempotencyPayload message) s.requestChannels
  refine hok.state.get?_prune_of_live ?_ ?_
  · dsimp only
    rw [begin_of_live h hlive]
    dsimp only
    rw [OrderedMap.get?_moveLast]
    exact if_pos rfl
  · unfold SessionState.isExpired
    rw [hok.ttl]
    simp

end Begin

end RemotePi.Timeline
