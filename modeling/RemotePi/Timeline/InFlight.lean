import RemotePi.Timeline.ServiceRuns

/-!
# Requests in flight

A request is in flight from the moment `onUserMessage` takes its message until the service is
told that its event is published, or that the owner has observed it
(`pi-extension/src/timeline/v2_service.ts`). All that the service knows of it is a record in a
table that forgets the records that no call has touched for ten minutes and holds 512 of them
(`protocol/v2/session_state.ts`, lines 178–192).

Results:
* `recorded_apply`: a request keeps its record through a call that forgets none in flight.
* `in_flight_kept`: along a run of such calls a request in flight is not handed over again, and
  its commit is reported.
-/

namespace RemotePi.Timeline

open RemotePi.Lib RemotePi.Protocol

/-! ## Runs -/

/-- A service, with the requests that are in flight. -/
structure InFlightRun where
  service : TimelineV2Service
  inFlight : List String

/-- A call that hands a message over. -/
def ServiceCall.isHandOver : ServiceCall → Bool
  | .onUserMessage _ _ _ => true
  | _ => false

/-- `onUserMessage` takes the message. -/
def UserMessageResult.takes : UserMessageResult → Bool
  | .accepted => true
  | .queued => true
  | _ => false

theorem ne_rejected_of_takes {result : UserMessageResult} (h : result.takes = true) :
    result ≠ .rejected := by
  rintro rfl
  cases h

namespace InFlightRun

def new (senderRef generation : String) : InFlightRun := ⟨.new senderRef generation, []⟩

/-- The requests in flight after a call. -/
def inFlightAfter (s : InFlightRun) (call : ServiceStep) : List String :=
  match call with
  | .handle env (.inChannel _ (.userMessage message)) =>
    if (s.service.apply call).calls.any ServiceCall.isHandOver &&
        env.callbacks.onUserMessage.takes then
      message.clientRequestId :: s.inFlight
    else s.inFlight
  | .handle _ (.inChannel frame (.userMessageObserved clientRequestId _)) =>
    if s.service.accepts frame then s.inFlight.filter fun id => id ≠ clientRequestId
    else s.inFlight
  | .commit _ clientRequestId _ _ => s.inFlight.filter fun id => id ≠ clientRequestId
  | .refreshGeneration next =>
    if next = "" ∨ next = s.service.generation then s.inFlight else []
  | _ => s.inFlight

def step (s : InFlightRun) (call : ServiceStep) : Option InFlightRun :=
  some ⟨(s.service.apply call).service, s.inFlightAfter call⟩

/-- A request in flight is not handed over, and its commit is reported by one frame. -/
def Answers (s : InFlightRun) (call : ServiceStep) : Prop :=
  match call with
  | .handle _ (.inChannel _ (.userMessage message)) =>
    message.clientRequestId ∈ s.inFlight →
      (s.service.apply call).calls.any ServiceCall.isHandOver = false
  | .commit env clientRequestId messageId groupId =>
    clientRequestId ∈ s.inFlight → ∃ channelId, (s.service.apply call).frames =
      [.userMessageStatus channelId clientRequestId env.manager.sessionId s.service.generation
        clientRequestId .committed messageId groupId]
  | _ => True

/-- The time at which a call looks at the table. -/
def looksAt (s : InFlightRun) : ServiceStep → Option ℤ
  | .handle env (.inChannel frame (.userMessage _)) =>
    if s.service.accepts frame then some env.now else none
  | .handle env (.inChannel frame (.userMessageObserved _ _)) =>
    if s.service.accepts frame then some env.now else none
  | .handle _ _ => none
  | .started env message =>
    if message.correlation.clientRequestId.isSome then some env.now else none
  | .commit env _ _ _ => some env.now
  | .unknownDelivery env _ => some env.now
  | .canDrain env _ => some env.now
  | .reset env _ => some env.now
  | .refreshGeneration _ => none

/-- The request that the owner has observed. -/
def observes (s : InFlightRun) : ServiceStep → Option String
  | .handle _ (.inChannel frame (.userMessageObserved clientRequestId _)) =>
    if s.service.accepts frame then some clientRequestId else none
  | _ => none

/-- The time at which a new request is entered in the table. -/
def enters (s : InFlightRun) : ServiceStep → Option ℤ
  | .handle env (.inChannel frame (.userMessage message)) =>
    if s.service.accepts frame && (liveRecord s.service env message.clientRequestId).isNone then
      some env.now
    else none
  | _ => none

/-- The call forgets no request in flight: each of their records was touched less than ten
    minutes ago, and if a new request comes to a full table, the record that was touched least
    recently is not one of theirs. -/
def Remembers (s : InFlightRun) (call : ServiceStep) : Prop :=
  ∀ id ∈ s.inFlight, s.observes call ≠ some id →
    (∀ now ∈ s.looksAt call, ∀ record ∈ s.service.state.records.get? (s.service.recordKey id),
      s.service.state.isExpired now record = false) ∧
    ∀ now ∈ s.enters call,
      (s.service.state.prune now).records.entries.length = s.service.state.maxEntries →
        (s.service.state.prune now).records.keys.head? ≠ some (s.service.recordKey id)

instance (s : InFlightRun) (call : ServiceStep) : Decidable (s.Remembers call) :=
  inferInstanceAs (Decidable (∀ id ∈ s.inFlight, s.observes call ≠ some id →
    (∀ now ∈ s.looksAt call, ∀ _ ∈ _, _) ∧ ∀ now ∈ s.enters call, _))

end InFlightRun

/-! ## The record of a request -/

/-- The service has a record of the request that is alive at a time, and a channel for it. -/
def Holds (now : ℤ) (s : TimelineV2Service) (clientRequestId : String) : Prop :=
  (∃ record, s.state.records.get? (s.recordKey clientRequestId) = some record ∧
      s.state.isExpired now record = false) ∧
    (s.requestChannels.get? clientRequestId).isSome = true

section Holds

variable {now : ℤ} {env : ServiceEnv} {s : TimelineV2Service} {id : String}
  {frame : ChannelFrame} {message : UserMessage}

theorem recordKey_injective (s : TimelineV2Service) : Function.Injective s.recordKey := by
  intro id id' h
  unfold TimelineV2Service.recordKey SessionState.recordKey at h
  exact (String.append_right_inj _).mp h

theorem isExpired_of_touched (h : ServiceOk s) {record : IdempotencyRecord}
    (htouched : record.touchedAt = now) : s.state.isExpired now record = false := by
  unfold SessionState.isExpired
  rw [h.ttl, htouched, sub_self]
  rfl

theorem Holds.prune (hok : ServiceOk s) (h : Holds now s id) :
    Holds now { s with state := s.state.prune now } id := by
  obtain ⟨⟨record, hget, hlive⟩, hchannel⟩ := h
  exact ⟨⟨record, hok.state.get?_prune_of_live hget hlive, hlive⟩, hchannel⟩

/-- A record that is moved to the end stays or is touched. -/
theorem Holds.moveLast (hok : ServiceOk s) (h : Holds now s id) {key : String}
    {record : IdempotencyRecord} (htouched : record.touchedAt = now) :
    Holds now { s with
      state := { s.state with records := s.state.records.moveLast key record } } id := by
  obtain ⟨⟨old, hget, hlive⟩, hchannel⟩ := h
  refine ⟨?_, hchannel⟩
  by_cases hkey : s.recordKey id = key
  · refine ⟨record, ?_, isExpired_of_touched hok htouched⟩
    exact (OrderedMap.get?_moveLast _ _ _ _).trans (if_pos hkey)
  · refine ⟨old, ?_, hlive⟩
    exact ((OrderedMap.get?_moveLast _ _ _ _).trans (if_neg hkey)).trans hget

theorem Holds.update (hok : ServiceOk s) (h : Holds now s id) (key : String)
    (status : IdempotencyStatus) (messageId groupId : Option String) :
    Holds now { s with state := (s.state.update now key status messageId groupId).1 } id := by
  unfold SessionState.update
  dsimp only
  split
  · exact h.prune hok
  · exact (h.prune hok).moveLast (hok.prune now) rfl

theorem Holds.touch (h : Holds now s id) (time : ℤ) (channelId : String) :
    Holds now { s with state := s.state.touch time s.senderRef channelId } id := by
  obtain ⟨⟨record, hget, hlive⟩, hchannel⟩ := h
  refine ⟨⟨record, ?_, ?_⟩, hchannel⟩
  · dsimp only
    rw [SessionState.records_touch]
    exact hget
  · dsimp only
    rw [SessionState.isExpired_touch]
    exact hlive

/-- What is forgotten for another request. -/
theorem Holds.forget (h : Holds now s id) {other : String} (hne : id ≠ other) :
    Holds now { s with
      state := s.state.forget (s.recordKey other)
      requestChannels := s.requestChannels.erase other } id := by
  obtain ⟨⟨record, hget, hlive⟩, hchannel⟩ := h
  refine ⟨⟨record, ?_, hlive⟩, ?_⟩
  · exact (OrderedMap.get?_erase_of_ne _ ((recordKey_injective s).ne hne)).trans hget
  · dsimp only
    rw [OrderedMap.get?_erase_of_ne _ hne]
    exact hchannel

theorem Holds.setChannel (h : Holds now s id) (other channelId : String) :
    Holds now { s with requestChannels := s.requestChannels.set other channelId } id := by
  refine ⟨h.1, ?_⟩
  dsimp only
  rw [OrderedMap.get?_set]
  split_ifs
  · rfl
  · exact h.2

/-! ## Calls that mark a record -/

theorem Holds.unknownDelivery (hok : ServiceOk s) (h : Holds env.now s id)
    (clientRequestId : String) : Holds env.now (s.unknownDelivery env clientRequestId).1 id := by
  unfold TimelineV2Service.unknownDelivery
  dsimp only
  split
  · exact h.prune hok
  · exact (h.prune hok).update (hok.prune env.now) _ _ _ _

theorem Holds.commit (hok : ServiceOk s) (h : Holds env.now s id)
    (clientRequestId messageId : String) (groupId : Option String) :
    Holds env.now (s.commit env clientRequestId messageId groupId).1 id := by
  unfold TimelineV2Service.commit
  dsimp only
  split
  · exact h.prune hok
  · exact (h.prune hok).update (hok.prune env.now) _ _ _ _

theorem Holds.started (hok : ServiceOk s) (h : Holds env.now s id) (message : TimelineStarted) :
    Holds env.now (s.started env message).1 id := by
  unfold TimelineV2Service.started
  split
  · exact h
  · dsimp only
    split
    · exact h.prune hok
    · exact (h.prune hok).update (hok.prune env.now) _ _ _ _

theorem Holds.replay (hok : ServiceOk s) (h : Holds env.now s id) (record : IdempotencyRecord) :
    Holds env.now (s.replay env frame message record).1 id := by
  unfold TimelineV2Service.replay
  split
  · exact h.unknownDelivery hok _
  all_goals exact h

/-! ## User messages -/

/-- A live record is touched by a retry. -/
theorem Holds.begin_of_live (hok : ServiceOk s) (h : Holds env.now s id)
    {record : IdempotencyRecord}
    (hlive : liveRecord s env message.clientRequestId = some record) :
    Holds env.now { s with state := (s.state.begin env.digest env.now s.senderRef
      message.clientRequestId (TimelineV2Service.idempotencyPayload message)).1 } id := by
  rw [RemotePi.Timeline.begin_of_live hok hlive]
  exact (h.prune hok).moveLast (hok.prune env.now) rfl

/-- A new request takes the place of the record touched least recently. -/
theorem Holds.begin_of_new (hok : ServiceOk s) (h : Holds env.now s id)
    (hnone : liveRecord s env message.clientRequestId = none)
    (hroom : (s.state.prune env.now).records.entries.length = s.state.maxEntries →
      (s.state.prune env.now).records.keys.head? ≠ some (s.recordKey id)) :
    Holds env.now { s with state := (s.state.begin env.digest env.now s.senderRef
      message.clientRequestId (TimelineV2Service.idempotencyPayload message)).1 } id := by
  obtain ⟨record, -, -, hbegin⟩ := RemotePi.Timeline.begin_of_not_live hok hnone
  obtain ⟨⟨old, hget, hlive⟩, hchannel⟩ := h.prune hok
  rw [hbegin]
  have hne : s.recordKey id ≠ s.recordKey message.clientRequestId := by
    intro heq
    have hfound : liveRecord s env message.clientRequestId = some old := by
      unfold liveRecord
      rw [← heq]
      exact hget
    rw [hnone] at hfound
    cases hfound
  have hcapacity : 1 ≤ (s.state.prune env.now).maxEntries := by
    have hlimit := (hok.prune env.now).capacity
    dsimp only at hlimit
    rw [hlimit]
    decide
  refine ⟨?_, hchannel⟩
  cases hafter : (SessionState.pruneCapacity { s.state.prune env.now with
      records := (s.state.prune env.now).records.set
        (s.recordKey message.clientRequestId) record }).records.get? (s.recordKey id) with
  | none =>
    obtain ⟨hfull, hfirst⟩ :=
      head?_of_lost (hok.state.prune env.now).size hcapacity hnone hget hafter
    exact absurd hfirst (hroom hfull)
  | some found =>
    refine ⟨found, hafter, ?_⟩
    have hset := SessionState.get?_pruneCapacity hafter
    dsimp only at hset
    rw [OrderedMap.get?_set_of_ne _ _ hne] at hset
    have hsame : some old = some found := hget.symm.trans hset
    cases hsame
    exact hlive

/-- A new request has its record. -/
theorem holds_of_new (hok : ServiceOk s) (hnone : liveRecord s env message.clientRequestId = none)
    (channelId : String) :
    Holds env.now { s with
      state := (s.state.begin env.digest env.now s.senderRef message.clientRequestId
        (TimelineV2Service.idempotencyPayload message)).1
      requestChannels := s.requestChannels.set message.clientRequestId channelId }
      message.clientRequestId := by
  obtain ⟨record, -, htouched, hbegin⟩ := RemotePi.Timeline.begin_of_not_live hok hnone
  have hcapacity : 1 ≤ (s.state.prune env.now).maxEntries := by
    have hlimit := (hok.prune env.now).capacity
    dsimp only at hlimit
    rw [hlimit]
    decide
  rw [hbegin]
  refine ⟨⟨record, ?_, ?_⟩, ?_⟩
  · refine OrderedMap.mem_entries_iff.mp ?_
    dsimp only
    have hentries := @entries_pruneCapacity_set _ _ record hcapacity hnone
    rw [hentries]
    exact List.mem_append_right _ (List.mem_singleton.mpr rfl)
  · exact isExpired_of_touched (s := { s with state := s.state.prune env.now })
      (hok.prune env.now) htouched
  · dsimp only
    rw [OrderedMap.get?_set_self]
    rfl

/-- What follows the hand-over of another request. -/
theorem Holds.delivered (hok : ServiceOk s) (h : Holds env.now s id)
    (hne : id ≠ message.clientRequestId) {record : IdempotencyRecord}
    (hkey : record.key = s.recordKey message.clientRequestId) :
    Holds env.now (s.delivered env frame message record).1 id := by
  unfold TimelineV2Service.delivered
  split
  · rw [hkey]
    exact h.forget hne
  · exact h.unknownDelivery hok _
  · exact h.unknownDelivery hok _
  · exact h.update hok _ _ _ _
  · split_ifs
    · exact h.unknownDelivery hok _
    · exact h

/-- What follows the hand-over of a message that is not rejected. -/
theorem Holds.kept (hok : ServiceOk s) (h : Holds env.now s id)
    (hkept : env.callbacks.onUserMessage ≠ .rejected) (record : IdempotencyRecord) :
    Holds env.now (s.delivered env frame message record).1 id := by
  unfold TimelineV2Service.delivered
  cases hresult : env.callbacks.onUserMessage with
  | rejected => exact absurd hresult hkept
  | declined => exact h.unknownDelivery hok _
  | throws => exact h.unknownDelivery hok _
  | queued => exact h.update hok _ _ _ _
  | accepted =>
    dsimp only
    split_ifs
    · exact h.unknownDelivery hok _
    · exact h

/-- What a message does to another request, or to its own if that is alive. -/
theorem Holds.handleUserMessage (hok : ServiceOk s) (h : Holds env.now s id)
    (hroom : liveRecord s env message.clientRequestId = none →
      (s.state.prune env.now).records.entries.length = s.state.maxEntries →
        (s.state.prune env.now).records.keys.head? ≠ some (s.recordKey id)) :
    Holds env.now (s.handleUserMessage env frame message).service id := by
  have hbegun := hok.begin env.digest env.now s.senderRef message.clientRequestId
    (TimelineV2Service.idempotencyPayload message)
  unfold TimelineV2Service.handleUserMessage
  dsimp only
  cases hlive : liveRecord s env message.clientRequestId with
  | none =>
    have hkept := h.begin_of_new hok hlive (hroom hlive)
    obtain ⟨record, hkey, -, hbegin⟩ := RemotePi.Timeline.begin_of_not_live hok hlive
    have hne : id ≠ message.clientRequestId := by
      rintro rfl
      obtain ⟨⟨old, hget, -⟩, -⟩ := h.prune hok
      cases hlive.symm.trans hget
    have hresult := congrArg Prod.snd hbegin
    dsimp only at hresult
    rw [hresult]
    exact (hkept.setChannel _ frame.channelId).delivered (hbegun _) hne hkey
  | some record =>
    have hkept := h.begin_of_live hok hlive
    have hresult := congrArg Prod.snd (RemotePi.Timeline.begin_of_live hok hlive)
    dsimp only at hresult
    rw [hresult]
    split_ifs
    · exact hkept.replay (hbegun s.requestChannels) _
    · exact hkept

/-- A live request is not handed over. -/
theorem calls_handleUserMessage_of_live (hok : ServiceOk s) {record : IdempotencyRecord}
    (hlive : liveRecord s env message.clientRequestId = some record) :
    (s.handleUserMessage env frame message).calls = [] := by
  have hresult := congrArg Prod.snd (RemotePi.Timeline.begin_of_live hok hlive)
  unfold TimelineV2Service.handleUserMessage
  dsimp only at hresult ⊢
  rw [hresult]
  split_ifs <;> rfl

/-- A request that is handed over and not rejected has its record. -/
theorem holds_of_handOver (hok : ServiceOk s)
    (hcalls : (s.handleUserMessage env frame message).calls.any ServiceCall.isHandOver = true)
    (htakes : env.callbacks.onUserMessage ≠ .rejected) :
    Holds env.now (s.handleUserMessage env frame message).service message.clientRequestId := by
  cases hlive : liveRecord s env message.clientRequestId with
  | some record =>
    rw [calls_handleUserMessage_of_live hok hlive] at hcalls
    cases hcalls
  | none =>
    have hkept := holds_of_new hok hlive frame.channelId
    obtain ⟨record, -, -, hbegin⟩ := RemotePi.Timeline.begin_of_not_live hok hlive
    have hresult := congrArg Prod.snd hbegin
    unfold TimelineV2Service.handleUserMessage
    dsimp only at hresult ⊢
    rw [hresult]
    exact hkept.kept (hok.begin _ _ _ _ _ _) htakes record

theorem Holds.handleObserved (hok : ServiceOk s) (h : Holds env.now s id) {clientRequestId : String}
    (hne : id ≠ clientRequestId) :
    Holds env.now (s.handleObserved env frame clientRequestId).service id := by
  have hkept := h.prune hok
  unfold TimelineV2Service.handleObserved SessionState.getRecord
  dsimp only
  split
  · exact hkept
  · rename_i record hget
    split_ifs
    · exact hkept
    · have hkey : record.key = s.recordKey clientRequestId :=
        (hok.prune env.now).state.keys _ _ hget
      rw [hkey]
      exact hkept.forget hne

end Holds

/-! ## Steps -/

/-- The service has a record of the request and a channel for it. -/
def Recorded (s : TimelineV2Service) (id : String) : Prop :=
  (∃ record, s.state.records.get? (s.recordKey id) = some record) ∧
    (s.requestChannels.get? id).isSome = true

section Steps

variable {now : ℤ} {s : TimelineV2Service} {id : String} {frame : ChannelFrame} {env : ServiceEnv}

theorem Holds.recorded (h : Holds now s id) : Recorded s id :=
  ⟨⟨h.1.choose, h.1.choose_spec.1⟩, h.2⟩

theorem Recorded.holds (h : Recorded s id)
    (hlive : ∀ record ∈ s.state.records.get? (s.recordKey id), s.state.isExpired now record = false) :
    Holds now s id := by
  obtain ⟨⟨record, hget⟩, hchannel⟩ := h
  exact ⟨⟨record, hget, hlive record hget⟩, hchannel⟩

theorem Recorded.touch (h : Recorded s id) (time : ℤ) (channelId : String) :
    Recorded { s with state := s.state.touch time s.senderRef channelId } id := by
  obtain ⟨⟨record, hget⟩, hchannel⟩ := h
  refine ⟨⟨record, ?_⟩, hchannel⟩
  dsimp only
  rw [SessionState.records_touch]
  exact hget

/-- What changes no record. -/
theorem Recorded.handleReady (h : Recorded s id) (request : ChannelRequest)
    (hmessage : ∀ message, request ≠ .userMessage message)
    (hobserved : ∀ other messageId, request ≠ .userMessageObserved other messageId) :
    Recorded (s.handleReady env frame request).service id := by
  cases request with
  | userMessage message => exact absurd rfl (hmessage message)
  | userMessageObserved other messageId => exact absurd rfl (hobserved other messageId)
  | sessionSync before limit => exact h
  | cancel =>
    unfold TimelineV2Service.handleReady TimelineV2Service.handleCancel
    dsimp only
    split <;> exact h
  | action action =>
    unfold TimelineV2Service.handleReady TimelineV2Service.handleAction
    dsimp only
    split <;> exact h
  | listModels =>
    unfold TimelineV2Service.handleReady TimelineV2Service.handleListModels
    dsimp only
    split <;> exact h
  | _ => exact h

end Steps

namespace InFlightRun

section Run

variable {s : InFlightRun} {call : ServiceStep} {id : String}

/-- A frame that forgets no request in flight leaves their records. -/
theorem recorded_handle (hok : ServiceOk s.service) (h : Recorded s.service id)
    {env : ServiceEnv} {frame : ChannelFrame} {request : ChannelRequest} (hid : id ∈ s.inFlight)
    (hremembers : s.Remembers (.handle env (.inChannel frame request)))
    (hobserves : s.observes (.handle env (.inChannel frame request)) ≠ some id) :
    Recorded (s.service.handle env (.inChannel frame request)).service id := by
  obtain ⟨hlive, hroom⟩ := hremembers id hid hobserves
  cases haccepts : s.service.accepts frame with
  | false =>
    obtain ⟨refusal, hhandle, -⟩ := handle_of_refuses env request haccepts
    rw [hhandle]
    exact h
  | true =>
    have htouched := hok.touch env.now frame.channelId
    rw [handle_of_accepts env request haccepts]
    by_cases hmessage : ∃ message, request = .userMessage message
    · obtain ⟨message, rfl⟩ := hmessage
      have hholds := (h.holds (hlive env.now (if_pos haccepts))).touch env.now frame.channelId
      refine (hholds.handleUserMessage htouched fun hnone hfull => ?_).recorded
      rw [liveRecord_touch] at hnone
      dsimp only at hfull ⊢
      rw [SessionState.records_prune_touch] at hfull ⊢
      rw [SessionState.maxEntries_touch] at hfull
      refine hroom env.now (if_pos ?_) hfull
      rw [haccepts, hnone]
      rfl
    · by_cases hobserved : ∃ other messageId, request = .userMessageObserved other messageId
      · obtain ⟨other, messageId, rfl⟩ := hobserved
        have hholds := (h.holds (hlive env.now (if_pos haccepts))).touch env.now frame.channelId
        refine (hholds.handleObserved htouched ?_).recorded
        rintro rfl
        exact hobserves (if_pos haccepts)
      · exact (h.touch env.now frame.channelId).handleReady request
          (fun message heq => hmessage ⟨message, heq⟩)
          (fun other messageId heq => hobserved ⟨other, messageId, heq⟩)

/-- A request keeps its record through a call that forgets none in flight. -/
theorem recorded_apply (hok : ServiceOk s.service) (h : Recorded s.service id)
    (hid : id ∈ s.inFlight) (hremembers : s.Remembers call) (hobserves : s.observes call ≠ some id)
    (hgeneration : ∀ next, call = .refreshGeneration next →
      next = "" ∨ next = s.service.generation) :
    Recorded (s.service.apply call).service id := by
  cases call with
  | handle env clientFrame =>
    cases clientFrame with
    | pairRequest requestId token deviceName => exact h
    | sessionHello requestId channelId => exact h
    | inChannel frame request => exact recorded_handle hok h hid hremembers hobserves
  | started env message =>
    cases hrequest : message.correlation.clientRequestId with
    | none =>
      have hsame : (s.service.started env message).1 = s.service := by
        unfold TimelineV2Service.started
        rw [hrequest]
      have hsame' : (s.service.apply (.started env message)).service = s.service := hsame
      rw [hsame']
      exact h
    | some requestId =>
      have hholds := h.holds ((hremembers id hid hobserves).1 env.now (by
        unfold looksAt
        dsimp only
        rw [hrequest]
        rfl))
      exact (hholds.started hok message).recorded
  | commit env requestId messageId groupId =>
    have hholds := h.holds ((hremembers id hid hobserves).1 env.now rfl)
    exact (hholds.commit hok requestId messageId groupId).recorded
  | unknownDelivery env requestId =>
    have hholds := h.holds ((hremembers id hid hobserves).1 env.now rfl)
    exact (hholds.unknownDelivery hok requestId).recorded
  | canDrain env requestId =>
    have hholds := h.holds ((hremembers id hid hobserves).1 env.now rfl)
    exact (hholds.prune hok).recorded
  | reset env reason =>
    have hholds := h.holds ((hremembers id hid hobserves).1 env.now rfl)
    exact (hholds.prune hok).recorded
  | refreshGeneration next =>
    have hsame : s.service.refreshGeneration next = s.service := if_pos (hgeneration next rfl)
    have hsame' : (s.service.apply (.refreshGeneration next)).service = s.service := hsame
    rw [hsame']
    exact h

/-- Every request in flight has its record. -/
structure Inv (s : InFlightRun) : Prop where
  ok : ServiceOk s.service
  recorded : ∀ id ∈ s.inFlight, Recorded s.service id

theorem inv_new (senderRef generation : String) : Inv (new senderRef generation) where
  ok := serviceOk_new senderRef generation
  recorded id h := by cases h

/-- A request that is handed over and not rejected is left with its record. -/
theorem recorded_of_handOver (hok : ServiceOk s.service) {env : ServiceEnv} {frame : ChannelFrame}
    {message : UserMessage}
    (hcalls : (s.service.handle env (.inChannel frame (.userMessage message))).calls.any
      ServiceCall.isHandOver = true)
    (htakes : env.callbacks.onUserMessage ≠ .rejected) :
    Recorded (s.service.handle env (.inChannel frame (.userMessage message))).service
      message.clientRequestId := by
  cases haccepts : s.service.accepts frame with
  | false =>
    obtain ⟨refusal, hhandle, -⟩ :=
      handle_of_refuses env (.userMessage message) haccepts
    rw [hhandle] at hcalls
    cases hcalls
  | true =>
    rw [handle_of_accepts env _ haccepts] at hcalls ⊢
    exact (holds_of_handOver (hok.touch env.now frame.channelId) hcalls htakes).recorded

theorem Inv.step (h : s.Inv) (hremembers : s.Remembers call) {s' : InFlightRun}
    (hstep : s.step call = some s') : s'.Inv := by
  cases hstep
  refine ⟨h.ok.apply call, fun id hid => ?_⟩
  have hkept : id ∈ s.inFlight → s.observes call ≠ some id →
      (∀ next, call = .refreshGeneration next → next = "" ∨ next = s.service.generation) →
      Recorded (s.service.apply call).service id := fun hin hobserves hgeneration =>
    recorded_apply h.ok (h.recorded id hin) hin hremembers hobserves hgeneration
  cases call with
  | handle env clientFrame =>
    cases clientFrame with
    | pairRequest requestId token deviceName => exact h.recorded id hid
    | sessionHello requestId channelId => exact h.recorded id hid
    | inChannel frame request =>
      by_cases hmessage : ∃ message, request = .userMessage message
      · obtain ⟨message, rfl⟩ := hmessage
        unfold inFlightAfter at hid
        dsimp only at hid
        split_ifs at hid with htaken
        · obtain ⟨hcalls, htakes⟩ := Bool.and_eq_true_iff.mp htaken
          rcases List.mem_cons.mp hid with rfl | hid
          · exact recorded_of_handOver h.ok hcalls (ne_rejected_of_takes htakes)
          · exact hkept hid (fun heq => by cases heq) (fun _ heq => by cases heq)
        · exact hkept hid (fun heq => by cases heq) (fun _ heq => by cases heq)
      · by_cases hobserved : ∃ other messageId, request = .userMessageObserved other messageId
        · obtain ⟨other, messageId, rfl⟩ := hobserved
          unfold inFlightAfter at hid
          dsimp only at hid
          unfold observes at hkept
          dsimp only at hkept
          split_ifs at hid hkept with haccepts
          · obtain ⟨hin, hne⟩ := List.mem_filter.mp hid
            exact hkept hin (fun heq => of_decide_eq_true hne (Option.some.inj heq).symm)
              (fun _ heq => by cases heq)
          · exact hkept hid (fun heq => by cases heq) (fun _ heq => by cases heq)
        · have hsame : s.inFlightAfter (.handle env (.inChannel frame request)) = s.inFlight := by
            cases request with
            | userMessage message => exact absurd ⟨message, rfl⟩ hmessage
            | userMessageObserved other messageId =>
              exact absurd ⟨other, messageId, rfl⟩ hobserved
            | _ => rfl
          have hnone : s.observes (.handle env (.inChannel frame request)) = none := by
            cases request with
            | userMessageObserved other messageId =>
              exact absurd ⟨other, messageId, rfl⟩ hobserved
            | _ => rfl
          dsimp only at hid
          rw [hsame] at hid
          refine hkept hid (fun heq => ?_) (fun _ heq => by cases heq)
          rw [hnone] at heq
          cases heq
  | commit env requestId messageId groupId =>
    exact hkept (List.mem_filter.mp hid).1 (fun heq => by cases heq) (fun _ heq => by cases heq)
  | refreshGeneration next =>
    unfold inFlightAfter at hid
    dsimp only at hid
    split_ifs at hid with hsame
    · exact hkept hid (fun heq => by cases heq) fun other heq => by
        cases heq
        exact hsame
    · cases hid
  | started env message =>
    exact hkept hid (fun heq => by cases heq) (fun _ heq => by cases heq)
  | unknownDelivery env requestId =>
    exact hkept hid (fun heq => by cases heq) (fun _ heq => by cases heq)
  | canDrain env requestId =>
    exact hkept hid (fun heq => by cases heq) (fun _ heq => by cases heq)
  | reset env reason =>
    exact hkept hid (fun heq => by cases heq) (fun _ heq => by cases heq)

/-- A call that forgets no request in flight answers for them. -/
theorem Inv.answers (h : s.Inv) (hremembers : s.Remembers call) : s.Answers call := by
  cases call with
  | handle env clientFrame =>
    cases clientFrame with
    | inChannel frame request =>
      cases request with
      | userMessage message =>
        intro hid
        cases haccepts : s.service.accepts frame with
        | false =>
          obtain ⟨refusal, hhandle, -⟩ :=
            handle_of_refuses env (.userMessage message) haccepts
          have hcalls : (s.service.apply
              (.handle env (.inChannel frame (.userMessage message)))).calls = [] := by
            rw [TimelineV2Service.apply, hhandle]
          rw [hcalls]
          rfl
        | true =>
          have hlive := (hremembers _ hid (fun heq => by cases heq)).1 env.now (if_pos haccepts)
          obtain ⟨⟨record, hget, -⟩, -⟩ := ((h.recorded _ hid).holds hlive).prune h.ok
          have hfound : liveRecord s.service env message.clientRequestId = some record := hget
          rw [← liveRecord_touch frame.channelId] at hfound
          have hcalls : (s.service.apply
              (.handle env (.inChannel frame (.userMessage message)))).calls = [] := by
            rw [TimelineV2Service.apply, handle_of_accepts env _ haccepts]
            exact calls_handleUserMessage_of_live (h.ok.touch env.now frame.channelId) hfound
          rw [hcalls]
          rfl
      | _ => trivial
    | _ => trivial
  | commit env clientRequestId messageId groupId =>
    intro hid
    have hlive := (hremembers _ hid (fun heq => by cases heq)).1 env.now rfl
    obtain ⟨⟨record, hget, -⟩, hchannel⟩ := ((h.recorded _ hid).holds hlive).prune h.ok
    have hfound : liveRecord s.service env clientRequestId = some record := hget
    obtain ⟨channelId, hstored⟩ := Option.isSome_iff_exists.mp hchannel
    have hstored' : s.service.requestChannels.get? clientRequestId = some channelId := hstored
    refine ⟨channelId, ?_⟩
    have hframes : (s.service.apply (.commit env clientRequestId messageId groupId)).frames =
        (s.service.commit env clientRequestId messageId groupId).2 := rfl
    rw [hframes, commit_eq h.ok, hfound, hstored']
  | _ => trivial

end Run

end InFlightRun

/-- In a run whose calls forget no request in flight, none of them is handed over again and
    each commit of one is reported by exactly one frame. -/
theorem in_flight_kept (senderRef generation : String) (calls : List ServiceStep)
    (h : Along InFlightRun.step InFlightRun.Remembers (.new senderRef generation) calls) :
    Along InFlightRun.step InFlightRun.Answers (.new senderRef generation) calls := by
  have hboth := (@along_congr _ _ InFlightRun.step InFlightRun.Remembers InFlightRun.Inv
    (fun s call => s.Remembers call ∧ s.Answers call)
    (fun s call s' hinv hremembers hstep => hinv.step hremembers hstep)
    (fun s call hinv => ⟨fun h => h.1, fun h => ⟨h, hinv.answers h⟩⟩) _
    (InFlightRun.inv_new senderRef generation) calls).mpr h
  exact hboth.imp fun _ _ h => h.2

/-! ## Requests that take long -/

private def envAt (now : ℤ) : ServiceEnv where
  digest _ := "fingerprint"
  token _ := "token"
  now
  manager := ⟨"s", "g", none, [], fun _ => [], none⟩
  callbacks := ⟨.accepted, none, none, false, none⟩

/-- The owner sends the request `r1`. -/
private def sends (now : ℤ) : ServiceStep :=
  .handle (envAt now) (.inChannel ⟨"f1", "c1", "g"⟩ (.userMessage ⟨"r1", "hello", [], false⟩))

private def taken : List ServiceStep :=
  [.handle (envAt 0) (.sessionHello "h1" "c1"), sends 0]

private def published (now : ℤ) : ServiceStep := .commit (envAt now) "r1" "e1" (some "p1")

/-- A request that is sent again after five minutes and published after fourteen. -/
theorem quick_request_kept : Along InFlightRun.step InFlightRun.Answers (.new "owner" "g")
    (taken ++ [sends 300000, published 840000]) :=
  in_flight_kept "owner" "g" _ (by decide +kernel)

/-- Ten minutes after a request was taken, its commit is not reported, and a retry is handed
    over again. -/
theorem long_request_forgotten :
    ¬ Along InFlightRun.step InFlightRun.Answers (.new "owner" "g") (taken ++ [published 600000]) ∧
      ¬ Along InFlightRun.step InFlightRun.Answers (.new "owner" "g")
        (taken ++ [sends 600000]) := by
  obtain ⟨s, hs⟩ := Option.isSome_iff_exists.mp
    (show (run InFlightRun.step (.new "owner" "g") taken).isSome = true by decide)
  have hforgotten : (run InFlightRun.step (.new "owner" "g") taken).any (fun s =>
      "r1" ∈ s.inFlight ∧ (s.service.apply (published 600000)).frames = [] ∧
        (s.service.apply (sends 600000)).calls.any ServiceCall.isHandOver = true) = true := by
    decide
  rw [hs, Option.any_some] at hforgotten
  obtain ⟨hin, hframes, hcalls⟩ := of_decide_eq_true hforgotten
  constructor
  · intro h
    have hanswers : s.Answers (published 600000) := h.of_run hs
    obtain ⟨channelId, hsent⟩ := hanswers hin
    rw [hframes] at hsent
    cases hsent
  · intro h
    have hanswers : s.Answers (sends 600000) := h.of_run hs
    have hquiet := hanswers hin
    rw [hcalls] at hquiet
    cases hquiet

end RemotePi.Timeline
