import RemotePi.Lib.Trace
import RemotePi.Timeline.V2Service

/-!
# How the status of a request moves

A service as `ensureTimeline` (`pi-extension/src/index.ts`, lines 238–265) wires it:
each message that starts calls `started`, and each event that is published calls
`commit`, when its correlation names the owner and a request, whatever the role of the
message. `wakeAgent` takes a message or declines it.

Results:
* `handle_moves`: what a client frame does to the records.
* `requests_move_forward_iff`: when the records of a run only move forward.
* `assistant_reopens_request`: a run in which the answer of the agent takes over the
  request.
-/

namespace RemotePi.Timeline

open RemotePi.Lib RemotePi.Protocol

/-! ## The system -/

/-- The service of an owner and the messages that have started. -/
structure RequestRun where
  service : TimelineV2Service
  messages : OrderedMap String TimelineStarted
  published : List String

namespace RequestRun

def new (senderRef generation : String) : RequestRun :=
  ⟨.new senderRef generation, .empty, []⟩

inductive Label where
  /-- A frame of the owner. -/
  | frame (env : ServiceEnv) (frame : ClientFrame)
  /-- `onMessageStart`, with a fresh event id (`timeline/runtime.ts`, lines 170–197). -/
  | messageStart (env : ServiceEnv) (message : TimelineStarted)
  /-- `publish` of the event of a message (`timeline/runtime.ts`, lines 292–296). -/
  | publish (env : ServiceEnv) (eventId : String)

/-- The request of the owner that a correlation names. -/
def requestId (s : RequestRun) (correlation : Correlation) : Option String :=
  if correlation.senderRef = some s.service.senderRef then correlation.clientRequestId else none

/-- A step, with the frames that it sends. -/
def move (s : RequestRun) : Label → Option (RequestRun × List ServiceFrame)
  | .frame env frame =>
    if env.callbacks.onUserMessage = .accepted ∨ env.callbacks.onUserMessage = .declined then
      let answer := s.service.handle env frame
      some ({ s with service := answer.service }, answer.frames)
    else none
  | .messageStart env message =>
    if s.messages.contains message.eventId then none
    else
      let messages := s.messages.set message.eventId message
      if message.correlation.senderRef = some s.service.senderRef then
        let (service, frames) := s.service.started env message
        some (⟨service, messages, s.published⟩, frames)
      else some (⟨s.service, messages, s.published⟩, [])
  | .publish env eventId =>
    match s.messages.get? eventId with
    | none => none
    | some message =>
      if eventId ∈ s.published then none
      else
        let published := eventId :: s.published
        match s.requestId message.correlation with
        | none => some (⟨s.service, s.messages, published⟩, [])
        | some clientRequestId =>
          let (service, frames) := s.service.commit env clientRequestId eventId message.groupId
          some (⟨service, s.messages, published⟩, frames)

def step (s : RequestRun) (label : Label) : Option RequestRun := (s.move label).map Prod.fst

end RequestRun

/-! ## What is asked of a run -/

/-- How far a request has come. -/
def rank : IdempotencyStatus → ℕ
  | .received => 0
  | .queued => 1
  | .unknownDelivery => 1
  | .accepted => 2
  | .committed => 3

/-- A record has moved forward, and its message is still the same. -/
def Forward (old new : IdempotencyRecord) : Prop :=
  rank old.status ≤ rank new.status ∧
    ∀ id, old.messageId = some id → new.messageId = some id

/-- The event of a user message. -/
def IsUserEvent (messages : OrderedMap String TimelineStarted) (eventId : String) : Prop :=
  ∃ message, messages.get? eventId = some message ∧ message.role = .user

/-- A frame that says that a request is started, accepted or committed carries the event of
    a user message. -/
def CarriesUserEvent (messages : OrderedMap String TimelineStarted) : ServiceFrame → Prop
  | .userMessageStarted _ _ _ _ message => IsUserEvent messages message.id
  | .userMessageStatus _ _ _ _ _ status messageId _ =>
    status = .accepted ∨ status = .committed →
      ∃ id, messageId = some id ∧ IsUserEvent messages id
  | _ => True

namespace RequestRun

/-- The clock of a step. -/
def Label.now : Label → ℤ
  | .frame env _ => env.now
  | .messageStart env _ => env.now
  | .publish env _ => env.now

/-- The records that have not outlived their time move forward, and the frames carry user
    events. -/
def Forwards (s s' : RequestRun) (now : ℤ) (frames : List ServiceFrame) : Prop :=
  (∀ key old new, s.service.state.records.get? key = some old →
    s'.service.state.records.get? key = some new →
      s.service.state.isExpired now old = false → Forward old new) ∧
    ∀ frame ∈ frames, CarriesUserEvent s'.messages frame

/-- The step moves the records forward. -/
def MovesForward (s : RequestRun) (label : Label) : Prop :=
  ∀ s' frames, s.move label = some (s', frames) → Forwards s s' label.now frames

/-- The record of the request that a correlation names, as the service finds it. -/
def namedRecord (s : RequestRun) (env : ServiceEnv) (correlation : Correlation) :
    Option IdempotencyRecord :=
  (s.requestId correlation).bind fun clientRequestId =>
    (s.service.findRecord env clientRequestId).2.map Prod.fst

/-- A message that starts or is published in the correlation of a known request is the user
    message of that request. -/
def OwnMessage (s : RequestRun) : Label → Prop
  | .frame _ _ => True
  | .messageStart env message =>
    s.messages.contains message.eventId = false →
      ∀ record ∈ s.namedRecord env message.correlation,
        message.role = .user ∧ record.messageId = none
  | .publish env eventId =>
    eventId ∉ s.published →
      ∀ message ∈ s.messages.get? eventId, ∀ record ∈ s.namedRecord env message.correlation,
        message.role = .user ∧ ∀ id ∈ record.messageId, id = eventId

end RequestRun

/-! ## What a client frame does -/

/-- The message of a record is the same; a record without one may have become unknown. -/
def Calm (old new : IdempotencyRecord) : Prop :=
  new.messageId = old.messageId ∧
    (new.status = old.status ∨ (old.messageId = none ∧ new.status = .unknownDelivery))

/-- A record of a request that has just come. -/
def Fresh (record : IdempotencyRecord) : Prop :=
  record.messageId = none ∧ (record.status = .received ∨ record.status = .unknownDelivery)

/-- All records were there before. -/
def Kept (s s' : SessionState) : Prop :=
  ∀ key new, s'.records.get? key = some new →
    ∃ old, s.records.get? key = some old ∧ Calm old new

/-- All records were there before or are fresh. -/
def Handled (now : ℤ) (s s' : SessionState) : Prop :=
  ∀ key new, s'.records.get? key = some new →
    (∃ old, s.records.get? key = some old ∧ Calm old new) ∨
      (Fresh new ∧ ∀ old, s.records.get? key = some old → s.isExpired now old = true)

theorem Calm.refl (record : IdempotencyRecord) : Calm record record := ⟨rfl, Or.inl rfl⟩

theorem Calm.trans {a b c : IdempotencyRecord} (hab : Calm a b) (hbc : Calm b c) : Calm a c := by
  obtain ⟨hid, hstatus⟩ := hab
  obtain ⟨hid', hstatus'⟩ := hbc
  refine ⟨hid'.trans hid, ?_⟩
  rcases hstatus' with hsame | ⟨hnone, hunknown⟩
  · rcases hstatus with hsame' | ⟨hnone, hunknown⟩
    · exact Or.inl (hsame.trans hsame')
    · exact Or.inr ⟨hnone, hsame.trans hunknown⟩
  · exact Or.inr ⟨hid ▸ hnone, hunknown⟩

theorem Fresh.calm {old new : IdempotencyRecord} (h : Fresh old) (hc : Calm old new) :
    Fresh new := by
  refine ⟨hc.1.trans h.1, ?_⟩
  rcases hc.2 with hsame | ⟨-, hunknown⟩
  · rw [hsame]
    exact h.2
  · exact Or.inr hunknown

section Records

variable {s s' s'' : SessionState} {now : ℤ} {key : String}

theorem Kept.refl (s : SessionState) : Kept s s := fun _ new h => ⟨new, h, .refl new⟩

theorem Kept.trans (h : Kept s s') (h' : Kept s' s'') : Kept s s'' := by
  intro key new hget
  obtain ⟨mid, hmid, hcalm⟩ := h' key new hget
  obtain ⟨old, hold, hcalm'⟩ := h key mid hmid
  exact ⟨old, hold, hcalm'.trans hcalm⟩

theorem kept_prune (s : SessionState) (now : ℤ) : Kept s (s.prune now) :=
  fun _ new hget => ⟨new, (SessionState.get?_prune hget).1, .refl new⟩

theorem kept_forget (s : SessionState) (key : String) : Kept s (s.forget key) :=
  fun _ new hget => ⟨new, OrderedMap.get?_of_sublist List.filter_sublist hget, .refl new⟩

theorem kept_of_records (h : s'.records = s.records) : Kept s s' := by
  intro key new hget
  rw [h] at hget
  exact ⟨new, hget, .refl new⟩

/-- A request without a message, or one that is unknown, may become unknown. -/
theorem kept_update_unknown (h : ∀ old, s.records.get? key = some old →
    old.messageId = none ∨ old.status = .unknownDelivery) :
    Kept s (s.update now key .unknownDelivery none none).1 := by
  intro key' new hget
  rcases SessionState.get?_update hget with ⟨rfl, old, hold, rfl⟩ | ⟨-, hget⟩
  · have hold := (SessionState.get?_prune hold).1
    refine ⟨old, hold, rfl, ?_⟩
    rcases h old hold with hnone | hunknown
    · exact Or.inr ⟨hnone, rfl⟩
    · exact Or.inl hunknown.symm
  · exact ⟨new, (SessionState.get?_prune hget).1, .refl new⟩

theorem Kept.handled (h : Kept s s') : Handled now s s' :=
  fun key new hget => Or.inl (h key new hget)

theorem Handled.trans (h : Handled now s s') (h' : Kept s' s'') : Handled now s s'' := by
  intro key new hget
  obtain ⟨mid, hmid, hcalm⟩ := h' key new hget
  rcases h key mid hmid with ⟨old, hold, hcalm'⟩ | ⟨hfresh, hgone⟩
  · exact Or.inl ⟨old, hold, hcalm'.trans hcalm⟩
  · exact Or.inr ⟨hfresh.calm hcalm, hgone⟩

theorem handled_begin (h : s.Wf) (digest : Json → String) (now : ℤ)
    (senderRef clientRequestId : String) (payload : Json) :
    Handled now s (s.begin digest now senderRef clientRequestId payload).1 := by
  unfold SessionState.begin
  dsimp only
  split
  · rename_i existing hget
    intro key new hnew
    dsimp only at hnew
    rw [OrderedMap.get?_moveLast] at hnew
    split_ifs at hnew with heq
    · cases hnew
      rw [heq]
      exact Or.inl ⟨existing, (SessionState.get?_prune hget).1, rfl, Or.inl rfl⟩
    · exact Or.inl ⟨new, (SessionState.get?_prune hnew).1, .refl new⟩
  · rename_i hnone
    intro key new hnew
    have hset := SessionState.get?_pruneCapacity hnew
    dsimp only at hset
    rw [OrderedMap.get?_set] at hset
    split_ifs at hset with heq
    · cases hset
      refine Or.inr ⟨⟨rfl, Or.inl rfl⟩, fun old hold => ?_⟩
      rw [heq] at hold
      by_contra hlive
      rw [h.get?_prune_of_live hold (Bool.eq_false_iff.mpr hlive)] at hnone
      cases hnone
    · exact Or.inl ⟨new, (SessionState.get?_prune hset).1, .refl new⟩

end Records

/-! ## What the service does to its records -/

/-- A record as it stands while all steps are forward. -/
structure Sound (messages : OrderedMap String TimelineStarted) (record : IdempotencyRecord) :
    Prop where
  message : ∀ id, record.messageId = some id → IsUserEvent messages id
  known : record.status = .accepted ∨ record.status = .committed → record.messageId ≠ none
  notQueued : record.status ≠ .queued

theorem Fresh.sound {record : IdempotencyRecord} (h : Fresh record)
    (messages : OrderedMap String TimelineStarted) : Sound messages record := by
  obtain ⟨hnone, hstatus⟩ := h
  refine ⟨fun id hid => ?_, fun hknown => ?_, fun hqueued => ?_⟩
  · rw [hnone] at hid
    cases hid
  · rcases hstatus with h | h <;> rw [h] at hknown <;> simp at hknown
  · rcases hstatus with h | h <;> rw [h] at hqueued <;> cases hqueued

theorem Calm.sound {old new : IdempotencyRecord} {messages : OrderedMap String TimelineStarted}
    (hc : Calm old new) (h : Sound messages old) : Sound messages new := by
  obtain ⟨hid, hstatus⟩ := hc
  refine ⟨fun id hnew => h.message id (hid ▸ hnew), fun hknown => ?_, fun hqueued => ?_⟩
  · rcases hstatus with hsame | ⟨-, hunknown⟩
    · rw [hid]
      exact h.known (hsame ▸ hknown)
    · rw [hunknown] at hknown
      simp at hknown
  · rcases hstatus with hsame | ⟨-, hunknown⟩
    · exact h.notQueued (hsame ▸ hqueued)
    · rw [hunknown] at hqueued
      cases hqueued

theorem Calm.forward {old new : IdempotencyRecord} {messages : OrderedMap String TimelineStarted}
    (hc : Calm old new) (h : Sound messages old) : Forward old new := by
  obtain ⟨hid, hstatus⟩ := hc
  refine ⟨?_, fun id hold => hid.trans hold⟩
  rcases hstatus with hsame | ⟨hnone, hunknown⟩
  · rw [hsame]
  · have hearly : old.status ≠ .accepted ∧ old.status ≠ .committed :=
      ⟨fun heq => h.known (Or.inl heq) hnone, fun heq => h.known (Or.inr heq) hnone⟩
    rw [hunknown]
    revert hearly
    cases old.status <;> simp [rank]

/-- The service keeps its table, in its own generation. -/
structure ServiceWf (s : TimelineV2Service) : Prop where
  state : s.state.Wf
  generation : s.state.generation = s.generation

/-- Every record of the service is sound. -/
def AllSound (messages : OrderedMap String TimelineStarted) (s : TimelineV2Service) : Prop :=
  ∀ key record, s.state.records.get? key = some record → Sound messages record

section Service

variable {env : ServiceEnv} {s : TimelineV2Service} {clientRequestId : String}
  {messages : OrderedMap String TimelineStarted} {frame : ChannelFrame} {message : UserMessage}

theorem findRecord_eq_some {record : IdempotencyRecord} {channelId : String}
    (h : (s.findRecord env clientRequestId).2 = some (record, channelId)) :
    (s.state.prune env.now).records.get? (s.recordKey clientRequestId) = some record := by
  obtain ⟨record', hget, hchannel⟩ := Option.bind_eq_some_iff.mp h
  obtain ⟨_, -, heq⟩ := Option.map_eq_some_iff.mp hchannel
  cases heq
  exact hget

/-- What `unknownDelivery` leaves. -/
theorem unknownDelivery_spec (hwf : ServiceWf s)
    (h : ∀ old, s.state.records.get? (s.recordKey clientRequestId) = some old →
      old.messageId = none ∨ old.status = .unknownDelivery) :
    ServiceWf (s.unknownDelivery env clientRequestId).1 ∧
      Kept s.state (s.unknownDelivery env clientRequestId).1.state ∧
      (s.unknownDelivery env clientRequestId).1.senderRef = s.senderRef ∧
      ∀ frame ∈ (s.unknownDelivery env clientRequestId).2, CarriesUserEvent messages frame := by
  have hprune := kept_prune s.state env.now
  unfold TimelineV2Service.unknownDelivery
  dsimp only
  split
  · exact ⟨⟨hwf.state.prune _, hwf.generation⟩, hprune, rfl, by simp⟩
  · rename_i record channelId hfound
    have hget := findRecord_eq_some hfound
    have hkey := (hwf.state.prune env.now).keys _ _ hget
    refine ⟨⟨(hwf.state.prune _).update _ _ _ _ _, ?_⟩, hprune.trans ?_, rfl, ?_⟩
    · rw [SessionState.generation_update]
      exact hwf.generation
    · refine kept_update_unknown fun old hold => ?_
      rw [hkey] at hold
      exact h old (SessionState.get?_prune hold).1
    · intro frame hframe
      split_ifs at hframe
      · cases hframe
      · obtain rfl := List.mem_singleton.mp hframe
        simp [CarriesUserEvent]

/-- What a service does with a frame that is no message start: its records stay or are
    fresh. -/
structure AnswerSpec (messages : OrderedMap String TimelineStarted) (now : ℤ)
    (s : TimelineV2Service) (service : TimelineV2Service) (frames : List ServiceFrame) : Prop where
  wf : ServiceWf service
  records : Handled now s.state service.state
  senderRef : service.senderRef = s.senderRef
  frames : ∀ frame ∈ frames, CarriesUserEvent messages frame

theorem answerSpec_of_kept (hwf : ServiceWf s) {frames : List ServiceFrame}
    (h : ∀ frame ∈ frames, CarriesUserEvent messages frame) :
    AnswerSpec messages env.now s s frames :=
  ⟨hwf, (Kept.refl _).handled, rfl, h⟩

/-- The frames of a replay carry what the record says. -/
theorem replay_spec (hwf : ServiceWf s) {record : IdempotencyRecord}
    (hget : s.state.records.get? (s.recordKey message.clientRequestId) = some record)
    (hsound : Sound messages record) :
    ServiceWf (s.replay env frame message record).1 ∧
      Kept s.state (s.replay env frame message record).1.state ∧
      (s.replay env frame message record).1.senderRef = s.senderRef ∧
      ∀ f ∈ (s.replay env frame message record).2, CarriesUserEvent messages f := by
  have hmessage : record.messageId ≠ none →
      ∃ id, record.messageId = some id ∧ IsUserEvent messages id := by
    intro hne
    obtain ⟨id, hid⟩ := Option.ne_none_iff_exists'.mp hne
    exact ⟨id, hid, hsound.message id hid⟩
  unfold TimelineV2Service.replay
  cases hstatus : record.status with
  | unknownDelivery =>
    refine unknownDelivery_spec hwf fun old hold => Or.inr ?_
    rw [hget] at hold
    cases hold
    exact hstatus
  | queued => exact absurd hstatus hsound.notQueued
  | received =>
    refine ⟨hwf, Kept.refl _, rfl, fun f hf => ?_⟩
    obtain rfl := List.mem_singleton.mp hf
    simp [TimelineV2Service.status, CarriesUserEvent]
  | accepted =>
    refine ⟨hwf, Kept.refl _, rfl, fun f hf => ?_⟩
    obtain rfl := List.mem_singleton.mp hf
    exact fun _ => hmessage (hsound.known (Or.inl hstatus))
  | committed =>
    refine ⟨hwf, Kept.refl _, rfl, fun f hf => ?_⟩
    obtain rfl := List.mem_singleton.mp hf
    exact fun _ => hmessage (hsound.known (Or.inr hstatus))

/-- What follows the hand-over of a new message to `wakeAgent`. -/
theorem delivered_spec (hwf : ServiceWf s) {record : IdempotencyRecord}
    (henv : env.callbacks.onUserMessage = .accepted ∨ env.callbacks.onUserMessage = .declined)
    (hget : ∀ other, s.state.records.get? (s.recordKey message.clientRequestId) = some other →
      other.messageId = none) :
    ServiceWf (s.delivered env frame message record).1 ∧
      Kept s.state (s.delivered env frame message record).1.state ∧
      (s.delivered env frame message record).1.senderRef = s.senderRef ∧
      ∀ f ∈ (s.delivered env frame message record).2, CarriesUserEvent messages f := by
  have hunknown := @unknownDelivery_spec env s message.clientRequestId messages hwf
    fun old hold => Or.inl (hget old hold)
  unfold TimelineV2Service.delivered
  rcases henv with henv | henv <;> rw [henv] <;> dsimp only
  · split_ifs
    · exact hunknown
    · refine ⟨hwf, Kept.refl _, rfl, fun f hf => ?_⟩
      obtain rfl := List.mem_singleton.mp hf
      simp [TimelineV2Service.status, CarriesUserEvent]
  · exact hunknown

theorem handleUserMessage_spec (hwf : ServiceWf s) (hsound : AllSound messages s)
    (henv : env.callbacks.onUserMessage = .accepted ∨ env.callbacks.onUserMessage = .declined) :
    AnswerSpec messages env.now s (s.handleUserMessage env frame message).service
      (s.handleUserMessage env frame message).frames := by
  have hbegin := handled_begin hwf.state env.digest env.now s.senderRef message.clientRequestId
    (TimelineV2Service.idempotencyPayload message)
  have hwf' : ServiceWf { s with state := (s.state.begin env.digest env.now s.senderRef
      message.clientRequestId (TimelineV2Service.idempotencyPayload message)).1 } :=
    ⟨hwf.state.begin _ _ _ _ _, by rw [SessionState.generation_begin]; exact hwf.generation⟩
  have hkey : s.recordKey message.clientRequestId = SessionState.recordKey s.state.generation
      s.senderRef message.clientRequestId := by
    rw [TimelineV2Service.recordKey, hwf.generation]
  unfold TimelineV2Service.handleUserMessage
  dsimp only
  split
  · refine ⟨hwf', hbegin, rfl, fun f hf => ?_⟩
    obtain rfl := List.mem_singleton.mp hf
    trivial
  · rename_i record hresult
    obtain ⟨old, hold, hrecord, hget⟩ := SessionState.begin_replay hresult
    have hcalm : Calm old record := by
      rw [hrecord]
      exact ⟨rfl, Or.inl rfl⟩
    have hrecordSound : Sound messages record := hcalm.sound (hsound _ _ hold)
    rw [← hkey] at hget
    obtain ⟨h1, h2, h3, h4⟩ := @replay_spec env _ messages frame message hwf' record hget hrecordSound
    exact ⟨h1, hbegin.trans h2, h3, h4⟩
  · rename_i record hresult
    obtain ⟨⟨hnone, -, -⟩, honly⟩ := SessionState.begin_new hresult
    obtain ⟨h1, h2, h3, h4⟩ := @delivered_spec env
      { s with
        state := (s.state.begin env.digest env.now s.senderRef message.clientRequestId
          (TimelineV2Service.idempotencyPayload message)).1
        requestChannels := s.requestChannels.set message.clientRequestId frame.channelId }
      messages frame message ⟨hwf'.state, hwf'.generation⟩ record henv fun other hother => by
        rw [honly other (hkey ▸ hother)]
        exact hnone
    exact ⟨h1, hbegin.trans h2, h3, h4⟩

theorem handleReady_spec (hwf : ServiceWf s) (hsound : AllSound messages s)
    (henv : env.callbacks.onUserMessage = .accepted ∨ env.callbacks.onUserMessage = .declined)
    (request : ChannelRequest) :
    AnswerSpec messages env.now s (s.handleReady env frame request).service
      (s.handleReady env frame request).frames := by
  have hplain : ∀ f : ServiceFrame, CarriesUserEvent messages f →
      AnswerSpec messages env.now s s [f] := fun f hf =>
    answerSpec_of_kept hwf fun g hg => List.mem_singleton.mp hg ▸ hf
  cases request with
  | userMessage message => exact handleUserMessage_spec hwf hsound henv
  | userMessageObserved clientRequestId _ =>
    have hwf' : ServiceWf { s with state := s.state.prune env.now } :=
      ⟨hwf.state.prune _, hwf.generation⟩
    have hprune := kept_prune s.state env.now
    unfold TimelineV2Service.handleReady TimelineV2Service.handleObserved SessionState.getRecord
    dsimp only
    split
    · refine ⟨hwf', hprune.handled, rfl, fun f hf => ?_⟩
      obtain rfl := List.mem_singleton.mp hf
      trivial
    · split_ifs
      · refine ⟨hwf', hprune.handled, rfl, fun f hf => ?_⟩
        obtain rfl := List.mem_singleton.mp hf
        trivial
      · refine ⟨⟨hwf'.state.forget _, hwf.generation⟩, (hprune.trans (kept_forget _ _)).handled,
          rfl, fun f hf => ?_⟩
        cases hf
  | sessionSync before limit =>
    refine ⟨⟨hwf.state, hwf.generation⟩, (Kept.refl _).handled, rfl, fun f hf => ?_⟩
    obtain ⟨_, -, rfl⟩ := List.mem_map.mp hf
    trivial
  | ping => exact hplain _ trivial
  | cancel =>
    unfold TimelineV2Service.handleReady TimelineV2Service.handleCancel
    dsimp only
    split <;> exact hplain _ trivial
  | action action =>
    unfold TimelineV2Service.handleReady TimelineV2Service.handleAction
    dsimp only
    split
    · exact hplain _ trivial
    · exact answerSpec_of_kept hwf (by simp)
    · exact hplain _ trivial
  | listModels =>
    unfold TimelineV2Service.handleReady TimelineV2Service.handleListModels
    dsimp only
    split <;> exact hplain _ trivial
  | queuedMessageSet _ _ => exact hplain _ trivial
  | queuedMessageClear _ => exact answerSpec_of_kept hwf (by simp [TimelineV2Service.handleReady])
  | approveTool _ _ => exact hplain _ trivial
  | extensionUiResponse => exact hplain _ trivial

theorem ensureReady_eq_ok {s' : TimelineV2Service} (h : s.ensureReady env frame = .ok s') :
    s' = { s with state := s.state.touch env.now s.senderRef frame.channelId } := by
  unfold TimelineV2Service.ensureReady at h
  split_ifs at h
  exact (Except.ok.inj h).symm

/-- What a client frame does to the records. -/
theorem handle_moves (hwf : ServiceWf s) (hsound : AllSound messages s)
    (henv : env.callbacks.onUserMessage = .accepted ∨ env.callbacks.onUserMessage = .declined)
    (clientFrame : ClientFrame) :
    AnswerSpec messages env.now s (s.handle env clientFrame).service
      (s.handle env clientFrame).frames := by
  cases clientFrame with
  | sessionHello id channelId =>
    refine ⟨⟨hwf.state.of_records rfl rfl, hwf.generation⟩,
      (kept_of_records rfl).handled, rfl, fun f hf => ?_⟩
    obtain rfl := List.mem_singleton.mp hf
    trivial
  | pairRequest id token deviceName =>
    refine answerSpec_of_kept hwf fun f hf => ?_
    obtain rfl := List.mem_singleton.mp hf
    trivial
  | inChannel frame request =>
    cases hready : s.ensureReady env frame with
    | error refusal =>
      have hhandle : s.handle env (.inChannel frame request) = ⟨s, [refusal], []⟩ := by
        simp only [TimelineV2Service.handle, hready]
      rw [hhandle]
      refine answerSpec_of_kept hwf fun f hf => ?_
      obtain rfl := List.mem_singleton.mp hf
      unfold TimelineV2Service.ensureReady at hready
      split_ifs at hready <;> cases hready <;> trivial
    | ok s' =>
      have hhandle : s.handle env (.inChannel frame request) = s'.handleReady env frame request := by
        simp only [TimelineV2Service.handle, hready]
      rw [hhandle]
      obtain rfl := ensureReady_eq_ok hready
      have hrecords := SessionState.records_touch s.state env.now s.senderRef frame.channelId
      have hwf' : ServiceWf { s with
          state := s.state.touch env.now s.senderRef frame.channelId } :=
        ⟨hwf.state.of_records hrecords (SessionState.maxEntries_touch _ _ _ _), by
          rw [SessionState.generation_touch]; exact hwf.generation⟩
      obtain ⟨h1, h2, h3, h4⟩ := @handleReady_spec env _ messages frame hwf'
        (fun key record hget => hsound key record (hrecords ▸ hget)) henv request
      refine ⟨h1, fun key new hget => ?_, h3, h4⟩
      have hhandled := h2 key new hget
      simp only [hrecords, SessionState.isExpired_touch] at hhandled
      exact hhandled

end Service

/-! ## Message starts and publications -/

theorem IsUserEvent.set {messages : OrderedMap String TimelineStarted} {message : TimelineStarted}
    (hnew : messages.contains message.eventId = false) (id : String)
    (h : IsUserEvent messages id) : IsUserEvent (messages.set message.eventId message) id := by
  obtain ⟨known, hget, hrole⟩ := h
  refine ⟨known, ?_, hrole⟩
  rw [OrderedMap.get?_set_of_ne]
  · exact hget
  · rintro rfl
    rw [OrderedMap.contains, hget] at hnew
    cases hnew

theorem AllSound.mono {messages messages' : OrderedMap String TimelineStarted}
    {service : TimelineV2Service}
    (h : AllSound messages service)
    (hmono : ∀ id, IsUserEvent messages id → IsUserEvent messages' id) :
    AllSound messages' service := fun key record hget =>
  ⟨fun id hid => hmono id ((h key record hget).message id hid), (h key record hget).known,
    (h key record hget).notQueued⟩

section Mark

variable {s : SessionState} {now : ℤ} {key key' : String} {record new : IdempotencyRecord}
  {status : IdempotencyStatus} {messageId groupId : Option String}

/-- What marking a live record leaves. -/
theorem get?_mark (hget : (s.prune now).records.get? key = some record)
    (h : ((s.prune now).update now key status messageId groupId).1.records.get? key' = some new) :
    (key' = key ∧ new = SessionState.updated record now status messageId groupId) ∨
      (key' ≠ key ∧ s.records.get? key' = some new) := by
  rcases SessionState.get?_update h with ⟨rfl, old, hold, rfl⟩ | ⟨hne, hnew⟩
  · rw [(SessionState.get?_prune hold).1] at hget
    cases hget
    exact Or.inl ⟨rfl, rfl⟩
  · exact Or.inr ⟨hne, (SessionState.get?_prune (SessionState.get?_prune hnew).1).1⟩

/-- A live record is marked. -/
theorem update_mark (hwf : s.Wf) (hget : (s.prune now).records.get? key = some record) :
    ((s.prune now).update now key status messageId groupId).2 =
        some (SessionState.updated record now status messageId groupId) ∧
      ((s.prune now).update now key status messageId groupId).1.records.get? key =
        some (SessionState.updated record now status messageId groupId) := by
  have hlive : (s.prune now).isExpired now record = false := (SessionState.get?_prune hget).2
  have hkept := (hwf.prune now).get?_prune_of_live hget hlive
  unfold SessionState.update
  dsimp only
  rw [hkept]
  exact ⟨rfl, by rw [OrderedMap.get?_moveLast, if_pos rfl]⟩

end Mark

namespace RequestRun

/-- What holds as long as all steps are forward. -/
structure Inv (s : RequestRun) : Prop where
  wf : ServiceWf s.service
  sound : AllSound s.messages s.service

theorem inv_new (senderRef generation : String) : Inv (new senderRef generation) where
  wf := ⟨SessionState.wf_new generation, rfl⟩
  sound key record h := by cases h

section Steps

variable {s s' : RequestRun} {env : ServiceEnv} {frames : List ServiceFrame}
  {message : TimelineStarted} {eventId clientRequestId channelId : String}
  {record : IdempotencyRecord} {status : IdempotencyStatus} {groupId : Option String}

/-- Marking the record of a request with a user message of its own is a step forward. -/
theorem Inv.mark (h : Inv s) {messages : OrderedMap String TimelineStarted}
    (hmono : ∀ id, IsUserEvent s.messages id → IsUserEvent messages id)
    (hfound : (s.service.findRecord env clientRequestId).2 = some (record, channelId))
    (huser : IsUserEvent messages eventId) (hstatus : status = .accepted ∨ status = .committed)
    (hrank : rank record.status ≤ rank status) (hown : ∀ id ∈ record.messageId, id = eventId)
    {published : List String} :
    let state := ((s.service.state.prune env.now).update env.now record.key status eventId
      groupId).1
    Inv ⟨{ s.service with state := state }, messages, published⟩ ∧
      ∀ key old new, s.service.state.records.get? key = some old →
        state.records.get? key = some new → s.service.state.isExpired env.now old = false →
          Forward old new := by
  have hget := findRecord_eq_some hfound
  have hkey := (h.wf.state.prune env.now).keys _ _ hget
  rw [← hkey] at hget
  have hcases := fun {key new} => @get?_mark s.service.state env.now record.key key record new
    status eventId groupId hget
  refine ⟨⟨⟨(h.wf.state.prune _).update _ _ _ _ _, ?_⟩, fun key new hnew => ?_⟩,
    fun key old new hold hnew _ => ?_⟩
  · rw [SessionState.generation_update]
    exact h.wf.generation
  · rcases hcases hnew with ⟨-, rfl⟩ | ⟨-, hnew⟩
    · refine ⟨fun id hid => ?_, fun _ => by simp [SessionState.updated], fun hqueued => ?_⟩
      · have : some eventId = some id := hid
        cases this
        exact huser
      · have : status = .queued := hqueued
        rcases hstatus with rfl | rfl <;> cases this
    · exact (h.sound.mono hmono) key new hnew
  · rcases hcases hnew with ⟨rfl, rfl⟩ | ⟨-, hnew⟩
    · rw [(SessionState.get?_prune hget).1] at hold
      cases hold
      refine ⟨hrank, fun id hid => ?_⟩
      rw [hown id hid]
      rfl
    · rw [hold] at hnew
      cases hnew
      exact ⟨le_rfl, fun _ hid => hid⟩

/-- Pruning is a step forward. -/
theorem Inv.prune (h : Inv s) {messages : OrderedMap String TimelineStarted}
    (hmono : ∀ id, IsUserEvent s.messages id → IsUserEvent messages id)
    {published : List String} :
    Inv ⟨{ s.service with state := s.service.state.prune env.now }, messages, published⟩ ∧
      ∀ key old new, s.service.state.records.get? key = some old →
        (s.service.state.prune env.now).records.get? key = some new →
          s.service.state.isExpired env.now old = false → Forward old new := by
  refine ⟨⟨⟨h.wf.state.prune _, h.wf.generation⟩, fun key new hnew => ?_⟩,
    fun key old new hold hnew _ => ?_⟩
  · exact (h.sound.mono hmono) key new (SessionState.get?_prune hnew).1
  · rw [(SessionState.get?_prune hnew).1] at hold
    cases hold
    exact ⟨le_rfl, fun _ hid => hid⟩

/-- The service after a message start or a publication: only the record that the correlation
    names is marked. -/
def Marks (s s' : RequestRun) (env : ServiceEnv) (correlation : Correlation)
    (status : IdempotencyStatus) (eventId : String) (groupId : Option String)
    (frames : List ServiceFrame) : Prop :=
  (s.namedRecord env correlation = none ∧ frames = [] ∧
      (s'.service = s.service ∨
        s'.service = { s.service with state := s.service.state.prune env.now })) ∨
    ∃ clientRequestId channelId record, s.namedRecord env correlation = some record ∧
      (s.service.findRecord env clientRequestId).2 = some (record, channelId) ∧
      s'.service = { s.service with
        state := ((s.service.state.prune env.now).update env.now record.key status eventId
          groupId).1 } ∧
      ((∀ frame ∈ frames, CarriesUserEvent s'.messages frame) ↔ IsUserEvent s'.messages eventId)

theorem namedRecord_of_requestId {correlation : Correlation}
    (hid : s.requestId correlation = some clientRequestId) :
    s.namedRecord env correlation =
      (s.service.findRecord env clientRequestId).2.map Prod.fst := by
  rw [namedRecord, hid, Option.bind_some]

theorem move_messageStart (h : s.move (.messageStart env message) = some (s', frames)) :
    s.messages.contains message.eventId = false ∧
      s'.messages = s.messages.set message.eventId message ∧
      Marks s s' env message.correlation .accepted message.eventId message.groupId frames := by
  unfold move at h
  dsimp only at h
  split_ifs at h with hcontains hsender
  · refine ⟨Bool.eq_false_iff.mpr hcontains, ?_⟩
    unfold TimelineV2Service.started at h
    cases hrequest : message.correlation.clientRequestId with
    | none =>
      have hid : s.requestId message.correlation = none := by
        rw [requestId, if_pos hsender, hrequest]
      rw [hrequest] at h
      cases h
      exact ⟨rfl, Or.inl ⟨by rw [namedRecord, hid, Option.bind_none], rfl, Or.inl rfl⟩⟩
    | some clientRequestId =>
      have hid : s.requestId message.correlation = some clientRequestId := by
        rw [requestId, if_pos hsender, hrequest]
      have hnamed := @namedRecord_of_requestId s env _ _ hid
      rw [hrequest] at h
      dsimp only at h
      cases hfound : (s.service.findRecord env clientRequestId).2 with
      | none =>
        rw [hfound] at h hnamed
        cases h
        exact ⟨rfl, Or.inl ⟨hnamed, rfl, Or.inr rfl⟩⟩
      | some request =>
        obtain ⟨record, channelId⟩ := request
        rw [hfound] at h hnamed
        cases h
        refine ⟨rfl, Or.inr ⟨clientRequestId, channelId, record, hnamed, hfound, rfl, ?_⟩⟩
        simp [CarriesUserEvent]
  · have hid : s.requestId message.correlation = none := by rw [requestId, if_neg hsender]
    cases h
    exact ⟨Bool.eq_false_iff.mpr hcontains, rfl,
      Or.inl ⟨by rw [namedRecord, hid, Option.bind_none], rfl, Or.inl rfl⟩⟩

theorem move_publish (hwf : ServiceWf s.service)
    (h : s.move (.publish env eventId) = some (s', frames)) :
    ∃ message, s.messages.get? eventId = some message ∧ eventId ∉ s.published ∧
      s'.messages = s.messages ∧
      Marks s s' env message.correlation .committed eventId message.groupId frames := by
  unfold move at h
  dsimp only at h
  cases hget : s.messages.get? eventId with
  | none =>
    rw [hget] at h
    cases h
  | some message =>
    rw [hget] at h
    dsimp only at h
    split_ifs at h with hpublished
    refine ⟨message, rfl, hpublished, ?_⟩
    cases hid : s.requestId message.correlation with
    | none =>
      rw [hid] at h
      cases h
      exact ⟨rfl, Or.inl ⟨by rw [namedRecord, hid, Option.bind_none], rfl, Or.inl rfl⟩⟩
    | some clientRequestId =>
      have hnamed := @namedRecord_of_requestId s env _ _ hid
      rw [hid] at h
      unfold TimelineV2Service.commit at h
      dsimp only at h
      cases hfound : (s.service.findRecord env clientRequestId).2 with
      | none =>
        rw [hfound] at h hnamed
        cases h
        exact ⟨rfl, Or.inl ⟨hnamed, rfl, Or.inr rfl⟩⟩
      | some request =>
        obtain ⟨record, channelId⟩ := request
        have hrecord := findRecord_eq_some hfound
        have hkey := (hwf.state.prune env.now).keys _ _ hrecord
        rw [← hkey] at hrecord
        have hmark := (@update_mark _ env.now _ record .committed (some eventId)
          (some message.groupId) hwf.state hrecord).1
        rw [hfound] at h hnamed
        cases h
        refine ⟨rfl, Or.inr ⟨clientRequestId, channelId, record, hnamed, hfound, rfl, ?_⟩⟩
        have hstate : (s.service.findRecord env clientRequestId).1.state =
            s.service.state.prune env.now := rfl
        simp [hstate, hmark, CarriesUserEvent]

theorem Marks.forwards (h : Inv s) {correlation : Correlation}
    (hmarks : Marks s s' env correlation status eventId groupId frames)
    (hmono : ∀ id, IsUserEvent s.messages id → IsUserEvent s'.messages id)
    (hstatus : status = .accepted ∨ status = .committed)
    (hown : ∀ record ∈ s.namedRecord env correlation, IsUserEvent s'.messages eventId ∧
      rank record.status ≤ rank status ∧ ∀ id ∈ record.messageId, id = eventId) :
    Inv s' ∧ Forwards s s' env.now frames := by
  obtain ⟨service, messages, published⟩ := s'
  rcases hmarks with ⟨-, rfl, hservice | hservice⟩ |
    ⟨clientRequestId, channelId, record, hnamed, hfound, hservice, hframes⟩
  · subst hservice
    refine ⟨⟨h.wf, AllSound.mono h.sound hmono⟩, fun key old new hold hnew _ => ?_, by simp⟩
    rw [hold] at hnew
    cases hnew
    exact ⟨le_rfl, fun _ hid => hid⟩
  · subst hservice
    obtain ⟨hinv, hforward⟩ := h.prune hmono
    exact ⟨hinv, hforward, by simp⟩
  · subst hservice
    obtain ⟨huser, hrank, hid⟩ := hown record hnamed
    obtain ⟨hinv, hforward⟩ := h.mark hmono hfound huser hstatus hrank hid
    exact ⟨hinv, hforward, hframes.mpr huser⟩

theorem Marks.own (h : Inv s) {correlation : Correlation}
    (hmarks : Marks s s' env correlation status eventId groupId frames)
    (hforwards : Forwards s s' env.now frames) (hnamed : s.namedRecord env correlation = some record) :
    IsUserEvent s'.messages eventId ∧
      ∀ id ∈ record.messageId, id = eventId ∧ IsUserEvent s.messages id := by
  rcases hmarks with ⟨hnone, -⟩ |
    ⟨clientRequestId, channelId, found, hsome, hfound, hservice, hframes⟩
  · rw [hnone] at hnamed
    cases hnamed
  · rw [hnamed] at hsome
    cases hsome
    have hget := findRecord_eq_some hfound
    have hkey := (h.wf.state.prune env.now).keys _ _ hget
    rw [← hkey] at hget
    obtain ⟨hold, hlive⟩ := SessionState.get?_prune hget
    have hnew := (@update_mark _ env.now _ record status (some eventId) groupId h.wf.state hget).2
    have hforward := hforwards.1 record.key record _ hold (by rw [hservice]; exact hnew) hlive
    refine ⟨hframes.mp hforwards.2, fun id hid => ?_⟩
    have heq : some eventId = some id := hforward.2 id hid
    cases heq
    exact ⟨rfl, (h.sound _ _ hold).message _ hid⟩

theorem Inv.namedRecord_sound (h : Inv s) {correlation : Correlation}
    (hrecord : s.namedRecord env correlation = some record) : Sound s.messages record := by
  obtain ⟨clientRequestId, -, hmap⟩ := Option.bind_eq_some_iff.mp hrecord
  obtain ⟨⟨_, channelId⟩, hfound, rfl⟩ := Option.map_eq_some_iff.mp hmap
  exact h.sound _ _ (SessionState.get?_prune (findRecord_eq_some hfound)).1

theorem enabled_messageStart (env : ServiceEnv)
    (hnew : s.messages.contains message.eventId = false) :
    (s.move (.messageStart env message)).isSome = true := by
  unfold move
  dsimp only
  rw [if_neg (by rw [hnew]; exact Bool.false_ne_true)]
  split_ifs <;> rfl

theorem enabled_publish (env : ServiceEnv) (hget : s.messages.get? eventId = some message)
    (hfresh : eventId ∉ s.published) : (s.move (.publish env eventId)).isSome = true := by
  unfold move
  dsimp only
  rw [hget]
  dsimp only
  rw [if_neg hfresh]
  split <;> rfl

theorem ownMessage_moves (h : Inv s) {label : Label} (hown : OwnMessage s label)
    (hmove : s.move label = some (s', frames)) : Inv s' ∧ Forwards s s' label.now frames := by
  cases label with
  | frame env frame =>
    unfold move at hmove
    dsimp only at hmove
    split_ifs at hmove with henv
    cases hmove
    obtain ⟨hwf, hrecords, -, hframes⟩ := handle_moves h.wf h.sound henv frame
    refine ⟨⟨hwf, fun key new hnew => ?_⟩, fun key old new hold hnew hlive => ?_, hframes⟩
    · rcases hrecords key new hnew with ⟨old, hold, hcalm⟩ | ⟨hfresh, -⟩
      · exact hcalm.sound (h.sound key old hold)
      · exact hfresh.sound _
    · rcases hrecords key new hnew with ⟨old', hold', hcalm⟩ | ⟨-, hgone⟩
      · rw [hold] at hold'
        cases hold'
        exact hcalm.forward (h.sound key old hold)
      · have hexpired : s.service.state.isExpired env.now old = false := hlive
        rw [hgone old hold] at hexpired
        cases hexpired
  | messageStart env message =>
    obtain ⟨hnew, hmessages, hmarks⟩ := move_messageStart hmove
    refine hmarks.forwards h (fun id hid => ?_) (Or.inl rfl) fun record hrecord => ?_
    · rw [hmessages]
      exact hid.set hnew
    · obtain ⟨hrole, hnone⟩ := hown hnew record hrecord
      refine ⟨⟨message, by rw [hmessages, OrderedMap.get?_set, if_pos rfl], hrole⟩, ?_, ?_⟩
      · have hearly : record.status ≠ .committed := fun heq =>
          (h.namedRecord_sound hrecord).known (Or.inr heq) hnone
        revert hearly
        cases record.status <;> simp [rank]
      · rw [hnone]
        intro id hid
        cases hid
  | publish env eventId =>
    obtain ⟨message, hget, hfresh, hmessages, hmarks⟩ := move_publish h.wf hmove
    refine hmarks.forwards h (fun id hid => ?_) (Or.inr rfl) fun record hrecord => ?_
    · rw [hmessages]
      exact hid
    · obtain ⟨hrole, hid⟩ := hown hfresh message hget record hrecord
      refine ⟨⟨message, by rw [hmessages]; exact hget, hrole⟩, ?_, hid⟩
      cases record.status <;> simp [rank]

theorem movesForward_iff (h : Inv s) (label : Label) :
    MovesForward s label ↔ OwnMessage s label := by
  constructor
  · intro hforward
    cases label with
    | frame env frame => trivial
    | messageStart env message =>
      intro hnew record hrecord
      obtain ⟨⟨s', frames⟩, hmove⟩ := Option.isSome_iff_exists.mp (enabled_messageStart env hnew)
      obtain ⟨-, hmessages, hmarks⟩ := move_messageStart hmove
      obtain ⟨⟨known, hknown, hrole⟩, hids⟩ := hmarks.own h (hforward s' frames hmove) hrecord
      rw [hmessages, OrderedMap.get?_set, if_pos rfl] at hknown
      cases hknown
      refine ⟨hrole, Option.eq_none_iff_forall_not_mem.mpr fun id hid => ?_⟩
      obtain ⟨rfl, other, hother, -⟩ := hids id hid
      rw [OrderedMap.contains, hother] at hnew
      cases hnew
    | publish env eventId =>
      intro hfresh message hget record hrecord
      obtain ⟨⟨s', frames⟩, hmove⟩ :=
        Option.isSome_iff_exists.mp (enabled_publish env hget hfresh)
      obtain ⟨message', hget', -, hmessages, hmarks⟩ := move_publish h.wf hmove
      rw [hget] at hget'
      cases hget'
      obtain ⟨⟨known, hknown, hrole⟩, hids⟩ := hmarks.own h (hforward s' frames hmove) hrecord
      rw [hmessages, hget] at hknown
      cases hknown
      exact ⟨hrole, fun id hid => (hids id hid).1⟩
  · intro hown s' frames hmove
    exact (ownMessage_moves h hown hmove).2

end Steps

end RequestRun

/-! ## Runs -/

/-- The records of a run only move forward, and only carry user events, if and only if each
    message that starts or is published for a request is its own user message. -/
theorem requests_move_forward_iff (senderRef generation : String)
    (labels : List RequestRun.Label) :
    Along RequestRun.step RequestRun.MovesForward (.new senderRef generation) labels ↔
      Along RequestRun.step RequestRun.OwnMessage (.new senderRef generation) labels := by
  refine along_congr (fun (s : RequestRun) label s' (h : s.Inv) hown hstep => ?_)
    (fun s label h => RequestRun.movesForward_iff h label) (RequestRun.inv_new _ _) labels
  obtain ⟨⟨_, frames⟩, hmove, rfl⟩ := Option.map_eq_some_iff.mp hstep
  exact (RequestRun.ownMessage_moves h hown hmove).1

/-! ## The answer of the agent in the run of a request -/

private def ownerEnv : ServiceEnv where
  digest _ := "fingerprint"
  token _ := "token"
  now := 0
  manager := ⟨"s", "g", none, [], fun _ => [], none⟩
  callbacks := ⟨.accepted, none, none, false, none⟩

private def ownerFrame : ChannelFrame := ⟨"f1", "c", "g"⟩

private def ownerMessage : UserMessage := ⟨"r1", "hello", [], false⟩

private def runCorrelation : Correlation :=
  ⟨some "r1", some "c", some "f1", .pwa, .normal, some "owner"⟩

private def agentRun : List RequestRun.Label :=
  [.frame ownerEnv (.sessionHello "f0" "c"),
    .frame ownerEnv (.inChannel ownerFrame (.userMessage ownerMessage)),
    .messageStart ownerEnv ⟨"e1", "p1", .user, runCorrelation, [.text "hello"]⟩,
    .publish ownerEnv "e1"]

private def agentAnswer : RequestRun.Label :=
  .messageStart ownerEnv ⟨"e2", "p1", .assistant, runCorrelation, []⟩

/-- The assistant message of the same run takes the committed request back to accepted, under
    its own event. -/
theorem assistant_reopens_request :
    ¬ Along RequestRun.step RequestRun.MovesForward (.new "owner" "g")
      (agentRun ++ [agentAnswer]) := by
  intro h
  obtain ⟨s, hs⟩ := Option.isSome_iff_exists.mp
    (show (run RequestRun.step (.new "owner" "g") agentRun).isSome = true by decide)
  have hforward : s.MovesForward agentAnswer := h.of_run hs
  have hsent : ((run RequestRun.step (.new "owner" "g") agentRun).bind fun s =>
      s.move agentAnswer).any (fun r => r.1.messages.get? "e2" =
        some ⟨"e2", "p1", .assistant, runCorrelation, []⟩ ∧
          .userMessageStatus "c" "f1" "s" "g" "r1" .accepted (some "e2") (some "p1") ∈ r.2) =
        true := by decide
  rw [hs, Option.bind_some, Option.any_eq_true] at hsent
  obtain ⟨⟨s', frames⟩, hmove, hresult⟩ := hsent
  obtain ⟨hmessage, hframe⟩ := of_decide_eq_true hresult
  obtain ⟨id, hid, message, hget, hrole⟩ := (hforward s' frames hmove).2 _ hframe (Or.inl rfl)
  cases hid
  rw [hmessage] at hget
  cases hget
  cases hrole

end RemotePi.Timeline
