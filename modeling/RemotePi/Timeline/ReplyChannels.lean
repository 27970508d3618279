import RemotePi.Timeline.ServiceRuns

/-!
# The channels that the service replies to

Whom the frames of `TimelineV2Service` (`pi-extension/src/timeline/v2_service.ts`) are
addressed to. The service remembers a channel for a request when it takes it over
(`requestChannels`, line 315), and answers from there what comes later; a browser ignores
what is addressed to another channel (`pwa/src/lib/remote-pi/peer-channel.ts`, line 58).

Results:
* `target_sync`: a page of the history goes to the channel that asks for it.
* `answers_reach_iff`: when all that `handle` returns goes to the channel of its frame.
* `addressedTo_started`, `addressedTo_commit`: when a later frame goes to the channel of the
  last user message.
* `replies_reach_iff`: both, along a run.
-/

namespace RemotePi.Timeline

open RemotePi.Lib RemotePi.Protocol

/-! ## Addresses -/

/-- `target_channel_id` of an answer to a history request. -/
def serverTarget : ServerFrame → String
  | .historyChunk chunk => chunk.targetChannelId
  | .protocolError targetChannelId _ _ _ => targetChannelId
  | .reset targetChannelId _ _ _ => targetChannelId

/-- `target_channel_id` of a frame; broadcasts have none. -/
def ServiceFrame.target? : ServiceFrame → Option String
  | .sessionReady targetChannelId _ _ _ _ => some targetChannelId
  | .userMessageStatus targetChannelId _ _ _ _ _ _ _ => some targetChannelId
  | .userMessageStarted targetChannelId _ _ _ _ => some targetChannelId
  | .pong targetChannelId _ => some targetChannelId
  | .cancelled targetChannelId _ => some targetChannelId
  | .modelsList targetChannelId _ _ => some targetChannelId
  | .protocolError targetChannelId _ _ _ => targetChannelId
  | .reset targetChannelId _ _ _ => some targetChannelId
  | .history frame => some (serverTarget frame)

/-- `channel_id` of a frame; a pair request has none. -/
def ClientFrame.channel? : ClientFrame → Option String
  | .pairRequest _ _ _ => none
  | .sessionHello _ channelId => some channelId
  | .inChannel frame _ => some frame.channelId

/-- All frames are addressed to a channel. -/
def AddressedTo (target : Option String) (frames : List ServiceFrame) : Prop :=
  ∀ frame ∈ frames, frame.target? = target

theorem addressedTo_nil (target : Option String) : AddressedTo target [] := fun _ h => by cases h

theorem addressedTo_singleton {target : Option String} {frame : ServiceFrame} :
    AddressedTo target [frame] ↔ frame.target? = target := by
  simp [AddressedTo]

/-! ## The history -/

section History

variable (token : ℕ → String) (manager : SessionManager) (pager : Pager)
  (request : HistorySyncRequest)

theorem target_chunksFrom {header : ChunkHeader} {nextBefore : Option String} {chunkIndex : ℕ}
    {payloads : List Payload} : ∀ chunk ∈ chunksFrom header nextBefore chunkIndex payloads,
      chunk.targetChannelId = header.targetChannelId := by
  induction payloads generalizing chunkIndex with
  | nil => simp [chunksFrom]
  | cons payload payloads ih =>
    intro chunk hchunk
    rcases List.mem_cons.mp hchunk with rfl | hchunk
    · rfl
    · exact ih chunk hchunk

theorem target_singleton {frame : ServerFrame} (h : serverTarget frame = request.targetChannelId) :
    ∀ f ∈ [frame], serverTarget f = request.targetChannelId := by
  intro f hf
  rw [List.mem_singleton.mp hf]
  exact h

theorem target_page (cursor : CursorState) :
    ∀ frame ∈ (page token manager pager request cursor).2,
      serverTarget frame = request.targetChannelId := by
  unfold page
  split
  · exact target_singleton request rfl
  split
  · exact target_singleton request rfl
  split
  · exact target_singleton request rfl
  split
  · exact target_singleton request rfl
  dsimp only
  split
  · rename_i chunks hchunks
    intro frame hframe
    obtain ⟨chunk, hchunk, rfl⟩ := List.mem_map.mp hframe
    obtain ⟨payloads, -, hmade⟩ := fragmentWindow_eq_ok.mp hchunks
    obtain ⟨rfl, -⟩ := makeChunks_ok_iff.mp hmade
    exact target_chunksFrom chunk hchunk
  · exact target_singleton request rfl

/-- A page of the history goes to the channel that asks for it. -/
theorem target_sync : ∀ frame ∈ (sync token manager pager request).2,
    serverTarget frame = request.targetChannelId := by
  unfold sync
  dsimp only
  split
  · split_ifs
    · exact target_singleton request rfl
    · unfold syncInitial
      dsimp only
      split_ifs
      · exact target_singleton request rfl
      · exact target_page token manager _ request _
  · split
    · exact target_singleton request rfl
    · split_ifs
      · exact target_singleton request rfl
      · exact target_singleton request rfl
      · exact target_singleton request rfl
      · exact target_singleton request rfl
      · split
        · exact target_singleton request rfl
        · exact target_page token manager _ request _

end History

/-! ## Answers -/

/-- A retry of a request whose delivery is unknown comes on the channel that the service
    remembers for it. -/
def RetriesAtHome (env : ServiceEnv) (s : TimelineV2Service) : ClientFrame → Prop
  | .inChannel frame (.userMessage message) =>
    s.accepts frame = true → ∀ record ∈ liveRecord s env message.clientRequestId,
      record.fingerprint =
          fingerprintPayload env.digest (TimelineV2Service.idempotencyPayload message) →
        record.status = .unknownDelivery →
          ∀ channelId ∈ s.requestChannels.get? message.clientRequestId,
            channelId = frame.channelId
  | _ => True

section Answers

variable {env : ServiceEnv} {s : TimelineV2Service} {frame : ChannelFrame} {message : UserMessage}

/-- What is sent of a request whose delivery is unknown goes to its remembered channel. -/
theorem addressedTo_unknownDelivery (h : ServiceOk s) {clientRequestId : String}
    {target : Option String} :
    AddressedTo target (s.unknownDelivery env clientRequestId).2 ↔
      ∀ _record ∈ liveRecord s env clientRequestId,
        ∀ channelId ∈ s.requestChannels.get? clientRequestId, some channelId = target := by
  rw [unknownDelivery_eq h]
  cases liveRecord s env clientRequestId with
  | none => simp [AddressedTo]
  | some record =>
    cases s.requestChannels.get? clientRequestId with
    | none => simp [AddressedTo]
    | some channelId => simp [addressedTo_singleton, ServiceFrame.target?]

theorem addressedTo_replay (h : ServiceOk s) (record : IdempotencyRecord) :
    AddressedTo (some frame.channelId) (s.replay env frame message record).2 ↔
      (record.status = .unknownDelivery →
        ∀ _record ∈ liveRecord s env message.clientRequestId,
          ∀ channelId ∈ s.requestChannels.get? message.clientRequestId,
            channelId = frame.channelId) := by
  unfold TimelineV2Service.replay
  cases record.status with
  | unknownDelivery =>
    rw [addressedTo_unknownDelivery h]
    simp
  | _ => simp [addressedTo_singleton, TimelineV2Service.status, ServiceFrame.target?]

/-- What answers a new message goes to its channel. -/
theorem addressedTo_delivered (h : ServiceOk s) (record : IdempotencyRecord)
    (hchannel : s.requestChannels.get? message.clientRequestId = some frame.channelId) :
    AddressedTo (some frame.channelId) (s.delivered env frame message record).2 := by
  have hunknown : AddressedTo (some frame.channelId)
      (s.unknownDelivery env message.clientRequestId).2 := by
    rw [addressedTo_unknownDelivery h, hchannel]
    rintro _ _ channelId hc
    rw [Option.mem_some_iff.mp hc]
  unfold TimelineV2Service.delivered
  split
  · exact addressedTo_singleton.mpr rfl
  · exact hunknown
  · exact hunknown
  · exact addressedTo_singleton.mpr rfl
  · split_ifs
    · exact hunknown
    · exact addressedTo_singleton.mpr rfl

theorem addressedTo_handleUserMessage (h : ServiceOk s) :
    AddressedTo (some frame.channelId) (s.handleUserMessage env frame message).frames ↔
      ∀ record ∈ liveRecord s env message.clientRequestId,
        record.fingerprint =
            fingerprintPayload env.digest (TimelineV2Service.idempotencyPayload message) →
          record.status = .unknownDelivery →
            ∀ channelId ∈ s.requestChannels.get? message.clientRequestId,
              channelId = frame.channelId := by
  have hok := h.begin env.digest env.now s.senderRef message.clientRequestId
    (TimelineV2Service.idempotencyPayload message)
  unfold TimelineV2Service.handleUserMessage
  dsimp only
  cases hlive : liveRecord s env message.clientRequestId with
  | none =>
    obtain ⟨record, -, -, hbegin⟩ := begin_of_not_live h hlive
    have hresult := congrArg Prod.snd hbegin
    dsimp only at hresult
    rw [hresult]
    refine iff_of_true ?_ (by simp)
    exact addressedTo_delivered (hok _) record (OrderedMap.get?_set_self _ _ _)
  | some record =>
    have hresult := congrArg Prod.snd (begin_of_live h hlive)
    dsimp only at hresult
    rw [hresult]
    by_cases hsame : record.fingerprint =
        fingerprintPayload env.digest (TimelineV2Service.idempotencyPayload message)
    · rw [if_pos hsame]
      dsimp only
      rw [addressedTo_replay (hok s.requestChannels), liveRecord_moveLast h hlive]
      simp [hsame]
    · rw [if_neg hsame]
      refine iff_of_true (addressedTo_singleton.mpr rfl) ?_
      rintro _ hrecord heq
      obtain rfl := Option.mem_some_iff.mp hrecord
      exact absurd heq hsame

theorem addressedTo_handleReady (request : ChannelRequest)
    (hrequest : ∀ message, request ≠ .userMessage message) :
    AddressedTo (some frame.channelId) (s.handleReady env frame request).frames := by
  cases request with
  | userMessage message => exact absurd rfl (hrequest message)
  | userMessageObserved clientRequestId _ =>
    unfold TimelineV2Service.handleReady TimelineV2Service.handleObserved
    dsimp only
    split
    · exact addressedTo_singleton.mpr rfl
    · split_ifs
      · exact addressedTo_singleton.mpr rfl
      · exact addressedTo_nil _
  | sessionSync before limit =>
    intro f hf
    obtain ⟨frame', hframe', rfl⟩ := List.mem_map.mp hf
    exact congrArg some (target_sync _ _ _ _ frame' hframe')
  | ping => exact addressedTo_singleton.mpr rfl
  | cancel =>
    unfold TimelineV2Service.handleReady TimelineV2Service.handleCancel
    dsimp only
    split <;> exact addressedTo_singleton.mpr rfl
  | action action =>
    unfold TimelineV2Service.handleReady TimelineV2Service.handleAction
    dsimp only
    split
    · exact addressedTo_singleton.mpr rfl
    · exact addressedTo_nil _
    · exact addressedTo_singleton.mpr rfl
  | listModels =>
    unfold TimelineV2Service.handleReady TimelineV2Service.handleListModels
    dsimp only
    split <;> exact addressedTo_singleton.mpr rfl
  | queuedMessageSet _ _ => exact addressedTo_singleton.mpr rfl
  | queuedMessageClear _ => exact addressedTo_nil _
  | approveTool _ _ => exact addressedTo_singleton.mpr rfl
  | extensionUiResponse => exact addressedTo_singleton.mpr rfl

/-- What `handle` returns goes to the channel of its frame exactly when no retry of a request
    whose delivery is unknown comes on another channel. -/
theorem answers_reach_iff (h : ServiceOk s) (env : ServiceEnv) (clientFrame : ClientFrame) :
    AddressedTo clientFrame.channel? (s.handle env clientFrame).frames ↔
      RetriesAtHome env s clientFrame := by
  cases clientFrame with
  | pairRequest id token deviceName =>
    exact iff_of_true (addressedTo_singleton.mpr rfl) trivial
  | sessionHello id channelId => exact iff_of_true (addressedTo_singleton.mpr rfl) trivial
  | inChannel frame request =>
    cases haccepts : s.accepts frame with
    | true =>
      have hok := h.touch env.now frame.channelId
      rw [handle_of_accepts env request haccepts]
      by_cases hrequest : ∃ message, request = .userMessage message
      · obtain ⟨message, rfl⟩ := hrequest
        refine (addressedTo_handleUserMessage hok).trans ?_
        rw [liveRecord_touch]
        exact ⟨fun hall _ => hall, fun hall => hall haccepts⟩
      · refine iff_of_true (addressedTo_handleReady request fun message heq =>
          hrequest ⟨message, heq⟩) ?_
        cases request with
        | userMessage message => exact absurd ⟨message, rfl⟩ hrequest
        | _ => trivial
    | false =>
      obtain ⟨refusal, hhandle, hform⟩ := handle_of_refuses env request haccepts
      rw [hhandle]
      refine iff_of_true (addressedTo_singleton.mpr ?_) ?_
      · rcases hform with rfl | rfl <;> rfl
      · cases request with
        | userMessage message =>
          intro h
          rw [haccepts] at h
          cases h
        | _ => trivial

end Answers

/-! ## Later frames -/

/-- If a call finds the record of a request, the channel that is remembered for it is the one
    of its last user message. -/
def RemembersLast (env : ServiceEnv) (s : TimelineV2Service) (last : Option String)
    (clientRequestId : String) : Prop :=
  ∀ _record ∈ liveRecord s env clientRequestId,
    ∀ channelId ∈ s.requestChannels.get? clientRequestId, some channelId = last

section Later

variable {env : ServiceEnv} {s : TimelineV2Service} {last : Option String}

theorem addressedTo_commit (h : ServiceOk s) (clientRequestId messageId : String)
    (groupId : Option String) :
    AddressedTo last (s.commit env clientRequestId messageId groupId).2 ↔
      RemembersLast env s last clientRequestId := by
  unfold RemembersLast
  rw [commit_eq h]
  cases liveRecord s env clientRequestId with
  | none => simp [AddressedTo]
  | some record =>
    cases s.requestChannels.get? clientRequestId with
    | none => simp [AddressedTo]
    | some channelId => simp [addressedTo_singleton, ServiceFrame.target?]

theorem addressedTo_started {message : TimelineStarted} {clientRequestId : String}
    (hrequest : message.correlation.clientRequestId = some clientRequestId) :
    AddressedTo last (s.started env message).2 ↔ RemembersLast env s last clientRequestId := by
  unfold RemembersLast TimelineV2Service.started
  rw [hrequest]
  dsimp only
  rw [findRecord_eq]
  cases liveRecord s env clientRequestId with
  | none => simp [AddressedTo]
  | some record =>
    cases s.requestChannels.get? clientRequestId with
    | none => simp [AddressedTo]
    | some channelId => simp [AddressedTo, ServiceFrame.target?]

end Later

/-! ## Runs -/

/-- A service, with the channel on which the last user message of each request came. -/
structure ReplyRun where
  service : TimelineV2Service
  received : String → Option String

namespace ReplyRun

def new (senderRef generation : String) : ReplyRun := ⟨.new senderRef generation, fun _ => none⟩

/-- The channels of the last user messages after a call. -/
def receivedAfter (s : ReplyRun) : ServiceStep → String → Option String
  | .handle _ (.inChannel frame (.userMessage message)) => fun clientRequestId =>
    if clientRequestId = message.clientRequestId then some frame.channelId
    else s.received clientRequestId
  | _ => s.received

def step (s : ReplyRun) (call : ServiceStep) : Option ReplyRun :=
  some ⟨(s.service.apply call).service, s.receivedAfter call⟩

/-- An answer goes to the channel of the frame that it answers, a later frame about a request
    to the channel of its last user message. -/
def Reaches (s : ReplyRun) (call : ServiceStep) : Prop :=
  match call with
  | .handle _ frame => AddressedTo frame.channel? (s.service.apply call).frames
  | .started _ message =>
    ∀ clientRequestId, message.correlation.clientRequestId = some clientRequestId →
      AddressedTo (s.received clientRequestId) (s.service.apply call).frames
  | .commit _ clientRequestId _ _ =>
    AddressedTo (s.received clientRequestId) (s.service.apply call).frames
  | .unknownDelivery _ clientRequestId =>
    AddressedTo (s.received clientRequestId) (s.service.apply call).frames
  | _ => True

/-- A retry of a request whose delivery is unknown, and each later call that finds a record,
    comes while the last user message of the request is on the channel that the service
    remembers. -/
def AtHome (s : ReplyRun) : ServiceStep → Prop
  | .handle env frame => RetriesAtHome env s.service frame
  | .started env message =>
    ∀ clientRequestId, message.correlation.clientRequestId = some clientRequestId →
      RemembersLast env s.service (s.received clientRequestId) clientRequestId
  | .commit env clientRequestId _ _ =>
    RemembersLast env s.service (s.received clientRequestId) clientRequestId
  | .unknownDelivery env clientRequestId =>
    RemembersLast env s.service (s.received clientRequestId) clientRequestId
  | _ => True

theorem reaches_iff {s : ReplyRun} (h : ServiceOk s.service) (call : ServiceStep) :
    s.Reaches call ↔ s.AtHome call := by
  cases call with
  | handle env frame => exact answers_reach_iff h env frame
  | started env message =>
    refine forall_congr' fun clientRequestId => ?_
    exact ⟨fun hreach hrequest => (addressedTo_started hrequest).mp (hreach hrequest),
      fun hhome hrequest => (addressedTo_started hrequest).mpr (hhome hrequest)⟩
  | commit env clientRequestId messageId groupId => exact addressedTo_commit h _ _ _
  | unknownDelivery env clientRequestId => exact addressedTo_unknownDelivery h
  | canDrain env clientRequestId => exact Iff.rfl
  | reset env reason => exact Iff.rfl
  | refreshGeneration next => exact Iff.rfl

end ReplyRun

/-- Along a run of the service every reply reaches the channel that asks for it if and only if
    the requests are at home. -/
theorem replies_reach_iff (senderRef generation : String) (calls : List ServiceStep) :
    Along ReplyRun.step ReplyRun.Reaches (.new senderRef generation) calls ↔
      Along ReplyRun.step ReplyRun.AtHome (.new senderRef generation) calls := by
  refine along_congr (fun (s : ReplyRun) call s' (h : ServiceOk s.service) _ hstep => ?_)
    (fun s call h => ReplyRun.reaches_iff h call) (serviceOk_new senderRef generation) calls
  cases hstep
  exact h.apply call

/-! ## A retry on a new channel -/

private def retryEnv (result : UserMessageResult) : ServiceEnv where
  digest _ := "fingerprint"
  token _ := "token"
  now := 0
  manager := ⟨"s", "g", none, [], fun _ => [], none⟩
  callbacks := ⟨result, none, none, false, none⟩

/-- The owner sends the request on one channel and again on another one. -/
private def retried (result : UserMessageResult) : List ServiceStep :=
  [.handle (retryEnv result) (.sessionHello "h1" "c1"),
    .handle (retryEnv result)
      (.inChannel ⟨"f1", "c1", "g"⟩ (.userMessage ⟨"r1", "hello", [], false⟩)),
    .handle (retryEnv result) (.sessionHello "h2" "c2")]

private def retry (result : UserMessageResult) : ServiceStep :=
  .handle (retryEnv result)
    (.inChannel ⟨"f2", "c2", "g"⟩ (.userMessage ⟨"r1", "hello", [], false⟩))

private def publication : ServiceStep := .commit (retryEnv .accepted) "r1" "e1" (some "p1")

/-- The commit of a request that was sent again on the channel `c2` goes to `c1`, and so does
    the answer to the retry of one whose delivery is unknown. -/
theorem retried_replies_lost :
    ¬ Along ReplyRun.step ReplyRun.Reaches (.new "owner" "g")
        (retried .accepted ++ [retry .accepted] ++ [publication]) ∧
      ¬ Along ReplyRun.step ReplyRun.Reaches (.new "owner" "g")
        (retried .declined ++ [retry .declined]) := by
  constructor
  · intro h
    obtain ⟨s, hs⟩ := Option.isSome_iff_exists.mp
      (show (run ReplyRun.step (.new "owner" "g")
        (retried .accepted ++ [retry .accepted])).isSome = true by decide)
    have hreach : s.Reaches publication := h.of_run hs
    have hsent : (run ReplyRun.step (.new "owner" "g")
        (retried .accepted ++ [retry .accepted])).any (fun s =>
          s.received "r1" = some "c2" ∧
          .userMessageStatus "c1" "r1" "s" "g" "r1" .committed (some "e1") (some "p1") ∈
            (s.service.apply publication).frames) = true := by decide
    rw [hs, Option.any_some] at hsent
    obtain ⟨hlast, hframe⟩ := of_decide_eq_true hsent
    have hsame : some "c1" = s.received "r1" := hreach _ hframe
    rw [hlast] at hsame
    revert hsame
    decide
  · intro h
    obtain ⟨s, hs⟩ := Option.isSome_iff_exists.mp
      (show (run ReplyRun.step (.new "owner" "g") (retried .declined)).isSome = true by
        decide)
    have hreach : s.Reaches (retry .declined) := h.of_run hs
    have hsent : (run ReplyRun.step (.new "owner" "g") (retried .declined)).any (fun s =>
        .userMessageStatus "c1" "r1" "s" "g" "r1" .unknownDelivery none none ∈
          (s.service.apply (retry .declined)).frames) = true := by decide
    rw [hs, Option.any_some] at hsent
    have hsame : some "c1" = some "c2" := hreach _ (of_decide_eq_true hsent)
    revert hsame
    decide

end RemotePi.Timeline
