import RemotePi.Timeline.ServiceRuns

/-!
# The gate before the handlers

Every handler of `TimelineV2Service` (`pi-extension/src/timeline/v2_service.ts`) asks
`ensureReady` by itself before it does anything. Here the handlers stand as they are
written, each with its own gate, and `handle` chooses among them by the type of the frame.

Results:
* `handle_eq`: the handlers with their gates do what the service with one gate in front of
  all of them does.
* `isReady_run`: the ready channels of a service are those that have said hello.
* `unready_refused`: a frame from a channel that has not said hello, or of an old
  generation, is answered with one refusal and does nothing.
-/

namespace RemotePi.Timeline

open RemotePi.Lib RemotePi.Protocol

namespace TimelineV2Service

/-! ## The handlers with their gates -/

namespace Gated

section Handlers

variable (env : ServiceEnv) (s : TimelineV2Service) (frame : ChannelFrame)

/-- `handleHistory` (lines 252–261). -/
def handleHistory (before : Option String) (limit : Option ℕ) : Answer TimelineV2Service :=
  match s.ensureReady env frame with
  | .error error => ⟨s, [error], []⟩
  | .ok s => s.handleHistory env frame before limit

/-- `handlePing` (lines 263–267). -/
def handlePing : Answer TimelineV2Service :=
  match s.ensureReady env frame with
  | .error error => ⟨s, [error], []⟩
  | .ok s => ⟨s, [.pong frame.channelId frame.id], []⟩

/-- `handleQueuedMessageClear` (lines 269–274). -/
def handleQueuedMessageClear (targetId : Option String) : Answer TimelineV2Service :=
  match s.ensureReady env frame with
  | .error error => ⟨s, [error], []⟩
  | .ok s =>
    ⟨s, [], if env.callbacks.hasQueuedMessageClear then [.onQueuedMessageClear targetId] else []⟩

/-- `handleCancel` (lines 276–291). -/
def handleCancel : Answer TimelineV2Service :=
  match s.ensureReady env frame with
  | .error error => ⟨s, [error], []⟩
  | .ok s => s.handleCancel env frame

/-- `handleObserved` (lines 293–303). -/
def handleObserved (clientRequestId : String) : Answer TimelineV2Service :=
  match s.ensureReady env frame with
  | .error error => ⟨s, [error], []⟩
  | .ok s => s.handleObserved env frame clientRequestId

/-- `handleUserMessage` (lines 305–345). -/
def handleUserMessage (message : UserMessage) : Answer TimelineV2Service :=
  match s.ensureReady env frame with
  | .error error => ⟨s, [error], []⟩
  | .ok s => s.handleUserMessage env frame message

/-- `handleListModels` (lines 375–384). -/
def handleListModels : Answer TimelineV2Service :=
  match s.ensureReady env frame with
  | .error error => ⟨s, [error], []⟩
  | .ok s => s.handleListModels env frame

/-- `handleAction` (lines 386–398). -/
def handleAction (action : Action) : Answer TimelineV2Service :=
  match s.ensureReady env frame with
  | .error error => ⟨s, [error], []⟩
  | .ok s => s.handleAction env frame action

/-- `requireReady` (lines 400–403). -/
def requireReady : Answer TimelineV2Service :=
  match s.ensureReady env frame with
  | .error error => ⟨s, [error], []⟩
  | .ok s =>
    ⟨s, [.protocolError frame.channelId frame.id .unsupportedType "frame is not implemented"], []⟩

end Handlers

/-- `handle` (lines 97–127). -/
def handle (env : ServiceEnv) (s : TimelineV2Service) : ClientFrame → Answer TimelineV2Service
  | .sessionHello id channelId => ⟨(s.ready env id channelId).1, [(s.ready env id channelId).2], []⟩
  | .pairRequest id _ _ =>
    ⟨s, [.protocolError none id .protocolUpgradeRequired
      "pairing is handled before session_hello"], []⟩
  | .inChannel frame (.sessionSync before limit) => handleHistory env s frame before limit
  | .inChannel frame .ping => handlePing env s frame
  | .inChannel frame .cancel => handleCancel env s frame
  | .inChannel frame (.userMessage message) => handleUserMessage env s frame message
  | .inChannel frame (.userMessageObserved clientRequestId _) =>
    handleObserved env s frame clientRequestId
  | .inChannel frame (.action action) => handleAction env s frame action
  | .inChannel frame (.queuedMessageSet _ _) => requireReady env s frame
  | .inChannel frame (.approveTool _ _) => requireReady env s frame
  | .inChannel frame .extensionUiResponse => requireReady env s frame
  | .inChannel frame .listModels => handleListModels env s frame
  | .inChannel frame (.queuedMessageClear targetId) =>
    handleQueuedMessageClear env s frame targetId

/-- Whether the gate stands in each handler or once in front of them makes no difference. -/
theorem handle_eq (env : ServiceEnv) (s : TimelineV2Service) (frame : ClientFrame) :
    handle env s frame = s.handle env frame := by
  cases frame with
  | pairRequest id token deviceName => rfl
  | sessionHello id channelId => rfl
  | inChannel frame request =>
    cases hready : s.ensureReady env frame with
    | error refusal =>
      cases request <;> simp only [handle, handleHistory, handlePing, handleQueuedMessageClear,
        handleCancel, handleObserved, handleUserMessage, handleListModels, handleAction,
        requireReady, TimelineV2Service.handle, hready]
    | ok s' =>
      cases request <;> simp only [handle, handleHistory, handlePing, handleQueuedMessageClear,
        handleCancel, handleObserved, handleUserMessage, handleListModels, handleAction,
        requireReady, TimelineV2Service.handle, handleReady, hready]

end Gated

/-! ## Channels that have said hello -/

/-- The call is a hello from the channel. -/
def saysHello (channelId : String) : ServiceStep → Bool
  | .handle _ (.sessionHello _ channelId') => channelId' = channelId
  | _ => false

section Hello

variable {s : TimelineV2Service} {channelId channelId' : String}

theorem SameChannels.isReady_iff {s' : TimelineV2Service} (h : SameChannels s s') :
    s'.IsReady channelId ↔ s.IsReady channelId := by
  unfold IsReady SessionState.channel
  rw [h.1, h.2]

theorem channelKey_injective (senderRef : String) :
    Function.Injective (SessionState.channelKey senderRef) := by
  intro a b h
  unfold SessionState.channelKey at h
  have hlist := congrArg String.toList h
  rw [String.toList_append, String.toList_append (t := b)] at hlist
  exact String.toList_inj.mp (List.append_cancel_left hlist)

theorem isReady_hello (env : ServiceEnv) (helloId : String) :
    (s.handle env (.sessionHello helloId channelId')).service.IsReady channelId ↔
      s.IsReady channelId ∨ channelId' = channelId := by
  unfold handle ready IsReady SessionState.channel SessionState.hello
  dsimp only
  rw [OrderedMap.get?_set]
  split_ifs with hkey
  · exact iff_of_true rfl (Or.inr (channelKey_injective s.senderRef hkey).symm)
  · rw [or_iff_left]
    rintro rfl
    exact hkey rfl

theorem isReady_touch (now : ℤ) :
    IsReady { s with state := s.state.touch now s.senderRef channelId' } channelId ↔
      s.IsReady channelId := by
  unfold SessionState.touch
  split
  · exact Iff.rfl
  · rename_i current hcurrent
    unfold IsReady SessionState.channel
    dsimp only
    rw [OrderedMap.get?_set]
    split_ifs with hkey
    · unfold SessionState.channel at hcurrent
      rw [hkey, hcurrent]
      exact Iff.rfl
    · exact Iff.rfl

theorem isReady_inChannel (env : ServiceEnv) (frame : ChannelFrame) (request : ChannelRequest) :
    (s.handle env (.inChannel frame request)).service.IsReady channelId ↔
      s.IsReady channelId := by
  unfold handle
  dsimp only
  split
  · exact Iff.rfl
  · rename_i hready
    rw [ensureReady_eq_ok hready]
    exact (sameChannels_handleReady _ request).isReady_iff.trans (isReady_touch env.now)

/-- Only a hello makes a channel ready, and nothing makes it unready again. -/
theorem isReady_apply (call : ServiceStep) :
    (s.apply call).service.IsReady channelId ↔
      s.IsReady channelId ∨ saysHello channelId call = true := by
  have hquiet : ∀ {s' : TimelineV2Service}, SameChannels s s' → saysHello channelId call = false →
      (s'.IsReady channelId ↔ s.IsReady channelId ∨ saysHello channelId call = true) := by
    intro s' hsame hcall
    rw [hsame.isReady_iff, hcall, or_iff_left Bool.false_ne_true]
  cases call with
  | handle env frame =>
    cases frame with
    | pairRequest id token deviceName => exact hquiet ⟨rfl, rfl⟩ rfl
    | sessionHello id channelId' =>
      refine (isReady_hello env id).trans (or_congr_right ?_)
      rw [saysHello, decide_eq_true_eq]
    | inChannel frame request =>
      exact (isReady_inChannel env frame request).trans (or_iff_left Bool.false_ne_true).symm
  | started env message =>
    refine hquiet ?_ rfl
    unfold apply TimelineV2Service.started
    dsimp only
    split
    · exact ⟨rfl, rfl⟩
    · split
      · exact ⟨rfl, rfl⟩
      · exact ⟨rfl, SessionState.channels_update _ _ _ _ _ _⟩
  | commit env clientRequestId messageId groupId =>
    refine hquiet ?_ rfl
    unfold apply TimelineV2Service.commit
    dsimp only
    split
    · exact ⟨rfl, rfl⟩
    · exact ⟨rfl, SessionState.channels_update _ _ _ _ _ _⟩
  | unknownDelivery env clientRequestId =>
    exact hquiet (sameChannels_unknownDelivery s clientRequestId) rfl
  | canDrain env clientRequestId => exact hquiet ⟨rfl, rfl⟩ rfl
  | reset env reason => exact hquiet ⟨rfl, rfl⟩ rfl
  | refreshGeneration next =>
    refine hquiet ?_ rfl
    unfold apply TimelineV2Service.refreshGeneration
    dsimp only
    split_ifs
    · exact ⟨rfl, rfl⟩
    · exact ⟨rfl, SessionState.channels_setGeneration _ _⟩

/-- The ready channels of a service are those that have said hello. -/
theorem isReady_run (senderRef generation : String) (calls : List ServiceStep) :
    (calls.foldl (fun s call => (s.apply call).service)
        (TimelineV2Service.new senderRef generation)).IsReady channelId ↔
      ∃ call ∈ calls, saysHello channelId call = true := by
  have hfold : ∀ (calls : List ServiceStep) (s : TimelineV2Service),
      (calls.foldl (fun s call => (s.apply call).service) s).IsReady channelId ↔
        s.IsReady channelId ∨ ∃ call ∈ calls, saysHello channelId call = true := by
    intro calls
    induction calls with
    | nil =>
      intro s
      simp
    | cons call calls ih =>
      intro s
      rw [List.foldl_cons, ih, isReady_apply, List.exists_mem_cons_iff, or_assoc]
  rw [hfold, or_iff_right]
  exact fun hready => Bool.false_ne_true hready

end Hello

/-! ## Refusals -/

/-- What the gate answers: the channel has not said hello, or the generation is an old one. -/
def refusal (env : ServiceEnv) (s : TimelineV2Service) (frame : ChannelFrame) : ServiceFrame :=
  if (s.state.channel s.senderRef frame.channelId).isNone then
    .protocolError frame.channelId frame.id .invalidChannel "session_hello required"
  else .reset frame.channelId env.manager.sessionId s.generation .generationChanged

theorem ensureReady_refused (env : ServiceEnv) {s : TimelineV2Service} {frame : ChannelFrame}
    (h : ¬s.IsReady frame.channelId ∨ frame.historyGeneration ≠ s.generation) :
    s.ensureReady env frame = .error (refusal env s frame) := by
  unfold ensureReady refusal
  split_ifs with hchannel hgeneration
  · rfl
  · rfl
  · rcases h with hready | hold
    · exact absurd (Option.isSome_iff_ne_none.mpr fun hnone =>
        hchannel (Option.isNone_iff_eq_none.mpr hnone)) hready
    · exact absurd hold hgeneration

/-- A frame from a channel that has not said hello, or of another generation than the
    service's, calls nothing, changes nothing, and is answered with one refusal, whichever
    handler it comes to. -/
theorem unready_refused (env : ServiceEnv) (s : TimelineV2Service) (frame : ChannelFrame)
    (request : ChannelRequest)
    (h : ¬s.IsReady frame.channelId ∨ frame.historyGeneration ≠ s.generation) :
    Gated.handle env s (.inChannel frame request) = ⟨s, [refusal env s frame], []⟩ := by
  have hrefused := ensureReady_refused env h
  cases request with
  | userMessage message => simp only [Gated.handle, Gated.handleUserMessage, hrefused]
  | userMessageObserved clientRequestId messageId =>
    simp only [Gated.handle, Gated.handleObserved, hrefused]
  | sessionSync before limit => simp only [Gated.handle, Gated.handleHistory, hrefused]
  | ping => simp only [Gated.handle, Gated.handlePing, hrefused]
  | cancel => simp only [Gated.handle, Gated.handleCancel, hrefused]
  | action action => simp only [Gated.handle, Gated.handleAction, hrefused]
  | listModels => simp only [Gated.handle, Gated.handleListModels, hrefused]
  | queuedMessageSet text images => simp only [Gated.handle, Gated.requireReady, hrefused]
  | queuedMessageClear targetId =>
    simp only [Gated.handle, Gated.handleQueuedMessageClear, hrefused]
  | approveTool toolCallId allow => simp only [Gated.handle, Gated.requireReady, hrefused]
  | extensionUiResponse => simp only [Gated.handle, Gated.requireReady, hrefused]

private def idle : ServiceEnv where
  digest _ := "fingerprint"
  token _ := "token"
  now := 0
  manager := ⟨"s", "g", none, [], fun _ => [], none⟩
  callbacks := ⟨.accepted, some .aborted, some false, true, none⟩

/-- A cancel before the hello reaches no callback. -/
theorem unready_refused_cancel :
    Gated.handle idle (.new "owner" "g") (.inChannel ⟨"f1", "c1", "g"⟩ .cancel) =
      ⟨.new "owner" "g", [refusal idle (.new "owner" "g") ⟨"f1", "c1", "g"⟩], []⟩ :=
  unready_refused idle _ _ .cancel (Or.inl Bool.false_ne_true)

end TimelineV2Service

end RemotePi.Timeline
