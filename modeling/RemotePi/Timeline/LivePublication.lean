import RemotePi.Lib.Trace
import RemotePi.Timeline.Availability
import RemotePi.Timeline.Snapshot

/-!
# Live publication

Model of `TimelineRuntime` (`pi-extension/src/timeline/runtime.ts`) while a session runs:
a message that starts gets a marker, and when it has ended a deferred callback finds the
message behind its marker and publishes its event.

The session manager appends the entries. Objects are known by numbers, which stand for
their identity.

Results:
* `parseMarker_data`: a marker is read back as it was written.
* `LiveInv.run`: every message that is pending has its marker in the branch.
* `published_eq_recovered`: when recovery returns the event that has been published.
* `published_lost_to_nameless_tool`: an appended tool result takes it away.
-/

namespace RemotePi.Timeline

open RemotePi.Lib RemotePi.Protocol

/-! ## Markers as data -/

def MessageOrigin.text : MessageOrigin → String
  | .pwa => "pwa"
  | .extension => "extension"
  | .unknown => "unknown"

def MessageDelivery.text : MessageDelivery → String
  | .normal => "normal"
  | .queued => "queued"
  | .unknown => "unknown"

def GroupedKind.text : GroupedKind → String
  | .assistant => "assistant"
  | .tool => "tool"
  | .providerError => "provider_error"

def SystemKind.text : SystemKind → String
  | .compaction => "compaction"
  | .branchSummary => "branch_summary"
  | .custom => "custom"

def optionalMember (key : String) : Option String → List (String × JsValue)
  | none => []
  | some text => [(key, .string text)]

/-- The object of a marker, as the session keeps it. -/
def Marker.data : Marker → JsValue
  | .user eventId groupId messageId origin delivery senderRef =>
    .object ([("version", .number 2), ("event_id", .string eventId), ("group_id", .string groupId),
      ("kind", .string "user")] ++ optionalMember "message_id" messageId ++
      [("origin", .string origin.text), ("delivery", .string delivery.text)] ++
      optionalMember "sender_ref" senderRef)
  | .grouped eventId groupId kind =>
    .object [("version", .number 2), ("event_id", .string eventId), ("group_id", .string groupId),
      ("kind", .string kind.text)]
  | .system eventId kind groupId =>
    .object ([("version", .number 2), ("event_id", .string eventId), ("kind", .string kind.text)] ++
      optionalMember "group_id" groupId)

@[simp] theorem origin?_text (origin : MessageOrigin) : origin? origin.text = some origin := by
  cases origin <;> rfl

@[simp] theorem delivery?_text (delivery : MessageDelivery) :
    delivery? delivery.text = some delivery := by
  cases delivery <;> rfl

theorem readMarker_data (marker : Marker) : readMarker marker.data = some marker := by
  cases marker with
  | user eventId groupId messageId origin delivery senderRef =>
    cases messageId <;> cases senderRef <;>
      simp [Marker.data, readMarker, readUserMarker, optionalMember, JsValue.member,
        JsValue.string?, onlyMembers, optionalText, List.lookup_cons]
  | grouped eventId groupId kind => cases kind <;> rfl
  | system eventId kind groupId => cases kind <;> cases groupId <;> rfl

/-- A marker that keeps the schema is read back as it was written. -/
theorem parseMarker_data {marker : Marker} (h : marker.valid = true) :
    parseMarker marker.data = some marker := by
  rw [parseMarker, readMarker_data, Option.filter_some, if_pos h]

/-! ## State of the runtime -/

/-- A message as the agent hands it over. `object` tells objects apart; a message of
    another role has no record. -/
structure AgentMessage where
  object : ℕ
  record : Option MessageRecord

/-- `PendingMessage` (lines 43–49). `number` tells the objects of this type apart. -/
structure PendingMessage where
  number : ℕ
  message : ℕ
  role : MessageRole
  marker : Marker
  correlation : Correlation
  identity : Option String
deriving DecidableEq

/-- The fields of `TimelineRuntime`, with the branch of its session and the callbacks that
    `setImmediate` has queued; `created` counts the pending messages. -/
structure RuntimeState where
  branch : List SessionEntry
  epoch : ℕ
  active : Bool
  activeGroupId : Option String
  messageCorrelations : ℕ → Option Correlation
  pending : ℕ → Option PendingMessage
  pendingByRole : MessageRole → List PendingMessage
  callbacks : List PendingMessage
  published : List FormalEvent
  created : ℕ

/-- A runtime that has just been attached to a session. -/
def RuntimeState.attached (branch : List SessionEntry) : RuntimeState where
  branch := branch
  epoch := 0
  active := false
  activeGroupId := none
  messageCorrelations _ := none
  pending _ := none
  pendingByRole _ := []
  callbacks := []
  published := []
  created := 0

/-- What the runtime calls: `onStarted` and `onPublished`. -/
inductive RuntimeCall where
  | started (started : TimelineStarted)
  | published (event : FormalEvent) (correlation : Correlation)

/-- What happens to a runtime. `store` is the correlation of the asynchronous context, the
    ids of a start are the ones that it draws. -/
inductive RuntimeEvent where
  | agentStart
  | agentEnd
  | messageStart (message : AgentMessage) (store : Option Correlation)
      (eventId groupId entryId timestamp : String)
  | messageEnd (message : AgentMessage)
  | append (entry : SessionEntry)
  | sessionEntry (entry : SessionEntry) (now : ℕ)
  | callback (now : ℕ)

/-- The host at a time of its clock. -/
def HostRules.atTime (rules : HostRules) (now : ℕ) : HostRules :=
  { rules with
    now := now
    now_nonneg := Nat.cast_nonneg now }

/-- `messageIdentity` (lines 284–287). -/
def messageIdentity (numberText : ℚ → String) (record : MessageRecord) : Option String :=
  record.timestamp.map fun timestamp =>
    let role :=
      match record.role with
      | .user => "user"
      | .assistant => "assistant"
      | .toolResult => "toolResult"
    ":".intercalate [role, numberText timestamp, record.api.getD "", record.provider.getD "",
      record.model.getD ""]

/-- `buildMarker` (lines 349–359); none where the schema throws. -/
def buildMarker (role : MessageRole) (eventId groupId : String) (correlation : Correlation) :
    Option Marker :=
  let marker : Marker :=
    match role with
    | .user => .user eventId groupId none correlation.origin correlation.delivery
        correlation.senderRef
    | .assistant => .grouped eventId groupId .assistant
    | .toolResult => .grouped eventId groupId .tool
  if marker.valid then some marker else none

namespace RuntimeState

/-- `onAgentStart` (lines 158–162). -/
def onAgentStart (s : RuntimeState) : RuntimeState :=
  { s with
    epoch := s.epoch + 1
    active := true
    activeGroupId := none }

/-- `onAgentEnd` (lines 164–170). -/
def onAgentEnd (s : RuntimeState) : RuntimeState :=
  { s with
    active := false
    activeGroupId := none
    pendingByRole := fun _ => [] }

/-- `correlationFor` (lines 341–347). -/
def correlationFor (s : RuntimeState) (message : AgentMessage) (store : Option Correlation) :
    Correlation :=
  match store with
  | some existing => existing
  | none => (s.messageCorrelations message.object).getD ⟨none, none, none, .unknown, .unknown, none⟩

/-- The entry of a marker. -/
def markerOf (entryId timestamp : String) (marker : Marker) : SessionEntry :=
  ⟨entryId, timestamp, .custom timelineMarker marker.data⟩

/-- `onMessageStart` (lines 172–198). -/
def onMessageStart (rules : HostRules) (numberText : ℚ → String) (s : RuntimeState)
    (message : AgentMessage) (store : Option Correlation)
    (eventId groupId entryId timestamp : String) : RuntimeState × List RuntimeCall :=
  match message.record with
  | none => (s, [])
  | some record =>
    let s := if s.active then s else s.onAgentStart
    let correlation := s.correlationFor message store
    let groupId := s.activeGroupId.getD groupId
    let s := { s with activeGroupId := some groupId }
    match buildMarker record.role eventId groupId correlation with
    | none => (s, [])
    | some marker =>
      let pending : PendingMessage :=
        { number := s.created
          message := message.object
          role := record.role
          marker
          correlation
          identity := messageIdentity numberText record }
      ({ s with
          branch := s.branch ++ [markerOf entryId timestamp marker]
          messageCorrelations := Function.update s.messageCorrelations message.object
            (some correlation)
          pending := Function.update s.pending message.object (some pending)
          pendingByRole := Function.update s.pendingByRole record.role
            (s.pendingByRole record.role ++ [pending])
          created := s.created + 1 },
        [.started
          { eventId
            groupId
            role := record.role
            correlation
            blocks := if record.role = .user then userBlocks rules record.content else [] }])

/-- `findPending` (lines 275–282). -/
def findPending (numberText : ℚ → String) (s : RuntimeState) (message : AgentMessage)
    (record : MessageRecord) : Option PendingMessage :=
  match (s.pending message.object).filter fun direct =>
    direct.role = record.role && (s.pendingByRole record.role).contains direct with
  | some direct => some direct
  | none =>
    match messageIdentity numberText record with
    | none => none
    | some identity =>
      if identity = "" then none
      else (s.pendingByRole record.role).find? fun candidate => candidate.identity = some identity

/-- `onMessageEnd` (lines 215–224), which queues the callback. -/
def onMessageEnd (numberText : ℚ → String) (s : RuntimeState) (message : AgentMessage) :
    RuntimeState :=
  match message.record with
  | none => s
  | some record =>
    match s.findPending numberText message record with
    | none => s
    | some pending =>
      { s with
        pending := Function.update (Function.update s.pending pending.message none)
          message.object none
        pendingByRole := Function.update s.pendingByRole pending.role
          ((s.pendingByRole pending.role).filter fun candidate => candidate ≠ pending)
        callbacks := s.callbacks ++ [pending] }

/-- `publish` (lines 289–293). -/
def publish (s : RuntimeState) (event : FormalEvent) (correlation : Correlation) :
    RuntimeState × List RuntimeCall :=
  if s.published.any fun existing => existing.eventId = event.eventId then (s, [])
  else ({ s with published := s.published ++ [event] }, [.published event correlation])

end RuntimeState

/-- The event that the callback of a message makes (lines 225–235); none where there is no
    marker, no message or a message that the schema refuses. -/
def deferredEvent (rules : HostRules) (scope : SessionScope) (branch : List SessionEntry)
    (pending : PendingMessage) : Option FormalEvent :=
  match branch.findIdx? fun entry => entry.id = pending.marker.eventId ||
      entry.markerEventId? = some pending.marker.eventId with
  | none => none
  | some markerIndex =>
    match scanTarget pending.role (branch.drop (markerIndex + 1)) with
    | none => none
    | some (target, record) =>
      toTimelineEvent rules scope target record pending.marker pending.correlation

/-- A step of the runtime, with what it calls. -/
def runtimeStep (rules : HostRules) (numberText : ℚ → String) (scope : SessionScope)
    (s : RuntimeState) : RuntimeEvent → Option (RuntimeState × List RuntimeCall)
  | .agentStart => some (s.onAgentStart, [])
  | .agentEnd => some (s.onAgentEnd, [])
  | .messageStart message store eventId groupId entryId timestamp =>
    some (s.onMessageStart rules numberText message store eventId groupId entryId timestamp)
  | .messageEnd message => some (s.onMessageEnd numberText message, [])
  | .append entry => some ({ s with branch := s.branch ++ [entry] }, [])
  | .sessionEntry entry now =>
    -- `publishSessionEntry` (lines 142–148)
    match toSystemEvent (rules.atTime now) scope entry with
    | none => some (s, [])
    | some event => some (s.publish event ⟨none, none, none, .unknown, .unknown, none⟩)
  | .callback now =>
    match s.callbacks with
    | [] => none
    | pending :: callbacks =>
      let s := { s with callbacks := callbacks }
      match deferredEvent (rules.atTime now) scope s.branch pending with
      | none => some (s, [])
      | some event => some (s.publish event pending.correlation)

/-! ## Pending messages and their markers -/

/-- The message has been announced: its marker is in the branch, and it has been built of
    its role and its correlation. -/
structure Announced (branch : List SessionEntry) (pending : PendingMessage) : Prop where
  entry : ∃ entry ∈ branch, entry.marker? = some pending.marker
  built : ∃ groupId, buildMarker pending.role pending.marker.eventId groupId pending.correlation =
    some pending.marker

/-- Every message that is pending or whose callback is queued has been announced. -/
structure RuntimeInv (s : RuntimeState) : Prop where
  pending : ∀ role, ∀ p ∈ s.pendingByRole role, Announced s.branch p
  callbacks : ∀ p ∈ s.callbacks, Announced s.branch p

theorem Announced.append {branch : List SessionEntry} {pending : PendingMessage}
    (h : Announced branch pending) (more : List SessionEntry) :
    Announced (branch ++ more) pending := by
  obtain ⟨entry, hentry, hmarker⟩ := h.entry
  exact ⟨⟨entry, List.mem_append_left _ hentry, hmarker⟩, h.built⟩

theorem buildMarker_eq_some {role : MessageRole} {eventId groupId : String}
    {correlation : Correlation} {marker : Marker}
    (h : buildMarker role eventId groupId correlation = some marker) :
    marker.eventId = eventId ∧ marker.valid = true ∧ roleForMarker marker = role := by
  unfold buildMarker at h
  dsimp only at h
  split_ifs at h with hvalid
  cases h
  cases role <;> exact ⟨rfl, hvalid, rfl⟩

theorem marker?_markerOf {entryId timestamp : String} {marker : Marker}
    (h : marker.valid = true) :
    (RuntimeState.markerOf entryId timestamp marker).marker? = some marker := by
  show (if timelineMarker = timelineMarker then parseMarker marker.data else none) = some marker
  rw [if_pos rfl, parseMarker_data h]

theorem findPending_mem {numberText : ℚ → String} {s : RuntimeState} {message : AgentMessage}
    {record : MessageRecord} {pending : PendingMessage}
    (h : s.findPending numberText message record = some pending) :
    pending ∈ s.pendingByRole record.role := by
  unfold RuntimeState.findPending at h
  cases hdirect : (s.pending message.object).filter fun direct =>
      direct.role = record.role && (s.pendingByRole record.role).contains direct with
  | some direct =>
    rw [hdirect] at h
    cases h
    obtain ⟨-, hkept⟩ := Option.filter_eq_some_iff.mp hdirect
    rw [Bool.and_eq_true, List.contains_iff_mem] at hkept
    exact hkept.2
  | none =>
    rw [hdirect] at h
    dsimp only at h
    cases hidentity : messageIdentity numberText record with
    | none => rw [hidentity] at h; cases h
    | some identity =>
      rw [hidentity] at h
      dsimp only at h
      split_ifs at h
      exact List.mem_of_find?_eq_some h

section Invariant

variable {rules : HostRules} {numberText : ℚ → String} {scope : SessionScope} {s : RuntimeState}

theorem runtimeInv_attached (branch : List SessionEntry) : RuntimeInv (.attached branch) := by
  refine ⟨?_, ?_⟩
  · intro role p hp
    cases hp
  · intro p hp
    cases hp

theorem RuntimeInv.onMessageStart (h : RuntimeInv s) (message : AgentMessage)
    (store : Option Correlation) (eventId groupId entryId timestamp : String) :
    RuntimeInv (s.onMessageStart rules numberText message store eventId groupId entryId
      timestamp).1 := by
  unfold RuntimeState.onMessageStart
  cases hrecord : message.record with
  | none => exact h
  | some record =>
    dsimp only
    have hactive : RuntimeInv (if s.active then s else s.onAgentStart) := by
      split_ifs
      · exact h
      · exact ⟨h.pending, h.callbacks⟩
    generalize (if s.active then s else s.onAgentStart) = started at hactive
    cases hmarker : buildMarker record.role eventId (started.activeGroupId.getD groupId)
        (started.correlationFor message store) with
    | none => exact ⟨hactive.pending, hactive.callbacks⟩
    | some marker =>
      obtain ⟨hid, hvalid, -⟩ := buildMarker_eq_some hmarker
      refine ⟨?_, fun p hp => (hactive.callbacks p hp).append _⟩
      intro role p hp
      dsimp only at hp ⊢
      rw [Function.update_apply] at hp
      split_ifs at hp with hrole
      · rcases List.mem_append.mp hp with hp | hp
        · exact (hactive.pending record.role p hp).append _
        · rw [List.mem_singleton] at hp
          subst hp
          refine ⟨⟨_, List.mem_append_right _ (List.mem_singleton_self _),
            marker?_markerOf hvalid⟩, started.activeGroupId.getD groupId, ?_⟩
          dsimp only
          rw [hid, hmarker]
      · exact (hactive.pending role p hp).append _

theorem RuntimeInv.onMessageEnd (h : RuntimeInv s) (message : AgentMessage) :
    RuntimeInv (s.onMessageEnd numberText message) := by
  unfold RuntimeState.onMessageEnd
  cases hrecord : message.record with
  | none => exact h
  | some record =>
    dsimp only
    cases hfound : s.findPending numberText message record with
    | none => exact h
    | some pending =>
      have hpending := h.pending record.role pending (findPending_mem hfound)
      refine ⟨?_, ?_⟩
      · intro role p hp
        dsimp only at hp ⊢
        rw [Function.update_apply] at hp
        split_ifs at hp
        · exact h.pending pending.role p (List.mem_of_mem_filter hp)
        · exact h.pending role p hp
      · intro p hp
        rcases List.mem_append.mp hp with hp | hp
        · exact h.callbacks p hp
        · rw [List.mem_singleton] at hp
          exact hp ▸ hpending

theorem RuntimeInv.publish (h : RuntimeInv s) (event : FormalEvent) (correlation : Correlation) :
    RuntimeInv (s.publish event correlation).1 := by
  unfold RuntimeState.publish
  split_ifs
  · exact h
  · exact ⟨h.pending, h.callbacks⟩

theorem RuntimeInv.step (h : RuntimeInv s) {event : RuntimeEvent}
    {next : RuntimeState × List RuntimeCall}
    (hstep : runtimeStep rules numberText scope s event = some next) : RuntimeInv next.1 := by
  cases event with
  | agentStart =>
    cases hstep
    exact ⟨h.pending, h.callbacks⟩
  | agentEnd =>
    cases hstep
    refine ⟨?_, h.callbacks⟩
    intro role p hp
    cases hp
  | messageStart message store eventId groupId entryId timestamp =>
    cases hstep
    exact h.onMessageStart message store eventId groupId entryId timestamp
  | messageEnd message =>
    cases hstep
    exact h.onMessageEnd message
  | append entry =>
    cases hstep
    exact ⟨fun role p hp => (h.pending role p hp).append _,
      fun p hp => (h.callbacks p hp).append _⟩
  | sessionEntry entry now =>
    unfold runtimeStep at hstep
    dsimp only at hstep
    cases hevent : toSystemEvent (rules.atTime now) scope entry with
    | none =>
      rw [hevent] at hstep
      cases hstep
      exact h
    | some event =>
      rw [hevent] at hstep
      cases hstep
      exact h.publish event _
  | callback now =>
    unfold runtimeStep at hstep
    cases hcallbacks : s.callbacks with
    | nil => rw [hcallbacks] at hstep; cases hstep
    | cons pending callbacks =>
      rw [hcallbacks] at hstep
      dsimp only at hstep
      have hrest : RuntimeInv { s with callbacks := callbacks } :=
        ⟨h.pending, fun p hp => h.callbacks p (hcallbacks ▸ List.mem_cons_of_mem _ hp)⟩
      cases hevent : deferredEvent (rules.atTime now) scope s.branch pending with
      | none =>
        rw [hevent] at hstep
        cases hstep
        exact hrest
      | some event =>
        rw [hevent] at hstep
        cases hstep
        exact hrest.publish event _

/-- Every run keeps the invariant. -/
theorem RuntimeInv.run {log log' : List RuntimeCall} {s' : RuntimeState}
    {events : List RuntimeEvent} (h : RuntimeInv s)
    (hrun : Lib.run (logged (runtimeStep rules numberText scope)) (s, log) events =
      some (s', log')) : RuntimeInv s' := by
  have hinv := @invariant_run _ _ (logged (runtimeStep rules numberText scope))
    (fun t => RuntimeInv t.1) (fun t event t' ht hstep => by
      obtain ⟨happened, hmove, -⟩ := logged_eq_some.mp hstep
      exact @RuntimeInv.step _ _ _ t.1 ht event (t'.1, happened) hmove) (s, log) (s', log') events h hrun
  exact hinv

end Invariant

/-! ## The message of a marker -/

section Messages

variable {rules : HostRules} {scope : SessionScope} {branch more : List SessionEntry}
  {pending : PendingMessage}

theorem exists_split {entry : SessionEntry} (h : entry ∈ branch) :
    ∃ before after, branch = before ++ entry :: after := List.append_of_mem h

/-- The callback finds the marker of its message, and looks behind it. -/
theorem deferredEvent_eq {before after : List SessionEntry} {entry : SessionEntry}
    (hids : (timelineIds (before ++ entry :: after)).Nodup)
    (hmarker : entry.marker? = some pending.marker) :
    deferredEvent rules scope (before ++ entry :: after) pending =
      (scanTarget pending.role after).bind fun target =>
        toTimelineEvent rules scope target.1 target.2 pending.marker pending.correlation := by
  have hindex : (before ++ entry :: after).findIdx? (fun e => e.id = pending.marker.eventId ||
      e.markerEventId? = some pending.marker.eventId) = some before.length := by
    have hat : (before ++ entry :: after)[before.length]? = some entry := by simp
    obtain ⟨hlt, hget⟩ := List.getElem?_eq_some_iff.mp hat
    refine List.findIdx?_eq_some_iff_getElem.mpr ⟨hlt, ?_, ?_⟩
    · rw [hget, markerEventId?_of_marker? hmarker]
      simp
    · intro j hj hfound
      have hjlt : j < (before ++ entry :: after).length := Nat.lt_trans hj hlt
      have hj' := List.getElem?_eq_getElem hjlt
      generalize (before ++ entry :: after)[j] = other at hfound hj'
      have hid : pending.marker.eventId ∈ other.branchEntry.eventIds := by
        rw [Bool.or_eq_true, decide_eq_true_eq, decide_eq_true_eq] at hfound
        rcases hfound with hfound | hfound
        · rw [← hfound]
          exact List.mem_cons_self
        · simp [BranchEntry.eventIds, SessionEntry.branchEntry, hfound]
      exact absurd (position_unique hids hj' hat hid (mem_eventIds_of_marker? hmarker))
        (Nat.ne_of_lt hj)
  have hdrop : (before ++ entry :: after).drop (before.length + 1) = after := by
    rw [← List.drop_drop, List.drop_left, List.drop_succ_cons, List.drop_zero]
  unfold deferredEvent
  rw [hindex]
  dsimp only
  rw [hdrop]
  cases scanTarget pending.role after <;> rfl

/-- What an event says of its sender is in the marker as it is in the correlation. -/
theorem messageBody_correlation {record : MessageRecord} {groupId : String}
    (hbuilt : buildMarker pending.role pending.marker.eventId groupId pending.correlation =
      some pending.marker) (hrole : record.role = pending.role) :
    messageBody rules record pending.marker (correlationFromMarker pending.marker) =
      messageBody rules record pending.marker pending.correlation := by
  unfold messageBody
  cases hrecord : record.role with
  | user =>
    rw [← hrole, hrecord] at hbuilt
    unfold buildMarker at hbuilt
    dsimp only at hbuilt
    split_ifs at hbuilt
    rw [← Option.some.inj hbuilt]
    rfl
  | assistant => rfl
  | toolResult => rfl

/-- A deferred event is the event of the message that its marker claims. -/
theorem exists_claimed_of_deferredEvent {event : FormalEvent} (h : Announced branch pending)
    (hids : (timelineIds branch).Nodup)
    (hevent : deferredEvent rules scope branch pending = some event) :
    ∃ found ∈ claimed branch, found.2.2 = pending.marker ∧
      messageEvent rules scope found = some event := by
  obtain ⟨entry, hentry, hmarker⟩ := h.entry
  obtain ⟨groupId, hbuilt⟩ := h.built
  obtain ⟨before, after, rfl⟩ := List.append_of_mem hentry
  rw [deferredEvent_eq hids hmarker, Option.bind_eq_some_iff] at hevent
  obtain ⟨⟨target, record⟩, hscan, hevent⟩ := hevent
  have hrole := (buildMarker_eq_some hbuilt).2.2
  refine ⟨(target, record, pending.marker), ?_, rfl, ?_⟩
  · exact mem_claimed_iff.mpr ⟨before, entry, after, rfl, hmarker, by rw [hrole]; exact hscan⟩
  · unfold messageEvent
    rw [← hevent]
    unfold toTimelineEvent
    rw [messageBody_correlation hbuilt (scanTarget_eq_some hscan).2.2]

theorem marker?_eq_none_of_isMessage {entry : SessionEntry} (h : entry.isMessage = true) :
    entry.marker? = none := by
  unfold SessionEntry.isMessage at h
  unfold SessionEntry.marker?
  cases hcontent : entry.content with
  | message record => rfl
  | custom customType data => rw [hcontent] at h; cases h
  | compaction => rfl
  | branchSummary => rfl
  | other => rfl

theorem toSystemEvent_of_marker? {entry : SessionEntry} {marker : Marker}
    (h : entry.marker? = some marker) : toSystemEvent rules scope entry = none := by
  unfold SessionEntry.marker? at h
  unfold toSystemEvent systemBody
  cases hcontent : entry.content with
  | custom customType data =>
    rw [hcontent] at h
    dsimp only at h ⊢
    split_ifs at h with hmarker
    rw [if_pos hmarker]
    rfl
  | message record => rfl
  | compaction => rw [hcontent] at h; cases h
  | branchSummary => rw [hcontent] at h; cases h
  | other => rfl

/-- No other message has an event of the id of a claimed one, -/
theorem eq_of_eventId (hids : (timelineIds branch).Nodup)
    {found found' : SessionEntry × MessageRecord × Marker} (hfound : found ∈ claimed branch)
    (hfound' : found' ∈ recoveredMessages scope.sessionId branch)
    (heq : found'.2.2.eventId = found.2.2.eventId) : found' = found := by
  obtain ⟨before, entry, after, hsplit, hmarker, hscan⟩ := mem_claimed_iff.mp hfound
  have hat : branch[before.length]? = some entry := by rw [hsplit]; simp
  rcases List.mem_append.mp hfound' with hfound' | hfound'
  · obtain ⟨before', entry', after', hsplit', hmarker', hscan'⟩ := mem_claimed_iff.mp hfound'
    have hat' : branch[before'.length]? = some entry' := by rw [hsplit']; simp
    have hlength := position_unique hids hat' hat (heq ▸ mem_eventIds_of_marker? hmarker')
      (mem_eventIds_of_marker? hmarker)
    obtain ⟨rfl, htail⟩ := List.append_inj (hsplit'.symm.trans hsplit) hlength
    obtain ⟨rfl, rfl⟩ := List.cons_eq_cons.mp htail
    have hsame : found'.2.2 = found.2.2 := Option.some.inj (hmarker'.symm.trans hmarker)
    rw [hsame, hscan] at hscan'
    obtain ⟨target, record, marker⟩ := found
    obtain ⟨target', record', marker'⟩ := found'
    cases hscan'
    cases hsame
    rfl
  · -- the message of a legacy event would be the entry of the marker
    exfalso
    obtain ⟨message, hmessage, hmade⟩ := List.mem_filterMap.mp hfound'
    cases hrecord : message.record? with
    | none => rw [hrecord] at hmade; cases hmade
    | some record =>
      rw [hrecord] at hmade
      dsimp only at hmade
      split_ifs at hmade
      cases hmade
      obtain ⟨i, hi, hget⟩ := List.mem_iff_getElem.mp hmessage
      have hisMessage := (isMessage_of_record? hrecord).1
      rw [legacyMarker_eventId] at heq
      have hid : found.2.2.eventId ∈ message.branchEntry.eventIds := by
        rw [← heq]
        simp [BranchEntry.eventIds, SessionEntry.branchEntry, hisMessage]
      have hat' := List.getElem?_eq_some_iff.mpr ⟨hi, hget⟩
      obtain rfl := position_unique hids hat' hat hid (mem_eventIds_of_marker? hmarker)
      cases hat'.symm.trans hat
      rw [marker?_eq_none_of_isMessage hisMessage] at hmarker
      cases hmarker

/-- and no system event has. -/
theorem eventId_ne_of_toSystemEvent (hids : (timelineIds branch).Nodup)
    {found : SessionEntry × MessageRecord × Marker} (hfound : found ∈ claimed branch)
    {entry : SessionEntry} {event : FormalEvent} (hentry : entry ∈ branch)
    (hevent : toSystemEvent rules scope entry = some event) :
    event.eventId ≠ found.2.2.eventId := by
  intro heq
  obtain ⟨before, marker, after, hsplit, hmarker, -⟩ := mem_claimed_iff.mp hfound
  have hat : branch[before.length]? = some marker := by rw [hsplit]; simp
  obtain ⟨i, hi, hget⟩ := List.mem_iff_getElem.mp hentry
  have hat' := List.getElem?_eq_some_iff.mpr ⟨hi, hget⟩
  have hid : found.2.2.eventId ∈ entry.branchEntry.eventIds := by
    rw [← heq, (toSystemEvent_eq_some hevent).1]
    exact List.mem_cons_self
  obtain rfl := position_unique hids hat' hat hid (mem_eventIds_of_marker? hmarker)
  cases hat'.symm.trans hat
  rw [toSystemEvent_of_marker? hmarker] at hevent
  cases hevent

/-- What recovery returns under the id of a claimed message is the event of that message. -/
theorem mem_recover_iff (hids : (timelineIds branch).Nodup)
    {found : SessionEntry × MessageRecord × Marker} (hfound : found ∈ claimed branch)
    {recovered : List FormalEvent} (hrecover : recover rules scope branch = some recovered)
    {event : FormalEvent} (hid : event.eventId = found.2.2.eventId) :
    event ∈ recovered ↔ messageEvent rules scope found = some event := by
  obtain ⟨messages, hmessages, rfl⟩ := Option.map_eq_some_iff.mp hrecover
  constructor
  · intro hmem
    rcases List.mem_append.mp hmem with hmem | hmem
    · obtain ⟨found', hfound', hevent⟩ := exists_of_mem_mapM hmessages hmem
      have heq : found'.2.2.eventId = found.2.2.eventId := by
        rw [← (messageEvent_eq_some hevent).1, hid]
      rw [← eq_of_eventId hids hfound hfound' heq]
      exact hevent
    · obtain ⟨entry, hentry, hevent⟩ := List.mem_filterMap.mp hmem
      exact absurd hid (eventId_ne_of_toSystemEvent hids hfound hentry hevent)
  · intro hevent
    refine List.mem_append_left _ ?_
    exact mem_of_mapM hmessages (List.mem_append_left _ hfound) hevent

end Messages

/-! ## Times -/

/-- The time of a message's event does not depend on the clock: the timestamp of its entry
    or its own one is a time from 1970 on. -/
def TimeKnown (rules : HostRules) (found : SessionEntry × MessageRecord × Marker) : Prop :=
  ∃ t, 0 ≤ t ∧ (rules.dateParse found.1.timestamp = some t ∨ found.2.1.timestamp = some t)

section Times

variable {rules : HostRules} {scope : SessionScope} {found : SessionEntry × MessageRecord × Marker}

theorem eventTimestamp_of_timeKnown (h : TimeKnown rules found) (now now' : ℕ) :
    eventTimestamp (rules.atTime now) found.1.timestamp found.2.1.timestamp =
      eventTimestamp (rules.atTime now') found.1.timestamp found.2.1.timestamp := by
  have hparse : ∀ now, (rules.atTime now).dateParse = rules.dateParse := fun _ => rfl
  unfold eventTimestamp
  rw [hparse, hparse]
  cases hentry : (rules.dateParse found.1.timestamp).filter fun t => 0 ≤ t with
  | some t => rfl
  | none =>
    dsimp only
    obtain ⟨t, ht, hdate | hown⟩ := h
    · rw [hdate, Option.filter_some, if_pos (decide_eq_true ht)] at hentry
      cases hentry
    · rw [hown, Option.filter_some, if_pos (decide_eq_true ht)]
      rfl

theorem eventTimestamp_of_not_timeKnown (h : ¬ TimeKnown rules found) (now : ℕ) :
    eventTimestamp (rules.atTime now) found.1.timestamp found.2.1.timestamp = now := by
  have hparse : (rules.atTime now).dateParse = rules.dateParse := rfl
  have hentry : (rules.dateParse found.1.timestamp).filter (fun t => 0 ≤ t) = none := by
    cases hdate : rules.dateParse found.1.timestamp with
    | none => rfl
    | some t =>
      rw [Option.filter_some, if_neg]
      intro ht
      exact h ⟨t, of_decide_eq_true ht, .inl hdate⟩
  have hown : found.2.1.timestamp.filter (fun t => 0 ≤ t) = none := by
    cases hmessage : found.2.1.timestamp with
    | none => rfl
    | some t =>
      rw [Option.filter_some, if_neg]
      intro ht
      exact h ⟨t, of_decide_eq_true ht, .inr hmessage⟩
  unfold eventTimestamp
  rw [hparse, hentry, hown]
  rfl

theorem timestamp_of_messageEvent {event : FormalEvent}
    (h : messageEvent rules scope found = some event) :
    event.timestamp = eventTimestamp rules found.1.timestamp found.2.1.timestamp := by
  obtain ⟨rfl, -⟩ := valid_of_parseEvent h
  rfl

/-- A message has the same event at all times, when its time is known. -/
theorem messageEvent_of_timeKnown (h : TimeKnown rules found) (now now' : ℕ) :
    messageEvent (rules.atTime now) scope found = messageEvent (rules.atTime now') scope found := by
  unfold messageEvent toTimelineEvent
  rw [eventTimestamp_of_timeKnown h now now']
  rfl

end Times

/-! ## Live events and recovered events -/

/-- Recovery returns the event, and no other one with its id. -/
def Recovers (rules : HostRules) (scope : SessionScope) (branch : List SessionEntry)
    (event : FormalEvent) : Prop :=
  ∃ recovered, recover rules scope branch = some recovered ∧ event ∈ recovered ∧
    ∀ e ∈ recovered, e.eventId = event.eventId → e = event

section Publication

variable {rules : HostRules} {numberText : ℚ → String} {scope : SessionScope}
  {branch more : List SessionEntry}

/-- The event of a claimed message is recovered at all times exactly when recovery does not
    throw and its time is known. -/
theorem recovers_iff (hids : (timelineIds (branch ++ more)).Nodup)
    {found : SessionEntry × MessageRecord × Marker} (hfound : found ∈ claimed branch) {now : ℕ}
    {event : FormalEvent} (hevent : messageEvent (rules.atTime now) scope found = some event) :
    (∀ later, Recovers (rules.atTime later) scope (branch ++ more) event) ↔
      (∀ m ∈ recoveredMessages scope.sessionId (branch ++ more), MessageFits rules scope m) ∧
        TimeKnown rules found := by
  have hclaimed : found ∈ claimed (branch ++ more) := by
    obtain ⟨across, hsplit, -⟩ := claimed_append branch more
    rw [hsplit]
    exact List.mem_append_left _ (List.mem_append_left _ hfound)
  have hid := (messageEvent_eq_some hevent).1
  constructor
  · intro h
    refine ⟨?_, ?_⟩
    · obtain ⟨recovered, hrecover, -⟩ := h now
      exact (recover_isSome_iff (rules.atTime now) scope _).mp (by rw [hrecover]; rfl)
    · by_contra hunknown
      have hclock : ∀ later : ℕ, event.timestamp = later := by
        intro later
        obtain ⟨recovered, hrecover, hmem, -⟩ := h later
        rw [timestamp_of_messageEvent ((mem_recover_iff hids hclaimed hrecover hid).mp hmem),
          eventTimestamp_of_not_timeKnown hunknown]
      have hsame : ((0 : ℕ) : ℚ) = (1 : ℕ) := (hclock 0).symm.trans (hclock 1)
      exact absurd (Nat.cast_injective hsame) (by decide)
  · rintro ⟨hfits, hknown⟩ later
    have hsome : (recover (rules.atTime later) scope (branch ++ more)).isSome = true :=
      (recover_isSome_iff (rules.atTime later) scope _).mpr hfits
    obtain ⟨recovered, hrecover⟩ := Option.isSome_iff_exists.mp hsome
    have hlater := (messageEvent_of_timeKnown hknown later now).trans hevent
    refine ⟨recovered, hrecover, (mem_recover_iff hids hclaimed hrecover hid).mpr hlater, ?_⟩
    intro e he heq
    have hother := (mem_recover_iff hids hclaimed hrecover (heq.trans hid)).mp he
    exact Option.some.inj (hother.symm.trans hlater)

/-- What a callback publishes is the event that it makes of its message. -/
theorem callback_published {s s' : RuntimeState} {now : ℕ} {event : FormalEvent}
    {correlation : Correlation} (hstep : runtimeStep rules numberText scope s (.callback now) =
      some (s', [.published event correlation])) :
    ∃ pending ∈ s.callbacks, deferredEvent (rules.atTime now) scope s.branch pending =
      some event := by
  unfold runtimeStep at hstep
  dsimp only at hstep
  cases hcallbacks : s.callbacks with
  | nil => rw [hcallbacks] at hstep; cases hstep
  | cons pending callbacks =>
    rw [hcallbacks] at hstep
    dsimp only at hstep
    refine ⟨pending, List.mem_cons_self, ?_⟩
    cases hevent : deferredEvent (rules.atTime now) scope s.branch pending with
    | none =>
      rw [hevent] at hstep
      cases hstep
    | some made =>
      rw [hevent] at hstep
      unfold RuntimeState.publish at hstep
      dsimp only at hstep
      split_ifs at hstep
      · cases hstep
      · cases hstep
        rfl

end Publication

/-- In every run of a session, an event that a deferred callback publishes is what recovery
    returns for its id at all times, on the branch at that moment and on every branch that
    extends it, exactly when the messages of that branch fit the schema and the time of the
    event does not depend on the clock. -/
theorem published_eq_recovered (rules : HostRules) (numberText : ℚ → String)
    (scope : SessionScope) (branch : List SessionEntry) (events : List RuntimeEvent)
    (s s' : RuntimeState) (log : List RuntimeCall) (now : ℕ) (event : FormalEvent)
    (correlation : Correlation) (more : List SessionEntry)
    (hrun : run (logged (runtimeStep rules numberText scope)) (.attached branch, []) events =
      some (s, log))
    (hstep : runtimeStep rules numberText scope s (.callback now) =
      some (s', [.published event correlation]))
    (hids : (timelineIds (s.branch ++ more)).Nodup) :
    (∀ later, Recovers (rules.atTime later) scope (s.branch ++ more) event) ↔
      (∀ found ∈ recoveredMessages scope.sessionId (s.branch ++ more),
        MessageFits rules scope found) ∧
      ∀ found ∈ claimed s.branch, found.2.2.eventId = event.eventId → TimeKnown rules found := by
  have hinv := (runtimeInv_attached branch).run hrun
  obtain ⟨pending, hpending, hevent⟩ := callback_published hstep
  have hids' : (timelineIds s.branch).Nodup := by
    rw [timelineIds, List.flatMap_append, List.nodup_append] at hids
    exact hids.1
  obtain ⟨found, hfound, -, hmessage⟩ :=
    exists_claimed_of_deferredEvent (hinv.callbacks pending hpending) hids' hevent
  rw [recovers_iff hids hfound hmessage]
  refine and_congr_right fun _ => ⟨?_, ?_⟩
  · intro hknown other hother heq
    rw [(messageEvent_eq_some hmessage).1] at heq
    have hsame := @eq_of_eventId scope s.branch hids' found other hfound
      (List.mem_append_left _ hother) heq
    rwa [hsame]
  · intro hknown
    exact hknown found hfound (messageEvent_eq_some hmessage).1.symm

/-! ## A message from its start to its end -/

/-- A host that parses every date as the start of 1970. -/
def datedHost : HostRules := { stoppedHost with dateParse := fun _ => some stoppedHost.now }

/-- A text starts, ends and is appended. -/
def oneText : List RuntimeEvent :=
  [.messageStart ⟨0, some { textRecord with timestamp := some 0 }⟩ none "event" "group" "marker" "",
    .messageEnd ⟨0, some { textRecord with timestamp := some 0 }⟩, .append (userEntry "message")]

def oneTextMarker : Marker := .user "event" "group" none .unknown .unknown none

def oneTextPending : PendingMessage :=
  ⟨0, 0, .user, oneTextMarker, ⟨none, none, none, .unknown, .unknown, none⟩, some "user:0:::"⟩

def oneTextBranch : List SessionEntry :=
  [RuntimeState.markerOf "marker" "" oneTextMarker, userEntry "message"]

theorem run_oneText : ∃ (s : RuntimeState) (log : List RuntimeCall),
    run (logged (runtimeStep datedHost (fun _ => "0") ⟨"session", "session"⟩))
      (.attached [], []) oneText = some (s, log) ∧
    s.branch = oneTextBranch ∧ s.callbacks = [oneTextPending] ∧ s.published = [] := by
  refine ⟨_, _, rfl, rfl, rfl, rfl⟩

theorem callback_oneText {s : RuntimeState} (hbranch : s.branch = oneTextBranch)
    (hcallbacks : s.callbacks = [oneTextPending]) (hpublished : s.published = []) :
    ∃ s' event, runtimeStep datedHost (fun _ => "0") ⟨"session", "session"⟩ s (.callback 0) =
      some (s', [.published event oneTextPending.correlation]) := by
  have hsome : (deferredEvent (datedHost.atTime 0) ⟨"session", "session"⟩ oneTextBranch
      oneTextPending).isSome = true := by decide
  obtain ⟨event, hevent⟩ := Option.isSome_iff_exists.mp hsome
  refine ⟨{ s with callbacks := [], published := [event] }, event, ?_⟩
  unfold runtimeStep
  dsimp only
  rw [hcallbacks]
  dsimp only
  rw [hbranch, hevent]
  unfold RuntimeState.publish
  dsimp only
  rw [hpublished]
  rfl

/-- The event of the text is recovered at all times, also when another text follows. -/
theorem oneText_recovered : ∃ (s s' : RuntimeState) (log : List RuntimeCall)
    (event : FormalEvent) (correlation : Correlation),
    run (logged (runtimeStep datedHost (fun _ => "0") ⟨"session", "session"⟩))
      (.attached [], []) oneText = some (s, log) ∧
    runtimeStep datedHost (fun _ => "0") ⟨"session", "session"⟩ s (.callback 0) =
      some (s', [.published event correlation]) ∧
    ∀ later, Recovers (datedHost.atTime later) ⟨"session", "session"⟩
      (s.branch ++ [userEntry "later"]) event := by
  obtain ⟨s, log, hrun, hbranch, hcallbacks, hpublished⟩ := run_oneText
  obtain ⟨s', event, hstep⟩ := callback_oneText hbranch hcallbacks hpublished
  refine ⟨s, s', log, event, _, hrun, hstep, ?_⟩
  refine (published_eq_recovered datedHost (fun _ => "0") ⟨"session", "session"⟩ [] oneText s s' log
    0 event _ [userEntry "later"] hrun hstep (by rw [hbranch]; decide)).mpr ⟨?_, ?_⟩
  · rw [← recover_isSome_iff, hbranch]
    decide
  · intro found _ _
    exact ⟨0, le_refl 0, .inl rfl⟩

/-- When the result of a tool with an empty name follows, recovery does not return the event
    of the text that has been published. -/
theorem published_lost_to_nameless_tool : ∃ (s s' : RuntimeState) (log : List RuntimeCall)
    (event : FormalEvent) (correlation : Correlation),
    run (logged (runtimeStep datedHost (fun _ => "0") ⟨"session", "session"⟩))
      (.attached [], []) oneText = some (s, log) ∧
    runtimeStep datedHost (fun _ => "0") ⟨"session", "session"⟩ s (.callback 0) =
      some (s', [.published event correlation]) ∧
    (timelineIds (s.branch ++ namelessTool.branch)).Nodup ∧
    (∀ entry ∈ s.branch ++ namelessTool.branch, datedHost.dateParse entry.timestamp = some 0) ∧
    recover (datedHost.atTime 0) ⟨"session", "session"⟩ (s.branch ++ namelessTool.branch) = none ∧
    ¬ Recovers (datedHost.atTime 0) ⟨"session", "session"⟩ (s.branch ++ namelessTool.branch)
      event := by
  obtain ⟨s, log, hrun, hbranch, hcallbacks, hpublished⟩ := run_oneText
  obtain ⟨s', event, hstep⟩ := callback_oneText hbranch hcallbacks hpublished
  have hrecover : recover (datedHost.atTime 0) ⟨"session", "session"⟩
      (s.branch ++ namelessTool.branch) = none := by
    rw [hbranch, ← Option.not_isSome_iff_eq_none]
    decide
  refine ⟨s, s', log, event, _, hrun, hstep, by rw [hbranch]; decide, fun _ _ => rfl, hrecover, ?_⟩
  rintro ⟨recovered, hreturned, -⟩
  rw [hrecover] at hreturned
  cases hreturned

end RemotePi.Timeline
