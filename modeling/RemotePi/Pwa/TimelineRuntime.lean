import Mathlib.Data.Rat.Defs
import RemotePi.Lib.Keyed
import RemotePi.Lib.Trim
import RemotePi.Protocol.HistoryFrames

/-!
# The timeline of the browser

Model of `TimelineRuntime` (`pwa/src/lib/pwa/timeline-runtime.ts`): the events of
the current scope, the partial output, and the sent messages that are pending or
of unknown delivery.

Every operation of the class returns what `change` gives, and `change` hands out
the frames queued for the extension; an operation that calls another one and drops
its result drops these frames too.

Results:
* `events_reconcileUserMessage`: reconciling messages leaves the events alone.
* `get?_commitEvents`: committing events keeps the first one of each id.
* `get?_replaceHistory`: so a replaced history holds exactly its own events.
-/

namespace RemotePi.Pwa

open RemotePi.Lib RemotePi.Protocol

/-! ## Data -/

/-- A timeline event that has passed its schema (`protocol-v2/schema.ts`, lines
    82–183), with its JSON text in UTF-8. A user event's `message_id` is its `event_id`
    (line 104). -/
structure TimelineEvent where
  eventId : String
  sessionId : String
  historyGeneration : String
  timestamp : ℚ
  kind : EventKind
  groupId : Option String
  json : List Byte
deriving DecidableEq

/-- `TimelineScope` (lines 10–18). -/
structure TimelineScope where
  deviceId : String
  endpointId : String
  runtimeInstanceId : String
  sessionId : String
  historyGeneration : String
  selfSenderRef : String
  channelId : String
deriving DecidableEq, Repr

/-- `PendingDelivery` (line 20). -/
inductive PendingDelivery where
  | pending
  | received
  | accepted
  | committed
  | unknownDelivery
deriving DecidableEq, Repr

structure WireImage where
  data : String
  mime : String
deriving DecidableEq, Repr

/-- `TimelinePending` (lines 21–32); its `id` is made from the client request id. -/
structure TimelinePending where
  clientRequestId : String
  requestId : String
  text : String
  images : Option (List WireImage)
  cancelable : Option Bool
  createdAt : ℚ
  delivery : PendingDelivery
  messageId : Option String
deriving DecidableEq, Repr

inductive PartialKind where
  | assistant
  | thinking
  | tool (toolCallId tool : String)
deriving DecidableEq, Repr

/-- `assistantBlockSchema` (lines 48–80): a text or a thinking block. -/
structure AssistantBlock where
  thinking : Bool
  text : String
  truncated : Bool
deriving DecidableEq, Repr

/-- A `timeline_partial` (`protocol-v2/schema.ts`, lines 187–219); `args` is kept as
    its JSON text, `bytes` is the length of the whole text. -/
structure TimelinePartial where
  sessionId : String
  historyGeneration : String
  groupId : String
  partialId : String
  running : Bool
  kind : PartialKind
  args : Option String
  blocks : Option (List AssistantBlock)
  delta : Option String
  bytes : ℕ
deriving DecidableEq, Repr

structure TimelinePartialView where
  shown : TimelinePartial
  createdAt : ℚ
deriving DecidableEq, Repr

/-- `queuedMessageItemSchema`. -/
structure QueuedMessageItem where
  id : String
  text : String
  images : Option (List WireImage)
  senderRef : Option String
  editable : Bool
  createdAt : ℚ
deriving DecidableEq, Repr

/-- The `user_message_observed` frames (line 277), with the random `id` left out. -/
structure ObservedFrame where
  channelId : String
  historyGeneration : String
  clientRequestId : String
  messageId : String
deriving DecidableEq, Repr

/-- The statuses of `user_message_status`. -/
inductive UserMessageStatus where
  | received
  | accepted (messageId : Option String)
  | committed (messageId : String)
  | unknownDelivery
deriving DecidableEq, Repr

/-- The server frames that `receive` reads. -/
inductive TimelineFrame where
  | reset (sessionId historyGeneration : String)
  | queuedMessageState (sessionId historyGeneration snapshotId : String) (chunkIndex : ℕ)
      (final : Bool) (items : List QueuedMessageItem)
  | protocolError (inReplyTo : Option String)
  | userMessageStatus (sessionId historyGeneration clientRequestId : String)
      (status : UserMessageStatus)
  | userMessageStarted (sessionId historyGeneration inReplyTo messageId : String)
  | timelinePartial (shown : TimelinePartial)
  | timelineEvent (sessionId historyGeneration : String) (event : TimelineEvent)
  /-- Every other frame. -/
  | other
deriving DecidableEq

/-- `isMatchingScope` (lines 55–57). -/
def isMatchingScope (scope : Option TimelineScope) (sessionId historyGeneration : String) : Bool :=
  scope.any fun s => s.sessionId = sessionId && s.historyGeneration = historyGeneration

/-- `mergePartial` (lines 58–62). -/
def mergePartial (previous : Option TimelinePartial) (next : TimelinePartial) : TimelinePartial :=
  match previous with
  | none => next
  | some previous =>
    if next.blocks.isSome then next
    else
      match next.delta with
      | none => { next with delta := previous.delta }
      | some delta => { next with delta := some (previous.delta.getD "" ++ delta) }

/-! ## The state -/

/-- The fields of the class (lines 66–75). -/
structure TimelineRuntime where
  scope : Option TimelineScope
  events : OrderedMap String TimelineEvent
  partials : OrderedMap String TimelinePartialView
  pending : OrderedMap String TimelinePending
  historyEvents : List TimelineEvent
  unknown : List TimelinePending
  queuedIds : List String
  queuedSnapshotId : Option String
  queuedSnapshotItems : OrderedMap String QueuedMessageItem
  observedQueue : List ObservedFrame
deriving DecidableEq

/-- A new runtime. -/
def TimelineRuntime.new : TimelineRuntime :=
  ⟨none, .empty, .empty, .empty, [], [], [], none, .empty, []⟩

/-- `TimelineRuntimeChange` (lines 35–41). The items are shown ordered by time; here
    they stand in the order in which they are listed. -/
structure TimelineRuntimeChange where
  events : List TimelineEvent
  pending : List TimelinePending
  partials : List TimelinePartialView
  observed : List ObservedFrame
  unknown : List TimelinePending
deriving DecidableEq

namespace TimelineRuntime

/-- `change` (lines 288–292), which empties the queue of observed frames. -/
def change (r : TimelineRuntime) : TimelineRuntime × TimelineRuntimeChange :=
  ({ r with observedQueue := [] },
    ⟨r.events.values, r.pending.values ++ r.unknown, r.partials.values, r.observedQueue,
      r.unknown⟩)

/-- `clearTransient` (lines 280–287). -/
def clearTransient (r : TimelineRuntime) (movePendingToUnknown : Bool) : TimelineRuntime :=
  { r with
    partials := .empty
    queuedIds := []
    queuedSnapshotItems := .empty
    queuedSnapshotId := none
    unknown :=
      if movePendingToUnknown then
        r.unknown ++ r.pending.values.map fun p => { p with delivery := .unknownDelivery }
      else r.unknown
    pending := .empty }

/-- The comparison of `setScope` (lines 78–82). -/
def scopeChanged (r : TimelineRuntime) (scope : TimelineScope) : Bool :=
  !r.scope.any fun s => s.deviceId = scope.deviceId && s.endpointId = scope.endpointId &&
    s.runtimeInstanceId = scope.runtimeInstanceId && s.sessionId = scope.sessionId &&
    s.historyGeneration = scope.historyGeneration

/-- `setScope` (lines 77–90). -/
def setScope (r : TimelineRuntime) (scope : TimelineScope) :
    TimelineRuntime × TimelineRuntimeChange :=
  let r :=
    if r.scopeChanged scope then
      { r.clearTransient true with events := .empty, historyEvents := [] }
    else r
  change { r with scope := some scope }

/-- `invalidateScope` (lines 91–97). -/
def invalidateScope (r : TimelineRuntime) : TimelineRuntime × TimelineRuntimeChange :=
  change { r.clearTransient true with scope := none, events := .empty, historyEvents := [] }

/-- `clear` (lines 98–106). -/
def clear (r : TimelineRuntime) : TimelineRuntime × TimelineRuntimeChange :=
  change
    { r with
      scope := none
      events := .empty
      partials := .empty
      pending := .empty
      historyEvents := []
      unknown := [] }

/-- `markDisconnected` (lines 107–110). -/
def markDisconnected (r : TimelineRuntime) : TimelineRuntime × TimelineRuntimeChange :=
  change (r.clearTransient true)

/-- A `user_message` of the browser (lines 252–254). -/
structure UserMessageFrame where
  id : String
  channelId : String
  historyGeneration : String
  clientRequestId : String
  text : String
  images : Option (List WireImage)
deriving DecidableEq, Repr

def userMessageFrame (scope : TimelineScope) (requestId clientRequestId text : String)
    (images : Option (List WireImage)) : UserMessageFrame :=
  ⟨requestId, scope.channelId, scope.historyGeneration, clientRequestId, text,
    images.filter fun l => !l.isEmpty⟩

/-- `sendUser` (lines 111–119); the ids and the time are given. -/
def sendUser (r : TimelineRuntime) (text : String) (images : Option (List WireImage))
    (clientRequestId requestId : String) (now : ℚ) :
    Option (TimelineRuntime × UserMessageFrame × TimelineRuntimeChange) :=
  let given := images.getD []
  match r.scope with
  | none => none
  | some scope =>
    if 1 < given.length || (text.toList.all isWhiteSpace && given.isEmpty) then none
    else
      let pending : TimelinePending := ⟨clientRequestId, requestId, text,
        images.filter fun l => !l.isEmpty, none, now, .pending, none⟩
      let (r, c) := change { r with pending := r.pending.set clientRequestId pending }
      some (r, userMessageFrame scope requestId clientRequestId text images, c)

/-- `markUnknownDelivery` (lines 120–126). -/
def markUnknownDelivery (r : TimelineRuntime) (clientRequestId : String) :
    TimelineRuntime × TimelineRuntimeChange :=
  match r.pending.get? clientRequestId with
  | none => r.change
  | some pending =>
    change
      { r with
        pending := r.pending.erase clientRequestId
        unknown := r.unknown ++ [{ pending with delivery := .unknownDelivery }] }

/-- `retryUnknown` (lines 127–137). -/
def retryUnknown (r : TimelineRuntime) (clientRequestId requestId : String) :
    Option (TimelineRuntime × UserMessageFrame × TimelineRuntimeChange) :=
  match r.scope, r.unknown.find? fun p => p.clientRequestId = clientRequestId with
  | some scope, some previous =>
    let pending := { previous with requestId := requestId, delivery := .pending }
    let (r, c) := change
      { r with
        unknown := r.unknown.eraseP fun p => p.clientRequestId = clientRequestId
        pending := r.pending.set clientRequestId pending }
    some (r, userMessageFrame scope requestId clientRequestId pending.text pending.images, c)
  | _, _ => none

/-! ## Committing events -/

/-- One match of `reconcileUserMessage` (lines 274–278). -/
def observe (messageId : String) (r : TimelineRuntime) (clientRequestId : String) :
    TimelineRuntime :=
  { r with
    pending := r.pending.erase clientRequestId
    unknown := r.unknown.filter fun p => p.clientRequestId ≠ clientRequestId
    observedQueue :=
      match r.scope with
      | none => r.observedQueue
      | some scope => r.observedQueue ++
          [⟨scope.channelId, scope.historyGeneration, clientRequestId, messageId⟩] }

/-- `reconcileUserMessage` (lines 270–279). -/
def reconcileUserMessage (r : TimelineRuntime) (messageId : String) : TimelineRuntime :=
  if r.events.values.any fun e => e.kind = .user && e.eventId = messageId then
    let matching := (r.pending.entries ++ r.unknown.map fun p => (p.clientRequestId, p)).filter
      fun entry => entry.2.messageId = some messageId
    (matching.map Prod.fst).foldl (observe messageId) r
  else r

/-- Whether a committed event removes a partial of its group (lines 260–268). -/
def finishes (event : TimelineEvent) (shown : TimelinePartial) : Bool :=
  event.groupId = some shown.groupId &&
    match event.kind, shown.kind with
    | .tool, .tool _ _ => true
    | .assistant, .assistant | .assistant, .thinking => true
    | .providerError, .assistant | .providerError, .thinking => true
    | _, _ => false

/-- `commitParsed` (lines 255–269). Two events have one JSON text when they are equal. -/
def commitParsed (r : TimelineRuntime) (event : TimelineEvent) : TimelineRuntime :=
  if (r.events.get? event.eventId).any fun previous => previous ≠ event then r
  else
    let r := { r with events := r.events.set event.eventId event }
    let r := if event.kind = .user then r.reconcileUserMessage event.eventId else r
    { r with partials := r.partials.filter fun _ view => !finishes event view.shown }

/-- The events a scope takes; without a scope all of them (lines 235 and 245). -/
def admits (scope : Option TimelineScope) (event : TimelineEvent) : Bool :=
  scope.isNone || isMatchingScope scope event.sessionId event.historyGeneration

/-- `commit` (lines 222–228). -/
def commit (r : TimelineRuntime) (event : TimelineEvent) :
    TimelineRuntime × TimelineRuntimeChange :=
  if isMatchingScope r.scope event.sessionId event.historyGeneration then
    change (r.commitParsed event)
  else r.change

/-- The loop of `replaceHistory` and `prependHistory` over events. -/
def commitEvents (r : TimelineRuntime) (events : List TimelineEvent) : TimelineRuntime :=
  events.foldl commitParsed r

/-- `replaceHistory` (lines 229–240). -/
def replaceHistory (r : TimelineRuntime) (events : List TimelineEvent) :
    TimelineRuntime × TimelineRuntimeChange :=
  let history := events.filter (admits r.scope)
  change (commitEvents { r with historyEvents := history, events := .empty } history)

/-- `prependHistory` (lines 241–249). -/
def prependHistory (r : TimelineRuntime) (events : List TimelineEvent) :
    TimelineRuntime × TimelineRuntimeChange :=
  change (commitEvents r (events.filter (admits r.scope)))

/-! ## Receiving frames -/

/-- One item of a final queue snapshot (lines 155–166). -/
def acceptQueued (selfSenderRef : String) (r : TimelineRuntime) (item : QueuedMessageItem) :
    TimelineRuntime :=
  let cancelable := some (decide (item.senderRef = some selfSenderRef))
  match r.pending.get? item.id with
  | some existing =>
    { r with
      pending := r.pending.set item.id
        { existing with
          text := item.text
          images := item.images
          cancelable := cancelable
          delivery := .accepted } }
  | none =>
    { r with
      unknown := r.unknown.filter fun p => p.clientRequestId ≠ item.id
      pending := r.pending.set item.id
        ⟨item.id, item.id, item.text, item.images, cancelable, item.createdAt, .accepted, none⟩ }

/-- The end of a queue snapshot (lines 150–171). -/
def finishSnapshot (r : TimelineRuntime) (selfSenderRef : String) : TimelineRuntime :=
  let nextItems := r.queuedSnapshotItems.values
  let nextIds := (nextItems.map QueuedMessageItem.id).dedup
  let gone := r.queuedIds.filter fun id =>
    !nextIds.contains id && ((r.pending.get? id).bind TimelinePending.messageId).isNone
  let r := { r with pending := gone.foldl OrderedMap.erase r.pending }
  { nextItems.foldl (acceptQueued selfSenderRef) r with
    queuedIds := nextIds
    queuedSnapshotItems := .empty
    queuedSnapshotId := none }

/-- The branch of `queued_message_state` (lines 141–172). -/
def receiveQueued (r : TimelineRuntime) (scope : TimelineScope) (snapshotId : String)
    (chunkIndex : ℕ) (final : Bool) (items : List QueuedMessageItem) : TimelineRuntime :=
  let r :=
    if r.queuedSnapshotId ≠ some snapshotId ∨ chunkIndex = 0 then
      { r with queuedSnapshotId := some snapshotId, queuedSnapshotItems := .empty }
    else r
  let r := { r with
    queuedSnapshotItems := items.foldl (fun m item => m.set item.id item) r.queuedSnapshotItems }
  if final then r.finishSnapshot scope.selfSenderRef else r

/-- The pending message of a request id (lines 174 and 199). -/
def findRequest (r : TimelineRuntime) (requestId : String) : Option TimelinePending :=
  r.pending.values.find? fun p => p.requestId = requestId

/-- The branch of `user_message_status` (lines 181–196). -/
def receiveStatus (r : TimelineRuntime) (clientRequestId : String) (status : UserMessageStatus) :
    TimelineRuntime :=
  match r.pending.get? clientRequestId with
  | none => r
  | some pending =>
    let named (delivery : PendingDelivery) (messageId : String) : TimelineRuntime :=
      reconcileUserMessage
        { r with
          pending := r.pending.set clientRequestId
            { pending with delivery := delivery, messageId := some messageId } } messageId
    match status with
    | .received =>
      { r with pending := r.pending.set clientRequestId { pending with delivery := .received } }
    | .accepted none =>
      { r with pending := r.pending.set clientRequestId { pending with delivery := .accepted } }
    | .accepted (some messageId) => named .accepted messageId
    | .committed messageId => named .committed messageId
    | .unknownDelivery =>
      let r := { r with
        pending := r.pending.erase clientRequestId
        unknown := r.unknown ++ [{ pending with delivery := .unknownDelivery }] }
      match pending.messageId with
      | none => r
      | some messageId => r.reconcileUserMessage messageId

/-- The branch of `timeline_partial` (lines 207–215); a partial of more than 512 KiB is
    refused by `parseTimelinePartialV2`. -/
def receivePartial (r : TimelineRuntime) (next : TimelinePartial) (now : ℚ) : TimelineRuntime :=
  if maxHistoryChunkBytes < next.bytes then r
  else
    let previous := r.partials.get? next.partialId
    { r with
      partials := r.partials.set next.partialId
        ⟨mergePartial (previous.map TimelinePartialView.shown) next,
          (previous.map TimelinePartialView.createdAt).getD now⟩ }

/-- `receive` (lines 138–221). -/
def receive (r : TimelineRuntime) (frame : TimelineFrame) (now : ℚ) :
    TimelineRuntime × TimelineRuntimeChange :=
  match frame with
  | .reset _ _ => r.invalidateScope
  | .queuedMessageState sessionId historyGeneration snapshotId chunkIndex final items =>
    match r.scope with
    | none => r.change
    | some scope =>
      if isMatchingScope r.scope sessionId historyGeneration then
        change (r.receiveQueued scope snapshotId chunkIndex final items)
      else r.change
  | .protocolError inReplyTo =>
    match inReplyTo.bind r.findRequest with
    | none => r.change
    | some pending =>
      change
        { r with
          pending := r.pending.erase pending.clientRequestId
          unknown := r.unknown ++ [{ pending with delivery := .unknownDelivery }] }
  | .userMessageStatus sessionId historyGeneration clientRequestId status =>
    if isMatchingScope r.scope sessionId historyGeneration then
      change (r.receiveStatus clientRequestId status)
    else r.change
  | .userMessageStarted sessionId historyGeneration inReplyTo messageId =>
    if isMatchingScope r.scope sessionId historyGeneration then
      match r.findRequest inReplyTo with
      | none => r.change
      | some pending =>
        change (reconcileUserMessage
          { r with
            pending := r.pending.set pending.clientRequestId
              { pending with delivery := .accepted, messageId := some messageId } } messageId)
    else r.change
  | .timelinePartial next =>
    if isMatchingScope r.scope next.sessionId next.historyGeneration then
      change (r.receivePartial next now)
    else r.change
  | .timelineEvent sessionId historyGeneration event =>
    -- the frames that `commit` hands out are dropped with its result
    if isMatchingScope r.scope sessionId historyGeneration then change (r.commit event).1
    else r.change
  | .other => r.change

/-! ## What becomes of the events -/

section Events

variable {r : TimelineRuntime}

@[simp] theorem events_change : r.change.1.events = r.events := rfl

@[simp] theorem scope_change : r.change.1.scope = r.scope := rfl

theorem observe_foldl (messageId : String) (ids : List String) (r : TimelineRuntime) :
    (ids.foldl (observe messageId) r).events = r.events ∧
      (ids.foldl (observe messageId) r).scope = r.scope := by
  induction ids generalizing r with
  | nil => exact ⟨rfl, rfl⟩
  | cons id ids ih => exact ih (observe messageId r id)

@[simp] theorem events_reconcileUserMessage (messageId : String) :
    (r.reconcileUserMessage messageId).events = r.events := by
  unfold reconcileUserMessage
  split_ifs
  · exact (observe_foldl messageId _ r).1
  · rfl

@[simp] theorem scope_reconcileUserMessage (messageId : String) :
    (r.reconcileUserMessage messageId).scope = r.scope := by
  unfold reconcileUserMessage
  split_ifs
  · exact (observe_foldl messageId _ r).2
  · rfl

@[simp] theorem scope_commitParsed (event : TimelineEvent) :
    (r.commitParsed event).scope = r.scope := by
  unfold commitParsed
  dsimp only
  split_ifs <;> simp

/-- An event is added when none with its id is there. -/
theorem get?_commitParsed (event : TimelineEvent) (id : String) :
    (r.commitParsed event).events.get? id =
      (r.events.get? id).or (if event.eventId = id then some event else none) := by
  have hevents : (r.commitParsed event).events =
      if (r.events.get? event.eventId).any (fun previous => previous ≠ event) then r.events
      else r.events.set event.eventId event := by
    unfold commitParsed
    dsimp only
    split_ifs <;> simp
  rw [hevents]
  by_cases hid : event.eventId = id
  · subst hid
    rw [if_pos rfl]
    cases hget : r.events.get? event.eventId with
    | none => simp
    | some previous =>
      by_cases heq : previous = event
      · simp [heq]
      · simp [heq, hget]
  · rw [if_neg hid, Option.or_none]
    split_ifs
    · rfl
    · rw [OrderedMap.get?_set_of_ne _ _ (Ne.symm hid)]

@[simp] theorem scope_commitEvents (events : List TimelineEvent) :
    (r.commitEvents events).scope = r.scope := by
  induction events generalizing r with
  | nil => rfl
  | cons event events ih => exact ih.trans (scope_commitParsed event)

/-- Of each id the first event that is committed stays. -/
theorem get?_commitEvents (events : List TimelineEvent) (id : String) :
    (r.commitEvents events).events.get? id =
      (r.events.get? id).or (events.find? fun e => decide (e.eventId = id)) := by
  induction events generalizing r with
  | nil => exact Option.or_none.symm
  | cons event events ih =>
    have hcons : r.commitEvents (event :: events) = (r.commitParsed event).commitEvents events := rfl
    rw [hcons, ih, get?_commitParsed, Option.or_assoc]
    congr 1
    by_cases h : event.eventId = id <;> simp [h]

@[simp] theorem scope_replaceHistory (events : List TimelineEvent) :
    (r.replaceHistory events).1.scope = r.scope :=
  scope_commitEvents _

/-- A replaced history holds its own events and no others. -/
theorem get?_replaceHistory (events : List TimelineEvent) (id : String) :
    (r.replaceHistory events).1.events.get? id =
      (events.filter (admits r.scope)).find? fun e => decide (e.eventId = id) := by
  rw [replaceHistory, events_change, get?_commitEvents, OrderedMap.get?_empty, Option.none_or]

@[simp] theorem scope_commit (event : TimelineEvent) : (r.commit event).1.scope = r.scope := by
  unfold commit
  split_ifs <;> simp

/-- `commit` of an event of the scope. -/
theorem get?_commit {event : TimelineEvent}
    (h : isMatchingScope r.scope event.sessionId event.historyGeneration = true) (id : String) :
    (r.commit event).1.events.get? id =
      (r.events.get? id).or (if event.eventId = id then some event else none) := by
  rw [commit, if_pos h, events_change, get?_commitParsed]

/-- `commit` of any other event. -/
theorem commit_of_not_matching {event : TimelineEvent}
    (h : isMatchingScope r.scope event.sessionId event.historyGeneration = false) :
    (r.commit event).1.events = r.events := by
  rw [commit, if_neg (by simp [h]), events_change]

end Events

end TimelineRuntime

end RemotePi.Pwa
