import RemotePi.Lib.Base64
import RemotePi.Lib.Schema
import RemotePi.Protocol.HistoryFrames

/-!
# The schemas of the inner frames in the extension

The schemas of `protocol/v2/schemas.ts` as data (lines 13–431), with its patterns and its
refinements. An object literal that spreads another one lists its fields in their place.

Results:
* `textAt_of_alike`, `itemsAt_of_alike`: what is read under a key.
* `refinement_of_alike`: a refinement reads a value by its keys.
-/

namespace RemotePi.Protocol

open RemotePi.Lib

/-- The regular expressions of the schemas. -/
inductive TextPattern where
  | base64
  | mime
deriving DecidableEq

/-- The `superRefine` calls of the schemas. -/
inductive FrameCheck where
  | timelineUserEvent
  | startedMessage
  | historyChunk
deriving DecidableEq

abbrev FrameSchema := Schema TextPattern FrameCheck

abbrev FrameField := Bool × FrameSchema

/-- A member that is a text. -/
def textAt (key : String) (value : Json) : Option String := (value.member? key).bind Json.text?

/-- The items of a member that is an array. -/
def itemsAt (key : String) (value : Json) : List Json :=
  ((value.member? key).bind Json.items?).getD []

namespace FrameSchemas

open Schema (required optional)

/-! ## Texts and numbers -/

/-- `MAX_TEXT_CHARS` (line 10). -/
def maxTextChars : ℕ := 1024 * 1024

def id : FrameSchema := .text { min := 1, max := some maxIdChars }

def boundedText : FrameSchema := .text { max := some maxTextChars }

def nonEmptyText : FrameSchema := .text { min := 1, max := some maxTextChars }

def nonNegativeInt : FrameSchema := .number { int := true, nonnegative := true }

def timestamp : FrameSchema := .number { nonnegative := true }

/-- `base64` (lines 19–22). -/
def base64 : FrameSchema :=
  .text {
    min := 4, max := some ((maxFragmentDecodeBytes * 4 + 2) / 3 + 4), pattern := some .base64 }

/-- `JsonValueSchema` (lines 26–35). -/
def jsonValueSchema : FrameSchema :=
  .jsonValue { text := maxTextChars, items := maxArrayItems, key := maxIdChars }

/-! ## Blocks -/

def textBlock : FrameSchema := .object [
  ("type", required (.literal "text")),
  ("text", required boundedText),
  ("truncated", optional (.literalBool true))]

def thinkingBlock : FrameSchema := .object [
  ("type", required (.literal "thinking")),
  ("text", required boundedText),
  ("truncated", optional (.literalBool true))]

def imageMime : FrameSchema := .text { min := 1, max := some 128, pattern := some .mime }

def imageByteLength : FrameSchema :=
  .number { int := true, nonnegative := true, max := some maxWindowDecodeBytes }

/-- `imageBlock` (lines 49–62). -/
def imageBlock : FrameSchema := .union [
  .object [
    ("type", required (.literal "image")),
    ("mime_type", required imageMime),
    ("data", required (.text { min := 1, max := some maxWindowDecodeBytes })),
    ("byte_length", required imageByteLength)],
  .object [
    ("type", required (.literal "image")),
    ("mime_type", required imageMime),
    ("byte_length", required imageByteLength),
    ("omitted", required (.literalBool true))]]

def userBlock : FrameSchema := .union [textBlock, imageBlock]

def assistantBlock : FrameSchema := .union [textBlock, thinkingBlock]

/-! ## Timeline events -/

def eventBase : List (String × FrameField) := [
  ("event_id", required id),
  ("session_id", required id),
  ("history_generation", required id),
  ("timestamp", required timestamp)]

def groupedEventBase : List (String × FrameField) := eventBase ++ [("group_id", required id)]

/-- `timelineUserEvent` (lines 80–99). -/
def timelineUserEvent : FrameSchema := .superRefine (.object (groupedEventBase ++ [
  ("kind", required (.literal "user")),
  ("message_id", required id),
  ("blocks", required (.array userBlock maxArrayItems)),
  ("origin", required (.enum ["pwa", "extension", "unknown"])),
  ("sender_ref", optional id),
  ("delivery", required (.enum ["normal", "queued", "unknown"])),
  ("status", required (.literal "committed"))])) .timelineUserEvent

def timelineAssistantEvent : FrameSchema := .object (groupedEventBase ++ [
  ("kind", required (.literal "assistant")),
  ("blocks", required (.array assistantBlock maxArrayItems)),
  ("status", required (.enum ["complete", "interrupted"]))])

/-- `timelineToolEvent` (lines 108–142). -/
def timelineToolEvent : FrameSchema := .union [
  .object (groupedEventBase ++ [
    ("kind", required (.literal "tool")),
    ("tool_call_id", required id),
    ("tool", required nonEmptyText),
    ("args", required jsonValueSchema),
    ("truncated", required .boolean),
    ("status", required (.literal "complete")),
    ("result", required jsonValueSchema),
    ("error", optional .never)]),
  .object (groupedEventBase ++ [
    ("kind", required (.literal "tool")),
    ("tool_call_id", required id),
    ("tool", required nonEmptyText),
    ("args", required jsonValueSchema),
    ("truncated", required .boolean),
    ("status", required (.literal "error")),
    ("result", optional jsonValueSchema),
    ("error", required nonEmptyText)]),
  .object (groupedEventBase ++ [
    ("kind", required (.literal "tool")),
    ("tool_call_id", required id),
    ("tool", required nonEmptyText),
    ("args", required jsonValueSchema),
    ("truncated", required .boolean),
    ("status", required (.literal "interrupted")),
    ("result", optional .never),
    ("error", optional .never)])]

def systemEvent : FrameSchema := .object (eventBase ++ [
  ("kind", required (.enum ["compaction", "branch_summary", "custom"])),
  ("group_id", optional id),
  ("payload", required jsonValueSchema),
  ("truncated", required .boolean)])

def providerErrorEvent : FrameSchema := .object (groupedEventBase ++ [
  ("kind", required (.literal "provider_error")),
  ("message", required nonEmptyText)])

/-- `TimelineEventSchema` (lines 157–163). -/
def timelineEventSchema : FrameSchema := .union [
  timelineUserEvent,
  timelineAssistantEvent,
  timelineToolEvent,
  systemEvent,
  providerErrorEvent]

/-! ## Partial output -/

def partialBase : List (String × FrameField) := [
  ("protocol_version", required (.literalNumber 2)),
  ("session_id", required id),
  ("history_generation", required id),
  ("group_id", required id),
  ("partial_id", required id),
  ("status", required (.enum ["running", "delta"]))]

def partialTextFields : List (String × FrameField) := [("delta", optional boundedText)]

def assistantPartial : FrameSchema := .object (
  [("type", required (.literal "timeline_partial"))] ++ partialBase ++ [
  ("kind", required (.literal "assistant")),
  ("blocks", optional (.array assistantBlock maxArrayItems))] ++ partialTextFields)

def thinkingPartial : FrameSchema := .object (
  [("type", required (.literal "timeline_partial"))] ++ partialBase ++ [
  ("kind", required (.literal "thinking")),
  ("blocks", optional (.array thinkingBlock maxArrayItems))] ++ partialTextFields)

def toolPartial : FrameSchema := .object (
  [("type", required (.literal "timeline_partial"))] ++ partialBase ++ [
  ("kind", required (.literal "tool")),
  ("tool_call_id", required id),
  ("tool", required nonEmptyText),
  ("args", optional jsonValueSchema),
  ("blocks", optional (.array assistantBlock maxArrayItems))] ++ partialTextFields)

/-- `TimelinePartialSchema` (line 202). -/
def timelinePartialSchema : FrameSchema :=
  .union [assistantPartial, thinkingPartial, toolPartial]

/-! ## Parts of frames -/

def frameBase : List (String × FrameField) := [("protocol_version", required (.literalNumber 2))]

def clientDirect : List (String × FrameField) := [
  ("channel_id", required id), ("history_generation", required id)]

def responseDirect : List (String × FrameField) := [("target_channel_id", required id)]

def broadcastBase : List (String × FrameField) := [
  ("session_id", required id), ("history_generation", required id)]

def wireImage : FrameSchema := .object [
  ("data", required (.text { min := 1, max := some maxWindowDecodeBytes })),
  ("mime", required imageMime)]

def queuedMessageItem : FrameSchema := .object [
  ("id", required id),
  ("text", required boundedText),
  ("images", optional (.array wireImage 1)),
  ("sender_ref", optional id),
  ("editable", required .boolean),
  ("created_at", required timestamp)]

def harness : FrameSchema := .object [("name", required id), ("version", required id)]

def wireModel : FrameSchema := .object [
  ("id", required id),
  ("name", required boundedText),
  ("provider", required id),
  ("reasoning", required .boolean),
  ("context_window", required nonNegativeInt),
  ("vision", required .boolean)]

def actionName : FrameSchema :=
  .enum ["session_new", "session_compact", "model_set", "thinking_set"]

def thinkingLevel : FrameSchema := .enum ["off", "minimal", "low", "medium", "high", "xhigh"]

def askOption : FrameSchema := .object [
  ("value", required boundedText),
  ("label", required boundedText),
  ("description", optional boundedText),
  ("preview", optional boundedText),
  ("freeform", optional .boolean)]

def askQuestion : FrameSchema := .object [
  ("id", required id),
  ("label", required boundedText),
  ("prompt", required boundedText),
  ("type", required (.enum ["single", "multi", "preview"])),
  ("required", required .boolean),
  ("presentedType", optional (.enum ["single", "multi", "preview"])),
  ("requestedType", optional (.enum ["single", "multi", "preview"])),
  ("options", required (.array askOption maxArrayItems))]

def askEnrichment : FrameSchema := .object [
  ("flow_id", required id),
  ("tool_call_id", required (.nullable id)),
  ("source", required id),
  ("title", required (.nullable boundedText)),
  ("questions", required (.array askQuestion maxArrayItems))]

def askAnswer : FrameSchema := .object [
  ("values", optional (.array boundedText maxArrayItems)),
  ("customText", optional boundedText),
  ("note", optional boundedText),
  ("optionNotes", optional (.record { min := 1, max := some maxIdChars } boundedText))]

def askResponse : FrameSchema := .union [
  .object [
    ("flow_id", required id),
    ("kind", required (.literal "answer")),
    ("mode", optional (.enum ["submit", "elaborate"])),
    ("answers", required (.record { min := 1, max := some maxIdChars } askAnswer))],
  .object [("flow_id", required id), ("kind", required (.literal "cancel"))]]

/-! ## Client frames -/

/-- The fields that the client frames with a direct channel begin with. -/
def clientFrame (type : String) (entries : List (String × FrameField)) : FrameSchema :=
  .object (frameBase ++ [("type", required (.literal type)), ("id", required id)] ++
    clientDirect ++ entries)

/-- `extensionUiResponse` (lines 274–279). -/
def extensionUiResponse : FrameSchema := .union [
  clientFrame "extension_ui_response" [
    ("value", required boundedText), ("ask", optional askResponse)],
  clientFrame "extension_ui_response" [
    ("confirmed", required .boolean), ("ask", optional askResponse)],
  clientFrame "extension_ui_response" [
    ("cancelled", required (.literalBool true)), ("ask", optional askResponse)],
  clientFrame "extension_ui_response" [("ask", required askResponse)]]

def pairRequest : FrameSchema := .object (frameBase ++ [
  ("type", required (.literal "pair_request")),
  ("id", required id),
  ("token", required id),
  ("device_name", required boundedText)])

def sessionHello : FrameSchema := .object (frameBase ++ [
  ("type", required (.literal "session_hello")),
  ("id", required id),
  ("channel_id", required id)])

def userMessage : FrameSchema := clientFrame "user_message" [
  ("client_request_id", required id),
  ("text", required boundedText),
  ("images", optional (.array wireImage 1)),
  ("streaming_behavior", optional (.literal "steer"))]

def userMessageObserved : FrameSchema := clientFrame "user_message_observed" [
  ("client_request_id", required id),
  ("message_id", required id),
  ("status", required (.literal "committed"))]

def sessionSync : FrameSchema := clientFrame "session_sync" [
  ("before", required (.nullable id)),
  ("limit", optional (.number { int := true, nonnegative := true, max := some 100 }))]

def ping : FrameSchema := clientFrame "ping" []

def cancel : FrameSchema := clientFrame "cancel" []

/-- The fields of an action, with its type after them. -/
def actionFrame (type : String) (entries : List (String × FrameField)) : FrameSchema :=
  .object (frameBase ++ [("id", required id)] ++ clientDirect ++
    [("type", required (.literal type))] ++ entries)

def sessionNew : FrameSchema := actionFrame "session_new" []

def sessionCompact : FrameSchema := actionFrame "session_compact" []

def modelSet : FrameSchema :=
  actionFrame "model_set" [("provider", required id), ("model_id", required id)]

def thinkingSet : FrameSchema := actionFrame "thinking_set" [("level", required thinkingLevel)]

def listModels : FrameSchema := actionFrame "list_models" []

def queuedSet : FrameSchema := clientFrame "queued_message_set" [
  ("text", required boundedText), ("images", optional (.array wireImage 1))]

def queuedClear : FrameSchema := clientFrame "queued_message_clear" [("target_id", optional id)]

def approveTool : FrameSchema := clientFrame "approve_tool" [
  ("tool_call_id", required id), ("decision", required (.enum ["allow", "deny"]))]

/-- `ClientFrameSchema` (lines 311–315). -/
def clientFrameSchema : FrameSchema := .union [
  pairRequest, sessionHello, userMessage, userMessageObserved, sessionSync, ping, cancel,
  sessionNew, sessionCompact, modelSet, thinkingSet, listModels, queuedSet, queuedClear,
  approveTool, extensionUiResponse]

/-! ## Server frames -/

def pairOk : FrameSchema := .object (frameBase ++ [
  ("type", required (.literal "pair_ok")),
  ("in_reply_to", required id),
  ("session_name", required boundedText),
  ("session_started_at", required timestamp),
  ("endpoint_id", required id),
  ("harness", optional harness),
  ("hostname", optional boundedText)])

def pairError : FrameSchema := .object (frameBase ++ [
  ("type", required (.literal "pair_error")),
  ("in_reply_to", required id),
  ("code", required (.enum ["token_expired", "token_consumed", "token_unknown",
    "internal_error"])),
  ("message", required nonEmptyText)])

/-- The fields that the direct replies begin with. -/
def replyFrame (type : String) (entries : List (String × FrameField)) : FrameSchema :=
  .object (frameBase ++ [("type", required (.literal type))] ++ responseDirect ++
    [("in_reply_to", required id)] ++ entries)

def sessionReady : FrameSchema := .object (frameBase ++ [
  ("type", required (.literal "session_ready")),
  ("in_reply_to", required id)] ++ responseDirect ++ [
  ("session_id", required id),
  ("history_generation", required id),
  ("self_sender_ref", required id)])

/-- `startedMessage` (lines 331–341). -/
def startedMessage : FrameSchema := .superRefine (.object [
  ("id", required id),
  ("group_id", required id),
  ("blocks", required (.array userBlock maxArrayItems)),
  ("origin", required (.enum ["pwa", "extension", "unknown"])),
  ("sender_ref", optional id),
  ("delivery", required (.enum ["normal", "queued", "unknown"]))]) .startedMessage

def userMessageStarted : FrameSchema := replyFrame "user_message_started" [
  ("session_id", required id),
  ("history_generation", required id),
  ("message", required startedMessage)]

/-- A `user_message_status` frame with a status. -/
def statusFrame (status : String) (entries : List (String × FrameField)) : FrameSchema :=
  replyFrame "user_message_status" ([
    ("session_id", required id),
    ("history_generation", required id),
    ("client_request_id", required id),
    ("status", required (.literal status))] ++ entries)

/-- `userMessageStatus` (lines 346–351). -/
def userMessageStatus : FrameSchema := .union [
  statusFrame "received" [],
  statusFrame "accepted" [("message_id", optional id), ("group_id", optional id)],
  statusFrame "committed" [("message_id", required id), ("group_id", optional id)],
  statusFrame "unknown_delivery" []]

/-- The fields that the broadcasts begin with. -/
def broadcastFrame (type : String) (entries : List (String × FrameField)) : FrameSchema :=
  .object (frameBase ++ [("type", required (.literal type))] ++ broadcastBase ++ entries)

def timelineEventFrame : FrameSchema :=
  broadcastFrame "timeline_event" [("event", required timelineEventSchema)]

def fragmentFields : List (String × FrameField) := [
  ("event_id", required id),
  ("index", required nonNegativeInt),
  ("data_base64", required base64),
  ("final", required .boolean)]

/-- `TimelineEventFragmentSchema` (lines 353–356). -/
def timelineEventFragmentSchema : FrameSchema :=
  broadcastFrame "timeline_event_fragment" fragmentFields

/-- `HistoryFragmentSchema` (line 357). -/
def historyFragmentSchema : FrameSchema := .object fragmentFields

def historyChunkBase : List (String × FrameField) :=
  frameBase ++ [("type", required (.literal "session_history_chunk"))] ++ responseDirect ++ [
    ("in_reply_to", required id),
    ("session_id", required id),
    ("history_generation", required id),
    ("snapshot_head", required id),
    ("chunk_index", required nonNegativeInt),
    ("events", required (.array timelineEventSchema maxArrayItems)),
    ("fragments", required (.array historyFragmentSchema maxArrayItems))]

def historyChunkTail : List (String × FrameField) := [
  ("final_chunk", required (.literalBool false)),
  ("next_before", optional .never),
  ("eos", optional .never)]

def historyChunkEos : List (String × FrameField) := [
  ("final_chunk", required (.literalBool true)),
  ("eos", required (.literalBool true)),
  ("next_before", optional .never)]

def historyChunkNext : List (String × FrameField) := [
  ("final_chunk", required (.literalBool true)),
  ("eos", required (.literalBool false)),
  ("next_before", required id)]

/-- `SessionHistoryChunkSchema` (lines 385–389). -/
def sessionHistoryChunkSchema : FrameSchema := .superRefine (.union [
  .object (historyChunkBase ++ historyChunkTail),
  .object (historyChunkBase ++ historyChunkEos),
  .object (historyChunkBase ++ historyChunkNext)]) .historyChunk

def protocolErrorFields : List (String × FrameField) := [
  ("type", required (.literal "protocol_error")),
  ("in_reply_to", optional id),
  ("code", required (.enum ["protocol_upgrade_required", "invalid_message", "unsupported_type",
    "invalid_channel", "invalid_generation", "invalid_cursor", "reset_required", "too_large",
    "internal_error"])),
  ("message", required nonEmptyText)]

def protocolError : FrameSchema := .union [
  .object (frameBase ++ protocolErrorFields ++ responseDirect),
  .object (frameBase ++ protocolErrorFields)]

def reset : FrameSchema := .object (frameBase ++ [("type", required (.literal "reset"))] ++
  responseDirect ++ [
  ("session_id", required id),
  ("history_generation", required id),
  ("reason", required (.enum ["generation_changed", "branch_changed", "session_replaced",
    "conflict", "invalid_cursor"]))])

def pong : FrameSchema := replyFrame "pong" []

def cancelled : FrameSchema := replyFrame "cancelled" []

def actionOk : FrameSchema := replyFrame "action_ok" [("action", required actionName)]

def actionError : FrameSchema := replyFrame "action_error" [
  ("action", required actionName), ("error", required nonEmptyText)]

def modelsList : FrameSchema := replyFrame "models_list" [
  ("models", required (.array wireModel maxArrayItems)), ("current", optional wireModel)]

def queuedMessageState : FrameSchema := broadcastFrame "queued_message_state" [
  ("snapshot_id", required id),
  ("chunk_index", required nonNegativeInt),
  ("final", required .boolean),
  ("items", required (.array queuedMessageItem maxArrayItems))]

/-- An `extension_ui_request` with a method. -/
def uiRequest (method : String) (entries : List (String × FrameField)) : FrameSchema :=
  .object (frameBase ++ [("type", required (.literal "extension_ui_request"))] ++
    responseDirect ++ [("id", required id), ("method", required (.literal method))] ++ entries)

/-- `extensionUiRequest` (lines 417–423). -/
def extensionUiRequest : FrameSchema := .union [
  uiRequest "select" [
    ("title", required boundedText),
    ("options", required (.array boundedText maxArrayItems)),
    ("ask", optional askEnrichment)],
  uiRequest "confirm" [
    ("title", required boundedText),
    ("message", required boundedText),
    ("ask", optional askEnrichment)],
  uiRequest "input" [
    ("title", required boundedText),
    ("placeholder", optional boundedText),
    ("ask", optional askEnrichment)],
  uiRequest "editor" [
    ("title", required boundedText),
    ("prefill", optional boundedText),
    ("ask", optional askEnrichment)],
  uiRequest "notify" [
    ("message", required boundedText),
    ("notify_type", optional (.enum ["info", "warning", "error"]))]]

def bye : FrameSchema :=
  broadcastFrame "bye" [("reason", required (.enum ["peer_stop", "session_replaced", "shutdown"]))]

/-- `ServerFrameSchema` (lines 426–430). -/
def serverFrameSchema : FrameSchema := .union [
  pairOk, pairError, sessionReady, userMessageStarted, userMessageStatus, timelineEventFrame,
  timelinePartialSchema, timelineEventFragmentSchema, sessionHistoryChunkSchema, protocolError,
  reset, pong, cancelled, actionOk, actionError, modelsList, queuedMessageState,
  extensionUiRequest, bye]

/-- `ClientFrameTypes` (lines 433–436). -/
def clientFrameTypes : List String := [
  "pair_request", "session_hello", "user_message", "user_message_observed", "session_sync",
  "ping", "cancel", "session_new", "session_compact", "model_set", "thinking_set", "list_models",
  "queued_message_set", "queued_message_clear", "approve_tool", "extension_ui_response"]

/-- `ServerFrameTypes` (lines 437–439). -/
def serverFrameTypes : List String := [
  "pair_ok", "pair_error", "session_ready", "user_message_started", "user_message_status",
  "timeline_event", "timeline_partial", "timeline_event_fragment", "session_history_chunk",
  "protocol_error", "reset", "pong", "cancelled", "action_ok", "action_error", "models_list",
  "queued_message_state", "extension_ui_request", "bye"]

/-! ## Patterns and refinements -/

/-- The characters `[\w.+-]`. -/
def isMimeChar (c : Char) : Bool :=
  c.isAlphanum || c = '_' || c = '.' || c = '+' || c = '-'

/-- The pattern of `imageMime` (line 47). -/
def isMime (text : List Char) : Bool :=
  let before := text.takeWhile isMimeChar
  let after := (text.dropWhile isMimeChar).drop 1
  !before.isEmpty && (text.dropWhile isMimeChar).head? == some '/' && !after.isEmpty &&
    after.all isMimeChar

def pattern : TextPattern → String → Bool
  | .base64, text => Base64.isText text.toList
  | .mime, text => isMime text.toList

/-- The refinement of `startedMessage` (lines 334–341). -/
def checkStartedMessage (value : Json) : Bool :=
  !(textAt "origin" value == some "pwa" && (value.member? "sender_ref").isNone) &&
    !(textAt "origin" value != some "pwa" && (value.member? "sender_ref").isSome)

/-- The refinement of `timelineUserEvent` (lines 89–99). -/
def checkTimelineUserEvent (value : Json) : Bool :=
  textAt "event_id" value == textAt "message_id" value &&
    !(textAt "origin" value == some "pwa" && (value.member? "sender_ref").isNone) &&
    !(textAt "origin" value != some "pwa" && (value.member? "sender_ref").isSome)

/-- `validateHistoryChunk` (lines 374–384). -/
def validateHistoryChunk (value : Json) : Bool :=
  let eventIds := (itemsAt "events" value).map (textAt "event_id")
  let fragmentIds := (itemsAt "fragments" value).map (textAt "event_id")
  eventIds.all (fun eventId => !fragmentIds.contains eventId) && decide fragmentIds.Nodup

def refinement : FrameCheck → Json → Bool
  | .timelineUserEvent => checkTimelineUserEvent
  | .startedMessage => checkStartedMessage
  | .historyChunk => validateHistoryChunk

end FrameSchemas

/-! ## Values that are alike -/

theorem member?_of_alike {value value' : Json} (h : Json.Alike value value') (key : String) :
    Option.Rel Json.Alike (value.member? key) (value'.member? key) := by
  cases value with
  | object members =>
    rcases h.cases with rfl | ⟨_, _, ⟨⟩, _⟩ | ⟨_, members', ⟨⟩, rfl⟩
    · exact (Json.alike_object_iff.mp h).2.2 key
    · exact (Json.alike_object_iff.mp h).2.2 key
  | _ =>
    rcases h.cases with rfl | ⟨_, _, -, rfl⟩ | ⟨_, _, ⟨⟩, _⟩
    all_goals exact Option.Rel.none

theorem text?_of_alike {value value' : Json} (h : Json.Alike value value') :
    value.text? = value'.text? := by
  rcases h.cases with rfl | ⟨_, _, rfl, rfl⟩ | ⟨_, _, rfl, rfl⟩ <;> rfl

theorem textAt_of_alike {value value' : Json} (h : Json.Alike value value') (key : String) :
    textAt key value = textAt key value' := by
  have hrel := member?_of_alike h key
  unfold textAt
  generalize value.member? key = found at hrel
  generalize value'.member? key = found' at hrel
  cases hrel with
  | some halike => exact text?_of_alike halike
  | none => rfl

theorem isSome_of_alike {value value' : Json} (h : Json.Alike value value') (key : String) :
    (value.member? key).isSome = (value'.member? key).isSome := by
  have hrel := member?_of_alike h key
  generalize value.member? key = found at hrel
  generalize value'.member? key = found' at hrel
  cases hrel <;> rfl

theorem itemsAt_of_alike {value value' : Json} (h : Json.Alike value value') (key : String) :
    List.Forall₂ Json.Alike (itemsAt key value) (itemsAt key value') := by
  have hrel := member?_of_alike h key
  unfold itemsAt
  generalize value.member? key = found at hrel
  generalize value'.member? key = found' at hrel
  cases hrel with
  | none => exact List.Forall₂.nil
  | @some found found' halike =>
    rcases halike.cases with rfl | ⟨items, items', rfl, rfl⟩ | ⟨_, _, rfl, rfl⟩
    · cases found with
      | array items => exact Json.alike_array_iff.mp halike
      | _ => exact List.Forall₂.nil
    · exact Json.alike_array_iff.mp halike
    · exact List.Forall₂.nil

theorem map_textAt_of_alike {items items' : List Json} (h : List.Forall₂ Json.Alike items items')
    (key : String) : items.map (textAt key) = items'.map (textAt key) := by
  induction h with
  | nil => rfl
  | cons halike _ ih => rw [List.map_cons, List.map_cons, textAt_of_alike halike, ih]

namespace FrameSchemas

theorem refinement_of_alike (check : FrameCheck) (value value' : Json)
    (h : Json.Alike value value') : refinement check value = refinement check value' := by
  have hsender := isSome_of_alike h "sender_ref"
  have hnone : (value.member? "sender_ref").isNone = (value'.member? "sender_ref").isNone := by
    rw [← Option.not_isSome, ← Option.not_isSome, hsender]
  cases check with
  | timelineUserEvent =>
    simp only [refinement, checkTimelineUserEvent, textAt_of_alike h, hsender, hnone]
  | startedMessage =>
    simp only [refinement, checkStartedMessage, textAt_of_alike h, hsender, hnone]
  | historyChunk =>
    simp only [refinement, validateHistoryChunk,
      map_textAt_of_alike (itemsAt_of_alike h "events"),
      map_textAt_of_alike (itemsAt_of_alike h "fragments")]

/-- What the patterns and the refinements test. -/
def rules : Rules TextPattern FrameCheck := ⟨pattern, refinement, refinement_of_alike⟩

end FrameSchemas

end RemotePi.Protocol
