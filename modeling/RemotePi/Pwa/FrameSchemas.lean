import RemotePi.Protocol.FrameSchemas

/-!
# The schemas of the inner frames in the browser

The schemas of `protocol-v2/schema.ts` (lines 3–329) and `protocol-v2/frames.ts` (lines 30–427)
as data, with their patterns and refinements. They are written apart from those of the
extension, with other names, other spreads and their fields in another order.

Results:
* `client_equivalent`, `server_equivalent`, `fragmentFrame_equivalent`, `fragment_equivalent`,
  `chunk_equivalent`, `event_equivalent`, `partial_equivalent`: they are equivalent to those of the
  extension.
* `rules_agree`: so are their patterns and refinements.
-/

namespace RemotePi.Pwa.FrameSchemas

open RemotePi.Lib
open RemotePi.Lib.Schema (required optional)
open RemotePi.Protocol (TextPattern FrameCheck FrameSchema FrameField textAt itemsAt)

/-! ## Limits (`schema.ts`, lines 3–15) -/

def maxFrameBytes : ℕ := 2 * 1024 * 1024

def maxHistoryChunkBytes : ℕ := 512 * 1024

def maxWindowBytes : ℕ := 32 * 1024 * 1024

def maxFragmentBytes : ℕ := 50 * 1024

def maxIdChars : ℕ := 256

def maxStringChars : ℕ := 1024 * 1024

def maxArrayItems : ℕ := 4096

/-! ## Texts and numbers -/

def idSchema : FrameSchema := .text { min := 1, max := some maxIdChars }

def textSchema : FrameSchema := .text { max := some maxStringChars }

def nonEmptyTextSchema : FrameSchema := .text { min := 1, max := some maxStringChars }

def timestampSchema : FrameSchema := .number { nonnegative := true }

def positiveIntSchema : FrameSchema := .number { int := true, nonnegative := true }

def protocolVersionSchema : FrameSchema := .literalNumber 2

def channelIdSchema : FrameSchema := idSchema

def historyGenerationSchema : FrameSchema := idSchema

/-- `jsonValueSchema` (lines 37–46). -/
def jsonValueSchema : FrameSchema :=
  .jsonValue { text := maxStringChars, items := maxArrayItems, key := maxIdChars }

/-! ## Blocks -/

def truncatedSchema : FrameSchema := .literalBool true

def textBlockSchema : FrameSchema := .object [
  ("type", required (.literal "text")),
  ("text", required textSchema),
  ("truncated", optional truncatedSchema)]

def thinkingBlockSchema : FrameSchema := .object [
  ("type", required (.literal "thinking")),
  ("text", required textSchema),
  ("truncated", optional truncatedSchema)]

def imageMimeSchema : FrameSchema := .text { min := 1, max := some 128, pattern := some .mime }

def imageByteLengthSchema : FrameSchema :=
  .number { int := true, nonnegative := true, max := some maxWindowBytes }

def completeImageSchema : FrameSchema := .object [
  ("type", required (.literal "image")),
  ("mime_type", required imageMimeSchema),
  ("data", required (.text { min := 1, max := some maxWindowBytes })),
  ("byte_length", required imageByteLengthSchema)]

def omittedImageSchema : FrameSchema := .object [
  ("type", required (.literal "image")),
  ("mime_type", required imageMimeSchema),
  ("byte_length", required imageByteLengthSchema),
  ("omitted", required (.literalBool true))]

def imageBlockSchema : FrameSchema := .union [completeImageSchema, omittedImageSchema]

def userBlockSchema : FrameSchema := .union [textBlockSchema, imageBlockSchema]

def assistantBlockSchema : FrameSchema := .union [textBlockSchema, thinkingBlockSchema]

/-! ## Timeline events -/

def timelineBaseShape : List (String × FrameField) := [
  ("event_id", required idSchema),
  ("session_id", required idSchema),
  ("history_generation", required historyGenerationSchema),
  ("timestamp", required timestampSchema)]

def groupedTimelineBaseShape : List (String × FrameField) :=
  timelineBaseShape ++ [("group_id", required idSchema)]

def userEventShape : List (String × FrameField) := groupedTimelineBaseShape ++ [
  ("kind", required (.literal "user")),
  ("message_id", required idSchema),
  ("blocks", required (.array userBlockSchema maxArrayItems)),
  ("origin", required (.enum ["pwa", "extension", "unknown"])),
  ("sender_ref", optional idSchema),
  ("delivery", required (.enum ["normal", "queued", "unknown"])),
  ("status", required (.literal "committed"))]

/-- `timelineUserEventSchema` (lines 103–113). -/
def timelineUserEventSchema : FrameSchema :=
  .superRefine (.object userEventShape) .timelineUserEvent

def timelineAssistantEventSchema : FrameSchema := .object (groupedTimelineBaseShape ++ [
  ("kind", required (.literal "assistant")),
  ("blocks", required (.array assistantBlockSchema maxArrayItems)),
  ("status", required (.enum ["complete", "interrupted"]))])

def completeToolEventSchema : FrameSchema := .object (groupedTimelineBaseShape ++ [
  ("kind", required (.literal "tool")),
  ("tool_call_id", required idSchema),
  ("tool", required nonEmptyTextSchema),
  ("args", required jsonValueSchema),
  ("truncated", required .boolean),
  ("status", required (.literal "complete")),
  ("result", required jsonValueSchema),
  ("error", optional .never)])

def errorToolEventSchema : FrameSchema := .object (groupedTimelineBaseShape ++ [
  ("kind", required (.literal "tool")),
  ("tool_call_id", required idSchema),
  ("tool", required nonEmptyTextSchema),
  ("args", required jsonValueSchema),
  ("truncated", required .boolean),
  ("status", required (.literal "error")),
  ("result", optional jsonValueSchema),
  ("error", required nonEmptyTextSchema)])

def interruptedToolEventSchema : FrameSchema := .object (groupedTimelineBaseShape ++ [
  ("kind", required (.literal "tool")),
  ("tool_call_id", required idSchema),
  ("tool", required nonEmptyTextSchema),
  ("args", required jsonValueSchema),
  ("truncated", required .boolean),
  ("status", required (.literal "interrupted")),
  ("result", optional .never),
  ("error", optional .never)])

def timelineToolEventSchema : FrameSchema :=
  .union [completeToolEventSchema, errorToolEventSchema, interruptedToolEventSchema]

def timelineSystemEventSchema : FrameSchema := .object (timelineBaseShape ++ [
  ("kind", required (.enum ["compaction", "branch_summary", "custom"])),
  ("group_id", optional idSchema),
  ("payload", required jsonValueSchema),
  ("truncated", required .boolean)])

def timelineProviderErrorEventSchema : FrameSchema := .object (groupedTimelineBaseShape ++ [
  ("kind", required (.literal "provider_error")),
  ("message", required nonEmptyTextSchema)])

/-- `timelineEventSchema` (lines 176–182). -/
def timelineEventSchema : FrameSchema := .union [
  timelineUserEventSchema,
  timelineAssistantEventSchema,
  timelineToolEventSchema,
  timelineSystemEventSchema,
  timelineProviderErrorEventSchema]

/-! ## Partial output -/

def partialBaseShape : List (String × FrameField) := [
  ("protocol_version", required protocolVersionSchema),
  ("type", required (.literal "timeline_partial")),
  ("session_id", required idSchema),
  ("history_generation", required historyGenerationSchema),
  ("group_id", required idSchema),
  ("partial_id", required idSchema),
  ("status", required (.enum ["running", "delta"]))]

def partialTextShape : List (String × FrameField) := [("delta", optional textSchema)]

/-- `timelinePartialSchema` (lines 197–219). -/
def timelinePartialSchema : FrameSchema := .union [
  .object (partialBaseShape ++ [
    ("kind", required (.literal "assistant")),
    ("blocks", optional (.array assistantBlockSchema maxArrayItems))] ++ partialTextShape),
  .object (partialBaseShape ++ [
    ("kind", required (.literal "thinking")),
    ("blocks", optional (.array thinkingBlockSchema maxArrayItems))] ++ partialTextShape),
  .object (partialBaseShape ++ [
    ("kind", required (.literal "tool")),
    ("tool_call_id", required idSchema),
    ("tool", required nonEmptyTextSchema),
    ("args", optional jsonValueSchema),
    ("blocks", optional (.array assistantBlockSchema maxArrayItems))] ++ partialTextShape)]

/-! ## Parts of frames -/

/-- `base64Schema` (lines 223–226). -/
def base64Schema : FrameSchema :=
  .text { min := 4, max := some ((maxFragmentBytes * 4 + 2) / 3 + 4), pattern := some .base64 }

/-- `timelineEventFragmentSchema` (lines 227–232): a fragment without the fields of a frame. -/
def timelineEventFragmentSchema : FrameSchema := .object [
  ("event_id", required idSchema),
  ("index", required positiveIntSchema),
  ("data_base64", required base64Schema),
  ("final", required .boolean)]

def historyFragmentSchema : FrameSchema := timelineEventFragmentSchema

def askQuestionTypeSchema : FrameSchema := .enum ["single", "multi", "preview"]

def askOptionSchema : FrameSchema := .object [
  ("value", required textSchema),
  ("label", required textSchema),
  ("description", optional textSchema),
  ("preview", optional textSchema),
  ("freeform", optional .boolean)]

def askQuestionSchema : FrameSchema := .object [
  ("id", required idSchema),
  ("label", required textSchema),
  ("prompt", required textSchema),
  ("type", required askQuestionTypeSchema),
  ("required", required .boolean),
  ("presentedType", optional askQuestionTypeSchema),
  ("requestedType", optional askQuestionTypeSchema),
  ("options", required (.array askOptionSchema maxArrayItems))]

def askEnrichmentSchema : FrameSchema := .object [
  ("flow_id", required idSchema),
  ("tool_call_id", required (.nullable idSchema)),
  ("source", required idSchema),
  ("title", required (.nullable textSchema)),
  ("questions", required (.array askQuestionSchema maxArrayItems))]

def askAnswerSchema : FrameSchema := .object [
  ("values", optional (.array textSchema maxArrayItems)),
  ("customText", optional textSchema),
  ("note", optional textSchema),
  ("optionNotes", optional (.record { min := 1, max := some maxIdChars } textSchema))]

def askResponseEnrichmentSchema : FrameSchema := .union [
  .object [
    ("flow_id", required idSchema),
    ("kind", required (.literal "answer")),
    ("mode", optional (.enum ["submit", "elaborate"])),
    ("answers", required (.record { min := 1, max := some maxIdChars } askAnswerSchema))],
  .object [("flow_id", required idSchema), ("kind", required (.literal "cancel"))]]

/-- The field `ask` of the first four shapes of `extensionUiRequestPayloadSchema`
(lines 279–285). -/
def requestAsk : FrameField := optional askEnrichmentSchema

/-- The field `ask` of the first three shapes of `extensionUiResponsePayloadSchema`
(lines 288–293). -/
def responseAsk : FrameField := optional askResponseEnrichmentSchema

def thinkingLevelSchema : FrameSchema :=
  .enum ["off", "minimal", "low", "medium", "high", "xhigh"]

def actionNameSchema : FrameSchema :=
  .enum ["session_new", "session_compact", "model_set", "thinking_set"]

def byeReasonSchema : FrameSchema := .enum ["peer_stop", "session_replaced", "shutdown"]

def wireImageSchema : FrameSchema := .object [
  ("data", required (.text { min := 1, max := some maxWindowBytes })),
  ("mime", required imageMimeSchema)]

def queuedMessageItemSchema : FrameSchema := .object [
  ("id", required idSchema),
  ("text", required textSchema),
  ("images", optional (.array wireImageSchema 1)),
  ("sender_ref", optional idSchema),
  ("editable", required .boolean),
  ("created_at", required timestampSchema)]

def wireModelSchema : FrameSchema := .object [
  ("id", required idSchema),
  ("name", required textSchema),
  ("provider", required idSchema),
  ("reasoning", required .boolean),
  ("context_window", required positiveIntSchema),
  ("vision", required .boolean)]

def harnessSchema : FrameSchema :=
  .object [("name", required idSchema), ("version", required idSchema)]

/-- `CLIENT_FRAME_TYPES` (lines 321–325). -/
def clientFrameTypes : List String := [
  "pair_request", "session_hello", "user_message", "user_message_observed", "session_sync",
  "ping", "cancel", "session_new", "session_compact", "model_set", "thinking_set", "list_models",
  "queued_message_set", "queued_message_clear", "approve_tool", "extension_ui_response"]

/-- `SERVER_FRAME_TYPES` (lines 326–330). -/
def serverFrameTypes : List String := [
  "pair_ok", "pair_error", "session_ready", "user_message_started", "user_message_status",
  "timeline_event", "timeline_partial", "timeline_event_fragment", "session_history_chunk",
  "protocol_error", "reset", "pong", "cancelled", "action_ok", "action_error", "models_list",
  "queued_message_state", "extension_ui_request", "bye"]

/-! ## Client frames (`frames.ts`) -/

def protocol : List (String × FrameField) := [("protocol_version", required protocolVersionSchema)]

def channelRequest : List (String × FrameField) := protocol ++ [
  ("channel_id", required channelIdSchema),
  ("history_generation", required historyGenerationSchema)]

def directResponse : List (String × FrameField) :=
  protocol ++ [("target_channel_id", required channelIdSchema)]

def ownerBroadcast : List (String × FrameField) := protocol ++ [
  ("session_id", required idSchema),
  ("history_generation", required historyGenerationSchema)]

def pairRequestFrameSchema : FrameSchema := .object (protocol ++ [
  ("type", required (.literal "pair_request")),
  ("id", required idSchema),
  ("token", required idSchema),
  ("device_name", required textSchema)])

def sessionHelloFrameSchema : FrameSchema := .object (protocol ++ [
  ("type", required (.literal "session_hello")),
  ("id", required idSchema),
  ("channel_id", required channelIdSchema)])

/-- A request on a channel, which spreads the version twice. -/
def requestFrame (type : String) (entries : List (String × FrameField)) : FrameSchema :=
  .object (protocol ++ [("type", required (.literal type)), ("id", required idSchema)] ++
    channelRequest ++ entries)

def userMessageFrameSchema : FrameSchema := requestFrame "user_message" [
  ("client_request_id", required idSchema),
  ("text", required textSchema),
  ("images", optional (.array wireImageSchema 1)),
  ("streaming_behavior", optional (.literal "steer"))]

def userMessageObservedFrameSchema : FrameSchema := requestFrame "user_message_observed" [
  ("client_request_id", required idSchema),
  ("message_id", required idSchema),
  ("status", required (.literal "committed"))]

def sessionSyncFrameSchema : FrameSchema := requestFrame "session_sync" [
  ("before", required (.nullable idSchema)),
  ("limit", optional (.number { int := true, nonnegative := true, max := some 100 }))]

/-- `pingFrameSchema` (lines 86–92), which names the fields of its channel. -/
def pingFrameSchema : FrameSchema := .object (protocol ++ [
  ("type", required (.literal "ping")),
  ("id", required idSchema),
  ("channel_id", required channelIdSchema),
  ("history_generation", required historyGenerationSchema)])

def cancelFrameSchema : FrameSchema := requestFrame "cancel" []

def sessionNewFrameSchema : FrameSchema := requestFrame "session_new" []

def sessionCompactFrameSchema : FrameSchema := requestFrame "session_compact" []

def modelSetFrameSchema : FrameSchema := requestFrame "model_set" [
  ("provider", required idSchema), ("model_id", required idSchema)]

def thinkingSetFrameSchema : FrameSchema :=
  requestFrame "thinking_set" [("level", required thinkingLevelSchema)]

def listModelsFrameSchema : FrameSchema := requestFrame "list_models" []

def queuedMessageSetFrameSchema : FrameSchema := requestFrame "queued_message_set" [
  ("text", required textSchema), ("images", optional (.array wireImageSchema 1))]

def queuedMessageClearFrameSchema : FrameSchema :=
  requestFrame "queued_message_clear" [("target_id", optional idSchema)]

def approveToolFrameSchema : FrameSchema := requestFrame "approve_tool" [
  ("tool_call_id", required idSchema), ("decision", required (.enum ["allow", "deny"]))]

/-- `extensionUiResponseFrameSchema` (lines 156–161). -/
def extensionUiResponseFrameSchema : FrameSchema := .union [
  requestFrame "extension_ui_response" [
    ("value", required textSchema), ("ask", optional responseAsk.2)],
  requestFrame "extension_ui_response" [
    ("confirmed", required .boolean), ("ask", optional responseAsk.2)],
  requestFrame "extension_ui_response" [
    ("cancelled", required (.literalBool true)), ("ask", optional responseAsk.2)],
  requestFrame "extension_ui_response" [("ask", required askResponseEnrichmentSchema)]]

/-- `clientFrameSchema` (lines 389–406). -/
def clientFrameSchema : FrameSchema := .union [
  pairRequestFrameSchema,
  sessionHelloFrameSchema,
  userMessageFrameSchema,
  userMessageObservedFrameSchema,
  sessionSyncFrameSchema,
  pingFrameSchema,
  cancelFrameSchema,
  sessionNewFrameSchema,
  sessionCompactFrameSchema,
  modelSetFrameSchema,
  thinkingSetFrameSchema,
  listModelsFrameSchema,
  queuedMessageSetFrameSchema,
  queuedMessageClearFrameSchema,
  approveToolFrameSchema,
  extensionUiResponseFrameSchema]

/-! ## Server frames (`frames.ts`) -/

def pairOkFrameSchema : FrameSchema := .object (protocol ++ [
  ("type", required (.literal "pair_ok")),
  ("in_reply_to", required idSchema),
  ("session_name", required textSchema),
  ("session_started_at", required timestampSchema),
  ("endpoint_id", required idSchema),
  ("harness", optional harnessSchema),
  ("hostname", optional textSchema)])

def pairErrorFrameSchema : FrameSchema := .object (protocol ++ [
  ("type", required (.literal "pair_error")),
  ("in_reply_to", required idSchema),
  ("code", required (.enum ["token_expired", "token_consumed", "token_unknown",
    "internal_error"])),
  ("message", required nonEmptyTextSchema)])

/-- A reply to a channel. -/
def responseFrame (type : String) (entries : List (String × FrameField)) : FrameSchema :=
  .object (directResponse ++ [("type", required (.literal type))] ++ entries)

def sessionReadyFrameSchema : FrameSchema := responseFrame "session_ready" [
  ("in_reply_to", required idSchema),
  ("session_id", required idSchema),
  ("history_generation", required historyGenerationSchema),
  ("self_sender_ref", required idSchema)]

/-- `startedMessageSchema` (lines 189–203). -/
def startedMessageSchema : FrameSchema := .superRefine (.object [
  ("id", required idSchema),
  ("group_id", required idSchema),
  ("blocks", required (.array userBlockSchema maxArrayItems)),
  ("origin", required (.enum ["pwa", "extension", "unknown"])),
  ("sender_ref", optional idSchema),
  ("delivery", required (.enum ["normal", "queued", "unknown"]))]) .startedMessage

def userMessageStartedFrameSchema : FrameSchema := responseFrame "user_message_started" [
  ("in_reply_to", required idSchema),
  ("session_id", required idSchema),
  ("history_generation", required historyGenerationSchema),
  ("message", required startedMessageSchema)]

/-- A `user_message_status` frame with a status. -/
def userMessageStatus (status : String) (entries : List (String × FrameField)) : FrameSchema :=
  responseFrame "user_message_status" ([
    ("in_reply_to", required idSchema),
    ("session_id", required idSchema),
    ("history_generation", required historyGenerationSchema),
    ("client_request_id", required idSchema),
    ("status", required (.literal status))] ++ entries)

/-- `userMessageStatusFrameSchema` (lines 213–254). -/
def userMessageStatusFrameSchema : FrameSchema := .union [
  userMessageStatus "received" [],
  userMessageStatus "accepted" [
    ("message_id", optional idSchema), ("group_id", optional idSchema)],
  userMessageStatus "committed" [
    ("message_id", required idSchema), ("group_id", optional idSchema)],
  userMessageStatus "unknown_delivery" []]

/-- A broadcast to the channels of an owner. -/
def broadcastFrame (type : String) (entries : List (String × FrameField)) : FrameSchema :=
  .object (ownerBroadcast ++ [("type", required (.literal type))] ++ entries)

def timelineEventFrameSchema : FrameSchema :=
  broadcastFrame "timeline_event" [("event", required timelineEventSchema)]

def timelinePartialFrameSchema : FrameSchema := timelinePartialSchema

def timelineEventFragmentFrameSchema : FrameSchema := broadcastFrame "timeline_event_fragment" [
  ("event_id", required idSchema),
  ("index", required positiveIntSchema),
  ("data_base64", required base64Schema),
  ("final", required .boolean)]

def historyChunkBase : List (String × FrameField) := directResponse ++ [
  ("type", required (.literal "session_history_chunk")),
  ("in_reply_to", required idSchema),
  ("session_id", required idSchema),
  ("history_generation", required historyGenerationSchema),
  ("snapshot_head", required idSchema),
  ("chunk_index", required positiveIntSchema),
  ("events", required (.array timelineEventSchema maxArrayItems)),
  ("fragments", required (.array historyFragmentSchema maxArrayItems))]

def historyChunkTail : List (String × FrameField) := [
  ("final_chunk", required (.literalBool false)),
  ("next_before", optional .never),
  ("eos", optional .never)]

def historyChunkEos : List (String × FrameField) := [
  ("final_chunk", required (.literalBool true)),
  ("eos", required (.literalBool true)),
  ("next_before", optional .never)]

def historyChunkNext : List (String × FrameField) := [
  ("final_chunk", required (.literalBool true)),
  ("eos", required (.literalBool false)),
  ("next_before", required idSchema)]

/-- `sessionHistoryChunkFrameSchema` (lines 312–316). -/
def sessionHistoryChunkFrameSchema : FrameSchema := .superRefine (.union [
  .object (historyChunkBase ++ historyChunkTail),
  .object (historyChunkBase ++ historyChunkEos),
  .object (historyChunkBase ++ historyChunkNext)]) .historyChunk

def protocolErrorFields : List (String × FrameField) := [
  ("type", required (.literal "protocol_error")),
  ("in_reply_to", optional idSchema),
  ("code", required (.enum ["protocol_upgrade_required", "invalid_message", "unsupported_type",
    "invalid_channel", "invalid_generation", "invalid_cursor", "reset_required", "too_large",
    "internal_error"])),
  ("message", required nonEmptyTextSchema)]

def protocolErrorFrameSchema : FrameSchema := .union [
  .object (protocol ++ protocolErrorFields ++ [("target_channel_id", required channelIdSchema)]),
  .object (protocol ++ protocolErrorFields)]

def resetFrameSchema : FrameSchema := responseFrame "reset" [
  ("session_id", required idSchema),
  ("history_generation", required historyGenerationSchema),
  ("reason", required (.enum ["generation_changed", "branch_changed", "session_replaced",
    "conflict", "invalid_cursor"]))]

def pongFrameSchema : FrameSchema := responseFrame "pong" [("in_reply_to", required idSchema)]

def cancelledFrameSchema : FrameSchema :=
  responseFrame "cancelled" [("in_reply_to", required idSchema)]

def actionOkFrameSchema : FrameSchema := responseFrame "action_ok" [
  ("in_reply_to", required idSchema), ("action", required actionNameSchema)]

def actionErrorFrameSchema : FrameSchema := responseFrame "action_error" [
  ("in_reply_to", required idSchema),
  ("action", required actionNameSchema),
  ("error", required nonEmptyTextSchema)]

def modelsListFrameSchema : FrameSchema := responseFrame "models_list" [
  ("in_reply_to", required idSchema),
  ("models", required (.array wireModelSchema maxArrayItems)),
  ("current", optional wireModelSchema)]

def queuedMessageStateFrameSchema : FrameSchema := broadcastFrame "queued_message_state" [
  ("snapshot_id", required idSchema),
  ("chunk_index", required positiveIntSchema),
  ("final", required .boolean),
  ("items", required (.array queuedMessageItemSchema maxArrayItems))]

/-- An `extension_ui_request` with a method, which spreads the version twice. -/
def uiRequestFrame (method : String) (entries : List (String × FrameField)) : FrameSchema :=
  .object (protocol ++ [("type", required (.literal "extension_ui_request"))] ++ directResponse ++
    [("id", required idSchema), ("method", required (.literal method))] ++ entries)

/-- `extensionUiRequestFrameSchema` (lines 376–382). -/
def extensionUiRequestFrameSchema : FrameSchema := .union [
  uiRequestFrame "select" [
    ("title", required textSchema),
    ("options", required (.array textSchema maxArrayItems)),
    ("ask", optional requestAsk.2)],
  uiRequestFrame "confirm" [
    ("title", required textSchema),
    ("message", required textSchema),
    ("ask", optional requestAsk.2)],
  uiRequestFrame "input" [
    ("title", required textSchema),
    ("placeholder", optional textSchema),
    ("ask", optional requestAsk.2)],
  uiRequestFrame "editor" [
    ("title", required textSchema),
    ("prefill", optional textSchema),
    ("ask", optional requestAsk.2)],
  uiRequestFrame "notify" [
    ("message", required textSchema),
    ("notify_type", optional (.enum ["info", "warning", "error"]))]]

def byeFrameSchema : FrameSchema := broadcastFrame "bye" [("reason", required byeReasonSchema)]

/-- `serverFrameSchema` (lines 407–427). -/
def serverFrameSchema : FrameSchema := .union [
  pairOkFrameSchema,
  pairErrorFrameSchema,
  sessionReadyFrameSchema,
  userMessageStartedFrameSchema,
  userMessageStatusFrameSchema,
  timelineEventFrameSchema,
  timelinePartialFrameSchema,
  timelineEventFragmentFrameSchema,
  sessionHistoryChunkFrameSchema,
  protocolErrorFrameSchema,
  resetFrameSchema,
  pongFrameSchema,
  cancelledFrameSchema,
  actionOkFrameSchema,
  actionErrorFrameSchema,
  modelsListFrameSchema,
  queuedMessageStateFrameSchema,
  extensionUiRequestFrameSchema,
  byeFrameSchema]

/-! ## Patterns and refinements -/

/-- The characters `[\w.+-]` of the pattern of `imageMimeSchema` (line 64). -/
def isMimeChar (c : Char) : Bool :=
  c.isAlphanum || c = '_' || c = '.' || c = '+' || c = '-'

def isMime (text : List Char) : Bool :=
  let before := text.takeWhile isMimeChar
  let after := (text.dropWhile isMimeChar).drop 1
  !before.isEmpty && (text.dropWhile isMimeChar).head? == some '/' && !after.isEmpty &&
    after.all isMimeChar

def pattern : TextPattern → String → Bool
  | .base64, text => Base64.isText text.toList
  | .mime, text => isMime text.toList

/-- The refinement of `startedMessageSchema` (lines 196–203). -/
def checkStartedMessage (message : Json) : Bool :=
  !(textAt "origin" message == some "pwa" && (message.member? "sender_ref").isNone) &&
    !(textAt "origin" message != some "pwa" && (message.member? "sender_ref").isSome)

/-- The refinement of `timelineUserEventSchema` (`schema.ts`, lines 103–113). -/
def checkTimelineUserEvent (event : Json) : Bool :=
  textAt "event_id" event == textAt "message_id" event &&
    !(textAt "origin" event == some "pwa" && (event.member? "sender_ref").isNone) &&
    !(textAt "origin" event != some "pwa" && (event.member? "sender_ref").isSome)

/-- `validateHistoryChunk` (lines 297–311). -/
def validateHistoryChunk (value : Json) : Bool :=
  let eventIds := (itemsAt "events" value).map (textAt "event_id")
  let fragmentIds := (itemsAt "fragments" value).map (textAt "event_id")
  eventIds.all (fun eventId => !fragmentIds.contains eventId) && decide fragmentIds.Nodup

def refinement : FrameCheck → Json → Bool
  | .timelineUserEvent => checkTimelineUserEvent
  | .startedMessage => checkStartedMessage
  | .historyChunk => validateHistoryChunk

theorem refinement_eq : refinement = Protocol.FrameSchemas.refinement := by
  funext check
  cases check <;> rfl

/-- What the patterns and the refinements test. -/
def rules : Rules TextPattern FrameCheck where
  pattern := pattern
  refinement := refinement
  refinement_of_alike check value value' h := by
    rw [refinement_eq]
    exact Protocol.FrameSchemas.refinement_of_alike check value value' h

/-! ## The schemas of the extension -/

theorem rules_agree : Protocol.FrameSchemas.rules.Agree rules := by
  refine ⟨fun name text => ?_, fun check value => ?_⟩
  · cases name <;> rfl
  · exact congrFun (congrFun refinement_eq.symm check) value

/-- The schemas of both sides, each with its counterpart. -/
def counterparts : List (FrameSchema × FrameSchema) := [
  (Protocol.FrameSchemas.clientFrameSchema, clientFrameSchema),
  (Protocol.FrameSchemas.serverFrameSchema, serverFrameSchema),
  (Protocol.FrameSchemas.timelineEventFragmentSchema, timelineEventFragmentFrameSchema),
  (Protocol.FrameSchemas.historyFragmentSchema, historyFragmentSchema),
  (Protocol.FrameSchemas.sessionHistoryChunkSchema, sessionHistoryChunkFrameSchema),
  (Protocol.FrameSchemas.timelineEventSchema, timelineEventSchema),
  (Protocol.FrameSchemas.timelinePartialSchema, timelinePartialSchema)]

theorem counterparts_equivalent :
    (counterparts.all fun schemas => Schema.equivalent schemas.1 schemas.2) = true := by
  decide +kernel

theorem equivalent_of_mem {schema schema' : FrameSchema} (h : (schema, schema') ∈ counterparts) :
    Schema.equivalent schema schema' = true :=
  List.all_eq_true.mp counterparts_equivalent _ h

theorem client_equivalent :
    Schema.equivalent Protocol.FrameSchemas.clientFrameSchema clientFrameSchema = true :=
  equivalent_of_mem (.head _)

theorem server_equivalent :
    Schema.equivalent Protocol.FrameSchemas.serverFrameSchema serverFrameSchema = true :=
  equivalent_of_mem (.tail _ (.head _))

/-- The frame of a fragment. The extension tries it first, as the browser does. -/
theorem fragmentFrame_equivalent : Schema.equivalent
    Protocol.FrameSchemas.timelineEventFragmentSchema timelineEventFragmentFrameSchema = true :=
  equivalent_of_mem (.tail _ (.tail _ (.head _)))

theorem fragment_equivalent : Schema.equivalent
    Protocol.FrameSchemas.historyFragmentSchema historyFragmentSchema = true :=
  equivalent_of_mem (.tail _ (.tail _ (.tail _ (.head _))))

theorem chunk_equivalent : Schema.equivalent
    Protocol.FrameSchemas.sessionHistoryChunkSchema sessionHistoryChunkFrameSchema = true :=
  equivalent_of_mem (.tail _ (.tail _ (.tail _ (.tail _ (.head _)))))

theorem event_equivalent : Schema.equivalent
    Protocol.FrameSchemas.timelineEventSchema timelineEventSchema = true :=
  equivalent_of_mem (.tail _ (.tail _ (.tail _ (.tail _ (.tail _ (.head _))))))

theorem partial_equivalent : Schema.equivalent
    Protocol.FrameSchemas.timelinePartialSchema timelinePartialSchema = true :=
  equivalent_of_mem (.tail _ (.tail _ (.tail _ (.tail _ (.tail _ (.tail _ (.head _)))))))

end RemotePi.Pwa.FrameSchemas
