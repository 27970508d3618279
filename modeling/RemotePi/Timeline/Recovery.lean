import RemotePi.Lib.Trim
import RemotePi.Timeline.V2Service

/-!
# Timeline events of a session

Model of the part of `TimelineRuntime` (`pi-extension/src/timeline/runtime.ts`) that
makes timeline events of the entries of a session branch, and of the schema that
they must pass (`protocol/v2/schemas.ts`).

A message is preceded by a marker, a custom entry that carries the id and the group
of its event. `recover` finds the message of every marker by scanning forward, and
makes legacy events of the messages without a marker.

Results:
* `mem_claimed_iff`: which messages the markers of a branch claim.
* `recover_isSome_iff`: recovery throws exactly when a message breaks a bound of the
  schema.
-/

namespace RemotePi.Timeline

open RemotePi.Lib RemotePi.Protocol

/-! ## Values of the session -/

/-- A JavaScript value in memory, as a finite tree. `notFinite` is a number that JSON lacks,
    `other` a value of another type; the values of parsed JSON are `Lib.JsValue`. -/
inductive JsValue where
  | undefined
  | null
  | bool (value : Bool)
  | number (value : ℚ)
  | notFinite
  | string (value : String)
  | array (items : List JsValue)
  | object (members : List (String × JsValue))
  | other

namespace JsValue

/-- The member of a value; `undefined` where it has none. -/
def member (value : JsValue) (key : String) : JsValue :=
  match value with
  | .object members => (members.lookup key).getD .undefined
  | _ => .undefined

def string? : JsValue → Option String
  | .string s => some s
  | _ => none

end JsValue

mutual

/-- `jsonValue` (lines 551–561). A member named `__proto__` sets the prototype of the
    result and is no member of it. -/
def jsonValue : JsValue → Json
  | .null => .null
  | .bool b => .bool b
  | .string s => .string s
  | .number q => .number q
  | .array items => .array (jsonItems items)
  | .object members => .object (jsonMembers members)
  | .notFinite => .null
  | .undefined => .null
  | .other => .null

def jsonItems : List JsValue → List Json
  | [] => []
  | value :: items => jsonValue value :: jsonItems items

def jsonMembers : List (String × JsValue) → List (String × Json)
  | [] => []
  | (key, value) :: members =>
    if key = "__proto__" then jsonMembers members else (key, jsonValue value) :: jsonMembers members

end

/-- `MessageRecord` (lines 19–32). -/
structure MessageRecord where
  role : MessageRole
  content : JsValue
  /-- none where it is missing or not finite -/
  timestamp : Option ℚ
  stopReason : Option String
  errorMessage : Option String
  toolCallId : Option String
  toolName : Option String
  isError : Bool
  args : JsValue
  api : Option String
  provider : Option String
  model : Option String

/-- What an entry of the session holds. A message of another role than those of
    `MessageRole` has no record (`asMessageRecord`, lines 484–490). -/
inductive EntryContent where
  | message (record : Option MessageRecord)
  | custom (customType : String) (data : JsValue)
  | compaction (summary firstKeptEntryId : String) (tokensBefore : ℚ) (fromHook : Bool)
      (details : JsValue)
  | branchSummary (summary fromId : String) (fromHook : Bool) (details : JsValue)
  /-- A model change, a label and so on. -/
  | other

structure SessionEntry where
  id : String
  timestamp : String
  content : EntryContent

/-- `TIMELINE_MARKER` (line 13). -/
def timelineMarker : String := "remote-pi:timeline-v2"

/-! ## Schemas -/

/-- `MAX_TEXT_CHARS` (`schemas.ts`, line 10). -/
def maxTextChars : ℕ := 1024 * 1024

def boundedText (s : String) : Bool := utf16Length s ≤ maxTextChars

def nonEmptyText (s : String) : Bool := boundedText s && 1 ≤ utf16Length s

mutual

/-- `JsonValueSchema` (lines 30–39). -/
def validJson : Json → Bool
  | .null => true
  | .bool _ => true
  | .number _ => true
  | .string s => boundedText s
  | .array items => items.length ≤ maxArrayItems && validItems items
  | .object members => validMembers members

def validItems : List Json → Bool
  | [] => true
  | value :: items => validJson value && validItems items

def validMembers : List (String × Json) → Bool
  | [] => true
  | (key, value) :: members =>
    utf16Length key ≤ maxIdChars && validJson value && validMembers members

end

/-- A character of a MIME type. -/
def isMimeChar (c : Char) : Bool :=
  ('a' ≤ c && c ≤ 'z') || ('A' ≤ c && c ≤ 'Z') || ('0' ≤ c && c ≤ '9') ||
    c = '_' || c = '.' || c = '+' || c = '-'

/-- `imageMime` (line 51): two parts with a slash between them. -/
def validMime (s : String) : Bool :=
  let (type, rest) := s.toList.span fun c => c ≠ '/'
  1 ≤ utf16Length s && utf16Length s ≤ 128 &&
    !type.isEmpty && type.all isMimeChar && 2 ≤ rest.length && (rest.drop 1).all isMimeChar

/-- `userBlock` (lines 41–66); the runtime makes no other blocks. -/
def validUserBlock : UserBlock → Bool
  | .text text => boundedText text
  | .image mimeType data byteLength =>
    validMime mimeType && 1 ≤ utf16Length data && utf16Length data ≤ maxWindowDecodeBytes &&
      byteLength ≤ maxWindowDecodeBytes

/-- A text or a thinking block. -/
structure AssistantBlock where
  thinking : Bool
  text : String
deriving DecidableEq

inductive SystemKind where
  | compaction
  | branchSummary
  | custom
deriving DecidableEq, Repr

/-- What the kinds of timeline events hold (lines 84–158). The runtime leaves the
    group of a system event out and marks nothing as truncated. -/
inductive EventBody where
  | user (groupId messageId : String) (blocks : List UserBlock) (origin : MessageOrigin)
      (senderRef : Option String) (delivery : MessageDelivery)
  | assistant (groupId : String) (blocks : List AssistantBlock) (interrupted : Bool)
  | tool (groupId toolCallId tool : String) (args result : Json)
  | toolError (groupId toolCallId tool : String) (args : Json) (error : String)
  | providerError (groupId message : String)
  | system (kind : SystemKind) (payload : Json)

structure FormalEvent where
  eventId : String
  sessionId : String
  historyGeneration : String
  timestamp : ℚ
  body : EventBody

/-- The origin and the sender of a user event or marker go together. -/
def validSender (origin : MessageOrigin) (senderRef : Option String) : Bool :=
  senderRef.all validId && (senderRef.isSome == decide (origin = .pwa))

/-- The bounds of an event of each kind. -/
def validBody (eventId : String) : EventBody → Bool
  | .user groupId messageId blocks origin senderRef _ =>
    validId groupId && validId messageId && blocks.length ≤ maxArrayItems &&
      blocks.all validUserBlock && validSender origin senderRef && eventId = messageId
  | .assistant groupId blocks _ =>
    validId groupId && blocks.length ≤ maxArrayItems && blocks.all fun b => boundedText b.text
  | .tool groupId toolCallId tool args result =>
    validId groupId && validId toolCallId && nonEmptyText tool && validJson args &&
      validJson result
  | .toolError groupId toolCallId tool args error =>
    validId groupId && validId toolCallId && nonEmptyText tool && validJson args &&
      nonEmptyText error
  | .providerError groupId message => validId groupId && nonEmptyText message
  | .system _ payload => validJson payload

/-- `TimelineEventSchema` (lines 151–158). -/
def validEvent (event : FormalEvent) : Bool :=
  validId event.eventId && validId event.sessionId && validId event.historyGeneration &&
    0 ≤ event.timestamp && validBody event.eventId event.body

/-- `TimelineEventSchema.parse`; none where it throws. -/
def parseEvent (event : FormalEvent) : Option FormalEvent :=
  if validEvent event then some event else none

/-! ## Markers -/

/-- The kinds of the markers of a group (line 457). -/
inductive GroupedKind where
  | assistant
  | tool
  | providerError
deriving DecidableEq, Repr

/-- `MarkerV2` (`schemas.ts`, lines 441–460). -/
inductive Marker where
  | user (eventId groupId : String) (messageId : Option String) (origin : MessageOrigin)
      (delivery : MessageDelivery) (senderRef : Option String)
  | grouped (eventId groupId : String) (kind : GroupedKind)
  | system (eventId : String) (kind : SystemKind) (groupId : Option String)
deriving DecidableEq

namespace Marker

def eventId : Marker → String
  | .user eventId _ _ _ _ _ => eventId
  | .grouped eventId _ _ => eventId
  | .system eventId _ _ => eventId

def groupId : Marker → Option String
  | .user _ groupId _ _ _ _ => some groupId
  | .grouped _ groupId _ => some groupId
  | .system _ _ groupId => groupId

/-- The checks of `MarkerSchemaV2`. -/
def valid : Marker → Bool
  | .user eventId groupId messageId origin _ senderRef =>
    validId eventId && validId groupId && messageId.all validId &&
      messageId.all (fun id => id = eventId) && validSender origin senderRef
  | .grouped eventId groupId _ => validId eventId && validId groupId
  | .system eventId _ groupId => validId eventId && groupId.all validId

end Marker

def origin? : String → Option MessageOrigin
  | "pwa" => some .pwa
  | "extension" => some .extension
  | "unknown" => some .unknown
  | _ => none

def delivery? : String → Option MessageDelivery
  | "normal" => some .normal
  | "queued" => some .queued
  | "unknown" => some .unknown
  | _ => none

def groupedKind? : String → Option GroupedKind
  | "assistant" => some .assistant
  | "tool" => some .tool
  | "provider_error" => some .providerError
  | _ => none

def systemKind? : String → Option SystemKind
  | "compaction" => some .compaction
  | "branch_summary" => some .branchSummary
  | "custom" => some .custom
  | _ => none

/-- An optional member that holds a text: `some none` where it is undefined. -/
def optionalText (value : JsValue) (key : String) : Option (Option String) :=
  match value.member key with
  | .undefined => some none
  | .string s => some (some s)
  | _ => none

/-- The object has no other members (`strictObject`). -/
def onlyMembers (value : JsValue) (keys : List String) : Bool :=
  match value with
  | .object members => members.all fun m => keys.contains m.1
  | _ => false

def readUserMarker (data : JsValue) : Option Marker := do
  if onlyMembers data ["version", "event_id", "group_id", "kind", "message_id", "origin",
      "delivery", "sender_ref"] then
    let eventId ← (data.member "event_id").string?
    let groupId ← (data.member "group_id").string?
    let messageId ← optionalText data "message_id"
    let origin ← (data.member "origin").string?.bind origin?
    let delivery ← (data.member "delivery").string?.bind delivery?
    let senderRef ← optionalText data "sender_ref"
    some (.user eventId groupId messageId origin delivery senderRef)
  else none

def readGroupedMarker (data : JsValue) (kind : GroupedKind) : Option Marker := do
  if onlyMembers data ["version", "event_id", "group_id", "kind"] then
    let eventId ← (data.member "event_id").string?
    let groupId ← (data.member "group_id").string?
    some (.grouped eventId groupId kind)
  else none

def readSystemMarker (data : JsValue) (kind : SystemKind) : Option Marker := do
  if onlyMembers data ["version", "event_id", "group_id", "kind"] then
    let eventId ← (data.member "event_id").string?
    let groupId ← optionalText data "group_id"
    some (.system eventId kind groupId)
  else none

/-- Reads the members of a marker by its kind. -/
def readMarker (data : JsValue) : Option Marker := do
  let kind ← (data.member "kind").string?
  match data.member "version" with
  | .number version =>
    if version ≠ 2 then none
    else if kind = "user" then readUserMarker data
    else
      match groupedKind? kind, systemKind? kind with
      | some kind, _ => readGroupedMarker data kind
      | none, some kind => readSystemMarker data kind
      | none, none => none
  | _ => none

/-- `parseMarker` (lines 361–364). -/
def parseMarker (data : JsValue) : Option Marker := (readMarker data).filter Marker.valid

/-- `roleForMarker` (lines 375–378). -/
def roleForMarker : Marker → MessageRole
  | .user _ _ _ _ _ _ => .user
  | .grouped _ _ .assistant => .assistant
  | .grouped _ _ _ => .toolResult
  | .system _ _ _ => .toolResult

/-- `correlationFromMarker` (lines 366–373). -/
def correlationFromMarker : Marker → Correlation
  | .user _ _ _ origin delivery senderRef =>
    ⟨none, none, none, origin, delivery, senderRef.filter fun s => s ≠ ""⟩
  | _ => ⟨none, none, none, .unknown, .unknown, none⟩

/-! ## Contents -/

/-- What the runtime reads of its surroundings: `Date.parse`, the clock, and the length
    of decoded base64. -/
structure HostRules where
  dateParse : String → Option ℚ
  now : ℚ
  now_nonneg : 0 ≤ now
  base64Length : String → ℕ

/-- `nonEmpty` (lines 539–541). -/
def nonEmpty (value : String) : String :=
  if trimmed value = "" then "tool failed" else trimmed value

/-- `timestamp` (lines 496–501). -/
def eventTimestamp (rules : HostRules) (entryTimestamp : String) (messageTimestamp : Option ℚ) : ℚ :=
  match (rules.dateParse entryTimestamp).filter fun t => 0 ≤ t with
  | some t => t
  | none => (messageTimestamp.filter fun t => 0 ≤ t).getD rules.now

def userBlock? (rules : HostRules) (part : JsValue) : Option UserBlock :=
  match part.member "type", part.member "text", part.member "data", part.member "mimeType" with
  | .string "text", .string text, _, _ => some (.text text)
  | .string "image", _, .string data, .string mimeType =>
    some (.image mimeType data (rules.base64Length data))
  | _, _, _, _ => none

/-- `userBlocks` (lines 503–515). -/
def userBlocks (rules : HostRules) : JsValue → List UserBlock
  | .string text => [.text text]
  | .array parts => parts.filterMap (userBlock? rules)
  | _ => [.text ""]

def assistantBlock? (part : JsValue) : Option AssistantBlock :=
  match part.member "type", part.member "text", part.member "thinking" with
  | .string "text", .string text, _ => some ⟨false, text⟩
  | .string "thinking", _, .string thinking => some ⟨true, thinking⟩
  | _, _, _ => none

/-- `assistantBlocks` (lines 517–527). -/
def assistantBlocks : JsValue → List AssistantBlock
  | .string text => [⟨false, text⟩]
  | .array parts => parts.filterMap assistantBlock?
  | _ => []

/-- `textFromContent` (lines 529–537). -/
def textFromContent : JsValue → String
  | .string text => text
  | .array parts => " ".intercalate (parts.filterMap fun part => (part.member "text").string?)
  | _ => ""

/-! ## Events of messages -/

/-- What the session manager and the generation provider say of the session. -/
structure SessionScope where
  sessionId : String
  historyGeneration : String
deriving DecidableEq

/-- `this.jsonValue(message.args ?? {})`. -/
def toolArgs : JsValue → Json
  | .undefined => .object []
  | .null => .object []
  | args => jsonValue args

/-- What `toTimelineEvent` gives to the schema for a message (lines 395–433). -/
def messageBody (rules : HostRules) (message : MessageRecord) (marker : Marker)
    (correlation : Correlation) : EventBody :=
  let groupId := marker.groupId.getD ""
  match message.role with
  | .user =>
    let senderRef :=
      match marker with
      | .user _ _ _ _ _ senderRef => senderRef.filter fun s => s ≠ ""
      | _ => none
    .user groupId marker.eventId (userBlocks rules message.content) correlation.origin senderRef
      correlation.delivery
  | .assistant =>
    if message.stopReason = some "error" then
      .providerError groupId
        (nonEmpty (message.errorMessage.getD (textFromContent message.content)))
    else
      .assistant groupId (assistantBlocks message.content)
        (decide (message.stopReason = some "aborted"))
  | .toolResult =>
    let toolCallId := message.toolCallId.getD marker.eventId
    let tool := message.toolName.getD "unknown"
    let args := toolArgs message.args
    if message.isError then
      .toolError groupId toolCallId tool args
        (nonEmpty (message.errorMessage.getD (textFromContent message.content)))
    else .tool groupId toolCallId tool args (jsonValue message.content)

/-- `toTimelineEvent` (lines 391–434) for an entry that holds a record; none where the
    schema throws. -/
def toTimelineEvent (rules : HostRules) (scope : SessionScope) (entry : SessionEntry)
    (message : MessageRecord) (marker : Marker) (correlation : Correlation) : Option FormalEvent :=
  parseEvent
    { eventId := marker.eventId
      sessionId := scope.sessionId
      historyGeneration := scope.historyGeneration
      timestamp := eventTimestamp rules entry.timestamp message.timestamp
      body := messageBody rules message marker correlation }

/-- The payload of a system event (lines 445–479). -/
def systemBody : EntryContent → Option EventBody
  | .compaction summary firstKeptEntryId tokensBefore fromHook details =>
    some (.system .compaction (.object
      ([("summary", .string summary), ("first_kept_entry_id", .string firstKeptEntryId),
        ("tokens_before", .number tokensBefore), ("from_hook", .bool fromHook)] ++
        match details with
        | .undefined => []
        | details => [("details", jsonValue details)])))
  | .branchSummary summary fromId fromHook details =>
    some (.system .branchSummary (.object
      ([("summary", .string summary), ("from_id", .string fromId), ("from_hook", .bool fromHook)] ++
        match details with
        | .undefined => []
        | details => [("details", jsonValue details)])))
  | .custom customType data =>
    if customType = timelineMarker then none
    else
      some (.system .custom (.object
        ([("custom_type", .string customType)] ++
          match data with
          | .undefined => []
          | data => [("data", jsonValue data)])))
  | .message _ => none
  | .other => none

/-- `toSystemEvent` (lines 436–482): an event that breaks a bound is dropped. -/
def toSystemEvent (rules : HostRules) (scope : SessionScope) (entry : SessionEntry) :
    Option FormalEvent :=
  (systemBody entry.content).bind fun body =>
    parseEvent
      { eventId := entry.id
        sessionId := scope.sessionId
        historyGeneration := scope.historyGeneration
        timestamp := eventTimestamp rules entry.timestamp none
        body }

/-! ## Recovery -/

/-- The record of a message that the runtime knows (`messageRole`, lines 492–494). -/
def SessionEntry.record? (entry : SessionEntry) : Option MessageRecord :=
  match entry.content with
  | .message record => record
  | _ => none

def SessionEntry.isMarker (entry : SessionEntry) : Bool :=
  match entry.content with
  | .custom customType _ => customType = timelineMarker
  | _ => false

/-- `markerEventId` (`history.ts`, lines 460–465). -/
def SessionEntry.markerEventId? (entry : SessionEntry) : Option String :=
  match entry.content with
  | .custom customType data =>
    if customType = timelineMarker then (data.member "event_id").string? else none
  | _ => none

/-- The marker of an entry that `recover` accepts (lines 247–249). -/
def SessionEntry.marker? (entry : SessionEntry) : Option Marker :=
  match entry.content with
  | .custom customType data => if customType = timelineMarker then parseMarker data else none
  | _ => none

/-- `scanTargetAfterMarker` (lines 380–389) on the entries after the marker. -/
def scanTarget (role : MessageRole) : List SessionEntry → Option (SessionEntry × MessageRecord)
  | [] => none
  | entry :: entries =>
    match entry.content with
    | .custom customType _ => if customType = timelineMarker then none else scanTarget role entries
    | .message (some record) => if record.role = role then some (entry, record) else none
    | _ => none

/-- The first loop of `recover` (lines 245–256): the messages that markers claim. -/
def claimed : List SessionEntry → List (SessionEntry × MessageRecord × Marker)
  | [] => []
  | entry :: entries =>
    match entry.marker? with
    | none => claimed entries
    | some marker =>
      match scanTarget (roleForMarker marker) entries with
      | none => claimed entries
      | some (target, record) => (target, record, marker) :: claimed entries

/-- The marker that stands for a message without one (lines 262–264). -/
def legacyMarker (sessionId : String) (entry : SessionEntry) (role : MessageRole) : Marker :=
  let eventId := "legacy:" ++ entry.id
  let groupId := "legacy:" ++ sessionId
  match role with
  | .user => .user eventId groupId none .unknown .unknown none
  | .assistant => .grouped eventId groupId .assistant
  | .toolResult => .grouped eventId groupId .tool

/-- The second loop of `recover` (lines 257–267): the messages that no marker claims. -/
def unclaimed (sessionId : String) (branch : List SessionEntry) :
    List (SessionEntry × MessageRecord × Marker) :=
  let matched := (claimed branch).map fun c => c.1.id
  branch.filterMap fun entry =>
    match entry.record? with
    | none => none
    | some record =>
      if matched.contains entry.id then none
      else some (entry, record, legacyMarker sessionId entry record.role)

/-- The messages that `recover` makes events of, with their markers. -/
def recoveredMessages (sessionId : String) (branch : List SessionEntry) :
    List (SessionEntry × MessageRecord × Marker) :=
  claimed branch ++ unclaimed sessionId branch

/-- The event of a message that has been found. -/
def messageEvent (rules : HostRules) (scope : SessionScope)
    (found : SessionEntry × MessageRecord × Marker) : Option FormalEvent :=
  toTimelineEvent rules scope found.1 found.2.1 found.2.2 (correlationFromMarker found.2.2)

/-- `recover` (lines 240–273); none where it throws. -/
def recover (rules : HostRules) (scope : SessionScope) (branch : List SessionEntry) :
    Option (List FormalEvent) :=
  ((recoveredMessages scope.sessionId branch).mapM (messageEvent rules scope)).map fun messages =>
    messages ++ branch.filterMap (toSystemEvent rules scope)

theorem legacyMarker_eventId (sessionId : String) (entry : SessionEntry) (role : MessageRole) :
    (legacyMarker sessionId entry role).eventId = "legacy:" ++ entry.id := by
  cases role <;> rfl

/-! ## Scanning -/

/-- A custom entry other than a marker: the scan passes over it. -/
def SessionEntry.isNote (entry : SessionEntry) : Bool :=
  match entry.content with
  | .custom customType _ => customType ≠ timelineMarker
  | _ => false

/-- The message of an entry, if it has the role. -/
def SessionEntry.target? (entry : SessionEntry) (role : MessageRole) :
    Option (SessionEntry × MessageRecord) :=
  (entry.record?.filter fun record => record.role = role).map fun record => (entry, record)

/-- The scan looks at the first entry that is no note. -/
theorem scanTarget_eq (role : MessageRole) (entries : List SessionEntry) :
    scanTarget role entries =
      (entries.find? fun entry => !entry.isNote).bind fun entry => entry.target? role := by
  induction entries with
  | nil => rfl
  | cons entry entries ih =>
    unfold scanTarget
    rw [List.find?_cons, SessionEntry.isNote]
    cases hcontent : entry.content with
    | custom customType data =>
      by_cases hmarker : customType = timelineMarker
      · simp [hmarker, SessionEntry.target?, SessionEntry.record?, hcontent]
      · simp [hmarker, ih]
    | message record =>
      cases record with
      | none => simp [SessionEntry.target?, SessionEntry.record?, hcontent]
      | some record =>
        by_cases hrole : record.role = role <;>
          simp [SessionEntry.target?, SessionEntry.record?, hcontent, hrole]
    | compaction => simp [SessionEntry.target?, SessionEntry.record?, hcontent]
    | branchSummary => simp [SessionEntry.target?, SessionEntry.record?, hcontent]
    | other => simp [SessionEntry.target?, SessionEntry.record?, hcontent]

theorem target?_eq_some {entry : SessionEntry} {role : MessageRole}
    {target : SessionEntry × MessageRecord} :
    entry.target? role = some target ↔
      target.1 = entry ∧ entry.record? = some target.2 ∧ target.2.role = role := by
  unfold SessionEntry.target?
  rw [Option.map_eq_some_iff]
  constructor
  · rintro ⟨record, hrecord, rfl⟩
    obtain ⟨hrecord, hrole⟩ := Option.filter_eq_some_iff.mp hrecord
    exact ⟨rfl, hrecord, of_decide_eq_true hrole⟩
  · rintro ⟨rfl, hrecord, hrole⟩
    exact ⟨target.2, Option.filter_eq_some_iff.mpr ⟨hrecord, decide_eq_true hrole⟩, rfl⟩

theorem scanTarget_eq_some {role : MessageRole} {entries : List SessionEntry}
    {target : SessionEntry × MessageRecord} (h : scanTarget role entries = some target) :
    target.1 ∈ entries ∧ target.1.record? = some target.2 ∧ target.2.role = role := by
  rw [scanTarget_eq, Option.bind_eq_some_iff] at h
  obtain ⟨entry, hfind, htarget⟩ := h
  obtain ⟨rfl, hrecord, hrole⟩ := target?_eq_some.mp htarget
  exact ⟨List.mem_of_find?_eq_some hfind, hrecord, hrole⟩

theorem scanTarget_append {role : MessageRole} {entries : List SessionEntry}
    {target : SessionEntry × MessageRecord} (h : scanTarget role entries = some target)
    (more : List SessionEntry) : scanTarget role (entries ++ more) = some target := by
  rw [scanTarget_eq, Option.bind_eq_some_iff] at h
  obtain ⟨entry, hfind, htarget⟩ := h
  rw [scanTarget_eq, List.find?_append, hfind, Option.some_or, Option.bind_some, htarget]

/-- A scan that finds its message only among the entries that follow has seen nothing but
    notes. -/
theorem scanTarget_of_append {role : MessageRole} {entries more : List SessionEntry}
    {target : SessionEntry × MessageRecord} (hnone : scanTarget role entries = none)
    (h : scanTarget role (entries ++ more) = some target) :
    (∀ entry ∈ entries, entry.isNote = true) ∧ scanTarget role more = some target := by
  rw [scanTarget_eq, List.find?_append] at h
  rw [scanTarget_eq] at hnone
  cases hfind : entries.find? fun entry => !entry.isNote with
  | some entry =>
    rw [hfind, Option.some_or] at h
    rw [hfind, h] at hnone
    cases hnone
  | none =>
    rw [hfind, Option.none_or] at h
    refine ⟨fun entry hentry => ?_, by rw [scanTarget_eq]; exact h⟩
    simpa using List.find?_eq_none.mp hfind entry hentry

/-- A message is claimed by a marker before it that finds it. -/
theorem mem_claimed_iff {branch : List SessionEntry} {found : SessionEntry × MessageRecord × Marker} :
    found ∈ claimed branch ↔ ∃ before entry after, branch = before ++ entry :: after ∧
      entry.marker? = some found.2.2 ∧
        scanTarget (roleForMarker found.2.2) after = some (found.1, found.2.1) := by
  induction branch with
  | nil => simp [claimed]
  | cons first rest ih =>
    have htail : (∃ before entry after, first :: rest = before ++ entry :: after ∧
        entry.marker? = some found.2.2 ∧
          scanTarget (roleForMarker found.2.2) after = some (found.1, found.2.1)) ↔
        (first.marker? = some found.2.2 ∧
          scanTarget (roleForMarker found.2.2) rest = some (found.1, found.2.1)) ∨
        found ∈ claimed rest := by
      rw [ih]
      constructor
      · rintro ⟨before, entry, after, hsplit, hmarker, hscan⟩
        cases before with
        | nil =>
          obtain ⟨rfl, rfl⟩ := List.cons_eq_cons.mp hsplit
          exact Or.inl ⟨hmarker, hscan⟩
        | cons head before =>
          obtain ⟨-, hrest⟩ := List.cons_eq_cons.mp hsplit
          exact Or.inr ⟨before, entry, after, hrest, hmarker, hscan⟩
      · rintro (⟨hmarker, hscan⟩ | ⟨before, entry, after, rfl, hmarker, hscan⟩)
        · exact ⟨[], first, rest, rfl, hmarker, hscan⟩
        · exact ⟨first :: before, entry, after, rfl, hmarker, hscan⟩
    rw [htail, claimed]
    cases hmarker : first.marker? with
    | none => simp
    | some marker =>
      dsimp only
      cases hscan : scanTarget (roleForMarker marker) rest with
      | none =>
        refine ⟨Or.inr, fun h => h.resolve_left ?_⟩
        rintro ⟨heq, hfound⟩
        cases heq
        rw [hscan] at hfound
        cases hfound
      | some target =>
        obtain ⟨target, record⟩ := target
        dsimp only
        rw [List.mem_cons]
        refine or_congr_left ⟨?_, ?_⟩
        · rintro rfl
          exact ⟨rfl, hscan⟩
        · rintro ⟨heq, hfound⟩
          cases heq
          rw [hscan] at hfound
          cases hfound
          rfl

theorem eventId_of_readMarker {data : JsValue} {marker : Marker}
    (h : readMarker data = some marker) : (data.member "event_id").string? = some marker.eventId := by
  have huser : readUserMarker data = some marker →
      (data.member "event_id").string? = some marker.eventId := by
    intro h
    unfold readUserMarker at h
    split_ifs at h
    simp only [Option.bind_eq_bind, Option.bind_eq_some_iff, Option.some.injEq] at h
    obtain ⟨eventId, hid, -, -, -, -, -, -, -, -, -, -, rfl⟩ := h
    exact hid
  have hgrouped : ∀ kind, readGroupedMarker data kind = some marker →
      (data.member "event_id").string? = some marker.eventId := by
    intro kind h
    unfold readGroupedMarker at h
    split_ifs at h
    simp only [Option.bind_eq_bind, Option.bind_eq_some_iff, Option.some.injEq] at h
    obtain ⟨eventId, hid, -, -, rfl⟩ := h
    exact hid
  have hsystem : ∀ kind, readSystemMarker data kind = some marker →
      (data.member "event_id").string? = some marker.eventId := by
    intro kind h
    unfold readSystemMarker at h
    split_ifs at h
    simp only [Option.bind_eq_bind, Option.bind_eq_some_iff, Option.some.injEq] at h
    obtain ⟨eventId, hid, -, -, rfl⟩ := h
    exact hid
  unfold readMarker at h
  rw [Option.bind_eq_bind, Option.bind_eq_some_iff] at h
  obtain ⟨kind, -, h⟩ := h
  split at h
  · split_ifs at h
    · exact huser h
    · split at h
      · exact hgrouped _ h
      · exact hsystem _ h
      · cases h
  · cases h

theorem valid_of_marker? {entry : SessionEntry} {marker : Marker}
    (h : entry.marker? = some marker) : marker.valid = true := by
  unfold SessionEntry.marker? at h
  cases hcontent : entry.content with
  | custom customType data =>
    rw [hcontent] at h
    dsimp only at h
    by_cases hmarker : customType = timelineMarker
    · rw [if_pos hmarker, parseMarker, Option.filter_eq_some_iff] at h
      exact h.2
    · rw [if_neg hmarker] at h
      cases h
  | message record => rw [hcontent] at h; cases h
  | compaction => rw [hcontent] at h; cases h
  | branchSummary => rw [hcontent] at h; cases h
  | other => rw [hcontent] at h; cases h

theorem markerEventId?_of_marker? {entry : SessionEntry} {marker : Marker}
    (h : entry.marker? = some marker) : entry.markerEventId? = some marker.eventId := by
  unfold SessionEntry.marker? at h
  unfold SessionEntry.markerEventId?
  cases hcontent : entry.content with
  | custom customType data =>
    rw [hcontent] at h
    dsimp only at h ⊢
    split_ifs at h ⊢ with hmarker
    obtain ⟨hread, -⟩ := Option.filter_eq_some_iff.mp h
    exact eventId_of_readMarker hread
  | message record => rw [hcontent] at h; cases h
  | compaction => rw [hcontent] at h; cases h
  | branchSummary => rw [hcontent] at h; cases h
  | other => rw [hcontent] at h; cases h

theorem isNote_eq_false_of_marker? {entry : SessionEntry} {marker : Marker}
    (h : entry.marker? = some marker) : entry.isNote = false := by
  unfold SessionEntry.marker? at h
  unfold SessionEntry.isNote
  cases hcontent : entry.content with
  | custom customType data =>
    rw [hcontent] at h
    dsimp only at h ⊢
    split_ifs at h with hmarker
    simp [hmarker]
  | message record => rfl
  | compaction => rfl
  | branchSummary => rfl
  | other => rfl

/-! ## Branches that grow -/

theorem claimed_notes {branch : List SessionEntry} (h : ∀ entry ∈ branch, entry.isNote = true)
    (more : List SessionEntry) : claimed (branch ++ more) = claimed more := by
  induction branch with
  | nil => rfl
  | cons entry branch ih =>
    have hnone : entry.marker? = none := by
      cases hmarker : entry.marker? with
      | none => rfl
      | some marker =>
        have hnote := h entry List.mem_cons_self
        rw [isNote_eq_false_of_marker? hmarker] at hnote
        cases hnote
    rw [List.cons_append, claimed, hnone]
    exact ih fun entry hentry => h entry (List.mem_cons_of_mem _ hentry)

/-- A message that follows a branch is claimed by a marker of the branch only when all that
    stands between them is notes. -/
def ClaimedAcross (branch more : List SessionEntry)
    (found : SessionEntry × MessageRecord × Marker) : Prop :=
  ∃ before entry after, branch = before ++ entry :: after ∧ entry.marker? = some found.2.2 ∧
    (∀ note ∈ after, note.isNote = true) ∧
      scanTarget (roleForMarker found.2.2) more = some (found.1, found.2.1)

/-- The claims of a branch stay when it grows; its last marker may find its message. -/
theorem claimed_append (branch more : List SessionEntry) :
    ∃ across, claimed (branch ++ more) = claimed branch ++ across ++ claimed more ∧
      ∀ found ∈ across, ClaimedAcross branch more found := by
  induction branch with
  | nil => exact ⟨[], rfl, by simp⟩
  | cons entry branch ih =>
    obtain ⟨across, hclaimed, hacross⟩ := ih
    have hlater : ∀ found ∈ across, ClaimedAcross (entry :: branch) more found := by
      intro found hfound
      obtain ⟨before, marker, after, rfl, hmarker⟩ := hacross found hfound
      exact ⟨entry :: before, marker, after, rfl, hmarker⟩
    rw [List.cons_append, claimed, claimed]
    cases hmarker : entry.marker? with
    | none => exact ⟨across, hclaimed, hlater⟩
    | some marker =>
      dsimp only
      cases hscan : scanTarget (roleForMarker marker) branch with
      | some target =>
        rw [scanTarget_append hscan]
        refine ⟨across, ?_, hlater⟩
        dsimp only
        rw [hclaimed]
        rfl
      | none =>
        dsimp only
        cases hmore : scanTarget (roleForMarker marker) (branch ++ more) with
        | none => exact ⟨across, hclaimed, hlater⟩
        | some target =>
          obtain ⟨hnotes, htarget⟩ := scanTarget_of_append hscan hmore
          have hnil : claimed branch = [] := by
            have h := claimed_notes hnotes []
            rw [List.append_nil] at h
            exact h
          refine ⟨[(target.1, target.2, marker)], ?_, ?_⟩
          · dsimp only
            rw [claimed_notes hnotes, hnil]
            rfl
          · intro found hfound
            rw [List.mem_singleton] at hfound
            subst hfound
            exact ⟨[], entry, branch, rfl, hmarker, hnotes, htarget⟩

/-- The messages of the entries that follow a branch and that no marker claims. -/
theorem unclaimed_append {sessionId : String} {branch more : List SessionEntry}
    (hids : ((branch ++ more).map SessionEntry.id).Nodup) :
    ∃ later, unclaimed sessionId (branch ++ more) = unclaimed sessionId branch ++ later ∧
      ∀ found ∈ later, found.1 ∈ more ∧ found.1.record? = some found.2.1 ∧
        found.2.2 = legacyMarker sessionId found.1 found.2.1.role := by
  obtain ⟨across, hclaimed, hacross⟩ := claimed_append branch more
  have hmatched : ∀ entry ∈ branch,
      ((claimed (branch ++ more)).map fun c => c.1.id).contains entry.id =
        ((claimed branch).map fun c => c.1.id).contains entry.id := by
    intro entry hentry
    -- the targets of the other claims are entries of `more`
    have hother : ∀ found ∈ across ++ claimed more, found.1.id ≠ entry.id := by
      intro found hfound heq
      have hmem : found.1 ∈ more := by
        rcases List.mem_append.mp hfound with hfound | hfound
        · obtain ⟨-, -, -, -, -, -, hscan⟩ := hacross found hfound
          exact (scanTarget_eq_some hscan).1
        · obtain ⟨before, marker, after, rfl, -, hscan⟩ := mem_claimed_iff.mp hfound
          exact List.mem_append_right _ (List.mem_cons_of_mem _ (scanTarget_eq_some hscan).1)
      rw [List.map_append, List.nodup_append] at hids
      exact hids.2.2 entry.id (List.mem_map_of_mem hentry) found.1.id
        (List.mem_map_of_mem hmem) heq.symm
    rw [hclaimed, List.append_assoc, List.map_append, Bool.eq_iff_iff, List.contains_iff_mem,
      List.contains_iff_mem, List.mem_append]
    refine or_iff_left ?_
    intro hmem
    obtain ⟨found, hfound, heq⟩ := List.mem_map.mp hmem
    exact hother found hfound heq
  refine ⟨more.filterMap fun entry =>
    match entry.record? with
    | none => none
    | some record =>
      if ((claimed (branch ++ more)).map fun c => c.1.id).contains entry.id then none
      else some (entry, record, legacyMarker sessionId entry record.role), ?_, ?_⟩
  · unfold unclaimed
    dsimp only
    rw [List.filterMap_append]
    congr 1
    refine List.filterMap_congr fun entry hentry => ?_
    rw [hmatched entry hentry]
  · intro found hfound
    obtain ⟨entry, hentry, h⟩ := List.mem_filterMap.mp hfound
    cases hrecord : entry.record? with
    | none => rw [hrecord] at h; cases h
    | some record =>
      rw [hrecord] at h
      dsimp only at h
      split_ifs at h
      cases h
      exact ⟨hentry, hrecord, rfl⟩

/-! ## When recovery throws -/

/-- The bounds on what a message holds, by its role. -/
def ContentFits (rules : HostRules) (message : MessageRecord) : Prop :=
  match message.role with
  | .user =>
    (userBlocks rules message.content).length ≤ maxArrayItems ∧
      ∀ block ∈ userBlocks rules message.content, validUserBlock block = true
  | .assistant =>
    if message.stopReason = some "error" then
      boundedText (nonEmpty (message.errorMessage.getD (textFromContent message.content))) = true
    else
      (assistantBlocks message.content).length ≤ maxArrayItems ∧
        ∀ block ∈ assistantBlocks message.content, boundedText block.text = true
  | .toolResult =>
    (∀ toolCallId, message.toolCallId = some toolCallId → validId toolCallId = true) ∧
      (∀ tool, message.toolName = some tool → nonEmptyText tool = true) ∧
      validJson (jsonValue message.args) = true ∧
      if message.isError then
        boundedText (nonEmpty (message.errorMessage.getD (textFromContent message.content))) = true
      else validJson (jsonValue message.content) = true

/-- The event of a message stays within the schema: its ids are ids of the schema, and
    what it holds keeps the bounds. -/
def MessageFits (rules : HostRules) (scope : SessionScope)
    (found : SessionEntry × MessageRecord × Marker) : Prop :=
  validId scope.sessionId = true ∧ validId scope.historyGeneration = true ∧
    validId found.2.2.eventId = true ∧ (∃ groupId, found.2.2.groupId = some groupId ∧
      validId groupId = true) ∧ ContentFits rules found.2.1

theorem utf16Length_pos {s : String} (h : s ≠ "") : 1 ≤ utf16Length s := by
  have hne : s.toList ≠ [] := fun hnil => h (String.toList_inj.mp (by rw [hnil]; rfl))
  obtain ⟨c, cs, hcs⟩ := List.exists_cons_of_ne_nil hne
  unfold utf16Length
  rw [hcs, List.map_cons, List.sum_cons]
  split_ifs <;> omega

theorem nonEmpty_ne (value : String) : nonEmpty value ≠ "" := by
  unfold nonEmpty
  split_ifs with h
  · decide
  · exact h

theorem nonEmptyText_nonEmpty (value : String) :
    nonEmptyText (nonEmpty value) = boundedText (nonEmpty value) := by
  rw [nonEmptyText, decide_eq_true (utf16Length_pos (nonEmpty_ne value)), Bool.and_true]

theorem eventTimestamp_nonneg (rules : HostRules) (entryTimestamp : String)
    (messageTimestamp : Option ℚ) : 0 ≤ eventTimestamp rules entryTimestamp messageTimestamp := by
  unfold eventTimestamp
  cases hentry : (rules.dateParse entryTimestamp).filter fun t => 0 ≤ t with
  | some t => exact of_decide_eq_true (Option.filter_eq_some_iff.mp hentry).2
  | none =>
    dsimp only
    cases hmessage : messageTimestamp.filter fun t => 0 ≤ t with
    | some t => exact of_decide_eq_true (Option.filter_eq_some_iff.mp hmessage).2
    | none => exact rules.now_nonneg

theorem validJson_toolArgs (args : JsValue) :
    validJson (toolArgs args) = validJson (jsonValue args) := by
  unfold toolArgs
  cases args <;> simp [jsonValue, validJson, validMembers]

/-- The markers that recovery works with name the role of their message, and their
    sender fits their origin. -/
structure Suits (marker : Marker) (message : MessageRecord) : Prop where
  role : roleForMarker marker = message.role
  sender : ∀ eventId groupId messageId origin delivery senderRef,
    marker = .user eventId groupId messageId origin delivery senderRef →
      validSender origin senderRef = true

theorem validSender_filter {origin : MessageOrigin} {senderRef : Option String}
    (h : validSender origin senderRef = true) :
    validSender origin (senderRef.filter fun s => s ≠ "") = true := by
  cases senderRef with
  | none => exact h
  | some s =>
    have hs : s ≠ "" := by
      rintro rfl
      rw [validSender, Bool.and_eq_true] at h
      exact absurd h.1 (by decide)
    rwa [Option.filter_some, if_pos (decide_eq_true hs)]

theorem validBody_messageBody {rules : HostRules} {message : MessageRecord} {marker : Marker}
    (hsuits : Suits marker message) (hid : validId marker.eventId = true) :
    validBody marker.eventId (messageBody rules message marker (correlationFromMarker marker)) =
      true ↔ (∃ groupId, marker.groupId = some groupId ∧ validId groupId = true) ∧
        ContentFits rules message := by
  have hgroup : validId (marker.groupId.getD "") = true ↔
      ∃ groupId, marker.groupId = some groupId ∧ validId groupId = true := by
    cases hmarker : marker.groupId with
    | none => exact iff_of_false (by decide) (by simp)
    | some groupId => simp
  unfold messageBody ContentFits
  cases hrole : message.role with
  | user =>
    dsimp only
    obtain ⟨hmarker, hsender⟩ := hsuits
    rw [hrole] at hmarker
    cases marker with
    | user eventId groupId messageId origin delivery senderRef =>
      have hsent := validSender_filter (hsender _ _ _ _ _ _ rfl)
      have hid : validId eventId = true := hid
      simp only [validBody, Bool.and_eq_true, decide_eq_true_eq, hgroup, List.all_eq_true, hid,
        hsent, correlationFromMarker, Marker.eventId, and_true, and_assoc]
    | grouped eventId groupId kind => cases kind <;> cases hmarker
    | system eventId kind groupId => cases hmarker
  | assistant =>
    dsimp only
    split_ifs with herror
    · simp only [validBody, Bool.and_eq_true, hgroup, nonEmptyText_nonEmpty]
    · simp only [validBody, Bool.and_eq_true, decide_eq_true_eq, hgroup, List.all_eq_true]
      rw [and_assoc]
  | toolResult =>
    dsimp only
    have hcall : validId (message.toolCallId.getD marker.eventId) = true ↔
        ∀ toolCallId, message.toolCallId = some toolCallId → validId toolCallId = true := by
      cases message.toolCallId with
      | none => exact iff_of_true hid (by simp)
      | some toolCallId => simp
    have htool : nonEmptyText (message.toolName.getD "unknown") = true ↔
        ∀ tool, message.toolName = some tool → nonEmptyText tool = true := by
      cases message.toolName with
      | none => exact iff_of_true (by decide) (by simp)
      | some tool => simp
    by_cases herror : message.isError = true
    · rw [if_pos herror, if_pos herror]
      simp only [validBody, Bool.and_eq_true, hgroup, hcall, htool, validJson_toolArgs,
        nonEmptyText_nonEmpty, and_assoc]
    · rw [if_neg herror, if_neg herror]
      simp only [validBody, Bool.and_eq_true, hgroup, hcall, htool, validJson_toolArgs, and_assoc]

/-- The schema takes the event of a message exactly when the message fits. -/
theorem messageEvent_isSome {rules : HostRules} {scope : SessionScope}
    {found : SessionEntry × MessageRecord × Marker} (hsuits : Suits found.2.2 found.2.1) :
    (messageEvent rules scope found).isSome = true ↔ MessageFits rules scope found := by
  unfold messageEvent toTimelineEvent parseEvent MessageFits
  rw [Option.isSome_ite]
  simp only [validEvent, Bool.and_eq_true, decide_eq_true_eq, eventTimestamp_nonneg, and_true]
  constructor
  · rintro ⟨⟨⟨hid, hsession⟩, hgeneration⟩, hbody⟩
    obtain ⟨hgroup, hcontent⟩ := (validBody_messageBody hsuits hid).mp hbody
    exact ⟨hsession, hgeneration, hid, hgroup, hcontent⟩
  · rintro ⟨hsession, hgeneration, hid, hgroup, hcontent⟩
    exact ⟨⟨⟨hid, hsession⟩, hgeneration⟩, (validBody_messageBody hsuits hid).mpr ⟨hgroup, hcontent⟩⟩

theorem suits_recoveredMessages {sessionId : String} {branch : List SessionEntry}
    {found : SessionEntry × MessageRecord × Marker}
    (h : found ∈ recoveredMessages sessionId branch) : Suits found.2.2 found.2.1 := by
  rcases List.mem_append.mp h with h | h
  · obtain ⟨before, entry, after, -, hmarker, hscan⟩ := mem_claimed_iff.mp h
    refine ⟨(scanTarget_eq_some hscan).2.2.symm, ?_⟩
    intro eventId groupId messageId origin delivery senderRef heq
    have hvalid := valid_of_marker? hmarker
    rw [heq] at hvalid
    simp only [Marker.valid, Bool.and_eq_true] at hvalid
    exact hvalid.2
  · obtain ⟨entry, -, hentry⟩ := List.mem_filterMap.mp h
    cases hrecord : entry.record? with
    | none => rw [hrecord] at hentry; cases hentry
    | some record =>
      rw [hrecord] at hentry
      dsimp only at hentry
      split_ifs at hentry
      cases hentry
      unfold legacyMarker
      cases hrole : record.role with
      | user =>
        refine ⟨hrole.symm, ?_⟩
        intro eventId groupId messageId origin delivery senderRef heq
        cases heq
        rfl
      | assistant => exact ⟨hrole.symm, by simp⟩
      | toolResult => exact ⟨hrole.symm, by simp⟩

theorem mapM_isSome {α β : Type} {f : α → Option β} (l : List α) :
    (l.mapM f).isSome = true ↔ ∀ a ∈ l, (f a).isSome = true := by
  induction l with
  | nil => simp
  | cons a l ih =>
    rw [List.mapM_cons, List.forall_mem_cons, ← ih]
    cases f a with
    | none => simp
    | some b => cases l.mapM f <;> simp

theorem mapM_append_eq_some {α β : Type} {f : α → Option β} {l l' : List α} {r : List β} :
    (l ++ l').mapM f = some r ↔
      ∃ a b, l.mapM f = some a ∧ l'.mapM f = some b ∧ r = a ++ b := by
  rw [List.mapM_append]
  cases l.mapM f with
  | none => simp
  | some a => cases l'.mapM f <;> simp [eq_comm]

theorem exists_of_mem_mapM {α β : Type} {f : α → Option β} {l : List α} {r : List β}
    (h : l.mapM f = some r) {b : β} (hb : b ∈ r) : ∃ a ∈ l, f a = some b := by
  induction l generalizing r with
  | nil =>
    cases h
    cases hb
  | cons a l ih =>
    rw [← List.singleton_append, mapM_append_eq_some] at h
    obtain ⟨r₁, r₂, h₁, h₂, rfl⟩ := h
    rcases List.mem_append.mp hb with hb | hb
    · rw [List.mapM_cons] at h₁
      cases ha : f a with
      | none => simp [ha] at h₁
      | some b' =>
        simp only [ha, List.mapM_nil, Option.pure_def, Option.bind_eq_bind, Option.bind_some,
          Option.some.injEq] at h₁
        rw [← h₁, List.mem_singleton] at hb
        exact ⟨a, List.mem_cons_self, hb ▸ ha⟩
    · obtain ⟨a', ha', hfa⟩ := ih h₂ hb
      exact ⟨a', List.mem_cons_of_mem _ ha', hfa⟩

theorem mem_of_mapM {α β : Type} {f : α → Option β} {l : List α} {r : List β}
    (h : l.mapM f = some r) {a : α} (ha : a ∈ l) {b : β} (hb : f a = some b) : b ∈ r := by
  obtain ⟨before, after, rfl⟩ := List.append_of_mem ha
  obtain ⟨r₁, r₂, -, h₂, rfl⟩ := mapM_append_eq_some.mp h
  rw [List.mapM_cons, hb] at h₂
  cases hafter : after.mapM f with
  | none => simp [hafter] at h₂
  | some r₃ =>
    simp only [hafter, Option.pure_def, Option.bind_eq_bind, Option.bind_some,
      Option.some.injEq] at h₂
    rw [← h₂]
    exact List.mem_append_right _ List.mem_cons_self

/-- Recovery throws exactly when one of the messages that it converts does not fit. -/
theorem recover_isSome_iff (rules : HostRules) (scope : SessionScope)
    (branch : List SessionEntry) :
    (recover rules scope branch).isSome = true ↔
      ∀ found ∈ recoveredMessages scope.sessionId branch, MessageFits rules scope found := by
  unfold recover
  rw [Option.isSome_map, mapM_isSome]
  refine forall₂_congr fun found hfound => ?_
  exact messageEvent_isSome (suits_recoveredMessages hfound)

theorem map_of_mapM {α β γ : Type} {f : α → Option β} {g : α → γ} {k : β → γ}
    (hf : ∀ a b, f a = some b → k b = g a) {l : List α} {r : List β} (h : l.mapM f = some r) :
    r.map k = l.map g := by
  induction l generalizing r with
  | nil =>
    cases h
    rfl
  | cons a l ih =>
    rw [List.mapM_cons] at h
    cases ha : f a with
    | none => simp [ha] at h
    | some b =>
      cases hl : l.mapM f with
      | none => simp [ha, hl] at h
      | some rest =>
        simp only [ha, hl, Option.pure_def, Option.bind_eq_bind, Option.bind_some,
          Option.some.injEq] at h
        rw [← h, List.map_cons, List.map_cons, hf a b ha, ih hl]

theorem valid_of_parseEvent {event parsed : FormalEvent} (h : parseEvent event = some parsed) :
    parsed = event ∧ validEvent parsed = true := by
  unfold parseEvent at h
  split_ifs at h with hvalid
  cases h
  exact ⟨rfl, hvalid⟩

theorem messageEvent_eq_some {rules : HostRules} {scope : SessionScope}
    {found : SessionEntry × MessageRecord × Marker} {event : FormalEvent}
    (h : messageEvent rules scope found = some event) :
    event.eventId = found.2.2.eventId ∧ validEvent event = true := by
  obtain ⟨rfl, hvalid⟩ := valid_of_parseEvent h
  exact ⟨rfl, hvalid⟩

theorem toSystemEvent_eq_some {rules : HostRules} {scope : SessionScope} {entry : SessionEntry}
    {event : FormalEvent} (h : toSystemEvent rules scope entry = some event) :
    event.eventId = entry.id ∧ validEvent event = true := by
  obtain ⟨body, -, hbody⟩ := Option.bind_eq_some_iff.mp h
  obtain ⟨rfl, hvalid⟩ := valid_of_parseEvent hbody
  exact ⟨rfl, hvalid⟩

/-! ## The session as the pager sees it -/

/-- A session of the session manager: its current branch, and the path to an entry that
    is not on it. No entry has the id of the session. -/
structure Session where
  scope : SessionScope
  branch : List SessionEntry
  otherBranch : String → List SessionEntry
  ids_nodup : (branch.map SessionEntry.id).Nodup
  otherBranch_sessionId : otherBranch scope.sessionId = []

/-- `getBranch(id)`: the path from the root to the entry. -/
def Session.pathTo (session : Session) (id : String) : List SessionEntry :=
  if id ∈ session.branch.map SessionEntry.id then
    session.branch.take (session.branch.findIdx (fun entry => entry.id = id) + 1)
  else session.otherBranch id

def SessionEntry.isMessage (entry : SessionEntry) : Bool :=
  match entry.content with
  | .message _ => true
  | _ => false

def SessionEntry.branchEntry (entry : SessionEntry) : BranchEntry :=
  ⟨entry.id, entry.isMessage, entry.markerEventId?⟩

/-- `JSON.stringify` of an event, in UTF-8. -/
structure EventText where
  stringify : FormalEvent → List Byte
  ne : ∀ event, stringify event ≠ []

def EventBody.kind : EventBody → EventKind
  | .user _ _ _ _ _ _ => .user
  | .assistant _ _ _ => .assistant
  | .tool _ _ _ _ _ => .tool
  | .toolError _ _ _ _ _ => .tool
  | .providerError _ _ => .providerError
  | .system .compaction _ => .compaction
  | .system .branchSummary _ => .branchSummary
  | .system .custom _ => .custom

/-- The group of an event; a system event has none. -/
def EventBody.groupId : EventBody → String
  | .user groupId _ _ _ _ _ => groupId
  | .assistant groupId _ _ => groupId
  | .tool groupId _ _ _ _ => groupId
  | .toolError groupId _ _ _ _ => groupId
  | .providerError groupId _ => groupId
  | .system _ _ => ""

theorem validId_of_validEvent {event : FormalEvent} (h : validEvent event = true) :
    validId event.eventId = true := by
  simp only [validEvent, Bool.and_eq_true] at h
  exact h.1.1.1.1

/-- An event as the pager keeps it; none where its schema refuses it (`history.ts`,
    lines 232–234). -/
def FormalEvent.wire (text : EventText) (event : FormalEvent) : Option TimelineEvent :=
  if h : validEvent event = true then
    some
      { eventId := event.eventId
        kind := event.body.kind
        groupId := event.body.groupId
        encoded := text.stringify event
        eventId_valid := validId_of_validEvent h
        encoded_ne := text.ne event }
  else none

/-- What the session manager, the generation provider and the recovery return. -/
def Session.manager (rules : HostRules) (text : EventText) (session : Session) :
    SessionManager where
  sessionId := session.scope.sessionId
  historyGeneration := session.scope.historyGeneration
  leafId := session.branch.getLast?.map SessionEntry.id
  branch := session.branch.map SessionEntry.branchEntry
  branchTo id := (session.pathTo id).map SessionEntry.branchEntry
  recovered := (recover rules session.scope session.branch).bind
    (List.mapM (FormalEvent.wire text))

section Manager

variable {rules : HostRules} {text : EventText}

theorem wire_eq_some {event : FormalEvent} (h : validEvent event = true) :
    ∃ wire, event.wire text = some wire ∧ wire.eventId = event.eventId ∧
      wire.kind = event.body.kind := by
  unfold FormalEvent.wire
  rw [dif_pos h]
  exact ⟨_, rfl, rfl, rfl⟩

/-- The event of a message as the pager keeps it. -/
def wireMessage (rules : HostRules) (text : EventText) (scope : SessionScope)
    (found : SessionEntry × MessageRecord × Marker) : Option TimelineEvent :=
  (messageEvent rules scope found).bind (FormalEvent.wire text)

def wireSystem (rules : HostRules) (text : EventText) (scope : SessionScope)
    (entry : SessionEntry) : Option TimelineEvent :=
  (toSystemEvent rules scope entry).bind (FormalEvent.wire text)

theorem wireMessage_isSome {scope : SessionScope}
    {found : SessionEntry × MessageRecord × Marker} :
    (wireMessage rules text scope found).isSome = (messageEvent rules scope found).isSome := by
  unfold wireMessage
  cases hevent : messageEvent rules scope found with
  | none => rfl
  | some event =>
    obtain ⟨wire, hwire, -⟩ := @wire_eq_some text event (messageEvent_eq_some hevent).2
    rw [Option.bind_some, hwire]
    rfl

theorem wireMessage_eventId {scope : SessionScope} {found : SessionEntry × MessageRecord × Marker}
    {wire : TimelineEvent} (h : wireMessage rules text scope found = some wire) :
    wire.eventId = found.2.2.eventId := by
  obtain ⟨event, hevent, hwire⟩ := Option.bind_eq_some_iff.mp h
  obtain ⟨hid, hvalid⟩ := messageEvent_eq_some hevent
  obtain ⟨wire', hwire', hid', -⟩ := @wire_eq_some text event hvalid
  cases hwire.symm.trans hwire'
  rw [hid', hid]

theorem wireSystem_eq_some {scope : SessionScope} {entry : SessionEntry} {wire : TimelineEvent}
    (h : wireSystem rules text scope entry = some wire) :
    wire.eventId = entry.id ∧ wire.isSystem = true := by
  obtain ⟨event, hevent, hwire⟩ := Option.bind_eq_some_iff.mp h
  obtain ⟨hid, hvalid⟩ := toSystemEvent_eq_some hevent
  obtain ⟨wire', hwire', hid', hkind⟩ := @wire_eq_some text event hvalid
  cases hwire.symm.trans hwire'
  refine ⟨hid'.trans hid, ?_⟩
  have hsystem : ∃ kind payload, event.body = .system kind payload := by
    obtain ⟨body, hbody, hparsed⟩ := Option.bind_eq_some_iff.mp hevent
    obtain ⟨rfl, -⟩ := valid_of_parseEvent hparsed
    unfold systemBody at hbody
    split at hbody
    · exact ⟨_, _, (Option.some.inj hbody).symm⟩
    · exact ⟨_, _, (Option.some.inj hbody).symm⟩
    · split_ifs at hbody
      exact ⟨_, _, (Option.some.inj hbody).symm⟩
    · cases hbody
    · cases hbody
  obtain ⟨kind, payload, hbody⟩ := hsystem
  unfold TimelineEvent.isSystem
  rw [hkind, hbody]
  cases kind <;> rfl

theorem mapM_bind {α β γ : Type} (f : α → Option β) (g : β → Option γ) (l : List α) :
    (l.mapM f).bind (List.mapM g) = l.mapM fun a => (f a).bind g := by
  induction l with
  | nil => rfl
  | cons a l ih =>
    rw [List.mapM_cons, List.mapM_cons, ← ih]
    cases f a with
    | none => rfl
    | some b => cases hl : l.mapM f <;> simp [List.mapM_cons]

theorem mapM_wire_filterMap (scope : SessionScope) (branch : List SessionEntry) :
    (branch.filterMap (toSystemEvent rules scope)).mapM (FormalEvent.wire text) =
      some (branch.filterMap (wireSystem rules text scope)) := by
  induction branch with
  | nil => rfl
  | cons entry branch ih =>
    rw [List.filterMap_cons, List.filterMap_cons]
    cases hevent : toSystemEvent rules scope entry with
    | none => rw [wireSystem, hevent]; exact ih
    | some event =>
      obtain ⟨wire, hwire, -⟩ := @wire_eq_some text event (toSystemEvent_eq_some hevent).2
      dsimp only
      rw [wireSystem, hevent, Option.bind_some, List.mapM_cons, hwire, ih]
      rfl

/-- What the pager is given by the recovery of a session. -/
theorem recovered_manager (session : Session) :
    (session.manager rules text).recovered =
      ((recoveredMessages session.scope.sessionId session.branch).mapM
        (wireMessage rules text session.scope)).map fun messages =>
          messages ++ session.branch.filterMap (wireSystem rules text session.scope) := by
  show (recover rules session.scope session.branch).bind (List.mapM (FormalEvent.wire text)) = _
  have hmessages := mapM_bind (messageEvent rules session.scope) (FormalEvent.wire text)
    (recoveredMessages session.scope.sessionId session.branch)
  unfold recover
  rw [show wireMessage rules text session.scope =
    fun found => (messageEvent rules session.scope found).bind (FormalEvent.wire text) from rfl,
    ← hmessages]
  cases (recoveredMessages session.scope.sessionId session.branch).mapM
      (messageEvent rules session.scope) with
  | none => rfl
  | some messages =>
    rw [Option.map_some, Option.bind_some, Option.bind_some, List.mapM_append,
      mapM_wire_filterMap]
    cases messages.mapM (FormalEvent.wire text) <;> rfl

theorem recovered_isSome (session : Session) :
    (session.manager rules text).recovered.isSome =
      (recover rules session.scope session.branch).isSome := by
  rw [recovered_manager, recover, Option.isSome_map, Option.isSome_map, Bool.eq_iff_iff,
    mapM_isSome, mapM_isSome]
  refine forall₂_congr fun found _ => ?_
  rw [wireMessage_isSome]

/-- The path to the last entry of a part of the branch is that part. -/
theorem pathTo_of_prefix {session : Session} {path : List SessionEntry} {entry : SessionEntry}
    (hpath : path <+: session.branch) (h : path.getLast? = some entry) :
    session.pathTo entry.id = path := by
  obtain ⟨rest, hrest⟩ := hpath
  obtain ⟨init, hinit⟩ := List.getLast?_eq_some_iff.mp h
  have hn := session.ids_nodup
  rw [← hrest, hinit, List.append_assoc, List.map_append, List.nodup_append] at hn
  have hfind : init.findIdx (fun e => decide (e.id = entry.id)) = init.length := by
    refine List.findIdx_eq_length.mpr fun e he => ?_
    simpa using hn.2.2 e.id (List.mem_map_of_mem he) entry.id (by simp)
  have hmem : entry ∈ session.branch := by
    rw [← hrest]
    exact List.mem_append_left _ (List.mem_of_getLast? h)
  unfold Session.pathTo
  rw [if_pos (List.mem_map_of_mem hmem), ← hrest, hinit, List.append_assoc, List.findIdx_append,
    hfind, if_neg (Nat.lt_irrefl _), List.singleton_append, List.findIdx_cons]
  simp [List.take_append]

theorem settled_manager (session : Session) : (session.manager rules text).Settled where
  leaf := by
    show (session.branch.map SessionEntry.branchEntry).getLast?.map BranchEntry.id =
      session.branch.getLast?.map SessionEntry.id
    rw [List.getLast?_map, Option.map_map]
    rfl
  branchTo_head := by
    show (session.pathTo ((session.branch.getLast?.map SessionEntry.id).getD
      session.scope.sessionId)).map _ = session.branch.map _
    cases hlast : session.branch.getLast? with
    | none =>
      have hnil : session.branch = [] := List.getLast?_eq_none_iff.mp hlast
      rw [Session.pathTo, hnil]
      exact congrArg (List.map SessionEntry.branchEntry) session.otherBranch_sessionId
    | some entry =>
      rw [Option.map_some, Option.getD_some, pathTo_of_prefix (List.prefix_refl _) hlast]

end Manager

end RemotePi.Timeline
