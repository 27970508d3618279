import RemotePi.Lib.JsonText
import RemotePi.Protocol.FrameSchemas

/-!
# The codec of the inner frames in the extension

`protocol/v2/codec.ts` (lines 27–227), over a library that parses by schemas and the numbers of
the host. What is read is a text, bytes, or a value in memory; the text of a schema error is the
library's.
-/

namespace RemotePi.Protocol

open RemotePi.Lib

/-- `DecodeErrorCode` (line 27). -/
inductive DecodeErrorCode where
  | invalid
  | unsupported
  | version
  | schema
  | size
  | direction
deriving DecidableEq, Repr

/-- `DecodeError` (lines 29–39). -/
structure DecodeError where
  code : DecodeErrorCode
  message : String

inductive Direction where
  | client
  | server
deriving DecidableEq, Repr

/-- What a decoder is called with: `other` is a value that is neither a text nor bytes nor a
record. -/
inductive Raw where
  | text (text : List Char)
  | bytes (bytes : List Byte)
  | record (members : List (String × Json))
  | other

/-- The value that the raw one stands for; none where it is not JSON. -/
def Raw.value? (numbers : JsonText.NumberText) : Raw → Option Json
  | .text content => JsonText.parse numbers content
  | .bytes content => (Utf8.decodeFatal content).bind (JsonText.parse numbers)
  | .record members => some (.object members)
  | .other => none

/-- An object in memory has distinct keys, and no key of the value is the one that the language
treats apart. -/
structure Raw.Plain (numbers : JsonText.NumberText) (raw : Raw) : Prop where
  distinct : ∀ members, raw = .record members → (Json.object members).distinctKeys = true
  lacks : ∀ value, raw.value? numbers = some value →
    (value.holds (fun _ => true) fun key => decide (key ≠ "__proto__")) = true

/-- A value that was read from a text has distinct keys, as one in memory has. -/
theorem Raw.Plain.value {numbers : JsonText.NumberText} {raw : Raw} (h : raw.Plain numbers)
    {value : Json} (hvalue : raw.value? numbers = some value) : value.Plain := by
  refine ⟨?_, h.lacks value hvalue⟩
  cases raw with
  | text content => exact (JsonText.hosted_iff.mp (JsonText.hosted_parse hvalue)).1
  | bytes content =>
    obtain ⟨text, -, hparse⟩ := Option.bind_eq_some_iff.mp hvalue
    exact (JsonText.hosted_iff.mp (JsonText.hosted_parse hparse)).1
  | record members =>
    cases hvalue
    exact h.distinct members rfl
  | other => cases hvalue

theorem Raw.plain_record {numbers : JsonText.NumberText} {members : List (String × Json)}
    (h : (Json.object members).Plain) : (Raw.record members).Plain numbers := by
  constructor
  · intro members' hmembers
    cases hmembers
    exact h.distinct
  · intro value hvalue
    cases hvalue
    exact h.lacks

namespace Codec

open FrameSchemas

section Codec

variable (numbers : JsonText.NumberText) (lib : Validator rules)

/-- `getUtf8ByteLengthV2` (lines 52–60). -/
def getUtf8ByteLength (value : Json) : ℕ :=
  JsonText.utf8Length (JsonText.stringify numbers value)

/-- `parseRaw` (lines 62–92): the value, and the bytes of its text. -/
def parseRaw (raw : Raw) (maxBytes : ℕ) : Except DecodeError (Json × ℕ) :=
  match raw with
  | .text text =>
    if maxBytes < JsonText.utf8Length text then
      .error ⟨.size, s!"raw value exceeds {maxBytes} bytes"⟩
    else
      match JsonText.parse numbers text with
      | some value => .ok (value, JsonText.utf8Length text)
      | none => .error ⟨.invalid, "raw string is not valid JSON"⟩
  | .bytes bytes =>
    if maxBytes < bytes.length then .error ⟨.size, s!"raw value exceeds {maxBytes} bytes"⟩
    else
      match (Utf8.decodeFatal bytes).bind (JsonText.parse numbers) with
      | some value => .ok (value, bytes.length)
      | none => .error ⟨.invalid, "raw bytes are not valid UTF-8 JSON"⟩
  | .record members =>
    if maxBytes < getUtf8ByteLength numbers (.object members) then
      .error ⟨.size, s!"raw value exceeds {maxBytes} bytes"⟩
    else .ok (.object members, getUtf8ByteLength numbers (.object members))
  | .other => .error ⟨.invalid, "raw frame must be an object, JSON string, or Uint8Array"⟩

/-- `checkProtocolVersion` (lines 98–102). -/
def checkProtocolVersion (value : Json) : Except DecodeError Unit :=
  if (value.member? "protocol_version").any (Literal.number 2).accepts then .ok ()
  else .error ⟨.version, "protocol_version must be 2"⟩

/-- `checkFrameBytes` (lines 104–108). -/
def checkFrameBytes (type : String) (bytes : ℕ) : Except DecodeError Unit :=
  if maxFrameBytes < bytes then
    .error ⟨.size, s!"{type} exceeds {maxFrameBytes} encoded UTF-8 bytes"⟩
  else .ok ()

/-- The checks of the type in `parseFrame` (lines 116–120). -/
def checkType (type : String) (direction : Direction) : Except DecodeError Unit :=
  if !clientFrameTypes.contains type && !serverFrameTypes.contains type then
    .error ⟨.unsupported, s!"unknown frame type: {type}"⟩
  else if direction = .client && !clientFrameTypes.contains type then
    .error ⟨.direction, s!"{type} is a server frame"⟩
  else if direction = .server && !serverFrameTypes.contains type then
    .error ⟨.direction, s!"{type} is a client frame"⟩
  else .ok ()

/-- `safeParse`, with an error where it has issues. -/
def parseSchema (schema : FrameSchema) (value : Json) : Except DecodeError Json :=
  match lib.safeParse schema value with
  | some parsed => .ok parsed
  | none => .error ⟨.schema, lib.issues schema value⟩

/-- `decodeBase64Bytes` (lines 154–160) of a Base64 text, on which `Buffer.from` does not throw. -/
def decodeBase64Bytes (value : String) : List Byte := Base64.decode value.toList

/-- `validateFragmentSizeV2` (lines 162–179). -/
def validateFragmentSize (fragment : Json) : Except DecodeError ℕ :=
  match (lib.safeParse timelineEventFragmentSchema fragment).or
    (lib.safeParse historyFragmentSchema fragment) with
  | none => .error ⟨.schema, lib.issues timelineEventFragmentSchema fragment⟩
  | some parsed =>
    match textAt "data_base64" parsed with
    | none => .error ⟨.schema, "fragment data is missing"⟩
    | some data =>
      if maxFragmentDecodeBytes < (decodeBase64Bytes data).length then
        .error ⟨.size, s!"fragment exceeds {maxFragmentDecodeBytes} decoded bytes"⟩
      else .ok (decodeBase64Bytes data).length

/-- The loop over the fragments of a chunk (line 189). -/
def validateFragments : List Json → Except DecodeError Unit
  | [] => .ok ()
  | fragment :: fragments => do
    let _ ← validateFragmentSize lib fragment
    validateFragments fragments

/-- `validateEncodedSizeV2` (lines 206–210), with the text of its error. -/
def checkSize (bytes maxBytes : ℕ) (message : String) : Except DecodeError Unit :=
  if maxBytes < bytes then .error ⟨.size, message⟩ else .ok ()

/-- `validateHistoryChunkSizeV2` (lines 181–191). -/
def validateHistoryChunkSize (chunk : Json) : Except DecodeError ℕ := do
  let parsed ← parseSchema lib sessionHistoryChunkSchema chunk
  let bytes := getUtf8ByteLength numbers parsed
  checkSize bytes maxHistoryChunkBytes
    s!"history chunk exceeds {maxHistoryChunkBytes} encoded UTF-8 bytes"
  validateFragments lib (itemsAt "fragments" parsed)
  return bytes

/-- The last checks of `parseFrame` (lines 126–127). -/
def validateParts (type : String) (value : Json) : Except DecodeError Unit :=
  if type = "timeline_event_fragment" then do
    let _ ← validateFragmentSize lib value
  else if type = "session_history_chunk" then do
    let _ ← validateHistoryChunkSize numbers lib value
  else .ok ()

def frameSchema : Direction → FrameSchema
  | .client => clientFrameSchema
  | .server => serverFrameSchema

/-- `parseFrame` after `parseRaw` (lines 112–128). -/
def readFrame (value : Json) (bytes : ℕ) (direction : Direction) : Except DecodeError Json :=
  match textAt "type" value with
  | none => .error ⟨.invalid, "frame must contain a string type"⟩
  | some type => do
    checkType type direction
    checkProtocolVersion value
    let frame ← parseSchema lib (frameSchema direction) value
    checkFrameBytes type bytes
    validateParts numbers lib type value
    return frame

/-- `decodeClientFrameV2` and `decodeServerFrameV2` (lines 110–137). -/
def parseFrame (raw : Raw) (direction : Direction) : Except DecodeError Json := do
  let read ← parseRaw numbers raw maxFrameBytes
  readFrame numbers lib read.1 read.2 direction

/-- `encodeFrame` (lines 139–144). -/
def encodeFrame (members : List (String × Json)) (direction : Direction) :
    Except DecodeError (List Char) := do
  let parsed ← parseFrame numbers lib (.record members) direction
  return JsonText.stringify numbers parsed

/-- `parseTimelineEventV2` (lines 212–219). -/
def parseTimelineEvent (raw : Raw) : Except DecodeError Json := do
  let read ← parseRaw numbers raw maxWindowDecodeBytes
  let event ← parseSchema lib timelineEventSchema read.1
  checkSize (getUtf8ByteLength numbers event) maxWindowDecodeBytes
    s!"encoded value exceeds {maxWindowDecodeBytes} bytes"
  return event

/-- `parseTimelinePartialV2` (lines 221–227). -/
def parseTimelinePartial (raw : Raw) : Except DecodeError Json := do
  let read ← parseRaw numbers raw maxWindowDecodeBytes
  let update ← parseSchema lib timelinePartialSchema read.1
  checkSize (getUtf8ByteLength numbers update) maxHistoryChunkBytes
    s!"encoded value exceeds {maxHistoryChunkBytes} bytes"
  return update

/-- The loop of `validateWindowSizeV2` (lines 193–204). -/
def validateWindowFrom (total : ℕ) : List Json → Except DecodeError ℕ
  | [] => .ok total
  | event :: events => do
    let parsed ← parseSchema lib timelineEventSchema event
    checkSize (total + getUtf8ByteLength numbers parsed) maxWindowDecodeBytes
      s!"decoded window exceeds {maxWindowDecodeBytes} bytes"
    validateWindowFrom (total + getUtf8ByteLength numbers parsed) events

end Codec

/-! ## What is read -/

section Read

variable {numbers : JsonText.NumberText}

/-- The decoders read the value that the raw one stands for. -/
theorem value_of_parseRaw {raw : Raw} {maxBytes : ℕ} {read : Json × ℕ}
    (h : parseRaw numbers raw maxBytes = .ok read) :
    raw.value? numbers = some read.1 := by
  cases raw with
  | text text =>
    rw [parseRaw] at h
    split_ifs at h
    rw [Raw.value?]
    cases hparse : JsonText.parse numbers text with
    | none =>
      rw [hparse] at h
      cases h
    | some value =>
      rw [hparse] at h
      cases h
      rfl
  | bytes bytes =>
    rw [parseRaw] at h
    split_ifs at h
    rw [Raw.value?]
    cases hparse : (Utf8.decodeFatal bytes).bind (JsonText.parse numbers) with
    | none =>
      rw [hparse] at h
      cases h
    | some value =>
      rw [hparse] at h
      cases h
      rfl
  | record members =>
    rw [parseRaw] at h
    split_ifs at h
    cases h
    rfl
  | other => cases h

end Read

/-! ## Records -/

section Records

variable {numbers : JsonText.NumberText} {lib : Validator rules} {members : List (String × Json)}
  {direction : Direction}

/-- A decoder that accepts a record reads it as it is, and its text is within the bound. -/
theorem parseFrame_record {frame : Json}
    (h : parseFrame numbers lib (.record members) direction = .ok frame) :
    getUtf8ByteLength numbers (.object members) ≤ maxFrameBytes ∧
      readFrame numbers lib (.object members) (getUtf8ByteLength numbers (.object members))
        direction = .ok frame := by
  rw [parseFrame, parseRaw] at h
  by_cases hsize : maxFrameBytes < getUtf8ByteLength numbers (.object members)
  · rw [if_pos hsize] at h
    cases h
  · rw [if_neg hsize] at h
    exact ⟨Nat.le_of_not_lt hsize, h⟩

/-- What is encoded is the text of the frame that the decoder makes of the record. -/
theorem encodeFrame_eq_ok {text : List Char}
    (h : encodeFrame numbers lib members direction = .ok text) :
    ∃ frame, parseFrame numbers lib (.record members) direction = .ok frame ∧
      text = JsonText.stringify numbers frame := by
  unfold encodeFrame at h
  cases hframe : parseFrame numbers lib (.record members) direction with
  | error e =>
    rw [hframe] at h
    cases h
  | ok frame =>
    rw [hframe] at h
    cases h
    exact ⟨frame, rfl, rfl⟩

/-- The bytes of an object that the host holds are read as that object. -/
theorem parseRaw_bytes {maxBytes : ℕ}
    (hhosted : JsonText.hosted numbers (.object members) = true)
    (hsize : getUtf8ByteLength numbers (.object members) ≤ maxBytes) :
    parseRaw numbers (.bytes (Utf8.encode (JsonText.stringify numbers (.object members))))
      maxBytes = .ok (.object members, getUtf8ByteLength numbers (.object members)) := by
  have hbound : ¬maxBytes <
      (Utf8.encode (JsonText.stringify numbers (.object members))).length := Nat.not_lt_of_le hsize
  rw [parseRaw, if_neg hbound, JsonText.decodeFatal_stringify, Option.bind_some,
    JsonText.parse_stringify hhosted]
  rfl

end Records

end Codec

end RemotePi.Protocol
