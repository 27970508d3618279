import RemotePi.Protocol.Codec
import RemotePi.Pwa.FrameSchemas

/-!
# The codec of the inner frames in the browser

`protocol-v2/codec.ts` (lines 50–251), which differs from the one of the extension: it returns
bytes and measures them again, reads Base64 with `atob`, and tries three schemas on a fragment.
-/

namespace RemotePi.Pwa

open RemotePi.Lib
open RemotePi.Protocol (DecodeError Direction Raw FrameSchema textAt itemsAt)

/-! ## Base64 -/

def isAsciiSpace (c : Char) : Bool :=
  c = '\t' || c = '\n' || c = Char.ofNat 0xc || c = '\r' || c = ' '

/-- A text without the padding at its end, of at most two characters. -/
def dropPadding (text : List Char) : List Char :=
  if text.getLast? = some '=' then
    if text.dropLast.getLast? = some '=' then text.dropLast.dropLast else text.dropLast
  else text

/-- `atob`: none where it throws. -/
def atob (text : List Char) : Option (List Byte) :=
  let kept := text.filter fun c => !isAsciiSpace c
  let body := if kept.length % 4 = 0 then dropPadding kept else kept
  if body.length % 4 = 1 || !body.all Base64.isDigit then none else some (Base64.decode body)

namespace Codec

open FrameSchemas

section Codec

variable (numbers : JsonText.NumberText) (lib : Validator rules)

/-- `encodeJson` (lines 54–63). -/
def encodeJson (value : Json) : List Byte := Utf8.encode (JsonText.stringify numbers value)

/-- `getUtf8ByteLengthV2` (lines 65–67). -/
def getUtf8ByteLength (value : Json) : ℕ := (encodeJson numbers value).length

/-- `parseRaw` (lines 69–96): the value, and the bytes of its text. -/
def parseRaw (raw : Raw) (maxBytes : ℕ) : Except DecodeError (Json × ℕ) :=
  match raw with
  | .text text =>
    if maxBytes < (Utf8.encode text).length then
      .error ⟨.size, s!"raw value exceeds {maxBytes} bytes"⟩
    else
      match JsonText.parse numbers text with
      | some value => .ok (value, (Utf8.encode text).length)
      | none => .error ⟨.invalid, "raw string is not valid JSON"⟩
  | .bytes bytes =>
    if maxBytes < bytes.length then .error ⟨.size, s!"raw value exceeds {maxBytes} bytes"⟩
    else
      match (Utf8.decodeFatal bytes).bind (JsonText.parse numbers) with
      | some value => .ok (value, bytes.length)
      | none => .error ⟨.invalid, "raw bytes are not valid UTF-8 JSON"⟩
  | .record members =>
    if maxBytes < getUtf8ByteLength numbers (.object members) then
      .error ⟨.size, s!"raw value exceeds {maxBytes} bytes"⟩
    else .ok (.object members, getUtf8ByteLength numbers (.object members))
  | .other => .error ⟨.invalid, "raw frame must be an object, JSON string, or Uint8Array"⟩

/-- `assertByteLimit` (lines 102–106). -/
def assertByteLimit (type : String) (bytes limit : ℕ) : Except DecodeError Unit :=
  if limit < bytes then .error ⟨.size, s!"{type} exceeds {limit} encoded UTF-8 bytes"⟩
  else .ok ()

/-- `assertVersion` (lines 108–112). -/
def assertVersion (value : Json) : Except DecodeError Unit :=
  if (value.member? "protocol_version").any (Literal.number 2).accepts then .ok ()
  else .error ⟨.version, "protocol_version must be 2"⟩

def Direction.name : Direction → String
  | .client => "client"
  | .server => "server"

/-- `assertDirection` (lines 114–123). -/
def assertDirection (type : String) (direction : Direction) : Except DecodeError Unit :=
  if !clientFrameTypes.contains type && !serverFrameTypes.contains type then
    .error ⟨.unsupported, s!"unsupported frame type: {type}"⟩
  else if (direction = .client && !clientFrameTypes.contains type) ||
      (direction = .server && !serverFrameTypes.contains type) then
    .error ⟨.direction, type ++ " is not a " ++ Direction.name direction ++ " frame"⟩
  else .ok ()

/-- `frameType` (lines 125–130). -/
def frameType (value : Json) : Except DecodeError String :=
  match textAt "type" value with
  | some type => .ok type
  | none => .error ⟨.invalid, "frame must contain a string type"⟩

/-- `safeParse`, with an error where it has issues. -/
def parseSchema (schema : FrameSchema) (value : Json) : Except DecodeError Json :=
  match lib.safeParse schema value with
  | some parsed => .ok parsed
  | none => .error ⟨.schema, lib.issues schema value⟩

/-- `decodeBase64Bytes` (lines 172–183). -/
def decodeBase64Bytes (value : String) : Except DecodeError (List Byte) :=
  match atob value.toList with
  | some bytes => .ok bytes
  | none => .error ⟨.schema, "data_base64 is not valid base64"⟩

/-- `validateFragmentSizeV2` (lines 185–205). -/
def validateFragmentSize (fragment : Json) : Except DecodeError ℕ :=
  match (lib.safeParse timelineEventFragmentFrameSchema fragment).or
    ((lib.safeParse timelineEventFragmentSchema fragment).or
      (lib.safeParse historyFragmentSchema fragment)) with
  | none => .error ⟨.schema, lib.issues timelineEventFragmentFrameSchema fragment⟩
  | some parsed =>
    match textAt "data_base64" parsed with
    | none => .error ⟨.schema, "fragment data is missing"⟩
    | some data => do
      let bytes ← decodeBase64Bytes data
      if maxFragmentBytes < bytes.length then
        .error ⟨.size, s!"fragment exceeds {maxFragmentBytes} decoded bytes"⟩
      else .ok bytes.length

/-- The loop over the fragments of a chunk (line 214). -/
def validateFragments : List Json → Except DecodeError Unit
  | [] => .ok ()
  | fragment :: fragments => do
    let _ ← validateFragmentSize lib fragment
    validateFragments fragments

/-- `validateEncodedSizeV2` (lines 231–235), with the text of its error. -/
def checkSize (bytes maxBytes : ℕ) (message : String) : Except DecodeError Unit :=
  if maxBytes < bytes then .error ⟨.size, message⟩ else .ok ()

/-- `validateHistoryChunkSizeV2` (lines 207–216). -/
def validateHistoryChunkSize (chunk : Json) : Except DecodeError ℕ := do
  let parsed ← parseSchema lib sessionHistoryChunkFrameSchema chunk
  let bytes := getUtf8ByteLength numbers parsed
  checkSize bytes maxHistoryChunkBytes
    s!"history chunk exceeds {maxHistoryChunkBytes} encoded UTF-8 bytes"
  validateFragments lib (itemsAt "fragments" parsed)
  return bytes

/-- The last checks of `parseFrame` (lines 142–143). -/
def validateParts (type : String) (value : Json) : Except DecodeError Unit :=
  if type = "timeline_event_fragment" then do
    let _ ← validateFragmentSize lib value
  else if type = "session_history_chunk" then do
    let _ ← validateHistoryChunkSize numbers lib value
  else .ok ()

def frameSchema : Direction → FrameSchema
  | .client => clientFrameSchema
  | .server => serverFrameSchema

/-- `parseFrame` after `parseRaw` (lines 134–144). -/
def readFrame (value : Json) (bytes : ℕ) (direction : Direction) : Except DecodeError Json := do
  let type ← frameType value
  assertDirection type direction
  assertVersion value
  let frame ← parseSchema lib (frameSchema direction) value
  assertByteLimit type bytes maxFrameBytes
  validateParts numbers lib type value
  return frame

/-- `decodeClientFrameV2` and `decodeServerFrameV2` (lines 132–153). -/
def parseFrame (raw : Raw) (direction : Direction) : Except DecodeError Json := do
  let read ← parseRaw numbers raw maxFrameBytes
  readFrame numbers lib read.1 read.2 direction

/-- `encodeFrame` (lines 155–162). -/
def encodeFrame (members : List (String × Json)) (direction : Direction) :
    Except DecodeError (List Byte) := do
  let parsed ← parseFrame numbers lib (.record members) direction
  let encoded := encodeJson numbers parsed
  assertByteLimit ((textAt "type" parsed).getD "frame") encoded.length maxFrameBytes
  return encoded

/-- `parseTimelineEventV2` (lines 237–243). -/
def parseTimelineEvent (raw : Raw) : Except DecodeError Json := do
  let read ← parseRaw numbers raw maxWindowBytes
  let event ← parseSchema lib timelineEventSchema read.1
  checkSize (getUtf8ByteLength numbers event) maxWindowBytes
    s!"encoded value exceeds {maxWindowBytes} bytes"
  return event

/-- `parseTimelinePartialV2` (lines 245–251). -/
def parseTimelinePartial (raw : Raw) : Except DecodeError Json := do
  let read ← parseRaw numbers raw maxWindowBytes
  let update ← parseSchema lib timelinePartialSchema read.1
  checkSize (getUtf8ByteLength numbers update) maxHistoryChunkBytes
    s!"encoded value exceeds {maxHistoryChunkBytes} bytes"
  return update

/-- The loop of `validateWindowSizeV2` (lines 218–229). -/
def validateWindowFrom (total : ℕ) : List Json → Except DecodeError ℕ
  | [] => .ok total
  | event :: events => do
    let parsed ← parseSchema lib timelineEventSchema event
    checkSize (total + getUtf8ByteLength numbers parsed) maxWindowBytes
      s!"decoded window exceeds {maxWindowBytes} bytes"
    validateWindowFrom (total + getUtf8ByteLength numbers parsed) events

end Codec

/-! ## Records -/

section Records

variable {numbers : JsonText.NumberText} {lib : Validator rules} {members : List (String × Json)}
  {direction : Direction}

/-- A decoder that accepts a record reads it as it is, and its text is within the bound. -/
theorem parseFrame_record {frame : Json}
    (h : parseFrame numbers lib (.record members) direction = .ok frame) :
    getUtf8ByteLength numbers (.object members) ≤ maxFrameBytes ∧
      readFrame numbers lib (.object members) (getUtf8ByteLength numbers (.object members))
        direction = .ok frame := by
  rw [parseFrame, parseRaw] at h
  by_cases hsize : maxFrameBytes < getUtf8ByteLength numbers (.object members)
  · rw [if_pos hsize] at h
    cases h
  · rw [if_neg hsize] at h
    exact ⟨Nat.le_of_not_lt hsize, h⟩

/-- What is encoded are the bytes of the frame that the decoder makes of the record. -/
theorem encodeFrame_eq_ok {bytes : List Byte}
    (h : encodeFrame numbers lib members direction = .ok bytes) :
    ∃ frame, parseFrame numbers lib (.record members) direction = .ok frame ∧
      bytes = encodeJson numbers frame := by
  unfold encodeFrame at h
  cases hframe : parseFrame numbers lib (.record members) direction with
  | error e =>
    rw [hframe] at h
    cases h
  | ok frame =>
    rw [hframe] at h
    have h' : (do
        assertByteLimit ((textAt "type" frame).getD "frame") (encodeJson numbers frame).length
          maxFrameBytes
        return encodeJson numbers frame) = Except.ok bytes := h
    cases hsize : assertByteLimit ((textAt "type" frame).getD "frame")
        (encodeJson numbers frame).length maxFrameBytes with
    | error e =>
      rw [hsize] at h'
      cases h'
    | ok _ =>
      rw [hsize] at h'
      cases h'
      exact ⟨frame, rfl, rfl⟩

/-- The bytes of an object that the host holds are read as that object. -/
theorem parseRaw_bytes {maxBytes : ℕ}
    (hhosted : JsonText.hosted numbers (.object members) = true)
    (hsize : getUtf8ByteLength numbers (.object members) ≤ maxBytes) :
    parseRaw numbers (.bytes (encodeJson numbers (.object members))) maxBytes =
      .ok (.object members, getUtf8ByteLength numbers (.object members)) := by
  have hbound : ¬maxBytes < (encodeJson numbers (.object members)).length :=
    Nat.not_lt_of_le hsize
  rw [parseRaw, if_neg hbound, encodeJson, JsonText.decodeFatal_stringify, Option.bind_some,
    JsonText.parse_stringify hhosted]
  rfl

end Records

end Codec

end RemotePi.Pwa
