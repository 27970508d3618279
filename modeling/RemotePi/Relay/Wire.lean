import RemotePi.Lib.Base64
import RemotePi.Lib.Json
import RemotePi.Relay.Outer

/-!
# The wire format of the relay

Model of the checks of `relay/src/protocol/outer.rs` and `relay/src/identity.rs`
on the frames that `serde_json` has read into their wire structs, and of the text
of the control lines, as the JSON value that a parser gives back for it.

Results:
* `canonicalId_ok`: an accepted key is the Base64 text of 32 bytes.
* `parseHello_host`, `parseSubscribeEndpoints_ok`: the ids of accepted frames.
-/

namespace RemotePi.Relay

open RemotePi.Lib

/-! ## Keys and UUIDs -/

/-- The `STANDARD` engine of the `base64` crate: the exact texts that it encodes. What the crate
    documents leaves no other function (`eq_wireEngines` of `Relay.Identity`). -/
def standardDecode (text : List Char) : Option (List Byte) :=
  let bytes := Base64.decode (text.takeWhile fun c => c ≠ '=')
  if Base64.encode bytes = text then some bytes else none

/-- The `STANDARD_NO_PAD` engine: the same texts without their padding. -/
def standardNoPadDecode (text : List Char) : Option (List Byte) :=
  let bytes := Base64.decode text
  if (Base64.encode bytes).takeWhile (fun c => c ≠ '=') = text then some bytes else none

/-- `decode_ed25519_public_key` (`identity.rs`, lines 14–30). -/
def decodeEd25519PublicKey (encoded : String) : Option (List Byte) :=
  let hasStandard := encoded.toList.any fun c => c = '+' ∨ c = '/'
  let hasUrlSafe := encoded.toList.any fun c => c = '-' ∨ c = '_'
  if hasStandard && hasUrlSafe then none
  else
    let normalized := encoded.toList.map fun c =>
      if c = '-' then '+' else if c = '_' then '/' else c
    ((standardDecode normalized).or (standardNoPadDecode normalized)).filter
      fun decoded => decoded.length = 32

/-- `canonical_ed25519_public_key` (lines 32–34). -/
def canonicalEd25519PublicKey (encoded : String) : Option String :=
  (decodeEd25519PublicKey encoded).map fun bytes => String.ofList (Base64.encode bytes)

inductive OuterError where
  | unknownFrameType
  | unsupportedProtocolVersion
  | nonCanonicalPublicKey
  | invalidPublicKey
  | invalidUuid
  | invalidHello
  | invalidEndpointUpdate
deriving DecidableEq, Repr

/-- `canonical_id` (lines 330–337). -/
def canonicalId (value : String) : Except OuterError String :=
  match canonicalEd25519PublicKey value with
  | none => .error .invalidPublicKey
  | some canonical => if canonical ≠ value then .error .nonCanonicalPublicKey else .ok canonical

/-- A character of a lower or upper case hexadecimal number. -/
def isHexDigit (c : Char) : Bool :=
  ('0' ≤ c ∧ c ≤ '9') ∨ ('a' ≤ c ∧ c ≤ 'f') ∨ ('A' ≤ c ∧ c ≤ 'F')

/-- `is_uuid` (lines 339–348). No byte of a character outside ASCII passes, so the
    bytes are taken by characters. -/
def isUuid (value : String) : Bool :=
  value.toList.length = 36 && value.toList.zipIdx.all fun (c, index) =>
    if index = 8 ∨ index = 13 ∨ index = 18 ∨ index = 23 then c = '-' else isHexDigit c

/-! ## Accepted frames -/

inductive WireRole where
  | host
  | owner
deriving DecidableEq, Repr

/-- `HelloWire` (lines 114–126). -/
structure HelloWire where
  frameType : String
  protocolVersion : ℕ
  role : WireRole
  pubkey : String
  endpointId : Option String
  runtimeInstanceId : Option String
  metadata : Option EndpointMetadata
  authorizedOwnerIds : Option (List String)
deriving DecidableEq, Repr

/-- `EndpointUpdateWire` (lines 150–157). -/
structure EndpointUpdateWire where
  frameType : String
  metadata : Option EndpointMetadata
  authorizedOwnerIds : Option (List String)
deriving DecidableEq, Repr

/-- `SubscribeEndpointsWire` (lines 142–148). -/
structure SubscribeEndpointsWire where
  frameType : String
  deviceIds : List String
deriving DecidableEq, Repr

def protocolVersion : ℕ := 2

/-- The host branch of `parse_hello` (lines 180–200). -/
def parseHostHello (wire : HelloWire) (identity : String) : Except OuterError Hello := do
  let endpointId ← wire.endpointId.elim (.error .invalidHello) .ok
  let runtimeInstanceId ← wire.runtimeInstanceId.elim (.error .invalidHello) .ok
  let metadata ← wire.metadata.elim (.error .invalidHello) .ok
  if !isUuid endpointId || !isUuid runtimeInstanceId then .error .invalidUuid
  else
    let authorizedOwnerIds ← (wire.authorizedOwnerIds.getD []).mapM canonicalId
    .ok (.host
      { deviceId := identity, endpointId, runtimeInstanceId, metadata, authorizedOwnerIds })

/-- The owner branch of `parse_hello` (lines 201–210). -/
def parseOwnerHello (wire : HelloWire) (identity : String) : Except OuterError Hello :=
  if wire.endpointId.isSome || wire.runtimeInstanceId.isSome || wire.metadata.isSome ||
      wire.authorizedOwnerIds.isSome then .error .invalidHello
  else .ok (.owner identity)

/-- `parse_hello` (lines 169–212). -/
def parseHello (wire : HelloWire) : Except OuterError Hello :=
  if wire.frameType ≠ "hello" then .error .unknownFrameType
  else if wire.protocolVersion ≠ protocolVersion then .error .unsupportedProtocolVersion
  else do
    let identity ← canonicalId wire.pubkey
    match wire.role with
    | .host => parseHostHello wire identity
    | .owner => parseOwnerHello wire identity

/-- `parse_subscribe_endpoints` (lines 240–249). -/
def parseSubscribeEndpoints (wire : SubscribeEndpointsWire) : Except OuterError (List String) :=
  if wire.frameType ≠ "subscribe_endpoints" then .error .unknownFrameType
  else wire.deviceIds.mapM canonicalId

/-- `parse_endpoint_update` (lines 251–272). -/
def parseEndpointUpdate (wire : EndpointUpdateWire) : Except OuterError EndpointUpdate :=
  if wire.frameType ≠ "endpoint_update" then .error .unknownFrameType
  else if wire.metadata.isNone && wire.authorizedOwnerIds.isNone then .error .invalidEndpointUpdate
  else
    match wire.authorizedOwnerIds with
    | none => .ok ⟨wire.metadata, none⟩
    | some ids => (ids.mapM canonicalId).map fun ids => ⟨wire.metadata, some ids⟩

/-- An accepted key is the Base64 text of 32 bytes. -/
theorem canonicalId_ok {value id : String} (h : canonicalId value = .ok id) :
    id = value ∧ ∃ bytes : List Byte, bytes.length = 32 ∧
      id = String.ofList (Base64.encode bytes) := by
  unfold canonicalId at h
  split at h
  · cases h
  · next canonical hc =>
    split_ifs at h with hne
    cases h
    obtain ⟨bytes, hd, rfl⟩ := Option.map_eq_some_iff.mp hc
    refine ⟨not_not.mp hne, bytes, ?_, rfl⟩
    simp only [decodeEd25519PublicKey] at hd
    split_ifs at hd
    exact of_decide_eq_true (Option.filter_eq_some_iff.mp hd).2

/-- The key of an accepted frame, written as the relay writes it. -/
def IsCanonicalId (id : String) : Prop := canonicalId id = .ok id

theorem IsCanonicalId.length {id : String} (h : IsCanonicalId id) : id.toList.length = 44 := by
  obtain ⟨-, bytes, hl, hid⟩ := canonicalId_ok h
  rw [hid, String.toList_ofList, Base64.length_encode, hl]

theorem isCanonicalId_of_ok {value id : String} (h : canonicalId value = .ok id) :
    IsCanonicalId id := by
  obtain ⟨rfl, -⟩ := canonicalId_ok h
  exact h

theorem mem_mapM_canonicalId {values ids : List String} (h : values.mapM canonicalId = .ok ids) :
    ∀ id ∈ ids, IsCanonicalId id := by
  induction values generalizing ids with
  | nil =>
    cases h
    intro id hid
    cases hid
  | cons value values ih =>
    rw [List.mapM_cons] at h
    cases hv : canonicalId value with
    | error e => rw [hv] at h; cases h
    | ok id =>
      cases hvs : values.mapM canonicalId with
      | error e => rw [hv, hvs] at h; cases h
      | ok ids' =>
        rw [hv, hvs] at h
        cases h
        intro id' hid'
        rcases List.mem_cons.mp hid' with rfl | hid'
        · exact isCanonicalId_of_ok hv
        · exact ih hvs id' hid'

/-- The ids of an accepted host. -/
theorem parseHello_host {wire : HelloWire} {hello : HostHello}
    (h : parseHello wire = .ok (.host hello)) :
    IsCanonicalId hello.deviceId ∧ isUuid hello.endpointId = true ∧
      isUuid hello.runtimeInstanceId = true := by
  unfold parseHello at h
  split_ifs at h
  cases hid : canonicalId wire.pubkey with
  | error e => rw [hid] at h; cases h
  | ok identity =>
    rw [hid] at h
    change (match wire.role with
      | .host => parseHostHello wire identity
      | .owner => parseOwnerHello wire identity) = _ at h
    split at h
    · unfold parseHostHello at h
      cases he : wire.endpointId with
      | none => rw [he] at h; cases h
      | some endpointId =>
        cases hr : wire.runtimeInstanceId with
        | none => rw [he, hr] at h; cases h
        | some runtimeInstanceId =>
          cases hm : wire.metadata with
          | none => rw [he, hr, hm] at h; cases h
          | some metadata =>
            rw [he, hr, hm] at h
            change (if !isUuid endpointId || !isUuid runtimeInstanceId then _ else _) = _ at h
            split_ifs at h with hu
            cases hids : (wire.authorizedOwnerIds.getD []).mapM canonicalId with
            | error e => rw [hids] at h; cases h
            | ok ids =>
              rw [hids] at h
              cases h
              simp only [Bool.or_eq_true, Bool.not_eq_true', not_or, Bool.not_eq_false] at hu
              exact ⟨isCanonicalId_of_ok hid, hu⟩
    · unfold parseOwnerHello at h
      split_ifs at h
      cases h

theorem mapM_canonicalId {ids : List String} (h : ∀ id ∈ ids, IsCanonicalId id) :
    ids.mapM canonicalId = .ok ids := by
  induction ids with
  | nil => rfl
  | cons id ids ih =>
    rw [List.mapM_cons, h id List.mem_cons_self, ih fun id hid => h id (List.mem_cons_of_mem _ hid)]
    rfl

/-- The hello of a host with canonical keys and UUIDs is read as it stands. -/
theorem parseHello_of_host (hello : HostHello) (hdevice : IsCanonicalId hello.deviceId)
    (hendpoint : isUuid hello.endpointId = true) (hruntime : isUuid hello.runtimeInstanceId = true)
    (howners : ∀ ownerId ∈ hello.authorizedOwnerIds, IsCanonicalId ownerId) :
    parseHello
      { frameType := "hello"
        protocolVersion := 2
        role := .host
        pubkey := hello.deviceId
        endpointId := some hello.endpointId
        runtimeInstanceId := some hello.runtimeInstanceId
        metadata := some hello.metadata
        authorizedOwnerIds := some hello.authorizedOwnerIds } = .ok (.host hello) := by
  have hdevice : canonicalId hello.deviceId = .ok hello.deviceId := hdevice
  have howners := mapM_canonicalId howners
  simp only [parseHello, ne_eq, not_true_eq_false, if_false, protocolVersion, hdevice]
  simp only [bind, Except.bind, parseHostHello, Option.elim]
  rw [hendpoint, hruntime, if_neg (by decide), Option.getD_some, howners]

/-- The hello of an Owner with a canonical key is read as it stands. -/
theorem parseHello_of_owner {ownerId : String} (h : IsCanonicalId ownerId) :
    parseHello
      { frameType := "hello"
        protocolVersion := 2
        role := .owner
        pubkey := ownerId
        endpointId := none
        runtimeInstanceId := none
        metadata := none
        authorizedOwnerIds := none } = .ok (.owner ownerId) := by
  have h : canonicalId ownerId = .ok ownerId := h
  simp only [parseHello, ne_eq, not_true_eq_false, if_false, protocolVersion, h]
  rfl

/-- A subscription to canonical keys is read as it stands. -/
theorem parseSubscribeEndpoints_of_ids {deviceIds : List String}
    (h : ∀ deviceId ∈ deviceIds, IsCanonicalId deviceId) :
    parseSubscribeEndpoints ⟨"subscribe_endpoints", deviceIds⟩ = .ok deviceIds := by
  simp only [parseSubscribeEndpoints, ne_eq, not_true_eq_false, if_false]
  exact mapM_canonicalId h

theorem parseSubscribeEndpoints_ok {wire : SubscribeEndpointsWire} {deviceIds : List String}
    (h : parseSubscribeEndpoints wire = .ok deviceIds) :
    ∀ deviceId ∈ deviceIds, IsCanonicalId deviceId := by
  unfold parseSubscribeEndpoints at h
  split_ifs at h
  exact mem_mapM_canonicalId h

/-! ## The text of a control line

`serde_json` leaves out the members that `skip_serializing_if` names. -/

/-- A number as a parser reads it back. -/
def numberJson (z : ℤ) : Json := .number (nearestDouble z : ℤ)

def EndpointKind.json : EndpointKind → Json
  | .daemon => .string "daemon"
  | .interactive => .string "interactive"

/-- A member that is left out when its value is `None`. -/
def optional {α : Type} (key : String) (value : Option α) (json : α → Json) :
    List (String × Json) :=
  value.toList.map fun a => (key, json a)

/-- `EndpointMetadata` (lines 16–34). -/
def EndpointMetadata.json (m : EndpointMetadata) : Json :=
  .object <| [("kind", m.kind.json)] ++ optional "name" m.name .string ++
    optional "cwd" m.cwd .string ++ optional "pid" m.pid (fun (n : ℕ) => numberJson (n : ℤ)) ++
    optional "started_at" m.startedAt numberJson ++ optional "model" m.model .string ++
    optional "thinking" m.thinking .string ++ optional "working" m.working .bool

/-- `EndpointInfo` (lines 80–85). -/
def EndpointInfo.json (info : EndpointInfo) : Json :=
  .object [("endpoint_id", .string info.endpointId),
    ("runtime_instance_id", .string info.runtimeInstanceId), ("metadata", info.metadata.json)]

/-- `EndpointEvent` (lines 309–326). -/
def eventJson (frameType deviceId endpointId runtimeInstanceId : String)
    (metadata : Option EndpointMetadata) : Json :=
  .object <| [("type", .string frameType), ("device_id", .string deviceId),
    ("endpoint_id", .string endpointId), ("runtime_instance_id", .string runtimeInstanceId)] ++
    optional "metadata" metadata EndpointMetadata.json

/-- The line of `endpoints_line` and of `endpoint_event_line` (lines 274–328), parsed. -/
def ControlLine.json : ControlLine → Json
  | .endpoints deviceId infos =>
    .object [("type", .string "endpoints"), ("device_id", .string deviceId),
      ("endpoints", .array (infos.map EndpointInfo.json))]
  | .announced deviceId endpointId runtimeInstanceId metadata =>
    eventJson "endpoint_announced" deviceId endpointId runtimeInstanceId (some metadata)
  | .updated deviceId endpointId runtimeInstanceId metadata =>
    eventJson "endpoint_updated" deviceId endpointId runtimeInstanceId (some metadata)
  | .ended deviceId endpointId runtimeInstanceId =>
    eventJson "endpoint_ended" deviceId endpointId runtimeInstanceId none

end RemotePi.Relay
