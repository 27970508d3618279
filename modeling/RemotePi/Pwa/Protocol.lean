import RemotePi.Protocol.HistoryFrames
import RemotePi.Relay.Wire

/-!
# Control frames in the browser

Model of `decodeControlFrame` (`pwa/src/lib/remote-pi/protocol.ts`) on parsed JSON.
A member that an object lacks is `undefined`.

Results:
* `decodeEndpoint_json`: what the browser makes of an endpoint of a snapshot.
* `decodeControlFrame_json`: what it makes of a line of the relay.
* `isUuid_of_relay`: which of the relay's UUIDs it accepts.
-/

namespace RemotePi.Pwa

open RemotePi.Lib

/-! ## Frames -/

structure EndpointMetadata where
  kind : Relay.EndpointKind
  name : Option String
  cwd : Option String
  pid : Option ℚ
  startedAt : Option ℚ
  model : Option String
  thinking : Option String
  working : Option Bool
deriving DecidableEq, Repr

structure EndpointInfo where
  endpointId : String
  runtimeInstanceId : String
  metadata : EndpointMetadata
deriving DecidableEq, Repr

inductive ControlFrame where
  | endpoints (deviceId : String) (endpoints : List EndpointInfo)
  | endpointAnnounced (deviceId : String) (endpoint : EndpointInfo)
  | endpointUpdated (deviceId : String) (endpoint : EndpointInfo)
  | endpointEnded (deviceId endpointId runtimeInstanceId : String)
deriving DecidableEq, Repr

/-! ## Decoding -/

/-- `isId` (lines 13–15). -/
def isId (value : String) : Bool :=
  0 < Protocol.utf16Length value && Protocol.utf16Length value ≤ 256

/-- `isUuid` (lines 17–19): the pattern by the positions of its characters. -/
def isUuid (value : String) : Bool :=
  value.toList.length = 36 && value.toList.zipIdx.all fun (c, index) =>
    if index = 8 ∨ index = 13 ∨ index = 18 ∨ index = 23 then c = '-'
    else if index = 14 then '1' ≤ c ∧ c ≤ '8'
    else if index = 19 then c = '8' ∨ c = '9' ∨ c = 'a' ∨ c = 'b' ∨ c = 'A' ∨ c = 'B'
    else Relay.isHexDigit c

/-- `hasOnlyKeys` (lines 21–23). -/
def hasOnlyKeys (value : Json) (allowed : List String) : Bool :=
  value.keys.all fun key => allowed.contains key

def text? : Json → Option String
  | .string s => some s
  | _ => none

def number? : Json → Option ℚ
  | .number q => some q
  | _ => none

def bool? : Json → Option Bool
  | .bool b => some b
  | _ => none

/-- `scalar` (line 27) with the cast of its value: none when the member has another
    type, `some none` when it is undefined. -/
def scalar {α : Type} (value : Json) (key : String) (typed : Json → Option α) :
    Option (Option α) :=
  match value.member? key with
  | none => some none
  | some v => (typed v).map some

def kind? : Json → Option Relay.EndpointKind
  | .string s =>
    if s = "daemon" then some .daemon else if s = "interactive" then some .interactive else none
  | _ => none

/-- `decodeMetadata` (lines 25–30). -/
def decodeMetadata (value : Json) : Option EndpointMetadata := do
  if !hasOnlyKeys value
      ["kind", "name", "cwd", "pid", "started_at", "model", "thinking", "working"] then none
  else
    let kind ← (value.member? "kind").bind kind?
    let name ← scalar value "name" text?
    let cwd ← scalar value "cwd" text?
    let pid ← scalar value "pid" number?
    let startedAt ← scalar value "started_at" number?
    let model ← scalar value "model" text?
    let thinking ← scalar value "thinking" text?
    let working ← scalar value "working" bool?
    some { kind, name, cwd, pid, startedAt, model, thinking, working }

/-- A member that `isUuid` accepts. -/
def uuidMember (value : Json) (key : String) : Option String :=
  ((value.member? key).bind text?).filter isUuid

/-- `decodeEndpoint` (lines 32–36). -/
def decodeEndpoint (value : Json) : Option EndpointInfo := do
  let endpointId ← uuidMember value "endpoint_id"
  let runtimeInstanceId ← uuidMember value "runtime_instance_id"
  let metadata ← (value.member? "metadata").bind decodeMetadata
  some { endpointId, runtimeInstanceId, metadata }

/-- The `endpoints` branch of `decodeControlFrame` (lines 49–52). -/
def decodeEndpoints (value : Json) (deviceId : String) : Option ControlFrame :=
  match value.member? "endpoints" with
  | some (.array items) => (items.mapM decodeEndpoint).map (.endpoints deviceId)
  | _ => none

/-- The branches of `decodeControlFrame` (lines 49–58). -/
def decodeFrameOfType (value : Json) (type deviceId : String) : Option ControlFrame :=
  if type = "endpoints" ∧ hasOnlyKeys value ["type", "device_id", "endpoints"] then
    decodeEndpoints value deviceId
  else if (type = "endpoint_announced" ∨ type = "endpoint_updated") ∧
      hasOnlyKeys value
        ["type", "device_id", "endpoint_id", "runtime_instance_id", "metadata"] then
    -- The ids and the metadata are checked as those of an endpoint are.
    (decodeEndpoint value).map fun endpoint =>
      if type = "endpoint_announced" then .endpointAnnounced deviceId endpoint
      else .endpointUpdated deviceId endpoint
  else if type = "endpoint_ended" ∧
      hasOnlyKeys value ["type", "device_id", "endpoint_id", "runtime_instance_id"] then do
    let endpointId ← uuidMember value "endpoint_id"
    let runtimeInstanceId ← uuidMember value "runtime_instance_id"
    some (.endpointEnded deviceId endpointId runtimeInstanceId)
  else none

/-- `decodeControlFrame` (lines 47–59). -/
def decodeControlFrame (value : Json) : Option ControlFrame := do
  let type ← (value.member? "type").bind text?
  let deviceId ← ((value.member? "device_id").bind text?).filter isId
  decodeFrameOfType value type deviceId

/-! ## UUIDs of the relay -/

/-- The version digit and the variant digit that the browser asks for. -/
def hasVersionAndVariant (value : String) : Bool :=
  (value.toList[14]?.any fun c => '1' ≤ c ∧ c ≤ '8') &&
    value.toList[19]?.any fun c => c = '8' ∨ c = '9' ∨ c = 'a' ∨ c = 'b' ∨ c = 'A' ∨ c = 'B'

theorem isHexDigit_version {c : Char} (h : '1' ≤ c ∧ c ≤ '8') : Relay.isHexDigit c = true := by
  unfold Relay.isHexDigit
  exact decide_eq_true (Or.inl ⟨Char.le_trans (show '0' ≤ '1' by decide) h.1,
    Char.le_trans h.2 (show '8' ≤ '9' by decide)⟩)

theorem isHexDigit_variant {c : Char}
    (h : c = '8' ∨ c = '9' ∨ c = 'a' ∨ c = 'b' ∨ c = 'A' ∨ c = 'B') :
    Relay.isHexDigit c = true := by
  rcases h with rfl | rfl | rfl | rfl | rfl | rfl <;> decide

/-- What the relay lets through and the browser does not. -/
theorem isUuid_of_relay {value : String} (h : Relay.isUuid value = true) :
    isUuid value = hasVersionAndVariant value := by
  unfold Relay.isUuid at h
  rw [Bool.and_eq_true, decide_eq_true_eq] at h
  obtain ⟨hlen, hall⟩ := h
  rw [List.all_eq_true] at hall
  rw [Bool.eq_iff_iff, isUuid, hasVersionAndVariant, Bool.and_eq_true, Bool.and_eq_true,
    decide_eq_true_eq, List.all_eq_true]
  have h14 : value.toList[14]? = some (value.toList.get ⟨14, by omega⟩) :=
    List.getElem?_eq_getElem (by omega)
  have h19 : value.toList[19]? = some (value.toList.get ⟨19, by omega⟩) :=
    List.getElem?_eq_getElem (by omega)
  rw [h14, h19, Option.any_some, Option.any_some, decide_eq_true_eq, decide_eq_true_eq]
  constructor
  · rintro ⟨-, hb⟩
    constructor
    · have := hb (value.toList.get ⟨14, by omega⟩, 14) (List.mem_zipIdx_iff_getElem?.mpr h14)
      simpa using this
    · have := hb (value.toList.get ⟨19, by omega⟩, 19) (List.mem_zipIdx_iff_getElem?.mpr h19)
      simpa using this
  · rintro ⟨hversion, hvariant⟩
    refine ⟨hlen, fun ⟨c, i⟩ hm => ?_⟩
    have hget := List.mem_zipIdx_iff_getElem?.mp hm
    have hr := hall (c, i) hm
    dsimp only at hget hr ⊢
    split_ifs with hdash hi hi'
    · rwa [if_pos hdash] at hr
    · subst hi
      rw [h14] at hget
      cases hget
      exact decide_eq_true hversion
    · subst hi'
      rw [h19] at hget
      cases hget
      exact decide_eq_true hvariant
    · rwa [if_neg hdash] at hr

/-! ## What the browser makes of a line -/

/-- The metadata as the browser reads it, its numbers after `number`. -/
def readMetadata (number : ℤ → ℤ) (m : Relay.EndpointMetadata) : EndpointMetadata where
  kind := m.kind
  name := m.name
  cwd := m.cwd
  pid := m.pid.map fun (n : ℕ) => ((number n : ℤ) : ℚ)
  startedAt := m.startedAt.map fun (z : ℤ) => ((number z : ℤ) : ℚ)
  model := m.model
  thinking := m.thinking
  working := m.working

def readEndpoint (number : ℤ → ℤ) (info : Relay.EndpointInfo) : EndpointInfo :=
  ⟨info.endpointId, info.runtimeInstanceId, readMetadata number info.metadata⟩

/-- The frame with the device, the endpoints, the runtimes and the metadata of a line. -/
def readLine (number : ℤ → ℤ) : Relay.ControlLine → ControlFrame
  | .endpoints deviceId infos => .endpoints deviceId (infos.map (readEndpoint number))
  | .announced deviceId endpointId runtimeInstanceId metadata =>
    .endpointAnnounced deviceId ⟨endpointId, runtimeInstanceId, readMetadata number metadata⟩
  | .updated deviceId endpointId runtimeInstanceId metadata =>
    .endpointUpdated deviceId ⟨endpointId, runtimeInstanceId, readMetadata number metadata⟩
  | .ended deviceId endpointId runtimeInstanceId =>
    .endpointEnded deviceId endpointId runtimeInstanceId

theorem lookup_optional {α : Type} (key key' : String) (value : Option α) (json : α → Json) :
    (Relay.optional key' value json).lookup key = if key = key' then value.map json else none := by
  cases value with
  | none => simp [Relay.optional]
  | some a =>
    by_cases h : key = key'
    · subst h
      simp [Relay.optional]
    · simp [Relay.optional, h]

theorem keys_optional {α : Type} (key : String) (value : Option α) (json : α → Json)
    (allowed : List String) (h : allowed.contains key = true) :
    ((Relay.optional key value json).map Prod.fst).all (fun k => allowed.contains k) = true := by
  cases value <;> simp_all [Relay.optional]

theorem scalar_map {α β : Type} {value : Json} {key : String} {json : α → Json}
    {typed : Json → Option β} {f : α → β} {v : Option α} (hv : value.member? key = v.map json)
    (ht : ∀ a, typed (json a) = some (f a)) : scalar value key typed = some (v.map f) := by
  unfold scalar
  rw [hv]
  cases v with
  | none => rfl
  | some a => simp [ht]

/-- A member of the metadata. -/
theorem member?_metadata (m : Relay.EndpointMetadata) (key : String) :
    m.json.member? key =
      if key = "kind" then some m.kind.json
      else if key = "name" then m.name.map .string
      else if key = "cwd" then m.cwd.map .string
      else if key = "pid" then m.pid.map fun (n : ℕ) => Relay.numberJson (n : ℤ)
      else if key = "started_at" then m.startedAt.map Relay.numberJson
      else if key = "model" then m.model.map .string
      else if key = "thinking" then m.thinking.map .string
      else if key = "working" then m.working.map .bool
      else none := by
  simp only [Relay.EndpointMetadata.json, Json.member?, List.lookup_append, lookup_optional]
  by_cases h : key = "kind"
  · subst h
    rfl
  · have hne : (key == "kind") = false := by simpa using h
    simp only [List.lookup_cons, List.lookup_nil, hne, h, if_false, Option.none_or]
    split_ifs <;> simp_all

theorem decodeMetadata_json (m : Relay.EndpointMetadata) :
    decodeMetadata m.json = some (readMetadata nearestDouble m) := by
  have hkeys : hasOnlyKeys m.json
      ["kind", "name", "cwd", "pid", "started_at", "model", "thinking", "working"] = true := by
    simp only [hasOnlyKeys, Json.keys, Relay.EndpointMetadata.json, List.map_append,
      List.all_append, Bool.and_eq_true]
    refine ⟨⟨⟨⟨⟨⟨⟨rfl, ?_⟩, ?_⟩, ?_⟩, ?_⟩, ?_⟩, ?_⟩, ?_⟩ <;> exact keys_optional _ _ _ _ rfl
  have hkind : (m.json.member? "kind").bind kind? = some m.kind := by
    rw [member?_metadata, if_pos rfl]
    cases m.kind <;> rfl
  unfold decodeMetadata
  rw [hkeys, hkind,
    scalar_map (v := m.name) (f := id) (by rw [member?_metadata]; rfl) fun _ => rfl,
    scalar_map (v := m.cwd) (f := id) (by rw [member?_metadata]; rfl) fun _ => rfl,
    scalar_map (v := m.pid) (f := fun (n : ℕ) => ((nearestDouble (n : ℤ) : ℤ) : ℚ))
      (by rw [member?_metadata]; rfl) fun _ => rfl,
    scalar_map (v := m.startedAt) (f := fun (z : ℤ) => ((nearestDouble z : ℤ) : ℚ))
      (by rw [member?_metadata]; rfl) fun _ => rfl,
    scalar_map (v := m.model) (f := id) (by rw [member?_metadata]; rfl) fun _ => rfl,
    scalar_map (v := m.thinking) (f := id) (by rw [member?_metadata]; rfl) fun _ => rfl,
    scalar_map (v := m.working) (f := id) (by rw [member?_metadata]; rfl) fun _ => rfl]
  simp only [Option.map_id, id]
  rfl

theorem uuidMember_of_lookup {members : List (String × Json)} {key value : String}
    (h : members.lookup key = some (.string value)) :
    uuidMember (.object members) key = if isUuid value then some value else none := by
  rw [uuidMember, Json.member?_object, h]
  show (some value).filter isUuid = _
  rw [Option.filter_some]

/-- Any object with the members of an endpoint. -/
theorem decodeEndpoint_object {members : List (String × Json)} {info : Relay.EndpointInfo}
    (he : members.lookup "endpoint_id" = some (.string info.endpointId))
    (hr : members.lookup "runtime_instance_id" = some (.string info.runtimeInstanceId))
    (hm : members.lookup "metadata" = some info.metadata.json) :
    decodeEndpoint (.object members) =
      if isUuid info.endpointId ∧ isUuid info.runtimeInstanceId then
        some (readEndpoint nearestDouble info)
      else none := by
  have hmeta : ((Json.object members).member? "metadata").bind decodeMetadata =
      some (readMetadata nearestDouble info.metadata) := by
    rw [Json.member?_object, hm]
    exact decodeMetadata_json info.metadata
  unfold decodeEndpoint
  rw [uuidMember_of_lookup he, uuidMember_of_lookup hr, hmeta]
  by_cases h₁ : isUuid info.endpointId = true <;>
    by_cases h₂ : isUuid info.runtimeInstanceId = true <;> simp [h₁, h₂, readEndpoint]

theorem decodeEndpoint_json (info : Relay.EndpointInfo) :
    decodeEndpoint info.json =
      if isUuid info.endpointId ∧ isUuid info.runtimeInstanceId then
        some (readEndpoint nearestDouble info)
      else none :=
  decodeEndpoint_object rfl rfl rfl

def endpointIds (info : Relay.EndpointInfo) : List String :=
  [info.endpointId, info.runtimeInstanceId]

/-- The ids that a line names. -/
def lineIds : Relay.ControlLine → List String
  | .endpoints _ infos => infos.flatMap endpointIds
  | .announced _ endpointId runtimeInstanceId _ | .updated _ endpointId runtimeInstanceId _
  | .ended _ endpointId runtimeInstanceId => [endpointId, runtimeInstanceId]

theorem mapM_decodeEndpoint (infos : List Relay.EndpointInfo) :
    (infos.map Relay.EndpointInfo.json).mapM decodeEndpoint =
      if ∀ id ∈ infos.flatMap endpointIds, isUuid id = true then
        some (infos.map (readEndpoint nearestDouble))
      else none := by
  induction infos with
  | nil => rfl
  | cons info infos ih =>
    rw [List.map_cons, List.mapM_cons, decodeEndpoint_json, ih]
    by_cases h : isUuid info.endpointId = true ∧ isUuid info.runtimeInstanceId = true
    · rw [if_pos h]
      by_cases h' : ∀ id ∈ infos.flatMap endpointIds, isUuid id = true
      · rw [if_pos h', if_pos]
        · rfl
        · intro id hid
          rw [List.flatMap_cons, List.mem_append, endpointIds, List.mem_pair] at hid
          rcases hid with (rfl | rfl) | hid
          · exact h.1
          · exact h.2
          · exact h' id hid
      · rw [if_neg h', if_neg fun hall => h' fun id hid => hall id (List.mem_append_right _ hid)]
        rfl
    · have hnot : ¬ ∀ id ∈ (info :: infos).flatMap endpointIds, isUuid id = true := fun hall =>
        h ⟨hall _ List.mem_cons_self, hall _ (List.mem_cons_of_mem _ List.mem_cons_self)⟩
      rw [if_neg h, if_neg hnot]
      rfl

theorem decodeControlFrame_of_type {value : Json} {type deviceId : String}
    (ht : value.member? "type" = some (.string type))
    (hd : value.member? "device_id" = some (.string deviceId)) (hid : isId deviceId = true) :
    decodeControlFrame value = decodeFrameOfType value type deviceId := by
  have hid' : (some deviceId).filter isId = some deviceId := by rw [Option.filter_some, if_pos hid]
  rw [decodeControlFrame, ht, hd]
  show ((some deviceId).filter isId).bind _ = _
  rw [hid']
  rfl

/-- What the browser makes of a line about a device whose id it accepts. -/
theorem decodeControlFrame_json {line : Relay.ControlLine} {deviceId : String}
    (hid : isId deviceId = true)
    (hd : line.json.member? "device_id" = some (.string deviceId)) :
    decodeControlFrame line.json =
      if ∀ id ∈ lineIds line, isUuid id = true then some (readLine nearestDouble line)
      else none := by
  have hpair : ∀ e rt : String,
      (∀ id ∈ [e, rt], isUuid id = true) ↔ isUuid e = true ∧ isUuid rt = true := by
    simp
  cases line with
  | endpoints d infos =>
    rw [decodeControlFrame_of_type rfl hd hid]
    cases hd
    rw [decodeFrameOfType, if_pos ⟨rfl, rfl⟩]
    show ((infos.map Relay.EndpointInfo.json).mapM decodeEndpoint).map _ = _
    rw [mapM_decodeEndpoint]
    have hids : lineIds (.endpoints deviceId infos) = infos.flatMap endpointIds := rfl
    rw [hids]
    by_cases h : ∀ id ∈ infos.flatMap endpointIds, isUuid id = true
    · rw [if_pos h, if_pos h]
      rfl
    · rw [if_neg h, if_neg h]
      rfl
  | announced d e rt m =>
    rw [decodeControlFrame_of_type rfl hd hid]
    cases hd
    rw [decodeFrameOfType, if_neg (by simp), if_pos ⟨Or.inl rfl, rfl⟩]
    show (decodeEndpoint (.object _)).map _ = _
    rw [@decodeEndpoint_object _ ⟨e, rt, m⟩ rfl rfl rfl]
    simp only [lineIds, hpair, if_true]
    split_ifs <;> rfl
  | updated d e rt m =>
    rw [decodeControlFrame_of_type rfl hd hid]
    cases hd
    rw [decodeFrameOfType, if_neg (by simp), if_pos ⟨Or.inr rfl, rfl⟩]
    show (decodeEndpoint (.object _)).map _ = _
    rw [@decodeEndpoint_object _ ⟨e, rt, m⟩ rfl rfl rfl]
    simp only [lineIds, hpair,
      if_neg (show ¬ "endpoint_updated" = "endpoint_announced" by decide)]
    split_ifs <;> rfl
  | ended d e rt =>
    rw [decodeControlFrame_of_type rfl hd hid]
    cases hd
    rw [decodeFrameOfType, if_neg (by simp), if_neg (by simp), if_pos ⟨rfl, rfl⟩]
    rw [show (Relay.ControlLine.ended deviceId e rt).json = .object _ from rfl,
      @uuidMember_of_lookup _ _ e rfl, @uuidMember_of_lookup _ _ rt rfl]
    simp only [lineIds, hpair]
    by_cases h₁ : isUuid e = true <;> by_cases h₂ : isUuid rt = true <;> simp [h₁, h₂, readLine]

end RemotePi.Pwa
