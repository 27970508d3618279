import Mathlib.Data.List.Basic
import Mathlib.Data.Nat.Notation
import Mathlib.Data.Int.Notation

/-!
# Outer frames of the relay

The data of `relay/src/protocol/outer.rs`: the parsed forms of the frames a
relay accepts, and the lines it produces. A line is kept as the value that
`serde_json::to_string` serialises; serialising these structs cannot fail, so
the `Option<String>` of the `*_line` functions is always `Some`.

`pid` is a `u64` and `started_at` an `i64` that the relay only copies; a
`HashSet<String>` that is only asked for membership is a list.
-/

namespace RemotePi.Relay

/-- `EndpointKind`. -/
inductive EndpointKind where
  | daemon
  | interactive
deriving DecidableEq, Repr

/-- `EndpointMetadata`. -/
structure EndpointMetadata where
  kind : EndpointKind
  name : Option String
  cwd : Option String
  pid : Option ℕ
  startedAt : Option ℤ
  model : Option String
  thinking : Option String
  working : Option Bool
deriving DecidableEq, Repr

/-- The fields of the `hello` of a Host. -/
structure HostHello where
  deviceId : String
  endpointId : String
  runtimeInstanceId : String
  metadata : EndpointMetadata
  authorizedOwnerIds : List String
deriving DecidableEq, Repr

/-- `Hello`: a Host with its endpoint, or an Owner. -/
inductive Hello where
  | host (hello : HostHello)
  | owner (ownerId : String)
deriving DecidableEq, Repr

/-- `RoutePurpose`. -/
inductive RoutePurpose where
  | pairing
  | session
deriving DecidableEq, Repr

/-- `RouteFrame`. -/
structure RouteFrame where
  frameType : String
  purpose : RoutePurpose
  deviceId : String
  endpointId : String
  runtimeInstanceId : String
  targetOwnerId : Option String
  sourceOwnerId : Option String
  ct : String
deriving DecidableEq, Repr

/-- The fields that an `endpoint_update` may change. -/
structure EndpointUpdate where
  metadata : Option EndpointMetadata
  authorizedOwnerIds : Option (List String)
deriving DecidableEq, Repr

/-- What an Owner is told of an endpoint. -/
structure EndpointInfo where
  endpointId : String
  runtimeInstanceId : String
  metadata : EndpointMetadata
deriving DecidableEq, Repr

/-! ## Control lines (lines 274–348) -/

/-- The control lines the relay sends to Owner connections. -/
inductive ControlLine where
  | endpoints (deviceId : String) (endpoints : List EndpointInfo)
  | announced (deviceId endpointId runtimeInstanceId : String) (metadata : EndpointMetadata)
  | updated (deviceId endpointId runtimeInstanceId : String) (metadata : EndpointMetadata)
  | ended (deviceId endpointId runtimeInstanceId : String)
deriving DecidableEq, Repr

/-- `endpoints_line` (lines 274–290). -/
def endpointsLine (deviceId : String) (endpoints : List EndpointInfo) : ControlLine :=
  .endpoints deviceId endpoints

/-- `endpoint_announced_line` (lines 292–294). -/
def endpointAnnouncedLine (deviceId : String) (endpoint : EndpointInfo) : ControlLine :=
  .announced deviceId endpoint.endpointId endpoint.runtimeInstanceId endpoint.metadata

/-- `endpoint_updated_line` (lines 296–298). -/
def endpointUpdatedLine (deviceId : String) (endpoint : EndpointInfo) : ControlLine :=
  .updated deviceId endpoint.endpointId endpoint.runtimeInstanceId endpoint.metadata

/-- `endpoint_ended_line` (lines 300–302): the only event line without metadata. -/
def endpointEndedLine (deviceId : String) (endpoint : EndpointInfo) : ControlLine :=
  .ended deviceId endpoint.endpointId endpoint.runtimeInstanceId

/-- The text messages the relay puts on a connection's queue. -/
inductive Message where
  | control (line : ControlLine)
  | route (frame : RouteFrame)
deriving DecidableEq, Repr

end RemotePi.Relay
