import RemotePi.Lib.OrderedMap
import RemotePi.Relay.Outer
import Mathlib.Data.List.Dedup

/-!
# The endpoint registry of the relay

Model of `PeerRegistry` (`relay/src/peers/registry.rs`). Every operation is its
locked step: a function from the state behind the mutex to the new state, the
messages it sends while it holds the lock, and the notifications that
`send_notifications` pushes after the lock is released.

A `HashMap` is an `OrderedMap`. Its iteration order is unspecified in Rust; it
only decides in which order notifications for different connections are listed
and in which order a snapshot lists the endpoints of a device.
-/

namespace RemotePi.Relay

open RemotePi.Lib

/-- `(device_id, endpoint_id)`. -/
abbrev EndpointKey := String × String

/-- The sending half of a connection's unbounded queue, by the number of the queue. -/
abbrev Outbound := ℕ

inductive RouteOutcome where
  | delivered
  | unauthorized
  | stale
  | unavailable
deriving DecidableEq, Repr

structure HostConnection where
  connId : ℕ
  runtimeInstanceId : String
  metadata : EndpointMetadata
  authorizedOwnerIds : List String
  tx : Outbound
deriving DecidableEq

structure OwnerConnection where
  tx : Outbound
  subscribedDeviceIds : List String
deriving DecidableEq

/-- `RegistryInner` (lines 41–45): the state behind the mutex. -/
structure RegistryInner where
  endpoints : OrderedMap EndpointKey HostConnection
  owners : OrderedMap String (OrderedMap ℕ OwnerConnection)
deriving DecidableEq

/-- The registry without connections. -/
def RegistryInner.empty : RegistryInner := ⟨.empty, .empty⟩

/-- `HostSnapshot` (lines 362–366). -/
structure HostSnapshot where
  runtimeInstanceId : String
  metadata : EndpointMetadata
  authorizedOwnerIds : List String
deriving DecidableEq

/-- `HostSnapshot::from` (lines 368–376). -/
def HostSnapshot.from (host : HostConnection) : HostSnapshot :=
  ⟨host.runtimeInstanceId, host.metadata, host.authorizedOwnerIds⟩

/-- `HostSnapshot::endpoint_info` (lines 379–385). -/
def HostSnapshot.endpointInfo (host : HostSnapshot) (endpointId : String) : EndpointInfo :=
  ⟨endpointId, host.runtimeInstanceId, host.metadata⟩

/-- `endpoint_info` (lines 388–394). -/
def endpointInfo (host : HostConnection) (endpointId : String) : EndpointInfo :=
  ⟨endpointId, host.runtimeInstanceId, host.metadata⟩

/-- The notifications computed under the lock and pushed after it is released. -/
abbrev Notifications := List (Outbound × ControlLine)

/-! ## Visibility -/

/-- The line an Owner is due when its authorization goes from `was` to `is`
    (lines 332–337). -/
def visibilityLine (key : EndpointKey) (previous : Option HostSnapshot)
    (current : Option HostConnection) (was is : Bool) : Option ControlLine :=
  match was, is with
  | false, true => current.map fun host => endpointAnnouncedLine key.1 (endpointInfo host key.2)
  | true, true => current.map fun host => endpointUpdatedLine key.1 (endpointInfo host key.2)
  | true, false => previous.map fun host => endpointEndedLine key.1 (host.endpointInfo key.2)
  | false, false => none

/-- The notifications for the connections of one Owner (lines 326–346). -/
def ownerDelta (key : EndpointKey) (previous : Option HostSnapshot)
    (current : Option HostConnection) (ownerId : String)
    (connections : OrderedMap ℕ OwnerConnection) : Notifications :=
  let wasAuthorized := previous.any fun host => host.authorizedOwnerIds.contains ownerId
  let isAuthorized := current.any fun host => host.authorizedOwnerIds.contains ownerId
  match visibilityLine key previous current wasAuthorized isAuthorized with
  | none => []
  | some line =>
    (connections.values.filter fun owner => owner.subscribedDeviceIds.contains key.1).map
      fun owner => (owner.tx, line)

/-- `visibility_delta_with` (lines 308–349). -/
def visibilityDeltaWith (inner : RegistryInner) (key : EndpointKey)
    (previous : Option HostSnapshot) (current : Option HostConnection) : Notifications :=
  inner.owners.entries.flatMap fun e => ownerDelta key previous current e.1 e.2

/-- `visibility_delta` (lines 290–297). -/
def visibilityDelta (inner : RegistryInner) (key : EndpointKey)
    (previous current : Option HostConnection) : Notifications :=
  visibilityDeltaWith inner key (previous.map HostSnapshot.from) current

/-- `visibility_delta_from_snapshot` (lines 299–306). -/
def visibilityDeltaFromSnapshot (inner : RegistryInner) (key : EndpointKey)
    (previous : Option HostSnapshot) (current : Option HostConnection) : Notifications :=
  visibilityDeltaWith inner key previous current

/-! ## Registration -/

/-- `register_host` (lines 62–81) after `fetch_add` returned `connId`. -/
def registerHost (inner : RegistryInner) (connId : ℕ) (hello : HostHello) (tx : Outbound) :
    RegistryInner × Notifications :=
  let key := (hello.deviceId, hello.endpointId)
  let host : HostConnection :=
    { connId, runtimeInstanceId := hello.runtimeInstanceId, metadata := hello.metadata,
      authorizedOwnerIds := hello.authorizedOwnerIds, tx }
  let previous := inner.endpoints.get? key
  let inner := { inner with endpoints := inner.endpoints.set key host }
  (inner, visibilityDelta inner key previous (inner.endpoints.get? key))

/-- `register_owner` (lines 83–93) after `fetch_add` returned `connId`. -/
def registerOwner (inner : RegistryInner) (connId : ℕ) (ownerId : String) (tx : Outbound) :
    RegistryInner :=
  let connections := (inner.owners.get? ownerId).getD .empty
  { inner with
    owners := inner.owners.set ownerId
      (connections.set connId { tx, subscribedDeviceIds := [] }) }

/-- `unregister_host` (lines 95–110). -/
def unregisterHost (inner : RegistryInner) (deviceId endpointId : String) (connId : ℕ) :
    RegistryInner × Notifications :=
  let key := (deviceId, endpointId)
  let previous := inner.endpoints.get? key
  if previous.any fun host => host.connId = connId then
    let inner := { inner with endpoints := inner.endpoints.erase key }
    (inner, visibilityDelta inner key previous none)
  else (inner, [])

/-- `unregister_owner` (lines 112–124). -/
def unregisterOwner (inner : RegistryInner) (ownerId : String) (connId : ℕ) : RegistryInner :=
  match inner.owners.get? ownerId with
  | some connections =>
    let connections := connections.erase connId
    if connections.isEmpty then { inner with owners := inner.owners.erase ownerId }
    else { inner with owners := inner.owners.set ownerId connections }
  | none => inner

/-! ## Subscriptions and updates -/

/-- The snapshot line of one device for an Owner (lines 147–158). -/
def deviceSnapshot (inner : RegistryInner) (ownerId deviceId : String) : ControlLine :=
  endpointsLine deviceId <|
    (inner.endpoints.entries.filter fun e =>
      decide (e.1.1 = deviceId) && e.2.authorizedOwnerIds.contains ownerId).map
      fun e => endpointInfo e.2 e.1.2

/-- `subscribe_endpoints` (lines 126–163): `none` for a stale connection. The
    snapshots are sent while the lock is held. -/
def subscribeEndpoints (inner : RegistryInner) (ownerId : String) (connId : ℕ)
    (deviceIds : List String) : Option (RegistryInner × Notifications) :=
  let deviceIds := deviceIds.dedup
  match inner.owners.get? ownerId with
  | none => none
  | some connections =>
    match connections.get? connId with
    | none => none
    | some owner =>
      let owner := { owner with subscribedDeviceIds := deviceIds }
      let inner := { inner with owners := inner.owners.set ownerId (connections.set connId owner) }
      some (inner, deviceIds.map fun deviceId => (owner.tx, deviceSnapshot inner ownerId deviceId))

/-- The fields an update leaves in the registered connection (lines 180–185). -/
def EndpointUpdate.apply (update : EndpointUpdate) (host : HostConnection) : HostConnection :=
  { host with
    metadata := update.metadata.getD host.metadata
    authorizedOwnerIds := update.authorizedOwnerIds.getD host.authorizedOwnerIds }

/-- `update_host` (lines 165–191): `none` for a connection that is not authoritative. -/
def updateHost (inner : RegistryInner) (deviceId endpointId : String) (connId : ℕ)
    (update : EndpointUpdate) : Option (RegistryInner × Notifications) :=
  let key := (deviceId, endpointId)
  match inner.endpoints.get? key with
  | none => none
  | some host =>
    if host.connId = connId then
      let previous := HostSnapshot.from host
      let inner := { inner with endpoints := inner.endpoints.set key (update.apply host) }
      some (inner,
        visibilityDeltaFromSnapshot inner key (some previous) (inner.endpoints.get? key))
    else none

/-- `is_active_host` (lines 195–200). -/
def isActiveHost (inner : RegistryInner) (deviceId endpointId : String) (connId : ℕ) : Bool :=
  (inner.endpoints.get? (deviceId, endpointId)).any fun host => host.connId = connId

/-! ## Routing -/

/-- The messages a route operation puts on queues, and its outcome. `isOpen tx`
    says that the receiver of `tx` is still there, so that `tx.send` succeeds. -/
abbrev RouteResult := RouteOutcome × List (Outbound × RouteFrame)

/-- `route_from_owner` (lines 202–239). -/
def routeFromOwner (isOpen : Outbound → Bool) (inner : RegistryInner) (ownerId : String)
    (connId : ℕ) (route : RouteFrame) : RouteResult :=
  if route.targetOwnerId.isSome || route.sourceOwnerId.isSome then (.unauthorized, [])
  else if !((inner.owners.get? ownerId).any fun connections => connections.contains connId) then
    (.stale, [])
  else
    match inner.endpoints.get? (route.deviceId, route.endpointId) with
    | none => (.unavailable, [])
    | some host =>
      if host.runtimeInstanceId ≠ route.runtimeInstanceId then (.stale, [])
      else if route.purpose = .session ∧ !host.authorizedOwnerIds.contains ownerId then
        (.unauthorized, [])
      else
        let forwarded := { route with sourceOwnerId := some ownerId }
        if isOpen host.tx then (.delivered, [(host.tx, forwarded)]) else (.unavailable, [])

/-- `route_from_host` (lines 241–288). -/
def routeFromHost (isOpen : Outbound → Bool) (inner : RegistryInner)
    (deviceId endpointId : String) (connId : ℕ) (route : RouteFrame) : RouteResult :=
  match route.targetOwnerId with
  | none => (.unauthorized, [])
  | some targetOwnerId =>
    match inner.endpoints.get? (deviceId, endpointId) with
    | none => (.stale, [])
    | some host =>
      if host.connId ≠ connId ∨ route.deviceId ≠ deviceId ∨ route.endpointId ≠ endpointId ∨
          route.runtimeInstanceId ≠ host.runtimeInstanceId ∨ route.sourceOwnerId.isSome then
        (.stale, [])
      else if route.purpose = .session ∧ !host.authorizedOwnerIds.contains targetOwnerId then
        (.unauthorized, [])
      else
        match inner.owners.get? targetOwnerId with
        | none => (.unavailable, [])
        | some owners =>
          let sends := (owners.values.filter fun owner => isOpen owner.tx).map
            fun owner => (owner.tx, route)
          if sends.isEmpty then (.unavailable, []) else (.delivered, sends)

/-! ## What the operations change -/

/-- The connection of an Owner under a connection id. -/
def RegistryInner.ownerConnection (inner : RegistryInner) (ownerId : String) (connId : ℕ) :
    Option OwnerConnection :=
  (inner.owners.get? ownerId).bind fun connections => connections.get? connId

theorem ownerConnection_eq_some {inner : RegistryInner} {ownerId : String} {connId : ℕ}
    {owner : OwnerConnection} :
    inner.ownerConnection ownerId connId = some owner ↔
      ∃ connections, inner.owners.get? ownerId = some connections ∧
        connections.get? connId = some owner :=
  Option.bind_eq_some_iff

/-- Setting the connections of an Owner. -/
theorem ownerConnection_set (inner : RegistryInner) (ownerId : String)
    (connections : OrderedMap ℕ OwnerConnection) (o : String) (c : ℕ) :
    ({ inner with owners := inner.owners.set ownerId connections }).ownerConnection o c =
      if o = ownerId then connections.get? c else inner.ownerConnection o c := by
  unfold RegistryInner.ownerConnection
  rw [OrderedMap.get?_set]
  split_ifs <;> rfl

@[simp] theorem registerHost_endpoints (inner : RegistryInner) (connId : ℕ) (hello : HostHello)
    (tx : Outbound) :
    (registerHost inner connId hello tx).1.endpoints =
      inner.endpoints.set (hello.deviceId, hello.endpointId)
        { connId, runtimeInstanceId := hello.runtimeInstanceId, metadata := hello.metadata,
          authorizedOwnerIds := hello.authorizedOwnerIds, tx } := rfl

@[simp] theorem registerHost_owners (inner : RegistryInner) (connId : ℕ) (hello : HostHello)
    (tx : Outbound) : (registerHost inner connId hello tx).1.owners = inner.owners := rfl

@[simp] theorem registerOwner_endpoints (inner : RegistryInner) (connId : ℕ) (ownerId : String)
    (tx : Outbound) : (registerOwner inner connId ownerId tx).endpoints = inner.endpoints := rfl

theorem registerOwner_ownerConnection (inner : RegistryInner) (connId : ℕ) (ownerId : String)
    (tx : Outbound) (o : String) (c : ℕ) :
    (registerOwner inner connId ownerId tx).ownerConnection o c =
      if o = ownerId ∧ c = connId then some ⟨tx, []⟩ else inner.ownerConnection o c := by
  rw [registerOwner, ownerConnection_set]
  by_cases ho : o = ownerId
  · subst ho
    rw [if_pos rfl, OrderedMap.get?_set]
    by_cases hc : c = connId
    · simp [hc]
    · cases h : inner.owners.get? o <;> simp [hc, h, RegistryInner.ownerConnection]
  · simp [ho]

theorem unregisterHost_cases (inner : RegistryInner) (deviceId endpointId : String)
    (connId : ℕ) :
    (∃ host, inner.endpoints.get? (deviceId, endpointId) = some host ∧ host.connId = connId ∧
        unregisterHost inner deviceId endpointId connId =
          ({ inner with endpoints := inner.endpoints.erase (deviceId, endpointId) },
            visibilityDelta { inner with endpoints := inner.endpoints.erase (deviceId, endpointId) }
              (deviceId, endpointId) (some host) none)) ∨
      ((∀ host, inner.endpoints.get? (deviceId, endpointId) = some host → host.connId ≠ connId) ∧
        unregisterHost inner deviceId endpointId connId = (inner, [])) := by
  cases h : inner.endpoints.get? (deviceId, endpointId) with
  | none => exact Or.inr ⟨fun host hh => (by cases hh), by simp [unregisterHost, h]⟩
  | some host =>
    by_cases hc : host.connId = connId
    · exact Or.inl ⟨host, rfl, hc, by simp [unregisterHost, h, hc]⟩
    · refine Or.inr ⟨fun host' hh => ?_, by simp [unregisterHost, h, hc]⟩
      cases hh
      exact hc

@[simp] theorem unregisterHost_owners (inner : RegistryInner) (deviceId endpointId : String)
    (connId : ℕ) : (unregisterHost inner deviceId endpointId connId).1.owners = inner.owners := by
  rcases unregisterHost_cases inner deviceId endpointId connId with ⟨_, _, _, h⟩ | ⟨_, h⟩ <;>
    rw [h]

@[simp] theorem unregisterOwner_endpoints (inner : RegistryInner) (ownerId : String)
    (connId : ℕ) : (unregisterOwner inner ownerId connId).endpoints = inner.endpoints := by
  unfold unregisterOwner
  dsimp only
  split
  · split_ifs <;> rfl
  · rfl

theorem unregisterOwner_ownerConnection (inner : RegistryInner) (ownerId : String) (connId : ℕ)
    (o : String) (c : ℕ) :
    (unregisterOwner inner ownerId connId).ownerConnection o c =
      if o = ownerId ∧ c = connId then none else inner.ownerConnection o c := by
  unfold unregisterOwner
  dsimp only
  by_cases ho : o = ownerId
  · subst ho
    split
    · next connections hs =>
      have hget : inner.ownerConnection o c = connections.get? c := by
        simp [RegistryInner.ownerConnection, hs]
      split_ifs with he hc hc
      · simp [RegistryInner.ownerConnection]
      · have := OrderedMap.get?_eq_none_of_isEmpty he c
        rw [OrderedMap.get?_erase_of_ne _ (fun h => hc ⟨rfl, h⟩)] at this
        simp [RegistryInner.ownerConnection, hs, this]
      · rw [ownerConnection_set, if_pos rfl, hc.2, OrderedMap.get?_erase_self]
      · rw [ownerConnection_set, if_pos rfl, hget,
          OrderedMap.get?_erase_of_ne _ (fun h => hc ⟨rfl, h⟩)]
    · next hs => simp [RegistryInner.ownerConnection, hs]
  · rw [if_neg fun h => ho h.1]
    split
    · split_ifs <;> simp [RegistryInner.ownerConnection, OrderedMap.get?_set,
        OrderedMap.get?_erase, ho]
    · rfl

/-- A subscription replaces the devices of its connection and sends the snapshots. -/
theorem subscribeEndpoints_eq_some {inner inner' : RegistryInner} {ownerId : String}
    {connId : ℕ} {deviceIds : List String} {snapshots : Notifications}
    (h : subscribeEndpoints inner ownerId connId deviceIds = some (inner', snapshots)) :
    ∃ owner, inner.ownerConnection ownerId connId = some owner ∧
      inner'.endpoints = inner.endpoints ∧
      (∀ o c, inner'.ownerConnection o c =
        if o = ownerId ∧ c = connId then
          some { owner with subscribedDeviceIds := deviceIds.dedup }
        else inner.ownerConnection o c) ∧
      snapshots = deviceIds.dedup.map fun d => (owner.tx, deviceSnapshot inner' ownerId d) := by
  simp only [subscribeEndpoints] at h
  split at h
  · cases h
  · next connections hs =>
    split at h
    · cases h
    · next owner hc =>
      cases h
      refine ⟨owner, ?_, rfl, fun o c => ?_, rfl⟩
      · simp [RegistryInner.ownerConnection, hs, hc]
      · rw [ownerConnection_set]
        by_cases ho : o = ownerId
        · subst ho
          rw [if_pos rfl, OrderedMap.get?_set]
          by_cases hk : c = connId <;> simp [hk, RegistryInner.ownerConnection, hs]
        · simp [ho]

/-- An update is accepted from the authoritative connection only. -/
theorem updateHost_eq_some {inner inner' : RegistryInner} {deviceId endpointId : String}
    {connId : ℕ} {update : EndpointUpdate} {notifications : Notifications}
    (h : updateHost inner deviceId endpointId connId update = some (inner', notifications)) :
    ∃ host, inner.endpoints.get? (deviceId, endpointId) = some host ∧ host.connId = connId ∧
      inner' = { inner with
        endpoints := inner.endpoints.set (deviceId, endpointId) (update.apply host) } ∧
      notifications = visibilityDelta inner' (deviceId, endpointId) (some host)
        (some (update.apply host)) := by
  simp only [updateHost] at h
  split at h
  · cases h
  · next host hs =>
    split_ifs at h with hc
    cases h
    exact ⟨host, hs, hc, rfl, by simp [visibilityDelta, visibilityDeltaFromSnapshot]⟩

@[simp] theorem EndpointUpdate.apply_connId (update : EndpointUpdate) (host : HostConnection) :
    (update.apply host).connId = host.connId := rfl

@[simp] theorem EndpointUpdate.apply_tx (update : EndpointUpdate) (host : HostConnection) :
    (update.apply host).tx = host.tx := rfl

/-- What `route_from_owner` sends, and under which conditions. -/
theorem mem_routeFromOwner {isOpen : Outbound → Bool} {inner : RegistryInner} {ownerId : String}
    {connId : ℕ} {route : RouteFrame} {tx : Outbound} {frame : RouteFrame}
    (h : (tx, frame) ∈ (routeFromOwner isOpen inner ownerId connId route).2) :
    (∃ owner, inner.ownerConnection ownerId connId = some owner) ∧
      ∃ host, inner.endpoints.get? (frame.deviceId, frame.endpointId) = some host ∧
        host.tx = tx ∧ host.runtimeInstanceId = frame.runtimeInstanceId ∧
        (frame.purpose = .session → ownerId ∈ host.authorizedOwnerIds) ∧
        frame = { route with sourceOwnerId := some ownerId } := by
  simp only [routeFromOwner] at h
  split_ifs at h with h1 h2
  · cases h
  · cases h
  · split at h
    · cases h
    · next host hs =>
      split_ifs at h with h3 h4 h5
      · cases h
      · cases h
      · cases List.mem_singleton.mp h
        refine ⟨?_, host, hs, rfl, not_not.mp h3, fun hp => ?_, rfl⟩
        · simpa [Option.any_eq_true, OrderedMap.contains_iff, ← ownerConnection_eq_some,
            ← exists_and_left, exists_comm] using h2
        · simpa [show route.purpose = .session from hp] using h4
      · cases h

/-- What `route_from_host` sends, and under which conditions. -/
theorem mem_routeFromHost {isOpen : Outbound → Bool} {inner : RegistryInner}
    {deviceId endpointId : String} {connId : ℕ} {route : RouteFrame} {tx : Outbound}
    {frame : RouteFrame}
    (h : (tx, frame) ∈ (routeFromHost isOpen inner deviceId endpointId connId route).2) :
    frame = route ∧ frame.sourceOwnerId = none ∧ frame.deviceId = deviceId ∧
      frame.endpointId = endpointId ∧
      ∃ host targetOwnerId targetConnId owner,
        inner.endpoints.get? (deviceId, endpointId) = some host ∧ host.connId = connId ∧
        host.runtimeInstanceId = frame.runtimeInstanceId ∧
        frame.targetOwnerId = some targetOwnerId ∧
        (frame.purpose = .session → targetOwnerId ∈ host.authorizedOwnerIds) ∧
        inner.ownerConnection targetOwnerId targetConnId = some owner ∧ owner.tx = tx := by
  simp only [routeFromHost] at h
  split at h
  · cases h
  · next targetOwnerId ht =>
    split at h
    · cases h
    · next host hs =>
      split_ifs at h with h1 h2
      · cases h
      · cases h
      · split at h
        · cases h
        · next owners ho =>
          split_ifs at h with h3
          · cases h
          · obtain ⟨owner, hm, he⟩ := List.mem_map.mp h
            cases he
            obtain ⟨⟨c, owner'⟩, hc, rfl⟩ := List.mem_map.mp (List.mem_filter.mp hm).1
            push Not at h1
            obtain ⟨k1, k2, k3, k4, k5⟩ := h1
            refine ⟨rfl, by simpa using k5, k2, k3, host, targetOwnerId, c, owner', hs, k1,
              k4.symm, ht, fun hp => ?_, ?_, rfl⟩
            · simpa [hp] using h2
            · exact ownerConnection_eq_some.mpr ⟨owners, ho, OrderedMap.mem_entries_iff.mp hc⟩

/-- The authoritative connection of the key is another one: `route_from_host` is stale. -/
theorem routeFromHost_stale (isOpen : Outbound → Bool) {inner : RegistryInner}
    {deviceId endpointId : String} {connId : ℕ} (route : RouteFrame)
    (h : ∀ host, inner.endpoints.get? (deviceId, endpointId) = some host → host.connId ≠ connId) :
    (routeFromHost isOpen inner deviceId endpointId connId route).2 = [] := by
  simp only [routeFromHost]
  split
  · rfl
  · split
    · rfl
    · next host hs => rw [if_pos (Or.inl (h host hs))]

/-- The authoritative connection of the key is another one: `update_host` is stale. -/
theorem updateHost_stale {inner : RegistryInner} {deviceId endpointId : String} {connId : ℕ}
    (update : EndpointUpdate)
    (h : ∀ host, inner.endpoints.get? (deviceId, endpointId) = some host → host.connId ≠ connId) :
    updateHost inner deviceId endpointId connId update = none := by
  simp only [updateHost]
  split
  · rfl
  · next host hs => rw [if_neg (h host hs)]

end RemotePi.Relay
