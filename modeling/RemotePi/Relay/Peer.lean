import RemotePi.Lib.Trace
import RemotePi.Relay.Registry

/-!
# Connections of the relay

Model of `relay/src/handlers/peer.rs`: what each WebSocket task does once its
peer is authenticated, as a transition system over all connections.

A connection is numbered by its own outbound queue. The steps of one connection
are sequential, as in its task; the steps of different connections interleave.
An operation of the registry is its locked step, followed by a separate step
`push` in which the task runs `send_notifications`.

The counter `next_conn_id` is an `AtomicU64` in Rust and a natural number here:
it does not wrap in fewer than `2^64` connections.
-/

namespace RemotePi.Relay

open RemotePi.Lib

/-- `Connection` (lines 32–43): what a registered task knows about itself. -/
inductive Connection where
  | host (deviceId endpointId : String) (connId : ℕ)
  | owner (ownerId : String) (connId : ℕ)
deriving DecidableEq, Repr

def Connection.connId : Connection → ℕ
  | .host _ _ connId => connId
  | .owner _ connId => connId

/-- Where a task stands: between `fetch_add` and the lock of its registration,
    in the frame loop, or done. -/
inductive SocketPhase where
  | registering (hello : Hello) (connId : ℕ)
  | serving (connection : Connection)
  | closed
deriving DecidableEq, Repr

structure Socket where
  authenticatedId : String
  phase : SocketPhase
deriving DecidableEq, Repr

/-- The state of the relay. `outstanding` holds the notifications computed under
    the lock and not pushed yet, by the connection whose task has to push them,
    in the order of the locked steps; `sent` is everything put on queues, oldest
    first. -/
structure State where
  inner : RegistryInner
  nextConnId : ℕ
  sockets : OrderedMap Outbound Socket
  outstanding : OrderedMap Outbound Notifications
  sent : List (Outbound × Message)
deriving DecidableEq

/-- A relay without connections. -/
def State.init : State := ⟨.empty, 0, .empty, .empty, []⟩

/-- The text frames of a connection, parsed (`parse_subscribe_endpoints`,
    `parse_endpoint_update`, `parse_route`); everything else is dropped. -/
inductive PeerFrame where
  | subscribeEndpoints (deviceIds : List String)
  | endpointUpdate (update : EndpointUpdate)
  | route (frame : RouteFrame)
  | dropped
deriving DecidableEq, Repr

/-- What a locked step leaves: the new registry, the messages it sent under the
    lock, and the notifications to push. -/
structure LockedStep where
  inner : RegistryInner
  sends : List (Outbound × Message) := []
  notifications : Notifications := []

/-- The guards of `register_connection` (lines 135–152): the identity of the
    hello is the authenticated one. -/
def helloMatches : Hello → String → Bool
  | .host host, authenticatedId => host.deviceId = authenticatedId
  | .owner ownerId, authenticatedId => ownerId = authenticatedId

/-- `register_connection` (lines 135–168) after `fetch_add` returned `connId`. -/
def registerConnection (inner : RegistryInner) (connId : ℕ) (tx : Outbound) :
    Hello → Connection × LockedStep
  | .host host =>
    let (inner, notifications) := registerHost inner connId host tx
    (.host host.deviceId host.endpointId connId, { inner, notifications })
  | .owner ownerId => (.owner ownerId connId, { inner := registerOwner inner connId ownerId tx })

/-- `handle_frame` (lines 170–245). -/
def handleFrame (isOpen : Outbound → Bool) (inner : RegistryInner) :
    Connection → PeerFrame → LockedStep
  | .owner ownerId connId, .subscribeEndpoints deviceIds =>
    match subscribeEndpoints inner ownerId connId deviceIds with
    | some (inner, snapshots) => { inner, sends := snapshots.map fun s => (s.1, .control s.2) }
    | none => { inner }
  | .host deviceId endpointId connId, .endpointUpdate update =>
    match updateHost inner deviceId endpointId connId update with
    | some (inner, notifications) => { inner, notifications }
    | none => { inner }
  | .owner ownerId connId, .route frame =>
    { inner
      sends := (routeFromOwner isOpen inner ownerId connId frame).2.map fun s => (s.1, .route s.2) }
  | .host deviceId endpointId connId, .route frame =>
    { inner
      sends := (routeFromHost isOpen inner deviceId endpointId connId frame).2.map
        fun s => (s.1, .route s.2) }
  | _, _ => { inner }

/-- `unregister_connection` (lines 253–266). -/
def unregisterConnection (inner : RegistryInner) : Connection → LockedStep
  | .host deviceId endpointId connId =>
    let (inner, notifications) := unregisterHost inner deviceId endpointId connId
    { inner, notifications }
  | .owner ownerId connId => { inner := unregisterOwner inner ownerId connId }

/-! ## The transition system -/

inductive Label where
  /-- A peer authenticated as `authenticatedId`; `fetch_add` gave it a connection id. -/
  | accept (tx : Outbound) (authenticatedId : String) (hello : Hello)
  /-- The locked step of its registration. -/
  | register (tx : Outbound)
  /-- The locked step of one of its frames. -/
  | frame (tx : Outbound) (frame : PeerFrame)
  /-- The locked step of its unregistration; the receiver of its queue is gone. -/
  | disconnect (tx : Outbound)
  /-- Its task pushes the notifications of its last locked step. -/
  | push (tx : Outbound)
deriving DecidableEq, Repr

/-- The receiver of the queue is alive: the task of the connection has not ended. -/
def State.isOpen (r : State) (tx : Outbound) : Bool :=
  (r.sockets.get? tx).any fun socket => socket.phase ≠ .closed

/-- `tx.send` for every message; sending to a closed queue does nothing. -/
def State.deliver (r : State) (messages : List (Outbound × Message)) : State :=
  { r with sent := r.sent ++ messages.filter fun m => r.isOpen m.1 }

/-- A locked step of the connection `tx`, which leaves it in `phase`. -/
def State.locked (r : State) (tx : Outbound) (socket : Socket) (phase : SocketPhase)
    (l : LockedStep) : State :=
  let r := r.deliver l.sends
  { r with
    inner := l.inner
    sockets := r.sockets.set tx { socket with phase }
    outstanding :=
      if l.notifications = [] then r.outstanding else r.outstanding.set tx l.notifications }

def State.step (r : State) : Label → Option State
  | .accept tx authenticatedId hello =>
    if r.sockets.contains tx then none
    else if helloMatches hello authenticatedId then
      some { r with
        nextConnId := r.nextConnId + 1
        sockets := r.sockets.set tx ⟨authenticatedId, .registering hello r.nextConnId⟩ }
    else some { r with sockets := r.sockets.set tx ⟨authenticatedId, .closed⟩ }
  | .register tx =>
    match r.sockets.get? tx with
    | some ⟨authenticatedId, .registering hello connId⟩ =>
      let (connection, l) := registerConnection r.inner connId tx hello
      some (r.locked tx ⟨authenticatedId, .registering hello connId⟩ (.serving connection) l)
    | _ => none
  | .frame tx frame =>
    match r.sockets.get? tx with
    | some ⟨authenticatedId, .serving connection⟩ =>
      if r.outstanding.contains tx then none
      else
        some (r.locked tx ⟨authenticatedId, .serving connection⟩ (.serving connection)
          (handleFrame r.isOpen r.inner connection frame))
    | _ => none
  | .disconnect tx =>
    match r.sockets.get? tx with
    | some ⟨authenticatedId, .serving connection⟩ =>
      if r.outstanding.contains tx then none
      else
        some (r.locked tx ⟨authenticatedId, .serving connection⟩ .closed
          (unregisterConnection r.inner connection))
    | _ => none
  | .push tx =>
    match r.outstanding.get? tx with
    | some notifications =>
      let r := r.deliver (notifications.map fun n => (n.1, .control n.2))
      some { r with outstanding := r.outstanding.erase tx }
    | none => none

/-! ## What a step can do -/

theorem step_accept {r r' : State} {tx : Outbound} {authenticatedId : String} {hello : Hello}
    (h : r.step (.accept tx authenticatedId hello) = some r') :
    r.sockets.get? tx = none ∧
      ((helloMatches hello authenticatedId = true ∧
          r' = { r with
            nextConnId := r.nextConnId + 1
            sockets := r.sockets.set tx ⟨authenticatedId, .registering hello r.nextConnId⟩ }) ∨
        r' = { r with sockets := r.sockets.set tx ⟨authenticatedId, .closed⟩ }) := by
  simp only [State.step] at h
  split_ifs at h with hc hm
  · cases h; exact ⟨by simpa [OrderedMap.contains] using hc, Or.inl ⟨hm, rfl⟩⟩
  · cases h; exact ⟨by simpa [OrderedMap.contains] using hc, Or.inr rfl⟩

theorem step_register {r r' : State} {tx : Outbound} (h : r.step (.register tx) = some r') :
    ∃ authenticatedId hello connId,
      r.sockets.get? tx = some ⟨authenticatedId, .registering hello connId⟩ ∧
      r' = r.locked tx ⟨authenticatedId, .registering hello connId⟩
        (.serving (registerConnection r.inner connId tx hello).1)
        (registerConnection r.inner connId tx hello).2 := by
  simp only [State.step] at h
  split at h
  · next authenticatedId hello connId hs =>
    cases h
    exact ⟨authenticatedId, hello, connId, hs, rfl⟩
  · cases h

theorem step_frame {r r' : State} {tx : Outbound} {frame : PeerFrame}
    (h : r.step (.frame tx frame) = some r') :
    ∃ authenticatedId connection,
      r.sockets.get? tx = some ⟨authenticatedId, .serving connection⟩ ∧
      r.outstanding.get? tx = none ∧
      r' = r.locked tx ⟨authenticatedId, .serving connection⟩ (.serving connection)
        (handleFrame r.isOpen r.inner connection frame) := by
  simp only [State.step] at h
  split at h
  · next authenticatedId connection hs =>
    split_ifs at h with hc
    cases h
    exact ⟨authenticatedId, connection, hs, by simpa [OrderedMap.contains] using hc, rfl⟩
  · cases h

theorem step_disconnect {r r' : State} {tx : Outbound} (h : r.step (.disconnect tx) = some r') :
    ∃ authenticatedId connection,
      r.sockets.get? tx = some ⟨authenticatedId, .serving connection⟩ ∧
      r.outstanding.get? tx = none ∧
      r' = r.locked tx ⟨authenticatedId, .serving connection⟩ .closed
        (unregisterConnection r.inner connection) := by
  simp only [State.step] at h
  split at h
  · next authenticatedId connection hs =>
    split_ifs at h with hc
    cases h
    exact ⟨authenticatedId, connection, hs, by simpa [OrderedMap.contains] using hc, rfl⟩
  · cases h

theorem step_push {r r' : State} {tx : Outbound} (h : r.step (.push tx) = some r') :
    ∃ notifications, r.outstanding.get? tx = some notifications ∧
      r' = { r.deliver (notifications.map fun n => (n.1, .control n.2)) with
        outstanding := r.outstanding.erase tx } := by
  simp only [State.step] at h
  split at h
  · next notifications hs =>
    cases h
    exact ⟨notifications, hs, rfl⟩
  · cases h

@[simp] theorem locked_inner (r : State) (tx : Outbound) (socket : Socket) (phase : SocketPhase)
    (l : LockedStep) : (r.locked tx socket phase l).inner = l.inner := rfl

@[simp] theorem locked_sockets (r : State) (tx : Outbound) (socket : Socket)
    (phase : SocketPhase) (l : LockedStep) :
    (r.locked tx socket phase l).sockets = r.sockets.set tx { socket with phase } := rfl

@[simp] theorem locked_nextConnId (r : State) (tx : Outbound) (socket : Socket)
    (phase : SocketPhase) (l : LockedStep) :
    (r.locked tx socket phase l).nextConnId = r.nextConnId := rfl

@[simp] theorem locked_sent (r : State) (tx : Outbound) (socket : Socket) (phase : SocketPhase)
    (l : LockedStep) :
    (r.locked tx socket phase l).sent = r.sent ++ l.sends.filter fun m => r.isOpen m.1 := rfl

@[simp] theorem locked_outstanding (r : State) (tx : Outbound) (socket : Socket)
    (phase : SocketPhase) (l : LockedStep) :
    (r.locked tx socket phase l).outstanding =
      if l.notifications = [] then r.outstanding
      else r.outstanding.set tx l.notifications := rfl

@[simp] theorem deliver_inner (r : State) (ms : List (Outbound × Message)) :
    (r.deliver ms).inner = r.inner := rfl

@[simp] theorem deliver_sockets (r : State) (ms : List (Outbound × Message)) :
    (r.deliver ms).sockets = r.sockets := rfl

@[simp] theorem deliver_nextConnId (r : State) (ms : List (Outbound × Message)) :
    (r.deliver ms).nextConnId = r.nextConnId := rfl

@[simp] theorem deliver_sent (r : State) (ms : List (Outbound × Message)) :
    (r.deliver ms).sent = r.sent ++ ms.filter fun m => r.isOpen m.1 := rfl

end RemotePi.Relay
