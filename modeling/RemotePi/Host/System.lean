import RemotePi.Host.Owners
import RemotePi.Lib.Trace

/-!
# The host

Model of one process of the extension (`pi-extension/src/index.ts`) with its relay
lifecycle, its store of paired owners, the pairing coordinator
(`runtime/pairing_coordinator.ts`), the owner router (`runtime/owner_router.ts`) and the
`revoke` command (`daemon/commands.ts`, lines 92–104).

What runs between two awaits is one step. Reading a file and writing a file are
single steps. The label of a step carries what comes from outside: lines of the relay,
file errors, the clock, random values, events of the agent.

Results:
* `moves_of_move`: the steps that are enabled.
* `move_makes`: every step makes one call on the owners.
* `Current.move`: the lifecycle stays well formed, and every binding is of the current relay.
-/

namespace RemotePi.Host

open RemotePi.Lib RemotePi.Pairing RemotePi.Timeline

/-! ## State -/

structure PairRequest where
  id : String
  token : String
  deviceName : String
deriving DecidableEq, Repr

/-- `PairingAttempt` (`runtime/pairing_coordinator.ts`, lines 26–34), with the record that it
    writes. It is an object; no two have the same binding. -/
structure PairingAttempt where
  ownerId : OwnerId
  requestId : String
  relay : RelayId
  binding : ℕ
  reservation : TokenReservation OwnerId
  record : PeerRecord
deriving DecidableEq

/-- A `pair_request` that waits for the attempt of its key (lines 46–50). -/
structure WaitingRequest where
  relay : RelayId
  ownerId : OwnerId
  request : PairRequest
deriving DecidableEq

/-- A mutation that waits in the lane of the store. -/
inductive Mutation where
  | add (attempt : PairingAttempt)
  | rollback (attempt : PairingAttempt) (receipt : PeerWriteReceipt)
  | remove (remoteEpk : String)
deriving DecidableEq

/-- A mutation that has run, before its caller goes on. -/
inductive Settled where
  | added (attempt : PairingAttempt) (receipt : PeerWriteReceipt)
  | addFailed (attempt : PairingAttempt)
  | rolledBack (attempt : PairingAttempt)
  | removed (remoteEpk : String)
  | removeFailed (remoteEpk : String)
deriving DecidableEq

/-- What follows an endpoint update. -/
inductive Continuation where
  | nothing
  /-- The attempt has announced its record (line 114). -/
  | acl (attempt : PairingAttempt) (receipt : PeerWriteReceipt)
  /-- The attempt has rolled back (line 147). -/
  | refresh (attempt : PairingAttempt)
  /-- The `revoke` command reports. -/
  | revoked (remoteEpk : String)
deriving DecidableEq

/-- A call of `updateEndpoint` (lines 144–163). -/
structure EndpointUpdate where
  expectedRelay : Option RelayId
  continuation : Continuation
deriving DecidableEq

/-- How far the first update of the queue has come. -/
inductive UpdatePhase where
  | idle
  | reading (relay : RelayId)
  | read (relay : RelayId) (authorizedOwnerIds : List String)
deriving DecidableEq, Repr

/-- A frame that waits for `findKnownOwner` (`runtime/owner_router.ts`, lines 31–35). -/
structure Lookup where
  id : ℕ
  relay : RelayId
  ownerId : OwnerId
  frame : ClientFrame
  known : Option Bool
deriving DecidableEq

/-- One process of the extension. -/
structure Extension where
  now : ℕ
  lifecycle : RelayLifecycle
  owners : Owners
  lookups : List Lookup
  nextLookup : ℕ
  qr : QRSession OwnerId PairOk
  attempts : OrderedMap (OwnerId × String) PairingAttempt
  waiting : List WaitingRequest
  storage : OwnerStorage
  mutations : List Mutation
  settled : Option Settled
  updates : List EndpointUpdate
  updatePhase : UpdatePhase

namespace Extension

/-- A process that starts on a file. -/
def initial (file : PeersFile) (generation : String) : Extension where
  now := 0
  lifecycle := .initial
  owners := .initial generation
  lookups := []
  nextLookup := 0
  qr := .initial
  attempts := .empty
  waiting := []
  storage := ⟨file, .empty, 0⟩
  mutations := []
  settled := none
  updates := []
  updatePhase := .idle

/-! ## The pairing coordinator -/

/-- `lifecycleIsCurrent` (lines 150–152). -/
def lifecycleIsCurrent (s : Extension) (attempt : PairingAttempt) : Bool :=
  s.lifecycle.isCurrent attempt.relay &&
    (s.owners.activeOwners.get? attempt.ownerId).any fun binding => binding.id = attempt.binding

/-- `canCommit` (lines 154–156). -/
def canCommit (s : Extension) (attempt : PairingAttempt) : Bool :=
  s.lifecycleIsCurrent attempt && s.qr.isReservationCurrent s.now attempt.reservation

def attemptKey (attempt : PairingAttempt) : OwnerId × String :=
  (attempt.ownerId, attempt.requestId)

/-- `attachOwner` on the host. -/
def attachOwner (s : Extension) (relay : RelayId) (ownerId : OwnerId) :
    Extension × Option OwnerBinding × List HostEvent :=
  let (owners, binding, events) := s.owners.attachOwner relay ownerId
  ({ s with owners }, binding, events)

/-- `handle` (lines 43–91). -/
def handlePairRequest (s : Extension) (relay : RelayId) (ownerId : OwnerId) (request : PairRequest)
    (pairedAt : String) : Extension × List HostEvent :=
  if !s.lifecycle.isCurrent relay then (s, [])
  else if s.attempts.contains (ownerId, request.id) then
    ({ s with waiting := s.waiting ++ [⟨relay, ownerId, request⟩] }, [])
  else
    let (qr, result) := s.qr.reserveToken s.now request.token ownerId request.id
    let s := { s with qr }
    match result with
    | .expired =>
      (s, [.pairError ownerId request.id .tokenExpired "Pairing token is invalid or expired"])
    | .consumed =>
      (s, [.pairError ownerId request.id .tokenConsumed "Pairing token is already in use"])
    | .unknown =>
      (s, [.pairError ownerId request.id .tokenUnknown "Pairing token is invalid or expired"])
    | .committed completion =>
      if s.owners.activeOwners.contains ownerId then (s, [.pairOk ownerId completion])
      else
        let (s, binding, events) := s.attachOwner relay ownerId
        (s, if binding.isSome then events ++ [.pairOk ownerId completion] else events)
    | .reserved reservation =>
      let (s, binding, events) := s.attachOwner relay ownerId
      match binding with
      | none => ({ s with qr := s.qr.releaseToken reservation }, events)
      | some binding =>
        let attempt : PairingAttempt :=
          { ownerId, requestId := request.id, relay, binding := binding.id, reservation
            record := ⟨request.deviceName, ownerId.key, pairedAt⟩ }
        ({ s with
            attempts := s.attempts.set (attemptKey attempt) attempt
            mutations := s.mutations ++ [.add attempt] }, events)

/-- `abandonInactive` (lines 93–100). -/
def abandonInactive (s : Extension) : Extension :=
  { s with
    attempts := s.attempts.filter fun _ attempt => s.lifecycleIsCurrent attempt
    qr := (s.attempts.values.filter fun attempt => !s.lifecycleIsCurrent attempt).foldl
      (fun qr attempt => qr.releaseToken attempt.reservation) s.qr }

/-- The end of `run` (lines 133–135). -/
def finishAttempt (s : Extension) (attempt : PairingAttempt) (committed : Bool) : Extension :=
  { s with
    qr := if committed then s.qr else s.qr.releaseToken attempt.reservation
    attempts :=
      if s.attempts.get? (attemptKey attempt) = some attempt then
        s.attempts.erase (attemptKey attempt)
      else s.attempts }

/-! ## The lane of the store -/

/-- The first mutation of the lane runs; `writes` says whether a write succeeds. Assumed of the
    file system: the reads of the file succeed, and a write that fails leaves the file as it was
    (`writeFile` truncates the file first, so that a write which fails part-way leaves less). -/
def execute (s : Extension) (writes : Bool) (mutation : Mutation) (rest : List Mutation) :
    Extension :=
  let s := { s with mutations := rest }
  match mutation with
  | .add attempt =>
    if writes then
      let (storage, receipt) := s.storage.addPeer attempt.record
      { s with storage, settled := some (.added attempt receipt) }
    else { s with settled := some (.addFailed attempt) }
  | .rollback attempt receipt =>
    let (storage, _) := s.storage.conditionalRollbackPeer receipt writes
    { s with storage, settled := some (.rolledBack attempt) }
  | .remove remoteEpk =>
    let (storage, removed) := s.storage.removePeer remoteEpk
    if removed && !writes then { s with settled := some (.removeFailed remoteEpk) }
    else { s with storage, settled := some (.removed remoteEpk) }

def pushUpdate (s : Extension) (update : EndpointUpdate) : Extension :=
  { s with updates := s.updates ++ [update] }

/-- The owner that `revoke` closes (`daemon/commands.ts`, lines 99–101). -/
def revokedOwner (remoteEpk : String) : Option OwnerId :=
  match hcanonical : canonicalize remoteEpk with
  | none => none
  | some key => some ⟨key, canonicalize_canonicalize hcanonical⟩

/-- The caller of the mutation goes on: `run` (lines 105–109, 126–131), `rollback` (lines
    139–148), `revoke` (lines 98–102). -/
def settle (s : Extension) (settled : Settled) : Extension × List HostEvent :=
  let s := { s with settled := none }
  match settled with
  | .added attempt receipt =>
    if s.canCommit attempt then (s.pushUpdate ⟨some attempt.relay, .acl attempt receipt⟩, [])
    else ({ s with mutations := s.mutations ++ [.rollback attempt receipt] }, [])
  | .addFailed attempt =>
    (s.finishAttempt attempt false,
      if s.lifecycleIsCurrent attempt then
        [.pairError attempt.ownerId attempt.requestId .internalError "Failed to persist pairing"]
      else [])
  | .rolledBack attempt => (s.pushUpdate ⟨none, .refresh attempt⟩, [])
  | .removed remoteEpk =>
    match revokedOwner remoteEpk with
    | none => (s.pushUpdate ⟨none, .revoked remoteEpk⟩, [])
    | some ownerId =>
      let (owners, events) := s.owners.closeOwner ownerId
      ({ s with owners }.pushUpdate ⟨none, .revoked remoteEpk⟩, events)
  | .removeFailed _ => (s, [])

/-- `revoke` up to `removePeer` (lines 92–98); an entry without a string key makes it throw. -/
def revoke (s : Extension) (shortId : String) : Extension :=
  let keys := (listPeers s.storage.file).map PeerEntry.remoteEpk
  if shortId = "" ∨ none ∈ keys then s
  else
    match keys.reduceOption.filter fun key => shortId.toList.isPrefixOf key.toList with
    | [remoteEpk] => { s with mutations := s.mutations ++ [.remove remoteEpk] }
    | _ => s

/-! ## Endpoint updates -/

/-- The first update ends; `sent` is what it returns. -/
def completeUpdate (s : Extension) (continuation : Continuation) (rest : List EndpointUpdate)
    (sent : Bool) : Extension × List HostEvent :=
  let s := { s with updates := rest, updatePhase := .idle }
  match continuation with
  | .nothing => (s, [])
  | .acl attempt receipt =>
    let rollback := { s with mutations := s.mutations ++ [.rollback attempt receipt] }
    if !sent || !s.canCommit attempt then (rollback, [])
    else
      match s.qr.commitToken s.now attempt.reservation ⟨attempt.requestId⟩ with
      | none => (rollback, [])
      | some qr =>
        ({ s with qr }.finishAttempt attempt true, [.pairOk attempt.ownerId ⟨attempt.requestId⟩])
  | .refresh attempt => (s.finishAttempt attempt false, [])
  | .revoked remoteEpk => (s, [.revoked remoteEpk])

/-- The update finds its relay (lines 147–148). -/
def startUpdate (s : Extension) (update : EndpointUpdate) (rest : List EndpointUpdate) :
    Extension × List HostEvent :=
  match update.expectedRelay.or s.lifecycle.activeRelay with
  | none => s.completeUpdate update.continuation rest false
  | some relay =>
    if s.lifecycle.isOpen relay && s.lifecycle.isCurrent relay then
      ({ s with updatePhase := .reading relay }, [])
    else s.completeUpdate update.continuation rest false

/-- The update sends its owners (lines 151–156); `written` is what the socket does. -/
def finishUpdate (s : Extension) (relay : RelayId) (authorizedOwnerIds : List String)
    (update : EndpointUpdate) (rest : List EndpointUpdate) (written : Bool) :
    Extension × List HostEvent :=
  if s.lifecycle.isCurrent relay && s.lifecycle.isOpen relay && written then
    let (s, events) := s.completeUpdate update.continuation rest true
    (s, .endpointUpdate relay authorizedOwnerIds :: events)
  else s.completeUpdate update.continuation rest false

/-! ## The relay -/

/-- `onConnected` and `onDisconnected` (lines 192–200). -/
def onLifecycleEvent (s : Extension) : LifecycleEvent → Extension × List HostEvent
  | .quiet => (s, [])
  | .connected client ctx authorizedOwnerIds =>
    (if ctx then s else s.pushUpdate ⟨some client, .nothing⟩,
      [.hello client authorizedOwnerIds])
  | .disconnected =>
    let (owners, events) := s.owners.detachAll
    ({ s with owners }.abandonInactive, events)

/-- `closeRelay` with a reason (lines 412–422). -/
def closeRelay (s : Extension) (reason : ByeReason) : Extension × List HostEvent :=
  let (owners, byes) := s.owners.sayBye reason
  let (s, events) := { s with owners, lifecycle := s.lifecycle.stop }.onLifecycleEvent .disconnected
  (s, byes ++ events)

inductive RoutePurpose where
  | pairing
  | session
deriving DecidableEq, Repr

/-- A session frame: the channel of the owner handles it, or the router looks the owner up
    (`transport/peer_channel.ts`, lines 94–104; `runtime/owner_router.ts`, lines 30–31). -/
def onSessionFrame (s : Extension) (relay : RelayId) (ownerId : OwnerId) (frame : ClientFrame)
    (env : ServiceEnv) : Extension × List HostEvent :=
  match s.owners.activeOwners.get? ownerId with
  | some binding =>
    if binding.relay = relay then
      let (owners, events) := s.owners.routeClientFrame env ownerId frame
      ({ s with owners }, .arrived ownerId frame :: events)
    else (s, [])
  | none =>
    if s.lifecycle.isCurrent relay then
      ({ s with
          lookups := s.lookups ++ [⟨s.nextLookup, relay, ownerId, frame, none⟩]
          nextLookup := s.nextLookup + 1 }, [.arrived ownerId frame])
    else (s, [])

/-- A route of an owner to this endpoint, at the listeners of the router and of the channels
    (`runtime/owner_router.ts`, lines 18–36; `transport/peer_channel.ts`, lines 94–108). -/
def onRoute (s : Extension) (relay : RelayId) (ownerId : OwnerId) (purpose : RoutePurpose)
    (frame : ClientFrame) (env : ServiceEnv) (pairedAt : String) : Extension × List HostEvent :=
  match purpose, frame with
  | .pairing, .pairRequest id token deviceName =>
    s.handlePairRequest relay ownerId ⟨id, token, deviceName⟩ pairedAt
  | .pairing, _ => (s, [])
  | .session, .pairRequest _ _ _ => (s, [])
  | .session, _ => s.onSessionFrame relay ownerId frame env

/-- `findKnownOwner` has answered (lines 31–35). -/
def resolveOwner (s : Extension) (lookup : Lookup) (known : Bool) (env : ServiceEnv) :
    Extension × List HostEvent :=
  let s := { s with lookups := s.lookups.filter fun other => other.id ≠ lookup.id }
  if !known || !s.lifecycle.isCurrent lookup.relay then (s, [])
  else
    let (s, _, attached) := s.attachOwner lookup.relay lookup.ownerId
    let (owners, events) := s.owners.routeClientFrame env lookup.ownerId lookup.frame
    ({ s with owners }, attached ++ events)

/-! ## Steps -/

inductive Label where
  /-- The clock goes on. -/
  | tick (ms : ℕ)
  /-- A step of the relay lifecycle other than `stop` and `setDisposed`. -/
  | lifecycle (label : LifecycleLabel)
  /-- The relay is stopped by a command (lines 454, 483). -/
  | stop
  /-- `session_shutdown` for `quit` (lines 533–542). -/
  | quit
  /-- `session_start`; the generation is a random UUID. -/
  | sessionStart (session : Session) (generation : String)
  | sessionTree (env : ServiceEnv) (generation : String)
  | sessionShutdown
  | sessionNewStart
  | sessionNewEnd
  | route (relay : RelayId) (ownerId : OwnerId) (purpose : RoutePurpose) (frame : ClientFrame)
      (env : ServiceEnv) (pairedAt : String)
  /-- The file is read for a lookup. -/
  | readOwner (id : ℕ)
  | resolveOwner (id : ℕ) (env : ServiceEnv)
  /-- A request that waited is handled again. -/
  | resumePair (waiting : WaitingRequest) (pairedAt : String)
  | issueToken (token : String) (ttlMs : ℕ)
  | execute (writes : Bool)
  | settle
  /-- An event of the agent asks for an update (lines 493–501). -/
  | requestUpdate
  | startUpdate
  | readUpdate
  | finishUpdate (written : Bool)
  | revoke (shortId : String)

/-- One step of the host, with what it makes happen. `none` when the label is not enabled. -/
def move (s : Extension) : Label → Option (Extension × List HostEvent)
  | .tick ms => some ({ s with now := s.now + ms }, [])
  | .lifecycle label =>
    if label = .stop ∨ label = .setDisposed true ∨ label = .setDisposed false then none
    else
      (s.lifecycle.step s.storage.file label).map fun (lifecycle, event) =>
        { s with lifecycle }.onLifecycleEvent event
  | .stop => some (s.closeRelay .peerStop)
  | .quit =>
    some ({ s with lifecycle := { s.lifecycle with isDisposed := true } }.closeRelay .shutdown)
  | .sessionStart session generation =>
    if generation = "" then none
    else
      let (owners, events) := s.owners.sessionStart session generation
      some ({ s with owners }, events)
  | .sessionTree env generation =>
    if generation = "" then none
    else
      let (owners, events) := s.owners.sessionTree env generation
      some ({ s with owners }, events)
  | .sessionShutdown => some ({ s with owners := s.owners.sessionShutdown }, [])
  | .sessionNewStart =>
    if s.owners.sessionNewRunning then none
    else some ({ s with owners := s.owners.sessionNewStart }, [])
  | .sessionNewEnd =>
    if s.owners.sessionNewRunning then
      let (owners, events) := s.owners.sessionNewEnd
      some ({ s with owners }, events)
    else none
  | .route relay ownerId purpose frame env pairedAt =>
    some (s.onRoute relay ownerId purpose frame env pairedAt)
  | .readOwner id =>
    (s.lookups.find? fun lookup => lookup.id = id && lookup.known.isNone).map fun lookup =>
      let known := (findKnownOwner s.storage.file lookup.ownerId.key).isSome
      ({ s with
          lookups := s.lookups.map fun other =>
            if other.id = id then { other with known := some known } else other }, [])
  | .resolveOwner id env =>
    (s.lookups.find? fun lookup => lookup.id = id).bind fun lookup =>
      lookup.known.map fun known => s.resolveOwner lookup known env
  | .resumePair waiting pairedAt =>
    if waiting ∈ s.waiting ∧ s.attempts.get? (waiting.ownerId, waiting.request.id) = none then
      some ({ s with waiting := s.waiting.erase waiting }.handlePairRequest waiting.relay
        waiting.ownerId waiting.request pairedAt)
    else none
  | .issueToken token ttlMs => some ({ s with qr := s.qr.issueToken token s.now ttlMs }, [])
  | .execute writes =>
    match s.settled, s.mutations with
    | none, mutation :: rest => some (s.execute writes mutation rest, [])
    | _, _ => none
  | .settle => s.settled.map s.settle
  | .requestUpdate => some (s.pushUpdate ⟨none, .nothing⟩, [])
  | .startUpdate =>
    match s.updatePhase, s.updates with
    | .idle, update :: rest => some (s.startUpdate update rest)
    | _, _ => none
  | .readUpdate =>
    match s.updatePhase with
    | .reading relay =>
      some ({ s with updatePhase := .read relay (authorizedOwnerIds s.storage.file) }, [])
    | _ => none
  | .finishUpdate written =>
    match s.updatePhase, s.updates with
    | .read relay authorizedOwnerIds, update :: rest =>
      some (s.finishUpdate relay authorizedOwnerIds update rest written)
    | _, _ => none
  | .revoke shortId => some (s.revoke shortId, [])

/-- A step on the host and the log of what has happened. -/
def step : Extension × List HostEvent → Label → Option (Extension × List HostEvent) := logged move

/-- The steps that are enabled, one case for each label. -/
inductive Moves (s : Extension) : Label → Extension × List HostEvent → Prop where
  | tick (ms : ℕ) : Moves s (.tick ms) ({ s with now := s.now + ms }, [])
  | lifecycle {label : LifecycleLabel} {lifecycle : RelayLifecycle} {event : LifecycleEvent}
      (hlabel : ¬ (label = .stop ∨ label = .setDisposed true ∨ label = .setDisposed false))
      (hstep : s.lifecycle.step s.storage.file label = some (lifecycle, event)) :
      Moves s (.lifecycle label) ({ s with lifecycle }.onLifecycleEvent event)
  | stop : Moves s .stop (s.closeRelay .peerStop)
  | quit : Moves s .quit
      ({ s with lifecycle := { s.lifecycle with isDisposed := true } }.closeRelay .shutdown)
  | sessionStart (session : Session) {generation : String} (hdrawn : generation ≠ "") :
      Moves s (.sessionStart session generation)
        ({ s with owners := (s.owners.sessionStart session generation).1 },
          (s.owners.sessionStart session generation).2)
  | sessionTree (env : ServiceEnv) {generation : String} (hdrawn : generation ≠ "") :
      Moves s (.sessionTree env generation)
        ({ s with owners := (s.owners.sessionTree env generation).1 },
          (s.owners.sessionTree env generation).2)
  | sessionShutdown : Moves s .sessionShutdown ({ s with owners := s.owners.sessionShutdown }, [])
  | sessionNewStart (hidle : s.owners.sessionNewRunning = false) :
      Moves s .sessionNewStart ({ s with owners := s.owners.sessionNewStart }, [])
  | sessionNewEnd (hrunning : s.owners.sessionNewRunning = true) :
      Moves s .sessionNewEnd
        ({ s with owners := s.owners.sessionNewEnd.1 }, s.owners.sessionNewEnd.2)
  | pairing (relay : RelayId) (ownerId : OwnerId) (id token deviceName : String) (env : ServiceEnv)
      (pairedAt : String) :
      Moves s (.route relay ownerId .pairing (.pairRequest id token deviceName) env pairedAt)
        (s.handlePairRequest relay ownerId ⟨id, token, deviceName⟩ pairedAt)
  | session (relay : RelayId) (ownerId : OwnerId) {frame : ClientFrame} (env : ServiceEnv)
      (pairedAt : String) (hframe : ∀ id token deviceName, frame ≠ .pairRequest id token deviceName) :
      Moves s (.route relay ownerId .session frame env pairedAt)
        (s.onSessionFrame relay ownerId frame env)
  | misrouted (relay : RelayId) (ownerId : OwnerId) {purpose : RoutePurpose} {frame : ClientFrame}
      (env : ServiceEnv) (pairedAt : String)
      (hframe : (∃ id token deviceName, frame = .pairRequest id token deviceName) ↔
        purpose = .session) :
      Moves s (.route relay ownerId purpose frame env pairedAt) (s, [])
  | readOwner {id : ℕ} {lookup : Lookup}
      (hfind : s.lookups.find? (fun lookup => lookup.id = id && lookup.known.isNone) =
        some lookup) :
      Moves s (.readOwner id)
        ({ s with
            lookups := s.lookups.map fun other =>
              if other.id = id then
                { other with
                  known := some (findKnownOwner s.storage.file lookup.ownerId.key).isSome }
              else other }, [])
  | resolveOwner {id : ℕ} (env : ServiceEnv) {lookup : Lookup} {known : Bool}
      (hfind : s.lookups.find? (fun lookup => lookup.id = id) = some lookup)
      (hknown : lookup.known = some known) :
      Moves s (.resolveOwner id env) (s.resolveOwner lookup known env)
  | resumePair {waiting : WaitingRequest} (pairedAt : String) (hwaiting : waiting ∈ s.waiting)
      (hfree : s.attempts.get? (waiting.ownerId, waiting.request.id) = none) :
      Moves s (.resumePair waiting pairedAt)
        ({ s with waiting := s.waiting.erase waiting }.handlePairRequest waiting.relay
          waiting.ownerId waiting.request pairedAt)
  | issueToken (token : String) (ttlMs : ℕ) :
      Moves s (.issueToken token ttlMs) ({ s with qr := s.qr.issueToken token s.now ttlMs }, [])
  | execute (writes : Bool) {mutation : Mutation} {rest : List Mutation}
      (hsettled : s.settled = none) (hmutations : s.mutations = mutation :: rest) :
      Moves s (.execute writes) (s.execute writes mutation rest, [])
  | settle {settled : Settled} (hsettled : s.settled = some settled) :
      Moves s .settle (s.settle settled)
  | requestUpdate : Moves s .requestUpdate (s.pushUpdate ⟨none, .nothing⟩, [])
  | startUpdate {update : EndpointUpdate} {rest : List EndpointUpdate}
      (hphase : s.updatePhase = .idle) (hupdates : s.updates = update :: rest) :
      Moves s .startUpdate (s.startUpdate update rest)
  | readUpdate {relay : RelayId} (hphase : s.updatePhase = .reading relay) :
      Moves s .readUpdate
        ({ s with updatePhase := .read relay (authorizedOwnerIds s.storage.file) }, [])
  | finishUpdate (written : Bool) {relay : RelayId} {owners : List String}
      {update : EndpointUpdate} {rest : List EndpointUpdate}
      (hphase : s.updatePhase = .read relay owners) (hupdates : s.updates = update :: rest) :
      Moves s (.finishUpdate written) (s.finishUpdate relay owners update rest written)
  | revoke (shortId : String) : Moves s (.revoke shortId) (s.revoke shortId, [])

/-- What is enabled is one of these. -/
theorem moves_of_move {s : Extension} {label : Label} {result : Extension × List HostEvent}
    (h : s.move label = some result) : Moves s label result := by
  cases label with
  | tick ms => cases h; exact .tick ms
  | lifecycle label =>
    simp only [move] at h
    split_ifs at h with hlabel
    obtain ⟨⟨lifecycle, event⟩, hstep, rfl⟩ := Option.map_eq_some_iff.mp h
    exact .lifecycle hlabel hstep
  | stop => cases h; exact .stop
  | quit => cases h; exact .quit
  | sessionStart session generation =>
    simp only [move] at h
    split_ifs at h with hdrawn
    cases h
    exact .sessionStart session hdrawn
  | sessionTree env generation =>
    simp only [move] at h
    split_ifs at h with hdrawn
    cases h
    exact .sessionTree env hdrawn
  | sessionShutdown => cases h; exact .sessionShutdown
  | sessionNewStart =>
    simp only [move] at h
    split_ifs at h with hrunning
    cases h
    exact .sessionNewStart (Bool.not_eq_true _ ▸ hrunning)
  | sessionNewEnd =>
    simp only [move] at h
    split_ifs at h with hrunning
    cases h
    exact .sessionNewEnd hrunning
  | route relay ownerId purpose frame env pairedAt =>
    cases h
    cases purpose <;> cases frame
    · exact .pairing relay ownerId _ _ _ env pairedAt
    · exact .misrouted relay ownerId env pairedAt (by simp)
    · exact .misrouted relay ownerId env pairedAt (by simp)
    · exact .misrouted relay ownerId env pairedAt (by simp)
    · exact .session relay ownerId env pairedAt (by simp)
    · exact .session relay ownerId env pairedAt (by simp)
  | readOwner id =>
    obtain ⟨lookup, hfind, rfl⟩ := Option.map_eq_some_iff.mp h
    exact .readOwner hfind
  | resolveOwner id env =>
    obtain ⟨lookup, hfind, h⟩ := Option.bind_eq_some_iff.mp h
    obtain ⟨known, hknown, rfl⟩ := Option.map_eq_some_iff.mp h
    exact .resolveOwner env hfind hknown
  | resumePair waiting pairedAt =>
    simp only [move] at h
    split_ifs at h with hwaiting
    cases h
    exact .resumePair pairedAt hwaiting.1 hwaiting.2
  | issueToken token ttlMs => cases h; exact .issueToken token ttlMs
  | execute writes =>
    simp only [move] at h
    split at h
    · rename_i mutation rest hsettled hmutations
      cases h
      exact .execute writes hsettled hmutations
    · cases h
  | settle =>
    obtain ⟨settled, hsettled, rfl⟩ := Option.map_eq_some_iff.mp h
    exact .settle hsettled
  | requestUpdate => cases h; exact .requestUpdate
  | startUpdate =>
    simp only [move] at h
    split at h
    · rename_i update rest hphase hupdates
      cases h
      exact .startUpdate hphase hupdates
    · cases h
  | readUpdate =>
    simp only [move] at h
    split at h
    · rename_i relay hphase
      cases h
      exact .readUpdate hphase
    · cases h
  | finishUpdate written =>
    simp only [move] at h
    split at h
    · rename_i relay owners update rest hphase hupdates
      cases h
      exact .finishUpdate written hphase hupdates
    · cases h
  | revoke shortId => cases h; exact .revoke shortId

/-! ## What a step does to the owners -/

/-- What `handlePairRequest` does to the owners. -/
def pairCall (s : Extension) (relay : RelayId) (ownerId : OwnerId) (request : PairRequest) :
    Owners.Call :=
  if !s.lifecycle.isCurrent relay then .nothing
  else if s.attempts.contains (ownerId, request.id) then .nothing
  else
    match (s.qr.reserveToken s.now request.token ownerId request.id).2 with
    | .committed _ =>
      if s.owners.activeOwners.contains ownerId then .nothing else .attach relay ownerId
    | .reserved _ => .attach relay ownerId
    | _ => .nothing

/-- What a route does to the owners. -/
def routeCall (s : Extension) (relay : RelayId) (ownerId : OwnerId) (env : ServiceEnv)
    (frame : ClientFrame) : Owners.Call :=
  match s.owners.activeOwners.get? ownerId with
  | some binding => if binding.relay = relay then .route ownerId env frame else .nothing
  | none => .nothing

/-- What `resolveOwner` does to the owners. -/
def resolveCall (s : Extension) (lookup : Lookup) (known : Bool) (env : ServiceEnv) :
    Owners.Call :=
  if !known || !s.lifecycle.isCurrent lookup.relay then .nothing
  else .attachAndRoute lookup.relay lookup.ownerId env lookup.frame

/-- What `settle` does to the owners. -/
def settleCall : Settled → Owners.Call
  | .removed remoteEpk =>
    match revokedOwner remoteEpk with
    | some ownerId => .close ownerId
    | none => .nothing
  | _ => .nothing

/-- The call that an enabled step makes. -/
def ownersCall (s : Extension) : Label → Owners.Call
  | .lifecycle label =>
    match s.lifecycle.step s.storage.file label with
    | some (_, .disconnected) => .detachAll none
    | _ => .nothing
  | .stop => .detachAll (some .peerStop)
  | .quit => .detachAll (some .shutdown)
  | .sessionStart session generation => .sessionStart session generation
  | .sessionTree env generation => .sessionTree env generation
  | .sessionShutdown => .sessionShutdown
  | .sessionNewStart => .sessionNewStart
  | .sessionNewEnd => .sessionNewEnd
  | .route relay ownerId .pairing (.pairRequest id token deviceName) _ _ =>
    s.pairCall relay ownerId ⟨id, token, deviceName⟩
  | .route _ _ .pairing _ _ _ => .nothing
  | .route _ _ .session (.pairRequest _ _ _) _ _ => .nothing
  | .route relay ownerId .session frame env _ => s.routeCall relay ownerId env frame
  | .resolveOwner id env =>
    match s.lookups.find? fun lookup => lookup.id = id with
    | some lookup => s.resolveCall lookup (lookup.known.getD false) env
    | none => .nothing
  | .resumePair waiting _ => s.pairCall waiting.relay waiting.ownerId waiting.request
  | .settle => (s.settled.map settleCall).getD .nothing
  | _ => .nothing

/-- The frame that a route brings, if a listener takes it in. -/
def arrival (s : Extension) (relay : RelayId) (ownerId : OwnerId) (frame : ClientFrame) :
    List HostEvent :=
  match s.owners.activeOwners.get? ownerId with
  | some binding => if binding.relay = relay then [.arrived ownerId frame] else []
  | none => if s.lifecycle.isCurrent relay then [.arrived ownerId frame] else []

/-- The frame that an enabled step takes in. -/
def arrivals (s : Extension) : Label → List HostEvent
  | .route _ _ .session (.pairRequest _ _ _) _ _ => []
  | .route relay ownerId .session frame _ _ => s.arrival relay ownerId frame
  | _ => []

/-- The host has taken in `first` and made the call, with other events before and after it. -/
def Makes (s s' : Extension) (events first : List HostEvent) (call : Owners.Call) : Prop :=
  s'.owners = (s.owners.apply call).1 ∧
    ∃ before after, (∀ e ∈ before, e.isNews = true) ∧ (∀ e ∈ after, e.isNews = true) ∧
      events = first ++ before ++ (s.owners.apply call).2 ++ after

section Calls

variable {s s' : Extension} {events : List HostEvent}

theorem isNews_nil : ∀ e ∈ ([] : List HostEvent), e.isNews = true := fun _ he => by cases he

theorem makes_nothing (howners : s'.owners = s.owners) (hnews : ∀ e ∈ events, e.isNews = true) :
    Makes s s' events [] .nothing :=
  ⟨howners, events, [], hnews, isNews_nil, by simp [Owners.apply]⟩

theorem makes_none (howners : s'.owners = s.owners) : Makes s s' [] [] .nothing :=
  makes_nothing howners isNews_nil

theorem makes_of_eq {call : Owners.Call} (howners : s'.owners = (s.owners.apply call).1)
    (hevents : events = (s.owners.apply call).2) : Makes s s' events [] call :=
  ⟨howners, [], [], isNews_nil, isNews_nil, by simpa using hevents⟩

@[simp] theorem owners_finishAttempt (s : Extension) (attempt : PairingAttempt)
    (committed : Bool) : (s.finishAttempt attempt committed).owners = s.owners := rfl

@[simp] theorem owners_abandonInactive (s : Extension) : s.abandonInactive.owners = s.owners := rfl

@[simp] theorem owners_pushUpdate (s : Extension) (update : EndpointUpdate) :
    (s.pushUpdate update).owners = s.owners := rfl

@[simp] theorem owners_execute (s : Extension) (writes : Bool) (mutation : Mutation)
    (rest : List Mutation) : (s.execute writes mutation rest).owners = s.owners := by
  unfold execute
  cases mutation <;> dsimp only
  · split_ifs <;> rfl
  · split_ifs <;> rfl

@[simp] theorem owners_revoke (s : Extension) (shortId : String) :
    (s.revoke shortId).owners = s.owners := by
  unfold revoke
  dsimp only
  split_ifs
  · rfl
  · split <;> rfl

theorem makes_completeUpdate (s : Extension) (continuation : Continuation)
    (rest : List EndpointUpdate) (sent : Bool) :
    Makes s (s.completeUpdate continuation rest sent).1
      (s.completeUpdate continuation rest sent).2 [] .nothing := by
  unfold completeUpdate
  dsimp only
  cases continuation with
  | nothing => exact makes_none rfl
  | acl attempt receipt =>
    dsimp only
    split_ifs
    · exact makes_none rfl
    · split
      · exact makes_none rfl
      · exact makes_nothing rfl (by simp [HostEvent.isNews])
  | refresh attempt => exact makes_none rfl
  | revoked remoteEpk => exact makes_nothing rfl (by simp [HostEvent.isNews])

theorem makes_startUpdate (s : Extension) (update : EndpointUpdate)
    (rest : List EndpointUpdate) :
    Makes s (s.startUpdate update rest).1 (s.startUpdate update rest).2 [] .nothing := by
  unfold startUpdate
  split
  · exact makes_completeUpdate s _ _ _
  · split_ifs
    · exact makes_none rfl
    · exact makes_completeUpdate s _ _ _

theorem makes_finishUpdate (s : Extension) (relay : RelayId) (authorizedOwnerIds : List String)
    (update : EndpointUpdate) (rest : List EndpointUpdate) (written : Bool) :
    Makes s (s.finishUpdate relay authorizedOwnerIds update rest written).1
      (s.finishUpdate relay authorizedOwnerIds update rest written).2 [] .nothing := by
  unfold finishUpdate
  split_ifs
  · obtain ⟨howners, before, after, hbefore, hafter, hevents⟩ :=
      makes_completeUpdate s update.continuation rest true
    refine ⟨howners, .endpointUpdate relay authorizedOwnerIds :: before, after, ?_, hafter, ?_⟩
    · intro e he
      rcases List.mem_cons.mp he with rfl | he
      · rfl
      · exact hbefore e he
    · dsimp only
      rw [hevents]
      rfl
  · exact makes_completeUpdate s _ _ _

theorem makes_handlePairRequest (s : Extension) (relay : RelayId) (ownerId : OwnerId)
    (request : PairRequest) (pairedAt : String) :
    Makes s (s.handlePairRequest relay ownerId request pairedAt).1
      (s.handlePairRequest relay ownerId request pairedAt).2 []
      (s.pairCall relay ownerId request) := by
  unfold handlePairRequest pairCall
  by_cases hcurrent : (!s.lifecycle.isCurrent relay) = true
  · rw [if_pos hcurrent, if_pos hcurrent]
    exact makes_none rfl
  · rw [if_neg hcurrent, if_neg hcurrent]
    by_cases hpending : s.attempts.contains (ownerId, request.id) = true
    · rw [if_pos hpending, if_pos hpending]
      exact makes_none rfl
    · rw [if_neg hpending, if_neg hpending]
      generalize s.qr.reserveToken s.now request.token ownerId request.id = reserved
      obtain ⟨qr, result⟩ := reserved
      cases result with
      | expired => exact makes_nothing rfl (by simp [HostEvent.isNews])
      | consumed => exact makes_nothing rfl (by simp [HostEvent.isNews])
      | unknown => exact makes_nothing rfl (by simp [HostEvent.isNews])
      | committed completion =>
        dsimp only
        by_cases hactive : s.owners.activeOwners.contains ownerId = true
        · rw [if_pos hactive, if_pos hactive]
          exact makes_nothing rfl (by simp [HostEvent.isNews])
        · rw [if_neg hactive, if_neg hactive]
          cases hbinding : (s.owners.attachOwner relay ownerId).2.1 with
          | none =>
            simp only [attachOwner, hbinding]
            exact makes_of_eq rfl rfl
          | some binding =>
            simp only [attachOwner, hbinding]
            exact ⟨rfl, [], [.pairOk ownerId completion], isNews_nil, by simp [HostEvent.isNews], rfl⟩
      | reserved reservation =>
        dsimp only
        cases hbinding : (s.owners.attachOwner relay ownerId).2.1 with
        | none =>
          simp only [attachOwner, hbinding]
          exact makes_of_eq rfl rfl
        | some binding =>
          simp only [attachOwner, hbinding]
          exact makes_of_eq rfl rfl

theorem makes_onSessionFrame (s : Extension) (relay : RelayId) (ownerId : OwnerId)
    (frame : ClientFrame) (env : ServiceEnv) :
    Makes s (s.onSessionFrame relay ownerId frame env).1
      (s.onSessionFrame relay ownerId frame env).2 (s.arrival relay ownerId frame)
      (s.routeCall relay ownerId env frame) := by
  unfold onSessionFrame routeCall arrival
  cases hbinding : s.owners.activeOwners.get? ownerId with
  | none =>
    dsimp only
    split_ifs
    · exact ⟨rfl, [], [], isNews_nil, isNews_nil, rfl⟩
    · exact makes_none rfl
  | some binding =>
    dsimp only
    split_ifs
    · exact ⟨rfl, [], [], isNews_nil, isNews_nil, by simp [Owners.apply]⟩
    · exact makes_none rfl

theorem makes_onRoute (s : Extension) (relay : RelayId) (ownerId : OwnerId)
    (purpose : RoutePurpose) (frame : ClientFrame) (env : ServiceEnv) (pairedAt : String) :
    Makes s (s.onRoute relay ownerId purpose frame env pairedAt).1
      (s.onRoute relay ownerId purpose frame env pairedAt).2
      (s.arrivals (.route relay ownerId purpose frame env pairedAt))
      (s.ownersCall (.route relay ownerId purpose frame env pairedAt)) := by
  cases purpose with
  | pairing =>
    cases frame with
    | pairRequest id token deviceName =>
      exact makes_handlePairRequest s relay ownerId ⟨id, token, deviceName⟩ pairedAt
    | sessionHello id channelId => exact makes_none rfl
    | inChannel frame request => exact makes_none rfl
  | session =>
    cases frame with
    | pairRequest id token deviceName => exact makes_none rfl
    | sessionHello id channelId => exact makes_onSessionFrame s relay ownerId _ env
    | inChannel frame request => exact makes_onSessionFrame s relay ownerId _ env

theorem makes_resolveOwner (s : Extension) (lookup : Lookup) (known : Bool) (env : ServiceEnv) :
    Makes s (s.resolveOwner lookup known env).1 (s.resolveOwner lookup known env).2
      [] (s.resolveCall lookup known env) := by
  unfold resolveOwner resolveCall
  dsimp only
  split_ifs
  · exact makes_none rfl
  · exact makes_of_eq rfl rfl

theorem makes_settle (s : Extension) (settled : Settled) :
    Makes s (s.settle settled).1 (s.settle settled).2 [] (settleCall settled) := by
  unfold settle settleCall
  cases settled with
  | added attempt receipt =>
    dsimp only
    split_ifs <;> exact makes_none rfl
  | addFailed attempt =>
    refine makes_nothing rfl fun e he => ?_
    dsimp only at he
    split_ifs at he
    · obtain rfl := List.mem_singleton.mp he
      rfl
    · cases he
  | rolledBack attempt => exact makes_none rfl
  | removed remoteEpk =>
    cases howner : revokedOwner remoteEpk with
    | none =>
      simp only [howner]
      exact makes_none rfl
    | some ownerId =>
      simp only [howner]
      exact makes_of_eq rfl rfl
  | removeFailed remoteEpk => exact makes_none rfl

theorem makes_onLifecycleEvent (s : Extension) (lifecycle : RelayLifecycle)
    (event : LifecycleEvent) :
    Makes s ({ s with lifecycle }.onLifecycleEvent event).1
      ({ s with lifecycle }.onLifecycleEvent event).2
      [] (if event = .disconnected then .detachAll none else .nothing) := by
  cases event with
  | quiet => exact makes_none rfl
  | connected client ctx owners =>
    refine makes_nothing ?_ (by simp [onLifecycleEvent, HostEvent.isNews])
    unfold onLifecycleEvent
    dsimp only
    split_ifs <;> rfl
  | disconnected => exact makes_of_eq rfl rfl

theorem makes_closeRelay (s : Extension) (disposed : Bool) (reason : ByeReason) :
    Makes s ({ s with lifecycle := { s.lifecycle with isDisposed := disposed } }.closeRelay reason).1
      ({ s with lifecycle := { s.lifecycle with isDisposed := disposed } }.closeRelay reason).2
      [] (.detachAll (some reason)) := makes_of_eq rfl rfl

/-- Every step of the host makes one call. -/
theorem move_makes {label : Label} (h : s.move label = some (s', events)) :
    Makes s s' events (s.arrivals label) (s.ownersCall label) := by
  generalize hresult : (s', events) = result at h
  obtain ⟨rfl, rfl⟩ : s' = result.1 ∧ events = result.2 := by
    rw [← hresult]
    exact ⟨rfl, rfl⟩
  cases moves_of_move h with
  | tick ms => exact makes_none rfl
  | lifecycle hlabel hstep =>
    rename_i label lifecycle event
    have hmakes := makes_onLifecycleEvent s lifecycle event
    have hcall : s.ownersCall (.lifecycle label) =
        if event = .disconnected then .detachAll none else .nothing := by
      unfold ownersCall
      dsimp only
      rw [hstep]
      cases event <;> rfl
    rw [hcall]
    exact hmakes
  | stop => exact makes_closeRelay s s.lifecycle.isDisposed .peerStop
  | quit => exact makes_closeRelay s true .shutdown
  | sessionStart session hdrawn => exact makes_of_eq rfl rfl
  | sessionTree env hdrawn => exact makes_of_eq rfl rfl
  | sessionShutdown => exact makes_of_eq rfl rfl
  | sessionNewStart hidle => exact makes_of_eq rfl rfl
  | sessionNewEnd hrunning => exact makes_of_eq rfl rfl
  | pairing relay ownerId id token deviceName env pairedAt =>
    exact makes_handlePairRequest s relay ownerId ⟨id, token, deviceName⟩ pairedAt
  | session relay ownerId env pairedAt hframe =>
    rename_i frame
    cases frame with
    | pairRequest id token deviceName => exact absurd rfl (hframe id token deviceName)
    | sessionHello id channelId => exact makes_onSessionFrame s relay ownerId _ env
    | inChannel frame request => exact makes_onSessionFrame s relay ownerId _ env
  | misrouted relay ownerId env pairedAt hframe =>
    rename_i purpose frame
    cases purpose <;> cases frame
    case pairing.pairRequest => exact absurd (hframe.mp ⟨_, _, _, rfl⟩) nofun
    case session.sessionHello => exact absurd (hframe.mpr rfl) (by simp)
    case session.inChannel => exact absurd (hframe.mpr rfl) (by simp)
    all_goals exact makes_none rfl
  | readOwner hfind => exact makes_none rfl
  | resolveOwner env hfind hknown =>
    rename_i id lookup known
    have hcall : s.ownersCall (.resolveOwner id env) = s.resolveCall lookup known env := by
      unfold ownersCall
      dsimp only
      rw [hfind]
      dsimp only
      rw [hknown]
      rfl
    rw [hcall]
    exact makes_resolveOwner s lookup known env
  | resumePair pairedAt hwaiting hfree =>
    rename_i waiting
    exact makes_handlePairRequest { s with waiting := s.waiting.erase waiting }
      waiting.relay waiting.ownerId waiting.request pairedAt
  | issueToken token ttlMs => exact makes_none rfl
  | execute writes hsettled hmutations => exact makes_none (owners_execute _ _ _ _)
  | settle hsettled =>
    rename_i settled
    have hcall : s.ownersCall .settle = settleCall settled := by
      unfold ownersCall
      dsimp only
      rw [hsettled]
      rfl
    rw [hcall]
    exact makes_settle s settled
  | requestUpdate => exact makes_none rfl
  | startUpdate hphase hupdates => exact makes_startUpdate s _ _
  | readUpdate hphase => exact makes_none rfl
  | finishUpdate written hphase hupdates => exact makes_finishUpdate s _ _ _ _ written
  | revoke shortId => exact makes_none (owners_revoke s shortId)

end Calls

/-! ## What the parts of a step may change -/

section Frames

/-- What `handlePairRequest` may change. -/
theorem handlePairRequest_frame (s : Extension) (relay : RelayId) (ownerId : OwnerId)
    (request : PairRequest) (pairedAt : String) :
    ∃ owners qr attempts waiting mutations,
      (s.handlePairRequest relay ownerId request pairedAt).1 =
        { s with owners, qr, attempts, waiting, mutations } := by
  unfold handlePairRequest
  by_cases hcurrent : (!s.lifecycle.isCurrent relay) = true
  · rw [if_pos hcurrent]
    exact ⟨_, _, _, _, _, rfl⟩
  · rw [if_neg hcurrent]
    by_cases hpending : s.attempts.contains (ownerId, request.id) = true
    · rw [if_pos hpending]
      exact ⟨_, _, _, _, _, rfl⟩
    · rw [if_neg hpending]
      dsimp only
      split
      · exact ⟨_, _, _, _, _, rfl⟩
      · exact ⟨_, _, _, _, _, rfl⟩
      · exact ⟨_, _, _, _, _, rfl⟩
      · split_ifs <;> exact ⟨_, _, _, _, _, rfl⟩
      · split <;> exact ⟨_, _, _, _, _, rfl⟩

theorem onSessionFrame_frame (s : Extension) (relay : RelayId) (ownerId : OwnerId)
    (frame : ClientFrame) (env : ServiceEnv) :
    ∃ owners lookups nextLookup, (s.onSessionFrame relay ownerId frame env).1 =
      { s with owners, lookups, nextLookup } := by
  unfold onSessionFrame
  split <;> split_ifs <;> exact ⟨_, _, _, rfl⟩

theorem resolveOwner_frame (s : Extension) (lookup : Lookup) (known : Bool) (env : ServiceEnv) :
    ∃ owners, (s.resolveOwner lookup known env).1 =
      { s with owners, lookups := s.lookups.filter fun other => other.id ≠ lookup.id } := by
  unfold resolveOwner
  dsimp only
  split_ifs <;> exact ⟨_, rfl⟩

theorem execute_frame (s : Extension) (writes : Bool) (mutation : Mutation)
    (rest : List Mutation) : ∃ storage settled, s.execute writes mutation rest =
      { s with storage, settled, mutations := rest } := by
  unfold execute
  cases mutation <;> dsimp only
  · split_ifs <;> exact ⟨_, _, rfl⟩
  · exact ⟨_, _, rfl⟩
  · split_ifs <;> exact ⟨_, _, rfl⟩

theorem settle_frame (s : Extension) (settled : Settled) :
    ∃ owners qr attempts mutations updates, (s.settle settled).1 =
      { s with settled := none, owners, qr, attempts, mutations, updates } := by
  unfold settle
  cases settled <;> dsimp only
  · split_ifs <;> exact ⟨_, _, _, _, _, rfl⟩
  · exact ⟨_, _, _, _, _, rfl⟩
  · exact ⟨_, _, _, _, _, rfl⟩
  · split <;> exact ⟨_, _, _, _, _, rfl⟩
  · exact ⟨_, _, _, _, _, rfl⟩

theorem completeUpdate_frame (s : Extension) (continuation : Continuation)
    (rest : List EndpointUpdate) (sent : Bool) :
    ∃ qr attempts mutations, (s.completeUpdate continuation rest sent).1 =
      { s with updates := rest, updatePhase := .idle, qr, attempts, mutations } := by
  unfold completeUpdate
  cases continuation <;> dsimp only
  · exact ⟨_, _, _, rfl⟩
  · split_ifs
    · exact ⟨_, _, _, rfl⟩
    · split <;> exact ⟨_, _, _, rfl⟩
  · exact ⟨_, _, _, rfl⟩
  · exact ⟨_, _, _, rfl⟩

theorem startUpdate_frame (s : Extension) (update : EndpointUpdate)
    (rest : List EndpointUpdate) : ∃ updates updatePhase qr attempts mutations,
      (s.startUpdate update rest).1 =
        { s with updates, updatePhase, qr, attempts, mutations } := by
  obtain ⟨qr, attempts, mutations, hcomplete⟩ :=
    completeUpdate_frame s update.continuation rest false
  unfold startUpdate
  split
  · exact ⟨_, _, _, _, _, hcomplete⟩
  · split_ifs
    · exact ⟨_, _, _, _, _, rfl⟩
    · exact ⟨_, _, _, _, _, hcomplete⟩

theorem finishUpdate_frame (s : Extension) (relay : RelayId) (authorizedOwnerIds : List String)
    (update : EndpointUpdate) (rest : List EndpointUpdate) (written : Bool) :
    ∃ qr attempts mutations, (s.finishUpdate relay authorizedOwnerIds update rest written).1 =
      { s with updates := rest, updatePhase := .idle, qr, attempts, mutations } := by
  unfold finishUpdate
  split_ifs
  · exact completeUpdate_frame s _ rest true
  · exact completeUpdate_frame s _ rest false

theorem revoke_frame (s : Extension) (shortId : String) :
    ∃ mutations, s.revoke shortId = { s with mutations } := by
  unfold revoke
  dsimp only
  split_ifs
  · exact ⟨_, rfl⟩
  · split <;> exact ⟨_, rfl⟩

theorem onLifecycleEvent_frame (s : Extension) (event : LifecycleEvent) :
    ∃ owners qr attempts updates, (s.onLifecycleEvent event).1 =
      { s with owners, qr, attempts, updates } := by
  cases event with
  | quiet => exact ⟨_, _, _, _, rfl⟩
  | connected client ctx owners => cases ctx <;> exact ⟨_, _, _, _, rfl⟩
  | disconnected => exact ⟨_, _, _, _, rfl⟩

theorem closeRelay_frame (s : Extension) (reason : ByeReason) :
    ∃ owners qr attempts, (s.closeRelay reason).1 =
      { s with lifecycle := s.lifecycle.stop, owners, qr, attempts } := ⟨_, _, _, rfl⟩

end Frames

/-! ## Bindings belong to the current relay -/

section Current

variable {s s' : Extension} {events : List HostEvent}

/-- A step that is none of the lifecycle leaves it. -/
theorem lifecycle_of_moves {label : Label} {result : Extension × List HostEvent}
    (h : Moves s label result) (hinner : ∀ inner, label ≠ .lifecycle inner) (hstop : label ≠ .stop)
    (hquit : label ≠ .quit) : result.1.lifecycle = s.lifecycle := by
  cases h with
  | lifecycle hlabel hstep => exact absurd rfl (hinner _)
  | stop => exact absurd rfl hstop
  | quit => exact absurd rfl hquit
  | pairing relay ownerId id token deviceName env pairedAt =>
    obtain ⟨_, _, _, _, _, hframe⟩ := handlePairRequest_frame s relay ownerId
      ⟨id, token, deviceName⟩ pairedAt
    rw [hframe]
  | session relay ownerId env pairedAt hsession =>
    obtain ⟨_, _, _, hframe⟩ := onSessionFrame_frame s relay ownerId _ env
    rw [hframe]
  | resolveOwner env hfind hknown =>
    obtain ⟨_, hframe⟩ := resolveOwner_frame s _ _ env
    rw [hframe]
  | resumePair pairedAt hwaiting hfree =>
    rename_i waiting
    obtain ⟨_, _, _, _, _, hframe⟩ := handlePairRequest_frame
      { s with waiting := s.waiting.erase waiting } waiting.relay waiting.ownerId waiting.request
      pairedAt
    rw [hframe]
  | execute writes hsettled hmutations =>
    obtain ⟨_, _, hframe⟩ := execute_frame s writes _ _
    rw [hframe]
  | settle hsettled =>
    obtain ⟨_, _, _, _, _, hframe⟩ := settle_frame s _
    rw [hframe]
  | startUpdate hphase hupdates =>
    obtain ⟨_, _, _, _, _, hframe⟩ := startUpdate_frame s _ _
    rw [hframe]
  | finishUpdate written hphase hupdates =>
    obtain ⟨_, _, _, hframe⟩ := finishUpdate_frame s _ _ _ _ written
    rw [hframe]
  | revoke shortId =>
    obtain ⟨_, hframe⟩ := revoke_frame s shortId
    rw [hframe]
  | _ => rfl

/-- A step keeps the lifecycle well formed, and a relay stays current until all owners are
    detached. -/
theorem move_lifecycle {label : Label} (hwf : s.lifecycle.Wf)
    (hmove : s.move label = some (s', events)) :
    s'.lifecycle.Wf ∧ ((∃ reason, s.ownersCall label = .detachAll reason) ∨
      ∀ relay, s.lifecycle.isCurrent relay = true → s'.lifecycle.isCurrent relay = true) := by
  have hmoves := moves_of_move hmove
  by_cases hinner : ∃ inner, label = .lifecycle inner
  · obtain ⟨inner, rfl⟩ := hinner
    generalize hresult : (s', events) = result at hmoves
    cases hmoves with
    | lifecycle hlabel hstep =>
      rename_i lifecycle event
      obtain ⟨_, _, _, _, hframe⟩ := onLifecycleEvent_frame { s with lifecycle } event
      rw [← hresult] at hframe
      obtain rfl : s' = _ := hframe
      refine ⟨hwf.step hstep, ?_⟩
      by_cases hevent : event = .disconnected
      · refine Or.inl ⟨none, ?_⟩
        unfold ownersCall
        dsimp only
        rw [hstep, hevent]
      · right
        intro relay hcurrent
        have hkept : ∀ value, inner ≠ .setDisposed value := by
          rintro (_ | _) rfl
          · exact hlabel (Or.inr (Or.inr rfl))
          · exact hlabel (Or.inr (Or.inl rfl))
        rcases RelayLifecycle.step_isCurrent hwf hcurrent hkept hstep with hdisconnected | ⟨-, h⟩
        · exact absurd hdisconnected hevent
        · exact h
  · by_cases hstop : label = .stop
    · subst hstop
      cases hmove
      exact ⟨RelayLifecycle.wf_stop hwf.connects, Or.inl ⟨_, rfl⟩⟩
    · by_cases hquit : label = .quit
      · subst hquit
        cases hmove
        exact ⟨RelayLifecycle.wf_stop hwf.connects, Or.inl ⟨_, rfl⟩⟩
      · have hsame := lifecycle_of_moves hmoves (fun inner heq => hinner ⟨inner, heq⟩) hstop hquit
        dsimp only at hsame
        rw [hsame]
        exact ⟨hwf, Or.inr fun _ h => h⟩

/-- Every binding is of the current relay. -/
structure Current (s : Extension) : Prop where
  lifecycle : s.lifecycle.Wf
  bindings : ∀ ownerId binding, s.owners.activeOwners.get? ownerId = some binding →
    s.lifecycle.isCurrent binding.relay = true

theorem current_initial (file : PeersFile) (generation : String) :
    (initial file generation).Current where
  lifecycle := RelayLifecycle.wf_initial
  bindings ownerId binding h := by cases h

theorem pairCall_cases (s : Extension) (relay : RelayId) (ownerId : OwnerId)
    (request : PairRequest) : s.pairCall relay ownerId request = .nothing ∨
      (s.lifecycle.isCurrent relay = true ∧
        s.pairCall relay ownerId request = .attach relay ownerId) := by
  unfold pairCall
  cases hcurrent : s.lifecycle.isCurrent relay with
  | false => exact Or.inl rfl
  | true =>
    rw [if_neg (show ¬ (!true) = true from Bool.false_ne_true)]
    by_cases hpending : s.attempts.contains (ownerId, request.id) = true
    · exact Or.inl (if_pos hpending)
    · rw [if_neg hpending]
      split
      · split_ifs
        · exact Or.inl rfl
        · exact Or.inr ⟨rfl, rfl⟩
      · exact Or.inr ⟨rfl, rfl⟩
      · exact Or.inl rfl

theorem attaches_pairCall {relay relay' : RelayId} {ownerId ownerId' : OwnerId}
    {request : PairRequest}
    (h : (s.pairCall relay' ownerId' request).attaches = some (relay, ownerId)) :
    relay = relay' ∧ s.lifecycle.isCurrent relay = true := by
  rcases pairCall_cases s relay' ownerId' request with hcall | ⟨hcurrent, hcall⟩
  · rw [hcall] at h
    cases h
  · rw [hcall] at h
    cases h
    exact ⟨rfl, hcurrent⟩

/-- An owner is attached over the current relay. -/
theorem isCurrent_of_attaches {label : Label} {relay : RelayId} {ownerId : OwnerId}
    (h : (s.ownersCall label).attaches = some (relay, ownerId)) :
    s.lifecycle.isCurrent relay = true := by
  cases label with
  | route relay' ownerId' purpose frame env pairedAt =>
    have hroute : ∀ frame, (s.routeCall relay' ownerId' env frame).attaches = none := by
      intro frame
      unfold routeCall
      split
      · split_ifs <;> rfl
      · rfl
    cases purpose <;> cases frame
    case pairing.pairRequest => exact (attaches_pairCall h).2
    case session.sessionHello => cases (hroute _).symm.trans h
    case session.inChannel => cases (hroute _).symm.trans h
    all_goals cases h
  | resolveOwner id env =>
    unfold ownersCall at h
    dsimp only at h
    split at h
    · unfold resolveCall at h
      split_ifs at h with hcurrent
      · cases h
      · cases h
        simp only [Bool.or_eq_true, Bool.not_eq_true', not_or, Bool.not_eq_false] at hcurrent
        exact hcurrent.2
    · cases h
  | resumePair waiting pairedAt => exact (attaches_pairCall h).2
  | lifecycle inner =>
    unfold ownersCall at h
    dsimp only at h
    split at h <;> cases h
  | settle =>
    unfold ownersCall at h
    dsimp only at h
    cases hsettled : s.settled with
    | none =>
      rw [hsettled] at h
      cases h
    | some settled =>
      rw [hsettled] at h
      simp only [Option.map_some, Option.getD_some, settleCall] at h
      split at h
      · split at h <;> cases h
      · cases h
  | _ => cases h

theorem Current.move {label : Label} (h : s.Current) (hmove : s.move label = some (s', events)) :
    s'.Current := by
  obtain ⟨hwf, hcurrent⟩ := move_lifecycle h.lifecycle hmove
  obtain ⟨howners, -⟩ := move_makes hmove
  refine ⟨hwf, fun ownerId binding' hget => ?_⟩
  rw [howners] at hget
  rcases hcurrent with ⟨reason, hdetach⟩ | hcurrent
  · rw [hdetach] at hget
    cases reason <;> cases hget
  · refine hcurrent _ ?_
    rcases Owners.get?_apply hget with ⟨binding, hbinding, -, hcontinues⟩ |
      ⟨relay, session, hattaches, -, hcontinues⟩
    · rw [hcontinues.relay]
      exact h.bindings ownerId binding hbinding
    · rw [hcontinues.relay]
      exact isCurrent_of_attaches hattaches

end Current

end Extension

/-! ## A host with one paired owner -/

section Sample

/-- The owner whose key is all zero. -/
def zeroOwner : OwnerId :=
  ⟨"AAAAAAAAAAAAAAAAAAAAAAAAAAAAAAAAAAAAAAAAAAA=", by decide⟩

def zeroOwnerFile : PeersFile := .peers [PeerRecord.entry ⟨"phone", zeroOwner.key, "2026-01-01"⟩]

/-- The host connects for the first time, with the owners of the file. -/
def firstConnect (authorizedOwnerIds : List String) : List Extension.Label :=
  [.lifecycle .start,
    .lifecycle (.identityLoaded ⟨1, true, .loadingIdentity⟩ (.resolved "relay")),
    .lifecycle (.readOptions ⟨1, true, .readingOptions⟩),
    .lifecycle (.optionsBuilt ⟨1, true, .optionsRead authorizedOwnerIds⟩ true true),
    .lifecycle (.connected ⟨1, true, .connecting 0 authorizedOwnerIds⟩)]

def idleEnv : ServiceEnv where
  digest _ := "fingerprint"
  token _ := "token"
  now := 0
  manager := ⟨"s", "g", none, [], fun _ => [], none⟩
  callbacks := ⟨.accepted, none, none, false, none⟩

/-- The owner says hello for a channel. -/
def helloRoute (id channelId : String) : Extension.Label :=
  .route 0 zeroOwner .session (.sessionHello id channelId) idleEnv "2026-01-01"

end Sample

end RemotePi.Host
