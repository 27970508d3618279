import RemotePi.Lib.ChallengeResponse
import RemotePi.Pairing.PairUri
import RemotePi.Relay.Routing
import RemotePi.Relay.Wire

/-!
# Authentication of connections

The handshake of `relay/src/handlers/peer.rs` (lines 45–93) and `relay/src/auth/challenge.rs`
with both clients: `RelayClient` of `pi-extension/src/transport/relay_client.ts` (lines 188–258)
and of `pwa/src/lib/remote-pi/relay-client.ts` (lines 47–95, 117–135). The network is not
trusted: any text may arrive on any connection and in any session, and what a client signs
does not depend on who asked for it.

Ed25519 is a parameter. What the relay relies on of its random nonces and of signatures is a
condition on the steps of a run: a nonce that nobody has seen, and no signature under a key in
honest hands that its holder has not made.

Results:
* `inv_run`: what the handshakes, the sockets of the relay and the sessions owe to the log.
* `registered_answered`: every registered connection under an honest key answered its own
  challenge through a session of the holder of the key.
* `handshake_registers`: a handshake whose texts arrive unchanged ends in the registration.
* `altered_hello_registered`, `browser_answers_twice`: what the signature does not cover, and
  what a client does that is asked twice.
-/

namespace RemotePi.Relay.Authentication

open RemotePi.Lib RemotePi.Lib.ChallengeResponse

/-! ## Model -/

/-- The part of Ed25519 that the parties use (`ed25519_dalek`, `node:crypto`, `@noble/ed25519`). -/
structure SignatureScheme (Seed : Type) where
  publicKey : Seed → List Byte
  sign : Seed → List Byte → List Byte
  /-- `VerifyingKey::from_bytes` takes the bytes. -/
  validKey : List Byte → Bool
  verify : List Byte → List Byte → List Byte → Bool

/-- What Ed25519 documents of keys and signatures. -/
structure SignatureScheme.Documented {Seed : Type} (scheme : SignatureScheme Seed) : Prop where
  length_publicKey : ∀ seed, (scheme.publicKey seed).length = 32
  validKey : ∀ seed, scheme.validKey (scheme.publicKey seed) = true
  length_sign : ∀ seed message, (scheme.sign seed message).length = 64
  verify_sign : ∀ seed message,
    scheme.verify (scheme.publicKey seed) message (scheme.sign seed message) = true

/-- The raw nonce of `gen_nonce` (`challenge.rs`, lines 54–60). -/
abbrev Nonce := {bytes : List Byte // bytes.length = 32}

/-- The Base64 text of some bytes: `authenticated_id` of a key (line 88 of `peer.rs`). -/
def base64 (bytes : List Byte) : String := String.ofList (Base64.encode bytes)

/-- A text of a client, by what `serde_json` reads it as before the authentication. -/
inductive ClientText where
  | hello (wire : HelloWire)
  | auth (messageType sig : String)
  | other
deriving DecidableEq, Repr

/-- The text of `challenge_line` (lines 79–84), parsed. -/
def challengeLine (nonce : Nonce) : Json :=
  .object [("type", .string "challenge"), ("nonce", .string (base64 nonce.val))]

/-- The peer's task up to its registration: before the hello, after the challenge, and after
    the handshake, whatever came of it. -/
inductive Handshake where
  | awaitingHello
  | awaitingAuth (hello : Hello) (verifyingKey : List Byte) (nonce : Nonce)
  | over
deriving DecidableEq

/-- Which `RelayClient` a session runs. -/
inductive ClientKind where
  | extension
  | browser
deriving DecidableEq, Repr

/-- A WebSocket of a client. -/
structure SessionId where
  kind : ClientKind
  number : ℕ
deriving DecidableEq, Repr

/-- `ConnectOptions` (`relay_client.ts`, lines 22–31); the browser connects as an Owner. -/
inductive ConnectOptions where
  | host (endpointId runtimeInstanceId : String) (metadata : EndpointMetadata)
      (authorizedOwnerIds : List String)
  | owner
deriving DecidableEq, Repr

/-- Where a client stands on its socket. `received` holds the texts that arrived and are not
    handled yet, `none` for one that is no JSON; `signing` tells that a signature is made. -/
inductive SessionPhase where
  | connecting
  | waiting (received : List (Option Json)) (signing : Bool)
  | connected
  | closed

structure Session (Seed : Type) where
  seed : Seed
  options : ConnectOptions
  phase : SessionPhase

/-- The relay and the clients. `relay` is the relay once its peers are authenticated. -/
structure Parties (Seed : Type) where
  handshakes : OrderedMap Outbound Handshake
  relay : State
  sessions : OrderedMap SessionId (Session Seed)

/-- What happens: challenges, signatures and authenticated connections. -/
abbrev AuthEvent := Event Outbound SessionId (List Byte) (List Byte)

section Model

variable {Seed : Type} (scheme : SignatureScheme Seed) (bufferFrom : Json → Option (List Byte))

/-- `parse_hello` of `challenge.rs` (lines 64–76), on a text that is a `HelloWire`. -/
def parseAuthHello (wire : HelloWire) : Option (List Byte) :=
  (decodeEd25519PublicKey wire.pubkey).filter scheme.validKey

/-- Both readings of the first text (`peer.rs`, lines 58–71). -/
def greet : ClientText → Option (Hello × List Byte)
  | .hello wire =>
    match parseHello wire, parseAuthHello scheme wire with
    | .ok hello, some verifyingKey => some (hello, verifyingKey)
    | _, _ => none
  | _ => none

/-- `verify_auth` (lines 88–97 of `challenge.rs`). -/
def verifyAuth (nonce : Nonce) (verifyingKey : List Byte) : ClientText → Bool
  | .auth messageType sig =>
    if messageType ≠ "auth" then false
    else
      match standardDecode sig.toList with
      | none => false
      | some bytes => bytes.length = 64 && scheme.verify verifyingKey nonce.val bytes
  | _ => false

/-- The hello of a client (`relay_client.ts`, lines 190–203; `relay-client.ts`, line 69). -/
def helloText (seed : Seed) : ConnectOptions → ClientText
  | .host endpointId runtimeInstanceId metadata authorizedOwnerIds =>
    .hello
      { frameType := "hello"
        protocolVersion := 2
        role := .host
        pubkey := base64 (scheme.publicKey seed)
        endpointId := some endpointId
        runtimeInstanceId := some runtimeInstanceId
        metadata := some metadata
        authorizedOwnerIds := some authorizedOwnerIds }
  | .owner =>
    .hello
      { frameType := "hello"
        protocolVersion := 2
        role := .owner
        pubkey := base64 (scheme.publicKey seed)
        endpointId := none
        runtimeInstanceId := none
        metadata := none
        authorizedOwnerIds := none }

/-- The answer to a challenge (`relay_client.ts`, lines 216–221; `relay-client.ts`, line 123). -/
def authText (seed : Seed) (nonce : List Byte) : ClientText :=
  .auth "auth" (base64 (scheme.sign seed nonce))

/-- A value that JavaScript takes for `false` in a condition. -/
def isFalsy : Json → Bool
  | .null => true
  | .bool value => !value
  | .number value => value = 0
  | .string value => value = ""
  | _ => false

/-- The nonce that the extension reads (lines 207–216), with `Buffer.from` in Base64. -/
def extensionNonce : Option Json → Option (List Byte)
  | some challenge =>
    match challenge.member? "type", challenge.member? "nonce" with
    | some (.string "challenge"), some nonce => if isFalsy nonce then none else bufferFrom nonce
    | _, _ => none
  | none => none

/-- `decodeChallenge` (`pwa/src/lib/remote-pi/protocol.ts`, lines 80–85) and the nonce that
    `signChallenge` decodes (`crypto.ts`, lines 35–43). -/
def browserNonce : Option Json → Option (List Byte)
  | some challenge =>
    if challenge.keys.all fun key => ["type", "nonce"].contains key then
      match challenge.member? "type", challenge.member? "nonce" with
      | some (.string "challenge"), some (.string nonce) =>
        Pairing.decodeBase64 nonce.toList .standard
      | _, _ => none
    else none
  | none => none

def readNonce : ClientKind → Option Json → Option (List Byte)
  | .extension => extensionNonce bufferFrom
  | .browser => browserNonce

/-- A text arrives before the client is connected. The extension listens to one (`nextMessage`,
    lines 225–250); the browser handles each (`onmessage`, line 71). -/
def arrive (text : Option Json) : ClientKind → List (Option Json) → List (Option Json)
  | .extension, [] => [text]
  | .extension, received => received
  | .browser, received => received ++ [text]

/-- The phase after a signature: the extension sends it and is connected, the browser has yet
    to send it. -/
def signedPhase (received : List (Option Json)) (i : ℕ) : ClientKind → SessionPhase
  | .extension => .connected
  | .browser => .waiting (received.eraseIdx i) true

def Parties.setHandshake (p : Parties Seed) (tx : Outbound) (handshake : Handshake) :
    Parties Seed :=
  { p with handshakes := p.handshakes.set tx handshake }

def Parties.setSession (p : Parties Seed) (id : SessionId) (session : Session Seed) :
    Parties Seed :=
  { p with sessions := p.sessions.set id session }

inductive Label (Seed : Type) where
  /-- A WebSocket is accepted. -/
  | upgrade (tx : Outbound)
  /-- The first text arrives; `nonce` is what `gen_nonce` gives. -/
  | hello (tx : Outbound) (text : ClientText) (nonce : Nonce)
  /-- The second text arrives. -/
  | auth (tx : Outbound) (text : ClientText)
  /-- Anything else during the handshake: a timeout, a closed socket, a frame that is no text. -/
  | hangUp (tx : Outbound)
  /-- A step of the relay with its authenticated peers. -/
  | relay (label : Relay.Label)
  /-- A client opens a socket. -/
  | connect (id : SessionId) (seed : Seed) (options : ConnectOptions)
  /-- The socket is open: the client sends its hello. -/
  | opened (id : SessionId)
  /-- A text arrives before the client is connected. -/
  | message (id : SessionId) (text : Option Json)
  /-- The client handles the text that arrived in place `i`. -/
  | answer (id : SessionId) (i : ℕ)
  /-- The browser has sent a signature and is connected. -/
  | finish (id : SessionId)
  /-- The client gives the socket up. -/
  | abort (id : SessionId)

/-- The steps of the peer tasks of the relay before their registration. -/
def relayMove (p : Parties Seed) : Label Seed → Option (Parties Seed × List AuthEvent)
  | .upgrade tx =>
    if p.handshakes.contains tx then none else some (p.setHandshake tx .awaitingHello, [])
  | .hello tx text nonce =>
    match p.handshakes.get? tx with
    | some .awaitingHello =>
      match greet scheme text with
      | some (hello, verifyingKey) =>
        some (p.setHandshake tx (.awaitingAuth hello verifyingKey nonce),
          [.challenged tx nonce.val])
      | none => some (p.setHandshake tx .over, [])
    | _ => none
  | .auth tx text =>
    match p.handshakes.get? tx with
    | some (.awaitingAuth hello verifyingKey nonce) =>
      if verifyAuth scheme nonce verifyingKey text then
        (p.relay.step (.accept tx (base64 verifyingKey) hello)).map fun relay =>
          ({ p.setHandshake tx .over with relay }, [.accepted tx verifyingKey])
      else some (p.setHandshake tx .over, [])
    | _ => none
  | .hangUp tx =>
    match p.handshakes.get? tx with
    | some .awaitingHello | some (.awaitingAuth _ _ _) => some (p.setHandshake tx .over, [])
    | _ => none
  | .relay (.accept _ _ _) => none
  | .relay label => (p.relay.step label).map fun relay => ({ p with relay }, [])
  | _ => none

/-- The step of one session of a client. -/
def sessionMove (id : SessionId) (session : Session Seed) :
    Label Seed → Option (Session Seed × List AuthEvent)
  | .opened _ =>
    match session.phase with
    | .connecting => some ({ session with phase := .waiting [] false }, [])
    | _ => none
  | .message _ text =>
    match session.phase with
    | .waiting received signing =>
      some ({ session with phase := .waiting (arrive text id.kind received) signing }, [])
    | _ => none
  | .answer _ i =>
    match session.phase with
    | .waiting received _ =>
      (received[i]?).map fun text =>
        match readNonce bufferFrom id.kind text with
        | some nonce =>
          ({ session with phase := signedPhase received i id.kind },
            [.signed id (scheme.publicKey session.seed) nonce])
        | none => ({ session with phase := .closed }, [])
    | _ => none
  | .finish _ =>
    match session.phase with
    | .waiting _ true => some ({ session with phase := .connected }, [])
    | _ => none
  | .abort _ =>
    match session.phase with
    | .closed => none
    | _ => some ({ session with phase := .closed }, [])
  | _ => none

/-- The session that a label is about. -/
def Label.session? : Label Seed → Option SessionId
  | .opened id | .message id _ | .answer id _ | .finish id | .abort id => some id
  | _ => none

/-- The connection whose handshake a label is about. -/
def Label.handshake? : Label Seed → Option Outbound
  | .upgrade tx | .hello tx _ _ | .auth tx _ | .hangUp tx => some tx
  | _ => none

def move (p : Parties Seed) (label : Label Seed) : Option (Parties Seed × List AuthEvent) :=
  match label, label.session? with
  | .connect id seed options, _ =>
    if p.sessions.contains id then none
    else if id.kind = .browser ∧ options ≠ .owner then none
    else some (p.setSession id ⟨seed, options, .connecting⟩, [])
  | label, some id =>
    (p.sessions.get? id).bind fun session =>
      (sessionMove scheme bufferFrom id session label).map fun (session, happened) =>
        (p.setSession id session, happened)
  | label, none => relayMove scheme p label

/-- No connections and no sessions. -/
def Parties.init : Parties Seed := ⟨.empty, .init, .empty⟩

def step : Parties Seed × List AuthEvent → Label Seed → Option (Parties Seed × List AuthEvent) :=
  logged (move scheme bufferFrom)

/-- `gen_nonce` gives a nonce that nobody has seen. -/
def FreshNonce (log : List AuthEvent) : Label Seed → Prop
  | .hello _ _ nonce => ∀ event ∈ log, event.nonce? ≠ some nonce.val
  | _ => True

/-- A signature that the relay accepts under a key in honest hands was made by its holder. -/
def Unforged (honest : List Byte → Prop) (p : Parties Seed) (log : List AuthEvent) :
    Label Seed → Prop
  | .auth tx text => ∀ hello verifyingKey nonce,
      p.handshakes.get? tx = some (.awaitingAuth hello verifyingKey nonce) →
        verifyAuth scheme nonce verifyingKey text = true → honest verifyingKey →
          ∃ id, .signed id verifyingKey nonce.val ∈ log
  | _ => True

/-- What is relied on at each step. -/
def Sane (honest : List Byte → Prop) (s : Parties Seed × List AuthEvent) (label : Label Seed) :
    Prop :=
  FreshNonce s.2 label ∧ Unforged scheme honest s.1 s.2 label

end Model

/-! ## What a step leaves -/

section Step

variable {Seed : Type} {scheme : SignatureScheme Seed} {bufferFrom : Json → Option (List Byte)}
  {honest : List Byte → Prop} {p p' : Parties Seed} {log happened : List AuthEvent}
  {label : Label Seed}

/-- The steps of the relay after the authentication keep the identity of every socket. -/
theorem socket_of_step {r r' : State} {label : Relay.Label}
    (hlabel : ∀ tx authenticatedId hello, label ≠ .accept tx authenticatedId hello)
    (h : r.step label = some r') {tx : Outbound} {socket : Socket}
    (hsocket : r'.sockets.get? tx = some socket) :
    ∃ socket', r.sockets.get? tx = some socket' ∧
      socket'.authenticatedId = socket.authenticatedId := by
  have hlocked : ∀ {tx' : Outbound} {authenticatedId : String} {phase phase' : SocketPhase}
      {l : LockedStep}, r.sockets.get? tx' = some ⟨authenticatedId, phase⟩ →
        (r.locked tx' ⟨authenticatedId, phase⟩ phase' l).sockets.get? tx = some socket →
          ∃ socket', r.sockets.get? tx = some socket' ∧
            socket'.authenticatedId = socket.authenticatedId := by
    intro tx' authenticatedId phase phase' l hs hset
    rw [locked_sockets, OrderedMap.get?_set] at hset
    split_ifs at hset with htx
    · cases hset
      exact ⟨⟨authenticatedId, phase⟩, by rw [htx, hs], rfl⟩
    · exact ⟨socket, hset, rfl⟩
  cases label with
  | accept tx' authenticatedId hello => exact absurd rfl (hlabel tx' authenticatedId hello)
  | register tx' =>
    obtain ⟨authenticatedId, hello, connId, hs, rfl⟩ := step_register h
    exact hlocked hs hsocket
  | frame tx' frame =>
    obtain ⟨authenticatedId, connection, hs, -, rfl⟩ := step_frame h
    exact hlocked hs hsocket
  | disconnect tx' =>
    obtain ⟨authenticatedId, connection, hs, -, rfl⟩ := step_disconnect h
    exact hlocked hs hsocket
  | push tx' =>
    obtain ⟨notifications, -, rfl⟩ := step_push h
    exact ⟨socket, hsocket, rfl⟩

/-- The identity of an accepted hello is its key. -/
def helloId : Hello → String
  | .host host => host.deviceId
  | .owner ownerId => ownerId

theorem helloMatches_iff {hello : Hello} {id : String} :
    helloMatches hello id = true ↔ helloId hello = id := by
  cases hello <;> simp [helloMatches, helloId]

theorem parseHello_identity {wire : HelloWire} {hello : Hello} (h : parseHello wire = .ok hello) :
    canonicalId wire.pubkey = .ok (helloId hello) := by
  unfold parseHello at h
  split_ifs at h
  cases hid : canonicalId wire.pubkey with
  | error e =>
    rw [hid] at h
    cases h
  | ok identity =>
    rw [hid] at h
    cases hrole : wire.role with
    | host =>
      rw [hrole] at h
      change parseHostHello wire identity = _ at h
      unfold parseHostHello at h
      cases he : wire.endpointId with
      | none => rw [he] at h; cases h
      | some endpointId =>
        cases hr : wire.runtimeInstanceId with
        | none => rw [he, hr] at h; cases h
        | some runtimeInstanceId =>
          cases hm : wire.metadata with
          | none => rw [he, hr, hm] at h; cases h
          | some metadata =>
            rw [he, hr, hm] at h
            change (if !isUuid endpointId || !isUuid runtimeInstanceId then _ else _) = _ at h
            split_ifs at h with hu
            cases hids : (wire.authorizedOwnerIds.getD []).mapM canonicalId with
            | error e => rw [hids] at h; cases h
            | ok ids =>
              rw [hids] at h
              cases h
              rfl
    | owner =>
      rw [hrole] at h
      change parseOwnerHello wire identity = _ at h
      unfold parseOwnerHello at h
      split_ifs at h
      cases h
      rfl

/-- `register_connection` never meets an identity that is not the authenticated one: both
    readings of the hello decode the same key. -/
theorem greet_matches {text : ClientText} {hello : Hello} {verifyingKey : List Byte}
    (h : greet scheme text = some (hello, verifyingKey)) :
    helloMatches hello (base64 verifyingKey) = true := by
  unfold greet at h
  split at h
  · next wire =>
    split at h
    · next hello' verifyingKey' hhello hkey =>
      cases h
      have hid := parseHello_identity hhello
      obtain ⟨hdecode, -⟩ := Option.filter_eq_some_iff.mp hkey
      unfold canonicalId canonicalEd25519PublicKey at hid
      rw [hdecode, Option.map_some] at hid
      dsimp only at hid
      split_ifs at hid
      rw [helloMatches_iff]
      exact (Except.ok.inj hid).symm
    · cases h
  · cases h

/-- What a step of the relay can be, before and after the authentication of a peer. -/
inductive RelayMoved (scheme : SignatureScheme Seed) (p : Parties Seed) :
    Label Seed → Parties Seed × List AuthEvent → Prop
  | upgraded (tx : Outbound) (hget : p.handshakes.get? tx = none) :
      RelayMoved scheme p (.upgrade tx) (p.setHandshake tx .awaitingHello, [])
  | challenged (tx : Outbound) (text : ClientText) (nonce : Nonce) (hello : Hello)
      (verifyingKey : List Byte) (hget : p.handshakes.get? tx = some .awaitingHello)
      (hgreet : greet scheme text = some (hello, verifyingKey)) :
      RelayMoved scheme p (.hello tx text nonce)
        (p.setHandshake tx (.awaitingAuth hello verifyingKey nonce), [.challenged tx nonce.val])
  | accepted (tx : Outbound) (text : ClientText) (nonce : Nonce) (hello : Hello)
      (verifyingKey : List Byte) (relay : State)
      (hget : p.handshakes.get? tx = some (.awaitingAuth hello verifyingKey nonce))
      (hverify : verifyAuth scheme nonce verifyingKey text = true)
      (hrelay : p.relay.step (.accept tx (base64 verifyingKey) hello) = some relay) :
      RelayMoved scheme p (.auth tx text)
        ({ p.setHandshake tx .over with relay }, [.accepted tx verifyingKey])
  | ended (tx : Outbound) (handshake : Handshake) (label : Label Seed)
      (htx : label.handshake? = some tx) (hget : p.handshakes.get? tx = some handshake)
      (hne : handshake ≠ .over) :
      RelayMoved scheme p label (p.setHandshake tx .over, [])
  | served (label : Relay.Label) (relay : State)
      (hlabel : ∀ tx authenticatedId hello, label ≠ .accept tx authenticatedId hello)
      (hrelay : p.relay.step label = some relay) :
      RelayMoved scheme p (.relay label) ({ p with relay }, [])

theorem relayMoved_of_move (h : relayMove scheme p label = some (p', happened)) :
    RelayMoved scheme p label (p', happened) := by
  cases label with
  | upgrade tx =>
    simp only [relayMove] at h
    split_ifs at h with hcontains
    cases h
    exact .upgraded tx (by simpa [OrderedMap.contains] using hcontains)
  | hello tx text nonce =>
    simp only [relayMove] at h
    split at h
    · next hget =>
      split at h
      · next hello verifyingKey hgreet =>
        cases h
        exact .challenged tx text nonce hello verifyingKey hget hgreet
      · cases h
        exact .ended tx .awaitingHello _ rfl hget (by intro heq; cases heq)
    · cases h
  | auth tx text =>
    simp only [relayMove] at h
    split at h
    · next hello verifyingKey nonce hget =>
      split_ifs at h with hverify
      · obtain ⟨relay, hrelay, heq⟩ := Option.map_eq_some_iff.mp h
        cases heq
        exact .accepted tx text nonce hello verifyingKey relay hget hverify hrelay
      · cases h
        exact .ended tx _ _ rfl hget (by intro heq; cases heq)
    · cases h
  | hangUp tx =>
    simp only [relayMove] at h
    split at h
    · next hget =>
      cases h
      exact .ended tx .awaitingHello _ rfl hget (by intro heq; cases heq)
    · next hello verifyingKey nonce hget =>
      cases h
      exact .ended tx _ _ rfl hget (by intro heq; cases heq)
    · cases h
  | relay label' =>
    cases label' with
    | accept tx authenticatedId hello => cases h
    | register tx =>
      obtain ⟨relay, hrelay, heq⟩ := Option.map_eq_some_iff.mp h
      cases heq
      exact .served _ relay (by intro _ _ _ heq; cases heq) hrelay
    | frame tx frame =>
      obtain ⟨relay, hrelay, heq⟩ := Option.map_eq_some_iff.mp h
      cases heq
      exact .served _ relay (by intro _ _ _ heq; cases heq) hrelay
    | disconnect tx =>
      obtain ⟨relay, hrelay, heq⟩ := Option.map_eq_some_iff.mp h
      cases heq
      exact .served _ relay (by intro _ _ _ heq; cases heq) hrelay
    | push tx =>
      obtain ⟨relay, hrelay, heq⟩ := Option.map_eq_some_iff.mp h
      cases heq
      exact .served _ relay (by intro _ _ _ heq; cases heq) hrelay
  | connect id seed options => cases h
  | opened id => cases h
  | message id text => cases h
  | answer id i => cases h
  | finish id => cases h
  | abort id => cases h

/-- The client has handled what it waited for. -/
def SessionPhase.isPast : SessionPhase → Bool
  | .connected | .closed => true
  | _ => false

/-- What a session can do: it stays past what it waited for, and signs only where it was not
    there yet; the extension is past it then. -/
theorem sessionMove_eq_some {id : SessionId} {session session' : Session Seed}
    (h : sessionMove scheme bufferFrom id session label = some (session', happened)) :
    session'.seed = session.seed ∧ session'.options = session.options ∧
      (session.phase.isPast = true → session'.phase.isPast = true) ∧
      (happened = [] ∨ session.phase.isPast = false ∧
        (id.kind = .extension → session'.phase.isPast = true) ∧
        ∃ nonce, happened = [.signed id (scheme.publicKey session.seed) nonce]) := by
  obtain ⟨seed, options, phase⟩ := session
  cases label with
  | opened id' =>
    cases phase with
    | connecting =>
      cases h
      exact ⟨rfl, rfl, (by intro hpast; cases hpast), Or.inl rfl⟩
    | waiting received signing => cases h
    | connected => cases h
    | closed => cases h
  | message id' text =>
    cases phase with
    | connecting => cases h
    | waiting received signing =>
      cases h
      exact ⟨rfl, rfl, (by intro hpast; cases hpast), Or.inl rfl⟩
    | connected => cases h
    | closed => cases h
  | answer id' i =>
    cases phase with
    | connecting => cases h
    | waiting received signing =>
      simp only [sessionMove] at h
      obtain ⟨text, -, heq⟩ := Option.map_eq_some_iff.mp h
      split at heq
      · next nonce hnonce =>
        cases heq
        refine ⟨rfl, rfl, (by intro hpast; cases hpast), Or.inr ⟨rfl, fun hkind => ?_, nonce, rfl⟩⟩
        rw [hkind]
        rfl
      · cases heq
        exact ⟨rfl, rfl, (by intro hpast; cases hpast), Or.inl rfl⟩
    | connected => cases h
    | closed => cases h
  | finish id' =>
    cases phase with
    | connecting => cases h
    | waiting received signing =>
      cases signing with
      | false => cases h
      | true =>
        cases h
        exact ⟨rfl, rfl, (by intro hpast; cases hpast), Or.inl rfl⟩
    | connected => cases h
    | closed => cases h
  | abort id' =>
    cases phase with
    | connecting =>
      cases h
      exact ⟨rfl, rfl, fun _ => rfl, Or.inl rfl⟩
    | waiting received signing =>
      cases h
      exact ⟨rfl, rfl, fun _ => rfl, Or.inl rfl⟩
    | connected =>
      cases h
      exact ⟨rfl, rfl, fun _ => rfl, Or.inl rfl⟩
    | closed => cases h
  | upgrade tx => cases h
  | hello tx text nonce => cases h
  | auth tx text => cases h
  | hangUp tx => cases h
  | relay label' => cases h
  | connect id' seed' options' => cases h

/-- What a step can do: open a session, move one, or move the relay. -/
theorem move_eq_some (h : move scheme bufferFrom p label = some (p', happened)) :
    (∃ id seed options, p.sessions.get? id = none ∧
      p' = p.setSession id ⟨seed, options, .connecting⟩ ∧ happened = []) ∨
    (∃ id session session', p.sessions.get? id = some session ∧ label.session? = some id ∧
      sessionMove scheme bufferFrom id session label = some (session', happened) ∧
      p' = p.setSession id session') ∨
    relayMove scheme p label = some (p', happened) := by
  unfold move at h
  split at h
  · next id seed options =>
    split_ifs at h with hcontains hkind
    cases h
    exact Or.inl ⟨id, seed, options, by simpa [OrderedMap.contains] using hcontains, rfl, rfl⟩
  · next _ hid =>
    obtain ⟨session, hget, hmap⟩ := Option.bind_eq_some_iff.mp h
    obtain ⟨⟨session', happened'⟩, hmove, heq⟩ := Option.map_eq_some_iff.mp hmap
    cases heq
    exact Or.inr (Or.inl ⟨_, session, session', hget, hid, hmove, rfl⟩)
  · exact Or.inr (Or.inr h)

end Step

/-! ## What is owed to the log -/

section Invariant

variable {Seed : Type} {scheme : SignatureScheme Seed} {bufferFrom : Json → Option (List Byte)}
  {honest : List Byte → Prop} {p p' : Parties Seed} {log happened : List AuthEvent}
  {label : Label Seed}

/-- What the handshakes, the sockets of the relay and the sessions owe to the log. -/
structure Inv (scheme : SignatureScheme Seed) (p : Parties Seed) (log : List AuthEvent) :
    Prop where
  /-- The relay with its authenticated peers runs as in `Peer`. -/
  relay : ∃ labels, run State.step State.init labels = some p.relay
  challenged : ∀ tx hello verifyingKey nonce,
    p.handshakes.get? tx = some (.awaitingAuth hello verifyingKey nonce) →
      .challenged tx nonce.val ∈ log ∧ helloMatches hello (base64 verifyingKey) = true
  authenticated : ∀ tx socket, p.relay.sockets.get? tx = some socket →
    p.handshakes.get? tx = some .over ∧
      ∃ verifyingKey, socket.authenticatedId = base64 verifyingKey ∧
        .accepted tx verifyingKey ∈ log
  signed : ∀ id key nonce, .signed id key nonce ∈ log →
    ∃ session, p.sessions.get? id = some session ∧ key = scheme.publicKey session.seed ∧
      (id.kind = .extension → session.phase.isPast = true)

theorem inv_init : Inv scheme (Parties.init : Parties Seed) [] where
  relay := ⟨[], rfl⟩
  challenged _ _ _ _ h := by cases h
  authenticated _ _ h := by cases h
  signed _ _ _ h := by cases h

/-- A handshake of a connection that is not authenticated moves, with nothing signed. -/
theorem Inv.setHandshake (h : Inv scheme p log) {tx : Outbound} {handshake : Handshake}
    (hget : p.handshakes.get? tx ≠ some .over)
    (hsigned : ∀ id key nonce, .signed id key nonce ∉ happened)
    (hchallenged : ∀ hello verifyingKey nonce,
      handshake = .awaitingAuth hello verifyingKey nonce →
        .challenged tx nonce.val ∈ log ++ happened ∧
          helloMatches hello (base64 verifyingKey) = true) :
    Inv scheme (p.setHandshake tx handshake) (log ++ happened) where
  relay := h.relay
  challenged tx' hello verifyingKey nonce hget' := by
    unfold Parties.setHandshake at hget'
    rw [OrderedMap.get?_set] at hget'
    split_ifs at hget' with htx
    · cases hget'
      rw [htx]
      exact hchallenged hello verifyingKey nonce rfl
    · obtain ⟨hmem, hmatches⟩ := h.challenged tx' hello verifyingKey nonce hget'
      exact ⟨List.mem_append_left _ hmem, hmatches⟩
  authenticated tx' socket hsocket := by
    obtain ⟨hover, verifyingKey, hid, hmem⟩ := h.authenticated tx' socket hsocket
    refine ⟨?_, verifyingKey, hid, List.mem_append_left _ hmem⟩
    have hne : tx' ≠ tx := by
      rintro rfl
      exact hget hover
    unfold Parties.setHandshake
    rw [OrderedMap.get?_set_of_ne _ _ hne, hover]
  signed id key nonce hmem := by
    rcases List.mem_append.mp hmem with hmem | hmem
    · exact h.signed id key nonce hmem
    · exact absurd hmem (hsigned id key nonce)

/-- A connection is authenticated. -/
theorem Inv.accept (h : Inv scheme p log) {tx : Outbound} {hello : Hello}
    {verifyingKey : List Byte} {nonce : Nonce} {relay : State}
    (hget : p.handshakes.get? tx = some (.awaitingAuth hello verifyingKey nonce))
    (hrelay : p.relay.step (.accept tx (base64 verifyingKey) hello) = some relay) :
    Inv scheme { p.setHandshake tx .over with relay } (log ++ [.accepted tx verifyingKey]) := by
  have hover : Inv scheme (p.setHandshake tx .over) (log ++ [.accepted tx verifyingKey]) :=
    h.setHandshake (by rw [hget]; intro heq; cases heq)
      (by intro id key nonce hmem; cases List.mem_singleton.mp hmem)
      (by intro hello verifyingKey nonce heq; cases heq)
  obtain ⟨labels, hlabels⟩ := h.relay
  obtain ⟨-, hcases⟩ := step_accept hrelay
  refine ⟨⟨_, run_snoc hlabels hrelay⟩, hover.challenged, fun tx' socket hsocket => ?_,
    hover.signed⟩
  have hsockets : (tx' = tx ∧ socket.authenticatedId = base64 verifyingKey) ∨
      p.relay.sockets.get? tx' = some socket := by
    by_cases htx : tx' = tx
    · rcases hcases with ⟨-, rfl⟩ | rfl
      all_goals
        subst htx
        dsimp only at hsocket
        rw [OrderedMap.get?_set_self] at hsocket
        cases hsocket
        exact Or.inl ⟨rfl, rfl⟩
    · rcases hcases with ⟨-, rfl⟩ | rfl
      all_goals
        dsimp only at hsocket
        rw [OrderedMap.get?_set_of_ne _ _ htx] at hsocket
        exact Or.inr hsocket
  rcases hsockets with ⟨rfl, hid⟩ | hsocket
  · refine ⟨?_, verifyingKey, hid, by simp⟩
    unfold Parties.setHandshake
    rw [OrderedMap.get?_set_self]
  · exact hover.authenticated tx' socket hsocket

/-- The relay serves its authenticated peers. -/
theorem Inv.serve (h : Inv scheme p log) {label : Relay.Label} {relay : State}
    (hlabel : ∀ tx authenticatedId hello, label ≠ .accept tx authenticatedId hello)
    (hrelay : p.relay.step label = some relay) : Inv scheme { p with relay } log where
  relay := by
    obtain ⟨labels, hlabels⟩ := h.relay
    exact ⟨_, run_snoc hlabels hrelay⟩
  challenged := h.challenged
  authenticated tx socket hsocket := by
    obtain ⟨socket', hsocket', hid⟩ := socket_of_step hlabel hrelay hsocket
    obtain ⟨hover, verifyingKey, hid', hmem⟩ := h.authenticated tx socket' hsocket'
    exact ⟨hover, verifyingKey, hid ▸ hid', hmem⟩
  signed := h.signed

theorem Inv.relayMoved {s : Parties Seed × List AuthEvent} (h : Inv scheme p log)
    (hmoved : RelayMoved scheme p label s) : Inv scheme s.1 (log ++ s.2) := by
  cases hmoved with
  | upgraded tx hget =>
    exact h.setHandshake (by rw [hget]; intro heq; cases heq) (by intro _ _ _ hmem; cases hmem)
      (by intro _ _ _ heq; cases heq)
  | challenged tx text nonce hello verifyingKey hget hgreet =>
    refine h.setHandshake (by rw [hget]; intro heq; cases heq)
      (by intro id key nonce hmem; cases List.mem_singleton.mp hmem) ?_
    intro hello' verifyingKey' nonce' heq
    cases heq
    exact ⟨by simp, greet_matches hgreet⟩
  | accepted tx text nonce hello verifyingKey relay hget hverify hrelay =>
    exact h.accept hget hrelay
  | ended tx handshake label htx hget hne =>
    exact h.setHandshake (by rw [hget]; exact fun heq => hne (Option.some.inj heq))
      (by intro _ _ _ hmem; cases hmem) (by intro _ _ _ heq; cases heq)
  | served label relay hlabel hrelay =>
    rw [List.append_nil]
    exact h.serve hlabel hrelay

/-- A session moves. -/
theorem Inv.sessionMove {id : SessionId} {session session' : Session Seed}
    (h : Inv scheme p log) (hget : p.sessions.get? id = some session)
    (hmove : sessionMove scheme bufferFrom id session label = some (session', happened)) :
    Inv scheme (p.setSession id session') (log ++ happened) := by
  obtain ⟨hseed, -, hpast, hsigns⟩ := sessionMove_eq_some hmove
  have hset : ∀ id', (p.setSession id session').sessions.get? id' =
      if id' = id then some session' else p.sessions.get? id' :=
    fun id' => OrderedMap.get?_set _ _ _ _
  refine ⟨h.relay, fun tx hello verifyingKey nonce hhandshake => ?_, fun tx socket hsocket => ?_,
    fun id' key nonce hmem => ?_⟩
  · obtain ⟨hmem, hmatches⟩ := h.challenged tx hello verifyingKey nonce hhandshake
    exact ⟨List.mem_append_left _ hmem, hmatches⟩
  · obtain ⟨hover, verifyingKey, hid, hmem⟩ := h.authenticated tx socket hsocket
    exact ⟨hover, verifyingKey, hid, List.mem_append_left _ hmem⟩
  · rw [hset]
    rcases List.mem_append.mp hmem with hmem | hmem
    · obtain ⟨other, hother, hkey, hphase⟩ := h.signed id' key nonce hmem
      split_ifs with hid
      · subst hid
        rw [hget] at hother
        cases hother
        exact ⟨session', rfl, by rw [hseed, hkey], fun hkind => hpast (hphase hkind)⟩
      · exact ⟨other, hother, hkey, hphase⟩
    · rcases hsigns with rfl | ⟨-, hphase, nonce', rfl⟩
      · cases hmem
      · cases List.mem_singleton.mp hmem
        exact ⟨session', by rw [if_pos rfl], by rw [hseed], hphase⟩

theorem Inv.move (h : Inv scheme p log)
    (hmove : move scheme bufferFrom p label = some (p', happened)) :
    Inv scheme p' (log ++ happened) := by
  rcases move_eq_some hmove with ⟨id, seed, options, hnone, rfl, rfl⟩ |
    ⟨id, session, session', hget, -, hsession, rfl⟩ | hrelay
  · rw [List.append_nil]
    refine ⟨h.relay, h.challenged, h.authenticated, fun id' key nonce hmem => ?_⟩
    obtain ⟨session, hget, hrest⟩ := h.signed id' key nonce hmem
    have hne : id' ≠ id := by
      rintro rfl
      rw [hnone] at hget
      cases hget
    refine ⟨session, ?_, hrest⟩
    unfold Parties.setSession
    rw [OrderedMap.get?_set_of_ne _ _ hne, hget]
  · exact h.sessionMove hget hsession
  · exact h.relayMoved (relayMoved_of_move hrelay)

theorem inv_run {labels : List (Label Seed)}
    (hrun : run (step scheme bufferFrom) (Parties.init, []) labels = some (p, log)) :
    Inv scheme p log := by
  refine @invariant_run _ _ _ (fun s : Parties Seed × List AuthEvent => Inv scheme s.1 s.2)
    (fun s label t hinv hstep => ?_) _ _ _ inv_init hrun
  obtain ⟨happened, hmove, hlog⟩ := logged_eq_some.mp hstep
  rw [hlog]
  exact hinv.move hmove

/-! ## Challenge and response -/

/-- A session of the extension signs at most once. -/
def signsOnce (id : SessionId) : Prop := id.kind = .extension

/-- What happens in a step follows the rule of challenge and response. -/
theorem rule_move (h : Inv scheme p log) (hrule : Throughout (Rule honest signsOnce) log)
    (hsane : Sane scheme honest (p, log) label)
    (hmove : move scheme bufferFrom p label = some (p', happened)) :
    Throughout (Rule honest signsOnce) (log ++ happened) := by
  obtain ⟨hfresh, hunforged⟩ := hsane
  have hsnoc : ∀ {event : AuthEvent}, Rule honest signsOnce log event →
      Throughout (Rule honest signsOnce) (log ++ [event]) := by
    intro event hevent
    refine throughout_append.mpr ⟨hrule, throughout_singleton.mpr ?_⟩
    rw [List.append_nil]
    exact hevent
  have hnil : Throughout (Rule honest signsOnce) (log ++ []) := by
    rw [List.append_nil]
    exact hrule
  rcases move_eq_some hmove with ⟨id, seed, options, hnone, rfl, rfl⟩ |
    ⟨id, session, session', hget, -, hsession, rfl⟩ | hrelay
  · exact hnil
  · obtain ⟨-, -, -, rfl | ⟨hwaiting, -, nonce, rfl⟩⟩ := sessionMove_eq_some hsession
    · exact hnil
    · refine hsnoc ?_
      -- A session of the extension that has signed is past what it waited for.
      intro honce key nonce' hmem
      obtain ⟨other, hother, -, hphase⟩ := h.signed id key nonce' hmem
      rw [hget] at hother
      cases hother
      rw [hphase honce] at hwaiting
      cases hwaiting
  · cases relayMoved_of_move hrelay with
    | upgraded tx hget => exact hnil
    | challenged tx text nonce hello verifyingKey hget hgreet => exact hsnoc hfresh
    | accepted tx text nonce hello verifyingKey relay hget hverify hrelay =>
      obtain ⟨hchallenged, -⟩ := h.challenged tx hello verifyingKey nonce hget
      exact hsnoc ⟨nonce.val, hchallenged, hunforged hello verifyingKey nonce hget hverify⟩
    | ended tx handshake label htx hget hne => exact hnil
    | served label relay hlabel hrelay => exact hnil

theorem rule_run {labels : List (Label Seed)}
    (hrun : run (step scheme bufferFrom) (Parties.init, []) labels = some (p, log))
    (hsane : Along (step scheme bufferFrom) (Sane scheme honest) (Parties.init, []) labels) :
    Throughout (Rule honest signsOnce) log := by
  refine (@invariant_along _ _ _ _ (fun s : Parties Seed × List AuthEvent =>
    Inv scheme s.1 s.2 ∧ Throughout (Rule honest signsOnce) s.2)
    (fun s label t hinv hsane hstep => ?_) _ _ _ ⟨inv_init, throughout_nil⟩ hsane hrun).2
  obtain ⟨happened, hmove, hlog⟩ := logged_eq_some.mp hstep
  rw [hlog]
  exact ⟨hinv.1.move hmove, rule_move hinv.1 hinv.2 hsane hmove⟩

/-- The connection answered its own challenge through a session of the holder of the key. -/
def AnsweredBy (scheme : SignatureScheme Seed) (p : Parties Seed) (log : List AuthEvent)
    (tx : Outbound) (verifyingKey : List Byte) : Prop :=
  ∃ nonce id session, Answered log tx verifyingKey nonce id ∧ p.sessions.get? id = some session ∧
    scheme.publicKey session.seed = verifyingKey

/-- A socket of the relay speaks for a key, and under an honest key it answered its challenge. -/
theorem socket_answered (h : Inv scheme p log) (hrule : Throughout (Rule honest signsOnce) log)
    {tx : Outbound} {authenticatedId : String} {phase : SocketPhase}
    (hsocket : p.relay.sockets.get? tx = some ⟨authenticatedId, phase⟩) :
    ∃ verifyingKey, authenticatedId = base64 verifyingKey ∧
      (honest verifyingKey → AnsweredBy scheme p log tx verifyingKey) := by
  obtain ⟨-, verifyingKey, hid, hmem⟩ := h.authenticated tx _ hsocket
  refine ⟨verifyingKey, hid, fun hhonest => ?_⟩
  obtain ⟨nonce, id, hanswered⟩ := answered_of_accepted hrule hmem hhonest
  obtain ⟨session, hsession, hkey, -⟩ := h.signed id verifyingKey nonce hanswered.signed_mem
  exact ⟨nonce, id, session, hanswered, hsession, hkey.symm⟩

end Invariant

/-! ## What honest parties send -/

section Texts

/-- A digit of Base64 is neither a space nor a character of the URL-safe alphabet. -/
theorem digit_spec (s : Base64.Sextet) :
    isWhiteSpace (Base64.digit s) = false ∧ Base64.digit s ≠ '-' ∧
      Base64.digit s ≠ '_' := by
  revert s
  decide

theorem mem_encode {bytes : List Byte} {c : Char} (h : c ∈ Base64.encode bytes) :
    (∃ s, Base64.digit s = c) ∨ c = '=' := by
  rcases List.mem_append.mp h with hdigit | hpad
  · obtain ⟨s, -, hs⟩ := List.mem_map.mp hdigit
    exact Or.inl ⟨s, hs⟩
  · exact Or.inr (List.eq_of_mem_replicate hpad)

theorem encode_spec {bytes : List Byte} {c : Char} (h : c ∈ Base64.encode bytes) :
    isWhiteSpace c = false ∧ c ≠ '-' ∧ c ≠ '_' := by
  rcases mem_encode h with ⟨s, rfl⟩ | rfl
  · exact digit_spec s
  · decide

theorem takeWhile_encode (bytes : List Byte) :
    (Base64.encode bytes).takeWhile (fun c => decide (c ≠ '=')) =
      (Base64.encodeSextets bytes).map Base64.digit := by
  rw [Base64.encode, List.takeWhile_append_of_pos]
  · have hpad : ∀ n, (List.replicate n '=').takeWhile (fun c => decide (c ≠ '=')) = [] := by
      intro n
      cases n <;> rfl
    rw [hpad, List.append_nil]
  · intro c hc
    obtain ⟨s, -, rfl⟩ := List.mem_map.mp hc
    exact decide_eq_true (Base64.digit_ne_pad s)

/-- The relay decodes what is encoded. -/
theorem standardDecode_encode (bytes : List Byte) :
    standardDecode (Base64.encode bytes) = some bytes := by
  unfold standardDecode
  dsimp only
  rw [takeWhile_encode, Base64.decode_digits, if_pos rfl]

/-- The relay reads the key of a client that is written in standard Base64. -/
theorem decodeEd25519PublicKey_base64 {bytes : List Byte} (h : bytes.length = 32) :
    decodeEd25519PublicKey (base64 bytes) = some bytes := by
  have hurl : (Base64.encode bytes).any (fun c => c = '-' ∨ c = '_') = false := by
    refine List.any_eq_false.mpr fun c hc => ?_
    obtain ⟨-, hdash, hline⟩ := encode_spec hc
    simp [hdash, hline]
  have hnormalized : (Base64.encode bytes).map (fun c =>
      if c = '-' then '+' else if c = '_' then '/' else c) = Base64.encode bytes := by
    refine (List.map_congr_left fun c hc => ?_).trans (List.map_id _)
    obtain ⟨-, hdash, hline⟩ := encode_spec hc
    rw [if_neg hdash, if_neg hline, id]
  unfold decodeEd25519PublicKey base64
  rw [String.toList_ofList]
  dsimp only
  rw [hurl, Bool.and_false, if_neg (by decide), hnormalized, standardDecode_encode, Option.some_or,
    Option.filter_some, if_pos (decide_eq_true h)]

theorem isCanonicalId_base64 {bytes : List Byte} (h : bytes.length = 32) :
    IsCanonicalId (base64 bytes) := by
  unfold IsCanonicalId canonicalId canonicalEd25519PublicKey
  rw [decodeEd25519PublicKey_base64 h, Option.map_some]
  exact if_neg (not_not.mpr rfl)

/-- The browser decodes what is encoded. -/
theorem decodeBase64_encode {bytes : List Byte} (h : bytes ≠ []) :
    Pairing.decodeBase64 (Base64.encode bytes) .standard = some bytes := by
  have hcompact : (Base64.encode bytes).filter (fun c => !isWhiteSpace c) =
      Base64.encode bytes := by
    refine List.filter_eq_self.mpr fun c hc => ?_
    rw [(encode_spec hc).1]
    rfl
  have hdigits : (Base64.encodeSextets bytes).map Base64.digit ≠ [] := by
    intro hnil
    have hlength := Base64.length_encodeSextets bytes
    rw [List.map_eq_nil_iff.mp hnil] at hlength
    have hpos := List.length_pos_iff.mpr h
    rw [List.length_nil] at hlength
    omega
  have hunpadded : (Base64.encode bytes).rdropWhile (fun c => decide (c = '=')) =
      (Base64.encodeSextets bytes).map Base64.digit := by
    rw [Base64.encode, List.rdropWhile, List.reverse_append, List.reverse_replicate,
      List.dropWhile_append_of_pos (by
        intro c hc
        exact decide_eq_true (List.eq_of_mem_replicate hc))]
    rw [← List.rdropWhile, List.rdropWhile_eq_self_iff]
    intro hne hlast
    obtain ⟨s, -, hs⟩ := List.mem_map.mp (List.getLast_mem hne)
    rw [decide_eq_true_eq, ← hs] at hlast
    exact Base64.digit_ne_pad s hlast
  have hnormalized : ((Base64.encodeSextets bytes).map Base64.digit).map Pairing.normalizeChar =
      (Base64.encodeSextets bytes).map Base64.digit := by
    rw [List.map_map]
    exact List.map_congr_left fun s _ => Pairing.normalizeChar_digit s
  have hall : ((Base64.encodeSextets bytes).map Base64.digit).all
      (fun c => Base64.isDigit (Pairing.normalizeChar c)) = true := by
    refine List.all_eq_true.mpr fun c hc => ?_
    obtain ⟨s, -, rfl⟩ := List.mem_map.mp hc
    rw [Pairing.normalizeChar_digit, Base64.isDigit_digit]
  have hlength := Base64.length_encodeSextets bytes
  have hnormalize : Pairing.normalizeBase64 (Base64.encode bytes) =
      some (Base64.encode bytes) := by
    unfold Pairing.normalizeBase64
    dsimp only
    rw [hcompact, hunpadded, hall, hnormalized, List.length_map]
    have hempty : (Base64.encode bytes).isEmpty = false := by
      rw [List.isEmpty_eq_false_iff, Base64.encode]
      exact fun hnil => hdigits (List.append_eq_nil_iff.mp hnil).1
    have hpadding : ¬2 < (Base64.encode bytes).length - (Base64.encodeSextets bytes).length := by
      rw [Base64.length_encode, hlength]
      omega
    rw [hempty, decide_eq_false hpadding, if_neg (by decide), if_neg (by rw [hlength]; omega)]
    rfl
  have hurl : (Base64.encode bytes).any (fun c => c = '-' || c = '_') = false := by
    refine List.any_eq_false.mpr fun c hc => ?_
    obtain ⟨-, hdash, hline⟩ := encode_spec hc
    simp [hdash, hline]
  unfold Pairing.decodeBase64
  rw [hnormalize, Option.bind_some, hurl, Base64.decode_encode]
  rfl

end Texts

/-! ## A handshake whose texts arrive -/

section Handshake

variable {Seed : Type} {scheme : SignatureScheme Seed} {bufferFrom : Json → Option (List Byte)}
  {p p' : Parties Seed} {log log' : List AuthEvent} {tx : Outbound} {id : SessionId}

/-- The ids that a client is set up with are what their makers give: UUIDs and canonical keys. -/
def ConnectOptions.Proper : ConnectOptions → Prop
  | .host endpointId runtimeInstanceId _ authorizedOwnerIds =>
    isUuid endpointId = true ∧ isUuid runtimeInstanceId = true ∧
      ∀ ownerId ∈ authorizedOwnerIds, IsCanonicalId ownerId
  | .owner => True

/-- The hello of a client as the relay reads it. -/
def helloOf (identity : String) : ConnectOptions → Hello
  | .host endpointId runtimeInstanceId metadata authorizedOwnerIds =>
    .host { deviceId := identity, endpointId, runtimeInstanceId, metadata, authorizedOwnerIds }
  | .owner => .owner identity

/-- The relay lists the connection under the key of the client, with what the client sent. -/
def Registered (identity : String) (tx : Outbound) (connId : ℕ) (inner : RegistryInner) :
    ConnectOptions → Prop
  | .host endpointId runtimeInstanceId metadata authorizedOwnerIds =>
    inner.endpoints.get? (identity, endpointId) =
      some { connId, runtimeInstanceId, metadata, authorizedOwnerIds, tx }
  | .owner => inner.ownerConnection identity connId = some { tx, subscribedDeviceIds := [] }

/-- The relay reads the hello of a client as the client meant it. -/
theorem greet_helloText (hdoc : scheme.Documented) {seed : Seed} {options : ConnectOptions}
    (hoptions : options.Proper) :
    greet scheme (helloText scheme seed options) =
      some (helloOf (base64 (scheme.publicKey seed)) options, scheme.publicKey seed) := by
  have hkey := hdoc.length_publicKey seed
  have hid := isCanonicalId_base64 hkey
  have hdecode : (decodeEd25519PublicKey (base64 (scheme.publicKey seed))).filter scheme.validKey =
      some (scheme.publicKey seed) := by
    rw [decodeEd25519PublicKey_base64 hkey, Option.filter_some, if_pos (hdoc.validKey seed)]
  cases options with
  | host endpointId runtimeInstanceId metadata authorizedOwnerIds =>
    obtain ⟨hendpoint, hruntime, howners⟩ := hoptions
    have hparse := parseHello_of_host
      { deviceId := base64 (scheme.publicKey seed), endpointId, runtimeInstanceId, metadata,
        authorizedOwnerIds } hid hendpoint hruntime howners
    unfold greet helloText
    dsimp only
    rw [hparse, parseAuthHello, hdecode]
    rfl
  | owner =>
    unfold greet helloText
    dsimp only
    rw [parseHello_of_owner hid, parseAuthHello, hdecode]
    rfl

/-- Both clients read the nonce that the relay sends. -/
theorem readNonce_challengeLine (hbuffer : ∀ bytes, bufferFrom (.string (base64 bytes)) = some bytes)
    (kind : ClientKind) (nonce : Nonce) :
    readNonce bufferFrom kind (some (challengeLine nonce)) = some nonce.val := by
  have hne : nonce.val ≠ [] := by
    intro hnil
    have hlength := nonce.property
    rw [hnil] at hlength
    cases hlength
  cases kind with
  | extension =>
    have htext : base64 nonce.val ≠ "" := by
      intro hempty
      have hlength : (base64 nonce.val).toList.length = 44 := by
        rw [base64, String.toList_ofList, Base64.length_encode, nonce.property]
      rw [hempty] at hlength
      cases hlength
    show (if isFalsy (.string (base64 nonce.val)) then none
      else bufferFrom (.string (base64 nonce.val))) = _
    rw [isFalsy, decide_eq_false htext, if_neg (by decide), hbuffer]
  | browser =>
    show Pairing.decodeBase64 (base64 nonce.val).toList .standard = _
    rw [base64, String.toList_ofList, decodeBase64_encode hne]

/-- The relay accepts the answer of a client to its nonce. -/
theorem verifyAuth_authText (hdoc : scheme.Documented) (seed : Seed) (nonce : Nonce) :
    verifyAuth scheme nonce (scheme.publicKey seed) (authText scheme seed nonce.val) = true := by
  show (if "auth" ≠ "auth" then false
    else
      match standardDecode (base64 (scheme.sign seed nonce.val)).toList with
      | none => false
      | some bytes =>
        bytes.length = 64 && scheme.verify (scheme.publicKey seed) nonce.val bytes) = true
  rw [if_neg (not_not.mpr rfl), base64, String.toList_ofList, standardDecode_encode]
  dsimp only
  rw [hdoc.length_sign, hdoc.verify_sign]
  rfl

/-- The label is about another handshake and another session. -/
def Label.Elsewhere (tx : Outbound) (id : SessionId) (label : Label Seed) : Prop :=
  label.handshake? ≠ some tx ∧ label.session? ≠ some id

/-- What happens elsewhere leaves a handshake and a session as they are. -/
theorem move_elsewhere {label : Label Seed} {happened : List AuthEvent} {session : Session Seed}
    (hlabel : label.Elsewhere tx id) (hsession : p.sessions.get? id = some session)
    (hmove : move scheme bufferFrom p label = some (p', happened)) :
    p'.handshakes.get? tx = p.handshakes.get? tx ∧ p'.sessions.get? id = some session := by
  obtain ⟨hhandshake, hother⟩ := hlabel
  have hset : ∀ {tx' : Outbound} {handshake : Handshake}, label.handshake? = some tx' →
      (p.setHandshake tx' handshake).handshakes.get? tx = p.handshakes.get? tx := by
    intro tx' handshake htx'
    refine OrderedMap.get?_set_of_ne _ _ ?_
    rintro rfl
    exact hhandshake htx'
  rcases move_eq_some hmove with ⟨id', seed, options, hnone, rfl, rfl⟩ |
    ⟨id', session', session'', hget, hid', hsessionMove, rfl⟩ | hrelay
  · refine ⟨rfl, ?_⟩
    have hne : id ≠ id' := by
      rintro rfl
      rw [hnone] at hsession
      cases hsession
    unfold Parties.setSession
    rw [OrderedMap.get?_set_of_ne _ _ hne, hsession]
  · refine ⟨rfl, ?_⟩
    have hne : id ≠ id' := by
      rintro rfl
      exact hother hid'
    unfold Parties.setSession
    rw [OrderedMap.get?_set_of_ne _ _ hne, hsession]
  · cases relayMoved_of_move hrelay with
    | upgraded tx' hget => exact ⟨hset rfl, hsession⟩
    | challenged tx' text nonce hello verifyingKey hget hgreet => exact ⟨hset rfl, hsession⟩
    | accepted tx' text nonce hello verifyingKey relay hget hverify hrelay =>
      exact ⟨hset rfl, hsession⟩
    | ended tx' handshake label htx' hget hne => exact ⟨hset htx', hsession⟩
    | served label relay hlabel hrelay => exact ⟨rfl, hsession⟩

/-- The relay takes a new peer under the identity of its hello. -/
theorem step_accept_helloOf {r : State} {identity : String} {options : ConnectOptions}
    (hnone : r.sockets.get? tx = none) :
    r.step (.accept tx identity (helloOf identity options)) = some { r with
      nextConnId := r.nextConnId + 1
      sockets := r.sockets.set tx ⟨identity, .registering (helloOf identity options)
        r.nextConnId⟩ } := by
  have hmatches : helloMatches (helloOf identity options) identity = true := by
    cases options <;> simp [helloMatches, helloOf]
  have hcontains : r.sockets.contains tx = false := by
    rw [OrderedMap.contains, hnone]
    rfl
  simp only [State.step, hcontains, hmatches]
  rfl

/-- An authenticated connection registers as the client asked. -/
theorem registered_of_accept {r r' : State} {identity : String} {options : ConnectOptions}
    (hstep : r.step (.accept tx identity (helloOf identity options)) = some r') :
    ∃ connId relay, r'.step (.register tx) = some relay ∧
      Registered identity tx connId relay.inner options := by
  obtain ⟨hnone, -⟩ := step_accept hstep
  have hr' := Option.some.inj (hstep.symm.trans (step_accept_helloOf hnone))
  have hsocket : r'.sockets.get? tx =
      some ⟨identity, .registering (helloOf identity options) r.nextConnId⟩ := by
    rw [hr', OrderedMap.get?_set_self]
  have hregister : r'.step (.register tx) =
      some (r'.locked tx ⟨identity, .registering (helloOf identity options) r.nextConnId⟩
        (.serving (registerConnection r'.inner r.nextConnId tx (helloOf identity options)).1)
        (registerConnection r'.inner r.nextConnId tx (helloOf identity options)).2) := by
    simp only [State.step, hsocket]
  refine ⟨r.nextConnId, _, hregister, ?_⟩
  rw [locked_inner]
  cases options with
  | host endpointId runtimeInstanceId metadata authorizedOwnerIds =>
    show (r'.inner.endpoints.set (identity, endpointId) _).get? (identity, endpointId) = _
    rw [OrderedMap.get?_set_self]
  | owner =>
    exact ownerConnection_eq_some.mpr
      ⟨_, OrderedMap.get?_set_self _ _ _, OrderedMap.get?_set_self _ _ _⟩

theorem step_of_move {label : Label Seed} {happened : List AuthEvent}
    (h : move scheme bufferFrom p label = some (p', happened)) :
    step scheme bufferFrom (p, log) label = some (p', log ++ happened) :=
  logged_eq_some.mpr ⟨happened, h, rfl⟩

theorem move_hello {text : ClientText} {nonce : Nonce} {hello : Hello} {verifyingKey : List Byte}
    (hget : p.handshakes.get? tx = some .awaitingHello)
    (hgreet : greet scheme text = some (hello, verifyingKey)) :
    move scheme bufferFrom p (.hello tx text nonce) =
      some (p.setHandshake tx (.awaitingAuth hello verifyingKey nonce),
        [.challenged tx nonce.val]) := by
  simp only [move, Label.session?, relayMove, hget, hgreet]

/-- Both clients keep the first text that arrives. -/
theorem arrive_nil (text : Option Json) (kind : ClientKind) : arrive text kind [] = [text] := by
  cases kind <;> rfl

theorem move_message {seed : Seed} {options : ConnectOptions} {received : List (Option Json)}
    {signing : Bool} {text : Option Json}
    (hget : p.sessions.get? id = some ⟨seed, options, .waiting received signing⟩) :
    move scheme bufferFrom p (.message id text) =
      some (p.setSession id ⟨seed, options, .waiting (arrive text id.kind received) signing⟩,
        []) := by
  simp only [move, Label.session?, hget, Option.bind_some, sessionMove, Option.map_some]

theorem move_answer {seed : Seed} {options : ConnectOptions} {received : List (Option Json)}
    {signing : Bool} {i : ℕ} {text : Option Json} {nonce : List Byte}
    (hget : p.sessions.get? id = some ⟨seed, options, .waiting received signing⟩)
    (htext : received[i]? = some text) (hread : readNonce bufferFrom id.kind text = some nonce) :
    move scheme bufferFrom p (.answer id i) =
      some (p.setSession id ⟨seed, options, signedPhase received i id.kind⟩,
        [.signed id (scheme.publicKey seed) nonce]) := by
  simp only [move, Label.session?, hget, Option.bind_some, sessionMove, htext, Option.map_some,
    hread]

theorem move_auth {text : ClientText} {nonce : Nonce} {hello : Hello} {verifyingKey : List Byte}
    {relay : State} (hget : p.handshakes.get? tx = some (.awaitingAuth hello verifyingKey nonce))
    (hverify : verifyAuth scheme nonce verifyingKey text = true)
    (hrelay : p.relay.step (.accept tx (base64 verifyingKey) hello) = some relay) :
    move scheme bufferFrom p (.auth tx text) =
      some ({ p.setHandshake tx .over with relay }, [.accepted tx verifyingKey]) := by
  simp only [move, Label.session?, relayMove, hget, hverify, hrelay, if_true, Option.map_some]

theorem move_register {relay : State} (hrelay : p.relay.step (.register tx) = some relay) :
    move scheme bufferFrom p (.relay (.register tx)) = some ({ p with relay }, []) := by
  simp only [move, Label.session?, relayMove, hrelay, Option.map_some]

/-- The relay takes a peer whose handshake it has not ended. -/
theorem Inv.step_accept (h : Inv scheme p log) {handshake : Handshake}
    (hget : p.handshakes.get? tx = some handshake) (hne : handshake ≠ .over)
    (authenticatedId : String) (hello : Hello) :
    ∃ relay, p.relay.step (.accept tx authenticatedId hello) = some relay := by
  have hnone : p.relay.sockets.get? tx = none := by
    by_contra hsome
    obtain ⟨socket, hsocket⟩ := Option.ne_none_iff_exists'.mp hsome
    obtain ⟨hover, -⟩ := h.authenticated tx socket hsocket
    rw [hget] at hover
    exact hne (Option.some.inj hover)
  have hcontains : p.relay.sockets.contains tx = false := by
    rw [OrderedMap.contains, hnone]
    rfl
  unfold State.step
  dsimp only
  rw [if_neg (by rw [hcontains]; decide)]
  split_ifs
  all_goals exact ⟨_, rfl⟩

/-- The relay waits in the handshake, and the session as it was, in a state that the parties
    reached. -/
structure Between (scheme : SignatureScheme Seed) (tx : Outbound) (id : SessionId)
    (handshake : Handshake) (session : Session Seed) (s : Parties Seed × List AuthEvent) : Prop where
  inv : Inv scheme s.1 s.2
  handshake : s.1.handshakes.get? tx = some handshake
  session : s.1.sessions.get? id = some session

variable {handshake handshake' : Handshake} {session session' : Session Seed}

theorem Between.elsewhere {s t : Parties Seed × List AuthEvent} {label : Label Seed}
    (h : Between scheme tx id handshake session s) (hlabel : label.Elsewhere tx id)
    (hstep : step scheme bufferFrom s label = some t) :
    Between scheme tx id handshake session t := by
  obtain ⟨happened, hmove, hlog⟩ := logged_eq_some.mp hstep
  obtain ⟨hhandshake, hsession⟩ := move_elsewhere hlabel h.session hmove
  exact ⟨by rw [hlog]; exact h.inv.move hmove, by rw [hhandshake, h.handshake], hsession⟩

/-- A step of the handshake or of the session leads from one such state to the next. -/
theorem Between.step {s : Parties Seed × List AuthEvent} {label : Label Seed}
    {happened : List AuthEvent} (h : Between scheme tx id handshake session s)
    (hmove : move scheme bufferFrom s.1 label = some (p', happened))
    (hhandshake : p'.handshakes.get? tx = some handshake')
    (hsession : p'.sessions.get? id = some session') :
    ∃ t, step scheme bufferFrom s label = some t ∧
      Between scheme tx id handshake' session' t :=
  ⟨(p', s.2 ++ happened), logged_eq_some.mpr ⟨happened, hmove, rfl⟩,
    h.inv.move hmove, hhandshake, hsession⟩

/-- The labels of a handshake with nothing in between, up to the registration. -/
def uninterrupted (scheme : SignatureScheme Seed) (tx : Outbound) (id : SessionId) (seed : Seed)
    (text : ClientText) (nonce : Nonce) : List (Label Seed) :=
  [.hello tx text nonce, .message id (some (challengeLine nonce)), .answer id 0,
    .auth tx (authText scheme seed nonce.val), .relay (.register tx)]

/-- Whatever the hello that arrives asks under the key of the client, the connection is
    registered for that, and the client has signed. -/
theorem run_uninterrupted (hdoc : scheme.Documented)
    (hbuffer : ∀ bytes, bufferFrom (.string (base64 bytes)) = some bytes)
    {honest : List Byte → Prop} {seed : Seed} {options asked : ConnectOptions}
    {text : ClientText} {nonce : Nonce}
    (h : Between scheme tx id .awaitingHello ⟨seed, options, .waiting [] false⟩ (p, log))
    (hgreet : greet scheme text =
      some (helloOf (base64 (scheme.publicKey seed)) asked, scheme.publicKey seed))
    (hfresh : ∀ event ∈ log, event.nonce? ≠ some nonce.val) :
    ∃ t connId,
      (run (step scheme bufferFrom) (p, log) (uninterrupted scheme tx id seed text nonce) =
          some t ∧
        Along (step scheme bufferFrom) (Sane scheme honest) (p, log)
          (uninterrupted scheme tx id seed text nonce)) ∧
      Registered (base64 (scheme.publicKey seed)) tx connId t.1.relay.inner asked ∧
      t.1.sessions.get? id =
        some ⟨seed, options, signedPhase [some (challengeLine nonce)] 0 id.kind⟩ := by
  obtain ⟨relay, haccept⟩ := h.inv.step_accept h.handshake (by intro heq; cases heq)
    (base64 (scheme.publicKey seed)) (helloOf (base64 (scheme.publicKey seed)) asked)
  obtain ⟨connId, registered, hregister, hregistered⟩ := registered_of_accept haccept
  refine ⟨_, connId, run_along_cons ⟨hfresh, trivial⟩
      (step_of_move (move_hello h.handshake hgreet)) <|
    run_along_cons ⟨trivial, trivial⟩ (step_of_move (move_message h.session)) <|
    run_along_cons ⟨trivial, trivial⟩ (step_of_move (move_answer
      (OrderedMap.get?_set_self _ _ _) ?_ (readNonce_challengeLine hbuffer id.kind nonce))) <|
    run_along_cons ⟨trivial, ?_⟩ (step_of_move (move_auth (OrderedMap.get?_set_self _ _ _)
      (verifyAuth_authText hdoc seed nonce) haccept)) <|
    run_along_cons ⟨trivial, trivial⟩ (step_of_move (move_register hregister)) ⟨rfl, trivial⟩,
    hregistered, ?_⟩
  · rw [arrive_nil]
    rfl
  · intro hello verifyingKey nonce' hget _ _
    cases hget.symm.trans (OrderedMap.get?_set_self _ _ _)
    exact ⟨id, by simp⟩
  · rw [← arrive_nil _ id.kind]
    exact OrderedMap.get?_set_self _ _ _

end Handshake

/-! ## The registry

Over any run with fresh nonces and no forged signature, what the registry holds under a key in
honest hands answered the challenge of its own connection: first the challenge, then the
signature in a session of the holder, then the acceptance. No signature serves two connections,
and no session of the extension does; a session of the browser may sign several challenges
before it is connected. -/

theorem registered_answered {Seed : Type} (scheme : SignatureScheme Seed)
    (bufferFrom : Json → Option (List Byte)) (honest : List Byte → Prop)
    (labels : List (Label Seed)) (p : Parties Seed) (log : List AuthEvent)
    (hrun : run (step scheme bufferFrom) (Parties.init, []) labels = some (p, log))
    (hsane : Along (step scheme bufferFrom) (Sane scheme honest) (Parties.init, []) labels) :
    (∀ key host, p.relay.inner.endpoints.get? key = some host →
      ∃ verifyingKey, key.1 = base64 verifyingKey ∧
        (honest verifyingKey → AnsweredBy scheme p log host.tx verifyingKey)) ∧
    (∀ ownerId connId owner, p.relay.inner.ownerConnection ownerId connId = some owner →
      ∃ verifyingKey, ownerId = base64 verifyingKey ∧
        (honest verifyingKey → AnsweredBy scheme p log owner.tx verifyingKey)) ∧
    ∀ tx tx' key key' nonce nonce' id id', Answered log tx key nonce id →
      Answered log tx' key' nonce' id' → tx ≠ tx' →
        nonce ≠ nonce' ∧ (id.kind = .extension → id ≠ id') := by
  have hinv := inv_run hrun
  have hrule := rule_run hrun hsane
  obtain ⟨relayLabels, hrelay⟩ := hinv.relay
  have hwell := wellFormed_run hrelay
  refine ⟨fun key host hhost => ?_, fun ownerId connId owner howner => ?_, ?_⟩
  · exact socket_answered hinv hrule (hwell.host_socket key host hhost)
  · exact socket_answered hinv hrule (hwell.owner_socket ownerId connId owner howner)
  · intro tx tx' key key' nonce nonce' id id' hanswered hanswered' hne
    exact ⟨hanswered.nonce_ne hrule hanswered' hne, hanswered.session_ne hrule hanswered' hne⟩

/-! ### Runs of one device

A seed of Ed25519 with its public key, two nonces and their signatures. -/

def sampleKey : List Byte :=
  [215, 90, 152, 1, 130, 177, 10, 183, 213, 75, 254, 211, 201, 100, 7, 58, 14, 225, 114, 243, 218,
    166, 35, 37, 175, 2, 26, 104, 247, 7, 81, 26].map Utf8.byte

def firstNonceBytes : List Byte :=
  [0, 1, 2, 3, 4, 5, 6, 7, 8, 9, 10, 11, 12, 13, 14, 15, 16, 17, 18, 19, 20, 21, 22, 23, 24, 25, 26,
    27, 28, 29, 30, 31].map Utf8.byte

def secondNonceBytes : List Byte :=
  [32, 33, 34, 35, 36, 37, 38, 39, 40, 41, 42, 43, 44, 45, 46, 47, 48, 49, 50, 51, 52, 53, 54, 55,
    56, 57, 58, 59, 60, 61, 62, 63].map Utf8.byte

def sampleSign (message : List Byte) : List Byte :=
  if message = firstNonceBytes then
    [0, 193, 219, 152, 139, 177, 47, 215, 53, 26, 96, 84, 174, 63, 172, 144, 250, 183, 228, 252,
      86, 177, 101, 28, 113, 129, 245, 245, 95, 137, 111, 102, 57, 51, 211, 169, 6, 5, 217, 5, 142,
      157, 10, 196, 89, 80, 238, 45, 60, 156, 155, 20, 133, 116, 21, 88, 113, 121, 254, 12, 202,
      195, 95, 9].map Utf8.byte
  else if message = secondNonceBytes then
    [178, 218, 75, 65, 63, 227, 81, 87, 255, 10, 81, 250, 33, 20, 35, 235, 46, 8, 106, 230, 121,
      140, 97, 149, 239, 216, 14, 159, 79, 153, 247, 86, 188, 142, 97, 153, 251, 237, 42, 110, 246,
      15, 163, 133, 128, 122, 178, 125, 255, 170, 174, 232, 54, 191, 217, 45, 70, 11, 176, 58, 27,
      173, 86, 9].map Utf8.byte
  else List.replicate 64 (Utf8.byte 0)

/-- Ed25519 for the one seed, as far as the runs below use it. -/
def sampleScheme : SignatureScheme Unit where
  publicKey _ := sampleKey
  sign _ := sampleSign
  validKey key := key = sampleKey
  verify key message signature := key = sampleKey ∧ signature = sampleSign message

/-- `Buffer.from` on the texts below. -/
def sampleBuffer : Json → Option (List Byte)
  | .string text => some (Base64.decode text.toList)
  | _ => none

theorem sampleScheme_documented : sampleScheme.Documented where
  length_publicKey _ := show sampleKey.length = 32 by decide
  validKey _ := show decide (sampleKey = sampleKey) = true from decide_eq_true rfl
  length_sign _ message := by
    show (sampleSign message).length = 64
    unfold sampleSign
    split_ifs
    all_goals decide
  verify_sign _ message := decide_eq_true ⟨rfl, rfl⟩

theorem sampleBuffer_base64 (bytes : List Byte) :
    sampleBuffer (.string (base64 bytes)) = some bytes := by
  unfold sampleBuffer base64
  dsimp only
  rw [String.toList_ofList, Base64.decode_encode]

theorem base64_injective {bytes bytes' : List Byte} (h : base64 bytes = base64 bytes') :
    bytes = bytes' := by
  have hdecode := congrArg (fun text => Base64.decode text.toList) h
  simpa only [base64, String.toList_ofList, Base64.decode_encode] using hdecode

private def firstNonce : Nonce := ⟨firstNonceBytes, show firstNonceBytes.length = 32 by rfl⟩

private def secondNonce : Nonce := ⟨secondNonceBytes, show secondNonceBytes.length = 32 by rfl⟩

private def device : SessionId := ⟨.extension, 0⟩

private def deviceOptions : ConnectOptions :=
  .host "11111111-1111-4111-8111-111111111111" "22222222-2222-4222-8222-222222222222"
    ⟨.daemon, none, none, none, none, none, none, none⟩ []

/-- A device has opened its socket and sent its hello. -/
private def greets : List (Label Unit) :=
  [.connect device () deviceOptions, .opened device, .upgrade 0]

private def greeted : Parties Unit :=
  ((Parties.init.setSession device ⟨(), deviceOptions, .connecting⟩).setSession device
    ⟨(), deviceOptions, .waiting [] false⟩).setHandshake 0 .awaitingHello

private theorem run_greets (honest : List Byte → Prop) :
    run (step sampleScheme sampleBuffer) (Parties.init, []) greets = some (greeted, []) ∧
      Along (step sampleScheme sampleBuffer) (Sane sampleScheme honest) (Parties.init, [])
        greets :=
  run_along_cons ⟨trivial, trivial⟩ rfl <| run_along_cons ⟨trivial, trivial⟩ rfl <|
    run_along_cons ⟨trivial, trivial⟩ rfl ⟨rfl, trivial⟩

private theorem between_greeted : Between sampleScheme 0 device .awaitingHello
    ⟨(), deviceOptions, .waiting [] false⟩ (greeted, []) :=
  ⟨inv_run (run_greets fun _ => True).1, rfl, rfl⟩

/-- The handshake of the device, with the hello that arrives at the relay. -/
private def handshake (hello : ClientText) : List (Label Unit) :=
  greets ++ [.hello 0 hello firstNonce, .message device (some (challengeLine firstNonce)),
    .answer device 0, .auth 0 (authText sampleScheme () firstNonceBytes), .relay (.register 0)]

private theorem proper_deviceOptions : deviceOptions.Proper :=
  ⟨by decide, by decide, by intro ownerId hmem; cases hmem⟩

private def deviceKey : EndpointKey :=
  (base64 sampleKey, "11111111-1111-4111-8111-111111111111")

/-- The device connects, answers the challenge and is registered. -/
theorem registered_answered_device : ∃ p log host,
    run (step sampleScheme sampleBuffer) (Parties.init, [])
      (handshake (helloText sampleScheme () deviceOptions)) = some (p, log) ∧
    p.relay.inner.endpoints.get? deviceKey = some host ∧
    AnsweredBy sampleScheme p log host.tx sampleKey := by
  obtain ⟨⟨p, log⟩, connId, hrest, hhost, -⟩ := run_uninterrupted sampleScheme_documented
    sampleBuffer_base64 between_greeted
    (greet_helloText sampleScheme_documented proper_deviceOptions)
    (by intro event hevent; cases hevent)
  obtain ⟨hrun, hsane⟩ := run_along_append (run_greets _) hrest
  obtain ⟨key, hkey, hanswered⟩ := (registered_answered sampleScheme sampleBuffer
    (fun key => key = sampleKey) _ p log hrun hsane).1 deviceKey _ hhost
  cases base64_injective hkey
  exact ⟨p, log, _, hrun, hhost, hanswered rfl⟩

private def alteredOptions : ConnectOptions :=
  .host "11111111-1111-4111-8111-111111111111" "22222222-2222-4222-8222-222222222222"
    ⟨.daemon, none, none, none, none, none, none, none⟩
    ["AAAAAAAAAAAAAAAAAAAAAAAAAAAAAAAAAAAAAAAAAAA="]

/-- The hello of the device with an Owner that the device did not name. -/
private def alteredHello : ClientText := helloText sampleScheme () alteredOptions

/-- The signature covers the nonce and nothing of the hello: with a hello that was changed on its
    way, the device is registered all the same, for an Owner it did not authorize. -/
theorem altered_hello_registered : ∃ p log host,
    run (step sampleScheme sampleBuffer) (Parties.init, []) (handshake alteredHello) =
      some (p, log) ∧
    Along (step sampleScheme sampleBuffer) (Sane sampleScheme fun key => key = sampleKey)
      (Parties.init, []) (handshake alteredHello) ∧
    p.relay.inner.endpoints.get? deviceKey = some host ∧
    host.authorizedOwnerIds = ["AAAAAAAAAAAAAAAAAAAAAAAAAAAAAAAAAAAAAAAAAAA="] ∧
    (p.sessions.get? device).map Session.options = some deviceOptions := by
  have hproper : alteredOptions.Proper := by
    have howner : IsCanonicalId (base64 (List.replicate 32 0)) := isCanonicalId_base64 rfl
    refine ⟨by decide, by decide, fun ownerId hmem => ?_⟩
    rw [List.mem_singleton.mp hmem]
    exact howner
  obtain ⟨⟨p, log⟩, connId, hrest, hhost, hsession⟩ := run_uninterrupted sampleScheme_documented
    sampleBuffer_base64 between_greeted (greet_helloText sampleScheme_documented hproper)
    (by intro event hevent; cases hevent)
  obtain ⟨hrun, hsane⟩ := run_along_append (run_greets _) hrest
  exact ⟨p, log, _, hrun, hsane, hhost, rfl, by rw [hsession]; rfl⟩

private def browser : SessionId := ⟨.browser, 0⟩

/-- Two connections that pass on their challenges to one session of a browser. -/
private def relayed : List (Label Unit) :=
  [.connect browser () .owner, .opened browser, .upgrade 0, .upgrade 1,
    .hello 0 (helloText sampleScheme () .owner) firstNonce,
    .hello 1 (helloText sampleScheme () .owner) secondNonce,
    .message browser (some (challengeLine firstNonce)),
    .message browser (some (challengeLine secondNonce)), .answer browser 0, .answer browser 0,
    .auth 0 (authText sampleScheme () firstNonceBytes),
    .auth 1 (authText sampleScheme () secondNonceBytes)]

private theorem run_relayed : ∃ p,
    run (step sampleScheme sampleBuffer) (Parties.init, []) relayed =
      some (p, [.challenged 0 firstNonceBytes, .challenged 1 secondNonceBytes,
        .signed browser sampleKey firstNonceBytes, .signed browser sampleKey secondNonceBytes,
        .accepted 0 sampleKey, .accepted 1 sampleKey]) ∧
    Along (step sampleScheme sampleBuffer) (Sane sampleScheme fun key => key = sampleKey)
      (Parties.init, []) relayed := by
  have hkey : sampleScheme.publicKey () = sampleKey := rfl
  have hgreet : greet sampleScheme (helloText sampleScheme () .owner) =
      some (helloOf (base64 sampleKey) .owner, sampleKey) :=
    greet_helloText sampleScheme_documented trivial
  have hfresh : ∀ event ∈ ([.challenged 0 firstNonceBytes] : List AuthEvent),
      event.nonce? ≠ some secondNonceBytes := by
    intro event hevent
    rw [List.mem_singleton.mp hevent]
    decide
  refine ⟨_, run_along_cons ⟨trivial, trivial⟩ rfl <| run_along_cons ⟨trivial, trivial⟩ rfl <|
    run_along_cons ⟨trivial, trivial⟩ rfl <| run_along_cons ⟨trivial, trivial⟩ rfl <|
    -- The relay challenges both connections.
    run_along_cons ⟨?_, trivial⟩ (step_of_move (move_hello rfl hgreet)) <|
    run_along_cons ⟨hfresh, trivial⟩ (step_of_move (move_hello rfl hgreet)) <|
    -- The browser signs both challenges.
    run_along_cons ⟨trivial, trivial⟩ (step_of_move (move_message rfl)) <|
    run_along_cons ⟨trivial, trivial⟩ (step_of_move (move_message rfl)) <|
    run_along_cons ⟨trivial, trivial⟩ (step_of_move (move_answer rfl rfl
      (readNonce_challengeLine sampleBuffer_base64 _ firstNonce))) <|
    run_along_cons ⟨trivial, trivial⟩ (step_of_move (move_answer rfl rfl
      (readNonce_challengeLine sampleBuffer_base64 _ secondNonce))) <|
    -- The relay takes both signatures.
    run_along_cons ⟨trivial, ?_⟩ (step_of_move (move_auth rfl
      (verifyAuth_authText sampleScheme_documented () firstNonce)
      (step_accept_helloOf rfl))) <|
    run_along_cons ⟨trivial, ?_⟩ (step_of_move (move_auth rfl
      (verifyAuth_authText sampleScheme_documented () secondNonce)
      (step_accept_helloOf rfl))) ⟨rfl, trivial⟩⟩
  · intro event hevent
    cases hevent
  · intro hello verifyingKey nonce hget _ _
    cases hget
    exact ⟨browser, by simp [hkey]⟩
  · intro hello verifyingKey nonce hget _ _
    cases hget
    exact ⟨browser, by simp [hkey]⟩

/-- A browser that gets two challenges before it is connected signs both. -/
theorem browser_answers_twice : ∃ p log,
    run (step sampleScheme sampleBuffer) (Parties.init, []) relayed = some (p, log) ∧
    Along (step sampleScheme sampleBuffer) (Sane sampleScheme fun key => key = sampleKey)
      (Parties.init, []) relayed ∧
    Answered log 0 sampleKey firstNonceBytes browser ∧
    Answered log 1 sampleKey secondNonceBytes browser := by
  obtain ⟨p, hrun, hsane⟩ := run_relayed
  exact ⟨p, _, hrun, hsane,
    ⟨[], [.challenged 1 secondNonceBytes], [.signed browser sampleKey secondNonceBytes],
      [.accepted 1 sampleKey], rfl⟩,
    ⟨[.challenged 0 firstNonceBytes], [.signed browser sampleKey firstNonceBytes],
      [.accepted 0 sampleKey], [], rfl⟩⟩

/-- A client that waits for its challenge and a connection that waits for its hello: when the
    hello, the challenge and the answer arrive unchanged, each step is carried out whatever
    happens elsewhere, and the connection is registered under the key of the client as the
    client asked. -/
theorem handshake_registers {Seed : Type} (scheme : SignatureScheme Seed)
    (bufferFrom : Json → Option (List Byte)) (hdoc : scheme.Documented)
    (hbuffer : ∀ bytes, bufferFrom (.string (base64 bytes)) = some bytes)
    (labels : List (Label Seed)) (p : Parties Seed) (log : List AuthEvent)
    (hrun : run (step scheme bufferFrom) (Parties.init, []) labels = some (p, log))
    (tx : Outbound) (id : SessionId) (seed : Seed) (options : ConnectOptions) (nonce : Nonce)
    (hoptions : options.Proper) (htx : p.handshakes.get? tx = some .awaitingHello)
    (hid : p.sessions.get? id = some ⟨seed, options, .waiting [] false⟩) :
    Carried (step scheme bufferFrom) (Label.Elsewhere tx id)
      (fun s => ∃ connId relay, s.1.relay.step (.register tx) = some relay ∧
        Registered (base64 (scheme.publicKey seed)) tx connId relay.inner options) (p, log)
      [.hello tx (helloText scheme seed options) nonce, .message id (some (challengeLine nonce)),
        .answer id 0, .auth tx (authText scheme seed nonce.val)] := by
  have hgreet : greet scheme (helloText scheme seed options) =
      some (helloOf (base64 (scheme.publicKey seed)) options, scheme.publicKey seed) :=
    greet_helloText hdoc hoptions
  refine carried_cons (fun s e t h ho he => h.elsewhere ho he)
    (Between.mk (inv_run hrun) htx hid) fun s h => ?_
  obtain ⟨t, hstep, h⟩ := h.step (move_hello h.handshake hgreet)
    (OrderedMap.get?_set_self _ _ _) h.session
  refine ⟨t, hstep, carried_cons (fun s e t h ho he => h.elsewhere ho he) h fun s h => ?_⟩
  obtain ⟨t, hstep, h⟩ := h.step (move_message h.session) h.handshake
    (OrderedMap.get?_set_self _ _ _)
  rw [arrive_nil] at h
  refine ⟨t, hstep, carried_cons (fun s e t h ho he => h.elsewhere ho he) h fun s h => ?_⟩
  obtain ⟨t, hstep, h⟩ := h.step
    (move_answer h.session List.getElem?_cons_zero
      (readNonce_challengeLine hbuffer id.kind nonce))
    h.handshake (OrderedMap.get?_set_self _ _ _)
  refine ⟨t, hstep, carried_cons (fun s e t h ho he => h.elsewhere ho he) h fun s h => ?_⟩
  obtain ⟨relay, hrelay⟩ := h.inv.step_accept h.handshake (by intro heq; cases heq)
    (base64 (scheme.publicKey seed)) (helloOf (base64 (scheme.publicKey seed)) options)
  have hmove : move scheme bufferFrom s.1 (.auth tx (authText scheme seed nonce.val)) =
      some ({ s.1.setHandshake tx .over with relay }, [.accepted tx (scheme.publicKey seed)]) :=
    move_auth h.handshake (verifyAuth_authText hdoc seed nonce) hrelay
  exact ⟨({ s.1.setHandshake tx .over with relay },
    s.2 ++ [.accepted tx (scheme.publicKey seed)]), step_of_move hmove,
    registered_of_accept hrelay⟩

/-- The handshake of the device from where it has sent its hello. -/
theorem handshake_registers_device : ∃ p log,
    run (step sampleScheme sampleBuffer) (Parties.init, []) greets = some (p, log) ∧
    Carried (step sampleScheme sampleBuffer) (Label.Elsewhere 0 device)
      (fun s => ∃ connId relay, s.1.relay.step (.register 0) = some relay ∧
        Registered (base64 sampleKey) 0 connId relay.inner deviceOptions) (p, log)
      [.hello 0 (helloText sampleScheme () deviceOptions) firstNonce,
        .message device (some (challengeLine firstNonce)), .answer device 0,
        .auth 0 (authText sampleScheme () firstNonceBytes)] := by
  have hrun := (run_greets fun _ => True).1
  exact ⟨greeted, [], hrun, handshake_registers sampleScheme sampleBuffer
    sampleScheme_documented sampleBuffer_base64 greets greeted [] hrun 0 device () deviceOptions
    firstNonce proper_deviceOptions rfl rfl⟩

end RemotePi.Relay.Authentication
