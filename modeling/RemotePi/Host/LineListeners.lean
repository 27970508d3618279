import RemotePi.Host.System

/-!
# Listeners on the lines of the relay

A relay client emits every line of its socket (`pi-extension/src/transport/relay_client.ts`,
lines 141–149) to the listener of `installOwnerRouter` (`runtime/owner_router.ts`) and to
those of the channels (`transport/peer_channel.ts`). They run inside the event handler of
the socket, so that what one of them throws ends the process.

The parser of JSON, the decoder of frames and what a frame does are parameters; the last
section takes the operations of the host for what a frame does.

Results:
* `identified_run`: the host knows its identity while a relay is current.
* `deliver_null`, `deliver_of_ne_null`: when the listeners return.
* `listeners_return_iff`: the listeners throw on the line `null` of the current relay only.
* `deliver_onRoute`: what the listeners do with a route is the step of the host.
-/

namespace RemotePi.Host

open RemotePi.Lib RemotePi.Pairing RemotePi.Timeline
open Extension (RoutePurpose)

/-! ## Routes -/

/-- `HostRouteIdentity` (`transport/peer_channel.ts`, lines 22–26). -/
structure HostRouteIdentity where
  deviceId : String
  endpointId : String
  runtimeInstanceId : String

/-- What the listeners read of a `RouteFrame` (lines 11–20). -/
structure RouteFrame where
  purpose : RoutePurpose
  sourceOwnerId : String
  ct : String

/-- What a listener may throw. -/
inductive Thrown where
  /-- A member of `null` is read (line 128). -/
  | nullRoute
  /-- `routeIdentity` without a key pair (`index.ts`, line 102). -/
  | identityUnavailable
deriving DecidableEq, Repr

/-- A member that is a text. -/
def textMember (route : Json) (key : String) : Option String :=
  match route.member? key with
  | some (.string text) => some text
  | _ => none

def routePurpose? : String → Option RoutePurpose
  | "pairing" => some .pairing
  | "session" => some .session
  | _ => none

/-- The checks of `parseIncomingRoute` (lines 127–140). -/
def routeOf (host : HostRouteIdentity) (ownerId : Option String) (route : Json) :
    Option RouteFrame :=
  match (textMember route "purpose").bind routePurpose?, textMember route "ct",
    textMember route "source_owner_id" with
  | some purpose, some ct, some sourceOwnerId =>
    if textMember route "type" = some "route" ∧
        textMember route "device_id" = some host.deviceId ∧
        textMember route "endpoint_id" = some host.endpointId ∧
        textMember route "runtime_instance_id" = some host.runtimeInstanceId ∧
        (route.member? "target_owner_id").isNone ∧
        ownerId.all (fun id => id = sourceOwnerId) then
      some ⟨purpose, sourceOwnerId, ct⟩
    else none
  | _, _, _ => none

/-- `parseIncomingRoute` (lines 116–141) on the value of the line; none where `JSON.parse`
    throws. The members of a value other than `null` are read without an error. -/
def parseIncomingRoute (parsed : Option Json) (host : HostRouteIdentity)
    (ownerId : Option String) : Except Thrown (Option RouteFrame) :=
  match parsed with
  | none => .ok none
  | some .null => .error .nullRoute
  | some route => .ok (routeOf host ownerId route)

/-- The value is a well-formed route of an owner to the endpoint. -/
structure IsRoute (host : HostRouteIdentity) (route : Json) : Prop where
  type : textMember route "type" = some "route"
  purpose : textMember route "purpose" = some "pairing" ∨
    textMember route "purpose" = some "session"
  ct : ∃ ct, textMember route "ct" = some ct
  device : textMember route "device_id" = some host.deviceId
  endpoint : textMember route "endpoint_id" = some host.endpointId
  runtime : textMember route "runtime_instance_id" = some host.runtimeInstanceId
  source : ∃ ownerId, textMember route "source_owner_id" = some ownerId
  target : route.member? "target_owner_id" = none

/-! ## Listeners -/

/-- What the listeners call. -/
structure RouteHandlers where
  /-- `decodeClientFrameV2` of the decoded text; none where it throws. -/
  decode : String → Option ClientFrame
  hasOwner : Extension → String → Bool
  /-- The part of the asynchronous call that runs at once. -/
  handlePairRequest : Extension → RelayId → String → ClientFrame → Extension
  findKnownOwner : Extension → RelayId → String → ClientFrame → Extension
  /-- `onMessage` of a channel. What it throws is caught (line 91). -/
  onMessage : Extension → String → ClientFrame → Extension

def isPairRequest : ClientFrame → Bool
  | .pairRequest _ _ _ => true
  | _ => false

section Listeners

variable (handlers : RouteHandlers) (host : HostRouteIdentity) (relay : RelayId)
  (parsed : Option Json)

/-- `routeIdentity` (`index.ts`, lines 100–104). -/
def routeIdentity (s : Extension) : Except Thrown HostRouteIdentity :=
  if s.lifecycle.identity then .ok host else .error .identityUnavailable

/-- What the router does with a route (`runtime/owner_router.ts`, lines 20–35). -/
def routeFrame (s : Extension) (route : RouteFrame) : Extension :=
  if route.sourceOwnerId = "" then s
  else
    match handlers.decode route.ct with
    | none => s
    | some frame =>
      if isPairRequest frame ≠ decide (route.purpose = .pairing) then s
      else if isPairRequest frame then
        handlers.handlePairRequest s relay route.sourceOwnerId frame
      else if handlers.hasOwner s route.sourceOwnerId then s
      else handlers.findKnownOwner s relay route.sourceOwnerId frame

/-- The listener of `installOwnerRouter` (lines 17–36). -/
def routerListener (s : Extension) : Except Thrown Extension :=
  if !s.lifecycle.isCurrent relay then .ok s
  else do
    let identity ← routeIdentity host s
    let route ← parseIncomingRoute parsed identity none
    return route.elim s (routeFrame handlers relay s)

/-- What a channel does with a route (`transport/peer_channel.ts`, lines 83–93). A frame that
    is refused changes no state (lines 96–113). -/
def channelFrame (ownerId : String) (s : Extension) (route : RouteFrame) : Extension :=
  match handlers.decode route.ct with
  | none => s
  | some frame =>
    if isPairRequest frame || route.purpose ≠ .session then s
    else handlers.onMessage s ownerId frame

/-- `onLine` (lines 80–94). -/
def channelListener (s : Extension) (ownerId : String) : Except Thrown Extension := do
  let route ← parseIncomingRoute parsed host (some ownerId)
  return route.elim s (channelFrame handlers ownerId s)

/-- The owners with a channel on the client. -/
def channelOwners (s : Extension) (relay : RelayId) : List String :=
  (s.owners.activeOwners.entries.filter fun entry => entry.2.relay = relay).map fun entry =>
    entry.1.key

/-- The client emits a line: the listeners that it has then run in the order in which they
    were added. -/
def deliver (s : Extension) : Except Thrown Extension := do
  let routed ← routerListener handlers host relay parsed s
  (channelOwners s relay).foldlM (channelListener handlers host parsed) routed

end Listeners

/-! ## When they return -/

section Returns

variable {handlers : RouteHandlers} {host : HostRouteIdentity} {relay : RelayId}
  {parsed : Option Json}

theorem isRoute_of_routeOf {route : Json} {ownerId : Option String} {frame : RouteFrame}
    (h : routeOf host ownerId route = some frame) : IsRoute host route := by
  unfold routeOf at h
  split at h
  · rename_i purpose ct sourceOwnerId hpurpose hct hsource
    split_ifs at h with hchecks
    obtain ⟨htype, hdevice, hendpoint, hruntime, htarget, -⟩ := hchecks
    obtain ⟨text, htext, hread⟩ := Option.bind_eq_some_iff.mp hpurpose
    refine ⟨htype, ?_, ⟨ct, hct⟩, hdevice, hendpoint, hruntime, ⟨_, hsource⟩,
      Option.isNone_iff_eq_none.mp htarget⟩
    unfold routePurpose? at hread
    rw [htext]
    split at hread
    · exact Or.inl rfl
    · exact Or.inr rfl
    · cases hread
  · cases h

theorem parseIncomingRoute_some {route : Json} (h : route ≠ .null) (ownerId : Option String) :
    parseIncomingRoute (some route) host ownerId = .ok (routeOf host ownerId route) := by
  unfold parseIncomingRoute
  split
  · rename_i heq
    cases heq
  · rename_i heq
    exact absurd (Option.some.inj heq) h
  · rename_i heq
    rw [Option.some.inj heq]

/-- A line that is not `null` is read. -/
theorem parseIncomingRoute_of_ne_null (h : parsed ≠ some .null) (ownerId : Option String) :
    ∃ route, parseIncomingRoute parsed host ownerId = .ok route ∧
      ((∀ value, parsed = some value → ¬ IsRoute host value) → route = none) := by
  cases parsed with
  | none => exact ⟨none, rfl, fun _ => rfl⟩
  | some value =>
    refine ⟨routeOf host ownerId value, ?_, fun hnot => ?_⟩
    · exact parseIncomingRoute_some (fun hnull => h (by rw [hnull])) ownerId
    · exact Option.eq_none_iff_forall_ne_some.mpr fun frame hframe =>
        hnot value rfl (isRoute_of_routeOf hframe)

/-- A line that is not `null` is read by every channel. -/
theorem channels_of_ne_null {handlers : RouteHandlers} (h : parsed ≠ some .null)
    (ownerIds : List String) (s : Extension) :
    ∃ s', ownerIds.foldlM (channelListener handlers host parsed) s = .ok s' ∧
      ((∀ value, parsed = some value → ¬ IsRoute host value) → s' = s) := by
  induction ownerIds generalizing s with
  | nil => exact ⟨s, rfl, fun _ => rfl⟩
  | cons ownerId ownerIds ih =>
    obtain ⟨route, hroute, hnone⟩ :=
      @parseIncomingRoute_of_ne_null host parsed h (some ownerId)
    obtain ⟨s', hs', hsame⟩ := ih (route.elim s (channelFrame handlers ownerId s))
    refine ⟨s', ?_, fun hnot => ?_⟩
    · rw [List.foldlM_cons]
      unfold channelListener
      rw [hroute]
      exact hs'
    · rw [hsame hnot, hnone hnot]
      rfl

/-- The listeners return on a line that is not `null`, if the host knows its identity. -/
theorem deliver_of_ne_null (handlers : RouteHandlers) (relay : RelayId) (s : Extension)
    (hidentity : s.lifecycle.isCurrent relay = true → s.lifecycle.identity = true)
    (h : parsed ≠ some .null) :
    ∃ s', deliver handlers host relay parsed s = .ok s' ∧
      ((∀ value, parsed = some value → ¬ IsRoute host value) → s' = s) := by
  have hrouted : ∃ routed, routerListener handlers host relay parsed s = .ok routed ∧
      ((∀ value, parsed = some value → ¬ IsRoute host value) → routed = s) := by
    unfold routerListener
    cases hcurrent : s.lifecycle.isCurrent relay with
    | false => exact ⟨s, rfl, fun _ => rfl⟩
    | true =>
      obtain ⟨route, hroute, hnone⟩ := @parseIncomingRoute_of_ne_null host parsed h none
      refine ⟨route.elim s (routeFrame handlers relay s), ?_, fun hnot => ?_⟩
      · unfold routeIdentity
        rw [if_neg (by decide), if_pos (hidentity hcurrent)]
        change (parseIncomingRoute parsed host none >>= _) = _
        rw [hroute]
        rfl
      · rw [hnone hnot]
        rfl
  obtain ⟨routed, hrouted, hsame⟩ := hrouted
  obtain ⟨s', hs', hsame'⟩ :=
    @channels_of_ne_null host parsed handlers h (channelOwners s relay) routed
  refine ⟨s', ?_, fun hnot => ?_⟩
  · unfold deliver
    rw [hrouted]
    exact hs'
  · rw [hsame' hnot, hsame hnot]

/-- The line `null` ends the process when it comes over the current relay. -/
theorem deliver_null (handlers : RouteHandlers) (host : HostRouteIdentity) {relay : RelayId}
    {s : Extension} (hidentity : s.lifecycle.identity = true)
    (hcurrent : s.lifecycle.isCurrent relay = true) :
    deliver handlers host relay (some .null) s = .error .nullRoute := by
  unfold deliver routerListener routeIdentity
  rw [hcurrent, if_neg (by decide), if_pos hidentity]
  rfl

/-- A client without channels that is not current has no listener that reads the line. -/
theorem deliver_of_not_current (handlers : RouteHandlers) (host : HostRouteIdentity)
    {relay : RelayId} (parsed : Option Json) {s : Extension} (hs : s.Current)
    (hcurrent : s.lifecycle.isCurrent relay = false) :
    deliver handlers host relay parsed s = .ok s := by
  have hnone : channelOwners s relay = [] := by
    unfold channelOwners
    rw [List.map_eq_nil_iff, List.filter_eq_nil_iff]
    intro entry hentry hrelay
    have hbinding := hs.bindings entry.1 entry.2 (OrderedMap.mem_entries_iff.mp hentry)
    rw [of_decide_eq_true hrelay, hcurrent] at hbinding
    cases hbinding
  unfold deliver routerListener
  rw [hcurrent, hnone]
  rfl

end Returns

/-! ## The host knows its identity -/

/-- The identity is loaded, or no connect has gone beyond loading it. -/
def Identified (l : RelayLifecycle) : Prop :=
  l.identity = true ∨ (l.activeRelay = none ∧ ∀ op ∈ l.connects, op.phase = .loadingIdentity)

section Identity

variable {l l' : RelayLifecycle}

theorem Identified.identity {relay : RelayId} (h : Identified l)
    (hcurrent : l.isCurrent relay = true) : l.identity = true := by
  rcases h with hidentity | ⟨hnone, -⟩
  · exact hidentity
  · have hactive := (RelayLifecycle.isCurrent_iff.mp hcurrent).2.2
    rw [hnone] at hactive
    cases hactive

@[simp] theorem identity_clearInitialAttempt (l : RelayLifecycle) (op : ConnectOp) :
    (l.clearInitialAttempt op).identity = l.identity := by
  obtain ⟨_, hframe⟩ := l.clearInitialAttempt_frame op
  rw [hframe]

@[simp] theorem identity_socketOpened (l : RelayLifecycle) (relay : RelayId) :
    (l.socketOpened relay).identity = l.identity := by
  obtain ⟨_, hframe⟩ := l.socketOpened_frame relay
  rw [hframe]

@[simp] theorem identity_closeCandidateOnce (l : RelayLifecycle) (candidate : Option RelayId) :
    (l.closeCandidateOnce candidate).identity = l.identity := by
  obtain ⟨_, _, hframe⟩ := l.closeCandidateOnce_frame candidate
  rw [hframe]

@[simp] theorem identity_stop (l : RelayLifecycle) : l.stop.identity = l.identity := by
  obtain ⟨_, _, hframe⟩ := l.stop_frame
  rw [hframe]

@[simp] theorem identity_scheduleReconnect (l : RelayLifecycle) :
    l.scheduleReconnect.identity = l.identity := by
  unfold RelayLifecycle.scheduleReconnect
  split_ifs <;> rfl

@[simp] theorem identity_connectionFailure (l : RelayLifecycle) (op : ConnectOp) :
    (l.connectionFailure op).identity = l.identity := by
  unfold RelayLifecycle.connectionFailure
  dsimp only
  split_ifs <;> simp

theorem identity_identityLoaded (op : ConnectOp) (outcome : IdentityOutcome)
    (h : l.identity = true) : (l.identityLoaded op outcome).identity = true := by
  have hwithdrawn : (l.withdraw op).identity = true := h
  unfold RelayLifecycle.identityLoaded
  dsimp only
  split_ifs
  · rwa [identity_clearInitialAttempt]
  · cases outcome with
    | failed => rwa [identity_clearInitialAttempt]
    | unresolved => rw [identity_clearInitialAttempt]
    | resolved url => rfl

theorem identity_optionsBuilt (op : ConnectOp) (owners : List String) (ok creates : Bool) :
    (l.optionsBuilt op owners ok creates).identity = l.identity := by
  unfold RelayLifecycle.optionsBuilt
  dsimp only
  split_ifs
  · exact identity_connectionFailure _ op
  · exact identity_clearInitialAttempt _ op
  · exact identity_clearInitialAttempt _ op
  · rfl

theorem identity_connected (op : ConnectOp) (candidate : RelayId) (owners : List String) :
    (l.connected op candidate owners).1.identity = l.identity := by
  unfold RelayLifecycle.connected
  dsimp only
  split_ifs
  · rw [identity_closeCandidateOnce, identity_socketOpened, identity_clearInitialAttempt]
    rfl
  · dsimp only
    rw [identity_socketOpened, identity_clearInitialAttempt]
    rfl

theorem identity_connectFailed (op : ConnectOp) (candidate : RelayId) :
    (l.connectFailed op candidate).identity = l.identity := by
  unfold RelayLifecycle.connectFailed
  dsimp only
  rw [identity_connectionFailure]
  split_ifs
  · rw [identity_closeCandidateOnce]
    rfl
  · rfl

theorem identity_reconnectTimerFired (expected : ℕ) :
    (l.reconnectTimerFired expected).identity = l.identity := by
  unfold RelayLifecycle.reconnectTimerFired
  dsimp only
  split_ifs <;> rfl

theorem identity_onRelayClose (closed : RelayId) :
    (l.onRelayClose closed).1.identity = l.identity := by
  unfold RelayLifecycle.onRelayClose
  dsimp only
  split_ifs
  · rfl
  · exact identity_scheduleReconnect _
  · rfl

theorem identity_start : l.start.identity = l.identity := by
  unfold RelayLifecycle.start
  split_ifs <;> rfl

/-- A host that knows its identity keeps it. -/
theorem identity_step {file : PeersFile} {label : LifecycleLabel} {event : LifecycleEvent}
    (h : l.identity = true) (hstep : l.step file label = some (l', event)) :
    l'.identity = true := by
  cases label with
  | start =>
    cases hstep
    rwa [identity_start]
  | identityLoaded op outcome =>
    simp only [RelayLifecycle.step] at hstep
    split_ifs at hstep
    cases hstep
    exact identity_identityLoaded op outcome h
  | readOptions op =>
    simp only [RelayLifecycle.step] at hstep
    split_ifs at hstep
    cases hstep
    exact h
  | optionsBuilt op ok creates =>
    simp only [RelayLifecycle.step] at hstep
    split at hstep
    · split_ifs at hstep
      cases hstep
      rwa [identity_optionsBuilt]
    · cases hstep
  | connected op =>
    simp only [RelayLifecycle.step] at hstep
    split at hstep
    · split_ifs at hstep
      obtain rfl : (l.connected op _ _).1 = l' := congrArg Prod.fst (Option.some.inj hstep)
      rwa [identity_connected]
    · cases hstep
  | connectFailed op =>
    simp only [RelayLifecycle.step] at hstep
    split at hstep
    · split_ifs at hstep
      cases hstep
      rwa [identity_connectFailed]
    · cases hstep
  | reconnectTimerFired =>
    simp only [RelayLifecycle.step] at hstep
    split at hstep
    · cases hstep
      rwa [identity_reconnectTimerFired]
    · cases hstep
  | relayClosing relay =>
    cases hstep
    exact h
  | relayClosed relay =>
    obtain rfl : (l.onRelayClose relay).1 = l' := congrArg Prod.fst (Option.some.inj hstep)
    rwa [identity_onRelayClose]
  | stop =>
    cases hstep
    rwa [identity_stop]
  | setDisposed value =>
    cases hstep
    exact h

/-- Nothing connects before the identity is loaded. -/
theorem identified_identityLoaded (op : ConnectOp) (outcome : IdentityOutcome)
    (hactive : l.activeRelay = none) (hloading : ∀ op ∈ l.connects, op.phase = .loadingIdentity) :
    Identified (l.identityLoaded op outcome) := by
  have hwaits : Identified ((l.withdraw op).clearInitialAttempt op) := by
    obtain ⟨_, hframe⟩ := (l.withdraw op).clearInitialAttempt_frame op
    rw [hframe]
    exact Or.inr ⟨hactive, fun other hother => hloading other (List.mem_of_mem_erase hother)⟩
  unfold RelayLifecycle.identityLoaded
  dsimp only
  split_ifs
  · exact hwaits
  · cases outcome with
    | failed => exact hwaits
    | unresolved => exact Or.inl (by rw [identity_clearInitialAttempt])
    | resolved url => exact Or.inl rfl

theorem identified_start (hactive : l.activeRelay = none)
    (hloading : ∀ op ∈ l.connects, op.phase = .loadingIdentity) : Identified l.start := by
  unfold RelayLifecycle.start
  split_ifs
  · exact Or.inr ⟨hactive, hloading⟩
  · exact Or.inr ⟨hactive, hloading⟩
  · refine Or.inr ⟨hactive, fun op hop => ?_⟩
    rcases List.mem_append.mp hop with hop | hop
    · exact hloading op hop
    · rw [List.mem_singleton.mp hop]

theorem Identified.step {file : PeersFile} {label : LifecycleLabel} {event : LifecycleEvent}
    (h : Identified l) (hstep : l.step file label = some (l', event)) : Identified l' := by
  rcases h with hidentity | ⟨hactive, hloading⟩
  · exact Or.inl (identity_step hidentity hstep)
  · cases label with
    | start =>
      cases hstep
      exact identified_start hactive hloading
    | identityLoaded op outcome =>
      simp only [RelayLifecycle.step] at hstep
      split_ifs at hstep
      cases hstep
      exact identified_identityLoaded op outcome hactive hloading
    | readOptions op =>
      simp only [RelayLifecycle.step] at hstep
      split_ifs at hstep with hop
      have hphase := hloading op hop.1
      rw [hop.2] at hphase
      cases hphase
    | optionsBuilt op ok creates =>
      simp only [RelayLifecycle.step] at hstep
      split at hstep
      · rename_i hoptions
        split_ifs at hstep with hop
        have hphase := hloading op hop
        rw [hoptions] at hphase
        cases hphase
      · cases hstep
    | connected op =>
      simp only [RelayLifecycle.step] at hstep
      split at hstep
      · rename_i hconnecting
        split_ifs at hstep with hop
        have hphase := hloading op hop
        rw [hconnecting] at hphase
        cases hphase
      · cases hstep
    | connectFailed op =>
      simp only [RelayLifecycle.step] at hstep
      split at hstep
      · rename_i hconnecting
        split_ifs at hstep with hop
        have hphase := hloading op hop
        rw [hconnecting] at hphase
        cases hphase
      · cases hstep
    | reconnectTimerFired =>
      simp only [RelayLifecycle.step] at hstep
      split at hstep
      · rename_i expected htimer
        cases hstep
        unfold RelayLifecycle.reconnectTimerFired
        dsimp only
        split_ifs with hstale
        · exact Or.inr ⟨hactive, hloading⟩
        · simp only [Bool.or_eq_true, Bool.not_eq_true', not_or, Bool.not_eq_false] at hstale
          exact Or.inl hstale.2
      · cases hstep
    | relayClosing relay =>
      cases hstep
      exact Or.inr ⟨hactive, hloading⟩
    | relayClosed relay =>
      have hne : (l.socketClosed relay).activeRelay ≠ some relay := by
        intro h
        cases hactive.symm.trans h
      have hquiet : (l.onRelayClose relay).1 = l.socketClosed relay := by
        unfold RelayLifecycle.onRelayClose
        dsimp only
        rw [decide_eq_true hne, Bool.true_or, if_pos rfl]
      obtain rfl : (l.onRelayClose relay).1 = l' := congrArg Prod.fst (Option.some.inj hstep)
      rw [hquiet]
      exact Or.inr ⟨hactive, hloading⟩
    | stop =>
      cases hstep
      obtain ⟨_, _, hframe⟩ := l.stop_frame
      rw [hframe]
      exact Or.inr ⟨rfl, hloading⟩
    | setDisposed value =>
      cases hstep
      exact Or.inr ⟨hactive, hloading⟩

theorem Identified.stop (h : Identified l) : Identified l.stop := by
  obtain ⟨_, _, hframe⟩ := l.stop_frame
  rw [hframe]
  exact h.imp id fun ⟨_, hloading⟩ => ⟨rfl, hloading⟩

end Identity

theorem Identified.move {s s' : Extension} {events : List HostEvent} {label : Extension.Label}
    (h : Identified s.lifecycle) (hmove : s.move label = some (s', events)) :
    Identified s'.lifecycle := by
  have hmoves := Extension.moves_of_move hmove
  by_cases hinner : ∃ inner, label = .lifecycle inner
  · obtain ⟨inner, rfl⟩ := hinner
    generalize hresult : (s', events) = result at hmoves
    cases hmoves with
    | lifecycle hlabel hstep =>
      rename_i lifecycle event
      obtain ⟨_, _, _, _, hframe⟩ := Extension.onLifecycleEvent_frame { s with lifecycle } event
      rw [← hresult] at hframe
      obtain rfl : s' = _ := hframe
      exact h.step hstep
  · by_cases hstop : label = .stop
    · subst hstop
      cases hmove
      exact h.stop
    · by_cases hquit : label = .quit
      · subst hquit
        cases hmove
        have hdisposed : Identified { s.lifecycle with isDisposed := true } := h
        exact hdisposed.stop
      · have hsame :=
          Extension.lifecycle_of_moves hmoves (fun inner heq => hinner ⟨inner, heq⟩) hstop hquit
        dsimp only at hsame
        rwa [hsame]

/-- A host that runs knows its identity once a relay is current, and its channels are on the
    current relay. -/
theorem identified_run {file : PeersFile} {generation : String} {labels : List Extension.Label}
    {s : Extension × List HostEvent}
    (hrun : run Extension.step (.initial file generation, []) labels = some s) :
    s.1.Current ∧ Identified s.1.lifecycle := by
  refine @invariant_run _ _ _ (fun s => s.1.Current ∧ Identified s.1.lifecycle) ?_ _ _ _
    ⟨Extension.current_initial file generation, Or.inr ⟨rfl, fun _ hop => by cases hop⟩⟩ hrun
  intro s label s' h hstep
  obtain ⟨events, hmove, -⟩ := logged_eq_some.mp hstep
  exact ⟨h.1.move hmove, h.2.move hmove⟩

/-! ## Every line -/

/-- In every state that the host reaches, the listeners return on a line, and a line without a
    route for the endpoint changes nothing, unless the line is `null` and comes over the
    current relay. -/
theorem listeners_return_iff (parse : String → Option Json) (handlers : RouteHandlers)
    (host : HostRouteIdentity) (file : PeersFile) (generation : String)
    (labels : List Extension.Label) (s : Extension) (log : List HostEvent)
    (hrun : run Extension.step (.initial file generation, []) labels = some (s, log))
    (relay : RelayId) (line : String) :
    ((∃ s', deliver handlers host relay (parse line) s = .ok s') ∧
        ((∀ value, parse line = some value → ¬ IsRoute host value) →
          deliver handlers host relay (parse line) s = .ok s)) ↔
      ¬ (parse line = some .null ∧ s.lifecycle.isCurrent relay = true) := by
  obtain ⟨hcurrent, hidentified⟩ := identified_run hrun
  constructor
  · rintro ⟨⟨s', hs'⟩, -⟩ ⟨hnull, hrelay⟩
    rw [hnull, deliver_null handlers host (hidentified.identity hrelay) hrelay] at hs'
    cases hs'
  · intro hne
    cases hrelay : s.lifecycle.isCurrent relay with
    | false =>
      have hsame := deliver_of_not_current handlers host (parse line) hcurrent hrelay
      exact ⟨⟨s, hsame⟩, fun _ => hsame⟩
    | true =>
      obtain ⟨s', hs', hsame⟩ := @deliver_of_ne_null host _ handlers relay s
        (fun h => hidentified.identity h) (fun hnull => hne ⟨hnull, hrelay⟩)
      refine ⟨⟨s', hs'⟩, fun hnot => ?_⟩
      rw [hs', hsame hnot]

/-- A host that owns the endpoint `e`. -/
private def sampleHost : HostRouteIdentity := ⟨"d", "e", "r"⟩

private def sampleHandlers : RouteHandlers where
  decode _ := none
  hasOwner _ _ := false
  handlePairRequest s _ _ _ := s
  findKnownOwner s _ _ _ := s
  onMessage s _ _ := s

/-- Two of the lines that are JSON. -/
private def sampleParse (line : String) : Option Json :=
  if line = "null" then some .null else if line = "1" then some (.number 1) else none

/-- A line that is a number is read. -/
theorem number_returns : ∃ s log,
    run Extension.step (.initial zeroOwnerFile "g0", []) (firstConnect [zeroOwner.key]) =
        some (s, log) ∧
      ∃ s', deliver sampleHandlers sampleHost 0 (sampleParse "1") s = .ok s' := by
  obtain ⟨⟨s, log⟩, hrun⟩ := Option.isSome_iff_exists.mp
    (show (run Extension.step (.initial zeroOwnerFile "g0", [])
      (firstConnect [zeroOwner.key])).isSome = true by decide)
  refine ⟨s, log, hrun, ((listeners_return_iff sampleParse sampleHandlers sampleHost _ _ _ s log
    hrun 0 "1").mpr ?_).1⟩
  rintro ⟨hnull, -⟩
  cases hnull

/-- After the first connect, the line `null` of the relay ends the process. -/
theorem null_throws : ∃ s log,
    run Extension.step (.initial zeroOwnerFile "g0", []) (firstConnect [zeroOwner.key]) =
        some (s, log) ∧
      deliver sampleHandlers sampleHost 0 (sampleParse "null") s = .error .nullRoute := by
  obtain ⟨⟨s, log⟩, hrun⟩ := Option.isSome_iff_exists.mp
    (show (run Extension.step (.initial zeroOwnerFile "g0", [])
      (firstConnect [zeroOwner.key])).isSome = true by decide +kernel)
  have hcurrent : (run Extension.step (.initial zeroOwnerFile "g0", [])
      (firstConnect [zeroOwner.key])).any (fun s => s.1.lifecycle.isCurrent 0) = true := by
    decide
  rw [hrun, Option.any_some] at hcurrent
  exact ⟨s, log, hrun, deliver_null sampleHandlers sampleHost
    ((identified_run hrun).2.identity hcurrent) hcurrent⟩

/-! ## Routes of the owners -/

/-- The owner with a key; the relay names owners by canonical keys. -/
def ownerOf (key : String) : Option OwnerId :=
  if h : canonicalize key = some key then some ⟨key, h⟩ else none

/-- What the host does (`index.ts`, lines 356–372). -/
def hostHandlers (decode : String → Option ClientFrame) (env : ServiceEnv) (pairedAt : String) :
    RouteHandlers where
  decode
  hasOwner s key := (ownerOf key).any s.owners.activeOwners.contains
  handlePairRequest s relay key frame :=
    match ownerOf key, frame with
    | some ownerId, .pairRequest id token deviceName =>
      (s.handlePairRequest relay ownerId ⟨id, token, deviceName⟩ pairedAt).1
    | _, _ => s
  findKnownOwner s relay key frame :=
    match ownerOf key with
    | some ownerId =>
      { s with
        lookups := s.lookups ++ [⟨s.nextLookup, relay, ownerId, frame, none⟩]
        nextLookup := s.nextLookup + 1 }
    | none => s
  onMessage s key frame :=
    match ownerOf key with
    | some ownerId => { s with owners := (s.owners.routeClientFrame env ownerId frame).1 }
    | none => s

section Routes

variable {host : HostRouteIdentity} {route : Json} {ownerId : OwnerId}

theorem ownerOf_key (ownerId : OwnerId) : ownerOf ownerId.key = some ownerId :=
  dif_pos ownerId.canonical

theorem key_ne_empty (ownerId : OwnerId) : ownerId.key ≠ "" := by
  intro h
  have hcanonical := ownerId.canonical
  rw [h] at hcanonical
  revert hcanonical
  decide

theorem key_injective : Function.Injective OwnerId.key :=
  fun _ _ h => OwnerId.ext_iff'.mpr h

/-- A channel takes in the routes of its owner. -/
theorem routeOf_some {frame : RouteFrame} (h : routeOf host none route = some frame)
    (ownerId : String) : routeOf host (some ownerId) route =
      if ownerId = frame.sourceOwnerId then some frame else none := by
  unfold routeOf at h ⊢
  split at h
  · split_ifs at h with hchecks
    cases h
    obtain ⟨htype, hdevice, hendpoint, hruntime, htarget, -⟩ := hchecks
    simp only [htype, hdevice, hendpoint, hruntime, htarget, Option.all_some, decide_eq_true_eq,
      true_and]
  · cases h

/-- A list of channels without the owner of a route does nothing with it. -/
theorem foldl_of_not_mem {σ : Type*} (f : σ → σ) {key : String} {keys : List String}
    (h : key ∉ keys) (s : σ) : keys.foldl (fun s k => if k = key then f s else s) s = s := by
  induction keys with
  | nil => rfl
  | cons k keys ih =>
    obtain ⟨hne, hkeys⟩ := not_or.mp (fun hor => h (List.mem_cons.mpr hor))
    rw [List.foldl_cons, if_neg (Ne.symm hne)]
    exact ih hkeys

theorem foldl_of_mem {σ : Type*} (f : σ → σ) {key : String} {keys : List String}
    (hnodup : keys.Nodup) (h : key ∈ keys) (s : σ) :
    keys.foldl (fun s k => if k = key then f s else s) s = f s := by
  induction keys with
  | nil => cases h
  | cons k keys ih =>
    obtain ⟨hfresh, hnodup⟩ := List.nodup_cons.mp hnodup
    rw [List.foldl_cons]
    by_cases hk : k = key
    · rw [if_pos hk]
      exact foldl_of_not_mem f (hk ▸ hfresh) (f s)
    · rw [if_neg hk]
      exact ih hnodup ((List.mem_cons.mp h).resolve_left (Ne.symm hk))

/-- Only the channel of its owner does something with a route. -/
theorem foldlM_channelListener (handlers : RouteHandlers) {frame : RouteFrame}
    (hnull : route ≠ .null) (hroute : routeOf host none route = some frame) (keys : List String)
    (s : Extension) :
    keys.foldlM (channelListener handlers host (some route)) s =
      .ok (keys.foldl (fun s k => if k = frame.sourceOwnerId then
        channelFrame handlers frame.sourceOwnerId s frame else s) s) := by
  induction keys generalizing s with
  | nil => rfl
  | cons k keys ih =>
    rw [List.foldlM_cons, List.foldl_cons]
    unfold channelListener at ih ⊢
    rw [parseIncomingRoute_some hnull, routeOf_some hroute]
    split_ifs with hk
    · rw [hk]
      exact ih _
    · exact ih _

theorem mem_channelOwners {s : Extension} {relay : RelayId} :
    ownerId.key ∈ channelOwners s relay ↔
      ∃ binding, s.owners.activeOwners.get? ownerId = some binding ∧ binding.relay = relay := by
  unfold channelOwners
  rw [List.mem_map]
  constructor
  · rintro ⟨⟨other, binding⟩, hentry, hkey⟩
    obtain ⟨hentry, hrelay⟩ := List.mem_filter.mp hentry
    obtain rfl : other = ownerId := key_injective hkey
    exact ⟨binding, OrderedMap.mem_entries_iff.mp hentry, of_decide_eq_true hrelay⟩
  · rintro ⟨binding, hget, hrelay⟩
    exact ⟨(ownerId, binding), List.mem_filter.mpr
      ⟨OrderedMap.mem_entries_iff.mpr hget, decide_eq_true hrelay⟩, rfl⟩

theorem nodup_channelOwners (s : Extension) (relay : RelayId) :
    (channelOwners s relay).Nodup := by
  have hkeys : channelOwners s relay =
      ((s.owners.activeOwners.entries.filter fun entry => entry.2.relay = relay).map
        Prod.fst).map OwnerId.key := by
    rw [List.map_map]
    rfl
  rw [hkeys]
  refine List.Nodup.map key_injective ?_
  exact s.owners.activeOwners.nodup.sublist (List.filter_sublist.map Prod.fst)

theorem ne_null_of_routeOf {frame : RouteFrame} (h : routeOf host none route = some frame) :
    route ≠ .null := by
  rintro rfl
  cases h

/-- A route that no channel takes in. -/
theorem foldlM_of_channelFrame (handlers : RouteHandlers) {frame : RouteFrame}
    (hroute : routeOf host none route = some frame)
    (hframe : ∀ s, channelFrame handlers frame.sourceOwnerId s frame = s) (keys : List String)
    (s : Extension) : keys.foldlM (channelListener handlers host (some route)) s = .ok s := by
  rw [foldlM_channelListener handlers (ne_null_of_routeOf hroute) hroute]
  congr 1
  induction keys with
  | nil => rfl
  | cons k keys ih =>
    rw [List.foldl_cons, hframe, ite_self]
    exact ih

theorem routerListener_of_current (handlers : RouteHandlers) {frame : RouteFrame}
    (hroute : routeOf host none route = some frame) {s : Extension} {relay : RelayId}
    (hidentified : Identified s.lifecycle) (hcurrent : s.lifecycle.isCurrent relay = true) :
    routerListener handlers host relay (some route) s =
      .ok (routeFrame handlers relay s frame) := by
  unfold routerListener routeIdentity
  rw [hcurrent, if_neg (by decide), if_pos (hidentified.identity hcurrent)]
  change (parseIncomingRoute (some route) host none >>= _) = _
  rw [parseIncomingRoute_some (ne_null_of_routeOf hroute), hroute]
  rfl

/-- A frame of a session: the channel of its owner takes it in, or the router looks the owner
    up. -/
theorem deliver_session {decode : String → Option ClientFrame} {env : ServiceEnv}
    {pairedAt : String} {s : Extension} (hs : s.Current) (hidentified : Identified s.lifecycle)
    {relay : RelayId} (hcurrent : s.lifecycle.isCurrent relay = true) {ct : String}
    {frame : ClientFrame}
    (hroute : routeOf host none route = some ⟨.session, ownerId.key, ct⟩)
    (hdecode : decode ct = some frame) (hframe : isPairRequest frame = false) :
    deliver (hostHandlers decode env pairedAt) host relay (some route) s =
      .ok (s.onSessionFrame relay ownerId frame env).1 := by
  have hrouted : routeFrame (hostHandlers decode env pairedAt) relay s
      ⟨.session, ownerId.key, ct⟩ =
        if s.owners.activeOwners.contains ownerId then s
        else
          { s with
            lookups := s.lookups ++ [⟨s.nextLookup, relay, ownerId, frame, none⟩]
            nextLookup := s.nextLookup + 1 } := by
    simp only [routeFrame, hostHandlers, hdecode, hframe, ownerOf_key, key_ne_empty, Option.any_some,
      if_false, ne_eq, decide_false, reduceCtorEq, not_true_eq_false, Bool.false_eq_true]
  have hchannel : ∀ s, channelFrame (hostHandlers decode env pairedAt) ownerId.key s
      ⟨.session, ownerId.key, ct⟩ =
        { s with owners := (s.owners.routeClientFrame env ownerId frame).1 } := by
    intro s
    simp only [channelFrame, hostHandlers, hdecode, hframe, ownerOf_key, ne_eq, not_true_eq_false,
      decide_false, Bool.or_self, Bool.false_eq_true, if_false]
  unfold deliver
  rw [routerListener_of_current _ hroute hidentified hcurrent, hrouted]
  change (channelOwners s relay).foldlM _ _ = _
  rw [foldlM_channelListener _ (ne_null_of_routeOf hroute) hroute]
  unfold Extension.onSessionFrame
  cases hget : s.owners.activeOwners.get? ownerId with
  | some binding =>
    have hrelay : binding.relay = relay :=
      eq_of_isCurrent hcurrent (hs.bindings ownerId binding hget)
    rw [if_pos (OrderedMap.contains_iff.mpr ⟨binding, hget⟩),
      foldl_of_mem _ (nodup_channelOwners s relay) (mem_channelOwners.mpr ⟨binding, hget, hrelay⟩)]
    dsimp only
    rw [if_pos hrelay, hchannel]
  | none =>
    have hfree : ¬ s.owners.activeOwners.contains ownerId = true := by
      rw [OrderedMap.contains_iff, hget]
      rintro ⟨_, h⟩
      cases h
    have hout : ownerId.key ∉ channelOwners s relay := by
      rw [mem_channelOwners, hget]
      rintro ⟨_, h, -⟩
      cases h
    rw [if_neg hfree, foldl_of_not_mem _ hout]
    dsimp only
    rw [if_pos hcurrent]

/-- A step that brings a route to the host is what the listeners do with the line. -/
theorem deliver_onRoute {decode : String → Option ClientFrame} {env : ServiceEnv}
    {pairedAt : String} {s : Extension} (hs : s.Current) (hidentified : Identified s.lifecycle)
    {relay : RelayId} (hcurrent : s.lifecycle.isCurrent relay = true) {purpose : RoutePurpose}
    {ct : String} {frame : ClientFrame}
    (hroute : routeOf host none route = some ⟨purpose, ownerId.key, ct⟩)
    (hdecode : decode ct = some frame) :
    deliver (hostHandlers decode env pairedAt) host relay (some route) s =
      .ok (s.onRoute relay ownerId purpose frame env pairedAt).1 := by
  cases hframe : isPairRequest frame with
  | false =>
    cases purpose with
    | session =>
      rw [deliver_session hs hidentified hcurrent hroute hdecode hframe]
      cases frame with
      | pairRequest id token deviceName => cases hframe
      | sessionHello id channelId => rfl
      | inChannel channel request => rfl
    | pairing =>
      have hrouted : routeFrame (hostHandlers decode env pairedAt) relay s
          ⟨.pairing, ownerId.key, ct⟩ = s := by
        simp [routeFrame, hostHandlers, hdecode, hframe]
      unfold deliver
      rw [routerListener_of_current _ hroute hidentified hcurrent, hrouted]
      refine (foldlM_of_channelFrame _ hroute (fun s => ?_) _ s).trans ?_
      · simp [channelFrame, hostHandlers, hdecode]
      · cases frame with
        | pairRequest id token deviceName => cases hframe
        | sessionHello id channelId => rfl
        | inChannel channel request => rfl
  | true =>
    obtain ⟨id, token, deviceName, rfl⟩ : ∃ id token deviceName,
        frame = .pairRequest id token deviceName := by
      cases frame with
      | pairRequest id token deviceName => exact ⟨id, token, deviceName, rfl⟩
      | sessionHello id channelId => cases hframe
      | inChannel channel request => cases hframe
    have hrouted : routeFrame (hostHandlers decode env pairedAt) relay s
        ⟨purpose, ownerId.key, ct⟩ =
          (s.onRoute relay ownerId purpose (.pairRequest id token deviceName) env pairedAt).1 := by
      cases purpose with
      | pairing =>
        simp [routeFrame, hostHandlers, hdecode, isPairRequest, ownerOf_key, key_ne_empty,
          Extension.onRoute]
      | session => simp [routeFrame, hostHandlers, hdecode, isPairRequest, Extension.onRoute]
    unfold deliver
    rw [routerListener_of_current _ hroute hidentified hcurrent, hrouted]
    refine foldlM_of_channelFrame _ hroute (fun s => ?_) _ _
    simp [channelFrame, hostHandlers, hdecode, isPairRequest]

end Routes

end RemotePi.Host
