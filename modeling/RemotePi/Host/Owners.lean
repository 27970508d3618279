import RemotePi.Host.RelayLifecycle
import RemotePi.Pairing.QrSession
import RemotePi.Timeline.V2Service

/-!
# Owners of a host and their session

Model of the bindings of `pi-extension/src/index.ts` (lines 179–236, 267–274, 316–360): an
owner that is active has a binding with a service for the session that was current when
it was attached, and the session is replaced under the bindings.

Every function returns what it makes happen, in order. A detachment names its cause.

Results:
* `get?_attachOwner`, `get?_detachOwner`: what attaching and detaching change.
* `get?_routeClientFrame`: a frame changes the service of its owner only.
-/

namespace RemotePi.Host

open RemotePi.Lib RemotePi.Pairing RemotePi.Timeline

/-! ## State -/

/-- A session manager, with the session id that it answers; the SDK names every session. -/
structure Session where
  manager : ℕ
  sessionId : String
  named : sessionId ≠ ""
deriving DecidableEq

/-- `OwnerBinding` (line 179), an object with an identity; the channel sends over its relay. -/
structure OwnerBinding where
  id : ℕ
  relay : RelayId
  session : Session
  service : TimelineV2Service

/-- The variables of `index.ts` about sessions and active owners, and whether
    `SessionNewBridge` runs. -/
structure Owners where
  currentSession : Option Session
  timelineGeneration : String
  replacedSessionId : Option String
  sessionNewRunning : Bool
  activeOwners : OrderedMap OwnerId OwnerBinding
  nextBinding : ℕ

/-- What a service reads in a call: its manager has the session id of the binding. -/
def serviceEnv (env : ServiceEnv) (binding : OwnerBinding) : ServiceEnv :=
  { env with manager := { env.manager with sessionId := binding.session.sessionId } }

/-- The binding after its service has handled a frame. -/
def OwnerBinding.handle (binding : OwnerBinding) (env : ServiceEnv) (frame : ClientFrame) :
    OwnerBinding :=
  { binding with service := (binding.service.handle (serviceEnv env binding) frame).service }

/-! ## What happens -/

inductive ByeReason where
  | peerStop
  | sessionReplaced
  | shutdown
deriving DecidableEq, Repr

inductive PairErrorCode where
  | tokenExpired
  | tokenConsumed
  | tokenUnknown
  | internalError
deriving DecidableEq, Repr

/-- Why an owner is detached. -/
inductive DetachCause where
  /-- `attachOwner` makes room for a new binding. -/
  | attach
  | disconnected
  | revoked
  | sessionReplaced
deriving DecidableEq, Repr

inductive HostEvent where
  /-- A session frame of an owner is taken in. -/
  | arrived (ownerId : OwnerId) (frame : ClientFrame)
  /-- The service of the owner handles a frame. -/
  | handled (ownerId : OwnerId) (frame : ClientFrame) (generation : String)
      (answers : List ServiceFrame) (calls : List ServiceCall)
  | reset (ownerId : OwnerId) (frame : ServiceFrame)
  | bye (ownerId : OwnerId) (sessionId historyGeneration : String) (reason : ByeReason)
  | pairOk (ownerId : OwnerId) (completion : PairOk)
  | pairError (ownerId : OwnerId) (inReplyTo : String) (code : PairErrorCode) (message : String)
  | attached (ownerId : OwnerId) (binding : ℕ) (session : Session)
  | detached (ownerId : OwnerId) (binding : ℕ) (cause : DetachCause)
  | hello (relay : RelayId) (authorizedOwnerIds : List String)
  | endpointUpdate (relay : RelayId) (authorizedOwnerIds : List String)
  | revoked (remoteEpk : String)
deriving DecidableEq

/-- Events that say nothing about frames of owners and their bindings. -/
def HostEvent.isNews : HostEvent → Bool
  | .pairOk _ _ => true
  | .pairError _ _ _ _ => true
  | .hello _ _ => true
  | .endpointUpdate _ _ => true
  | .revoked _ => true
  | _ => false

namespace Owners

def initial (generation : String) : Owners where
  currentSession := none
  timelineGeneration := generation
  replacedSessionId := none
  sessionNewRunning := false
  activeOwners := .empty
  nextBinding := 0

/-! ## Bindings -/

/-- `detachOwner` (lines 203–208). -/
def detachOwner (s : Owners) (ownerId : OwnerId) (cause : DetachCause) :
    Owners × List HostEvent :=
  match s.activeOwners.get? ownerId with
  | none => (s, [])
  | some binding =>
    ({ s with activeOwners := s.activeOwners.erase ownerId },
      [.detached ownerId binding.id cause])

/-- The loop of `onDisconnected` (line 198). -/
def detachAll (s : Owners) : Owners × List HostEvent :=
  ({ s with activeOwners := .empty },
    s.activeOwners.entries.map fun (ownerId, binding) =>
      .detached ownerId binding.id .disconnected)

/-- The `bye` to the owner of a binding. -/
def byeOf (sessionId : String) (reason : ByeReason) (entry : OwnerId × OwnerBinding) : HostEvent :=
  .bye entry.1 sessionId entry.2.service.generation reason

/-- `closeOwner` (lines 209–220). -/
def closeOwner (s : Owners) (ownerId : OwnerId) : Owners × List HostEvent :=
  match s.activeOwners.get? ownerId with
  | none => (s, [])
  | some binding =>
    let (s, detached) := s.detachOwner ownerId .revoked
    (s, byeOf binding.session.sessionId .peerStop (ownerId, binding) :: detached)

/-- `createBinding` (lines 316–345). -/
def createBinding (s : Owners) (relay : RelayId) (ownerId : OwnerId) :
    Owners × Option OwnerBinding :=
  match s.currentSession with
  | none => (s, none)
  | some session =>
    ({ s with nextBinding := s.nextBinding + 1 },
      some ⟨s.nextBinding, relay, session, .new ownerId.key s.timelineGeneration⟩)

/-- `attachOwner` (lines 347–354). -/
def attachOwner (s : Owners) (relay : RelayId) (ownerId : OwnerId) :
    Owners × Option OwnerBinding × List HostEvent :=
  let (s, detached) := s.detachOwner ownerId .attach
  let (s, created) := s.createBinding relay ownerId
  match created with
  | none => (s, none, detached)
  | some binding =>
    ({ s with activeOwners := s.activeOwners.set ownerId binding }, some binding,
      detached ++ [.attached ownerId binding.id binding.session])

/-- `routeClientFrame` (lines 356–360). -/
def routeClientFrame (s : Owners) (env : ServiceEnv) (ownerId : OwnerId) (frame : ClientFrame) :
    Owners × List HostEvent :=
  match s.activeOwners.get? ownerId with
  | none => (s, [])
  | some binding =>
    let answer := binding.service.handle (serviceEnv env binding) frame
    ({ s with
        activeOwners := s.activeOwners.set ownerId { binding with service := answer.service } },
      [.handled ownerId frame s.timelineGeneration answer.frames answer.calls])

/-! ## Sessions -/

/-- `finishSessionReplacement` (lines 229–236); an empty session id counts as none. -/
def finishSessionReplacement (s : Owners) : Owners × List HostEvent :=
  match s.replacedSessionId with
  | none => (s, [])
  | some sessionId =>
    if sessionId = "" then (s, [])
    else
      ({ s with replacedSessionId := none, activeOwners := .empty },
        s.activeOwners.entries.flatMap fun (ownerId, binding) =>
          [byeOf sessionId .sessionReplaced (ownerId, binding),
            .detached ownerId binding.id .sessionReplaced])

/-- `session_start` with a session manager (lines 515–527); the generation is fresh. -/
def sessionStart (s : Owners) (session : Session) (generation : String) :
    Owners × List HostEvent :=
  let s := { s with currentSession := some session, timelineGeneration := generation }
  if s.sessionNewRunning then (s, []) else s.finishSessionReplacement

/-- The binding after `refreshGeneration` and `reset`, with the frames. -/
def resetBinding (env : ServiceEnv) (generation : String) (reason : ServiceResetReason)
    (ownerId : OwnerId) (binding : OwnerBinding) : OwnerBinding × List HostEvent :=
  let service := binding.service.refreshGeneration generation
  let (service, frames) := service.reset (serviceEnv env binding) reason
  ({ binding with service }, frames.map (.reset ownerId))

/-- `rotateGeneration` (lines 267–273), as `session_tree` calls it (line 532). -/
def sessionTree (s : Owners) (env : ServiceEnv) (generation : String) : Owners × List HostEvent :=
  ({ s with
      timelineGeneration := generation
      activeOwners := s.activeOwners.mapValues fun ownerId binding =>
        (resetBinding env generation .branchChanged ownerId binding).1 },
    s.activeOwners.entries.flatMap fun (ownerId, binding) =>
      (resetBinding env generation .branchChanged ownerId binding).2)

/-- `session_shutdown` for another reason than `quit` (lines 533–538). -/
def sessionShutdown (s : Owners) : Owners :=
  { s with replacedSessionId := s.currentSession.map Session.sessionId, currentSession := none }

/-- `SessionNewBridge.run` starts (`actions/session_new_bridge.ts`, lines 62–69). -/
def sessionNewStart (s : Owners) : Owners := { s with sessionNewRunning := true }

/-- `SessionNewBridge.run` ends (lines 72–78). -/
def sessionNewEnd (s : Owners) : Owners × List HostEvent :=
  { s with sessionNewRunning := false }.finishSessionReplacement

/-- The part of `closeRelay` before the relay stops (lines 412–419). -/
def sayBye (s : Owners) (reason : ByeReason) : Owners × List HostEvent :=
  ({ s with replacedSessionId := none },
    s.activeOwners.entries.map
      (byeOf ((s.currentSession.map Session.sessionId).getD "unknown") reason))

/-! ## What the operations change -/

section Operations

variable (s : Owners) (relay : RelayId) (ownerId ownerId' : OwnerId)

theorem detachOwner_eq (cause : DetachCause) : s.detachOwner ownerId cause =
    ({ s with activeOwners := s.activeOwners.erase ownerId },
      (s.activeOwners.get? ownerId).toList.map fun binding =>
        .detached ownerId binding.id cause) := by
  unfold detachOwner
  cases hget : s.activeOwners.get? ownerId with
  | none =>
    dsimp only
    rw [OrderedMap.erase_of_none hget]
    rfl
  | some binding => rfl

theorem closeOwner_eq : s.closeOwner ownerId =
    ({ s with activeOwners := s.activeOwners.erase ownerId },
      (s.activeOwners.get? ownerId).toList.flatMap fun binding =>
        [byeOf binding.session.sessionId .peerStop (ownerId, binding),
          .detached ownerId binding.id .revoked]) := by
  unfold closeOwner
  rw [detachOwner_eq]
  cases hget : s.activeOwners.get? ownerId with
  | none =>
    dsimp only
    rw [OrderedMap.erase_of_none hget]
    rfl
  | some binding => rfl

/-- The binding that `attachOwner` makes in a session. -/
def newBinding (session : Session) : OwnerBinding :=
  ⟨s.nextBinding, relay, session, .new ownerId.key s.timelineGeneration⟩

theorem attachOwner_of_session {session : Session} (h : s.currentSession = some session) :
    s.attachOwner relay ownerId =
      ({ s with
          activeOwners := (s.activeOwners.erase ownerId).set ownerId
            (s.newBinding relay ownerId session)
          nextBinding := s.nextBinding + 1 },
        some (s.newBinding relay ownerId session),
        ((s.activeOwners.get? ownerId).toList.map fun binding =>
          .detached ownerId binding.id .attach) ++ [.attached ownerId s.nextBinding session]) := by
  unfold attachOwner createBinding
  rw [detachOwner_eq]
  dsimp only
  rw [h]
  rfl

theorem attachOwner_of_none (h : s.currentSession = none) : s.attachOwner relay ownerId =
    ({ s with activeOwners := s.activeOwners.erase ownerId }, none,
      (s.activeOwners.get? ownerId).toList.map fun binding =>
        .detached ownerId binding.id .attach) := by
  unfold attachOwner createBinding
  rw [detachOwner_eq]
  dsimp only
  rw [h]

theorem routeClientFrame_of_some {binding : OwnerBinding} (env : ServiceEnv) (frame : ClientFrame)
    (h : s.activeOwners.get? ownerId = some binding) :
    s.routeClientFrame env ownerId frame =
      ({ s with activeOwners := s.activeOwners.set ownerId (binding.handle env frame) },
        [.handled ownerId frame s.timelineGeneration
          (binding.service.handle (serviceEnv env binding) frame).frames
          (binding.service.handle (serviceEnv env binding) frame).calls]) := by
  unfold routeClientFrame
  rw [h]
  rfl

theorem routeClientFrame_of_none (env : ServiceEnv) (frame : ClientFrame)
    (h : s.activeOwners.get? ownerId = none) :
    s.routeClientFrame env ownerId frame = (s, []) := by
  unfold routeClientFrame
  rw [h]

end Operations

/-! ## Calls -/

/-- What a step of the host does to the owners. -/
inductive Call where
  | nothing
  | attach (relay : RelayId) (ownerId : OwnerId)
  | attachAndRoute (relay : RelayId) (ownerId : OwnerId) (env : ServiceEnv) (frame : ClientFrame)
  | route (ownerId : OwnerId) (env : ServiceEnv) (frame : ClientFrame)
  | close (ownerId : OwnerId)
  /-- All owners are detached, after a `bye` where there is a reason. -/
  | detachAll (reason : Option ByeReason)
  | sessionStart (session : Session) (generation : String)
  | sessionTree (env : ServiceEnv) (generation : String)
  | sessionShutdown
  | sessionNewStart
  | sessionNewEnd

def apply (s : Owners) : Call → Owners × List HostEvent
  | .nothing => (s, [])
  | .attach relay ownerId =>
    let (s, _, events) := s.attachOwner relay ownerId
    (s, events)
  | .attachAndRoute relay ownerId env frame =>
    let (s, _, attached) := s.attachOwner relay ownerId
    let (s, events) := s.routeClientFrame env ownerId frame
    (s, attached ++ events)
  | .route ownerId env frame => s.routeClientFrame env ownerId frame
  | .close ownerId => s.closeOwner ownerId
  | .detachAll none => s.detachAll
  | .detachAll (some reason) =>
    let (s, byes) := s.sayBye reason
    let (s, events) := s.detachAll
    (s, byes ++ events)
  | .sessionStart session generation => s.sessionStart session generation
  | .sessionTree env generation => s.sessionTree env generation
  | .sessionShutdown => (s.sessionShutdown, [])
  | .sessionNewStart => (s.sessionNewStart, [])
  | .sessionNewEnd => s.sessionNewEnd

/-! ## What a call does to a binding -/

/-- The owner that a call attaches. -/
def Call.attaches : Call → Option (RelayId × OwnerId)
  | .attach relay ownerId => some (relay, ownerId)
  | .attachAndRoute relay ownerId _ _ => some (relay, ownerId)
  | _ => none

/-- The same binding, later: its ready channels are ready. -/
structure Continues (binding binding' : OwnerBinding) : Prop where
  id : binding'.id = binding.id
  relay : binding'.relay = binding.relay
  session : binding'.session = binding.session
  ready : ∀ channelId, binding.service.IsReady channelId → binding'.service.IsReady channelId

theorem Continues.refl (binding : OwnerBinding) : Continues binding binding :=
  ⟨rfl, rfl, rfl, fun _ h => h⟩

theorem continues_handle (binding : OwnerBinding) (env : ServiceEnv) (frame : ClientFrame) :
    Continues binding (binding.handle env frame) :=
  ⟨rfl, rfl, rfl, fun _ h => h.handle _ _⟩

theorem continues_resetBinding (env : ServiceEnv) (generation : String)
    (reason : ServiceResetReason) (ownerId : OwnerId) (binding : OwnerBinding) :
    Continues binding (resetBinding env generation reason ownerId binding).1 :=
  ⟨rfl, rfl, rfl, fun _ h => (h.refreshGeneration generation).reset _ reason⟩

section Bindings

variable {s : Owners} {ownerId : OwnerId} {binding binding' : OwnerBinding}

/-- A binding that comes from one before, or one that `attachOwner` has just made. -/
def Comes (s : Owners) (call : Call) (ownerId : OwnerId) (binding' : OwnerBinding) : Prop :=
  (∃ binding, s.activeOwners.get? ownerId = some binding ∧
      (∀ relay, call.attaches ≠ some (relay, ownerId)) ∧ Continues binding binding') ∨
    ∃ relay session, call.attaches = some (relay, ownerId) ∧ s.currentSession = some session ∧
      Continues (s.newBinding relay ownerId session) binding'

theorem comes_of_same {call : Call} (hcall : call.attaches = none)
    (hget : s.activeOwners.get? ownerId = some binding) : Comes s call ownerId binding := by
  refine Or.inl ⟨binding, hget, fun relay hrelay => ?_, .refl _⟩
  rw [hcall] at hrelay
  cases hrelay

theorem get?_attachOwner {relay : RelayId} {other : OwnerId}
    (h : (s.attachOwner relay other).1.activeOwners.get? ownerId = some binding') :
    (ownerId ≠ other ∧ s.activeOwners.get? ownerId = some binding') ∨
      (ownerId = other ∧ ∃ session, s.currentSession = some session ∧
        binding' = s.newBinding relay other session) := by
  cases hsession : s.currentSession with
  | none =>
    rw [attachOwner_of_none s relay other hsession] at h
    dsimp only at h
    rw [OrderedMap.get?_erase] at h
    split_ifs at h with howner
    exact Or.inl ⟨howner, h⟩
  | some session =>
    rw [attachOwner_of_session s relay other hsession] at h
    dsimp only at h
    rw [OrderedMap.get?_set, OrderedMap.get?_erase] at h
    split_ifs at h with howner
    · exact Or.inr ⟨howner, session, rfl, (Option.some.inj h).symm⟩
    · exact Or.inl ⟨howner, h⟩

theorem get?_routeClientFrame {env : ServiceEnv} {other : OwnerId} {frame : ClientFrame}
    (h : (s.routeClientFrame env other frame).1.activeOwners.get? ownerId = some binding') :
    ∃ binding, s.activeOwners.get? ownerId = some binding ∧ Continues binding binding' := by
  cases hother : s.activeOwners.get? other with
  | none =>
    rw [routeClientFrame_of_none s other env frame hother] at h
    exact ⟨binding', h, .refl _⟩
  | some binding =>
    rw [routeClientFrame_of_some s other env frame hother] at h
    dsimp only at h
    rw [OrderedMap.get?_set] at h
    split_ifs at h with howner
    · cases h
      exact ⟨binding, howner ▸ hother, continues_handle binding env frame⟩
    · exact ⟨binding', h, .refl _⟩

theorem get?_finishSessionReplacement
    (h : s.finishSessionReplacement.1.activeOwners.get? ownerId = some binding') :
    s.activeOwners.get? ownerId = some binding' := by
  unfold finishSessionReplacement at h
  split at h
  · exact h
  · split_ifs at h
    · exact h
    · cases h

/-- Where the bindings after a call come from. -/
theorem get?_apply {call : Call}
    (h : (s.apply call).1.activeOwners.get? ownerId = some binding') :
    Comes s call ownerId binding' := by
  cases call with
  | nothing => exact comes_of_same rfl h
  | attach relay other =>
    rcases get?_attachOwner h with ⟨hne, hget⟩ | ⟨rfl, session, hsession, rfl⟩
    · refine Or.inl ⟨binding', hget, fun relay' hrelay => ?_, .refl _⟩
      cases hrelay
      exact hne rfl
    · exact Or.inr ⟨relay, session, rfl, hsession, .refl _⟩
  | attachAndRoute relay other env frame =>
    obtain ⟨binding, hget, hcontinues⟩ := get?_routeClientFrame h
    rcases get?_attachOwner hget with ⟨hne, hget⟩ | ⟨rfl, session, hsession, rfl⟩
    · refine Or.inl ⟨binding, hget, fun relay' hrelay => ?_, hcontinues⟩
      cases hrelay
      exact hne rfl
    · exact Or.inr ⟨relay, session, rfl, hsession, hcontinues⟩
  | route other env frame =>
    obtain ⟨binding, hget, hcontinues⟩ := get?_routeClientFrame h
    refine Or.inl ⟨binding, hget, fun _ hrelay => ?_, hcontinues⟩
    cases hrelay
  | close other =>
    have h : (s.closeOwner other).1.activeOwners.get? ownerId = some binding' := h
    rw [closeOwner_eq] at h
    exact comes_of_same rfl (OrderedMap.get?_of_sublist List.filter_sublist h)
  | detachAll reason => cases reason <;> cases h
  | sessionStart session generation =>
    refine comes_of_same rfl ?_
    have h : (s.sessionStart session generation).1.activeOwners.get? ownerId = some binding' := h
    unfold sessionStart at h
    dsimp only at h
    split_ifs at h
    · exact h
    · exact @get?_finishSessionReplacement { s with
        currentSession := some session
        timelineGeneration := generation } _ _ h
  | sessionTree env generation =>
    have h : (s.sessionTree env generation).1.activeOwners.get? ownerId = some binding' := h
    unfold sessionTree at h
    dsimp only at h
    rw [OrderedMap.get?_mapValues] at h
    obtain ⟨binding, hget, rfl⟩ := Option.map_eq_some_iff.mp h
    refine Or.inl ⟨binding, hget, fun _ hrelay => ?_,
      continues_resetBinding env generation _ ownerId binding⟩
    cases hrelay
  | sessionShutdown => exact comes_of_same rfl h
  | sessionNewStart => exact comes_of_same rfl h
  | sessionNewEnd =>
    exact comes_of_same rfl
      (@get?_finishSessionReplacement { s with sessionNewRunning := false } _ _ h)

theorem attachOwner_keeps {relay : RelayId} {other : OwnerId} (hne : ownerId ≠ other) :
    (s.attachOwner relay other).1.activeOwners.get? ownerId = s.activeOwners.get? ownerId := by
  cases hsession : s.currentSession with
  | none =>
    rw [attachOwner_of_none s relay other hsession]
    exact OrderedMap.get?_erase_of_ne _ hne
  | some session =>
    rw [attachOwner_of_session s relay other hsession]
    dsimp only
    rw [OrderedMap.get?_set_of_ne _ _ hne, OrderedMap.get?_erase_of_ne _ hne]

theorem routeClientFrame_keeps (env : ServiceEnv) (other : OwnerId) (frame : ClientFrame)
    (h : s.activeOwners.get? ownerId = some binding) :
    ∃ binding', (s.routeClientFrame env other frame).1.activeOwners.get? ownerId = some binding' ∧
      Continues binding binding' := by
  cases hother : s.activeOwners.get? other with
  | none =>
    rw [routeClientFrame_of_none s other env frame hother]
    exact ⟨binding, h, .refl _⟩
  | some found =>
    rw [routeClientFrame_of_some s other env frame hother]
    dsimp only
    rw [OrderedMap.get?_set]
    split_ifs with howner
    · rw [howner, hother] at h
      cases h
      exact ⟨_, rfl, continues_handle binding env frame⟩
    · exact ⟨binding, h, .refl _⟩

theorem finishSessionReplacement_keeps (h : s.activeOwners.get? ownerId = some binding) :
    s.finishSessionReplacement.1.activeOwners.get? ownerId = some binding ∨
      .detached ownerId binding.id .sessionReplaced ∈ s.finishSessionReplacement.2 := by
  unfold finishSessionReplacement
  split
  · exact Or.inl h
  · split_ifs
    · exact Or.inl h
    · refine Or.inr (List.mem_flatMap.mpr ⟨_, OrderedMap.mem_entries_iff.mpr h, ?_⟩)
      simp

/-- A binding goes on after a call, or its owner is detached or attached anew. -/
theorem apply_keeps (call : Call) (h : s.activeOwners.get? ownerId = some binding) :
    (∃ binding', (s.apply call).1.activeOwners.get? ownerId = some binding' ∧
        Continues binding binding') ∨
      (∃ cause, cause ≠ .attach ∧ .detached ownerId binding.id cause ∈ (s.apply call).2) ∨
        ∃ relay, call.attaches = some (relay, ownerId) := by
  cases call with
  | nothing => exact Or.inl ⟨binding, h, .refl _⟩
  | attach relay other =>
    by_cases howner : ownerId = other
    · exact Or.inr (Or.inr ⟨relay, by rw [howner]; rfl⟩)
    · exact Or.inl ⟨binding, (attachOwner_keeps howner).trans h, .refl _⟩
  | attachAndRoute relay other env frame =>
    by_cases howner : ownerId = other
    · exact Or.inr (Or.inr ⟨relay, by rw [howner]; rfl⟩)
    · exact Or.inl (routeClientFrame_keeps env other frame ((attachOwner_keeps howner).trans h))
  | route other env frame => exact Or.inl (routeClientFrame_keeps env other frame h)
  | close other =>
    show (∃ binding', (s.closeOwner other).1.activeOwners.get? ownerId = some binding' ∧ _) ∨
      (∃ cause, _ ∧ .detached ownerId binding.id cause ∈ (s.closeOwner other).2) ∨ _
    rw [closeOwner_eq]
    by_cases howner : ownerId = other
    · subst howner
      refine Or.inr (Or.inl ⟨.revoked, by decide, ?_⟩)
      rw [h]
      simp
    · exact Or.inl ⟨binding, (OrderedMap.get?_erase_of_ne _ howner).trans h, .refl _⟩
  | detachAll reason =>
    have hmem : .detached ownerId binding.id .disconnected ∈
        s.activeOwners.entries.map fun entry : OwnerId × OwnerBinding =>
          HostEvent.detached entry.1 entry.2.id .disconnected :=
      List.mem_map.mpr ⟨_, OrderedMap.mem_entries_iff.mpr h, rfl⟩
    refine Or.inr (Or.inl ⟨.disconnected, by decide, ?_⟩)
    cases reason with
    | none => exact hmem
    | some reason => exact List.mem_append_right _ hmem
  | sessionStart session generation =>
    show (∃ binding', (s.sessionStart session generation).1.activeOwners.get? ownerId =
      some binding' ∧ _) ∨ (∃ cause, _ ∧ .detached ownerId binding.id cause ∈
        (s.sessionStart session generation).2) ∨ _
    unfold sessionStart
    dsimp only
    split_ifs
    · exact Or.inl ⟨binding, h, .refl _⟩
    · rcases @finishSessionReplacement_keeps { s with
          currentSession := some session
          timelineGeneration := generation } _ _ h with hkeeps | hdetached
      · exact Or.inl ⟨binding, hkeeps, .refl _⟩
      · exact Or.inr (Or.inl ⟨.sessionReplaced, by decide, hdetached⟩)
  | sessionTree env generation =>
    refine Or.inl ⟨_, ?_, continues_resetBinding env generation .branchChanged ownerId binding⟩
    show (s.activeOwners.mapValues _).get? ownerId = _
    rw [OrderedMap.get?_mapValues, h]
    rfl
  | sessionShutdown => exact Or.inl ⟨binding, h, .refl _⟩
  | sessionNewStart => exact Or.inl ⟨binding, h, .refl _⟩
  | sessionNewEnd =>
    rcases @finishSessionReplacement_keeps { s with sessionNewRunning := false } _ _ h with
      hkeeps | hdetached
    · exact Or.inl ⟨binding, hkeeps, .refl _⟩
    · exact Or.inr (Or.inl ⟨.sessionReplaced, by decide, hdetached⟩)

end Bindings

end Owners

end RemotePi.Host
