import RemotePi.Host.RelayRuns
import RemotePi.Host.System

/-!
# The owner list of the relay

The relay routes the owners of the last list that the host has sent to it: in the hello of a
connect (`hostConnectOptions`, `pi-extension/src/index.ts`, lines 424–432) or in an endpoint
update (lines 144–163). The file changes behind the list, and every change asks for an
update; but an update without an active client is skipped, and after an initial connect
`onConnected` (lines 192–196) does not ask for one.

`Announced` is the invariant: the list is that of the file, or an update is due that will
reach the client.

Results:
* `Announced.move`: every step keeps it, where an initial connect finds its hello kept.
* `ownerLists_agree`: at rest the list of an active client is that of the file.
* `not_inForce_of_hello`: what a hello that is not kept leaves at rest.
* `stale_hello`: a revocation during the initial connect leaves the owner in the list.
-/

namespace RemotePi.Host

open RemotePi.Lib RemotePi.Pairing RemotePi.Timeline

/-! ## Lists that are sent -/

/-- The list that an event sends to a relay. -/
def HostEvent.ownerListTo (relay : RelayId) : HostEvent → Option (List String)
  | .hello client authorizedOwnerIds => if client = relay then some authorizedOwnerIds else none
  | .endpointUpdate client authorizedOwnerIds =>
    if client = relay then some authorizedOwnerIds else none
  | _ => none

/-- The last list sent to a relay. -/
def lastOwnerList (relay : RelayId) (log : List HostEvent) : Option (List String) :=
  (log.filterMap (HostEvent.ownerListTo relay)).getLast?

/-- The list names the owners of the file. -/
def Names (file : PeersFile) (authorizedOwnerIds : List String) : Prop :=
  ∀ key, key ∈ authorizedOwnerIds ↔ Recorded file key

/-- The last list sent to a relay names the owners of the file. -/
def InForce (file : PeersFile) (relay : RelayId) (log : List HostEvent) : Prop :=
  ∃ authorizedOwnerIds, lastOwnerList relay log = some authorizedOwnerIds ∧
    Names file authorizedOwnerIds

theorem names_authorizedOwnerIds (file : PeersFile) : Names file (authorizedOwnerIds file) :=
  fun _ => mem_authorizedOwnerIds

section Lists

variable {relay : RelayId} {log events : List HostEvent}

theorem lastOwnerList_append (relay : RelayId) (log events : List HostEvent) :
    lastOwnerList relay (log ++ events) =
      (lastOwnerList relay events).or (lastOwnerList relay log) := by
  unfold lastOwnerList
  rw [List.filterMap_append, List.getLast?_append]

/-- Events that send no list. -/
def NoLists (events : List HostEvent) : Prop := ∀ relay, ∀ e ∈ events, e.ownerListTo relay = none

theorem noLists_nil : NoLists [] := fun _ _ he => by cases he

theorem noLists_singleton {event : HostEvent} (h : ∀ relay, event.ownerListTo relay = none) :
    NoLists [event] := by
  intro relay e he
  obtain rfl := List.mem_singleton.mp he
  exact h relay

theorem NoLists.append (h : NoLists log) (h' : NoLists events) : NoLists (log ++ events) := by
  intro relay e he
  rcases List.mem_append.mp he with he | he
  · exact h relay e he
  · exact h' relay e he

theorem NoLists.lastOwnerList (h : NoLists events) (relay : RelayId) (log : List HostEvent) :
    lastOwnerList relay (log ++ events) = lastOwnerList relay log := by
  have hnone : events.filterMap (HostEvent.ownerListTo relay) = [] :=
    List.filterMap_eq_nil_iff.mpr (h relay)
  rw [lastOwnerList_append, RemotePi.Host.lastOwnerList, hnone, List.getLast?_nil,
    Option.none_or]

theorem InForce.noLists {file : PeersFile} (h : InForce file relay log) (hnone : NoLists events) :
    InForce file relay (log ++ events) := by
  obtain ⟨owners, hlast, hnames⟩ := h
  exact ⟨owners, (hnone.lastOwnerList relay log).trans hlast, hnames⟩

theorem lastOwnerList_hello (relay : RelayId) (owners : List String) (log : List HostEvent) :
    lastOwnerList relay (log ++ [.hello relay owners]) = some owners := by
  rw [lastOwnerList_append]
  simp [lastOwnerList, HostEvent.ownerListTo]

theorem lastOwnerList_endpointUpdate (relay : RelayId) (owners : List String)
    (h : NoLists events) (log : List HostEvent) :
    lastOwnerList relay (log ++ .endpointUpdate relay owners :: events) = some owners := by
  have happend : log ++ .endpointUpdate relay owners :: events =
      (log ++ [.endpointUpdate relay owners]) ++ events := by simp
  rw [happend, h.lastOwnerList, lastOwnerList_append]
  simp [lastOwnerList, HostEvent.ownerListTo]

end Lists

/-! ## The calls on the owners send no list -/

namespace Owners

variable (s : Owners)

theorem noLists_detached (entries : List (OwnerId × OwnerBinding)) (cause : DetachCause) :
    NoLists (entries.map fun entry => .detached entry.1 entry.2.id cause) := by
  intro relay e he
  obtain ⟨entry, -, rfl⟩ := List.mem_map.mp he
  rfl

theorem noLists_attachOwner (relay : RelayId) (ownerId : OwnerId) :
    NoLists (s.attachOwner relay ownerId).2.2 := by
  have hdetached : NoLists ((s.activeOwners.get? ownerId).toList.map fun binding =>
      .detached ownerId binding.id .attach) := by
    intro relay e he
    obtain ⟨binding, -, rfl⟩ := List.mem_map.mp he
    rfl
  cases hsession : s.currentSession with
  | none =>
    rw [attachOwner_of_none s relay ownerId hsession]
    exact hdetached
  | some session =>
    rw [attachOwner_of_session s relay ownerId hsession]
    exact hdetached.append (noLists_singleton fun _ => rfl)

theorem noLists_routeClientFrame (env : ServiceEnv) (ownerId : OwnerId) (frame : ClientFrame) :
    NoLists (s.routeClientFrame env ownerId frame).2 := by
  cases hget : s.activeOwners.get? ownerId with
  | none =>
    rw [routeClientFrame_of_none s ownerId env frame hget]
    exact noLists_nil
  | some binding =>
    rw [routeClientFrame_of_some s ownerId env frame hget]
    exact noLists_singleton fun _ => rfl

theorem noLists_finishSessionReplacement : NoLists s.finishSessionReplacement.2 := by
  unfold finishSessionReplacement
  split
  · exact noLists_nil
  · split_ifs
    · exact noLists_nil
    · intro relay e he
      obtain ⟨entry, -, he⟩ := List.mem_flatMap.mp he
      rcases List.mem_cons.mp he with rfl | he
      · rfl
      · obtain rfl := List.mem_singleton.mp he
        rfl

theorem noLists_sayBye (reason : ByeReason) : NoLists (s.sayBye reason).2 := by
  intro relay e he
  obtain ⟨entry, -, rfl⟩ := List.mem_map.mp he
  rfl

theorem noLists_closeOwner (ownerId : OwnerId) : NoLists (s.closeOwner ownerId).2 := by
  rw [closeOwner_eq]
  intro relay e he
  obtain ⟨binding, -, he⟩ := List.mem_flatMap.mp he
  rcases List.mem_cons.mp he with rfl | he
  · rfl
  · obtain rfl := List.mem_singleton.mp he
    rfl

theorem noLists_sessionStart (session : Session) (generation : String) :
    NoLists (s.sessionStart session generation).2 := by
  unfold sessionStart
  dsimp only
  split_ifs
  · exact noLists_nil
  · exact noLists_finishSessionReplacement _

theorem noLists_sessionTree (env : ServiceEnv) (generation : String) :
    NoLists (s.sessionTree env generation).2 := by
  intro relay e he
  obtain ⟨entry, -, he⟩ := List.mem_flatMap.mp he
  obtain ⟨frame, -, rfl⟩ := List.mem_map.mp he
  rfl

end Owners

/-! ## Updates that are due -/

def Continuation.isAcl : Continuation → Bool
  | .acl _ _ => true
  | _ => false

/-- The caller of the mutation asks for an update, at once or after a rollback. -/
def Settled.announces : Settled → Bool
  | .added _ _ => true
  | .rolledBack _ => true
  | .removed _ => true
  | .addFailed _ => false
  | .removeFailed _ => false

/-- An update that has not begun sends its list to the client, or it makes its attempt roll
    back, which asks for an update again. -/
def EndpointUpdate.reaches (update : EndpointUpdate) (relay : RelayId) : Bool :=
  update.expectedRelay = none || update.expectedRelay = some relay || update.continuation.isAcl

namespace Extension

/-- The updates that have not begun. -/
def waitingUpdates (s : Extension) : List EndpointUpdate :=
  match s.updatePhase with
  | .idle => s.updates
  | _ => s.updates.tail

/-- An update that will reach the client has still to begin. -/
def Due (s : Extension) (relay : RelayId) : Prop :=
  (∃ attempt receipt, .rollback attempt receipt ∈ s.mutations) ∨
    (∃ settled ∈ s.settled, settled.announces = true) ∨
      ∃ update ∈ s.waitingUpdates, update.reaches relay = true

/-- The update that has begun sends the client the owners of the file, or it goes to another
    client and its attempt rolls back. -/
def UnderWay (s : Extension) (relay : RelayId) : Prop :=
  match s.updatePhase, s.updates with
  | .reading client, update :: _ => client = relay ∨ update.continuation.isAcl = true
  | .read client authorizedOwnerIds, update :: _ =>
    if client = relay then Names s.storage.file authorizedOwnerIds
    else update.continuation.isAcl = true
  | _, _ => False

/-- No mutation and no update is in flight. -/
def Resting (s : Extension) : Prop := s.mutations = [] ∧ s.settled = none ∧ s.updates = []

instance (s : Extension) : Decidable s.Resting := inferInstanceAs (Decidable (_ ∧ _ ∧ _))

/-- The list of a connected client is that of the file, or an update is due. -/
structure Announced (s : Extension) (log : List HostEvent) : Prop where
  lifecycle : s.lifecycle.Wf
  begun : s.updatePhase ≠ .idle → s.updates ≠ []
  read : ∀ client owners, s.updatePhase = .read client owners →
    Names s.storage.file owners ∨ s.Due client
  lists : ∀ relay, s.lifecycle.isCurrent relay = true → s.lifecycle.isOpen relay = true →
    InForce s.storage.file relay log ∨ s.Due relay ∨ s.UnderWay relay

section Due

variable {s s' : Extension} {relay : RelayId}

theorem due_of_rollback {attempt : PairingAttempt} {receipt : PeerWriteReceipt}
    (h : .rollback attempt receipt ∈ s.mutations) : s.Due relay := Or.inl ⟨attempt, receipt, h⟩

theorem due_of_settled {settled : Settled} (h : s.settled = some settled)
    (hannounces : settled.announces = true) : s.Due relay :=
  Or.inr (Or.inl ⟨settled, h, hannounces⟩)

theorem due_of_waiting {update : EndpointUpdate} (h : update ∈ s.waitingUpdates)
    (hreaches : update.reaches relay = true) : s.Due relay :=
  Or.inr (Or.inr ⟨update, h, hreaches⟩)

/-- What is due stays due, or it has led to something else that is. -/
theorem Due.mono (h : s.Due relay) (hmutations : ∀ mutation ∈ s.mutations, mutation ∈ s'.mutations)
    (hsettled : ∀ settled, s.settled = some settled → settled.announces = true → s'.Due relay)
    (hwaiting : ∀ update ∈ s.waitingUpdates, update.reaches relay = true → s'.Due relay) :
    s'.Due relay := by
  rcases h with ⟨attempt, receipt, hmem⟩ | ⟨settled, hmem, hannounces⟩ | ⟨update, hmem, hreaches⟩
  · exact due_of_rollback (hmutations _ hmem)
  · exact hsettled settled hmem hannounces
  · exact hwaiting update hmem hreaches

theorem Due.of_eq (h : s.Due relay) (hmutations : ∀ mutation ∈ s.mutations, mutation ∈ s'.mutations)
    (hsettled : s'.settled = s.settled) (hupdates : s'.updates = s.updates)
    (hphase : s'.updatePhase = s.updatePhase) : s'.Due relay := by
  refine h.mono hmutations (fun settled hsome => due_of_settled (hsettled.trans hsome))
    fun update hmem => due_of_waiting ?_
  unfold waitingUpdates at hmem ⊢
  rwa [hphase, hupdates]

theorem waitingUpdates_pushUpdate (hbegun : s.updatePhase ≠ .idle → s.updates ≠ [])
    (update : EndpointUpdate) :
    (s.pushUpdate update).waitingUpdates = s.waitingUpdates ++ [update] := by
  unfold waitingUpdates pushUpdate
  dsimp only
  cases hphase : s.updatePhase with
  | idle => rfl
  | _ => exact List.tail_append_of_ne_nil (hbegun (by rw [hphase]; nofun))

theorem Due.pushUpdate (h : s.Due relay) (hbegun : s.updatePhase ≠ .idle → s.updates ≠ [])
    (update : EndpointUpdate) : (s.pushUpdate update).Due relay := by
  refine h.mono (fun _ hmem => hmem) (fun settled hsome => due_of_settled hsome)
    fun other hmem => due_of_waiting ?_
  rw [waitingUpdates_pushUpdate hbegun]
  exact List.mem_append_left _ hmem

theorem due_pushUpdate (hbegun : s.updatePhase ≠ .idle → s.updates ≠ [])
    {update : EndpointUpdate} (hreaches : update.reaches relay = true) :
    (s.pushUpdate update).Due relay := by
  refine due_of_waiting ?_ hreaches
  rw [waitingUpdates_pushUpdate hbegun]
  exact List.mem_append_right _ (List.mem_singleton.mpr rfl)

theorem UnderWay.of_eq (h : s.UnderWay relay) (hfile : s'.storage.file = s.storage.file)
    (hupdates : s'.updates = s.updates) (hphase : s'.updatePhase = s.updatePhase) :
    s'.UnderWay relay := by
  unfold UnderWay at h ⊢
  rwa [hphase, hupdates, hfile]

theorem UnderWay.pushUpdate (h : s.UnderWay relay) (update : EndpointUpdate) :
    (s.pushUpdate update).UnderWay relay := by
  unfold UnderWay at h ⊢
  unfold Extension.pushUpdate
  dsimp only
  cases hphase : s.updatePhase with
  | idle =>
    rw [hphase] at h
    exact h.elim
  | reading client =>
    cases hupdates : s.updates with
    | nil =>
      rw [hphase, hupdates] at h
      exact h.elim
    | cons first rest =>
      rw [hphase, hupdates] at h
      exact h
  | read client owners =>
    cases hupdates : s.updates with
    | nil =>
      rw [hphase, hupdates] at h
      exact h.elim
    | cons first rest =>
      rw [hphase, hupdates] at h
      exact h

/-- At rest nothing is due. -/
theorem Resting.not_due (h : s.Resting) : ¬ s.Due relay := by
  obtain ⟨hmutations, hsettled, hupdates⟩ := h
  rintro (⟨attempt, receipt, hmem⟩ | ⟨settled, hmem, -⟩ | ⟨update, hmem, -⟩)
  · rw [hmutations] at hmem
    cases hmem
  · rw [hsettled] at hmem
    cases hmem
  · unfold waitingUpdates at hmem
    rw [hupdates] at hmem
    split at hmem <;> cases hmem

theorem Resting.not_underWay (h : s.Resting) : ¬ s.UnderWay relay := by
  obtain ⟨-, -, hupdates⟩ := h
  unfold UnderWay
  rw [hupdates]
  split
  · rename_i h
    cases h
  · rename_i h
    cases h
  · exact id

end Due

/-! ## Steps -/

section Steps

variable {s s' : Extension} {log events : List HostEvent}

/-- A step that leaves the relay, the file and the updates. -/
theorem Announced.frame (h : s.Announced log) (hlifecycle : s'.lifecycle = s.lifecycle)
    (hfile : s'.storage.file = s.storage.file)
    (hmutations : ∀ mutation ∈ s.mutations, mutation ∈ s'.mutations)
    (hsettled : s'.settled = s.settled) (hupdates : s'.updates = s.updates)
    (hphase : s'.updatePhase = s.updatePhase) (hnone : NoLists events) :
    s'.Announced (log ++ events) where
  lifecycle := hlifecycle ▸ h.lifecycle
  begun := by rw [hphase, hupdates]; exact h.begun
  read client owners hread := by
    rw [hphase] at hread
    rw [hfile]
    exact (h.read client owners hread).imp id fun hdue =>
      hdue.of_eq hmutations hsettled hupdates hphase
  lists relay hcurrent hopen := by
    rw [hlifecycle] at hcurrent hopen
    rw [hfile]
    rcases h.lists relay hcurrent hopen with hforce | hdue | hunder
    · exact Or.inl (hforce.noLists hnone)
    · exact Or.inr (Or.inl (hdue.of_eq hmutations hsettled hupdates hphase))
    · exact Or.inr (Or.inr (hunder.of_eq hfile hupdates hphase))

/-- A step after which an update of every client is due. -/
theorem Announced.due (h : s.Announced log) (hlifecycle : s'.lifecycle = s.lifecycle)
    (hbegun : s'.updatePhase ≠ .idle → s'.updates ≠ []) (hdue : ∀ relay, s'.Due relay) :
    s'.Announced (log ++ events) where
  lifecycle := hlifecycle ▸ h.lifecycle
  begun := hbegun
  read client _ _ := Or.inr (hdue client)
  lists relay _ _ := Or.inr (Or.inl (hdue relay))

/-- What the first mutation of the lane comes to. -/
theorem execute_settled (s : Extension) (writes : Bool) (mutation : Mutation)
    (rest : List Mutation) : ∃ settled, (s.execute writes mutation rest).settled = some settled ∧
      (settled.announces = true ∨
        (s.execute writes mutation rest).storage.file = s.storage.file ∧
          ∀ attempt receipt, mutation ≠ .rollback attempt receipt) := by
  unfold execute
  cases mutation with
  | add attempt =>
    dsimp only
    split_ifs
    · exact ⟨_, rfl, Or.inl rfl⟩
    · exact ⟨_, rfl, Or.inr ⟨rfl, fun _ _ heq => by cases heq⟩⟩
  | rollback attempt receipt => exact ⟨_, rfl, Or.inl rfl⟩
  | remove remoteEpk =>
    dsimp only
    split_ifs
    · exact ⟨_, rfl, Or.inr ⟨rfl, fun _ _ heq => by cases heq⟩⟩
    · exact ⟨_, rfl, Or.inl rfl⟩

theorem Announced.execute (h : s.Announced log) (writes : Bool) {mutation : Mutation}
    {rest : List Mutation} (hsettled : s.settled = none)
    (hmutations : s.mutations = mutation :: rest) :
    (s.execute writes mutation rest).Announced (log ++ []) := by
  obtain ⟨settled, hsome, hcase⟩ := execute_settled s writes mutation rest
  obtain ⟨storage, settled', hframe⟩ := execute_frame s writes mutation rest
  rw [hframe] at hsome hcase ⊢
  rcases hcase with hannounces | ⟨hfile, hkept⟩
  · exact h.due rfl h.begun fun relay => due_of_settled hsome hannounces
  · -- the mutation has failed: a rollback that was due is still there
    have hdue : ∀ relay, s.Due relay →
        { s with storage, settled := settled', mutations := rest }.Due relay := by
      rintro relay (⟨attempt, receipt, hmem⟩ | ⟨_, hmem, -⟩ | ⟨update, hmem, hreaches⟩)
      · rw [hmutations] at hmem
        exact due_of_rollback ((List.mem_cons.mp hmem).resolve_left fun heq => hkept _ _ heq.symm)
      · rw [hsettled] at hmem
        cases hmem
      · exact due_of_waiting hmem hreaches
    have hfile : storage.file = s.storage.file := hfile
    refine ⟨h.lifecycle, h.begun, fun client owners hread => ?_, fun relay hcurrent hopen => ?_⟩
    · exact (h.read client owners hread).imp (fun hnames => hfile ▸ hnames) (hdue client)
    · rw [List.append_nil]
      rcases h.lists relay hcurrent hopen with hforce | hwas | hunder
      · exact Or.inl (hfile ▸ hforce)
      · exact Or.inr (Or.inl (hdue relay hwas))
      · exact Or.inr (Or.inr (hunder.of_eq hfile rfl rfl))

theorem noLists_settle (s : Extension) (settled : Settled) : NoLists (s.settle settled).2 := by
  unfold settle
  cases settled with
  | added attempt receipt =>
    dsimp only
    split_ifs <;> exact noLists_nil
  | addFailed attempt =>
    dsimp only
    split_ifs
    · exact noLists_singleton fun _ => rfl
    · exact noLists_nil
  | rolledBack attempt => exact noLists_nil
  | removed remoteEpk =>
    dsimp only
    split
    · exact noLists_nil
    · exact Owners.noLists_closeOwner _ _
  | removeFailed remoteEpk => exact noLists_nil

/-- The caller of an announcing mutation asks for its update. -/
theorem due_settle (hbegun : s.updatePhase ≠ .idle → s.updates ≠ []) {settled : Settled}
    (hannounces : settled.announces = true) (relay : RelayId) :
    (s.settle settled).1.Due relay := by
  unfold settle
  cases settled with
  | added attempt receipt =>
    dsimp only
    split_ifs
    · refine @due_pushUpdate { s with settled := none } relay hbegun _ ?_
      simp [EndpointUpdate.reaches, Continuation.isAcl]
    · exact due_of_rollback (List.mem_append_right _ (List.mem_singleton.mpr rfl))
  | addFailed attempt => cases hannounces
  | rolledBack attempt => exact @due_pushUpdate { s with settled := none } relay hbegun _ rfl
  | removed remoteEpk =>
    dsimp only
    split
    · exact @due_pushUpdate { s with settled := none } relay hbegun _ rfl
    · rename_i ownerId _
      exact @due_pushUpdate { s with
        settled := none
        owners := (s.owners.closeOwner ownerId).1 } relay hbegun _ rfl
  | removeFailed remoteEpk => cases hannounces

theorem Announced.settle (h : s.Announced log) {settled : Settled}
    (hsettled : s.settled = some settled) :
    (s.settle settled).1.Announced (log ++ (s.settle settled).2) := by
  obtain ⟨_, _, _, _, _, hframe⟩ := settle_frame s settled
  have hlifecycle : (s.settle settled).1.lifecycle = s.lifecycle := by rw [hframe]
  cases hannounces : settled.announces with
  | true =>
    refine h.due hlifecycle ?_ fun relay => due_settle h.begun hannounces relay
    intro hphase
    have hbegun : s.updates ≠ [] := h.begun (by rw [hframe] at hphase; exact hphase)
    cases settled with
    | added attempt receipt =>
      unfold Extension.settle
      dsimp only
      split_ifs
      · exact List.append_ne_nil_of_left_ne_nil hbegun _
      · exact hbegun
    | addFailed attempt => exact hbegun
    | rolledBack attempt => exact List.append_ne_nil_of_left_ne_nil hbegun _
    | removed remoteEpk =>
      unfold Extension.settle
      dsimp only
      split <;> exact List.append_ne_nil_of_left_ne_nil hbegun _
    | removeFailed remoteEpk => exact hbegun
  | false =>
    -- nothing was due because of this mutation
    have hdue : ∀ relay, s.Due relay → (s.settle settled).1.mutations = s.mutations →
        (s.settle settled).1.updates = s.updates → (s.settle settled).1.Due relay := by
      intro relay hwas hmutations hupdates
      refine hwas.mono (fun mutation hmem => by rwa [hmutations]) (fun other hsome hother => ?_)
        fun update hmem => due_of_waiting ?_
      · rw [hsettled] at hsome
        cases hsome
        rw [hannounces] at hother
        cases hother
      · unfold waitingUpdates at hmem ⊢
        rwa [hupdates, show (s.settle settled).1.updatePhase = s.updatePhase by rw [hframe]]
    have hkept : (s.settle settled).1.mutations = s.mutations ∧
        (s.settle settled).1.updates = s.updates ∧
        (s.settle settled).1.storage = s.storage ∧
        (s.settle settled).1.updatePhase = s.updatePhase := by
      cases settled with
      | addFailed attempt => exact ⟨rfl, rfl, rfl, rfl⟩
      | removeFailed remoteEpk => exact ⟨rfl, rfl, rfl, rfl⟩
      | _ => cases hannounces
    obtain ⟨hmutations, hupdates, hstorage, hphase⟩ := hkept
    refine ⟨hlifecycle ▸ h.lifecycle, ?_, fun client owners hread => ?_,
      fun relay hcurrent hopen => ?_⟩
    · rw [hphase, hupdates]
      exact h.begun
    · rw [hphase] at hread
      rw [hstorage]
      exact (h.read client owners hread).imp id fun hwas => hdue client hwas hmutations hupdates
    · rw [hlifecycle] at hcurrent hopen
      rw [hstorage]
      rcases h.lists relay hcurrent hopen with hforce | hwas | hunder
      · exact Or.inl (hforce.noLists (noLists_settle s settled))
      · exact Or.inr (Or.inl (hdue relay hwas hmutations hupdates))
      · exact Or.inr (Or.inr (hunder.of_eq (by rw [hstorage]) hupdates hphase))

theorem noLists_completeUpdate (s : Extension) (continuation : Continuation)
    (rest : List EndpointUpdate) (sent : Bool) :
    NoLists (s.completeUpdate continuation rest sent).2 := by
  unfold completeUpdate
  cases continuation with
  | nothing => exact noLists_nil
  | acl attempt receipt =>
    dsimp only
    split_ifs
    · exact noLists_nil
    · split
      · exact noLists_nil
      · exact noLists_singleton fun _ => rfl
  | refresh attempt => exact noLists_nil
  | revoked remoteEpk => exact noLists_singleton fun _ => rfl

/-- An update that ends keeps the mutations, and an attempt whose list was not sent rolls
    back. -/
theorem mutations_completeUpdate (s : Extension) (continuation : Continuation)
    (rest : List EndpointUpdate) (sent : Bool) :
    (∀ mutation ∈ s.mutations, mutation ∈ (s.completeUpdate continuation rest sent).1.mutations) ∧
      (continuation.isAcl = true → sent = false → ∃ attempt receipt,
        .rollback attempt receipt ∈ (s.completeUpdate continuation rest sent).1.mutations) := by
  unfold completeUpdate
  cases continuation with
  | nothing => exact ⟨fun _ hmem => hmem, fun hacl => by cases hacl⟩
  | acl attempt receipt =>
    have hrolled : ∀ mutations : List Mutation,
        .rollback attempt receipt ∈ mutations ++ [.rollback attempt receipt] :=
      fun _ => List.mem_append_right _ (List.mem_singleton.mpr rfl)
    dsimp only
    split_ifs with hsent
    · exact ⟨fun _ hmem => List.mem_append_left _ hmem, fun _ _ => ⟨_, _, hrolled _⟩⟩
    · have hkept : sent ≠ false := by
        rintro rfl
        exact hsent rfl
      split
      · exact ⟨fun _ hmem => List.mem_append_left _ hmem, fun _ _ => ⟨_, _, hrolled _⟩⟩
      · exact ⟨fun _ hmem => hmem, fun _ hfalse => absurd hfalse hkept⟩
  | refresh attempt => exact ⟨fun _ hmem => hmem, fun hacl => by cases hacl⟩
  | revoked remoteEpk => exact ⟨fun _ hmem => hmem, fun hacl => by cases hacl⟩

/-- The first update ends without its list: what was due besides it is still due. -/
theorem Due.completeUpdate {relay : RelayId} {update : EndpointUpdate}
    {rest : List EndpointUpdate} (h : s.Due relay) (hupdates : s.updates = update :: rest)
    (sent : Bool) (hfirst : s.updatePhase = .idle → update.reaches relay = true →
      (s.completeUpdate update.continuation rest sent).1.Due relay) :
    (s.completeUpdate update.continuation rest sent).1.Due relay := by
  obtain ⟨qr, attempts, mutations, hframe⟩ :=
    completeUpdate_frame s update.continuation rest sent
  have hrest : ∀ other ∈ rest, other.reaches relay = true →
      (s.completeUpdate update.continuation rest sent).1.Due relay := by
    intro other hmem hreaches
    refine due_of_waiting ?_ hreaches
    rw [hframe]
    exact hmem
  refine h.mono (mutations_completeUpdate s update.continuation rest sent).1
    (fun settled hsome => due_of_settled (by rw [hframe]; exact hsome))
    fun other hmem hreaches => ?_
  unfold waitingUpdates at hmem
  rw [hupdates] at hmem
  split at hmem
  · rename_i hidle
    rcases List.mem_cons.mp hmem with rfl | hmem
    · exact hfirst hidle hreaches
    · exact hrest other hmem hreaches
  · exact hrest other hmem hreaches

/-- The first update ends; `hlists` says what it has done for the connected client. -/
theorem Announced.completeUpdate (h : s.Announced log) (continuation : Continuation)
    (rest : List EndpointUpdate) (sent : Bool)
    (hlists : ∀ relay, s.lifecycle.isCurrent relay = true → s.lifecycle.isOpen relay = true →
      InForce s.storage.file relay (log ++ events) ∨
        (s.completeUpdate continuation rest sent).1.Due relay) :
    (s.completeUpdate continuation rest sent).1.Announced (log ++ events) := by
  obtain ⟨qr, attempts, mutations, hframe⟩ := completeUpdate_frame s continuation rest sent
  rw [hframe] at hlists ⊢
  refine ⟨h.lifecycle, fun hphase => absurd rfl hphase, fun client owners hread => ?_,
    fun relay hcurrent hopen => (hlists relay hcurrent hopen).imp id Or.inl⟩
  cases hread

theorem Announced.startUpdate (h : s.Announced log) {update : EndpointUpdate}
    {rest : List EndpointUpdate} (hphase : s.updatePhase = .idle)
    (hupdates : s.updates = update :: rest) :
    (s.startUpdate update rest).1.Announced (log ++ (s.startUpdate update rest).2) := by
  have hidle : ∀ relay, ¬ s.UnderWay relay := by
    intro relay
    unfold UnderWay
    rw [hphase]
    exact id
  -- the update finds no connected client: none is connected, or a rollback is due
  have hmissed : (∀ relay, s.lifecycle.isCurrent relay = true → s.lifecycle.isOpen relay = true →
      update.expectedRelay.or s.lifecycle.activeRelay ≠ some relay) →
      (s.completeUpdate update.continuation rest false).1.Announced
        (log ++ (s.completeUpdate update.continuation rest false).2) := by
    intro hother
    refine h.completeUpdate _ rest false fun relay hcurrent hopen => ?_
    have hactive := (RelayLifecycle.isCurrent_iff.mp hcurrent).2.2
    have hne := hother relay hcurrent hopen
    rcases h.lists relay hcurrent hopen with hforce | hdue | hunder
    · exact Or.inl (hforce.noLists (noLists_completeUpdate s _ rest false))
    · refine Or.inr (hdue.completeUpdate hupdates false fun _ hreaches => ?_)
      unfold EndpointUpdate.reaches at hreaches
      rw [Bool.or_eq_true, Bool.or_eq_true, decide_eq_true_eq, decide_eq_true_eq] at hreaches
      rcases hreaches with (hnone | hsome) | hacl
      · rw [hnone, Option.none_or, hactive] at hne
        exact absurd rfl hne
      · rw [hsome, Option.some_or] at hne
        exact absurd rfl hne
      · obtain ⟨attempt, receipt, hmem⟩ :=
          (mutations_completeUpdate s update.continuation rest false).2 hacl rfl
        exact due_of_rollback hmem
    · exact absurd hunder (hidle relay)
  unfold Extension.startUpdate
  split
  · rename_i hnone
    refine hmissed fun relay _ _ => ?_
    rw [hnone]
    nofun
  · rename_i client hclient
    split_ifs with hfound
    · rw [Bool.and_eq_true] at hfound
      refine ⟨h.lifecycle, fun _ => ?_, fun _ _ hread => ?_, fun relay hcurrent hopen => ?_⟩
      · show s.updates ≠ []
        rw [hupdates]
        nofun
      · cases hread
      · right
        right
        unfold UnderWay
        dsimp only
        rw [hupdates]
        exact Or.inl (eq_of_isCurrent hcurrent hfound.2)
    · refine hmissed fun relay hcurrent hopen heq => hfound ?_
      rw [hclient] at heq
      cases heq
      rw [hcurrent, hopen]
      rfl

theorem Announced.readUpdate (h : s.Announced log) {client : RelayId}
    (hphase : s.updatePhase = .reading client) :
    { s with updatePhase := .read client (authorizedOwnerIds s.storage.file) }.Announced
      (log ++ []) := by
  have hwaiting : { s with
      updatePhase := .read client (authorizedOwnerIds s.storage.file) }.waitingUpdates =
        s.waitingUpdates := by
    unfold waitingUpdates
    rw [hphase]
  have hbegun : s.updates ≠ [] := h.begun (by rw [hphase]; nofun)
  refine ⟨h.lifecycle, fun _ => hbegun, fun client' owners hread => ?_,
    fun relay hcurrent hopen => ?_⟩
  · obtain ⟨rfl, rfl⟩ : client = client' ∧ authorizedOwnerIds s.storage.file = owners := by
      injection hread with hclient howners
      exact ⟨hclient, howners⟩
    exact Or.inl (names_authorizedOwnerIds _)
  · rw [List.append_nil]
    rcases h.lists relay hcurrent hopen with hforce | hdue | hunder
    · exact Or.inl hforce
    · refine Or.inr (Or.inl (hdue.mono (fun _ hmem => hmem)
        (fun _ hsome => due_of_settled hsome) fun update hmem => due_of_waiting ?_))
      rwa [hwaiting]
    · right
      right
      unfold UnderWay at hunder ⊢
      rw [hphase] at hunder
      cases hupdates : s.updates with
      | nil => exact absurd hupdates hbegun
      | cons update rest =>
        rw [hupdates] at hunder
        dsimp only at hunder ⊢
        split_ifs with hclient
        · exact names_authorizedOwnerIds _
        · exact hunder.resolve_left hclient

theorem Announced.finishUpdate (h : s.Announced log) (written : Bool) {client : RelayId}
    {owners : List String} {update : EndpointUpdate} {rest : List EndpointUpdate}
    (hphase : s.updatePhase = .read client owners) (hupdates : s.updates = update :: rest)
    (hsends : written = false →
      ¬ (s.lifecycle.isCurrent client = true ∧ s.lifecycle.isOpen client = true)) :
    (s.finishUpdate client owners update rest written).1.Announced
      (log ++ (s.finishUpdate client owners update rest written).2) := by
  have hbusy : s.updatePhase ≠ .idle := by
    rw [hphase]
    nofun
  unfold Extension.finishUpdate
  split_ifs with hsent
  · rw [Bool.and_eq_true, Bool.and_eq_true] at hsent
    refine h.completeUpdate _ rest true fun relay hcurrent hopen => ?_
    obtain rfl : client = relay := eq_of_isCurrent hcurrent hsent.1.1
    rcases h.read client owners hphase with hnames | hdue
    · exact Or.inl ⟨owners, lastOwnerList_endpointUpdate client owners
        (noLists_completeUpdate s _ rest true) log, hnames⟩
    · exact Or.inr (hdue.completeUpdate hupdates true fun hidle => absurd hidle hbusy)
  · refine h.completeUpdate _ rest false fun relay hcurrent hopen => ?_
    rcases h.lists relay hcurrent hopen with hforce | hdue | hunder
    · exact Or.inl (hforce.noLists (noLists_completeUpdate s _ rest false))
    · exact Or.inr (hdue.completeUpdate hupdates false fun hidle => absurd hidle hbusy)
    · unfold UnderWay at hunder
      rw [hphase, hupdates] at hunder
      dsimp only at hunder
      split_ifs at hunder with hclient
      · -- the socket of the connected client has refused the list
        subst hclient
        refine absurd ⟨hcurrent, hopen⟩ (hsends (Bool.eq_false_iff.mpr fun hwritten => hsent ?_))
        rw [hcurrent, hopen, hwritten]
        rfl
      · obtain ⟨attempt, receipt, hmem⟩ :=
          (mutations_completeUpdate s update.continuation rest false).2 hunder rfl
        exact Or.inr (due_of_rollback hmem)

/-- A step after which no client is connected. -/
theorem Announced.left (h : s.Announced log) (hwf : s'.lifecycle.Wf)
    (hactive : s'.lifecycle.activeRelay = none) (hstorage : s'.storage = s.storage)
    (hmutations : s'.mutations = s.mutations) (hsettled : s'.settled = s.settled)
    (hupdates : s'.updates = s.updates) (hphase : s'.updatePhase = s.updatePhase) :
    s'.Announced events where
  lifecycle := hwf
  begun := by rw [hphase, hupdates]; exact h.begun
  read client owners hread := by
    rw [hphase] at hread
    rw [hstorage]
    exact (h.read client owners hread).imp id fun hdue =>
      hdue.of_eq (fun _ hmem => by rwa [hmutations]) hsettled hupdates hphase
  lists relay hcurrent _ := by
    rw [(RelayLifecycle.isCurrent_iff.mp hcurrent).2.2] at hactive
    cases hactive

/-- A step of the lifecycle; an initial connect finds its hello kept. -/
theorem Announced.lifecycleEvent (h : s.Announced log) {label : LifecycleLabel}
    {lifecycle : RelayLifecycle} {event : LifecycleEvent}
    (hlabel : ∀ value, label ≠ .setDisposed value)
    (hstep : s.lifecycle.step s.storage.file label = some (lifecycle, event))
    (hkept : ∀ client owners, event = .connected client true owners →
      Names s.storage.file owners ∨ s.Due client ∨ s.UnderWay client) :
    ({ s with lifecycle }.onLifecycleEvent event).1.Announced
      (log ++ ({ s with lifecycle }.onLifecycleEvent event).2) := by
  have hwf := h.lifecycle.step hstep
  rcases RelayLifecycle.step_cases hlabel hstep with
    ⟨client, ctx, owners, rfl, hactive⟩ | ⟨rfl, hactive⟩ | ⟨rfl, hcalm⟩
  · have hclient : ∀ relay, lifecycle.isCurrent relay = true → client = relay := by
      intro relay hcurrent
      rw [(RelayLifecycle.isCurrent_iff.mp hcurrent).2.2] at hactive
      exact (Option.some.inj hactive).symm
    cases ctx with
    | true =>
      have hdue : ∀ relay, s.Due relay → { s with lifecycle }.Due relay :=
        fun relay hdue => hdue.of_eq (fun _ hmem => hmem) rfl rfl rfl
      refine ⟨hwf, h.begun, fun client' owners' hread => ?_, fun relay hcurrent _ => ?_⟩
      · exact (h.read client' owners' hread).imp id (hdue client')
      · obtain rfl := hclient relay hcurrent
        rcases hkept client owners rfl with hnames | hwas | hunder
        · exact Or.inl ⟨owners, lastOwnerList_hello client owners log, hnames⟩
        · exact Or.inr (Or.inl (hdue client hwas))
        · exact Or.inr (Or.inr (hunder.of_eq rfl rfl rfl))
    | false =>
      have hdue : ∀ relay, s.Due relay →
          ({ s with lifecycle }.pushUpdate ⟨some client, .nothing⟩).Due relay := by
        intro relay hwas
        have hsame : { s with lifecycle }.Due relay := hwas.of_eq (fun _ hmem => hmem) rfl rfl rfl
        exact hsame.pushUpdate h.begun _
      refine ⟨hwf, fun hphase => ?_, fun client' owners' hread => ?_, fun relay hcurrent _ => ?_⟩
      · exact List.append_ne_nil_of_left_ne_nil (h.begun hphase) _
      · exact (h.read client' owners' hread).imp id (hdue client')
      · obtain rfl := hclient relay hcurrent
        refine Or.inr (Or.inl (@due_pushUpdate { s with lifecycle } client h.begun _ ?_))
        simp [EndpointUpdate.reaches]
  · exact h.left hwf hactive rfl rfl rfl rfl rfl
  · refine ⟨hwf, h.begun, fun client owners hread => ?_, fun relay hcurrent hopen => ?_⟩
    · exact (h.read client owners hread).imp id fun hdue =>
        hdue.of_eq (fun _ hmem => hmem) rfl rfl rfl
    · show InForce s.storage.file relay (log ++ []) ∨ _
      rw [List.append_nil]
      rcases h.lists relay (hcalm.isCurrent h.lifecycle hcurrent) (hcalm.opened relay hopen) with
        hforce | hdue | hunder
      · exact Or.inl hforce
      · exact Or.inr (Or.inl (hdue.of_eq (fun _ hmem => hmem) rfl rfl rfl))
      · exact Or.inr (Or.inr (hunder.of_eq rfl rfl rfl))

theorem noLists_handlePairRequest (s : Extension) (relay : RelayId) (ownerId : OwnerId)
    (request : PairRequest) (pairedAt : String) :
    NoLists (s.handlePairRequest relay ownerId request pairedAt).2 := by
  have hattached := Owners.noLists_attachOwner s.owners relay ownerId
  unfold handlePairRequest
  split_ifs
  · exact noLists_nil
  · exact noLists_nil
  · dsimp only
    split
    · exact noLists_singleton fun _ => rfl
    · exact noLists_singleton fun _ => rfl
    · exact noLists_singleton fun _ => rfl
    · split_ifs
      · exact noLists_singleton fun _ => rfl
      · exact hattached.append (noLists_singleton fun _ => rfl)
      · exact hattached
    · split
      · exact hattached
      · exact hattached

theorem mutations_handlePairRequest (s : Extension) (relay : RelayId) (ownerId : OwnerId)
    (request : PairRequest) (pairedAt : String) : ∀ mutation ∈ s.mutations,
      mutation ∈ (s.handlePairRequest relay ownerId request pairedAt).1.mutations := by
  intro mutation hmem
  unfold handlePairRequest
  split_ifs
  · exact hmem
  · exact hmem
  · dsimp only
    split
    · exact hmem
    · exact hmem
    · exact hmem
    · split_ifs <;> exact hmem
    · split
      · exact hmem
      · exact List.mem_append_left _ hmem

theorem Announced.handlePairRequest (h : s.Announced log) (relay : RelayId) (ownerId : OwnerId)
    (request : PairRequest) (pairedAt : String) :
    (s.handlePairRequest relay ownerId request pairedAt).1.Announced
      (log ++ (s.handlePairRequest relay ownerId request pairedAt).2) := by
  obtain ⟨_, _, _, _, _, hframe⟩ := handlePairRequest_frame s relay ownerId request pairedAt
  refine h.frame ?_ ?_ (mutations_handlePairRequest s relay ownerId request pairedAt) ?_ ?_ ?_
    (noLists_handlePairRequest s relay ownerId request pairedAt)
  all_goals rw [hframe]

theorem mutations_revoke (s : Extension) (shortId : String) :
    ∀ mutation ∈ s.mutations, mutation ∈ (s.revoke shortId).mutations := by
  intro mutation hmem
  unfold revoke
  dsimp only
  split_ifs
  · exact hmem
  · split
    · exact List.mem_append_left _ hmem
    · exact hmem

theorem noLists_onSessionFrame (s : Extension) (relay : RelayId) (ownerId : OwnerId)
    (frame : ClientFrame) (env : ServiceEnv) :
    NoLists (s.onSessionFrame relay ownerId frame env).2 := by
  unfold onSessionFrame
  split
  · split_ifs
    · have hrouted := Owners.noLists_routeClientFrame s.owners env ownerId frame
      exact NoLists.append (noLists_singleton fun _ => rfl) hrouted
    · exact noLists_nil
  · split_ifs
    · exact noLists_singleton fun _ => rfl
    · exact noLists_nil

theorem noLists_resolveOwner (s : Extension) (lookup : Lookup) (known : Bool) (env : ServiceEnv) :
    NoLists (s.resolveOwner lookup known env).2 := by
  unfold resolveOwner
  dsimp only
  split_ifs
  · exact noLists_nil
  · exact (Owners.noLists_attachOwner s.owners _ _).append (Owners.noLists_routeClientFrame _ _ _ _)

end Steps

/-! ## Runs -/

/-- Where an initial connect completes, its hello names the owners of the file, or an update
    is due that will reach the client. -/
def HelloKept (s : Extension × List HostEvent) (label : Label) : Prop :=
  ∀ inner lifecycle client owners, label = .lifecycle inner →
    s.1.lifecycle.step s.1.storage.file inner = some (lifecycle, .connected client true owners) →
      Names s.1.storage.file owners ∨ s.1.Due client ∨ s.1.UnderWay client

/-- A socket that is open takes what it is sent. -/
def SocketSends (s : Extension × List HostEvent) (label : Label) : Prop :=
  label = .finishUpdate false → ∀ client owners, s.1.updatePhase = .read client owners →
    ¬ (s.1.lifecycle.isCurrent client = true ∧ s.1.lifecycle.isOpen client = true)

/-- Every step keeps the list of a connected client, or has an update due. -/
theorem Announced.move {s s' : Extension} {log events : List HostEvent} {label : Label}
    (h : s.Announced log) (hkept : HelloKept (s, log) label)
    (hsends : SocketSends (s, log) label) (hmove : s.move label = some (s', events)) :
    s'.Announced (log ++ events) := by
  have hmoves := moves_of_move hmove
  generalize hresult : (s', events) = result at hmoves
  suffices hsuffices : result.1.Announced (log ++ result.2) by
    rw [← hresult] at hsuffices
    exact hsuffices
  have hframe : ∀ {t : Extension} {happened : List HostEvent}, t.lifecycle = s.lifecycle →
      t.storage = s.storage → t.mutations = s.mutations → t.settled = s.settled →
      t.updates = s.updates → t.updatePhase = s.updatePhase → NoLists happened →
      t.Announced (log ++ happened) := by
    intro t happened hlifecycle hstorage hmutations
    exact h.frame hlifecycle (by rw [hstorage]) fun _ hmem => by rwa [hmutations]
  cases hmoves with
  | tick ms => exact hframe rfl rfl rfl rfl rfl rfl noLists_nil
  | lifecycle hlabel hstep =>
    refine h.lifecycleEvent ?_ hstep fun client owners hevent => ?_
    · rintro (_ | _) rfl
      · exact hlabel (Or.inr (Or.inr rfl))
      · exact hlabel (Or.inr (Or.inl rfl))
    · rw [hevent] at hstep
      exact hkept _ _ client owners rfl hstep
  | stop =>
    obtain ⟨_, _, hstop⟩ := RelayLifecycle.stop_frame s.lifecycle
    exact h.left (RelayLifecycle.wf_stop h.lifecycle.connects) (congrArg (·.activeRelay) hstop)
      rfl rfl rfl rfl rfl
  | quit =>
    obtain ⟨_, _, hstop⟩ := RelayLifecycle.stop_frame { s.lifecycle with isDisposed := true }
    exact h.left (RelayLifecycle.wf_stop h.lifecycle.connects) (congrArg (·.activeRelay) hstop)
      rfl rfl rfl rfl rfl
  | sessionStart session hdrawn =>
    exact hframe rfl rfl rfl rfl rfl rfl (Owners.noLists_sessionStart _ _ _)
  | sessionTree env hdrawn =>
    exact hframe rfl rfl rfl rfl rfl rfl (Owners.noLists_sessionTree _ _ _)
  | sessionShutdown => exact hframe rfl rfl rfl rfl rfl rfl noLists_nil
  | sessionNewStart hidle => exact hframe rfl rfl rfl rfl rfl rfl noLists_nil
  | sessionNewEnd hrunning =>
    exact hframe rfl rfl rfl rfl rfl rfl (Owners.noLists_finishSessionReplacement _)
  | pairing relay ownerId id token deviceName env pairedAt =>
    exact h.handlePairRequest relay ownerId ⟨id, token, deviceName⟩ pairedAt
  | session relay ownerId env pairedAt hsession =>
    obtain ⟨_, _, _, hafter⟩ := onSessionFrame_frame s relay ownerId _ env
    refine hframe ?_ ?_ ?_ ?_ ?_ ?_ (noLists_onSessionFrame s relay ownerId _ env)
    all_goals rw [hafter]
  | misrouted relay ownerId env pairedAt hmisrouted =>
    exact hframe rfl rfl rfl rfl rfl rfl noLists_nil
  | readOwner hfind => exact hframe rfl rfl rfl rfl rfl rfl noLists_nil
  | resolveOwner env hfind hknown =>
    obtain ⟨_, hafter⟩ := resolveOwner_frame s _ _ env
    refine hframe ?_ ?_ ?_ ?_ ?_ ?_ (noLists_resolveOwner s _ _ env)
    all_goals rw [hafter]
  | resumePair pairedAt hwaiting hfree =>
    rename_i waiting
    have hwaits : { s with waiting := s.waiting.erase waiting }.Announced log := by
      have hsame := @hframe { s with waiting := s.waiting.erase waiting } [] rfl rfl rfl rfl rfl
        rfl noLists_nil
      rwa [List.append_nil] at hsame
    exact hwaits.handlePairRequest waiting.relay waiting.ownerId waiting.request pairedAt
  | issueToken token ttlMs => exact hframe rfl rfl rfl rfl rfl rfl noLists_nil
  | execute writes hsettled hmutations => exact h.execute writes hsettled hmutations
  | settle hsettled => exact h.settle hsettled
  | requestUpdate =>
    exact h.due rfl (fun hphase => List.append_ne_nil_of_left_ne_nil (h.begun hphase) _)
      fun relay => due_pushUpdate h.begun rfl
  | startUpdate hphase hupdates => exact h.startUpdate hphase hupdates
  | readUpdate hphase => exact h.readUpdate hphase
  | finishUpdate written hphase hupdates =>
    refine h.finishUpdate written hphase hupdates ?_
    rintro rfl
    exact hsends rfl _ _ hphase
  | revoke shortId =>
    obtain ⟨_, hafter⟩ := revoke_frame s shortId
    refine h.frame ?_ ?_ (mutations_revoke s shortId) ?_ ?_ ?_ noLists_nil
    all_goals rw [hafter]

theorem announced_initial (file : PeersFile) (generation : String) :
    (initial file generation).Announced [] where
  lifecycle := RelayLifecycle.wf_initial
  begun h := absurd rfl h
  read _ _ h := by cases h
  lists _ h := by cases h

end Extension

/-- In a run in which every initial connect finds its hello kept, in every state at rest the
    last list that has been sent to the connected client names the owners of the file. -/
theorem ownerLists_agree (file : PeersFile) (generation : String)
    (labels : List Extension.Label) (s : Extension) (log : List HostEvent)
    (hrun : run Extension.step (.initial file generation, []) labels = some (s, log))
    (hsends : Along Extension.step Extension.SocketSends (.initial file generation, []) labels)
    (hkept : Along Extension.step Extension.HelloKept (.initial file generation, []) labels)
    (hrest : s.Resting) (relay : RelayId) (hcurrent : s.lifecycle.isCurrent relay = true)
    (hopen : s.lifecycle.isOpen relay = true) :
    InForce s.storage.file relay log := by
  have hannounced : s.Announced log := by
    have hboth := @invariant_along _ _ Extension.step
      (fun s label => Extension.SocketSends s label ∧ Extension.HelloKept s label)
      (fun s => s.1.Announced s.2) ?_ _ _ labels
      (Extension.announced_initial file generation) ?_ hrun
    · exact hboth
    · rintro s label s' h ⟨hsends, hkept⟩ hstep
      obtain ⟨events, hmove, hlog⟩ := logged_eq_some.mp hstep
      rw [hlog]
      exact h.move hkept hsends hmove
    · exact along_of_run fun before e after t heq hrun' => by
        rw [heq] at hsends hkept
        exact ⟨hsends.of_run hrun', hkept.of_run hrun'⟩
  rcases hannounced.lists relay hcurrent hopen with hforce | hdue | hunder
  · exact hforce
  · exact absurd hdue hrest.not_due
  · exact absurd hunder hrest.not_underWay

/-- An initial connect at rest whose hello does not name the owners of the file leaves a list
    that is not in force, and nothing that will correct it. -/
theorem not_inForce_of_hello {s : Extension} {lifecycle : RelayLifecycle} {client : RelayId}
    {owners : List String} (log : List HostEvent) (hrest : s.Resting)
    (hstale : ¬ Names s.storage.file owners) :
    ({ s with lifecycle }.onLifecycleEvent (.connected client true owners)).1.Resting ∧
      ¬ InForce s.storage.file client
        (log ++ ({ s with lifecycle }.onLifecycleEvent (.connected client true owners)).2) := by
  refine ⟨hrest, ?_⟩
  rintro ⟨owners', hlast, hnames⟩
  have hhello := lastOwnerList_hello client owners log
  have hlast : lastOwnerList client (log ++ [.hello client owners]) = some owners' := hlast
  rw [hhello] at hlast
  cases hlast
  exact hstale hnames

/-- The step is no failed write, and an initial connect reports the list of the file. -/
private def freshHello (s : Extension × List HostEvent) : Extension.Label → Bool
  | .finishUpdate written => written
  | .lifecycle inner =>
    match s.1.lifecycle.step s.1.storage.file inner with
    | some (_, .connected _ true owners) => owners = authorizedOwnerIds s.1.storage.file
    | _ => true
  | _ => true

private theorem kept_of_fresh {s : Extension × List HostEvent} {label : Extension.Label}
    (h : freshHello s label = true) :
    Extension.SocketSends s label ∧ Extension.HelloKept s label := by
  constructor
  · rintro rfl
    cases h
  · rintro inner lifecycle client owners rfl hstep
    unfold freshHello at h
    dsimp only at h
    rw [hstep] at h
    rw [of_decide_eq_true h]
    exact Or.inl (names_authorizedOwnerIds _)

theorem pairedSession_named : "s" ≠ "" := by decide

/-- A mutation of the file, and the update that it asks for. -/
private def updated : List Extension.Label :=
  [.execute true, .settle, .startUpdate, .readUpdate, .finishUpdate true]

/-- The host connects without an owner, and one pairs with it. -/
private def pairedOnce : List Extension.Label :=
  firstConnect [] ++ [.sessionStart ⟨0, "s", pairedSession_named⟩ "g", .issueToken "t" 60000,
    .route 0 zeroOwner .pairing (.pairRequest "p" "t" "phone") idleEnv "2026-01-01"] ++ updated

/-- The list is that of the file when the owner is paired, and when it is revoked again. -/
theorem ownerLists_agree_paired : ∃ s log s' log',
    run Extension.step (.initial .missing "g0", []) pairedOnce = some (s, log) ∧
      authorizedOwnerIds s.storage.file = [zeroOwner.key] ∧ InForce s.storage.file 0 log ∧
        run Extension.step (.initial .missing "g0", []) (pairedOnce ++ .revoke "AAAA" :: updated) =
            some (s', log') ∧
          authorizedOwnerIds s'.storage.file = [] ∧ InForce s'.storage.file 0 log' := by
  have hstate : ∀ revoked : Bool, (run Extension.step (.initial .missing "g0", [])
      (if revoked then pairedOnce ++ .revoke "AAAA" :: updated else pairedOnce)).any (fun s =>
        decide (authorizedOwnerIds s.1.storage.file = if revoked then [] else [zeroOwner.key]) &&
          (decide s.1.Resting && (s.1.lifecycle.isCurrent 0 && s.1.lifecycle.isOpen 0))) =
      true := by decide
  have hfresh : ∀ revoked : Bool, Along Extension.step (fun s label => freshHello s label = true)
      (.initial .missing "g0", [])
      (if revoked then pairedOnce ++ .revoke "AAAA" :: updated else pairedOnce) := by
    decide
  have hend := hstate false
  have hend' := hstate true
  have hfresh₀ := hfresh false
  have hfresh := hfresh true
  simp only [if_true, Bool.false_eq_true, if_false, Option.any_eq_true, Bool.and_eq_true,
    decide_eq_true_eq] at hend hend' hfresh₀ hfresh
  obtain ⟨⟨s, log⟩, hrun, hend⟩ := hend
  obtain ⟨⟨s', log'⟩, hrun', hend'⟩ := hend'
  refine ⟨s, log, s', log', hrun, hend.1, ?_, hrun', hend'.1, ?_⟩
  · exact ownerLists_agree _ _ _ s log hrun (hfresh₀.imp fun _ _ h => (kept_of_fresh h).1)
      (hfresh₀.imp fun _ _ h => (kept_of_fresh h).2) hend.2.1 0 hend.2.2.1 hend.2.2.2
  · exact ownerLists_agree _ _ _ s' log' hrun' (hfresh.imp fun _ _ h => (kept_of_fresh h).1)
      (hfresh.imp fun _ _ h => (kept_of_fresh h).2) hend'.2.1 0 hend'.2.2.1 hend'.2.2.2

/-- The owner is revoked while the first connect goes on: its update finds no client. -/
private def revokedOnConnect : List Extension.Label :=
  [.lifecycle .start,
    .lifecycle (.identityLoaded ⟨1, true, .loadingIdentity⟩ (.resolved "relay")),
    .lifecycle (.readOptions ⟨1, true, .readingOptions⟩),
    .revoke "AAAA", .execute true, .settle, .startUpdate,
    .lifecycle (.optionsBuilt ⟨1, true, .optionsRead [zeroOwner.key]⟩ true true),
    .lifecycle (.connected ⟨1, true, .connecting 0 [zeroOwner.key]⟩)]

/-- The revoked owner stays in the list of the client that has connected. -/
theorem stale_hello : ∃ s log,
    run Extension.step (.initial zeroOwnerFile "g0", []) revokedOnConnect = some (s, log) ∧
      s.Resting ∧ s.lifecycle.isCurrent 0 = true ∧ s.lifecycle.isOpen 0 = true ∧
        ¬ InForce s.storage.file 0 log := by
  obtain ⟨⟨s, log⟩, hrun⟩ := Option.isSome_iff_exists.mp
    (show (run Extension.step (.initial zeroOwnerFile "g0", []) revokedOnConnect).isSome = true by
      decide)
  have hstate : (run Extension.step (.initial zeroOwnerFile "g0", []) revokedOnConnect).any
      (fun s => decide s.1.Resting && s.1.lifecycle.isCurrent 0 && s.1.lifecycle.isOpen 0 &&
        decide (lastOwnerList 0 s.2 = some [zeroOwner.key] ∧
          ¬ Recorded s.1.storage.file zeroOwner.key)) = true := by decide +kernel
  rw [hrun, Option.any_some, Bool.and_eq_true, Bool.and_eq_true, Bool.and_eq_true] at hstate
  obtain ⟨hlast, hgone⟩ := of_decide_eq_true hstate.2
  refine ⟨s, log, hrun, of_decide_eq_true hstate.1.1.1, hstate.1.1.2, hstate.1.2, ?_⟩
  rintro ⟨owners, howners, hnames⟩
  rw [hlast] at howners
  cases howners
  exact hgone ((hnames zeroOwner.key).mp (List.mem_singleton.mpr rfl))

end RemotePi.Host
