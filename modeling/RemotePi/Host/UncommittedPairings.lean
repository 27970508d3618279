import RemotePi.Host.System
import RemotePi.Pairing.OwnerRecords

/-!
# Pairing attempts that do not commit

What the pairing attempts of an owner leave in the file when none of them commits its token
(`PairingCoordinator.run` and `rollback`, `pi-extension/src/runtime/pairing_coordinator.ts`,
lines 101–148), whatever other attempts, relay drops and updates come between.

A write of `addPeer` is unsettled until its attempt has committed or rolled back; its receipt is
in the lane, with the caller, or waits for an endpoint update.

Results:
* `recordStep_of_moves`: what a step does to the file and the unsettled writes.
* `Balanced.move`: the entries of the owner are those of before, or those with one unsettled
  record put in.
* `uncommitted_restored`: attempts whose writes do not overlap leave what was there.
* `overlapping_left`: two that overlap leave the record of the first.
-/

namespace RemotePi.Host

open RemotePi.Lib RemotePi.Pairing RemotePi.Timeline

/-! ## Unsettled writes -/

def Mutation.receipt : Mutation → Option (PairingAttempt × PeerWriteReceipt)
  | .rollback attempt receipt => some (attempt, receipt)
  | _ => none

def Settled.receipt : Settled → Option (PairingAttempt × PeerWriteReceipt)
  | .added attempt receipt => some (attempt, receipt)
  | _ => none

def EndpointUpdate.receipt (update : EndpointUpdate) : Option (PairingAttempt × PeerWriteReceipt) :=
  match update.continuation with
  | .acl attempt receipt => some (attempt, receipt)
  | _ => none

namespace Extension

/-- The writes of attempts that have neither committed nor rolled back. -/
def unsettled (s : Extension) : List (PairingAttempt × PeerWriteReceipt) :=
  s.mutations.filterMap Mutation.receipt ++ s.settled.toList.filterMap Settled.receipt ++
    s.updates.filterMap EndpointUpdate.receipt

def unsettledOf (s : Extension) (ownerId : OwnerId) : List (PairingAttempt × PeerWriteReceipt) :=
  s.unsettled.filter fun write => write.1.ownerId = ownerId

/-- The entries of the owner in the file. -/
def recordsOf (s : Extension) (ownerId : OwnerId) : List PeerEntry :=
  ownerRecords ownerId.key (listPeers s.storage.file)

/-- What a step does to the file and to the unsettled writes. -/
inductive RecordStep (s : Extension) (label : Label) (s' : Extension) (events : List HostEvent) :
    Prop where
  | kept (hstorage : s'.storage = s.storage) (hwrites : s'.unsettled.Perm s.unsettled)
  | added {attempt : PairingAttempt} {rest : List Mutation} (hlabel : label = .execute true)
      (hmutations : s.mutations = .add attempt :: rest)
      (hstorage : s'.storage = (s.storage.addPeer attempt.record).1)
      (hwrites : s'.unsettled.Perm ((attempt, (s.storage.addPeer attempt.record).2) :: s.unsettled))
  | rolledBack {attempt : PairingAttempt} {receipt : PeerWriteReceipt} {rest : List Mutation}
      {writes : Bool} (hlabel : label = .execute writes)
      (hmutations : s.mutations = .rollback attempt receipt :: rest)
      (hstorage : s'.storage = (s.storage.conditionalRollbackPeer receipt writes).1)
      (hwrites : s.unsettled.Perm ((attempt, receipt) :: s'.unsettled))
  | removed {remoteEpk : String} {rest : List Mutation} {writes : Bool}
      (hlabel : label = .execute writes) (hmutations : s.mutations = .remove remoteEpk :: rest)
      (hstorage : s'.storage = s.storage.mutate (.removePeer remoteEpk writes))
      (hwrites : s'.unsettled.Perm s.unsettled)
  | committed {attempt : PairingAttempt} {receipt : PeerWriteReceipt} {written : Bool}
      (hlabel : label = .finishUpdate written) (hstorage : s'.storage = s.storage)
      (hwrites : s.unsettled.Perm ((attempt, receipt) :: s'.unsettled))
      (hevents : .pairOk attempt.ownerId ⟨attempt.requestId⟩ ∈ events)

section Steps

variable {s s' : Extension} {events : List HostEvent} {label : Label}

theorem unsettled_of_eq (hmutations : s'.mutations = s.mutations)
    (hsettled : s'.settled = s.settled) (hupdates : s'.updates = s.updates) :
    s'.unsettled = s.unsettled := by
  unfold unsettled
  rw [hmutations, hsettled, hupdates]

theorem recordStep_of_eq (hstorage : s'.storage = s.storage)
    (hmutations : s'.mutations = s.mutations) (hsettled : s'.settled = s.settled)
    (hupdates : s'.updates = s.updates) : RecordStep s label s' events :=
  .kept hstorage (.of_eq (unsettled_of_eq hmutations hsettled hupdates))

theorem unsettled_pushUpdate (update : EndpointUpdate) (h : update.receipt = none) :
    (s.pushUpdate update).unsettled = s.unsettled := by
  unfold unsettled pushUpdate
  dsimp only
  rw [List.filterMap_append, List.filterMap_cons_none h, List.filterMap_nil, List.append_nil]

/-- A mutation without a receipt comes to the lane. -/
theorem unsettled_pushMutation (mutation : Mutation) (h : mutation.receipt = none) :
    unsettled { s with mutations := s.mutations ++ [mutation] } = s.unsettled := by
  unfold unsettled
  dsimp only
  rw [List.filterMap_append, List.filterMap_cons_none h, List.filterMap_nil, List.append_nil]

/-- The write of the caller goes to the lane. -/
theorem unsettled_pushRollback (attempt : PairingAttempt) (receipt : PeerWriteReceipt) :
    (unsettled { s with mutations := s.mutations ++ [.rollback attempt receipt] }).Perm
      ((attempt, receipt) :: s.unsettled) := by
  unfold unsettled
  dsimp only
  rw [List.filterMap_append, List.append_assoc, List.append_assoc, List.append_assoc]
  exact List.perm_middle

theorem unsettled_handlePairRequest (s : Extension) (relay : RelayId) (ownerId : OwnerId)
    (request : PairRequest) (pairedAt : String) :
    (s.handlePairRequest relay ownerId request pairedAt).1.unsettled = s.unsettled := by
  unfold handlePairRequest
  split_ifs
  · rfl
  · rfl
  · dsimp only
    split
    · rfl
    · rfl
    · rfl
    · split_ifs <;> rfl
    · split
      · rfl
      · exact unsettled_pushMutation (s := s) _ rfl

theorem recordStep_handlePairRequest (s : Extension) (relay : RelayId) (ownerId : OwnerId)
    (request : PairRequest) (pairedAt : String) :
    RecordStep s label (s.handlePairRequest relay ownerId request pairedAt).1 events := by
  obtain ⟨_, _, _, _, _, hframe⟩ := handlePairRequest_frame s relay ownerId request pairedAt
  refine .kept ?_ (.of_eq (unsettled_handlePairRequest s relay ownerId request pairedAt))
  rw [hframe]

theorem recordStep_execute (writes : Bool) {mutation : Mutation} {rest : List Mutation}
    (hsettled : s.settled = none) (hmutations : s.mutations = mutation :: rest) :
    RecordStep s (.execute writes) (s.execute writes mutation rest) events := by
  have hunsettled : s.unsettled = mutation.receipt.toList ++
      (rest.filterMap Mutation.receipt ++ s.updates.filterMap EndpointUpdate.receipt) := by
    unfold unsettled
    rw [hmutations, hsettled, List.filterMap_cons]
    cases mutation.receipt <;> simp
  cases mutation with
  | add attempt =>
    cases writes with
    | true =>
      refine .added rfl hmutations rfl ?_
      rw [hunsettled]
      show (rest.filterMap Mutation.receipt ++ [(attempt, (s.storage.addPeer attempt.record).2)] ++
        s.updates.filterMap EndpointUpdate.receipt).Perm _
      rw [List.append_assoc]
      exact List.perm_middle
    | false =>
      refine .kept rfl (.of_eq ?_)
      rw [hunsettled]
      unfold unsettled
      show _ ++ [] ++ _ = _
      rw [List.append_nil]
      rfl
  | rollback attempt receipt =>
    refine .rolledBack rfl hmutations rfl ?_
    rw [hunsettled]
    unfold unsettled
    refine .of_eq ?_
    show _ = (attempt, receipt) :: (_ ++ [] ++ _)
    rw [List.append_nil]
    rfl
  | remove remoteEpk =>
    have hmutate : (s.execute writes (.remove remoteEpk) rest).storage =
        s.storage.mutate (.removePeer remoteEpk writes) := by
      unfold execute OwnerStorage.mutate
      dsimp only
      cases writes with
      | true => simp
      | false =>
        unfold OwnerStorage.removePeer
        dsimp only
        split_ifs <;> simp_all
    refine .removed rfl hmutations hmutate (.of_eq ?_)
    rw [hunsettled]
    unfold unsettled execute
    dsimp only
    split_ifs <;> simp [Settled.receipt, Mutation.receipt]

theorem recordStep_settle {settled : Settled} (hsettled : s.settled = some settled) :
    RecordStep s .settle (s.settle settled).1 events := by
  have hunsettled : s.unsettled.Perm
      (settled.receipt.toList ++ unsettled { s with settled := none }) := by
    unfold unsettled
    rw [hsettled]
    show (_ ++ [settled].filterMap Settled.receipt ++ _).Perm (_ ++ (_ ++ [] ++ _))
    rw [List.append_nil, List.filterMap_cons]
    cases settled.receipt with
    | none => simp
    | some write =>
      show (s.mutations.filterMap Mutation.receipt ++ [write] ++
        s.updates.filterMap EndpointUpdate.receipt).Perm _
      rw [List.append_assoc]
      exact List.perm_middle
  unfold Extension.settle
  cases settled with
  | added attempt receipt =>
    dsimp only
    split_ifs
    · refine .kept rfl (List.Perm.trans ?_ hunsettled.symm)
      unfold unsettled pushUpdate
      dsimp only
      rw [List.filterMap_append, ← List.append_assoc]
      exact List.perm_append_comm
    · exact .kept rfl ((unsettled_pushRollback attempt receipt).trans hunsettled.symm)
  | addFailed attempt => exact .kept rfl hunsettled.symm
  | rolledBack attempt =>
    refine .kept rfl (List.Perm.trans (.of_eq ?_) hunsettled.symm)
    exact unsettled_pushUpdate (s := { s with settled := none }) _ rfl
  | removed remoteEpk =>
    dsimp only
    split
    · refine .kept rfl (List.Perm.trans (.of_eq ?_) hunsettled.symm)
      exact unsettled_pushUpdate (s := { s with settled := none }) _ rfl
    · rename_i ownerId _
      refine .kept rfl (List.Perm.trans (.of_eq ?_) hunsettled.symm)
      exact unsettled_pushUpdate
        (s := { s with settled := none, owners := (s.owners.closeOwner ownerId).1 }) _ rfl
  | removeFailed remoteEpk => exact .kept rfl hunsettled.symm

/-- The first update ends: its write goes back to the lane, or its attempt commits. -/
theorem completeUpdate_unsettled {update : EndpointUpdate} {rest : List EndpointUpdate}
    (hupdates : s.updates = update :: rest) (sent : Bool) :
    (s.completeUpdate update.continuation rest sent).1.unsettled.Perm s.unsettled ∨
      ∃ attempt receipt, sent = true ∧
        s.unsettled.Perm ((attempt, receipt) ::
          (s.completeUpdate update.continuation rest sent).1.unsettled) ∧
        .pairOk attempt.ownerId ⟨attempt.requestId⟩ ∈
          (s.completeUpdate update.continuation rest sent).2 := by
  have hunsettled : s.unsettled.Perm (update.receipt.toList ++
      unsettled { s with updates := rest, updatePhase := .idle }) := by
    unfold unsettled
    rw [hupdates, List.filterMap_cons]
    cases update.receipt with
    | none => exact .refl _
    | some write => exact List.perm_middle
  obtain ⟨expectedRelay, continuation⟩ := update
  unfold completeUpdate
  cases continuation with
  | nothing => exact Or.inl hunsettled.symm
  | acl attempt receipt =>
    have hrolled := unsettled_pushRollback (s := { s with updates := rest, updatePhase := .idle })
      attempt receipt
    dsimp only
    split_ifs with hsent
    · exact Or.inl (hrolled.trans hunsettled.symm)
    · split
      · exact Or.inl (hrolled.trans hunsettled.symm)
      · have hsent : sent = true := by
          cases sent with
          | true => rfl
          | false => exact absurd rfl hsent
        exact Or.inr ⟨attempt, receipt, hsent, hunsettled, List.mem_singleton.mpr rfl⟩
  | refresh attempt => exact Or.inl hunsettled.symm
  | revoked remoteEpk => exact Or.inl hunsettled.symm

theorem storage_completeUpdate (s : Extension) (continuation : Continuation)
    (rest : List EndpointUpdate) (sent : Bool) :
    (s.completeUpdate continuation rest sent).1.storage = s.storage := by
  obtain ⟨_, _, _, hframe⟩ := completeUpdate_frame s continuation rest sent
  rw [hframe]

theorem recordStep_startUpdate {update : EndpointUpdate} {rest : List EndpointUpdate}
    (hupdates : s.updates = update :: rest) :
    RecordStep s .startUpdate (s.startUpdate update rest).1 (s.startUpdate update rest).2 := by
  have hmissed : RecordStep s .startUpdate (s.completeUpdate update.continuation rest false).1
      (s.completeUpdate update.continuation rest false).2 := by
    rcases completeUpdate_unsettled hupdates false with hkept | ⟨_, _, hsent, -⟩
    · exact .kept (storage_completeUpdate s _ rest false) hkept
    · cases hsent
  unfold startUpdate
  split
  · exact hmissed
  · split_ifs
    · exact recordStep_of_eq rfl rfl rfl rfl
    · exact hmissed

theorem recordStep_finishUpdate (written : Bool) {relay : RelayId} {owners : List String}
    {update : EndpointUpdate} {rest : List EndpointUpdate} (hupdates : s.updates = update :: rest) :
    RecordStep s (.finishUpdate written) (s.finishUpdate relay owners update rest written).1
      (s.finishUpdate relay owners update rest written).2 := by
  unfold finishUpdate
  split_ifs
  · rcases completeUpdate_unsettled hupdates true with hkept | ⟨_, _, -, hwrites, hevents⟩
    · exact .kept (storage_completeUpdate s _ rest true) hkept
    · exact .committed rfl (storage_completeUpdate s _ rest true) hwrites
        (List.mem_cons_of_mem _ hevents)
  · rcases completeUpdate_unsettled hupdates false with hkept | ⟨_, _, hsent, -⟩
    · exact .kept (storage_completeUpdate s _ rest false) hkept
    · cases hsent

theorem recordStep_revoke (shortId : String) :
    RecordStep s (.revoke shortId) (s.revoke shortId) events := by
  unfold revoke
  dsimp only
  split_ifs
  · exact recordStep_of_eq rfl rfl rfl rfl
  · split
    · exact .kept rfl (.of_eq (unsettled_pushMutation (s := s) _ rfl))
    · exact recordStep_of_eq rfl rfl rfl rfl

/-- A step of the lifecycle asks at most for an update of no attempt. -/
theorem recordStep_onLifecycleEvent (lifecycle : RelayLifecycle) (event : LifecycleEvent) :
    RecordStep s label ({ s with lifecycle }.onLifecycleEvent event).1 events := by
  cases event with
  | quiet => exact recordStep_of_eq rfl rfl rfl rfl
  | connected client ctx owners =>
    cases ctx with
    | true => exact recordStep_of_eq rfl rfl rfl rfl
    | false =>
      exact .kept rfl (.of_eq (unsettled_pushUpdate (s := { s with lifecycle }) _ rfl))
  | disconnected => exact recordStep_of_eq rfl rfl rfl rfl

/-- What a step does to the file and the unsettled writes. -/
theorem recordStep_of_moves {result : Extension × List HostEvent} (h : Moves s label result) :
    RecordStep s label result.1 result.2 := by
  cases h with
  | lifecycle hlabel hstep => exact recordStep_onLifecycleEvent _ _
  | pairing relay ownerId id token deviceName env pairedAt =>
    exact recordStep_handlePairRequest s relay ownerId ⟨id, token, deviceName⟩ pairedAt
  | session relay ownerId env pairedAt hsession =>
    obtain ⟨_, _, _, hframe⟩ := onSessionFrame_frame s relay ownerId _ env
    refine recordStep_of_eq ?_ ?_ ?_ ?_
    all_goals rw [hframe]
  | resolveOwner env hfind hknown =>
    obtain ⟨_, hframe⟩ := resolveOwner_frame s _ _ env
    refine recordStep_of_eq ?_ ?_ ?_ ?_
    all_goals rw [hframe]
  | resumePair pairedAt hwaiting hfree =>
    rename_i waiting
    have hsame := unsettled_handlePairRequest { s with waiting := s.waiting.erase waiting }
      waiting.relay waiting.ownerId waiting.request pairedAt
    obtain ⟨_, _, _, _, _, hframe⟩ := handlePairRequest_frame
      { s with waiting := s.waiting.erase waiting } waiting.relay waiting.ownerId waiting.request
      pairedAt
    refine .kept ?_ (.of_eq hsame)
    rw [hframe]
  | execute writes hsettled hmutations => exact recordStep_execute writes hsettled hmutations
  | settle hsettled => exact recordStep_settle hsettled
  | requestUpdate => exact .kept rfl (.of_eq (unsettled_pushUpdate (s := s) _ rfl))
  | startUpdate hphase hupdates => exact recordStep_startUpdate hupdates
  | finishUpdate written hphase hupdates => exact recordStep_finishUpdate written hupdates
  | revoke shortId => exact recordStep_revoke shortId
  | _ => exact recordStep_of_eq rfl rfl rfl rfl

end Steps

/-! ## The records are those of the owners -/

/-- The owner whose pairing request the step takes up. -/
def Label.asker : Label → Option OwnerId
  | .route _ ownerId .pairing (.pairRequest _ _ _) _ _ => some ownerId
  | .resumePair waiting _ => some waiting.ownerId
  | _ => none

/-- A record in the lane is that of the owner of its attempt, and so is the entry that it
    replaces. -/
structure Keyed (s : Extension) : Prop where
  adds : ∀ attempt, .add attempt ∈ s.mutations →
    attempt.record.remoteEpk = attempt.ownerId.key
  writes : ∀ write ∈ s.unsettled,
    write.2.record.remoteEpk = write.1.ownerId.key ∧ write.2.Keyed

section Keyed

variable {s s' : Extension} {events : List HostEvent} {label : Label}

/-- An attempt that comes to the lane adds a record of its owner, who has asked for it. -/
def AddsOf (s s' : Extension) (asker : Option OwnerId) : Prop :=
  ∀ attempt, .add attempt ∈ s'.mutations → .add attempt ∈ s.mutations ∨
    (attempt.record.remoteEpk = attempt.ownerId.key ∧ asker = some attempt.ownerId)

variable {asker : Option OwnerId}

theorem addsOf_append {mutation : Mutation} (hmutations : s'.mutations = s.mutations ++ [mutation])
    (h : ∀ attempt, mutation = .add attempt →
      attempt.record.remoteEpk = attempt.ownerId.key ∧ asker = some attempt.ownerId) :
    AddsOf s s' asker := by
  intro attempt hmem
  rw [hmutations] at hmem
  rcases List.mem_append.mp hmem with hmem | hmem
  · exact Or.inl hmem
  · exact Or.inr (h attempt (List.mem_singleton.mp hmem).symm)

theorem addsOf_of_eq (hmutations : s'.mutations = s.mutations) : AddsOf s s' asker :=
  fun _ hmem => Or.inl (hmutations ▸ hmem)

theorem addsOf_handlePairRequest (s : Extension) (relay : RelayId) (ownerId : OwnerId)
    (request : PairRequest) (pairedAt : String) :
    AddsOf s (s.handlePairRequest relay ownerId request pairedAt).1 (some ownerId) := by
  unfold handlePairRequest
  split_ifs
  · exact addsOf_of_eq rfl
  · exact addsOf_of_eq rfl
  · dsimp only
    split
    · exact addsOf_of_eq rfl
    · exact addsOf_of_eq rfl
    · exact addsOf_of_eq rfl
    · split_ifs <;> exact addsOf_of_eq rfl
    · split
      · exact addsOf_of_eq rfl
      · refine addsOf_append rfl ?_
        rintro attempt heq
        cases heq
        exact ⟨rfl, rfl⟩

theorem addsOf_completeUpdate (s : Extension) (continuation : Continuation)
    (rest : List EndpointUpdate) (sent : Bool) :
    AddsOf s (s.completeUpdate continuation rest sent).1 asker := by
  unfold completeUpdate
  cases continuation with
  | acl attempt receipt =>
    dsimp only
    split_ifs
    · exact addsOf_append rfl fun _ heq => by cases heq
    · split
      · exact addsOf_append rfl fun _ heq => by cases heq
      · exact addsOf_of_eq rfl
  | _ => exact addsOf_of_eq rfl

theorem addsOf_of_moves {result : Extension × List HostEvent} (h : Moves s label result) :
    AddsOf s result.1 label.asker := by
  cases h with
  | lifecycle hlabel hstep =>
    obtain ⟨_, _, _, _, hframe⟩ := onLifecycleEvent_frame { s with lifecycle := _ } _
    exact addsOf_of_eq (by rw [hframe])
  | pairing relay ownerId id token deviceName env pairedAt =>
    exact addsOf_handlePairRequest s relay ownerId ⟨id, token, deviceName⟩ pairedAt
  | session relay ownerId env pairedAt hsession =>
    obtain ⟨_, _, _, hframe⟩ := onSessionFrame_frame s relay ownerId _ env
    exact addsOf_of_eq (by rw [hframe])
  | resolveOwner env hfind hknown =>
    obtain ⟨_, hframe⟩ := resolveOwner_frame s _ _ env
    exact addsOf_of_eq (by rw [hframe])
  | resumePair pairedAt hwaiting hfree =>
    rename_i waiting
    exact addsOf_handlePairRequest { s with waiting := s.waiting.erase waiting } waiting.relay
      waiting.ownerId waiting.request pairedAt
  | execute writes hsettled hmutations =>
    obtain ⟨_, _, hframe⟩ := execute_frame s writes _ _
    intro attempt hmem
    rw [hframe] at hmem
    rw [hmutations]
    exact Or.inl (List.mem_cons_of_mem _ hmem)
  | settle hsettled =>
    rename_i settled
    unfold Extension.settle
    cases settled with
    | added attempt receipt =>
      dsimp only
      split_ifs
      · exact addsOf_of_eq rfl
      · exact addsOf_append rfl fun _ heq => by cases heq
    | removed remoteEpk =>
      dsimp only
      split <;> exact addsOf_of_eq rfl
    | _ => exact addsOf_of_eq rfl
  | startUpdate hphase hupdates =>
    unfold startUpdate
    split
    · exact addsOf_completeUpdate s _ _ _
    · split_ifs
      · exact addsOf_of_eq rfl
      · exact addsOf_completeUpdate s _ _ _
  | finishUpdate written hphase hupdates =>
    unfold finishUpdate
    split_ifs
    · exact addsOf_completeUpdate s _ _ _
    · exact addsOf_completeUpdate s _ _ _
  | revoke shortId =>
    unfold revoke
    dsimp only
    split_ifs
    · exact addsOf_of_eq rfl
    · split
      · exact addsOf_append rfl fun _ heq => by cases heq
      · exact addsOf_of_eq rfl
  | _ => exact addsOf_of_eq rfl

theorem keyed_initial (file : PeersFile) (generation : String) :
    (initial file generation).Keyed where
  adds _ h := by cases h
  writes _ h := by cases h

theorem Keyed.move (h : s.Keyed) (hmove : s.move label = some (s', events)) : s'.Keyed := by
  have hmoves := moves_of_move hmove
  have hadds : AddsOf s s' label.asker := addsOf_of_moves hmoves
  have hsteps : RecordStep s label s' events := recordStep_of_moves hmoves
  refine ⟨fun attempt hmem => (hadds attempt hmem).elim (h.adds attempt) And.left, fun write hmem => ?_⟩
  cases hsteps with
  | kept hstorage hwrites => exact h.writes write (hwrites.mem_iff.mp hmem)
  | added hlabel hmutations hstorage hwrites =>
    rename_i attempt rest
    rcases List.mem_cons.mp (hwrites.mem_iff.mp hmem) with rfl | hmem
    · refine ⟨?_, keyed_addPeer s.storage attempt.record⟩
      exact h.adds attempt (by rw [hmutations]; exact List.mem_cons_self)
    · exact h.writes write hmem
  | rolledBack hlabel hmutations hstorage hwrites =>
    exact h.writes write (hwrites.mem_iff.mpr (List.mem_cons_of_mem _ hmem))
  | removed hlabel hmutations hstorage hwrites => exact h.writes write (hwrites.mem_iff.mp hmem)
  | committed hlabel hstorage hwrites hevents =>
    exact h.writes write (hwrites.mem_iff.mpr (List.mem_cons_of_mem _ hmem))

end Keyed

/-! ## One owner -/

section Owner

variable {s s' : Extension} {events : List HostEvent} {label : Label} {ownerId : OwnerId}
  {base : List PeerEntry}

/-- No record of the owner is removed by a revocation. -/
def Unrevoked (ownerId : OwnerId) (s : Extension × List HostEvent) (label : Label) : Prop :=
  ∀ writes remoteEpk rest, label = .execute writes → s.1.mutations = .remove remoteEpk :: rest →
    canonicalize remoteEpk ≠ some ownerId.key

/-- No attempt of the owner commits its token: no update ends with its `pair_ok`. -/
def Uncommitted (ownerId : OwnerId) (s : Extension × List HostEvent) (label : Label) : Prop :=
  ∀ written s' events completion, label = .finishUpdate written →
    s.1.move label = some (s', events) → .pairOk ownerId completion ∉ events

/-- The writes of the owner's rollbacks succeed. -/
def RollbacksWrite (ownerId : OwnerId) (s : Extension × List HostEvent) (label : Label) : Prop :=
  ∀ writes attempt receipt rest, label = .execute writes →
    s.1.mutations = .rollback attempt receipt :: rest → attempt.ownerId = ownerId → writes = true

/-- A record of the owner is written only while no other write of the owner is unsettled. -/
def WritesAlone (ownerId : OwnerId) (s : Extension × List HostEvent) (label : Label) : Prop :=
  ∀ attempt rest, label = .execute true → s.1.mutations = .add attempt :: rest →
    attempt.ownerId = ownerId → s.1.unsettledOf ownerId = []

/-- The entries of the owner are those of before, or one unsettled record has been put in. -/
def Balanced (s : Extension) (ownerId : OwnerId) (base : List PeerEntry) : Prop :=
  (s.unsettledOf ownerId = [] ∧ s.recordsOf ownerId = base) ∨
    ∃ attempt receipt, s.unsettledOf ownerId = [(attempt, receipt)] ∧
      PutIn s.storage ownerId.key base receipt

theorem unsettledOf_perm (h : s'.unsettled.Perm s.unsettled) :
    (s'.unsettledOf ownerId).Perm (s.unsettledOf ownerId) := h.filter _

theorem unsettledOf_cons {attempt : PairingAttempt} {receipt : PeerWriteReceipt}
    (h : s'.unsettled.Perm ((attempt, receipt) :: s.unsettled)) :
    (s'.unsettledOf ownerId).Perm
      (if attempt.ownerId = ownerId then (attempt, receipt) :: s.unsettledOf ownerId
      else s.unsettledOf ownerId) := by
  have hfiltered := h.filter fun write => decide (write.1.ownerId = ownerId)
  rw [List.filter_cons] at hfiltered
  unfold unsettledOf
  simpa only [decide_eq_true_eq] using hfiltered

theorem Balanced.of_perm (h : s.Balanced ownerId base) (hstorage : s'.storage = s.storage)
    (hwrites : (s'.unsettledOf ownerId).Perm (s.unsettledOf ownerId)) :
    s'.Balanced ownerId base := by
  rcases h with ⟨hnone, hrecords⟩ | ⟨attempt, receipt, hone, hput⟩
  · rw [hnone] at hwrites
    refine Or.inl ⟨hwrites.eq_nil, ?_⟩
    rw [← hrecords, recordsOf, recordsOf, hstorage]
  · rw [hone] at hwrites
    refine Or.inr ⟨attempt, receipt, List.perm_singleton.mp hwrites, ?_⟩
    rwa [hstorage]

/-- A mutation for another owner. -/
theorem Balanced.mutate (h : s.Balanced ownerId base) {m : OwnerMutation}
    (htarget : canonicalize m.target ≠ some ownerId.key)
    (hkeyed : ∀ receipt commits, m = .conditionalRollbackPeer receipt commits → receipt.Keyed)
    (hstorage : s'.storage = s.storage.mutate m)
    (hwrites : (s'.unsettledOf ownerId).Perm (s.unsettledOf ownerId)) :
    s'.Balanced ownerId base := by
  rcases h with ⟨hnone, hrecords⟩ | ⟨attempt, receipt, hone, hput⟩
  · rw [hnone] at hwrites
    refine Or.inl ⟨hwrites.eq_nil, ?_⟩
    rw [← hrecords, recordsOf, recordsOf, hstorage, ownerRecords_mutate s.storage htarget hkeyed]
  · rw [hone] at hwrites
    refine Or.inr ⟨attempt, receipt, List.perm_singleton.mp hwrites, ?_⟩
    rw [hstorage]
    exact hput.mutate htarget hkeyed

theorem canonicalize_ne_of_owner {remoteEpk : String} {other : OwnerId}
    (hkey : remoteEpk = other.key) (hne : other ≠ ownerId) :
    canonicalize remoteEpk ≠ some ownerId.key := by
  rw [hkey, other.canonical]
  intro heq
  exact hne (OwnerId.ext_iff'.mpr (Option.some.inj heq))

theorem Balanced.move {log : List HostEvent} (h : s.Balanced ownerId base) (hkeyed : s.Keyed)
    (hunrevoked : Unrevoked ownerId (s, log) label)
    (huncommitted : Uncommitted ownerId (s, log) label)
    (hrollbacks : RollbacksWrite ownerId (s, log) label)
    (halone : WritesAlone ownerId (s, log) label) (hmove : s.move label = some (s', events)) :
    s'.Balanced ownerId base := by
  have hsteps : RecordStep s label s' events := recordStep_of_moves (moves_of_move hmove)
  cases hsteps with
  | kept hstorage hwrites => exact h.of_perm hstorage (unsettledOf_perm hwrites)
  | added hlabel hmutations hstorage hwrites =>
    rename_i attempt rest
    have hkey := hkeyed.adds attempt (by rw [hmutations]; exact List.mem_cons_self)
    have hwritten := @unsettledOf_cons s s' ownerId _ _ hwrites
    by_cases howner : attempt.ownerId = ownerId
    · have hnone := halone attempt rest hlabel hmutations howner
      rw [if_pos howner, hnone] at hwritten
      have hrecords : s.recordsOf ownerId = base := by
        rcases h with ⟨-, hrecords⟩ | ⟨_, _, hone, -⟩
        · exact hrecords
        · rw [hnone] at hone
          cases hone
      refine Or.inr ⟨attempt, _, List.perm_singleton.mp hwritten, ?_⟩
      rw [hstorage, ← hrecords]
      refine putIn_addPeer s.storage ?_
      rw [hkey, howner, ownerId.canonical]
    · rw [if_neg howner] at hwritten
      exact @Balanced.mutate s s' ownerId base h (.addPeer attempt.record)
        (canonicalize_ne_of_owner hkey howner) (fun _ _ heq => by cases heq) hstorage hwritten
  | rolledBack hlabel hmutations hstorage hwrites =>
    rename_i attempt receipt rest writes
    have hwritten := @unsettledOf_cons s' s ownerId _ _ hwrites
    obtain ⟨hkey, hreceipt⟩ :=
      hkeyed.writes _ (hwrites.mem_iff.mpr (List.mem_cons_self (a := (attempt, receipt))))
    by_cases howner : attempt.ownerId = ownerId
    · obtain rfl := hrollbacks writes attempt receipt rest hlabel hmutations howner
      rw [if_pos howner] at hwritten
      rcases h with ⟨hnone, -⟩ | ⟨attempt', receipt', hone, hput⟩
      · rw [hnone] at hwritten
        cases hwritten.symm.eq_nil
      · rw [hone] at hwritten
        obtain ⟨heq, hrest⟩ := List.cons_eq_cons.mp (List.singleton_perm.mp hwritten)
        obtain ⟨rfl, rfl⟩ := Prod.mk.inj heq
        refine Or.inl ⟨hrest.symm, ?_⟩
        rw [recordsOf, hstorage]
        exact hput.rollback
    · rw [if_neg howner] at hwritten
      refine @Balanced.mutate s s' ownerId base h (.conditionalRollbackPeer receipt writes)
        (canonicalize_ne_of_owner hkey howner) ?_ hstorage hwritten.symm
      intro other commits heq
      cases heq
      exact hreceipt
  | removed hlabel hmutations hstorage hwrites =>
    rename_i remoteEpk rest writes
    exact @Balanced.mutate s s' ownerId base h (.removePeer remoteEpk writes)
      (hunrevoked writes remoteEpk rest hlabel hmutations) (fun _ _ heq => by cases heq) hstorage
      (unsettledOf_perm hwrites)
  | committed hlabel hstorage hwrites hevents =>
    rename_i attempt receipt written
    have hwritten := @unsettledOf_cons s' s ownerId _ _ hwrites
    by_cases howner : attempt.ownerId = ownerId
    · rw [howner] at hevents
      exact absurd hevents (huncommitted written s' events _ hlabel hmove)
    · rw [if_neg howner] at hwritten
      exact h.of_perm hstorage hwritten.symm

end Owner

end Extension

/-! ## Runs -/

/-- From any state that the host reaches with no write of the owner unsettled, over any run in
    which no attempt of the owner commits and none of its records is revoked: where its writes
    do not overlap, the owner has its entries of before when all have rolled back. As everywhere
    in `Extension`, the reads of the file succeed and a write that fails leaves the file: after a
    read that fails `addPeer` would write the file from an empty list. -/
theorem uncommitted_restored (file : PeersFile) (generation : String)
    (first rest : List Extension.Label) (s₀ s : Extension) (log₀ log : List HostEvent)
    (ownerId : OwnerId)
    (hfirst : run Extension.step (.initial file generation, []) first = some (s₀, log₀))
    (hrest : run Extension.step (s₀, log₀) rest = some (s, log))
    (hbefore : s₀.unsettledOf ownerId = []) (hafter : s.unsettledOf ownerId = [])
    (hunrevoked : Along Extension.step (Extension.Unrevoked ownerId) (s₀, log₀) rest)
    (huncommitted : Along Extension.step (Extension.Uncommitted ownerId) (s₀, log₀) rest)
    (hrollbacks : Along Extension.step (Extension.RollbacksWrite ownerId) (s₀, log₀) rest)
    (halone : Along Extension.step (Extension.WritesAlone ownerId) (s₀, log₀) rest) :
    s.recordsOf ownerId = s₀.recordsOf ownerId := by
  have hkeyed₀ : s₀.Keyed := by
    refine @invariant_run _ _ Extension.step (fun s => s.1.Keyed) ?_ _ _ _
      (Extension.keyed_initial file generation) hfirst
    intro s label s' h hstep
    obtain ⟨events, hmove, -⟩ := logged_eq_some.mp hstep
    exact h.move hmove
  have hend : s.Keyed ∧ s.Balanced ownerId (s₀.recordsOf ownerId) := by
    refine @invariant_along _ _ Extension.step (fun s label => Extension.Unrevoked ownerId s label ∧
      Extension.Uncommitted ownerId s label ∧ Extension.RollbacksWrite ownerId s label ∧
        Extension.WritesAlone ownerId s label)
      (fun s => s.1.Keyed ∧ s.1.Balanced ownerId (s₀.recordsOf ownerId)) ?_ (s₀, log₀) (s, log)
      rest ⟨hkeyed₀, Or.inl ⟨hbefore, rfl⟩⟩ ?_ hrest
    · rintro s label s' ⟨hkeyed, hbalanced⟩ ⟨hunrevoked, huncommitted, hrollbacks, halone⟩ hstep
      obtain ⟨events, hmove, -⟩ := logged_eq_some.mp hstep
      exact ⟨hkeyed.move hmove,
        hbalanced.move hkeyed hunrevoked huncommitted hrollbacks halone hmove⟩
    · exact along_of_run fun before label after t heq hrun => by
        rw [heq] at hunrevoked huncommitted hrollbacks halone
        exact ⟨hunrevoked.of_run hrun, huncommitted.of_run hrun, hrollbacks.of_run hrun,
          halone.of_run hrun⟩
  rcases hend.2 with ⟨-, hrecords⟩ | ⟨_, _, hone, -⟩
  · exact hrecords
  · rw [hafter] at hone
    cases hone

/-- The owner connects and asks to be paired with a token, in a request. -/
private def pairs (id token deviceName : String) : List Extension.Label :=
  [.issueToken token 60000,
    .route 0 zeroOwner .pairing (.pairRequest id token deviceName) idleEnv "2026-02-02"]

/-- The rollback of an attempt and its update. -/
private def rollsBack : List Extension.Label :=
  [.execute true, .settle, .startUpdate, .readUpdate, .finishUpdate true]

theorem sampleSession_named : "s" ≠ "" := by decide

private def inSession : List Extension.Label :=
  firstConnect [zeroOwner.key] ++ [.sessionStart ⟨0, "s", sampleSession_named⟩ "g"]

/-- A step that is no revocation, no commit for the owner, and no failed rollback. -/
private def uncommittedStep (s : Extension × List HostEvent) (label : Extension.Label) : Bool :=
  match label with
  | .execute writes =>
    match s.1.mutations with
    | .remove _ :: _ => false
    | _ => writes
  | .finishUpdate _ =>
    (s.1.move label).all fun result => result.2.all fun event =>
      match event with
      | .pairOk _ _ => false
      | _ => true
  | _ => true

private theorem conditions_of_step {s : Extension × List HostEvent} {label : Extension.Label}
    (h : uncommittedStep s label = true) :
    Extension.Unrevoked zeroOwner s label ∧ Extension.Uncommitted zeroOwner s label ∧
      Extension.RollbacksWrite zeroOwner s label := by
  refine ⟨?_, ?_, ?_⟩
  · rintro writes remoteEpk rest rfl hmutations
    unfold uncommittedStep at h
    dsimp only at h
    rw [hmutations] at h
    cases h
  · rintro written s' events completion rfl hmove hmem
    unfold uncommittedStep at h
    dsimp only at h
    rw [hmove, Option.all_some, List.all_eq_true] at h
    cases h _ hmem
  · rintro writes attempt receipt rest rfl hmutations -
    unfold uncommittedStep at h
    dsimp only at h
    rw [hmutations] at h
    exact h

/-- No write of the owner is unsettled, or the step rolls one back. -/
private def aloneStep (s : Extension × List HostEvent) : Extension.Label → Bool
  | .execute true =>
    (s.1.unsettledOf zeroOwner).isEmpty ||
      s.1.mutations.all fun mutation => mutation.receipt.isSome
  | _ => true

private theorem alone_of_step {s : Extension × List HostEvent} {label : Extension.Label}
    (h : aloneStep s label = true) : Extension.WritesAlone zeroOwner s label := by
  rintro attempt rest rfl hmutations -
  unfold aloneStep at h
  dsimp only at h
  rw [Bool.or_eq_true, hmutations] at h
  exact List.isEmpty_iff.mp (h.resolve_right nofun)

/-- The owner is in the file as its phone, and pairs its tablet; a new token comes before the
    attempt commits. -/
private def supersededAttempt : List Extension.Label :=
  pairs "p1" "t1" "tablet" ++ [.execute true, .issueToken "t2" 60000, .settle] ++ rollsBack

/-- The phone is back after the attempt. -/
theorem uncommitted_restored_superseded : ∃ s₀ log₀ s log,
    run Extension.step (.initial zeroOwnerFile "g0", []) inSession = some (s₀, log₀) ∧
      run Extension.step (s₀, log₀) supersededAttempt = some (s, log) ∧
        s.recordsOf zeroOwner = s₀.recordsOf zeroOwner := by
  obtain ⟨⟨s₀, log₀⟩, hfirst⟩ := Option.isSome_iff_exists.mp
    (show (run Extension.step (.initial zeroOwnerFile "g0", []) inSession).isSome = true by
      decide +kernel)
  have hchecked : (run Extension.step (.initial zeroOwnerFile "g0", []) inSession).any (fun s =>
      (run Extension.step s supersededAttempt).any (fun s' =>
        (s.1.unsettledOf zeroOwner).isEmpty && (s'.1.unsettledOf zeroOwner).isEmpty) &&
      decide (Along Extension.step (fun s label => uncommittedStep s label = true) s
        supersededAttempt) &&
      decide (Along Extension.step (fun s label => aloneStep s label = true) s
        supersededAttempt)) = true := by decide +kernel
  rw [hfirst, Option.any_some, Bool.and_eq_true, Bool.and_eq_true] at hchecked
  obtain ⟨⟨hends, hsteps⟩, halone⟩ := hchecked
  have hsteps := of_decide_eq_true hsteps
  have halone := of_decide_eq_true halone
  cases hrest : run Extension.step (s₀, log₀) supersededAttempt with
  | none =>
    rw [hrest] at hends
    cases hends
  | some last =>
    obtain ⟨s, log⟩ := last
    rw [hrest, Option.any_some, Bool.and_eq_true, List.isEmpty_iff, List.isEmpty_iff] at hends
    refine ⟨s₀, log₀, s, log, hfirst, hrest, ?_⟩
    exact uncommitted_restored zeroOwnerFile "g0" inSession supersededAttempt s₀ s log₀ log
      zeroOwner hfirst hrest hends.1 hends.2 (hsteps.imp fun _ _ h => (conditions_of_step h).1)
      (hsteps.imp fun _ _ h => (conditions_of_step h).2.1)
      (hsteps.imp fun _ _ h => (conditions_of_step h).2.2)
      (halone.imp fun _ _ h => alone_of_step h)

/-- The owner pairs its tablet and then its laptop with a newer token; a third token comes
    before either commits. -/
private def overlappingAttempts : List Extension.Label :=
  pairs "p1" "t1" "tablet" ++ pairs "p2" "t2" "laptop" ++
    [.execute true, .settle, .issueToken "t3" 60000, .execute true, .settle] ++
    rollsBack ++ rollsBack

/-- Both attempts roll back and none commits, but the file has the tablet in place of the
    phone. -/
theorem overlapping_left : ∃ s₀ log₀ s log,
    run Extension.step (.initial zeroOwnerFile "g0", []) inSession = some (s₀, log₀) ∧
      run Extension.step (s₀, log₀) overlappingAttempts = some (s, log) ∧
        s₀.unsettledOf zeroOwner = [] ∧ s.unsettledOf zeroOwner = [] ∧
        Along Extension.step (Extension.Unrevoked zeroOwner) (s₀, log₀) overlappingAttempts ∧
        Along Extension.step (Extension.Uncommitted zeroOwner) (s₀, log₀) overlappingAttempts ∧
        Along Extension.step (Extension.RollbacksWrite zeroOwner) (s₀, log₀)
          overlappingAttempts ∧
        s₀.recordsOf zeroOwner = [PeerRecord.entry ⟨"phone", zeroOwner.key, "2026-01-01"⟩] ∧
        s.recordsOf zeroOwner = [PeerRecord.entry ⟨"tablet", zeroOwner.key, "2026-02-02"⟩] := by
  obtain ⟨⟨s₀, log₀⟩, hfirst⟩ := Option.isSome_iff_exists.mp
    (show (run Extension.step (.initial zeroOwnerFile "g0", []) inSession).isSome = true by
      decide)
  have hchecked : (run Extension.step (.initial zeroOwnerFile "g0", []) inSession).any (fun s =>
      (run Extension.step s overlappingAttempts).any (fun s' =>
        (s.1.unsettledOf zeroOwner).isEmpty && (s'.1.unsettledOf zeroOwner).isEmpty &&
        decide (s.1.recordsOf zeroOwner =
          [PeerRecord.entry ⟨"phone", zeroOwner.key, "2026-01-01"⟩]) &&
        decide (s'.1.recordsOf zeroOwner =
          [PeerRecord.entry ⟨"tablet", zeroOwner.key, "2026-02-02"⟩])) &&
      decide (Along Extension.step (fun s label => uncommittedStep s label = true) s
        overlappingAttempts)) = true := by decide
  rw [hfirst, Option.any_some, Bool.and_eq_true] at hchecked
  obtain ⟨hends, hsteps⟩ := hchecked
  have hsteps := of_decide_eq_true hsteps
  cases hrest : run Extension.step (s₀, log₀) overlappingAttempts with
  | none =>
    rw [hrest] at hends
    cases hends
  | some last =>
    obtain ⟨s, log⟩ := last
    rw [hrest, Option.any_some, Bool.and_eq_true, Bool.and_eq_true, Bool.and_eq_true,
      List.isEmpty_iff, List.isEmpty_iff] at hends
    exact ⟨s₀, log₀, s, log, hfirst, hrest, hends.1.1.1, hends.1.1.2,
      hsteps.imp fun _ _ h => (conditions_of_step h).1,
      hsteps.imp fun _ _ h => (conditions_of_step h).2.1,
      hsteps.imp fun _ _ h => (conditions_of_step h).2.2, of_decide_eq_true hends.1.2,
      of_decide_eq_true hends.2⟩

end RemotePi.Host
