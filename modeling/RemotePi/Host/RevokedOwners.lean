import RemotePi.Host.Channels
import RemotePi.Host.UncommittedPairings

/-!
# Revoked owners

What the `revoke` command (`pi-extension/src/daemon/commands.ts`, lines 92–104) achieves over the
rest of a run. It removes the records under one raw key, closes the owner and reports. The
owner can come back by a lookup that was answered before the removal, by a request of a pairing
that has committed, by a new attempt, or by an attempt that has still to add its record.

Results:
* `attaches_letsIn`: the steps that bind an owner.
* `Out.move`: an owner that is out stays out, unless a step lets it in.
* `revoked_stays_out`: from the removal of its last record on, the owner is not authorized, not
  found and, once it is closed, not bound.
* `respelled_stays`: the revocation of one of two spellings leaves the owner authorized.
-/

namespace RemotePi.Host

open RemotePi.Lib RemotePi.Pairing RemotePi.Timeline

namespace Extension

/-! ## Coming back -/

/-- The step binds the owner, or it adds the record of an attempt of the owner. -/
def LetsIn (s : Extension) (ownerId : OwnerId) : Label → Prop
  | .resolveOwner id _ => ∃ lookup ∈ s.lookups, lookup.id = id ∧ lookup.ownerId = ownerId ∧
      lookup.known = some true ∧ s.lifecycle.isCurrent lookup.relay = true
  | .route relay other .pairing (.pairRequest id token deviceName) _ _ =>
    other = ownerId ∧ s.pairCall relay ownerId ⟨id, token, deviceName⟩ = .attach relay ownerId
  | .resumePair waiting _ => waiting.ownerId = ownerId ∧
      s.pairCall waiting.relay ownerId waiting.request = .attach waiting.relay ownerId
  | .execute true => ∃ attempt rest, s.mutations = .add attempt :: rest ∧
      attempt.ownerId = ownerId
  | _ => False

/-- Every record of the owner is under this raw key. -/
def SoleSpelling (file : PeersFile) (ownerId : OwnerId) (remoteEpk : String) : Prop :=
  ∀ e ∈ listPeers file, e.owner = some ownerId.key → e.remoteEpk = some remoteEpk

instance (file : PeersFile) (ownerId : OwnerId) (remoteEpk : String) :
    Decidable (SoleSpelling file ownerId remoteEpk) :=
  inferInstanceAs (Decidable (∀ e ∈ listPeers file, _ → _))

/-- The owner has no record, and no binding but one that is about to be closed. -/
structure Out (s : Extension) (ownerId : OwnerId) : Prop where
  records : s.recordsOf ownerId = []
  binding : s.owners.activeOwners.get? ownerId = none ∨
    ∃ remoteEpk, s.settled = some (.removed remoteEpk) ∧
      canonicalize remoteEpk = some ownerId.key

section Steps

variable {s s' : Extension} {events : List HostEvent} {label : Label} {ownerId : OwnerId}

theorem pairCall_attaches {relay relay' : RelayId} {other : OwnerId} {request : PairRequest}
    (h : (s.pairCall relay other request).attaches = some (relay', ownerId)) :
    other = ownerId ∧ s.pairCall relay ownerId request = .attach relay ownerId := by
  rcases pairCall_cases s relay other request with hcall | ⟨-, hcall⟩
  · rw [hcall] at h
    cases h
  · rw [hcall] at h
    cases h
    exact ⟨rfl, hcall⟩

/-- A step that attaches the owner lets it in. -/
theorem attaches_letsIn {relay : RelayId}
    (h : (s.ownersCall label).attaches = some (relay, ownerId)) : s.LetsIn ownerId label := by
  cases label with
  | route relay' other purpose frame env pairedAt =>
    have hroute : ∀ frame, (s.routeCall relay' other env frame).attaches = none := by
      intro frame
      unfold routeCall
      split
      · split_ifs <;> rfl
      · rfl
    cases purpose <;> cases frame
    case pairing.pairRequest => exact pairCall_attaches h
    case session.sessionHello => cases (hroute _).symm.trans h
    case session.inChannel => cases (hroute _).symm.trans h
    all_goals cases h
  | resolveOwner id env =>
    unfold ownersCall at h
    dsimp only at h
    split at h
    · rename_i lookup hfind
      unfold resolveCall at h
      split_ifs at h with hcurrent
      · cases h
      · cases h
        simp only [Bool.or_eq_true, Bool.not_eq_true', not_or, Bool.not_eq_false] at hcurrent
        refine ⟨lookup, List.mem_of_find?_eq_some hfind, ?_, rfl, ?_, hcurrent.2⟩
        · have hid := List.find?_some hfind
          exact of_decide_eq_true hid
        · cases hknown : lookup.known with
          | none =>
            rw [hknown] at hcurrent
            cases hcurrent.1
          | some known =>
            rw [hknown] at hcurrent
            exact congrArg some hcurrent.1
    · cases h
  | resumePair waiting pairedAt => exact pairCall_attaches h
  | lifecycle inner =>
    unfold ownersCall at h
    dsimp only at h
    split at h <;> cases h
  | settle =>
    unfold ownersCall at h
    dsimp only at h
    cases hsettled : s.settled with
    | none =>
      rw [hsettled] at h
      cases h
    | some settled =>
      rw [hsettled] at h
      simp only [Option.map_some, Option.getD_some, settleCall] at h
      split at h
      · split at h <;> cases h
      · cases h
  | _ => cases h

/-- A step that does not let the owner in gives it no binding. -/
theorem unbound_of_move (hnone : s.owners.activeOwners.get? ownerId = none)
    (hout : ¬ s.LetsIn ownerId label) (hmove : s.move label = some (s', events)) :
    s'.owners.activeOwners.get? ownerId = none := by
  obtain ⟨howners, -⟩ := move_makes hmove
  rw [howners]
  cases hget : (s.owners.apply (s.ownersCall label)).1.activeOwners.get? ownerId with
  | none => rfl
  | some binding =>
    rcases Owners.get?_apply hget with ⟨_, hbinding, -⟩ | ⟨relay, session, hattaches, -⟩
    · rw [hnone] at hbinding
      cases hbinding
    · exact absurd (attaches_letsIn hattaches) hout

/-- A step that does not let the owner in gives it no record. -/
theorem unrecorded_of_move (hrecords : s.recordsOf ownerId = []) (hkeyed : s.Keyed)
    (hout : ¬ s.LetsIn ownerId label) (hmove : s.move label = some (s', events)) :
    s'.recordsOf ownerId = [] := by
  have hsteps : RecordStep s label s' events := recordStep_of_moves (moves_of_move hmove)
  unfold recordsOf at hrecords ⊢
  cases hsteps with
  | kept hstorage hwrites => rw [hstorage, hrecords]
  | added hlabel hmutations hstorage hwrites =>
    rename_i attempt rest
    have hother : attempt.ownerId ≠ ownerId := by
      rintro rfl
      refine hout ?_
      rw [hlabel]
      exact ⟨attempt, rest, hmutations, rfl⟩
    have hkey := hkeyed.adds attempt (by rw [hmutations]; exact List.mem_cons_self)
    rw [hstorage, ← hrecords]
    exact ownerRecords_insertRecord_of_other (canonicalize_ne_of_owner hkey hother) _
  | rolledBack hlabel hmutations hstorage hwrites =>
    rename_i attempt receipt rest writes
    obtain ⟨hkey, hreceipt⟩ :=
      hkeyed.writes _ (hwrites.mem_iff.mpr (List.mem_cons_self (a := (attempt, receipt))))
    rw [hstorage]
    by_cases howner : attempt.ownerId = ownerId
    · refine ownerRecords_rollback_of_nil hrecords ?_ writes
      rw [hkey, howner, ownerId.canonical]
    · rw [← hrecords]
      refine @ownerRecords_mutate s.storage (.conditionalRollbackPeer receipt writes) _
        (canonicalize_ne_of_owner hkey howner) ?_
      intro other commits heq
      cases heq
      exact hreceipt
  | removed hlabel hmutations hstorage hwrites =>
    rw [hstorage]
    exact ownerRecords_removePeer_of_nil hrecords _ _
  | committed hlabel hstorage hwrites hevents => rw [hstorage, hrecords]

theorem revokedOwner_of_canonicalize {remoteEpk : String}
    (h : canonicalize remoteEpk = some ownerId.key) : revokedOwner remoteEpk = some ownerId := by
  unfold revokedOwner
  split
  · rename_i hnone
    rw [hnone] at h
    cases h
  · rename_i key hsome
    rw [hsome] at h
    exact congrArg some (OwnerId.ext_iff'.mpr (Option.some.inj h))

/-- The caller of a removal closes the owner. -/
theorem unbound_of_settle {remoteEpk : String}
    (howner : canonicalize remoteEpk = some ownerId.key) :
    (s.settle (.removed remoteEpk)).1.owners.activeOwners.get? ownerId = none := by
  unfold Extension.settle
  dsimp only
  rw [revokedOwner_of_canonicalize howner]
  show (s.owners.closeOwner ownerId).1.activeOwners.get? ownerId = none
  rw [Owners.closeOwner_eq]
  exact OrderedMap.get?_erase_self _ _

/-- While the caller of a mutation has not gone on, the mutation stays settled. -/
theorem settled_of_move {settled : Settled} (hsettled : s.settled = some settled)
    (hmove : s.move label = some (s', events)) (hlabel : label ≠ .settle) :
    s'.settled = some settled := by
  have hmoves := moves_of_move hmove
  generalize hresult : (s', events) = result at hmoves
  suffices hsuffices : result.1.settled = s.settled by
    rw [← hresult] at hsuffices
    rw [hsuffices, hsettled]
  cases hmoves with
  | lifecycle _ hstep =>
    obtain ⟨_, _, _, _, hframe⟩ := onLifecycleEvent_frame { s with lifecycle := _ } _
    rw [hframe]
  | pairing relay ownerId id token deviceName env pairedAt =>
    obtain ⟨_, _, _, _, _, hframe⟩ := handlePairRequest_frame s relay ownerId
      ⟨id, token, deviceName⟩ pairedAt
    rw [hframe]
  | session relay ownerId env pairedAt hsession =>
    obtain ⟨_, _, _, hframe⟩ := onSessionFrame_frame s relay ownerId _ env
    rw [hframe]
  | resolveOwner env hfind hknown =>
    obtain ⟨_, hframe⟩ := resolveOwner_frame s _ _ env
    rw [hframe]
  | resumePair pairedAt hwaiting hfree =>
    rename_i waiting
    obtain ⟨_, _, _, _, _, hframe⟩ := handlePairRequest_frame
      { s with waiting := s.waiting.erase waiting } waiting.relay waiting.ownerId waiting.request
      pairedAt
    rw [hframe]
  | execute writes hnone hmutations =>
    rw [hnone] at hsettled
    cases hsettled
  | settle _ => exact absurd rfl hlabel
  | startUpdate hphase hupdates =>
    obtain ⟨_, _, _, _, _, hframe⟩ := startUpdate_frame s _ _
    rw [hframe]
  | finishUpdate written hphase hupdates =>
    obtain ⟨_, _, _, hframe⟩ := finishUpdate_frame s _ _ _ _ written
    rw [hframe]
  | revoke shortId =>
    obtain ⟨_, hframe⟩ := revoke_frame s shortId
    rw [hframe]
  | _ => rfl

theorem Out.move (h : s.Out ownerId) (hkeyed : s.Keyed) (hout : ¬ s.LetsIn ownerId label)
    (hmove : s.move label = some (s', events)) :
    s'.Out ownerId ∧ (label = .settle → s'.owners.activeOwners.get? ownerId = none) := by
  have hrecords := unrecorded_of_move h.records hkeyed hout hmove
  rcases h.binding with hnone | ⟨remoteEpk, hsettled, howner⟩
  · have hunbound := unbound_of_move hnone hout hmove
    exact ⟨⟨hrecords, Or.inl hunbound⟩, fun _ => hunbound⟩
  · by_cases hlabel : label = .settle
    · subst hlabel
      have hclosed := @unbound_of_settle s _ _ howner
      unfold Extension.move at hmove
      rw [hsettled] at hmove
      rw [Option.some.inj hmove] at hclosed
      exact ⟨⟨hrecords, Or.inl hclosed⟩, fun _ => hclosed⟩
    · exact ⟨⟨hrecords, Or.inr ⟨remoteEpk, settled_of_move hsettled hmove hlabel, howner⟩⟩,
        fun heq => absurd heq hlabel⟩

/-- The removal of the only spelling puts the owner out. -/
theorem out_of_remove {writes : Bool} {remoteEpk : String} {rest : List Mutation}
    (hsole : SoleSpelling s.storage.file ownerId remoteEpk)
    (howner : canonicalize remoteEpk = some ownerId.key)
    (hremoved : (s.execute writes (.remove remoteEpk) rest).settled = some (.removed remoteEpk)) :
    (s.execute writes (.remove remoteEpk) rest).Out ownerId := by
  refine ⟨?_, Or.inr ⟨remoteEpk, hremoved, howner⟩⟩
  have hfiltered : ownerRecords ownerId.key
      ((listPeers s.storage.file).filter fun e => e.remoteEpk ≠ some remoteEpk) = [] := by
    unfold ownerRecords
    rw [List.filter_filter, List.filter_eq_nil_iff]
    intro e he hboth
    rw [Bool.and_eq_true, decide_eq_true_eq, decide_eq_true_eq] at hboth
    exact hboth.2 (hsole e he hboth.1)
  unfold recordsOf execute at *
  dsimp only at hremoved ⊢
  unfold OwnerStorage.removePeer at hremoved ⊢
  dsimp only at hremoved ⊢
  by_cases hfound : ((listPeers s.storage.file).filter
      fun e => e.remoteEpk ≠ some remoteEpk).length = (listPeers s.storage.file).length
  · rw [if_pos hfound]
    show ownerRecords ownerId.key (listPeers s.storage.file) = []
    have hall := List.filter_eq_self.mpr (List.length_filter_eq_length_iff.mp hfound)
    rw [hall] at hfiltered
    exact hfiltered
  · rw [if_neg hfound] at hremoved ⊢
    cases writes with
    | true => exact hfiltered
    | false => cases hremoved

/-! ## Nothing of the owner is under way -/

/-- No answer that the owner is known waits to be used, and no pairing request of it waits for
    another attempt or for the lane. -/
structure Quiet (s : Extension) (ownerId : OwnerId) : Prop where
  lookups : ∀ lookup ∈ s.lookups, lookup.ownerId = ownerId → lookup.known ≠ some true
  waiting : ∀ waiting ∈ s.waiting, waiting.ownerId ≠ ownerId
  adds : ∀ attempt, .add attempt ∈ s.mutations → attempt.ownerId ≠ ownerId

/-- The label is a pairing request of the owner. -/
def Label.Requests (ownerId : OwnerId) (label : Label) : Prop :=
  ∃ relay id token deviceName env pairedAt,
    label = .route relay ownerId .pairing (.pairRequest id token deviceName) env pairedAt

theorem Quiet.asker_ne (h : s.Quiet ownerId) (hrequests : ¬ label.Requests ownerId)
    (hmove : s.move label = some (s', events)) : label.asker ≠ some ownerId := by
  intro hasker
  cases label with
  | route relay other purpose frame env pairedAt =>
    cases purpose <;> cases frame
    case pairing.pairRequest =>
      cases hasker
      exact hrequests ⟨_, _, _, _, _, _, rfl⟩
    all_goals cases hasker
  | resumePair waiting pairedAt =>
    cases hasker
    unfold Extension.move at hmove
    dsimp only at hmove
    split_ifs at hmove with hwaiting
    exact h.waiting waiting hwaiting.1 rfl
  | _ => cases hasker

/-- Where nothing of the owner is under way, only its request lets it in. -/
theorem Quiet.not_letsIn (h : s.Quiet ownerId) (hrequests : ¬ label.Requests ownerId)
    (hmove : s.move label = some (s', events)) : ¬ s.LetsIn ownerId label := by
  intro hin
  have hasker := h.asker_ne hrequests hmove
  cases label with
  | resolveOwner id env =>
    obtain ⟨lookup, hlookup, -, howner, hknown, -⟩ := hin
    exact h.lookups lookup hlookup howner hknown
  | route relay other purpose frame env pairedAt =>
    cases purpose <;> cases frame
    case pairing.pairRequest => exact hasker (congrArg some hin.1)
    all_goals exact hin
  | resumePair waiting pairedAt => exact hasker (congrArg some hin.1)
  | execute writes =>
    cases writes with
    | false => exact hin
    | true =>
      obtain ⟨attempt, rest, hmutations, howner⟩ := hin
      exact h.adds attempt (by rw [hmutations]; exact List.mem_cons_self) howner
  | _ => exact hin

theorem waiting_handlePairRequest (s : Extension) (relay : RelayId) (ownerId : OwnerId)
    (request : PairRequest) (pairedAt : String) :
    ∀ waiting ∈ (s.handlePairRequest relay ownerId request pairedAt).1.waiting,
      waiting ∈ s.waiting ∨ waiting.ownerId = ownerId := by
  unfold handlePairRequest
  split_ifs
  · exact fun _ hmem => Or.inl hmem
  · intro waiting hmem
    rcases List.mem_append.mp hmem with hmem | hmem
    · exact Or.inl hmem
    · exact Or.inr (by rw [List.mem_singleton.mp hmem])
  · dsimp only
    split
    · exact fun _ hmem => Or.inl hmem
    · exact fun _ hmem => Or.inl hmem
    · exact fun _ hmem => Or.inl hmem
    · split_ifs <;> exact fun _ hmem => Or.inl hmem
    · split <;> exact fun _ hmem => Or.inl hmem

/-- A request that comes to wait is the one that the step takes up. -/
theorem waiting_of_moves {result : Extension × List HostEvent} (h : Moves s label result) :
    ∀ waiting ∈ result.1.waiting, waiting ∈ s.waiting ∨ label.asker = some waiting.ownerId := by
  cases h with
  | lifecycle hlabel hstep =>
    obtain ⟨_, _, _, _, hframe⟩ := onLifecycleEvent_frame { s with lifecycle := _ } _
    rw [hframe]
    exact fun _ hmem => Or.inl hmem
  | pairing relay ownerId id token deviceName env pairedAt =>
    intro waiting hmem
    exact (waiting_handlePairRequest s relay ownerId ⟨id, token, deviceName⟩ pairedAt waiting
      hmem).imp_right fun howner => congrArg some howner.symm
  | session relay ownerId env pairedAt hsession =>
    obtain ⟨_, _, _, hframe⟩ := onSessionFrame_frame s relay ownerId _ env
    rw [hframe]
    exact fun _ hmem => Or.inl hmem
  | resolveOwner env hfind hknown =>
    obtain ⟨_, hframe⟩ := resolveOwner_frame s _ _ env
    rw [hframe]
    exact fun _ hmem => Or.inl hmem
  | resumePair pairedAt hwaiting hfree =>
    rename_i resumed
    intro waiting hmem
    rcases waiting_handlePairRequest { s with waiting := s.waiting.erase resumed } resumed.relay
      resumed.ownerId resumed.request pairedAt waiting hmem with hmem | howner
    · exact Or.inl (List.mem_of_mem_erase hmem)
    · exact Or.inr (congrArg some howner.symm)
  | execute writes hsettled hmutations =>
    obtain ⟨_, _, hframe⟩ := execute_frame s writes _ _
    rw [hframe]
    exact fun _ hmem => Or.inl hmem
  | settle hsettled =>
    obtain ⟨_, _, _, _, _, hframe⟩ := settle_frame s _
    rw [hframe]
    exact fun _ hmem => Or.inl hmem
  | startUpdate hphase hupdates =>
    obtain ⟨_, _, _, _, _, hframe⟩ := startUpdate_frame s _ _
    rw [hframe]
    exact fun _ hmem => Or.inl hmem
  | finishUpdate written hphase hupdates =>
    obtain ⟨_, _, _, hframe⟩ := finishUpdate_frame s _ _ _ _ written
    rw [hframe]
    exact fun _ hmem => Or.inl hmem
  | revoke shortId =>
    obtain ⟨_, hframe⟩ := revoke_frame s shortId
    rw [hframe]
    exact fun _ hmem => Or.inl hmem
  | _ => exact fun _ hmem => Or.inl hmem

theorem findKnownOwner_of_no_records (h : s.recordsOf ownerId = []) :
    (findKnownOwner s.storage.file ownerId.key).isSome = false := by
  rw [Bool.eq_false_iff, ne_eq, findKnownOwner_isSome ownerId.canonical, recorded_iff, not_not]
  exact h

/-- The file is read for a lookup of an owner without records: the owner is not known. -/
theorem Quiet.lookups_of_moves {result : Extension × List HostEvent} (h : s.Quiet ownerId)
    (hnumbered : Numbered s) (hrecords : s.recordsOf ownerId = [])
    (hmoves : Moves s label result) :
    ∀ lookup ∈ result.1.lookups, lookup.ownerId = ownerId → lookup.known ≠ some true := by
  by_cases hother : (∃ relay other frame env pairedAt,
      label = .route relay other .session frame env pairedAt ∧
        ∀ id token deviceName, frame ≠ .pairRequest id token deviceName) ∨
      (∃ id, label = .readOwner id) ∨ ∃ id env, label = .resolveOwner id env
  · cases hmoves with
    | session relay other env pairedAt hframe =>
      unfold onSessionFrame
      split
      · split_ifs <;> exact h.lookups
      · split_ifs
        · intro lookup hmem howner
          rcases List.mem_append.mp hmem with hmem | hmem
          · exact h.lookups lookup hmem howner
          · rw [List.mem_singleton.mp hmem]
            exact nofun
        · exact h.lookups
    | readOwner hfind =>
      rename_i id read
      have hread := List.mem_of_find?_eq_some hfind
      have hid : read.id = id := by
        have hfound := List.find?_some hfind
        rw [Bool.and_eq_true, decide_eq_true_eq] at hfound
        exact hfound.1
      intro lookup hmem howner
      obtain ⟨before, hbefore, rfl⟩ := List.mem_map.mp hmem
      by_cases hsame : before.id = id
      · rw [if_pos hsame] at howner ⊢
        obtain rfl := hnumbered.eq_of_id hbefore hread (hsame.trans hid.symm)
        dsimp only at howner
        rw [howner, findKnownOwner_of_no_records hrecords]
        exact nofun
      · rw [if_neg hsame] at howner ⊢
        exact h.lookups before hbefore howner
    | resolveOwner env hfind hknown =>
      obtain ⟨_, hframe⟩ := resolveOwner_frame s _ _ env
      rw [hframe]
      exact fun lookup hmem => h.lookups lookup (List.mem_of_mem_filter hmem)
    | misrouted relay other env pairedAt hframe => exact h.lookups
    | _ => simp at hother
  · rw [not_or, not_or] at hother
    obtain ⟨⟨hlookups, -⟩, -⟩ := Host.lookups_of_moves hmoves
      (fun relay other frame env pairedAt heq => by
        by_contra hpairs
        simp only [not_exists] at hpairs
        exact hother.1 ⟨relay, other, frame, env, pairedAt, heq, hpairs⟩)
      (fun id heq => hother.2.1 ⟨id, heq⟩) (fun id env heq => hother.2.2 ⟨id, env, heq⟩)
    rw [hlookups]
    exact h.lookups

theorem Quiet.move (h : s.Quiet ownerId) (hnumbered : Numbered s)
    (hrecords : s.recordsOf ownerId = []) (hrequests : ¬ label.Requests ownerId)
    (hmove : s.move label = some (s', events)) : s'.Quiet ownerId := by
  have hmoves := moves_of_move hmove
  have hasker := h.asker_ne hrequests hmove
  refine ⟨h.lookups_of_moves hnumbered hrecords hmoves, fun waiting hmem howner => ?_,
    fun attempt hmem howner => ?_⟩
  · rcases waiting_of_moves hmoves waiting hmem with hmem | hnew
    · exact h.waiting waiting hmem howner
    · exact hasker (by rw [hnew, howner])
  · rcases addsOf_of_moves hmoves attempt hmem with hmem | ⟨-, hnew⟩
    · exact h.adds attempt hmem howner
    · exact hasker (by rw [hnew, howner])

/-- An owner that is out, with nothing of it under way. -/
structure Gone (s : Extension) (ownerId : OwnerId) : Prop where
  out : s.Out ownerId
  quiet : s.Quiet ownerId
  keyed : s.Keyed
  numbered : Numbered s

theorem Gone.move (h : s.Gone ownerId) (hrequests : ¬ label.Requests ownerId)
    (hmove : s.move label = some (s', events)) :
    s'.Gone ownerId ∧ (label = .settle → s'.owners.activeOwners.get? ownerId = none) := by
  have hin := h.quiet.not_letsIn hrequests hmove
  obtain ⟨hout, hclosed⟩ := h.out.move h.keyed hin hmove
  exact ⟨⟨hout, h.quiet.move h.numbered h.out.records hrequests hmove, h.keyed.move hmove,
    h.numbered.of_moves (moves_of_move hmove)⟩, hclosed⟩

theorem Gone.unbound (h : s.Gone ownerId)
    (hnone : s.owners.activeOwners.get? ownerId = none) (hrequests : ¬ label.Requests ownerId)
    (hmove : s.move label = some (s', events)) :
    s'.owners.activeOwners.get? ownerId = none :=
  unbound_of_move hnone (h.quiet.not_letsIn hrequests hmove) hmove

end Steps

/-! ## Runs -/

section Runs

variable {s s' : Extension × List HostEvent} {ownerId : OwnerId} {labels : List Label}

/-- An owner that is gone stays gone, and is not bound once the caller of the removal has gone
    on. -/
theorem gone_run (h : s.1.Gone ownerId)
    (hrequests : ∀ label ∈ labels, ¬ label.Requests ownerId)
    (hrun : run step s labels = some s') :
    s'.1.Gone ownerId ∧ (s.1.owners.activeOwners.get? ownerId = none ∨ .settle ∈ labels →
      s'.1.owners.activeOwners.get? ownerId = none) := by
  induction labels generalizing s with
  | nil =>
    cases hrun
    exact ⟨h, fun hsettle => hsettle.elim id (fun hmem => by cases hmem)⟩
  | cons label labels ih =>
    obtain ⟨t, hstep, hrest⟩ := run_cons_eq_some.mp hrun
    obtain ⟨events, hmove, -⟩ := logged_eq_some.mp hstep
    have hlabel := hrequests label List.mem_cons_self
    obtain ⟨hgone, hclosed⟩ := h.move hlabel hmove
    obtain ⟨hend, hbound⟩ :=
      ih hgone (fun other hmem => hrequests other (List.mem_cons_of_mem _ hmem)) hrest
    refine ⟨hend, fun hsettle => hbound ?_⟩
    rcases hsettle with hnone | hmem
    · exact Or.inl (h.unbound hnone hlabel hmove)
    · rcases List.mem_cons.mp hmem with heq | hmem
      · exact Or.inl (hclosed heq.symm)
      · exact Or.inr hmem

theorem keyed_run {file : PeersFile} {generation : String}
    (hrun : run step (.initial file generation, []) labels = some s) : s.1.Keyed := by
  refine @invariant_run _ _ step (fun s => s.1.Keyed) ?_ _ _ _ (keyed_initial file generation) hrun
  intro s label s' h hstep
  obtain ⟨events, hmove, -⟩ := logged_eq_some.mp hstep
  exact h.move hmove

theorem numbered_run {file : PeersFile} {generation : String}
    (hrun : run step (.initial file generation, []) labels = some s) : Numbered s.1 := by
  refine @invariant_run _ _ step (fun s => Numbered s.1) ?_ _ _ _
    (numbered_initial file generation) hrun
  intro s label s' h hstep
  obtain ⟨events, hmove, -⟩ := logged_eq_some.mp hstep
  have hnumbered := h.of_moves (moves_of_move hmove)
  exact hnumbered

end Runs

end Extension

/-- The record of an owner is removed where the file has no other spelling of it and nothing of
    the owner is under way. Whatever else comes, while the owner asks for no pairing it is not
    in the lists of the relay, it is not found, and once the command has closed it it is not
    bound. -/
theorem revoked_stays_out (file : PeersFile) (generation : String)
    (first rest : List Extension.Label) (s₁ s₂ s : Extension) (log₁ log₂ log : List HostEvent)
    (ownerId : OwnerId) (remoteEpk : String) (tail : List Mutation) (writes : Bool)
    (hfirst : run Extension.step (.initial file generation, []) first = some (s₁, log₁))
    (hhead : s₁.mutations = .remove remoteEpk :: tail)
    (howner : canonicalize remoteEpk = some ownerId.key)
    (hsole : Extension.SoleSpelling s₁.storage.file ownerId remoteEpk)
    (hquiet : s₁.Quiet ownerId)
    (hremove : Extension.step (s₁, log₁) (.execute writes) = some (s₂, log₂))
    (hremoved : s₂.settled = some (.removed remoteEpk))
    (hrest : run Extension.step (s₂, log₂) rest = some (s, log))
    (hrequests : ∀ label ∈ rest, ¬ label.Requests ownerId) :
    ownerId.key ∉ authorizedOwnerIds s.storage.file ∧
      findKnownOwner s.storage.file ownerId.key = none ∧
      (.settle ∈ rest → s.owners.activeOwners.get? ownerId = none) := by
  obtain ⟨events, hmove, -⟩ := logged_eq_some.mp hremove
  have hkeyed₁ := Extension.keyed_run hfirst
  have hnumbered₁ := Extension.numbered_run hfirst
  have hgone : s₂.Gone ownerId := by
    have hmoves := Extension.moves_of_move hmove
    have hnumbered := hnumbered₁.of_moves hmoves
    have hkeyed := hkeyed₁.move hmove
    unfold Extension.move at hmove
    dsimp only at hmove
    rw [hhead] at hmove
    split at hmove
    · rename_i mutation others hsettled heq
      obtain ⟨rfl, rfl⟩ := List.cons_eq_cons.mp heq
      obtain ⟨rfl, -⟩ := Prod.mk.inj (Option.some.inj hmove)
      obtain ⟨_, _, hframe⟩ := Extension.execute_frame s₁ writes (.remove remoteEpk) tail
      refine ⟨Extension.out_of_remove hsole howner hremoved, ⟨?_, ?_, ?_⟩, hkeyed, hnumbered⟩
      · rw [hframe]
        exact hquiet.lookups
      · rw [hframe]
        exact hquiet.waiting
      · rw [hframe]
        intro attempt hmem
        exact hquiet.adds attempt (by rw [hhead]; exact List.mem_cons_of_mem _ hmem)
    · cases hmove
  obtain ⟨hend, hunbound⟩ := Extension.gone_run hgone hrequests hrest
  have hrecords : ¬ Recorded s.storage.file ownerId.key :=
    fun h => recorded_iff.mp h hend.out.records
  refine ⟨fun hmem => hrecords (mem_authorizedOwnerIds.mp hmem), ?_, fun hmem =>
    hunbound (Or.inr hmem)⟩
  have hfound := Extension.findKnownOwner_of_no_records hend.out.records
  exact Option.not_isSome_iff_eq_none.mp (by rw [hfound]; exact Bool.false_ne_true)

/-- The paired owner is in its session, and its record is in the lane for removal. -/
private def revoking : List Extension.Label :=
  firstConnect [zeroOwner.key] ++ [.sessionStart ⟨0, "s", sampleSession_named⟩ "g", helloRoute "h1" "c1",
    .readOwner 0, .resolveOwner 0 idleEnv, .revoke "AAAA"]

/-- The caller goes on, the lists are updated, and the owner says hello again. -/
private def helloAgain : List Extension.Label :=
  [.settle, .startUpdate, .readUpdate, .finishUpdate true, helloRoute "h2" "c2", .readOwner 1,
    .resolveOwner 1 idleEnv]

theorem revoked_stays_out_hello : ∃ s log,
    run Extension.step (.initial zeroOwnerFile "g0", [])
      (revoking ++ .execute true :: helloAgain) = some (s, log) ∧
    zeroOwner.key ∉ authorizedOwnerIds s.storage.file ∧
      s.owners.activeOwners.get? zeroOwner = none := by
  obtain ⟨⟨s₁, log₁⟩, hfirst⟩ := Option.isSome_iff_exists.mp
    (show (run Extension.step (.initial zeroOwnerFile "g0", []) revoking).isSome = true by
      decide)
  have hchecked : (run Extension.step (.initial zeroOwnerFile "g0", []) revoking).any (fun s =>
      decide (s.1.mutations = [.remove zeroOwner.key]) &&
      decide (Extension.SoleSpelling s.1.storage.file zeroOwner zeroOwner.key) &&
      s.1.lookups.isEmpty && s.1.waiting.isEmpty &&
      (Extension.step s (.execute true)).any fun s' =>
        decide (s'.1.settled = some (.removed zeroOwner.key)) &&
        (run Extension.step s' helloAgain).isSome) = true := by decide
  rw [hfirst, Option.any_some] at hchecked
  simp only [Bool.and_eq_true, decide_eq_true_eq, List.isEmpty_iff] at hchecked
  obtain ⟨⟨⟨⟨hmutations, hsole⟩, hlookups⟩, hwaiting⟩, hrest⟩ := hchecked
  rw [Option.any_eq_true] at hrest
  obtain ⟨⟨s₂, log₂⟩, hremove, hrest⟩ := hrest
  simp only [Bool.and_eq_true, decide_eq_true_eq] at hrest
  obtain ⟨hremoved, hrest⟩ := hrest
  obtain ⟨⟨s, log⟩, hrest⟩ := Option.isSome_iff_exists.mp hrest
  have hends := revoked_stays_out zeroOwnerFile "g0" revoking helloAgain s₁ s₂ s log₁ log₂ log
    zeroOwner zeroOwner.key [] true hfirst hmutations zeroOwner.canonical hsole
    ⟨by rw [hlookups]; exact nofun, by rw [hwaiting]; exact nofun,
      by rw [hmutations]; simp⟩ hremove hremoved hrest
    (by rintro label hmem ⟨_, _, _, _, _, _, rfl⟩; simp [helloAgain, helloRoute] at hmem)
  refine ⟨s, log, ?_, hends.1, hends.2.2 List.mem_cons_self⟩
  rw [run_append, hfirst, Option.bind_some, run_cons, hremove, Option.bind_some, hrest]

/-- The key of the owner without its padding. -/
private def unpadded : String := "AAAAAAAAAAAAAAAAAAAAAAAAAAAAAAAAAAAAAAAAAAA"

/-- The owner is in the file under two spellings of its key. -/
private def respelledFile : PeersFile :=
  .peers [PeerRecord.entry ⟨"phone", zeroOwner.key, "2026-01-01"⟩,
    PeerRecord.entry ⟨"tablet", unpadded, "2026-01-02"⟩]

/-- One of two spellings is revoked: the owner is in the lists of the next update. -/
theorem respelled_stays : ∃ s log,
    run Extension.step (.initial respelledFile "g0", [])
      [.revoke zeroOwner.key, .execute true, .settle] = some (s, log) ∧
      s.recordsOf zeroOwner = [PeerRecord.entry ⟨"tablet", unpadded, "2026-01-02"⟩] ∧
        zeroOwner.key ∈ authorizedOwnerIds s.storage.file := by
  obtain ⟨⟨s, log⟩, hrun⟩ := Option.isSome_iff_exists.mp
    (show (run Extension.step (.initial respelledFile "g0", [])
      [.revoke zeroOwner.key, .execute true, .settle]).isSome = true by decide)
  have hchecked : (run Extension.step (.initial respelledFile "g0", [])
      [.revoke zeroOwner.key, .execute true, .settle]).any (fun s =>
        decide (s.1.recordsOf zeroOwner =
          [PeerRecord.entry ⟨"tablet", unpadded, "2026-01-02"⟩]) &&
        decide (zeroOwner.key ∈ authorizedOwnerIds s.1.storage.file)) = true := by
    decide
  rw [hrun, Option.any_some, Bool.and_eq_true] at hchecked
  exact ⟨s, log, hrun, of_decide_eq_true hchecked.1, of_decide_eq_true hchecked.2⟩

end RemotePi.Host
