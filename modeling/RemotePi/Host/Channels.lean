import RemotePi.Host.System

/-!
# Channels of an owner stay open

An owner that has got `session_ready` for a channel is not refused there until it is
detached; the session frames of a known owner are handled in the order in which they
come.

Both fail when a lookup of `installOwnerRouter` (`pi-extension/src/runtime/owner_router.ts`,
lines 30–35) comes back late: the owner may have a binding by then, which `attachOwner`
replaces, and frames that came later may have been handled.

Results:
* `channels_stay_open`: in a run in which no attachment replaces a binding with a ready
  channel and no frame overtakes one that waits, channels stay open and frames are handled
  in order.
* `late_lookup_closes_channel`: a run in which a second lookup closes a channel.
-/

namespace RemotePi.Host

open RemotePi.Lib RemotePi.Pairing RemotePi.Timeline

/-! ## What is asked of a log -/

def readyChannel : ServiceFrame → Option String
  | .sessionReady targetChannelId _ _ _ _ => some targetChannelId
  | _ => none

def readiedStep (ownerId : OwnerId) (channels : List String) : HostEvent → List String
  | .handled other _ _ answers _ =>
    if other = ownerId then channels ++ answers.filterMap readyChannel else channels
  | .detached other _ cause => if other = ownerId ∧ cause ≠ .attach then [] else channels
  | _ => channels

/-- The channels for which the owner has got `session_ready` since a disconnect, a stop, a
    revocation or a session replacement has detached it. -/
def readied (ownerId : OwnerId) (log : List HostEvent) : List String :=
  log.foldl (readiedStep ownerId) []

/-- A frame in such a channel, of the current generation, is not answered with
    `invalid_channel`. -/
def Unrefused (before : List HostEvent) : HostEvent → Prop
  | .handled ownerId (.inChannel frame _) generation answers _ =>
    frame.channelId ∈ readied ownerId before → frame.historyGeneration = generation →
      ∀ target inReplyTo message,
        .protocolError target inReplyTo .invalidChannel message ∉ answers
  | _ => True

/-- The session frames of the owner that have been taken in. -/
def arrivedFrames (ownerId : OwnerId) (log : List HostEvent) : List ClientFrame :=
  log.filterMap fun
    | .arrived other frame => if other = ownerId then some frame else none
    | _ => none

/-- The frames of the owner that its services have handled. -/
def handledFrames (ownerId : OwnerId) (log : List HostEvent) : List ClientFrame :=
  log.filterMap fun
    | .handled other frame _ _ _ => if other = ownerId then some frame else none
    | _ => none

/-- The frames of the owner that wait for a lookup. -/
def waitingFrames (s : Extension) (relay : RelayId) (ownerId : OwnerId) : List ClientFrame :=
  (s.lookups.filter fun lookup => lookup.relay = relay ∧ lookup.ownerId = ownerId).map Lookup.frame

/-- The relay client stays current, a session is present, and the owner is known: the file
    records it whenever it is read for one of its frames. -/
def Serving (relay : RelayId) (ownerId : OwnerId) (s : Extension × List HostEvent)
    (label : Extension.Label) : Prop :=
  s.1.lifecycle.isCurrent relay = true ∧ s.1.owners.currentSession.isSome = true ∧
    ∀ id, label = .readOwner id → ∀ lookup ∈ s.1.lookups, lookup.id = id → lookup.relay = relay →
      lookup.ownerId = ownerId → Recorded s.1.storage.file ownerId.key

/-- For no frame of the owner that waits has the file been read without its record. -/
def NoneUnknown (relay : RelayId) (ownerId : OwnerId) (s : Extension) : Prop :=
  ∀ lookup ∈ s.lookups, lookup.relay = relay → lookup.ownerId = ownerId →
    lookup.known ≠ some false

/-! ## The condition -/

/-- The step attaches no owner that has a binding with a ready channel. -/
def KeepsChannels (s : Extension × List HostEvent) (label : Extension.Label) : Prop :=
  ∀ relay ownerId, (s.1.ownersCall label).attaches = some (relay, ownerId) →
    ∀ binding ∈ s.1.owners.activeOwners.get? ownerId,
      ∀ channelId, ¬ binding.service.IsReady channelId

/-- The step handles no frame while an older one of the owner waits. -/
def KeepsOrder (s : Extension × List HostEvent) : Extension.Label → Prop
  | .route relay ownerId .session _ _ _ =>
    s.1.owners.activeOwners.contains ownerId = true →
      ∀ lookup ∈ s.1.lookups, lookup.relay = relay → lookup.ownerId ≠ ownerId
  | .resolveOwner id _ =>
    ∀ lookup ∈ s.1.lookups, lookup.id = id → lookup.known = some true →
      ∀ other ∈ s.1.lookups, other.relay = lookup.relay → other.ownerId = lookup.ownerId →
        id ≤ other.id
  | _ => True

/-! ## Channels -/

section Ready

variable {s : Owners} {log events : List HostEvent} {ownerId : OwnerId} {channelId : String}

theorem readied_append (ownerId : OwnerId) (log events : List HostEvent) :
    readied ownerId (log ++ events) = events.foldl (readiedStep ownerId) (readied ownerId log) :=
  List.foldl_append

/-- Events that report no handled frame. -/
def Silent (events : List HostEvent) : Prop :=
  ∀ ownerId frame generation answers calls,
    .handled ownerId frame generation answers calls ∉ events

/-- Silent events open no channel, and a detachment closes them. -/
theorem mem_readied_of_silent (hsilent : Silent events)
    (h : channelId ∈ readied ownerId (log ++ events)) :
    channelId ∈ readied ownerId log ∧
      ∀ binding cause, .detached ownerId binding cause ∈ events → cause = .attach := by
  induction events generalizing log with
  | nil =>
    rw [List.append_nil] at h
    exact ⟨h, nofun⟩
  | cons event events ih =>
    rw [List.append_cons] at h
    have hrest : Silent events := fun _ _ _ _ _ hmem =>
      hsilent _ _ _ _ _ (List.mem_cons_of_mem _ hmem)
    obtain ⟨hfirst, hdetached⟩ := ih hrest h
    rw [readied_append, List.foldl_cons, List.foldl_nil] at hfirst
    cases event with
    | handled other frame generation answers calls =>
      exact absurd List.mem_cons_self (hsilent _ _ _ _ _)
    | detached other binding cause =>
      unfold readiedStep at hfirst
      dsimp only at hfirst
      split_ifs at hfirst with hcause
      · cases hfirst
      · refine ⟨hfirst, fun binding' cause' hmem => ?_⟩
        rcases List.mem_cons.mp hmem with heq | hmem
        · cases heq
          by_contra hne
          exact hcause ⟨rfl, hne⟩
        · exact hdetached binding' cause' hmem
    | _ =>
      refine ⟨hfirst, fun binding' cause' hmem => ?_⟩
      rcases List.mem_cons.mp hmem with heq | hmem
      · cases heq
      · exact hdetached binding' cause' hmem

/-- The channels of the log are ready in the service of the owner. -/
def Ready (s : Owners) (log : List HostEvent) : Prop :=
  ∀ ownerId channelId, channelId ∈ readied ownerId log →
    ∃ binding, s.activeOwners.get? ownerId = some binding ∧ binding.service.IsReady channelId

theorem unrefused_of_silent (hsilent : Silent events) :
    Throughout (fun before => Unrefused (log ++ before)) events := by
  refine throughout_of_forall fun before event hevent => ?_
  cases event with
  | handled other frame generation answers calls => exact absurd hevent (hsilent _ _ _ _ _)
  | _ => trivial

/-- A frame that is handled keeps the channels and is not refused in one of them. -/
theorem Ready.route (h : Ready s log) (env : ServiceEnv) (ownerId : OwnerId)
    (frame : ClientFrame) :
    Ready (s.routeClientFrame env ownerId frame).1
        (log ++ (s.routeClientFrame env ownerId frame).2) ∧
      Throughout (fun before => Unrefused (log ++ before))
        (s.routeClientFrame env ownerId frame).2 := by
  cases hget : s.activeOwners.get? ownerId with
  | none =>
    rw [Owners.routeClientFrame_of_none s ownerId env frame hget]
    refine ⟨?_, throughout_nil⟩
    rw [List.append_nil]
    exact h
  | some binding =>
    rw [Owners.routeClientFrame_of_some s ownerId env frame hget]
    refine ⟨fun other channelId hmem => ?_, ?_⟩
    · rw [readied_append, List.foldl_cons, List.foldl_nil] at hmem
      unfold readiedStep at hmem
      dsimp only at hmem ⊢
      split_ifs at hmem with howner
      · subst howner
        refine ⟨_, OrderedMap.get?_set_self _ _ _, ?_⟩
        rcases List.mem_append.mp hmem with hmem | hmem
        · obtain ⟨found, hfound, hready⟩ := h _ channelId hmem
          rw [hget] at hfound
          cases hfound
          exact hready.handle _ _
        · obtain ⟨answer, hanswer, hchannel⟩ := List.mem_filterMap.mp hmem
          cases answer with
          | sessionReady target inReplyTo sessionId generation selfSenderRef =>
            cases hchannel
            exact TimelineV2Service.isReady_of_sessionReady hanswer
          | _ => cases hchannel
      · rw [OrderedMap.get?_set_of_ne _ _ (Ne.symm howner)]
        exact h other channelId hmem
    · rw [throughout_singleton, List.append_nil]
      cases frame with
      | inChannel frame request =>
        intro hmem _ target inReplyTo message hanswer
        obtain ⟨found, hfound, hready⟩ := h ownerId _ hmem
        rw [hget] at hfound
        cases hfound
        exact TimelineV2Service.not_invalidChannel hready hanswer
      | _ => trivial

theorem Ready.of_silent (h : Ready s log) {s' : Owners} (hsilent : Silent events)
    (hkeeps : ∀ ownerId binding, s.activeOwners.get? ownerId = some binding →
      (∃ binding', s'.activeOwners.get? ownerId = some binding' ∧
          Owners.Continues binding binding') ∨
        (∃ cause, cause ≠ .attach ∧ .detached ownerId binding.id cause ∈ events) ∨
          ∀ channelId, ¬ binding.service.IsReady channelId) :
    Ready s' (log ++ events) := by
  intro ownerId channelId hmem
  obtain ⟨hmem, hdetached⟩ := mem_readied_of_silent hsilent hmem
  obtain ⟨binding, hget, hready⟩ := h ownerId channelId hmem
  rcases hkeeps ownerId binding hget with ⟨binding', hget', hcontinues⟩ |
    ⟨cause, hcause, hin⟩ | hnone
  · exact ⟨binding', hget', hcontinues.ready channelId hready⟩
  · exact absurd (hdetached binding.id cause hin) hcause
  · exact absurd hready (hnone channelId)

theorem silent_attachOwner (s : Owners) (relay : RelayId) (ownerId : OwnerId) :
    Silent (s.attachOwner relay ownerId).2.2 := by
  intro other frame generation answers calls hmem
  cases hsession : s.currentSession with
  | none =>
    rw [Owners.attachOwner_of_none s relay ownerId hsession] at hmem
    simp at hmem
  | some session =>
    rw [Owners.attachOwner_of_session s relay ownerId hsession] at hmem
    simp at hmem

theorem silent_finishSessionReplacement (s : Owners) : Silent s.finishSessionReplacement.2 := by
  intro other frame generation answers calls hmem
  unfold Owners.finishSessionReplacement at hmem
  split at hmem
  · cases hmem
  · split_ifs at hmem
    · cases hmem
    · simp [Owners.byeOf] at hmem

theorem silent_nil : Silent [] := fun _ _ _ _ _ hmem => by cases hmem

/-- The call routes a frame. -/
def routes : Owners.Call → Bool
  | .route _ _ _ => true
  | .attachAndRoute _ _ _ _ => true
  | _ => false

/-- A call that routes no frame is silent. -/
theorem silent_apply (s : Owners) {call : Owners.Call} (hroutes : routes call = false) :
    Silent (s.apply call).2 := by
  cases call with
  | nothing => exact silent_nil
  | attach relay ownerId => exact silent_attachOwner s relay ownerId
  | attachAndRoute relay ownerId env frame => cases hroutes
  | route ownerId env frame => cases hroutes
  | close ownerId =>
    intro other frame generation answers calls hmem
    have hmem : _ ∈ (s.closeOwner ownerId).2 := hmem
    rw [Owners.closeOwner_eq] at hmem
    simp [Owners.byeOf] at hmem
  | detachAll reason =>
    intro other frame generation answers calls hmem
    cases reason with
    | none => simp [Owners.apply, Owners.detachAll] at hmem
    | some reason => simp [Owners.apply, Owners.detachAll, Owners.sayBye, Owners.byeOf] at hmem
  | sessionStart session generation =>
    show Silent (s.sessionStart session generation).2
    unfold Owners.sessionStart
    dsimp only
    split_ifs
    · exact silent_nil
    · exact silent_finishSessionReplacement _
  | sessionTree env generation =>
    intro other frame generation' answers calls hmem
    obtain ⟨entry, -, hmem⟩ := List.mem_flatMap.mp hmem
    obtain ⟨_, -, heq⟩ := List.mem_map.mp hmem
    cases heq
  | sessionShutdown => exact silent_nil
  | sessionNewStart => exact silent_nil
  | sessionNewEnd => exact silent_finishSessionReplacement _

/-- A call that attaches no owner with a ready channel keeps the channels. -/
theorem Ready.apply (h : Ready s log) {call : Owners.Call}
    (hattach : ∀ relay ownerId, call.attaches = some (relay, ownerId) →
      ∀ binding ∈ s.activeOwners.get? ownerId, ∀ channelId, ¬ binding.service.IsReady channelId) :
    Ready (s.apply call).1 (log ++ (s.apply call).2) ∧
      Throughout (fun before => Unrefused (log ++ before)) (s.apply call).2 := by
  have hcall : ∀ call : Owners.Call, Silent (s.apply call).2 →
      (∀ relay ownerId, call.attaches = some (relay, ownerId) →
        ∀ binding ∈ s.activeOwners.get? ownerId, ∀ channelId,
          ¬ binding.service.IsReady channelId) →
        Ready (s.apply call).1 (log ++ (s.apply call).2) := by
    intro call hsilent hattach
    refine h.of_silent hsilent fun ownerId binding hget => ?_
    rcases Owners.apply_keeps call hget with hkeeps | hdetached | ⟨relay, hrelay⟩
    · exact Or.inl hkeeps
    · exact Or.inr (Or.inl hdetached)
    · exact Or.inr (Or.inr (hattach relay ownerId hrelay binding hget))
  cases call with
  | route ownerId env frame => exact h.route env ownerId frame
  | attachAndRoute relay ownerId env frame =>
    have hsilent := silent_attachOwner s relay ownerId
    have hattached := hcall (.attach relay ownerId) hsilent hattach
    obtain ⟨hready, hunrefused⟩ := hattached.route env ownerId frame
    refine ⟨?_, throughout_append.mpr ⟨unrefused_of_silent hsilent, ?_⟩⟩
    · rw [List.append_assoc] at hready
      exact hready
    · simp only [List.append_assoc] at hunrefused
      exact hunrefused
  | _ =>
    exact ⟨hcall _ (silent_apply s rfl) hattach, unrefused_of_silent (silent_apply s rfl)⟩

/-- The channels are ready, and no frame has been refused in one. -/
structure Open (s : Owners) (log : List HostEvent) : Prop where
  ready : Ready s log
  unrefused : Throughout Unrefused log

theorem Open.silent (h : Open s log) (hsilent : Silent events) : Open s (log ++ events) where
  ready := h.ready.of_silent hsilent fun _ binding hget => Or.inl ⟨binding, hget, .refl binding⟩
  unrefused := throughout_append.mpr ⟨h.unrefused, unrefused_of_silent hsilent⟩

theorem Open.apply (h : Open s log) {call : Owners.Call}
    (hattach : ∀ relay ownerId, call.attaches = some (relay, ownerId) →
      ∀ binding ∈ s.activeOwners.get? ownerId, ∀ channelId, ¬ binding.service.IsReady channelId) :
    Open (s.apply call).1 (log ++ (s.apply call).2) where
  ready := (h.ready.apply hattach).1
  unrefused := throughout_append.mpr ⟨h.unrefused, (h.ready.apply hattach).2⟩

theorem silent_of_isNews (h : ∀ e ∈ events, e.isNews = true) : Silent events := by
  intro ownerId frame generation answers calls hmem
  have hnews := h _ hmem
  cases hnews

theorem mem_arrivals {s : Extension} {label : Extension.Label} {event : HostEvent}
    (h : event ∈ s.arrivals label) : ∃ ownerId frame, event = .arrived ownerId frame := by
  have harrival : ∀ relay ownerId frame, event ∈ s.arrival relay ownerId frame →
      ∃ ownerId frame, event = .arrived ownerId frame := by
    intro relay ownerId frame h
    unfold Extension.arrival at h
    split at h <;> split_ifs at h
    · exact ⟨ownerId, frame, List.mem_singleton.mp h⟩
    · cases h
    · exact ⟨ownerId, frame, List.mem_singleton.mp h⟩
    · cases h
  unfold Extension.arrivals at h
  split at h
  · cases h
  · exact harrival _ _ _ h
  · cases h

theorem silent_arrivals (s : Extension) (label : Extension.Label) : Silent (s.arrivals label) := by
  intro ownerId frame generation answers calls hmem
  obtain ⟨_, _, heq⟩ := mem_arrivals hmem
  cases heq

/-- A step that keeps the channels. -/
theorem Open.step {s s' : Extension × List HostEvent} {label : Extension.Label}
    (h : Open s.1.owners s.2) (hkeeps : KeepsChannels s label)
    (hstep : Extension.step s label = some s') : Open s'.1.owners s'.2 := by
  obtain ⟨events, hmove, hlog⟩ := logged_eq_some.mp hstep
  obtain ⟨howners, before, after, hbefore, hafter, hevents⟩ := Extension.move_makes hmove
  have hfirst := (h.silent (silent_arrivals s.1 label)).silent (silent_of_isNews hbefore)
  have hcall := (hfirst.apply hkeeps).silent (silent_of_isNews hafter)
  rw [howners, hlog, hevents]
  simpa only [List.append_assoc] using hcall

end Ready

/-! ## Order -/

section Order

variable {s s' : Extension} {events : List HostEvent} {relay : RelayId} {ownerId : OwnerId}

/-- The waiting lookups in the order of their numbers. -/
structure Numbered (s : Extension) : Prop where
  sorted : s.lookups.Pairwise fun lookup other => lookup.id < other.id
  fresh : ∀ lookup ∈ s.lookups, lookup.id < s.nextLookup

theorem numbered_initial (file : PeersFile) (generation : String) :
    Numbered (Extension.initial file generation) := ⟨.nil, nofun⟩

theorem Numbered.of_eq (h : Numbered s) (hlookups : s'.lookups = s.lookups)
    (hnext : s'.nextLookup = s.nextLookup) : Numbered s' := by
  refine ⟨?_, ?_⟩
  · rw [hlookups]
    exact h.sorted
  · rw [hlookups, hnext]
    exact h.fresh

theorem routes_pairCall (s : Extension) (relay : RelayId) (ownerId : OwnerId)
    (request : PairRequest) : routes (s.pairCall relay ownerId request) = false := by
  rcases Extension.pairCall_cases s relay ownerId request with h | ⟨-, h⟩ <;> rw [h] <;> rfl

theorem routes_settleCall (settled : Settled) :
    routes (Extension.settleCall settled) = false := by
  unfold Extension.settleCall
  split
  · split <;> rfl
  · rfl

/-- A step that takes in no session frame and answers no lookup leaves the lookups. -/
theorem lookups_of_moves {label : Extension.Label} {result : Extension × List HostEvent}
    (h : Extension.Moves s label result)
    (hsession : ∀ relay ownerId frame env pairedAt,
      label = .route relay ownerId .session frame env pairedAt →
        ∃ id token deviceName, frame = .pairRequest id token deviceName)
    (hread : ∀ id, label ≠ .readOwner id) (hresolve : ∀ id env, label ≠ .resolveOwner id env) :
    (result.1.lookups = s.lookups ∧ result.1.nextLookup = s.nextLookup) ∧
      s.arrivals label = [] ∧ routes (s.ownersCall label) = false := by
  cases h with
  | lifecycle hlabel hstep =>
    rename_i lifecycle event
    obtain ⟨_, _, _, _, hframe⟩ :=
      Extension.onLifecycleEvent_frame { s with lifecycle } event
    refine ⟨by rw [hframe]; exact ⟨rfl, rfl⟩, rfl, ?_⟩
    unfold Extension.ownersCall
    dsimp only
    split <;> rfl
  | pairing relay ownerId id token deviceName env pairedAt =>
    obtain ⟨_, _, _, _, _, hframe⟩ := Extension.handlePairRequest_frame s relay ownerId
      ⟨id, token, deviceName⟩ pairedAt
    exact ⟨by rw [hframe]; exact ⟨rfl, rfl⟩, rfl, routes_pairCall s relay ownerId _⟩
  | session relay ownerId env pairedAt hframe =>
    obtain ⟨id, token, deviceName, heq⟩ := hsession _ _ _ _ _ rfl
    exact absurd heq (hframe id token deviceName)
  | misrouted relay ownerId env pairedAt hframe =>
    rename_i purpose frame
    cases purpose <;> cases frame
    case pairing.pairRequest => exact absurd (hframe.mp ⟨_, _, _, rfl⟩) nofun
    case session.sessionHello => exact absurd (hframe.mpr rfl) (by simp)
    case session.inChannel => exact absurd (hframe.mpr rfl) (by simp)
    all_goals exact ⟨⟨rfl, rfl⟩, rfl, rfl⟩
  | readOwner hfind => exact absurd rfl (hread _)
  | resolveOwner env hfind hknown => exact absurd rfl (hresolve _ env)
  | resumePair pairedAt hwaiting hfree =>
    rename_i waiting
    obtain ⟨_, _, _, _, _, hframe⟩ := Extension.handlePairRequest_frame
      { s with waiting := s.waiting.erase waiting } waiting.relay waiting.ownerId waiting.request
      pairedAt
    exact ⟨by rw [hframe]; exact ⟨rfl, rfl⟩, rfl, routes_pairCall s _ _ _⟩
  | execute writes hsettled hmutations =>
    obtain ⟨_, _, hframe⟩ := Extension.execute_frame s writes _ _
    exact ⟨by rw [hframe]; exact ⟨rfl, rfl⟩, rfl, rfl⟩
  | settle hsettled =>
    rename_i settled
    obtain ⟨_, _, _, _, _, hframe⟩ := Extension.settle_frame s settled
    refine ⟨by rw [hframe]; exact ⟨rfl, rfl⟩, rfl, ?_⟩
    unfold Extension.ownersCall
    dsimp only
    rw [hsettled]
    exact routes_settleCall settled
  | startUpdate hphase hupdates =>
    obtain ⟨_, _, _, _, _, hframe⟩ := Extension.startUpdate_frame s _ _
    exact ⟨by rw [hframe]; exact ⟨rfl, rfl⟩, rfl, rfl⟩
  | finishUpdate written hphase hupdates =>
    obtain ⟨_, _, _, hframe⟩ := Extension.finishUpdate_frame s _ _ _ _ written
    exact ⟨by rw [hframe]; exact ⟨rfl, rfl⟩, rfl, rfl⟩
  | revoke shortId =>
    obtain ⟨_, hframe⟩ := Extension.revoke_frame s shortId
    exact ⟨by rw [hframe]; exact ⟨rfl, rfl⟩, rfl, rfl⟩
  | _ => exact ⟨⟨rfl, rfl⟩, rfl, rfl⟩

/-- The first of the frames that wait. -/
theorem filter_oldest {lookups : List Lookup} {first : Lookup} {p : Lookup → Bool}
    (hsorted : lookups.Pairwise fun lookup other => lookup.id < other.id)
    (hfirst : first ∈ lookups) (hp : p first = true)
    (hold : ∀ other ∈ lookups, p other = true → first.id ≤ other.id) :
    lookups.filter p = first :: (lookups.filter fun other => other.id ≠ first.id).filter p := by
  induction lookups with
  | nil => cases hfirst
  | cons lookup rest ih =>
    obtain ⟨hlt, hsorted⟩ := List.pairwise_cons.mp hsorted
    rcases List.mem_cons.mp hfirst with rfl | hfirst
    · have hrest : rest.filter (fun other => decide (other.id ≠ first.id)) = rest := by
        refine List.filter_eq_self.mpr fun other hother => decide_eq_true ?_
        have hlt := hlt other hother
        omega
      rw [List.filter_cons, if_pos hp, List.filter_cons, if_neg (by simp), hrest]
    · have hlt := hlt first hfirst
      have hnot : ¬ p lookup = true := fun hpl => by
        have hle := hold lookup List.mem_cons_self hpl
        omega
      rw [List.filter_cons, if_neg hnot, List.filter_cons,
        if_pos (decide_eq_true (Nat.ne_of_lt hlt)), List.filter_cons, if_neg hnot]
      exact ih hsorted hfirst fun other hother => hold other (List.mem_cons_of_mem _ hother)

theorem arrivedFrames_append (ownerId : OwnerId) (log events : List HostEvent) :
    arrivedFrames ownerId (log ++ events) =
      arrivedFrames ownerId log ++ arrivedFrames ownerId events := List.filterMap_append

theorem handledFrames_append (ownerId : OwnerId) (log events : List HostEvent) :
    handledFrames ownerId (log ++ events) =
      handledFrames ownerId log ++ handledFrames ownerId events := List.filterMap_append

theorem handledFrames_of_silent (hsilent : Silent events) : handledFrames ownerId events = [] := by
  refine List.filterMap_eq_nil_iff.mpr fun event hevent => ?_
  cases event with
  | handled other frame generation answers calls => exact absurd hevent (hsilent _ _ _ _ _)
  | _ => rfl

theorem arrivedFrames_of_forall
    (h : ∀ other frame, .arrived other frame ∉ events) : arrivedFrames ownerId events = [] := by
  refine List.filterMap_eq_nil_iff.mpr fun event hevent => ?_
  cases event with
  | arrived other frame => exact absurd hevent (h other frame)
  | _ => rfl

theorem not_arrived_routeClientFrame (s : Owners) (env : ServiceEnv) (ownerId : OwnerId)
    (frame : ClientFrame) (other : OwnerId) (frame' : ClientFrame) :
    .arrived other frame' ∉ (s.routeClientFrame env ownerId frame).2 := by
  cases hget : s.activeOwners.get? ownerId with
  | none => simp [Owners.routeClientFrame_of_none s ownerId env frame hget]
  | some binding => simp [Owners.routeClientFrame_of_some s ownerId env frame hget]

theorem not_arrived_attachOwner (s : Owners) (relay : RelayId) (ownerId : OwnerId)
    (other : OwnerId) (frame : ClientFrame) :
    .arrived other frame ∉ (s.attachOwner relay ownerId).2.2 := by
  cases hsession : s.currentSession with
  | none => simp [Owners.attachOwner_of_none s relay ownerId hsession]
  | some session => simp [Owners.attachOwner_of_session s relay ownerId hsession]

theorem not_arrived_finishSessionReplacement (s : Owners) (other : OwnerId)
    (frame : ClientFrame) : .arrived other frame ∉ s.finishSessionReplacement.2 := by
  unfold Owners.finishSessionReplacement
  split
  · simp
  · split_ifs <;> simp [Owners.byeOf]

theorem not_arrived_apply (s : Owners) (call : Owners.Call) (other : OwnerId)
    (frame : ClientFrame) : .arrived other frame ∉ (s.apply call).2 := by
  cases call with
  | nothing => exact List.not_mem_nil
  | attach relay ownerId => exact not_arrived_attachOwner s relay ownerId other frame
  | attachAndRoute relay ownerId env frame' =>
    intro hmem
    rcases List.mem_append.mp hmem with hmem | hmem
    · exact not_arrived_attachOwner s relay ownerId other frame hmem
    · exact not_arrived_routeClientFrame _ env ownerId frame' other frame hmem
  | route ownerId env frame' => exact not_arrived_routeClientFrame s env ownerId frame' other frame
  | close ownerId =>
    show _ ∉ (s.closeOwner ownerId).2
    rw [Owners.closeOwner_eq]
    simp [Owners.byeOf]
  | detachAll reason =>
    cases reason with
    | none => simp [Owners.apply, Owners.detachAll]
    | some reason => simp [Owners.apply, Owners.detachAll, Owners.sayBye, Owners.byeOf]
  | sessionStart session generation =>
    show _ ∉ (s.sessionStart session generation).2
    unfold Owners.sessionStart
    dsimp only
    split_ifs
    · exact List.not_mem_nil
    · exact not_arrived_finishSessionReplacement _ other frame
  | sessionTree env generation =>
    intro hmem
    obtain ⟨entry, -, hmem⟩ := List.mem_flatMap.mp hmem
    obtain ⟨_, -, heq⟩ := List.mem_map.mp hmem
    cases heq
  | sessionShutdown => exact List.not_mem_nil
  | sessionNewStart => exact List.not_mem_nil
  | sessionNewEnd => exact not_arrived_finishSessionReplacement _ other frame

/-- The frames that a step takes in and handles. -/
theorem frames_of_move {label : Extension.Label} (hmove : s.move label = some (s', events)) :
    arrivedFrames ownerId events = arrivedFrames ownerId (s.arrivals label) ∧
      handledFrames ownerId events =
        handledFrames ownerId (s.owners.apply (s.ownersCall label)).2 := by
  obtain ⟨-, before, after, hbefore, hafter, hevents⟩ := Extension.move_makes hmove
  have hnews : ∀ news : List HostEvent, (∀ e ∈ news, e.isNews = true) →
      arrivedFrames ownerId news = [] := fun news hnews =>
    arrivedFrames_of_forall fun other frame hmem => by
      have hfalse := hnews _ hmem
      cases hfalse
  rw [hevents]
  constructor
  · simp only [arrivedFrames_append]
    rw [hnews before hbefore, hnews after hafter,
      arrivedFrames_of_forall (not_arrived_apply s.owners _)]
    simp
  · simp only [handledFrames_append]
    rw [handledFrames_of_silent (silent_arrivals s label),
      handledFrames_of_silent (silent_of_isNews hbefore),
      handledFrames_of_silent (silent_of_isNews hafter)]
    simp

theorem Numbered.eq_of_id (h : Numbered s) {lookup other : Lookup} (hlookup : lookup ∈ s.lookups)
    (hother : other ∈ s.lookups) (hid : lookup.id = other.id) : lookup = other := by
  have hnodup : (s.lookups.map Lookup.id).Nodup :=
    List.pairwise_map.mpr (h.sorted.imp fun hlt => Nat.ne_of_lt hlt)
  exact List.inj_on_of_nodup_map hnodup hlookup hother hid

theorem handledFrames_route {s : Owners} {other : OwnerId} {binding : OwnerBinding}
    (hget : s.activeOwners.get? other = some binding) (env : ServiceEnv) (frame : ClientFrame) :
    handledFrames ownerId (s.routeClientFrame env other frame).2 =
      if other = ownerId then [frame] else [] := by
  rw [Owners.routeClientFrame_of_some s other env frame hget]
  unfold handledFrames
  rw [List.filterMap_cons, List.filterMap_nil]
  dsimp only
  split_ifs <;> rfl

theorem handledFrames_attachAndRoute {s : Owners} (hsession : s.currentSession.isSome = true)
    (relay : RelayId) (other : OwnerId) (env : ServiceEnv) (frame : ClientFrame) :
    handledFrames ownerId (s.apply (.attachAndRoute relay other env frame)).2 =
      if other = ownerId then [frame] else [] := by
  obtain ⟨session, hsession⟩ := Option.isSome_iff_exists.mp hsession
  show handledFrames ownerId ((s.attachOwner relay other).2.2 ++
    ((s.attachOwner relay other).1.routeClientFrame env other frame).2) = _
  rw [handledFrames_append, handledFrames_of_silent (silent_attachOwner s relay other),
    List.nil_append]
  have hget : (s.attachOwner relay other).1.activeOwners.get? other =
      some (s.newBinding relay other session) := by
    rw [Owners.attachOwner_of_session s relay other hsession]
    exact OrderedMap.get?_set_self _ _ _
  exact handledFrames_route hget env frame

/-- The frames that wait, when one of another owner or relay is answered. -/
theorem waitingFrames_filter (h : Numbered s) {lookup : Lookup} (hlookup : lookup ∈ s.lookups)
    (hother : ¬ (lookup.relay = relay ∧ lookup.ownerId = ownerId)) :
    waitingFrames { s with lookups := s.lookups.filter fun other => other.id ≠ lookup.id } relay
      ownerId = waitingFrames s relay ownerId := by
  unfold waitingFrames
  dsimp only
  rw [List.filter_filter]
  congr 1
  refine List.filter_congr fun other hmem => ?_
  by_cases hp : other.relay = relay ∧ other.ownerId = ownerId
  · have hne : other.id ≠ lookup.id := fun hid => by
      rw [h.eq_of_id hmem hlookup hid] at hp
      exact hother hp
    simp [hp, hne]
  · simp only [decide_eq_false hp, Bool.false_and]

/-- The frames that wait, when the oldest is answered. -/
theorem waitingFrames_oldest (h : Numbered s) {lookup : Lookup} (hlookup : lookup ∈ s.lookups)
    (hold : ∀ other ∈ s.lookups, other.relay = lookup.relay → other.ownerId = lookup.ownerId →
      lookup.id ≤ other.id) :
    waitingFrames s lookup.relay lookup.ownerId = lookup.frame ::
      waitingFrames { s with lookups := s.lookups.filter fun other => other.id ≠ lookup.id }
        lookup.relay lookup.ownerId := by
  unfold waitingFrames
  rw [filter_oldest h.sorted hlookup (by simp) fun other hmem hp => ?_, List.map_cons]
  obtain ⟨hrelay, howner⟩ := of_decide_eq_true hp
  exact hold other hmem hrelay howner

theorem waitingFrames_read (known : Bool) (id : ℕ) :
    waitingFrames { s with
      lookups := s.lookups.map fun other =>
        if other.id = id then { other with known := some known } else other } relay ownerId =
      waitingFrames s relay ownerId := by
  unfold waitingFrames
  dsimp only
  rw [List.filter_map, List.map_map]
  have hp : ∀ other : Lookup, ((fun lookup : Lookup =>
      decide (lookup.relay = relay ∧ lookup.ownerId = ownerId)) ∘ fun other =>
        if other.id = id then { other with known := some known } else other) other =
      decide (other.relay = relay ∧ other.ownerId = ownerId) := by
    intro other
    dsimp only [Function.comp]
    split_ifs <;> rfl
  rw [funext hp]
  refine List.map_congr_left fun other _ => ?_
  dsimp only [Function.comp]
  split_ifs <;> rfl

theorem find?_lookup {lookups : List Lookup} {id : ℕ} {lookup : Lookup}
    (h : lookups.find? (fun lookup => lookup.id = id) = some lookup) :
    lookup ∈ lookups ∧ lookup.id = id :=
  ⟨List.mem_of_find?_eq_some h, by simpa using List.find?_some h⟩

theorem Numbered.of_moves {label : Extension.Label} {result : Extension × List HostEvent}
    (h : Numbered s) (hmoves : Extension.Moves s label result) : Numbered result.1 := by
  by_cases hother : (∃ relay ownerId frame env pairedAt,
      label = .route relay ownerId .session frame env pairedAt ∧
        ∀ id token deviceName, frame ≠ .pairRequest id token deviceName) ∨
      (∃ id, label = .readOwner id) ∨ ∃ id env, label = .resolveOwner id env
  · cases hmoves with
    | session relay ownerId env pairedAt hframe =>
      unfold Extension.onSessionFrame
      split
      · split_ifs
        · exact h.of_eq rfl rfl
        · exact h
      · split_ifs
        · refine ⟨?_, fun lookup hlookup => ?_⟩
          · refine List.pairwise_append.mpr ⟨h.sorted, List.pairwise_singleton _ _, ?_⟩
            intro lookup hlookup other hother
            obtain rfl := List.mem_singleton.mp hother
            exact h.fresh lookup hlookup
          · rcases List.mem_append.mp hlookup with hlookup | hlookup
            · exact Nat.lt_succ_of_lt (h.fresh lookup hlookup)
            · obtain rfl := List.mem_singleton.mp hlookup
              exact Nat.lt_succ_self _
        · exact h
    | readOwner hfind =>
      rename_i id lookup
      have hids : ∀ other : Lookup, (if other.id = id then
          { other with
            known := some (findKnownOwner s.storage.file lookup.ownerId.key).isSome }
          else other).id = other.id := by
        intro other
        split_ifs <;> rfl
      refine ⟨?_, fun other hother => ?_⟩
      · rw [List.pairwise_map]
        refine h.sorted.imp fun hlt => ?_
        rw [hids, hids]
        exact hlt
      · obtain ⟨found, hfound, rfl⟩ := List.mem_map.mp hother
        rw [hids]
        exact h.fresh found hfound
    | resolveOwner env hfind hknown =>
      obtain ⟨_, hframe⟩ := Extension.resolveOwner_frame s _ _ env
      rw [hframe]
      exact ⟨h.sorted.sublist List.filter_sublist,
        fun other hother => h.fresh other (List.mem_of_mem_filter hother)⟩
    | misrouted relay ownerId env pairedAt hframe => exact h.of_eq rfl rfl
    | _ => simp at hother
  · simp only [not_or, not_exists, not_and] at hother
    obtain ⟨hsession, hread, hresolve⟩ := hother
    obtain ⟨⟨hlookups, hnext⟩, -⟩ := lookups_of_moves hmoves
      (fun relay ownerId frame env pairedAt heq => by
        by_contra hnone
        simp only [not_exists] at hnone
        exact hsession _ _ _ _ _ heq hnone) hread hresolve
    exact h.of_eq hlookups hnext

theorem arrivedFrames_arrived (ownerId other : OwnerId) (frame : ClientFrame) :
    arrivedFrames ownerId [.arrived other frame] = if other = ownerId then [frame] else [] := by
  unfold arrivedFrames
  rw [List.filterMap_cons, List.filterMap_nil]
  dsimp only
  split_ifs <;> rfl

/-- What a step that takes in no frame and handles none leaves to show. -/
theorem served_of_quiet {label : Extension.Label} (hmove : s.move label = some (s', events))
    (harrivals : s.arrivals label = []) (hroutes : routes (s.ownersCall label) = false)
    (hwaiting : waitingFrames s' relay ownerId = waitingFrames s relay ownerId) :
    waitingFrames s relay ownerId ++ arrivedFrames ownerId events =
      handledFrames ownerId events ++ waitingFrames s' relay ownerId := by
  obtain ⟨harrived, hhandled⟩ : arrivedFrames ownerId events = _ ∧
    handledFrames ownerId events = _ := frames_of_move hmove
  rw [harrived, hhandled, harrivals, handledFrames_of_silent (silent_apply s.owners hroutes),
    hwaiting]
  simp [arrivedFrames]

/-- A frame of the owner finds no older one waiting, or waits behind it. -/
theorem served_session {log : List HostEvent} {frame : ClientFrame} {env : ServiceEnv}
    {pairedAt : String} {relay' : RelayId} {other : OwnerId} (hcurrent : s.Current)
    (hserving : s.lifecycle.isCurrent relay = true)
    (horder : KeepsOrder (s, log) (.route relay' other .session frame env pairedAt)) :
    waitingFrames s relay ownerId ++
        arrivedFrames ownerId (s.onSessionFrame relay' other frame env).2 =
      handledFrames ownerId (s.onSessionFrame relay' other frame env).2 ++
        waitingFrames (s.onSessionFrame relay' other frame env).1 relay ownerId := by
  unfold Extension.onSessionFrame
  cases hget : s.owners.activeOwners.get? other with
  | some binding =>
    dsimp only
    by_cases hrelay : binding.relay = relay'
    · rw [if_pos hrelay]
      have hbinding := hcurrent.bindings other binding hget
      obtain rfl : relay' = relay := hrelay ▸ eq_of_isCurrent hserving hbinding
      have hnone := horder (OrderedMap.contains_iff.mpr ⟨binding, hget⟩)
      have hwaiting : other = ownerId → waitingFrames s relay' ownerId = [] := by
        rintro rfl
        refine List.map_eq_nil_iff.mpr (List.filter_eq_nil_iff.mpr fun lookup hlookup hp => ?_)
        obtain ⟨hlookupRelay, hlookupOwner⟩ := of_decide_eq_true hp
        exact hnone lookup hlookup hlookupRelay hlookupOwner
      show _ ++ arrivedFrames ownerId ([.arrived other frame] ++ _) =
        handledFrames ownerId ([.arrived other frame] ++ _) ++ waitingFrames s relay' ownerId
      have hsilent : Silent [HostEvent.arrived other frame] := by simp [Silent]
      rw [arrivedFrames_append, handledFrames_append, arrivedFrames_arrived,
        handledFrames_route hget,
        arrivedFrames_of_forall (not_arrived_routeClientFrame s.owners env other frame),
        handledFrames_of_silent hsilent]
      split_ifs with howner
      · rw [hwaiting howner]
        rfl
      · simp
    · rw [if_neg hrelay]
      simp [arrivedFrames, handledFrames]
  | none =>
    dsimp only
    by_cases hrelay : s.lifecycle.isCurrent relay' = true
    · rw [if_pos hrelay]
      obtain rfl := eq_of_isCurrent hserving hrelay
      rw [arrivedFrames_arrived, handledFrames_of_silent (by simp [Silent])]
      unfold waitingFrames
      dsimp only
      rw [List.filter_append, List.map_append, List.nil_append]
      congr 1
      by_cases howner : other = ownerId
      · simp [howner]
      · simp [howner]
    · rw [if_neg hrelay]
      simp [arrivedFrames, handledFrames]

/-- The oldest frame of the owner is handled when its lookup is answered. -/
theorem served_resolve {log : List HostEvent} {id : ℕ} {env : ServiceEnv} {lookup : Lookup}
    {known : Bool} (hnumbered : Numbered s)
    (hserving : Serving relay ownerId (s, log) (.resolveOwner id env))
    (hunknown : NoneUnknown relay ownerId s)
    (horder : KeepsOrder (s, log) (.resolveOwner id env))
    (hfind : s.lookups.find? (fun lookup => lookup.id = id) = some lookup)
    (hknown : lookup.known = some known)
    (hmove : s.move (.resolveOwner id env) = some (s', events)) :
    waitingFrames s relay ownerId ++ arrivedFrames ownerId events =
      handledFrames ownerId events ++ waitingFrames s' relay ownerId := by
  obtain ⟨hlookup, rfl⟩ := find?_lookup hfind
  obtain ⟨hcurrent, hsession, -⟩ := hserving
  obtain ⟨harrived, hhandled⟩ : arrivedFrames ownerId events = _ ∧
    handledFrames ownerId events = _ := frames_of_move hmove
  have hresult : s.resolveOwner lookup known env = (s', events) := by
    have hmove := hmove
    simp only [Extension.move, hfind, Option.bind_some, hknown, Option.map_some] at hmove
    exact Option.some.inj hmove
  have hwaiting : waitingFrames s' relay ownerId = waitingFrames
      { s with lookups := s.lookups.filter fun other => other.id ≠ lookup.id } relay ownerId := by
    obtain ⟨_, hframe⟩ := Extension.resolveOwner_frame s lookup known env
    rw [hresult] at hframe
    obtain rfl : s' = _ := hframe
    rfl
  have hcall : s.ownersCall (.resolveOwner lookup.id env) = s.resolveCall lookup known env := by
    unfold Extension.ownersCall
    dsimp only
    rw [hfind]
    dsimp only
    rw [hknown]
    rfl
  rw [harrived, hhandled, hwaiting, hcall]
  unfold Extension.resolveCall
  by_cases hserved : lookup.relay = relay ∧ lookup.ownerId = ownerId
  · obtain ⟨rfl, rfl⟩ := hserved
    have hsome : lookup.known = some true := by
      cases known with
      | true => exact hknown
      | false => exact absurd hknown (hunknown lookup hlookup rfl rfl)
    obtain rfl := Option.some.inj (hknown.symm.trans hsome)
    rw [if_neg (by simp [hcurrent]), handledFrames_attachAndRoute hsession, if_pos rfl,
      waitingFrames_oldest hnumbered hlookup (horder lookup hlookup rfl hsome)]
    exact List.append_nil _
  · rw [waitingFrames_filter hnumbered hlookup hserved]
    split_ifs with hanswer
    · exact List.append_nil _
    · simp only [Bool.or_eq_true, Bool.not_eq_true', not_or, Bool.not_eq_false] at hanswer
      have howner : lookup.ownerId ≠ ownerId := fun howner =>
        hserved ⟨eq_of_isCurrent hcurrent hanswer.2, howner⟩
      rw [handledFrames_attachAndRoute hsession, if_neg howner]
      exact List.append_nil _

/-- A step that serves the owner in order. -/
theorem served_move {log : List HostEvent} {label : Extension.Label} (hcurrent : s.Current)
    (hnumbered : Numbered s) (hserving : Serving relay ownerId (s, log) label)
    (hunknown : NoneUnknown relay ownerId s)
    (horder : KeepsOrder (s, log) label) (hmove : s.move label = some (s', events)) :
    waitingFrames s relay ownerId ++ arrivedFrames ownerId events =
      handledFrames ownerId events ++ waitingFrames s' relay ownerId := by
  have hquiet := @lookups_of_moves s label _ (Extension.moves_of_move hmove)
  have hmoves := Extension.moves_of_move hmove
  generalize hresult : (s', events) = result at hmoves
  cases hmoves with
  | session relay' other env pairedAt hframe =>
    obtain ⟨rfl, rfl⟩ := Prod.mk.inj hresult
    exact served_session hcurrent hserving.1 horder
  | readOwner hfind =>
    obtain ⟨rfl, rfl⟩ := Prod.mk.inj hresult
    rw [waitingFrames_read]
    simp [arrivedFrames, handledFrames]
  | resolveOwner env hfind hknown =>
    exact served_resolve hnumbered hserving hunknown horder hfind hknown hmove
  | misrouted relay' other env pairedAt hframe =>
    obtain ⟨rfl, rfl⟩ := Prod.mk.inj hresult
    simp [arrivedFrames, handledFrames]
  | _ =>
    obtain ⟨⟨hlookups, -⟩, harrivals, hroutes⟩ := hquiet (by simp) (by simp) (by simp)
    refine served_of_quiet hmove harrivals hroutes ?_
    unfold waitingFrames
    rw [hlookups]

/-- While an owner is served, every read of the file for its frames finds it. -/
theorem NoneUnknown.of_moves {log : List HostEvent} {label : Extension.Label}
    {result : Extension × List HostEvent} (h : NoneUnknown relay ownerId s)
    (hnumbered : Numbered s) (hserving : Serving relay ownerId (s, log) label)
    (hmoves : Extension.Moves s label result) : NoneUnknown relay ownerId result.1 := by
  have hquiet := lookups_of_moves hmoves
  cases hmoves with
  | session relay' other env pairedAt hframe =>
    unfold Extension.onSessionFrame
    split
    · split_ifs
      · exact h
      · exact h
    · split_ifs
      · intro lookup hlookup
        rcases List.mem_append.mp hlookup with hlookup | hlookup
        · exact h lookup hlookup
        · obtain rfl := List.mem_singleton.mp hlookup
          intro _ _ hknown
          cases hknown
      · exact h
  | readOwner hfind =>
    rename_i id lookup
    intro other hother hrelay howner
    obtain ⟨found, hfound, rfl⟩ := List.mem_map.mp hother
    by_cases hid : found.id = id
    · rw [if_pos hid] at hrelay howner ⊢
      have hread := List.find?_some hfind
      rw [Bool.and_eq_true, decide_eq_true_eq] at hread
      obtain rfl : found = lookup := hnumbered.eq_of_id hfound (List.mem_of_find?_eq_some hfind)
        (hid.trans hread.1.symm)
      have hrecorded := hserving.2.2 id rfl found hfound hid hrelay howner
      have hknown := (findKnownOwner_isSome ownerId.canonical).mpr hrecorded
      obtain rfl : found.ownerId = ownerId := howner
      dsimp only
      rw [hknown]
      simp
    · rw [if_neg hid] at hrelay howner ⊢
      exact h found hfound hrelay howner
  | resolveOwner env hfind hknown =>
    obtain ⟨_, hframe⟩ := Extension.resolveOwner_frame s _ _ env
    rw [hframe]
    exact fun lookup hlookup => h lookup (List.mem_of_mem_filter hlookup)
  | misrouted relay' other env pairedAt hframe => exact h
  | _ =>
    obtain ⟨⟨hlookups, -⟩, -⟩ := hquiet (by simp) (by simp) (by simp)
    unfold NoneUnknown
    rw [hlookups]
    exact h

theorem Numbered.step {s s' : Extension × List HostEvent} {label : Extension.Label}
    (h : Numbered s.1) (hstep : Extension.step s label = some s') : Numbered s'.1 := by
  obtain ⟨events, hmove, -⟩ := logged_eq_some.mp hstep
  have hnumbered : Numbered (s'.1, events).1 := h.of_moves (Extension.moves_of_move hmove)
  exact hnumbered

/-- What a run that serves the owner in order takes in is handled in order. -/
theorem served_run {s s' : Extension × List HostEvent} {labels : List Extension.Label}
    (hcurrent : s.1.Current) (hnumbered : Numbered s.1) (hunknown : NoneUnknown relay ownerId s.1)
    (hserving : Along Extension.step (Serving relay ownerId) s labels)
    (horder : Along Extension.step KeepsOrder s labels)
    (hrun : run Extension.step s labels = some s') :
    ∃ events, s'.2 = s.2 ++ events ∧
      waitingFrames s.1 relay ownerId ++ arrivedFrames ownerId events =
        handledFrames ownerId events ++ waitingFrames s'.1 relay ownerId := by
  induction labels generalizing s with
  | nil =>
    cases hrun
    exact ⟨[], (List.append_nil _).symm, List.append_nil _⟩
  | cons label labels ih =>
    obtain ⟨t, hstep, hrun⟩ := run_cons_eq_some.mp hrun
    obtain ⟨hserves, hserving⟩ := (along_cons_of_step hstep).mp hserving
    obtain ⟨hkeeps, horder⟩ := (along_cons_of_step hstep).mp horder
    obtain ⟨events, hmove, hlog⟩ := logged_eq_some.mp hstep
    have hfirst := served_move hcurrent hnumbered hserves hunknown hkeeps hmove
    have hnext : NoneUnknown relay ownerId (t.1, events).1 :=
      hunknown.of_moves hnumbered hserves (Extension.moves_of_move hmove)
    obtain ⟨rest, hrest, hserved⟩ :=
      ih (hcurrent.move hmove) (hnumbered.step hstep) hnext hserving horder hrun
    refine ⟨events ++ rest, by rw [hrest, hlog, List.append_assoc], ?_⟩
    calc waitingFrames s.1 relay ownerId ++ arrivedFrames ownerId (events ++ rest)
        = (waitingFrames s.1 relay ownerId ++ arrivedFrames ownerId events) ++
            arrivedFrames ownerId rest := by
          rw [arrivedFrames_append, List.append_assoc]
      _ = handledFrames ownerId events ++
            (waitingFrames t.1 relay ownerId ++ arrivedFrames ownerId rest) := by
          rw [hfirst, List.append_assoc]
      _ = handledFrames ownerId (events ++ rest) ++ waitingFrames s'.1 relay ownerId := by
          rw [hserved, handledFrames_append, List.append_assoc]

end Order

/-! ## Runs -/

theorem open_run {file : PeersFile} {generation : String} {labels : List Extension.Label}
    {s : Extension × List HostEvent}
    (hkeeps : Along Extension.step KeepsChannels (.initial file generation, []) labels)
    (hrun : run Extension.step (.initial file generation, []) labels = some s) :
    Open s.1.owners s.2 := by
  have hinitial : Open (Extension.initial file generation).owners [] :=
    { ready := fun _ _ hmem => by cases hmem
      unrefused := throughout_nil }
  exact @invariant_along _ _ _ _ (fun s => Open s.1.owners s.2)
    (fun _ _ _ h hok hstep => h.step hok hstep) _ _ _ hinitial hkeeps hrun

theorem numbered_run {file : PeersFile} {generation : String} {labels : List Extension.Label}
    {s : Extension × List HostEvent}
    (hrun : run Extension.step (.initial file generation, []) labels = some s) :
    s.1.Current ∧ Numbered s.1 := by
  refine @invariant_run _ _ _ (fun s => s.1.Current ∧ Numbered s.1) ?_ _ _ _
    ⟨Extension.current_initial file generation, numbered_initial file generation⟩ hrun
  intro s label s' h hstep
  obtain ⟨events, hmove, -⟩ := logged_eq_some.mp hstep
  exact ⟨h.1.move hmove, h.2.step hstep⟩

/-- In a run in which no step attaches an owner that has a ready channel, no frame in a channel
    that has got `session_ready` is refused. While it serves an owner and none of its frames
    overtakes another, each frame is handled once and in the order of arrival. -/
theorem channels_stay_open (file : PeersFile) (generation : String)
    (labels : List Extension.Label) (s : Extension) (log : List HostEvent)
    (hrun : run Extension.step (.initial file generation, []) labels = some (s, log))
    (hkeeps : Along Extension.step KeepsChannels (.initial file generation, []) labels)
    (horder : Along Extension.step KeepsOrder (.initial file generation, []) labels) :
    Throughout Unrefused log ∧
      ∀ relay ownerId first rest s₀ log₀, labels = first ++ rest →
        run Extension.step (.initial file generation, []) first = some (s₀, log₀) →
        NoneUnknown relay ownerId s₀ → Along Extension.step (Serving relay ownerId) (s₀, log₀) rest →
          ∃ events, log = log₀ ++ events ∧
            waitingFrames s₀ relay ownerId ++ arrivedFrames ownerId events =
              handledFrames ownerId events ++ waitingFrames s relay ownerId := by
  have hopen : Open s.owners log := open_run hkeeps hrun
  refine ⟨hopen.unrefused, ?_⟩
  rintro relay ownerId first rest s₀ log₀ rfl hfirst hunknown hserving
  obtain ⟨hcurrent, hnumbered⟩ := numbered_run hfirst
  rw [run_append, hfirst] at hrun
  exact served_run hcurrent hnumbered hunknown hserving (horder.append_right hfirst) hrun

/-- The relay is connected and a session is started. -/
private def started : List Extension.Label :=
  firstConnect [zeroOwner.key] ++ [.sessionStart ⟨0, "s", by decide⟩ "g"]

/-- The owner opens a channel when its lookup is answered, and is heard there. -/
private def openChannel : List Extension.Label :=
  [helloRoute "h1" "c1", .readOwner 0, .resolveOwner 0 idleEnv,
    .route 0 zeroOwner .session (.inChannel ⟨"p", "c1", "g"⟩ .ping) idleEnv "2026-01-01"]

/-- At most one frame waits, and no owner is bound or no frame waits. -/
private abbrev Calm (s : Extension × List HostEvent) (label : Extension.Label) : Prop :=
  s.1.lookups.length ≤ 1 ∧ (s.1.owners.activeOwners.isEmpty = true ∨
    (s.1.lookups = [] ∧ (s.1.ownersCall label).attaches = none))

private theorem keeps_of_calm {s : Extension × List HostEvent} {label : Extension.Label}
    (h : Calm s label) : KeepsChannels s label ∧ KeepsOrder s label := by
  obtain ⟨hshort, hcalm⟩ := h
  constructor
  · intro relay ownerId hattaches binding hbinding
    rcases hcalm with hempty | ⟨-, hnone⟩
    · rw [OrderedMap.get?_eq_none_of_isEmpty hempty] at hbinding
      cases hbinding
    · rw [hnone] at hattaches
      cases hattaches
  · unfold KeepsOrder
    split
    · intro hbound lookup hlookup
      rcases hcalm with hempty | ⟨hnone, -⟩
      · obtain ⟨binding, hbinding⟩ := OrderedMap.contains_iff.mp hbound
        rw [OrderedMap.get?_eq_none_of_isEmpty hempty] at hbinding
        cases hbinding
      · rw [hnone] at hlookup
        cases hlookup
    · intro lookup hlookup hid _ other hother _ _
      obtain ⟨only, honly⟩ := List.length_eq_one_iff.mp
        (Nat.le_antisymm hshort (List.length_pos_of_mem hlookup))
      rw [honly, List.mem_singleton] at hlookup hother
      rw [← hid, hlookup, hother]
    · trivial

/-- The owner is recorded, the relay is connected and a session is present. -/
private abbrev Attended (s : Extension × List HostEvent) (_ : Extension.Label) : Prop :=
  s.1.lifecycle.isCurrent 0 = true ∧ s.1.owners.currentSession.isSome = true ∧
    Recorded s.1.storage.file zeroOwner.key

/-- An owner opens a channel and pings there: it is answered, and both frames are handled. -/
theorem channels_stay_open_hello : ∃ s log log₀ events,
    run Extension.step (.initial zeroOwnerFile "g0", []) (started ++ openChannel) =
        some (s, log) ∧
      Throughout Unrefused log ∧ log = log₀ ++ events ∧
      arrivedFrames zeroOwner events = handledFrames zeroOwner events ∧
      handledFrames zeroOwner events =
        [.sessionHello "h1" "c1", .inChannel ⟨"p", "c1", "g"⟩ .ping] := by
  have hcalm : Along Extension.step Calm (.initial zeroOwnerFile "g0", [])
      (started ++ openChannel) := by decide +kernel
  have hstart : (run Extension.step (.initial zeroOwnerFile "g0", []) started).any (fun s =>
      s.1.lookups = [] ∧ handledFrames zeroOwner s.2 = [] ∧
        Along Extension.step Attended s openChannel) = true := by decide
  have hend : (run Extension.step (.initial zeroOwnerFile "g0", []) (started ++ openChannel)).any
      (fun s => s.1.lookups = [] ∧ handledFrames zeroOwner s.2 =
        [.sessionHello "h1" "c1", .inChannel ⟨"p", "c1", "g"⟩ .ping]) = true := by decide
  obtain ⟨⟨s₀, log₀⟩, hfirst, hstart⟩ := (Option.any_eq_true _ _).mp hstart
  obtain ⟨⟨s, log⟩, hrun, hend⟩ := (Option.any_eq_true _ _).mp hend
  obtain ⟨hidle, hnone, hattended⟩ := of_decide_eq_true hstart
  obtain ⟨hdone, hframes⟩ := of_decide_eq_true hend
  obtain ⟨hunrefused, hserved⟩ := channels_stay_open _ _ _ s log hrun
    (hcalm.imp fun _ _ h => (keeps_of_calm h).1) (hcalm.imp fun _ _ h => (keeps_of_calm h).2)
  dsimp only at hidle hnone hdone hframes
  obtain ⟨events, hlog, hsame⟩ := hserved 0 zeroOwner started openChannel s₀ log₀ rfl hfirst
    (by simp [NoneUnknown, hidle])
    (hattended.imp fun _ _ h => ⟨h.1, h.2.1, fun _ _ _ _ _ _ _ => h.2.2⟩)
  have hhandled : handledFrames zeroOwner events =
      [.sessionHello "h1" "c1", .inChannel ⟨"p", "c1", "g"⟩ .ping] := by
    rw [hlog, handledFrames_append, hnone, List.nil_append] at hframes
    exact hframes
  have harrived : arrivedFrames zeroOwner events = handledFrames zeroOwner events := by
    simpa [waitingFrames, hidle, hdone] using hsame
  exact ⟨s, log, log₀, events, hrun, hunrefused, hlog, harrived, hhandled⟩

/-- The owner says hello for two channels before its lookups are answered. -/
private def lateLookup : List Extension.Label :=
  firstConnect [zeroOwner.key] ++
    [.sessionStart ⟨0, "s", by decide⟩ "g", helloRoute "h1" "c1", helloRoute "h2" "c2",
      .readOwner 0, .readOwner 1, .resolveOwner 0 idleEnv, .resolveOwner 1 idleEnv,
      .route 0 zeroOwner .session (.inChannel ⟨"p", "c1", "g"⟩ .ping) idleEnv "2026-01-01"]

/-- The second lookup replaces the binding in which the first channel is ready: the next ping
    there is answered with `invalid_channel`. -/
theorem late_lookup_closes_channel : ∃ s log,
    run Extension.step (.initial zeroOwnerFile "g0", []) lateLookup = some (s, log) ∧
      ¬ Throughout Unrefused log := by
  obtain ⟨⟨s, log⟩, hrun⟩ := Option.isSome_iff_exists.mp
    (show (run Extension.step (.initial zeroOwnerFile "g0", []) lateLookup).isSome = true by
      decide)
  refine ⟨s, log, hrun, fun h => ?_⟩
  have hlog : (run Extension.step (.initial zeroOwnerFile "g0", []) lateLookup).any (fun s =>
      s.2.dropLast ++ [.handled zeroOwner (.inChannel ⟨"p", "c1", "g"⟩ .ping) "g"
        [.protocolError "c1" "p" .invalidChannel "session_hello required"] []] = s.2 ∧
      "c1" ∈ readied zeroOwner s.2.dropLast) = true := by decide +kernel
  rw [hrun, Option.any_some] at hlog
  obtain ⟨hlast, hready⟩ := of_decide_eq_true hlog
  exact h _ _ [] hlast.symm hready rfl _ _ _ List.mem_cons_self

end RemotePi.Host
