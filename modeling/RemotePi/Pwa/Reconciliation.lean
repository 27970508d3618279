import RemotePi.Pwa.SentMessages

/-!
# One sent message and the frames about it

A message that `sendUser` has sent, the `user_message_status` and
`user_message_started` frames that name its message id, the formal user event of that
id, and the operations that give the message up as undelivered, in any order.

The message id is the only link between the item and the event, and the frames that
carry it are looked up among the pending messages alone. And the event frame goes
through `commit`, whose result, with the frames for the host, `receive` drops.

Results:
* `reconcile_of_ne`, `reconcile_of_eq`: what reconciling does to one item.
* `tracks_operate`: every arrival moves the item as `MessageDelivery.arrive` says.
* `reconciled_iff`: in which orders the item is reconciled.
-/

namespace RemotePi.Pwa

open RemotePi.Lib RemotePi.Protocol

/-! ## Arrivals -/

/-- A sent message, the scope it is sent in and its formal event. -/
structure SentMessage where
  scope : TimelineScope
  clientRequestId : String
  requestId : String
  event : TimelineEvent
  user : event.kind = .user
  inScope : isMatchingScope (some scope) event.sessionId event.historyGeneration = true

/-- The message id. -/
def SentMessage.messageId (msg : SentMessage) : String := msg.event.eventId

/-- The frame for the host once the event is seen. -/
def SentMessage.observed (msg : SentMessage) : ObservedFrame :=
  ⟨msg.scope.channelId, msg.scope.historyGeneration, msg.clientRequestId, msg.messageId⟩

/-- What arrives about a sent message. -/
inductive MessageArrival where
  /-- A status `accepted` or `committed` with the message id. -/
  | status (committed : Bool)
  | started
  /-- The formal event in a `timeline_event` frame. -/
  | timelineEvent
  /-- The formal event from the transfer of a large event. -/
  | commit
  /-- The formal event in a page of the history. -/
  | replaceHistory (events : List TimelineEvent)
  | prependHistory (events : List TimelineEvent)
  | markUnknownDelivery
  | markDisconnected
deriving DecidableEq

namespace MessageArrival

/-- The arrival names the message id. -/
def names : MessageArrival → Bool
  | status _ | started => true
  | _ => false

/-- The arrival carries the formal event. -/
def carries : MessageArrival → Bool
  | timelineEvent | commit | replaceHistory _ | prependHistory _ => true
  | _ => false

/-- The arrival gives up the message. -/
def marks : MessageArrival → Bool
  | markUnknownDelivery | markDisconnected => true
  | _ => false

/-- A page of the history holds the formal event, and no other under its id. -/
def Fits (msg : SentMessage) : MessageArrival → Prop
  | replaceHistory events | prependHistory events =>
    msg.event ∈ events ∧ ∀ e ∈ events, e.eventId = msg.messageId → e = msg.event
  | _ => True

/-- The operation of the timeline. -/
def operation (msg : SentMessage) (now : ℚ) : MessageArrival → TimelineOperation
  | status committed =>
    .receive (.userMessageStatus msg.scope.sessionId msg.scope.historyGeneration
      msg.clientRequestId
      (if committed then .committed msg.messageId else .accepted (some msg.messageId))) now
  | started =>
    .receive (.userMessageStarted msg.scope.sessionId msg.scope.historyGeneration msg.requestId
      msg.messageId) now
  | timelineEvent =>
    .receive (.timelineEvent msg.scope.sessionId msg.scope.historyGeneration msg.event) now
  | commit => .commit msg.event
  | replaceHistory events => .replaceHistory events
  | prependHistory events => .prependHistory events
  | markUnknownDelivery => .markUnknownDelivery msg.clientRequestId
  | markDisconnected => .markDisconnected

end MessageArrival

/-- No item is left for the message, its event is shown once, and one frame has been
    handed out for it. -/
def Reconciled (msg : SentMessage) (r : TimelineRuntime) (log : List ObservedFrame) : Prop :=
  msg.clientRequestId ∉ r.items.map TimelinePending.clientRequestId ∧
    (r.events.values.filter fun e => decide (e.eventId = msg.messageId)) = [msg.event] ∧
    (log.filter fun f => decide (f.clientRequestId = msg.clientRequestId)) = [msg.observed]

/-- When an arrival comes in time: the message is given up only once its id is known, and
    a `timeline_event` frame after the naming is not the first to bring the event. -/
def Timely (before : List MessageArrival) (arrival : MessageArrival) : Prop :=
  (arrival.marks = true → before.any MessageArrival.names = true) ∧
    (arrival = .timelineEvent → before.any MessageArrival.names = true →
      before.any MessageArrival.carries = true)

/-! ## The stages of a delivery -/

/-- Where the item of a sent message stands. -/
inductive DeliveryStage where
  | waiting
  /-- The message id is known and the event is not there. -/
  | named
  /-- Given up without a message id. -/
  | stuck
  | settled (observed : Bool)
deriving DecidableEq, Repr

/-- The stage, and whether the event is there. -/
structure MessageDelivery where
  stage : DeliveryStage
  carried : Bool
deriving DecidableEq, Repr

namespace MessageDelivery

def new : MessageDelivery := ⟨.waiting, false⟩

/-- What an arrival does. -/
def arrive (d : MessageDelivery) (arrival : MessageArrival) : MessageDelivery :=
  if arrival.names then
    match d.stage with
    | .waiting => if d.carried then { d with stage := .settled true } else { d with stage := .named }
    | _ => d
  else if arrival.carries then
    match d.stage with
    | .named => ⟨.settled (decide (arrival ≠ .timelineEvent)), true⟩
    | stage => ⟨stage, true⟩
  else
    match d.stage with
    | .waiting => { d with stage := .stuck }
    | _ => d

def after (arrivals : List MessageArrival) : MessageDelivery := arrivals.foldl arrive new

theorem after_snoc (arrivals : List MessageArrival) (arrival : MessageArrival) :
    after (arrivals ++ [arrival]) = (after arrivals).arrive arrival := by
  rw [after, List.foldl_append]
  rfl

theorem carried_arrive (d : MessageDelivery) (arrival : MessageArrival) :
    (d.arrive arrival).carried = (d.carried || arrival.carries) := by
  obtain ⟨stage, carried⟩ := d
  cases arrival <;> cases stage <;> cases carried <;> rfl

theorem throughout_snoc {arrivals : List MessageArrival} {arrival : MessageArrival} :
    Throughout Timely (arrivals ++ [arrival]) ↔
      Throughout Timely arrivals ∧ Timely arrivals arrival := by
  rw [throughout_append, throughout_singleton, List.append_nil]

/-- The stage after arrivals that all came in time, and after others. -/
theorem after_eq (arrivals : List MessageArrival) :
    (after arrivals).carried = arrivals.any MessageArrival.carries ∧
      (Throughout Timely arrivals → (after arrivals).stage =
        if arrivals.any MessageArrival.names = true then
          if arrivals.any MessageArrival.carries = true then .settled true else .named
        else .waiting) ∧
      (¬Throughout Timely arrivals →
        (after arrivals).stage = .stuck ∨ (after arrivals).stage = .settled false) := by
  induction arrivals using List.reverseRecOn with
  | nil => exact ⟨rfl, fun _ => rfl, fun h => (h throughout_nil).elim⟩
  | append_singleton arrivals arrival ih =>
    obtain ⟨hcarried, hin, hout⟩ := ih
    rw [after_snoc, throughout_snoc]
    simp only [List.any_append, List.any_cons, List.any_nil, Bool.or_false]
    refine ⟨by rw [carried_arrive, hcarried], ?_, ?_⟩
    · rintro ⟨htimely, harrival⟩
      have hstage := hin htimely
      generalize after arrivals = d at hcarried hstage
      obtain ⟨stage, carried⟩ := d
      subst hcarried hstage
      unfold Timely at harrival
      generalize arrivals.any MessageArrival.names = n at harrival
      generalize arrivals.any MessageArrival.carries = c at harrival
      cases arrival <;> cases n <;> cases c <;> revert harrival <;>
        simp [arrive, MessageArrival.names, MessageArrival.carries, MessageArrival.marks]
    · intro hnot
      by_cases htimely : Throughout Timely arrivals
      · have harrival : ¬Timely arrivals arrival := fun h => hnot ⟨htimely, h⟩
        have hstage := hin htimely
        generalize after arrivals = d at hcarried hstage
        obtain ⟨stage, carried⟩ := d
        subst hcarried hstage
        unfold Timely at harrival
        generalize arrivals.any MessageArrival.names = n at harrival
        generalize arrivals.any MessageArrival.carries = c at harrival
        cases arrival <;> cases n <;> cases c <;> revert harrival <;>
          simp [arrive, MessageArrival.names, MessageArrival.carries, MessageArrival.marks]
      · -- a message that is stuck, or settled without a frame, stays so
        have hstage := hout htimely
        generalize after arrivals = d at hstage
        obtain ⟨stage, carried⟩ := d
        rcases hstage with rfl | rfl <;> cases arrival <;>
          simp [arrive, MessageArrival.names, MessageArrival.carries]

end MessageDelivery

/-! ## One item under reconciling -/

namespace TimelineRuntime

/-- Where a client request id stands: among the pending messages, among the unknown ones. -/
def standing (r : TimelineRuntime) (k : String) : Option TimelinePending × List TimelinePending :=
  (r.pending.get? k, r.unknown.filter fun p => decide (p.clientRequestId = k))

/-- The frames about a client request id. -/
def framesFor (k : String) (frames : List ObservedFrame) : List ObservedFrame :=
  frames.filter fun f => decide (f.clientRequestId = k)

section Standing

variable {r : TimelineRuntime} {k : String}

theorem not_mem_itemIds_iff : k ∉ r.itemIds ↔ r.standing k = (none, []) := by
  rw [itemIds, List.mem_append, not_or, standing, Prod.mk.injEq]
  refine and_congr ?_ ?_
  · rw [OrderedMap.mem_keys]
    cases r.pending.get? k <;> simp
  · simp [List.filter_eq_nil_iff]

theorem mem_items_of_standing {p : TimelinePending} (h : r.Keyed)
    (hp : (∃ l, r.standing k = (some p, l)) ∨ ∃ o, r.standing k = (o, [p])) :
    p ∈ r.items ∧ p.clientRequestId = k := by
  rcases hp with ⟨l, hs⟩ | ⟨o, hs⟩
  · have hget : r.pending.get? k = some p := congrArg Prod.fst hs
    exact ⟨mem_items_of_pending hget, h.pending k p hget⟩
  · have hfilter : (r.unknown.filter fun p => decide (p.clientRequestId = k)) = [p] :=
      congrArg Prod.snd hs
    have hmem : p ∈ r.unknown.filter fun p => decide (p.clientRequestId = k) := by
      rw [hfilter]
      exact List.mem_singleton_self p
    obtain ⟨hunknown, hid⟩ := List.mem_filter.mp hmem
    exact ⟨List.mem_append_right _ hunknown, of_decide_eq_true hid⟩

theorem framesFor_observedFrames (scope : Option TimelineScope) (messageId : String)
    (ids : List String) : framesFor k (observedFrames scope messageId ids) =
      observedFrames scope messageId (ids.filter fun id => decide (id = k)) := by
  cases scope with
  | none => rfl
  | some scope =>
    show (ids.map _).filter _ = (ids.filter _).map _
    rw [List.filter_map]
    rfl

theorem filter_eq_of_nodup {ids : List String} (hn : ids.Nodup) :
    (ids.filter fun id => decide (id = k)) = if k ∈ ids then [k] else [] := by
  induction ids with
  | nil => rfl
  | cons id ids ih =>
    rw [List.nodup_cons] at hn
    rw [List.filter_cons, ih hn.2]
    by_cases hid : id = k
    · subst hid
      simp [hn.1]
    · simp [hid, Ne.symm hid]

theorem nodup_namedIds (h : r.Keyed) (messageId : String) : (r.namedIds messageId).Nodup := by
  refine List.Nodup.sublist (List.filter_sublist.map _) ?_
  rw [map_fst_itemEntries]
  exact h.nodup

theorem mem_namedIds_iff (h : r.Keyed) {messageId : String} :
    k ∈ r.namedIds messageId ↔
      ∃ p ∈ r.items, p.clientRequestId = k ∧ p.messageId = some messageId := by
  constructor
  · intro hk
    obtain ⟨entry, he, rfl⟩ := List.mem_map.mp hk
    obtain ⟨hmem, hname⟩ := List.mem_filter.mp he
    refine ⟨entry.2, ?_, h.itemEntries hmem, of_decide_eq_true hname⟩
    rw [← map_snd_itemEntries]
    exact List.mem_map_of_mem hmem
  · rintro ⟨p, hp, rfl, hname⟩
    rw [← map_snd_itemEntries] at hp
    obtain ⟨entry, he, rfl⟩ := List.mem_map.mp hp
    rw [h.itemEntries he]
    exact (h.mem_namedIds he).mpr hname

/-- Reconciling leaves an item that does not have the message id. -/
theorem reconcile_of_ne (h : r.Keyed) {messageId : String}
    (hne : ∀ p ∈ r.items, p.clientRequestId = k →
      ¬(r.HasFormal messageId ∧ p.messageId = some messageId)) :
    (r.reconcileUserMessage messageId).standing k = r.standing k ∧
      framesFor k (r.reconcileUserMessage messageId).observedQueue =
        framesFor k r.observedQueue := by
  classical
  rw [reconcileUserMessage_eq h]
  split_ifs with hf
  swap
  · exact ⟨rfl, rfl⟩
  have hkept : ∀ p ∈ r.items, p.clientRequestId = k → decide (p.messageId ≠ some messageId) = true :=
    fun p hp hid => decide_eq_true fun hname => hne p hp hid ⟨hf, hname⟩
  constructor
  · refine Prod.ext ?_ ?_
    · show (r.pending.filter _).get? k = r.pending.get? k
      rw [OrderedMap.get?_filter]
      cases hget : r.pending.get? k with
      | none => rfl
      | some p =>
        rw [Option.filter_some, hkept p (mem_items_of_pending hget) (h.pending k p hget)]
        rfl
    · show (r.unknown.filter _).filter _ = r.unknown.filter _
      rw [List.filter_filter]
      refine List.filter_congr fun p hp => ?_
      by_cases hid : p.clientRequestId = k
      · rw [hkept p (List.mem_append_right _ hp) hid, Bool.and_true]
      · rw [decide_eq_false hid, Bool.false_and]
  · show framesFor k (r.observedQueue ++ observedFrames r.scope messageId (r.namedIds messageId)) = _
    have hnot : k ∉ r.namedIds messageId := by
      intro hk
      obtain ⟨p, hp, hid, hname⟩ := (mem_namedIds_iff h).mp hk
      exact hne p hp hid ⟨hf, hname⟩
    have hnil : observedFrames r.scope messageId [] = [] := by
      cases hs : r.scope <;> rfl
    rw [framesFor, List.filter_append]
    show framesFor k _ ++ framesFor k _ = _
    rw [framesFor_observedFrames, filter_eq_of_nodup (nodup_namedIds h _), if_neg hnot, hnil,
      List.append_nil]

/-- Reconciling takes the item with the message id and hands out a frame for it. -/
theorem reconcile_of_eq (h : r.Keyed) {messageId : String} (hf : r.HasFormal messageId)
    {p : TimelinePending} (hp : p ∈ r.items) (hid : p.clientRequestId = k)
    (hname : p.messageId = some messageId) :
    (r.reconcileUserMessage messageId).standing k = (none, []) ∧
      framesFor k (r.reconcileUserMessage messageId).observedQueue =
        framesFor k r.observedQueue ++ observedFrames r.scope messageId [k] := by
  classical
  constructor
  · refine not_mem_itemIds_iff.mp fun hk => ?_
    obtain ⟨q, hq, hqid⟩ := (h.reconcileUserMessage messageId).exists_item hk
    obtain ⟨hmem, hnot⟩ := (mem_items_reconcile h messageId).mp hq
    rw [h.item_unique hmem hp (hqid.trans hid.symm)] at hnot
    exact hnot ⟨hf, hname⟩
  · rw [reconcileUserMessage_eq h, if_pos hf]
    show framesFor k (r.observedQueue ++ observedFrames r.scope messageId (r.namedIds messageId)) = _
    rw [framesFor, List.filter_append]
    show framesFor k _ ++ framesFor k _ = _
    rw [framesFor_observedFrames, filter_eq_of_nodup (nodup_namedIds h _),
      if_pos ((mem_namedIds_iff h).mpr ⟨p, hp, hid, hname⟩)]

/-- The item of a client request id. -/
def Holds (r : TimelineRuntime) (k : String) (p : TimelinePending) : Prop :=
  r.standing k = (some p, []) ∨ r.standing k = (none, [p])

theorem Holds.mem (h : r.Keyed) {p : TimelinePending} (hp : r.Holds k p) :
    p ∈ r.items ∧ p.clientRequestId = k := by
  rcases hp with hs | hs
  · exact mem_items_of_standing h (Or.inl ⟨_, hs⟩)
  · exact mem_items_of_standing h (Or.inr ⟨_, hs⟩)

theorem Holds.unique (h : r.Keyed) {p q : TimelinePending} (hp : r.Holds k p) (hq : q ∈ r.items)
    (hid : q.clientRequestId = k) : q = p :=
  h.item_unique hq (hp.mem h).1 (hid.trans (hp.mem h).2.symm)

/-! ## One item under commits -/

theorem commitParsed_of_ne (h : r.Keyed) (event : TimelineEvent)
    (hne : ∀ p ∈ r.items, p.clientRequestId = k → p.messageId ≠ some event.eventId) :
    (r.commitParsed event).standing k = r.standing k ∧
      framesFor k (r.commitParsed event).observedQueue = framesFor k r.observedQueue := by
  unfold commitParsed
  dsimp only
  split_ifs
  · exact ⟨rfl, rfl⟩
  · exact reconcile_of_ne (h.setEvent event) fun p hp hid hboth => hne p hp hid hboth.2
  · exact ⟨rfl, rfl⟩

/-- Committing leaves an item without a message id. -/
theorem commitEvents_of_unnamed (h : r.Keyed) (events : List TimelineEvent)
    (hnone : ∀ p ∈ r.items, p.clientRequestId = k → p.messageId = none) :
    (r.commitEvents events).standing k = r.standing k ∧
      framesFor k (r.commitEvents events).observedQueue = framesFor k r.observedQueue := by
  induction events generalizing r with
  | nil => exact ⟨rfl, rfl⟩
  | cons event events ih =>
    have hstep := commitParsed_of_ne (k := k) h event fun p hp hid hname => by
      rw [hnone p hp hid] at hname
      cases hname
    have hkeyed := h.commitParsed event
    have hrest := ih hkeyed fun p hp hid => ?_
    · exact ⟨hrest.1.trans hstep.1, hrest.2.trans hstep.2⟩
    · -- an item of the key after the step is one before it
      have hk : k ∈ (r.commitParsed event).itemIds := hid ▸ hkeyed.mem_itemIds hp
      have hk' : k ∈ r.itemIds := by
        by_contra hnot
        rw [not_mem_itemIds_iff, ← hstep.1] at hnot
        exact not_mem_itemIds_iff.mpr hnot hk
      obtain ⟨q, hq, hqid⟩ := h.exists_item hk'
      rcases mem_items_commitParsed h event hq with hkept | ⟨messageId, hname, -⟩
      · rw [hkeyed.item_unique hp hkept (hid.trans hqid.symm)]
        exact hnone q hq hqid
      · rw [hnone q hq hqid] at hname
        cases hname

/-- Committing its formal event takes an item and hands out a frame for it. -/
theorem commitEvents_of_named (h : r.Keyed) {formal : TimelineEvent} (huser : formal.kind = .user)
    {events : List TimelineEvent} (hmem : formal ∈ events)
    (hfits : ∀ e ∈ events, e.eventId = formal.eventId → e = formal)
    (hnew : r.events.get? formal.eventId = none) {p : TimelinePending} (hp : r.Holds k p)
    (hname : p.messageId = some formal.eventId) :
    (r.commitEvents events).standing k = (none, []) ∧
      framesFor k (r.commitEvents events).observedQueue =
        framesFor k r.observedQueue ++ observedFrames r.scope formal.eventId [k] := by
  induction events generalizing r with
  | nil => cases hmem
  | cons event events ih =>
    have hkeyed := h.commitParsed event
    by_cases hid : event.eventId = formal.eventId
    · obtain rfl := hfits event List.mem_cons_self hid
      have hformal : HasFormal { r with events := r.events.set event.eventId event }
          event.eventId :=
        ⟨event, OrderedMap.mem_values.mpr ⟨_, OrderedMap.get?_set_self _ _ _⟩, huser, rfl⟩
      have hstep : (r.commitParsed event).standing k = (none, []) ∧
          framesFor k (r.commitParsed event).observedQueue =
            framesFor k r.observedQueue ++ observedFrames r.scope event.eventId [k] := by
        unfold commitParsed
        rw [hnew]
        simp only [Option.any_none, Bool.false_eq_true, if_false, if_pos huser]
        exact reconcile_of_eq (h.setEvent event) hformal (hp.mem h).1 (hp.mem h).2 hname
      have hgone : k ∉ (r.commitParsed event).itemIds := not_mem_itemIds_iff.mpr hstep.1
      have hrest := commitEvents_of_unnamed (k := k) hkeyed events fun q hq hqid =>
        (hgone (hqid ▸ hkeyed.mem_itemIds hq)).elim
      exact ⟨hrest.1.trans hstep.1, hrest.2.trans hstep.2⟩
    · have hstep := commitParsed_of_ne (k := k) h event fun q hq hqid hq' => by
        rw [hp.unique h hq hqid, hname] at hq'
        exact hid (Option.some.inj hq').symm
      have hrest := ih (r := r.commitParsed event)
        hkeyed ((List.mem_cons.mp hmem).resolve_left fun heq => hid (heq ▸ rfl))
        (fun e he => hfits e (List.mem_cons_of_mem _ he)) ?_ ?_
      · rw [scope_commitParsed, hstep.2] at hrest
        exact hrest
      · rw [get?_commitParsed, hnew, if_neg hid]
        rfl
      · rw [Holds, hstep.1]
        exact hp

end Standing

/-! ## The stages in the timeline -/

/-- Where the item of the message stands at a stage. -/
def AtStage (msg : SentMessage) (r : TimelineRuntime) : DeliveryStage → Prop
  | .waiting => ∃ p, r.standing msg.clientRequestId = (some p, []) ∧ p.messageId = none ∧
      p.requestId = msg.requestId
  | .named => ∃ p, r.Holds msg.clientRequestId p ∧ p.messageId = some msg.messageId
  | .stuck => ∃ p, r.standing msg.clientRequestId = (none, [p]) ∧ p.messageId = none
  | .settled _ => r.standing msg.clientRequestId = (none, [])

/-- The frames that have been handed out at a stage. -/
def handedOut (msg : SentMessage) : DeliveryStage → List ObservedFrame
  | .settled true => [msg.observed]
  | _ => []

/-- A timeline and its log of frames at a point of the delivery of a message. -/
structure Tracks (msg : SentMessage) (d : MessageDelivery) (r : TimelineRuntime)
    (log : List ObservedFrame) : Prop where
  keyed : r.Keyed
  queue : r.observedQueue = []
  scope : r.scope = some msg.scope
  event : r.events.get? msg.messageId = if d.carried then some msg.event else none
  request : ∀ k p, r.pending.get? k = some p → p.requestId = msg.requestId →
    k = msg.clientRequestId
  stage : AtStage msg r d.stage
  log : framesFor msg.clientRequestId log = handedOut msg d.stage
  named : d.stage = .named → d.carried = false

section Tracks

variable {msg : SentMessage} {d : MessageDelivery} {r s : TimelineRuntime} {log : List ObservedFrame}

theorem framesFor_append (k : String) (l l' : List ObservedFrame) :
    framesFor k (l ++ l') = framesFor k l ++ framesFor k l' :=
  List.filter_append ..

theorem atStage_congr {stage : DeliveryStage}
    (hs : s.standing msg.clientRequestId = r.standing msg.clientRequestId) :
    AtStage msg s stage ↔ AtStage msg r stage := by
  cases stage <;> simp only [AtStage, Holds, hs]

/-- An operation that does nothing. -/
theorem Tracks.idle (h : Tracks msg d r log) : Tracks msg d r.change.1 (log ++ r.observedQueue) :=
  ⟨⟨h.keyed.pending, h.keyed.events, h.keyed.snapshot, h.keyed.nodup⟩, rfl, h.scope, h.event,
    h.request, h.stage, by rw [h.queue, List.append_nil]; exact h.log, h.named⟩

theorem Tracks.matching (h : Tracks msg d r log) :
    isMatchingScope r.scope msg.scope.sessionId msg.scope.historyGeneration = true := by
  simp [h.scope, isMatchingScope]

theorem Tracks.hasFormal (h : Tracks msg d r log) :
    r.HasFormal msg.messageId ↔ d.carried = true := by
  rw [HasFormal.get? h.keyed, h.event]
  cases d.carried <;> simp [msg.user]

theorem observed_eq (h : r.scope = some msg.scope) :
    observedFrames r.scope msg.messageId [msg.clientRequestId] = [msg.observed] := by
  rw [h]
  rfl

/-- The item is pending while its message waits or is named, and otherwise not. -/
theorem Tracks.stage_of_pending (h : Tracks msg d r log) {p : TimelinePending}
    (hget : r.pending.get? msg.clientRequestId = some p) :
    r.standing msg.clientRequestId = (some p, []) ∧
      (d.stage = .waiting ∧ p.messageId = none ∨
        d.stage = .named ∧ p.messageId = some msg.messageId) := by
  have hfst : (r.standing msg.clientRequestId).1 = some p := hget
  have hstage := h.stage
  cases hd : d.stage with
  | waiting =>
    rw [hd] at hstage
    obtain ⟨q, hq, hnone, -⟩ := hstage
    rw [hq] at hfst
    obtain rfl : q = p := Option.some.inj hfst
    exact ⟨hq, Or.inl ⟨rfl, hnone⟩⟩
  | named =>
    rw [hd] at hstage
    obtain ⟨q, hq | hq, hname⟩ := hstage
    · rw [hq] at hfst
      obtain rfl : q = p := Option.some.inj hfst
      exact ⟨hq, Or.inr ⟨rfl, hname⟩⟩
    · rw [hq] at hfst
      cases hfst
  | stuck =>
    rw [hd] at hstage
    obtain ⟨q, hq, -⟩ := hstage
    rw [hq] at hfst
    cases hfst
  | settled observed =>
    rw [hd] at hstage
    rw [show r.standing msg.clientRequestId = (none, []) from hstage] at hfst
    cases hfst

theorem Tracks.not_waiting (h : Tracks msg d r log)
    (hget : r.pending.get? msg.clientRequestId = none) : d.stage ≠ .waiting := by
  intro hd
  have hstage := h.stage
  rw [hd] at hstage
  obtain ⟨p, hp, -⟩ := hstage
  have hfst : r.pending.get? msg.clientRequestId = some p := congrArg Prod.fst hp
  rw [hget] at hfst
  cases hfst

theorem arrive_of_names {arrival : MessageArrival} (hnames : arrival.names = true)
    (hstage : d.stage ≠ .waiting) : d.arrive arrival = d := by
  obtain ⟨stage, carried⟩ := d
  unfold MessageDelivery.arrive
  rw [if_pos hnames]
  cases stage <;> simp_all

theorem pending_reconcile (h : r.Keyed) {messageId k : String} {p : TimelinePending}
    (hget : (r.reconcileUserMessage messageId).pending.get? k = some p) :
    r.pending.get? k = some p := by
  classical
  rw [reconcileUserMessage_eq h] at hget
  split_ifs at hget
  · have hfilter : (r.pending.filter _).get? k = some p := hget
    rw [OrderedMap.get?_filter, Option.filter_eq_some_iff] at hfilter
    exact hfilter.1
  · exact hget

/-- Reconciling once the message id is known. -/
theorem tracks_reconcile {carried : Bool} (hkeyed : r.Keyed) (hqueue : r.observedQueue = [])
    (hscope : r.scope = some msg.scope)
    (hevent : r.events.get? msg.messageId = if carried then some msg.event else none)
    (hrequest : ∀ k p, r.pending.get? k = some p → p.requestId = msg.requestId →
      k = msg.clientRequestId)
    {p : TimelinePending} (hholds : r.Holds msg.clientRequestId p)
    (hname : p.messageId = some msg.messageId) (hlog : framesFor msg.clientRequestId log = [])
    (hs : s = r.reconcileUserMessage msg.messageId) :
    Tracks msg ⟨if carried then .settled true else .named, carried⟩ s.change.1
      (log ++ s.observedQueue) := by
  subst hs
  have hk := hkeyed.reconcileUserMessage msg.messageId
  have hkeyed' : (r.reconcileUserMessage msg.messageId).change.1.Keyed :=
    ⟨hk.pending, hk.events, hk.snapshot, hk.nodup⟩
  have hscope' : (r.reconcileUserMessage msg.messageId).change.1.scope = some msg.scope := by
    rw [scope_change, scope_reconcileUserMessage, hscope]
  have hevent' : (r.reconcileUserMessage msg.messageId).change.1.events.get? msg.messageId =
      if carried then some msg.event else none := by
    rw [events_change, events_reconcileUserMessage, hevent]
  have hrequest' : ∀ k q, (r.reconcileUserMessage msg.messageId).change.1.pending.get? k = some q →
      q.requestId = msg.requestId → k = msg.clientRequestId :=
    fun k q hq => hrequest k q (pending_reconcile hkeyed hq)
  have hformal : r.HasFormal msg.messageId ↔ carried = true := by
    rw [HasFormal.get? hkeyed, hevent]
    cases carried <;> simp [msg.user]
  cases carried with
  | true =>
    obtain ⟨hgone, hframes⟩ := reconcile_of_eq hkeyed (hformal.mpr rfl) (hholds.mem hkeyed).1
      (hholds.mem hkeyed).2 hname
    refine ⟨hkeyed', rfl, hscope', hevent', hrequest', hgone, ?_, fun hd => by cases hd⟩
    rw [framesFor_append, hlog, hframes, hqueue, observed_eq hscope]
    rfl
  | false =>
    have hne : ∀ q ∈ r.items, q.clientRequestId = msg.clientRequestId →
        ¬(r.HasFormal msg.messageId ∧ q.messageId = some msg.messageId) := by
      rintro q - - ⟨hf, -⟩
      cases hformal.mp hf
    obtain ⟨hstay, hframes⟩ := reconcile_of_ne hkeyed hne
    refine ⟨hkeyed', rfl, hscope', hevent', hrequest', ⟨p, ?_, hname⟩, ?_, fun _ => rfl⟩
    · show (r.reconcileUserMessage msg.messageId).Holds msg.clientRequestId p
      rw [Holds, hstay]
      exact hholds
    · rw [framesFor_append, hlog, hframes, hqueue]
      rfl

/-- A frame that names the message id, while the item is pending. -/
theorem Tracks.name (h : Tracks msg d r log) {arrival : MessageArrival}
    (hnames : arrival.names = true) {p : TimelinePending}
    (hget : r.pending.get? msg.clientRequestId = some p) (delivery : PendingDelivery)
    (hs : s = reconcileUserMessage
      { r with
        pending := r.pending.set msg.clientRequestId
          { p with delivery := delivery, messageId := some msg.messageId } } msg.messageId) :
    Tracks msg (d.arrive arrival) s.change.1 (log ++ s.observedQueue) := by
  obtain ⟨hstanding, hcases⟩ := h.stage_of_pending hget
  have harrive : d.arrive arrival = ⟨if d.carried then .settled true else .named, d.carried⟩ := by
    obtain ⟨stage, carried⟩ := d
    unfold MessageDelivery.arrive
    rw [if_pos hnames]
    rcases hcases with ⟨hd, -⟩ | ⟨hd, -⟩
    · obtain rfl : stage = .waiting := hd
      cases carried <;> rfl
    · obtain rfl : stage = .named := hd
      obtain rfl : carried = false := h.named rfl
      rfl
  have hlog : framesFor msg.clientRequestId log = [] := by
    rw [h.log]
    rcases hcases with ⟨hd, -⟩ | ⟨hd, -⟩ <;> rw [hd] <;> rfl
  rw [harrive]
  have hkeyed : Keyed { r with
      pending := r.pending.set msg.clientRequestId
        { p with delivery := delivery, messageId := some msg.messageId } } :=
    h.keyed.setPending hget rfl
  refine tracks_reconcile hkeyed h.queue h.scope h.event ?_
    (p := { p with delivery := delivery, messageId := some msg.messageId }) ?_ rfl hlog hs
  · intro k q hq hid
    have hq' : (r.pending.set msg.clientRequestId _).get? k = some q := hq
    rw [OrderedMap.get?_set] at hq'
    split_ifs at hq' with hk
    · exact hk
    · exact h.request k q hq' hid
  · have hsnd : (r.standing msg.clientRequestId).2 = [] := congrArg Prod.snd hstanding
    exact Or.inl (Prod.ext (OrderedMap.get?_set_self _ _ _) hsnd)

/-- A frame that names the message id. -/
theorem Tracks.status (h : Tracks msg d r log) (committed : Bool) (now : ℚ) :
    ∃ s observed, r.operate ((MessageArrival.status committed).operation msg now) =
      some (s, observed) ∧ Tracks msg (d.arrive (.status committed)) s (log ++ observed) := by
  generalize hstatus : (if committed then UserMessageStatus.committed msg.messageId
    else .accepted (some msg.messageId)) = status
  have hid : status.messageId? = some msg.messageId := by
    rw [← hstatus]
    cases committed <;> rfl
  refine ⟨_, _, rfl, ?_⟩
  simp only [receive, h.matching, if_true]
  rw [hstatus]
  cases hget : r.pending.get? msg.clientRequestId with
  | none =>
    rw [receiveStatus_of_none hget, arrive_of_names rfl (h.not_waiting hget)]
    exact h.idle
  | some p =>
    obtain ⟨delivery, hs⟩ := receiveStatus_named hget hid
    exact h.name rfl hget delivery hs

theorem Tracks.started (h : Tracks msg d r log) (now : ℚ) :
    ∃ s observed, r.operate (MessageArrival.started.operation msg now) = some (s, observed) ∧
      Tracks msg (d.arrive .started) s (log ++ observed) := by
  refine ⟨_, _, rfl, ?_⟩
  simp only [receive, h.matching, if_true]
  cases hfind : r.findRequest msg.requestId with
  | none =>
    have hwaiting : d.stage ≠ .waiting := by
      intro hd
      have hstage := h.stage
      rw [hd] at hstage
      obtain ⟨p, hp, -, hrequest⟩ := hstage
      have hget : r.pending.get? msg.clientRequestId = some p := congrArg Prod.fst hp
      refine List.find?_eq_none.mp hfind p (OrderedMap.mem_values.mpr ⟨_, hget⟩) ?_
      exact decide_eq_true hrequest
    rw [arrive_of_names rfl hwaiting]
    exact h.idle
  | some p =>
    obtain ⟨hrequest, hget⟩ := findRequest_eq_some h.keyed hfind
    have hid := h.request _ p hget hrequest
    rw [hid] at hget
    exact h.name rfl hget .accepted (by rw [hid])

/-! ## Giving up -/

/-- Moves the item of a client request id to the unknown ones. -/
theorem Tracks.giveUp (h : Tracks msg d r log) {arrival : MessageArrival}
    (hmarks : arrival.marks = true) (hkeyed : s.Keyed) (hqueue : s.observedQueue = r.observedQueue)
    (hscope : s.scope = r.scope) (hevents : s.events = r.events)
    (hpending : ∀ k p, s.pending.get? k = some p → r.pending.get? k = some p)
    (hgone : s.pending.get? msg.clientRequestId = none)
    (hunknown : (s.standing msg.clientRequestId).2 = (r.standing msg.clientRequestId).2 ++
      ((r.pending.get? msg.clientRequestId).map fun p =>
        { p with delivery := .unknownDelivery }).toList) :
    Tracks msg (d.arrive arrival) s.change.1 (log ++ s.observedQueue) := by
  have hcarried : (d.arrive arrival).carried = d.carried := by
    rw [MessageDelivery.carried_arrive]
    cases arrival <;> simp_all [MessageArrival.marks, MessageArrival.carries]
  have harrive : (d.arrive arrival).stage =
      if d.stage = .waiting then .stuck else d.stage := by
    obtain ⟨stage, carried⟩ := d
    cases arrival <;> simp [MessageArrival.marks] at hmarks <;> cases stage <;> rfl
  have hstanding : s.standing msg.clientRequestId =
      (none, (r.standing msg.clientRequestId).2 ++
        ((r.pending.get? msg.clientRequestId).map fun p =>
          { p with delivery := .unknownDelivery }).toList) := Prod.ext hgone hunknown
  refine ⟨⟨hkeyed.pending, hkeyed.events, hkeyed.snapshot, hkeyed.nodup⟩, rfl, ?_, ?_, ?_, ?_, ?_,
    ?_⟩
  · rw [scope_change, hscope, h.scope]
  · rw [events_change, hevents, h.event, hcarried]
  · exact fun k p hp => h.request k p (hpending k p hp)
  · rw [harrive]
    refine (atStage_congr (r := s) rfl).mpr ?_
    have hstage := h.stage
    cases hd : d.stage with
    | waiting =>
      rw [hd] at hstage
      obtain ⟨p, hp, hnone, -⟩ := hstage
      have hget : r.pending.get? msg.clientRequestId = some p := congrArg Prod.fst hp
      rw [hp, hget] at hstanding
      exact ⟨_, hstanding, hnone⟩
    | named =>
      rw [hd] at hstage
      obtain ⟨p, hp | hp, hname⟩ := hstage
      · have hget : r.pending.get? msg.clientRequestId = some p := congrArg Prod.fst hp
        rw [hp, hget] at hstanding
        exact ⟨_, Or.inr hstanding, hname⟩
      · have hget : r.pending.get? msg.clientRequestId = none := congrArg Prod.fst hp
        rw [hp, hget] at hstanding
        exact ⟨p, Or.inr hstanding, hname⟩
    | stuck =>
      rw [hd] at hstage
      obtain ⟨p, hp, hnone⟩ := hstage
      have hget : r.pending.get? msg.clientRequestId = none := congrArg Prod.fst hp
      rw [hp, hget] at hstanding
      exact ⟨p, hstanding, hnone⟩
    | settled observed =>
      rw [hd] at hstage
      have hp : r.standing msg.clientRequestId = (none, []) := hstage
      have hget : r.pending.get? msg.clientRequestId = none := congrArg Prod.fst hp
      rw [hp, hget] at hstanding
      exact hstanding
  · rw [hqueue, h.queue, List.append_nil, h.log, harrive]
    cases d.stage <;> rfl
  · intro hd
    rw [harrive] at hd
    rw [hcarried]
    refine h.named ?_
    cases hstage : d.stage <;> simp_all

theorem Tracks.markUnknownDelivery (h : Tracks msg d r log) (now : ℚ) :
    ∃ s observed, r.operate (MessageArrival.markUnknownDelivery.operation msg now) =
      some (s, observed) ∧ Tracks msg (d.arrive .markUnknownDelivery) s (log ++ observed) := by
  refine ⟨_, _, rfl, ?_⟩
  simp only [TimelineRuntime.markUnknownDelivery]
  cases hget : r.pending.get? msg.clientRequestId with
  | none =>
    refine h.giveUp rfl h.keyed rfl rfl rfl (fun _ _ hp => hp) hget ?_
    rw [hget]
    exact (List.append_nil _).symm
  | some p =>
    have hid := h.keyed.pending _ p hget
    refine h.giveUp rfl (h.keyed.moveToUnknown hget) rfl rfl rfl (fun k q hq => ?_) ?_ ?_
    · have hq' : (r.pending.erase msg.clientRequestId).get? k = some q := hq
      rw [OrderedMap.get?_erase] at hq'
      split_ifs at hq'
      exact hq'
    · exact OrderedMap.get?_erase_self _ _
    · show (r.unknown ++ [_]).filter _ = r.unknown.filter _ ++ _
      rw [List.filter_append, hget]
      simp [hid]

theorem Tracks.markDisconnected (h : Tracks msg d r log) (now : ℚ) :
    ∃ s observed, r.operate (MessageArrival.markDisconnected.operation msg now) =
      some (s, observed) ∧ Tracks msg (d.arrive .markDisconnected) s (log ++ observed) := by
  refine ⟨_, _, rfl, ?_⟩
  refine h.giveUp rfl h.keyed.clearTransient rfl rfl rfl (fun k q hq => by cases hq) rfl ?_
  show (r.unknown ++ r.pending.values.map _).filter _ = r.unknown.filter _ ++ _
  rw [List.filter_append, List.filter_map]
  show _ ++ ((r.pending.values.filter fun p => decide (p.clientRequestId = msg.clientRequestId)).map
    _) = _
  rw [OrderedMap.filter_values_eq h.keyed.pending msg.clientRequestId]
  cases r.pending.get? msg.clientRequestId <;> rfl

/-! ## The formal event -/

theorem pending_commitEvents (h : r.Keyed) {events : List TimelineEvent} {k : String}
    {p : TimelinePending} (hget : (r.commitEvents events).pending.get? k = some p) :
    r.pending.get? k = some p := by
  induction events generalizing r with
  | nil => exact hget
  | cons event events ih =>
    have hstep := ih (h.commitParsed event) hget
    unfold commitParsed at hstep
    dsimp only at hstep
    split_ifs at hstep
    · exact hstep
    · exact pending_reconcile (h.setEvent event) hstep
    · exact hstep

/-- The formal event is committed, alone or with other events, to a state with the same
    items. -/
structure Carries (msg : SentMessage) (r : TimelineRuntime) (events : List TimelineEvent)
    (s : TimelineRuntime) : Prop where
  keyed : s.Keyed
  queue : s.observedQueue = []
  scope : s.scope = r.scope
  pending : s.pending = r.pending
  unknown : s.unknown = r.unknown
  event : s.events.get? msg.messageId = none ∨
    s.events.get? msg.messageId = r.events.get? msg.messageId
  mem : msg.event ∈ events
  fits : ∀ e ∈ events, e.eventId = msg.messageId → e = msg.event

theorem Carries.event_commitEvents (h : Tracks msg d r log) {events : List TimelineEvent}
    (hs : Carries msg r events s) :
    (s.commitEvents events).events.get? msg.messageId = some msg.event := by
  have hfind : events.find? (fun e => decide (e.eventId = msg.messageId)) = some msg.event := by
    cases hfind : events.find? fun e => decide (e.eventId = msg.messageId) with
    | none => exact (List.find?_eq_none.mp hfind _ hs.mem (decide_eq_true rfl)).elim
    | some e =>
      have hid : e.eventId = msg.messageId := by simpa using List.find?_some hfind
      rw [hs.fits e (List.mem_of_find?_eq_some hfind) hid]
  rw [get?_commitEvents, hfind]
  have hevent := hs.event
  rw [h.event] at hevent
  rcases hevent with hnone | hold
  · rw [hnone]
    rfl
  · rw [hold]
    cases d.carried <;> rfl

/-- The item of a named message goes with its event, and one frame with it. -/
theorem Carries.commitEvents (h : Tracks msg d r log) {events : List TimelineEvent}
    (hs : Carries msg r events s) :
    AtStage msg (s.commitEvents events) (if d.stage = .named then .settled true else d.stage) ∧
      framesFor msg.clientRequestId (s.commitEvents events).observedQueue =
        if d.stage = .named then [msg.observed] else [] := by
  have hstanding : s.standing msg.clientRequestId = r.standing msg.clientRequestId := by
    rw [standing, hs.pending, hs.unknown, standing]
  have hat := (atStage_congr hstanding).mpr h.stage
  by_cases hnamed : d.stage = .named
  · rw [if_pos hnamed, if_pos hnamed]
    rw [hnamed] at hat
    obtain ⟨p, hholds, hname⟩ := hat
    have hnew : s.events.get? msg.messageId = none := by
      have hevent := hs.event
      rw [h.event, h.named hnamed] at hevent
      exact hevent.elim id id
    obtain ⟨hgone, hframes⟩ := commitEvents_of_named hs.keyed msg.user hs.mem hs.fits hnew hholds
      hname
    refine ⟨hgone, ?_⟩
    rw [hframes, hs.queue]
    exact observed_eq (hs.scope.trans h.scope)
  · rw [if_neg hnamed, if_neg hnamed]
    have hnone : ∀ p ∈ s.items, p.clientRequestId = msg.clientRequestId → p.messageId = none := by
      intro p hp hid
      cases hd : d.stage with
      | waiting =>
        rw [hd] at hat
        obtain ⟨q, hq, hnone, -⟩ := hat
        rw [Holds.unique hs.keyed (Or.inl hq) hp hid, hnone]
      | named => exact (hnamed hd).elim
      | stuck =>
        rw [hd] at hat
        obtain ⟨q, hq, hnone⟩ := hat
        rw [Holds.unique hs.keyed (Or.inr hq) hp hid, hnone]
      | settled observed =>
        rw [hd] at hat
        exact (not_mem_itemIds_iff.mpr hat (hid ▸ hs.keyed.mem_itemIds hp)).elim
    obtain ⟨hsame, hframes⟩ := commitEvents_of_unnamed (k := msg.clientRequestId) hs.keyed events
      hnone
    refine ⟨(atStage_congr hsame).mpr hat, ?_⟩
    rw [hframes, hs.queue]
    rfl

/-- The delivery once the event is there. -/
theorem Carries.tracks (h : Tracks msg d r log) {events : List TimelineEvent}
    (hs : Carries msg r events s) {arrival : MessageArrival} (hcarries : arrival.carries = true)
    {observed : List ObservedFrame} (hobserved : observed =
      if arrival = .timelineEvent then [] else (s.commitEvents events).observedQueue) :
    Tracks msg (d.arrive arrival) (s.commitEvents events).change.1 (log ++ observed) := by
  have hk := hs.keyed.commitEvents events
  obtain ⟨hat, hframes⟩ := hs.commitEvents h
  have harrive : d.arrive arrival = ⟨if d.stage = .named then
      .settled (decide (arrival ≠ .timelineEvent)) else d.stage, true⟩ := by
    obtain ⟨stage, carried⟩ := d
    unfold MessageDelivery.arrive
    cases arrival <;> simp [MessageArrival.carries] at hcarries <;> cases stage <;> rfl
  rw [harrive]
  refine ⟨⟨hk.pending, hk.events, hk.snapshot, hk.nodup⟩, rfl, ?_, hs.event_commitEvents h, ?_, ?_,
    ?_, ?_⟩
  · rw [scope_change, scope_commitEvents, hs.scope, h.scope]
  · intro k p hp
    refine h.request k p ?_
    rw [← hs.pending]
    exact pending_commitEvents hs.keyed hp
  · by_cases hnamed : d.stage = .named
    · rw [if_pos hnamed] at hat ⊢
      exact hat
    · rw [if_neg hnamed] at hat ⊢
      exact hat
  · rw [framesFor_append, h.log, hobserved]
    by_cases hframe : arrival = .timelineEvent
    · rw [if_pos hframe]
      by_cases hnamed : d.stage = .named
      · rw [if_pos hnamed, hnamed, hframe]
        rfl
      · rw [if_neg hnamed]
        exact List.append_nil _
    · rw [if_neg hframe, hframes]
      by_cases hnamed : d.stage = .named
      · rw [if_pos hnamed, if_pos hnamed, hnamed, decide_eq_true hframe]
        rfl
      · rw [if_neg hnamed, if_neg hnamed]
        exact List.append_nil _
  · intro hd
    by_cases hnamed : d.stage = .named
    · rw [if_pos hnamed] at hd
      cases hd
    · rw [if_neg hnamed] at hd
      exact (hnamed hd).elim

/-- Every arrival moves the item as it moves the delivery. -/
theorem tracks_operate (h : Tracks msg d r log) {arrival : MessageArrival}
    (hfits : arrival.Fits msg) (now : ℚ) :
    ∃ s observed, r.operate (arrival.operation msg now) = some (s, observed) ∧
      Tracks msg (d.arrive arrival) s (log ++ observed) := by
  have hin : isMatchingScope r.scope msg.event.sessionId msg.event.historyGeneration = true := by
    rw [h.scope]
    exact msg.inScope
  have hone : Carries msg r [msg.event] r :=
    ⟨h.keyed, h.queue, rfl, rfl, rfl, Or.inr rfl, List.mem_singleton_self _,
      fun e he _ => List.mem_singleton.mp he⟩
  have hpage : ∀ events : List TimelineEvent,
      (msg.event ∈ events ∧ ∀ e ∈ events, e.eventId = msg.messageId → e = msg.event) →
      msg.event ∈ events.filter (admits r.scope) ∧
        ∀ e ∈ events.filter (admits r.scope), e.eventId = msg.messageId → e = msg.event := by
    rintro events ⟨hmem, hunique⟩
    refine ⟨List.mem_filter.mpr ⟨hmem, ?_⟩, fun e he => hunique e (List.mem_of_mem_filter he)⟩
    rw [admits, hin, Bool.or_true]
  cases arrival with
  | status committed => exact h.status committed now
  | started => exact h.started now
  | timelineEvent =>
    refine ⟨_, _, rfl, ?_⟩
    simp only [receive, h.matching, if_true, TimelineRuntime.commit, hin]
    exact hone.tracks h rfl rfl
  | commit =>
    refine ⟨_, _, rfl, ?_⟩
    simp only [TimelineRuntime.commit, hin, if_true]
    exact hone.tracks h rfl rfl
  | replaceHistory events =>
    obtain ⟨hmem, hunique⟩ := hpage events hfits
    refine ⟨_, _, rfl, ?_⟩
    have hempty : Carries msg r (events.filter (admits r.scope))
        { r with historyEvents := events.filter (admits r.scope), events := .empty } :=
      ⟨⟨h.keyed.pending, (fun k e he => by cases he), h.keyed.snapshot, h.keyed.nodup⟩, h.queue,
        rfl, rfl, rfl, Or.inl rfl, hmem, hunique⟩
    exact hempty.tracks h rfl rfl
  | prependHistory events =>
    obtain ⟨hmem, hunique⟩ := hpage events hfits
    refine ⟨_, _, rfl, ?_⟩
    exact Carries.tracks h ⟨h.keyed, h.queue, rfl, rfl, rfl, Or.inr rfl, hmem, hunique⟩ rfl rfl
  | markUnknownDelivery => exact h.markUnknownDelivery now
  | markDisconnected => exact h.markDisconnected now

/-- At the end of a delivery the message is reconciled or not by its stage. -/
theorem Tracks.reconciled_iff_stage (h : Tracks msg d r log) (hcarried : d.carried = true) :
    Reconciled msg r log ↔ d.stage = .settled true := by
  have hevents : (r.events.values.filter fun e => decide (e.eventId = msg.messageId)) =
      [msg.event] := by
    rw [OrderedMap.filter_values_eq h.keyed.events, h.event, hcarried]
    rfl
  have hlog : (log.filter fun f => decide (f.clientRequestId = msg.clientRequestId)) =
      handedOut msg d.stage := h.log
  rw [Reconciled, h.keyed.map_items, hevents, hlog, not_mem_itemIds_iff]
  constructor
  · rintro ⟨-, -, hhanded⟩
    cases hd : d.stage with
    | settled observed =>
      rw [hd] at hhanded
      cases observed with
      | true => rfl
      | false => cases hhanded
    | waiting | named | stuck => rw [hd] at hhanded; cases hhanded
  · intro hd
    have hstage := h.stage
    rw [hd] at hstage ⊢
    exact ⟨hstage, rfl, rfl⟩

theorem exists_run_tracks (h : Tracks msg d r log) {arrivals : List MessageArrival}
    (hfits : ∀ a ∈ arrivals, a.Fits msg) (now : ℚ) :
    ∃ s log', run (logged operate) (r, log) (arrivals.map (MessageArrival.operation msg now)) =
      some (s, log') ∧ Tracks msg (arrivals.foldl MessageDelivery.arrive d) s log' := by
  induction arrivals generalizing d r log with
  | nil => exact ⟨r, log, rfl, h⟩
  | cons arrival arrivals ih =>
    obtain ⟨s, observed, hop, hs⟩ := tracks_operate h (hfits arrival List.mem_cons_self) now
    obtain ⟨t, log', hrun, ht⟩ := ih hs fun a ha => hfits a (List.mem_cons_of_mem _ ha)
    refine ⟨t, log', run_cons_eq_some.mpr ⟨(s, log ++ observed), ?_, hrun⟩, ht⟩
    exact logged_eq_some.mpr ⟨observed, hop, rfl⟩

end Tracks

/-! ## From the first send on -/

section Delivered

variable {r s : TimelineRuntime}

/-- The message is waiting once `sendUser` has sent it. -/
theorem tracks_sendUser {msg : SentMessage} (h : r.Keyed)
    (hscope : r.scope = some msg.scope) (hfresh : msg.clientRequestId ∉ r.itemIds)
    (hrequest : ∀ p ∈ r.items, p.requestId ≠ msg.requestId)
    (hevent : ∀ e ∈ r.events.values, e.eventId ≠ msg.messageId)
    {text : String} {images : Option (List WireImage)} {now : ℚ} {frame : UserMessageFrame}
    {change : TimelineRuntimeChange}
    (hsend : r.sendUser text images msg.clientRequestId msg.requestId now =
      some (s, frame, change)) : Tracks msg .new s [] := by
  obtain ⟨scope, p, -, hid, hreq, hnone, rfl, -⟩ := sendUser_eq_some hsend
  have hadd := h.addPending (p := p) (by rwa [hid])
  rw [hid] at hadd
  refine ⟨⟨hadd.pending, hadd.events, hadd.snapshot, hadd.nodup⟩, rfl, hscope, ?_, ?_, ?_, rfl,
    fun hd => by cases hd⟩
  · show r.events.get? msg.messageId = none
    cases hget : r.events.get? msg.messageId with
    | none => rfl
    | some e =>
      exact (hevent e (OrderedMap.mem_values.mpr ⟨_, hget⟩) (h.events _ e hget)).elim
  · intro k q hq hqid
    have hq' : (r.pending.set msg.clientRequestId p).get? k = some q := hq
    rw [OrderedMap.get?_set] at hq'
    split_ifs at hq' with hk
    · exact hk
    · exact (hrequest q (mem_items_of_pending hq') hqid).elim
  · refine ⟨p, ?_, hnone, hreq⟩
    have hsnd : (r.standing msg.clientRequestId).2 = [] :=
      congrArg Prod.snd (not_mem_itemIds_iff.mp hfresh)
    exact Prod.ext (OrderedMap.get?_set_self _ _ _) hsnd

/-- A message is sent in any timeline, under ids that are not in use, and then its naming
    frames, its formal event and the operations that give it up arrive in any order. Once
    at least one naming frame and the event have arrived, the message is reconciled when
    every arrival came in time, and only then. -/
theorem reconciled_iff {msg : SentMessage} {ops : List TimelineOperation}
    (hrun : run advance .new ops = some r) (hscope : r.scope = some msg.scope)
    (hfresh : msg.clientRequestId ∉ r.itemIds)
    (hrequest : ∀ p ∈ r.items, p.requestId ≠ msg.requestId)
    (hevent : ∀ e ∈ r.events.values, e.eventId ≠ msg.messageId)
    {text : String} {images : Option (List WireImage)} {sentAt : ℚ} {frame : UserMessageFrame}
    {change : TimelineRuntimeChange}
    (hsend : r.sendUser text images msg.clientRequestId msg.requestId sentAt =
      some (s, frame, change))
    {arrivals : List MessageArrival} (hfits : ∀ a ∈ arrivals, a.Fits msg)
    (hnames : arrivals.any MessageArrival.names = true)
    (hcarries : arrivals.any MessageArrival.carries = true) (now : ℚ) :
    ∃ t log, run (logged operate) (s, []) (arrivals.map (MessageArrival.operation msg now)) =
      some (t, log) ∧ (Reconciled msg t log ↔ Throughout Timely arrivals) := by
  have hsent := tracks_sendUser (keyed_run keyed_new hrun) hscope hfresh hrequest hevent hsend
  obtain ⟨t, log, hrun', ht⟩ := exists_run_tracks hsent hfits now
  refine ⟨t, log, hrun', ?_⟩
  obtain ⟨hcarried, htimely, huntimely⟩ := MessageDelivery.after_eq arrivals
  rw [hcarries] at hcarried
  refine (ht.reconciled_iff_stage hcarried).trans ?_
  show (MessageDelivery.after arrivals).stage = _ ↔ _
  by_cases hin : Throughout Timely arrivals
  · rw [htimely hin, if_pos hnames, if_pos hcarries]
    exact ⟨fun _ => hin, fun _ => rfl⟩
  · refine ⟨fun hd => ?_, fun hthrough => (hin hthrough).elim⟩
    rcases huntimely hin with hstuck | hlost
    · rw [hstuck] at hd
      cases hd
    · rw [hlost] at hd
      cases hd

theorem isMatchingScope_self (scope : TimelineScope) :
    isMatchingScope (some scope) scope.sessionId scope.historyGeneration = true := by
  simp [isMatchingScope]

/-- The text of `resentText` as a formal event. -/
def hiMessage : SentMessage where
  scope := browserScope
  clientRequestId := "request"
  requestId := "frame"
  event := ⟨"message", browserScope.sessionId, browserScope.historyGeneration, 0, .user, none, []⟩
  user := rfl
  inScope := isMatchingScope_self browserScope

/-- The timeline before the text is sent, and after. -/
def beforeSending : TimelineRuntime := (TimelineRuntime.new.setScope browserScope).1

def afterSending : TimelineRuntime :=
  ((beforeSending.sendUser "Hi" none "request" "frame" 0).map Prod.fst).getD beforeSending

theorem afterSending_eq : ∃ frame change,
    beforeSending.sendUser "Hi" none "request" "frame" 0 =
      some (afterSending, frame, change) := by
  obtain ⟨⟨s, frame, change⟩, hsent⟩ := Option.isSome_iff_exists.mp
    (show (beforeSending.sendUser "Hi" none "request" "frame" 0).isSome = true by decide)
  refine ⟨frame, change, ?_⟩
  rw [afterSending, hsent]
  rfl

theorem hiMessage_reconciled : ∃ t log,
    run (logged operate) (afterSending, [])
        ([.timelineEvent, .started, .markDisconnected].map (MessageArrival.operation hiMessage 0)) =
      some (t, log) ∧
    (Reconciled hiMessage t log ↔
      Throughout Timely [.timelineEvent, .started, .markDisconnected]) := by
  obtain ⟨frame, change, hsend⟩ := afterSending_eq
  have hrun : run advance .new [.setScope browserScope] = some beforeSending := rfl
  have hscope : beforeSending.scope = some hiMessage.scope := rfl
  have hfits : ∀ a ∈ [MessageArrival.timelineEvent, .started, .markDisconnected],
      a.Fits hiMessage := by simp [MessageArrival.Fits]
  refine reconciled_iff hrun hscope (by decide) (fun p hp => ?_) (fun e he => ?_) hsend
    hfits rfl rfl 0
  · cases hp
  · cases he

/-- The event frame after the frame that names it: no frame is handed out for the host.
    Given up before the frame that names it: the item stays. -/
theorem hiMessage_not_reconciled :
    (∃ t log, run (logged operate) (afterSending, [])
        ([.started, .timelineEvent].map (MessageArrival.operation hiMessage 0)) = some (t, log) ∧
      ¬Reconciled hiMessage t log) ∧
    ∃ t log, run (logged operate) (afterSending, [])
        ([.markDisconnected, .started, .commit].map (MessageArrival.operation hiMessage 0)) =
          some (t, log) ∧ ¬Reconciled hiMessage t log := by
  obtain ⟨frame, change, hsend⟩ := afterSending_eq
  have hrun : run advance .new [.setScope browserScope] = some beforeSending := rfl
  have hkeyed : beforeSending.Keyed := keyed_run keyed_new hrun
  have hsent : Tracks hiMessage .new afterSending [] :=
    tracks_sendUser hkeyed rfl (by decide) (fun p hp => by cases hp)
      (fun e he => by cases he) hsend
  constructor
  · obtain ⟨t, log, hrun, ht⟩ := exists_run_tracks hsent
      (show ∀ a ∈ [MessageArrival.started, .timelineEvent], a.Fits hiMessage by
        simp [MessageArrival.Fits]) 0
    refine ⟨t, log, hrun, ?_⟩
    rw [ht.reconciled_iff_stage rfl]
    decide
  · obtain ⟨t, log, hrun, ht⟩ := exists_run_tracks hsent
      (show ∀ a ∈ [MessageArrival.markDisconnected, .started, .commit], a.Fits hiMessage by
        simp [MessageArrival.Fits]) 0
    refine ⟨t, log, hrun, ?_⟩
    rw [ht.reconciled_iff_stage rfl]
    decide

end Delivered

end TimelineRuntime

end RemotePi.Pwa
