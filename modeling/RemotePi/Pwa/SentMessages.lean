import Mathlib.Data.List.Dedup
import RemotePi.Lib.Trace
import RemotePi.Pwa.TimelineRuntime

/-!
# What becomes of a sent message

Runs of the browser's timeline over all its operations, and the messages that stand
in them as pending or of unknown delivery. `sendUser` makes an item; a status frame, a
protocol error, a disconnect, a change of scope and a retry move it between the map of
the pending messages and the list of the unknown ones.

Results:
* `reconcileUserMessage_eq`: reconciling removes the items with the message id, wherever
  they stand, and hands out one frame for each.
* `Keyed.operate`: no client request id is listed twice.
* `kept_or_removed`: what an operation takes off the list, and why.
* `sent_messages_conserved`: what that comes to over a run.
-/

namespace RemotePi.Pwa

open RemotePi.Lib RemotePi.Protocol

/-! ## Operations -/

/-- The operations of the class; ids and times that it makes itself are given. -/
inductive TimelineOperation where
  | setScope (scope : TimelineScope)
  | invalidateScope
  | clear
  | markDisconnected
  | sendUser (text : String) (images : Option (List WireImage))
      (clientRequestId requestId : String) (now : ℚ)
  | markUnknownDelivery (clientRequestId : String)
  | retryUnknown (clientRequestId requestId : String)
  | receive (frame : TimelineFrame) (now : ℚ)
  | commit (event : TimelineEvent)
  | replaceHistory (events : List TimelineEvent)
  | prependHistory (events : List TimelineEvent)
deriving DecidableEq

/-- The message id that a status carries. -/
def UserMessageStatus.messageId? : UserMessageStatus → Option String
  | .received | .unknownDelivery => none
  | .accepted messageId => messageId
  | .committed messageId => some messageId

/-- The message id that an operation gives to an item. -/
def TimelineOperation.messageIdOf (op : TimelineOperation) (p : TimelinePending) : Option String :=
  match op with
  | .receive (.userMessageStatus _ _ clientRequestId status) _ =>
    if clientRequestId = p.clientRequestId then status.messageId? else none
  | .receive (.userMessageStarted _ _ inReplyTo messageId) _ =>
    if inReplyTo = p.requestId then some messageId else none
  | _ => none

namespace TimelineRuntime

/-! ## The items -/

/-- `pendingItems` (line 251). -/
def items (r : TimelineRuntime) : List TimelinePending := r.pending.values ++ r.unknown

/-- The client request ids under which the items are listed. -/
def itemIds (r : TimelineRuntime) : List String :=
  r.pending.keys ++ r.unknown.map TimelinePending.clientRequestId

/-- The entries that `reconcileUserMessage` goes through (line 273). -/
def itemEntries (r : TimelineRuntime) : List (String × TimelinePending) :=
  r.pending.entries ++ r.unknown.map fun p => (p.clientRequestId, p)

/-- A formal user event with the message id is present. -/
def HasFormal (r : TimelineRuntime) (messageId : String) : Prop :=
  ∃ e ∈ r.events.values, e.kind = .user ∧ e.eventId = messageId

/-- Every map is keyed by the ids of what it holds, and no item is listed twice. -/
structure Keyed (r : TimelineRuntime) : Prop where
  pending : ∀ k p, r.pending.get? k = some p → p.clientRequestId = k
  events : ∀ k e, r.events.get? k = some e → e.eventId = k
  snapshot : ∀ k i, r.queuedSnapshotItems.get? k = some i → i.id = k
  nodup : r.itemIds.Nodup

section Items

variable {r : TimelineRuntime}

theorem map_fst_itemEntries : r.itemEntries.map Prod.fst = r.itemIds := by
  simp [itemEntries, itemIds, OrderedMap.keys]

theorem map_snd_itemEntries : r.itemEntries.map Prod.snd = r.items := by
  simp [itemEntries, items, OrderedMap.values, Function.comp_def]

theorem Keyed.itemEntries (h : Keyed r) {entry : String × TimelinePending}
    (he : entry ∈ r.itemEntries) : entry.2.clientRequestId = entry.1 := by
  rcases List.mem_append.mp he with hp | hu
  · exact h.pending _ _ (OrderedMap.mem_entries_iff.mp hp)
  · obtain ⟨p, -, rfl⟩ := List.mem_map.mp hu
    rfl

theorem Keyed.map_items (h : Keyed r) :
    r.items.map TimelinePending.clientRequestId = r.itemIds := by
  rw [← map_snd_itemEntries, ← map_fst_itemEntries, List.map_map]
  exact List.map_congr_left fun entry he => h.itemEntries he

theorem Keyed.mem_itemIds (h : Keyed r) {p : TimelinePending} (hp : p ∈ r.items) :
    p.clientRequestId ∈ r.itemIds := by
  rw [← h.map_items]
  exact List.mem_map_of_mem hp

theorem Keyed.exists_item (h : Keyed r) {k : String} (hk : k ∈ r.itemIds) :
    ∃ p ∈ r.items, p.clientRequestId = k := by
  rw [← h.map_items] at hk
  exact List.mem_map.mp hk

theorem mem_items_of_pending {k : String} {p : TimelinePending} (hp : r.pending.get? k = some p) :
    p ∈ r.items :=
  List.mem_append_left _ (List.mem_map.mpr ⟨_, OrderedMap.mem_entries_iff.mpr hp, rfl⟩)

/-- With one client request id there is one item. -/
theorem Keyed.item_unique (h : Keyed r) {p q : TimelinePending} (hp : p ∈ r.items)
    (hq : q ∈ r.items) (heq : p.clientRequestId = q.clientRequestId) : p = q := by
  refine List.inj_on_of_nodup_map ?_ hp hq heq
  rw [h.map_items]
  exact h.nodup

theorem keyed_new : Keyed .new := by
  refine ⟨?_, ?_, ?_, List.nodup_nil⟩ <;> intro k x hx <;> cases hx

end Items

/-! ## Reconciling -/

/-- The frames that the matches of a message id put in the queue. -/
def observedFrames (scope : Option TimelineScope) (messageId : String) (ids : List String) :
    List ObservedFrame :=
  match scope with
  | none => []
  | some scope => ids.map fun id => ⟨scope.channelId, scope.historyGeneration, id, messageId⟩

/-- The client request ids of the items with the message id. -/
def namedIds (r : TimelineRuntime) (messageId : String) : List String :=
  (r.itemEntries.filter fun entry => decide (entry.2.messageId = some messageId)).map Prod.fst

/-- Removes the items with the message id and queues a frame for each. -/
def settle (messageId : String) (r : TimelineRuntime) : TimelineRuntime :=
  { r with
    pending := r.pending.filter fun _ p => decide (p.messageId ≠ some messageId)
    unknown := r.unknown.filter fun p => decide (p.messageId ≠ some messageId)
    observedQueue := r.observedQueue ++ observedFrames r.scope messageId (r.namedIds messageId) }

section Reconcile

variable {r : TimelineRuntime}

theorem observe_foldl_eq (messageId : String) (ids : List String) (r : TimelineRuntime) :
    ids.foldl (observe messageId) r =
      { r with
        pending := r.pending.filter fun k _ => !ids.contains k
        unknown := r.unknown.filter fun p => !ids.contains p.clientRequestId
        observedQueue := r.observedQueue ++ observedFrames r.scope messageId ids } := by
  induction ids generalizing r with
  | nil =>
    have hpending : r.pending.filter (fun k _ => !([] : List String).contains k) = r.pending :=
      OrderedMap.ext (List.filter_eq_self.mpr fun _ _ => rfl)
    have hunknown : r.unknown.filter (fun p => !([] : List String).contains p.clientRequestId) =
        r.unknown := List.filter_eq_self.mpr fun _ _ => rfl
    have hframes : observedFrames r.scope messageId [] = [] := by
      cases hs : r.scope <;> rfl
    rw [List.foldl_nil, hpending, hunknown, hframes, List.append_nil]
  | cons id ids ih =>
    have hpending : (observe messageId r id).pending.filter (fun k _ => !ids.contains k) =
        r.pending.filter fun k _ => !(id :: ids).contains k := by
      refine OrderedMap.ext ?_
      show (r.pending.entries.filter _).filter _ = r.pending.entries.filter _
      rw [List.filter_filter]
      refine List.filter_congr fun entry _ => ?_
      by_cases h : entry.1 = id <;> simp [h]
    have hunknown :
        (observe messageId r id).unknown.filter (fun p => !ids.contains p.clientRequestId) =
        r.unknown.filter fun p => !(id :: ids).contains p.clientRequestId := by
      show (r.unknown.filter _).filter _ = r.unknown.filter _
      rw [List.filter_filter]
      refine List.filter_congr fun p _ => ?_
      by_cases h : p.clientRequestId = id <;> simp [h]
    have hframes : (observe messageId r id).observedQueue ++
          observedFrames (observe messageId r id).scope messageId ids =
        r.observedQueue ++ observedFrames r.scope messageId (id :: ids) := by
      cases hs : r.scope <;> simp [observe, observedFrames, hs]
    rw [List.foldl_cons, ih, hpending, hunknown, hframes]
    rfl

/-- With distinct keys, the keys of a part of the entries tell which entries it holds. -/
theorem mem_keys_filter {l : List (String × TimelinePending)} (hn : (l.map Prod.fst).Nodup)
    {f : String × TimelinePending → Bool} {entry : String × TimelinePending} (he : entry ∈ l) :
    entry.1 ∈ (l.filter f).map Prod.fst ↔ f entry = true := by
  constructor
  · intro h
    obtain ⟨other, hother, heq⟩ := List.mem_map.mp h
    obtain ⟨hmem, hf⟩ := List.mem_filter.mp hother
    rwa [List.inj_on_of_nodup_map hn hmem he heq] at hf
  · intro h
    exact List.mem_map_of_mem (List.mem_filter.mpr ⟨he, h⟩)

theorem Keyed.mem_namedIds (h : Keyed r) {messageId : String}
    {entry : String × TimelinePending} (he : entry ∈ r.itemEntries) :
    entry.1 ∈ r.namedIds messageId ↔ entry.2.messageId = some messageId := by
  have hn : (r.itemEntries.map Prod.fst).Nodup := map_fst_itemEntries ▸ h.nodup
  rw [namedIds, mem_keys_filter hn he, decide_eq_true_eq]

/-- What `reconcileUserMessage` does to a state without double listings. -/
theorem reconcileUserMessage_eq (h : Keyed r) (messageId : String) [Decidable (r.HasFormal messageId)] :
    r.reconcileUserMessage messageId =
      if r.HasFormal messageId then r.settle messageId else r := by
  have hformal : (r.events.values.any fun e => e.kind = .user && e.eventId = messageId) = true ↔
      r.HasFormal messageId := by
    simp [HasFormal]
  unfold reconcileUserMessage
  by_cases hf : r.HasFormal messageId
  · rw [if_pos (hformal.mpr hf), if_pos hf]
    show (r.namedIds messageId).foldl (observe messageId) r = r.settle messageId
    rw [observe_foldl_eq, settle]
    have hnamed : ∀ entry ∈ r.itemEntries, (!(r.namedIds messageId).contains entry.1) =
        decide (entry.2.messageId ≠ some messageId) := by
      intro entry he
      rw [List.contains_eq_mem, ← decide_not]
      exact decide_eq_decide.mpr (not_congr (h.mem_namedIds he))
    congr 1
    · refine OrderedMap.ext (List.filter_congr fun entry he => ?_)
      exact hnamed entry (List.mem_append_left _ he)
    · refine List.filter_congr fun p hp => ?_
      exact hnamed (p.clientRequestId, p) (List.mem_append_right _ (List.mem_map_of_mem hp))
  · rw [if_neg fun hany => hf (hformal.mp hany), if_neg hf]

theorem items_settle (messageId : String) : (r.settle messageId).items =
    r.items.filter fun p => decide (p.messageId ≠ some messageId) := by
  rw [items, items, List.filter_append, OrderedMap.values, OrderedMap.values, List.filter_map]
  rfl

theorem itemEntries_settle (messageId : String) : (r.settle messageId).itemEntries =
    r.itemEntries.filter fun entry => decide (entry.2.messageId ≠ some messageId) := by
  rw [itemEntries, itemEntries, List.filter_append, List.filter_map]
  rfl

theorem Keyed.settle (h : Keyed r) (messageId : String) : Keyed (r.settle messageId) where
  pending k p hp := by
    have hget : (r.pending.filter fun _ p => decide (p.messageId ≠ some messageId)).get? k =
        some p := hp
    rw [OrderedMap.get?_filter, Option.filter_eq_some_iff] at hget
    exact h.pending k p hget.1
  events := h.events
  snapshot := h.snapshot
  nodup := by
    rw [← map_fst_itemEntries, itemEntries_settle]
    refine List.Nodup.sublist (List.filter_sublist.map _) ?_
    rw [map_fst_itemEntries]
    exact h.nodup

theorem Keyed.reconcileUserMessage (h : Keyed r) (messageId : String) :
    Keyed (r.reconcileUserMessage messageId) := by
  classical
  rw [reconcileUserMessage_eq h]
  split_ifs
  · exact h.settle messageId
  · exact h

/-- Reconciling removes an item for its own message id only. -/
theorem mem_items_reconcile (h : Keyed r) (messageId : String) {p : TimelinePending} :
    p ∈ (r.reconcileUserMessage messageId).items ↔
      p ∈ r.items ∧ ¬(r.HasFormal messageId ∧ p.messageId = some messageId) := by
  classical
  rw [reconcileUserMessage_eq h]
  by_cases hf : r.HasFormal messageId
  · rw [if_pos hf, items_settle, List.mem_filter, decide_eq_true_eq]
    simp [hf]
  · rw [if_neg hf]
    simp [hf]

end Reconcile

/-! ## Committing events -/

section Commit

variable {r : TimelineRuntime}

theorem HasFormal.get? (h : Keyed r) {messageId : String} :
    r.HasFormal messageId ↔ ∃ e, r.events.get? messageId = some e ∧ e.kind = .user := by
  constructor
  · rintro ⟨e, he, hkind, rfl⟩
    obtain ⟨k, hk⟩ := OrderedMap.mem_values.mp he
    rw [← h.events k e hk] at hk
    exact ⟨e, hk, hkind⟩
  · rintro ⟨e, he, hkind⟩
    exact ⟨e, OrderedMap.mem_values.mpr ⟨_, he⟩, hkind, h.events _ e he⟩

theorem Keyed.setEvent (h : Keyed r) (event : TimelineEvent) :
    Keyed { r with events := r.events.set event.eventId event } where
  pending := h.pending
  events k e he := by
    rw [OrderedMap.get?_set] at he
    split_ifs at he with hk
    · rw [← Option.some.inj he, hk]
    · exact h.events k e he
  snapshot := h.snapshot
  nodup := h.nodup

theorem Keyed.withPartials (h : Keyed r) (partials : OrderedMap String TimelinePartialView) :
    Keyed { r with partials := partials } :=
  ⟨h.pending, h.events, h.snapshot, h.nodup⟩

theorem Keyed.commitParsed (h : Keyed r) (event : TimelineEvent) : Keyed (r.commitParsed event) := by
  unfold TimelineRuntime.commitParsed
  dsimp only
  split_ifs
  · exact h
  · exact ((h.setEvent event).reconcileUserMessage event.eventId).withPartials _
  · exact (h.setEvent event).withPartials _

/-- Committing an event removes an item for a formal user event only. -/
theorem mem_items_commitParsed (h : Keyed r) (event : TimelineEvent) {p : TimelinePending}
    (hp : p ∈ r.items) : p ∈ (r.commitParsed event).items ∨
      ∃ messageId, p.messageId = some messageId ∧
        (r.commitParsed event).HasFormal messageId := by
  unfold TimelineRuntime.commitParsed
  dsimp only
  split_ifs with hconflict hkind
  · exact Or.inl hp
  · by_cases hid : p.messageId = some event.eventId
    · refine Or.inr ⟨event.eventId, hid, ?_⟩
      refine ⟨event, ?_, hkind, rfl⟩
      show event ∈ (reconcileUserMessage _ _).events.values
      rw [events_reconcileUserMessage]
      exact OrderedMap.mem_values.mpr ⟨_, OrderedMap.get?_set_self _ _ _⟩
    · exact Or.inl ((mem_items_reconcile (h.setEvent event) event.eventId).mpr
        ⟨hp, fun hboth => hid hboth.2⟩)
  · exact Or.inl hp

theorem hasFormal_commitParsed (h : Keyed r) (event : TimelineEvent) {messageId : String}
    (hf : r.HasFormal messageId) : (r.commitParsed event).HasFormal messageId := by
  obtain ⟨e, he, hkind⟩ := (HasFormal.get? h).mp hf
  refine (HasFormal.get? (h.commitParsed event)).mpr ⟨e, ?_, hkind⟩
  rw [get?_commitParsed, he]
  rfl

theorem Keyed.commitEvents (h : Keyed r) (events : List TimelineEvent) :
    Keyed (r.commitEvents events) := by
  induction events generalizing r with
  | nil => exact h
  | cons event events ih => exact ih (h.commitParsed event)

theorem hasFormal_commitEvents (h : Keyed r) (events : List TimelineEvent) {messageId : String}
    (hf : r.HasFormal messageId) : (r.commitEvents events).HasFormal messageId := by
  induction events generalizing r with
  | nil => exact hf
  | cons event events ih => exact ih (h.commitParsed event) (hasFormal_commitParsed h event hf)

theorem mem_items_commitEvents (h : Keyed r) (events : List TimelineEvent) {p : TimelinePending}
    (hp : p ∈ r.items) : p ∈ (r.commitEvents events).items ∨
      ∃ messageId, p.messageId = some messageId ∧
        (r.commitEvents events).HasFormal messageId := by
  induction events generalizing r with
  | nil => exact Or.inl hp
  | cons event events ih =>
    rcases mem_items_commitParsed h event hp with hkept | ⟨messageId, hid, hf⟩
    · exact ih (h.commitParsed event) hkept
    · exact Or.inr ⟨messageId, hid, hasFormal_commitEvents (h.commitParsed event) events hf⟩

end Commit

/-! ## Moving an item -/

/-- Moves a pending message to the list of the unknown ones. -/
def moveToUnknown (r : TimelineRuntime) (k : String) (p : TimelinePending) : TimelineRuntime :=
  { r with
    pending := r.pending.erase k
    unknown := r.unknown ++ [{ p with delivery := .unknownDelivery }] }

section Moves

variable {r : TimelineRuntime}

theorem nodup_itemIds_iff : r.itemIds.Nodup ↔
    (r.unknown.map TimelinePending.clientRequestId).Nodup ∧
      ∀ k p, r.pending.get? k = some p → k ∉ r.unknown.map TimelinePending.clientRequestId := by
  rw [itemIds, List.nodup_append]
  constructor
  · rintro ⟨-, hunknown, hdisjoint⟩
    refine ⟨hunknown, fun k p hp hk => ?_⟩
    exact hdisjoint k (OrderedMap.mem_keys.mpr ⟨p, hp⟩) k hk rfl
  · rintro ⟨hunknown, hdisjoint⟩
    refine ⟨r.pending.nodup, hunknown, fun k hk k' hk' heq => ?_⟩
    obtain ⟨p, hp⟩ := OrderedMap.mem_keys.mp hk
    rw [← heq] at hk'
    exact hdisjoint k p hp hk'

theorem keys_erase_perm {k : String} {p : TimelinePending} (hget : r.pending.get? k = some p) :
    (k :: (r.pending.erase k).keys).Perm r.pending.keys := by
  have hkeys : (r.pending.erase k).keys = r.pending.keys.erase k := by
    rw [OrderedMap.keys_erase, List.Nodup.erase_eq_filter (l := r.pending.keys) r.pending.nodup]
    refine List.filter_congr fun k' _ => ?_
    by_cases h : k' = k <;> simp [h]
  rw [hkeys]
  exact (List.perm_cons_erase (OrderedMap.mem_keys.mpr ⟨p, hget⟩)).symm

theorem itemIds_moveToUnknown (h : Keyed r) {k : String} {p : TimelinePending}
    (hget : r.pending.get? k = some p) : (r.moveToUnknown k p).itemIds.Perm r.itemIds := by
  have hk : p.clientRequestId = k := h.pending k p hget
  show ((r.pending.erase k).keys ++ (r.unknown ++ [_]).map _).Perm (r.pending.keys ++ r.unknown.map _)
  rw [List.map_append, List.map_singleton]
  show (_ ++ (_ ++ [p.clientRequestId])).Perm _
  rw [hk, ← List.append_assoc]
  refine (List.perm_append_singleton k _).trans ?_
  rw [← List.cons_append]
  exact (keys_erase_perm hget).append_right _

theorem Keyed.moveToUnknown (h : Keyed r) {k : String} {p : TimelinePending}
    (hget : r.pending.get? k = some p) : Keyed (r.moveToUnknown k p) where
  pending k' p' hp := by
    have hget' : (r.pending.erase k).get? k' = some p' := hp
    rw [OrderedMap.get?_erase] at hget'
    split_ifs at hget'
    exact h.pending k' p' hget'
  events := h.events
  snapshot := h.snapshot
  nodup := (itemIds_moveToUnknown h hget).nodup_iff.mpr h.nodup

/-- A change of a pending message that keeps its client request id. -/
theorem itemIds_setPending {k : String} {p p' : TimelinePending}
    (hget : r.pending.get? k = some p) :
    ({ r with pending := r.pending.set k p' } : TimelineRuntime).itemIds = r.itemIds := by
  show (r.pending.set k p').keys ++ _ = _
  rw [OrderedMap.keys_set_of_some hget, itemIds]

theorem Keyed.setPending (h : Keyed r) {k : String} {p p' : TimelinePending}
    (hget : r.pending.get? k = some p) (hid : p'.clientRequestId = p.clientRequestId) :
    Keyed { r with pending := r.pending.set k p' } where
  pending k' q hq := by
    rw [OrderedMap.get?_set] at hq
    split_ifs at hq with hk
    · rw [← Option.some.inj hq, hid, h.pending k p hget, hk]
    · exact h.pending k' q hq
  events := h.events
  snapshot := h.snapshot
  nodup := by
    rw [itemIds_setPending hget]
    exact h.nodup

theorem itemIds_clearTransient (h : Keyed r) : (r.clearTransient true).itemIds.Perm r.itemIds := by
  have hvalues : (r.pending.values.map fun p => { p with delivery := .unknownDelivery }).map
      TimelinePending.clientRequestId = r.pending.keys := by
    rw [OrderedMap.values, List.map_map, List.map_map]
    refine List.map_congr_left fun entry he => ?_
    show entry.2.clientRequestId = entry.1
    exact h.pending _ _ (OrderedMap.mem_entries_iff.mp he)
  show (([] : List String) ++ (r.unknown ++ _).map TimelinePending.clientRequestId).Perm _
  rw [List.nil_append, List.map_append, hvalues]
  exact List.perm_append_comm

theorem Keyed.clearTransient (h : Keyed r) : Keyed (r.clearTransient true) where
  pending k p hp := by cases hp
  events := h.events
  snapshot k i hi := by cases hi
  nodup := (itemIds_clearTransient h).nodup_iff.mpr h.nodup

/-- A new pending message. -/
theorem Keyed.addPending (h : Keyed r) {p : TimelinePending}
    (hnew : p.clientRequestId ∉ r.itemIds) :
    Keyed { r with pending := r.pending.set p.clientRequestId p } where
  pending k q hq := by
    rw [OrderedMap.get?_set] at hq
    split_ifs at hq with hk
    · rw [← Option.some.inj hq, hk]
    · exact h.pending k q hq
  events := h.events
  snapshot := h.snapshot
  nodup := by
    rw [itemIds, List.mem_append, not_or] at hnew
    refine nodup_itemIds_iff.mpr ⟨(nodup_itemIds_iff.mp h.nodup).1, fun k q hq => ?_⟩
    rw [OrderedMap.get?_set] at hq
    split_ifs at hq with hk
    · rw [hk]
      exact hnew.2
    · exact (nodup_itemIds_iff.mp h.nodup).2 k q hq

theorem mem_itemIds_addPending {p : TimelinePending} {k : String} (hk : k ∈ r.itemIds) :
    k ∈ ({ r with pending := r.pending.set p.clientRequestId p } : TimelineRuntime).itemIds := by
  rcases List.mem_append.mp hk with hp | hu
  · refine List.mem_append_left _ ?_
    exact OrderedMap.mem_keys_setEntry.mpr (Or.inr hp)
  · exact List.mem_append_right _ hu

/-- Takes the items of a client request id off the list of the unknown ones. -/
theorem Keyed.dropUnknown (h : Keyed r) (k : String) :
    Keyed { r with unknown := r.unknown.filter fun p => decide (p.clientRequestId ≠ k) } where
  pending := h.pending
  events := h.events
  snapshot := h.snapshot
  nodup := List.Nodup.sublist ((List.filter_sublist.map _).append_left _) h.nodup

theorem eraseP_unknown (h : Keyed r) (k : String) :
    (r.unknown.eraseP fun p => decide (p.clientRequestId = k)) =
      r.unknown.filter fun p => decide (p.clientRequestId ≠ k) := by
  have heq : ∀ l : List TimelinePending, (l.map TimelinePending.clientRequestId).Nodup →
      (l.eraseP fun p => decide (p.clientRequestId = k)) =
        l.filter fun p => decide (p.clientRequestId ≠ k) := by
    intro l
    induction l with
    | nil => intro _; rfl
    | cons p l ih =>
      intro hn
      rw [List.map_cons, List.nodup_cons] at hn
      by_cases hp : p.clientRequestId = k
      · rw [List.eraseP_cons_of_pos (by simp [hp]), List.filter_cons_of_neg (by simp [hp])]
        refine (List.filter_eq_self.mpr fun q hq => decide_eq_true ?_).symm
        intro hqk
        exact hn.1 (List.mem_map.mpr ⟨q, hq, hqk.trans hp.symm⟩)
      · rw [List.eraseP_cons_of_neg (by simp [hp]), List.filter_cons_of_pos (by simp [hp]),
          ih hn.2]
  exact heq r.unknown (nodup_itemIds_iff.mp h.nodup).1

/-- An item of the unknown ones that becomes pending again. -/
theorem Keyed.moveToPending (h : Keyed r) {p : TimelinePending}
    (hnone : r.pending.get? p.clientRequestId = none) :
    Keyed { r with
      unknown := r.unknown.filter fun q => decide (q.clientRequestId ≠ p.clientRequestId)
      pending := r.pending.set p.clientRequestId p } := by
  refine (h.dropUnknown p.clientRequestId).addPending fun hmem => ?_
  rcases List.mem_append.mp hmem with hp | hu
  · obtain ⟨q, hq⟩ := OrderedMap.mem_keys.mp hp
    rw [hnone] at hq
    cases hq
  · obtain ⟨q, hq, hid⟩ := List.mem_map.mp hu
    exact of_decide_eq_true (List.mem_filter.mp hq).2 hid

theorem mem_itemIds_moveToPending {p : TimelinePending} {k : String} (hk : k ∈ r.itemIds) :
    k ∈ ({ r with
      unknown := r.unknown.filter fun q => decide (q.clientRequestId ≠ p.clientRequestId)
      pending := r.pending.set p.clientRequestId p } : TimelineRuntime).itemIds := by
  by_cases heq : k = p.clientRequestId
  · refine List.mem_append_left _ (OrderedMap.mem_keys.mpr ⟨p, ?_⟩)
    rw [heq]
    exact OrderedMap.get?_set_self _ _ _
  · rcases List.mem_append.mp hk with hp | hu
    · exact List.mem_append_left _ (OrderedMap.mem_keys_setEntry.mpr (Or.inr hp))
    · obtain ⟨q, hq, rfl⟩ := List.mem_map.mp hu
      refine List.mem_append_right _ (List.mem_map_of_mem ?_)
      exact List.mem_filter.mpr ⟨hq, decide_eq_true heq⟩

/-- What `setScope` and `invalidateScope` make of the other fields. -/
theorem Keyed.withoutEvents (h : Keyed r) (scope : Option TimelineScope) :
    Keyed { r with scope := scope, events := .empty, historyEvents := [] } :=
  ⟨h.pending, (fun k e he => by cases he), h.snapshot, h.nodup⟩

end Moves

/-! ## Queue snapshots -/

/-- The ids that a queue snapshot lists once this frame is taken in: the frames of one
    snapshot are collected, and one with another snapshot id or of index 0 starts anew. -/
def listedIds (r : TimelineRuntime) (snapshotId : String) (chunkIndex : ℕ)
    (items : List QueuedMessageItem) : List String :=
  (if r.queuedSnapshotId ≠ some snapshotId ∨ chunkIndex = 0 then []
    else r.queuedSnapshotItems.keys) ++ items.map QueuedMessageItem.id

section Snapshots

variable {r : TimelineRuntime}

theorem acceptQueued_of_some {selfSenderRef : String} {item : QueuedMessageItem}
    {existing : TimelinePending} (hget : r.pending.get? item.id = some existing) :
    r.acceptQueued selfSenderRef item =
      { r with
        pending := r.pending.set item.id
          { existing with
            text := item.text
            images := item.images
            cancelable := some (decide (item.senderRef = some selfSenderRef))
            delivery := .accepted } } := by
  unfold acceptQueued
  simp only [hget]

theorem acceptQueued_of_none {selfSenderRef : String} {item : QueuedMessageItem}
    (hget : r.pending.get? item.id = none) :
    r.acceptQueued selfSenderRef item =
      { r with
        unknown := r.unknown.filter fun p => p.clientRequestId ≠ item.id
        pending := r.pending.set item.id
          ⟨item.id, item.id, item.text, item.images,
            some (decide (item.senderRef = some selfSenderRef)), item.createdAt, .accepted,
            none⟩ } := by
  unfold acceptQueued
  simp only [hget]

theorem Keyed.acceptQueued (h : Keyed r) (selfSenderRef : String) (item : QueuedMessageItem) :
    Keyed (r.acceptQueued selfSenderRef item) := by
  cases hget : r.pending.get? item.id with
  | some existing =>
    rw [acceptQueued_of_some hget]
    exact h.setPending hget rfl
  | none =>
    rw [acceptQueued_of_none hget]
    exact Keyed.moveToPending (p := ⟨item.id, item.id, item.text, item.images, _, _, _, _⟩) h hget

theorem mem_itemIds_acceptQueued {k : String} (selfSenderRef : String) (item : QueuedMessageItem)
    (hk : k ∈ r.itemIds) : k ∈ (r.acceptQueued selfSenderRef item).itemIds := by
  cases hget : r.pending.get? item.id with
  | some existing =>
    rw [acceptQueued_of_some hget, itemIds_setPending hget]
    exact hk
  | none =>
    rw [acceptQueued_of_none hget]
    exact mem_itemIds_moveToPending
      (p := ⟨item.id, item.id, item.text, item.images, _, _, _, _⟩) hk

theorem Keyed.acceptAll (h : Keyed r) (selfSenderRef : String) (items : List QueuedMessageItem) :
    Keyed (items.foldl (TimelineRuntime.acceptQueued selfSenderRef) r) := by
  induction items generalizing r with
  | nil => exact h
  | cons item items ih => exact ih (h.acceptQueued selfSenderRef item)

theorem mem_itemIds_acceptAll {k : String} (selfSenderRef : String)
    (items : List QueuedMessageItem) (hk : k ∈ r.itemIds) :
    k ∈ (items.foldl (TimelineRuntime.acceptQueued selfSenderRef) r).itemIds := by
  induction items generalizing r with
  | nil => exact hk
  | cons item items ih => exact ih (mem_itemIds_acceptQueued selfSenderRef item hk)

/-- Erasing pending messages. -/
theorem Keyed.erasePending (h : Keyed r) (gone : List String) :
    Keyed { r with pending := gone.foldl OrderedMap.erase r.pending } := by
  have hget : ∀ k p, (gone.foldl OrderedMap.erase r.pending).get? k = some p →
      r.pending.get? k = some p := by
    intro k p hp
    rw [OrderedMap.get?_foldl_erase] at hp
    split_ifs at hp
    exact hp
  refine ⟨fun k p hp => h.pending k p (hget k p hp), h.events, h.snapshot, ?_⟩
  obtain ⟨hunknown, hdisjoint⟩ := nodup_itemIds_iff.mp h.nodup
  exact nodup_itemIds_iff.mpr ⟨hunknown, fun k p hp => hdisjoint k p (hget k p hp)⟩

theorem mem_keys_foldl_set {items : List QueuedMessageItem}
    {m : OrderedMap String QueuedMessageItem} {k : String} :
    k ∈ (items.foldl (fun m item => m.set item.id item) m).keys ↔
      k ∈ m.keys ∨ k ∈ items.map QueuedMessageItem.id := by
  induction items generalizing m with
  | nil => simp
  | cons item items ih =>
    rw [List.foldl_cons, ih, List.map_cons, List.mem_cons]
    have hset : k ∈ (m.set item.id item).keys ↔ k = item.id ∨ k ∈ m.keys :=
      OrderedMap.mem_keys_setEntry
    rw [hset]
    tauto

theorem id_of_foldl_set {items : List QueuedMessageItem}
    {m : OrderedMap String QueuedMessageItem} (hm : ∀ k i, m.get? k = some i → i.id = k)
    (k : String) (i : QueuedMessageItem)
    (hget : (items.foldl (fun m item => m.set item.id item) m).get? k = some i) : i.id = k := by
  induction items generalizing m with
  | nil => exact hm k i hget
  | cons item items ih =>
    refine ih (fun k' i' hget' => ?_) hget
    rw [OrderedMap.get?_set] at hget'
    split_ifs at hget' with hk
    · rw [← Option.some.inj hget', hk]
    · exact hm k' i' hget'

/-- The state once the items of a queue frame are collected. -/
def collectQueued (r : TimelineRuntime) (snapshotId : String) (chunkIndex : ℕ)
    (items : List QueuedMessageItem) : TimelineRuntime :=
  let r :=
    if r.queuedSnapshotId ≠ some snapshotId ∨ chunkIndex = 0 then
      { r with queuedSnapshotId := some snapshotId, queuedSnapshotItems := .empty }
    else r
  { r with
    queuedSnapshotItems := items.foldl (fun m item => m.set item.id item) r.queuedSnapshotItems }

theorem receiveQueued_eq (scope : TimelineScope) (snapshotId : String) (chunkIndex : ℕ)
    (final : Bool) (items : List QueuedMessageItem) :
    r.receiveQueued scope snapshotId chunkIndex final items =
      if final then (r.collectQueued snapshotId chunkIndex items).finishSnapshot scope.selfSenderRef
      else r.collectQueued snapshotId chunkIndex items := rfl

section Collect

variable (snapshotId : String) (chunkIndex : ℕ) (items : List QueuedMessageItem)

theorem items_collectQueued : (r.collectQueued snapshotId chunkIndex items).items = r.items := by
  unfold collectQueued
  split_ifs <;> rfl

theorem itemIds_collectQueued :
    (r.collectQueued snapshotId chunkIndex items).itemIds = r.itemIds := by
  unfold collectQueued
  split_ifs <;> rfl

theorem queuedIds_collectQueued :
    (r.collectQueued snapshotId chunkIndex items).queuedIds = r.queuedIds := by
  unfold collectQueued
  split_ifs <;> rfl

theorem mem_keys_collectQueued {k : String} :
    k ∈ (r.collectQueued snapshotId chunkIndex items).queuedSnapshotItems.keys ↔
      k ∈ r.listedIds snapshotId chunkIndex items := by
  rw [listedIds, List.mem_append]
  unfold collectQueued
  split_ifs
  · exact mem_keys_foldl_set
  · exact mem_keys_foldl_set

theorem Keyed.collectQueued (h : Keyed r) : Keyed (r.collectQueued snapshotId chunkIndex items) := by
  unfold TimelineRuntime.collectQueued
  split_ifs
  · exact ⟨h.pending, h.events, id_of_foldl_set (fun k i hi => by cases hi), h.nodup⟩
  · exact ⟨h.pending, h.events, id_of_foldl_set h.snapshot, h.nodup⟩

end Collect

theorem Keyed.withQueue (h : Keyed r) (ids : List String) :
    Keyed { r with queuedIds := ids, queuedSnapshotItems := .empty, queuedSnapshotId := none } :=
  ⟨h.pending, h.events, (fun k i hi => by cases hi), h.nodup⟩

theorem Keyed.finishSnapshot (h : Keyed r) (selfSenderRef : String) :
    Keyed (r.finishSnapshot selfSenderRef) := by
  refine Keyed.withQueue ?_ _
  exact (h.erasePending _).acceptAll selfSenderRef r.queuedSnapshotItems.values

/-- The end of a snapshot removes an item that the last snapshot listed and this one does
    not. -/
theorem mem_itemIds_finishSnapshot (h : Keyed r) (selfSenderRef : String) {p : TimelinePending}
    (hp : p ∈ r.items) : p.clientRequestId ∈ (r.finishSnapshot selfSenderRef).itemIds ∨
      p.clientRequestId ∈ r.queuedIds ∧ p.clientRequestId ∉ r.queuedSnapshotItems.keys := by
  have hids : r.queuedSnapshotItems.values.map QueuedMessageItem.id =
      r.queuedSnapshotItems.keys := by
    rw [OrderedMap.values, OrderedMap.keys, List.map_map]
    exact List.map_congr_left fun e he => h.snapshot _ _ (OrderedMap.mem_entries_iff.mp he)
  rw [or_iff_not_imp_right]
  intro hlisted
  refine mem_itemIds_acceptAll selfSenderRef r.queuedSnapshotItems.values ?_
  rcases List.mem_append.mp (h.mem_itemIds hp) with hpending | hunknown
  · refine List.mem_append_left _ (OrderedMap.mem_keys.mpr ?_)
    obtain ⟨q, hq⟩ := OrderedMap.mem_keys.mp hpending
    refine ⟨q, ?_⟩
    rw [OrderedMap.get?_foldl_erase, if_neg, hq]
    intro hgone
    obtain ⟨hqueued, htest⟩ := List.mem_filter.mp hgone
    rw [Bool.and_eq_true, Bool.not_eq_true', List.contains_eq_mem, decide_eq_false_iff_not,
      List.mem_dedup, hids] at htest
    exact hlisted ⟨hqueued, htest.1⟩
  · exact List.mem_append_right _ hunknown

end Snapshots

/-! ## Runs -/

/-- The state after an operation and the frames it hands out for the host. A message is
    sent under a client request id that no item has. -/
def operate (r : TimelineRuntime) (op : TimelineOperation) :
    Option (TimelineRuntime × List ObservedFrame) :=
  let done (result : TimelineRuntime × TimelineRuntimeChange) := some (result.1, result.2.observed)
  match op with
  | .setScope scope => done (r.setScope scope)
  | .invalidateScope => done r.invalidateScope
  | .clear => done r.clear
  | .markDisconnected => done r.markDisconnected
  | .sendUser text images clientRequestId requestId now =>
    if clientRequestId ∈ r.itemIds then none
    else
      match r.sendUser text images clientRequestId requestId now with
      | none => some (r, [])
      | some (s, _, change) => done (s, change)
  | .markUnknownDelivery clientRequestId => done (r.markUnknownDelivery clientRequestId)
  | .retryUnknown clientRequestId requestId =>
    match r.retryUnknown clientRequestId requestId with
    | none => some (r, [])
    | some (s, _, change) => done (s, change)
  | .receive frame now => done (r.receive frame now)
  | .commit event => done (r.commit event)
  | .replaceHistory events => done (r.replaceHistory events)
  | .prependHistory events => done (r.prependHistory events)

/-- Why an operation takes an item off the list. -/
inductive Removed (r : TimelineRuntime) (op : TimelineOperation) (r' : TimelineRuntime)
    (p : TimelinePending) : Prop where
  /-- A formal user event with its message id is there, which it had or has just got. -/
  | formal (messageId : String) (named : p.messageId = some messageId ∨
      op.messageIdOf p = some messageId) (present : r'.HasFormal messageId)
  /-- The last queue snapshot listed it and the one that is now complete does not. -/
  | unlisted (sessionId historyGeneration snapshotId : String) (chunkIndex : ℕ)
      (items : List QueuedMessageItem) (now : ℚ)
      (final : op = .receive
        (.queuedMessageState sessionId historyGeneration snapshotId chunkIndex true items) now)
      (before : p.clientRequestId ∈ r.queuedIds)
      (after : p.clientRequestId ∉ r.listedIds snapshotId chunkIndex items)
  | cleared (clear : op = .clear)

/-- What holds after an operation on a state without double listings. -/
structure Keeps (r : TimelineRuntime) (op : TimelineOperation) (r' : TimelineRuntime) : Prop where
  keyed : Keyed r'
  kept : ∀ p ∈ r.items, p.clientRequestId ∈ r'.itemIds ∨ Removed r op r' p

section Steps

variable {r s : TimelineRuntime} {op : TimelineOperation}

theorem keeps_of_subset (h : Keyed r) (hs : Keyed s) (hids : ∀ k ∈ r.itemIds, k ∈ s.itemIds) :
    Keeps r op s :=
  ⟨hs, fun p hp => Or.inl (hids p.clientRequestId (h.mem_itemIds hp))⟩

theorem keeps_of_perm (h : Keyed r) (hs : Keyed s) (hids : s.itemIds.Perm r.itemIds) :
    Keeps r op s :=
  keeps_of_subset h hs fun _ hk => hids.mem_iff.mpr hk

theorem keeps_refl (h : Keyed r) : Keeps r op r := keeps_of_perm h h (List.Perm.refl _)

theorem Keeps.change (h : Keeps r op s) : Keeps r op s.change.1 := by
  refine ⟨⟨h.keyed.pending, h.keyed.events, h.keyed.snapshot, h.keyed.nodup⟩, fun p hp => ?_⟩
  rcases h.kept p hp with hkept | hremoved
  · exact Or.inl hkept
  · refine Or.inr ?_
    cases hremoved with
    | formal messageId named present => exact .formal messageId named present
    | unlisted _ _ _ _ _ _ final before after => exact .unlisted _ _ _ _ _ _ final before after
    | cleared clear => exact .cleared clear

/-- Reconciling after items have moved or got the message id. -/
theorem keeps_reconcile (h : Keyed r) (hs : Keyed s) (hids : ∀ k ∈ r.itemIds, k ∈ s.itemIds)
    {messageId : String}
    (hname : ∀ p ∈ r.items, ∀ q ∈ s.items, q.clientRequestId = p.clientRequestId →
      q.messageId = some messageId →
      p.messageId = some messageId ∨ op.messageIdOf p = some messageId) :
    Keeps r op (s.reconcileUserMessage messageId) := by
  have hrec := hs.reconcileUserMessage messageId
  refine ⟨hrec, fun p hp => ?_⟩
  obtain ⟨q, hq, hqid⟩ := hs.exists_item (hids p.clientRequestId (h.mem_itemIds hp))
  by_cases hgone : s.HasFormal messageId ∧ q.messageId = some messageId
  · refine Or.inr (.formal messageId (hname p hp q hq hqid hgone.2) ?_)
    show ∃ e ∈ (s.reconcileUserMessage messageId).events.values, _
    rw [events_reconcileUserMessage]
    exact hgone.1
  · refine Or.inl ?_
    rw [← hqid]
    exact hrec.mem_itemIds ((mem_items_reconcile hs messageId).mpr ⟨hq, hgone⟩)

theorem mem_items_setPending {k : String} {p' q : TimelinePending}
    (hq : q ∈ ({ r with pending := r.pending.set k p' } : TimelineRuntime).items) :
    q = p' ∨ q ∈ r.items := by
  rcases List.mem_append.mp hq with hp | hu
  · obtain ⟨k', hk'⟩ := OrderedMap.mem_values.mp hp
    rw [OrderedMap.get?_set] at hk'
    split_ifs at hk'
    · exact Or.inl (Option.some.inj hk').symm
    · exact Or.inr (mem_items_of_pending hk')
  · exact Or.inr (List.mem_append_right _ hu)

theorem mem_items_moveToUnknown {k : String} {p q : TimelinePending}
    (hq : q ∈ (r.moveToUnknown k p).items) :
    q = { p with delivery := .unknownDelivery } ∨ q ∈ r.items := by
  rcases List.mem_append.mp hq with hp | hu
  · obtain ⟨k', hk'⟩ := OrderedMap.mem_values.mp hp
    have hget : (r.pending.erase k).get? k' = some q := hk'
    rw [OrderedMap.get?_erase] at hget
    split_ifs at hget
    exact Or.inr (mem_items_of_pending hget)
  · rcases List.mem_append.mp hu with hold | hnew
    · exact Or.inr (List.mem_append_right _ hold)
    · exact Or.inl (List.mem_singleton.mp hnew)

/-- A pending message that gets a message id, and the reconciling after it. -/
theorem keeps_named (h : Keyed r) {k : String} {p : TimelinePending}
    (hget : r.pending.get? k = some p) (delivery : PendingDelivery) {messageId : String}
    (hname : op.messageIdOf p = some messageId) :
    Keeps r op
      (reconcileUserMessage
        { r with
          pending := r.pending.set k { p with delivery := delivery, messageId := some messageId } }
        messageId) := by
  have hset : Keyed { r with
      pending := r.pending.set k { p with delivery := delivery, messageId := some messageId } } :=
    h.setPending hget rfl
  refine keeps_reconcile h hset (fun k' hk' => ?_) fun q hq q' hq' heq hm => ?_
  · rw [itemIds_setPending hget]
    exact hk'
  · rcases mem_items_setPending hq' with rfl | hold
    · rw [h.item_unique hq (mem_items_of_pending hget) heq.symm]
      exact Or.inr hname
    · rw [h.item_unique hq hold heq.symm]
      exact Or.inl hm

theorem keeps_moveToUnknown (h : Keyed r) {k : String} {p : TimelinePending}
    (hget : r.pending.get? k = some p) : Keeps r op (r.moveToUnknown k p) :=
  keeps_of_perm h (h.moveToUnknown hget) (itemIds_moveToUnknown h hget)

theorem keeps_setPending (h : Keyed r) {k : String} {p p' : TimelinePending}
    (hget : r.pending.get? k = some p) (hid : p'.clientRequestId = p.clientRequestId) :
    Keeps r op { r with pending := r.pending.set k p' } :=
  keeps_of_perm h (h.setPending hget hid) (itemIds_setPending hget ▸ List.Perm.refl _)

/-- A message whose message id is known becomes unknown, and the reconciling after it. -/
theorem keeps_moveToUnknown_reconcile (h : Keyed r) {k messageId : String} {p : TimelinePending}
    (hget : r.pending.get? k = some p) (hid : p.messageId = some messageId) :
    Keeps r op ((r.moveToUnknown k p).reconcileUserMessage messageId) := by
  have hperm := itemIds_moveToUnknown h hget
  refine keeps_reconcile h (h.moveToUnknown hget) (fun k' hk' => hperm.mem_iff.mpr hk')
    fun q hq q' hq' heq hm => Or.inl ?_
  rcases mem_items_moveToUnknown hq' with rfl | hold
  · rw [h.item_unique hq (mem_items_of_pending hget) heq.symm]
    exact hid
  · rw [h.item_unique hq hold heq.symm]
    exact hm

theorem keeps_commitEvents (h : Keyed r) (events : List TimelineEvent) :
    Keeps r op (r.commitEvents events) := by
  have hkeyed := h.commitEvents events
  refine ⟨hkeyed, fun p hp => ?_⟩
  rcases mem_items_commitEvents h events hp with hkept | ⟨messageId, hid, hf⟩
  · exact Or.inl (hkeyed.mem_itemIds hkept)
  · exact Or.inr (.formal messageId (Or.inl hid) hf)

theorem keeps_commit (h : Keyed r) (event : TimelineEvent) : Keeps r op (r.commit event).1 := by
  unfold TimelineRuntime.commit
  split_ifs
  · exact (keeps_commitEvents h [event]).change
  · exact (keeps_refl h).change

theorem receiveStatus_of_none {clientRequestId : String}
    (hget : r.pending.get? clientRequestId = none) (status : UserMessageStatus) :
    r.receiveStatus clientRequestId status = r := by
  unfold receiveStatus
  rw [hget]

/-- A status that carries a message id. -/
theorem receiveStatus_named {clientRequestId messageId : String} {p : TimelinePending}
    (hget : r.pending.get? clientRequestId = some p) {status : UserMessageStatus}
    (hm : status.messageId? = some messageId) :
    ∃ delivery, r.receiveStatus clientRequestId status =
      reconcileUserMessage
        { r with
          pending := r.pending.set clientRequestId
            { p with delivery := delivery, messageId := some messageId } } messageId := by
  unfold receiveStatus
  rw [hget]
  cases status with
  | received => cases hm
  | accepted given =>
    obtain rfl : given = some messageId := hm
    exact ⟨.accepted, rfl⟩
  | committed given =>
    obtain rfl : given = messageId := Option.some.inj hm
    exact ⟨.committed, rfl⟩
  | unknownDelivery => cases hm

theorem receiveStatus_unknownDelivery {clientRequestId : String} {p : TimelinePending}
    (hget : r.pending.get? clientRequestId = some p) :
    r.receiveStatus clientRequestId .unknownDelivery =
      p.messageId.elim (r.moveToUnknown clientRequestId p)
        (r.moveToUnknown clientRequestId p).reconcileUserMessage := by
  unfold receiveStatus
  rw [hget]
  obtain ⟨_, _, _, _, _, _, _, messageId⟩ := p
  cases messageId <;> rfl

theorem keeps_receiveStatus (h : Keyed r) {sessionId historyGeneration clientRequestId : String}
    {status : UserMessageStatus} {now : ℚ} :
    Keeps r (.receive (.userMessageStatus sessionId historyGeneration clientRequestId status) now)
      (r.receiveStatus clientRequestId status) := by
  cases hget : r.pending.get? clientRequestId with
  | none =>
    rw [receiveStatus_of_none hget]
    exact keeps_refl h
  | some p =>
    cases hm : status.messageId? with
    | some messageId =>
      obtain ⟨delivery, heq⟩ := receiveStatus_named hget hm
      have hname : (if clientRequestId = p.clientRequestId then status.messageId? else none) =
          some messageId := by rw [if_pos (h.pending _ p hget).symm, hm]
      rw [heq]
      exact keeps_named h hget delivery hname
    | none =>
      cases status with
      | received =>
        unfold receiveStatus
        rw [hget]
        exact keeps_setPending h hget rfl
      | accepted given =>
        obtain rfl : given = none := hm
        unfold receiveStatus
        rw [hget]
        exact keeps_setPending h hget rfl
      | committed given => cases hm
      | unknownDelivery =>
        rw [receiveStatus_unknownDelivery hget]
        cases hmessage : p.messageId with
        | none => exact keeps_moveToUnknown h hget
        | some messageId => exact keeps_moveToUnknown_reconcile h hget hmessage

theorem keeps_receiveQueued (h : Keyed r) (scope : TimelineScope)
    {sessionId historyGeneration snapshotId : String} {chunkIndex : ℕ} {final : Bool}
    {items : List QueuedMessageItem} {now : ℚ} :
    Keeps r (.receive (.queuedMessageState sessionId historyGeneration snapshotId chunkIndex final
      items) now) (r.receiveQueued scope snapshotId chunkIndex final items) := by
  have hcollect := h.collectQueued snapshotId chunkIndex items
  rw [receiveQueued_eq]
  cases final with
  | false =>
    have hids := @itemIds_collectQueued r snapshotId chunkIndex items
    exact keeps_of_perm h hcollect (hids ▸ List.Perm.refl _)
  | true =>
    refine ⟨hcollect.finishSnapshot _, fun p hp => ?_⟩
    have hp' : p ∈ (r.collectQueued snapshotId chunkIndex items).items := by
      rw [items_collectQueued]
      exact hp
    rcases mem_itemIds_finishSnapshot hcollect scope.selfSenderRef hp' with hkept | ⟨hin, hout⟩
    · exact Or.inl hkept
    · rw [queuedIds_collectQueued] at hin
      rw [mem_keys_collectQueued] at hout
      exact Or.inr (.unlisted sessionId historyGeneration snapshotId chunkIndex items now rfl hin
        hout)

theorem findRequest_eq_some (h : Keyed r) {requestId : String} {p : TimelinePending}
    (hfind : r.findRequest requestId = some p) :
    p.requestId = requestId ∧ r.pending.get? p.clientRequestId = some p := by
  refine ⟨by simpa using List.find?_some hfind, ?_⟩
  obtain ⟨k, hk⟩ := OrderedMap.mem_values.mp (List.mem_of_find?_eq_some hfind)
  rw [h.pending k p hk]
  exact hk

theorem keeps_receive (h : Keyed r) (frame : TimelineFrame) (now : ℚ) :
    Keeps r (.receive frame now) (r.receive frame now).1 := by
  have hchange : ∀ op, Keeps r op r.change.1 := fun op => (keeps_refl h).change
  cases frame with
  | reset sessionId historyGeneration =>
    exact (keeps_of_perm h (h.clearTransient.withoutEvents none)
      (itemIds_clearTransient h)).change
  | queuedMessageState sessionId historyGeneration snapshotId chunkIndex final items =>
    unfold TimelineRuntime.receive
    dsimp only
    split
    · exact hchange _
    · split_ifs
      · exact (keeps_receiveQueued h _).change
      · exact hchange _
  | protocolError inReplyTo =>
    unfold TimelineRuntime.receive
    dsimp only
    split
    · exact hchange _
    · rename_i p hfind
      obtain ⟨requestId, -, hfind⟩ := Option.bind_eq_some_iff.mp hfind
      exact (keeps_moveToUnknown h (findRequest_eq_some h hfind).2).change
  | userMessageStatus sessionId historyGeneration clientRequestId status =>
    unfold TimelineRuntime.receive
    dsimp only
    split_ifs
    · exact (keeps_receiveStatus h).change
    · exact hchange _
  | userMessageStarted sessionId historyGeneration inReplyTo messageId =>
    unfold TimelineRuntime.receive
    dsimp only
    split_ifs
    · split
      · exact hchange _
      · rename_i p hfind
        obtain ⟨hrequest, hget⟩ := findRequest_eq_some h hfind
        refine (keeps_named h hget .accepted ?_).change
        exact if_pos hrequest.symm
    · exact hchange _
  | timelinePartial next =>
    unfold TimelineRuntime.receive
    dsimp only
    split_ifs
    · refine Keeps.change ?_
      unfold receivePartial
      split_ifs
      · exact keeps_refl h
      · exact keeps_of_perm h (h.withPartials _) (List.Perm.refl _)
    · exact hchange _
  | timelineEvent sessionId historyGeneration event =>
    unfold TimelineRuntime.receive
    dsimp only
    split_ifs
    · exact (keeps_commit h event).change
    · exact hchange _
  | other => exact hchange _

theorem keeps_setScope (h : Keyed r) (scope : TimelineScope) :
    Keeps r op (r.setScope scope).1 := by
  refine Keeps.change ?_
  by_cases hchanged : r.scopeChanged scope = true
  · simp only [if_pos hchanged]
    exact keeps_of_perm h (h.clearTransient.withoutEvents (some scope)) (itemIds_clearTransient h)
  · simp only [if_neg hchanged]
    exact keeps_of_perm h ⟨h.pending, h.events, h.snapshot, h.nodup⟩ (List.Perm.refl _)

theorem keeps_clear (h : Keyed r) : Keeps r .clear r.clear.1 :=
  ⟨⟨fun k p hp => (by cases hp), fun k e he => (by cases he), h.snapshot, List.nodup_nil⟩,
    fun _ _ => Or.inr (.cleared rfl)⟩

theorem keeps_markUnknownDelivery (h : Keyed r) (clientRequestId : String) :
    Keeps r op (r.markUnknownDelivery clientRequestId).1 := by
  unfold TimelineRuntime.markUnknownDelivery
  split
  · exact (keeps_refl h).change
  · exact (keeps_moveToUnknown h ‹_›).change

/-- What `sendUser` does when it sends. -/
theorem sendUser_eq_some {text : String} {images : Option (List WireImage)}
    {clientRequestId requestId : String} {now : ℚ} {frame : UserMessageFrame}
    {change : TimelineRuntimeChange}
    (hsend : r.sendUser text images clientRequestId requestId now = some (s, frame, change)) :
    ∃ scope p, r.scope = some scope ∧ p.clientRequestId = clientRequestId ∧
      p.requestId = requestId ∧ p.messageId = none ∧
      s = (TimelineRuntime.change { r with pending := r.pending.set clientRequestId p }).1 ∧
      change.observed = r.observedQueue := by
  unfold TimelineRuntime.sendUser at hsend
  dsimp only at hsend
  split at hsend
  · cases hsend
  · rename_i scope hscope
    split_ifs at hsend
    cases hsend
    exact ⟨scope, _, hscope, rfl, rfl, rfl, rfl, rfl⟩

theorem keeps_sendUser (h : Keyed r) {text : String} {images : Option (List WireImage)}
    {clientRequestId requestId : String} {now : ℚ} {frame : UserMessageFrame}
    {change : TimelineRuntimeChange} (hfresh : clientRequestId ∉ r.itemIds)
    (hsend : r.sendUser text images clientRequestId requestId now = some (s, frame, change)) :
    Keeps r op s := by
  obtain ⟨scope, p, -, rfl, -, -, rfl, -⟩ := sendUser_eq_some hsend
  exact (keeps_of_subset h (h.addPending hfresh) fun k hk => mem_itemIds_addPending hk).change

/-- What `retryUnknown` does when it sends. -/
theorem retryUnknown_eq_some {clientRequestId requestId : String} {frame : UserMessageFrame}
    {change : TimelineRuntimeChange}
    (hretry : r.retryUnknown clientRequestId requestId = some (s, frame, change)) :
    ∃ p, p ∈ r.unknown ∧ p.clientRequestId = clientRequestId ∧
      s = (TimelineRuntime.change { r with
        unknown := r.unknown.eraseP fun p => decide (p.clientRequestId = clientRequestId)
        pending := r.pending.set clientRequestId
          { p with requestId := requestId, delivery := .pending } }).1 := by
  unfold TimelineRuntime.retryUnknown at hretry
  split at hretry
  · rename_i scope p hscope hfind
    cases hretry
    exact ⟨p, List.mem_of_find?_eq_some hfind, by simpa using List.find?_some hfind, rfl⟩
  · cases hretry

theorem keeps_retryUnknown (h : Keyed r) {clientRequestId requestId : String}
    {frame : UserMessageFrame} {change : TimelineRuntimeChange}
    (hretry : r.retryUnknown clientRequestId requestId = some (s, frame, change)) :
    Keeps r op s := by
  obtain ⟨p, hp, rfl, rfl⟩ := retryUnknown_eq_some hretry
  rw [eraseP_unknown h]
  have hnone : r.pending.get? p.clientRequestId = none := by
    cases hget : r.pending.get? p.clientRequestId with
    | none => rfl
    | some q =>
      exact ((nodup_itemIds_iff.mp h.nodup).2 _ q hget (List.mem_map_of_mem hp)).elim
  exact (keeps_of_subset h (Keyed.moveToPending (p := { p with requestId := requestId
                                                               delivery := .pending }) h hnone)
    fun k hk => mem_itemIds_moveToPending hk).change

/-- What an operation keeps: no item is listed twice afterwards, and an item that is gone
    has been removed for one of three reasons. -/
theorem keeps_operate (h : Keyed r) {observed : List ObservedFrame}
    (hop : r.operate op = some (s, observed)) : Keeps r op s := by
  unfold operate at hop
  cases op with
  | setScope scope => cases hop; exact keeps_setScope h scope
  | invalidateScope =>
    cases hop
    exact (keeps_of_perm h (h.clearTransient.withoutEvents none) (itemIds_clearTransient h)).change
  | clear => cases hop; exact keeps_clear h
  | markDisconnected =>
    cases hop
    exact (keeps_of_perm h h.clearTransient (itemIds_clearTransient h)).change
  | sendUser text images clientRequestId requestId now =>
    dsimp only at hop
    split_ifs at hop with hfresh
    split at hop
    · cases hop; exact keeps_refl h
    · rename_i sent hsend
      cases hop
      exact keeps_sendUser h hfresh hsend
  | markUnknownDelivery clientRequestId => cases hop; exact keeps_markUnknownDelivery h _
  | retryUnknown clientRequestId requestId =>
    dsimp only at hop
    split at hop
    · cases hop; exact keeps_refl h
    · rename_i sent hretry
      cases hop
      exact keeps_retryUnknown h hretry
  | receive frame now => cases hop; exact keeps_receive h frame now
  | commit event => cases hop; exact keeps_commit h event
  | replaceHistory events =>
    cases hop
    refine Keeps.change ?_
    have hempty : Keyed { r with historyEvents := events.filter (admits r.scope), events := .empty } :=
      ⟨h.pending, (fun k e he => by cases he), h.snapshot, h.nodup⟩
    have hkeeps : Keeps _ (.replaceHistory events) _ :=
      keeps_commitEvents hempty (events.filter (admits r.scope))
    refine ⟨hkeeps.keyed, fun p hp => ?_⟩
    rcases hkeeps.kept p hp with hkept | hremoved
    · exact Or.inl hkept
    · refine Or.inr ?_
      cases hremoved with
      | formal messageId named present => exact .formal messageId named present
      | unlisted _ _ _ _ _ _ final => cases final
      | cleared clear => cases clear
  | prependHistory events => cases hop; exact (keeps_commitEvents h _).change

end Steps

/-- The state after an operation. -/
def advance (r : TimelineRuntime) (op : TimelineOperation) : Option TimelineRuntime :=
  (r.operate op).map Prod.fst

/-- One of the operations takes the item of a client request id off the list, and why. -/
def RemovedIn (s : TimelineRuntime) (ops : List TimelineOperation) (k : String) : Prop :=
  ∃ before op after t t', ops = before ++ op :: after ∧ run advance s before = some t ∧
    t.advance op = some t' ∧ ∃ p ∈ t.items, p.clientRequestId = k ∧ Removed t op t' p

section Runs

variable {r s : TimelineRuntime}

theorem keeps_advance (h : Keyed r) {op : TimelineOperation} (hop : r.advance op = some s) :
    Keeps r op s := by
  obtain ⟨⟨t, observed⟩, hoperate, rfl⟩ := Option.map_eq_some_iff.mp hop
  exact keeps_operate h hoperate

theorem keyed_run (h : Keyed r) {ops : List TimelineOperation} (hrun : run advance r ops = some s) :
    Keyed s := by
  have hstep : ∀ t op t', Keyed t → advance t op = some t' → Keyed t' :=
    fun _ _ _ ht hop => (keeps_advance ht hop).keyed
  exact invariant_run hstep h hrun

theorem kept_or_removed (h : Keyed r) {k : String} (hk : k ∈ r.itemIds)
    {ops : List TimelineOperation} (hrun : run advance r ops = some s) :
    k ∈ s.itemIds ∨ RemovedIn r ops k := by
  induction ops generalizing r with
  | nil =>
    cases hrun
    exact Or.inl hk
  | cons op ops ih =>
    obtain ⟨t, ht, hrest⟩ := run_cons_eq_some.mp hrun
    have hkeeps := keeps_advance h ht
    obtain ⟨p, hp, rfl⟩ := h.exists_item hk
    rcases hkeeps.kept p hp with hkept | hremoved
    · rcases ih hkeeps.keyed hkept hrest with hin | ⟨before, op', after, u, u', rfl, hu, hop', hq⟩
      · exact Or.inl hin
      · refine Or.inr ⟨op :: before, op', after, u, u', rfl, ?_, hop', hq⟩
        exact run_cons_eq_some.mpr ⟨t, ht, hu⟩
    · exact Or.inr ⟨[], op, ops, r, t, rfl, rfl, ht, p, hp, rfl, hremoved⟩

/-- Over every run no client request id is listed twice, and the item that a `sendUser`
    makes is still listed at the end, or an operation after it has removed it: for a formal
    user event with its message id, for a complete queue snapshot that no longer lists it, or
    by `clear`. -/
theorem sent_messages_conserved {ops : List TimelineOperation}
    (hrun : run advance .new ops = some r) :
    (r.items.map TimelinePending.clientRequestId).Nodup ∧
      ∀ before after text images clientRequestId requestId now sent,
        ops = before ++ .sendUser text images clientRequestId requestId now :: after →
        run advance .new before = some s →
        s.sendUser text images clientRequestId requestId now = some sent →
        clientRequestId ∈ r.items.map TimelinePending.clientRequestId ∨
          RemovedIn sent.1 after clientRequestId := by
  have hkeyed := keyed_run keyed_new hrun
  rw [hkeyed.map_items]
  refine ⟨hkeyed.nodup, ?_⟩
  rintro before after text images clientRequestId requestId now ⟨t, frame, change⟩ rfl hs hsend
  rw [run_append, hs, Option.bind_some, run_cons_eq_some] at hrun
  obtain ⟨t', ht', hrest⟩ := hrun
  have heq : t' = t := by
    obtain ⟨⟨u, observed⟩, hoperate, rfl⟩ := Option.map_eq_some_iff.mp ht'
    simp only [operate, hsend] at hoperate
    split_ifs at hoperate
    cases hoperate
    rfl
  subst heq
  refine kept_or_removed (keeps_advance (keyed_run keyed_new hs) ht').keyed ?_ hrest
  obtain ⟨scope, p, -, rfl, -, -, rfl, -⟩ := sendUser_eq_some hsend
  refine List.mem_append_left _ (OrderedMap.mem_keys.mpr ⟨p, ?_⟩)
  exact OrderedMap.get?_set_self _ _ _

/-- The scope of one browser on one session. -/
def browserScope : TimelineScope :=
  ⟨"device", "endpoint", "runtime", "session", "generation", "self", "channel"⟩

/-- A text that is sent, given up at a disconnect and sent again. -/
def resentText : List TimelineOperation :=
  [.setScope browserScope, .sendUser "Hi" none "request" "frame" 0, .markDisconnected,
    .retryUnknown "request" "again"]

theorem resentText_conserved : ∃ r sent,
    run advance .new resentText = some r ∧
      (r.items.map TimelinePending.clientRequestId).Nodup ∧
      ("request" ∈ r.items.map TimelinePending.clientRequestId ∨
        RemovedIn sent [.markDisconnected, .retryUnknown "request" "again"] "request") := by
  obtain ⟨r, hr⟩ := Option.isSome_iff_exists.mp
    (show (run advance .new resentText).isSome = true by decide)
  obtain ⟨s, hs⟩ := Option.isSome_iff_exists.mp
    (show (run advance .new [.setScope browserScope]).isSome = true by decide)
  have hsome : ((run advance .new [.setScope browserScope]).bind fun s =>
      s.sendUser "Hi" none "request" "frame" 0).isSome = true := by decide
  rw [hs, Option.bind_some] at hsome
  obtain ⟨sent, hsent⟩ := Option.isSome_iff_exists.mp hsome
  obtain ⟨hnodup, hkept⟩ := sent_messages_conserved (s := s) hr
  exact ⟨r, sent.1, hr, hnodup,
    hkept [.setScope browserScope] _ "Hi" none "request" "frame" 0 sent rfl hs hsent⟩

end Runs

end TimelineRuntime

end RemotePi.Pwa
