import RemotePi.Pwa.TimelineTransfer

/-!
# Fragmented realtime events

The fragments that `publishFrames` makes of events, delivered to one
`TimelineEventFragmentAssembler` in any order, interleaved and with repetitions.

Results:
* `Assembling.accept`: one fragment of an event that is not complete.
* `round_trip_of_reads`: each event is given out exactly once, and nothing is
  discarded.
* `delivery_interleaved`: frames by turns, one of which comes again.
* `accept_discarded`: a fragment of another event of the same id.
-/

namespace RemotePi.Pwa

open RemotePi.Lib RemotePi.Protocol RemotePi.Timeline

/-- The results of the frames, one after another. -/
def EventAssembler.acceptAll (parse : List Byte → Option TimelineEvent) :
    EventAssembler → List TimelineEventFragmentFrame → List TransferResult
  | _, [] => []
  | s, frame :: frames =>
    let (s, result) := s.accept parse frame
    result :: acceptAll parse s frames

/-- The frame of a fragment. -/
def frameOf (scope : TransferScope) (f : HistoryFragment) : TimelineEventFragmentFrame :=
  ⟨scope.sessionId, scope.historyGeneration, f⟩

/-- A delivery of the frames of events: every frame arrives, no other one does, and a
    frame that arrives again finds its event incomplete. -/
structure Delivery (scope : TransferScope) (events : List Protocol.TimelineEvent)
    (delivered : List TimelineEventFragmentFrame) : Prop where
  arrives : ∀ e ∈ events, ∀ b ∈ publishFrames scope.sessionId scope.historyGeneration e,
    ∃ frame ∈ delivered, b = .timelineEventFragment frame
  published : ∀ frame ∈ delivered, ∃ e ∈ events,
    .timelineEventFragment frame ∈ publishFrames scope.sessionId scope.historyGeneration e
  repeats : ∀ before frame after, delivered = before ++ frame :: after → frame ∈ before →
    ∃ e ∈ events,
      .timelineEventFragment frame ∈ publishFrames scope.sessionId scope.historyGeneration e ∧
      ∃ frame' ∉ before,
        .timelineEventFragment frame' ∈ publishFrames scope.sessionId scope.historyGeneration e

/-! ## Bytes in flight -/

/-- The decoded bytes that an event holds in flight. -/
def inFlight (got : Finset ℕ) (event : Protocol.TimelineEvent) : ℕ :=
  if got = allIndices event then 0 else gatheredBytes event got

theorem inFlight_le {got : Finset ℕ} {event : Protocol.TimelineEvent}
    (h : got ⊆ allIndices event) : inFlight got event ≤ event.bytes := by
  unfold inFlight
  split_ifs
  · exact Nat.zero_le _
  · exact gatheredBytes_le h

theorem bytesInFlight_of_progress {states : FragmentStates} {event : Protocol.TimelineEvent}
    {got : Finset ℕ} (h : Progress (states.get? event.eventId) event got)
    (hgot : got ≠ allIndices event) :
    bytesInFlight states event.eventId = gatheredBytes event got := by
  unfold bytesInFlight
  unfold Progress at h
  split_ifs at h with hcases
  · rw [h, hcases.resolve_right hgot]
    rfl
  · obtain ⟨st, hst, hholds⟩ := h
    rw [hst, ← hholds.decodedBytes]
    rfl

/-- Two functions that differ at one element of a list without duplicates. -/
theorem sum_map_change {α : Type*} {l : List α} (hn : l.Nodup) {a : α} (ha : a ∈ l)
    (g g' : α → ℕ) (h : ∀ b ∈ l, b ≠ a → g' b = g b) :
    (l.map g').sum + g a = (l.map g).sum + g' a := by
  induction l with
  | nil => cases ha
  | cons b l ih =>
    obtain ⟨hb, hn⟩ := List.nodup_cons.mp hn
    rw [List.map_cons, List.sum_cons, List.map_cons, List.sum_cons]
    rcases List.mem_cons.mp ha with rfl | ha
    · have hrest : l.map g' = l.map g := List.map_congr_left fun c hc =>
        h c (List.mem_cons_of_mem _ hc) fun heq => hb (heq ▸ hc)
      rw [hrest]
      omega
    · have hba : b ≠ a := fun heq => hb (heq ▸ ha)
      have := ih hn ha fun c hc => h c (List.mem_cons_of_mem _ hc)
      rw [h b List.mem_cons_self hba]
      omega

/-! ## The assembler -/

/-- Events that fit together into the budget of an assembler. -/
structure WithinBudget (events : List Protocol.TimelineEvent) : Prop where
  distinct : (events.map Protocol.TimelineEvent.eventId).Nodup
  bytes : (events.map Protocol.TimelineEvent.bytes).sum ≤ maxWindowDecodeBytes
  few : events.length ≤ maxArrayItems

/-- The assembler after the frames of the fragments that have come. -/
structure Assembling (scope : TransferScope) (events : List Protocol.TimelineEvent)
    (fs : List HistoryFragment) (s : EventAssembler) : Prop where
  scope : s.scope = scope
  progress : ∀ e ∈ events, Progress (s.states.get? e.eventId) e (gotOf fs e)
  keys : ∀ id ∈ s.states.keys, id ∈ events.map Protocol.TimelineEvent.eventId
  gathered : ∀ e ∈ events, gotOf fs e ⊆ allIndices e
  activeBytes : s.activeBytes = ((events.map fun e => inFlight (gotOf fs e) e).sum : ℕ)

section Accept

variable {parse : List Byte → Option TimelineEvent}
  {read : Protocol.TimelineEvent → TimelineEvent} {scope : TransferScope}
  {events : List Protocol.TimelineEvent} {fs : List HistoryFragment}
  {s : EventAssembler} {event : Protocol.TimelineEvent} {f : HistoryFragment}

theorem assembling_new (scope : TransferScope) (events : List Protocol.TimelineEvent) :
    Assembling scope events [] (.new scope) where
  scope := rfl
  progress e _ := by simp [Progress, gotOf, EventAssembler.new]
  keys id h := by cases h
  gathered e _ := by simp [gotOf]
  activeBytes := by
    have hzero : ∀ e : Protocol.TimelineEvent, inFlight ∅ e = 0 := by
      intro e
      simp [inFlight, gatheredBytes]
    simp [EventAssembler.new, hzero]

theorem WithinBudget.bytes_le (h : WithinBudget events) (he : event ∈ events) :
    event.bytes ≤ maxWindowDecodeBytes :=
  (List.single_le_sum (fun _ _ => Nat.zero_le _) _ (List.mem_map_of_mem he)).trans h.bytes

/-- An event is told by its id. -/
theorem WithinBudget.eq_of_eventId (h : WithinBudget events) {e e' : Protocol.TimelineEvent}
    (he : e ∈ events) (he' : e' ∈ events) (hid : e.eventId = e'.eventId) : e = e' :=
  List.inj_on_of_nodup_map h.distinct he he' hid

/-- The states of a tracked assembler are few, also with one more event of the list. -/
theorem Assembling.length_le (h : Assembling scope events fs s) (hb : WithinBudget events)
    (he : event ∈ events) (st : FragmentState) :
    (s.states.set event.eventId st).entries.length ≤ maxArrayItems := by
  have hsub : (s.states.set event.eventId st).keys ⊆
      events.map Protocol.TimelineEvent.eventId := by
    intro id hid
    rcases OrderedMap.mem_keys_setEntry.mp hid with rfl | hid
    · exact List.mem_map_of_mem he
    · exact h.keys id hid
  have hlen := (List.subperm_of_subset (s.states.set event.eventId st).nodup hsub).length_le
  rw [List.length_map, List.length_map] at hlen
  exact hlen.trans hb.few

/-- The bytes in flight with one more fragment of an event, before the event is given
    out. -/
theorem Assembling.bytes_next (h : Assembling scope events fs s) (hb : WithinBudget events)
    (he : event ∈ events) (hgot : gotOf fs event ≠ allIndices event) {got : Finset ℕ}
    (hsub : got ⊆ allIndices event) :
    s.activeBytes + (gatheredBytes event got - gatheredBytes event (gotOf fs event) : ℤ) ≤
      maxWindowDecodeBytes := by
  classical
  have hsum := sum_map_change hb.distinct.of_map he
    (fun e => inFlight (gotOf fs e) e)
    (fun e => if e = event then gatheredBytes event got else inFlight (gotOf fs e) e)
    fun e _ hne => if_neg hne
  have hle : (events.map fun e => if e = event then gatheredBytes event got
      else inFlight (gotOf fs e) e).sum ≤ maxWindowDecodeBytes := by
    refine (List.sum_le_sum fun e he => ?_).trans hb.bytes
    split_ifs with heq
    · rw [heq]
      exact gatheredBytes_le hsub
    · exact inFlight_le (h.gathered e he)
  have hold : inFlight (gotOf fs event) event =
      gatheredBytes event (gotOf fs event) := if_neg hgot
  rw [if_pos rfl, hold] at hsum
  rw [h.activeBytes]
  omega

/-- The bytes in flight after one more fragment. -/
theorem Assembling.bytes_snoc (h : Assembling scope events fs s) (hb : WithinBudget events)
    (he : event ∈ events) (hf : f ∈ fragmentsOf event)
    (hgot : gotOf fs event ≠ allIndices event) :
    ((events.map fun e => inFlight (gotOf (fs ++ [f]) e) e).sum : ℕ) =
      s.activeBytes + (inFlight (insert f.index (gotOf fs event)) event -
        gatheredBytes event (gotOf fs event) : ℤ) := by
  have hsum := sum_map_change hb.distinct.of_map he
    (fun e => inFlight (gotOf fs e) e)
    (fun e => inFlight (gotOf (fs ++ [f]) e) e)
    fun e hmem hne => by rw [gotOf_snoc_ne hb.distinct he hf hmem hne]
  have hold : inFlight (gotOf fs event) event =
      gatheredBytes event (gotOf fs event) := if_neg hgot
  rw [gotOf_snoc_self hf, hold] at hsum
  rw [h.activeBytes]
  omega

/-- What is tracked after one more fragment, when the states of the other events stay. -/
theorem Assembling.snoc (h : Assembling scope events fs s) (hb : WithinBudget events)
    (he : event ∈ events) (hf : f ∈ fragmentsOf event)
    (hgot : gotOf fs event ≠ allIndices event) {states : FragmentStates}
    (hstates : ∀ id, id ≠ event.eventId → states.get? id = s.states.get? id)
    (hprogress : Progress (states.get? event.eventId) event
      (insert f.index (gotOf fs event))) {activeBytes : ℤ}
    (hbytes : activeBytes = s.activeBytes +
      (inFlight (insert f.index (gotOf fs event)) event -
        gatheredBytes event (gotOf fs event) : ℤ)) :
    Assembling scope events (fs ++ [f])
      ⟨s.scope, states, activeBytes⟩ where
  scope := h.scope
  progress e hmem := by
    by_cases hne : e = event
    · rw [hne, gotOf_snoc_self hf]
      exact hprogress
    · rw [gotOf_snoc_ne hb.distinct he hf hmem hne, hstates]
      · exact h.progress e hmem
      · exact fun hid => hne (hb.eq_of_eventId hmem he hid)
  keys id hid := by
    by_cases heq : id = event.eventId
    · rw [heq]
      exact List.mem_map_of_mem he
    · refine h.keys id ?_
      obtain ⟨⟨k, st⟩, hmem, rfl⟩ := List.mem_map.mp hid
      have hget := OrderedMap.mem_entries_iff.mp hmem
      rw [hstates _ heq] at hget
      exact List.mem_map.mpr ⟨_, OrderedMap.mem_entries_iff.mpr hget, rfl⟩
  gathered e hmem := by
    by_cases hne : e = event
    · rw [hne, gotOf_snoc_self hf]
      exact Finset.insert_subset (index_mem_allIndices hf) (h.gathered event he)
    · rw [gotOf_snoc_ne hb.distinct he hf hmem hne]
      exact h.gathered e hmem
  activeBytes := by
    rw [h.bytes_snoc hb he hf hgot]
    exact hbytes

/-- One fragment of an event that is not complete yet. -/
theorem Assembling.accept (h : Assembling scope events fs s) (hb : WithinBudget events)
    (hreads : Reads parse read scope events) (hs : validId scope.sessionId = true)
    (hg : validId scope.historyGeneration = true) (he : event ∈ events)
    (hf : f ∈ fragmentsOf event) (hgot : gotOf fs event ≠ allIndices event) :
    ∃ s', s.accept parse (frameOf scope f) =
        (s', if insert f.index (gotOf fs event) = allIndices event then
          .complete (read event) else .pending) ∧
      Assembling scope events (fs ++ [f]) s' := by
  obtain ⟨st, added, hadd, hholds, hadded⟩ :=
    addFragment_next (hb.bytes_le he) hf hgot (h.progress event he)
  have hid := eventId_of_mem_fragmentsOf hf
  have hprev := bytesInFlight_of_progress (h.progress event he) hgot
  have hnext : bytesInFlight (s.states.set event.eventId st) event.eventId =
      gatheredBytes event (insert f.index (gotOf fs event)) := by
    rw [bytesInFlight, OrderedMap.get?_set_self, ← hholds.decodedBytes]
    rfl
  have hle := h.bytes_next hb he hgot hholds.subset
  have hfinish := finishFragment_of_holds hreads he (OrderedMap.get?_set_self s.states _ st) hholds
  have hfits : ¬ (maxArrayItems < (s.states.set event.eventId st).entries.length ∨
      (maxWindowDecodeBytes : ℤ) < s.activeBytes +
        (gatheredBytes event (insert f.index (gotOf fs event)) -
          gatheredBytes event (gotOf fs event) : ℤ)) := by
    have := h.length_le hb he st
    omega
  have haccept : ∀ states result, result = .pending ∨ result = .complete (read event) →
      finishFragment parse (s.states.set event.eventId st) event.eventId scope = (states, result) →
      s.accept parse (frameOf scope f) =
        (⟨s.scope, states, s.activeBytes +
          (gatheredBytes event (insert f.index (gotOf fs event)) -
            gatheredBytes event (gotOf fs event) : ℤ) -
              (if result = .pending then 0
                else gatheredBytes event (insert f.index (gotOf fs event)) : ℤ)⟩, result) := by
    intro states result hresult heq
    unfold EventAssembler.accept frameOf
    dsimp only
    rw [h.scope, if_neg (by simp),
      if_neg (by simp [hs, hg, schemaFragment_of_mem (hb.bytes_le he) hf]), hadd]
    dsimp only
    rw [hid, hprev, hnext, if_neg hfits, heq]
    rcases hadded with rfl | rfl <;> rcases hresult with rfl | rfl <;> simp
  split_ifs at hfinish ⊢ with hall
  · rw [haccept _ _ (Or.inr rfl) hfinish]
    refine ⟨_, rfl, h.snoc hb he hf hgot (fun id hne => ?_) ?_ ?_⟩
    · rw [OrderedMap.get?_erase_of_ne _ hne, OrderedMap.get?_set_of_ne _ _ hne]
    · rw [OrderedMap.get?_erase_self, Progress, if_pos (Or.inr hall)]
    · rw [inFlight, if_pos hall, if_neg (by simp)]
      push_cast
      omega
  · rw [haccept _ _ (Or.inl rfl) hfinish]
    refine ⟨_, rfl, h.snoc hb he hf hgot (fun id hne => ?_) ?_ ?_⟩
    · rw [OrderedMap.get?_set_of_ne _ _ hne]
    · rw [OrderedMap.get?_set_self, Progress, if_neg]
      · exact ⟨st, rfl, hholds⟩
      · rintro (hempty | hfull)
        · exact Finset.insert_ne_empty _ _ hempty
        · exact hall hfull
    · rw [inFlight, if_neg hall, if_pos rfl, Int.sub_zero]

/-- Every fragment of the list belongs to an event that is not complete when it comes. -/
def InTime (events : List Protocol.TimelineEvent) (before fs : List HistoryFragment) : Prop :=
  ∀ l f l', fs = l ++ f :: l' →
    ∃ e ∈ events, f ∈ fragmentsOf e ∧ gotOf (before ++ l) e ≠ allIndices e

/-- Fragments that come in time give out each event that becomes complete once. -/
theorem Assembling.acceptAll (hb : WithinBudget events) (hreads : Reads parse read scope events)
    (hs : validId scope.sessionId = true) (hg : validId scope.historyGeneration = true)
    {fs' : List HistoryFragment} (h : Assembling scope events fs s) (htime : InTime events fs fs') :
    (∀ result ∈ s.acceptAll parse (fs'.map (frameOf scope)),
        result = .pending ∨ ∃ e ∈ events, result = .complete (read e)) ∧
      ∀ e ∈ events, (s.acceptAll parse (fs'.map (frameOf scope))).count (.complete (read e)) +
          (if gotOf fs e = allIndices e then 1 else 0) =
        if gotOf (fs ++ fs') e = allIndices e then 1 else 0 := by
  induction fs' generalizing fs s with
  | nil => simp [EventAssembler.acceptAll]
  | cons f fs' ih =>
    obtain ⟨event, he, hf, hgot⟩ := htime [] f fs' rfl
    rw [List.append_nil] at hgot
    obtain ⟨s', haccept, h'⟩ := h.accept hb hreads hs hg he hf hgot
    have htime' : InTime events (fs ++ [f]) fs' := by
      intro l f' l' hl
      obtain ⟨e, hmem, hf', hne⟩ := htime (f :: l) f' l' (by rw [hl]; rfl)
      refine ⟨e, hmem, hf', ?_⟩
      rwa [List.append_assoc]
    obtain ⟨hresults, hcount⟩ := ih h' htime'
    have hcons : s.acceptAll parse ((f :: fs').map (frameOf scope)) =
        (if insert f.index (gotOf fs event) = allIndices event then
          .complete (read event) else .pending) ::
            s'.acceptAll parse (fs'.map (frameOf scope)) := by
      rw [List.map_cons, EventAssembler.acceptAll, haccept]
    rw [hcons]
    constructor
    · intro result hmem
      rcases List.mem_cons.mp hmem with rfl | hmem
      · split_ifs
        · exact Or.inr ⟨event, he, rfl⟩
        · exact Or.inl rfl
      · exact hresults result hmem
    · intro e hmem
      have hcount := hcount e hmem
      rw [List.append_assoc, List.singleton_append] at hcount
      rw [← hcount]
      by_cases hne : e = event
      · subst hne
        rw [gotOf_snoc_self hf, if_neg hgot]
        by_cases hall : insert f.index (gotOf fs e) = allIndices e
        · rw [if_pos hall, if_pos hall, List.count_cons_self]
        · rw [if_neg hall, if_neg hall, List.count_cons_of_ne (by simp)]
      · have hread : read event ≠ read e := by
          intro heq
          refine hne (hb.eq_of_eventId hmem he ?_)
          rw [← hreads.eventId e hmem, ← hreads.eventId event he, heq]
        rw [gotOf_snoc_ne hb.distinct he hf hmem hne, List.count_cons_of_ne]
        split_ifs <;> simp [hread]

end Accept

/-! ## The round trip -/

section RoundTrip

variable {scope : TransferScope} {events : List Protocol.TimelineEvent}
  {event : Protocol.TimelineEvent} {delivered : List TimelineEventFragmentFrame}

/-- The frames of an event that is too large for one frame. -/
theorem mem_publishFrames_large
    (hlarge : maxFrameBytes <
      completeFrameBytes scope.sessionId scope.historyGeneration event)
    {frame : TimelineEventFragmentFrame} :
    .timelineEventFragment frame ∈ publishFrames scope.sessionId scope.historyGeneration event ↔
      ∃ f ∈ fragmentsOf event, frame = frameOf scope f := by
  rw [publishFrames, if_neg (by omega), List.mem_map]
  constructor
  · rintro ⟨f, hf, heq⟩
    cases heq
    exact ⟨f, hf, rfl⟩
  · rintro ⟨f, hf, rfl⟩
    exact ⟨f, hf, rfl⟩

/-- Few events that are too large for one frame fit into the budget. -/
theorem few_of_large (hs : validId scope.sessionId = true)
    (hg : validId scope.historyGeneration = true)
    (hlarge : ∀ e ∈ events, maxFrameBytes <
      completeFrameBytes scope.sessionId scope.historyGeneration e)
    (hbytes : (events.map Protocol.TimelineEvent.bytes).sum ≤ maxWindowDecodeBytes) :
    events.length ≤ maxArrayItems := by
  have hmin : ∀ n ∈ events.map Protocol.TimelineEvent.bytes, 8193 ≤ n := by
    intro n hn
    obtain ⟨e, he, rfl⟩ := List.mem_map.mp hn
    have h1 := hlarge e he
    have h2 := jsonStringBytes_le_of_validId hs
    have h3 := jsonStringBytes_le_of_validId hg
    have hc : "\x7b\"protocol_version\":2,\"type\":\"timeline_event\",".utf8ByteSize +
        "\"session_id\":,\"history_generation\":,\"event\":\x7d".utf8ByteSize ≤ 250 := by decide
    unfold completeFrameBytes at h1
    simp only [maxFrameBytes] at h1
    omega
  have hsum := List.card_nsmul_le_sum _ _ hmin
  rw [List.length_map, smul_eq_mul] at hsum
  simp only [maxWindowDecodeBytes] at hbytes
  simp only [maxArrayItems]
  omega

/-- The fragments of a delivery come in time. -/
theorem Delivery.inTime (h : Delivery scope events delivered)
    (hlarge : ∀ e ∈ events, maxFrameBytes <
      completeFrameBytes scope.sessionId scope.historyGeneration e)
    (hdistinct : (events.map Protocol.TimelineEvent.eventId).Nodup) :
    ∃ fs, delivered = fs.map (frameOf scope) ∧ InTime events [] fs ∧
      ∀ e ∈ events, ∀ f ∈ fragmentsOf e, f ∈ fs := by
  have hown : ∀ frame ∈ delivered, ∃ e ∈ events, ∃ f ∈ fragmentsOf e, frame = frameOf scope f := by
    intro frame hframe
    obtain ⟨e, he, hpub⟩ := h.published frame hframe
    exact ⟨e, he, (mem_publishFrames_large (hlarge e he)).mp hpub⟩
  have hmap : delivered =
      (delivered.map TimelineEventFragmentFrame.fragment).map (frameOf scope) := by
    rw [List.map_map]
    refine (List.map_id' _).symm.trans (List.map_congr_left fun frame hframe => ?_)
    obtain ⟨e, -, f, -, rfl⟩ := hown frame hframe
    rfl
  refine ⟨delivered.map TimelineEventFragmentFrame.fragment, hmap, ?_, ?_⟩
  · intro l f l' hl
    rw [List.nil_append]
    have hsplit : delivered =
        l.map (frameOf scope) ++ frameOf scope f :: l'.map (frameOf scope) := by
      rw [hmap, hl, List.map_append, List.map_cons]
    have hsub : ∀ g ∈ l, ∃ e ∈ events, g ∈ fragmentsOf e := by
      intro g hg
      obtain ⟨e, he, g', hg', heq⟩ := hown (frameOf scope g) (by
        rw [hsplit]
        exact List.mem_append_left _ (List.mem_map_of_mem hg))
      cases heq
      exact ⟨e, he, hg'⟩
    by_cases hrepeat : f ∈ l
    · obtain ⟨e, he, hpub, frame', hnot, hpub'⟩ :=
        h.repeats _ _ _ hsplit (List.mem_map_of_mem hrepeat)
      obtain ⟨f', hf, heq⟩ := (mem_publishFrames_large (hlarge e he)).mp hpub
      obtain ⟨g, hg, rfl⟩ := (mem_publishFrames_large (hlarge e he)).mp hpub'
      cases heq
      refine ⟨e, he, hf, fun hall => hnot (List.mem_map_of_mem ?_)⟩
      exact (gotOf_eq_all hsub hdistinct he).mp hall g hg
    · obtain ⟨e, he, f', hf, heq⟩ := hown (frameOf scope f) (by rw [hsplit]; simp)
      cases heq
      exact ⟨e, he, hf, fun hall => hrepeat ((gotOf_eq_all hsub hdistinct he).mp hall f hf)⟩
  · intro e he f hf
    obtain ⟨frame, hframe, heq⟩ := h.arrives e he _
      ((mem_publishFrames_large (hlarge e he)).mpr ⟨f, hf, rfl⟩)
    cases heq
    exact List.mem_map.mpr ⟨_, hframe, rfl⟩

/-- Events that are too large for one frame and fit together into the budget: whatever
    the order of their fragments, each of them is given out exactly once, and nothing is
    discarded. -/
theorem round_trip_of_reads {parse : List Byte → Option TimelineEvent}
    {read : Protocol.TimelineEvent → TimelineEvent} (hs : validId scope.sessionId = true)
    (hg : validId scope.historyGeneration = true)
    (hdistinct : (events.map Protocol.TimelineEvent.eventId).Nodup)
    (hlarge : ∀ e ∈ events, maxFrameBytes <
      completeFrameBytes scope.sessionId scope.historyGeneration e)
    (hbytes : (events.map Protocol.TimelineEvent.bytes).sum ≤ maxWindowDecodeBytes)
    (hreads : Reads parse read scope events) (hdelivery : Delivery scope events delivered) :
    (∀ result ∈ (EventAssembler.new scope).acceptAll parse delivered,
        result = .pending ∨ ∃ e ∈ events, result = .complete (read e)) ∧
      ∀ e ∈ events,
        ((EventAssembler.new scope).acceptAll parse delivered).count (.complete (read e)) = 1 := by
  have hb : WithinBudget events := ⟨hdistinct, hbytes, few_of_large hs hg hlarge hbytes⟩
  obtain ⟨fs, rfl, htime, harrives⟩ := hdelivery.inTime hlarge hdistinct
  obtain ⟨hresults, hcount⟩ := (assembling_new scope events).acceptAll hb hreads hs hg htime
  refine ⟨hresults, fun e he => ?_⟩
  have hcount := hcount e he
  have hown : ∀ f ∈ fs, ∃ e ∈ events, f ∈ fragmentsOf e := by
    intro f hf
    obtain ⟨l, l', hl⟩ := List.append_of_mem hf
    obtain ⟨e, he, hmem, -⟩ := htime l f l' hl
    exact ⟨e, he, hmem⟩
  have hall : gotOf ([] ++ fs) e = allIndices e :=
    (gotOf_eq_all hown hdistinct he).mpr (harrives e he)
  rw [if_pos hall, gotOf_nil, if_neg (allIndices_ne_empty e).symm] at hcount
  exact hcount

end RoundTrip

/-! ## Deliveries -/

section Deliveries

variable {scope : TransferScope} {events : List Protocol.TimelineEvent}
  {event : Protocol.TimelineEvent} {delivered pre rest : List TimelineEventFragmentFrame}
  {frame frame' : TimelineEventFragmentFrame}

/-- Frames that come once each are a delivery of the events that they are made of. -/
theorem delivery_of_nodup (hnodup : delivered.Nodup)
    (hlarge : ∀ e ∈ events, maxFrameBytes <
      completeFrameBytes scope.sessionId scope.historyGeneration e)
    (hmem : ∀ frame, frame ∈ delivered ↔
      ∃ e ∈ events, frame ∈ (fragmentsOf e).map (frameOf scope)) :
    Delivery scope events delivered where
  arrives e he b hb := by
    rw [publishFrames, if_neg (by have := hlarge e he; omega)] at hb
    obtain ⟨f, hf, rfl⟩ := List.mem_map.mp hb
    exact ⟨frameOf scope f, (hmem _).mpr ⟨e, he, List.mem_map_of_mem hf⟩, rfl⟩
  published frame hframe := by
    obtain ⟨e, he, hown⟩ := (hmem frame).mp hframe
    obtain ⟨f, hf, rfl⟩ := List.mem_map.mp hown
    exact ⟨e, he, (mem_publishFrames_large (hlarge e he)).mpr ⟨f, hf, rfl⟩⟩
  repeats before frame after hsplit hrepeat := by
    rw [hsplit, List.nodup_append] at hnodup
    exact absurd rfl (hnodup.2.2 frame hrepeat frame List.mem_cons_self)

/-- A frame may come again while another one of its event is missing. -/
theorem Delivery.repeat (h : Delivery scope events (pre ++ rest)) (hnodup : (pre ++ rest).Nodup)
    (hframe : frame ∈ pre) (he : event ∈ events)
    (hown : .timelineEventFragment frame ∈
      publishFrames scope.sessionId scope.historyGeneration event)
    (hrest : frame' ∈ rest)
    (hown' : .timelineEventFragment frame' ∈
      publishFrames scope.sessionId scope.historyGeneration event) :
    Delivery scope events (pre ++ frame :: rest) where
  arrives e he b hb := by
    obtain ⟨f, hf, rfl⟩ := h.arrives e he b hb
    refine ⟨f, ?_, rfl⟩
    rw [List.mem_append] at hf ⊢
    exact hf.imp_right (List.mem_cons_of_mem _)
  published f hf := by
    refine h.published f ?_
    rw [List.mem_append] at hf ⊢
    rcases hf with hf | hf
    · exact .inl hf
    · rcases List.mem_cons.mp hf with rfl | hf
      · exact .inl hframe
      · exact .inr hf
  repeats before f after hsplit hrepeat := by
    rcases List.append_eq_append_iff.mp hsplit with ⟨m, rfl, hm⟩ | ⟨m, rfl, hm⟩
    · cases m with
      | nil =>
        rw [List.append_nil] at hrepeat ⊢
        cases hm
        refine ⟨event, he, hown, frame', fun hpre => ?_, hown'⟩
        exact (List.nodup_append.mp hnodup).2.2 frame' hpre frame' hrest rfl
      | cons g m =>
        -- a later frame would have come before
        rw [List.cons_append] at hm
        obtain ⟨rfl, rfl⟩ := List.cons.inj hm
        have hcount : pre ++ (m ++ f :: after) = (pre ++ m) ++ f :: after := by simp
        rw [hcount] at hnodup
        refine absurd rfl ((List.nodup_append.mp hnodup).2.2 f ?_ f List.mem_cons_self)
        rw [List.mem_append] at hrepeat ⊢
        rcases hrepeat with hpre | hcons
        · exact .inl hpre
        · rcases List.mem_cons.mp hcons with rfl | hm
          · exact .inl hframe
          · exact .inr hm
    · cases m with
      | nil =>
        rw [List.append_nil] at hframe hnodup
        cases hm
        refine ⟨event, he, hown, frame', fun hbefore => ?_, hown'⟩
        exact (List.nodup_append.mp hnodup).2.2 frame' hbefore frame' hrest rfl
      | cons g m =>
        cases hm
        rw [List.append_assoc, List.cons_append] at hnodup
        exact absurd rfl ((List.nodup_append.mp hnodup).2.2 f hrepeat f List.mem_cons_self)

end Deliveries

/-! ## Two events of one id -/

section Conflict

variable {parse : List Byte → Option TimelineEvent}
  {read : Protocol.TimelineEvent → TimelineEvent} {scope : TransferScope}
  {event event' : Protocol.TimelineEvent} {s : EventAssembler} {f f' : HistoryFragment}

/-- A fragment that differs from the one that has come under its index is discarded. -/
theorem accept_discarded (hscope : s.scope = scope) (hs : validId scope.sessionId = true)
    (hg : validId scope.historyGeneration = true)
    (hb : event'.bytes ≤ maxWindowDecodeBytes) (hf : f ∈ fragmentsOf event)
    (hf' : f' ∈ fragmentsOf event') (hid : event'.eventId = event.eventId)
    (hindex : f'.index = f.index)
    (hdata : Base64.decode f.dataBase64.toList ≠ Base64.decode f'.dataBase64.toList)
    {st : FragmentState} {got : Finset ℕ} (hst : s.states.get? event.eventId = some st)
    (hholds : Holds st event got) (hgot : f.index ∈ got) :
    ∃ reason, (s.accept parse (frameOf scope f')).2 = .discarded reason := by
  have hentry : st.entries.get? f'.index =
      some ⟨Base64.decode f.dataBase64.toList, f.final⟩ := by
    rw [hindex, hholds.gathers.get?_of_mem hgot, getElem?_entriesOf hf]
  have hadd : addFragment s.states f' =
      some ((s.states.set event.eventId st).erase event.eventId,
        some (.discarded "invalid_fragment_sequence")) := by
    rw [addFragment, decodeFragment_of_mem hb hf', eventId_of_mem_fragmentsOf hf', hid, hst,
      Option.map_some, Option.getD_some]
    dsimp only
    rw [hentry]
    dsimp only
    rw [if_pos (Or.inr hdata)]
  unfold EventAssembler.accept frameOf
  dsimp only
  rw [hscope, if_neg (by simp), if_neg (by simp [hs, hg, schemaFragment_of_mem hb hf']), hadd]
  dsimp only
  split_ifs
  · exact ⟨_, rfl⟩
  · exact ⟨_, rfl⟩

/-- The first fragment of an event, and the others. -/
theorem fragmentsOf_eq_cons (event : Protocol.TimelineEvent) :
    fragmentsOf event =
      ⟨event.eventId, 0,
        String.ofList (Base64.encode (event.encoded.take maxFragmentDecodeBytes)),
        (event.encoded.drop maxFragmentDecodeBytes).isEmpty⟩ ::
      fragmentsFrom event.eventId 1 (event.encoded.drop maxFragmentDecodeBytes) := by
  rw [fragmentsOf, fragmentsFrom, dif_neg event.encoded_ne]

theorem exists_fragmentsOf (h : maxFragmentDecodeBytes < event.bytes) :
    ∃ f g fs, fragmentsOf event = f :: g :: fs := by
  have hrest : event.encoded.drop maxFragmentDecodeBytes ≠ [] := by
    rw [Ne, List.drop_eq_nil_iff, Nat.not_le]
    exact h
  rw [fragmentsOf_eq_cons, fragmentsFrom, dif_neg hrest]
  exact ⟨_, _, _, rfl⟩

/-- The first fragment of an event that needs more of them is kept. -/
theorem accept_first (hreads : Reads parse read scope [event])
    (hs : validId scope.sessionId = true) (hg : validId scope.historyGeneration = true)
    (hb : event.bytes ≤ maxWindowDecodeBytes)
    (hlong : maxFragmentDecodeBytes < event.bytes) (hf : f ∈ fragmentsOf event) :
    ∃ s' result, (EventAssembler.new scope).accept parse (frameOf scope f) = (s', result) ∧
      s'.scope = scope ∧ ∃ st, s'.states.get? event.eventId = some st ∧
        Holds st event {f.index} := by
  have hbudget : WithinBudget [event] :=
    ⟨List.nodup_singleton _, by simpa using hb, by simp [maxArrayItems]⟩
  obtain ⟨s', haccept, h⟩ := (assembling_new scope [event]).accept hbudget hreads hs hg
    List.mem_cons_self hf (by rw [gotOf_nil]; exact (allIndices_ne_empty event).symm)
  refine ⟨s', _, haccept, h.scope, ?_⟩
  have hprogress := h.progress event List.mem_cons_self
  rw [gotOf_snoc_self hf, gotOf_nil, LawfulSingleton.insert_empty_eq, Progress, if_neg] at hprogress
  · exact hprogress
  · rintro (hempty | hall)
    · exact Finset.singleton_ne_empty _ hempty
    · obtain ⟨g, g', fs, hfs⟩ := exists_fragmentsOf hlong
      have hcard := congrArg Finset.card hall
      rw [Finset.card_singleton, allIndices, Finset.card_range, hfs, List.length_cons,
        List.length_cons] at hcard
      omega

/-- Events of one id whose encodings differ in their beginnings only. -/
theorem fragmentsOf_of_heads (hid : event'.eventId = event.eventId) {front front' back : List Byte}
    (hlength : front.length = front'.length)
    (hle : front.length ≤ maxFragmentDecodeBytes) (h : event.encoded = front ++ back)
    (h' : event'.encoded = front' ++ back) (hne : front ≠ front') :
    ∃ f f' fs, fragmentsOf event = f :: fs ∧ fragmentsOf event' = f' :: fs ∧
      f.index = f'.index ∧
        Base64.decode f.dataBase64.toList ≠ Base64.decode f'.dataBase64.toList := by
  have hrest : event'.encoded.drop maxFragmentDecodeBytes =
      event.encoded.drop maxFragmentDecodeBytes := by
    rw [h, h', List.drop_append, List.drop_append, List.drop_eq_nil_of_le hle,
      List.drop_eq_nil_of_le (hlength ▸ hle), hlength]
  have hcons := fragmentsOf_eq_cons event'
  rw [hrest, hid] at hcons
  refine ⟨_, _, _, fragmentsOf_eq_cons event, hcons, rfl, ?_⟩
  rw [String.toList_ofList, String.toList_ofList, Base64.decode_encode, Base64.decode_encode, h, h',
    List.take_append, List.take_append, List.take_of_length_le (l := front) hle,
    List.take_of_length_le (l := front') (hlength ▸ hle)]
  intro heq
  exact hne (List.append_inj_left heq hlength)

/-- The fragments of two such events, the different ones first. -/
theorem delivery_of_heads {fs : List HistoryFragment} (h : fragmentsOf event = f :: fs)
    (h' : fragmentsOf event' = f' :: fs) (hne : f ≠ f')
    (hlarge : ∀ e ∈ [event, event'], maxFrameBytes <
      completeFrameBytes scope.sessionId scope.historyGeneration e) :
    Delivery scope [event, event'] ((f :: f' :: fs).map (frameOf scope)) := by
  have hfs := nodup_fragmentsOf event
  have hfs' := nodup_fragmentsOf event'
  rw [h, List.nodup_cons] at hfs
  rw [h', List.nodup_cons] at hfs'
  refine delivery_of_nodup (List.Nodup.map ?_ ?_) hlarge fun frame => ?_
  · exact fun g g' heq => congrArg TimelineEventFragmentFrame.fragment heq
  · refine List.nodup_cons.mpr ⟨?_, List.nodup_cons.mpr hfs'⟩
    rw [List.mem_cons, not_or]
    exact ⟨hne, hfs.1⟩
  · simp only [List.mem_cons, List.not_mem_nil, or_false, exists_eq_or_imp, exists_eq_left, h, h',
      List.map_cons]
    tauto

end Conflict

/-! ## Frames by turns -/

/-- The frames of two events: the first of each by turns, the first one again, and the others from
    the last on. -/
def interleaved (scope : TransferScope) (event event' : Protocol.TimelineEvent) :
    List TimelineEventFragmentFrame :=
  let frames := (fragmentsOf event).map (frameOf scope)
  let frames' := (fragmentsOf event').map (frameOf scope)
  frames.take 1 ++ frames'.take 1 ++
    (frames.take 1 ++ ((frames'.drop 1).reverse ++ (frames.drop 1).reverse))

theorem delivery_interleaved {scope : TransferScope} {event event' : Protocol.TimelineEvent}
    (hid : event.eventId ≠ event'.eventId)
    (hlarge : ∀ e ∈ [event, event'], maxFrameBytes <
      completeFrameBytes scope.sessionId scope.historyGeneration e)
    (hlong : maxFragmentDecodeBytes < event.bytes) :
    Delivery scope [event, event'] (interleaved scope event event') := by
  obtain ⟨f, g, fs, hfs⟩ := exists_fragmentsOf hlong
  have hfs' := fragmentsOf_eq_cons event'
  generalize HistoryFragment.mk _ _ _ _ = f' at hfs'
  generalize fragmentsFrom event'.eventId 1 _ = fs' at hfs'
  have hperm : ([frameOf scope f, frameOf scope f'] ++
      ((fs'.map (frameOf scope)).reverse ++ ((g :: fs).map (frameOf scope)).reverse)).Perm
      (([event, event'].flatMap fragmentsOf).map (frameOf scope)) := by
    rw [List.perm_iff_count]
    intro frame
    simp only [List.flatMap_cons, List.flatMap_nil, List.append_nil, hfs, hfs', List.map_append,
      List.map_cons, List.count_append, List.count_cons, List.count_reverse, List.count_nil]
    omega
  have hnodup := hperm.nodup_iff.mpr ((nodup_flatMap_fragmentsOf (by simpa using hid)).map
    fun g g' heq => congrArg TimelineEventFragmentFrame.fragment heq)
  have hdelivery : Delivery scope [event, event'] _ :=
    delivery_of_nodup hnodup hlarge fun frame => by
      rw [hperm.mem_iff, List.map_flatMap, List.mem_flatMap]
  have hown : ∀ h ∈ fragmentsOf event, .timelineEventFragment (frameOf scope h) ∈
      publishFrames scope.sessionId scope.historyGeneration event := fun h hmem =>
    (mem_publishFrames_large (hlarge event (by simp))).mpr ⟨h, hmem, rfl⟩
  have hmissing : frameOf scope g ∈
      (fs'.map (frameOf scope)).reverse ++ ((g :: fs).map (frameOf scope)).reverse := by simp
  have hagain := @Delivery.repeat _ _ event _ _ (frameOf scope f) (frameOf scope g) hdelivery
    hnodup (by simp) (by simp) (hown f (by simp [hfs])) hmissing (hown g (by simp [hfs]))
  simpa [interleaved, hfs, hfs'] using hagain

/-! ## A large event -/

theorem asciiByte_lt (c : Char) : c.toNat % 256 < 256 := Nat.mod_lt _ (Nat.succ_pos 255)

/-- The bytes of an ASCII text. -/
def asciiBytes (text : String) : List Byte := text.toList.map fun c =>
  ⟨c.toNat % 256, asciiByte_lt c⟩

/-- A text block of 1 Mi characters. -/
def largeBlock : List Byte :=
  asciiBytes "\x7b\"type\":\"text\",\"text\":\"" ++ List.replicate 1048576 ⟨97, by decide⟩ ++
    asciiBytes "\"\x7d"

/-- An assistant message of three large blocks. -/
def largeText : List Byte :=
  asciiBytes "\x7b\"event_id\":\"e\",\"session_id\":\"s\",\"history_generation\":\"g\"," ++
    asciiBytes "\"timestamp\":0,\"group_id\":\"t\",\"kind\":\"assistant\",\"blocks\":[" ++
    largeBlock ++ asciiBytes "," ++ largeBlock ++ asciiBytes "," ++ largeBlock ++
    asciiBytes "],\"status\":\"complete\"\x7d"

theorem length_largeText : largeText.length = 3145943 := by
  have hblock : largeBlock.length = 1048601 := by
    rw [largeBlock, List.length_append, List.length_append, List.length_replicate]
    decide
  simp only [largeText, List.length_append, hblock]
  decide

def largeEvent : Protocol.TimelineEvent where
  eventId := "e"
  kind := .assistant
  groupId := "t"
  encoded := largeText
  eventId_valid := by decide
  encoded_ne := by
    intro h
    have := length_largeText
    rw [h] at this
    cases this

end RemotePi.Pwa
