import RemotePi.Lib.Gather
import RemotePi.Lib.Schema
import RemotePi.Pwa.TimelineRuntime
import RemotePi.Timeline.Publish

/-!
# Event fragments in the browser

Model of the fragment handling of `pwa/src/lib/pwa/timeline-transfer.ts`: the
fragments of one event, gathered under its id until the last one has come, and the
assembler of the realtime events.

`parse` stands for `parseTimelineEventV2` after `decodeUtf8`.

Results:
* `addFragment_next`: a fragment of an event that is not complete is taken.
* `finishFragment_of_holds`: the event is given out with its last fragment.
-/

namespace RemotePi.Pwa

open RemotePi.Lib RemotePi.Protocol RemotePi.Timeline

/-! ## Fragments of one event -/

/-- `FragmentEntry` (line 41). -/
structure FragmentEntry where
  bytes : List Byte
  final : Bool
deriving DecidableEq

/-- `FragmentState` (lines 43–47). -/
structure FragmentState where
  entries : OrderedMap ℕ FragmentEntry
  finalIndex : Option ℕ
  decodedBytes : ℕ

abbrev FragmentStates := OrderedMap String FragmentState

/-- `TransferResult` (lines 28–32). -/
inductive TransferResult where
  | pending
  | complete (event : TimelineEvent)
  | discarded (reason : String)
  | ignored (reason : String)
deriving DecidableEq

/-- `TimelineTransferScope` (line 23). -/
structure TransferScope where
  sessionId : String
  historyGeneration : String
deriving DecidableEq, Repr

/-- `timelineEventFragmentSchema` (`protocol-v2/schema.ts`, lines 223–232). -/
def schemaFragment (f : HistoryFragment) : Bool :=
  validId f.eventId && f.index ≤ maxSafeInteger && 4 ≤ f.dataBase64.length &&
    f.dataBase64.length ≤ (maxFragmentDecodeBytes * 4 + 2) / 3 + 4 &&
    Base64.isText f.dataBase64.toList

/-- `decodeFragment` (lines 62–65); none where `validateFragmentSizeV2` throws. -/
def decodeFragment (f : HistoryFragment) : Option (List Byte) :=
  let bytes := Base64.decode f.dataBase64.toList
  if schemaFragment f && bytes.length ≤ maxFragmentDecodeBytes then some bytes else none

/-- `addFragment` (lines 67–107); none where it throws. -/
def addFragment (states : FragmentStates) (f : HistoryFragment) :
    Option (FragmentStates × Option TransferResult) :=
  (decodeFragment f).map fun bytes =>
    let state := (states.get? f.eventId).getD ⟨.empty, none, 0⟩
    let states := states.set f.eventId state
    let discard := (states.erase f.eventId,
      some (TransferResult.discarded "invalid_fragment_sequence"))
    match state.entries.get? f.index with
    | some previous =>
      if previous.final ≠ f.final ∨ previous.bytes ≠ bytes then discard
      else (states, some .pending)
    | none =>
      if maxArrayItems ≤ state.entries.entries.length then discard
      else if state.finalIndex.any fun k => k < f.index || f.final then discard
      else if f.final && (state.finalIndex.isSome || state.entries.keys.any fun k => f.index < k)
      then discard
      else
        let state : FragmentState :=
          { entries := state.entries.set f.index ⟨bytes, f.final⟩
            finalIndex := if f.final then some f.index else state.finalIndex
            decodedBytes := state.decodedBytes + bytes.length }
        if maxWindowDecodeBytes < state.decodedBytes then discard
        else (states.set f.eventId state, none)

/-- `finishFragment` (lines 109–139). -/
def finishFragment (parse : List Byte → Option TimelineEvent) (states : FragmentStates)
    (eventId : String) (scope : TransferScope) : FragmentStates × TransferResult :=
  match states.get? eventId with
  | none => (states, .pending)
  | some state =>
    match state.finalIndex with
    | none => (states, .pending)
    | some finalIndex =>
      if finalIndex + 1 ≠ state.entries.entries.length then (states, .pending)
      else
        match piecesUpTo state.entries (finalIndex + 1) with
        | none => (states, .pending)
        | some entries =>
          match parse (entries.flatMap FragmentEntry.bytes) with
          | some event =>
            if event.eventId ≠ eventId ∨ event.sessionId ≠ scope.sessionId ∨
                event.historyGeneration ≠ scope.historyGeneration then
              (states.erase eventId, .discarded "fragment_event_scope_mismatch")
            else (states.erase eventId, .complete event)
          | none => (states.erase eventId, .discarded "fragment_event_invalid")

/-! ## The assembler of realtime events -/

/-- `TimelineEventFragmentAssembler` (lines 142–146). -/
structure EventAssembler where
  scope : TransferScope
  states : FragmentStates
  activeBytes : ℤ

def EventAssembler.new (scope : TransferScope) : EventAssembler := ⟨scope, .empty, 0⟩

/-- `reset` (lines 184–187). -/
def EventAssembler.reset (s : EventAssembler) : EventAssembler := .new s.scope

/-- The decoded bytes in flight of an event. -/
def bytesInFlight (states : FragmentStates) (eventId : String) : ℤ :=
  ((states.get? eventId).map FragmentState.decodedBytes).getD 0

/-- The two branches that drop one event (lines 155–160 and 176–181). -/
def EventAssembler.dropEvent (s : EventAssembler) (eventId : String) : EventAssembler :=
  { s with
    states := s.states.erase eventId
    activeBytes := s.activeBytes - bytesInFlight s.states eventId }

/-- `accept` (lines 148–182). -/
def EventAssembler.accept (parse : List Byte → Option TimelineEvent) (s : EventAssembler)
    (frame : TimelineEventFragmentFrame) : EventAssembler × TransferResult :=
  let f := frame.fragment
  if frame.sessionId ≠ s.scope.sessionId ∨ frame.historyGeneration ≠ s.scope.historyGeneration then
    (s.reset, .discarded "fragment_scope_mismatch")
  else if !(validId frame.sessionId && validId frame.historyGeneration && schemaFragment f) then
    (s.dropEvent f.eventId, .discarded "invalid_fragment")
  else
    match addFragment s.states f with
    | none => (s.dropEvent f.eventId, .discarded "invalid_fragment")
    | some (states, added) =>
      let nextBytes := bytesInFlight states f.eventId
      let activeBytes := s.activeBytes + (nextBytes - bytesInFlight s.states f.eventId)
      if maxArrayItems < states.entries.length ∨ maxWindowDecodeBytes < activeBytes then
        (s.reset, .discarded "fragment_window_too_large")
      else
        match added with
        | some (.discarded reason) =>
          (⟨s.scope, states, activeBytes - nextBytes⟩, .discarded reason)
        | _ =>
          match finishFragment parse states f.eventId s.scope with
          | (states, .complete event) =>
            (⟨s.scope, states, activeBytes - nextBytes⟩, .complete event)
          | (states, .discarded reason) =>
            (⟨s.scope, states, activeBytes - nextBytes⟩, .discarded reason)
          | (states, result) => (⟨s.scope, states, activeBytes⟩, result)

/-! ## What is gathered of an event -/

/-- The entries that the fragments of an event make. -/
def entriesOf (event : Protocol.TimelineEvent) : List FragmentEntry :=
  (fragmentsOf event).map fun f => ⟨Base64.decode f.dataBase64.toList, f.final⟩

/-- The indices of all fragments of an event. -/
def allIndices (event : Protocol.TimelineEvent) : Finset ℕ := Finset.range (fragmentsOf event).length

/-- The bytes of the gathered fragments. -/
def gatheredBytes (event : Protocol.TimelineEvent) (got : Finset ℕ) : ℕ :=
  gatheredSize (fun entry => entry.bytes.length) (entriesOf event) got

/-- The state of an event of which the fragments with these indices have come. -/
structure Holds (state : FragmentState) (event : Protocol.TimelineEvent) (got : Finset ℕ) :
    Prop where
  gathers : Gathers state.entries (entriesOf event) got
  finalIndex : state.finalIndex =
    if (fragmentsOf event).length - 1 ∈ got then some ((fragmentsOf event).length - 1) else none
  decodedBytes : state.decodedBytes = gatheredBytes event got

/-- An event is in flight when some of its fragments have come and not all. -/
def Progress (state : Option FragmentState) (event : Protocol.TimelineEvent) (got : Finset ℕ) :
    Prop :=
  if got = ∅ ∨ got = allIndices event then state = none
  else ∃ st, state = some st ∧ Holds st event got

section Fragments

variable {event : Protocol.TimelineEvent} {got : Finset ℕ} {f : HistoryFragment}
  {states : FragmentStates} {state : FragmentState}

@[simp] theorem length_entriesOf (event : Protocol.TimelineEvent) :
    (entriesOf event).length = (fragmentsOf event).length := List.length_map _

theorem length_fragmentsOf_pos (event : Protocol.TimelineEvent) : 0 < (fragmentsOf event).length :=
  List.length_pos_iff.mpr (fragmentsOf_ne_nil event)

theorem flatMap_entriesOf (event : Protocol.TimelineEvent) :
    (entriesOf event).flatMap FragmentEntry.bytes = event.encoded := by
  rw [entriesOf, List.flatMap_map]
  exact flatMap_decode_fragmentsFrom _ _ _

theorem gatheredBytes_all (event : Protocol.TimelineEvent) :
    gatheredBytes event (allIndices event) = event.bytes := by
  rw [gatheredBytes, allIndices, ← length_entriesOf, gatheredSize_range,
    Protocol.TimelineEvent.bytes, ← flatMap_entriesOf event, List.length_flatMap]

theorem gatheredBytes_le (h : got ⊆ allIndices event) : gatheredBytes event got ≤ event.bytes := by
  rw [← gatheredBytes_all]
  exact Finset.sum_le_sum_of_subset h

theorem getElem?_entriesOf (hf : f ∈ fragmentsOf event) :
    (entriesOf event)[f.index]? = some ⟨Base64.decode f.dataBase64.toList, f.final⟩ := by
  rw [entriesOf, List.getElem?_map, getElem?_index hf]
  rfl

theorem index_mem_allIndices (hf : f ∈ fragmentsOf event) : f.index ∈ allIndices event :=
  Finset.mem_range.mpr (List.getElem?_eq_some_iff.mp (getElem?_index hf)).1

theorem final_iff_index (hf : f ∈ fragmentsOf event) :
    f.final = true ↔ f.index = (fragmentsOf event).length - 1 := by
  have hpos := length_fragmentsOf_pos event
  rw [final_of_getElem? (getElem?_index hf), decide_eq_true_eq]
  omega

theorem schemaFragment_of_mem (hb : event.bytes ≤ maxWindowDecodeBytes)
    (hf : f ∈ fragmentsOf event) : schemaFragment f = true := by
  have hvalid := valid_of_mem_fragmentsFrom hf
  have hindex := Finset.mem_range.mp (index_mem_allIndices hf)
  have hlen := length_fragmentsOf_le hb
  obtain ⟨-, -, slice, -, -, hdata⟩ := mem_fragmentsFrom hf
  have htext : Base64.isText f.dataBase64.toList = true := by
    rw [hdata, String.toList_ofList]
    exact Base64.isText_encode slice
  have hsafe : f.index ≤ maxSafeInteger := by
    simp only [maxArrayItems] at hlen
    simp only [maxSafeInteger]
    omega
  simp only [HistoryFragment.valid, Bool.and_eq_true] at hvalid
  simp [schemaFragment, hvalid.1.1.1, hsafe, htext, of_decide_eq_true hvalid.1.1.2,
    of_decide_eq_true hvalid.1.2]

theorem decodeFragment_of_mem (hb : event.bytes ≤ maxWindowDecodeBytes)
    (hf : f ∈ fragmentsOf event) :
    decodeFragment f = some (Base64.decode f.dataBase64.toList) := by
  have hvalid := valid_of_mem_fragmentsFrom hf
  simp only [HistoryFragment.valid, Bool.and_eq_true] at hvalid
  rw [decodeFragment, if_pos]
  simp [schemaFragment_of_mem hb hf, of_decide_eq_true hvalid.2]

theorem Holds.empty (event : Protocol.TimelineEvent) : Holds ⟨.empty, none, 0⟩ event ∅ where
  gathers := Gathers.empty _
  finalIndex := by simp
  decodedBytes := rfl

theorem Progress.getD (h : Progress (states.get? event.eventId) event got)
    (hgot : got ≠ allIndices event) :
    Holds ((states.get? event.eventId).getD ⟨.empty, none, 0⟩) event got := by
  unfold Progress at h
  split_ifs at h with hcases
  · rw [h, hcases.resolve_right hgot]
    exact Holds.empty event
  · obtain ⟨st, hst, hholds⟩ := h
    rw [hst]
    exact hholds

theorem Holds.subset (h : Holds state event got) : got ⊆ allIndices event := by
  have := h.gathers.subset
  rwa [length_entriesOf] at this

/-- A fragment of an event that is not complete is taken, whether it has come before or
    not. -/
theorem addFragment_next (hb : event.bytes ≤ maxWindowDecodeBytes) (hf : f ∈ fragmentsOf event)
    (hgot : got ≠ allIndices event) (h : Progress (states.get? event.eventId) event got) :
    ∃ st result, addFragment states f = some (states.set event.eventId st, result) ∧
      Holds st event (insert f.index got) ∧ (result = none ∨ result = some .pending) := by
  have hid := eventId_of_mem_fragmentsOf hf
  have hholds := h.getD hgot
  rw [addFragment, decodeFragment_of_mem hb hf, hid, Option.map_some]
  generalize (states.get? event.eventId).getD ⟨.empty, none, 0⟩ = st at hholds
  dsimp only
  by_cases hin : f.index ∈ got
  · rw [hholds.gathers.get?_of_mem hin, getElem?_entriesOf hf]
    refine ⟨st, some .pending, ?_, ?_, Or.inr rfl⟩
    · simp
    · rwa [Finset.insert_eq_self.mpr hin]
  · rw [hholds.gathers.get?_of_notMem hin]
    dsimp only
    have hcard : ¬ maxArrayItems ≤ st.entries.entries.length := by
      have hlt : got.card < (fragmentsOf event).length := by
        have := Finset.card_lt_card (hholds.subset.ssubset_of_ne hgot)
        rwa [allIndices, Finset.card_range] at this
      have hlen := length_fragmentsOf_le hb
      rw [hholds.gathers.length_entries]
      omega
    have hindex := Finset.mem_range.mp (index_mem_allIndices hf)
    have hfinal : ¬ (st.finalIndex.any fun k => k < f.index || f.final) = true := by
      rw [hholds.finalIndex]
      split_ifs with hlast
      · have hne : f.index ≠ (fragmentsOf event).length - 1 := fun heq => hin (heq ▸ hlast)
        have hnot : f.final = false := by
          rw [Bool.eq_false_iff, ne_eq, final_iff_index hf]
          exact hne
        simp only [Option.any_some, hnot, Bool.or_false, decide_eq_true_eq]
        omega
      · simp
    have hlater : ¬ (f.final && (st.finalIndex.isSome ||
        st.entries.keys.any fun k => f.index < k)) = true := by
      rw [Bool.and_eq_true, final_iff_index hf]
      rintro ⟨hlast, hor⟩
      have hnone : st.finalIndex = none := by
        rw [hholds.finalIndex, if_neg (hlast ▸ hin)]
      rw [hnone, Option.isSome_none, Bool.false_or, List.any_eq_true] at hor
      obtain ⟨k, hk, hlt⟩ := hor
      have hkgot : k ∈ got := by
        rw [← hholds.gathers.toFinset_keys]
        exact List.mem_toFinset.mpr hk
      have := Finset.mem_range.mp (hholds.subset hkgot)
      have hlt := of_decide_eq_true hlt
      omega
    rw [if_neg hcard, if_neg hfinal, if_neg hlater]
    have hnew : Holds
        { entries := st.entries.set f.index ⟨Base64.decode f.dataBase64.toList, f.final⟩
          finalIndex := if f.final = true then some f.index else st.finalIndex
          decodedBytes := st.decodedBytes + (Base64.decode f.dataBase64.toList).length }
        event (insert f.index got) := by
      refine ⟨hholds.gathers.set (getElem?_entriesOf hf), ?_, ?_⟩
      · dsimp only
        rw [hholds.finalIndex]
        by_cases hlast : f.final = true
        · have heq := (final_iff_index hf).mp hlast
          rw [if_pos hlast, if_pos (heq ▸ Finset.mem_insert_self _ _), heq]
        · have hne : (fragmentsOf event).length - 1 ≠ f.index := fun heq =>
            hlast ((final_iff_index hf).mpr heq.symm)
          rw [if_neg hlast]
          simp [Finset.mem_insert, hne]
      · dsimp only
        rw [hholds.decodedBytes, gatheredBytes, gatheredBytes,
          gatheredSize_insert hin (getElem?_entriesOf hf)]
    have hbytes : ¬ maxWindowDecodeBytes <
        st.decodedBytes + (Base64.decode f.dataBase64.toList).length := by
      have hle := gatheredBytes_le hnew.subset
      have heq := hnew.decodedBytes
      dsimp only at heq
      omega
    rw [if_neg hbytes]
    refine ⟨_, none, ?_, hnew, Or.inl rfl⟩
    rw [OrderedMap.set_set]

end Fragments

/-! ## What has come of events -/

/-- The indices of the fragments of an event among those that have come. -/
def gotOf (fs : List HistoryFragment) (event : Protocol.TimelineEvent) : Finset ℕ :=
  ((fs.filter fun f => f.eventId = event.eventId).map HistoryFragment.index).toFinset

@[simp] theorem gotOf_nil (event : Protocol.TimelineEvent) : gotOf [] event = ∅ := rfl

theorem mem_gotOf {fs : List HistoryFragment} {event : Protocol.TimelineEvent} {i : ℕ} :
    i ∈ gotOf fs event ↔ ∃ f ∈ fs, f.eventId = event.eventId ∧ f.index = i := by
  simp [gotOf, and_assoc]

theorem gotOf_snoc (fs : List HistoryFragment) (f : HistoryFragment)
    (event : Protocol.TimelineEvent) :
    gotOf (fs ++ [f]) event =
      if f.eventId = event.eventId then insert f.index (gotOf fs event) else gotOf fs event := by
  unfold gotOf
  rw [List.filter_append]
  split_ifs with h
  · ext i
    simp [h]
  · simp [h]

theorem allIndices_ne_empty (event : Protocol.TimelineEvent) : allIndices event ≠ ∅ := by
  have := length_fragmentsOf_pos event
  rw [allIndices, ne_eq, Finset.range_eq_empty_iff]
  omega

section GotOf

variable {events : List Protocol.TimelineEvent} {event : Protocol.TimelineEvent}
  {fs : List HistoryFragment} {f : HistoryFragment}

theorem gotOf_snoc_self (hf : f ∈ fragmentsOf event) :
    gotOf (fs ++ [f]) event = insert f.index (gotOf fs event) := by
  rw [gotOf_snoc, if_pos (eventId_of_mem_fragmentsOf hf)]

/-- A fragment of another event leaves what has come of an event. -/
theorem gotOf_snoc_ne (hdistinct : (events.map Protocol.TimelineEvent.eventId).Nodup)
    (he : event ∈ events) (hf : f ∈ fragmentsOf event) {e : Protocol.TimelineEvent}
    (hmem : e ∈ events) (hne : e ≠ event) : gotOf (fs ++ [f]) e = gotOf fs e := by
  rw [gotOf_snoc, if_neg]
  intro hid
  exact hne (List.inj_on_of_nodup_map hdistinct hmem he
    (hid.symm.trans (eventId_of_mem_fragmentsOf hf)))

/-- An event is complete when all its fragments have come. -/
theorem gotOf_eq_all (hfs : ∀ f ∈ fs, ∃ e ∈ events, f ∈ fragmentsOf e)
    (hdistinct : (events.map Protocol.TimelineEvent.eventId).Nodup) (he : event ∈ events) :
    gotOf fs event = allIndices event ↔ ∀ f ∈ fragmentsOf event, f ∈ fs := by
  have hown : ∀ g ∈ fs, g.eventId = event.eventId → g ∈ fragmentsOf event := by
    intro g hg hid
    obtain ⟨e, hmem, hge⟩ := hfs g hg
    have heq : e = event := List.inj_on_of_nodup_map hdistinct hmem he
      ((eventId_of_mem_fragmentsOf hge).symm.trans hid)
    exact heq ▸ hge
  constructor
  · intro hall f hf
    have hmem := index_mem_allIndices hf
    rw [← hall] at hmem
    obtain ⟨g, hg, hid, hindex⟩ := mem_gotOf.mp hmem
    have hget := getElem?_index hf
    rw [← hindex] at hget
    have hgf : g = f := Option.some.inj ((getElem?_index (hown g hg hid)).symm.trans hget)
    exact hgf ▸ hg
  · intro hall
    refine Finset.Subset.antisymm (fun i hi => ?_) (fun i hi => ?_)
    · obtain ⟨g, hg, hid, rfl⟩ := mem_gotOf.mp hi
      exact index_mem_allIndices (hown g hg hid)
    · have hlt := Finset.mem_range.mp hi
      have hget : (fragmentsOf event)[i]? = some (fragmentsOf event)[i] :=
        List.getElem?_eq_getElem hlt
      have hf := List.mem_of_getElem? hget
      exact mem_gotOf.mpr ⟨_, hall _ hf, eventId_of_mem_fragmentsOf hf, index_of_getElem? hget⟩

theorem nodup_fragmentsOf (event : Protocol.TimelineEvent) : (fragmentsOf event).Nodup := by
  rw [List.nodup_iff_getElem?_ne_getElem?]
  intro i j hij hj heq
  have hget : (fragmentsOf event)[j]? = some (fragmentsOf event)[j] := List.getElem?_eq_getElem hj
  have hi := index_of_getElem? (heq.trans hget)
  rw [index_of_getElem? hget] at hi
  omega

/-- Events with distinct ids have no fragment in common. -/
theorem nodup_flatMap_fragmentsOf (hdistinct : (events.map Protocol.TimelineEvent.eventId).Nodup) :
    (events.flatMap fragmentsOf).Nodup := by
  rw [List.nodup_flatMap]
  refine ⟨fun e _ => nodup_fragmentsOf e, (List.pairwise_map.mp hdistinct).imp ?_⟩
  intro e e' hne
  rw [Function.onFun, List.disjoint_left]
  intro f hf hf'
  exact hne ((eventId_of_mem_fragmentsOf hf).symm.trans (eventId_of_mem_fragmentsOf hf'))

end GotOf

/-! ## Reading the events back -/

/-- What is asked of the parser: it reads the JSON text of each event as that event of
    the scope. -/
structure Reads (parse : List Byte → Option TimelineEvent)
    (read : Protocol.TimelineEvent → TimelineEvent) (scope : TransferScope)
    (events : List Protocol.TimelineEvent) : Prop where
  parse : ∀ e ∈ events, parse e.encoded = some (read e)
  eventId : ∀ e ∈ events, (read e).eventId = e.eventId
  sessionId : ∀ e ∈ events, (read e).sessionId = scope.sessionId
  historyGeneration : ∀ e ∈ events, (read e).historyGeneration = scope.historyGeneration

section Reading

variable {parse : List Byte → Option TimelineEvent}
  {read : Protocol.TimelineEvent → TimelineEvent} {scope : TransferScope}
  {events : List Protocol.TimelineEvent} {event : Protocol.TimelineEvent} {got : Finset ℕ}
  {states : FragmentStates} {state : FragmentState}

/-- An event is given out when all of its fragments are there, and not before. -/
theorem finishFragment_of_holds (hreads : Reads parse read scope events) (he : event ∈ events)
    (hstate : states.get? event.eventId = some state) (h : Holds state event got) :
    finishFragment parse states event.eventId scope =
      if got = allIndices event then (states.erase event.eventId, .complete (read event))
      else (states, .pending) := by
  have hpos := length_fragmentsOf_pos event
  rw [finishFragment, hstate]
  dsimp only
  rw [h.finalIndex]
  by_cases hall : got = allIndices event
  · have hlast : (fragmentsOf event).length - 1 ∈ got := by
      rw [hall]
      exact Finset.mem_range.mpr (by omega)
    have hlen : state.entries.entries.length = (fragmentsOf event).length := by
      rw [h.gathers.length_entries, hall, allIndices, Finset.card_range]
    have hsucc : (fragmentsOf event).length - 1 + 1 = (fragmentsOf event).length := by omega
    have hgathers : Gathers state.entries (entriesOf event)
        (Finset.range (entriesOf event).length) := by
      rw [length_entriesOf, ← allIndices, ← hall]
      exact h.gathers
    have hpieces := hgathers.piecesUpTo
    rw [length_entriesOf] at hpieces
    rw [if_pos hlast, if_pos hall]
    dsimp only
    rw [if_neg (by omega), hsucc, hpieces]
    dsimp only
    rw [flatMap_entriesOf, hreads.parse event he]
    dsimp only
    rw [if_neg (by simp [hreads.eventId event he, hreads.sessionId event he,
      hreads.historyGeneration event he])]
  · rw [if_neg hall]
    split_ifs with hlast
    · dsimp only
      have hne : (fragmentsOf event).length - 1 + 1 ≠ state.entries.entries.length := by
        intro heq
        refine hall ?_
        have hcard : (entriesOf event).length ≤ got.card := by
          rw [length_entriesOf, ← h.gathers.length_entries]
          omega
        rw [allIndices, ← length_entriesOf]
        exact h.gathers.all_of_card hcard
      rw [if_pos hne]
    · rfl

end Reading

end RemotePi.Pwa
