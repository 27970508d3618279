import Mathlib.Data.List.Sort
import RemotePi.Pwa.EventTransfer

/-!
# History windows in the browser

Model of `HistoryWindowAssembler` (`pwa/src/lib/pwa/timeline-transfer.ts`): the chunks
of one answer to a history request, taken in any order, until the window is complete.

Results:
* `Taken.take`: one more chunk of a window is taken.
* `window_round_trip`: the chunks of a window give back its events, in any order.
-/

namespace RemotePi.Pwa

open RemotePi.Lib RemotePi.Protocol RemotePi.Timeline

/-! ## Chunks -/

/-- A `session_history_chunk` as the browser holds it. -/
structure HistoryChunkFrame where
  targetChannelId : String
  inReplyTo : String
  sessionId : String
  historyGeneration : String
  snapshotHead : String
  chunkIndex : ℕ
  events : List TimelineEvent
  fragments : List HistoryFragment
  tail : ChunkTail
deriving DecidableEq

/-- `getUtf8ByteLengthV2` of a chunk. -/
def HistoryChunkFrame.jsonBytes (chunk : HistoryChunkFrame) : ℕ :=
  "\x7b\"protocol_version\":2,\"type\":\"session_history_chunk\",".utf8ByteSize +
    "\"target_channel_id\":,\"in_reply_to\":,\"session_id\":,".utf8ByteSize +
    "\"history_generation\":,\"snapshot_head\":,".utf8ByteSize +
    "\"chunk_index\":,\"events\":,\"fragments\":,\x7d".utf8ByteSize +
    jsonStringBytes chunk.targetChannelId + jsonStringBytes chunk.inReplyTo +
    jsonStringBytes chunk.sessionId + jsonStringBytes chunk.historyGeneration +
    jsonStringBytes chunk.snapshotHead + jsonNatBytes chunk.chunkIndex +
    jsonArrayBytes (chunk.events.map fun event => event.json.length) +
    jsonArrayBytes (chunk.fragments.map HistoryFragment.jsonBytes) + chunk.tail.jsonBytes

/-- `validateHistoryChunk` (`protocol-v2/frames.ts`, lines 297–311). -/
def HistoryChunkFrame.idsDisjoint (chunk : HistoryChunkFrame) : Bool :=
  (chunk.events.all fun e => chunk.fragments.all fun f => e.eventId ≠ f.eventId) &&
    (chunk.fragments.map HistoryFragment.eventId).Nodup

/-- `sessionHistoryChunkFrameSchema` (`protocol-v2/frames.ts`, lines 271–316); the events
    have passed theirs. -/
def schemaChunk (chunk : HistoryChunkFrame) : Bool :=
  validId chunk.targetChannelId && validId chunk.inReplyTo && validId chunk.sessionId &&
    validId chunk.historyGeneration && validId chunk.snapshotHead &&
    chunk.chunkIndex ≤ maxSafeInteger && chunk.events.length ≤ maxArrayItems &&
    chunk.fragments.length ≤ maxArrayItems && chunk.fragments.all schemaFragment &&
    chunk.tail.valid && chunk.idsDisjoint

/-- `validateHistoryChunkSizeV2` does not throw (`protocol-v2/codec.ts`, lines 207–216). -/
def chunkSizeValid (chunk : HistoryChunkFrame) : Bool :=
  schemaChunk chunk && chunk.jsonBytes ≤ maxHistoryChunkBytes &&
    chunk.fragments.all fun f => (decodeFragment f).isSome

/-! ## The assembler of a window -/

/-- `HistoryWindowResult` (lines 34–38). -/
inductive WindowResult where
  | pending
  | complete (events : List TimelineEvent) (eos : Bool) (nextBefore : Option String)
  | discarded (reason : String)
  | ignored (reason : String)
deriving DecidableEq

/-- `HistoryScope` (line 192). -/
structure HistoryScope where
  scope : TransferScope
  snapshotHead : String
deriving DecidableEq

/-- `finalTail` (line 211). -/
structure FinalTail where
  index : ℕ
  eos : Bool
  nextBefore : Option String
deriving DecidableEq

inductive WindowState where
  | «open»
  | complete
  | discarded
deriving DecidableEq

/-- What the chunks have brought of events (lines 206–208). -/
structure WindowContent where
  fragmentStates : FragmentStates
  completeEvents : OrderedMap String TimelineEvent
  formalEventIds : Finset String

/-- `HistoryWindowAssembler` (lines 204–214). -/
structure WindowAssembler where
  inReplyTo : String
  expectedScope : Option TransferScope
  chunks : OrderedMap ℕ HistoryChunkFrame
  content : WindowContent
  scope : Option HistoryScope
  totalDecodedBytes : ℕ
  finalTail : Option FinalTail
  state : WindowState

def WindowAssembler.new (inReplyTo : String) (expectedScope : Option TransferScope) :
    WindowAssembler :=
  ⟨inReplyTo, expectedScope, .empty, ⟨.empty, .empty, ∅⟩, none, 0, none, .open⟩

/-- `discard` (lines 324–334). -/
def WindowAssembler.discard (s : WindowAssembler) (reason : String) :
    WindowAssembler × WindowResult :=
  ({ WindowAssembler.new s.inReplyTo s.expectedScope with state := .discarded }, .discarded reason)

/-- The reason a window is ignored with when it is not open (line 216). -/
def WindowState.ignoredReason : WindowState → String
  | .open => "window_open"
  | .complete => "window_complete"
  | .discarded => "window_discarded"

/-- The scope of a window is that of its first chunk (lines 224–240). -/
def WindowAssembler.admitScope (s : WindowAssembler) (frame : HistoryChunkFrame) :
    Except String HistoryScope :=
  let scope : TransferScope := ⟨frame.sessionId, frame.historyGeneration⟩
  if s.expectedScope.any fun expected => scope ≠ expected then .error "history_scope_mismatch"
  else
    match s.scope with
    | none => .ok ⟨scope, frame.snapshotHead⟩
    | some known =>
      if scope ≠ known.scope ∨
          (known.snapshotHead ≠ "" ∧ frame.snapshotHead ≠ known.snapshotHead) then
        .error "history_scope_mismatch"
      else .ok known

/-- The final chunk of a window is one, and the last (lines 242–253). -/
def WindowAssembler.admitTail (s : WindowAssembler) (frame : HistoryChunkFrame) :
    Except String (Option FinalTail) :=
  let finalChunk := frame.tail ≠ .more
  if s.chunks.contains frame.chunkIndex then .error "duplicate_chunk"
  else if s.finalTail.any fun t => t.index < frame.chunkIndex || finalChunk then
    .error "invalid_final_tail"
  else if finalChunk && (s.finalTail.isSome || s.chunks.keys.any fun k => frame.chunkIndex < k) then
    .error "invalid_final_tail"
  else
    match frame.tail with
    | .more => .ok s.finalTail
    | .eos => .ok (some ⟨frame.chunkIndex, true, none⟩)
    | .nextBefore cursor => .ok (some ⟨frame.chunkIndex, false, some cursor⟩)

/-- The decoded bytes of the fragments of a chunk (line 257); none where a fragment is
    not valid. -/
def decodedFragmentBytes (fragments : List HistoryFragment) : Option ℕ :=
  (fragments.mapM decodeFragment).map fun decoded => (decoded.map List.length).sum

/-- A complete event of a chunk (lines 261–271). -/
def takeEvent (scope : TransferScope) (c : WindowContent) (event : TimelineEvent) :
    Except String WindowContent :=
  if maxWindowDecodeBytes < event.json.length then .error "invalid_history_window"
  else if event.sessionId ≠ scope.sessionId ∨ event.historyGeneration ≠ scope.historyGeneration ∨
      event.eventId ∈ c.formalEventIds ∨ c.completeEvents.contains event.eventId ∨
      c.fragmentStates.contains event.eventId then .error "duplicate_or_conflicting_event"
  else
    .ok { c with
      formalEventIds := insert event.eventId c.formalEventIds
      completeEvents := c.completeEvents.set event.eventId event }

/-- A fragment of a chunk (lines 274–285). -/
def takeFragment (parse : List Byte → Option TimelineEvent) (scope : TransferScope)
    (c : WindowContent) (f : HistoryFragment) : Except String WindowContent :=
  if f.eventId ∈ c.formalEventIds ∨ c.completeEvents.contains f.eventId then
    .error "duplicate_or_conflicting_event"
  else
    match addFragment c.fragmentStates f with
    | none => .error "invalid_history_window"
    | some (_, some (.discarded reason)) => .error reason
    | some (states, _) =>
      match finishFragment parse states f.eventId scope with
      | (_, .discarded reason) => .error reason
      | (states, .complete event) =>
        if c.completeEvents.contains event.eventId then .error "duplicate_or_conflicting_event"
        else
          .ok { c with
            fragmentStates := states
            completeEvents := c.completeEvents.set event.eventId event }
      | (states, _) => .ok { c with fragmentStates := states }

/-- What `accept` takes from a chunk (lines 220–285), or the reason it discards the window
    with. -/
def WindowAssembler.take (parse : List Byte → Option TimelineEvent) (s : WindowAssembler)
    (frame : HistoryChunkFrame) : Except String WindowAssembler := do
  if !schemaChunk frame then throw "invalid_history_chunk"
  if !chunkSizeValid frame then throw "invalid_history_window"
  let scope ← s.admitScope frame
  let finalTail ← s.admitTail frame
  let some fragmentBytes := decodedFragmentBytes frame.fragments
    | throw "invalid_history_window"
  let total := s.totalDecodedBytes +
    ((frame.events.map fun event => event.json.length).sum + fragmentBytes)
  if maxWindowDecodeBytes < total then throw "window_too_large"
  let content ← frame.events.foldlM (takeEvent scope.scope) s.content
  let content ← frame.fragments.foldlM (takeFragment parse scope.scope) content
  return { s with
    chunks := s.chunks.set frame.chunkIndex frame
    content := content
    scope := some scope
    totalDecodedBytes := total
    finalTail := finalTail }

/-- `isContiguous` (lines 194–200). -/
def isContiguous (chunks : OrderedMap ℕ HistoryChunkFrame) (finalIndex : ℕ) : Bool :=
  finalIndex + 1 = chunks.entries.length && (List.range (finalIndex + 1)).all chunks.contains

/-- Everything of the window has come (line 287). -/
def WindowAssembler.isReady (s : WindowAssembler) : Bool :=
  (s.finalTail.any fun t => isContiguous s.chunks t.index) && s.content.fragmentStates.isEmpty

/-- The complete events of the chunks in their order (lines 312–314). -/
def WindowAssembler.formalEvents (s : WindowAssembler) : List TimelineEvent :=
  (s.chunks.entries.mergeSort fun left right => left.1 ≤ right.1).flatMap fun entry =>
    entry.2.events.filterMap fun event => s.content.completeEvents.get? event.eventId

/-- Then those of the fragments (lines 315–318). -/
def WindowAssembler.windowEvents (s : WindowAssembler) : List TimelineEvent :=
  s.formalEvents ++ s.content.completeEvents.values.filter fun event =>
    event.eventId ∉ s.formalEvents.map TimelineEvent.eventId

/-- `completeWindow` (lines 311–322) with `validateWindowSizeV2`, which may throw. -/
def WindowAssembler.completeWindow (s : WindowAssembler) (tail : FinalTail) :
    WindowAssembler × WindowResult :=
  if maxWindowDecodeBytes <
      (s.content.completeEvents.values.map fun event => event.json.length).sum then
    s.discard "invalid_history_window"
  else
    ({ s with state := .complete },
      .complete s.windowEvents tail.eos (tail.nextBefore.filter fun cursor => cursor ≠ ""))

/-- `accept` (lines 215–291). -/
def WindowAssembler.accept (parse : List Byte → Option TimelineEvent) (s : WindowAssembler)
    (chunk : HistoryChunkFrame) : WindowAssembler × WindowResult :=
  if s.state ≠ .open then (s, .ignored s.state.ignoredReason)
  else if chunk.inReplyTo ≠ s.inReplyTo then (s, .ignored "request_mismatch")
  else
    match s.take parse chunk with
    | .error reason => s.discard reason
    | .ok s =>
      match s.finalTail with
      | some tail => if s.isReady then s.completeWindow tail else (s, .pending)
      | none => (s, .pending)

/-- The results of chunks accepted one after the other. -/
def WindowAssembler.acceptAll (parse : List Byte → Option TimelineEvent) :
    WindowAssembler → List HistoryChunkFrame → List WindowResult
  | _, [] => []
  | s, chunk :: chunks =>
    let (s, result) := s.accept parse chunk
    result :: s.acceptAll parse chunks

/-! ## The chunks of a window -/

/-- A chunk as the browser reads it. -/
def readChunk (read : Protocol.TimelineEvent → TimelineEvent) (chunk : HistoryChunk) :
    HistoryChunkFrame where
  targetChannelId := chunk.targetChannelId
  inReplyTo := chunk.inReplyTo
  sessionId := chunk.sessionId
  historyGeneration := chunk.historyGeneration
  snapshotHead := chunk.snapshotHead
  chunkIndex := chunk.chunkIndex
  events := chunk.events.map read
  fragments := chunk.fragments
  tail := chunk.tail

/-- A chunk of a window as it stands at its index. -/
structure WindowChunk (header : ChunkHeader) (tail : ChunkTail) (i : ℕ) (chunk : HistoryChunk) :
    Prop where
  inReplyTo : chunk.inReplyTo = header.requestId
  sessionId : chunk.sessionId = header.sessionId
  historyGeneration : chunk.historyGeneration = header.historyGeneration
  snapshotHead : chunk.snapshotHead = header.snapshotHead
  chunkIndex : chunk.chunkIndex = i
  tail : chunk.tail = tail
  encodes : chunk.encodes = true

/-- The chunks into which the events of a window were cut. -/
structure IsWindow (header : ChunkHeader) (events : List Protocol.TimelineEvent)
    (nextBefore : Option String) (chunks : List HistoryChunk) : Prop where
  ne : chunks ≠ []
  chunk : ∀ i c, chunks[i]? = some c →
    WindowChunk header (if i + 1 = chunks.length then pageTail nextBefore else .more) i c
  whole : chunks.flatMap HistoryChunk.events = events.filter (sentWhole header nextBefore)
  cut : chunks.flatMap HistoryChunk.fragments =
    (events.filter fun e => !sentWhole header nextBefore e).flatMap fragmentsOf
  few : chunks.length ≤ (events.flatMap (recordItems header nextBefore)).length + 1

theorem getElem?_chunksFrom (header : ChunkHeader) (nextBefore : Option String)
    (payloads : List Payload) :
    ∀ index i, (chunksFrom header nextBefore index payloads)[i]? =
      payloads[i]?.map fun payload =>
        makeChunk header payload (i + 1 = payloads.length) nextBefore (index + i) := by
  induction payloads with
  | nil => simp [chunksFrom]
  | cons payload payloads ih =>
    intro index i
    cases i with
    | zero =>
      have hlast : payloads.isEmpty = decide (0 + 1 = (payload :: payloads).length) := by
        cases payloads <;> simp
      rw [chunksFrom, List.getElem?_cons_zero, List.getElem?_cons_zero, Option.map_some, hlast]
      rfl
    | succ i =>
      rw [chunksFrom, List.getElem?_cons_succ, List.getElem?_cons_succ, ih]
      have hindex : index + 1 + i = index + (i + 1) := by omega
      simp only [hindex, List.length_cons, Nat.add_right_cancel_iff]

theorem length_packItems_le {fits : Payload → Bool} {items : List HistoryItem}
    {payloads out : List Payload} {current : Payload}
    (h : packItems fits items payloads current = .ok out) :
    out.length ≤ payloads.length + items.length + 1 := by
  induction items generalizing payloads current with
  | nil =>
    simp only [packItems, Except.ok.injEq] at h
    rw [← h]
    split_ifs <;> simp
  | cons item items ih =>
    simp only [packItems] at h
    split_ifs at h with h1 h2
    · have := ih h
      rw [List.length_cons]
      omega
    · have := ih h
      rw [List.length_append, List.length_singleton] at this
      rw [List.length_cons]
      omega

theorem isWindow_of_fragmentWindow {header : ChunkHeader} {events : List Protocol.TimelineEvent}
    {nextBefore : Option String} {chunks : List HistoryChunk}
    (h : fragmentWindow header events nextBefore = .ok chunks) :
    IsWindow header events nextBefore chunks := by
  obtain ⟨payloads, hp, hc⟩ := fragmentWindow_eq_ok.mp h
  obtain ⟨rfl, hencodes⟩ := makeChunks_ok_iff.mp hc
  obtain ⟨hevents, hfragments⟩ := packItems_items hp
  obtain ⟨hevents', hfragments'⟩ := flatMap_chunksFrom header nextBefore 0 payloads
  have hlength : (chunksFrom header nextBefore 0 payloads).length = payloads.length := by
    have hget := getElem?_chunksFrom header nextBefore payloads 0
    refine Nat.le_antisymm ?_ ?_
    · rw [← List.getElem?_eq_none_iff, hget, List.getElem?_eq_none le_rfl]
      rfl
    · rw [← List.getElem?_eq_none_iff, ← Option.map_eq_none_iff, ← hget,
        List.getElem?_eq_none le_rfl]
  refine ⟨?_, ?_, ?_, ?_, ?_⟩
  · intro hnil
    rw [hnil] at hlength
    exact packItems_ne_nil hp (List.length_eq_zero_iff.mp hlength.symm)
  · intro i c hi
    have henc := (hencodes c (List.mem_of_getElem? hi)).2
    rw [getElem?_chunksFrom] at hi
    obtain ⟨payload, -, rfl⟩ := Option.map_eq_some_iff.mp hi
    rw [hlength]
    refine ⟨rfl, rfl, rfl, rfl, Nat.zero_add i, ?_, henc⟩
    cases nextBefore <;> simp [makeChunk, pageTail]
  · rw [hevents', hevents, recordItems_events]
    rfl
  · rw [hfragments', hfragments, recordItems_fragments]
    rfl
  · have := length_packItems_le hp
    rw [hlength]
    simpa using this

/-! ## What the chunks have brought -/

/-- The content of a window of which the events `W` have come whole and the fragments `F`
    of the cut events. -/
structure Holding (whole cut : List Protocol.TimelineEvent)
    (read : Protocol.TimelineEvent → TimelineEvent) (W : List Protocol.TimelineEvent)
    (F : List HistoryFragment) (c : WindowContent) : Prop where
  wholes : ∀ e ∈ W, e ∈ whole
  cuts : ∀ f ∈ F, ∃ e ∈ cut, f ∈ fragmentsOf e
  formal : c.formalEventIds = (W.map Protocol.TimelineEvent.eventId).toFinset
  completeWhole : ∀ e ∈ whole, c.completeEvents.get? e.eventId = if e ∈ W then some (read e) else none
  completeCut : ∀ e ∈ cut, c.completeEvents.get? e.eventId =
    if gotOf F e = allIndices e then some (read e) else none
  completeKeys : ∀ id event, c.completeEvents.get? id = some event →
    id ∈ (whole ++ cut).map Protocol.TimelineEvent.eventId
  progress : ∀ e ∈ cut, Progress (c.fragmentStates.get? e.eventId) e (gotOf F e)
  stateKeys : ∀ id state, c.fragmentStates.get? id = some state →
    id ∈ cut.map Protocol.TimelineEvent.eventId

section Content

variable {parse : List Byte → Option TimelineEvent}
  {read : Protocol.TimelineEvent → TimelineEvent} {scope : TransferScope}
  {whole cut W : List Protocol.TimelineEvent} {F : List HistoryFragment} {c : WindowContent}
  {e : Protocol.TimelineEvent} {f : HistoryFragment}

theorem holding_empty (whole cut : List Protocol.TimelineEvent)
    (read : Protocol.TimelineEvent → TimelineEvent) :
    Holding whole cut read [] [] ⟨.empty, .empty, ∅⟩ where
  wholes e he := by cases he
  cuts f hf := by cases hf
  formal := rfl
  completeWhole e _ := by simp
  completeCut e _ := by simp [(allIndices_ne_empty e).symm]
  completeKeys id event h := by cases h
  progress e _ := by simp [Progress]
  stateKeys id state h := by cases h

/-- Whole and cut events have different ids. -/
theorem eventId_ne (hdistinct : ((whole ++ cut).map Protocol.TimelineEvent.eventId).Nodup)
    {e' : Protocol.TimelineEvent} (he : e ∈ whole) (he' : e' ∈ cut) : e.eventId ≠ e'.eventId := by
  rw [List.map_append, List.nodup_append] at hdistinct
  exact hdistinct.2.2 _ (List.mem_map_of_mem he) _ (List.mem_map_of_mem he')

theorem nodup_cut (hdistinct : ((whole ++ cut).map Protocol.TimelineEvent.eventId).Nodup) :
    (cut.map Protocol.TimelineEvent.eventId).Nodup := by
  rw [List.map_append] at hdistinct
  exact (List.nodup_append.mp hdistinct).2.1

theorem eq_of_eventId (hdistinct : ((whole ++ cut).map Protocol.TimelineEvent.eventId).Nodup)
    {e' : Protocol.TimelineEvent} (he : e ∈ whole ++ cut) (he' : e' ∈ whole ++ cut)
    (hid : e.eventId = e'.eventId) : e = e' :=
  List.inj_on_of_nodup_map hdistinct he he' hid

/-- A whole event that has not come is taken. -/
theorem Holding.takeEvent (h : Holding whole cut read W F c)
    (hdistinct : ((whole ++ cut).map Protocol.TimelineEvent.eventId).Nodup)
    (hreads : Reads parse read scope (whole ++ cut)) (he : e ∈ whole) (hnew : e ∉ W)
    (hlen : (read e).json.length ≤ maxWindowDecodeBytes) :
    ∃ c', takeEvent scope c (read e) = .ok c' ∧ Holding whole cut read (W ++ [e]) F c' := by
  have hmem : e ∈ whole ++ cut := List.mem_append_left _ he
  have hid := hreads.eventId e hmem
  have hformal : e.eventId ∉ c.formalEventIds := by
    rw [h.formal, List.mem_toFinset]
    intro hin
    obtain ⟨e', he', heq⟩ := List.mem_map.mp hin
    have := eq_of_eventId hdistinct (List.mem_append_left _ (h.wholes e' he')) hmem heq
    exact hnew (this ▸ he')
  have hcomplete : c.completeEvents.contains e.eventId = false := by
    rw [OrderedMap.contains, h.completeWhole e he, if_neg hnew]
    rfl
  have hstate : c.fragmentStates.contains e.eventId = false := by
    rw [Bool.eq_false_iff]
    intro hin
    obtain ⟨state, hget⟩ := OrderedMap.contains_iff.mp hin
    obtain ⟨e', he', heq⟩ := List.mem_map.mp (h.stateKeys _ _ hget)
    exact eventId_ne hdistinct he he' heq.symm
  have hcheck : ¬ ((read e).sessionId ≠ scope.sessionId ∨
      (read e).historyGeneration ≠ scope.historyGeneration ∨
      (read e).eventId ∈ c.formalEventIds ∨ c.completeEvents.contains (read e).eventId = true ∨
      c.fragmentStates.contains (read e).eventId = true) := by
    rw [hid, hreads.sessionId e hmem, hreads.historyGeneration e hmem]
    simp [hformal, hcomplete, hstate]
  refine ⟨{ c with
      formalEventIds := insert e.eventId c.formalEventIds
      completeEvents := c.completeEvents.set e.eventId (read e) }, ?_, ?_⟩
  · unfold Pwa.takeEvent
    rw [if_neg (by omega), if_neg hcheck, hid]
  · refine ⟨?_, h.cuts, ?_, ?_, ?_, ?_, h.progress, h.stateKeys⟩
    · intro e' he'
      rcases List.mem_append.mp he' with he' | he'
      · exact h.wholes e' he'
      · exact List.mem_singleton.mp he' ▸ he
    · dsimp only
      rw [h.formal]
      ext id
      simp
    · intro e' he'
      dsimp only
      rw [OrderedMap.get?_set]
      by_cases heq : e' = e
      · simp [heq]
      · have hne : e'.eventId ≠ e.eventId := fun hid =>
          heq (eq_of_eventId hdistinct (List.mem_append_left _ he') hmem hid)
        rw [if_neg hne, h.completeWhole e' he']
        simp [heq]
    · intro e' he'
      dsimp only
      rw [OrderedMap.get?_set_of_ne _ _ (eventId_ne hdistinct he he').symm, h.completeCut e' he']
    · intro id event hget
      dsimp only at hget
      rw [OrderedMap.get?_set] at hget
      split_ifs at hget with heq
      · rw [heq]
        exact List.mem_map_of_mem hmem
      · exact h.completeKeys id event hget

/-- What is held after one more fragment, when nothing changes for the other ids. -/
theorem Holding.snoc (h : Holding whole cut read W F c)
    (hdistinct : ((whole ++ cut).map Protocol.TimelineEvent.eventId).Nodup) (he : e ∈ cut)
    (hf : f ∈ fragmentsOf e) {states : FragmentStates}
    {completeEvents : OrderedMap String TimelineEvent}
    (hstates : ∀ id, id ≠ e.eventId → states.get? id = c.fragmentStates.get? id)
    (hprogress : Progress (states.get? e.eventId) e (insert f.index (gotOf F e)))
    (hevents : ∀ id, id ≠ e.eventId → completeEvents.get? id = c.completeEvents.get? id)
    (hcomplete : completeEvents.get? e.eventId =
      if insert f.index (gotOf F e) = allIndices e then some (read e) else none) :
    Holding whole cut read W (F ++ [f]) ⟨states, completeEvents, c.formalEventIds⟩ where
  wholes := h.wholes
  cuts g hg := by
    rcases List.mem_append.mp hg with hg | hg
    · exact h.cuts g hg
    · exact ⟨e, he, List.mem_singleton.mp hg ▸ hf⟩
  formal := h.formal
  completeWhole e' he' := by
    dsimp only
    rw [hevents _ (eventId_ne hdistinct he' he), h.completeWhole e' he']
  completeCut e' he' := by
    by_cases heq : e' = e
    · rw [heq, gotOf_snoc_self hf]
      exact hcomplete
    · have hne : e'.eventId ≠ e.eventId := fun hid => heq (eq_of_eventId hdistinct
        (List.mem_append_right _ he') (List.mem_append_right _ he) hid)
      rw [gotOf_snoc_ne (nodup_cut hdistinct) he hf he' heq]
      exact (hevents _ hne).trans (h.completeCut e' he')
  completeKeys id event hget := by
    by_cases heq : id = e.eventId
    · rw [heq]
      exact List.mem_map_of_mem (List.mem_append_right _ he)
    · exact h.completeKeys id event ((hevents id heq).symm.trans hget)
  progress e' he' := by
    by_cases heq : e' = e
    · rw [heq, gotOf_snoc_self hf]
      exact hprogress
    · have hne : e'.eventId ≠ e.eventId := fun hid => heq (eq_of_eventId hdistinct
        (List.mem_append_right _ he') (List.mem_append_right _ he) hid)
      rw [gotOf_snoc_ne (nodup_cut hdistinct) he hf he' heq]
      dsimp only
      rw [hstates _ hne]
      exact h.progress e' he'
  stateKeys id state hget := by
    by_cases heq : id = e.eventId
    · rw [heq]
      exact List.mem_map_of_mem he
    · exact h.stateKeys id state ((hstates id heq).symm.trans hget)

/-- A fragment that has not come is taken. -/
theorem Holding.takeFragment (h : Holding whole cut read W F c)
    (hdistinct : ((whole ++ cut).map Protocol.TimelineEvent.eventId).Nodup)
    (hreads : Reads parse read scope (whole ++ cut)) (he : e ∈ cut) (hf : f ∈ fragmentsOf e)
    (hnew : f ∉ F) (hbytes : e.bytes ≤ maxWindowDecodeBytes) :
    ∃ c', takeFragment parse scope c f = .ok c' ∧
      Holding whole cut read W (F ++ [f]) c' := by
  have hmem : e ∈ whole ++ cut := List.mem_append_right _ he
  have hid := eventId_of_mem_fragmentsOf hf
  have hgot : gotOf F e ≠ allIndices e := fun hall =>
    hnew ((gotOf_eq_all h.cuts (nodup_cut hdistinct) he).mp hall f hf)
  have hformal : e.eventId ∉ c.formalEventIds := by
    rw [h.formal, List.mem_toFinset]
    intro hin
    obtain ⟨e', he', heq⟩ := List.mem_map.mp hin
    exact eventId_ne hdistinct (h.wholes e' he') he heq
  have hget : c.completeEvents.get? e.eventId = none := by rw [h.completeCut e he, if_neg hgot]
  have hcomplete : c.completeEvents.contains e.eventId = false := by
    rw [OrderedMap.contains, hget]
    rfl
  obtain ⟨st, added, hadd, hholds, hadded⟩ := addFragment_next hbytes hf hgot (h.progress e he)
  have hfinish := finishFragment_of_holds hreads hmem
    (OrderedMap.get?_set_self c.fragmentStates _ st) hholds
  unfold Pwa.takeFragment
  rw [hid, if_neg (by simp [hformal, hcomplete]), hadd]
  have hmatch : ∀ (onNone : Except String WindowContent)
      (onReason : String → Except String WindowContent)
      (onStates : FragmentStates → Except String WindowContent) (states : FragmentStates),
      (match some (states, added) with
        | none => onNone
        | some (_, some (.discarded reason)) => onReason reason
        | some (states, _) => onStates states) = onStates states := by
    intro _ _ _ _
    rcases hadded with rfl | rfl <;> rfl
  rw [hmatch, hfinish]
  by_cases hall : insert f.index (gotOf F e) = allIndices e
  · rw [if_pos hall]
    dsimp only
    rw [hreads.eventId e hmem, if_neg (by simp [hcomplete])]
    refine ⟨_, rfl, h.snoc hdistinct he hf (fun id hne => ?_) ?_ (fun id hne => ?_) ?_⟩
    · rw [OrderedMap.get?_erase_of_ne _ hne, OrderedMap.get?_set_of_ne _ _ hne]
    · rw [OrderedMap.get?_erase_self, Progress, if_pos (Or.inr hall)]
    · rw [OrderedMap.get?_set_of_ne _ _ hne]
    · rw [OrderedMap.get?_set_self, if_pos hall]
  · rw [if_neg hall]
    refine ⟨_, rfl, h.snoc hdistinct he hf (fun id hne => ?_) ?_ (fun id _ => rfl) ?_⟩
    · rw [OrderedMap.get?_set_of_ne _ _ hne]
    · rw [OrderedMap.get?_set_self, Progress, if_neg]
      · exact ⟨st, rfl, hholds⟩
      · rintro (hempty | hfull)
        · exact Finset.insert_ne_empty _ _ hempty
        · exact hall hfull
    · rw [hget, if_neg hall]

/-- The whole events of a chunk. -/
theorem Holding.takeEvents (hdistinct : ((whole ++ cut).map Protocol.TimelineEvent.eventId).Nodup)
    (hreads : Reads parse read scope (whole ++ cut)) {es : List Protocol.TimelineEvent}
    (h : Holding whole cut read W F c) (hes : ∀ e ∈ es, e ∈ whole) (hnew : (W ++ es).Nodup)
    (hlen : ∀ e ∈ es, (read e).json.length ≤ maxWindowDecodeBytes) :
    ∃ c', (es.map read).foldlM (Pwa.takeEvent scope) c = .ok c' ∧
      Holding whole cut read (W ++ es) F c' := by
  induction es generalizing W c with
  | nil => exact ⟨c, rfl, by rwa [List.append_nil]⟩
  | cons e es ih =>
    have hsplit : W ++ e :: es = (W ++ [e]) ++ es := by simp
    rw [hsplit] at hnew ⊢
    have hfresh : e ∉ W := by
      intro he
      exact (List.nodup_append.mp (List.nodup_append.mp hnew).1).2.2 e he e
        List.mem_cons_self rfl
    obtain ⟨c', htake, h'⟩ := h.takeEvent hdistinct hreads (hes e List.mem_cons_self) hfresh
      (hlen e List.mem_cons_self)
    obtain ⟨c'', hrest, h''⟩ := ih h' (fun e' he' => hes e' (List.mem_cons_of_mem _ he')) hnew
      fun e' he' => hlen e' (List.mem_cons_of_mem _ he')
    refine ⟨c'', ?_, h''⟩
    rw [List.map_cons, List.foldlM_cons, htake]
    exact hrest

/-- The fragments of a chunk. -/
theorem Holding.takeFragments
    (hdistinct : ((whole ++ cut).map Protocol.TimelineEvent.eventId).Nodup)
    (hreads : Reads parse read scope (whole ++ cut)) {fs : List HistoryFragment}
    (h : Holding whole cut read W F c)
    (hfs : ∀ f ∈ fs, ∃ e ∈ cut, f ∈ fragmentsOf e ∧ e.bytes ≤ maxWindowDecodeBytes)
    (hnew : (F ++ fs).Nodup) :
    ∃ c', fs.foldlM (Pwa.takeFragment parse scope) c = .ok c' ∧
      Holding whole cut read W (F ++ fs) c' := by
  induction fs generalizing F c with
  | nil => exact ⟨c, rfl, by rwa [List.append_nil]⟩
  | cons f fs ih =>
    have hsplit : F ++ f :: fs = (F ++ [f]) ++ fs := by simp
    rw [hsplit] at hnew ⊢
    have hfresh : f ∉ F := by
      intro hf
      exact (List.nodup_append.mp (List.nodup_append.mp hnew).1).2.2 f hf f
        List.mem_cons_self rfl
    obtain ⟨e, he, hf, hbytes⟩ := hfs f List.mem_cons_self
    obtain ⟨c', htake, h'⟩ := h.takeFragment hdistinct hreads he hf hfresh hbytes
    obtain ⟨c'', hrest, h''⟩ := ih h' (fun g hg => hfs g (List.mem_cons_of_mem _ hg)) hnew
    refine ⟨c'', ?_, h''⟩
    rw [List.foldlM_cons, htake]
    exact hrest

end Content

/-! ## The window after some of its chunks -/

/-- The events of a window and what the browser reads of them. -/
structure Transfer (parse : List Byte → Option TimelineEvent)
    (read : Protocol.TimelineEvent → TimelineEvent) (header : ChunkHeader)
    (events : List Protocol.TimelineEvent) : Prop where
  distinct : (events.map Protocol.TimelineEvent.eventId).Nodup
  bytes : (events.map Protocol.TimelineEvent.bytes).sum ≤ maxWindowDecodeBytes
  reads : Reads parse read ⟨header.sessionId, header.historyGeneration⟩ events
  length : ∀ e ∈ events, (read e).json.length = e.bytes

/-- The events that go out whole, and the others. -/
def wholeEvents (header : ChunkHeader) (nextBefore : Option String)
    (events : List Protocol.TimelineEvent) : List Protocol.TimelineEvent :=
  events.filter (sentWhole header nextBefore)

def cutEvents (header : ChunkHeader) (nextBefore : Option String)
    (events : List Protocol.TimelineEvent) : List Protocol.TimelineEvent :=
  events.filter fun e => !sentWhole header nextBefore e

/-- The decoded bytes of a chunk. -/
def contentBytes (chunk : HistoryChunk) : ℕ :=
  (chunk.events.map Protocol.TimelineEvent.bytes).sum +
    (chunk.fragments.map fun f => (Base64.decode f.dataBase64.toList).length).sum

/-- The indices of chunks. -/
def indicesOf (chunks : List HistoryChunk) : Finset ℕ :=
  (chunks.map HistoryChunk.chunkIndex).toFinset

/-- The final tail of a page. -/
def pageFinalTail (index : ℕ) (nextBefore : Option String) : FinalTail :=
  ⟨index, nextBefore.isNone, nextBefore⟩

/-- The assembler after the chunks `P` of a window. -/
structure Taken (read : Protocol.TimelineEvent → TimelineEvent) (header : ChunkHeader)
    (events : List Protocol.TimelineEvent) (nextBefore : Option String)
    (chunks P : List HistoryChunk) (s : WindowAssembler) : Prop where
  inReplyTo : s.inReplyTo = header.requestId
  state : s.state = .open
  expectedScope : s.expectedScope = none ∨
    s.expectedScope = some ⟨header.sessionId, header.historyGeneration⟩
  scope : s.scope = none ∨
    s.scope = some ⟨⟨header.sessionId, header.historyGeneration⟩, header.snapshotHead⟩
  gathers : Gathers s.chunks (chunks.map (readChunk read)) (indicesOf P)
  finalTail : s.finalTail = if chunks.length - 1 ∈ indicesOf P then
    some (pageFinalTail (chunks.length - 1) nextBefore) else none
  bytes : s.totalDecodedBytes = (P.map contentBytes).sum
  content : Holding (wholeEvents header nextBefore events) (cutEvents header nextBefore events)
    read (P.flatMap HistoryChunk.events) (P.flatMap HistoryChunk.fragments) s.content

section Window

variable {parse : List Byte → Option TimelineEvent}
  {read : Protocol.TimelineEvent → TimelineEvent} {header : ChunkHeader}
  {events : List Protocol.TimelineEvent} {nextBefore : Option String}
  {chunks P rest : List HistoryChunk} {chunk : HistoryChunk} {e : Protocol.TimelineEvent}
  {s : WindowAssembler}

theorem wholeEvents_append_perm (header : ChunkHeader) (nextBefore : Option String)
    (events : List Protocol.TimelineEvent) :
    (wholeEvents header nextBefore events ++ cutEvents header nextBefore events).Perm events :=
  List.filter_append_perm _ _

theorem Transfer.distinct_append (h : Transfer parse read header events) :
    ((wholeEvents header nextBefore events ++ cutEvents header nextBefore events).map
      Protocol.TimelineEvent.eventId).Nodup :=
  ((wholeEvents_append_perm header nextBefore events).map _).nodup_iff.mpr h.distinct

theorem Transfer.reads_append (h : Transfer parse read header events) :
    Reads parse read ⟨header.sessionId, header.historyGeneration⟩
      (wholeEvents header nextBefore events ++ cutEvents header nextBefore events) := by
  have hsub : ∀ e ∈ wholeEvents header nextBefore events ++ cutEvents header nextBefore events,
      e ∈ events := fun e he => (wholeEvents_append_perm header nextBefore events).mem_iff.mp he
  exact ⟨fun e he => h.reads.parse e (hsub e he), fun e he => h.reads.eventId e (hsub e he),
    fun e he => h.reads.sessionId e (hsub e he),
    fun e he => h.reads.historyGeneration e (hsub e he)⟩

theorem Transfer.bytes_le (h : Transfer parse read header events) (he : e ∈ events) :
    e.bytes ≤ maxWindowDecodeBytes :=
  (List.single_le_sum (fun _ _ => Nat.zero_le _) _ (List.mem_map_of_mem he)).trans h.bytes

/-! ### Sizes -/

theorem sum_contentBytes (l : List HistoryChunk) :
    (l.map contentBytes).sum =
      ((l.flatMap HistoryChunk.events).map Protocol.TimelineEvent.bytes).sum +
        ((l.flatMap HistoryChunk.fragments).map fun f =>
          (Base64.decode f.dataBase64.toList).length).sum := by
  induction l with
  | nil => rfl
  | cons chunk l ih =>
    simp only [List.map_cons, List.sum_cons, List.flatMap_cons, List.map_append, List.sum_append,
      ih, contentBytes]
    omega

theorem sum_decoded_fragmentsOf (l : List Protocol.TimelineEvent) :
    ((l.flatMap fragmentsOf).map fun f => (Base64.decode f.dataBase64.toList).length).sum =
      (l.map Protocol.TimelineEvent.bytes).sum := by
  induction l with
  | nil => rfl
  | cons e l ih =>
    have hone : ((fragmentsOf e).map fun f => (Base64.decode f.dataBase64.toList).length).sum =
        e.bytes := by
      rw [Protocol.TimelineEvent.bytes, ← flatMap_decode_fragmentsFrom e.eventId 0 e.encoded,
        List.length_flatMap]
      rfl
    rw [List.flatMap_cons, List.map_append, List.sum_append, ih, hone, List.map_cons,
      List.sum_cons]

/-- The chunks of a window carry the bytes of its events. -/
theorem IsWindow.sum_contentBytes (h : IsWindow header events nextBefore chunks) :
    (chunks.map contentBytes).sum = (events.map Protocol.TimelineEvent.bytes).sum := by
  rw [Pwa.sum_contentBytes, h.whole, h.cut, sum_decoded_fragmentsOf, ← List.sum_append,
    ← List.map_append]
  exact ((wholeEvents_append_perm header nextBefore events).map _).sum_eq

/-- A window has few chunks. -/
theorem IsWindow.length_le (h : IsWindow header events nextBefore chunks)
    (ht : Transfer parse read header events) : chunks.length ≤ maxSafeInteger := by
  have hitems : ∀ e ∈ events, (recordItems header nextBefore e).length ≤ maxArrayItems := by
    intro e he
    unfold recordItems
    split_ifs
    · simp [maxArrayItems]
    · rw [List.length_map]
      exact length_fragmentsOf_le (ht.bytes_le he)
  have hpos : ∀ n ∈ events.map Protocol.TimelineEvent.bytes, 1 ≤ n := by
    intro n hn
    obtain ⟨e, -, rfl⟩ := List.mem_map.mp hn
    exact List.length_pos_iff.mpr e.encoded_ne
  have hcount := List.card_nsmul_le_sum _ _ hpos
  have hsum := List.sum_le_card_nsmul
    (events.map fun e => (recordItems header nextBefore e).length) maxArrayItems (by
      intro n hn
      obtain ⟨e, he, rfl⟩ := List.mem_map.mp hn
      exact hitems e he)
  have hfew := h.few
  have hbytes := ht.bytes
  rw [List.length_flatMap] at hfew
  rw [List.length_map, smul_eq_mul] at hcount hsum
  simp only [maxWindowDecodeBytes, maxArrayItems, maxSafeInteger] at *
  omega

/-! ### Chunks -/

/-- A chunk stands at its index. -/
theorem IsWindow.getElem?_index (h : IsWindow header events nextBefore chunks)
    (hc : chunk ∈ chunks) : chunks[chunk.chunkIndex]? = some chunk := by
  obtain ⟨i, hi⟩ := List.mem_iff_getElem?.mp hc
  rwa [(h.chunk i chunk hi).chunkIndex]

theorem IsWindow.index_lt (h : IsWindow header events nextBefore chunks) (hc : chunk ∈ chunks) :
    chunk.chunkIndex < chunks.length :=
  (List.getElem?_eq_some_iff.mp (h.getElem?_index hc)).1

theorem IsWindow.eq_of_index (h : IsWindow header events nextBefore chunks) {chunk' : HistoryChunk}
    (hc : chunk ∈ chunks) (hc' : chunk' ∈ chunks) (hindex : chunk.chunkIndex = chunk'.chunkIndex) :
    chunk = chunk' := by
  have hget := h.getElem?_index hc
  rw [hindex, h.getElem?_index hc'] at hget
  exact (Option.some.inj hget).symm

theorem IsWindow.mem_whole (h : IsWindow header events nextBefore chunks) (hc : chunk ∈ chunks)
    (he : e ∈ chunk.events) : e ∈ wholeEvents header nextBefore events := by
  rw [wholeEvents, ← h.whole]
  exact List.mem_flatMap.mpr ⟨chunk, hc, he⟩

theorem IsWindow.mem_cut (h : IsWindow header events nextBefore chunks) (hc : chunk ∈ chunks)
    {f : HistoryFragment} (hf : f ∈ chunk.fragments) :
    ∃ e ∈ cutEvents header nextBefore events, f ∈ fragmentsOf e := by
  have hmem : f ∈ chunks.flatMap HistoryChunk.fragments := List.mem_flatMap.mpr ⟨chunk, hc, hf⟩
  rw [h.cut] at hmem
  exact List.mem_flatMap.mp hmem

theorem mem_of_mem_whole (he : e ∈ wholeEvents header nextBefore events) : e ∈ events :=
  List.mem_of_mem_filter he

theorem mem_of_mem_cut (he : e ∈ cutEvents header nextBefore events) : e ∈ events :=
  List.mem_of_mem_filter he

theorem IsWindow.map_length_read (h : IsWindow header events nextBefore chunks)
    (ht : Transfer parse read header events) (hc : chunk ∈ chunks) :
    (readChunk read chunk).events.map (fun event => event.json.length) =
      chunk.events.map Protocol.TimelineEvent.bytes := by
  rw [readChunk, List.map_map]
  exact List.map_congr_left fun e he => ht.length e (mem_of_mem_whole (h.mem_whole hc he))

theorem IsWindow.jsonBytes_readChunk (h : IsWindow header events nextBefore chunks)
    (ht : Transfer parse read header events) (hc : chunk ∈ chunks) :
    (readChunk read chunk).jsonBytes = chunk.jsonBytes := by
  unfold HistoryChunkFrame.jsonBytes
  rw [h.map_length_read ht hc]
  rfl

theorem IsWindow.schemaChunk (h : IsWindow header events nextBefore chunks)
    (ht : Transfer parse read header events) (hc : chunk ∈ chunks) :
    Pwa.schemaChunk (readChunk read chunk) = true := by
  have hencodes := (h.chunk _ _ (h.getElem?_index hc)).encodes
  have hindex : chunk.chunkIndex ≤ maxSafeInteger :=
    (h.index_lt hc).le.trans (h.length_le ht)
  have hfragments : (chunk.fragments.all schemaFragment) = true := by
    refine List.all_eq_true.mpr fun f hf => ?_
    obtain ⟨e, he, hmem⟩ := h.mem_cut hc hf
    exact schemaFragment_of_mem (ht.bytes_le (mem_of_mem_cut he)) hmem
  have hids : (readChunk read chunk).idsDisjoint = chunk.idsDisjoint := by
    unfold HistoryChunkFrame.idsDisjoint HistoryChunk.idsDisjoint readChunk
    rw [List.all_map]
    congr 1
    rw [Bool.eq_iff_iff, List.all_eq_true, List.all_eq_true]
    refine forall₂_congr fun e he => ?_
    rw [Function.comp_apply, ht.reads.eventId e (mem_of_mem_whole (h.mem_whole hc he))]
  simp only [HistoryChunk.encodes, Bool.and_eq_true, decide_eq_true_eq] at hencodes
  unfold Pwa.schemaChunk
  rw [hids]
  simp [readChunk, hencodes, hindex, hfragments]

theorem IsWindow.decodeFragment (h : IsWindow header events nextBefore chunks)
    (ht : Transfer parse read header events) (hc : chunk ∈ chunks) {f : HistoryFragment}
    (hf : f ∈ chunk.fragments) :
    Pwa.decodeFragment f = some (Base64.decode f.dataBase64.toList) := by
  obtain ⟨e, he, hmem⟩ := h.mem_cut hc hf
  exact decodeFragment_of_mem (ht.bytes_le (mem_of_mem_cut he)) hmem

theorem IsWindow.chunkSizeValid (h : IsWindow header events nextBefore chunks)
    (ht : Transfer parse read header events) (hc : chunk ∈ chunks) :
    Pwa.chunkSizeValid (readChunk read chunk) = true := by
  have hencodes := (h.chunk _ _ (h.getElem?_index hc)).encodes
  simp only [HistoryChunk.encodes, Bool.and_eq_true, decide_eq_true_eq] at hencodes
  have hfragments : ((readChunk read chunk).fragments.all fun f =>
      (Pwa.decodeFragment f).isSome) = true := by
    refine List.all_eq_true.mpr fun f hf => ?_
    rw [h.decodeFragment ht hc hf]
    rfl
  unfold Pwa.chunkSizeValid
  rw [h.schemaChunk ht hc, h.jsonBytes_readChunk ht hc, hfragments]
  simp [hencodes]

theorem decodedFragmentBytes_eq {fs : List HistoryFragment}
    (h : ∀ f ∈ fs, Pwa.decodeFragment f = some (Base64.decode f.dataBase64.toList)) :
    decodedFragmentBytes fs =
      some (fs.map fun f => (Base64.decode f.dataBase64.toList).length).sum := by
  have hmap : fs.mapM Pwa.decodeFragment =
      some (fs.map fun f => Base64.decode f.dataBase64.toList) := by
    induction fs with
    | nil => rfl
    | cons f fs ih =>
      rw [List.mapM_cons, h f List.mem_cons_self, ih fun g hg => h g (List.mem_cons_of_mem _ hg)]
      rfl
  rw [decodedFragmentBytes, hmap, Option.map_some, List.map_map]
  rfl

/-- The bytes of a chunk as the browser counts them. -/
theorem IsWindow.contentBytes_eq (h : IsWindow header events nextBefore chunks)
    (ht : Transfer parse read header events) (hc : chunk ∈ chunks) :
    ((readChunk read chunk).events.map fun event => event.json.length).sum +
      (chunk.fragments.map fun f => (Base64.decode f.dataBase64.toList).length).sum =
        contentBytes chunk := by
  rw [h.map_length_read ht hc]
  rfl

/-! ### One more chunk -/

theorem IsWindow.nodup (h : IsWindow header events nextBefore chunks) : chunks.Nodup := by
  rw [List.nodup_iff_getElem?_ne_getElem?]
  intro i j hij hj heq
  have hget : chunks[j]? = some chunks[j] := List.getElem?_eq_getElem hj
  have hi := (h.chunk i _ (heq.trans hget)).chunkIndex
  rw [(h.chunk j _ hget).chunkIndex] at hi
  omega

theorem indicesOf_snoc (P : List HistoryChunk) (chunk : HistoryChunk) :
    indicesOf (P ++ [chunk]) = insert chunk.chunkIndex (indicesOf P) := by
  ext i
  simp [indicesOf, eq_comm]

/-- A chunk that has not come brings a new index. -/
theorem IsWindow.index_notMem (h : IsWindow header events nextBefore chunks)
    (hperm : (P ++ chunk :: rest).Perm chunks) : chunk.chunkIndex ∉ indicesOf P := by
  intro hin
  obtain ⟨c, hc, heq⟩ := List.mem_map.mp (List.mem_toFinset.mp hin)
  have hmem : ∀ c ∈ P ++ chunk :: rest, c ∈ chunks := fun c hc => hperm.mem_iff.mp hc
  have hsame := h.eq_of_index (hmem c (List.mem_append_left _ hc)) (hmem chunk (by simp)) heq
  have hnodup := hperm.nodup_iff.mpr h.nodup
  exact (List.nodup_append.mp hnodup).2.2 c hc chunk List.mem_cons_self hsame

/-- Only the last chunk is final. -/
theorem IsWindow.tail_eq (h : IsWindow header events nextBefore chunks) (hc : chunk ∈ chunks) :
    chunk.tail = if chunk.chunkIndex = chunks.length - 1 then pageTail nextBefore else .more := by
  have hlt := h.index_lt hc
  rw [(h.chunk _ _ (h.getElem?_index hc)).tail]
  have hiff : chunk.chunkIndex + 1 = chunks.length ↔ chunk.chunkIndex = chunks.length - 1 := by
    omega
  simp only [hiff]

theorem Taken.admitScope (h : Taken read header events nextBefore chunks P s)
    (hw : IsWindow header events nextBefore chunks) (hc : chunk ∈ chunks) :
    s.admitScope (readChunk read chunk) =
      .ok ⟨⟨header.sessionId, header.historyGeneration⟩, header.snapshotHead⟩ := by
  obtain ⟨-, hsession, hgeneration, hhead, -, -, -⟩ := hw.chunk _ _ (hw.getElem?_index hc)
  unfold WindowAssembler.admitScope readChunk
  rw [hsession, hgeneration, hhead]
  rcases h.expectedScope with hexp | hexp <;> rcases h.scope with hscope | hscope <;>
    simp [hexp, hscope]

theorem Taken.admitTail (h : Taken read header events nextBefore chunks P s)
    (hw : IsWindow header events nextBefore chunks) (hperm : (P ++ chunk :: rest).Perm chunks) :
    s.admitTail (readChunk read chunk) =
      .ok (if chunks.length - 1 ∈ indicesOf (P ++ [chunk]) then
        some (pageFinalTail (chunks.length - 1) nextBefore) else none) := by
  have hc : chunk ∈ chunks := hperm.mem_iff.mp (by simp)
  have hlt := hw.index_lt hc
  have hnew := hw.index_notMem hperm
  have htail := hw.tail_eq hc
  have hcontains : s.chunks.contains chunk.chunkIndex = false := by
    rw [OrderedMap.contains, h.gathers.get?_of_notMem hnew]
    rfl
  have hindices : chunks.length - 1 ∈ indicesOf (P ++ [chunk]) ↔
      chunk.chunkIndex = chunks.length - 1 ∨ chunks.length - 1 ∈ indicesOf P := by
    rw [indicesOf_snoc, Finset.mem_insert, eq_comm]
  have hkeys : (s.chunks.keys.any fun k => decide (chunks.length - 1 < k)) = false := by
    rw [List.any_eq_false]
    intro k hk
    have hmem : k ∈ indicesOf P := by
      rw [← h.gathers.toFinset_keys]
      exact List.mem_toFinset.mpr hk
    have := Finset.mem_range.mp (h.gathers.subset hmem)
    rw [List.length_map] at this
    simp only [decide_eq_true_eq, not_lt]
    omega
  unfold WindowAssembler.admitTail
  by_cases hlast : chunk.chunkIndex = chunks.length - 1
  · rw [if_pos hlast] at htail
    rw [if_pos (hindices.mpr (Or.inl hlast))]
    have hnone : s.finalTail = none := by rw [h.finalTail, if_neg (hlast ▸ hnew)]
    rw [hlast] at hcontains
    simp only [readChunk, hcontains, hnone, hlast, hkeys, htail]
    cases nextBefore <;> simp [pageTail, pageFinalTail]
  · rw [if_neg hlast] at htail
    have hle : ¬ chunks.length - 1 < chunk.chunkIndex := by omega
    simp only [readChunk, hcontains, htail, hindices, hlast, false_or, h.finalTail]
    by_cases hseen : chunks.length - 1 ∈ indicesOf P <;>
      simp [hseen, pageFinalTail, hle]

theorem nodup_flatMap_before {α β : Type*} {l l' rest : List α} {a : α} (g : α → List β)
    (hperm : (l ++ a :: rest).Perm l') (hn : (l'.flatMap g).Nodup) :
    (l.flatMap g ++ g a).Nodup := by
  have hall := (hperm.flatMap_right g).nodup_iff.mpr hn
  rw [List.flatMap_append, List.flatMap_cons, ← List.append_assoc] at hall
  exact (List.nodup_append.mp hall).1

/-- What is left after the checks of `take`. -/
theorem WindowAssembler.take_eq {frame : HistoryChunkFrame} {scope : HistoryScope}
    {finalTail : Option FinalTail} {n : ℕ} {c c' : WindowContent}
    (hschema : Pwa.schemaChunk frame = true) (hsize : Pwa.chunkSizeValid frame = true)
    (hscope : s.admitScope frame = .ok scope) (htail : s.admitTail frame = .ok finalTail)
    (hdecoded : decodedFragmentBytes frame.fragments = some n)
    (htotal : s.totalDecodedBytes + ((frame.events.map fun event => event.json.length).sum + n) ≤
      maxWindowDecodeBytes)
    (hevents : frame.events.foldlM (takeEvent scope.scope) s.content = .ok c)
    (hfragments : frame.fragments.foldlM (takeFragment parse scope.scope) c = .ok c') :
    s.take parse frame = .ok { s with
      chunks := s.chunks.set frame.chunkIndex frame
      content := c'
      scope := some scope
      totalDecodedBytes :=
        s.totalDecodedBytes + ((frame.events.map fun event => event.json.length).sum + n)
      finalTail := finalTail } := by
  unfold WindowAssembler.take
  rw [hschema, hsize, hscope, htail, hdecoded]
  simp only [Bool.not_true, Bool.false_eq_true, if_false, bind, Except.bind]
  rw [if_neg (by omega), hevents]
  dsimp only
  rw [hfragments]
  rfl

/-- One more chunk of a window is taken. -/
theorem Taken.take (h : Taken read header events nextBefore chunks P s)
    (hw : IsWindow header events nextBefore chunks) (ht : Transfer parse read header events)
    (hperm : (P ++ chunk :: rest).Perm chunks) :
    ∃ s', s.take parse (readChunk read chunk) = .ok s' ∧
      Taken read header events nextBefore chunks (P ++ [chunk]) s' := by
  have hc : chunk ∈ chunks := hperm.mem_iff.mp (by simp)
  have hdistinct := @Transfer.distinct_append _ _ _ _ nextBefore ht
  have hwhole : (wholeEvents header nextBefore events).Nodup := by
    rw [List.map_append] at hdistinct
    exact (List.nodup_append.mp hdistinct).1.of_map
  obtain ⟨c, hevents, hcontent⟩ := h.content.takeEvents hdistinct ht.reads_append
    (fun e he => hw.mem_whole hc he)
    (nodup_flatMap_before HistoryChunk.events hperm (by rw [hw.whole]; exact hwhole))
    (fun e he => by
      have hin := mem_of_mem_whole (hw.mem_whole hc he)
      rw [ht.length e hin]
      exact ht.bytes_le hin)
  obtain ⟨c', hfragments, hcontent'⟩ := hcontent.takeFragments hdistinct ht.reads_append
    (fun f hf => by
      obtain ⟨e, he, hfe⟩ := hw.mem_cut hc hf
      exact ⟨e, he, hfe, ht.bytes_le (mem_of_mem_cut he)⟩)
    (nodup_flatMap_before HistoryChunk.fragments hperm (by
      rw [hw.cut]
      exact nodup_flatMap_fragmentsOf (nodup_cut hdistinct)))
  have hsum : ((P ++ [chunk]).map contentBytes).sum = s.totalDecodedBytes + contentBytes chunk := by
    rw [h.bytes, List.map_append, List.sum_append]
    rfl
  have htotal : s.totalDecodedBytes + contentBytes chunk ≤ maxWindowDecodeBytes := by
    have hall := (hperm.map contentBytes).sum_eq
    rw [hw.sum_contentBytes, List.map_append, List.sum_append, List.map_cons, List.sum_cons,
      ← h.bytes] at hall
    have := ht.bytes
    omega
  rw [← hw.contentBytes_eq ht hc] at hsum htotal
  refine ⟨_, WindowAssembler.take_eq (hw.schemaChunk ht hc) (hw.chunkSizeValid ht hc)
    (h.admitScope hw hc) (h.admitTail hw hperm)
    (decodedFragmentBytes_eq fun f hf => hw.decodeFragment ht hc hf) htotal hevents hfragments, ?_⟩
  refine ⟨h.inReplyTo, h.state, h.expectedScope, Or.inr rfl, ?_, rfl, hsum.symm, ?_⟩
  · have hget : (chunks.map (readChunk read))[chunk.chunkIndex]? = some (readChunk read chunk) := by
      rw [List.getElem?_map, hw.getElem?_index hc]
      rfl
    rw [indicesOf_snoc]
    exact h.gathers.set hget
  · rw [List.flatMap_append, List.flatMap_append, List.flatMap_singleton, List.flatMap_singleton]
    exact hcontent'

/-! ### All chunks -/

theorem IsWindow.card_indicesOf (hw : IsWindow header events nextBefore chunks)
    (hperm : (P ++ rest).Perm chunks) : (indicesOf P).card = P.length := by
  have hmem : ∀ c ∈ P, c ∈ chunks := fun c hc => hperm.mem_iff.mp (List.mem_append_left _ hc)
  have hnodup : (P.map HistoryChunk.chunkIndex).Nodup := by
    refine List.Nodup.map_on (fun c hc c' hc' heq => ?_) ?_
    · exact hw.eq_of_index (hmem c hc) (hmem c' hc') heq
    · exact (List.nodup_append.mp (hperm.nodup_iff.mpr hw.nodup)).1
  rw [indicesOf, List.toFinset_card_of_nodup hnodup, List.length_map]

/-- As long as a chunk is missing, the window is not ready. -/
theorem Taken.not_ready (h : Taken read header events nextBefore chunks P s)
    (hw : IsWindow header events nextBefore chunks) (hperm : (P ++ rest).Perm chunks)
    (hrest : rest ≠ []) : s.isReady = false := by
  have hlen := hperm.length_eq
  have hpos := List.length_pos_iff.mpr hrest
  rw [List.length_append] at hlen
  rw [WindowAssembler.isReady, h.finalTail]
  split_ifs with hlast
  · have hne : ¬ chunks.length - 1 + 1 = s.chunks.entries.length := by
      rw [h.gathers.length_entries, hw.card_indicesOf hperm]
      omega
    simp [pageFinalTail, isContiguous, hne]
  · rfl

theorem Taken.indices_all (h : Taken read header events nextBefore chunks P s)
    (hw : IsWindow header events nextBefore chunks) (hperm : P.Perm chunks) :
    indicesOf P = Finset.range (chunks.map (readChunk read)).length := by
  refine h.gathers.all_of_card ?_
  rw [@IsWindow.card_indicesOf _ _ _ _ _ [] hw (by rwa [List.append_nil]), List.length_map]
  exact hperm.length_eq.ge

/-- When all chunks have come, all fragments of an event have. -/
theorem IsWindow.gotOf_all (hw : IsWindow header events nextBefore chunks)
    (ht : Transfer parse read header events) (hperm : P.Perm chunks)
    (he : e ∈ cutEvents header nextBefore events) :
    gotOf (P.flatMap HistoryChunk.fragments) e = allIndices e := by
  have hfragments : (P.flatMap HistoryChunk.fragments).Perm
      ((cutEvents header nextBefore events).flatMap fragmentsOf) := by
    rw [cutEvents, ← hw.cut]
    exact hperm.flatMap_right _
  refine (gotOf_eq_all (fun f hf => ?_) (nodup_cut ht.distinct_append) he).mpr fun f hf => ?_
  · exact List.mem_flatMap.mp (hfragments.mem_iff.mp hf)
  · exact hfragments.mem_iff.mpr (List.mem_flatMap.mpr ⟨e, he, hf⟩)

theorem Taken.ready (h : Taken read header events nextBefore chunks P s)
    (hw : IsWindow header events nextBefore chunks) (ht : Transfer parse read header events)
    (hperm : P.Perm chunks) :
    s.finalTail = some (pageFinalTail (chunks.length - 1) nextBefore) ∧ s.isReady = true := by
  have hpos := List.length_pos_iff.mpr hw.ne
  have hall := h.indices_all hw hperm
  rw [List.length_map] at hall
  have htail : s.finalTail = some (pageFinalTail (chunks.length - 1) nextBefore) := by
    rw [h.finalTail, hall, if_pos (Finset.mem_range.mpr (by omega))]
  refine ⟨htail, ?_⟩
  have hlen : chunks.length - 1 + 1 = s.chunks.entries.length := by
    rw [h.gathers.length_entries, hall, Finset.card_range]
    omega
  have hcontains : ∀ i ∈ List.range (chunks.length - 1 + 1), s.chunks.contains i = true := by
    intro i hi
    have hlt : i < chunks.length := by
      have := List.mem_range.mp hi
      omega
    rw [OrderedMap.contains, h.gathers.get?_of_mem (hall ▸ Finset.mem_range.mpr hlt),
      List.getElem?_map, List.getElem?_eq_getElem hlt]
    rfl
  have hstates : s.content.fragmentStates.isEmpty = true := by
    rw [OrderedMap.isEmpty, List.isEmpty_iff, List.eq_nil_iff_forall_not_mem]
    rintro ⟨id, state⟩ hmem
    have hget := OrderedMap.mem_entries_iff.mp hmem
    obtain ⟨e, he, rfl⟩ := List.mem_map.mp (h.content.stateKeys id state hget)
    have hprogress := h.content.progress e he
    rw [Progress, if_pos (Or.inr (hw.gotOf_all ht hperm he)), hget] at hprogress
    cases hprogress
  rw [WindowAssembler.isReady, htail, hstates, Bool.and_true]
  show isContiguous s.chunks (chunks.length - 1) = true
  rw [isContiguous, Bool.and_eq_true]
  exact ⟨decide_eq_true hlen, List.all_eq_true.mpr hcontains⟩

/-- All events have come. -/
theorem Taken.values_perm (h : Taken read header events nextBefore chunks P s)
    (hw : IsWindow header events nextBefore chunks) (ht : Transfer parse read header events)
    (hperm : P.Perm chunks) :
    s.content.completeEvents.values.Perm
      ((wholeEvents header nextBefore events ++ cutEvents header nextBefore events).map read) := by
  have hentries := @OrderedMap.entries_perm _ _ _ _ s.content.completeEvents
    (wholeEvents header nextBefore events ++ cutEvents header nextBefore events)
    Protocol.TimelineEvent.eventId read ht.distinct_append ?_ h.content.completeKeys
  · have := hentries.map Prod.snd
    rwa [List.map_map] at this
  · intro e he
    rcases List.mem_append.mp he with he | he
    · have hin : e ∈ P.flatMap HistoryChunk.events := by
        rw [(hperm.flatMap_right _).mem_iff, hw.whole]
        exact he
      rw [h.content.completeWhole e he, if_pos hin]
    · rw [h.content.completeCut e he, if_pos (hw.gotOf_all ht hperm he)]

/-- The complete events of the chunks. -/
theorem Taken.formal_perm (h : Taken read header events nextBefore chunks P s)
    (hw : IsWindow header events nextBefore chunks) (ht : Transfer parse read header events)
    (hperm : P.Perm chunks) :
    s.formalEvents.Perm ((wholeEvents header nextBefore events).map read) := by
  have hvalues : (s.chunks.entries.flatMap fun entry => entry.2.events.filterMap fun event =>
        s.content.completeEvents.get? event.eventId) =
      s.chunks.values.flatMap fun frame => frame.events.filterMap fun event =>
        s.content.completeEvents.get? event.eventId := by
    rw [OrderedMap.values, List.flatMap_map]
  have hgathers : Gathers s.chunks (chunks.map (readChunk read))
      (Finset.range (chunks.map (readChunk read)).length) := by
    rw [← h.indices_all hw hperm]
    exact h.gathers
  have hread : ∀ c ∈ chunks, ((readChunk read c).events.filterMap fun event =>
      s.content.completeEvents.get? event.eventId) = c.events.map read := by
    intro c hc
    rw [readChunk, List.filterMap_map, ← List.filterMap_eq_map]
    refine List.filterMap_congr fun e he => ?_
    have hwhole := hw.mem_whole hc he
    have hin : e ∈ P.flatMap HistoryChunk.events :=
      List.mem_flatMap.mpr ⟨c, hperm.mem_iff.mpr hc, he⟩
    rw [Function.comp_apply, ht.reads.eventId e (mem_of_mem_whole hwhole),
      h.content.completeWhole e hwhole, if_pos hin]
    rfl
  refine ((List.mergeSort_perm _ _).flatMap_right _).trans ?_
  rw [hvalues]
  refine (hgathers.values_perm.flatMap_right _).trans ?_
  rw [List.flatMap_map, wholeEvents, ← hw.whole, List.map_flatMap]
  exact List.Perm.of_eq (List.flatMap_congr hread)

/-- The window gives out its events, each once. -/
theorem Taken.windowEvents_perm (h : Taken read header events nextBefore chunks P s)
    (hw : IsWindow header events nextBefore chunks) (ht : Transfer parse read header events)
    (hperm : P.Perm chunks) : s.windowEvents.Perm (events.map read) := by
  have hformal := h.formal_perm hw ht hperm
  have hids : ∀ id, id ∈ s.formalEvents.map TimelineEvent.eventId ↔
      id ∈ (wholeEvents header nextBefore events).map Protocol.TimelineEvent.eventId := by
    intro id
    have hmap : (wholeEvents header nextBefore events).map (TimelineEvent.eventId ∘ read) =
        (wholeEvents header nextBefore events).map Protocol.TimelineEvent.eventId :=
      List.map_congr_left fun e he => ht.reads.eventId e (mem_of_mem_whole he)
    rw [(hformal.map _).mem_iff, List.map_map, hmap]
  have hwhole : ((wholeEvents header nextBefore events).map read).filter (fun event =>
      decide (event.eventId ∉ s.formalEvents.map TimelineEvent.eventId)) = [] := by
    refine List.filter_eq_nil_iff.mpr fun event hevent => ?_
    obtain ⟨e, he, rfl⟩ := List.mem_map.mp hevent
    rw [decide_eq_true_eq, not_not, hids, ht.reads.eventId e (mem_of_mem_whole he)]
    exact List.mem_map_of_mem he
  have hcut : ((cutEvents header nextBefore events).map read).filter (fun event =>
      decide (event.eventId ∉ s.formalEvents.map TimelineEvent.eventId)) =
        (cutEvents header nextBefore events).map read := by
    refine List.filter_eq_self.mpr fun event hevent => ?_
    obtain ⟨e, he, rfl⟩ := List.mem_map.mp hevent
    rw [decide_eq_true_eq, hids, ht.reads.eventId e (mem_of_mem_cut he)]
    intro hin
    obtain ⟨e', he', heq⟩ := List.mem_map.mp hin
    exact eventId_ne ht.distinct_append he' he heq
  have hrest := (h.values_perm hw ht hperm).filter fun event =>
    decide (event.eventId ∉ s.formalEvents.map TimelineEvent.eventId)
  rw [List.map_append, List.filter_append, hwhole, hcut, List.nil_append] at hrest
  refine (hformal.append hrest).trans ?_
  rw [← List.map_append]
  exact (wholeEvents_append_perm header nextBefore events).map read

/-! ## The round trip -/

/-- The cursor of a page is an id. -/
theorem IsWindow.filter_nextBefore (hw : IsWindow header events nextBefore chunks) :
    nextBefore.filter (fun cursor => decide (cursor ≠ "")) = nextBefore := by
  cases nextBefore with
  | none => rfl
  | some cursor =>
    have hpos := List.length_pos_iff.mpr hw.ne
    have hget : chunks[chunks.length - 1]? = some chunks[chunks.length - 1] :=
      List.getElem?_eq_getElem (by omega)
    obtain ⟨-, -, -, -, -, htail, hencodes⟩ := hw.chunk _ _ hget
    rw [if_pos (by omega)] at htail
    simp only [HistoryChunk.encodes, Bool.and_eq_true, htail] at hencodes
    have hvalid : validId cursor = true := hencodes.2
    rw [Option.filter_some, if_pos]
    rw [decide_eq_true_eq]
    rintro rfl
    revert hvalid
    decide

/-- A window that misses a chunk is not given out. -/
theorem Taken.accept_pending (h : Taken read header events nextBefore chunks P s)
    (hw : IsWindow header events nextBefore chunks) (ht : Transfer parse read header events)
    (hperm : (P ++ chunk :: rest).Perm chunks) (hrest : rest ≠ []) :
    ∃ s', s.accept parse (readChunk read chunk) = (s', .pending) ∧
      Taken read header events nextBefore chunks (P ++ [chunk]) s' := by
  have hc : chunk ∈ chunks := hperm.mem_iff.mp (by simp)
  obtain ⟨s', htake, h'⟩ := h.take hw ht hperm
  refine ⟨s', ?_, h'⟩
  have hready := h'.not_ready hw (by rwa [List.append_assoc]) hrest
  have hreply : ¬ (readChunk read chunk).inReplyTo ≠ s.inReplyTo := by
    rw [h.inReplyTo]
    exact not_not.mpr (hw.chunk _ _ (hw.getElem?_index hc)).inReplyTo
  unfold WindowAssembler.accept
  rw [if_neg (not_not.mpr h.state), if_neg hreply, htake]
  dsimp only
  rw [hready]
  cases s'.finalTail <;> rfl

/-- The window is given out with its last chunk. -/
theorem Taken.accept_complete (h : Taken read header events nextBefore chunks P s)
    (hw : IsWindow header events nextBefore chunks) (ht : Transfer parse read header events)
    (hperm : (P ++ [chunk]).Perm chunks) :
    ∃ received, (s.accept parse (readChunk read chunk)).2 =
        .complete received nextBefore.isNone nextBefore ∧
      received.Perm (events.map read) := by
  have hc : chunk ∈ chunks := hperm.mem_iff.mp (by simp)
  obtain ⟨s', htake, h'⟩ := h.take hw ht hperm
  obtain ⟨htail, hready⟩ := h'.ready hw ht hperm
  refine ⟨s'.windowEvents, ?_, h'.windowEvents_perm hw ht hperm⟩
  have hreply : ¬ (readChunk read chunk).inReplyTo ≠ s.inReplyTo := by
    rw [h.inReplyTo]
    exact not_not.mpr (hw.chunk _ _ (hw.getElem?_index hc)).inReplyTo
  have hsize : ¬ maxWindowDecodeBytes <
      (s'.content.completeEvents.values.map fun event => event.json.length).sum := by
    have hlen : (events.map read).map (fun event => event.json.length) =
        events.map Protocol.TimelineEvent.bytes := by
      rw [List.map_map]
      exact List.map_congr_left ht.length
    have hvalues := ((h'.values_perm hw ht hperm).trans
      ((wholeEvents_append_perm header nextBefore events).map read)).map
        fun event => event.json.length
    rw [hvalues.sum_eq, hlen]
    have := ht.bytes
    omega
  unfold WindowAssembler.accept
  rw [if_neg (not_not.mpr h.state), if_neg hreply, htake]
  dsimp only
  rw [htail]
  dsimp only
  rw [if_pos hready, WindowAssembler.completeWindow, if_neg hsize]
  dsimp only [pageFinalTail]
  rw [hw.filter_nextBefore]

/-- The chunks of a window, in any order: every chunk but the last one leaves the window
    open, and the last one gives out its events, each once, with the end of the page. -/
theorem window_round_trip {expectedScope : Option TransferScope} {delivered : List HistoryChunk}
    (hwindow : fragmentWindow header events nextBefore = .ok chunks)
    (ht : Transfer parse read header events)
    (hexpected : ∀ scope ∈ expectedScope,
      scope = ⟨header.sessionId, header.historyGeneration⟩)
    (hdelivered : delivered.Perm chunks) :
    ∃ received, (WindowAssembler.new header.requestId expectedScope).acceptAll parse
        (delivered.map (readChunk read)) =
          List.replicate (delivered.length - 1) .pending ++
            [.complete received nextBefore.isNone nextBefore] ∧
      received.Perm (events.map read) := by
  have hw := isWindow_of_fragmentWindow hwindow
  have hstart : Taken read header events nextBefore chunks []
      (.new header.requestId expectedScope) := by
    refine ⟨rfl, rfl, ?_, Or.inl rfl, Gathers.empty _, rfl, rfl, holding_empty _ _ _⟩
    cases hscope : expectedScope with
    | none => exact Or.inl rfl
    | some scope => exact Or.inr (congrArg some (hexpected scope (by rw [hscope]; rfl)))
  have hrun : ∀ (rest P : List HistoryChunk) (s : WindowAssembler), rest ≠ [] →
      (P ++ rest).Perm chunks → Taken read header events nextBefore chunks P s →
      ∃ received, s.acceptAll parse (rest.map (readChunk read)) =
          List.replicate (rest.length - 1) .pending ++
            [.complete received nextBefore.isNone nextBefore] ∧
        received.Perm (events.map read) := by
    intro rest
    induction rest with
    | nil => intro _ _ hne; exact absurd rfl hne
    | cons chunk rest ih =>
      intro P s _ hperm h
      by_cases hrest : rest = []
      · subst hrest
        obtain ⟨received, haccept, hreceived⟩ := h.accept_complete hw ht hperm
        refine ⟨received, ?_, hreceived⟩
        rw [List.map_singleton, ← haccept]
        rfl
      · obtain ⟨s', haccept, h'⟩ := h.accept_pending hw ht hperm hrest
        obtain ⟨received, hrun, hreceived⟩ := ih (P ++ [chunk]) s' hrest
          (by rwa [List.append_assoc]) h'
        refine ⟨received, ?_, hreceived⟩
        have hlen : (chunk :: rest).length - 1 = rest.length - 1 + 1 := by
          have := List.length_pos_iff.mpr hrest
          rw [List.length_cons]
          omega
        rw [List.map_cons, WindowAssembler.acceptAll, haccept, hlen, List.replicate_succ,
          List.cons_append, ← hrun]
  refine hrun delivered [] _ ?_ hdelivered hstart
  rintro rfl
  exact hw.ne hdelivered.symm.eq_nil

end Window

theorem jsonArrayBytes_singleton (n : ℕ) : jsonArrayBytes [n] = n + 2 := by simp [jsonArrayBytes]

theorem sentWhole_of_large {header : ChunkHeader} {nextBefore : Option String}
    {e : Protocol.TimelineEvent} (h : maxHistoryChunkBytes < e.bytes) :
    sentWhole header nextBefore e = false := by
  rw [sentWhole, decide_eq_false_iff_not, finalFrameBytes, jsonBytes_makeChunk, List.map_singleton,
    jsonArrayBytes_singleton]
  omega

/-- A window of one event that is cut keeps the limits of a chunk. -/
theorem chunksFit_singleton {header : ChunkHeader} {nextBefore : Option String}
    {e : Protocol.TimelineEvent} (hheader : header.Valid)
    (hnext : ∀ cursor, nextBefore = some cursor → validId cursor = true)
    (hlarge : maxHistoryChunkBytes < e.bytes) (hbytes : e.bytes ≤ maxWindowDecodeBytes) :
    ChunksFit header [e] nextBefore := by
  have hcut : sentWhole header nextBefore e = false := sentWhole_of_large hlarge
  intro payloads hp chunk hchunk
  obtain ⟨i, hi⟩ := List.mem_iff_getElem?.mp hchunk
  rw [getElem?_chunksFrom] at hi
  obtain ⟨payload, hget, rfl⟩ := Option.map_eq_some_iff.mp hi
  have hpayload := List.mem_of_getElem? hget
  obtain ⟨hevents, hfragments⟩ := packItems_items hp
  rw [recordItems_events, List.filter_cons_of_neg (by simp [hcut])] at hevents
  rw [recordItems_fragments, List.filter_cons_of_pos (by simp [hcut])] at hfragments
  have hnone : payload.events = [] := List.flatMap_eq_nil_iff.mp hevents payload hpayload
  have hown : ∀ f ∈ payload.fragments, f ∈ fragmentsOf e := by
    intro f hf
    have hmem : f ∈ payloads.flatMap Payload.fragments :=
      List.mem_flatMap.mpr ⟨payload, hpayload, hf⟩
    rw [hfragments] at hmem
    simpa [Payload.empty, fragmentsOf] using hmem
  -- all fragments are of one event, so that a chunk holds at most one
  have hone : payload.fragments.length ≤ 1 := by
    have hnodup := packItems_nodup hp (by simp) (by simp [Payload.empty]) payload hpayload
    have hsub : payload.fragments.map HistoryFragment.eventId ⊆ [e.eventId] := by
      intro id hid
      obtain ⟨f, hf, rfl⟩ := List.mem_map.mp hid
      exact List.mem_singleton.mpr (eventId_of_mem_fragmentsOf (hown f hf))
    have := (List.subperm_of_subset hnodup hsub).length_le
    rwa [List.length_map] at this
  have hfragment : (payload.fragments.map HistoryFragment.jsonBytes).sum ≤ 412000 := by
    have hle := List.sum_le_card_nsmul (payload.fragments.map HistoryFragment.jsonBytes) 412000 (by
      intro n hn
      obtain ⟨f, hf, rfl⟩ := List.mem_map.mp hn
      exact jsonBytes_fragment_le hbytes (hown f hf))
    rw [List.length_map, smul_eq_mul] at hle
    omega
  have hindex : jsonNatBytes (0 + i) ≤ 9 := by
    refine jsonNatBytes_le (by omega) ?_
    have hlt := (List.getElem?_eq_some_iff.mp hget).1
    have hcount := length_packItems_le hp
    have hfew := length_fragmentsOf_le hbytes
    rw [List.flatMap_singleton, recordItems, hcut, if_neg Bool.false_ne_true, List.length_map,
      ← fragmentsOf, List.length_nil] at hcount
    simp only [maxArrayItems] at hfew
    omega
  have htail : (makeChunk header payload (decide (i + 1 = payloads.length)) nextBefore
      (0 + i)).tail.jsonBytes ≤ 2000 := by
    by_cases hlast : i + 1 = payloads.length
    · rw [decide_eq_true hlast, tail_makeChunk_final]
      exact jsonBytes_pageTail_le hnext
    · rw [decide_eq_false hlast]
      show ChunkTail.more.jsonBytes ≤ 2000
      decide
  have hheader := hheader.jsonBytes_le
  refine ⟨?_, ?_, ?_⟩
  · rw [jsonBytes_makeChunk, hnone]
    simp only [List.map_nil, jsonArrayBytes, List.sum_nil, List.length_nil, List.length_map,
      maxHistoryChunkBytes]
    omega
  · show payload.events.length ≤ maxArrayItems
    rw [hnone]
    exact Nat.zero_le _
  · show payload.fragments.length ≤ maxArrayItems
    exact hone.trans (by decide)

/-- The chunks of a large event, the last one first. -/
theorem window_round_trip_reversed : ∃ chunks,
    fragmentWindow ⟨"c", "r", "s", "g", "e"⟩ [largeEvent] none = .ok chunks ∧
    ∃ received, (WindowAssembler.new "r" (some ⟨"s", "g"⟩)).acceptAll
        (fun bytes => if bytes = largeText then
          some ⟨"e", "s", "g", 0, .assistant, some "t", largeText⟩ else none)
        (chunks.reverse.map
          (readChunk fun _ => ⟨"e", "s", "g", 0, .assistant, some "t", largeText⟩)) =
          List.replicate (chunks.reverse.length - 1) .pending ++ [.complete received true none] ∧
      received.Perm [⟨"e", "s", "g", 0, .assistant, some "t", largeText⟩] := by
  have hbytes : largeEvent.bytes = 3145943 := length_largeText
  have hvalid : ChunkHeader.Valid ⟨"c", "r", "s", "g", "e"⟩ := by
    constructor <;> decide
  have hle : largeEvent.bytes ≤ maxWindowDecodeBytes := by
    rw [hbytes, maxWindowDecodeBytes]
    omega
  have hfit : ChunksFit ⟨"c", "r", "s", "g", "e"⟩ [largeEvent] none := by
    refine chunksFit_singleton hvalid (by simp) ?_ hle
    rw [hbytes, maxHistoryChunkBytes]
    omega
  obtain ⟨chunks, hchunks⟩ := (fragmentWindow_ok_iff hvalid (by simp) (by simp)
    fun e he => List.mem_singleton.mp he ▸ hle).mpr hfit
  refine ⟨chunks, hchunks, window_round_trip hchunks ⟨by simp, ?_, ?_, ?_⟩ ?_
    (List.reverse_perm chunks)⟩
  · simp [hbytes, maxWindowDecodeBytes]
  · constructor
    · intro e he
      obtain rfl := List.mem_singleton.mp he
      exact if_pos rfl
    all_goals
      intro e he
      obtain rfl := List.mem_singleton.mp he
      rfl
  · intro e he
    obtain rfl := List.mem_singleton.mp he
    rfl
  · intro scope hscope
    exact (Option.mem_some_iff.mp hscope).symm

end RemotePi.Pwa
