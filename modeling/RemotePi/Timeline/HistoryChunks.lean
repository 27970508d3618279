import Mathlib.Data.Int.Notation
import Mathlib.Data.List.Nodup
import RemotePi.Protocol.HistoryFrames

/-!
# Chunks of a history window

Model of `TimelineHistoryPager.fragmentWindow` (`pi-extension/src/timeline/history.ts`):
the records of a window are packed into chunks of at most 512 KiB, and a record
that does not fit a chunk is cut into fragments.

Results:
* `reassemble_fragmentsFrom`: the fragments of an event give back its encoding.
* `packItems_items`: the packed payloads hold the items in their order.
* `received_fragmentWindow`: a reader of the chunks receives every record of the
  window exactly once.
* `fragmentWindow_ok_iff`: the chunks are built exactly when each of them, with
  its index written out, keeps the limits of a frame.
-/

namespace RemotePi.Timeline

open RemotePi.Lib RemotePi.Protocol

/-- What the frames of one answer share: the request and the frozen snapshot. -/
structure ChunkHeader where
  targetChannelId : String
  requestId : String
  sessionId : String
  historyGeneration : String
  snapshotHead : String
deriving DecidableEq

inductive HistoryItem where
  | event (event : TimelineEvent)
  | fragment (fragment : HistoryFragment)
deriving DecidableEq

structure Payload where
  events : List TimelineEvent
  fragments : List HistoryFragment
deriving DecidableEq

def Payload.empty : Payload := ⟨[], []⟩

def Payload.isEmpty (payload : Payload) : Bool :=
  payload.events.isEmpty && payload.fragments.isEmpty

/-- `appendItem` (lines 471–487). -/
def appendItem (payload : Payload) : HistoryItem → Payload
  | .event event => { payload with events := payload.events ++ [event] }
  | .fragment fragment => { payload with fragments := payload.fragments ++ [fragment] }

/-- `makeChunk` (lines 370–396). -/
def makeChunk (header : ChunkHeader) (payload : Payload) (final : Bool)
    (nextBefore : Option String) (chunkIndex : ℕ) : HistoryChunk where
  targetChannelId := header.targetChannelId
  inReplyTo := header.requestId
  sessionId := header.sessionId
  historyGeneration := header.historyGeneration
  snapshotHead := header.snapshotHead
  chunkIndex := chunkIndex
  events := payload.events
  fragments := payload.fragments
  tail :=
    if final then
      match nextBefore with
      | some cursor => .nextBefore cursor
      | none => .eos
    else .more

/-- `nonFinalFrameBytes` (lines 398–400). -/
def nonFinalFrameBytes (header : ChunkHeader) (payload : Payload) : ℕ :=
  (makeChunk header payload false none 0).jsonBytes

/-- `finalFrameBytes` (lines 402–404). -/
def finalFrameBytes (header : ChunkHeader) (payload : Payload) (nextBefore : Option String) : ℕ :=
  (makeChunk header payload true nextBefore 0).jsonBytes

/-- The fragments of an encoding from an index on (lines 325–337). -/
def fragmentsFrom (eventId : String) (index : ℕ) (encoded : List Byte) : List HistoryFragment :=
  if h : encoded = [] then []
  else
    let slice := encoded.take maxFragmentDecodeBytes
    let rest := encoded.drop maxFragmentDecodeBytes
    { eventId, index, dataBase64 := String.ofList (Base64.encode slice), final := rest.isEmpty } ::
      fragmentsFrom eventId (index + 1) rest
termination_by encoded.length
decreasing_by
  have := List.length_pos_iff.mpr h
  simp only [maxFragmentDecodeBytes, List.length_drop]
  omega

/-- A record that fits a final chunk is sent whole (lines 320–321). -/
def sentWhole (header : ChunkHeader) (nextBefore : Option String) (event : TimelineEvent) : Bool :=
  finalFrameBytes header ⟨[event], []⟩ nextBefore ≤ maxHistoryChunkBytes

/-- The items of a record (lines 319–338). -/
def recordItems (header : ChunkHeader) (nextBefore : Option String) (event : TimelineEvent) :
    List HistoryItem :=
  if sentWhole header nextBefore event then [.event event]
  else (fragmentsFrom event.eventId 0 event.encoded).map .fragment

/-- A chunk holds at most one fragment of an event (lines 343–345). -/
def repeatedFragment (current : Payload) : HistoryItem → Bool
  | .event _ => false
  | .fragment fragment => current.fragments.any fun f => f.eventId = fragment.eventId

/-- The packing loop (lines 340–357). -/
def packItems (fits : Payload → Bool) :
    List HistoryItem → List Payload → Payload → Except String (List Payload)
  | [], payloads, current =>
    .ok (if !current.isEmpty || payloads.isEmpty then payloads ++ [current] else payloads)
  | item :: items, payloads, current =>
    let candidate := appendItem current item
    if !repeatedFragment current item && fits candidate then packItems fits items payloads candidate
    else if current.isEmpty then .error "history item cannot fit in a 512 KiB chunk"
    else packItems fits items (payloads ++ [current]) (appendItem .empty item)

/-- The payloads of a window (lines 314–357). -/
def windowPayloads (header : ChunkHeader) (events : List TimelineEvent)
    (nextBefore : Option String) : Except String (List Payload) :=
  let tailOverhead : ℤ :=
    finalFrameBytes header .empty nextBefore - nonFinalFrameBytes header .empty
  let contentLimit : ℤ := maxHistoryChunkBytes - tailOverhead
  let fits (candidate : Payload) : Bool :=
    nonFinalFrameBytes header candidate + tailOverhead ≤ contentLimit + tailOverhead
  packItems fits (events.flatMap (recordItems header nextBefore)) [] .empty

/-- The chunks of the payloads from an index on (lines 359–367). -/
def makeChunks (header : ChunkHeader) (nextBefore : Option String) :
    ℕ → List Payload → Except String (List HistoryChunk)
  | _, [] => .ok []
  | chunkIndex, payload :: payloads =>
    let chunk := makeChunk header payload payloads.isEmpty nextBefore chunkIndex
    if maxHistoryChunkBytes < chunk.jsonBytes then .error "history chunk exceeds 512 KiB"
    else if !chunk.encodes then .error "invalid server frame"
    else
      match makeChunks header nextBefore (chunkIndex + 1) payloads with
      | .ok chunks => .ok (chunk :: chunks)
      | .error message => .error message

/-- `fragmentWindow` (lines 308–368). -/
def fragmentWindow (header : ChunkHeader) (events : List TimelineEvent)
    (nextBefore : Option String) : Except String (List HistoryChunk) :=
  match windowPayloads header events nextBefore with
  | .ok payloads => makeChunks header nextBefore 0 payloads
  | .error message => .error message

/-! ## What a reader receives -/

/-- The events that fragments add up to; `acc` holds the pieces since the last
    final fragment. -/
def reassemble : List Byte → List HistoryFragment → List (String × List Byte)
  | _, [] => []
  | acc, f :: fs =>
    let acc := acc ++ Base64.decode f.dataBase64.toList
    if f.final then (f.eventId, acc) :: reassemble [] fs else reassemble acc fs

/-- An event as it is received: its id and its encoding. -/
def wire (event : TimelineEvent) : String × List Byte := (event.eventId, event.encoded)

/-- The events that chunks carry, whole or in fragments. -/
def received (chunks : List HistoryChunk) : List (String × List Byte) :=
  (chunks.flatMap HistoryChunk.events).map wire ++
    reassemble [] (chunks.flatMap HistoryChunk.fragments)

theorem reassemble_fragmentsFrom (eventId : String) (index : ℕ) (acc encoded : List Byte)
    (h : encoded ≠ []) (fs : List HistoryFragment) :
    reassemble acc (fragmentsFrom eventId index encoded ++ fs) =
      (eventId, acc ++ encoded) :: reassemble [] fs := by
  induction index, encoded using fragmentsFrom.induct generalizing acc with
  | case1 index => exact absurd rfl h
  | case2 index encoded hne rest ih =>
    rw [fragmentsFrom, dif_neg hne]
    have hslice : Base64.decode (String.ofList (Base64.encode
        (encoded.take maxFragmentDecodeBytes))).toList = encoded.take maxFragmentDecodeBytes := by
      rw [String.toList_ofList, Base64.decode_encode]
    simp only [List.cons_append, reassemble, hslice]
    by_cases hr : encoded.drop maxFragmentDecodeBytes = []
    · rw [hr, fragmentsFrom, dif_pos rfl]
      have htake : encoded.take maxFragmentDecodeBytes = encoded :=
        List.take_of_length_le (List.drop_eq_nil_iff.mp hr)
      simp [htake]
    · have hfalse : (encoded.drop maxFragmentDecodeBytes).isEmpty = false := by
        simpa using hr
      rw [hfalse]
      simp only [Bool.false_eq_true, if_false]
      rw [ih _ hr, List.append_assoc, List.take_append_drop]

/-- The fragments of one event after another. -/
theorem reassemble_flatMap (events : List TimelineEvent) :
    reassemble [] (events.flatMap fun e => fragmentsFrom e.eventId 0 e.encoded) =
      events.map wire := by
  induction events with
  | nil => rfl
  | cons event events ih =>
    rw [List.flatMap_cons, reassemble_fragmentsFrom _ _ _ _ event.encoded_ne, ih]
    rfl

/-! ## Items of payloads -/

def HistoryItem.events : HistoryItem → List TimelineEvent
  | .event e => [e]
  | .fragment _ => []

def HistoryItem.fragments : HistoryItem → List HistoryFragment
  | .event _ => []
  | .fragment f => [f]

@[simp] theorem appendItem_events (payload : Payload) (item : HistoryItem) :
    (appendItem payload item).events = payload.events ++ item.events := by
  cases item <;> simp [appendItem, HistoryItem.events]

@[simp] theorem appendItem_fragments (payload : Payload) (item : HistoryItem) :
    (appendItem payload item).fragments = payload.fragments ++ item.fragments := by
  cases item <;> simp [appendItem, HistoryItem.fragments]

theorem Payload.isEmpty_iff {payload : Payload} :
    payload.isEmpty = true ↔ payload = Payload.empty := by
  cases payload
  simp [Payload.isEmpty, Payload.empty, List.isEmpty_iff]

theorem packItems_items {fits : Payload → Bool} {items : List HistoryItem}
    {payloads out : List Payload} {current : Payload}
    (h : packItems fits items payloads current = .ok out) :
    out.flatMap Payload.events =
        payloads.flatMap Payload.events ++ current.events ++ items.flatMap HistoryItem.events ∧
      out.flatMap Payload.fragments =
        payloads.flatMap Payload.fragments ++ current.fragments ++
          items.flatMap HistoryItem.fragments := by
  induction items generalizing payloads current with
  | nil =>
    simp only [packItems, Except.ok.injEq] at h
    split_ifs at h with hc
    · simp [← h]
    · have hempty : current = Payload.empty := by
        simp only [Bool.or_eq_true, Bool.not_eq_true', not_or, Bool.not_eq_false] at hc
        exact Payload.isEmpty_iff.mp hc.1
      simp [← h, hempty, Payload.empty]
  | cons item items ih =>
    simp only [packItems] at h
    split_ifs at h with h1 h2
    · simpa using ih h
    · simpa [Payload.empty] using ih h

theorem recordItems_events (header : ChunkHeader) (nextBefore : Option String)
    (events : List TimelineEvent) :
    (events.flatMap (recordItems header nextBefore)).flatMap HistoryItem.events =
      events.filter (sentWhole header nextBefore) := by
  induction events with
  | nil => rfl
  | cons event events ih =>
    rw [List.flatMap_cons, List.flatMap_append, ih, recordItems]
    split_ifs with h
    · simp [h, HistoryItem.events]
    · simp [h, HistoryItem.events, List.flatMap_map]

theorem recordItems_fragments (header : ChunkHeader) (nextBefore : Option String)
    (events : List TimelineEvent) :
    (events.flatMap (recordItems header nextBefore)).flatMap HistoryItem.fragments =
      (events.filter fun e => !sentWhole header nextBefore e).flatMap fun e =>
        fragmentsFrom e.eventId 0 e.encoded := by
  induction events with
  | nil => rfl
  | cons event events ih =>
    rw [List.flatMap_cons, List.flatMap_append, ih, recordItems]
    split_ifs with h
    · simp [h, HistoryItem.fragments]
    · simp [h, HistoryItem.fragments, List.flatMap_map]

/-! ## Chunks of payloads -/

/-- The chunks that `makeChunks` builds when none breaks a limit. -/
def chunksFrom (header : ChunkHeader) (nextBefore : Option String) :
    ℕ → List Payload → List HistoryChunk
  | _, [] => []
  | chunkIndex, payload :: payloads =>
    makeChunk header payload payloads.isEmpty nextBefore chunkIndex ::
      chunksFrom header nextBefore (chunkIndex + 1) payloads

theorem makeChunks_ok_iff {header : ChunkHeader} {nextBefore : Option String} {chunkIndex : ℕ}
    {payloads : List Payload} {chunks : List HistoryChunk} :
    makeChunks header nextBefore chunkIndex payloads = .ok chunks ↔
      chunks = chunksFrom header nextBefore chunkIndex payloads ∧
        ∀ chunk ∈ chunks, chunk.jsonBytes ≤ maxHistoryChunkBytes ∧ chunk.encodes = true := by
  induction payloads generalizing chunkIndex chunks with
  | nil =>
    simp only [makeChunks, chunksFrom, Except.ok.injEq]
    constructor
    · rintro rfl
      simp
    · rintro ⟨rfl, -⟩
      rfl
  | cons payload payloads ih =>
    simp only [makeChunks, chunksFrom]
    split_ifs with h1 h2
    · constructor
      · rintro ⟨⟩
      · rintro ⟨rfl, h⟩
        exact absurd (h _ List.mem_cons_self).1 (by omega)
    · constructor
      · rintro ⟨⟩
      · rintro ⟨rfl, h⟩
        simp [(h _ List.mem_cons_self).2] at h2
    · have henc : (makeChunk header payload payloads.isEmpty nextBefore chunkIndex).encodes =
          true := by simpa using h2
      cases hrest : makeChunks header nextBefore (chunkIndex + 1) payloads with
      | ok rest =>
        obtain ⟨rfl, hall⟩ := ih.mp hrest
        simp only [Except.ok.injEq]
        constructor
        · rintro rfl
          refine ⟨rfl, fun chunk hc => ?_⟩
          rcases List.mem_cons.mp hc with rfl | hc
          · exact ⟨by omega, henc⟩
          · exact hall chunk hc
        · rintro ⟨rfl, -⟩
          rfl
      | error message =>
        constructor
        · rintro ⟨⟩
        · rintro ⟨rfl, h⟩
          have := ih.mpr ⟨rfl, fun chunk hc => h chunk (List.mem_cons_of_mem _ hc)⟩
          rw [hrest] at this
          cases this

theorem flatMap_chunksFrom (header : ChunkHeader) (nextBefore : Option String) (chunkIndex : ℕ)
    (payloads : List Payload) :
    (chunksFrom header nextBefore chunkIndex payloads).flatMap HistoryChunk.events =
        payloads.flatMap Payload.events ∧
      (chunksFrom header nextBefore chunkIndex payloads).flatMap HistoryChunk.fragments =
        payloads.flatMap Payload.fragments := by
  induction payloads generalizing chunkIndex with
  | nil => exact ⟨rfl, rfl⟩
  | cons payload payloads ih =>
    simp [chunksFrom, (ih (chunkIndex + 1)).1, (ih (chunkIndex + 1)).2, makeChunk]

/-- How the frames of a page end. -/
def pageTail : Option String → ChunkTail
  | some cursor => .nextBefore cursor
  | none => .eos

theorem getLast?_chunksFrom (header : ChunkHeader) (nextBefore : Option String) (chunkIndex : ℕ)
    {payloads : List Payload} (h : payloads ≠ []) :
    ((chunksFrom header nextBefore chunkIndex payloads).getLast?).map HistoryChunk.tail =
      some (pageTail nextBefore) := by
  induction payloads generalizing chunkIndex with
  | nil => exact absurd rfl h
  | cons payload payloads ih =>
    cases payloads with
    | nil => cases nextBefore <;> simp [chunksFrom, makeChunk, pageTail]
    | cons payload' payloads =>
      rw [chunksFrom, chunksFrom, List.getLast?_cons_cons, ← chunksFrom]
      exact ih (chunkIndex + 1) (by simp)

theorem packItems_ne_nil {fits : Payload → Bool} {items : List HistoryItem}
    {payloads out : List Payload} {current : Payload}
    (h : packItems fits items payloads current = .ok out) : out ≠ [] := by
  induction items generalizing payloads current with
  | nil =>
    simp only [packItems, Except.ok.injEq] at h
    split_ifs at h with hc
    · simp [← h]
    · rintro rfl
      simp [h] at hc
  | cons item items ih =>
    simp only [packItems] at h
    split_ifs at h with h1 h2
    · exact ih h
    · exact ih h

section Window

variable {header : ChunkHeader} {events : List TimelineEvent} {nextBefore : Option String}
  {chunks : List HistoryChunk}

theorem fragmentWindow_eq_ok :
    fragmentWindow header events nextBefore = .ok chunks ↔
      ∃ payloads, windowPayloads header events nextBefore = .ok payloads ∧
        makeChunks header nextBefore 0 payloads = .ok chunks := by
  unfold fragmentWindow
  cases windowPayloads header events nextBefore <;> simp

/-- The chunks of a window carry its records, each exactly once. -/
theorem received_fragmentWindow (h : fragmentWindow header events nextBefore = .ok chunks) :
    (received chunks).Perm (events.map wire) := by
  obtain ⟨payloads, hp, hc⟩ := fragmentWindow_eq_ok.mp h
  obtain ⟨rfl, -⟩ := makeChunks_ok_iff.mp hc
  obtain ⟨he, hf⟩ := packItems_items hp
  obtain ⟨he', hf'⟩ := flatMap_chunksFrom header nextBefore 0 payloads
  rw [received, he', hf', he, hf, recordItems_events, recordItems_fragments]
  simp only [Payload.empty, List.flatMap_nil, List.append_nil, List.nil_append]
  rw [reassemble_flatMap, ← List.map_append]
  exact (List.filter_append_perm _ _).map wire

theorem tail_fragmentWindow (h : fragmentWindow header events nextBefore = .ok chunks) :
    chunks.getLast?.map HistoryChunk.tail = some (pageTail nextBefore) := by
  obtain ⟨payloads, hp, hc⟩ := fragmentWindow_eq_ok.mp h
  obtain ⟨rfl, -⟩ := makeChunks_ok_iff.mp hc
  exact getLast?_chunksFrom header nextBefore 0 (packItems_ne_nil hp)

end Window

/-! ## When the chunks are built -/

/-- The limits that depend on how the items were packed. -/
def HistoryChunk.WithinLimits (chunk : HistoryChunk) : Prop :=
  chunk.jsonBytes ≤ maxHistoryChunkBytes ∧ chunk.events.length ≤ maxArrayItems ∧
    chunk.fragments.length ≤ maxArrayItems

/-- Every chunk into which the window is packed keeps the limits, with the digits
    of its index written out. -/
def ChunksFit (header : ChunkHeader) (events : List TimelineEvent) (nextBefore : Option String) :
    Prop :=
  ∀ payloads, windowPayloads header events nextBefore = .ok payloads →
    ∀ chunk ∈ chunksFrom header nextBefore 0 payloads, HistoryChunk.WithinLimits chunk

/-- The ids of a header meet the schema `id`. -/
structure ChunkHeader.Valid (header : ChunkHeader) : Prop where
  targetChannelId : validId header.targetChannelId = true
  requestId : validId header.requestId = true
  sessionId : validId header.sessionId = true
  historyGeneration : validId header.historyGeneration = true
  snapshotHead : validId header.snapshotHead = true

theorem mem_fragmentsFrom {eventId : String} {index : ℕ} {encoded : List Byte}
    {f : HistoryFragment} (h : f ∈ fragmentsFrom eventId index encoded) :
    f.eventId = eventId ∧
      f.index * maxFragmentDecodeBytes < index * maxFragmentDecodeBytes + encoded.length ∧
      ∃ slice : List Byte, slice ≠ [] ∧ slice.length ≤ maxFragmentDecodeBytes ∧
        f.dataBase64 = String.ofList (Base64.encode slice) := by
  induction index, encoded using fragmentsFrom.induct with
  | case1 index => simp [fragmentsFrom] at h
  | case2 index encoded hne rest ih =>
    rw [fragmentsFrom, dif_neg hne] at h
    have hpos := List.length_pos_iff.mpr hne
    rcases List.mem_cons.mp h with rfl | h
    · refine ⟨rfl, by simpa using hpos, _, ?_, List.length_take_le _ _, rfl⟩
      rw [ne_eq, List.take_eq_nil_iff]
      exact not_or.mpr ⟨by decide, hne⟩
    · obtain ⟨h1, h2, h3⟩ := ih h
      refine ⟨h1, ?_, h3⟩
      have hrest : rest.length = encoded.length - maxFragmentDecodeBytes := List.length_drop
      have hne' : rest ≠ [] := by
        rintro hnil
        simp [rest, hnil, fragmentsFrom] at h
      have hpos' := List.length_pos_iff.mpr hne'
      rw [hrest] at hpos'
      rw [hrest, Nat.succ_mul] at h2
      omega

/-- A fragment of an event of a window is well formed. -/
theorem valid_of_mem_fragmentsFrom {event : TimelineEvent} {f : HistoryFragment}
    (h : f ∈ fragmentsFrom event.eventId 0 event.encoded) : f.valid = true := by
  obtain ⟨h1, -, slice, hne, hlen, hdata⟩ := mem_fragmentsFrom h
  have hpos := List.length_pos_iff.mpr hne
  have hb : f.dataBase64.length = (slice.length + 2) / 3 * 4 := by
    rw [hdata, String.length_ofList, Base64.length_encode]
  have hdec : (Base64.decode f.dataBase64.toList).length ≤ maxFragmentDecodeBytes := by
    rw [hdata, String.toList_ofList, Base64.decode_encode]
    exact hlen
  have hmin : 4 ≤ (slice.length + 2) / 3 * 4 := by omega
  have hmax : (slice.length + 2) / 3 * 4 ≤ (maxFragmentDecodeBytes * 4 + 2) / 3 + 4 := by omega
  simp [HistoryFragment.valid, h1, event.eventId_valid, hb, hdec, hmin, hmax]

theorem jsonBytes_fragment_le {event : TimelineEvent} {f : HistoryFragment}
    (hbytes : event.bytes ≤ maxWindowDecodeBytes)
    (h : f ∈ fragmentsFrom event.eventId 0 event.encoded) : f.jsonBytes ≤ 412000 := by
  obtain ⟨h1, hidx, slice, -, hlen, hdata⟩ := mem_fragmentsFrom h
  have hb : f.dataBase64.length = (slice.length + 2) / 3 * 4 := by
    rw [hdata, String.length_ofList, Base64.length_encode]
  have hd := jsonStringBytes_le f.dataBase64
  have hi := jsonStringBytes_le_of_validId (h1 ▸ event.eventId_valid)
  have hn : jsonNatBytes f.index ≤ 3 := by
    refine jsonNatBytes_le (by omega) ?_
    simp only [TimelineEvent.bytes, maxWindowDecodeBytes, maxFragmentDecodeBytes] at hbytes hidx
    omega
  have hc : "\x7b\"event_id\":,\"index\":,\"data_base64\":,\"final\":\x7d".utf8ByteSize ≤ 60 := by
    decide
  simp only [maxFragmentDecodeBytes] at hlen
  unfold HistoryFragment.jsonBytes
  split_ifs <;> omega

/-- The bytes of a chunk that depend on the header only. -/
def ChunkHeader.jsonBytes (header : ChunkHeader) : ℕ :=
  "\x7b\"protocol_version\":2,\"type\":\"session_history_chunk\",".utf8ByteSize +
    "\"target_channel_id\":,\"in_reply_to\":,\"session_id\":,".utf8ByteSize +
    "\"history_generation\":,\"snapshot_head\":,".utf8ByteSize +
    "\"chunk_index\":,\"events\":,\"fragments\":,\x7d".utf8ByteSize +
    jsonStringBytes header.targetChannelId + jsonStringBytes header.requestId +
    jsonStringBytes header.sessionId + jsonStringBytes header.historyGeneration +
    jsonStringBytes header.snapshotHead

theorem ChunkHeader.Valid.jsonBytes_le {header : ChunkHeader} (h : header.Valid) :
    header.jsonBytes ≤ 8000 := by
  have h1 := jsonStringBytes_le_of_validId h.targetChannelId
  have h2 := jsonStringBytes_le_of_validId h.requestId
  have h3 := jsonStringBytes_le_of_validId h.sessionId
  have h4 := jsonStringBytes_le_of_validId h.historyGeneration
  have h5 := jsonStringBytes_le_of_validId h.snapshotHead
  have hc : "\x7b\"protocol_version\":2,\"type\":\"session_history_chunk\",".utf8ByteSize +
      "\"target_channel_id\":,\"in_reply_to\":,\"session_id\":,".utf8ByteSize +
      "\"history_generation\":,\"snapshot_head\":,".utf8ByteSize +
      "\"chunk_index\":,\"events\":,\"fragments\":,\x7d".utf8ByteSize ≤ 250 := by decide
  unfold ChunkHeader.jsonBytes
  omega

theorem jsonBytes_makeChunk (header : ChunkHeader) (payload : Payload) (final : Bool)
    (nextBefore : Option String) (chunkIndex : ℕ) :
    (makeChunk header payload final nextBefore chunkIndex).jsonBytes =
      header.jsonBytes + jsonNatBytes chunkIndex +
        jsonArrayBytes (payload.events.map TimelineEvent.bytes) +
        jsonArrayBytes (payload.fragments.map HistoryFragment.jsonBytes) +
        (makeChunk header payload final nextBefore chunkIndex).tail.jsonBytes := by
  simp only [HistoryChunk.jsonBytes, ChunkHeader.jsonBytes, makeChunk]

theorem jsonBytes_pageTail_le {nextBefore : Option String}
    (h : ∀ cursor, nextBefore = some cursor → validId cursor = true) :
    (pageTail nextBefore).jsonBytes ≤ 2000 := by
  cases nextBefore with
  | none =>
    have hc : ChunkTail.eos.jsonBytes ≤ 50 := by decide
    simp only [pageTail]
    omega
  | some cursor =>
    have h1 := jsonStringBytes_le_of_validId (h cursor rfl)
    have hc : "\"final_chunk\":true,\"eos\":false,\"next_before\":".utf8ByteSize ≤ 50 := by decide
    have htail : (pageTail (some cursor)).jsonBytes =
        "\"final_chunk\":true,\"eos\":false,\"next_before\":".utf8ByteSize +
          jsonStringBytes cursor := rfl
    omega

theorem tail_makeChunk_final (header : ChunkHeader) (payload : Payload)
    (nextBefore : Option String) (chunkIndex : ℕ) :
    (makeChunk header payload true nextBefore chunkIndex).tail = pageTail nextBefore := by
  cases nextBefore <;> rfl

/-- A candidate fits when it would fit as a final chunk. -/
theorem fits_iff (header : ChunkHeader) (nextBefore : Option String) (payload : Payload) :
    (nonFinalFrameBytes header payload +
          ((finalFrameBytes header .empty nextBefore : ℤ) - nonFinalFrameBytes header .empty) ≤
        maxHistoryChunkBytes -
            ((finalFrameBytes header .empty nextBefore : ℤ) - nonFinalFrameBytes header .empty) +
          ((finalFrameBytes header .empty nextBefore : ℤ) - nonFinalFrameBytes header .empty)) ↔
      finalFrameBytes header payload nextBefore ≤ maxHistoryChunkBytes := by
  have h : (finalFrameBytes header payload nextBefore : ℤ) = nonFinalFrameBytes header payload +
      ((finalFrameBytes header .empty nextBefore : ℤ) - nonFinalFrameBytes header .empty) := by
    simp only [finalFrameBytes, nonFinalFrameBytes, jsonBytes_makeChunk, tail_makeChunk_final]
    simp only [makeChunk, Payload.empty, List.map_nil, Bool.false_eq_true, if_false]
    push_cast
    omega
  omega

theorem packItems_isOk {fits : Payload → Bool} {items : List HistoryItem} {payloads : List Payload}
    {current : Payload} (hfits : ∀ item ∈ items, fits (appendItem .empty item) = true) :
    ∃ out, packItems fits items payloads current = .ok out := by
  induction items generalizing payloads current with
  | nil => exact ⟨_, rfl⟩
  | cons item items ih =>
    have ih' := fun {payloads} {current} =>
      @ih payloads current fun i hi => hfits i (List.mem_cons_of_mem _ hi)
    simp only [packItems]
    split_ifs with h1 h2
    · exact ih'
    · -- an item that fits alone is never refused by an empty payload
      exfalso
      have hempty := Payload.isEmpty_iff.mp h2
      have hrep : repeatedFragment Payload.empty item = false := by cases item <;> rfl
      rw [hempty, hrep, hfits item List.mem_cons_self] at h1
      exact h1 rfl
    · exact ih'

/-- No payload holds two fragments of one event. -/
theorem packItems_nodup {fits : Payload → Bool} {items : List HistoryItem}
    {payloads out : List Payload} {current : Payload}
    (h : packItems fits items payloads current = .ok out)
    (hp : ∀ p ∈ payloads, (p.fragments.map HistoryFragment.eventId).Nodup)
    (hc : (current.fragments.map HistoryFragment.eventId).Nodup) :
    ∀ p ∈ out, (p.fragments.map HistoryFragment.eventId).Nodup := by
  induction items generalizing payloads current with
  | nil =>
    simp only [packItems, Except.ok.injEq] at h
    split_ifs at h
    · subst h
      intro p hmem
      rcases List.mem_append.mp hmem with hmem | hmem
      · exact hp p hmem
      · exact List.mem_singleton.mp hmem ▸ hc
    · exact h ▸ hp
  | cons item items ih =>
    simp only [packItems] at h
    split_ifs at h with h1 h2
    · refine ih h hp ?_
      cases item with
      | event e => simpa [HistoryItem.fragments] using hc
      | fragment f =>
        simp only [repeatedFragment, Bool.and_eq_true, Bool.not_eq_true', List.any_eq_false,
          decide_eq_true_eq] at h1
        simp only [appendItem_fragments, HistoryItem.fragments, List.map_append]
        refine List.nodup_append.mpr ⟨hc, by simp, ?_⟩
        rintro a ha b hb rfl
        obtain ⟨g, hg, rfl⟩ := List.mem_map.mp ha
        exact h1.1 g hg (by simpa using hb)
    · refine ih h ?_ ?_
      · intro p hmem
        rcases List.mem_append.mp hmem with hmem | hmem
        · exact hp p hmem
        · exact List.mem_singleton.mp hmem ▸ hc
      · cases item <;> simp [appendItem, Payload.empty]

theorem mem_flatMap_recordItems {header : ChunkHeader} {nextBefore : Option String}
    {events : List TimelineEvent} {item : HistoryItem}
    (h : item ∈ events.flatMap (recordItems header nextBefore)) :
    (∃ e ∈ events, sentWhole header nextBefore e = true ∧ item = .event e) ∨
      ∃ e ∈ events, ∃ f ∈ fragmentsFrom e.eventId 0 e.encoded, item = .fragment f := by
  obtain ⟨e, he, hi⟩ := List.mem_flatMap.mp h
  rw [recordItems] at hi
  split_ifs at hi with hw
  · exact .inl ⟨e, he, hw, List.mem_singleton.mp hi⟩
  · obtain ⟨f, hf, rfl⟩ := List.mem_map.mp hi
    exact .inr ⟨e, he, f, hf, rfl⟩

section Accepted

variable {header : ChunkHeader} {events : List TimelineEvent} {nextBefore : Option String}

/-- Each item of a window fits a final chunk of its own. -/
theorem final_item_le (hheader : header.Valid)
    (hnext : ∀ cursor, nextBefore = some cursor → validId cursor = true)
    (hbytes : ∀ e ∈ events, e.bytes ≤ maxWindowDecodeBytes) {item : HistoryItem}
    (hitem : item ∈ events.flatMap (recordItems header nextBefore)) :
    finalFrameBytes header (appendItem .empty item) nextBefore ≤ maxHistoryChunkBytes := by
  rcases mem_flatMap_recordItems hitem with ⟨e, -, hw, rfl⟩ | ⟨e, he, f, hf, rfl⟩
  · simpa [sentWhole, appendItem, Payload.empty] using hw
  · have h1 := hheader.jsonBytes_le
    have h2 := jsonBytes_pageTail_le hnext
    have h3 := jsonBytes_fragment_le (hbytes e he) hf
    have h4 : jsonNatBytes 0 ≤ 1 := jsonNatBytes_le (by omega) (by omega)
    have h5 : jsonArrayBytes [f.jsonBytes] = f.jsonBytes + 2 := by simp [jsonArrayBytes]
    have h6 : jsonArrayBytes [] = 2 := rfl
    rw [finalFrameBytes, jsonBytes_makeChunk, tail_makeChunk_final]
    simp only [appendItem, Payload.empty, List.nil_append, List.map_nil, List.map_cons, h5, h6]
    simp only [maxHistoryChunkBytes]
    omega

/-- The items of a window always pack. -/
theorem windowPayloads_isOk (hheader : header.Valid)
    (hnext : ∀ cursor, nextBefore = some cursor → validId cursor = true)
    (hbytes : ∀ e ∈ events, e.bytes ≤ maxWindowDecodeBytes) :
    ∃ payloads, windowPayloads header events nextBefore = .ok payloads := by
  refine packItems_isOk fun item hitem => ?_
  rw [decide_eq_true_eq, fits_iff]
  exact final_item_le hheader hnext hbytes hitem

/-- The chunks of packed payloads pass every check that the packing does not decide. -/
theorem encodes_chunk {payloads : List Payload} {chunk : HistoryChunk} (hheader : header.Valid)
    (hnext : ∀ cursor, nextBefore = some cursor → validId cursor = true)
    (hnodup : (events.map TimelineEvent.eventId).Nodup)
    (hp : windowPayloads header events nextBefore = .ok payloads)
    (hc : chunk ∈ chunksFrom header nextBefore 0 payloads)
    (hlimits : HistoryChunk.WithinLimits chunk) : chunk.encodes = true := by
  obtain ⟨k, payload, final, hpayload, rfl⟩ : ∃ k, ∃ payload, ∃ final, payload ∈ payloads ∧
      chunk = makeChunk header payload final nextBefore k := by
    clear hp hlimits
    generalize 0 = k at hc
    induction payloads generalizing k with
    | nil => cases hc
    | cons p ps ih =>
      rcases List.mem_cons.mp hc with rfl | hc
      · exact ⟨k, p, _, List.mem_cons_self, rfl⟩
      · obtain ⟨j, q, final, hq, h⟩ := ih _ hc
        exact ⟨j, q, final, List.mem_cons_of_mem _ hq, h⟩
  obtain ⟨hev, hfr⟩ := packItems_items hp
  rw [recordItems_events] at hev
  rw [recordItems_fragments] at hfr
  have hwhole : ∀ e ∈ payload.events, e ∈ events ∧ sentWhole header nextBefore e = true := by
    intro e he
    have : e ∈ payloads.flatMap Payload.events := List.mem_flatMap.mpr ⟨payload, hpayload, he⟩
    rw [hev] at this
    simpa [Payload.empty] using this
  have hcut : ∀ f ∈ payload.fragments, ∃ e ∈ events, sentWhole header nextBefore e = false ∧
      f ∈ fragmentsFrom e.eventId 0 e.encoded := by
    intro f hf
    have : f ∈ payloads.flatMap Payload.fragments := List.mem_flatMap.mpr ⟨payload, hpayload, hf⟩
    rw [hfr] at this
    simpa [Payload.empty, and_assoc] using this
  have hfrags : payload.fragments.all HistoryFragment.valid = true := by
    refine List.all_eq_true.mpr fun f hf => ?_
    obtain ⟨e, -, -, hmem⟩ := hcut f hf
    exact valid_of_mem_fragmentsFrom hmem
  have hdisj : (makeChunk header payload final nextBefore k).idsDisjoint = true := by
    simp only [HistoryChunk.idsDisjoint, makeChunk, Bool.and_eq_true, List.all_eq_true,
      decide_eq_true_eq]
    refine ⟨fun e he f hf heq => ?_, ?_⟩
    · obtain ⟨e', he', hcut', hmem⟩ := hcut f hf
      obtain ⟨he1, hw⟩ := hwhole e he
      have : e = e' := List.inj_on_of_nodup_map hnodup he1 he'
        (heq.trans (mem_fragmentsFrom hmem).1)
      rw [this, hcut'] at hw
      cases hw
    · exact decide_eq_true <| packItems_nodup hp (by simp) (by simp [Payload.empty]) payload hpayload
  have htail : (makeChunk header payload final nextBefore k).tail.valid = true := by
    cases final with
    | false => rfl
    | true =>
      rw [tail_makeChunk_final]
      cases nextBefore with
      | none => rfl
      | some cursor => exact hnext cursor rfl
  have hframe := hlimits.1.trans (by decide : maxHistoryChunkBytes ≤ maxFrameBytes)
  simp only [HistoryChunk.encodes, Bool.and_eq_true, decide_eq_true_eq]
  exact ⟨⟨⟨⟨⟨⟨⟨⟨⟨⟨⟨hframe, hlimits.1⟩, hheader.targetChannelId⟩, hheader.requestId⟩,
    hheader.sessionId⟩, hheader.historyGeneration⟩, hheader.snapshotHead⟩, hlimits.2.1⟩,
    hlimits.2.2⟩, hfrags⟩, hdisj⟩, htail⟩

/-- The chunks of a window are built exactly when they keep the limits. -/
theorem fragmentWindow_ok_iff (hheader : header.Valid)
    (hnext : ∀ cursor, nextBefore = some cursor → validId cursor = true)
    (hnodup : (events.map TimelineEvent.eventId).Nodup)
    (hbytes : ∀ e ∈ events, e.bytes ≤ maxWindowDecodeBytes) :
    (∃ chunks, fragmentWindow header events nextBefore = .ok chunks) ↔
      ChunksFit header events nextBefore := by
  constructor
  · rintro ⟨chunks, h⟩ payloads hp
    obtain ⟨payloads', hp', hc⟩ := fragmentWindow_eq_ok.mp h
    cases hp.symm.trans hp'
    obtain ⟨rfl, hall⟩ := makeChunks_ok_iff.mp hc
    intro chunk hchunk
    obtain ⟨h1, h2⟩ := hall chunk hchunk
    simp only [HistoryChunk.encodes, Bool.and_eq_true, decide_eq_true_eq] at h2
    exact ⟨h1, h2.1.1.1.1.2, h2.1.1.1.2⟩
  · intro hfit
    obtain ⟨payloads, hp⟩ := windowPayloads_isOk hheader hnext hbytes
    refine ⟨_, fragmentWindow_eq_ok.mpr ⟨payloads, hp, makeChunks_ok_iff.mpr ⟨rfl, ?_⟩⟩⟩
    intro chunk hchunk
    have hlimits := hfit payloads hp chunk hchunk
    exact ⟨hlimits.1, encodes_chunk hheader hnext hnodup hp hchunk hlimits⟩

end Accepted

end RemotePi.Timeline
