import Mathlib.Data.List.Perm.Subperm
import RemotePi.Lib.Cut
import RemotePi.Timeline.History

/-!
# When a history window is sent

`TimelineHistoryPager.fragmentWindow` (`pi-extension/src/timeline/history.ts`, lines 308–368)
fills one frame after the other, and measures a frame as if it were the final one with the
index 0. The frame that is sent has its own index; the last one is final.

Results:
* `packItems_eq_cut`: the loop cuts the items of a window into full frames.
* `encodes_iff`: which frames `encodeServerFrameV2` accepts.
* `fragmentWindow_isOk_iff`, `fragmentWindow_iff`: when a window is sent, and in which frames.
* `selected_window_sent_iff`: so for the windows that `selectWindow` selects.
-/

namespace RemotePi.Timeline

open RemotePi.Lib RemotePi.Protocol

/-! ## Frames as groups of items -/

/-- The payload of a frame with the items. -/
def payloadOf (items : List HistoryItem) : Payload :=
  ⟨items.flatMap HistoryItem.events, items.flatMap HistoryItem.fragments⟩

/-- The items fit a frame, measured as the final one with the index 0, and no two of them
    are fragments of one event. -/
def hasRoom (header : ChunkHeader) (nextBefore : Option String) (items : List HistoryItem) : Bool :=
  ((items.flatMap HistoryItem.fragments).map HistoryFragment.eventId).Nodup &&
    finalFrameBytes header (payloadOf items) nextBefore ≤ maxHistoryChunkBytes

/-- The limits of frames that are full: the digits of the index of the last one, the lengths
    of the arrays, and whether an event is sent both whole and in fragments. -/
structure FramesFit (header : ChunkHeader) (nextBefore : Option String)
    (groups : List (List HistoryItem)) : Prop where
  last : ∀ items ∈ groups.getLast?,
    finalFrameBytes header (payloadOf items) nextBefore + jsonNatBytes (groups.length - 1) ≤
      maxHistoryChunkBytes + 1
  events : ∀ items ∈ groups, (payloadOf items).events.length ≤ maxArrayItems
  apart : ∀ items ∈ groups, ∀ event ∈ (payloadOf items).events,
    ∀ fragment ∈ (payloadOf items).fragments, event.eventId ≠ fragment.eventId

/-- The items of the events, cut in their order into full frames, keep the limits of frames. -/
def PacksFit (header : ChunkHeader) (events : List TimelineEvent) (nextBefore : Option String) :
    Prop :=
  ∀ groups, Cut (hasRoom header nextBefore) (events.flatMap (recordItems header nextBefore)) groups →
    FramesFit header nextBefore groups

/-- Frames with the indices from 0 on, of which the last one is final, and which are
    accepted. -/
structure SentFrames (chunks : List HistoryChunk) : Prop where
  ne_nil : chunks ≠ []
  numbered : ∀ (i : ℕ) (chunk : HistoryChunk), chunks[i]? = some chunk →
    chunk.chunkIndex = i ∧ (chunk.tail ≠ .more ↔ i + 1 = chunks.length)
  accepted : ∀ chunk ∈ chunks, chunk.jsonBytes ≤ maxHistoryChunkBytes ∧ chunk.encodes = true

section Packing

variable {header : ChunkHeader} {nextBefore : Option String} {items : List HistoryItem}

theorem payloadOf_concat (items : List HistoryItem) (item : HistoryItem) :
    payloadOf (items ++ [item]) = appendItem (payloadOf items) item := by
  cases item <;> simp [payloadOf, appendItem, HistoryItem.events, HistoryItem.fragments]

theorem isEmpty_payloadOf : (payloadOf items).isEmpty = true ↔ items = [] := by
  rw [Payload.isEmpty_iff]
  constructor
  · intro h
    cases items with
    | nil => rfl
    | cons item items =>
      cases item with
      | event e =>
        have hevents := congrArg Payload.events h
        simp [payloadOf, Payload.empty, HistoryItem.events] at hevents
      | fragment f =>
        have hfragments := congrArg Payload.fragments h
        simp [payloadOf, Payload.empty, HistoryItem.fragments] at hfragments
  · rintro rfl
    rfl

/-- What makes a frame larger. -/
theorem final_payloadOf_le (items : List HistoryItem) (item : HistoryItem) :
    finalFrameBytes header (payloadOf items) nextBefore ≤
      finalFrameBytes header (payloadOf (items ++ [item])) nextBefore := by
  have harray : ∀ (sizes : List ℕ) (size : ℕ),
      jsonArrayBytes sizes ≤ jsonArrayBytes (sizes ++ [size]) := by
    intro sizes size
    unfold jsonArrayBytes
    rw [List.sum_append, List.length_append, List.sum_singleton, List.length_singleton]
    omega
  unfold finalFrameBytes
  rw [jsonBytes_makeChunk, jsonBytes_makeChunk, tail_makeChunk_final, tail_makeChunk_final,
    payloadOf_concat]
  cases item with
  | event e =>
    have hgrows := harray ((payloadOf items).events.map TimelineEvent.bytes) e.bytes
    simp only [appendItem, List.map_append, List.map_cons, List.map_nil]
    omega
  | fragment f =>
    have hgrows := harray ((payloadOf items).fragments.map HistoryFragment.jsonBytes) f.jsonBytes
    simp only [appendItem, List.map_append, List.map_cons, List.map_nil]
    omega

/-- A part of a frame that has room has room. -/
theorem hasRoom_of_concat (item : HistoryItem)
    (h : hasRoom header nextBefore (items ++ [item]) = true) :
    hasRoom header nextBefore items = true := by
  simp only [hasRoom, Bool.and_eq_true, decide_eq_true_eq] at h ⊢
  refine ⟨h.1.sublist ?_, (final_payloadOf_le items item).trans h.2⟩
  rw [List.flatMap_append, List.map_append]
  exact List.sublist_append_left _ _

/-- The test of the loop. -/
theorem hasRoom_concat_iff (item : HistoryItem) (h : hasRoom header nextBefore items = true) :
    hasRoom header nextBefore (items ++ [item]) =
      (!repeatedFragment (payloadOf items) item &&
        finalFrameBytes header (appendItem (payloadOf items) item) nextBefore ≤
          maxHistoryChunkBytes) := by
  simp only [hasRoom, Bool.and_eq_true, decide_eq_true_eq] at h
  rw [hasRoom, payloadOf_concat, List.flatMap_append, List.map_append]
  congr 1
  cases item with
  | event e =>
    simpa [HistoryItem.fragments, repeatedFragment] using h.1
  | fragment f =>
    simp only [List.flatMap_cons, List.flatMap_nil, List.append_nil, HistoryItem.fragments,
      List.map_cons, List.map_nil, repeatedFragment, payloadOf]
    rw [Bool.eq_iff_iff, decide_eq_true_eq, Bool.not_eq_true', List.any_eq_false]
    constructor
    · intro hnodup g hg heq
      refine (List.nodup_append.mp hnodup).2.2 _ (List.mem_map_of_mem hg) f.eventId
        (List.mem_singleton.mpr rfl) (of_decide_eq_true heq)
    · intro hfresh
      refine List.nodup_append.mpr ⟨h.1, List.nodup_singleton _, ?_⟩
      rintro a ha b hb rfl
      obtain ⟨g, hg, hgid⟩ := List.mem_map.mp ha
      exact hfresh g hg (decide_eq_true (hgid.trans (List.mem_singleton.mp hb)))

/-- The packing loop fills one frame after the other. -/
theorem packItems_eq_cut {fits : Payload → Bool}
    (hfits : ∀ payload, fits payload = true ↔
      finalFrameBytes header payload nextBefore ≤ maxHistoryChunkBytes)
    (rest : List HistoryItem) (hrest : ∀ item ∈ rest, hasRoom header nextBefore [item] = true)
    (hroom : hasRoom header nextBefore items = true) {payloads : List Payload}
    (hstarted : items = [] → payloads = []) :
    packItems fits rest payloads (payloadOf items) =
      .ok (payloads ++ (cut (hasRoom header nextBefore) items rest).map payloadOf) := by
  induction rest generalizing items payloads with
  | nil =>
    have hkept : (!(payloadOf items).isEmpty || payloads.isEmpty) = true := by
      by_cases hempty : items = []
      · rw [hstarted hempty]
        simp
      · have hne : (payloadOf items).isEmpty = false :=
          Bool.eq_false_iff.mpr fun h => hempty (isEmpty_payloadOf.mp h)
        rw [hne]
        rfl
    rw [packItems, if_pos hkept, cut]
    rfl
  | cons item rest ih =>
    have hrest' := fun other hother => hrest other (List.mem_cons_of_mem item hother)
    have htest : (!repeatedFragment (payloadOf items) item &&
        fits (appendItem (payloadOf items) item)) =
          hasRoom header nextBefore (items ++ [item]) := by
      rw [hasRoom_concat_iff item hroom]
      congr 1
      rw [Bool.eq_iff_iff, hfits, decide_eq_true_eq]
    rw [packItems, cut]
    rw [htest]
    by_cases hnext : hasRoom header nextBefore (items ++ [item]) = true
    · rw [if_pos hnext, if_pos hnext, ← payloadOf_concat]
      exact ih hrest' hnext (fun h => absurd h (by simp))
    · have hsingle := hrest item List.mem_cons_self
      have hne : items ≠ [] := by
        rintro rfl
        exact hnext hsingle
      have hbegun : ¬ (payloadOf items).isEmpty = true := fun h => hne (isEmpty_payloadOf.mp h)
      have hone : payloadOf [item] = appendItem .empty item := payloadOf_concat [] item
      rw [if_neg hnext, if_neg hnext, if_neg hbegun, ← hone,
        ih hrest' hsingle (fun h => absurd h (by simp)), List.map_cons, List.append_assoc]
      rfl

end Packing

/-! ## The frames of a window -/

section Window

variable {header : ChunkHeader} {nextBefore : Option String} {events : List TimelineEvent}

theorem getElem?_chunksFrom (payloads : List Payload) (chunkIndex i : ℕ) :
    (chunksFrom header nextBefore chunkIndex payloads)[i]? = payloads[i]?.map fun payload =>
      makeChunk header payload (i + 1 = payloads.length) nextBefore (chunkIndex + i) := by
  induction payloads generalizing chunkIndex i with
  | nil => rfl
  | cons payload payloads ih =>
    rw [chunksFrom]
    cases i with
    | zero =>
      have hlast : payloads.isEmpty = decide (0 + 1 = (payload :: payloads).length) := by
        cases payloads <;> simp
      rw [hlast]
      rfl
    | succ i =>
      have hlast : decide (i + 1 = payloads.length) =
          decide (i + 1 + 1 = (payload :: payloads).length) := by
        rw [List.length_cons, decide_eq_decide]
        omega
      rw [List.getElem?_cons_succ, List.getElem?_cons_succ, ih, hlast,
        show chunkIndex + 1 + i = chunkIndex + (i + 1) by omega]

theorem length_chunksFrom (payloads : List Payload) (chunkIndex : ℕ) :
    (chunksFrom header nextBefore chunkIndex payloads).length = payloads.length := by
  induction payloads generalizing chunkIndex with
  | nil => rfl
  | cons payload payloads ih => rw [chunksFrom, List.length_cons, List.length_cons, ih]

/-- An empty frame has room. -/
theorem hasRoom_nil (hheader : header.Valid)
    (hnext : ∀ cursor, nextBefore = some cursor → validId cursor = true) :
    hasRoom header nextBefore [] = true := by
  have h1 := hheader.jsonBytes_le
  have h2 := jsonBytes_pageTail_le hnext
  have h3 : jsonNatBytes 0 ≤ 1 := jsonNatBytes_le (by omega) (by omega)
  have h4 : jsonArrayBytes [] = 2 := rfl
  have hle : finalFrameBytes header .empty nextBefore ≤ maxHistoryChunkBytes := by
    rw [finalFrameBytes, jsonBytes_makeChunk, tail_makeChunk_final]
    simp only [Payload.empty, List.map_nil, h4, maxHistoryChunkBytes]
    omega
  rw [hasRoom, Bool.and_eq_true, decide_eq_true_eq, decide_eq_true_eq]
  exact ⟨List.nodup_nil, hle⟩

/-- The items of a window fit frames of their own. -/
theorem hasRoom_item (hheader : header.Valid)
    (hnext : ∀ cursor, nextBefore = some cursor → validId cursor = true)
    (hbytes : ∀ e ∈ events, e.bytes ≤ maxWindowDecodeBytes) :
    ∀ item ∈ events.flatMap (recordItems header nextBefore),
      hasRoom header nextBefore [item] = true := by
  intro item hitem
  have hpayload : payloadOf [item] = appendItem .empty item := payloadOf_concat [] item
  have hle := final_item_le hheader hnext hbytes hitem
  rw [← hpayload] at hle
  rw [hasRoom, Bool.and_eq_true, decide_eq_true_eq, decide_eq_true_eq]
  refine ⟨?_, hle⟩
  cases item <;> simp [HistoryItem.fragments]

/-- The payloads of a window. -/
theorem windowPayloads_eq_cut (hheader : header.Valid)
    (hnext : ∀ cursor, nextBefore = some cursor → validId cursor = true)
    (hbytes : ∀ e ∈ events, e.bytes ≤ maxWindowDecodeBytes) :
    windowPayloads header events nextBefore =
      .ok ((cut (hasRoom header nextBefore) []
        (events.flatMap (recordItems header nextBefore))).map payloadOf) := by
  rw [windowPayloads]
  refine (packItems_eq_cut (fun payload => ?_) _ (hasRoom_item hheader hnext hbytes)
    (hasRoom_nil hheader hnext) fun _ => rfl).trans ?_
  · rw [decide_eq_true_eq, fits_iff]
  · rw [List.nil_append]

/-! ## How many there can be -/

theorem length_fragmentsFrom_le (eventId : String) (index : ℕ) (encoded : List Byte) :
    (fragmentsFrom eventId index encoded).length ≤ encoded.length := by
  induction index, encoded using fragmentsFrom.induct with
  | case1 index => simp [fragmentsFrom]
  | case2 index encoded hne rest ih =>
    have hpos := List.length_pos_iff.mpr hne
    have hrest : (fragmentsFrom eventId (index + 1) (encoded.drop maxFragmentDecodeBytes)).length ≤
        (encoded.drop maxFragmentDecodeBytes).length := ih
    have hsize : 0 < maxFragmentDecodeBytes := by decide
    rw [List.length_drop] at hrest
    rw [fragmentsFrom, dif_neg hne, List.length_cons]
    omega

theorem length_items_le (events : List TimelineEvent) :
    (events.flatMap (recordItems header nextBefore)).length ≤
      (events.map TimelineEvent.bytes).sum := by
  induction events with
  | nil => exact Nat.le_refl 0
  | cons event events ih =>
    have hitems : (recordItems header nextBefore event).length ≤ event.bytes := by
      rw [recordItems]
      split_ifs with hwhole
      · exact List.length_pos_iff.mpr event.encoded_ne
      · rw [List.length_map]
        exact length_fragmentsFrom_le _ _ _
    rw [List.flatMap_cons, List.length_append, List.map_cons, List.sum_cons]
    exact Nat.add_le_add hitems ih

/-- An event that is cut into fragments is large. -/
theorem lt_bytes_of_not_whole (hheader : header.Valid)
    (hnext : ∀ cursor, nextBefore = some cursor → validId cursor = true) {event : TimelineEvent}
    (h : sentWhole header nextBefore event = false) : 500000 ≤ event.bytes := by
  have h1 := hheader.jsonBytes_le
  have h2 := jsonBytes_pageTail_le hnext
  have h3 : jsonNatBytes 0 ≤ 1 := jsonNatBytes_le (by omega) (by omega)
  have h4 : jsonArrayBytes [] = 2 := rfl
  have h5 : jsonArrayBytes [event.bytes] = event.bytes + 2 := by simp [jsonArrayBytes]
  rw [sentWhole, decide_eq_false_iff_not, finalFrameBytes, jsonBytes_makeChunk,
    tail_makeChunk_final, List.map_nil, List.map_singleton, h4, h5] at h
  unfold maxHistoryChunkBytes at h
  omega

/-- The fragments of a frame belong to different events, and few of them fit a window. -/
theorem length_fragments_le (hheader : header.Valid)
    (hnext : ∀ cursor, nextBefore = some cursor → validId cursor = true)
    (htotal : (events.map TimelineEvent.bytes).sum ≤ maxWindowDecodeBytes)
    {items : List HistoryItem}
    (hitems : items ⊆ events.flatMap (recordItems header nextBefore))
    (hroom : hasRoom header nextBefore items = true) :
    (payloadOf items).fragments.length ≤ maxArrayItems := by
  rw [hasRoom, Bool.and_eq_true, decide_eq_true_eq] at hroom
  have hcut : (items.flatMap HistoryItem.fragments).map HistoryFragment.eventId ⊆
      (events.filter fun e => !sentWhole header nextBefore e).map TimelineEvent.eventId := by
    intro eventId hid
    obtain ⟨f, hf, rfl⟩ := List.mem_map.mp hid
    obtain ⟨item, hitem, hmem⟩ := List.mem_flatMap.mp hf
    have hall : f ∈ (events.flatMap (recordItems header nextBefore)).flatMap
        HistoryItem.fragments := List.mem_flatMap.mpr ⟨item, hitems hitem, hmem⟩
    rw [recordItems_fragments] at hall
    obtain ⟨e, he, hfe⟩ := List.mem_flatMap.mp hall
    rw [(mem_fragmentsFrom hfe).1]
    exact List.mem_map_of_mem he
  have hcount := (hroom.1.subperm hcut).length_le
  rw [List.length_map, List.length_map] at hcount
  have hsum := List.card_nsmul_le_sum
    ((events.filter fun e => !sentWhole header nextBefore e).map TimelineEvent.bytes) 500000 (by
      intro n hn
      obtain ⟨e, he, rfl⟩ := List.mem_map.mp hn
      have hwhole := (List.mem_filter.mp he).2
      rw [Bool.not_eq_true'] at hwhole
      exact lt_bytes_of_not_whole hheader hnext hwhole)
  have hpart : ((events.filter fun e => !sentWhole header nextBefore e).map
      TimelineEvent.bytes).sum ≤ (events.map TimelineEvent.bytes).sum :=
    (List.filter_sublist.map _).sum_le_sum fun _ _ => Nat.zero_le _
  rw [List.length_map, smul_eq_mul] at hsum
  unfold maxWindowDecodeBytes at htotal
  unfold payloadOf maxArrayItems
  dsimp only
  omega

/-! ## When a window is sent -/

/-- The bytes of a frame, beside those it is measured with. -/
theorem jsonBytes_final (payload : Payload) (chunkIndex : ℕ) :
    (makeChunk header payload true nextBefore chunkIndex).jsonBytes + 1 =
      finalFrameBytes header payload nextBefore + jsonNatBytes chunkIndex := by
  have hzero : jsonNatBytes 0 = 1 := by decide
  rw [finalFrameBytes, jsonBytes_makeChunk, jsonBytes_makeChunk, tail_makeChunk_final,
    tail_makeChunk_final, hzero]
  omega

theorem le_jsonBytes_pageTail (nextBefore : Option String) : 29 ≤ (pageTail nextBefore).jsonBytes := by
  cases nextBefore with
  | none => decide
  | some cursor =>
    have htail : (pageTail (some cursor)).jsonBytes =
        "\"final_chunk\":true,\"eos\":false,\"next_before\":".utf8ByteSize +
          jsonStringBytes cursor := rfl
    have hc : 29 ≤ "\"final_chunk\":true,\"eos\":false,\"next_before\":".utf8ByteSize := by decide
    omega

/-- The shorter tail of a frame that is not final leaves room for the digits of its index. -/
theorem jsonBytes_more_le (payload : Payload) {chunkIndex : ℕ} (hindex : chunkIndex < 10 ^ 11) :
    (makeChunk header payload false nextBefore chunkIndex).jsonBytes ≤
      finalFrameBytes header payload nextBefore := by
  have h1 := le_jsonBytes_pageTail nextBefore
  have h2 := @jsonNatBytes_le chunkIndex 11 (by omega) hindex
  have h3 : jsonNatBytes 0 = 1 := by decide
  have h4 : ChunkTail.more.jsonBytes = 19 := by decide
  have h5 : (makeChunk header payload false nextBefore chunkIndex).tail = .more := rfl
  rw [finalFrameBytes, jsonBytes_makeChunk, jsonBytes_makeChunk, tail_makeChunk_final, h5, h4, h3]
  omega

/-- `encodeServerFrameV2` on a frame of a window. -/
theorem encodes_iff (hheader : header.Valid)
    (hnext : ∀ cursor, nextBefore = some cursor → validId cursor = true)
    (htotal : (events.map TimelineEvent.bytes).sum ≤ maxWindowDecodeBytes)
    {items : List HistoryItem}
    (hitems : items ⊆ events.flatMap (recordItems header nextBefore))
    (hroom : hasRoom header nextBefore items = true) {final : Bool} {chunkIndex : ℕ}
    (hsize : (makeChunk header (payloadOf items) final nextBefore chunkIndex).jsonBytes ≤
      maxHistoryChunkBytes) :
    (makeChunk header (payloadOf items) final nextBefore chunkIndex).encodes = true ↔
      (payloadOf items).events.length ≤ maxArrayItems ∧
        ∀ event ∈ (payloadOf items).events, ∀ fragment ∈ (payloadOf items).fragments,
          event.eventId ≠ fragment.eventId := by
  have hframe := hsize.trans (by decide : maxHistoryChunkBytes ≤ maxFrameBytes)
  have hcount := length_fragments_le hheader hnext htotal hitems hroom
  have hfragments : (payloadOf items).fragments.all HistoryFragment.valid = true := by
    refine List.all_eq_true.mpr fun f hf => ?_
    obtain ⟨item, hitem, hmem⟩ := List.mem_flatMap.mp hf
    rcases mem_flatMap_recordItems (hitems hitem) with ⟨e, -, -, rfl⟩ | ⟨e, -, g, hg, rfl⟩
    · cases hmem
    · rw [List.mem_singleton.mp hmem]
      exact valid_of_mem_fragmentsFrom hg
  have htail : (makeChunk header (payloadOf items) final nextBefore chunkIndex).tail.valid =
      true := by
    cases final with
    | false => rfl
    | true =>
      rw [tail_makeChunk_final]
      cases nextBefore with
      | none => rfl
      | some cursor => exact hnext cursor rfl
  rw [hasRoom, Bool.and_eq_true, decide_eq_true_eq] at hroom
  have hids : (makeChunk header (payloadOf items) final nextBefore chunkIndex).idsDisjoint =
      ((payloadOf items).events.all fun e =>
        (payloadOf items).fragments.all fun f => e.eventId ≠ f.eventId) := by
    rw [HistoryChunk.idsDisjoint]
    refine (Bool.and_eq_left_iff_imp).mpr fun _ => decide_eq_true hroom.1
  rw [HistoryChunk.encodes, hids, htail]
  simp only [Bool.and_eq_true, decide_eq_true_eq, Bool.and_true]
  constructor
  · rintro ⟨⟨⟨⟨-, hevents⟩, -⟩, -⟩, hapart⟩
    refine ⟨hevents, fun event hevent fragment hfragment => ?_⟩
    exact of_decide_eq_true (List.all_eq_true.mp (List.all_eq_true.mp hapart event hevent)
      fragment hfragment)
  · rintro ⟨hevents, hapart⟩
    refine ⟨⟨⟨⟨⟨⟨⟨⟨⟨⟨hframe, hsize⟩, hheader.targetChannelId⟩, hheader.requestId⟩,
      hheader.sessionId⟩, hheader.historyGeneration⟩, hheader.snapshotHead⟩, hevents⟩, hcount⟩,
      hfragments⟩, ?_⟩
    exact List.all_eq_true.mpr fun event hevent => List.all_eq_true.mpr fun fragment hfragment =>
      decide_eq_true (hapart event hevent fragment hfragment)

theorem accepted_iff (hheader : header.Valid)
    (hnext : ∀ cursor, nextBefore = some cursor → validId cursor = true)
    (htotal : (events.map TimelineEvent.bytes).sum ≤ maxWindowDecodeBytes)
    {items : List HistoryItem}
    (hitems : items ⊆ events.flatMap (recordItems header nextBefore))
    (hroom : hasRoom header nextBefore items = true) {final : Bool} {chunkIndex : ℕ}
    (hindex : chunkIndex < 10 ^ 11) :
    ((makeChunk header (payloadOf items) final nextBefore chunkIndex).jsonBytes ≤
        maxHistoryChunkBytes ∧
      (makeChunk header (payloadOf items) final nextBefore chunkIndex).encodes = true) ↔
      (final = true → finalFrameBytes header (payloadOf items) nextBefore +
        jsonNatBytes chunkIndex ≤ maxHistoryChunkBytes + 1) ∧
      (payloadOf items).events.length ≤ maxArrayItems ∧
        ∀ event ∈ (payloadOf items).events, ∀ fragment ∈ (payloadOf items).fragments,
          event.eventId ≠ fragment.eventId := by
  have hsize : (makeChunk header (payloadOf items) final nextBefore chunkIndex).jsonBytes ≤
      maxHistoryChunkBytes ↔ (final = true → finalFrameBytes header (payloadOf items) nextBefore +
        jsonNatBytes chunkIndex ≤ maxHistoryChunkBytes + 1) := by
    cases final with
    | true =>
      have hlast := @jsonBytes_final header nextBefore (payloadOf items) chunkIndex
      constructor
      · intro h _
        omega
      · intro h
        have hfits := h rfl
        omega
    | false =>
      rw [hasRoom, Bool.and_eq_true, decide_eq_true_eq, decide_eq_true_eq] at hroom
      refine iff_of_true ((jsonBytes_more_le _ hindex).trans hroom.2) ?_
      intro h
      cases h
  constructor
  · rintro ⟨h1, h2⟩
    exact ⟨hsize.mp h1, (encodes_iff hheader hnext htotal hitems hroom h1).mp h2⟩
  · rintro ⟨h1, h2⟩
    have hle := hsize.mpr h1
    exact ⟨hle, (encodes_iff hheader hnext htotal hitems hroom hle).mpr h2⟩

/-- The frames of a window that is cut into groups, when the groups keep the limits, and the
    limits of groups whose frames are built. -/
theorem fragmentWindow_of_cut (hheader : header.Valid)
    (hnext : ∀ cursor, nextBefore = some cursor → validId cursor = true)
    (htotal : (events.map TimelineEvent.bytes).sum ≤ maxWindowDecodeBytes)
    {groups : List (List HistoryItem)}
    (hcut : Cut (hasRoom header nextBefore) (events.flatMap (recordItems header nextBefore)) groups) :
    ((∃ chunks, fragmentWindow header events nextBefore = .ok chunks) →
        FramesFit header nextBefore groups) ∧
      (FramesFit header nextBefore groups →
        ∃ chunks, fragmentWindow header events nextBefore = .ok chunks ∧ SentFrames chunks) := by
  have hbytes : ∀ e ∈ events, e.bytes ≤ maxWindowDecodeBytes := fun e he =>
    (List.le_sum_of_mem (List.mem_map_of_mem he)).trans htotal
  have hpayloads := windowPayloads_eq_cut hheader hnext hbytes
  rw [← hcut.eq_cut (fun g item => hasRoom_of_concat item) (hasRoom_item hheader hnext hbytes)]
    at hpayloads
  have hcount := hcut.length_le.trans (Nat.succ_le_succ (length_items_le events))
  have hitems : ∀ items ∈ groups, items ⊆ events.flatMap (recordItems header nextBefore) := by
    intro items hmem item hitem
    rw [← hcut.flatten]
    exact List.mem_flatten.mpr ⟨items, hmem, hitem⟩
  have hframe : ∀ (i : ℕ) (items : List HistoryItem), groups[i]? = some items →
      ((makeChunk header (payloadOf items) (i + 1 = groups.length) nextBefore i).jsonBytes ≤
          maxHistoryChunkBytes ∧
        (makeChunk header (payloadOf items) (i + 1 = groups.length) nextBefore i).encodes = true ↔
      (i + 1 = groups.length → finalFrameBytes header (payloadOf items) nextBefore +
          jsonNatBytes i ≤ maxHistoryChunkBytes + 1) ∧
        (payloadOf items).events.length ≤ maxArrayItems ∧
          ∀ event ∈ (payloadOf items).events, ∀ fragment ∈ (payloadOf items).fragments,
            event.eventId ≠ fragment.eventId) := by
    intro i items hi
    have hmem := List.mem_of_getElem? hi
    have hindex : i < 10 ^ 11 := by
      have hlt := (List.getElem?_eq_some_iff.mp hi).1
      unfold maxWindowDecodeBytes at htotal
      omega
    have hiff := @accepted_iff header nextBefore events hheader hnext htotal items
      (hitems items hmem) (hcut.hasRoom items hmem) (i + 1 = groups.length) i hindex
    rw [decide_eq_true_eq] at hiff
    exact hiff
  have hget : ∀ i : ℕ, (chunksFrom header nextBefore 0 (groups.map payloadOf))[i]? =
      groups[i]?.map fun items =>
        makeChunk header (payloadOf items) (i + 1 = groups.length) nextBefore i := by
    intro i
    rw [getElem?_chunksFrom, List.getElem?_map, Option.map_map, List.length_map, Nat.zero_add]
    rfl
  have hlength : (chunksFrom header nextBefore 0 (groups.map payloadOf)).length =
      groups.length := by
    rw [length_chunksFrom, List.length_map]
  constructor
  · rintro ⟨chunks, hok⟩
    obtain ⟨payloads, hp, hc⟩ := fragmentWindow_eq_ok.mp hok
    obtain rfl : groups.map payloadOf = payloads := Except.ok.inj (hpayloads.symm.trans hp)
    obtain ⟨rfl, hall⟩ := makeChunks_ok_iff.mp hc
    have hkept := fun (i : ℕ) (items : List HistoryItem) (hi : groups[i]? = some items) =>
      (hframe i items hi).mp (hall _ (List.mem_of_getElem? ((hget i).trans (by rw [hi]; rfl))))
    refine ⟨fun items hitem => ?_, fun items hitem => ?_, fun items hitem => ?_⟩
    · rw [Option.mem_def, List.getLast?_eq_getElem?] at hitem
      refine (hkept _ items hitem).1 (Nat.sub_add_cancel ?_)
      exact List.length_pos_iff.mpr hcut.ne_nil
    · obtain ⟨i, hi⟩ := List.mem_iff_getElem?.mp hitem
      exact (hkept i items hi).2.1
    · obtain ⟨i, hi⟩ := List.mem_iff_getElem?.mp hitem
      exact (hkept i items hi).2.2
  · intro hlimits
    have hall : ∀ chunk ∈ chunksFrom header nextBefore 0 (groups.map payloadOf),
        chunk.jsonBytes ≤ maxHistoryChunkBytes ∧ chunk.encodes = true := by
      intro chunk hchunk
      obtain ⟨i, hi⟩ := List.mem_iff_getElem?.mp hchunk
      rw [hget, Option.map_eq_some_iff] at hi
      obtain ⟨items, hi, rfl⟩ := hi
      have hmem := List.mem_of_getElem? hi
      refine (hframe i items hi).mpr ⟨fun hlast => ?_, hlimits.events items hmem,
        hlimits.apart items hmem⟩
      have hindex : groups.length - 1 = i := by omega
      rw [← hindex]
      refine hlimits.last items ?_
      rw [Option.mem_def, List.getLast?_eq_getElem?, hindex, hi]
    refine ⟨_, fragmentWindow_eq_ok.mpr ⟨_, hpayloads, makeChunks_ok_iff.mpr ⟨rfl, hall⟩⟩, ?_⟩
    refine ⟨fun hnil => ?_, fun i chunk hi => ?_, hall⟩
    · rw [hnil, List.length_nil] at hlength
      exact hcut.ne_nil (List.length_eq_zero_iff.mp hlength.symm)
    · rw [hget, Option.map_eq_some_iff] at hi
      obtain ⟨items, hi, rfl⟩ := hi
      refine ⟨rfl, ?_⟩
      rw [hlength]
      by_cases hlast : i + 1 = groups.length
      · refine iff_of_true ?_ hlast
        rw [decide_eq_true hlast, tail_makeChunk_final]
        cases nextBefore <;> exact ChunkTail.noConfusion
      · refine iff_of_false (not_not_intro ?_) hlast
        rw [decide_eq_false hlast]
        rfl

/-- A header whose frames are built has ids of legal length. -/
theorem header_valid_of_fragmentWindow {chunks : List HistoryChunk}
    (h : fragmentWindow header events nextBefore = .ok chunks) : header.Valid := by
  obtain ⟨payloads, hp, hc⟩ := fragmentWindow_eq_ok.mp h
  obtain ⟨rfl, hall⟩ := makeChunks_ok_iff.mp hc
  obtain ⟨payload, rest, rfl⟩ := List.exists_cons_of_ne_nil (packItems_ne_nil hp)
  have hencodes := (hall _ List.mem_cons_self).2
  simp only [HistoryChunk.encodes, Bool.and_eq_true, decide_eq_true_eq] at hencodes
  obtain ⟨⟨⟨⟨⟨⟨⟨⟨⟨⟨-, -⟩, htarget⟩, hrequest⟩, hsession⟩, hgeneration⟩, hhead⟩, -⟩, -⟩, -⟩, -⟩ :=
    hencodes.1
  exact ⟨htarget, hrequest, hsession, hgeneration, hhead⟩

/-- The items of a window can be cut. -/
theorem exists_cut (hheader : header.Valid)
    (hnext : ∀ cursor, nextBefore = some cursor → validId cursor = true)
    (htotal : (events.map TimelineEvent.bytes).sum ≤ maxWindowDecodeBytes) :
    ∃ groups, Cut (hasRoom header nextBefore) (events.flatMap (recordItems header nextBefore))
      groups := by
  have hbytes : ∀ e ∈ events, e.bytes ≤ maxWindowDecodeBytes := fun e he =>
    (List.le_sum_of_mem (List.mem_map_of_mem he)).trans htotal
  have hcut := cut_isCut (hasRoom_nil hheader hnext) (hasRoom_item hheader hnext hbytes)
  rw [List.nil_append] at hcut
  exact ⟨_, hcut⟩

/-- The frames of a window are built when its full frames keep the limits. -/
theorem fragmentWindow_isOk_iff (hheader : header.Valid)
    (hnext : ∀ cursor, nextBefore = some cursor → validId cursor = true)
    (htotal : (events.map TimelineEvent.bytes).sum ≤ maxWindowDecodeBytes) :
    (∃ chunks, fragmentWindow header events nextBefore = .ok chunks) ↔
      PacksFit header events nextBefore := by
  constructor
  · intro hok groups hcut
    exact (fragmentWindow_of_cut hheader hnext htotal hcut).1 hok
  · intro hfit
    obtain ⟨groups, hcut⟩ := exists_cut hheader hnext htotal
    obtain ⟨chunks, hok, -⟩ := (fragmentWindow_of_cut hheader hnext htotal hcut).2 (hfit groups hcut)
    exact ⟨chunks, hok⟩

/-- A window is sent when its full frames keep the limits. -/
theorem fragmentWindow_iff (hheader : header.Valid)
    (hnext : ∀ cursor, nextBefore = some cursor → validId cursor = true)
    (htotal : (events.map TimelineEvent.bytes).sum ≤ maxWindowDecodeBytes) :
    (∃ chunks, fragmentWindow header events nextBefore = .ok chunks ∧ SentFrames chunks) ↔
      ∀ groups, Cut (hasRoom header nextBefore)
        (events.flatMap (recordItems header nextBefore)) groups →
          FramesFit header nextBefore groups := by
  constructor
  · rintro ⟨chunks, hok, -⟩ groups hcut
    exact (fragmentWindow_of_cut hheader hnext htotal hcut).1 ⟨chunks, hok⟩
  · intro hfit
    obtain ⟨groups, hcut⟩ := exists_cut hheader hnext htotal
    exact (fragmentWindow_of_cut hheader hnext htotal hcut).2 (hfit groups hcut)

end Window

/-! ## The windows that are selected -/

section Selected

variable {manager : SessionManager} {cursor : CursorState} {records : List EventRecord}
  {position : ℕ} {limit : Option ℕ} {window : Window}

theorem bytes_of_recoverRecords (h : recoverRecords manager cursor = some records) :
    ∀ record ∈ records, record.bytes = record.event.bytes := by
  intro record hrecord
  rw [recoverRecords] at h
  split_ifs at h with hempty
  · obtain rfl := Option.some.inj h
    cases hrecord
  · cases hrecovered : manager.recovered with
    | none =>
      rw [hrecovered] at h
      cases h
    | some recovered =>
      rw [hrecovered] at h
      obtain rfl := Option.some.inj h
      obtain ⟨indexed, -, hindexed⟩ := List.mem_filterMap.mp (List.mem_mergeSort.mp hrecord)
      unfold toRecord at hindexed
      split at hindexed
      · cases hindexed
      · split_ifs at hindexed with hbefore
        obtain rfl := Option.some.inj hindexed
        rfl

/-- A window holds some of the records, and keeps the limit. -/
theorem selectWindow_ok (h : selectWindow records position limit = .ok window) :
    (∀ record ∈ window.records, record ∈ records) ∧
      bytesOf window.records ≤ maxWindowDecodeBytes := by
  rw [selectWindow] at h
  by_cases hnil : (orderedGroups records position).drop
      ((orderedGroups records position).length - normalizeLimit limit) = []
  · rw [hnil, shrink, systemWindow] at h
    split at h
    · obtain rfl := Except.ok.inj h
      exact ⟨fun record hrecord => absurd hrecord List.not_mem_nil, Nat.zero_le _⟩
    · split_ifs at h with hlarge
      obtain rfl := Except.ok.inj h
      refine ⟨fun record hrecord => ?_, ?_⟩
      · exact List.mem_of_mem_filter (List.mem_of_mem_filter (List.mem_mergeSort.mp hrecord))
      · unfold bytesOf at hlarge ⊢
        rw [((List.mergeSort_perm _ _).map EventRecord.bytes).sum_eq]
        exact Nat.le_of_not_lt hlarge
  · obtain ⟨pre, group, post, hsplit, rfl, hbytes⟩ := shrink_ok h hnil
    refine ⟨fun record hrecord => ?_, hbytes⟩
    rcases List.mem_append.mp (List.mem_mergeSort.mp hrecord) with hmem | hmem
    · obtain ⟨g, hg, hr⟩ := List.mem_flatMap.mp hmem
      have hordered : g ∈ orderedGroups records position :=
        List.mem_of_mem_drop (hsplit ▸ List.mem_append_right pre hg)
      rw [(isGroup_of_mem (mem_orderedGroups.mp hordered).1).records_eq] at hr
      exact (mem_members.mp hr).1
    · exact List.mem_of_mem_filter (List.mem_of_mem_filter hmem)

/-- The events of a window are no larger than its records are measured. -/
theorem sum_bytes_of_selected (hrecords : recoverRecords manager cursor = some records)
    (hwindow : selectWindow records position limit = .ok window) :
    ((window.records.map EventRecord.event).map TimelineEvent.bytes).sum ≤
      maxWindowDecodeBytes := by
  obtain ⟨hmem, hle⟩ := selectWindow_ok hwindow
  have hmeasured : (window.records.map EventRecord.event).map TimelineEvent.bytes =
      window.records.map EventRecord.bytes := by
    rw [List.map_map]
    refine List.map_congr_left fun record hrecord => ?_
    exact (bytes_of_recoverRecords hrecords record (hmem record hrecord)).symm
  rw [hmeasured]
  exact hle

end Selected

/-- The windows that are selected and sent: those whose full frames keep the limits. -/
theorem selected_window_sent_iff (manager : SessionManager) (request : HistorySyncRequest)
    (cursor : CursorState) (records : List EventRecord) (window : Window)
    (nextBefore : Option String)
    (hrecords : recoverRecords manager cursor = some records)
    (hwindow : selectWindow records cursor.position request.limit = .ok window)
    (hheader : (chunkHeader request cursor).Valid)
    (hnext : ∀ next, nextBefore = some next → validId next = true) :
    (∃ chunks, fragmentWindow (chunkHeader request cursor)
        (window.records.map EventRecord.event) nextBefore = .ok chunks ∧ SentFrames chunks) ↔
      ∀ groups, Cut (hasRoom (chunkHeader request cursor) nextBefore)
        ((window.records.map EventRecord.event).flatMap
          (recordItems (chunkHeader request cursor) nextBefore)) groups →
        FramesFit (chunkHeader request cursor) nextBefore groups :=
  fragmentWindow_iff hheader hnext (sum_bytes_of_selected hrecords hwindow)

/-! ## A branch of eleven events -/

/-- The ids `n`, `nn` and so on. -/
def noteId (i : Fin 11) : String := String.ofList (List.replicate (i + 1) 'n')

theorem validId_noteId : ∀ i, validId (noteId i) = true := by decide

/-- A custom event whose encoding has `size + 1` bytes. -/
def note (size : ℕ) (i : Fin 11) : TimelineEvent where
  eventId := noteId i
  kind := .custom
  groupId := ""
  encoded := ⟨0, Nat.succ_pos 255⟩ :: List.replicate size ⟨0, Nat.succ_pos 255⟩
  eventId_valid := validId_noteId i
  encoded_ne := List.cons_ne_nil _ _

/-- Eleven custom events. -/
def notes (size : ℕ) : List TimelineEvent := (List.finRange 11).map (note size)

/-- A branch of eleven custom events. -/
def notesManager (size : ℕ) : SessionManager where
  sessionId := "s"
  historyGeneration := "g"
  leafId := some (noteId 10)
  branch := (List.finRange 11).map fun i => ⟨noteId i, false, none⟩
  branchTo := fun _ => (List.finRange 11).map fun i => ⟨noteId i, false, none⟩
  recovered := some (notes size)

/-- The cursor of the first page. -/
def notesCursor : CursorState where
  sessionId := "s"
  historyGeneration := "g"
  snapshotHead := noteId 10
  branchEntryIds := (List.finRange 11).map noteId
  position := 11
  used := true
  busy := true

/-- A request without limits. -/
def notesRequest : HistorySyncRequest := ⟨"r", "c", none, none⟩

/-- The records of the events: each has the position of its entry. -/
def noteRecords (size : ℕ) : List EventRecord :=
  (List.finRange 11).map fun i => ⟨note size i, i, i, (note size i).bytes⟩

theorem sorted_noteRecords (size : ℕ) :
    (noteRecords size).mergeSort recordLe = noteRecords size := by
  have horder : (List.finRange 11).Pairwise fun i j => i < j := by decide
  refine List.mergeSort_of_pairwise (List.pairwise_map.mpr (horder.imp fun {i j} hlt => ?_))
  rw [recordLe, Bool.or_eq_true, decide_eq_true_eq]
  exact .inl hlt

theorem recoverRecords_notes (size : ℕ) :
    recoverRecords (notesManager size) notesCursor = some (noteRecords size) := by
  have hfound : (notes size).zipIdx.filterMap (toRecord
      (branchPositions ((notesManager size).branchTo notesCursor.snapshotHead))
        notesCursor.position) = noteRecords size := by
    rfl
  rw [recoverRecords, if_neg (by decide)]
  dsimp only [notesManager] at hfound ⊢
  rw [hfound, sorted_noteRecords]

theorem selectWindow_notes {size : ℕ} (hsize : 11 * (size + 1) ≤ maxWindowDecodeBytes) :
    selectWindow (noteRecords size) notesCursor.position notesRequest.limit =
      .ok ⟨noteRecords size, 0⟩ := by
  have hgroups : orderedGroups (noteRecords size) notesCursor.position = [] := by
    have hnone : (groupsOf (noteRecords size)).values = [] := rfl
    rw [orderedGroups, hnone, List.filter_nil, List.mergeSort_nil]
  have hsystems : (systems (noteRecords size)).filter (fun r => r.position < notesCursor.position) =
      noteRecords size := rfl
  have hmin : ((noteRecords size).map EventRecord.position).min? = some 0 := rfl
  have hbytes : bytesOf (noteRecords size) = 11 * (size + 1) := by
    have hall : (noteRecords size).map EventRecord.bytes = List.replicate 11 (size + 1) := by
      rw [noteRecords, List.map_map]
      have hnote : (EventRecord.bytes ∘ fun i : Fin 11 =>
          (⟨note size i, i, i, (note size i).bytes⟩ : EventRecord)) = fun _ => size + 1 := by
        funext i
        simp [TimelineEvent.bytes, note]
      rw [hnote]
      rfl
    rw [bytesOf, hall, List.sum_replicate, smul_eq_mul]
  rw [selectWindow, hgroups, List.drop_nil, shrink, systemWindow, hsystems, hmin]
  dsimp only
  rw [if_neg (by rw [hbytes]; omega), sorted_noteRecords]

theorem valid_notesHeader : (chunkHeader notesRequest notesCursor).Valid := by
  constructor <;> decide

theorem final_notes (size : ℕ) (is : List (Fin 11)) :
    finalFrameBytes (chunkHeader notesRequest notesCursor)
      (payloadOf (is.map fun i => .event (note size i))) none =
        is.length * (size + 1) + (is.length - 1) + 240 := by
  have hevents : (payloadOf (is.map fun i => .event (note size i))).events.map
      TimelineEvent.bytes = List.replicate is.length (size + 1) := by
    induction is with
    | nil => rfl
    | cons i is ih =>
      simp only [payloadOf, HistoryItem.events, List.map_cons, List.flatMap_cons, List.length_cons,
        List.replicate_succ, List.singleton_append] at ih ⊢
      rw [ih]
      simp [TimelineEvent.bytes, note]
  have hfragments : (payloadOf (is.map fun i => .event (note size i))).fragments = [] := by
    refine List.flatMap_eq_nil_iff.mpr fun item hitem => ?_
    obtain ⟨i, -, rfl⟩ := List.mem_map.mp hitem
    rfl
  have hheader : (chunkHeader notesRequest notesCursor).jsonBytes = 206 := by decide
  have hzero : jsonNatBytes 0 = 1 := by decide
  have htail : (pageTail none).jsonBytes = 29 := by decide
  rw [finalFrameBytes, jsonBytes_makeChunk, tail_makeChunk_final, hevents, hfragments, hheader,
    hzero, htail, jsonArrayBytes, jsonArrayBytes, List.sum_replicate, smul_eq_mul,
    List.length_replicate]
  simp only [List.length_nil, List.sum_nil, List.map_nil]
  omega

theorem events_notes (size : ℕ) : (noteRecords size).map EventRecord.event = notes size := by
  rw [noteRecords, List.map_map]
  rfl

theorem items_notes {size : ℕ} (hsize : size ≤ 524047) :
    (notes size).flatMap (recordItems (chunkHeader notesRequest notesCursor) none) =
      (List.finRange 11).map fun i => .event (note size i) := by
  have hwhole : ∀ i, recordItems (chunkHeader notesRequest notesCursor) none (note size i) =
      [.event (note size i)] := by
    intro i
    have hone : finalFrameBytes (chunkHeader notesRequest notesCursor) ⟨[note size i], []⟩ none =
        1 * (size + 1) + (1 - 1) + 240 := final_notes size [i]
    rw [recordItems, sentWhole, hone, if_pos (decide_eq_true ?_)]
    unfold maxHistoryChunkBytes
    omega
  rw [notes, List.flatMap_map]
  simp only [hwhole]
  exact List.map_eq_flatMap.symm

theorem hasRoom_notes (size : ℕ) (is : List (Fin 11)) :
    hasRoom (chunkHeader notesRequest notesCursor) none
      (is.map fun i => .event (note size i)) = true ↔
        is.length * (size + 1) + (is.length - 1) + 240 ≤ maxHistoryChunkBytes := by
  have hnone : (is.map fun i => HistoryItem.event (note size i)).flatMap HistoryItem.fragments =
      [] := by
    refine List.flatMap_eq_nil_iff.mpr fun item hitem => ?_
    obtain ⟨i, -, rfl⟩ := List.mem_map.mp hitem
    rfl
  rw [hasRoom, hnone, final_notes, Bool.and_eq_true, decide_eq_true_eq, decide_eq_true_eq]
  exact and_iff_right List.nodup_nil

/-- The notes in pairs, and the last one alone. -/
def notePairs : List (List (Fin 11)) := [[0, 1], [2, 3], [4, 5], [6, 7], [8, 9], [10]]

theorem length_notePairs : ∀ is ∈ notePairs, is.length ≤ 2 := by decide

/-- Notes of 200000 bytes, two of which fill a frame. -/
theorem groups_notes {groups : List (List HistoryItem)}
    (h : Cut (hasRoom (chunkHeader notesRequest notesCursor) none)
      ((notes 199999).flatMap (recordItems (chunkHeader notesRequest notesCursor) none)) groups) :
    groups = notePairs.map (List.map fun i => .event (note 199999 i)) := by
  have hroom : ∀ is : List (Fin 11), hasRoom (chunkHeader notesRequest notesCursor) none
      (is.map fun i => .event (note 199999 i)) = decide (is.length ≤ 2) := by
    intro is
    rw [Bool.eq_iff_iff, hasRoom_notes, decide_eq_true_eq, maxHistoryChunkBytes]
    omega
  rw [items_notes (by omega)] at h
  have hcut := h.eq_cut (fun _ item => hasRoom_of_concat item) (by
    intro item hitem
    obtain ⟨i, -, rfl⟩ := List.mem_map.mp hitem
    exact hroom [i])
  rw [hcut]
  exact (cut_map _ hroom [] (List.finRange 11)).trans (congrArg _ (by decide))

/-- Eleven notes are sent in six frames. -/
theorem small_window_sent : ∃ chunks,
    fragmentWindow (chunkHeader notesRequest notesCursor)
      ((noteRecords 199999).map EventRecord.event) none = .ok chunks ∧ SentFrames chunks := by
  refine (selected_window_sent_iff (notesManager 199999) notesRequest notesCursor
    (noteRecords 199999) ⟨noteRecords 199999, 0⟩ none (recoverRecords_notes 199999)
    (selectWindow_notes (by decide)) valid_notesHeader (by simp)).mpr ?_
  intro groups hgroups
  dsimp only at hgroups
  rw [events_notes] at hgroups
  rw [groups_notes hgroups]
  refine ⟨fun items hitems => ?_, fun items hitems => ?_, fun items hitems => ?_⟩
  · have hlast : items = [10].map fun i => .event (note 199999 i) :=
      (Option.mem_some_iff.mp hitems).symm
    rw [hlast, final_notes]
    decide
  · obtain ⟨is, his, rfl⟩ := List.mem_map.mp hitems
    have hpair := length_notePairs is his
    have hlength : (payloadOf (is.map fun i => .event (note 199999 i))).events.length =
        is.length := by
      simp [payloadOf, HistoryItem.events, List.flatMap_map]
    rw [hlength, maxArrayItems]
    omega
  · obtain ⟨is, -, rfl⟩ := List.mem_map.mp hitems
    intro event _ fragment hfragment
    obtain ⟨item, hitem, hmem⟩ := List.mem_flatMap.mp hfragment
    obtain ⟨i, -, rfl⟩ := List.mem_map.mp hitem
    cases hmem

/-- Eleven events that fill a frame each: the index of the last frame has two digits. -/
theorem eleventh_frame_too_large : ¬ ∀ (manager : SessionManager) (request : HistorySyncRequest)
    (cursor : CursorState) (records : List EventRecord) (window : Window)
    (nextBefore : Option String), recoverRecords manager cursor = some records →
    selectWindow records cursor.position request.limit = .ok window →
    (chunkHeader request cursor).Valid →
    (∀ next, nextBefore = some next → validId next = true) →
      ∃ chunks, fragmentWindow (chunkHeader request cursor)
        (window.records.map EventRecord.event) nextBefore = .ok chunks ∧ SentFrames chunks := by
  intro h
  have hwindow := @selectWindow_notes 524047 (by decide)
  have hsent := h (notesManager 524047) notesRequest notesCursor (noteRecords 524047)
    ⟨noteRecords 524047, 0⟩ none (recoverRecords_notes 524047) hwindow valid_notesHeader (by simp)
  have hfit := (fragmentWindow_iff valid_notesHeader (by simp)
    (sum_bytes_of_selected (recoverRecords_notes 524047) hwindow)).mp hsent
  dsimp only at hfit
  rw [events_notes, items_notes (Nat.le_refl _)] at hfit
  have hcut : Cut (hasRoom (chunkHeader notesRequest notesCursor) none)
      ((List.finRange 11).map fun i => HistoryItem.event (note 524047 i))
      (((List.finRange 11).map fun i => HistoryItem.event (note 524047 i)).map fun x => [x]) := by
    refine Cut.singletons (List.cons_ne_nil _ _) (fun x hx => ?_) fun x hx y hy => ?_
    · obtain ⟨i, -, rfl⟩ := List.mem_map.mp hx
      exact (hasRoom_notes 524047 [i]).mpr (by rw [List.length_singleton]; decide)
    · obtain ⟨i, -, rfl⟩ := List.mem_map.mp hx
      obtain ⟨j, -, rfl⟩ := List.mem_map.mp hy
      refine Bool.eq_false_iff.mpr fun hroom => ?_
      have hboth := (hasRoom_notes 524047 [i, j]).mp hroom
      rw [List.length_cons, List.length_singleton] at hboth
      exact absurd hboth (by decide)
  have hlast := (hfit _ hcut).last [.event (note 524047 10)] rfl
  have hbytes : finalFrameBytes (chunkHeader notesRequest notesCursor)
      (payloadOf [.event (note 524047 10)]) none = 1 * (524047 + 1) + (1 - 1) + 240 :=
    final_notes 524047 [10]
  rw [hbytes, List.length_map, List.length_map, List.length_finRange] at hlast
  exact absurd hlast (by decide)

end RemotePi.Timeline
