import RemotePi.Timeline.HistoryChunks

/-!
# Publishing events

Model of `TimelineV2Service.publishFrames` (`pi-extension/src/timeline/v2_service.ts`):
an event goes out in one frame, or cut into fragments when the frame would be too
large.

Results:
* `getElem?_fragmentsFrom`: the fragments are numbered from 0, and only the last one is
  final.
* `flatMap_decode_fragmentsFrom`: together they are the encoding of the event.
-/

namespace RemotePi.Timeline

open RemotePi.Lib RemotePi.Protocol

/-- `TimelineEventFragmentSchema` (`protocol/v2/schemas.ts`, lines 353–356). -/
structure TimelineEventFragmentFrame where
  sessionId : String
  historyGeneration : String
  fragment : HistoryFragment
deriving DecidableEq

/-- The frames that carry an event to all channels of an owner. -/
inductive EventBroadcast where
  | timelineEvent (sessionId historyGeneration : String) (event : TimelineEvent)
  | timelineEventFragment (frame : TimelineEventFragmentFrame)
deriving DecidableEq

/-- The bytes of a `timeline_event` frame. -/
def completeFrameBytes (sessionId historyGeneration : String) (event : TimelineEvent) : ℕ :=
  "\x7b\"protocol_version\":2,\"type\":\"timeline_event\",".utf8ByteSize +
    "\"session_id\":,\"history_generation\":,\"event\":\x7d".utf8ByteSize +
    jsonStringBytes sessionId + jsonStringBytes historyGeneration + event.bytes

/-- `publishFrames` (lines 210–236). -/
def publishFrames (sessionId historyGeneration : String) (event : TimelineEvent) :
    List EventBroadcast :=
  if completeFrameBytes sessionId historyGeneration event ≤ maxFrameBytes then
    [.timelineEvent sessionId historyGeneration event]
  else
    (fragmentsFrom event.eventId 0 event.encoded).map fun fragment =>
      .timelineEventFragment ⟨sessionId, historyGeneration, fragment⟩

/-! ## The fragments of an event -/

def fragmentsOf (event : TimelineEvent) : List HistoryFragment :=
  fragmentsFrom event.eventId 0 event.encoded

theorem getElem?_fragmentsFrom (eventId : String) (index : ℕ) (encoded : List Byte)
    (f : HistoryFragment) :
    ∀ i, (fragmentsFrom eventId index encoded)[i]? = some f →
      f.index = index + i ∧
        f.final = decide (i + 1 = (fragmentsFrom eventId index encoded).length) := by
  induction index, encoded using fragmentsFrom.induct with
  | case1 index =>
    intro i h
    simp [fragmentsFrom] at h
  | case2 index encoded hne rest ih =>
    intro i h
    rw [fragmentsFrom, dif_neg hne] at h ⊢
    cases i with
    | zero =>
      rw [List.getElem?_cons_zero, Option.some.injEq] at h
      subst h
      refine ⟨rfl, ?_⟩
      rw [List.length_cons, Bool.eq_iff_iff, List.isEmpty_iff, decide_eq_true_eq]
      constructor
      · intro hnil
        rw [hnil, fragmentsFrom, dif_pos rfl]
        rfl
      · intro hlen
        by_contra hrest
        rw [fragmentsFrom, dif_neg hrest, List.length_cons] at hlen
        omega
    | succ i =>
      rw [List.getElem?_cons_succ] at h
      obtain ⟨hindex, hfinal⟩ := ih i h
      refine ⟨by omega, ?_⟩
      rw [hfinal, List.length_cons]
      simp only [Nat.add_right_cancel_iff]
      rfl

theorem flatMap_decode_fragmentsFrom (eventId : String) (index : ℕ) (encoded : List Byte) :
    (fragmentsFrom eventId index encoded).flatMap (fun f => Base64.decode f.dataBase64.toList) =
      encoded := by
  induction index, encoded using fragmentsFrom.induct with
  | case1 index => simp [fragmentsFrom]
  | case2 index encoded hne rest ih =>
    rw [fragmentsFrom, dif_neg hne, List.flatMap_cons, ih, String.toList_ofList,
      Base64.decode_encode]
    exact List.take_append_drop _ _

section FragmentsOf

variable {event : TimelineEvent} {f : HistoryFragment} {i : ℕ}

theorem eventId_of_mem_fragmentsOf (h : f ∈ fragmentsOf event) : f.eventId = event.eventId :=
  (mem_fragmentsFrom h).1

theorem index_of_getElem? (h : (fragmentsOf event)[i]? = some f) : f.index = i := by
  simpa using (getElem?_fragmentsFrom _ _ _ _ _ h).1

theorem final_of_getElem? (h : (fragmentsOf event)[i]? = some f) :
    f.final = decide (i + 1 = (fragmentsOf event).length) :=
  (getElem?_fragmentsFrom _ _ _ _ _ h).2

/-- A fragment stands at its index. -/
theorem getElem?_index (h : f ∈ fragmentsOf event) : (fragmentsOf event)[f.index]? = some f := by
  obtain ⟨i, hi⟩ := List.mem_iff_getElem?.mp h
  rwa [index_of_getElem? hi]

theorem fragmentsOf_ne_nil (event : TimelineEvent) : fragmentsOf event ≠ [] := by
  rw [fragmentsOf, fragmentsFrom, dif_neg event.encoded_ne]
  exact List.cons_ne_nil _ _

/-- An event of a window has few fragments. -/
theorem length_fragmentsOf_le (h : event.bytes ≤ maxWindowDecodeBytes) :
    (fragmentsOf event).length ≤ maxArrayItems := by
  obtain ⟨n, hn⟩ : ∃ n, (fragmentsOf event).length = n + 1 :=
    Nat.exists_eq_succ_of_ne_zero fun h0 =>
      fragmentsOf_ne_nil event (List.length_eq_zero_iff.mp h0)
  have hlast : n < (fragmentsOf event).length := by omega
  have hget : (fragmentsOf event)[n]? = some (fragmentsOf event)[n] :=
    List.getElem?_eq_getElem hlast
  have hbound := (mem_fragmentsFrom (List.mem_of_getElem? hget)).2.1
  have hindex := index_of_getElem? hget
  rw [hindex] at hbound
  simp only [TimelineEvent.bytes, maxWindowDecodeBytes] at h
  simp only [maxFragmentDecodeBytes] at hbound
  simp only [maxArrayItems]
  omega

end FragmentsOf

end RemotePi.Timeline
