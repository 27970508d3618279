import RemotePi.Lib.JsValue
import RemotePi.Lib.Keyed
import RemotePi.Lib.UriComponent
import RemotePi.Protocol.Fingerprint
import RemotePi.Pwa.TimelineStore

/-!
# Keys and conflicts of stored events

Model of `makePwaTimelineEventId`, `sameJsonValue` and `findTimelineConflict`
(`pwa/src/lib/pwa/timeline-store.ts`), on the events as the values that the browser holds.

Results:
* `makePwaTimelineEventId_injective`: no two events share a key.
* `sameJsonValue_iff`: the comparison tells values apart that differ as JSON, and those that
  differ in the sign of a zero.
* `conflict_exact_iff`: when conflicts are reported exactly.
* `findTimelineConflict_toRecord`: the search of a commit over its events is the one over their
  records.
-/

namespace RemotePi.Pwa.TimelineConflict

open RemotePi.Lib RemotePi.Protocol JsValue

/-! ## Keys -/

/-- `makePwaTimelineEventId` (lines 23–27). -/
def makePwaTimelineEventId (scope : StoreScope) (eventId : String) : String :=
  String.ofList ([':'].intercalate
    ([scope.deviceId, scope.endpointId, scope.sessionId, scope.historyGeneration, eventId].map
      fun value => UriComponent.encodeURIComponent value.toList))

theorem makePwaTimelineEventId_injective {scope scope' : StoreScope} {eventId eventId' : String}
    (h : makePwaTimelineEventId scope eventId = makePwaTimelineEventId scope' eventId') :
    scope = scope' ∧ eventId = eventId' := by
  have hparts : [scope.deviceId, scope.endpointId, scope.sessionId, scope.historyGeneration,
      eventId].map String.toList = [scope'.deviceId, scope'.endpointId, scope'.sessionId,
      scope'.historyGeneration, eventId'].map String.toList := by
    refine @UriComponent.joined_injective ':' (by decide) _ _ (by simp) (by simp) ?_
    rw [List.map_map, List.map_map]
    exact String.ofList_injective h
  simp only [List.map_cons, List.map_nil, List.cons.injEq, String.toList_inj, and_true] at hparts
  obtain ⟨hdevice, hendpoint, hsession, hgeneration, hevent⟩ := hparts
  cases scope
  cases scope'
  dsimp only at hdevice hendpoint hsession hgeneration
  subst hdevice hendpoint hsession hgeneration
  exact ⟨rfl, hevent⟩

example : makePwaTimelineEventId ⟨"device", "endpoint", "session", "generation"⟩ "event/1" =
    "device:endpoint:session:generation:event%2F1" := by decide

/-! ## The comparison of events -/

/-- `Object.keys(value).sort()`. -/
def sortedKeys (members : List (String × JsValue)) : List String :=
  (members.map Prod.fst).mergeSort unitsOrder.le

mutual

/-- `sameJsonValue` (lines 95–104). `Object.is` compares two values that are no objects; an
    object is the same as itself, member by member. -/
def sameJsonValue : JsValue → JsValue → Bool
  | .null, .null => true
  | .bool left, .bool right => decide (left = right)
  | .number left, .number right => decide (left = right)
  | .string left, .string right => decide (left = right)
  | .array left, .array right => decide (left.length = right.length) && everyItemSame left right
  | .object left, .object right =>
    decide (sortedKeys left = sortedKeys right) && everyMemberSame left right
  | _, _ => false

/-- `left.every((value, index) => sameJsonValue(value, right[index]))` (line 99). -/
def everyItemSame : List JsValue → List JsValue → Bool
  | [], _ => true
  | _ :: _, [] => false
  | value :: left, value' :: right => sameJsonValue value value' && everyItemSame left right

/-- `leftKeys.every((key) => sameJsonValue(left[key], right[key]))` (line 103). -/
def everyMemberSame : List (String × JsValue) → List (String × JsValue) → Bool
  | [], _ => true
  | (key, value) :: left, right =>
    (match right.lookup key with
      | some value' => sameJsonValue value value'
      | none => false) && everyMemberSame left right

end

section Compare

theorem sortedKeys_eq_iff {left right : List (String × JsValue)} :
    sortedKeys left = sortedKeys right ↔ (left.map Prod.fst).Perm (right.map Prod.fst) := by
  have hperm := List.mergeSort_perm (left.map Prod.fst) unitsOrder.le
  have hperm' := List.mergeSort_perm (right.map Prod.fst) unitsOrder.le
  have hsorted : ∀ keys : List String,
      (keys.mergeSort unitsOrder.le).Pairwise fun key key' => unitsOrder.le key key' = true :=
    fun keys => List.pairwise_mergeSort unitsOrder.trans unitsOrder.total keys
  constructor
  · intro h
    have heq : (left.map Prod.fst).mergeSort unitsOrder.le =
        (right.map Prod.fst).mergeSort unitsOrder.le := h
    exact hperm.symm.trans (heq ▸ hperm')
  · intro h
    refine List.Perm.eq_of_pairwise ?_ (hsorted _) (hsorted _)
      (hperm.trans (h.trans hperm'.symm))
    exact fun key key' _ _ hle hge => unitsOrder.antisymm key key' hle hge

theorem number_eq_iff (left right : JsNumber) :
    left = right ↔ left.value = right.value ∧
      (decide (left = .negativeZero) = decide (right = .negativeZero)) := by
  cases left with
  | finite q =>
    cases right with
    | finite q' => simp [JsNumber.value]
    | negativeZero => simp
  | negativeZero =>
    cases right with
    | finite q' => simp
    | negativeZero => simp

theorem length_eq_of_sameItems {left right : List Json} (h : Json.sameItems left right = true) :
    left.length = right.length := by
  induction left generalizing right with
  | nil =>
    cases right with
    | nil => rfl
    | cons value right => simp [Json.sameItems] at h
  | cons value left ih =>
    cases right with
    | nil => simp [Json.sameItems] at h
    | cons value' right =>
      rw [Json.sameItems, Bool.and_eq_true] at h
      rw [List.length_cons, List.length_cons, ih h.2]

theorem sameJson_array {left right : List JsValue} :
    sameJson (.array left) (.array right) =
      Json.sameItems (imageItems jsonNumber left) (imageItems jsonNumber right) := by
  rw [sameJson, toJson, toJson, image, image, Json.same]

theorem sameZeroSigns_array {left right : List JsValue} :
    sameZeroSigns (.array left) (.array right) =
      Json.sameItems (imageItems zeroSign left) (imageItems zeroSign right) := by
  rw [sameZeroSigns, zeroSigns, zeroSigns, image, image, Json.same]

theorem sameJson_object {left right : List (String × JsValue)} :
    sameJson (.object left) (.object right) = (decide (left.length = right.length) &&
      Json.sameMembers (imageMembers jsonNumber left) (imageMembers jsonNumber right)) := by
  rw [sameJson, toJson, toJson, image, image, Json.same, length_imageMembers, length_imageMembers]

theorem sameZeroSigns_object {left right : List (String × JsValue)} :
    sameZeroSigns (.object left) (.object right) = (decide (left.length = right.length) &&
      Json.sameMembers (imageMembers zeroSign left) (imageMembers zeroSign right)) := by
  rw [sameZeroSigns, zeroSigns, zeroSigns, image, image, Json.same, length_imageMembers,
    length_imageMembers]

/-- Objects of which one has the members of the other have the same keys. -/
theorem keys_perm_of_sameMembers {left right : List (String × JsValue)}
    (hn : (left.map Prod.fst).Nodup) (hlen : left.length = right.length)
    (h : Json.sameMembers (imageMembers jsonNumber left) (imageMembers jsonNumber right) = true) :
    (left.map Prod.fst).Perm (right.map Prod.fst) := by
  have hsub := Json.keys_subset_of_sameMembers h
  rw [keys_imageMembers, keys_imageMembers] at hsub
  exact (List.subperm_of_subset hn hsub).perm_of_length_le (by simp [hlen])

mutual

/-- The comparison tells values apart that differ as JSON or in the sign of a zero. -/
theorem sameJsonValue_iff : ∀ left right : JsValue, left.distinctKeys = true →
    right.distinctKeys = true → (sameJsonValue left right = true ↔
      sameJson left right = true ∧ sameZeroSigns left right = true)
  | .null, right, _, _ => by
    cases right <;> simp [sameJsonValue, sameJson, sameZeroSigns, toJson, zeroSigns, image,
      jsonNumber, zeroSign, Json.same]
  | .bool left, right, _, _ => by
    cases right <;> simp [sameJsonValue, sameJson, sameZeroSigns, toJson, zeroSigns, image,
      jsonNumber, zeroSign, Json.same]
  | .number left, right, _, _ => by
    cases right with
    | number right =>
      simpa [sameJsonValue, sameJson, sameZeroSigns, toJson, zeroSigns, image, jsonNumber, zeroSign,
        Json.same] using number_eq_iff left right
    | _ => simp [sameJsonValue, sameJson, toJson, image, jsonNumber, Json.same]
  | .string left, right, _, _ => by
    cases right <;> simp [sameJsonValue, sameJson, sameZeroSigns, toJson, zeroSigns, image,
      jsonNumber, zeroSign, Json.same]
  | .array left, right, h, h' => by
    cases right with
    | array right =>
      rw [JsValue.distinctKeys] at h h'
      rw [sameJsonValue, Bool.and_eq_true, decide_eq_true_eq, sameJson_array, sameZeroSigns_array]
      constructor
      · rintro ⟨hlen, hevery⟩
        exact (everyItemSame_iff left right h h' hlen).mp hevery
      · intro hsame
        have hlen := length_eq_of_sameItems hsame.1
        rw [length_imageItems, length_imageItems] at hlen
        exact ⟨hlen, (everyItemSame_iff left right h h' hlen).mpr hsame⟩
    | _ => simp [sameJsonValue, sameJson, toJson, image, jsonNumber, Json.same]
  | .object left, right, h, h' => by
    cases right with
    | object right =>
      rw [JsValue.distinctKeys, Bool.and_eq_true, decide_eq_true_eq] at h h'
      rw [sameJsonValue, sameJson_object, sameZeroSigns_object, Bool.and_eq_true, Bool.and_eq_true,
        Bool.and_eq_true, decide_eq_true_eq, decide_eq_true_eq, sortedKeys_eq_iff,
        everyMemberSame_iff left right h.2 h'.2]
      constructor
      · rintro ⟨hperm, hjson, hzeros⟩
        have hlen := hperm.length_eq
        rw [List.length_map, List.length_map] at hlen
        exact ⟨⟨hlen, hjson⟩, hlen, hzeros⟩
      · rintro ⟨⟨hlen, hjson⟩, -, hzeros⟩
        exact ⟨keys_perm_of_sameMembers h.1 hlen hjson, hjson, hzeros⟩
    | _ => simp [sameJsonValue, sameJson, toJson, image, jsonNumber, Json.same]

theorem everyItemSame_iff : ∀ left right : List JsValue, distinctItems left = true →
    distinctItems right = true → left.length = right.length →
      (everyItemSame left right = true ↔
        Json.sameItems (imageItems jsonNumber left) (imageItems jsonNumber right) = true ∧
        Json.sameItems (imageItems zeroSign left) (imageItems zeroSign right) = true)
  | [], [], _, _, _ => by simp [everyItemSame, imageItems, Json.sameItems]
  | [], _ :: _, _, _, hlen => by cases hlen
  | _ :: _, [], _, _, hlen => by cases hlen
  | value :: left, value' :: right, h, h', hlen => by
    rw [distinctItems, Bool.and_eq_true] at h h'
    rw [everyItemSame, imageItems, imageItems, imageItems, imageItems, Json.sameItems,
      Json.sameItems, Bool.and_eq_true, Bool.and_eq_true, Bool.and_eq_true,
      sameJsonValue_iff value value' h.1 h'.1,
      everyItemSame_iff left right h.2 h'.2 (Nat.succ.inj hlen)]
    exact and_and_and_comm

theorem everyMemberSame_iff : ∀ left right : List (String × JsValue),
    distinctMembers left = true → distinctMembers right = true →
      (everyMemberSame left right = true ↔
        Json.sameMembers (imageMembers jsonNumber left) (imageMembers jsonNumber right) = true ∧
        Json.sameMembers (imageMembers zeroSign left) (imageMembers zeroSign right) = true)
  | [], _, _, _ => by simp [everyMemberSame, imageMembers, Json.sameMembers]
  | (key, value) :: left, right, h, h' => by
    rw [distinctMembers, Bool.and_eq_true] at h
    have hrest := everyMemberSame_iff left right h.2 h'
    rw [everyMemberSame, imageMembers, imageMembers, Json.sameMembers, Json.sameMembers,
      lookup_imageMembers, lookup_imageMembers, Bool.and_eq_true, Bool.and_eq_true,
      Bool.and_eq_true, hrest]
    cases hfound : right.lookup key with
    | none => simp
    | some found =>
      have hvalue := sameJsonValue_iff value found h.1 (distinctKeys_of_lookup h' hfound)
      dsimp only [Option.map_some]
      rw [hvalue]
      exact and_and_and_comm

end

end Compare

/-! ## Conflicts -/

/-- What the search reads of a `PwaTimelineEventRecord` (`pwa/src/lib/pwa/db.ts`). -/
structure PwaTimelineEventRecord where
  id : String
  event : JsValue
  distinct : event.distinctKeys = true

/-- The records of a scope in the table, whose primary key is `id` (`db.ts`, line 96). -/
structure StoredRecords where
  records : List PwaTimelineEventRecord
  nodup : (records.map PwaTimelineEventRecord.id).Nodup

/-- The loop of `findTimelineConflict` (lines 108–112). -/
def conflictFrom : OrderedMap String PwaTimelineEventRecord → List PwaTimelineEventRecord →
    Option PwaTimelineEventRecord
  | _, [] => none
  | byId, record :: rest =>
    match byId.get? record.id with
    | some previous =>
      if !sameJsonValue previous.event record.event then some record else conflictFrom byId rest
    | none => conflictFrom (byId.set record.id record) rest

/-- `findTimelineConflict` (lines 106–114). -/
def findTimelineConflict (existing incoming : List PwaTimelineEventRecord) :
    Option PwaTimelineEventRecord :=
  conflictFrom (collect PwaTimelineEventRecord.id existing) incoming

/-- An incoming event differs from a stored or an incoming one of its key. -/
def Clash (differ : JsValue → JsValue → Bool) (existing : StoredRecords)
    (incoming : List PwaTimelineEventRecord) : Prop :=
  ∃ record ∈ incoming, ∃ other ∈ existing.records ++ incoming,
    other.id = record.id ∧ differ other.event record.event = true

/-- The events differ as JSON values. -/
def differ (left right : JsValue) : Bool := !sameJson left right

/-- The events are the same JSON value and differ in the sign of a zero. -/
def differInZeros (left right : JsValue) : Bool := sameJson left right && !sameZeroSigns left right

section Conflict

variable {a b c : PwaTimelineEventRecord} {byId : OrderedMap String PwaTimelineEventRecord}
  {existing : StoredRecords} {incoming : List PwaTimelineEventRecord}

/-- The comparison holds between the events of two records. -/
def Agree (a b : PwaTimelineEventRecord) : Prop := sameJsonValue a.event b.event = true

theorem agree_iff : Agree a b ↔
    sameJson a.event b.event = true ∧ sameZeroSigns a.event b.event = true :=
  sameJsonValue_iff a.event b.event a.distinct b.distinct

theorem agree_refl (a : PwaTimelineEventRecord) : Agree a a :=
  agree_iff.mpr
    ⟨Json.same_refl unitsOrder ((distinctKeys_toJson a.event).trans a.distinct),
      Json.same_refl unitsOrder ((distinctKeys_zeroSigns a.event).trans a.distinct)⟩

theorem Agree.symm (h : Agree a b) : Agree b a := by
  obtain ⟨hjson, hzeros⟩ := agree_iff.mp h
  refine agree_iff.mpr
    ⟨Json.same_symm unitsOrder ?_ ?_ hjson, Json.same_symm unitsOrder ?_ ?_ hzeros⟩
  · exact (distinctKeys_toJson a.event).trans a.distinct
  · exact (distinctKeys_toJson b.event).trans b.distinct
  · exact (distinctKeys_zeroSigns a.event).trans a.distinct
  · exact (distinctKeys_zeroSigns b.event).trans b.distinct

theorem Agree.trans (h : Agree a b) (h' : Agree b c) : Agree a c := by
  obtain ⟨hjson, hzeros⟩ := agree_iff.mp h
  obtain ⟨hjson', hzeros'⟩ := agree_iff.mp h'
  refine agree_iff.mpr ⟨Json.same_trans unitsOrder ?_ ?_ ?_ hjson hjson',
    Json.same_trans unitsOrder ?_ ?_ ?_ hzeros hzeros'⟩
  · exact (distinctKeys_toJson a.event).trans a.distinct
  · exact (distinctKeys_toJson b.event).trans b.distinct
  · exact (distinctKeys_toJson c.event).trans c.distinct
  · exact (distinctKeys_zeroSigns a.event).trans a.distinct
  · exact (distinctKeys_zeroSigns b.event).trans b.distinct
  · exact (distinctKeys_zeroSigns c.event).trans c.distinct

/-- Every record of a list agrees with the one that the map has for its key, and with those of
    the list. -/
def AllAgree (byId : OrderedMap String PwaTimelineEventRecord)
    (records : List PwaTimelineEventRecord) : Prop :=
  ∀ record ∈ records, ∀ other,
    (byId.get? record.id = some other ∨ other ∈ records ∧ other.id = record.id) →
      Agree other record

/-- A record that agrees with the one of its key in the map. -/
theorem AllAgree.cons {previous record : PwaTimelineEventRecord}
    {rest : List PwaTimelineEventRecord} (h : AllAgree byId rest)
    (hget : byId.get? record.id = some previous) (hagree : Agree previous record) :
    AllAgree byId (record :: rest) := by
  intro r hr other hother
  rcases List.mem_cons.mp hr with rfl | hin
  · rcases hother with hbyId | ⟨hmem, hid⟩
    · rw [hget] at hbyId
      cases hbyId
      exact hagree
    · rcases List.mem_cons.mp hmem with rfl | hmem
      · exact agree_refl other
      · -- The map has `previous` for the key of `other` as well.
        have hprevious := h other hmem previous (Or.inl (by rw [hid]; exact hget))
        exact hprevious.symm.trans hagree
  · rcases hother with hbyId | ⟨hmem, hid⟩
    · exact h r hin other (Or.inl hbyId)
    · rcases List.mem_cons.mp hmem with rfl | hmem
      · have hprevious := h r hin previous (Or.inl (by rw [← hid]; exact hget))
        exact hagree.symm.trans hprevious
      · exact h r hin other (Or.inr ⟨hmem, hid⟩)

theorem AllAgree.tail {record : PwaTimelineEventRecord} {rest : List PwaTimelineEventRecord}
    (h : AllAgree byId (record :: rest)) : AllAgree byId rest := by
  intro r hr other hother
  refine h r (List.mem_cons_of_mem _ hr) other ?_
  exact hother.imp_right fun ⟨hmem, hid⟩ => ⟨List.mem_cons_of_mem _ hmem, hid⟩

/-- The first record of a key goes into the map. -/
theorem allAgree_set_iff {record : PwaTimelineEventRecord} {rest : List PwaTimelineEventRecord}
    (hget : byId.get? record.id = none) :
    AllAgree (byId.set record.id record) rest ↔ AllAgree byId (record :: rest) := by
  constructor
  · intro h r hr other hother
    refine h.cons (OrderedMap.get?_set_self ..) (agree_refl record) r hr other ?_
    refine hother.imp_left fun hbyId => ?_
    have hne : r.id ≠ record.id := by
      intro heq
      rw [heq, hget] at hbyId
      cases hbyId
    rw [OrderedMap.get?_set_of_ne _ _ hne, hbyId]
  · intro h r hr other hother
    refine h r (List.mem_cons_of_mem _ hr) other ?_
    rcases hother with hbyId | ⟨hmem, hid⟩
    · rw [OrderedMap.get?_set] at hbyId
      split_ifs at hbyId with heq
      · cases hbyId
        exact Or.inr ⟨List.mem_cons_self, heq.symm⟩
      · exact Or.inl hbyId
    · exact Or.inr ⟨List.mem_cons_of_mem _ hmem, hid⟩

/-- The search ends without a conflict when all records agree. -/
theorem conflictFrom_eq_none_iff : conflictFrom byId incoming = none ↔ AllAgree byId incoming := by
  induction incoming generalizing byId with
  | nil => exact iff_of_true rfl fun record h => absurd h List.not_mem_nil
  | cons record rest ih =>
    rw [conflictFrom]
    cases hget : byId.get? record.id with
    | some previous =>
      dsimp only
      by_cases hsame : sameJsonValue previous.event record.event = true
      · rw [hsame, Bool.not_true, if_neg Bool.false_ne_true, ih]
        exact ⟨fun h => h.cons hget hsame, AllAgree.tail⟩
      · rw [Bool.not_eq_true] at hsame
        rw [hsame, Bool.not_false, if_pos rfl]
        refine iff_of_false (Option.some_ne_none record) fun h => ?_
        have hagree := h record List.mem_cons_self previous (Or.inl hget)
        rw [Agree, hsame] at hagree
        cases hagree
    | none =>
      dsimp only
      rw [ih, allAgree_set_iff hget]

/-- A record of the table is the one that the map has for its key. -/
theorem get?_collect_iff {id : String} {other : PwaTimelineEventRecord} :
    (collect PwaTimelineEventRecord.id existing.records).get? id = some other ↔
      other ∈ existing.records ∧ other.id = id := by
  rw [get?_collect]
  constructor
  · intro h
    exact ⟨mem_of_lastWith h, key_of_lastWith h⟩
  · rintro ⟨hmem, rfl⟩
    exact lastWith_of_mem existing.nodup hmem

/-- What is reported: a difference as JSON or in the sign of a zero. -/
theorem isSome_findTimelineConflict :
    (findTimelineConflict existing.records incoming).isSome = true ↔
      Clash differ existing incoming ∨ Clash differInZeros existing incoming := by
  have hnot : ∀ other record : PwaTimelineEventRecord, ¬ Agree other record ↔
      differ other.event record.event = true ∨ differInZeros other.event record.event = true := by
    intro other record
    rw [agree_iff, differ, differInZeros]
    cases sameJson other.event record.event <;> cases sameZeroSigns other.event record.event <;>
      simp
  have hclash : (findTimelineConflict existing.records incoming).isSome = true ↔
      ∃ record ∈ incoming, ∃ other ∈ existing.records ++ incoming,
        other.id = record.id ∧ ¬ Agree other record := by
    rw [← Option.ne_none_iff_isSome, ne_eq, findTimelineConflict, conflictFrom_eq_none_iff,
      AllAgree]
    push Not
    refine exists_congr fun record => and_congr_right fun _ => exists_congr fun other => ?_
    rw [get?_collect_iff, List.mem_append]
    tauto
  rw [hclash]
  constructor
  · rintro ⟨record, hrecord, other, hother, hid, hdiffer⟩
    exact ((hnot other record).mp hdiffer).imp
      (fun h => ⟨record, hrecord, other, hother, hid, h⟩)
      (fun h => ⟨record, hrecord, other, hother, hid, h⟩)
  · rintro (⟨record, hrecord, other, hother, hid, hdiffer⟩ |
      ⟨record, hrecord, other, hother, hid, hdiffer⟩)
    · exact ⟨record, hrecord, other, hother, hid, (hnot other record).mpr (Or.inl hdiffer)⟩
    · exact ⟨record, hrecord, other, hother, hid, (hnot other record).mpr (Or.inr hdiffer)⟩

/-- Keys never collide, and conflicts are reported exactly unless an incoming event differs from
    one of its key only in the sign of a zero, and none differs from one of its key as JSON. -/
theorem conflict_exact_iff (existing : StoredRecords) (incoming : List PwaTimelineEventRecord) :
    (Function.Injective fun key : StoreScope × String => makePwaTimelineEventId key.1 key.2) ∧
    (((findTimelineConflict existing.records incoming).isSome = true ↔
        Clash differ existing incoming) ↔
      (Clash differInZeros existing incoming → Clash differ existing incoming)) := by
  constructor
  · rintro ⟨scope, eventId⟩ ⟨scope', eventId'⟩ h
    obtain ⟨rfl, rfl⟩ := makePwaTimelineEventId_injective h
    rfl
  · rw [isSome_findTimelineConflict]
    tauto

end Conflict

/-! ## The sign of a zero -/

def storeScope : StoreScope := ⟨"device", "endpoint", "session", "generation"⟩

/-- A user event of the schema. -/
def userEvent (timestamp : JsNumber) : JsValue :=
  .object [("event_id", .string "event"), ("session_id", .string "session"),
    ("history_generation", .string "generation"), ("timestamp", .number timestamp),
    ("group_id", .string "group"), ("kind", .string "user"), ("message_id", .string "event"),
    ("blocks", .array [.object [("type", .string "text"), ("text", .string "hello")]]),
    ("origin", .string "extension"), ("delivery", .string "normal"),
    ("status", .string "committed")]

theorem distinctKeys_userEvent (timestamp : JsNumber) :
    (userEvent timestamp).distinctKeys = true := by
  simp [userEvent, distinctKeys, distinctMembers, distinctItems]

/-- The record of the event in the table (`toRecord`, lines 81–95). -/
def userRecord (timestamp : JsNumber) : PwaTimelineEventRecord :=
  ⟨makePwaTimelineEventId storeScope "event", userEvent timestamp, distinctKeys_userEvent timestamp⟩

def storedZero : StoredRecords := ⟨[userRecord (.finite 0)], List.nodup_singleton _⟩

/-- The event comes once more, with the timestamp written as `-0`. -/
theorem negative_zero_reported :
    ¬ ((findTimelineConflict storedZero.records [userRecord .negativeZero]).isSome = true ↔
      Clash differ storedZero [userRecord .negativeZero]) := by
  have hreported : (findTimelineConflict storedZero.records
      [userRecord .negativeZero]).isSome = true := by
    refine isSome_findTimelineConflict.mpr (Or.inr ⟨userRecord .negativeZero,
      List.mem_cons_self, userRecord (.finite 0), List.mem_cons_self, rfl, ?_⟩)
    decide
  intro h
  obtain ⟨record, hrecord, other, hother, -, hdiffer⟩ := h.mp hreported
  have hrecord : record = userRecord .negativeZero := List.mem_singleton.mp hrecord
  have hother : other = userRecord (.finite 0) ∨ other = userRecord .negativeZero := by
    simpa [storedZero] using hother
  subst hrecord
  rcases hother with rfl | rfl
  · revert hdiffer
    decide
  · revert hdiffer
    decide

/-! ## The records of a commit -/

section Records

variable {scope : StoreScope} {form : TimelineEvent → JsValue}
  {hdistinct : ∀ event, (form event).distinctKeys = true}

/-- `toRecord` (lines 81–95), where `form` is the JSON value of an event. -/
def toRecord (scope : StoreScope) (form : TimelineEvent → JsValue)
    (hdistinct : ∀ event, (form event).distinctKeys = true) (event : TimelineEvent) :
    PwaTimelineEventRecord :=
  ⟨makePwaTimelineEventId scope event.eventId, form event, hdistinct event⟩

/-- The map of the records has, under the key of an event, what the map of the events has. -/
def SameEntries (scope : StoreScope) (form : TimelineEvent → JsValue)
    (hdistinct : ∀ event, (form event).distinctKeys = true)
    (records : OrderedMap String PwaTimelineEventRecord)
    (events : OrderedMap String TimelineEvent) : Prop :=
  ∀ eventId, records.get? (makePwaTimelineEventId scope eventId) =
    (events.get? eventId).map (toRecord scope form hdistinct)

theorem SameEntries.set {records : OrderedMap String PwaTimelineEventRecord}
    {events : OrderedMap String TimelineEvent}
    (h : SameEntries scope form hdistinct records events) (event : TimelineEvent) :
    SameEntries scope form hdistinct
      (records.set (toRecord scope form hdistinct event).id (toRecord scope form hdistinct event))
      (events.set event.eventId event) := by
  intro eventId
  rw [OrderedMap.get?_set, OrderedMap.get?_set]
  by_cases heq : eventId = event.eventId
  · rw [if_pos heq, if_pos (by rw [heq]; rfl)]
    rfl
  · have hne : makePwaTimelineEventId scope eventId ≠ (toRecord scope form hdistinct event).id :=
      fun hid => heq (makePwaTimelineEventId_injective hid).2
    rw [if_neg heq, if_neg hne, h eventId]

theorem sameEntries_collect (existing : List TimelineEvent) :
    SameEntries scope form hdistinct
      (collect PwaTimelineEventRecord.id (existing.map (toRecord scope form hdistinct)))
      (eventsById existing) := by
  have hfold : ∀ (rest : List TimelineEvent) {records : OrderedMap String PwaTimelineEventRecord}
      {events : OrderedMap String TimelineEvent},
      SameEntries scope form hdistinct records events → SameEntries scope form hdistinct
        ((rest.map (toRecord scope form hdistinct)).foldl
          (fun byId record => byId.set record.id record) records)
        (rest.foldl (fun byId event => byId.set event.eventId event) events) := by
    intro rest
    induction rest with
    | nil => exact fun h => h
    | cons event rest ih => exact fun h => ih (h.set event)
  exact hfold existing fun eventId => rfl

/-- The search over the events of a commit is the one over their records, where two events are
    equal exactly when their JSON values are the same. -/
theorem findTimelineConflict_toRecord
    (hform : ∀ a b, sameJsonValue (form a) (form b) = true ↔ a = b)
    (existing incoming : List TimelineEvent) :
    findTimelineConflict (existing.map (toRecord scope form hdistinct))
        (incoming.map (toRecord scope form hdistinct)) =
      (Pwa.findTimelineConflict (eventsById existing) incoming).map
        (toRecord scope form hdistinct) := by
  have hsearch : ∀ {records : OrderedMap String PwaTimelineEventRecord}
      {events : OrderedMap String TimelineEvent},
      SameEntries scope form hdistinct records events →
        conflictFrom records (incoming.map (toRecord scope form hdistinct)) =
          (Pwa.findTimelineConflict events incoming).map (toRecord scope form hdistinct) := by
    induction incoming with
    | nil => exact fun _ => rfl
    | cons event rest ih =>
      intro records events h
      have hentry : records.get? (toRecord scope form hdistinct event).id =
          (events.get? event.eventId).map (toRecord scope form hdistinct) := h event.eventId
      rw [List.map_cons, conflictFrom, Pwa.findTimelineConflict, hentry]
      cases hget : events.get? event.eventId with
      | none => exact ih (h.set event)
      | some previous =>
        by_cases hsame : previous = event
        · subst hsame
          have htrue : sameJsonValue (form previous) (form previous) = true :=
            (hform previous previous).mpr rfl
          simp only [Option.map_some, toRecord, htrue, Bool.not_true, Bool.false_eq_true, if_false,
            ne_eq, not_true_eq_false]
          exact ih h
        · have hfalse : sameJsonValue (form previous) (form event) = false :=
            Bool.eq_false_iff.mpr fun htrue => hsame ((hform previous event).mp htrue)
          simp only [Option.map_some, toRecord, hfalse, Bool.not_false, if_true, ne_eq, hsame,
            not_false_eq_true]
  exact hsearch (sameEntries_collect existing)

end Records

end RemotePi.Pwa.TimelineConflict
