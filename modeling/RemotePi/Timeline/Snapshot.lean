import Mathlib.Order.Monotone.Defs
import RemotePi.Timeline.Availability

/-!
# Records of a snapshot

A cursor stands for a snapshot of the branch at the time of the first request. The
pages that it leads to are recovered from the branch as it is then, with whatever has
been appended, and are filtered by the positions of the snapshot.

Results:
* `selectWindow_renumber`: a window does not depend on how the records are numbered.
* `position_unique`: an id of a branch belongs to one entry.
* `sameRecords_of_extends`: what is appended to a branch leaves the records of a
  snapshot alone, except for their numbers.
* `exists_record_at_nextPosition`: the next cursor stands at a record of a group.
-/

namespace RemotePi.Timeline

open RemotePi.Lib RemotePi.Protocol

/-! ## Renumbered records -/

def EventRecord.renumber (f : ℕ → ℕ) (record : EventRecord) : EventRecord :=
  { record with order := f record.order }

def GroupRecord.renumber (f : ℕ → ℕ) (group : GroupRecord) : GroupRecord :=
  { group with records := group.records.map (EventRecord.renumber f) }

def Window.renumber (f : ℕ → ℕ) (window : Window) : Window :=
  { window with records := window.records.map (EventRecord.renumber f) }

section Renumber

variable {f : ℕ → ℕ}

theorem map_event_renumber (rs : List EventRecord) :
    (rs.map (EventRecord.renumber f)).map EventRecord.event = rs.map EventRecord.event := by
  rw [List.map_map]
  rfl

theorem bytesOf_renumber (rs : List EventRecord) :
    bytesOf (rs.map (EventRecord.renumber f)) = bytesOf rs := by
  unfold bytesOf
  rw [List.map_map]
  rfl

/-- A test that does not read the number. -/
theorem filter_renumber {test : EventRecord → Bool}
    (h : ∀ r, test (r.renumber f) = test r) (rs : List EventRecord) :
    (rs.map (EventRecord.renumber f)).filter test =
      (rs.filter test).map (EventRecord.renumber f) := by
  rw [List.filter_map]
  congr 2
  funext r
  exact h r

theorem mergeSort_renumber (hf : StrictMono f) (rs : List EventRecord) :
    (rs.map (EventRecord.renumber f)).mergeSort recordLe =
      (rs.mergeSort recordLe).map (EventRecord.renumber f) := by
  refine (List.map_mergeSort fun a _ b _ => ?_).symm
  unfold recordLe EventRecord.renumber
  dsimp only
  rw [decide_eq_decide.mpr (hf.le_iff_le (a := a.order) (b := b.order))]

theorem addToGroup_renumber (groups : OrderedMap String GroupRecord) (record : EventRecord) :
    addToGroup (groups.mapValues fun _ => GroupRecord.renumber f) (record.renumber f) =
      (addToGroup groups record).mapValues fun _ => GroupRecord.renumber f := by
  unfold addToGroup
  dsimp only [EventRecord.renumber]
  rw [OrderedMap.get?_mapValues]
  cases groups.get? record.event.groupId with
  | none =>
    dsimp only [Option.map_none]
    rw [OrderedMap.mapValues_set]
    rfl
  | some group =>
    dsimp only [Option.map_some]
    rw [OrderedMap.mapValues_set]
    simp [GroupRecord.renumber, EventRecord.renumber]

theorem groupsOf_renumber (rs : List EventRecord) :
    groupsOf (rs.map (EventRecord.renumber f)) =
      (groupsOf rs).mapValues fun _ => GroupRecord.renumber f := by
  unfold groupsOf grouped
  rw [filter_renumber (fun _ => rfl)]
  induction rs.filter (fun r => !r.event.isSystem) using List.reverseRecOn with
  | nil => rfl
  | append_singleton rs r ih =>
    rw [List.map_append, List.foldl_append, List.foldl_append, ih, List.map_singleton,
      List.foldl_cons, List.foldl_nil, List.foldl_cons, List.foldl_nil, addToGroup_renumber]

theorem orderedGroups_renumber (rs : List EventRecord) (position : ℕ) :
    orderedGroups (rs.map (EventRecord.renumber f)) position =
      (orderedGroups rs position).map (GroupRecord.renumber f) := by
  unfold orderedGroups
  rw [groupsOf_renumber]
  have hvalues : ((groupsOf rs).mapValues fun _ => GroupRecord.renumber f).values =
      (groupsOf rs).values.map (GroupRecord.renumber f) := by
    unfold OrderedMap.values OrderedMap.mapValues
    rw [List.map_map, List.map_map]
    rfl
  have hsort : ∀ groups : List GroupRecord,
      (groups.map (GroupRecord.renumber f)).mergeSort groupLe =
        (groups.mergeSort groupLe).map (GroupRecord.renumber f) := fun groups =>
    (List.map_mergeSort (f := GroupRecord.renumber f) fun _ _ _ _ => rfl).symm
  rw [hvalues, List.filter_map, hsort]
  rfl

theorem selectedRecords_renumber (hf : StrictMono f) (systems : List EventRecord)
    (position firstPosition : ℕ) (selected : List GroupRecord) :
    selectedRecords (systems.map (EventRecord.renumber f)) position firstPosition
        (selected.map (GroupRecord.renumber f)) =
      (selectedRecords systems position firstPosition selected).map (EventRecord.renumber f) := by
  unfold selectedRecords
  rw [filter_renumber (fun _ => rfl), List.flatMap_map, ← mergeSort_renumber hf, List.map_append,
    List.map_flatMap]
  rfl

theorem systemWindow_renumber (hf : StrictMono f) (systems : List EventRecord) (position : ℕ) :
    systemWindow (systems.map (EventRecord.renumber f)) position =
      (systemWindow systems position).map (Window.renumber f) := by
  unfold systemWindow
  dsimp only
  rw [filter_renumber (fun _ => rfl), List.map_map, bytesOf_renumber, mergeSort_renumber hf]
  rw [show EventRecord.position ∘ EventRecord.renumber f = EventRecord.position from rfl]
  cases ((systems.filter fun r => decide (r.position < position)).map EventRecord.position).min? with
  | none => rfl
  | some next =>
    dsimp only
    split_ifs <;> rfl

theorem shrink_renumber (hf : StrictMono f) (systems : List EventRecord) (position : ℕ)
    (groups : List GroupRecord) :
    shrink (systems.map (EventRecord.renumber f)) position
        (groups.map (GroupRecord.renumber f)) =
      (shrink systems position groups).map (Window.renumber f) := by
  induction groups with
  | nil => exact systemWindow_renumber hf systems position
  | cons group groups ih =>
    rw [List.map_cons, shrink, shrink, ← List.map_cons, selectedRecords_renumber hf,
      bytesOf_renumber]
    dsimp only [GroupRecord.renumber]
    by_cases hbytes : bytesOf (selectedRecords systems position group.firstPosition
        (group :: groups)) ≤ maxWindowDecodeBytes
    · simp only [hbytes, if_true]
      rfl
    · simp only [hbytes, if_false, List.isEmpty_map]
      by_cases hempty : groups.isEmpty = true
      · simp only [hempty, if_true]
        rfl
      · simp only [hempty, Bool.false_eq_true, if_false]
        exact ih

theorem selectWindow_renumber (hf : StrictMono f) (rs : List EventRecord) (position : ℕ)
    (limit : Option ℕ) :
    selectWindow (rs.map (EventRecord.renumber f)) position limit =
      (selectWindow rs position limit).map (Window.renumber f) := by
  unfold selectWindow systems
  dsimp only
  rw [orderedGroups_renumber, filter_renumber (fun _ => rfl), List.length_map, ← List.map_drop]
  exact shrink_renumber hf _ position _

end Renumber

/-- Records that differ in their numbers only, which are in the same order. -/
def SameRecords (rs rs' : List EventRecord) : Prop :=
  ∃ f : ℕ → ℕ, StrictMono f ∧ rs' = rs.map (EventRecord.renumber f)

theorem SameRecords.trans {rs rs' rs'' : List EventRecord} (h : SameRecords rs rs')
    (h' : SameRecords rs' rs'') : SameRecords rs rs'' := by
  obtain ⟨f, hf, rfl⟩ := h
  obtain ⟨g, hg, rfl⟩ := h'
  refine ⟨g ∘ f, hg.comp hf, ?_⟩
  rw [List.map_map]
  rfl

theorem SameRecords.mergeSort {rs rs' : List EventRecord} (h : SameRecords rs rs') :
    SameRecords (rs.mergeSort recordLe) (rs'.mergeSort recordLe) := by
  obtain ⟨f, hf, rfl⟩ := h
  exact ⟨f, hf, mergeSort_renumber hf rs⟩

section Insert

variable {positions : OrderedMap String ℕ} {p : ℕ}

theorem filterMap_toRecord_renumber {f : ℕ → ℕ} (events : List TimelineEvent) {n n' : ℕ}
    (h : ∀ i < events.length, f (n + i) = n' + i) :
    (events.zipIdx n').filterMap (toRecord positions p) =
      ((events.zipIdx n).filterMap (toRecord positions p)).map (EventRecord.renumber f) := by
  induction events generalizing n n' with
  | nil => rfl
  | cons event events ih =>
    have hfirst : toRecord positions p (event, n') =
        (toRecord positions p (event, n)).map (EventRecord.renumber f) := by
      have h0 := h 0 (Nat.zero_lt_succ _)
      unfold toRecord
      dsimp only
      cases positions.get? event.eventId with
      | none => rfl
      | some position =>
        dsimp only
        split_ifs
        · rfl
        · simp only [Option.map_some, EventRecord.renumber]
          rw [Nat.add_zero, Nat.add_zero] at h0
          rw [h0]
    have hrest := @ih (n + 1) (n' + 1) fun i hi => by
      have hi' := h (i + 1) (Nat.succ_lt_succ hi)
      rw [Nat.add_assoc, Nat.add_comm 1 i, hi']
      omega
    rw [List.zipIdx_cons, List.zipIdx_cons, List.filterMap_cons, List.filterMap_cons, hfirst, hrest]
    cases toRecord positions p (event, n) <;> rfl

/-- Events without a record may stand between the others. -/
theorem sameRecords_insert (before after : List TimelineEvent) {more : List TimelineEvent}
    (h : ∀ event ∈ more, ∀ n, toRecord positions p (event, n) = none) :
    SameRecords ((before ++ after).zipIdx.filterMap (toRecord positions p))
      ((before ++ more ++ after).zipIdx.filterMap (toRecord positions p)) := by
  refine ⟨fun n => if n < before.length then n else n + more.length, ?_, ?_⟩
  · intro a b hab
    dsimp only
    split_ifs <;> omega
  · have hmore : (more.zipIdx (0 + before.length)).filterMap (toRecord positions p) = [] := by
      refine List.filterMap_eq_nil_iff.mpr fun indexed hindexed => ?_
      obtain ⟨event, n⟩ := indexed
      exact h event (List.fst_mem_of_mem_zipIdx hindexed) n
    rw [List.zipIdx_append, List.zipIdx_append, List.zipIdx_append, List.filterMap_append,
      List.filterMap_append, List.filterMap_append, hmore, List.append_nil, List.map_append]
    congr 1
    · refine filterMap_toRecord_renumber before fun i hi => ?_
      rw [Nat.zero_add, if_pos hi]
    · refine filterMap_toRecord_renumber after fun i _ => ?_
      rw [List.length_append, if_neg (by omega)]
      omega

end Insert

/-! ## The ids of a branch -/

/-- The ids that `recoverRecords` gives the position of an entry (lines 221–228). -/
def BranchEntry.eventIds (entry : BranchEntry) : List String :=
  entry.id :: ((if entry.isMessage then ["legacy:" ++ entry.id] else []) ++
    entry.markerEventId.toList)

def timelineIds (branch : List SessionEntry) : List String :=
  branch.flatMap fun entry => entry.branchEntry.eventIds

theorem get?_addPositions {positions : OrderedMap String ℕ} {entry : BranchEntry} {n p : ℕ}
    {id : String} (h : (addPositions positions (entry, n)).get? id = some p) :
    (id ∈ entry.eventIds ∧ p = n) ∨ positions.get? id = some p := by
  have hset : ∀ (m : OrderedMap String ℕ) (key : String), key ∈ entry.eventIds →
      (m.set key n).get? id = some p →
      (id ∈ entry.eventIds ∧ p = n) ∨ m.get? id = some p := by
    intro m key hkey hget
    rw [OrderedMap.get?_set] at hget
    split_ifs at hget with heq
    · exact .inl ⟨heq ▸ hkey, (Option.some.inj hget).symm⟩
    · exact .inr hget
  have hid : entry.id ∈ entry.eventIds := List.mem_cons_self
  have hmessage : (if entry.isMessage then
      (positions.set entry.id n).set ("legacy:" ++ entry.id) n else positions.set entry.id n).get? id =
      some p → (id ∈ entry.eventIds ∧ p = n) ∨ positions.get? id = some p := by
    intro hget
    split_ifs at hget with hm
    · rcases hset _ _ (by simp [BranchEntry.eventIds, hm]) hget with hdone | hget
      · exact .inl hdone
      · exact hset _ _ hid hget
    · exact hset _ _ hid hget
  unfold addPositions at h
  dsimp only at h
  cases hmarker : entry.markerEventId with
  | none =>
    rw [hmarker] at h
    exact hmessage h
  | some eventId =>
    rw [hmarker] at h
    dsimp only at h
    by_cases hne : eventId ≠ ""
    · rw [if_pos hne] at h
      rcases hset _ _ (by simp [BranchEntry.eventIds, hmarker]) h with hdone | hget
      · exact .inl hdone
      · exact hmessage hget
    · rw [if_neg hne] at h
      exact hmessage h

/-- A position that is found is that of an entry with the id. -/
theorem get?_branchPositions {branch : List BranchEntry} {id : String} {p : ℕ}
    (h : (branchPositions branch).get? id = some p) :
    ∃ entry, branch[p]? = some entry ∧ id ∈ entry.eventIds := by
  induction branch using List.reverseRecOn with
  | nil => cases h
  | append_singleton branch entry ih =>
    have hlast : branchPositions (branch ++ [entry]) =
        addPositions (branchPositions branch) (entry, branch.length) := by
      rw [branchPositions, List.zipIdx_append, List.foldl_append]
      simp [branchPositions]
    rw [hlast] at h
    rcases get?_addPositions h with ⟨hid, rfl⟩ | hget
    · exact ⟨entry, by simp, hid⟩
    · obtain ⟨found, hfound, hid⟩ := ih hget
      refine ⟨found, ?_, hid⟩
      rw [List.getElem?_append_left (List.getElem?_eq_some_iff.mp hfound).1]
      exact hfound

/-- No two entries share an id. -/
theorem position_unique {branch : List SessionEntry} (h : (timelineIds branch).Nodup) {i j : ℕ}
    {entry entry' : SessionEntry} {id : String} (hi : branch[i]? = some entry)
    (hj : branch[j]? = some entry') (hid : id ∈ entry.branchEntry.eventIds)
    (hid' : id ∈ entry'.branchEntry.eventIds) : i = j := by
  obtain ⟨hi', rfl⟩ := List.getElem?_eq_some_iff.mp hi
  obtain ⟨hj', rfl⟩ := List.getElem?_eq_some_iff.mp hj
  have hpairs := List.pairwise_iff_getElem.mp (List.nodup_flatMap.mp h).2
  rcases Nat.lt_trichotomy i j with hlt | heq | hlt
  · exact absurd hid' (hpairs i j hi' hj' hlt hid)
  · exact heq
  · exact absurd hid (hpairs j i hj' hi' hlt hid')

theorem mem_eventIds_of_marker? {entry : SessionEntry} {marker : Marker}
    (h : entry.marker? = some marker) : marker.eventId ∈ entry.branchEntry.eventIds := by
  have hid := markerEventId?_of_marker? h
  simp [BranchEntry.eventIds, SessionEntry.branchEntry, hid]

theorem isMessage_of_record? {entry : SessionEntry} {record : MessageRecord}
    (h : entry.record? = some record) : entry.isMessage = true ∧ entry.isNote = false := by
  unfold SessionEntry.record? at h
  unfold SessionEntry.isMessage SessionEntry.isNote
  cases hcontent : entry.content with
  | message record => exact ⟨rfl, rfl⟩
  | custom customType data => rw [hcontent] at h; cases h
  | compaction => rw [hcontent] at h; cases h
  | branchSummary => rw [hcontent] at h; cases h
  | other => rw [hcontent] at h; cases h

/-- The id of a message's event is an id of an entry that is no note: of its marker, or of
    the message itself. -/
theorem exists_entry_of_recoveredMessages {sessionId : String} {branch : List SessionEntry}
    {found : SessionEntry × MessageRecord × Marker}
    (h : found ∈ recoveredMessages sessionId branch) :
    ∃ (i : ℕ) (entry : SessionEntry), branch[i]? = some entry ∧ entry.isNote = false ∧
      found.2.2.eventId ∈ entry.branchEntry.eventIds := by
  rcases List.mem_append.mp h with h | h
  · obtain ⟨before, entry, after, rfl, hmarker, -⟩ := mem_claimed_iff.mp h
    exact ⟨before.length, entry, by simp, isNote_eq_false_of_marker? hmarker,
      mem_eventIds_of_marker? hmarker⟩
  · obtain ⟨entry, hentry, hfound⟩ := List.mem_filterMap.mp h
    cases hrecord : entry.record? with
    | none => rw [hrecord] at hfound; cases hfound
    | some record =>
      rw [hrecord] at hfound
      dsimp only at hfound
      split_ifs at hfound
      cases hfound
      obtain ⟨i, hi, hget⟩ := List.mem_iff_getElem.mp hentry
      obtain ⟨hmessage, hnote⟩ := isMessage_of_record? hrecord
      refine ⟨i, entry, List.getElem?_eq_some_iff.mpr ⟨hi, hget⟩, hnote, ?_⟩
      rw [legacyMarker_eventId]
      simp [BranchEntry.eventIds, SessionEntry.branchEntry, hmessage]

/-! ## Snapshots of a session -/

/-- The cursor stands for a part of the session that starts at its root. -/
structure SnapshotOf (session : Session) (cursor : CursorState) (snapshot : List SessionEntry) :
    Prop where
  sessionId : session.scope.sessionId = cursor.sessionId
  historyGeneration : session.scope.historyGeneration = cursor.historyGeneration
  starts : snapshot <+: session.branch
  ids : cursor.branchEntryIds = snapshot.map SessionEntry.id
  head : snapshot.getLast?.map SessionEntry.id = some cursor.snapshotHead

/-- The branch has grown by the entries, and nothing else has changed. -/
structure Session.Extends (extended base : Session) (appended : List SessionEntry) : Prop where
  scope : extended.scope = base.scope
  branch : extended.branch = base.branch ++ appended

section Snapshots

variable {rules : HostRules} {text : EventText} {session base extended : Session}
  {appended snapshot : List SessionEntry} {cursor : CursorState}

theorem map_id_branchEntry (entries : List SessionEntry) :
    (entries.map SessionEntry.branchEntry).map BranchEntry.id = entries.map SessionEntry.id := by
  rw [List.map_map]
  rfl

theorem SnapshotOf.ne_nil (h : SnapshotOf session cursor snapshot) : snapshot ≠ [] := by
  rintro rfl
  cases h.head

theorem SnapshotOf.path (h : SnapshotOf session cursor snapshot) :
    session.pathTo cursor.snapshotHead = snapshot := by
  obtain ⟨entry, hlast, hid⟩ := Option.map_eq_some_iff.mp h.head
  rw [← hid]
  exact pathTo_of_prefix h.starts hlast

theorem SnapshotOf.extend (h : SnapshotOf base cursor snapshot)
    (hext : extended.Extends base appended) : SnapshotOf extended cursor snapshot where
  sessionId := by rw [hext.scope, h.sessionId]
  historyGeneration := by rw [hext.scope, h.historyGeneration]
  starts := by
    rw [hext.branch]
    exact h.starts.trans (List.prefix_append _ _)
  ids := h.ids
  head := h.head

theorem SnapshotOf.valid (h : SnapshotOf session cursor snapshot) :
    snapshotInvalidReason (session.manager rules text) cursor = none := by
  have hknown : ((session.manager rules text).branch.any fun entry =>
      entry.id = cursor.snapshotHead) = true := by
    obtain ⟨entry, hlast, hid⟩ := Option.map_eq_some_iff.mp h.head
    refine List.any_eq_true.mpr ⟨entry.branchEntry, List.mem_map_of_mem ?_, decide_eq_true hid⟩
    exact h.starts.subset (List.mem_of_getLast? hlast)
  have htake : (((session.manager rules text).branch.take cursor.branchEntryIds.length).map
      BranchEntry.id) = cursor.branchEntryIds := by
    rw [h.ids, List.length_map]
    show ((session.branch.map SessionEntry.branchEntry).take snapshot.length).map BranchEntry.id = _
    rw [← List.map_take, map_id_branchEntry, ← List.prefix_iff_eq_take.mp h.starts]
  have hpath : ((session.manager rules text).branchTo cursor.snapshotHead).map BranchEntry.id =
      cursor.branchEntryIds := by
    show ((session.pathTo cursor.snapshotHead).map SessionEntry.branchEntry).map BranchEntry.id = _
    rw [h.path, map_id_branchEntry, h.ids]
  have hsession : (session.manager rules text).sessionId = cursor.sessionId := h.sessionId
  have hgeneration : (session.manager rules text).historyGeneration = cursor.historyGeneration :=
    h.historyGeneration
  unfold snapshotInvalidReason
  simp [hsession, hgeneration, hknown, htake, hpath]

theorem ite_some_eq_none {α : Type} {c : Prop} [Decidable c] {reason : α} {rest : Option α} :
    (if c then some reason else rest) = none ↔ ¬ c ∧ rest = none := by
  split_ifs with h <;> simp [h]

/-- The snapshot of a cursor that is valid, and that is not the one of an empty branch. -/
theorem snapshotOf_of_valid
    (h : snapshotInvalidReason (session.manager rules text) cursor = none)
    (hne : cursor.branchEntryIds ≠ []) :
    SnapshotOf session cursor (session.branch.take cursor.branchEntryIds.length) := by
  have hempty : cursor.branchEntryIds.isEmpty = false := by simpa using hne
  unfold snapshotInvalidReason at h
  dsimp only at h
  simp only [ite_some_eq_none] at h
  obtain ⟨hsession, hgeneration, hknown, htake, hpath, -⟩ := h
  rw [hempty] at hknown
  have hany : ((session.manager rules text).branch.any fun entry =>
      decide (entry.id = cursor.snapshotHead)) = true := by simpa using hknown
  have hmem : cursor.snapshotHead ∈ session.branch.map SessionEntry.id := by
    obtain ⟨entry, hentry, hid⟩ := List.any_eq_true.mp hany
    obtain ⟨e, he, rfl⟩ := List.mem_map.mp hentry
    exact List.mem_map.mpr ⟨e, he, of_decide_eq_true hid⟩
  have hids : cursor.branchEntryIds =
      (session.branch.take cursor.branchEntryIds.length).map SessionEntry.id := by
    rw [not_not] at htake
    rw [List.map_take, ← map_id_branchEntry, ← List.map_take]
    exact htake.symm
  -- the path ends at the head, and has as many entries as the cursor has ids
  have hindex : session.branch.findIdx (fun entry => decide (entry.id = cursor.snapshotHead)) <
      session.branch.length := by
    obtain ⟨e, he, hid⟩ := List.mem_map.mp hmem
    exact List.findIdx_lt_length.mpr ⟨e, he, decide_eq_true hid⟩
  have hlength : cursor.branchEntryIds.length =
      session.branch.findIdx (fun entry => decide (entry.id = cursor.snapshotHead)) + 1 := by
    rw [not_not] at hpath
    have hlen := congrArg List.length hpath
    rw [List.length_map] at hlen
    rw [← hlen]
    show ((session.pathTo cursor.snapshotHead).map SessionEntry.branchEntry).length = _
    rw [List.length_map, Session.pathTo, if_pos hmem, List.length_take]
    omega
  refine ⟨not_not.mp hsession, not_not.mp hgeneration, List.take_prefix _ _, hids, ?_⟩
  rw [hlength, List.getLast?_take, if_neg (Nat.succ_ne_zero _), Nat.add_sub_cancel,
    List.getElem?_eq_getElem hindex, Option.some_or, Option.map_some]
  have hid := List.findIdx_getElem (w := hindex)
  exact congrArg some (of_decide_eq_true hid)

/-- The records that a valid cursor is answered from. -/
theorem SnapshotOf.recoverRecords (h : SnapshotOf session cursor snapshot) :
    recoverRecords (session.manager rules text) cursor =
      (session.manager rules text).recovered.map fun recovered =>
        (recovered.zipIdx.filterMap (toRecord (branchPositions (snapshot.map
          SessionEntry.branchEntry)) cursor.position)).mergeSort recordLe := by
  have hempty : cursor.branchEntryIds.isEmpty = false := by
    rw [h.ids, List.isEmpty_map]
    simpa using h.ne_nil
  have hpath : (session.manager rules text).branchTo cursor.snapshotHead =
      snapshot.map SessionEntry.branchEntry := by
    show (session.pathTo cursor.snapshotHead).map SessionEntry.branchEntry = _
    rw [h.path]
  unfold Timeline.recoverRecords
  rw [hempty, Bool.false_and, if_neg Bool.false_ne_true]
  dsimp only
  rw [hpath]
  cases (session.manager rules text).recovered <;> rfl

end Snapshots

/-! ## What appends leave alone -/

/-- The position of the cursor is that of a marker or a message of its snapshot. -/
def AtEntry (snapshot : List SessionEntry) (p : ℕ) : Prop :=
  ∃ entry, snapshot[p]? = some entry ∧ entry.isNote = false

theorem toRecord_eq_none {positions : OrderedMap String ℕ} {p : ℕ} {event : TimelineEvent}
    (h : ∀ q, positions.get? event.eventId = some q → p ≤ q) (n : ℕ) :
    toRecord positions p (event, n) = none := by
  unfold toRecord
  dsimp only
  cases hget : positions.get? event.eventId with
  | none => rfl
  | some q => exact if_pos (h q hget)

section Appends

variable {rules : HostRules} {text : EventText} {base extended : Session}
  {appended snapshot : List SessionEntry} {cursor : CursorState}

/-- An id of a later entry has no position in the snapshot. -/
theorem le_of_position {branch : List SessionEntry} (hids : (timelineIds branch).Nodup)
    (hstarts : snapshot <+: branch) {p j q : ℕ} {entry : SessionEntry} {id : String}
    (hentry : branch[j]? = some entry) (hid : id ∈ entry.branchEntry.eventIds)
    (hlater : j < snapshot.length → p ≤ j)
    (hget : (branchPositions (snapshot.map SessionEntry.branchEntry)).get? id = some q) : p ≤ q := by
  obtain ⟨found, hfound, hfoundId⟩ := get?_branchPositions hget
  rw [List.getElem?_map, Option.map_eq_some_iff] at hfound
  obtain ⟨entry', hentry', rfl⟩ := hfound
  have hlt := (List.getElem?_eq_some_iff.mp hentry').1
  obtain ⟨rest, rfl⟩ := hstarts
  have hq : (snapshot ++ rest)[q]? = some entry' := by
    rw [List.getElem?_append_left hlt]
    exact hentry'
  obtain rfl := position_unique hids hentry hq hid hfoundId
  exact hlater hlt

/-- The event has no record at the cursor. -/
def Unrecorded (snapshot : List SessionEntry) (p : ℕ) (event : TimelineEvent) : Prop :=
  ∀ n, toRecord (branchPositions (snapshot.map SessionEntry.branchEntry)) p (event, n) = none

section Unrecorded

variable (hext : extended.Extends base appended) (hids : (timelineIds extended.branch).Nodup)
  (hsnap : SnapshotOf base cursor snapshot) {event : TimelineEvent} {scope : SessionScope}
  {found : SessionEntry × MessageRecord × Marker}

include hext hids hsnap

/-- An appended entry comes after the snapshot. -/
theorem unrecorded_of_appended {entry : SessionEntry} (hmem : entry ∈ appended)
    (hid : event.eventId ∈ entry.branchEntry.eventIds) :
    Unrecorded snapshot cursor.position event := by
  have hbranch := hext.branch
  have hstarts : snapshot <+: extended.branch := (hsnap.extend hext).starts
  have hlength : snapshot.length ≤ base.branch.length := hsnap.starts.length_le
  obtain ⟨j, hj, hjentry⟩ := List.mem_iff_getElem.mp hmem
  refine toRecord_eq_none fun q hget => ?_
  refine @le_of_position snapshot extended.branch hids hstarts cursor.position
    (base.branch.length + j) q entry event.eventId ?_ hid (fun hlt => ?_) hget
  · rw [hbranch, List.getElem?_append_right (Nat.le_add_right _ _), Nat.add_sub_cancel_left]
    exact List.getElem?_eq_some_iff.mpr ⟨hj, hjentry⟩
  · omega

/-- A marker of the base branch whose message is appended: it lies in the base branch and only
    notes follow it, so the cursor is not past it. -/
theorem unrecorded_of_across (hentry : AtEntry snapshot cursor.position)
    (hfound : ClaimedAcross base.branch appended found)
    (hwire : wireMessage rules text scope found = some event) :
    Unrecorded snapshot cursor.position event := by
  have hbranch := hext.branch
  have hstarts : snapshot <+: extended.branch := (hsnap.extend hext).starts
  obtain ⟨before, entry, after, hsplit, hmarker, hnotes, -⟩ := hfound
  have hat : base.branch[before.length]? = some entry := by rw [hsplit]; simp
  refine toRecord_eq_none fun q hget => ?_
  refine @le_of_position snapshot extended.branch hids hstarts cursor.position before.length q
    entry event.eventId ?_ ?_ (fun _ => ?_) hget
  · rw [hbranch, List.getElem?_append_left (List.getElem?_eq_some_iff.mp hat).1]
    exact hat
  · rw [wireMessage_eventId hwire]
    exact mem_eventIds_of_marker? hmarker
  · obtain ⟨atEntry, hget', hnote⟩ := hentry
    by_contra hlt
    obtain ⟨rest, hrest⟩ := hsnap.starts
    have hin : base.branch[cursor.position]? = some atEntry := by
      rw [← hrest, List.getElem?_append_left (List.getElem?_eq_some_iff.mp hget').1]
      exact hget'
    obtain ⟨k, hk⟩ : ∃ k, cursor.position = before.length + (k + 1) :=
      ⟨cursor.position - before.length - 1, by omega⟩
    rw [hsplit, hk, List.getElem?_append_right (Nat.le_add_right _ _), Nat.add_sub_cancel_left,
      List.getElem?_cons_succ] at hin
    rw [hnotes atEntry (List.mem_of_getElem? hin)] at hnote
    cases hnote

/-- An appended marker. -/
theorem unrecorded_of_claimed (hfound : found ∈ claimed appended)
    (hwire : wireMessage rules text scope found = some event) :
    Unrecorded snapshot cursor.position event := by
  obtain ⟨before, entry, after, hsplit, hmarker, -⟩ := mem_claimed_iff.mp hfound
  have hmem : entry ∈ appended := by
    rw [hsplit]
    exact List.mem_append_right _ List.mem_cons_self
  refine unrecorded_of_appended hext hids hsnap hmem ?_
  rw [wireMessage_eventId hwire]
  exact mem_eventIds_of_marker? hmarker

/-- An appended message that no marker claims. -/
theorem unrecorded_of_legacy {sessionId : String} (hmem : found.1 ∈ appended)
    (hrecord : found.1.record? = some found.2.1)
    (hmarker : found.2.2 = legacyMarker sessionId found.1 found.2.1.role)
    (hwire : wireMessage rules text scope found = some event) :
    Unrecorded snapshot cursor.position event := by
  refine unrecorded_of_appended hext hids hsnap hmem ?_
  rw [wireMessage_eventId hwire, hmarker, legacyMarker_eventId]
  simp [BranchEntry.eventIds, SessionEntry.branchEntry, (isMessage_of_record? hrecord).1]

/-- An appended summary. -/
theorem unrecorded_of_system {entry : SessionEntry} (hmem : entry ∈ appended)
    (hwire : wireSystem rules text scope entry = some event) :
    Unrecorded snapshot cursor.position event := by
  refine unrecorded_of_appended hext hids hsnap hmem ?_
  rw [(wireSystem_eq_some hwire).1]
  exact List.mem_cons_self

end Unrecorded

/-- What is appended to a branch leaves the records of a snapshot alone. -/
theorem sameRecords_of_extends (hext : extended.Extends base appended)
    (hids : (timelineIds extended.branch).Nodup) (hsnap : SnapshotOf base cursor snapshot)
    (hentry : AtEntry snapshot cursor.position) {recovered recovered' : List TimelineEvent}
    (hbase : (base.manager rules text).recovered = some recovered)
    (hextended : (extended.manager rules text).recovered = some recovered') :
    SameRecords
      (recovered.zipIdx.filterMap (toRecord (branchPositions (snapshot.map
        SessionEntry.branchEntry)) cursor.position))
      (recovered'.zipIdx.filterMap (toRecord (branchPositions (snapshot.map
        SessionEntry.branchEntry)) cursor.position)) := by
  have hbranch := hext.branch
  obtain ⟨across, hclaimed, hacross⟩ := claimed_append base.branch appended
  obtain ⟨later, hunclaimed, hmessages⟩ := @unclaimed_append base.scope.sessionId base.branch
    appended (hbranch ▸ extended.ids_nodup)
  rw [recovered_manager, Option.map_eq_some_iff] at hbase hextended
  obtain ⟨messages, hmapM, rfl⟩ := hbase
  obtain ⟨messages', hmapM', rfl⟩ := hextended
  rw [hext.scope, hbranch, recoveredMessages, hclaimed, hunclaimed] at hmapM'
  rw [recoveredMessages] at hmapM
  obtain ⟨claims, others, hclaims, hothers, rfl⟩ := mapM_append_eq_some.mp hmapM
  obtain ⟨claims', others', hclaims', hothers', rfl⟩ := mapM_append_eq_some.mp hmapM'
  obtain ⟨claims'', laterClaims, hclaims'', hlaterClaims, rfl⟩ := mapM_append_eq_some.mp hclaims'
  obtain ⟨claims₀, acrossClaims, hclaims₀, hacrossClaims, rfl⟩ := mapM_append_eq_some.mp hclaims''
  obtain ⟨others₀, laterOthers, hothers₀, hlaterOthers, rfl⟩ := mapM_append_eq_some.mp hothers'
  cases hclaims.symm.trans hclaims₀
  cases hothers.symm.trans hothers₀
  rw [hext.scope, hbranch, List.filterMap_append]
  have hfirst : ∀ event ∈ acrossClaims ++ laterClaims,
      Unrecorded snapshot cursor.position event := by
    intro event hevent
    rcases List.mem_append.mp hevent with hevent | hevent
    · obtain ⟨found, hfound, hwire⟩ := exists_of_mem_mapM hacrossClaims hevent
      exact unrecorded_of_across hext hids hsnap hentry (hacross found hfound) hwire
    · obtain ⟨found, hfound, hwire⟩ := exists_of_mem_mapM hlaterClaims hevent
      exact unrecorded_of_claimed hext hids hsnap hfound hwire
  have hsecond : ∀ event ∈ laterOthers, Unrecorded snapshot cursor.position event := by
    intro event hevent
    obtain ⟨found, hfound, hwire⟩ := exists_of_mem_mapM hlaterOthers hevent
    obtain ⟨hmem, hrecord, hmarker⟩ := hmessages found hfound
    exact unrecorded_of_legacy hext hids hsnap hmem hrecord hmarker hwire
  have hthird : ∀ event ∈ appended.filterMap (wireSystem rules text base.scope),
      Unrecorded snapshot cursor.position event := by
    intro event hevent
    obtain ⟨entry, hmem, hwire⟩ := List.mem_filterMap.mp hevent
    exact unrecorded_of_system hext hids hsnap hmem hwire
  have h₁ := sameRecords_insert claims
    (others ++ base.branch.filterMap (wireSystem rules text base.scope)) hfirst
  have h₂ := sameRecords_insert (claims ++ (acrossClaims ++ laterClaims) ++ others)
    (base.branch.filterMap (wireSystem rules text base.scope)) hsecond
  have h₃ := sameRecords_insert (claims ++ (acrossClaims ++ laterClaims) ++ others ++ laterOthers ++
    base.branch.filterMap (wireSystem rules text base.scope)) [] hthird
  simp only [List.append_assoc, List.append_nil] at h₁ h₂ h₃ ⊢
  exact (h₁.trans h₂).trans h₃

end Appends

/-! ## Pages of a snapshot -/

section Pages

variable {token : ℕ → String} {m m' : SessionManager} {pager : Pager}
  {request : HistorySyncRequest} {cursor : CursorState} {rs rs' : List EventRecord}

/-- A page depends on its records only up to their numbers. -/
theorem page_of_sameRecords (hvalid : snapshotInvalidReason m cursor = none)
    (hvalid' : snapshotInvalidReason m' cursor = none) (hr : recoverRecords m cursor = some rs)
    (hr' : recoverRecords m' cursor = some rs') (hsame : SameRecords rs rs') :
    page token m' pager request cursor = page token m pager request cursor := by
  obtain ⟨f, hf, rfl⟩ := hsame
  unfold page
  simp only [hvalid, hvalid', hr, hr', selectWindow_renumber hf]
  cases selectWindow rs cursor.position request.limit with
  | error message => rfl
  | ok window =>
    have holder : (rs.map (EventRecord.renumber f)).any
        (fun r => decide (r.position < window.nextPosition)) =
          rs.any fun r => decide (r.position < window.nextPosition) := by
      rw [List.any_map]
      rfl
    simp only [Except.map, Window.renumber, map_event_renumber, holder]

theorem page_of_not_recovered (hvalid : snapshotInvalidReason m cursor = none)
    (hr : recoverRecords m cursor = none) : page token m pager request cursor =
      (pager, [protocolError request .internalError "history recovery failed"]) := by
  unfold page
  simp only [hvalid, hr]

/-- A page whose records are recovered is not answered by `internal_error`. -/
theorem page_ne_internalError (hvalid : snapshotInvalidReason m cursor = none)
    (hr : recoverRecords m cursor = some rs) : (page token m pager request cursor).2 ≠
      [protocolError request .internalError "history recovery failed"] := by
  have hlarge : ∀ message : String, [protocolError request .tooLarge message] ≠
      [protocolError request .internalError "history recovery failed"] := by
    intro message h
    cases h
  unfold page
  simp only [hvalid, hr]
  cases selectWindow rs cursor.position request.limit with
  | error message => exact hlarge message
  | ok window =>
    dsimp only
    cases fragmentWindow (chunkHeader request cursor) (window.records.map EventRecord.event)
        (if (rs.any fun r => decide (r.position < window.nextPosition)) = true
          then some (token pager.issued) else none) with
    | error message => exact hlarge message
    | ok chunks =>
      intro h
      cases chunks with
      | nil => cases h
      | cons chunk chunks => cases h

/-- A page leaves the cursors of other tokens as they are. -/
theorem get?_page {key : String} (hkey : key ≠ token pager.issued) :
    (page token m pager request cursor).1.cursors.get? key = pager.cursors.get? key := by
  unfold page
  split
  · rfl
  · split
    · rfl
    · split
      · rfl
      · split
        · rfl
        · dsimp only
          split_ifs
          · split
            · exact OrderedMap.get?_set_of_ne _ _ hkey
            · exact (OrderedMap.get?_erase_of_ne _ hkey).trans
                (OrderedMap.get?_set_of_ne _ _ hkey)
          · split <;> rfl

/-- What a page does to the table of cursors: nothing, or it adds the next one. -/
theorem cursors_page {key : String} {next : CursorState}
    (hget : (page token m pager request cursor).1.cursors.get? key = some next) :
    pager.cursors.get? key = some next ∨ ∃ rs window, recoverRecords m cursor = some rs ∧
      snapshotInvalidReason m cursor = none ∧ key = token pager.issued ∧
      selectWindow rs cursor.position request.limit = .ok window ∧
      (∃ r ∈ rs, r.position < window.nextPosition) ∧
      next = { cursor with position := window.nextPosition, used := false, busy := false } := by
  by_cases hkey : key = token pager.issued
  swap
  · exact .inl ((get?_page hkey).symm.trans hget)
  unfold page at hget
  cases hvalid : snapshotInvalidReason m cursor with
  | some reason =>
    rw [hvalid] at hget
    exact .inl hget
  | none =>
    rw [hvalid] at hget
    dsimp only at hget
    cases hr : recoverRecords m cursor with
    | none =>
      rw [hr] at hget
      exact .inl hget
    | some rs =>
      rw [hr] at hget
      dsimp only at hget
      cases hwindow : selectWindow rs cursor.position request.limit with
      | error message =>
        rw [hwindow] at hget
        exact .inl hget
      | ok window =>
        rw [hwindow] at hget
        dsimp only at hget
        by_cases holder : (rs.any fun r => decide (r.position < window.nextPosition)) = true
        · simp only [if_pos holder] at hget
          cases hchunks : fragmentWindow (chunkHeader request cursor)
              (window.records.map EventRecord.event) (some (token pager.issued)) with
          | ok chunks =>
            rw [hchunks, hkey] at hget
            have hnext := Option.some.inj ((OrderedMap.get?_set_self _ _ _).symm.trans hget)
            exact .inr ⟨rs, window, rfl, rfl, hkey, hwindow, by simpa using holder, hnext.symm⟩
          | error message =>
            rw [hchunks, hkey] at hget
            have hnone := (OrderedMap.get?_erase_self _ _).symm.trans hget
            cases hnone
        · simp only [if_neg holder] at hget
          cases hchunks : fragmentWindow (chunkHeader request cursor)
              (window.records.map EventRecord.event) none with
          | ok chunks => rw [hchunks] at hget; exact .inl hget
          | error message => rw [hchunks] at hget; exact .inl hget

/-- A window with older records ends at a record that belongs to a group. -/
theorem exists_record_at_nextPosition {records : List EventRecord} {position : ℕ}
    {limit : Option ℕ} {window : Window} (h : selectWindow records position limit = .ok window)
    (hall : ∀ r ∈ records, r.position < position)
    (holder : ∃ r ∈ records, r.position < window.nextPosition) :
    ∃ r ∈ records, r.event.isSystem = false ∧ r.position = window.nextPosition := by
  unfold selectWindow at h
  dsimp only at h
  have hpos := Records.normalizeLimit_pos limit
  by_cases hgroups : orderedGroups records position = []
  · -- without a group all records are system events, and the window takes them all
    exfalso
    rw [hgroups, List.drop_nil, shrink] at h
    obtain ⟨r, hr, hlt⟩ := holder
    have hsystem : r.event.isSystem = true := by
      by_contra hnot
      obtain ⟨group, hgroup, -⟩ := exists_group hr (by simpa using hnot)
      obtain ⟨head, hhead, hfirst⟩ := Option.map_eq_some_iff.mp (isGroup_of_mem hgroup).head
      have hin := List.mem_of_head? hhead
      rw [(isGroup_of_mem hgroup).records_eq] at hin
      have hmem := mem_orderedGroups.mpr
        ⟨hgroup, hfirst ▸ hall head (mem_members.mp hin).1⟩
      rw [hgroups] at hmem
      cases hmem
    have hin : r.position ∈ ((systems records).filter fun r => r.position < position).map
        EventRecord.position :=
      List.mem_map_of_mem (List.mem_filter.mpr
        ⟨List.mem_filter.mpr ⟨hr, hsystem⟩, decide_eq_true (hall r hr)⟩)
    unfold systemWindow at h
    dsimp only at h
    cases hmin : (((systems records).filter fun r => r.position < position).map
        EventRecord.position).min? with
    | none =>
      rw [List.min?_eq_none_iff.mp hmin] at hin
      cases hin
    | some next =>
      rw [hmin] at h
      dsimp only at h
      split_ifs at h
      cases h
      exact absurd (List.min?_eq_some_iff.mp hmin |>.2 _ hin) (Nat.not_le_of_lt hlt)
  · have hne : (orderedGroups records position).drop
        ((orderedGroups records position).length - normalizeLimit limit) ≠ [] := by
      intro hnil
      have hlen := List.length_pos_iff.mpr hgroups
      rw [List.drop_eq_nil_iff] at hnil
      omega
    obtain ⟨pre, group, post, hsplit, rfl, -⟩ := shrink_ok h hne
    have hgroup : group ∈ orderedGroups records position := by
      refine List.mem_of_mem_drop (i := (orderedGroups records position).length -
        normalizeLimit limit) ?_
      rw [hsplit]
      simp
    have hisGroup := isGroup_of_mem (mem_orderedGroups.mp hgroup).1
    obtain ⟨head, hhead, hfirst⟩ := Option.map_eq_some_iff.mp hisGroup.head
    have hin := List.mem_of_head? hhead
    rw [hisGroup.records_eq, mem_members] at hin
    exact ⟨head, hin.1, hin.2.1, hfirst⟩

end Pages

end RemotePi.Timeline
