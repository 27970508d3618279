import Mathlib.Data.List.Flatten
import Mathlib.Data.List.Induction
import Mathlib.Data.List.Sort
import RemotePi.Lib.OrderedMap
import RemotePi.Timeline.HistoryChunks

/-!
# The history pager

Model of `TimelineHistoryPager` (`pi-extension/src/timeline/history.ts`): the
cursors it has issued, the records of a frozen branch, and the window of groups
that a request receives.

The session manager belongs to the agent SDK. It is a parameter: the record of
what its methods return at the time of a call. A call is synchronous, so the
session cannot change during it.

Results:
* `get?_groupsOf`: the group of an id holds the records of the id, in their order.
* `mem_orderedGroups`, `pairwise_orderedGroups`: the candidates of a window.
* `shrink_ok`, `shrink_isOk`: what the byte limit leaves of a selection.
* `selectWindow_isOk_iff`: a window is selected when the newest group fits it.
* `Settled.snapshotInvalidReason`: a snapshot of a session that has not changed is valid.
-/

namespace RemotePi.Timeline

open RemotePi.Lib RemotePi.Protocol

/-! ## The session manager -/

/-- An entry of the session branch. `markerEventId` is the event id of a timeline
    marker, `isMessage` says that the entry is a message. -/
structure BranchEntry where
  id : String
  isMessage : Bool
  markerEventId : Option String
deriving DecidableEq

/-- What the session manager, the generation provider and the recovery return. -/
structure SessionManager where
  sessionId : String
  historyGeneration : String
  leafId : Option String
  branch : List BranchEntry
  branchTo : String → List BranchEntry
  /-- `none` when the recovery throws or returns an invalid event. -/
  recovered : Option (List TimelineEvent)

/-! ## State of the pager -/

structure HistorySyncRequest where
  requestId : String
  targetChannelId : String
  before : Option String
  limit : Option ℕ
deriving DecidableEq

/-- `CursorState` (lines 28–36). -/
structure CursorState where
  sessionId : String
  historyGeneration : String
  snapshotHead : String
  branchEntryIds : List String
  position : ℕ
  used : Bool
  busy : Bool
deriving DecidableEq

/-- The fields of `TimelineHistoryPager`; `issued` counts the tokens drawn. -/
structure Pager where
  cursors : OrderedMap String CursorState
  initialBusy : Bool
  issued : ℕ
deriving DecidableEq

def Pager.initial : Pager := ⟨.empty, false, 0⟩

/-- `EventRecord` (lines 38–43). -/
structure EventRecord where
  event : TimelineEvent
  position : ℕ
  order : ℕ
  bytes : ℕ
deriving DecidableEq

/-- `GroupRecord` (lines 45–50). -/
structure GroupRecord where
  groupId : String
  firstPosition : ℕ
  records : List EventRecord
  bytes : ℕ
deriving DecidableEq

/-- The accepted result of `selectWindow`. -/
structure Window where
  records : List EventRecord
  nextPosition : ℕ
deriving DecidableEq

/-! ## Answers -/

def protocolError (request : HistorySyncRequest) (code : ErrorCode) (message : String) :
    ServerFrame :=
  .protocolError request.targetChannelId request.requestId code message

def reset (request : HistorySyncRequest) (sessionId historyGeneration : String)
    (reason : ResetReason) : ServerFrame :=
  .reset request.targetChannelId sessionId historyGeneration reason

/-- `snapshotInvalidReason` (lines 202–215). -/
def snapshotInvalidReason (manager : SessionManager) (cursor : CursorState) : Option ResetReason :=
  if manager.sessionId ≠ cursor.sessionId then some .sessionReplaced
  else if manager.historyGeneration ≠ cursor.historyGeneration then some .generationChanged
  else
    let currentBranch := manager.branch
    let known := currentBranch.any fun entry => entry.id = cursor.snapshotHead
    if !known && !(cursor.branchEntryIds.isEmpty && cursor.snapshotHead = cursor.sessionId &&
        currentBranch.isEmpty) then some .branchChanged
    else if (currentBranch.take cursor.branchEntryIds.length).map BranchEntry.id ≠
        cursor.branchEntryIds then some .branchChanged
    else if (manager.branchTo cursor.snapshotHead).map BranchEntry.id ≠ cursor.branchEntryIds then
      some .branchChanged
    else none

/-! ## Records -/

/-- One pass of the loop that fills `positions` (lines 221–228). -/
def addPositions (positions : OrderedMap String ℕ) (indexed : BranchEntry × ℕ) :
    OrderedMap String ℕ :=
  let (entry, position) := indexed
  let positions := positions.set entry.id position
  let positions :=
    if entry.isMessage then positions.set ("legacy:" ++ entry.id) position else positions
  match entry.markerEventId with
  | some eventId => if eventId ≠ "" then positions.set eventId position else positions
  | none => positions

def branchPositions (branch : List BranchEntry) : OrderedMap String ℕ :=
  branch.zipIdx.foldl addPositions .empty

/-- The record of a recovered event, if it lies before the cursor (lines 232–239). -/
def toRecord (positions : OrderedMap String ℕ) (cursorPosition : ℕ)
    (indexed : TimelineEvent × ℕ) : Option EventRecord :=
  match positions.get? indexed.1.eventId with
  | none => none
  | some position =>
    if cursorPosition ≤ position then none
    else some { event := indexed.1, position, order := indexed.2, bytes := indexed.1.bytes }

/-- The comparison of records: by position, then by order of recovery. -/
def recordLe (left right : EventRecord) : Bool :=
  left.position < right.position ||
    (left.position = right.position && left.order ≤ right.order)

/-- `recoverRecords` (lines 217–241). -/
def recoverRecords (manager : SessionManager) (cursor : CursorState) : Option (List EventRecord) :=
  if cursor.branchEntryIds.isEmpty && cursor.snapshotHead = cursor.sessionId then some []
  else
    let positions := branchPositions (manager.branchTo cursor.snapshotHead)
    match manager.recovered with
    | none => none
    | some recovered =>
      some ((recovered.zipIdx.filterMap (toRecord positions cursor.position)).mergeSort recordLe)

/-! ## The window of a request -/

/-- `normalizeLimit` (lines 455–458). -/
def normalizeLimit : Option ℕ → ℕ
  | none => 5
  | some limit => min 5 (max 1 limit)

/-- A record joins the group of its event (lines 255–267). -/
def addToGroup (groups : OrderedMap String GroupRecord) (record : EventRecord) :
    OrderedMap String GroupRecord :=
  let groupId := record.event.groupId
  match groups.get? groupId with
  | some existing =>
    groups.set groupId
      { existing with
        records := existing.records ++ [record]
        bytes := existing.bytes + record.bytes }
  | none =>
    groups.set groupId
      { groupId, firstPosition := record.position, records := [record], bytes := record.bytes }

def grouped (records : List EventRecord) : List EventRecord :=
  records.filter fun record => !record.event.isSystem

def systems (records : List EventRecord) : List EventRecord :=
  records.filter fun record => record.event.isSystem

def groupsOf (records : List EventRecord) : OrderedMap String GroupRecord :=
  (grouped records).foldl addToGroup .empty

def bytesOf (records : List EventRecord) : ℕ := (records.map EventRecord.bytes).sum

/-- The records of a selection with the system events from its start on (lines 277–281). -/
def selectedRecords (systems : List EventRecord) (position firstPosition : ℕ)
    (selected : List GroupRecord) : List EventRecord :=
  (selected.flatMap GroupRecord.records ++
    systems.filter fun r => firstPosition ≤ r.position && r.position < position).mergeSort recordLe

/-- The window when no group is left (lines 292–305). -/
def systemWindow (systems : List EventRecord) (position : ℕ) : Except String Window :=
  let selectedSystems := systems.filter fun r => r.position < position
  match (selectedSystems.map EventRecord.position).min? with
  | none => .ok ⟨[], 0⟩
  | some nextPosition =>
    if maxWindowDecodeBytes < bytesOf selectedSystems then
      .error ("system history exceeds " ++ toString maxWindowDecodeBytes ++ " bytes")
    else .ok ⟨selectedSystems.mergeSort recordLe, nextPosition⟩

/-- The loop that drops the oldest group until the selection fits (lines 275–290). -/
def shrink (systems : List EventRecord) (position : ℕ) : List GroupRecord → Except String Window
  | [] => systemWindow systems position
  | group :: groups =>
    let records := selectedRecords systems position group.firstPosition (group :: groups)
    if bytesOf records ≤ maxWindowDecodeBytes then .ok ⟨records, group.firstPosition⟩
    else if groups.isEmpty then
      .error ("group " ++ group.groupId ++ " exceeds " ++ toString maxWindowDecodeBytes ++ " bytes")
    else shrink systems position groups

/-- The comparison of groups. -/
def groupLe (left right : GroupRecord) : Bool := left.firstPosition ≤ right.firstPosition

/-- The groups before the position, by their first positions (lines 270–272). -/
def orderedGroups (records : List EventRecord) (position : ℕ) : List GroupRecord :=
  ((groupsOf records).values.filter fun g => g.firstPosition < position).mergeSort groupLe

/-- `selectWindow` (lines 243–306). -/
def selectWindow (records : List EventRecord) (position : ℕ) (limit : Option ℕ) :
    Except String Window :=
  let ordered := orderedGroups records position
  shrink (systems records) position (ordered.drop (ordered.length - normalizeLimit limit))

/-! ## Requests -/

def chunkHeader (request : HistorySyncRequest) (cursor : CursorState) : ChunkHeader where
  targetChannelId := request.targetChannelId
  requestId := request.requestId
  sessionId := cursor.sessionId
  historyGeneration := cursor.historyGeneration
  snapshotHead := cursor.snapshotHead

/-- `page` (lines 152–200). `token` supplies the random cursor tokens. -/
def page (token : ℕ → String) (manager : SessionManager) (pager : Pager)
    (request : HistorySyncRequest) (cursor : CursorState) : Pager × List ServerFrame :=
  match snapshotInvalidReason manager cursor with
  | some reason => (pager, [reset request cursor.sessionId cursor.historyGeneration reason])
  | none =>
  match recoverRecords manager cursor with
  | none => (pager, [protocolError request .internalError "history recovery failed"])
  | some records =>
  -- the session is read again after the recovery: it cannot have changed in between
  match snapshotInvalidReason manager cursor with
  | some reason => (pager, [reset request cursor.sessionId cursor.historyGeneration reason])
  | none =>
  match selectWindow records cursor.position request.limit with
  | .error message => (pager, [protocolError request .tooLarge message])
  | .ok window =>
    let hasOlder := records.any fun record => record.position < window.nextPosition
    let nextCursor := if hasOlder then some (token pager.issued) else none
    let issued : Pager :=
      match nextCursor with
      | none => pager
      | some next =>
        { pager with
          cursors := pager.cursors.set next
            { cursor with position := window.nextPosition, used := false, busy := false }
          issued := pager.issued + 1 }
    match fragmentWindow (chunkHeader request cursor) (window.records.map EventRecord.event)
        nextCursor with
    | .ok chunks => (issued, chunks.map .historyChunk)
    | .error message =>
      let withdrawn :=
        match nextCursor with
        | none => issued
        | some next => { issued with cursors := issued.cursors.erase next }
      (withdrawn, [protocolError request .tooLarge message])

/-- `syncInitial` (lines 129–150). -/
def syncInitial (token : ℕ → String) (manager : SessionManager) (pager : Pager)
    (request : HistorySyncRequest) : Pager × List ServerFrame :=
  let branch := manager.branch
  let snapshotHead := manager.leafId.getD manager.sessionId
  if !branch.isEmpty && (branch.getLast?.map BranchEntry.id) ≠ some snapshotHead then
    (pager, [protocolError request .resetRequired "session has no current snapshot head"])
  else
    page token manager pager request
      { sessionId := manager.sessionId
        historyGeneration := manager.historyGeneration
        snapshotHead
        branchEntryIds := branch.map BranchEntry.id
        position := branch.length
        used := true
        busy := true }

/-- `sync` (lines 83–127). The busy marks guard against a call made by the
    recovery during another call; they are cleared when the call returns. -/
def sync (token : ℕ → String) (manager : SessionManager) (pager : Pager)
    (request : HistorySyncRequest) : Pager × List ServerFrame :=
  let sessionId := manager.sessionId
  let historyGeneration := manager.historyGeneration
  match request.before with
  | none =>
    if pager.initialBusy then
      (pager, [protocolError request .invalidCursor "initial cursor is busy"])
    else
      let (pager, frames) := syncInitial token manager { pager with initialBusy := true } request
      ({ pager with initialBusy := false }, frames)
  | some before =>
  match pager.cursors.get? before with
  | none => (pager, [reset request sessionId historyGeneration .invalidCursor])
  | some cursor =>
    if cursor.busy then (pager, [protocolError request .invalidCursor "cursor is busy"])
    else if cursor.used then (pager, [reset request sessionId historyGeneration .invalidCursor])
    else
      let pager :=
        { pager with cursors := pager.cursors.set before { cursor with used := true } }
      if cursor.sessionId ≠ sessionId then
        (pager, [reset request sessionId historyGeneration .sessionReplaced])
      else if cursor.historyGeneration ≠ historyGeneration then
        (pager, [reset request sessionId historyGeneration .generationChanged])
      else
        match snapshotInvalidReason manager cursor with
        | some reason => (pager, [reset request sessionId historyGeneration reason])
        | none => page token manager pager request cursor

/-! ## Sorting -/

theorem recordLe_trans (a b c : EventRecord) (h : recordLe a b = true) (h' : recordLe b c = true) :
    recordLe a c = true := by
  simp only [recordLe, Bool.or_eq_true, Bool.and_eq_true, decide_eq_true_eq] at h h' ⊢
  omega

theorem recordLe_total (a b : EventRecord) : (recordLe a b || recordLe b a) = true := by
  simp only [recordLe, Bool.or_eq_true, Bool.and_eq_true, decide_eq_true_eq]
  omega

theorem position_le_of_recordLe {a b : EventRecord} (h : recordLe a b = true) :
    a.position ≤ b.position := by
  simp only [recordLe, Bool.or_eq_true, Bool.and_eq_true, decide_eq_true_eq] at h
  omega

/-- Sorting a permutation of a sorted list whose orders are distinct gives the list. -/
theorem mergeSort_eq_of_perm {l l' : List EventRecord} (h : l.Perm l')
    (hs : l'.Pairwise fun a b => recordLe a b = true) (hn : (l'.map EventRecord.order).Nodup) :
    l.mergeSort recordLe = l' := by
  have hp := (List.mergeSort_perm l recordLe).trans h
  refine List.Perm.eq_of_pairwise (fun a b ha hb hab hba => ?_)
    (List.pairwise_mergeSort recordLe_trans recordLe_total l) hs hp
  refine List.inj_on_of_nodup_map hn (hp.mem_iff.mp ha) hb ?_
  simp only [recordLe, Bool.or_eq_true, Bool.and_eq_true, decide_eq_true_eq] at hab hba
  omega

/-! ## Groups -/

/-- The records of a group id. -/
def members (records : List EventRecord) (groupId : String) : List EventRecord :=
  (grouped records).filter fun r => r.event.groupId = groupId

/-- The group that records of one id make. -/
def groupRecord (groupId : String) : List EventRecord → Option GroupRecord
  | [] => none
  | r :: rs => some ⟨groupId, r.position, r :: rs, bytesOf (r :: rs)⟩

theorem get?_addToGroup (groups : OrderedMap String GroupRecord) (record : EventRecord)
    (groupId : String) {rs : List EventRecord} (h : groups.get? groupId = groupRecord groupId rs) :
    (addToGroup groups record).get? groupId =
      groupRecord groupId (rs ++ if record.event.groupId = groupId then [record] else []) := by
  by_cases hid : record.event.groupId = groupId
  · subst hid
    cases rs with
    | nil => simp [addToGroup, h, groupRecord, bytesOf]
    | cons r rs => simp [addToGroup, h, groupRecord, bytesOf, Nat.add_assoc]
  · have hne : groupId ≠ record.event.groupId := Ne.symm hid
    have hget : (addToGroup groups record).get? groupId = groups.get? groupId := by
      simp only [addToGroup]
      split <;> exact OrderedMap.get?_set_of_ne _ _ hne
    simp [hget, hid, h]

theorem get?_groupsOf (records : List EventRecord) (groupId : String) :
    (groupsOf records).get? groupId = groupRecord groupId (members records groupId) := by
  unfold groupsOf members
  generalize grouped records = rs
  induction rs using List.reverseRecOn with
  | nil => rfl
  | append_singleton rs r ih =>
    rw [List.foldl_append, List.foldl_cons, List.foldl_nil, get?_addToGroup _ _ _ ih,
      List.filter_append]
    congr 2
    by_cases h : r.event.groupId = groupId <;> simp [h]

theorem mem_members {records : List EventRecord} {groupId : String} {r : EventRecord} :
    r ∈ members records groupId ↔
      r ∈ records ∧ r.event.isSystem = false ∧ r.event.groupId = groupId := by
  simp only [members, grouped, List.mem_filter, decide_eq_true_eq, Bool.not_eq_true', and_assoc]

/-- A group as `groupsOf` builds it. -/
structure IsGroup (records : List EventRecord) (group : GroupRecord) : Prop where
  records_eq : group.records = members records group.groupId
  head : group.records.head?.map EventRecord.position = some group.firstPosition

theorem mem_groupsOf {records : List EventRecord} {group : GroupRecord} :
    group ∈ (groupsOf records).values ↔
      (groupsOf records).get? group.groupId = some group := by
  constructor
  · intro h
    obtain ⟨⟨k, g⟩, he, rfl⟩ := List.mem_map.mp h
    have hk := OrderedMap.mem_entries_iff.mp he
    rw [get?_groupsOf] at hk
    have hid : k = g.groupId := by
      unfold groupRecord at hk
      split at hk <;> cases hk
      rfl
    rw [← hid]
    exact OrderedMap.mem_entries_iff.mp he
  · intro h
    exact List.mem_map.mpr ⟨_, OrderedMap.mem_entries_iff.mpr h, rfl⟩

theorem isGroup_of_mem {records : List EventRecord} {group : GroupRecord}
    (h : group ∈ (groupsOf records).values) : IsGroup records group := by
  rw [mem_groupsOf, get?_groupsOf] at h
  unfold groupRecord at h
  split at h
  · cases h
  · rename_i r rs heq
    obtain ⟨groupId, firstPosition, recs, bytes⟩ := group
    cases h
    exact ⟨heq.symm, rfl⟩

theorem exists_group {records : List EventRecord} {r : EventRecord} (hr : r ∈ records)
    (hs : r.event.isSystem = false) :
    ∃ group ∈ (groupsOf records).values, group.groupId = r.event.groupId := by
  have hmem : r ∈ members records r.event.groupId := mem_members.mpr ⟨hr, hs, rfl⟩
  have hget := get?_groupsOf records r.event.groupId
  cases hm : members records r.event.groupId with
  | nil => rw [hm] at hmem; cases hmem
  | cons r' rs =>
    rw [hm, groupRecord] at hget
    exact ⟨⟨_, _, _, _⟩, mem_groupsOf.mpr hget, rfl⟩

theorem nodup_groupsOf (records : List EventRecord) :
    ((groupsOf records).values.map GroupRecord.groupId).Nodup := by
  have h : (groupsOf records).values.map GroupRecord.groupId =
      (groupsOf records).entries.map Prod.fst := by
    rw [OrderedMap.values, List.map_map]
    refine List.map_congr_left fun e he => ?_
    have hget := mem_groupsOf.mp (List.mem_map_of_mem he : e.2 ∈ (groupsOf records).values)
    obtain ⟨k, g⟩ := e
    have hk := OrderedMap.mem_entries_iff.mp he
    rw [get?_groupsOf] at hk
    unfold groupRecord at hk
    split at hk <;> cases hk
    rfl
  rw [h]
  exact (groupsOf records).nodup

theorem mem_orderedGroups {records : List EventRecord} {position : ℕ} {group : GroupRecord} :
    group ∈ orderedGroups records position ↔
      group ∈ (groupsOf records).values ∧ group.firstPosition < position := by
  simp [orderedGroups]

theorem pairwise_orderedGroups (records : List EventRecord) (position : ℕ) :
    (orderedGroups records position).Pairwise fun g g' =>
      g.firstPosition ≤ g'.firstPosition := by
  have htrans : ∀ a b c : GroupRecord, groupLe a b = true → groupLe b c = true →
      groupLe a c = true := by
    intro a b c hab hbc
    simp only [groupLe, decide_eq_true_eq] at hab hbc ⊢
    omega
  have htotal : ∀ a b : GroupRecord, (groupLe a b || groupLe b a) = true := by
    intro a b
    simp only [groupLe, Bool.or_eq_true, decide_eq_true_eq]
    omega
  exact (List.pairwise_mergeSort htrans htotal _).imp fun hab => of_decide_eq_true hab

theorem nodup_orderedGroups (records : List EventRecord) (position : ℕ) :
    ((orderedGroups records position).map GroupRecord.groupId).Nodup :=
  (((List.mergeSort_perm _ _).map _).nodup_iff).mpr
    ((nodup_groupsOf records).sublist (List.filter_sublist.map _))

/-! ## The byte limit -/

/-- An accepted selection is a suffix of the candidates that keeps the limit. -/
theorem shrink_ok {systems : List EventRecord} {position : ℕ} {groups : List GroupRecord}
    {window : Window} (h : shrink systems position groups = .ok window) (hne : groups ≠ []) :
    ∃ pre group post, groups = pre ++ group :: post ∧
      window = ⟨selectedRecords systems position group.firstPosition (group :: post),
        group.firstPosition⟩ ∧
      bytesOf window.records ≤ maxWindowDecodeBytes := by
  induction groups with
  | nil => exact absurd rfl hne
  | cons group groups ih =>
    rw [shrink] at h
    split_ifs at h with h1 h2
    · cases h
      exact ⟨[], group, groups, rfl, rfl, h1⟩
    · obtain ⟨pre, g, post, rfl, h3, h4⟩ := ih h (by simpa using h2)
      exact ⟨group :: pre, g, post, rfl, h3, h4⟩

theorem shrink_of_le {systems : List EventRecord} {position : ℕ} {group : GroupRecord}
    {groups : List GroupRecord}
    (h : bytesOf (selectedRecords systems position group.firstPosition (group :: groups)) ≤
      maxWindowDecodeBytes) :
    shrink systems position (group :: groups) =
      .ok ⟨selectedRecords systems position group.firstPosition (group :: groups),
        group.firstPosition⟩ := by
  rw [shrink, if_pos h]

/-- The selection is accepted when its last group fits. -/
theorem shrink_isOk {systems : List EventRecord} {position : ℕ} {group : GroupRecord}
    (groups : List GroupRecord)
    (h : bytesOf (selectedRecords systems position group.firstPosition [group]) ≤
      maxWindowDecodeBytes) :
    ∃ window, shrink systems position (groups ++ [group]) = .ok window := by
  induction groups with
  | nil => exact ⟨_, shrink_of_le h⟩
  | cons g groups ih =>
    rw [List.cons_append, shrink]
    split_ifs with h1 h2
    · exact ⟨_, rfl⟩
    · simp at h2
    · exact ih

/-- The records of a window and its size. -/
theorem bytesOf_selectedRecords (systems : List EventRecord) (position firstPosition : ℕ)
    (selected : List GroupRecord) :
    bytesOf (selectedRecords systems position firstPosition selected) =
      bytesOf (selected.flatMap GroupRecord.records) +
        bytesOf (systems.filter fun r => firstPosition ≤ r.position && r.position < position) := by
  unfold bytesOf selectedRecords
  rw [((List.mergeSort_perm _ _).map EventRecord.bytes).sum_eq, List.map_append, List.sum_append]

theorem bytesOf_le_of_sublist {rs rs' : List EventRecord} (h : rs.Sublist rs') :
    bytesOf rs ≤ bytesOf rs' :=
  (h.map EventRecord.bytes).sum_le_sum fun _ _ => Nat.zero_le _

/-- The newest group before a position, with the system events after its start, fits a
    window; without a group the system events do. -/
def NewestFits (records : List EventRecord) (position : ℕ) : Prop :=
  match (orderedGroups records position).getLast? with
  | none => bytesOf ((systems records).filter fun r => r.position < position) ≤ maxWindowDecodeBytes
  | some group =>
    bytesOf (selectedRecords (systems records) position group.firstPosition [group]) ≤
      maxWindowDecodeBytes

theorem systemWindow_isOk_iff {systems : List EventRecord} {position : ℕ} :
    (∃ window, systemWindow systems position = .ok window) ↔
      bytesOf (systems.filter fun r => r.position < position) ≤ maxWindowDecodeBytes := by
  unfold systemWindow
  dsimp only
  cases hmin : ((systems.filter fun r => r.position < position).map EventRecord.position).min? with
  | none =>
    have hnil : systems.filter (fun r => r.position < position) = [] :=
      List.map_eq_nil_iff.mp (List.min?_eq_none_iff.mp hmin)
    rw [hnil]
    exact iff_of_true ⟨_, rfl⟩ (Nat.zero_le _)
  | some next =>
    dsimp only
    by_cases hlarge : maxWindowDecodeBytes <
        bytesOf (systems.filter fun r => r.position < position)
    · rw [if_pos hlarge]
      exact iff_of_false (by simp) (Nat.not_le_of_lt hlarge)
    · rw [if_neg hlarge]
      exact iff_of_true ⟨_, rfl⟩ (Nat.le_of_not_lt hlarge)

/-- Whether a window is selected does not depend on the limit of the request. -/
theorem selectWindow_isOk_iff (records : List EventRecord) (position : ℕ) (limit : Option ℕ) :
    (∃ window, selectWindow records position limit = .ok window) ↔
      NewestFits records position := by
  unfold selectWindow NewestFits
  dsimp only
  have hpos : 0 < normalizeLimit limit := by
    unfold normalizeLimit
    cases limit with
    | none => decide
    | some n => dsimp only; omega
  rcases List.eq_nil_or_concat (orderedGroups records position) with hnil | ⟨init, last, hlast⟩
  · rw [hnil, List.drop_nil, List.getLast?_nil]
    exact systemWindow_isOk_iff
  · rw [List.concat_eq_append] at hlast
    obtain ⟨keep, hkeep⟩ : ∃ keep, (orderedGroups records position).drop
        ((orderedGroups records position).length - normalizeLimit limit) = keep ++ [last] := by
      rw [hlast]
      refine ⟨_, List.drop_append_of_le_length ?_⟩
      rw [List.length_append, List.length_singleton]
      omega
    have hsorted := pairwise_orderedGroups records position
    rw [hkeep, hlast, List.getLast?_append, List.getLast?_singleton, Option.some_or]
    constructor
    · rintro ⟨window, hw⟩
      obtain ⟨pre, group, post, hsplit, rfl, hbytes⟩ := shrink_ok hw (by simp)
      -- What the last group needs is a part of what the selection holds.
      have hmem : last ∈ group :: post := by
        have hgetLast := congrArg List.getLast? hsplit
        rw [List.getLast?_append, List.getLast?_append, List.getLast?_singleton, Option.some_or]
          at hgetLast
        cases hpost : (group :: post).getLast? with
        | none => simp at hpost
        | some g =>
          rw [hpost, Option.some_or] at hgetLast
          obtain rfl := Option.some.inj hgetLast
          exact List.mem_of_getLast? hpost
      have hstart : group.firstPosition ≤ last.firstPosition := by
        have hsub : (group :: post).Sublist (orderedGroups records position) :=
          ((List.sublist_append_right pre _).trans (hsplit ▸ List.Sublist.refl _)).trans
            (hkeep ▸ List.drop_sublist _ _)
        rcases List.mem_cons.mp hmem with rfl | hmem
        · exact Nat.le_refl _
        · exact List.rel_of_pairwise_cons (hsorted.sublist hsub) hmem
      dsimp only at hbytes ⊢
      rw [bytesOf_selectedRecords] at hbytes ⊢
      refine (Nat.add_le_add ?_ ?_).trans hbytes
      · exact bytesOf_le_of_sublist ((List.singleton_sublist.mpr hmem).flatMap _)
      · refine bytesOf_le_of_sublist (List.monotone_filter_right _ fun r hr => ?_)
        simp only [Bool.and_eq_true, decide_eq_true_eq] at hr ⊢
        exact ⟨hstart.trans hr.1, hr.2⟩
    · intro hbytes
      exact shrink_isOk keep hbytes

/-! ## A session that has not changed -/

namespace SessionManager

variable (m : SessionManager)

def head : String := m.leafId.getD m.sessionId

/-- A cursor of a snapshot of the whole branch. -/
def cursorAt (p : ℕ) (used busy : Bool) : CursorState where
  sessionId := m.sessionId
  historyGeneration := m.historyGeneration
  snapshotHead := m.head
  branchEntryIds := m.branch.map BranchEntry.id
  position := p
  used := used
  busy := busy

/-- The leaf is the last entry of the branch, and the branch up to it is the branch. -/
structure Settled : Prop where
  leaf : m.branch.getLast?.map BranchEntry.id = m.leafId
  branchTo_head : m.branchTo m.head = m.branch

variable {m}

theorem Settled.snapshotInvalidReason (h : m.Settled) (p : ℕ) (used busy : Bool) :
    snapshotInvalidReason m (m.cursorAt p used busy) = none := by
  have hbranch : (m.branchTo m.head).map BranchEntry.id = m.branch.map BranchEntry.id := by
    rw [h.branchTo_head]
  have htake : (m.branch.take (m.branch.map BranchEntry.id).length).map BranchEntry.id =
      m.branch.map BranchEntry.id := by
    rw [List.length_map, List.take_length]
  have hknown : (m.branch.any fun entry => entry.id = m.head) = true ∨ m.branch = [] := by
    rcases List.eq_nil_or_concat m.branch with hnil | ⟨init, last, hlast⟩
    · exact .inr hnil
    · refine .inl (List.any_eq_true.mpr ⟨last, by simp [hlast], ?_⟩)
      have hleaf := h.leaf
      rw [hlast, List.concat_eq_append, List.getLast?_append] at hleaf
      simp only [List.getLast?_singleton, Option.some_or, Option.map_some] at hleaf
      simp [head, ← hleaf]
  have hfound : (!(m.branch.any fun entry => entry.id = (m.cursorAt p used busy).snapshotHead)
      && !((m.cursorAt p used busy).branchEntryIds.isEmpty &&
        (m.cursorAt p used busy).snapshotHead = (m.cursorAt p used busy).sessionId &&
        m.branch.isEmpty)) = false := by
    rcases hknown with hany | hnil
    · rw [show (m.cursorAt p used busy).snapshotHead = m.head from rfl, hany]
      rfl
    · have hnone : m.leafId = none := by rw [← h.leaf, hnil]; rfl
      simp [cursorAt, hnil, head, hnone]
  unfold Timeline.snapshotInvalidReason
  rw [if_neg (by simp [cursorAt]), if_neg (by simp [cursorAt])]
  simp only [hfound, Bool.false_eq_true, if_false]
  rw [if_neg (by rw [not_not]; exact htake), if_neg (by rw [not_not]; exact hbranch)]

end SessionManager

end RemotePi.Timeline
