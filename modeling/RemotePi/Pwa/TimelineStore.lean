import Mathlib.Data.List.Sort
import Mathlib.Data.Prod.Lex
import Mathlib.Algebra.Order.Ring.Rat
import RemotePi.Lib.OrderedMap
import RemotePi.Lib.TopGroups
import RemotePi.Pwa.TimelineRuntime

/-!
# The stored timeline of the browser

Model of `commitRealtime` and `selectRecentTimelineEvents` of
`pwa/src/lib/pwa/timeline-store.ts`. The store keeps the events of the five most recent groups of
a scope and rewrites them on every commit.

Within one scope a record is its event, and the id of a record stands for the event id. The
order of `localeCompare` is given by sort keys, and a list of records that is read from the
database may come in any order.

Results:
* `mem_recentGroupIds`: the recent groups are the five with the highest keys.
* `mem_stored_iff`: what is stored after some commits.
* `stored_eq_selected_iff`: when that is what would be selected of all events at once.
-/

namespace RemotePi.Pwa

open RemotePi.Lib RemotePi.Protocol

/-! ## Model -/

/-- `TimelineScope` (lines 5–10). -/
structure StoreScope where
  deviceId : String
  endpointId : String
  sessionId : String
  historyGeneration : String
deriving DecidableEq, Repr

/-- `MAX_RECENT_GROUPS` (line 12). -/
def maxRecentGroups : ℕ := 5

/-- `TimelineEventWithGroup` (line 14). -/
structure TimelineEventWithGroup where
  event : TimelineEvent
  groupId : String
  timestamp : ℚ
deriving DecidableEq

/-- What the browser and the database leave open: the sort keys that `localeCompare` compares,
    and the order in which the records of a scope are listed. -/
structure StoreHost (γ : Type) where
  sortKey : String → γ
  toArray : List TimelineEvent → List TimelineEvent

/-- `eventGroupId` (lines 39–41). Of the events that pass the schema, those with a group are
    persistable: it leaves a user event only the status that is committed, and an assistant and a
    tool event none that is running. -/
def eventGroupId (event : TimelineEvent) : Option String := event.groupId

/-- `assertEventInScope` (lines 43–47) passes. -/
def inStoreScope (scope : StoreScope) (event : TimelineEvent) : Bool :=
  event.sessionId = scope.sessionId && event.historyGeneration = scope.historyGeneration

/-- `toGroupedEvents` (lines 49–57); `none` is an exception. -/
def toGroupedEvents (scope : StoreScope) :
    List TimelineEvent → Option (List TimelineEventWithGroup)
  | [] => some []
  | event :: rest =>
    if inStoreScope scope event then
      (toGroupedEvents scope rest).map fun grouped =>
        match eventGroupId event with
        | some groupId => ⟨event, groupId, event.timestamp⟩ :: grouped
        | none => grouped
    else none

section Select

variable {γ : Type} [LinearOrder γ] (host : StoreHost γ)

/-- `compareEvents` (lines 59–61) gives no positive number. -/
def compareEvents (a b : TimelineEventWithGroup) : Bool :=
  toLex (a.timestamp, host.sortKey a.event.eventId) ≤
    toLex (b.timestamp, host.sortKey b.event.eventId)

/-- One step of the loop of `recentGroupIds` (lines 65–68). -/
def noteLatest (latestByGroup : OrderedMap String ℚ) (item : TimelineEventWithGroup) :
    OrderedMap String ℚ :=
  match latestByGroup.get? item.groupId with
  | none => latestByGroup.set item.groupId item.timestamp
  | some latest =>
    if latest < item.timestamp then latestByGroup.set item.groupId item.timestamp
    else latestByGroup

def latestByGroup (events : List TimelineEventWithGroup) : OrderedMap String ℚ :=
  events.foldl noteLatest .empty

/-- The key by which a group is sorted (line 70). -/
def groupKey (entry : String × ℚ) : Lex (ℚ × γ) := toLex (entry.2, host.sortKey entry.1)

/-- The groups in their order (line 70). -/
def sortedGroups (events : List TimelineEventWithGroup) : List (String × ℚ) :=
  (latestByGroup events).entries.mergeSort fun a b => decide (groupKey host a ≤ groupKey host b)

/-- `recentGroupIds` (lines 63–73). -/
def recentGroupIds (events : List TimelineEventWithGroup) : List String :=
  ((sortedGroups host events).drop ((sortedGroups host events).length - maxRecentGroups)).map
    Prod.fst

/-- The events that `selectRecentTimelineEvents` takes of grouped ones (line 78). -/
def selectGrouped (grouped : List TimelineEventWithGroup) : List TimelineEvent :=
  let groups := recentGroupIds host grouped
  ((grouped.filter fun item => groups.contains item.groupId).mergeSort
    (compareEvents host)).map fun item => item.event

/-- `selectRecentTimelineEvents` (lines 75–79). -/
def selectRecentTimelineEvents (scope : StoreScope) (events : List TimelineEvent) :
    Option (List TimelineEvent) :=
  (toGroupedEvents scope events).map (selectGrouped host)

/-- `findTimelineConflict` (lines 106–114) on the events of the records: the first one that
    differs from one of its id. `TimelineConflict` has the search over the records. -/
def findTimelineConflict : OrderedMap String TimelineEvent → List TimelineEvent →
    Option TimelineEvent
  | _, [] => none
  | byId, event :: rest =>
    match byId.get? event.eventId with
    | some previous =>
      if previous ≠ event then some event else findTimelineConflict byId rest
    | none => findTimelineConflict (byId.set event.eventId event) rest

/-- `new Map(records.map((record) => [record.id, record]))`. -/
def eventsById (events : List TimelineEvent) : OrderedMap String TimelineEvent :=
  events.foldl (fun byId event => byId.set event.eventId event) .empty

inductive CommitOutcome where
  | committed
  /-- An event of another scope (line 45). -/
  | outOfScope
  /-- `TimelineStoreConflictError` (line 170). -/
  | conflict (eventId : String)
deriving DecidableEq, Repr

/-- `commitRealtime` (lines 155–171) on the stored events of the scope. -/
def commitRealtime (scope : StoreScope) (stored events : List TimelineEvent) :
    List TimelineEvent × CommitOutcome :=
  match toGroupedEvents scope events with
  | none => (stored, .outOfScope)
  | some grouped =>
    let incoming := grouped.map fun item => item.event
    if incoming.isEmpty then (stored, .committed)
    else
      let existing := host.toArray stored
      match findTimelineConflict (eventsById existing) incoming with
      | some event => ([], .conflict event.eventId)
      | none =>
        let merged := incoming.foldl (fun byId event => byId.set event.eventId event)
          (eventsById existing)
        match selectRecentTimelineEvents host scope merged.values with
        | none => (stored, .outOfScope)
        | some retained => (retained, .committed)

/-- The events that are stored after some commits, from an empty store. -/
def storedAfter (scope : StoreScope) (commits : List (List TimelineEvent)) :
    List TimelineEvent :=
  commits.foldl (fun stored events => (commitRealtime host scope stored events).1) []

end Select

/-! ## Grouped events -/

/-- The grouped events of a list, all of them in the scope. -/
def groupedOf (events : List TimelineEvent) : List TimelineEventWithGroup :=
  events.filterMap fun event =>
    (eventGroupId event).map fun groupId => ⟨event, groupId, event.timestamp⟩

theorem groupedOf_append (events events' : List TimelineEvent) :
    groupedOf (events ++ events') = groupedOf events ++ groupedOf events' := by
  rw [groupedOf, List.filterMap_append]
  rfl

theorem mem_groupedOf {events : List TimelineEvent} {item : TimelineEventWithGroup} :
    item ∈ groupedOf events ↔
      item.event ∈ events ∧ item.event.groupId = some item.groupId ∧
        item.timestamp = item.event.timestamp := by
  rw [groupedOf, List.mem_filterMap]
  constructor
  · rintro ⟨event, hmem, hitem⟩
    obtain ⟨groupId, hgroup, rfl⟩ := Option.map_eq_some_iff.mp hitem
    exact ⟨hmem, hgroup, rfl⟩
  · obtain ⟨event, groupId, timestamp⟩ := item
    rintro ⟨hmem, hgroup, htime⟩
    dsimp only at hmem hgroup htime
    subst htime
    exact ⟨event, hmem, Option.map_eq_some_iff.mpr ⟨groupId, hgroup, rfl⟩⟩

/-- An event with its group is one of the grouped ones. -/
theorem mem_groupedOf_of_mem {events : List TimelineEvent} {event : TimelineEvent}
    {groupId : String} (hmem : event ∈ events) (hgroup : event.groupId = some groupId) :
    (⟨event, groupId, event.timestamp⟩ : TimelineEventWithGroup) ∈ groupedOf events :=
  mem_groupedOf.mpr ⟨hmem, hgroup, rfl⟩

theorem toGroupedEvents_eq {scope : StoreScope} {events : List TimelineEvent}
    (h : ∀ event ∈ events, inStoreScope scope event = true) :
    toGroupedEvents scope events = some (groupedOf events) := by
  induction events with
  | nil => rfl
  | cons event rest ih =>
    rw [toGroupedEvents, if_pos (h event List.mem_cons_self),
      ih fun e he => h e (List.mem_cons_of_mem _ he), groupedOf, groupedOf,
      List.filterMap_cons, Option.map_some]
    cases eventGroupId event <;> rfl

/-! ## The recent groups -/

/-- The time is the latest one of the group among the events, when there is one. -/
structure IsLatest (events : List TimelineEventWithGroup) (groupId : String)
    (latest : Option ℚ) : Prop where
  absent : latest = none → ∀ item ∈ events, item.groupId ≠ groupId
  attained : ∀ time, latest = some time →
    ∃ item ∈ events, item.groupId = groupId ∧ item.timestamp = time
  le : ∀ time, latest = some time →
    ∀ item ∈ events, item.groupId = groupId → item.timestamp ≤ time

theorem latestByGroup_append (events : List TimelineEventWithGroup)
    (item : TimelineEventWithGroup) :
    latestByGroup (events ++ [item]) = noteLatest (latestByGroup events) item := by
  rw [latestByGroup, List.foldl_append]
  rfl

theorem get?_noteLatest_of_ne (latest : OrderedMap String ℚ) {item : TimelineEventWithGroup}
    {groupId : String} (h : groupId ≠ item.groupId) :
    (noteLatest latest item).get? groupId = latest.get? groupId := by
  unfold noteLatest
  split
  · exact OrderedMap.get?_set_of_ne _ _ h
  · split_ifs
    · exact OrderedMap.get?_set_of_ne _ _ h
    · rfl

theorem get?_noteLatest_self (latest : OrderedMap String ℚ) (item : TimelineEventWithGroup) :
    (noteLatest latest item).get? item.groupId =
      some ((latest.get? item.groupId).elim item.timestamp fun time =>
        if time < item.timestamp then item.timestamp else time) := by
  unfold noteLatest
  cases hget : latest.get? item.groupId with
  | none => exact OrderedMap.get?_set_self _ _ _
  | some time =>
    dsimp only [Option.elim_some]
    split_ifs
    · exact OrderedMap.get?_set_self _ _ _
    · exact hget

/-- What is noted for a group is its latest time. -/
theorem isLatest_get? (events : List TimelineEventWithGroup) (groupId : String) :
    IsLatest events groupId ((latestByGroup events).get? groupId) := by
  induction events using List.reverseRecOn with
  | nil =>
    refine ⟨fun _ item hitem => ?_, fun time h => ?_, fun time h => ?_⟩
    · cases hitem
    · cases h
    · cases h
  | append_singleton events item ih =>
    rw [latestByGroup_append]
    by_cases hgroup : groupId = item.groupId
    · subst hgroup
      rw [get?_noteLatest_self]
      refine ⟨fun h => ?_, fun time htime => ?_, fun time htime other hother heq => ?_⟩
      · cases h
      · cases hget : (latestByGroup events).get? item.groupId with
        | none =>
          rw [hget] at htime
          exact ⟨item, by simp, rfl, Option.some.inj htime⟩
        | some earlier =>
          rw [hget, Option.elim_some] at htime
          split_ifs at htime with hlater
          · exact ⟨item, by simp, rfl, Option.some.inj htime⟩
          · obtain ⟨first, hfirst, hsame, hfirsttime⟩ := ih.attained earlier hget
            exact ⟨first, List.mem_append_left _ hfirst, hsame,
              hfirsttime.trans (Option.some.inj htime)⟩
      · cases hget : (latestByGroup events).get? item.groupId with
        | none =>
          rw [hget, Option.elim_none] at htime
          cases htime
          rcases List.mem_append.mp hother with hother | hother
          · exact absurd heq (ih.absent hget other hother)
          · rw [List.mem_singleton.mp hother]
        | some earlier =>
          rw [hget, Option.elim_some] at htime
          have hle : earlier ≤ time ∧ item.timestamp ≤ time := by
            split_ifs at htime with hlater
            · cases htime
              exact ⟨le_of_lt hlater, le_refl _⟩
            · cases htime
              exact ⟨le_refl _, not_lt.mp hlater⟩
          rcases List.mem_append.mp hother with hother | hother
          · exact le_trans (ih.le earlier hget other hother heq) hle.1
          · rw [List.mem_singleton.mp hother]
            exact hle.2
    · rw [get?_noteLatest_of_ne _ hgroup]
      refine ⟨fun hnone other hmem => ?_, fun time htime => ?_, fun time htime other hmem heq => ?_⟩
      · rcases List.mem_append.mp hmem with hmem | hmem
        · exact ih.absent hnone other hmem
        · rw [List.mem_singleton.mp hmem]
          exact Ne.symm hgroup
      · obtain ⟨first, hfirst, hsame, hfirsttime⟩ := ih.attained time htime
        exact ⟨first, List.mem_append_left _ hfirst, hsame, hfirsttime⟩
      · rcases List.mem_append.mp hmem with hmem | hmem
        · exact ih.le time htime other hmem heq
        · rw [List.mem_singleton.mp hmem] at heq
          exact absurd heq.symm hgroup

section Recent

variable {γ : Type} [LinearOrder γ] (host : StoreHost γ)

/-- The key of an event for its group. -/
def itemKey (item : TimelineEventWithGroup) : Lex (ℚ × γ) :=
  groupKey host (item.groupId, item.timestamp)

/-- The group is one of the five most recent ones of the events. -/
def IsRecentGroup (events : List TimelineEvent) (groupId : String) : Prop :=
  Recent TimelineEventWithGroup.groupId (itemKey host) maxRecentGroups (groupedOf events) groupId

instance (events : List TimelineEvent) (groupId : String) :
    Decidable (IsRecentGroup host events groupId) :=
  inferInstanceAs (Decidable (Recent _ _ _ _ _))

/-- The sort keys tell the groups of some events apart. -/
def Distinguishes (events : List TimelineEventWithGroup) : Prop :=
  ∀ a ∈ events, ∀ b ∈ events, host.sortKey a.groupId = host.sortKey b.groupId →
    a.groupId = b.groupId

variable {host}

theorem groupKey_le {groupId : String} {time time' : ℚ} (h : time ≤ time') :
    groupKey host (groupId, time) ≤ groupKey host (groupId, time') := by
  rw [groupKey, groupKey, Prod.Lex.toLex_le_toLex]
  rcases lt_or_eq_of_le h with hlt | heq
  · exact Or.inl hlt
  · exact Or.inr ⟨heq, le_refl _⟩

theorem mem_entries_latestByGroup {events : List TimelineEventWithGroup}
    {item : TimelineEventWithGroup} (hitem : item ∈ events) :
    ∃ time, (item.groupId, time) ∈ (latestByGroup events).entries ∧ item.timestamp ≤ time := by
  have hlatest := isLatest_get? events item.groupId
  cases hget : (latestByGroup events).get? item.groupId with
  | none =>
    rw [hget] at hlatest
    exact absurd rfl (hlatest.absent rfl item hitem)
  | some time =>
    rw [hget] at hlatest
    exact ⟨time, OrderedMap.mem_entries_iff.mpr hget, hlatest.le time rfl item hitem rfl⟩

theorem attained_of_mem_entries {events : List TimelineEventWithGroup} {entry : String × ℚ}
    (h : entry ∈ (latestByGroup events).entries) :
    ∃ item ∈ events, item.groupId = entry.1 ∧ item.timestamp = entry.2 := by
  have hlatest := isLatest_get? events entry.1
  have hget : (latestByGroup events).get? entry.1 = some entry.2 :=
    OrderedMap.mem_entries_iff.mp h
  exact hlatest.attained entry.2 hget

/-- The groups with an element above a key, by their latest times. -/
theorem groupsAbove_eq (events : List TimelineEventWithGroup) (k : Lex (ℚ × γ)) :
    groupsAbove TimelineEventWithGroup.groupId (itemKey host) events k =
      (((latestByGroup events).entries.filter fun entry => decide (k < groupKey host entry)).map
        Prod.fst).toFinset := by
  ext groupId
  rw [mem_groupsAbove, List.mem_toFinset, List.mem_map]
  constructor
  · rintro ⟨item, hitem, rfl, hlt⟩
    obtain ⟨time, hentry, hle⟩ := mem_entries_latestByGroup hitem
    refine ⟨(item.groupId, time), List.mem_filter.mpr ⟨hentry, decide_eq_true ?_⟩, rfl⟩
    exact lt_of_lt_of_le hlt (groupKey_le hle)
  · rintro ⟨entry, hmem, rfl⟩
    obtain ⟨hentry, hlt⟩ := List.mem_filter.mp hmem
    obtain ⟨item, hitem, hgroup, htime⟩ := attained_of_mem_entries hentry
    refine ⟨item, hitem, hgroup, ?_⟩
    rw [itemKey, hgroup, htime]
    exact of_decide_eq_true hlt

theorem sortedGroups_perm (events : List TimelineEventWithGroup) :
    (sortedGroups host events).Perm (latestByGroup events).entries :=
  List.mergeSort_perm _ _

/-- The groups are sorted strictly when their sort keys differ. -/
theorem sortedGroups_pairwise {events : List TimelineEventWithGroup}
    (h : Distinguishes host events) :
    (sortedGroups host events).Pairwise fun a b => groupKey host a < groupKey host b := by
  have hsorted : (sortedGroups host events).Pairwise
      fun a b => decide (groupKey host a ≤ groupKey host b) = true := by
    refine List.pairwise_mergeSort ?_ ?_ _
    · intro a b c hab hbc
      exact decide_eq_true (le_trans (of_decide_eq_true hab) (of_decide_eq_true hbc))
    · intro a b
      rw [Bool.or_eq_true, decide_eq_true_eq, decide_eq_true_eq]
      exact le_total _ _
  have hnodup : (sortedGroups host events).Pairwise fun a b => a.1 ≠ b.1 := by
    have hperm : (sortedGroups host events).Perm (latestByGroup events).entries :=
      sortedGroups_perm events
    have hkeys := (hperm.map Prod.fst).nodup_iff.mpr (latestByGroup events).nodup
    exact List.pairwise_map.mp hkeys
  have hmem : ∀ entry ∈ sortedGroups host events, ∃ item ∈ events, item.groupId = entry.1 := by
    intro entry hentry
    obtain ⟨item, hitem, hgroup, -⟩ :=
      attained_of_mem_entries ((sortedGroups_perm events).mem_iff.mp hentry)
    exact ⟨item, hitem, hgroup⟩
  refine (hsorted.and hnodup).imp_of_mem ?_
  rintro a b ha hb ⟨hle, hne⟩
  refine lt_of_le_of_ne (of_decide_eq_true hle) fun heq => hne ?_
  obtain ⟨item, hitem, hgroup⟩ := hmem a ha
  obtain ⟨item', hitem', hgroup'⟩ := hmem b hb
  rw [← hgroup, ← hgroup']
  refine h item hitem item' hitem' ?_
  rw [hgroup, hgroup']
  exact (Prod.mk.inj (toLex.injective heq)).2

/-- The recent groups are the five with the highest keys. -/
theorem mem_recentGroupIds {events : List TimelineEventWithGroup} (h : Distinguishes host events)
    (groupId : String) :
    groupId ∈ recentGroupIds host events ↔
      Recent TimelineEventWithGroup.groupId (itemKey host) maxRecentGroups events groupId := by
  have hcard : ∀ k : Lex (ℚ × γ),
      ((sortedGroups host events).filter fun entry => decide (k < groupKey host entry)).length =
        (groupsAbove TimelineEventWithGroup.groupId (itemKey host) events k).card := by
    intro k
    rw [groupsAbove_eq, List.toFinset_card_of_nodup, List.length_map]
    · exact ((sortedGroups_perm events).filter _).length_eq
    · exact (latestByGroup events).nodup.sublist (List.filter_sublist.map _)
  rw [recentGroupIds, List.mem_map]
  constructor
  · rintro ⟨entry, hentry, rfl⟩
    obtain ⟨hmem, hfew⟩ := (mem_drop_iff (sortedGroups_pairwise h) maxRecentGroups entry).mp hentry
    obtain ⟨item, hitem, hgroup, htime⟩ :=
      attained_of_mem_entries ((sortedGroups_perm events).mem_iff.mp hmem)
    refine ⟨item, hitem, hgroup, ?_⟩
    rw [hcard] at hfew
    rwa [itemKey, hgroup, htime]
  · rintro ⟨item, hitem, rfl, hfew⟩
    obtain ⟨time, hentry, hle⟩ := mem_entries_latestByGroup hitem
    refine ⟨(item.groupId, time), ?_, rfl⟩
    refine (mem_drop_iff (sortedGroups_pairwise h) maxRecentGroups _).mpr
      ⟨(sortedGroups_perm events).mem_iff.mpr hentry, ?_⟩
    rw [hcard]
    exact lt_of_le_of_lt (card_groupsAbove_le (List.Subset.refl _) (groupKey_le hle)) hfew

theorem mem_selectGrouped {grouped : List TimelineEventWithGroup} (h : Distinguishes host grouped)
    (event : TimelineEvent) :
    event ∈ selectGrouped host grouped ↔
      ∃ item ∈ grouped, item.event = event ∧
        Recent TimelineEventWithGroup.groupId (itemKey host) maxRecentGroups grouped
          item.groupId := by
  rw [selectGrouped, List.mem_map]
  constructor
  · rintro ⟨item, hitem, rfl⟩
    obtain ⟨hmem, hrecent⟩ := List.mem_filter.mp ((List.mergeSort_perm _ _).mem_iff.mp hitem)
    rw [List.contains_iff_mem, mem_recentGroupIds h] at hrecent
    exact ⟨item, hmem, rfl, hrecent⟩
  · rintro ⟨item, hmem, rfl, hrecent⟩
    refine ⟨item, (List.mergeSort_perm _ _).mem_iff.mpr (List.mem_filter.mpr ⟨hmem, ?_⟩), rfl⟩
    rw [List.contains_iff_mem, mem_recentGroupIds h]
    exact hrecent

theorem isRecentGroup_append (events events' : List TimelineEvent) (groupId : String) :
    IsRecentGroup host (events ++ events') groupId ↔
      Recent TimelineEventWithGroup.groupId (itemKey host) maxRecentGroups
        (groupedOf events ++ groupedOf events') groupId := by
  rw [IsRecentGroup, groupedOf_append]

/-- What `selectRecentTimelineEvents` takes of the events of a scope. -/
theorem mem_selectRecent {scope : StoreScope} {events : List TimelineEvent}
    (hscope : ∀ event ∈ events, inStoreScope scope event = true)
    (hdist : Distinguishes host (groupedOf events)) :
    ∃ selected, selectRecentTimelineEvents host scope events = some selected ∧
      ∀ event, event ∈ selected ↔
        event ∈ events ∧ ∃ groupId, event.groupId = some groupId ∧
          IsRecentGroup host events groupId := by
  refine ⟨selectGrouped host (groupedOf events), ?_, fun event => ?_⟩
  · rw [selectRecentTimelineEvents, toGroupedEvents_eq hscope, Option.map_some]
  · rw [mem_selectGrouped hdist]
    constructor
    · rintro ⟨item, hitem, rfl, hrecent⟩
      obtain ⟨hmem, hgroup, -⟩ := mem_groupedOf.mp hitem
      exact ⟨hmem, item.groupId, hgroup, hrecent⟩
    · rintro ⟨hmem, groupId, hgroup, hrecent⟩
      exact ⟨_, mem_groupedOf_of_mem hmem hgroup, rfl, hrecent⟩

/-- Only which grouped events there are matters for the recent groups. -/
theorem isRecentGroup_congr {events events' : List TimelineEvent}
    (h : ∀ event, event.groupId.isSome = true → (event ∈ events ↔ event ∈ events'))
    (groupId : String) :
    IsRecentGroup host events groupId ↔ IsRecentGroup host events' groupId := by
  have hmem : ∀ item, item ∈ groupedOf events ↔ item ∈ groupedOf events' := by
    intro item
    rw [mem_groupedOf, mem_groupedOf]
    refine and_congr_left fun hitem => h item.event ?_
    rw [hitem.1]
    rfl
  have habove : ∀ k, groupsAbove TimelineEventWithGroup.groupId (itemKey host)
      (groupedOf events) k = groupsAbove TimelineEventWithGroup.groupId (itemKey host)
      (groupedOf events') k := by
    intro k
    ext g
    rw [mem_groupsAbove, mem_groupsAbove]
    simp only [hmem]
  unfold IsRecentGroup Recent
  simp only [hmem, habove]

end Recent

/-! ## Commits -/

/-- Events with the same id are the same. -/
def NoConflicts (events : List TimelineEvent) : Prop :=
  ∀ event ∈ events, ∀ event' ∈ events, event.eventId = event'.eventId → event = event'

theorem eventsById_append (events : List TimelineEvent) (event : TimelineEvent) :
    eventsById (events ++ [event]) = (eventsById events).set event.eventId event := by
  rw [eventsById, List.foldl_append]
  rfl

theorem NoConflicts.of_subset {events events' : List TimelineEvent} (h : NoConflicts events')
    (hsub : ∀ event ∈ events, event ∈ events') : NoConflicts events :=
  fun event hmem event' hmem' => h event (hsub event hmem) event' (hsub event' hmem')

theorem get?_eventsById {events : List TimelineEvent} (h : NoConflicts events) (id : String)
    (event : TimelineEvent) :
    (eventsById events).get? id = some event ↔ event ∈ events ∧ event.eventId = id := by
  induction events using List.reverseRecOn with
  | nil =>
    refine iff_of_false (fun hget => ?_) fun hmem => ?_
    · cases hget
    · cases hmem.1
  | append_singleton events last ih =>
    have hsub : ∀ e ∈ events, e ∈ events ++ [last] := fun e he => List.mem_append_left _ he
    rw [eventsById_append, OrderedMap.get?_set]
    by_cases hid : id = last.eventId
    · rw [if_pos hid, Option.some.injEq]
      constructor
      · rintro rfl
        exact ⟨by simp, hid.symm⟩
      · rintro ⟨hmem, hsame⟩
        exact h last (by simp) event hmem (hid.symm.trans hsame.symm)
    · rw [if_neg hid, ih (h.of_subset hsub)]
      constructor
      · rintro ⟨hmem, hsame⟩
        exact ⟨hsub event hmem, hsame⟩
      · rintro ⟨hmem, hsame⟩
        rcases List.mem_append.mp hmem with hmem | hmem
        · exact ⟨hmem, hsame⟩
        · rw [List.mem_singleton.mp hmem] at hsame
          exact absurd hsame.symm hid

theorem mem_values_eventsById {events : List TimelineEvent} (h : NoConflicts events)
    (event : TimelineEvent) : event ∈ (eventsById events).values ↔ event ∈ events := by
  rw [OrderedMap.mem_values]
  constructor
  · rintro ⟨id, hget⟩
    exact ((get?_eventsById h id event).mp hget).1
  · intro hmem
    exact ⟨event.eventId, (get?_eventsById h _ event).mpr ⟨hmem, rfl⟩⟩

/-- Events of one content per id have no conflict. -/
theorem findTimelineConflict_eq_none {events incoming : List TimelineEvent}
    (h : NoConflicts (events ++ incoming)) :
    findTimelineConflict (eventsById events) incoming = none := by
  induction incoming generalizing events with
  | nil => rfl
  | cons event rest ih =>
    have hrest : NoConflicts ((events ++ [event]) ++ rest) := by
      rwa [List.append_assoc, List.singleton_append]
    have hevents : NoConflicts events := h.of_subset fun e he => List.mem_append_left _ he
    rw [findTimelineConflict]
    cases hget : (eventsById events).get? event.eventId with
    | none =>
      dsimp only
      rw [← eventsById_append]
      exact ih hrest
    | some previous =>
      obtain ⟨hmem, hid⟩ := (get?_eventsById hevents _ _).mp hget
      have hsame : previous = event :=
        h previous (List.mem_append_left _ hmem) event (by simp) hid
      dsimp only
      rw [if_neg (not_not.mpr hsame)]
      exact ih (h.of_subset fun e he => by
        rcases List.mem_append.mp he with he | he
        · exact List.mem_append_left _ he
        · exact List.mem_append_right _ (List.mem_cons_of_mem _ he))

section Commits

variable {γ : Type} [LinearOrder γ] {host : StoreHost γ} {scope : StoreScope}

/-- The grouped events that a commit brings. -/
def incomingOf (events : List TimelineEvent) : List TimelineEvent :=
  (groupedOf events).map fun item => item.event

theorem mem_incomingOf {events : List TimelineEvent} {event : TimelineEvent} :
    event ∈ incomingOf events ↔ event ∈ events ∧ event.groupId.isSome = true := by
  rw [incomingOf, List.mem_map]
  constructor
  · rintro ⟨item, hitem, rfl⟩
    obtain ⟨hmem, hgroup, -⟩ := mem_groupedOf.mp hitem
    rw [hgroup]
    exact ⟨hmem, rfl⟩
  · rintro ⟨hmem, hsome⟩
    obtain ⟨groupId, hgroup⟩ := Option.isSome_iff_exists.mp hsome
    exact ⟨_, mem_groupedOf_of_mem hmem hgroup, rfl⟩

/-- What a commit of consistent events stores: of the stored and the new events, those of the
    recent groups. -/
theorem mem_commitRealtime {stored events : List TimelineEvent}
    (hlist : ∀ event, event ∈ host.toArray stored ↔ event ∈ stored)
    (hscope : ∀ event ∈ stored ++ events, inStoreScope scope event = true)
    (hconsistent : NoConflicts (stored ++ events))
    (hdist : Distinguishes host (groupedOf (stored ++ events)))
    (hrecent : ∀ event ∈ stored, ∃ groupId, event.groupId = some groupId ∧
      IsRecentGroup host stored groupId) (event : TimelineEvent) :
    event ∈ (commitRealtime host scope stored events).1 ↔
      event ∈ stored ++ events ∧ ∃ groupId, event.groupId = some groupId ∧
        IsRecentGroup host (stored ++ events) groupId := by
  have hgrouped : toGroupedEvents scope events = some (groupedOf events) :=
    toGroupedEvents_eq fun e he => hscope e (List.mem_append_right _ he)
  have hincoming : (groupedOf events).map (fun item => item.event) = incomingOf events := rfl
  have hstored : ∀ e ∈ stored, e.groupId.isSome = true := by
    intro e he
    obtain ⟨groupId, hgroup, -⟩ := hrecent e he
    rw [hgroup]
    rfl
  unfold commitRealtime
  rw [hgrouped]
  dsimp only
  rw [hincoming]
  by_cases hempty : (incomingOf events).isEmpty = true
  · rw [if_pos hempty]
    have hnone : ∀ e ∈ events, e.groupId.isSome = false := by
      intro e he
      by_contra hsome
      have hmem := mem_incomingOf.mpr ⟨he, Bool.of_not_eq_false hsome⟩
      rw [List.isEmpty_iff.mp hempty] at hmem
      cases hmem
    have hsame : ∀ e, e.groupId.isSome = true → (e ∈ stored ++ events ↔ e ∈ stored) := by
      intro e hsome
      rw [List.mem_append, or_iff_left fun he => by rw [hnone e he] at hsome; cases hsome]
    constructor
    · intro hmem
      obtain ⟨groupId, hgroup, hgroupRecent⟩ := hrecent event hmem
      exact ⟨List.mem_append_left _ hmem, groupId, hgroup,
        (isRecentGroup_congr hsame groupId).mpr hgroupRecent⟩
    · rintro ⟨hmem, groupId, hgroup, -⟩
      refine (hsame event ?_).mp hmem
      rw [hgroup]
      rfl
  · -- what is merged are the grouped events of both
    have hmergedMem : ∀ e, e ∈ host.toArray stored ++ incomingOf events ↔
        e ∈ stored ++ events ∧ e.groupId.isSome = true := by
      intro e
      rw [List.mem_append, List.mem_append, hlist, mem_incomingOf, or_and_right]
      refine or_congr_left ?_
      exact ⟨fun he => ⟨he, hstored e he⟩, fun he => he.1⟩
    have hconsistent' : NoConflicts (host.toArray stored ++ incomingOf events) :=
      hconsistent.of_subset fun e he => ((hmergedMem e).mp he).1
    have hmerged : (incomingOf events).foldl (fun byId e => byId.set e.eventId e)
        (eventsById (host.toArray stored)) =
        eventsById (host.toArray stored ++ incomingOf events) := by
      rw [eventsById, eventsById, List.foldl_append]
    have hvalues : ∀ e, e ∈ (eventsById (host.toArray stored ++ incomingOf events)).values ↔
        e ∈ stored ++ events ∧ e.groupId.isSome = true := by
      intro e
      rw [mem_values_eventsById hconsistent', hmergedMem]
    obtain ⟨selected, hselected, hmem⟩ := @mem_selectRecent γ _ host scope
      (eventsById (host.toArray stored ++ incomingOf events)).values
      (fun e he => hscope e ((hvalues e).mp he).1)
      (fun a ha b hb => by
        obtain ⟨hmemA, hgroupA, htimeA⟩ := mem_groupedOf.mp ha
        obtain ⟨hmemB, hgroupB, htimeB⟩ := mem_groupedOf.mp hb
        exact hdist a (mem_groupedOf.mpr ⟨((hvalues _).mp hmemA).1, hgroupA, htimeA⟩)
          b (mem_groupedOf.mpr ⟨((hvalues _).mp hmemB).1, hgroupB, htimeB⟩))
    rw [if_neg hempty, findTimelineConflict_eq_none hconsistent']
    dsimp only
    rw [hmerged, hselected]
    dsimp only
    have hsame : ∀ e, e.groupId.isSome = true →
        (e ∈ (eventsById (host.toArray stored ++ incomingOf events)).values ↔
          e ∈ stored ++ events) := by
      intro e hsome
      rw [hvalues]
      exact ⟨fun he => he.1, fun he => ⟨he, hsome⟩⟩
    rw [hmem event]
    constructor
    · rintro ⟨hvalue, groupId, hgroup, hgroupRecent⟩
      exact ⟨((hvalues event).mp hvalue).1, groupId, hgroup,
        (isRecentGroup_congr hsame groupId).mp hgroupRecent⟩
    · rintro ⟨hall, groupId, hgroup, hgroupRecent⟩
      refine ⟨(hvalues event).mpr ⟨hall, ?_⟩, groupId, hgroup,
        (isRecentGroup_congr hsame groupId).mpr hgroupRecent⟩
      rw [hgroup]
      rfl

/-! ## Runs of commits -/

/-- Commits of events of one scope without a conflict, whose groups `localeCompare` tells apart,
    with a database that lists what is stored. -/
structure Deliverable (host : StoreHost γ) (scope : StoreScope)
    (commits : List (List TimelineEvent)) : Prop where
  listing : ∀ records event, event ∈ host.toArray records ↔ event ∈ records
  inScope : ∀ event ∈ commits.flatten, inStoreScope scope event = true
  consistent : NoConflicts commits.flatten
  distinguishes : Distinguishes host (groupedOf commits.flatten)

/-- What is stored after some commits, beside all that they have delivered. -/
structure StoreInv (host : StoreHost γ) (stored delivered : List TimelineEvent) : Prop where
  subset : ∀ event ∈ stored, event ∈ delivered
  recent : ∀ event ∈ stored, ∃ groupId, event.groupId = some groupId ∧
    IsRecentGroup host stored groupId
  dominates : Dominates TimelineEventWithGroup.groupId (itemKey host) maxRecentGroups
    (groupedOf stored) (groupedOf delivered)

theorem groupedOf_subset {events events' : List TimelineEvent}
    (h : ∀ event ∈ events, event ∈ events') : groupedOf events ⊆ groupedOf events' := by
  intro item hitem
  obtain ⟨hmem, hgroup, htime⟩ := mem_groupedOf.mp hitem
  exact mem_groupedOf.mpr ⟨h _ hmem, hgroup, htime⟩

/-- The stored events have the same recent groups as all that were delivered. -/
theorem StoreInv.isRecentGroup_iff {stored delivered : List TimelineEvent}
    (h : StoreInv host stored delivered) (groupId : String) :
    IsRecentGroup host stored groupId ↔ IsRecentGroup host delivered groupId :=
  recent_iff_of_dominates (groupedOf_subset h.subset) h.dominates groupId

theorem storeInv_nil : StoreInv host [] [] where
  subset event hmem := hmem
  recent event hmem := by cases hmem
  dominates item hmem := by cases hmem

/-- A commit that stores what is recent of the stored and the new events. -/
theorem StoreInv.commit {stored delivered events stored' : List TimelineEvent}
    (h : StoreInv host stored delivered)
    (hmem : ∀ event, event ∈ stored' ↔ event ∈ stored ++ events ∧
      ∃ groupId, event.groupId = some groupId ∧
        IsRecentGroup host (stored ++ events) groupId) :
    StoreInv host stored' (delivered ++ events) ∧
      ∀ groupId, IsRecentGroup host (stored ++ events) groupId ↔
        IsRecentGroup host (delivered ++ events) groupId := by
  have hall : ∀ event ∈ stored ++ events, event ∈ delivered ++ events := by
    intro event hevent
    rcases List.mem_append.mp hevent with hevent | hevent
    · exact List.mem_append_left _ (h.subset event hevent)
    · exact List.mem_append_right _ hevent
  have hmerged : Dominates TimelineEventWithGroup.groupId (itemKey host) maxRecentGroups
      (groupedOf (stored ++ events)) (groupedOf (delivered ++ events)) := by
    rw [groupedOf_append, groupedOf_append]
    exact h.dominates.append _
  have hdominates : Dominates TimelineEventWithGroup.groupId (itemKey host) maxRecentGroups
      (groupedOf stored') (groupedOf (delivered ++ events)) := by
    refine hmerged.restrict (groupedOf_subset hall) ?_
    intro item hitem hrecent
    obtain ⟨hevent, hgroup, htime⟩ := mem_groupedOf.mp hitem
    exact mem_groupedOf.mpr ⟨(hmem _).mpr ⟨hevent, item.groupId, hgroup, hrecent⟩, hgroup, htime⟩
  have hsubset : ∀ event ∈ stored', event ∈ delivered ++ events := fun event hevent =>
    hall event ((hmem event).mp hevent).1
  have hsame : ∀ groupId, IsRecentGroup host (stored ++ events) groupId ↔
      IsRecentGroup host (delivered ++ events) groupId := fun groupId =>
    recent_iff_of_dominates (groupedOf_subset hall) hmerged groupId
  refine ⟨⟨hsubset, fun event hevent => ?_, hdominates⟩, hsame⟩
  obtain ⟨-, groupId, hgroup, hrecent⟩ := (hmem event).mp hevent
  refine ⟨groupId, hgroup, ?_⟩
  refine (recent_iff_of_dominates (groupedOf_subset hsubset) hdominates groupId).mpr ?_
  exact (hsame groupId).mp hrecent

omit [LinearOrder γ] in
/-- The part of a delivery that has come. -/
theorem Deliverable.of_append {pre post : List (List TimelineEvent)}
    (h : Deliverable host scope (pre ++ post)) : Deliverable host scope pre := by
  have hsub : ∀ event ∈ pre.flatten, event ∈ (pre ++ post).flatten := by
    intro event hevent
    rw [List.flatten_append]
    exact List.mem_append_left _ hevent
  refine ⟨h.listing, fun event hevent => h.inScope event (hsub event hevent),
    h.consistent.of_subset hsub, fun a ha b hb => ?_⟩
  exact h.distinguishes a (groupedOf_subset hsub ha) b (groupedOf_subset hsub hb)

theorem storedAfter_append (commits : List (List TimelineEvent)) (events : List TimelineEvent) :
    storedAfter host scope (commits ++ [events]) =
      (commitRealtime host scope (storedAfter host scope commits) events).1 := by
  rw [storedAfter, List.foldl_append]
  rfl

/-- One more commit, for what is stored and what has been delivered. -/
theorem mem_storedAfter_append {commits : List (List TimelineEvent)} {events : List TimelineEvent}
    (h : Deliverable host scope (commits ++ [events]))
    (hinv : StoreInv host (storedAfter host scope commits) commits.flatten)
    (event : TimelineEvent) :
    event ∈ storedAfter host scope (commits ++ [events]) ↔
      event ∈ storedAfter host scope commits ++ events ∧
        ∃ groupId, event.groupId = some groupId ∧
          IsRecentGroup host (storedAfter host scope commits ++ events) groupId := by
  have hsub : ∀ e ∈ storedAfter host scope commits ++ events,
      e ∈ (commits ++ [events]).flatten := by
    intro e he
    rw [List.flatten_append, List.flatten_singleton]
    rcases List.mem_append.mp he with he | he
    · exact List.mem_append_left _ (hinv.subset e he)
    · exact List.mem_append_right _ he
  rw [storedAfter_append]
  refine mem_commitRealtime (h.listing _) (fun e he => h.inScope e (hsub e he))
    (h.consistent.of_subset hsub) (fun a ha b hb => ?_) hinv.recent event
  exact h.distinguishes a (groupedOf_subset hsub ha) b (groupedOf_subset hsub hb)

theorem storeInv_storedAfter {commits : List (List TimelineEvent)}
    (h : Deliverable host scope commits) :
    StoreInv host (storedAfter host scope commits) commits.flatten := by
  induction commits using List.reverseRecOn with
  | nil => exact storeInv_nil
  | append_singleton commits events ih =>
    have hinv := ih h.of_append
    rw [List.flatten_append, List.flatten_singleton]
    exact (hinv.commit (mem_storedAfter_append h hinv)).1

/-- Of an event that has come, the group was among the recent ones at every commit since. -/
def StaysRecent (host : StoreHost γ) (commits : List (List TimelineEvent)) (event : TimelineEvent)
    (groupId : String) : Prop :=
  ∀ pre post, commits = pre ++ post → event ∈ pre.flatten →
    IsRecentGroup host pre.flatten groupId ∨ event ∈ post.flatten

/-- What is stored: the events that have come, and whose group has stayed recent since. -/
theorem mem_stored_iff {commits : List (List TimelineEvent)}
    (h : Deliverable host scope commits) (event : TimelineEvent) :
    event ∈ storedAfter host scope commits ↔
      event ∈ commits.flatten ∧ ∃ groupId, event.groupId = some groupId ∧
        StaysRecent host commits event groupId := by
  induction commits using List.reverseRecOn with
  | nil =>
    refine iff_of_false (fun hmem => ?_) fun hmem => ?_
    · cases hmem
    · cases hmem.1
  | append_singleton commits events ih =>
    have hinv := storeInv_storedAfter h.of_append
    have hrecent := (hinv.commit (mem_storedAfter_append h hinv)).2
    have hflatten : (commits ++ [events]).flatten = commits.flatten ++ events := by
      rw [List.flatten_append, List.flatten_singleton]
    rw [mem_storedAfter_append h hinv, hflatten]
    simp only [List.mem_append, hrecent, ih h.of_append]
    constructor
    · rintro ⟨hmem, groupId, hgroup, hlast⟩
      refine ⟨hmem.imp_left And.left, groupId, hgroup, fun pre post hsplit hpre => ?_⟩
      rcases List.eq_nil_or_concat post with rfl | ⟨post, last, rfl⟩
      · rw [List.append_nil] at hsplit
        rw [← hsplit, hflatten]
        exact Or.inl hlast
      · rw [List.concat_eq_append, ← List.append_assoc] at hsplit
        obtain ⟨hcommits, hevents⟩ := List.append_inj' hsplit rfl
        cases hevents
        rw [List.concat_eq_append, List.flatten_append, List.flatten_singleton, List.mem_append]
        rcases hmem with ⟨-, groupId', hgroup', hstays⟩ | hnew
        · rw [hgroup] at hgroup'
          cases hgroup'
          exact (hstays pre post hcommits hpre).imp_right Or.inl
        · exact Or.inr (Or.inr hnew)
    · rintro ⟨hmem, groupId, hgroup, hstays⟩
      have hlast : IsRecentGroup host (commits.flatten ++ events) groupId := by
        have hcome : event ∈ (commits ++ [events]).flatten := by
          rw [hflatten]
          exact List.mem_append.mpr hmem
        rcases hstays (commits ++ [events]) [] (List.append_nil _).symm hcome with hlast | hnone
        · rwa [hflatten] at hlast
        · cases hnone
      refine ⟨?_, groupId, hgroup, hlast⟩
      by_cases hnew : event ∈ events
      · exact Or.inr hnew
      · refine Or.inl ⟨hmem.resolve_right hnew, groupId, hgroup, fun pre post hsplit hpre => ?_⟩
        have hsplit' : commits ++ [events] = pre ++ (post ++ [events]) := by
          rw [hsplit, List.append_assoc]
        refine (hstays pre (post ++ [events]) hsplit' hpre).imp_right fun hpost => ?_
        rw [List.flatten_append, List.flatten_singleton, List.mem_append] at hpost
        exact hpost.resolve_right hnew

/-- No group that is among the recent ones at the end was not so at an earlier commit that had
    brought one of its events, unless the event came again later. -/
def NoneReturns (host : StoreHost γ) (commits : List (List TimelineEvent)) : Prop :=
  ∀ event groupId, event.groupId = some groupId →
    IsRecentGroup host commits.flatten groupId → StaysRecent host commits event groupId

end Commits

/-- What is stored after some commits is what would be selected of all their events at once,
    exactly when no group returns to the recent ones. -/
theorem stored_eq_selected_iff {γ : Type} [LinearOrder γ] (host : StoreHost γ) (scope : StoreScope)
    (commits : List (List TimelineEvent)) (h : Deliverable host scope commits) :
    (∃ selected, selectRecentTimelineEvents host scope commits.flatten = some selected ∧
        ∀ event, event ∈ storedAfter host scope commits ↔ event ∈ selected) ↔
      NoneReturns host commits := by
  obtain ⟨selected, hselected, hmem⟩ := mem_selectRecent h.inScope h.distinguishes
  rw [hselected]
  constructor
  · rintro ⟨_, heq, hsame⟩ event groupId hgroup hrecent pre post hsplit hpre
    cases heq
    have hcome : event ∈ commits.flatten := by
      rw [hsplit, List.flatten_append]
      exact List.mem_append_left _ hpre
    have hstored := (hsame event).mpr ((hmem event).mpr ⟨hcome, groupId, hgroup, hrecent⟩)
    obtain ⟨-, groupId', hgroup', hstays⟩ := (mem_stored_iff h event).mp hstored
    rw [hgroup] at hgroup'
    cases hgroup'
    exact hstays pre post hsplit hpre
  · intro hnone
    refine ⟨selected, rfl, fun event => ?_⟩
    rw [mem_stored_iff h, hmem]
    constructor
    · rintro ⟨hcome, groupId, hgroup, hstays⟩
      refine ⟨hcome, groupId, hgroup, ?_⟩
      exact (hstays commits [] (List.append_nil _).symm hcome).resolve_right List.not_mem_nil
    · rintro ⟨hcome, groupId, hgroup, hrecent⟩
      exact ⟨hcome, groupId, hgroup, hnone event groupId hgroup hrecent⟩

/-! ## A group that returns -/

/-- A host whose sort keys are lengths. -/
def plainHost : StoreHost ℕ := ⟨String.length, id⟩

def storeScope : StoreScope := ⟨"device", "endpoint", "session", "generation"⟩

/-- An event of a group, at a time. -/
def groupEvent (eventId groupId : String) (time : ℕ) : TimelineEvent where
  eventId
  sessionId := "session"
  historyGeneration := "generation"
  timestamp := (time : ℚ)
  kind := .assistant
  groupId := some groupId
  json := []

/-- Six groups in turn, and then another event of the first one. -/
def returningCommits : List (List TimelineEvent) :=
  [[groupEvent "a" "1" 1], [groupEvent "b" "22" 2], [groupEvent "c" "333" 3],
    [groupEvent "d" "4444" 4], [groupEvent "e" "55555" 5], [groupEvent "f" "666666" 6],
    [groupEvent "g" "1" 7]]

instance (events : List TimelineEvent) : Decidable (NoConflicts events) :=
  inferInstanceAs (Decidable (∀ event ∈ events, ∀ event' ∈ events, _ → _))

instance (events : List TimelineEventWithGroup) : Decidable (Distinguishes plainHost events) :=
  inferInstanceAs (Decidable (∀ a ∈ events, ∀ b ∈ events, _ → _))

theorem returningCommits_deliverable : Deliverable plainHost storeScope returningCommits where
  listing records event := Iff.rfl
  inScope := by decide
  consistent := by decide
  distinguishes := by decide

/-- Six groups in turn: the first one is dropped and does not return. -/
def sixGroupCommits : List (List TimelineEvent) := returningCommits.take 6

theorem sixGroupCommits_deliverable : Deliverable plainHost storeScope sixGroupCommits where
  listing records event := Iff.rfl
  inScope := by decide
  consistent := by decide +kernel
  distinguishes := by decide

theorem sixGroupCommits_selected :
    groupEvent "a" "1" 1 ∉ storedAfter plainHost storeScope sixGroupCommits ∧
      ∃ selected, selectRecentTimelineEvents plainHost storeScope sixGroupCommits.flatten =
          some selected ∧
        ∀ event, event ∈ storedAfter plainHost storeScope sixGroupCommits ↔ event ∈ selected := by
  -- a group that is recent at the end is recent from the commit of its first event on
  have hstays : ∀ k ≤ 6, ∀ event ∈ (sixGroupCommits.take k).flatten,
      IsRecentGroup plainHost sixGroupCommits.flatten (event.groupId.getD "") →
        IsRecentGroup plainHost (sixGroupCommits.take k).flatten (event.groupId.getD "") := by
    decide
  have hselected := (stored_eq_selected_iff plainHost storeScope sixGroupCommits
    sixGroupCommits_deliverable).mpr (by
      intro event groupId hgroup hrecent pre post hsplit hpre
      have hlength : pre.length ≤ 6 := by
        have htotal := congrArg List.length hsplit
        rw [List.length_append] at htotal
        exact Nat.le_trans (Nat.le_add_right _ _) (Nat.le_of_eq htotal.symm)
      have hstay := hstays pre.length hlength event
      rw [hsplit, List.take_left, ← hsplit, hgroup] at hstay
      exact Or.inl (hstay hpre hrecent))
  refine ⟨fun hstored => ?_, hselected⟩
  obtain ⟨-, groupId, hgroup, hrecent⟩ :=
    (mem_stored_iff sixGroupCommits_deliverable _).mp hstored
  cases hgroup
  have hdropped : ¬(IsRecentGroup plainHost sixGroupCommits.flatten "1" ∨
      groupEvent "a" "1" 1 ∈ ([] : List (List TimelineEvent)).flatten) := by decide
  exact hdropped (hrecent sixGroupCommits [] (List.append_nil _).symm (by decide))

/-- The first event of the group that returns is not stored, though its group is among the five
    most recent ones. -/
theorem returning_group_incomplete :
    ¬∃ selected, selectRecentTimelineEvents plainHost storeScope returningCommits.flatten =
        some selected ∧
      ∀ event, event ∈ storedAfter plainHost storeScope returningCommits ↔ event ∈ selected := by
  have hdeliverable := returningCommits_deliverable
  obtain ⟨selected, hselected, hmem⟩ :=
    mem_selectRecent hdeliverable.inScope hdeliverable.distinguishes
  rintro ⟨_, heq, hsame⟩
  rw [hselected] at heq
  cases heq
  have hrecent : IsRecentGroup plainHost returningCommits.flatten "1" := by decide
  have hstored := (hsame (groupEvent "a" "1" 1)).mpr
    ((hmem _).mpr ⟨by decide, "1", rfl, hrecent⟩)
  obtain ⟨-, groupId, hgroup, hstays⟩ := (mem_stored_iff hdeliverable _).mp hstored
  cases hgroup
  have hevicted : ¬(IsRecentGroup plainHost (returningCommits.take 6).flatten "1" ∨
      groupEvent "a" "1" 1 ∈ (returningCommits.drop 6).flatten) := by decide
  exact hevicted (hstays (returningCommits.take 6) (returningCommits.drop 6)
    (List.take_append_drop 6 returningCommits).symm (by decide))

end RemotePi.Pwa
