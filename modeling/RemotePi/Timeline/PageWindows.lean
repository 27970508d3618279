import RemotePi.Timeline.HistoryWindows

/-!
# The windows of a page

The windows that `selectWindow` (`pi-extension/src/timeline/history.ts`, lines 243–306)
selects, told from the records before a position alone. Groups may overlap, and event ids
may be repeated.

Results:
* `orderedGroups_eq`: the groups come in the order of the records that begin them.
* `selectWindow_ok_iff`: which windows the requests select.
* `selectWindow_isOk_iff_newest`: when a request selects a window.
-/

namespace RemotePi.Timeline

open RemotePi.Lib RemotePi.Protocol

/-! ## Groups by their first records -/

/-- The records before a position, in the order of recovery. -/
structure SortedBefore (records : List EventRecord) (p : ℕ) : Prop where
  sorted : records.Pairwise fun r r' => recordLe r r' = true
  orders : (records.map EventRecord.order).Nodup
  before : ∀ r ∈ records, r.position < p

/-- No record of its group comes before the record. -/
def begins (records : List EventRecord) (r : EventRecord) : Bool :=
  Records.sameGroup r r &&
    records.all fun r' => !Records.sameGroup r r' || recordLe r r'

/-- The record that begins the group of `r'` is `r` or comes after it; a system event lies at the
    position of `r` or after it. -/
def isFrom (records : List EventRecord) (r r' : EventRecord) : Bool :=
  if r'.event.isSystem then r.position ≤ r'.position
  else records.all fun r'' => !Records.sameGroup r' r'' || recordLe r r''

/-- The groups that begin at `r` or after it, whole, and the system events from there on. -/
def windowFrom (records : List EventRecord) (r : EventRecord) : List EventRecord :=
  records.filter (isFrom records r)

/-- The records that begin the groups of the window from `r` on. -/
def groupsFrom (records : List EventRecord) (r : EventRecord) : List EventRecord :=
  records.filter fun r' => begins records r' && recordLe r r'

section Order

variable {records : List EventRecord} {p : ℕ} {r r' : EventRecord}

theorem recordLe_refl (r : EventRecord) : recordLe r r = true := by
  simp [recordLe]

theorem SortedBefore.eq_of_le (h : SortedBefore records p) (hr : r ∈ records) (hr' : r' ∈ records)
    (hle : recordLe r r' = true) (hge : recordLe r' r = true) : r = r' := by
  refine List.inj_on_of_nodup_map h.orders hr hr' ?_
  simp only [recordLe, Bool.or_eq_true, Bool.and_eq_true, decide_eq_true_eq] at hle hge
  omega

theorem begins_iff : begins records r = true ↔ r.event.isSystem = false ∧
    ∀ r' ∈ records, Records.sameGroup r r' = true → recordLe r r' = true := by
  rw [begins, Bool.and_eq_true, List.all_eq_true, Records.sameGroup_iff]
  refine and_congr (by simp) (forall₂_congr fun r' _ => ?_)
  cases Records.sameGroup r r' <;> simp

theorem SortedBefore.init {rs : List EventRecord} (h : SortedBefore (rs ++ [r]) p) :
    SortedBefore rs p :=
  ⟨h.sorted.sublist (List.sublist_append_left _ _),
    h.orders.sublist ((List.sublist_append_left _ _).map _),
    fun x hx => h.before x (List.mem_append_left _ hx)⟩

theorem SortedBefore.le_last {rs : List EventRecord} (h : SortedBefore (rs ++ [r]) p)
    (hr' : r' ∈ rs) : recordLe r' r = true :=
  (List.pairwise_append.mp h.sorted).2.2 r' hr' r (List.mem_singleton.mpr rfl)

/-- The last record begins a group exactly when it is the first of it. -/
theorem filter_begins_concat {rs : List EventRecord} (h : SortedBefore (rs ++ [r]) p) :
    (rs ++ [r]).filter (begins (rs ++ [r])) =
      rs.filter (begins rs) ++
        if r.event.isSystem = false ∧ members rs r.event.groupId = [] then [r] else [] := by
  rw [List.filter_append]
  congr 1
  · refine List.filter_congr fun x hx => ?_
    rw [Bool.eq_iff_iff, begins_iff, begins_iff]
    refine and_congr_right fun hs =>
      ⟨fun hall y hy => hall y (List.mem_append_left _ hy), fun hall y hy hsame => ?_⟩
    rcases List.mem_append.mp hy with hy | hy
    · exact hall y hy hsame
    · rw [List.mem_singleton.mp hy]
      exact h.le_last hx
  · have hiff : begins (rs ++ [r]) r = true ↔
        r.event.isSystem = false ∧ members rs r.event.groupId = [] := by
      rw [begins_iff]
      refine and_congr_right fun hs => ?_
      rw [List.eq_nil_iff_forall_not_mem]
      constructor
      · intro hall x hx
        obtain ⟨hmem, hsx, hid⟩ := mem_members.mp hx
        have hle := hall x (List.mem_append_left _ hmem)
          (Records.sameGroup_iff.mpr ⟨hs, hsx, hid.symm⟩)
        have heq := h.eq_of_le (List.mem_append_right rs (List.mem_singleton.mpr rfl))
          (List.mem_append_left _ hmem) hle (h.le_last hmem)
        have hnodup := h.orders
        rw [List.map_append, List.nodup_append] at hnodup
        exact hnodup.2.2 _ (List.mem_map_of_mem hmem) r.order (by simp) (by rw [heq])
      · intro hnone x hx hsame
        obtain ⟨-, hsx, hid⟩ := Records.sameGroup_iff.mp hsame
        rcases List.mem_append.mp hx with hx | hx
        · exact absurd (mem_members.mpr ⟨hx, hsx, hid.symm⟩) (hnone x)
        · rw [List.mem_singleton.mp hx]
          exact recordLe_refl r
    by_cases hb : r.event.isSystem = false ∧ members rs r.event.groupId = []
    · rw [if_pos hb, List.filter_cons_of_pos (hiff.mpr hb), List.filter_nil]
    · rw [if_neg hb, List.filter_cons_of_neg (fun hx => hb (hiff.mp hx)), List.filter_nil]

theorem keys_addToGroup (groups : OrderedMap String GroupRecord) (record : EventRecord) :
    (addToGroup groups record).keys =
      groups.keys ++
        if groups.get? record.event.groupId = none then [record.event.groupId] else [] := by
  unfold addToGroup
  cases hget : groups.get? record.event.groupId with
  | some existing => simp [hget, OrderedMap.keys_set_of_some hget]
  | none => simp [hget, OrderedMap.keys_set_of_none _ hget]

/-- The groups come in the order of the records that begin them. -/
theorem keys_groupsOf (h : SortedBefore records p) :
    (groupsOf records).keys = (records.filter (begins records)).map fun r => r.event.groupId := by
  induction records using List.reverseRecOn with
  | nil => rfl
  | append_singleton rs r ih =>
    rw [filter_begins_concat h, List.map_append, ← ih h.init]
    unfold groupsOf grouped
    rw [List.filter_append]
    cases hs : r.event.isSystem with
    | true => simp [hs]
    | false =>
      rw [List.filter_cons_of_pos (by simp [hs]), List.filter_nil, List.foldl_append,
        List.foldl_cons, List.foldl_nil, keys_addToGroup]
      have hget := get?_groupsOf rs r.event.groupId
      unfold groupsOf grouped at hget
      rw [hget]
      cases hmem : members rs r.event.groupId with
      | nil => simp [groupRecord]
      | cons x xs => simp [groupRecord]

/-! ## The groups before a position -/

/-- The group that a record begins. -/
def groupAt (records : List EventRecord) (r : EventRecord) : GroupRecord where
  groupId := r.event.groupId
  firstPosition := r.position
  records := members records r.event.groupId
  bytes := bytesOf (members records r.event.groupId)

theorem SortedBefore.groupRecord_eq (h : SortedBefore records p) (hr : r ∈ records)
    (hbegins : begins records r = true) :
    groupRecord r.event.groupId (members records r.event.groupId) = some (groupAt records r) := by
  obtain ⟨hs, hfirst⟩ := begins_iff.mp hbegins
  have hmem : r ∈ members records r.event.groupId := mem_members.mpr ⟨hr, hs, rfl⟩
  have hsorted : (members records r.event.groupId).Pairwise fun x y => recordLe x y = true :=
    h.sorted.sublist (List.filter_sublist.trans List.filter_sublist)
  unfold groupAt
  cases heq : members records r.event.groupId with
  | nil =>
    rw [heq] at hmem
    cases hmem
  | cons x xs =>
    rw [heq] at hmem hsorted
    have hx : x ∈ members records r.event.groupId := by
      rw [heq]
      exact List.mem_cons_self
    obtain ⟨hxr, hxs, hid⟩ := mem_members.mp hx
    have hle : recordLe x r = true := by
      rcases List.mem_cons.mp hmem with rfl | hmem
      · exact recordLe_refl r
      · exact (List.pairwise_cons.mp hsorted).1 r hmem
    have hge := hfirst x hxr (Records.sameGroup_iff.mpr ⟨hs, hxs, hid.symm⟩)
    rw [groupRecord, h.eq_of_le hr hxr hge hle]

theorem values_groupsOf (h : SortedBefore records p) :
    (groupsOf records).values = (records.filter (begins records)).map (groupAt records) := by
  have hsome : (groupsOf records).values.map some =
      (groupsOf records).keys.map fun groupId => (groupsOf records).get? groupId := by
    rw [OrderedMap.values, OrderedMap.keys, List.map_map, List.map_map]
    refine List.map_congr_left fun entry hentry => ?_
    exact (OrderedMap.mem_entries_iff.mp hentry).symm
  have hmap : (groupsOf records).keys.map (fun groupId => (groupsOf records).get? groupId) =
      ((records.filter (begins records)).map (groupAt records)).map some := by
    rw [keys_groupsOf h, List.map_map, List.map_map]
    refine List.map_congr_left fun r hr => ?_
    obtain ⟨hmem, hbegins⟩ := List.mem_filter.mp hr
    exact (get?_groupsOf records r.event.groupId).trans (h.groupRecord_eq hmem hbegins)
  exact List.map_injective_iff.mpr (Option.some_injective _) (hsome.trans hmap)

theorem orderedGroups_eq (h : SortedBefore records p) :
    orderedGroups records p = (records.filter (begins records)).map (groupAt records) := by
  have hall : (groupsOf records).values.filter (fun g => g.firstPosition < p) =
      (groupsOf records).values := by
    refine List.filter_eq_self.mpr fun g hg => ?_
    rw [values_groupsOf h] at hg
    obtain ⟨r, hr, rfl⟩ := List.mem_map.mp hg
    exact decide_eq_true (h.before r (List.mem_of_mem_filter hr))
  rw [orderedGroups, hall, values_groupsOf h]
  refine List.mergeSort_of_pairwise (List.pairwise_map.mpr ?_)
  refine (h.sorted.sublist List.filter_sublist).imp fun hle => ?_
  exact decide_eq_true (position_le_of_recordLe hle)

/-! ## Windows -/

/-- The groups from one of the records that begin a group on. -/
theorem groupsFrom_eq {pre post : List EventRecord} (h : SortedBefore records p)
    (hsplit : records.filter (begins records) = pre ++ r :: post) :
    groupsFrom records r = r :: post := by
  have hsub : (pre ++ r :: post).Sublist records := hsplit ▸ List.filter_sublist
  have hsorted := h.sorted.sublist hsub
  have hnodup : (pre ++ r :: post).Nodup := (h.orders.of_map).sublist hsub
  have hfilter : groupsFrom records r =
      (records.filter (begins records)).filter fun x => recordLe r x := by
    rw [groupsFrom, List.filter_filter]
    exact List.filter_congr fun x _ => Bool.and_comm _ _
  rw [List.pairwise_append, List.pairwise_cons] at hsorted
  have hpre : pre.filter (fun x => recordLe r x) = [] := by
    refine List.filter_eq_nil_iff.mpr fun x hx hge => ?_
    have hle := hsorted.2.2 x hx r List.mem_cons_self
    have heq := h.eq_of_le (hsub.subset (List.mem_append_left _ hx))
      (hsub.subset (List.mem_append_right pre List.mem_cons_self)) hle hge
    exact (List.nodup_append.mp hnodup).2.2 x hx r List.mem_cons_self heq
  have hpost : (r :: post).filter (fun x => recordLe r x) = r :: post := by
    refine List.filter_eq_self.mpr fun x hx => ?_
    rcases List.mem_cons.mp hx with rfl | hx
    · exact recordLe_refl x
    · exact hsorted.2.1.1 x hx
  rw [hfilter, hsplit, List.filter_append, hpre, hpost, List.nil_append]

/-- The record that begins the group of a record. -/
theorem SortedBefore.exists_begins (h : SortedBefore records p) (hr : r ∈ records)
    (hs : r.event.isSystem = false) :
    ∃ x ∈ records.filter (begins records), Records.sameGroup r x = true := by
  obtain ⟨g, hg, hid⟩ := exists_group hr hs
  rw [values_groupsOf h] at hg
  obtain ⟨x, hx, rfl⟩ := List.mem_map.mp hg
  have hsx := (begins_iff.mp (List.mem_filter.mp hx).2).1
  exact ⟨x, hx, Records.sameGroup_iff.mpr ⟨hs, hsx, hid.symm⟩⟩

/-- A record of a group is in a window exactly when its group begins there. -/
theorem isFrom_iff_of_begins {x y : EventRecord}
    (hy : y ∈ records.filter (begins records)) (hsame : Records.sameGroup x y = true) :
    isFrom records r x = true ↔ recordLe r y = true := by
  obtain ⟨hyr, hbegins⟩ := List.mem_filter.mp hy
  obtain ⟨hsy, hfirst⟩ := begins_iff.mp hbegins
  obtain ⟨hsx, -, hid⟩ := Records.sameGroup_iff.mp hsame
  rw [isFrom, hsx, if_neg Bool.false_ne_true, List.all_eq_true]
  constructor
  · intro hall
    simpa [hsame] using hall y hyr
  · intro hle z hz
    cases hzx : Records.sameGroup x z with
    | false => rfl
    | true =>
      obtain ⟨-, hsz, hidz⟩ := Records.sameGroup_iff.mp hzx
      have hyz := hfirst z hz (Records.sameGroup_iff.mpr ⟨hsy, hsz, hid.symm.trans hidz⟩)
      simpa using recordLe_trans r y z hle hyz

theorem mem_flatMap_groupAt {l : List EventRecord} {x : EventRecord} :
    x ∈ (l.map (groupAt records)).flatMap GroupRecord.records ↔
      ∃ y ∈ l, x ∈ members records y.event.groupId := by
  rw [List.mem_flatMap]
  constructor
  · rintro ⟨g, hg, hx⟩
    obtain ⟨y, hy, rfl⟩ := List.mem_map.mp hg
    exact ⟨y, hy, hx⟩
  · rintro ⟨y, hy, hx⟩
    exact ⟨_, List.mem_map_of_mem hy, hx⟩

theorem groupIds_nodup (h : SortedBefore records p) :
    ((records.filter (begins records)).map fun r => r.event.groupId).Nodup := by
  rw [← keys_groupsOf h]
  exact (groupsOf records).nodup

/-- What the loop measures and returns for the groups from a record on. -/
theorem selectedRecords_eq_windowFrom {pre post : List EventRecord} (h : SortedBefore records p)
    (hsplit : records.filter (begins records) = pre ++ r :: post) :
    selectedRecords (systems records) p r.position ((r :: post).map (groupAt records)) =
      windowFrom records r := by
  have hnodup : records.Nodup := h.orders.of_map
  have hfrom := groupsFrom_eq h hsplit
  have hids : ((r :: post).map fun x => x.event.groupId).Nodup := by
    have hall := groupIds_nodup h
    rw [hsplit, List.map_append] at hall
    exact (List.nodup_append.mp hall).2.1
  have hmem : ∀ y, y ∈ r :: post ↔ y ∈ records.filter (begins records) ∧ recordLe r y = true := by
    intro y
    rw [← hfrom, groupsFrom, List.mem_filter, List.mem_filter, Bool.and_eq_true, and_assoc]
  refine mergeSort_eq_of_perm ((List.perm_ext_iff_of_nodup ?_ (hnodup.filter _)).mpr fun x => ?_)
    (h.sorted.sublist List.filter_sublist) (h.orders.sublist (List.filter_sublist.map _))
  · refine List.nodup_append.mpr ⟨List.nodup_flatMap.mpr ⟨fun g hg => ?_, ?_⟩,
      (hnodup.filter _).filter _, ?_⟩
    · obtain ⟨y, -, rfl⟩ := List.mem_map.mp hg
      exact (hnodup.filter _).filter _
    · refine List.pairwise_map.mpr ((List.pairwise_map.mp hids).imp fun hne => ?_)
      intro x hx hx'
      exact hne ((mem_members.mp hx).2.2.symm.trans (mem_members.mp hx').2.2)
    · rintro x hx x' hx' rfl
      obtain ⟨y, -, hxy⟩ := mem_flatMap_groupAt.mp hx
      have hs := (List.mem_filter.mp (List.mem_of_mem_filter hx')).2
      rw [(mem_members.mp hxy).2.1] at hs
      cases hs
  · have hwindow : x ∈ records.filter (isFrom records r) ↔
        x ∈ records ∧ isFrom records r x = true := List.mem_filter
    rw [List.mem_append, mem_flatMap_groupAt, hwindow]
    cases hs : x.event.isSystem with
    | true =>
      have hnone : ¬ ∃ y ∈ r :: post, x ∈ members records y.event.groupId := by
        rintro ⟨y, -, hxy⟩
        rw [(mem_members.mp hxy).2.1] at hs
        cases hs
      rw [or_iff_right hnone, isFrom, hs, if_pos rfl, List.mem_filter, systems, List.mem_filter,
        hs, Bool.and_eq_true, decide_eq_true_eq, decide_eq_true_eq]
      constructor
      · rintro ⟨⟨hx, -⟩, hle, -⟩
        exact ⟨hx, hle⟩
      · rintro ⟨hx, hle⟩
        exact ⟨⟨hx, rfl⟩, hle, h.before x hx⟩
    | false =>
      have hnone : x ∉ (systems records).filter fun r' =>
          decide (r.position ≤ r'.position) && decide (r'.position < p) := by
        intro hx
        have hsx := (List.mem_filter.mp (List.mem_of_mem_filter hx)).2
        rw [hs] at hsx
        cases hsx
      rw [or_iff_left hnone]
      constructor
      · rintro ⟨y, hy, hxy⟩
        obtain ⟨hx, -, hid⟩ := mem_members.mp hxy
        obtain ⟨hyb, hle⟩ := (hmem y).mp hy
        have hsy := (begins_iff.mp (List.mem_filter.mp hyb).2).1
        exact ⟨hx, (isFrom_iff_of_begins hyb
          (Records.sameGroup_iff.mpr ⟨hs, hsy, hid⟩)).mpr hle⟩
      · rintro ⟨hx, hin⟩
        obtain ⟨y, hyb, hsame⟩ := h.exists_begins hx hs
        have hle := (isFrom_iff_of_begins hyb hsame).mp hin
        exact ⟨y, (hmem y).mpr ⟨hyb, hle⟩,
          mem_members.mpr ⟨hx, hs, (Records.sameGroup_iff.mp hsame).2.2⟩⟩

/-! ## When a window is selected -/

/-- The windows of the records before a position: from a record that begins one of the five
    newest groups on, or all of them when they are system events, and within the limit. -/
inductive IsPageWindow (records : List EventRecord) : Window → Prop
  | groups {r : EventRecord} (hr : r ∈ records) (hbegins : begins records r = true)
      (hcount : (groupsFrom records r).length ≤ 5)
      (hbytes : bytesOf (windowFrom records r) ≤ maxWindowDecodeBytes) :
      IsPageWindow records ⟨windowFrom records r, r.position⟩
  | systems (hnone : ∀ r ∈ records, r.event.isSystem = true)
      (hbytes : bytesOf records ≤ maxWindowDecodeBytes) :
      IsPageWindow records ⟨records, (records.map EventRecord.position).min?.getD 0⟩

theorem IsPageWindow.subset {window : Window} (h : IsPageWindow records window) :
    ∀ r ∈ window.records, r ∈ records := by
  cases h with
  | groups => exact fun r hr => List.mem_of_mem_filter hr
  | systems => exact fun r hr => hr

theorem IsPageWindow.bytes_le {window : Window} (h : IsPageWindow records window) :
    bytesOf window.records ≤ maxWindowDecodeBytes := by
  cases h with
  | groups _ _ _ hbytes => exact hbytes
  | systems _ hbytes => exact hbytes

/-- The newest group with the system events from its start on keeps the limit of a window;
    without a group the system events do. -/
structure NewestWithin (records : List EventRecord) : Prop where
  group : ∀ r ∈ records, begins records r = true → groupsFrom records r = [r] →
    bytesOf (windowFrom records r) ≤ maxWindowDecodeBytes
  systems : (∀ r ∈ records, r.event.isSystem = true) → bytesOf records ≤ maxWindowDecodeBytes

theorem exists_groupsFrom (h : SortedBefore records p) (hr : r ∈ records)
    (hbegins : begins records r = true) :
    ∃ pre, records.filter (begins records) = pre ++ groupsFrom records r ∧
      ∃ post, groupsFrom records r = r :: post := by
  obtain ⟨pre, post, hsplit⟩ := List.append_of_mem (List.mem_filter.mpr ⟨hr, hbegins⟩)
  rw [groupsFrom_eq h hsplit]
  exact ⟨pre, hsplit, post, rfl⟩

theorem filter_begins_eq_nil (h : SortedBefore records p) :
    records.filter (begins records) = [] ↔ ∀ r ∈ records, r.event.isSystem = true := by
  constructor
  · intro hnil r hr
    by_contra hs
    obtain ⟨x, hx, -⟩ := h.exists_begins hr (Bool.eq_false_iff.mpr hs)
    rw [hnil] at hx
    cases hx
  · intro hall
    refine List.filter_eq_nil_iff.mpr fun r hr hbegins => ?_
    have hs := (begins_iff.mp hbegins).1
    rw [hall r hr] at hs
    cases hs

theorem systemWindow_eq (h : SortedBefore records p)
    (hall : ∀ r ∈ records, r.event.isSystem = true) :
    systemWindow (systems records) p =
      if maxWindowDecodeBytes < bytesOf records then
        .error ("system history exceeds " ++ toString maxWindowDecodeBytes ++ " bytes")
      else .ok ⟨records, (records.map EventRecord.position).min?.getD 0⟩ := by
  have hsystems : systems records = records := List.filter_eq_self.mpr hall
  have hbefore : records.filter (fun r => decide (r.position < p)) = records :=
    List.filter_eq_self.mpr fun r hr => decide_eq_true (h.before r hr)
  have hsort : records.mergeSort recordLe = records := List.mergeSort_of_pairwise h.sorted
  rw [hsystems, systemWindow, hbefore]
  cases hmin : (records.map EventRecord.position).min? with
  | none =>
    rw [List.min?_eq_none_iff, List.map_eq_nil_iff] at hmin
    subst hmin
    rfl
  | some next =>
    dsimp only
    rw [hsort, Option.getD_some]

/-- The windows that the requests select. -/
theorem selectWindow_ok_iff (h : SortedBefore records p) {window : Window} :
    (∃ limit, selectWindow records p limit = .ok window) ↔ IsPageWindow records window := by
  have hordered := orderedGroups_eq h
  constructor
  · rintro ⟨limit, hok⟩
    rw [selectWindow, hordered, ← List.map_drop] at hok
    cases hdrop : (records.filter (begins records)).drop (((records.filter (begins records)).map
        (groupAt records)).length - normalizeLimit limit) with
    | nil =>
      have hnil : records.filter (begins records) = [] := by
        by_contra hne
        have hlength := congrArg List.length hdrop
        have hpos := List.length_pos_iff.mpr hne
        have hlimit := Records.normalizeLimit_pos limit
        rw [List.length_drop, List.length_map, List.length_nil] at hlength
        omega
      have hall := (filter_begins_eq_nil h).mp hnil
      rw [hdrop, List.map_nil, shrink, systemWindow_eq h hall] at hok
      split_ifs at hok with hlarge
      obtain rfl := Except.ok.inj hok
      exact .systems hall (Nat.le_of_not_lt hlarge)
    | cons x xs =>
      obtain ⟨pre, group, post, hsplit, rfl, hbytes⟩ := shrink_ok hok (by rw [hdrop]; simp)
      obtain ⟨pre', rest, hrest, -, hpost⟩ := List.map_eq_append_iff.mp hsplit
      obtain ⟨r, post', rfl, rfl, rfl⟩ := List.map_eq_cons_iff.mp hpost
      have hwhole : records.filter (begins records) =
          ((records.filter (begins records)).take
            (((records.filter (begins records)).map (groupAt records)).length -
              normalizeLimit limit) ++ pre') ++ r :: post' := by
        rw [List.append_assoc, ← hrest, List.take_append_drop]
      obtain ⟨hmem, hbegins⟩ := List.mem_filter.mp
        (hwhole ▸ List.mem_append_right _ List.mem_cons_self :
          r ∈ records.filter (begins records))
      have hselected := selectedRecords_eq_windowFrom h hwhole
      rw [List.map_cons] at hselected
      have hposition : (groupAt records r).firstPosition = r.position := rfl
      rw [hposition, hselected] at hbytes ⊢
      refine .groups hmem hbegins ?_ hbytes
      have hlimit := Records.normalizeLimit_le limit
      have hlength := congrArg List.length hrest
      rw [groupsFrom_eq h hwhole]
      rw [List.length_drop, List.length_append, List.length_map] at hlength
      omega
  · rintro (⟨hr, hbegins, hcount, hbytes⟩ | ⟨hnone, hbytes⟩)
    · rename_i r
      obtain ⟨pre, hsplit, post, hpost⟩ := exists_groupsFrom h hr hbegins
      rw [hpost] at hsplit hcount
      have hselected := selectedRecords_eq_windowFrom h hsplit
      refine ⟨some (r :: post).length, ?_⟩
      have hlimit : normalizeLimit (some (r :: post).length) = (r :: post).length := by
        simp only [normalizeLimit, List.length_cons] at hcount ⊢
        omega
      rw [selectWindow, hordered, hlimit, hsplit, List.length_map, List.length_append,
        Nat.add_sub_cancel, ← List.map_drop, List.drop_left, List.map_cons, shrink_of_le]
      · rw [← List.map_cons]
        have hposition : (groupAt records r).firstPosition = r.position := rfl
        rw [hposition, hselected]
      · rw [← List.map_cons]
        exact hselected ▸ hbytes
    · refine ⟨none, ?_⟩
      rw [selectWindow, hordered, (filter_begins_eq_nil h).mpr hnone, List.map_nil,
        List.drop_nil, shrink, systemWindow_eq h hnone, if_neg (Nat.not_lt.mpr hbytes)]

/-- A request selects a window when the newest group fits. -/
theorem selectWindow_isOk_iff_newest (h : SortedBefore records p) (limit : Option ℕ) :
    (∃ window, selectWindow records p limit = .ok window) ↔ NewestWithin records := by
  rw [selectWindow_isOk_iff, NewestFits, orderedGroups_eq h]
  rcases List.eq_nil_or_concat (records.filter (begins records)) with hnil | ⟨init, last, hlast⟩
  · have hall := (filter_begins_eq_nil h).mp hnil
    have hsystems : systems records = records := List.filter_eq_self.mpr hall
    have hbefore : records.filter (fun r => decide (r.position < p)) = records :=
      List.filter_eq_self.mpr fun r hr => decide_eq_true (h.before r hr)
    rw [hnil, List.map_nil, List.getLast?_nil, hsystems, hbefore]
    refine ⟨fun hbytes => ⟨fun r hr hbegins _ => ?_, fun _ => hbytes⟩,
      fun hfit => hfit.systems hall⟩
    have hs := (begins_iff.mp hbegins).1
    rw [hall r hr] at hs
    cases hs
  · rw [List.concat_eq_append] at hlast
    have hselected := selectedRecords_eq_windowFrom h hlast
    rw [hlast, List.map_append, List.map_singleton, List.getLast?_concat]
    rw [List.map_singleton] at hselected
    have hposition : (groupAt records last).firstPosition = last.position := rfl
    simp only [hposition, hselected]
    have hmem := List.mem_filter.mp
      (hlast ▸ List.mem_append_right _ List.mem_cons_self : last ∈ records.filter (begins records))
    constructor
    · intro hbytes
      refine ⟨fun r hr hbegins hone => ?_, fun hall => ?_⟩
      · obtain ⟨pre, hsplit, -⟩ := exists_groupsFrom h hr hbegins
        rw [hone, hlast] at hsplit
        obtain rfl := List.singleton_injective (List.append_inj_right' hsplit rfl)
        exact hbytes
      · have hs := (begins_iff.mp hmem.2).1
        rw [hall last hmem.1] at hs
        cases hs
    · intro hfit
      exact hfit.group last hmem.1 hmem.2 (groupsFrom_eq h hlast)

end Order

end RemotePi.Timeline
