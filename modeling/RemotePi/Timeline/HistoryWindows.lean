import Mathlib.Data.List.Dedup
import RemotePi.Timeline.History

/-!
# Windows of a history

The records of a frozen branch, the positions at which its groups start, and the
windows that `selectWindow` cuts out of it when its groups do not overlap.

Results:
* `mem_starts_iff`: the groups before a position start where `orderedGroups` says.
* `selectedRecords_eq_between`: in a history whose groups are apart, a selection
  of groups is everything from its start to the position.
* `selectWindow_isOk`, `selectWindow_of_isWindow`: which windows are selected.
* `selectWindow_last`: the selection of a single group, in any history.
-/

namespace RemotePi.Timeline

open RemotePi.Lib RemotePi.Protocol

/-- The records of a frozen branch, sorted as `recoverRecords` sorts them. -/
structure Records where
  all : List EventRecord
  sorted : all.Pairwise fun r r' => recordLe r r' = true
  orders : (all.map EventRecord.order).Nodup
  eventIds : (all.map fun r => r.event.eventId).Nodup
  bytes_eq : ∀ r ∈ all, r.bytes = r.event.bytes

namespace Records

variable (rs : Records)

/-! ## Positions -/

/-- The records at positions from `a` on and before `b`. -/
def between (a b : ℕ) : List EventRecord :=
  rs.all.filter fun r => a ≤ r.position && r.position < b

def before (p : ℕ) : List EventRecord := rs.between 0 p

def sameGroup (r r' : EventRecord) : Bool :=
  !r.event.isSystem && !r'.event.isSystem && r.event.groupId = r'.event.groupId

/-- No record of its group lies before the record. -/
def isFirst (r : EventRecord) : Bool :=
  sameGroup r r && rs.all.all fun r' => !sameGroup r r' || r.position ≤ r'.position

/-- The positions at which a group starts. -/
def starts : List ℕ := ((rs.all.filter rs.isFirst).map EventRecord.position).dedup

def startsIn (a b : ℕ) : List ℕ := rs.starts.filter fun c => a ≤ c && c < b

/-- A position up to which a page can end, for a history read up to `p`. -/
def IsCut (p b : ℕ) : Prop := b = p ∨ (b < p ∧ b ∈ rs.starts)

/-- The records from `a` to `b` can be the window of a page: at most five groups
    start in it, the first of them at `a`, or no group lies before `b`. -/
def IsWindow (p a b : ℕ) : Prop :=
  rs.IsCut p b ∧
    ((a ∈ rs.starts ∧ a < b ∧ (rs.startsIn a b).length ≤ 5) ∨ (a = 0 ∧ rs.startsIn 0 b = []))

/-- The groups before `p` do not overlap: no group starts where another group has
    a record, or between two records of it. -/
def Apart (p : ℕ) : Prop :=
  ∀ r ∈ rs.before p, ∀ r₁ ∈ rs.before p, ∀ r₂ ∈ rs.before p, rs.isFirst r = true →
    sameGroup r₁ r₂ = true → r₁.position ≤ r.position → r.position ≤ r₂.position →
    sameGroup r r₁ = true

variable {rs}

theorem mem_between {a b : ℕ} {r : EventRecord} :
    r ∈ rs.between a b ↔ r ∈ rs.all ∧ a ≤ r.position ∧ r.position < b := by
  simp [between]

theorem mem_before {p : ℕ} {r : EventRecord} :
    r ∈ rs.before p ↔ r ∈ rs.all ∧ r.position < p := by
  simp [before, mem_between]

theorem sameGroup_iff {r r' : EventRecord} :
    sameGroup r r' = true ↔ r.event.isSystem = false ∧ r'.event.isSystem = false ∧
      r.event.groupId = r'.event.groupId := by
  simp [sameGroup, and_assoc]

theorem isFirst_iff {r : EventRecord} :
    rs.isFirst r = true ↔ r.event.isSystem = false ∧
      ∀ r' ∈ rs.all, sameGroup r r' = true → r.position ≤ r'.position := by
  rw [isFirst, Bool.and_eq_true, List.all_eq_true, sameGroup_iff]
  refine and_congr (by simp) (forall₂_congr fun r' _ => ?_)
  cases sameGroup r r' <;> simp

theorem mem_starts {a : ℕ} :
    a ∈ rs.starts ↔ ∃ r ∈ rs.all, rs.isFirst r = true ∧ r.position = a := by
  simp [starts, and_assoc]

theorem nodup_starts : rs.starts.Nodup := List.nodup_dedup _

theorem mem_startsIn {a b c : ℕ} : c ∈ rs.startsIn a b ↔ c ∈ rs.starts ∧ a ≤ c ∧ c < b := by
  simp [startsIn]

theorem nodup_all : rs.all.Nodup := List.Nodup.of_map _ rs.orders

theorem sorted_between (a b : ℕ) :
    (rs.between a b).Pairwise fun r r' => recordLe r r' = true :=
  rs.sorted.sublist List.filter_sublist

theorem nodup_between (a b : ℕ) : (rs.between a b).Nodup := nodup_all.sublist List.filter_sublist

theorem orders_between (a b : ℕ) : ((rs.between a b).map EventRecord.order).Nodup :=
  rs.orders.sublist (List.filter_sublist.map _)

/-- A permutation of the records of an interval sorts to them. -/
theorem mergeSort_eq_between {l : List EventRecord} {a b : ℕ} (h : l.Perm (rs.between a b)) :
    l.mergeSort recordLe = rs.between a b :=
  mergeSort_eq_of_perm h (sorted_between a b) (orders_between a b)

theorem before_append_between (rs : Records) {a b : ℕ} (h : a ≤ b) :
    (rs.before a ++ rs.between a b).Perm (rs.before b) := by
  refine (List.perm_ext_iff_of_nodup ?_ (nodup_between 0 b)).mpr fun r => ?_
  · refine List.nodup_append.mpr ⟨nodup_between 0 a, nodup_between a b, ?_⟩
    rintro r hr r' hr' rfl
    have h1 := (mem_before.mp hr).2
    have h2 := (mem_between.mp hr').2.1
    omega
  · rw [List.mem_append, mem_before, mem_between, show rs.between 0 b = rs.before b from rfl,
      mem_before]
    constructor
    · rintro (⟨h1, h2⟩ | ⟨h1, -, h2⟩)
      · exact ⟨h1, by omega⟩
      · exact ⟨h1, h2⟩
    · rintro ⟨h1, h2⟩
      by_cases hr : r.position < a
      · exact .inl ⟨h1, hr⟩
      · exact .inr ⟨h1, by omega, h2⟩

/-! ## Groups before a position -/

section Groups

variable {p : ℕ} {g : GroupRecord}

/-- The groups among which a window before `p` is selected. -/
def groupsBefore (rs : Records) (p : ℕ) : List GroupRecord := orderedGroups (rs.before p) p

/-- The group of a record before `p`. -/
theorem exists_groupsBefore {r : EventRecord} (hr : r ∈ rs.before p)
    (hs : r.event.isSystem = false) :
    ∃ g ∈ rs.groupsBefore p, g.groupId = r.event.groupId ∧ r ∈ g.records := by
  obtain ⟨g, hg, hid⟩ := exists_group hr hs
  have hgroup := isGroup_of_mem hg
  have hmem : r ∈ g.records := by
    rw [hgroup.records_eq]
    exact mem_members.mpr ⟨hr, hs, hid.symm⟩
  refine ⟨g, mem_orderedGroups.mpr ⟨hg, ?_⟩, hid, hmem⟩
  have hhead := hgroup.head
  cases hrec : g.records with
  | nil => rw [hrec] at hmem; cases hmem
  | cons r₀ rest =>
    have hr₀ : r₀ ∈ members (rs.before p) g.groupId := by
      rw [← hgroup.records_eq, hrec]
      exact List.mem_cons_self
    rw [hrec, List.head?_cons, Option.map_some, Option.some.injEq] at hhead
    rw [← hhead]
    exact (mem_before.mp (mem_members.mp hr₀).1).2

theorem mem_records_iff (hg : g ∈ rs.groupsBefore p) {r : EventRecord} :
    r ∈ g.records ↔ r ∈ rs.before p ∧ r.event.isSystem = false ∧
      r.event.groupId = g.groupId := by
  rw [(isGroup_of_mem (mem_orderedGroups.mp hg).1).records_eq, mem_members]

/-- The first record of a group. -/
theorem exists_head (hg : g ∈ rs.groupsBefore p) :
    ∃ r ∈ g.records, r.position = g.firstPosition ∧ ∀ r' ∈ g.records, r.position ≤ r'.position := by
  have hgroup := isGroup_of_mem (mem_orderedGroups.mp hg).1
  have hhead := hgroup.head
  have hsorted : g.records.Pairwise fun r r' => recordLe r r' = true := by
    rw [hgroup.records_eq]
    exact (sorted_between 0 p).sublist (List.filter_sublist.trans List.filter_sublist)
  cases hrec : g.records with
  | nil => rw [hrec] at hhead; cases hhead
  | cons r rest =>
    rw [hrec, List.head?_cons, Option.map_some, Option.some.injEq] at hhead
    rw [hrec, List.pairwise_cons] at hsorted
    refine ⟨r, List.mem_cons_self, hhead, fun r' hr' => ?_⟩
    rcases List.mem_cons.mp hr' with rfl | hr'
    · exact le_rfl
    · exact position_le_of_recordLe (hsorted.1 r' hr')

theorem firstPosition_le (hg : g ∈ rs.groupsBefore p) {r : EventRecord} (hr : r ∈ g.records) :
    g.firstPosition ≤ r.position := by
  obtain ⟨r₀, -, heq, hmin⟩ := exists_head hg
  exact heq ▸ hmin r hr

/-- The first record of a group before `p` is the first of the whole history. -/
theorem exists_isFirst (hg : g ∈ rs.groupsBefore p) :
    ∃ r ∈ g.records, r.position = g.firstPosition ∧ rs.isFirst r = true := by
  obtain ⟨r, hr, heq, hmin⟩ := exists_head hg
  obtain ⟨hb, hs, hid⟩ := (mem_records_iff hg).mp hr
  refine ⟨r, hr, heq, isFirst_iff.mpr ⟨hs, fun r' hr' hsame => ?_⟩⟩
  obtain ⟨-, hs', hid'⟩ := sameGroup_iff.mp hsame
  by_cases hp : r'.position < p
  · exact hmin r' ((mem_records_iff hg).mpr ⟨mem_before.mpr ⟨hr', hp⟩, hs', hid' ▸ hid⟩)
  · have := (mem_before.mp hb).2
    omega

theorem mem_starts_iff {a : ℕ} :
    (a ∈ rs.starts ∧ a < p) ↔ ∃ g ∈ rs.groupsBefore p, g.firstPosition = a := by
  constructor
  · rintro ⟨ha, hlt⟩
    obtain ⟨r, hr, hfirst, rfl⟩ := mem_starts.mp ha
    obtain ⟨hs, hmin⟩ := isFirst_iff.mp hfirst
    obtain ⟨g, hg, hid, hmem⟩ := exists_groupsBefore (mem_before.mpr ⟨hr, hlt⟩) hs
    refine ⟨g, hg, le_antisymm (firstPosition_le hg hmem) ?_⟩
    obtain ⟨r₀, hr₀, heq, -⟩ := exists_head hg
    obtain ⟨hb, hs₀, hid₀⟩ := (mem_records_iff hg).mp hr₀
    rw [← heq]
    exact hmin r₀ (mem_before.mp hb).1 (sameGroup_iff.mpr ⟨hs, hs₀, by rw [hid₀, hid]⟩)
  · rintro ⟨g, hg, rfl⟩
    obtain ⟨r, hr, heq, hfirst⟩ := exists_isFirst hg
    have hb := (mem_before.mp ((mem_records_iff hg).mp hr).1)
    exact ⟨mem_starts.mpr ⟨r, hb.1, hfirst, heq⟩, heq ▸ hb.2⟩

theorem startsIn_zero_eq_nil : rs.startsIn 0 p = [] ↔ rs.groupsBefore p = [] := by
  rw [List.eq_nil_iff_forall_not_mem, List.eq_nil_iff_forall_not_mem]
  constructor
  · intro h g hg
    obtain ⟨h1, h2⟩ := mem_starts_iff.mpr ⟨g, hg, rfl⟩
    exact h _ (mem_startsIn.mpr ⟨h1, Nat.zero_le _, h2⟩)
  · intro h c hc
    obtain ⟨h1, -, h2⟩ := mem_startsIn.mp hc
    obtain ⟨g, hg, -⟩ := mem_starts_iff.mp ⟨h1, h2⟩
    exact h g hg

theorem groupsBefore_pairwise {pre post : List GroupRecord}
    (h : rs.groupsBefore p = pre ++ g :: post) :
    (∀ g' ∈ pre, g'.firstPosition ≤ g.firstPosition) ∧
      ∀ g' ∈ post, g.firstPosition ≤ g'.firstPosition := by
  have hp := pairwise_orderedGroups (rs.before p) p
  rw [show orderedGroups (rs.before p) p = pre ++ g :: post from h, List.pairwise_append,
    List.pairwise_cons] at hp
  exact ⟨fun g' hg' => hp.2.2 g' hg' g List.mem_cons_self, hp.2.1.1⟩

/-! ## Selections of groups -/

/-- The records of a selection, before they are sorted. -/
def selection (rs : Records) (p firstPosition : ℕ) (selected : List GroupRecord) :
    List EventRecord :=
  selected.flatMap GroupRecord.records ++
    (systems (rs.before p)).filter fun r => firstPosition ≤ r.position && r.position < p

theorem mem_selection {firstPosition : ℕ} {selected : List GroupRecord} {r : EventRecord} :
    r ∈ rs.selection p firstPosition selected ↔
      (∃ g ∈ selected, r ∈ g.records) ∨
        (r ∈ rs.before p ∧ r.event.isSystem = true ∧ firstPosition ≤ r.position) := by
  simp only [selection, systems, List.mem_append, List.mem_flatMap, List.mem_filter,
    Bool.and_eq_true, decide_eq_true_eq]
  refine or_congr Iff.rfl ⟨?_, ?_⟩
  · rintro ⟨⟨h1, h2⟩, h3, -⟩
    exact ⟨h1, h2, h3⟩
  · rintro ⟨h1, h2, h3⟩
    exact ⟨⟨h1, h2⟩, h3, (mem_before.mp h1).2⟩

theorem nodup_selection {firstPosition : ℕ} {selected : List GroupRecord}
    (hsub : selected.Sublist (rs.groupsBefore p)) :
    (rs.selection p firstPosition selected).Nodup := by
  have hids : (selected.map GroupRecord.groupId).Nodup :=
    (nodup_orderedGroups _ _).sublist (hsub.map _)
  refine List.nodup_append.mpr ⟨List.nodup_flatMap.mpr ⟨fun g hg => ?_, ?_⟩, ?_, ?_⟩
  · rw [(isGroup_of_mem (mem_orderedGroups.mp (hsub.subset hg)).1).records_eq]
    exact (nodup_between 0 p).sublist (List.filter_sublist.trans List.filter_sublist)
  · refine (List.pairwise_map.mp hids).imp_of_mem fun hg hg' hne => ?_
    intro r hr hr'
    have h1 := ((mem_records_iff (hsub.subset hg)).mp hr).2.2
    have h2 := ((mem_records_iff (hsub.subset hg')).mp hr').2.2
    exact hne (h1.symm.trans h2)
  · exact (nodup_between 0 p).sublist (List.filter_sublist.trans List.filter_sublist)
  · rintro r hr r' hr' rfl
    obtain ⟨g, hg, hrg⟩ := List.mem_flatMap.mp hr
    have h1 := ((mem_records_iff (hsub.subset hg)).mp hrg).2.1
    have h2 := (List.mem_filter.mp (List.mem_of_mem_filter hr')).2
    rw [h1] at h2
    cases h2

/-- In a history whose groups are apart, a selection is everything from its start. -/
theorem selectedRecords_eq_between {pre post : List GroupRecord} (happ : rs.Apart p)
    (h : rs.groupsBefore p = pre ++ g :: post) :
    selectedRecords (systems (rs.before p)) p g.firstPosition (g :: post) =
      rs.between g.firstPosition p := by
  have hsub : (g :: post).Sublist (rs.groupsBefore p) := h ▸ List.sublist_append_right _ _
  have hg : g ∈ rs.groupsBefore p := hsub.subset List.mem_cons_self
  obtain ⟨hpre, hpost⟩ := groupsBefore_pairwise h
  refine mergeSort_eq_between
    ((List.perm_ext_iff_of_nodup (nodup_selection hsub) (nodup_between _ _)).mpr fun r => ?_)
  rw [mem_selection, mem_between]
  constructor
  · rintro (⟨g', hg', hr⟩ | ⟨hb, -, hle⟩)
    · have hb := mem_before.mp ((mem_records_iff (hsub.subset hg')).mp hr).1
      refine ⟨hb.1, le_trans ?_ (firstPosition_le (hsub.subset hg') hr), hb.2⟩
      rcases List.mem_cons.mp hg' with rfl | hg'
      · exact le_rfl
      · exact hpost g' hg'
    · exact ⟨(mem_before.mp hb).1, hle, (mem_before.mp hb).2⟩
  · rintro ⟨hall, hle, hlt⟩
    have hb := mem_before.mpr ⟨hall, hlt⟩
    cases hs : r.event.isSystem with
    | true => exact .inr ⟨hb, rfl, hle⟩
    | false =>
      refine .inl ?_
      obtain ⟨g', hg', -, hr⟩ := exists_groupsBefore hb hs
      rw [h] at hg'
      rcases List.mem_append.mp hg' with hg' | hg'
      · -- an older group that reaches into the selection would not be apart from `g`
        have hg'' : g' ∈ rs.groupsBefore p := h ▸ List.mem_append_left _ hg'
        obtain ⟨r₁, hr₁, heq₁, -⟩ := exists_head hg''
        obtain ⟨r₀, hr₀, heq₀, hfirst⟩ := exists_isFirst hg
        have h₀ := (mem_records_iff hg).mp hr₀
        have h₁ := (mem_records_iff hg'').mp hr₁
        have h₂ := (mem_records_iff hg'').mp hr
        have hsame := happ r₀ h₀.1 r₁ h₁.1 r hb hfirst
          (sameGroup_iff.mpr ⟨h₁.2.1, hs, h₁.2.2.trans h₂.2.2.symm⟩)
          (by rw [heq₁, heq₀]; exact hpre g' hg') (by omega)
        have hid := (sameGroup_iff.mp hsame).2.2
        refine ⟨g, List.mem_cons_self, (mem_records_iff hg).mpr ⟨hb, hs, ?_⟩⟩
        rw [h₂.2.2, ← h₁.2.2, ← hid, h₀.2.2]
      · exact ⟨g', hg', hr⟩

theorem length_startsIn {pre post : List GroupRecord} (happ : rs.Apart p)
    (h : rs.groupsBefore p = pre ++ g :: post) :
    (rs.startsIn g.firstPosition p).length = (g :: post).length := by
  have hsub : (g :: post).Sublist (rs.groupsBefore p) := h ▸ List.sublist_append_right _ _
  obtain ⟨hpre, hpost⟩ := groupsBefore_pairwise h
  have hids : ((g :: post).map GroupRecord.groupId).Nodup :=
    (nodup_orderedGroups _ _).sublist (hsub.map _)
  have hnodup : ((g :: post).map GroupRecord.firstPosition).Nodup := by
    refine List.pairwise_map.mpr ((List.pairwise_map.mp hids).imp_of_mem ?_)
    intro g₁ g₂ h₁ h₂ hne heq
    obtain ⟨r₁, hr₁, heq₁, hfirst⟩ := exists_isFirst (hsub.subset h₁)
    obtain ⟨r₂, hr₂, heq₂, -⟩ := exists_head (hsub.subset h₂)
    obtain ⟨hb₁, -, hid₁⟩ := (mem_records_iff (hsub.subset h₁)).mp hr₁
    obtain ⟨hb₂, hs₂, hid₂⟩ := (mem_records_iff (hsub.subset h₂)).mp hr₂
    have hsame := happ r₁ hb₁ r₂ hb₂ r₂ hb₂ hfirst (sameGroup_iff.mpr ⟨hs₂, hs₂, rfl⟩)
      (by omega) (by omega)
    exact hne (hid₁.symm.trans ((sameGroup_iff.mp hsame).2.2.trans hid₂))
  have hperm : (rs.startsIn g.firstPosition p).Perm ((g :: post).map GroupRecord.firstPosition) := by
    refine (List.perm_ext_iff_of_nodup (nodup_starts.sublist List.filter_sublist)
      hnodup).mpr fun c => ?_
    change c ∈ rs.startsIn g.firstPosition p ↔ _
    rw [mem_startsIn, List.mem_map]
    constructor
    · rintro ⟨hc, hle, hlt⟩
      obtain ⟨g', hg', rfl⟩ := mem_starts_iff.mp ⟨hc, hlt⟩
      rw [h] at hg'
      rcases List.mem_append.mp hg' with hg' | hg'
      · exact ⟨g, List.mem_cons_self, le_antisymm hle (hpre g' hg')⟩
      · exact ⟨g', hg', rfl⟩
    · rintro ⟨g', hg', rfl⟩
      obtain ⟨hc, hlt⟩ := mem_starts_iff.mpr ⟨g', hsub.subset hg', rfl⟩
      refine ⟨hc, ?_, hlt⟩
      rcases List.mem_cons.mp hg' with rfl | hg'
      · exact le_rfl
      · exact hpost g' hg'
  rw [hperm.length_eq, List.length_map]

/-! ## Selected windows -/

/-- Where the next page ends: at the start of the selection, or nowhere. -/
def Next (rs : Records) (p a next : ℕ) : Prop :=
  (next = a ∧ a ∈ rs.starts ∧ a < p) ∨
    (a = 0 ∧ rs.startsIn 0 p = [] ∧ ∀ r ∈ rs.before p, next ≤ r.position)

theorem before_zero : rs.before 0 = [] := by
  refine List.eq_nil_iff_forall_not_mem.mpr fun _ hr => ?_
  exact Nat.not_lt_zero _ (mem_before.mp hr).2

theorem hasOlder_eq {a next : ℕ} (h : rs.Next p a next) :
    (rs.before p).any (fun r => r.position < next) = !(rs.before a).isEmpty := by
  rw [Bool.eq_iff_iff, List.any_eq_true, Bool.not_eq_true', List.isEmpty_eq_false_iff_exists_mem]
  rcases h with ⟨rfl, -, hlt⟩ | ⟨rfl, -, hle⟩
  · constructor
    · rintro ⟨r, hr, hp⟩
      exact ⟨r, mem_before.mpr ⟨(mem_before.mp hr).1, by simpa using hp⟩⟩
    · rintro ⟨r, hr⟩
      obtain ⟨h1, h2⟩ := mem_before.mp hr
      exact ⟨r, mem_before.mpr ⟨h1, by omega⟩, by simpa using h2⟩
  · rw [before_zero]
    constructor
    · rintro ⟨r, hr, hp⟩
      have := hle r hr
      have := of_decide_eq_true hp
      omega
    · rintro ⟨r, hr⟩
      cases hr

/-- Without groups the history is its system events. -/
theorem systems_before (h : rs.groupsBefore p = []) : systems (rs.before p) = rs.before p := by
  refine List.filter_eq_self.mpr fun r hr => ?_
  by_contra hs
  obtain ⟨g, hg, -⟩ := exists_groupsBefore hr (by simpa using hs)
  rw [h] at hg
  cases hg

theorem filter_before : (rs.before p).filter (fun r => decide (r.position < p)) = rs.before p :=
  List.filter_eq_self.mpr fun _ hr => decide_eq_true (mem_before.mp hr).2

theorem systemWindow_isOk (h : rs.groupsBefore p = [])
    (hbytes : bytesOf (rs.before p) ≤ maxWindowDecodeBytes) :
    ∃ next, systemWindow (systems (rs.before p)) p = .ok ⟨rs.before p, next⟩ ∧
      ∀ r ∈ rs.before p, next ≤ r.position := by
  rw [systems_before h, systemWindow, filter_before]
  cases hmin : ((rs.before p).map EventRecord.position).min? with
  | none =>
    rw [List.min?_eq_none_iff, List.map_eq_nil_iff] at hmin
    exact ⟨0, by rw [hmin], by simp⟩
  | some next =>
    refine ⟨next, ?_, fun r hr => ?_⟩
    · simp only [if_neg (Nat.not_lt.mpr hbytes)]
      rw [show rs.before p = rs.between 0 p from rfl, mergeSort_eq_between (List.Perm.refl _)]
    · exact (List.min?_eq_some_iff.mp hmin).2 _ (List.mem_map_of_mem hr)

theorem systemWindow_ok {window : Window} (h : rs.groupsBefore p = [])
    (hw : systemWindow (systems (rs.before p)) p = .ok window) :
    window.records = rs.before p ∧ bytesOf (rs.before p) ≤ maxWindowDecodeBytes := by
  rw [systems_before h, systemWindow, filter_before] at hw
  cases hmin : ((rs.before p).map EventRecord.position).min? with
  | none =>
    rw [hmin] at hw
    rw [List.min?_eq_none_iff, List.map_eq_nil_iff] at hmin
    cases hw
    rw [hmin]
    exact ⟨rfl, Nat.zero_le _⟩
  | some next =>
    rw [hmin] at hw
    simp only at hw
    split_ifs at hw with hlt
    cases hw
    exact ⟨mergeSort_eq_between (List.Perm.refl _), Nat.not_lt.mp hlt⟩

theorem isWindow_of_group {pre post : List GroupRecord} (happ : rs.Apart p)
    (h : rs.groupsBefore p = pre ++ g :: post) (hlen : (g :: post).length ≤ 5) :
    rs.IsWindow p g.firstPosition p ∧ rs.Next p g.firstPosition g.firstPosition := by
  have hg : g ∈ rs.groupsBefore p := by simp [h]
  obtain ⟨h1, h2⟩ := mem_starts_iff.mpr ⟨g, hg, rfl⟩
  exact ⟨⟨.inl rfl, .inl ⟨h1, h2, by rw [length_startsIn happ h]; exact hlen⟩⟩,
    .inl ⟨rfl, h1, h2⟩⟩

theorem isWindow_of_nil (h : rs.groupsBefore p = []) : rs.IsWindow p 0 p :=
  ⟨.inl rfl, .inr ⟨rfl, startsIn_zero_eq_nil.mpr h⟩⟩

theorem normalizeLimit_pos (limit : Option ℕ) : 1 ≤ normalizeLimit limit := by
  cases limit <;> simp [normalizeLimit]

theorem normalizeLimit_le (limit : Option ℕ) : normalizeLimit limit ≤ 5 := by
  cases limit <;> simp [normalizeLimit]

theorem selectWindow_eq (limit : Option ℕ) :
    selectWindow (rs.before p) p limit = shrink (systems (rs.before p)) p
      ((rs.groupsBefore p).drop ((rs.groupsBefore p).length - normalizeLimit limit)) := rfl

/-- Where the groups are apart and each fits, every request selects a window. -/
theorem selectWindow_isOk (happ : rs.Apart p)
    (hfits : ∀ a, rs.IsWindow p a p → (rs.startsIn a p).length ≤ 1 →
      bytesOf (rs.between a p) ≤ maxWindowDecodeBytes) (limit : Option ℕ) :
    ∃ a next, selectWindow (rs.before p) p limit = .ok ⟨rs.between a p, next⟩ ∧
      rs.IsWindow p a p ∧ bytesOf (rs.between a p) ≤ maxWindowDecodeBytes ∧ rs.Next p a next := by
  rw [selectWindow_eq]
  have hpos := normalizeLimit_pos limit
  have hmax := normalizeLimit_le limit
  rcases List.eq_nil_or_concat (rs.groupsBefore p) with hnil | ⟨init, last, hlast⟩
  · have hwindow := isWindow_of_nil hnil
    have hbytes := hfits 0 hwindow (by rw [startsIn_zero_eq_nil.mpr hnil]; simp)
    obtain ⟨next, hw, hle⟩ := systemWindow_isOk hnil hbytes
    refine ⟨0, next, ?_, hwindow, hbytes, .inr ⟨rfl, startsIn_zero_eq_nil.mpr hnil, hle⟩⟩
    rw [hnil, List.drop_nil]
    exact hw
  · rw [List.concat_eq_append] at hlast
    -- the last group is accepted alone, so the loop stops at the latest there
    have hone : bytesOf (selectedRecords (systems (rs.before p)) p last.firstPosition [last]) ≤
        maxWindowDecodeBytes := by
      rw [selectedRecords_eq_between happ hlast]
      refine hfits _ (isWindow_of_group happ hlast (by simp)).1 ?_
      rw [length_startsIn happ hlast]
      simp
    obtain ⟨keep, hkeep⟩ : ∃ keep, (rs.groupsBefore p).drop
        ((rs.groupsBefore p).length - normalizeLimit limit) = keep ++ [last] := by
      rw [hlast]
      exact ⟨_, List.drop_append_of_le_length (by simp; omega)⟩
    obtain ⟨window, hw⟩ := shrink_isOk keep hone
    obtain ⟨pre, group, post, hsplit, rfl, hbytes⟩ := shrink_ok hw (by simp)
    have hsplit' : rs.groupsBefore p = (rs.groupsBefore p).take
        ((rs.groupsBefore p).length - normalizeLimit limit) ++ pre ++ group :: post := by
      rw [List.append_assoc, ← hsplit, ← hkeep, List.take_append_drop]
    have hlen : (group :: post).length ≤ 5 := by
      have h1 := congrArg List.length hkeep
      have h2 := congrArg List.length hsplit
      rw [List.length_drop] at h1
      rw [List.length_append, List.length_append] at h2
      rw [List.length_append] at h1
      omega
    obtain ⟨hwindow, hnext⟩ := isWindow_of_group happ hsplit' hlen
    have heq := selectedRecords_eq_between happ hsplit'
    simp only [heq] at hbytes hw
    exact ⟨group.firstPosition, group.firstPosition, by rw [hkeep, hw], hwindow, hbytes, hnext⟩

/-- Every window up to `p` that keeps the limit is selected by some request. -/
theorem selectWindow_of_isWindow {a : ℕ} (happ : rs.Apart p) (hwindow : rs.IsWindow p a p)
    (hbytes : bytesOf (rs.between a p) ≤ maxWindowDecodeBytes) :
    ∃ limit next, selectWindow (rs.before p) p limit = .ok ⟨rs.between a p, next⟩ ∧
      rs.Next p a next := by
  rcases hwindow.2 with ⟨ha, hlt, hlen⟩ | ⟨rfl, hnil⟩
  · obtain ⟨g, hg, rfl⟩ := mem_starts_iff.mp ⟨ha, hlt⟩
    obtain ⟨pre, post, hsplit⟩ := List.append_of_mem hg
    have hcount := length_startsIn happ hsplit
    have heq := selectedRecords_eq_between happ hsplit
    rw [hcount] at hlen
    refine ⟨some (g :: post).length, g.firstPosition, ?_, (isWindow_of_group happ hsplit hlen).2⟩
    have hlimit : normalizeLimit (some (g :: post).length) = (g :: post).length := by
      simp only [normalizeLimit, List.length_cons] at hlen ⊢
      omega
    rw [selectWindow_eq, hlimit, hsplit, List.length_append, Nat.add_sub_cancel,
      List.drop_left, shrink_of_le (by rw [heq]; exact hbytes), heq]
  · have hgroups := startsIn_zero_eq_nil.mp hnil
    obtain ⟨next, hw, hle⟩ := systemWindow_isOk hgroups hbytes
    refine ⟨none, next, ?_, .inr ⟨rfl, hnil, hle⟩⟩
    rw [selectWindow_eq, hgroups, List.drop_nil]
    exact hw

/-- A window holds records before the position only, and ends before it. -/
theorem selectWindow_subset {limit : Option ℕ} {window : Window}
    (h : selectWindow (rs.before p) p limit = .ok window) :
    (∀ r ∈ window.records, r ∈ rs.before p) ∧ window.nextPosition ≤ p := by
  rw [selectWindow_eq] at h
  by_cases hnil : (rs.groupsBefore p).drop
      ((rs.groupsBefore p).length - normalizeLimit limit) = []
  · rw [hnil, shrink, systemWindow] at h
    split at h
    · cases h
      exact ⟨by simp, Nat.zero_le _⟩
    · rename_i next hmin
      split_ifs at h
      cases h
      constructor
      · intro r hr
        exact List.mem_of_mem_filter (List.mem_of_mem_filter (List.mem_mergeSort.mp hr))
      · obtain ⟨r, hr, rfl⟩ := List.mem_map.mp (List.min?_eq_some_iff.mp hmin).1
        exact (of_decide_eq_true (List.mem_filter.mp hr).2).le
  · obtain ⟨pre, group, post, hsplit, rfl, -⟩ := shrink_ok h hnil
    have hmem : ∀ g' ∈ group :: post, g' ∈ rs.groupsBefore p := fun g' hg' =>
      List.mem_of_mem_drop (hsplit ▸ List.mem_append_right pre hg')
    constructor
    · intro r hr
      have hr' : r ∈ rs.selection p group.firstPosition (group :: post) := List.mem_mergeSort.mp hr
      rcases mem_selection.mp hr' with ⟨g', hg', hr'⟩ | ⟨hr', -⟩
      · exact ((mem_records_iff (hmem g' hg')).mp hr').1
      · exact hr'
    · exact (mem_starts_iff.mpr ⟨group, hmem group List.mem_cons_self, rfl⟩).2.le

/-- What a request for one group selects, in any history. -/
theorem selectWindow_last {window : Window}
    (h : selectWindow (rs.before p) p (some 1) = .ok window) :
    (∃ pre g, rs.groupsBefore p = pre ++ [g] ∧
        window = ⟨(rs.selection p g.firstPosition [g]).mergeSort recordLe, g.firstPosition⟩ ∧
        bytesOf window.records ≤ maxWindowDecodeBytes) ∨
      (rs.groupsBefore p = [] ∧ window.records = rs.before p ∧
        bytesOf (rs.before p) ≤ maxWindowDecodeBytes) := by
  rw [selectWindow_eq] at h
  rcases List.eq_nil_or_concat (rs.groupsBefore p) with hnil | ⟨init, last, hlast⟩
  · rw [hnil, List.drop_nil] at h
    exact .inr ⟨hnil, systemWindow_ok hnil h⟩
  · rw [List.concat_eq_append] at hlast
    have hlimit : normalizeLimit (some 1) = 1 := rfl
    rw [hlast, hlimit, List.length_append, List.length_singleton, Nat.add_sub_cancel,
      List.drop_left] at h
    obtain ⟨pre, group, post, hsplit, rfl, hbytes⟩ := shrink_ok h (by simp)
    have hone : pre = [] ∧ group = last ∧ post = [] := by
      cases pre with
      | nil =>
        cases hsplit
        exact ⟨rfl, rfl, rfl⟩
      | cons g pre =>
        have := congrArg List.length hsplit
        simp at this
    obtain ⟨rfl, rfl, rfl⟩ := hone
    exact .inl ⟨init, group, hlast, rfl, hbytes⟩

end Groups

end Records

end RemotePi.Timeline
