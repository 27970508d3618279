import Mathlib.Data.Finset.Card
import Mathlib.Data.Finset.Dedup
import Mathlib.Data.Finset.Filter
import Mathlib.Data.List.Basic
import Mathlib.Order.Defs.LinearOrder

/-!
# The highest groups of a collection

Elements with a group and a key, and the `n` groups whose highest keys are the highest ones. Only
which elements are there matters, not their order.

Results:
* `exists_recent_above`: above a key that is too low there are `n` of the highest groups.
* `recent_iff_of_dominates`: elements that have a highest one of each of these groups have the
  same highest groups as the whole collection.
* `Dominates.append`, `Dominates.restrict`: this is kept when elements come and when the
  elements of other groups go.
-/

namespace RemotePi.Lib

variable {α γ κ : Type*} [DecidableEq γ] [LinearOrder κ] (group : α → γ) (key : α → κ)

/-- The groups that have an element above a key. -/
def groupsAbove (all : List α) (k : κ) : Finset γ :=
  ((all.filter fun a => k < key a).map group).toFinset

/-- Fewer than `n` groups have an element above some element of the group. -/
def Recent (n : ℕ) (all : List α) (g : γ) : Prop :=
  ∃ a ∈ all, group a = g ∧ (groupsAbove group key all (key a)).card < n

instance (n : ℕ) (all : List α) (g : γ) : Decidable (Recent group key n all g) :=
  inferInstanceAs (Decidable (∃ a ∈ all, _))

/-- Of each of the highest groups, `kept` has an element as high as those that make it one. -/
def Dominates (n : ℕ) (kept all : List α) : Prop :=
  ∀ a ∈ all, (groupsAbove group key all (key a)).card < n →
    ∃ b ∈ kept, group b = group a ∧ key a ≤ key b

variable {group key} {n : ℕ} {all kept : List α}

theorem mem_groupsAbove {k : κ} {g : γ} :
    g ∈ groupsAbove group key all k ↔ ∃ a ∈ all, group a = g ∧ k < key a := by
  simp only [groupsAbove, List.mem_toFinset, List.mem_map, List.mem_filter, decide_eq_true_eq]
  constructor
  · rintro ⟨a, ⟨ha, hlt⟩, hg⟩
    exact ⟨a, ha, hg, hlt⟩
  · rintro ⟨a, ha, hg, hlt⟩
    exact ⟨a, ⟨ha, hlt⟩, hg⟩

/-- More elements and a lower key have more groups above. -/
theorem groupsAbove_subset {all' : List α} (hsub : all ⊆ all') {k k' : κ} (hle : k' ≤ k) :
    groupsAbove group key all k ⊆ groupsAbove group key all' k' := by
  intro g hg
  obtain ⟨a, ha, hgroup, hlt⟩ := mem_groupsAbove.mp hg
  exact mem_groupsAbove.mpr ⟨a, hsub ha, hgroup, lt_of_le_of_lt hle hlt⟩

theorem card_groupsAbove_le {all' : List α} (hsub : all ⊆ all') {k k' : κ} (hle : k' ≤ k) :
    (groupsAbove group key all k).card ≤ (groupsAbove group key all' k').card :=
  Finset.card_le_card (groupsAbove_subset hsub hle)

/-- The groups that have one of the highest elements above a key. -/
def recentAbove (group : α → γ) (key : α → κ) (n : ℕ) (all : List α) (k : κ) : Finset γ :=
  ((all.filter fun a => k < key a ∧ (groupsAbove group key all (key a)).card < n).map
    group).toFinset

theorem mem_recentAbove {k : κ} {g : γ} :
    g ∈ recentAbove group key n all k ↔
      ∃ a ∈ all, group a = g ∧ k < key a ∧ (groupsAbove group key all (key a)).card < n := by
  simp only [recentAbove, List.mem_toFinset, List.mem_map, List.mem_filter, decide_eq_true_eq]
  constructor
  · rintro ⟨a, ⟨ha, hlt, hcard⟩, hg⟩
    exact ⟨a, ha, hg, hlt, hcard⟩
  · rintro ⟨a, ha, hg, hlt, hcard⟩
    exact ⟨a, ⟨ha, hlt, hcard⟩, hg⟩

/-- Of some elements there is one with the highest key. -/
theorem exists_maximal {p : α → Prop} (h : ∃ a ∈ all, p a) :
    ∃ a ∈ all, p a ∧ ∀ b ∈ all, p b → key b ≤ key a := by
  induction all with
  | nil =>
    obtain ⟨a, ha, -⟩ := h
    cases ha
  | cons c rest ih =>
    by_cases hrest : ∃ a ∈ rest, p a
    · obtain ⟨a, ha, hpa, hmax⟩ := ih hrest
      by_cases hc : p c ∧ key a < key c
      · refine ⟨c, List.mem_cons_self, hc.1, fun b hb hpb => ?_⟩
        rcases List.mem_cons.mp hb with rfl | hb
        · exact le_refl _
        · exact le_trans (hmax b hb hpb) (le_of_lt hc.2)
      · refine ⟨a, List.mem_cons_of_mem _ ha, hpa, fun b hb hpb => ?_⟩
        rcases List.mem_cons.mp hb with rfl | hb
        · exact le_of_not_gt fun hlt => hc ⟨hpb, hlt⟩
        · exact hmax b hb hpb
    · obtain ⟨a, ha, hpa⟩ := h
      have hfirst : ∀ b ∈ c :: rest, p b → b = c := by
        intro b hb hpb
        rcases List.mem_cons.mp hb with rfl | hb
        · rfl
        · exact absurd ⟨b, hb, hpb⟩ hrest
      have hac := hfirst a ha hpa
      subst hac
      refine ⟨a, List.mem_cons_self, hpa, fun b hb hpb => ?_⟩
      rw [hfirst b hb hpb]

/-- Where `n` groups are above a key, `n` of the highest groups are. -/
theorem exists_recent_above {k : κ} (h : n ≤ (groupsAbove group key all k).card) :
    n ≤ (recentAbove group key n all k).card := by
  by_contra hfew
  rw [not_le] at hfew
  -- a highest element above the key whose group is not among the highest ones
  have hmissing : ∃ a ∈ all, k < key a ∧ group a ∉ recentAbove group key n all k := by
    by_contra hnone
    refine absurd (Finset.card_le_card ?_) (not_le.mpr (lt_of_lt_of_le hfew h))
    intro g hg
    obtain ⟨a, ha, rfl, hlt⟩ := mem_groupsAbove.mp hg
    by_contra hnot
    exact hnone ⟨a, ha, hlt, hnot⟩
  have hhighest : ∃ a ∈ all, (k < key a ∧ group a ∉ recentAbove group key n all k) ∧
      ∀ b ∈ all, k < key b ∧ group b ∉ recentAbove group key n all k → key b ≤ key a :=
    exists_maximal hmissing
  obtain ⟨a, ha, ⟨hlt, hnot⟩, hmax⟩ := hhighest
  refine hnot (mem_recentAbove.mpr ⟨a, ha, rfl, hlt, ?_⟩)
  refine lt_of_le_of_lt (Finset.card_le_card ?_) hfew
  intro g hg
  obtain ⟨b, hb, rfl, hab⟩ := mem_groupsAbove.mp hg
  by_contra hb'
  exact absurd (hmax b hb ⟨lt_trans hlt hab, hb'⟩) (not_le.mpr hab)

/-- Elements that dominate have the same highest groups as all of them. -/
theorem recent_iff_of_dominates (hsub : kept ⊆ all) (hdom : Dominates group key n kept all)
    (g : γ) : Recent group key n kept g ↔ Recent group key n all g := by
  constructor
  · rintro ⟨a, ha, rfl, hcard⟩
    refine ⟨a, hsub ha, rfl, ?_⟩
    by_contra hmany
    refine absurd hcard (not_lt.mpr ?_)
    refine le_trans (exists_recent_above (not_lt.mp hmany)) (Finset.card_le_card ?_)
    intro g hg
    obtain ⟨b, hb, rfl, hlt, hb'⟩ := mem_recentAbove.mp hg
    obtain ⟨c, hc, hgroup, hle⟩ := hdom b hb hb'
    exact mem_groupsAbove.mpr ⟨c, hc, hgroup, lt_of_lt_of_le hlt hle⟩
  · rintro ⟨a, ha, rfl, hcard⟩
    obtain ⟨b, hb, hgroup, hle⟩ := hdom a ha hcard
    exact ⟨b, hb, hgroup, lt_of_le_of_lt (card_groupsAbove_le hsub hle) hcard⟩

/-- Elements that come are added on both sides. -/
theorem Dominates.append (h : Dominates group key n kept all) (more : List α) :
    Dominates group key n (kept ++ more) (all ++ more) := by
  intro a ha hcard
  rcases List.mem_append.mp ha with ha | ha
  · have hfew : (groupsAbove group key all (key a)).card ≤
        (groupsAbove group key (all ++ more) (key a)).card :=
      card_groupsAbove_le (List.subset_append_left all more) (le_refl (key a))
    obtain ⟨b, hb, hgroup, hle⟩ := h a ha (lt_of_le_of_lt hfew hcard)
    exact ⟨b, List.mem_append_left _ hb, hgroup, hle⟩
  · exact ⟨a, List.mem_append_right _ ha, rfl, le_refl _⟩

/-- Elements of other groups than the highest ones may go. -/
theorem Dominates.restrict (h : Dominates group key n kept all) (hsub : kept ⊆ all)
    {kept' : List α} (hkeeps : ∀ b ∈ kept, Recent group key n kept (group b) → b ∈ kept') :
    Dominates group key n kept' all := by
  intro a ha hcard
  obtain ⟨b, hb, hgroup, hle⟩ := h a ha hcard
  refine ⟨b, hkeeps b hb ?_, hgroup, hle⟩
  exact ⟨b, hb, rfl, lt_of_le_of_lt (card_groupsAbove_le hsub hle) hcard⟩

/-! ## The end of a sorted list -/

/-- The last `n` elements of a strictly increasing list are those with fewer than `n` above. -/
theorem mem_drop_iff {β : Type*} {f : β → κ} {sorted : List β}
    (h : sorted.Pairwise fun a b => f a < f b) (n : ℕ) (x : β) :
    x ∈ sorted.drop (sorted.length - n) ↔
      x ∈ sorted ∧ (sorted.filter fun y => decide (f x < f y)).length < n := by
  by_cases hx : x ∈ sorted
  · obtain ⟨pre, post, rfl⟩ := List.append_of_mem hx
    obtain ⟨-, hright, hcross⟩ := List.pairwise_append.mp h
    obtain ⟨hpost, -⟩ := List.pairwise_cons.mp hright
    have hpre : pre.filter (fun y => decide (f x < f y)) = [] := by
      rw [List.filter_eq_nil_iff]
      intro y hy hlt
      exact lt_asymm (of_decide_eq_true hlt) (hcross y hy x List.mem_cons_self)
    have hall : post.filter (fun y => decide (f x < f y)) = post := by
      rw [List.filter_eq_self]
      intro y hy
      exact decide_eq_true (hpost y hy)
    have hfilter : (pre ++ x :: post).filter (fun y => decide (f x < f y)) = post := by
      rw [List.filter_append, hpre, List.nil_append, List.filter_cons, hall,
        if_neg (by simp)]
    rw [hfilter]
    have hlength : (pre ++ x :: post).length = pre.length + 1 + post.length := by
      rw [List.length_append, List.length_cons]
      omega
    constructor
    · intro hmem
      refine ⟨hx, ?_⟩
      by_contra hmany
      -- then the whole of the front is dropped, and `x` is not above itself
      rw [List.append_cons, List.drop_append, List.drop_eq_nil_of_le (by simp; omega),
        List.nil_append] at hmem
      exact lt_irrefl _ (hpost x (List.mem_of_mem_drop hmem))
    · rintro ⟨-, hfew⟩
      rw [List.drop_append_of_le_length (by omega)]
      exact List.mem_append_right _ List.mem_cons_self
  · exact iff_of_false (fun hmem => hx (List.mem_of_mem_drop hmem)) fun hmem => hx hmem.1

end RemotePi.Lib
