import Mathlib.Data.List.Induction
import RemotePi.Lib.OrderedMap

/-!
# Lists of keyed elements

A list whose elements carry a key, where a later element with the same key
overrides an earlier one: the meaning of such a list as a finite map, and of the
insertion-ordered map that is built from it.

Results:
* `lastWith_append`, `lastWith_filter`, `lastWith_map`: how the list operations act
  on that meaning.
* `find?_eq_lastWith`: with distinct keys the first element is the last one.
* `get?_collect`: building a map keeps the meaning.
* `filter_sublist_set`, `filter_sublist_eraseIdx`: writing to one place of a list keeps the
  elements that are not in it.
-/

namespace RemotePi.Lib

variable {κ α : Type*} [DecidableEq κ]

/-- The last element with the key. -/
def lastWith (f : α → κ) (k : κ) (l : List α) : Option α :=
  l.reverse.find? fun a => decide (f a = k)

section LastWith

variable {f : α → κ}

@[simp] theorem lastWith_nil (k : κ) : lastWith f k [] = none := rfl

theorem lastWith_append (k : κ) (l l' : List α) :
    lastWith f k (l ++ l') = (lastWith f k l').or (lastWith f k l) := by
  rw [lastWith, List.reverse_append, List.find?_append]
  rfl

theorem lastWith_singleton (k : κ) (a : α) :
    lastWith f k [a] = if f a = k then some a else none := by
  by_cases h : f a = k <;> simp [lastWith, h]

theorem lastWith_cons (k : κ) (a : α) (l : List α) :
    lastWith f k (a :: l) = (lastWith f k l).or (if f a = k then some a else none) := by
  rw [← List.singleton_append, lastWith_append, lastWith_singleton]

theorem key_of_lastWith {k : κ} {l : List α} {a : α} (h : lastWith f k l = some a) : f a = k := by
  simpa using List.find?_some h

theorem mem_of_lastWith {k : κ} {l : List α} {a : α} (h : lastWith f k l = some a) : a ∈ l :=
  List.mem_reverse.mp (List.mem_of_find?_eq_some h)

theorem lastWith_eq_none {k : κ} {l : List α} : lastWith f k l = none ↔ ∀ a ∈ l, f a ≠ k := by
  simp [lastWith]

theorem lastWith_isSome {k : κ} {l : List α} : (lastWith f k l).isSome = true ↔ k ∈ l.map f := by
  rw [← Option.ne_none_iff_isSome, ne_eq, lastWith_eq_none, List.mem_map]
  push Not
  rfl

/-- Keeping the elements by their keys. -/
theorem lastWith_filter (p : κ → Bool) (k : κ) (l : List α) :
    lastWith f k (l.filter fun a => p (f a)) = if p k then lastWith f k l else none := by
  induction l with
  | nil => simp
  | cons a l ih =>
    by_cases hp : p (f a) = true
    · rw [List.filter_cons, if_pos hp, lastWith_cons, lastWith_cons, ih]
      by_cases hk : f a = k
      · subst hk
        simp [hp]
      · simp [hk]
    · rw [List.filter_cons, if_neg hp, ih, lastWith_cons]
      by_cases hk : f a = k
      · subst hk
        simp [hp]
      · simp [hk]

/-- Changing the elements and not their keys. -/
theorem lastWith_map {g : α → α} (hg : ∀ a, f (g a) = f a) (k : κ) (l : List α) :
    lastWith f k (l.map g) = (lastWith f k l).map g := by
  induction l with
  | nil => rfl
  | cons a l ih =>
    rw [List.map_cons, lastWith_cons, lastWith_cons, ih, hg]
    by_cases hk : f a = k <;> cases lastWith f k l <;> simp [hk]

theorem lastWith_of_mem {l : List α} (hn : (l.map f).Nodup) {a : α} (ha : a ∈ l) :
    lastWith f (f a) l = some a := by
  have hsome : (lastWith f (f a) l).isSome = true :=
    lastWith_isSome.mpr (List.mem_map_of_mem ha)
  obtain ⟨b, hb⟩ := Option.isSome_iff_exists.mp hsome
  rw [hb, List.inj_on_of_nodup_map hn (mem_of_lastWith hb) ha (key_of_lastWith hb)]

/-- The first element is the last one when the keys are distinct. -/
theorem find?_eq_lastWith {l : List α} (hn : (l.map f).Nodup) (k : κ) :
    l.find? (fun a => decide (f a = k)) = lastWith f k l := by
  cases h : l.find? fun a => decide (f a = k) with
  | none =>
    refine (lastWith_eq_none.mpr fun a ha hk => ?_).symm
    exact List.find?_eq_none.mp h a ha (decide_eq_true hk)
  | some a =>
    have hk : f a = k := by simpa using List.find?_some h
    rw [← hk, lastWith_of_mem hn (List.mem_of_find?_eq_some h)]

/-- With distinct keys one element has the key of an element. -/
theorem filter_key_eq {l : List α} (hn : (l.map f).Nodup) {a : α} (ha : a ∈ l) :
    l.filter (fun b => decide (f b = f a)) = [a] := by
  induction l with
  | nil => cases ha
  | cons b l ih =>
    rw [List.map_cons, List.nodup_cons] at hn
    rcases List.mem_cons.mp ha with rfl | ha
    · have hnil : l.filter (fun b => decide (f b = f a)) = [] := by
        refine List.filter_eq_nil_iff.mpr fun c hc heq => hn.1 ?_
        rw [← of_decide_eq_true heq]
        exact List.mem_map_of_mem hc
      rw [List.filter_cons_of_pos (by simp), hnil]
    · have hne : f b ≠ f a := fun heq => hn.1 (by rw [heq]; exact List.mem_map_of_mem ha)
      rw [List.filter_cons_of_neg (by simpa using hne), ih hn.2 ha]

/-- Lists with distinct keys and the same elements have the same meaning. -/
theorem lastWith_perm {l l' : List α} (h : l.Perm l') (hn : (l.map f).Nodup) (k : κ) :
    lastWith f k l = lastWith f k l' := by
  cases hl : lastWith f k l with
  | none =>
    exact (lastWith_eq_none.mpr fun a ha => lastWith_eq_none.mp hl a (h.mem_iff.mpr ha)).symm
  | some a =>
    rw [← key_of_lastWith hl]
    exact (lastWith_of_mem ((h.map f).nodup_iff.mp hn) (h.mem_iff.mp (mem_of_lastWith hl))).symm

end LastWith

/-! ## The map of a list -/

/-- The map from the keys of a list to its elements, in the order of the first
    appearances. -/
def collect (f : α → κ) (l : List α) : OrderedMap κ α :=
  l.foldl (fun m a => m.set (f a) a) .empty

section Collect

variable {f : α → κ}

theorem collect_append (l l' : List α) :
    collect f (l ++ l') = l'.foldl (fun m a => m.set (f a) a) (collect f l) :=
  List.foldl_append

theorem get?_collect (k : κ) (l : List α) : (collect f l).get? k = lastWith f k l := by
  induction l using List.reverseRecOn with
  | nil => rfl
  | append_singleton l a ih =>
    rw [collect_append, lastWith_append, lastWith_singleton, List.foldl_cons, List.foldl_nil,
      OrderedMap.get?_set, ih]
    by_cases h : f a = k
    · rw [if_pos h.symm, if_pos h]
      rfl
    · rw [if_neg (Ne.symm h), if_neg h]
      rfl

/-- An entry of the map is under its own key. -/
theorem key_of_mem_collect {l : List α} {e : κ × α} (h : e ∈ (collect f l).entries) :
    f e.2 = e.1 := by
  obtain ⟨k, a⟩ := e
  have hget := OrderedMap.mem_entries_iff.mp h
  rw [get?_collect] at hget
  exact key_of_lastWith hget

theorem map_values_collect (l : List α) : (collect f l).values.map f = (collect f l).keys := by
  rw [OrderedMap.values, OrderedMap.keys, List.map_map]
  exact List.map_congr_left fun e he => key_of_mem_collect he

theorem nodup_values_collect (l : List α) : ((collect f l).values.map f).Nodup := by
  rw [map_values_collect]
  exact (collect f l).nodup

theorem lastWith_values_collect (k : κ) (l : List α) :
    lastWith f k (collect f l).values = lastWith f k l := by
  rw [← get?_collect k l]
  cases h : (collect f l).get? k with
  | none =>
    refine lastWith_eq_none.mpr fun a ha hk => ?_
    have hkey : k ∈ (collect f l).keys := by
      rw [← map_values_collect, ← hk]
      exact List.mem_map_of_mem ha
    exact OrderedMap.not_mem_keys_of_get? h hkey
  | some a =>
    have hm : (k, a) ∈ (collect f l).entries := OrderedMap.mem_entries_iff.mpr h
    have ha : a ∈ (collect f l).values := List.mem_map.mpr ⟨_, hm, rfl⟩
    have hk : f a = k := key_of_mem_collect hm
    rw [← hk]
    exact lastWith_of_mem (nodup_values_collect l) ha

end Collect

/-! ## One place of a list -/

section Place

variable {β : Type*} {p : β → Bool} {l : List β} {i : ℕ}

/-- Writing over an element that is not kept leaves the elements that are kept. -/
theorem filter_sublist_set (h : ∀ a, l[i]? = some a → p a = false) (b : β) :
    (l.filter p).Sublist (l.set i b) := by
  induction l generalizing i with
  | nil => exact List.Sublist.refl _
  | cons a l ih =>
    cases i with
    | zero =>
      rw [List.filter_cons_of_neg (by simp [h a rfl]), List.set_cons_zero]
      exact List.filter_sublist.cons b
    | succ i =>
      rw [List.set_cons_succ]
      have hrest := ih (i := i) fun a' ha' => h a' (by simpa using ha')
      by_cases hp : p a = true
      · rw [List.filter_cons_of_pos hp]
        exact hrest.cons_cons a
      · rw [List.filter_cons_of_neg hp]
        exact hrest.cons a

theorem filter_sublist_eraseIdx (h : ∀ a, l[i]? = some a → p a = false) :
    (l.filter p).Sublist (l.eraseIdx i) := by
  induction l generalizing i with
  | nil => exact List.Sublist.refl _
  | cons a l ih =>
    cases i with
    | zero =>
      rw [List.filter_cons_of_neg (by simp [h a rfl]), List.eraseIdx_cons_zero]
      exact List.filter_sublist
    | succ i =>
      rw [List.eraseIdx_cons_succ]
      have hrest := ih (i := i) fun a' ha' => h a' (by simpa using ha')
      by_cases hp : p a = true
      · rw [List.filter_cons_of_pos hp]
        exact hrest.cons_cons a
      · rw [List.filter_cons_of_neg hp]
        exact hrest.cons a

theorem getElem?_of_findIdx? (h : l.findIdx? p = some i) {a : β} (ha : l[i]? = some a) :
    p a = true := by
  obtain ⟨hlt, hp, -⟩ := List.findIdx?_eq_some_iff_getElem.mp h
  rw [List.getElem?_eq_getElem hlt] at ha
  rw [← Option.some.inj ha]
  exact hp

end Place

end RemotePi.Lib
