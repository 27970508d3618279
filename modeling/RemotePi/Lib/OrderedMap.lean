import Mathlib.Algebra.GroupWithZero.Nat
import Mathlib.Data.List.Nodup
import Mathlib.Data.List.Basic

/-!
# Insertion-ordered maps

A finite map as the list of its entries in insertion order, with the keys
pairwise distinct by construction. `set` on a key that is present replaces the
value in place, `set` on a new key appends, `erase` removes; this is the order
in which an ECMAScript `Map` iterates. Mathlib's `AList.insert` moves the key it
overwrites to the front, so it is not this map.

Results: `get?` after `set` and `erase` (`get?_set`, `get?_erase`),
`mem_entries_iff`: an entry is listed exactly when it is looked up, and what `set` and
`erase` do to a sum over the values (`total_set`, `total_erase`).
-/

namespace RemotePi.Lib

variable {κ α : Type*}

/-- The entries of a map, in insertion order. -/
structure OrderedMap (κ α : Type*) where
  entries : List (κ × α)
  nodup : (entries.map Prod.fst).Nodup

namespace OrderedMap

@[ext] theorem ext {m m' : OrderedMap κ α} (h : m.entries = m'.entries) : m = m' := by
  cases m; cases m'; cases h; rfl

instance [DecidableEq κ] [DecidableEq α] : DecidableEq (OrderedMap κ α) := fun m m' =>
  decidable_of_iff (m.entries = m'.entries) ⟨ext, congrArg entries⟩

/-- The map without entries. -/
def empty : OrderedMap κ α := ⟨[], List.nodup_nil⟩

instance : Inhabited (OrderedMap κ α) := ⟨empty⟩

def keys (m : OrderedMap κ α) : List κ := m.entries.map Prod.fst

def values (m : OrderedMap κ α) : List α := m.entries.map Prod.snd

def isEmpty (m : OrderedMap κ α) : Bool := m.entries.isEmpty

/-- The sizes of the values together. -/
def total (size : α → ℕ) (m : OrderedMap κ α) : ℕ := (m.values.map size).sum

theorem nodup_entries (m : OrderedMap κ α) : m.entries.Nodup := m.nodup.of_map

@[simp] theorem total_empty (size : α → ℕ) : (empty : OrderedMap κ α).total size = 0 := rfl

theorem total_of_entries {size : α → ℕ} {m : OrderedMap κ α} {k : κ} {v : α}
    {pre post : List (κ × α)} (h : m.entries = pre ++ (k, v) :: post) :
    m.total size =
      ((pre.map Prod.snd).map size).sum + size v + ((post.map Prod.snd).map size).sum := by
  rw [total, values, h]
  simp only [List.map_append, List.map_cons, List.sum_append, List.sum_cons]
  omega

variable [DecidableEq κ]

/-! ## Operations on entry lists -/

/-- The value of the first entry with the key. -/
def lookupEntry (k : κ) : List (κ × α) → Option α
  | [] => none
  | (k', v) :: es => if k = k' then some v else lookupEntry k es

/-- Replaces the value of the key in place, or appends the entry. -/
def setEntry (k : κ) (v : α) : List (κ × α) → List (κ × α)
  | [] => [(k, v)]
  | (k', v') :: es => if k = k' then (k, v) :: es else (k', v') :: setEntry k v es

theorem lookupEntry_setEntry (k k' : κ) (v : α) (es : List (κ × α)) :
    lookupEntry k' (setEntry k v es) = if k' = k then some v else lookupEntry k' es := by
  induction es with
  | nil => simp [setEntry, lookupEntry]
  | cons e es ih =>
    obtain ⟨k₀, v₀⟩ := e
    by_cases h : k = k₀
    · subst h
      by_cases h' : k' = k <;> simp [setEntry, lookupEntry, h']
    · by_cases h' : k' = k₀
      · subst h'
        simp [setEntry, lookupEntry, h, Ne.symm h]
      · simp [setEntry, lookupEntry, h, h', ih]

theorem mem_keys_setEntry {k k' : κ} {v : α} {es : List (κ × α)} :
    k' ∈ (setEntry k v es).map Prod.fst ↔ k' = k ∨ k' ∈ es.map Prod.fst := by
  induction es with
  | nil => simp [setEntry]
  | cons e es ih =>
    obtain ⟨k₀, v₀⟩ := e
    by_cases h : k = k₀
    · subst h; simp [setEntry]
    · simp only [setEntry, h, if_false, List.map_cons, List.mem_cons, ih]
      tauto

theorem nodup_setEntry {k : κ} {v : α} {es : List (κ × α)} (h : (es.map Prod.fst).Nodup) :
    ((setEntry k v es).map Prod.fst).Nodup := by
  induction es with
  | nil => simp [setEntry]
  | cons e es ih =>
    obtain ⟨k₀, v₀⟩ := e
    rw [List.map_cons, List.nodup_cons] at h
    by_cases hk : k = k₀
    · subst hk
      simpa [setEntry] using h
    · simp only [setEntry, hk, if_false, List.map_cons, List.nodup_cons]
      refine ⟨fun hm => ?_, ih h.2⟩
      rcases mem_keys_setEntry.mp hm with h' | h'
      · exact hk h'.symm
      · exact h.1 h'

theorem lookupEntry_eq_none {k : κ} {es : List (κ × α)} (h : k ∉ es.map Prod.fst) :
    lookupEntry k es = none := by
  induction es with
  | nil => rfl
  | cons e es ih =>
    rw [List.map_cons, List.mem_cons, not_or] at h
    simp [lookupEntry, h.1, ih h.2]

theorem mem_of_lookupEntry {k : κ} {v : α} {es : List (κ × α)} (h : lookupEntry k es = some v) :
    (k, v) ∈ es := by
  induction es with
  | nil => cases h
  | cons e es ih =>
    obtain ⟨k₀, v₀⟩ := e
    by_cases hk : k = k₀
    · subst hk
      simp only [lookupEntry, if_true, Option.some.injEq] at h
      simp [h]
    · simp only [lookupEntry, hk, if_false] at h
      exact List.mem_cons_of_mem _ (ih h)

theorem lookupEntry_of_mem {k : κ} {v : α} {es : List (κ × α)} (hn : (es.map Prod.fst).Nodup)
    (h : (k, v) ∈ es) : lookupEntry k es = some v := by
  induction es with
  | nil => cases h
  | cons e es ih =>
    obtain ⟨k₀, v₀⟩ := e
    rw [List.map_cons, List.nodup_cons] at hn
    rcases List.mem_cons.mp h with h' | h'
    · cases h'; simp [lookupEntry]
    · have hk : k ≠ k₀ := by rintro rfl; exact hn.1 (List.mem_map.mpr ⟨_, h', rfl⟩)
      simp [lookupEntry, hk, ih hn.2 h']

/-! ## The map operations -/

def get? (m : OrderedMap κ α) (k : κ) : Option α := lookupEntry k m.entries

def contains (m : OrderedMap κ α) (k : κ) : Bool := (m.get? k).isSome

def set (m : OrderedMap κ α) (k : κ) (v : α) : OrderedMap κ α :=
  ⟨setEntry k v m.entries, nodup_setEntry m.nodup⟩

def erase (m : OrderedMap κ α) (k : κ) : OrderedMap κ α :=
  ⟨m.entries.filter fun e => decide (e.1 ≠ k),
    m.nodup.sublist (List.Sublist.map Prod.fst List.filter_sublist)⟩

/-- Keeps the entries that meet the test. -/
def filter (p : κ → α → Bool) (m : OrderedMap κ α) : OrderedMap κ α :=
  ⟨m.entries.filter fun e => p e.1 e.2, m.nodup.sublist (List.filter_sublist.map _)⟩

/-- Drops the entries that came first. -/
def dropFirst (m : OrderedMap κ α) (n : ℕ) : OrderedMap κ α :=
  ⟨m.entries.drop n, m.nodup.sublist ((List.drop_sublist n _).map _)⟩

/-- Sets a key and moves it to the end. -/
def moveLast (m : OrderedMap κ α) (k : κ) (v : α) : OrderedMap κ α := (m.erase k).set k v

/-- Changes every value in place. -/
def mapValues (f : κ → α → α) (m : OrderedMap κ α) : OrderedMap κ α :=
  ⟨m.entries.map fun e => (e.1, f e.1 e.2), by
    rw [List.map_map]
    exact m.nodup⟩

theorem mem_entries_iff {m : OrderedMap κ α} {k : κ} {v : α} :
    (k, v) ∈ m.entries ↔ m.get? k = some v :=
  ⟨lookupEntry_of_mem m.nodup, mem_of_lookupEntry⟩

@[simp] theorem get?_empty (k : κ) : (empty : OrderedMap κ α).get? k = none := rfl

theorem get?_set (m : OrderedMap κ α) (k k' : κ) (v : α) :
    (m.set k v).get? k' = if k' = k then some v else m.get? k' :=
  lookupEntry_setEntry k k' v m.entries

@[simp] theorem get?_set_self (m : OrderedMap κ α) (k : κ) (v : α) :
    (m.set k v).get? k = some v := by rw [get?_set, if_pos rfl]

theorem get?_set_of_ne (m : OrderedMap κ α) {k k' : κ} (v : α) (h : k' ≠ k) :
    (m.set k v).get? k' = m.get? k' := by rw [get?_set, if_neg h]

theorem setEntry_setEntry (k : κ) (v w : α) (es : List (κ × α)) :
    setEntry k w (setEntry k v es) = setEntry k w es := by
  induction es with
  | nil => simp [setEntry]
  | cons e es ih =>
    obtain ⟨k₀, v₀⟩ := e
    by_cases h : k = k₀
    · simp [setEntry, h]
    · simp [setEntry, h, ih]

@[simp] theorem set_set (m : OrderedMap κ α) (k : κ) (v w : α) :
    (m.set k v).set k w = m.set k w :=
  ext (setEntry_setEntry k v w m.entries)

theorem get?_erase (m : OrderedMap κ α) (k k' : κ) :
    (m.erase k).get? k' = if k' = k then none else m.get? k' := by
  split_ifs with h
  · refine lookupEntry_eq_none fun hm => ?_
    obtain ⟨e, he, hk⟩ := List.mem_map.mp hm
    have := (List.mem_filter.mp he).2
    simp [hk, h] at this
  · ext v
    rw [← mem_entries_iff, ← mem_entries_iff]
    simp [erase, h]

@[simp] theorem get?_erase_self (m : OrderedMap κ α) (k : κ) : (m.erase k).get? k = none := by
  rw [get?_erase, if_pos rfl]

theorem get?_erase_of_ne (m : OrderedMap κ α) {k k' : κ} (h : k' ≠ k) :
    (m.erase k).get? k' = m.get? k' := by rw [get?_erase, if_neg h]

theorem get?_moveLast (m : OrderedMap κ α) (k k' : κ) (v : α) :
    (m.moveLast k v).get? k' = if k' = k then some v else m.get? k' := by
  rw [moveLast, get?_set]
  split_ifs with h
  · rfl
  · exact get?_erase_of_ne m h

theorem get?_mapValues (f : κ → α → α) (m : OrderedMap κ α) (k : κ) :
    (m.mapValues f).get? k = (m.get? k).map (f k) := by
  ext v
  rw [← mem_entries_iff, Option.map_eq_some_iff]
  constructor
  · intro h
    obtain ⟨⟨k', w⟩, he, heq⟩ := List.mem_map.mp h
    cases heq
    exact ⟨w, mem_entries_iff.mp he, rfl⟩
  · rintro ⟨w, hw, rfl⟩
    exact List.mem_map.mpr ⟨(k, w), mem_entries_iff.mpr hw, rfl⟩

theorem mapValues_set (f : κ → α → α) (m : OrderedMap κ α) (k : κ) (v : α) :
    (m.set k v).mapValues f = (m.mapValues f).set k (f k v) := by
  refine ext ?_
  show (setEntry k v m.entries).map (fun e => (e.1, f e.1 e.2)) =
    setEntry k (f k v) (m.entries.map fun e => (e.1, f e.1 e.2))
  induction m.entries with
  | nil => rfl
  | cons e es ih =>
    obtain ⟨k', w⟩ := e
    by_cases h : k = k'
    · simp [setEntry, h]
    · simp [setEntry, h, ih]

/-- What a part of the entries gives for a key, the whole gives as well. -/
theorem get?_of_sublist {m m' : OrderedMap κ α} (h : m'.entries.Sublist m.entries) {k : κ} {v : α}
    (hget : m'.get? k = some v) : m.get? k = some v :=
  mem_entries_iff.mp (h.subset (mem_entries_iff.mpr hget))

theorem get?_filter (p : κ → α → Bool) (m : OrderedMap κ α) (k : κ) :
    (m.filter p).get? k = (m.get? k).filter (p k) := by
  ext v
  rw [← mem_entries_iff, Option.filter_eq_some_iff, ← mem_entries_iff]
  exact List.mem_filter

theorem any_values {m : OrderedMap κ α} {p : α → Bool} :
    m.values.any p = true ↔ ∃ k v, m.get? k = some v ∧ p v = true := by
  rw [List.any_eq_true]
  constructor
  · rintro ⟨v, hv, hp⟩
    obtain ⟨⟨k, v⟩, he, rfl⟩ := List.mem_map.mp hv
    exact ⟨k, v, mem_entries_iff.mp he, hp⟩
  · rintro ⟨k, v, hget, hp⟩
    exact ⟨v, List.mem_map.mpr ⟨(k, v), mem_entries_iff.mpr hget, rfl⟩, hp⟩

theorem contains_iff {m : OrderedMap κ α} {k : κ} : m.contains k = true ↔ ∃ v, m.get? k = some v := by
  rw [contains, Option.isSome_iff_exists]

theorem get?_eq_none_of_isEmpty {m : OrderedMap κ α} (h : m.isEmpty = true) (k : κ) :
    m.get? k = none := by
  rw [isEmpty, List.isEmpty_iff] at h
  rw [get?, h, lookupEntry]

/-! ## Keys and values -/

theorem mem_keys {m : OrderedMap κ α} {k : κ} : k ∈ m.keys ↔ ∃ v, m.get? k = some v := by
  constructor
  · intro h
    obtain ⟨⟨k', v⟩, he, rfl⟩ := List.mem_map.mp h
    exact ⟨v, mem_entries_iff.mp he⟩
  · rintro ⟨v, hv⟩
    exact List.mem_map.mpr ⟨(k, v), mem_entries_iff.mpr hv, rfl⟩

theorem mem_values {m : OrderedMap κ α} {v : α} : v ∈ m.values ↔ ∃ k, m.get? k = some v := by
  constructor
  · intro h
    obtain ⟨⟨k, w⟩, he, rfl⟩ := List.mem_map.mp h
    exact ⟨k, mem_entries_iff.mp he⟩
  · rintro ⟨k, hk⟩
    exact List.mem_map.mpr ⟨(k, v), mem_entries_iff.mpr hk, rfl⟩

theorem keys_erase (m : OrderedMap κ α) (k : κ) :
    (m.erase k).keys = m.keys.filter fun k' => decide (k' ≠ k) := by
  rw [keys, keys, List.filter_map]
  rfl

/-- Setting a key that is present keeps the keys as they stand. -/
theorem keys_set_of_some {m : OrderedMap κ α} {k : κ} {v w : α} (h : m.get? k = some v) :
    (m.set k w).keys = m.keys := by
  have hkeys : ∀ es : List (κ × α), lookupEntry k es = some v →
      (setEntry k w es).map Prod.fst = es.map Prod.fst := by
    intro es
    induction es with
    | nil => intro hn; cases hn
    | cons e es ih =>
      obtain ⟨k', v'⟩ := e
      intro hget
      by_cases hk : k = k'
      · simp [setEntry, hk]
      · simp only [lookupEntry, if_neg hk] at hget
        simp [setEntry, hk, ih hget]
  exact hkeys m.entries h

theorem get?_foldl_erase (ks : List κ) (m : OrderedMap κ α) (k : κ) :
    (ks.foldl erase m).get? k = if k ∈ ks then none else m.get? k := by
  induction ks generalizing m with
  | nil => simp
  | cons k' ks ih =>
    rw [List.foldl_cons, ih, get?_erase]
    by_cases h : k = k' <;> simp [h]

/-! ## Entry order -/

theorem setEntry_of_not_mem {k : κ} {v : α} {es : List (κ × α)} (h : k ∉ es.map Prod.fst) :
    setEntry k v es = es ++ [(k, v)] := by
  induction es with
  | nil => rfl
  | cons e es ih =>
    rw [List.map_cons, List.mem_cons, not_or] at h
    simp [setEntry, h.1, ih h.2]

theorem not_mem_keys_of_get? {m : OrderedMap κ α} {k : κ} (h : m.get? k = none) :
    k ∉ m.entries.map Prod.fst := by
  intro hm
  obtain ⟨⟨k', v⟩, he, rfl⟩ := List.mem_map.mp hm
  rw [mem_entries_iff.mp he] at h
  cases h

/-- A new key goes last. -/
theorem entries_set_of_none {m : OrderedMap κ α} {k : κ} (v : α) (h : m.get? k = none) :
    (m.set k v).entries = m.entries ++ [(k, v)] :=
  setEntry_of_not_mem (not_mem_keys_of_get? h)

theorem keys_set_of_none {m : OrderedMap κ α} {k : κ} (v : α) (h : m.get? k = none) :
    (m.set k v).keys = m.keys ++ [k] := by
  rw [keys, entries_set_of_none v h, List.map_append]
  rfl

/-- The entries around the entry of a key. -/
theorem exists_entries_eq {m : OrderedMap κ α} {k : κ} {v : α} (h : m.get? k = some v) :
    ∃ pre post, m.entries = pre ++ (k, v) :: post ∧ k ∉ pre.map Prod.fst ∧
      k ∉ post.map Prod.fst := by
  obtain ⟨pre, post, he⟩ := List.append_of_mem (mem_entries_iff.mpr h)
  have hn := m.nodup
  rw [he, List.map_append, List.map_cons, List.nodup_append] at hn
  refine ⟨pre, post, he, fun hk => ?_, (List.nodup_cons.mp hn.2.1).1⟩
  exact hn.2.2 k hk k List.mem_cons_self rfl

theorem filter_key_ne {k : κ} {es : List (κ × α)} (h : k ∉ es.map Prod.fst) :
    es.filter (fun e => decide (e.1 ≠ k)) = es := by
  refine List.filter_eq_self.mpr fun e he => decide_eq_true ?_
  rintro rfl
  exact h (List.mem_map_of_mem he)

theorem erase_of_none {m : OrderedMap κ α} {k : κ} (h : m.get? k = none) : m.erase k = m :=
  ext (filter_key_ne (not_mem_keys_of_get? h))

/-- Erasing a key leaves the entries around it. -/
theorem entries_erase_eq {m : OrderedMap κ α} {k : κ} {v : α} {pre post : List (κ × α)}
    (he : m.entries = pre ++ (k, v) :: post) (hpre : k ∉ pre.map Prod.fst)
    (hpost : k ∉ post.map Prod.fst) : (m.erase k).entries = pre ++ post := by
  show m.entries.filter (fun e => decide (e.1 ≠ k)) = pre ++ post
  rw [he, List.filter_append, List.filter_cons, filter_key_ne hpre, filter_key_ne hpost]
  simp

theorem entries_moveLast (m : OrderedMap κ α) (k : κ) (v : α) :
    (m.moveLast k v).entries = (m.entries.filter fun e => decide (e.1 ≠ k)) ++ [(k, v)] :=
  entries_set_of_none v (get?_erase_self m k)

theorem keys_moveLast (m : OrderedMap κ α) (k : κ) (v : α) :
    (m.moveLast k v).keys = (m.keys.filter fun k' => decide (k' ≠ k)) ++ [k] := by
  rw [moveLast, keys_set_of_none v (get?_erase_self m k), keys_erase]

/-- Moving a key to the end keeps the number of entries. -/
theorem length_moveLast {m : OrderedMap κ α} {k : κ} {v w : α} (h : m.get? k = some w) :
    (m.moveLast k v).entries.length = m.entries.length := by
  obtain ⟨pre, post, he, hpre, hpost⟩ := exists_entries_eq h
  rw [moveLast, entries_set_of_none v (get?_erase_self m k), entries_erase_eq he hpre hpost, he]
  simp only [List.length_append, List.length_cons, List.length_nil]
  omega

/-- Searching the entries for a key and a property of its value. -/
theorem find?_entries (m : OrderedMap κ α) (k : κ) (p : α → Bool) :
    m.entries.find? (fun e => decide (e.1 = k) && p e.2) =
      ((m.get? k).filter p).map fun v => (k, v) := by
  cases h : m.get? k with
  | none =>
    refine List.find?_eq_none.mpr fun e he hk => not_mem_keys_of_get? h ?_
    simp only [Bool.and_eq_true, decide_eq_true_eq] at hk
    exact hk.1 ▸ List.mem_map_of_mem he
  | some v =>
    obtain ⟨pre, post, he, hpre, hpost⟩ := exists_entries_eq h
    have hnone : ∀ es : List (κ × α), k ∉ es.map Prod.fst →
        es.find? (fun e => decide (e.1 = k) && p e.2) = none := by
      intro es hes
      refine List.find?_eq_none.mpr fun e hm hk => hes ?_
      simp only [Bool.and_eq_true, decide_eq_true_eq] at hk
      exact hk.1 ▸ List.mem_map_of_mem hm
    rw [he, List.find?_append, hnone pre hpre, Option.none_or, List.find?_cons]
    cases hp : p v <;> simp [Option.filter_some, hp, hnone post hpost]

/-- Of the values that carry their own key, the one with a key. -/
theorem filter_values_eq {m : OrderedMap κ α} {f : α → κ}
    (hm : ∀ k v, m.get? k = some v → f v = k) (k : κ) :
    m.values.filter (fun v => decide (f v = k)) = (m.get? k).toList := by
  have hentries : m.values.filter (fun v => decide (f v = k)) =
      (m.entries.filter fun e => decide (e.1 = k)).map Prod.snd := by
    rw [values, List.filter_map]
    congr 1
    refine List.filter_congr fun e he => ?_
    rw [Function.comp_apply, hm e.1 e.2 (mem_entries_iff.mp he)]
  have hnil : ∀ es : List (κ × α), k ∉ es.map Prod.fst →
      (es.filter fun e => decide (e.1 = k)) = [] := by
    intro es hk
    refine List.filter_eq_nil_iff.mpr fun e he heq => hk ?_
    exact List.mem_map.mpr ⟨e, he, of_decide_eq_true heq⟩
  rw [hentries]
  cases hget : m.get? k with
  | none =>
    rw [hnil m.entries (not_mem_keys_of_get? hget)]
    rfl
  | some v =>
    obtain ⟨pre, post, he, hpre, hpost⟩ := exists_entries_eq hget
    rw [he, List.filter_append, List.filter_cons, hnil pre hpre, hnil post hpost]
    simp

/-- What only one entry contributes to. -/
theorem flatMap_entries_eq {β : Type*} {m : OrderedMap κ α} {k : κ} {v : α} {f : κ × α → List β}
    (h : m.get? k = some v) (hf : ∀ e ∈ m.entries, e.1 ≠ k → f e = []) :
    m.entries.flatMap f = f (k, v) := by
  obtain ⟨pre, post, he, hpre, hpost⟩ := exists_entries_eq h
  have hnil : ∀ es : List (κ × α), es ⊆ m.entries → k ∉ es.map Prod.fst → es.flatMap f = [] := by
    intro es hs hk
    refine List.flatMap_eq_nil_iff.mpr fun e hm => hf e (hs hm) ?_
    rintro rfl
    exact hk (List.mem_map_of_mem hm)
  rw [he, List.flatMap_append, List.flatMap_cons, hnil pre (by simp [he]) hpre,
    hnil post (by intro e hm; simp [he, hm]) hpost]
  simp

/-- The entries of a map of which all values are known, up to their order. -/
theorem entries_perm {β : Type*} {m : OrderedMap κ α} {l : List β} {key : β → κ} {val : β → α}
    (hn : (l.map key).Nodup) (hget : ∀ b ∈ l, m.get? (key b) = some (val b))
    (hkeys : ∀ k v, m.get? k = some v → k ∈ l.map key) :
    m.entries.Perm (l.map fun b => (key b, val b)) := by
  have hn' : (l.map fun b => (key b, val b)).Nodup := by
    refine @List.Nodup.of_map _ _ Prod.fst _ ?_
    rwa [List.map_map]
  rw [List.perm_ext_iff_of_nodup m.nodup_entries hn']
  rintro ⟨k, v⟩
  rw [mem_entries_iff, List.mem_map]
  constructor
  · intro h
    obtain ⟨b, hb, rfl⟩ := List.mem_map.mp (hkeys k v h)
    rw [hget b hb] at h
    exact ⟨b, hb, by rw [Option.some.inj h]⟩
  · rintro ⟨b, hb, heq⟩
    cases heq
    exact hget b hb

/-! ## Sizes of the values -/

/-- The size that a key holds. -/
def sizeAt (size : α → ℕ) (m : OrderedMap κ α) (k : κ) : ℕ := ((m.get? k).map size).getD 0

section Total

variable {size : α → ℕ} {m : OrderedMap κ α} {k : κ} {v : α}

theorem sizeAt_of_some (h : m.get? k = some v) : m.sizeAt size k = size v := by
  rw [sizeAt, h]
  rfl

theorem sizeAt_of_none (h : m.get? k = none) : m.sizeAt size k = 0 := by
  rw [sizeAt, h]
  rfl

@[simp] theorem sizeAt_set_self : (m.set k v).sizeAt size k = size v :=
  sizeAt_of_some (get?_set_self m k v)

@[simp] theorem sizeAt_erase_self : (m.erase k).sizeAt size k = 0 :=
  sizeAt_of_none (get?_erase_self m k)

/-- Setting a key trades the size it held for the new one. -/
theorem total_set : (m.set k v).total size + m.sizeAt size k = m.total size + size v := by
  cases hget : m.get? k with
  | none =>
    rw [sizeAt_of_none hget, total, values, entries_set_of_none v hget]
    simp [total, values]
  | some w =>
    obtain ⟨pre, post, he, hpre, -⟩ := exists_entries_eq hget
    have hset : (m.set k v).entries = pre ++ (k, v) :: post := by
      show setEntry k v m.entries = _
      rw [he]
      clear he
      induction pre with
      | nil => simp [setEntry]
      | cons e pre ih =>
        rw [List.map_cons, List.mem_cons, not_or] at hpre
        simp [setEntry, hpre.1, ih hpre.2]
    rw [sizeAt_of_some hget, total_of_entries hset, total_of_entries he]
    omega

/-- Erasing a key gives back the size it held. -/
theorem total_erase : (m.erase k).total size + m.sizeAt size k = m.total size := by
  cases hget : m.get? k with
  | none => rw [sizeAt_of_none hget, erase_of_none hget, Nat.add_zero]
  | some w =>
    obtain ⟨pre, post, he, hpre, hpost⟩ := exists_entries_eq hget
    rw [sizeAt_of_some hget, total_of_entries he, total, values,
      entries_erase_eq he hpre hpost, List.map_append, List.map_append, List.sum_append]
    omega

theorem erase_set : (m.set k v).erase k = m.erase k := by
  refine ext ?_
  show (setEntry k v m.entries).filter (fun e => decide (e.1 ≠ k)) =
    m.entries.filter fun e => decide (e.1 ≠ k)
  induction m.entries with
  | nil => simp [setEntry]
  | cons e es ih =>
    obtain ⟨k', w⟩ := e
    by_cases h : k = k'
    · simp [setEntry, h]
    · simp only [setEntry, if_neg h, List.filter_cons, ih]

theorem length_erase_le : (m.erase k).entries.length ≤ m.entries.length :=
  List.length_filter_le _ _

end Total

end OrderedMap

end RemotePi.Lib
