import Mathlib.Data.List.Perm.Subperm
import Mathlib.Data.List.Nodup
import Mathlib.Data.Rat.Encodable
import Mathlib.Logic.Equiv.List
import RemotePi.Lib.Json

/-!
# JSON values up to the order of their members

Two values are the same when they differ at most in the order of the members of their
objects. A value whose members are sorted by an order on the keys is a normal form for it.

Results:
* `sortKeys_eq_iff`: the values with the same normal form are the values that are the same.
* `same_refl`, `same_symm`, `same_trans`: being the same is an equivalence.
* `distinctKeys_dropKey`: leaving a key out keeps the keys of a value distinct.
-/

namespace RemotePi.Lib

namespace Json

mutual

/-- Every object of the value has distinct keys, as the objects of the language have. -/
def distinctKeys : Json → Bool
  | .array items => distinctItems items
  | .object members => decide (members.map Prod.fst).Nodup && distinctMembers members
  | _ => true

/-- The keys of each item are distinct. -/
def distinctItems : List Json → Bool
  | [] => true
  | value :: items => distinctKeys value && distinctItems items

/-- The keys of each member's value are distinct. -/
def distinctMembers : List (String × Json) → Bool
  | [] => true
  | (_, value) :: members => distinctKeys value && distinctMembers members

end

mutual

/-- The values are equal but for the order of their members. -/
def same : Json → Json → Bool
  | .null, .null => true
  | .bool a, .bool b => decide (a = b)
  | .number a, .number b => decide (a = b)
  | .string a, .string b => decide (a = b)
  | .array items, .array items' => sameItems items items'
  | .object members, .object members' =>
    decide (members.length = members'.length) && sameMembers members members'
  | _, _ => false

/-- The items are the same one by one. -/
def sameItems : List Json → List Json → Bool
  | [], [] => true
  | value :: items, value' :: items' => same value value' && sameItems items items'
  | _, _ => false

/-- The second list has a member that is the same for each member of the first. -/
def sameMembers : List (String × Json) → List (String × Json) → Bool
  | [], _ => true
  | (key, value) :: members, members' =>
    (match members'.lookup key with
      | some value' => same value value'
      | none => false) && sameMembers members members'

end

mutual

/-- The value without the members of a key. -/
def dropKey (dropped : String) : Json → Json
  | .array items => .array (dropKeyItems dropped items)
  | .object members => .object (dropKeyMembers dropped members)
  | value => value

/-- The items without the members of a key. -/
def dropKeyItems (dropped : String) : List Json → List Json
  | [] => []
  | value :: items => dropKey dropped value :: dropKeyItems dropped items

/-- The members without those of a key. -/
def dropKeyMembers (dropped : String) : List (String × Json) → List (String × Json)
  | [] => []
  | (key, value) :: members =>
    if key = dropped then dropKeyMembers dropped members
    else (key, dropKey dropped value) :: dropKeyMembers dropped members

end

/-- A linear order on keys. -/
structure KeyOrder where
  le : String → String → Bool
  trans : ∀ a b c, le a b = true → le b c = true → le a c = true
  total : ∀ a b, (le a b || le b a) = true
  antisymm : ∀ a b, le a b = true → le b a = true → a = b

section SortKeys

variable (order : KeyOrder)

/-- The members in the order of their keys. -/
def sortByKey (members : List (String × Json)) : List (String × Json) :=
  members.mergeSort fun left right => order.le left.1 right.1

mutual

/-- The value with the members of every object sorted. -/
def sortKeys : Json → Json
  | .array items => .array (sortKeysItems items)
  | .object members => .object (sortByKey order (sortKeysMembers members))
  | value => value

/-- The items with sorted keys. -/
def sortKeysItems : List Json → List Json
  | [] => []
  | value :: items => sortKeys value :: sortKeysItems items

/-- The members with their values sorted, in the order that they have. -/
def sortKeysMembers : List (String × Json) → List (String × Json)
  | [] => []
  | (key, value) :: members => (key, sortKeys value) :: sortKeysMembers members

end

end SortKeys

/-! ## Keys left out -/

theorem keys_dropKeyMembers (dropped : String) (members : List (String × Json)) :
    (dropKeyMembers dropped members).map Prod.fst =
      (members.map Prod.fst).filter fun key => decide (key ≠ dropped) := by
  induction members with
  | nil => simp [dropKeyMembers]
  | cons member members ih =>
    obtain ⟨key, value⟩ := member
    rw [dropKeyMembers, List.map_cons]
    by_cases hkey : key = dropped
    · rw [if_pos hkey, ih, List.filter_cons_of_neg (by simpa using hkey)]
    · rw [if_neg hkey, List.map_cons, ih, List.filter_cons_of_pos (by simpa using hkey)]

mutual

theorem distinctKeys_dropKey (dropped : String) : ∀ value : Json, distinctKeys value = true →
    distinctKeys (dropKey dropped value) = true
  | .null, h => h
  | .bool _, h => h
  | .number _, h => h
  | .string _, h => h
  | .array items, h => by
    rw [distinctKeys] at h
    rw [dropKey, distinctKeys]
    exact distinctItems_dropKey dropped items h
  | .object members, h => by
    rw [distinctKeys, Bool.and_eq_true, decide_eq_true_eq] at h
    rw [dropKey, distinctKeys, Bool.and_eq_true, decide_eq_true_eq, keys_dropKeyMembers]
    exact ⟨h.1.filter _, distinctMembers_dropKey dropped members h.2⟩

theorem distinctItems_dropKey (dropped : String) : ∀ items : List Json,
    distinctItems items = true → distinctItems (dropKeyItems dropped items) = true
  | [], h => h
  | value :: items, h => by
    rw [distinctItems, Bool.and_eq_true] at h
    rw [dropKeyItems, distinctItems, Bool.and_eq_true]
    exact ⟨distinctKeys_dropKey dropped value h.1, distinctItems_dropKey dropped items h.2⟩

theorem distinctMembers_dropKey (dropped : String) : ∀ members : List (String × Json),
    distinctMembers members = true → distinctMembers (dropKeyMembers dropped members) = true
  | [], h => h
  | (key, value) :: members, h => by
    rw [distinctMembers, Bool.and_eq_true] at h
    rw [dropKeyMembers]
    by_cases hkey : key = dropped
    · rw [if_pos hkey]
      exact distinctMembers_dropKey dropped members h.2
    · rw [if_neg hkey, distinctMembers, Bool.and_eq_true]
      exact ⟨distinctKeys_dropKey dropped value h.1, distinctMembers_dropKey dropped members h.2⟩

end

theorem lookup_dropKeyMembers {dropped key : String} (hkey : key ≠ dropped)
    (members : List (String × Json)) :
    (dropKeyMembers dropped members).lookup key = (members.lookup key).map (dropKey dropped) := by
  induction members with
  | nil => simp [dropKeyMembers]
  | cons member members ih =>
    obtain ⟨key', value⟩ := member
    rw [dropKeyMembers, List.lookup_cons]
    by_cases hdropped : key' = dropped
    · have hne : (key == key') = false := by
        rw [hdropped]
        simpa using hkey
      rw [if_pos hdropped, ih, hne]
    · rw [if_neg hdropped, List.lookup_cons, ih]
      cases (key == key') <;> rfl

/-- The keys of members that are found among others. -/
theorem keys_subset_of_sameMembers {members members' : List (String × Json)}
    (h : sameMembers members members' = true) :
    ∀ key ∈ members.map Prod.fst, key ∈ members'.map Prod.fst := by
  induction members with
  | nil => simp
  | cons member members ih =>
    obtain ⟨key, value⟩ := member
    rw [sameMembers, Bool.and_eq_true] at h
    rw [List.map_cons, List.forall_mem_cons]
    refine ⟨?_, ih h.2⟩
    cases hfound : members'.lookup key with
    | none => simp [hfound] at h
    | some found =>
      by_contra hnot
      have hnone : members'.lookup key = none := by
        rw [List.lookup_eq_none_iff]
        intro p hp
        have hne : key ≠ p.1 := fun heq => hnot (heq ▸ List.mem_map.mpr ⟨p, hp, rfl⟩)
        simpa using hne
      rw [hnone] at hfound
      cases hfound

/-- Objects that are the same lose as many members to a key. -/
theorem length_dropKeyMembers_of_same {dropped : String} {members members' : List (String × Json)}
    (hn : (members.map Prod.fst).Nodup) (hlength : members.length = members'.length)
    (h : sameMembers members members' = true) :
    (dropKeyMembers dropped members).length = (dropKeyMembers dropped members').length := by
  have hperm : (members.map Prod.fst).Perm (members'.map Prod.fst) :=
    (List.subperm_of_subset hn (keys_subset_of_sameMembers h)).perm_of_length_le (by simp [hlength])
  rw [← List.length_map Prod.fst, ← List.length_map Prod.fst, keys_dropKeyMembers,
    keys_dropKeyMembers]
  exact (hperm.filter _).length_eq

mutual

/-- Values that are the same stay so without the members of a key. -/
theorem same_dropKey (dropped : String) : ∀ value value' : Json, distinctKeys value = true →
    same value value' = true → same (dropKey dropped value) (dropKey dropped value') = true
  | .null, value', _, h => by cases value' <;> simp [same] at h; rfl
  | .bool a, value', _, h => by cases value' <;> simp [same] at h; simp [dropKey, same, h]
  | .number a, value', _, h => by cases value' <;> simp [same] at h; simp [dropKey, same, h]
  | .string a, value', _, h => by cases value' <;> simp [same] at h; simp [dropKey, same, h]
  | .array items, value', hd, h => by
    cases value' with
    | array items' =>
      rw [distinctKeys] at hd
      rw [same] at h
      rw [dropKey, dropKey, same]
      exact sameItems_dropKey dropped items items' hd h
    | _ => simp [same] at h
  | .object members, value', hd, h => by
    cases value' with
    | object members' =>
      rw [distinctKeys, Bool.and_eq_true, decide_eq_true_eq] at hd
      rw [same, Bool.and_eq_true, decide_eq_true_eq] at h
      rw [dropKey, dropKey, same, Bool.and_eq_true, decide_eq_true_eq]
      exact ⟨length_dropKeyMembers_of_same hd.1 h.1 h.2,
        sameMembers_dropKey dropped members members' hd.2 h.2⟩
    | _ => simp [same] at h

theorem sameItems_dropKey (dropped : String) : ∀ items items' : List Json,
    distinctItems items = true → sameItems items items' = true →
      sameItems (dropKeyItems dropped items) (dropKeyItems dropped items') = true
  | [], [], _, _ => by simp [dropKeyItems, sameItems]
  | [], _ :: _, _, h => by simp [sameItems] at h
  | _ :: _, [], _, h => by simp [sameItems] at h
  | value :: items, value' :: items', hd, h => by
    rw [distinctItems, Bool.and_eq_true] at hd
    rw [sameItems, Bool.and_eq_true] at h
    rw [dropKeyItems, dropKeyItems, sameItems, Bool.and_eq_true]
    exact ⟨same_dropKey dropped value value' hd.1 h.1,
      sameItems_dropKey dropped items items' hd.2 h.2⟩

theorem sameMembers_dropKey (dropped : String) : ∀ members members' : List (String × Json),
    distinctMembers members = true → sameMembers members members' = true →
      sameMembers (dropKeyMembers dropped members) (dropKeyMembers dropped members') = true
  | [], members', _, _ => by simp [dropKeyMembers, sameMembers]
  | (key, value) :: members, members', hd, h => by
    rw [distinctMembers, Bool.and_eq_true] at hd
    rw [sameMembers, Bool.and_eq_true] at h
    have hrest := sameMembers_dropKey dropped members members' hd.2 h.2
    rw [dropKeyMembers]
    by_cases hkey : key = dropped
    · rw [if_pos hkey]
      exact hrest
    · rw [if_neg hkey, sameMembers, Bool.and_eq_true, lookup_dropKeyMembers hkey]
      refine ⟨?_, hrest⟩
      cases hfound : members'.lookup key with
      | none => simp [hfound] at h
      | some found =>
        simp only [hfound] at h
        exact same_dropKey dropped value found hd.1 h.1

end

/-! ## Sorted members -/

section Members

variable {order : KeyOrder}

theorem keys_sortKeysMembers (members : List (String × Json)) :
    (sortKeysMembers order members).map Prod.fst = members.map Prod.fst := by
  induction members with
  | nil => simp [sortKeysMembers]
  | cons member members ih =>
    obtain ⟨key, value⟩ := member
    rw [sortKeysMembers, List.map_cons, List.map_cons, ih]

theorem length_sortKeysMembers (members : List (String × Json)) :
    (sortKeysMembers order members).length = members.length := by
  rw [← List.length_map Prod.fst, keys_sortKeysMembers, List.length_map]

/-- The value of a member that is found, sorted. -/
theorem mem_sortKeysMembers {members : List (String × Json)}
    (hn : (members.map Prod.fst).Nodup) {key : String} {value : Json} :
    (key, value) ∈ sortKeysMembers order members ↔
      ∃ found, members.lookup key = some found ∧ sortKeys order found = value := by
  induction members with
  | nil => simp [sortKeysMembers]
  | cons member members ih =>
    obtain ⟨key', value'⟩ := member
    rw [List.map_cons, List.nodup_cons] at hn
    rw [sortKeysMembers, List.mem_cons, ih hn.2, List.lookup_cons]
    by_cases hkey : key = key'
    · subst hkey
      have hnone : members.lookup key = none := by
        rw [List.lookup_eq_none_iff]
        intro p hp
        have hne : key ≠ p.1 := by
          intro heq
          exact hn.1 (heq ▸ List.mem_map.mpr ⟨p, hp, rfl⟩)
        simpa using hne
      simp [hnone, eq_comm]
    · have hfalse : (key == key') = false := by simpa using hkey
      simp [hfalse, hkey]

/-- Sorting lists of members with distinct keys decides whether they have the same members. -/
theorem sortByKey_eq_iff {members members' : List (String × Json)}
    (hn : (members.map Prod.fst).Nodup) (hn' : (members'.map Prod.fst).Nodup) :
    sortByKey order members = sortByKey order members' ↔
      members.length = members'.length ∧ ∀ member ∈ members, member ∈ members' := by
  have hperm := List.mergeSort_perm members fun left right => order.le left.1 right.1
  have hperm' := List.mergeSort_perm members' fun left right => order.le left.1 right.1
  constructor
  · intro h
    have hp : members.Perm members' := hperm.symm.trans (by rw [← sortByKey, h]; exact hperm')
    exact ⟨hp.length_eq, fun member hm => hp.mem_iff.mp hm⟩
  · intro ⟨hlength, hsub⟩
    have hp : members.Perm members' :=
      (List.subperm_of_subset (List.Nodup.of_map _ hn) hsub).perm_of_length_le hlength.ge
    have hsorted : ∀ l : List (String × Json),
        (sortByKey order l).Pairwise fun left right => order.le left.1 right.1 = true := by
      intro l
      exact List.pairwise_mergeSort (fun a b c => order.trans a.1 b.1 c.1)
        (fun a b => order.total a.1 b.1) l
    refine List.Perm.eq_of_pairwise ?_ (hsorted members) (hsorted members')
      (hperm.trans (hp.trans hperm'.symm))
    intro a b ha hb hab hba
    have hkey := order.antisymm a.1 b.1 hab hba
    exact List.inj_on_of_nodup_map hn' (hp.mem_iff.mp (hperm.mem_iff.mp ha))
      (hperm'.mem_iff.mp hb) hkey

end Members

/-! ## Normal forms -/

section Normal

variable {order : KeyOrder}

theorem distinctMembers_of_lookup {members : List (String × Json)} {key : String} {value : Json}
    (h : distinctMembers members = true) (hvalue : members.lookup key = some value) :
    distinctKeys value = true := by
  induction members with
  | nil => cases hvalue
  | cons member members ih =>
    obtain ⟨key', value'⟩ := member
    rw [distinctMembers, Bool.and_eq_true] at h
    rw [List.lookup_cons] at hvalue
    by_cases hkey : (key == key') = true
    · rw [hkey] at hvalue
      cases hvalue
      exact h.1
    · rw [Bool.not_eq_true _ |>.mp hkey] at hvalue
      exact ih h.2 hvalue

mutual

/-- **Normal forms**: values of distinct keys are the same exactly when sorting their members
    gives one value. -/
theorem sortKeys_eq_iff : ∀ (value value' : Json), distinctKeys value = true →
    distinctKeys value' = true → (sortKeys order value = sortKeys order value' ↔ same value value' = true)
  | .null, value', _, _ => by cases value' <;> simp [sortKeys, same]
  | .bool a, value', _, _ => by cases value' <;> simp [sortKeys, same]
  | .number a, value', _, _ => by cases value' <;> simp [sortKeys, same]
  | .string a, value', _, _ => by cases value' <;> simp [sortKeys, same]
  | .array items, value', h, h' => by
    cases value' with
    | array items' =>
      rw [distinctKeys] at h h'
      rw [sortKeys, sortKeys, same, Json.array.injEq]
      exact sortKeysItems_eq_iff items items' h h'
    | _ => simp [sortKeys, same]
  | .object members, value', h, h' => by
    cases value' with
    | object members' =>
      rw [distinctKeys, Bool.and_eq_true, decide_eq_true_eq] at h h'
      rw [sortKeys, sortKeys, same, Json.object.injEq, Bool.and_eq_true, decide_eq_true_eq,
        sortByKey_eq_iff (by rw [keys_sortKeysMembers]; exact h.1)
          (by rw [keys_sortKeysMembers]; exact h'.1),
        length_sortKeysMembers, length_sortKeysMembers,
        mem_sortKeysMembers_iff members members' h.2 h'.1 h'.2]
    | _ => simp [sortKeys, same]

theorem sortKeysItems_eq_iff : ∀ (items items' : List Json), distinctItems items = true →
    distinctItems items' = true →
      (sortKeysItems order items = sortKeysItems order items' ↔ sameItems items items' = true)
  | [], [], _, _ => by simp [sameItems]
  | [], _ :: _, _, _ => by simp [sortKeysItems, sameItems]
  | _ :: _, [], _, _ => by simp [sortKeysItems, sameItems]
  | value :: items, value' :: items', h, h' => by
    rw [distinctItems, Bool.and_eq_true] at h h'
    rw [sortKeysItems, sortKeysItems, sameItems, List.cons.injEq, Bool.and_eq_true,
      sortKeys_eq_iff value value' h.1 h'.1, sortKeysItems_eq_iff items items' h.2 h'.2]

theorem mem_sortKeysMembers_iff : ∀ (members members' : List (String × Json)),
    distinctMembers members = true → (members'.map Prod.fst).Nodup →
      distinctMembers members' = true →
        ((∀ member ∈ sortKeysMembers order members, member ∈ sortKeysMembers order members') ↔
          sameMembers members members' = true)
  | [], members', _, _, _ => by simp [sortKeysMembers, sameMembers]
  | (key, value) :: members, members', h, hn, h' => by
    rw [distinctMembers, Bool.and_eq_true] at h
    rw [sortKeysMembers, sameMembers, List.forall_mem_cons, Bool.and_eq_true,
      mem_sortKeysMembers_iff members members' h.2 hn h', mem_sortKeysMembers hn]
    refine and_congr_left fun _ => ?_
    cases hfound : members'.lookup key with
    | none => simp
    | some found =>
      have hvalue := sortKeys_eq_iff value found h.1 (distinctMembers_of_lookup h' hfound)
      simp only [Option.some.injEq, exists_eq_left', ← hvalue, eq_comm]

end

theorem same_refl (order : KeyOrder) {value : Json} (h : distinctKeys value = true) :
    same value value = true := (@sortKeys_eq_iff order value value h h).mp rfl

theorem same_symm (order : KeyOrder) {value value' : Json} (h : distinctKeys value = true)
    (h' : distinctKeys value' = true) (hs : same value value' = true) :
    same value' value = true :=
  (@sortKeys_eq_iff order value' value h' h).mp ((sortKeys_eq_iff value value' h h').mpr hs).symm

theorem same_trans (order : KeyOrder) {a b c : Json} (ha : distinctKeys a = true)
    (hb : distinctKeys b = true) (hc : distinctKeys c = true) (hab : same a b = true)
    (hbc : same b c = true) : same a c = true := by
  have heq : sortKeys order a = sortKeys order c :=
    ((sortKeys_eq_iff a b ha hb).mpr hab).trans ((sortKeys_eq_iff b c hb hc).mpr hbc)
  exact (sortKeys_eq_iff a c ha hc).mp heq

end Normal

/-! ## Values as numbers -/

mutual

/-- A number that determines the value. -/
def code : Json → ℕ
  | .null => Nat.pair 0 0
  | .bool value => Nat.pair 1 (Encodable.encode value)
  | .number value => Nat.pair 2 (Nat.pair (Encodable.encode value.num) value.den)
  | .string value => Nat.pair 3 (Encodable.encode (value.toList.map Char.toNat))
  | .array items => Nat.pair 4 (codeItems items)
  | .object members => Nat.pair 5 (codeMembers members)

/-- The number of a list of items. -/
def codeItems : List Json → ℕ
  | [] => 0
  | value :: items => Nat.pair (code value) (codeItems items) + 1

/-- The number of a list of members. -/
def codeMembers : List (String × Json) → ℕ
  | [] => 0
  | (key, value) :: members =>
    Nat.pair (Encodable.encode (key.toList.map Char.toNat))
      (Nat.pair (code value) (codeMembers members)) + 1

end

theorem encode_units_inj {s t : String}
    (h : Encodable.encode (s.toList.map Char.toNat) = Encodable.encode (t.toList.map Char.toNat)) :
    s = t := by
  have hmap := Encodable.encode_injective h
  have hinj : Function.Injective Char.toNat := fun _ _ heq => Char.toNat_inj.mp heq
  exact String.toList_inj.mp (hinj.list_map hmap)

mutual

theorem code_inj : ∀ {value value' : Json}, code value = code value' → value = value'
  | .null, value', h => by
    cases value' <;> simp [code, Nat.pair_eq_pair] at h ⊢
  | .bool a, value', h => by
    cases value' <;> simp [code, Nat.pair_eq_pair] at h ⊢
    exact h
  | .number a, value', h => by
    cases value' <;> simp [code, Nat.pair_eq_pair] at h ⊢
    exact Rat.ext h.1 h.2
  | .string a, value', h => by
    cases value' with
    | string b =>
      rw [code, code, Nat.pair_eq_pair] at h
      rw [encode_units_inj h.2]
    | _ => simp [code, Nat.pair_eq_pair] at h
  | .array items, value', h => by
    cases value' with
    | array items' =>
      rw [code, code, Nat.pair_eq_pair] at h
      rw [codeItems_inj h.2]
    | _ => simp [code, Nat.pair_eq_pair] at h
  | .object members, value', h => by
    cases value' with
    | object members' =>
      rw [code, code, Nat.pair_eq_pair] at h
      rw [codeMembers_inj h.2]
    | _ => simp [code, Nat.pair_eq_pair] at h

theorem codeItems_inj : ∀ {items items' : List Json}, codeItems items = codeItems items' →
    items = items'
  | [], [], _ => rfl
  | [], _ :: _, h => by simp [codeItems] at h
  | _ :: _, [], h => by simp [codeItems] at h
  | value :: items, value' :: items', h => by
    rw [codeItems, codeItems, Nat.succ_inj, Nat.pair_eq_pair] at h
    rw [code_inj h.1, codeItems_inj h.2]

theorem codeMembers_inj : ∀ {members members' : List (String × Json)},
    codeMembers members = codeMembers members' → members = members'
  | [], [], _ => rfl
  | [], _ :: _, h => by simp [codeMembers] at h
  | _ :: _, [], h => by simp [codeMembers] at h
  | (key, value) :: members, (key', value') :: members', h => by
    rw [codeMembers, codeMembers, Nat.succ_inj, Nat.pair_eq_pair, Nat.pair_eq_pair] at h
    rw [encode_units_inj h.1, code_inj h.2.1, codeMembers_inj h.2.2]

end

end Json

end RemotePi.Lib
