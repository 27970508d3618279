import Mathlib.Data.Option.Basic
import Mathlib.Data.String.Basic
import RemotePi.Lib.JsonOrder

/-!
# JSON values that the host does not tell apart

Two values with distinct keys that are the same up to the order of their members. Arrays are
compared item by item, objects by what is found under each key.

Results:
* `rec_mem`: induction over a value, with the items and the members of a value.
* `alike_object_iff`, `alike_array_iff`: objects by their lookups, arrays by their items.
* `Alike.refl`, `Alike.symm`, `Alike.trans`: an equivalence on values with distinct keys.
* `holds_of_alike`: a test of the numbers and the keys of a value does not tell them apart.
-/

namespace RemotePi.Lib.Json

/-- Induction over a value. -/
theorem rec_mem {motive : Json → Prop} (null : motive .null) (bool : ∀ b, motive (.bool b))
    (number : ∀ q, motive (.number q)) (string : ∀ s, motive (.string s))
    (array : ∀ items, (∀ value ∈ items, motive value) → motive (.array items))
    (object : ∀ members, (∀ member ∈ members, motive member.2) → motive (.object members)) :
    ∀ value, motive value
  | .null => null
  | .bool b => bool b
  | .number q => number q
  | .string s => string s
  | .array items => array items fun value _ => rec_mem null bool number string array object value
  | .object members =>
    object members fun member _ => rec_mem null bool number string array object member.2
termination_by value => sizeOf value
decreasing_by
  · next h =>
    have := List.sizeOf_lt_of_mem h
    simp only [Json.array.sizeOf_spec]
    omega
  · next h =>
    have hmem := List.sizeOf_lt_of_mem h
    obtain ⟨key, value⟩ := member
    simp only [Json.object.sizeOf_spec, Prod.mk.sizeOf_spec] at hmem ⊢
    omega

mutual

/-- Every number and every key of the value passes its test. -/
def holds (number : ℚ → Bool) (key : String → Bool) : Json → Bool
  | .number q => number q
  | .array items => holdsItems number key items
  | .object members => holdsMembers number key members
  | _ => true

def holdsItems (number : ℚ → Bool) (key : String → Bool) : List Json → Bool
  | [] => true
  | value :: items => holds number key value && holdsItems number key items

def holdsMembers (number : ℚ → Bool) (key : String → Bool) : List (String × Json) → Bool
  | [] => true
  | (name, value) :: members =>
    key name && holds number key value && holdsMembers number key members

end

/-- Values with distinct keys that differ at most in the order of their members. -/
structure Alike (value value' : Json) : Prop where
  distinct : value.distinctKeys = true
  distinct' : value'.distinctKeys = true
  same : value.same value' = true

/-! ## Lookups -/

section Lookups

variable {α : Type} {members members' : List (String × α)} {key : String} {value : α}

theorem lookup_eq_none : members.lookup key = none ↔ key ∉ members.map Prod.fst := by
  rw [List.lookup_eq_none_iff]
  constructor
  · intro h hmem
    obtain ⟨member, hmember, rfl⟩ := List.mem_map.mp hmem
    simpa using h member hmember
  · intro h member hmember
    have hne : key ≠ member.1 := fun heq => h (heq ▸ List.mem_map.mpr ⟨member, hmember, rfl⟩)
    simpa using hne

theorem lookup_of_mem (hn : (members.map Prod.fst).Nodup) (h : (key, value) ∈ members) :
    members.lookup key = some value := by
  induction members with
  | nil => cases h
  | cons member members ih =>
    obtain ⟨key', value'⟩ := member
    rw [List.map_cons, List.nodup_cons] at hn
    rw [List.lookup_cons]
    rcases List.mem_cons.mp h with heq | hmem
    · cases heq
      rw [beq_self_eq_true]
    · have hne : key ≠ key' := fun heq => hn.1 (heq ▸ List.mem_map.mpr ⟨_, hmem, rfl⟩)
      rw [beq_eq_false_iff_ne.mpr hne]
      exact ih hn.2 hmem

theorem mem_of_lookup (h : members.lookup key = some value) : (key, value) ∈ members := by
  induction members with
  | nil => cases h
  | cons member members ih =>
    obtain ⟨key', value'⟩ := member
    rw [List.lookup_cons] at h
    by_cases hkey : (key == key') = true
    · rw [hkey] at h
      cases h
      rw [beq_iff_eq.mp hkey]
      exact List.mem_cons_self
    · rw [Bool.not_eq_true _ |>.mp hkey] at h
      exact List.mem_cons_of_mem _ (ih h)

theorem rel_some {β γ : Type} {r : β → γ → Prop} {a : β} {b : Option γ}
    (h : Option.Rel r (some a) b) : ∃ found, b = some found ∧ r a found := by
  cases h with
  | some h => exact ⟨_, rfl, h⟩

theorem some_rel {β γ : Type} {r : β → γ → Prop} {a : Option β} {b : γ}
    (h : Option.Rel r a (some b)) : ∃ found, a = some found ∧ r found b := by
  cases h with
  | some h => exact ⟨_, rfl, h⟩

/-- As many members under distinct keys, each of which is found among the others, are all of
them. -/
theorem rel_lookup {r : α → α → Prop} (hn : (members.map Prod.fst).Nodup)
    (hlength : members'.length = members.length)
    (h : ∀ member ∈ members, ∃ found, members'.lookup member.1 = some found ∧ r member.2 found)
    (key : String) : Option.Rel r (members.lookup key) (members'.lookup key) := by
  have hsubset : members.map Prod.fst ⊆ members'.map Prod.fst := by
    intro key hkey
    obtain ⟨member, hmem, rfl⟩ := List.mem_map.mp hkey
    obtain ⟨found, hfound, -⟩ := h member hmem
    exact List.mem_map.mpr ⟨_, mem_of_lookup hfound, rfl⟩
  have hperm : (members.map Prod.fst).Perm (members'.map Prod.fst) :=
    (List.subperm_of_subset hn hsubset).perm_of_length_le (by simp [hlength])
  cases hfound : members.lookup key with
  | none =>
    have hnone : members'.lookup key = none :=
      lookup_eq_none.mpr fun hmem => lookup_eq_none.mp hfound (hperm.mem_iff.mpr hmem)
    rw [hnone]
    exact Option.Rel.none
  | some value =>
    obtain ⟨found, hfound', hr⟩ := h _ (mem_of_lookup hfound)
    rw [hfound']
    exact Option.Rel.some hr

end Lookups

theorem sameMembers_iff {members members' : List (String × Json)} :
    sameMembers members members' = true ↔
      ∀ member ∈ members, ∃ found, members'.lookup member.1 = some found ∧
        same member.2 found = true := by
  induction members with
  | nil => simp [sameMembers]
  | cons member members ih =>
    obtain ⟨key, value⟩ := member
    rw [sameMembers, Bool.and_eq_true, ih, List.forall_mem_cons]
    refine and_congr_left fun _ => ?_
    cases members'.lookup key with
    | none => simp
    | some found => simp

theorem distinctItems_iff {items : List Json} :
    distinctItems items = true ↔ ∀ value ∈ items, value.distinctKeys = true := by
  induction items with
  | nil => simp [distinctItems]
  | cons value items ih => rw [distinctItems, Bool.and_eq_true, ih, List.forall_mem_cons]

theorem distinctMembers_iff {members : List (String × Json)} :
    distinctMembers members = true ↔ ∀ member ∈ members, member.2.distinctKeys = true := by
  induction members with
  | nil => simp [distinctMembers]
  | cons member members ih =>
    obtain ⟨key, value⟩ := member
    rw [distinctMembers, Bool.and_eq_true, ih, List.forall_mem_cons]

theorem distinctKeys_object {members : List (String × Json)} :
    distinctKeys (.object members) = true ↔
      (members.map Prod.fst).Nodup ∧ ∀ member ∈ members, member.2.distinctKeys = true := by
  rw [distinctKeys, Bool.and_eq_true, decide_eq_true_eq, distinctMembers_iff]

section Holds

variable {number : ℚ → Bool} {key : String → Bool}

theorem holdsItems_iff {items : List Json} :
    holdsItems number key items = true ↔ ∀ value ∈ items, holds number key value = true := by
  induction items with
  | nil => simp [holdsItems]
  | cons value items ih => rw [holdsItems, Bool.and_eq_true, ih, List.forall_mem_cons]

theorem holdsMembers_iff {members : List (String × Json)} :
    holdsMembers number key members = true ↔
      ∀ member ∈ members, key member.1 = true ∧ holds number key member.2 = true := by
  induction members with
  | nil => simp [holdsMembers]
  | cons member members ih =>
    obtain ⟨name, value⟩ := member
    rw [holdsMembers, Bool.and_eq_true, Bool.and_eq_true, ih, List.forall_mem_cons]

end Holds

/-! ## Objects and arrays -/

/-- Objects are alike when the same keys have values that are alike. -/
theorem alike_object_iff {members members' : List (String × Json)} :
    Alike (.object members) (.object members') ↔
      (members.map Prod.fst).Nodup ∧ (members'.map Prod.fst).Nodup ∧
        ∀ key, Option.Rel Alike (members.lookup key) (members'.lookup key) := by
  constructor
  · rintro ⟨hd, hd', hsame⟩
    obtain ⟨hn, hv⟩ := distinctKeys_object.mp hd
    obtain ⟨hn', hv'⟩ := distinctKeys_object.mp hd'
    rw [same, Bool.and_eq_true, decide_eq_true_eq] at hsame
    refine ⟨hn, hn', fun key => rel_lookup hn hsame.1.symm (fun member hmem => ?_) key⟩
    obtain ⟨found, hfound, hvalue⟩ := sameMembers_iff.mp hsame.2 member hmem
    exact ⟨found, hfound, hv _ hmem, hv' _ (mem_of_lookup hfound), hvalue⟩
  · rintro ⟨hn, hn', hrel⟩
    have hof : ∀ member ∈ members, ∃ found, members'.lookup member.1 = some found ∧
        Alike member.2 found := by
      intro member hmem
      have h := hrel member.1
      rw [lookup_of_mem hn hmem] at h
      exact rel_some h
    have hof' : ∀ member ∈ members', ∃ found, members.lookup member.1 = some found ∧
        Alike found member.2 := by
      intro member hmem
      have h := hrel member.1
      rw [lookup_of_mem hn' hmem] at h
      exact some_rel h
    have hkeys : (members.map Prod.fst).Perm (members'.map Prod.fst) := by
      refine (List.perm_ext_iff_of_nodup hn hn').mpr fun key => ?_
      constructor
      · intro hkey
        obtain ⟨member, hmem, rfl⟩ := List.mem_map.mp hkey
        obtain ⟨found, hfound, -⟩ := hof member hmem
        exact List.mem_map.mpr ⟨_, mem_of_lookup hfound, rfl⟩
      · intro hkey
        obtain ⟨member, hmem, rfl⟩ := List.mem_map.mp hkey
        obtain ⟨found, hfound, -⟩ := hof' member hmem
        exact List.mem_map.mpr ⟨_, mem_of_lookup hfound, rfl⟩
    have hlength : members.length = members'.length := by simpa using hkeys.length_eq
    refine ⟨distinctKeys_object.mpr ⟨hn, fun member hmem => ?_⟩,
      distinctKeys_object.mpr ⟨hn', fun member hmem => ?_⟩, ?_⟩
    · obtain ⟨found, -, halike⟩ := hof member hmem
      exact halike.distinct
    · obtain ⟨found, -, halike⟩ := hof' member hmem
      exact halike.distinct'
    · rw [same, Bool.and_eq_true, decide_eq_true_eq, sameMembers_iff]
      refine ⟨hlength, fun member hmem => ?_⟩
      obtain ⟨found, hfound, halike⟩ := hof member hmem
      exact ⟨found, hfound, halike.same⟩

theorem alike_items_iff {items items' : List Json} :
    (distinctItems items = true ∧ distinctItems items' = true ∧ sameItems items items' = true) ↔
      List.Forall₂ Alike items items' := by
  induction items generalizing items' with
  | nil => cases items' <;> simp [distinctItems, sameItems]
  | cons value items ih =>
    cases items' with
    | nil => simp [sameItems]
    | cons value' items' =>
      rw [distinctItems, distinctItems, sameItems, List.forall₂_cons, ← ih]
      simp only [Bool.and_eq_true]
      constructor
      · rintro ⟨⟨hd, hds⟩, ⟨hd', hds'⟩, hs, hss⟩
        exact ⟨⟨hd, hd', hs⟩, hds, hds', hss⟩
      · rintro ⟨⟨hd, hd', hs⟩, hds, hds', hss⟩
        exact ⟨⟨hd, hds⟩, ⟨hd', hds'⟩, hs, hss⟩

/-- Arrays are alike when their items are alike. -/
theorem alike_array_iff {items items' : List Json} :
    Alike (.array items) (.array items') ↔ List.Forall₂ Alike items items' := by
  rw [← alike_items_iff]
  constructor
  · rintro ⟨hd, hd', hs⟩
    rw [distinctKeys] at hd hd'
    rw [same] at hs
    exact ⟨hd, hd', hs⟩
  · rintro ⟨hd, hd', hs⟩
    exact ⟨by rw [distinctKeys]; exact hd, by rw [distinctKeys]; exact hd', by rw [same]; exact hs⟩

/-! ## An equivalence -/

/-- The order of the strings. -/
def keyOrder : KeyOrder where
  le left right := decide (left ≤ right)
  trans a b c hab hbc := decide_eq_true ((of_decide_eq_true hab).trans (of_decide_eq_true hbc))
  total a b := by
    rw [Bool.or_eq_true, decide_eq_true_eq, decide_eq_true_eq]
    exact le_total a b
  antisymm a b hab hba := le_antisymm (of_decide_eq_true hab) (of_decide_eq_true hba)

section Equivalence

variable {a b c : Json}

theorem Alike.refl (h : a.distinctKeys = true) : Alike a a := ⟨h, h, same_refl keyOrder h⟩

theorem Alike.symm (h : Alike a b) : Alike b a :=
  ⟨h.distinct', h.distinct, same_symm keyOrder h.distinct h.distinct' h.same⟩

theorem Alike.trans (h : Alike a b) (h' : Alike b c) : Alike a c :=
  ⟨h.distinct, h'.distinct',
    same_trans keyOrder h.distinct h.distinct' h'.distinct' h.same h'.same⟩

end Equivalence

/-! ## Tests of numbers and keys -/

theorem exists_of_forall₂ {α β : Type} {r : α → β → Prop} {l : List α} {l' : List β}
    (h : List.Forall₂ r l l') {b : β} (hb : b ∈ l') : ∃ a ∈ l, r a b := by
  induction h with
  | nil => cases hb
  | cons hr h ih =>
    rcases List.mem_cons.mp hb with rfl | hb
    · exact ⟨_, List.mem_cons_self, hr⟩
    · obtain ⟨a, ha, hr⟩ := ih hb
      exact ⟨a, List.mem_cons_of_mem _ ha, hr⟩

theorem holds_of_alike {number : ℚ → Bool} {key : String → Bool} {value value' : Json}
    (h : Alike value value') (hvalue : value.holds number key = true) :
    value'.holds number key = true := by
  induction value using rec_mem generalizing value' with
  | null | bool b | string s =>
    have hsame := h.same
    cases value' <;> first | rfl | cases hsame
  | number q =>
    have hsame := h.same
    cases value' with
    | number q' =>
      rw [same, decide_eq_true_eq] at hsame
      rw [← hsame]
      exact hvalue
    | _ => cases hsame
  | array items ih =>
    cases value' with
    | array items' =>
      rw [holds, holdsItems_iff] at hvalue ⊢
      have hitems := alike_array_iff.mp h
      intro value' hmem'
      obtain ⟨value, hmem, halike⟩ := exists_of_forall₂ hitems hmem'
      exact ih value hmem halike (hvalue value hmem)
    | _ => cases h.same
  | object members ih =>
    cases value' with
    | object members' =>
      rw [holds, holdsMembers_iff] at hvalue ⊢
      obtain ⟨hn, hn', hrel⟩ := alike_object_iff.mp h
      intro member' hmem'
      have hfound := hrel member'.1
      rw [lookup_of_mem hn' hmem'] at hfound
      obtain ⟨value, hvalue', halike⟩ := some_rel hfound
      have hmem := mem_of_lookup hvalue'
      exact ⟨(hvalue _ hmem).1, ih _ hmem halike (hvalue _ hmem).2⟩
    | _ => cases h.same

end RemotePi.Lib.Json
