import Mathlib.Algebra.BigOperators.Group.Finset.Basic
import Mathlib.Algebra.Module.NatInt
import Mathlib.Algebra.Order.BigOperators.Group.Finset
import RemotePi.Lib.OrderedMap

/-!
# Pieces gathered by index

A list cut into pieces whose pieces come in any order, each with its index, and
are kept in a map until all are there.

Results:
* `Gathers.set`: one more piece.
* `Gathers.length_entries`, `Gathers.all_of_length`: counting tells when all are there.
* `Gathers.piecesUpTo`: then they give back the list.
-/

namespace RemotePi.Lib

variable {α : Type*}

/-- The map holds exactly the pieces of the list at the gathered indices. -/
structure Gathers (m : OrderedMap ℕ α) (pieces : List α) (got : Finset ℕ) : Prop where
  subset : got ⊆ Finset.range pieces.length
  get? : ∀ i, m.get? i = if i ∈ got then pieces[i]? else none

/-- The first pieces of a map in the order of their indices, when all of them are there. -/
def piecesUpTo (m : OrderedMap ℕ α) : ℕ → Option (List α)
  | 0 => some []
  | n + 1 => (piecesUpTo m n).bind fun l => (m.get? n).map fun a => l ++ [a]

/-- The size of the gathered pieces. -/
def gatheredSize (size : α → ℕ) (pieces : List α) (got : Finset ℕ) : ℕ :=
  ∑ i ∈ got, (pieces[i]?.map size).getD 0

section Gathers

variable {m : OrderedMap ℕ α} {pieces : List α} {got : Finset ℕ} {i : ℕ} {a : α}

theorem Gathers.empty (pieces : List α) : Gathers .empty pieces ∅ where
  subset := Finset.empty_subset _
  get? i := by simp

theorem Gathers.get?_of_mem (h : Gathers m pieces got) (hi : i ∈ got) :
    m.get? i = pieces[i]? := by
  rw [h.get?, if_pos hi]

theorem Gathers.get?_of_notMem (h : Gathers m pieces got) (hi : i ∉ got) : m.get? i = none := by
  rw [h.get?, if_neg hi]

theorem Gathers.set (h : Gathers m pieces got) (ha : pieces[i]? = some a) :
    Gathers (m.set i a) pieces (insert i got) where
  subset := by
    refine Finset.insert_subset (Finset.mem_range.mpr ?_) h.subset
    exact (List.getElem?_eq_some_iff.mp ha).1
  get? j := by
    rw [OrderedMap.get?_set, h.get?]
    by_cases hj : j = i
    · simp [hj, ha]
    · simp [hj]

theorem Gathers.toFinset_keys (h : Gathers m pieces got) : m.keys.toFinset = got := by
  ext i
  rw [List.mem_toFinset]
  constructor
  · intro hi
    obtain ⟨⟨k, a⟩, he, rfl⟩ := List.mem_map.mp hi
    by_contra hn
    have hget := OrderedMap.mem_entries_iff.mp he
    rw [h.get?_of_notMem hn] at hget
    cases hget
  · intro hi
    have hlt : i < pieces.length := Finset.mem_range.mp (h.subset hi)
    have hget : m.get? i = some pieces[i] := by
      rw [h.get?_of_mem hi, List.getElem?_eq_getElem hlt]
    exact List.mem_map.mpr ⟨_, OrderedMap.mem_entries_iff.mpr hget, rfl⟩

theorem Gathers.length_entries (h : Gathers m pieces got) : m.entries.length = got.card := by
  rw [← h.toFinset_keys, OrderedMap.keys, List.toFinset_card_of_nodup m.nodup, List.length_map]

/-- When as many pieces are there as the list has, all of them are. -/
theorem Gathers.all_of_card (h : Gathers m pieces got) (hcard : pieces.length ≤ got.card) :
    got = Finset.range pieces.length :=
  Finset.eq_of_subset_of_card_le h.subset (by simpa using hcard)

theorem Gathers.piecesUpTo (h : Gathers m pieces (Finset.range pieces.length)) :
    piecesUpTo m pieces.length = some pieces := by
  have htake : ∀ n ≤ pieces.length, Lib.piecesUpTo m n = some (pieces.take n) := by
    intro n hn
    induction n with
    | zero => rfl
    | succ n ih =>
      have hlt : n < pieces.length := by omega
      rw [Lib.piecesUpTo, ih (by omega), h.get?_of_mem (Finset.mem_range.mpr hlt),
        List.getElem?_eq_getElem hlt, List.take_add_one, List.getElem?_eq_getElem hlt]
      rfl
  rw [htake _ le_rfl, List.take_length]

theorem Gathers.values_perm (h : Gathers m pieces (Finset.range pieces.length)) :
    m.values.Perm pieces := by
  have hentries : m.entries.Perm (pieces.zipIdx.map fun p => (p.2, p.1)) := by
    refine OrderedMap.entries_perm ?_ ?_ ?_
    · rw [List.zipIdx_map_snd]
      exact List.nodup_range'
    · rintro ⟨a, i⟩ hp
      have hget := List.mem_zipIdx_iff_getElem?.mp hp
      rw [h.get?_of_mem (Finset.mem_range.mpr (List.getElem?_eq_some_iff.mp hget).1), hget]
    · intro i a hget
      have hi : i ∈ Finset.range pieces.length := by
        by_contra hn
        rw [h.get?_of_notMem hn] at hget
        cases hget
      rw [List.zipIdx_map_snd, List.mem_range']
      exact ⟨i, Finset.mem_range.mp hi, by omega⟩
  have := hentries.map Prod.snd
  rw [List.map_map] at this
  have hfst : pieces.zipIdx.map (Prod.snd ∘ fun p => (p.2, p.1)) = pieces := List.zipIdx_map_fst 0 _
  rwa [hfst] at this

end Gathers

section Size

variable {size : α → ℕ} {pieces : List α} {got : Finset ℕ} {i : ℕ} {a : α}

@[simp] theorem gatheredSize_empty : gatheredSize size pieces ∅ = 0 := rfl

theorem gatheredSize_insert (hi : i ∉ got) (ha : pieces[i]? = some a) :
    gatheredSize size pieces (insert i got) = gatheredSize size pieces got + size a := by
  rw [gatheredSize, Finset.sum_insert hi, ha]
  exact Nat.add_comm _ _

theorem gatheredSize_range (size : α → ℕ) (pieces : List α) :
    gatheredSize size pieces (Finset.range pieces.length) = (pieces.map size).sum := by
  unfold gatheredSize
  induction pieces with
  | nil => rfl
  | cons a pieces ih =>
    rw [List.length_cons, Finset.sum_range_succ', List.map_cons, List.sum_cons, ← ih]
    simp [Nat.add_comm]

theorem gatheredSize_le (h : got ⊆ Finset.range pieces.length) :
    gatheredSize size pieces got ≤ (pieces.map size).sum := by
  rw [← gatheredSize_range]
  exact Finset.sum_le_sum_of_subset h

end Size

end RemotePi.Lib
