import Mathlib.Data.List.Basic

/-!
# Lists taken in slices

A loop that goes through a list from an offset to the end that a function gives for it, and
takes the slice between them.

Results:
* `exists_slices`: when every end lies beyond its offset and in the list, the loop ends.
* `Slices.flatten`: the slices are the list.
* `Slices.cut`: where the list is cut is an end.
-/

namespace RemotePi.Lib

variable {α : Type*}

/-- `slice` of an ECMAScript string or array, with the start before the end. -/
def slice (xs : List α) (start stop : ℕ) : List α := (xs.drop start).take (stop - start)

/-- The loop from an offset, with the slices that have been taken; none when the fuel does
    not last. -/
def sliceLoop (stop : ℕ → ℕ) (xs : List α) : ℕ → ℕ → List (List α) → Option (List (List α))
  | 0, _, _ => none
  | fuel + 1, offset, taken =>
    if offset < xs.length then
      sliceLoop stop xs fuel (stop offset) (taken ++ [slice xs offset (stop offset)])
    else some taken

/-- The slices of a list from an offset. -/
inductive Slices (stop : ℕ → ℕ) (xs : List α) : ℕ → List (List α) → Prop
  | done {offset : ℕ} : xs.length ≤ offset → Slices stop xs offset []
  | next {offset : ℕ} {rest : List (List α)} : offset < xs.length →
      Slices stop xs (stop offset) rest →
      Slices stop xs offset (slice xs offset (stop offset) :: rest)

/-- Every end lies beyond its offset and in the list. -/
def Advances (stop : ℕ → ℕ) (n : ℕ) : Prop :=
  ∀ offset, offset < n → offset < stop offset ∧ stop offset ≤ n

section Slices

variable {stop : ℕ → ℕ} {xs : List α} {offset : ℕ} {chunks : List (List α)}

theorem length_slice {start stop : ℕ} (h : stop ≤ xs.length) :
    (slice xs start stop).length = stop - start := by
  rw [slice, List.length_take, List.length_drop]
  omega

theorem slice_append_drop {start stop : ℕ} (h : start ≤ stop) :
    slice xs start stop ++ xs.drop stop = xs.drop start := by
  have hdrop : xs.drop stop = (xs.drop start).drop (stop - start) := by
    rw [List.drop_drop]
    congr 1
    omega
  rw [slice, hdrop, List.take_append_drop]

/-- The loop ends with the slices, whatever the fuel beyond what is left of the list. -/
theorem exists_slices (h : Advances stop xs.length) (offset : ℕ) :
    ∃ chunks, Slices stop xs offset chunks ∧ ∀ fuel taken, xs.length - offset < fuel →
      sliceLoop stop xs fuel offset taken = some (taken ++ chunks) := by
  induction hleft : xs.length - offset using Nat.strongRecOn generalizing offset with
  | ind left ih =>
    by_cases hoffset : offset < xs.length
    · obtain ⟨hbeyond, hwithin⟩ := h offset hoffset
      obtain ⟨rest, hslices, hloop⟩ :=
        ih (xs.length - stop offset) (by omega) (stop offset) rfl
      refine ⟨slice xs offset (stop offset) :: rest, .next hoffset hslices, ?_⟩
      intro fuel taken hfuel
      obtain ⟨fuel, rfl⟩ : ∃ n, fuel = n + 1 := ⟨fuel - 1, by omega⟩
      rw [sliceLoop, if_pos hoffset, hloop fuel _ (by omega), List.append_assoc]
      rfl
    · refine ⟨[], .done (by omega), ?_⟩
      intro fuel taken hfuel
      obtain ⟨fuel, rfl⟩ : ∃ n, fuel = n + 1 := ⟨fuel - 1, by omega⟩
      rw [sliceLoop, if_neg hoffset, List.append_nil]

/-- What the loop gives, however much fuel it has used. -/
theorem slices_of_sliceLoop {fuel : ℕ} {taken result : List (List α)}
    (h : sliceLoop stop xs fuel offset taken = some result) :
    ∃ chunks, Slices stop xs offset chunks ∧ result = taken ++ chunks := by
  induction fuel generalizing offset taken with
  | zero => cases h
  | succ fuel ih =>
    rw [sliceLoop] at h
    split_ifs at h with hoffset
    · obtain ⟨rest, hslices, hresult⟩ := ih h
      refine ⟨slice xs offset (stop offset) :: rest, .next hoffset hslices, ?_⟩
      rw [hresult, List.append_assoc]
      rfl
    · cases h
      exact ⟨[], .done (Nat.le_of_not_lt hoffset), (List.append_nil _).symm⟩

/-- Together the slices are what follows the offset. -/
theorem Slices.flatten (h : Advances stop xs.length) (hs : Slices stop xs offset chunks) :
    chunks.flatten = xs.drop offset := by
  induction hs with
  | done hend => rw [List.flatten_nil, List.drop_eq_nil_of_le hend]
  | next hoffset _ ih =>
    rw [List.flatten_cons, ih, slice_append_drop (Nat.le_of_lt (h _ hoffset).1)]

theorem Slices.mem (hs : Slices stop xs offset chunks) {chunk : List α} (hc : chunk ∈ chunks) :
    ∃ start < xs.length, chunk = slice xs start (stop start) := by
  induction hs with
  | done => cases hc
  | @next offset rest hoffset _ ih =>
    rcases List.mem_cons.mp hc with rfl | hc
    · exact ⟨offset, hoffset, rfl⟩
    · exact ih hc

/-- Where the list is cut behind a slice is the end of one. -/
theorem Slices.cut (h : Advances stop xs.length) (hs : Slices stop xs offset chunks)
    {before after : List (List α)} (hsplit : chunks = before ++ after) (hne : before ≠ []) :
    ∃ start < xs.length, offset + before.flatten.length = stop start := by
  induction hs generalizing before with
  | done =>
    cases before with
    | nil => exact absurd rfl hne
    | cons c before => cases hsplit
  | @next offset rest hoffset _ ih =>
    cases before with
    | nil => exact absurd rfl hne
    | cons c before =>
      obtain ⟨rfl, hrest⟩ := List.cons_eq_cons.mp hsplit
      obtain ⟨hbeyond, hwithin⟩ := h offset hoffset
      rw [List.flatten_cons, List.length_append, length_slice hwithin]
      by_cases hnil : before = []
      · refine ⟨offset, hoffset, ?_⟩
        rw [hnil, List.flatten_nil, List.length_nil]
        omega
      · obtain ⟨start, hstart, hlen⟩ := ih hrest hnil
        exact ⟨start, hstart, by omega⟩

end Slices

end RemotePi.Lib
