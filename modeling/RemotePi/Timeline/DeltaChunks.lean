import RemotePi.Lib.Slices
import RemotePi.Lib.Utf16

/-!
# Chunks of partial output

Model of `TimelineRuntime.partialDeltaChunks` (`pi-extension/src/timeline/runtime.ts`): the
delta of a model goes out in partial frames of at most 64 Ki code units.

Results:
* `chunkEnd_splits`: no end of a chunk lies within a surrogate pair.
* `partialDeltaChunks_spec`: the loop ends, and its chunks are the delta.
* `flatMap_decode_partialDeltaChunks`: each chunk on its own gives its part of the text.
-/

namespace RemotePi.Timeline

open RemotePi.Lib Utf16

/-- `MAX_PARTIAL_DELTA_CHARS` (line 14). -/
def maxPartialDeltaChars : ℕ := 64 * 1024

/-- The code units around an offset are the halves of a surrogate pair; `charCodeAt` beyond
    the end is `NaN`, which is neither half. -/
def splitsPair (delta : List CodeUnit) (offset : ℕ) : Bool :=
  (delta[offset - 1]?.any isHigh) && delta[offset]?.any isLow

/-- `end` of the chunk at an offset (lines 331–334). -/
def chunkEnd (delta : List CodeUnit) (offset : ℕ) : ℕ :=
  let stop := min delta.length (offset + maxPartialDeltaChars)
  if decide (stop < delta.length) && splitsPair delta stop then stop - 1 else stop

/-- `partialDeltaChunks` (lines 328–339); none when the fuel of its loop does not last. -/
def partialDeltaChunks (fuel : ℕ) (delta : List CodeUnit) : Option (List (List CodeUnit)) :=
  sliceLoop (chunkEnd delta) delta fuel 0 []

section Chunks

variable {delta : List CodeUnit} {offset : ℕ}

theorem isLow_of_isHigh {u : CodeUnit} (h : isHigh u = true) : isLow u = false := by
  rw [isHigh_iff] at h
  rw [← Bool.not_eq_true, isLow_iff]
  omega

/-- The end of a chunk lies beyond its offset, in the delta, at most 64 Ki code units on. -/
theorem chunkEnd_bounds (h : offset < delta.length) :
    offset < chunkEnd delta offset ∧ chunkEnd delta offset ≤ delta.length ∧
      chunkEnd delta offset ≤ offset + maxPartialDeltaChars := by
  have hmax : maxPartialDeltaChars = 65536 := rfl
  unfold chunkEnd
  dsimp only
  split_ifs with hcut
  · -- The chunk is full, so it has code units left without its last one.
    have hstop := of_decide_eq_true ((Bool.and_eq_true _ _).mp hcut).1
    omega
  · omega

theorem advances_chunkEnd (delta : List CodeUnit) : Advances (chunkEnd delta) delta.length :=
  fun _ h => ⟨(chunkEnd_bounds h).1, (chunkEnd_bounds h).2.1⟩

/-- Before a high surrogate there is no pair to split. -/
theorem splitsPair_sub_one (h : splitsPair delta offset = true) :
    splitsPair delta (offset - 1) = false := by
  rw [splitsPair, Bool.and_eq_true, Option.any_eq_true, Option.any_eq_true] at h
  obtain ⟨⟨u, hu, hhigh⟩, -⟩ := h
  rw [splitsPair, hu, Option.any_some, isLow_of_isHigh hhigh, Bool.and_false]

theorem chunkEnd_splits (delta : List CodeUnit) (offset : ℕ) :
    splitsPair delta (chunkEnd delta offset) = false := by
  unfold chunkEnd
  dsimp only
  split_ifs with hcut
  · exact splitsPair_sub_one ((Bool.and_eq_true _ _).mp hcut).2
  · rw [Bool.and_eq_true, not_and, decide_eq_true_eq] at hcut
    by_cases hstop : min delta.length (offset + maxPartialDeltaChars) < delta.length
    · exact Bool.eq_false_iff.mpr (hcut hstop)
    · rw [splitsPair, List.getElem?_eq_none (not_lt.mp hstop), Option.any_none, Bool.and_false]

/-- Where slices of a delta meet, no pair is split. -/
theorem apart_of_slices {chunks before after : List (List CodeUnit)}
    (hs : Slices (chunkEnd delta) delta 0 chunks) (hsplit : chunks = before ++ after) :
    Apart before.flatten after.flatten := by
  rintro u v hu hv ⟨hhigh, hlow⟩
  have hne : before ≠ [] := by
    rintro rfl
    cases hu
  obtain ⟨start, hstart, hcut⟩ := hs.cut (advances_chunkEnd delta) hsplit hne
  have hflat := hs.flatten (advances_chunkEnd delta)
  rw [hsplit, List.flatten_append, List.drop_zero] at hflat
  rw [Nat.zero_add] at hcut
  have hpair : splitsPair delta before.flatten.length = true := by
    rw [List.getLast?_eq_getElem?] at hu
    rw [List.head?_eq_getElem?] at hv
    have hlt := (List.getElem?_eq_some_iff.mp hu).1
    rw [splitsPair, ← hflat, List.getElem?_append_left (by omega), hu,
      List.getElem?_append_right le_rfl, Nat.sub_self, hv, Option.any_some, Option.any_some,
      hhigh, hlow]
    rfl
  rw [hcut, chunkEnd_splits] at hpair
  cases hpair

/-- A reader that converts each chunk on its own reads the text of the delta. -/
theorem flatMap_decode_partialDeltaChunks {fuel : ℕ} {chunks : List (List CodeUnit)}
    (h : partialDeltaChunks fuel delta = some chunks) :
    chunks.flatMap decode = decode delta := by
  obtain ⟨slices, hs, heq⟩ := slices_of_sliceLoop h
  rw [List.nil_append] at heq
  rw [heq, ← decode_flatten fun before after hsplit => apart_of_slices hs hsplit,
    hs.flatten (advances_chunkEnd delta), List.drop_zero]

/-- The loop of `partialDeltaChunks` ends on every delta; its chunks are nonempty, at most
    64 Ki code units long and together the delta, and no two of them meet within a
    surrogate pair. -/
theorem partialDeltaChunks_spec (delta : List CodeUnit) :
    ∃ chunks, (∀ fuel, delta.length < fuel → partialDeltaChunks fuel delta = some chunks) ∧
      (∀ chunk ∈ chunks, chunk ≠ [] ∧ chunk.length ≤ 64 * 1024) ∧
      chunks.flatten = delta ∧
      ∀ before after, chunks = before ++ after →
        ∀ u v, before.flatten.getLast? = some u → after.flatten.head? = some v →
          ¬ (isHigh u = true ∧ isLow v = true) := by
  obtain ⟨chunks, hs, hloop⟩ := exists_slices (advances_chunkEnd delta) 0
  refine ⟨chunks, ?_, ?_, hs.flatten (advances_chunkEnd delta), ?_⟩
  · intro fuel hfuel
    rw [partialDeltaChunks, hloop fuel [] (by omega), List.nil_append]
  · intro chunk hc
    obtain ⟨start, hstart, rfl⟩ := hs.mem hc
    obtain ⟨hbeyond, hwithin, hmost⟩ := chunkEnd_bounds hstart
    have hlen := @length_slice _ delta start _ hwithin
    refine ⟨fun hnil => ?_, ?_⟩
    · rw [hnil, List.length_nil] at hlen
      omega
    · rw [hlen]
      unfold maxPartialDeltaChars at hmost
      omega
  · intro before after hsplit u v hu hv
    exact apart_of_slices hs hsplit u v hu hv

end Chunks

end RemotePi.Timeline
