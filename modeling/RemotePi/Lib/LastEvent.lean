import Mathlib.Data.List.Basic

/-!
# The last event about a key

What a log says of one key of a system is often decided by the last of the events about it.

Results:
* `lastOf_append`: the last event of a log and its continuation.
* `lastOf_eq_some`: it is in the log, and none like it comes after.
-/

namespace RemotePi.Lib

variable {α : Type*}

/-- The last event that satisfies the predicate. -/
def lastOf (p : α → Bool) (log : List α) : Option α := log.reverse.find? p

section LastOf

variable {p : α → Bool} {log log' : List α} {event : α}

@[simp] theorem lastOf_nil : lastOf p [] = none := rfl

theorem lastOf_append : lastOf p (log ++ log') = (lastOf p log').or (lastOf p log) := by
  unfold lastOf
  rw [List.reverse_append, List.find?_append]

theorem lastOf_append_of_forall (h : ∀ event ∈ log', p event = false) :
    lastOf p (log ++ log') = lastOf p log := by
  have hnone : lastOf p log' = none := by
    refine List.find?_eq_none.mpr fun event hmem => ?_
    rw [h event (List.mem_reverse.mp hmem)]
    exact Bool.false_ne_true
  rw [lastOf_append, hnone, Option.none_or]

theorem lastOf_append_singleton (h : p event = true) :
    lastOf p (log ++ [event]) = some event := by
  rw [lastOf_append]
  unfold lastOf
  rw [List.reverse_singleton, List.find?_cons_of_pos h, Option.some_or]

theorem lastOf_eq_some : lastOf p log = some event ↔ p event = true ∧
    ∃ before after, log = before ++ event :: after ∧ ∀ later ∈ after, p later = false := by
  unfold lastOf
  rw [List.find?_eq_some_iff_append]
  refine and_congr_right fun _ => ?_
  constructor
  · rintro ⟨after, before, hlog, hafter⟩
    refine ⟨before.reverse, after.reverse, ?_, fun later hmem => ?_⟩
    · rw [← List.reverse_reverse log, hlog]
      simp
    · simpa using hafter later (List.mem_reverse.mp hmem)
  · rintro ⟨before, after, rfl, hafter⟩
    refine ⟨after.reverse, before.reverse, by simp, fun later hmem => ?_⟩
    rw [hafter later (List.mem_reverse.mp hmem)]
    rfl

end LastOf

end RemotePi.Lib
