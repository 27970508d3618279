import Mathlib.Data.List.Induction

/-!
# Lists cut into groups

A list cut into groups in its order, where every group has room and none has room for the
first item of the next one.

Results:
* `cut_isCut`: filling one group after the other cuts a list.
* `Cut.eq_cut`: there is no other way, if a part of a group that has room has room.
* `Cut.length_le`: there are no more groups than items.
* `cut_map`: the groups of the images are the images of the groups.
-/

namespace RemotePi.Lib

variable {α : Type*}

/-- The groups are full in their order. -/
inductive Cut (room : List α → Bool) : List α → List (List α) → Prop
  | last {g : List α} : room g = true → Cut room g [g]
  | next {g : List α} {x : α} {xs : List α} {groups : List (List α)} : g ≠ [] → room g = true →
      room (g ++ [x]) = false → Cut room (x :: xs) groups → Cut room (g ++ x :: xs) (g :: groups)

/-- The groups of a list, with a group that has been begun. -/
def cut (room : List α → Bool) : List α → List α → List (List α)
  | g, [] => [g]
  | g, x :: xs => if room (g ++ [x]) then cut room (g ++ [x]) xs else g :: cut room [x] xs

section Cut

variable {room : List α → Bool} {g xs : List α} {groups : List (List α)}

theorem cut_isCut (hg : room g = true) (hsingle : ∀ x ∈ xs, room [x] = true) :
    Cut room (g ++ xs) (cut room g xs) := by
  induction xs generalizing g with
  | nil =>
    rw [List.append_nil, cut]
    exact .last hg
  | cons x xs ih =>
    have hrest : ∀ y ∈ xs, room [y] = true := fun y hy => hsingle y (List.mem_cons_of_mem x hy)
    rw [cut]
    split_ifs with hroom
    · rw [List.append_cons]
      exact ih hroom hrest
    · have hne : g ≠ [] := by
        rintro rfl
        exact hroom (hsingle x List.mem_cons_self)
      exact .next hne hg (Bool.eq_false_iff.mpr hroom)
        (ih (hsingle x List.mem_cons_self) hrest)

/-- A group that has room takes all its items. -/
theorem cut_append (hclosed : ∀ (g : List α) (x : α), room (g ++ [x]) = true → room g = true)
    (h : room (g ++ xs) = true) (rest : List α) :
    cut room g (xs ++ rest) = cut room (g ++ xs) rest := by
  induction xs generalizing g with
  | nil => rw [List.append_nil, List.nil_append]
  | cons x xs ih =>
    rw [List.append_cons] at h ⊢
    have hstart : ∀ ys : List α, room (g ++ [x] ++ ys) = true → room (g ++ [x]) = true := by
      intro ys
      induction ys using List.reverseRecOn with
      | nil =>
        rw [List.append_nil]
        exact id
      | append_singleton ys y ihys =>
        intro hys
        rw [← List.append_assoc] at hys
        exact ihys (hclosed _ y hys)
    rw [List.cons_append, cut, if_pos (hstart xs h)]
    exact ih h

/-- A list is cut in one way. -/
theorem Cut.eq_cut (h : Cut room xs groups)
    (hclosed : ∀ (g : List α) (x : α), room (g ++ [x]) = true → room g = true)
    (hsingle : ∀ x ∈ xs, room [x] = true) : groups = cut room [] xs := by
  induction h with
  | @last g hg =>
    have hall := @cut_append α room [] g hclosed hg []
    rw [List.append_nil] at hall
    rw [hall]
    rfl
  | @next g x xs groups hne hg hfull _ ih =>
    have hx : room [x] = true := hsingle x (by simp)
    have hrest := ih fun y hy => hsingle y (List.mem_append_right g hy)
    rw [cut, List.nil_append, if_pos hx] at hrest
    have hall := @cut_append α room [] g hclosed hg (x :: xs)
    rw [hall, List.nil_append, cut, if_neg (by rw [hfull]; exact Bool.false_ne_true), hrest]

theorem Cut.flatten (h : Cut room xs groups) : groups.flatten = xs := by
  induction h with
  | last hg => simp
  | next hne hg hfull _ ih => rw [List.flatten_cons, ih]

theorem Cut.hasRoom (h : Cut room xs groups) : ∀ g ∈ groups, room g = true := by
  induction h with
  | last hg =>
    intro g' hg'
    rw [List.mem_singleton.mp hg']
    exact hg
  | next hne hg hfull _ ih =>
    intro g' hg'
    rcases List.mem_cons.mp hg' with rfl | hg'
    · exact hg
    · exact ih g' hg'

theorem Cut.ne_nil (h : Cut room xs groups) : groups ≠ [] := by
  cases h <;> exact List.cons_ne_nil _ _

theorem Cut.length_le (h : Cut room xs groups) : groups.length ≤ xs.length + 1 := by
  induction h with
  | last hg => simp
  | next hne hg hfull _ ih =>
    have hpos := List.length_pos_iff.mpr hne
    rw [List.length_cons] at ih ⊢
    rw [List.length_append, List.length_cons]
    omega

/-- A list no two items of which share a group. -/
theorem Cut.singletons (hne : xs ≠ []) (hsingle : ∀ x ∈ xs, room [x] = true)
    (hpair : ∀ x ∈ xs, ∀ y ∈ xs, room [x, y] = false) : Cut room xs (xs.map fun x => [x]) := by
  induction xs with
  | nil => exact absurd rfl hne
  | cons x xs ih =>
    cases xs with
    | nil => exact .last (hsingle x List.mem_cons_self)
    | cons y ys =>
      have hrest := ih (List.cons_ne_nil y ys)
        (fun z hz => hsingle z (List.mem_cons_of_mem x hz))
        fun z hz w hw => hpair z (List.mem_cons_of_mem x hz) w (List.mem_cons_of_mem x hw)
      exact .next (List.cons_ne_nil x []) (hsingle x List.mem_cons_self)
        (hpair x List.mem_cons_self y (List.mem_cons_of_mem x List.mem_cons_self)) hrest

/-- The groups of the images. -/
theorem cut_map {β : Type*} (f : β → α) {room' : List β → Bool}
    (hroom : ∀ g, room (g.map f) = room' g) (g xs : List β) :
    cut room (g.map f) (xs.map f) = (cut room' g xs).map (List.map f) := by
  induction xs generalizing g with
  | nil => rfl
  | cons x xs ih =>
    have happend : g.map f ++ [f x] = (g ++ [x]).map f := by simp
    rw [List.map_cons, cut, cut, happend, hroom]
    split_ifs with hfits
    · exact ih (g ++ [x])
    · rw [List.map_cons, ← ih [x]]
      rfl

end Cut

end RemotePi.Lib
