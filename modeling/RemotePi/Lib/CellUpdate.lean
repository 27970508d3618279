import Mathlib.Data.List.Basic

/-!
# Updates of one cell

A cell holds a value or nothing. An update of it either puts a content,
whatever was there, or drops the value when it meets a test. A sequence of
updates acts as a single update, so acting twice is acting once; and a block of
updates may be moved in front of another one whose updates it commutes with.

Results: `exists_apply_eq`, `apply_apply`, `apply_append_swap`.
-/

namespace RemotePi.Lib

variable {α : Type*}

inductive CellUpdate (α : Type*) where
  | put (content : Option α)
  | drop (test : α → Bool)

namespace CellUpdate

/-- The content after one update. -/
def act : CellUpdate α → Option α → Option α
  | .put content, _ => content
  | .drop test, v => v.filter fun a => !test a

/-- The update that changes nothing. -/
def noop : CellUpdate α := .drop fun _ => false

@[simp] theorem act_put (content v : Option α) : (put content).act v = content := rfl

@[simp] theorem act_noop (v : Option α) : noop.act v = v := by cases v <;> rfl

/-- The content after a sequence of updates, oldest first. -/
def apply (us : List (CellUpdate α)) (v : Option α) : Option α :=
  us.foldl (fun v u => u.act v) v

@[simp] theorem apply_nil (v : Option α) : apply [] v = v := rfl

@[simp] theorem apply_cons (u : CellUpdate α) (us : List (CellUpdate α)) (v : Option α) :
    apply (u :: us) v = apply us (u.act v) := rfl

theorem apply_append (us us' : List (CellUpdate α)) (v : Option α) :
    apply (us ++ us') v = apply us' (apply us v) :=
  List.foldl_append

/-! ## A sequence of updates is one update -/

/-- Two updates in a row. -/
def andThen : CellUpdate α → CellUpdate α → CellUpdate α
  | _, .put content => .put content
  | .put content, .drop test => .put (content.filter fun a => !test a)
  | .drop test, .drop test' => .drop fun a => test a || test' a

theorem act_andThen (u u' : CellUpdate α) (v : Option α) :
    (u.andThen u').act v = u'.act (u.act v) := by
  cases u' with
  | put content => cases u <;> rfl
  | drop test' =>
    cases u with
    | put content => rfl
    | drop test => cases v <;> simp [andThen, act, Option.filter_filter, Bool.and_comm]

theorem exists_apply_eq (us : List (CellUpdate α)) :
    ∃ u : CellUpdate α, ∀ v, apply us v = u.act v := by
  induction us with
  | nil => exact ⟨noop, fun v => (act_noop v).symm⟩
  | cons u us ih =>
    obtain ⟨w, hw⟩ := ih
    exact ⟨u.andThen w, fun v => by rw [apply_cons, hw, act_andThen]⟩

theorem act_act (u : CellUpdate α) (v : Option α) : u.act (u.act v) = u.act v := by
  cases u with
  | put content => rfl
  | drop test => cases v <;> simp [act, Option.filter_filter]

theorem apply_apply (us : List (CellUpdate α)) (v : Option α) :
    apply us (apply us v) = apply us v := by
  obtain ⟨u, hu⟩ := exists_apply_eq us
  rw [hu, hu, act_act]

/-! ## Updates that commute -/

def Commute (u u' : CellUpdate α) : Prop := ∀ v, u'.act (u.act v) = u.act (u'.act v)

theorem commute_noop_left (u : CellUpdate α) : Commute noop u := fun v => by simp

theorem commute_noop_right (u : CellUpdate α) : Commute u noop := fun v => by simp

theorem commute_drop_drop (test test' : α → Bool) : Commute (drop test) (drop test') := by
  intro v
  cases v <;> simp [act, Option.filter_filter, Bool.and_comm]

/-- A value that does not meet the test may be put before or after the drop. -/
theorem commute_put_drop {test : α → Bool} {a : α} (h : test a = false) :
    Commute (put (some a)) (drop test) := by
  intro v
  simp [act, h]

theorem Commute.symm {u u' : CellUpdate α} (h : Commute u u') : Commute u' u :=
  fun v => (h v).symm

theorem apply_act_comm {u : CellUpdate α} {us : List (CellUpdate α)}
    (h : ∀ w ∈ us, Commute w u) (v : Option α) : u.act (apply us v) = apply us (u.act v) := by
  induction us generalizing v with
  | nil => rfl
  | cons w us ih =>
    rw [apply_cons, apply_cons, ih (fun x hx => h x (List.mem_cons_of_mem _ hx)),
      h w List.mem_cons_self]

/-- A later block of updates may be moved in front of an earlier one. -/
theorem apply_append_swap {us us' : List (CellUpdate α)}
    (h : ∀ u ∈ us, ∀ u' ∈ us', Commute u u') (v : Option α) :
    apply (us ++ us') v = apply (us' ++ us) v := by
  rw [apply_append, apply_append]
  induction us' generalizing v with
  | nil => rfl
  | cons u' us' ih =>
    rw [apply_cons, apply_cons,
      apply_act_comm (fun w hw => h w hw u' List.mem_cons_self),
      ih fun u hu w hw => h u hu w (List.mem_cons_of_mem _ hw)]

end CellUpdate

end RemotePi.Lib
