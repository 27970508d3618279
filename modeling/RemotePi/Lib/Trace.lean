import Mathlib.Data.List.Basic

/-!
# Runs of a labelled transition system

A system is a partial step function `step : σ → ε → Option σ`: `none` means that
the label is not enabled in the state. A run is a list of labels; interleavings
of concurrent parties are runs whose labels name the party that moves.

Results:
* `run_append`, `run_snoc`: runs compose.
* `invariant_run`: what every step preserves, every run preserves.
* `throughout_append`: a condition on the events of a log, over what comes first and last.
* `invariant_along`: the same for runs all of whose steps meet a condition on
  the state before the step.
* `along_congr`: conditions that agree where an invariant holds.
* `run_of_guarded`: a run whose condition is checked at every step.
* `carried_cons`: labels that are carried out whatever happens between them.
-/

namespace RemotePi.Lib

variable {σ ε : Type*}

/-! ## Runs -/

/-- The state after the labels of a list, or `none` if one of them is not enabled. -/
def run (step : σ → ε → Option σ) : σ → List ε → Option σ
  | s, [] => some s
  | s, e :: es => (step s e).bind fun t => run step t es

section Runs

variable {step : σ → ε → Option σ}

@[simp] theorem run_nil (s : σ) : run step s [] = some s := rfl

theorem run_cons (s : σ) (e : ε) (es : List ε) :
    run step s (e :: es) = (step s e).bind fun t => run step t es := rfl

theorem run_cons_eq_some {s u : σ} {e : ε} {es : List ε} :
    run step s (e :: es) = some u ↔ ∃ t, step s e = some t ∧ run step t es = some u := by
  rw [run_cons, Option.bind_eq_some_iff]

theorem run_append (s : σ) (es es' : List ε) :
    run step s (es ++ es') = (run step s es).bind fun t => run step t es' := by
  induction es generalizing s with
  | nil => rfl
  | cons e es ih =>
    rw [List.cons_append, run_cons, run_cons, Option.bind_assoc]
    congr 1
    funext t
    exact ih t

theorem run_snoc {s t u : σ} {e : ε} {es : List ε} (h : run step s es = some t)
    (he : step t e = some u) : run step s (es ++ [e]) = some u := by
  rw [run_append, h, Option.bind_some, run_cons_eq_some]
  exact ⟨u, he, rfl⟩

/-- What every step preserves, every run preserves. -/
theorem invariant_run {Inv : σ → Prop} (hstep : ∀ s e s', Inv s → step s e = some s' → Inv s')
    {s s' : σ} {es : List ε} (h0 : Inv s) (h : run step s es = some s') : Inv s' := by
  induction es generalizing s with
  | nil => cases h; exact h0
  | cons e es ih =>
    obtain ⟨t, ht, h'⟩ := run_cons_eq_some.mp h
    exact ih (hstep s e t h0 ht) h'

end Runs

/-! ## Runs with a log -/

/-- A step that returns what it makes happen, as a step that appends it to a log. -/
def logged {α : Type*} (move : σ → ε → Option (σ × List α)) (s : σ × List α) (e : ε) :
    Option (σ × List α) :=
  (move s.1 e).map fun (t, happened) => (t, s.2 ++ happened)

theorem logged_eq_some {α : Type*} {move : σ → ε → Option (σ × List α)} {s t : σ × List α} {e : ε} :
    logged move s e = some t ↔
      ∃ happened, move s.1 e = some (t.1, happened) ∧ t.2 = s.2 ++ happened := by
  unfold logged
  rw [Option.map_eq_some_iff]
  constructor
  · rintro ⟨⟨u, happened⟩, hmove, rfl⟩
    exact ⟨happened, hmove, rfl⟩
  · rintro ⟨happened, hmove, hlog⟩
    exact ⟨(t.1, happened), hmove, Prod.ext rfl hlog.symm⟩

/-- Every event of a log meets a condition on the events before it. -/
def Throughout {α : Type*} (p : List α → α → Prop) (log : List α) : Prop :=
  ∀ before event after, log = before ++ event :: after → p before event

section Throughout

variable {α : Type*} {p : List α → α → Prop}

theorem throughout_nil : Throughout p [] := by
  intro before event after h
  simp at h

theorem throughout_append {log log' : List α} : Throughout p (log ++ log') ↔
    Throughout p log ∧ Throughout (fun before => p (log ++ before)) log' := by
  constructor
  · intro h
    refine ⟨fun before event after heq => ?_, fun before event after heq => ?_⟩
    · exact h before event (after ++ log') (by rw [heq, List.append_assoc, List.cons_append])
    · exact h (log ++ before) event after (by rw [heq, List.append_assoc])
  · rintro ⟨h, h'⟩ before event after heq
    rcases List.append_eq_append_iff.mp heq with ⟨middle, rfl, hlog'⟩ | ⟨middle, hlog, hmiddle⟩
    · exact h' middle event after hlog'
    · cases middle with
      | nil =>
        rw [List.append_nil] at hlog
        rw [← hlog]
        have hnil := h' [] event after (by simpa using hmiddle.symm)
        simpa only [List.append_nil] using hnil
      | cons first rest =>
        obtain ⟨rfl, -⟩ := List.cons_eq_cons.mp hmiddle
        exact h before event rest hlog

theorem throughout_singleton {event : α} : Throughout p [event] ↔ p [] event := by
  constructor
  · intro h
    exact h [] event [] rfl
  · intro h before event' after heq
    cases before with
    | nil =>
      obtain ⟨rfl, -⟩ := List.cons_eq_cons.mp heq
      exact h
    | cons first rest => simp at heq

/-- A condition that asks nothing of the events of a log. -/
theorem throughout_of_forall {log : List α} (h : ∀ before, ∀ event ∈ log, p before event) :
    Throughout p log := by
  rintro before event after rfl
  exact h before event (by simp)

end Throughout

/-! ## Runs that meet a condition at every step -/

/-- Every step of the run from `s` meets `ok` in the state before it. -/
def Along (step : σ → ε → Option σ) (ok : σ → ε → Prop) : σ → List ε → Prop
  | _, [] => True
  | s, e :: es => ok s e ∧ ∀ t, step s e = some t → Along step ok t es

section Along

variable {step : σ → ε → Option σ} {ok : σ → ε → Prop}

@[simp] theorem along_nil (s : σ) : Along step ok s [] := trivial

theorem along_cons_of_step {s t : σ} {e : ε} {es : List ε} (ht : step s e = some t) :
    Along step ok s (e :: es) ↔ ok s e ∧ Along step ok t es := by
  constructor
  · rintro ⟨h1, h2⟩
    exact ⟨h1, h2 t ht⟩
  · rintro ⟨h1, h2⟩
    refine ⟨h1, fun u hu => ?_⟩
    cases ht.symm.trans hu
    exact h2

/-- What every step that meets the condition preserves, every such run preserves. -/
theorem invariant_along {Inv : σ → Prop}
    (hstep : ∀ s e s', Inv s → ok s e → step s e = some s' → Inv s')
    {s s' : σ} {es : List ε} (h0 : Inv s) (hok : Along step ok s es)
    (h : run step s es = some s') : Inv s' := by
  induction es generalizing s with
  | nil => cases h; exact h0
  | cons e es ih =>
    obtain ⟨t, ht, h'⟩ := run_cons_eq_some.mp h
    obtain ⟨h1, h2⟩ := (along_cons_of_step ht).mp hok
    exact ih (hstep s e t h0 h1 ht) h2 h'

theorem Along.imp {ok' : σ → ε → Prop} (himp : ∀ s e, ok s e → ok' s e) {s : σ} {es : List ε}
    (hok : Along step ok s es) : Along step ok' s es := by
  induction es generalizing s with
  | nil => trivial
  | cons e es ih => exact ⟨himp s e hok.1, fun t ht => ih (hok.2 t ht)⟩

/-- The rest of a run meets the condition from the state that its first part leads to. -/
theorem Along.append_right {s t : σ} {es es' : List ε} (hok : Along step ok s (es ++ es'))
    (h : run step s es = some t) : Along step ok t es' := by
  induction es generalizing s with
  | nil =>
    cases h
    exact hok
  | cons e es ih =>
    obtain ⟨u, hu, h'⟩ := run_cons_eq_some.mp h
    exact ih (hok.2 u hu) h'

/-- The condition holds before a step that a run leads to. -/
theorem Along.of_run {s t : σ} {es es' : List ε} {e : ε} (hok : Along step ok s (es ++ e :: es'))
    (h : run step s es = some t) : ok t e := (hok.append_right h).1

/-- A condition that holds before each step that a run leads to. -/
theorem along_of_run {s : σ} {es : List ε}
    (h : ∀ before e after t, es = before ++ e :: after → run step s before = some t → ok t e) :
    Along step ok s es := by
  induction es generalizing s with
  | nil => trivial
  | cons e es ih =>
    refine ⟨h [] e es s rfl rfl, fun t ht => ih fun before e' after u heq hu => ?_⟩
    have hrun : run step s (e :: before) = some u := run_cons_eq_some.mpr ⟨t, ht, hu⟩
    exact h (e :: before) e' after u (by rw [heq, List.cons_append]) hrun

/-- Two conditions that agree where an invariant holds are met by the same runs, when the
    first one keeps the invariant. -/
theorem along_congr {Inv : σ → Prop} {ok' : σ → ε → Prop}
    (hstep : ∀ s e s', Inv s → ok s e → step s e = some s' → Inv s')
    (hiff : ∀ s e, Inv s → (ok' s e ↔ ok s e)) {s : σ} (h0 : Inv s) (es : List ε) :
    Along step ok' s es ↔ Along step ok s es := by
  induction es generalizing s with
  | nil => exact Iff.rfl
  | cons e es ih =>
    constructor
    · rintro ⟨h1, h2⟩
      have h1 := (hiff s e h0).mp h1
      exact ⟨h1, fun t ht => (ih (hstep s e t h0 h1 ht)).mp (h2 t ht)⟩
    · rintro ⟨h1, h2⟩
      exact ⟨(hiff s e h0).mpr h1, fun t ht => (ih (hstep s e t h0 h1 ht)).mpr (h2 t ht)⟩

/-- Decides the condition of a run step by step, for runs on fixed labels. -/
instance decidableAlong [∀ s e, Decidable (ok s e)] : ∀ s es, Decidable (Along step ok s es)
  | _, [] => isTrue trivial
  | s, e :: es =>
    match h : step s e with
    | none =>
      decidable_of_iff (ok s e)
        ⟨fun h1 => ⟨h1, fun t ht => by rw [h] at ht; cases ht⟩, fun h1 => h1.1⟩
    | some t =>
      have : Decidable (Along step ok t es) := decidableAlong t es
      decidable_of_iff (ok s e ∧ Along step ok t es) (along_cons_of_step h).symm

/-- A run that meets the condition, by its first step. -/
theorem run_along_cons {s t u : σ} {e : ε} {es : List ε} (hok : ok s e) (ht : step s e = some t)
    (h : run step t es = some u ∧ Along step ok t es) :
    run step s (e :: es) = some u ∧ Along step ok s (e :: es) :=
  ⟨run_cons_eq_some.mpr ⟨t, ht, h.1⟩, (along_cons_of_step ht).mpr ⟨hok, h.2⟩⟩

/-- A run that meets the condition, by its first part. -/
theorem run_along_append {s t u : σ} {es es' : List ε}
    (h : run step s es = some t ∧ Along step ok s es)
    (h' : run step t es' = some u ∧ Along step ok t es') :
    run step s (es ++ es') = some u ∧ Along step ok s (es ++ es') := by
  induction es generalizing s with
  | nil =>
    cases h.1
    exact h'
  | cons e es ih =>
    obtain ⟨hrun, hok, hrest⟩ := h
    obtain ⟨v, hv, hrun⟩ := run_cons_eq_some.mp hrun
    exact run_along_cons hok hv (ih ⟨hrun, hrest v hv⟩)

/-- The step, only where a check passes. -/
def guarded (step : σ → ε → Option σ) (check : σ → ε → Bool) (s : σ) (e : ε) : Option σ :=
  if check s e then step s e else none

/-- A run whose steps are checked, for runs on fixed labels. -/
theorem run_of_guarded {check : σ → ε → Bool} (hcheck : ∀ s e, check s e = true → ok s e) {s t : σ}
    {es : List ε} (h : run (guarded step check) s es = some t) :
    run step s es = some t ∧ Along step ok s es := by
  induction es generalizing s with
  | nil => exact ⟨h, trivial⟩
  | cons e es ih =>
    obtain ⟨u, hu, h'⟩ := run_cons_eq_some.mp h
    unfold guarded at hu
    split_ifs at hu with hok
    exact run_along_cons (hcheck s e hok) hu (ih h')

end Along

/-! ## Labels among others -/

/-- The labels are carried out in turn and lead to the goal, whatever other labels come before
    each of them. -/
def Carried (step : σ → ε → Option σ) (other : ε → Prop) (goal : σ → Prop) : σ → List ε → Prop
  | s, [] => goal s
  | s, e :: es => ∀ others t, (∀ o ∈ others, other o) → run step s others = some t →
      ∃ u, step t e = some u ∧ Carried step other goal u es

/-- What other labels keep carries the first label through. -/
theorem carried_cons {step : σ → ε → Option σ} {other : ε → Prop} {goal Inv : σ → Prop} {s : σ}
    {e : ε} {es : List ε} (hother : ∀ s e s', Inv s → other e → step s e = some s' → Inv s')
    (h0 : Inv s) (hstep : ∀ t, Inv t → ∃ u, step t e = some u ∧ Carried step other goal u es) :
    Carried step other goal s (e :: es) := by
  intro others t hothers hrun
  have hinv : Inv t := by
    clear hstep
    induction others generalizing s with
    | nil =>
      cases hrun
      exact h0
    | cons o others ih =>
      obtain ⟨u, hu, hrest⟩ := run_cons_eq_some.mp hrun
      exact ih (hother s o u h0 (hothers o List.mem_cons_self) hu)
        (fun o' ho' => hothers o' (List.mem_cons_of_mem _ ho')) hrest
  exact hstep t hinv

end RemotePi.Lib
