import Mathlib.Data.List.Chain

/-!
# Chains of promises

Work that is put behind the work before it: each task waits for the promise of the task that
was the last one when it was enqueued, and resolves its own promise when it has settled. A
promise is its number; it is resolved when no task holds it any more.

Results:
* `Linked.enqueue`, `Linked.start`, `Linked.settle`: the tasks stay linked in their order.
* `Linked.isHead_of_ready`, `Linked.isHead_of_started`: only the first task can start, and
  only it has.
-/

namespace RemotePi.Lib

variable {α : Type*}

structure ChainTask (α : Type*) where
  token : ℕ
  previous : Option ℕ
  started : Bool
  work : α
deriving DecidableEq, Repr

/-- The tasks that have not settled, in the order in which they were enqueued; `tail` is the
    promise that the next one waits for. -/
structure PromiseChain (α : Type*) where
  tail : Option ℕ
  tasks : List (ChainTask α)
  next : ℕ
deriving DecidableEq, Repr

namespace PromiseChain

def empty : PromiseChain α := ⟨none, [], 0⟩

/-- A task with a promise of its own, behind the last one. -/
def enqueue (c : PromiseChain α) (work : α) : PromiseChain α where
  tail := some c.next
  tasks := c.tasks ++ [⟨c.next, c.tail, false, work⟩]
  next := c.next + 1

def pending (c : PromiseChain α) (token : ℕ) : Bool := c.tasks.any fun t => t.token = token

/-- The promise that the task waits for is resolved. -/
def ready (c : PromiseChain α) (t : ChainTask α) : Bool :=
  !t.started && !t.previous.any c.pending

def find? (c : PromiseChain α) (token : ℕ) : Option (ChainTask α) :=
  c.tasks.find? fun t => t.token = token

/-- The work of the tasks changes. -/
def mapWork (c : PromiseChain α) (f : α → α) : PromiseChain α :=
  { c with tasks := c.tasks.map fun t => { t with work := f t.work } }

/-- A task has started, and its work goes on as `work`. -/
def start (c : PromiseChain α) (token : ℕ) (work : α) : PromiseChain α :=
  { c with
    tasks := c.tasks.map fun t =>
      if t.token = token then { t with started := true, work := work } else t }

/-- A task has settled, and the chain is dropped behind the last one. -/
def settle (c : PromiseChain α) (token : ℕ) : PromiseChain α :=
  { c with
    tail := if c.tail = some token then none else c.tail
    tasks := c.tasks.filter fun t => t.token ≠ token }

/-- Each task waits for the one before it, and only the first one may have started. -/
structure Linked (c : PromiseChain α) : Prop where
  chain : c.tasks.IsChain fun t u => u.previous = some t.token ∧ t.token < u.token
  first : ∀ t ∈ c.tasks.head?, ∀ p ∈ t.previous, p < t.token
  tail : c.tail = c.tasks.getLast?.map ChainTask.token
  lt_next : ∀ t ∈ c.tasks, t.token < c.next
  waits : ∀ t ∈ c.tasks.tail, t.started = false

section Linked

variable {c : PromiseChain α} {t u : ChainTask α} {rest : List (ChainTask α)} {work : α}

theorem linked_empty : (empty : PromiseChain α).Linked where
  chain := .nil
  first := by simp [empty]
  tail := rfl
  lt_next := by simp [empty]
  waits := by simp [empty]

theorem Linked.pairwise (h : c.Linked) : c.tasks.Pairwise fun t u => t.token < u.token := by
  have hchain : c.tasks.IsChain fun t u => t.token < u.token := h.chain.imp fun _ _ hlink => hlink.2
  exact hchain.pairwise

/-- The first task has the least promise. -/
theorem Linked.lt_of_mem_rest (h : c.Linked) (htasks : c.tasks = t :: rest) (hu : u ∈ rest) :
    t.token < u.token := by
  have hpairwise := h.pairwise
  rw [htasks] at hpairwise
  exact List.rel_of_pairwise_cons hpairwise hu

/-- One at a time: only the first task has started. -/
theorem Linked.isHead_of_started (h : c.Linked) (ht : t ∈ c.tasks) (hstarted : t.started = true) :
    c.tasks.head? = some t := by
  have hwaits := h.waits
  cases htasks : c.tasks with
  | nil =>
    rw [htasks] at ht
    cases ht
  | cons first rest =>
    rw [htasks] at ht hwaits
    rcases List.mem_cons.mp ht with rfl | ht
    · rfl
    · rw [hwaits t ht] at hstarted
      cases hstarted

/-- Only the first task can start. -/
theorem Linked.isHead_of_ready (h : c.Linked) (ht : t ∈ c.tasks) (hready : c.ready t = true) :
    c.tasks.head? = some t := by
  obtain ⟨pre, post, htasks⟩ := List.append_of_mem ht
  rcases List.eq_nil_or_concat pre with rfl | ⟨init, last, rfl⟩
  · rw [htasks]
    rfl
  · have hlink := h.chain
    rw [htasks, List.concat_eq_append, List.append_assoc, List.singleton_append] at hlink
    have hprevious := (List.isChain_append.mp hlink).2.1
    rw [List.isChain_cons_cons] at hprevious
    have hpending : c.pending last.token = true := by
      refine List.any_eq_true.mpr ⟨last, ?_, decide_eq_true rfl⟩
      rw [htasks, List.concat_eq_append]
      simp
    rw [ready, hprevious.1.1, Option.any_some, hpending, Bool.not_true, Bool.and_false] at hready
    cases hready

/-- The first task can start. -/
theorem Linked.ready_head (h : c.Linked) (htasks : c.tasks = t :: rest) :
    c.ready t = !t.started := by
  have hnone : t.previous.any c.pending = false := by
    cases hprevious : t.previous with
    | none => rfl
    | some p =>
      have hlt := h.first t (by rw [htasks]; rfl) p (by rw [hprevious]; rfl)
      rw [Option.any_some, pending, List.any_eq_false]
      intro u hu
      rw [htasks] at hu
      have hle : t.token ≤ u.token := by
        rcases List.mem_cons.mp hu with rfl | hu
        · exact Nat.le_refl _
        · exact (h.lt_of_mem_rest htasks hu).le
      rw [decide_eq_true_eq]
      omega
  rw [ready, hnone, Bool.not_false, Bool.and_true]

theorem Linked.enqueue (h : c.Linked) (work : α) : (c.enqueue work).Linked where
  chain := by
    refine List.isChain_append.mpr ⟨h.chain, .singleton _, fun t ht u hu => ?_⟩
    obtain rfl := Option.some.inj hu
    refine ⟨?_, h.lt_next t (List.mem_of_getLast? ht)⟩
    rw [h.tail, Option.mem_def.mp ht]
    rfl
  first := by
    intro t ht p hp
    cases htasks : c.tasks with
    | nil =>
      have htail := h.tail
      rw [htasks] at htail
      rw [PromiseChain.enqueue, htasks] at ht
      obtain rfl := Option.some.inj ht
      dsimp only at hp
      rw [htail] at hp
      cases hp
    | cons first rest =>
      rw [PromiseChain.enqueue, htasks] at ht
      refine h.first t ?_ p hp
      rw [htasks]
      exact ht
  tail := by simp [PromiseChain.enqueue]
  lt_next := by
    intro t ht
    rcases List.mem_append.mp ht with ht | ht
    · exact Nat.lt_succ_of_lt (h.lt_next t ht)
    · rw [List.mem_singleton.mp ht]
      exact Nat.lt_succ_self _
  waits := by
    intro t ht
    have hwaits := h.waits
    cases htasks : c.tasks with
    | nil =>
      rw [PromiseChain.enqueue, htasks] at ht
      cases ht
    | cons first rest =>
      rw [htasks] at hwaits
      rw [PromiseChain.enqueue, htasks] at ht
      rcases List.mem_append.mp ht with ht | ht
      · exact hwaits t ht
      · rw [List.mem_singleton.mp ht]

/-- The first task starts. -/
theorem Linked.tasks_start (h : c.Linked) (htasks : c.tasks = t :: rest) (work : α) :
    (c.start t.token work).tasks = { t with started := true, work := work } :: rest := by
  rw [PromiseChain.start]
  dsimp only
  rw [htasks, List.map_cons, if_pos rfl]
  congr 1
  refine (List.map_congr_left fun u hu => ?_).trans (List.map_id rest)
  rw [if_neg (h.lt_of_mem_rest htasks hu).ne']
  rfl

/-- The first task settles. -/
theorem Linked.tasks_settle (h : c.Linked) (htasks : c.tasks = t :: rest) :
    (c.settle t.token).tasks = rest := by
  rw [PromiseChain.settle]
  dsimp only
  rw [htasks, List.filter_cons, if_neg (by simp)]
  refine List.filter_eq_self.mpr fun u hu => ?_
  rw [decide_eq_true_eq]
  exact (h.lt_of_mem_rest htasks hu).ne'

theorem Linked.start (h : c.Linked) (htasks : c.tasks = t :: rest) (work : α) :
    (c.start t.token work).Linked := by
  have hstart := h.tasks_start htasks work
  refine ⟨?_, ?_, ?_, ?_, ?_⟩
  · rw [hstart]
    have hchain := h.chain
    rw [htasks] at hchain
    cases rest with
    | nil => exact .singleton _
    | cons u rest =>
      rw [List.isChain_cons_cons] at hchain ⊢
      exact hchain
  · rw [hstart]
    intro u hu p hp
    obtain rfl := Option.some.inj hu
    exact h.first t (by rw [htasks]; rfl) p hp
  · rw [hstart]
    refine h.tail.trans ?_
    rw [htasks]
    cases rest with
    | nil => rfl
    | cons u rest => rw [List.getLast?_cons_cons, List.getLast?_cons_cons]
  · rw [hstart]
    intro u hu
    rcases List.mem_cons.mp hu with rfl | hu
    · exact h.lt_next t (by rw [htasks]; exact List.mem_cons_self)
    · exact h.lt_next u (by rw [htasks]; exact List.mem_cons_of_mem t hu)
  · rw [hstart]
    intro u hu
    refine h.waits u ?_
    rw [htasks]
    exact hu

theorem Linked.settle (h : c.Linked) (htasks : c.tasks = t :: rest) :
    (c.settle t.token).Linked := by
  have hsettle := h.tasks_settle htasks
  have hmem : ∀ u ∈ rest, u ∈ c.tasks := by
    intro u hu
    rw [htasks]
    exact List.mem_cons_of_mem t hu
  refine ⟨?_, ?_, ?_, ?_, ?_⟩
  · rw [hsettle]
    have hchain := h.chain
    rw [htasks] at hchain
    exact hchain.tail
  · rw [hsettle]
    intro u hu p hp
    cases rest with
    | nil => cases hu
    | cons first rest =>
      obtain rfl := Option.some.inj hu
      have hchain := h.chain
      rw [htasks, List.isChain_cons_cons] at hchain
      rw [hchain.1.1] at hp
      obtain rfl := Option.some.inj hp
      exact hchain.1.2
  · rw [hsettle]
    have htail := h.tail
    rw [htasks] at htail
    rw [PromiseChain.settle]
    dsimp only
    cases rest with
    | nil =>
      rw [htail]
      exact if_pos rfl
    | cons first rest =>
      rw [List.getLast?_cons_cons] at htail
      rw [if_neg ?_, htail]
      rw [htail]
      cases hlast : (first :: rest).getLast? with
      | none => simp at hlast
      | some last =>
        have hlt := h.lt_of_mem_rest htasks (List.mem_of_getLast? hlast)
        rw [Option.map_some, Option.some.injEq]
        exact hlt.ne'
  · rw [hsettle]
    intro u hu
    exact h.lt_next u (hmem u hu)
  · rw [hsettle]
    intro u hu
    refine h.waits u ?_
    rw [htasks]
    exact List.mem_of_mem_tail hu

theorem Linked.mapWork (h : c.Linked) (f : α → α) : (c.mapWork f).Linked where
  chain := List.isChain_map _ |>.mpr h.chain
  first := by
    intro t ht p hp
    rw [PromiseChain.mapWork, Option.mem_def, List.head?_map, Option.map_eq_some_iff] at ht
    obtain ⟨u, hu, rfl⟩ := ht
    exact h.first u hu p hp
  tail := by
    rw [PromiseChain.mapWork]
    dsimp only
    rw [List.getLast?_map, Option.map_map]
    exact h.tail
  lt_next := by
    intro t ht
    obtain ⟨u, hu, rfl⟩ := List.mem_map.mp ht
    exact h.lt_next u hu
  waits := by
    intro t ht
    rw [PromiseChain.mapWork, ← List.map_tail] at ht
    obtain ⟨u, hu, rfl⟩ := List.mem_map.mp ht
    exact h.waits u hu

end Linked

end PromiseChain

end RemotePi.Lib
