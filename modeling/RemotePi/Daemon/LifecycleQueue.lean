import RemotePi.Daemon.LifecycleLog

/-!
# The queue of a daemon

What holds of an id between two steps of the supervisor, and that the steps of its operations,
the events of its child and its timers keep it.

The restarts of a slot are counted with those that its timer or the queue will bring. While an
operation waits for the child of a slot, the child is being stopped or its runtime has failed,
so that no event adds a restart, unless the slot is about to be deleted.

Results:
* `Sound`: the state between two steps.
* `Sound.run`, `Sound.resume`: the steps of an operation keep it.
* `Moved`: what the other steps do; `Moved.onProcess`, `Moved.reconcile`, `Moved.onRetryTimer`.
-/

namespace RemotePi.Daemon

open RemotePi.Lib

/-- The slot that an operation has in mind. -/
def LifecycleOp.slot? : LifecycleOp → Option ℕ
  | .halt slot => some slot
  | .retry slot => some slot
  | .remove slot => some slot
  | _ => none

namespace DaemonLifecycle

/-! ## The queue -/

/-- The first operation waits for the slot that it deletes. -/
def Doomed (tasks : List (ChainTask Lifecycle)) : Prop :=
  ∃ t wait, tasks.head? = some t ∧ t.started = true ∧ t.work.progress = .waits wait ∧
    t.work.op.deletes = true

/-- The restarts of a slot that have not begun. -/
def queuedRetries (tasks : List (ChainTask Lifecycle)) (number : ℕ) : ℕ :=
  tasks.countP fun t => !t.started && t.work.op = .retry number

/-- The restarts of a slot that have happened, that the timer will enqueue and that are
    enqueued stay in the budget, and a stop after a failure is the next operation. -/
structure Calm (tasks : List (ChainTask Lifecycle)) (slot : ChildSlot) : Prop where
  retries : slot.restartAttempt + slot.restartTimer.toNat + queuedRetries tasks slot.number ≤
    restartBackoffs
  halts : ∀ t ∈ tasks.tail, t.work.op ≠ .halt slot.number
  halted : ∀ t, tasks.head? = some t → t.started = false → t.work.op = .halt slot.number →
    slot.child.rpc.runtime = .failed

/-- What holds of an id between two steps. -/
structure Sound (s : DaemonLifecycle) : Prop where
  linked : s.queue.Linked
  core : s.Core
  named : ∀ t ∈ s.queue.tasks, ∀ number, t.work.op.slot? = some number → number < s.nextSlot
  reached : ∀ t, s.queue.tasks.head? = some t → t.started = true → Reached s.slot t.work
  calm : ¬ Doomed s.queue.tasks → ∀ slot, s.slot = some slot → Calm s.queue.tasks slot

variable {s s' : DaemonLifecycle} {tasks : List (ChainTask Lifecycle)}
  {t u : ChainTask Lifecycle} {slot slot' : ChildSlot} {op : LifecycleOp}

theorem not_doomed_nil : ¬ Doomed [] := by
  rintro ⟨t, wait, hhead, -⟩
  cases hhead

theorem not_doomed_of_started (hhead : tasks.head? = some t) (hstarted : t.started = false) :
    ¬ Doomed tasks := by
  rintro ⟨u, wait, hu, hset, -⟩
  cases hhead.symm.trans hu
  rw [hstarted] at hset
  cases hset

/-- A task behind the others that has not started. -/
theorem doomed_append (hstarted : u.started = false) : Doomed (tasks ++ [u]) ↔ Doomed tasks := by
  cases tasks with
  | nil =>
    exact iff_of_false (not_doomed_of_started (t := u) rfl hstarted) not_doomed_nil
  | cons first rest => exact Iff.rfl

theorem queuedRetries_append (number : ℕ) : queuedRetries (tasks ++ [u]) number =
    queuedRetries tasks number + if !u.started && u.work.op = .retry number then 1 else 0 := by
  rw [queuedRetries, List.countP_append, List.countP_singleton]
  rfl

theorem queuedRetries_eq_zero (h : ∀ t ∈ tasks, t.work.op ≠ .retry slot.number) :
    queuedRetries tasks slot.number = 0 := by
  refine List.countP_eq_zero.mpr fun t ht => ?_
  rw [decide_eq_false (h t ht), Bool.and_false]
  exact Bool.false_ne_true

/-- An operation that is enqueued behind the others. -/
theorem Calm.enqueue (h : Calm tasks slot) (hstarted : u.started = false)
    (hretry : u.work.op = .retry slot.number →
      slot.restartAttempt + slot.restartTimer.toNat + queuedRetries tasks slot.number <
        restartBackoffs)
    (hhalt : u.work.op = .halt slot.number →
      tasks = [] ∧ slot.child.rpc.runtime = .failed) : Calm (tasks ++ [u]) slot := by
  refine ⟨?_, fun t ht hop => ?_, fun t hhead hnot hop => ?_⟩
  · rw [queuedRetries_append, hstarted]
    have hbefore := h.retries
    split_ifs with hset
    · have hlt := hretry (by simpa using hset)
      omega
    · exact hbefore
  · cases tasks with
    | nil => cases ht
    | cons first rest =>
      rcases List.mem_append.mp ht with ht | ht
      · exact h.halts t ht hop
      · rw [List.mem_singleton.mp ht] at hop
        cases (hhalt hop).1
  · cases tasks with
    | nil =>
      cases hhead
      exact (hhalt hop).2
    | cons first rest => exact h.halted t hhead hnot hop

theorem Sound.enqueue (h : Sound s)
    (hnamed : ∀ number, op.slot? = some number → number < s.nextSlot)
    (hretry : ¬ Doomed s.queue.tasks → ∀ slot, s.slot = some slot → op = .retry slot.number →
      slot.restartAttempt + slot.restartTimer.toNat + queuedRetries s.queue.tasks slot.number <
        restartBackoffs)
    (hhalt : ¬ Doomed s.queue.tasks → ∀ slot, s.slot = some slot → op = .halt slot.number →
      s.queue.tasks = [] ∧ slot.child.rpc.runtime = .failed) :
    Sound (s.enqueueLifecycle op).1 where
  linked := h.linked.enqueue _
  core := ⟨h.core.registered, h.core.slot, h.core.removed⟩
  named := by
    intro t ht number hnumber
    rcases List.mem_append.mp ht with ht | ht
    · exact h.named t ht number hnumber
    · rw [List.mem_singleton.mp ht] at hnumber
      exact hnamed number hnumber
  reached := by
    intro t hhead hstarted
    have htasks : (s.queue.enqueue ⟨op, .queued⟩).tasks =
      s.queue.tasks ++ [⟨s.queue.next, s.queue.tail, false, ⟨op, .queued⟩⟩] := rfl
    change (s.queue.enqueue ⟨op, .queued⟩).tasks.head? = some t at hhead
    rw [htasks] at hhead
    cases hqueue : s.queue.tasks with
    | nil =>
      rw [hqueue] at hhead
      cases hhead
      cases hstarted
    | cons first rest =>
      rw [hqueue] at hhead
      exact h.reached t (by rw [hqueue]; exact hhead) hstarted
  calm := by
    intro hnot slot hslot
    have hnot : ¬ Doomed s.queue.tasks := fun hdoomed => hnot ((doomed_append rfl).mpr hdoomed)
    exact (h.calm hnot slot hslot).enqueue rfl (hretry hnot slot hslot) (hhalt hnot slot hslot)

/-- An operation that is no restart and no stop after a failure. -/
theorem Sound.enqueue_other (h : Sound s)
    (hnamed : ∀ number, op.slot? = some number → number < s.nextSlot)
    (hretry : ∀ number, op ≠ .retry number) (hhalt : ∀ number, op ≠ .halt number) :
    Sound (s.enqueueLifecycle op).1 :=
  h.enqueue hnamed (fun _ _ _ hop => absurd hop (hretry _)) fun _ _ _ hop => absurd hop (hhalt _)

/-! ## The slot -/

/-- What a slot keeps for an operation that waits for it. -/
structure Steady (slot slot' : ChildSlot) : Prop where
  number : slot'.number = slot.number
  child : slot'.child.rpc.child = slot.child.rpc.child
  stopping : slot'.child.rpc.stopping = slot.child.rpc.stopping
  failed : slot.child.rpc.runtime = .failed → slot'.child.rpc.runtime = .failed
  entry : slot'.entry = slot.entry

theorem Steady.refl (slot : ChildSlot) : Steady slot slot := ⟨rfl, rfl, rfl, id, rfl⟩

theorem Steady.awaited (h : Steady slot slot')
    (hblocked : op = .start → slot.blocked = false → slot'.blocked = false) {wait : StopWait}
    (hwait : Awaited op wait slot) : Awaited op wait slot' where
  number := h.number.trans hwait.number
  exited := fun hexited => h.child.trans (hwait.exited hexited)
  stopping := by
    rw [h.child, h.stopping]
    exact hwait.stopping
  started := fun hop =>
    ⟨h.failed (hwait.started hop).1, hblocked hop (hwait.started hop).2⟩
  stopped := fun hop => by
    rw [h.entry]
    exact hwait.stopped hop
  halted := fun number hop => h.failed (hwait.halted number hop)
  retried := hwait.retried

theorem Steady.reached (h : Steady slot slot') {work : Lifecycle}
    (hblocked : work.op = .start → slot.blocked = false → slot'.blocked = false)
    (hreached : Reached (some slot) work) : Reached (some slot') work := by
  obtain ⟨op, progress⟩ := work
  cases progress with
  | queued => exact hreached
  | waits wait =>
    obtain ⟨awaited, heq, hwait⟩ := hreached
    cases heq
    exact ⟨slot', rfl, h.awaited hblocked hwait⟩
  | returned =>
    intro hstops other heq
    cases heq
    rw [h.entry]
    exact hreached hstops slot rfl
  | threw => trivial

/-- The slot of the id changes, and its restarts stay in the budget. It is not blocked while a
    start waits for its child. -/
theorem Sound.setSlot (h : Sound s) (hslot : s.slot = some slot) (hsteady : Steady slot slot')
    (hok : slot'.Ok)
    (hblocked : slot'.blocked = true →
      slot.blocked = true ∨ s.queue.tasks = [] ∨ Doomed s.queue.tasks)
    (hretries : ¬ Doomed s.queue.tasks → slot'.restartAttempt + slot'.restartTimer.toNat +
      queuedRetries s.queue.tasks slot.number ≤ restartBackoffs) :
    Sound { s with slot := some slot' } where
  linked := h.linked
  core := by
    refine ⟨fun _ => h.core.registered (by rw [hslot]; rfl), ?_, h.core.removed⟩
    rintro other ⟨⟩
    refine ⟨hok, ?_⟩
    rw [hsteady.number]
    exact (h.core.slot slot hslot).2
  named := h.named
  reached := by
    intro t hhead hstarted
    have hreached := h.reached t hhead hstarted
    rw [hslot] at hreached
    refine hsteady.reached (fun hop hfree => ?_) hreached
    rw [Bool.eq_false_iff]
    intro hset
    rcases hblocked hset with hbefore | hempty | ⟨u, wait, hu, -, -, hdeletes⟩
    · rw [hfree] at hbefore
      cases hbefore
    · change s.queue.tasks.head? = some t at hhead
      rw [hempty] at hhead
      cases hhead
    · cases hu.symm.trans hhead
      rw [hop] at hdeletes
      cases hdeletes
  calm := by
    rintro hnot other ⟨⟩
    have hcalm := h.calm hnot slot hslot
    refine ⟨?_, ?_, ?_⟩
    · rw [hsteady.number]
      exact hretries hnot
    · rw [hsteady.number]
      exact hcalm.halts
    · rw [hsteady.number]
      exact fun t hhead hstarted hop => hsteady.failed (hcalm.halted t hhead hstarted hop)

/-- The slot of the id changes and has no timer and no restart more. -/
theorem Sound.setSlot_of_le (h : Sound s) (hslot : s.slot = some slot) (hsteady : Steady slot slot')
    (hok : slot'.Ok)
    (hblocked : slot'.blocked = true →
      slot.blocked = true ∨ s.queue.tasks = [] ∨ Doomed s.queue.tasks)
    (hattempt : slot'.restartAttempt ≤ slot.restartAttempt)
    (htimer : slot'.restartTimer = true → slot.restartTimer = true) :
    Sound { s with slot := some slot' } := by
  refine h.setSlot hslot hsteady hok hblocked fun hnot => ?_
  have hcalm := (h.calm hnot slot hslot).retries
  have hle : slot'.restartTimer.toNat ≤ slot.restartTimer.toNat := by
    cases hset : slot'.restartTimer with
    | false => exact Nat.zero_le _
    | true => rw [htimer hset]
  omega

/-- A slot whose child has exited. -/
structure Exits (slot slot' : ChildSlot) : Prop where
  number : slot'.number = slot.number
  child : slot'.child.rpc.child = none
  failed : slot.child.rpc.runtime = .failed → slot'.child.rpc.runtime = .failed
  blocked : slot'.blocked = slot.blocked
  entry : slot'.entry = slot.entry

theorem resolve_waits {work : Lifecycle} {wait : StopWait} (hprogress : work.progress = .waits wait)
    (number : ℕ) : ∃ wait', (work.resolve number).progress = .waits wait' := by
  unfold Lifecycle.resolve
  rw [hprogress]
  dsimp only
  split_ifs
  · exact ⟨_, rfl⟩
  · exact ⟨_, hprogress⟩

theorem Exits.reached (h : Exits slot slot') {work : Lifecycle}
    (hreached : Reached (some slot) work) : Reached (some slot') (work.resolve slot.number) := by
  obtain ⟨op, progress⟩ := work
  cases progress with
  | queued => exact hreached
  | waits wait =>
    obtain ⟨awaited, heq, hwait⟩ := hreached
    cases heq
    simp only [Lifecycle.resolve, if_pos hwait.number.symm]
    refine ⟨slot', rfl, h.number.trans hwait.number, fun _ => h.child, nofun, fun hop => ?_,
      fun hop => ?_, fun number hop => h.failed (hwait.halted number hop), hwait.retried⟩
    · exact ⟨h.failed (hwait.started hop).1, h.blocked.trans (hwait.started hop).2⟩
    · rw [h.entry]
      exact hwait.stopped hop
  | returned =>
    intro hstops other heq
    cases heq
    rw [h.entry]
    exact hreached hstops slot rfl
  | threw => trivial

theorem Doomed.mapWork {queue : PromiseChain Lifecycle} (h : Doomed queue.tasks) (number : ℕ) :
    Doomed (queue.mapWork (Lifecycle.resolve number)).tasks := by
  obtain ⟨t, wait, hhead, hstarted, hprogress, hdeletes⟩ := h
  obtain ⟨wait', hwaits⟩ := resolve_waits hprogress number
  refine ⟨{ t with work := t.work.resolve number }, wait', ?_, hstarted, hwaits, ?_⟩
  · rw [PromiseChain.mapWork, List.head?_map, hhead]
    rfl
  · rw [Lifecycle.op_resolve]
    exact hdeletes

theorem queuedRetries_mapWork (queue : PromiseChain Lifecycle) (number : ℕ) :
    queuedRetries (queue.mapWork (Lifecycle.resolve number)).tasks number =
      queuedRetries queue.tasks number := by
  rw [queuedRetries, PromiseChain.mapWork, List.countP_map]
  simp only [Function.comp_def, Lifecycle.op_resolve]
  rfl

/-- The child of the slot has exited, and what waits for that goes on. -/
theorem Sound.exited (h : Sound s) (hslot : s.slot = some slot) (hexits : Exits slot slot')
    (hok : slot'.Ok) (hattempt : slot'.restartAttempt = slot.restartAttempt)
    (htimer : slot'.restartTimer = slot.restartTimer) :
    Sound (resolveWaits { s with slot := some slot' } slot.number) where
  linked := h.linked.mapWork _
  core := by
    refine ⟨fun _ => h.core.registered (by rw [hslot]; rfl), ?_, h.core.removed⟩
    rintro other ⟨⟩
    refine ⟨hok, ?_⟩
    rw [hexits.number]
    exact (h.core.slot slot hslot).2
  named := by
    intro t ht number hnumber
    obtain ⟨u, hu, rfl⟩ := List.mem_map.mp ht
    rw [Lifecycle.op_resolve] at hnumber
    exact h.named u hu number hnumber
  reached := by
    intro t hhead hstarted
    obtain ⟨u, hu, rfl⟩ := Option.map_eq_some_iff.mp ((List.head?_map ..).symm.trans hhead)
    have hreached := h.reached u hu hstarted
    rw [hslot] at hreached
    exact hexits.reached hreached
  calm := by
    rintro hnot other ⟨⟩
    have hcalm := h.calm (fun hdoomed => hnot (hdoomed.mapWork slot.number)) slot hslot
    refine ⟨?_, fun t ht => ?_, fun t hhead hstarted hop => ?_⟩
    · rw [hattempt, htimer, hexits.number]
      exact (queuedRetries_mapWork s.queue slot.number).symm ▸ hcalm.retries
    · change t ∈ (s.queue.tasks.map _).tail at ht
      rw [← List.map_tail] at ht
      obtain ⟨u, hu, rfl⟩ := List.mem_map.mp ht
      rw [Lifecycle.op_resolve, hexits.number]
      exact hcalm.halts u hu
    · obtain ⟨u, hu, rfl⟩ := Option.map_eq_some_iff.mp ((List.head?_map ..).symm.trans hhead)
      rw [Lifecycle.op_resolve, hexits.number] at hop
      exact hexits.failed (hcalm.halted u hu hstarted hop)

/-! ## Steps of an operation -/

section Operations

variable {rest : List (ChainTask Lifecycle)} {r : Outcome}

/-- Nothing in the queue has a slot in mind that is yet to be created. -/
theorem Sound.ne_nextSlot (h : Sound s) (ht : t ∈ s.queue.tasks) {number : ℕ}
    (hnumber : s.nextSlot ≤ number) : t.work.op.slot? ≠ some number := fun heq =>
  absurd (h.named t ht number heq) (Nat.not_lt.mpr hnumber)

/-- A slot that has just been created, and a queue of which nothing has it in mind. -/
theorem calm_new (hnew : slot'.restartTimer = false) (hattempt : slot'.restartAttempt = 0)
    (hnamed : ∀ t ∈ tasks, t.work.op.slot? ≠ some slot'.number) : Calm tasks slot' := by
  refine ⟨?_, fun t ht hop => ?_, fun t hhead _ hop => ?_⟩
  · rw [hnew, hattempt, queuedRetries_eq_zero fun t ht hop => hnamed t ht (by rw [hop]; rfl)]
    exact Nat.zero_le _
  · exact hnamed t (List.mem_of_mem_tail ht) (by rw [hop]; rfl)
  · exact absurd (by rw [hop]; rfl) (hnamed t (List.mem_of_head? hhead))

/-- The restarts of a slot that continues another one stay in the budget. -/
theorem Calm.of_continues (h : Calm tasks slot) (hnumber : slot'.number = slot.number)
    (hattempt : slot'.restartAttempt = slot.restartAttempt)
    (htimer : slot'.restartTimer = true → slot.restartTimer = true)
    {tasks' : List (ChainTask Lifecycle)}
    (hqueued : queuedRetries tasks' slot.number ≤ queuedRetries tasks slot.number) :
    slot'.restartAttempt + slot'.restartTimer.toNat + queuedRetries tasks' slot'.number ≤
      restartBackoffs := by
  have hretries := h.retries
  have hle : slot'.restartTimer.toNat ≤ slot.restartTimer.toNat := by
    cases hset : slot'.restartTimer with
    | false => exact Nat.zero_le _
    | true => rw [htimer hset]
  rw [hnumber, hattempt]
  omega

theorem queuedRetries_cons (number : ℕ) : queuedRetries (t :: rest) number =
    queuedRetries rest number + if !t.started && t.work.op = .retry number then 1 else 0 := by
  rw [queuedRetries, List.countP_cons]
  rfl

/-- The first operation begins. -/
theorem Sound.run (h : Sound s) (htasks : s.queue.tasks = t :: rest) (hnot : t.started = false)
    (hgood : Good s t.work.op r) :
    Sound { r.1 with queue := r.1.queue.start t.token ⟨t.work.op, r.2.2⟩ } := by
  have hstart := h.linked.tasks_start htasks ⟨t.work.op, r.2.2⟩
  rw [← hgood.queue] at hstart
  have hdoomed : ¬ Doomed s.queue.tasks := by
    rw [htasks]
    exact not_doomed_of_started rfl hnot
  have hmem : ∀ u ∈ rest, u ∈ s.queue.tasks := fun u hu => by
    rw [htasks]
    exact List.mem_cons_of_mem t hu
  refine ⟨?_, ⟨hgood.core.registered, hgood.core.slot, hgood.core.removed⟩, ?_, ?_, ?_⟩
  · dsimp only
    rw [hgood.queue]
    exact h.linked.start htasks _
  · intro u hu number hnumber
    dsimp only at hu
    rw [hstart] at hu
    refine Nat.lt_of_lt_of_le ?_ hgood.next
    rcases List.mem_cons.mp hu with rfl | hu
    · exact h.named t (by rw [htasks]; exact List.mem_cons_self) number hnumber
    · exact h.named u (hmem u hu) number hnumber
  · intro u hhead _
    dsimp only at hhead
    rw [hstart] at hhead
    cases hhead
    exact hgood.reached
  · intro _ slot' hslot'
    dsimp only
    rw [hstart]
    have hothers : ∀ slot, Calm s.queue.tasks slot → slot'.number = slot.number →
        ∀ u ∈ rest, u.work.op ≠ .halt slot'.number := fun slot hcalm hnumber u hu => by
      rw [hnumber]
      refine hcalm.halts u ?_
      rw [htasks]
      exact hu
    rcases hgood.change with ⟨hcontinues, -⟩ |
      ⟨slot, slot'', hslot, heq, hop, -, hnumber, -, htimer, hattempt, -⟩
    · rcases hcontinues slot' hslot' with ⟨-, hnumber, htimer, hattempt⟩ |
        ⟨slot, hslot, hnumber, hattempt, htimer, -⟩
      · refine calm_new htimer hattempt fun u hu => ?_
        rcases List.mem_cons.mp hu with rfl | hu
        · exact h.ne_nextSlot (t := t) (by rw [htasks]; exact List.mem_cons_self) hnumber.ge
        · exact h.ne_nextSlot (hmem u hu) hnumber.ge
      · have hcalm := h.calm hdoomed slot hslot
        refine ⟨hcalm.of_continues hnumber hattempt htimer ?_, hothers slot hcalm hnumber, ?_⟩
        · rw [htasks, queuedRetries_cons, queuedRetries_cons]
          exact Nat.add_le_add_left (Nat.zero_le _) _
        · intro u hhead hset
          cases hhead
          cases hset
    · cases hslot'.symm.trans heq
      have hcalm := h.calm hdoomed slot hslot
      refine ⟨?_, hothers slot hcalm hnumber, ?_⟩
      · have hretries := hcalm.retries
        rw [htasks, queuedRetries_cons, hnot, hop, if_pos (by simp)] at hretries
        rw [queuedRetries_cons, hnumber, hattempt, htimer, if_neg (by simp)]
        omega
      · intro u hhead hset
        cases hhead
        cases hset

/-- The first operation has come to its end. -/
theorem Sound.resume (h : Sound s) (htasks : s.queue.tasks = t :: rest)
    (hgood : Good s t.work.op r)
    (hcontinues : ∀ slot', r.1.slot = some slot' → s.Continues t.work.op slot')
    (hdeletes : Doomed s.queue.tasks → ∀ slot', r.1.slot = some slot' → slot'.number = s.nextSlot) :
    Sound { r.1 with queue := r.1.queue.settle t.token } := by
  have hsettle := h.linked.tasks_settle htasks
  rw [← hgood.queue] at hsettle
  have hmem : ∀ u ∈ rest, u ∈ s.queue.tasks := fun u hu => by
    rw [htasks]
    exact List.mem_cons_of_mem t hu
  refine ⟨?_, ⟨hgood.core.registered, hgood.core.slot, hgood.core.removed⟩, ?_, ?_, ?_⟩
  · dsimp only
    rw [hgood.queue]
    exact h.linked.settle htasks
  · intro u hu number hnumber
    dsimp only at hu
    rw [hsettle] at hu
    exact Nat.lt_of_lt_of_le (h.named u (hmem u hu) number hnumber) hgood.next
  · -- what comes behind the first operation has not started
    intro u hhead hstarted
    dsimp only at hhead
    rw [hsettle] at hhead
    have hwaits := h.linked.waits u (by rw [htasks]; exact List.mem_of_head? hhead)
    rw [hwaits] at hstarted
    cases hstarted
  · intro _ slot' hslot'
    dsimp only
    rw [hsettle]
    rcases hcontinues slot' hslot' with ⟨-, hnumber, htimer, hattempt⟩ |
        ⟨slot, hslot, hnumber, hattempt, htimer, -⟩
    · exact calm_new htimer hattempt fun u hu => h.ne_nextSlot (hmem u hu) hnumber.ge
    · have hnot : ¬ Doomed s.queue.tasks := by
        intro hdoomed
        have hlt := (h.core.slot slot hslot).2
        rw [← hnumber, hdeletes hdoomed slot' hslot'] at hlt
        exact Nat.lt_irrefl _ hlt
      have hcalm := h.calm hnot slot hslot
      refine ⟨hcalm.of_continues hnumber hattempt htimer ?_, fun u hu => ?_,
        fun u hhead _ hop => ?_⟩
      · rw [htasks, queuedRetries_cons]
        exact Nat.le_add_right _ _
      · rw [hnumber]
        refine hcalm.halts u ?_
        rw [htasks]
        exact List.mem_of_mem_tail hu
      · rw [hnumber] at hop
        refine absurd hop (hcalm.halts u ?_)
        rw [htasks]
        exact List.mem_of_head? hhead

end Operations

/-! ## Events -/

/-- A step that is no step of an operation. -/
structure Moved (s : DaemonLifecycle) (r : DaemonLifecycle × List LifecycleEvent) : Prop where
  sound : Sound r.1
  booked : ∀ log, Booked s.queue log → Booked r.1.queue (log ++ r.2)
  next : r.1.nextSlot = s.nextSlot
  slot : ∀ slot', r.1.slot = some slot' → ∃ slot, s.slot = some slot ∧
    slot'.number = slot.number ∧ slot'.restartAttempt = slot.restartAttempt ∧
    slot'.entry = slot.entry
  enqueues : ∀ event ∈ r.2, ∃ token op, event = .enqueued token op

theorem Moved.of_queue (hsound : Sound s') (hqueue : s'.queue = s.queue)
    (hnext : s'.nextSlot = s.nextSlot)
    (hslot : ∀ slot', s'.slot = some slot' → ∃ slot, s.slot = some slot ∧
      slot'.number = slot.number ∧ slot'.restartAttempt = slot.restartAttempt ∧
      slot'.entry = slot.entry) : Moved s (s', []) where
  sound := hsound
  booked := fun log hbooked => by
    rw [List.append_nil, hqueue]
    exact hbooked
  next := hnext
  slot := hslot
  enqueues := fun _ hmem => by cases hmem

theorem Moved.refl (h : Sound s) : Moved s (s, []) :=
  .of_queue h rfl rfl fun slot' heq => ⟨slot', heq, rfl, rfl, rfl⟩

theorem Moved.trans {r : DaemonLifecycle × List LifecycleEvent} (h : Moved s (s', []))
    (h' : Moved s' r) : Moved s r where
  sound := h'.sound
  booked := fun log hbooked => by
    have hmiddle := h.booked log hbooked
    rw [List.append_nil] at hmiddle
    exact h'.booked log hmiddle
  next := h'.next.trans h.next
  slot := fun slot'' heq => by
    obtain ⟨slot', hslot', hnumber', hattempt', hentry'⟩ := h'.slot slot'' heq
    obtain ⟨slot, hslot, hnumber, hattempt, hentry⟩ := h.slot slot' hslot'
    exact ⟨slot, hslot, hnumber'.trans hnumber, hattempt'.trans hattempt, hentry'.trans hentry⟩
  enqueues := h'.enqueues

theorem Moved.enqueue (hsound : Sound (s.enqueueLifecycle op).1) :
    Moved s (s.enqueueLifecycle op) where
  sound := hsound
  booked := fun _ hbooked => hbooked.enqueue op
  next := rfl
  slot := fun slot' heq => ⟨slot', heq, rfl, rfl, rfl⟩
  enqueues := fun _ hmem => ⟨_, _, List.mem_singleton.mp hmem⟩

theorem Moved.setSlot (hslot : s.slot = some slot) (hsound : Sound { s with slot := some slot' })
    (hnumber : slot'.number = slot.number) (hattempt : slot'.restartAttempt = slot.restartAttempt)
    (hentry : slot'.entry = slot.entry) : Moved s ({ s with slot := some slot' }, []) := by
  refine .of_queue hsound rfl rfl ?_
  rintro other ⟨⟩
  exact ⟨slot, hslot, hnumber, hattempt, hentry⟩

/-- The timer is set, or the slot is left. -/
theorem scheduleRetry_cases (slot : ChildSlot) : slot.scheduleRetry = slot ∨
    slot.scheduleRetry = { slot with restartTimer := true } ∧
      slot.restartAttempt < restartBackoffs := by
  unfold ChildSlot.scheduleRetry
  split_ifs with hnot hexhausted
  · exact .inl rfl
  · exact .inl rfl
  · exact .inr ⟨rfl, Nat.not_le.mp hexhausted⟩

/-- The timer of a slot is set while no operation is in the queue, or while the first one will
    delete the slot. -/
theorem Moved.scheduleRetry (h : Sound s) (hslot : s.slot = some slot)
    (hquiet : s.queue.tasks = [] ∨ Doomed s.queue.tasks) :
    Moved s ({ s with slot := some slot.scheduleRetry }, []) := by
  have hok := (h.core.slot slot hslot).1
  rcases scheduleRetry_cases slot with heq | ⟨heq, hlt⟩
  · rw [heq]
    have hsound := h.setSlot_of_le hslot (.refl slot) hok .inl (Nat.le_refl _) id
    exact .setSlot hslot hsound rfl rfl rfl
  · rw [heq]
    have hsteady : Steady slot { slot with restartTimer := true } := ⟨rfl, rfl, rfl, id, rfl⟩
    have hsound := h.setSlot hslot hsteady ⟨hok.held, hok.blocked⟩ .inl fun hnot => by
      rw [hquiet.resolve_right hnot]
      exact hlt
    exact .setSlot hslot hsound rfl rfl rfl

/-- The child of the slot has exited; one that crashes is restarted. -/
theorem Moved.onChildExit (h : Sound s) (hslot : s.slot = some slot) {isCrash : Bool}
    (hquiet : isCrash = true → s.queue.tasks = []) : Moved s (s.onChildExit slot isCrash) := by
  have hok := (h.core.slot slot hslot).1
  have hsteady : Steady slot slot.cancelStabilityReset := ⟨rfl, rfl, rfl, id, rfl⟩
  have hsound := h.setSlot_of_le hslot hsteady ⟨hok.held, hok.blocked⟩ .inl (Nat.le_refl _) id
  have hcancel : Moved s ({ s with slot := some slot.cancelStabilityReset }, []) :=
    .setSlot hslot hsound rfl rfl rfl
  unfold DaemonLifecycle.onChildExit
  split_ifs with hignored hnot
  · exact .refl h
  · exact hcancel
  · have hcrash : isCrash = true := by simpa using hnot
    exact hcancel.trans (.scheduleRetry hcancel.sound rfl (.inl (hquiet hcrash)))

/-- The stop after a failure is enqueued while no operation is in the queue, or while the first
    one will delete the slot. -/
theorem Moved.enqueueHalt (h : Sound s) (hslot : s.slot = some slot)
    (hfailed : slot.child.rpc.runtime = .failed)
    (hquiet : s.queue.tasks = [] ∨ Doomed s.queue.tasks) {number : ℕ}
    (hnumber : slot.number = number) : Moved s (s.enqueueLifecycle (.halt number)) := by
  subst hnumber
  refine .enqueue (h.enqueue ?_ (fun _ _ _ hop => ?_) fun hnot other heq _ => ?_)
  · rintro number ⟨⟩
    exact (h.core.slot slot hslot).2
  · cases hop
  · cases hslot.symm.trans heq
    exact ⟨hquiet.resolve_right hnot, hfailed⟩

/-- A failure of the runtime stops the child once the queue is free. -/
theorem Moved.onRuntimeFailed (h : Sound s) (hslot : s.slot = some slot)
    (hfailed : slot.child.rpc.runtime = .failed)
    (hquiet : slot.entry.desiredState ≠ .stopped →
      s.queue.tasks = [] ∨ Doomed s.queue.tasks)
    (retryable : Bool) : Moved s (s.onRuntimeFailed slot retryable) := by
  have hok := (h.core.slot slot hslot).1
  unfold DaemonLifecycle.onRuntimeFailed
  split_ifs with hstopped hnot
  · exact .refl h
  · have hquiet := hquiet hstopped
    have hsteady : Steady slot { slot with blocked := true }.cancelRetry.cancelStabilityReset :=
      ⟨rfl, rfl, rfl, id, rfl⟩
    have hsound := h.setSlot_of_le hslot hsteady ⟨hok.held, fun _ => hfailed⟩ (fun _ => .inr hquiet)
      (Nat.le_refl _) fun hset => absurd hset Bool.false_ne_true
    have hblock : Moved s ({ s with
        slot := some { slot with blocked := true }.cancelRetry.cancelStabilityReset }, []) :=
      .setSlot hslot hsound rfl rfl rfl
    exact hblock.trans (.enqueueHalt hsound rfl hfailed hquiet rfl)
  · have hquiet := hquiet hstopped
    have hschedule := Moved.scheduleRetry h hslot hquiet
    rcases scheduleRetry_cases slot with heq | ⟨heq, -⟩
    · rw [heq] at hschedule ⊢
      exact hschedule.trans (.enqueueHalt hschedule.sound rfl hfailed hquiet rfl)
    · rw [heq] at hschedule ⊢
      exact hschedule.trans (.enqueueHalt hschedule.sound rfl hfailed hquiet rfl)

theorem Moved.onRuntimeReady (h : Sound s) (hslot : s.slot = some slot) :
    Moved s (s.onRuntimeReady slot) := by
  have hok := (h.core.slot slot hslot).1
  unfold DaemonLifecycle.onRuntimeReady
  split_ifs
  · exact .refl h
  · have hsteady : Steady slot { slot with stabilityTimer := true } := ⟨rfl, rfl, rfl, id, rfl⟩
    have hsound := h.setSlot_of_le hslot hsteady ⟨hok.held, hok.blocked⟩ .inl (Nat.le_refl _) id
    exact .setSlot hslot hsound rfl rfl rfl

/-- When no step of an operation is due, the first operation waits for a child to exit. -/
theorem Sound.waits_of_idle (h : Sound s) (hidle : s.idle = true)
    (hhead : s.queue.tasks.head? = some t) : t.started = true ∧
      ∃ wait, t.work.progress = .waits wait ∧ wait.exited = false := by
  obtain ⟨rest, htasks⟩ : ∃ rest, s.queue.tasks = t :: rest := by
    cases hqueue : s.queue.tasks with
    | nil =>
      rw [hqueue] at hhead
      cases hhead
    | cons first rest =>
      rw [hqueue] at hhead
      cases hhead
      exact ⟨rest, rfl⟩
  have hdue := List.all_eq_true.mp hidle t (List.mem_of_head? hhead)
  rw [h.linked.ready_head htasks, Bool.not_not, Bool.and_eq_true, Bool.not_eq_true'] at hdue
  obtain ⟨hstarted, hnot⟩ := hdue
  refine ⟨hstarted, ?_⟩
  rw [resumable, hstarted, Bool.true_and] at hnot
  cases hprogress : t.work.progress with
  | waits wait =>
    rw [hprogress] at hnot
    exact ⟨wait, rfl, hnot⟩
  | _ =>
    rw [hprogress] at hnot
    cases hnot

/-- The first operation waits for the slot of the id. -/
theorem Sound.awaited_of_idle (h : Sound s) (hidle : s.idle = true) (hslot : s.slot = some slot)
    (hhead : s.queue.tasks.head? = some t) : ∃ wait, t.started = true ∧
      t.work.progress = .waits wait ∧ wait.exited = false ∧ Awaited t.work.op wait slot := by
  obtain ⟨hstarted, wait, hprogress, hexited⟩ := h.waits_of_idle hidle hhead
  have hreached := h.reached t hhead hstarted
  rw [Reached, hprogress, hslot] at hreached
  obtain ⟨awaited, heq, hwait⟩ := hreached
  cases heq
  exact ⟨wait, hstarted, hprogress, hexited, hwait⟩

/-- A child that is not being stopped exits while no operation is in the queue. -/
theorem Sound.tasks_of_crash (h : Sound s) (hidle : s.idle = true) (hslot : s.slot = some slot)
    (hcrash : slot.child.rpc.stopping = false) : s.queue.tasks = [] := by
  cases htasks : s.queue.tasks with
  | nil => rfl
  | cons t rest =>
    obtain ⟨wait, -, -, hexited, hwait⟩ :=
      h.awaited_of_idle hidle hslot (t := t) (by rw [htasks]; rfl)
    rw [(hwait.stopping hexited).2] at hcrash
    cases hcrash

/-- The runtime of a child fails while no operation is in the queue, while the first one will
    delete its slot, or when the daemon is to be stopped. -/
theorem Sound.tasks_of_failure (h : Sound s) (hidle : s.idle = true) (hslot : s.slot = some slot)
    (hruntime : slot.child.rpc.runtime ≠ .failed)
    (hrunning : slot.entry.desiredState ≠ .stopped) :
    s.queue.tasks = [] ∨ Doomed s.queue.tasks := by
  cases htasks : s.queue.tasks with
  | nil => exact .inl rfl
  | cons t rest =>
    obtain ⟨wait, hstarted, hprogress, -, hwait⟩ :=
      h.awaited_of_idle hidle hslot (t := t) (by rw [htasks]; rfl)
    refine .inr ⟨t, wait, rfl, hstarted, hprogress, ?_⟩
    cases hop : t.work.op with
    | start => exact absurd (hwait.started hop).1 hruntime
    | stop => exact absurd (hwait.stopped hop) hrunning
    | halt number => exact absurd (hwait.halted number hop) hruntime
    | retry number => exact absurd hop (hwait.retried number)
    | restart => rfl
    | unregister => rfl
    | remove number => rfl

theorem receiveAll_singleton (s : DaemonLifecycle) (number : ℕ) (event : ChildEvent) :
    s.receiveAll number [event] = s.receive number event := by
  simp only [receiveAll, List.append_nil]

theorem receive_eq (slot : ChildSlot) (hslot : s.slot = some slot) (event : ChildEvent) :
    s.receive slot.number event =
      match event with
      | .exit isCrash => s.onChildExit slot isCrash
      | .runtimeReady => s.onRuntimeReady slot
      | .runtimeFailed _ retryable => s.onRuntimeFailed slot retryable := by
  rw [receive, hslot]
  exact if_neg (not_not.mpr rfl)

/-- A handler of the child that is not the one of its exit, and what the supervisor makes of
    what it emits. -/
theorem Moved.heard (h : Sound s) (hidle : s.idle = true) (hslot : s.slot = some slot)
    {child : ChildRun} (hheld : child.Held) {events : List ChildEvent}
    (hears : slot.child.rpc.Hears (child.rpc, events)) :
    Moved s
      (receiveAll { s with slot := some { slot with child := child } } slot.number events) := by
  have hok := (h.core.slot slot hslot).1
  have hsteady : Steady slot { slot with child := child } :=
    ⟨rfl, hears.child, hears.stopping, hears.failed, rfl⟩
  have hsound := h.setSlot_of_le hslot hsteady ⟨hheld, fun hset => hears.failed (hok.blocked hset)⟩
    .inl (Nat.le_refl _) id
  have hchild : Moved s ({ s with slot := some { slot with child := child } }, []) :=
    .setSlot hslot hsound rfl rfl rfl
  rcases hears.emits with hevents | hevents | ⟨hruntime, hfailed, code, retryable, hevents⟩
  · dsimp only at hevents
    rw [hevents]
    exact hchild
  · dsimp only at hevents
    rw [hevents, receiveAll_singleton]
    refine hchild.trans ?_
    rw [receive_eq { slot with child := child } rfl]
    exact .onRuntimeReady hsound rfl
  · dsimp only at hevents
    rw [hevents, receiveAll_singleton]
    refine hchild.trans ?_
    rw [receive_eq { slot with child := child } rfl]
    have hquiet : slot.entry.desiredState ≠ .stopped →
        s.queue.tasks = [] ∨ Doomed s.queue.tasks := h.tasks_of_failure hidle hslot hruntime
    exact .onRuntimeFailed hsound rfl hfailed hquiet retryable

/-- The exit of the child. -/
theorem Moved.childExited (h : Sound s) (hidle : s.idle = true) (hslot : s.slot = some slot)
    {process : ProcessId} {child : ChildRun}
    (hstep : slot.child.step (.exited process) = some child) :
    Moved s (receiveAll (resolveWaits { s with slot := some { slot with child := child } }
      slot.number) slot.number slot.child.rpc.onExit.2) := by
  have hok := (h.core.slot slot hslot).1
  have hrpc : child.rpc = slot.child.rpc.onExit.1 := by
    simp only [ChildRun.step] at hstep
    split_ifs at hstep
    cases hstep
    rfl
  have hfailed : slot.child.rpc.runtime = .failed → child.rpc.runtime = .failed := by
    intro hset
    rw [hrpc]
    exact if_pos hset
  have hexits : Exits slot { slot with child := child } :=
    ⟨rfl, by rw [hrpc]; rfl, hfailed, rfl, rfl⟩
  have hsound := h.exited hslot hexits ⟨hok.held.step hstep, fun hset => hfailed (hok.blocked hset)⟩
    rfl rfl
  have hchild : Moved s (resolveWaits { s with slot := some { slot with child := child } }
      slot.number, []) := by
    refine ⟨hsound, fun log hbooked => ?_, rfl, ?_, fun _ hmem => by cases hmem⟩
    · rw [List.append_nil]
      exact hbooked.mapWork slot.number
    · rintro other ⟨⟩
      exact ⟨slot, hslot, rfl, rfl, rfl⟩
  rw [RpcChild.onExit, receiveAll_singleton]
  refine hchild.trans ?_
  rw [receive_eq { slot with child := child } rfl]
  refine .onChildExit hsound rfl fun hcrash => ?_
  have htasks := h.tasks_of_crash hidle hslot (by simpa using hcrash)
  change s.queue.tasks.map _ = []
  rw [htasks]
  rfl

theorem Moved.onProcess (h : Sound s) (hidle : s.idle = true) (hslot : s.slot = some slot)
    {event : ProcessEvent} {r : DaemonLifecycle × List LifecycleEvent}
    (hstep : s.onProcess slot event = some r) : Moved s r := by
  have hok := (h.core.slot slot hslot).1
  cases hchild : slot.child.step event.label with
  | none =>
    rw [DaemonLifecycle.onProcess, hchild] at hstep
    cases hstep
  | some child =>
    have hheld := hok.held.step hchild
    rw [DaemonLifecycle.onProcess, hchild] at hstep
    cases event with
    | exited process =>
      cases hstep
      exact .childExited h hidle hslot hchild
    | spawned process =>
      cases hstep
      refine .heard h hidle hslot hheld ?_
      simp only [ProcessEvent.label, ChildRun.step] at hchild
      split_ifs at hchild
      cases hchild
      exact RpcChild.hears_onSpawn _ _
    | spawnFailed process =>
      cases hstep
      refine .heard h hidle hslot hheld ?_
      simp only [ProcessEvent.label, ChildRun.step] at hchild
      split_ifs at hchild
      cases hchild
      exact RpcChild.hears_onError _
    | message said =>
      cases hstep
      refine .heard h hidle hslot hheld ?_
      cases hchild
      exact RpcChild.hears_onMessage _ _
    | readinessTimeout =>
      cases hstep
      refine .heard h hidle hslot hheld ?_
      simp only [ProcessEvent.label, ChildRun.step] at hchild
      split_ifs at hchild
      cases hchild
      exact (RpcChild.hears_onReadinessTimeout
        { slot.child.rpc with readinessTimer := false }).of_same rfl rfl rfl rfl

/-- A slot that is not in `children` any more goes on without a process. -/
theorem Moved.updateRemoved (h : Sound s) (number : ℕ) {f : ChildSlot → ChildSlot}
    (hgone : ∀ slot, slot.Gone s.nextSlot → (f slot).Gone s.nextSlot) :
    Moved s (s.updateRemoved number f, []) := by
  refine .of_queue ⟨h.linked, ⟨h.core.registered, h.core.slot, fun slot hmem => ?_⟩, h.named,
    h.reached, h.calm⟩ rfl rfl fun slot' heq => ⟨slot', heq, rfl, rfl, rfl⟩
  obtain ⟨before, hbefore, rfl⟩ := List.mem_map.mp hmem
  have hbefore := h.core.removed before hbefore
  split_ifs
  · exact hgone before hbefore
  · exact hbefore

/-- No process starts in a slot that has none. -/
theorem gone_event {nextSlot : ℕ} (h : slot.Gone nextSlot) (event : ProcessEvent) :
    ChildSlot.Gone { slot with child := (slot.child.step event.label).getD slot.child }
      nextSlot := by
  have hstarting := h.starting
  have hstarted := h.started
  cases event with
  | spawned process =>
    simp only [ProcessEvent.label, ChildRun.step, hstarting, List.not_mem_nil, if_false,
      Option.getD_none]
    exact h
  | spawnFailed process =>
    simp only [ProcessEvent.label, ChildRun.step, hstarting, List.not_mem_nil, if_false,
      Option.getD_none]
    exact h
  | exited process =>
    simp only [ProcessEvent.label, ChildRun.step, hstarted, List.not_mem_nil, if_false,
      Option.getD_none]
    exact h
  | message said => exact ⟨hstarting, hstarted, h.number⟩
  | readinessTimeout =>
    simp only [ProcessEvent.label, ChildRun.step]
    split_ifs
    · exact ⟨hstarting, hstarted, h.number⟩
    · exact h

theorem Moved.setRegistered (h : Sound s) {registered : Option DaemonEntry}
    (hregistered : s.slot.isSome = true → registered.isSome = true) :
    Moved s ({ s with registered := registered }, []) :=
  .of_queue ⟨h.linked, ⟨hregistered, h.core.slot, h.core.removed⟩, h.named, h.reached, h.calm⟩ rfl
    rfl fun slot' heq => ⟨slot', heq, rfl, rfl, rfl⟩

theorem Moved.reconcile (h : Sound s) (cwdExists : Bool) : Moved s (s.reconcile cwdExists) := by
  unfold DaemonLifecycle.reconcile
  cases hslot : s.slot with
  | none =>
    dsimp only
    split_ifs
    · exact .refl h
    · have hclear : Moved s ({ s with registered := none }, []) :=
        .setRegistered h fun hsome => by rw [hslot] at hsome; cases hsome
      rw [hslot] at hclear
      exact hclear
  | some slot =>
    obtain ⟨hok, hlt⟩ := h.core.slot slot hslot
    dsimp only
    have hset : ∀ slot', Steady slot slot' → slot'.child = slot.child →
        slot'.blocked = slot.blocked → slot'.restartAttempt = slot.restartAttempt →
        (slot'.restartTimer = true → slot.restartTimer = true) →
        Moved s ({ s with slot := some slot' }, []) := by
      intro slot' hsteady hchild hblocked hattempt htimer
      have hok' : slot'.Ok := ⟨by rw [hchild]; exact hok.held, by
        rw [hblocked, hchild]
        exact hok.blocked⟩
      exact .setSlot hslot (h.setSlot_of_le hslot hsteady hok' (fun hset => .inl (hblocked ▸ hset))
        hattempt.le htimer) hsteady.number hattempt hsteady.entry
    split_ifs
    · exact hset _ ⟨rfl, rfl, rfl, id, rfl⟩ rfl rfl rfl id
    · exact hset _ ⟨rfl, rfl, rfl, id, rfl⟩ rfl rfl rfl id
    · have hmoved := hset { slot with
          missingCwdObservations := slot.missingCwdObservations + 1
          reconcileInProgress := true
          restartTimer := false } ⟨rfl, rfl, rfl, id, rfl⟩ rfl rfl rfl nofun
      refine hmoved.trans (.enqueue (hmoved.sound.enqueue_other ?_ nofun nofun))
      rintro number ⟨⟩
      exact hlt

theorem Moved.onRetryTimer (h : Sound s) (hslot : s.slot = some slot)
    {r : DaemonLifecycle × List LifecycleEvent} (hstep : s.onRetryTimer slot = some r) :
    Moved s r := by
  obtain ⟨hok, hlt⟩ := h.core.slot slot hslot
  unfold DaemonLifecycle.onRetryTimer at hstep
  split_ifs at hstep with htimer
  cases hstep
  rw [Bool.not_eq_true', Bool.not_eq_false] at htimer
  have hsteady : Steady slot { slot with restartTimer := false } := ⟨rfl, rfl, rfl, id, rfl⟩
  have hsound := h.setSlot_of_le hslot hsteady ⟨hok.held, hok.blocked⟩ .inl (Nat.le_refl _) nofun
  have hclear : Moved s ({ s with slot := some { slot with restartTimer := false } }, []) :=
    .setSlot hslot hsound rfl rfl rfl
  refine hclear.trans (.enqueue (hsound.enqueue ?_ (fun hnot other heq _ => ?_)
    fun _ _ _ hop => ?_))
  · rintro number ⟨⟩
    exact hlt
  · -- the timer makes room for the operation
    cases heq
    have hretries := (h.calm hnot slot hslot).retries
    rw [htimer, Bool.toNat_true] at hretries
    dsimp only [Bool.toNat_false]
    omega
  · cases hop

end DaemonLifecycle

end RemotePi.Daemon
