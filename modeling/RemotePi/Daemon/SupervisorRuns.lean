import RemotePi.Daemon.LifecycleQueue

/-!
# Runs of the supervisor

From the start of `Supervisor` (`pi-extension/src/daemon/supervisor.ts`) requests, registrations,
steps of operations, events of children, timers and reconciliations happen in any order, for
any number of ids.

Results:
* `inv_run`: what holds of every id in every run.
* `lifecycle_runs`: at most one child is alive for an id, its operations run one at a time in
  their order, a stop lasts until a start is enqueued after it, and the timer restarts the child
  of a slot at most four times without a reset.
-/

namespace RemotePi.Daemon

open RemotePi.Lib

namespace DaemonLifecycle

variable {calls : ProcessCalls} {s : DaemonLifecycle} {tasks : List (ChainTask Lifecycle)}
  {t : ChainTask Lifecycle} {slot : ChildSlot} {op : LifecycleOp} {log : List LifecycleEvent}

/-! ## Steps -/

/-- What holds of an id and of what has happened for it. -/
structure Inv (s : DaemonLifecycle × List LifecycleEvent) : Prop where
  sound : Sound s.1
  booked : Booked s.1.queue s.2
  told : Told s.1.slot s.1.nextSlot s.2

theorem Good.silent {r : Outcome} (hgood : Good s op r) : ∀ event ∈ r.2.1,
    event = .spawned ∨ ∃ number, event = .restarted number ∨ event = .reset number := by
  intro event hmem
  rcases hgood.change with ⟨-, hlog | ⟨-, hlog⟩⟩ |
    ⟨slot, -, -, -, -, -, -, -, -, -, hlog | hlog⟩
  · rw [hlog] at hmem
    cases hmem
  · rw [hlog] at hmem
    exact .inl (List.mem_singleton.mp hmem)
  · rw [hlog] at hmem
    exact .inr ⟨slot.number, .inl (List.mem_singleton.mp hmem)⟩
  · rw [hlog] at hmem
    rcases List.mem_cons.mp hmem with heq | hmem
    · exact .inr ⟨slot.number, .inl heq⟩
    · exact .inl (List.mem_singleton.mp hmem)

theorem Inv.moved (h : Inv (s, log)) {r : DaemonLifecycle × List LifecycleEvent}
    (hmoved : Moved s r) : Inv (r.1, log ++ r.2) where
  sound := hmoved.sound
  booked := hmoved.booked log h.booked
  told := by
    have hcontinues := h.told.continues hmoved.slot
    rw [← hmoved.next] at hcontinues
    refine hcontinues.silent (fun event hmem => ?_) fun token op hmem => ?_
    · obtain ⟨token, op, rfl⟩ := hmoved.enqueues event hmem
      exact ⟨nofun, fun number => ⟨nofun, nofun⟩⟩
    · obtain ⟨token', op', heq⟩ := hmoved.enqueues _ hmem
      cases heq

section Queue

variable {rest : List (ChainTask Lifecycle)} {r : Outcome}

/-- The first operation begins. -/
theorem Inv.began (h : Inv (s, log)) (htasks : s.queue.tasks = t :: rest)
    (hnot : t.started = false) (hgood : Good s t.work.op r) :
    Inv ({ r.1 with queue := r.1.queue.start t.token ⟨t.work.op, r.2.2⟩ },
      log ++ .began t.token t.work.op :: r.2.1) := by
  have hmem : t ∈ s.queue.tasks := by
    rw [htasks]
    exact List.mem_cons_self
  have hsplit : log ++ .began t.token t.work.op :: r.2.1 =
      (log ++ [.began t.token t.work.op]) ++ r.2.1 := by
    rw [List.append_assoc]
    rfl
  rw [hsplit]
  refine ⟨h.sound.run htasks hnot hgood, ?_, ?_⟩
  · dsimp only
    rw [hgood.queue]
    exact (h.booked.began h.sound.linked htasks hnot r.2.2).silent hgood.silent
  · have hbegan : Told s.slot s.nextSlot (log ++ [.began t.token t.work.op]) := by
      refine h.told.silent (fun event hevent => ?_) fun token op hevent => ?_
      · rw [List.mem_singleton.mp hevent]
        exact ⟨nofun, fun number => ⟨nofun, nofun⟩⟩
      · cases List.mem_singleton.mp hevent
    refine hbegan.effect h.sound.core hgood (fun token' op' hreturned => ?_)
      (List.mem_append_left _ (h.booked.enqueued_of_mem hmem)) fun slot hslot hop => ?_
    · rcases List.mem_append.mp hreturned with hreturned | hreturned
      · exact h.booked.lt_of_returned hreturned hmem
      · cases List.mem_singleton.mp hreturned
    · have hdoomed : ¬ Doomed s.queue.tasks := by
        rw [htasks]
        exact not_doomed_of_started rfl hnot
      have hretries := (h.sound.calm hdoomed slot hslot).retries
      rw [htasks, queuedRetries_cons, hnot, hop, if_pos (by simp)] at hretries
      omega

/-- The first operation has come to its end. -/
theorem Inv.ended (h : Inv (s, log)) (htasks : s.queue.tasks = t :: rest)
    (hstarted : t.started = true) (hgood : Good s t.work.op r)
    (hcontinues : ∀ slot', r.1.slot = some slot' → s.Continues t.work.op slot')
    (hlog : r.2.1 = [] ∨ t.work.op.starts = true ∧ r.2.1 = [.spawned])
    (hdeletes : Doomed s.queue.tasks → ∀ slot', r.1.slot = some slot' → slot'.number = s.nextSlot)
    (hwaits : ∀ wait, r.2.2 ≠ .waits wait) :
    Inv ({ r.1 with queue := r.1.queue.settle t.token },
      log ++ (r.2.1 ++ [if r.2.2 = .threw then .threw t.token t.work.op
        else .returned t.token t.work.op])) := by
  have hmem : t ∈ s.queue.tasks := by
    rw [htasks]
    exact List.mem_cons_self
  rw [← List.append_assoc]
  refine ⟨h.sound.resume htasks hgood hcontinues hdeletes, ?_, ?_⟩
  · dsimp only
    rw [hgood.queue]
    refine (h.booked.silent hgood.silent).ended h.sound.linked htasks hstarted ?_
    split_ifs
    · exact .inl rfl
    · exact .inr rfl
  · have hplain := h.told.plain hgood hcontinues hlog
      (fun _ _ hreturned => h.booked.lt_of_returned hreturned hmem) (h.booked.enqueued_of_mem hmem)
    refine hplain.silent (fun event hevent => ?_) fun token op hevent hstops => ?_
    · rw [List.mem_singleton.mp hevent]
      split_ifs
      · exact ⟨nofun, fun number => ⟨nofun, nofun⟩⟩
      · exact ⟨nofun, fun number => ⟨nofun, nofun⟩⟩
    · have heq := List.mem_singleton.mp hevent
      split_ifs at heq with hthrew
      cases heq
      have hreached := hgood.reached
      cases hprogress : r.2.2 with
      | queued =>
        rw [hprogress] at hreached
        exact hreached.elim
      | waits wait => exact absurd hprogress (hwaits wait)
      | returned =>
        rw [hprogress] at hreached
        exact hreached hstops
      | threw => exact absurd hprogress hthrew

end Queue

theorem tasks_of_head (hhead : tasks.head? = some t) : ∃ rest, tasks = t :: rest := by
  cases tasks with
  | nil => cases hhead
  | cons first rest =>
    cases hhead
    exact ⟨rest, rfl⟩

theorem mem_of_find {queue : PromiseChain Lifecycle} {token : ℕ}
    (hfind : queue.find? token = some t) : t ∈ queue.tasks ∧ t.token = token :=
  ⟨List.mem_of_find?_eq_some hfind, by simpa using List.find?_some hfind⟩

theorem Inv.run (hcalls : calls.NeverThrow) (h : Inv (s, log)) {token : ℕ} {saves : Bool}
    {r : DaemonLifecycle × List LifecycleEvent} (hstep : step calls s (.run token saves) = some r) :
    Inv (r.1, log ++ r.2) := by
  simp only [step] at hstep
  cases hfind : s.queue.find? token with
  | none =>
    rw [hfind] at hstep
    cases hstep
  | some t =>
    rw [hfind] at hstep
    obtain ⟨hmem, rfl⟩ := mem_of_find hfind
    dsimp only at hstep
    split_ifs at hstep with hnot
    cases hstep
    rw [Bool.not_eq_true', Bool.not_eq_false] at hnot
    obtain ⟨rest, htasks⟩ := tasks_of_head (h.sound.linked.isHead_of_ready hmem hnot)
    have hunstarted : t.started = false := by
      rw [h.sound.linked.ready_head htasks, Bool.not_eq_true'] at hnot
      exact hnot
    have hdoomed : ¬ Doomed s.queue.tasks := by
      rw [htasks]
      exact not_doomed_of_started rfl hunstarted
    refine h.began htasks hunstarted (begin_good hcalls h.sound.core saves t.work.op ?_)
    intro slot hslot hop
    exact (h.sound.calm hdoomed slot hslot).halted t (by rw [htasks]; rfl) hunstarted hop

/-- What is left of an operation restarts nothing, and is over. -/
theorem Sound.conclude (h : Sound s) (hcalls : calls.NeverThrow) (saves : Bool)
    (hhead : s.queue.tasks.head? = some t) (hstarted : t.started = true)
    (hdue : ∀ wait, t.work.progress = .waits wait → wait.exited = true) {r : Outcome}
    (hr : conclude calls s saves t.work = r) :
    Good s t.work.op r ∧
      (∀ slot', r.1.slot = some slot' → s.Continues t.work.op slot') ∧
      (r.2.1 = [] ∨ t.work.op.starts = true ∧ r.2.1 = [.spawned]) ∧
      (Doomed s.queue.tasks → ∀ slot', r.1.slot = some slot' → slot'.number = s.nextSlot) ∧
      ∀ wait, r.2.2 ≠ .waits wait := by
  have hreached := h.reached t hhead hstarted
  have hdone : ∀ progress, t.work.progress = progress → (∀ wait, progress ≠ .waits wait) →
      Reached s.slot ⟨t.work.op, progress⟩ → Good s t.work.op (s, [], progress) ∧
        (∀ slot', s.slot = some slot' → s.Continues t.work.op slot') ∧
        (([] : List LifecycleEvent) = [] ∨ t.work.op.starts = true ∧
          ([] : List LifecycleEvent) = [.spawned]) ∧
        (Doomed s.queue.tasks → ∀ slot', s.slot = some slot' → slot'.number = s.nextSlot) ∧
        ∀ wait, progress ≠ .waits wait := by
    intro progress hprogress hnot hwas
    refine ⟨.same h.core hwas, fun slot' heq => .inr ⟨slot', heq, rfl, rfl, id, .inr id⟩, .inl rfl,
      ?_, hnot⟩
    rintro ⟨u, wait, hu, -, hwaits, -⟩
    cases hhead.symm.trans hu
    exact absurd (hprogress.symm.trans hwaits) (hnot wait)
  subst hr
  unfold DaemonLifecycle.conclude
  cases hprogress : t.work.progress with
  | waits wait =>
    rw [Reached, hprogress] at hreached
    obtain ⟨slot, hslot, hwait⟩ := hreached
    have hgood := finish_good hcalls h.core saves hslot hwait (hdue wait hprogress)
    have hnot : ¬ Retried s (finish calls s saves wait t.work.op).1 t.work.op
        (finish calls s saves wait t.work.op).2.1 := by
      rintro ⟨other, -, -, -, hop, -⟩
      exact hwait.retried other.number hop
    have hplain := hgood.change.resolve_right hnot
    refine ⟨hgood, hplain.1, hplain.2, ?_, finish_ne_waits _ _ _⟩
    rintro ⟨u, other, hu, -, -, hdeletes⟩ slot' hslot'
    cases hhead.symm.trans hu
    exact finish_deletes hcalls saves hslot hwait hdeletes hslot'
  | queued =>
    rw [Reached, hprogress] at hreached
    exact hreached.elim
  | returned =>
    rw [Reached, hprogress] at hreached
    refine hdone .returned hprogress (fun wait heq => ?_) hreached
    cases heq
  | threw =>
    refine hdone .threw hprogress (fun wait heq => ?_) trivial
    cases heq

theorem Inv.resume (hcalls : calls.NeverThrow) (h : Inv (s, log)) {token : ℕ} {saves : Bool}
    {r : DaemonLifecycle × List LifecycleEvent}
    (hstep : step calls s (.resume token saves) = some r) : Inv (r.1, log ++ r.2) := by
  simp only [step] at hstep
  cases hfind : s.queue.find? token with
  | none =>
    rw [hfind] at hstep
    cases hstep
  | some t =>
    rw [hfind] at hstep
    obtain ⟨hmem, rfl⟩ := mem_of_find hfind
    dsimp only at hstep
    cases hresumable : resumable t with
    | false =>
      rw [hresumable] at hstep
      cases hstep
    | true =>
      rw [hresumable, if_neg (by exact Bool.false_ne_true)] at hstep
      cases hstep
      rw [resumable, Bool.and_eq_true] at hresumable
      obtain ⟨hstarted, hdue⟩ := hresumable
      have hhead := h.sound.linked.isHead_of_started hmem hstarted
      obtain ⟨rest, htasks⟩ := tasks_of_head hhead
      obtain ⟨hgood, hcontinues, hlog, hdeletes, hwaits⟩ :=
        h.sound.conclude hcalls saves hhead hstarted (fun wait hprogress => by
          rw [hprogress] at hdue
          exact hdue) rfl
      exact h.ended htasks hstarted hgood hcontinues hlog hdeletes hwaits

theorem Inv.onStabilityTimer (h : Inv (s, log)) (hslot : s.slot = some slot)
    {r : DaemonLifecycle × List LifecycleEvent} (hstep : s.onStabilityTimer slot = some r) :
    Inv (r.1, log ++ r.2) := by
  have hok := (h.sound.core.slot slot hslot).1
  have hlt := (h.sound.core.slot slot hslot).2
  unfold DaemonLifecycle.onStabilityTimer at hstep
  split_ifs at hstep with hnot hready
  · cases hstep
    have hsteady : Steady slot { slot with stabilityTimer := false, restartAttempt := 0 } :=
      ⟨rfl, rfl, rfl, id, rfl⟩
    have hsound := h.sound.setSlot_of_le hslot hsteady ⟨hok.held, hok.blocked⟩ .inl
      (Nat.zero_le _) id
    refine ⟨hsound, h.booked.silent fun event hmem => ?_, ?_⟩
    · exact .inr ⟨slot.number, .inr (List.mem_singleton.mp hmem)⟩
    · have htold := h.told
      rw [hslot] at htold
      exact htold.reset hlt rfl rfl
  · cases hstep
    have hsteady : Steady slot { slot with stabilityTimer := false } := ⟨rfl, rfl, rfl, id, rfl⟩
    have hsound := h.sound.setSlot_of_le hslot hsteady ⟨hok.held, hok.blocked⟩ .inl
      (Nat.le_refl _) id
    exact h.moved (.setSlot hslot hsound rfl rfl rfl)

/-- A step that happens only when no step of an operation is due. -/
theorem of_guarded {α : Type} {guard : Bool} {step : Option α} {r : α}
    (h : (if !guard then none else step) = some r) : guard = true ∧ step = some r := by
  cases guard with
  | false => cases h
  | true => exact ⟨rfl, h⟩

theorem filter_slot {number : ℕ}
    (h : s.slot.filter (fun slot => slot.number = number) = some slot) :
    s.slot = some slot ∧ slot.number = number := by
  obtain ⟨hslot, hnumber⟩ := Option.filter_eq_some_iff.mp h
  exact ⟨hslot, of_decide_eq_true hnumber⟩

theorem Inv.retryTimer (h : Inv (s, log)) {number : ℕ} {r : DaemonLifecycle × List LifecycleEvent}
    (hstep : step calls s (.retryTimer number) = some r) : Inv (r.1, log ++ r.2) := by
  rw [step] at hstep
  obtain ⟨-, hstep⟩ := of_guarded hstep
  cases hfilter : s.slot.filter fun slot => slot.number = number with
  | some slot =>
    rw [hfilter] at hstep
    exact h.moved (.onRetryTimer h.sound (filter_slot hfilter).1 hstep)
  | none =>
    rw [hfilter] at hstep
    dsimp only at hstep
    split_ifs at hstep with hany
    cases hstep
    obtain ⟨gone, hgone, hset⟩ := List.any_eq_true.mp hany
    rw [Bool.and_eq_true, decide_eq_true_eq] at hset
    obtain ⟨rfl, -⟩ := hset
    have hupdated : Moved s (s.updateRemoved gone.number fun slot => slot.cancelRetry, []) :=
      .updateRemoved h.sound _ fun slot hslot => ⟨hslot.starting, hslot.started, hslot.number⟩
    refine h.moved (hupdated.trans (.enqueue (hupdated.sound.enqueue ?_ (fun _ slot hslot hop => ?_)
      fun _ _ _ hop => nomatch hop)))
    · rintro number ⟨⟩
      exact (h.sound.core.removed gone hgone).number
    · -- the slot of the id is another one
      have hother := Option.filter_eq_none_iff.mp hfilter slot hslot
      exact absurd (decide_eq_true (LifecycleOp.retry.inj hop).symm) hother

theorem Inv.step (hcalls : calls.NeverThrow) (h : Inv (s, log)) {label : Label}
    {r : DaemonLifecycle × List LifecycleEvent} (hstep : step calls s label = some r) :
    Inv (r.1, log ++ r.2) := by
  cases label with
  | request request =>
    cases hstep
    refine h.moved (.enqueue (h.sound.enqueue_other ?_ ?_ ?_))
    all_goals cases request <;> exact nofun
  | register entry =>
    simp only [DaemonLifecycle.step] at hstep
    split_ifs at hstep
    cases hstep
    have hregistered : Moved s ({ s with registered := some entry }, []) :=
      .setRegistered h.sound fun _ => rfl
    exact h.moved (hregistered.trans (.enqueue (hregistered.sound.enqueue_other nofun nofun nofun)))
  | run token saves => exact h.run hcalls hstep
  | resume token saves => exact h.resume hcalls hstep
  | reconcile cwdExists =>
    cases hstep
    exact h.moved (.reconcile h.sound cwdExists)
  | process number event =>
    rw [DaemonLifecycle.step] at hstep
    obtain ⟨hidle, hstep⟩ := of_guarded hstep
    cases hfilter : s.slot.filter fun slot => slot.number = number with
    | some slot =>
      rw [hfilter] at hstep
      exact h.moved (.onProcess h.sound hidle (filter_slot hfilter).1 hstep)
    | none =>
      rw [hfilter] at hstep
      cases hstep
      exact h.moved (.updateRemoved h.sound number fun slot hgone => gone_event hgone event)
  | retryTimer number => exact h.retryTimer hstep
  | stabilityTimer number =>
    rw [DaemonLifecycle.step] at hstep
    obtain ⟨-, hstep⟩ := of_guarded hstep
    cases hfilter : s.slot.filter fun slot => slot.number = number with
    | some slot =>
      rw [hfilter] at hstep
      exact h.onStabilityTimer (filter_slot hfilter).1 hstep
    | none =>
      rw [hfilter] at hstep
      cases hstep
      exact h.moved (.updateRemoved h.sound number fun slot hgone =>
        ⟨hgone.starting, hgone.started, hgone.number⟩)

/-- Nothing has been enqueued, and a slot is a new one. -/
theorem sound_empty {registered : Option DaemonEntry} {slot : Option ChildSlot}
    {removed : List ChildSlot} {nextSlot : ℕ}
    (hcore : Core ⟨registered, slot, removed, nextSlot, .empty⟩)
    (hnew : ∀ slot', slot = some slot' → slot'.restartTimer = false ∧ slot'.restartAttempt = 0) :
    Sound ⟨registered, slot, removed, nextSlot, .empty⟩ where
  linked := PromiseChain.linked_empty
  core := hcore
  named := fun t ht => by cases ht
  reached := fun t hhead => by cases hhead
  calm := fun _ slot' heq =>
    calm_new (hnew slot' heq).1 (hnew slot' heq).2 fun t ht => by cases ht

theorem inv_started (hcalls : calls.NeverThrow) (entry : Option DaemonEntry) (cwdExists : Bool) :
    Inv (started calls entry cwdExists) := by
  have hbase : ∀ registered, Inv (⟨registered, none, [], 0, .empty⟩, []) := by
    intro registered
    refine ⟨sound_empty ⟨?_, ?_, ?_⟩ ?_, booked_empty ?_, told_nil _ _⟩
    · exact fun hsome => absurd hsome Bool.false_ne_true
    · intro slot heq
      cases heq
    · intro slot hmem
      cases hmem
    · intro slot heq
      cases heq
    · intro event hmem
      cases hmem
  unfold started
  cases hregistered : entry.filter fun _ => cwdExists with
  | none => exact hbase none
  | some entry =>
    dsimp only
    split_ifs
    · rw [createSlot, spawnChild_eq hcalls]
      refine ⟨sound_empty ⟨fun _ => rfl, ?_, ?_⟩ ?_,
        booked_empty fun event hmem => List.mem_singleton.mp hmem, ?_⟩
      · rintro slot ⟨⟩
        exact ⟨(ChildSlot.ok_new 0 entry).respawned rfl, Nat.zero_lt_one⟩
      · intro slot hmem
        cases hmem
      · rintro slot ⟨⟩
        exact ⟨rfl, rfl⟩
      · exact (told_nil _ _).spawn fun _ _ _ _ hmem => by cases hmem
    · exact hbase _

/-! ## Processes -/

/-- The processes of an id that have been spawned and can exit. -/
def liveProcesses (s : DaemonLifecycle) : List (ℕ × ProcessId) :=
  (s.slot.toList ++ s.removed).flatMap fun slot =>
    (slot.child.starting ++ slot.child.started).map fun process => (slot.number, process)

theorem Core.length_liveProcesses (h : s.Core) : s.liveProcesses.length ≤ 1 := by
  have hremoved : s.removed.flatMap (fun slot =>
      (slot.child.starting ++ slot.child.started).map fun process => (slot.number, process)) =
      [] := by
    refine List.flatMap_eq_nil_iff.mpr fun slot hmem => ?_
    rw [(h.removed slot hmem).starting, (h.removed slot hmem).started]
    rfl
  rw [liveProcesses, List.flatMap_append, hremoved, List.append_nil]
  cases hslot : s.slot with
  | none => exact Nat.zero_le 1
  | some slot =>
    rw [Option.toList_some, List.flatMap_singleton, List.length_map, List.length_append]
    exact (h.slot slot hslot).1.held.one

end DaemonLifecycle

/-! ## The supervisor -/

namespace Supervisor

open DaemonLifecycle

variable {calls : ProcessCalls}

theorem inv_run (hcalls : calls.NeverThrow) (registry : DaemonRegistry)
    (cwdExists : String → Bool) {labels : List (String × Label)} {s : Supervisor}
    (hrun : run (step calls) (start calls registry cwdExists) labels = some s) (id : String) :
    Inv (s id) := by
  refine @invariant_run _ _ (step calls) (fun s => ∀ id, Inv (s id)) ?_ _ _ labels
    (fun id => inv_started hcalls _ _) hrun id
  intro s label s' h hstep id
  rw [Supervisor.step, Option.map_eq_some_iff] at hstep
  obtain ⟨after, hafter, rfl⟩ := hstep
  obtain ⟨happened, hmove, hlog⟩ := logged_eq_some.mp hafter
  by_cases hid : id = label.1
  · subst hid
    rw [Function.update_self]
    have hinv := Inv.step hcalls (h label.1) hmove
    rw [← hlog] at hinv
    exact hinv
  · rw [Function.update_of_ne hid]
    exact h id

/-- In every run, for every id: at most one child is alive, the operations run one at a time in
    the order in which they are enqueued, no process is spawned after a stop or an unregister
    that has returned unless a start or a restart is enqueued after it, and the timer restarts
    the child of a slot at most four times without a reset. -/
theorem lifecycle_runs (hcalls : calls.NeverThrow) (registry : DaemonRegistry)
    (cwdExists : String → Bool) {labels : List (String × Label)} {s : Supervisor}
    (hrun : run (step calls) (start calls registry cwdExists) labels = some s) (id : String) :
    (s id).1.liveProcesses.length ≤ 1 ∧ OneAtATime (s id).2 ∧ Throughout SpawnAllowed (s id).2 ∧
      ∀ number before segment after, (s id).2 = before ++ segment ++ after →
        .reset number ∉ segment → segment.count (.restarted number) ≤ 4 := by
  have hinv := inv_run hcalls registry cwdExists hrun id
  refine ⟨hinv.sound.core.length_liveProcesses, hinv.booked.oneAtATime hinv.sound.linked,
    hinv.told.spawned, fun number before segment after hlog hreset => ?_⟩
  exact count_restarted_le hinv.told.bounded hlog hreset

/-- The calls of Node, which do not throw. -/
def nodeCalls : ProcessCalls := ⟨fun _ _ => true, fun _ _ => true⟩

/-- A child that crashes is restarted by the timer, then stopped, and started again. -/
def crashedOnce : List Label :=
  [.process 0 (.spawned 0), .process 0 (.exited 0), .retryTimer 0, .run 0 true, .resume 0 true,
    .process 0 (.spawned 1), .request .stop, .run 1 true, .process 0 (.exited 1), .resume 1 true,
    .request .start, .run 2 true, .resume 2 true]

theorem crashedOnce_runs :
    (run (step nodeCalls) (start nodeCalls twoDaemons fun _ => true)
      (crashedOnce.map fun label => ("00000000-0000-4000-8000-000000000001", label))).isSome =
      true := by
  decide

theorem lifecycle_runs_crashed :
    ∃ s, run (step nodeCalls) (start nodeCalls twoDaemons fun _ => true)
        (crashedOnce.map fun label => ("00000000-0000-4000-8000-000000000001", label)) = some s ∧
      ∀ id, (s id).1.liveProcesses.length ≤ 1 ∧ OneAtATime (s id).2 ∧
        Throughout SpawnAllowed (s id).2 ∧
          ∀ number before segment after, (s id).2 = before ++ segment ++ after →
            .reset number ∉ segment → segment.count (.restarted number) ≤ 4 := by
  obtain ⟨s, hs⟩ := Option.isSome_iff_exists.mp crashedOnce_runs
  exact ⟨s, hs, lifecycle_runs ⟨fun _ _ => rfl, fun _ _ => rfl⟩ twoDaemons (fun _ => true) hs⟩

end Supervisor

end RemotePi.Daemon
