import RemotePi.Daemon.Supervisor

/-!
# The steps of the operations of a daemon

What a step of an operation of the supervisor does to the slot of an id, up to the stop of a
child that it waits for and from there on.

Results:
* `Core`: the processes of the slots, and that an id with a slot is registered.
* `begin_good`, `finish_good`: a step keeps these, and either has restarted the child of the
  slot, or leaves the slot with no timer and no restart more, or has created one.
-/

namespace RemotePi.Daemon

open RemotePi.Lib

/-! ## Slots -/

namespace ChildSlot

/-- The processes of a child are in order, and a slot is blocked by a failure of its
    runtime. -/
structure Ok (slot : ChildSlot) : Prop where
  held : slot.child.Held
  blocked : slot.blocked = true → slot.child.rpc.runtime = .failed

/-- A slot that is not in `children` any more, with no process. -/
structure Gone (slot : ChildSlot) (nextSlot : ℕ) : Prop where
  starting : slot.child.starting = []
  started : slot.child.started = []
  number : slot.number < nextSlot

variable {slot slot' : ChildSlot}

theorem Gone.mono {nextSlot nextSlot' : ℕ} (h : slot.Gone nextSlot) (hle : nextSlot ≤ nextSlot') :
    slot.Gone nextSlot' := ⟨h.starting, h.started, Nat.lt_of_lt_of_le h.number hle⟩

theorem ok_new (number : ℕ) (entry : DaemonEntry) : (new number entry).Ok :=
  ⟨ChildRun.held_initial, fun h => absurd h Bool.false_ne_true⟩

theorem Ok.respawned (h : slot.Ok) (hblocked : slot.blocked = false) : slot.respawned.Ok where
  held := h.held.spawn rfl
  blocked := fun hset => by
    rw [ChildSlot.respawned, hblocked] at hset
    cases hset

theorem Ok.halted (h : slot.Ok) : slot.halted.Ok where
  held := by
    have hstep : slot.child.step (.stop true) = some slot.halted.child := rfl
    exact h.held.step hstep
  blocked := fun hset => (RpcChild.runtime_stop _ _).trans (h.blocked hset)

theorem child_halted : slot.halted.child.rpc.child = slot.child.rpc.child := RpcChild.child_stop _ _

theorem runtime_halted : slot.halted.child.rpc.runtime = slot.child.rpc.runtime :=
  RpcChild.runtime_stop _ _

theorem stopping_halted (hchild : slot.child.rpc.child.isSome = true) :
    slot.halted.child.rpc.stopping = true := by
  show (slot.child.rpc.stop true).1.stopping = true
  rw [RpcChild.stop_of_child hchild]

end ChildSlot

/-! ## What is waited for -/

/-- The operations that may create a slot. -/
def LifecycleOp.starts (op : LifecycleOp) : Bool := op = .start || op = .restart

/-- The operations after whose wait the slot is deleted. -/
def LifecycleOp.deletes : LifecycleOp → Bool
  | .restart => true
  | .unregister => true
  | .remove _ => true
  | _ => false

/-- The operations that a daemon stays stopped after. -/
def LifecycleOp.stops (op : LifecycleOp) : Bool := op = .stop || op = .unregister

/-- The slot of an operation that waits for it. A runtime that has failed has no child that is
    to be started again before the wait is over. -/
structure Awaited (op : LifecycleOp) (wait : StopWait) (slot : ChildSlot) : Prop where
  number : slot.number = wait.slot
  exited : wait.exited = true → slot.child.rpc.child = none
  stopping : wait.exited = false →
    slot.child.rpc.child.isSome = true ∧ slot.child.rpc.stopping = true
  started : op = .start → slot.child.rpc.runtime = .failed ∧ slot.blocked = false
  stopped : op = .stop → slot.entry.desiredState = .stopped
  halted : ∀ number, op = .halt number → slot.child.rpc.runtime = .failed
  retried : ∀ number, op ≠ .retry number

/-- How far an operation that has begun has come, and the slot of the id. -/
def Reached (slot : Option ChildSlot) (work : Lifecycle) : Prop :=
  match work.progress with
  | .queued => False
  | .waits wait => ∃ awaited, slot = some awaited ∧ Awaited work.op wait awaited
  | .returned =>
    work.op.stops = true → ∀ slot', slot = some slot' → slot'.entry.desiredState = .stopped
  | .threw => True

namespace DaemonLifecycle

/-- What holds of an id without its queue. -/
structure Core (s : DaemonLifecycle) : Prop where
  registered : s.slot.isSome = true → s.registered.isSome = true
  slot : ∀ slot, s.slot = some slot → slot.Ok ∧ slot.number < s.nextSlot
  removed : ∀ slot ∈ s.removed, slot.Gone s.nextSlot

/-- The slot after a step of an operation is another one, or the one before with no timer and
    no restart more, and as stopped as before. -/
def Continues (s : DaemonLifecycle) (op : LifecycleOp) (slot' : ChildSlot) : Prop :=
  (op.starts = true ∧ slot'.number = s.nextSlot ∧ slot'.restartTimer = false ∧
      slot'.restartAttempt = 0) ∨
    ∃ slot, s.slot = some slot ∧ slot'.number = slot.number ∧
      slot'.restartAttempt = slot.restartAttempt ∧
      (slot'.restartTimer = true → slot.restartTimer = true) ∧
      (op.starts = true ∨
        (slot.entry.desiredState = .stopped → slot'.entry.desiredState = .stopped))

/-- A restart by the timer, and whether it has spawned a process. -/
def Retried (s s' : DaemonLifecycle) (op : LifecycleOp) (log : List LifecycleEvent) : Prop :=
  ∃ slot slot', s.slot = some slot ∧ s'.slot = some slot' ∧ op = .retry slot.number ∧
    slot.entry.desiredState = .running ∧ slot'.number = slot.number ∧
    slot'.entry = slot.entry ∧ slot'.restartTimer = slot.restartTimer ∧
    slot'.restartAttempt = slot.restartAttempt + 1 ∧
    (log = [.restarted slot.number] ∨ log = [.restarted slot.number, .spawned])

/-- What a step of an operation does. -/
structure Good (s : DaemonLifecycle) (op : LifecycleOp) (r : Outcome) : Prop where
  queue : r.1.queue = s.queue
  core : r.1.Core
  next : s.nextSlot ≤ r.1.nextSlot
  reached : Reached r.1.slot ⟨op, r.2.2⟩
  change : (∀ slot', r.1.slot = some slot' → s.Continues op slot') ∧
      (r.2.1 = [] ∨ op.starts = true ∧ r.2.1 = [.spawned]) ∨
    s.Retried r.1 op r.2.1

variable {calls : ProcessCalls} {s : DaemonLifecycle} {op : LifecycleOp}

/-- A step that spawns nothing. -/
theorem Good.keep (h : s.Core) {registered : Option DaemonEntry} {slot : Option ChildSlot}
    {progress : Progress} (hregistered : slot.isSome = true → registered.isSome = true)
    (hslot : ∀ slot', slot = some slot' → slot'.Ok ∧ slot'.number < s.nextSlot ∧
      s.Continues op slot') (hreached : Reached slot ⟨op, progress⟩) :
    Good s op ({ s with registered := registered, slot := slot }, [], progress) where
  queue := rfl
  core := ⟨hregistered, fun slot' heq => ⟨(hslot slot' heq).1, (hslot slot' heq).2.1⟩, h.removed⟩
  next := Nat.le_refl _
  reached := hreached
  change := .inl ⟨fun slot' heq => (hslot slot' heq).2.2, .inl rfl⟩

/-- A step that changes nothing. -/
theorem Good.same (h : s.Core) {progress : Progress} (hreached : Reached s.slot ⟨op, progress⟩) :
    Good s op (s, [], progress) where
  queue := rfl
  core := h
  next := Nat.le_refl _
  reached := hreached
  change := .inl ⟨fun slot' heq => .inr ⟨slot', heq, rfl, rfl, id, .inr id⟩, .inl rfl⟩

theorem Good.delete (h : s.Core) (hnone : ∀ slot, s.slot = some slot → slot.child.rpc.child = none)
    {registered : Option DaemonEntry} {progress : Progress}
    (hreached : Reached none ⟨op, progress⟩) :
    Good s op ({ s.deleteSlot with registered := registered }, [], progress) where
  queue := rfl
  core := by
    refine ⟨fun hsome => absurd hsome Bool.false_ne_true, ?_, ?_⟩
    · intro slot heq
      cases heq
    · intro slot hmem
      rcases List.mem_append.mp hmem with hmem | hmem
      · exact h.removed slot hmem
      · have heq := Option.mem_toList.mp hmem
        obtain ⟨hstarting, hstarted⟩ := (h.slot slot heq).1.held.nil_of_child (hnone slot heq)
        exact ⟨hstarting, hstarted, (h.slot slot heq).2⟩
  next := Nat.le_refl _
  reached := hreached
  change := by
    refine .inl ⟨?_, .inl rfl⟩
    intro slot' heq
    cases heq

theorem not_stops_of_starts (hstarts : op.starts = true) : op.stops = false := by
  cases op <;> first | rfl | cases hstarts

/-- A step that spawns the child of a slot. -/
theorem Good.spawn (hcalls : calls.NeverThrow) (hstarts : op.starts = true)
    {s' : DaemonLifecycle} {slot : ChildSlot} (hqueue : s'.queue = s.queue)
    (hnext : s'.nextSlot = s.nextSlot) (hregistered : s'.registered.isSome = true)
    (hremoved : ∀ slot ∈ s'.removed, slot.Gone s.nextSlot)
    (hok : slot.Ok) (hblocked : slot.blocked = false) (hlt : slot.number < s.nextSlot)
    (hcontinues : s.Continues op slot) : Good s op (returning (spawnChild calls s' slot)) := by
  rw [spawnChild_eq hcalls]
  refine ⟨hqueue, ⟨fun _ => hregistered, ?_, fun slot hmem => (hremoved slot hmem).mono hnext.ge⟩,
    hnext.ge, ?_, .inl ⟨?_, ?_⟩⟩
  · rintro slot' ⟨⟩
    exact ⟨hok.respawned hblocked, hlt.trans_le hnext.ge⟩
  · intro hstops
    rw [not_stops_of_starts hstarts] at hstops
    cases hstops
  · rintro slot' ⟨⟩
    exact hcontinues
  · dsimp only [returning]
    split_ifs
    · exact .inr ⟨hstarts, rfl⟩
    · exact .inl rfl

/-- A step that creates a slot where none is. -/
theorem Good.create (hcalls : calls.NeverThrow) (hstarts : op.starts = true)
    {s' : DaemonLifecycle} (hqueue : s'.queue = s.queue) (hnext : s'.nextSlot = s.nextSlot)
    (hregistered : s'.registered.isSome = true)
    (hremoved : ∀ slot ∈ s'.removed, slot.Gone s.nextSlot)
    {entry : DaemonEntry} : Good s op (returning (createSlot calls s' entry)) := by
  rw [createSlot, spawnChild_eq hcalls]
  have hle : s.nextSlot ≤ s'.nextSlot + 1 := hnext.ge.trans (Nat.le_succ _)
  refine ⟨hqueue, ⟨fun _ => hregistered, ?_, fun slot hmem => (hremoved slot hmem).mono hle⟩, hle,
    ?_, .inl ⟨?_, ?_⟩⟩
  · rintro slot' ⟨⟩
    exact ⟨(ChildSlot.ok_new _ _).respawned rfl, Nat.lt_succ_self _⟩
  · intro hstops
    rw [not_stops_of_starts hstarts] at hstops
    cases hstops
  · rintro slot' ⟨⟩
    exact .inl ⟨hstarts, hnext, rfl, rfl⟩
  · exact .inr ⟨hstarts, rfl⟩

/-- A step that stops the child of a slot and waits. -/
theorem Good.wait (hcalls : calls.NeverThrow) {s' : DaemonLifecycle} {slot : ChildSlot}
    {updated : Option DaemonEntry} (hqueue : s'.queue = s.queue)
    (hnext : s'.nextSlot = s.nextSlot) (hregistered : s'.registered.isSome = true)
    (hremoved : ∀ slot ∈ s'.removed, slot.Gone s.nextSlot)
    (hok : slot.Ok) (hlt : slot.number < s.nextSlot) (hcontinues : s.Continues op slot)
    (hstarted : op = .start → slot.child.rpc.runtime = .failed ∧ slot.blocked = false)
    (hstopped : op = .stop → slot.entry.desiredState = .stopped)
    (hhalted : ∀ number, op = .halt number → slot.child.rpc.runtime = .failed)
    (hretried : ∀ number, op ≠ .retry number) :
    Good s op (waitForStop calls s' slot updated) := by
  rw [waitForStop, stopChild_eq hcalls]
  refine ⟨hqueue, ⟨fun _ => hregistered, ?_, fun slot hmem => (hremoved slot hmem).mono hnext.ge⟩,
    hnext.ge, ⟨slot.halted, rfl, ?_⟩, .inl ⟨?_, .inl rfl⟩⟩
  · rintro slot' ⟨⟩
    exact ⟨hok.halted, hlt.trans_le hnext.ge⟩
  · refine ⟨rfl, fun hexited => ?_, fun hwaits => ?_, ?_, hstopped, ?_, hretried⟩
    · exact ChildSlot.child_halted.trans (Option.isNone_iff_eq_none.mp hexited)
    · have hsome := Option.isNone_eq_false_iff.mp hwaits
      exact ⟨by rw [ChildSlot.child_halted]; exact hsome, ChildSlot.stopping_halted hsome⟩
    · intro hop
      exact ⟨ChildSlot.runtime_halted.trans (hstarted hop).1, (hstarted hop).2⟩
    · intro number hop
      exact ChildSlot.runtime_halted.trans (hhalted number hop)
  · rintro slot' ⟨⟩
    exact hcontinues

/-! ## The operations -/

/-- An operation that sets the desired state. One that is not registered has no slot. -/
theorem Good.withDesiredState (h : s.Core) {saves : Bool} {desired : DesiredState}
    {operation : DaemonLifecycle → DaemonEntry → Outcome}
    (hoperation : ∀ updated, updated.desiredState = desired →
      Good s op (operation { s with registered := some updated } updated)) :
    Good s op (s.withDesiredState saves desired operation) := by
  unfold DaemonLifecycle.withDesiredState
  split_ifs
  · exact .same h trivial
  · cases hregistered : s.registered with
    | none =>
      refine .same h fun _ slot' heq => ?_
      have hsome := h.registered (by rw [heq]; rfl)
      rw [hregistered] at hsome
      cases hsome
    | some entry => exact hoperation _ rfl

theorem beginStart_good (hcalls : calls.NeverThrow) (h : s.Core) (updated : DaemonEntry) :
    Good s .start (beginStart calls { s with registered := some updated } updated) := by
  unfold beginStart
  cases hslot : s.slot with
  | none =>
    refine Good.create hcalls ?_ ?_ ?_ ?_ ?_
    any_goals rfl
    exact h.removed
  | some slot =>
    obtain ⟨hok, hlt⟩ := h.slot slot hslot
    have hcontinues : ∀ slot', slot'.number = slot.number →
        slot'.restartAttempt = slot.restartAttempt → slot'.restartTimer = false →
        s.Continues .start slot' := fun slot' hnumber hattempt htimer =>
      .inr ⟨slot, hslot, hnumber, hattempt, by rw [htimer]; exact nofun, .inl rfl⟩
    dsimp only
    split_ifs with hlive hgone
    · refine .keep h (fun _ => rfl) ?_ fun hstops => absurd hstops Bool.false_ne_true
      rintro slot' ⟨⟩
      exact ⟨⟨hok.held, hok.blocked⟩, hlt, .inr ⟨slot, hslot, rfl, rfl, id, .inl rfl⟩⟩
    · refine Good.spawn hcalls ?_ ?_ ?_ ?_ ?_ ⟨hok.held, fun hset => ?_⟩ ?_ hlt
        (hcontinues _ ?_ ?_ ?_)
      any_goals rfl
      · exact h.removed
      · cases hset
    · -- a child that is there and not live is blocked
      have hfailed : slot.child.rpc.runtime = .failed := by
        refine hok.blocked ?_
        rw [Bool.or_eq_true, decide_eq_true_eq, not_or] at hgone
        have hsome : slot.child.rpc.child.isSome = true := by
          rw [← Option.not_isNone, Bool.not_eq_true']
          exact Bool.not_eq_true _ ▸ hgone.2
        have hpresent := hok.held.present hsome
        have hexited := hgone.1
        revert hlive hpresent hexited
        dsimp only [ChildSlot.isLive, ChildSlot.cancelRetry]
        cases slot.child.rpc.process <;> simp
      refine Good.wait hcalls ?_ ?_ ?_ ?_ ⟨hok.held, fun hset => ?_⟩ hlt (hcontinues _ ?_ ?_ ?_)
        (fun _ => ⟨hfailed, ?_⟩) (fun hop => ?_) (fun _ hop => ?_) (fun _ hop => ?_)
      any_goals rfl
      · exact h.removed
      · cases hset
      all_goals cases hop

theorem beginStop_good (hcalls : calls.NeverThrow) (h : s.Core) {updated : DaemonEntry}
    (hstopped : updated.desiredState = .stopped) :
    Good s .stop (beginStop calls { s with registered := some updated } updated) := by
  unfold beginStop
  cases hslot : s.slot with
  | none =>
    refine .keep h (fun _ => rfl) (fun slot' heq => ?_) fun _ slot' heq => ?_
    · cases heq
    · cases heq
  | some slot =>
    obtain ⟨hok, hlt⟩ := h.slot slot hslot
    refine Good.wait hcalls ?_ ?_ ?_ ?_ ⟨hok.held, hok.blocked⟩ hlt
      (.inr ⟨slot, hslot, ?_, ?_, fun hset => absurd hset Bool.false_ne_true,
        .inr fun _ => hstopped⟩) (fun hop => ?_) (fun _ => hstopped) (fun _ hop => ?_)
      (fun _ hop => ?_)
    any_goals rfl
    · exact h.removed
    all_goals cases hop

theorem beginRestart_good (hcalls : calls.NeverThrow) (h : s.Core) (updated : DaemonEntry) :
    Good s .restart (beginRestart calls { s with registered := some updated } updated) := by
  unfold beginRestart
  cases hslot : s.slot with
  | none =>
    refine Good.create hcalls ?_ ?_ ?_ ?_ ?_
    any_goals rfl
    exact h.removed
  | some slot =>
    obtain ⟨hok, hlt⟩ := h.slot slot hslot
    refine Good.wait hcalls ?_ ?_ ?_ ?_ ⟨hok.held, fun hset => ?_⟩ hlt
      (.inr ⟨slot, hslot, ?_, ?_, fun hset => absurd hset Bool.false_ne_true, .inl rfl⟩)
      (fun hop => ?_) (fun hop => ?_) (fun _ hop => ?_) (fun _ hop => ?_)
    any_goals rfl
    · exact h.removed
    · cases hset
    all_goals cases hop

theorem beginUnregister_good (hcalls : calls.NeverThrow) (h : s.Core) (saves : Bool) :
    Good s .unregister (beginUnregister calls s saves) := by
  unfold beginUnregister
  cases hslot : s.slot with
  | none =>
    dsimp only
    refine .keep h (fun hsome => ?_) (fun slot' heq => ?_) fun _ slot' heq => ?_
    · cases hsome
    · cases heq
    · cases heq
  | some slot =>
    obtain ⟨hok, hlt⟩ := h.slot slot hslot
    have hregistered := h.registered (by rw [hslot]; rfl)
    refine Good.wait hcalls ?_ ?_ ?_ ?_ ⟨hok.held, hok.blocked⟩ hlt
      (.inr ⟨slot, hslot, ?_, ?_, fun hset => absurd hset Bool.false_ne_true, .inr id⟩)
      (fun hop => ?_) (fun hop => ?_) (fun _ hop => ?_) (fun _ hop => ?_)
    any_goals rfl
    · exact hregistered
    · exact h.removed
    all_goals cases hop

theorem beginHalt_good (hcalls : calls.NeverThrow) (h : s.Core) {number : ℕ}
    (hstops : op.stops = false) (hstarted : op ≠ .start) (hretried : ∀ number, op ≠ .retry number)
    (hhalted : ∀ slot, s.slot = some slot → op = .halt slot.number →
      slot.child.rpc.runtime = .failed) (hop : ∀ other, op = .halt other → other = number) :
    Good s op (beginHalt calls s number) := by
  have hsame : Good s op (s, [], .returned) := .same h fun hset => by
    rw [hstops] at hset
    cases hset
  unfold beginHalt
  cases hslot : s.slot with
  | none => exact hsame
  | some slot =>
    obtain ⟨hok, hlt⟩ := h.slot slot hslot
    dsimp only
    split_ifs with hnumber
    · exact hsame
    · rw [ne_eq, not_not] at hnumber
      refine Good.wait hcalls rfl rfl (h.registered (by rw [hslot]; rfl)) h.removed hok hlt
        (.inr ⟨slot, hslot, rfl, rfl, id, .inr id⟩) (fun hset => absurd hset hstarted)
        (fun hset => ?_) (fun other hset => ?_) hretried
      · rw [hset] at hstops
        cases hstops
      · refine hhalted slot hslot ?_
        rw [hset, hop other hset, hnumber]

theorem beginRetry_good (hcalls : calls.NeverThrow) (h : s.Core) (number : ℕ) :
    Good s (.retry number) (beginRetry calls s number) := by
  have hsame : Good s (.retry number) (s, [], .returned) :=
    .same h fun hstops => absurd hstops Bool.false_ne_true
  unfold beginRetry
  cases hslot : s.slot with
  | none => exact hsame
  | some slot =>
    obtain ⟨hok, hlt⟩ := h.slot slot hslot
    dsimp only
    split_ifs with hnot
    · exact hsame
    · rw [Bool.or_eq_true, Bool.or_eq_true, decide_eq_true_eq, decide_eq_true_eq, not_or, not_or,
        ne_eq, not_not, ne_eq, not_not, Bool.not_eq_true] at hnot
      obtain ⟨⟨rfl, hblocked⟩, hrunning⟩ := hnot
      rw [spawnChild_eq hcalls]
      refine ⟨rfl, ⟨fun _ => h.registered (by rw [hslot]; rfl), ?_, h.removed⟩, Nat.le_refl _,
        fun hstops => absurd hstops Bool.false_ne_true,
        .inr ⟨slot, _, hslot, rfl, rfl, hrunning, rfl, rfl, rfl, rfl, ?_⟩⟩
      · rintro slot' ⟨⟩
        exact ⟨ChildSlot.Ok.respawned ⟨hok.held.noteRestart, hok.blocked⟩ hblocked, hlt⟩
      · dsimp only
        split_ifs
        · exact .inr rfl
        · exact .inl rfl

/-- The operations up to their wait. A slot whose child is stopped after a failure has had
    one. -/
theorem begin_good (hcalls : calls.NeverThrow) (h : s.Core) (saves : Bool) (op : LifecycleOp)
    (hhalted : ∀ slot, s.slot = some slot → op = .halt slot.number →
      slot.child.rpc.runtime = .failed) : Good s op (begin calls s saves op) := by
  cases op with
  | start => exact .withDesiredState h fun updated _ => beginStart_good hcalls h updated
  | stop => exact .withDesiredState h fun updated hstopped => beginStop_good hcalls h hstopped
  | restart => exact .withDesiredState h fun updated _ => beginRestart_good hcalls h updated
  | unregister => exact beginUnregister_good hcalls h saves
  | halt number =>
    exact beginHalt_good hcalls h rfl nofun nofun hhalted fun other hother => by cases hother; rfl
  | retry number => exact beginRetry_good hcalls h number
  | remove number =>
    exact beginHalt_good hcalls h rfl nofun nofun (fun _ _ hop => nomatch hop) fun _ hop =>
      nomatch hop

section Finish

variable {wait : StopWait} {slot : ChildSlot}

theorem deleteStopped_eq (hslot : s.slot = some slot) (hnumber : slot.number = wait.slot) :
    s.deleteStopped wait = s.deleteSlot := by
  rw [deleteStopped, hslot, Option.any_some, if_pos (decide_eq_true hnumber)]

/-- The rest of an operation whose wait is over. -/
theorem finish_good (hcalls : calls.NeverThrow) (h : s.Core) (saves : Bool)
    (hslot : s.slot = some slot) (hwait : Awaited op wait slot) (hexited : wait.exited = true) :
    Good s op (finish calls s saves wait op) := by
  obtain ⟨hok, hlt⟩ := h.slot slot hslot
  have hregistered := h.registered (by rw [hslot]; rfl)
  have hnone : ∀ other, s.slot = some other → other.child.rpc.child = none := fun other heq => by
    cases hslot.symm.trans heq
    exact hwait.exited hexited
  have hdelete := deleteStopped_eq hslot hwait.number
  cases op with
  | start =>
    simp only [finish, finishStart, hslot]
    split_ifs
    · exact .spawn hcalls rfl rfl rfl hregistered h.removed hok (hwait.started rfl).2 hlt
        (.inr ⟨slot, hslot, rfl, rfl, id, .inl rfl⟩)
    · exact .same h fun hstops => absurd hstops Bool.false_ne_true
  | stop =>
    refine .same h fun _ slot' heq => ?_
    cases hslot.symm.trans heq
    exact hwait.stopped rfl
  | restart =>
    simp only [finish, finishRestart, hdelete]
    have hdeleted : Good s .restart
        ({ s.deleteSlot with registered := s.registered }, [], .returned) :=
      .delete h hnone fun hstops => absurd hstops Bool.false_ne_true
    cases wait.updated with
    | none => exact hdeleted
    | some updated =>
      refine Good.create hcalls ?_ ?_ ?_ ?_ ?_
      any_goals rfl
      · exact hregistered
      · exact hdeleted.core.removed
  | unregister =>
    simp only [finish, finishUnregister, hdelete]
    exact .delete h hnone fun _ slot' heq => by cases heq
  | halt number => exact .same h fun hstops => absurd hstops Bool.false_ne_true
  | retry number => exact .same h fun hstops => absurd hstops Bool.false_ne_true
  | remove number =>
    simp only [finish, finishRemove, hdelete]
    split_ifs
    · exact .delete h hnone fun hstops => absurd hstops Bool.false_ne_true
    · exact .delete h hnone trivial

/-- A slot that is to be deleted is not there any more. -/
theorem finish_deletes (hcalls : calls.NeverThrow) (saves : Bool) (hslot : s.slot = some slot)
    (hwait : Awaited op wait slot) (hdeletes : op.deletes = true) {slot' : ChildSlot}
    (heq : (finish calls s saves wait op).1.slot = some slot') : slot'.number = s.nextSlot := by
  have hdelete := deleteStopped_eq hslot hwait.number
  cases op with
  | restart =>
    simp only [finish, finishRestart, hdelete] at heq
    cases hupdated : wait.updated with
    | none =>
      rw [hupdated] at heq
      cases heq
    | some updated =>
      simp only [hupdated, returning, createSlot, spawnChild_eq hcalls] at heq
      cases heq
      rfl
  | unregister =>
    simp only [finish, finishUnregister, hdelete] at heq
    cases heq
  | remove number =>
    simp only [finish, finishRemove, hdelete] at heq
    split_ifs at heq <;> cases heq
  | start => cases hdeletes
  | stop => cases hdeletes
  | halt number => cases hdeletes
  | retry number => cases hdeletes

/-- The rest of an operation does not wait again. -/
theorem finish_ne_waits (op : LifecycleOp) (saves : Bool) (wait other : StopWait) :
    (finish calls s saves wait op).2.2 ≠ .waits other := by
  cases op with
  | start =>
    simp only [finish, finishStart]
    split
    · exact nofun
    · split_ifs <;> exact nofun
  | restart =>
    simp only [finish, finishRestart]
    split <;> exact nofun
  | remove number =>
    simp only [finish, finishRemove]
    split_ifs <;> exact nofun
  | stop => exact nofun
  | unregister => exact nofun
  | halt number => exact nofun
  | retry number => exact nofun

end Finish

end DaemonLifecycle

end RemotePi.Daemon
