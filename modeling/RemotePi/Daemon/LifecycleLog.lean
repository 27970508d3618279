import RemotePi.Daemon.LifecycleSteps

/-!
# The log of a daemon

What has happened for an id: which operations have been enqueued, have begun and have ended,
what has been spawned, and how often the timer has restarted a child.

Results:
* `Booked.oneAtATime`: operations begin in the order in which they are enqueued, each after the
  end of the one before.
* `Told.effect`: after a stop that has returned a daemon stays stopped until a start is
  enqueued, and the restarts of a slot stay in the budget.
* `count_restarted_le`: the budget, for every part of the log with no reset.
-/

namespace RemotePi.Daemon

open RemotePi.Lib

/-! ## What has happened -/

namespace LifecycleEvent

def enqueued? : LifecycleEvent → Option (ℕ × LifecycleOp)
  | .enqueued token op => some (token, op)
  | _ => none

def began? : LifecycleEvent → Option (ℕ × LifecycleOp)
  | .began token op => some (token, op)
  | _ => none

/-- An operation has returned or thrown. -/
def ended? : LifecycleEvent → Option (ℕ × LifecycleOp)
  | .returned token op => some (token, op)
  | .threw token op => some (token, op)
  | _ => none

end LifecycleEvent

namespace DaemonLifecycle

/-- The operations that have been enqueued, in their order. -/
def enqueuedIn (log : List LifecycleEvent) : List (ℕ × LifecycleOp) :=
  log.filterMap LifecycleEvent.enqueued?

/-- The operations that have begun, in their order. -/
def begunIn (log : List LifecycleEvent) : List (ℕ × LifecycleOp) :=
  log.filterMap LifecycleEvent.began?

/-- The operations that have come to their end, in their order. -/
def endedIn (log : List LifecycleEvent) : List (ℕ × LifecycleOp) :=
  log.filterMap LifecycleEvent.ended?

/-- Operations with ascending numbers are enqueued, begin in the same order, and end before the
    next one begins. -/
structure OneAtATime (log : List LifecycleEvent) : Prop where
  ascending : ((enqueuedIn log).map Prod.fst).Pairwise (· < ·)
  begun : begunIn log <+: enqueuedIn log
  ended : endedIn log <+: begunIn log
  one : (begunIn log).length ≤ (endedIn log).length + 1

/-- A start or a restart has been enqueued after an operation. -/
def StartedLater (log : List LifecycleEvent) (token : ℕ) : Prop :=
  ∃ later op, op.starts = true ∧ token < later ∧ .enqueued later op ∈ log

/-- A process is spawned after a stop or an unregister that has returned only when a start or
    a restart has been enqueued after that. -/
def SpawnAllowed (before : List LifecycleEvent) (event : LifecycleEvent) : Prop :=
  event = .spawned → ∀ token op, op.stops = true → .returned token op ∈ before →
    StartedLater before token

/-- The restarts of a slot by the timer since its last reset. -/
def restartsSince (number : ℕ) (log : List LifecycleEvent) : ℕ :=
  log.foldl (fun restarts event =>
    if event = .restarted number then restarts + 1
    else if event = .reset number then 0 else restarts) 0

/-- The timer restarts the child of a slot only when the budget is not used up. -/
def RestartAllowed (before : List LifecycleEvent) (event : LifecycleEvent) : Prop :=
  ∀ number, event = .restarted number → restartsSince number before < restartBackoffs

variable {calls : ProcessCalls} {s s' : DaemonLifecycle} {tasks : List (ChainTask Lifecycle)}
  {t u : ChainTask Lifecycle} {slot slot' : ChildSlot} {op : LifecycleOp}
  {log happened : List LifecycleEvent}

theorem StartedLater.mono {token : ℕ} (h : StartedLater log token) :
    StartedLater (log ++ happened) token := by
  obtain ⟨later, op, hstarts, hlt, hmem⟩ := h
  exact ⟨later, op, hstarts, hlt, List.mem_append_left _ hmem⟩

theorem restartsSince_append (number : ℕ)
    (h : ∀ event ∈ happened, event ≠ .restarted number ∧ event ≠ .reset number) :
    restartsSince number (log ++ happened) = restartsSince number log := by
  rw [restartsSince, List.foldl_append]
  refine List.foldlRecOn (motive := fun count => count = restartsSince number log) happened _ rfl ?_
  intro count hcount event hmem
  rw [if_neg (h event hmem).1, if_neg (h event hmem).2]
  exact hcount

/-- A segment with no reset has no more restarts than there are since the last reset. -/
theorem count_le_restartsSince {number : ℕ} {segment : List LifecycleEvent}
    (h : .reset number ∉ segment) (start : ℕ) :
    segment.count (.restarted number) + start ≤
      segment.foldl (fun restarts event =>
        if event = .restarted number then restarts + 1
        else if event = .reset number then 0 else restarts) start := by
  induction segment generalizing start with
  | nil => exact (Nat.zero_add start).le
  | cons event rest ih =>
    have hrest := ih (fun hmem => h (List.mem_cons_of_mem event hmem))
    rw [List.foldl_cons]
    by_cases hrestarted : event = .restarted number
    · rw [if_pos hrestarted, hrestarted, List.count_cons_self]
      have hnext := hrest (start + 1)
      omega
    · have hreset : event ≠ .reset number := fun heq => h (by rw [heq]; exact List.mem_cons_self)
      rw [if_neg hrestarted, if_neg hreset, List.count_cons_of_ne hrestarted]
      exact hrest start

/-! ## The queue and the log -/

def key (t : ChainTask Lifecycle) : ℕ × LifecycleOp := (t.token, t.work.op)

/-- The operations that have been enqueued are those that have ended and those that are in the
    queue. -/
structure Booked (queue : PromiseChain Lifecycle) (log : List LifecycleEvent) : Prop where
  enqueued : enqueuedIn log = endedIn log ++ queue.tasks.map key
  begun : begunIn log = endedIn log ++ (queue.tasks.filter fun t => t.started).map key
  tokens : (enqueuedIn log).map Prod.fst = List.range queue.next

section Booked

variable {queue : PromiseChain Lifecycle} {rest : List (ChainTask Lifecycle)}

theorem enqueuedIn_append : enqueuedIn (log ++ happened) = enqueuedIn log ++ enqueuedIn happened :=
  List.filterMap_append

theorem begunIn_append : begunIn (log ++ happened) = begunIn log ++ begunIn happened :=
  List.filterMap_append

theorem endedIn_append : endedIn (log ++ happened) = endedIn log ++ endedIn happened :=
  List.filterMap_append

theorem booked_empty (h : ∀ event ∈ log, event = .spawned) : Booked .empty log := by
  have hnil : ∀ f : LifecycleEvent → Option (ℕ × LifecycleOp), f .spawned = none →
      log.filterMap f = [] := fun f hf => List.filterMap_eq_nil_iff.mpr fun event hmem => by
    rw [h event hmem]
    exact hf
  have henqueued : enqueuedIn log = [] := hnil _ rfl
  have hbegun : begunIn log = [] := hnil _ rfl
  have hended : endedIn log = [] := hnil _ rfl
  refine ⟨?_, ?_, ?_⟩
  · rw [henqueued, hended]
    rfl
  · rw [hbegun, hended]
    rfl
  · rw [henqueued]
    rfl

theorem Booked.enqueue (h : Booked queue log) (op : LifecycleOp) :
    Booked (queue.enqueue ⟨op, .queued⟩) (log ++ [.enqueued queue.next op]) := by
  have hended : endedIn (log ++ [.enqueued queue.next op]) = endedIn log :=
    endedIn_append.trans (List.append_nil _)
  have hbegun : begunIn (log ++ [.enqueued queue.next op]) = begunIn log :=
    begunIn_append.trans (List.append_nil _)
  have henqueued : enqueuedIn (log ++ [.enqueued queue.next op]) =
    enqueuedIn log ++ [(queue.next, op)] := enqueuedIn_append
  refine ⟨?_, ?_, ?_⟩
  · rw [henqueued, hended, h.enqueued, PromiseChain.enqueue, List.map_append, List.append_assoc]
    rfl
  · rw [hbegun, hended, h.begun, PromiseChain.enqueue, List.filter_append]
    simp
  · rw [henqueued, List.map_append, h.tokens]
    exact List.range_succ.symm

theorem Booked.mapWork (h : Booked queue log) (number : ℕ) :
    Booked (queue.mapWork (Lifecycle.resolve number)) log := by
  have hkey : key ∘ (fun t => { t with work := t.work.resolve number }) = key := by
    funext t
    exact Prod.ext rfl (Lifecycle.op_resolve number t.work)
  refine ⟨?_, ?_, h.tokens⟩
  · rw [h.enqueued, PromiseChain.mapWork, List.map_map, hkey]
  · rw [h.begun, PromiseChain.mapWork, List.filter_map, List.map_map, hkey]
    rfl

/-- Events that are no operations. -/
theorem Booked.silent (h : Booked queue log)
    (hsilent : ∀ event ∈ happened, event = .spawned ∨ ∃ number, event = .restarted number ∨
      event = .reset number) : Booked queue (log ++ happened) := by
  have hnil : ∀ f : LifecycleEvent → Option (ℕ × LifecycleOp), f .spawned = none →
      (∀ number, f (.restarted number) = none) → (∀ number, f (.reset number) = none) →
      happened.filterMap f = [] := by
    intro f hspawned hrestarted hreset
    refine List.filterMap_eq_nil_iff.mpr fun event hmem => ?_
    rcases hsilent event hmem with rfl | ⟨number, rfl | rfl⟩
    · exact hspawned
    · exact hrestarted number
    · exact hreset number
  have henqueued : enqueuedIn (log ++ happened) = enqueuedIn log := by
    rw [enqueuedIn_append]
    exact (congrArg _ (hnil _ rfl (fun _ => rfl) fun _ => rfl)).trans (List.append_nil _)
  have hbegun : begunIn (log ++ happened) = begunIn log := by
    rw [begunIn_append]
    exact (congrArg _ (hnil _ rfl (fun _ => rfl) fun _ => rfl)).trans (List.append_nil _)
  have hended : endedIn (log ++ happened) = endedIn log := by
    rw [endedIn_append]
    exact (congrArg _ (hnil _ rfl (fun _ => rfl) fun _ => rfl)).trans (List.append_nil _)
  exact ⟨by rw [henqueued, hended]; exact h.enqueued, by rw [hbegun, hended]; exact h.begun,
    by rw [henqueued]; exact h.tokens⟩

theorem filter_started (h : queue.Linked) (htasks : queue.tasks = t :: rest) :
    rest.filter (fun t => t.started) = [] := by
  refine List.filter_eq_nil_iff.mpr fun u hu => ?_
  rw [h.waits u (by rw [htasks]; exact hu)]
  exact Bool.false_ne_true

theorem Booked.began (h : Booked queue log) (hlinked : queue.Linked)
    (htasks : queue.tasks = t :: rest) (hnot : t.started = false) (progress : Progress) :
    Booked (queue.start t.token ⟨t.work.op, progress⟩) (log ++ [.began t.token t.work.op]) := by
  have hstart := hlinked.tasks_start htasks ⟨t.work.op, progress⟩
  have hended : endedIn (log ++ [.began t.token t.work.op]) = endedIn log :=
    endedIn_append.trans (List.append_nil _)
  have henqueued : enqueuedIn (log ++ [.began t.token t.work.op]) = enqueuedIn log :=
    enqueuedIn_append.trans (List.append_nil _)
  have hbegun : begunIn (log ++ [.began t.token t.work.op]) = begunIn log ++ [key t] :=
    begunIn_append
  refine ⟨?_, ?_, ?_⟩
  · rw [henqueued, hended, h.enqueued, hstart, htasks]
    rfl
  · rw [hbegun, hended, h.begun, hstart, htasks, List.filter_cons_of_neg (by rw [hnot]; simp),
      List.filter_cons_of_pos rfl, filter_started hlinked htasks]
    simp [key]
  · rw [henqueued]
    exact h.tokens

theorem Booked.ended (h : Booked queue log) (hlinked : queue.Linked)
    (htasks : queue.tasks = t :: rest) (hstarted : t.started = true) {event : LifecycleEvent}
    (hevent : event = .threw t.token t.work.op ∨ event = .returned t.token t.work.op) :
    Booked (queue.settle t.token) (log ++ [event]) := by
  have hsettle := hlinked.tasks_settle htasks
  have hnil := filter_started hlinked htasks
  have hended : endedIn (log ++ [event]) = endedIn log ++ [key t] := by
    rcases hevent with rfl | rfl <;> exact endedIn_append
  have henqueued : enqueuedIn (log ++ [event]) = enqueuedIn log := by
    rcases hevent with rfl | rfl <;> exact enqueuedIn_append.trans (List.append_nil _)
  have hbegun : begunIn (log ++ [event]) = begunIn log := by
    rcases hevent with rfl | rfl <;> exact begunIn_append.trans (List.append_nil _)
  refine ⟨?_, ?_, ?_⟩
  · rw [henqueued, hended, h.enqueued, hsettle, htasks, List.map_cons, List.append_assoc]
    rfl
  · rw [hbegun, hended, h.begun, hsettle, htasks, List.filter_cons_of_pos hstarted, hnil]
    simp [key]
  · rw [henqueued]
    exact h.tokens

theorem Booked.oneAtATime (h : Booked queue log) (hlinked : queue.Linked) : OneAtATime log := by
  have hfirst : (queue.tasks.filter fun t => t.started) <+: queue.tasks ∧
      (queue.tasks.filter fun t => t.started).length ≤ 1 := by
    cases htasks : queue.tasks with
    | nil => exact ⟨List.nil_prefix, Nat.zero_le 1⟩
    | cons t rest =>
      have hnil := filter_started hlinked htasks
      cases hstarted : t.started with
      | true =>
        rw [List.filter_cons_of_pos hstarted, hnil]
        exact ⟨⟨rest, rfl⟩, Nat.le_refl 1⟩
      | false =>
        rw [List.filter_cons_of_neg (by rw [hstarted]; exact Bool.false_ne_true), hnil]
        exact ⟨List.nil_prefix, Nat.zero_le 1⟩
  refine ⟨?_, ?_, ?_, ?_⟩
  · rw [h.tokens]
    exact List.pairwise_lt_range
  · rw [h.begun, h.enqueued]
    exact (List.prefix_append_right_inj _).mpr (hfirst.1.map key)
  · rw [h.begun]
    exact List.prefix_append _ _
  · rw [h.begun, List.length_append, List.length_map]
    exact Nat.add_le_add_left hfirst.2 _

/-- What has returned has been enqueued before what is in the queue. -/
theorem Booked.lt_of_returned (h : Booked queue log) {token : ℕ} {op : LifecycleOp}
    (hreturned : .returned token op ∈ log) (ht : t ∈ queue.tasks) : token < t.token := by
  have hended : (token, op) ∈ endedIn log := List.mem_filterMap.mpr ⟨_, hreturned, rfl⟩
  have hpairwise : ((enqueuedIn log).map Prod.fst).Pairwise (· < ·) := by
    rw [h.tokens]
    exact List.pairwise_lt_range
  rw [h.enqueued, List.map_append, List.pairwise_append] at hpairwise
  exact hpairwise.2.2 token (List.mem_map.mpr ⟨_, hended, rfl⟩) t.token
    (List.mem_map.mpr ⟨key t, List.mem_map.mpr ⟨t, ht, rfl⟩, rfl⟩)

/-- What is in the queue has been enqueued. -/
theorem Booked.enqueued_of_mem (h : Booked queue log) (ht : t ∈ queue.tasks) :
    .enqueued t.token t.work.op ∈ log := by
  have hmem : key t ∈ enqueuedIn log := by
    rw [h.enqueued]
    exact List.mem_append_right _ (List.mem_map.mpr ⟨t, ht, rfl⟩)
  obtain ⟨event, hevent, heq⟩ := List.mem_filterMap.mp hmem
  cases event with
  | enqueued token op =>
    cases heq
    exact hevent
  | _ => cases heq

end Booked

/-! ## What the log tells of the slot -/

/-- After a stop or an unregister that has returned the daemon stays stopped, and what has been
    spawned and restarted was allowed. -/
structure Told (slot : Option ChildSlot) (nextSlot : ℕ) (log : List LifecycleEvent) : Prop where
  quiet : ∀ token op, op.stops = true → .returned token op ∈ log → ¬ StartedLater log token →
    ∀ slot', slot = some slot' → slot'.entry.desiredState = .stopped
  spawned : Throughout SpawnAllowed log
  attempts : ∀ slot', slot = some slot' → restartsSince slot'.number log ≤ slot'.restartAttempt
  fresh : ∀ number, nextSlot ≤ number → restartsSince number log = 0
  bounded : Throughout RestartAllowed log

theorem told_nil (slot : Option ChildSlot) (nextSlot : ℕ) : Told slot nextSlot [] where
  quiet := fun _ _ _ hmem => by cases hmem
  spawned := throughout_nil
  attempts := fun _ _ => Nat.zero_le _
  fresh := fun _ _ => rfl
  bounded := throughout_nil

/-- Events that spawn and restart nothing; what returns leaves the daemon stopped. -/
theorem Told.silent {slot : Option ChildSlot} {nextSlot : ℕ} (h : Told slot nextSlot log)
    (hsilent : ∀ event ∈ happened, event ≠ .spawned ∧
      ∀ number, event ≠ .restarted number ∧ event ≠ .reset number)
    (hreturned : ∀ token op, .returned token op ∈ happened → op.stops = true →
      ∀ slot', slot = some slot' → slot'.entry.desiredState = .stopped) :
    Told slot nextSlot (log ++ happened) := by
  have hsince : ∀ number, restartsSince number (log ++ happened) = restartsSince number log :=
    fun number => restartsSince_append number fun event hmem => (hsilent event hmem).2 number
  refine ⟨fun token op hstops hmem hnot => ?_, throughout_append.mpr ⟨h.spawned, ?_⟩,
    fun slot' heq => ?_, fun number hle => ?_, throughout_append.mpr ⟨h.bounded, ?_⟩⟩
  · rcases List.mem_append.mp hmem with hmem | hmem
    · exact h.quiet token op hstops hmem fun hlater => hnot hlater.mono
    · exact hreturned token op hmem hstops
  · exact throughout_of_forall fun _ event hmem hspawned =>
      absurd hspawned (hsilent event hmem).1
  · rw [hsince]
    exact h.attempts slot' heq
  · rw [hsince]
    exact h.fresh number hle
  · exact throughout_of_forall fun _ event hmem number hrestarted =>
      absurd hrestarted ((hsilent event hmem).2 number).1

/-- The slot of the id goes on with the same restarts and as stopped as before. -/
theorem Told.continues {slot slot' : Option ChildSlot} {nextSlot : ℕ} (h : Told slot nextSlot log)
    (hslot : ∀ other, slot' = some other → ∃ before, slot = some before ∧
      other.number = before.number ∧ other.restartAttempt = before.restartAttempt ∧
      other.entry = before.entry) : Told slot' nextSlot log where
  quiet := by
    intro token op hstops hmem hnot other heq
    obtain ⟨before, hbefore, -, -, hentry⟩ := hslot other heq
    rw [hentry]
    exact h.quiet token op hstops hmem hnot before hbefore
  spawned := h.spawned
  attempts := by
    intro other heq
    obtain ⟨before, hbefore, hnumber, hattempt, -⟩ := hslot other heq
    rw [hnumber, hattempt]
    exact h.attempts before hbefore
  fresh := h.fresh
  bounded := h.bounded

theorem Told.mono_next {slot : Option ChildSlot} {nextSlot nextSlot' : ℕ}
    (h : Told slot nextSlot log) (hle : nextSlot ≤ nextSlot') : Told slot nextSlot' log :=
  ⟨h.quiet, h.spawned, h.attempts, fun number hnext => h.fresh number (hle.trans hnext), h.bounded⟩

theorem restartsSince_restarted (number : ℕ) :
    restartsSince number (log ++ [.restarted number]) = restartsSince number log + 1 := by
  rw [restartsSince, List.foldl_append]
  exact if_pos rfl

/-- A step of an operation that restarts nothing. One that may create a slot has been enqueued
    after all that has returned. -/
theorem Told.operation (h : Told s.slot s.nextSlot log) {slot' : Option ChildSlot} {nextSlot : ℕ}
    (hcontinues : ∀ other, slot' = some other → s.Continues op other)
    (hnext : s.nextSlot ≤ nextSlot)
    (hlater : op.starts = true → ∀ token op', .returned token op' ∈ log →
      StartedLater log token) : Told slot' nextSlot log where
  quiet := by
    intro token op' hstops hreturned hnot other heq
    have hnostart : op.starts ≠ true := fun hstarts => hnot (hlater hstarts token op' hreturned)
    rcases hcontinues other heq with ⟨hstarts, -⟩ | ⟨slot, hslot, -, -, -, hstarts | hstopped⟩
    · exact absurd hstarts hnostart
    · exact absurd hstarts hnostart
    · exact hstopped (h.quiet token op' hstops hreturned hnot slot hslot)
  spawned := h.spawned
  attempts := by
    intro other heq
    rcases hcontinues other heq with ⟨-, hnew, -, -⟩ | ⟨slot, hslot, hsame, hattempt, -⟩
    · rw [h.fresh other.number hnew.ge]
      exact Nat.zero_le _
    · rw [hsame, hattempt]
      exact h.attempts slot hslot
  fresh := fun number hle => h.fresh number (hnext.trans hle)
  bounded := h.bounded

theorem Told.spawn {slot : Option ChildSlot} {nextSlot : ℕ} (h : Told slot nextSlot log)
    (hallowed : SpawnAllowed log .spawned) : Told slot nextSlot (log ++ [.spawned]) := by
  have hsince : ∀ number, restartsSince number (log ++ [.spawned]) = restartsSince number log := by
    refine fun number => restartsSince_append number fun event hmem => ?_
    rw [List.mem_singleton.mp hmem]
    exact ⟨nofun, nofun⟩
  refine ⟨fun token op hstops hmem hnot => ?_, throughout_append.mpr ⟨h.spawned, ?_⟩,
    fun slot' heq => ?_, fun number hle => ?_, throughout_append.mpr ⟨h.bounded, ?_⟩⟩
  · rcases List.mem_append.mp hmem with hmem | hmem
    · exact h.quiet token op hstops hmem fun hlater => hnot hlater.mono
    · cases List.mem_singleton.mp hmem
  · refine throughout_singleton.mpr ?_
    rw [List.append_nil]
    exact hallowed
  · rw [hsince]
    exact h.attempts slot' heq
  · rw [hsince]
    exact h.fresh number hle
  · exact throughout_singleton.mpr fun number heq => nomatch heq

/-- A stable child has its restarts reset. -/
theorem Told.reset {nextSlot : ℕ} (h : Told (some slot) nextSlot log)
    (hlt : slot.number < nextSlot) (hnumber : slot'.number = slot.number)
    (hentry : slot'.entry = slot.entry) :
    Told (some slot') nextSlot (log ++ [.reset slot.number]) := by
  refine ⟨?_, throughout_append.mpr ⟨h.spawned, ?_⟩, ?_, ?_, throughout_append.mpr ⟨h.bounded, ?_⟩⟩
  · rintro token op hstops hmem hnot other ⟨⟩
    rw [hentry]
    rcases List.mem_append.mp hmem with hmem | hmem
    · exact h.quiet token op hstops hmem (fun hlater => hnot hlater.mono) slot rfl
    · cases List.mem_singleton.mp hmem
  · exact throughout_singleton.mpr fun heq => nomatch heq
  · rintro other ⟨⟩
    have hzero : restartsSince slot.number (log ++ [.reset slot.number]) = 0 := by
      rw [restartsSince, List.foldl_append, List.foldl_cons, List.foldl_nil, if_neg nofun,
        if_pos rfl]
    rw [hnumber, hzero]
    exact Nat.zero_le _
  · intro number hle
    rw [restartsSince_append number fun event hevent => ?_]
    · exact h.fresh number hle
    · rw [List.mem_singleton.mp hevent]
      refine ⟨nofun, fun heq => ?_⟩
      cases heq
      exact Nat.not_lt.mpr hle hlt
  · exact throughout_singleton.mpr fun number heq => nomatch heq

/-- The timer restarts the child of a daemon that is to run. -/
theorem Told.restart {nextSlot : ℕ} (h : Told (some slot) nextSlot log)
    (hlt : slot.number < nextSlot) (hnumber : slot'.number = slot.number)
    (hentry : slot'.entry = slot.entry) (hattempt : slot'.restartAttempt = slot.restartAttempt + 1)
    (hbudget : slot.restartAttempt < restartBackoffs) :
    Told (some slot') nextSlot (log ++ [.restarted slot.number]) := by
  have hcount := h.attempts slot rfl
  refine ⟨?_, throughout_append.mpr ⟨h.spawned, ?_⟩, ?_, ?_, throughout_append.mpr ⟨h.bounded, ?_⟩⟩
  · rintro token op hstops hmem hnot other ⟨⟩
    rw [hentry]
    rcases List.mem_append.mp hmem with hmem | hmem
    · exact h.quiet token op hstops hmem (fun hlater => hnot hlater.mono) slot rfl
    · cases List.mem_singleton.mp hmem
  · exact throughout_singleton.mpr fun heq => nomatch heq
  · rintro other ⟨⟩
    rw [hnumber, hattempt, restartsSince_restarted]
    exact Nat.succ_le_succ hcount
  · intro number hle
    rw [restartsSince_append number fun event hevent => ?_]
    · exact h.fresh number hle
    · rw [List.mem_singleton.mp hevent]
      refine ⟨fun heq => ?_, nofun⟩
      cases heq
      exact Nat.not_lt.mpr hle hlt
  · refine throughout_singleton.mpr fun number heq => ?_
    cases heq
    rw [List.append_nil]
    exact Nat.lt_of_le_of_lt hcount hbudget

section Effect

variable {r : Outcome} {token : ℕ}

/-- A step that restarts nothing, of an operation that has been enqueued after all that has
    returned. -/
theorem Told.plain (h : Told s.slot s.nextSlot log) (hgood : Good s op r)
    (hcontinues : ∀ slot', r.1.slot = some slot' → s.Continues op slot')
    (hlog : r.2.1 = [] ∨ op.starts = true ∧ r.2.1 = [.spawned])
    (hlt : ∀ token' op', .returned token' op' ∈ log → token' < token)
    (hmem : .enqueued token op ∈ log) : Told r.1.slot r.1.nextSlot (log ++ r.2.1) := by
  have hlater : op.starts = true → ∀ token' op', .returned token' op' ∈ log →
      StartedLater log token' := fun hstarts token' op' hreturned =>
    ⟨token, op, hstarts, hlt token' op' hreturned, hmem⟩
  have hoperation := h.operation hcontinues hgood.next hlater
  rcases hlog with hlog | ⟨hstarts, hlog⟩
  · rw [hlog, List.append_nil]
    exact hoperation
  · rw [hlog]
    exact hoperation.spawn fun _ token' op' _ hreturned => hlater hstarts token' op' hreturned

/-- A step of an operation that has been enqueued after all that has returned. -/
theorem Told.effect (h : Told s.slot s.nextSlot log) (hcore : s.Core) (hgood : Good s op r)
    (hlt : ∀ token' op', .returned token' op' ∈ log → token' < token)
    (hmem : .enqueued token op ∈ log)
    (hbudget : ∀ slot, s.slot = some slot → op = .retry slot.number →
      slot.restartAttempt < restartBackoffs) :
    Told r.1.slot r.1.nextSlot (log ++ r.2.1) := by
  rcases hgood.change with ⟨hcontinues, hlog⟩ | ⟨slot, slot', hslot, hslot', hop, hrunning, hnumber,
      hentry, -, hattempt, hlog⟩
  · exact h.plain hgood hcontinues hlog hlt hmem
  · have hnumber' := (hcore.slot slot hslot).2
    rw [hslot] at h
    have hrestart := (h.restart hnumber' hnumber hentry hattempt (hbudget slot hslot hop)).mono_next
      hgood.next
    rw [hslot']
    rcases hlog with hlog | hlog
    · rw [hlog]
      exact hrestart
    · have hsplit : log ++ r.2.1 = (log ++ [.restarted slot.number]) ++ [.spawned] := by
        rw [hlog, List.append_assoc]
        rfl
      rw [hsplit]
      -- a daemon that is to run has not been stopped since
      refine hrestart.spawn fun _ token' op' hstops hreturned => ?_
      by_contra hnot
      have hstopped := hrestart.quiet token' op' hstops hreturned hnot slot' rfl
      rw [hentry, hrunning] at hstopped
      cases hstopped

end Effect

/-! ## The budget -/

theorem restartsSince_le (h : Throughout RestartAllowed log) (number : ℕ) :
    restartsSince number log ≤ restartBackoffs := by
  induction log using List.reverseRecOn with
  | nil => exact Nat.zero_le _
  | append_singleton log event ih =>
    obtain ⟨hlog, hevent⟩ := throughout_append.mp h
    have hallowed := throughout_singleton.mp hevent
    rw [List.append_nil] at hallowed
    rw [restartsSince, List.foldl_append]
    change (if event = .restarted number then restartsSince number log + 1
      else if event = .reset number then 0 else restartsSince number log) ≤ restartBackoffs
    split_ifs with hrestarted
    · exact hallowed number hrestarted
    · exact Nat.zero_le _
    · exact ih hlog

theorem count_restarted_le (h : Throughout RestartAllowed log) {number : ℕ}
    {before segment after : List LifecycleEvent} (hlog : log = before ++ segment ++ after)
    (hreset : .reset number ∉ segment) : segment.count (.restarted number) ≤ restartBackoffs := by
  rw [hlog] at h
  have hle := restartsSince_le (throughout_append.mp h).1 number
  rw [restartsSince, List.foldl_append] at hle
  have hcount := count_le_restartsSince hreset (restartsSince number before)
  exact (Nat.le_add_right _ _).trans (hcount.trans hle)

end DaemonLifecycle

end RemotePi.Daemon
