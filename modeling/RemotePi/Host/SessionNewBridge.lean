import RemotePi.Lib.OrderedMap
import RemotePi.Lib.Trace
import RemotePi.Lib.Trim

/-!
# Replacing the session from a browser

Model of `SessionNewBridge` (`pi-extension/src/actions/session_new_bridge.ts`) and of
`handleSessionNew` (`actions/handlers.ts`): a `session_new` frame is handed to the agent as
a command that carries a token, and the command calls `newSession`. What waits for
something (a timer, the injected command, the new session) is a set of closures beside the
bridge, and any of them may come next.

Results:
* `inv_run`: a frame is answered or waits for its answer, and a session is only started
  for one that waits, while no other one is being started.
* `waits_of_settles`: a closure finds the frame that it was made for.
* `replies_once`: the replies and the calls of `newSession` of every run.
-/

namespace RemotePi.Host

open RemotePi.Lib

/-! ## The bridge -/

/-- A `session_new` frame and who sent it. -/
structure SessionNewRequest where
  ownerId : String
  channelId : String
  frameId : String
deriving DecidableEq, Repr

/-- `action_ok` or `action_error`. -/
inductive ActionReply where
  | ok
  | error (text : String)
deriving DecidableEq, Repr

/-- `PendingSessionNew` (lines 9–14). The number stands for the object, and its timer is
    among the timers of the run. -/
structure PendingSessionNew where
  number : ℕ
  request : SessionNewRequest
  running : Bool
deriving DecidableEq, Repr

/-- `SessionNewBridge` (lines 24–30). -/
structure SessionNewBridge where
  pending : OrderedMap String PendingSessionNew
  running : Bool
  switchPermit : Bool
deriving DecidableEq

/-- What a closure of `dispatch` or `run` holds: the token and the pending request. -/
structure PendingRef where
  token : String
  number : ℕ
  request : SessionNewRequest
deriving DecidableEq, Repr

inductive BridgeEvent where
  /-- The command that `dispatch` hands to the agent (line 55). -/
  | injected (text : String)
  /-- A reply to the frame of the number. -/
  | answered (number : ℕ) (request : SessionNewRequest) (reply : ActionReply)
  /-- `newSession` is called for the frame of the number. -/
  | newSession (number : ℕ)
  /-- The promise of that call is settled. -/
  | ended (number : ℕ)
deriving DecidableEq, Repr

inductive SwitchReason where
  | new
  | resume
deriving DecidableEq, Repr

namespace SessionNewBridge

def initial : SessionNewBridge := ⟨.empty, false, false⟩

/-- `beforeSwitch` (lines 81–85), with whether it cancels. -/
def beforeSwitch (b : SessionNewBridge) (reason : SwitchReason) : SessionNewBridge × Bool :=
  if !b.running then (b, false)
  else if reason = .new ∧ b.switchPermit = true then ({ b with switchPermit := false }, false)
  else (b, true)

/-- `beforeFork` (line 87). -/
def beforeFork (b : SessionNewBridge) : Bool := b.running

end SessionNewBridge

/-! ## Runs -/

/-- How far a call of `run` has come: `newSession` has been called, it or the lack of it has
    been turned into a reply (`handlers.ts`, lines 161–175 and 205–230), the reply has been
    handed to the sender. -/
inductive RunPhase where
  | calling
  | settled (reply : ActionReply)
  | replied
deriving DecidableEq, Repr

structure RunTask where
  ref : PendingRef
  phase : RunPhase
deriving DecidableEq, Repr

/-- The bridge with what is under way: running timers, calls of `sendUserMessage` that have
    not returned, promises of those that have, and calls of `run`. `received` counts the
    frames. -/
structure BridgeRun where
  bridge : SessionNewBridge
  received : ℕ
  timers : List PendingRef
  sending : List PendingRef
  dispatches : List PendingRef
  tasks : List RunTask
deriving DecidableEq

/-- How the promise of `newSession` is settled. -/
inductive NewSessionOutcome where
  | replaced
  | cancelled
  | throws (text : String)
deriving DecidableEq, Repr

inductive BridgeLabel where
  /-- A frame arrives; with whether there is an agent, and the token drawn. -/
  | dispatch (request : SessionNewRequest) (hasPi : Bool) (token : String)
  | sendThrows (ref : PendingRef)
  | sendReturns (ref : PendingRef)
  | dispatchRejects (ref : PendingRef)
  | dispatchResolves (ref : PendingRef)
  | timesOut (ref : PendingRef)
  /-- The command is run, in a context that has `newSession` or not. -/
  | run (token : String) (hasNewSession : Bool)
  | newSessionSettles (ref : PendingRef) (outcome : NewSessionOutcome)
  | replies (ref : PendingRef) (reply : ActionReply)
  | finishes (ref : PendingRef)
  | beforeSwitch (reason : SwitchReason)
  | clear (error : String)
deriving DecidableEq

namespace BridgeRun

def initial : BridgeRun := ⟨.initial, 0, [], [], [], []⟩

/-- `complete` (lines 103–108). -/
def complete (s : BridgeRun) (ref : PendingRef) (reply : ActionReply) :
    BridgeRun × List BridgeEvent :=
  match s.bridge.pending.get? ref.token with
  | none => (s, [])
  | some pending =>
    if pending.number ≠ ref.number then (s, [])
    else
      ({ s with
          bridge := { s.bridge with pending := s.bridge.pending.erase ref.token }
          timers := s.timers.filter fun timer => timer.number ≠ ref.number },
        [.answered ref.number ref.request reply])

/-- `dispatch` (lines 32–55), until it calls `sendUserMessage`. -/
def dispatch (s : BridgeRun) (request : SessionNewRequest) (hasPi : Bool) (token : String) :
    BridgeRun × List BridgeEvent :=
  let ref : PendingRef := ⟨token, s.received, request⟩
  let received := s.received + 1
  if !hasPi then
    ({ s with received },
      [.answered s.received request (.error "session replacement is unavailable")])
  else if s.bridge.running || !s.bridge.pending.isEmpty then
    ({ s with received },
      [.answered s.received request (.error "session replacement is already in progress")])
  else
    ({ s with
        bridge := { s.bridge with
          pending := s.bridge.pending.set token ⟨s.received, request, false⟩ }
        received
        timers := s.timers ++ [ref]
        sending := s.sending ++ [ref] },
      [.injected ("/remote-pi internal-session-new " ++ token)])

/-- `run` (lines 62–73), until it waits for `newSession`. -/
def run (s : BridgeRun) (token : String) (hasNewSession : Bool) : BridgeRun × List BridgeEvent :=
  let normalized := trimmed token
  match s.bridge.pending.get? normalized with
  | none => (s, [])
  | some pending =>
    if pending.running || s.bridge.running then (s, [])
    else
      let ref : PendingRef := ⟨normalized, pending.number, pending.request⟩
      let phase : RunPhase := if hasNewSession then .calling
        else .settled (.error "newSession unavailable (no command ctx yet)")
      ({ s with
          bridge :=
            { pending := s.bridge.pending.set normalized { pending with running := true }
              running := true
              switchPermit := true }
          timers := s.timers.filter fun timer => timer.number ≠ pending.number
          tasks := s.tasks ++ [⟨ref, phase⟩] },
        if hasNewSession then [.newSession pending.number] else [])

/-- The reply to an outcome (`handlers.ts`, lines 167–173 and 222–228). -/
def replyTo : NewSessionOutcome → ActionReply
  | .replaced => .ok
  | .cancelled => .error "cancelled by extension hook"
  | .throws text => .error text

/-- `clear` (lines 91–93). -/
def clear (s : BridgeRun) (error : String) : BridgeRun × List BridgeEvent :=
  s.bridge.pending.entries.foldl (fun (acc : BridgeRun × List BridgeEvent) entry =>
    let (s, events) := acc.1.complete ⟨entry.1, entry.2.number, entry.2.request⟩ (.error error)
    (s, acc.2 ++ events)) (s, [])

/-- A closure that is under way takes its turn. -/
def move (s : BridgeRun) : BridgeLabel → Option (BridgeRun × List BridgeEvent)
  | .dispatch request hasPi token => some (s.dispatch request hasPi token)
  | .sendThrows ref =>
    if ref ∈ s.sending then
      some (complete { s with sending := s.sending.erase ref } ref
        (.error "session replacement dispatch failed"))
    else none
  | .sendReturns ref =>
    if ref ∈ s.sending then
      some ({ s with
        sending := s.sending.erase ref, dispatches := s.dispatches ++ [ref] }, [])
    else none
  | .dispatchRejects ref =>
    if ref ∈ s.dispatches then
      some (complete { s with dispatches := s.dispatches.erase ref } ref
        (.error "session replacement dispatch failed"))
    else none
  | .dispatchResolves ref =>
    if ref ∈ s.dispatches then some ({ s with dispatches := s.dispatches.erase ref }, [])
    else none
  | .timesOut ref =>
    if ref ∈ s.timers then
      some (complete { s with timers := s.timers.erase ref } ref
        (.error "session replacement dispatch timed out"))
    else none
  | .run token hasNewSession => some (s.run token hasNewSession)
  | .newSessionSettles ref outcome =>
    if (⟨ref, .calling⟩ : RunTask) ∈ s.tasks then
      some ({ s with
        tasks := s.tasks.erase ⟨ref, .calling⟩ ++ [⟨ref, .settled (replyTo outcome)⟩] },
        [.ended ref.number])
    else none
  | .replies ref reply =>
    if (⟨ref, .settled reply⟩ : RunTask) ∈ s.tasks then
      some (complete { s with
        tasks := s.tasks.erase ⟨ref, .settled reply⟩ ++ [⟨ref, .replied⟩] } ref reply)
    else none
  | .finishes ref =>
    if (⟨ref, .replied⟩ : RunTask) ∈ s.tasks then
      some ({ s with
        bridge := { s.bridge with running := false, switchPermit := false }
        tasks := s.tasks.erase ⟨ref, .replied⟩ }, [])
    else none
  | .beforeSwitch reason => some ({ s with bridge := (s.bridge.beforeSwitch reason).1 }, [])
  | .clear error => some (s.clear error)

/-- The frame of the number waits for its answer. -/
def waits (s : BridgeRun) (number : ℕ) : Bool :=
  s.bridge.pending.values.any fun pending => pending.number = number

end BridgeRun

/-- The steps that settle a frame: its command cannot be sent, its timer fires, `run` has a
    reply for it, or the bridge is cleared. -/
def BridgeLabel.Settles (number : ℕ) : BridgeLabel → Prop
  | .sendThrows ref => ref.number = number
  | .dispatchRejects ref => ref.number = number
  | .timesOut ref => ref.number = number
  | .replies ref _ => ref.number = number
  | .clear _ => True
  | _ => False

/-- The replies to the frame of the number. -/
def repliesTo (number : ℕ) (log : List BridgeEvent) : List ActionReply :=
  log.filterMap fun event =>
    match event with
    | .answered number' _ reply => if number' = number then some reply else none
    | _ => none

/-- A session is started for a frame once, before it is answered, and when every session that
    was being started before is settled. -/
def StartsInOrder (before : List BridgeEvent) : BridgeEvent → Prop
  | .newSession number => repliesTo number before = [] ∧ .newSession number ∉ before ∧
      ∀ other, .newSession other ∈ before → .ended other ∈ before
  | .ended number => .newSession number ∈ before ∧ .ended number ∉ before
  | _ => True

/-! ## What holds in every run -/

section Replies

variable {n : ℕ} {log : List BridgeEvent}

theorem repliesTo_append (n : ℕ) (log log' : List BridgeEvent) :
    repliesTo n (log ++ log') = repliesTo n log ++ repliesTo n log' := List.filterMap_append

theorem repliesTo_answered (n number : ℕ) (request : SessionNewRequest) (reply : ActionReply) :
    repliesTo n [.answered number request reply] = if number = n then [reply] else [] := by
  unfold repliesTo
  split_ifs with h <;> simp [h]

end Replies

namespace BridgeRun

variable {s : BridgeRun} {log : List BridgeEvent}

theorem waits_iff {n : ℕ} : s.waits n = true ↔
    ∃ token pending, s.bridge.pending.get? token = some pending ∧ pending.number = n := by
  unfold waits
  rw [OrderedMap.any_values]
  simp only [decide_eq_true_eq]

/-- What a run keeps: at most one frame waits, each received frame waits or has been
    answered once, and a session is being started at most for the one call of `run`. -/
structure Inv (s : BridgeRun) (log : List BridgeEvent) : Prop where
  only : ∀ token pending token' pending', s.bridge.pending.get? token = some pending →
    s.bridge.pending.get? token' = some pending' → token = token'
  known : ∀ token pending, s.bridge.pending.get? token = some pending →
    pending.number < s.received
  unanswered : ∀ n, repliesTo n log = [] ↔ s.received ≤ n ∨ s.waits n = true
  once : ∀ n, (repliesTo n log).length ≤ 1
  unstarted : ∀ token pending, s.bridge.pending.get? token = some pending →
    pending.running = false → .newSession pending.number ∉ log
  future : ∀ n, s.received ≤ n → .newSession n ∉ log
  idle : s.bridge.running = false → s.tasks = []
  lone : s.tasks.length ≤ 1
  opened : ∀ n, .newSession n ∈ log →
    .ended n ∈ log ∨ ∃ ref : PendingRef, ref.number = n ∧ (⟨ref, .calling⟩ : RunTask) ∈ s.tasks
  calling : ∀ ref : PendingRef, (⟨ref, .calling⟩ : RunTask) ∈ s.tasks →
    .newSession ref.number ∈ log ∧ .ended ref.number ∉ log
  order : Throughout StartsInOrder log

theorem inv_initial : Inv initial [] where
  only := fun _ _ _ _ h => by cases h
  known := fun _ _ h => by cases h
  unanswered := fun n => iff_of_true rfl (Or.inl (Nat.zero_le n))
  once := fun _ => Nat.zero_le 1
  unstarted := fun _ _ h => by cases h
  future := fun _ _ => List.not_mem_nil
  idle := fun _ => rfl
  lone := Nat.zero_le 1
  opened := fun _ h => absurd h List.not_mem_nil
  calling := fun _ h => absurd h List.not_mem_nil
  order := throughout_nil

theorem Inv.tasks_eq (h : s.Inv log) {task : RunTask} (hmem : task ∈ s.tasks) :
    s.tasks = [task] := by
  obtain ⟨other, hother⟩ := List.length_eq_one_iff.mp
    (Nat.le_antisymm h.lone (List.length_pos_of_mem hmem))
  rw [hother] at hmem ⊢
  rw [List.mem_singleton.mp hmem]

/-- The invariant does not read the closures but the calls of `run`. -/
theorem Inv.of_same (h : s.Inv log) {s' : BridgeRun}
    (hpending : s'.bridge.pending = s.bridge.pending) (hrunning : s'.bridge.running = s.bridge.running)
    (hreceived : s'.received = s.received) (htasks : s'.tasks = s.tasks) : s'.Inv log := by
  have hwaits : ∀ n, s'.waits n = s.waits n := fun n => by rw [waits, waits, hpending]
  refine ⟨?_, ?_, ?_, h.once, ?_, ?_, ?_, ?_, ?_, ?_, h.order⟩
  · rw [hpending]
    exact h.only
  · rw [hpending, hreceived]
    exact h.known
  · intro n
    rw [hreceived, hwaits]
    exact h.unanswered n
  · rw [hpending]
    exact h.unstarted
  · rw [hreceived]
    exact h.future
  · rw [hrunning, htasks]
    exact h.idle
  · rw [htasks]
    exact h.lone
  · rw [htasks]
    exact h.opened
  · rw [htasks]
    exact h.calling

/-! ### Answers -/

/-- A closure answers the frame that it was made for, if that one still waits. -/
theorem complete_cases (s : BridgeRun) (ref : PendingRef) (reply : ActionReply) :
    (∀ pending, s.bridge.pending.get? ref.token = some pending → pending.number ≠ ref.number) ∧
      s.complete ref reply = (s, []) ∨
    ∃ pending, s.bridge.pending.get? ref.token = some pending ∧ pending.number = ref.number ∧
      s.complete ref reply =
        ({ s with
            bridge := { s.bridge with pending := s.bridge.pending.erase ref.token }
            timers := s.timers.filter fun timer => timer.number ≠ ref.number },
          [.answered ref.number ref.request reply]) := by
  unfold complete
  cases hget : s.bridge.pending.get? ref.token with
  | none =>
    refine Or.inl ⟨fun pending hsome => ?_, rfl⟩
    cases hsome
  | some pending =>
    dsimp only
    split_ifs with hnumber
    · refine Or.inl ⟨fun other hsome => ?_, rfl⟩
      cases hsome
      exact hnumber
    · exact Or.inr ⟨pending, rfl, not_not.mp hnumber, rfl⟩

/-- No session is started or settled by a reply. -/
theorem throughout_answered (h : Throughout StartsInOrder log) (number : ℕ)
    (request : SessionNewRequest) (reply : ActionReply) :
    Throughout StartsInOrder (log ++ [.answered number request reply]) :=
  throughout_append.mpr ⟨h, throughout_singleton.mpr trivial⟩

theorem Inv.complete (h : s.Inv log) (ref : PendingRef) (reply : ActionReply) :
    (s.complete ref reply).1.Inv (log ++ (s.complete ref reply).2) := by
  rcases s.complete_cases ref reply with ⟨-, hsame⟩ | ⟨pending, hget, hnumber, hanswer⟩
  · rw [hsame, List.append_nil]
    exact h
  · rw [hanswer]
    dsimp only
    have hgone : ∀ token, (s.bridge.pending.erase ref.token).get? token = none := by
      intro token
      rw [OrderedMap.get?_erase]
      split_ifs with htoken
      · rfl
      · by_contra hsome
        obtain ⟨other, hother⟩ := Option.ne_none_iff_exists'.mp hsome
        exact htoken (h.only _ _ _ _ hother hget)
    have hstarted : ∀ n, .newSession n ∈ log ++ [.answered ref.number ref.request reply] ↔
        .newSession n ∈ log := fun n => by simp
    have hended : ∀ n, .ended n ∈ log ++ [.answered ref.number ref.request reply] ↔
        .ended n ∈ log := fun n => by simp
    -- No other frame waits.
    have hwaits : ∀ n, s.waits n = true ↔ n = ref.number := by
      intro n
      rw [waits_iff]
      constructor
      · rintro ⟨token, other, hother, rfl⟩
        cases h.only _ _ _ _ hother hget
        cases hother.symm.trans hget
        exact hnumber
      · rintro rfl
        exact ⟨_, pending, hget, hnumber⟩
    refine ⟨fun token _ _ _ hsome => ?_, fun token _ hsome => ?_, fun n => ?_, fun n => ?_,
      fun token _ hsome => ?_, fun n hn => ?_, h.idle, h.lone, fun n hn => ?_, fun task htask => ?_,
      throughout_answered h.order _ _ _⟩
    · rw [hgone] at hsome
      cases hsome
    · rw [hgone] at hsome
      cases hsome
    · have hnone : waits { s with
          bridge := { s.bridge with pending := s.bridge.pending.erase ref.token }
          timers := s.timers.filter fun timer => timer.number ≠ ref.number } n = true ↔ False := by
        rw [waits_iff]
        refine iff_of_false ?_ id
        rintro ⟨token, other, hother, -⟩
        rw [hgone] at hother
        cases hother
      rw [hnone, or_false, repliesTo_append, repliesTo_answered, List.append_eq_nil_iff,
        h.unanswered, hwaits]
      have hlt : ref.number < s.received := hnumber ▸ h.known _ _ hget
      split_ifs with heq
      · subst heq
        simp [hlt]
      · simp [Ne.symm heq]
    · rw [repliesTo_append, repliesTo_answered]
      split_ifs with heq
      · rw [(h.unanswered n).mpr (Or.inr ((hwaits n).mpr heq.symm))]
        exact Nat.le_refl 1
      · rw [List.append_nil]
        exact h.once n
    · rw [hgone] at hsome
      cases hsome
    · rw [hstarted]
      exact h.future n hn
    · rw [hended]
      exact h.opened n ((hstarted n).mp hn)
    · rw [hstarted, hended]
      exact h.calling task htask

/-! ### Frames that arrive -/

/-- A frame that is refused at once is answered. -/
theorem Inv.refuse (h : s.Inv log) (request : SessionNewRequest) (reply : ActionReply) :
    Inv { s with received := s.received + 1 } (log ++ [.answered s.received request reply]) := by
  have hstarted : ∀ n, .newSession n ∈ log ++ [.answered s.received request reply] ↔
      .newSession n ∈ log := fun n => by simp
  have hended : ∀ n, .ended n ∈ log ++ [.answered s.received request reply] ↔
      .ended n ∈ log := fun n => by simp
  have hnew : s.waits s.received = false := by
    rw [← Bool.not_eq_true, waits_iff]
    rintro ⟨token, pending, hget, hnumber⟩
    exact absurd (h.known token pending hget) (by omega)
  refine ⟨h.only, fun token pending hget => Nat.lt_succ_of_lt (h.known token pending hget),
    fun n => ?_, fun n => ?_, fun token pending hget hrunning => ?_, fun n hn => ?_, h.idle, h.lone,
    fun n hn => ?_, fun ref htask => ?_, throughout_answered h.order _ _ _⟩
  · have hwaits : waits { s with received := s.received + 1 } n = s.waits n := rfl
    rw [hwaits, repliesTo_append, repliesTo_answered, List.append_eq_nil_iff, h.unanswered]
    split_ifs with heq
    · subst heq
      simp [hnew]
    · dsimp only
      have : s.received + 1 ≤ n ↔ s.received ≤ n := by omega
      simp [this]
  · rw [repliesTo_append, repliesTo_answered]
    split_ifs with heq
    · rw [(h.unanswered n).mpr (Or.inl (Nat.le_of_eq heq))]
      exact Nat.le_refl 1
    · rw [List.append_nil]
      exact h.once n
  · rw [hstarted]
    exact h.unstarted token pending hget hrunning
  · rw [hstarted]
    exact h.future n (Nat.le_of_succ_le hn)
  · rw [hended]
    exact h.opened n ((hstarted n).mp hn)
  · rw [hstarted, hended]
    exact h.calling ref htask

/-- A frame that is handed to the agent waits. -/
theorem Inv.await (h : s.Inv log) (hempty : s.bridge.pending.isEmpty = true)
    (request : SessionNewRequest) (token text : String) (timers sending : List PendingRef) :
    Inv { s with
      bridge := { s.bridge with
        pending := s.bridge.pending.set token ⟨s.received, request, false⟩ }
      received := s.received + 1, timers, sending } (log ++ [.injected text]) := by
  have hstarted : ∀ n, .newSession n ∈ log ++ [.injected text] ↔ .newSession n ∈ log :=
    fun n => by simp
  have hended : ∀ n, .ended n ∈ log ++ [.injected text] ↔ .ended n ∈ log := fun n => by simp
  have hreplies : ∀ n, repliesTo n (log ++ [.injected text]) = repliesTo n log := fun n => by
    rw [repliesTo_append]
    exact List.append_nil _
  have hget : ∀ token' pending,
      (s.bridge.pending.set token ⟨s.received, request, false⟩).get? token' = some pending →
        token' = token ∧ pending = ⟨s.received, request, false⟩ := by
    intro token' pending hsome
    rw [OrderedMap.get?_set, OrderedMap.get?_eq_none_of_isEmpty hempty] at hsome
    split_ifs at hsome with htoken
    exact ⟨htoken, (Option.some.inj hsome).symm⟩
  refine ⟨fun _ _ _ _ hsome hsome' => ?_, fun _ _ hsome => ?_, fun n => ?_, fun n => ?_,
    fun _ _ hsome _ => ?_, fun n hn => ?_, h.idle, h.lone, fun n hn => ?_, fun ref htask => ?_,
    throughout_append.mpr ⟨h.order, throughout_singleton.mpr trivial⟩⟩
  · rw [(hget _ _ hsome).1, (hget _ _ hsome').1]
  · rw [(hget _ _ hsome).2]
    exact Nat.lt_succ_self _
  · rw [hreplies, h.unanswered]
    have hbefore : ¬s.waits n = true := by
      rw [waits_iff]
      rintro ⟨token', pending, hsome, -⟩
      rw [OrderedMap.get?_eq_none_of_isEmpty hempty] at hsome
      cases hsome
    have hafter : waits { s with
        bridge := { s.bridge with
          pending := s.bridge.pending.set token ⟨s.received, request, false⟩ }
        received := s.received + 1, timers, sending } n = true ↔ n = s.received := by
      rw [waits_iff]
      constructor
      · rintro ⟨token', pending, hsome, rfl⟩
        rw [(hget _ _ hsome).2]
      · rintro rfl
        exact ⟨token, _, OrderedMap.get?_set_self _ _ _, rfl⟩
    rw [hafter, or_iff_left hbefore]
    dsimp only
    omega
  · rw [hreplies]
    exact h.once n
  · rw [(hget _ _ hsome).2, hstarted]
    exact h.future s.received (Nat.le_refl _)
  · rw [hstarted]
    exact h.future n (Nat.le_of_succ_le hn)
  · rw [hended]
    exact h.opened n ((hstarted n).mp hn)
  · rw [hstarted, hended]
    exact h.calling ref htask

theorem Inv.dispatch (h : s.Inv log) (request : SessionNewRequest) (hasPi : Bool)
    (token : String) :
    (s.dispatch request hasPi token).1.Inv (log ++ (s.dispatch request hasPi token).2) := by
  unfold BridgeRun.dispatch
  dsimp only
  split_ifs with hpi hbusy
  · exact h.refuse request _
  · exact h.refuse request _
  · rw [Bool.not_eq_true, Bool.or_eq_false_iff, Bool.not_eq_eq_eq_not, Bool.not_false] at hbusy
    exact h.await hbusy.2 request token _ _ _

/-! ### The command -/

theorem started_of_ended (h : Throughout StartsInOrder log) {n : ℕ} (hmem : .ended n ∈ log) :
    .newSession n ∈ log := by
  obtain ⟨before, after, rfl⟩ := List.append_of_mem hmem
  exact List.mem_append_left _ (h before _ after rfl).1

/-- A started command holds the only call of `run`. -/
theorem Inv.start (h : s.Inv log) {token : String} {pending : PendingSessionNew}
    (hget : s.bridge.pending.get? token = some pending) (hidle : s.bridge.running = false)
    (hfirst : pending.running = false) (hasNewSession permit : Bool) (timers : List PendingRef)
    {phase : RunPhase} (hphase : phase = .calling ↔ hasNewSession = true) :
    Inv { s with
      bridge :=
        { pending := s.bridge.pending.set token { pending with running := true }
          running := true
          switchPermit := permit }
      timers
      tasks := s.tasks ++ [⟨⟨token, pending.number, pending.request⟩, phase⟩] }
      (log ++ if hasNewSession then [.newSession pending.number] else []) := by
  have hstarted : ∀ n, .newSession n ∈
      log ++ (if hasNewSession then [.newSession pending.number] else []) ↔
        .newSession n ∈ log ∨ hasNewSession = true ∧ n = pending.number := fun n => by
    cases hasNewSession <;> simp
  have hended : ∀ n, .ended n ∈
      log ++ (if hasNewSession then [.newSession pending.number] else []) ↔
        .ended n ∈ log := fun n => by
    cases hasNewSession <;> simp
  have hreplies : ∀ n, repliesTo n
      (log ++ if hasNewSession then [.newSession pending.number] else []) =
        repliesTo n log := fun n => by
    rw [repliesTo_append]
    cases hasNewSession <;> exact List.append_nil _
  have hthis : ∀ {token' pending'},
      (s.bridge.pending.set token { pending with running := true }).get? token' = some pending' →
        token' = token ∧ pending' = { pending with running := true } := by
    intro token' pending' hsome
    rw [OrderedMap.get?_set] at hsome
    split_ifs at hsome with htoken
    · exact ⟨htoken, (Option.some.inj hsome).symm⟩
    · exact absurd (h.only _ _ _ _ hsome hget) htoken
  have hwaits : s.waits pending.number = true := waits_iff.mpr ⟨token, pending, hget, rfl⟩
  have hnone := h.idle hidle
  have hquiet : ∀ n, .newSession n ∈ log → .ended n ∈ log := by
    intro n hn
    refine (h.opened n hn).resolve_right ?_
    rintro ⟨ref, -, htask⟩
    rw [hnone] at htask
    cases htask
  refine ⟨fun _ _ _ _ hsome hsome' => ?_, fun _ _ hsome => ?_, fun n => ?_, fun n => ?_,
    fun _ _ hsome hrunning => ?_, fun n hn => ?_, fun hrunning => ?_, ?_, fun n hn => ?_,
    fun ref htask => ?_, ?_⟩
  · rw [(hthis hsome).1, (hthis hsome').1]
  · rw [(hthis hsome).2]
    exact h.known token pending hget
  · rw [hreplies, h.unanswered]
    refine or_congr_right ?_
    rw [waits_iff, waits_iff]
    constructor
    · rintro ⟨token', other, hother, rfl⟩
      cases h.only _ _ _ _ hother hget
      cases hother.symm.trans hget
      exact ⟨_, _, OrderedMap.get?_set_self _ _ _, rfl⟩
    · rintro ⟨token', other, hother, rfl⟩
      rw [(hthis hother).2]
      exact ⟨token, pending, hget, rfl⟩
  · rw [hreplies]
    exact h.once n
  · rw [(hthis hsome).2] at hrunning
    cases hrunning
  · rw [hstarted]
    rintro (hold | ⟨-, rfl⟩)
    · exact h.future n hn hold
    · exact absurd (h.known token pending hget) (Nat.not_lt.mpr hn)
  · cases hrunning
  · rw [hnone]
    exact Nat.le_refl 1
  · rcases (hstarted n).mp hn with hold | ⟨hnew, rfl⟩
    · exact Or.inl ((hended n).mpr (hquiet n hold))
    · refine Or.inr ⟨⟨token, pending.number, pending.request⟩, rfl, ?_⟩
      rw [hphase.mpr hnew]
      exact List.mem_append_right _ List.mem_cons_self
  · rw [hnone, List.nil_append, List.mem_singleton, RunTask.mk.injEq] at htask
    obtain ⟨rfl, hcalling⟩ := htask
    rw [hstarted, hended]
    refine ⟨Or.inr ⟨hphase.mp hcalling.symm, rfl⟩, fun hmem => ?_⟩
    exact h.unstarted token pending hget hfirst (started_of_ended h.order hmem)
  · refine throughout_append.mpr ⟨h.order, ?_⟩
    cases hasNewSession with
    | false => exact throughout_nil
    | true =>
      refine throughout_singleton.mpr ?_
      rw [List.append_nil]
      exact ⟨(h.unanswered _).mpr (Or.inr hwaits), h.unstarted token pending hget hfirst, hquiet⟩

theorem Inv.run (h : s.Inv log) (token : String) (hasNewSession : Bool) :
    (s.run token hasNewSession).1.Inv (log ++ (s.run token hasNewSession).2) := by
  unfold BridgeRun.run
  dsimp only
  split
  · rw [List.append_nil]
    exact h
  · rename_i pending hget
    split_ifs with hbusy hnew
    · rw [List.append_nil]
      exact h
    all_goals
      rw [Bool.not_eq_true, Bool.or_eq_false_iff] at hbusy
    · exact h.start hget hbusy.2 hbusy.1 true true _ (iff_of_true rfl rfl)
    · refine h.start hget hbusy.2 hbusy.1 false true _ (iff_of_false ?_ Bool.false_ne_true)
      intro hcalling
      cases hcalling

/-! ### The end of a command -/

/-- The call of `run` goes on: it is the only one, and it no longer starts a session. -/
theorem Inv.advance (h : s.Inv log) {task task' : RunTask} (hmem : task ∈ s.tasks)
    (hcalling : task.phase ≠ .calling) (hcalling' : task'.phase ≠ .calling) :
    Inv { s with tasks := s.tasks.erase task ++ [task'] } log := by
  have htasks := h.tasks_eq hmem
  have hafter : s.tasks.erase task ++ [task'] = [task'] := by
    rw [htasks, List.erase_cons_head, List.nil_append]
  rw [hafter]
  refine ⟨h.only, h.known, h.unanswered, h.once, h.unstarted, h.future, fun hidle => ?_,
    Nat.le_refl 1, fun n hn => Or.inl ?_, fun ref htask => ?_, h.order⟩
  · rw [h.idle hidle] at hmem
    cases hmem
  · refine (h.opened n hn).resolve_right ?_
    rintro ⟨ref, -, htask⟩
    rw [htasks] at htask
    exact hcalling (congrArg RunTask.phase (List.mem_singleton.mp htask)).symm
  · exact absurd (congrArg RunTask.phase (List.mem_singleton.mp htask)).symm hcalling'

theorem Inv.settle (h : s.Inv log) {ref : PendingRef} (reply : ActionReply)
    (hmem : (⟨ref, .calling⟩ : RunTask) ∈ s.tasks) :
    Inv { s with tasks := s.tasks.erase ⟨ref, .calling⟩ ++ [⟨ref, .settled reply⟩] }
      (log ++ [.ended ref.number]) := by
  have htasks := h.tasks_eq hmem
  have hafter : s.tasks.erase ⟨ref, .calling⟩ ++ [⟨ref, .settled reply⟩] =
      [⟨ref, .settled reply⟩] := by
    rw [htasks, List.erase_cons_head, List.nil_append]
  have hstarted : ∀ n, .newSession n ∈ log ++ [.ended ref.number] ↔ .newSession n ∈ log :=
    fun n => by simp
  have hreplies : ∀ n, repliesTo n (log ++ [.ended ref.number]) = repliesTo n log := fun n => by
    rw [repliesTo_append]
    exact List.append_nil _
  rw [hafter]
  refine ⟨h.only, h.known, fun n => ?_, fun n => ?_, fun token pending hget hrunning => ?_,
    fun n hn => ?_, fun hidle => ?_, Nat.le_refl 1, fun n hn => Or.inl ?_, fun other htask => ?_,
    throughout_append.mpr ⟨h.order, throughout_singleton.mpr ?_⟩⟩
  · rw [hreplies]
    exact h.unanswered n
  · rw [hreplies]
    exact h.once n
  · rw [hstarted]
    exact h.unstarted token pending hget hrunning
  · rw [hstarted]
    exact h.future n hn
  · rw [h.idle hidle] at hmem
    cases hmem
  · rcases h.opened n ((hstarted n).mp hn) with hended | ⟨other, rfl, htask⟩
    · exact List.mem_append_left _ hended
    · rw [htasks, List.mem_singleton, RunTask.mk.injEq] at htask
      rw [htask.1]
      exact List.mem_append_right _ List.mem_cons_self
  · have hphase := congrArg RunTask.phase (List.mem_singleton.mp htask)
    cases hphase
  · rw [List.append_nil]
    exact h.calling ref hmem

theorem Inv.finish (h : s.Inv log) {ref : PendingRef}
    (hmem : (⟨ref, .replied⟩ : RunTask) ∈ s.tasks) :
    Inv { s with
      bridge := { s.bridge with running := false, switchPermit := false }
      tasks := s.tasks.erase ⟨ref, .replied⟩ } log := by
  have htasks := h.tasks_eq hmem
  have hafter : s.tasks.erase ⟨ref, .replied⟩ = [] := by
    rw [htasks, List.erase_cons_head]
  rw [hafter]
  refine ⟨h.only, h.known, h.unanswered, h.once, h.unstarted, h.future, fun _ => rfl,
    Nat.zero_le 1, fun n hn => Or.inl ?_, fun other htask => absurd htask List.not_mem_nil, h.order⟩
  refine (h.opened n hn).resolve_right ?_
  rintro ⟨other, -, htask⟩
  rw [htasks, List.mem_singleton, RunTask.mk.injEq] at htask
  cases htask.2

theorem Inv.clear (h : s.Inv log) (error : String) :
    (s.clear error).1.Inv (log ++ (s.clear error).2) := by
  have hfold : ∀ (entries : List (String × PendingSessionNew)) (t : BridgeRun)
      (events : List BridgeEvent), t.Inv (log ++ events) →
      let result := entries.foldl (fun (acc : BridgeRun × List BridgeEvent) entry =>
        let (s, events) := acc.1.complete ⟨entry.1, entry.2.number, entry.2.request⟩ (.error error)
        (s, acc.2 ++ events)) (t, events)
      result.1.Inv (log ++ result.2) := by
    intro entries
    induction entries with
    | nil => exact fun t events ht => ht
    | cons entry entries ih =>
      intro t events ht
      refine ih _ _ ?_
      rw [← List.append_assoc]
      exact ht.complete _ _
  refine hfold _ s [] ?_
  rw [List.append_nil]
  exact h

/-! ### Closures and the frames they were made for -/

/-- A closure of the pending request is under way. -/
def Holds (s : BridgeRun) (ref : PendingRef) : Prop :=
  ref ∈ s.timers ∨ ref ∈ s.sending ∨ ref ∈ s.dispatches ∨ ∃ phase, (⟨ref, phase⟩ : RunTask) ∈ s.tasks

/-- A frame that waits does so under the token of its closures. -/
def Named (s : BridgeRun) : Prop :=
  ∀ ref, s.Holds ref → ref.number < s.received ∧
    ∀ token pending, s.bridge.pending.get? token = some pending →
      pending.number = ref.number → token = ref.token

theorem named_initial : Named initial := by
  rintro ref (h | h | h | ⟨phase, h⟩) <;> cases h

/-- The names stay right while closures end and requests are answered. -/
theorem Named.of_held (h : s.Named) {s' : BridgeRun} (hheld : ∀ ref, s'.Holds ref → s.Holds ref)
    (hreceived : s.received ≤ s'.received)
    (hpending : ∀ token pending, s'.bridge.pending.get? token = some pending →
      s.bridge.pending.get? token = some pending) : s'.Named := by
  intro ref href
  obtain ⟨hlt, hname⟩ := h ref (hheld ref href)
  exact ⟨Nat.lt_of_lt_of_le hlt hreceived,
    fun token pending hget => hname token pending (hpending token pending hget)⟩

theorem Named.complete (h : s.Named) (ref : PendingRef) (reply : ActionReply) :
    (s.complete ref reply).1.Named := by
  rcases s.complete_cases ref reply with ⟨-, hsame⟩ | ⟨pending, -, -, hanswer⟩
  · rw [hsame]
    exact h
  · rw [hanswer]
    refine h.of_held ?_ (Nat.le_refl _) ?_
    · rintro other (hmem | hmem)
      · exact Or.inl (List.mem_filter.mp hmem).1
      · exact Or.inr hmem
    · intro token other hget
      rw [OrderedMap.get?_erase] at hget
      split_ifs at hget
      exact hget

theorem Named.clear (h : s.Named) (error : String) : (s.clear error).1.Named := by
  have hfold : ∀ (entries : List (String × PendingSessionNew)) (t : BridgeRun)
      (events : List BridgeEvent), t.Named →
      (entries.foldl (fun (acc : BridgeRun × List BridgeEvent) entry =>
        let (s, events) := acc.1.complete ⟨entry.1, entry.2.number, entry.2.request⟩ (.error error)
        (s, acc.2 ++ events)) (t, events)).1.Named := by
    intro entries
    induction entries with
    | nil => exact fun t events ht => ht
    | cons entry entries ih => exact fun t events ht => ih _ _ (ht.complete _ _)
  exact hfold _ s [] h

theorem Named.dispatch (h : s.Named) (request : SessionNewRequest) (hasPi : Bool)
    (token : String) : (s.dispatch request hasPi token).1.Named := by
  unfold BridgeRun.dispatch
  dsimp only
  split_ifs with hpi hbusy
  · exact h.of_held (fun _ => id) (Nat.le_succ _) fun _ _ => id
  · exact h.of_held (fun _ => id) (Nat.le_succ _) fun _ _ => id
  · rw [Bool.not_eq_true, Bool.or_eq_false_iff, Bool.not_eq_eq_eq_not, Bool.not_false] at hbusy
    intro ref href
    -- The request of a closure is this one or an older one.
    have hheld : ref = ⟨token, s.received, request⟩ ∨ s.Holds ref := by
      rcases href with hmem | hmem | hmem
      · rcases List.mem_append.mp hmem with hmem | hmem
        · exact Or.inr (Or.inl hmem)
        · exact Or.inl (List.mem_singleton.mp hmem)
      · rcases List.mem_append.mp hmem with hmem | hmem
        · exact Or.inr (Or.inr (Or.inl hmem))
        · exact Or.inl (List.mem_singleton.mp hmem)
      · exact Or.inr (Or.inr (Or.inr hmem))
    have hget : ∀ token' pending,
        (s.bridge.pending.set token ⟨s.received, request, false⟩).get? token' = some pending →
          token' = token ∧ pending.number = s.received := by
      intro token' pending hsome
      rw [OrderedMap.get?_set, OrderedMap.get?_eq_none_of_isEmpty hbusy.2] at hsome
      split_ifs at hsome with htoken
      rw [← Option.some.inj hsome]
      exact ⟨htoken, rfl⟩
    rcases hheld with rfl | hold
    · exact ⟨Nat.lt_succ_self _, fun token' pending hsome _ => (hget token' pending hsome).1⟩
    · have hlt := (h ref hold).1
      refine ⟨Nat.lt_succ_of_lt hlt, fun token' pending hsome hnumber => ?_⟩
      rw [(hget token' pending hsome).2] at hnumber
      exact absurd hnumber (Nat.ne_of_gt hlt)

theorem Named.run (h : s.Named) (hinv : s.Inv log) (token : String) (hasNewSession : Bool) :
    (s.run token hasNewSession).1.Named := by
  unfold BridgeRun.run
  dsimp only
  split
  · exact h
  · rename_i pending hpending
    by_cases hbusy : (pending.running || s.bridge.running) = true
    · rw [if_pos hbusy]
      exact h
    rw [if_neg hbusy]
    intro ref href
    have hheld : ref = ⟨trimmed token, pending.number, pending.request⟩ ∨ s.Holds ref := by
      rcases href with hmem | hmem | hmem | ⟨phase, hmem⟩
      · exact Or.inr (Or.inl (List.mem_filter.mp hmem).1)
      · exact Or.inr (Or.inr (Or.inl hmem))
      · exact Or.inr (Or.inr (Or.inr (Or.inl hmem)))
      · rcases List.mem_append.mp hmem with hmem | hmem
        · exact Or.inr (Or.inr (Or.inr (Or.inr ⟨phase, hmem⟩)))
        · exact Or.inl (congrArg RunTask.ref (List.mem_singleton.mp hmem))
    -- A started command keeps the number of its request.
    have hget : ∀ token' other, (s.bridge.pending.set (trimmed token)
        { pending with running := true }).get? token' = some other →
          ∃ before, s.bridge.pending.get? token' = some before ∧ before.number = other.number := by
      intro token' other hsome
      rw [OrderedMap.get?_set] at hsome
      split_ifs at hsome with htoken
      · rw [htoken, ← Option.some.inj hsome]
        exact ⟨pending, hpending, rfl⟩
      · exact ⟨other, hsome, rfl⟩
    rcases hheld with rfl | hold
    · refine ⟨hinv.known _ _ hpending, fun token' other hsome _ => ?_⟩
      obtain ⟨before, hbefore, -⟩ := hget token' other hsome
      exact hinv.only _ _ _ _ hbefore hpending
    · obtain ⟨hlt, hname⟩ := h ref hold
      refine ⟨hlt, fun token' other hsome hnumber => ?_⟩
      obtain ⟨before, hbefore, heq⟩ := hget token' other hsome
      exact hname token' before hbefore (heq.trans hnumber)

/-! ### Runs -/

/-- Whatever takes its turn keeps the invariant. -/
theorem Inv.move (h : s.Inv log) {label : BridgeLabel} {result : BridgeRun × List BridgeEvent}
    (hmove : s.move label = some result) : result.1.Inv (log ++ result.2) := by
  cases label with
  | dispatch request hasPi token =>
    cases hmove
    exact h.dispatch request hasPi token
  | sendThrows ref =>
    obtain ⟨-, hmove⟩ := Option.ite_none_right_eq_some.mp hmove
    cases hmove
    have hsame : Inv { s with sending := s.sending.erase ref } log := h.of_same rfl rfl rfl rfl
    exact hsame.complete ref _
  | sendReturns ref =>
    obtain ⟨-, hmove⟩ := Option.ite_none_right_eq_some.mp hmove
    cases hmove
    rw [List.append_nil]
    exact h.of_same rfl rfl rfl rfl
  | dispatchRejects ref =>
    obtain ⟨-, hmove⟩ := Option.ite_none_right_eq_some.mp hmove
    cases hmove
    have hsame : Inv { s with dispatches := s.dispatches.erase ref } log :=
      h.of_same rfl rfl rfl rfl
    exact hsame.complete ref _
  | dispatchResolves ref =>
    obtain ⟨-, hmove⟩ := Option.ite_none_right_eq_some.mp hmove
    cases hmove
    rw [List.append_nil]
    exact h.of_same rfl rfl rfl rfl
  | timesOut ref =>
    obtain ⟨-, hmove⟩ := Option.ite_none_right_eq_some.mp hmove
    cases hmove
    have hsame : Inv { s with timers := s.timers.erase ref } log := h.of_same rfl rfl rfl rfl
    exact hsame.complete ref _
  | run token hasNewSession =>
    cases hmove
    exact h.run token hasNewSession
  | newSessionSettles ref outcome =>
    obtain ⟨hmem, hmove⟩ := Option.ite_none_right_eq_some.mp hmove
    cases hmove
    exact h.settle _ hmem
  | replies ref reply =>
    obtain ⟨hmem, hmove⟩ := Option.ite_none_right_eq_some.mp hmove
    cases hmove
    refine Inv.complete (h.advance hmem ?_ ?_) ref reply
    · intro heq
      cases heq
    · intro heq
      cases heq
  | finishes ref =>
    obtain ⟨hmem, hmove⟩ := Option.ite_none_right_eq_some.mp hmove
    cases hmove
    rw [List.append_nil]
    exact h.finish hmem
  | beforeSwitch reason =>
    cases hmove
    rw [List.append_nil]
    refine h.of_same ?_ ?_ rfl rfl
    · unfold SessionNewBridge.beforeSwitch
      split_ifs <;> rfl
    · unfold SessionNewBridge.beforeSwitch
      split_ifs <;> rfl
  | clear error =>
    cases hmove
    exact h.clear error

theorem mem_of_mem_erase_append {task task' : RunTask} {ref : PendingRef} {phase : RunPhase}
    {tasks : List RunTask} (h : (⟨ref, phase⟩ : RunTask) ∈ tasks.erase task ++ [task'])
    (hmem : task ∈ tasks) (href : task'.ref = task.ref) :
    ∃ phase', (⟨ref, phase'⟩ : RunTask) ∈ tasks := by
  rcases List.mem_append.mp h with h | h
  · exact ⟨phase, List.mem_of_mem_erase h⟩
  · have heq : ref = task'.ref := congrArg RunTask.ref (List.mem_singleton.mp h)
    exact ⟨task.phase, by rwa [heq, href]⟩

theorem Named.move (h : s.Named) (hinv : s.Inv log) {label : BridgeLabel}
    {result : BridgeRun × List BridgeEvent} (hmove : s.move label = some result) :
    result.1.Named := by
  cases label with
  | dispatch request hasPi token =>
    cases hmove
    exact h.dispatch request hasPi token
  | sendThrows ref =>
    obtain ⟨-, hmove⟩ := Option.ite_none_right_eq_some.mp hmove
    cases hmove
    have hless : Named { s with sending := s.sending.erase ref } :=
      h.of_held (fun _ => Or.imp_right (Or.imp_left List.mem_of_mem_erase)) (Nat.le_refl _)
        fun _ _ => id
    exact hless.complete ref _
  | sendReturns ref =>
    obtain ⟨hmem, hmove⟩ := Option.ite_none_right_eq_some.mp hmove
    cases hmove
    refine h.of_held ?_ (Nat.le_refl _) fun _ _ => id
    rintro other (hother | hother | hother | hother)
    · exact Or.inl hother
    · exact Or.inr (Or.inl (List.mem_of_mem_erase hother))
    · rcases List.mem_append.mp hother with hother | hother
      · exact Or.inr (Or.inr (Or.inl hother))
      · rw [List.mem_singleton.mp hother]
        exact Or.inr (Or.inl hmem)
    · exact Or.inr (Or.inr (Or.inr hother))
  | dispatchRejects ref =>
    obtain ⟨-, hmove⟩ := Option.ite_none_right_eq_some.mp hmove
    cases hmove
    have hless : Named { s with dispatches := s.dispatches.erase ref } :=
      h.of_held (fun _ => Or.imp_right (Or.imp_right (Or.imp_left List.mem_of_mem_erase)))
        (Nat.le_refl _) fun _ _ => id
    exact hless.complete ref _
  | dispatchResolves ref =>
    obtain ⟨-, hmove⟩ := Option.ite_none_right_eq_some.mp hmove
    cases hmove
    exact h.of_held (fun _ => Or.imp_right (Or.imp_right (Or.imp_left List.mem_of_mem_erase)))
      (Nat.le_refl _) fun _ _ => id
  | timesOut ref =>
    obtain ⟨-, hmove⟩ := Option.ite_none_right_eq_some.mp hmove
    cases hmove
    have hless : Named { s with timers := s.timers.erase ref } :=
      h.of_held (fun _ => Or.imp_left List.mem_of_mem_erase) (Nat.le_refl _) fun _ _ => id
    exact hless.complete ref _
  | run token hasNewSession =>
    cases hmove
    exact h.run hinv token hasNewSession
  | newSessionSettles ref outcome =>
    obtain ⟨hmem, hmove⟩ := Option.ite_none_right_eq_some.mp hmove
    cases hmove
    exact h.of_held (fun _ => Or.imp_right (Or.imp_right (Or.imp_right fun ⟨_, htask⟩ =>
      mem_of_mem_erase_append htask hmem rfl))) (Nat.le_refl _) fun _ _ => id
  | replies ref reply =>
    obtain ⟨hmem, hmove⟩ := Option.ite_none_right_eq_some.mp hmove
    cases hmove
    have hnext : Named { s with
        tasks := s.tasks.erase ⟨ref, .settled reply⟩ ++ [⟨ref, .replied⟩] } :=
      h.of_held (fun _ => Or.imp_right (Or.imp_right (Or.imp_right fun ⟨_, htask⟩ =>
        mem_of_mem_erase_append htask hmem rfl))) (Nat.le_refl _) fun _ _ => id
    exact hnext.complete ref reply
  | finishes ref =>
    obtain ⟨-, hmove⟩ := Option.ite_none_right_eq_some.mp hmove
    cases hmove
    exact h.of_held (fun _ => Or.imp_right (Or.imp_right (Or.imp_right fun ⟨phase, htask⟩ =>
      ⟨phase, List.mem_of_mem_erase htask⟩))) (Nat.le_refl _) fun _ _ => id
  | beforeSwitch reason =>
    cases hmove
    refine h.of_held (fun _ => id) (Nat.le_refl _) fun token pending hget => ?_
    have hsame : (s.bridge.beforeSwitch reason).1.pending = s.bridge.pending := by
      unfold SessionNewBridge.beforeSwitch
      split_ifs <;> rfl
    rwa [← hsame]
  | clear error =>
    cases hmove
    exact h.clear error

theorem inv_step (state : BridgeRun × List BridgeEvent) (label : BridgeLabel)
    (state' : BridgeRun × List BridgeEvent) (h : state.1.Inv state.2 ∧ state.1.Named)
    (hstep : logged BridgeRun.move state label = some state') :
    state'.1.Inv state'.2 ∧ state'.1.Named := by
  obtain ⟨events, hmove, hlog⟩ := logged_eq_some.mp hstep
  rw [hlog]
  have hnamed := h.2.move h.1 hmove
  exact ⟨h.1.move hmove, hnamed⟩

/-- What holds initially and is kept by every step holds of every run. -/
theorem inv_run {labels : List BridgeLabel} {s : BridgeRun} {log : List BridgeEvent}
    (hrun : Lib.run (logged move) (initial, []) labels = some (s, log)) : s.Inv log ∧ s.Named :=
  @invariant_run _ _ (logged BridgeRun.move) (fun state => state.1.Inv state.2 ∧ state.1.Named)
    inv_step _ _ _ ⟨inv_initial, named_initial⟩ hrun

/-! ### Settled frames -/

theorem Inv.length_repliesTo (h : s.Inv log) {number : ℕ} (hnumber : number < s.received) :
    (repliesTo number log).length = if s.waits number then 0 else 1 := by
  split_ifs with hwaits
  · rw [(h.unanswered number).mpr (Or.inr hwaits)]
    rfl
  · refine Nat.le_antisymm (h.once number) (List.length_pos_iff.mpr fun hnone => ?_)
    rcases (h.unanswered number).mp hnone with hfuture | hwait
    · exact absurd hnumber (Nat.not_lt.mpr hfuture)
    · exact hwaits hwait

/-- A closure leaves the frame that it was made for settled. -/
theorem waits_complete (h : s.Inv log) {ref : PendingRef}
    (hname : ∀ token pending, s.bridge.pending.get? token = some pending →
      pending.number = ref.number → token = ref.token) (reply : ActionReply) :
    (s.complete ref reply).1.waits ref.number = false := by
  rw [← Bool.not_eq_true, waits_iff]
  rintro ⟨token, other, hother, hnumber⟩
  rcases s.complete_cases ref reply with ⟨hnone, hsame⟩ | ⟨pending, hget, -, hanswer⟩
  · rw [hsame] at hother
    cases hname token other hother hnumber
    exact hnone other hother hnumber
  · rw [hanswer] at hother
    dsimp only at hother
    rw [OrderedMap.get?_erase] at hother
    split_ifs at hother with htoken
    exact htoken (h.only _ _ _ _ hother hget)

/-- A bridge that waits holds one entry. -/
theorem Inv.entries_eq (h : s.Inv log) {token : String} {pending : PendingSessionNew}
    (hget : s.bridge.pending.get? token = some pending) :
    s.bridge.pending.entries = [(token, pending)] := by
  have hmem := OrderedMap.mem_entries_iff.mpr hget
  have hall : ∀ entry ∈ s.bridge.pending.entries, entry = (token, pending) := by
    rintro ⟨token', other⟩ hentry
    have hother := OrderedMap.mem_entries_iff.mp hentry
    cases h.only _ _ _ _ hother hget
    cases hother.symm.trans hget
    rfl
  have hreplicate := List.eq_replicate_of_mem hall
  have hle : s.bridge.pending.entries.length ≤ 1 := by
    rw [← List.nodup_replicate, ← hreplicate]
    exact s.bridge.pending.nodup_entries
  rw [Nat.le_antisymm hle (List.length_pos_of_mem hmem)] at hreplicate
  exact hreplicate

/-- No frame waits in a bridge that was cleared. -/
theorem waits_clear (h : s.Inv log) (error : String) (number : ℕ) :
    (s.clear error).1.waits number = false := by
  rw [← Bool.not_eq_true, waits_iff]
  rintro ⟨token, other, hother, -⟩
  cases hentries : s.bridge.pending.entries with
  | nil =>
    rw [BridgeRun.clear, hentries] at hother
    have hmem := OrderedMap.mem_entries_iff.mpr hother
    rw [List.foldl_nil, hentries] at hmem
    cases hmem
  | cons entry entries =>
    have hget : s.bridge.pending.get? entry.1 = some entry.2 := by
      refine OrderedMap.mem_entries_iff.mp ?_
      rw [hentries]
      exact List.mem_cons_self
    rw [BridgeRun.clear, h.entries_eq hget] at hother
    rcases s.complete_cases ⟨entry.1, entry.2.number, entry.2.request⟩ (.error error) with
      ⟨hnone, -⟩ | ⟨pending, -, -, hanswer⟩
    · exact hnone entry.2 hget rfl
    · rw [List.foldl_cons, List.foldl_nil] at hother
      dsimp only at hother
      rw [hanswer] at hother
      dsimp only at hother
      rw [OrderedMap.get?_erase] at hother
      split_ifs at hother with htoken
      exact htoken (h.only _ _ _ _ hother hget)

/-- A step that settles a frame leaves it without a wait. -/
theorem waits_of_settles (h : s.Inv log) (hnamed : s.Named) {label : BridgeLabel}
    {result : BridgeRun × List BridgeEvent} (hmove : s.move label = some result) {number : ℕ}
    (hsettles : label.Settles number) : result.1.waits number = false := by
  cases label with
  | sendThrows ref =>
    obtain ⟨hmem, hmove⟩ := Option.ite_none_right_eq_some.mp hmove
    cases hmove
    cases hsettles
    have hsame : Inv { s with sending := s.sending.erase ref } log := h.of_same rfl rfl rfl rfl
    exact waits_complete hsame (hnamed ref (Or.inr (Or.inl hmem))).2 _
  | dispatchRejects ref =>
    obtain ⟨hmem, hmove⟩ := Option.ite_none_right_eq_some.mp hmove
    cases hmove
    cases hsettles
    have hsame : Inv { s with dispatches := s.dispatches.erase ref } log :=
      h.of_same rfl rfl rfl rfl
    exact waits_complete hsame (hnamed ref (Or.inr (Or.inr (Or.inl hmem)))).2 _
  | timesOut ref =>
    obtain ⟨hmem, hmove⟩ := Option.ite_none_right_eq_some.mp hmove
    cases hmove
    cases hsettles
    have hsame : Inv { s with timers := s.timers.erase ref } log := h.of_same rfl rfl rfl rfl
    exact waits_complete hsame (hnamed ref (Or.inl hmem)).2 _
  | replies ref reply =>
    obtain ⟨hmem, hmove⟩ := Option.ite_none_right_eq_some.mp hmove
    cases hmove
    cases hsettles
    have hnext : Inv { s with
        tasks := s.tasks.erase ⟨ref, .settled reply⟩ ++ [⟨ref, .replied⟩] } log := by
      refine h.advance hmem ?_ ?_
      · intro heq
        cases heq
      · intro heq
        cases heq
    exact waits_complete hnext (hnamed ref (Or.inr (Or.inr (Or.inr ⟨_, hmem⟩)))).2 _
  | clear error =>
    cases hmove
    exact waits_clear h error number
  | dispatch => cases hsettles
  | sendReturns => cases hsettles
  | dispatchResolves => cases hsettles
  | run => cases hsettles
  | newSessionSettles => cases hsettles
  | finishes => cases hsettles
  | beforeSwitch => cases hsettles

theorem received_complete (s : BridgeRun) (ref : PendingRef) (reply : ActionReply) :
    (s.complete ref reply).1.received = s.received := by
  rcases s.complete_cases ref reply with ⟨-, hsame⟩ | ⟨pending, -, -, hanswer⟩
  · rw [hsame]
  · rw [hanswer]

theorem received_clear (s : BridgeRun) (error : String) :
    (s.clear error).1.received = s.received := by
  have hfold : ∀ (entries : List (String × PendingSessionNew)) (t : BridgeRun)
      (events : List BridgeEvent), (entries.foldl (fun (acc : BridgeRun × List BridgeEvent) entry =>
        let (s, events) := acc.1.complete ⟨entry.1, entry.2.number, entry.2.request⟩ (.error error)
        (s, acc.2 ++ events)) (t, events)).1.received = t.received := by
    intro entries
    induction entries with
    | nil => exact fun t events => rfl
    | cons entry entries ih => exact fun t events => (ih _ _).trans (received_complete _ _ _)
  exact hfold _ s []

/-- A step that settles a frame receives none. -/
theorem received_of_settles {label : BridgeLabel} {result : BridgeRun × List BridgeEvent}
    (hmove : s.move label = some result) {number : ℕ} (hsettles : label.Settles number) :
    result.1.received = s.received := by
  cases label with
  | sendThrows ref =>
    obtain ⟨-, hmove⟩ := Option.ite_none_right_eq_some.mp hmove
    rw [← Option.some.inj hmove, received_complete]
  | dispatchRejects ref =>
    obtain ⟨-, hmove⟩ := Option.ite_none_right_eq_some.mp hmove
    rw [← Option.some.inj hmove, received_complete]
  | timesOut ref =>
    obtain ⟨-, hmove⟩ := Option.ite_none_right_eq_some.mp hmove
    rw [← Option.some.inj hmove, received_complete]
  | replies ref reply =>
    obtain ⟨-, hmove⟩ := Option.ite_none_right_eq_some.mp hmove
    rw [← Option.some.inj hmove, received_complete]
  | clear error =>
    rw [← Option.some.inj hmove, received_clear]
  | dispatch => cases hsettles
  | sendReturns => cases hsettles
  | dispatchResolves => cases hsettles
  | run => cases hsettles
  | newSessionSettles => cases hsettles
  | finishes => cases hsettles
  | beforeSwitch => cases hsettles

end BridgeRun

/-- In every run each received frame has exactly one reply, or none while it waits, and it
    has one after any step that settles it. Sessions are started in order: once for a frame,
    before its reply, one after another. -/
theorem replies_once {labels : List BridgeLabel} {s : BridgeRun} {log : List BridgeEvent}
    (hrun : Lib.run (logged BridgeRun.move) (.initial, []) labels = some (s, log)) :
    (∀ number < s.received, (repliesTo number log).length = if s.waits number then 0 else 1) ∧
      (∀ label s' log', logged BridgeRun.move (s, log) label = some (s', log') →
        ∀ number < s.received, label.Settles number → (repliesTo number log').length = 1) ∧
      Throughout StartsInOrder log := by
  obtain ⟨h, hnamed⟩ := BridgeRun.inv_run hrun
  refine ⟨fun number => h.length_repliesTo, fun label s' log' hstep number hnumber hsettles => ?_,
    h.order⟩
  have hlater := (BridgeRun.inv_step _ _ _ ⟨h, hnamed⟩ hstep).1
  obtain ⟨events, hmove, -⟩ := logged_eq_some.mp hstep
  have hwaits := BridgeRun.waits_of_settles h hnamed hmove hsettles
  have hreceived := BridgeRun.received_of_settles hmove hsettles
  rw [hlater.length_repliesTo (hreceived ▸ hnumber), hwaits]
  rfl

/-- A frame whose command runs, and one that arrives meanwhile. -/
def replacedRun : List BridgeLabel :=
  [.dispatch ⟨"owner", "channel", "first"⟩ true "token",
    .run "token" true,
    .dispatch ⟨"owner", "channel", "second"⟩ true "other",
    .newSessionSettles ⟨"token", 0, ⟨"owner", "channel", "first"⟩⟩ .replaced,
    .replies ⟨"token", 0, ⟨"owner", "channel", "first"⟩⟩ .ok,
    .finishes ⟨"token", 0, ⟨"owner", "channel", "first"⟩⟩]

theorem replies_once_replaced : ∃ s log,
    Lib.run (logged BridgeRun.move) (.initial, []) replacedRun = some (s, log) ∧
      repliesTo 0 log = [.ok] ∧ repliesTo 1 log =
        [.error "session replacement is already in progress"] ∧
      Throughout StartsInOrder log :=
  ⟨_, _, rfl, by decide, by decide, (@replies_once replacedRun _ _ rfl).2.2⟩

end RemotePi.Host
