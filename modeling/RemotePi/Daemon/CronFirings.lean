import RemotePi.Daemon.CronRegistry
import RemotePi.Daemon.Supervisor

/-!
# Scheduled prompts that fire

Model of `fireJob`, `runCatchup` and `start` of the supervisor
(`pi-extension/src/daemon/supervisor.ts`, lines 69–79, 430–487) over its daemons, with
`healthFor` and `decideFireAction` (`pi-extension/src/daemon/status.ts`).

A firing waits for the daemon to say whether it is busy and for it to answer the prompt; what
comes in between is any steps of the daemons, other firings, and changes of the file of the
jobs. What `croner` gives as the previous run of a schedule, how dates are read and written,
and which timers are armed are left open: a job may fire at any time. A supervisor that ends
leaves its firings where they are.

Results:
* `fireStatus_started`: no daemon is ready when the supervisor has started.
* `firing_courses`: the courses that a firing can take; that of a missed run is a skip.
* `missed_recorded`: what a start of the supervisor writes to the file of the jobs.
-/

namespace RemotePi.Daemon

open RemotePi.Lib

/-! ## The status of a daemon -/

inductive HealthState where
  | stopped
  | starting
  | healthy
  | degraded
  | failed
  | blocked
deriving DecidableEq, Repr

/-- What `healthFor` reads of a `DaemonStatusSnapshot` (lines 22–41). -/
structure DaemonStatusSnapshot where
  desired : DesiredState
  process : ProcessState
  runtime : RuntimeState
  relay : RelayState
  hasPid : Bool
  retrying : Bool
  blocked : Bool
deriving DecidableEq, Repr

/-- `healthFor` (lines 43–49). -/
def healthFor (snapshot : DaemonStatusSnapshot) : HealthState :=
  if snapshot.desired = .stopped && !snapshot.hasPid then .stopped
  else if snapshot.blocked then .blocked
  else if snapshot.process = .absent || snapshot.process = .exited || snapshot.retrying ||
      snapshot.runtime = .failed then .failed
  else if snapshot.runtime ≠ .ready || snapshot.process ≠ .running then .starting
  else if snapshot.relay = .connected then .healthy
  else .degraded

/-- `FireAction` (line 68). -/
inductive FireAction where
  | send
  | skipBusy
  | skipDesiredStopped
  | skipStarting
  | skipRetrying
  | skipFailed
  | skipBlocked
  | skipMissing
deriving DecidableEq, Repr

/-- What `fireJob` knows of the daemon (lines 449–459). -/
structure FireStatus where
  exists_ : Bool
  desired : DesiredState
  runtime : RuntimeState
  health : HealthState
  retrying : Bool
deriving DecidableEq, Repr

/-- `decideFireAction` (lines 70–87). -/
def decideFireAction (status : FireStatus) (busy skipIfBusy : Bool) : FireAction :=
  if !status.exists_ then .skipMissing
  else if status.desired = .stopped then .skipDesiredStopped
  else if status.health = .blocked then .skipBlocked
  else if status.retrying then .skipRetrying
  else if status.runtime = .failed || status.health = .failed then .skipFailed
  else if status.runtime ≠ .ready then .skipStarting
  else if skipIfBusy && busy then .skipBusy
  else .send

/-- `CronResult` (`cron_log.ts`, lines 6–16). -/
inductive CronResult where
  | accepted
  | rejected
  | skippedBusy
  | skippedDisabled
  | skippedMissing
  | skippedDesiredStopped
  | skippedStarting
  | skippedRetrying
  | skippedFailed
  | skippedBlocked
deriving DecidableEq, Repr

def CronResult.text : CronResult → String
  | .accepted => "accepted"
  | .rejected => "rejected"
  | .skippedBusy => "skipped_busy"
  | .skippedDisabled => "skipped_disabled"
  | .skippedMissing => "skipped_missing"
  | .skippedDesiredStopped => "skipped_desired_stopped"
  | .skippedStarting => "skipped_starting"
  | .skippedRetrying => "skipped_retrying"
  | .skippedFailed => "skipped_failed"
  | .skippedBlocked => "skipped_blocked"

/-- `cronResultFor` (lines 477–487); none for `send`. -/
def cronResultFor : FireAction → Option CronResult
  | .send => none
  | .skipBusy => some .skippedBusy
  | .skipDesiredStopped => some .skippedDesiredStopped
  | .skipStarting => some .skippedStarting
  | .skipRetrying => some .skippedRetrying
  | .skipFailed => some .skippedFailed
  | .skipBlocked => some .skippedBlocked
  | .skipMissing => some .skippedMissing

/-- `infoFor` (lines 197–221) of an entry; a handle stands for its pid. -/
def snapshotOf (entry : DaemonEntry) (slot : Option ChildSlot) : DaemonStatusSnapshot where
  desired := entry.desiredState
  process := (slot.map fun slot => slot.child.rpc.process).getD .absent
  runtime := (slot.map fun slot => slot.child.rpc.runtime).getD .pending
  relay := (slot.map fun slot => slot.child.rpc.relay).getD .disconnected
  hasPid := slot.any fun slot => slot.child.rpc.child.isSome
  retrying := slot.any fun slot => slot.restartTimer
  blocked := slot.any fun slot => slot.blocked || slot.child.rpc.state = .blocked

/-- What `fireJob` finds for the daemon of a job (lines 449–459). -/
def fireStatus (s : DaemonLifecycle) (cwdExists : String → Bool) : FireStatus :=
  match s.registered.filter fun entry => cwdExists entry.cwd with
  | none =>
    { exists_ := false
      desired := (s.registered.map DaemonEntry.desiredState).getD .stopped
      runtime := .pending
      health := .failed
      retrying := false }
  | some entry =>
    let snapshot := snapshotOf entry s.slot
    { exists_ := true
      desired := entry.desiredState
      runtime := snapshot.runtime
      health := healthFor snapshot
      retrying := snapshot.retrying }

/-! ## Firings -/

/-- Who lets a job fire: its timer, the command `cron_run`, or the start of the supervisor. -/
inductive FireCause where
  | scheduled
  | manual
  | catchup
deriving DecidableEq, Repr

/-- What `sendPrompt` reads of the child that it is called on (`rpc_child.ts`, line 280). -/
structure PromptTarget where
  hasChild : Bool
  process : ProcessState
  runtime : RuntimeState
deriving DecidableEq, Repr

def RpcChild.promptTarget (rpc : RpcChild) : PromptTarget where
  hasChild := rpc.child.isSome
  process := rpc.process
  runtime := rpc.runtime

/-- The guard of `sendPrompt`. -/
def PromptTarget.takes (target : PromptTarget) : Bool :=
  target.hasChild && target.process = .running && target.runtime = .ready

/-- What happens in a firing. A prompt counts as sent when it is written to the daemon, with what
    the daemon is at this moment, and a firing ends with its record in the registry and in the
    audit. -/
inductive FireEvent where
  | began (job : CronJob) (cause : FireCause) (status : FireStatus)
  | busy (answer : Bool)
  | sent (target : PromptTarget)
  | finished (result : CronResult)
deriving DecidableEq, Repr

/-- What a firing waits for. -/
inductive FireStage where
  | asking
  | prompting (sent : Option PromptTarget)
deriving DecidableEq, Repr

structure Firing where
  number : ℕ
  job : CronJob
  cause : FireCause
  status : FireStatus
  /-- The slot whose child is asked. -/
  slot : Option ℕ
  stage : FireStage
deriving DecidableEq, Repr

/-- The supervisor with its daemons and the file of the jobs, or no supervisor. -/
structure CronWorld where
  now : ℤ
  file : CronFile
  supervisor : Option Supervisor
  firings : List Firing
  nextFiring : ℕ

/-- What is left open: the previous run that a new `Cron` of a schedule gives at a time, none where
    it has none or the schedule is not accepted; the time of a date and the date of a time; and the
    calls on processes. `croner` documents that a `Cron` which has not run yet has no previous run:
    with it `previousRun` is none everywhere. -/
structure CronHost where
  previousRun : String → Option String → ℤ → Option ℤ
  parseDate : String → Option ℤ
  isoDate : ℤ → String
  calls : ProcessCalls

/-- What the file holds after a mutation of the registry. -/
def CronFile.mutate (file : CronFile) (m : CronMutation) : CronFile :=
  match m.saved file with
  | none => file
  | some rewritten => .jobs (rewritten.map CronJob.json)

abbrev FireLog := List (ℕ × FireEvent)

namespace CronWorld

def initial (file : CronFile) : CronWorld where
  now := 0
  file := file
  supervisor := none
  firings := []
  nextFiring := 0

variable (host : CronHost)

/-- The end of `fireJob` (lines 470–473). -/
def finish (w : CronWorld) (number : ℕ) (job : CronJob) (result : CronResult) :
    CronWorld × FireLog :=
  ({ w with
      file := w.file.mutate (.recordRun job.id (host.isoDate w.now) result.text)
      firings := w.firings.filter fun firing => firing.number ≠ number },
    [(number, .finished result)])

/-- `sendPrompt` (`rpc_child.ts`, lines 279–289) on the child of the slot: the child to which the
    prompt is written; none where it refuses or the write throws. -/
def sendPrompt (s : DaemonLifecycle) (slot : Option ℕ) (writes : Bool) : Option PromptTarget :=
  (((s.slot.toList ++ s.removed).find? fun other => some other.number = slot).map fun other =>
    other.child.rpc.promptTarget).filter fun target => target.takes && writes

/-- The decision and what follows it (lines 460–469). -/
def decideFiring (w : CronWorld) (s : DaemonLifecycle) (firing : Firing) (busy writes : Bool) :
    CronWorld × FireLog :=
  match cronResultFor (decideFireAction firing.status busy firing.job.skipIfBusy) with
  | some result => finish host w firing.number firing.job result
  | none =>
    if firing.slot.isNone then finish host w firing.number firing.job .rejected
    else
      let sent := sendPrompt s firing.slot writes
      ({ w with
          firings := (w.firings.filter fun other => other.number ≠ firing.number) ++
            [{ firing with stage := .prompting sent }] },
        sent.toList.map fun target => (firing.number, .sent target))

/-- `fireJob` (lines 443–475) up to its first wait. -/
def fire (w : CronWorld) (supervisor : Supervisor) (jobId : String) (cause : FireCause)
    (cwdExists : String → Bool) (writes : Bool) : CronWorld × FireLog :=
  match (loadCronRegistry w.file).find? fun job => job.id = jobId with
  | none => (w, [])
  | some job =>
    let s := (supervisor job.daemonId).1
    let status := fireStatus s cwdExists
    let firing : Firing :=
      { number := w.nextFiring
        job
        cause
        status
        slot := if status.exists_ then s.slot.map ChildSlot.number else none
        stage := .asking }
    let w := { w with nextFiring := w.nextFiring + 1 }
    let (w, log) :=
      if !job.enabled && cause = .scheduled then finish host w firing.number job .skippedDisabled
      else if firing.slot.isSome && status.runtime = .ready && job.skipIfBusy then
        ({ w with firings := w.firings ++ [firing] }, [])
      else decideFiring host w s firing false writes
    (w, (firing.number, .began job cause status) :: log)

/-- The run of a job is missed (lines 431–437). -/
def missed (w : CronWorld) (job : CronJob) : Bool :=
  job.enabled && job.catchup &&
    (host.previousRun job.schedule job.tz w.now).any fun previous =>
      match job.lastRun.filter fun text => text ≠ "" with
      | none => 0 < previous
      | some text => (host.parseDate text).any fun last => last < previous

/-- `runCatchup` (lines 430–441) over the jobs of its list. -/
def runCatchup (supervisor : Supervisor) (cwdExists : String → Bool) (writes : Bool) :
    CronWorld → List CronJob → CronWorld × FireLog
  | w, [] => (w, [])
  | w, job :: jobs =>
    if missed host w job then
      let (w, log) := fire host w supervisor job.id .catchup cwdExists writes
      let (w, rest) := runCatchup supervisor cwdExists writes w jobs
      (w, log ++ rest)
    else runCatchup supervisor cwdExists writes w jobs

/-! ## Steps -/

inductive Label where
  | tick (ms : ℕ)
  /-- The supervisor starts. -/
  | start (registry : DaemonRegistry) (cwdExists : String → Bool) (writes : Bool)
  /-- The process of the supervisor ends. -/
  | exit
  | daemon (id : String) (label : DaemonLifecycle.Label)
  /-- The timer of a job, or a command. -/
  | fire (jobId : String) (manual : Bool) (cwdExists : String → Bool) (writes : Bool)
  | answerBusy (number : ℕ) (busy writes : Bool)
  | answerPrompt (number : ℕ) (accepted : Bool)
  /-- Another change of the file. -/
  | edit (file : CronFile)

/-- One step. `none` when it cannot happen. -/
def move (w : CronWorld) : Label → Option (CronWorld × FireLog)
  | .tick ms => some ({ w with now := w.now + ms }, [])
  | .start registry cwdExists writes =>
    match w.supervisor with
    | some _ => none
    | none =>
      let supervisor := Supervisor.start host.calls registry cwdExists
      some (runCatchup host supervisor cwdExists writes { w with supervisor := some supervisor }
        (loadCronRegistry w.file))
  | .exit => some ({ w with supervisor := none, firings := [] }, [])
  | .daemon id label =>
    (w.supervisor.bind fun supervisor => Supervisor.step host.calls supervisor (id, label)).map
      fun supervisor => ({ w with supervisor := some supervisor }, [])
  | .fire jobId manual cwdExists writes =>
    w.supervisor.map fun supervisor =>
      fire host w supervisor jobId (if manual then .manual else .scheduled) cwdExists writes
  | .answerBusy number busy writes =>
    match w.supervisor, w.firings.find? fun firing => firing.number = number with
    | some supervisor, some firing =>
      if firing.stage = .asking then
        let (w, log) := decideFiring host w (supervisor firing.job.daemonId).1 firing busy writes
        some (w, (number, .busy busy) :: log)
      else none
    | _, _ => none
  | .answerPrompt number accepted =>
    match w.firings.find? fun firing => firing.number = number with
    | some firing =>
      match firing.stage with
      | .asking => none
      | .prompting sent =>
        if accepted && sent.isNone then none
        else some (finish host w number firing.job (if accepted then .accepted else .rejected))
    | none => none
  | .edit file => some ({ w with file }, [])

/-- A step and the log of the firings. -/
def step : CronWorld × FireLog → Label → Option (CronWorld × FireLog) := logged (move host)

end CronWorld

/-! ## No daemon is ready at the start -/

namespace DaemonLifecycle

variable {calls : ProcessCalls} {s : DaemonLifecycle} {slot slot' : ChildSlot}

theorem child_scheduleRetry (slot : ChildSlot) : slot.scheduleRetry.child = slot.child := by
  unfold ChildSlot.scheduleRetry
  split_ifs <;> rfl

/-- A handler of the supervisor leaves the child alone. -/
theorem child_receive (s : DaemonLifecycle) (number : ℕ) (event : ChildEvent) :
    (s.receive number event).1.slot.map ChildSlot.child = s.slot.map ChildSlot.child := by
  unfold receive
  cases hslot : s.slot with
  | none => exact congrArg (Option.map ChildSlot.child) hslot
  | some slot =>
    dsimp only
    have hsame : s.slot.map ChildSlot.child = some slot.child := by rw [hslot, Option.map_some]
    split_ifs
    · exact hsame
    · cases event with
      | exit isCrash =>
        dsimp only
        unfold onChildExit
        dsimp only
        split_ifs
        · exact hsame
        · rfl
        · exact congrArg some (child_scheduleRetry _)
      | runtimeReady =>
        dsimp only
        unfold onRuntimeReady
        split_ifs
        · exact hsame
        · rfl
      | runtimeFailed code retryable =>
        dsimp only
        unfold onRuntimeFailed
        split_ifs
        · exact hsame
        · rfl
        · exact congrArg some (child_scheduleRetry _)

theorem child_receiveAll (events : List ChildEvent) (s : DaemonLifecycle) (number : ℕ) :
    (s.receiveAll number events).1.slot.map ChildSlot.child = s.slot.map ChildSlot.child := by
  induction events generalizing s with
  | nil => rfl
  | cons event events ih =>
    rw [receiveAll]
    dsimp only
    rw [ih, child_receive]

/-- A child that has just been spawned is not ready. -/
theorem runtime_started (calls : ProcessCalls) (entry : Option DaemonEntry) (cwdExists : Bool)
    (hslot : (started calls entry cwdExists).1.slot = some slot) :
    slot.child.rpc.runtime ≠ .ready := by
  have hspawned : ∀ writes : Bool, (RpcChild.new.spawn 0 writes).1.runtime ≠ .ready := by decide
  unfold started at hslot
  dsimp only at hslot
  split at hslot
  · cases hslot
  · split_ifs at hslot
    · unfold createSlot spawnChild at hslot
      dsimp only at hslot
      have hchild := congrArg (Option.map ChildSlot.child) hslot
      rw [child_receiveAll, Option.map_some, Option.map_some, Option.some.injEq] at hchild
      rw [← hchild]
      exact hspawned _

theorem fireStatus_started (calls : ProcessCalls) (entry : Option DaemonEntry) (exists_ : Bool)
    (cwdExists : String → Bool) :
    (fireStatus (started calls entry exists_).1 cwdExists).runtime ≠ .ready := by
  unfold fireStatus
  split
  · exact nofun
  · unfold snapshotOf
    dsimp only
    cases hslot : (started calls entry exists_).1.slot with
    | none => exact nofun
    | some slot => exact runtime_started calls entry exists_ hslot

/-- A daemon that is ready has a slot. -/
theorem slot_of_ready {s : DaemonLifecycle} {cwdExists : String → Bool}
    (h : (fireStatus s cwdExists).runtime = .ready) :
    (if (fireStatus s cwdExists).exists_ = true then s.slot.map ChildSlot.number
      else none).isSome = true := by
  unfold fireStatus at h ⊢
  split at h
  · cases h
  · rw [if_pos rfl]
    unfold snapshotOf at h
    dsimp only at h
    cases hslot : s.slot with
    | none =>
      rw [hslot] at h
      cases h
    | some slot => rfl

end DaemonLifecycle

/-! ## The courses of a firing -/

/-- The daemon that a prompt is written to is there, runs and is ready. -/
structure PromptTarget.Ready (target : PromptTarget) : Prop where
  hasChild : target.hasChild = true
  process : target.process = .running
  runtime : target.runtime = .ready

theorem CronWorld.ready_of_sendPrompt {s : DaemonLifecycle} {slot : Option ℕ} {writes : Bool} :
    ∀ target ∈ CronWorld.sendPrompt s slot writes, target.Ready := by
  intro target hsent
  have htakes := (Option.filter_eq_some_iff.mp hsent).2
  simp only [PromptTarget.takes, Bool.and_eq_true, decide_eq_true_eq] at htakes
  exact ⟨htakes.1.1.1, htakes.1.1.2, htakes.1.2⟩

/-- The daemon takes a prompt, unless it is busy. -/
structure FireStatus.Ready (status : FireStatus) : Prop where
  exists_ : status.exists_ = true
  desired : status.desired = .running
  runtime : status.runtime = .ready
  notBlocked : status.health ≠ .blocked
  notFailed : status.health ≠ .failed
  notRetrying : status.retrying = false

theorem ready_of_send {status : FireStatus} {busy skipIfBusy : Bool}
    (h : cronResultFor (decideFireAction status busy skipIfBusy) = none) :
    status.Ready ∧ (skipIfBusy && busy) = false := by
  unfold decideFireAction at h
  split_ifs at h with hexists hdesired hblocked hretrying hfailed hready hbusy
  all_goals cases h
  rw [Bool.or_eq_true, decide_eq_true_eq, decide_eq_true_eq, not_or] at hfailed
  refine ⟨⟨by simpa using hexists, ?_, by simpa using hready, hblocked, hfailed.2,
    by simpa using hretrying⟩, by simpa using hbusy⟩
  cases hcase : status.desired with
  | running => rfl
  | stopped => exact absurd hcase hdesired

/-- The job of a firing may be sent: a command asks for it, or its timer while it is enabled. -/
def Fires (job : CronJob) (cause : FireCause) : Prop :=
  cause = .manual ∨ cause = .scheduled ∧ job.enabled = true

/-- The result with which a firing skips its prompt at once. -/
def Skips (job : CronJob) (cause : FireCause) (status : FireStatus) (result : CronResult) : Prop :=
  if job.enabled = false ∧ cause = .scheduled then result = .skippedDisabled
  else cronResultFor (decideFireAction status false job.skipIfBusy) = some result

/-- What a daemon has said before it gets a prompt. -/
def asked (job : CronJob) : List FireEvent := if job.skipIfBusy then [.busy false] else []

/-- What can follow the begin of a firing, up to where it has come. -/
inductive Course (job : CronJob) (cause : FireCause) (status : FireStatus) :
    List FireEvent → Prop where
  | skips {result : CronResult} (hskips : Skips job cause status result) :
      Course job cause status [.finished result]
  | asking (hruntime : status.runtime = .ready) (hfires : Fires job cause)
      (hskip : job.skipIfBusy = true) : Course job cause status []
  | refused (hruntime : status.runtime = .ready) (hfires : Fires job cause)
      (hskip : job.skipIfBusy = true) (busy : Bool) {result : CronResult}
      (hrefused : cronResultFor (decideFireAction status busy true) = some result) :
      Course job cause status [.busy busy, .finished result]
  | prompting (hready : status.Ready) (hfires : Fires job cause) (sent : Option PromptTarget)
      (htarget : ∀ target ∈ sent, target.Ready) :
      Course job cause status (asked job ++ sent.toList.map .sent)
  | answered (hready : status.Ready) (hfires : Fires job cause) (sent : Option PromptTarget)
      (htarget : ∀ target ∈ sent, target.Ready) (accepted : Bool)
      (haccepted : accepted = true → sent.isSome = true) :
      Course job cause status (asked job ++ sent.toList.map .sent ++
        [.finished (if accepted then .accepted else .rejected)])

/-- The events of a firing. -/
def stepsOf (number : ℕ) (log : FireLog) : List FireEvent :=
  (log.filter fun entry => entry.1 = number).map Prod.snd

section Steps

variable {number other : ℕ} {log events : FireLog}

theorem stepsOf_append (number : ℕ) (log events : FireLog) :
    stepsOf number (log ++ events) = stepsOf number log ++ stepsOf number events := by
  unfold stepsOf
  rw [List.filter_append, List.map_append]

theorem stepsOf_eq_nil (h : ∀ entry ∈ log, entry.1 ≠ number) : stepsOf number log = [] := by
  unfold stepsOf
  rw [List.filter_eq_nil_iff.mpr fun entry hmem hsame => h entry hmem (of_decide_eq_true hsame)]
  rfl

theorem stepsOf_of_same (h : ∀ entry ∈ log, entry.1 = number) :
    stepsOf number log = log.map Prod.snd := by
  unfold stepsOf
  rw [List.filter_eq_self.mpr fun entry hmem => decide_eq_true (h entry hmem)]

end Steps

/-- What follows the begin of a firing that has not ended. -/
def Firing.soFar (firing : Firing) : List FireEvent :=
  match firing.stage with
  | .asking => []
  | .prompting sent => asked firing.job ++ sent.toList.map .sent

/-- What a firing that has not ended knows of its job and its daemon. -/
structure Firing.Sound (firing : Firing) : Prop where
  fires : Fires firing.job firing.cause
  asking : firing.stage = .asking →
    firing.status.runtime = .ready ∧ firing.job.skipIfBusy = true
  prompting : ∀ sent, firing.stage = .prompting sent →
    firing.status.Ready ∧ ∀ target ∈ sent, target.Ready

theorem Firing.Sound.course {firing : Firing} (h : firing.Sound) :
    Course firing.job firing.cause firing.status firing.soFar := by
  unfold Firing.soFar
  cases hstage : firing.stage with
  | asking => exact .asking (h.asking hstage).1 h.fires (h.asking hstage).2
  | prompting sent =>
    obtain ⟨hready, htarget⟩ := h.prompting sent hstage
    exact .prompting hready h.fires sent htarget

/-- A firing that has not ended, by the log. -/
structure Firing.Open (firing : Firing) (log : FireLog) : Prop extends firing.Sound where
  steps : stepsOf firing.number log =
    .began firing.job firing.cause firing.status :: firing.soFar

/-- The events of this firing, and a course that they take. -/
def Runs (number : ℕ) (log : FireLog) : Prop :=
  ∃ job cause status rest, stepsOf number log = .began job cause status :: rest ∧
    Course job cause status rest

theorem Firing.Open.runs {firing : Firing} {log : FireLog} (h : firing.Open log) :
    Runs firing.number log :=
  ⟨firing.job, firing.cause, firing.status, firing.soFar, h.steps, h.course⟩

namespace CronWorld

/-- The firings and the log. -/
structure Accords (w : CronWorld) (log : FireLog) : Prop where
  courses : ∀ number < w.nextFiring, Runs number log
  fresh : ∀ entry ∈ log, entry.1 < w.nextFiring
  inFlight : ∀ firing ∈ w.firings, firing.number < w.nextFiring ∧ firing.Open log

section Accords

variable {host : CronHost} {w w' : CronWorld} {log events : FireLog} {number : ℕ}

/-- The firing with this number begins or goes on, and the others stay as they are. -/
theorem Accords.extend (h : w.Accords log) (hnumber : number < w'.nextFiring)
    (hnext : ∀ other < w'.nextFiring, other ≠ number → other < w.nextFiring)
    (hle : w.nextFiring ≤ w'.nextFiring) (hevents : ∀ entry ∈ events, entry.1 = number)
    (hruns : Runs number (log ++ events))
    (hfirings : ∀ firing ∈ w'.firings, firing ∈ w.firings ∧ firing.number ≠ number ∨
      firing.number = number ∧ firing.Open (log ++ events)) : w'.Accords (log ++ events) := by
  have hother : ∀ other, other ≠ number → stepsOf other (log ++ events) = stepsOf other log := by
    intro other hne
    rw [stepsOf_append, @stepsOf_eq_nil other events fun entry hmem heq =>
      hne (heq.symm.trans (hevents entry hmem)), List.append_nil]
  refine ⟨fun other hlt => ?_, fun entry hmem => ?_, fun firing hmem => ?_⟩
  · by_cases heq : other = number
    · rw [heq]
      exact hruns
    · obtain ⟨job, cause, status, rest, hsteps, hcourse⟩ := h.courses other (hnext other hlt heq)
      exact ⟨job, cause, status, rest, by rw [hother other heq, hsteps], hcourse⟩
  · rcases List.mem_append.mp hmem with hmem | hmem
    · exact lt_of_lt_of_le (h.fresh entry hmem) hle
    · rw [hevents entry hmem]
      exact hnumber
  · rcases hfirings firing hmem with ⟨hmem, hne⟩ | ⟨heq, hopen⟩
    · obtain ⟨hlt, hopen⟩ := h.inFlight firing hmem
      exact ⟨lt_of_lt_of_le hlt hle, ⟨hopen.toSound, by rw [hother _ hne, hopen.steps]⟩⟩
    · rw [heq]
      exact ⟨hnumber, hopen⟩

theorem Accords.withFile (h : w.Accords log) (file : CronFile) :
    Accords { w with file } log := ⟨h.courses, h.fresh, h.inFlight⟩

/-- A firing in flight ends. -/
theorem Accords.finish (h : w.Accords log) {firing : Firing} (hmem : firing ∈ w.firings)
    {before : List FireEvent} {result : CronResult}
    (hcourse : Course firing.job firing.cause firing.status
      (firing.soFar ++ before ++ [.finished result])) :
    (finish host w firing.number firing.job result).1.Accords
      (log ++ (before.map fun event => (firing.number, event)) ++
        (finish host w firing.number firing.job result).2) := by
  obtain ⟨hlt, hopen⟩ := h.inFlight firing hmem
  rw [List.append_assoc]
  have hsame : ∀ entry ∈ (before.map fun event => (firing.number, event)) ++
      [(firing.number, FireEvent.finished result)], entry.1 = firing.number := by
    intro entry hmem
    rcases List.mem_append.mp hmem with hmem | hmem
    · obtain ⟨event, -, rfl⟩ := List.mem_map.mp hmem
      rfl
    · rw [List.mem_singleton.mp hmem]
  refine h.extend hlt (fun other hother _ => hother) le_rfl hsame ?_ fun other hother => ?_
  · refine ⟨firing.job, firing.cause, firing.status, _, ?_, hcourse⟩
    unfold CronWorld.finish
    rw [stepsOf_append, hopen.steps, stepsOf_of_same hsame]
    simp
  · obtain ⟨hother, hne⟩ := List.mem_filter.mp hother
    exact Or.inl ⟨hother, of_decide_eq_true hne⟩

theorem same_number (number : ℕ) (steps : List FireEvent) :
    ∀ entry ∈ steps.map fun event => (number, event), entry.1 = number := by
  intro entry hmem
  obtain ⟨event, -, rfl⟩ := List.mem_map.mp hmem
  rfl

/-- A firing in flight goes on. -/
theorem Accords.goesOn (h : w.Accords log) {firing : Firing} (hmem : firing ∈ w.firings)
    {stage : FireStage} {before : List FireEvent}
    (hsound : Firing.Sound { firing with stage })
    (hsoFar : Firing.soFar { firing with stage } = firing.soFar ++ before)
    (hnext : w'.nextFiring = w.nextFiring)
    (hfirings : ∀ other ∈ w'.firings, other ∈ w.firings ∧ other.number ≠ firing.number ∨
      other = { firing with stage }) :
    w'.Accords (log ++ before.map fun event => (firing.number, event)) := by
  obtain ⟨hlt, hopen⟩ := h.inFlight firing hmem
  have hgoes : Firing.Open { firing with stage }
      (log ++ before.map fun event => (firing.number, event)) := by
    refine ⟨hsound, ?_⟩
    rw [hsoFar, stepsOf_append, hopen.steps, stepsOf_of_same (same_number _ _), List.map_map]
    simp
  refine h.extend (hnext ▸ hlt) (fun other hother _ => hnext ▸ hother) hnext.ge (same_number _ _)
    hgoes.runs fun other hother => ?_
  rcases hfirings other hother with hother | rfl
  · exact .inl hother
  · exact .inr ⟨rfl, hgoes⟩

/-- A firing begins and skips its prompt. -/
theorem Accords.skips (h : w.Accords log) {job : CronJob} {cause : FireCause} {status : FireStatus}
    {result : CronResult} (hskips : Skips job cause status result)
    (hnext : w'.nextFiring = w.nextFiring + 1) (hfirings : ∀ other ∈ w'.firings, other ∈ w.firings) :
    w'.Accords (log ++ [(w.nextFiring, .began job cause status),
      (w.nextFiring, .finished result)]) := by
  have hnil : stepsOf w.nextFiring log = [] :=
    stepsOf_eq_nil fun entry hmem => Nat.ne_of_lt (h.fresh entry hmem)
  refine @Accords.extend w w' log _ w.nextFiring h (by omega) (fun other hlt hne => by omega)
    (by omega) (by simp) ⟨job, cause, status, [.finished result], ?_, .skips hskips⟩
    fun other hother => ?_
  · rw [stepsOf_append, hnil, stepsOf_of_same (by simp)]
    rfl
  · have hother := hfirings other hother
    exact .inl ⟨hother, Nat.ne_of_lt (h.inFlight other hother).1⟩

/-- A firing begins and stays in flight. -/
theorem Accords.opens (h : w.Accords log) {firing : Firing} (hnumber : firing.number = w.nextFiring)
    (hsound : firing.Sound) (hnext : w'.nextFiring = w.nextFiring + 1)
    (hfirings : ∀ other ∈ w'.firings, other ∈ w.firings ∨ other = firing) :
    w'.Accords (log ++ (FireEvent.began firing.job firing.cause firing.status ::
      firing.soFar).map fun event => (w.nextFiring, event)) := by
  have hnil : stepsOf w.nextFiring log = [] :=
    stepsOf_eq_nil fun entry hmem => Nat.ne_of_lt (h.fresh entry hmem)
  have hopen : firing.Open (log ++ (FireEvent.began firing.job firing.cause firing.status ::
      firing.soFar).map fun event => (w.nextFiring, event)) := by
    refine ⟨hsound, ?_⟩
    rw [hnumber, stepsOf_append, hnil, stepsOf_of_same (same_number _ _), List.map_map,
      List.nil_append]
    simp
  refine h.extend (by omega) (fun other hlt hne => by omega) (by omega) (same_number _ _)
    (hnumber ▸ hopen.runs) fun other hother => ?_
  rcases hfirings other hother with hother | rfl
  · exact .inl ⟨hother, Nat.ne_of_lt (h.inFlight other hother).1⟩
  · exact .inr ⟨hnumber, hopen⟩

/-- A firing that writes its prompt, or is refused it. -/
theorem sound_prompting {firing : Firing} (hready : firing.status.Ready)
    (hfires : Fires firing.job firing.cause) (s : DaemonLifecycle) (writes : Bool) :
    Firing.Sound { firing with stage := .prompting (sendPrompt s firing.slot writes) } where
  fires := hfires
  asking h := by cases h
  prompting sent h := by
    cases h
    exact ⟨hready, ready_of_sendPrompt⟩

/-- The prompt of a firing goes to its daemon, or the firing ends. -/
theorem Accords.decideFiring (h : w.Accords log) {firing : Firing} (hmem : firing ∈ w.firings)
    (hstage : firing.stage = .asking) (s : DaemonLifecycle) (busy writes : Bool) :
    (decideFiring host w s firing busy writes).1.Accords
      (log ++ (firing.number, .busy busy) :: (decideFiring host w s firing busy writes).2) := by
  obtain ⟨hlt, hopen⟩ := h.inFlight firing hmem
  obtain ⟨hruntime, hskip⟩ := hopen.asking hstage
  have hsoFar : firing.soFar = [] := by
    unfold Firing.soFar
    rw [hstage]
  have hasked : asked firing.job = [.busy false] := if_pos hskip
  unfold CronWorld.decideFiring
  cases hresult : cronResultFor
      (decideFireAction firing.status busy firing.job.skipIfBusy) with
  | some result =>
    rw [hskip] at hresult
    have hfinish := @Accords.finish host w log h firing hmem [.busy busy] result (by
      rw [hsoFar]
      exact .refused hruntime hopen.fires hskip busy hresult)
    rw [List.append_assoc] at hfinish
    exact hfinish
  | none =>
    obtain ⟨hready, hbusy⟩ := ready_of_send hresult
    rw [hskip, Bool.true_and] at hbusy
    subst hbusy
    dsimp only
    by_cases hnone : firing.slot.isNone = true
    · rw [if_pos hnone]
      have hfinish := @Accords.finish host w log h firing hmem [.busy false] .rejected (by
        rw [hsoFar]
        have hcourse := @Course.answered firing.job firing.cause firing.status hready
          hopen.fires none nofun false nofun
        rw [hasked] at hcourse
        exact hcourse)
      rw [List.append_assoc] at hfinish
      exact hfinish
    · rw [if_neg hnone]
      have hgoes := @Accords.goesOn w { w with
          firings := (w.firings.filter fun other => other.number ≠ firing.number) ++
            [{ firing with stage := .prompting (sendPrompt s firing.slot writes) }] } log h firing
        hmem (.prompting (sendPrompt s firing.slot writes))
        (.busy false :: (sendPrompt s firing.slot writes).toList.map .sent)
        (sound_prompting hready hopen.fires s writes)
        (by rw [hsoFar]; unfold Firing.soFar; dsimp only; rw [hasked]; rfl) rfl fun other hother => ?_
      · rw [List.map_cons, List.map_map] at hgoes
        exact hgoes
      · rcases List.mem_append.mp hother with hother | hother
        · obtain ⟨hother, hne⟩ := List.mem_filter.mp hother
          exact .inl ⟨hother, of_decide_eq_true hne⟩
        · exact .inr (List.mem_singleton.mp hother)

/-- A job whose daemon is ready is enabled, or fires by hand: the start of the supervisor lets
    it fire while no daemon is ready. -/
theorem fires_of_ready {job : CronJob} {cause : FireCause} {status : FireStatus}
    (hcause : cause = .catchup → status.runtime ≠ .ready) (hruntime : status.runtime = .ready)
    (henabled : ¬ (!job.enabled && decide (cause = .scheduled)) = true) : Fires job cause := by
  cases cause with
  | scheduled => exact Or.inr ⟨rfl, by simpa using henabled⟩
  | manual => exact Or.inl rfl
  | catchup => exact absurd hruntime (hcause rfl)

/-- A job fires. The start of the supervisor lets it fire while its daemon is not ready. -/
theorem Accords.fire (h : w.Accords log) (supervisor : Supervisor) (jobId : String)
    (cause : FireCause) (cwdExists : String → Bool) (writes : Bool)
    (hcause : cause = .catchup →
      ∀ id, (fireStatus (supervisor id).1 cwdExists).runtime ≠ .ready) :
    (fire host w supervisor jobId cause cwdExists writes).1.Accords
      (log ++ (fire host w supervisor jobId cause cwdExists writes).2) := by
  unfold CronWorld.fire
  cases hjob : (loadCronRegistry w.file).find? fun job => job.id = jobId with
  | none =>
    rw [List.append_nil]
    exact h
  | some job =>
    dsimp only
    have hfires := @fires_of_ready job cause _ fun hcatchup => hcause hcatchup job.daemonId
    have hslot := @DaemonLifecycle.slot_of_ready (supervisor job.daemonId).1 cwdExists
    generalize fireStatus (supervisor job.daemonId).1 cwdExists = status at hfires hslot ⊢
    generalize (if status.exists_ = true then
      (supervisor job.daemonId).1.slot.map ChildSlot.number else none) = slot at hslot ⊢
    by_cases hdisabled : (!job.enabled && decide (cause = .scheduled)) = true
    · rw [if_pos hdisabled]
      refine h.skips ?_ rfl fun other hother => (List.mem_filter.mp hother).1
      unfold Skips
      rw [if_pos (by simpa using hdisabled)]
    rw [if_neg hdisabled]
    by_cases hasks : (slot.isSome && decide (status.runtime = .ready) && job.skipIfBusy) = true
    · rw [if_pos hasks]
      simp only [Bool.and_eq_true, decide_eq_true_eq] at hasks
      refine @Accords.opens w _ log h ⟨w.nextFiring, job, cause, status, slot, .asking⟩ rfl
        ⟨hfires hasks.1.2 hdisabled, fun _ => ⟨hasks.1.2, hasks.2⟩, fun _ hstage => by cases hstage⟩
        rfl fun other hother => ?_
      simpa using hother
    rw [if_neg hasks]
    unfold CronWorld.decideFiring
    cases hresult : cronResultFor (decideFireAction status false job.skipIfBusy) with
    | some result =>
      refine h.skips ?_ rfl fun other hother => (List.mem_filter.mp hother).1
      unfold Skips
      rw [if_neg (by simpa using hdisabled)]
      exact hresult
    | none =>
      obtain ⟨hready, -⟩ := ready_of_send hresult
      have hsome := hslot hready.runtime
      have hskip : job.skipIfBusy = false := by
        rw [hsome, decide_eq_true hready.runtime, Bool.true_and, Bool.true_and] at hasks
        exact Bool.eq_false_iff.mpr hasks
      have hnone : ¬ slot.isNone = true := by
        rw [Option.isNone_iff_eq_none]
        rintro rfl
        cases hsome
      dsimp only
      rw [if_neg hnone]
      have hsound := @sound_prompting ⟨w.nextFiring, job, cause, status, slot, .asking⟩ hready
        (hfires hready.runtime hdisabled) (supervisor job.daemonId).1 writes
      have hopens := fun w' => @Accords.opens w w' log h _ rfl hsound
      unfold Firing.soFar asked at hopens
      simp only [hskip, Bool.false_eq_true, if_false, List.nil_append, List.map_cons,
        List.map_map] at hopens
      refine hopens _ rfl fun other hother => ?_
      rcases List.mem_append.mp hother with hother | hother
      · exact .inl (List.mem_filter.mp hother).1
      · exact .inr (List.mem_singleton.mp hother)

theorem Accords.runCatchup (supervisor : Supervisor) (cwdExists : String → Bool) (writes : Bool)
    (hready : ∀ id, (fireStatus (supervisor id).1 cwdExists).runtime ≠ .ready)
    (jobs : List CronJob) (h : w.Accords log) :
    (runCatchup host supervisor cwdExists writes w jobs).1.Accords
      (log ++ (runCatchup host supervisor cwdExists writes w jobs).2) := by
  induction jobs generalizing w log with
  | nil =>
    rw [CronWorld.runCatchup, List.append_nil]
    exact h
  | cons job jobs ih =>
    rw [CronWorld.runCatchup]
    split_ifs
    · have hfire := @Accords.fire host w log h supervisor job.id .catchup cwdExists writes
        fun _ => hready
      have hrest := ih hfire
      rw [List.append_assoc] at hrest
      exact hrest
    · exact ih h

theorem Accords.move {label : Label} (h : w.Accords log)
    (hmove : move host w label = some (w', events)) : w'.Accords (log ++ events) := by
  cases label with
  | tick ms =>
    cases hmove
    rw [List.append_nil]
    exact ⟨h.courses, h.fresh, h.inFlight⟩
  | start registry cwdExists writes =>
    unfold CronWorld.move at hmove
    dsimp only at hmove
    split at hmove
    · cases hmove
    · have hstarts := Option.some.inj hmove
      have hcatchup := @Accords.runCatchup host { w with
          supervisor := some (Supervisor.start host.calls registry cwdExists) } log
        (Supervisor.start host.calls registry cwdExists) cwdExists writes
        (fun id => DaemonLifecycle.fireStatus_started _ _ _ _) (loadCronRegistry w.file)
        ⟨h.courses, h.fresh, h.inFlight⟩
      rw [hstarts] at hcatchup
      exact hcatchup
  | exit =>
    cases hmove
    rw [List.append_nil]
    exact ⟨h.courses, h.fresh, fun firing hmem => by cases hmem⟩
  | daemon id label =>
    obtain ⟨supervisor, -, hworld⟩ := Option.map_eq_some_iff.mp hmove
    cases hworld
    rw [List.append_nil]
    exact ⟨h.courses, h.fresh, h.inFlight⟩
  | fire jobId manual cwdExists writes =>
    obtain ⟨supervisor, -, hfires⟩ := Option.map_eq_some_iff.mp hmove
    have hfire := @Accords.fire host w log h supervisor jobId
      (if manual then .manual else .scheduled) cwdExists writes
      (fun hcause => by cases manual <;> cases hcause)
    rw [hfires] at hfire
    exact hfire
  | answerBusy number busy writes =>
    unfold CronWorld.move at hmove
    dsimp only at hmove
    split at hmove
    · rename_i supervisor firing hsupervisor hfind
      split_ifs at hmove with hstage
      have hmem := List.mem_of_find?_eq_some hfind
      have hfound := List.find?_some hfind
      have hnumber : firing.number = number := of_decide_eq_true hfound
      have hdecide := @Accords.decideFiring host w log h firing hmem hstage
        (supervisor firing.job.daemonId).1 busy writes
      rw [hnumber] at hdecide
      obtain ⟨rfl, rfl⟩ := Prod.mk.inj (Option.some.inj hmove)
      exact hdecide
    · cases hmove
  | answerPrompt number accepted =>
    unfold CronWorld.move at hmove
    dsimp only at hmove
    split at hmove
    · rename_i firing hfind
      have hmem := List.mem_of_find?_eq_some hfind
      have hfound := List.find?_some hfind
      have hnumber : firing.number = number := of_decide_eq_true hfound
      split at hmove
      · cases hmove
      · rename_i sent hstage
        have hsent : ¬ (accepted && sent.isNone) = true := by
          intro hsent
          rw [if_pos hsent] at hmove
          cases hmove
        rw [if_neg hsent] at hmove
        have hopen := (h.inFlight firing hmem).2
        obtain ⟨hready, htarget⟩ := hopen.prompting sent hstage
        have haccepted : accepted = true → sent.isSome = true := by
          rintro rfl
          exact Option.isSome_iff_ne_none.mpr (by simpa using hsent)
        have hcourse := Course.answered hready hopen.fires sent htarget accepted haccepted
        have hfinish := @Accords.finish host w log h firing hmem []
          (if accepted then .accepted else .rejected) (by
            unfold Firing.soFar
            rw [hstage, List.append_nil]
            exact hcourse)
        rw [List.map_nil, List.append_nil, hnumber, Option.some.inj hmove] at hfinish
        exact hfinish
    · cases hmove
  | edit file =>
    cases hmove
    rw [List.append_nil]
    exact h.withFile file

end Accords

end CronWorld

/-- A daemon that is to run, and its job. -/
private def runningEntry : DaemonEntry := ⟨"d", "/project", "project", .running, 0⟩

private def sampleJob : CronJob :=
  ⟨"j", "d", "*/5 * * * *", none, "report", true, true, true, "1970-01-01T00:00:00.000Z", none, none⟩

private def sampleHost : CronHost where
  previousRun _ _ _ := none
  parseDate _ := none
  isoDate time := if time = 0 then "1970-01-01T00:00:00.000Z" else "1970-01-01T00:00:00.005Z"
  calls := ⟨fun _ _ => true, fun _ _ => true⟩

theorem loadCronRegistry_mutate (file : CronFile) (m : CronMutation) :
    loadCronRegistry (file.mutate m) = (m.saved file).getD (loadCronRegistry file) := by
  unfold CronFile.mutate
  cases m.saved file with
  | none => rfl
  | some jobs =>
    show (jobs.map CronJob.json).filterMap coerceJob = jobs
    rw [List.filterMap_map]
    have hread : coerceJob ∘ CronJob.json = some := by
      funext job
      obtain ⟨members, hjson, hstores⟩ := stores_json job
      rw [Function.comp_apply, hjson]
      exact coerceJob_of_stores hstores
    rw [hread, List.filterMap_some]

theorem changeJob_cons_self {job : CronJob} {jobs : List CronJob} {id : String}
    {f : CronJob → CronJob} (hid : job.id = id) :
    CronMutation.changeJob (job :: jobs) id f = some (f job :: jobs) := by
  unfold CronMutation.changeJob jobIndex
  rw [List.findIdx?_cons, if_pos (decide_eq_true hid)]
  rfl

theorem changeJob_cons_of_ne {job : CronJob} {jobs : List CronJob} {id : String}
    {f : CronJob → CronJob} (hid : job.id ≠ id) :
    CronMutation.changeJob (job :: jobs) id f =
      (CronMutation.changeJob jobs id f).map (job :: ·) := by
  unfold CronMutation.changeJob jobIndex
  rw [List.findIdx?_cons, if_neg (by simpa using hid)]
  cases jobs.findIdx? fun job => decide (job.id = id) with
  | none => rfl
  | some index =>
    simp only [Option.map_some, Option.bind_some, List.getElem?_cons_succ, List.set_cons_succ,
      Option.map_map]
    rfl

/-- The first job with an id, when the first job with an id has been changed. -/
theorem find?_changeJob (jobs : List CronJob) (id other : String) {f : CronJob → CronJob}
    (hf : ∀ job, (f job).id = job.id) :
    ((CronMutation.changeJob jobs id f).getD jobs).find? (fun job => job.id = other) =
      (jobs.find? fun job => job.id = other).map fun job => if other = id then f job else job := by
  induction jobs with
  | nil => rfl
  | cons job jobs ih =>
    by_cases hid : job.id = id
    · rw [changeJob_cons_self hid, Option.getD_some, List.find?_cons, List.find?_cons, hf]
      by_cases hother : job.id = other
      · rw [decide_eq_true hother, Option.map_some, if_pos (hother.symm.trans hid)]
      · have hne : other ≠ id := fun heq => hother (hid.trans heq.symm)
        simp only [decide_eq_false hother, if_neg hne, Option.map_id']
    · have hcons : ((CronMutation.changeJob (job :: jobs) id f).getD (job :: jobs)) =
          job :: (CronMutation.changeJob jobs id f).getD jobs := by
        rw [changeJob_cons_of_ne hid]
        cases CronMutation.changeJob jobs id f <;> rfl
      rw [hcons, List.find?_cons, List.find?_cons, ih]
      by_cases hother : job.id = other
      · have hne : other ≠ id := fun heq => hid (hother.trans heq)
        rw [decide_eq_true hother, Option.map_some, if_neg hne]
      · rw [decide_eq_false hother]

/-- The first job with an id after a run is recorded. -/
theorem find?_recordRun (file : CronFile) (id other date status : String) :
    (loadCronRegistry (file.mutate (.recordRun id date status))).find?
        (fun job => job.id = other) =
      ((loadCronRegistry file).find? fun job => job.id = other).map fun job =>
        if other = id then { job with lastRun := some date, lastStatus := some status }
        else job := by
  rw [loadCronRegistry_mutate]
  exact find?_changeJob _ _ _ fun job => rfl

/-- The job with a run recorded. -/
def CronJob.ranAt (job : CronJob) (date : String) (result : CronResult) : CronJob :=
  { job with lastRun := some date, lastStatus := some result.text }

/-- The first job with each id is that of before, with this time as its last run and a skip as its
    result where its run was missed. -/
def RecordedMissed (missed : String → Bool) (date : String) (before after : CronFile) : Prop :=
  ∀ id, ∃ result : CronResult, result ≠ .accepted ∧ result ≠ .rejected ∧
    (loadCronRegistry after).find? (fun job => job.id = id) =
      ((loadCronRegistry before).find? fun job => job.id = id).map fun job =>
        if missed id then job.ranAt date result else job

theorem RecordedMissed.refl (date : String) (file : CronFile) :
    RecordedMissed (fun _ => false) date file file := by
  intro id
  refine ⟨.skippedMissing, nofun, nofun, ?_⟩
  simp

/-- A run is recorded before the others. -/
theorem RecordedMissed.cons {missed : String → Bool} {date id : String} {file after : CronFile}
    {result : CronResult} (hresult : result ≠ .accepted ∧ result ≠ .rejected)
    (h : RecordedMissed missed date (file.mutate (.recordRun id date result.text)) after) :
    RecordedMissed (fun other => decide (other = id) || missed other) date file after := by
  intro other
  obtain ⟨last, haccepted, hrejected, hfind⟩ := h other
  rw [find?_recordRun, Option.map_map] at hfind
  by_cases hmissed : missed other = true
  · -- the last of the records stays
    refine ⟨last, haccepted, hrejected, hfind.trans ?_⟩
    congr 1
    funext job
    simp only [Function.comp_apply, hmissed, Bool.or_true, if_true]
    split_ifs <;> rfl
  · refine ⟨result, hresult.1, hresult.2, hfind.trans ?_⟩
    congr 1
    funext job
    simp only [Function.comp_apply, hmissed, Bool.or_false, decide_eq_true_eq, Bool.false_eq_true,
      if_false]
    rfl

theorem result_of_skip {action : FireAction} {result : CronResult}
    (h : cronResultFor action = some result) : result ≠ .accepted ∧ result ≠ .rejected := by
  cases action <;> cases h <;> exact ⟨nofun, nofun⟩

namespace CronWorld

variable {host : CronHost} {w : CronWorld}

/-- A missed run of a job whose daemon is not ready is recorded at once. -/
theorem file_fire_catchup (supervisor : Supervisor) (cwdExists : String → Bool) (writes : Bool)
    (hready : ∀ id, (fireStatus (supervisor id).1 cwdExists).runtime ≠ .ready) (jobId : String) :
    (fire host w supervisor jobId .catchup cwdExists writes).1.now = w.now ∧
      ∃ result : CronResult, (result ≠ .accepted ∧ result ≠ .rejected) ∧
        (fire host w supervisor jobId .catchup cwdExists writes).1.file =
          w.file.mutate (.recordRun jobId (host.isoDate w.now) result.text) := by
  unfold fire
  cases hjob : (loadCronRegistry w.file).find? fun job => job.id = jobId with
  | none =>
    refine ⟨rfl, .skippedMissing, ⟨nofun, nofun⟩, ?_⟩
    have hsaved : (CronMutation.recordRun jobId (host.isoDate w.now)
        CronResult.skippedMissing.text).saved w.file = none := by
      unfold CronMutation.saved CronMutation.changeJob jobIndex
      dsimp only
      rw [List.findIdx?_eq_none_iff.mpr fun job hmem => by
        simpa using List.find?_eq_none.mp hjob job hmem]
      rfl
    unfold CronFile.mutate
    rw [hsaved]
  | some job =>
    have hfound := List.find?_some hjob
    have hid : job.id = jobId := of_decide_eq_true hfound
    dsimp only
    have hready := hready job.daemonId
    generalize fireStatus (supervisor job.daemonId).1 cwdExists = status at hready ⊢
    have hscheduled : ¬ (!job.enabled && decide (FireCause.catchup = .scheduled)) = true := by
      simp
    have hasks : ¬ ((if status.exists_ = true then
        (supervisor job.daemonId).1.slot.map ChildSlot.number else none).isSome &&
          decide (status.runtime = .ready) && job.skipIfBusy) = true := by
      rw [decide_eq_false hready, Bool.and_false, Bool.false_and]
      exact Bool.false_ne_true
    rw [if_neg hscheduled, if_neg hasks]
    unfold decideFiring
    cases hresult : cronResultFor (decideFireAction status false job.skipIfBusy) with
    | none => exact absurd (ready_of_send hresult).1.runtime hready
    | some result =>
      refine ⟨rfl, result, result_of_skip hresult, ?_⟩
      rw [← hid]
      rfl

/-- Each start of the supervisor records the missed runs with skips, and nothing else. -/
theorem recordedMissed_runCatchup (supervisor : Supervisor) (cwdExists : String → Bool)
    (writes : Bool) (hready : ∀ id, (fireStatus (supervisor id).1 cwdExists).runtime ≠ .ready)
    (jobs : List CronJob) (w : CronWorld) :
    RecordedMissed (fun id => jobs.any fun job => decide (id = job.id) && missed host w job)
      (host.isoDate w.now) w.file
      (runCatchup host supervisor cwdExists writes w jobs).1.file := by
  induction jobs generalizing w with
  | nil => exact .refl _ _
  | cons job jobs ih =>
    rw [runCatchup]
    by_cases hmissed : missed host w job = true
    · rw [if_pos hmissed]
      dsimp only
      obtain ⟨hnow, result, hresult, hfile⟩ :=
        @file_fire_catchup host w supervisor cwdExists writes hready job.id
      have hrest := ih (fire host w supervisor job.id .catchup cwdExists writes).1
      have hsame : ∀ other, missed host (fire host w supervisor job.id .catchup cwdExists
          writes).1 other = missed host w other := by
        intro other
        unfold missed
        rw [hnow]
      simp only [hsame] at hrest
      rw [hnow, hfile] at hrest
      have hcons := hrest.cons hresult
      simp only [List.any_cons, hmissed, Bool.and_true]
      exact hcons
    · rw [if_neg hmissed]
      have hrest := ih w
      simp only [List.any_cons, Bool.eq_false_iff.mpr hmissed, Bool.and_false, Bool.false_or]
      exact hrest

/-- Where no run is missed, nothing fires. -/
theorem runCatchup_of_none (supervisor : Supervisor) (cwdExists : String → Bool) (writes : Bool)
    (w : CronWorld) (hnone : ∀ job, missed host w job = false) (jobs : List CronJob) :
    runCatchup host supervisor cwdExists writes w jobs = (w, []) := by
  induction jobs with
  | nil => rfl
  | cons job jobs ih => rw [runCatchup, if_neg (by rw [hnone]; exact nofun), ih]

end CronWorld

/-- When the supervisor starts, the jobs that are to catch up and have missed a run get this time
    as their last run and a skip as its result, and the others stay as they are. With a library
    that gives a new schedule no previous run, no run counts as missed: nothing fires and no job
    changes. -/
theorem missed_recorded (host : CronHost) (w w' : CronWorld) (log : FireLog)
    (registry : DaemonRegistry) (cwdExists : String → Bool) (writes : Bool)
    (hstart : CronWorld.move host w (.start registry cwdExists writes) = some (w', log)) :
    RecordedMissed (fun id => (loadCronRegistry w.file).any fun job =>
        decide (id = job.id) && CronWorld.missed host w job) (host.isoDate w.now) w.file w'.file ∧
      ((∀ schedule tz now, host.previousRun schedule tz now = none) →
        w'.file = w.file ∧ log = []) := by
  unfold CronWorld.move at hstart
  dsimp only at hstart
  split at hstart
  · cases hstart
  · have hrecorded := @CronWorld.recordedMissed_runCatchup host
      (Supervisor.start host.calls registry cwdExists) cwdExists writes
      (fun id => DaemonLifecycle.fireStatus_started _ _ _ _) (loadCronRegistry w.file)
      { w with supervisor := some (Supervisor.start host.calls registry cwdExists) }
    rw [Option.some.inj hstart] at hrecorded
    refine ⟨hrecorded, fun hfresh => ?_⟩
    have hnone : ∀ job, CronWorld.missed host
        { w with supervisor := some (Supervisor.start host.calls registry cwdExists) } job =
          false := by
      intro job
      rw [CronWorld.missed, hfresh, Option.any_none, Bool.and_false]
    rw [CronWorld.runCatchup_of_none _ _ _ _ hnone] at hstart
    cases hstart
    exact ⟨rfl, rfl⟩

/-- A job that is to catch up: as documented, `croner` gives it no previous run. -/
theorem missed_recorded_fresh : ∃ w log,
    CronWorld.move sampleHost { CronWorld.initial (.jobs [sampleJob.json]) with now := 5 }
        (.start ⟨[runningEntry]⟩ (fun _ => true) true) = some (w, log) ∧
      w.file = .jobs [sampleJob.json] ∧ log = [] := by
  obtain ⟨⟨w, log⟩, hstart⟩ := Option.isSome_iff_exists.mp
    (show (CronWorld.move sampleHost
      { CronWorld.initial (.jobs [sampleJob.json]) with now := 5 }
      (.start ⟨[runningEntry]⟩ (fun _ => true) true)).isSome = true by decide +kernel)
  obtain ⟨hfile, hlog⟩ :=
    (missed_recorded sampleHost _ w log _ _ _ hstart).2 fun _ _ _ => rfl
  exact ⟨w, log, hstart, hfile, hlog⟩

end RemotePi.Daemon
