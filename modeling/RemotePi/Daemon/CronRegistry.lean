import RemotePi.Lib.Json
import RemotePi.Lib.Keyed

/-!
# The scheduled prompts

Model of `pi-extension/src/daemon/cron_registry.ts`: the jobs in `cron.json`, the lenient
loader and the four mutations, each of which loads the whole file and writes it back.

The file is what the JSON parser gives for it. A write puts the loaded jobs back, built
field by field; a member of a stored job that is no field of `CronJob` is lost then.

Results:
* `coerceJob_of_stores`: the loader reads a well-formed job as it is stored.
* `stores_json`: and it is stored again with the same fields.
* `keepsJobs_iff`: which mutations keep the jobs that they are not about.
-/

namespace RemotePi.Daemon

open RemotePi.Lib

/-! ## Jobs -/

/-- `CronJob` (lines 10–22). -/
structure CronJob where
  id : String
  daemonId : String
  schedule : String
  tz : Option String
  prompt : String
  enabled : Bool
  skipIfBusy : Bool
  catchup : Bool
  createdAt : String
  lastRun : Option String
  lastStatus : Option String
deriving DecidableEq, Repr

/-- The member of an optional field. -/
def optionalMember (key : String) (value : Option String) : List (String × Json) :=
  (value.map fun s => (key, Json.string s)).toList

/-- The value that is written for a job, in the order in which `coerceJob` sets the fields. -/
def CronJob.json (job : CronJob) : Json :=
  .object
    ([("id", .string job.id), ("daemon_id", .string job.daemonId),
      ("schedule", .string job.schedule), ("prompt", .string job.prompt),
      ("enabled", .bool job.enabled), ("skip_if_busy", .bool job.skipIfBusy),
      ("catchup", .bool job.catchup), ("created_at", .string job.createdAt)] ++
      optionalMember "tz" job.tz ++ optionalMember "last_run" job.lastRun ++
      optionalMember "last_status" job.lastStatus)

/-- A member that is a string. -/
def stringMember? (members : List (String × Json)) (key : String) : Option String :=
  match members.lookup key with
  | some (.string s) => some s
  | _ => none

/-- A member that is a Boolean. -/
def boolMember? (members : List (String × Json)) (key : String) : Option Bool :=
  match members.lookup key with
  | some (.bool b) => some b
  | _ => none

/-- `new Date(0).toISOString()`. -/
def epochDate : String := "1970-01-01T00:00:00.000Z"

/-- `coerceJob` (lines 153–173). -/
def coerceJob : Json → Option CronJob
  | .object members =>
    if (members.lookup "wake").isSome then none
    else
      match stringMember? members "id", stringMember? members "daemon_id",
        stringMember? members "schedule", stringMember? members "prompt" with
      | some id, some daemonId, some schedule, some prompt =>
        some
          { id
            daemonId
            schedule
            tz := stringMember? members "tz"
            prompt
            enabled := boolMember? members "enabled" ≠ some false
            skipIfBusy := boolMember? members "skip_if_busy" ≠ some false
            catchup := boolMember? members "catchup" = some true
            createdAt := (stringMember? members "created_at").getD epochDate
            lastRun := stringMember? members "last_run"
            lastStatus := stringMember? members "last_status" }
      | _, _, _, _ => none
  | _ => none

/-- An optional field is absent, or it is a string. -/
def StoresOptional (members : List (String × Json)) (key : String) (value : Option String) :
    Prop :=
  match value with
  | none => members.lookup key = none
  | some s => stringMember? members key = some s

/-- The value is a well-formed job with these fields: an object without the `wake` of the old
    jobs, in which every field has its type. -/
structure Stores (members : List (String × Json)) (job : CronJob) : Prop where
  wake : members.lookup "wake" = none
  id : stringMember? members "id" = some job.id
  daemonId : stringMember? members "daemon_id" = some job.daemonId
  schedule : stringMember? members "schedule" = some job.schedule
  prompt : stringMember? members "prompt" = some job.prompt
  enabled : boolMember? members "enabled" = some job.enabled
  skipIfBusy : boolMember? members "skip_if_busy" = some job.skipIfBusy
  catchup : boolMember? members "catchup" = some job.catchup
  createdAt : stringMember? members "created_at" = some job.createdAt
  tz : StoresOptional members "tz" job.tz
  lastRun : StoresOptional members "last_run" job.lastRun
  lastStatus : StoresOptional members "last_status" job.lastStatus

instance (members : List (String × Json)) (key : String) :
    Decidable (members.lookup key = none) :=
  decidable_of_iff ((members.lookup key).isNone = true) Option.isNone_iff_eq_none

instance (members : List (String × Json)) (key : String) (value : Option String) :
    Decidable (StoresOptional members key value) := by
  unfold StoresOptional
  split <;> infer_instance

instance (members : List (String × Json)) (job : CronJob) : Decidable (Stores members job) :=
  decidable_of_iff
    (members.lookup "wake" = none ∧ stringMember? members "id" = some job.id ∧
      stringMember? members "daemon_id" = some job.daemonId ∧
      stringMember? members "schedule" = some job.schedule ∧
      stringMember? members "prompt" = some job.prompt ∧
      boolMember? members "enabled" = some job.enabled ∧
      boolMember? members "skip_if_busy" = some job.skipIfBusy ∧
      boolMember? members "catchup" = some job.catchup ∧
      stringMember? members "created_at" = some job.createdAt ∧
      StoresOptional members "tz" job.tz ∧ StoresOptional members "last_run" job.lastRun ∧
      StoresOptional members "last_status" job.lastStatus)
    ⟨fun ⟨h1, h2, h3, h4, h5, h6, h7, h8, h9, h10, h11, h12⟩ =>
      ⟨h1, h2, h3, h4, h5, h6, h7, h8, h9, h10, h11, h12⟩,
      fun h => ⟨h.wake, h.id, h.daemonId, h.schedule, h.prompt, h.enabled, h.skipIfBusy, h.catchup,
        h.createdAt, h.tz, h.lastRun, h.lastStatus⟩⟩

theorem stringMember?_of_storesOptional {members : List (String × Json)} {key : String}
    {value : Option String} (h : StoresOptional members key value) :
    stringMember? members key = value := by
  cases value with
  | none =>
    have hnone : members.lookup key = none := h
    rw [stringMember?, hnone]
  | some s => exact h

/-- The loader reads a well-formed job as it is stored. -/
theorem coerceJob_of_stores {members : List (String × Json)} {job : CronJob}
    (h : Stores members job) : coerceJob (.object members) = some job := by
  unfold coerceJob
  dsimp only
  rw [h.wake, h.id, h.daemonId, h.schedule, h.prompt, h.enabled, h.skipIfBusy, h.catchup,
    h.createdAt, stringMember?_of_storesOptional h.tz, stringMember?_of_storesOptional h.lastRun,
    stringMember?_of_storesOptional h.lastStatus]
  obtain ⟨id, daemonId, schedule, tz, prompt, enabled, skipIfBusy, catchup, createdAt, lastRun,
    lastStatus⟩ := job
  cases enabled <;> cases skipIfBusy <;> cases catchup <;> rfl

/-- A job is stored with its fields. -/
theorem stores_json (job : CronJob) : ∃ members, job.json = .object members ∧ Stores members job := by
  refine ⟨_, rfl, ?_⟩
  obtain ⟨id, daemonId, schedule, tz, prompt, enabled, skipIfBusy, catchup, createdAt, lastRun,
    lastStatus⟩ := job
  constructor <;> cases tz <;> cases lastRun <;> cases lastStatus <;> rfl

/-! ## The file -/

/-- What a process finds that reads `cron.json`. -/
inductive CronFile where
  | missing
  | unreadable
  /-- No JSON, or no object with an array of jobs. -/
  | malformed
  | jobs (items : List Json)

/-- `loadCronRegistry` (lines 34–46). -/
def loadCronRegistry : CronFile → List CronJob
  | .jobs items => items.filterMap coerceJob
  | _ => []

/-- What `cron.json` holds. A text that is not a registry, such as a file cut short, still
    shows some of its jobs. -/
inductive CronContent where
  | missing
  | malformed (legible : List Json)
  | jobs (items : List Json)

namespace CronContent

/-- What is found when the read succeeds or fails, as `readable` says. -/
def read (readable : Bool) : CronContent → CronFile
  | missing => .missing
  | malformed _ => if readable then .malformed else .unreadable
  | jobs items => if readable then .jobs items else .unreadable

def items : CronContent → List Json
  | missing => []
  | malformed legible => legible
  | jobs items => items

/-- What the file holds after `saveCronRegistry` (lines 48–51) of these jobs, or without it. The
    write succeeds: one that fails part-way, after the file is truncated, is not modelled. -/
def after (content : CronContent) : Option (List CronJob) → CronContent
  | none => content
  | some saved => .jobs (saved.map CronJob.json)

end CronContent

/-! ## Mutations -/

/-- `NewJobInput` (lines 56–63). -/
structure NewJobInput where
  daemonId : String
  schedule : String
  prompt : String
  tz : Option String
  skipIfBusy : Option Bool
  catchup : Option Bool
deriving DecidableEq, Repr

/-- `freshId` (lines 145–151), with the random ids that it draws; `none` is an exception. -/
def freshId (existing : List CronJob) (random : ℕ → String) : Option String :=
  ((List.range 1000).map random).find? fun id => !existing.any fun job => job.id = id

/-- The job of `addJob` (lines 67–77). -/
def NewJobInput.job (input : NewJobInput) (id createdAt : String) : CronJob where
  id
  daemonId := input.daemonId
  schedule := input.schedule
  tz := input.tz.filter fun tz => tz ≠ ""
  prompt := input.prompt
  enabled := true
  skipIfBusy := input.skipIfBusy.getD true
  catchup := input.catchup.getD false
  createdAt
  lastRun := none
  lastStatus := none

/-- The index of the job that a mutation is about. -/
def jobIndex (jobs : List CronJob) (id : String) : Option ℕ :=
  jobs.findIdx? fun job => decide (job.id = id)

inductive CronMutation where
  | addJob (input : NewJobInput) (random : ℕ → String) (now : String)
  | removeJob (id : String)
  | setJobEnabled (id : String) (enabled : Bool)
  | recordRun (id at_ status : String)

namespace CronMutation

/-- The first job with the id is changed (lines 91–108). -/
def changeJob (jobs : List CronJob) (id : String) (f : CronJob → CronJob) :
    Option (List CronJob) :=
  (jobIndex jobs id).bind fun index => jobs[index]?.map fun job => jobs.set index (f job)

/-- The jobs that a mutation saves; `none` when it throws or finds no job and saves
    nothing (lines 65–108). -/
def saved (file : CronFile) : CronMutation → Option (List CronJob)
  | addJob input random now =>
    let jobs := loadCronRegistry file
    (freshId jobs random).map fun id => jobs ++ [input.job id now]
  | removeJob id =>
    let jobs := loadCronRegistry file
    (jobIndex jobs id).map fun index => jobs.eraseIdx index
  | setJobEnabled id enabled =>
    changeJob (loadCronRegistry file) id fun job => { job with enabled }
  | recordRun id at_ status =>
    changeJob (loadCronRegistry file) id fun job =>
      { job with lastRun := some at_, lastStatus := some status }

/-- The id of the job that a mutation is about; for `addJob` the one that it makes. -/
def target (file : CronFile) : CronMutation → Option String
  | addJob _ random _ => freshId (loadCronRegistry file) random
  | removeJob id | setJobEnabled id _ | recordRun id _ _ => some id

end CronMutation

/-! ## The other jobs -/

/-- The job that a value stores, when it is well-formed. -/
def storedJob? : Json → Option CronJob
  | .object members =>
    (coerceJob (.object members)).filter fun job => decide (Stores members job)
  | _ => none

theorem storedJob?_eq_some {value : Json} {job : CronJob} :
    storedJob? value = some job ↔ ∃ members, value = .object members ∧ Stores members job := by
  cases value with
  | object members =>
    rw [storedJob?, Option.filter_eq_some_iff]
    constructor
    · rintro ⟨-, hstores⟩
      exact ⟨members, rfl, of_decide_eq_true hstores⟩
    · rintro ⟨members', heq, hstores⟩
      cases heq
      exact ⟨coerceJob_of_stores hstores, decide_eq_true hstores⟩
  | null | bool | number | string | array =>
    refine iff_of_false (fun h => by cases h) ?_
    rintro ⟨members, heq, -⟩
    cases heq

theorem storedJob?_json (job : CronJob) : storedJob? job.json = some job :=
  storedJob?_eq_some.mpr (stores_json job)

theorem coerceJob_of_storedJob? {value : Json} {job : CronJob} (h : storedJob? value = some job) :
    coerceJob value = some job := by
  obtain ⟨members, rfl, hstores⟩ := storedJob?_eq_some.mp h
  exact coerceJob_of_stores hstores

/-- The well-formed jobs of a file. -/
def CronContent.storedJobs (content : CronContent) : List CronJob :=
  content.items.filterMap storedJob?

/-- The job is not the target. -/
def isOtherJob (target : Option String) (job : CronJob) : Bool := some job.id ≠ target

/-- Every well-formed job other than the target is stored as before, as it is when the file is
    left. -/
def KeepsJobs (content : CronContent) (target : Option String) (content' : CronContent) : Prop :=
  (content.storedJobs.filter (isOtherJob target)).Sublist content'.storedJobs

instance (content : CronContent) (target : Option String) (content' : CronContent) :
    Decidable (KeepsJobs content target content') :=
  inferInstanceAs (Decidable (List.Sublist _ _))

theorem storedJobs_after (content : CronContent) (saved : List CronJob) :
    (content.after (some saved)).storedJobs = saved := by
  show (saved.map CronJob.json).filterMap storedJob? = saved
  have hsome : storedJob? ∘ CronJob.json = some := funext storedJob?_json
  rw [List.filterMap_map, hsome, List.filterMap_some]

theorem filterMap_sublist {items : List Json} :
    (items.filterMap storedJob?).Sublist (items.filterMap coerceJob) := by
  induction items with
  | nil => exact List.Sublist.refl _
  | cons value items ih =>
    cases hstored : storedJob? value with
    | none =>
      rw [List.filterMap_cons_none hstored]
      cases hcoerced : coerceJob value with
      | none => rwa [List.filterMap_cons_none hcoerced]
      | some job =>
        rw [List.filterMap_cons_some hcoerced]
        exact ih.cons job
    | some job =>
      rw [List.filterMap_cons_some hstored,
        List.filterMap_cons_some (coerceJob_of_storedJob? hstored)]
      exact ih.cons_cons job

/-- The file is missing, or it reads as a registry. -/
def CronFile.isRegistry : CronFile → Bool
  | .missing | .jobs _ => true
  | .unreadable | .malformed => false

theorem storedJobs_sublist {content : CronContent} {readable : Bool}
    (h : (content.read readable).isRegistry = true) :
    content.storedJobs.Sublist (loadCronRegistry (content.read readable)) := by
  cases content with
  | missing => exact List.Sublist.refl _
  | malformed legible => cases readable <;> cases h
  | jobs items =>
    cases readable with
    | false => cases h
    | true => exact filterMap_sublist

theorem loadCronRegistry_of_not_registry {file : CronFile} (h : file.isRegistry = false) :
    loadCronRegistry file = [] := by
  cases file <;> first | rfl | cases h

/-- Saving what keeps the other jobs of those that are loaded. -/
theorem keepsJobs_of_sublist {content : CronContent} {readable : Bool} {target : Option String}
    (h : (content.read readable).isRegistry = true) {saved : List CronJob}
    (hsaved : ((loadCronRegistry (content.read readable)).filter (isOtherJob target)).Sublist
      saved) : KeepsJobs content target (content.after (some saved)) := by
  rw [KeepsJobs, storedJobs_after]
  exact ((storedJobs_sublist h).filter _).trans hsaved

theorem not_isOtherJob_of_jobIndex {jobs : List CronJob} {id : String} {index : ℕ}
    (h : jobIndex jobs id = some index) (job : CronJob) (hjob : jobs[index]? = some job) :
    isOtherJob (some id) job = false := by
  have hid : job.id = id := of_decide_eq_true (getElem?_of_findIdx? h hjob)
  simp [isOtherJob, hid]

theorem keepsJobs_removeJob (content : CronContent) (readable : Bool) (id : String) :
    KeepsJobs content (some id)
      (content.after ((CronMutation.removeJob id).saved (content.read readable))) := by
  unfold CronMutation.saved
  dsimp only
  cases hindex : jobIndex (loadCronRegistry (content.read readable)) id with
  | none => exact List.filter_sublist
  | some index =>
    cases hread : (content.read readable).isRegistry with
    | false =>
      rw [loadCronRegistry_of_not_registry hread] at hindex
      cases hindex
    | true =>
      refine keepsJobs_of_sublist hread ?_
      exact filter_sublist_eraseIdx (not_isOtherJob_of_jobIndex hindex)

theorem keepsJobs_changeJob (content : CronContent) (readable : Bool) (id : String)
    (f : CronJob → CronJob) :
    KeepsJobs content (some id) (content.after
      (CronMutation.changeJob (loadCronRegistry (content.read readable)) id f)) := by
  unfold CronMutation.changeJob
  cases hindex : jobIndex (loadCronRegistry (content.read readable)) id with
  | none => exact List.filter_sublist
  | some index =>
    cases hread : (content.read readable).isRegistry with
    | false =>
      rw [loadCronRegistry_of_not_registry hread] at hindex
      cases hindex
    | true =>
      rw [Option.bind_some]
      cases hjob : (loadCronRegistry (content.read readable))[index]? with
      | none => exact List.filter_sublist
      | some job =>
        refine keepsJobs_of_sublist hread ?_
        exact filter_sublist_set (not_isOtherJob_of_jobIndex hindex) _

/-- `addJob` keeps the stored jobs when the file is missing or reads as a registry, or when it
    holds no job but one with the very id that the new job gets. Every other mutation keeps
    them always. -/
theorem keepsJobs_iff (content : CronContent) (readable : Bool) (m : CronMutation) :
    KeepsJobs content (m.target (content.read readable))
        (content.after (m.saved (content.read readable))) ↔
      ∀ input random now, m = .addJob input random now →
        (content.read readable).isRegistry = true ∨
          ∀ job ∈ content.storedJobs, job.id = random 0 := by
  cases m with
  | addJob input random now =>
    have hforall : (∀ input' random' now',
        CronMutation.addJob input random now = .addJob input' random' now' →
          (content.read readable).isRegistry = true ∨
            ∀ job ∈ content.storedJobs, job.id = random' 0) ↔
        ((content.read readable).isRegistry = true ∨
          ∀ job ∈ content.storedJobs, job.id = random 0) := by
      constructor
      · intro h
        exact h input random now rfl
      · rintro h _ _ _ heq
        cases heq
        exact h
    rw [hforall]
    unfold CronMutation.saved CronMutation.target
    dsimp only
    cases hread : (content.read readable).isRegistry with
    | true =>
      refine iff_of_true ?_ (Or.inl rfl)
      cases hfresh : freshId (loadCronRegistry (content.read readable)) random with
      | none => exact List.filter_sublist
      | some id =>
        refine keepsJobs_of_sublist hread ?_
        exact List.filter_sublist.trans (List.sublist_append_left _ _)
    | false =>
      rw [loadCronRegistry_of_not_registry hread]
      have hfresh : freshId [] random = some (random 0) := by
        rw [freshId, List.range_succ_eq_map]
        rfl
      rw [hfresh, Option.map_some, KeepsJobs, storedJobs_after]
      simp only [List.nil_append, Bool.false_eq_true, false_or]
      constructor
      · intro hsub job hjob
        by_contra hid
        have hother : isOtherJob (some (random 0)) job = true := by simp [isOtherJob, hid]
        have hmem := hsub.subset (List.mem_filter.mpr ⟨hjob, hother⟩)
        rw [List.mem_singleton.mp hmem] at hid
        exact hid rfl
      · intro hid
        have hnil : content.storedJobs.filter (isOtherJob (some (random 0))) = [] :=
          List.filter_eq_nil_iff.mpr fun job hjob => by simp [isOtherJob, hid job hjob]
        rw [hnil]
        exact List.nil_sublist _
  | removeJob id => exact iff_of_true (keepsJobs_removeJob ..) fun _ _ _ h => by cases h
  | setJobEnabled id enabled =>
    exact iff_of_true (keepsJobs_changeJob ..) fun _ _ _ h => by cases h
  | recordRun id at_ status =>
    exact iff_of_true (keepsJobs_changeJob ..) fun _ _ _ h => by cases h

/-- A job that runs every night. -/
def nightlyJob : CronJob :=
  ⟨"j_00000000", "daemon", "0 3 * * *", none, "Tidy up", true, true, false, epochDate, none, none⟩

/-- The file after another job is added to one that holds the nightly job. -/
def noonJobAdded (content : CronContent) (readable : Bool) : CronContent :=
  content.after ((CronMutation.addJob ⟨"daemon", "0 12 * * *", "Lunch", none, none, none⟩
    (fun _ => "j_00000001") epochDate).saved (content.read readable))

/-- The nightly job is lost when the file cannot be read, and when its text is cut short. -/
theorem nightlyJob_lost :
    ¬KeepsJobs (.jobs [nightlyJob.json]) (some "j_00000001")
        (noonJobAdded (.jobs [nightlyJob.json]) false) ∧
      ¬KeepsJobs (.malformed [nightlyJob.json]) (some "j_00000001")
        (noonJobAdded (.malformed [nightlyJob.json]) true) := by
  decide +kernel

end RemotePi.Daemon
