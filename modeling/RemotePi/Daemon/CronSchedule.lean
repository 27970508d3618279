import Mathlib.Order.Bounds.Basic
import RemotePi.Daemon.CronRegistry

/-!
# The frequency limit of the scheduled prompts

Model of `validateSchedule` of `pi-extension/src/daemon/cron_registry.ts` and of the request
`cron_add` of `pi-extension/src/daemon/supervisor.ts` that relies on it.

The schedules are read by `croner`. Of a schedule that it accepts, it knows the run times, a
strictly increasing sequence of instants in milliseconds, and `nextRun` gives the least of them
after an instant.

Results:
* `cronAdd_armed_iff`: a job is stored and armed exactly when its schedule is accepted.
* `nextRun_firstAfter`, `nextRun_following`: the two runs that are looked at.
* `acceptedApart_iff`: when the limit holds for all runs of an accepted schedule.
-/

namespace RemotePi.Daemon

/-! ## Run times -/

/-- The run times of a schedule in their order: `runAt n` is the one with number `n`, when there
    are as many. -/
structure RunTimes where
  runAt : ℕ → Option ℤ
  closed : ∀ n, runAt n = none → runAt (n + 1) = none
  increasing : ∀ n a b, runAt n = some a → runAt (n + 1) = some b → a < b

namespace RunTimes

/-- The run times after an instant. -/
def after (runs : RunTimes) (instant : ℤ) : Set ℤ :=
  {r | instant < r ∧ ∃ n, runs.runAt n = some r}

/-- The run with this number is the first one after the instant. -/
def FirstAfter (runs : RunTimes) (instant : ℤ) (n : ℕ) : Prop :=
  ∃ a, runs.runAt n = some a ∧ instant < a ∧ ∀ m b, m < n → runs.runAt m = some b → b ≤ instant

theorem isSome_of_le (runs : RunTimes) {m n : ℕ} (h : m ≤ n) {b : ℤ} (hb : runs.runAt n = some b) :
    ∃ a, runs.runAt m = some a := by
  induction n generalizing b with
  | zero =>
    rw [Nat.le_zero.mp h]
    exact ⟨b, hb⟩
  | succ n ih =>
    rcases Nat.lt_or_eq_of_le h with hlt | heq
    · cases hn : runs.runAt n with
      | none =>
        rw [runs.closed n hn] at hb
        cases hb
      | some a => exact ih (Nat.lt_succ_iff.mp hlt) hn
    · rw [heq]
      exact ⟨b, hb⟩

theorem lt_of_lt (runs : RunTimes) {m n : ℕ} (h : m < n) {a b : ℤ} (ha : runs.runAt m = some a)
    (hb : runs.runAt n = some b) : a < b := by
  induction n generalizing b with
  | zero => exact absurd h (Nat.not_lt_zero m)
  | succ n ih =>
    obtain ⟨c, hc⟩ := runs.isSome_of_le (Nat.le_succ n) hb
    have hstep : c < b := runs.increasing n c b hc hb
    rcases Nat.lt_or_eq_of_le (Nat.lt_succ_iff.mp h) with hlt | heq
    · exact lt_trans (ih hlt hc) hstep
    · rw [heq, hc] at ha
      cases ha
      exact hstep

theorem le_of_le (runs : RunTimes) {m n : ℕ} (h : m ≤ n) {a b : ℤ} (ha : runs.runAt m = some a)
    (hb : runs.runAt n = some b) : a ≤ b := by
  rcases Nat.lt_or_eq_of_le h with hlt | heq
  · exact le_of_lt (runs.lt_of_lt hlt ha hb)
  · rw [heq, hb] at ha
    cases ha
    exact le_refl a

/-- Where a run follows the instant, there is a first one. -/
theorem exists_firstAfter (runs : RunTimes) {instant a : ℤ} {n : ℕ} (ha : runs.runAt n = some a)
    (hlt : instant < a) : ∃ m ≤ n, runs.FirstAfter instant m := by
  induction n using Nat.strong_induction_on generalizing a with
  | _ n ih =>
    by_cases hearlier : ∃ m b, m < n ∧ runs.runAt m = some b ∧ instant < b
    · obtain ⟨m, b, hm, hb, hlt'⟩ := hearlier
      obtain ⟨k, hk, hfirst⟩ := ih m hm hb hlt'
      exact ⟨k, le_trans hk (le_of_lt hm), hfirst⟩
    · refine ⟨n, le_refl n, a, ha, hlt, ?_⟩
      intro m b hm hb
      by_contra hnot
      exact hearlier ⟨m, b, hm, hb, not_le.mp hnot⟩

theorem FirstAfter.isLeast {runs : RunTimes} {instant a : ℤ} {n : ℕ}
    (h : runs.FirstAfter instant n) (ha : runs.runAt n = some a) :
    IsLeast (runs.after instant) a := by
  obtain ⟨a', ha', hlt, hbefore⟩ := h
  rw [ha] at ha'
  cases ha'
  refine ⟨⟨hlt, n, ha⟩, ?_⟩
  rintro r ⟨hr, m, hm⟩
  rcases Nat.lt_or_ge m n with hmn | hnm
  · exact absurd (hbefore m r hmn hm) (not_le.mpr hr)
  · exact runs.le_of_le hnm ha hm

/-- After a run, the least run time is that of the following one. -/
theorem isLeast_following (runs : RunTimes) {a b : ℤ} {n : ℕ} (ha : runs.runAt n = some a)
    (hb : runs.runAt (n + 1) = some b) : IsLeast (runs.after a) b := by
  refine ⟨⟨runs.increasing n a b ha hb, n + 1, hb⟩, ?_⟩
  rintro r ⟨hr, m, hm⟩
  refine runs.le_of_le ?_ hb hm
  by_contra hle
  exact absurd (runs.le_of_le (by omega) hm ha) (not_le.mpr hr)

end RunTimes

/-- What `croner` makes of a schedule: its run times, and `nextRun` over them. -/
structure Cron where
  runs : RunTimes
  nextRun : ℤ → Option ℤ
  nextRun_eq_some : ∀ instant r, nextRun instant = some r ↔ IsLeast (runs.after instant) r

namespace Cron

theorem nextRun_firstAfter (cron : Cron) {instant a : ℤ} {n : ℕ}
    (h : cron.runs.FirstAfter instant n) (ha : cron.runs.runAt n = some a) :
    cron.nextRun instant = some a :=
  (cron.nextRun_eq_some instant a).mpr (h.isLeast ha)

/-- A run that `nextRun` gives is the first one after the instant. -/
theorem firstAfter_of_nextRun {cron : Cron} {instant a : ℤ} (h : cron.nextRun instant = some a) :
    ∃ n, cron.runs.runAt n = some a ∧ cron.runs.FirstAfter instant n := by
  obtain ⟨⟨hlt, m, hm⟩, hleast⟩ := (cron.nextRun_eq_some instant a).mp h
  refine ⟨m, hm, a, hm, hlt, ?_⟩
  intro k b hk hb
  by_contra hnot
  have hle : a ≤ b := hleast ⟨not_le.mp hnot, k, hb⟩
  exact absurd (cron.runs.lt_of_lt hk hb hm) (not_lt.mpr hle)

theorem nextRun_following (cron : Cron) {a : ℤ} {n : ℕ} (ha : cron.runs.runAt n = some a) :
    cron.nextRun a = cron.runs.runAt (n + 1) := by
  cases hb : cron.runs.runAt (n + 1) with
  | some b => exact (cron.nextRun_eq_some a b).mpr (cron.runs.isLeast_following ha hb)
  | none =>
    cases hnext : cron.nextRun a with
    | none => rfl
    | some r =>
      obtain ⟨⟨hlt, m, hm⟩, -⟩ := (cron.nextRun_eq_some a r).mp hnext
      have hnm : n + 1 ≤ m := by
        by_contra hle
        exact absurd (cron.runs.le_of_le (by omega) hm ha) (not_le.mpr hlt)
      obtain ⟨b, hb'⟩ := cron.runs.isSome_of_le hnm hm
      rw [hb] at hb'
      cases hb'

end Cron

/-! ## The check -/

/-- `MIN_INTERVAL_MS` (line 7). -/
def minIntervalMs : ℤ := 60000

/-- `ScheduleValidation` (lines 110–114). -/
structure ScheduleValidation where
  ok : Bool
  error : Option String
  intervalMs : Option ℤ
deriving DecidableEq, Repr

/-- `Math.round(intervalMs / 1000)`. -/
def roundSeconds (intervalMs : ℤ) : ℤ := (intervalMs + 500) / 1000

/-- The constructor of `croner`, with the text of its exception. An empty time zone is left
    out. -/
abbrev NewCron := String → Option String → Except String Cron

/-- `validateSchedule` (lines 116–132) at the instant `now`. -/
def validateSchedule (newCron : NewCron) (schedule : String) (tz : Option String) (now : ℤ) :
    ScheduleValidation :=
  match newCron schedule (tz.filter fun tz => tz ≠ "") with
  | .error message => ⟨false, some ("invalid cron expression: " ++ message), none⟩
  | .ok cron =>
    match cron.nextRun now with
    | none => ⟨false, some "schedule has no upcoming runs", none⟩
    | some first =>
      match cron.nextRun first with
      | none => ⟨false, some "schedule has no upcoming runs", none⟩
      | some second =>
        let intervalMs := second - first
        if intervalMs < minIntervalMs then
          ⟨false, some ("schedule too frequent: ~" ++ toString (roundSeconds intervalMs) ++
            "s between runs (minimum is 60s)"), some intervalMs⟩
        else ⟨true, none, some intervalMs⟩

/-- What `cron_add` leaves: the jobs that it saves and the job that it arms, when it does. -/
structure CronAdded where
  reply : Except String CronJob
  saved : Option (List CronJob)
  armed : Option (String × Cron)

/-- `cronAdd` (`supervisor.ts`, lines 371–381) with `scheduleCron` (lines 415–423), for a store
    in which an unused id is found. -/
def cronAdd (newCron : NewCron) (file : CronFile) (request : NewJobInput) (id createdAt : String)
    (now : ℤ) : CronAdded :=
  let validation := validateSchedule newCron request.schedule request.tz now
  if !validation.ok then ⟨.error (validation.error.getD "invalid schedule"), none, none⟩
  else
    let job := request.job id createdAt
    let armed := (newCron job.schedule (job.tz.filter fun tz => tz ≠ "")).toOption
    ⟨.ok job, some (loadCronRegistry file ++ [job]), armed.map fun cron => (job.id, cron)⟩

/-- Acceptance: the first run after the instant has a following one, a minute later at least. -/
theorem validateSchedule_ok_iff {newCron : NewCron} {schedule : String} {tz : Option String}
    {now : ℤ} :
    (validateSchedule newCron schedule tz now).ok = true ↔
      ∃ cron, newCron schedule (tz.filter fun tz => tz ≠ "") = .ok cron ∧
        ∃ n a b, cron.runs.FirstAfter now n ∧ cron.runs.runAt n = some a ∧
          cron.runs.runAt (n + 1) = some b ∧ minIntervalMs ≤ b - a := by
  unfold validateSchedule
  cases hcron : newCron schedule (tz.filter fun tz => tz ≠ "") with
  | error message => simp
  | ok cron =>
    dsimp only
    constructor
    · intro hok
      cases hfirst : cron.nextRun now with
      | none => simp [hfirst] at hok
      | some a =>
        obtain ⟨n, ha, hafter⟩ := Cron.firstAfter_of_nextRun hfirst
        simp only [hfirst, cron.nextRun_following ha] at hok
        cases hsecond : cron.runs.runAt (n + 1) with
        | none => simp [hsecond] at hok
        | some b =>
          simp only [hsecond] at hok
          split_ifs at hok with hshort
          exact ⟨cron, rfl, n, a, b, hafter, ha, hsecond, not_lt.mp hshort⟩
    · rintro ⟨cron', heq, n, a, b, hafter, ha, hb, hlong⟩
      cases heq
      have hfirst : cron.nextRun now = some a := cron.nextRun_firstAfter hafter ha
      simp only [hfirst, cron.nextRun_following ha, hb]
      rw [if_neg (not_lt.mpr hlong)]

theorem filter_filter_tz (tz : Option String) :
    (tz.filter fun tz => tz ≠ "").filter (fun tz => tz ≠ "") = tz.filter fun tz => tz ≠ "" := by
  cases tz with
  | none => rfl
  | some s => by_cases h : s = "" <;> simp [h]

/-- A job is stored and armed exactly when its schedule is accepted; nothing is saved
    otherwise. -/
theorem cronAdd_armed_iff (newCron : NewCron) (file : CronFile) (request : NewJobInput)
    (id createdAt : String) (now : ℤ) :
    let added := cronAdd newCron file request id createdAt now
    (added.armed.isSome = true ↔
        (validateSchedule newCron request.schedule request.tz now).ok = true) ∧
      (added.saved.isSome = true ↔ added.armed.isSome = true) ∧
      (∀ cron, added.armed = some (id, cron) →
        newCron request.schedule (request.tz.filter fun tz => tz ≠ "") = .ok cron) := by
  intro added
  have htz : ((request.job id createdAt).tz.filter fun tz => tz ≠ "") =
      request.tz.filter fun tz => tz ≠ "" := filter_filter_tz request.tz
  cases hok : (validateSchedule newCron request.schedule request.tz now).ok with
  | false =>
    have hadded : added.armed = none ∧ added.saved = none := by
      simp only [added, cronAdd, hok]
      exact ⟨rfl, rfl⟩
    rw [hadded.1, hadded.2]
    simp
  | true =>
    obtain ⟨cron, hcron, -⟩ := validateSchedule_ok_iff.mp hok
    have harmed : added.armed = some (id, cron) := by
      simp only [added, cronAdd, hok, htz, Bool.not_true, Bool.false_eq_true, if_false]
      rw [show (request.job id createdAt).schedule = request.schedule from rfl, hcron]
      rfl
    have hsaved : added.saved.isSome = true := by
      simp only [added, cronAdd, hok]
      rfl
    rw [harmed]
    refine ⟨by simp, by simp [hsaved], ?_⟩
    intro cron' heq
    cases heq
    exact hcron

/-! ## The limit -/

/-- Any two consecutive run times after the instant are a minute apart at least. -/
def RunTimes.ApartAfter (runs : RunTimes) (instant : ℤ) : Prop :=
  ∀ n a b, runs.runAt n = some a → runs.runAt (n + 1) = some b → instant < a →
    minIntervalMs ≤ b - a

/-- The limit for a schedule: if it is accepted at the instant, its later runs are apart. -/
def AcceptedApart (newCron : NewCron) (schedule : String) (tz : Option String) (now : ℤ) : Prop :=
  (validateSchedule newCron schedule tz now).ok = true →
    ∀ cron, newCron schedule (tz.filter fun tz => tz ≠ "") = .ok cron → cron.runs.ApartAfter now

/-- The first gap after the instant is shorter than a minute, if there is one. -/
def RunTimes.StartsShort (runs : RunTimes) (instant : ℤ) : Prop :=
  ∀ n a b, runs.FirstAfter instant n → runs.runAt n = some a → runs.runAt (n + 1) = some b →
    b - a < minIntervalMs

/-- No gap that begins with the second run after the instant, or with a later one, is shorter
    than a minute. -/
def RunTimes.ContinuesApart (runs : RunTimes) (instant : ℤ) : Prop :=
  ∀ n m a b, runs.FirstAfter instant n → n < m → runs.runAt m = some a →
    runs.runAt (m + 1) = some b → minIntervalMs ≤ b - a

/-- The limit holds for a schedule and an instant exactly when the schedule starts with a short
    gap there, which is seen, or has no short gap after the one that is looked at. -/
theorem acceptedApart_iff (newCron : NewCron) (schedule : String) (tz : Option String) (now : ℤ) :
    AcceptedApart newCron schedule tz now ↔
      ∀ cron, newCron schedule (tz.filter fun tz => tz ≠ "") = .ok cron →
        cron.runs.StartsShort now ∨ cron.runs.ContinuesApart now := by
  constructor
  · intro h cron hcron
    by_cases hshort : cron.runs.StartsShort now
    · exact Or.inl hshort
    right
    unfold RunTimes.StartsShort at hshort
    push Not at hshort
    obtain ⟨n, a, b, hfirst, ha, hb, hlong⟩ := hshort
    have hok := validateSchedule_ok_iff.mpr ⟨cron, hcron, n, a, b, hfirst, ha, hb, hlong⟩
    intro n' m c d hfirst' hm hc hd
    refine h hok cron hcron m c d hc hd ?_
    obtain ⟨a', ha', hlt, -⟩ := hfirst'
    exact lt_trans hlt (cron.runs.lt_of_lt hm ha' hc)
  · intro h hok cron hcron
    obtain ⟨cron', hcron', n, a, b, hfirst, ha, hb, hlong⟩ := validateSchedule_ok_iff.mp hok
    rw [hcron] at hcron'
    cases hcron'
    intro m c d hc hd hlt
    rcases h cron hcron with hshort | hcontinues
    · exact absurd (hshort n a b hfirst ha hb) (not_lt.mpr hlong)
    -- the run is the first one after the instant, or a later one
    rcases Nat.lt_trichotomy m n with hmn | heq | hnm
    · obtain ⟨-, -, -, hbefore⟩ := hfirst
      exact absurd (hbefore m c hmn hc) (not_le.mpr hlt)
    · subst heq
      rw [ha] at hc
      rw [hb] at hd
      cases hc
      cases hd
      exact hlong
    · exact hcontinues n m c d hfirst hnm hc hd

/-! ## Two runs each morning -/

/-- The runs of `0,30 0 9 * * *`: half a minute apart every day at nine o'clock. -/
def morningRuns : RunTimes where
  runAt n := some (32400000 + 86400000 * (n / 2 : ℕ) + 30000 * (n % 2 : ℕ))
  closed n h := by cases h
  increasing n a b ha hb := by
    cases ha
    cases hb
    omega

/-- The next run of the mornings: the second one of the day, or the first one of the next day. -/
def nextMorningRun (instant : ℤ) : ℤ :=
  let day := (instant - 32400000) / 86400000
  let time := (instant - 32400000) % 86400000
  if instant < 32400000 then 32400000
  else if time < 30000 then 32400000 + 86400000 * day + 30000
  else 32400000 + 86400000 * (day + 1)

theorem isLeast_nextMorningRun (instant : ℤ) :
    IsLeast (morningRuns.after instant) (nextMorningRun instant) := by
  unfold nextMorningRun
  dsimp only
  constructor
  · split_ifs with hbefore hsame
    · exact ⟨hbefore, 0, rfl⟩
    · refine ⟨by omega, 2 * ((instant - 32400000) / 86400000).toNat + 1, ?_⟩
      show some _ = some _
      congr 1
      omega
    · refine ⟨by omega, 2 * ((instant - 32400000) / 86400000 + 1).toNat, ?_⟩
      show some _ = some _
      congr 1
      omega
  · rintro r ⟨hlt, n, hn⟩
    cases hn
    split_ifs <;> omega

def morningCron : Cron where
  runs := morningRuns
  nextRun instant := some (nextMorningRun instant)
  nextRun_eq_some instant r := by
    constructor
    · intro h
      cases h
      exact isLeast_nextMorningRun instant
    · intro h
      rw [h.unique (isLeast_nextMorningRun instant)]

/-- Ten seconds after nine o'clock, the next runs are those at half a minute past nine and at
    nine o'clock of the following day. The schedule is accepted, with runs half a minute apart
    every day after. -/
theorem morningRuns_accepted :
    ¬AcceptedApart (fun _ _ => .ok morningCron) "0,30 0 9 * * *" (some "UTC") 32410000 := by
  intro h
  have hok : (validateSchedule (fun _ _ => .ok morningCron) "0,30 0 9 * * *" (some "UTC")
      32410000).ok = true := by
    decide
  have hgap := h hok morningCron rfl 2 118800000 118830000 rfl rfl (by decide)
  revert hgap
  decide

end RemotePi.Daemon
