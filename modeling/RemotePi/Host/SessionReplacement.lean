import RemotePi.Host.System
import RemotePi.Timeline.ServiceRuns

/-!
# A session that is replaced

The handlers of `session_shutdown`, `session_start` and `session_tree` of
`pi-extension/src/index.ts` (lines 515–543), in any order with runs of `SessionNewBridge`,
attachments and frames of owners. Between the shutdown of a session and the completion of its
replacement the bindings of the old session are still active.

Results:
* `Inv.step`: the bindings are those of the current session, or all of the replaced one.
* `replacement_exact`: what holds when nothing is attached in between.
* `attached_in_between`: what happens to an owner that is.
-/

namespace RemotePi.Host

open RemotePi.Lib RemotePi.Pairing RemotePi.Timeline Owners

/-! ## Runs -/

/-- The owners, and from the shutdown of a session until its replacement is complete the
    bindings that it had and what has happened since. -/
structure Replacing where
  owners : Owners
  replaced : Option (List (OwnerId × OwnerBinding) × List HostEvent)

namespace Replacing

def initial (generation : String) : Replacing := ⟨.initial generation, none⟩

/-- The calls that come: every start but the first follows a shutdown, `SessionNewBridge.run`
    runs once at a time, and `randomUUID` names every generation. -/
def enabled (s : Owners) : Call → Bool
  | .attach _ _ => true
  | .attachAndRoute _ _ _ _ => true
  | .route _ _ _ => true
  | .sessionStart _ _ => s.currentSession.isNone
  | .sessionTree _ generation => generation ≠ ""
  | .sessionShutdown => true
  | .sessionNewStart => !s.sessionNewRunning
  | .sessionNewEnd => s.sessionNewRunning
  | _ => false

/-- A replacement is complete when a session starts outside of a run of `SessionNewBridge`, or
    when such a run ends. -/
def completes (s : Owners) : Call → Bool
  | .sessionStart _ _ => !s.sessionNewRunning
  | .sessionNewEnd => true
  | _ => false

/-- What is known of the replacement after a call. -/
def next (s : Replacing) (call : Call) :
    Option (List (OwnerId × OwnerBinding) × List HostEvent) :=
  match call, s.owners.currentSession with
  | .sessionShutdown, some _ =>
    some ((s.replaced.map Prod.fst).getD [] ++ s.owners.activeOwners.entries,
      (s.replaced.map Prod.snd).getD [])
  | call, _ =>
    if completes s.owners call then none
    else s.replaced.map fun (old, log) => (old, log ++ (s.owners.apply call).2)

def step (s : Replacing) (call : Call) : Option Replacing :=
  if enabled s.owners call then some ⟨(s.owners.apply call).1, s.next call⟩ else none

/-- An owner can be attached: no session is being replaced, or there is nothing to attach it to
    and it has no binding that would be lost. -/
def canAttach (s : Owners) (ownerId : OwnerId) : Bool :=
  s.replacedSessionId.isNone ||
    (s.currentSession.isNone && (s.activeOwners.get? ownerId).isNone)

/-- The calls that come as the handlers expect them: no attachment while a session is being
    replaced, and no further shutdown that makes them forget which one. -/
def calm (s : Replacing) : Call → Bool
  | .attach _ ownerId => canAttach s.owners ownerId
  | .attachAndRoute _ ownerId _ _ => canAttach s.owners ownerId
  | .sessionShutdown =>
    s.owners.replacedSessionId.isNone || s.owners.activeOwners.isEmpty ||
      decide (s.owners.currentSession.map Session.sessionId = s.owners.replacedSessionId)
  | _ => true

/-- The service of the binding has the session and the generation that are current. -/
def Fresh (s : Owners) (binding : OwnerBinding) : Prop :=
  s.currentSession = some binding.session ∧ binding.service.generation = s.timelineGeneration

/-- A `bye` to an owner for a session. -/
def isByeFor (ownerId : OwnerId) (sessionId : String) : HostEvent → Bool
  | .bye ownerId' sessionId' _ _ => decide (ownerId' = ownerId) && decide (sessionId' = sessionId)
  | _ => false

def isBye : HostEvent → Bool
  | .bye _ _ _ _ => true
  | _ => false

/-! ## The invariant -/

/-- While a session is being replaced, its bindings are the active ones. -/
structure Bound (s : Owners) (old : List (OwnerId × OwnerBinding)) (sessionId : String) : Prop where
  active : ∀ entry ∈ old, ∃ binding, s.activeOwners.get? entry.1 = some binding ∧
    binding.id = entry.2.id ∧ entry.2.session.sessionId = sessionId
  old : ∀ ownerId binding, s.activeOwners.get? ownerId = some binding →
    binding.session.sessionId = sessionId ∧
      ∃ entry ∈ old, entry.1 = ownerId ∧ entry.2.id = binding.id

/-- The bindings are fresh, or those of the session that is being replaced. -/
structure OwnersOk (s : Owners) (old : Option (List (OwnerId × OwnerBinding))) : Prop where
  fresh : s.replacedSessionId = none → ∀ ownerId binding,
    s.activeOwners.get? ownerId = some binding → Fresh s binding
  named : s.replacedSessionId ≠ some ""
  idle : old = none → s.replacedSessionId = none
  bound : ∀ entries sessionId, old = some entries → s.replacedSessionId = some sessionId →
    Bound s entries sessionId
  nothing : ∀ entries, old = some entries → s.replacedSessionId = none → entries = []

structure Inv (s : Replacing) : Prop where
  owners : OwnersOk s.owners (s.replaced.map Prod.fst)
  quiet : ∀ old log, s.replaced = some (old, log) → ∀ event ∈ log, isBye event = false

theorem generation_refreshGeneration (service : TimelineV2Service) {generation : String}
    (h : generation ≠ "") : (service.refreshGeneration generation).generation = generation := by
  unfold TimelineV2Service.refreshGeneration
  split_ifs with hsame
  · exact (hsame.resolve_left h).symm
  · rfl

section Steps

variable {s : Owners} {old : Option (List (OwnerId × OwnerBinding))} {relay : RelayId}
  {ownerId : OwnerId} {env : ServiceEnv} {frame : ClientFrame}

theorem ownersOk_initial (generation : String) : OwnersOk (.initial generation) none where
  fresh _ ownerId binding h := by cases h
  named := by simp [Owners.initial]
  idle _ := rfl
  bound entries sessionId h := by cases h
  nothing entries h := by cases h

/-- What keeps the bindings, their sessions and their generations keeps the invariant. -/
theorem OwnersOk.of_continues (h : OwnersOk s old) {s' : Owners}
    (hcurrent : s'.currentSession = s.currentSession)
    (hreplaced : s'.replacedSessionId = s.replacedSessionId)
    (hfrom : ∀ ownerId binding', s'.activeOwners.get? ownerId = some binding' →
      ∃ binding, s.activeOwners.get? ownerId = some binding ∧ Continues binding binding' ∧
        (binding.service.generation = s.timelineGeneration →
          binding'.service.generation = s'.timelineGeneration))
    (hto : ∀ ownerId binding, s.activeOwners.get? ownerId = some binding →
      ∃ binding', s'.activeOwners.get? ownerId = some binding' ∧ Continues binding binding') :
    OwnersOk s' old where
  fresh hnone ownerId binding' hget := by
    obtain ⟨binding, hbinding, hcontinues, hgeneration⟩ := hfrom ownerId binding' hget
    obtain ⟨hsession, hold⟩ := h.fresh (hreplaced ▸ hnone) ownerId binding hbinding
    exact ⟨by rw [hcurrent, hsession, hcontinues.session], hgeneration hold⟩
  named := hreplaced ▸ h.named
  idle hnone := hreplaced.trans (h.idle hnone)
  bound entries sessionId hold hsome := by
    have hbound := h.bound entries sessionId hold (hreplaced ▸ hsome)
    constructor
    · intro entry hentry
      obtain ⟨binding, hget, hid, hsession⟩ := hbound.active entry hentry
      obtain ⟨binding', hget', hcontinues⟩ := hto entry.1 binding hget
      exact ⟨binding', hget', hcontinues.id.trans hid, hsession⟩
    · intro ownerId binding' hget'
      obtain ⟨binding, hget, hcontinues, -⟩ := hfrom ownerId binding' hget'
      obtain ⟨hsession, entry, hentry, howner, hid⟩ := hbound.old ownerId binding hget
      exact ⟨by rw [hcontinues.session, hsession],
        entry, hentry, howner, hid.trans hcontinues.id.symm⟩
  nothing entries hold hnone := h.nothing entries hold (hreplaced ▸ hnone)

theorem OwnersOk.route (h : OwnersOk s old) :
    OwnersOk (s.routeClientFrame env ownerId frame).1 old := by
  cases hget : s.activeOwners.get? ownerId with
  | none =>
    rw [routeClientFrame_of_none s ownerId env frame hget]
    exact h
  | some binding =>
    rw [routeClientFrame_of_some s ownerId env frame hget]
    refine h.of_continues rfl rfl ?_ ?_
    · intro other binding' hother
      dsimp only at hother
      rw [OrderedMap.get?_set] at hother
      split_ifs at hother with howner
      · cases hother
        refine ⟨binding, howner ▸ hget, continues_handle binding env frame, fun hgeneration => ?_⟩
        exact (generation_handle binding.service frame).trans hgeneration
      · exact ⟨binding', hother, .refl _, id⟩
    · intro other binding' hother
      dsimp only
      rw [OrderedMap.get?_set]
      split_ifs with howner
      · rw [howner, hget] at hother
        cases hother
        exact ⟨_, rfl, continues_handle binding env frame⟩
      · exact ⟨binding', hother, .refl _⟩

/-- Without a session no binding is active, unless one is being replaced. -/
theorem OwnersOk.no_binding (h : OwnersOk s old) (hreplaced : s.replacedSessionId = none)
    (hcurrent : s.currentSession = none) (ownerId : OwnerId) :
    s.activeOwners.get? ownerId = none := by
  cases hget : s.activeOwners.get? ownerId with
  | none => rfl
  | some binding =>
    have hfresh := (h.fresh hreplaced ownerId binding hget).1
    rw [hcurrent] at hfresh
    cases hfresh

theorem OwnersOk.attach (h : OwnersOk s old) (hcalm : canAttach s ownerId = true) :
    OwnersOk (s.attachOwner relay ownerId).1 old := by
  rw [canAttach, Bool.or_eq_true, Bool.and_eq_true, Option.isNone_iff_eq_none,
    Option.isNone_iff_eq_none, Option.isNone_iff_eq_none] at hcalm
  cases hcurrent : s.currentSession with
  | none =>
    have hget : s.activeOwners.get? ownerId = none := by
      rcases hcalm with hreplaced | ⟨-, hget⟩
      · exact h.no_binding hreplaced hcurrent ownerId
      · exact hget
    rw [attachOwner_of_none s relay ownerId hcurrent, OrderedMap.erase_of_none hget]
    exact h
  | some session =>
    have hreplaced : s.replacedSessionId = none := by
      rcases hcalm with hreplaced | ⟨hnone, -⟩
      · exact hreplaced
      · rw [hcurrent] at hnone
        cases hnone
    rw [attachOwner_of_session s relay ownerId hcurrent]
    refine ⟨fun _ other binding hget => ?_, h.named, h.idle, ?_, h.nothing⟩
    · dsimp only at hget
      rw [OrderedMap.get?_set, OrderedMap.get?_erase] at hget
      split_ifs at hget
      · cases hget
        exact ⟨hcurrent, rfl⟩
      · exact h.fresh hreplaced other binding hget
    · intro entries sessionId _ hsome
      have hsome : s.replacedSessionId = some sessionId := hsome
      rw [hreplaced] at hsome
      cases hsome

/-- Completing the replacement detaches the bindings of the replaced session. -/
theorem OwnersOk.finish (h : OwnersOk s old) : OwnersOk s.finishSessionReplacement.1 none := by
  unfold finishSessionReplacement
  split
  · rename_i hreplaced
    refine ⟨h.fresh, h.named, fun _ => hreplaced, ?_, ?_⟩
    · intro _ _ hold
      cases hold
    · intro _ hold
      cases hold
  · rename_i sessionId hreplaced
    have hne : sessionId ≠ "" := by
      rintro rfl
      exact h.named hreplaced
    rw [if_neg hne]
    refine ⟨?_, Option.some_ne_none _ |>.symm, fun _ => rfl, ?_, ?_⟩
    · intro _ _ _ hget
      cases hget
    · intro _ _ hold
      cases hold
    · intro _ hold
      cases hold

/-- A session starts when the one before was shut down, or is the first. -/
theorem OwnersOk.current (h : OwnersOk s old) (hnone : s.currentSession = none)
    (session : Session) (generation : String) :
    OwnersOk { s with currentSession := some session, timelineGeneration := generation } old where
  fresh hreplaced ownerId binding hget := by
    have hget : s.activeOwners.get? ownerId = some binding := hget
    rw [h.no_binding hreplaced hnone ownerId] at hget
    cases hget
  named := h.named
  idle := h.idle
  bound entries sessionId hold hsome :=
    ⟨(h.bound entries sessionId hold hsome).active, (h.bound entries sessionId hold hsome).old⟩
  nothing := h.nothing

theorem OwnersOk.setRunning (h : OwnersOk s old) (running : Bool) :
    OwnersOk { s with sessionNewRunning := running } old where
  fresh := h.fresh
  named := h.named
  idle := h.idle
  bound entries sessionId hold hsome :=
    ⟨(h.bound entries sessionId hold hsome).active, (h.bound entries sessionId hold hsome).old⟩
  nothing := h.nothing

theorem OwnersOk.tree (h : OwnersOk s old) {generation : String} (hgeneration : generation ≠ "") :
    OwnersOk (s.sessionTree env generation).1 old := by
  refine h.of_continues rfl rfl ?_ ?_
  · intro ownerId binding' hget
    have hget : (s.activeOwners.mapValues fun ownerId binding =>
        (resetBinding env generation .branchChanged ownerId binding).1).get? ownerId =
          some binding' := hget
    rw [OrderedMap.get?_mapValues] at hget
    obtain ⟨binding, hbinding, rfl⟩ := Option.map_eq_some_iff.mp hget
    refine ⟨binding, hbinding, continues_resetBinding env generation _ ownerId binding, fun _ => ?_⟩
    exact generation_refreshGeneration binding.service hgeneration
  · intro ownerId binding hget
    refine ⟨(resetBinding env generation .branchChanged ownerId binding).1, ?_,
      continues_resetBinding env generation _ ownerId binding⟩
    show (s.activeOwners.mapValues fun ownerId binding =>
      (resetBinding env generation .branchChanged ownerId binding).1).get? ownerId = _
    rw [OrderedMap.get?_mapValues, hget]
    rfl

/-- The old bindings when no session is being replaced any more, or none is active. -/
theorem OwnersOk.no_old (h : OwnersOk s old)
    (hcalm : s.replacedSessionId = none ∨ s.activeOwners.isEmpty = true) : old.getD [] = [] := by
  cases hold : old with
  | none => rfl
  | some entries =>
    cases hreplaced : s.replacedSessionId with
    | none => exact h.nothing entries hold hreplaced
    | some sessionId =>
      refine List.eq_nil_iff_forall_not_mem.mpr fun entry hentry => ?_
      obtain ⟨binding, hget, -⟩ := (h.bound entries sessionId hold hreplaced).active entry hentry
      rcases hcalm with hnone | hempty
      · rw [hreplaced] at hnone
        cases hnone
      · rw [OrderedMap.get?_eq_none_of_isEmpty hempty] at hget
        cases hget

/-- A shutdown without a session. -/
theorem OwnersOk.shutdown_none (h : OwnersOk s old) (hcurrent : s.currentSession = none)
    (hcalm : s.replacedSessionId = none ∨ s.activeOwners.isEmpty = true) :
    OwnersOk s.sessionShutdown old := by
  have hreplaced : s.sessionShutdown.replacedSessionId = none := by
    rw [sessionShutdown, hcurrent]
    rfl
  refine ⟨fun _ ownerId binding hget => ?_, ?_, fun _ => hreplaced, ?_, ?_⟩
  · have hget : s.activeOwners.get? ownerId = some binding := hget
    rcases hcalm with hnone | hempty
    · rw [h.no_binding hnone hcurrent ownerId] at hget
      cases hget
    · rw [OrderedMap.get?_eq_none_of_isEmpty hempty] at hget
      cases hget
  · rw [hreplaced]
    exact (Option.some_ne_none _).symm
  · intro entries sessionId _ hsome
    rw [hreplaced] at hsome
    cases hsome
  · intro entries hold _
    have hnil := h.no_old hcalm
    rwa [hold] at hnil

/-- The shutdown of a session, of which the active bindings are. -/
theorem OwnersOk.shutdown_some (h : OwnersOk s old) {session : Session}
    (hcurrent : s.currentSession = some session)
    (hcalm : s.replacedSessionId = none ∨ s.activeOwners.isEmpty = true ∨
      s.replacedSessionId = some session.sessionId) :
    OwnersOk s.sessionShutdown (some (old.getD [] ++ s.activeOwners.entries)) := by
  have hreplaced : s.sessionShutdown.replacedSessionId = some session.sessionId := by
    rw [sessionShutdown, hcurrent]
    rfl
  have hsession : ∀ ownerId binding, s.activeOwners.get? ownerId = some binding →
      binding.session.sessionId = session.sessionId := by
    intro ownerId binding hget
    rcases hcalm with hnone | hempty | hsame
    · have hfresh := (h.fresh hnone ownerId binding hget).1
      rw [hcurrent] at hfresh
      rw [Option.some.inj hfresh]
    · rw [OrderedMap.get?_eq_none_of_isEmpty hempty] at hget
      cases hget
    · cases hold : old with
      | none =>
        rw [h.idle hold] at hsame
        cases hsame
      | some entries => exact ((h.bound entries _ hold hsame).old ownerId binding hget).1
  have hold : ∀ entry ∈ old.getD [], ∃ binding, s.activeOwners.get? entry.1 = some binding ∧
      binding.id = entry.2.id ∧ entry.2.session.sessionId = session.sessionId := by
    intro entry hentry
    rcases hcalm with hnone | hempty | hsame
    · rw [h.no_old (Or.inl hnone)] at hentry
      cases hentry
    · rw [h.no_old (Or.inr hempty)] at hentry
      cases hentry
    · cases hold : old with
      | none =>
        rw [hold] at hentry
        cases hentry
      | some entries =>
        rw [hold] at hentry
        exact (h.bound entries _ hold hsame).active entry hentry
  refine ⟨fun hnone => ?_, ?_, fun hnone => (Option.some_ne_none _ hnone).elim, ?_, ?_⟩
  · rw [hreplaced] at hnone
    cases hnone
  · rw [hreplaced]
    exact fun heq => session.named (Option.some.inj heq)
  · intro entries sessionId hentries hsome
    cases hentries
    rw [hreplaced] at hsome
    cases hsome
    constructor
    · intro entry hentry
      rcases List.mem_append.mp hentry with hentry | hentry
      · exact hold entry hentry
      · have hget := OrderedMap.mem_entries_iff.mp hentry
        exact ⟨entry.2, hget, rfl, hsession entry.1 entry.2 hget⟩
    · intro ownerId binding hget
      exact ⟨hsession ownerId binding hget, (ownerId, binding),
        List.mem_append_right _ (OrderedMap.mem_entries_iff.mpr hget), rfl, rfl⟩
  · intro entries _ hnone
    rw [hreplaced] at hnone
    cases hnone

end Steps

/-! ## What happens -/

section Events

variable {s : Owners} {call : Call} {event : HostEvent}

theorem not_isBye_attachOwner {relay : RelayId} {ownerId : OwnerId}
    (h : event ∈ (s.attachOwner relay ownerId).2.2) : isBye event = false := by
  cases hcurrent : s.currentSession with
  | none =>
    rw [attachOwner_of_none s relay ownerId hcurrent] at h
    obtain ⟨binding, -, rfl⟩ := List.mem_map.mp h
    rfl
  | some session =>
    rw [attachOwner_of_session s relay ownerId hcurrent] at h
    rcases List.mem_append.mp h with h | h
    · obtain ⟨binding, -, rfl⟩ := List.mem_map.mp h
      rfl
    · rw [List.mem_singleton.mp h]
      rfl

theorem not_isBye_routeClientFrame {env : ServiceEnv} {ownerId : OwnerId} {frame : ClientFrame}
    (h : event ∈ (s.routeClientFrame env ownerId frame).2) : isBye event = false := by
  cases hget : s.activeOwners.get? ownerId with
  | none =>
    rw [routeClientFrame_of_none s ownerId env frame hget] at h
    cases h
  | some binding =>
    rw [routeClientFrame_of_some s ownerId env frame hget] at h
    rw [List.mem_singleton.mp h]
    rfl

/-- Nobody is sent a `bye` before the replacement is complete. -/
theorem not_isBye_apply (henabled : enabled s call = true) (hnot : completes s call = false)
    (h : event ∈ (s.apply call).2) : isBye event = false := by
  cases call with
  | nothing => cases h
  | attach relay ownerId => exact not_isBye_attachOwner h
  | attachAndRoute relay ownerId env frame =>
    rcases List.mem_append.mp h with h | h
    · exact not_isBye_attachOwner h
    · exact not_isBye_routeClientFrame h
  | route ownerId env frame => exact not_isBye_routeClientFrame h
  | close ownerId => cases henabled
  | detachAll reason => cases henabled
  | sessionStart session generation =>
    rw [completes, Bool.not_eq_false'] at hnot
    have h : event ∈ (s.sessionStart session generation).2 := h
    unfold sessionStart at h
    dsimp only at h
    rw [if_pos hnot] at h
    cases h
  | sessionTree env generation =>
    obtain ⟨⟨ownerId, binding⟩, -, hmem⟩ := List.mem_flatMap.mp h
    obtain ⟨frame, -, rfl⟩ := List.mem_map.mp hmem
    rfl
  | sessionShutdown => cases h
  | sessionNewStart => cases h
  | sessionNewEnd => cases hnot

/-- The bindings when a replacement is completed. -/
theorem activeOwners_of_completes (h : completes s call = true) :
    ∃ s' : Owners, s'.activeOwners = s.activeOwners ∧
      s'.replacedSessionId = s.replacedSessionId ∧
      (s.apply call).2 = s'.finishSessionReplacement.2 := by
  cases call with
  | sessionStart session generation =>
    rw [completes, Bool.not_eq_true'] at h
    refine ⟨{ s with currentSession := some session, timelineGeneration := generation }, rfl,
      rfl, ?_⟩
    show (s.sessionStart session generation).2 = _
    unfold sessionStart
    dsimp only
    rw [h, if_neg Bool.false_ne_true]
  | sessionNewEnd => exact ⟨{ s with sessionNewRunning := false }, rfl, rfl, rfl⟩
  | _ => cases h

end Events

/-! ## Steps of a run -/

section Runs

variable {s s' : Replacing} {call : Call}

theorem inv_initial (generation : String) : Inv (.initial generation) where
  owners := ownersOk_initial generation
  quiet old log h := by cases h

/-- A call that neither shuts a session down nor completes a replacement. -/
theorem Inv.of_same (h : Inv s) (henabled : enabled s.owners call = true)
    (hcompletes : completes s.owners call = false)
    (hcall : call = .sessionShutdown → s.owners.currentSession = none)
    (howners : OwnersOk (s.owners.apply call).1 (s.replaced.map Prod.fst)) :
    Inv ⟨(s.owners.apply call).1, s.next call⟩ := by
  have hnext : s.next call =
      s.replaced.map fun (old, log) => (old, log ++ (s.owners.apply call).2) := by
    unfold next
    split
    · rename_i hcurrent
      rw [hcall rfl] at hcurrent
      cases hcurrent
    · rw [hcompletes, if_neg Bool.false_ne_true]
  rw [hnext]
  constructor
  · rw [Option.map_map]
    exact howners
  · intro old log heq event hevent
    obtain ⟨⟨old', log'⟩, hreplaced, hpair⟩ := Option.map_eq_some_iff.mp heq
    cases hpair
    rcases List.mem_append.mp hevent with hevent | hevent
    · exact h.quiet _ _ hreplaced event hevent
    · exact not_isBye_apply henabled hcompletes hevent

/-- A call that completes a replacement. -/
theorem Inv.of_completes (hcompletes : completes s.owners call = true)
    (howners : OwnersOk (s.owners.apply call).1 none) :
    Inv ⟨(s.owners.apply call).1, s.next call⟩ := by
  have hnext : s.next call = none := by
    unfold next
    split
    · cases hcompletes
    · rw [hcompletes, if_pos rfl]
  rw [hnext]
  refine ⟨howners, ?_⟩
  intro old log heq
  cases heq

theorem Inv.shutdown (h : Inv s) (hcalm : s.calm .sessionShutdown = true) :
    Inv ⟨s.owners.sessionShutdown, s.next .sessionShutdown⟩ := by
  rw [calm, Bool.or_eq_true, Bool.or_eq_true, Option.isNone_iff_eq_none, decide_eq_true_eq]
    at hcalm
  cases hcurrent : s.owners.currentSession with
  | none =>
    have hcalm : s.owners.replacedSessionId = none ∨ s.owners.activeOwners.isEmpty = true := by
      rcases hcalm with hcalm | hsame
      · exact hcalm
      · rw [hcurrent] at hsame
        exact Or.inl hsame.symm
    exact @Inv.of_same s .sessionShutdown h rfl rfl (fun _ => hcurrent)
      (h.owners.shutdown_none hcurrent hcalm)
  | some session =>
    have hnext : s.next .sessionShutdown =
        some ((s.replaced.map Prod.fst).getD [] ++ s.owners.activeOwners.entries,
          (s.replaced.map Prod.snd).getD []) := by
      unfold next
      rw [hcurrent]
    rw [hnext]
    constructor
    · refine h.owners.shutdown_some hcurrent ?_
      rw [hcurrent, Option.map_some] at hcalm
      rcases hcalm with (hnone | hempty) | hsame
      · exact Or.inl hnone
      · exact Or.inr (Or.inl hempty)
      · exact Or.inr (Or.inr hsame.symm)
    · intro old log heq event hevent
      cases heq
      cases hreplaced : s.replaced with
      | none =>
        rw [hreplaced] at hevent
        cases hevent
      | some replaced =>
        rw [hreplaced] at hevent
        exact h.quiet replaced.1 replaced.2 hreplaced event hevent

/-- The bindings are fresh or those of the session that is being replaced, after every call
    that comes as expected. -/
theorem Inv.step (h : Inv s) (hcalm : s.calm call = true) (hs : s.step call = some s') :
    Inv s' := by
  unfold Replacing.step at hs
  split_ifs at hs with henabled
  cases hs
  cases call with
  | nothing => cases henabled
  | attach relay ownerId => exact h.of_same henabled rfl Call.noConfusion (h.owners.attach hcalm)
  | attachAndRoute relay ownerId env frame =>
    exact h.of_same henabled rfl Call.noConfusion (h.owners.attach hcalm).route
  | route ownerId env frame => exact h.of_same henabled rfl Call.noConfusion h.owners.route
  | close ownerId => cases henabled
  | detachAll reason => cases henabled
  | sessionStart session generation =>
    have hnone : s.owners.currentSession = none := Option.isNone_iff_eq_none.mp henabled
    have hstarted := h.owners.current hnone session generation
    cases hrunning : s.owners.sessionNewRunning with
    | true =>
      refine h.of_same henabled (by rw [completes, hrunning]; rfl) Call.noConfusion ?_
      show OwnersOk (s.owners.sessionStart session generation).1 _
      unfold sessionStart
      dsimp only
      rw [if_pos hrunning]
      exact hstarted
    | false =>
      refine Inv.of_completes (by rw [completes, hrunning]; rfl) ?_
      show OwnersOk (s.owners.sessionStart session generation).1 _
      unfold sessionStart
      dsimp only
      rw [if_neg (by rw [hrunning]; exact Bool.false_ne_true)]
      exact hstarted.finish
  | sessionTree env generation =>
    have hgeneration : generation ≠ "" := of_decide_eq_true henabled
    exact h.of_same henabled rfl Call.noConfusion (h.owners.tree hgeneration)
  | sessionShutdown => exact h.shutdown hcalm
  | sessionNewStart =>
    exact h.of_same henabled rfl Call.noConfusion (h.owners.setRunning true)
  | sessionNewEnd => exact Inv.of_completes rfl (h.owners.setRunning false).finish

/-- The completion of a replacement sends each of the old bindings its `bye`, and detaches no
    other one. -/
theorem Inv.completed (h : Inv s) (hcompletes : completes s.owners call = true)
    {old : List (OwnerId × OwnerBinding)} {log : List HostEvent}
    (hreplaced : s.replaced = some (old, log)) :
    (∀ entry ∈ old, ((log ++ (s.owners.apply call).2).filter
        (isByeFor entry.1 entry.2.session.sessionId)).length = 1) ∧
      ∀ ownerId id cause, .detached ownerId id cause ∈ (s.owners.apply call).2 →
        ∃ entry ∈ old, entry.1 = ownerId ∧ entry.2.id = id := by
  obtain ⟨owners, hactive, hsame, hevents⟩ := activeOwners_of_completes hcompletes
  have hold : s.replaced.map Prod.fst = some old := by rw [hreplaced]; rfl
  rw [hevents]
  cases hid : s.owners.replacedSessionId with
  | none =>
    have hnil := h.owners.nothing old hold hid
    have hnothing : owners.finishSessionReplacement.2 = [] := by
      unfold finishSessionReplacement
      rw [hsame, hid]
    subst hnil
    rw [hnothing]
    exact ⟨fun entry hentry => (List.not_mem_nil hentry).elim,
      fun _ _ _ hmem => (List.not_mem_nil hmem).elim⟩
  | some sessionId =>
    have hbound := h.owners.bound old sessionId hold hid
    have hne : sessionId ≠ "" := by
      rintro rfl
      exact h.owners.named hid
    have hfinish : owners.finishSessionReplacement.2 =
        s.owners.activeOwners.entries.flatMap fun entry =>
          [byeOf sessionId .sessionReplaced entry,
            .detached entry.1 entry.2.id .sessionReplaced] := by
      unfold finishSessionReplacement
      rw [hsame, hid, hactive]
      dsimp only
      rw [if_neg hne]
    rw [hfinish]
    constructor
    · intro entry hentry
      obtain ⟨binding, hget, -, hsession⟩ := hbound.active entry hentry
      have hlog : log.filter (isByeFor entry.1 entry.2.session.sessionId) = [] := by
        refine List.filter_eq_nil_iff.mpr fun event hevent hbye => ?_
        have hnot := h.quiet old log hreplaced event hevent
        cases event <;> first | cases hbye | cases hnot
      rw [List.filter_append, hlog, List.nil_append, List.filter_flatMap,
        OrderedMap.flatMap_entries_eq hget]
      · simp [isByeFor, byeOf, hsession]
      · intro other _ howner
        simp [isByeFor, byeOf, howner]
    · intro ownerId id cause hmem
      obtain ⟨⟨other, binding⟩, hentry, hevent⟩ := List.mem_flatMap.mp hmem
      have hdetached : HostEvent.detached ownerId id cause =
          .detached other binding.id .sessionReplaced := by
        rcases List.mem_cons.mp hevent with heq | hevent
        · cases heq
        · exact List.mem_singleton.mp hevent
      cases hdetached
      obtain ⟨-, entry, hmem, howner, hid⟩ :=
        hbound.old ownerId binding (OrderedMap.mem_entries_iff.mp hentry)
      exact ⟨entry, hmem, howner, hid⟩

end Runs

end Replacing

open Replacing

/-- In every run in which no owner is attached while a session is being replaced and the
    handlers keep which one it is: whenever none is being replaced, the bindings are fresh; and
    when a replacement is complete, each owner that was bound to the old session has been sent
    one `bye` for it, and no other owner is detached. -/
theorem replacement_exact (generation : String) (calls : List Call) {s : Replacing}
    (hrun : run Replacing.step (.initial generation) calls = some s)
    (hcalm : Along Replacing.step (fun s call => s.calm call = true) (.initial generation) calls) :
    (s.replaced = none → ∀ ownerId binding,
      s.owners.activeOwners.get? ownerId = some binding → Fresh s.owners binding) ∧
    ∀ call, completes s.owners call = true → ∀ old log, s.replaced = some (old, log) →
      (∀ entry ∈ old, ((log ++ (s.owners.apply call).2).filter
        (isByeFor entry.1 entry.2.session.sessionId)).length = 1) ∧
      ∀ ownerId id cause, .detached ownerId id cause ∈ (s.owners.apply call).2 →
        ∃ entry ∈ old, entry.1 = ownerId ∧ entry.2.id = id := by
  have h : Inv s := invariant_along
    (fun _ _ _ hinv hcall hstep => Inv.step hinv hcall hstep) (inv_initial generation) hcalm hrun
  constructor
  · intro hnone
    exact h.owners.fresh (h.owners.idle (by rw [hnone]; rfl))
  · intro call hcompletes old log hreplaced
    exact h.completed hcompletes hreplaced

/-! ## An owner that comes in between -/

theorem firstSession_named : "s1" ≠ "" := by decide

theorem secondSession_named : "s2" ≠ "" := by decide

def firstSession : Session := ⟨0, "s1", firstSession_named⟩

def secondSession : Session := ⟨1, "s2", secondSession_named⟩

/-- The owner whose key begins with a one and is zero else. -/
def oneOwner : OwnerId :=
  ⟨"AQAAAAAAAAAAAAAAAAAAAAAAAAAAAAAAAAAAAAAAAAA=", by decide⟩

/-- An owner asks for a new session, and `newSession` replaces the session. -/
def replacementCalls : List Call :=
  [.sessionStart firstSession "g1", .attach 0 zeroOwner, .sessionNewStart, .sessionShutdown,
    .sessionStart secondSession "g2"]

theorem replacement_exact_calls : ∃ s,
    run Replacing.step (.initial "g0") replacementCalls = some s ∧
    ∀ old log, s.replaced = some (old, log) →
      ∀ entry ∈ old, ((log ++ (s.owners.apply .sessionNewEnd).2).filter
        (isByeFor entry.1 entry.2.session.sessionId)).length = 1 := by
  obtain ⟨s, hrun⟩ := Option.isSome_iff_exists.mp
    (show (run Replacing.step (.initial "g0") replacementCalls).isSome = true by decide)
  refine ⟨s, hrun, fun old log hreplaced => ?_⟩
  exact ((replacement_exact "g0" replacementCalls hrun (by decide +kernel)).2 .sessionNewEnd rfl
    old log hreplaced).1

/-- Another owner is attached to the new session before `newSession` returns. The completion
    detaches it as well. -/
theorem attached_in_between : ∃ s,
    run Replacing.step (.initial "g0") (replacementCalls ++ [.attach 0 oneOwner]) = some s ∧
    ¬ ∀ call, completes s.owners call = true → ∀ old log, s.replaced = some (old, log) →
      (∀ entry ∈ old, ((log ++ (s.owners.apply call).2).filter
        (isByeFor entry.1 entry.2.session.sessionId)).length = 1) ∧
      ∀ ownerId id cause, .detached ownerId id cause ∈ (s.owners.apply call).2 →
        ∃ entry ∈ old, entry.1 = ownerId ∧ entry.2.id = id := by
  have hrun : (run Replacing.step (.initial "g0") (replacementCalls ++ [.attach 0 oneOwner])).any
      (fun s => decide (.detached oneOwner 1 .sessionReplaced ∈
          (s.owners.apply .sessionNewEnd).2) &&
        decide (s.replaced.map (fun replaced => replaced.1.map fun entry => entry.2.id) =
          some [0])) = true := by decide
  obtain ⟨s, hrun, hs⟩ := (Option.any_eq_true _ _).mp hrun
  rw [Bool.and_eq_true, decide_eq_true_eq, decide_eq_true_eq] at hs
  refine ⟨s, hrun, fun h => ?_⟩
  obtain ⟨⟨old, log⟩, hreplaced, hids⟩ := Option.map_eq_some_iff.mp hs.2
  obtain ⟨entry, hentry, -, hid⟩ := (h .sessionNewEnd rfl old log hreplaced).2 _ _ _ hs.1
  have hmem := List.mem_map_of_mem (f := fun entry : OwnerId × OwnerBinding => entry.2.id) hentry
  rw [hids, List.mem_singleton, hid] at hmem
  cases hmem

end RemotePi.Host
