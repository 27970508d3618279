import RemotePi.Host.RelayLifecycle
import RemotePi.Lib.Trace

/-!
# Runs of the relay lifecycle

What holds of `RelayLifecycle` over every run: whatever the order of calls, closes, timers
and outcomes, no second client is left open, and a lifecycle that is started keeps trying.

A generation has one operation (`Wf`). `Tidy` says what the candidate, the timer and the
open clients have to do with it, and `Alive` that a started lifecycle has one.

Results:
* `Tidy.step`: every step keeps the lifecycle tidy.
* `step_cases`: what a step reports, and what it leaves when it reports nothing.
* `relay_lifecycle_runs`: one client, no leak, and a started lifecycle that is never stuck
  unless `createClient` throws or it is revived after it has been disposed.
* `create_failure_sticks`: a lifecycle that is stuck after `createClient` has thrown.
-/

namespace RemotePi.Host

open RemotePi.Lib RemotePi.Pairing

namespace RelayLifecycle

/-! ## The invariant -/

structure Tidy (l : RelayLifecycle) : Prop where
  timer : ∀ expected ∈ l.reconnectTimer, expected = l.generation ∧ l.currentState = .started
  pending : l.pendingCandidate.isSome = true →
    l.currentState = .started ∧ l.reconnectTimer = none ∧ l.activeRelay = none
  connecting : ∀ op ∈ l.connects, op.expectedGeneration = l.generation →
    ∀ candidate owners, op.phase = .connecting candidate owners →
      l.pendingCandidate = some candidate
  exclusive : ∀ candidate ∈ l.pendingCandidate, ∀ op ∈ l.connects,
    op.expectedGeneration = l.generation → ∃ owners, op.phase = .connecting candidate owners
  loading : ∀ op ∈ l.connects, op.expectedGeneration = l.generation →
    (op.phase = .loadingIdentity ↔ l.currentState = .idle)
  opened : ∀ relay ∈ l.openRelays, l.activeRelay = some relay ∧ relay ∉ l.closedCandidates
  loaded : l.currentState = .started → l.identity = true ∧ l.currentRelayUrl.isSome = true
  owned : ∀ candidate ∈ l.pendingCandidate, ∀ op ∈ l.connects, ∀ owners,
    op.phase = .connecting candidate owners → op.expectedGeneration = l.generation
  numbered : ∀ op ∈ l.connects, ∀ candidate owners, op.phase = .connecting candidate owners →
    candidate < l.nextRelay

/-- A lifecycle that is started and not disposed has an operation that goes on. -/
def Alive (l : RelayLifecycle) : Prop :=
  l.currentState = .started → l.isDisposed = false → 0 < l.tally

theorem tidy_initial : initial.Tidy where
  timer _ h := by cases h
  pending h := by cases h
  connecting _ h := by cases h
  exclusive _ h := by cases h
  loading _ h := by cases h
  opened _ h := by cases h
  loaded h := by cases h
  owned _ h := by cases h
  numbered _ h := by cases h

theorem alive_initial : initial.Alive := fun h => by cases h

section Steps

variable {l : RelayLifecycle} {op : ConnectOp}

/-- A generation without an operation. -/
theorem of_tally_eq_zero (h : l.tally = 0) :
    (∀ other ∈ l.connects, other.expectedGeneration ≠ l.generation) ∧
      l.reconnectTimer ≠ some l.generation ∧ l.activeRelay = none := by
  refine ⟨fun other hother heq => ?_, fun htimer => ?_, activeRelay_of_tally h⟩
  · have hcount : l.connects.countP (fun op => op.expectedGeneration = l.generation) = 0 := by
      unfold tally at h
      omega
    rw [List.countP_eq_zero] at hcount
    exact hcount other hother (decide_eq_true heq)
  · unfold tally at h
    rw [if_pos htimer] at h
    omega

theorem Tidy.timer_eq_none (h : l.Tidy) (hfree : l.reconnectTimer ≠ some l.generation) :
    l.reconnectTimer = none := by
  rw [Option.eq_none_iff_forall_ne_some]
  intro expected htimer
  obtain rfl := (h.timer expected htimer).1
  exact hfree htimer

theorem Tidy.pending_eq_none (h : l.Tidy)
    (hbusy : l.currentState ≠ .started ∨ l.reconnectTimer ≠ none ∨ l.activeRelay ≠ none) :
    l.pendingCandidate = none := by
  rw [← Option.not_isSome_iff_eq_none]
  intro hpending
  obtain ⟨hstarted, htimer, hactive⟩ := h.pending hpending
  rcases hbusy with hbusy | hbusy | hbusy
  · exact hbusy hstarted
  · exact hbusy htimer
  · exact hbusy hactive

theorem Tidy.clearInitialAttempt (h : l.Tidy) : (l.clearInitialAttempt op).Tidy := by
  obtain ⟨_, hframe⟩ := clearInitialAttempt_frame l op
  rw [hframe]
  exact ⟨h.timer, h.pending, h.connecting, h.exclusive, h.loading, h.opened, h.loaded, h.owned,
    h.numbered⟩

theorem Tidy.withdraw (h : l.Tidy) (op : ConnectOp) : (l.withdraw op).Tidy where
  timer := h.timer
  pending := h.pending
  connecting other hother := h.connecting other (List.mem_of_mem_erase hother)
  exclusive candidate hcandidate other hother :=
    h.exclusive candidate hcandidate other (List.mem_of_mem_erase hother)
  loading other hother := h.loading other (List.mem_of_mem_erase hother)
  opened := h.opened
  loaded := h.loaded
  owned candidate hcandidate other hother :=
    h.owned candidate hcandidate other (List.mem_of_mem_erase hother)
  numbered other hother := h.numbered other (List.mem_of_mem_erase hother)

/-- An operation goes on in a phase that fits the lifecycle. -/
theorem Tidy.resume (h : l.Tidy) (phase : ConnectPhase)
    (hphase : op.expectedGeneration = l.generation →
      (∀ candidate owners, phase = .connecting candidate owners →
        l.pendingCandidate = some candidate) ∧
      (∀ candidate ∈ l.pendingCandidate, ∃ owners, phase = .connecting candidate owners) ∧
      (phase = .loadingIdentity ↔ l.currentState = .idle))
    (hcandidate : ∀ candidate owners, phase = .connecting candidate owners →
      op.expectedGeneration = l.generation ∧ candidate < l.nextRelay) :
    (l.resume op phase).Tidy where
  timer := h.timer
  pending := h.pending
  connecting other hother heq := by
    rcases List.mem_append.mp hother with hother | hother
    · exact h.connecting other hother heq
    · obtain rfl := List.mem_singleton.mp hother
      exact (hphase heq).1
  exclusive candidate hcandidate other hother heq := by
    rcases List.mem_append.mp hother with hother | hother
    · exact h.exclusive candidate hcandidate other hother heq
    · obtain rfl := List.mem_singleton.mp hother
      exact (hphase heq).2.1 candidate hcandidate
  loading other hother heq := by
    rcases List.mem_append.mp hother with hother | hother
    · exact h.loading other hother heq
    · obtain rfl := List.mem_singleton.mp hother
      exact (hphase heq).2.2
  opened := h.opened
  loaded := h.loaded
  owned candidate hpending other hother owners hconnecting := by
    rcases List.mem_append.mp hother with hother | hother
    · exact h.owned candidate hpending other hother owners hconnecting
    · obtain rfl := List.mem_singleton.mp hother
      exact (hcandidate candidate owners hconnecting).1
  numbered other hother candidate owners hconnecting := by
    rcases List.mem_append.mp hother with hother | hother
    · exact h.numbered other hother candidate owners hconnecting
    · obtain rfl := List.mem_singleton.mp hother
      exact (hcandidate candidate owners hconnecting).2

/-- The timer of a new generation. -/
theorem Tidy.scheduleReconnect (h : l.Tidy) (hwf : l.Wf) (hpending : l.pendingCandidate = none) :
    l.scheduleReconnect.Tidy := by
  unfold RelayLifecycle.scheduleReconnect
  split_ifs with hidle
  · exact h
  · simp only [Bool.or_eq_true, decide_eq_true_eq, not_or, not_not] at hidle
    have hold : ∀ other ∈ l.connects, other.expectedGeneration ≠ l.generation + 1 :=
      fun other hother => Nat.ne_of_lt (Nat.lt_succ_of_le (hwf.connects other hother))
    refine ⟨fun expected hexpected => ⟨(Option.some.inj hexpected).symm, hidle.2⟩, ?_,
      fun other hother heq => absurd heq (hold other hother), ?_,
      fun other hother heq => absurd heq (hold other hother), h.opened, h.loaded, ?_, h.numbered⟩
    · intro hsome
      rw [hpending] at hsome
      cases hsome
    · intro candidate hcandidate
      rw [hpending] at hcandidate
      cases hcandidate
    · intro candidate hcandidate
      rw [hpending] at hcandidate
      cases hcandidate

theorem isOpen_closeCandidateOnce {relay : RelayId} {candidate : Option RelayId}
    (h : relay ∈ (l.closeCandidateOnce candidate).openRelays) : relay ∈ l.openRelays ∧
      (relay ∈ (l.closeCandidateOnce candidate).closedCandidates ↔ relay ∈ l.closedCandidates) := by
  unfold RelayLifecycle.closeCandidateOnce at h ⊢
  cases candidate with
  | none => exact ⟨h, Iff.rfl⟩
  | some candidate =>
    dsimp only at h ⊢
    split_ifs at h ⊢
    · exact ⟨h, Iff.rfl⟩
    · obtain ⟨hmem, hne⟩ := List.mem_filter.mp h
      have hne : relay ≠ candidate := of_decide_eq_true hne
      refine ⟨hmem, ?_⟩
      show relay ∈ l.closedCandidates ++ [candidate] ↔ _
      simp [hne]

theorem Tidy.closeCandidateOnce (h : l.Tidy) (candidate : Option RelayId) :
    (l.closeCandidateOnce candidate).Tidy := by
  have hopen := @isOpen_closeCandidateOnce l
  obtain ⟨openRelays, closed, hframe⟩ := closeCandidateOnce_frame l candidate
  have hopen := fun relay => @hopen relay candidate
  rw [hframe] at hopen ⊢
  refine ⟨h.timer, h.pending, h.connecting, h.exclusive, h.loading, fun relay hrelay => ?_,
    h.loaded, h.owned, h.numbered⟩
  obtain ⟨hrelay, hclosed⟩ := hopen relay hrelay
  exact ⟨(h.opened relay hrelay).1, fun hmem => (h.opened relay hrelay).2 (hclosed.mp hmem)⟩

theorem Tidy.socketClosed (h : l.Tidy) (relay : RelayId) : (l.socketClosed relay).Tidy :=
  ⟨h.timer, h.pending, h.connecting, h.exclusive, h.loading,
    fun other hother => h.opened other (List.mem_of_mem_filter hother), h.loaded, h.owned,
    h.numbered⟩

/-! ## The operations -/

/-- An operation of another generation is as good as gone. -/
theorem Alive.withdraw (h : l.Alive) (hop : op ∈ l.connects)
    (hstale : l.isReconnectCurrent op.expectedGeneration = false) : (l.withdraw op).Alive := by
  intro hstarted hdisposed
  have hpos := h hstarted hdisposed
  have htally := tally_withdraw hop
  rw [if_neg] at htally
  · omega
  · intro heq
    have hcurrent : l.isReconnectCurrent op.expectedGeneration = true :=
      isReconnectCurrent_iff.mpr ⟨hstarted, hdisposed, heq.symm⟩
    rw [hstale] at hcurrent
    cases hcurrent

theorem Alive.clearInitialAttempt (h : l.Alive) : (l.clearInitialAttempt op).Alive := by
  obtain ⟨_, hframe⟩ := clearInitialAttempt_frame l op
  rw [hframe]
  exact h

theorem Alive.closeCandidateOnce (h : l.Alive) (candidate : Option RelayId) :
    (l.closeCandidateOnce candidate).Alive := by
  obtain ⟨_, _, hframe⟩ := closeCandidateOnce_frame l candidate
  rw [hframe]
  exact h

theorem alive_scheduleReconnect (hidentity : l.identity = true) : l.scheduleReconnect.Alive := by
  unfold RelayLifecycle.scheduleReconnect
  split_ifs with hidle
  · intro hstarted hdisposed
    simp [hidentity, hstarted, hdisposed] at hidle
  · intro _ _
    unfold tally
    dsimp only
    rw [if_pos rfl]
    omega

theorem alive_resume (hop : op.expectedGeneration = l.generation) (phase : ConnectPhase) :
    (l.resume op phase).Alive := by
  intro _ _
  rw [tally_resume, if_pos hop]
  omega

theorem Tidy.start (h : l.Tidy) (hwf : l.Wf) : l.start.Tidy := by
  unfold RelayLifecycle.start
  split_ifs with hattempt hidle
  · exact h
  · exact h
  · have hidle : l.currentState = .idle := not_not.mp hidle
    have hstarted : l.currentState ≠ .started := by rw [hidle]; nofun
    have hpending := h.pending_eq_none (Or.inl hstarted)
    have hnew : ∀ other ∈ l.connects ++ [⟨l.generation + 1, true, .loadingIdentity⟩],
        other.expectedGeneration = l.generation + 1 → other.phase = .loadingIdentity := by
      intro other hother heq
      rcases List.mem_append.mp hother with hother | hother
      · exact absurd heq (Nat.ne_of_lt (Nat.lt_succ_of_le (hwf.connects other hother)))
      · obtain rfl := List.mem_singleton.mp hother
        rfl
    have hphases : ∀ other ∈ l.connects ++ [⟨l.generation + 1, true, .loadingIdentity⟩],
        ∀ candidate owners, other.phase = .connecting candidate owners →
          candidate < l.nextRelay := by
      intro other hother candidate owners hconnecting
      rcases List.mem_append.mp hother with hother | hother
      · exact h.numbered other hother candidate owners hconnecting
      · obtain rfl := List.mem_singleton.mp hother
        cases hconnecting
    refine ⟨?_, ?_, ?_, ?_, ?_, h.opened, ?_, ?_, hphases⟩
    · intro expected hexpected
      exact absurd (h.timer expected hexpected).2 hstarted
    · intro hsome
      exact absurd (h.pending hsome).1 hstarted
    · intro other hother heq candidate owners hphase
      rw [hnew other hother heq] at hphase
      cases hphase
    · intro candidate hcandidate
      have hcandidate : candidate ∈ l.pendingCandidate := hcandidate
      rw [hpending] at hcandidate
      cases hcandidate
    · intro other hother heq
      rw [hnew other hother heq]
      exact iff_of_true rfl hidle
    · intro hstart
      exact absurd hstart hstarted
    · intro candidate hcandidate
      have hcandidate : candidate ∈ l.pendingCandidate := hcandidate
      rw [hpending] at hcandidate
      cases hcandidate

theorem Tidy.identityLoaded (h : l.Tidy) (hwf : l.Wf) (hop : op ∈ l.connects)
    (hphase : op.phase = .loadingIdentity) (outcome : IdentityOutcome) :
    (l.identityLoaded op outcome).Tidy := by
  have hwithdraw := h.withdraw op
  unfold RelayLifecycle.identityLoaded
  dsimp only
  split_ifs with hcurrent
  · exact hwithdraw.clearInitialAttempt
  · have heq : op.expectedGeneration = l.generation := by
      simp only [isOperationCurrent, Bool.not_eq_true', Bool.not_eq_false, Bool.and_eq_true,
        decide_eq_true_eq] at hcurrent
      exact hcurrent.2.symm
    have hidle : l.currentState = .idle := (h.loading op hop heq).mp hphase
    have hstarted : l.currentState ≠ .started := by rw [hidle]; decide
    have hpending := h.pending_eq_none (Or.inl hstarted)
    obtain ⟨hothers, -, -⟩ := of_tally_eq_zero (free_withdraw hwf hop heq)
    cases outcome with
    | failed => exact hwithdraw.clearInitialAttempt
    | unresolved =>
      have hidentified : { l.withdraw op with identity := true }.Tidy :=
        ⟨hwithdraw.timer, hwithdraw.pending, hwithdraw.connecting, hwithdraw.exclusive,
          hwithdraw.loading, hwithdraw.opened, fun hstart => absurd hstart hstarted,
          hwithdraw.owned, hwithdraw.numbered⟩
      exact hidentified.clearInitialAttempt
    | resolved url =>
      have hloaded : ({ l.withdraw op with
          identity := true
          currentRelayUrl := some url
          currentState := .started } : RelayLifecycle).Tidy := by
        refine ⟨?_, ?_, hwithdraw.connecting, hwithdraw.exclusive, ?_, h.opened,
          fun _ => ⟨rfl, rfl⟩, hwithdraw.owned, hwithdraw.numbered⟩
        · intro expected hexpected
          exact absurd (h.timer expected hexpected).2 hstarted
        · intro hsome
          exact absurd (h.pending hsome).1 hstarted
        · intro other hother heq
          exact absurd heq (hothers other hother)
      have hreading : ∀ candidate owners,
          ConnectPhase.readingOptions ≠ .connecting candidate owners := by simp
      refine hloaded.resume _ (fun _ => ⟨fun candidate owners hphase =>
        absurd hphase (hreading candidate owners), ?_, ?_⟩) (fun candidate owners hphase =>
          absurd hphase (hreading candidate owners))
      · intro candidate hcandidate
        have hcandidate : candidate ∈ l.pendingCandidate := hcandidate
        rw [hpending] at hcandidate
        cases hcandidate
      · exact iff_of_false (by decide) (by simp)

theorem Alive.identityLoaded (h : l.Alive) (htidy : l.Tidy) (hop : op ∈ l.connects)
    (hphase : op.phase = .loadingIdentity) (outcome : IdentityOutcome) :
    (l.identityLoaded op outcome).Alive := by
  unfold RelayLifecycle.identityLoaded
  dsimp only
  split_ifs with hcurrent
  · have hstale : l.isReconnectCurrent op.expectedGeneration = false := by
      have hfalse : (l.withdraw op).isOperationCurrent op.expectedGeneration = false := by
        simpa using hcurrent
      have hfalse : l.isOperationCurrent op.expectedGeneration = false := hfalse
      rw [isReconnectCurrent, hfalse, Bool.and_false]
    exact (h.withdraw hop hstale).clearInitialAttempt
  · have heq : op.expectedGeneration = l.generation := by
      simp only [isOperationCurrent, Bool.not_eq_true', Bool.not_eq_false, Bool.and_eq_true,
        decide_eq_true_eq] at hcurrent
      exact hcurrent.2.symm
    have hidle : l.currentState = .idle := (htidy.loading op hop heq).mp hphase
    have hidle : ∀ {l' : RelayLifecycle}, l'.currentState = l.currentState → l'.Alive :=
      fun hsame hstarted => absurd ((hsame.trans hidle).symm.trans hstarted) (by decide)
    cases outcome with
    | failed => exact Alive.clearInitialAttempt (hidle rfl)
    | unresolved => exact Alive.clearInitialAttempt (hidle rfl)
    | resolved url =>
      refine alive_resume ?_ _
      exact heq

theorem Tidy.readOptions (h : l.Tidy) (hop : op ∈ l.connects)
    (hphase : op.phase = .readingOptions) (owners : List String) :
    ((l.withdraw op).resume op (.optionsRead owners)).Tidy := by
  refine (h.withdraw op).resume _ (fun heq => ⟨nofun, ?_, ?_⟩) nofun
  · intro candidate hcandidate
    obtain ⟨_, hconnecting⟩ := h.exclusive candidate hcandidate op hop heq
    rw [hphase] at hconnecting
    cases hconnecting
  · have hloading := h.loading op hop heq
    rw [hphase] at hloading
    exact iff_of_false nofun fun hidle => nomatch hloading.mpr hidle

/-- An operation that fails makes way for a timer. -/
theorem Tidy.connectionFailure (h : l.Tidy) (hwf : l.Wf)
    (hpending : l.isReconnectCurrent op.expectedGeneration = true → l.pendingCandidate = none) :
    (l.connectionFailure op).Tidy := by
  obtain ⟨_, hframe⟩ := clearInitialAttempt_frame l op
  have htidy : (l.clearInitialAttempt op).Tidy := h.clearInitialAttempt
  have hclear : (l.clearInitialAttempt op).Wf := hwf.clearInitialAttempt
  unfold RelayLifecycle.connectionFailure
  rw [hframe] at htidy hclear ⊢
  dsimp only
  split_ifs with hcurrent
  · exact htidy.scheduleReconnect hclear (hpending hcurrent)
  · exact htidy

theorem alive_connectionFailure (h : l.Tidy)
    (halive : l.isReconnectCurrent op.expectedGeneration = false → l.Alive) :
    (l.connectionFailure op).Alive := by
  obtain ⟨_, hframe⟩ := clearInitialAttempt_frame l op
  unfold RelayLifecycle.connectionFailure
  rw [hframe]
  dsimp only
  split_ifs with hcurrent
  · exact alive_scheduleReconnect (h.loaded (isReconnectCurrent_iff.mp hcurrent).1).1
  · exact halive (Bool.not_eq_true _ ▸ hcurrent)

/-- What is known when the options of the current operation are there. -/
theorem Tidy.pending_of_optionsRead (h : l.Tidy) (hop : op ∈ l.connects) {owners : List String}
    (hphase : op.phase = .optionsRead owners)
    (hcurrent : l.isReconnectCurrent op.expectedGeneration = true) :
    l.pendingCandidate = none := by
  rw [Option.eq_none_iff_forall_ne_some]
  intro candidate hcandidate
  have heq := (isReconnectCurrent_iff.mp hcurrent).2.2.symm
  obtain ⟨_, hconnecting⟩ := h.exclusive candidate hcandidate op hop heq
  rw [hphase] at hconnecting
  cases hconnecting

theorem Tidy.optionsBuilt (h : l.Tidy) (hwf : l.Wf) (hop : op ∈ l.connects) {owners : List String}
    (hphase : op.phase = .optionsRead owners) (ok creates : Bool) :
    (l.optionsBuilt op owners ok creates).Tidy := by
  have hwithdraw := h.withdraw op
  unfold RelayLifecycle.optionsBuilt
  dsimp only
  split_ifs with hok hcurrent
  · exact hwithdraw.connectionFailure (hwf.withdraw hop) fun hcurrent =>
      h.pending_of_optionsRead hop hphase hcurrent
  · exact hwithdraw.clearInitialAttempt
  · exact hwithdraw.clearInitialAttempt
  · simp only [Bool.not_eq_true', Bool.not_eq_false] at hcurrent
    have hcurrent : l.isReconnectCurrent op.expectedGeneration = true := hcurrent
    obtain ⟨hstarted, -, heq⟩ := isReconnectCurrent_iff.mp hcurrent
    obtain ⟨hothers, htimer, hactive⟩ := of_tally_eq_zero (free_withdraw hwf hop heq.symm)
    have hcandidate : ({ l.withdraw op with
        pendingCandidate := some (l.withdraw op).nextRelay
        nextRelay := (l.withdraw op).nextRelay + 1 } : RelayLifecycle).Tidy := by
      refine ⟨h.timer, fun _ => ⟨hstarted, h.timer_eq_none htimer, hactive⟩, ?_, ?_,
        hwithdraw.loading, h.opened, h.loaded, ?_, ?_⟩
      · intro other hother heq
        exact absurd heq (hothers other hother)
      · intro candidate _ other hother heq
        exact absurd heq (hothers other hother)
      · rintro candidate ⟨⟩ other hother owners hconnecting
        exact absurd (hwithdraw.numbered other hother _ owners hconnecting) (Nat.lt_irrefl _)
      · intro other hother candidate owners hconnecting
        exact Nat.lt_succ_of_lt (hwithdraw.numbered other hother candidate owners hconnecting)
    refine hcandidate.resume _ (fun _ => ⟨?_, ?_, iff_of_false nofun ?_⟩) ?_
    · rintro candidate owners' ⟨⟩
      rfl
    · rintro candidate ⟨⟩
      exact ⟨owners, rfl⟩
    · intro hidle
      exact nomatch hstarted.symm.trans hidle
    · rintro candidate owners' ⟨⟩
      exact ⟨heq.symm, Nat.lt_succ_self _⟩

theorem Alive.optionsBuilt (h : l.Alive) (htidy : l.Tidy) (hop : op ∈ l.connects)
    (owners : List String) (ok creates : Bool)
    (hcreates : ok = true → creates = false → l.isReconnectCurrent op.expectedGeneration = false) :
    (l.optionsBuilt op owners ok creates).Alive := by
  unfold RelayLifecycle.optionsBuilt
  dsimp only
  split_ifs with hok hcurrent hcreated
  · exact alive_connectionFailure (htidy.withdraw op) fun hstale => h.withdraw hop hstale
  · have hstale : (l.withdraw op).isReconnectCurrent op.expectedGeneration = false := by
      simpa using hcurrent
    exact (h.withdraw hop hstale).clearInitialAttempt
  · have hstale := hcreates (by simpa using hok) (by simpa using hcreated)
    exact (h.withdraw hop hstale).clearInitialAttempt
  · simp only [Bool.not_eq_true', Bool.not_eq_false] at hcurrent
    have hcurrent : l.isReconnectCurrent op.expectedGeneration = true := hcurrent
    refine alive_resume ?_ _
    exact (isReconnectCurrent_iff.mp hcurrent).2.2.symm

/-- A client that connects late is closed again. -/
theorem isOpen_of_late {relay candidate : RelayId}
    (h : relay ∈ ((l.socketOpened candidate).closeCandidateOnce (some candidate)).openRelays) :
    relay ∈ l.openRelays := by
  unfold RelayLifecycle.closeCandidateOnce RelayLifecycle.socketOpened at h
  dsimp only at h
  by_cases hclosed : candidate ∈ l.closedCandidates
  · rw [if_pos hclosed, if_pos hclosed] at h
    exact h
  · rw [if_neg hclosed, if_neg hclosed] at h
    obtain ⟨hmem, hne⟩ := List.mem_filter.mp h
    rcases List.mem_append.mp hmem with hmem | hmem
    · exact hmem
    · exact absurd (List.mem_singleton.mp hmem) (of_decide_eq_true hne)

/-- The clients that are open may change as long as they are the active one. -/
theorem Tidy.withOpen (h : l.Tidy) {openRelays closedCandidates : List RelayId}
    (hopen : ∀ relay ∈ openRelays, l.activeRelay = some relay ∧ relay ∉ closedCandidates) :
    { l with openRelays, closedCandidates }.Tidy :=
  ⟨h.timer, h.pending, h.connecting, h.exclusive, h.loading, hopen, h.loaded, h.owned, h.numbered⟩

theorem Tidy.late (h : l.Tidy) (candidate : RelayId) :
    ((l.socketOpened candidate).closeCandidateOnce (some candidate)).Tidy := by
  have hlate := fun relay => @isOpen_of_late l relay candidate
  have hopen := fun relay => @isOpen_closeCandidateOnce (l.socketOpened candidate) relay
    (some candidate)
  obtain ⟨opened, hopened⟩ := socketOpened_frame l candidate
  obtain ⟨openRelays, closed, hclosed⟩ :=
    closeCandidateOnce_frame (l.socketOpened candidate) (some candidate)
  rw [hclosed] at hlate hopen ⊢
  rw [hopened] at hlate hopen ⊢
  refine h.withOpen fun relay hrelay => ?_
  obtain ⟨hactive, hkept⟩ := h.opened relay (hlate relay hrelay)
  exact ⟨hactive, fun hmem => hkept ((hopen relay hrelay).2.mp hmem)⟩

/-- A client that connects in time becomes the active one. -/
theorem Tidy.activate (h : l.Tidy) (candidate : RelayId) (hfree : l.tally = 0) :
    { l.socketOpened candidate with
      pendingCandidate := none
      activeRelay := some candidate }.Tidy := by
  obtain ⟨hothers, htimer, hactive⟩ := of_tally_eq_zero hfree
  have hclosed : l.openRelays = [] := by
    rw [List.eq_nil_iff_forall_not_mem]
    intro relay hrelay
    have hopened := (h.opened relay hrelay).1
    rw [hactive] at hopened
    cases hopened
  have hopened : ∀ relay ∈ (l.socketOpened candidate).openRelays,
      some candidate = some relay ∧ relay ∉ l.closedCandidates := by
    intro relay hrelay
    unfold RelayLifecycle.socketOpened at hrelay
    split_ifs at hrelay with hmem
    · rw [hclosed] at hrelay
      cases hrelay
    · dsimp only at hrelay
      rw [hclosed, List.nil_append, List.mem_singleton] at hrelay
      subst hrelay
      exact ⟨rfl, hmem⟩
  obtain ⟨_, hframe⟩ := socketOpened_frame l candidate
  rw [hframe] at hopened ⊢
  exact ⟨h.timer, nofun, fun other hother heq => absurd heq (hothers other hother), nofun,
    h.loading, hopened, h.loaded, nofun, h.numbered⟩

theorem Tidy.connected (h : l.Tidy) (hwf : l.Wf) (hop : op ∈ l.connects) (candidate : RelayId)
    (owners : List String) : (l.connected op candidate owners).1.Tidy := by
  obtain ⟨_, hclear⟩ := clearInitialAttempt_frame (l.withdraw op) op
  have htidy : ((l.withdraw op).clearInitialAttempt op).Tidy := (h.withdraw op).clearInitialAttempt
  unfold RelayLifecycle.connected
  rw [hclear] at htidy ⊢
  dsimp only
  split_ifs with hcurrent
  · exact htidy.late candidate
  · simp only [Bool.or_eq_true, Bool.not_eq_true', not_or, Bool.not_eq_false] at hcurrent
    obtain ⟨_, hopened⟩ := socketOpened_frame { l.withdraw op with initialAttempt := _ } candidate
    have hcurrent := hcurrent.1
    rw [hopened] at hcurrent
    obtain ⟨-, -, heq⟩ := isReconnectCurrent_iff.mp hcurrent
    exact htidy.activate candidate (free_withdraw hwf hop heq.symm)

theorem Alive.connected (h : l.Alive) (htidy : l.Tidy) (hop : op ∈ l.connects)
    {candidate : RelayId} {owners : List String} (hphase : op.phase = .connecting candidate owners) :
    (l.connected op candidate owners).1.Alive := by
  obtain ⟨_, hclear⟩ := clearInitialAttempt_frame (l.withdraw op) op
  unfold RelayLifecycle.connected
  rw [hclear]
  obtain ⟨_, hopened⟩ := socketOpened_frame { l.withdraw op with initialAttempt := _ } candidate
  rw [hopened]
  dsimp only
  split_ifs with hcurrent
  · have hstale : l.isReconnectCurrent op.expectedGeneration = false := by
      rw [Bool.eq_false_iff]
      intro htrue
      have hpending := htidy.connecting op hop (isReconnectCurrent_iff.mp htrue).2.2.symm
        candidate owners hphase
      rw [Bool.or_eq_true, Bool.not_eq_true', decide_eq_true_eq] at hcurrent
      rcases hcurrent with hfalse | hne
      · cases hfalse.symm.trans htrue
      · exact hne hpending
    refine Alive.closeCandidateOnce ?_ (some candidate)
    exact h.withdraw hop hstale
  · intro _ _
    unfold tally
    dsimp only
    rw [Option.isSome_some, if_pos rfl]
    omega

/-- The candidate of the only operation is dropped with it. -/
theorem Tidy.dropPending (h : l.Tidy)
    (hothers : ∀ other ∈ l.connects, other.expectedGeneration ≠ l.generation) :
    { l with pendingCandidate := none }.Tidy :=
  ⟨h.timer, nofun, fun other hother heq => absurd heq (hothers other hother), nofun, h.loading,
    h.opened, h.loaded, nofun, h.numbered⟩

theorem Tidy.connectFailed (h : l.Tidy) (hwf : l.Wf) (hop : op ∈ l.connects)
    {candidate : RelayId} {owners : List String} (hphase : op.phase = .connecting candidate owners) :
    (l.connectFailed op candidate).Tidy ∧ (l.Alive → (l.connectFailed op candidate).Alive) := by
  have hwithdraw := h.withdraw op
  unfold RelayLifecycle.connectFailed
  dsimp only
  split_ifs with hpending
  · have heq := h.owned candidate hpending op hop owners hphase
    obtain ⟨hothers, -, -⟩ := of_tally_eq_zero (free_withdraw hwf hop heq)
    have hdropped := hwithdraw.dropPending hothers
    have hclosed := hdropped.closeCandidateOnce (some candidate)
    obtain ⟨_, _, hframe⟩ := closeCandidateOnce_frame
      { l.withdraw op with pendingCandidate := none } (some candidate)
    constructor
    · have hwf := hwf.withdraw hop
      have hdroppedWf : { l.withdraw op with pendingCandidate := none }.Wf :=
        ⟨hwf.connects, hwf.timer, hwf.single, hwf.active⟩
      refine hclosed.connectionFailure (hdroppedWf.closeCandidateOnce _) fun _ => ?_
      rw [hframe]
    · intro halive
      refine alive_connectionFailure hclosed fun hstale => ?_
      rw [hframe] at hstale
      refine Alive.closeCandidateOnce ?_ (some candidate)
      exact halive.withdraw hop hstale
  · have hstale : l.isReconnectCurrent op.expectedGeneration = false := by
      rw [Bool.eq_false_iff]
      intro htrue
      exact hpending (h.connecting op hop (isReconnectCurrent_iff.mp htrue).2.2.symm candidate
        owners hphase)
    refine ⟨hwithdraw.connectionFailure (hwf.withdraw hop) fun hcurrent => ?_,
      fun halive => alive_connectionFailure hwithdraw fun _ => halive.withdraw hop hstale⟩
    cases hstale.symm.trans hcurrent

theorem Tidy.reconnectTimerFired (h : l.Tidy) {expected : ℕ}
    (htimer : l.reconnectTimer = some expected) :
    (l.reconnectTimerFired expected).Tidy ∧ (l.reconnectTimerFired expected).Alive := by
  obtain ⟨rfl, hstarted⟩ := h.timer expected htimer
  have hpending := h.pending_eq_none (Or.inr (Or.inl (by rw [htimer]; nofun)))
  have hfired : { l with reconnectTimer := none }.Tidy :=
    ⟨nofun, fun hsome => ⟨(h.pending hsome).1, rfl, (h.pending hsome).2.2⟩, h.connecting,
      h.exclusive, h.loading, h.opened, h.loaded, h.owned, h.numbered⟩
  unfold RelayLifecycle.reconnectTimerFired
  dsimp only
  split_ifs with hcurrent
  · refine ⟨hfired, fun _ hdisposed => ?_⟩
    have hdisposed : l.isDisposed = false := hdisposed
    have htrue : RelayLifecycle.isReconnectCurrent { l with reconnectTimer := none }
        l.generation = true := isReconnectCurrent_iff.mpr ⟨hstarted, hdisposed, rfl⟩
    rw [htrue, (h.loaded hstarted).1] at hcurrent
    cases hcurrent
  · constructor
    · show (RelayLifecycle.resume { l with reconnectTimer := none }
        ⟨l.generation, false, .readingOptions⟩ .readingOptions).Tidy
      refine hfired.resume _ (fun _ => ⟨nofun, ?_, iff_of_false nofun ?_⟩) nofun
      · intro candidate hcandidate
        have hcandidate : candidate ∈ l.pendingCandidate := hcandidate
        rw [hpending] at hcandidate
        cases hcandidate
      · intro hidle
        exact nomatch hstarted.symm.trans hidle
    · show (RelayLifecycle.resume { l with reconnectTimer := none }
        ⟨l.generation, false, .readingOptions⟩ .readingOptions).Alive
      exact alive_resume rfl _

theorem Tidy.onRelayClose (h : l.Tidy) (hwf : l.Wf) (closed : RelayId) :
    (l.onRelayClose closed).1.Tidy ∧ (l.Alive → (l.onRelayClose closed).1.Alive) := by
  unfold RelayLifecycle.onRelayClose
  dsimp only
  by_cases hother : (l.socketClosed closed).activeRelay ≠ some closed ∨
      (l.socketClosed closed).currentState = .idle
  · rw [if_pos (by simpa using hother)]
    exact ⟨h.socketClosed closed, fun halive => halive⟩
  · rw [if_neg (by simpa using hother)]
    have hactive : l.activeRelay = some closed := by
      simp only [not_or, not_not] at hother
      exact hother.1
    have hstarted : l.currentState = .started := hwf.active (by rw [hactive]; rfl)
    have hpending := h.pending_eq_none (Or.inr (Or.inr (by rw [hactive]; nofun)))
    have hleft : { l.socketClosed closed with activeRelay := none }.Tidy := by
      refine ⟨h.timer, fun hsome => ?_, h.connecting, h.exclusive, h.loading, ?_, h.loaded,
        h.owned, h.numbered⟩
      · exact ⟨(h.pending hsome).1, (h.pending hsome).2.1, rfl⟩
      · intro relay hrelay
        obtain ⟨hmem, hne⟩ := List.mem_filter.mp hrelay
        have heq := (h.opened relay hmem).1
        rw [hactive] at heq
        exact absurd (Option.some.inj heq).symm (of_decide_eq_true hne)
    have hurl : (l.socketClosed closed).currentRelayUrl.isSome = true := (h.loaded hstarted).2
    rw [if_pos hurl]
    exact ⟨hleft.scheduleReconnect (hwf.left closed) hpending,
      fun _ => alive_scheduleReconnect (h.loaded hstarted).1⟩

theorem Tidy.stop (h : l.Tidy) (hwf : l.Wf) : l.stop.Tidy := by
  have hclosed : ∀ relay, relay ∉
      ((l.closeCandidateOnce l.activeRelay).closeCandidateOnce l.pendingCandidate).openRelays := by
    intro relay hrelay
    obtain ⟨hfirst, -⟩ := isOpen_closeCandidateOnce hrelay
    obtain ⟨hactive, hkept⟩ := h.opened relay (isOpen_closeCandidateOnce hfirst).1
    rw [hactive] at hfirst
    unfold RelayLifecycle.closeCandidateOnce at hfirst
    dsimp only at hfirst
    rw [if_neg hkept] at hfirst
    exact of_decide_eq_true (List.mem_filter.mp hfirst).2 rfl
  have hopen : ∀ relay, relay ∉ l.stop.openRelays := hclosed
  have hold : ∀ other ∈ l.connects, other.expectedGeneration ≠ l.generation + 1 :=
    fun other hother => Nat.ne_of_lt (Nat.lt_succ_of_le (hwf.connects other hother))
  obtain ⟨_, _, hframe⟩ := stop_frame l
  rw [hframe] at hopen ⊢
  exact ⟨nofun, nofun, fun other hother heq => absurd heq (hold other hother), nofun,
    fun other hother heq => absurd heq (hold other hother),
    fun relay hrelay => absurd hrelay (hopen relay), nofun, nofun, h.numbered⟩

theorem alive_stop : l.stop.Alive := by
  intro hstarted
  obtain ⟨_, _, hframe⟩ := stop_frame l
  rw [hframe] at hstarted
  cases hstarted

end Steps

/-! ## Steps -/

/-- `createClient` does not throw, and a lifecycle that is not disposed any more has an
    operation that goes on. -/
def recovers (l : RelayLifecycle) : LifecycleLabel → Bool
  | .optionsBuilt op true false => !l.isReconnectCurrent op.expectedGeneration
  | .setDisposed false => l.currentState ≠ .started || 0 < l.tally
  | _ => true

/-- Every step keeps the lifecycle tidy, and alive if it recovers. -/
theorem Tidy.step {l l' : RelayLifecycle} {file : PeersFile} {label : LifecycleLabel}
    {event : LifecycleEvent} (h : l.Tidy) (hwf : l.Wf)
    (hstep : l.step file label = some (l', event)) :
    l'.Tidy ∧ (l.recovers label = true → l.Alive → l'.Alive) := by
  cases label with
  | start =>
    cases hstep
    refine ⟨h.start hwf, fun _ halive => ?_⟩
    unfold RelayLifecycle.start
    split_ifs with hattempt hidle
    · exact halive
    · exact halive
    · intro hstarted
      exact absurd hstarted (by rw [not_not.mp hidle]; nofun)
  | identityLoaded op outcome =>
    simp only [RelayLifecycle.step] at hstep
    split_ifs at hstep with hop
    cases hstep
    exact ⟨h.identityLoaded hwf hop.1 hop.2.1 outcome,
      fun _ halive => halive.identityLoaded h hop.1 hop.2.1 outcome⟩
  | readOptions op =>
    simp only [RelayLifecycle.step] at hstep
    split_ifs at hstep with hop
    cases hstep
    refine ⟨h.readOptions hop.1 hop.2 _, fun _ halive hstarted hdisposed => ?_⟩
    have hpos := halive hstarted hdisposed
    have htally := tally_withdraw hop.1
    rw [tally_resume]
    show 0 < (l.withdraw op).tally + if op.expectedGeneration = l.generation then 1 else 0
    omega
  | optionsBuilt op ok creates =>
    simp only [RelayLifecycle.step] at hstep
    split at hstep
    · rename_i owners hphase
      split_ifs at hstep with hop
      cases hstep
      refine ⟨h.optionsBuilt hwf hop hphase ok creates, fun hrecovers halive => ?_⟩
      refine halive.optionsBuilt h hop owners ok creates ?_
      rintro rfl rfl
      simpa [recovers] using hrecovers
    · cases hstep
  | connected op =>
    simp only [RelayLifecycle.step] at hstep
    split at hstep
    · rename_i candidate owners hphase
      split_ifs at hstep with hop
      obtain rfl : (l.connected op _ _).1 = l' := congrArg Prod.fst (Option.some.inj hstep)
      exact ⟨h.connected hwf hop candidate owners, fun _ halive => halive.connected h hop hphase⟩
    · cases hstep
  | connectFailed op =>
    simp only [RelayLifecycle.step] at hstep
    split at hstep
    · rename_i candidate owners hphase
      split_ifs at hstep with hop
      cases hstep
      obtain ⟨htidy, halive⟩ := h.connectFailed hwf hop hphase
      exact ⟨htidy, fun _ => halive⟩
    · cases hstep
  | reconnectTimerFired =>
    simp only [RelayLifecycle.step] at hstep
    split at hstep
    · rename_i expected htimer
      cases hstep
      obtain ⟨htidy, halive⟩ := h.reconnectTimerFired htimer
      exact ⟨htidy, fun _ _ => halive⟩
    · cases hstep
  | relayClosing relay =>
    cases hstep
    exact ⟨h.socketClosed relay, fun _ halive => halive⟩
  | relayClosed relay =>
    obtain rfl : (l.onRelayClose relay).1 = l' := congrArg Prod.fst (Option.some.inj hstep)
    obtain ⟨htidy, halive⟩ := h.onRelayClose hwf relay
    exact ⟨htidy, fun _ => halive⟩
  | stop =>
    cases hstep
    exact ⟨h.stop hwf, fun _ _ => alive_stop⟩
  | setDisposed value =>
    cases hstep
    refine ⟨⟨h.timer, h.pending, h.connecting, h.exclusive, h.loading, h.opened, h.loaded,
      h.owned, h.numbered⟩, fun hrecovers _ hstarted hdisposed => ?_⟩
    have hdisposed : value = false := hdisposed
    subst hdisposed
    have hstarted : l.currentState = .started := hstarted
    have hpos : 0 < l.tally := by simpa [recovers, hstarted] using hrecovers
    exact hpos

/-! ## What a step reports -/

section Reports

variable {l l' : RelayLifecycle} {op : ConnectOp} {file : PeersFile} {label : LifecycleLabel}

/-- What a step that reports nothing leaves: no socket opens and no client becomes active. -/
structure Calm (l l' : RelayLifecycle) : Prop where
  active : l'.activeRelay = l.activeRelay
  disposed : l'.isDisposed = l.isDisposed
  opened : ∀ relay, l'.isOpen relay = true → l.isOpen relay = true

theorem Calm.of_eq (hactive : l'.activeRelay = l.activeRelay)
    (hdisposed : l'.isDisposed = l.isDisposed) (hopen : l'.openRelays = l.openRelays) :
    l.Calm l' :=
  ⟨hactive, hdisposed, fun relay h => by unfold isOpen at h ⊢; rwa [← hopen]⟩

theorem Calm.trans {l'' : RelayLifecycle} (h : l.Calm l') (h' : l'.Calm l'') : l.Calm l'' :=
  ⟨h'.active.trans h.active, h'.disposed.trans h.disposed, fun relay hopen => h.opened relay (h'.opened relay hopen)⟩

theorem calm_clearInitialAttempt (op : ConnectOp) : l.Calm (l.clearInitialAttempt op) := by
  obtain ⟨_, hframe⟩ := clearInitialAttempt_frame l op
  rw [hframe]
  exact .of_eq rfl rfl rfl

theorem calm_scheduleReconnect : l.Calm l.scheduleReconnect := by
  unfold scheduleReconnect
  split_ifs <;> exact .of_eq rfl rfl rfl

theorem calm_connectionFailure (op : ConnectOp) : l.Calm (l.connectionFailure op) := by
  unfold connectionFailure
  dsimp only
  split_ifs
  · exact (calm_clearInitialAttempt op).trans calm_scheduleReconnect
  · exact calm_clearInitialAttempt op

theorem calm_closeCandidateOnce (candidate : Option RelayId) :
    l.Calm (l.closeCandidateOnce candidate) := by
  obtain ⟨_, _, hframe⟩ := closeCandidateOnce_frame l candidate
  refine ⟨?_, ?_, fun relay hopen => ?_⟩
  · rw [hframe]
  · rw [hframe]
  · unfold isOpen at hopen ⊢
    rw [List.contains_iff_mem] at hopen ⊢
    exact (isOpen_closeCandidateOnce hopen).1

theorem calm_late (candidate : RelayId) :
    l.Calm ((l.socketOpened candidate).closeCandidateOnce (some candidate)) := by
  obtain ⟨_, hopened⟩ := socketOpened_frame l candidate
  obtain ⟨_, _, hclosed⟩ := closeCandidateOnce_frame (l.socketOpened candidate) (some candidate)
  refine ⟨?_, ?_, fun relay hopen => ?_⟩
  · rw [hclosed, hopened]
  · rw [hclosed, hopened]
  · unfold isOpen at hopen ⊢
    rw [List.contains_iff_mem] at hopen ⊢
    exact isOpen_of_late hopen

theorem calm_socketClosed (relay : RelayId) : l.Calm (l.socketClosed relay) := by
  refine ⟨rfl, rfl, fun other hopen => ?_⟩
  unfold isOpen at hopen ⊢
  rw [List.contains_iff_mem] at hopen ⊢
  exact List.mem_of_mem_filter hopen

theorem calm_identityLoaded (outcome : IdentityOutcome) :
    l.Calm (l.identityLoaded op outcome) := by
  unfold identityLoaded
  dsimp only
  have hwithdraw : l.Calm (l.withdraw op) := .of_eq rfl rfl rfl
  split_ifs
  · exact hwithdraw.trans (calm_clearInitialAttempt op)
  · cases outcome with
    | failed => exact hwithdraw.trans (calm_clearInitialAttempt op)
    | unresolved =>
      have hidentified : l.Calm { l.withdraw op with identity := true } := .of_eq rfl rfl rfl
      exact hidentified.trans (calm_clearInitialAttempt op)
    | resolved url => exact .of_eq rfl rfl rfl

theorem calm_optionsBuilt (owners : List String) (ok creates : Bool) :
    l.Calm (l.optionsBuilt op owners ok creates) := by
  unfold optionsBuilt
  dsimp only
  have hwithdraw : l.Calm (l.withdraw op) := .of_eq rfl rfl rfl
  split_ifs
  · exact hwithdraw.trans (calm_connectionFailure op)
  · exact hwithdraw.trans (calm_clearInitialAttempt op)
  · exact hwithdraw.trans (calm_clearInitialAttempt op)
  · exact .of_eq rfl rfl rfl

theorem calm_connectFailed (candidate : RelayId) : l.Calm (l.connectFailed op candidate) := by
  unfold connectFailed
  dsimp only
  have hwithdraw : l.Calm (l.withdraw op) := .of_eq rfl rfl rfl
  split_ifs
  · have hdropped : l.Calm { l.withdraw op with pendingCandidate := none } := .of_eq rfl rfl rfl
    exact (hdropped.trans (calm_closeCandidateOnce _)).trans (calm_connectionFailure op)
  · exact hwithdraw.trans (calm_connectionFailure op)

/-- What a step reports: a client that has just connected, no client any more, or nothing. -/
theorem step_cases {event : LifecycleEvent} (hlabel : ∀ value, label ≠ .setDisposed value)
    (hstep : l.step file label = some (l', event)) :
    (∃ client ctx owners, event = .connected client ctx owners ∧ l'.activeRelay = some client) ∨
      (event = .disconnected ∧ l'.activeRelay = none) ∨ (event = .quiet ∧ l.Calm l') := by
  cases label with
  | start =>
    cases hstep
    refine Or.inr (Or.inr ⟨rfl, ?_⟩)
    unfold start
    split_ifs <;> exact .of_eq rfl rfl rfl
  | identityLoaded op outcome =>
    simp only [step] at hstep
    split_ifs at hstep
    cases hstep
    exact Or.inr (Or.inr ⟨rfl, calm_identityLoaded outcome⟩)
  | readOptions op =>
    simp only [step] at hstep
    split_ifs at hstep
    cases hstep
    exact Or.inr (Or.inr ⟨rfl, .of_eq rfl rfl rfl⟩)
  | optionsBuilt op ok creates =>
    simp only [step] at hstep
    split at hstep
    · split_ifs at hstep
      cases hstep
      exact Or.inr (Or.inr ⟨rfl, calm_optionsBuilt _ ok creates⟩)
    · cases hstep
  | connected op =>
    simp only [step] at hstep
    split at hstep
    · split_ifs at hstep
      have hwithdraw : l.Calm (l.withdraw op) := .of_eq rfl rfl rfl
      have hcleared := hwithdraw.trans (calm_clearInitialAttempt op)
      unfold connected at hstep
      dsimp only at hstep
      split_ifs at hstep <;> cases hstep
      · exact Or.inr (Or.inr ⟨rfl, hcleared.trans (calm_late _)⟩)
      · exact Or.inl ⟨_, _, _, rfl, rfl⟩
    · cases hstep
  | connectFailed op =>
    simp only [step] at hstep
    split at hstep
    · split_ifs at hstep
      cases hstep
      exact Or.inr (Or.inr ⟨rfl, calm_connectFailed _⟩)
    · cases hstep
  | reconnectTimerFired =>
    simp only [step] at hstep
    split at hstep
    · cases hstep
      refine Or.inr (Or.inr ⟨rfl, ?_⟩)
      unfold reconnectTimerFired
      dsimp only
      split_ifs <;> exact .of_eq rfl rfl rfl
    · cases hstep
  | relayClosing relay =>
    cases hstep
    exact Or.inr (Or.inr ⟨rfl, calm_socketClosed relay⟩)
  | relayClosed relay =>
    simp only [step, onRelayClose] at hstep
    split_ifs at hstep <;> cases hstep
    · exact Or.inr (Or.inr ⟨rfl, calm_socketClosed relay⟩)
    · exact Or.inr (Or.inl ⟨rfl, calm_scheduleReconnect.active⟩)
    · exact Or.inr (Or.inl ⟨rfl, rfl⟩)
  | stop =>
    cases hstep
    obtain ⟨_, _, hframe⟩ := stop_frame l
    rw [hframe]
    exact Or.inr (Or.inl ⟨rfl, rfl⟩)
  | setDisposed value => exact absurd rfl (hlabel value)

/-- A client that is current after a calm step was current before it. -/
theorem Calm.isCurrent (h : l.Calm l') (hwf : l.Wf) {relay : RelayId}
    (hcurrent : l'.isCurrent relay = true) : l.isCurrent relay = true := by
  obtain ⟨hdisposed, -, hactive⟩ := isCurrent_iff.mp hcurrent
  rw [h.active] at hactive
  rw [h.disposed] at hdisposed
  exact isCurrent_iff.mpr ⟨hdisposed, hwf.active (by rw [hactive]; rfl), hactive⟩

/-- `onConnected` is called for the client that becomes the active one. -/
theorem activeRelay_of_connected {client : RelayId} {ctx : Bool} {owners : List String}
    (hstep : l.step file label = some (l', .connected client ctx owners)) :
    l'.activeRelay = some client := by
  have hlabel : ∀ value, label ≠ .setDisposed value := by
    rintro value rfl
    cases hstep
  rcases step_cases hlabel hstep with ⟨_, _, _, heq, hactive⟩ | ⟨heq, -⟩ | ⟨heq, -⟩
  · cases heq
    exact hactive
  · cases heq
  · cases heq

end Reports

/-! ## Runs -/

/-- A step of the lifecycle, with the file that `buildConnectOptions` may read. -/
def move (l : RelayLifecycle) (label : PeersFile × LifecycleLabel) : Option RelayLifecycle :=
  (l.step label.1 label.2).map Prod.fst

/-- At most one client is active or pending, every other one is closed, and a timer is
    scheduled only without both. -/
structure Single (l : RelayLifecycle) : Prop where
  client : l.activeRelay = none ∨ l.pendingCandidate = none
  closed : ∀ relay ∈ l.openRelays, l.activeRelay = some relay
  timer : l.reconnectTimer.isSome = true → l.activeRelay = none ∧ l.pendingCandidate = none

/-- The lifecycle is started and not disposed, but nothing goes on. -/
def Stuck (l : RelayLifecycle) : Prop :=
  l.connects = [] ∧ l.currentState = .started ∧ l.isDisposed = false ∧ l.activeRelay = none ∧
    l.reconnectTimer = none

instance (l : RelayLifecycle) : Decidable l.Stuck := inferInstanceAs (Decidable (_ ∧ _))

theorem Tidy.sound {l : RelayLifecycle} (h : l.Tidy) (hwf : l.Wf) : l.Single where
  client := by
    cases hactive : l.activeRelay with
    | none => exact Or.inl rfl
    | some relay => exact Or.inr (h.pending_eq_none (Or.inr (Or.inr (by rw [hactive]; nofun))))
  closed relay hrelay := (h.opened relay hrelay).1
  timer hsome := by
    obtain ⟨expected, htimer⟩ := Option.isSome_iff_exists.mp hsome
    refine ⟨?_, h.pending_eq_none (Or.inr (Or.inl (by rw [htimer]; nofun)))⟩
    obtain rfl := (h.timer expected htimer).1
    have hsingle := hwf.single
    rw [← Option.not_isSome_iff_eq_none]
    intro hactive
    unfold tally at hsingle
    rw [if_pos htimer, if_pos hactive] at hsingle
    omega

theorem Alive.not_stuck {l : RelayLifecycle} (h : l.Alive) : ¬ l.Stuck := by
  rintro ⟨hconnects, hstarted, hdisposed, hactive, htimer⟩
  have hpos := h hstarted hdisposed
  unfold tally at hpos
  rw [hconnects, hactive, htimer] at hpos
  simp at hpos

theorem tidy_run {labels : List (PeersFile × LifecycleLabel)} {l : RelayLifecycle}
    (hrun : run move initial labels = some l) : l.Wf ∧ l.Tidy := by
  refine @invariant_run _ _ _ (fun l => l.Wf ∧ l.Tidy) ?_ _ _ _ ⟨wf_initial, tidy_initial⟩ hrun
  intro l label l' h hmove
  obtain ⟨⟨_, event⟩, hstep, rfl⟩ := Option.map_eq_some_iff.mp hmove
  exact ⟨h.1.step hstep, (h.2.step h.1 hstep).1⟩

theorem alive_run {labels : List (PeersFile × LifecycleLabel)} {l : RelayLifecycle}
    (hrecovers : Along move (fun l label => l.recovers label.2 = true) initial labels)
    (hrun : run move initial labels = some l) : l.Alive := by
  refine (@invariant_along _ _ _ _ (fun l => (l.Wf ∧ l.Tidy) ∧ l.Alive) ?_ _ _ _
    ⟨⟨wf_initial, tidy_initial⟩, alive_initial⟩ hrecovers hrun).2
  rintro l label l' ⟨⟨hwf, htidy⟩, halive⟩ hrecovers hmove
  obtain ⟨⟨_, event⟩, hstep, rfl⟩ := Option.map_eq_some_iff.mp hmove
  obtain ⟨htidy', halive'⟩ := htidy.step hwf hstep
  exact ⟨⟨hwf.step hstep, htidy'⟩, halive' hrecovers halive⟩

end RelayLifecycle

/-- Over every run at most one client is active or pending, every other one that has connected
    is closed, `onConnected` is called for the active client, and a timer waits only without
    clients; a started lifecycle is never stuck in a run that recovers. -/
theorem relay_lifecycle_runs (labels : List (PeersFile × LifecycleLabel)) (l : RelayLifecycle)
    (hrun : run RelayLifecycle.move .initial labels = some l) :
    l.Single ∧
      (∀ file label l' client ctx owners,
        l.step file label = some (l', .connected client ctx owners) →
          l'.activeRelay = some client) ∧
      (Along RelayLifecycle.move (fun l label => l.recovers label.2 = true) .initial labels →
        ¬ l.Stuck) := by
  obtain ⟨hwf, htidy⟩ := RelayLifecycle.tidy_run hrun
  exact ⟨htidy.sound hwf, fun _ _ _ _ _ _ hstep => RelayLifecycle.activeRelay_of_connected hstep,
    fun hrecovers => (RelayLifecycle.alive_run hrecovers hrun).not_stuck⟩

/-- The first connect, up to the client. -/
private def connectLabels (creates : Bool) : List (PeersFile × LifecycleLabel) :=
  [(.missing, .start),
    (.missing, .identityLoaded ⟨1, true, .loadingIdentity⟩ (.resolved "http://relay")),
    (.missing, .readOptions ⟨1, true, .readingOptions⟩),
    (.missing, .optionsBuilt ⟨1, true, .optionsRead []⟩ true creates)]

/-- A lifecycle that creates its client and loses the connection is not stuck. -/
theorem relay_lifecycle_runs_closed : ∃ l,
    run RelayLifecycle.move .initial (connectLabels true ++
      [(.missing, .connected ⟨1, true, .connecting 0 []⟩), (.missing, .relayClosed 0)]) = some l ∧
      ¬ l.Stuck := by
  obtain ⟨l, hrun⟩ := Option.isSome_iff_exists.mp
    (show (run RelayLifecycle.move .initial (connectLabels true ++
      [(.missing, .connected ⟨1, true, .connecting 0 []⟩),
        (.missing, .relayClosed 0)])).isSome = true by decide)
  exact ⟨l, hrun, (relay_lifecycle_runs _ l hrun).2.2 (by decide)⟩

/-- When `createClient` throws, the lifecycle is started without a client or a timer. -/
theorem create_failure_sticks : ∃ l,
    run RelayLifecycle.move .initial (connectLabels false) = some l ∧ l.Stuck := by
  obtain ⟨l, hrun⟩ := Option.isSome_iff_exists.mp
    (show (run RelayLifecycle.move .initial (connectLabels false)).isSome = true by
      decide)
  have hstuck : (run RelayLifecycle.move .initial (connectLabels false)).any
      (fun l => decide l.Stuck) = true := by decide
  rw [hrun, Option.any_some] at hstuck
  exact ⟨l, hrun, of_decide_eq_true hstuck⟩

end RemotePi.Host
