import RemotePi.Pwa.TimelineRuntime

/-!
# Cache, history and live traffic in the browser

Model of what `handleServerFrame` (`pwa/src/components/pwa/pwa-app.tsx`) does with
the timeline after a `session_ready`: the stored events that `loadRecent` finds, the
realtime events, and the recent history window, each arriving in its own time.

Results:
* `get?_of_window_last`, `get?_of_cached_last`: what the timeline holds in the end,
  by which of the two histories comes last.
* `all_received_iff`: exactly when every event of the window and every realtime event
  is held.
* `late_cache_loses_window`: a stored history that arrives last wipes the others out.
-/

namespace RemotePi.Pwa

open RemotePi.Lib RemotePi.Protocol

/-! ## The arrivals -/

/-- What arrives after `session_ready`. -/
inductive Arrival where
  /-- `loadRecent` resolves (line 310). -/
  | cached (events : List TimelineEvent)
  /-- A whole event (lines 347–351), with the session and the generation of its frame. -/
  | timelineEvent (sessionId historyGeneration : String) (event : TimelineEvent)
  /-- The last fragment of an event (lines 338–344). -/
  | fragmentComplete (event : TimelineEvent)
  /-- The last chunk of the recent window (lines 354–364). -/
  | window (events : List TimelineEvent)
deriving DecidableEq

/-- `timelineRuntimeRef` and `realtimeJournalRef`. -/
structure TimelineSync where
  runtime : TimelineRuntime
  journal : OrderedMap String TimelineEvent

/-- `session_ready` (lines 302–312). `earlier` are the events that went into the journal since
    it was last emptied: none where `clearSessionConnection` (line 244) ran right before. -/
def TimelineSync.ready (runtime : TimelineRuntime) (earlier : List TimelineEvent)
    (scope : TimelineScope) : TimelineSync :=
  ⟨(runtime.setScope scope).1, collect TimelineEvent.eventId earlier⟩

/-- `handleServerFrame` and the continuation of `loadRecent` for the scope;
    `sameTimelineScope` (lines 53–62) compares all fields. -/
def TimelineSync.arrive (scope : TimelineScope) (s : TimelineSync) : Arrival → TimelineSync
  | .cached events =>
    if s.runtime.scope = some scope then { s with runtime := (s.runtime.replaceHistory events).1 }
    else s
  | .timelineEvent sessionId historyGeneration event =>
    { runtime := (s.runtime.receive (.timelineEvent sessionId historyGeneration event) 0).1
      journal :=
        if s.runtime.scope.isSome then s.journal.set event.eventId event else s.journal }
  | .fragmentComplete event =>
    if s.runtime.scope.isSome then
      ⟨(s.runtime.commit event).1, s.journal.set event.eventId event⟩
    else s
  | .window events =>
    if s.runtime.scope.isSome then
      ⟨(s.runtime.replaceHistory (events ++ s.journal.values)).1, .empty⟩
    else s

/-- All arrivals, one after another. -/
def TimelineSync.arriveAll (scope : TimelineScope) (s : TimelineSync) (arrivals : List Arrival) :
    TimelineSync :=
  arrivals.foldl (arrive scope) s

/-! ## What is received -/

/-- The event belongs to the scope. -/
def TimelineScope.includes (scope : TimelineScope) (event : TimelineEvent) : Bool :=
  isMatchingScope (some scope) event.sessionId event.historyGeneration

def Arrival.isCached : Arrival → Bool
  | .cached _ => true
  | _ => false

def Arrival.isWindow : Arrival → Bool
  | .window _ => true
  | _ => false

/-- The event that goes into the journal. -/
def Arrival.journaled : Arrival → List TimelineEvent
  | .timelineEvent _ _ event | .fragmentComplete event => [event]
  | _ => []

/-- The event of a realtime frame of the scope. -/
def Arrival.realtime (scope : TimelineScope) : Arrival → List TimelineEvent
  | .timelineEvent sessionId historyGeneration event =>
    if isMatchingScope (some scope) sessionId historyGeneration then [event] else []
  | .fragmentComplete event => [event]
  | _ => []

def Arrival.windowed : Arrival → List TimelineEvent
  | .window events => events
  | _ => []

/-- The realtime events of the scope, in their order. -/
def realtimeEvents (scope : TimelineScope) (arrivals : List Arrival) : List TimelineEvent :=
  (arrivals.flatMap (Arrival.realtime scope)).filter scope.includes

/-- The window and the realtime events of the scope: what must not be lost. -/
def receivedEvents (scope : TimelineScope) (arrivals : List Arrival) : List TimelineEvent :=
  (arrivals.flatMap Arrival.windowed).filter scope.includes ++ realtimeEvents scope arrivals

/-- No two of the events share an id and differ. -/
def Consistent (events : List TimelineEvent) : Prop :=
  ∀ e ∈ events, ∀ e' ∈ events, e.eventId = e'.eventId → e = e'

/-- A stored history that arrives after the window holds everything received before it
    that is not received again, and no other version of a received event. -/
def CacheComplete (scope : TimelineScope) (arrivals : List Arrival) : Prop :=
  ∀ before stored after, arrivals = before ++ .cached stored :: after →
    before.any Arrival.isWindow = true →
      (∀ e ∈ receivedEvents scope before, e ∈ stored ∨ e ∈ realtimeEvents scope after) ∧
      ∀ e ∈ receivedEvents scope arrivals, ∀ e',
        (stored.filter scope.includes).find? (fun c => decide (c.eventId = e.eventId)) = some e' →
          e' = e

/-- The entry of the journal for an id, after arrivals without a window. -/
def journalEntry (earlier : List TimelineEvent) (arrivals : List Arrival) (id : String) :
    Option TimelineEvent :=
  lastWith TimelineEvent.eventId id (earlier ++ arrivals.flatMap Arrival.journaled)

/-- When the window comes after the stored history, no other event has taken the place of a
    realtime event in the journal, unless the window holds the event or it is received again;
    and the journal has no other version of a received event that the window does not hold. -/
def JournalComplete (scope : TimelineScope) (earlier : List TimelineEvent)
    (arrivals : List Arrival) : Prop :=
  ∀ before events after, arrivals = before ++ .window events :: after →
    before.any Arrival.isCached = true →
      (∀ e ∈ realtimeEvents scope before, e ∈ events ∨ e ∈ realtimeEvents scope after ∨
        journalEntry earlier before e.eventId = some e) ∧
      ∀ e ∈ receivedEvents scope arrivals, e ∈ events ∨
        ∀ e', journalEntry earlier before e.eventId = some e' → scope.includes e' = true → e' = e

/-! ## What the timeline holds -/

section Arrive

variable {scope : TimelineScope} {s : TimelineSync}

theorem includes_eq (scope : TimelineScope) (event : TimelineEvent) :
    TimelineRuntime.admits (some scope) event = scope.includes event := rfl

theorem scope_ready (runtime : TimelineRuntime) (earlier : List TimelineEvent)
    (scope : TimelineScope) :
    (TimelineSync.ready runtime earlier scope).runtime.scope = some scope := rfl

theorem scope_arrive (h : s.runtime.scope = some scope) (arrival : Arrival) :
    (s.arrive scope arrival).runtime.scope = some scope := by
  cases arrival with
  | cached events => simp [TimelineSync.arrive, h]
  | timelineEvent sessionId historyGeneration event =>
    simp only [TimelineSync.arrive, TimelineRuntime.receive]
    split_ifs <;> simp [h]
  | fragmentComplete event => simp [TimelineSync.arrive, h]
  | window events => simp [TimelineSync.arrive, h]

theorem scope_arriveAll (h : s.runtime.scope = some scope) (arrivals : List Arrival) :
    (s.arriveAll scope arrivals).runtime.scope = some scope := by
  induction arrivals generalizing s with
  | nil => exact h
  | cons arrival arrivals ih => exact ih (scope_arrive h arrival)

theorem arriveAll_append (s : TimelineSync) (l l' : List Arrival) :
    s.arriveAll scope (l ++ l') = (s.arriveAll scope l).arriveAll scope l' :=
  List.foldl_append

/-- An arrival that is no history adds its event, when it is one of the scope. -/
theorem get?_arrive_live (h : s.runtime.scope = some scope) {arrival : Arrival}
    (hc : arrival.isCached = false) (hw : arrival.isWindow = false) (id : String) :
    (s.arrive scope arrival).runtime.events.get? id =
      (s.runtime.events.get? id).or
        (((arrival.realtime scope).filter scope.includes).find? fun e =>
          decide (e.eventId = id)) := by
  have hadd : ∀ event : TimelineEvent,
      (s.runtime.commit event).1.events.get? id = (s.runtime.events.get? id).or
        (([event].filter scope.includes).find? fun e => decide (e.eventId = id)) := by
    intro event
    have hmatch : scope.includes event =
        isMatchingScope s.runtime.scope event.sessionId event.historyGeneration := by
      rw [h]
      rfl
    cases hin : scope.includes event with
    | true =>
      rw [TimelineRuntime.get?_commit (hmatch.symm.trans hin)]
      by_cases hid : event.eventId = id <;> simp [hin, hid]
    | false =>
      rw [TimelineRuntime.commit_of_not_matching (hmatch.symm.trans hin)]
      simp [hin]
  cases arrival with
  | cached events => cases hc
  | window events => cases hw
  | fragmentComplete event =>
    simp only [TimelineSync.arrive, h, Option.isSome_some, if_true]
    exact hadd event
  | timelineEvent sessionId historyGeneration event =>
    rw [TimelineSync.arrive, Arrival.realtime, ← h]
    simp only [TimelineRuntime.receive]
    split_ifs with hm
    · exact hadd event
    · simp

theorem get?_arriveAll_live (h : s.runtime.scope = some scope) {arrivals : List Arrival}
    (hc : ∀ a ∈ arrivals, a.isCached = false) (hw : ∀ a ∈ arrivals, a.isWindow = false)
    (id : String) :
    (s.arriveAll scope arrivals).runtime.events.get? id =
      (s.runtime.events.get? id).or
        ((realtimeEvents scope arrivals).find? fun e => decide (e.eventId = id)) := by
  induction arrivals generalizing s with
  | nil => exact Option.or_none.symm
  | cons a arrivals ih =>
    have hcons : s.arriveAll scope (a :: arrivals) =
        (s.arrive scope a).arriveAll scope arrivals := rfl
    rw [hcons, ih (scope_arrive h a) (fun b hb => hc b (List.mem_cons_of_mem _ hb))
        (fun b hb => hw b (List.mem_cons_of_mem _ hb)),
      get?_arrive_live h (hc a List.mem_cons_self) (hw a List.mem_cons_self), Option.or_assoc,
      ← List.find?_append, realtimeEvents, realtimeEvents, List.flatMap_cons, List.filter_append]

/-- The journal keeps the realtime events that arrive before the window. -/
theorem journal_arriveAll (h : s.runtime.scope = some scope) {arrivals : List Arrival}
    (hw : ∀ a ∈ arrivals, a.isWindow = false) :
    (s.arriveAll scope arrivals).journal =
      (arrivals.flatMap Arrival.journaled).foldl (fun m e => m.set e.eventId e) s.journal := by
  induction arrivals generalizing s with
  | nil => rfl
  | cons a arrivals ih =>
    have hcons : s.arriveAll scope (a :: arrivals) =
        (s.arrive scope a).arriveAll scope arrivals := rfl
    have hstep : (s.arrive scope a).journal =
        a.journaled.foldl (fun m e => m.set e.eventId e) s.journal := by
      cases a with
      | cached events => simp [TimelineSync.arrive, Arrival.journaled, h]
      | timelineEvent sessionId historyGeneration event =>
        simp [TimelineSync.arrive, Arrival.journaled, h]
      | fragmentComplete event => simp [TimelineSync.arrive, Arrival.journaled, h]
      | window events => cases hw _ List.mem_cons_self
    rw [hcons, ih (scope_arrive h a) fun b hb => hw b (List.mem_cons_of_mem _ hb), hstep,
      List.flatMap_cons, List.foldl_append]

/-- The journal at the end of arrivals without a window, read by the scope. -/
theorem mem_journal_values (scope : TimelineScope) (runtime : TimelineRuntime)
    (earlier : List TimelineEvent) {arrivals : List Arrival}
    (hw : ∀ a ∈ arrivals, a.isWindow = false) (e : TimelineEvent) :
    e ∈ ((TimelineSync.ready runtime earlier scope).arriveAll scope arrivals).journal.values ↔
      journalEntry earlier arrivals e.eventId = some e := by
  have hj : ((TimelineSync.ready runtime earlier scope).arriveAll scope arrivals).journal =
      collect TimelineEvent.eventId (earlier ++ arrivals.flatMap Arrival.journaled) := by
    rw [journal_arriveAll (scope_ready runtime earlier scope) hw, collect_append]
    rfl
  rw [hj, journalEntry, ← lastWith_values_collect]
  constructor
  · exact fun h => lastWith_of_mem (nodup_values_collect _) h
  · exact fun h => mem_of_lastWith h

/-- The window comes last. -/
theorem get?_of_window_last (scope : TimelineScope) (runtime : TimelineRuntime)
    (earlier : List TimelineEvent) (before : List Arrival) (events : List TimelineEvent)
    {after : List Arrival}
    (hc : ∀ a ∈ after, a.isCached = false)
    (hw : ∀ a ∈ after, a.isWindow = false) (id : String) :
    ((TimelineSync.ready runtime earlier scope).arriveAll scope
        (before ++ .window events :: after)).runtime.events.get? id =
      (((events ++ ((TimelineSync.ready runtime earlier scope).arriveAll scope
          before).journal.values).filter scope.includes) ++ realtimeEvents scope after).find?
        fun e => decide (e.eventId = id) := by
  have hscope := scope_arriveAll (scope_ready runtime earlier scope) before
  have hstep : ∀ s : TimelineSync, s.arriveAll scope (.window events :: after) =
      (s.arrive scope (.window events)).arriveAll scope after := fun _ => rfl
  rw [arriveAll_append, hstep, get?_arriveAll_live (scope_arrive hscope _) hc hw]
  simp only [TimelineSync.arrive, hscope, Option.isSome_some, if_true]
  rw [TimelineRuntime.get?_replaceHistory, hscope, ← List.find?_append]
  rfl

/-- The stored history comes last. -/
theorem get?_of_cached_last (scope : TimelineScope) (runtime : TimelineRuntime)
    (earlier : List TimelineEvent) (before : List Arrival) (events : List TimelineEvent)
    {after : List Arrival}
    (hc : ∀ a ∈ after, a.isCached = false)
    (hw : ∀ a ∈ after, a.isWindow = false) (id : String) :
    ((TimelineSync.ready runtime earlier scope).arriveAll scope
        (before ++ .cached events :: after)).runtime.events.get? id =
      ((events.filter scope.includes) ++ realtimeEvents scope after).find?
        fun e => decide (e.eventId = id) := by
  have hscope := scope_arriveAll (scope_ready runtime earlier scope) before
  have hstep : ∀ s : TimelineSync, s.arriveAll scope (.cached events :: after) =
      (s.arrive scope (.cached events)).arriveAll scope after := fun _ => rfl
  rw [arriveAll_append, hstep, get?_arriveAll_live (scope_arrive hscope _) hc hw]
  simp only [TimelineSync.arrive, hscope, if_true]
  rw [TimelineRuntime.get?_replaceHistory, hscope, ← List.find?_append]
  rfl

end Arrive

/-! ## When nothing is lost -/

/-- Every received event is held under its id. -/
def HoldsAll (scope : TimelineScope) (s : TimelineSync) (arrivals : List Arrival) : Prop :=
  ∀ e ∈ receivedEvents scope arrivals, s.runtime.events.get? e.eventId = some e

theorem HoldsAll.consistent {scope : TimelineScope} {s : TimelineSync} {arrivals : List Arrival}
    (h : HoldsAll scope s arrivals) : Consistent (receivedEvents scope arrivals) := by
  intro e he e' he' hid
  have := h e he
  rw [hid, h e' he'] at this
  exact (Option.some.inj this).symm

theorem HoldsAll.find {scope : TimelineScope} {s : TimelineSync} {arrivals : List Arrival}
    {held : List TimelineEvent} (h : HoldsAll scope s arrivals)
    (hheld : ∀ id, s.runtime.events.get? id = held.find? fun e => decide (e.eventId = id))
    {e : TimelineEvent} (he : e ∈ receivedEvents scope arrivals) :
    held.find? (fun e' => decide (e'.eventId = e.eventId)) = some e :=
  (hheld e.eventId).symm.trans (h e he)

/-- Exactly one arrival of a kind: the list splits at it. -/
theorem exists_split {p : Arrival → Bool} {arrivals : List Arrival}
    (h : arrivals.countP p = 1) :
    ∃ before a after, arrivals = before ++ a :: after ∧ p a = true ∧
      (∀ b ∈ before, p b = false) ∧ ∀ b ∈ after, p b = false := by
  have hpos : 0 < arrivals.countP p := by omega
  obtain ⟨a, ha, hp⟩ := List.countP_pos_iff.mp hpos
  obtain ⟨before, after, rfl⟩ := List.append_of_mem ha
  have hcount : before.countP p + after.countP p = 0 := by
    rw [List.countP_append, List.countP_cons_of_pos hp] at h
    omega
  refine ⟨before, a, after, rfl, hp, fun b hb => ?_, fun b hb => ?_⟩
  · simpa using List.countP_eq_zero.mp (by omega) b hb
  · simpa using List.countP_eq_zero.mp (by omega) b hb

/-- After an arrival of a kind that comes only once there is none of that kind. -/
theorem none_after {p : Arrival → Bool} {before after : List Arrival} {a : Arrival}
    (h : (before ++ a :: after).countP p = 1) (hbefore : before.any p = true) :
    ∀ b ∈ after, p b = false := by
  obtain ⟨c, hc, hp⟩ := List.any_eq_true.mp hbefore
  have hpos : 0 < before.countP p := List.countP_pos_iff.mpr ⟨c, hc, hp⟩
  have hzero : after.countP p = 0 := by
    rw [List.countP_append, List.countP_cons] at h
    omega
  intro b hb
  simpa using List.countP_eq_zero.mp hzero b hb

/-- The only element with its key is the first one. -/
theorem find?_eq_some_of_unique {held : List TimelineEvent} {e : TimelineEvent} (he : e ∈ held)
    (h : ∀ e' ∈ held, e'.eventId = e.eventId → e' = e) :
    held.find? (fun e' => decide (e'.eventId = e.eventId)) = some e := by
  cases hfind : held.find? fun e' => decide (e'.eventId = e.eventId) with
  | none => exact absurd (decide_eq_true rfl) (List.find?_eq_none.mp hfind e he)
  | some e' =>
    exact congrArg some (h e' (List.mem_of_find?_eq_some hfind)
      (by simpa using List.find?_some hfind))

/-- An entry of the journal stands before what comes after the window. -/
theorem find?_of_entry {p : TimelineEvent → Bool} {events journal rest : List TimelineEvent}
    {e : TimelineEvent}
    (hwindow : (events.filter p).find? (fun c => decide (c.eventId = e.eventId)) = none)
    (he : e ∈ journal.filter p) (hunique : ∀ c ∈ journal.filter p, c.eventId = e.eventId → c = e) :
    ((events ++ journal).filter p ++ rest).find? (fun c => decide (c.eventId = e.eventId)) =
      some e := by
  rw [List.filter_append, List.append_assoc, List.find?_append, hwindow, Option.none_or,
    List.find?_append, find?_eq_some_of_unique he hunique, Option.some_or]

/-- The other sides of a split at the only arrival of a kind. -/
theorem others_of_split {p : Arrival → Bool} {before after : List Arrival} {a : Arrival}
    (h : (before ++ a :: after).countP p = 1) (ha : p a = true) :
    (∀ b ∈ before, p b = false) ∧ ∀ b ∈ after, p b = false := by
  have hcount : before.countP p + after.countP p = 0 := by
    rw [List.countP_append, List.countP_cons_of_pos ha] at h
    omega
  refine ⟨fun b hb => ?_, fun b hb => ?_⟩
  · simpa using List.countP_eq_zero.mp (by omega) b hb
  · simpa using List.countP_eq_zero.mp (by omega) b hb

section Complete

variable {runtime : TimelineRuntime} {scope : TimelineScope} {earlier : List TimelineEvent}
  {before after : List Arrival} {events : List TimelineEvent}

theorem receivedEvents_append (l l' : List Arrival) {e : TimelineEvent} :
    e ∈ receivedEvents scope (l ++ l') ↔
      e ∈ receivedEvents scope l ∨ e ∈ receivedEvents scope l' := by
  simp only [receivedEvents, realtimeEvents, List.flatMap_append, List.filter_append,
    List.mem_append]
  tauto

theorem windowed_eq_nil {l : List Arrival} (h : ∀ a ∈ l, a.isWindow = false) :
    l.flatMap Arrival.windowed = [] := by
  refine List.flatMap_eq_nil_iff.mpr fun a ha => ?_
  cases a with
  | window events => cases h _ ha
  | _ => rfl

theorem receivedEvents_live {l : List Arrival} (h : ∀ a ∈ l, a.isWindow = false) :
    receivedEvents scope l = realtimeEvents scope l := by
  rw [receivedEvents, windowed_eq_nil h]
  rfl

/-- With the window last, nothing is lost exactly when the journal is complete. -/
theorem holdsAll_window_last (hbefore : ∀ a ∈ before, a.isWindow = false)
    (hafter : ∀ a ∈ after, a.isWindow = false) (hc : ∀ a ∈ after, a.isCached = false) :
    HoldsAll scope ((TimelineSync.ready runtime earlier scope).arriveAll scope
        (before ++ .window events :: after)) (before ++ .window events :: after) ↔
      Consistent (receivedEvents scope (before ++ .window events :: after)) ∧
      (∀ e ∈ realtimeEvents scope before, e ∈ events ∨ e ∈ realtimeEvents scope after ∨
        journalEntry earlier before e.eventId = some e) ∧
      ∀ e ∈ receivedEvents scope (before ++ .window events :: after), e ∈ events ∨
        ∀ e', journalEntry earlier before e.eventId = some e' → scope.includes e' = true →
          e' = e := by
  have hheld := get?_of_window_last scope runtime earlier before events hc hafter
  have hjournal := mem_journal_values scope runtime earlier hbefore
  generalize (TimelineSync.ready runtime earlier scope).arriveAll scope before = mid
    at hheld hjournal
  generalize (TimelineSync.ready runtime earlier scope).arriveAll scope
    (before ++ .window events :: after) = s at hheld ⊢
  have hreceived : ∀ e, e ∈ receivedEvents scope (before ++ .window events :: after) ↔
      e ∈ realtimeEvents scope before ∨ (e ∈ events ∧ scope.includes e = true) ∨
        e ∈ realtimeEvents scope after := by
    intro e
    rw [receivedEvents_append, receivedEvents_live hbefore, receivedEvents, List.flatMap_cons,
      windowed_eq_nil hafter, List.append_nil, List.mem_append, List.mem_filter]
    rfl
  have hmemHeld : ∀ e, e ∈ (events ++ mid.journal.values).filter scope.includes ++
      realtimeEvents scope after ↔ ((e ∈ events ∨ journalEntry earlier before e.eventId = some e) ∧
        scope.includes e = true) ∨ e ∈ realtimeEvents scope after := by
    intro e
    rw [List.mem_append, List.mem_filter, List.mem_append, hjournal]
  constructor
  · intro h
    refine ⟨h.consistent, fun e he => ?_, fun e he => ?_⟩
    · have hmem := List.mem_of_find?_eq_some (h.find hheld ((hreceived e).mpr (Or.inl he)))
      rcases (hmemHeld e).mp hmem with ⟨hmem | hmem, -⟩ | hmem
      · exact Or.inl hmem
      · exact Or.inr (Or.inr hmem)
      · exact Or.inr (Or.inl hmem)
    · -- an entry of the journal stands before what comes after the window
      refine or_iff_not_imp_left.mpr fun hout e' hentry hin => ?_
      have hid : e'.eventId = e.eventId := key_of_lastWith hentry
      have hfind := h.find hheld he
      have hwindow : (events.filter scope.includes).find?
          (fun c => decide (c.eventId = e.eventId)) = none := by
        cases hw : (events.filter scope.includes).find? fun c => decide (c.eventId = e.eventId) with
        | none => rfl
        | some c =>
          rw [List.filter_append, List.append_assoc, List.find?_append, hw, Option.some_or,
            Option.some.injEq] at hfind
          subst hfind
          exact absurd (List.mem_filter.mp (List.mem_of_find?_eq_some hw)).1 hout
      rw [← hid] at hentry hwindow hfind
      have hunique : ∀ c ∈ mid.journal.values.filter scope.includes, c.eventId = e'.eventId →
          c = e' := by
        intro c hc hcid
        have hcentry := (hjournal c).mp (List.mem_filter.mp hc).1
        rw [hcid, hentry] at hcentry
        exact (Option.some.inj hcentry).symm
      rw [find?_of_entry hwindow (List.mem_filter.mpr ⟨(hjournal e').mpr hentry, hin⟩) hunique]
        at hfind
      exact Option.some.inj hfind
  · rintro ⟨hcons, hkept, hversion⟩ e he
    rw [hheld]
    have hin : ∀ {e}, e ∈ receivedEvents scope (before ++ .window events :: after) →
        scope.includes e = true := by
      intro e he
      rcases (hreceived e).mp he with h | ⟨-, h⟩ | h
      · exact (List.mem_filter.mp h).2
      · exact h
      · exact (List.mem_filter.mp h).2
    have hmem : e ∈ (events ++ mid.journal.values).filter scope.includes ++
        realtimeEvents scope after := by
      rw [hmemHeld]
      rcases (hreceived e).mp he with h | ⟨h, -⟩ | h
      · rcases hkept e h with h | h | h
        · exact Or.inl ⟨Or.inl h, hin he⟩
        · exact Or.inr h
        · exact Or.inl ⟨Or.inr h, hin he⟩
      · exact Or.inl ⟨Or.inl h, hin he⟩
      · exact Or.inr h
    by_cases hwindow : e ∈ events
    · -- the window comes first
      rw [List.filter_append, List.append_assoc, List.find?_append,
        find?_eq_some_of_unique (List.mem_filter.mpr ⟨hwindow, hin he⟩) fun e' he' hid => ?_]
      · rfl
      · have hreceived' := (hreceived e').mpr (Or.inr (Or.inl (List.mem_filter.mp he')))
        exact hcons e' hreceived' e he hid
    · refine find?_eq_some_of_unique hmem fun e' he' hid => ?_
      rcases (hmemHeld e').mp he' with ⟨h | h, hin'⟩ | h
      · exact hcons e' ((hreceived e').mpr (Or.inr (Or.inl ⟨h, hin'⟩))) e he hid
      · exact (hversion e he).resolve_left hwindow e' (by rw [← hid]; exact h) hin'
      · exact hcons e' ((hreceived e').mpr (Or.inr (Or.inr h))) e he hid

/-- With the stored history last, nothing is lost exactly when it is complete. -/
theorem holdsAll_cached_last {stored : List TimelineEvent}
    (hafter : ∀ a ∈ after, a.isWindow = false) (hc : ∀ a ∈ after, a.isCached = false) :
    HoldsAll scope ((TimelineSync.ready runtime earlier scope).arriveAll scope
        (before ++ .cached stored :: after)) (before ++ .cached stored :: after) ↔
      Consistent (receivedEvents scope (before ++ .cached stored :: after)) ∧
      (∀ e ∈ receivedEvents scope before, e ∈ stored ∨ e ∈ realtimeEvents scope after) ∧
      ∀ e ∈ receivedEvents scope (before ++ .cached stored :: after), ∀ e',
        (stored.filter scope.includes).find? (fun c => decide (c.eventId = e.eventId)) = some e' →
          e' = e := by
  have hheld := get?_of_cached_last scope runtime earlier before stored hc hafter
  generalize (TimelineSync.ready runtime earlier scope).arriveAll scope
    (before ++ .cached stored :: after) = s at hheld ⊢
  have hreceived : ∀ e, e ∈ receivedEvents scope (before ++ .cached stored :: after) ↔
      e ∈ receivedEvents scope before ∨ e ∈ realtimeEvents scope after := by
    intro e
    rw [receivedEvents_append, ← receivedEvents_live hafter]
    rfl
  constructor
  · intro h
    refine ⟨h.consistent, fun e he => ?_, fun e he e' he' => ?_⟩
    · have hmem := List.mem_of_find?_eq_some (h.find hheld ((hreceived e).mpr (Or.inl he)))
      exact (List.mem_append.mp hmem).imp_left fun hmem => (List.mem_filter.mp hmem).1
    · have hfind := h.find hheld he
      rw [List.find?_append, he'] at hfind
      exact Option.some.inj hfind
  · rintro ⟨hcons, hkept, hversion⟩ e he
    rw [hheld, List.find?_append]
    cases hfind : (stored.filter scope.includes).find? fun c => decide (c.eventId = e.eventId) with
    | some e' =>
      rw [hversion e he e' hfind]
      rfl
    | none =>
      have hmem : e ∈ realtimeEvents scope after := by
        rcases (hreceived e).mp he with h | h
        · refine (hkept e h).resolve_left fun hstored => ?_
          have hin : scope.includes e = true := by
            rcases List.mem_append.mp h with h | h
            · exact (List.mem_filter.mp h).2
            · exact (List.mem_filter.mp h).2
          have := List.find?_eq_none.mp hfind e (List.mem_filter.mpr ⟨hstored, hin⟩)
          simp at this
        · exact h
      refine find?_eq_some_of_unique hmem fun e' he' hid => ?_
      exact hcons e' ((hreceived e').mpr (Or.inr he')) e he hid

end Complete

/-- After one stored history, one window and any realtime events, every event of the
    window and every realtime event is held exactly when they do not contradict each
    other, and the history that comes last brings what came before it. -/
theorem all_received_iff {runtime : TimelineRuntime} {earlier : List TimelineEvent}
    {scope : TimelineScope} {arrivals : List Arrival} (hc : arrivals.countP Arrival.isCached = 1)
    (hw : arrivals.countP Arrival.isWindow = 1) :
    HoldsAll scope ((TimelineSync.ready runtime earlier scope).arriveAll scope arrivals) arrivals ↔
      Consistent (receivedEvents scope arrivals) ∧ CacheComplete scope arrivals ∧
        JournalComplete scope earlier arrivals := by
  constructor
  · intro h
    refine ⟨h.consistent, ?_, ?_⟩
    · rintro before stored after rfl hbefore
      have hcached := others_of_split hc rfl
      have hwindow : ∀ a ∈ after, a.isWindow = false :=
        none_after hw hbefore
      exact ((holdsAll_cached_last hwindow hcached.2).mp h).2
    · rintro before events after rfl hbefore
      have hwindow := others_of_split hw rfl
      have hcached : ∀ a ∈ after, a.isCached = false :=
        none_after hc hbefore
      exact ((holdsAll_window_last hwindow.1 hwindow.2 hcached).mp h).2
  · rintro ⟨hcons, hcache, hjournal⟩
    obtain ⟨before, w, after, rfl, hpw, hbefore, hafter⟩ := exists_split hw
    cases w with
    | window events =>
      by_cases hany : before.any Arrival.isCached = true
      · exact (holdsAll_window_last hbefore hafter (none_after hc hany)).mpr
          ⟨hcons, hjournal before events after rfl hany⟩
      · have hone : after.countP Arrival.isCached = 1 := by
          have hnone : before.countP Arrival.isCached = 0 :=
            List.countP_eq_zero.mpr fun a ha hcached => hany (List.any_eq_true.mpr ⟨a, ha, hcached⟩)
          rw [List.countP_append, List.countP_cons_of_neg (by simp [Arrival.isCached])] at hc
          omega
        obtain ⟨middle, c, rest, rfl, hpc, hmiddle, hrest⟩ := exists_split hone
        cases c with
        | cached stored =>
          have hsplit : before ++ .window events :: (middle ++ .cached stored :: rest) =
              (before ++ .window events :: middle) ++ .cached stored :: rest := by simp
          rw [hsplit] at hcons hcache ⊢
          refine (holdsAll_cached_last (fun a ha => hafter a (by simp [ha])) hrest).mpr
            ⟨hcons, hcache _ stored rest rfl ?_⟩
          exact List.any_eq_true.mpr ⟨.window events, by simp, rfl⟩
        | _ => cases hpc
    | _ => cases hpw

def exampleScope : TimelineScope := ⟨"device", "endpoint", "runtime", "session", "generation",
  "self", "channel"⟩

def exampleEvent (eventId : String) : TimelineEvent :=
  ⟨eventId, "session", "generation", 0, .user, some "group", []⟩

/-- A realtime event, the stored history, a frame of another session, the window, and another
    realtime event; the journal still has an event of an earlier session. -/
private def liveAndHistory : List Arrival :=
  [.timelineEvent "session" "generation" (exampleEvent "b"), .cached [],
    .timelineEvent "other" "generation" { exampleEvent "c" with sessionId := "other" },
    .window [exampleEvent "a"], .fragmentComplete (exampleEvent "d")]

private def journaledEarlier : List TimelineEvent :=
  [{ exampleEvent "a" with sessionId := "earlier" }]

theorem all_received_live :
    Consistent (receivedEvents exampleScope liveAndHistory) ∧
      CacheComplete exampleScope liveAndHistory ∧
      JournalComplete exampleScope journaledEarlier liveAndHistory :=
  (@all_received_iff .new journaledEarlier _ _ (by decide) (by decide)).mp
    (by unfold HoldsAll; decide)

/-- A stored history read before anything was stored arrives last: the window's event and
    the realtime event are gone. -/
theorem late_cache_loses_window :
    ∃ arrivals, arrivals.countP Arrival.isCached = 1 ∧ arrivals.countP Arrival.isWindow = 1 ∧
      exampleEvent "a" ∈ receivedEvents exampleScope arrivals ∧
      exampleEvent "b" ∈ receivedEvents exampleScope arrivals ∧
      ((TimelineSync.ready .new [] exampleScope).arriveAll exampleScope
        arrivals).runtime.events.entries = [] :=
  ⟨[.timelineEvent "session" "generation" (exampleEvent "b"), .window [exampleEvent "a"],
    .cached []], by decide, by decide, by decide, by decide, by decide⟩

end RemotePi.Pwa
