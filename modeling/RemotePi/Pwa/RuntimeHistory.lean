import RemotePi.Pwa.EndpointRegistry

/-!
# Which runtimes the endpoint registry accepts

The tests that `applyControl` of `useEndpointRegistry`
(`pwa/src/lib/pwa/use-endpoint-registry.ts`) makes of the runtimes of its frames, in runs
where the stored endpoints are loaded and the queued writes end at any time.

Results:
* `runtimes_kept_iff`: the last accepted runtime goes on being accepted and those that it
  superseded do not come back, exactly in the runs where memory never holds a runtime that
  is missing from what is known of its endpoint.
* `inStep_load_first`: that is so when the load completes before the first frame.
* `live_runtime_locked_out`: a load that completes later can shut out the live runtime.
-/

namespace RemotePi.Pwa

open RemotePi.Lib

/-! ## Tests -/

/-- A call of `acceptEndpointRuntime`: the runtime of the record held in memory, the runtime
    of the frame, and the answer. -/
structure RuntimeTest where
  id : PwaEndpointId
  held : Option String
  runtime : String
  accepted : Bool
deriving DecidableEq, Repr

/-- The tests of the records of a snapshot (lines 104–108). -/
def snapshotTests (current : PwaEndpointId → Option PwaEndpointRecord) :
    RuntimeHistory → List PwaEndpointRecord → List RuntimeTest
  | _, [] => []
  | history, e :: es =>
    let result := acceptEndpointRuntime history (current e.id) e
    ⟨e.id, (current e.id).map PwaEndpointRecord.runtimeInstanceId, e.runtimeInstanceId, result.2⟩ ::
      snapshotTests current result.1 es

/-- The tests that `applyControl` makes of a frame (lines 97–121). -/
def EndpointRegistry.tests (s : EndpointRegistry) (frame : ControlFrame) (now : ℕ) :
    List RuntimeTest :=
  if !s.devices.contains frame.deviceId then []
  else
    match frame with
    | .endpoints deviceId endpoints =>
      let current := s.endpoints.filter fun e => decide (e.deviceId = deviceId)
      snapshotTests (fun k => current.find? fun e => decide (PwaEndpointRecord.id e = k)) s.history
        (endpoints.map fun endpoint => toEndpointRecord deviceId endpoint true now)
    | .endpointAnnounced deviceId endpoint | .endpointUpdated deviceId endpoint =>
      snapshotTests s.find s.history [toEndpointRecord deviceId endpoint true now]
    | .endpointEnded _ _ _ => []

/-! ## Runs -/

inductive RuntimeLabel where
  | control (frame : ControlFrame) (now : ℕ)
  /-- The stored endpoints of the device arrive (lines 63–69). -/
  | loaded (deviceId : String) (stored : List PwaEndpointRecord)
  /-- The oldest queued write completes (line 86). -/
  | written
  /-- The oldest queued write ends before it refreshes the memory (lines 79–88). -/
  | failed
deriving DecidableEq, Repr

/-- A step of the registry, with the tests that it makes. -/
def EndpointRegistry.move (s : EndpointRegistry) :
    RuntimeLabel → Option (EndpointRegistry × List RuntimeTest)
  | .control frame now => some (s.applyControl frame now, s.tests frame now)
  | .loaded deviceId stored =>
    some ({ s with
      endpoints := mergeEndpoints (stored.map fun e => { e with online := false })
        (s.endpoints.filter fun e => decide (e.deviceId = deviceId)) }, [])
  | .written => (s.step .written).map fun t => (t, [])
  | .failed =>
    match s.writes with
    | [] => none
    | _ :: writes => some ({ s with writes }, [])

/-- The registry before anything is loaded (lines 38–44). -/
def EndpointRegistry.initial (devices : List String) : EndpointRegistry :=
  ⟨devices, [], .empty, []⟩

/-- The tests of one endpoint. -/
def ofEndpoint (id : PwaEndpointId) (log : List RuntimeTest) : List RuntimeTest :=
  log.filter fun test => test.id = id

/-- The runtime of the last accepted record. -/
def lastAccepted (log : List RuntimeTest) : Option String :=
  (log.filter RuntimeTest.accepted).getLast?.map RuntimeTest.runtime

/-- A record of another runtime was accepted where the runtime was held, or had been
    accepted before. -/
def Superseded (log : List RuntimeTest) (runtime : String) : Prop :=
  ∃ before newer after, log = before ++ newer :: after ∧ newer.accepted = true ∧
    newer.runtime ≠ runtime ∧ (newer.held = some runtime ∨
      ∃ test ∈ before, test.accepted = true ∧ test.runtime = runtime)

/-- The last accepted runtime of the endpoint is accepted, and one that it superseded is not. -/
def KeepsOrder (before : List RuntimeTest) (test : RuntimeTest) : Prop :=
  (lastAccepted (ofEndpoint test.id before) = some test.runtime → test.accepted = true) ∧
    (Superseded (ofEndpoint test.id before) test.runtime → test.accepted = false)

/-- Every test of the run keeps the order of the runtimes. -/
def KeepsRuntimes (devices : List String) (labels : List RuntimeLabel) : Prop :=
  ∀ s log, run (logged EndpointRegistry.move) (.initial devices, []) labels = some (s, log) →
    Throughout KeepsOrder log

/-- What memory holds of an endpoint is of a known runtime, unless none is known. -/
def EndpointRegistry.InStep (s : EndpointRegistry) : Prop :=
  ∀ id e, s.find id = some e →
    s.history.known id = [] ∨ e.runtimeInstanceId ∈ s.history.known id

/-! ## One endpoint -/

/-- What is known of an endpoint after the record held in memory has been seen
    (`runtime.ts`, lines 55–56). -/
def seenWith (known : List String) : Option String → List String
  | none => known
  | some held => if known.contains held then known else known ++ [held]

/-- What is known after a test, and its answer (`runtime.ts`, lines 57–61). -/
def tested (known : List String) (held : Option String) (runtime : String) :
    List String × Bool :=
  let known := seenWith known held
  if known.contains runtime then (known, known.getLast? = some runtime)
  else (known ++ [runtime], true)

/-- What is known of an endpoint fits its tests. -/
structure Remembers (known : List String) (log : List RuntimeTest) : Prop where
  last : known.getLast? = lastAccepted log
  accepted : ∀ test ∈ log, test.accepted = true → test.runtime ∈ known
  superseded : ∀ runtime, Superseded log runtime →
    runtime ∈ known ∧ known.getLast? ≠ some runtime

section Endpoint

variable {known : List String} {log : List RuntimeTest}

theorem lastAccepted_append (log : List RuntimeTest) (test : RuntimeTest) :
    lastAccepted (log ++ [test]) =
      if test.accepted then some test.runtime else lastAccepted log := by
  unfold lastAccepted
  rw [List.filter_append]
  split_ifs with h
  · rw [List.filter_cons_of_pos h, List.filter_nil, List.getLast?_concat, Option.map_some]
  · rw [List.filter_cons_of_neg h, List.filter_nil, List.append_nil]

/-- A test supersedes something only when it accepts its runtime. -/
theorem superseded_append {test : RuntimeTest} {runtime : String}
    (h : Superseded (log ++ [test]) runtime) :
    Superseded log runtime ∨ test.accepted = true ∧ test.runtime ≠ runtime ∧
      (test.held = some runtime ∨ ∃ t ∈ log, t.accepted = true ∧ t.runtime = runtime) := by
  obtain ⟨before, newer, after, heq, hnewer⟩ := h
  rcases List.eq_nil_or_concat after with rfl | ⟨after, last, rfl⟩
  · obtain ⟨rfl, hsame⟩ := List.append_inj' heq rfl
    cases hsame
    exact Or.inr hnewer
  · rw [List.concat_eq_append, ← List.cons_append, ← List.append_assoc] at heq
    obtain ⟨rfl, -⟩ := List.append_inj' heq rfl
    exact Or.inl ⟨before, newer, after, rfl, hnewer⟩

theorem remembers_nil : Remembers [] [] where
  last := rfl
  accepted := fun test h => by cases h
  superseded := by
    rintro runtime ⟨before, newer, after, heq, -⟩
    simp at heq

theorem mem_tested {held : Option String} {next runtime : String} :
    runtime ∈ (tested known held next).1 ↔
      runtime ∈ known ∨ held = some runtime ∨ runtime = next := by
  have hseen : runtime ∈ seenWith known held ↔ runtime ∈ known ∨ held = some runtime := by
    cases held with
    | none => simp [seenWith]
    | some held =>
      unfold seenWith
      dsimp only
      split_ifs with hin
      · have hmem := List.contains_iff_mem.mp hin
        rw [Option.some.injEq]
        exact ⟨Or.inl, fun h => h.elim (fun h => h) fun h => h ▸ hmem⟩
      · rw [List.mem_append, List.mem_singleton, Option.some.injEq, eq_comm (a := held)]
  unfold tested
  dsimp only
  split_ifs with hin
  · rw [← or_assoc, ← hseen]
    refine ⟨Or.inl, fun h => h.elim (fun h => h) ?_⟩
    rintro rfl
    exact List.contains_iff_mem.mp hin
  · rw [List.mem_append, List.mem_singleton, ← or_assoc, ← hseen]

theorem seenWith_of_known {held : Option String} (h : ∀ r, held = some r → r ∈ known) :
    seenWith known held = known := by
  cases held with
  | none => rfl
  | some held => exact if_pos (List.contains_iff_mem.mpr (h held rfl))

/-- A test of an endpoint of which nothing is known accepts its runtime. -/
theorem tested_nil (held : Option String) (runtime : String) :
    (tested [] held runtime).2 = true ∧
      (tested [] held runtime).1.getLast? = some runtime := by
  unfold tested
  dsimp only
  cases held with
  | none =>
    rw [seenWith, if_neg (by simp)]
    exact ⟨rfl, rfl⟩
  | some held =>
    have hseen : seenWith [] (some held) = [held] := rfl
    rw [hseen]
    split_ifs with hin
    · have hsame : runtime = held := by simpa using hin
      rw [hsame]
      exact ⟨decide_eq_true rfl, rfl⟩
    · exact ⟨rfl, rfl⟩

theorem Remembers.lastAccepted_mem (h : Remembers known log) {runtime : String}
    (hlast : lastAccepted log = some runtime) : runtime ∈ known := by
  rw [← h.last] at hlast
  exact List.mem_of_getLast? hlast

/-- A test that accepts its runtime leaves it as the last one, over all that is known. -/
theorem Remembers.of_accepted (h : Remembers known log) {next : RuntimeTest}
    (haccepted : next.accepted = true)
    (hlast : (tested known next.held next.runtime).1.getLast? = some next.runtime)
    (hfresh : ∀ runtime, Superseded log runtime → next.runtime ≠ runtime) :
    Remembers (tested known next.held next.runtime).1 (log ++ [next]) where
  last := by rw [hlast, lastAccepted_append, if_pos haccepted]
  accepted := by
    intro test htest hok
    rcases List.mem_append.mp htest with htest | htest
    · exact mem_tested.mpr (Or.inl (h.accepted test htest hok))
    · rw [List.mem_singleton.mp htest]
      exact mem_tested.mpr (Or.inr (Or.inr rfl))
  superseded := by
    intro runtime hold
    rw [hlast, ne_eq, Option.some.injEq]
    rcases superseded_append hold with hold | ⟨-, hne, hheld | ⟨test, htest, hok, rfl⟩⟩
    · exact ⟨mem_tested.mpr (Or.inl (h.superseded runtime hold).1), hfresh runtime hold⟩
    · exact ⟨mem_tested.mpr (Or.inr (Or.inl hheld)), hne⟩
    · exact ⟨mem_tested.mpr (Or.inl (h.accepted test htest hok)), hne⟩

/-- A test that rejects a known runtime changes nothing. -/
theorem Remembers.of_rejected (h : Remembers known log) {next : RuntimeTest}
    (hrejected : next.accepted = false) : Remembers known (log ++ [next]) where
  last := by rw [lastAccepted_append, hrejected, if_neg Bool.false_ne_true, h.last]
  accepted := by
    intro test htest hok
    rcases List.mem_append.mp htest with htest | htest
    · exact h.accepted test htest hok
    · rw [List.mem_singleton.mp htest, hrejected] at hok
      cases hok
  superseded := by
    intro runtime hold
    rcases superseded_append hold with hold | ⟨hok, -⟩
    · exact h.superseded runtime hold
    · rw [hrejected] at hok
      cases hok

/-- A test where the record held in memory is of a known runtime keeps the order. -/
theorem Remembers.test (h : Remembers known log) {next : RuntimeTest}
    (hheld : ∀ held, next.held = some held → known = [] ∨ held ∈ known)
    (haccepted : next.accepted = (tested known next.held next.runtime).2) :
    ((lastAccepted log = some next.runtime → next.accepted = true) ∧
      (Superseded log next.runtime → next.accepted = false)) ∧
    Remembers (tested known next.held next.runtime).1 (log ++ [next]) := by
  rcases List.eq_nil_or_concat known with rfl | ⟨start, last, hknown⟩
  · -- Nothing has been accepted yet.
    obtain ⟨hyes, hlast⟩ := tested_nil next.held next.runtime
    have hnone : ∀ runtime, ¬Superseded log runtime := fun runtime hold =>
      List.not_mem_nil (h.superseded runtime hold).1
    exact ⟨⟨fun _ => haccepted.trans hyes, fun hold => absurd hold (hnone _)⟩,
      h.of_accepted (haccepted.trans hyes) hlast fun runtime hold => absurd hold (hnone _)⟩
  · have hseen : seenWith known next.held = known := by
      refine seenWith_of_known fun held hsome => (hheld held hsome).resolve_left ?_
      rw [hknown, List.concat_eq_append]
      exact List.append_ne_nil_of_right_ne_nil _ (List.cons_ne_nil _ _)
    have hresult : tested known next.held next.runtime =
        if known.contains next.runtime then
          (known, decide (known.getLast? = some next.runtime))
        else (known ++ [next.runtime], true) := by
      unfold tested
      rw [hseen]
    by_cases hin : known.contains next.runtime = true
    · rw [if_pos hin] at hresult
      by_cases hcurrent : known.getLast? = some next.runtime
      · have hyes : next.accepted = true := by
          rw [haccepted, hresult]
          exact decide_eq_true hcurrent
        have hfresh : ∀ runtime, Superseded log runtime → next.runtime ≠ runtime := by
          rintro runtime hold rfl
          exact (h.superseded _ hold).2 hcurrent
        refine ⟨⟨fun _ => hyes, fun hold => absurd rfl (hfresh _ hold)⟩,
          h.of_accepted hyes ?_ hfresh⟩
        rw [hresult]
        exact hcurrent
      · have hno : next.accepted = false := by
          rw [haccepted, hresult]
          exact decide_eq_false hcurrent
        refine ⟨⟨fun hlast => absurd (h.last.trans hlast) hcurrent, fun _ => hno⟩, ?_⟩
        rw [hresult]
        exact h.of_rejected hno
    · rw [if_neg hin] at hresult
      have hyes : next.accepted = true := by rw [haccepted, hresult]
      have hfresh : ∀ runtime, Superseded log runtime → next.runtime ≠ runtime := by
        rintro runtime hold rfl
        exact hin (List.contains_iff_mem.mpr (h.superseded _ hold).1)
      refine ⟨⟨fun _ => hyes, fun hold => absurd rfl (hfresh _ hold)⟩,
        h.of_accepted hyes ?_ hfresh⟩
      rw [hresult]
      exact List.getLast?_concat

end Endpoint

/-! ## All endpoints -/

/-- What is known of every endpoint fits its tests. -/
def HistoryFits (history : RuntimeHistory) (log : List RuntimeTest) : Prop :=
  ∀ id, Remembers (history.known id) (ofEndpoint id log)

/-- The records held in memory are of known runtimes. -/
def HeldKnown (history : RuntimeHistory) (current : PwaEndpointId → Option PwaEndpointRecord)
    (id : PwaEndpointId) : Prop :=
  ∀ e, current id = some e → history.known id = [] ∨ e.runtimeInstanceId ∈ history.known id

section Tests

variable {history : RuntimeHistory} {current : PwaEndpointId → Option PwaEndpointRecord}
  {log : List RuntimeTest}

theorem knownWith_eq (history : RuntimeHistory) (held : Option PwaEndpointRecord)
    (id : PwaEndpointId) : knownWith history held id =
      seenWith (history.known id) (held.map PwaEndpointRecord.runtimeInstanceId) := by
  cases held <;> rfl

theorem known_set (history : RuntimeHistory) (id id' : PwaEndpointId) (known : List String) :
    RuntimeHistory.known (history.set id known) id' =
      if id' = id then known else history.known id' := by
  unfold RuntimeHistory.known
  rw [OrderedMap.get?_set]
  split_ifs <;> rfl

/-- `acceptEndpointRuntime` tests the runtime against what is known of its endpoint. -/
theorem acceptEndpointRuntime_eq (history : RuntimeHistory) (held : Option PwaEndpointRecord)
    (next : PwaEndpointRecord) :
    acceptEndpointRuntime history held next =
      (history.set next.id (tested (history.known next.id)
          (held.map PwaEndpointRecord.runtimeInstanceId) next.runtimeInstanceId).1,
        (tested (history.known next.id) (held.map PwaEndpointRecord.runtimeInstanceId)
          next.runtimeInstanceId).2) := by
  unfold acceptEndpointRuntime tested
  dsimp only
  rw [knownWith_eq]
  split_ifs <;> rfl

theorem ofEndpoint_append (id : PwaEndpointId) (log : List RuntimeTest) (test : RuntimeTest) :
    ofEndpoint id (log ++ [test]) =
      if test.id = id then ofEndpoint id log ++ [test] else ofEndpoint id log := by
  unfold ofEndpoint
  rw [List.filter_append]
  split_ifs with hid
  · rw [List.filter_cons_of_pos (by exact decide_eq_true hid), List.filter_nil]
  · rw [List.filter_cons_of_neg (by simpa using hid), List.filter_nil, List.append_nil]

/-- One test of an endpoint keeps the order of its runtimes. -/
theorem HistoryFits.accept (h : HistoryFits history log) {next : PwaEndpointRecord}
    (hheld : HeldKnown history current next.id) {test : RuntimeTest}
    (htest : test = ⟨next.id, (current next.id).map PwaEndpointRecord.runtimeInstanceId,
      next.runtimeInstanceId, (acceptEndpointRuntime history (current next.id) next).2⟩) :
    KeepsOrder log test ∧
      HistoryFits (acceptEndpointRuntime history (current next.id) next).1 (log ++ [test]) := by
  have hknown : ∀ held, test.held = some held →
      history.known next.id = [] ∨ held ∈ history.known next.id := by
    intro held hsome
    rw [htest, Option.map_eq_some_iff] at hsome
    obtain ⟨e, he, rfl⟩ := hsome
    exact hheld e he
  have hstep := (h next.id).test hknown (by rw [htest, acceptEndpointRuntime_eq])
  have hid : test.id = next.id := by rw [htest]
  refine ⟨by unfold KeepsOrder; rw [hid]; exact hstep.1, fun id => ?_⟩
  rw [acceptEndpointRuntime_eq, known_set, ofEndpoint_append, hid]
  by_cases hsame : id = next.id
  · subst hsame
    rw [if_pos rfl, if_pos rfl]
    have hremembers := hstep.2
    rw [htest] at hremembers ⊢
    exact hremembers
  · rw [if_neg hsame, if_neg (Ne.symm hsame)]
    exact h id

theorem HeldKnown.accept {id : PwaEndpointId} (h : HeldKnown history current id)
    (next : PwaEndpointRecord) :
    HeldKnown (acceptEndpointRuntime history (current next.id) next).1 current id := by
  intro e he
  by_cases hid : id = next.id
  · exact Or.inr (mem_known_accept.mpr (Or.inr ⟨hid, Or.inl ⟨e, hid ▸ he, rfl⟩⟩))
  · rw [acceptEndpointRuntime_eq, known_set, if_neg hid]
    exact h e he

/-- The tests of a snapshot keep the order of the runtimes of each endpoint. -/
theorem HistoryFits.snapshot (es : List PwaEndpointRecord) (h : HistoryFits history log)
    (hheld : ∀ e ∈ es, HeldKnown history current e.id) :
    Throughout (fun before => KeepsOrder (log ++ before)) (snapshotTests current history es) ∧
      HistoryFits (acceptSnapshot current history es).1
        (log ++ snapshotTests current history es) := by
  induction es generalizing history log with
  | nil =>
    rw [snapshotTests, List.append_nil]
    exact ⟨throughout_nil, h⟩
  | cons next es ih =>
    obtain ⟨hkeeps, hfits⟩ := h.accept (hheld next List.mem_cons_self) rfl
    obtain ⟨hrest, hafter⟩ := ih hfits fun e he => (hheld e (List.mem_cons_of_mem _ he)).accept next
    rw [snapshotTests, ← List.singleton_append, throughout_append, throughout_singleton,
      List.append_nil]
    simp only [← List.append_assoc]
    exact ⟨⟨hkeeps, hrest⟩, hafter⟩

end Tests

/-! ## Frames -/

section Frames

variable {s : EndpointRegistry} {log : List RuntimeTest}

/-- The records of the device among those of memory. -/
theorem find_current (s : EndpointRegistry) (deviceId endpointId : String) :
    ((s.endpoints.filter fun e => decide (e.deviceId = deviceId)).find?
      fun e => decide (PwaEndpointRecord.id e = (deviceId, endpointId))) =
        s.find (deviceId, endpointId) := current_find s.endpoints rfl

/-- What a registry keeps on a run that stays in step. -/
structure EndpointRegistry.Orderly (s : EndpointRegistry) (log : List RuntimeTest) : Prop where
  fits : HistoryFits s.history log
  keeps : Throughout KeepsOrder log
  /-- Only endpoints of paired devices are tested. -/
  paired : ∀ id, s.history.known id ≠ [] → s.devices.contains id.1 = true

theorem EndpointRegistry.orderly_initial (devices : List String) :
    (EndpointRegistry.initial devices).Orderly [] where
  fits := fun _ => remembers_nil
  keeps := throughout_nil
  paired := fun _ h => absurd rfl h

theorem EndpointRegistry.Orderly.snapshot (h : s.Orderly log) (hin : s.InStep) {deviceId : String}
    (hpaired : s.devices.contains deviceId = true)
    {current : PwaEndpointId → Option PwaEndpointRecord}
    (hcurrent : ∀ endpointId, current (deviceId, endpointId) = s.find (deviceId, endpointId))
    {es : List PwaEndpointRecord} (hes : ∀ e ∈ es, e.deviceId = deviceId)
    {s' : EndpointRegistry} (hdevices : s'.devices = s.devices)
    (hhistory : s'.history = (acceptSnapshot current s.history es).1) :
    s'.Orderly (log ++ snapshotTests current s.history es) := by
  have hheld : ∀ e ∈ es, HeldKnown s.history current e.id := by
    intro e he held hsome
    have hid : e.id = (deviceId, e.endpointId) := by rw [← hes e he]; rfl
    rw [hid, hcurrent] at hsome
    rw [hid]
    exact hin _ held hsome
  obtain ⟨hkeeps, hfits⟩ := h.fits.snapshot es hheld
  refine ⟨hhistory ▸ hfits, throughout_append.mpr ⟨h.keeps, hkeeps⟩, fun id hknown => ?_⟩
  rw [hdevices]
  by_cases hold : s.history.known id = []
  · obtain ⟨runtime, hruntime⟩ := List.exists_mem_of_ne_nil _ hknown
    rw [hhistory, mem_known_snapshot, hold] at hruntime
    rcases hruntime with hruntime | ⟨next, hnext, rfl, -⟩
    · cases hruntime
    · show s.devices.contains next.deviceId = true
      rw [hes next hnext]
      exact hpaired
  · exact h.paired id hold

theorem EndpointRegistry.Orderly.control (h : s.Orderly log) (hin : s.InStep)
    (frame : ControlFrame) (now : ℕ) :
    (s.applyControl frame now).Orderly (log ++ s.tests frame now) := by
  unfold EndpointRegistry.applyControl EndpointRegistry.tests
  split_ifs with hpaired
  · rw [List.append_nil]
    exact h
  · rw [Bool.not_eq_true, Bool.not_eq_eq_eq_not, Bool.not_false] at hpaired
    have hupsert : ∀ (deviceId : String) (endpoint : EndpointInfo),
        s.devices.contains deviceId = true → (s.applyUpsert deviceId endpoint now).Orderly
          (log ++ snapshotTests s.find s.history
            [toEndpointRecord deviceId endpoint true now]) := by
      intro deviceId endpoint hdevice
      refine h.snapshot hin hdevice (fun _ => rfl) (fun e he => ?_) ?_ ?_
      · rw [List.mem_singleton.mp he]
        rfl
      · unfold EndpointRegistry.applyUpsert
        dsimp only
        split_ifs <;> rfl
      · unfold EndpointRegistry.applyUpsert
        dsimp only
        split_ifs <;> rfl
    cases frame with
    | endpoints deviceId endpoints =>
      refine h.snapshot hin hpaired (find_current s deviceId) (fun e he => ?_) rfl rfl
      obtain ⟨endpoint, -, rfl⟩ := List.mem_map.mp he
      rfl
    | endpointAnnounced deviceId endpoint => exact hupsert deviceId endpoint hpaired
    | endpointUpdated deviceId endpoint => exact hupsert deviceId endpoint hpaired
    | endpointEnded deviceId endpointId runtimeInstanceId =>
      rw [List.append_nil]
      exact ⟨h.fits, h.keeps, h.paired⟩

theorem EndpointRegistry.orderly_step (state : EndpointRegistry × List RuntimeTest)
    (label : RuntimeLabel) (state' : EndpointRegistry × List RuntimeTest)
    (h : state.1.Orderly state.2) (hin : state.1.InStep)
    (hstep : logged EndpointRegistry.move state label = some state') :
    state'.1.Orderly state'.2 := by
  obtain ⟨s, log⟩ := state
  obtain ⟨s', log'⟩ := state'
  obtain ⟨tests, hmove, hlog⟩ := logged_eq_some.mp hstep
  dsimp only at h hin hmove hlog ⊢
  rw [hlog]
  cases label with
  | control frame now =>
    cases hmove
    exact h.control hin frame now
  | loaded deviceId stored =>
    cases hmove
    rw [List.append_nil]
    exact ⟨h.fits, h.keeps, h.paired⟩
  | written =>
    obtain ⟨t, ht, heq⟩ := Option.map_eq_some_iff.mp hmove
    cases heq
    rw [List.append_nil]
    unfold EndpointRegistry.step at ht
    cases hwrites : s.writes with
    | nil =>
      rw [hwrites] at ht
      cases ht
    | cons w writes =>
      rw [hwrites] at ht
      cases ht
      exact ⟨h.fits, h.keeps, h.paired⟩
  | failed =>
    unfold EndpointRegistry.move at hmove
    dsimp only at hmove
    split at hmove
    · cases hmove
    · cases hmove
      rw [List.append_nil]
      exact ⟨h.fits, h.keeps, h.paired⟩

/-- A memory out of step shuts out the runtime that was accepted last. -/
theorem EndpointRegistry.Orderly.shuts_out (h : s.Orderly log) (hin : ¬s.InStep) :
    ∃ frame, ¬Throughout KeepsOrder (log ++ s.tests frame 0) := by
  unfold EndpointRegistry.InStep at hin
  push Not at hin
  obtain ⟨⟨deviceId, endpointId⟩, e, hfind, hknown, hstale⟩ := hin
  obtain ⟨live, hlive⟩ := Option.isSome_iff_exists.mp (List.getLast?_isSome.mpr hknown)
  have hpaired := h.paired _ hknown
  have htests : s.tests (.endpointAnnounced deviceId ⟨endpointId, live, e.metadata⟩) 0 =
      [⟨(deviceId, endpointId), some e.runtimeInstanceId, live, false⟩] := by
    have hdevice : ¬(!s.devices.contains deviceId) = true := by
      rw [hpaired]
      exact Bool.false_ne_true
    refine (if_neg hdevice).trans ?_
    have hmem : live ∈ s.history.known (deviceId, endpointId) := List.mem_of_getLast? hlive
    have hseen : seenWith (s.history.known (deviceId, endpointId)) (some e.runtimeInstanceId) =
        s.history.known (deviceId, endpointId) ++ [e.runtimeInstanceId] :=
      if_neg fun hin => hstale (List.contains_iff_mem.mp hin)
    have hne : e.runtimeInstanceId ≠ live := fun heq => hstale (heq ▸ hmem)
    have hin : (s.history.known (deviceId, endpointId) ++ [e.runtimeInstanceId]).contains live =
        true := List.contains_iff_mem.mpr (List.mem_append_left _ hmem)
    dsimp only [snapshotTests, toEndpointRecord, PwaEndpointRecord.id]
    rw [acceptEndpointRuntime_eq, hfind]
    dsimp only [tested, Option.map_some, PwaEndpointRecord.id]
    rw [hseen, if_pos hin, List.getLast?_concat]
    simp [hne]
  refine ⟨.endpointAnnounced deviceId ⟨endpointId, live, e.metadata⟩, fun hkeeps => ?_⟩
  rw [htests, throughout_append, throughout_singleton, List.append_nil] at hkeeps
  have haccepted := hkeeps.2.1 ((h.fits _).last.symm.trans hlive)
  cases haccepted

end Frames

/-! ## Every frame at every time -/

/-- A run that stays in step at its every point keeps the order. -/
theorem orderly_of_inStep {devices : List String} {labels : List RuntimeLabel}
    {s : EndpointRegistry} {log : List RuntimeTest}
    (hrun : run (logged EndpointRegistry.move) (.initial devices, []) labels = some (s, log))
    (hin : ∀ before label after state, labels = before ++ label :: after →
      run (logged EndpointRegistry.move) (.initial devices, []) before = some state →
        state.1.InStep) : s.Orderly log :=
  @invariant_along _ _ (logged EndpointRegistry.move) (fun state _ => state.1.InStep)
    (fun state => state.1.Orderly state.2) EndpointRegistry.orderly_step _ _ _
    (EndpointRegistry.orderly_initial devices) (along_of_run hin) hrun

/-- Whichever frame comes at any point of a run, the last accepted runtime of its endpoint is
    accepted and a superseded one is not, exactly if memory is in step at each of them. -/
theorem runtimes_kept_iff (devices : List String) (labels : List RuntimeLabel) :
    (∀ before, before <+: labels → ∀ frame now,
      KeepsRuntimes devices (before ++ [.control frame now])) ↔
    ∀ before s log, before <+: labels →
      run (logged EndpointRegistry.move) (.initial devices, []) before = some (s, log) →
        s.InStep := by
  constructor
  · intro hkeeps before
    induction hlength : before.length using Nat.strong_induction_on generalizing before with
    | _ n ih =>
      intro s log hpre hrun
      have horderly : s.Orderly log := by
        refine orderly_of_inStep hrun ?_
        rintro before' label after ⟨s', log'⟩ heq hrun'
        have hpre' : before' <+: before := ⟨label :: after, heq.symm⟩
        refine ih before'.length ?_ before' rfl s' log' (hpre'.trans hpre) hrun'
        rw [← hlength, heq, List.length_append, List.length_cons]
        omega
      by_contra hout
      obtain ⟨frame, hbroken⟩ := horderly.shuts_out hout
      refine hbroken (hkeeps before hpre frame 0 (s.applyControl frame 0) _ ?_)
      exact run_snoc hrun (logged_eq_some.mpr ⟨_, rfl, rfl⟩)
  · intro hin before hpre frame now s log hrun
    refine (orderly_of_inStep hrun ?_).keeps
    rintro before' label after ⟨s', log'⟩ heq hrun'
    refine hin before' s' log' (List.IsPrefix.trans ?_ hpre) hrun'
    rcases List.eq_nil_or_concat after with rfl | ⟨after, last, rfl⟩
    · exact (List.append_inj' heq rfl).1 ▸ List.prefix_refl _
    · rw [List.concat_eq_append, ← List.cons_append, ← List.append_assoc] at heq
      exact ⟨_, (List.append_inj' heq rfl).1.symm⟩

/-- The runtime that the stored record of an endpoint had. -/
private def storedOld : PwaEndpointRecord :=
  toEndpointRecord "d" (exampleEndpoint "e" "old") true 0

/-- The live runtime is announced, the stored endpoints arrive before its record is written,
    and its next frame is rejected. -/
theorem live_runtime_locked_out :
    ¬∀ devices labels, KeepsRuntimes devices labels := by
  intro hclaim
  have hrun : (run (logged EndpointRegistry.move) (.initial ["d"], [])
      [.control (.endpointAnnounced "d" (exampleEndpoint "e" "live")) 1, .loaded "d" [storedOld],
        .control (.endpointUpdated "d" (exampleEndpoint "e" "live")) 2]).map Prod.snd =
      some [⟨("d", "e"), none, "live", true⟩, ⟨("d", "e"), some "old", "live", false⟩] := by
    decide +kernel
  obtain ⟨⟨s, log⟩, hstate, rfl⟩ := Option.map_eq_some_iff.mp hrun
  have hlive := (hclaim _ _ s _ hstate [⟨("d", "e"), none, "live", true⟩] _ [] rfl).1
  exact Bool.false_ne_true (hlive rfl)

/-! ## A load before the first frame -/

section LoadFirst

variable {s : EndpointRegistry} {base : List PwaEndpointRecord}

/-- The records in memory and in the queued writes are of known runtimes, or as they were
    loaded where none is known; and no loaded endpoint is lost. -/
structure EndpointRegistry.Loaded (s : EndpointRegistry) (base : List PwaEndpointRecord) :
    Prop where
  known : ∀ l ∈ s.lists, ∀ e ∈ l, e.runtimeInstanceId ∈ s.history.known e.id ∨
    s.history.known e.id = [] ∧
      ∃ b ∈ base, b.id = e.id ∧ b.runtimeInstanceId = e.runtimeInstanceId
  held : ∀ b ∈ base, b.id ∈ s.endpoints.map PwaEndpointRecord.id
  written : ∀ w ∈ s.writes, ∀ b ∈ base, b.deviceId = w.1 → b.id ∈ w.2.map PwaEndpointRecord.id

theorem EndpointRegistry.find_mem {id : PwaEndpointId} {e : PwaEndpointRecord}
    (h : s.find id = some e) : e ∈ s.endpoints ∧ e.id = id :=
  ⟨List.mem_of_find?_eq_some h, by simpa using List.find?_some h⟩

theorem EndpointRegistry.Loaded.inStep (h : s.Loaded base) : s.InStep := by
  intro id e hfind
  obtain ⟨hmem, rfl⟩ := EndpointRegistry.find_mem hfind
  rcases h.known _ List.mem_cons_self e hmem with hin | ⟨hnone, -⟩
  · exact Or.inr hin
  · exact Or.inl hnone

theorem EndpointRegistry.loaded_load (devices : List String) (deviceId : String)
    (stored : List PwaEndpointRecord) : ∃ s, (EndpointRegistry.initial devices).move
      (.loaded deviceId stored) = some (s, []) ∧ s.Loaded s.endpoints ∧
        (s.endpoints.map PwaEndpointRecord.id).Nodup := by
  refine ⟨_, rfl, ⟨fun l hl e he => Or.inr ⟨rfl, ?_⟩, fun b hb => List.mem_map_of_mem hb,
    fun w hw => by cases hw⟩, nodup_mergeEndpoints _ _⟩
  obtain rfl := List.mem_singleton.mp hl
  exact ⟨e, he, rfl, rfl⟩

/-- The first test of an endpoint sees the record that was loaded for it. -/
theorem EndpointRegistry.Loaded.grow (h : s.Loaded base)
    (hnodup : (base.map PwaEndpointRecord.id).Nodup)
    {current : PwaEndpointId → Option PwaEndpointRecord} {es : List PwaEndpointRecord}
    (hcurrent : ∀ e ∈ es, current e.id = s.find e.id) :
    ∀ l ∈ s.lists, ∀ e ∈ l,
      e.runtimeInstanceId ∈ (acceptSnapshot current s.history es).1.known e.id ∨
        (acceptSnapshot current s.history es).1.known e.id = [] ∧
          ∃ b ∈ base, b.id = e.id ∧ b.runtimeInstanceId = e.runtimeInstanceId := by
  intro l hl e he
  rcases h.known l hl e he with hin | ⟨hnone, b, hb, hid, hruntime⟩
  · exact Or.inl (mem_known_snapshot.mpr (Or.inl hin))
  · rcases List.eq_nil_or_concat ((acceptSnapshot current s.history es).1.known e.id) with
      hempty | ⟨start, last, hknown⟩
    · exact Or.inr ⟨hempty, b, hb, hid, hruntime⟩
    · left
      have hlast : last ∈ (acceptSnapshot current s.history es).1.known e.id := by
        rw [hknown]
        simp
      obtain ⟨next, hnext, hnextId, -⟩ := (mem_known_snapshot.mp hlast).resolve_left (by
        rw [hnone]
        exact List.not_mem_nil)
      obtain ⟨held, hheld, hheldId⟩ := List.mem_map.mp (h.held b hb)
      have hsome : (s.find e.id).isSome = true := by
        refine List.find?_isSome.mpr ⟨held, hheld, ?_⟩
        rw [hheldId, hid]
        exact decide_eq_true rfl
      obtain ⟨found, hfound⟩ := Option.isSome_iff_exists.mp hsome
      obtain ⟨hfoundMem, hfoundId⟩ := EndpointRegistry.find_mem hfound
      have hfoundRuntime : found.runtimeInstanceId = e.runtimeInstanceId := by
        rcases h.known _ List.mem_cons_self found hfoundMem with hin | ⟨-, b', hb', hid', hruntime'⟩
        · rw [hfoundId, hnone] at hin
          cases hin
        · have hbb : b' = b := List.inj_on_of_nodup_map hnodup hb' hb
            (hid'.trans (hfoundId.trans hid.symm))
          rw [← hruntime', hbb, hruntime]
      refine mem_known_snapshot.mpr (Or.inr ⟨next, hnext, hnextId,
        Or.inl ⟨found, ?_, hfoundRuntime⟩⟩)
      rw [hnextId, hcurrent next hnext, ← hnextId]
      exact hfound

/-- A write of records from memory and of accepted ones, which leaves no loaded endpoint out. -/
theorem EndpointRegistry.Loaded.persist (h : s.Loaded base) {history : RuntimeHistory}
    (hgrow : ∀ l ∈ s.lists, ∀ e ∈ l, e.runtimeInstanceId ∈ history.known e.id ∨
      history.known e.id = [] ∧
        ∃ b ∈ base, b.id = e.id ∧ b.runtimeInstanceId = e.runtimeInstanceId)
    {deviceId : String} {next : List PwaEndpointRecord}
    (hnext : ∀ e ∈ next, e.runtimeInstanceId ∈ history.known e.id ∨
      ∃ e' ∈ s.endpoints, e'.id = e.id ∧ e'.runtimeInstanceId = e.runtimeInstanceId)
    (hids : ∀ b ∈ base, b.deviceId = deviceId → b.id ∈ next.map PwaEndpointRecord.id) :
    (({ s with history } : EndpointRegistry).persistEndpoints deviceId next).Loaded base where
  known := by
    intro l hl e he
    have hcases : l ∈ s.lists ∨ l = next := by
      simpa [EndpointRegistry.lists, EndpointRegistry.persistEndpoints, or_assoc] using hl
    rcases hcases with hl | rfl
    · exact hgrow l hl e he
    · rcases hnext e he with hin | ⟨e', he', hid, hruntime⟩
      · exact Or.inl hin
      · have hknown := hgrow _ List.mem_cons_self e' he'
        rw [hid, hruntime] at hknown
        exact hknown
  held := h.held
  written := by
    intro w hw b hb hdevice
    rcases List.mem_append.mp hw with hw | hw
    · exact h.written w hw b hb hdevice
    · rw [List.mem_singleton.mp hw] at hdevice ⊢
      exact hids b hb hdevice

theorem EndpointRegistry.Loaded.snapshot (h : s.Loaded base)
    (hnodup : (base.map PwaEndpointRecord.id).Nodup) (deviceId : String)
    (endpoints : List EndpointInfo) (now : ℕ) :
    (s.applySnapshot deviceId endpoints now).Loaded base := by
  unfold EndpointRegistry.applySnapshot
  dsimp only
  generalize hsnap : (endpoints.map fun endpoint => toEndpointRecord deviceId endpoint true now) =
    snapshot
  have hdevice : ∀ e ∈ snapshot, e.id = (deviceId, e.endpointId) := by
    intro e he
    obtain ⟨endpoint, -, rfl⟩ := List.mem_map.mp (hsnap ▸ he)
    rfl
  generalize hcurrent : (s.endpoints.filter fun e => decide (e.deviceId = deviceId)) = current
  have hmem : ∀ e ∈ current, e ∈ s.endpoints := fun e he =>
    (List.mem_filter.mp (hcurrent ▸ he)).1
  have hgrow := @EndpointRegistry.Loaded.grow s base h hnodup
    (fun k => current.find? fun e => decide (PwaEndpointRecord.id e = k)) snapshot fun e he => by
      rw [← hcurrent, hdevice e he]
      exact find_current s deviceId e.endpointId
  have hsub := accepted_sublist
    (fun k => current.find? fun e => decide (PwaEndpointRecord.id e = k)) s.history snapshot
  generalize hresult : acceptSnapshot
    (fun k => current.find? fun e => decide (PwaEndpointRecord.id e = k)) s.history snapshot =
      result at *
  refine h.persist hgrow (fun e he => ?_) (fun b hb hbDevice => ?_)
  · rcases List.mem_append.mp he with he | he
    · rcases List.mem_append.mp he with he | he
      · exact Or.inr ⟨e, hmem e (List.mem_filter.mp he).1, rfl, rfl⟩
      · left
        rw [← hresult]
        exact mem_known_snapshot.mpr (Or.inr ⟨e, hsub.subset he, rfl, Or.inr rfl⟩)
    · obtain ⟨e', he', rfl⟩ := List.mem_map.mp he
      exact Or.inr ⟨e', hmem e' (List.mem_filter.mp he').1, rfl, rfl⟩
  · obtain ⟨e, he, hid⟩ := List.mem_map.mp (h.held b hb)
    have hin : e ∈ current := by
      rw [← hcurrent]
      exact List.mem_filter.mpr ⟨he, decide_eq_true ((congrArg Prod.fst hid).trans hbDevice)⟩
    rw [List.map_append, List.map_append, List.mem_append, List.mem_append, ← hid]
    by_cases hnamed : (snapshot.map PwaEndpointRecord.id).contains e.id = true
    · left
      by_cases haccepted : (result.2.map PwaEndpointRecord.id).contains e.id = true
      · exact Or.inr (List.contains_iff_mem.mp haccepted)
      · refine Or.inl (List.mem_map_of_mem (List.mem_filter.mpr ⟨hin, ?_⟩))
        rw [hnamed, Bool.eq_false_of_not_eq_true haccepted]
        rfl
    · refine Or.inr (List.mem_map.mpr ⟨e.offline now, List.mem_map_of_mem ?_, rfl⟩)
      refine List.mem_filter.mpr ⟨hin, ?_⟩
      rw [Bool.eq_false_of_not_eq_true hnamed]
      rfl

theorem EndpointRegistry.Loaded.upsert (h : s.Loaded base)
    (hnodup : (base.map PwaEndpointRecord.id).Nodup) (deviceId : String)
    (endpoint : EndpointInfo) (now : ℕ) : (s.applyUpsert deviceId endpoint now).Loaded base := by
  generalize hnext : toEndpointRecord deviceId endpoint true now = next
  have hgrow := @EndpointRegistry.Loaded.grow s base h hnodup s.find [next] fun e _ => rfl
  have hhistory : (acceptEndpointRuntime s.history (s.find next.id) next).1 =
      (acceptSnapshot s.find s.history [next]).1 := rfl
  rw [← hhistory] at hgrow
  unfold EndpointRegistry.applyUpsert
  dsimp only
  rw [hnext]
  split_ifs with haccepted
  · exact ⟨hgrow, h.held, h.written⟩
  · refine h.persist hgrow (fun e he => ?_) (fun b hb hdevice => ?_)
    · rcases List.mem_append.mp he with he | he
      · exact Or.inr ⟨e, (List.mem_filter.mp he).1, rfl, rfl⟩
      · rw [List.mem_singleton.mp he]
        exact Or.inl (mem_known_accept.mpr (Or.inr ⟨rfl, Or.inr rfl⟩))
    · rw [List.map_append, List.mem_append]
      obtain ⟨e, he, hid⟩ := List.mem_map.mp (h.held b hb)
      by_cases hsame : e.id = next.id
      · right
        rw [← hid, hsame]
        simp
      · left
        rw [← hid]
        exact List.mem_map_of_mem (List.mem_filter.mpr ⟨he, decide_eq_true hsame⟩)

theorem EndpointRegistry.Loaded.control (h : s.Loaded base)
    (hnodup : (base.map PwaEndpointRecord.id).Nodup) (frame : ControlFrame) (now : ℕ) :
    (s.applyControl frame now).Loaded base := by
  unfold EndpointRegistry.applyControl
  split_ifs
  · exact h
  · cases frame with
    | endpoints deviceId endpoints => exact h.snapshot hnodup deviceId endpoints now
    | endpointAnnounced deviceId endpoint => exact h.upsert hnodup deviceId endpoint now
    | endpointUpdated deviceId endpoint => exact h.upsert hnodup deviceId endpoint now
    | endpointEnded deviceId endpointId runtimeInstanceId =>
      refine ⟨fun l hl e he => ?_, fun b hb => ?_, h.written⟩
      · rcases List.mem_cons.mp hl with rfl | hl
        · obtain ⟨e', he', rfl⟩ := List.mem_map.mp he
          rw [id_endRecord, runtime_endRecord]
          exact h.known _ List.mem_cons_self e' he'
        · exact h.known l (List.mem_cons_of_mem _ hl) e he
      · obtain ⟨e, he, hid⟩ := List.mem_map.mp (h.held b hb)
        exact List.mem_map.mpr ⟨_, List.mem_map_of_mem he, (id_endRecord e).trans hid⟩

theorem mem_of_mergeEndpoints {stored preferred : List PwaEndpointRecord} {e : PwaEndpointRecord}
    (h : e ∈ mergeEndpoints stored preferred) : e ∈ stored ++ preferred := by
  have hlast := lastWith_of_mem (nodup_mergeEndpoints stored preferred) h
  rw [lastWith_mergeEndpoints] at hlast
  exact mem_of_lastWith hlast

theorem mem_ids_mergeEndpoints {stored preferred : List PwaEndpointRecord} {id : PwaEndpointId} :
    id ∈ (mergeEndpoints stored preferred).map PwaEndpointRecord.id ↔
      id ∈ (stored ++ preferred).map PwaEndpointRecord.id := by
  rw [← lastWith_isSome, lastWith_mergeEndpoints, lastWith_isSome]

/-- The oldest queued write leaves the queue. -/
theorem EndpointRegistry.Loaded.dequeue (h : s.Loaded base) {w : Write} {writes : List Write}
    (hwrites : s.writes = w :: writes) : ({ s with writes } : EndpointRegistry).Loaded base where
  known := by
    intro l hl
    refine h.known l ?_
    rcases List.mem_cons.mp hl with rfl | hl
    · exact List.mem_cons_self
    · rw [EndpointRegistry.lists, hwrites]
      exact List.mem_cons_of_mem _ (List.mem_cons_of_mem _ hl)
  held := h.held
  written := fun w' hw' => h.written w' (hwrites ▸ List.mem_cons_of_mem _ hw')

theorem EndpointRegistry.Loaded.write (h : s.Loaded base) {w : Write} {writes : List Write}
    (hwrites : s.writes = w :: writes) :
    ({ s with
      endpoints := mergeEndpoints (s.endpoints.filter fun e => decide (e.deviceId ≠ w.1)) w.2
      writes } : EndpointRegistry).Loaded base := by
  have hdequeued := h.dequeue hwrites
  have hw : w ∈ s.writes := hwrites ▸ List.mem_cons_self
  refine ⟨fun l hl e he => ?_, fun b hb => ?_, hdequeued.written⟩
  · rcases List.mem_cons.mp hl with rfl | hl
    · rcases List.mem_append.mp (mem_of_mergeEndpoints he) with he | he
      · exact h.known _ List.mem_cons_self e (List.mem_filter.mp he).1
      · exact h.known w.2 (List.mem_cons_of_mem _ (List.mem_map_of_mem hw)) e he
    · exact hdequeued.known l (List.mem_cons_of_mem _ hl) e he
  · rw [mem_ids_mergeEndpoints, List.map_append, List.mem_append]
    by_cases hdevice : b.deviceId = w.1
    · exact Or.inr (h.written w hw b hb hdevice)
    · left
      obtain ⟨e, he, hid⟩ := List.mem_map.mp (h.held b hb)
      have heDevice : e.deviceId = b.deviceId := congrArg Prod.fst hid
      exact List.mem_map.mpr ⟨e, List.mem_filter.mpr ⟨he, by simpa [heDevice] using hdevice⟩, hid⟩

theorem EndpointRegistry.Loaded.move (h : s.Loaded base)
    (hnodup : (base.map PwaEndpointRecord.id).Nodup) {label : RuntimeLabel}
    (hlabel : ∀ deviceId stored, label ≠ .loaded deviceId stored) {s' : EndpointRegistry}
    {tests : List RuntimeTest} (hmove : s.move label = some (s', tests)) : s'.Loaded base := by
  cases label with
  | control frame now =>
    cases hmove
    exact h.control hnodup frame now
  | loaded deviceId stored => exact absurd rfl (hlabel deviceId stored)
  | written =>
    obtain ⟨t, ht, heq⟩ := Option.map_eq_some_iff.mp hmove
    cases heq
    unfold EndpointRegistry.step at ht
    cases hwrites : s.writes with
    | nil =>
      rw [hwrites] at ht
      cases ht
    | cons w writes =>
      rw [hwrites] at ht
      cases ht
      exact h.write hwrites
  | failed =>
    unfold EndpointRegistry.move at hmove
    dsimp only at hmove
    split at hmove
    · cases hmove
    · rename_i w writes hwrites
      cases hmove
      exact h.dequeue hwrites

end LoadFirst

/-- When the stored endpoints arrive before the first frame, memory stays in step, whenever
    the queued writes end. -/
theorem inStep_load_first {devices : List String} {deviceId : String}
    {stored : List PwaEndpointRecord} {labels : List RuntimeLabel} {s : EndpointRegistry}
    {log : List RuntimeTest} (hlabels : ∀ deviceId stored, .loaded deviceId stored ∉ labels)
    (hrun : run (logged EndpointRegistry.move) (.initial devices, [])
      (.loaded deviceId stored :: labels) = some (s, log)) : s.InStep := by
  obtain ⟨⟨t, log'⟩, hload, hrest⟩ := run_cons_eq_some.mp hrun
  obtain ⟨t', hmove, hloaded, hnodup⟩ := EndpointRegistry.loaded_load devices deviceId stored
  obtain ⟨tests, hmove', -⟩ := logged_eq_some.mp hload
  cases hmove.symm.trans hmove'
  have hquiet : Along (logged EndpointRegistry.move)
      (fun _ label => ∀ deviceId stored, label ≠ .loaded deviceId stored) (t, log') labels := by
    refine along_of_run fun before label after _ heq _ d l hlabel => hlabels d l ?_
    rw [heq, hlabel]
    exact List.mem_append_right _ List.mem_cons_self
  have hkept : s.Loaded t.endpoints := @invariant_along _ _ (logged EndpointRegistry.move) _
    (fun state => state.1.Loaded t.endpoints)
    (fun state label state' h hlabel hstep => by
      obtain ⟨tests, hmove, -⟩ := logged_eq_some.mp hstep
      exact h.move hnodup hlabel hmove)
    (t, log') (s, log) labels hloaded hquiet hrest
  exact hkept.inStep

end RemotePi.Pwa
