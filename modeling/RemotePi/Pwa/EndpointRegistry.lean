import RemotePi.Lib.Keyed
import RemotePi.Lib.Trace
import RemotePi.Pwa.Protocol

/-!
# The endpoint registry of the browser

Model of `useEndpointRegistry` (`pwa/src/lib/pwa/use-endpoint-registry.ts`): the
records held in memory, the runtimes seen of each endpoint, and the chain of
IndexedDB writes. A write refreshes the memory when it completes; an `ended` is
applied to the memory at once.

Results:
* `accept_congr`: whether a runtime is accepted depends on what was seen of it.
* `Tracks.control`, `Tracks.written`: what the last queued write will leave is the
  fold of the frames, as long as every frame arrives settled.
* `drained_eq_fold`: hence so is the memory once the writes are drained.
* `overlapping_announcements`: without that condition an endpoint is lost.
-/

namespace RemotePi.Pwa

open RemotePi.Lib

/-! ## Records -/

/-- `makePwaEndpointId` (`db.ts`, lines 122–124): equal exactly when both parts are. -/
abbrev PwaEndpointId := String × String

/-- `PwaEndpointRecord` (`db.ts`, lines 28–44), with the metadata in one field. -/
structure PwaEndpointRecord where
  deviceId : String
  endpointId : String
  runtimeInstanceId : String
  metadata : EndpointMetadata
  online : Bool
  updatedAt : ℕ
deriving DecidableEq, Repr

def PwaEndpointRecord.id (e : PwaEndpointRecord) : PwaEndpointId := (e.deviceId, e.endpointId)

/-- The copy of a record that is marked offline. -/
def PwaEndpointRecord.offline (e : PwaEndpointRecord) (now : ℕ) : PwaEndpointRecord :=
  { e with online := false, updatedAt := now }

@[simp] theorem PwaEndpointRecord.id_offline (e : PwaEndpointRecord) (now : ℕ) :
    (e.offline now).id = e.id := rfl

@[simp] theorem PwaEndpointRecord.runtime_offline (e : PwaEndpointRecord) (now : ℕ) :
    (e.offline now).runtimeInstanceId = e.runtimeInstanceId := rfl

/-- `toEndpointRecord` (lines 28–31). -/
def toEndpointRecord (deviceId : String) (endpoint : EndpointInfo) (online : Bool) (now : ℕ) :
    PwaEndpointRecord :=
  ⟨deviceId, endpoint.endpointId, endpoint.runtimeInstanceId, endpoint.metadata, online, now⟩

/-- The runtimes seen of each endpoint, oldest first. -/
abbrev RuntimeHistory := OrderedMap PwaEndpointId (List String)

def RuntimeHistory.known (history : RuntimeHistory) (id : PwaEndpointId) : List String :=
  (history.get? id).getD []

/-- What is known once the current record has been seen (`runtime.ts`, lines 55–56). -/
def knownWith (history : RuntimeHistory) (current : Option PwaEndpointRecord)
    (id : PwaEndpointId) : List String :=
  match current with
  | none => history.known id
  | some c =>
    if (history.known id).contains c.runtimeInstanceId then history.known id
    else history.known id ++ [c.runtimeInstanceId]

/-- `acceptEndpointRuntime` (`runtime.ts`, lines 50–62). -/
def acceptEndpointRuntime (history : RuntimeHistory) (current : Option PwaEndpointRecord)
    (next : PwaEndpointRecord) : RuntimeHistory × Bool :=
  let known := knownWith history current next.id
  if known.contains next.runtimeInstanceId then
    (history.set next.id known, known.getLast? = some next.runtimeInstanceId)
  else (history.set next.id (known ++ [next.runtimeInstanceId]), true)

/-- The accepted records of a snapshot (lines 104–108). -/
def acceptSnapshot (current : PwaEndpointId → Option PwaEndpointRecord) :
    RuntimeHistory → List PwaEndpointRecord → RuntimeHistory × List PwaEndpointRecord
  | history, [] => (history, [])
  | history, e :: es =>
    let (history, accepted) := acceptEndpointRuntime history (current e.id) e
    let (history, rest) := acceptSnapshot current history es
    (history, if accepted then e :: rest else rest)

/-- `mergeEndpoints` (`runtime.ts`, lines 44–47). -/
def mergeEndpoints (base preferred : List PwaEndpointRecord) : List PwaEndpointRecord :=
  (collect PwaEndpointRecord.id (base ++ preferred)).values.mergeSort
    fun a b => a.updatedAt ≤ b.updatedAt

/-! ## The hook -/

/-- A queued write: the device and its next records. -/
abbrev Write := String × List PwaEndpointRecord

/-- `endpoints` is `endpointsRef.current`; `writes` the operations on
    `endpointPersistChainRef`, oldest first. -/
structure EndpointRegistry where
  devices : List String
  endpoints : List PwaEndpointRecord
  history : RuntimeHistory
  writes : List Write

/-- The memory after the records stored for the active device are loaded (lines 63–69). -/
def EndpointRegistry.load (devices : List String) (stored : List PwaEndpointRecord) :
    EndpointRegistry :=
  ⟨devices, mergeEndpoints (stored.map fun e => { e with online := false }) [], .empty, []⟩

/-- `persistEndpoints` (lines 76–90) puts its operation on the chain. -/
def EndpointRegistry.persistEndpoints (s : EndpointRegistry) (deviceId : String)
    (next : List PwaEndpointRecord) : EndpointRegistry :=
  { s with writes := s.writes ++ [(deviceId, next)] }

/-- The record held of an endpoint. -/
def EndpointRegistry.find (s : EndpointRegistry) (id : PwaEndpointId) :
    Option PwaEndpointRecord :=
  s.endpoints.find? fun e => decide (PwaEndpointRecord.id e = id)

/-- The snapshot branch of `applyControl` (lines 100–114). -/
def EndpointRegistry.applySnapshot (s : EndpointRegistry) (deviceId : String)
    (endpoints : List EndpointInfo) (now : ℕ) : EndpointRegistry :=
  let snapshot := endpoints.map fun endpoint => toEndpointRecord deviceId endpoint true now
  let snapshotIds := snapshot.map PwaEndpointRecord.id
  let current := s.endpoints.filter fun e => decide (e.deviceId = deviceId)
  let result := acceptSnapshot
    (fun k => current.find? fun e => decide (PwaEndpointRecord.id e = k)) s.history snapshot
  let acceptedIds := result.2.map PwaEndpointRecord.id
  let retained := current.filter fun e => snapshotIds.contains e.id && !acceptedIds.contains e.id
  let stale := (current.filter fun e => !snapshotIds.contains e.id).map fun e => e.offline now
  { s with history := result.1 }.persistEndpoints deviceId (retained ++ result.2 ++ stale)

/-- The branch of `endpoint_announced` and `endpoint_updated` (lines 115–121). -/
def EndpointRegistry.applyUpsert (s : EndpointRegistry) (deviceId : String)
    (endpoint : EndpointInfo) (now : ℕ) : EndpointRegistry :=
  let next := toEndpointRecord deviceId endpoint true now
  let result := acceptEndpointRuntime s.history (s.find next.id) next
  if !result.2 then { s with history := result.1 }
  else
    { s with history := result.1 }.persistEndpoints deviceId
      ((s.endpoints.filter fun e => decide (PwaEndpointRecord.id e ≠ next.id)) ++ [next])

/-- The record after `endpoint_ended` (line 122). -/
def endRecord (deviceId endpointId runtimeInstanceId : String) (now : ℕ)
    (e : PwaEndpointRecord) : PwaEndpointRecord :=
  if e.deviceId = deviceId ∧ e.endpointId = endpointId ∧ e.runtimeInstanceId = runtimeInstanceId
  then e.offline now
  else e

/-- The device a control frame is about. -/
def ControlFrame.deviceId : ControlFrame → String
  | .endpoints deviceId _ | .endpointAnnounced deviceId _ | .endpointUpdated deviceId _
  | .endpointEnded deviceId _ _ => deviceId

/-- `applyControl` (lines 97–123). -/
def EndpointRegistry.applyControl (s : EndpointRegistry) (frame : ControlFrame) (now : ℕ) :
    EndpointRegistry :=
  if !s.devices.contains frame.deviceId then s
  else
    match frame with
    | .endpoints deviceId endpoints => s.applySnapshot deviceId endpoints now
    | .endpointAnnounced deviceId endpoint | .endpointUpdated deviceId endpoint =>
      s.applyUpsert deviceId endpoint now
    | .endpointEnded deviceId endpointId runtimeInstanceId =>
      { s with
        endpoints := s.endpoints.map (endRecord deviceId endpointId runtimeInstanceId now) }

inductive RegistryLabel where
  | control (frame : ControlFrame) (now : ℕ)
  /-- The oldest queued write completes (line 86). -/
  | written
deriving DecidableEq, Repr

def EndpointRegistry.step (s : EndpointRegistry) : RegistryLabel → Option EndpointRegistry
  | .control frame now => some (s.applyControl frame now)
  | .written =>
    match s.writes with
    | [] => none
    | (deviceId, next) :: writes =>
      some { s with
        endpoints := mergeEndpoints
          (s.endpoints.filter fun e => decide (e.deviceId ≠ deviceId)) next
        writes := writes }

/-! ## The fold of the frames -/

/-- The records of the device after frames applied one after another. -/
structure FrameFold where
  held : PwaEndpointId → Option PwaEndpointRecord
  history : RuntimeHistory

/-- One frame: `announced` and `updated` upsert when the runtime is accepted, `ended`
    marks the endpoint offline when the runtime matches, and a snapshot replaces the
    endpoints it names by the accepted ones and marks the others offline. -/
def FrameFold.apply (f : FrameFold) (frame : ControlFrame) (now : ℕ) : FrameFold :=
  match frame with
  | .endpoints deviceId endpoints =>
    let snapshot := endpoints.map fun endpoint => toEndpointRecord deviceId endpoint true now
    let result := acceptSnapshot f.held f.history snapshot
    { held := fun id =>
        match lastWith PwaEndpointRecord.id id result.2 with
        | some e => some e
        | none =>
          if id ∈ snapshot.map PwaEndpointRecord.id then f.held id
          else (f.held id).map fun e => e.offline now
      history := result.1 }
  | .endpointAnnounced deviceId endpoint | .endpointUpdated deviceId endpoint =>
    let next := toEndpointRecord deviceId endpoint true now
    let result := acceptEndpointRuntime f.history (f.held next.id) next
    { held := if result.2 then Function.update f.held next.id (some next) else f.held
      history := result.1 }
  | .endpointEnded deviceId endpointId runtimeInstanceId =>
    { f with
      held := fun id => (f.held id).map (endRecord deviceId endpointId runtimeInstanceId now) }

/-- The frames of a run with their arrival times. -/
def framesOf (labels : List RegistryLabel) : List (ControlFrame × ℕ) :=
  labels.filterMap fun label =>
    match label with
    | .control frame now => some (frame, now)
    | .written => none

/-- The fold of frames, from what is held at first. -/
def foldFrames (f : FrameFold) (frames : List (ControlFrame × ℕ)) : FrameFold :=
  frames.foldl (fun f frame => f.apply frame.1 frame.2) f

/-- What a registry holds without any write under way. -/
def EndpointRegistry.fold (s : EndpointRegistry) : FrameFold := ⟨s.find, s.history⟩

/-! ## When a frame arrives settled -/

/-- The two lists hold the same records of the device, but for the endpoints of `ids`. -/
def agreeExcept (deviceId : String) (ids : List PwaEndpointId)
    (l l' : List PwaEndpointRecord) : Bool :=
  ((l ++ l').map PwaEndpointRecord.id).all fun id =>
    id.1 ≠ deviceId || ids.contains id ||
      lastWith PwaEndpointRecord.id id l = lastWith PwaEndpointRecord.id id l'

/-- The endpoints that the write of a frame replaces: none when it queues no write. -/
def EndpointRegistry.replaced (s : EndpointRegistry) (frame : ControlFrame) (now : ℕ) :
    Option (List PwaEndpointId) :=
  match frame with
  | .endpoints deviceId endpoints =>
    let snapshot := endpoints.map fun endpoint => toEndpointRecord deviceId endpoint true now
    some ((acceptSnapshot s.find s.history snapshot).2.map PwaEndpointRecord.id)
  | .endpointAnnounced deviceId endpoint | .endpointUpdated deviceId endpoint =>
    let next := toEndpointRecord deviceId endpoint true now
    if (acceptEndpointRuntime s.history (s.find next.id) next).2 then some [next.id] else none
  | .endpointEnded _ _ _ => none

/-- A frame that arrives while writes are queued meets a memory that already agrees
    with the last of them on the endpoints it does not replace; an `ended` does not
    match a record of the last queued write. -/
def settled (s : EndpointRegistry) : RegistryLabel → Bool
  | .written => true
  | .control frame now =>
    match s.writes.getLast? with
    | none => true
    | some (_, next) =>
      match frame with
      | .endpointEnded deviceId endpointId runtimeInstanceId =>
        (lastWith PwaEndpointRecord.id (deviceId, endpointId) next).all fun e =>
          e.runtimeInstanceId ≠ runtimeInstanceId
      | frame =>
        match s.replaced frame now with
        | none => true
        | some ids => agreeExcept frame.deviceId ids s.endpoints next

theorem lastWith_eq_of_agreeExcept {deviceId : String} {ids : List PwaEndpointId}
    {l l' : List PwaEndpointRecord} (h : agreeExcept deviceId ids l l' = true)
    {id : PwaEndpointId} (hd : id.1 = deviceId) (hid : id ∉ ids) :
    lastWith PwaEndpointRecord.id id l = lastWith PwaEndpointRecord.id id l' := by
  by_cases hm : id ∈ (l ++ l').map PwaEndpointRecord.id
  · have := List.all_eq_true.mp h id hm
    simpa [hd, hid] using this
  · have hnone : ∀ l'' : List PwaEndpointRecord, l'' ⊆ l ++ l' →
        lastWith PwaEndpointRecord.id id l'' = none := fun l'' hsub =>
      lastWith_eq_none.mpr fun e he hk => hm (hk ▸ List.mem_map_of_mem (hsub he))
    rw [hnone l (List.subset_append_left l l'), hnone l' (List.subset_append_right l l')]

/-! ## Acceptance -/

/-- The two records have one runtime, or both runtimes have been seen. -/
def SeenAlike (history : RuntimeHistory) (id : PwaEndpointId)
    (c c' : Option PwaEndpointRecord) : Prop :=
  c.map PwaEndpointRecord.runtimeInstanceId = c'.map PwaEndpointRecord.runtimeInstanceId ∨
    (∀ e ∈ c, e.runtimeInstanceId ∈ history.known id) ∧
      ∀ e ∈ c', e.runtimeInstanceId ∈ history.known id

theorem knownWith_of_seen {history : RuntimeHistory} {id : PwaEndpointId}
    {c : Option PwaEndpointRecord} (h : ∀ e ∈ c, e.runtimeInstanceId ∈ history.known id) :
    knownWith history c id = history.known id := by
  cases c with
  | none => rfl
  | some e => exact if_pos (List.contains_iff_mem.mpr (h e rfl))

theorem knownWith_congr {history : RuntimeHistory} {id : PwaEndpointId}
    {c c' : Option PwaEndpointRecord} (h : SeenAlike history id c c') :
    knownWith history c id = knownWith history c' id := by
  rcases h with h | ⟨h, h'⟩
  · cases c with
    | none =>
      cases c' with
      | none => rfl
      | some e' => cases h
    | some e =>
      cases c' with
      | none => cases h
      | some e' => simp only [knownWith, Option.some.inj h]
  · rw [knownWith_of_seen h, knownWith_of_seen h']

theorem accept_congr {history : RuntimeHistory} {c c' : Option PwaEndpointRecord}
    {next : PwaEndpointRecord} (h : SeenAlike history next.id c c') :
    acceptEndpointRuntime history c next = acceptEndpointRuntime history c' next := by
  rw [acceptEndpointRuntime, acceptEndpointRuntime, knownWith_congr h]

theorem mem_knownWith {history : RuntimeHistory} {id : PwaEndpointId}
    {c : Option PwaEndpointRecord} {rt : String} :
    rt ∈ knownWith history c id ↔
      rt ∈ history.known id ∨ ∃ e ∈ c, e.runtimeInstanceId = rt := by
  cases c with
  | none => simp [knownWith]
  | some e =>
    simp only [knownWith]
    split_ifs with h
    · have hm := List.contains_iff_mem.mp h
      simp only [Option.mem_def, Option.some.injEq, exists_eq_left']
      exact ⟨Or.inl, fun h => h.elim (fun h => h) fun h => h ▸ hm⟩
    · simp [eq_comm]

/-- What is known after an acceptance. -/
theorem mem_known_accept {history : RuntimeHistory} {c : Option PwaEndpointRecord}
    {next : PwaEndpointRecord} {id : PwaEndpointId} {rt : String} :
    rt ∈ RuntimeHistory.known (acceptEndpointRuntime history c next).1 id ↔
      rt ∈ history.known id ∨
        id = next.id ∧ ((∃ e ∈ c, e.runtimeInstanceId = rt) ∨ rt = next.runtimeInstanceId) := by
  have hset : ∀ known : List String, RuntimeHistory.known (history.set next.id known) id =
      if id = next.id then known else history.known id := by
    intro known
    rw [RuntimeHistory.known, OrderedMap.get?_set]
    split_ifs <;> rfl
  unfold acceptEndpointRuntime
  by_cases hid : id = next.id
  · subst hid
    dsimp only
    split_ifs with h
    · rw [hset, if_pos rfl, mem_knownWith]
      have hm := mem_knownWith.mp (List.contains_iff_mem.mp h)
      constructor
      · rintro (h | h)
        · exact Or.inl h
        · exact Or.inr ⟨rfl, Or.inl h⟩
      · rintro (h | ⟨-, h | rfl⟩)
        · exact Or.inl h
        · exact Or.inr h
        · exact hm
    · rw [hset, if_pos rfl, List.mem_append, mem_knownWith, List.mem_singleton, or_assoc]
      simp only [true_and]
  · dsimp only
    split_ifs <;> rw [hset, if_neg hid] <;> simp [hid]

/-- What is known after a snapshot. -/
theorem mem_known_snapshot {current : PwaEndpointId → Option PwaEndpointRecord}
    {history : RuntimeHistory} {es : List PwaEndpointRecord} {id : PwaEndpointId} {rt : String} :
    rt ∈ RuntimeHistory.known (acceptSnapshot current history es).1 id ↔
      rt ∈ history.known id ∨ ∃ next ∈ es, id = next.id ∧
        ((∃ e ∈ current id, e.runtimeInstanceId = rt) ∨ rt = next.runtimeInstanceId) := by
  induction es generalizing history with
  | nil => simp [acceptSnapshot]
  | cons next es ih =>
    simp only [acceptSnapshot]
    rw [ih, mem_known_accept]
    simp only [List.mem_cons, exists_eq_or_imp]
    constructor
    · rintro ((h | ⟨rfl, h⟩) | h)
      · exact Or.inl h
      · exact Or.inr (Or.inl ⟨rfl, h⟩)
      · exact Or.inr (Or.inr h)
    · rintro (h | ⟨rfl, h⟩ | h)
      · exact Or.inl (Or.inl h)
      · exact Or.inl (Or.inr ⟨rfl, h⟩)
      · exact Or.inr h

theorem acceptSnapshot_congr {current current' : PwaEndpointId → Option PwaEndpointRecord}
    {history : RuntimeHistory} {es : List PwaEndpointRecord}
    (h : ∀ e ∈ es, SeenAlike history e.id (current e.id) (current' e.id)) :
    acceptSnapshot current history es = acceptSnapshot current' history es := by
  induction es generalizing history with
  | nil => rfl
  | cons next es ih =>
    simp only [acceptSnapshot]
    rw [accept_congr (h next List.mem_cons_self)]
    rw [ih fun e he => (h e (List.mem_cons_of_mem _ he)).imp_right ?_]
    rintro ⟨hc, hc'⟩
    exact ⟨fun r hr => mem_known_accept.mpr (Or.inl (hc r hr)),
      fun r hr => mem_known_accept.mpr (Or.inl (hc' r hr))⟩

/-- The accepted records are among those of the snapshot. -/
theorem accepted_sublist (current : PwaEndpointId → Option PwaEndpointRecord)
    (history : RuntimeHistory) (es : List PwaEndpointRecord) :
    (acceptSnapshot current history es).2.Sublist es := by
  induction es generalizing history with
  | nil => exact List.Sublist.refl _
  | cons next es ih =>
    simp only [acceptSnapshot]
    split_ifs
    · exact (ih _).cons_cons next
    · exact (ih _).cons next

/-- The snapshot reads only the records of its own device. -/
theorem current_find {deviceId : String} {id : PwaEndpointId} (l : List PwaEndpointRecord)
    (hd : id.1 = deviceId) :
    (l.filter fun e => decide (e.deviceId = deviceId)).find?
        (fun e => decide (PwaEndpointRecord.id e = id)) =
      l.find? fun e => decide (PwaEndpointRecord.id e = id) := by
  rw [List.find?_filter]
  congr 1
  funext e
  by_cases h : PwaEndpointRecord.id e = id
  · have hdev : e.deviceId = deviceId := by
      rw [← hd, ← h]
      rfl
    simp [h, hdev]
  · simp [h]

/-! ## Runtimes that acceptance does not tell apart -/

section Seen

variable {history history' : RuntimeHistory} {id : PwaEndpointId}
  {c c' c'' : Option PwaEndpointRecord}

theorem SeenAlike.refl (history : RuntimeHistory) (id : PwaEndpointId)
    (c : Option PwaEndpointRecord) : SeenAlike history id c c :=
  Or.inl rfl

theorem SeenAlike.symm (h : SeenAlike history id c c') : SeenAlike history id c' c :=
  h.imp Eq.symm And.symm

theorem seen_of_map_eq (h : c.map PwaEndpointRecord.runtimeInstanceId =
      c'.map PwaEndpointRecord.runtimeInstanceId)
    (hc : ∀ e ∈ c, e.runtimeInstanceId ∈ history.known id) :
    ∀ e ∈ c', e.runtimeInstanceId ∈ history.known id := by
  rintro e' rfl
  cases c with
  | none => cases h
  | some e =>
    rw [← Option.some.inj h]
    exact hc e rfl

theorem SeenAlike.trans (h : SeenAlike history id c c') (h' : SeenAlike history id c' c'') :
    SeenAlike history id c c'' := by
  rcases h with h | ⟨hc, hc'⟩
  · rcases h' with h' | ⟨hc', hc''⟩
    · exact Or.inl (h.trans h')
    · exact Or.inr ⟨seen_of_map_eq h.symm hc', hc''⟩
  · rcases h' with h' | ⟨-, hc''⟩
    · exact Or.inr ⟨hc, seen_of_map_eq h' hc'⟩
    · exact Or.inr ⟨hc, hc''⟩

theorem SeenAlike.mono (h : SeenAlike history id c c')
    (hm : ∀ rt ∈ history.known id, rt ∈ history'.known id) : SeenAlike history' id c c' :=
  h.imp_right fun ⟨hc, hc'⟩ => ⟨fun e he => hm _ (hc e he), fun e he => hm _ (hc' e he)⟩

end Seen

/-! ## Records that end -/

section Ended

variable {deviceId endpointId runtimeInstanceId : String} {now : ℕ}

@[simp] theorem id_endRecord (e : PwaEndpointRecord) :
    (endRecord deviceId endpointId runtimeInstanceId now e).id = e.id := by
  unfold endRecord
  split_ifs <;> rfl

@[simp] theorem runtime_endRecord (e : PwaEndpointRecord) :
    (endRecord deviceId endpointId runtimeInstanceId now e).runtimeInstanceId =
      e.runtimeInstanceId := by
  unfold endRecord
  split_ifs <;> rfl

theorem map_runtime_endRecord (c : Option PwaEndpointRecord) :
    (c.map (endRecord deviceId endpointId runtimeInstanceId now)).map
        PwaEndpointRecord.runtimeInstanceId =
      c.map PwaEndpointRecord.runtimeInstanceId := by
  cases c <;> simp

/-- A record of another endpoint or runtime stays as it is. -/
theorem map_endRecord_eq_self {c : Option PwaEndpointRecord}
    (h : ∀ e ∈ c, e.id = (deviceId, endpointId) → e.runtimeInstanceId ≠ runtimeInstanceId) :
    c.map (endRecord deviceId endpointId runtimeInstanceId now) = c := by
  cases c with
  | none => rfl
  | some e =>
    refine congrArg some (if_neg ?_)
    rintro ⟨hd, he, hr⟩
    exact h e rfl (Prod.ext hd he) hr

end Ended

/-! ## The registry tracks the fold -/

theorem nodup_mergeEndpoints (base preferred : List PwaEndpointRecord) :
    ((mergeEndpoints base preferred).map PwaEndpointRecord.id).Nodup :=
  ((List.mergeSort_perm _ _).map _).nodup_iff.mpr (nodup_values_collect _)

theorem lastWith_mergeEndpoints (base preferred : List PwaEndpointRecord) (id : PwaEndpointId) :
    lastWith PwaEndpointRecord.id id (mergeEndpoints base preferred) =
      lastWith PwaEndpointRecord.id id (base ++ preferred) := by
  rw [← lastWith_values_collect id (base ++ preferred)]
  exact lastWith_perm (List.mergeSort_perm _ _) (nodup_mergeEndpoints base preferred) id

/-- A completed write leaves its own records of the device. -/
theorem lastWith_written {l : List PwaEndpointRecord} {w : Write} {d : String} (hw : w.1 = d)
    (e : String) :
    lastWith PwaEndpointRecord.id (d, e)
        (mergeEndpoints (l.filter fun e => decide (e.deviceId ≠ w.1)) w.2) =
      lastWith PwaEndpointRecord.id (d, e) w.2 := by
  have hnone : lastWith PwaEndpointRecord.id (d, e)
      (l.filter fun e => decide (e.deviceId ≠ w.1)) = none :=
    (lastWith_filter (f := PwaEndpointRecord.id) (fun id => decide (id.1 ≠ w.1)) (d, e)
      l).trans (if_neg (by simp [hw]))
  rw [lastWith_mergeEndpoints, lastWith_append, hnone, Option.or_none]

theorem devices_applyControl (s : EndpointRegistry) (frame : ControlFrame) (now : ℕ) :
    (s.applyControl frame now).devices = s.devices := by
  unfold EndpointRegistry.applyControl
  split_ifs
  · rfl
  · cases frame <;> dsimp only [EndpointRegistry.applySnapshot, EndpointRegistry.applyUpsert,
      EndpointRegistry.persistEndpoints]
    all_goals split_ifs <;> rfl

namespace EndpointRegistry

/-- The memory and what the queued writes will make of it. -/
def lists (s : EndpointRegistry) : List (List PwaEndpointRecord) :=
  s.endpoints :: s.writes.map Prod.snd

/-- The records once every queued write has completed. -/
def latest (s : EndpointRegistry) : List PwaEndpointRecord :=
  s.writes.getLast?.elim s.endpoints Prod.snd

end EndpointRegistry

/-- On the device, the last queued write leaves what the fold of the frames holds, and
    no list still in use differs from it in a runtime that has not been seen. -/
structure Tracks (d : String) (s : EndpointRegistry) (f : FrameFold) : Prop where
  history : s.history = f.history
  nodup : (s.endpoints.map PwaEndpointRecord.id).Nodup
  about : ∀ w ∈ s.writes, w.1 = d
  latest : ∀ e, lastWith PwaEndpointRecord.id (d, e) s.latest = f.held (d, e)
  seen : ∀ e, ∀ l ∈ s.lists,
    SeenAlike s.history (d, e) (lastWith PwaEndpointRecord.id (d, e) l) (f.held (d, e))

section Tracks

variable {d : String} {s : EndpointRegistry} {f f' : FrameFold}

theorem Tracks.find (h : Tracks d s f) (id : PwaEndpointId) :
    s.find id = lastWith PwaEndpointRecord.id id s.endpoints :=
  find?_eq_lastWith h.nodup id

theorem Tracks.seenAlike (h : Tracks d s f) (e : String) :
    SeenAlike s.history (d, e) (s.find (d, e)) (f.held (d, e)) := by
  rw [h.find]
  exact h.seen e s.endpoints List.mem_cons_self

/-- The memory agrees with the fold where it agrees with the last queued write. -/
theorem Tracks.agree (h : Tracks d s f) {ids : List PwaEndpointId}
    (hok : ∀ w ∈ s.writes.getLast?, agreeExcept d ids s.endpoints w.2 = true) {e : String}
    (he : (d, e) ∉ ids) :
    lastWith PwaEndpointRecord.id (d, e) s.endpoints = f.held (d, e) := by
  rw [← h.latest e, EndpointRegistry.latest]
  cases hw : s.writes.getLast? with
  | none => rfl
  | some w => exact lastWith_eq_of_agreeExcept (hok w hw) rfl he

/-- A queued write that leaves what the next fold holds. -/
theorem Tracks.persist (h : Tracks d s f) {history : RuntimeHistory}
    {next : List PwaEndpointRecord} (hh : history = f'.history)
    (hm : ∀ id, ∀ rt ∈ s.history.known id, rt ∈ history.known id)
    (hlast : ∀ e, lastWith PwaEndpointRecord.id (d, e) next = f'.held (d, e))
    (hseen : ∀ e, SeenAlike history (d, e) (f.held (d, e)) (f'.held (d, e))) :
    Tracks d (({ s with history := history } : EndpointRegistry).persistEndpoints d next) f' where
  history := hh
  nodup := h.nodup
  about := by
    intro w hw
    rcases List.mem_append.mp hw with hw | hw
    · exact h.about w hw
    · rw [List.mem_singleton.mp hw]
  latest := by
    intro e
    rw [EndpointRegistry.latest, EndpointRegistry.persistEndpoints, List.getLast?_concat]
    exact hlast e
  seen := by
    intro e l hl
    have hcases : l ∈ s.lists ∨ l = next := by
      simpa [EndpointRegistry.lists, EndpointRegistry.persistEndpoints, or_assoc] using hl
    rcases hcases with hl | rfl
    · exact ((h.seen e l hl).mono (hm (d, e))).trans (hseen e)
    · rw [hlast e]
      exact SeenAlike.refl _ _ _

/-- Seeing more runtimes changes neither the records nor what is accepted of them. -/
theorem Tracks.learn (h : Tracks d s f) {history : RuntimeHistory} (hh : history = f'.history)
    (hm : ∀ id, ∀ rt ∈ s.history.known id, rt ∈ history.known id) (hheld : f'.held = f.held) :
    Tracks d { s with history := history } f' where
  history := hh
  nodup := h.nodup
  about := h.about
  latest e := by
    rw [hheld]
    exact h.latest e
  seen e l hl := by
    rw [hheld]
    exact (h.seen e l hl).mono (hm (d, e))

/-- `endpoint_announced` and `endpoint_updated`. -/
theorem Tracks.upsert (h : Tracks d s f) (endpoint : EndpointInfo) (now : ℕ)
    (hok : (acceptEndpointRuntime s.history
        (s.find (toEndpointRecord d endpoint true now).id)
        (toEndpointRecord d endpoint true now)).2 = true →
      ∀ w ∈ s.writes.getLast?,
        agreeExcept d [(toEndpointRecord d endpoint true now).id] s.endpoints w.2 = true) :
    Tracks d (s.applyUpsert d endpoint now) (f.apply (.endpointAnnounced d endpoint) now) := by
  have hcongr : acceptEndpointRuntime f.history (f.held (toEndpointRecord d endpoint true now).id)
        (toEndpointRecord d endpoint true now) =
      acceptEndpointRuntime s.history (s.find (toEndpointRecord d endpoint true now).id)
        (toEndpointRecord d endpoint true now) := by
    rw [← h.history]
    exact accept_congr (h.seenAlike endpoint.endpointId).symm
  unfold EndpointRegistry.applyUpsert FrameFold.apply
  dsimp only
  rw [hcongr]
  generalize hnext : toEndpointRecord d endpoint true now = next at *
  have hm : ∀ id, ∀ rt ∈ s.history.known id, rt ∈ RuntimeHistory.known
      (acceptEndpointRuntime s.history (s.find next.id) next).1 id :=
    fun id rt hrt => mem_known_accept.mpr (Or.inl hrt)
  by_cases hacc : (acceptEndpointRuntime s.history (s.find next.id) next).2 = true
  · rw [if_neg (by simp [hacc]), if_pos hacc]
    refine h.persist rfl hm ?_ ?_
    · intro e
      dsimp only
      rw [lastWith_append, lastWith_singleton,
        lastWith_filter (fun id => decide (id ≠ next.id)) (d, e)]
      by_cases he : (d, e) = next.id
      · rw [he, Function.update_self, if_pos rfl]
        rfl
      · rw [Function.update_of_ne he, if_neg (Ne.symm he), if_pos (decide_eq_true he)]
        exact h.agree (hok hacc) (by simpa using he)
    · intro e
      dsimp only
      by_cases he : (d, e) = next.id
      · refine Or.inr ⟨fun c hc => ?_, fun c hc => ?_⟩
        · have hseen := (h.seenAlike e).mono (hm (d, e))
          rcases hseen with hseen | ⟨-, hseen⟩
          · refine seen_of_map_eq hseen (fun c' hc' => ?_) c hc
            exact mem_known_accept.mpr (Or.inr ⟨he, Or.inl ⟨c', he ▸ hc', rfl⟩⟩)
          · exact hseen c hc
        · rw [he, Function.update_self] at hc
          cases hc
          exact mem_known_accept.mpr (Or.inr ⟨he, Or.inr rfl⟩)
      · rw [Function.update_of_ne he]
        exact SeenAlike.refl _ _ _
  · rw [if_pos (by simp [hacc]), if_neg hacc]
    exact h.learn rfl hm rfl

/-- A snapshot. -/
theorem Tracks.snapshot (h : Tracks d s f) (endpoints : List EndpointInfo) (now : ℕ)
    (hok : ∀ w ∈ s.writes.getLast?,
      agreeExcept d ((acceptSnapshot s.find s.history
        (endpoints.map fun endpoint => toEndpointRecord d endpoint true now)).2.map
          PwaEndpointRecord.id) s.endpoints w.2 = true) :
    Tracks d (s.applySnapshot d endpoints now) (f.apply (.endpoints d endpoints) now) := by
  unfold EndpointRegistry.applySnapshot FrameFold.apply
  dsimp only
  generalize hsnap : (endpoints.map fun endpoint => toEndpointRecord d endpoint true now) = snap
    at *
  have hdev : ∀ e ∈ snap, e.id = (d, e.endpointId) := by
    intro e he
    obtain ⟨endpoint, -, rfl⟩ := List.mem_map.mp (hsnap ▸ he)
    rfl
  have hcur : acceptSnapshot (fun k => (s.endpoints.filter fun e => decide (e.deviceId = d)).find?
        fun e => decide (PwaEndpointRecord.id e = k)) s.history snap =
      acceptSnapshot s.find s.history snap := by
    refine acceptSnapshot_congr fun e he => Or.inl (congrArg _ ?_)
    exact current_find s.endpoints (by rw [hdev e he])
  have hfold : acceptSnapshot f.held f.history snap = acceptSnapshot s.find s.history snap := by
    rw [← h.history]
    refine acceptSnapshot_congr fun e he => ?_
    rw [hdev e he]
    exact (h.seenAlike e.endpointId).symm
  rw [hcur, hfold]
  have hm : ∀ id, ∀ rt ∈ s.history.known id, rt ∈ RuntimeHistory.known
      (acceptSnapshot s.find s.history snap).1 id :=
    fun id rt hrt => mem_known_snapshot.mpr (Or.inl hrt)
  have hsub := accepted_sublist s.find s.history snap
  generalize hres : acceptSnapshot s.find s.history snap = result at *
  have hlast : ∀ e, lastWith PwaEndpointRecord.id (d, e)
        (((s.endpoints.filter fun e => decide (e.deviceId = d)).filter fun e =>
            (snap.map PwaEndpointRecord.id).contains e.id &&
              !(result.2.map PwaEndpointRecord.id).contains e.id) ++ result.2 ++
          ((s.endpoints.filter fun e => decide (e.deviceId = d)).filter fun e =>
            !(snap.map PwaEndpointRecord.id).contains e.id).map fun e => e.offline now) =
      match lastWith PwaEndpointRecord.id (d, e) result.2 with
      | some e => some e
      | none =>
        if (d, e) ∈ snap.map PwaEndpointRecord.id then f.held (d, e)
        else (f.held (d, e)).map fun e => e.offline now := by
    intro e
    have hcurrent : lastWith PwaEndpointRecord.id (d, e)
        (s.endpoints.filter fun e => decide (e.deviceId = d)) =
          lastWith PwaEndpointRecord.id (d, e) s.endpoints :=
      (lastWith_filter (f := PwaEndpointRecord.id) (fun id => decide (id.1 = d)) (d, e)
        s.endpoints).trans (if_pos (by simp))
    rw [lastWith_append, lastWith_append, lastWith_map (fun e => e.id_offline now),
      lastWith_filter (fun id => !(snap.map PwaEndpointRecord.id).contains id),
      lastWith_filter (fun id => (snap.map PwaEndpointRecord.id).contains id &&
        !(result.2.map PwaEndpointRecord.id).contains id), hcurrent]
    cases hl : lastWith PwaEndpointRecord.id (d, e) result.2 with
    | some r =>
      have hin : (d, e) ∈ snap.map PwaEndpointRecord.id :=
        (hsub.map _).subset (lastWith_isSome.mp (by rw [hl]; rfl))
      rw [if_neg (by simpa using List.contains_iff_mem.mpr hin)]
      rfl
    | none =>
      have hout : (d, e) ∉ result.2.map PwaEndpointRecord.id := by
        intro hin
        rw [← lastWith_isSome, hl] at hin
        cases hin
      have hagree := h.agree hok hout
      by_cases hin : (d, e) ∈ snap.map PwaEndpointRecord.id
      · simp [hin, hout, hagree]
      · simp [hin, hagree]
  refine h.persist rfl hm hlast fun e => ?_
  dsimp only
  cases hl : lastWith PwaEndpointRecord.id (d, e) result.2 with
  | some r =>
    have hr : r ∈ snap := hsub.subset (mem_of_lastWith hl)
    have hid : (d, e) = r.id := (key_of_lastWith hl).symm
    have hknown : ∀ rt, ((∃ c ∈ s.find (d, e), c.runtimeInstanceId = rt) ∨
        rt = r.runtimeInstanceId) → rt ∈ RuntimeHistory.known result.1 (d, e) := by
      intro rt hrt
      rw [← hres]
      exact mem_known_snapshot.mpr (Or.inr ⟨r, hr, hid, hrt⟩)
    refine Or.inr ⟨fun c hc => ?_, fun c hc => ?_⟩
    · rcases (h.seenAlike e).mono (hm (d, e)) with hseen | ⟨-, hseen⟩
      · exact seen_of_map_eq hseen (fun c' hc' => hknown _ (Or.inl ⟨c', hc', rfl⟩)) c hc
      · exact hseen c hc
    · cases hc
      exact hknown _ (Or.inr rfl)
  | none =>
    dsimp only
    split_ifs with hin
    · exact SeenAlike.refl _ _ _
    · refine Or.inl ?_
      rw [Option.map_map]
      rfl

/-- `endpoint_ended`, which changes the memory at once. -/
theorem Tracks.ended (h : Tracks d s f) {endpointId runtimeInstanceId : String} {now : ℕ}
    (hok : ∀ w ∈ s.writes.getLast?,
      ∀ e ∈ lastWith PwaEndpointRecord.id (d, endpointId) w.2,
        e.runtimeInstanceId ≠ runtimeInstanceId) :
    Tracks d
      { s with endpoints := s.endpoints.map (endRecord d endpointId runtimeInstanceId now) }
      (f.apply (.endpointEnded d endpointId runtimeInstanceId) now) where
  history := h.history
  nodup := by
    rw [List.map_map]
    have hid : PwaEndpointRecord.id ∘ endRecord d endpointId runtimeInstanceId now =
        PwaEndpointRecord.id := funext fun e => id_endRecord e
    rw [hid]
    exact h.nodup
  about := h.about
  latest e := by
    have hlatest := h.latest e
    simp only [FrameFold.apply]
    cases hw : s.writes.getLast? with
    | none =>
      simp only [EndpointRegistry.latest, hw, Option.elim_none] at hlatest ⊢
      rw [lastWith_map (fun e => id_endRecord e), hlatest]
    | some w =>
      simp only [EndpointRegistry.latest, hw, Option.elim_some] at hlatest ⊢
      rw [hlatest]
      refine (map_endRecord_eq_self fun c hc hid => ?_).symm
      rw [← hlatest] at hc
      obtain rfl : e = endpointId := congrArg Prod.snd ((key_of_lastWith hc).symm.trans hid)
      exact hok w hw c hc
  seen e l hl := by
    simp only [FrameFold.apply]
    refine SeenAlike.trans ?_ (Or.inl (map_runtime_endRecord _).symm)
    rcases List.mem_cons.mp hl with rfl | hl
    · rw [lastWith_map (fun e => id_endRecord e)]
      refine SeenAlike.trans (Or.inl (map_runtime_endRecord _)) ?_
      exact h.seen e s.endpoints List.mem_cons_self
    · exact h.seen e l (List.mem_cons_of_mem _ hl)

/-- A frame of the device that arrives settled. -/
theorem Tracks.control (h : Tracks d s f) (hd : d ∈ s.devices) {frame : ControlFrame} {now : ℕ}
    (hframe : frame.deviceId = d) (hok : settled s (.control frame now) = true) :
    Tracks d (s.applyControl frame now) (f.apply frame now) := by
  have hcontains : (!s.devices.contains frame.deviceId) = false := by simp [hframe, hd]
  have hquiet : ∀ {w}, s.writes.getLast? = some w → ∀ ids, s.replaced frame now = some ids →
      agreeExcept d ids s.endpoints w.2 = true := by
    intro w hw ids hids
    subst hframe
    obtain ⟨device, next⟩ := w
    cases frame <;> simp only [settled, hw, hids] at hok
    case endpointEnded => cases hids
    all_goals exact hok
  unfold EndpointRegistry.applyControl
  rw [hcontains, if_neg Bool.false_ne_true]
  cases frame with
  | endpoints deviceId endpoints =>
    cases hframe
    exact h.snapshot endpoints now fun w hw => hquiet hw _ rfl
  | endpointAnnounced deviceId endpoint =>
    cases hframe
    exact h.upsert endpoint now fun hacc w hw => hquiet hw _ (if_pos hacc)
  | endpointUpdated deviceId endpoint =>
    cases hframe
    exact h.upsert endpoint now fun hacc w hw => hquiet hw _ (if_pos hacc)
  | endpointEnded deviceId endpointId runtimeInstanceId =>
    cases hframe
    refine h.ended fun w hw e he => ?_
    obtain ⟨device, next⟩ := w
    simp only [settled, Option.mem_def.mp hw] at hok
    simpa using (Option.all_eq_true _ _).mp hok e he

/-- A write completes. -/
theorem Tracks.written (h : Tracks d s f) {w : Write} {writes : List Write}
    (hw : s.writes = w :: writes) :
    Tracks d
      { s with
        endpoints := mergeEndpoints (s.endpoints.filter fun e => decide (e.deviceId ≠ w.1)) w.2
        writes := writes } f where
  history := h.history
  nodup := nodup_mergeEndpoints _ _
  about w' hw' := h.about w' (hw ▸ List.mem_cons_of_mem _ hw')
  latest e := by
    rw [← h.latest e, EndpointRegistry.latest, EndpointRegistry.latest, hw]
    cases writes with
    | nil => exact lastWith_written (h.about w (hw ▸ List.mem_cons_self)) e
    | cons w' writes => rfl
  seen e l hl := by
    rcases List.mem_cons.mp hl with rfl | hl
    · dsimp only
      rw [lastWith_written (h.about w (hw ▸ List.mem_cons_self)) e]
      refine h.seen e w.2 (List.mem_cons_of_mem _ ?_)
      rw [hw]
      exact List.mem_cons_self
    · refine h.seen e l (List.mem_cons_of_mem _ ?_)
      rw [hw]
      exact List.mem_cons_of_mem _ hl

end Tracks

/-! ## Runs -/

/-- Every frame of the run is about the device. -/
def RegistryLabel.concerns (d : String) : RegistryLabel → Bool
  | .control frame _ => frame.deviceId = d
  | .written => true

theorem tracks_run {d : String} {s s' : EndpointRegistry} {f : FrameFold}
    {labels : List RegistryLabel} (hd : d ∈ s.devices)
    (hl : ∀ label ∈ labels, label.concerns d = true)
    (hok : Along EndpointRegistry.step (fun s label => settled s label = true) s labels)
    (h : Tracks d s f) (hrun : run EndpointRegistry.step s labels = some s') :
    Tracks d s' (foldFrames f (framesOf labels)) := by
  induction labels generalizing s f with
  | nil => cases hrun; exact h
  | cons label labels ih =>
    obtain ⟨t, ht, hrest⟩ := run_cons_eq_some.mp hrun
    obtain ⟨hsettled, hok'⟩ := (along_cons_of_step ht).mp hok
    have hl' := fun label' hm => hl label' (List.mem_cons_of_mem _ hm)
    have hconcerns := hl label List.mem_cons_self
    cases label with
    | control frame now =>
      cases ht
      have hframe : frame.deviceId = d := by simpa [RegistryLabel.concerns] using hconcerns
      exact ih (by rw [devices_applyControl]; exact hd) hl' hok'
        (h.control hd hframe hsettled) hrest
    | written =>
      rw [EndpointRegistry.step] at ht
      cases hw : s.writes with
      | nil => rw [hw] at ht; cases ht
      | cons w writes =>
        rw [hw] at ht
        cases ht
        refine ih ?_ hl' hok' (h.written hw) hrest
        exact hd

theorem tracks_load (d : String) (devices : List String) (stored : List PwaEndpointRecord) :
    Tracks d (EndpointRegistry.load devices stored)
      (EndpointRegistry.load devices stored).fold where
  history := rfl
  nodup := nodup_mergeEndpoints _ _
  about w hw := by cases hw
  latest e := (find?_eq_lastWith (nodup_mergeEndpoints _ _) (d, e)).symm
  seen e l hl := by
    obtain rfl := List.mem_singleton.mp hl
    refine Or.inl (congrArg _ ?_)
    exact (find?_eq_lastWith (nodup_mergeEndpoints _ _) (d, e)).symm

/-- Once the writes are drained, the memory holds of the device exactly what the fold of
    its frames holds, when every frame arrives settled. -/
theorem drained_eq_fold {devices : List String} {stored : List PwaEndpointRecord} {d : String}
    {labels : List RegistryLabel} {s : EndpointRegistry} (hd : d ∈ devices)
    (hl : ∀ label ∈ labels, label.concerns d = true)
    (hok : Along EndpointRegistry.step (fun s label => settled s label = true)
      (EndpointRegistry.load devices stored) labels)
    (hrun : run EndpointRegistry.step (EndpointRegistry.load devices stored) labels = some s)
    (hdrained : s.writes = []) :
    (s.endpoints.map PwaEndpointRecord.id).Nodup ∧
      ∀ e, s.find (d, e) =
        (foldFrames (EndpointRegistry.load devices stored).fold (framesOf labels)).held (d, e) := by
  have h := tracks_run hd hl hok (tracks_load d devices stored) hrun
  refine ⟨h.nodup, fun e => ?_⟩
  rw [h.find, ← h.latest e, EndpointRegistry.latest, hdrained]
  rfl

/-- Two endpoints of a device, announced one after the other. -/
def exampleEndpoint (endpointId runtimeInstanceId : String) : EndpointInfo :=
  ⟨endpointId, runtimeInstanceId, ⟨.daemon, none, none, none, none, none, none, none⟩⟩

/-- An update and the end of an old runtime arrive while the announcement is still queued; the
    end of the second endpoint's old runtime arrives while its announcement is. -/
private def framesWhileQueued : List RegistryLabel :=
  [.control (.endpointAnnounced "d" (exampleEndpoint "e" "r")) 1,
    .control (.endpointUpdated "d" (exampleEndpoint "e" "r")) 2,
    .control (.endpointEnded "d" "e" "old") 3, .written, .written,
    .control (.endpointAnnounced "d" (exampleEndpoint "e'" "r'")) 4,
    .control (.endpointEnded "d" "e'" "old") 5, .written,
    .control (.endpointEnded "d" "e" "r") 6]

theorem drained_eq_fold_while_queued :
    ∃ s, run EndpointRegistry.step (.load ["d"] []) framesWhileQueued = some s ∧
      (s.endpoints.map PwaEndpointRecord.id).Nodup ∧
      ∀ e, s.find ("d", e) = (foldFrames (EndpointRegistry.load ["d"] []).fold
        (framesOf framesWhileQueued)).held ("d", e) := by
  have hdrained : (run EndpointRegistry.step (.load ["d"] []) framesWhileQueued).any
      (fun s => s.writes = []) = true := by
    decide +kernel
  obtain ⟨s, hs, hwrites⟩ := (Option.any_eq_true _ _).mp hdrained
  exact ⟨s, hs, drained_eq_fold (by decide) (by decide) (by decide +kernel) hs
    (of_decide_eq_true hwrites)⟩

/-- Both announcements arrive before the first is written: the second list is made from
    the memory without the first endpoint, and overwrites it. -/
theorem overlapping_announcements :
    ∃ labels s, (∀ label ∈ labels, RegistryLabel.concerns "d" label = true) ∧
      run EndpointRegistry.step (.load ["d"] []) labels = some s ∧ s.writes = [] ∧
      s.find ("d", "e") = none ∧
      (foldFrames (EndpointRegistry.load ["d"] []).fold (framesOf labels)).held ("d", "e") =
        some (toEndpointRecord "d" (exampleEndpoint "e" "r") true 1) := by
  have hrun : (run EndpointRegistry.step (.load ["d"] [])
      [.control (.endpointAnnounced "d" (exampleEndpoint "e" "r")) 1,
        .control (.endpointAnnounced "d" (exampleEndpoint "e'" "r'")) 2,
        .written, .written]).any (fun s => s.writes = [] ∧ s.find ("d", "e") = none) = true := by
    decide +kernel
  obtain ⟨s, hs, hlost⟩ := (Option.any_eq_true _ _).mp hrun
  obtain ⟨hdrained, hfind⟩ := of_decide_eq_true hlost
  exact ⟨_, s, by decide, hs, hdrained, hfind, by decide +kernel⟩

end RemotePi.Pwa
