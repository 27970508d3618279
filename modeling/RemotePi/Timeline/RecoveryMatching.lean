import RemotePi.Lib.Keyed
import RemotePi.Timeline.Recovery

/-!
# Which events recovery returns

`TimelineRuntime.recover` (`pi-extension/src/timeline/runtime.ts`, lines 240–273) scans
forward from every marker to the message that it owns, makes legacy events of the messages
without an owner, and adds an event of its own for every other entry that has one.

Results:
* `owner_unique`, `Owns.near`: a message has one owner at most, which stands before it with
  nothing but notes in between.
* `recovered_once`: a message yields one event, and the ids of the events are distinct
  exactly when no other entry has the legacy id of a message without an owner.
-/

namespace RemotePi.Timeline

open RemotePi.Lib RemotePi.Protocol

/-! ## Owners -/

/-- The marker of the entry `holder` owns the message of `entry`: the scan from it ends
    there. -/
def Owns (branch : List SessionEntry) (holder : SessionEntry) (marker : Marker)
    (entry : SessionEntry) (record : MessageRecord) : Prop :=
  ∃ before after, branch = before ++ holder :: after ∧ holder.marker? = some marker ∧
    scanTarget (roleForMarker marker) after = some (entry, record)

theorem mem_claimed_iff_owns {branch : List SessionEntry} {entry : SessionEntry}
    {record : MessageRecord} {marker : Marker} :
    (entry, record, marker) ∈ claimed branch ↔
      ∃ holder, Owns branch holder marker entry record := by
  rw [mem_claimed_iff]
  constructor
  · intro ⟨before, holder, after, h⟩
    exact ⟨holder, before, after, h⟩
  · intro ⟨holder, before, after, h⟩
    exact ⟨before, holder, after, h⟩

/-- A scan does not go beyond an entry that is no note. -/
theorem scanTarget_stops {role : MessageRole} {before after : List SessionEntry}
    {entry : SessionEntry} {target : SessionEntry × MessageRecord} (hentry : entry.isNote = false)
    (h : scanTarget role (before ++ entry :: after) = some target) :
    target.1 ∈ before ++ [entry] := by
  rw [scanTarget_eq, Option.bind_eq_some_iff] at h
  obtain ⟨first, hfind, htarget⟩ := h
  rw [(target?_eq_some.mp htarget).1]
  have hfound : ((before ++ [entry]).find? fun e => !e.isNote) = some first := by
    rw [List.append_cons, List.find?_append] at hfind
    cases hshort : (before ++ [entry]).find? fun e => !e.isNote with
    | none =>
      have hnote := List.find?_eq_none.mp hshort entry (by simp)
      simp [hentry] at hnote
    | some other =>
      rw [hshort, Option.some_or] at hfind
      exact hfind
  exact List.mem_of_find?_eq_some hfound

/-- The scans from two markers end at different messages. -/
theorem scanTarget_ne {role role' : MessageRole} {before after : List SessionEntry}
    {holder : SessionEntry} {target target' : SessionEntry × MessageRecord}
    (hids : ((before ++ holder :: after).map SessionEntry.id).Nodup)
    (hholder : holder.isNote = false)
    (h : scanTarget role (before ++ holder :: after) = some target)
    (h' : scanTarget role' after = some target') : target.1.id ≠ target'.1.id := by
  have hmem := scanTarget_stops hholder h
  have hmem' := (scanTarget_eq_some h').1
  rw [List.append_cons, List.map_append, List.nodup_append] at hids
  exact hids.2.2 _ (List.mem_map_of_mem hmem) _ (List.mem_map_of_mem hmem')

/-- A message has one owner at most. -/
theorem owner_unique {branch : List SessionEntry} {holder holder' : SessionEntry}
    {marker marker' : Marker} {entry : SessionEntry} {record record' : MessageRecord}
    (hids : (branch.map SessionEntry.id).Nodup) (h : Owns branch holder marker entry record)
    (h' : Owns branch holder' marker' entry record') : holder = holder' := by
  obtain ⟨before, after, hsplit, hmarker, hscan⟩ := h
  obtain ⟨before', after', hsplit', hmarker', hscan'⟩ := h'
  have heq : before ++ holder :: after = before' ++ holder' :: after' := by
    rw [← hsplit, ← hsplit']
  rcases List.append_eq_append_iff.mp heq with ⟨mid, hbefore, hafter⟩ | ⟨mid, hbefore, hafter⟩
  · cases mid with
    | nil => exact (List.cons_eq_cons.mp hafter).1
    | cons first mid =>
      obtain ⟨-, hafter⟩ := List.cons_eq_cons.mp hafter
      rw [hafter] at hscan
      rw [hsplit, hafter, List.append_cons, List.map_append, List.nodup_append] at hids
      exact (scanTarget_ne hids.2.1 (isNote_eq_false_of_marker? hmarker') hscan hscan' rfl).elim
  · cases mid with
    | nil => exact ((List.cons_eq_cons.mp hafter).1).symm
    | cons first mid =>
      obtain ⟨-, hafter⟩ := List.cons_eq_cons.mp hafter
      rw [hafter] at hscan'
      rw [hsplit', hafter, List.append_cons, List.map_append, List.nodup_append] at hids
      exact (scanTarget_ne hids.2.1 (isNote_eq_false_of_marker? hmarker) hscan' hscan rfl).elim

/-- An owner has the role of its message, and only notes stand between the two. -/
theorem Owns.near {branch : List SessionEntry} {holder entry : SessionEntry} {marker : Marker}
    {record : MessageRecord} (h : Owns branch holder marker entry record) :
    entry.record? = some record ∧ record.role = roleForMarker marker ∧
      ∃ before notes after, branch = before ++ holder :: (notes ++ entry :: after) ∧
        ∀ note ∈ notes, note.isNote = true := by
  obtain ⟨before, after, hsplit, -, hscan⟩ := h
  obtain ⟨-, hrecord, hrole⟩ := scanTarget_eq_some hscan
  refine ⟨hrecord, hrole, ?_⟩
  rw [scanTarget_eq, Option.bind_eq_some_iff] at hscan
  obtain ⟨first, hfind, htarget⟩ := hscan
  obtain ⟨hfirst, -, -⟩ := target?_eq_some.mp htarget
  obtain ⟨-, notes, rest, hafter, hnotes⟩ := List.find?_eq_some_iff_append.mp hfind
  refine ⟨before, notes, rest, ?_, ?_⟩
  · rw [hsplit, hafter, ← hfirst]
  · intro note hnote
    simpa using hnotes note hnote

/-! ## The ids of the events -/

/-- What `recover` relies on: the entries of a branch have ids of their own, and so have its
    markers, which use neither the id of an entry nor a legacy id. -/
structure OwnIds (branch : List SessionEntry) : Prop where
  entries : (branch.map SessionEntry.id).Nodup
  markers : ((branch.filterMap SessionEntry.marker?).map Marker.eventId).Nodup
  notEntry : ∀ marker ∈ branch.filterMap SessionEntry.marker?,
    marker.eventId ∉ branch.map SessionEntry.id
  notLegacy : ∀ marker ∈ branch.filterMap SessionEntry.marker?, ∀ id,
    marker.eventId ≠ "legacy:" ++ id

theorem claimed_markers_sublist (branch : List SessionEntry) :
    ((claimed branch).map fun found => found.2.2).Sublist (branch.filterMap SessionEntry.marker?) := by
  induction branch with
  | nil => exact List.Sublist.refl _
  | cons entry branch ih =>
    rw [claimed, List.filterMap_cons]
    cases entry.marker? with
    | none => exact ih
    | some marker =>
      dsimp only
      cases scanTarget (roleForMarker marker) branch with
      | none => exact ih.cons _
      | some target => exact ih.cons_cons _

theorem claimed_targets_nodup {branch : List SessionEntry}
    (hids : (branch.map SessionEntry.id).Nodup) :
    ((claimed branch).map fun found => found.1.id).Nodup := by
  induction branch with
  | nil => exact List.nodup_nil
  | cons entry branch ih =>
    rw [List.map_cons, List.nodup_cons] at hids
    rw [claimed]
    cases hmarker : entry.marker? with
    | none => exact ih hids.2
    | some marker =>
      dsimp only
      cases hscan : scanTarget (roleForMarker marker) branch with
      | none => exact ih hids.2
      | some target =>
        dsimp only
        rw [List.map_cons, List.nodup_cons]
        refine ⟨?_, ih hids.2⟩
        intro hmem
        obtain ⟨found, hfound, heq⟩ := List.mem_map.mp hmem
        obtain ⟨before, holder, after, hsplit, hholder, hlater⟩ := mem_claimed_iff.mp hfound
        rw [hsplit] at hids hscan
        exact scanTarget_ne hids.2 (isNote_eq_false_of_marker? hholder) hscan hlater heq.symm

theorem mem_unclaimed_iff {sessionId : String} {branch : List SessionEntry} {entry : SessionEntry}
    {record : MessageRecord} {marker : Marker} :
    (entry, record, marker) ∈ unclaimed sessionId branch ↔
      entry ∈ branch ∧ entry.record? = some record ∧
        entry.id ∉ (claimed branch).map (fun found => found.1.id) ∧
          marker = legacyMarker sessionId entry record.role := by
  unfold unclaimed
  rw [List.mem_filterMap]
  constructor
  · intro ⟨other, hother, h⟩
    cases hrecord : other.record? with
    | none => rw [hrecord] at h; cases h
    | some found =>
      rw [hrecord] at h
      dsimp only at h
      split_ifs at h with hclaimed
      cases h
      exact ⟨hother, hrecord, by simpa using hclaimed, rfl⟩
  · intro ⟨hentry, hrecord, hclaimed, hmarker⟩
    refine ⟨entry, hentry, ?_⟩
    rw [hrecord, hmarker]
    dsimp only
    rw [if_neg (by simpa using hclaimed)]

theorem unclaimed_ids_sublist (sessionId : String) (branch : List SessionEntry) :
    ((unclaimed sessionId branch).map fun found => found.1.id).Sublist
      (branch.map SessionEntry.id) := by
  unfold unclaimed
  dsimp only
  generalize (claimed branch).map (fun found => found.1.id) = matched
  induction branch with
  | nil => exact List.Sublist.refl _
  | cons entry branch ih =>
    rw [List.filterMap_cons, List.map_cons]
    cases entry.record? with
    | none => exact ih.cons _
    | some record =>
      dsimp only
      by_cases hmatched : matched.contains entry.id = true
      · rw [if_pos hmatched]
        exact ih.cons _
      · rw [if_neg hmatched]
        exact ih.cons_cons _

/-- The ids of the messages that are recovered. -/
theorem recovered_ids_nodup {sessionId : String} {branch : List SessionEntry}
    (h : OwnIds branch) :
    ((recoveredMessages sessionId branch).map fun found => found.2.2.eventId).Nodup := by
  unfold recoveredMessages
  rw [List.map_append, List.nodup_append]
  refine ⟨?_, ?_, ?_⟩
  · have hsub := (claimed_markers_sublist branch).map Marker.eventId
    rw [List.map_map] at hsub
    exact h.markers.sublist hsub
  · have hids := h.entries.sublist (unclaimed_ids_sublist sessionId branch)
    have hmap : ((unclaimed sessionId branch).map fun found => found.2.2.eventId) =
        ((unclaimed sessionId branch).map fun found => found.1.id).map fun id => "legacy:" ++ id := by
      rw [List.map_map]
      refine List.map_congr_left ?_
      intro ⟨entry, record, marker⟩ hfound
      obtain ⟨-, -, -, rfl⟩ := mem_unclaimed_iff.mp hfound
      exact legacyMarker_eventId _ _ _
    rw [hmap]
    exact hids.map fun id id' heq => (String.append_right_inj "legacy:").mp heq
  · intro a ha b hb heq
    obtain ⟨found, hfound, rfl⟩ := List.mem_map.mp ha
    obtain ⟨⟨entry, record, marker⟩, hother, rfl⟩ := List.mem_map.mp hb
    obtain ⟨-, -, -, rfl⟩ := mem_unclaimed_iff.mp hother
    have hmem : found.2.2 ∈ branch.filterMap SessionEntry.marker? :=
      (claimed_markers_sublist branch).subset (List.mem_map_of_mem hfound)
    rw [legacyMarker_eventId] at heq
    exact h.notLegacy _ hmem _ heq

/-! ## One event for every message -/

def FormalEvent.isSystem (event : FormalEvent) : Bool :=
  match event.body with
  | .system _ _ => true
  | _ => false

section Events

variable {rules : HostRules} {scope : SessionScope} {branch : List SessionEntry}

theorem isSystem_of_messageEvent {found : SessionEntry × MessageRecord × Marker}
    {event : FormalEvent} (h : messageEvent rules scope found = some event) :
    event.isSystem = false := by
  obtain ⟨rfl, -⟩ := valid_of_parseEvent h
  unfold FormalEvent.isSystem messageBody
  dsimp only
  split_ifs <;> cases found.2.1.role <;> simp

theorem isSystem_of_toSystemEvent {entry : SessionEntry} {event : FormalEvent}
    (h : toSystemEvent rules scope entry = some event) : event.isSystem = true := by
  obtain ⟨body, hbody, h⟩ := Option.bind_eq_some_iff.mp h
  obtain ⟨rfl, -⟩ := valid_of_parseEvent h
  unfold FormalEvent.isSystem
  dsimp only
  unfold systemBody at hbody
  cases hcontent : entry.content with
  | custom customType data =>
    rw [hcontent] at hbody
    dsimp only at hbody
    split_ifs at hbody
    cases hbody
    rfl
  | compaction => rw [hcontent] at hbody; cases hbody; rfl
  | branchSummary => rw [hcontent] at hbody; cases hbody; rfl
  | message record => rw [hcontent] at hbody; cases hbody
  | other => rw [hcontent] at hbody; cases hbody

/-- What stands for a message: the marker that owns it, or a legacy marker where none does. -/
def StandsFor (scope : SessionScope) (branch : List SessionEntry) (entry : SessionEntry)
    (record : MessageRecord) (marker : Marker) : Prop :=
  (∃ holder, Owns branch holder marker entry record) ∨
    ((∀ holder marker' record', ¬ Owns branch holder marker' entry record') ∧
      marker = legacyMarker scope.sessionId entry record.role)

/-- A message of the branch is recovered under what stands for it. -/
theorem exists_standsFor (scope : SessionScope) (hids : (branch.map SessionEntry.id).Nodup)
    {entry : SessionEntry}
    {record : MessageRecord} (hentry : entry ∈ branch) (hrecord : entry.record? = some record) :
    ∃ marker, StandsFor scope branch entry record marker ∧
      (entry, record, marker) ∈ recoveredMessages scope.sessionId branch := by
  by_cases hclaimed : entry.id ∈ (claimed branch).map fun found => found.1.id
  · obtain ⟨⟨target, record', marker⟩, hfound, heq⟩ := List.mem_map.mp hclaimed
    obtain ⟨holder, howns⟩ := mem_claimed_iff_owns.mp hfound
    obtain ⟨before, after, hsplit, -, hscan⟩ := howns
    obtain ⟨hmem, htarget, -⟩ := scanTarget_eq_some hscan
    have hbranch : target ∈ branch := by
      rw [hsplit]
      exact List.mem_append_right _ (List.mem_cons_of_mem _ hmem)
    obtain rfl := List.inj_on_of_nodup_map hids hbranch hentry heq
    obtain rfl : record' = record := Option.some.inj (htarget.symm.trans hrecord)
    exact ⟨marker, Or.inl (mem_claimed_iff_owns.mp hfound), List.mem_append_left _ hfound⟩
  · refine ⟨legacyMarker scope.sessionId entry record.role, Or.inr ⟨?_, rfl⟩, ?_⟩
    · intro holder marker' record' howns
      have hfound := mem_claimed_iff_owns.mpr ⟨holder, howns⟩
      exact hclaimed (List.mem_map.mpr ⟨_, hfound, rfl⟩)
    · exact List.mem_append_right _ (mem_unclaimed_iff.mpr ⟨hentry, hrecord, hclaimed, rfl⟩)

/-- Every message of the branch yields one event, under the id of what stands for it; a
    message has one owner at most, which has its role and stands before it with nothing but
    notes in between. -/
structure EachOnce (rules : HostRules) (scope : SessionScope) (branch : List SessionEntry)
    (events : List FormalEvent) : Prop where
  message : ∀ entry ∈ branch, ∀ record, entry.record? = some record →
    ∃ marker event, StandsFor scope branch entry record marker ∧
      messageEvent rules scope (entry, record, marker) = some event ∧
        (events.filter fun e => !e.isSystem && decide (e.eventId = marker.eventId)) = [event]
  owner : ∀ holder holder' marker marker' entry record record',
    Owns branch holder marker entry record → Owns branch holder' marker' entry record' →
      holder = holder'
  near : ∀ holder marker entry record, Owns branch holder marker entry record →
    entry.record? = some record ∧ record.role = roleForMarker marker ∧
      ∃ before notes after, branch = before ++ holder :: (notes ++ entry :: after) ∧
        ∀ note ∈ notes, note.isNote = true

/-- An entry with an event of its own has the legacy id of a message without an owner. -/
def LegacyIdTaken (rules : HostRules) (scope : SessionScope) (branch : List SessionEntry) : Prop :=
  ∃ note ∈ branch, ∃ entry ∈ branch, ∃ record,
    (toSystemEvent rules scope note).isSome = true ∧ entry.record? = some record ∧
      (∀ holder marker record', ¬ Owns branch holder marker entry record') ∧
        note.id = "legacy:" ++ entry.id

theorem systemEvents_ids_sublist (rules : HostRules) (scope : SessionScope)
    (branch : List SessionEntry) :
    ((branch.filterMap (toSystemEvent rules scope)).map FormalEvent.eventId).Sublist
      (branch.map SessionEntry.id) := by
  induction branch with
  | nil => exact List.Sublist.refl _
  | cons entry branch ih =>
    rw [List.filterMap_cons, List.map_cons]
    cases hevent : toSystemEvent rules scope entry with
    | none => exact ih.cons _
    | some event =>
      dsimp only
      rw [List.map_cons, (toSystemEvent_eq_some hevent).1]
      exact ih.cons_cons _

theorem eventIds_of_mapM {messages : List FormalEvent}
    (h : (recoveredMessages scope.sessionId branch).mapM (messageEvent rules scope) =
      some messages) :
    messages.map FormalEvent.eventId =
      (recoveredMessages scope.sessionId branch).map fun found => found.2.2.eventId :=
  map_of_mapM (fun _ _ hevent => (messageEvent_eq_some hevent).1) h

/-- Under the id of a recovered message there is one event that is no system event. -/
theorem filter_message (hids : OwnIds branch) {messages : List FormalEvent}
    (h : (recoveredMessages scope.sessionId branch).mapM (messageEvent rules scope) =
      some messages) {event : FormalEvent} (hevent : event ∈ messages) :
    ((messages ++ branch.filterMap (toSystemEvent rules scope)).filter fun e =>
      !e.isSystem && decide (e.eventId = event.eventId)) = [event] := by
  have hsystem : ((branch.filterMap (toSystemEvent rules scope)).filter fun e =>
      !e.isSystem && decide (e.eventId = event.eventId)) = [] := by
    refine List.filter_eq_nil_iff.mpr fun e he => ?_
    obtain ⟨entry, -, hentry⟩ := List.mem_filterMap.mp he
    simp [isSystem_of_toSystemEvent hentry]
  have hmessages : (messages.filter fun e =>
      !e.isSystem && decide (e.eventId = event.eventId)) =
        messages.filter fun e => decide (e.eventId = event.eventId) := by
    refine List.filter_congr fun e he => ?_
    obtain ⟨found, -, hfound⟩ := exists_of_mem_mapM h he
    simp [isSystem_of_messageEvent hfound]
  have hnodup : (messages.map FormalEvent.eventId).Nodup := by
    rw [eventIds_of_mapM h]
    exact recovered_ids_nodup hids
  rw [List.filter_append, hsystem, hmessages, filter_key_eq hnodup hevent]
  rfl

/-- The ids of the events differ exactly when no entry has taken a legacy id. -/
theorem eventIds_nodup_iff (hids : OwnIds branch) {messages : List FormalEvent}
    (h : (recoveredMessages scope.sessionId branch).mapM (messageEvent rules scope) =
      some messages) :
    ((messages ++ branch.filterMap (toSystemEvent rules scope)).map
      FormalEvent.eventId).Nodup ↔ ¬ LegacyIdTaken rules scope branch := by
  rw [List.map_append, List.nodup_append, eventIds_of_mapM h]
  constructor
  · rintro ⟨-, -, hne⟩ ⟨note, hnote, entry, hentry, record, hsome, hrecord, hnone, hid⟩
    obtain ⟨event, hevent⟩ := Option.isSome_iff_exists.mp hsome
    obtain ⟨marker, hstands, hfound⟩ := exists_standsFor scope hids.entries hentry hrecord
    have hmarker : marker.eventId = event.eventId := by
      rcases hstands with ⟨holder, howns⟩ | ⟨-, rfl⟩
      · exact (hnone holder marker record howns).elim
      · rw [legacyMarker_eventId, (toSystemEvent_eq_some hevent).1, hid]
    refine hne marker.eventId (List.mem_map.mpr ⟨_, hfound, rfl⟩) event.eventId ?_ hmarker
    exact List.mem_map_of_mem (List.mem_filterMap.mpr ⟨note, hnote, hevent⟩)
  · intro hfree
    refine ⟨recovered_ids_nodup hids,
      hids.entries.sublist (systemEvents_ids_sublist rules scope branch), ?_⟩
    intro a ha b hb heq
    obtain ⟨⟨entry, record, marker⟩, hfound, rfl⟩ := List.mem_map.mp ha
    obtain ⟨event, hevent, rfl⟩ := List.mem_map.mp hb
    obtain ⟨note, hnote, hevent⟩ := List.mem_filterMap.mp hevent
    rw [(toSystemEvent_eq_some hevent).1] at heq
    rcases List.mem_append.mp hfound with hfound | hfound
    · have hmem : marker ∈ branch.filterMap SessionEntry.marker? :=
        (claimed_markers_sublist branch).subset (List.mem_map.mpr ⟨_, hfound, rfl⟩)
      exact hids.notEntry marker hmem (heq ▸ List.mem_map_of_mem hnote)
    · obtain ⟨hentry, hrecord, hclaimed, rfl⟩ := mem_unclaimed_iff.mp hfound
      refine hfree ⟨note, hnote, entry, hentry, record, by rw [hevent]; rfl, hrecord, ?_, ?_⟩
      · intro holder marker record' howns
        have hclaim := mem_claimed_iff_owns.mpr ⟨holder, howns⟩
        exact hclaimed (List.mem_map.mpr ⟨_, hclaim, rfl⟩)
      · rw [← heq, legacyMarker_eventId]

/-- **Recovery matches every message once**, and the ids of the events that it returns are
    distinct unless another entry has the legacy id of a message without an owner. -/
theorem recovered_once {events : List FormalEvent} (hids : OwnIds branch)
    (hrecover : recover rules scope branch = some events) :
    EachOnce rules scope branch events ∧
      ((events.map FormalEvent.eventId).Nodup ↔ ¬ LegacyIdTaken rules scope branch) := by
  obtain ⟨messages, hmessages, rfl⟩ := Option.map_eq_some_iff.mp hrecover
  refine ⟨⟨?_, ?_, ?_⟩, eventIds_nodup_iff hids hmessages⟩
  · intro entry hentry record hrecord
    obtain ⟨marker, hstands, hfound⟩ := exists_standsFor scope hids.entries hentry hrecord
    have hsome := (mapM_isSome _).mp (by rw [hmessages]; rfl) _ hfound
    obtain ⟨event, hevent⟩ := Option.isSome_iff_exists.mp hsome
    refine ⟨marker, event, hstands, hevent, ?_⟩
    rw [← (messageEvent_eq_some hevent).1]
    exact filter_message hids hmessages (mem_of_mapM hmessages hfound hevent)
  · intro holder holder' marker marker' entry record record' howns howns'
    exact owner_unique hids.entries howns howns'
  · intro holder marker entry record howns
    exact howns.near

end Events

/-! ## A branch whose ids collide -/

/-- Rules that know no dates; the clock stands at 0. -/
def plainRules : HostRules where
  dateParse _ := none
  now := 0
  now_nonneg := by decide
  base64Length _ := 0

def helloRecord : MessageRecord where
  role := .user
  content := .string "hello"
  timestamp := none
  stopReason := none
  errorMessage := none
  toolCallId := none
  toolName := none
  isError := false
  args := .undefined
  api := none
  provider := none
  model := none

/-- A message after its marker, and a message without one. -/
def markedBranch : List SessionEntry :=
  [⟨"m", "", .custom timelineMarker (.object [("version", .number 2), ("event_id", .string "e"),
    ("group_id", .string "g"), ("kind", .string "user"), ("origin", .string "extension"),
    ("delivery", .string "normal")])⟩,
   ⟨"note", "", .custom "note" .null⟩, ⟨"a", "", .message (some helloRecord)⟩,
   ⟨"b", "", .message (some helloRecord)⟩]

theorem ownIds_markedBranch : OwnIds markedBranch where
  entries := by decide
  markers := by decide
  notEntry := by decide
  notLegacy := by
    have hmarkers : markedBranch.filterMap SessionEntry.marker? =
        [.user "e" "g" none .extension .normal none] := by decide
    intro marker hmarker id heq
    rw [hmarkers, List.mem_singleton] at hmarker
    have hlength := congrArg String.length heq
    rw [hmarker, String.length_append] at hlength
    have : "legacy:".length = 7 := by decide
    have : (Marker.user "e" "g" none .extension .normal none).eventId.length = 1 := by decide
    omega

theorem markedBranch_recovered :
    ∃ events, recover plainRules ⟨"s", "s"⟩ markedBranch = some events ∧
      events.map FormalEvent.eventId = ["e", "legacy:b", "note"] ∧
        EachOnce plainRules ⟨"s", "s"⟩ markedBranch events ∧
          ((events.map FormalEvent.eventId).Nodup ↔
            ¬ LegacyIdTaken plainRules ⟨"s", "s"⟩ markedBranch) := by
  have hids : (recover plainRules ⟨"s", "s"⟩ markedBranch).map (List.map FormalEvent.eventId) =
      some ["e", "legacy:b", "note"] := by decide
  obtain ⟨events, hevents, heq⟩ := Option.map_eq_some_iff.mp hids
  exact ⟨events, hevents, heq, recovered_once ownIds_markedBranch hevents⟩

/-- A message without a marker, and an entry that has its legacy id. -/
def collidingBranch : List SessionEntry :=
  [⟨"a", "", .message (some helloRecord)⟩, ⟨"legacy:a", "", .custom "note" .null⟩]

theorem collidingBranch_not_distinct :
    ¬ ∀ (rules : HostRules) (scope : SessionScope) (branch : List SessionEntry)
        (events : List FormalEvent), OwnIds branch → recover rules scope branch = some events →
      EachOnce rules scope branch events ∧ (events.map FormalEvent.eventId).Nodup := by
  intro h
  have hmarkers : collidingBranch.filterMap SessionEntry.marker? = [] := by decide
  have hown : OwnIds collidingBranch := by
    refine ⟨by decide, ?_, ?_, ?_⟩
    · rw [hmarkers]
      exact List.nodup_nil
    · rw [hmarkers]
      exact List.forall_mem_nil _
    · rw [hmarkers]
      exact List.forall_mem_nil _
  have hids : (recover plainRules ⟨"s", "s"⟩ collidingBranch).map (List.map FormalEvent.eventId) =
      some ["legacy:a", "legacy:a"] := by decide
  obtain ⟨events, hevents, heq⟩ := Option.map_eq_some_iff.mp hids
  have hnodup := (h plainRules ⟨"s", "s"⟩ collidingBranch events hown hevents).2
  rw [heq] at hnodup
  revert hnodup
  decide

end RemotePi.Timeline
