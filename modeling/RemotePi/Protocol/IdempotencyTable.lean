import Mathlib.Data.List.Dedup
import RemotePi.Lib.Trace
import RemotePi.Protocol.Fingerprint

/-!
# The idempotency table

Runs of the record operations of `V2SessionState`
(`pi-extension/src/protocol/v2/session_state.ts`, lines 44–205): a table of records that
forgets the expired ones and, when it is full, the one that was touched least recently.

A call reads the clock once or twice, and no reading is before an earlier one.

Results:
* `Kept.step`: what every call keeps of the table.
* `lost_of_call`: why a record disappears.
* `rightAnswer_iff`: when `begin` tells requests and payloads apart.
* `idempotency_table`: all of it along a run.
-/

namespace RemotePi.Protocol

open RemotePi.Lib

namespace SessionState

/-! ## Operations with every reading of the clock -/

/-- The constructor (lines 52–58); none where it throws. -/
def create (generation : String) (maxEntries : Option ℚ) (ttlMs : Option ℤ) :
    Option SessionState :=
  if generation = "" then none
  else
    some
      { generation
        maxEntries := (max 1 (maxEntries.getD 512).floor).toNat
        ttlMs := max 1 (ttlMs.getD (10 * 60 * 1000))
        channels := .empty
        records := .empty }

/-- `begin` (lines 109–137) with the time of its pruning and the time of its touch; no
    result where an id is refused (`assertId`, lines 202–204). -/
def beginAt (digest : Json → String) (s : SessionState) (now touched : ℤ)
    (senderRef clientRequestId : String) (payload : Json) : SessionState × Option BeginResult :=
  let s := s.prune now
  if validId senderRef && validId clientRequestId then
    let key := recordKey s.generation senderRef clientRequestId
    let fingerprint := fingerprintPayload digest payload
    match s.records.get? key with
    | some existing =>
      let existing := { existing with touchedAt := touched }
      ({ s with records := s.records.moveLast key existing },
        some (if existing.fingerprint = fingerprint then .replay existing else .conflict existing))
    | none =>
      let record : IdempotencyRecord :=
        { key, generation := s.generation, senderRef, clientRequestId, fingerprint
          status := .received, messageId := none, groupId := none, touchedAt := touched }
      (({ s with records := s.records.set key record }).pruneCapacity, some (.new record))
  else (s, none)

/-- Where the clock stands still, that is `begin`. -/
theorem beginAt_self (digest : Json → String) (s : SessionState) (now : ℤ)
    {senderRef clientRequestId : String} (payload : Json) (hsender : validId senderRef = true)
    (hid : validId clientRequestId = true) :
    s.beginAt digest now now senderRef clientRequestId payload =
      ((s.begin digest now senderRef clientRequestId payload).1,
        some (s.begin digest now senderRef clientRequestId payload).2) := by
  unfold beginAt begin
  dsimp only
  rw [hsender, hid]
  cases (s.prune now).records.get?
    (recordKey (s.prune now).generation senderRef clientRequestId) with
  | none => rfl
  | some existing => rfl

/-- `update` (lines 139–154) with the times of its pruning and of its touch. -/
def updateAt (s : SessionState) (now touched : ℤ) (key : String) (status : IdempotencyStatus)
    (messageId groupId : Option String) : SessionState × Option IdempotencyRecord :=
  let s := s.prune now
  match s.records.get? key with
  | none => (s, none)
  | some record =>
    let record := updated record touched status messageId groupId
    ({ s with records := s.records.moveLast key record }, some record)

theorem updateAt_self (s : SessionState) (now : ℤ) (key : String) (status : IdempotencyStatus)
    (messageId groupId : Option String) :
    s.updateAt now now key status messageId groupId =
      s.update now key status messageId groupId := rfl

/-- `snapshot` (lines 170–176). -/
def snapshot (s : SessionState) (now : ℤ) :
    SessionState × List ChannelState × List IdempotencyRecord :=
  let s := s.prune now
  (s, s.channels.values, s.records.values)

end SessionState

/-! ## Runs -/

inductive TableCall where
  | begin (now touched : ℤ) (senderRef clientRequestId : String) (payload : Json)
  | update (now touched : ℤ) (key : String) (status : IdempotencyStatus)
      (messageId groupId : Option String)
  | getRecord (now : ℤ) (key : String)
  | forget (key : String)
  | snapshot (now : ℤ)
  | setGeneration (generation : String)

/-- What a call returns. -/
inductive TableAnswer where
  | begun (result : Option SessionState.BeginResult)
  | record (record : Option IdempotencyRecord)
  | forgotten (found : Bool)
  | shown (channels : List ChannelState) (records : List IdempotencyRecord)
  | done

namespace TableCall

/-- The readings of the clock. -/
def readings : TableCall → List ℤ
  | .begin now touched _ _ _ => [now, touched]
  | .update now touched _ _ _ _ => [now, touched]
  | .getRecord now _ => [now]
  | .snapshot now => [now]
  | .forget _ => []
  | .setGeneration _ => []

/-- A payload is a value of the language: its objects have distinct keys. -/
def payloadFits : TableCall → Bool
  | .begin _ _ _ _ payload => payload.distinctKeys
  | _ => true

/-- The state after a call and what it returns. An empty generation throws (line 65). -/
def perform (digest : Json → String) (s : SessionState) : TableCall → SessionState × TableAnswer
  | .begin now touched senderRef clientRequestId payload =>
    let (s, result) := s.beginAt digest now touched senderRef clientRequestId payload
    (s, .begun result)
  | .update now touched key status messageId groupId =>
    let (s, record) := s.updateAt now touched key status messageId groupId
    (s, .record record)
  | .getRecord now key =>
    let (s, record) := s.getRecord now key
    (s, .record record)
  | .forget key => (s.forget key, .forgotten (s.records.contains key))
  | .snapshot now =>
    let (s, channels, records) := s.snapshot now
    (s, .shown channels records)
  | .setGeneration generation =>
    (if generation = "" then s else s.setGeneration generation, .done)

/-- The key that a call touches. -/
def touchedKey (call : TableCall) (answer : TableAnswer) : List String :=
  match call, answer with
  | .begin _ _ _ _ _, .begun (some (.new record)) => [record.key]
  | .begin _ _ _ _ _, .begun (some (.replay record)) => [record.key]
  | .begin _ _ _ _ _, .begun (some (.conflict record)) => [record.key]
  | .update _ _ key _ _ _, .record (some _) => [key]
  | _, _ => []

end TableCall

/-- A table with what happened to it: the last reading of the clock, the keys in the order of
    their touches, and the payload for which the record of a request was made. -/
structure TableRun where
  state : SessionState
  clock : ℤ
  touches : List String
  payloadOf : String → String → Option Json

namespace TableRun

/-- A table that nothing has happened to. -/
def start (s : SessionState) (clock : ℤ) : TableRun := ⟨s, clock, [], fun _ _ => none⟩

/-- The payloads after a call: a new record is made for the payload of its call. -/
def payloadsAfter (run : TableRun) (call : TableCall) (answer : TableAnswer) :
    String → String → Option Json :=
  match call, answer with
  | .begin _ _ senderRef clientRequestId payload, .begun (some (.new _)) =>
    fun sender id =>
      if sender = senderRef ∧ id = clientRequestId then some payload else run.payloadOf sender id
  | _, _ => run.payloadOf

/-- The clock has not gone back, and the payload is a value of the language. -/
def Follows (run : TableRun) (call : TableCall) : Prop :=
  (run.clock :: call.readings).Pairwise (· ≤ ·) ∧ call.payloadFits = true

instance (run : TableRun) (call : TableCall) : Decidable (run.Follows call) :=
  inferInstanceAs (Decidable (_ ∧ _))

def step (digest : Json → String) (run : TableRun) (call : TableCall) : Option TableRun :=
  if run.Follows call then
    let (state, answer) := call.perform digest run.state
    some
      { state
        clock := call.readings.getLastD run.clock
        touches := run.touches ++ call.touchedKey answer
        payloadOf := run.payloadsAfter call answer }
  else none

end TableRun

/-! ## What is to hold of a call -/

/-- The table keeps its capacity, lists its records in the order of their last touch, and
    holds records of its generation only. -/
structure Tidy (run : TableRun) : Prop where
  size : run.state.records.entries.length ≤ run.state.maxEntries
  order : run.state.records.keys.Sublist run.touches.dedup
  times : (run.state.records.values.map IdempotencyRecord.touchedAt).Pairwise (· ≤ ·)
  current : ∀ key record, run.state.records.get? key = some record →
    record.generation = run.state.generation ∧ record.key = key ∧
      key = SessionState.recordKey run.state.generation record.senderRef record.clientRequestId

/-- Why the record of a key may disappear in a call: it has expired; a new record is added to
    a table that is full of records that have not, and it is the first of them, the one
    touched least recently; it is forgotten; or the generation changes. -/
def MayLose (digest : Json → String) (s : SessionState) (call : TableCall) (key : String)
    (record : IdempotencyRecord) : Prop :=
  (∃ now, call.readings.head? = some now ∧ s.isExpired now record = true) ∨
    (∃ now touched senderRef clientRequestId payload added,
      call = .begin now touched senderRef clientRequestId payload ∧
        (call.perform digest s).2 = .begun (some (.new added)) ∧
          (s.prune now).records.entries.length = s.maxEntries ∧
            (s.prune now).records.keys.head? = some key) ∨
    call = .forget key ∨
    ∃ generation, call = .setGeneration generation ∧ generation ≠ s.generation

/-- The record is that of the request, and has not expired. -/
def LiveFor (s : SessionState) (now : ℤ) (senderRef clientRequestId : String)
    (record : IdempotencyRecord) : Prop :=
  record ∈ s.records.values ∧ record.senderRef = senderRef ∧
    record.clientRequestId = clientRequestId ∧ s.isExpired now record = false

/-- `begin` answers that a request is new exactly when it has no live record, and otherwise
    that it is a replay exactly when its payload is that of the record. -/
def RightAnswer (digest : Json → String) (run : TableRun) : TableCall → Prop
  | .begin now touched senderRef clientRequestId payload =>
    validId senderRef = true → validId clientRequestId = true →
      ((∃ added, (run.state.beginAt digest now touched senderRef clientRequestId payload).2 =
          some (.new added)) ↔
        ∀ record, ¬ LiveFor run.state now senderRef clientRequestId record) ∧
      ∀ record, LiveFor run.state now senderRef clientRequestId record →
        ((∃ found, (run.state.beginAt digest now touched senderRef clientRequestId payload).2 =
            some (.replay found)) ↔
          ∃ recorded, run.payloadOf senderRef clientRequestId = some recorded ∧
            recorded.same payload = true)
  | _ => True

/-- What is to hold of a call in a run. -/
def CallHolds (digest : Json → String) (run : TableRun) (call : TableCall) : Prop :=
  run.Follows call → ∀ after, run.step digest call = some after →
    Tidy after ∧
      (∀ key record, run.state.records.get? key = some record →
        after.state.records.get? key = none → MayLose digest run.state call key record) ∧
      RightAnswer digest run call

/-- The request is told from the others: no live record of another request has a key that is
    spelled the same, and the payload recorded for this one still differs, if it does, without
    the members named `__proto__`. -/
def ToldApart (run : TableRun) : TableCall → Prop
  | .begin now touched senderRef clientRequestId payload =>
    run.Follows (.begin now touched senderRef clientRequestId payload) →
    validId senderRef = true → validId clientRequestId = true →
      (∀ record ∈ run.state.records.values, run.state.isExpired now record = false →
        record.senderRef ++ "\x00" ++ record.clientRequestId =
            senderRef ++ "\x00" ++ clientRequestId →
          record.senderRef = senderRef ∧ record.clientRequestId = clientRequestId) ∧
      ∀ record, LiveFor run.state now senderRef clientRequestId record →
        ∀ recorded, run.payloadOf senderRef clientRequestId = some recorded →
          (recorded.dropKey "__proto__").same (payload.dropKey "__proto__") = true →
            recorded.same payload = true
  | _ => True

/-! ## Steps of a table -/

/-- What a run keeps: besides its order, the payload of every record, and times that are not
    in the future. -/
structure Kept (digest : Json → String) (run : TableRun) : Prop extends Tidy run where
  capacity : 1 ≤ run.state.maxEntries
  stamped : ∀ record ∈ run.state.records.values, record.touchedAt ≤ run.clock
  made : ∀ record ∈ run.state.records.values, ∃ payload,
    run.payloadOf record.senderRef record.clientRequestId = some payload ∧
      payload.distinctKeys = true ∧ record.fingerprint = fingerprintPayload digest payload

theorem dedup_concat (l : List String) (a : String) :
    (l ++ [a]).dedup = (l.dedup.filter fun b => decide (b ≠ a)) ++ [a] := by
  induction l with
  | nil => rfl
  | cons b l ih =>
    by_cases hmem : b ∈ l
    · rw [List.cons_append, List.dedup_cons_of_mem (List.mem_append_left _ hmem), ih,
        List.dedup_cons_of_mem hmem]
    · rw [List.cons_append, List.dedup_cons_of_notMem hmem]
      by_cases heq : b = a
      · rw [List.dedup_cons_of_mem (by rw [heq]; simp), ih,
          List.filter_cons_of_neg (by simpa using heq)]
      · rw [List.dedup_cons_of_notMem (by simpa using ⟨hmem, heq⟩), ih,
          List.filter_cons_of_pos (by simpa using heq), List.cons_append]

section Steps

variable {digest : Json → String} {run : TableRun}

/-- Records may go. -/
theorem Kept.sublist (h : Kept digest run) {records : OrderedMap String IdempotencyRecord}
    (hsub : records.entries.Sublist run.state.records.entries) {clock : ℤ}
    (hclock : run.clock ≤ clock) :
    Kept digest { run with state := { run.state with records }, clock } where
  size := hsub.length_le.trans h.size
  order := (hsub.map Prod.fst).trans h.order
  times := h.times.sublist ((hsub.map Prod.snd).map _)
  current key record hget := h.current key record (OrderedMap.get?_of_sublist hsub hget)
  capacity := h.capacity
  stamped record hrecord := (h.stamped record ((hsub.map Prod.snd).subset hrecord)).trans hclock
  made record hrecord := h.made record ((hsub.map Prod.snd).subset hrecord)

theorem Kept.untouched (h : Kept digest run) :
    Kept digest ⟨run.state, run.clock, run.touches ++ [], run.payloadOf⟩ := by
  rw [List.append_nil]
  exact h

/-- A record goes last, after records that were there. -/
theorem Kept.append (h : Kept digest run) {kept : List (String × IdempotencyRecord)}
    (hsub : kept.Sublist run.state.records.entries) {key : String} {new : IdempotencyRecord}
    {records : OrderedMap String IdempotencyRecord} (hrecords : records.entries = kept ++ [(key, new)])
    (hsize : records.entries.length ≤ run.state.maxEntries)
    (hnew : new.generation = run.state.generation ∧ new.key = key ∧
      key = SessionState.recordKey run.state.generation new.senderRef new.clientRequestId)
    (hclock : run.clock ≤ new.touchedAt) {payloadOf : String → String → Option Json}
    (hsame : ∀ record ∈ kept.map Prod.snd,
      payloadOf record.senderRef record.clientRequestId =
        run.payloadOf record.senderRef record.clientRequestId)
    (hmade : ∃ payload, payloadOf new.senderRef new.clientRequestId = some payload ∧
      payload.distinctKeys = true ∧ new.fingerprint = fingerprintPayload digest payload) :
    Kept digest ⟨{ run.state with records }, new.touchedAt, run.touches ++ [key], payloadOf⟩ := by
  have hin : (kept.map Prod.snd).Sublist run.state.records.values := hsub.map _
  have hvalues : records.values = kept.map Prod.snd ++ [new] := by
    rw [OrderedMap.values, hrecords, List.map_append]
    rfl
  have hkeys : records.keys = kept.map Prod.fst ++ [key] := by
    rw [OrderedMap.keys, hrecords, List.map_append]
    rfl
  have hne : key ∉ kept.map Prod.fst := by
    have hn := records.nodup
    rw [← OrderedMap.keys, hkeys, List.nodup_append] at hn
    intro hmem
    exact hn.2.2 key hmem key List.mem_cons_self rfl
  refine ⟨⟨hsize, ?_, ?_, ?_⟩, h.capacity, ?_, ?_⟩
  · show records.keys.Sublist _
    rw [hkeys, dedup_concat]
    refine List.Sublist.append ?_ (List.Sublist.refl _)
    have hfilter : (kept.map Prod.fst).filter (fun k => decide (k ≠ key)) = kept.map Prod.fst := by
      refine List.filter_eq_self.mpr fun k hk => decide_eq_true ?_
      rintro rfl
      exact hne hk
    rw [← hfilter]
    exact ((hsub.map Prod.fst).trans h.order).filter _
  · show (records.values.map _).Pairwise _
    rw [hvalues, List.map_append, List.pairwise_append]
    refine ⟨h.times.sublist (hin.map _), List.pairwise_singleton _ _, ?_⟩
    intro a ha b hb
    obtain ⟨record, hrecord, rfl⟩ := List.mem_map.mp ha
    rw [List.map_singleton, List.mem_singleton] at hb
    rw [hb]
    exact (h.stamped record (hin.subset hrecord)).trans hclock
  · intro key' record hget
    have hmem := OrderedMap.mem_entries_iff.mpr hget
    rw [hrecords, List.mem_append, List.mem_singleton] at hmem
    rcases hmem with hmem | hmem
    · exact h.current key' record (OrderedMap.mem_entries_iff.mp (hsub.subset hmem))
    · cases hmem
      exact hnew
  · intro record hrecord
    have hmem : record ∈ kept.map Prod.snd ++ [new] := by
      rw [← hvalues]
      exact hrecord
    rcases List.mem_append.mp hmem with hmem | hmem
    · exact (h.stamped record (hin.subset hmem)).trans hclock
    · rw [List.mem_singleton.mp hmem]
  · intro record hrecord
    have hmem : record ∈ kept.map Prod.snd ++ [new] := by
      rw [← hvalues]
      exact hrecord
    rcases List.mem_append.mp hmem with hmem | hmem
    · show ∃ payload, payloadOf _ _ = _ ∧ _
      rw [hsame record hmem]
      exact h.made record (hin.subset hmem)
    · rw [List.mem_singleton.mp hmem]
      exact hmade

/-- A record is touched. -/
theorem Kept.touch (h : Kept digest run) {key : String} {old new : IdempotencyRecord}
    (hget : run.state.records.get? key = some old)
    (hsame : new.key = old.key ∧ new.generation = old.generation ∧
      new.senderRef = old.senderRef ∧ new.clientRequestId = old.clientRequestId ∧
        new.fingerprint = old.fingerprint)
    (hclock : run.clock ≤ new.touchedAt) :
    Kept digest
      ⟨{ run.state with records := run.state.records.moveLast key new }, new.touchedAt,
        run.touches ++ [key], run.payloadOf⟩ := by
  obtain ⟨hkey, hgeneration, hsender, hid, hfingerprint⟩ := hsame
  refine h.append List.filter_sublist (OrderedMap.entries_moveLast _ _ _) ?_ ?_ hclock
    (fun _ _ => rfl) ?_
  · exact (OrderedMap.length_moveLast hget).le.trans h.size
  · rw [hgeneration, hkey, hsender, hid]
    exact h.current key old hget
  · rw [hsender, hid, hfingerprint]
    exact h.made old (OrderedMap.mem_values.mpr ⟨key, hget⟩)

/-- A record is added for a request that has none. -/
theorem Kept.add (h : Kept digest run) {record : IdempotencyRecord} {payload : Json}
    (hget : run.state.records.get? record.key = none)
    (hnew : record.generation = run.state.generation ∧ record.key =
      SessionState.recordKey run.state.generation record.senderRef record.clientRequestId)
    (hclock : run.clock ≤ record.touchedAt) (hpayload : payload.distinctKeys = true)
    (hfingerprint : record.fingerprint = fingerprintPayload digest payload) :
    Kept digest
      ⟨SessionState.pruneCapacity
          { run.state with records := run.state.records.set record.key record },
        record.touchedAt, run.touches ++ [record.key],
        fun sender id =>
          if sender = record.senderRef ∧ id = record.clientRequestId then some payload
          else run.payloadOf sender id⟩ := by
  have hentries := @entries_pruneCapacity_set run.state record.key record h.capacity hget
  refine h.append (List.drop_sublist _ _) hentries ?_ ⟨hnew.1, rfl, hnew.2⟩ hclock ?_ ?_
  · show (SessionState.pruneCapacity
      { run.state with records := run.state.records.set record.key record }).records.entries.length
        ≤ _
    rw [hentries, List.length_append, List.length_drop, List.length_singleton]
    have := h.size
    have := h.capacity
    omega
  · intro other hother
    refine if_neg ?_
    rintro ⟨hsender, hid⟩
    -- a record of the same request would stand under the key of the new one
    obtain ⟨⟨key, found⟩, hmem, rfl⟩ := List.mem_map.mp hother
    have hfound := OrderedMap.mem_entries_iff.mp ((List.drop_sublist _ _).subset hmem)
    have hkey := (h.current key found hfound).2.2
    dsimp only at hsender hid
    rw [hsender, hid, ← hnew.2] at hkey
    rw [hkey, hget] at hfound
    cases hfound
  · exact ⟨payload, if_pos ⟨rfl, rfl⟩, hpayload, hfingerprint⟩

theorem Kept.prune (h : Kept digest run) {now : ℤ} (hclock : run.clock ≤ now) :
    Kept digest ⟨run.state.prune now, now, run.touches, run.payloadOf⟩ :=
  h.sublist (SessionState.entries_prune_sublist run.state now) hclock

/-- A new generation starts without records. -/
theorem Kept.clear (h : Kept digest run) (generation : String) :
    Kept digest
      ⟨{ run.state with generation, records := .empty }, run.clock, run.touches, run.payloadOf⟩ where
  size := Nat.zero_le _
  order := List.nil_sublist _
  times := List.Pairwise.nil
  current key record hget := by cases hget
  capacity := h.capacity
  stamped record hrecord := by cases hrecord
  made record hrecord := by cases hrecord

end Steps

/-! ## What `begin` does -/

section Begin

variable {digest : Json → String} {s : SessionState} {now touched : ℤ}
  {senderRef clientRequestId : String} {payload : Json}

theorem beginAt_of_refused (h : (validId senderRef && validId clientRequestId) = false) :
    s.beginAt digest now touched senderRef clientRequestId payload = (s.prune now, none) := by
  unfold SessionState.beginAt
  dsimp only
  rw [h]
  rfl

theorem beginAt_of_some {existing : IdempotencyRecord}
    (h : (validId senderRef && validId clientRequestId) = true)
    (hget : (s.prune now).records.get? (SessionState.recordKey s.generation senderRef
      clientRequestId) = some existing) :
    s.beginAt digest now touched senderRef clientRequestId payload =
      ({ s.prune now with
          records := (s.prune now).records.moveLast
            (SessionState.recordKey s.generation senderRef clientRequestId)
            { existing with touchedAt := touched } },
        some (if existing.fingerprint = fingerprintPayload digest payload then
          .replay { existing with touchedAt := touched }
        else .conflict { existing with touchedAt := touched })) := by
  unfold SessionState.beginAt
  dsimp only
  rw [h, if_pos rfl, SessionState.generation_prune, hget]

/-- The record that `begin` makes. -/
def newRecord (digest : Json → String) (s : SessionState) (touched : ℤ)
    (senderRef clientRequestId : String) (payload : Json) : IdempotencyRecord :=
  { key := SessionState.recordKey s.generation senderRef clientRequestId
    generation := s.generation
    senderRef, clientRequestId
    fingerprint := fingerprintPayload digest payload
    status := .received, messageId := none, groupId := none, touchedAt := touched }

theorem beginAt_of_none (h : (validId senderRef && validId clientRequestId) = true)
    (hget : (s.prune now).records.get? (SessionState.recordKey s.generation senderRef
      clientRequestId) = none) :
    s.beginAt digest now touched senderRef clientRequestId payload =
      (SessionState.pruneCapacity
          { s.prune now with
            records := (s.prune now).records.set
              (SessionState.recordKey s.generation senderRef clientRequestId)
              (newRecord digest s touched senderRef clientRequestId payload) },
        some (.new (newRecord digest s touched senderRef clientRequestId payload))) := by
  unfold SessionState.beginAt
  dsimp only
  rw [h, if_pos rfl, SessionState.generation_prune, hget]
  rfl

end Begin

section Run

variable {digest : Json → String} {run after : TableRun} {call : TableCall}

theorem step_eq_some (h : run.step digest call = some after) :
    run.Follows call ∧ after =
      { state := (call.perform digest run.state).1
        clock := call.readings.getLastD run.clock
        touches := run.touches ++ call.touchedKey (call.perform digest run.state).2
        payloadOf := run.payloadsAfter call (call.perform digest run.state).2 } := by
  unfold TableRun.step at h
  split_ifs at h with hfollows
  cases h
  exact ⟨hfollows, rfl⟩

theorem time_le {clock now : ℤ} (h : [clock, now].Pairwise (· ≤ ·)) : clock ≤ now :=
  (List.pairwise_cons.mp h).1 now List.mem_cons_self

theorem times_le {clock now touched : ℤ} (h : [clock, now, touched].Pairwise (· ≤ ·)) :
    clock ≤ now ∧ now ≤ touched :=
  ⟨(List.pairwise_cons.mp h).1 now List.mem_cons_self, time_le (List.pairwise_cons.mp h).2⟩

/-- Every call keeps the table. -/
theorem Kept.step (h : Kept digest run) (hstep : run.step digest call = some after) :
    Kept digest after := by
  obtain ⟨⟨hclock, hpayload⟩, rfl⟩ := step_eq_some hstep
  cases call with
  | begin now touched senderRef clientRequestId payload =>
    obtain ⟨hnow, htouched⟩ := times_le hclock
    unfold TableCall.perform
    dsimp only
    by_cases hvalid : (validId senderRef && validId clientRequestId) = true
    · cases hget : (run.state.prune now).records.get?
          (SessionState.recordKey run.state.generation senderRef clientRequestId) with
      | some existing =>
        rw [beginAt_of_some hvalid hget]
        have hkept := @Kept.touch digest _ (h.prune hnow) _ existing
          { existing with touchedAt := touched } hget ⟨rfl, rfl, rfl, rfl, rfl⟩ htouched
        have hkey := ((h.prune hnow).current _ existing hget).2.1
        rw [← hkey] at hkept ⊢
        by_cases hsame : existing.fingerprint = fingerprintPayload digest payload
        · rw [if_pos hsame]
          exact hkept
        · rw [if_neg hsame]
          exact hkept
      | none =>
        rw [beginAt_of_none hvalid hget]
        exact @Kept.add digest _ (h.prune hnow) (newRecord digest run.state touched senderRef
          clientRequestId payload) payload hget ⟨rfl, rfl⟩ htouched hpayload rfl
    · rw [Bool.not_eq_true] at hvalid
      rw [beginAt_of_refused hvalid]
      exact (h.sublist (SessionState.entries_prune_sublist run.state now)
        (hnow.trans htouched)).untouched
  | update now touched key status messageId groupId =>
    obtain ⟨hnow, htouched⟩ := times_le hclock
    unfold TableCall.perform SessionState.updateAt
    dsimp only
    cases hget : (run.state.prune now).records.get? key with
    | some record =>
      exact @Kept.touch digest _ (h.prune hnow) key record
        (SessionState.updated record touched status messageId groupId) hget
        ⟨rfl, rfl, rfl, rfl, rfl⟩ htouched
    | none =>
      exact (h.sublist (SessionState.entries_prune_sublist run.state now)
        (hnow.trans htouched)).untouched
  | getRecord now key =>
    exact (h.prune (time_le hclock)).untouched
  | forget key =>
    have hsub : (run.state.forget key).records.entries.Sublist run.state.records.entries :=
      List.filter_sublist
    exact (h.sublist hsub (le_refl run.clock)).untouched
  | snapshot now =>
    exact (h.prune (time_le hclock)).untouched
  | setGeneration generation =>
    unfold TableCall.perform SessionState.setGeneration
    dsimp only
    by_cases hempty : generation = ""
    · rw [if_pos hempty]
      exact h.untouched
    · rw [if_neg hempty]
      by_cases hsame : generation = run.state.generation
      · rw [if_pos hsame]
        exact h.untouched
      · rw [if_neg hsame]
        exact (h.clear generation).untouched

/-! ## Why records disappear -/

theorem Kept.wf (h : Kept digest run) : run.state.Wf where
  size := h.size
  keys key record hget := (h.current key record hget).2.1

/-- Pruning takes what has expired. -/
theorem Kept.isExpired_of_prune (h : Kept digest run) {now : ℤ} {key : String}
    {record : IdempotencyRecord} (hget : run.state.records.get? key = some record)
    (hgone : (run.state.prune now).records.get? key = none) :
    run.state.isExpired now record = true := by
  by_contra hlive
  rw [h.wf.get?_prune_of_live hget (by simpa using hlive)] at hgone
  cases hgone

theorem lost_of_call (h : Kept digest run) (hstep : run.step digest call = some after)
    {key : String} {record : IdempotencyRecord} (hget : run.state.records.get? key = some record)
    (hgone : after.state.records.get? key = none) :
    MayLose digest run.state call key record := by
  obtain ⟨-, rfl⟩ := step_eq_some hstep
  have hpruned : ∀ now, (run.state.prune now).records.get? key = none →
      call.readings.head? = some now → MayLose digest run.state call key record := by
    intro now hnone hnow
    exact Or.inl ⟨now, hnow, h.isExpired_of_prune hget hnone⟩
  have hkept : ∀ now, (run.state.prune now).records.get? key ≠ none →
      (run.state.prune now).records.get? key = some record := by
    intro now hne
    obtain ⟨found, hfound⟩ := Option.ne_none_iff_exists'.mp hne
    rw [hfound, ← (SessionState.get?_prune hfound).1, hget]
  cases call with
  | begin now touched senderRef clientRequestId payload =>
    by_cases hnone : (run.state.prune now).records.get? key = none
    · exact hpruned now hnone rfl
    · have hleft := hkept now hnone
      unfold TableCall.perform at hgone
      dsimp only at hgone
      by_cases hvalid : (validId senderRef && validId clientRequestId) = true
      · cases hfound : (run.state.prune now).records.get?
            (SessionState.recordKey run.state.generation senderRef clientRequestId) with
        | some existing =>
          rw [beginAt_of_some hvalid hfound] at hgone
          dsimp only at hgone
          rw [OrderedMap.get?_moveLast] at hgone
          split_ifs at hgone
          exact absurd hgone hnone
        | none =>
          refine Or.inr (Or.inl ⟨now, touched, senderRef, clientRequestId, payload,
            newRecord digest run.state touched senderRef clientRequestId payload, rfl, ?_, ?_⟩)
          · unfold TableCall.perform
            dsimp only
            rw [beginAt_of_none hvalid hfound]
          · rw [beginAt_of_none hvalid hfound] at hgone
            exact head?_of_lost (h.wf.prune now).size h.capacity hfound hleft hgone
      · rw [Bool.not_eq_true] at hvalid
        rw [beginAt_of_refused hvalid] at hgone
        exact absurd hgone hnone
  | update now touched key' status messageId groupId =>
    by_cases hnone : (run.state.prune now).records.get? key = none
    · exact hpruned now hnone rfl
    · unfold TableCall.perform SessionState.updateAt at hgone
      dsimp only at hgone
      cases hfound : (run.state.prune now).records.get? key' with
      | some existing =>
        rw [hfound] at hgone
        dsimp only at hgone
        rw [OrderedMap.get?_moveLast] at hgone
        split_ifs at hgone
        exact absurd hgone hnone
      | none =>
        rw [hfound] at hgone
        exact absurd hgone hnone
  | getRecord now key' => exact hpruned now hgone rfl
  | snapshot now => exact hpruned now hgone rfl
  | forget key' =>
    have herase : (run.state.records.erase key').get? key = none := hgone
    rw [OrderedMap.get?_erase] at herase
    split_ifs at herase with hkey
    · rw [hkey]
      exact Or.inr (Or.inr (Or.inl rfl))
    · rw [hget] at herase
      cases herase
  | setGeneration generation =>
    refine Or.inr (Or.inr (Or.inr ⟨generation, rfl, ?_⟩))
    intro hsame
    unfold TableCall.perform SessionState.setGeneration at hgone
    dsimp only at hgone
    rw [if_pos hsame, ite_self, hget] at hgone
    cases hgone

/-! ## What `begin` answers -/

theorem recordKey_inj {generation sender sender' id id' : String} :
    SessionState.recordKey generation sender id = SessionState.recordKey generation sender' id' ↔
      sender ++ "\x00" ++ id = sender' ++ "\x00" ++ id' := by
  unfold SessionState.recordKey
  simp only [String.append_assoc, String.append_right_inj]

/-- The record of a request that has not expired stands under the key of the request. -/
theorem Kept.get?_of_liveFor (h : Kept digest run) {now : ℤ} {senderRef clientRequestId : String}
    {record : IdempotencyRecord} (hlive : LiveFor run.state now senderRef clientRequestId record) :
    (run.state.prune now).records.get?
      (SessionState.recordKey run.state.generation senderRef clientRequestId) = some record := by
  obtain ⟨hmem, rfl, rfl, hexpired⟩ := hlive
  obtain ⟨key, hget⟩ := OrderedMap.mem_values.mp hmem
  rw [← (h.current key record hget).2.2]
  exact h.wf.get?_prune_of_live hget hexpired

/-- A record under the key of a request is live for a request that is spelled the same. -/
theorem Kept.liveFor_of_get? (h : Kept digest run) {now : ℤ} {senderRef clientRequestId : String}
    {record : IdempotencyRecord}
    (hget : (run.state.prune now).records.get?
      (SessionState.recordKey run.state.generation senderRef clientRequestId) = some record) :
    LiveFor run.state now record.senderRef record.clientRequestId record ∧
      record.senderRef ++ "\x00" ++ record.clientRequestId =
        senderRef ++ "\x00" ++ clientRequestId := by
  obtain ⟨hbefore, hexpired⟩ := SessionState.get?_prune hget
  refine ⟨⟨OrderedMap.mem_values.mpr ⟨_, hbefore⟩, rfl, rfl, hexpired⟩, ?_⟩
  exact recordKey_inj.mp (h.current _ record hbefore).2.2.symm

theorem beginAt_new_iff {s : SessionState} {now touched : ℤ} {senderRef clientRequestId : String}
    {payload : Json} (hvalid : (validId senderRef && validId clientRequestId) = true) :
    (∃ added, (s.beginAt digest now touched senderRef clientRequestId payload).2 =
        some (.new added)) ↔
      (s.prune now).records.get?
        (SessionState.recordKey s.generation senderRef clientRequestId) = none := by
  cases hget : (s.prune now).records.get?
      (SessionState.recordKey s.generation senderRef clientRequestId) with
  | some existing =>
    rw [beginAt_of_some hvalid hget]
    by_cases hsame : existing.fingerprint = fingerprintPayload digest payload
    · simp [hsame]
    · simp [hsame]
  | none =>
    rw [beginAt_of_none hvalid hget]
    simp

theorem beginAt_replay_iff {s : SessionState} {now touched : ℤ}
    {senderRef clientRequestId : String} {payload : Json} {record : IdempotencyRecord}
    (hvalid : (validId senderRef && validId clientRequestId) = true)
    (hget : (s.prune now).records.get?
      (SessionState.recordKey s.generation senderRef clientRequestId) = some record) :
    (∃ found, (s.beginAt digest now touched senderRef clientRequestId payload).2 =
        some (.replay found)) ↔
      record.fingerprint = fingerprintPayload digest payload := by
  rw [beginAt_of_some hvalid hget]
  by_cases hsame : record.fingerprint = fingerprintPayload digest payload
  · simp [hsame]
  · simp [hsame]

/-- The fingerprint of a record is that of a payload exactly when its own payload is the same
    without the members named `__proto__`. -/
theorem Kept.fingerprint_iff (h : Kept digest run) (hdigest : CollisionFree digest)
    {record : IdempotencyRecord} (hrecord : record ∈ run.state.records.values) {payload : Json}
    (hpayload : payload.distinctKeys = true) :
    ∃ recorded, run.payloadOf record.senderRef record.clientRequestId = some recorded ∧
      recorded.distinctKeys = true ∧
        (record.fingerprint = fingerprintPayload digest payload ↔
          (recorded.dropKey "__proto__").same (payload.dropKey "__proto__") = true) := by
  obtain ⟨recorded, hof, hdistinct, hfingerprint⟩ := h.made record hrecord
  refine ⟨recorded, hof, hdistinct, ?_⟩
  rw [hfingerprint, ← canonicalize_eq_iff hdistinct hpayload]
  exact ⟨hdigest recorded payload, fun heq => congrArg digest heq⟩

/-- `begin` answers right exactly when the request is told from the others. -/
theorem rightAnswer_iff (h : Kept digest run) (hdigest : CollisionFree digest)
    (hfollows : run.Follows call) : RightAnswer digest run call ↔ ToldApart run call := by
  cases call with
  | begin now touched senderRef clientRequestId payload =>
    constructor
    · intro hright _ hsender hid
      have hvalid : (validId senderRef && validId clientRequestId) = true := by simp [hsender, hid]
      obtain ⟨hnew, hreplay⟩ := hright hsender hid
      constructor
      · intro record hrecord hexpired hspelled
        have hget := h.get?_of_liveFor ⟨hrecord, rfl, rfl, hexpired⟩
        rw [recordKey_inj.mpr hspelled] at hget
        have hnotNew : ¬ ∃ added, (run.state.beginAt digest now touched senderRef clientRequestId
            payload).2 = some (.new added) := by
          rw [beginAt_new_iff hvalid, hget]
          simp
        rw [hnew] at hnotNew
        push Not at hnotNew
        obtain ⟨other, hlive⟩ := hnotNew
        obtain rfl : other = record := Option.some.inj ((h.get?_of_liveFor hlive).symm.trans hget)
        exact ⟨hlive.2.1, hlive.2.2.1⟩
      · intro record hlive recorded hof hdropped
        have hget := h.get?_of_liveFor hlive
        obtain ⟨recorded', hof', -, hiff⟩ := h.fingerprint_iff hdigest hlive.1 hfollows.2
        rw [hlive.2.1, hlive.2.2.1, hof] at hof'
        obtain rfl := Option.some.inj hof'
        obtain ⟨found, hfound, hsame⟩ := (hreplay record hlive).mp
          ((beginAt_replay_iff hvalid hget).mpr (hiff.mpr hdropped))
        rw [hof] at hfound
        rw [Option.some.inj hfound]
        exact hsame
    · intro htold hsender hid
      have hvalid : (validId senderRef && validId clientRequestId) = true := by simp [hsender, hid]
      obtain ⟨hspelled, hpayloads⟩ := htold hfollows hsender hid
      refine ⟨?_, ?_⟩
      · rw [beginAt_new_iff hvalid]
        constructor
        · intro hnone record hlive
          rw [h.get?_of_liveFor hlive] at hnone
          cases hnone
        · intro hnot
          by_contra hne
          obtain ⟨existing, hget⟩ := Option.ne_none_iff_exists'.mp hne
          obtain ⟨hlive, hsame⟩ := h.liveFor_of_get? hget
          obtain ⟨hs, hi⟩ := hspelled existing hlive.1 hlive.2.2.2 hsame
          rw [hs, hi] at hlive
          exact hnot existing hlive
      · intro record hlive
        obtain ⟨recorded, hof, hdistinct, hiff⟩ := h.fingerprint_iff hdigest hlive.1 hfollows.2
        rw [hlive.2.1, hlive.2.2.1] at hof
        rw [beginAt_replay_iff hvalid (h.get?_of_liveFor hlive), hiff]
        constructor
        · intro hdropped
          exact ⟨recorded, hof, hpayloads record hlive recorded hof hdropped⟩
        · intro ⟨found, hfound, hsame⟩
          rw [hof] at hfound
          rw [Option.some.inj hfound] at hdistinct ⊢
          exact Json.same_dropKey "__proto__" found payload hdistinct hsame
  | update => exact Iff.rfl
  | getRecord => exact Iff.rfl
  | forget => exact Iff.rfl
  | snapshot => exact Iff.rfl
  | setGeneration => exact Iff.rfl

theorem callHolds_iff (h : Kept digest run) (hdigest : CollisionFree digest) :
    CallHolds digest run call ↔ ToldApart run call := by
  by_cases hfollows : run.Follows call
  · rw [← rightAnswer_iff h hdigest hfollows]
    obtain ⟨after, hafter⟩ : ∃ after, run.step digest call = some after := by
      unfold TableRun.step
      rw [if_pos hfollows]
      exact ⟨_, rfl⟩
    constructor
    · intro hholds
      exact (hholds hfollows after hafter).2.2
    · intro hright _ after' hstep
      refine ⟨(h.step hstep).toTidy, ?_, hright⟩
      intro key record hget hgone
      exact lost_of_call h hstep hget hgone
  · constructor
    · intro _
      cases call with
      | begin now touched senderRef clientRequestId payload =>
        intro hyes
        exact absurd hyes hfollows
      | _ => trivial
    · intro _ hyes
      exact absurd hyes hfollows

/-! ## Runs -/

theorem kept_start {generation : String} {maxEntries : Option ℚ} {ttlMs : Option ℤ}
    {s : SessionState} (h : SessionState.create generation maxEntries ttlMs = some s) (clock : ℤ) :
    Kept digest (TableRun.start s clock) := by
  unfold SessionState.create at h
  split_ifs at h
  cases h
  refine ⟨⟨Nat.zero_le _, List.nil_sublist _, List.Pairwise.nil, ?_⟩, ?_, ?_, ?_⟩
  · intro key record hget
    cases hget
  · show 1 ≤ (max 1 _ : ℤ).toNat
    omega
  · intro record hrecord
    cases hrecord
  · intro record hrecord
    cases hrecord

/-- **The idempotency table**: in a run of calls on a new table, whose clock does not go back,
    all that is to hold of every call does exactly when every request that is begun is told
    from the others. -/
theorem idempotency_table (hdigest : CollisionFree digest) {generation : String}
    {maxEntries : Option ℚ} {ttlMs : Option ℤ} {s : SessionState}
    (h : SessionState.create generation maxEntries ttlMs = some s) (clock : ℤ)
    (calls : List TableCall) :
    Along (TableRun.step digest) (CallHolds digest) (.start s clock) calls ↔
      Along (TableRun.step digest) ToldApart (.start s clock) calls :=
  along_congr (fun _ _ _ hkept _ hstep => Kept.step hkept hstep)
    (fun _ _ hkept => callHolds_iff hkept hdigest) (kept_start h clock) calls

end Run

/-! ## A payload with a member named `__proto__` -/

def protoPayload : Json := .object [("__proto__", .number 1)]

/-- A request that is begun again without its only member. -/
def protoCalls : List TableCall :=
  [.begin 0 0 "a" "r" protoPayload, .begin 0 0 "a" "r" (.object [])]

theorem create_default : SessionState.create "g" none none = some (.new "g") := by
  have hentries : (max 1 ((none : Option ℚ).getD 512).floor).toNat = 512 := by decide
  unfold SessionState.create
  rw [if_neg (by decide), hentries]
  rfl

/-- The run after the first of the calls. -/
def protoRun : TableRun :=
  { state :=
      { SessionState.new "g" with
        records := OrderedMap.empty.set (SessionState.recordKey "g" "a" "r")
          (newRecord codeDigest (.new "g") 0 "a" "r" protoPayload) }
    clock := 0
    touches := [SessionState.recordKey "g" "a" "r"]
    payloadOf := fun sender id =>
      if sender = "a" ∧ id = "r" then some protoPayload else none }

theorem protoRun_step : TableRun.step codeDigest (.start (.new "g") 0)
    (.begin 0 0 "a" "r" protoPayload) = some protoRun := by
  have hget : ((SessionState.new "g").prune 0).records.get?
      (SessionState.recordKey "g" "a" "r") = none := rfl
  unfold TableRun.step
  rw [if_pos (by decide)]
  unfold TableCall.perform
  dsimp only [TableRun.start]
  rw [beginAt_of_none (by decide) hget]
  rfl

/-- A request that is begun again with the same payload. -/
def retriedCalls : List TableCall :=
  [.begin 0 0 "a" "r" protoPayload, .begin 0 0 "a" "r" protoPayload]

theorem retriedCalls_table :
    Along (TableRun.step codeDigest) (CallHolds codeDigest) (.start (.new "g") 0) retriedCalls := by
  refine (idempotency_table collisionFree_codeDigest create_default 0 retriedCalls).mpr
    ⟨fun _ _ _ => ⟨nofun, fun record hlive => ?_⟩, fun t ht => ?_⟩
  · cases hlive.1
  · rw [protoRun_step] at ht
    cases ht
    refine ⟨fun _ _ _ => ⟨fun record hrecord _ _ => ?_, fun record _ recorded hrecorded _ => ?_⟩,
      fun _ _ => trivial⟩
    · rw [List.mem_singleton.mp hrecord]
      exact ⟨rfl, rfl⟩
    · cases hrecorded
      decide

theorem protoCalls_not_told :
    ¬ ∀ (digest : Json → String), CollisionFree digest →
      ∀ (generation : String) (maxEntries : Option ℚ) (ttlMs : Option ℤ) (s : SessionState),
        SessionState.create generation maxEntries ttlMs = some s →
          ∀ (clock : ℤ) (calls : List TableCall),
            Along (TableRun.step digest) (CallHolds digest) (.start s clock) calls := by
  intro h
  have hcalls := h codeDigest collisionFree_codeDigest "g" none none _ create_default 0 protoCalls
  have hkept : Kept codeDigest protoRun :=
    (kept_start create_default 0).step protoRun_step
  have hsecond := (hcalls.2 protoRun protoRun_step).1
  have htold := (callHolds_iff hkept collisionFree_codeDigest).mp hsecond
  have hlive : LiveFor protoRun.state 0 "a" "r"
      (newRecord codeDigest (.new "g") 0 "a" "r" protoPayload) :=
    ⟨List.mem_cons_self, rfl, rfl, rfl⟩
  have hsame := (htold (by decide) (by decide) (by decide)).2 _ hlive protoPayload rfl (by decide)
  revert hsame
  decide

end RemotePi.Protocol
