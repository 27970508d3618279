import Mathlib.Data.Int.Notation
import Mathlib.Data.List.Lex
import RemotePi.Lib.Json
import RemotePi.Lib.OrderedMap
import RemotePi.Protocol.HistoryFrames

/-!
# The state of an owner's session

Model of `V2SessionState` (`pi-extension/src/protocol/v2/session_state.ts`): the
channels that have said hello, and the idempotency records of the user messages.

`now` is what the clock shows during a call, and `digest` stands for the SHA-256 of
the canonical JSON text.

Results:
* `get?_prune`, `getRecord_eq_some`: what a call that prunes still sees.
* `get?_update`: an update changes one record.
-/

namespace RemotePi.Protocol

open RemotePi.Lib

/-! ## Fingerprints -/

/-- The UTF-16 code units of a string, by which `sort` compares. -/
def utf16Units (s : String) : List ℕ :=
  s.toList.flatMap fun c =>
    if c.toNat < 0x10000 then [c.toNat]
    else [0xD800 + (c.toNat - 0x10000) / 0x400, 0xDC00 + (c.toNat - 0x10000) % 0x400]

/-- The members of an object in the order of their keys (line 218). -/
def sortMembers (members : List (String × Json)) : List (String × Json) :=
  members.mergeSort fun left right => utf16Units left.1 ≤ utf16Units right.1

mutual

/-- `canonicalize` (lines 212–224). Assigning to the key `__proto__` sets the prototype of
    the result and makes no member of it. -/
def canonicalize : Json → Json
  | .array items => .array (canonicalizeItems items)
  | .object members => .object (sortMembers (canonicalizeMembers members))
  | value => value

def canonicalizeItems : List Json → List Json
  | [] => []
  | value :: items => canonicalize value :: canonicalizeItems items

def canonicalizeMembers : List (String × Json) → List (String × Json)
  | [] => []
  | (key, value) :: members =>
    if key = "__proto__" then canonicalizeMembers members
    else (key, canonicalize value) :: canonicalizeMembers members

end

/-- `fingerprintPayload` (lines 207–210). -/
def fingerprintPayload (digest : Json → String) (value : Json) : String :=
  digest (canonicalize value)

/-! ## Records -/

/-- `V2IdempotencyStatus` (line 3). -/
inductive IdempotencyStatus where
  | received
  | queued
  | accepted
  | committed
  | unknownDelivery
deriving DecidableEq, Repr

/-- `V2ChannelState` (lines 5–10). -/
structure ChannelState where
  senderRef : String
  channelId : String
  lastSeen : ℤ
deriving DecidableEq

/-- `V2IdempotencyRecord` (lines 18–28). -/
structure IdempotencyRecord where
  key : String
  generation : String
  senderRef : String
  clientRequestId : String
  fingerprint : String
  status : IdempotencyStatus
  messageId : Option String
  groupId : Option String
  touchedAt : ℤ
deriving DecidableEq

/-- `V2SessionState` (lines 44–58). -/
structure SessionState where
  generation : String
  maxEntries : ℕ
  ttlMs : ℤ
  channels : OrderedMap String ChannelState
  records : OrderedMap String IdempotencyRecord

namespace SessionState

/-- The state that a service starts with, with the default limits (lines 55–56). -/
def new (generation : String) : SessionState :=
  ⟨generation, 512, 10 * 60 * 1000, .empty, .empty⟩

/-- `recordKey` (lines 194–196), in the generation of the state. -/
def recordKey (generation senderRef clientRequestId : String) : String :=
  generation ++ "\x00" ++ senderRef ++ "\x00" ++ clientRequestId

/-- `channelKey` (lines 198–200). -/
def channelKey (senderRef channelId : String) : String := senderRef ++ "\x00" ++ channelId

/-- `pruneCapacity` (lines 186–192): the oldest records go. -/
def pruneCapacity (s : SessionState) : SessionState :=
  { s with records := s.records.dropFirst (s.records.entries.length - s.maxEntries) }

/-- The record has not been touched for too long. -/
def isExpired (s : SessionState) (now : ℤ) (record : IdempotencyRecord) : Bool :=
  s.ttlMs ≤ now - record.touchedAt

/-- `prune` (lines 178–184). -/
def prune (s : SessionState) (now : ℤ) : SessionState :=
  ({ s with records := s.records.filter fun _ record => !s.isExpired now record }).pruneCapacity

/-- `setGeneration` (lines 64–69). -/
def setGeneration (s : SessionState) (generation : String) : SessionState :=
  if generation = s.generation then s else { s with generation, records := .empty }

/-- `hello` (lines 71–82). -/
def hello (s : SessionState) (now : ℤ) (senderRef channelId : String) : SessionState :=
  { s with channels := s.channels.set (channelKey senderRef channelId) ⟨senderRef, channelId, now⟩ }

/-- `get` (lines 92–94). -/
def channel (s : SessionState) (senderRef channelId : String) : Option ChannelState :=
  s.channels.get? (channelKey senderRef channelId)

/-- `touch` (lines 84–90). -/
def touch (s : SessionState) (now : ℤ) (senderRef channelId : String) : SessionState :=
  match s.channel senderRef channelId with
  | none => s
  | some current =>
    { s with
      channels := s.channels.set (channelKey senderRef channelId) { current with lastSeen := now } }

inductive BeginResult where
  | new (record : IdempotencyRecord)
  | replay (record : IdempotencyRecord)
  | conflict (record : IdempotencyRecord)

/-- `begin` (lines 109–137); the ids have passed their schema, so that it does not throw. -/
def begin (digest : Json → String) (s : SessionState) (now : ℤ)
    (senderRef clientRequestId : String) (payload : Json) : SessionState × BeginResult :=
  let s := s.prune now
  let key := recordKey s.generation senderRef clientRequestId
  let fingerprint := fingerprintPayload digest payload
  match s.records.get? key with
  | some existing =>
    let existing := { existing with touchedAt := now }
    ({ s with records := s.records.moveLast key existing },
      if existing.fingerprint = fingerprint then .replay existing else .conflict existing)
  | none =>
    let record : IdempotencyRecord :=
      { key, generation := s.generation, senderRef, clientRequestId, fingerprint
        status := .received, messageId := none, groupId := none, touchedAt := now }
    (({ s with records := s.records.set key record }).pruneCapacity, .new record)

/-- The record after an update (lines 148–153). -/
def updated (record : IdempotencyRecord) (now : ℤ) (status : IdempotencyStatus)
    (messageId groupId : Option String) : IdempotencyRecord :=
  { record with
    status := status
    messageId := messageId.or record.messageId
    groupId := groupId.or record.groupId
    touchedAt := now }

/-- `update` (lines 139–154). -/
def update (s : SessionState) (now : ℤ) (key : String) (status : IdempotencyStatus)
    (messageId groupId : Option String) : SessionState × Option IdempotencyRecord :=
  let s := s.prune now
  match s.records.get? key with
  | none => (s, none)
  | some record =>
    let record := updated record now status messageId groupId
    ({ s with records := s.records.moveLast key record }, some record)

/-- `getRecord` (lines 160–164). -/
def getRecord (s : SessionState) (now : ℤ) (key : String) :
    SessionState × Option IdempotencyRecord :=
  let s := s.prune now
  (s, s.records.get? key)

/-- `forget` (lines 166–168). -/
def forget (s : SessionState) (key : String) : SessionState :=
  { s with records := s.records.erase key }

/-! ## What the operations leave -/

section Lemmas

variable {s : SessionState} {now : ℤ} {key key' : String} {record : IdempotencyRecord}

theorem entries_prune_sublist (s : SessionState) (now : ℤ) :
    (s.prune now).records.entries.Sublist s.records.entries :=
  (List.drop_sublist _ _).trans List.filter_sublist

/-- A record that is left by pruning was there and has not expired. -/
theorem get?_prune (h : (s.prune now).records.get? key = some record) :
    s.records.get? key = some record ∧ s.isExpired now record = false := by
  refine ⟨OrderedMap.get?_of_sublist (entries_prune_sublist s now) h, ?_⟩
  have hmem := (List.drop_sublist _ _).subset (OrderedMap.mem_entries_iff.mpr h)
  have hkeep : (!s.isExpired now record) = true := (List.mem_filter.mp hmem).2
  simpa using hkeep

@[simp] theorem generation_prune (s : SessionState) (now : ℤ) :
    (s.prune now).generation = s.generation := rfl

@[simp] theorem channels_prune (s : SessionState) (now : ℤ) :
    (s.prune now).channels = s.channels := rfl

theorem get?_pruneCapacity (h : s.pruneCapacity.records.get? key = some record) :
    s.records.get? key = some record :=
  OrderedMap.get?_of_sublist (List.drop_sublist _ _) h

theorem getRecord_eq_some (h : (s.getRecord now key).2 = some record) :
    s.records.get? key = some record ∧ s.isExpired now record = false := get?_prune h

/-- An update changes the record of its key, if there is one, and no other. -/
theorem get?_update {status : IdempotencyStatus} {messageId groupId : Option String}
    (h : (s.update now key status messageId groupId).1.records.get? key' = some record) :
    (key' = key ∧ ∃ old, (s.prune now).records.get? key = some old ∧
        record = updated old now status messageId groupId) ∨
      (key' ≠ key ∧ (s.prune now).records.get? key' = some record) := by
  unfold update at h
  dsimp only at h
  cases hget : (s.prune now).records.get? key with
  | none =>
    rw [hget] at h
    by_cases hkey : key' = key
    · subst hkey
      rw [hget] at h
      cases h
    · exact Or.inr ⟨hkey, h⟩
  | some old =>
    rw [hget] at h
    rw [OrderedMap.get?_moveLast] at h
    split_ifs at h with hkey
    · cases h
      exact Or.inl ⟨hkey, old, rfl, rfl⟩
    · exact Or.inr ⟨hkey, h⟩

@[simp] theorem generation_begin (digest : Json → String) (s : SessionState) (now : ℤ)
    (senderRef clientRequestId : String) (payload : Json) :
    (s.begin digest now senderRef clientRequestId payload).1.generation = s.generation := by
  unfold begin
  dsimp only
  split <;> rfl

@[simp] theorem generation_update (s : SessionState) (now : ℤ) (key : String)
    (status : IdempotencyStatus) (messageId groupId : Option String) :
    (s.update now key status messageId groupId).1.generation = s.generation := by
  unfold update
  dsimp only
  split <;> rfl

/-- `begin` keeps the limits. -/
theorem limits_begin (digest : Json → String) (s : SessionState) (now : ℤ)
    (senderRef clientRequestId : String) (payload : Json) :
    (s.begin digest now senderRef clientRequestId payload).1.maxEntries = s.maxEntries ∧
      (s.begin digest now senderRef clientRequestId payload).1.ttlMs = s.ttlMs := by
  unfold begin
  dsimp only
  split <;> exact ⟨rfl, rfl⟩

theorem limits_update (s : SessionState) (now : ℤ) (key : String) (status : IdempotencyStatus)
    (messageId groupId : Option String) :
    (s.update now key status messageId groupId).1.maxEntries = s.maxEntries ∧
      (s.update now key status messageId groupId).1.ttlMs = s.ttlMs := by
  unfold update
  dsimp only
  split <;> exact ⟨rfl, rfl⟩

@[simp] theorem channels_begin (digest : Json → String) (s : SessionState) (now : ℤ)
    (senderRef clientRequestId : String) (payload : Json) :
    (s.begin digest now senderRef clientRequestId payload).1.channels = s.channels := by
  unfold begin
  dsimp only
  split <;> rfl

@[simp] theorem channels_update (s : SessionState) (now : ℤ) (key : String)
    (status : IdempotencyStatus) (messageId groupId : Option String) :
    (s.update now key status messageId groupId).1.channels = s.channels := by
  unfold update
  dsimp only
  split <;> rfl

@[simp] theorem channels_setGeneration (s : SessionState) (generation : String) :
    (s.setGeneration generation).channels = s.channels := by
  unfold setGeneration
  split_ifs <;> rfl

/-- A touch leaves the channels that there are. -/
theorem isSome_channel_touch (s : SessionState) (now : ℤ) (senderRef channelId : String)
    {senderRef' channelId' : String} (h : (s.channel senderRef' channelId').isSome = true) :
    ((s.touch now senderRef channelId).channel senderRef' channelId').isSome = true := by
  unfold touch
  split
  · exact h
  · unfold channel at h ⊢
    rw [OrderedMap.get?_set]
    split_ifs
    · rfl
    · exact h

/-- A hello opens its channel and leaves the others. -/
theorem isSome_channel_hello (s : SessionState) (now : ℤ) (senderRef channelId : String)
    {channelId' : String}
    (h : channelId' = channelId ∨ (s.channel senderRef channelId').isSome = true) :
    ((s.hello now senderRef channelId).channel senderRef channelId').isSome = true := by
  unfold hello channel at *
  rw [OrderedMap.get?_set]
  split_ifs with hkey
  · rfl
  · rcases h with rfl | h
    · exact absurd rfl hkey
    · exact h

@[simp] theorem generation_touch (s : SessionState) (now : ℤ) (senderRef channelId : String) :
    (s.touch now senderRef channelId).generation = s.generation := by
  unfold touch
  split <;> rfl

@[simp] theorem records_touch (s : SessionState) (now : ℤ) (senderRef channelId : String) :
    (s.touch now senderRef channelId).records = s.records := by
  unfold touch
  split <;> rfl

@[simp] theorem maxEntries_touch (s : SessionState) (now : ℤ) (senderRef channelId : String) :
    (s.touch now senderRef channelId).maxEntries = s.maxEntries := by
  unfold touch
  split <;> rfl

@[simp] theorem ttlMs_touch (s : SessionState) (now : ℤ) (senderRef channelId : String) :
    (s.touch now senderRef channelId).ttlMs = s.ttlMs := by
  unfold touch
  split <;> rfl

@[simp] theorem isExpired_touch (s : SessionState) (now now' : ℤ) (senderRef channelId : String)
    (record : IdempotencyRecord) :
    (s.touch now senderRef channelId).isExpired now' record = s.isExpired now' record := by
  unfold touch isExpired
  split <;> rfl

@[simp] theorem records_prune_touch (s : SessionState) (now now' : ℤ)
    (senderRef channelId : String) :
    ((s.touch now senderRef channelId).prune now').records = (s.prune now').records := by
  unfold prune pruneCapacity isExpired
  dsimp only
  rw [records_touch, ttlMs_touch, maxEntries_touch]

variable {digest : Json → String} {senderRef clientRequestId : String} {payload : Json}

/-- A request that is known is answered with its record. -/
theorem begin_replay (h : (s.begin digest now senderRef clientRequestId payload).2 =
      .replay record) :
    ∃ old, s.records.get? (recordKey s.generation senderRef clientRequestId) = some old ∧
      record = { old with touchedAt := now } ∧
      (s.begin digest now senderRef clientRequestId payload).1.records.get?
        (recordKey s.generation senderRef clientRequestId) = some record := by
  unfold begin at h ⊢
  dsimp only at h ⊢
  split at h
  · rename_i existing hget
    dsimp only at h ⊢
    split_ifs at h with hsame
    cases h
    refine ⟨existing, (get?_prune hget).1, rfl, ?_⟩
    rw [generation_prune, OrderedMap.get?_moveLast, if_pos rfl]
  · cases h

/-- A request that is not known gets a record of its own. -/
theorem begin_new (h : (s.begin digest now senderRef clientRequestId payload).2 = .new record) :
    (record.messageId = none ∧ record.status = .received ∧
      record.key = recordKey s.generation senderRef clientRequestId) ∧
      ∀ other, (s.begin digest now senderRef clientRequestId payload).1.records.get?
        (recordKey s.generation senderRef clientRequestId) = some other → other = record := by
  unfold begin at h ⊢
  dsimp only at h ⊢
  split at h
  · dsimp only at h
    split_ifs at h
  · cases h
    refine ⟨⟨rfl, rfl, rfl⟩, fun other hother => ?_⟩
    have hset := get?_pruneCapacity hother
    dsimp only at hset
    rw [generation_prune, OrderedMap.get?_set_self] at hset
    exact (Option.some.inj hset).symm

end Lemmas

/-! ## Well-formed tables -/

/-- The table keeps its capacity, and each record stands under its own key. -/
structure Wf (s : SessionState) : Prop where
  size : s.records.entries.length ≤ s.maxEntries
  keys : ∀ key record, s.records.get? key = some record → record.key = key

section Wf

variable {s : SessionState} {now : ℤ} {key : String} {record : IdempotencyRecord}

theorem wf_new (generation : String) : (new generation).Wf where
  size := Nat.zero_le _
  keys key record h := by cases h

theorem Wf.prune (h : s.Wf) (now : ℤ) : (s.prune now).Wf where
  size := (entries_prune_sublist s now).length_le.trans h.size
  keys key record hget := h.keys key record (get?_prune hget).1

/-- Pruning a table that keeps its capacity drops expired records only. -/
theorem Wf.get?_prune_of_live (h : s.Wf) (hget : s.records.get? key = some record)
    (hlive : s.isExpired now record = false) :
    (s.prune now).records.get? key = some record := by
  have hkeep : (key, record) ∈ s.records.entries.filter fun e => !s.isExpired now e.2 :=
    List.mem_filter.mpr ⟨OrderedMap.mem_entries_iff.mpr hget, by simp [hlive]⟩
  have hlen : (s.records.entries.filter fun e => !s.isExpired now e.2).length - s.maxEntries = 0 := by
    have := (List.length_filter_le (fun e => !s.isExpired now e.2) s.records.entries).trans h.size
    omega
  refine OrderedMap.mem_entries_iff.mp ?_
  show (key, record) ∈ (s.records.entries.filter fun e => !s.isExpired now e.2).drop _
  rw [show (s.records.filter fun _ record => !s.isExpired now record).entries.length -
    s.maxEntries = 0 from hlen, List.drop_zero]
  exact hkeep

theorem Wf.of_records {s' : SessionState} (h : s.Wf) (hrecords : s'.records = s.records)
    (hmax : s'.maxEntries = s.maxEntries) : s'.Wf where
  size := by
    rw [hrecords, hmax]
    exact h.size
  keys key record hget := h.keys key record (hrecords ▸ hget)

theorem Wf.forget (h : s.Wf) (key : String) : (s.forget key).Wf where
  size := (List.filter_sublist.length_le : _ ≤ s.records.entries.length).trans h.size
  keys key' record hget :=
    h.keys key' record (OrderedMap.get?_of_sublist List.filter_sublist hget)

theorem Wf.moveLast (h : s.Wf) {old : IdempotencyRecord} (hold : s.records.get? key = some old)
    (hkey : record.key = key) : ({ s with records := s.records.moveLast key record }).Wf where
  size := (OrderedMap.length_moveLast hold).le.trans h.size
  keys key' record' hget := by
    rw [OrderedMap.get?_moveLast] at hget
    split_ifs at hget with heq
    · cases hget
      rw [heq, hkey]
    · exact h.keys key' record' hget

theorem Wf.update (h : s.Wf) (now : ℤ) (key : String) (status : IdempotencyStatus)
    (messageId groupId : Option String) : (s.update now key status messageId groupId).1.Wf := by
  unfold SessionState.update
  dsimp only
  cases hget : (s.prune now).records.get? key with
  | none => exact h.prune now
  | some old => exact (h.prune now).moveLast hget ((h.prune now).keys key old hget)

theorem Wf.begin (h : s.Wf) (digest : Json → String) (now : ℤ) (senderRef clientRequestId : String)
    (payload : Json) : (s.begin digest now senderRef clientRequestId payload).1.Wf := by
  unfold SessionState.begin
  dsimp only
  split
  · rename_i existing hget
    exact (h.prune now).moveLast hget ((h.prune now).keys _ existing hget)
  · refine ⟨?_, fun key record hget => ?_⟩
    · show (List.drop _ _).length ≤ s.maxEntries
      rw [List.length_drop]
      show _ - (_ - s.maxEntries) ≤ s.maxEntries
      omega
    · have hset := get?_pruneCapacity hget
      dsimp only at hset
      rw [OrderedMap.get?_set] at hset
      split_ifs at hset with heq
      · cases hset
        exact heq.symm
      · exact (h.prune now).keys key record hset

end Wf

end SessionState

/-! ## Full tables -/

/-- A table that may hold a record drops the first ones for it. -/
theorem entries_pruneCapacity_set {s : SessionState} {key : String} {record : IdempotencyRecord}
    (hcapacity : 1 ≤ s.maxEntries) (hget : s.records.get? key = none) :
    (SessionState.pruneCapacity { s with records := s.records.set key record }).records.entries =
      s.records.entries.drop (s.records.entries.length + 1 - s.maxEntries) ++ [(key, record)] := by
  show List.drop _ (s.records.set key record).entries = _
  rw [OrderedMap.entries_set_of_none record hget]
  show List.drop ((s.records.entries ++ [(key, record)]).length - s.maxEntries) _ = _
  rw [List.length_append, List.length_singleton, List.drop_append_of_le_length (by omega)]

/-- A new record takes the place of the first one, in a full table. -/
theorem head?_of_lost {s : SessionState} (hsize : s.records.entries.length ≤ s.maxEntries)
    (hcapacity : 1 ≤ s.maxEntries) {key key' : String} {record new : IdempotencyRecord}
    (hnew : s.records.get? key' = none) (hget : s.records.get? key = some record)
    (hgone : (SessionState.pruneCapacity
      { s with records := s.records.set key' new }).records.get? key = none) :
    s.records.entries.length = s.maxEntries ∧ s.records.keys.head? = some key := by
  have hentries := @entries_pruneCapacity_set s key' new hcapacity hnew
  have hmem := OrderedMap.mem_entries_iff.mpr hget
  have hnot : (key, record) ∉ s.records.entries.drop
      (s.records.entries.length + 1 - s.maxEntries) := by
    intro hin
    have hkept := OrderedMap.mem_entries_iff.mp (hentries ▸ List.mem_append_left _ hin)
    rw [hkept] at hgone
    cases hgone
  have hfull : s.records.entries.length = s.maxEntries := by
    by_contra hne
    rw [show s.records.entries.length + 1 - s.maxEntries = 0 by omega, List.drop_zero] at hnot
    exact hnot hmem
  refine ⟨hfull, ?_⟩
  rw [hfull, Nat.add_sub_cancel_left] at hnot
  unfold OrderedMap.keys
  cases hlist : s.records.entries with
  | nil =>
    rw [hlist] at hmem
    cases hmem
  | cons first rest =>
    rw [hlist] at hmem hnot
    rcases List.mem_cons.mp hmem with heq | hin
    · rw [← heq]
      rfl
    · exact absurd hin hnot

end RemotePi.Protocol
