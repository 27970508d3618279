import Mathlib.Algebra.Module.NatInt
import Mathlib.Algebra.Order.BigOperators.Group.List
import Mathlib.Data.Nat.Digits.Defs
import RemotePi.Lib.Base64

/-!
# History frames

The server frames that answer a `session_sync` (`protocol/v2/schemas.ts`), with
the sizes of their JSON encoding and the checks of `encodeServerFrameV2`
(`protocol/v2/codec.ts`).

A timeline event is kept with the UTF-8 bytes of its JSON text, which is what is
measured and cut into fragments. Its other fields are not read by the history.
-/

namespace RemotePi.Protocol

open RemotePi.Lib

/-! ## Limits (`schemas.ts`, lines 5–11) -/

def maxFrameBytes : ℕ := 2 * 1024 * 1024

def maxHistoryChunkBytes : ℕ := 512 * 1024

def maxWindowDecodeBytes : ℕ := 32 * 1024 * 1024

def maxFragmentDecodeBytes : ℕ := 50 * 1024

def maxIdChars : ℕ := 256

def maxArrayItems : ℕ := 4096

/-! ## Ids -/

/-- `String.length` in UTF-16 code units. -/
def utf16Length (s : String) : ℕ :=
  (s.toList.map fun c => if c.toNat < 0x10000 then 1 else 2).sum

/-- The schema `id` (line 13). -/
def validId (s : String) : Bool := 1 ≤ utf16Length s && utf16Length s ≤ maxIdChars

/-! ## Timeline events -/

inductive EventKind where
  | user
  | assistant
  | tool
  | providerError
  | compaction
  | branchSummary
  | custom
deriving DecidableEq, Repr

/-- A timeline event that has passed its schema. `groupId` is only read for the
    kinds that have one. -/
structure TimelineEvent where
  eventId : String
  kind : EventKind
  groupId : String
  encoded : List Byte
  eventId_valid : validId eventId = true
  encoded_ne : encoded ≠ []
deriving DecidableEq

/-- `getUtf8ByteLengthV2` of an event. -/
def TimelineEvent.bytes (event : TimelineEvent) : ℕ := event.encoded.length

/-- `isSystemEvent` (`history.ts`, lines 467–469). -/
def TimelineEvent.isSystem (event : TimelineEvent) : Bool :=
  event.kind = .compaction || event.kind = .branchSummary || event.kind = .custom

/-! ## Frames -/

/-- `HistoryFragmentSchema` (line 357). -/
structure HistoryFragment where
  eventId : String
  index : ℕ
  dataBase64 : String
  final : Bool
deriving DecidableEq

/-- The end of a chunk (lines 365–373): `final_chunk`, `eos` and `next_before`. -/
inductive ChunkTail where
  | more
  | eos
  | nextBefore (cursor : String)
deriving DecidableEq

/-- `session_history_chunk` (lines 359–373). -/
structure HistoryChunk where
  targetChannelId : String
  inReplyTo : String
  sessionId : String
  historyGeneration : String
  snapshotHead : String
  chunkIndex : ℕ
  events : List TimelineEvent
  fragments : List HistoryFragment
  tail : ChunkTail
deriving DecidableEq

inductive ErrorCode where
  | invalidCursor
  | resetRequired
  | tooLarge
  | internalError
deriving DecidableEq, Repr

inductive ResetReason where
  | generationChanged
  | branchChanged
  | sessionReplaced
  | conflict
  | invalidCursor
deriving DecidableEq, Repr

/-- The frames a history request is answered with. -/
inductive ServerFrame where
  | historyChunk (chunk : HistoryChunk)
  | protocolError (targetChannelId inReplyTo : String) (code : ErrorCode) (message : String)
  | reset (targetChannelId sessionId historyGeneration : String) (reason : ResetReason)
deriving DecidableEq

/-! ## Sizes of the JSON encoding -/

/-- The bytes of a character in a JSON string. -/
def jsonCharBytes (c : Char) : ℕ :=
  if c = '"' ∨ c = '\\' ∨ c = '\n' ∨ c = '\r' ∨ c = '\t' ∨ c.toNat = 8 ∨ c.toNat = 12 then 2
  else if c.toNat < 32 then 6
  else c.utf8Size

/-- The bytes of a string in JSON, with its quotes. -/
def jsonStringBytes (s : String) : ℕ := (s.toList.map jsonCharBytes).sum + 2

/-- The digits of a number. -/
def jsonNatBytes (n : ℕ) : ℕ := (Nat.toDigits 10 n).length

/-- The bytes of the items of a JSON array: brackets and commas included. -/
def jsonArrayBytes (items : List ℕ) : ℕ := items.sum + (items.length - 1) + 2

def HistoryFragment.jsonBytes (f : HistoryFragment) : ℕ :=
  "\x7b\"event_id\":,\"index\":,\"data_base64\":,\"final\":\x7d".utf8ByteSize +
    jsonStringBytes f.eventId + jsonNatBytes f.index + jsonStringBytes f.dataBase64 +
      if f.final then 4 else 5

def ChunkTail.jsonBytes : ChunkTail → ℕ
  | .more => "\"final_chunk\":false".utf8ByteSize
  | .eos => "\"final_chunk\":true,\"eos\":true".utf8ByteSize
  | .nextBefore cursor =>
    "\"final_chunk\":true,\"eos\":false,\"next_before\":".utf8ByteSize + jsonStringBytes cursor

/-- `getUtf8ByteLengthV2` of a chunk. -/
def HistoryChunk.jsonBytes (chunk : HistoryChunk) : ℕ :=
  "\x7b\"protocol_version\":2,\"type\":\"session_history_chunk\",".utf8ByteSize +
    "\"target_channel_id\":,\"in_reply_to\":,\"session_id\":,".utf8ByteSize +
    "\"history_generation\":,\"snapshot_head\":,".utf8ByteSize +
    "\"chunk_index\":,\"events\":,\"fragments\":,\x7d".utf8ByteSize +
    jsonStringBytes chunk.targetChannelId + jsonStringBytes chunk.inReplyTo +
    jsonStringBytes chunk.sessionId + jsonStringBytes chunk.historyGeneration +
    jsonStringBytes chunk.snapshotHead + jsonNatBytes chunk.chunkIndex +
    jsonArrayBytes (chunk.events.map TimelineEvent.bytes) +
    jsonArrayBytes (chunk.fragments.map HistoryFragment.jsonBytes) + chunk.tail.jsonBytes

theorem jsonCharBytes_le (c : Char) : jsonCharBytes c ≤ 6 := by
  unfold jsonCharBytes
  have := c.utf8Size_le_four
  split_ifs <;> omega

theorem jsonStringBytes_le (s : String) : jsonStringBytes s ≤ 6 * s.length + 2 := by
  have h := List.sum_le_card_nsmul (s.toList.map jsonCharBytes) 6 (by
    intro n hn
    obtain ⟨c, -, rfl⟩ := List.mem_map.mp hn
    exact jsonCharBytes_le c)
  rw [List.length_map, smul_eq_mul, String.length_toList] at h
  unfold jsonStringBytes
  omega

theorem jsonNatBytes_le {n e : ℕ} (he : 0 < e) (hn : n < 10 ^ e) : jsonNatBytes n ≤ e :=
  Nat.toDigits_length 10 n e he hn

/-! ## Checks of `encodeServerFrameV2` -/

theorem length_le_utf16Length (s : String) : s.length ≤ utf16Length s := by
  have h := List.card_nsmul_le_sum (s.toList.map fun c => if c.toNat < 0x10000 then 1 else 2) 1 (by
    intro n hn
    obtain ⟨c, -, rfl⟩ := List.mem_map.mp hn
    split_ifs <;> omega)
  rw [List.length_map, smul_eq_mul, String.length_toList, mul_one] at h
  exact h

theorem jsonStringBytes_le_of_validId {s : String} (h : validId s = true) :
    jsonStringBytes s ≤ 1538 := by
  have h1 := jsonStringBytes_le s
  have h2 := length_le_utf16Length s
  simp only [validId, Bool.and_eq_true, decide_eq_true_eq] at h
  simp only [maxIdChars] at h
  omega

/-- `HistoryFragmentSchema` with `validateFragmentSizeV2` (`codec.ts`, lines 162–179). -/
def HistoryFragment.valid (f : HistoryFragment) : Bool :=
  validId f.eventId && 4 ≤ f.dataBase64.length &&
    f.dataBase64.length ≤ (maxFragmentDecodeBytes * 4 + 2) / 3 + 4 &&
    (Base64.decode f.dataBase64.toList).length ≤ maxFragmentDecodeBytes

/-- `validateHistoryChunk` (lines 374–384). -/
def HistoryChunk.idsDisjoint (chunk : HistoryChunk) : Bool :=
  (chunk.events.all fun e => chunk.fragments.all fun f => e.eventId ≠ f.eventId) &&
    (chunk.fragments.map HistoryFragment.eventId).Nodup

def ChunkTail.valid : ChunkTail → Bool
  | .nextBefore cursor => validId cursor
  | _ => true

/-- `encodeServerFrameV2` of a chunk does not throw (`codec.ts`, lines 108–147 and
    181–193). Its events have passed their schema when they were recovered. -/
def HistoryChunk.encodes (chunk : HistoryChunk) : Bool :=
  chunk.jsonBytes ≤ maxFrameBytes && chunk.jsonBytes ≤ maxHistoryChunkBytes &&
    validId chunk.targetChannelId && validId chunk.inReplyTo && validId chunk.sessionId &&
    validId chunk.historyGeneration && validId chunk.snapshotHead &&
    chunk.events.length ≤ maxArrayItems && chunk.fragments.length ≤ maxArrayItems &&
    chunk.fragments.all HistoryFragment.valid && chunk.idsDisjoint && chunk.tail.valid

end RemotePi.Protocol
