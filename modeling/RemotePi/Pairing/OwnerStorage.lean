import RemotePi.Lib.OrderedMap
import RemotePi.Pairing.Crypto

/-!
# The store of paired Owners

Model of `pi-extension/src/pairing/owner_storage.ts`: `peers.json` and the
mutations that the serialized lane runs on it, with the provenance tokens of the
canonical Owner slots.

A mutation is one function from the store to the store. The entries of the file
are arbitrary JSON values; a value that no operation looks into is kept as its
text, so that two entries have the same serialization exactly when they are
equal. Reading back a file that was written gives the entries written.

Results:
* `mem_authorizedOwnerIds`, `findKnownOwner_isSome`: both are decided by the
  canonical keys of the entries.
-/

namespace RemotePi.Pairing

open RemotePi.Lib

/-! ## The file -/

/-- A field of an entry: a string, or the JSON text of anything else. -/
inductive FieldValue where
  | text (s : String)
  | json (text : String)
deriving DecidableEq, Repr

/-- An element of the `peers` array: an object with its fields, or the JSON text
    of a value without fields. -/
inductive PeerEntry where
  | object (fields : List (String × FieldValue))
  | other (text : String)
deriving DecidableEq, Repr

/-- `PeerRecord` (lines 9–13). -/
structure PeerRecord where
  name : String
  remoteEpk : String
  pairedAt : String
deriving DecidableEq, Repr

def PeerRecord.entry (record : PeerRecord) : PeerEntry :=
  .object [("name", .text record.name), ("remote_epk", .text record.remoteEpk),
    ("paired_at", .text record.pairedAt)]

/-- The `remote_epk` of an entry, when it is a string. -/
def PeerEntry.remoteEpk : PeerEntry → Option String
  | .object fields =>
    match fields.lookup "remote_epk" with
    | some (.text s) => some s
    | _ => none
  | .other _ => none

@[simp] theorem PeerRecord.remoteEpk_entry (record : PeerRecord) :
    record.entry.remoteEpk = some record.remoteEpk := rfl

/-- The canonical Owner key of an entry. -/
def PeerEntry.owner (e : PeerEntry) : Option String := e.remoteEpk.bind canonicalize

/-- The content of `peers.json`. -/
inductive PeersFile where
  | missing
  | unreadable
  | malformed
  | peers (entries : List PeerEntry)
deriving DecidableEq, Repr

/-- `listPeers` (lines 15–23): what cannot be read counts as no entries. -/
def listPeers : PeersFile → List PeerEntry
  | .peers entries => entries
  | _ => []

/-- `_readPeerContainerStrict` (lines 29–49): `none` is an exception. -/
def readPeerContainerStrict : PeersFile → Option (List PeerEntry)
  | .peers entries => some entries
  | .missing => some []
  | _ => none

/-- `authorizedOwnerIds` (`index.ts`, lines 106–113). -/
def authorizedOwnerIds (file : PeersFile) : List String :=
  ((listPeers file).filterMap PeerEntry.owner).eraseDups

/-- `findKnownOwner` (`index.ts`, lines 374–384). -/
def findKnownOwner (file : PeersFile) (ownerId : String) : Option PeerEntry :=
  match canonicalize ownerId with
  | none => none
  | some canonical => (listPeers file).find? fun e => e.owner = some canonical

/-- An entry of the Owner is in the file. -/
def Recorded (file : PeersFile) (ownerId : String) : Prop :=
  ∃ e ∈ listPeers file, e.owner = some ownerId

instance (file : PeersFile) (ownerId : String) : Decidable (Recorded file ownerId) :=
  inferInstanceAs (Decidable (∃ e ∈ listPeers file, e.owner = some ownerId))

theorem mem_authorizedOwnerIds {file : PeersFile} {ownerId : String} :
    ownerId ∈ authorizedOwnerIds file ↔ Recorded file ownerId := by
  rw [authorizedOwnerIds, List.mem_eraseDups, List.mem_filterMap, Recorded]

theorem findKnownOwner_isSome {file : PeersFile} {ownerId : String}
    (h : canonicalize ownerId = some ownerId) :
    (findKnownOwner file ownerId).isSome = true ↔ Recorded file ownerId := by
  simp [findKnownOwner, h, Recorded, List.find?_isSome]

/-! ## Mutations -/

/-- `_ownerSlotKey` (lines 81–92) of a string. -/
inductive Slot where
  | owner (canonical : String)
  | raw (rawOwnerPubkey : String)
deriving DecidableEq, Repr

def ownerSlotKey (rawOwnerPubkey : String) : Slot :=
  match canonicalize rawOwnerPubkey with
  | some canonical => .owner canonical
  | none => .raw rawOwnerPubkey

/-- The tokens are numbered in the order in which they are made. -/
abbrev OwnerStorageToken := ℕ

structure OwnerStorage where
  file : PeersFile
  ownerSlotTokens : OrderedMap Slot OwnerStorageToken
  nextToken : OwnerStorageToken
deriving DecidableEq

/-- `PeerWriteReceipt` (lines 70–76). -/
structure PeerWriteReceipt where
  record : PeerRecord
  token : OwnerStorageToken
  previousRecord : Option PeerEntry
deriving DecidableEq, Repr

inductive RemovalOutcome where
  | removed
  | stale
  | notFound
  | failed
deriving DecidableEq, Repr

inductive RollbackOutcome where
  | removed
  | restored
  | stale
  | notFound
  | failed
deriving DecidableEq, Repr

/-- `_tokenForSlot` (lines 94–100). -/
def OwnerStorage.tokenForSlot (s : OwnerStorage) (slot : Slot) : OwnerStorage × OwnerStorageToken :=
  match s.ownerSlotTokens.get? slot with
  | some token => (s, token)
  | none =>
    ({ s with
        ownerSlotTokens := s.ownerSlotTokens.set slot s.nextToken
        nextToken := s.nextToken + 1 }, s.nextToken)

/-- `_invalidateOwnerSlot` (lines 102–107). -/
def OwnerStorage.invalidateOwnerSlot (s : OwnerStorage) (rawOwnerPubkey : String) : OwnerStorage :=
  { s with
    ownerSlotTokens := s.ownerSlotTokens.set (ownerSlotKey rawOwnerPubkey) s.nextToken
    nextToken := s.nextToken + 1 }

/-- `conditionalRemovePeer` (lines 186–215). `commits` says that the authority check, when
    there is one, allows the commit and that the synchronous write succeeds. A write that fails
    leaves the file as it was; that `writeFileSync` may have truncated it is left out. -/
def OwnerStorage.conditionalRemovePeer (s : OwnerStorage) (remoteEpk : String)
    (expectedToken : OwnerStorageToken) (commits : Bool) : OwnerStorage × RemovalOutcome :=
  let (s, token) := s.tokenForSlot (ownerSlotKey remoteEpk)
  if token ≠ expectedToken then (s, .stale)
  else
    match readPeerContainerStrict s.file with
    | none => (s, .failed)
    | some peers =>
      let filtered := peers.filter fun e => e.remoteEpk ≠ some remoteEpk
      if filtered.length = peers.length then (s, .notFound)
      else if commits then
        ({ s with file := .peers filtered }.invalidateOwnerSlot remoteEpk, .removed)
      else (s, .failed)

/-- The entries that `addPeer` writes, and the entry that it replaces. -/
def insertRecord (record : PeerRecord) (peers : List PeerEntry) :
    List PeerEntry × Option PeerEntry :=
  match peers.findIdx? fun e => e.remoteEpk = some record.remoteEpk with
  | some idx => (peers.set idx record.entry, peers[idx]?)
  | none => (peers ++ [record.entry], none)

/-- `addPeer` (lines 115–138), with a write that succeeds. -/
def OwnerStorage.addPeer (s : OwnerStorage) (record : PeerRecord) :
    OwnerStorage × PeerWriteReceipt :=
  let (peers, previousRecord) := insertRecord record (listPeers s.file)
  let s' := { s with file := .peers peers }.invalidateOwnerSlot record.remoteEpk
  (s', ⟨record, s.nextToken, previousRecord⟩)

/-- The entries that a rollback writes: `none` when the record is not there. -/
def withdrawRecord (receipt : PeerWriteReceipt) (peers : List PeerEntry) :
    Option (List PeerEntry) :=
  (peers.findIdx? fun e => e = receipt.record.entry).map fun idx =>
    match receipt.previousRecord with
    | some previousRecord => peers.set idx previousRecord
    | none => peers.eraseIdx idx

/-- `conditionalRollbackPeer` (lines 222–263) without a `canCommit`, as the
    coordinator calls it. `writes` says that the synchronous write succeeds; one that fails
    leaves the file as it was, as in `conditionalRemovePeer`. -/
def OwnerStorage.conditionalRollbackPeer (s : OwnerStorage) (receipt : PeerWriteReceipt)
    (writes : Bool) : OwnerStorage × RollbackOutcome :=
  let (s, token) := s.tokenForSlot (ownerSlotKey receipt.record.remoteEpk)
  if token ≠ receipt.token then (s, .stale)
  else
    match readPeerContainerStrict s.file with
    | none => (s, .failed)
    | some peers =>
      match withdrawRecord receipt peers with
      | none => (s, .notFound)
      | some nextPeers =>
        if writes then
          ({ s with file := .peers nextPeers }.invalidateOwnerSlot receipt.record.remoteEpk,
            if receipt.previousRecord.isSome then .restored else .removed)
        else (s, .failed)

/-- `removePeer` (lines 265–295) without a `canCommit`, with a write that succeeds. -/
def OwnerStorage.removePeer (s : OwnerStorage) (remoteEpk : String) : OwnerStorage × Bool :=
  let peers := listPeers s.file
  let filtered := peers.filter fun e => e.remoteEpk ≠ some remoteEpk
  if filtered.length = peers.length then (s, false)
  else ({ s with file := .peers filtered }.invalidateOwnerSlot remoteEpk, true)

end RemotePi.Pairing
