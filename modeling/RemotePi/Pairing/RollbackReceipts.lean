import RemotePi.Pairing.OtherOwners

/-!
# Rolling back a paired Owner

What a receipt of `addPeer` is worth to `conditionalRollbackPeer` of
`pi-extension/src/pairing/owner_storage.ts` after further operations of the process.

The list of a file is the one that `listPeers` gives. A receipt holds the token that its write
gave to the slot of the Owner; every later write for the Owner, under whichever spelling of the
key, gives the slot a new one.

Results:
* `mutate_eq`: every mutation is a preparation of its slot, and then at most one write with a
  new token.
* `holds_step`: what one operation does to the token of a slot.
* `rollback_addPeer`: the receipt puts the list back, or it is stale.
-/

namespace RemotePi.Pairing

open RemotePi.Lib

/-! ## Operations of the lane -/

/-- The entries of a container whose raw key is a string, with the keys that are strings. A key
    that is no string has a slot of a kind that no mutation uses. -/
def rawOwners (peers : List PeerEntry) : List String :=
  (peers.filterMap PeerEntry.remoteEpk).eraseDups

/-- `snapshotOwnerPubkeys` (lines 163–179): every slot of the container has a token. -/
def OwnerStorage.snapshotOwnerPubkeys (s : OwnerStorage) : OwnerStorage :=
  match readPeerContainerStrict s.file with
  | none => s
  | some peers => (rawOwners peers).foldl (fun s raw => (s.tokenForSlot (ownerSlotKey raw)).1) s

/-- What runs in the serialized lane of the process. -/
inductive LaneOperation where
  | mutation (m : OwnerMutation)
  | snapshot
deriving DecidableEq

namespace OwnerStorage

def step (s : OwnerStorage) : LaneOperation → OwnerStorage
  | .mutation m => s.mutate m
  | .snapshot => s.snapshotOwnerPubkeys

def run (s : OwnerStorage) (operations : List LaneOperation) : OwnerStorage :=
  operations.foldl step s

end OwnerStorage

/-- Two raw keys of one Owner: the same text, or two spellings of one public key. -/
def SameOwner (raw raw' : String) : Prop :=
  raw = raw' ∨ (canonicalize raw).isSome = true ∧ canonicalize raw = canonicalize raw'

instance (raw raw' : String) : Decidable (SameOwner raw raw') :=
  inferInstanceAs (Decidable (_ ∨ _))

namespace LaneOperation

/-- The operation writes the file. -/
def Writes (s : OwnerStorage) : LaneOperation → Prop
  | mutation m => (m.written s).isSome = true
  | snapshot => False

/-- The operation writes the file for this Owner. -/
def Touches (s : OwnerStorage) (owner : String) : LaneOperation → Prop
  | mutation m => (m.written s).isSome = true ∧ SameOwner m.target owner
  | snapshot => False

instance (s : OwnerStorage) (op : LaneOperation) : Decidable (op.Writes s) := by
  cases op <;> unfold Writes <;> infer_instance

instance (s : OwnerStorage) (owner : String) (op : LaneOperation) :
    Decidable (op.Touches s owner) := by
  cases op <;> unfold Touches <;> infer_instance

end LaneOperation

/-- No operation of the run writes the file. -/
def Unwritten : OwnerStorage → List LaneOperation → Prop
  | _, [] => True
  | s, op :: rest => ¬op.Writes s ∧ Unwritten (s.step op) rest

/-- Some operation of the run writes the file for this Owner. -/
def Touched (owner : String) : OwnerStorage → List LaneOperation → Prop
  | _, [] => False
  | s, op :: rest => op.Touches s owner ∨ Touched owner (s.step op) rest

instance decidableUnwritten : ∀ s operations, Decidable (Unwritten s operations)
  | _, [] => isTrue trivial
  | s, op :: rest =>
    have : Decidable (Unwritten (s.step op) rest) := decidableUnwritten (s.step op) rest
    inferInstanceAs (Decidable (_ ∧ _))

instance decidableTouched (owner : String) : ∀ s operations, Decidable (Touched owner s operations)
  | _, [] => isFalse id
  | s, op :: rest =>
    have : Decidable (Touched owner (s.step op) rest) := decidableTouched owner (s.step op) rest
    inferInstanceAs (Decidable (_ ∨ _))

theorem ownerSlotKey_of_sameOwner {raw raw' : String} (h : SameOwner raw raw') :
    ownerSlotKey raw = ownerSlotKey raw' := by
  rcases h with rfl | ⟨hsome, heq⟩
  · rfl
  · obtain ⟨canonical, hcanonical⟩ := Option.isSome_iff_exists.mp hsome
    rw [ownerSlotKey, ownerSlotKey, ← heq, hcanonical]

/-! ## Tokens -/

/-- The slot has the token, and every token that is made later is another one. -/
def OwnerStorage.Holds (s : OwnerStorage) (slot : Slot) (token : OwnerStorageToken) : Prop :=
  s.ownerSlotTokens.get? slot = some token ∧ token < s.nextToken

theorem tokenForSlot_of_holds {s : OwnerStorage} {slot : Slot} {token : OwnerStorageToken}
    (h : s.Holds slot token) : s.tokenForSlot slot = (s, token) := by
  rw [OwnerStorage.tokenForSlot, h.1]

theorem OwnerStorage.Holds.tokenForSlot {s : OwnerStorage} {slot : Slot}
    {token : OwnerStorageToken} (h : s.Holds slot token) (other : Slot) :
    (s.tokenForSlot other).1.Holds slot token := by
  unfold OwnerStorage.tokenForSlot
  cases hother : s.ownerSlotTokens.get? other with
  | some _ => exact h
  | none =>
    have hne : slot ≠ other := by
      rintro rfl
      rw [h.1] at hother
      cases hother
    exact ⟨(OrderedMap.get?_set_of_ne _ _ hne).trans h.1, Nat.lt_succ_of_lt h.2⟩

theorem OwnerStorage.Holds.setFile {s : OwnerStorage} {slot : Slot} {token : OwnerStorageToken}
    (h : s.Holds slot token) (file : PeersFile) :
    ({ s with file } : OwnerStorage).Holds slot token :=
  h

theorem OwnerStorage.Holds.invalidate_other {s : OwnerStorage} {slot : Slot}
    {token : OwnerStorageToken} (h : s.Holds slot token) {raw : String}
    (hne : ownerSlotKey raw ≠ slot) : (s.invalidateOwnerSlot raw).Holds slot token :=
  ⟨(OrderedMap.get?_set_of_ne _ _ hne.symm).trans h.1, Nat.lt_succ_of_lt h.2⟩

theorem holds_invalidate (s : OwnerStorage) (raw : String) :
    (s.invalidateOwnerSlot raw).Holds (ownerSlotKey raw) s.nextToken :=
  ⟨OrderedMap.get?_set_self .., Nat.lt_succ_self _⟩

/-- The store in which a mutation decides: the conditional ones have a token for their slot. -/
def OwnerStorage.prepared (s : OwnerStorage) : OwnerMutation → OwnerStorage
  | .addPeer _ => s
  | .removePeer _ _ => s
  | .conditionalRemovePeer remoteEpk _ _ => (s.tokenForSlot (ownerSlotKey remoteEpk)).1
  | .conditionalRollbackPeer receipt _ =>
    (s.tokenForSlot (ownerSlotKey receipt.record.remoteEpk)).1

theorem OwnerStorage.Holds.prepared {s : OwnerStorage} {slot : Slot} {token : OwnerStorageToken}
    (h : s.Holds slot token) (m : OwnerMutation) : (s.prepared m).Holds slot token := by
  cases m with
  | addPeer record => exact h
  | removePeer remoteEpk commits => exact h
  | conditionalRemovePeer remoteEpk expectedToken commits => exact h.tokenForSlot _
  | conditionalRollbackPeer receipt commits => exact h.tokenForSlot _

/-- A mutation that writes gives its slot a new token; one that does not leaves the prepared
    store. -/
theorem mutate_eq (s : OwnerStorage) (m : OwnerMutation) :
    s.mutate m =
      match m.written s with
      | some entries =>
        ({ s.prepared m with file := .peers entries } : OwnerStorage).invalidateOwnerSlot m.target
      | none => s.prepared m := by
  cases m with
  | addPeer record => rfl
  | removePeer remoteEpk commits =>
    unfold OwnerStorage.mutate OwnerMutation.written OwnerStorage.removePeer
    dsimp only
    generalize ((listPeers s.file).filter fun e => decide (e.remoteEpk ≠ some remoteEpk)) = filtered
    by_cases hlen : filtered.length = (listPeers s.file).length
    · cases commits <;> simp [hlen, OwnerStorage.prepared]
    · cases commits <;> simp [hlen, OwnerStorage.prepared, OwnerMutation.target]
  | conditionalRemovePeer remoteEpk expectedToken commits =>
    unfold OwnerStorage.mutate OwnerMutation.written OwnerStorage.conditionalRemovePeer
      OwnerStorage.prepared
    have hfile := file_tokenForSlot s (ownerSlotKey remoteEpk)
    dsimp only
    by_cases htoken : (s.tokenForSlot (ownerSlotKey remoteEpk)).2 ≠ expectedToken
    · rw [if_pos htoken, if_pos htoken]
    rw [if_neg htoken, if_neg htoken, hfile]
    cases hread : readPeerContainerStrict s.file with
    | none => rfl
    | some peers =>
      dsimp only [Option.bind_some]
      generalize (peers.filter fun e => decide (e.remoteEpk ≠ some remoteEpk)) = filtered
      by_cases hlen : filtered.length = peers.length
      · cases commits <;> simp [hlen]
      · cases commits <;> simp [hlen, OwnerMutation.target]
  | conditionalRollbackPeer receipt commits =>
    unfold OwnerStorage.mutate OwnerMutation.written OwnerStorage.conditionalRollbackPeer
      OwnerStorage.prepared
    have hfile := file_tokenForSlot s (ownerSlotKey receipt.record.remoteEpk)
    dsimp only
    by_cases htoken : (s.tokenForSlot (ownerSlotKey receipt.record.remoteEpk)).2 ≠ receipt.token
    · rw [if_pos htoken, if_pos htoken]
    rw [if_neg htoken, if_neg htoken, hfile]
    cases hread : readPeerContainerStrict s.file with
    | none => rfl
    | some peers =>
      dsimp only [Option.bind_some]
      cases withdrawRecord receipt peers with
      | none => cases commits <;> rfl
      | some nextPeers => cases commits <;> rfl

theorem holds_snapshot {s : OwnerStorage} {slot : Slot} {token : OwnerStorageToken}
    (h : s.Holds slot token) : s.snapshotOwnerPubkeys.Holds slot token := by
  unfold OwnerStorage.snapshotOwnerPubkeys
  cases readPeerContainerStrict s.file with
  | none => exact h
  | some peers =>
    dsimp only
    generalize rawOwners peers = raws
    induction raws generalizing s with
    | nil => exact h
    | cons raw raws ih => exact ih (h.tokenForSlot _)

theorem file_snapshot (s : OwnerStorage) : s.snapshotOwnerPubkeys.file = s.file := by
  unfold OwnerStorage.snapshotOwnerPubkeys
  cases readPeerContainerStrict s.file with
  | none => rfl
  | some peers =>
    dsimp only
    generalize rawOwners peers = raws
    induction raws generalizing s with
    | nil => rfl
    | cons raw raws ih => exact (ih _).trans (file_tokenForSlot s _)

/-- A slot keeps its token, but for a write under one of its spellings, which makes a new one. -/
theorem holds_step {s : OwnerStorage} {slot : Slot} {token : OwnerStorageToken}
    (h : s.Holds slot token) (op : LaneOperation) :
    (∃ m entries, op = .mutation m ∧ m.written s = some entries ∧ ownerSlotKey m.target = slot ∧
        ∃ token', token < token' ∧ (s.step op).Holds slot token') ∨
      (s.step op).Holds slot token := by
  cases op with
  | snapshot => exact Or.inr (holds_snapshot h)
  | mutation m =>
    have hprepared := h.prepared m
    have hstep : s.step (.mutation m) = s.mutate m := rfl
    rw [hstep, mutate_eq]
    cases hwritten : m.written s with
    | none => exact Or.inr hprepared
    | some entries =>
      by_cases hslot : ownerSlotKey m.target = slot
      · refine Or.inl ⟨m, entries, rfl, hwritten, hslot, (s.prepared m).nextToken, hprepared.2, ?_⟩
        rw [← hslot]
        exact holds_invalidate { s.prepared m with file := .peers entries } m.target
      · exact Or.inr ((hprepared.setFile (.peers entries)).invalidate_other hslot)

/-- Along a run a slot has its token, or a later one. -/
theorem holds_run {s : OwnerStorage} {slot : Slot} {token : OwnerStorageToken}
    (h : s.Holds slot token) (operations : List LaneOperation) :
    ∃ token', token ≤ token' ∧ (s.run operations).Holds slot token' := by
  induction operations generalizing s token with
  | nil => exact ⟨token, Nat.le_refl token, h⟩
  | cons op rest ih =>
    rcases holds_step h op with ⟨m, entries, -, -, -, token', hlt, hstep⟩ | hstep
    · obtain ⟨token'', hle, hrun⟩ := ih hstep
      exact ⟨token'', Nat.le_trans (Nat.le_of_lt hlt) hle, hrun⟩
    · exact ih hstep

/-- An operation that touches the Owner of a slot gives the slot another token. -/
theorem holds_step_of_touches {s : OwnerStorage} {owner : String} {token : OwnerStorageToken}
    (h : s.Holds (ownerSlotKey owner) token) {op : LaneOperation} (htouches : op.Touches s owner) :
    ∃ token', token < token' ∧ (s.step op).Holds (ownerSlotKey owner) token' := by
  cases op with
  | snapshot => exact htouches.elim
  | mutation m =>
    obtain ⟨hwrites, howner⟩ := htouches
    obtain ⟨entries, hwritten⟩ := Option.isSome_iff_exists.mp hwrites
    have hstep : s.step (.mutation m) = s.mutate m := rfl
    refine ⟨(s.prepared m).nextToken, (h.prepared m).2, ?_⟩
    rw [hstep, mutate_eq, hwritten, ← ownerSlotKey_of_sameOwner howner]
    exact holds_invalidate { s.prepared m with file := .peers entries } m.target

theorem holds_run_of_touched {s : OwnerStorage} {owner : String} {token : OwnerStorageToken}
    (h : s.Holds (ownerSlotKey owner) token) {operations : List LaneOperation}
    (htouched : Touched owner s operations) :
    ∃ token', token < token' ∧ (s.run operations).Holds (ownerSlotKey owner) token' := by
  induction operations generalizing s token with
  | nil => exact htouched.elim
  | cons op rest ih =>
    rcases htouched with htouches | hrest
    · obtain ⟨token', hlt, hstep⟩ := holds_step_of_touches h htouches
      obtain ⟨token'', hle, hrun⟩ := holds_run hstep rest
      exact ⟨token'', Nat.lt_of_lt_of_le hlt hle, hrun⟩
    · rcases holds_step h op with ⟨-, -, -, -, -, token', hlt, hstep⟩ | hstep
      · obtain ⟨token'', hlt', hrun⟩ := ih hstep hrest
        exact ⟨token'', Nat.lt_trans hlt hlt', hrun⟩
      · exact ih hstep hrest

theorem step_of_not_writes {s : OwnerStorage} {slot : Slot} {token : OwnerStorageToken}
    (h : s.Holds slot token) {op : LaneOperation} (hnot : ¬op.Writes s) :
    (s.step op).Holds slot token ∧ (s.step op).file = s.file := by
  cases op with
  | snapshot => exact ⟨holds_snapshot h, file_snapshot s⟩
  | mutation m =>
    have hwritten : m.written s = none := Option.not_isSome_iff_eq_none.mp hnot
    have hfile := file_mutate s m
    rw [hwritten] at hfile
    refine ⟨?_, hfile⟩
    have hstep : s.step (.mutation m) = s.prepared m := by
      show s.mutate m = s.prepared m
      rw [mutate_eq, hwritten]
    rw [hstep]
    exact h.prepared m

theorem run_of_unwritten {s : OwnerStorage} {slot : Slot} {token : OwnerStorageToken}
    (h : s.Holds slot token) {operations : List LaneOperation} (hnone : Unwritten s operations) :
    (s.run operations).Holds slot token ∧ (s.run operations).file = s.file := by
  induction operations generalizing s with
  | nil => exact ⟨h, rfl⟩
  | cons op rest ih =>
    obtain ⟨hop, hrest⟩ := hnone
    obtain ⟨hstep, hfile⟩ := step_of_not_writes h hop
    obtain ⟨hrun, hsame⟩ := ih hstep hrest
    exact ⟨hrun, hsame.trans hfile⟩

/-! ## Rolling back -/

/-- A record that `insertRecord` has put in is found where it was put, and taking it out again
    gives the entries from before. -/
theorem withdrawRecord_insertRecord (record : PeerRecord) (token : OwnerStorageToken)
    (peers : List PeerEntry) :
    withdrawRecord ⟨record, token, (insertRecord record peers).2⟩ (insertRecord record peers).1 =
      some peers := by
  unfold insertRecord withdrawRecord
  -- an entry that equals the record has its raw key
  have hkey : ∀ e : PeerEntry, e = record.entry → e.remoteEpk = some record.remoteEpk := by
    intro e he
    rw [he, PeerRecord.remoteEpk_entry]
  cases hidx : peers.findIdx? fun e => decide (e.remoteEpk = some record.remoteEpk) with
  | none =>
    rw [List.findIdx?_eq_none_iff] at hidx
    have hfind : (peers ++ [record.entry]).findIdx? (fun e => decide (e = record.entry)) =
        some peers.length := by
      have hnone : peers.findIdx? (fun e => decide (e = record.entry)) = none := by
        rw [List.findIdx?_eq_none_iff]
        intro e he
        have hne := hidx e he
        simp only [decide_eq_false_iff_not] at hne ⊢
        exact fun heq => hne (hkey e heq)
      rw [List.findIdx?_append, hnone]
      simp
    dsimp only
    rw [hfind, Option.map_some, List.eraseIdx_append_of_length_le (Nat.le_refl _)]
    simp
  | some idx =>
    obtain ⟨hlt, hat, hbefore⟩ := List.findIdx?_eq_some_iff_getElem.mp hidx
    have hfind : (peers.set idx record.entry).findIdx? (fun e => decide (e = record.entry)) =
        some idx := by
      refine List.findIdx?_eq_some_iff_getElem.mpr ⟨by simpa using hlt, by simp, ?_⟩
      intro j hj
      have hne := hbefore j hj
      rw [List.getElem_set_ne (by omega)]
      simp only [decide_eq_true_eq] at hne ⊢
      exact fun heq => hne (hkey _ heq)
    dsimp only
    rw [hfind, Option.map_some, List.getElem?_eq_getElem hlt]
    dsimp only
    rw [List.set_set, List.set_getElem_self]

/-- The receipt of the slot's token takes the record out of the list that it was put into. -/
theorem rollback_of_holds {s : OwnerStorage} {record : PeerRecord} {token : OwnerStorageToken}
    {peers : List PeerEntry} (h : s.Holds (ownerSlotKey record.remoteEpk) token)
    (hfile : s.file = .peers (insertRecord record peers).1) :
    s.conditionalRollbackPeer ⟨record, token, (insertRecord record peers).2⟩ true =
      (({ s with file := .peers peers } : OwnerStorage).invalidateOwnerSlot record.remoteEpk,
        if (insertRecord record peers).2.isSome then .restored else .removed) := by
  unfold OwnerStorage.conditionalRollbackPeer
  dsimp only
  rw [tokenForSlot_of_holds h]
  dsimp only
  rw [if_neg (fun hne => hne rfl), hfile]
  dsimp only [readPeerContainerStrict]
  rw [withdrawRecord_insertRecord]
  rfl

/-- Without the authority to commit, nothing changes. -/
theorem rollback_not_committed {s : OwnerStorage} {receipt : PeerWriteReceipt}
    (h : s.Holds (ownerSlotKey receipt.record.remoteEpk) receipt.token) :
    (s.conditionalRollbackPeer receipt false).1 = s := by
  unfold OwnerStorage.conditionalRollbackPeer
  dsimp only
  rw [tokenForSlot_of_holds h]
  dsimp only
  rw [if_neg (fun hne => hne rfl)]
  cases readPeerContainerStrict s.file with
  | none => rfl
  | some peers =>
    dsimp only
    cases withdrawRecord receipt peers <;> rfl

theorem rollback_stale {s : OwnerStorage} {receipt : PeerWriteReceipt} {token : OwnerStorageToken}
    (h : s.Holds (ownerSlotKey receipt.record.remoteEpk) token) (hne : token ≠ receipt.token)
    (commits : Bool) : s.conditionalRollbackPeer receipt commits = (s, .stale) := by
  unfold OwnerStorage.conditionalRollbackPeer
  dsimp only
  rw [tokenForSlot_of_holds h]
  exact if_pos hne

theorem rollback_of_unwritten {s : OwnerStorage} {record : PeerRecord}
    {token : OwnerStorageToken} {peers : List PeerEntry} {operations : List LaneOperation}
    (h : s.Holds (ownerSlotKey record.remoteEpk) token)
    (hfile : s.file = .peers (insertRecord record peers).1) (hnone : Unwritten s operations)
    {receipt : PeerWriteReceipt}
    (hreceipt : receipt = ⟨record, token, (insertRecord record peers).2⟩) :
    listPeers ((s.run operations).conditionalRollbackPeer receipt true).1.file = peers ∧
      ((s.run operations).conditionalRollbackPeer receipt true).2 =
        (if receipt.previousRecord.isSome then .restored else .removed) ∧
      ((s.run operations).conditionalRollbackPeer receipt false).1 = s.run operations := by
  subst hreceipt
  obtain ⟨hholds, hsame⟩ := run_of_unwritten h hnone
  refine ⟨?_, ?_, rollback_not_committed hholds⟩
  · rw [rollback_of_holds hholds (hsame.trans hfile)]
    rfl
  · rw [rollback_of_holds hholds (hsame.trans hfile)]

theorem addPeer_holds (s : OwnerStorage) (record : PeerRecord) :
    (s.addPeer record).1.Holds (ownerSlotKey record.remoteEpk) s.nextToken :=
  holds_invalidate { s with file := .peers (insertRecord record (listPeers s.file)).1 }
    record.remoteEpk

/-- The receipt of an `addPeer`, after any operations of the process. When none of them has
    written, the rollback gives back the list that was there before, and does nothing without
    the authority to commit. When one of them has written for the Owner, it is stale and changes
    nothing. -/
theorem rollback_addPeer (s : OwnerStorage) (record : PeerRecord)
    (operations : List LaneOperation) :
    let added := s.addPeer record
    let s' := added.1.run operations
    (Unwritten added.1 operations →
      listPeers (s'.conditionalRollbackPeer added.2 true).1.file = listPeers s.file ∧
        (s'.conditionalRollbackPeer added.2 true).2 =
          (if added.2.previousRecord.isSome then .restored else .removed) ∧
        (s'.conditionalRollbackPeer added.2 false).1 = s') ∧
      (Touched record.remoteEpk added.1 operations →
        ∀ commits, s'.conditionalRollbackPeer added.2 commits = (s', .stale)) := by
  intro added s'
  constructor
  · intro hnone
    exact rollback_of_unwritten (addPeer_holds s record) rfl hnone rfl
  · intro htouched commits
    obtain ⟨token, hlt, hholds⟩ := holds_run_of_touched (addPeer_holds s record) htouched
    exact @rollback_stale s' added.2 token hholds (Nat.ne_of_gt hlt) commits

/-- The desktop's key without its padding. -/
def respelledRecord : PeerRecord :=
  { desktopRecord with remoteEpk := "AAAAAAAAAAAAAAAAAAAAAAAAAAAAAAAAAAAAAAAAAAA" }

/-- A store with another spelling of the desktop's key, and the phone. -/
def respelledStore : OwnerStorage :=
  ⟨.peers [respelledRecord.entry, phoneRecord.entry], .empty, 0⟩

/-- The desktop is paired anew. -/
def pairedAnew : OwnerStorage × PeerWriteReceipt := respelledStore.addPeer desktopRecord

/-- The removal of the other spelling. -/
def respelledRemoval : List LaneOperation :=
  [.mutation (.removePeer respelledRecord.remoteEpk true)]

/-- A snapshot later the rollback gives the list back; after the removal of the other spelling
    it is stale. -/
theorem rollback_desktop :
    listPeers ((pairedAnew.1.run [.snapshot]).conditionalRollbackPeer pairedAnew.2 true).1.file =
        listPeers respelledStore.file ∧
      (pairedAnew.1.run respelledRemoval).conditionalRollbackPeer pairedAnew.2 true =
        (pairedAnew.1.run respelledRemoval, .stale) := by
  obtain ⟨hback, -⟩ := rollback_addPeer respelledStore desktopRecord [.snapshot]
  obtain ⟨-, hstale⟩ := rollback_addPeer respelledStore desktopRecord respelledRemoval
  exact ⟨(hback (by decide)).1, hstale (by decide) true⟩

end RemotePi.Pairing
