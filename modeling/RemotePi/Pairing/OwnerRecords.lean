import RemotePi.Pairing.RollbackReceipts

/-!
# The records of one Owner

What the mutations of `pi-extension/src/pairing/owner_storage.ts` do to the entries of one
Owner, under every spelling of its key, while entries of other Owners come and go.

Results:
* `ownerRecords_mutate`: a mutation for another Owner leaves the entries.
* `ownerRecords_rollback_of_nil`: a rollback brings no entry of an Owner that has none.
* `PutIn`: the entries are those of before with the record of a receipt put in, and the receipt
  is not stale.
* `PutIn.rollback`: the receipt gives the entries of before back.
-/

namespace RemotePi.Pairing

open RemotePi.Lib

/-- The entries of an Owner. -/
def ownerRecords (ownerId : String) (peers : List PeerEntry) : List PeerEntry :=
  peers.filter fun e => e.owner = some ownerId

theorem ownerRecords_cons (ownerId : String) (e : PeerEntry) (peers : List PeerEntry) :
    ownerRecords ownerId (e :: peers) =
      if e.owner = some ownerId then e :: ownerRecords ownerId peers
      else ownerRecords ownerId peers := by
  simp [ownerRecords, List.filter_cons]

theorem owner_of_remoteEpk {e : PeerEntry} {remoteEpk : String} (h : e.remoteEpk = some remoteEpk) :
    e.owner = canonicalize remoteEpk := by
  rw [PeerEntry.owner, h, Option.bind_some]

theorem owner_entry (record : PeerRecord) : record.entry.owner = canonicalize record.remoteEpk :=
  owner_of_remoteEpk (PeerRecord.remoteEpk_entry record)

/-! ## Putting a record in -/

theorem insertRecord_cons (record : PeerRecord) (e : PeerEntry) (peers : List PeerEntry) :
    insertRecord record (e :: peers) =
      if e.remoteEpk = some record.remoteEpk then (record.entry :: peers, some e)
      else (e :: (insertRecord record peers).1, (insertRecord record peers).2) := by
  unfold insertRecord
  rw [List.findIdx?_cons]
  by_cases he : e.remoteEpk = some record.remoteEpk
  · simp [he]
  · rw [if_neg he, if_neg (by simpa using he)]
    cases peers.findIdx? fun e => decide (e.remoteEpk = some record.remoteEpk) with
    | none => rfl
    | some idx => rfl

section Insert

variable {record : PeerRecord} {ownerId : String}

/-- A record of the Owner is put in among the entries of the Owner. -/
theorem ownerRecords_insertRecord (h : canonicalize record.remoteEpk = some ownerId)
    (peers : List PeerEntry) :
    insertRecord record (ownerRecords ownerId peers) =
      (ownerRecords ownerId (insertRecord record peers).1, (insertRecord record peers).2) := by
  induction peers with
  | nil =>
    show _ = (ownerRecords ownerId [record.entry], none)
    rw [ownerRecords_cons, if_pos ((owner_entry record).trans h)]
    rfl
  | cons e peers ih =>
    rw [ownerRecords_cons, insertRecord_cons]
    by_cases hkey : e.remoteEpk = some record.remoteEpk
    · rw [if_pos hkey, if_pos ((owner_of_remoteEpk hkey).trans h), insertRecord_cons, if_pos hkey]
      dsimp only
      rw [ownerRecords_cons, if_pos ((owner_entry record).trans h)]
    · rw [if_neg hkey]
      dsimp only
      rw [ownerRecords_cons]
      split_ifs with howner
      · rw [insertRecord_cons, if_neg hkey, ih]
      · exact ih

theorem ownerRecords_insertRecord_of_other (h : canonicalize record.remoteEpk ≠ some ownerId)
    (peers : List PeerEntry) :
    ownerRecords ownerId (insertRecord record peers).1 = ownerRecords ownerId peers := by
  have hentry : record.entry.owner ≠ some ownerId := by rwa [owner_entry]
  induction peers with
  | nil =>
    show ownerRecords ownerId [record.entry] = _
    rw [ownerRecords_cons, if_neg hentry]
  | cons e peers ih =>
    rw [insertRecord_cons, ownerRecords_cons ownerId e]
    split_ifs with hkey howner howner
    · exact absurd ((owner_of_remoteEpk hkey).symm.trans howner) h
    · rw [ownerRecords_cons, if_neg hentry]
    · rw [ownerRecords_cons, if_pos howner, ih]
    · rw [ownerRecords_cons, if_neg howner, ih]

/-- The entry that is replaced has the raw key of the record. -/
theorem remoteEpk_of_insertRecord {peers : List PeerEntry} {e : PeerEntry}
    (h : (insertRecord record peers).2 = some e) : e.remoteEpk = some record.remoteEpk := by
  induction peers with
  | nil => cases h
  | cons first peers ih =>
    rw [insertRecord_cons] at h
    split_ifs at h with hkey
    · cases h
      exact hkey
    · exact ih h

end Insert

/-! ## Taking a record out -/

/-- The entry of the receipt has the raw key of its record. -/
def PeerWriteReceipt.Keyed (receipt : PeerWriteReceipt) : Prop :=
  ∀ e, receipt.previousRecord = some e → e.remoteEpk = some receipt.record.remoteEpk

theorem keyed_addPeer (s : OwnerStorage) (record : PeerRecord) : (s.addPeer record).2.Keyed :=
  fun _ h => remoteEpk_of_insertRecord h

theorem withdrawRecord_cons (receipt : PeerWriteReceipt) (e : PeerEntry) (peers : List PeerEntry) :
    withdrawRecord receipt (e :: peers) =
      if e = receipt.record.entry then some (receipt.previousRecord.toList ++ peers)
      else (withdrawRecord receipt peers).map (e :: ·) := by
  unfold withdrawRecord
  rw [List.findIdx?_cons]
  by_cases he : e = receipt.record.entry
  · rw [if_pos he, if_pos (by simpa using he)]
    cases receipt.previousRecord <;> rfl
  · rw [if_neg he, if_neg (by simpa using he)]
    cases peers.findIdx? fun e => decide (e = receipt.record.entry) with
    | none => rfl
    | some idx => cases receipt.previousRecord <;> rfl

section Withdraw

variable {receipt : PeerWriteReceipt} {ownerId : String}

theorem PeerWriteReceipt.Keyed.owner (h : receipt.Keyed) {e : PeerEntry}
    (he : receipt.previousRecord = some e) : e.owner = canonicalize receipt.record.remoteEpk :=
  owner_of_remoteEpk (h e he)

/-- A record of the Owner is taken out from among the entries of the Owner. -/
theorem ownerRecords_withdrawRecord (hkeyed : receipt.Keyed)
    (h : canonicalize receipt.record.remoteEpk = some ownerId) (peers : List PeerEntry) :
    withdrawRecord receipt (ownerRecords ownerId peers) =
      (withdrawRecord receipt peers).map (ownerRecords ownerId) := by
  have hprevious : ∀ rest, ownerRecords ownerId (receipt.previousRecord.toList ++ rest) =
      receipt.previousRecord.toList ++ ownerRecords ownerId rest := by
    intro rest
    cases hsome : receipt.previousRecord with
    | none => rfl
    | some e =>
      show ownerRecords ownerId (e :: rest) = _
      rw [ownerRecords_cons, if_pos ((hkeyed.owner hsome).trans h)]
      rfl
  induction peers with
  | nil => rfl
  | cons e peers ih =>
    rw [ownerRecords_cons, withdrawRecord_cons]
    by_cases he : e = receipt.record.entry
    · have howner : e.owner = some ownerId := by rw [he, owner_entry, h]
      rw [if_pos he, if_pos howner, withdrawRecord_cons, if_pos he, Option.map_some, hprevious]
    · rw [if_neg he, Option.map_map]
      split_ifs with howner
      · rw [withdrawRecord_cons, if_neg he, ih, Option.map_map]
        congr 1
        funext rest
        simp [ownerRecords_cons, howner]
      · rw [ih]
        congr 1
        funext rest
        simp [ownerRecords_cons, howner]

theorem ownerRecords_withdrawRecord_of_other (hkeyed : receipt.Keyed)
    (h : canonicalize receipt.record.remoteEpk ≠ some ownerId) {peers nextPeers : List PeerEntry}
    (hnext : withdrawRecord receipt peers = some nextPeers) :
    ownerRecords ownerId nextPeers = ownerRecords ownerId peers := by
  induction peers generalizing nextPeers with
  | nil => cases hnext
  | cons e peers ih =>
    rw [withdrawRecord_cons] at hnext
    rw [ownerRecords_cons]
    split_ifs at hnext with he
    · have howner : e.owner ≠ some ownerId := by rwa [he, owner_entry]
      rw [if_neg howner]
      cases hnext
      cases hsome : receipt.previousRecord with
      | none => rfl
      | some previous =>
        show ownerRecords ownerId (previous :: peers) = _
        rw [ownerRecords_cons, if_neg (by rwa [hkeyed.owner hsome])]
    · obtain ⟨rest, hrest, rfl⟩ := Option.map_eq_some_iff.mp hnext
      rw [ownerRecords_cons, ih hrest]

end Withdraw

/-! ## Mutations -/

theorem ownerRecords_filter_of_other {remoteEpk ownerId : String}
    (h : canonicalize remoteEpk ≠ some ownerId) (peers : List PeerEntry) :
    ownerRecords ownerId (peers.filter fun e => e.remoteEpk ≠ some remoteEpk) =
      ownerRecords ownerId peers := by
  unfold ownerRecords
  rw [List.filter_filter]
  refine List.filter_congr fun e _ => ?_
  by_cases howner : e.owner = some ownerId
  · have hne : e.remoteEpk ≠ some remoteEpk := fun hkey =>
      h ((owner_of_remoteEpk hkey).symm.trans howner)
    simp [howner, hne]
  · simp [howner]

/-- A mutation for another Owner leaves the entries of the Owner. -/
theorem ownerRecords_mutate (s : OwnerStorage) {m : OwnerMutation} {ownerId : String}
    (htarget : canonicalize m.target ≠ some ownerId)
    (hkeyed : ∀ receipt commits, m = .conditionalRollbackPeer receipt commits → receipt.Keyed) :
    ownerRecords ownerId (listPeers (s.mutate m).file) =
      ownerRecords ownerId (listPeers s.file) := by
  rw [file_mutate]
  cases hwritten : m.written s with
  | none => rfl
  | some entries =>
    show ownerRecords ownerId entries = _
    cases m with
    | addPeer record =>
      cases hwritten
      exact ownerRecords_insertRecord_of_other htarget _
    | removePeer remoteEpk commits =>
      unfold OwnerMutation.written at hwritten
      dsimp only at hwritten
      split_ifs at hwritten
      cases hwritten
      exact ownerRecords_filter_of_other htarget _
    | conditionalRemovePeer remoteEpk expectedToken commits =>
      unfold OwnerMutation.written at hwritten
      dsimp only at hwritten
      split_ifs at hwritten
      obtain ⟨peers, hread, hwritten⟩ := Option.bind_eq_some_iff.mp hwritten
      split_ifs at hwritten
      cases hwritten
      rw [listPeers_of_strict hread]
      exact ownerRecords_filter_of_other htarget _
    | conditionalRollbackPeer receipt commits =>
      unfold OwnerMutation.written at hwritten
      dsimp only at hwritten
      by_cases hstale : (s.tokenForSlot (ownerSlotKey receipt.record.remoteEpk)).2 ≠ receipt.token
      · rw [if_pos hstale] at hwritten
        cases hwritten
      · rw [if_neg hstale] at hwritten
        obtain ⟨peers, hread, hwritten⟩ := Option.bind_eq_some_iff.mp hwritten
        cases commits with
        | false => cases hwritten
        | true =>
          rw [listPeers_of_strict hread]
          exact ownerRecords_withdrawRecord_of_other (hkeyed receipt true rfl) htarget hwritten

/-! ## An Owner without entries -/

theorem ownerRecords_filter (ownerId : String) (p : PeerEntry → Bool) (peers : List PeerEntry) :
    ownerRecords ownerId (peers.filter p) = (ownerRecords ownerId peers).filter p := by
  unfold ownerRecords
  rw [List.filter_filter, List.filter_filter]
  refine List.filter_congr fun e _ => ?_
  exact Bool.and_comm _ _

theorem recorded_iff {file : PeersFile} {ownerId : String} :
    Recorded file ownerId ↔ ownerRecords ownerId (listPeers file) ≠ [] := by
  unfold Recorded ownerRecords
  rw [ne_eq, List.filter_eq_nil_iff]
  simp

/-- A removal brings no entry of the Owner. -/
theorem ownerRecords_removePeer_of_nil {s : OwnerStorage} {ownerId : String}
    (h : ownerRecords ownerId (listPeers s.file) = []) (remoteEpk : String) (commits : Bool) :
    ownerRecords ownerId (listPeers (s.mutate (.removePeer remoteEpk commits)).file) = [] := by
  rw [file_mutate]
  cases hwritten : (OwnerMutation.removePeer remoteEpk commits).written s with
  | none => exact h
  | some entries =>
    unfold OwnerMutation.written at hwritten
    dsimp only at hwritten
    split_ifs at hwritten
    cases hwritten
    show ownerRecords ownerId (List.filter _ _) = []
    rw [ownerRecords_filter, h, List.filter_nil]

/-- Without its record in the file a receipt of the Owner takes nothing out and puts nothing
    back. -/
theorem ownerRecords_rollback_of_nil {s : OwnerStorage} {ownerId : String}
    (h : ownerRecords ownerId (listPeers s.file) = []) {receipt : PeerWriteReceipt}
    (hkey : canonicalize receipt.record.remoteEpk = some ownerId) (commits : Bool) :
    ownerRecords ownerId (listPeers (s.conditionalRollbackPeer receipt commits).1.file) = [] := by
  rw [file_conditionalRollbackPeer]
  cases hwritten : (OwnerMutation.conditionalRollbackPeer receipt commits).written s with
  | none => exact h
  | some entries =>
    unfold OwnerMutation.written at hwritten
    dsimp only at hwritten
    by_cases hstale : (s.tokenForSlot (ownerSlotKey receipt.record.remoteEpk)).2 ≠ receipt.token
    · rw [if_pos hstale] at hwritten
      cases hwritten
    · rw [if_neg hstale] at hwritten
      obtain ⟨peers, hread, hwritten⟩ := Option.bind_eq_some_iff.mp hwritten
      cases commits with
      | false => cases hwritten
      | true =>
        obtain ⟨idx, hidx, -⟩ := Option.map_eq_some_iff.mp hwritten
        obtain ⟨hlt, hentry, -⟩ := List.findIdx?_eq_some_iff_getElem.mp hidx
        have howner : peers[idx].owner = some ownerId := by
          rw [of_decide_eq_true hentry, owner_entry, hkey]
        rw [listPeers_of_strict hread] at h
        have hmem : peers[idx] ∈ ownerRecords ownerId peers :=
          List.mem_filter.mpr ⟨List.getElem_mem hlt, decide_eq_true howner⟩
        rw [h] at hmem
        cases hmem

/-! ## A record that is put in -/

/-- The record of the receipt has been put in among the entries `base` of the Owner, and the
    slot of the Owner has the token of the receipt. -/
structure PutIn (s : OwnerStorage) (ownerId : String) (base : List PeerEntry)
    (receipt : PeerWriteReceipt) : Prop where
  key : canonicalize receipt.record.remoteEpk = some ownerId
  holds : s.Holds (.owner ownerId) receipt.token
  readable : ∃ peers, s.file = .peers peers
  records : insertRecord receipt.record base =
    (ownerRecords ownerId (listPeers s.file), receipt.previousRecord)

section PutIn

variable {s : OwnerStorage} {ownerId : String} {base : List PeerEntry}
  {receipt : PeerWriteReceipt}

theorem ownerSlotKey_of_canonicalize {raw : String} (h : canonicalize raw = some ownerId) :
    ownerSlotKey raw = .owner ownerId := by
  rw [ownerSlotKey, h]

theorem ownerSlotKey_ne {raw : String} (h : canonicalize raw ≠ some ownerId) :
    ownerSlotKey raw ≠ .owner ownerId := by
  unfold ownerSlotKey
  cases hcanonical : canonicalize raw with
  | none => nofun
  | some canonical =>
    intro heq
    injection heq with heq
    exact h (hcanonical.trans (congrArg some heq))

theorem putIn_addPeer (s : OwnerStorage) {record : PeerRecord}
    (h : canonicalize record.remoteEpk = some ownerId) :
    PutIn (s.addPeer record).1 ownerId (ownerRecords ownerId (listPeers s.file))
      (s.addPeer record).2 where
  key := h
  holds := by
    rw [← ownerSlotKey_of_canonicalize h]
    exact addPeer_holds s record
  readable := ⟨_, rfl⟩
  records := ownerRecords_insertRecord h (listPeers s.file)

/-- The record stays in while other Owners are written. -/
theorem PutIn.mutate (h : PutIn s ownerId base receipt) {m : OwnerMutation}
    (htarget : canonicalize m.target ≠ some ownerId)
    (hkeyed : ∀ receipt commits, m = .conditionalRollbackPeer receipt commits → receipt.Keyed) :
    PutIn (s.mutate m) ownerId base receipt where
  key := h.key
  holds := by
    rcases holds_step h.holds (.mutation m) with ⟨m', _, heq, -, hslot, -⟩ | hholds
    · cases heq
      exact absurd hslot (ownerSlotKey_ne htarget)
    · exact hholds
  readable := by
    rw [file_mutate]
    cases m.written s with
    | none => exact h.readable
    | some entries => exact ⟨entries, rfl⟩
  records := by
    rw [ownerRecords_mutate s htarget hkeyed]
    exact h.records

theorem PutIn.keyed (h : PutIn s ownerId base receipt) : receipt.Keyed := by
  intro e he
  refine @remoteEpk_of_insertRecord receipt.record base e ?_
  rw [h.records]
  exact he

/-- The receipt gives the entries of before back. -/
theorem PutIn.rollback (h : PutIn s ownerId base receipt) :
    ownerRecords ownerId (listPeers (s.conditionalRollbackPeer receipt true).1.file) = base := by
  obtain ⟨peers, hfile⟩ := h.readable
  have hback : withdrawRecord receipt (ownerRecords ownerId peers) = some base := by
    have hinsert := withdrawRecord_insertRecord receipt.record receipt.token base
    rw [h.records, hfile] at hinsert
    exact hinsert
  rw [ownerRecords_withdrawRecord h.keyed h.key] at hback
  obtain ⟨nextPeers, hnext, hbase⟩ := Option.map_eq_some_iff.mp hback
  have hslot : s.Holds (ownerSlotKey receipt.record.remoteEpk) receipt.token := by
    rw [ownerSlotKey_of_canonicalize h.key]
    exact h.holds
  unfold OwnerStorage.conditionalRollbackPeer
  dsimp only
  rw [tokenForSlot_of_holds hslot]
  dsimp only
  rw [if_neg (fun hne => hne rfl), hfile]
  dsimp only [readPeerContainerStrict]
  rw [hnext]
  exact hbase

end PutIn

end RemotePi.Pairing
