import RemotePi.Lib.Keyed
import RemotePi.Pairing.OwnerStorage

/-!
# The records of the other Owners

What a mutation of `peers.json` leaves of the records that it is not about, whatever
the file holds and however reading it turns out.

`addPeer` reads the file as `listPeers` does, where a failure counts as no entries, and
writes the whole file back; `removePeer` reads it the same way, but then finds nothing to
remove and writes nothing. The two conditional mutations read the file strictly.

Results:
* `file_mutate`: a mutation writes the file that `written` says, or leaves it.
* `keepsOthers_iff`: which mutations keep the other Owners' records.
-/

namespace RemotePi.Pairing

open RemotePi.Lib

/-! ## The file on disk -/

/-- What `peers.json` holds. A text that is not a container of peers, such as a file cut
    short, still shows some of its records. -/
inductive PeersContent where
  | missing
  | malformed (legible : List PeerEntry)
  | peers (entries : List PeerEntry)
deriving DecidableEq, Repr

namespace PeersContent

/-- What a process finds that reads the file; `readable` is false when the read fails. -/
def read (readable : Bool) : PeersContent → PeersFile
  | missing => .missing
  | malformed _ => if readable then .malformed else .unreadable
  | peers entries => if readable then .peers entries else .unreadable

def records : PeersContent → List PeerEntry
  | missing => []
  | malformed legible => legible
  | peers entries => entries

/-- What the file holds after a mutation that has written these entries, or nothing. -/
def after (content : PeersContent) : Option (List PeerEntry) → PeersContent
  | none => content
  | some entries => peers entries

end PeersContent

/-! ## Mutations -/

inductive OwnerMutation where
  | addPeer (record : PeerRecord)
  | removePeer (remoteEpk : String) (commits : Bool)
  | conditionalRemovePeer (remoteEpk : String) (expectedToken : OwnerStorageToken)
      (commits : Bool)
  | conditionalRollbackPeer (receipt : PeerWriteReceipt) (commits : Bool)
deriving DecidableEq, Repr

namespace OwnerMutation

/-- The raw handle of the Owner that a mutation is about. -/
def target : OwnerMutation → String
  | addPeer record => record.remoteEpk
  | removePeer remoteEpk _ | conditionalRemovePeer remoteEpk _ _ => remoteEpk
  | conditionalRollbackPeer receipt _ => receipt.record.remoteEpk

/-- The entries that a mutation writes, when it writes the file. -/
def written (s : OwnerStorage) : OwnerMutation → Option (List PeerEntry)
  | addPeer record => some (insertRecord record (listPeers s.file)).1
  | removePeer remoteEpk commits =>
    let peers := listPeers s.file
    let filtered := peers.filter fun e => e.remoteEpk ≠ some remoteEpk
    if commits && filtered.length ≠ peers.length then some filtered else none
  | conditionalRemovePeer remoteEpk expectedToken commits =>
    if (s.tokenForSlot (ownerSlotKey remoteEpk)).2 ≠ expectedToken then none
    else
      (readPeerContainerStrict s.file).bind fun peers =>
        let filtered := peers.filter fun e => e.remoteEpk ≠ some remoteEpk
        if commits && filtered.length ≠ peers.length then some filtered else none
  | conditionalRollbackPeer receipt commits =>
    if (s.tokenForSlot (ownerSlotKey receipt.record.remoteEpk)).2 ≠ receipt.token then none
    else
      (readPeerContainerStrict s.file).bind fun peers =>
        if commits then withdrawRecord receipt peers else none

end OwnerMutation

/-- One run of the mutation lane. A `removePeer` that may not commit writes nothing. -/
def OwnerStorage.mutate (s : OwnerStorage) : OwnerMutation → OwnerStorage
  | .addPeer record => (s.addPeer record).1
  | .removePeer remoteEpk commits => if commits then (s.removePeer remoteEpk).1 else s
  | .conditionalRemovePeer remoteEpk expectedToken commits =>
    (s.conditionalRemovePeer remoteEpk expectedToken commits).1
  | .conditionalRollbackPeer receipt commits => (s.conditionalRollbackPeer receipt commits).1

theorem file_tokenForSlot (s : OwnerStorage) (slot : Slot) : (s.tokenForSlot slot).1.file = s.file := by
  unfold OwnerStorage.tokenForSlot
  split <;> rfl

theorem file_conditionalRemovePeer (s : OwnerStorage) (remoteEpk : String)
    (expectedToken : OwnerStorageToken) (commits : Bool) :
    (s.conditionalRemovePeer remoteEpk expectedToken commits).1.file =
      match OwnerMutation.written s (.conditionalRemovePeer remoteEpk expectedToken commits) with
      | some entries => .peers entries
      | none => s.file := by
  unfold OwnerStorage.conditionalRemovePeer OwnerMutation.written
  have hfile := file_tokenForSlot s (ownerSlotKey remoteEpk)
  dsimp only
  by_cases htoken : (s.tokenForSlot (ownerSlotKey remoteEpk)).2 ≠ expectedToken
  · rw [if_pos htoken, if_pos htoken]
    exact hfile
  rw [if_neg htoken, if_neg htoken, hfile]
  cases hread : readPeerContainerStrict s.file with
  | none => exact hfile
  | some peers =>
    dsimp only [Option.bind_some]
    generalize (peers.filter fun e => decide (e.remoteEpk ≠ some remoteEpk)) = filtered
    by_cases hlen : filtered.length = peers.length
    · simp [hlen, hfile]
    · cases commits <;> simp [hlen, hfile, OwnerStorage.invalidateOwnerSlot]

theorem file_conditionalRollbackPeer (s : OwnerStorage) (receipt : PeerWriteReceipt)
    (commits : Bool) :
    (s.conditionalRollbackPeer receipt commits).1.file =
      match OwnerMutation.written s (.conditionalRollbackPeer receipt commits) with
      | some entries => .peers entries
      | none => s.file := by
  unfold OwnerStorage.conditionalRollbackPeer OwnerMutation.written
  have hfile := file_tokenForSlot s (ownerSlotKey receipt.record.remoteEpk)
  dsimp only
  by_cases htoken : (s.tokenForSlot (ownerSlotKey receipt.record.remoteEpk)).2 ≠ receipt.token
  · rw [if_pos htoken, if_pos htoken]
    exact hfile
  rw [if_neg htoken, if_neg htoken, hfile]
  cases hread : readPeerContainerStrict s.file with
  | none => exact hfile
  | some peers =>
    dsimp only [Option.bind_some]
    cases withdrawRecord receipt peers with
    | none => cases commits <;> exact hfile
    | some nextPeers => cases commits <;> simp [hfile, OwnerStorage.invalidateOwnerSlot]

/-- A mutation writes the whole file or leaves it. -/
theorem file_mutate (s : OwnerStorage) (m : OwnerMutation) :
    (s.mutate m).file =
      match m.written s with
      | some entries => .peers entries
      | none => s.file := by
  cases m with
  | addPeer record => rfl
  | removePeer remoteEpk commits =>
    unfold OwnerStorage.mutate OwnerMutation.written OwnerStorage.removePeer
    dsimp only
    generalize ((listPeers s.file).filter fun e => decide (e.remoteEpk ≠ some remoteEpk)) = filtered
    by_cases hlen : filtered.length = (listPeers s.file).length
    · cases commits <;> simp [hlen]
    · cases commits <;> simp [hlen, OwnerStorage.invalidateOwnerSlot]
  | conditionalRemovePeer remoteEpk expectedToken commits =>
    exact file_conditionalRemovePeer s remoteEpk expectedToken commits
  | conditionalRollbackPeer receipt commits =>
    exact file_conditionalRollbackPeer s receipt commits

/-! ## The other Owners -/

/-- A record of an Owner other than the one of the raw handle. -/
def IsOther (target : String) (e : PeerEntry) : Prop :=
  e.owner.isSome = true ∧ e.owner ≠ canonicalize target

instance (target : String) (e : PeerEntry) : Decidable (IsOther target e) :=
  inferInstanceAs (Decidable (_ ∧ _))

/-- Every record of another Owner is there as before, as it is when the file is left. -/
def KeepsOthers (content : PeersContent) (target : String) (content' : PeersContent) : Prop :=
  (content.records.filter fun e => IsOther target e).Sublist content'.records

instance (content : PeersContent) (target : String) (content' : PeersContent) :
    Decidable (KeepsOthers content target content') :=
  inferInstanceAs (Decidable (List.Sublist _ _))

theorem not_isOther_of_remoteEpk {target : String} {e : PeerEntry}
    (h : e.remoteEpk = some target) : ¬IsOther target e := by
  rintro ⟨-, hne⟩
  refine hne ?_
  rw [PeerEntry.owner, h]
  rfl

theorem not_isOther_entry (record : PeerRecord) : ¬IsOther record.remoteEpk record.entry :=
  not_isOther_of_remoteEpk (PeerRecord.remoteEpk_entry record)

/-- `addPeer` keeps the others of the entries it has read. -/
theorem insertRecord_keeps (record : PeerRecord) (peers : List PeerEntry) :
    (peers.filter fun e => decide (IsOther record.remoteEpk e)).Sublist
      (insertRecord record peers).1 := by
  unfold insertRecord
  cases hidx : peers.findIdx? fun e => decide (e.remoteEpk = some record.remoteEpk) with
  | none => exact List.filter_sublist.trans (List.sublist_append_left _ _)
  | some idx =>
    refine filter_sublist_set (fun e he => decide_eq_false ?_) _
    exact not_isOther_of_remoteEpk (of_decide_eq_true (getElem?_of_findIdx? hidx he))

theorem withdrawRecord_keeps {receipt : PeerWriteReceipt} {peers nextPeers : List PeerEntry}
    (h : withdrawRecord receipt peers = some nextPeers) :
    (peers.filter fun e => decide (IsOther receipt.record.remoteEpk e)).Sublist nextPeers := by
  obtain ⟨idx, hidx, hnext⟩ := Option.map_eq_some_iff.mp h
  have hother : ∀ e, peers[idx]? = some e →
      decide (IsOther receipt.record.remoteEpk e) = false := by
    intro e he
    rw [of_decide_eq_true (getElem?_of_findIdx? hidx he)]
    exact decide_eq_false (not_isOther_entry receipt.record)
  cases hprev : receipt.previousRecord with
  | none =>
    rw [hprev] at hnext
    rw [← hnext]
    exact filter_sublist_eraseIdx hother
  | some previousRecord =>
    rw [hprev] at hnext
    rw [← hnext]
    exact filter_sublist_set hother _

/-- Removing the entries of a raw handle keeps the others. -/
theorem filter_keeps (remoteEpk : String) (peers : List PeerEntry) :
    (peers.filter fun e => decide (IsOther remoteEpk e)).Sublist
      (peers.filter fun e => decide (e.remoteEpk ≠ some remoteEpk)) := by
  refine List.monotone_filter_right peers fun e he => ?_
  refine decide_eq_true fun hepk => ?_
  exact not_isOther_of_remoteEpk hepk (of_decide_eq_true he)

theorem entries_of_strict {content : PeersContent} {readable : Bool} {peers : List PeerEntry}
    (h : readPeerContainerStrict (content.read readable) = some peers) :
    peers = content.records := by
  cases content with
  | missing => exact (Option.some.inj h).symm
  | malformed legible => cases readable <;> cases h
  | peers entries =>
    cases readable with
    | false => cases h
    | true => exact (Option.some.inj h).symm

theorem listPeers_of_strict {file : PeersFile} {peers : List PeerEntry}
    (h : readPeerContainerStrict file = some peers) : listPeers file = peers := by
  cases file <;> cases h <;> rfl

theorem listPeers_of_not_strict {file : PeersFile} (h : readPeerContainerStrict file = none) :
    listPeers file = [] := by
  cases file <;> first | rfl | cases h

theorem removePeer_keeps (s : OwnerStorage) (content : PeersContent) (readable : Bool)
    (remoteEpk : String) (commits : Bool) :
    KeepsOthers content remoteEpk (content.after
      ((OwnerMutation.removePeer remoteEpk commits).written
        { s with file := content.read readable })) := by
  unfold OwnerMutation.written
  dsimp only
  split_ifs with hwrites
  · cases hread : readPeerContainerStrict (content.read readable) with
    | none =>
      -- nothing is read, so that nothing is found to remove
      rw [listPeers_of_not_strict hread] at hwrites
      simp at hwrites
    | some peers =>
      rw [listPeers_of_strict hread, entries_of_strict hread]
      exact filter_keeps remoteEpk content.records
  · exact List.filter_sublist

theorem conditionalRemovePeer_keeps (s : OwnerStorage) (content : PeersContent) (readable : Bool)
    (remoteEpk : String) (expectedToken : OwnerStorageToken) (commits : Bool) :
    KeepsOthers content remoteEpk (content.after
      ((OwnerMutation.conditionalRemovePeer remoteEpk expectedToken commits).written
        { s with file := content.read readable })) := by
  unfold OwnerMutation.written
  dsimp only
  by_cases htoken : (OwnerStorage.tokenForSlot { s with file := content.read readable }
      (ownerSlotKey remoteEpk)).2 ≠ expectedToken
  · rw [if_pos htoken]
    exact List.filter_sublist
  rw [if_neg htoken]
  cases hread : readPeerContainerStrict (content.read readable) with
  | none => exact List.filter_sublist
  | some peers =>
    dsimp only [Option.bind_some]
    split_ifs
    · rw [entries_of_strict hread]
      exact filter_keeps remoteEpk content.records
    · exact List.filter_sublist

theorem conditionalRollbackPeer_keeps (s : OwnerStorage) (content : PeersContent)
    (readable : Bool) (receipt : PeerWriteReceipt) (commits : Bool) :
    KeepsOthers content receipt.record.remoteEpk (content.after
      ((OwnerMutation.conditionalRollbackPeer receipt commits).written
        { s with file := content.read readable })) := by
  unfold OwnerMutation.written
  dsimp only
  by_cases htoken : (OwnerStorage.tokenForSlot { s with file := content.read readable }
      (ownerSlotKey receipt.record.remoteEpk)).2 ≠ receipt.token
  · rw [if_pos htoken]
    exact List.filter_sublist
  rw [if_neg htoken]
  cases hread : readPeerContainerStrict (content.read readable) with
  | none => exact List.filter_sublist
  | some peers =>
    dsimp only [Option.bind_some]
    cases commits with
    | false => exact List.filter_sublist
    | true =>
      rw [if_pos rfl]
      cases hnext : withdrawRecord receipt peers with
      | none => exact List.filter_sublist
      | some nextPeers =>
        rw [entries_of_strict hread] at hnext
        exact withdrawRecord_keeps hnext

/-- `addPeer` keeps the other Owners' records when the file is read as the strict reader
    reads it, or when there are none. Every other mutation keeps them always. -/
theorem keepsOthers_iff (s : OwnerStorage) (content : PeersContent) (readable : Bool)
    (m : OwnerMutation) :
    KeepsOthers content m.target
        (content.after (m.written { s with file := content.read readable })) ↔
      ∀ record, m = .addPeer record →
        (readPeerContainerStrict (content.read readable)).isSome = true ∨
          ∀ e ∈ content.records, ¬IsOther record.remoteEpk e := by
  cases m with
  | addPeer record =>
    simp only [OwnerMutation.addPeer.injEq, forall_eq']
    show (content.records.filter _).Sublist (insertRecord record _).1 ↔ _
    cases hread : readPeerContainerStrict (content.read readable) with
    | some peers =>
      rw [listPeers_of_strict hread, entries_of_strict hread]
      exact iff_of_true (insertRecord_keeps record _) (Or.inl rfl)
    | none =>
      rw [listPeers_of_not_strict hread]
      show (content.records.filter _).Sublist [record.entry] ↔ _
      simp only [Option.isSome_none, Bool.false_eq_true, false_or]
      constructor
      · intro hsub e he hother
        have hmem := hsub.subset (List.mem_filter.mpr ⟨he, decide_eq_true hother⟩)
        rw [List.mem_singleton.mp hmem] at hother
        exact not_isOther_entry record hother
      · intro hnone
        have hnil : content.records.filter (fun e => decide (IsOther record.remoteEpk e)) = [] :=
          List.filter_eq_nil_iff.mpr fun e he hother => hnone e he (of_decide_eq_true hother)
        show (content.records.filter _).Sublist _
        rw [show OwnerMutation.target (.addPeer record) = record.remoteEpk from rfl, hnil]
        exact List.nil_sublist _
  | removePeer remoteEpk commits => exact iff_of_true (removePeer_keeps ..) fun _ h => by cases h
  | conditionalRemovePeer remoteEpk expectedToken commits =>
    exact iff_of_true (conditionalRemovePeer_keeps ..) fun _ h => by cases h
  | conditionalRollbackPeer receipt commits =>
    exact iff_of_true (conditionalRollbackPeer_keeps ..) fun _ h => by cases h

def desktopRecord : PeerRecord :=
  ⟨"Desktop", "AAAAAAAAAAAAAAAAAAAAAAAAAAAAAAAAAAAAAAAAAAA=", "2026-01-01T00:00:00.000Z"⟩

def phoneRecord : PeerRecord :=
  ⟨"Phone", "AQAAAAAAAAAAAAAAAAAAAAAAAAAAAAAAAAAAAAAAAAA=", "2026-01-02T00:00:00.000Z"⟩

/-- What the file holds after the phone is paired, when reading it goes as `readable` says. -/
def phonePaired (content : PeersContent) (readable : Bool) : PeersContent :=
  content.after
    ((OwnerMutation.addPeer phoneRecord).written ⟨content.read readable, .empty, 0⟩)

/-- `addPeer` on a file that cannot be read, or whose text is cut short: of the Owner that was
    paired before, no record is left. -/
theorem otherOwner_lost :
    ¬KeepsOthers (.peers [desktopRecord.entry]) phoneRecord.remoteEpk
        (phonePaired (.peers [desktopRecord.entry]) false) ∧
      ¬KeepsOthers (.malformed [desktopRecord.entry]) phoneRecord.remoteEpk
        (phonePaired (.malformed [desktopRecord.entry]) true) := by
  decide

end RemotePi.Pairing
