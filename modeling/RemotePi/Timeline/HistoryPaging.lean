import RemotePi.Timeline.HistoryPacking
import RemotePi.Timeline.HistoryWindows

/-!
# Paging through a frozen history

A client reads the history of a session with `before = null` and then with each
`next_before` until `eos`. The session does not change meanwhile.

The pager (`pages`) refines a walk over positions (`walk`), which has no cursors.
The walk is lossless exactly when the groups of the branch are apart and each
window keeps the limits of a page.

Results:
* `pages_eq_walk`: the pages of a session are the pages of the walk.
* `lossless_iff_paged`: when paging gives every recovered record exactly once.
* `overlapping_not_lossless`: a branch of which a record is never sent.
-/

namespace RemotePi.Timeline

open RemotePi.Lib RemotePi.Protocol

/-! ## Requests and tokens -/

/-- What a client chooses in a `session_sync`, within its schema. -/
structure PageRequest where
  requestId : String
  targetChannelId : String
  limit : Option ℕ
  requestId_valid : validId requestId = true
  targetChannelId_valid : validId targetChannelId = true

def PageRequest.withBefore (request : PageRequest) (before : Option String) :
    HistorySyncRequest where
  requestId := request.requestId
  targetChannelId := request.targetChannelId
  before := before
  limit := request.limit

/-- The alphabet of URL-safe Base64. -/
def urlAlphabet : List Char :=
  "ABCDEFGHIJKLMNOPQRSTUVWXYZabcdefghijklmnopqrstuvwxyz0123456789-_".toList

/-- A token as `issueCursor` draws it (lines 406–410): 32 bytes in URL-safe Base64. -/
structure CursorToken where
  text : String
  length_eq : text.length = 43
  alphabet : ∀ c ∈ text.toList, c ∈ urlAlphabet

theorem CursorToken.valid (token : CursorToken) : validId token.text = true := by
  have hall : (urlAlphabet.all fun c => decide (c.toNat < 0x10000)) = true := rfl
  have hchar : ∀ c ∈ urlAlphabet, c.toNat < 0x10000 := fun c hc =>
    of_decide_eq_true (List.all_eq_true.mp hall c hc)
  have hlen : utf16Length token.text = 43 := by
    have hmap : (token.text.toList.map fun c => if c.toNat < 0x10000 then 1 else 2) =
        token.text.toList.map fun _ => 1 :=
      List.map_congr_left fun c hc => if_pos (hchar c (token.alphabet c hc))
    rw [utf16Length, hmap, List.map_const', List.sum_replicate, String.length_toList,
      token.length_eq]
    rfl
  simp [validId, hlen, maxIdChars]

/-! ## The frozen session -/

/-- A session that is not written to while it is read. The leaf is the last entry
    of the branch, and the branch up to the snapshot head is the branch. -/
structure FrozenSession where
  manager : SessionManager
  events : List TimelineEvent
  recovered_eq : manager.recovered = some events
  leaf : manager.branch.getLast?.map BranchEntry.id = manager.leafId
  branchTo_head : manager.branchTo (manager.leafId.getD manager.sessionId) = manager.branch
  sessionId_valid : validId manager.sessionId = true
  historyGeneration_valid : validId manager.historyGeneration = true
  head_valid : validId (manager.leafId.getD manager.sessionId) = true
  eventIds_nodup : (events.map TimelineEvent.eventId).Nodup
  known : ∀ e ∈ events, ((branchPositions manager.branch).get? e.eventId).isSome

namespace FrozenSession

variable (s : FrozenSession)

def head : String := s.manager.leafId.getD s.manager.sessionId

/-- A cursor of the frozen snapshot. -/
def cursor (p : ℕ) (used busy : Bool) : CursorState where
  sessionId := s.manager.sessionId
  historyGeneration := s.manager.historyGeneration
  snapshotHead := s.head
  branchEntryIds := s.manager.branch.map BranchEntry.id
  position := p
  used := used
  busy := busy

def header (request : PageRequest) : ChunkHeader where
  targetChannelId := request.targetChannelId
  requestId := request.requestId
  sessionId := s.manager.sessionId
  historyGeneration := s.manager.historyGeneration
  snapshotHead := s.head

theorem header_valid (request : PageRequest) : (s.header request).Valid :=
  ⟨request.targetChannelId_valid, request.requestId_valid, s.sessionId_valid,
    s.historyGeneration_valid, s.head_valid⟩

/-- The records that are recovered before a position, in the order of recovery. -/
def recoveredBefore (p : ℕ) : List EventRecord :=
  s.events.zipIdx.filterMap (toRecord (branchPositions s.manager.branch) p)

end FrozenSession

/-! ## Positions of events -/

def Below (positions : OrderedMap String ℕ) (n : ℕ) : Prop :=
  ∀ id p, positions.get? id = some p → p < n

theorem Below.set {positions : OrderedMap String ℕ} {n p : ℕ} (h : Below positions n)
    (hp : p < n) (key : String) : Below (positions.set key p) n := by
  intro id q hq
  rw [OrderedMap.get?_set] at hq
  split_ifs at hq
  · cases hq
    exact hp
  · exact h id q hq

theorem below_addPositions {positions : OrderedMap String ℕ} {entry : BranchEntry} {n : ℕ}
    (h : Below positions n) : Below (addPositions positions (entry, n)) (n + 1) := by
  have h₀ : Below positions (n + 1) := fun id p hp => Nat.lt_succ_of_lt (h id p hp)
  have h₁ := h₀.set (Nat.lt_succ_self n) entry.id
  have h₂ : Below (if entry.isMessage then
      (positions.set entry.id n).set ("legacy:" ++ entry.id) n else positions.set entry.id n)
      (n + 1) := by
    split_ifs
    · exact h₁.set (Nat.lt_succ_self n) _
    · exact h₁
  cases hm : entry.markerEventId with
  | none => simpa only [addPositions, hm] using h₂
  | some eventId =>
    by_cases hne : eventId ≠ ""
    · simpa only [addPositions, hm, if_pos hne] using h₂.set (Nat.lt_succ_self n) eventId
    · simpa only [addPositions, hm, if_neg hne] using h₂

theorem below_branchPositions (branch : List BranchEntry) :
    Below (branchPositions branch) branch.length := by
  induction branch using List.reverseRecOn with
  | nil => intro id p h; cases h
  | append_singleton branch entry ih =>
    rw [branchPositions, List.zipIdx_append, List.foldl_append, List.length_append]
    simpa [branchPositions] using below_addPositions ih

theorem toRecord_eq_some {positions : OrderedMap String ℕ} {p : ℕ}
    {indexed : TimelineEvent × ℕ} {r : EventRecord} :
    toRecord positions p indexed = some r ↔
      positions.get? indexed.1.eventId = some r.position ∧ r.position < p ∧
        r.event = indexed.1 ∧ r.order = indexed.2 ∧ r.bytes = indexed.1.bytes := by
  unfold toRecord
  cases positions.get? indexed.1.eventId with
  | none => simp
  | some position =>
    simp only [Option.some.injEq]
    split_ifs with hp
    · constructor
      · rintro ⟨⟩
      · rintro ⟨rfl, hlt, -⟩
        omega
    · constructor
      · intro h
        cases h
        exact ⟨rfl, Nat.lt_of_not_le hp, rfl, rfl, rfl⟩
      · rintro ⟨rfl, -, h1, h2, h3⟩
        cases r
        simp_all

/-! ## Records of the session -/

namespace FrozenSession

variable (s : FrozenSession)

theorem map_order_filterMap (positions : OrderedMap String ℕ) (p : ℕ)
    (l : List (TimelineEvent × ℕ)) :
    ((l.filterMap (toRecord positions p)).map EventRecord.order).Sublist (l.map Prod.snd) ∧
      ((l.filterMap (toRecord positions p)).map EventRecord.event).Sublist (l.map Prod.fst) := by
  induction l with
  | nil => exact ⟨List.Sublist.slnil, List.Sublist.slnil⟩
  | cons indexed l ih =>
    cases h : toRecord positions p indexed with
    | none =>
      rw [List.filterMap_cons_none h]
      exact ⟨ih.1.cons _, ih.2.cons _⟩
    | some r =>
      obtain ⟨-, -, h1, h2, -⟩ := toRecord_eq_some.mp h
      rw [List.filterMap_cons_some h]
      simp only [List.map_cons, h1, h2]
      exact ⟨ih.1.cons_cons _, ih.2.cons_cons _⟩

/-- The records of the whole branch. -/
def records : Records where
  all := (s.recoveredBefore s.manager.branch.length).mergeSort recordLe
  sorted := List.pairwise_mergeSort recordLe_trans recordLe_total _
  orders := by
    refine ((List.mergeSort_perm _ recordLe).map EventRecord.order).nodup_iff.mpr ?_
    refine List.Nodup.sublist (map_order_filterMap _ _ s.events.zipIdx).1 ?_
    rw [List.zipIdx_map_snd]
    exact List.nodup_range'
  eventIds := by
    refine ((List.mergeSort_perm _ recordLe).map _).nodup_iff.mpr ?_
    have h := (map_order_filterMap (branchPositions s.manager.branch) s.manager.branch.length
      s.events.zipIdx).2.map TimelineEvent.eventId
    rw [List.zipIdx_map_fst, List.map_map] at h
    exact s.eventIds_nodup.sublist h
  bytes_eq := by
    intro r hr
    obtain ⟨indexed, -, h⟩ := List.mem_filterMap.mp (List.mem_mergeSort.mp hr)
    obtain ⟨-, -, h1, -, h2⟩ := toRecord_eq_some.mp h
    rw [h1, h2]

/-- What is recovered before a position is what the branch holds before it. -/
theorem recoveredBefore_eq (p : ℕ) :
    s.recoveredBefore p =
      (s.recoveredBefore s.manager.branch.length).filter fun r => r.position < p := by
  unfold recoveredBefore
  induction s.events.zipIdx with
  | nil => rfl
  | cons indexed l ih =>
    rw [List.filterMap_cons, List.filterMap_cons, ih]
    unfold toRecord
    cases hget : (branchPositions s.manager.branch).get? indexed.1.eventId with
    | none => rfl
    | some position =>
      have hlt := below_branchPositions _ _ _ hget
      simp only [if_neg (Nat.not_le.mpr hlt)]
      by_cases hp : position < p
      · simp [if_neg (Nat.not_le.mpr hp), hp]
      · simp [if_pos (Nat.not_lt.mp hp), hp]

theorem mergeSort_recoveredBefore (p : ℕ) :
    (s.recoveredBefore p).mergeSort recordLe = s.records.before p := by
  refine Records.mergeSort_eq_between ?_
  rw [recoveredBefore_eq, Records.between]
  simp only [Nat.zero_le, decide_true, Bool.true_and]
  exact (List.mergeSort_perm _ recordLe).symm.filter _

/-- Every recovered event has a record before the end of the branch. -/
theorem map_event_records :
    ((s.records.before s.manager.branch.length).map EventRecord.event).Perm s.events := by
  rw [← mergeSort_recoveredBefore]
  refine ((List.mergeSort_perm _ recordLe).map _).trans ?_
  have h : ∀ (l : List TimelineEvent) (n : ℕ),
      (∀ e ∈ l, ((branchPositions s.manager.branch).get? e.eventId).isSome) →
        (((l.zipIdx n).filterMap (toRecord (branchPositions s.manager.branch)
          s.manager.branch.length)).map EventRecord.event) = l := by
    intro l
    induction l with
    | nil => intro n _; rfl
    | cons e l ih =>
      intro n hknown
      obtain ⟨position, hget⟩ := Option.isSome_iff_exists.mp (hknown e List.mem_cons_self)
      have hlt := below_branchPositions _ _ _ hget
      have hrec : toRecord (branchPositions s.manager.branch) s.manager.branch.length (e, n) =
          some ⟨e, position, n, e.bytes⟩ := by
        simp [toRecord, hget, hlt]
      rw [List.zipIdx_cons, List.filterMap_cons_some hrec, List.map_cons,
        ih (n + 1) fun e' he' => hknown e' (List.mem_cons_of_mem _ he')]
  rw [recoveredBefore, h s.events 0 s.known]

theorem settled : s.manager.Settled := ⟨s.leaf, s.branchTo_head⟩

theorem snapshotInvalidReason_cursor (p : ℕ) (used busy : Bool) :
    snapshotInvalidReason s.manager (s.cursor p used busy) = none :=
  s.settled.snapshotInvalidReason p used busy

theorem recoverRecords_cursor (p : ℕ) (used busy : Bool) :
    recoverRecords s.manager (s.cursor p used busy) = some (s.records.before p) := by
  unfold recoverRecords
  split_ifs with hempty
  · -- an empty branch knows no position, so nothing is recovered
    have hbranch : s.manager.branch = [] := by
      rw [Bool.and_eq_true] at hempty
      exact List.map_eq_nil_iff.mp (List.isEmpty_iff.mp hempty.1)
    have hnil : s.recoveredBefore p = [] := by
      refine List.filterMap_eq_nil_iff.mpr fun indexed _ => ?_
      rw [hbranch]
      rfl
    rw [← mergeSort_recoveredBefore, hnil]
    simp
  · rw [s.recovered_eq]
    simp only [Option.some.injEq]
    rw [← mergeSort_recoveredBefore, recoveredBefore]
    simp only [cursor, head, s.branchTo_head]

end FrozenSession

/-! ## Pages -/

/-- The chunks of an answer, if it has nothing else. -/
def chunks? : List ServerFrame → Option (List HistoryChunk)
  | [] => some []
  | .historyChunk chunk :: frames => (chunks? frames).map fun chunks => chunk :: chunks
  | _ :: _ => none

/-- The page of an answer, with the pages that follow it. -/
def followedBy (frames : List ServerFrame) (rest : String → Option (List (List HistoryChunk))) :
    Option (List (List HistoryChunk)) :=
  match chunks? frames with
  | none => none
  | some chunks =>
    match chunks.getLast?.map HistoryChunk.tail with
    | some .eos => some [chunks]
    | some (.nextBefore next) => (rest next).map fun pages => chunks :: pages
    | _ => none

/-- The pages of at most `fuel` calls, from `before` until `eos`. -/
def pages (manager : SessionManager) (tokens : ℕ → CursorToken) :
    ℕ → (ℕ → PageRequest) → Pager → Option String → Option (List (List HistoryChunk))
  | 0, _, _, _ => none
  | fuel + 1, requests, pager, before =>
    let (pager, frames) :=
      sync (fun n => (tokens n).text) manager pager ((requests 0).withBefore before)
    followedBy frames fun next =>
      pages manager tokens fuel (fun n => requests (n + 1)) pager (some next)

/-- The pages from a position on. -/
def walk (s : FrozenSession) :
    ℕ → (ℕ → CursorToken) → (ℕ → PageRequest) → ℕ → Option (List (List HistoryChunk))
  | 0, _, _, _ => none
  | fuel + 1, tokens, requests, p =>
    match selectWindow (s.records.before p) p (requests 0).limit with
    | .error _ => none
    | .ok window =>
      let hasOlder := (s.records.before p).any fun r => r.position < window.nextPosition
      match fragmentWindow (s.header (requests 0)) (window.records.map EventRecord.event)
          (if hasOlder then some (tokens 0).text else none) with
      | .error _ => none
      | .ok chunks =>
        if hasOlder then
          (walk s fuel (fun n => tokens (n + 1)) (fun n => requests (n + 1))
            window.nextPosition).map fun pages => chunks :: pages
        else some [chunks]

theorem chunks?_map (chunks : List HistoryChunk) :
    chunks? (chunks.map .historyChunk) = some chunks := by
  induction chunks with
  | nil => rfl
  | cons chunk chunks ih => rw [List.map_cons, chunks?, ih, Option.map_some]

section Refinement

variable {s : FrozenSession} {tokens : ℕ → CursorToken} {fuel : ℕ}

/-- One page of the pager is one step of the walk, whatever is left in the pager. -/
theorem followedBy_page {requests : ℕ → PageRequest} (pager : Pager) {before : Option String}
    {p : ℕ} {used busy : Bool} (rest : Pager → String → Option (List (List HistoryChunk)))
    (hrest : ∀ (pager' : Pager) (next : String) (q : ℕ),
      pager'.cursors.get? next = some (s.cursor q false false) → pager'.issued = pager.issued + 1 →
        rest pager' next = walk s fuel (fun n => tokens (pager'.issued + n))
          (fun n => requests (n + 1)) q) :
    followedBy (page (fun n => (tokens n).text) s.manager pager
        ((requests 0).withBefore before) (s.cursor p used busy)).2
        (rest (page (fun n => (tokens n).text) s.manager pager
          ((requests 0).withBefore before) (s.cursor p used busy)).1) =
      walk s (fuel + 1) (fun n => tokens (pager.issued + n)) requests p := by
  have hheader : chunkHeader ((requests 0).withBefore before) (s.cursor p used busy) =
      s.header (requests 0) := rfl
  unfold page walk
  simp only [s.snapshotInvalidReason_cursor, s.recoverRecords_cursor, hheader]
  simp only [FrozenSession.cursor, PageRequest.withBefore, Nat.add_zero]
  cases selectWindow (s.records.before p) p (requests 0).limit with
  | error message => rfl
  | ok window =>
    simp only
    cases hasOlder : (s.records.before p).any fun r => decide (r.position < window.nextPosition) with
    | false =>
      simp only [Bool.false_eq_true, if_false]
      cases hchunks : fragmentWindow (s.header (requests 0))
          (window.records.map EventRecord.event) none with
      | error message => rfl
      | ok chunks =>
        simp only [followedBy, chunks?_map, tail_fragmentWindow hchunks, pageTail]
    | true =>
      simp only [if_true]
      cases hchunks : fragmentWindow (s.header (requests 0))
          (window.records.map EventRecord.event) (some (tokens pager.issued).text) with
      | error message => rfl
      | ok chunks =>
        simp only [followedBy, chunks?_map, tail_fragmentWindow hchunks, pageTail]
        rw [hrest _ _ window.nextPosition (OrderedMap.get?_set_self _ _ _) rfl]
        simp only [Nat.add_assoc, Nat.add_comm 1]

theorem pages_cursor_eq_walk {requests : ℕ → PageRequest} {pager : Pager} {before : String}
    {p : ℕ} (h : pager.cursors.get? before = some (s.cursor p false false)) :
    pages s.manager tokens fuel requests pager (some before) =
      walk s fuel (fun n => tokens (pager.issued + n)) requests p := by
  induction fuel generalizing requests pager before p with
  | zero => rfl
  | succ fuel ih =>
    have hsync : sync (fun n => (tokens n).text) s.manager pager
        ((requests 0).withBefore (some before)) =
        page (fun n => (tokens n).text) s.manager
          { pager with cursors := pager.cursors.set before (s.cursor p true false) }
          ((requests 0).withBefore (some before)) (s.cursor p false false) := by
      have hvalid := s.snapshotInvalidReason_cursor p false false
      simp only [sync, PageRequest.withBefore, h, hvalid]
      simp [FrozenSession.cursor]
    simp only [pages, hsync]
    refine followedBy_page
      { pager with cursors := pager.cursors.set before (s.cursor p true false) }
      (fun pager' next => pages s.manager tokens fuel (fun n => requests (n + 1)) pager'
        (some next)) ?_
    intro pager' next q hget _
    exact ih hget

/-- The pages that a client reads are the pages of the walk from the end of the branch. -/
theorem pages_eq_walk {requests : ℕ → PageRequest} {pager : Pager}
    (h : pager.initialBusy = false) :
    pages s.manager tokens fuel requests pager none =
      walk s fuel (fun n => tokens (pager.issued + n)) requests s.manager.branch.length := by
  cases fuel with
  | zero => rfl
  | succ fuel =>
    have hguard : (!s.manager.branch.isEmpty &&
        decide (s.manager.branch.getLast?.map BranchEntry.id ≠ some s.head)) = false := by
      rw [s.leaf, FrozenSession.head]
      cases hleaf : s.manager.leafId with
      | none =>
        have := s.leaf
        rw [hleaf, Option.map_eq_none_iff, List.getLast?_eq_none_iff] at this
        simp [this]
      | some leaf => simp
    have hinitial : syncInitial (fun n => (tokens n).text) s.manager
        { pager with initialBusy := true } ((requests 0).withBefore none) =
        page (fun n => (tokens n).text) s.manager { pager with initialBusy := true }
          ((requests 0).withBefore none) (s.cursor s.manager.branch.length true true) := by
      simp only [syncInitial]
      rw [show s.manager.leafId.getD s.manager.sessionId = s.head from rfl, hguard]
      rfl
    have hsync : sync (fun n => (tokens n).text) s.manager pager ((requests 0).withBefore none) =
        ({ (syncInitial (fun n => (tokens n).text) s.manager { pager with initialBusy := true }
            ((requests 0).withBefore none)).1 with initialBusy := false },
          (syncInitial (fun n => (tokens n).text) s.manager { pager with initialBusy := true }
            ((requests 0).withBefore none)).2) := by
      simp only [sync, PageRequest.withBefore, h]
      rfl
    simp only [pages, hsync, hinitial]
    refine followedBy_page { pager with initialBusy := true }
      (fun pager' next => pages s.manager tokens fuel (fun n => requests (n + 1))
        { pager' with initialBusy := false } (some next)) ?_
    intro pager' next q hget _
    exact pages_cursor_eq_walk hget

end Refinement

/-! ## When paging is lossless -/

/-- Every client that reads the session to the end receives every recovered event
    exactly once, whatever its limits and whatever was read before. -/
def Lossless (s : FrozenSession) : Prop :=
  ∀ (tokens : ℕ → CursorToken) (requests : ℕ → PageRequest) (pager : Pager),
    pager.initialBusy = false →
      ∃ fuel ps, pages s.manager tokens fuel requests pager none = some ps ∧
        (ps.flatMap received).Perm (s.events.map wire)

/-- The next cursor of a page whose older records are given. -/
def nextToken (older : List EventRecord) (token : CursorToken) : Option String :=
  if older.isEmpty then none else some token.text

/-- The history before `p` can be paged: its groups are apart, the records of a
    single group with the system events up to the next cut keep the limit of a
    window, and the items of every window that keeps it, cut into full frames,
    keep the limits of frames. -/
structure Paged (s : FrozenSession) (p : ℕ) : Prop where
  apart : s.records.Apart p
  fits : ∀ a b, s.records.IsWindow p a b → (s.records.startsIn a b).length ≤ 1 →
    bytesOf (s.records.between a b) ≤ maxWindowDecodeBytes
  chunks : ∀ a b, s.records.IsWindow p a b →
    bytesOf (s.records.between a b) ≤ maxWindowDecodeBytes →
      ∀ (request : PageRequest) (token : CursorToken),
        PacksFit (s.header request) ((s.records.between a b).map EventRecord.event)
          (nextToken (s.records.before a) token)

/-- The walk from `p` gives the records before `p`, each exactly once. -/
def Walks (s : FrozenSession) (p : ℕ) : Prop :=
  ∀ (tokens : ℕ → CursorToken) (requests : ℕ → PageRequest), ∃ fuel ps,
    walk s fuel tokens requests p = some ps ∧
      (ps.flatMap received).Perm (((s.records.before p).map EventRecord.event).map wire)

section Walk

variable {s : FrozenSession} {p : ℕ}

theorem walk_eq_some {tokens : ℕ → CursorToken} {requests : ℕ → PageRequest} {fuel : ℕ}
    {ps : List (List HistoryChunk)} :
    walk s (fuel + 1) tokens requests p = some ps ↔
      ∃ window chunks, selectWindow (s.records.before p) p (requests 0).limit = .ok window ∧
        fragmentWindow (s.header (requests 0)) (window.records.map EventRecord.event)
          (if (s.records.before p).any (fun r => r.position < window.nextPosition) then
            some (tokens 0).text else none) = .ok chunks ∧
        if (s.records.before p).any (fun r => r.position < window.nextPosition) then
          ∃ rest, walk s fuel (fun n => tokens (n + 1)) (fun n => requests (n + 1))
            window.nextPosition = some rest ∧ ps = chunks :: rest
        else ps = [chunks] := by
  rw [walk]
  cases selectWindow (s.records.before p) p (requests 0).limit with
  | error message => simp
  | ok window =>
    simp only [Except.ok.injEq, exists_and_left, exists_eq_left']
    cases fragmentWindow (s.header (requests 0)) (window.records.map EventRecord.event)
        (if (s.records.before p).any (fun r => r.position < window.nextPosition) then
          some (tokens 0).text else none) with
    | error message => simp
    | ok chunks =>
      simp only [Except.ok.injEq, exists_eq_left']
      split_ifs
      · rw [Option.map_eq_some_iff]
        exact exists_congr fun rest => and_congr_right fun _ => eq_comm
      · rw [Option.some.injEq]
        exact eq_comm

/-- A window that keeps its limits is sent. -/
theorem fragmentWindow_between {a b : ℕ} {request : PageRequest} {nextBefore : Option String}
    (hnext : ∀ cursor, nextBefore = some cursor → validId cursor = true)
    (hbytes : bytesOf (s.records.between a b) ≤ maxWindowDecodeBytes) :
    (∃ chunks, fragmentWindow (s.header request) ((s.records.between a b).map EventRecord.event)
        nextBefore = .ok chunks) ↔
      PacksFit (s.header request) ((s.records.between a b).map EventRecord.event) nextBefore := by
  refine fragmentWindow_isOk_iff (s.header_valid request) hnext ?_
  have hmeasured : ((s.records.between a b).map EventRecord.event).map TimelineEvent.bytes =
      (s.records.between a b).map EventRecord.bytes := by
    rw [List.map_map]
    refine List.map_congr_left fun r hr => ?_
    exact (s.records.bytes_eq r (Records.mem_between.mp hr).1).symm
  rw [hmeasured]
  exact hbytes

theorem nextToken_valid {older : List EventRecord} {token : CursorToken} :
    ∀ cursor, nextToken older token = some cursor → validId cursor = true := by
  intro cursor h
  unfold nextToken at h
  split_ifs at h
  cases h
  exact token.valid

/-- The condition up to `p` gives the condition up to an earlier start. -/
theorem Paged.before {a : ℕ} (h : Paged s p) (ha : a ∈ s.records.starts) (hlt : a < p) :
    Paged s a := by
  have hcut : ∀ b, s.records.IsCut a b → s.records.IsCut p b := by
    rintro b (rfl | ⟨hb, hs⟩)
    · exact .inr ⟨hlt, ha⟩
    · exact .inr ⟨hb.trans hlt, hs⟩
  have hmem : ∀ r ∈ s.records.before a, r ∈ s.records.before p := by
    intro r hr
    obtain ⟨h1, h2⟩ := Records.mem_before.mp hr
    exact Records.mem_before.mpr ⟨h1, h2.trans hlt⟩
  exact
    { apart := fun r hr r₁ hr₁ r₂ hr₂ => h.apart r (hmem r hr) r₁ (hmem r₁ hr₁) r₂ (hmem r₂ hr₂)
      fits := fun a' b hw => h.fits a' b ⟨hcut b hw.1, hw.2⟩
      chunks := fun a' b hw => h.chunks a' b ⟨hcut b hw.1, hw.2⟩ }

/-- Under the condition the walk succeeds. -/
theorem Paged.walks (h : Paged s p) : Walks s p := by
  induction p using Nat.strong_induction_on with
  | _ p ih =>
    intro tokens requests
    obtain ⟨a, next, hsel, hwindow, hbytes, hnext⟩ :=
      Records.selectWindow_isOk h.apart (fun a hw => h.fits a p hw) (requests 0).limit
    have holder := Records.hasOlder_eq hnext
    obtain ⟨chunks, hchunks⟩ := (fragmentWindow_between nextToken_valid hbytes).mpr
      (h.chunks a p hwindow hbytes (requests 0) (tokens 0))
    have hrec := received_fragmentWindow hchunks
    cases hempty : (s.records.before a).isEmpty with
    | true =>
      rw [hempty] at holder
      rw [nextToken, hempty] at hchunks
      refine ⟨1, [chunks], walk_eq_some.mpr ⟨_, chunks, hsel, ?_, ?_⟩, ?_⟩
      · simpa [holder] using hchunks
      · simp [holder]
      · have hle : a ≤ p := by
          rcases hnext with ⟨-, -, hlt⟩ | ⟨rfl, -⟩ <;> omega
        have hsplit := s.records.before_append_between hle
        rw [List.isEmpty_iff.mp hempty, List.nil_append] at hsplit
        simpa using hrec.trans ((hsplit.map EventRecord.event).map wire)
    | false =>
      rw [hempty] at holder
      rw [nextToken, hempty] at hchunks
      obtain ⟨rfl, hstart, hlt⟩ : next = a ∧ a ∈ s.records.starts ∧ a < p := by
        rcases hnext with h' | ⟨rfl, -⟩
        · exact h'
        · rw [Records.before_zero] at hempty
          cases hempty
      obtain ⟨fuel, rest, hwalk, hrest⟩ := ih next hlt (h.before hstart hlt)
        (fun n => tokens (n + 1)) (fun n => requests (n + 1))
      refine ⟨fuel + 1, chunks :: rest, walk_eq_some.mpr ⟨_, chunks, hsel, ?_, ?_⟩, ?_⟩
      · simpa [holder] using hchunks
      · simp [holder, hwalk]
      · have hsplit := s.records.before_append_between hlt.le
        rw [List.flatMap_cons]
        refine (hrec.append hrest).trans ?_
        rw [← List.map_append, ← List.map_append]
        exact ((List.perm_append_comm.trans hsplit).map _).map _

/-! ## Lossless paging needs the condition -/

/-- A page without records is one empty frame. -/
theorem packsFit_nil (s : FrozenSession) (request : PageRequest) :
    PacksFit (s.header request) [] none := by
  intro groups hcut
  have hone := hcut.eq_cut (fun _ item => hasRoom_of_concat item) (by rintro _ ⟨⟩)
  have hgroups : groups = [[]] := hone
  have hroom := hcut.hasRoom [] (by rw [hgroups]; exact List.mem_cons_self)
  rw [hasRoom, Bool.and_eq_true, decide_eq_true_eq, decide_eq_true_eq] at hroom
  subst hgroups
  refine ⟨fun items hitems => ?_, fun items hitems => ?_, fun items hitems => ?_⟩
  · obtain rfl : [] = items := Option.mem_some_iff.mp hitems
    have hdigit : jsonNatBytes 0 = 1 := by decide
    rw [List.length_singleton, Nat.sub_self, hdigit]
    exact Nat.succ_le_succ hroom.2
  · rw [List.mem_singleton.mp hitems]
    exact Nat.zero_le _
  · rw [List.mem_singleton.mp hitems]
    intro event hevent
    cases hevent

theorem between_nil_of_before {a b : ℕ} (h : s.records.before p = []) (hb : b ≤ p) :
    s.records.between a b = [] := by
  refine List.eq_nil_iff_forall_not_mem.mpr fun r hr => ?_
  obtain ⟨h1, -, h2⟩ := Records.mem_between.mp hr
  have hmem := Records.mem_before.mpr ⟨h1, h2.trans_le hb⟩
  rw [h] at hmem
  cases hmem

/-- A history without records can be paged. -/
theorem paged_of_before_eq_nil (h : s.records.before p = []) : Paged s p := by
  have hle : ∀ {b}, s.records.IsCut p b → b ≤ p := by
    rintro b (rfl | ⟨hb, -⟩)
    · exact le_rfl
    · exact hb.le
  refine ⟨?_, ?_, ?_⟩
  · intro r hr
    rw [h] at hr
    cases hr
  · intro a b hw _
    rw [between_nil_of_before h (hle hw.1)]
    exact Nat.zero_le _
  · intro a b hw _ request token
    have hle' : a ≤ b := by
      rcases hw.2 with ⟨-, hlt, -⟩ | ⟨rfl, -⟩ <;> omega
    have hbefore : s.records.before a = [] :=
      between_nil_of_before (a := 0) h (hle'.trans (hle hw.1))
    rw [between_nil_of_before h (hle hw.1), nextToken, hbefore]
    exact packsFit_nil s request

/-- A walk receives only records before its position. -/
theorem received_subset {tokens : ℕ → CursorToken} {requests : ℕ → PageRequest} {fuel : ℕ}
    {ps : List (List HistoryChunk)} (h : walk s fuel tokens requests p = some ps) :
    ∀ x ∈ ps.flatMap received, ∃ r ∈ s.records.before p, wire r.event = x := by
  induction fuel generalizing tokens requests p ps with
  | zero => cases h
  | succ fuel ih =>
    obtain ⟨window, chunks, hsel, hchunks, hrest⟩ := walk_eq_some.mp h
    obtain ⟨hsub, hle⟩ := Records.selectWindow_subset hsel
    have hpage : ∀ x ∈ received chunks, ∃ r ∈ s.records.before p, wire r.event = x := by
      intro x hx
      rw [(received_fragmentWindow hchunks).mem_iff, List.map_map] at hx
      obtain ⟨r, hr, rfl⟩ := List.mem_map.mp hx
      exact ⟨r, hsub r hr, rfl⟩
    split_ifs at hrest
    · obtain ⟨rest, hwalk, rfl⟩ := hrest
      intro x hx
      rw [List.flatMap_cons] at hx
      rcases List.mem_append.mp hx with hx | hx
      · exact hpage x hx
      · obtain ⟨r, hr, hx⟩ := ih hwalk x hx
        obtain ⟨h1, h2⟩ := Records.mem_before.mp hr
        exact ⟨r, Records.mem_before.mpr ⟨h1, h2.trans_le hle⟩, hx⟩
    · rw [hrest]
      simpa using hpage

/-- Records with the same wire form are equal. -/
theorem wire_injective {r r' : EventRecord} (hr : r ∈ s.records.all) (hr' : r' ∈ s.records.all)
    (h : wire r.event = wire r'.event) : r = r' :=
  List.inj_on_of_nodup_map s.records.eventIds hr hr' (congrArg Prod.fst h)

/-- Where the groups are apart, every window up to `p` has been sent by some client. -/
theorem Walks.packsFit {a : ℕ} (h : Walks s p) (happ : s.records.Apart p)
    (hwindow : s.records.IsWindow p a p)
    (hbytes : bytesOf (s.records.between a p) ≤ maxWindowDecodeBytes) (request : PageRequest)
    (token : CursorToken) :
    PacksFit (s.header request) ((s.records.between a p).map EventRecord.event)
      (nextToken (s.records.before a) token) := by
  obtain ⟨limit, next, hsel, hnext⟩ := Records.selectWindow_of_isWindow happ hwindow hbytes
  obtain ⟨fuel, ps, hwalk, -⟩ := h (fun _ => token) fun _ => { request with limit := limit }
  cases fuel with
  | zero => cases hwalk
  | succ fuel =>
    obtain ⟨window, chunks, hsel', hchunks, -⟩ := walk_eq_some.mp hwalk
    cases hsel.symm.trans hsel'
    refine (fragmentWindow_between nextToken_valid hbytes).mp ⟨chunks, ?_⟩
    have holder := Records.hasOlder_eq hnext
    change fragmentWindow (s.header request) _ _ = _ at hchunks
    simp only [holder] at hchunks
    unfold nextToken
    cases hempty : (s.records.before a).isEmpty
    · simpa [hempty] using hchunks
    · simpa [hempty] using hchunks

/-- What a page for one group shows of the history: its window is everything from the
    last start on, and the walk goes on from there. -/
theorem Walks.last {pre : List GroupRecord} {g : GroupRecord} (request : PageRequest)
    (token : CursorToken) (h : Walks s p) (hg : s.records.groupsBefore p = pre ++ [g]) :
    (s.records.selection p g.firstPosition [g]).Perm (s.records.between g.firstPosition p) ∧
      bytesOf (s.records.between g.firstPosition p) ≤ maxWindowDecodeBytes ∧
      (s.records.before g.firstPosition ≠ [] → Walks s g.firstPosition) := by
  have hmem : g ∈ s.records.groupsBefore p := by simp [hg]
  have hsub : [g].Sublist (s.records.groupsBefore p) := List.singleton_sublist.mpr hmem
  obtain ⟨hstart, hlt⟩ := Records.mem_starts_iff.mpr ⟨g, hmem, rfl⟩
  -- a client that starts with one group and continues as it likes
  have hstep : ∀ (tokens : ℕ → CursorToken) (requests : ℕ → PageRequest), ∃ fuel chunks ps,
      (received chunks).Perm
          (((s.records.selection p g.firstPosition [g]).map EventRecord.event).map wire) ∧
        bytesOf (s.records.selection p g.firstPosition [g]) ≤ maxWindowDecodeBytes ∧
        (received chunks ++ ps.flatMap received).Perm
          (((s.records.before p).map EventRecord.event).map wire) ∧
        if s.records.before g.firstPosition = [] then ps = []
        else walk s fuel tokens requests g.firstPosition = some ps := by
    intro tokens requests
    obtain ⟨fuel, ps, hwalk, hperm⟩ := h
      (fun n => if n = 0 then token else tokens (n - 1))
      (fun n => if n = 0 then { request with limit := some 1 } else requests (n - 1))
    cases fuel with
    | zero => cases hwalk
    | succ fuel =>
      obtain ⟨window, chunks, hsel, hchunks, hrest⟩ := walk_eq_some.mp hwalk
      rcases Records.selectWindow_last hsel with ⟨pre', g', hg', rfl, hbytes⟩ | ⟨hnil, -, -⟩
      · obtain ⟨rfl, rfl⟩ : pre' = pre ∧ g' = g := by
          have := List.append_inj' (hg'.symm.trans hg) rfl
          exact ⟨this.1, by simpa using this.2⟩
        have hsort := List.mergeSort_perm (s.records.selection p g'.firstPosition [g']) recordLe
        have hrec := (received_fragmentWindow hchunks).trans ((hsort.map _).map _)
        have hbytes' : bytesOf (s.records.selection p g'.firstPosition [g']) ≤
            maxWindowDecodeBytes := ((hsort.map EventRecord.bytes).sum_eq).symm.le.trans hbytes
        have hnext : s.records.Next p g'.firstPosition g'.firstPosition := .inl ⟨rfl, hstart, hlt⟩
        simp only [Records.hasOlder_eq hnext] at hrest
        by_cases hempty : s.records.before g'.firstPosition = []
        · simp only [hempty, List.isEmpty_nil, Bool.not_true, Bool.false_eq_true, if_false] at hrest
          subst hrest
          refine ⟨fuel, chunks, [], hrec, hbytes', by simpa using hperm, ?_⟩
          rw [if_pos hempty]
        · have hfalse : (s.records.before g'.firstPosition).isEmpty = false := by simpa using hempty
          simp only [hfalse, Bool.not_false, if_true] at hrest
          obtain ⟨rest, hwalk', rfl⟩ := hrest
          refine ⟨fuel, chunks, rest, hrec, hbytes', by simpa using hperm, ?_⟩
          rw [if_neg hempty]
          exact hwalk'
      · rw [hg] at hnil
        simp at hnil
  obtain ⟨fuel, chunks, ps, hrec, hbytes, hperm, hps⟩ := hstep (fun _ => token) fun _ => request
  -- every record from the start on must have come with this page
  have hwindow : (s.records.selection p g.firstPosition [g]).Perm
      (s.records.between g.firstPosition p) := by
    refine (List.perm_ext_iff_of_nodup (Records.nodup_selection hsub)
      (Records.nodup_between _ _)).mpr fun r => ?_
    rw [Records.mem_between]
    constructor
    · intro hr
      rcases Records.mem_selection.mp hr with ⟨g', hg', hrg⟩ | ⟨hb, -, hle⟩
      · obtain rfl := List.mem_singleton.mp hg'
        have hb := Records.mem_before.mp ((Records.mem_records_iff hmem).mp hrg).1
        exact ⟨hb.1, Records.firstPosition_le hmem hrg, hb.2⟩
      · exact ⟨(Records.mem_before.mp hb).1, hle, (Records.mem_before.mp hb).2⟩
    · rintro ⟨hall, hle, hrp⟩
      have hb : r ∈ s.records.before p := Records.mem_before.mpr ⟨hall, hrp⟩
      have hx : wire r.event ∈ received chunks ++ ps.flatMap received := by
        rw [hperm.mem_iff]
        exact List.mem_map_of_mem (List.mem_map_of_mem hb)
      rcases List.mem_append.mp hx with hx | hx
      · rw [hrec.mem_iff, List.map_map] at hx
        obtain ⟨r', hr', heq⟩ := List.mem_map.mp hx
        have hr'p : r' ∈ s.records.before p := by
          rcases Records.mem_selection.mp hr' with ⟨g', hg', hr''⟩ | ⟨hb', -, -⟩
          · obtain rfl := List.mem_singleton.mp hg'
            exact ((Records.mem_records_iff hmem).mp hr'').1
          · exact hb'
        exact wire_injective (Records.mem_before.mp hr'p).1 hall heq ▸ hr'
      · exfalso
        split_ifs at hps with hempty
        · rw [hps] at hx
          cases hx
        · obtain ⟨r', hr', heq⟩ := received_subset hps _ hx
          obtain ⟨h1, h2⟩ := Records.mem_before.mp hr'
          have := wire_injective h1 hall heq
          rw [this] at h2
          omega
  refine ⟨hwindow, (hwindow.map EventRecord.bytes).sum_eq.symm.le.trans hbytes, ?_⟩
  intro hempty tokens requests
  obtain ⟨fuel, chunks, ps, hrec, -, hperm, hps⟩ := hstep tokens requests
  rw [if_neg hempty] at hps
  refine ⟨fuel, ps, hps, ?_⟩
  have hsplit := s.records.before_append_between hlt.le
  have hall := hperm.trans (((List.perm_append_comm.trans hsplit).symm.map EventRecord.event).map wire)
  rw [List.map_append, List.map_append] at hall
  have hrec' := hrec.trans ((hwindow.map EventRecord.event).map wire)
  exact (List.perm_append_left_iff _).mp ((hrec'.symm.append_right _).trans hall)

/-- The groups are apart when those before the last start are and no record of them
    lies in the last window. -/
theorem apart_of_last {pre : List GroupRecord} {g : GroupRecord}
    (hg : s.records.groupsBefore p = pre ++ [g])
    (hwindow : (s.records.selection p g.firstPosition [g]).Perm
      (s.records.between g.firstPosition p))
    (happ : s.records.Apart g.firstPosition) : s.records.Apart p := by
  have hmem : g ∈ s.records.groupsBefore p := by simp [hg]
  have honly : ∀ r ∈ s.records.before p, r.event.isSystem = false →
      g.firstPosition ≤ r.position → r.event.groupId = g.groupId := by
    intro r hr hs hle
    obtain ⟨hall, hlt⟩ := Records.mem_before.mp hr
    have hin := (hwindow.mem_iff).mpr (Records.mem_between.mpr ⟨hall, hle, hlt⟩)
    rcases Records.mem_selection.mp hin with ⟨g', hg', hr'⟩ | ⟨-, hsys, -⟩
    · obtain rfl := List.mem_singleton.mp hg'
      exact ((Records.mem_records_iff hmem).mp hr').2.2
    · rw [hs] at hsys
      cases hsys
  have hfirst : ∀ r ∈ s.records.before p, r.event.isSystem = false →
      r.event.groupId = g.groupId → g.firstPosition ≤ r.position := by
    intro r hr hs hid
    exact Records.firstPosition_le hmem ((Records.mem_records_iff hmem).mpr ⟨hr, hs, hid⟩)
  intro r hr r₁ hr₁ r₂ hr₂ hisFirst hsame h₁ h₂
  obtain ⟨hs₁, hs₂, hid⟩ := Records.sameGroup_iff.mp hsame
  have hs := (Records.isFirst_iff.mp hisFirst).1
  by_cases hlast : g.firstPosition ≤ r₂.position
  · -- `r₂` is of the last group, so `r₁` is, and `r` lies in the last window
    have hid₂ := honly r₂ hr₂ hs₂ hlast
    have hle := hfirst r₁ hr₁ hs₁ (hid.trans hid₂)
    exact Records.sameGroup_iff.mpr ⟨hs, hs₁, (honly r hr hs (hle.trans h₁)).trans
      (hid.trans hid₂).symm⟩
  · have hbefore : ∀ x ∈ s.records.before p, x.position < g.firstPosition →
        x ∈ s.records.before g.firstPosition := fun x hx hlt =>
      Records.mem_before.mpr ⟨(Records.mem_before.mp hx).1, hlt⟩
    exact happ r (hbefore r hr (by omega)) r₁ (hbefore r₁ hr₁ (by omega)) r₂
      (hbefore r₂ hr₂ (by omega)) hisFirst hsame h₁ h₂

/-- A start before `p` is not after the last one. -/
theorem le_last {pre : List GroupRecord} {g : GroupRecord} {a : ℕ}
    (hg : s.records.groupsBefore p = pre ++ [g]) (ha : a ∈ s.records.starts) (hlt : a < p) :
    a ≤ g.firstPosition := by
  obtain ⟨g', hg', rfl⟩ := Records.mem_starts_iff.mp ⟨ha, hlt⟩
  rw [hg] at hg'
  rcases List.mem_append.mp hg' with hg' | hg'
  · exact (Records.groupsBefore_pairwise hg).1 g' hg'
  · rw [List.mem_singleton.mp hg']

/-- Lossless paging needs the condition. -/
theorem Walks.paged (request : PageRequest) (token : CursorToken) (h : Walks s p) : Paged s p := by
  induction p using Nat.strong_induction_on with
  | _ p ih =>
    rcases List.eq_nil_or_concat (s.records.groupsBefore p) with hnil | ⟨pre, g, hg⟩
    · -- no group: the history is sent as one window
      have hno : ∀ r ∈ s.records.before p, s.records.isFirst r = false := by
        intro r hr
        by_contra hfirst
        have hs := (Records.isFirst_iff.mp (by simpa using hfirst)).1
        obtain ⟨g, hg, -⟩ := Records.exists_groupsBefore hr hs
        rw [hnil] at hg
        cases hg
      have happ : s.records.Apart p := by
        intro r hr _ _ _ _ hfirst
        rw [hno r hr] at hfirst
        cases hfirst
      have hstarts := Records.startsIn_zero_eq_nil.mpr hnil
      have hcut : ∀ a b, s.records.IsWindow p a b → b = p ∧ a = 0 := by
        intro a b hw
        have hnone : ∀ c ∈ s.records.starts, ¬ c < p := by
          intro c hc hlt
          have : c ∈ s.records.startsIn 0 p := Records.mem_startsIn.mpr ⟨hc, Nat.zero_le _, hlt⟩
          rw [hstarts] at this
          cases this
        have hb : b = p := by
          rcases hw.1 with rfl | ⟨hb, hs⟩
          · rfl
          · exact absurd hb (hnone b hs)
        subst hb
        rcases hw.2 with ⟨ha, hlt, -⟩ | ⟨ha, -⟩
        · exact absurd hlt (hnone a ha)
        · exact ⟨rfl, ha⟩
      have hbytes : bytesOf (s.records.before p) ≤ maxWindowDecodeBytes := by
        obtain ⟨fuel, ps, hwalk, -⟩ := h (fun _ => token) fun _ => { request with limit := some 1 }
        cases fuel with
        | zero => cases hwalk
        | succ fuel =>
          obtain ⟨window, chunks, hsel, -⟩ := walk_eq_some.mp hwalk
          rcases Records.selectWindow_last hsel with ⟨pre, g, hg, -⟩ | ⟨-, -, hle⟩
          · rw [hnil] at hg
            simp at hg
          · exact hle
      refine ⟨happ, ?_, ?_⟩
      · intro a b hw _
        obtain ⟨rfl, rfl⟩ := hcut a b hw
        exact hbytes
      · intro a b hw hle request token
        obtain ⟨rfl, rfl⟩ := hcut a b hw
        exact h.packsFit happ hw hle request token
    · rw [List.concat_eq_append] at hg
      have hmem : g ∈ s.records.groupsBefore p := by simp [hg]
      obtain ⟨hstart, hlt⟩ := Records.mem_starts_iff.mpr ⟨g, hmem, rfl⟩
      obtain ⟨hwindow, hbytes, hrest⟩ := h.last request token hg
      have hprev : Paged s g.firstPosition := by
        by_cases hempty : s.records.before g.firstPosition = []
        · exact paged_of_before_eq_nil hempty
        · exact ih g.firstPosition hlt (hrest hempty)
      have happ := apart_of_last hg hwindow hprev.apart
      have hcut : ∀ a b, s.records.IsWindow p a b → b = p ∨ s.records.IsWindow g.firstPosition a b := by
        rintro a b ⟨rfl | ⟨hb, hs⟩, hw⟩
        · exact .inl rfl
        · refine .inr ⟨?_, hw⟩
          rcases Nat.lt_or_eq_of_le (le_last hg hs hb) with hlt' | heq
          · exact .inr ⟨hlt', hs⟩
          · exact .inl heq
      refine ⟨happ, ?_, ?_⟩
      · intro a b hw hone
        rcases hcut a b hw with rfl | hw'
        · -- a window up to `p` with one start is the last window
          have hin : g.firstPosition ∈ s.records.startsIn a b := by
            refine Records.mem_startsIn.mpr ⟨hstart, ?_, hlt⟩
            rcases hw.2 with ⟨ha, hab, -⟩ | ⟨rfl, -⟩
            · exact le_last hg ha hab
            · exact Nat.zero_le _
          rcases hw.2 with ⟨ha, hab, -⟩ | ⟨rfl, hnone⟩
          · have hin' : a ∈ s.records.startsIn a b := Records.mem_startsIn.mpr ⟨ha, le_rfl, hab⟩
            obtain ⟨c, hc⟩ := List.length_eq_one_iff.mp
              (le_antisymm hone (List.length_pos_of_mem hin))
            rw [hc] at hin hin'
            rw [List.mem_singleton.mp hin', ← List.mem_singleton.mp hin]
            exact hbytes
          · rw [hnone] at hin
            cases hin
        · exact hprev.fits a b hw' hone
      · intro a b hw hle
        rcases hcut a b hw with rfl | hw'
        · exact h.packsFit happ hw hle
        · exact hprev.chunks a b hw' hle

end Walk

instance : Inhabited PageRequest := ⟨⟨"sync-1", "channel-1", none, by decide, by decide⟩⟩

instance : Inhabited CursorToken where
  default :=
    { text := String.ofList (List.replicate 43 'A')
      length_eq := by rw [String.length_ofList, List.length_replicate]
      alphabet := by
        intro c hc
        rw [String.toList_ofList] at hc
        rw [List.eq_of_mem_replicate hc]
        decide }

theorem Lossless.paged {s : FrozenSession} (h : Lossless s) :
    Paged s s.manager.branch.length := by
  refine Walks.paged default default fun tokens requests => ?_
  obtain ⟨fuel, ps, hpages, hrec⟩ := h tokens requests .initial rfl
  rw [pages_eq_walk rfl] at hpages
  exact ⟨fuel, ps, by simpa [Pager.initial] using hpages,
    hrec.trans (s.map_event_records.map wire).symm⟩

theorem Paged.lossless {s : FrozenSession} (h : Paged s s.manager.branch.length) : Lossless s := by
  intro tokens requests pager hbusy
  obtain ⟨fuel, ps, hwalk, hrec⟩ := h.walks (fun n => tokens (pager.issued + n)) requests
  exact ⟨fuel, ps, (pages_eq_walk hbusy).trans hwalk, hrec.trans (s.map_event_records.map wire)⟩

/-- Paging is lossless exactly when the whole branch meets the condition. -/
theorem lossless_iff_paged (s : FrozenSession) :
    Lossless s ↔ Paged s s.manager.branch.length :=
  ⟨Lossless.paged, Paged.lossless⟩

/-! ## Overlapping groups -/

/-- A short user event with its JSON text, which starts with the byte 123. -/
def userEvent (eventId groupId : String) (h : validId eventId = true) : TimelineEvent where
  eventId := eventId
  kind := .user
  groupId := groupId
  encoded :=
    ⟨123, by omega⟩ :: ("\"event_id\":\"" ++ eventId ++ "\",\"session_id\":\"s\",\"history_generation\":" ++
      "\"s\",\"timestamp\":1,\"group_id\":\"" ++ groupId ++ "\",\"kind\":\"user\"," ++
      "\"message_id\":\"" ++ eventId ++ "\",\"blocks\":[],\"origin\":\"unknown\"," ++
      "\"delivery\":\"unknown\",\"status\":\"committed\"\x7d").toList.map
        fun c => ⟨c.toNat % 256, Nat.mod_lt _ (by omega)⟩
  eventId_valid := h
  encoded_ne := List.cons_ne_nil _ _

/-- Three user events: the first and the last are of group `a`, the one between of `b`. -/
def overlappingEvents : List TimelineEvent :=
  [userEvent "e0" "a" (by decide), userEvent "e1" "b" (by decide),
    userEvent "e2" "a" (by decide)]

def overlappingBranch : List BranchEntry :=
  [⟨"n0", false, some "e0"⟩, ⟨"n1", false, some "e1"⟩, ⟨"n2", false, some "e2"⟩]

def overlapping : FrozenSession where
  manager :=
    { sessionId := "s"
      historyGeneration := "s"
      leafId := some "n2"
      branch := overlappingBranch
      branchTo := fun _ => overlappingBranch
      recovered := some overlappingEvents }
  events := overlappingEvents
  recovered_eq := rfl
  leaf := rfl
  branchTo_head := rfl
  sessionId_valid := by decide
  historyGeneration_valid := by decide
  head_valid := by decide
  eventIds_nodup := by decide
  known := by decide

/-- Some client never receives an event of the overlapping groups. -/
theorem overlapping_not_lossless : ¬ Lossless overlapping := by
  intro h
  have happ := h.paged.apart
  have hall : overlapping.recoveredBefore overlapping.manager.branch.length =
      (overlappingEvents.zipIdx.map fun (e, n) => ⟨e, n, n, e.bytes⟩) := by rfl
  have hmem : ∀ e n, (e, n) ∈ overlappingEvents.zipIdx → (⟨e, n, n, e.bytes⟩ : EventRecord) ∈
      overlapping.records.before overlapping.manager.branch.length := by
    intro e n hn
    rw [← FrozenSession.mergeSort_recoveredBefore, List.mem_mergeSort, hall]
    exact List.mem_map_of_mem hn
  have hfirst : overlapping.records.isFirst
      ⟨userEvent "e1" "b" (by decide), 1, 1, (userEvent "e1" "b" (by decide)).bytes⟩ = true := by
    refine Records.isFirst_iff.mpr ⟨rfl, fun r hr hsame => ?_⟩
    have hr' : r ∈ overlapping.recoveredBefore overlapping.manager.branch.length :=
      List.mem_mergeSort.mp hr
    rw [hall] at hr'
    simp only [overlappingEvents, List.zipIdx_cons, List.zipIdx_nil, List.map_cons, List.map_nil,
      List.mem_cons, List.not_mem_nil, or_false] at hr'
    rcases hr' with rfl | rfl | rfl
    · exact absurd (Records.sameGroup_iff.mp hsame).2.2 (by decide)
    · exact le_rfl
    · decide
  have hsame := happ _ (hmem _ 1 (by simp [overlappingEvents, List.zipIdx_cons]))
    _ (hmem _ 0 (by simp [overlappingEvents, List.zipIdx_cons]; rfl))
    _ (hmem _ 2 (by simp [overlappingEvents, List.zipIdx_cons]; rfl)) hfirst (by rfl)
    (by decide) (by decide)
  exact absurd (Records.sameGroup_iff.mp hsame).2.2 (by decide)

end RemotePi.Timeline
