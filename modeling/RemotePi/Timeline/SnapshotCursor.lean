import RemotePi.Timeline.Snapshot

/-!
# Snapshot cursors

A pager answers requests while the session changes between them: the branch grows, is
switched, or another session takes its place.

Results:
* `sync_cases`: what a request can do.
* `PagerInv.run`: every cursor of the table stands for a snapshot of recorded entries, and
  every token that has been served a page is used.
* `cursor_isolated`: every token gives at most one page, and when the page of a cursor is
  what it was before the appends.
* `page_lost_to_nameless_tool`: an appended tool result ends the paging of a snapshot.
-/

namespace RemotePi.Timeline

open RemotePi.Lib RemotePi.Protocol

/-! ## Requests of a changing session -/

def isChunk : ServerFrame → Bool
  | .historyChunk _ => true
  | _ => false

/-- The table in which the cursor of a request is marked as used. -/
def Pager.use (pager : Pager) (key : String) (cursor : CursorState) : Pager :=
  { pager with cursors := pager.cursors.set key { cursor with used := true } }

section Sync

variable {m : SessionManager} {pager : Pager} {call : SyncCall}

/-- What a request can do: nothing, serve the first page, or use a cursor. -/
theorem sync_cases (m : SessionManager) (pager : Pager) (call : SyncCall) :
    ((call.sync m pager).1.cursors = pager.cursors ∧ (call.sync m pager).2.any isChunk = false) ∨
    (call.before = none ∧ ∃ (pager' : Pager) (cursor : CursorState),
      pager'.cursors = pager.cursors ∧
      (call.sync m pager).1.cursors = (page (fun _ => call.token.text) m pager'
        (call.request.withBefore call.before) cursor).1.cursors) ∨
    (∃ key cursor, call.before = some key ∧ pager.cursors.get? key = some cursor ∧
      cursor.used = false ∧
      (call.sync m pager = page (fun _ => call.token.text) m (pager.use key cursor)
          (call.request.withBefore call.before) cursor ∨
        (call.sync m pager).1 = pager.use key cursor ∧
          (call.sync m pager).2.any isChunk = false)) := by
  obtain ⟨request, before, token⟩ := call
  unfold SyncCall.sync
  cases before with
  | none =>
    simp only [sync, PageRequest.withBefore]
    by_cases hbusy : pager.initialBusy = true
    · rw [if_pos hbusy]
      exact .inl ⟨rfl, rfl⟩
    · rw [if_neg hbusy]
      simp only [syncInitial]
      split_ifs
      · exact .inl ⟨rfl, rfl⟩
      · exact .inr (.inl ⟨trivial, { pager with initialBusy := true }, _, rfl, rfl⟩)
  | some key =>
    simp only [sync, PageRequest.withBefore]
    cases hget : pager.cursors.get? key with
    | none => exact .inl ⟨rfl, rfl⟩
    | some cursor =>
      dsimp only
      by_cases hbusy : cursor.busy = true
      · rw [if_pos hbusy]
        exact .inl ⟨rfl, rfl⟩
      · by_cases hused : cursor.used = true
        · rw [if_neg hbusy, if_pos hused]
          exact .inl ⟨rfl, rfl⟩
        · rw [if_neg hbusy, if_neg hused]
          refine .inr (.inr ⟨key, cursor, rfl, hget, by simpa using hused, ?_⟩)
          split_ifs
          · exact .inr ⟨rfl, rfl⟩
          · exact .inr ⟨rfl, rfl⟩
          · cases snapshotInvalidReason m cursor with
            | some reason => exact .inr ⟨rfl, rfl⟩
            | none => exact .inl rfl

theorem get?_use {key key' : String} {cursor : CursorState} :
    (pager.use key cursor).cursors.get? key' =
      if key' = key then some { cursor with used := true } else pager.cursors.get? key' :=
  OrderedMap.get?_set _ _ _ _

/-- A cursor of the table was there before, has just been used or is the next one of a page. -/
theorem cursors_sync {key : String} {next : CursorState}
    (hget : (call.sync m pager).1.cursors.get? key = some next) :
    pager.cursors.get? key = some next ∨
    (∃ cursor, pager.cursors.get? key = some cursor ∧ next = { cursor with used := true }) ∨
    (∃ cursor rs window, recoverRecords m cursor = some rs ∧
      snapshotInvalidReason m cursor = none ∧
      selectWindow rs cursor.position call.request.limit = .ok window ∧
      (∃ r ∈ rs, r.position < window.nextPosition) ∧
      next = { cursor with position := window.nextPosition, used := false, busy := false }) := by
  rcases sync_cases m pager call with ⟨hsame, -⟩ | ⟨-, pager', cursor, hsame, hpage⟩ |
    ⟨used, cursor, -, hfound, -, hpage | ⟨hpage, -⟩⟩
  · rw [hsame] at hget
    exact .inl hget
  · rw [hpage] at hget
    rcases cursors_page hget with hget | ⟨rs, window, hr, hvalid, -, hwindow, holder, hnext⟩
    · rw [hsame] at hget
      exact .inl hget
    · exact .inr (.inr ⟨cursor, rs, window, hr, hvalid, hwindow, holder, hnext⟩)
  · rw [hpage] at hget
    rcases cursors_page hget with hget | ⟨rs, window, hr, hvalid, -, hwindow, holder, hnext⟩
    · rw [get?_use] at hget
      split_ifs at hget with hkey
      · exact .inr (.inl ⟨cursor, hkey ▸ hfound, (Option.some.inj hget).symm⟩)
      · exact .inl hget
    · exact .inr (.inr ⟨cursor, rs, window, hr, hvalid, hwindow, holder, hnext⟩)
  · rw [hpage, get?_use] at hget
    split_ifs at hget with hkey
    · exact .inr (.inl ⟨cursor, hkey ▸ hfound, (Option.some.inj hget).symm⟩)
    · exact .inl hget

/-- A request keeps a cursor of another token, and marks at most its own as used. -/
theorem get?_sync {key : String} (hkey : key ≠ call.token.text) :
    (call.sync m pager).1.cursors.get? key = pager.cursors.get? key ∨
      call.before = some key ∧ ∃ cursor, pager.cursors.get? key = some cursor ∧
        (call.sync m pager).1.cursors.get? key = some { cursor with used := true } := by
  rcases sync_cases m pager call with ⟨hsame, -⟩ | ⟨-, pager', cursor, hsame, hpage⟩ |
    ⟨used, cursor, hbefore, hfound, -, hpage⟩
  · exact .inl (by rw [hsame])
  · refine .inl ?_
    rw [hpage, get?_page hkey, hsame]
  · have htable : (call.sync m pager).1.cursors.get? key =
        (pager.use used cursor).cursors.get? key := by
      rcases hpage with hpage | ⟨hpage, -⟩
      · rw [hpage, get?_page hkey]
      · rw [hpage]
    rw [htable, get?_use]
    by_cases hused : key = used
    · subst hused
      rw [if_pos rfl]
      exact .inr ⟨hbefore, cursor, hfound, rfl⟩
    · rw [if_neg hused]
      exact .inl rfl

/-- A page is served for a cursor that has not been used. -/
theorem unused_of_chunk {key : String} (hbefore : call.before = some key)
    (hchunk : (call.sync m pager).2.any isChunk = true) :
    ∃ cursor, pager.cursors.get? key = some cursor ∧ cursor.used = false ∧
      (key ≠ call.token.text → (call.sync m pager).1.cursors.get? key =
        some { cursor with used := true }) := by
  rcases sync_cases m pager call with ⟨-, hnone⟩ | ⟨hnone, -⟩ |
    ⟨used, cursor, hbefore', hfound, hunused, hpage⟩
  · rw [hnone] at hchunk
    cases hchunk
  · rw [hbefore] at hnone
    cases hnone
  · cases hbefore.symm.trans hbefore'
    refine ⟨cursor, hfound, hunused, fun hkey => ?_⟩
    rcases hpage with hpage | ⟨hpage, -⟩
    · rw [hpage, get?_page hkey, get?_use, if_pos rfl]
    · rw [hpage, get?_use, if_pos rfl]

end Sync

/-! ## Cursors of a run -/

/-- A session whose entries are those of a store, by session and id: an entry is never
    rewritten, and the ids of a branch are drawn apart. -/
structure Session.Recorded (store : String → String → SessionEntry) (session : Session) : Prop where
  entries : ∀ entry ∈ session.branch, store session.scope.sessionId entry.id = entry
  ids : (timelineIds session.branch).Nodup

/-- The cursor has been issued for a part of the store, at an entry that is no note. -/
structure Issued (store : String → String → SessionEntry) (cursor : CursorState) : Prop where
  idle : cursor.busy = false
  snapshot : ∃ snapshot : List SessionEntry,
    (∀ entry ∈ snapshot, store cursor.sessionId entry.id = entry) ∧
      cursor.branchEntryIds = snapshot.map SessionEntry.id ∧ AtEntry snapshot cursor.position

section Cursors

variable {rules : HostRules} {text : EventText} {store : String → String → SessionEntry}
  {session base extended : Session} {appended : List SessionEntry} {cursor : CursorState}

theorem Session.Recorded.of_extends (h : extended.Recorded store)
    (hext : extended.Extends base appended) : base.Recorded store where
  entries entry hentry := by
    have hmem : entry ∈ extended.branch := hext.branch ▸ List.mem_append_left _ hentry
    have hstored := h.entries entry hmem
    rwa [hext.scope] at hstored
  ids := by
    have hids := h.ids
    rw [hext.branch, timelineIds, List.flatMap_append, List.nodup_append] at hids
    exact hids.1

/-- The snapshot of an issued cursor that is valid. -/
theorem Issued.snapshotOf (h : Issued store cursor) (hrecorded : session.Recorded store)
    (hvalid : snapshotInvalidReason (session.manager rules text) cursor = none) :
    ∃ snapshot, SnapshotOf session cursor snapshot ∧ AtEntry snapshot cursor.position := by
  obtain ⟨snapshot, hstored, hids, hentry⟩ := h.snapshot
  have hne : cursor.branchEntryIds ≠ [] := by
    obtain ⟨entry, hget, -⟩ := hentry
    rw [hids]
    rintro hnil
    rw [List.map_eq_nil_iff.mp hnil] at hget
    cases hget
  have hsnap := snapshotOf_of_valid hvalid hne
  refine ⟨_, hsnap, ?_⟩
  -- both lists are what the store holds for the ids of the cursor
  have hfrom : ∀ entries : List SessionEntry,
      (∀ entry ∈ entries, store cursor.sessionId entry.id = entry) →
        (entries.map SessionEntry.id).map (store cursor.sessionId) = entries := by
    intro entries h
    rw [List.map_map]
    exact (List.map_congr_left h).trans (List.map_id _)
  have hsame : session.branch.take cursor.branchEntryIds.length = snapshot := by
    rw [← hfrom snapshot hstored, ← hids]
    refine (hfrom _ fun entry hmem => ?_).symm.trans (congrArg _ hsnap.ids.symm)
    rw [← hsnap.sessionId]
    exact hrecorded.entries entry (hsnap.starts.subset hmem)
  rwa [hsame]

/-- A page that has records is a page of a snapshot. -/
theorem branchEntryIds_ne_nil {rs : List EventRecord} {r : EventRecord}
    (hvalid : snapshotInvalidReason (session.manager rules text) cursor = none)
    (hr : recoverRecords (session.manager rules text) cursor = some rs) (hmem : r ∈ rs) :
    cursor.branchEntryIds ≠ [] := by
  intro hnil
  unfold snapshotInvalidReason at hvalid
  dsimp only at hvalid
  simp only [ite_some_eq_none] at hvalid
  obtain ⟨-, -, -, -, hpath, -⟩ := hvalid
  rw [not_not, hnil, List.map_eq_nil_iff] at hpath
  unfold recoverRecords at hr
  split_ifs at hr
  · cases hr
    cases hmem
  · rw [hpath] at hr
    dsimp only at hr
    cases hrecovered : (session.manager rules text).recovered with
    | none => rw [hrecovered] at hr; cases hr
    | some recovered =>
      rw [hrecovered] at hr
      cases hr
      obtain ⟨indexed, -, hrecord⟩ := List.mem_filterMap.mp (List.mem_mergeSort.mp hmem)
      cases hrecord

/-- A record of a snapshot stands at an entry of it. -/
theorem atEntry_of_record {snapshot : List SessionEntry} (hrecorded : session.Recorded store)
    (hsnap : SnapshotOf session cursor snapshot) {rs : List EventRecord} {r : EventRecord}
    (hr : recoverRecords (session.manager rules text) cursor = some rs) (hmem : r ∈ rs)
    (hgroup : r.event.isSystem = false) : AtEntry snapshot r.position := by
  rw [hsnap.recoverRecords, Option.map_eq_some_iff] at hr
  obtain ⟨recovered, hrecovered, rfl⟩ := hr
  obtain ⟨indexed, hindexed, hrecord⟩ := List.mem_filterMap.mp (List.mem_mergeSort.mp hmem)
  obtain ⟨hget, -, hevent, -⟩ := toRecord_eq_some.mp hrecord
  have hin : r.event ∈ recovered := hevent ▸ List.fst_mem_of_mem_zipIdx hindexed
  rw [recovered_manager, Option.map_eq_some_iff] at hrecovered
  obtain ⟨messages, hmessages, rfl⟩ := hrecovered
  rcases List.mem_append.mp hin with hin | hin
  · obtain ⟨found, hfound, hwire⟩ := exists_of_mem_mapM hmessages hin
    obtain ⟨i, entry, hentry, hnote, hid⟩ := exists_entry_of_recoveredMessages hfound
    rw [← wireMessage_eventId hwire] at hid
    obtain ⟨positioned, hpositioned, hpositionedId⟩ := get?_branchPositions hget
    rw [List.getElem?_map, Option.map_eq_some_iff] at hpositioned
    obtain ⟨entry', hentry', rfl⟩ := hpositioned
    obtain ⟨rest, hrest⟩ := hsnap.starts
    have hat : session.branch[r.position]? = some entry' := by
      rw [← hrest, List.getElem?_append_left (List.getElem?_eq_some_iff.mp hentry').1]
      exact hentry'
    obtain rfl := position_unique hrecorded.ids hentry hat hid (hevent ▸ hpositionedId)
    cases hentry.symm.trans hat
    exact ⟨entry, hentry', hnote⟩
  · obtain ⟨entry, -, hwire⟩ := List.mem_filterMap.mp hin
    rw [(wireSystem_eq_some hwire).2] at hgroup
    cases hgroup

/-- The cursor of a next page stands for the snapshot. -/
theorem issued_next (hrecorded : session.Recorded store) {rs : List EventRecord} {window : Window}
    {limit : Option ℕ} (hr : recoverRecords (session.manager rules text) cursor = some rs)
    (hvalid : snapshotInvalidReason (session.manager rules text) cursor = none)
    (hwindow : selectWindow rs cursor.position limit = .ok window)
    (holder : ∃ r ∈ rs, r.position < window.nextPosition) :
    Issued store { cursor with position := window.nextPosition, used := false, busy := false } := by
  obtain ⟨oldest, holdest, -⟩ := id holder
  have hsnap := snapshotOf_of_valid hvalid (branchEntryIds_ne_nil hvalid hr holdest)
  have hall : ∀ r ∈ rs, r.position < cursor.position := by
    intro r hmem
    have hrecords := hr
    rw [hsnap.recoverRecords, Option.map_eq_some_iff] at hrecords
    obtain ⟨recovered, -, rfl⟩ := hrecords
    obtain ⟨indexed, -, hrecord⟩ := List.mem_filterMap.mp (List.mem_mergeSort.mp hmem)
    exact (toRecord_eq_some.mp hrecord).2.1
  obtain ⟨r, hmem, hgroup, hposition⟩ := exists_record_at_nextPosition hwindow hall holder
  refine ⟨rfl, _, ?_, hsnap.ids, ?_⟩
  · intro entry hentry
    rw [← hsnap.sessionId]
    exact hrecorded.entries entry (hsnap.starts.subset hentry)
  · dsimp only
    rw [← hposition]
    exact atEntry_of_record hrecorded hsnap hr hmem hgroup

end Cursors

/-! ## Runs -/

/-- A request, and the session at the time. -/
structure SessionCall where
  session : Session
  call : SyncCall

/-- A request of a run; the cursor that a page is served for is logged. -/
def respond (rules : HostRules) (text : EventText) (pager : Pager) (request : SessionCall) :
    Option (Pager × List String) :=
  let (pager, frames) := request.call.sync (request.session.manager rules text) pager
  some (pager, if frames.any isChunk then request.call.before.toList else [])

/-- What holds of the table and of the log of a run: the cursors are those of snapshots, and the tokens
    that pages have been served for are used, each once. -/
structure PagerInv (store : String → String → SessionEntry) (pager : Pager) (log : List String) :
    Prop where
  issued : ∀ key cursor, pager.cursors.get? key = some cursor → Issued store cursor
  served : ∀ key ∈ log, ∃ cursor, pager.cursors.get? key = some cursor ∧ cursor.used = true
  nodup : log.Nodup

section Runs

variable {rules : HostRules} {text : EventText} {store : String → String → SessionEntry}

theorem pagerInv_initial : PagerInv store .initial [] := by
  refine ⟨?_, ?_, List.nodup_nil⟩
  · intro key cursor hget
    cases hget
  · intro key hkey
    cases hkey

theorem respond_eq (pager : Pager) (request : SessionCall) :
    respond rules text pager request =
      some ((request.call.sync (request.session.manager rules text) pager).1,
        if (request.call.sync (request.session.manager rules text) pager).2.any isChunk then
          request.call.before.toList else []) := rfl

/-- A request keeps the invariant, when its token has not been drawn before. -/
theorem PagerInv.respond {pager pager' : Pager} {log happened : List String}
    {request : SessionCall} (h : PagerInv store pager log)
    (hrecorded : request.session.Recorded store)
    (hfresh : pager.cursors.get? request.call.token.text = none)
    (hstep : respond rules text pager request = some (pager', happened)) :
    PagerInv store pager' (log ++ happened) ∧
      (∀ key, key ≠ request.call.token.text → pager.cursors.get? key = none →
        pager'.cursors.get? key = none) := by
  obtain ⟨session, call⟩ := request
  rw [respond_eq, Option.some.injEq, Prod.mk.injEq] at hstep
  obtain ⟨rfl, rfl⟩ := hstep
  dsimp only at hrecorded hfresh ⊢
  have hne : ∀ key ∈ log, key ≠ call.token.text := by
    rintro key hkey rfl
    obtain ⟨cursor, hget, -⟩ := h.served _ hkey
    rw [hfresh] at hget
    cases hget
  have hkeep : ∀ key ∈ log, ∃ cursor,
      (call.sync (session.manager rules text) pager).1.cursors.get? key = some cursor ∧
        cursor.used = true := by
    intro key hkey
    obtain ⟨cursor, hget, hused⟩ := h.served key hkey
    rcases @get?_sync (session.manager rules text) pager call key (hne key hkey) with
      hsame | ⟨-, cursor', -, hmarked⟩
    · exact ⟨cursor, hsame.trans hget, hused⟩
    · exact ⟨_, hmarked, rfl⟩
  refine ⟨⟨?_, ?_, ?_⟩, ?_⟩
  · intro key next hget
    rcases cursors_sync hget with hold | ⟨cursor, hfound, rfl⟩ |
      ⟨cursor, rs, window, hr, hvalid, hwindow, holder, rfl⟩
    · exact h.issued key next hold
    · obtain ⟨hidle, hsnapshot⟩ := h.issued key cursor hfound
      exact ⟨hidle, hsnapshot⟩
    · exact issued_next hrecorded hr hvalid hwindow holder
  · intro key hkey
    rcases List.mem_append.mp hkey with hkey | hkey
    · exact hkeep key hkey
    · split_ifs at hkey with hchunk
      · rw [Option.mem_toList] at hkey
        obtain ⟨cursor, hget, -, hmarked⟩ := unused_of_chunk hkey hchunk
        refine ⟨_, hmarked ?_, rfl⟩
        rintro rfl
        rw [hfresh] at hget
        cases hget
      · cases hkey
  · refine List.nodup_append.mpr ⟨h.nodup, ?_, ?_⟩
    · split_ifs
      · cases call.before with
        | none => exact List.nodup_nil
        | some key => exact List.nodup_singleton key
      · exact List.nodup_nil
    · rintro key hkey key' hkey' rfl
      split_ifs at hkey' with hchunk
      · rw [Option.mem_toList] at hkey'
        obtain ⟨cursor, hget, hunused, -⟩ := unused_of_chunk hkey' hchunk
        obtain ⟨cursor', hget', hused⟩ := h.served key hkey
        cases hget.symm.trans hget'
        rw [hunused] at hused
        cases hused
      · cases hkey'
  · intro key hkey hnone
    rcases @get?_sync (session.manager rules text) pager call key hkey with
      hsame | ⟨-, cursor, hget, -⟩
    · exact hsame.trans hnone
    · rw [hnone] at hget
      cases hget

/-- Every run keeps the invariant. -/
theorem PagerInv.run {requests : List SessionCall} {pager pager' : Pager} {log log' : List String}
    (h : PagerInv store pager log) (hrecorded : ∀ r ∈ requests, r.session.Recorded store)
    (htokens : (requests.map fun r => r.call.token.text).Nodup)
    (hfresh : ∀ r ∈ requests, pager.cursors.get? r.call.token.text = none)
    (hrun : Lib.run (logged (Timeline.respond rules text)) (pager, log) requests =
      some (pager', log')) : PagerInv store pager' log' := by
  induction requests generalizing pager log with
  | nil =>
    cases hrun
    exact h
  | cons request requests ih =>
    obtain ⟨⟨pager₁, log₁⟩, hstep, hrest⟩ := run_cons_eq_some.mp hrun
    obtain ⟨happened, hstep, rfl⟩ := logged_eq_some.mp hstep
    rw [List.map_cons, List.nodup_cons] at htokens
    obtain ⟨hinv, hkept⟩ := h.respond (hrecorded request List.mem_cons_self)
      (hfresh request List.mem_cons_self) hstep
    refine ih hinv (fun r hr => hrecorded r (List.mem_cons_of_mem _ hr)) htokens.2
      (fun r hr => ?_) hrest
    refine hkept _ ?_ (hfresh r (List.mem_cons_of_mem _ hr))
    rintro heq
    exact htokens.1 (heq ▸ List.mem_map_of_mem hr)

end Runs

/-! ## Isolation -/

section Isolation

variable {rules : HostRules} {text : EventText} {store : String → String → SessionEntry}
  {base extended : Session} {appended : List SessionEntry} {pager : Pager} {cursor : CursorState}
  {call : SyncCall} {key : String}

theorem recoveredMessages_subset (hext : extended.Extends base appended)
    {found : SessionEntry × MessageRecord × Marker}
    (h : found ∈ recoveredMessages extended.scope.sessionId base.branch) :
    found ∈ recoveredMessages extended.scope.sessionId extended.branch := by
  obtain ⟨across, hclaimed, -⟩ := claimed_append base.branch appended
  obtain ⟨later, hunclaimed, -⟩ := @unclaimed_append extended.scope.sessionId base.branch appended
    (hext.branch ▸ extended.ids_nodup)
  rw [hext.branch, recoveredMessages, hclaimed, hunclaimed]
  rcases List.mem_append.mp h with h | h
  · exact List.mem_append_left _ (List.mem_append_left _ (List.mem_append_left _ h))
  · exact List.mem_append_right _ (List.mem_append_left _ h)

/-- A valid cursor that has not been used is answered by its page. -/
theorem sync_eq_page {m : SessionManager} (hget : pager.cursors.get? key = some cursor)
    (hidle : cursor.busy = false) (hunused : cursor.used = false)
    (hbefore : call.before = some key) (hvalid : snapshotInvalidReason m cursor = none) :
    call.sync m pager = page (fun _ => call.token.text) m (pager.use key cursor)
      (call.request.withBefore call.before) cursor := by
  have hreasons := hvalid
  unfold snapshotInvalidReason at hreasons
  dsimp only at hreasons
  simp only [ite_some_eq_none] at hreasons
  obtain ⟨hsession, hgeneration, -⟩ := hreasons
  unfold SyncCall.sync
  simp only [sync, PageRequest.withBefore, hbefore, hget]
  rw [if_neg (by rw [hidle]; exact Bool.false_ne_true),
    if_neg (by rw [hunused]; exact Bool.false_ne_true), if_neg (fun h => hsession (Ne.symm h)),
    if_neg (fun h => hgeneration (Ne.symm h))]
  simp only [hvalid]
  rfl

/-- The page of an issued cursor is what it was before the appends exactly when recovery does
    not throw because of them. -/
theorem sync_extended_iff (hissued : Issued store cursor)
    (hget : pager.cursors.get? key = some cursor) (hunused : cursor.used = false)
    (hbefore : call.before = some key) (hext : extended.Extends base appended)
    (hrecorded : extended.Recorded store)
    (hvalid : snapshotInvalidReason (base.manager rules text) cursor = none) :
    (call.sync (extended.manager rules text) pager).2 =
        (call.sync (base.manager rules text) pager).2 ↔
      ((base.manager rules text).recovered.isSome = true →
        (extended.manager rules text).recovered.isSome = true) := by
  obtain ⟨snapshot, hsnap, hentry⟩ := hissued.snapshotOf (hrecorded.of_extends hext) hvalid
  have hsnap' := hsnap.extend hext
  have hvalid' : snapshotInvalidReason (extended.manager rules text) cursor = none := hsnap'.valid
  rw [sync_eq_page hget hissued.idle hunused hbefore hvalid,
    sync_eq_page hget hissued.idle hunused hbefore hvalid']
  cases hbase : (base.manager rules text).recovered with
  | none =>
    have hr : recoverRecords (base.manager rules text) cursor = none := by
      rw [hsnap.recoverRecords, hbase]
      rfl
    -- a message that does not fit is still there after the appends
    have hr' : recoverRecords (extended.manager rules text) cursor = none := by
      rw [hsnap'.recoverRecords, Option.map_eq_none_iff, ← Option.not_isSome_iff_eq_none,
        recovered_isSome, recover_isSome_iff]
      intro hall
      have hnone : (recover rules base.scope base.branch).isSome = true := by
        rw [recover_isSome_iff]
        intro found hfound
        rw [← hext.scope] at hfound ⊢
        exact hall found (recoveredMessages_subset hext hfound)
      rw [← @recovered_isSome rules text base, hbase] at hnone
      cases hnone
    rw [page_of_not_recovered hvalid hr, page_of_not_recovered hvalid' hr']
    simp
  | some recovered =>
    have hr := @SnapshotOf.recoverRecords rules text base snapshot cursor hsnap
    rw [hbase, Option.map_some] at hr
    cases hextended : (extended.manager rules text).recovered with
    | none =>
      have hr' : recoverRecords (extended.manager rules text) cursor = none := by
        rw [hsnap'.recoverRecords, hextended]
        rfl
      rw [page_of_not_recovered hvalid' hr']
      have hne := @page_ne_internalError (fun _ => call.token.text) _ (pager.use key cursor)
        (call.request.withBefore call.before) cursor _ hvalid hr
      exact iff_of_false (fun h => hne h.symm) (by simp)
    | some recovered' =>
      have hr' := @SnapshotOf.recoverRecords rules text extended snapshot cursor hsnap'
      rw [hextended, Option.map_some] at hr'
      have hsame := (sameRecords_of_extends hext hrecorded.ids hsnap hentry hbase
        hextended).mergeSort
      rw [page_of_sameRecords hvalid hvalid' hr hr' hsame]
      simp

end Isolation

/-- After every run of requests of a session that may change between them, each token has
    been served at most one page; and when the branch of the session grows, the page of an
    unused cursor is the one without the appended entries exactly when they bring no message
    that does not fit the schema. -/
theorem cursor_isolated (rules : HostRules) (text : EventText)
    (store : String → String → SessionEntry) (requests : List SessionCall) (pager : Pager)
    (log : List String)
    (hrun : run (logged (respond rules text)) (.initial, []) requests = some (pager, log))
    (hrecorded : ∀ r ∈ requests, r.session.Recorded store)
    (htokens : (requests.map fun r => r.call.token.text).Nodup) :
    log.Nodup ∧
      ∀ (base extended : Session) (appended : List SessionEntry) (key : String)
        (cursor : CursorState) (call : SyncCall),
        pager.cursors.get? key = some cursor → cursor.used = false → call.before = some key →
        extended.Extends base appended → extended.Recorded store →
        snapshotInvalidReason (base.manager rules text) cursor = none →
          ((call.sync (extended.manager rules text) pager).2 =
              (call.sync (base.manager rules text) pager).2 ↔
            ((∀ found ∈ recoveredMessages base.scope.sessionId base.branch,
                MessageFits rules base.scope found) →
              ∀ found ∈ recoveredMessages extended.scope.sessionId extended.branch,
                MessageFits rules extended.scope found)) := by
  have hinv := pagerInv_initial.run hrecorded htokens (fun r _ => rfl) hrun
  refine ⟨hinv.nodup, ?_⟩
  intro base extended appended key cursor call hget hunused hbefore hext hextended hvalid
  rw [sync_extended_iff (hinv.issued key cursor hget) hget hunused hbefore hext hextended hvalid,
    recovered_isSome, recovered_isSome, recover_isSome_iff, recover_isSome_iff]

/-! ## A session of two groups -/

def markerEntry : SessionEntry where
  id := "marker"
  timestamp := ""
  content := .custom timelineMarker (.object
    [("version", .number 2), ("event_id", .string "event"), ("group_id", .string "group"),
      ("kind", .string "user"), ("origin", .string "unknown"), ("delivery", .string "unknown")])

/-- A message without a marker, and one with a marker. -/
def twoGroups : Session where
  scope := ⟨"session", "session"⟩
  branch := [userEntry "first", markerEntry, userEntry "second"]
  otherBranch _ := []
  ids_nodup := by decide
  otherBranch_sessionId := no_other_branch "session"

/-- The session when a text has been appended. -/
def withText : Session :=
  { twoGroups with
    branch := twoGroups.branch ++ [userEntry "third"]
    ids_nodup := by decide }

/-- The session when the result of a tool with an empty name has been appended. -/
def withNamelessTool : Session :=
  { twoGroups with
    branch := twoGroups.branch ++ namelessTool.branch
    ids_nodup := by decide }

/-- A request for one group. -/
def oneGroup (before : Option String) : SyncCall :=
  ⟨{ (default : PageRequest) with limit := some 1 }, before, default⟩

/-- The first request of `twoGroups`. -/
def firstRequest : SessionCall := ⟨twoGroups, oneGroup none⟩

def storeOf (session : Session) (_ id : String) : SessionEntry :=
  (session.branch.find? fun entry => entry.id = id).getD markerEntry

def firstRecord : EventRecord where
  event := ⟨"legacy:first", .user, "legacy:session", [braceByte], by decide, brace_ne_nil⟩
  position := 0
  order := 1
  bytes := 1

def secondRecord : EventRecord where
  event := ⟨"event", .user, "group", [braceByte], by decide, brace_ne_nil⟩
  position := 1
  order := 0
  bytes := 1

theorem recordsBefore_twoGroups :
    (twoGroups.manager stoppedHost shortText).recordsBefore 3 = [firstRecord, secondRecord] := by
  have hsnap : SnapshotOf twoGroups
      ((twoGroups.manager stoppedHost shortText).cursorAt 3 true true) twoGroups.branch :=
    ⟨rfl, rfl, List.prefix_refl _, rfl, rfl⟩
  have hrecovered : (twoGroups.manager stoppedHost shortText).recovered =
      some [secondRecord.event, firstRecord.event] := by decide
  have hrecords : [secondRecord.event, firstRecord.event].zipIdx.filterMap (toRecord
      (branchPositions (twoGroups.branch.map SessionEntry.branchEntry)) 3) =
      [secondRecord, firstRecord] := by decide
  have hsorted : [secondRecord, firstRecord].mergeSort recordLe = [firstRecord, secondRecord] :=
    mergeSort_eq_of_perm (List.Perm.swap _ _ _) (by decide) (by decide)
  have hposition : ((twoGroups.manager stoppedHost shortText).cursorAt 3 true true).position = 3 :=
    rfl
  unfold SessionManager.recordsBefore
  rw [hsnap.recoverRecords, hrecovered, Option.map_some, Option.getD_some, hposition, hrecords,
    hsorted]

theorem selectWindow_twoGroups :
    selectWindow [firstRecord, secondRecord] 3 (some 1) = .ok ⟨[secondRecord], 1⟩ := by
  have hgroups : (groupsOf [firstRecord, secondRecord]).values.filter
      (fun g => g.firstPosition < 3) =
      [⟨"legacy:session", 0, [firstRecord], 1⟩, ⟨"group", 1, [secondRecord], 1⟩] := by
    decide
  have hordered : orderedGroups [firstRecord, secondRecord] 3 =
      [⟨"legacy:session", 0, [firstRecord], 1⟩, ⟨"group", 1, [secondRecord], 1⟩] := by
    rw [orderedGroups, hgroups]
    exact List.mergeSort_of_pairwise (by decide)
  have hselected : selectedRecords (systems [firstRecord, secondRecord]) 3 1
      [⟨"group", 1, [secondRecord], 1⟩] = [secondRecord] :=
    List.mergeSort_singleton secondRecord
  unfold selectWindow
  dsimp only
  rw [hordered]
  show shrink _ 3 [⟨"group", 1, [secondRecord], 1⟩] = _
  rw [shrink, hselected, if_pos (by decide)]

/-- The first request of `twoGroups` issues a cursor. -/
theorem cursor_of_twoGroups :
    ((oneGroup none).sync (twoGroups.manager stoppedHost shortText) .initial).1.cursors.get?
        (default : CursorToken).text =
      some ((twoGroups.manager stoppedHost shortText).cursorAt 1 false false) := by
  have hm := @settled_manager stoppedHost shortText twoGroups
  have hr : (twoGroups.manager stoppedHost shortText).recovered.isSome = true := by decide
  have hwindow : selectWindow ((twoGroups.manager stoppedHost shortText).recordsBefore 3) 3
      (some 1) = .ok ⟨[secondRecord], 1⟩ := by
    rw [recordsBefore_twoGroups, selectWindow_twoGroups]
  have holder : (twoGroups.manager stoppedHost shortText).older 3 ⟨[secondRecord], 1⟩ =
      [firstRecord] := by
    rw [SessionManager.older, recordsBefore_twoGroups]
    decide
  obtain ⟨chunks, hchunks⟩ : ∃ chunks, fragmentWindow
      ((twoGroups.manager stoppedHost shortText).header default) [secondRecord.event]
        (some (default : CursorToken).text) = .ok chunks := by
    have hsome : (fragmentWindow ((twoGroups.manager stoppedHost shortText).header default)
        [secondRecord.event] (some (default : CursorToken).text)).toOption.isSome = true := by
      decide
    cases hpacked : fragmentWindow ((twoGroups.manager stoppedHost shortText).header default)
        [secondRecord.event] (some (default : CursorToken).text) with
    | ok chunks => exact ⟨chunks, rfl⟩
    | error message =>
      rw [hpacked] at hsome
      cases hsome
  obtain ⟨pager', used, busy, hsync, -⟩ :=
    @sync_of_startsAt _ 3 (oneGroup none) .initial hm rfl rfl
  have hpage := @page_of_chunks (twoGroups.manager stoppedHost shortText) 3 used busy
    { (default : PageRequest) with limit := some 1 } none default pager' _ chunks hm hr hwindow
      (by rw [holder]; exact hchunks)
  rw [hsync]
  show (page (fun _ => (default : CursorToken).text) _ pager' _ _).1.cursors.get? _ = _
  refine (congrArg (fun answer : Pager × List ServerFrame =>
    answer.1.cursors.get? (default : CursorToken).text) hpage).trans ?_
  dsimp only
  rw [holder, if_neg (List.cons_ne_nil _ _)]
  exact OrderedMap.get?_set_self _ _ _

theorem recorded_withText : withText.Recorded (storeOf withText) := by
  refine ⟨?_, by decide⟩
  intro entry hentry
  rw [show withText.branch = [userEntry "first", markerEntry, userEntry "second",
    userEntry "third"] from rfl] at hentry
  simp only [List.mem_cons, List.not_mem_nil, or_false] at hentry
  rcases hentry with rfl | rfl | rfl | rfl <;> rfl

theorem recorded_withNamelessTool : withNamelessTool.Recorded (storeOf withNamelessTool) := by
  refine ⟨?_, by decide⟩
  intro entry hentry
  rw [show withNamelessTool.branch = [userEntry "first", markerEntry, userEntry "second"] ++
    namelessTool.branch from rfl] at hentry
  simp only [namelessTool, List.mem_append, List.mem_cons, List.not_mem_nil, or_false] at hentry
  rcases hentry with (rfl | rfl | rfl) | rfl <;> rfl

theorem run_firstRequest :
    run (logged (respond stoppedHost shortText)) (.initial, []) [firstRequest] =
      some (((oneGroup none).sync (twoGroups.manager stoppedHost shortText) .initial).1, []) := by
  rw [run_cons, logged, respond_eq]
  show (some (((oneGroup none).sync (twoGroups.manager stoppedHost shortText) .initial).1,
    [] ++ if _ then [] else []) : Option (Pager × List String)).bind _ = _
  rw [ite_self]
  rfl

theorem valid_cursor_of_twoGroups : snapshotInvalidReason
    (twoGroups.manager stoppedHost shortText)
      ((twoGroups.manager stoppedHost shortText).cursorAt 1 false false) = none :=
  (settled_manager twoGroups).snapshotInvalidReason 1 false false

/-- When a text is appended to `twoGroups`, the page of its cursor stays. -/
theorem cursor_isolated_from_text :
    ((oneGroup (some (default : CursorToken).text)).sync
        (withText.manager stoppedHost shortText)
        ((oneGroup none).sync (twoGroups.manager stoppedHost shortText) .initial).1).2 =
      ((oneGroup (some (default : CursorToken).text)).sync
        (twoGroups.manager stoppedHost shortText)
        ((oneGroup none).sync (twoGroups.manager stoppedHost shortText) .initial).1).2 := by
  have hext : withText.Extends twoGroups [userEntry "third"] := ⟨rfl, rfl⟩
  have hisolated := (cursor_isolated stoppedHost shortText (storeOf withText) [firstRequest] _ []
    run_firstRequest (by simpa [firstRequest] using recorded_withText.of_extends hext)
    (List.nodup_singleton _)).2 twoGroups withText [userEntry "third"] _ _
      (oneGroup (some (default : CursorToken).text)) cursor_of_twoGroups rfl rfl hext
      recorded_withText valid_cursor_of_twoGroups
  refine hisolated.mpr fun _ => ?_
  rw [← recover_isSome_iff]
  decide

/-- When the result of a tool with an empty name is appended, the cursor that was issued
    before has no page any more. -/
theorem page_lost_to_nameless_tool :
    run (logged (respond stoppedHost shortText)) (.initial, []) [firstRequest] =
        some (((oneGroup none).sync (twoGroups.manager stoppedHost shortText) .initial).1, []) ∧
      twoGroups.Recorded (storeOf withNamelessTool) ∧
      withNamelessTool.Recorded (storeOf withNamelessTool) ∧
      withNamelessTool.Extends twoGroups namelessTool.branch ∧
      ((oneGroup none).sync (twoGroups.manager stoppedHost shortText) .initial).1.cursors.get?
          (default : CursorToken).text =
        some ((twoGroups.manager stoppedHost shortText).cursorAt 1 false false) ∧
      snapshotInvalidReason (twoGroups.manager stoppedHost shortText)
        ((twoGroups.manager stoppedHost shortText).cursorAt 1 false false) = none ∧
      ((oneGroup (some (default : CursorToken).text)).sync
          (withNamelessTool.manager stoppedHost shortText)
          ((oneGroup none).sync (twoGroups.manager stoppedHost shortText) .initial).1).2 ≠
        ((oneGroup (some (default : CursorToken).text)).sync
          (twoGroups.manager stoppedHost shortText)
          ((oneGroup none).sync (twoGroups.manager stoppedHost shortText) .initial).1).2 := by
  have hext : withNamelessTool.Extends twoGroups namelessTool.branch := ⟨rfl, rfl⟩
  have hbase := recorded_withNamelessTool.of_extends hext
  refine ⟨run_firstRequest, hbase, recorded_withNamelessTool, hext, cursor_of_twoGroups,
    valid_cursor_of_twoGroups, ?_⟩
  have hinv : PagerInv (storeOf withNamelessTool) _ [] :=
    @PagerInv.run stoppedHost shortText _ [firstRequest] _ _ _ _ pagerInv_initial
      (by simpa [firstRequest] using hbase) (List.nodup_singleton _) (fun r _ => rfl)
      run_firstRequest
  intro hsame
  have hrecovered := (sync_extended_iff (hinv.issued _ _ cursor_of_twoGroups) cursor_of_twoGroups
    rfl rfl hext recorded_withNamelessTool valid_cursor_of_twoGroups).mp hsame (by decide)
  exact absurd hrecovered (by decide)

end RemotePi.Timeline
