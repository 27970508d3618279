import RemotePi.Lib.Trace
import RemotePi.Timeline.HistoryPaging
import RemotePi.Timeline.PageWindows
import RemotePi.Timeline.Recovery

/-!
# When the history of a session is available

The requests that clients make of one pager while the session does not change. A
request is accepted when it has no cursor or one that has not been used.

Results:
* `reached_positions`: which cursors a pager holds after any requests.
* `available_iff`: every accepted request is answered by chunks exactly when every
  message fits the schema, the ids of the session do, and the records before every
  position that a page starts from keep the limits of windows and frames.
* `nameless_tool_not_available`: a tool result with an empty name takes the history away.
-/

namespace RemotePi.Timeline

open RemotePi.Lib RemotePi.Protocol

/-! ## Requests of a run -/

/-- A request with the token that is drawn if the answer issues a cursor. -/
structure SyncCall where
  request : PageRequest
  before : Option String
  token : CursorToken

def SyncCall.sync (call : SyncCall) (manager : SessionManager) (pager : Pager) :
    Pager × List ServerFrame :=
  Timeline.sync (fun _ => call.token.text) manager pager (call.request.withBefore call.before)

/-- The pager after a request to a session that does not change. -/
def serve (manager : SessionManager) (pager : Pager) (call : SyncCall) : Option Pager :=
  some (call.sync manager pager).1

/-- The cursor of the request, if it has one, can be used. -/
def Pager.Accepts (pager : Pager) : Option String → Prop
  | none => True
  | some before => ∃ cursor, pager.cursors.get? before = some cursor ∧ cursor.used = false

/-- An answer of chunks, and of nothing else. -/
def IsPage (frames : List ServerFrame) : Prop :=
  ∃ chunks : List HistoryChunk, chunks ≠ [] ∧ frames = chunks.map .historyChunk

/-- Recovery returns, and every accepted request of every run is answered by chunks. -/
def Available (rules : HostRules) (text : EventText) (session : Session) : Prop :=
  (recover rules session.scope session.branch).isSome = true ∧
    ∀ (calls : List SyncCall) (pager : Pager) (call : SyncCall),
      run (serve (session.manager rules text)) .initial calls = some pager →
        pager.Accepts call.before → IsPage (call.sync (session.manager rules text) pager).2

/-! ## Pages by position -/

namespace SessionManager

variable (m : SessionManager)

/-- The records that are recovered before a position. -/
def recordsBefore (p : ℕ) : List EventRecord :=
  (recoverRecords m (m.cursorAt p true true)).getD []

def header (request : PageRequest) : ChunkHeader where
  targetChannelId := request.targetChannelId
  requestId := request.requestId
  sessionId := m.sessionId
  historyGeneration := m.historyGeneration
  snapshotHead := m.head

/-- The records before a position that a window leaves for the next page. -/
def older (p : ℕ) (window : Window) : List EventRecord :=
  (m.recordsBefore p).filter fun r => r.position < window.nextPosition

/-- The positions that a page can start from: the end of the branch, and where a window
    with older records ends. -/
inductive IsPagePosition : ℕ → Prop
  | newest : IsPagePosition m.branch.length
  | older {p : ℕ} {window : Window} (h : IsPagePosition p)
      (hwindow : IsPageWindow (m.recordsBefore p) window) (holder : m.older p window ≠ []) :
      IsPagePosition window.nextPosition

/-- The newest group before a position keeps the limit of a window, and the items of every
    window, cut into full frames, keep the limits of frames. -/
structure PageFits (p : ℕ) : Prop where
  newest : NewestWithin (m.recordsBefore p)
  frames : ∀ (request : PageRequest) (token : CursorToken) (window : Window),
    IsPageWindow (m.recordsBefore p) window →
      PacksFit (m.header request) (window.records.map EventRecord.event)
        (nextToken (m.older p window) token)

/-- The ids of the session that every frame names meet the schema `id`. -/
structure IdsFit : Prop where
  sessionId : validId m.sessionId = true
  historyGeneration : validId m.historyGeneration = true
  head : validId m.head = true

end SessionManager

section Pages

variable {m : SessionManager} {p : ℕ} {used busy : Bool} {request : PageRequest}
  {before : Option String} {token : CursorToken} {pager : Pager}

theorem recoverRecords_cursorAt (h : m.recovered.isSome = true) :
    recoverRecords m (m.cursorAt p used busy) = some (m.recordsBefore p) := by
  have hsame : recoverRecords m (m.cursorAt p used busy) =
      recoverRecords m (m.cursorAt p true true) := rfl
  obtain ⟨recovered, hrecovered⟩ := Option.isSome_iff_exists.mp h
  unfold SessionManager.recordsBefore
  rw [hsame]
  unfold recoverRecords
  rw [hrecovered]
  split_ifs <;> rfl

/-- What is recovered before a cursor is sorted. -/
theorem sortedBefore_of_recoverRecords {cursor : CursorState} {records : List EventRecord}
    (h : recoverRecords m cursor = some records) : SortedBefore records cursor.position := by
  rw [recoverRecords] at h
  split_ifs at h with hempty
  · obtain rfl := Option.some.inj h
    exact ⟨List.Pairwise.nil, List.nodup_nil, by rintro _ ⟨⟩⟩
  · cases hrecovered : m.recovered with
    | none =>
      rw [hrecovered] at h
      cases h
    | some recovered =>
      rw [hrecovered] at h
      obtain rfl := Option.some.inj h
      refine ⟨List.pairwise_mergeSort recordLe_trans recordLe_total _, ?_, fun r hr => ?_⟩
      · refine ((List.mergeSort_perm _ recordLe).map EventRecord.order).nodup_iff.mpr ?_
        refine List.Nodup.sublist
          (FrozenSession.map_order_filterMap _ _ recovered.zipIdx).1 ?_
        rw [List.zipIdx_map_snd]
        exact List.nodup_range'
      · obtain ⟨indexed, -, hindexed⟩ := List.mem_filterMap.mp (List.mem_mergeSort.mp hr)
        exact (toRecord_eq_some.mp hindexed).2.1

/-- The records before a position, as the windows are told from. -/
theorem sortedBefore (p : ℕ) : SortedBefore (m.recordsBefore p) p := by
  unfold SessionManager.recordsBefore
  cases hrecords : recoverRecords m (m.cursorAt p true true) with
  | none => exact ⟨List.Pairwise.nil, List.nodup_nil, by rintro _ ⟨⟩⟩
  | some records => exact sortedBefore_of_recoverRecords hrecords

theorem bytes_of_recordsBefore : ∀ r ∈ m.recordsBefore p, r.bytes = r.event.bytes := by
  unfold SessionManager.recordsBefore
  cases hrecords : recoverRecords m (m.cursorAt p true true) with
  | none => rintro _ ⟨⟩
  | some records => exact bytes_of_recoverRecords hrecords

theorem SessionManager.IdsFit.header (h : m.IdsFit) (request : PageRequest) : (m.header request).Valid :=
  ⟨request.targetChannelId_valid, request.requestId_valid, h.sessionId, h.historyGeneration, h.head⟩

/-- The frames of a window are built when its records keep the limits of frames. -/
theorem fragmentWindow_window {window : Window} (hids : m.IdsFit)
    (hwindow : IsPageWindow (m.recordsBefore p) window) :
    (∃ chunks, fragmentWindow (m.header request) (window.records.map EventRecord.event)
        (nextToken (m.older p window) token) = .ok chunks) ↔
      PacksFit (m.header request) (window.records.map EventRecord.event)
        (nextToken (m.older p window) token) := by
  refine fragmentWindow_isOk_iff (hids.header request) nextToken_valid ?_
  have hmeasured : (window.records.map EventRecord.event).map TimelineEvent.bytes =
      window.records.map EventRecord.bytes := by
    rw [List.map_map]
    refine List.map_congr_left fun r hr => ?_
    exact (bytes_of_recordsBefore r (hwindow.subset r hr)).symm
  rw [hmeasured]
  exact hwindow.bytes_le

/-- The cursor of a next page. -/
def issue (pager : Pager) (token : CursorToken) (cursor : CursorState) : Pager :=
  { pager with cursors := pager.cursors.set token.text cursor, issued := pager.issued + 1 }

theorem any_older {window : Window} :
    ((m.recordsBefore p).any fun r => r.position < window.nextPosition) =
      !(m.older p window).isEmpty := by
  unfold SessionManager.older
  rw [Bool.eq_iff_iff]
  simp [List.any_eq_true, List.filter_eq_nil_iff]

/-- What a page answers, when its window is found and packed. -/
theorem page_of_chunks {window : Window} {chunks : List HistoryChunk} (hm : m.Settled)
    (hr : m.recovered.isSome = true)
    (hwindow : selectWindow (m.recordsBefore p) p request.limit = .ok window)
    (hchunks : fragmentWindow (m.header request) (window.records.map EventRecord.event)
      (nextToken (m.older p window) token) = .ok chunks) :
    page (fun _ => token.text) m pager (request.withBefore before) (m.cursorAt p used busy) =
      (if m.older p window = [] then pager
        else issue pager token (m.cursorAt window.nextPosition false false),
        chunks.map .historyChunk) := by
  have hheader : chunkHeader (request.withBefore before) (m.cursorAt p used busy) =
      m.header request := rfl
  have hlimit : (request.withBefore before).limit = request.limit := rfl
  have hposition : (m.cursorAt p used busy).position = p := rfl
  unfold page
  simp only [hm.snapshotInvalidReason, recoverRecords_cursorAt hr, hheader, hlimit, hposition,
    hwindow, any_older]
  unfold nextToken at hchunks
  by_cases holder : m.older p window = []
  · rw [holder] at hchunks ⊢
    simp only [List.isEmpty_nil, if_true] at hchunks
    simp [hchunks]
  · have hempty : (m.older p window).isEmpty = false := by simpa using holder
    rw [hempty] at hchunks ⊢
    simp only [Bool.false_eq_true, if_false] at hchunks
    simp [hchunks, holder, issue, SessionManager.cursorAt]

/-- A page that answers by chunks has found and packed its window. -/
theorem chunks_of_page (hm : m.Settled) (hr : m.recovered.isSome = true)
    (h : IsPage (page (fun _ => token.text) m pager (request.withBefore before)
      (m.cursorAt p used busy)).2) :
    ∃ window chunks, selectWindow (m.recordsBefore p) p request.limit = .ok window ∧
      fragmentWindow (m.header request) (window.records.map EventRecord.event)
        (nextToken (m.older p window) token) = .ok chunks := by
  have hheader : chunkHeader (request.withBefore before) (m.cursorAt p used busy) =
      m.header request := rfl
  have hlimit : (request.withBefore before).limit = request.limit := rfl
  have hposition : (m.cursorAt p used busy).position = p := rfl
  have herror : ∀ code message, ¬ IsPage [protocolError (request.withBefore before) code message] := by
    rintro code message ⟨chunks, hne, heq⟩
    cases chunks with
    | nil => exact hne rfl
    | cons chunk chunks => cases heq
  unfold page at h
  simp only [hm.snapshotInvalidReason, recoverRecords_cursorAt hr, hheader, hlimit, hposition,
    any_older] at h
  cases hwindow : selectWindow (m.recordsBefore p) p request.limit with
  | error message =>
    rw [hwindow] at h
    exact absurd h (herror _ _)
  | ok window =>
    rw [hwindow] at h
    dsimp only at h
    refine ⟨window, ?_⟩
    have hnext : (if (!(m.older p window).isEmpty) = true then some token.text else none) =
        nextToken (m.older p window) token := by
      unfold nextToken
      cases (m.older p window).isEmpty <;> rfl
    rw [hnext] at h
    cases hchunks : fragmentWindow (m.header request) (window.records.map EventRecord.event)
        (nextToken (m.older p window) token) with
    | ok chunks => exact ⟨chunks, rfl, rfl⟩
    | error message =>
      rw [hchunks] at h
      exact absurd h (herror _ _)

end Pages

/-! ## Requests by position -/

/-- A pager that is only asked for a session that does not change holds cursors of that
    session, at positions that a page can start from. -/
structure Serves (m : SessionManager) (pager : Pager) : Prop where
  idle : pager.initialBusy = false
  cursors : ∀ key cursor, pager.cursors.get? key = some cursor →
    ∃ p used, cursor = m.cursorAt p used false ∧ m.IsPagePosition p

/-- The page of an accepted request starts from the position. -/
def StartsAt (m : SessionManager) (pager : Pager) (before : Option String) (p : ℕ) : Prop :=
  match before with
  | none => p = m.branch.length
  | some key => pager.cursors.get? key = some (m.cursorAt p false false)

section Calls

variable {m : SessionManager} {p : ℕ} {call : SyncCall} {pager : Pager}

theorem serves_initial : Serves m .initial := by
  refine ⟨rfl, ?_⟩
  intro key cursor hget
  cases hget

theorem page_initialBusy (token : ℕ → String) (request : HistorySyncRequest)
    (cursor : CursorState) :
    (page token m pager request cursor).1.initialBusy = pager.initialBusy := by
  unfold page
  split
  · rfl
  · split
    · rfl
    · split
      · rfl
      · split
        · rfl
        · dsimp only
          split_ifs <;> split <;> rfl

/-- An accepted request is answered by a page from its position. -/
theorem sync_of_startsAt (hm : m.Settled) (hidle : pager.initialBusy = false)
    (h : StartsAt m pager call.before p) :
    ∃ pager' used busy, call.sync m pager =
        ({ (page (fun _ => call.token.text) m pager' (call.request.withBefore call.before)
            (m.cursorAt p used busy)).1 with initialBusy := false },
          (page (fun _ => call.token.text) m pager' (call.request.withBefore call.before)
            (m.cursorAt p used busy)).2) ∧
      (∀ key cursor, pager'.cursors.get? key = some cursor →
        pager.cursors.get? key = some cursor ∨ cursor = m.cursorAt p true false) := by
  obtain ⟨request, before, token⟩ := call
  cases before with
  | none =>
    have hp : p = m.branch.length := h
    subst hp
    refine ⟨{ pager with initialBusy := true }, true, true, ?_, fun key cursor hget => .inl hget⟩
    have hguard : (!m.branch.isEmpty &&
        decide (m.branch.getLast?.map BranchEntry.id ≠ some m.head)) = false := by
      rw [hm.leaf, SessionManager.head]
      cases hleaf : m.leafId with
      | none =>
        have hbranch := hm.leaf
        rw [hleaf, Option.map_eq_none_iff, List.getLast?_eq_none_iff] at hbranch
        simp [hbranch]
      | some leaf => simp
    unfold SyncCall.sync
    simp only [sync, PageRequest.withBefore, hidle, syncInitial]
    rw [show m.leafId.getD m.sessionId = m.head from rfl, hguard]
    rfl
  | some key =>
    have hget : pager.cursors.get? key = some (m.cursorAt p false false) := h
    refine ⟨{ pager with cursors := pager.cursors.set key (m.cursorAt p true false) }, false,
      false, ?_, ?_⟩
    · have hvalid := hm.snapshotInvalidReason p false false
      have hsync : SyncCall.sync ⟨request, some key, token⟩ m pager =
          page (fun _ => token.text) m
            { pager with cursors := pager.cursors.set key (m.cursorAt p true false) }
            (request.withBefore (some key)) (m.cursorAt p false false) := by
        unfold SyncCall.sync
        simp only [sync, PageRequest.withBefore, hget, hvalid]
        simp [SessionManager.cursorAt]
      have hbusy := @page_initialBusy m
        { pager with cursors := pager.cursors.set key (m.cursorAt p true false) }
        (fun _ => token.text) (request.withBefore (some key)) (m.cursorAt p false false)
      rw [hsync]
      generalize page (fun _ => token.text) m
        { pager with cursors := pager.cursors.set key (m.cursorAt p true false) }
        (request.withBefore (some key)) (m.cursorAt p false false) = answer at hbusy
      obtain ⟨⟨cursors, initialBusy, issued⟩, frames⟩ := answer
      have hfalse : initialBusy = false := hbusy.trans hidle
      rw [hfalse]
    · intro key' cursor hget'
      rw [OrderedMap.get?_set] at hget'
      split_ifs at hget'
      · exact .inr (Option.some.inj hget').symm
      · exact .inl hget'

/-- An accepted request of a pager that serves the session has a position. -/
theorem Serves.startsAt (h : Serves m pager) (haccepts : pager.Accepts call.before) :
    ∃ p, m.IsPagePosition p ∧ StartsAt m pager call.before p := by
  cases hbefore : call.before with
  | none => exact ⟨_, .newest, rfl⟩
  | some key =>
    rw [hbefore] at haccepts
    obtain ⟨cursor, hget, hused⟩ := haccepts
    obtain ⟨p, used, rfl, hp⟩ := h.cursors key cursor hget
    have hfalse : used = false := hused
    subst hfalse
    exact ⟨p, hp, hget⟩

/-- A request that is not accepted leaves the pager as it is. -/
theorem sync_of_not_accepts (h : Serves m pager) (hnot : ¬ pager.Accepts call.before) :
    (call.sync m pager).1 = pager := by
  obtain ⟨request, before, token⟩ := call
  cases before with
  | none => exact absurd trivial hnot
  | some key =>
    unfold SyncCall.sync
    simp only [sync, PageRequest.withBefore]
    cases hget : pager.cursors.get? key with
    | none => rfl
    | some cursor =>
      obtain ⟨p, used, rfl, -⟩ := h.cursors key cursor hget
      cases used with
      | true => rfl
      | false => exact absurd ⟨_, hget, rfl⟩ hnot

/-- What an accepted request does, when its page keeps the limits. -/
theorem sync_of_pageFits (hm : m.Settled) (hr : m.recovered.isSome = true) (hids : m.IdsFit)
    (h : Serves m pager) (hp : m.IsPagePosition p) (hstarts : StartsAt m pager call.before p) (hfits : m.PageFits p) :
    Serves m (call.sync m pager).1 ∧ ∃ window chunks,
      selectWindow (m.recordsBefore p) p call.request.limit = .ok window ∧
        fragmentWindow (m.header call.request) (window.records.map EventRecord.event)
          (nextToken (m.older p window) call.token) = .ok chunks ∧
        (call.sync m pager).2 = chunks.map .historyChunk ∧
        (m.older p window ≠ [] → (call.sync m pager).1.cursors.get? call.token.text =
          some (m.cursorAt window.nextPosition false false)) := by
  obtain ⟨window, hwindow⟩ :=
    (selectWindow_isOk_iff_newest (sortedBefore p) call.request.limit).mpr hfits.newest
  have hpage := (selectWindow_ok_iff (sortedBefore p)).mp ⟨_, hwindow⟩
  obtain ⟨chunks, hchunks⟩ :=
    (fragmentWindow_window hids hpage).mpr (hfits.frames call.request call.token window hpage)
  obtain ⟨pager', used, busy, hsync, hold⟩ := sync_of_startsAt hm h.idle hstarts
  rw [hsync, page_of_chunks hm hr hwindow hchunks]
  have hkept : ∀ key cursor, pager'.cursors.get? key = some cursor →
      ∃ q used, cursor = m.cursorAt q used false ∧ m.IsPagePosition q := by
    intro key cursor hget
    rcases hold key cursor hget with hget | rfl
    · exact h.cursors key cursor hget
    · exact ⟨p, true, rfl, hp⟩
  refine ⟨⟨rfl, ?_⟩, window, chunks, hwindow, hchunks, rfl, ?_⟩
  · intro key cursor hget
    by_cases holder : m.older p window = []
    · rw [if_pos holder] at hget
      exact hkept key cursor hget
    · rw [if_neg holder] at hget
      dsimp only [issue] at hget
      rw [OrderedMap.get?_set] at hget
      split_ifs at hget
      · exact ⟨_, false, (Option.some.inj hget).symm, .older hp hpage holder⟩
      · exact hkept key cursor hget
  · intro holder
    rw [if_neg holder]
    exact OrderedMap.get?_set_self _ _ _

/-- Every run of requests keeps the cursors at positions of pages. -/
theorem serves_run (hm : m.Settled) (hr : m.recovered.isSome = true) (hids : m.IdsFit)
    (hfits : ∀ p, m.IsPagePosition p → m.PageFits p) {calls : List SyncCall} {pager' : Pager}
    (h : Serves m pager) (hrun : run (serve m) pager calls = some pager') : Serves m pager' := by
  refine invariant_run ?_ h hrun
  intro pager call pager' h hstep
  cases hstep
  by_cases haccepts : pager.Accepts call.before
  · obtain ⟨p, hp, hstarts⟩ := h.startsAt haccepts
    exact (sync_of_pageFits hm hr hids h hp hstarts (hfits p hp)).1
  · rw [sync_of_not_accepts h haccepts]
    exact h

end Calls

/-! ## When every request is answered -/

/-- Every accepted request of every run is answered by chunks. -/
def AnswersAll (m : SessionManager) : Prop :=
  ∀ (calls : List SyncCall) (pager : Pager) (call : SyncCall),
    run (serve m) .initial calls = some pager → pager.Accepts call.before →
      IsPage (call.sync m pager).2

section Answers

variable {m : SessionManager} {p : ℕ}

/-- What a pager that answers every request does at a position that it has come to. -/
theorem AnswersAll.page (h : AnswersAll m) (hm : m.Settled) (hr : m.recovered.isSome = true)
    {calls : List SyncCall} {pager : Pager} {before : Option String}
    (hrun : run (serve m) .initial calls = some pager) (hidle : pager.initialBusy = false)
    (hstarts : StartsAt m pager before p) (request : PageRequest) (token : CursorToken) :
    ∃ window chunks, selectWindow (m.recordsBefore p) p request.limit = .ok window ∧
      fragmentWindow (m.header request) (window.records.map EventRecord.event)
        (nextToken (m.older p window) token) = .ok chunks := by
  have haccepts : pager.Accepts before := by
    cases before with
    | none => trivial
    | some key => exact ⟨_, hstarts, rfl⟩
  have hanswer := h calls pager ⟨request, before, token⟩ hrun haccepts
  obtain ⟨pager', used, busy, hsync, -⟩ :=
    @sync_of_startsAt m p ⟨request, before, token⟩ pager hm hidle hstarts
  rw [hsync] at hanswer
  exact chunks_of_page hm hr hanswer

/-- The frames of the first page name the ids of the session. -/
theorem AnswersAll.idsFit (h : AnswersAll m) (hm : m.Settled) (hr : m.recovered.isSome = true) :
    m.IdsFit := by
  have hstarts : StartsAt m .initial none m.branch.length := rfl
  obtain ⟨window, chunks, -, hchunks⟩ :=
    h.page hm hr (run_nil Pager.initial) rfl hstarts default default
  have hvalid := header_valid_of_fragmentWindow hchunks
  exact ⟨hvalid.sessionId, hvalid.historyGeneration, hvalid.snapshotHead⟩

theorem AnswersAll.pageFits (h : AnswersAll m) (hm : m.Settled) (hr : m.recovered.isSome = true)
    {calls : List SyncCall} {pager : Pager} {before : Option String}
    (hrun : run (serve m) .initial calls = some pager) (hidle : pager.initialBusy = false)
    (hstarts : StartsAt m pager before p) : m.PageFits p := by
  have hids := h.idsFit hm hr
  have hpage := h.page hm hr hrun hidle hstarts
  refine ⟨?_, ?_⟩
  · obtain ⟨window, chunks, hwindow, -⟩ := hpage default default
    exact (selectWindow_isOk_iff_newest (sortedBefore p) _).mp ⟨window, hwindow⟩
  · intro request token window hwindow
    -- the header does not depend on the limit with which the window is selected
    obtain ⟨limit, hselected⟩ := (selectWindow_ok_iff (sortedBefore p)).mpr hwindow
    obtain ⟨window', chunks, hwindow', hchunks⟩ := hpage { request with limit } token
    cases hselected.symm.trans hwindow'
    exact (fragmentWindow_window hids hwindow).mp ⟨chunks, hchunks⟩

/-- A pager that answers every request comes to every position that a page can start
    from. -/
theorem AnswersAll.reached_positions (h : AnswersAll m) (hm : m.Settled)
    (hr : m.recovered.isSome = true) (hp : m.IsPagePosition p) :
    ∃ calls pager before, run (serve m) .initial calls = some pager ∧ Serves m pager ∧
      StartsAt m pager before p := by
  induction hp with
  | newest => exact ⟨[], .initial, none, rfl, serves_initial, rfl⟩
  | @older p window hp hwindow holder ih =>
    obtain ⟨calls, pager, before, hrun, hserves, hstarts⟩ := ih
    have hfits := h.pageFits hm hr hrun hserves.idle hstarts
    obtain ⟨limit, hselected⟩ := (selectWindow_ok_iff (sortedBefore p)).mpr hwindow
    let call : SyncCall := ⟨{ (default : PageRequest) with limit }, before, default⟩
    obtain ⟨hserves', window', chunks, hwindow', -, -, hissued⟩ :=
      @sync_of_pageFits m p call pager hm hr (h.idsFit hm hr) hserves hp hstarts hfits
    cases hselected.symm.trans hwindow'
    exact ⟨calls ++ [call], _, some call.token.text, run_snoc hrun rfl, hserves', hissued holder⟩

theorem answersAll_iff (hm : m.Settled) (hr : m.recovered.isSome = true) :
    AnswersAll m ↔ m.IdsFit ∧ ∀ p, m.IsPagePosition p → m.PageFits p := by
  constructor
  · intro h
    refine ⟨h.idsFit hm hr, fun p hp => ?_⟩
    obtain ⟨calls, pager, before, hrun, hserves, hstarts⟩ := h.reached_positions hm hr hp
    exact h.pageFits hm hr hrun hserves.idle hstarts
  · rintro ⟨hids, hfits⟩ calls pager call hrun haccepts
    have hserves := serves_run hm hr hids hfits serves_initial hrun
    obtain ⟨p, hp, hstarts⟩ := hserves.startsAt haccepts
    obtain ⟨-, window, chunks, -, hchunks, hanswer, -⟩ :=
      sync_of_pageFits hm hr hids hserves hp hstarts (hfits p hp)
    refine ⟨chunks, ?_, hanswer⟩
    rintro rfl
    have htail := tail_fragmentWindow hchunks
    simp at htail

end Answers

/-- The history of a session is available exactly when the messages that recovery converts
    fit the schema, the ids of the session do, and the records before every position that a
    page starts from keep the limits of windows and frames. -/
theorem available_iff (rules : HostRules) (text : EventText) (session : Session) :
    Available rules text session ↔
      (∀ found ∈ recoveredMessages session.scope.sessionId session.branch,
        MessageFits rules session.scope found) ∧
      (session.manager rules text).IdsFit ∧
      ∀ p, (session.manager rules text).IsPagePosition p →
        (session.manager rules text).PageFits p := by
  rw [← recover_isSome_iff]
  unfold Available
  refine and_congr_right fun hrecover => ?_
  exact answersAll_iff (settled_manager session) (by rw [recovered_isSome]; exact hrecover)

/-! ## A tool without a name -/

/-- A host whose clock stands at 0 and that parses no date. -/
def stoppedHost : HostRules := ⟨fun _ => none, 0, le_refl 0, fun data => data.length⟩

theorem brace_lt : 123 < 256 := by decide

def braceByte : Byte := ⟨123, brace_lt⟩

theorem brace_ne_nil : [braceByte] ≠ [] := List.cons_ne_nil _ _

/-- A text of one byte for every event. -/
def shortText : EventText := ⟨fun _ => [braceByte], fun _ => brace_ne_nil⟩

theorem no_other_branch (id : String) : (fun _ : String => ([] : List SessionEntry)) id = [] := rfl

/-- A user message with a short text. -/
def textRecord : MessageRecord where
  role := .user
  content := .string "text"
  timestamp := none
  stopReason := none
  errorMessage := none
  toolCallId := none
  toolName := none
  isError := false
  args := .undefined
  api := none
  provider := none
  model := none

def userEntry (id : String) : SessionEntry := ⟨id, "", .message (some textRecord)⟩

/-- A session with one tool result, whose tool has the empty name. -/
def namelessTool : Session where
  scope := ⟨"session", "session"⟩
  branch :=
    [{ id := "entry"
       timestamp := ""
       content := .message (some
        { role := .toolResult
          content := .string "done"
          timestamp := none
          stopReason := none
          errorMessage := none
          toolCallId := none
          toolName := some ""
          isError := false
          args := .undefined
          api := none
          provider := none
          model := none }) }]
  otherBranch _ := []
  ids_nodup := by decide
  otherBranch_sessionId := no_other_branch "session"

/-- Recovery throws for the session of the tool result, and the first request for its
    history is answered by `internal_error`. -/
theorem nameless_tool_not_available :
    ¬ Available stoppedHost shortText namelessTool ∧
      recover stoppedHost namelessTool.scope namelessTool.branch = none ∧
      (SyncCall.sync ⟨default, none, default⟩ (namelessTool.manager stoppedHost shortText)
        .initial).2 = [protocolError ((default : PageRequest).withBefore none) .internalError
          "history recovery failed"] := by
  have hrecover : recover stoppedHost namelessTool.scope namelessTool.branch = none := by
    decide +kernel
  refine ⟨?_, hrecover, by decide +kernel⟩
  intro h
  have hsome := h.1
  rw [hrecover] at hsome
  exact absurd hsome (by decide)

end RemotePi.Timeline
