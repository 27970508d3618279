import RemotePi.Pwa.StreamDisplay

/-!
# Draining the display buffer

What the ticks of `StreamDisplayBuffer` (`pwa/src/lib/pwa/stream-display-buffer.ts`) do
to the text that is not shown yet, and when the display is in line with the streams.

Results:
* `held_run`: in every run the streams are sound and follow the item list, and a display
  that is not in line with them has text to show.
* `display_drains`: one tick shows at most 64 graphemes of a stream and some of each that
  has a backlog, and ticks alone show all text.
-/

namespace RemotePi.Pwa

open RemotePi.Lib

/-! ## Items of equal content -/

namespace TimelineViewItem

/-- `sameItem` (lines 88–101). -/
def sameItem : TimelineViewItem → TimelineViewItem → Prop
  | event ref e, event ref' e' => ref = ref' ∧ e = e'
  | pending images p, pending images' p' =>
    p.clientRequestId = p'.clientRequestId ∧ p.delivery = p'.delivery ∧ p.text = p'.text ∧
      p.createdAt = p'.createdAt ∧ p.messageId = p'.messageId ∧ p.cancelable = p'.cancelable ∧
      images = images'
  | streaming view, streaming view' =>
    view.shown.partialId = view'.shown.partialId ∧ partialText view.shown = partialText view'.shown
  | _, _ => False

theorem sameItem_refl (item : TimelineViewItem) : item.sameItem item := by
  cases item <;> simp [sameItem]

/-- One of the items is the same as `item`. -/
def Shows (items : List TimelineViewItem) (item : TimelineViewItem) : Prop :=
  ∃ shown ∈ items, item.sameItem shown

theorem shows_of_mem {items : List TimelineViewItem} {item : TimelineViewItem} (h : item ∈ items) :
    Shows items item :=
  ⟨item, h, sameItem_refl item⟩

theorem shows_event {items : List TimelineViewItem} {ref : ℕ} {e : TimelineEvent} :
    Shows items (.event ref e) ↔ .event ref e ∈ items := by
  constructor
  · rintro ⟨shown, hshown, hsame⟩
    cases shown with
    | event ref' e' =>
      obtain ⟨rfl, rfl⟩ := hsame
      exact hshown
    | pending images p => exact hsame.elim
    | streaming view => exact hsame.elim
  · exact shows_of_mem

/-- Whether a pending message is shown depends on the tokens of the items only. -/
theorem shows_pending {items : List TimelineViewItem} {images : ℕ} {p : TimelinePending} :
    Shows items (.pending images p) ↔ .pending p.clientRequestId p.text images p.createdAt
      p.delivery p.cancelable p.messageId ∈ nonStreamTokens items := by
  unfold nonStreamTokens
  rw [List.mem_filterMap]
  constructor
  · rintro ⟨shown, hshown, hsame⟩
    cases shown with
    | event ref e => exact hsame.elim
    | pending images' p' =>
      refine ⟨_, hshown, ?_⟩
      obtain ⟨h1, h2, h3, h4, h5, h6, h7⟩ := hsame
      simp only [token?, h1, h2, h3, h4, h5, h6, h7]
    | streaming view => exact hsame.elim
  · rintro ⟨item, hitem, htoken⟩
    cases item with
    | event ref e => cases htoken
    | pending images' p' =>
      refine ⟨_, hitem, ?_⟩
      simp only [token?, Option.some.injEq, NonStreamToken.pending.injEq] at htoken
      obtain ⟨h1, h2, h3, h4, h5, h6, h7⟩ := htoken
      exact ⟨h1.symm, h5.symm, h2.symm, h4.symm, h7.symm, h6.symm, h3.symm⟩
    | streaming view => cases htoken

end TimelineViewItem

/-! ## One tick of a stream -/

namespace StreamState

variable {rules : TextRules}

/-- The graphemes of a stream that are not shown yet (line 292). -/
def backlog (state : StreamState) : ℕ := state.targetGraphemes.length - state.visibleCount

@[simp] theorem targetGraphemes_advanced (state : StreamState) :
    state.advanced.1.targetGraphemes = state.targetGraphemes := by
  unfold advanced
  split_ifs <;> rfl

@[simp] theorem targetText_advanced (state : StreamState) :
    state.advanced.1.targetText = state.targetText := by
  unfold advanced
  split_ifs <;> rfl

@[simp] theorem seen_advanced (state : StreamState) : state.advanced.1.seen = state.seen := by
  unfold advanced
  split_ifs <;> rfl

@[simp] theorem seen_received (existing : Option StreamState) (view : TimelinePartialView) :
    (received rules existing view).1.seen = true := by
  cases existing with
  | none => rfl
  | some existing =>
    unfold received updated
    dsimp only
    split_ifs <;> rfl

/-- A tick shows between one and 64 more graphemes of a backlog, and none without one. -/
theorem visibleCount_advanced (state : StreamState) :
    ∃ n ≤ min maxReleasePerTick state.backlog, (0 < state.backlog → 0 < n) ∧
      state.advanced.1.visibleCount = state.visibleCount + n := by
  have hrelease : 0 < state.release ∧ state.release ≤ maxReleasePerTick := by
    unfold release maxReleasePerTick
    dsimp only
    omega
  unfold backlog advanced
  split_ifs with hbacklog hvisible
  · refine ⟨min (state.targetGraphemes.length - state.visibleCount) state.release, ?_, ?_, ?_⟩
    · omega
    · omega
    · show min state.targetGraphemes.length (state.visibleCount + state.release) = _
      omega
  · exact ⟨0, Nat.zero_le _, fun h => absurd h hbacklog, rfl⟩
  · exact ⟨0, Nat.zero_le _, fun h => absurd h hbacklog, rfl⟩

/-- The visible text follows the visible graphemes, from the first tick on. -/
theorem visibleText_advanced (state : StreamState) :
    state.advanced.1.visibleText = state.advanced.1.expectedVisibleText := by
  unfold advanced
  split_ifs with hbacklog hvisible
  · rfl
  · rfl
  · exact not_not.mp hvisible

theorem Sound.isDrained_iff_backlog {state : StreamState} (h : state.Sound)
    (hvisible : state.visibleText = state.expectedVisibleText) :
    state.isDrained = true ↔ state.backlog = 0 := by
  unfold backlog
  rw [isDrained_iff, Nat.sub_eq_zero_iff_le, and_iff_left_iff_imp]
  intro hlen
  rw [hvisible, expectedVisibleText, List.take_of_length_le hlen, h.joined]

/-- How many ticks a stream needs at most until all of it is shown. -/
def ticksToDrain (state : StreamState) : ℕ := if state.isDrained then 0 else max 1 state.backlog

theorem ticksToDrain_eq_zero {state : StreamState} :
    state.ticksToDrain = 0 ↔ state.isDrained = true := by
  unfold ticksToDrain
  split_ifs with h
  · exact iff_of_true rfl h
  · refine iff_of_false ?_ h
    omega

theorem ticksToDrain_le (state : StreamState) : state.ticksToDrain ≤ state.backlog + 1 := by
  unfold ticksToDrain
  split_ifs <;> omega

/-- Each tick brings a stream closer to its end. -/
theorem Sound.ticksToDrain_advanced {state : StreamState} (h : state.Sound) {n : ℕ}
    (hn : state.ticksToDrain ≤ n + 1) : state.advanced.1.ticksToDrain ≤ n := by
  obtain ⟨shown, hshown, hpos, hcount⟩ := visibleCount_advanced state
  have hbacklog : state.advanced.1.backlog = state.backlog - shown := by
    unfold backlog
    rw [targetGraphemes_advanced, hcount, Nat.sub_sub]
  have hdrained := (sound_advanced h).isDrained_iff_backlog (visibleText_advanced state)
  rw [ticksToDrain]
  split_ifs with hafter
  · exact Nat.zero_le n
  · have hleft : 0 < state.backlog - shown := by
      rw [← hbacklog]
      exact Nat.pos_of_ne_zero fun hzero => hafter (hdrained.mpr hzero)
    have hbefore : state.isDrained ≠ true := by
      intro hbefore
      have hlen := (isDrained_iff.mp hbefore).1
      unfold backlog at hleft
      omega
    rw [ticksToDrain, if_neg hbefore] at hn
    have := hpos (by omega)
    omega

/-- A tick changes the streams that have something left to show. -/
theorem Sound.advanced_changed {state : StreamState} (h : state.Sound) :
    state.advanced.2 = true ↔ state.isDrained = false := by
  rw [← Bool.not_eq_true, isDrained_iff]
  unfold advanced
  split_ifs with hbacklog hvisible
  · exact iff_of_true rfl fun hd => absurd hd.1 (by omega)
  · refine iff_of_true rfl fun hd => hvisible ?_
    rw [hd.2, expectedVisibleText, List.take_of_length_le hd.1, h.joined]
  · refine iff_of_false id (not_not.mpr ⟨by omega, ?_⟩)
    rw [not_not.mp hvisible, expectedVisibleText, List.take_of_length_le (by omega), h.joined]

/-- A partial that needs no snapshot and leaves its stream drained has the text that the
    stream showed before. -/
theorem Sound.of_received {existing : StreamState} (h : existing.Sound) {view : TimelinePartialView}
    (hflag : (received rules (some existing) view).2 = false)
    (hdrained : (received rules (some existing) view).1.isDrained = true) :
    existing.isDrained = true ∧ existing.targetText = partialText view.shown := by
  rw [isDrained_received (fun s hs => Option.some.inj hs ▸ h)] at hdrained
  unfold received updated at hflag
  dsimp only at hflag
  split_ifs at hflag with hchanged himmediate hstarts hfirst
  · -- The text goes on, so that something is left to show.
    rcases hdrained with honce | honce
    · exact absurd honce himmediate
    · dsimp only at honce
      rw [if_neg hchanged] at honce
      exact absurd hstarts honce.1
  · rw [ne_eq, not_not] at hchanged
    refine ⟨?_, hchanged⟩
    rcases hdrained with honce | honce
    · refine h.immediate ?_
      by_contra hno
      exact hfirst (by simpa [honce] using hno)
    · dsimp only at honce
      rwa [if_pos hchanged] at honce

/-- What is displayed of a stream is its visible text. -/
theorem Sound.partialText_projected {state : StreamState} (h : state.Sound) :
    partialText state.projectedPartial.shown = state.visibleText := by
  unfold projectedPartial
  split_ifs with hblocks
  · have himmediate : streamsImmediately state.view.shown = true := by
      rw [streamsImmediately, hblocks, Bool.or_true]
    rw [h.target, (isDrained_iff.mp (h.immediate himmediate)).2]
  · rw [Bool.not_eq_true, Option.isSome_eq_false_iff, Option.isNone_iff_eq_none] at hblocks
    unfold partialText
    dsimp only
    rw [hblocks]
    rfl

@[simp] theorem partialId_projected (state : StreamState) :
    state.projectedPartial.shown.partialId = state.view.shown.partialId := by
  unfold projectedPartial
  split_ifs <;> rfl

end StreamState

/-! ## What a buffer keeps -/

namespace StreamDisplayBuffer

variable {rules : TextRules}

open TimelineViewItem

/-- The streams follow the item list: a stream that is seen belongs to the partial of its
    id, one that is not waits for a formal event, and a partial without a stream has been
    replaced by one. -/
structure Follows (b : StreamDisplayBuffer) : Prop where
  sound : ∀ id state, b.streams.get? id = some state → state.Sound
  current : ∀ id state, b.streams.get? id = some state →
    (currentPartials b.authoritative).get? id = if state.seen then some state.view else none
  unseen : ∀ id state, b.streams.get? id = some state → state.seen = false →
    isFormal b.formalEvents state = true
  undone : ∀ id state, b.streams.get? id = some state → done b.formalEvents state = false
  replaced : ∀ id view, (currentPartials b.authoritative).get? id = some view →
    b.streams.get? id = none → ∃ event ∈ b.formalEvents, matchesFormal view.shown event = true

/-- The buffer follows its items, and a display that is not in line with the streams has
    text to show. -/
structure Held (rules : TextRules) (b : StreamDisplayBuffer) : Prop extends b.Follows where
  tokens : b.renderedNonStreamTokens = nonStreamTokens b.authoritative
  inLine : b.hasPending = true ∨
    ∀ item, Shows b.displayed item ↔ Shows (b.buildSnapshot rules) item

theorem held_initial : Held rules initial where
  sound := fun id state h => by cases h
  current := fun id state h => by cases h
  unseen := fun id state h => by cases h
  undone := fun id state h => by cases h
  replaced := fun id view h => by cases h
  tokens := rfl
  inLine := Or.inr fun item => by
    have hsnapshot : initial.buildSnapshot rules = [] := List.eq_nil_iff_length_eq_zero.mpr
      (List.length_insertionSort _ _)
    rw [hsnapshot]
    exact Iff.rfl

theorem Follows.held_rebuild {b : StreamDisplayBuffer} (h : b.Follows) :
    Held rules (b.rebuild rules) :=
  { sound := h.sound
    current := h.current
    unseen := h.unseen
    undone := h.undone
    replaced := h.replaced
    tokens := rfl
    inLine := Or.inr fun _ => Iff.rfl }

theorem hasPending_eq_false {b : StreamDisplayBuffer} : b.hasPending = false ↔
    ∀ id state, b.streams.get? id = some state → state.isDrained = true := by
  rw [← Bool.not_eq_true, hasPending, OrderedMap.any_values, not_exists]
  simp

/-- The items of a buffer that has shown all text. -/
def Settled (b : StreamDisplayBuffer) : TimelineViewItem → Prop
  | .event ref e => .event ref e ∈ b.authoritative
  | .pending images p => Shows b.authoritative (.pending images p)
  | .streaming view => ∃ state, b.streams.get? view.shown.partialId = some state ∧
      state.targetText = partialText view.shown

theorem mem_of_currentPartials {items : List TimelineViewItem} {id : String}
    {view : TimelinePartialView} (h : (currentPartials items).get? id = some view) :
    .streaming view ∈ items := by
  have hfold : ∀ (views : List TimelinePartialView) (m : OrderedMap String TimelinePartialView),
      (views.foldl (fun m view => m.set view.shown.partialId view) m).get? id = some view →
        view ∈ views ∨ m.get? id = some view := by
    intro views
    induction views with
    | nil => exact fun m hm => Or.inr hm
    | cons next views ih =>
      intro m hm
      rcases ih _ hm with hmem | hget
      · exact Or.inl (List.mem_cons_of_mem _ hmem)
      · rw [OrderedMap.get?_set] at hget
        split_ifs at hget
        · cases hget
          exact Or.inl (List.mem_cons_self ..)
        · exact Or.inr hget
  rcases hfold _ _ h with hmem | hget
  · obtain ⟨item, hitem, heq⟩ := List.mem_filterMap.mp hmem
    cases item with
    | event ref e => cases heq
    | pending images p => cases heq
    | streaming view' =>
      cases heq
      exact hitem
  · cases hget

namespace Follows

/-- Where nothing is pending, no stream waits for a formal event. -/
theorem of_drained {b : StreamDisplayBuffer} (h : b.Follows) (hp : b.hasPending = false)
    {id : String} {state : StreamState} (hget : b.streams.get? id = some state) :
    isFormal b.formalEvents state = false ∧ state.seen = true := by
  have hdrained := hasPending_eq_false.mp hp id state hget
  have hformal : isFormal b.formalEvents state = false := by
    have hundone := h.undone id state hget
    rwa [done, hdrained, Bool.and_true] at hundone
  refine ⟨hformal, ?_⟩
  by_contra hseen
  have := h.unseen id state hget (Bool.not_eq_true _ ▸ hseen)
  rw [hformal] at this
  cases this

theorem current_of_drained {b : StreamDisplayBuffer} (h : b.Follows) (hp : b.hasPending = false)
    {id : String} {state : StreamState} (hget : b.streams.get? id = some state) :
    (currentPartials b.authoritative).get? id = some state.view := by
  rw [h.current id state hget, if_pos (h.of_drained hp hget).2]

theorem partialId_of_get? {b : StreamDisplayBuffer} (h : b.Follows) (hp : b.hasPending = false)
    {id : String} {state : StreamState} (hget : b.streams.get? id = some state) :
    state.view.shown.partialId = id :=
  currentPartials_key (h.current_of_drained hp hget)

theorem hides_eq_false {b : StreamDisplayBuffer} (h : b.Follows) (hp : b.hasPending = false)
    {event : TimelineEvent} (hevent : event ∈ b.formalEvents) : b.hides event = false := by
  rw [← Bool.not_eq_true, hides_iff]
  rintro ⟨id, state, hget, hmatch⟩
  have hformal := (h.of_drained hp hget).1
  rw [isFormal_iff.mpr ⟨event, hevent, hmatch⟩] at hformal
  cases hformal

/-- The display that a buffer with nothing pending would build: every other item, and one
    item of each stream. -/
theorem mem_buildSnapshot {b : StreamDisplayBuffer} (h : b.Follows) (hp : b.hasPending = false)
    {shown : TimelineViewItem} : shown ∈ b.buildSnapshot rules ↔
      shown.streaming? = none ∧ shown ∈ b.authoritative ∨
        ∃ id state, b.streams.get? id = some state ∧ shown = .streaming state.projectedPartial := by
  have hleft : (b.streams.values.filter fun state =>
      !state.seen && isFormal b.formalEvents state) = [] := by
    refine List.filter_eq_nil_iff.mpr fun state hstate => ?_
    obtain ⟨id, hget⟩ := OrderedMap.mem_values.mp hstate
    rw [(h.of_drained hp hget).1, Bool.and_false]
    exact Bool.false_ne_true
  unfold buildSnapshot
  dsimp only
  rw [hleft, List.mem_insertionSort, List.map_nil, List.append_nil, List.mem_filterMap]
  constructor
  · rintro ⟨item, hitem, hshown⟩
    cases item with
    | event ref e =>
      unfold shownItem at hshown
      dsimp only at hshown
      split_ifs at hshown
      cases hshown
      exact Or.inl ⟨rfl, hitem⟩
    | pending images p =>
      cases hshown
      exact Or.inl ⟨rfl, hitem⟩
    | streaming view =>
      obtain ⟨state, hget, hstate⟩ := Option.map_eq_some_iff.mp hshown
      exact Or.inr ⟨_, state, hget, hstate.symm⟩
  · rintro (⟨hkind, hmem⟩ | ⟨id, state, hget, rfl⟩)
    · refine ⟨shown, hmem, ?_⟩
      cases shown with
      | event ref e =>
        have hhides := h.hides_eq_false hp (mem_formalOf.mpr ⟨ref, hmem⟩)
        rw [shownItem, hhides, if_neg Bool.false_ne_true]
      | pending images p => rfl
      | streaming view => cases hkind
    · refine ⟨_, mem_of_currentPartials (h.current_of_drained hp hget), ?_⟩
      rw [shownItem, h.partialId_of_get? hp hget, hget]
      rfl

/-- The display that a buffer with nothing pending would build shows all text. -/
theorem shows_buildSnapshot {b : StreamDisplayBuffer} (h : b.Follows) (hp : b.hasPending = false)
    (item : TimelineViewItem) : Shows (b.buildSnapshot rules) item ↔ b.Settled item := by
  have htext : ∀ {id state}, b.streams.get? id = some state →
      state.projectedPartial.shown.partialId = id ∧
        partialText state.projectedPartial.shown = state.targetText := by
    intro id state hget
    have hdrained := hasPending_eq_false.mp hp id state hget
    refine ⟨by rw [StreamState.partialId_projected, h.partialId_of_get? hp hget], ?_⟩
    rw [(h.sound id state hget).partialText_projected, (StreamState.isDrained_iff.mp hdrained).2]
  constructor
  · rintro ⟨shown, hshown, hsame⟩
    rcases (h.mem_buildSnapshot hp).mp hshown with ⟨hkind, hmem⟩ | ⟨id, state, hget, rfl⟩
    · cases item with
      | event ref e => exact shows_event.mp ⟨shown, hmem, hsame⟩
      | pending images p => exact ⟨shown, hmem, hsame⟩
      | streaming view =>
        cases shown with
        | event ref e => exact hsame.elim
        | pending images p => exact hsame.elim
        | streaming view' => cases hkind
    · cases item with
      | event ref e => exact hsame.elim
      | pending images p => exact hsame.elim
      | streaming view =>
        obtain ⟨hid, htarget⟩ := htext hget
        refine ⟨state, ?_, htarget.symm.trans hsame.2.symm⟩
        rw [hsame.1, hid]
        exact hget
  · intro hsettled
    cases item with
    | event ref e => exact shows_of_mem ((h.mem_buildSnapshot hp).mpr (Or.inl ⟨rfl, hsettled⟩))
    | pending images p =>
      obtain ⟨shown, hshown, hsame⟩ := hsettled
      refine ⟨shown, (h.mem_buildSnapshot hp).mpr (Or.inl ⟨?_, hshown⟩), hsame⟩
      cases shown with
      | event ref e => rfl
      | pending images' p' => rfl
      | streaming view => exact hsame.elim
    | streaming view =>
      obtain ⟨state, hget, htarget⟩ := hsettled
      obtain ⟨hid, hshown⟩ := htext hget
      exact ⟨_, (h.mem_buildSnapshot hp).mpr (Or.inr ⟨_, state, hget, rfl⟩), hid.symm,
        htarget.symm.trans hshown.symm⟩

end Follows

/-! ### Ticks -/

/-- A stream that a tick deletes has been replaced by a formal event. -/
theorem get?_advance_none {b : StreamDisplayBuffer} {id : String} {state : StreamState}
    (hget : b.streams.get? id = some state)
    (hgone : ((b.streams.mapValues fun _ state => state.advanced.1).filter fun _ state =>
      !done b.formalEvents state).get? id = none) :
    done b.formalEvents state.advanced.1 = true := by
  rw [OrderedMap.get?_filter, OrderedMap.get?_mapValues, hget, Option.map_some,
    Option.filter_eq_none_iff] at hgone
  simpa using hgone state.advanced.1 rfl

theorem streams_advance (b : StreamDisplayBuffer) : (b.advance rules).1.streams =
    (b.streams.mapValues fun _ state => state.advanced.1).filter fun _ state =>
      !done b.formalEvents state := by
  unfold advance change
  dsimp only
  split_ifs <;> rfl

theorem authoritative_advance (b : StreamDisplayBuffer) :
    (b.advance rules).1.authoritative = b.authoritative := by
  unfold advance change
  dsimp only
  split_ifs <;> rfl

theorem follows_advance {b : StreamDisplayBuffer} (h : b.Follows) :
    (b.advance rules).1.Follows := by
  have hafter : ∀ id state, (b.advance rules).1.streams.get? id = some state →
      ∃ before, b.streams.get? id = some before ∧ state = before.advanced.1 ∧
        done b.formalEvents state = false := by
    intro id state hget
    rw [streams_advance] at hget
    exact get?_afterTick hget
  have hevents : (b.advance rules).1.formalEvents = b.formalEvents := by
    rw [formalEvents, authoritative_advance, formalEvents]
  refine ⟨fun id state hget => ?_, fun id state hget => ?_, fun id state hget hseen => ?_,
    fun id state hget => ?_, fun id view hcurrent hgone => ?_⟩
  · obtain ⟨before, hbefore, rfl, -⟩ := hafter id state hget
    exact StreamState.sound_advanced (h.sound id before hbefore)
  · obtain ⟨before, hbefore, rfl, -⟩ := hafter id state hget
    rw [authoritative_advance, StreamState.seen_advanced, StreamState.view_advanced]
    exact h.current id before hbefore
  · obtain ⟨before, hbefore, rfl, -⟩ := hafter id state hget
    have hformal := h.unseen id before hbefore (by rwa [StreamState.seen_advanced] at hseen)
    rwa [hevents, isFormal, StreamState.view_advanced]
  · obtain ⟨before, hbefore, rfl, hdone⟩ := hafter id state hget
    rw [hevents, hdone]
  · rw [authoritative_advance] at hcurrent
    rw [hevents]
    cases hget : b.streams.get? id with
    | none => exact h.replaced id view hcurrent hget
    | some before =>
      rw [streams_advance] at hgone
      have hdone := get?_advance_none hget hgone
      have hview := (h.current id before hget).symm.trans hcurrent
      split_ifs at hview
      cases hview
      rw [done, Bool.and_eq_true, isFormal_iff, StreamState.view_advanced] at hdone
      exact hdone.1

theorem held_advance {b : StreamDisplayBuffer} (h : Held rules b) :
    Held rules (b.advance rules).1 := by
  have hfollows : (b.advance rules).1.Follows := follows_advance h.toFollows
  rcases @advance_cases rules b with hrebuilt | ⟨hsame, -⟩
  · rw [hrebuilt] at hfollows ⊢
    exact { hfollows with tokens := rfl, inLine := Or.inr fun _ => Iff.rfl }
  · rw [hsame]
    exact h

/-! ### Resets -/

/-- A reset opens a stream for the current partial of each id. -/
theorem get?_restartStreams (items : List TimelineViewItem) (id : String) :
    (restartStreams rules (items.filterMap TimelineViewItem.streaming?) .empty).get? id =
      ((currentPartials items).get? id).map (StreamState.restarted rules) := by
  have hfold : ∀ (views : List TimelinePartialView) (streams : OrderedMap String StreamState)
      (current : OrderedMap String TimelinePartialView),
      (∀ id, streams.get? id = (current.get? id).map (StreamState.restarted rules)) →
      ∀ id, (restartStreams rules views streams).get? id =
        ((views.foldl (fun m view => m.set view.shown.partialId view) current).get? id).map
          (StreamState.restarted rules) := by
    intro views
    induction views with
    | nil => exact fun streams current h => h
    | cons view views ih =>
      intro streams current h
      refine ih _ _ fun id => ?_
      rw [OrderedMap.get?_set, OrderedMap.get?_set]
      split_ifs
      · rfl
      · exact h id
  exact hfold _ _ _ (fun id => rfl) id

theorem held_reset (b : StreamDisplayBuffer) (items : List TimelineViewItem) :
    Held rules (b.reset rules items).1 := by
  refine Follows.held_rebuild ?_
  have hafter : ∀ id state, ((restartStreams rules
      (items.filterMap TimelineViewItem.streaming?) .empty).filter fun _ state =>
        !isFormal (formalOf items) state).get? id = some state →
      ∃ view, (currentPartials items).get? id = some view ∧
        state = StreamState.restarted rules view ∧ isFormal (formalOf items) state = false := by
    intro id state hget
    rw [OrderedMap.get?_filter, get?_restartStreams, Option.filter_eq_some_iff,
      Option.map_eq_some_iff] at hget
    obtain ⟨⟨view, hview, rfl⟩, hkeep⟩ := hget
    exact ⟨view, hview, rfl, Bool.not_eq_eq_eq_not.mp hkeep⟩
  refine ⟨fun id state hget => ?_, fun id state hget => ?_, fun id state hget hseen => ?_,
    fun id state hget => ?_, fun id view hcurrent hgone => ?_⟩
  · obtain ⟨view, -, rfl, -⟩ := hafter id state hget
    exact StreamState.sound_restarted view
  · obtain ⟨view, hview, rfl, -⟩ := hafter id state hget
    exact hview
  · obtain ⟨view, -, rfl, -⟩ := hafter id state hget
    cases hseen
  · obtain ⟨view, -, rfl, hformal⟩ := hafter id state hget
    exact Bool.and_eq_false_imp.mpr fun hyes => absurd hyes (ne_true_of_eq_false hformal)
  · dsimp only at hgone hcurrent
    rw [OrderedMap.get?_filter, get?_restartStreams, hcurrent, Option.map_some,
      Option.filter_eq_none_iff] at hgone
    have hformal := hgone _ rfl
    rw [Bool.not_eq_true, Bool.not_eq_eq_eq_not, Bool.not_false, isFormal_iff] at hformal
    exact hformal

/-! ### Ingests -/

/-- The streams that an ingest keeps. -/
theorem follows_kept {b : StreamDisplayBuffer} (h : b.Follows) (items : List TimelineViewItem)
    {displayed : List TimelineViewItem} {tokens : List NonStreamToken} :
    Follows ⟨items, displayed, tokens, (b.takePartials rules items).1.filter fun _ state =>
      !dropped (formalOf items) state⟩ := by
  have hafter : ∀ id state, ((b.takePartials rules items).1.filter fun _ state =>
      !dropped (formalOf items) state).get? id = some state →
      (b.takePartials rules items).1.get? id = some state ∧
        dropped (formalOf items) state = false := by
    intro id state hget
    rw [OrderedMap.get?_filter, Option.filter_eq_some_iff] at hget
    exact ⟨hget.1, Bool.not_eq_eq_eq_not.mp hget.2⟩
  have hcurrent : ∀ id state, (b.takePartials rules items).1.get? id = some state →
      (currentPartials items).get? id = if state.seen then some state.view else none := by
    intro id state hget
    rw [get?_takePartials] at hget
    cases hview : (currentPartials items).get? id with
    | none =>
      rw [hview] at hget
      obtain ⟨before, -, rfl⟩ := Option.map_eq_some_iff.mp hget
      rfl
    | some view =>
      rw [hview] at hget
      cases hget
      rw [StreamState.seen_received, StreamState.view_received, if_pos rfl]
  refine ⟨fun id state hget => ?_, fun id state hget => ?_, fun id state hget hseen => ?_,
    fun id state hget => ?_, fun id view hview hgone => ?_⟩
  · exact sound_takePartials h.sound (hafter id state hget).1
  · exact hcurrent id state (hafter id state hget).1
  · have hkeep := (hafter id state hget).2
    unfold dropped at hkeep
    split_ifs at hkeep with hformal
    · exact hformal
    · rw [hseen] at hkeep
      cases hkeep
  · have hkeep := (hafter id state hget).2
    unfold dropped at hkeep
    show (isFormal (formalOf items) state && state.isDrained) = false
    split_ifs at hkeep with hformal
    · rw [hkeep, Bool.and_false]
    · rw [Bool.not_eq_true] at hformal
      rw [hformal, Bool.false_and]
  · dsimp only at hgone hview
    have htaken := @get?_takePartials rules b items id
    rw [hview] at htaken
    dsimp only at htaken
    rw [OrderedMap.get?_filter, htaken, Option.filter_eq_none_iff] at hgone
    have hdropped := hgone _ rfl
    rw [Bool.not_eq_true, Bool.not_eq_eq_eq_not, Bool.not_false, dropped] at hdropped
    split_ifs at hdropped with hformal
    · rw [isFormal_iff, StreamState.view_received] at hformal
      exact hformal
    · rw [StreamState.seen_received] at hdropped
      cases hdropped

/-- Without a snapshot, a stream that is drained afterwards was drained before and keeps
    its text. -/
theorem received_takePartials {b : StreamDisplayBuffer} (h : b.Follows)
    {items : List TimelineViewItem} (hflag : (b.takePartials rules items).2 = false) {id : String}
    {before : StreamState} (hbefore : b.streams.get? id = some before) :
    ∃ state, (b.takePartials rules items).1.get? id = some state ∧
      (state.isDrained = true →
        before.isDrained = true ∧ before.targetText = state.targetText) := by
  have hsound : StreamState.Sound { before with seen := false } :=
    sound_unseen h.sound (by rw [hbefore, Option.map_some])
  rw [get?_takePartials, hbefore, Option.map_some]
  cases hview : (currentPartials items).get? id with
  | none => exact ⟨_, rfl, fun hdrained => ⟨hdrained, rfl⟩⟩
  | some view =>
    refine ⟨_, rfl, fun hdrained => ?_⟩
    have hreceived := (received_of_unchanged hflag).2 id view hview
    rw [hbefore, Option.map_some] at hreceived
    obtain ⟨hwas, htext⟩ := hsound.of_received hreceived hdrained
    have htarget := (@StreamState.sound_received rules _
      (fun s hs => Option.some.inj hs ▸ hsound) view).target
    rw [StreamState.view_received] at htarget
    exact ⟨hwas, htext.trans htarget⟩

theorem get?_of_takePartials {b : StreamDisplayBuffer} {items : List TimelineViewItem}
    (hflag : (b.takePartials rules items).2 = false) {id : String} {state : StreamState}
    (hget : (b.takePartials rules items).1.get? id = some state) :
    ∃ before, b.streams.get? id = some before := by
  rw [get?_takePartials] at hget
  cases hview : (currentPartials items).get? id with
  | none =>
    rw [hview] at hget
    obtain ⟨before, hbefore, -⟩ := Option.map_eq_some_iff.mp hget
    exact ⟨before, hbefore⟩
  | some view =>
    have hid := currentPartials_key hview
    subst hid
    exact (takePartials_unchanged hflag).2 view (mem_currentPartials.mpr hview)

/-- An ingest that rebuilds nothing and leaves nothing pending changes no text. -/
theorem settled_takePartials {b : StreamDisplayBuffer} (h : b.Follows)
    {items : List TimelineViewItem} (hflag : (b.takePartials rules items).2 = false)
    (hafter : ∀ id state, (b.takePartials rules items).1.get? id = some state →
      state.isDrained = true) :
    b.hasPending = false ∧ ∀ id text,
      (∃ state, (b.takePartials rules items).1.get? id = some state ∧ state.targetText = text) ↔
        ∃ state, b.streams.get? id = some state ∧ state.targetText = text := by
  refine ⟨hasPending_eq_false.mpr fun id before hbefore => ?_, fun id text => ⟨?_, ?_⟩⟩
  · obtain ⟨state, hget, hsame⟩ := received_takePartials h hflag hbefore
    exact (hsame (hafter id state hget)).1
  · rintro ⟨state, hget, rfl⟩
    obtain ⟨before, hbefore⟩ := get?_of_takePartials hflag hget
    obtain ⟨state', hget', hsame⟩ := received_takePartials h hflag hbefore
    cases hget.symm.trans hget'
    exact ⟨before, hbefore, (hsame (hafter id state hget)).2⟩
  · rintro ⟨before, hbefore, rfl⟩
    obtain ⟨state, hget, hsame⟩ := received_takePartials h hflag hbefore
    exact ⟨state, hget, (hsame (hafter id state hget)).2.symm⟩

theorem held_ingest {b : StreamDisplayBuffer} (h : Held rules b) (items : List TimelineViewItem) :
    Held rules (b.ingest rules items).1 := by
  rcases @ingest_cases rules b items with hrebuilt | ⟨hflag, hkept, hsame⟩
  · rw [hrebuilt]
    exact (follows_kept h.toFollows items).held_rebuild
  · have hfollows : (b.ingest rules items).1.Follows := by
      rw [hsame, ← hkept]
      exact follows_kept h.toFollows items
    obtain ⟨htokens, -⟩ := takePartials_unchanged hflag
    refine { hfollows with tokens := ?_, inLine := ?_ }
    · rw [hsame]
      exact htokens
    · rw [or_iff_not_imp_left, Bool.not_eq_true]
      intro hp item
      rw [hfollows.shows_buildSnapshot hp]
      rw [hsame] at hp ⊢
      obtain ⟨hbefore, htexts⟩ := settled_takePartials h.toFollows hflag (hasPending_eq_false.mp hp)
      rcases h.inLine with hpending | hline
      · rw [hbefore] at hpending
        cases hpending
      · refine (hline item).trans ((h.shows_buildSnapshot hbefore item).trans ?_)
        have heq : nonStreamTokens b.authoritative = nonStreamTokens items :=
          h.tokens.symm.trans htokens
        cases item with
        | event ref e =>
          show _ ∈ b.authoritative ↔ _ ∈ items
          rw [mem_event_iff_token, heq, ← mem_event_iff_token]
        | pending images p =>
          show Shows b.authoritative _ ↔ Shows items _
          rw [shows_pending, heq, ← shows_pending]
        | streaming view => exact (htexts _ _).symm

/-! ## Runs -/

theorem held_step (b : StreamDisplayBuffer) (op : Operation) (b' : StreamDisplayBuffer)
    (h : Held rules b) (hstep : step rules b op = some b') : Held rules b' := by
  cases op with
  | ingest items =>
    cases hstep
    exact held_ingest h items
  | reset items =>
    cases hstep
    exact held_reset b items
  | advance =>
    cases hstep
    exact held_advance h

/-- In every state of every run the buffer follows its items. -/
theorem held_run {ops : List Operation} {b : StreamDisplayBuffer}
    (h : run (step rules) initial ops = some b) : Held rules b :=
  invariant_run held_step held_initial h

/-- The largest backlog of a stream. -/
def largestBacklog (b : StreamDisplayBuffer) : ℕ :=
  (b.streams.values.map StreamState.backlog).foldr max 0

theorem backlog_le_largest {b : StreamDisplayBuffer} {id : String} {state : StreamState}
    (hget : b.streams.get? id = some state) : state.backlog ≤ b.largestBacklog := by
  have hmax : ∀ (ns : List ℕ) (n : ℕ), n ∈ ns → n ≤ ns.foldr max 0 := by
    intro ns
    induction ns with
    | nil => exact fun n hn => absurd hn List.not_mem_nil
    | cons m ns ih =>
      intro n hn
      rw [List.foldr_cons]
      rcases List.mem_cons.mp hn with rfl | hn
      · exact Nat.le_max_left _ _
      · exact (ih n hn).trans (Nat.le_max_right _ _)
  exact hmax _ _ (List.mem_map_of_mem (OrderedMap.mem_values.mpr ⟨id, hget⟩))

/-- What one tick releases of a stream: at most 64 graphemes, and some of a backlog. A
    stream that it deletes is shown to its end and has been replaced by a formal event. -/
def Releases (b b' : StreamDisplayBuffer) (id : String) (state : StreamState) : Prop :=
  match b'.streams.get? id with
  | some next => next.targetGraphemes = state.targetGraphemes ∧
      state.visibleCount ≤ next.visibleCount ∧
      next.visibleCount ≤ state.visibleCount + maxReleasePerTick ∧
      (0 < state.backlog → next.backlog < state.backlog)
  | none => state.backlog ≤ maxReleasePerTick ∧ isFormal b.formalEvents state = true

/-- All text is visible: nothing is pending, each stream shows its target, the display
    shows nothing else than the items, and each of them but the partials that a formal
    event has replaced. -/
structure ShowsAll (b : StreamDisplayBuffer) : Prop where
  drained : b.hasPending = false
  visible : ∀ id state, b.streams.get? id = some state →
    state.visibleCount = state.targetGraphemes.length ∧ state.visibleText = state.targetText
  onlyItems : ∀ shown ∈ b.displayed, Shows b.authoritative shown
  others : ∀ item ∈ b.authoritative, item.streaming? = none → Shows b.displayed item
  partials : ∀ view ∈ (currentPartials b.authoritative).values,
    Shows b.displayed (.streaming view) ∨
      ∃ event ∈ b.formalEvents, matchesFormal view.shown event = true

theorem Held.showsAll {b : StreamDisplayBuffer} (h : Held rules b) (hp : b.hasPending = false) :
    b.ShowsAll := by
  have hline : ∀ item, Shows b.displayed item ↔ b.Settled item := by
    rcases h.inLine with hpending | hline
    · rw [hp] at hpending
      cases hpending
    · exact fun item => (hline item).trans (h.shows_buildSnapshot hp item)
  refine ⟨hp, fun id state hget => ?_, fun shown hshown => ?_, fun item hitem hkind => ?_,
    fun view hview => ?_⟩
  · obtain ⟨hlen, htext⟩ := StreamState.isDrained_iff.mp (hasPending_eq_false.mp hp id state hget)
    exact ⟨Nat.le_antisymm (h.sound id state hget).counted hlen, htext⟩
  · have hsettled := (hline shown).mp (shows_of_mem hshown)
    cases shown with
    | event ref e => exact shows_of_mem hsettled
    | pending images p => exact hsettled
    | streaming view =>
      obtain ⟨state, hget, htext⟩ := hsettled
      refine ⟨_, mem_of_currentPartials (h.current_of_drained hp hget), ?_, ?_⟩
      · exact (h.partialId_of_get? hp hget).symm
      · rw [(h.sound _ state hget).target, htext]
  · refine (hline item).mpr ?_
    cases item with
    | event ref e => exact hitem
    | pending images p => exact shows_of_mem hitem
    | streaming view => cases hkind
  · have hcurrent := mem_currentPartials.mp hview
    cases hget : b.streams.get? view.shown.partialId with
    | none => exact Or.inr (h.replaced _ view hcurrent hget)
    | some state =>
      refine Or.inl ((hline _).mpr ⟨state, hget, ?_⟩)
      have hsame := (h.current_of_drained hp hget).symm.trans hcurrent
      rw [← (h.sound _ state hget).target, Option.some.inj hsame]

theorem releases_advance (b : StreamDisplayBuffer) {id : String} {state : StreamState}
    (hget : b.streams.get? id = some state) : b.Releases (b.advance rules).1 id state := by
  obtain ⟨shown, hshown, hpos, hcount⟩ := StreamState.visibleCount_advanced state
  have hnext : ∀ next, (b.advance rules).1.streams.get? id = some next →
      next = state.advanced.1 := by
    intro next hnext
    rw [streams_advance] at hnext
    obtain ⟨before, hbefore, rfl, -⟩ := get?_afterTick hnext
    cases hget.symm.trans hbefore
    rfl
  unfold Releases
  cases hafter : (b.advance rules).1.streams.get? id with
  | some next =>
    cases hnext next hafter
    dsimp only
    rw [StreamState.targetGraphemes_advanced, hcount]
    unfold StreamState.backlog at hpos hshown ⊢
    rw [StreamState.targetGraphemes_advanced, hcount]
    refine ⟨rfl, by omega, by omega, fun h => ?_⟩
    have := hpos h
    omega
  | none =>
    dsimp only
    rw [streams_advance] at hafter
    have hdone := get?_advance_none hget hafter
    rw [done, Bool.and_eq_true, isFormal, StreamState.view_advanced,
      StreamState.isDrained_iff, StreamState.targetGraphemes_advanced, hcount] at hdone
    refine ⟨?_, hdone.1⟩
    unfold StreamState.backlog at hshown ⊢
    omega

/-- Ticks alone bring every stream to its end. -/
theorem run_advances {b : StreamDisplayBuffer} (h : Held rules b) {n : ℕ}
    (hn : ∀ id state, b.streams.get? id = some state → state.ticksToDrain ≤ n) :
    ∃ b', run (step rules) b (List.replicate n .advance) = some b' ∧ b'.ShowsAll := by
  induction n generalizing b with
  | zero =>
    refine ⟨b, rfl, h.showsAll (hasPending_eq_false.mpr fun id state hget => ?_)⟩
    exact StreamState.ticksToDrain_eq_zero.mp (Nat.le_zero.mp (hn id state hget))
  | succ n ih =>
    refine ih (held_advance h) fun id state hget => ?_
    rw [streams_advance] at hget
    obtain ⟨before, hbefore, rfl, -⟩ := get?_afterTick hget
    exact (h.sound id before hbefore).ticksToDrain_advanced (hn id before hbefore)

/-- The items that an operation hands in. -/
def Operation.items? : Operation → Option (List TimelineViewItem)
  | .ingest items | .reset items => some items
  | .advance => none

theorem authoritative_step {b b' : StreamDisplayBuffer} {op : Operation}
    (h : step rules b op = some b') : b'.authoritative = op.items?.getD b.authoritative := by
  cases op with
  | ingest items =>
    cases h
    unfold ingest change
    dsimp only
    split_ifs <;> rfl
  | reset items =>
    cases h
    rfl
  | advance =>
    cases h
    exact authoritative_advance b

/-- The item list of the buffer is the last one that was handed in. -/
theorem authoritative_run {ops : List Operation} {b b' : StreamDisplayBuffer}
    (h : run (step rules) b ops = some b') :
    b'.authoritative = (ops.filterMap Operation.items?).getLast?.getD b.authoritative := by
  induction ops generalizing b with
  | nil =>
    cases h
    rfl
  | cons op ops ih =>
    obtain ⟨next, hstep, hrest⟩ := run_cons_eq_some.mp h
    rw [ih hrest, authoritative_step hstep]
    cases hitems : op.items? with
    | none => rw [List.filterMap_cons_none hitems, Option.getD_none]
    | some items =>
      rw [List.filterMap_cons_some hitems, List.getLast?_cons, Option.getD_some, Option.getD_some]

/-- In every state of every run each stream shows a beginning of its text; a tick shows at
    most 64 more graphemes of it and some of a backlog; one tick more than the largest backlog
    shows all text; and the text of a stream is that of its partial in the last items handed in. -/
theorem display_drains (rules : TextRules) {ops : List Operation} {b : StreamDisplayBuffer}
    (h : run (step rules) initial ops = some b) :
    (∀ state ∈ b.streams.values, joinText state.targetGraphemes = state.targetText ∧
      state.visibleCount ≤ state.targetGraphemes.length ∧
      state.visibleText.toList <+: state.targetText.toList) ∧
    (∀ id state, b.streams.get? id = some state → b.Releases (b.advance rules).1 id state) ∧
    (∀ n, b.largestBacklog + 1 ≤ n →
      ∃ b', run (step rules) b (List.replicate n .advance) = some b' ∧ b'.ShowsAll) ∧
    b.authoritative = (ops.filterMap Operation.items?).getLast?.getD [] ∧
      ∀ id state, b.streams.get? id = some state →
        state.targetText = partialText state.view.shown ∧
        (currentPartials b.authoritative).get? id =
          if state.seen then some state.view else none := by
  have hheld := held_run h
  refine ⟨fun state hstate => ?_, fun id state hget => releases_advance b hget, fun n hn => ?_,
    authoritative_run h, fun id state hget =>
      ⟨(hheld.sound id state hget).target.symm, hheld.current id state hget⟩⟩
  · obtain ⟨id, hget⟩ := OrderedMap.mem_values.mp hstate
    have hsound := hheld.sound id state hget
    exact ⟨hsound.joined, hsound.counted, hsound.visible⟩
  · refine run_advances hheld fun id state hget => ?_
    have := backlog_le_largest hget
    have := state.ticksToDrain_le
    omega

section Sample

theorem join_letters (text : String) : joinText (text.toList.map String.singleton) = text := by
  rw [joinText, List.flatMap_map]
  simp

/-- Text that may be cut between any two letters. -/
private def perLetter : TextRules where
  segmentText text := text.toList.map String.singleton
  join_segmentText := join_letters
  localeLE a b := decide (a ≤ b)

/-- A partial of an assistant message. -/
private def typed (text : String) : TimelinePartialView :=
  ⟨⟨"s", "h", "g", "e:assistant:0", false, .assistant, none, none, some text, 0⟩, 2⟩

/-- Two letters of the word are shown at once, and three are left. -/
theorem display_drains_word : ∃ b', run (step perLetter)
    (initial.ingest perLetter [.streaming (typed "words")]).1 (List.replicate 4 .advance) =
      some b' ∧ b'.ShowsAll :=
  (@display_drains perLetter [.ingest [.streaming (typed "words")]] _ rfl).2.2.1 4
    (by decide)

end Sample

end StreamDisplayBuffer

end RemotePi.Pwa
