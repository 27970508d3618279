import Mathlib.Data.List.Sort
import RemotePi.Lib.Trace
import RemotePi.Pwa.TimelineRuntime

/-!
# The paced display of partial output

Model of `StreamDisplayBuffer` (`pwa/src/lib/pwa/stream-display-buffer.ts`). The
buffer shows the text of a partial in portions, and hides a formal event while a
stream of its group and kind is held.

Results:
* `displayed_rebuild`: which events a rebuilt display shows.
* `shown_or_draining`: every formal event is shown unless its own message is still
  draining, on runs whose streams stay apart from the events of other messages.
-/

namespace RemotePi.Pwa

open RemotePi.Lib

/-! ## Data -/

/-- `segments.join("")`. -/
def joinText (segments : List String) : String :=
  String.ofList (segments.flatMap String.toList)

/-- What the browser knows about text: where it may be cut (`Intl.Segmenter`, lines
    6–8) and the order of `localeCompare`. -/
structure TextRules where
  segmentText : String → List String
  join_segmentText : ∀ text, joinText (segmentText text) = text
  localeLE : String → String → Bool

/-- A `TimelineViewItem`. Events and image lists are compared by reference: the number
    stands for the object. -/
inductive TimelineViewItem where
  | event (ref : ℕ) (event : TimelineEvent)
  | pending (images : ℕ) (pending : TimelinePending)
  | streaming (view : TimelinePartialView)
deriving DecidableEq

namespace TimelineViewItem

def event? : TimelineViewItem → Option TimelineEvent
  | event _ e => some e
  | _ => none

def streaming? : TimelineViewItem → Option TimelinePartialView
  | streaming view => some view
  | _ => none

/-- `itemId` (lines 68–72). -/
def itemId : TimelineViewItem → String
  | event _ e => e.eventId
  | streaming view => view.shown.partialId
  | pending _ p => p.clientRequestId

/-- `itemTime` (lines 74–76). -/
def itemTime : TimelineViewItem → ℚ
  | event _ e => e.timestamp
  | streaming view => view.createdAt
  | pending _ p => p.createdAt

/-- `compareItems` (lines 78–80) gives no positive number. -/
def compareItems (rules : TextRules) (a b : TimelineViewItem) : Prop :=
  a.itemTime < b.itemTime ∨ a.itemTime = b.itemTime ∧ rules.localeLE a.itemId b.itemId = true

instance (rules : TextRules) : DecidableRel (compareItems rules) := fun _ _ =>
  inferInstanceAs (Decidable (_ ∨ _))

end TimelineViewItem

/-- `NonStreamToken` (lines 20–32). -/
inductive NonStreamToken where
  | event (ref : ℕ) (event : TimelineEvent)
  | pending (clientRequestId text : String) (images : ℕ) (createdAt : ℚ)
      (delivery : PendingDelivery) (cancelable : Option Bool) (messageId : Option String)
deriving DecidableEq

def TimelineViewItem.token? : TimelineViewItem → Option NonStreamToken
  | event ref e => some (.event ref e)
  | pending images p =>
    some (.pending p.clientRequestId p.text images p.createdAt p.delivery p.cancelable p.messageId)
  | streaming _ => none

/-- `nonStreamTokens` (lines 107–129). -/
def nonStreamTokens (items : List TimelineViewItem) : List NonStreamToken :=
  items.filterMap TimelineViewItem.token?

/-- `partialText` (lines 40–43). -/
def partialText (shown : TimelinePartial) : String :=
  match shown.blocks with
  | some blocks => "\n".intercalate (blocks.map AssistantBlock.text)
  | none => shown.delta.getD ""

/-- `streamsImmediately` (lines 49–51). -/
def streamsImmediately (shown : TimelinePartial) : Bool :=
  (match shown.kind with
    | .tool _ _ => true
    | _ => false) || shown.blocks.isSome

/-- `matchesFormal` (lines 82–86). -/
def matchesFormal (shown : TimelinePartial) (event : TimelineEvent) : Bool :=
  event.groupId = some shown.groupId &&
    match event.kind, shown.kind with
    | .assistant, .assistant | .assistant, .thinking => true
    | .tool, .tool _ _ => true
    | _, _ => false

/-- `StreamState` (lines 10–18). -/
structure StreamState where
  view : TimelinePartialView
  targetText : String
  targetGraphemes : List String
  visibleCount : ℕ
  visibleText : String
  ticks : ℕ
  seen : Bool
deriving DecidableEq

def drainTicks : ℕ := 8

def maxReleasePerTick : ℕ := 64

/-! ## One stream -/

namespace StreamState

variable (rules : TextRules)

/-- `appendTargetGraphemes` (lines 58–66): the last grapheme may grow. -/
def appendTargetGraphemes (graphemes : List String) (suffix : String) : List String :=
  match graphemes.getLast? with
  | none => rules.segmentText suffix
  | some last => graphemes.dropLast ++ rules.segmentText (last ++ suffix)

/-- `expectedVisibleText` (lines 157–159). -/
def expectedVisibleText (state : StreamState) : String :=
  joinText (state.targetGraphemes.take state.visibleCount)

/-- `isDrained` (lines 161–163). -/
def isDrained (state : StreamState) : Bool :=
  state.targetGraphemes.length ≤ state.visibleCount && state.visibleText = state.targetText

/-- A partial without a stream (lines 191–206). -/
def opened (view : TimelinePartialView) : StreamState :=
  let targetText := partialText view.shown
  let targetGraphemes := rules.segmentText targetText
  let immediate := streamsImmediately view.shown
  let visibleCount := if immediate then targetGraphemes.length else min 2 targetGraphemes.length
  { view, targetText, targetGraphemes, visibleCount,
    visibleText := joinText (targetGraphemes.take visibleCount)
    ticks := if immediate then drainTicks else 0
    seen := true }

/-- A partial whose stream is held (lines 208–239), with whether it needs a snapshot. -/
def updated (existing : StreamState) (view : TimelinePartialView) : StreamState × Bool :=
  let targetText := partialText view.shown
  let immediate := streamsImmediately view.shown
  let targetGraphemes := rules.segmentText targetText
  let taken := { existing with view, targetText, seen := true }
  if existing.targetText ≠ targetText then
    if immediate then
      ({ taken with
          targetGraphemes
          visibleCount := targetGraphemes.length
          visibleText := targetText
          ticks := drainTicks }, true)
    else if existing.targetText.toList <+: targetText.toList then
      let suffix := String.ofList (targetText.toList.drop existing.targetText.toList.length)
      let appended := appendTargetGraphemes rules existing.targetGraphemes suffix
      ({ taken with
          targetGraphemes := appended
          visibleCount := min existing.visibleCount appended.length
          ticks := 0 }, false)
    else
      let visibleCount := min 2 targetGraphemes.length
      ({ taken with
          targetGraphemes, visibleCount
          visibleText := joinText (targetGraphemes.take visibleCount)
          ticks := 0 }, true)
  else if immediate && !streamsImmediately existing.view.shown then
    ({ taken with
        visibleCount := existing.targetGraphemes.length
        visibleText := targetText
        ticks := drainTicks }, true)
  else (taken, false)

/-- The stream of a partial, given the stream held under its id. -/
def received (existing : Option StreamState) (view : TimelinePartialView) : StreamState × Bool :=
  match existing with
  | none => (opened rules view, true)
  | some existing => updated rules existing view

/-- How many graphemes the next tick shows (lines 292–297). -/
def release (state : StreamState) : ℕ :=
  let backlog := state.targetGraphemes.length - state.visibleCount
  let ticksLeft := max 1 (drainTicks + 1 - (state.ticks + 1))
  min maxReleasePerTick (max 1 ((backlog + ticksLeft - 1) / ticksLeft))

/-- One tick (lines 291–304), with whether it changed the stream. -/
def advanced (state : StreamState) : StreamState × Bool :=
  if 0 < state.targetGraphemes.length - state.visibleCount then
    let state := { state with
      ticks := state.ticks + 1
      visibleCount := min state.targetGraphemes.length (state.visibleCount + state.release) }
    ({ state with visibleText := state.expectedVisibleText }, true)
  else if state.visibleText ≠ state.expectedVisibleText then
    ({ state with visibleText := state.expectedVisibleText }, true)
  else (state, false)

/-- A partial of `reset` (lines 265–275). -/
def restarted (view : TimelinePartialView) : StreamState :=
  let targetText := partialText view.shown
  let targetGraphemes := rules.segmentText targetText
  { view, targetText, targetGraphemes
    visibleCount := targetGraphemes.length
    visibleText := targetText
    ticks := drainTicks
    seen := true }

/-- `projectedPartial` (lines 150–155). -/
def projectedPartial (state : StreamState) : TimelinePartialView :=
  if state.view.shown.blocks.isSome then state.view
  else { state.view with shown := { state.view.shown with delta := some state.visibleText } }

end StreamState

/-! ## The buffer -/

/-- The fields of the class (lines 170–173). -/
structure StreamDisplayBuffer where
  authoritative : List TimelineViewItem
  displayed : List TimelineViewItem
  renderedNonStreamTokens : List NonStreamToken
  streams : OrderedMap String StreamState
deriving DecidableEq

/-- `StreamDisplayBufferChange` (lines 34–38). -/
structure StreamDisplayBufferChange where
  items : List TimelineViewItem
  shouldRender : Bool
  hasPending : Bool
deriving DecidableEq

namespace StreamDisplayBuffer

variable (rules : TextRules)

/-- A new buffer. -/
def initial : StreamDisplayBuffer := ⟨[], [], [], .empty⟩

def formalOf (items : List TimelineViewItem) : List TimelineEvent :=
  items.filterMap TimelineViewItem.event?

/-- `formalEvents` (lines 320–324). -/
def formalEvents (b : StreamDisplayBuffer) : List TimelineEvent := formalOf b.authoritative

/-- Whether the partial of a stream matches one of the events. -/
def isFormal (events : List TimelineEvent) (state : StreamState) : Bool :=
  events.any fun event => matchesFormal state.view.shown event

/-- Whether `buildSnapshot` hides an event (line 330). -/
def hides (b : StreamDisplayBuffer) (event : TimelineEvent) : Bool :=
  b.streams.values.any fun state => matchesFormal state.view.shown event

/-- One item of the loop of `buildSnapshot` (lines 328–340). -/
def shownItem (b : StreamDisplayBuffer) (item : TimelineViewItem) : Option TimelineViewItem :=
  match item with
  | .event _ e => if b.hides e then none else some item
  | .pending _ _ => some item
  | .streaming view =>
    (b.streams.get? view.shown.partialId).map fun state => .streaming state.projectedPartial

/-- `buildSnapshot` (lines 326–346). -/
def buildSnapshot (b : StreamDisplayBuffer) : List TimelineViewItem :=
  let left := b.streams.values.filter fun state => !state.seen && isFormal b.formalEvents state
  (b.authoritative.filterMap b.shownItem ++
    left.map fun state => TimelineViewItem.streaming state.projectedPartial).insertionSort
      (TimelineViewItem.compareItems rules)

/-- `rebuild` (lines 348–352); it is always called to force a render. -/
def rebuild (b : StreamDisplayBuffer) : StreamDisplayBuffer :=
  { b with
    displayed := b.buildSnapshot rules
    renderedNonStreamTokens := nonStreamTokens b.authoritative }

/-- `hasPending` (lines 316–318). -/
def hasPending (b : StreamDisplayBuffer) : Bool := b.streams.values.any fun state => !state.isDrained

/-- What `unchanged` and `change` return (lines 354–364). -/
def change (b : StreamDisplayBuffer) (shouldRender : Bool) :
    StreamDisplayBuffer × StreamDisplayBufferChange :=
  (b, ⟨b.displayed, shouldRender, b.hasPending⟩)

/-- `currentPartials` (lines 179–183): of partials with one id the last one counts. -/
def currentPartials (items : List TimelineViewItem) : OrderedMap String TimelinePartialView :=
  (items.filterMap TimelineViewItem.streaming?).foldl
    (fun m view => m.set view.shown.partialId view) .empty

/-- One partial of `ingest` (lines 188–239). -/
def ingestPartial (acc : OrderedMap String StreamState × Bool) (view : TimelinePartialView) :
    OrderedMap String StreamState × Bool :=
  let next := StreamState.received rules (acc.1.get? view.shown.partialId) view
  (acc.1.set view.shown.partialId next.1, acc.2 || next.2)

/-- The streams that the second loop of `ingest` deletes (lines 242–253). -/
def dropped (events : List TimelineEvent) (state : StreamState) : Bool :=
  if isFormal events state then state.isDrained else !state.seen

/-- The first loops of `ingest` (lines 184–240). -/
def takePartials (b : StreamDisplayBuffer) (authoritative : List TimelineViewItem) :
    OrderedMap String StreamState × Bool :=
  let changed := decide (b.renderedNonStreamTokens ≠ nonStreamTokens authoritative)
  let unseen := b.streams.mapValues fun _ state => { state with seen := false }
  (currentPartials authoritative).values.foldl (ingestPartial rules) (unseen, changed)

/-- `ingest` (lines 175–257). -/
def ingest (b : StreamDisplayBuffer) (authoritative : List TimelineViewItem) :
    StreamDisplayBuffer × StreamDisplayBufferChange :=
  let events := formalOf authoritative
  let taken := b.takePartials rules authoritative
  let kept := taken.1.filter fun _ state => !dropped events state
  let b := { b with authoritative, streams := kept }
  if taken.2 || taken.1.values.any (dropped events) then change (b.rebuild rules) true
  else change b false

/-- The loop of `reset` over the partials (lines 264–276). -/
def restartStreams (views : List TimelinePartialView) (streams : OrderedMap String StreamState) :
    OrderedMap String StreamState :=
  views.foldl (fun m view => m.set view.shown.partialId (StreamState.restarted rules view)) streams

/-- `reset` (lines 259–282). -/
def reset (b : StreamDisplayBuffer) (authoritative : List TimelineViewItem) :
    StreamDisplayBuffer × StreamDisplayBufferChange :=
  let streams :=
    restartStreams rules (authoritative.filterMap TimelineViewItem.streaming?) .empty
  let kept := streams.filter fun _ state => !isFormal (formalOf authoritative) state
  change (rebuild rules { b with authoritative, streams := kept }) true

/-- The streams that `advance` deletes (lines 306–311). -/
def done (events : List TimelineEvent) (state : StreamState) : Bool :=
  isFormal events state && state.isDrained

/-- `advance` (lines 288–314). -/
def advance (b : StreamDisplayBuffer) : StreamDisplayBuffer × StreamDisplayBufferChange :=
  let changed := b.streams.values.any fun state => state.advanced.2
  let streams := b.streams.mapValues fun _ state => state.advanced.1
  let events := b.formalEvents
  let b := { b with streams := streams.filter fun _ state => !done events state }
  if changed || streams.values.any (done events) then change (b.rebuild rules) true
  else change b false

inductive Operation where
  | ingest (authoritative : List TimelineViewItem)
  | reset (authoritative : List TimelineViewItem)
  | advance
deriving DecidableEq

def step (b : StreamDisplayBuffer) (op : Operation) : Option StreamDisplayBuffer :=
  match op with
  | .ingest authoritative => some (b.ingest rules authoritative).1
  | .reset authoritative => some (b.reset rules authoritative).1
  | .advance => some (b.advance rules).1

end StreamDisplayBuffer

/-! ## Text in portions -/

theorem toList_joinText (segments : List String) :
    (joinText segments).toList = segments.flatMap String.toList := by
  rw [joinText, String.toList_ofList]

theorem joinText_append (a b : List String) : joinText (a ++ b) = joinText a ++ joinText b := by
  rw [← String.toList_inj, String.toList_append, toList_joinText, toList_joinText, toList_joinText,
    List.flatMap_append]

theorem joinText_take_prefix (n : ℕ) (segments : List String) :
    (joinText (segments.take n)).toList <+: (joinText segments).toList := by
  refine ⟨(joinText (segments.drop n)).toList, ?_⟩
  rw [← String.toList_append, ← joinText_append, List.take_append_drop]

namespace StreamState

variable {rules : TextRules}

theorem joinText_appendTargetGraphemes (graphemes : List String) (suffix : String) :
    joinText (appendTargetGraphemes rules graphemes suffix) = joinText graphemes ++ suffix := by
  unfold appendTargetGraphemes
  rcases List.eq_nil_or_concat graphemes with rfl | ⟨start, last, rfl⟩
  · rw [List.getLast?_nil]
    dsimp only
    rw [rules.join_segmentText]
    simp [joinText]
  · rw [List.concat_eq_append, List.getLast?_append, List.getLast?_singleton, Option.some_or]
    dsimp only
    have hlast : joinText [last] = last := by simp [joinText]
    rw [List.dropLast_concat, joinText_append, joinText_append, rules.join_segmentText, hlast,
      String.append_assoc]

/-- What every stream keeps: its graphemes make up the text of its partial, and the
    visible text is a beginning of it. -/
structure Sound (state : StreamState) : Prop where
  target : partialText state.view.shown = state.targetText
  joined : joinText state.targetGraphemes = state.targetText
  visible : state.visibleText.toList <+: state.targetText.toList
  counted : state.visibleCount ≤ state.targetGraphemes.length
  immediate : streamsImmediately state.view.shown = true → state.isDrained = true

theorem isDrained_iff {state : StreamState} : state.isDrained = true ↔
    state.targetGraphemes.length ≤ state.visibleCount ∧ state.visibleText = state.targetText := by
  unfold isDrained
  rw [Bool.and_eq_true, decide_eq_true_eq, decide_eq_true_eq]

@[simp] theorem view_received (existing : Option StreamState) (view : TimelinePartialView) :
    (received rules existing view).1.view = view := by
  cases existing with
  | none => rfl
  | some existing =>
    unfold received updated
    dsimp only
    split_ifs <;> rfl

theorem sound_opened (view : TimelinePartialView) : (opened rules view).Sound where
  target := rfl
  joined := rules.join_segmentText _
  visible := by
    have h := joinText_take_prefix (opened rules view).visibleCount
      (rules.segmentText (partialText view.shown))
    rwa [rules.join_segmentText] at h
  counted := by
    unfold opened
    dsimp only
    split_ifs
    · exact Nat.le_refl _
    · exact Nat.min_le_right _ _
  immediate := by
    intro h
    rw [isDrained_iff]
    have h' : streamsImmediately view.shown = true := h
    unfold opened
    dsimp only
    rw [if_pos h']
    exact ⟨Nat.le_refl _, by rw [List.take_length, rules.join_segmentText]⟩

theorem sound_restarted (view : TimelinePartialView) : (restarted rules view).Sound where
  target := rfl
  joined := rules.join_segmentText _
  visible := List.prefix_refl _
  counted := Nat.le_refl _
  immediate := fun _ => isDrained_iff.mpr ⟨Nat.le_refl _, rfl⟩

/-- The text of a partial goes on where the target of its stream ends. -/
theorem append_suffix {a b : String} (h : a.toList <+: b.toList) :
    a ++ String.ofList (b.toList.drop a.toList.length) = b := by
  obtain ⟨rest, hrest⟩ := h
  rw [← String.toList_inj, String.toList_append, String.toList_ofList, ← hrest,
    List.drop_left]

theorem sound_updated {existing : StreamState} (h : existing.Sound) (view : TimelinePartialView) :
    (updated rules existing view).1.Sound := by
  unfold updated
  dsimp only
  split_ifs with hchanged himmediate hstarts hfirst
  · exact ⟨rfl, rules.join_segmentText _, List.prefix_refl _, Nat.le_refl _,
      fun _ => isDrained_iff.mpr ⟨Nat.le_refl _, rfl⟩⟩
  · refine ⟨rfl, ?_, h.visible.trans hstarts, Nat.min_le_right _ _, fun h' => absurd h' himmediate⟩
    dsimp only
    rw [joinText_appendTargetGraphemes, h.joined, append_suffix hstarts]
  · refine ⟨rfl, rules.join_segmentText _, ?_, Nat.min_le_right _ _, fun h' => absurd h' himmediate⟩
    have htake := joinText_take_prefix
      (min 2 (rules.segmentText (partialText view.shown)).length)
      (rules.segmentText (partialText view.shown))
    rwa [rules.join_segmentText] at htake
  · rw [ne_eq, not_not] at hchanged
    exact ⟨rfl, h.joined.trans hchanged, List.prefix_refl _, Nat.le_refl _,
      fun _ => isDrained_iff.mpr ⟨Nat.le_refl _, rfl⟩⟩
  · rw [ne_eq, not_not] at hchanged
    refine ⟨rfl, h.joined.trans hchanged, hchanged ▸ h.visible, h.counted, fun h' => ?_⟩
    -- A stream that shows its text at once was drained before.
    have hbefore : streamsImmediately existing.view.shown = true := by
      by_contra hno
      exact hfirst (by simpa [h'] using hno)
    obtain ⟨hlen, hvisible⟩ := isDrained_iff.mp (h.immediate hbefore)
    exact isDrained_iff.mpr ⟨hlen, hvisible.trans hchanged⟩

theorem sound_received {existing : Option StreamState} (h : ∀ s, existing = some s → s.Sound)
    (view : TimelinePartialView) : (received rules existing view).1.Sound := by
  cases existing with
  | none => exact sound_opened view
  | some existing => exact sound_updated (h existing rfl) view

/-- The partials whose text is shown in full as soon as they are taken over. -/
def ShownAtOnce (rules : TextRules) (existing : Option StreamState) (view : TimelinePartialView) :
    Prop :=
  streamsImmediately view.shown = true ∨
    match existing with
    | none => (rules.segmentText (partialText view.shown)).length ≤ 2
    | some existing =>
      if existing.targetText = partialText view.shown then existing.isDrained = true
      else ¬existing.targetText.toList <+: (partialText view.shown).toList ∧
        (rules.segmentText (partialText view.shown)).length ≤ 2

theorem isDrained_opened (view : TimelinePartialView) :
    (opened rules view).isDrained = true ↔ ShownAtOnce rules none view := by
  unfold ShownAtOnce
  dsimp only
  by_cases himmediate : streamsImmediately view.shown = true
  · exact iff_of_true ((sound_opened view).immediate himmediate) (Or.inl himmediate)
  · rw [isDrained_iff, or_iff_right himmediate]
    unfold opened
    dsimp only
    rw [if_neg himmediate]
    constructor
    · rintro ⟨hlen, -⟩
      omega
    · intro hlen
      rw [Nat.min_eq_right hlen, List.take_length, rules.join_segmentText]
      exact ⟨Nat.le_refl _, rfl⟩

theorem isDrained_updated {existing : StreamState} (h : existing.Sound)
    (view : TimelinePartialView) :
    (updated rules existing view).1.isDrained = true ↔ ShownAtOnce rules (some existing) view := by
  by_cases himmediate : streamsImmediately view.shown = true
  · refine iff_of_true ((sound_updated h view).immediate ?_) (Or.inl himmediate)
    have hview : (updated rules existing view).1.view = view := view_received (some existing) view
    rw [hview]
    exact himmediate
  · unfold ShownAtOnce
    dsimp only
    rw [or_iff_right himmediate, isDrained_iff]
    unfold updated
    dsimp only
    by_cases hchanged : existing.targetText = partialText view.shown
    · have hfirst : (streamsImmediately view.shown &&
          !streamsImmediately existing.view.shown) = false := by simp [himmediate]
      rw [if_pos hchanged, if_neg (not_not.mpr hchanged), if_neg (by simp [hfirst]), isDrained_iff,
        hchanged]
    · rw [if_neg hchanged, if_pos hchanged, if_neg himmediate]
      by_cases hstarts : existing.targetText.toList <+: (partialText view.shown).toList
      · rw [if_pos hstarts]
        refine iff_of_false ?_ (fun h' => h'.1 hstarts)
        -- What was visible is no longer than the old text.
        rintro ⟨-, hvisible⟩
        have hlen := h.visible.length_le
        dsimp only at hvisible
        rw [hvisible] at hlen
        exact hchanged (String.toList_inj.mp (hstarts.eq_of_length_le hlen))
      · rw [if_neg hstarts]
        dsimp only
        constructor
        · rintro ⟨hlen, -⟩
          exact ⟨hstarts, by omega⟩
        · rintro ⟨-, hlen⟩
          rw [Nat.min_eq_right hlen, List.take_length, rules.join_segmentText]
          exact ⟨Nat.le_refl _, rfl⟩

/-- The streams that taking over a partial leaves draining. -/
theorem isDrained_received {existing : Option StreamState} (h : ∀ s, existing = some s → s.Sound)
    (view : TimelinePartialView) :
    (received rules existing view).1.isDrained = true ↔ ShownAtOnce rules existing view := by
  cases existing with
  | none => exact isDrained_opened view
  | some existing => exact isDrained_updated (h existing rfl) view

theorem exists_of_received {existing : Option StreamState} {view : TimelinePartialView}
    (h : (received rules existing view).2 = false) : ∃ state, existing = some state := by
  cases existing with
  | none => cases h
  | some state => exact ⟨state, rfl⟩

@[simp] theorem view_advanced (state : StreamState) : state.advanced.1.view = state.view := by
  unfold advanced
  split_ifs <;> rfl

theorem advanced_of_unchanged {state : StreamState} (h : state.advanced.2 = false) :
    state.advanced.1 = state := by
  unfold advanced at h ⊢
  split_ifs at h ⊢
  rfl

theorem sound_advanced {state : StreamState} (h : state.Sound) : state.advanced.1.Sound := by
  have hstarts := fun n => joinText_take_prefix n state.targetGraphemes
  rw [h.joined] at hstarts
  have himmediate := h.immediate
  unfold advanced
  split_ifs with hbacklog hvisible
  · refine ⟨h.target, h.joined, hstarts _, Nat.min_le_left _ _, fun h' => ?_⟩
    have := (isDrained_iff.mp (himmediate h')).1
    omega
  · refine ⟨h.target, h.joined, hstarts _, h.counted, fun h' => ?_⟩
    obtain ⟨hlen, -⟩ := isDrained_iff.mp (himmediate h')
    refine isDrained_iff.mpr ⟨hlen, ?_⟩
    show joinText (state.targetGraphemes.take state.visibleCount) = state.targetText
    rw [List.take_of_length_le hlen, h.joined]
  · exact h

end StreamState

/-! ## Which events are shown -/

/-- The kind of a partial as its id names it. -/
def PartialKind.name : PartialKind → String
  | .assistant => "assistant"
  | .thinking => "thinking"
  | .tool _ _ => "tool"

/-- The partial is one of the event's own message: its id is the event's id with its kind
    and a content index. -/
def OfMessage (shown : TimelinePartial) (event : TimelineEvent) : Prop :=
  ∃ index : ℕ, shown.partialId = event.eventId ++ ":" ++ shown.kind.name ++ ":" ++ toString index

theorem mem_event_iff_token {items : List TimelineViewItem} {ref : ℕ} {event : TimelineEvent} :
    .event ref event ∈ items ↔ .event ref event ∈ nonStreamTokens items := by
  unfold nonStreamTokens
  rw [List.mem_filterMap]
  constructor
  · intro h
    exact ⟨_, h, rfl⟩
  · rintro ⟨item, hitem, htoken⟩
    cases item with
    | event ref' event' =>
      cases htoken
      exact hitem
    | pending images p => cases htoken
    | streaming view => cases htoken

namespace StreamDisplayBuffer

variable {rules : TextRules}

theorem mem_formalOf {items : List TimelineViewItem} {event : TimelineEvent} :
    event ∈ formalOf items ↔ ∃ ref, .event ref event ∈ items := by
  unfold formalOf
  rw [List.mem_filterMap]
  constructor
  · rintro ⟨item, hitem, hevent⟩
    cases item with
    | event ref event' =>
      cases hevent
      exact ⟨ref, hitem⟩
    | pending images p => cases hevent
    | streaming view => cases hevent
  · rintro ⟨ref, h⟩
    exact ⟨_, h, rfl⟩

theorem isFormal_iff {events : List TimelineEvent} {state : StreamState} :
    isFormal events state = true ↔ ∃ e ∈ events, matchesFormal state.view.shown e = true := by
  unfold isFormal
  rw [List.any_eq_true]

theorem hides_iff {b : StreamDisplayBuffer} {event : TimelineEvent} : b.hides event = true ↔
    ∃ id state, b.streams.get? id = some state ∧ matchesFormal state.view.shown event = true :=
  OrderedMap.any_values

/-- A rebuilt display shows the events that no stream matches. -/
theorem displayed_rebuild {b : StreamDisplayBuffer} {ref : ℕ} {event : TimelineEvent} :
    .event ref event ∈ (b.rebuild rules).displayed ↔
      .event ref event ∈ b.authoritative ∧ b.hides event = false := by
  show _ ∈ b.buildSnapshot rules ↔ _
  unfold buildSnapshot
  rw [List.mem_insertionSort, List.mem_append, List.mem_filterMap]
  constructor
  · rintro (⟨item, hitem, hshown⟩ | h)
    · cases item with
      | event ref' event' =>
        unfold shownItem at hshown
        dsimp only at hshown
        split_ifs at hshown with hhidden
        cases hshown
        exact ⟨hitem, by simpa using hhidden⟩
      | pending images p => cases hshown
      | streaming view =>
        unfold shownItem at hshown
        obtain ⟨state, -, heq⟩ := Option.map_eq_some_iff.mp hshown
        cases heq
    · obtain ⟨state, -, heq⟩ := List.mem_map.mp h
      cases heq
  · rintro ⟨hitem, hshown⟩
    refine Or.inl ⟨_, hitem, ?_⟩
    unfold shownItem
    dsimp only
    rw [hshown, if_neg Bool.false_ne_true]

/-! ## Taking over partials -/

theorem currentPartials_key {items : List TimelineViewItem} {id : String}
    {view : TimelinePartialView} (h : (currentPartials items).get? id = some view) :
    view.shown.partialId = id := by
  have hfold : ∀ (views : List TimelinePartialView) (m : OrderedMap String TimelinePartialView),
      (∀ id view, m.get? id = some view → view.shown.partialId = id) →
      ∀ id view, (views.foldl (fun m view => m.set view.shown.partialId view) m).get? id =
        some view → view.shown.partialId = id := by
    intro views
    induction views with
    | nil => exact fun m hm => hm
    | cons next views ih =>
      intro m hm
      refine ih _ fun id view hget => ?_
      rw [OrderedMap.get?_set] at hget
      split_ifs at hget with hid
      · cases hget
        exact hid.symm
      · exact hm id view hget
  exact hfold _ _ (fun id view hget => by cases hget) id view h

theorem currentPartials_ids (items : List TimelineViewItem) :
    (currentPartials items).values.map (fun view => view.shown.partialId) =
      (currentPartials items).keys := by
  unfold OrderedMap.values OrderedMap.keys
  rw [List.map_map]
  refine List.map_congr_left fun entry hentry => ?_
  exact currentPartials_key (OrderedMap.mem_entries_iff.mp hentry)

theorem mem_currentPartials {items : List TimelineViewItem} {view : TimelinePartialView} :
    view ∈ (currentPartials items).values ↔
      (currentPartials items).get? view.shown.partialId = some view := by
  constructor
  · intro h
    obtain ⟨⟨id, view⟩, hentry, rfl⟩ := List.mem_map.mp h
    have hget := OrderedMap.mem_entries_iff.mp hentry
    rw [currentPartials_key hget]
    exact hget
  · intro h
    exact List.mem_map.mpr ⟨_, OrderedMap.mem_entries_iff.mpr h, rfl⟩

/-- The streams after the first loop of `ingest`, and when it needs no snapshot. -/
theorem ingestPartial_foldl (views : List TimelinePartialView)
    (hn : (views.map fun view => view.shown.partialId).Nodup)
    (acc : OrderedMap String StreamState × Bool) :
    (∀ view ∈ views, (views.foldl (ingestPartial rules) acc).1.get? view.shown.partialId =
      some (StreamState.received rules (acc.1.get? view.shown.partialId) view).1) ∧
    (∀ id, id ∉ views.map (fun view => view.shown.partialId) →
      (views.foldl (ingestPartial rules) acc).1.get? id = acc.1.get? id) ∧
    ((views.foldl (ingestPartial rules) acc).2 = false → acc.2 = false ∧ ∀ view ∈ views,
      (StreamState.received rules (acc.1.get? view.shown.partialId) view).2 = false) := by
  induction views generalizing acc with
  | nil => simp
  | cons view views ih =>
    rw [List.map_cons, List.nodup_cons] at hn
    obtain ⟨hhas, hkeeps, hflag⟩ := ih hn.2 (ingestPartial rules acc view)
    have hother : ∀ id, id ≠ view.shown.partialId →
        (ingestPartial rules acc view).1.get? id = acc.1.get? id :=
      fun id hid => OrderedMap.get?_set_of_ne _ _ hid
    have hne : ∀ next ∈ views, next.shown.partialId ≠ view.shown.partialId :=
      fun next hnext heq => hn.1 (heq ▸ List.mem_map_of_mem hnext)
    rw [List.foldl_cons]
    refine ⟨fun next hnext => ?_, fun id hid => ?_, fun h => ?_⟩
    · rcases List.mem_cons.mp hnext with rfl | hnext
      · rw [hkeeps _ hn.1]
        exact OrderedMap.get?_set_self _ _ _
      · rw [hhas next hnext, hother _ (hne next hnext)]
    · rw [List.map_cons, List.mem_cons, not_or] at hid
      rw [hkeeps id hid.2, hother id hid.1]
    · obtain ⟨hacc, hviews⟩ := hflag h
      obtain ⟨hacc, hview⟩ := Bool.or_eq_false_iff.mp hacc
      refine ⟨hacc, fun next hnext => ?_⟩
      rcases List.mem_cons.mp hnext with rfl | hnext
      · exact hview
      · rw [← hother _ (hne next hnext)]
        exact hviews next hnext

/-! ## Runs -/

/-- Every formal event of the item list is shown, or a stream of its message is still
    draining. -/
def ShowsEvents (b : StreamDisplayBuffer) : Prop :=
  ∀ ref event, .event ref event ∈ b.authoritative →
    .event ref event ∈ b.displayed ∨
      ∃ state ∈ b.streams.values, OfMessage state.view.shown event ∧ state.isDrained = false

/-- No stream that an ingest leaves draining has the group and kind of a formal event of
    another message, and a partial whose stream is held matches the events that it matched. -/
def KeepsApart (rules : TextRules) (b : StreamDisplayBuffer) (op : Operation) : Prop :=
  match op with
  | .ingest items =>
    (∀ view ∈ (currentPartials items).values,
      (∀ state, b.streams.get? view.shown.partialId = some state →
        ∀ event ∈ formalOf items,
          matchesFormal state.view.shown event = matchesFormal view.shown event) ∧
      (StreamState.ShownAtOnce rules (b.streams.get? view.shown.partialId) view ∨
        ∀ event ∈ formalOf items, matchesFormal view.shown event = true →
          OfMessage view.shown event)) ∧
    ∀ entry ∈ b.streams.entries, (currentPartials items).get? entry.1 = none →
      entry.2.isDrained = true ∨ ∀ event ∈ formalOf items,
        matchesFormal entry.2.view.shown event = true → OfMessage entry.2.view.shown event
  | .reset _ => True
  | .advance => True

/-- What holds in every state of a run that keeps apart. -/
structure Inv (b : StreamDisplayBuffer) : Prop where
  sound : ∀ id state, b.streams.get? id = some state → state.Sound
  tokens : b.renderedNonStreamTokens = nonStreamTokens b.authoritative
  /-- A stream that matches a formal event is draining and of the event's message. -/
  matched : ∀ id state event, b.streams.get? id = some state → event ∈ b.formalEvents →
    matchesFormal state.view.shown event = true →
      state.isDrained = false ∧ OfMessage state.view.shown event
  displayed : ∀ ref event, .event ref event ∈ b.displayed ↔
    .event ref event ∈ b.authoritative ∧ b.hides event = false

theorem Inv.showsEvents {b : StreamDisplayBuffer} (h : b.Inv) : b.ShowsEvents := by
  intro ref event hmem
  cases hhides : b.hides event with
  | false => exact Or.inl ((h.displayed ref event).mpr ⟨hmem, hhides⟩)
  | true =>
    obtain ⟨id, state, hget, hmatch⟩ := hides_iff.mp hhides
    obtain ⟨hdraining, hof⟩ :=
      h.matched id state event hget (mem_formalOf.mpr ⟨ref, hmem⟩) hmatch
    exact Or.inr ⟨state, List.mem_map.mpr ⟨(id, state), OrderedMap.mem_entries_iff.mpr hget, rfl⟩,
      hof, hdraining⟩

theorem inv_initial : initial.Inv where
  sound := fun id state h => by cases h
  tokens := rfl
  matched := fun id state event h => by cases h
  displayed := fun ref event => by simp [initial]

/-- Rebuilding the display brings it in line with the streams. -/
theorem inv_rebuild {b : StreamDisplayBuffer}
    (hsound : ∀ id state, b.streams.get? id = some state → state.Sound)
    (hmatched : ∀ id state event, b.streams.get? id = some state → event ∈ b.formalEvents →
      matchesFormal state.view.shown event = true →
        state.isDrained = false ∧ OfMessage state.view.shown event) : (b.rebuild rules).Inv :=
  ⟨hsound, rfl, hmatched, fun _ _ => displayed_rebuild⟩

/-- A display that is not rebuilt still fits streams that match the same events. -/
theorem Inv.displayed_of_hides {b b' : StreamDisplayBuffer} (h : b.Inv)
    (htokens : nonStreamTokens b'.authoritative = nonStreamTokens b.authoritative)
    (hdisplayed : b'.displayed = b.displayed)
    (hhides : ∀ event ∈ b'.formalEvents, b'.hides event = b.hides event)
    (ref : ℕ) (event : TimelineEvent) : .event ref event ∈ b'.displayed ↔
      .event ref event ∈ b'.authoritative ∧ b'.hides event = false := by
  have hitems : TimelineViewItem.event ref event ∈ b'.authoritative ↔
      TimelineViewItem.event ref event ∈ b.authoritative := by
    rw [mem_event_iff_token, htokens, ← mem_event_iff_token]
  rw [hdisplayed, h.displayed, hitems]
  refine and_congr_right fun hmem => ?_
  rw [hhides event (mem_formalOf.mpr ⟨ref, hitems.mpr hmem⟩)]

/-! ### Ticks -/

/-- The streams after a tick. -/
theorem get?_afterTick {b : StreamDisplayBuffer} {id : String} {state : StreamState}
    (h : ((b.streams.mapValues fun _ state => state.advanced.1).filter fun _ state =>
      !done b.formalEvents state).get? id = some state) :
    ∃ before, b.streams.get? id = some before ∧ state = before.advanced.1 ∧
      done b.formalEvents state = false := by
  rw [OrderedMap.get?_filter, OrderedMap.get?_mapValues, Option.filter_eq_some_iff,
    Option.map_eq_some_iff] at h
  obtain ⟨⟨before, hbefore, rfl⟩, hkeep⟩ := h
  exact ⟨before, hbefore, rfl, Bool.not_eq_eq_eq_not.mp hkeep⟩

/-- A tick rebuilds the display over the advanced streams, or it changes nothing. -/
theorem advance_cases (b : StreamDisplayBuffer) :
    (b.advance rules).1 = rebuild rules { b with
      streams := (b.streams.mapValues fun _ state => state.advanced.1).filter fun _ state =>
        !done b.formalEvents state } ∨
    (b.advance rules).1 = b ∧ ∀ state ∈ b.streams.values, state.advanced.2 = false := by
  unfold advance change
  dsimp only
  split_ifs with hchanged
  · exact Or.inl rfl
  · refine Or.inr ?_
    rw [Bool.not_eq_true, Bool.or_eq_false_iff] at hchanged
    have hstill : ∀ state ∈ b.streams.values, state.advanced.2 = false := fun state hstate => by
      simpa using List.any_eq_false.mp hchanged.1 state hstate
    have hsame : (b.streams.mapValues fun _ state => state.advanced.1) = b.streams := by
      refine OrderedMap.ext ((List.map_congr_left fun entry hentry => ?_).trans (List.map_id _))
      show (entry.1, entry.2.advanced.1) = entry
      rw [StreamState.advanced_of_unchanged (hstill _ (List.mem_map_of_mem hentry))]
    have hkept : (b.streams.filter fun _ state => !done b.formalEvents state) = b.streams := by
      refine OrderedMap.ext (List.filter_eq_self.mpr fun entry hentry => ?_)
      have hstate := List.any_eq_false.mp hchanged.2 entry.2
        (by rw [hsame]; exact List.mem_map_of_mem hentry)
      simpa using hstate
    rw [hsame, hkept]
    exact ⟨rfl, hstill⟩

theorem inv_advance {b : StreamDisplayBuffer} (h : b.Inv) : (b.advance rules).1.Inv := by
  rcases b.advance_cases with hrebuilt | ⟨hsame, -⟩
  · rw [hrebuilt]
    refine inv_rebuild (fun id state hget => ?_) (fun id state event hget hevent hmatch => ?_)
    · obtain ⟨before, hbefore, rfl, -⟩ := get?_afterTick hget
      exact StreamState.sound_advanced (h.sound id before hbefore)
    · obtain ⟨before, hbefore, rfl, hkeep⟩ := get?_afterTick hget
      have hformal : isFormal b.formalEvents before.advanced.1 = true :=
        isFormal_iff.mpr ⟨event, hevent, hmatch⟩
      rw [done, hformal, Bool.true_and] at hkeep
      rw [StreamState.view_advanced] at hmatch ⊢
      exact ⟨hkeep, (h.matched id before event hbefore hevent hmatch).2⟩
  · rw [hsame]
    exact h

/-! ### Resets -/

theorem sound_restartStreams (views : List TimelinePartialView) {m : OrderedMap String StreamState}
    (hm : ∀ id state, m.get? id = some state → state.Sound) {id : String} {state : StreamState}
    (hget : (restartStreams rules views m).get? id = some state) : state.Sound := by
  induction views generalizing m with
  | nil => exact hm id state hget
  | cons view views ih =>
    refine ih (fun id state hget => ?_) hget
    rw [OrderedMap.get?_set] at hget
    split_ifs at hget
    · cases hget
      exact StreamState.sound_restarted view
    · exact hm id state hget

/-- A reset keeps no stream that matches a formal event. -/
theorem inv_reset (b : StreamDisplayBuffer) (items : List TimelineViewItem) :
    (b.reset rules items).1.Inv := by
  refine inv_rebuild (fun id state hget => ?_) (fun id state event hget hevent hmatch => ?_)
  · refine sound_restartStreams _ (fun id state hget => ?_)
      (OrderedMap.get?_of_sublist List.filter_sublist hget)
    cases hget
  · rw [OrderedMap.get?_filter, Option.filter_eq_some_iff] at hget
    have hformal : isFormal (formalOf items) state = true := isFormal_iff.mpr ⟨event, hevent, hmatch⟩
    rw [hformal] at hget
    exact absurd hget.2 (by decide)

/-! ### Ingests -/

/-- The streams after the partials of an ingest have been taken over. -/
theorem get?_takePartials (b : StreamDisplayBuffer) (items : List TimelineViewItem) (id : String) :
    (b.takePartials rules items).1.get? id =
      match (currentPartials items).get? id with
      | some view => some (StreamState.received rules
          ((b.streams.get? id).map fun state => { state with seen := false }) view).1
      | none => (b.streams.get? id).map fun state => { state with seen := false } := by
  have hn : ((currentPartials items).values.map fun view => view.shown.partialId).Nodup := by
    rw [currentPartials_ids]
    exact (currentPartials items).nodup
  obtain ⟨hhas, hkeeps, -⟩ := @ingestPartial_foldl rules _ hn
    (b.streams.mapValues fun _ state => { state with seen := false },
      decide (b.renderedNonStreamTokens ≠ nonStreamTokens items))
  cases hview : (currentPartials items).get? id with
  | some view =>
    have hid := currentPartials_key hview
    subst hid
    have hmem := mem_currentPartials.mpr hview
    exact (hhas view hmem).trans (by rw [OrderedMap.get?_mapValues])
  | none =>
    refine (hkeeps id ?_).trans (OrderedMap.get?_mapValues _ _ _)
    rw [currentPartials_ids]
    exact OrderedMap.not_mem_keys_of_get? hview

/-- An ingest that needs no snapshot after its first loop needs none for any partial. -/
theorem received_of_unchanged {b : StreamDisplayBuffer} {items : List TimelineViewItem}
    (h : (b.takePartials rules items).2 = false) :
    b.renderedNonStreamTokens = nonStreamTokens items ∧
      ∀ id view, (currentPartials items).get? id = some view →
        (StreamState.received rules
          ((b.streams.get? id).map fun state => { state with seen := false }) view).2 = false := by
  have hn : ((currentPartials items).values.map fun view => view.shown.partialId).Nodup := by
    rw [currentPartials_ids]
    exact (currentPartials items).nodup
  obtain ⟨-, -, hflag⟩ := @ingestPartial_foldl rules _ hn
    (b.streams.mapValues fun _ state => { state with seen := false },
      decide (b.renderedNonStreamTokens ≠ nonStreamTokens items))
  obtain ⟨htokens, hviews⟩ := hflag h
  refine ⟨by simpa using htokens, fun id view hview => ?_⟩
  have hid := currentPartials_key hview
  subst hid
  have hreceived := hviews view (mem_currentPartials.mpr hview)
  rwa [OrderedMap.get?_mapValues] at hreceived

/-- An ingest that needs no snapshot after its first loop opens no stream. -/
theorem takePartials_unchanged {b : StreamDisplayBuffer} {items : List TimelineViewItem}
    (h : (b.takePartials rules items).2 = false) :
    b.renderedNonStreamTokens = nonStreamTokens items ∧
      ∀ view ∈ (currentPartials items).values,
        ∃ state, b.streams.get? view.shown.partialId = some state := by
  obtain ⟨htokens, hviews⟩ := received_of_unchanged h
  refine ⟨htokens, fun view hview => ?_⟩
  obtain ⟨state, hstate⟩ :=
    StreamState.exists_of_received (hviews _ view (mem_currentPartials.mp hview))
  obtain ⟨state, hstate, -⟩ := Option.map_eq_some_iff.mp hstate
  exact ⟨state, hstate⟩

/-- An ingest rebuilds the display over the streams that it keeps, or it needs no snapshot
    and deletes no stream. -/
theorem ingest_cases (b : StreamDisplayBuffer) (items : List TimelineViewItem) :
    (b.ingest rules items).1 = rebuild rules { b with
      authoritative := items
      streams := (b.takePartials rules items).1.filter fun _ state =>
        !dropped (formalOf items) state } ∨
    (b.takePartials rules items).2 = false ∧
      ((b.takePartials rules items).1.filter fun _ state => !dropped (formalOf items) state) =
        (b.takePartials rules items).1 ∧
      (b.ingest rules items).1 =
        { b with authoritative := items, streams := (b.takePartials rules items).1 } := by
  unfold ingest change
  dsimp only
  split_ifs with hchanged
  · exact Or.inl rfl
  · rw [Bool.not_eq_true, Bool.or_eq_false_iff] at hchanged
    have hkept : ((b.takePartials rules items).1.filter fun _ state =>
        !dropped (formalOf items) state) = (b.takePartials rules items).1 := by
      refine OrderedMap.ext (List.filter_eq_self.mpr fun entry hentry => ?_)
      have hstate := List.any_eq_false.mp hchanged.2 entry.2 (List.mem_map_of_mem hentry)
      simpa using hstate
    exact Or.inr ⟨hchanged.1, hkept, by rw [hkept]⟩

theorem sound_unseen {streams : OrderedMap String StreamState}
    (h : ∀ id state, streams.get? id = some state → state.Sound) {id : String} {state : StreamState}
    (hget : (streams.get? id).map (fun state => { state with seen := false }) = some state) :
    state.Sound := by
  obtain ⟨before, hbefore, rfl⟩ := Option.map_eq_some_iff.mp hget
  have hs := h id before hbefore
  exact ⟨hs.target, hs.joined, hs.visible, hs.counted, hs.immediate⟩

theorem shownAtOnce_unseen (existing : Option StreamState) (view : TimelinePartialView) :
    StreamState.ShownAtOnce rules (existing.map fun state => { state with seen := false }) view ↔
      StreamState.ShownAtOnce rules existing view := by
  cases existing <;> exact Iff.rfl

theorem sound_takePartials {b : StreamDisplayBuffer}
    (h : ∀ id state, b.streams.get? id = some state → state.Sound) {items : List TimelineViewItem}
    {id : String} {state : StreamState}
    (hget : (b.takePartials rules items).1.get? id = some state) : state.Sound := by
  rw [get?_takePartials] at hget
  cases hview : (currentPartials items).get? id with
  | none =>
    rw [hview] at hget
    exact sound_unseen h hget
  | some view =>
    rw [hview] at hget
    cases hget
    exact StreamState.sound_received (fun state hstate => sound_unseen h hstate) view

/-- Streams that are left draining match the events of their own message only. -/
theorem ofMessage_takePartials {b : StreamDisplayBuffer} (h : b.Inv)
    {items : List TimelineViewItem} (hok : KeepsApart rules b (.ingest items)) {id : String}
    {state : StreamState} (hget : (b.takePartials rules items).1.get? id = some state)
    (hdraining : state.isDrained = false) {event : TimelineEvent} (hevent : event ∈ formalOf items)
    (hmatch : matchesFormal state.view.shown event = true) :
    OfMessage state.view.shown event := by
  rw [get?_takePartials] at hget
  cases hview : (currentPartials items).get? id with
  | none =>
    rw [hview] at hget
    obtain ⟨before, hbefore, rfl⟩ := Option.map_eq_some_iff.mp hget
    rcases hok.2 (id, before) (OrderedMap.mem_entries_iff.mpr hbefore) hview with hdrained | hown
    · exact absurd hdrained (ne_true_of_eq_false hdraining)
    · exact hown event hevent hmatch
  | some view =>
    rw [hview] at hget
    cases hget
    have hid := currentPartials_key hview
    subst hid
    have hsound := fun state (hstate : (b.streams.get? view.shown.partialId).map
      (fun state => { state with seen := false }) = some state) => sound_unseen h.sound hstate
    rw [StreamState.view_received] at hmatch ⊢
    rcases (hok.1 view (mem_currentPartials.mpr hview)).2 with honce | hown
    · have hdrained := (StreamState.isDrained_received hsound view).mpr
        ((shownAtOnce_unseen _ view).mpr honce)
      exact absurd hdrained (ne_true_of_eq_false hdraining)
    · exact hown event hevent hmatch

/-- An ingest that rebuilds nothing leaves each stream with the events that it matched. -/
theorem matches_takePartials {b : StreamDisplayBuffer} {items : List TimelineViewItem}
    (hok : KeepsApart rules b (.ingest items)) (hflag : (b.takePartials rules items).2 = false)
    (id : String) {event : TimelineEvent} (hevent : event ∈ formalOf items) :
    (∃ state, (b.takePartials rules items).1.get? id = some state ∧
      matchesFormal state.view.shown event = true) ↔
    ∃ state, b.streams.get? id = some state ∧ matchesFormal state.view.shown event = true := by
  rw [get?_takePartials]
  cases hview : (currentPartials items).get? id with
  | none =>
    constructor
    · rintro ⟨state, hget, hmatch⟩
      obtain ⟨before, hbefore, rfl⟩ := Option.map_eq_some_iff.mp hget
      exact ⟨before, hbefore, hmatch⟩
    · rintro ⟨before, hbefore, hmatch⟩
      exact ⟨{ before with seen := false }, by rw [hbefore, Option.map_some], hmatch⟩
  | some view =>
    have hid := currentPartials_key hview
    subst hid
    have hmem := mem_currentPartials.mpr hview
    obtain ⟨state, hstate⟩ := (takePartials_unchanged hflag).2 view hmem
    have hsame := (hok.1 view hmem).1 state hstate event hevent
    constructor
    · rintro ⟨next, hget, hmatch⟩
      cases hget
      rw [StreamState.view_received, ← hsame] at hmatch
      exact ⟨state, hstate, hmatch⟩
    · rintro ⟨before, hbefore, hmatch⟩
      cases hstate.symm.trans hbefore
      exact ⟨_, rfl, by rwa [StreamState.view_received, ← hsame]⟩

theorem inv_ingest {b : StreamDisplayBuffer} (h : b.Inv) {items : List TimelineViewItem}
    (hok : KeepsApart rules b (.ingest items)) : (b.ingest rules items).1.Inv := by
  have hsound : ∀ id state, ((b.takePartials rules items).1.filter fun _ state =>
      !dropped (formalOf items) state).get? id = some state → state.Sound :=
    fun id state hget =>
      sound_takePartials h.sound (OrderedMap.get?_of_sublist List.filter_sublist hget)
  have hmatched : ∀ id state event, ((b.takePartials rules items).1.filter fun _ state =>
      !dropped (formalOf items) state).get? id = some state → event ∈ formalOf items →
      matchesFormal state.view.shown event = true →
        state.isDrained = false ∧ OfMessage state.view.shown event := by
    intro id state event hget hevent hmatch
    rw [OrderedMap.get?_filter, Option.filter_eq_some_iff] at hget
    have hformal : isFormal (formalOf items) state = true := isFormal_iff.mpr ⟨event, hevent, hmatch⟩
    have hdraining : state.isDrained = false := by
      have hkeep := hget.2
      rw [dropped, if_pos hformal] at hkeep
      exact Bool.not_eq_eq_eq_not.mp hkeep
    exact ⟨hdraining, ofMessage_takePartials h hok hget.1 hdraining hevent hmatch⟩
  rcases @ingest_cases rules b items with hrebuilt | ⟨hflag, hkept, hsame⟩
  · rw [hrebuilt]
    exact inv_rebuild hsound hmatched
  · obtain ⟨htokens, -⟩ := takePartials_unchanged hflag
    rw [hkept] at hsound hmatched
    rw [hsame]
    refine ⟨hsound, htokens, hmatched, h.displayed_of_hides (htokens.symm.trans h.tokens) rfl ?_⟩
    intro event hevent
    rw [Bool.eq_iff_iff, hides_iff, hides_iff]
    exact exists_congr fun id => matches_takePartials hok hflag id hevent

theorem inv_step (b : StreamDisplayBuffer) (op : Operation) (b' : StreamDisplayBuffer)
    (h : b.Inv) (hok : KeepsApart rules b op) (hstep : step rules b op = some b') : b'.Inv := by
  cases op with
  | ingest items =>
    cases hstep
    exact inv_ingest h hok
  | reset items =>
    cases hstep
    exact inv_reset b items
  | advance =>
    cases hstep
    exact inv_advance h

/-- In every state of a run whose ingests keep the streams apart from the events of other
    messages, each formal event is shown unless a stream of its message is draining. -/
theorem shown_or_draining (rules : TextRules) {ops : List Operation} {b : StreamDisplayBuffer}
    (hok : Along (step rules) (KeepsApart rules) initial ops)
    (h : run (step rules) initial ops = some b) : b.ShowsEvents :=
  (invariant_along inv_step inv_initial hok h).showsEvents

section Sample

/-- Text that may be cut between any two characters. -/
private def byCharacter : TextRules where
  segmentText text := text.toList.map String.singleton
  join_segmentText text := by
    rw [joinText, List.flatMap_map]
    simp
  localeLE a b := decide (a ≤ b)

/-- An assistant message of a run. -/
private def answer (id : String) : TimelineEvent :=
  ⟨id, "s", "h", 1, .assistant, some "g", []⟩

/-- A partial of an assistant message of the same run. -/
private def streamed (id text : String) : TimelinePartialView :=
  ⟨⟨"s", "h", "g", id, false, .assistant, none, none, some text, 0⟩, 2⟩

/-- A message that streams while its own event is already there is hidden until it has
    drained. -/
theorem shown_or_draining_own : ShowsEvents
    (initial.ingest byCharacter
      [.event 0 (answer "e"), .streaming (streamed "e:assistant:0" "Next")]).1 := by
  refine @shown_or_draining byCharacter [.ingest
    [.event 0 (answer "e"), .streaming (streamed "e:assistant:0" "Next")]] _ ⟨⟨?_, ?_⟩, ?_⟩ rfl
  · intro view hview
    have hsame : view = streamed "e:assistant:0" "Next" := List.mem_singleton.mp hview
    subst hsame
    refine ⟨fun state hstate => (by cases hstate), Or.inr fun event hevent _ => ?_⟩
    have hanswer : event = answer "e" := by
      simpa [formalOf, TimelineViewItem.event?] using hevent
    subst hanswer
    exact ⟨0, by decide⟩
  · intro entry hentry
    cases hentry
  · intro b _
    trivial

/-- The earlier answer of a run is hidden while the next one streams. -/
theorem earlier_answer_hidden : ¬∀ (rules : TextRules) (ops : List Operation)
    (b : StreamDisplayBuffer), run (step rules) initial ops = some b → b.ShowsEvents := by
  intro hclaim
  have h := hclaim byCharacter
    [.ingest [.event 0 (answer "e1"), .streaming (streamed "e2:assistant:0" "Next")]] _ rfl
  rcases h 0 (answer "e1") (by decide) with hshown | ⟨state, hstate, hof, -⟩
  · exact absurd hshown (by decide)
  · have hstreams : ((initial.ingest byCharacter [.event 0 (answer "e1"),
        .streaming (streamed "e2:assistant:0" "Next")]).1.streams.values.all fun state =>
          state.view.shown.partialId = "e2:assistant:0") = true := by decide
    have hid := of_decide_eq_true (List.all_eq_true.mp hstreams state hstate)
    obtain ⟨index, hindex⟩ := hof
    rw [hid] at hindex
    have hhead := congrArg (fun id => id.toList[1]?) hindex
    simp [answer] at hhead

end Sample

end StreamDisplayBuffer

end RemotePi.Pwa
