import RemotePi.Lib.Trace
import RemotePi.Pwa.TimelineRuntime

/-!
# The text of partial output

What `TimelineRuntime` (`pwa/src/lib/pwa/timeline-runtime.ts`, lines 207–269) shows of the
output of a message that has not been committed. The output of a message arrives in pieces
under a partial id, which `publishPartial` (`pi-extension/src/timeline/runtime.ts`, lines
296–326) begins with the event id of the message; a committed event removes the output of
its whole group.

Results:
* `get?_commitEvents_partials`: what committing events leaves of the output.
* `textOf_concat`: the text after one more piece.
* `partials_faithful_iff`: the text that is shown is that of the pieces, in every state of
  a run, exactly when no event is committed while output of another message of its group
  is shown.
-/

namespace RemotePi.Pwa

open RemotePi.Lib RemotePi.Protocol

/-! ## Runs -/

/-- What the timeline of a scope receives: pieces of output, events of the session, whole or
    assembled from fragments, and pages of its history. -/
inductive TimelineInput where
  | output (next : TimelinePartial) (now : ℚ)
  | realtime (sessionId historyGeneration : String) (event : TimelineEvent) (now : ℚ)
  | assembled (event : TimelineEvent)
  | newestPage (events : List TimelineEvent)
  | olderPage (events : List TimelineEvent)
deriving DecidableEq

def TimelineRuntime.take (r : TimelineRuntime) : TimelineInput → TimelineRuntime
  | .output next now => (r.receive (.timelinePartial next) now).1
  | .realtime sessionId historyGeneration event now =>
    (r.receive (.timelineEvent sessionId historyGeneration event) now).1
  | .assembled event => (r.commit event).1
  | .newestPage events => (r.replaceHistory events).1
  | .olderPage events => (r.prependHistory events).1

def TimelineRuntime.takeAll (r : TimelineRuntime) (inputs : List TimelineInput) :
    TimelineRuntime :=
  inputs.foldl TimelineRuntime.take r

namespace TimelineInput

/-- The events of the scope that an input holds. -/
def events (scope : Option TimelineScope) : TimelineInput → List TimelineEvent
  | .output _ _ => []
  | .realtime sessionId historyGeneration event _ =>
    if isMatchingScope scope sessionId historyGeneration &&
        isMatchingScope scope event.sessionId event.historyGeneration then [event] else []
  | .assembled event =>
    if isMatchingScope scope event.sessionId event.historyGeneration then [event] else []
  | .newestPage events => events.filter (TimelineRuntime.admits scope)
  | .olderPage events => events.filter (TimelineRuntime.admits scope)

/-- The events that are there when those of an input are committed. -/
def base (r : TimelineRuntime) : TimelineInput → OrderedMap String TimelineEvent
  | .newestPage _ => .empty
  | _ => r.events

/-- The piece of output that an input adds under a partial id. -/
def output? (scope : Option TimelineScope) (partialId : String) :
    TimelineInput → Option TimelinePartial
  | .output next _ =>
    if isMatchingScope scope next.sessionId next.historyGeneration &&
        next.bytes ≤ maxHistoryChunkBytes && next.partialId = partialId then some next else none
  | _ => none

end TimelineInput

/-! ## What is to be shown -/

/-- The pieces from the last one on that carries blocks. -/
def sinceBlocks (pieces : List TimelinePartial) : List TimelinePartial :=
  pieces.foldl (fun kept next => if next.blocks.isSome then [next] else kept ++ [next]) []

/-- The text of pieces: the concatenation of their deltas, restarted by blocks. -/
def textOf (pieces : List TimelinePartial) : Option String :=
  if pieces = [] then none
  else some (String.join ((sinceBlocks pieces).filterMap TimelinePartial.delta))

/-- The partial id is one of the message of an event. -/
def ofMessage (eventId partialId : String) : Prop :=
  (eventId ++ ":").toList <+: partialId.toList

instance (eventId partialId : String) : Decidable (ofMessage eventId partialId) :=
  inferInstanceAs (Decidable (_ <+: _))

section Specification

variable (start : TimelineRuntime) (inputs : List TimelineInput)

/-- The formal event of the message of a partial id has come. -/
def Finished (partialId : String) : Prop :=
  (∃ event ∈ start.events.values, ofMessage event.eventId partialId) ∨
    ∃ input ∈ inputs, ∃ event ∈ input.events start.scope, ofMessage event.eventId partialId

/-- The pieces that have come under a partial id. -/
def pieces (partialId : String) : List TimelinePartial :=
  inputs.filterMap (TimelineInput.output? start.scope partialId)

/-- The output of the messages that are not finished is shown with its text. -/
def Faithful : Prop :=
  ∀ partialId, ¬ Finished start inputs partialId →
    ((start.takeAll inputs).partials.get? partialId).map
        (fun view => view.shown.delta.getD "") = textOf (pieces start inputs partialId)

/-- The events that an input commits: the first one of each id, unless another event has
    the id. -/
def committed (r : TimelineRuntime) (input : TimelineInput) : List TimelineEvent :=
  (input.events r.scope).filter fun event =>
    ((input.base r).get? event.eventId).or
      ((input.events r.scope).find? fun e => e.eventId = event.eventId) = some event

/-- No event that an input commits removes output that is shown of another message, which
    is not finished. -/
def Spared (input : TimelineInput) : Prop :=
  ∀ partialId view, (start.takeAll inputs).partials.get? partialId = some view →
    ¬ Finished start (inputs ++ [input]) partialId →
      ∀ event ∈ committed (start.takeAll inputs) input,
        TimelineRuntime.finishes event view.shown = false

end Specification

/-! ## One input -/

namespace TimelineRuntime

variable {r : TimelineRuntime}

theorem partials_observe (messageId : String) (ids : List String) (r : TimelineRuntime) :
    (ids.foldl (observe messageId) r).partials = r.partials := by
  induction ids generalizing r with
  | nil => rfl
  | cons id ids ih => exact ih (observe messageId r id)

theorem partials_reconcileUserMessage (messageId : String) :
    (r.reconcileUserMessage messageId).partials = r.partials := by
  unfold reconcileUserMessage
  split_ifs
  · exact partials_observe messageId _ r
  · rfl

/-- The event is committed when no other event has its id. -/
theorem get?_commitParsed_partials (event : TimelineEvent) (partialId : String) :
    (r.commitParsed event).partials.get? partialId =
      (r.partials.get? partialId).filter fun view =>
        !((r.events.get? event.eventId).or (some event) = some event &&
          finishes event view.shown) := by
  have hkept : ((r.events.get? event.eventId).any fun previous => decide (previous ≠ event)) =
      !decide ((r.events.get? event.eventId).or (some event) = some event) := by
    cases hget : r.events.get? event.eventId with
    | none => simp
    | some previous => simp
  have hpartials : ∀ r' : TimelineRuntime,
      (if event.kind = .user then r'.reconcileUserMessage event.eventId else r').partials =
        r'.partials := by
    intro r'
    split_ifs
    · exact partials_reconcileUserMessage _
    · rfl
  unfold commitParsed
  rw [hkept]
  by_cases hkeep : (r.events.get? event.eventId).or (some event) = some event
  · rw [decide_eq_true hkeep, Bool.not_true, if_neg Bool.false_ne_true]
    dsimp only
    rw [hpartials, OrderedMap.get?_filter]
    simp only [Bool.true_and]
  · rw [decide_eq_false hkeep, Bool.not_false, if_pos rfl]
    cases r.partials.get? partialId <;> rfl

/-- What committing events leaves of the output. -/
theorem get?_commitEvents_partials (events : List TimelineEvent) (partialId : String) :
    (r.commitEvents events).partials.get? partialId =
      (r.partials.get? partialId).filter fun view => !(events.any fun event =>
        (r.events.get? event.eventId).or (events.find? fun e => e.eventId = event.eventId) =
          some event && finishes event view.shown) := by
  induction events generalizing r with
  | nil =>
    rw [commitEvents, List.foldl_nil]
    cases r.partials.get? partialId <;> rfl
  | cons event events ih =>
    have hcons : r.commitEvents (event :: events) = (r.commitParsed event).commitEvents events := rfl
    have hfind : ∀ id, ((r.commitParsed event).events.get? id).or
        (events.find? fun e => e.eventId = id) =
          (r.events.get? id).or ((event :: events).find? fun e => e.eventId = id) := by
      intro id
      rw [get?_commitParsed, Option.or_assoc]
      congr 1
      by_cases hid : event.eventId = id <;> simp [hid]
    have hfirst : (event :: events).find? (fun e => e.eventId = event.eventId) = some event := by
      simp
    rw [hcons, ih, get?_commitParsed_partials, Option.filter_filter]
    congr 1
    funext view
    simp only [hfind]
    rw [List.any_cons, hfirst, Bool.not_or, Bool.and_comm]

theorem partials_change : r.change.1.partials = r.partials := rfl

theorem partials_commit (event : TimelineEvent) :
    (r.commit event).1.partials = (r.commitEvents
      (if isMatchingScope r.scope event.sessionId event.historyGeneration then [event]
        else [])).partials := by
  rw [commit]
  split_ifs
  · exact partials_change
  · exact partials_change

/-- What the events of an input leave of the output. -/
theorem get?_take_partials (input : TimelineInput) (h : ∀ next now, input ≠ .output next now)
    (partialId : String) :
    (r.take input).partials.get? partialId =
      (r.partials.get? partialId).filter fun view =>
        !((committed r input).any fun event => finishes event view.shown) := by
  have hcommit : ∀ r' : TimelineRuntime, r'.partials = r.partials → r'.events = input.base r →
      (r'.commitEvents (input.events r.scope)).partials.get? partialId =
        (r.partials.get? partialId).filter fun view =>
          !((committed r input).any fun event => finishes event view.shown) := by
    intro r' hpartials hevents
    rw [get?_commitEvents_partials, hpartials, hevents]
    unfold committed
    simp only [List.any_filter]
  cases input with
  | output next now => exact absurd rfl (h next now)
  | realtime sessionId historyGeneration event now =>
    refine (congrArg (OrderedMap.get? · partialId) ?_).trans (hcommit r rfl rfl)
    change (r.receive (.timelineEvent sessionId historyGeneration event) now).1.partials =
      (r.commitEvents (if isMatchingScope r.scope sessionId historyGeneration &&
        isMatchingScope r.scope event.sessionId event.historyGeneration then [event]
          else [])).partials
    rw [receive]
    by_cases hframe : isMatchingScope r.scope sessionId historyGeneration = true
    · rw [if_pos hframe, partials_change, partials_commit, hframe, Bool.true_and]
    · rw [if_neg hframe, Bool.eq_false_iff.mpr hframe, Bool.false_and, if_neg Bool.false_ne_true]
      rfl
  | assembled event =>
    exact (congrArg (OrderedMap.get? · partialId) (partials_commit event)).trans
      (hcommit r rfl rfl)
  | newestPage events => exact hcommit { r with historyEvents := _, events := .empty } rfl rfl
  | olderPage events => exact hcommit r rfl rfl

/-- The output after an input: a piece is merged, and committed events remove. -/
theorem shown_take (input : TimelineInput) (partialId : String) :
    ((r.take input).partials.get? partialId).map TimelinePartialView.shown =
      match input.output? r.scope partialId with
      | some next =>
        some (mergePartial ((r.partials.get? partialId).map TimelinePartialView.shown) next)
      | none =>
        ((r.partials.get? partialId).filter fun view =>
          !((committed r input).any fun event => finishes event view.shown)).map
            TimelinePartialView.shown := by
  cases input with
  | output next now =>
    have hstay : ((r.partials.get? partialId).filter fun view =>
        !((committed r (.output next now)).any fun event => finishes event view.shown)) =
          r.partials.get? partialId := by
      cases r.partials.get? partialId <;> rfl
    rw [hstay, TimelineInput.output?]
    change ((r.receive (.timelinePartial next) now).1.partials.get? partialId).map _ = _
    rw [receive]
    by_cases hscope : isMatchingScope r.scope next.sessionId next.historyGeneration = true
    · rw [if_pos hscope, partials_change, receivePartial, hscope, Bool.true_and]
      by_cases hsize : next.bytes ≤ maxHistoryChunkBytes
      · rw [if_neg (Nat.not_lt_of_le hsize), decide_eq_true hsize, Bool.true_and]
        by_cases hid : next.partialId = partialId
        · subst hid
          rw [if_pos (decide_eq_true rfl), OrderedMap.get?_set_self]
          rfl
        · rw [if_neg (by simpa using hid), OrderedMap.get?_set_of_ne _ _ (Ne.symm hid)]
      · rw [if_pos (Nat.lt_of_not_le hsize), decide_eq_false hsize, Bool.false_and,
          if_neg Bool.false_ne_true]
    · rw [if_neg hscope, partials_change, Bool.eq_false_iff.mpr hscope, Bool.false_and,
        Bool.false_and, if_neg Bool.false_ne_true]
  | realtime _ _ _ _ =>
    exact congrArg _ (get?_take_partials _ (fun _ _ => TimelineInput.noConfusion) partialId)
  | assembled _ =>
    exact congrArg _ (get?_take_partials _ (fun _ _ => TimelineInput.noConfusion) partialId)
  | newestPage _ =>
    exact congrArg _ (get?_take_partials _ (fun _ _ => TimelineInput.noConfusion) partialId)
  | olderPage _ =>
    exact congrArg _ (get?_take_partials _ (fun _ _ => TimelineInput.noConfusion) partialId)

theorem scope_take (input : TimelineInput) : (r.take input).scope = r.scope := by
  cases input with
  | output next now =>
    change (r.receive (.timelinePartial next) now).1.scope = _
    rw [receive, receivePartial]
    split_ifs <;> rfl
  | realtime sessionId historyGeneration event now =>
    change (r.receive (.timelineEvent sessionId historyGeneration event) now).1.scope = _
    rw [receive]
    split_ifs
    · exact scope_commit event
    · rfl
  | assembled event => exact scope_commit event
  | newestPage events => exact scope_replaceHistory events
  | olderPage events => exact scope_commitEvents _

theorem scope_takeAll (inputs : List TimelineInput) : (r.takeAll inputs).scope = r.scope := by
  induction inputs generalizing r with
  | nil => rfl
  | cons input inputs ih => exact ih.trans (scope_take input)

theorem takeAll_concat (inputs : List TimelineInput) (input : TimelineInput) :
    r.takeAll (inputs ++ [input]) = (r.takeAll inputs).take input := by
  rw [takeAll, takeAll, List.foldl_append]
  rfl

end TimelineRuntime

/-! ## The text -/

/-- The text of a merged piece. -/
theorem delta_mergePartial (previous : Option TimelinePartial) (next : TimelinePartial) :
    (mergePartial previous next).delta.getD "" =
      if next.blocks.isSome then next.delta.getD ""
      else (previous.bind TimelinePartial.delta).getD "" ++ next.delta.getD "" := by
  cases previous with
  | none =>
    rw [mergePartial, Option.bind_none, Option.getD_none, String.empty_append, ite_self]
  | some previous =>
    rw [mergePartial]
    split_ifs with hblocks
    · rfl
    · cases hdelta : next.delta with
      | none => simp
      | some delta => simp

/-- The text after one more piece. -/
theorem textOf_concat (ps : List TimelinePartial) (next : TimelinePartial) :
    textOf (ps ++ [next]) =
      some (if next.blocks.isSome then next.delta.getD ""
        else (textOf ps).getD "" ++ next.delta.getD "") := by
  have hsince : sinceBlocks (ps ++ [next]) =
      if next.blocks.isSome then [next] else sinceBlocks ps ++ [next] := by
    rw [sinceBlocks, List.foldl_append]
    rfl
  have hpiece : String.join ([next].filterMap TimelinePartial.delta) = next.delta.getD "" := by
    cases hdelta : next.delta with
    | none => simp [hdelta]
    | some delta => simp [hdelta]
  rw [textOf, if_neg (by simp), hsince]
  split_ifs with hblocks
  · rw [hpiece]
  · rw [List.filterMap_append, String.join_append, hpiece, textOf]
    by_cases hempty : ps = []
    · rw [if_pos hempty, hempty]
      rfl
    · rw [if_neg hempty, Option.getD_some]

/-! ## Runs in which the text is shown -/

section Runs

variable {start : TimelineRuntime} {inputs : List TimelineInput} {input : TimelineInput}
  {partialId : String}

theorem finished_concat : Finished start (inputs ++ [input]) partialId ↔
    Finished start inputs partialId ∨
      ∃ event ∈ input.events start.scope, ofMessage event.eventId partialId := by
  simp only [Finished, List.mem_append, List.mem_singleton, or_and_right, exists_or,
    exists_eq_left, or_assoc]

theorem pieces_concat : pieces start (inputs ++ [input]) partialId =
    pieces start inputs partialId ++ (input.output? start.scope partialId).toList := by
  rw [pieces, List.filterMap_append, List.filterMap_cons, List.filterMap_nil]
  cases input.output? start.scope partialId <;> rfl

/-- One more input keeps the text, when and only when it spares the output. -/
theorem faithful_concat_iff (h : Faithful start inputs) :
    Faithful start (inputs ++ [input]) ↔ Spared start inputs input := by
  have hbefore : ∀ partialId, ¬ Finished start (inputs ++ [input]) partialId →
      ¬ Finished start inputs partialId :=
    fun partialId hfresh hfinished => hfresh (finished_concat.mpr (.inl hfinished))
  have hshown := fun partialId =>
    @TimelineRuntime.shown_take (start.takeAll inputs) input partialId
  rw [TimelineRuntime.scope_takeAll] at hshown
  constructor
  · intro hnext partialId view hview hfresh event hevent
    have htext := h partialId (hbefore partialId hfresh)
    have hafter := hnext partialId hfresh
    rw [pieces_concat, TimelineRuntime.takeAll_concat] at hafter
    have hnone : input.output? start.scope partialId = none := by
      cases input with
      | output next now => exact absurd hevent List.not_mem_nil
      | _ => rfl
    have hkept := hshown partialId
    rw [hnone, hview] at hkept
    rw [hnone, Option.toList_none, List.append_nil, ← htext, hview] at hafter
    by_contra hfinishes
    have hany : (committed (start.takeAll inputs) input).any (fun event =>
        TimelineRuntime.finishes event view.shown) = true :=
      List.any_eq_true.mpr ⟨event, hevent, Bool.eq_true_of_not_eq_false hfinishes⟩
    rw [Option.filter_some, hany, Bool.not_true, if_neg Bool.false_ne_true] at hkept
    rw [Option.map_none, Option.map_eq_none_iff] at hkept
    rw [hkept] at hafter
    cases hafter
  · intro hspared partialId hfresh
    have htext := h partialId (hbefore partialId hfresh)
    have hmapped : ∀ view : Option TimelinePartialView,
        view.map (fun v => v.shown.delta.getD "") =
          (view.map TimelinePartialView.shown).map fun p => p.delta.getD "" := by
      intro view
      rw [Option.map_map]
      rfl
    rw [pieces_concat, TimelineRuntime.takeAll_concat, hmapped, hshown]
    cases hinput : input.output? start.scope partialId with
    | some next =>
      dsimp only
      rw [Option.toList_some, textOf_concat, ← htext, Option.map_some, delta_mergePartial]
      cases (start.takeAll inputs).partials.get? partialId <;> rfl
    | none =>
      dsimp only
      rw [Option.toList_none, List.append_nil, ← htext, ← hmapped]
      cases hview : (start.takeAll inputs).partials.get? partialId with
      | none => rfl
      | some view =>
        have hany : (committed (start.takeAll inputs) input).any (fun event =>
            TimelineRuntime.finishes event view.shown) = false :=
          List.any_eq_false.mpr fun event hevent =>
            Bool.eq_false_iff.mp (hspared partialId view hview hfresh event hevent)
        rw [Option.filter_some, hany]
        rfl

/-- The text that is shown is that of the pieces, in every state of a run, exactly when no
    event removes output of another message. -/
theorem partials_faithful_iff (start : TimelineRuntime) (inputs : List TimelineInput)
    (hstart : start.partials = .empty) :
    (∀ before, before <+: inputs → Faithful start before) ↔
      Throughout (Spared start) inputs := by
  have hnil : Faithful start [] := by
    intro partialId _
    rw [TimelineRuntime.takeAll, List.foldl_nil, hstart]
    rfl
  induction inputs using List.reverseRecOn with
  | nil =>
    refine iff_of_true (fun before hbefore => ?_) throughout_nil
    rw [List.prefix_nil.mp hbefore]
    exact hnil
  | append_singleton inputs input ih =>
    have hsnoc : Throughout (Spared start) (inputs ++ [input]) ↔
        Throughout (Spared start) inputs ∧ Spared start inputs input := by
      rw [throughout_append, throughout_singleton, List.append_nil]
    rw [hsnoc]
    refine Iff.trans ?_ (and_congr_left' ih)
    constructor
    · intro h
      have hall := fun before (hbefore : before <+: inputs) =>
        h before (hbefore.trans (List.prefix_append inputs [input]))
      exact ⟨hall, (faithful_concat_iff (hall inputs (List.prefix_refl inputs))).mp
        (h _ (List.prefix_refl _))⟩
    · rintro ⟨hall, hspared⟩ before hbefore
      rcases List.prefix_concat_iff.mp hbefore with rfl | hbefore
      · exact (faithful_concat_iff (hall inputs (List.prefix_refl inputs))).mpr hspared
      · exact hall before hbefore

end Runs

/-! ## A group of two messages -/

private def sampleStart : TimelineRuntime :=
  { TimelineRuntime.new with scope := some ⟨"d", "e", "r", "s", "g", "me", "c"⟩ }

private def samplePiece (delta : String) : TimelineInput :=
  .output ⟨"s", "g", "t", "m2:assistant:0", false, .assistant, none, none, some delta, 200⟩ 0

private def sampleMessage (eventId : String) : TimelineInput :=
  .realtime "s" "g" ⟨eventId, "s", "g", 0, .assistant, some "t", []⟩ 0

/-- The second message is committed after its output. -/
theorem own_message_faithful :
    Faithful sampleStart [samplePiece "Hel", samplePiece "lo", sampleMessage "m2"] := by
  refine (partials_faithful_iff sampleStart _ rfl).mpr ?_ _ (List.prefix_refl _)
  have hpieces : ∀ (before : List TimelineInput) (delta : String),
      Spared sampleStart before (samplePiece delta) :=
    fun _ _ _ _ _ _ _ hevent => absurd hevent List.not_mem_nil
  have hsplit : [samplePiece "Hel", samplePiece "lo", sampleMessage "m2"] =
      [samplePiece "Hel"] ++ ([samplePiece "lo"] ++ [sampleMessage "m2"]) := rfl
  rw [hsplit, throughout_append, throughout_append, throughout_singleton, throughout_singleton,
    throughout_singleton]
  refine ⟨hpieces _ _, hpieces _ _, fun partialId view hview hfresh => ?_⟩
  by_cases hid : partialId = "m2:assistant:0"
  · subst hid
    refine absurd (?_ : Finished sampleStart _ "m2:assistant:0") hfresh
    unfold Finished
    decide
  · have hnone : (sampleStart.takeAll [samplePiece "Hel", samplePiece "lo"]).partials.get?
        partialId = none := by
      refine (OrderedMap.get?_set_of_ne _ _ hid).trans ?_
      exact OrderedMap.get?_set_of_ne _ _ hid
    cases hnone.symm.trans hview

/-- The first message of a group is committed late, and the output of the second one is lost. -/
theorem late_message_removes : ¬ ∀ (start : TimelineRuntime) (inputs : List TimelineInput),
    start.scope.isSome = true → start.partials = .empty →
      ∀ before, before <+: inputs → Faithful start before := by
  intro h
  have hfaithful := h sampleStart [samplePiece "Hello", sampleMessage "m1"] rfl rfl _
    (List.prefix_refl _) "m2:assistant:0"
  have hfresh : ¬ Finished sampleStart [samplePiece "Hello", sampleMessage "m1"]
      "m2:assistant:0" := by
    unfold Finished
    decide
  exact absurd (hfaithful hfresh) (by decide)

end RemotePi.Pwa
