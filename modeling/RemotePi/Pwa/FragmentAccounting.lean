import RemotePi.Pwa.CodecAgreement
import RemotePi.Pwa.Protocol
import RemotePi.Pwa.TimelineTransfer

/-!
# What the fragment assembler counts

`TimelineEventFragmentAssembler` (`pwa/src/lib/pwa/timeline-transfer.ts`) on any JSON value
in place of a frame, and its running total of the bytes in flight over any sequence of
calls.

Results:
* `accepts_fragmentFrame_iff`, `EventAssembler.acceptValue_of_refused`: a frame is read and checked
  as its schema has it.
* `addFragment_cases`, `finishFragment_cases`: all that a fragment does to the states.
* `Accounted.acceptValue`: one call keeps the accounts.
* `accounted_run`: they are right after every sequence of calls.
-/

namespace RemotePi.Pwa

open RemotePi.Lib RemotePi.Protocol RemotePi.Timeline

/-! ## Frames as JSON values -/

/-- A number that `int` and `nonnegative` accept, up to its size. -/
def index? (value : Json) : Option ℕ :=
  (number? value).bind fun q => if q.den = 1 ∧ 0 ≤ q.num then some q.num.toNat else none

/-- The keys and the types of `timelineEventFragmentFrameSchema`
    (`protocol-v2/frames.ts`, lines 262–269); `accept` checks the values of the members. -/
def decodeFragmentFrame (value : Json) : Option TimelineEventFragmentFrame := do
  if !hasOnlyKeys value ["protocol_version", "session_id", "history_generation", "type",
      "event_id", "index", "data_base64", "final"] then none
  else
    let version ← (value.member? "protocol_version").bind number?
    let type ← (value.member? "type").bind text?
    if version ≠ 2 ∨ type ≠ "timeline_event_fragment" then none
    else
      let sessionId ← (value.member? "session_id").bind text?
      let historyGeneration ← (value.member? "history_generation").bind text?
      let eventId ← (value.member? "event_id").bind text?
      let index ← (value.member? "index").bind index?
      let dataBase64 ← (value.member? "data_base64").bind text?
      let final ← (value.member? "final").bind bool?
      some ⟨sessionId, historyGeneration, { eventId, index, dataBase64, final }⟩

/-- A member is this string. -/
def memberIs (value : Json) (key text : String) : Bool :=
  decide ((value.member? key).bind text? = some text)

/-- The reads of `session_id` and `history_generation` (lines 149–152). -/
def TransferScope.covers (scope : TransferScope) (value : Json) : Bool :=
  memberIs value "session_id" scope.sessionId &&
    memberIs value "history_generation" scope.historyGeneration

/-- The branch of a frame that the schema refuses (lines 155–160): the states are keyed by
    strings, so an `event_id` of another type is the key of none. -/
def EventAssembler.refuse (s : EventAssembler) (value : Json) : EventAssembler :=
  match (value.member? "event_id").bind text? with
  | some eventId => s.dropEvent eventId
  | none => s

/-- `accept` (lines 148–182) on a JSON value; no result where it throws, which reading a
    member of `null` does. -/
def EventAssembler.acceptValue (parse : List Byte → Option TimelineEvent) (s : EventAssembler)
    (value : Json) : EventAssembler × Option TransferResult :=
  match value with
  | .null => (s, none)
  | value =>
    if !s.scope.covers value then (s.reset, some (.discarded "fragment_scope_mismatch"))
    else
      match decodeFragmentFrame value with
      | none => (s.refuse value, some (.discarded "invalid_fragment"))
      | some frame =>
        let (s, result) := s.accept parse frame
        (s, some result)

/-- The calls on an assembler. -/
inductive AssemblerCall where
  | accept (value : Json)
  | reset

def EventAssembler.call (parse : List Byte → Option TimelineEvent) (s : EventAssembler) :
    AssemblerCall → EventAssembler
  | .accept value => (s.acceptValue parse value).1
  | .reset => s.reset

/-- The assembler after a sequence of calls. -/
def EventAssembler.run (parse : List Byte → Option TimelineEvent) (s : EventAssembler)
    (calls : List AssemblerCall) : EventAssembler :=
  calls.foldl (EventAssembler.call parse) s

/-! ## The schema of a frame -/

theorem textLength_eq_utf16Length (s : String) : textLength s = utf16Length s := by
  rw [textLength, utf16Length, Utf16.encode, List.length_flatMap]
  congr 1
  refine List.map_congr_left fun c _ => ?_
  rw [Utf16.encodeChar]
  split_ifs <;> rfl

/-- A text of Base64 has one code unit a character. -/
theorem textLength_of_isText {s : String} (h : Base64.isText s.toList = true) :
    textLength s = s.length := by
  have hdigit : ∀ c, Base64.isDigit c = true → c.toNat < 0x10000 := by
    intro c hc
    obtain ⟨sextet, hsextet⟩ := Option.isSome_iff_exists.mp hc
    rw [Base64.sextet?] at hsextet
    have heq : (Base64.digit sextet == c) = true :=
      @List.find?_some _ (fun s => Base64.digit s == c) sextet _ hsextet
    have hall : ∀ s : Base64.Sextet, (Base64.digit s).toNat < 0x10000 := by decide
    rw [← beq_iff_eq.mp heq]
    exact hall sextet
  obtain ⟨body, pad, htext, hbody, hpad, -⟩ := exists_body_of_isText h
  have hsingle : ∀ c ∈ s.toList, (Utf16.encodeChar c).length = 1 := by
    intro c hc
    have hlt : c.toNat < 0x10000 := by
      rw [htext, List.mem_append] at hc
      rcases hc with hc | hc
      · exact hdigit c (List.all_eq_true.mp hbody c hc)
      · have hpadChar : c = '=' := by
          rcases hpad with rfl | rfl | rfl
          · cases hc
          · exact List.mem_singleton.mp hc
          · rcases List.mem_cons.mp hc with rfl | hc
            · rfl
            · exact List.mem_singleton.mp hc
        rw [hpadChar]
        decide
    rw [Utf16.encodeChar, if_pos hlt]
    rfl
  rw [textLength, Utf16.encode, List.length_flatMap, List.map_congr_left hsingle]
  simp [String.length]

/-- The fields of the schema, as `accept` checks their values. -/
def fragmentFrameValid (frame : TimelineEventFragmentFrame) : Bool :=
  validId frame.sessionId && validId frame.historyGeneration && schemaFragment frame.fragment

theorem fragmentFrameFields : FrameSchemas.timelineEventFragmentFrameSchema =
    .strictObject [("protocol_version", Schema.required FrameSchemas.protocolVersionSchema),
      ("session_id", Schema.required FrameSchemas.idSchema),
      ("history_generation", Schema.required FrameSchemas.idSchema),
      ("type", Schema.required (.literal "timeline_event_fragment")),
      ("event_id", Schema.required FrameSchemas.idSchema),
      ("index", Schema.required FrameSchemas.positiveIntSchema),
      ("data_base64", Schema.required FrameSchemas.base64Schema),
      ("final", Schema.required .boolean)] := rfl


section Fields

variable {value : Json}

theorem accepts_id_iff : Schema.accepts FrameSchemas.rules FrameSchemas.idSchema value = true ↔
    ∃ s, text? value = some s ∧ validId s = true := by
  cases value with
  | string s =>
    simp only [FrameSchemas.idSchema, Schema.text, Schema.accepts, Scalar.accepts,
      TextRule.accepts, textLength_eq_utf16Length, Option.all_some, Option.all_none, Bool.and_true,
      text?, Option.some.injEq, exists_eq_left']
    rfl
  | _ => simp [FrameSchemas.idSchema, Schema.text, Schema.accepts, Scalar.accepts, text?]

theorem accepts_index_iff :
    Schema.accepts FrameSchemas.rules FrameSchemas.positiveIntSchema value = true ↔
      ∃ n, index? value = some n ∧ n ≤ maxSafeInteger := by
  cases value with
  | number q =>
    simp only [FrameSchemas.positiveIntSchema, Schema.number, Schema.accepts, Scalar.accepts,
      NumberRule.accepts, index?, number?, Option.bind_some]
    simp [← Rat.num_nonneg]
    constructor
    · rintro ⟨⟨hden, hmax⟩, hnonneg⟩
      exact ⟨⟨hden, hnonneg⟩, by omega⟩
    · rintro ⟨⟨hden, hnonneg⟩, hmax⟩
      exact ⟨⟨hden, by omega⟩, hnonneg⟩
  | _ => simp [FrameSchemas.positiveIntSchema, Schema.number, Schema.accepts, Scalar.accepts,
      index?, number?]

theorem accepts_base64_iff :
    Schema.accepts FrameSchemas.rules FrameSchemas.base64Schema value = true ↔
      ∃ s, text? value = some s ∧ (4 ≤ s.length ∧
        s.length ≤ (maxFragmentDecodeBytes * 4 + 2) / 3 + 4) ∧ Base64.isText s.toList = true := by
  cases value with
  | string s =>
    by_cases htext : Base64.isText s.toList = true
    · simp [FrameSchemas.base64Schema, Schema.text, Schema.accepts, Scalar.accepts,
        TextRule.accepts, text?, FrameSchemas.rules, FrameSchemas.pattern, htext,
        textLength_of_isText htext, FrameSchemas.maxFragmentBytes, maxFragmentDecodeBytes]
    · simp [FrameSchemas.base64Schema, Schema.text, Schema.accepts, Scalar.accepts,
        TextRule.accepts, text?, FrameSchemas.rules, FrameSchemas.pattern, htext]
  | _ => simp [FrameSchemas.base64Schema, Schema.text, Schema.accepts, Scalar.accepts, text?]

theorem accepts_boolean_iff : Schema.accepts FrameSchemas.rules .boolean value = true ↔
    ∃ b, bool? value = some b := by
  cases value <;> simp [Schema.boolean, Schema.accepts, Scalar.accepts, bool?]

theorem accepts_literal_iff {text : String} :
    Schema.accepts FrameSchemas.rules (.literal text) value = true ↔ text? value = some text := by
  cases value <;> simp [Schema.literal, Schema.accepts, Scalar.accepts, Literal.accepts, text?,
    eq_comm]

theorem accepts_version_iff :
    Schema.accepts FrameSchemas.rules FrameSchemas.protocolVersionSchema value = true ↔
      number? value = some 2 := by
  cases value <;> simp [FrameSchemas.protocolVersionSchema, Schema.literalNumber, Schema.accepts,
    Scalar.accepts, Literal.accepts, number?, eq_comm]

theorem elim_false_iff {α : Type} {found : Option α} {p : α → Prop} :
    found.elim (false = true) p ↔ ∃ a, found = some a ∧ p a := by
  cases found <;> simp

end Fields

theorem decodeFragmentFrame_eq_some {value : Json} {frame : TimelineEventFragmentFrame} :
    decodeFragmentFrame value = some frame ↔
      hasOnlyKeys value ["protocol_version", "session_id", "history_generation", "type",
        "event_id", "index", "data_base64", "final"] = true ∧
      (value.member? "protocol_version").bind number? = some 2 ∧
      (value.member? "type").bind text? = some "timeline_event_fragment" ∧
      (value.member? "session_id").bind text? = some frame.sessionId ∧
      (value.member? "history_generation").bind text? = some frame.historyGeneration ∧
      (value.member? "event_id").bind text? = some frame.fragment.eventId ∧
      (value.member? "index").bind index? = some frame.fragment.index ∧
      (value.member? "data_base64").bind text? = some frame.fragment.dataBase64 ∧
      (value.member? "final").bind bool? = some frame.fragment.final := by
  obtain ⟨sessionId, historyGeneration, eventId, index, dataBase64, final⟩ := frame
  unfold decodeFragmentFrame
  generalize hasOnlyKeys value _ = onlyKeys
  generalize (value.member? "protocol_version").bind number? = version?
  generalize (value.member? "type").bind text? = type?
  generalize (value.member? "session_id").bind text? = sessionId?
  generalize (value.member? "history_generation").bind text? = historyGeneration?
  generalize (value.member? "event_id").bind text? = eventId?
  generalize (value.member? "index").bind index? = index?
  generalize (value.member? "data_base64").bind text? = dataBase64?
  generalize (value.member? "final").bind bool? = final?
  cases onlyKeys
  · simp
  rcases version? with _ | version
  · simp
  rcases type? with _ | type
  · simp
  by_cases hhead : version ≠ 2 ∨ type ≠ "timeline_event_fragment"
  · have hother : ¬ (version = 2 ∧ type = "timeline_event_fragment") := by tauto
    simp only [bind, Option.bind_some, Bool.not_true, Bool.false_eq_true, if_false, if_pos hhead,
      Option.some.injEq]
    tauto
  obtain ⟨rfl, rfl⟩ := not_or.mp hhead |>.imp not_not.mp not_not.mp
  rcases sessionId? with _ | _
  · simp
  rcases historyGeneration? with _ | _
  · simp
  rcases eventId? with _ | _
  · simp
  rcases index? with _ | _
  · simp
  rcases dataBase64? with _ | _
  · simp
  rcases final? with _ | _
  · simp
  simp

/-- The schema of the frame accepts what `decodeFragmentFrame` reads and `accept` checks. -/
theorem accepts_fragmentFrame_iff {value : Json} (hdistinct : value.keys.Nodup) :
    Schema.accepts FrameSchemas.rules FrameSchemas.timelineEventFragmentFrameSchema value = true ↔
      ∃ frame, decodeFragmentFrame value = some frame ∧ fragmentFrameValid frame = true := by
  cases value with
  | object members =>
    have honly : (∀ key ∈ members.map Prod.fst, key ∈ ["protocol_version", "session_id",
        "history_generation", "type", "event_id", "index", "data_base64", "final"]) ↔
        hasOnlyKeys (.object members) ["protocol_version", "session_id", "history_generation",
          "type", "event_id", "index", "data_base64", "final"] = true := by
      simp only [hasOnlyKeys, Json.keys, List.all_eq_true, List.contains_iff_mem]
    rw [fragmentFrameFields, Schema.accepts_strictObject_iff (by decide) hdistinct]
    simp only [Schema.required, List.forall_mem_cons, elim_false_iff, accepts_id_iff,
      accepts_index_iff, accepts_base64_iff, accepts_boolean_iff, accepts_literal_iff,
      accepts_version_iff, List.not_mem_nil, false_implies, implies_true, and_true,
      decodeFragmentFrame_eq_some, Json.member?_object, Option.bind_eq_some_iff, List.map_cons,
      List.map_nil, honly, fragmentFrameValid, schemaFragment, Bool.and_eq_true, decide_eq_true_eq]
    constructor
    · rintro ⟨hkeys, hversion, ⟨v₁, h₁, s₁, ht₁, hv₁⟩, ⟨v₂, h₂, s₂, ht₂, hv₂⟩, htype,
        ⟨v₃, h₃, s₃, ht₃, hv₃⟩, ⟨v₄, h₄, n, hn, hmax⟩, ⟨v₅, h₅, s₅, ht₅, ⟨hmin, hlen⟩, htext⟩,
        ⟨v₆, h₆, b, hb⟩⟩
      exact ⟨⟨s₁, s₂, s₃, n, s₅, b⟩, ⟨hkeys, hversion, htype, ⟨v₁, h₁, ht₁⟩, ⟨v₂, h₂, ht₂⟩,
        ⟨v₃, h₃, ht₃⟩, ⟨v₄, h₄, hn⟩, ⟨v₅, h₅, ht₅⟩, ⟨v₆, h₆, hb⟩⟩, ⟨hv₁, hv₂⟩,
        ⟨⟨⟨hv₃, hmax⟩, hmin⟩, hlen⟩, htext⟩
    · rintro ⟨frame, ⟨hkeys, hversion, htype, ⟨v₁, h₁, ht₁⟩, ⟨v₂, h₂, ht₂⟩, ⟨v₃, h₃, ht₃⟩,
        ⟨v₄, h₄, hn⟩, ⟨v₅, h₅, ht₅⟩, ⟨v₆, h₆, hb⟩⟩, ⟨hv₁, hv₂⟩, ⟨⟨⟨hv₃, hmax⟩, hmin⟩, hlen⟩, htext⟩
      exact ⟨hkeys, hversion, ⟨v₁, h₁, _, ht₁, hv₁⟩, ⟨v₂, h₂, _, ht₂, hv₂⟩, htype,
        ⟨v₃, h₃, _, ht₃, hv₃⟩, ⟨v₄, h₄, _, hn, hmax⟩, ⟨v₅, h₅, _, ht₅, ⟨hmin, hlen⟩, htext⟩,
        ⟨v₆, h₆, _, hb⟩⟩
  | _ => simp [fragmentFrameFields, Schema.accepts, Json.members?, decodeFragmentFrame,
      Json.member?]

/-- What the schema refuses, of the scope of the assembler, is discarded as lines 155–160 say. -/
theorem EventAssembler.acceptValue_of_refused (parse : List Byte → Option TimelineEvent)
    (s : EventAssembler) {value : Json} (hdistinct : value.keys.Nodup)
    (hscope : s.scope.covers value = true)
    (hrefused : Schema.accepts FrameSchemas.rules FrameSchemas.timelineEventFragmentFrameSchema
      value = false) :
    s.acceptValue parse value = (s.refuse value, some (.discarded "invalid_fragment")) := by
  have hcovers : s.acceptValue parse value = match decodeFragmentFrame value with
      | none => (s.refuse value, some (.discarded "invalid_fragment"))
      | some frame => ((s.accept parse frame).1, some (s.accept parse frame).2) := by
    cases value with
    | object members =>
      simp only [EventAssembler.acceptValue, hscope, Bool.not_true, Bool.false_eq_true, if_false]
    | _ => cases hscope
  rw [hcovers]
  cases hdecode : decodeFragmentFrame value with
  | none => rfl
  | some frame =>
    obtain ⟨-, -, -, hsession, hgeneration, hevent, -⟩ := decodeFragmentFrame_eq_some.mp hdecode
    rw [TransferScope.covers, memberIs, memberIs, hsession, hgeneration, Bool.and_eq_true,
      decide_eq_true_eq, decide_eq_true_eq, Option.some.injEq, Option.some.injEq] at hscope
    have hvalid : fragmentFrameValid frame = false := by
      by_contra hvalid
      have haccepts := (accepts_fragmentFrame_iff hdistinct).mpr
        ⟨frame, hdecode, Bool.ne_false_iff.mp hvalid⟩
      rw [hrefused] at haccepts
      cases haccepts
    unfold fragmentFrameValid at hvalid
    dsimp only
    rw [EventAssembler.refuse, hevent, EventAssembler.accept]
    simp only [hscope.1, hscope.2, ne_eq, not_true_eq_false, or_self, if_false]
    rw [hscope.1, hscope.2] at hvalid
    rw [hvalid]
    rfl

/-! ## What is stored of one event -/

/-- The length of a stored fragment. -/
def FragmentEntry.size (entry : FragmentEntry) : ℕ := entry.bytes.length

/-- The count of an event is that of its fragments, and none is stored beyond the final
    one. -/
structure FragmentState.Counted (state : FragmentState) : Prop where
  decodedBytes : state.decodedBytes = state.entries.total FragmentEntry.size
  upToFinal : ∀ finalIndex, state.finalIndex = some finalIndex →
    ∀ index ∈ state.entries.keys, index ≤ finalIndex

/-- Every event in flight is counted. -/
def StatesCounted (states : FragmentStates) : Prop :=
  ∀ eventId state, states.get? eventId = some state → state.Counted

section Fragments

variable {states states' : FragmentStates} {f : HistoryFragment} {eventId : String}
  {state : FragmentState} {result : Option TransferResult} {scope : TransferScope}
  {parse : List Byte → Option TimelineEvent}

theorem FragmentState.counted_new : FragmentState.Counted ⟨.empty, none, 0⟩ where
  decodedBytes := rfl
  upToFinal finalIndex h := by cases h

theorem StatesCounted.getD (h : StatesCounted states) (eventId : String) :
    ((states.get? eventId).getD ⟨.empty, none, 0⟩).Counted := by
  cases hget : states.get? eventId with
  | none => exact FragmentState.counted_new
  | some state => exact h eventId state hget

theorem StatesCounted.set (h : StatesCounted states) (hstate : state.Counted) :
    StatesCounted (states.set eventId state) := by
  intro id st hget
  rw [OrderedMap.get?_set] at hget
  split_ifs at hget with hid
  · cases hget
    exact hstate
  · exact h id st hget

theorem StatesCounted.erase (h : StatesCounted states) :
    StatesCounted (states.erase eventId) := by
  intro id st hget
  rw [OrderedMap.get?_erase] at hget
  split_ifs at hget
  exact h id st hget

/-- A fragment under a new index, none beyond the final one. -/
theorem FragmentState.Counted.add (h : state.Counted) {index : ℕ} {bytes : List Byte}
    {final : Bool} (hnew : state.entries.get? index = none)
    (hkeys : final = true → ∀ k ∈ state.entries.keys, k ≤ index)
    (hindex : ∀ finalIndex, state.finalIndex = some finalIndex →
      index ≤ finalIndex ∧ final = false) :
    FragmentState.Counted
      { entries := state.entries.set index ⟨bytes, final⟩
        finalIndex := if final then some index else state.finalIndex
        decodedBytes := state.decodedBytes + bytes.length } where
  decodedBytes := by
    have htotal := @OrderedMap.total_set _ _ _ FragmentEntry.size state.entries index ⟨bytes, final⟩
    rw [OrderedMap.sizeAt_of_none hnew] at htotal
    rw [h.decodedBytes]
    exact htotal.symm
  upToFinal := by
    intro finalIndex hfinal k hk
    rw [OrderedMap.keys_set_of_none _ hnew, List.mem_append, List.mem_singleton] at hk
    dsimp only at hfinal
    split_ifs at hfinal with hlast
    · cases hfinal
      rcases hk with hk | rfl
      · exact hkeys hlast k hk
      · exact le_rfl
    · rcases hk with hk | rfl
      · exact h.upToFinal finalIndex hfinal k hk
      · exact (hindex finalIndex hfinal).1

/-- All that `addFragment` does: it drops the event, or stores a counted state for it. -/
theorem addFragment_cases (h : StatesCounted states)
    (hadd : addFragment states f = some (states', result)) :
    (states' = states.erase f.eventId ∧ ∃ reason, result = some (.discarded reason)) ∨
      (∃ state, states' = states.set f.eventId state ∧ state.Counted) ∧
        (result = none ∨ result = some .pending) := by
  rw [addFragment, Option.map_eq_some_iff] at hadd
  obtain ⟨bytes, -, hadd⟩ := hadd
  have hstate := h.getD f.eventId
  generalize (states.get? f.eventId).getD ⟨.empty, none, 0⟩ = state at hadd hstate
  dsimp only at hadd
  have hdrop : ∀ {reason : String},
      ((states.set f.eventId state).erase f.eventId,
        some (TransferResult.discarded reason)) = (states', result) →
      states' = states.erase f.eventId ∧ ∃ reason, result = some (.discarded reason) := by
    intro reason heq
    cases heq
    exact ⟨OrderedMap.erase_set, reason, rfl⟩
  split at hadd
  · -- A fragment under this index is there already.
    split_ifs at hadd
    · exact Or.inl (hdrop hadd)
    · cases hadd
      exact Or.inr ⟨⟨state, rfl, hstate⟩, Or.inr rfl⟩
  · rename_i hnew
    by_cases hcount : maxArrayItems ≤ state.entries.entries.length
    · rw [if_pos hcount] at hadd
      exact Or.inl (hdrop hadd)
    rw [if_neg hcount] at hadd
    by_cases hbeyond : (state.finalIndex.any fun k => k < f.index || f.final) = true
    · rw [if_pos hbeyond] at hadd
      exact Or.inl (hdrop hadd)
    rw [if_neg hbeyond] at hadd
    by_cases hlater : (f.final && (state.finalIndex.isSome ||
        state.entries.keys.any fun k => f.index < k)) = true
    · rw [if_pos hlater] at hadd
      exact Or.inl (hdrop hadd)
    rw [if_neg hlater] at hadd
    by_cases hbytes : maxWindowDecodeBytes < state.decodedBytes + bytes.length
    · rw [if_pos hbytes] at hadd
      exact Or.inl (hdrop hadd)
    rw [if_neg hbytes] at hadd
    cases hadd
    refine Or.inr ⟨⟨_, OrderedMap.set_set .., hstate.add hnew ?_ ?_⟩, Or.inl rfl⟩
    · intro hfinal k hk
      by_contra hlt
      refine hlater ?_
      rw [hfinal, Bool.true_and, Bool.or_eq_true, List.any_eq_true]
      exact Or.inr ⟨k, hk, decide_eq_true (by omega)⟩
    · intro finalIndex hfinal
      rw [hfinal, Option.any_some, Bool.or_eq_true, not_or, decide_eq_true_eq] at hbeyond
      exact ⟨by omega, Bool.eq_false_iff.mpr hbeyond.2⟩

/-- All that `finishFragment` does: it leaves the states, or drops the event. -/
theorem finishFragment_cases (parse : List Byte → Option TimelineEvent) (states : FragmentStates)
    (eventId : String) (scope : TransferScope) :
    finishFragment parse states eventId scope = (states, .pending) ∨
      ∃ result, finishFragment parse states eventId scope = (states.erase eventId, result) ∧
        ((∃ event, result = .complete event) ∨ ∃ reason, result = .discarded reason) := by
  unfold finishFragment
  split
  · exact Or.inl rfl
  · split
    · exact Or.inl rfl
    · split_ifs
      · exact Or.inl rfl
      · split
        · exact Or.inl rfl
        · split
          · split_ifs
            · exact Or.inr ⟨_, rfl, Or.inr ⟨_, rfl⟩⟩
            · exact Or.inr ⟨_, rfl, Or.inl ⟨_, rfl⟩⟩
          · exact Or.inr ⟨_, rfl, Or.inr ⟨_, rfl⟩⟩

end Fragments

/-! ## The running total -/

/-- The accounts of an assembler: the total is that of the events in flight, the total and
    the number of events are within the budget, and every event is counted. -/
structure Accounted (s : EventAssembler) : Prop where
  activeBytes : s.activeBytes = (s.states.total FragmentState.decodedBytes : ℕ)
  withinBytes : s.activeBytes ≤ maxWindowDecodeBytes
  withinEvents : s.states.entries.length ≤ maxArrayItems
  counted : StatesCounted s.states

section Accounts

variable {parse : List Byte → Option TimelineEvent} {s : EventAssembler} {scope : TransferScope}

theorem bytesInFlight_eq (states : FragmentStates) (eventId : String) :
    bytesInFlight states eventId = (states.sizeAt FragmentState.decodedBytes eventId : ℕ) := by
  unfold bytesInFlight OrderedMap.sizeAt
  cases states.get? eventId <;> rfl

theorem accounted_new (scope : TransferScope) : Accounted (.new scope) where
  activeBytes := rfl
  withinBytes := by simp [EventAssembler.new]
  withinEvents := Nat.zero_le _
  counted eventId state h := by cases h

theorem Accounted.reset : Accounted s.reset := accounted_new s.scope

/-- Dropping an event takes off what it had in flight. -/
theorem Accounted.drop {states : FragmentStates} {activeBytes : ℤ}
    (h : Accounted ⟨scope, states, activeBytes⟩) (eventId : String) :
    Accounted ⟨scope, states.erase eventId, activeBytes - bytesInFlight states eventId⟩ := by
  have hactive := h.activeBytes
  have hwithin := h.withinBytes
  have htotal := @OrderedMap.total_erase _ _ _ FragmentState.decodedBytes states eventId
  dsimp only at hactive hwithin
  rw [bytesInFlight_eq]
  constructor
  · dsimp only
    omega
  · dsimp only
    omega
  · exact OrderedMap.length_erase_le.trans h.withinEvents
  · exact h.counted.erase

theorem Accounted.dropEvent (h : Accounted s) (eventId : String) :
    Accounted (s.dropEvent eventId) := h.drop eventId

theorem Accounted.refuse (h : Accounted s) (value : Json) : Accounted (s.refuse value) := by
  unfold EventAssembler.refuse
  split
  · exact h.dropEvent _
  · exact h

/-- The total after a state of an event was stored, within the budget. -/
theorem Accounted.store (h : Accounted s) {eventId : String} {state : FragmentState}
    (hstate : state.Counted) {activeBytes : ℤ}
    (hactive : activeBytes = s.activeBytes +
      (bytesInFlight (s.states.set eventId state) eventId - bytesInFlight s.states eventId))
    (hevents : (s.states.set eventId state).entries.length ≤ maxArrayItems)
    (hbytes : activeBytes ≤ maxWindowDecodeBytes) :
    Accounted ⟨s.scope, s.states.set eventId state, activeBytes⟩ := by
  refine ⟨?_, hbytes, hevents, h.counted.set hstate⟩
  have htotal := @OrderedMap.total_set _ _ _ FragmentState.decodedBytes s.states eventId state
  have hold := h.activeBytes
  rw [bytesInFlight_eq, bytesInFlight_eq, OrderedMap.sizeAt_set_self] at hactive
  dsimp only
  omega

/-- One frame keeps the accounts, on each of the ways out of `accept`. -/
theorem Accounted.accept (h : Accounted s) (frame : TimelineEventFragmentFrame) :
    Accounted (s.accept parse frame).1 := by
  rw [EventAssembler.accept]
  dsimp only
  split_ifs with hscope hschema
  · exact Accounted.reset
  · exact h.dropEvent _
  · split
    · exact h.dropEvent _
    · rename_i states added hadd
      split_ifs with hlarge
      · exact Accounted.reset
      · rw [not_or] at hlarge
        rcases addFragment_cases h.counted hadd with
          ⟨rfl, reason, rfl⟩ | ⟨⟨state, rfl, hstate⟩, hadded⟩
        · -- The event was dropped: nothing of it is in flight any more.
          have hnone : bytesInFlight (s.states.erase frame.fragment.eventId)
              frame.fragment.eventId = 0 := by
            rw [bytesInFlight_eq, OrderedMap.sizeAt_erase_self]
            rfl
          dsimp only
          rw [hnone, sub_zero, zero_sub, ← sub_eq_add_neg]
          exact h.dropEvent _
        · have hstore := h.store hstate rfl (Nat.le_of_not_lt hlarge.1) (not_lt.mp hlarge.2)
          rcases hadded with rfl | rfl
          all_goals
            dsimp only
            rcases finishFragment_cases parse (s.states.set frame.fragment.eventId state)
              frame.fragment.eventId s.scope with
              heq | ⟨result, heq, ⟨event, rfl⟩ | ⟨reason, rfl⟩⟩
            · rw [heq]
              exact hstore
            · rw [heq]
              exact hstore.drop _
            · rw [heq]
              exact hstore.drop _

/-- One call with any JSON value keeps the accounts. -/
theorem Accounted.acceptValue (h : Accounted s) (value : Json) :
    Accounted (s.acceptValue parse value).1 := by
  unfold EventAssembler.acceptValue
  split
  · exact h
  · split_ifs
    · exact Accounted.reset
    · split
      · exact h.refuse _
      · exact h.accept _

theorem Accounted.call (h : Accounted s) (c : AssemblerCall) : Accounted (s.call parse c) := by
  cases c with
  | accept value => exact h.acceptValue value
  | reset => exact Accounted.reset

theorem Accounted.run (h : Accounted s) (calls : List AssemblerCall) :
    Accounted (s.run parse calls) := by
  induction calls generalizing s with
  | nil => exact h
  | cons c calls ih => exact ih (h.call c)

/-- After every sequence of calls the total is the sum of the events in flight, neither
    negative nor over the budget, the events are few, and each of them counts exactly its
    stored fragments, none beyond its final one. -/
theorem accounted_run (parse : List Byte → Option TimelineEvent) (scope : TransferScope)
    (calls : List AssemblerCall) :
    let s := (EventAssembler.new scope).run parse calls
    s.activeBytes = ((s.states.values.map FragmentState.decodedBytes).sum : ℕ) ∧
      0 ≤ s.activeBytes ∧ s.activeBytes ≤ 32 * 1024 * 1024 ∧
      s.states.entries.length ≤ 4096 ∧
      ∀ state ∈ s.states.values,
        state.decodedBytes = (state.entries.values.map fun entry => entry.bytes.length).sum ∧
        ∀ finalIndex, state.finalIndex = some finalIndex →
          ∀ index ∈ state.entries.keys, index ≤ finalIndex := by
  have h : Accounted ((EventAssembler.new scope).run parse calls) := (accounted_new scope).run calls
  refine ⟨h.activeBytes, ?_, h.withinBytes, h.withinEvents, ?_⟩
  · rw [h.activeBytes]
    exact Int.natCast_nonneg _
  · intro state hstate
    obtain ⟨eventId, hget⟩ := OrderedMap.mem_values.mp hstate
    have hcounted := h.counted eventId state hget
    exact ⟨hcounted.decodedBytes, hcounted.upToFinal⟩

end Accounts

end RemotePi.Pwa
