import RemotePi.Pwa.CodecAgreement
import RemotePi.Pwa.EventTransfer
import RemotePi.Pwa.Protocol

/-!
# Published events are read

The events of a session as `publishFrames` (`pi-extension/src/timeline/v2_service.ts`, lines
210–236) publishes them: records that the schema of the extension takes, as texts in UTF-8. The
browser reads each of these texts (`pwa/src/lib/pwa/timeline-transfer.ts`, lines 109–139), so
that the fragments of large events give out the events.

Results:
* `readEvent_published`: the browser reads the text of every valid event.
* `fragments_round_trip`: large events of distinct ids are given out once each.
* `same_id_discarded`: of two valid events of one id a fragment is discarded.
-/

namespace RemotePi.Pwa

open RemotePi.Lib RemotePi.Timeline
open RemotePi.Protocol (textAt textAt_of_alike EventKind validId)

/-! ## Events of the extension -/

/-- A valid event of a session: a record in memory that `TimelineEventSchema` takes, the data that
    it returns, and what `publishFrames` reads of the data. -/
structure ValidEvent (numbers : JsonText.NumberText) (lib : Validator Protocol.FrameSchemas.rules)
    (scope : TransferScope) where
  members : List (String × Json)
  plain : (Json.object members).Plain
  hosted : JsonText.hosted numbers (.object members) = true
  data : Json
  parsed : lib.safeParse Protocol.FrameSchemas.timelineEventSchema (.object members) = some data
  event : Protocol.TimelineEvent
  encoded : event.encoded = Utf8.encode (JsonText.stringify numbers data)
  eventId : textAt "event_id" data = some event.eventId
  sessionId : textAt "session_id" data = some scope.sessionId
  historyGeneration : textAt "history_generation" data = some scope.historyGeneration

/-! ## Events of the browser -/

/-- The kind of a name. -/
def kindOf : String → EventKind
  | "user" => .user
  | "assistant" => .assistant
  | "tool" => .tool
  | "provider_error" => .providerError
  | "compaction" => .compaction
  | "branch_summary" => .branchSummary
  | _ => .custom

/-- The members of a parsed event that the timeline reads, and its text. -/
def eventOf (numbers : JsonText.NumberText) (value : Json) : TimelineEvent where
  eventId := (textAt "event_id" value).getD ""
  sessionId := (textAt "session_id" value).getD ""
  historyGeneration := (textAt "history_generation" value).getD ""
  timestamp := ((value.member? "timestamp").bind number?).getD 0
  kind := kindOf ((textAt "kind" value).getD "")
  groupId := textAt "group_id" value
  json := Codec.encodeJson numbers value

/-- `parseTimelineEventV2(decodeUtf8(encoded))`; none where it throws. -/
def readEvent (numbers : JsonText.NumberText) (lib : Validator FrameSchemas.rules)
    (encoded : List Byte) : Option TimelineEvent :=
  (Codec.parseTimelineEvent numbers lib (.text (Utf8.decodeText encoded))).toOption.map
    (eventOf numbers)

section Read

variable {numbers : JsonText.NumberText} {lib : Validator Protocol.FrameSchemas.rules}
  {lib' : Validator FrameSchemas.rules} {scope : TransferScope}

theorem ValidEvent.alike_data (e : ValidEvent numbers lib scope) :
    Json.Alike (.object e.members) e.data :=
  (lib.settles _ e.plain).alike e.data e.parsed

/-- The browser reads the text of a valid event as an event with the same members. -/
theorem readEvent_published (lib' : Validator FrameSchemas.rules)
    (e : ValidEvent numbers lib scope) (hbytes : e.event.bytes ≤ Protocol.maxWindowDecodeBytes) :
    ∃ parsed, readEvent numbers lib' e.event.encoded = some (eventOf numbers parsed) ∧
      Json.Alike (.object e.members) parsed := by
  have hschema : Protocol.Codec.parseSchema lib Protocol.FrameSchemas.timelineEventSchema
      (.object e.members) = .ok e.data := by
    rw [Protocol.Codec.parseSchema, e.parsed]
  -- the data differs from the record in the order of members at most
  have hdata := e.alike_data
  have hagree := @Codec.parseSchema_agree lib lib' _ _ _ _ FrameSchemas.event_equivalent hdata
    e.plain
  obtain ⟨parsed, hparsed, -, halike⟩ := hagree.exists_ok hschema
  obtain ⟨members', hmembers⟩ := Codec.exists_object_of_alike hdata
  have hdecoded : Utf8.decodeText e.event.encoded = JsonText.stringify numbers e.data := by
    rw [e.encoded, hmembers, JsonText.decodeText_stringify]
  have hread := JsonText.parse_stringify (JsonText.hosted_of_alike hdata e.hosted)
  have hsize : (Utf8.encode (JsonText.stringify numbers e.data)).length ≤
      FrameSchemas.maxWindowBytes := by
    rw [← e.encoded]
    exact hbytes
  have hsize' : Codec.getUtf8ByteLength numbers parsed ≤ FrameSchemas.maxWindowBytes := by
    rw [← Codec.getUtf8ByteLength_of_alike numbers halike]
    exact hsize
  refine ⟨parsed, ?_, hdata.trans halike⟩
  have hok : Codec.parseTimelineEvent numbers lib' (.text (Utf8.decodeText e.event.encoded)) =
      .ok parsed := by
    unfold Codec.parseTimelineEvent Codec.parseRaw
    rw [hdecoded]
    dsimp only
    rw [if_neg (Nat.not_lt.mpr hsize), hread]
    show (do
      let event ← Codec.parseSchema lib' FrameSchemas.timelineEventSchema e.data
      Codec.checkSize (Codec.getUtf8ByteLength numbers event) FrameSchemas.maxWindowBytes _
      return event) = _
    rw [hparsed]
    show (do
      Codec.checkSize (Codec.getUtf8ByteLength numbers parsed) FrameSchemas.maxWindowBytes _
      return parsed) = _
    rw [Codec.checkSize, if_neg (Nat.not_lt.mpr hsize')]
    rfl
  rw [readEvent, hok]
  rfl

/-- What the browser reads of an event, where it reads it. -/
def readOf (numbers : JsonText.NumberText) (lib' : Validator FrameSchemas.rules)
    (event : Protocol.TimelineEvent) : TimelineEvent :=
  (readEvent numbers lib' event.encoded).getD (eventOf numbers .null)

/-- The browser reads the events with the ids that their fragments name. -/
theorem reads_published (lib' : Validator FrameSchemas.rules)
    {events : List (ValidEvent numbers lib scope)}
    (hbytes : ∀ e ∈ events, e.event.bytes ≤ Protocol.maxWindowDecodeBytes) :
    Reads (readEvent numbers lib') (readOf numbers lib') scope
      (events.map ValidEvent.event) := by
  have hread : ∀ event ∈ events.map ValidEvent.event, ∃ e ∈ events, e.event = event ∧
      ∃ parsed, readEvent numbers lib' event.encoded = some (eventOf numbers parsed) ∧
        readOf numbers lib' event = eventOf numbers parsed ∧
          ∀ key, textAt key parsed = textAt key e.data := by
    intro event hevent
    obtain ⟨e, he, rfl⟩ := List.mem_map.mp hevent
    obtain ⟨parsed, hparsed, halike⟩ := readEvent_published lib' e (hbytes e he)
    refine ⟨e, he, rfl, parsed, hparsed, ?_, fun key => ?_⟩
    · rw [readOf, hparsed, Option.getD_some]
    · rw [← textAt_of_alike halike key, textAt_of_alike e.alike_data key]
  constructor
  · intro event hevent
    obtain ⟨e, -, rfl, parsed, hparsed, hof, -⟩ := hread event hevent
    rw [hparsed, hof]
  · intro event hevent
    obtain ⟨e, -, rfl, parsed, -, hof, htext⟩ := hread event hevent
    rw [hof, eventOf, htext, e.eventId, Option.getD_some]
  · intro event hevent
    obtain ⟨e, -, rfl, parsed, -, hof, htext⟩ := hread event hevent
    rw [hof, eventOf, htext "session_id", e.sessionId, Option.getD_some]
  · intro event hevent
    obtain ⟨e, -, rfl, parsed, -, hof, htext⟩ := hread event hevent
    rw [hof, eventOf, htext "history_generation", e.historyGeneration, Option.getD_some]

end Read

/-! ## Errors with long messages -/

/-- A message of control characters. -/
def controls (n : ℕ) : String := String.ofList (List.replicate n (Char.ofNat 1))

/-- The members of a provider error with a message. -/
def errorMembers (eventId : String) (timestamp : ℕ) (message : String) :
    List (String × Json) := [
  ("timestamp", .number timestamp),
  ("event_id", .string eventId),
  ("session_id", .string "s"),
  ("history_generation", .string "g"),
  ("group_id", .string "t"),
  ("kind", .string "provider_error"),
  ("message", .string message)]

theorem textLength_replicate {c : Char} (hc : c.toNat < 0x10000) (n : ℕ) :
    textLength (String.ofList (List.replicate n c)) = n := by
  have hone : Utf16.encodeChar c = [Utf16.unit c.toNat] := if_pos hc
  rw [textLength, String.toList_ofList, Utf16.encode]
  induction n with
  | zero => rfl
  | succ n ih =>
    rw [List.replicate_succ, List.flatMap_cons, hone, List.length_append, ih, Nat.add_comm]
    rfl

section ErrorMembers

variable {eventId message : String} {timestamp : ℕ}

/-- A provider error with an id and a message of legal length. -/
theorem accepts_error (hid : 1 ≤ textLength eventId ∧ textLength eventId ≤ 256)
    (hmessage : 1 ≤ textLength message ∧ textLength message ≤ 1048576) :
    Schema.accepts Protocol.FrameSchemas.rules Protocol.FrameSchemas.timelineEventSchema
      (.object (errorMembers eventId timestamp message)) = true := by
  have hids : ∀ text : String, 1 ≤ textLength text ∧ textLength text ≤ 256 →
      Schema.accepts Protocol.FrameSchemas.rules Protocol.FrameSchemas.id (.string text) =
        true := by
    intro text htext
    simp [Protocol.FrameSchemas.id, Schema.text, Schema.accepts, Scalar.accepts,
      TextRule.accepts, Protocol.maxIdChars, htext.1, htext.2]
  have hfields : (errorMembers eventId timestamp message).all (fun member =>
      Schema.acceptsField Protocol.FrameSchemas.rules (Schema.fields
        (Protocol.FrameSchemas.groupedEventBase ++ [
          ("kind", Schema.required (.literal "provider_error")),
          ("message", Schema.required Protocol.FrameSchemas.nonEmptyText)])) member.1 member.2) =
      true := by
    have hnumber : Schema.accepts Protocol.FrameSchemas.rules Protocol.FrameSchemas.timestamp
        (.number timestamp) = true := by
      simp [Protocol.FrameSchemas.timestamp, Schema.number, Schema.accepts, Scalar.accepts,
        NumberRule.accepts]
    have hkind : Schema.accepts Protocol.FrameSchemas.rules (.literal "provider_error")
        (.string "provider_error") = true := by
      simp [Schema.literal, Schema.accepts, Scalar.accepts, Literal.accepts]
    have htext : Schema.accepts Protocol.FrameSchemas.rules Protocol.FrameSchemas.nonEmptyText
        (.string message) = true := by
      simp [Protocol.FrameSchemas.nonEmptyText, Schema.text, Schema.accepts, Scalar.accepts,
        TextRule.accepts, Protocol.FrameSchemas.maxTextChars, hmessage.1, hmessage.2]
    simp only [errorMembers, List.all_cons, List.all_nil, Bool.and_true, Bool.and_eq_true]
    exact ⟨hnumber, hids _ hid, hids "s" (by decide), hids "g" (by decide), hids "t" (by decide),
      hkind, htext⟩
  have herror : Schema.accepts Protocol.FrameSchemas.rules Protocol.FrameSchemas.providerErrorEvent
      (.object (errorMembers eventId timestamp message)) = true := by
    rw [Protocol.FrameSchemas.providerErrorEvent, Schema.object, Schema.accepts, Json.members?,
      Option.any_some, hfields]
    rfl
  rw [Protocol.FrameSchemas.timelineEventSchema, Schema.accepts, Schema.acceptsSome_eq]
  simp [herror]

/-- The text of the error up to its message. -/
def errorHead (eventId : String) (timestamp : ℕ) : List Char :=
  '\x7b' :: (JsonText.quote "timestamp" ++ ':' :: (JsonText.oneDigit.write timestamp ++
    ',' :: (JsonText.quote "event_id" ++ ':' :: (JsonText.quote eventId ++
    ',' :: (JsonText.quote "session_id" ++ ':' :: (JsonText.quote "s" ++
    ',' :: (JsonText.quote "history_generation" ++ ':' :: (JsonText.quote "g" ++
    ',' :: (JsonText.quote "group_id" ++ ':' :: (JsonText.quote "t" ++
    ',' :: (JsonText.quote "kind" ++ ':' :: (JsonText.quote "provider_error" ++
    ',' :: (JsonText.quote "message" ++ [':', '"'])))))))))))))

theorem stringify_error (eventId message : String) (timestamp : ℕ) :
    JsonText.stringify JsonText.oneDigit (.object (errorMembers eventId timestamp message)) =
      errorHead eventId timestamp ++
        (message.toList.flatMap JsonText.escapeChar ++ ['"', '\x7d']) := by
  simp [errorMembers, errorHead, JsonText.stringify, JsonText.stringifyMembers, JsonText.quote]

/-- The bytes of the message, with the end of the text. -/
def errorTail (n : ℕ) : List Byte :=
  Utf8.encode ((controls n).toList.flatMap JsonText.escapeChar ++ ['"', '\x7d'])

/-- A control character is written with six. -/
theorem length_escaped (n : ℕ) :
    (Utf8.encode ((List.replicate n (Char.ofNat 1)).flatMap JsonText.escapeChar)).length =
      n * 6 := by
  have hescape : (Utf8.encode (JsonText.escapeChar (Char.ofNat 1))).length = 6 := by decide
  induction n with
  | zero => rfl
  | succ n ih =>
    rw [List.replicate_succ, List.flatMap_cons, Utf8.encode_append, List.length_append, ih,
      hescape]
    omega

theorem length_errorTail (n : ℕ) : (errorTail n).length = n * 6 + 2 := by
  have hend : (Utf8.encode ['"', '\x7d']).length = 2 := by decide
  rw [errorTail, controls, String.toList_ofList, Utf8.encode_append, List.length_append,
    length_escaped, hend]

end ErrorMembers

/-- A valid error of the session `s` with a message of control characters. -/
def longError (eventId : String) (timestamp n : ℕ) (hvalid : validId eventId = true)
    (hid : 1 ≤ textLength eventId ∧ textLength eventId ≤ 256)
    (hdigit : JsonText.oneDigit.isNumber timestamp = true) (hn : 1 ≤ n ∧ n ≤ 1048576) :
    ValidEvent JsonText.oneDigit (.reference Protocol.FrameSchemas.rules) ⟨"s", "g"⟩ where
  members := errorMembers eventId timestamp (controls n)
  plain := ⟨rfl, rfl⟩
  hosted := by
    have hkeys : ((errorMembers eventId timestamp (controls n)).map Prod.fst).Nodup := by
      simp [errorMembers]
    rw [JsonText.hosted, decide_eq_true hkeys]
    simp [errorMembers, JsonText.hosted, JsonText.hostedMembers, hdigit]
  data := .object (errorMembers eventId timestamp (controls n))
  parsed := Validator.returned_of_accepts
    (accepts_error hid (by rwa [controls, textLength_replicate (by decide)]))
  event :=
    { eventId
      kind := .providerError
      groupId := "t"
      encoded := Utf8.encode (errorHead eventId timestamp) ++ errorTail n
      eventId_valid := hvalid
      encoded_ne := by
        intro h
        have := congrArg List.length h
        rw [List.length_append, length_errorTail, List.length_nil] at this
        omega }
  encoded := by
    rw [stringify_error, Utf8.encode_append]
    rfl
  eventId := rfl
  sessionId := rfl
  historyGeneration := rfl

section LargeErrors

variable {eventId : String} {timestamp n : ℕ} {hvalid : validId eventId = true}
  {hid : 1 ≤ textLength eventId ∧ textLength eventId ≤ 256}
  {hdigit : JsonText.oneDigit.isNumber timestamp = true} {hn : 1 ≤ n ∧ n ≤ 1048576}

theorem bytes_longError : (longError eventId timestamp n hvalid hid hdigit hn).event.bytes =
    (Utf8.encode (errorHead eventId timestamp)).length + (n * 6 + 2) := by
  show (Utf8.encode (errorHead eventId timestamp) ++ errorTail n).length = _
  rw [List.length_append, length_errorTail]

theorem large_longError (h : 349526 ≤ n) : Protocol.maxFrameBytes <
    completeFrameBytes "s" "g" (longError eventId timestamp n hvalid hid hdigit hn).event := by
  have hbytes := @bytes_longError eventId timestamp n hvalid hid hdigit hn
  rw [completeFrameBytes]
  simp only [Protocol.maxFrameBytes]
  omega

end LargeErrors

theorem validId_e : validId "e" = true := by decide

theorem validId_f : validId "f" = true := by decide

theorem textLength_e : 1 ≤ textLength "e" ∧ textLength "e" ≤ 256 := by decide

theorem textLength_f : 1 ≤ textLength "f" ∧ textLength "f" ≤ 256 := by decide

theorem isNumber_zero : JsonText.oneDigit.isNumber (0 : ℕ) = true := by decide

theorem legal_400000 : 1 ≤ 400000 ∧ 400000 ≤ 1048576 := by decide

theorem legal_350000 : 1 ≤ 350000 ∧ 350000 ≤ 1048576 := by decide

/-- The error `e` at an instant. -/
def errorAt (timestamp : ℕ) (hdigit : JsonText.oneDigit.isNumber timestamp = true) :
    ValidEvent JsonText.oneDigit (.reference Protocol.FrameSchemas.rules) ⟨"s", "g"⟩ :=
  longError "e" timestamp 400000 validId_e textLength_e hdigit legal_400000

/-- The error `f`, with a shorter message. -/
def otherError :
    ValidEvent JsonText.oneDigit (.reference Protocol.FrameSchemas.rules) ⟨"s", "g"⟩ :=
  longError "f" 0 350000 validId_f textLength_f isNumber_zero legal_350000

/-! ## The round trip -/

/-- The delivered frames give out each event once, with its members, and nothing is discarded. -/
structure GivenOnce {numbers : JsonText.NumberText} {lib : Validator Protocol.FrameSchemas.rules}
    {scope : TransferScope} (lib' : Validator FrameSchemas.rules)
    (events : List (ValidEvent numbers lib scope))
    (delivered : List TimelineEventFragmentFrame) : Prop where
  results : ∀ result ∈ (EventAssembler.new scope).acceptAll (readEvent numbers lib') delivered,
    result = .pending ∨ ∃ e ∈ events, ∃ parsed, Json.Alike (.object e.members) parsed ∧
      result = .complete (eventOf numbers parsed)
  once : ∀ e ∈ events, ∃ parsed, Json.Alike (.object e.members) parsed ∧
    ((EventAssembler.new scope).acceptAll (readEvent numbers lib') delivered).count
      (.complete (eventOf numbers parsed)) = 1

/-- Valid events of distinct ids that are too large for one frame and fit together into the
    budget: whatever the order of their fragments, interleaved and with repetitions, the browser
    gives out each of them once. -/
theorem fragments_round_trip (numbers : JsonText.NumberText)
    (lib : Validator Protocol.FrameSchemas.rules) (lib' : Validator FrameSchemas.rules)
    (scope : TransferScope) (events : List (ValidEvent numbers lib scope))
    (delivered : List TimelineEventFragmentFrame) (hsession : validId scope.sessionId = true)
    (hgeneration : validId scope.historyGeneration = true)
    (hdistinct : (events.map fun e => e.event.eventId).Nodup)
    (hlarge : ∀ e ∈ events, Protocol.maxFrameBytes <
      completeFrameBytes scope.sessionId scope.historyGeneration e.event)
    (hbytes : (events.map fun e => e.event.bytes).sum ≤ Protocol.maxWindowDecodeBytes)
    (hdelivery : Delivery scope (events.map ValidEvent.event) delivered) :
    GivenOnce lib' events delivered := by
  have hone : ∀ e ∈ events, e.event.bytes ≤ Protocol.maxWindowDecodeBytes := fun e he =>
    (List.le_sum_of_mem (List.mem_map_of_mem he)).trans hbytes
  have hread : ∀ e ∈ events, ∃ parsed, Json.Alike (.object e.members) parsed ∧
      readOf numbers lib' e.event = eventOf numbers parsed := by
    intro e he
    obtain ⟨parsed, hparsed, halike⟩ := readEvent_published lib' e (hone e he)
    exact ⟨parsed, halike, by rw [readOf, hparsed, Option.getD_some]⟩
  obtain ⟨hresults, hcount⟩ := round_trip_of_reads hsession hgeneration
    (by rw [List.map_map]; exact hdistinct)
    (by
      intro event hevent
      obtain ⟨e, he, rfl⟩ := List.mem_map.mp hevent
      exact hlarge e he)
    (by rw [List.map_map]; exact hbytes) (reads_published lib' hone) hdelivery
  constructor
  · intro result hresult
    rcases hresults result hresult with hpending | ⟨event, hevent, rfl⟩
    · exact .inl hpending
    · obtain ⟨e, he, rfl⟩ := List.mem_map.mp hevent
      obtain ⟨parsed, halike, hof⟩ := hread e he
      exact .inr ⟨e, he, parsed, halike, by rw [hof]⟩
  · intro e he
    obtain ⟨parsed, halike, hof⟩ := hread e he
    refine ⟨parsed, halike, ?_⟩
    rw [← hof]
    exact hcount e.event (List.mem_map_of_mem he)

theorem fragments_round_trip_interleaved :
    GivenOnce (.reference FrameSchemas.rules) [errorAt 0 (by decide), otherError]
      (interleaved ⟨"s", "g"⟩ (errorAt 0 (by decide)).event otherError.event) := by
  have hfront : (Utf8.encode (errorHead "e" 0)).length = 122 := by decide +kernel
  have hfront' : (Utf8.encode (errorHead "f" 0)).length = 122 := by decide +kernel
  have hbytes : (errorAt 0 (by decide)).event.bytes = 122 + (400000 * 6 + 2) := by
    rw [← hfront]
    exact bytes_longError
  have hbytes' : otherError.event.bytes = 122 + (350000 * 6 + 2) := by
    rw [← hfront']
    exact bytes_longError
  have hlarge : Protocol.maxFrameBytes <
      completeFrameBytes "s" "g" (errorAt 0 (by decide)).event := large_longError (by decide)
  have hlarge' : Protocol.maxFrameBytes < completeFrameBytes "s" "g" otherError.event :=
    large_longError (by decide)
  refine fragments_round_trip JsonText.oneDigit (.reference Protocol.FrameSchemas.rules)
    (.reference FrameSchemas.rules) ⟨"s", "g"⟩ [errorAt 0 (by decide), otherError] _ (by decide)
    (by decide) ?_ ?_ ?_ (delivery_interleaved ?_ ?_ ?_)
  · simp [errorAt, otherError, longError]
  · simp only [List.forall_mem_cons]
    exact ⟨hlarge, hlarge', by simp⟩
  · rw [List.map_cons, List.map_cons, List.sum_cons, List.sum_cons, hbytes, hbytes']
    decide
  · decide
  · rw [List.forall_mem_cons, List.forall_mem_cons]
    exact ⟨hlarge, hlarge', by simp⟩
  · rw [hbytes]
    decide

/-- Of two valid events of one id whose fragments come by turns, one is discarded. -/
theorem same_id_discarded :
    ¬ ∀ (numbers : JsonText.NumberText) (lib : Validator Protocol.FrameSchemas.rules)
        (lib' : Validator FrameSchemas.rules) (scope : TransferScope)
        (events : List (ValidEvent numbers lib scope))
        (delivered : List TimelineEventFragmentFrame), validId scope.sessionId = true →
        validId scope.historyGeneration = true → (events.map ValidEvent.event).Nodup →
        (∀ e ∈ events, Protocol.maxFrameBytes <
          completeFrameBytes scope.sessionId scope.historyGeneration e.event) →
        (events.map fun e => e.event.bytes).sum ≤ Protocol.maxWindowDecodeBytes →
        Delivery scope (events.map ValidEvent.event) delivered →
        GivenOnce lib' events delivered := by
  intro hall
  let x := errorAt 0 (by decide)
  let y := errorAt 1 (by decide)
  have hfront : (Utf8.encode (errorHead "e" 0)).length = 122 := by decide +kernel
  have hfront' : (Utf8.encode (errorHead "e" 1)).length = 122 := by decide +kernel
  have hne : Utf8.encode (errorHead "e" 0) ≠ Utf8.encode (errorHead "e" 1) := by decide
  have hxbytes : x.event.bytes = 122 + (400000 * 6 + 2) := by
    rw [← hfront]
    exact bytes_longError
  have hybytes : y.event.bytes = 122 + (400000 * 6 + 2) := by
    rw [← hfront']
    exact bytes_longError
  obtain ⟨f, f', fs, hx, hy, hindex, hdata⟩ := @fragmentsOf_of_heads x.event y.event rfl _ _ _
    (hfront.trans hfront'.symm) (by rw [hfront]; decide) rfl rfl hne
  have hf : f ∈ fragmentsOf x.event := by simp [hx]
  have hf' : f' ∈ fragmentsOf y.event := by simp [hy]
  have hxlarge : Protocol.maxFrameBytes < completeFrameBytes "s" "g" x.event :=
    large_longError (by decide)
  have hylarge : Protocol.maxFrameBytes < completeFrameBytes "s" "g" y.event :=
    large_longError (by decide)
  have hlarge : ∀ e ∈ [x, y], Protocol.maxFrameBytes < completeFrameBytes "s" "g" e.event := by
    simp only [List.forall_mem_cons]
    exact ⟨hxlarge, hylarge, by simp⟩
  have hdelivery : Delivery ⟨"s", "g"⟩ [x.event, y.event]
      ((f :: f' :: fs).map (frameOf ⟨"s", "g"⟩)) := by
    refine delivery_of_heads hx hy (fun heq => hdata (by rw [heq])) ?_
    simp only [List.forall_mem_cons]
    exact ⟨hxlarge, hylarge, by simp⟩
  have hdiffer : x.event ≠ y.event := by
    intro heq
    have hfragments := hx.symm.trans ((congrArg fragmentsOf heq).trans hy)
    exact hdata (by rw [(List.cons.inj hfragments).1])
  have hgiven := hall JsonText.oneDigit _ (.reference FrameSchemas.rules) ⟨"s", "g"⟩ [x, y]
    ((f :: f' :: fs).map (frameOf ⟨"s", "g"⟩)) (by decide) (by decide)
    (List.nodup_cons.mpr ⟨by simpa using hdiffer, List.nodup_singleton _⟩) hlarge
    (by
      rw [List.map_cons, List.map_cons, List.sum_cons, List.sum_cons, hxbytes, hybytes]
      decide)
    hdelivery
  have hone : ∀ e ∈ [x], e.event.bytes ≤ Protocol.maxWindowDecodeBytes := by
    intro e he
    rw [List.mem_singleton.mp he, hxbytes]
    decide
  obtain ⟨s', result, haccept, hscope, st, hst, hholds⟩ :=
    accept_first (reads_published (.reference FrameSchemas.rules) hone) (by decide) (by decide)
      (by rw [hxbytes]; decide) (by rw [hxbytes]; decide) hf
  obtain ⟨reason, hdiscarded⟩ := @accept_discarded
    (readEvent JsonText.oneDigit (.reference FrameSchemas.rules)) ⟨"s", "g"⟩ x.event y.event s' f f'
    hscope (by decide) (by decide) (by rw [hybytes]; decide) hf hf' rfl hindex.symm hdata st _ hst
    hholds (Finset.mem_singleton_self _)
  have hmem : TransferResult.discarded reason ∈ (EventAssembler.new ⟨"s", "g"⟩).acceptAll
      (readEvent JsonText.oneDigit (.reference FrameSchemas.rules))
      ((f :: f' :: fs).map (frameOf ⟨"s", "g"⟩)) := by
    rw [List.map_cons, List.map_cons, EventAssembler.acceptAll, haccept]
    dsimp only
    rw [EventAssembler.acceptAll, ← hdiscarded]
    simp
  rcases hgiven.results _ hmem with hpending | ⟨e, -, parsed, -, hcomplete⟩
  · cases hpending
  · cases hcomplete

end RemotePi.Pwa
