import RemotePi.Lib.Json

/-!
# The questions of a clarification flow

The events of `pi-ask` as the bridge reads them and the questions as it sends them on
(`pi-extension/src/extension_ui_bridge.ts`, lines 359–432; `protocol/types.ts`, lines 36–73).

Results:
* `parseOption_json`, `parseQuestion_json`: what is sent is read again as it is.
* `mapM_parseQuestion_json`: so are all questions of a flow.
-/

namespace RemotePi.Host

open RemotePi.Lib

/-! ## Members -/

/-- A text that is not empty. -/
abbrev NonEmptyText := {text : String // text ≠ ""}

/-- A value that is a string. -/
def typedString : Option Json → Option String
  | some (.string text) => some text
  | _ => none

/-- `asString` (lines 426–428). -/
def asString (value : Option Json) : Option NonEmptyText :=
  (typedString value).bind fun text => if h : text ≠ "" then some ⟨text, h⟩ else none

/-- `AskQuestionWireType`. -/
inductive AskQuestionType where
  | single
  | multi
  | preview
deriving DecidableEq, Repr

def AskQuestionType.name : AskQuestionType → String
  | .single => "single"
  | .multi => "multi"
  | .preview => "preview"

/-- `asQuestionType` (lines 420–424). -/
def asQuestionType (value : Option Json) : Option AskQuestionType :=
  match typedString value with
  | some "single" => some .single
  | some "multi" => some .multi
  | some "preview" => some .preview
  | _ => none

/-- A member that is `true`. -/
def isTrue : Option Json → Bool
  | some (.bool value) => value
  | _ => false

/-! ## Options and questions -/

/-- `AskOptionWire`. -/
structure AskOption where
  value : NonEmptyText
  label : NonEmptyText
  description : Option NonEmptyText
  preview : Option NonEmptyText
  freeform : Bool
deriving DecidableEq, Repr

/-- `AskQuestionWire`. -/
structure AskQuestion where
  id : String
  label : String
  prompt : String
  type : AskQuestionType
  required : Bool
  presentedType : Option AskQuestionType
  requestedType : Option AskQuestionType
  options : List AskOption
deriving DecidableEq, Repr

def nonEmpty? (text : String) : Option NonEmptyText :=
  if h : text ≠ "" then some ⟨text, h⟩ else none

/-- `parseOption` (lines 404–418). -/
def parseOption : Json → Option AskOption
  | .object members =>
    let value := (typedString (members.lookup "value")).or
      ((asString (members.lookup "label")).map Subtype.val)
    let label := (typedString (members.lookup "label")).or value
    match value.bind nonEmpty?, label.bind nonEmpty? with
    | some value, some label =>
      some
        { value
          label
          description := asString (members.lookup "description")
          preview := asString (members.lookup "preview")
          freeform := isTrue (members.lookup "freeform") }
    | _, _ => none
  | _ => none

/-- `parseQuestion` (lines 380–402). -/
def parseQuestion : Json → Option AskQuestion
  | .object members =>
    match typedString (members.lookup "id"), typedString (members.lookup "prompt"),
      members.lookup "options" with
    | some id, some prompt, some (.array options) =>
      (options.mapM parseOption).map fun options =>
        { id
          label := (typedString (members.lookup "label")).getD prompt
          prompt
          type := (asQuestionType (members.lookup "type")).getD .single
          required := isTrue (members.lookup "required")
          presentedType := asQuestionType (members.lookup "presentedType")
          requestedType := asQuestionType (members.lookup "requestedType")
          options }
    | _, _, _ => none
  | _ => none

/-! ## What is sent -/

/-- A member that is left out when it is `undefined`. -/
def textIfAny (key : String) (value : Option String) : List (String × Json) :=
  (value.map fun text => (key, Json.string text)).toList

def AskOption.members (option : AskOption) : List (String × Json) :=
  [("value", .string option.value.val), ("label", .string option.label.val)] ++
    textIfAny "description" (option.description.map Subtype.val) ++
    textIfAny "preview" (option.preview.map Subtype.val) ++
    if option.freeform then [("freeform", .bool true)] else []

def AskOption.json (option : AskOption) : Json := .object option.members

def AskQuestion.members (question : AskQuestion) : List (String × Json) :=
  [("id", .string question.id), ("label", .string question.label),
    ("prompt", .string question.prompt), ("type", .string question.type.name),
    ("required", .bool question.required)] ++
    textIfAny "presentedType" (question.presentedType.map AskQuestionType.name) ++
    textIfAny "requestedType" (question.requestedType.map AskQuestionType.name) ++
    [("options", .array (question.options.map AskOption.json))]

def AskQuestion.json (question : AskQuestion) : Json := .object question.members

section RoundTrip

@[simp] theorem typedString_string (text : String) :
    typedString (some (.string text)) = some text := rfl

theorem nonEmpty?_val (text : NonEmptyText) : nonEmpty? text.val = some text := dif_pos text.2

theorem asString_string (text : NonEmptyText) :
    asString (some (.string text.val)) = some text := nonEmpty?_val text

theorem asString_map (value : Option NonEmptyText) :
    asString ((value.map Subtype.val).map Json.string) = value := by
  cases value with
  | none => rfl
  | some text => exact asString_string text

theorem asQuestionType_name (type : AskQuestionType) :
    asQuestionType (some (.string type.name)) = some type := by
  cases type <;> rfl

theorem asQuestionType_map (type : Option AskQuestionType) :
    asQuestionType ((type.map AskQuestionType.name).map Json.string) = type := by
  cases type with
  | none => rfl
  | some type => exact asQuestionType_name type

theorem lookup_textIfAny (key other : String) (value : Option String) :
    (textIfAny other value).lookup key = if key = other then value.map Json.string else none := by
  cases value with
  | none => simp [textIfAny]
  | some text =>
    by_cases h : key = other
    · simp [textIfAny, h]
    · have hbeq : (key == other) = false := beq_eq_false_iff_ne.mpr h
      simp [textIfAny, List.lookup_cons, h, hbeq]

theorem AskOption.lookup_members (option : AskOption) :
    option.members.lookup "value" = some (.string option.value.val) ∧
      option.members.lookup "label" = some (.string option.label.val) ∧
      option.members.lookup "description" =
        (option.description.map Subtype.val).map Json.string ∧
      option.members.lookup "preview" = (option.preview.map Subtype.val).map Json.string ∧
      isTrue (option.members.lookup "freeform") = option.freeform := by
  unfold AskOption.members
  simp only [List.lookup_append, lookup_textIfAny]
  refine ⟨rfl, rfl, ?_, ?_, ?_⟩ <;> cases option.freeform <;>
    simp [List.lookup_cons, isTrue]

theorem AskQuestion.lookup_members (question : AskQuestion) :
    question.members.lookup "id" = some (.string question.id) ∧
      question.members.lookup "label" = some (.string question.label) ∧
      question.members.lookup "prompt" = some (.string question.prompt) ∧
      question.members.lookup "type" = some (.string question.type.name) ∧
      question.members.lookup "required" = some (.bool question.required) ∧
      question.members.lookup "presentedType" =
        (question.presentedType.map AskQuestionType.name).map Json.string ∧
      question.members.lookup "requestedType" =
        (question.requestedType.map AskQuestionType.name).map Json.string ∧
      question.members.lookup "options" =
        some (.array (question.options.map AskOption.json)) := by
  unfold AskQuestion.members
  simp only [List.lookup_append, lookup_textIfAny]
  refine ⟨rfl, rfl, rfl, rfl, rfl, ?_, ?_, ?_⟩ <;> simp [List.lookup_cons]

/-- An option that is sent is read again as it is. -/
theorem parseOption_json (option : AskOption) : parseOption option.json = some option := by
  obtain ⟨hvalue, hlabel, hdescription, hpreview, hfreeform⟩ := option.lookup_members
  unfold AskOption.json parseOption
  dsimp only
  rw [hvalue, hlabel, hdescription, hpreview, hfreeform, asString_map, asString_map]
  simp [nonEmpty?_val]

theorem mapM_parseOption_json (options : List AskOption) :
    (options.map AskOption.json).mapM parseOption = some options := by
  induction options with
  | nil => rfl
  | cons option options ih =>
    rw [List.map_cons, List.mapM_cons, parseOption_json, ih]
    rfl

/-- A question that is sent is read again as it is. -/
theorem parseQuestion_json (question : AskQuestion) :
    parseQuestion question.json = some question := by
  obtain ⟨hid, hlabel, hprompt, htype, hrequired, hpresented, hrequested, hoptions⟩ :=
    question.lookup_members
  unfold AskQuestion.json parseQuestion
  dsimp only
  rw [hid, hlabel, hprompt, htype, hrequired, hpresented, hrequested, hoptions,
    asQuestionType_map, asQuestionType_map]
  simp only [typedString_string]
  rw [mapM_parseOption_json, asQuestionType_name]
  rfl

theorem mapM_parseQuestion_json (questions : List AskQuestion) :
    (questions.map AskQuestion.json).mapM parseQuestion = some questions := by
  induction questions with
  | nil => rfl
  | cons question questions ih =>
    rw [List.map_cons, List.mapM_cons, parseQuestion_json, ih]
    rfl

end RoundTrip

/-! ## Events -/

/-- `ActiveFlow` (lines 46–52), with a first question. -/
structure ActiveFlow where
  flowId : String
  toolCallId : Option String
  source : String
  title : Option String
  first : AskQuestion
  others : List AskQuestion
deriving DecidableEq, Repr

def ActiveFlow.questions (flow : ActiveFlow) : List AskQuestion := flow.first :: flow.others

/-- The version that an event must have. -/
def isVersionOne : Option Json → Bool
  | some (.number version) => version = 1
  | _ => false

/-- `parseStartedEvent` (lines 359–378) and the flow of the event (lines 138–144). -/
def parseStartedEvent : Json → Option ActiveFlow
  | .object members =>
    if isVersionOne (members.lookup "version") then
      match typedString (members.lookup "flowId"), members.lookup "questions" with
      | some flowId, some (.array questions) =>
        (questions.mapM parseQuestion).bind fun questions =>
          match questions with
          | [] => none
          | first :: others =>
            some
              { flowId
                toolCallId := (asString (members.lookup "toolCallId")).map Subtype.val
                source := ((asString (members.lookup "source")).map Subtype.val).getD "tool"
                title := (asString (members.lookup "title")).map Subtype.val
                first
                others }
      | _, _ => none
    else none
  | _ => none

/-- The flow that a `completed` event names (lines 151–153). -/
def completedFlow (raw : Json) : Option String :=
  if isVersionOne (raw.member? "version") then typedString (raw.member? "flowId") else none

/-- A `submit-result` that reports an error (lines 176–192): its flow, if it names one, and the
    message for the app. -/
def submitError (raw : Json) : Option (Option String × String) :=
  if isVersionOne (raw.member? "version") && !isTrue (raw.member? "ok") then
    some (typedString (raw.member? "flowId"),
      ((typedString (raw.member? "message")).or (typedString (raw.member? "error"))).getD
        "Clarification answer was not accepted.")
  else none

end RemotePi.Host
