import RemotePi.Lib.JsonAlike
import RemotePi.Lib.OrderedMap
import RemotePi.Lib.Utf16

/-!
# Schemas of JSON values

Schemas as data, with strict objects, unions and refinements; which values a schema accepts; and
what is expected of a library that parses by schemas: it accepts those values, and returns them
up to the order of their members. Two schemas that are written with their fields in another order
accept the same values.

Texts are measured in UTF-16 code units, and the integers are the safe ones.

Results:
* `Validator.settles`: a validator accepts what its schema accepts, and returns it.
* `accepts_of_alike`: a schema does not tell values apart that differ in the order of members.
* `accepts_of_equivalent`: equivalent schemas accept the same values.
* `Validator.agree`: two validators, on equivalent schemas and values that are alike.
-/

namespace RemotePi.Lib

/-! ## Schemas -/

/-- What a text has to be: its length, and a named pattern. -/
structure TextRule (ρ : Type) where
  min : ℕ := 0
  max : Option ℕ := none
  pattern : Option ρ := none
deriving DecidableEq

/-- What a number has to be. -/
structure NumberRule where
  int : Bool := false
  nonnegative : Bool := false
  max : Option ℕ := none
deriving DecidableEq

/-- The value of a literal schema. -/
inductive Literal where
  | bool (value : Bool)
  | number (value : ℕ)
  | text (value : String)
deriving DecidableEq

/-- The schemas of values that have no parts. -/
inductive Scalar (ρ : Type) where
  | null
  | boolean
  | number (rule : NumberRule)
  | text (rule : TextRule ρ)
  | literal (value : Literal)
  | enum (values : List String)
  | never
deriving DecidableEq

/-- The bounds of arbitrary JSON values. -/
structure JsonBounds where
  text : ℕ
  items : ℕ
  key : ℕ
deriving DecidableEq

/-- A schema over named patterns and refinements. A field of an object is optional or not. -/
inductive Schema (ρ κ : Type) where
  | scalar (scalar : Scalar ρ)
  | jsonValue (bounds : JsonBounds)
  | nullable (schema : Schema ρ κ)
  | array (item : Schema ρ κ) (max : ℕ)
  | record (key : TextRule ρ) (value : Schema ρ κ)
  | strictObject (shape : List (String × Bool × Schema ρ κ))
  | union (options : List (Schema ρ κ))
  | superRefine (schema : Schema ρ κ) (check : κ)

/-- What the named patterns and refinements test. A refinement reads a value by its keys. -/
structure Rules (ρ κ : Type) where
  pattern : ρ → String → Bool
  refinement : κ → Json → Bool
  refinement_of_alike : ∀ check value value', Json.Alike value value' →
    refinement check value = refinement check value'

namespace Json

/-- The items of an array. -/
def items? : Json → Option (List Json)
  | .array items => some items
  | _ => none

/-- The members of an object. -/
def members? : Json → Option (List (String × Json))
  | .object members => some members
  | _ => none

/-- The text of a string. -/
def text? : Json → Option String
  | .string s => some s
  | _ => none

/-- The value is null. -/
def isNull : Json → Bool
  | .null => true
  | _ => false

end Json

/-- The length of a text in code units. -/
def textLength (text : String) : ℕ := (Utf16.encode text.toList).length

/-- The largest safe integer. -/
def maxSafeInteger : ℕ := 2 ^ 53 - 1

/-- The number is an integer, not negative and not too large, where the rule asks for it. -/
def NumberRule.accepts (rule : NumberRule) (q : ℚ) : Bool :=
  (!rule.int || decide (q.den = 1 ∧ q.num.natAbs ≤ maxSafeInteger)) &&
    (!rule.nonnegative || decide (0 ≤ q)) && rule.max.all fun max => decide (q ≤ max)

/-- The value is the literal. -/
def Literal.accepts : Literal → Json → Bool
  | .bool b, .bool b' => decide (b = b')
  | .number n, .number q => decide ((n : ℚ) = q)
  | .text s, .string s' => decide (s = s')
  | _, _ => false

section Leaves

variable {ρ κ : Type} (rules : Rules ρ κ)

/-- The text has a legal length and the pattern of the rule. -/
def TextRule.accepts (rule : TextRule ρ) (text : String) : Bool :=
  decide (rule.min ≤ textLength text) && rule.max.all (fun max => decide (textLength text ≤ max)) &&
    rule.pattern.all fun pattern => rules.pattern pattern text

/-- What a schema without parts takes. -/
def Scalar.accepts : Scalar ρ → Json → Bool
  | .null, .null => true
  | .boolean, .bool _ => true
  | .number rule, .number q => rule.accepts q
  | .text rule, .string s => rule.accepts rules s
  | .literal expected, value => expected.accepts value
  | .enum values, .string s => values.contains s
  | _, _ => false

end Leaves

namespace Schema

variable {ρ κ : Type}

/-- The fields of an object literal: a later value of a key takes the place of the one before. -/
def fields (entries : List (String × Bool × Schema ρ κ)) : List (String × Bool × Schema ρ κ) :=
  entries.foldl (fun shape entry => OrderedMap.setEntry entry.1 entry.2 shape) []

/-- `z.string()` with its checks. -/
def text (rule : TextRule ρ) : Schema ρ κ := .scalar (.text rule)

/-- `z.number()` with its checks. -/
def number (rule : NumberRule) : Schema ρ κ := .scalar (.number rule)

/-- `z.boolean()`. -/
def boolean : Schema ρ κ := .scalar .boolean

/-- `z.never()`. -/
def never : Schema ρ κ := .scalar .never

/-- `z.enum`. -/
def enum (values : List String) : Schema ρ κ := .scalar (.enum values)

/-- `z.literal` of a text. -/
def literal (value : String) : Schema ρ κ := .scalar (.literal (.text value))

/-- `z.literal` of a Boolean. -/
def literalBool (value : Bool) : Schema ρ κ := .scalar (.literal (.bool value))

/-- `z.literal` of a number. -/
def literalNumber (value : ℕ) : Schema ρ κ := .scalar (.literal (.number value))

/-- A strict object whose shape is an object literal. -/
def object (entries : List (String × Bool × Schema ρ κ)) : Schema ρ κ :=
  .strictObject (fields entries)

/-- A field that must be there. -/
def required (schema : Schema ρ κ) : Bool × Schema ρ κ := (false, schema)

/-- A field that may be missing. -/
def optional (schema : Schema ρ κ) : Bool × Schema ρ κ := (true, schema)

/-- Arbitrary JSON values, one level unfolded. -/
def jsonUnion (bounds : JsonBounds) : Schema ρ κ :=
  .union [.scalar .null, .scalar .boolean, .scalar (.number {}),
    .scalar (.text { max := some bounds.text }), .array (.jsonValue bounds) bounds.items,
    .record { max := some bounds.key } (.jsonValue bounds)]

section Accepts

variable (rules : Rules ρ κ)

mutual

/-- What `z.json()` with bounds takes. -/
def acceptsJson (bounds : JsonBounds) : Json → Bool
  | .string s => decide (textLength s ≤ bounds.text)
  | .array items => decide (items.length ≤ bounds.items) && acceptsJsonItems bounds items
  | .object members => acceptsJsonMembers bounds members
  | _ => true

/-- The items of an array keep the bounds. -/
def acceptsJsonItems (bounds : JsonBounds) : List Json → Bool
  | [] => true
  | value :: items => acceptsJson bounds value && acceptsJsonItems bounds items

/-- The keys and values of an object keep the bounds. -/
def acceptsJsonMembers (bounds : JsonBounds) : List (String × Json) → Bool
  | [] => true
  | (key, value) :: members =>
    decide (textLength key ≤ bounds.key) && acceptsJson bounds value &&
      acceptsJsonMembers bounds members

end

mutual

/-- The values that a schema accepts. -/
def accepts : Schema ρ κ → Json → Bool
  | .scalar leaf, value => leaf.accepts rules value
  | .jsonValue bounds, value => acceptsJson bounds value
  | .nullable schema, value => value.isNull || accepts schema value
  | .array item max, value =>
    value.items?.any fun items => decide (items.length ≤ max) && items.all (accepts item)
  | .record key schema, value =>
    value.members?.any fun members => members.all fun member =>
      key.accepts rules member.1 && accepts schema member.2
  | .strictObject shape, value =>
    value.members?.any fun members =>
      members.all (fun member => acceptsField shape member.1 member.2) &&
        shape.all fun field => field.2.1 || (members.lookup field.1).isSome
  | .union options, value => acceptsSome options value
  | .superRefine schema check, value => accepts schema value && rules.refinement check value

/-- The key is the one of a field, whose schema accepts the value. -/
def acceptsField : List (String × Bool × Schema ρ κ) → String → Json → Bool
  | [], _, _ => false
  | (name, _, schema) :: shape, key, value =>
    if key = name then accepts schema value else acceptsField shape key value

/-- Some option of a union takes the value. -/
def acceptsSome : List (Schema ρ κ) → Json → Bool
  | [], _ => false
  | schema :: options, value => accepts schema value || acceptsSome options value

end

end Accepts

/-! ## Equivalent schemas -/

section Equivalent

variable [DecidableEq ρ] [DecidableEq κ]

mutual

/-- The schemas are equal but for the order of their fields. -/
def equivalent : Schema ρ κ → Schema ρ κ → Bool
  | .scalar leaf, .scalar leaf' => decide (leaf = leaf')
  | .jsonValue bounds, .jsonValue bounds' => decide (bounds = bounds')
  | .nullable schema, .nullable schema' => equivalent schema schema'
  | .array item max, .array item' max' => decide (max = max') && equivalent item item'
  | .record key value, .record key' value' => decide (key = key') && equivalent value value'
  | .strictObject shape, .strictObject shape' =>
    decide ((shape.map Prod.fst).Nodup) && decide ((shape'.map Prod.fst).Nodup) &&
      decide (shape.length = shape'.length) && equivalentFields shape shape'
  | .union options, .union options' => equivalentOptions options options'
  | .superRefine schema check, .superRefine schema' check' =>
    decide (check = check') && equivalent schema schema'
  | _, _ => false

/-- Every field of the first shape has an equivalent one in the second. -/
def equivalentFields :
    List (String × Bool × Schema ρ κ) → List (String × Bool × Schema ρ κ) → Bool
  | [], _ => true
  | (key, optional, schema) :: shape, shape' =>
    ((shape'.lookup key).any fun field =>
      decide (optional = field.1) && equivalent schema field.2) && equivalentFields shape shape'

/-- The options are equivalent one by one. -/
def equivalentOptions : List (Schema ρ κ) → List (Schema ρ κ) → Bool
  | [], [] => true
  | schema :: options, schema' :: options' =>
    equivalent schema schema' && equivalentOptions options options'
  | _, _ => false

end

end Equivalent

end Schema

/-! ## Validators -/

/-- A value with distinct keys, none of which is the one that the language treats apart. -/
structure Json.Plain (value : Json) : Prop where
  distinct : value.distinctKeys = true
  lacks : (value.holds (fun _ => true) fun key => decide (key ≠ "__proto__")) = true

/-- The members of an object are the images of the others, under the same keys. -/
def Json.Mapped (image : String → Json → Option Json) (members : List (String × Json))
    (parsed : Json) : Prop :=
  ∃ members', parsed = .object members' ∧ (members'.map Prod.fst).Nodup ∧
    ∀ key, members'.lookup key = (members.lookup key).bind (image key)

/-- A library that parses values by their schemas: what it returns, if anything, and the text of
the issues that it finds. The order of the members of what it returns is left open. -/
structure Validator {ρ κ : Type} (rules : Rules ρ κ) where
  safeParse : Schema ρ κ → Json → Option Json
  issues : Schema ρ κ → Json → String
  scalar : ∀ leaf value, safeParse (.scalar leaf) value =
    if leaf.accepts rules value then some value else none
  jsonValue : ∀ bounds value,
    safeParse (.jsonValue bounds) value = safeParse (Schema.jsonUnion bounds) value
  nullable : ∀ schema value, safeParse (.nullable schema) value =
    if value.isNull then some value else safeParse schema value
  array : ∀ item max value, safeParse (.array item max) value =
    (value.items?.filter fun items => decide (items.length ≤ max)).bind fun items =>
      (items.mapM (safeParse item)).map .array
  record_none : ∀ key schema value, value.members? = none →
    safeParse (.record key schema) value = none
  record_isSome : ∀ key schema members, (Json.object members).Plain →
    (safeParse (.record key schema) (.object members)).isSome =
      members.all fun member => key.accepts rules member.1 && (safeParse schema member.2).isSome
  record_some : ∀ key schema members parsed, (Json.object members).Plain →
    safeParse (.record key schema) (.object members) = some parsed →
      Json.Mapped (fun _ => safeParse schema) members parsed
  strictObject_none : ∀ shape value, value.members? = none →
    safeParse (.strictObject shape) value = none
  strictObject_isSome : ∀ shape members, (Json.object members).Plain →
    (safeParse (.strictObject shape) (.object members)).isSome =
      (members.all (fun member => (shape.lookup member.1).any fun field =>
          (safeParse field.2 member.2).isSome) &&
        shape.all fun field => field.2.1 || (members.lookup field.1).isSome)
  strictObject_some : ∀ shape members parsed, (Json.object members).Plain →
    safeParse (.strictObject shape) (.object members) = some parsed →
      Json.Mapped (fun key value => (shape.lookup key).bind fun field => safeParse field.2 value)
        members parsed
  union : ∀ options value, safeParse (.union options) value =
    options.findSome? fun schema => safeParse schema value
  superRefine : ∀ schema check value, safeParse (.superRefine schema check) value =
    (safeParse schema value).filter (rules.refinement check)

/-! ## Parts of a value -/

theorem all_of_forall₂ {α β : Type} {r : α → β → Prop} {l : List α} {l' : List β}
    {p : α → Bool} {q : β → Bool} (h : List.Forall₂ r l l')
    (hpq : ∀ a ∈ l, ∀ b, r a b → p a = q b) : l.all p = l'.all q := by
  induction h with
  | nil => rfl
  | cons hr _ ih =>
    rw [List.all_cons, List.all_cons, hpq _ List.mem_cons_self _ hr,
      ih fun a ha => hpq a (List.mem_cons_of_mem _ ha)]

theorem all_congr_of_mem {α : Type} {l : List α} {p q : α → Bool} (h : ∀ a ∈ l, p a = q a) :
    l.all p = l.all q := by
  refine all_of_forall₂ (r := Eq) (List.forall₂_refl l) fun a ha b hab => ?_
  rw [← hab]
  exact h a ha

namespace Json

theorem plain_of_alike {value value' : Json} (h : Alike value value') (hplain : value.Plain) :
    value'.Plain := ⟨h.distinct', holds_of_alike h hplain.lacks⟩

theorem Plain.item {items : List Json} (h : (Json.array items).Plain) {value : Json}
    (hmem : value ∈ items) : value.Plain := by
  have hdistinct := h.distinct
  have hlacks := h.lacks
  rw [distinctKeys] at hdistinct
  rw [holds, holdsItems_iff] at hlacks
  exact ⟨distinctItems_iff.mp hdistinct value hmem, hlacks value hmem⟩

theorem Plain.member {members : List (String × Json)} (h : (Json.object members).Plain)
    {member : String × Json} (hmem : member ∈ members) : member.2.Plain := by
  have hlacks := h.lacks
  rw [holds, holdsMembers_iff] at hlacks
  exact ⟨(distinctKeys_object.mp h.distinct).2 member hmem, (hlacks member hmem).2⟩

theorem Plain.nodup {members : List (String × Json)} (h : (Json.object members).Plain) :
    (members.map Prod.fst).Nodup := (distinctKeys_object.mp h.distinct).1

/-- A test of the members of an object does not tell objects apart that are alike. -/
theorem all_of_alike {members members' : List (String × Json)}
    (h : Alike (.object members) (.object members')) {test test' : String × Json → Bool}
    (htest : ∀ key value value', (key, value) ∈ members → Alike value value' →
      test (key, value) = test' (key, value')) : members.all test = members'.all test' := by
  obtain ⟨hn, hn', hrel⟩ := alike_object_iff.mp h
  rw [Bool.eq_iff_iff, List.all_eq_true, List.all_eq_true]
  constructor
  · intro hall member' hmem'
    have hfound := hrel member'.1
    rw [lookup_of_mem hn' hmem'] at hfound
    obtain ⟨value, hvalue, halike⟩ := some_rel hfound
    have hmem := mem_of_lookup hvalue
    rw [← htest _ _ _ hmem halike]
    exact hall _ hmem
  · intro hall member hmem
    have hfound := hrel member.1
    rw [lookup_of_mem hn hmem] at hfound
    obtain ⟨value', hvalue', halike⟩ := rel_some hfound
    rw [htest _ _ _ hmem halike]
    exact hall _ (mem_of_lookup hvalue')

theorem isSome_lookup_of_alike {members members' : List (String × Json)}
    (h : Alike (.object members) (.object members')) (key : String) :
    (members.lookup key).isSome = (members'.lookup key).isSome := by
  have hrel := (alike_object_iff.mp h).2.2 key
  generalize members.lookup key = found at hrel
  generalize members'.lookup key = found' at hrel
  cases hrel <;> rfl

end Json

/-! ## Acceptance -/

namespace Schema

variable {ρ κ : Type}

/-- Induction over a schema. -/
theorem rec_mem {motive : Schema ρ κ → Prop} (scalar : ∀ leaf, motive (.scalar leaf))
    (jsonValue : ∀ bounds, motive (.jsonValue bounds))
    (nullable : ∀ schema, motive schema → motive (.nullable schema))
    (array : ∀ item max, motive item → motive (.array item max))
    (record : ∀ key value, motive value → motive (.record key value))
    (strictObject : ∀ shape, (∀ field ∈ shape, motive field.2.2) → motive (.strictObject shape))
    (union : ∀ options, (∀ schema ∈ options, motive schema) → motive (.union options))
    (superRefine : ∀ schema check, motive schema → motive (.superRefine schema check)) :
    ∀ schema, motive schema
  | .scalar leaf => scalar leaf
  | .jsonValue bounds => jsonValue bounds
  | .nullable schema => nullable schema
    (rec_mem scalar jsonValue nullable array record strictObject union superRefine schema)
  | .array item max => array item max
    (rec_mem scalar jsonValue nullable array record strictObject union superRefine item)
  | .record key value => record key value
    (rec_mem scalar jsonValue nullable array record strictObject union superRefine value)
  | .strictObject shape => strictObject shape fun field _ =>
    rec_mem scalar jsonValue nullable array record strictObject union superRefine field.2.2
  | .union options => union options fun schema _ =>
    rec_mem scalar jsonValue nullable array record strictObject union superRefine schema
  | .superRefine schema check => superRefine schema check
    (rec_mem scalar jsonValue nullable array record strictObject union superRefine schema)
termination_by schema => sizeOf schema
decreasing_by
  all_goals first | decreasing_tactic | skip
  · next h =>
    have hmem := List.sizeOf_lt_of_mem h
    obtain ⟨key, optional, schema⟩ := field
    simp only [Schema.strictObject.sizeOf_spec, Prod.mk.sizeOf_spec] at hmem ⊢
    omega

section Acceptance

variable {rules : Rules ρ κ}

theorem acceptsJsonItems_eq (bounds : JsonBounds) (items : List Json) :
    acceptsJsonItems bounds items = items.all (acceptsJson bounds) := by
  induction items with
  | nil => rfl
  | cons value items ih => rw [acceptsJsonItems, ih, List.all_cons]

theorem acceptsJsonMembers_eq (bounds : JsonBounds) (members : List (String × Json)) :
    acceptsJsonMembers bounds members = members.all fun member =>
      decide (textLength member.1 ≤ bounds.key) && acceptsJson bounds member.2 := by
  induction members with
  | nil => rfl
  | cons member members ih =>
    obtain ⟨key, value⟩ := member
    rw [acceptsJsonMembers, ih, List.all_cons]

theorem acceptsField_eq (shape : List (String × Bool × Schema ρ κ)) (key : String)
    (value : Json) : acceptsField rules shape key value =
      (shape.lookup key).any fun field => accepts rules field.2 value := by
  induction shape with
  | nil => simp [acceptsField]
  | cons field shape ih =>
    obtain ⟨name, optional, schema⟩ := field
    rw [acceptsField, List.lookup_cons]
    by_cases hkey : key = name
    · rw [if_pos hkey, beq_iff_eq.mpr hkey]
      rfl
    · rw [if_neg hkey, beq_eq_false_iff_ne.mpr hkey, ih]

/-- A field that is required is there, with a value that its schema accepts. -/
theorem accepts_required {shape : List (String × Bool × Schema ρ κ)} {value : Json} {key : String}
    {schema : Schema ρ κ} (h : accepts rules (.strictObject shape) value = true)
    (hfield : shape.lookup key = some (false, schema)) :
    ∃ found, value.member? key = some found ∧ accepts rules schema found = true := by
  cases value with
  | object members =>
    rw [accepts, Json.members?, Option.any_some, Bool.and_eq_true] at h
    have hthere := List.all_eq_true.mp h.2 _ (Json.mem_of_lookup hfield)
    obtain ⟨found, hfound⟩ := Option.isSome_iff_exists.mp hthere
    have haccepts := List.all_eq_true.mp h.1 _ (Json.mem_of_lookup hfound)
    rw [acceptsField_eq] at haccepts
    refine ⟨found, hfound, ?_⟩
    dsimp only at haccepts
    rw [hfield] at haccepts
    exact haccepts
  | _ => cases h

/-- What a strict object accepts, field by field, where no key stands twice. -/
theorem accepts_strictObject_iff {shape : List (String × Bool × Schema ρ κ)}
    {members : List (String × Json)} (hshape : (shape.map Prod.fst).Nodup)
    (hmembers : (members.map Prod.fst).Nodup) :
    accepts rules (.strictObject shape) (.object members) = true ↔
      (∀ key ∈ members.map Prod.fst, key ∈ shape.map Prod.fst) ∧
        ∀ field ∈ shape, (members.lookup field.1).elim (field.2.1 = true) fun value =>
          accepts rules field.2.2 value = true := by
  rw [accepts, Json.members?, Option.any_some, Bool.and_eq_true, List.all_eq_true, List.all_eq_true]
  constructor
  · rintro ⟨hkeys, hthere⟩
    refine ⟨fun key hkey => ?_, fun field hfield => ?_⟩
    · obtain ⟨member, hmember, rfl⟩ := List.mem_map.mp hkey
      have haccepts := hkeys member hmember
      rw [acceptsField_eq, Option.any_eq_true] at haccepts
      obtain ⟨field, hlookup, -⟩ := haccepts
      exact List.mem_map_of_mem (Json.mem_of_lookup hlookup)
    · have hfound := hthere field hfield
      cases hlookup : members.lookup field.1 with
      | none =>
        rw [hlookup, Option.isSome_none, Bool.or_false] at hfound
        exact hfound
      | some value =>
        have haccepts := hkeys _ (Json.mem_of_lookup hlookup)
        rw [acceptsField_eq, Json.lookup_of_mem hshape hfield] at haccepts
        exact haccepts
  · rintro ⟨hkeys, hfields⟩
    refine ⟨fun member hmember => ?_, fun field hfield => ?_⟩
    · obtain ⟨field, hfield, hkey⟩ := List.mem_map.mp (hkeys _ (List.mem_map_of_mem hmember))
      have haccepts := hfields field hfield
      rw [hkey, Json.lookup_of_mem hmembers hmember] at haccepts
      rw [acceptsField_eq, ← hkey, Json.lookup_of_mem hshape hfield]
      exact haccepts
    · have haccepts := hfields field hfield
      cases hlookup : members.lookup field.1 with
      | none =>
        rw [hlookup] at haccepts
        rw [show field.2.1 = true from haccepts]
        rfl
      | some value => rw [Option.isSome_some, Bool.or_true]

theorem acceptsSome_eq (options : List (Schema ρ κ)) (value : Json) :
    acceptsSome rules options value = options.any fun schema => accepts rules schema value := by
  induction options with
  | nil => rfl
  | cons schema options ih => rw [acceptsSome, ih, List.any_cons]

/-- The recursive schema accepts what it accepts one level unfolded. -/
theorem accepts_jsonUnion (bounds : JsonBounds) (value : Json) :
    accepts rules (jsonUnion bounds) value = acceptsJson bounds value := by
  cases value <;>
    simp [jsonUnion, accepts, acceptsSome, acceptsJson, Scalar.accepts, TextRule.accepts,
      NumberRule.accepts, Json.items?, Json.members?, acceptsJsonItems_eq, acceptsJsonMembers_eq]

end Acceptance

end Schema

/-! ## Validators accept what their schemas accept -/

theorem Json.alike_of_mapped {members : List (String × Json)} {parsed : Json}
    {image : String → Json → Option Json} (hplain : (Json.object members).Plain)
    (h : Json.Mapped image members parsed)
    (himage : ∀ member ∈ members, ∃ value, image member.1 member.2 = some value ∧
      Json.Alike member.2 value) : Json.Alike (.object members) parsed := by
  obtain ⟨members', rfl, hn', hlookup⟩ := h
  refine Json.alike_object_iff.mpr ⟨hplain.nodup, hn', fun key => ?_⟩
  rw [hlookup key]
  cases hfound : members.lookup key with
  | none => exact Option.Rel.none
  | some value =>
    obtain ⟨value', himage', halike⟩ := himage _ (Json.mem_of_lookup hfound)
    rw [Option.bind_some, himage']
    exact Option.Rel.some halike

namespace Validator

open Schema

variable {ρ κ : Type} {rules : Rules ρ κ} {lib : Validator rules}

/-- The library accepts the value when the schema does, and returns it. -/
structure Settles (lib : Validator rules) (schema : Schema ρ κ) (value : Json) : Prop where
  isSome : (lib.safeParse schema value).isSome = accepts rules schema value
  alike : ∀ parsed, lib.safeParse schema value = some parsed → Json.Alike value parsed

theorem Settles.exists (h : lib.Settles schema value)
    (haccepts : accepts rules schema value = true) :
    ∃ parsed, lib.safeParse schema value = some parsed ∧ Json.Alike value parsed := by
  obtain ⟨parsed, hparsed⟩ := Option.isSome_iff_exists.mp (h.isSome.trans haccepts)
  exact ⟨parsed, hparsed, h.alike parsed hparsed⟩

theorem Settles.eq_none (h : lib.Settles schema value)
    (haccepts : accepts rules schema value = false) : lib.safeParse schema value = none :=
  Option.not_isSome_iff_eq_none.mp (by rw [h.isSome, haccepts]; exact Bool.false_ne_true)

section Constructors

variable {value : Json} {schema : Schema ρ κ}

theorem settles_scalar (leaf : Scalar ρ) (hplain : value.Plain) :
    lib.Settles (.scalar leaf) value := by
  constructor
  · rw [lib.scalar, accepts]
    cases leaf.accepts rules value <;> rfl
  · intro parsed h
    rw [lib.scalar] at h
    split_ifs at h
    cases h
    exact Json.Alike.refl hplain.distinct

theorem settles_nullable (hplain : value.Plain) (h : lib.Settles schema value) :
    lib.Settles (.nullable schema) value := by
  by_cases hnull : value.isNull = true
  · constructor
    · rw [lib.nullable, if_pos hnull, accepts, hnull]
      rfl
    · intro parsed hparsed
      rw [lib.nullable, if_pos hnull] at hparsed
      cases hparsed
      exact Json.Alike.refl hplain.distinct
  · constructor
    · rw [lib.nullable, if_neg hnull, accepts, Bool.not_eq_true _ |>.mp hnull, h.isSome]
      rfl
    · intro parsed hparsed
      rw [lib.nullable, if_neg hnull] at hparsed
      exact h.alike parsed hparsed

theorem mapM_settles {items : List Json} (h : ∀ value ∈ items, lib.Settles schema value) :
    (items.mapM (lib.safeParse schema)).isSome = items.all (accepts rules schema) ∧
      ∀ parsed, items.mapM (lib.safeParse schema) = some parsed →
        List.Forall₂ Json.Alike items parsed := by
  induction items with
  | nil =>
    refine ⟨rfl, ?_⟩
    rintro parsed hparsed
    cases hparsed
    exact List.Forall₂.nil
  | cons value items ih =>
    obtain ⟨hvalue, hitems⟩ := List.forall_mem_cons.mp h
    obtain ⟨hsome, halike⟩ := ih hitems
    rw [List.mapM_cons, List.all_cons, ← hvalue.isSome, ← hsome]
    cases hfirst : lib.safeParse schema value with
    | none => simp
    | some first =>
      cases hrest : items.mapM (lib.safeParse schema) with
      | none => simp
      | some rest =>
        refine ⟨rfl, ?_⟩
        rintro parsed hparsed
        cases hparsed
        exact List.Forall₂.cons (hvalue.alike first hfirst) (halike rest hrest)

theorem settles_array {max : ℕ}
    (h : ∀ items, value.items? = some items → ∀ item ∈ items, lib.Settles schema item) :
    lib.Settles (.array schema max) value := by
  cases value with
  | array items =>
    obtain ⟨hsome, halike⟩ := mapM_settles (h items rfl)
    by_cases hlength : items.length ≤ max
    · have harray : lib.safeParse (.array schema max) (.array items) =
          (items.mapM (lib.safeParse schema)).map .array := by
        rw [lib.array, Json.items?, Option.filter_some, if_pos (decide_eq_true hlength),
          Option.bind_some]
      constructor
      · rw [harray, Option.isSome_map, hsome, accepts, Json.items?, Option.any_some,
          decide_eq_true hlength, Bool.true_and]
      · intro parsed hparsed
        rw [harray] at hparsed
        obtain ⟨items', hitems, rfl⟩ := Option.map_eq_some_iff.mp hparsed
        exact Json.alike_array_iff.mpr (halike items' hitems)
    · have harray : lib.safeParse (.array schema max) (.array items) = none := by
        rw [lib.array, Json.items?, Option.filter_some,
          if_neg (by rw [decide_eq_false hlength]; exact Bool.false_ne_true), Option.bind_none]
      constructor
      · rw [harray, accepts, Json.items?, Option.any_some, decide_eq_false hlength,
          Bool.false_and]
        rfl
      · intro parsed hparsed
        rw [harray] at hparsed
        cases hparsed
  | _ =>
    constructor
    · rw [lib.array, accepts]
      rfl
    · intro parsed hparsed
      rw [lib.array] at hparsed
      cases hparsed

theorem settles_record {key : TextRule ρ} (hplain : value.Plain)
    (h : ∀ members, value.members? = some members → ∀ member ∈ members,
      lib.Settles schema member.2) : lib.Settles (.record key schema) value := by
  cases value with
  | object members =>
    have hmembers := h members rfl
    have hsome := lib.record_isSome key schema members hplain
    have haccepts : accepts rules (.record key schema) (.object members) =
        members.all fun member =>
          key.accepts rules member.1 && (lib.safeParse schema member.2).isSome := by
      rw [accepts, Json.members?, Option.any_some]
      exact all_congr_of_mem fun member hmem => by rw [(hmembers member hmem).isSome]
    refine ⟨hsome.trans haccepts.symm, fun parsed hparsed => ?_⟩
    rw [hparsed, Option.isSome_some] at hsome
    refine Json.alike_of_mapped hplain (lib.record_some key schema members parsed hplain hparsed) ?_
    intro member hmem
    have hmember := List.all_eq_true.mp hsome.symm member hmem
    rw [Bool.and_eq_true] at hmember
    obtain ⟨parsed', hparsed'⟩ := Option.isSome_iff_exists.mp hmember.2
    exact ⟨parsed', hparsed', (hmembers member hmem).alike parsed' hparsed'⟩
  | _ =>
    constructor
    · rw [lib.record_none _ _ _ rfl, accepts]
      rfl
    · intro parsed hparsed
      rw [lib.record_none _ _ _ rfl] at hparsed
      cases hparsed

theorem settles_strictObject {shape : List (String × Bool × Schema ρ κ)} (hplain : value.Plain)
    (h : ∀ members, value.members? = some members → ∀ field ∈ shape, ∀ member ∈ members,
      lib.Settles field.2.2 member.2) : lib.Settles (.strictObject shape) value := by
  cases value with
  | object members =>
    have hmembers := h members rfl
    have hsome := lib.strictObject_isSome shape members hplain
    have hfield : ∀ member ∈ members, ∀ field, shape.lookup member.1 = some field →
        lib.Settles field.2 member.2 := fun member hmem field hfound =>
      hmembers _ (Json.mem_of_lookup hfound) member hmem
    have haccepts : accepts rules (.strictObject shape) (.object members) =
        (members.all (fun member => (shape.lookup member.1).any fun field =>
            (lib.safeParse field.2 member.2).isSome) &&
          shape.all fun field => field.2.1 || (members.lookup field.1).isSome) := by
      rw [accepts, Json.members?, Option.any_some]
      congr 1
      refine all_congr_of_mem fun member hmem => ?_
      rw [acceptsField_eq]
      cases hfound : shape.lookup member.1 with
      | none => rfl
      | some field =>
        rw [Option.any_some, Option.any_some, (hfield member hmem field hfound).isSome]
    refine ⟨hsome.trans haccepts.symm, fun parsed hparsed => ?_⟩
    rw [hparsed, Option.isSome_some] at hsome
    have hall := (Bool.and_eq_true _ _ |>.mp hsome.symm).1
    refine Json.alike_of_mapped hplain
      (lib.strictObject_some shape members parsed hplain hparsed) ?_
    intro member hmem
    have hmember := List.all_eq_true.mp hall member hmem
    cases hfound : shape.lookup member.1 with
    | none =>
      rw [hfound] at hmember
      cases hmember
    | some field =>
      rw [hfound, Option.any_some] at hmember
      obtain ⟨parsed', hparsed'⟩ := Option.isSome_iff_exists.mp hmember
      exact ⟨parsed', by rw [Option.bind_some, hparsed'],
        (hfield member hmem field hfound).alike parsed' hparsed'⟩
  | _ =>
    constructor
    · rw [lib.strictObject_none _ _ rfl, accepts]
      rfl
    · intro parsed hparsed
      rw [lib.strictObject_none _ _ rfl] at hparsed
      cases hparsed

theorem settles_union {options : List (Schema ρ κ)}
    (h : ∀ schema ∈ options, lib.Settles schema value) : lib.Settles (.union options) value := by
  constructor
  · rw [lib.union, accepts, acceptsSome_eq]
    induction options with
    | nil => rfl
    | cons schema options ih =>
      obtain ⟨hschema, hoptions⟩ := List.forall_mem_cons.mp h
      rw [List.findSome?_cons, List.any_cons, ← hschema.isSome, ← ih hoptions]
      cases lib.safeParse schema value <;> rfl
  · intro parsed hparsed
    rw [lib.union] at hparsed
    obtain ⟨schema, hmem, hschema⟩ := List.exists_of_findSome?_eq_some hparsed
    exact (h schema hmem).alike parsed hschema

theorem settles_superRefine {check : κ} (h : lib.Settles schema value) :
    lib.Settles (.superRefine schema check) value := by
  constructor
  · rw [lib.superRefine, accepts, ← h.isSome]
    cases hparsed : lib.safeParse schema value with
    | none => rfl
    | some parsed =>
      rw [rules.refinement_of_alike check value parsed (h.alike parsed hparsed),
        Option.filter_some]
      cases rules.refinement check parsed <;> rfl
  · intro parsed hparsed
    rw [lib.superRefine] at hparsed
    exact h.alike parsed (Option.filter_eq_some_iff.mp hparsed).1

/-- The step of the recursive schema: its parts settle. -/
theorem settles_jsonValue_step {bounds : JsonBounds} (hplain : value.Plain)
    (hitems : ∀ items, value.items? = some items → ∀ item ∈ items,
      lib.Settles (.jsonValue bounds) item)
    (hmembers : ∀ members, value.members? = some members → ∀ member ∈ members,
      lib.Settles (.jsonValue bounds) member.2) : lib.Settles (.jsonValue bounds) value := by
  have hunion : lib.Settles (jsonUnion bounds) value := by
    refine settles_union ?_
    intro schema hmem
    simp only [List.mem_cons, List.not_mem_nil, or_false] at hmem
    rcases hmem with rfl | rfl | rfl | rfl | rfl | rfl
    · exact settles_scalar _ hplain
    · exact settles_scalar _ hplain
    · exact settles_scalar _ hplain
    · exact settles_scalar _ hplain
    · exact settles_array hitems
    · exact settles_record hplain hmembers
  constructor
  · rw [lib.jsonValue, hunion.isSome, accepts_jsonUnion, accepts]
  · intro parsed hparsed
    rw [lib.jsonValue] at hparsed
    exact hunion.alike parsed hparsed

theorem settles_jsonValue (bounds : JsonBounds) (hplain : value.Plain) :
    lib.Settles (.jsonValue bounds) value := by
  induction value using Json.rec_mem with
  | array items ih =>
    refine settles_jsonValue_step hplain ?_ (by rintro members ⟨⟩)
    rintro items' ⟨⟩ item hmem
    exact ih item hmem (hplain.item hmem)
  | object members ih =>
    refine settles_jsonValue_step hplain (by rintro items ⟨⟩) ?_
    rintro members' ⟨⟩ member hmem
    exact ih member hmem (hplain.member hmem)
  | _ => exact settles_jsonValue_step hplain (by rintro items ⟨⟩) (by rintro members ⟨⟩)

end Constructors

/-- A validator accepts what its schema accepts, and returns it up to the order of its members. -/
theorem settles (schema : Schema ρ κ) {value : Json} (hplain : value.Plain) :
    lib.Settles schema value := by
  induction schema using Schema.rec_mem generalizing value with
  | scalar leaf => exact settles_scalar leaf hplain
  | jsonValue bounds => exact settles_jsonValue bounds hplain
  | nullable schema ih => exact settles_nullable hplain (ih hplain)
  | array item max ih =>
    refine settles_array fun items hitems item hmem => ?_
    cases value <;> cases hitems
    exact ih (hplain.item hmem)
  | record key schema ih =>
    refine settles_record hplain fun members hmembers member hmem => ?_
    cases value <;> cases hmembers
    exact ih (hplain.member hmem)
  | strictObject shape ih =>
    refine settles_strictObject hplain fun members hmembers field hfield member hmem => ?_
    cases value <;> cases hmembers
    exact ih field hfield (hplain.member hmem)
  | union options ih => exact settles_union fun schema hmem => ih schema hmem hplain
  | superRefine schema check ih => exact settles_superRefine (ih hplain)

end Validator

/-! ## Values that are alike, schemas that are equivalent -/

/-- The rules test the same. -/
def Rules.Agree {ρ κ : Type} (rules rules' : Rules ρ κ) : Prop :=
  (∀ pattern text, rules.pattern pattern text = rules'.pattern pattern text) ∧
    ∀ check value, rules.refinement check value = rules'.refinement check value

/-- Values that are alike are equal, or both are arrays, or both are objects. -/
theorem Json.Alike.cases {value value' : Json} (h : Json.Alike value value') :
    value = value' ∨ (∃ items items', value = .array items ∧ value' = .array items') ∨
      ∃ members members', value = .object members ∧ value' = .object members' := by
  have hsame := h.same
  cases value <;> cases value' <;> first
    | exact .inr (.inl ⟨_, _, rfl, rfl⟩)
    | exact .inr (.inr ⟨_, _, rfl, rfl⟩)
    | (simp only [Json.same, decide_eq_true_eq] at hsame
       exact .inl (by rw [hsame]))
    | exact .inl rfl
    | exact absurd hsame (by simp [Json.same])

namespace Schema

variable {ρ κ : Type}

section Alike

variable {rules : Rules ρ κ} {value value' : Json}

theorem scalar_of_alike (leaf : Scalar ρ) (h : Json.Alike value value') :
    leaf.accepts rules value = leaf.accepts rules value' := by
  rcases h.cases with rfl | ⟨items, items', rfl, rfl⟩ | ⟨members, members', rfl, rfl⟩
  · rfl
  · cases leaf with
    | literal expected => cases expected <;> rfl
    | _ => rfl
  · cases leaf with
    | literal expected => cases expected <;> rfl
    | _ => rfl

theorem acceptsJson_of_alike (bounds : JsonBounds) (h : Json.Alike value value') :
    acceptsJson bounds value = acceptsJson bounds value' := by
  induction value using Json.rec_mem generalizing value' with
  | array items ih =>
    rcases h.cases with rfl | ⟨_, items', ⟨⟩, rfl⟩ | ⟨_, _, ⟨⟩, _⟩
    · rfl
    · have hitems := Json.alike_array_iff.mp h
      rw [acceptsJson, acceptsJson, acceptsJsonItems_eq, acceptsJsonItems_eq, hitems.length_eq,
        all_of_forall₂ hitems fun item hmem item' halike => ih item hmem halike]
  | object members ih =>
    rcases h.cases with rfl | ⟨_, _, ⟨⟩, _⟩ | ⟨_, members', ⟨⟩, rfl⟩
    · rfl
    · rw [acceptsJson, acceptsJson, acceptsJsonMembers_eq, acceptsJsonMembers_eq]
      refine Json.all_of_alike h fun key item item' hmem halike => ?_
      rw [ih _ hmem halike]
  | _ =>
    rcases h.cases with rfl | ⟨_, _, ⟨⟩, _⟩ | ⟨_, _, ⟨⟩, _⟩
    rfl

/-- A schema does not tell values apart that differ in the order of their members. -/
theorem accepts_of_alike (schema : Schema ρ κ) (h : Json.Alike value value') :
    accepts rules schema value = accepts rules schema value' := by
  induction schema using rec_mem generalizing value value' with
  | scalar leaf =>
    rw [accepts, accepts]
    exact scalar_of_alike leaf h
  | jsonValue bounds =>
    rw [accepts, accepts]
    exact acceptsJson_of_alike bounds h
  | nullable schema ih =>
    rw [accepts, accepts, ih h]
    rcases h.cases with rfl | ⟨_, _, rfl, rfl⟩ | ⟨_, _, rfl, rfl⟩ <;> rfl
  | array item max ih =>
    rw [accepts, accepts]
    rcases h.cases with rfl | ⟨items, items', rfl, rfl⟩ | ⟨_, _, rfl, rfl⟩
    · rfl
    · have hitems := Json.alike_array_iff.mp h
      rw [Json.items?, Json.items?, Option.any_some, Option.any_some, hitems.length_eq,
        all_of_forall₂ hitems fun item _ item' halike => ih halike]
    · rfl
  | record key schema ih =>
    rw [accepts, accepts]
    rcases h.cases with rfl | ⟨_, _, rfl, rfl⟩ | ⟨members, members', rfl, rfl⟩
    · rfl
    · rfl
    · rw [Json.members?, Json.members?, Option.any_some, Option.any_some]
      refine Json.all_of_alike h fun name item item' _ halike => ?_
      rw [ih halike]
  | strictObject shape ih =>
    rw [accepts, accepts]
    rcases h.cases with rfl | ⟨_, _, rfl, rfl⟩ | ⟨members, members', rfl, rfl⟩
    · rfl
    · rfl
    · rw [Json.members?, Json.members?, Option.any_some, Option.any_some]
      congr 1
      · refine Json.all_of_alike h fun name item item' _ halike => ?_
        rw [acceptsField_eq, acceptsField_eq]
        cases hfound : shape.lookup name with
        | none => rfl
        | some field =>
          rw [Option.any_some, Option.any_some, ih _ (Json.mem_of_lookup hfound) halike]
      · refine all_congr_of_mem fun field _ => ?_
        rw [Json.isSome_lookup_of_alike h field.1]
  | union options ih =>
    rw [accepts, accepts, acceptsSome_eq, acceptsSome_eq]
    have hany : ∀ schema ∈ options, accepts rules schema value = accepts rules schema value' :=
      fun schema hmem => ih schema hmem h
    rw [Bool.eq_iff_iff, List.any_eq_true, List.any_eq_true]
    exact exists_congr fun schema => and_congr_right fun hmem => by rw [hany schema hmem]
  | superRefine schema check ih =>
    rw [accepts, accepts, ih h, rules.refinement_of_alike check value value' h]

end Alike

section Equivalent

variable {rules rules' : Rules ρ κ}

theorem text_of_agree (hrules : rules.Agree rules') (rule : TextRule ρ) (text : String) :
    rule.accepts rules text = rule.accepts rules' text := by
  unfold TextRule.accepts
  cases rule.pattern with
  | none => rfl
  | some pattern => rw [Option.all_some, Option.all_some, hrules.1]

theorem scalar_of_agree (hrules : rules.Agree rules') (leaf : Scalar ρ) (value : Json) :
    leaf.accepts rules value = leaf.accepts rules' value := by
  cases leaf with
  | text rule =>
    cases value with
    | string s => exact text_of_agree hrules rule s
    | _ => rfl
  | _ => cases value <;> rfl

variable [DecidableEq ρ] [DecidableEq κ]

theorem equivalentFields_iff {shape shape' : List (String × Bool × Schema ρ κ)} :
    equivalentFields shape shape' = true ↔ ∀ field ∈ shape, ∃ found,
      shape'.lookup field.1 = some found ∧ field.2.1 = found.1 ∧
        equivalent field.2.2 found.2 = true := by
  induction shape with
  | nil => simp [equivalentFields]
  | cons field shape ih =>
    obtain ⟨key, optional, schema⟩ := field
    rw [equivalentFields, Bool.and_eq_true, ih, List.forall_mem_cons]
    refine and_congr_left fun _ => ?_
    cases shape'.lookup key with
    | none => simp
    | some found => simp

theorem equivalentOptions_iff {options options' : List (Schema ρ κ)} :
    equivalentOptions options options' = true ↔
      List.Forall₂ (fun schema schema' => equivalent schema schema' = true) options options' := by
  induction options generalizing options' with
  | nil => cases options' <;> simp [equivalentOptions]
  | cons schema options ih =>
    cases options' with
    | nil => simp [equivalentOptions]
    | cons schema' options' =>
      rw [equivalentOptions, Bool.and_eq_true, ih, List.forall₂_cons]

/-- The fields under a key, of shapes that are equal but for the order of their fields. -/
theorem rel_fields {shape shape' : List (String × Bool × Schema ρ κ)}
    (hn : (shape.map Prod.fst).Nodup) (hlength : shape.length = shape'.length)
    (h : equivalentFields shape shape' = true) (key : String) :
    Option.Rel (fun field field' => field.1 = field'.1 ∧ equivalent field.2 field'.2 = true)
      (shape.lookup key) (shape'.lookup key) :=
  Json.rel_lookup hn hlength.symm (equivalentFields_iff.mp h) key

/-- Schemas that are equal but for the order of their fields accept the same values. -/
theorem accepts_of_equivalent (hrules : rules.Agree rules') {schema schema' : Schema ρ κ}
    (h : equivalent schema schema' = true) (value : Json) :
    accepts rules schema value = accepts rules' schema' value := by
  induction schema using rec_mem generalizing schema' value with
  | scalar leaf =>
    cases schema' with
    | scalar leaf' =>
      rw [equivalent, decide_eq_true_eq] at h
      rw [accepts, accepts, ← h]
      exact scalar_of_agree hrules leaf value
    | _ => cases h
  | jsonValue bounds =>
    cases schema' with
    | jsonValue bounds' =>
      rw [equivalent, decide_eq_true_eq] at h
      rw [accepts, accepts, h]
    | _ => cases h
  | nullable schema ih =>
    cases schema' with
    | nullable schema' =>
      rw [equivalent] at h
      rw [accepts, accepts, ih h]
    | _ => cases h
  | array item max ih =>
    cases schema' with
    | array item' max' =>
      rw [equivalent, Bool.and_eq_true, decide_eq_true_eq] at h
      have hitem : accepts rules item = accepts rules' item' := funext fun value => ih h.2 value
      rw [accepts, accepts, h.1, hitem]
    | _ => cases h
  | record key schema ih =>
    cases schema' with
    | record key' schema' =>
      rw [equivalent, Bool.and_eq_true, decide_eq_true_eq] at h
      rw [accepts, accepts, h.1]
      simp only [text_of_agree hrules, ih h.2]
    | _ => cases h
  | strictObject shape ih =>
    cases schema' with
    | strictObject shape' =>
      rw [equivalent, Bool.and_eq_true, Bool.and_eq_true, Bool.and_eq_true, decide_eq_true_eq,
        decide_eq_true_eq, decide_eq_true_eq] at h
      obtain ⟨⟨⟨hn, hn'⟩, hlength⟩, hfields⟩ := h
      have hrel := rel_fields hn hlength hfields
      have hfield : ∀ key value,
          acceptsField rules shape key value = acceptsField rules' shape' key value := by
        intro key value
        rw [acceptsField_eq, acceptsField_eq]
        have hkey := hrel key
        cases hfound : shape.lookup key with
        | none =>
          rw [hfound] at hkey
          generalize shape'.lookup key = found' at hkey
          cases hkey
          rfl
        | some field =>
          rw [hfound] at hkey
          obtain ⟨field', hfound', -, hequivalent⟩ := Json.rel_some hkey
          rw [hfound', Option.any_some, Option.any_some,
            ih _ (Json.mem_of_lookup hfound) hequivalent]
      have hmissing : ∀ members : List (String × Json),
          shape.all (fun field => field.2.1 || (members.lookup field.1).isSome) =
            shape'.all fun field => field.2.1 || (members.lookup field.1).isSome := by
        intro members
        rw [Bool.eq_iff_iff, List.all_eq_true, List.all_eq_true]
        constructor
        · intro hall field' hmem'
          have hkey := hrel field'.1
          rw [Json.lookup_of_mem hn' hmem'] at hkey
          obtain ⟨field, hfound, hoptional, -⟩ := Json.some_rel hkey
          rw [← hoptional]
          exact hall _ (Json.mem_of_lookup hfound)
        · intro hall field hmem
          have hkey := hrel field.1
          rw [Json.lookup_of_mem hn hmem] at hkey
          obtain ⟨field', hfound', hoptional, -⟩ := Json.rel_some hkey
          rw [hoptional]
          exact hall _ (Json.mem_of_lookup hfound')
      rw [accepts, accepts]
      simp only [hfield, hmissing]
    | _ => cases h
  | union options ih =>
    cases schema' with
    | union options' =>
      rw [equivalent, equivalentOptions_iff] at h
      rw [accepts, accepts]
      induction h with
      | nil => rfl
      | cons hschema _ ihoptions =>
        rw [acceptsSome, acceptsSome, ih _ List.mem_cons_self hschema,
          ihoptions fun schema hmem => ih schema (List.mem_cons_of_mem _ hmem)]
    | _ => cases h
  | superRefine schema check ih =>
    cases schema' with
    | superRefine schema' check' =>
      rw [equivalent, Bool.and_eq_true, decide_eq_true_eq] at h
      rw [accepts, accepts, ih h.2, hrules.2, h.1]
    | _ => cases h

end Equivalent

end Schema

namespace Validator

open Schema

variable {ρ κ : Type} {rules rules' : Rules ρ κ}

/-- Two libraries return values that are alike, or both return nothing. -/
theorem agree [DecidableEq ρ] [DecidableEq κ] (lib : Validator rules) (lib' : Validator rules')
    (hrules : rules.Agree rules') {schema schema' : Schema ρ κ}
    (h : equivalent schema schema' = true) {value value' : Json} (halike : Json.Alike value value')
    (hplain : value.Plain) :
    Option.Rel Json.Alike (lib.safeParse schema value) (lib'.safeParse schema' value') := by
  have hsettles := lib.settles schema hplain
  have hsettles' := lib'.settles schema' (Json.plain_of_alike halike hplain)
  have haccepts : accepts rules schema value = accepts rules' schema' value' :=
    (accepts_of_equivalent hrules h value).trans (accepts_of_alike schema' halike)
  cases hvalue : accepts rules schema value with
  | false =>
    rw [hsettles.eq_none hvalue, hsettles'.eq_none (haccepts ▸ hvalue)]
    exact Option.Rel.none
  | true =>
    obtain ⟨parsed, hparsed, hreturned⟩ := hsettles.exists hvalue
    obtain ⟨parsed', hparsed', hreturned'⟩ := hsettles'.exists (haccepts ▸ hvalue)
    rw [hparsed, hparsed']
    exact Option.Rel.some (hreturned.symm.trans (halike.trans hreturned'))

/-! ## A validator that returns its argument -/

section Reference

variable (rules)

/-- What a schema accepts, returned as it is. -/
def returned (schema : Schema ρ κ) (value : Json) : Option Json :=
  if accepts rules schema value then some value else none

variable {rules}

theorem isSome_returned (schema : Schema ρ κ) (value : Json) :
    (returned rules schema value).isSome = accepts rules schema value := by
  unfold returned
  cases accepts rules schema value <;> rfl

theorem returned_of_accepts {schema : Schema ρ κ} {value : Json}
    (h : accepts rules schema value = true) : returned rules schema value = some value :=
  if_pos h

theorem mapM_returned (schema : Schema ρ κ) (items : List Json) :
    items.mapM (returned rules schema) =
      if items.all (accepts rules schema) then some items else none := by
  induction items with
  | nil => rfl
  | cons value items ih =>
    rw [List.mapM_cons, ih, List.all_cons, returned]
    cases accepts rules schema value with
    | false => rfl
    | true => cases items.all (accepts rules schema) <;> rfl

theorem returned_array (item : Schema ρ κ) (max : ℕ) (value : Json) :
    returned rules (.array item max) value =
      (value.items?.filter fun items => decide (items.length ≤ max)).bind fun items =>
        (items.mapM (returned rules item)).map .array := by
  rw [returned, accepts]
  cases value with
  | array items =>
    rw [Json.items?, Option.any_some, Option.filter_some]
    by_cases hlength : items.length ≤ max
    · rw [decide_eq_true hlength, if_pos rfl, Bool.true_and, Option.bind_some, mapM_returned]
      cases items.all (accepts rules item) <;> rfl
    · rw [decide_eq_false hlength]
      rfl
  | _ => rfl

/-- The members of an object that is accepted are returned under their keys. -/
theorem mapped_of_returned {members : List (String × Json)} {parsed : Json}
    {image : String → Json → Option Json} (hplain : (Json.object members).Plain)
    (h : Json.object members = parsed)
    (himage : ∀ member ∈ members, image member.1 member.2 = some member.2) :
    Json.Mapped image members parsed := by
  refine ⟨members, h.symm, hplain.nodup, fun key => ?_⟩
  cases hfound : members.lookup key with
  | none => rfl
  | some value => exact (himage _ (Json.mem_of_lookup hfound)).symm

theorem eq_of_returned {schema : Schema ρ κ} {value parsed : Json}
    (h : returned rules schema value = some parsed) :
    accepts rules schema value = true ∧ value = parsed := by
  unfold returned at h
  split_ifs at h with haccepts
  cases h
  exact ⟨haccepts, rfl⟩

theorem returned_union (options : List (Schema ρ κ)) (value : Json) :
    returned rules (.union options) value =
      options.findSome? fun schema => returned rules schema value := by
  rw [returned, accepts]
  induction options with
  | nil => rfl
  | cons schema options ih =>
    rw [List.findSome?_cons, ← ih, acceptsSome, returned]
    cases accepts rules schema value <;> rfl

theorem isSome_returned_strictObject (shape : List (String × Bool × Schema ρ κ))
    (members : List (String × Json)) :
    (returned rules (.strictObject shape) (.object members)).isSome =
      (members.all (fun member => (shape.lookup member.1).any fun field =>
          (returned rules field.2 member.2).isSome) &&
        shape.all fun field => field.2.1 || (members.lookup field.1).isSome) := by
  rw [isSome_returned, accepts, Json.members?, Option.any_some]
  simp only [acceptsField_eq, isSome_returned]

theorem isSome_returned_record (key : TextRule ρ) (schema : Schema ρ κ)
    (members : List (String × Json)) :
    (returned rules (.record key schema) (.object members)).isSome =
      members.all fun member =>
        key.accepts rules member.1 && (returned rules schema member.2).isSome := by
  rw [isSome_returned, accepts, Json.members?, Option.any_some]
  simp only [isSome_returned]

variable (rules) in
/-- The validator that returns what it takes unchanged. -/
def reference : Validator rules where
  safeParse := returned rules
  issues _ _ := ""
  scalar _ _ := by rw [returned, accepts]
  jsonValue bounds value := by rw [returned, returned, accepts_jsonUnion, accepts]
  nullable schema value := by
    rw [returned, accepts]
    cases value.isNull <;> rfl
  array := returned_array
  record_none key schema value h := by
    rw [returned, accepts, h]
    rfl
  record_isSome key schema members _ := isSome_returned_record key schema members
  record_some key schema members parsed hplain h := by
    obtain ⟨haccepts, heq⟩ := eq_of_returned h
    refine mapped_of_returned hplain heq fun member hmem => ?_
    rw [accepts, Json.members?, Option.any_some] at haccepts
    have hmember := List.all_eq_true.mp haccepts member hmem
    rw [Bool.and_eq_true] at hmember
    exact returned_of_accepts hmember.2
  strictObject_none shape value h := by
    rw [returned, accepts, h]
    rfl
  strictObject_isSome shape members _ := isSome_returned_strictObject shape members
  strictObject_some shape members parsed hplain h := by
    obtain ⟨haccepts, heq⟩ := eq_of_returned h
    refine mapped_of_returned hplain heq fun member hmem => ?_
    rw [accepts, Json.members?, Option.any_some, Bool.and_eq_true] at haccepts
    have hmember := List.all_eq_true.mp haccepts.1 member hmem
    rw [acceptsField_eq] at hmember
    cases hfound : shape.lookup member.1 with
    | none =>
      rw [hfound] at hmember
      cases hmember
    | some field =>
      rw [hfound] at hmember
      exact returned_of_accepts hmember
  union := returned_union
  superRefine schema check value := by
    rw [returned, returned, accepts]
    cases accepts rules schema value with
    | false => rfl
    | true =>
      rw [if_pos rfl, Option.filter_some]
      cases rules.refinement check value <;> rfl

end Reference

end Validator

end RemotePi.Lib
