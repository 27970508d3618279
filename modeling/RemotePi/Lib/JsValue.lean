import RemotePi.Lib.JsonOrder

/-!
# Values of parsed JSON

A JSON text as the value of an ECMAScript host. Its numbers are doubles, so `-0` is parsed as
a value of its own, which `Object.is` tells from `0` and which is written as `0` again.

Results:
* `distinctKeys_image`: putting other values in the place of the numbers keeps the keys.
* `lookup_imageMembers`: so does a look-up of a member.
-/

namespace RemotePi.Lib

/-- A finite double. -/
inductive JsNumber where
  | finite (value : ℚ)
  | negativeZero
deriving DecidableEq

/-- The mathematical value, which `JSON.stringify` writes. -/
def JsNumber.value : JsNumber → ℚ
  | .finite value => value
  | .negativeZero => 0

inductive JsValue where
  | null
  | bool (value : Bool)
  | number (value : JsNumber)
  | string (value : String)
  | array (items : List JsValue)
  | object (members : List (String × JsValue))

namespace JsValue

mutual

/-- Every object of the value has distinct keys, as the objects of the language have. -/
def distinctKeys : JsValue → Bool
  | .array items => distinctItems items
  | .object members => decide (members.map Prod.fst).Nodup && distinctMembers members
  | _ => true

def distinctItems : List JsValue → Bool
  | [] => true
  | value :: items => distinctKeys value && distinctItems items

def distinctMembers : List (String × JsValue) → Bool
  | [] => true
  | (_, value) :: members => distinctKeys value && distinctMembers members

end

section Image

variable (f : JsNumber → Json)

mutual

/-- The JSON value with these values in the place of the numbers. -/
def image : JsValue → Json
  | .null => .null
  | .bool value => .bool value
  | .number value => f value
  | .string value => .string value
  | .array items => .array (imageItems items)
  | .object members => .object (imageMembers members)

def imageItems : List JsValue → List Json
  | [] => []
  | value :: items => image value :: imageItems items

def imageMembers : List (String × JsValue) → List (String × Json)
  | [] => []
  | (key, value) :: members => (key, image value) :: imageMembers members

end

end Image

/-- A number as JSON has it. -/
def jsonNumber (n : JsNumber) : Json := .number n.value

/-- Whether a number is a zero with a sign. -/
def zeroSign (n : JsNumber) : Json := .bool (decide (n = .negativeZero))

/-- The JSON value that `JSON.stringify` writes. -/
def toJson (value : JsValue) : Json := value.image jsonNumber

/-- The signs of the zeros, in their places. -/
def zeroSigns (value : JsValue) : Json := value.image zeroSign

/-- Equal as JSON values, up to the order of members: a zero has no sign. -/
def sameJson (left right : JsValue) : Bool := Json.same left.toJson right.toJson

/-- Equal signs of the zeros, up to the order of members. -/
def sameZeroSigns (left right : JsValue) : Bool := Json.same left.zeroSigns right.zeroSigns

/-! ## Images -/

section Image

variable {f : JsNumber → Json}

theorem length_imageItems (items : List JsValue) :
    (imageItems f items).length = items.length := by
  induction items with
  | nil => rw [imageItems]; rfl
  | cons value items ih => rw [imageItems, List.length_cons, List.length_cons, ih]

theorem keys_imageMembers (members : List (String × JsValue)) :
    (imageMembers f members).map Prod.fst = members.map Prod.fst := by
  induction members with
  | nil => rw [imageMembers, List.map_nil, List.map_nil]
  | cons member members ih =>
    obtain ⟨key, value⟩ := member
    rw [imageMembers, List.map_cons, List.map_cons, ih]

theorem length_imageMembers (members : List (String × JsValue)) :
    (imageMembers f members).length = members.length := by
  rw [← List.length_map Prod.fst, keys_imageMembers, List.length_map]

theorem lookup_imageMembers (key : String) (members : List (String × JsValue)) :
    (imageMembers f members).lookup key = (members.lookup key).map (image f) := by
  induction members with
  | nil => rw [imageMembers]; rfl
  | cons member members ih =>
    obtain ⟨key', value⟩ := member
    rw [imageMembers, List.lookup_cons, List.lookup_cons]
    cases key == key' with
    | true => rfl
    | false => exact ih

mutual

theorem distinctKeys_image (hf : ∀ n, (f n).distinctKeys = true) :
    ∀ value : JsValue, (image f value).distinctKeys = value.distinctKeys
  | .null => by rw [image, Json.distinctKeys, distinctKeys] <;> simp
  | .bool _ => by rw [image, Json.distinctKeys, distinctKeys] <;> simp
  | .number n => by rw [image, hf, distinctKeys] <;> simp
  | .string _ => by rw [image, Json.distinctKeys, distinctKeys] <;> simp
  | .array items => by
    rw [image, Json.distinctKeys, distinctKeys, distinctItems_image hf items]
  | .object members => by
    rw [image, Json.distinctKeys, distinctKeys, keys_imageMembers, distinctMembers_image hf members]

theorem distinctItems_image (hf : ∀ n, (f n).distinctKeys = true) :
    ∀ items : List JsValue, Json.distinctItems (imageItems f items) = distinctItems items
  | [] => by rw [imageItems, Json.distinctItems, distinctItems]
  | value :: items => by
    rw [imageItems, Json.distinctItems, distinctItems, distinctKeys_image hf value,
      distinctItems_image hf items]

theorem distinctMembers_image (hf : ∀ n, (f n).distinctKeys = true) :
    ∀ members : List (String × JsValue),
      Json.distinctMembers (imageMembers f members) = distinctMembers members
  | [] => by rw [imageMembers, Json.distinctMembers, distinctMembers]
  | (key, value) :: members => by
    rw [imageMembers, Json.distinctMembers, distinctMembers, distinctKeys_image hf value,
      distinctMembers_image hf members]

end

end Image

theorem distinctKeys_of_lookup {members : List (String × JsValue)} {key : String} {value : JsValue}
    (h : distinctMembers members = true) (hvalue : members.lookup key = some value) :
    value.distinctKeys = true := by
  induction members with
  | nil => cases hvalue
  | cons member members ih =>
    obtain ⟨key', value'⟩ := member
    rw [distinctMembers, Bool.and_eq_true] at h
    rw [List.lookup_cons] at hvalue
    cases hkey : key == key' with
    | true =>
      rw [hkey] at hvalue
      cases hvalue
      exact h.1
    | false =>
      rw [hkey] at hvalue
      exact ih h.2 hvalue

theorem distinctKeys_toJson (value : JsValue) : value.toJson.distinctKeys = value.distinctKeys :=
  distinctKeys_image (fun _ => rfl) value

theorem distinctKeys_zeroSigns (value : JsValue) :
    value.zeroSigns.distinctKeys = value.distinctKeys := distinctKeys_image (fun _ => rfl) value

end JsValue

end RemotePi.Lib
