import RemotePi.Lib.JsonAlike
import RemotePi.Lib.OrderedMap
import RemotePi.Lib.Utf16
import RemotePi.Lib.Utf8

/-!
# JSON texts

`JSON.stringify` and `JSON.parse` on the values of `Json`, over lists of characters. Which numbers
the host has and how it writes them is a parameter; an escape of a surrogate that has no partner
is read as U+FFFD.

The parser takes a budget that is one more than the length of the text: whatever it reads
inside another value comes after at least one character.

Results:
* `parse_stringify`: reading inverts writing on the values that the host can hold.
* `hosted_parse`: what is read is a value that the host can hold.
* `utf8Length_same`: values that differ in the order of their members have texts of one length.
-/

namespace RemotePi.Lib.JsonText

open Utf16 (CodeUnit)

/-! ## Writing -/

/-- The characters of a JSON number. -/
def isNumberChar (c : Char) : Bool :=
  c.isDigit || c = '-' || c = '+' || c = '.' || c = 'e' || c = 'E'

/-- The numbers of a host, how it writes them and how it reads a literal. -/
structure NumberText where
  isNumber : ℚ → Bool
  write : ℚ → List Char
  read : List Char → Option ℚ
  isNumberChar_of_mem : ∀ q, ∀ c ∈ write q, isNumberChar c = true
  write_ne_nil : ∀ q, write q ≠ []
  read_write : ∀ q, isNumber q = true → read (write q) = some q
  isNumber_read : ∀ text q, read text = some q → isNumber q = true

def hexDigit (n : ℕ) : Char := Char.ofNat (if n < 10 then 0x30 + n else 0x57 + n)

/-- `QuoteJSONString` of a character. -/
def escapeChar (c : Char) : List Char :=
  if c = '"' then ['\\', '"']
  else if c = '\\' then ['\\', '\\']
  else if c.toNat = 8 then ['\\', 'b']
  else if c.toNat = 9 then ['\\', 't']
  else if c.toNat = 10 then ['\\', 'n']
  else if c.toNat = 12 then ['\\', 'f']
  else if c.toNat = 13 then ['\\', 'r']
  else if c.toNat < 0x20 then
    ['\\', 'u', '0', '0', hexDigit (c.toNat / 16), hexDigit (c.toNat % 16)]
  else [c]

def quote (s : String) : List Char := '"' :: (s.toList.flatMap escapeChar ++ ['"'])

section Stringify

variable (numbers : NumberText)

mutual

/-- `JSON.stringify`. -/
def stringify : Json → List Char
  | .null => "null".toList
  | .bool true => "true".toList
  | .bool false => "false".toList
  | .number q => numbers.write q
  | .string s => quote s
  | .array [] => ['[', ']']
  | .array (value :: items) => '[' :: (stringify value ++ stringifyItems items)
  | .object [] => ['\x7b', '\x7d']
  | .object ((key, value) :: members) =>
    '\x7b' :: (quote key ++ ':' :: (stringify value ++ stringifyMembers members))

/-- The items after the first one, and the end of the array. -/
def stringifyItems : List Json → List Char
  | [] => [']']
  | value :: items => ',' :: (stringify value ++ stringifyItems items)

/-- The members after the first one, and the end of the object. -/
def stringifyMembers : List (String × Json) → List Char
  | [] => ['\x7d']
  | (key, value) :: members =>
    ',' :: (quote key ++ ':' :: (stringify value ++ stringifyMembers members))

end

mutual

/-- A value that the host can hold: its objects have distinct keys, and its numbers are numbers of
the host. -/
def hosted : Json → Bool
  | .number q => numbers.isNumber q
  | .array items => hostedItems items
  | .object members => decide (members.map Prod.fst).Nodup && hostedMembers members
  | _ => true

def hostedItems : List Json → Bool
  | [] => true
  | value :: items => hosted value && hostedItems items

def hostedMembers : List (String × Json) → Bool
  | [] => true
  | (_, value) :: members => hosted value && hostedMembers members

end

end Stringify

/-! ## Reading -/

def isSpace (c : Char) : Bool := c = ' ' || c = '\t' || c = '\n' || c = '\r'

def skipSpace (text : List Char) : List Char := text.dropWhile isSpace

/-- The text after a character, with space before it. -/
def expect (c : Char) (text : List Char) : Option (List Char) :=
  match skipSpace text with
  | [] => none
  | d :: rest => if d = c then some rest else none

/-- The value of a hexadecimal digit. -/
def hexValue? (c : Char) : Option ℕ :=
  if '0' ≤ c ∧ c ≤ '9' then some (c.toNat - 0x30)
  else if 'a' ≤ c ∧ c ≤ 'f' then some (c.toNat - 0x57)
  else if 'A' ≤ c ∧ c ≤ 'F' then some (c.toNat - 0x37)
  else none

def hex4? (a b c d : Char) : Option CodeUnit := do
  let a ← hexValue? a
  let b ← hexValue? b
  let c ← hexValue? c
  let d ← hexValue? d
  some (Utf16.unit (((a * 16 + b) * 16 + c) * 16 + d))

/-- The character of an escape of two characters. -/
def unescape? (c : Char) : Option Char :=
  if c = '"' ∨ c = '\\' ∨ c = '/' then some c
  else if c = 'b' then some (Char.ofNat 8)
  else if c = 't' then some (Char.ofNat 9)
  else if c = 'n' then some (Char.ofNat 10)
  else if c = 'f' then some (Char.ofNat 12)
  else if c = 'r' then some (Char.ofNat 13)
  else none

/-- Puts code units before those that were read. -/
def prepend (units : List CodeUnit) (read : List CodeUnit × List Char) :
    List CodeUnit × List Char :=
  (units ++ read.1, read.2)

/-- The code units of a string up to its closing quote, and the text after it. -/
def parseUnits : List Char → Option (List CodeUnit × List Char)
  | [] => none
  | c :: text =>
    if c = '"' then some ([], text)
    else if c = '\\' then
      match text with
      | [] => none
      | e :: text =>
        if e = 'u' then
          match text with
          | a :: b :: c :: d :: text =>
            (hex4? a b c d).bind fun unit => (parseUnits text).map (prepend [unit])
          | _ => none
        else (unescape? e).bind fun c => (parseUnits text).map (prepend (Utf16.encodeChar c))
    else if c.toNat < 0x20 then none
    else (parseUnits text).map (prepend (Utf16.encodeChar c))

def parseString (text : List Char) : Option (String × List Char) :=
  (parseUnits text).map fun (units, rest) => (String.ofList (Utf16.decode units), rest)

/-- A text that starts with a word. -/
def parseWord (word : String) (value : Json) (text : List Char) : Option (Json × List Char) :=
  if word.toList.isPrefixOf text then some (value, text.drop word.toList.length) else none

/-- The members of an object: a later value of a key replaces the one before. -/
def objectOf (members : List (String × Json)) : List (String × Json) :=
  members.foldl (fun entries member => OrderedMap.setEntry member.1 member.2 entries) []

section Parse

variable (numbers : NumberText)

def parseNumber (text : List Char) : Option (Json × List Char) :=
  (numbers.read (text.takeWhile isNumberChar)).map fun q =>
    (.number q, text.dropWhile isNumberChar)

mutual

def parseValue : ℕ → List Char → Option (Json × List Char)
  | 0, _ => none
  | budget + 1, text =>
    match skipSpace text with
    | [] => none
    | c :: rest =>
      if c = '"' then (parseString rest).map fun (s, rest) => (.string s, rest)
      else if c = '[' then
        match expect ']' rest with
        | some rest => some (.array [], rest)
        | none =>
          (parseValue budget rest).bind fun (value, rest) =>
            (parseItems budget rest).map fun (items, rest) => (.array (value :: items), rest)
      else if c = '\x7b' then
        match expect '\x7d' rest with
        | some rest => some (.object [], rest)
        | none =>
          (parseMember budget rest).bind fun (member, rest) =>
            (parseMembers budget rest).map fun (members, rest) =>
              (.object (objectOf (member :: members)), rest)
      else if isNumberChar c then parseNumber numbers (c :: rest)
      else
        (parseWord "null" .null (c :: rest)).or
          ((parseWord "true" (.bool true) (c :: rest)).or
            (parseWord "false" (.bool false) (c :: rest)))

/-- The items after the first one, up to the end of the array. -/
def parseItems : ℕ → List Char → Option (List Json × List Char)
  | 0, _ => none
  | budget + 1, text =>
    match expect ']' text with
    | some rest => some ([], rest)
    | none =>
      (expect ',' text).bind fun rest =>
        (parseValue budget rest).bind fun (value, rest) =>
          (parseItems budget rest).map fun (items, rest) => (value :: items, rest)

def parseMember : ℕ → List Char → Option ((String × Json) × List Char)
  | 0, _ => none
  | budget + 1, text =>
    (expect '"' text).bind fun rest =>
      (parseString rest).bind fun (key, rest) =>
        (expect ':' rest).bind fun rest =>
          (parseValue budget rest).map fun (value, rest) => ((key, value), rest)

/-- The members after the first one, up to the end of the object. -/
def parseMembers : ℕ → List Char → Option (List (String × Json) × List Char)
  | 0, _ => none
  | budget + 1, text =>
    match expect '\x7d' text with
    | some rest => some ([], rest)
    | none =>
      (expect ',' text).bind fun rest =>
        (parseMember budget rest).bind fun (member, rest) =>
          (parseMembers budget rest).map fun (members, rest) => (member :: members, rest)

end

/-- `JSON.parse`; none where it throws. -/
def parse (text : List Char) : Option Json :=
  match parseValue numbers (text.length + 1) text with
  | some (value, rest) => if skipSpace rest = [] then some value else none
  | none => none

end Parse

section Hosted

variable {numbers : NumberText}

mutual

theorem hosted_iff : ∀ {value : Json}, hosted numbers value = true ↔
    value.distinctKeys = true ∧ (value.holds numbers.isNumber fun _ => true) = true
  | .null => by simp [hosted, Json.distinctKeys, Json.holds]
  | .bool b => by simp [hosted, Json.distinctKeys, Json.holds]
  | .number q => by simp [hosted, Json.distinctKeys, Json.holds]
  | .string s => by simp [hosted, Json.distinctKeys, Json.holds]
  | .array items => by
    rw [hosted, Json.distinctKeys, Json.holds]
    exact hostedItems_iff
  | .object members => by
    rw [hosted, Json.distinctKeys, Json.holds, Bool.and_eq_true, Bool.and_eq_true,
      hostedMembers_iff, and_assoc]

theorem hostedItems_iff : ∀ {items : List Json}, hostedItems numbers items = true ↔
    Json.distinctItems items = true ∧
      (Json.holdsItems numbers.isNumber (fun _ => true) items) = true
  | [] => by simp [hostedItems, Json.distinctItems, Json.holdsItems]
  | value :: items => by
    rw [hostedItems, Json.distinctItems, Json.holdsItems, Bool.and_eq_true, Bool.and_eq_true,
      Bool.and_eq_true, hosted_iff, hostedItems_iff, and_and_and_comm]

theorem hostedMembers_iff : ∀ {members : List (String × Json)},
    hostedMembers numbers members = true ↔ Json.distinctMembers members = true ∧
      (Json.holdsMembers numbers.isNumber (fun _ => true) members) = true
  | [] => by simp [hostedMembers, Json.distinctMembers, Json.holdsMembers]
  | (key, value) :: members => by
    rw [hostedMembers, Json.distinctMembers, Json.holdsMembers, Bool.and_eq_true,
      Bool.and_eq_true, Bool.and_eq_true, Bool.true_and, hosted_iff, hostedMembers_iff,
      and_and_and_comm]

end

/-- A value that differs in the order of the members is held as well. -/
theorem hosted_of_alike {value value' : Json} (h : value.Alike value')
    (hvalue : hosted numbers value = true) : hosted numbers value' = true :=
  hosted_iff.mpr ⟨h.distinct', Json.holds_of_alike h (hosted_iff.mp hvalue).2⟩

end Hosted

/-! ## Strings -/

theorem eq_ofNat {c : Char} {n : ℕ} (h : c.toNat = n) : c = Char.ofNat n := by
  rw [← h, Char.ofNat_toNat]

/-- The four digits that write a control character are read as its code unit. -/
theorem hex4?_control : ∀ n : Fin 32,
    hex4? '0' '0' (hexDigit (n.val / 16)) (hexDigit (n.val % 16)) = some (Utf16.unit n.val) := by
  decide +kernel

/-- An escape of two characters is read as the character that it stands for. -/
theorem parseUnits_escape {e c : Char} (hu : e ≠ 'u') (hc : unescape? e = some c)
    (text : List Char) :
    parseUnits ('\\' :: e :: text) = (parseUnits text).map (prepend (Utf16.encodeChar c)) := by
  rw [parseUnits.eq_def]
  dsimp only
  rw [if_neg (by decide), if_pos rfl, if_neg hu, hc, Option.bind_some]

theorem parseUnits_escapeChar (c : Char) (text : List Char) :
    parseUnits (escapeChar c ++ text) =
      (parseUnits text).map (prepend (Utf16.encodeChar c)) := by
  unfold escapeChar
  split_ifs with h₁ h₂ h₃ h₄ h₅ h₆ h₇ h₈
  · subst h₁
    exact parseUnits_escape (by decide) rfl text
  · subst h₂
    exact parseUnits_escape (by decide) rfl text
  · rw [eq_ofNat h₃]
    exact parseUnits_escape (by decide) rfl text
  · rw [eq_ofNat h₄]
    exact parseUnits_escape (by decide) rfl text
  · rw [eq_ofNat h₅]
    exact parseUnits_escape (by decide) rfl text
  · rw [eq_ofNat h₆]
    exact parseUnits_escape (by decide) rfl text
  · rw [eq_ofNat h₇]
    exact parseUnits_escape (by decide) rfl text
  · have hhex := hex4?_control ⟨c.toNat, h₈⟩
    dsimp only at hhex
    have hunits : Utf16.encodeChar c = [Utf16.unit c.toNat] := by
      rw [Utf16.encodeChar, if_pos (by omega)]
    rw [hunits]
    show parseUnits ('\\' :: 'u' :: '0' :: '0' :: _ :: _ :: text) = _
    rw [parseUnits.eq_def]
    dsimp only
    rw [if_neg (by decide), if_pos rfl, if_pos rfl, hhex, Option.bind_some]
  · show parseUnits (c :: text) = _
    rw [parseUnits.eq_def]
    dsimp only
    rw [if_neg h₁, if_neg h₂, if_neg h₈]

theorem parseUnits_flatMap (text rest : List Char) :
    parseUnits (text.flatMap escapeChar ++ '"' :: rest) = some (Utf16.encode text, rest) := by
  induction text with
  | nil =>
    show parseUnits ('"' :: rest) = _
    rw [parseUnits.eq_def]
    rfl
  | cons c text ih =>
    rw [List.flatMap_cons, List.append_assoc, parseUnits_escapeChar, ih, Option.map_some,
      Utf16.encode_cons]
    rfl

/-- A string is read as it was before it was quoted. -/
theorem parseString_quote (s : String) (rest : List Char) :
    parseString (s.toList.flatMap escapeChar ++ '"' :: rest) = some (s, rest) := by
  unfold parseString
  rw [parseUnits_flatMap, Option.map_some]
  dsimp only
  rw [Utf16.decode_encode, String.ofList_toList]

/-! ## Values -/

theorem skipSpace_cons {c : Char} (h : isSpace c = false) (text : List Char) :
    skipSpace (c :: text) = c :: text :=
  List.dropWhile_cons_of_neg (by rw [h]; exact Bool.false_ne_true)

theorem expect_cons {c d : Char} (h : isSpace d = false) (text : List Char) :
    expect c (d :: text) = if d = c then some text else none := by
  unfold expect
  rw [skipSpace_cons h]

/-- The text does not go on with a number. -/
def Stops (text : List Char) : Prop := ∀ c ∈ text.head?, isNumberChar c = false

/-- The text starts with a character that starts a value. -/
def StartsValue (text : List Char) : Prop :=
  ∃ c rest, text = c :: rest ∧ isSpace c = false ∧ c ≠ ']' ∧ c ≠ '\x7d'

theorem StartsValue.append {text : List Char} (h : StartsValue text) (rest : List Char) :
    StartsValue (text ++ rest) := by
  obtain ⟨c, tail, rfl, hc⟩ := h
  exact ⟨c, tail ++ rest, rfl, hc⟩

section RoundTrip

variable {numbers : NumberText}

theorem ne_of_isNumberChar {c d : Char} (h : isNumberChar c = true) (hd : isNumberChar d = false) :
    c ≠ d := by
  rintro rfl
  rw [h] at hd
  cases hd

theorem isSpace_of_isNumberChar {c : Char} (h : isNumberChar c = true) : isSpace c = false := by
  have hne : ∀ d, isNumberChar d = false → c ≠ d := fun d => ne_of_isNumberChar h
  unfold isSpace
  rw [decide_eq_false (hne ' ' (by decide)), decide_eq_false (hne '\t' (by decide)),
    decide_eq_false (hne '\n' (by decide)), decide_eq_false (hne '\r' (by decide))]
  rfl

theorem write_eq_cons (numbers : NumberText) (q : ℚ) :
    ∃ c rest, numbers.write q = c :: rest ∧ isNumberChar c = true := by
  cases hwrite : numbers.write q with
  | nil => exact absurd hwrite (numbers.write_ne_nil q)
  | cons c rest =>
    exact ⟨c, rest, rfl, numbers.isNumberChar_of_mem q c (by rw [hwrite]; exact List.mem_cons_self)⟩

theorem startsValue_stringify (numbers : NumberText) (value : Json) :
    StartsValue (stringify numbers value) := by
  cases value with
  | null => exact ⟨'n', _, rfl, by decide⟩
  | bool b => cases b <;> exact ⟨_, _, rfl, by decide⟩
  | number q =>
    obtain ⟨c, rest, hwrite, hc⟩ := write_eq_cons numbers q
    rw [stringify, hwrite]
    exact ⟨c, rest, rfl, isSpace_of_isNumberChar hc, ne_of_isNumberChar hc (by decide),
      ne_of_isNumberChar hc (by decide)⟩
  | string s => exact ⟨'"', _, by rw [stringify, quote], by decide⟩
  | array items => cases items <;> exact ⟨'[', _, by rw [stringify], by decide⟩
  | object members =>
    cases members with
    | nil => exact ⟨'\x7b', _, by rw [stringify], by decide⟩
    | cons member members => exact ⟨'\x7b', _, by rw [stringify], by decide⟩

theorem stops_stringifyItems (items : List Json) (rest : List Char) :
    Stops (stringifyItems numbers items ++ rest) := by
  cases items with
  | nil =>
    rw [stringifyItems]
    rintro c hc
    cases hc
    decide
  | cons value items =>
    rw [stringifyItems]
    rintro c hc
    cases hc
    decide

theorem stops_stringifyMembers (members : List (String × Json)) (rest : List Char) :
    Stops (stringifyMembers numbers members ++ rest) := by
  cases members with
  | nil =>
    rw [stringifyMembers]
    rintro c hc
    cases hc
    decide
  | cons member members =>
    rw [stringifyMembers]
    rintro c hc
    cases hc
    decide

theorem parseNumber_write {q : ℚ} (hq : numbers.isNumber q = true) {rest : List Char}
    (h : Stops rest) :
    parseNumber numbers (numbers.write q ++ rest) = some (.number q, rest) := by
  have htake : (numbers.write q ++ rest).takeWhile isNumberChar = numbers.write q := by
    rw [List.takeWhile_append_of_pos (numbers.isNumberChar_of_mem q)]
    cases rest with
    | nil => simp
    | cons c rest => rw [List.takeWhile_cons_of_neg (by rw [h c rfl]; simp), List.append_nil]
  have hdrop : (numbers.write q ++ rest).dropWhile isNumberChar = rest := by
    rw [List.dropWhile_append_of_pos (numbers.isNumberChar_of_mem q)]
    cases rest with
    | nil => rfl
    | cons c rest => rw [List.dropWhile_cons_of_neg (by rw [h c rfl]; simp)]
  unfold parseNumber
  rw [htake, hdrop, numbers.read_write q hq, Option.map_some]

theorem parseWord_append (word : String) (value : Json) (rest : List Char) :
    parseWord word value (word.toList ++ rest) = some (value, rest) := by
  unfold parseWord
  rw [if_pos (List.isPrefixOf_iff_prefix.mpr (List.prefix_append _ _)), List.drop_left]

/-! ### Reading what was written -/

theorem parseValue_string (s : String) (budget : ℕ) (rest : List Char) :
    parseValue numbers (budget + 1) (quote s ++ rest) = some (.string s, rest) := by
  have htext : quote s ++ rest = '"' :: (s.toList.flatMap escapeChar ++ '"' :: rest) := by
    simp [quote]
  rw [htext, parseValue, skipSpace_cons (by decide)]
  dsimp only
  rw [if_pos rfl, parseString_quote, Option.map_some]

theorem parseValue_number {q : ℚ} (hq : numbers.isNumber q = true) (budget : ℕ)
    {rest : List Char} (h : Stops rest) :
    parseValue numbers (budget + 1) (numbers.write q ++ rest) = some (.number q, rest) := by
  obtain ⟨c, tail, hwrite, hc⟩ := write_eq_cons numbers q
  have hparse := parseNumber_write hq h
  rw [hwrite, List.cons_append] at hparse ⊢
  rw [parseValue, skipSpace_cons (isSpace_of_isNumberChar hc)]
  dsimp only
  rw [if_neg (ne_of_isNumberChar hc (by decide)), if_neg (ne_of_isNumberChar hc (by decide)),
    if_neg (ne_of_isNumberChar hc (by decide)), if_pos hc, hparse]

theorem parseValue_array {budget : ℕ} {value : Json} {items : List Json}
    {text rest rest' : List Char} (hstart : StartsValue text)
    (hvalue : parseValue numbers budget text = some (value, rest))
    (hitems : parseItems numbers budget rest = some (items, rest')) :
    parseValue numbers (budget + 1) ('[' :: text) = some (.array (value :: items), rest') := by
  obtain ⟨c, tail, rfl, hspace, hne, -⟩ := hstart
  rw [parseValue, skipSpace_cons (by decide)]
  dsimp only
  rw [if_neg (by decide), if_pos rfl, expect_cons hspace, if_neg hne]
  dsimp only
  rw [hvalue, Option.bind_some, hitems, Option.map_some]

theorem parseValue_object {budget : ℕ} {member : String × Json} {members : List (String × Json)}
    {text rest rest' : List Char}
    (hmember : parseMember numbers budget ('"' :: text) = some (member, rest))
    (hmembers : parseMembers numbers budget rest = some (members, rest')) :
    parseValue numbers (budget + 1) ('\x7b' :: '"' :: text) =
      some (.object (objectOf (member :: members)), rest') := by
  rw [parseValue, skipSpace_cons (by decide)]
  dsimp only
  rw [if_neg (by decide), if_neg (by decide), if_pos rfl, expect_cons (by decide),
    if_neg (by decide)]
  dsimp only
  rw [hmember, Option.bind_some, hmembers, Option.map_some]

theorem parseItems_cons {budget : ℕ} {value : Json} {items : List Json}
    {text rest rest' : List Char} (hvalue : parseValue numbers budget text = some (value, rest))
    (hitems : parseItems numbers budget rest = some (items, rest')) :
    parseItems numbers (budget + 1) (',' :: text) = some (value :: items, rest') := by
  rw [parseItems, expect_cons (by decide), if_neg (by decide), expect_cons (by decide), if_pos rfl]
  dsimp only
  rw [Option.bind_some, hvalue, Option.bind_some, hitems, Option.map_some]

theorem parseMember_quote {budget : ℕ} (key : String) {value : Json} {text rest : List Char}
    (hvalue : parseValue numbers budget text = some (value, rest)) :
    parseMember numbers (budget + 1) (quote key ++ ':' :: text) = some ((key, value), rest) := by
  have htext : quote key ++ ':' :: text =
      '"' :: (key.toList.flatMap escapeChar ++ '"' :: ':' :: text) := by
    simp [quote]
  rw [htext, parseMember, expect_cons (by decide), if_pos rfl, Option.bind_some,
    parseString_quote, Option.bind_some]
  dsimp only
  rw [expect_cons (by decide), if_pos rfl, Option.bind_some, hvalue, Option.map_some]

theorem parseMembers_cons {budget : ℕ} {member : String × Json} {members : List (String × Json)}
    {text rest rest' : List Char}
    (hmember : parseMember numbers budget text = some (member, rest))
    (hmembers : parseMembers numbers budget rest = some (members, rest')) :
    parseMembers numbers (budget + 1) (',' :: text) = some (member :: members, rest') := by
  rw [parseMembers, expect_cons (by decide), if_neg (by decide), expect_cons (by decide),
    if_pos rfl]
  dsimp only
  rw [Option.bind_some, hmember, Option.bind_some, hmembers, Option.map_some]

theorem foldl_setEntry {entries members : List (String × Json)}
    (h : ((entries ++ members).map Prod.fst).Nodup) :
    members.foldl (fun entries member => OrderedMap.setEntry member.1 member.2 entries) entries =
      entries ++ members := by
  induction members generalizing entries with
  | nil => rw [List.foldl_nil, List.append_nil]
  | cons member members ih =>
    obtain ⟨key, value⟩ := member
    have hfresh : key ∉ entries.map Prod.fst := by
      intro hmem
      rw [List.map_append, List.nodup_append] at h
      exact h.2.2 key hmem key List.mem_cons_self rfl
    rw [List.foldl_cons, OrderedMap.setEntry_of_not_mem hfresh, ih (by simpa using h)]
    simp

/-- Members with distinct keys are kept as they are. -/
theorem objectOf_eq {members : List (String × Json)} (h : (members.map Prod.fst).Nodup) :
    objectOf members = members := by
  unfold objectOf
  rw [foldl_setEntry (by simpa using h), List.nil_append]

theorem length_pos_stringify (numbers : NumberText) (value : Json) :
    0 < (stringify numbers value).length := by
  obtain ⟨c, rest, heq, -⟩ := startsValue_stringify numbers value
  rw [heq]
  exact Nat.succ_pos _

theorem parseItems_close (budget : ℕ) (rest : List Char) :
    parseItems numbers (budget + 1) (']' :: rest) = some ([], rest) := by
  rw [parseItems, expect_cons (by decide), if_pos rfl]

theorem parseMembers_close (budget : ℕ) (rest : List Char) :
    parseMembers numbers (budget + 1) ('\x7d' :: rest) = some ([], rest) := by
  rw [parseMembers, expect_cons (by decide), if_pos rfl]

mutual

theorem parseValue_stringify : ∀ (value : Json) (budget : ℕ) (rest : List Char),
    hosted numbers value = true → (stringify numbers value).length ≤ budget → Stops rest →
      parseValue numbers budget (stringify numbers value ++ rest) = some (value, rest)
  | .null, budget + 1, rest, _, _, _ => parseWord_append "null" .null rest
  | .bool true, budget + 1, rest, _, _, _ => parseWord_append "true" (.bool true) rest
  | .bool false, budget + 1, rest, _, _, _ => parseWord_append "false" (.bool false) rest
  | .number q, budget + 1, rest, hhosted, _, hstops => by
    rw [hosted] at hhosted
    rw [stringify]
    exact parseValue_number hhosted budget hstops
  | .string s, budget + 1, rest, _, _, _ => by
    rw [stringify]
    exact parseValue_string s budget rest
  | .array [], budget + 1, rest, _, _, _ => by
    show parseValue numbers (budget + 1) ('[' :: ']' :: rest) = _
    rw [parseValue, skipSpace_cons (by decide)]
    dsimp only
    rw [if_neg (by decide), if_pos rfl, expect_cons (by decide), if_pos rfl]
  | .array (value :: items), budget + 1, rest, hhosted, hbudget, hstops => by
    rw [hosted, hostedItems, Bool.and_eq_true] at hhosted
    rw [stringify, List.length_cons, List.length_append] at hbudget
    have hpos := length_pos_stringify numbers value
    rw [stringify, List.cons_append, List.append_assoc]
    exact parseValue_array ((startsValue_stringify numbers value).append _)
      (parseValue_stringify value budget _ hhosted.1 (by omega) (stops_stringifyItems items rest))
      (parseItems_stringify items budget rest hhosted.2 (by omega))
  | .object [], budget + 1, rest, _, _, _ => by
    show parseValue numbers (budget + 1) ('\x7b' :: '\x7d' :: rest) = _
    rw [parseValue, skipSpace_cons (by decide)]
    dsimp only
    rw [if_neg (by decide), if_neg (by decide), if_pos rfl, expect_cons (by decide), if_pos rfl]
  | .object ((key, value) :: members), budget + 1, rest, hhosted, hbudget, hstops => by
    rw [hosted, hostedMembers, Bool.and_eq_true, Bool.and_eq_true,
      decide_eq_true_eq] at hhosted
    rw [stringify, List.length_cons, List.length_append, List.length_cons,
      List.length_append] at hbudget
    have hpos := length_pos_stringify numbers value
    have hvalue := parseValue_stringify value (budget - 1)
      (stringifyMembers numbers members ++ rest)
      hhosted.2.1 (by omega) (stops_stringifyMembers members rest)
    have hmember := parseMember_quote key hvalue
    rw [show budget - 1 + 1 = budget by omega] at hmember
    have hmembers := parseMembers_stringify members budget rest hhosted.2.2 (by omega)
    have hobject := parseValue_object hmember hmembers
    rw [objectOf_eq hhosted.1] at hobject
    rw [stringify, List.cons_append, List.append_assoc, List.cons_append, List.append_assoc]
    exact hobject
  | value, 0, rest, _, hbudget, _ => by
    have hpos := length_pos_stringify numbers value
    omega

theorem parseItems_stringify : ∀ (items : List Json) (budget : ℕ) (rest : List Char),
    hostedItems numbers items = true → (stringifyItems numbers items).length ≤ budget →
      parseItems numbers budget (stringifyItems numbers items ++ rest) = some (items, rest)
  | [], budget + 1, rest, _, _ => by
    rw [stringifyItems]
    exact parseItems_close budget rest
  | value :: items, budget + 1, rest, hhosted, hbudget => by
    rw [hostedItems, Bool.and_eq_true] at hhosted
    rw [stringifyItems, List.length_cons, List.length_append] at hbudget
    rw [stringifyItems, List.cons_append, List.append_assoc]
    exact parseItems_cons
      (parseValue_stringify value budget _ hhosted.1 (by omega) (stops_stringifyItems items rest))
      (parseItems_stringify items budget rest hhosted.2 (by omega))
  | items, 0, rest, _, hbudget => by
    cases items <;> simp [stringifyItems] at hbudget

theorem parseMembers_stringify : ∀ (members : List (String × Json)) (budget : ℕ) (rest : List Char),
    hostedMembers numbers members = true → (stringifyMembers numbers members).length ≤ budget →
      parseMembers numbers budget (stringifyMembers numbers members ++ rest) = some (members, rest)
  | [], budget + 1, rest, _, _ => by
    rw [stringifyMembers]
    exact parseMembers_close budget rest
  | (key, value) :: members, budget + 1, rest, hhosted, hbudget => by
    rw [hostedMembers, Bool.and_eq_true] at hhosted
    rw [stringifyMembers, List.length_cons, List.length_append, List.length_cons,
      List.length_append] at hbudget
    have hpos := length_pos_stringify numbers value
    have hvalue := parseValue_stringify value (budget - 1)
      (stringifyMembers numbers members ++ rest)
      hhosted.1 (by omega) (stops_stringifyMembers members rest)
    have hmember := parseMember_quote key hvalue
    rw [show budget - 1 + 1 = budget by omega] at hmember
    have hmembers := parseMembers_stringify members budget rest hhosted.2 (by omega)
    rw [stringifyMembers, List.cons_append, List.append_assoc, List.cons_append, List.append_assoc]
    exact parseMembers_cons hmember hmembers
  | members, 0, rest, _, hbudget => by
    cases members <;> simp [stringifyMembers] at hbudget

end

theorem stringify_object (numbers : NumberText) (members : List (String × Json)) :
    ∃ rest, stringify numbers (.object members) = '\x7b' :: rest := by
  cases members with
  | nil => exact ⟨_, by rw [stringify]⟩
  | cons member members =>
    obtain ⟨key, value⟩ := member
    exact ⟨_, by rw [stringify]⟩

theorem decodeText_stringify (numbers : NumberText) (members : List (String × Json)) :
    Utf8.decodeText (Utf8.encode (stringify numbers (.object members))) =
      stringify numbers (.object members) := by
  obtain ⟨rest, hrest⟩ := stringify_object numbers members
  rw [hrest]
  exact Utf8.decodeText_encode (by decide) rest

theorem decodeFatal_stringify (numbers : NumberText) (members : List (String × Json)) :
    Utf8.decodeFatal (Utf8.encode (stringify numbers (.object members))) =
      some (stringify numbers (.object members)) := by
  obtain ⟨rest, hrest⟩ := stringify_object numbers members
  rw [hrest]
  exact Utf8.decodeFatal_encode (by decide) rest

/-- `JSON.parse` reads what `JSON.stringify` wrote. -/
theorem parse_stringify {value : Json} (h : hosted numbers value = true) :
    parse numbers (stringify numbers value) = some value := by
  have hvalue : parseValue numbers ((stringify numbers value).length + 1)
      (stringify numbers value ++ []) = some (value, []) :=
    parseValue_stringify value _ [] h (Nat.le_succ _) (by rintro c hc; cases hc)
  rw [List.append_nil] at hvalue
  unfold parse
  rw [hvalue]
  rfl

end RoundTrip

/-! ## What is read -/

section Read

variable {numbers : NumberText}

theorem hostedMembers_setEntry {key : String} {value : Json} {entries : List (String × Json)}
    (hvalue : hosted numbers value = true) (h : hostedMembers numbers entries = true) :
    hostedMembers numbers (OrderedMap.setEntry key value entries) = true := by
  induction entries with
  | nil =>
    rw [OrderedMap.setEntry, hostedMembers, hvalue]
    rfl
  | cons entry entries ih =>
    obtain ⟨key', value'⟩ := entry
    rw [hostedMembers, Bool.and_eq_true] at h
    rw [OrderedMap.setEntry]
    split_ifs
    · rw [hostedMembers, hvalue, h.2]
      rfl
    · rw [hostedMembers, h.1, ih h.2]
      rfl

theorem hosted_foldl {members entries : List (String × Json)}
    (hmembers : hostedMembers numbers members = true)
    (hentries : hosted numbers (.object entries) = true) :
    hosted numbers (.object (members.foldl
      (fun entries member => OrderedMap.setEntry member.1 member.2 entries) entries)) = true := by
  induction members generalizing entries with
  | nil => exact hentries
  | cons member members ih =>
    obtain ⟨key, value⟩ := member
    rw [hostedMembers, Bool.and_eq_true] at hmembers
    rw [hosted, Bool.and_eq_true, decide_eq_true_eq] at hentries
    refine ih hmembers.2 ?_
    rw [hosted, Bool.and_eq_true, decide_eq_true_eq]
    exact ⟨OrderedMap.nodup_setEntry hentries.1,
      hostedMembers_setEntry hmembers.1 hentries.2⟩

theorem hosted_objectOf {members : List (String × Json)}
    (h : hostedMembers numbers members = true) :
    hosted numbers (.object (objectOf members)) = true := hosted_foldl h rfl

theorem hosted_parseWord {word : String} {value read : Json} {text rest : List Char}
    (hvalue : hosted numbers value = true) (h : parseWord word value text = some (read, rest)) :
    hosted numbers read = true := by
  unfold parseWord at h
  split_ifs at h
  cases h
  exact hvalue

/-- Each part of the parser reads values that the host can hold. -/
theorem hosted_parts (budget : ℕ) :
    (∀ text value rest, parseValue numbers budget text = some (value, rest) →
      hosted numbers value = true) ∧
    (∀ text items rest, parseItems numbers budget text = some (items, rest) →
      hostedItems numbers items = true) ∧
    (∀ text member rest, parseMember numbers budget text = some (member, rest) →
      hosted numbers member.2 = true) ∧
    ∀ text members rest, parseMembers numbers budget text = some (members, rest) →
      hostedMembers numbers members = true := by
  induction budget with
  | zero =>
    refine ⟨?_, ?_, ?_, ?_⟩
    all_goals
      intro text read rest h
      cases h
  | succ budget ih =>
    obtain ⟨hvalue, hitems, hmember, hmembers⟩ := ih
    refine ⟨fun text value rest h => ?_, fun text items rest h => ?_, fun text member rest h => ?_,
      fun text members rest h => ?_⟩
    · rw [parseValue] at h
      split at h
      · cases h
      · split_ifs at h
        · obtain ⟨⟨s, rest'⟩, -, heq⟩ := Option.map_eq_some_iff.mp h
          cases heq
          rfl
        · split at h
          · cases h
            rfl
          · obtain ⟨⟨first, rest₁⟩, hfirst, h⟩ := Option.bind_eq_some_iff.mp h
            obtain ⟨⟨items, rest₂⟩, hrest, heq⟩ := Option.map_eq_some_iff.mp h
            cases heq
            rw [hosted, hostedItems, hvalue _ _ _ hfirst, hitems _ _ _ hrest]
            rfl
        · split at h
          · cases h
            rfl
          · obtain ⟨⟨first, rest₁⟩, hfirst, h⟩ := Option.bind_eq_some_iff.mp h
            obtain ⟨⟨members, rest₂⟩, hrest, heq⟩ := Option.map_eq_some_iff.mp h
            cases heq
            refine hosted_objectOf ?_
            rw [hostedMembers, hmember _ _ _ hfirst, hmembers _ _ _ hrest]
            rfl
        · obtain ⟨q, hread, heq⟩ := Option.map_eq_some_iff.mp h
          cases heq
          exact numbers.isNumber_read _ q hread
        · rcases Option.or_eq_some_iff.mp h with h | ⟨-, h⟩
          · exact hosted_parseWord rfl h
          · rcases Option.or_eq_some_iff.mp h with h | ⟨-, h⟩
            · exact hosted_parseWord rfl h
            · exact hosted_parseWord rfl h
    · rw [parseItems] at h
      split at h
      · cases h
        rfl
      · obtain ⟨rest₀, -, h⟩ := Option.bind_eq_some_iff.mp h
        obtain ⟨⟨first, rest₁⟩, hfirst, h⟩ := Option.bind_eq_some_iff.mp h
        obtain ⟨⟨items, rest₂⟩, hrest, heq⟩ := Option.map_eq_some_iff.mp h
        cases heq
        rw [hostedItems, hvalue _ _ _ hfirst, hitems _ _ _ hrest]
        rfl
    · rw [parseMember] at h
      obtain ⟨rest₀, -, h⟩ := Option.bind_eq_some_iff.mp h
      obtain ⟨⟨key, rest₁⟩, -, h⟩ := Option.bind_eq_some_iff.mp h
      obtain ⟨rest₂, -, h⟩ := Option.bind_eq_some_iff.mp h
      obtain ⟨⟨value, rest₃⟩, hread, heq⟩ := Option.map_eq_some_iff.mp h
      cases heq
      exact hvalue _ _ _ hread
    · rw [parseMembers] at h
      split at h
      · cases h
        rfl
      · obtain ⟨rest₀, -, h⟩ := Option.bind_eq_some_iff.mp h
        obtain ⟨⟨first, rest₁⟩, hfirst, h⟩ := Option.bind_eq_some_iff.mp h
        obtain ⟨⟨members, rest₂⟩, hrest, heq⟩ := Option.map_eq_some_iff.mp h
        cases heq
        rw [hostedMembers, hmember _ _ _ hfirst, hmembers _ _ _ hrest]
        rfl

/-- What `JSON.parse` returns is a value that the host can hold. -/
theorem hosted_parse {text : List Char} {value : Json} (h : parse numbers text = some value) :
    hosted numbers value = true := by
  unfold parse at h
  split at h
  · next read rest hread =>
    split_ifs at h
    cases h
    exact (hosted_parts _).1 _ _ _ hread
  · cases h

end Read

/-! ## Lengths -/

/-- The bytes of a text in UTF-8. -/
def utf8Length (text : List Char) : ℕ := (Utf8.encode text).length

section Lengths

variable {numbers : NumberText}

theorem utf8Length_append (text text' : List Char) :
    utf8Length (text ++ text') = utf8Length text + utf8Length text' := by
  unfold utf8Length
  rw [Utf8.encode_append, List.length_append]

theorem utf8Length_cons (c : Char) (text : List Char) :
    utf8Length (c :: text) = utf8Length [c] + utf8Length text :=
  utf8Length_append [c] text

/-- The bytes of a member without the character before it. -/
def memberLength (numbers : NumberText) (member : String × Json) : ℕ :=
  utf8Length (quote member.1) + (1 + utf8Length (stringify numbers member.2))

theorem memberLength_mk (key : String) (value : Json) :
    memberLength numbers (key, value) =
      utf8Length (quote key) + (1 + utf8Length (stringify numbers value)) := rfl

theorem utf8Length_stringifyMembers (members : List (String × Json)) :
    utf8Length (stringifyMembers numbers members) =
      members.length + 1 + (members.map (memberLength numbers)).sum := by
  induction members with
  | nil =>
    rw [stringifyMembers]
    rfl
  | cons member members ih =>
    obtain ⟨key, value⟩ := member
    rw [stringifyMembers, utf8Length_cons, utf8Length_append, utf8Length_cons ':',
      utf8Length_append, ih, List.map_cons, List.sum_cons, List.length_cons, memberLength_mk]
    have hcomma : utf8Length [','] = 1 := rfl
    have hcolon : utf8Length [':'] = 1 := rfl
    omega

theorem utf8Length_object (members : List (String × Json)) :
    utf8Length (stringify numbers (.object members)) =
      max members.length 1 + 1 + (members.map (memberLength numbers)).sum := by
  cases members with
  | nil =>
    rw [stringify]
    rfl
  | cons member members =>
    obtain ⟨key, value⟩ := member
    rw [stringify, utf8Length_cons, utf8Length_append, utf8Length_cons ':', utf8Length_append,
      utf8Length_stringifyMembers, List.map_cons, List.sum_cons, List.length_cons, memberLength_mk]
    have hopen : utf8Length ['\x7b'] = 1 := rfl
    have hcolon : utf8Length [':'] = 1 := rfl
    omega

mutual

theorem utf8Length_sortKeys (order : Json.KeyOrder) : ∀ value : Json,
    utf8Length (stringify numbers (Json.sortKeys order value)) =
      utf8Length (stringify numbers value)
  | .null => by simp only [Json.sortKeys]
  | .bool b => by simp only [Json.sortKeys]
  | .number q => by simp only [Json.sortKeys]
  | .string s => by simp only [Json.sortKeys]
  | .array [] => by rw [Json.sortKeys, Json.sortKeysItems]
  | .array (value :: items) => by
    rw [Json.sortKeys, Json.sortKeysItems, stringify, stringify, utf8Length_cons '[',
      utf8Length_cons '[' (_ ++ stringifyItems numbers items), utf8Length_append,
      utf8Length_append, utf8Length_sortKeys order value, utf8Length_sortKeysItems order items]
  | .object members => by
    have hperm : (Json.sortByKey order (Json.sortKeysMembers order members)).Perm
        (Json.sortKeysMembers order members) := List.mergeSort_perm _ _
    rw [Json.sortKeys, utf8Length_object, utf8Length_object, hperm.length_eq,
      Json.length_sortKeysMembers, (hperm.map _).sum_nat,
      memberLength_sortKeysMembers order members]

theorem utf8Length_sortKeysItems (order : Json.KeyOrder) : ∀ items : List Json,
    utf8Length (stringifyItems numbers (Json.sortKeysItems order items)) =
      utf8Length (stringifyItems numbers items)
  | [] => by rw [Json.sortKeysItems]
  | value :: items => by
    rw [Json.sortKeysItems, stringifyItems, stringifyItems, utf8Length_cons ',',
      utf8Length_cons ',' (_ ++ stringifyItems numbers items), utf8Length_append,
      utf8Length_append, utf8Length_sortKeys order value, utf8Length_sortKeysItems order items]

theorem memberLength_sortKeysMembers (order : Json.KeyOrder) : ∀ members : List (String × Json),
    (Json.sortKeysMembers order members).map (memberLength numbers) =
      members.map (memberLength numbers)
  | [] => by rw [Json.sortKeysMembers]
  | (key, value) :: members => by
    rw [Json.sortKeysMembers, List.map_cons, List.map_cons,
      memberLength_sortKeysMembers order members, memberLength_mk, memberLength_mk,
      utf8Length_sortKeys order value]

end

/-- The length of a text does not depend on the order of the members. -/
theorem utf8Length_same (order : Json.KeyOrder) {value value' : Json}
    (h : value.distinctKeys = true) (h' : value'.distinctKeys = true)
    (hsame : value.same value' = true) :
    utf8Length (stringify numbers value) = utf8Length (stringify numbers value') := by
  rw [← utf8Length_sortKeys order value, ← utf8Length_sortKeys order value',
    (Json.sortKeys_eq_iff value value' h h').mpr hsame]

end Lengths

/-! ## Numbers of one digit -/

def digitOf (q : ℚ) : Char := Char.ofNat (0x30 + q.num.natAbs % 10)

def isDigitNumber (q : ℚ) : Bool := (List.range 10).any fun n => decide (q = n)

def readDigit : List Char → Option ℚ
  | [c] => if c.isDigit then some ((c.toNat - 0x30 : ℕ) : ℚ) else none
  | _ => none

theorem digitOf_eq : ∀ n : Fin 10, (Char.ofNat (0x30 + n.val)).isDigit = true ∧
    (Char.ofNat (0x30 + n.val)).toNat - 0x30 = n.val := by decide

theorem isDigitNumber_of_readDigit {text : List Char} {q : ℚ} (h : readDigit text = some q) :
    isDigitNumber q = true := by
  unfold readDigit at h
  split at h
  · next c =>
    split_ifs at h with hc
    cases h
    rw [Char.isDigit, Bool.and_eq_true, decide_eq_true_eq, decide_eq_true_eq] at hc
    refine List.any_eq_true.mpr ⟨c.toNat - 0x30, List.mem_range.mpr ?_, decide_eq_true rfl⟩
    have hle : c.toNat ≤ 0x39 := hc.2
    omega
  · cases h

/-- A host that has the numbers of one digit only. -/
def oneDigit : NumberText where
  isNumber := isDigitNumber
  write q := [digitOf q]
  read := readDigit
  isNumberChar_of_mem q c hc := by
    rw [List.mem_singleton.mp hc, digitOf, isNumberChar,
      (digitOf_eq ⟨q.num.natAbs % 10, Nat.mod_lt _ (by decide)⟩).1]
    rfl
  write_ne_nil q h := by cases h
  read_write q hq := by
    obtain ⟨n, hn, hq⟩ := List.any_eq_true.mp hq
    rw [List.mem_range] at hn
    rw [decide_eq_true_eq] at hq
    subst hq
    have hnum : ((n : ℚ).num.natAbs) % 10 = n := by
      rw [Rat.num_natCast, Int.natAbs_natCast, Nat.mod_eq_of_lt hn]
    have hdigit := digitOf_eq ⟨n, hn⟩
    rw [digitOf, hnum, readDigit, if_pos hdigit.1, hdigit.2]
  isNumber_read _ _ := isDigitNumber_of_readDigit

end RemotePi.Lib.JsonText
