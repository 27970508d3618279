import RemotePi.Lib.FormUrlEncoded

/-!
# Components of a URI

`encodeURIComponent`: the bytes of UTF-8 that are not letters, digits or one of `-_.!~*'()`
become `%` and two hexadecimal digits. The texts here have no lone surrogate, on which the
host throws.

Results:
* `decodeComponent_encodeURIComponent`: a component is read back.
* `not_mem_encodeURIComponent`: the characters that an encoded component leaves free.
* `joined_injective`: components joined by such a character can be told apart.
-/

namespace RemotePi.Lib.UriComponent

open FormUrlEncoded

/-- The bytes that stand for themselves. -/
def isUnescaped (b : Byte) : Bool :=
  (0x30 ≤ b.val && b.val ≤ 0x39) || (0x41 ≤ b.val && b.val ≤ 0x5a) ||
    (0x61 ≤ b.val && b.val ≤ 0x7a) || b.val = 0x2d || b.val = 0x5f || b.val = 0x2e ||
    b.val = 0x21 || b.val = 0x7e || b.val = 0x2a || b.val = 0x27 || b.val = 0x28 || b.val = 0x29

def escapeByte (b : Byte) : List Char :=
  if isUnescaped b then [Char.ofNat b.val]
  else ['%', hexDigit (b.val / 16), hexDigit (b.val % 16)]

def encodeURIComponent (text : List Char) : List Char := (Utf8.encode text).flatMap escapeByte

def decodeComponent (text : List Char) : List Char :=
  Utf8.decode (percentDecode (Utf8.encode text))

theorem escapes_escapeByte (b : Byte) : Escapes (Utf8.encode (escapeByte b)) b := by
  unfold Escapes
  revert b
  decide +kernel

theorem percentDecode_escapeBytes (bytes : List Byte) :
    percentDecode (Utf8.encode (bytes.flatMap escapeByte)) = bytes := by
  induction bytes with
  | nil => rfl
  | cons b bytes ih =>
    rw [List.flatMap_cons, Utf8.encode_append, percentDecode_append (escapes_escapeByte b), ih]

theorem decodeComponent_encodeURIComponent (text : List Char) :
    decodeComponent (encodeURIComponent text) = text := by
  rw [decodeComponent, encodeURIComponent, percentDecode_escapeBytes, Utf8.decode_encode]

/-- The characters of an encoded component. -/
def isComponentChar (c : Char) : Bool :=
  c = '%' || (c.toNat < 256 && isUnescaped (Utf8.byte c.toNat))

theorem escapeByte_isComponentChar (b : Byte) :
    (escapeByte b).all isComponentChar = true := by
  revert b
  decide +kernel

theorem not_mem_encodeURIComponent {c : Char} (h : isComponentChar c = false) (text : List Char) :
    c ∉ encodeURIComponent text := by
  intro hmem
  obtain ⟨b, -, hb⟩ := List.mem_flatMap.mp hmem
  rw [List.all_eq_true.mp (escapeByte_isComponentChar b) c hb] at h
  cases h

/-- Lists of components with the same text, joined by a character that no encoded component
    has, are equal. -/
theorem joined_injective {c : Char} (h : isComponentChar c = false)
    {parts parts' : List (List Char)} (hne : parts ≠ []) (hne' : parts' ≠ [])
    (heq : [c].intercalate (parts.map encodeURIComponent) =
      [c].intercalate (parts'.map encodeURIComponent)) : parts = parts' := by
  have hsplit : ∀ l : List (List Char), l ≠ [] →
      ([c].intercalate (l.map encodeURIComponent)).splitOn c = l.map encodeURIComponent := by
    intro l hl
    refine List.splitOn_intercalate c ?_ fun hnil => hl (List.map_eq_nil_iff.mp hnil)
    intro part hpart
    obtain ⟨text, -, rfl⟩ := List.mem_map.mp hpart
    exact not_mem_encodeURIComponent h text
  have hmap : parts.map encodeURIComponent = parts'.map encodeURIComponent := by
    rw [← hsplit parts hne, ← hsplit parts' hne', heq]
  exact List.map_injective_iff.mpr
    (Function.LeftInverse.injective decodeComponent_encodeURIComponent) hmap

end RemotePi.Lib.UriComponent
