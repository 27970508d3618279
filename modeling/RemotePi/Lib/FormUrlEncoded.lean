import Mathlib.Data.List.Basic
import RemotePi.Lib.Utf8

/-!
# `application/x-www-form-urlencoded`

Names and values as the text of a query: spaces become `+`, the other bytes of UTF-8 that are
not letters, digits or one of `*-._` become `%` and two hexadecimal digits.

Results:
* `decodeText_encodeText`: a name or value survives.
* `parse_serialize`: a list of pairs survives.
-/

namespace RemotePi.Lib.FormUrlEncoded

/-! ## Names and values -/

/-- The bytes that stand for themselves. -/
def isUnreserved (b : Byte) : Bool :=
  (0x30 ≤ b.val && b.val ≤ 0x39) || (0x41 ≤ b.val && b.val ≤ 0x5a) ||
    (0x61 ≤ b.val && b.val ≤ 0x7a) || b.val = 0x2a || b.val = 0x2d || b.val = 0x2e || b.val = 0x5f

/-- A hexadecimal digit, in upper case. -/
def hexDigit (n : ℕ) : Char := Char.ofNat (if n < 10 then 0x30 + n else 0x37 + n)

def encodeByte (b : Byte) : List Char :=
  if b.val = 0x20 then ['+']
  else if isUnreserved b then [Char.ofNat b.val]
  else ['%', hexDigit (b.val / 16), hexDigit (b.val % 16)]

def encodeText (text : List Char) : List Char := (Utf8.encode text).flatMap encodeByte

/-- The value of a hexadecimal digit, in either case. -/
def hexValue? (b : Byte) : Option ℕ :=
  if 0x30 ≤ b.val ∧ b.val ≤ 0x39 then some (b.val - 0x30)
  else if 0x41 ≤ b.val ∧ b.val ≤ 0x46 then some (b.val - 0x37)
  else if 0x61 ≤ b.val ∧ b.val ≤ 0x66 then some (b.val - 0x57)
  else none

/-- `%` and two digits make a byte; every other byte is kept. -/
def percentDecode : List Byte → List Byte
  | b :: h :: l :: rest =>
    if b.val = 0x25 then
      match hexValue? h, hexValue? l with
      | some high, some low => Utf8.byte (high * 16 + low) :: percentDecode rest
      | _, _ => b :: percentDecode (h :: l :: rest)
    else b :: percentDecode (h :: l :: rest)
  | bytes => bytes

def unplus (c : Char) : Char := if c = '+' then ' ' else c

def decodeText (text : List Char) : List Char :=
  Utf8.decode (percentDecode (Utf8.encode (text.map unplus)))

/-! ## Pairs -/

def serializePair (entry : List Char × List Char) : List Char :=
  encodeText entry.1 ++ '=' :: encodeText entry.2

def serialize (entries : List (List Char × List Char)) : List Char :=
  ['&'].intercalate (entries.map serializePair)

/-- The name is what stands before the first `=`. -/
def parsePair (text : List Char) : List Char × List Char :=
  (decodeText (text.takeWhile fun c => c ≠ '='),
    decodeText ((text.dropWhile fun c => c ≠ '=').drop 1))

def parse (text : List Char) : List (List Char × List Char) :=
  ((text.splitOn '&').filter fun part => !part.isEmpty).map parsePair

/-! ## What is read back -/

theorem percentDecode_cons_of_ne {b : Byte} (h : b.val ≠ 0x25) (rest : List Byte) :
    percentDecode (b :: rest) = b :: percentDecode rest := by
  match rest with
  | [] => rfl
  | [_] => rfl
  | _ :: _ :: _ => rw [percentDecode, if_neg h]

/-- These bytes are a byte itself, or `%` and its two digits. -/
def Escapes (plain : List Byte) (b : Byte) : Prop :=
  plain = [b] ∧ b.val ≠ 0x25 ∨
    plain = [Utf8.byte 0x25, Utf8.byte (hexDigit (b.val / 16)).toNat,
      Utf8.byte (hexDigit (b.val % 16)).toNat] ∧
    hexValue? (Utf8.byte (hexDigit (b.val / 16)).toNat) = some (b.val / 16) ∧
    hexValue? (Utf8.byte (hexDigit (b.val % 16)).toNat) = some (b.val % 16)

theorem percentDecode_append {plain : List Byte} {b : Byte} (h : Escapes plain b)
    (rest : List Byte) : percentDecode (plain ++ rest) = b :: percentDecode rest := by
  rcases h with ⟨hplain, hne⟩ | ⟨hplain, hhigh, hlow⟩
  · rw [hplain, List.singleton_append, percentDecode_cons_of_ne hne]
  · have hvalue : Utf8.byte (b.val / 16 * 16 + b.val % 16) = b := by
      refine Fin.ext ?_
      rw [Nat.div_add_mod' b.val 16]
      exact Utf8.byte_val b.isLt
    rw [hplain, List.cons_append, List.cons_append, List.singleton_append, percentDecode,
      if_pos (Utf8.byte_val (by omega)), hhigh, hlow]
    dsimp only
    rw [hvalue]

/-- What the decoder is given for a byte. -/
def plainBytes (b : Byte) : List Byte := Utf8.encode ((encodeByte b).map unplus)

theorem escapes_plainBytes (b : Byte) : Escapes (plainBytes b) b := by
  unfold Escapes
  revert b
  decide +kernel

theorem percentDecode_encodeBytes (bytes : List Byte) :
    percentDecode (Utf8.encode ((bytes.flatMap encodeByte).map unplus)) = bytes := by
  induction bytes with
  | nil => rfl
  | cons b bytes ih =>
    rw [List.flatMap_cons, List.map_append, Utf8.encode_append]
    exact (percentDecode_append (escapes_plainBytes b) _).trans (congrArg (b :: ·) ih)

/-- A name or value survives, whatever its characters. -/
theorem decodeText_encodeText (text : List Char) : decodeText (encodeText text) = text := by
  rw [decodeText, encodeText, percentDecode_encodeBytes, Utf8.decode_encode]

/-! ### Where a text is cut -/

/-- A character of a serialized name or value: visible, and no separator. -/
def isTextChar (c : Char) : Bool :=
  0x20 < c.toNat && c.toNat < 0x7f && c ≠ '&' && c ≠ '=' && c ≠ '#'

theorem encodeByte_isTextChar (b : Byte) : (encodeByte b).all isTextChar = true := by
  revert b
  decide +kernel

theorem isTextChar_of_mem {text : List Char} {c : Char} (h : c ∈ encodeText text) :
    isTextChar c = true := by
  obtain ⟨b, -, hb⟩ := List.mem_flatMap.mp h
  exact List.all_eq_true.mp (encodeByte_isTextChar b) c hb

theorem not_mem_encodeText {c : Char} (h : isTextChar c = false) (text : List Char) :
    c ∉ encodeText text := by
  intro hmem
  rw [isTextChar_of_mem hmem] at h
  cases h

theorem serializePair_ne_nil (entry : List Char × List Char) : serializePair entry ≠ [] := by
  intro h
  exact absurd (List.append_eq_nil_iff.mp h).2 (List.cons_ne_nil _ _)

theorem amp_not_mem_serializePair (entry : List Char × List Char) : '&' ∉ serializePair entry := by
  intro h
  rcases List.mem_append.mp h with h | h
  · exact not_mem_encodeText (by decide) _ h
  · rcases List.mem_cons.mp h with h | h
    · exact absurd h (by decide)
    · exact not_mem_encodeText (by decide) _ h

theorem parsePair_serializePair (entry : List Char × List Char) :
    parsePair (serializePair entry) = entry := by
  have hname : ∀ c ∈ encodeText entry.1, decide (c ≠ '=') = true := by
    intro c hc
    refine decide_eq_true ?_
    rintro rfl
    exact not_mem_encodeText (by decide) _ hc
  rw [parsePair, serializePair, List.takeWhile_append_of_pos hname,
    List.dropWhile_append_of_pos hname, List.takeWhile_cons_of_neg (by decide),
    List.dropWhile_cons_of_neg (by decide), List.append_nil, List.drop_one, List.tail_cons,
    decodeText_encodeText, decodeText_encodeText]

/-- Names and values are read back as they were written, in their order. -/
theorem parse_serialize (entries : List (List Char × List Char)) :
    parse (serialize entries) = entries := by
  cases entries with
  | nil => rfl
  | cons entry entries =>
    have hparts : (serialize (entry :: entries)).splitOn '&' =
        (entry :: entries).map serializePair := by
      refine List.splitOn_intercalate '&' ?_ (List.cons_ne_nil _ _)
      intro part hpart
      obtain ⟨e, -, rfl⟩ := List.mem_map.mp hpart
      exact amp_not_mem_serializePair e
    have hfilter : ((entry :: entries).map serializePair).filter (fun part => !part.isEmpty) =
        (entry :: entries).map serializePair := by
      refine List.filter_eq_self.mpr fun part hpart => ?_
      obtain ⟨e, -, rfl⟩ := List.mem_map.mp hpart
      rw [List.isEmpty_eq_false_iff.mpr (serializePair_ne_nil e)]
      rfl
    have hread : parsePair ∘ serializePair = id := funext parsePair_serializePair
    rw [parse, hparts, hfilter, List.map_map, hread, List.map_id]

/-- The characters of a serialized list. -/
def isQueryChar (c : Char) : Bool := isTextChar c || c = '=' || c = '&'

theorem mem_intercalate {x c : Char} {parts : List (List Char)} (h : c ∈ [x].intercalate parts) :
    c = x ∨ ∃ part ∈ parts, c ∈ part := by
  induction parts with
  | nil => cases h
  | cons part parts ih =>
    cases parts with
    | nil => exact Or.inr ⟨part, List.mem_cons_self, by simpa using h⟩
    | cons next parts =>
      rw [List.intercalate_cons_cons, List.mem_append, List.mem_append, List.mem_singleton] at h
      rcases h with (hpart | hsep) | hrest
      · exact Or.inr ⟨part, List.mem_cons_self, hpart⟩
      · exact Or.inl hsep
      · refine (ih hrest).imp_right ?_
        rintro ⟨other, hmem, hc⟩
        exact ⟨other, List.mem_cons_of_mem _ hmem, hc⟩

theorem isQueryChar_of_mem {entries : List (List Char × List Char)} {c : Char}
    (h : c ∈ serialize entries) : isQueryChar c = true := by
  rw [isQueryChar, Bool.or_eq_true, Bool.or_eq_true, decide_eq_true_eq, decide_eq_true_eq]
  rcases mem_intercalate h with hamp | ⟨part, hpart, hc⟩
  · exact Or.inr hamp
  · obtain ⟨entry, -, rfl⟩ := List.mem_map.mp hpart
    rcases List.mem_append.mp hc with hc | hc
    · exact Or.inl (Or.inl (isTextChar_of_mem hc))
    · rcases List.mem_cons.mp hc with hc | hc
      · exact Or.inl (Or.inr hc)
      · exact Or.inl (Or.inl (isTextChar_of_mem hc))

/-- A serialized list has neither spaces nor controls. -/
theorem lt_toNat_of_mem {entries : List (List Char × List Char)} {c : Char}
    (h : c ∈ serialize entries) : 0x20 < c.toNat := by
  have hquery := isQueryChar_of_mem h
  rw [isQueryChar, isTextChar, Bool.or_eq_true, Bool.or_eq_true, decide_eq_true_eq,
    decide_eq_true_eq] at hquery
  rcases hquery with (htext | rfl) | rfl
  · simp only [Bool.and_eq_true, decide_eq_true_eq] at htext
    exact htext.1.1.1.1
  · decide
  · decide

end RemotePi.Lib.FormUrlEncoded
