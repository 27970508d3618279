import Mathlib.Data.List.Basic
import RemotePi.Lib.Base64

/-!
# UTF-8

The encoder, and the decoder that ECMAScript hosts use for arbitrary bytes: a byte that cannot
continue the character before it ends that character with a replacement character, and is then
read as the first one of the next.

Results:
* `decodeFrom_append`: the decoder reads byte by byte.
* `decode_append`: bytes that are cut between two characters decode piece by piece.
* `decode_encode`: the decoder inverts the encoder.
* `decodeFatal_encode`: so does the one that refuses what it cannot read, on a text that begins
  with an ASCII character.
-/

namespace RemotePi.Lib.Utf8

/-- U+FFFD, for bytes that make no character. -/
def replacement : Char := Char.ofNat 0xfffd

/-- A character of which some bytes are still needed, with the range of the next one. -/
structure Pending where
  value : ℕ
  needed : ℕ
  lower : ℕ
  upper : ℕ
deriving DecidableEq, Repr

def Pending.continuedBy (p : Pending) (b : Byte) : Bool := p.lower ≤ b.val && b.val ≤ p.upper

/-- The first byte of a character. -/
def leadByte (b : Byte) : List Char × Option Pending :=
  if b.val < 0x80 then ([Char.ofNat b.val], none)
  else if 0xc2 ≤ b.val ∧ b.val ≤ 0xdf then ([], some ⟨b.val % 32, 1, 0x80, 0xbf⟩)
  else if 0xe0 ≤ b.val ∧ b.val ≤ 0xef then
    ([], some ⟨b.val % 16, 2, if b.val = 0xe0 then 0xa0 else 0x80,
      if b.val = 0xed then 0x9f else 0xbf⟩)
  else if 0xf0 ≤ b.val ∧ b.val ≤ 0xf4 then
    ([], some ⟨b.val % 8, 3, if b.val = 0xf0 then 0x90 else 0x80,
      if b.val = 0xf4 then 0x8f else 0xbf⟩)
  else ([replacement], none)

def decodeByte (state : Option Pending) (b : Byte) : List Char × Option Pending :=
  match state with
  | none => leadByte b
  | some p =>
    if p.continuedBy b then
      let value := p.value * 64 + b.val % 64
      if p.needed = 1 then ([Char.ofNat value], none)
      else ([], some ⟨value, p.needed - 1, 0x80, 0xbf⟩)
    else (replacement :: (leadByte b).1, (leadByte b).2)

/-- The characters of some bytes, and the character that they leave unfinished. -/
def decodeFrom : Option Pending → List Byte → List Char × Option Pending
  | state, [] => ([], state)
  | state, b :: bytes =>
    let rest := decodeFrom (decodeByte state b).2 bytes
    ((decodeByte state b).1 ++ rest.1, rest.2)

/-- The end of the bytes. -/
def flush (state : Option Pending) : List Char :=
  match state with
  | none => []
  | some _ => [replacement]

def decode (bytes : List Byte) : List Char :=
  (decodeFrom none bytes).1 ++ flush (decodeFrom none bytes).2

/-- The second piece begins with a byte that continues the last character of the first one. -/
def splitsCharacter (before after : List Byte) : Bool :=
  match (decodeFrom none before).2, after with
  | some p, b :: _ => p.continuedBy b
  | _, _ => false

theorem decodeFrom_append (state : Option Pending) (bytes bytes' : List Byte) :
    decodeFrom state (bytes ++ bytes') =
      ((decodeFrom state bytes).1 ++ (decodeFrom (decodeFrom state bytes).2 bytes').1,
        (decodeFrom (decodeFrom state bytes).2 bytes').2) := by
  induction bytes generalizing state with
  | nil => rfl
  | cons b bytes ih =>
    rw [List.cons_append, decodeFrom, ih]
    simp only [decodeFrom, List.append_assoc]

/-- A byte that does not continue the character before it is read as at the start. -/
theorem decodeFrom_of_not_continued {p : Pending} {b : Byte} {bytes : List Byte}
    (h : p.continuedBy b = false) :
    decodeFrom (some p) (b :: bytes) =
      (replacement :: (decodeFrom none (b :: bytes)).1, (decodeFrom none (b :: bytes)).2) := by
  have hbyte : decodeByte (some p) b = (replacement :: (leadByte b).1, (leadByte b).2) := by
    simp [decodeByte, h]
  rw [decodeFrom, hbyte]
  rfl

/-- Pieces that are cut between two characters decode to the characters of the whole. -/
theorem decode_append {bytes bytes' : List Byte} (h : splitsCharacter bytes bytes' = false) :
    decode (bytes ++ bytes') = decode bytes ++ decode bytes' := by
  unfold decode
  rw [decodeFrom_append]
  dsimp only
  cases hstate : (decodeFrom none bytes).2 with
  | none => simp [flush]
  | some p =>
    cases bytes' with
    | nil => simp [decodeFrom, flush]
    | cons b rest =>
      have hcontinued : p.continuedBy b = false := by
        simpa only [splitsCharacter, hstate] using h
      rw [decodeFrom_of_not_continued hcontinued]
      simp [flush]

/-! ## Encoding -/

def byte (n : ℕ) : Byte := ⟨n % 256, by omega⟩

def encodeChar (c : Char) : List Byte :=
  if c.toNat < 0x80 then [byte c.toNat]
  else if c.toNat < 0x800 then [byte (0xc0 + c.toNat / 64), byte (0x80 + c.toNat % 64)]
  else if c.toNat < 0x10000 then
    [byte (0xe0 + c.toNat / 4096), byte (0x80 + c.toNat / 64 % 64), byte (0x80 + c.toNat % 64)]
  else
    [byte (0xf0 + c.toNat / 262144), byte (0x80 + c.toNat / 4096 % 64),
      byte (0x80 + c.toNat / 64 % 64), byte (0x80 + c.toNat % 64)]

def encode (text : List Char) : List Byte := text.flatMap encodeChar

theorem byte_val {n : ℕ} (h : n < 256) : (byte n).val = n := Nat.mod_eq_of_lt h

theorem encode_cons (c : Char) (text : List Char) :
    encode (c :: text) = encodeChar c ++ encode text := List.flatMap_cons

theorem encode_append (text text' : List Char) :
    encode (text ++ text') = encode text ++ encode text' := List.flatMap_append

/-- A first byte that announces more bytes. -/
theorem decodeFrom_lead {b : Byte} {p : Pending} (h : leadByte b = ([], some p))
    (rest : List Byte) : decodeFrom none (b :: rest) = decodeFrom (some p) rest := by
  rw [decodeFrom, decodeByte, h]
  rfl

/-- A byte after which more are needed. -/
theorem decodeFrom_continued {p : Pending} {m : ℕ} (hm : m < 64) (hlower : p.lower ≤ 0x80 + m)
    (hupper : 0x80 + m ≤ p.upper) (hneeded : p.needed ≠ 1) (rest : List Byte) :
    decodeFrom (some p) (byte (0x80 + m) :: rest) =
      decodeFrom (some ⟨p.value * 64 + m, p.needed - 1, 0x80, 0xbf⟩) rest := by
  have hval : (byte (0x80 + m)).val = 0x80 + m := byte_val (by omega)
  have hcontinued : p.continuedBy (byte (0x80 + m)) = true := by
    rw [Pending.continuedBy, hval, decide_eq_true hlower, decide_eq_true hupper, Bool.true_and]
  have hlow : (0x80 + m) % 64 = m := by omega
  rw [decodeFrom, decodeByte]
  simp only [hcontinued, hneeded, if_true, if_false, hval, hlow, List.nil_append]

/-- The last byte of a character. -/
theorem decodeFrom_last {p : Pending} {m : ℕ} (hm : m < 64) (hlower : p.lower ≤ 0x80 + m)
    (hupper : 0x80 + m ≤ p.upper) (hneeded : p.needed = 1) (rest : List Byte) :
    decodeFrom (some p) (byte (0x80 + m) :: rest) =
      (Char.ofNat (p.value * 64 + m) :: (decodeFrom none rest).1, (decodeFrom none rest).2) := by
  have hval : (byte (0x80 + m)).val = 0x80 + m := byte_val (by omega)
  have hcontinued : p.continuedBy (byte (0x80 + m)) = true := by
    rw [Pending.continuedBy, hval, decide_eq_true hlower, decide_eq_true hupper, Bool.true_and]
  have hlow : (0x80 + m) % 64 = m := by omega
  rw [decodeFrom, decodeByte]
  simp only [hcontinued, hneeded, if_true, hval, hlow, List.singleton_append]

theorem decodeFrom_ascii {n : ℕ} (h : n < 0x80) (rest : List Byte) :
    decodeFrom none (byte n :: rest) =
      (Char.ofNat n :: (decodeFrom none rest).1, (decodeFrom none rest).2) := by
  have hval : (byte n).val = n := byte_val (by omega)
  rw [decodeFrom, decodeByte, leadByte, hval, if_pos h]
  rfl

theorem leadByte_two {n : ℕ} (h : 0x80 ≤ n) (h' : n < 0x800) :
    leadByte (byte (0xc0 + n / 64)) = ([], some ⟨n / 64, 1, 0x80, 0xbf⟩) := by
  have hval : (byte (0xc0 + n / 64)).val = 0xc0 + n / 64 := byte_val (by omega)
  have hvalue : (0xc0 + n / 64) % 32 = n / 64 := by omega
  rw [leadByte, hval, if_neg (by omega), if_pos (by omega), hvalue]

theorem leadByte_three {n : ℕ} (h' : n < 0x10000) :
    leadByte (byte (0xe0 + n / 4096)) =
      ([], some ⟨n / 4096, 2, if n / 4096 = 0 then 0xa0 else 0x80,
        if n / 4096 = 13 then 0x9f else 0xbf⟩) := by
  have hval : (byte (0xe0 + n / 4096)).val = 0xe0 + n / 4096 := byte_val (by omega)
  have hvalue : (0xe0 + n / 4096) % 16 = n / 4096 := by omega
  have hfirst : (0xe0 + n / 4096 = 0xe0) = (n / 4096 = 0) := by
    rw [eq_iff_iff]
    omega
  have hsurrogate : (0xe0 + n / 4096 = 0xed) = (n / 4096 = 13) := by
    rw [eq_iff_iff]
    omega
  rw [leadByte, hval, if_neg (by omega), if_neg (by omega), if_pos (by omega), hvalue]
  simp only [hfirst, hsurrogate]

theorem leadByte_four {n : ℕ} (h' : n < 0x110000) :
    leadByte (byte (0xf0 + n / 262144)) =
      ([], some ⟨n / 262144, 3, if n / 262144 = 0 then 0x90 else 0x80,
        if n / 262144 = 4 then 0x8f else 0xbf⟩) := by
  have hval : (byte (0xf0 + n / 262144)).val = 0xf0 + n / 262144 := byte_val (by omega)
  have hvalue : (0xf0 + n / 262144) % 8 = n / 262144 := by omega
  have hfirst : (0xf0 + n / 262144 = 0xf0) = (n / 262144 = 0) := by
    rw [eq_iff_iff]
    omega
  have hlast : (0xf0 + n / 262144 = 0xf4) = (n / 262144 = 4) := by
    rw [eq_iff_iff]
    omega
  rw [leadByte, hval, if_neg (by omega), if_neg (by omega), if_neg (by omega), if_pos (by omega),
    hvalue]
  simp only [hfirst, hlast]

/-- The decoder reads the bytes of a character as that character. -/
theorem decodeFrom_encodeChar (c : Char) (rest : List Byte) :
    decodeFrom none (encodeChar c ++ rest) =
      (c :: (decodeFrom none rest).1, (decodeFrom none rest).2) := by
  have hrange : c.toNat < 0xd800 ∨ 0xdfff < c.toNat ∧ c.toNat < 0x110000 := c.valid
  unfold encodeChar
  split_ifs with h₁ h₂ h₃
  · rw [List.singleton_append, decodeFrom_ascii h₁, Char.ofNat_toNat]
  · have hvalue : c.toNat / 64 * 64 + c.toNat % 64 = c.toNat := by omega
    rw [List.cons_append, List.singleton_append,
      decodeFrom_lead (leadByte_two (Nat.not_lt.mp h₁) h₂),
      decodeFrom_last (by omega) (by dsimp only; omega) (by dsimp only; omega) rfl]
    dsimp only
    rw [hvalue, Char.ofNat_toNat]
  · have hvalue : (c.toNat / 4096 * 64 + c.toNat / 64 % 64) * 64 + c.toNat % 64 = c.toNat := by
      omega
    rw [List.cons_append, List.cons_append, List.singleton_append,
      decodeFrom_lead (leadByte_three h₃),
      decodeFrom_continued (by omega) (by dsimp only; split_ifs <;> omega)
        (by dsimp only; split_ifs <;> omega) (by simp),
      decodeFrom_last (by omega) (by dsimp only; omega) (by dsimp only; omega) rfl]
    dsimp only
    rw [hvalue, Char.ofNat_toNat]
  · have hvalue : ((c.toNat / 262144 * 64 + c.toNat / 4096 % 64) * 64 + c.toNat / 64 % 64) * 64 +
        c.toNat % 64 = c.toNat := by omega
    rw [List.cons_append, List.cons_append, List.cons_append, List.singleton_append,
      decodeFrom_lead (leadByte_four (by omega)),
      decodeFrom_continued (by omega) (by dsimp only; split_ifs <;> omega)
        (by dsimp only; split_ifs <;> omega) (by simp),
      decodeFrom_continued (by omega) (by dsimp only; omega) (by dsimp only; omega) (by simp),
      decodeFrom_last (by omega) (by dsimp only; omega) (by dsimp only; omega) rfl]
    dsimp only
    rw [hvalue, Char.ofNat_toNat]

theorem decodeFrom_encode (text : List Char) : decodeFrom none (encode text) = (text, none) := by
  induction text with
  | nil => rfl
  | cons c text ih => rw [encode_cons, decodeFrom_encodeChar, ih]

theorem decode_encode (text : List Char) : decode (encode text) = text := by
  rw [decode, decodeFrom_encode]
  exact List.append_nil text

/-! ## Bytes that have to be a text -/

def byteOrderMark : List Byte := [byte 0xef, byte 0xbb, byte 0xbf]

/-- The bytes without a byte order mark at their start. -/
def withoutMark (bytes : List Byte) : List Byte :=
  if byteOrderMark.isPrefixOf bytes then bytes.drop 3 else bytes

/-- A decoder that leaves out a byte order mark. -/
def decodeText (bytes : List Byte) : List Char := decode (withoutMark bytes)

/-- The one that refuses bytes that are not the encoding of a text. -/
def decodeFatal (bytes : List Byte) : Option (List Char) :=
  if encode (decodeText bytes) = withoutMark bytes then some (decodeText bytes) else none

theorem withoutMark_encode {c : Char} (hc : c.toNat < 0x80) (text : List Char) :
    withoutMark (encode (c :: text)) = encode (c :: text) := by
  have hbytes : encode (c :: text) = byte c.toNat :: encode text := by
    rw [encode_cons, encodeChar, if_pos hc]
    rfl
  have hmark : byteOrderMark.isPrefixOf (encode (c :: text)) = false := by
    rw [hbytes, byteOrderMark, List.isPrefixOf_cons_cons]
    have hne : (byte 0xef == byte c.toNat) = false := by
      refine beq_eq_false_iff_ne.mpr fun h => ?_
      have hval := congrArg Fin.val h
      rw [byte_val (by omega), byte_val (by omega)] at hval
      omega
    rw [hne, Bool.false_and]
  rw [withoutMark, hmark, if_neg Bool.false_ne_true]

theorem decodeText_encode {c : Char} (hc : c.toNat < 0x80) (text : List Char) :
    decodeText (encode (c :: text)) = c :: text := by
  rw [decodeText, withoutMark_encode hc, decode_encode]

theorem decodeFatal_encode {c : Char} (hc : c.toNat < 0x80) (text : List Char) :
    decodeFatal (encode (c :: text)) = some (c :: text) := by
  rw [decodeFatal, decodeText_encode hc, withoutMark_encode hc, if_pos rfl]

end RemotePi.Lib.Utf8
