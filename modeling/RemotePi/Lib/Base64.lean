import Mathlib.Data.List.GetD
import Mathlib.Data.List.Nodup
import Mathlib.Data.Nat.Notation

/-!
# Base64

The standard alphabet on byte lists. A digit of the alphabet is a sextet; the
characters of a text are handled as a list.

Results:
* `decodeSextets_encodeSextets`, `decode_encode`: decoding inverts encoding.
* `sextet?_digit`, `digit_ne_pad`: the alphabet is injective and has no `=`.
* `isText_encode`: an encoding is well formed.
-/

namespace RemotePi.Lib

abbrev Byte := Fin 256

namespace Base64

abbrev Sextet := Fin 64

/-! ## Sextets -/

/-- The high six bits of a byte. -/
def high (a : Byte) : Sextet := ⟨a.val / 4, by omega⟩

/-- The low two bits of a byte and the high four of the next one. -/
def mid (a b : ℕ) : Sextet := ⟨(a % 4) * 16 + b / 16 % 16, by omega⟩

/-- The low four bits of a byte and the high two of the next one. -/
def mid' (b c : ℕ) : Sextet := ⟨(b % 16) * 4 + c / 64 % 4, by omega⟩

/-- The low six bits of a byte. -/
def low (c : Byte) : Sextet := ⟨c.val % 64, by omega⟩

def encodeSextets : List Byte → List Sextet
  | a :: b :: c :: rest => high a :: mid a b :: mid' b c :: low c :: encodeSextets rest
  | [a, b] => [high a, mid a b, mid' b 0]
  | [a] => [high a, mid a 0]
  | [] => []

def byte₀ (s t : Sextet) : Byte := ⟨s.val * 4 + t.val / 16, by omega⟩

def byte₁ (t u : Sextet) : Byte := ⟨t.val % 16 * 16 + u.val / 4, by omega⟩

def byte₂ (u v : Sextet) : Byte := ⟨u.val % 4 * 64 + v.val, by omega⟩

/-- Trailing bits that make no byte are dropped. -/
def decodeSextets : List Sextet → List Byte
  | s :: t :: u :: v :: rest => byte₀ s t :: byte₁ t u :: byte₂ u v :: decodeSextets rest
  | [s, t, u] => [byte₀ s t, byte₁ t u]
  | [s, t] => [byte₀ s t]
  | _ => []

@[simp] theorem byte₀_encode (a : Byte) (b : ℕ) : byte₀ (high a) (mid a b) = a := by
  ext
  simp only [byte₀, high, mid]
  omega

@[simp] theorem byte₁_encode (a : ℕ) (b : Byte) (c : ℕ) : byte₁ (mid a b) (mid' b c) = b := by
  ext
  simp only [byte₁, mid, mid']
  omega

@[simp] theorem byte₂_encode (b : ℕ) (c : Byte) : byte₂ (mid' b c) (low c) = c := by
  ext
  simp only [byte₂, mid', low]
  omega

theorem decodeSextets_encodeSextets (bytes : List Byte) :
    decodeSextets (encodeSextets bytes) = bytes := by
  induction bytes using encodeSextets.induct with
  | case1 a b c rest ih => simp [encodeSextets, decodeSextets, ih]
  | case2 a b => simp [encodeSextets, decodeSextets]
  | case3 a => simp [encodeSextets, decodeSextets]
  | case4 => rfl

theorem length_encodeSextets (bytes : List Byte) :
    (encodeSextets bytes).length = (bytes.length * 4 + 2) / 3 := by
  induction bytes using encodeSextets.induct with
  | case1 a b c rest ih =>
    simp only [encodeSextets, List.length_cons, ih]
    omega
  | case2 a b => simp [encodeSextets]
  | case3 a => simp [encodeSextets]
  | case4 => rfl

/-! ## Characters -/

/-- The characters of the alphabet, in the order of their values. -/
def alphabet : List Char :=
  ['A', 'B', 'C', 'D', 'E', 'F', 'G', 'H', 'I', 'J', 'K', 'L', 'M', 'N', 'O', 'P', 'Q', 'R', 'S',
    'T', 'U', 'V', 'W', 'X', 'Y', 'Z', 'a', 'b', 'c', 'd', 'e', 'f', 'g', 'h', 'i', 'j', 'k', 'l',
    'm', 'n', 'o', 'p', 'q', 'r', 's', 't', 'u', 'v', 'w', 'x', 'y', 'z', '0', '1', '2', '3', '4',
    '5', '6', '7', '8', '9', '+', '/']

def digit (s : Sextet) : Char := alphabet.getD s.val 'A'

/-- The sextet of a character of the alphabet. -/
def sextet? (c : Char) : Option Sextet :=
  (List.finRange 64).find? fun s => digit s == c

theorem nodup_alphabet : alphabet.Nodup := by decide

theorem digit_eq_get (s : Sextet) : digit s = alphabet.get s :=
  List.getD_eq_getElem alphabet 'A' s.isLt

theorem digit_injective : Function.Injective digit := by
  intro s t h
  rw [digit_eq_get, digit_eq_get] at h
  exact List.nodup_iff_injective_get.mp nodup_alphabet h

theorem sextet?_digit (s : Sextet) : sextet? (digit s) = some s := by
  cases h : sextet? (digit s) with
  | none =>
    have hne := List.find?_eq_none.mp h s (List.mem_finRange s)
    exact absurd (beq_self_eq_true _) hne
  | some t =>
    unfold sextet? at h
    have hbeq := List.find?_some h
    rw [digit_injective (eq_of_beq hbeq)]

theorem digit_ne_pad (s : Sextet) : digit s ≠ '=' := by
  have hpad : '=' ∉ alphabet := by decide
  intro h
  rw [digit_eq_get] at h
  exact hpad (h ▸ List.get_mem alphabet s)

/-- The padded text of a byte list. -/
def encode (bytes : List Byte) : List Char :=
  (encodeSextets bytes).map digit ++ List.replicate ((4 - (encodeSextets bytes).length % 4) % 4) '='

/-- The bytes of a text without padding; characters outside the alphabet are skipped. -/
def decode (body : List Char) : List Byte := decodeSextets (body.filterMap sextet?)

theorem length_encode (bytes : List Byte) : (encode bytes).length = (bytes.length + 2) / 3 * 4 := by
  rw [encode, List.length_append, List.length_map, List.length_replicate, length_encodeSextets]
  omega

theorem sextet?_pad : sextet? '=' = none := by
  refine List.find?_eq_none.mpr fun s _ h => ?_
  exact digit_ne_pad s (eq_of_beq h)

theorem decode_digits (bytes : List Byte) : decode ((encodeSextets bytes).map digit) = bytes := by
  rw [decode, List.filterMap_map]
  have h : sextet? ∘ digit = some := funext sextet?_digit
  rw [h, List.filterMap_some, decodeSextets_encodeSextets]

theorem decode_encode (bytes : List Byte) : decode (encode bytes) = bytes := by
  have hpad : ∀ n, (List.replicate n '=').filterMap sextet? = [] := by
    intro n
    exact List.filterMap_eq_nil_iff.mpr fun c hc => by
      rw [List.eq_of_mem_replicate hc, sextet?_pad]
  rw [decode, encode, List.filterMap_append, hpad, List.append_nil]
  exact decode_digits bytes

/-! ## Well-formed texts -/

def isDigit (c : Char) : Bool := (sextet? c).isSome

/-- Groups of four digits, the last one padded where needed. -/
def isText : List Char → Bool
  | [] => true
  | a :: b :: c :: d :: rest =>
    isDigit a && isDigit b &&
      if rest.isEmpty && d = '=' then c = '=' || isDigit c
      else isDigit c && isDigit d && isText rest
  | _ => false

theorem isDigit_digit (s : Sextet) : isDigit (digit s) = true := by
  rw [isDigit, sextet?_digit]
  rfl

theorem encode_cons (a b c : Byte) (rest : List Byte) :
    encode (a :: b :: c :: rest) =
      digit (high a) :: digit (mid a b) :: digit (mid' b c) :: digit (low c) :: encode rest := by
  have hlen : (encodeSextets (a :: b :: c :: rest)).length = (encodeSextets rest).length + 4 := rfl
  rw [encode, hlen, Nat.add_mod_right]
  rfl

theorem isText_encode (bytes : List Byte) : isText (encode bytes) = true := by
  induction bytes using encodeSextets.induct with
  | case1 a b c rest ih =>
    rw [encode_cons, isText]
    simp [isDigit_digit, digit_ne_pad, ih]
  | case2 a b =>
    show isText [digit (high a), digit (mid a b), digit (mid' b 0), '='] = true
    simp [isText, isDigit_digit]
  | case3 a =>
    show isText [digit (high a), digit (mid a 0), '=', '='] = true
    simp [isText, isDigit_digit]
  | case4 => rfl

end Base64

end RemotePi.Lib
