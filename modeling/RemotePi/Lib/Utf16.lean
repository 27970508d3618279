import Mathlib.Data.Char
import RemotePi.Lib.Utf8

/-!
# UTF-16 strings

A string of an ECMAScript host is a list of code units in which halves of surrogate pairs may
stand alone. Conversion to characters replaces each of these by U+FFFD, as hosts do where they
take a string of scalar values.

Results:
* `decode_encode`: characters survive the conversion to code units.
* `encode_decode_iff`: a string is kept by the conversion to characters exactly when it has no
  lone surrogate.
* `length_encode_decode`: the conversion keeps the length.
* `decode_flatten`: parts that no surrogate pair crosses are converted one by one.
-/

namespace RemotePi.Lib.Utf16

open Utf8 (replacement)

/-- A code unit of a text. -/
abbrev CodeUnit := Fin 65536

/-- The unit begins a surrogate pair. -/
def isHigh (u : CodeUnit) : Bool := 0xd800 ≤ u.val && u.val ≤ 0xdbff

/-- The unit ends a surrogate pair. -/
def isLow (u : CodeUnit) : Bool := 0xdc00 ≤ u.val && u.val ≤ 0xdfff

/-- The unit belongs to a surrogate pair, or stands alone where one would. -/
def isSurrogate (u : CodeUnit) : Bool := isHigh u || isLow u

/-! ## Characters -/

/-- The unit of a number. -/
def unit (n : ℕ) : CodeUnit := ⟨n % 65536, by omega⟩

/-- One unit for a character of the basic plane, a surrogate pair for any other. -/
def encodeChar (c : Char) : List CodeUnit :=
  if c.toNat < 0x10000 then [unit c.toNat]
  else [unit (0xd800 + (c.toNat - 0x10000) / 0x400), unit (0xdc00 + (c.toNat - 0x10000) % 0x400)]

/-- The character of a code unit on its own. -/
def single (u : CodeUnit) : Char := if isSurrogate u then replacement else Char.ofNat u.val

/-- The character of a surrogate pair. -/
def pair (u v : CodeUnit) : Char :=
  Char.ofNat (0x10000 + (u.val - 0xd800) * 0x400 + (v.val - 0xdc00))

/-! ## Strings -/

/-- The units of a text. -/
def encode (text : List Char) : List CodeUnit := text.flatMap encodeChar

/-- `toWellFormed`, as characters. -/
def decode : List CodeUnit → List Char
  | [] => []
  | [u] => [single u]
  | u :: v :: rest =>
    if isHigh u && isLow v then pair u v :: decode rest else single u :: decode (v :: rest)

/-- `isWellFormed`: no surrogate stands alone. -/
def isWellFormed : List CodeUnit → Bool
  | [] => true
  | [u] => !isSurrogate u
  | u :: v :: rest =>
    if isHigh u && isLow v then isWellFormed rest
    else !isSurrogate u && isWellFormed (v :: rest)

theorem isHigh_iff {u : CodeUnit} : isHigh u = true ↔ 0xd800 ≤ u.val ∧ u.val ≤ 0xdbff := by
  rw [isHigh, Bool.and_eq_true, decide_eq_true_eq, decide_eq_true_eq]

theorem isLow_iff {u : CodeUnit} : isLow u = true ↔ 0xdc00 ≤ u.val ∧ u.val ≤ 0xdfff := by
  rw [isLow, Bool.and_eq_true, decide_eq_true_eq, decide_eq_true_eq]

theorem isSurrogate_iff {u : CodeUnit} :
    isSurrogate u = true ↔ 0xd800 ≤ u.val ∧ u.val ≤ 0xdfff := by
  rw [isSurrogate, Bool.or_eq_true, isHigh_iff, isLow_iff]
  omega

theorem toNat_range (c : Char) :
    c.toNat < 0xd800 ∨ 0xdfff < c.toNat ∧ c.toNat < 0x110000 := c.valid

theorem toNat_ofNat {n : ℕ} (h : n < 0xd800 ∨ 0xdfff < n ∧ n < 0x110000) :
    (Char.ofNat n).toNat = n := by
  rw [Char.ofNat, dif_pos h]
  rfl

@[simp] theorem unit_val {n : ℕ} (h : n < 65536) : (unit n).val = n := Nat.mod_eq_of_lt h

theorem unit_eq (u : CodeUnit) : unit u.val = u := Fin.ext (Nat.mod_eq_of_lt u.isLt)

/-! ### From characters to code units and back -/

/-- A code unit that is no surrogate is a character, whatever follows. -/
theorem decode_cons_of_not_surrogate {u : CodeUnit} (h : isSurrogate u = false)
    (rest : List CodeUnit) : decode (u :: rest) = Char.ofNat u.val :: decode rest := by
  have hsingle : single u = Char.ofNat u.val := if_neg (by rw [h]; exact Bool.false_ne_true)
  have hhigh : isHigh u = false := (Bool.or_eq_false_iff.mp h).1
  cases rest with
  | nil => rw [decode, decode, hsingle]
  | cons v rest => rw [decode, hhigh, Bool.false_and, if_neg Bool.false_ne_true, hsingle]

theorem decode_encodeChar (c : Char) (rest : List CodeUnit) :
    decode (encodeChar c ++ rest) = c :: decode rest := by
  have hrange := toNat_range c
  unfold encodeChar
  split_ifs with hbasic
  · have hval : (unit c.toNat).val = c.toNat := unit_val hbasic
    have hnot : isSurrogate (unit c.toNat) = false := by
      rw [← Bool.not_eq_true, isSurrogate_iff, hval]
      omega
    rw [List.singleton_append, decode_cons_of_not_surrogate hnot, hval, Char.ofNat_toNat]
  · have hhigh : (unit (0xd800 + (c.toNat - 0x10000) / 0x400)).val =
        0xd800 + (c.toNat - 0x10000) / 0x400 := unit_val (by omega)
    have hlow : (unit (0xdc00 + (c.toNat - 0x10000) % 0x400)).val =
        0xdc00 + (c.toNat - 0x10000) % 0x400 := unit_val (by omega)
    have hpair : (isHigh (unit (0xd800 + (c.toNat - 0x10000) / 0x400)) &&
        isLow (unit (0xdc00 + (c.toNat - 0x10000) % 0x400))) = true := by
      rw [Bool.and_eq_true, isHigh_iff, isLow_iff, hhigh, hlow]
      omega
    have hvalue : 0x10000 + (0xd800 + (c.toNat - 0x10000) / 0x400 - 0xd800) * 0x400 +
        (0xdc00 + (c.toNat - 0x10000) % 0x400 - 0xdc00) = c.toNat := by omega
    rw [List.cons_append, List.singleton_append, decode, if_pos hpair, pair, hhigh, hlow, hvalue,
      Char.ofNat_toNat]

theorem encode_cons (c : Char) (text : List Char) :
    encode (c :: text) = encodeChar c ++ encode text := List.flatMap_cons

theorem decode_encode (text : List Char) : decode (encode text) = text := by
  induction text with
  | nil => rfl
  | cons c text ih => rw [encode_cons, decode_encodeChar, ih]

/-! ### From code units to characters and back -/

theorem encodeChar_single {u : CodeUnit} (h : isSurrogate u = false) :
    encodeChar (single u) = [u] := by
  have hsingle : single u = Char.ofNat u.val := if_neg (by rw [h]; exact Bool.false_ne_true)
  have hnat : (Char.ofNat u.val).toNat = u.val := by
    rw [← Bool.not_eq_true, isSurrogate_iff] at h
    exact toNat_ofNat (by omega)
  rw [hsingle, encodeChar, hnat, if_pos u.isLt, unit_eq]

theorem encodeChar_pair {u v : CodeUnit} (h : (isHigh u && isLow v) = true) :
    encodeChar (pair u v) = [u, v] := by
  rw [Bool.and_eq_true, isHigh_iff, isLow_iff] at h
  have hnat : (pair u v).toNat = 0x10000 + (u.val - 0xd800) * 0x400 + (v.val - 0xdc00) :=
    toNat_ofNat (by omega)
  have hhigh : unit (0xd800 + ((pair u v).toNat - 0x10000) / 0x400) = u := by
    refine Fin.ext ?_
    rw [hnat, unit_val (by omega)]
    omega
  have hlow : unit (0xdc00 + ((pair u v).toNat - 0x10000) % 0x400) = v := by
    refine Fin.ext ?_
    rw [hnat, unit_val (by omega)]
    omega
  rw [encodeChar, if_neg (by omega), hhigh, hlow]

theorem encodeChar_replacement : encodeChar replacement = [unit 0xfffd] := by decide

theorem encodeChar_single_of_surrogate {u : CodeUnit} (h : isSurrogate u = true) :
    encodeChar (single u) = [unit 0xfffd] := by
  rw [single, if_pos h, encodeChar_replacement]

/-- A lone surrogate is not U+FFFD. -/
theorem unit_ne_surrogate {u : CodeUnit} (h : isSurrogate u = true) : unit 0xfffd ≠ u := by
  rw [isSurrogate_iff] at h
  rintro rfl
  rw [unit_val (by omega)] at h
  omega

/-- The conversion to characters keeps exactly the strings without a lone surrogate. -/
theorem encode_decode_iff (units : List CodeUnit) :
    encode (decode units) = units ↔ isWellFormed units = true := by
  induction units using decode.induct with
  | case1 => exact iff_of_true rfl rfl
  | case2 u =>
    rw [decode, encode_cons, isWellFormed, Bool.not_eq_true']
    cases hu : isSurrogate u with
    | false => exact iff_of_true (by rw [encodeChar_single hu]; rfl) rfl
    | true =>
      refine iff_of_false (fun h => ?_) Bool.noConfusion
      rw [encodeChar_single_of_surrogate hu] at h
      exact unit_ne_surrogate hu (List.cons_eq_cons.mp h).1
  | case3 u v rest hpair ih =>
    rw [decode, isWellFormed, if_pos hpair, if_pos hpair, encode_cons, encodeChar_pair hpair, ← ih]
    simp
  | case4 u v rest hpair ih =>
    rw [decode, isWellFormed, if_neg hpair, if_neg hpair, encode_cons, Bool.and_eq_true, ← ih,
      Bool.not_eq_true']
    cases hu : isSurrogate u with
    | false =>
      rw [encodeChar_single hu]
      simp
    | true =>
      refine iff_of_false (fun h => ?_) (fun h => Bool.noConfusion h.1)
      rw [encodeChar_single_of_surrogate hu] at h
      exact unit_ne_surrogate hu (List.cons_eq_cons.mp h).1

theorem isWellFormed_encode (text : List Char) : isWellFormed (encode text) = true := by
  rw [← encode_decode_iff, decode_encode]

theorem length_encodeChar_single (u : CodeUnit) : (encodeChar (single u)).length = 1 := by
  cases hu : isSurrogate u with
  | false => rw [encodeChar_single hu, List.length_singleton]
  | true => rw [encodeChar_single_of_surrogate hu, List.length_singleton]

theorem length_encode_decode (units : List CodeUnit) :
    (encode (decode units)).length = units.length := by
  induction units using decode.induct with
  | case1 => rfl
  | case2 u =>
    rw [decode, encode_cons, List.length_append, length_encodeChar_single]
    rfl
  | case3 u v rest hpair ih =>
    rw [decode, if_pos hpair, encode_cons, encodeChar_pair hpair, List.length_append, ih]
    simp only [List.length_cons, List.length_nil]
    omega
  | case4 u v rest hpair ih =>
    rw [decode, if_neg hpair, encode_cons, List.length_append, length_encodeChar_single, ih]
    simp only [List.length_cons]
    omega

theorem decode_ne_nil {units : List CodeUnit} (h : units ≠ []) : decode units ≠ [] := by
  intro hnil
  have hlength := length_encode_decode units
  rw [hnil] at hlength
  exact h (List.length_eq_zero_iff.mp hlength.symm)

/-! ### Parts of a string -/

/-- No surrogate pair has its halves in both strings. -/
def Apart (xs ys : List CodeUnit) : Prop :=
  ∀ u v, xs.getLast? = some u → ys.head? = some v → ¬ (isHigh u = true ∧ isLow v = true)

theorem Apart.of_suffix {pre xs ys : List CodeUnit} (h : Apart (pre ++ xs) ys) : Apart xs ys := by
  intro u v hu hv
  refine h u v ?_ hv
  rw [List.getLast?_append, hu]
  rfl

theorem decode_append {xs ys : List CodeUnit} (h : Apart xs ys) :
    decode (xs ++ ys) = decode xs ++ decode ys := by
  induction xs using decode.induct with
  | case1 => rfl
  | case2 u =>
    cases ys with
    | nil => simp [decode]
    | cons v rest =>
      have hnot : ¬ (isHigh u && isLow v) = true := by
        rw [Bool.and_eq_true]
        exact h u v rfl rfl
      have hcons : decode (u :: v :: rest) = single u :: decode (v :: rest) := by
        rw [decode, if_neg hnot]
      rw [List.singleton_append, hcons]
      rfl
  | case3 u v rest hpair ih =>
    have hrest : Apart rest ys := @Apart.of_suffix [u, v] rest ys h
    rw [List.cons_append, List.cons_append, decode, if_pos hpair, ih hrest, decode, if_pos hpair,
      List.cons_append]
  | case4 u v rest hpair ih =>
    have hrest : Apart (v :: rest) ys := @Apart.of_suffix [u] (v :: rest) ys h
    rw [List.cons_append, List.cons_append, decode, if_neg hpair, ← List.cons_append, ih hrest,
      decode, if_neg hpair, List.cons_append]

/-- Parts that no surrogate pair crosses are converted one by one. -/
theorem decode_flatten {parts : List (List CodeUnit)}
    (h : ∀ before after, parts = before ++ after → Apart before.flatten after.flatten) :
    decode parts.flatten = parts.flatMap decode := by
  induction parts with
  | nil => rfl
  | cons part parts ih =>
    have hpart : Apart part parts.flatten := by
      have := h [part] parts rfl
      rwa [List.flatten_singleton] at this
    have hparts : ∀ before after, parts = before ++ after →
        Apart before.flatten after.flatten := by
      intro before after hsplit
      refine @Apart.of_suffix part _ _ ?_
      rw [← List.flatten_cons]
      exact h (part :: before) after (by rw [hsplit, List.cons_append])
    rw [List.flatten_cons, decode_append hpart, ih hparts, List.flatMap_cons]

end RemotePi.Lib.Utf16
