import RemotePi.Lib.JsonOrder
import RemotePi.Protocol.SessionState

/-!
# Fingerprints of payloads

`fingerprintPayload` (`pi-extension/src/protocol/v2/session_state.ts`, lines 207–224) digests
a canonical form of a payload: the members of every object sorted by the UTF-16 code units of
their keys, without those named `__proto__`.

Results:
* `utf16Units_injective`: a string is determined by its code units.
* `canonicalize_eq`: the canonical form is a normal form of the payload without `__proto__`.
* `canonicalize_eq_iff`: which payloads have the same canonical form.
-/

namespace RemotePi.Protocol

open RemotePi.Lib

/-! ## The order of the keys -/

/-- The code units of a character. -/
def charUnits (c : Char) : List ℕ :=
  if c.toNat < 0x10000 then [c.toNat]
  else [0xD800 + (c.toNat - 0x10000) / 0x400, 0xDC00 + (c.toNat - 0x10000) % 0x400]

theorem toNat_char (c : Char) : c.toNat < 0xD800 ∨ (0xDFFF < c.toNat ∧ c.toNat < 0x110000) :=
  c.valid

theorem charUnits_ne_nil (c : Char) : charUnits c ≠ [] := by
  unfold charUnits
  split_ifs <;> simp

theorem charUnits_append_inj {c d : Char} {l l' : List ℕ}
    (h : charUnits c ++ l = charUnits d ++ l') : c = d ∧ l = l' := by
  have hc := toNat_char c
  have hd := toNat_char d
  unfold charUnits at h
  have hsame : c.toNat = d.toNat ∧ l = l' := by
    split_ifs at h with h₁ h₂ h₂
    · obtain ⟨hhead, htail⟩ := List.cons_eq_cons.mp h
      exact ⟨hhead, htail⟩
    · obtain ⟨hhead, -⟩ := List.cons_eq_cons.mp h
      omega
    · obtain ⟨hhead, -⟩ := List.cons_eq_cons.mp h
      omega
    · obtain ⟨hhead, htail⟩ := List.cons_eq_cons.mp h
      obtain ⟨hsecond, hrest⟩ := List.cons_eq_cons.mp htail
      exact ⟨by omega, hrest⟩
  exact ⟨Char.toNat_inj.mp hsame.1, hsame.2⟩

theorem utf16Units_injective : Function.Injective utf16Units := by
  intro s t h
  have hlist : ∀ l l' : List Char, l.flatMap charUnits = l'.flatMap charUnits → l = l' := by
    intro l
    induction l with
    | nil =>
      intro l' h
      cases l' with
      | nil => rfl
      | cons d l' =>
        rw [List.flatMap_nil, List.flatMap_cons] at h
        exact absurd (List.append_eq_nil_iff.mp h.symm).1 (charUnits_ne_nil d)
    | cons c l ih =>
      intro l' h
      cases l' with
      | nil =>
        rw [List.flatMap_nil, List.flatMap_cons] at h
        exact absurd (List.append_eq_nil_iff.mp h).1 (charUnits_ne_nil c)
      | cons d l' =>
        rw [List.flatMap_cons, List.flatMap_cons] at h
        obtain ⟨rfl, hrest⟩ := charUnits_append_inj h
        rw [ih l' hrest]
  exact String.toList_inj.mp (hlist s.toList t.toList h)

/-- The order by which `sort` compares keys. -/
def unitsOrder : Json.KeyOrder where
  le left right := utf16Units left ≤ utf16Units right
  trans a b c hab hbc := by
    rw [decide_eq_true_eq] at *
    exact le_trans hab hbc
  total a b := by
    rw [Bool.or_eq_true, decide_eq_true_eq, decide_eq_true_eq]
    exact le_total _ _
  antisymm a b hab hba := by
    rw [decide_eq_true_eq] at *
    exact utf16Units_injective (le_antisymm hab hba)

/-! ## Canonical forms -/

mutual

theorem canonicalize_eq : ∀ value : Json,
    canonicalize value = Json.sortKeys unitsOrder (Json.dropKey "__proto__" value)
  | .null => rfl
  | .bool _ => rfl
  | .number _ => rfl
  | .string _ => rfl
  | .array items => by
    rw [canonicalize, Json.dropKey, Json.sortKeys, canonicalizeItems_eq items]
  | .object members => by
    rw [canonicalize, Json.dropKey, Json.sortKeys, canonicalizeMembers_eq members]
    rfl

theorem canonicalizeItems_eq : ∀ items : List Json,
    canonicalizeItems items =
      Json.sortKeysItems unitsOrder (Json.dropKeyItems "__proto__" items)
  | [] => rfl
  | value :: items => by
    rw [canonicalizeItems, Json.dropKeyItems, Json.sortKeysItems, canonicalize_eq value,
      canonicalizeItems_eq items]

theorem canonicalizeMembers_eq : ∀ members : List (String × Json),
    canonicalizeMembers members =
      Json.sortKeysMembers unitsOrder (Json.dropKeyMembers "__proto__" members)
  | [] => rfl
  | (key, value) :: members => by
    rw [canonicalizeMembers, Json.dropKeyMembers]
    by_cases hkey : key = "__proto__"
    · rw [if_pos hkey, if_pos hkey, canonicalizeMembers_eq members]
    · rw [if_neg hkey, if_neg hkey, Json.sortKeysMembers, canonicalize_eq value,
        canonicalizeMembers_eq members]

end

/-- The digest tells canonical forms apart. -/
def CollisionFree (digest : Json → String) : Prop :=
  ∀ payload payload', digest (canonicalize payload) = digest (canonicalize payload') →
    canonicalize payload = canonicalize payload'

/-- Payloads have one canonical form exactly when they are the same, up to the order of their
    members, without those named `__proto__`. -/
theorem canonicalize_eq_iff {payload payload' : Json} (h : payload.distinctKeys = true)
    (h' : payload'.distinctKeys = true) :
    canonicalize payload = canonicalize payload' ↔
      (payload.dropKey "__proto__").same (payload'.dropKey "__proto__") = true := by
  rw [canonicalize_eq, canonicalize_eq]
  exact Json.sortKeys_eq_iff _ _ (Json.distinctKeys_dropKey _ payload h)
    (Json.distinctKeys_dropKey _ payload' h')

/-- A digest that tells all values apart: the number of the value, in unary. -/
def codeDigest (value : Json) : String := String.ofList (List.replicate value.code 'x')

theorem collisionFree_codeDigest : CollisionFree codeDigest := by
  intro payload payload' h
  have hlength := congrArg String.length h
  unfold codeDigest at hlength
  rw [String.length_ofList, String.length_ofList, List.length_replicate,
    List.length_replicate] at hlength
  exact Json.code_inj hlength

end RemotePi.Protocol
