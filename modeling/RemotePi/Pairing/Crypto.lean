import RemotePi.Lib.Base64

/-!
# Owner public keys

Model of the key codec of `pi-extension/src/pairing/crypto.ts`: an Ed25519 public
key is accepted in standard or URL-safe Base64, with or without padding, and has
one canonical spelling.

Results:
* `canonicalize_encode`: the canonical spelling of 32 bytes is a fixed point.
* `canonicalize_canonicalize`: canonicalizing is idempotent.
-/

namespace RemotePi.Pairing

open RemotePi.Lib

/-- `Ed25519PublicKeyError`: the field and what is wrong with it. -/
structure Ed25519PublicKeyError where
  field : String
  message : String
deriving DecidableEq, Repr

def ed25519PublicKeyBytes : ℕ := 32

/-- The characters that only one of the two alphabets has, mapped to the standard one. -/
def normalizeChar (c : Char) : Char :=
  if c = '-' then '+' else if c = '_' then '/' else c

/-- The pattern of the body (line 53) for either alphabet. -/
def bodyMatches (urlSafe : Bool) (body : List Char) : Bool :=
  !body.isEmpty && body.all fun c =>
    if c = '-' ∨ c = '_' then urlSafe
    else if c = '+' ∨ c = '/' then !urlSafe
    else (Base64.sextet? c).isSome

/-- The pattern of a padding (line 54). -/
def paddingMatches (padding : List Char) : Bool :=
  padding = [] ∨ padding = ['='] ∨ padding = ['=', '=']

/-- `decodeEd25519PublicKey` (lines 41–72). -/
def decodeEd25519PublicKey (raw field : String) : Except Ed25519PublicKeyError (List Byte) :=
  let chars := raw.toList
  if chars.isEmpty then .error ⟨field, "invalid base64 encoding"⟩
  else
    let standard := chars.any fun c => c = '+' ∨ c = '/'
    let urlSafe := chars.any fun c => c = '-' ∨ c = '_'
    if standard && urlSafe then .error ⟨field, "mixed base64 alphabets"⟩
    else
      let body := chars.takeWhile fun c => c ≠ '='
      let padding := chars.dropWhile fun c => c ≠ '='
      if !bodyMatches urlSafe body || !paddingMatches padding then
        .error ⟨field, "invalid base64 encoding"⟩
      else
        let requiredPadding := (4 - body.length % 4) % 4
        if requiredPadding = 3 ∨ (0 < padding.length ∧ padding.length ≠ requiredPadding) then
          .error ⟨field, "invalid base64 padding"⟩
        else
          let normalized := body.map normalizeChar
          let bytes := Base64.decode normalized
          if bytes.length ≠ ed25519PublicKeyBytes then
            .error ⟨field, s!"wrong length ({bytes.length}, expected {ed25519PublicKeyBytes})"⟩
          else
            let canonicalPadded := Base64.encode bytes
            let canonicalUnpadded := canonicalPadded.takeWhile fun c => c ≠ '='
            let normalizedInput := normalized ++ padding
            if normalizedInput ≠ canonicalPadded ∧ normalizedInput ≠ canonicalUnpadded then
              .error ⟨field, "non-canonical base64 trailing bits"⟩
            else .ok bytes

/-- `encodeEd25519PublicKey` (lines 74–80). -/
def encodeEd25519PublicKey (bytes : List Byte) (field : String) :
    Except Ed25519PublicKeyError String :=
  if bytes.length ≠ ed25519PublicKeyBytes then
    .error ⟨field, s!"wrong length ({bytes.length}, expected {ed25519PublicKeyBytes})"⟩
  else .ok (String.ofList (Base64.encode bytes))

/-- `canonicalizeEd25519PublicKey` (lines 82–84). -/
def canonicalizeEd25519PublicKey (raw field : String) : Except Ed25519PublicKeyError String :=
  (decodeEd25519PublicKey raw field).bind fun bytes => encodeEd25519PublicKey bytes field

/-- The canonical spelling of a key, where the callers ignore the error. -/
def canonicalize (raw : String) : Option String :=
  (canonicalizeEd25519PublicKey raw "Owner public key").toOption

/-! ## The canonical spelling -/

/-- A digit of the standard alphabet is no character of the URL-safe one. -/
theorem digit_ne_urlSafe (s : Base64.Sextet) : Base64.digit s ≠ '-' ∧ Base64.digit s ≠ '_' := by
  revert s
  decide

theorem normalizeChar_digit (s : Base64.Sextet) :
    normalizeChar (Base64.digit s) = Base64.digit s := by
  obtain ⟨h₁, h₂⟩ := digit_ne_urlSafe s
  simp [normalizeChar, h₁, h₂]

/-- The canonical text of 32 bytes: 43 digits and one `=`. -/
theorem encode_eq {bytes : List Byte} (h : bytes.length = ed25519PublicKeyBytes) :
    Base64.encode bytes = (Base64.encodeSextets bytes).map Base64.digit ++ ['='] ∧
      (Base64.encodeSextets bytes).length = 43 := by
  have hl : (Base64.encodeSextets bytes).length = 43 := by
    rw [Base64.length_encodeSextets, h, ed25519PublicKeyBytes]
  exact ⟨by rw [Base64.encode, hl]; rfl, hl⟩

theorem decode_encode {bytes : List Byte} (h : bytes.length = ed25519PublicKeyBytes)
    (field : String) :
    decodeEd25519PublicKey (String.ofList (Base64.encode bytes)) field = .ok bytes := by
  obtain ⟨he, hl⟩ := encode_eq h
  set digits := (Base64.encodeSextets bytes).map Base64.digit with hd
  have hdigit : ∀ c ∈ digits, ∃ s, Base64.digit s = c := by
    intro c hc
    obtain ⟨s, -, rfl⟩ := List.mem_map.mp hc
    exact ⟨s, rfl⟩
  have hpad : ∀ c ∈ digits, decide (c ≠ '=') = true := by
    intro c hc
    obtain ⟨s, rfl⟩ := hdigit c hc
    exact decide_eq_true (Base64.digit_ne_pad s)
  have htake : (digits ++ ['=']).takeWhile (fun c => decide (c ≠ '=')) = digits := by
    rw [List.takeWhile_append_of_pos hpad]
    simp
  have hdrop : (digits ++ ['=']).dropWhile (fun c => decide (c ≠ '=')) = ['='] := by
    rw [List.dropWhile_append_of_pos hpad]
    simp
  have hurl : (digits ++ ['=']).any (fun c => decide (c = '-' ∨ c = '_')) = false := by
    rw [List.any_eq_false]
    intro c hc
    rcases List.mem_append.mp hc with hc | hc
    · obtain ⟨s, rfl⟩ := hdigit c hc
      simpa using digit_ne_urlSafe s
    · rw [List.mem_singleton.mp hc]
      decide
  have hbody : bodyMatches false digits = true := by
    rw [bodyMatches, Bool.and_eq_true]
    refine ⟨?_, List.all_eq_true.mpr fun c hc => ?_⟩
    · have : digits.length = 43 := by rw [hd, List.length_map, hl]
      cases hdg : digits with
      | nil => rw [hdg] at this; cases this
      | cons c cs => rfl
    · obtain ⟨s, rfl⟩ := hdigit c hc
      obtain ⟨h₁, h₂⟩ := digit_ne_urlSafe s
      simp [h₁, h₂, Base64.sextet?_digit]
  have hnorm : digits.map normalizeChar = digits := by
    rw [hd, List.map_map]
    exact List.map_congr_left fun s _ => normalizeChar_digit s
  have hdecode : Base64.decode digits = bytes := Base64.decode_digits bytes
  have hlen : digits.length = 43 := by rw [hd, List.length_map, hl]
  unfold decodeEd25519PublicKey
  simp only [String.toList_ofList, he, htake, hdrop, hurl, hbody, hnorm, hdecode, hlen, h,
    Bool.and_false, paddingMatches]
  simp

/-- The canonical spelling of 32 bytes is a fixed point. -/
theorem canonicalize_encode {bytes : List Byte} (h : bytes.length = ed25519PublicKeyBytes) :
    canonicalize (String.ofList (Base64.encode bytes)) =
      some (String.ofList (Base64.encode bytes)) := by
  rw [canonicalize, canonicalizeEd25519PublicKey, decode_encode h]
  simp [Except.bind, Except.toOption, encodeEd25519PublicKey, h]

theorem canonicalize_eq_some {raw c : String} (h : canonicalize raw = some c) :
    ∃ bytes : List Byte, bytes.length = ed25519PublicKeyBytes ∧
      c = String.ofList (Base64.encode bytes) := by
  rw [canonicalize, canonicalizeEd25519PublicKey] at h
  cases hd : decodeEd25519PublicKey raw "Owner public key" with
  | error e => rw [hd] at h; cases h
  | ok bytes =>
    rw [hd] at h
    simp only [Except.bind, encodeEd25519PublicKey] at h
    split_ifs at h with hl
    · cases h
    · cases h
      exact ⟨bytes, not_not.mp hl, rfl⟩

theorem canonicalize_canonicalize {raw c : String} (h : canonicalize raw = some c) :
    canonicalize c = some c := by
  obtain ⟨bytes, hl, rfl⟩ := canonicalize_eq_some h
  exact canonicalize_encode hl

/-- An Owner id in its canonical spelling, the only one the relay lets through. -/
structure OwnerId where
  key : String
  canonical : canonicalize key = some key
deriving DecidableEq

theorem OwnerId.ext_iff' {o o' : OwnerId} : o = o' ↔ o.key = o'.key := by
  cases o; cases o'; simp

end RemotePi.Pairing
