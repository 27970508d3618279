import RemotePi.Pairing.Crypto
import RemotePi.Relay.Wire

/-!
# Public keys on both sides

The key reader of `relay/src/identity.rs` beside that of `pi-extension/src/pairing/crypto.ts`.
The relay reads Base64 with two engines of the `base64` crate, which are parameters here; the
crate documents that an engine accepts exactly the texts that it encodes, the last unused bits
zero and the padding as it writes it.

Results:
* `decode_eq_ok_iff`: what the extension accepts, by the normalized text.
* `relayDecode_eq_ok_iff`: what the relay accepts, by the same condition.
* `publicKeys_agree`: both accept the same texts, with the same bytes and canonical text.
-/

namespace RemotePi.Relay

open RemotePi.Lib RemotePi.Pairing

/-! ## Model -/

/-- `PublicKeyDecodeError` (lines 6–12). -/
inductive PublicKeyDecodeError where
  | badBase64
  | badLength (actual : ℕ)
deriving DecidableEq, Repr

/-- The engines `STANDARD` and `STANDARD_NO_PAD` of the `base64` crate, the part that is used. -/
structure Base64Engines where
  standardDecode : List Char → Option (List Byte)
  standardNoPadDecode : List Char → Option (List Byte)
  standardEncode : List Byte → List Char

/-- The text of some bytes without its padding. -/
def unpadded (bytes : List Byte) : List Char := (Base64.encode bytes).takeWhile fun c => c ≠ '='

/-- What the crate documents of the two engines. -/
structure Base64Engines.Documented (engines : Base64Engines) : Prop where
  encode : engines.standardEncode = Base64.encode
  standard : ∀ text bytes, engines.standardDecode text = some bytes ↔ text = Base64.encode bytes
  noPad : ∀ text bytes, engines.standardNoPadDecode text = some bytes ↔ text = unpadded bytes

section Decode

variable (engines : Base64Engines)

/-- `decode_ed25519_public_key` (lines 14–30). -/
def relayDecodeEd25519PublicKey (encoded : String) : Except PublicKeyDecodeError (List Byte) :=
  let hasStandard := encoded.toList.any fun byte => byte = '+' ∨ byte = '/'
  let hasUrlSafe := encoded.toList.any fun byte => byte = '-' ∨ byte = '_'
  if hasStandard && hasUrlSafe then .error .badBase64
  else
    let normalized := encoded.toList.map normalizeChar
    match (engines.standardDecode normalized).or (engines.standardNoPadDecode normalized) with
    | none => .error .badBase64
    | some decoded =>
      if decoded.length = 32 then .ok decoded else .error (.badLength decoded.length)

/-- `canonical_ed25519_public_key` (lines 32–34). -/
def relayCanonicalEd25519PublicKey (encoded : String) : Except PublicKeyDecodeError String :=
  (relayDecodeEd25519PublicKey engines encoded).map fun bytes =>
    String.ofList (engines.standardEncode bytes)

end Decode

/-! ## Characters -/

/-- The text has characters of both alphabets. -/
def mixedAlphabets (text : List Char) : Bool :=
  (text.any fun c => c = '+' ∨ c = '/') && text.any fun c => c = '-' ∨ c = '_'

/-- The text is one of the spellings of these bytes, with its alphabet aside. -/
def Spells (text : List Char) (bytes : List Byte) : Prop :=
  text.map normalizeChar = Base64.encode bytes ∨ text.map normalizeChar = unpadded bytes

theorem normalizeChar_eq_pad_iff (c : Char) : normalizeChar c = '=' ↔ c = '=' := by
  unfold normalizeChar
  by_cases hdash : c = '-'
  · subst hdash
    decide
  by_cases hline : c = '_'
  · subst hline
    decide
  rw [if_neg hdash, if_neg hline]

theorem unpadded_eq {bytes : List Byte} (h : bytes.length = ed25519PublicKeyBytes) :
    unpadded bytes = (Base64.encodeSextets bytes).map Base64.digit := by
  rw [unpadded, (encode_eq h).1, List.takeWhile_append_of_pos]
  · simp
  · intro c hc
    obtain ⟨s, -, rfl⟩ := List.mem_map.mp hc
    exact decide_eq_true (Base64.digit_ne_pad s)

theorem length_unpadded {bytes : List Byte} (h : bytes.length = ed25519PublicKeyBytes) :
    (unpadded bytes).length = 43 := by
  rw [unpadded_eq h, List.length_map, (encode_eq h).2]

/-- The characters of a body that normalizes to digits are digits of one alphabet. -/
theorem bodyMatches_of_digits {body : List Char} {sextets : List Base64.Sextet} {urlSafe : Bool}
    (h : body.map normalizeChar = sextets.map Base64.digit) (hne : sextets ≠ [])
    (hurl : ∀ c ∈ body, c = '-' ∨ c = '_' → urlSafe = true)
    (hstandard : ∀ c ∈ body, c = '+' ∨ c = '/' → urlSafe = false) :
    bodyMatches urlSafe body = true := by
  rw [bodyMatches, Bool.and_eq_true]
  constructor
  · cases body with
    | nil => exact absurd (List.map_eq_nil_iff.mp h.symm) hne
    | cons c cs => rfl
  · rw [List.all_eq_true]
    intro c hc
    by_cases hdash : c = '-' ∨ c = '_'
    · rw [if_pos hdash]
      exact hurl c hc hdash
    by_cases hplus : c = '+' ∨ c = '/'
    · rw [if_neg hdash, if_pos hplus, hstandard c hc hplus]
      rfl
    · rw [if_neg hdash, if_neg hplus]
      have hmem : normalizeChar c ∈ body.map normalizeChar := List.mem_map_of_mem hc
      rw [h] at hmem
      obtain ⟨s, -, hs⟩ := List.mem_map.mp hmem
      obtain ⟨h₁, h₂⟩ := not_or.mp hdash
      rw [normalizeChar, if_neg h₁, if_neg h₂] at hs
      rw [← hs, Base64.sextet?_digit]
      rfl

/-! ## The extension -/

/-- A spelling of 32 bytes splits into its digits and its padding. -/
theorem exists_split {text : List Char} {bytes : List Byte}
    (hlen : bytes.length = ed25519PublicKeyBytes) (h : Spells text bytes) :
    ∃ body padding, text = body ++ padding ∧
      body.map normalizeChar = (Base64.encodeSextets bytes).map Base64.digit ∧
      (padding = [] ∨ padding = ['=']) := by
  rcases h with hpadded | hunpadded
  · rw [(encode_eq hlen).1] at hpadded
    obtain ⟨body, padding, rfl, hbody, hpadding⟩ := List.map_eq_append_iff.mp hpadded
    refine ⟨body, padding, rfl, hbody, Or.inr ?_⟩
    obtain ⟨c, rest, rfl, hc, hrest⟩ := List.map_eq_cons_iff.mp hpadding
    rw [(normalizeChar_eq_pad_iff c).mp hc, List.map_eq_nil_iff.mp hrest]
  · rw [unpadded_eq hlen] at hunpadded
    exact ⟨text, [], (List.append_nil text).symm, hunpadded, Or.inl rfl⟩

/-- A body that normalizes to digits ends where the padding begins. -/
theorem split_at_padding {body padding : List Char} {sextets : List Base64.Sextet}
    (h : body.map normalizeChar = sextets.map Base64.digit)
    (hpadding : padding = [] ∨ padding = ['=']) :
    (body ++ padding).takeWhile (fun c => decide (c ≠ '=')) = body ∧
      (body ++ padding).dropWhile (fun c => decide (c ≠ '=')) = padding := by
  have hbody : ∀ c ∈ body, decide (c ≠ '=') = true := by
    intro c hc
    refine decide_eq_true fun hpad => ?_
    have hmem : normalizeChar c ∈ body.map normalizeChar := List.mem_map_of_mem hc
    rw [h, (normalizeChar_eq_pad_iff c).mpr hpad] at hmem
    obtain ⟨s, -, hs⟩ := List.mem_map.mp hmem
    exact Base64.digit_ne_pad s hs
  rw [List.takeWhile_append_of_pos hbody, List.dropWhile_append_of_pos hbody]
  rcases hpadding with rfl | rfl <;> simp

theorem paddingMatches_map {padding : List Char} (h : paddingMatches padding = true) :
    padding.map normalizeChar = padding := by
  have hcases : padding = [] ∨ padding = ['='] ∨ padding = ['=', '='] := of_decide_eq_true h
  rcases hcases with rfl | rfl | rfl <;> rfl

/-- The extension accepts a text of one alphabet that spells 32 bytes. -/
theorem decode_eq_ok_iff (encoded field : String) (bytes : List Byte) :
    Pairing.decodeEd25519PublicKey encoded field = .ok bytes ↔
      mixedAlphabets encoded.toList = false ∧ bytes.length = ed25519PublicKeyBytes ∧
        Spells encoded.toList bytes := by
  unfold Pairing.decodeEd25519PublicKey mixedAlphabets
  dsimp only
  generalize encoded.toList = text
  constructor
  · intro h
    split_ifs at h with hempty hmixed hpattern hpadding hlength htrailing
    cases h
    rw [Bool.not_eq_true] at hmixed
    refine ⟨hmixed, not_not.mp hlength, ?_⟩
    have hpad : paddingMatches (text.dropWhile fun c => decide (c ≠ '=')) = true := by
      simp only [Bool.or_eq_true, not_or, Bool.not_eq_true', Bool.not_eq_false] at hpattern
      exact hpattern.2
    have htext : text.map normalizeChar =
        (text.takeWhile fun c => decide (c ≠ '=')).map normalizeChar ++
          text.dropWhile fun c => decide (c ≠ '=') := by
      have hsplit : _ = text :=
        List.takeWhile_append_dropWhile (p := fun c => decide (c ≠ '=')) (l := text)
      rw [← paddingMatches_map hpad, ← List.map_append, hsplit]
    rw [Spells, htext]
    by_contra hnone
    obtain ⟨hpadded, hunpadded⟩ := not_or.mp hnone
    exact htrailing ⟨hpadded, hunpadded⟩
  · rintro ⟨hmixed, hlen, hspells⟩
    obtain ⟨body, padding, rfl, hbody, hpadding⟩ := exists_split hlen hspells
    obtain ⟨htake, hdrop⟩ := split_at_padding hbody hpadding
    have hdigits : ((Base64.encodeSextets bytes).map Base64.digit).length = 43 := by
      rw [List.length_map, (encode_eq hlen).2]
    have hbodylen : body.length = 43 := by rw [← List.length_map, hbody, hdigits]
    have hmatches : bodyMatches
        ((body ++ padding).any fun c => decide (c = '-' ∨ c = '_')) body = true := by
      refine bodyMatches_of_digits hbody ?_ ?_ ?_
      · intro hnil
        rw [hnil] at hdigits
        cases hdigits
      · intro c hc hdash
        exact List.any_eq_true.mpr ⟨c, List.mem_append_left _ hc, decide_eq_true hdash⟩
      · intro c hc hplus
        have hstandard : ((body ++ padding).any fun c => decide (c = '+' ∨ c = '/')) = true :=
          List.any_eq_true.mpr ⟨c, List.mem_append_left _ hc, decide_eq_true hplus⟩
        rwa [hstandard, Bool.true_and] at hmixed
    have hpad : paddingMatches padding = true := by
      rcases hpadding with rfl | rfl <;> decide
    have hdecode : Base64.decode (body.map normalizeChar) = bytes := by
      rw [hbody, Base64.decode_digits]
    have hnonempty : (body ++ padding).isEmpty = false := by
      cases body with
      | nil => cases hbodylen
      | cons c cs => rfl
    have hspell : body.map normalizeChar ++ padding = Base64.encode bytes ∨
        body.map normalizeChar ++ padding = unpadded bytes := by
      rw [hbody, unpadded_eq hlen, (encode_eq hlen).1]
      rcases hpadding with rfl | rfl
      · exact Or.inr (List.append_nil _)
      · exact Or.inl rfl
    rw [htake, hdrop, hnonempty, hmixed, hmatches, hpad, hdecode, hbodylen, hlen]
    have hrequired : ¬((4 - 43 % 4) % 4 = 3 ∨
        0 < padding.length ∧ padding.length ≠ (4 - 43 % 4) % 4) := by
      rcases hpadding with rfl | rfl <;> decide
    have hcanonical : ¬(body.map normalizeChar ++ padding ≠ Base64.encode bytes ∧
        body.map normalizeChar ++ padding ≠
          (Base64.encode bytes).takeWhile fun c => decide (c ≠ '=')) := by
      rintro ⟨hpadded, hunpadded⟩
      exact hspell.elim hpadded hunpadded
    rw [if_neg Bool.false_ne_true, if_neg Bool.false_ne_true]
    rw [if_neg (by decide), if_neg hrequired, if_neg (fun hne => hne rfl), if_neg hcanonical]

/-! ## The relay -/

/-- The relay accepts by the same condition. -/
theorem relayDecode_eq_ok_iff {engines : Base64Engines} (hdoc : engines.Documented)
    (encoded : String) (bytes : List Byte) :
    relayDecodeEd25519PublicKey engines encoded = .ok bytes ↔
      mixedAlphabets encoded.toList = false ∧ bytes.length = ed25519PublicKeyBytes ∧
        Spells encoded.toList bytes := by
  unfold relayDecodeEd25519PublicKey mixedAlphabets Spells
  dsimp only
  generalize encoded.toList = text
  generalize hnormalized : text.map normalizeChar = normalized
  constructor
  · intro h
    split_ifs at h with hmixed
    rw [Bool.not_eq_true] at hmixed
    refine ⟨hmixed, ?_⟩
    cases hdecoded : (engines.standardDecode normalized).or
        (engines.standardNoPadDecode normalized) with
    | none =>
      rw [hdecoded] at h
      cases h
    | some decoded =>
      rw [hdecoded] at h
      dsimp only at h
      split_ifs at h with hlength
      cases h
      refine ⟨hlength, ?_⟩
      rcases Option.or_eq_some_iff.mp hdecoded with hstandard | ⟨-, hnoPad⟩
      · exact Or.inl ((hdoc.standard _ _).mp hstandard)
      · exact Or.inr ((hdoc.noPad _ _).mp hnoPad)
  · rintro ⟨hmixed, hlength, hspells⟩
    rw [hmixed, if_neg Bool.false_ne_true]
    have hdecoded : (engines.standardDecode normalized).or
        (engines.standardNoPadDecode normalized) = some bytes := by
      rcases hspells with hpadded | hunpadded
      · rw [(hdoc.standard normalized bytes).mpr hpadded, Option.some_or]
      · -- a padded text has a length divisible by four
        have hnone : engines.standardDecode normalized = none := by
          rw [Option.eq_none_iff_forall_not_mem]
          intro decoded hsome
          have hother := (hdoc.standard normalized decoded).mp hsome
          have hlen := Base64.length_encode decoded
          rw [← hother, hunpadded, length_unpadded hlength] at hlen
          omega
        rw [hnone, Option.none_or]
        exact (hdoc.noPad normalized bytes).mpr hunpadded
    rw [hdecoded]
    exact if_pos hlength

/-! ## Both sides -/

theorem canonicalize_eq_ok_iff (encoded field canonical : String) :
    canonicalizeEd25519PublicKey encoded field = .ok canonical ↔
      ∃ bytes, Pairing.decodeEd25519PublicKey encoded field = .ok bytes ∧
        canonical = String.ofList (Base64.encode bytes) := by
  unfold canonicalizeEd25519PublicKey
  cases hdecoded : Pairing.decodeEd25519PublicKey encoded field with
  | error e => simp [Except.bind]
  | ok bytes =>
    obtain ⟨-, hlength, -⟩ := (decode_eq_ok_iff encoded field bytes).mp hdecoded
    simp [Except.bind, encodeEd25519PublicKey, hlength, eq_comm]

theorem relayCanonical_eq_ok_iff {engines : Base64Engines} (hdoc : engines.Documented)
    (encoded canonical : String) :
    relayCanonicalEd25519PublicKey engines encoded = .ok canonical ↔
      ∃ bytes, relayDecodeEd25519PublicKey engines encoded = .ok bytes ∧
        canonical = String.ofList (Base64.encode bytes) := by
  unfold relayCanonicalEd25519PublicKey
  rw [hdoc.encode]
  cases relayDecodeEd25519PublicKey engines encoded with
  | error e => simp [Except.map]
  | ok bytes => simp [Except.map, eq_comm]

/-- The canonical text is accepted with the bytes that it stands for. -/
theorem canonicalize_ok_self {encoded field canonical : String}
    (h : canonicalizeEd25519PublicKey encoded field = .ok canonical) :
    canonicalizeEd25519PublicKey canonical field = .ok canonical := by
  obtain ⟨bytes, hdecoded, rfl⟩ := (canonicalize_eq_ok_iff encoded field canonical).mp h
  obtain ⟨-, hlength, -⟩ := (decode_eq_ok_iff encoded field bytes).mp hdecoded
  exact (canonicalize_eq_ok_iff _ _ _).mpr ⟨bytes, decode_encode hlength field, rfl⟩

/-- Both sides accept the same texts, with the same 32 bytes and the same canonical text, and
    canonicalizing is idempotent on both. -/
theorem publicKeys_agree (engines : Base64Engines) (hdoc : engines.Documented)
    (encoded field : String) :
    (∀ bytes, Pairing.decodeEd25519PublicKey encoded field = .ok bytes ↔
        relayDecodeEd25519PublicKey engines encoded = .ok bytes) ∧
      (∀ bytes, Pairing.decodeEd25519PublicKey encoded field = .ok bytes → bytes.length = 32) ∧
      (∀ canonical, canonicalizeEd25519PublicKey encoded field = .ok canonical ↔
        relayCanonicalEd25519PublicKey engines encoded = .ok canonical) ∧
      (∀ canonical, canonicalizeEd25519PublicKey encoded field = .ok canonical →
        canonicalizeEd25519PublicKey canonical field = .ok canonical ∧
          relayCanonicalEd25519PublicKey engines canonical = .ok canonical) := by
  have hdecode : ∀ text bytes, Pairing.decodeEd25519PublicKey text field = .ok bytes ↔
      relayDecodeEd25519PublicKey engines text = .ok bytes := by
    intro text bytes
    rw [decode_eq_ok_iff, relayDecode_eq_ok_iff hdoc]
  have hcanonical : ∀ text canonical, canonicalizeEd25519PublicKey text field = .ok canonical ↔
      relayCanonicalEd25519PublicKey engines text = .ok canonical := by
    intro text canonical
    rw [canonicalize_eq_ok_iff, relayCanonical_eq_ok_iff hdoc]
    simp only [hdecode]
  refine ⟨hdecode encoded, ?_, hcanonical encoded, ?_⟩
  · intro bytes h
    exact ((decode_eq_ok_iff encoded field bytes).mp h).2.1
  · intro canonical h
    have hself := canonicalize_ok_self h
    exact ⟨hself, (hcanonical canonical canonical).mp hself⟩

/-! ## The engines of the wire format -/

/-- The engines as the model of the wire format has them. -/
def wireEngines : Base64Engines := ⟨standardDecode, standardNoPadDecode, Base64.encode⟩

theorem decode_unpadded (bytes : List Byte) : Base64.decode (unpadded bytes) = bytes := by
  have hpad : ∀ n, (List.replicate n '=').takeWhile (fun c => decide (c ≠ '=')) = [] := by
    intro n
    cases n <;> simp
  have hunpadded : unpadded bytes = (Base64.encodeSextets bytes).map Base64.digit := by
    rw [unpadded, Base64.encode, List.takeWhile_append_of_pos, hpad, List.append_nil]
    intro c hc
    obtain ⟨s, -, rfl⟩ := List.mem_map.mp hc
    exact decide_eq_true (Base64.digit_ne_pad s)
  rw [hunpadded, Base64.decode_digits]

theorem wireEngines_documented : wireEngines.Documented where
  encode := rfl
  standard text bytes := by
    show standardDecode text = some bytes ↔ _
    unfold standardDecode
    dsimp only
    constructor
    · intro h
      split_ifs at h with heq
      cases h
      exact heq.symm
    · rintro rfl
      have hdecode : Base64.decode ((Base64.encode bytes).takeWhile fun c => decide (c ≠ '=')) =
          bytes := decode_unpadded bytes
      rw [hdecode]
      exact if_pos rfl
  noPad text bytes := by
    show standardNoPadDecode text = some bytes ↔ _
    unfold standardNoPadDecode
    dsimp only
    constructor
    · intro h
      split_ifs at h with heq
      cases h
      exact heq.symm
    · rintro rfl
      rw [decode_unpadded]
      exact if_pos rfl

/-- What the crate documents leaves no other engines. -/
theorem Base64Engines.Documented.eq_wireEngines {engines : Base64Engines}
    (hdoc : engines.Documented) : engines = wireEngines := by
  have hstandard : engines.standardDecode = wireEngines.standardDecode := by
    funext text
    refine Option.ext fun bytes => ?_
    rw [hdoc.standard, wireEngines_documented.standard]
  have hnoPad : engines.standardNoPadDecode = wireEngines.standardNoPadDecode := by
    funext text
    refine Option.ext fun bytes => ?_
    rw [hdoc.noPad, wireEngines_documented.noPad]
  have hencode : engines.standardEncode = wireEngines.standardEncode :=
    hdoc.encode.trans wireEngines_documented.encode.symm
  cases engines
  cases hstandard
  cases hnoPad
  cases hencode
  rfl

/-- With the engines of the crate the reader is the one of the wire format. -/
theorem relayDecode_of_documented {engines : Base64Engines} (hdoc : engines.Documented)
    (encoded : String) :
    (relayDecodeEd25519PublicKey engines encoded).toOption = decodeEd25519PublicKey encoded := by
  rw [hdoc.eq_wireEngines]
  have hnormalize : (fun c => if c = '-' then '+' else if c = '_' then '/' else c) =
      normalizeChar := rfl
  unfold relayDecodeEd25519PublicKey decodeEd25519PublicKey wireEngines
  rw [hnormalize]
  dsimp only
  generalize (standardDecode (encoded.toList.map normalizeChar)).or
    (standardNoPadDecode (encoded.toList.map normalizeChar)) = decoded
  split_ifs
  · rfl
  · cases decoded with
    | none => rfl
    | some bytes => by_cases h : bytes.length = 32 <;> simp [h, Except.toOption, Option.filter]

/-- A key with digits of the URL-safe alphabet and no padding. -/
def urlSafeKey : String := "-_v7-_v7-_v7-_v7-_v7-_v7-_v7-_v7-_v7-_v7-_s"

theorem urlSafeKey_agrees :
    canonicalizeEd25519PublicKey urlSafeKey "pubkey" =
        .ok "+/v7+/v7+/v7+/v7+/v7+/v7+/v7+/v7+/v7+/v7+/s=" ∧
      relayCanonicalEd25519PublicKey wireEngines urlSafeKey =
        .ok "+/v7+/v7+/v7+/v7+/v7+/v7+/v7+/v7+/v7+/v7+/s=" := by
  obtain ⟨-, -, hcanonical, -⟩ :=
    publicKeys_agree wireEngines wireEngines_documented urlSafeKey "pubkey"
  have hextension : canonicalizeEd25519PublicKey urlSafeKey "pubkey" =
      .ok "+/v7+/v7+/v7+/v7+/v7+/v7+/v7+/v7+/v7+/v7+/s=" := by decide +kernel
  exact ⟨hextension, (hcanonical _).mp hextension⟩

end RemotePi.Relay
