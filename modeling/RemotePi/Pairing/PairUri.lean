import RemotePi.Lib.FormUrlEncoded
import RemotePi.Lib.Trim
import RemotePi.Lib.Utf16
import RemotePi.Pairing.Crypto
import RemotePi.Pwa.Protocol

/-!
# The pairing URI

Model of `buildQRUri` (`pi-extension/src/pairing/qr.ts`) and of `parsePairUri`
(`pwa/src/lib/remote-pi/pairing.ts`), with `decodeBase64`
(`pwa/src/lib/remote-pi/encoding.ts`). Strings of the host are lists of UTF-16 code units;
what `URLSearchParams` and `URL` return is given by its characters.

URLs with a special scheme (`http`, `file` and so on) are parsed by a parameter: of a relay URL
only the scheme is read, and the pairing URI has none of these schemes.

Results:
* `decodeBase64_base64Url`: the browser decodes what the extension encodes.
* `isUuid_text`: the browser accepts every UUID of RFC 4122.
* `parsePairUri_buildQRUri`: what the browser reads from the URI of the extension.
* `pairUri_kept_iff`: when this is what the extension wrote; `split_name_garbled` is a name
  that is not kept.
-/

namespace RemotePi.Pairing

open RemotePi.Lib

/-- A string of the host. -/
abbrev JsString := List Utf16.CodeUnit

/-! ## URLs -/

/-- The members of a `URL` that are read here. The path, the fragment and the credentials are
    as written: only whether they are empty is looked at. -/
structure Url where
  protocol : List Char
  hostname : List Char
  pathname : List Char
  hash : List Char
  username : List Char
  password : List Char
  port : List Char
  query : List Char
deriving DecidableEq, Repr

/-- ASCII alpha. -/
def isAsciiAlpha (c : Char) : Bool :=
  (0x41 ≤ c.toNat && c.toNat ≤ 0x5a) || (0x61 ≤ c.toNat && c.toNat ≤ 0x7a)

/-- ASCII digit. -/
def isAsciiDigit (c : Char) : Bool := 0x30 ≤ c.toNat && c.toNat ≤ 0x39

/-- A character of a scheme after its first one. -/
def isSchemeChar (c : Char) : Bool :=
  isAsciiAlpha c || isAsciiDigit c || c = '+' || c = '-' || c = '.'

/-- Controls and spaces around a URL and its tabs and line ends are dropped. -/
def strippedUrl (text : List Char) : List Char :=
  ((text.dropWhile fun c => c.toNat ≤ 0x20).rdropWhile fun c => c.toNat ≤ 0x20).filter fun c =>
    c.toNat ≠ 9 && c.toNat ≠ 10 && c.toNat ≠ 13

/-- The scheme, in lower case, and what follows its colon. -/
def scheme? (text : List Char) : Option (List Char × List Char) :=
  match text.takeWhile isSchemeChar, text.dropWhile isSchemeChar with
  | c :: name, ':' :: rest =>
    if isAsciiAlpha c then some ((c :: name).map Char.toLower, rest) else none
  | _, _ => none

/-- The special schemes. -/
def specialSchemes : List (List Char) :=
  ["ftp".toList, "file".toList, "http".toList, "https".toList, "ws".toList, "wss".toList]

/-- A host before the colon of its port, which does not stand in brackets. -/
def splitHost : Bool → List Char → List Char × List Char
  | _, [] => ([], [])
  | inBrackets, c :: rest =>
    if c = ':' && !inBrackets then ([], c :: rest)
    else
      let next := splitHost (c = '[' || inBrackets && c ≠ ']') rest
      (c :: next.1, next.2)

/-- A forbidden host code point. -/
def isForbiddenInHost (c : Char) : Bool :=
  c.toNat = 0 || c.toNat = 0x20 || c.toNat = 0x5c ||
    ['#', '/', ':', '<', '>', '?', '@', '[', ']', '^', '|'].contains c

/-- The host of a URL without a special scheme. An address in brackets is kept as written. -/
def opaqueHost (text : List Char) : Option (List Char) :=
  if text.head? = some '[' then if text.getLast? = some ']' then some text else none
  else if text.any isForbiddenInHost then none
  else some ((Utf8.encode text).flatMap fun b =>
    if 0x1f < b.val ∧ b.val ≤ 0x7e then [Char.ofNat b.val]
    else ['%', FormUrlEncoded.hexDigit (b.val / 16), FormUrlEncoded.hexDigit (b.val % 16)])

/-- The number that decimal digits write. -/
def decimal (digits : List Char) : ℕ :=
  digits.foldl (fun value c => value * 10 + (c.toNat - 0x30)) 0

/-- The user name, the password, the host and the port of an authority. -/
def parseAuthority (authority : List Char) :
    Option (List Char × List Char × List Char × List Char) :=
  let server := authority.rtakeWhile fun c => c ≠ '@'
  let credentials := (authority.rdropWhile fun c => c ≠ '@').dropLast
  let (host, port) := splitHost false server
  let digits := port.drop 1
  if (authority.contains '@' || !port.isEmpty) && host.isEmpty then none
  else if !digits.all isAsciiDigit || 65535 < decimal digits then none
  else (opaqueHost host).map fun hostname =>
    (credentials.takeWhile (fun c => c ≠ ':'),
      (credentials.dropWhile fun c => c ≠ ':').drop 1, hostname, digits)

/-- A URL without a special scheme. -/
def parseOther (scheme rest : List Char) : Option Url :=
  let protocol := scheme ++ [':']
  let hash := (rest.dropWhile fun c => c ≠ '#').drop 1
  let hierarchy := rest.takeWhile fun c => c ≠ '#'
  let query := (hierarchy.dropWhile fun c => c ≠ '?').drop 1
  match hierarchy.takeWhile fun c => c ≠ '?' with
  | '/' :: '/' :: rest =>
    let pathname := rest.dropWhile fun c => c ≠ '/'
    (parseAuthority (rest.takeWhile fun c => c ≠ '/')).map
      fun (username, password, hostname, port) =>
        ⟨protocol, hostname, pathname, hash, username, password, port, query⟩
  | pathname => some ⟨protocol, [], pathname, hash, [], [], [], query⟩

/-- `new URL(raw)`, or `none` where it throws. -/
def newUrl (special : List Char → Option Url) (raw : JsString) : Option Url :=
  let text := strippedUrl (Utf16.decode raw)
  (scheme? text).bind fun (scheme, rest) =>
    if specialSchemes.contains scheme then special text else parseOther scheme rest

/-! ## Base64 in the browser -/

/-- A digit of the URL-safe alphabet. -/
def urlDigit (s : Base64.Sextet) : Char :=
  if Base64.digit s = '+' then '-' else if Base64.digit s = '/' then '_' else Base64.digit s

/-- `Buffer.toString("base64url")`. -/
def base64Url (bytes : List Byte) : List Char := (Base64.encodeSextets bytes).map urlDigit

/-- The two alphabets that `decodeBase64` reads. -/
inductive Base64Variant where
  | standard
  | url
deriving DecidableEq, Repr

/-- `normalizeBase64` (lines 7–13). -/
def normalizeBase64 (value : List Char) : Option (List Char) :=
  let compact := value.filter fun c => !isWhiteSpace c
  let unpadded := compact.rdropWhile fun c => c = '='
  if compact.isEmpty || !unpadded.all (fun c => Base64.isDigit (normalizeChar c)) ||
      2 < compact.length - unpadded.length then none
  else if unpadded.length % 4 = 1 then none
  else some (unpadded.map normalizeChar ++ List.replicate ((4 - unpadded.length % 4) % 4) '=')

/-- `decodeBase64` (lines 23–33), of which `atob` takes the normalized text. -/
def decodeBase64 (value : List Char) (variant : Base64Variant) : Option (List Byte) :=
  (normalizeBase64 value).bind fun normalized =>
    if variant = .standard && value.any (fun c => c = '-' || c = '_') then none
    else if variant = .url && value.any (fun c => c = '+' || c = '/') then none
    else some (Base64.decode normalized)

/-! ## The URI -/

/-- `buildQRUri` (lines 123–145). -/
def buildQRUri (special : List Char → Option Url) (token : JsString) (longtermEdPk : List Byte)
    (sessionName endpointId runtimeInstanceId : JsString) (relayUrl : Option JsString) : JsString :=
  let params :=
    [("t".toList, Utf16.decode token), ("epk".toList, base64Url longtermEdPk),
      ("n".toList, Utf16.decode (sessionName.take 80)), ("ep".toList, Utf16.decode endpointId),
      ("rt".toList, Utf16.decode runtimeInstanceId)]
  let hint := (relayUrl.filter fun url => !url.isEmpty).filter fun url =>
    match newUrl special url with
    | some parsed => parsed.protocol = "http:".toList ∨ parsed.protocol = "https:".toList
    | none => false
  let params := match hint with
    | some url => params ++ [("r".toList, Utf16.decode url)]
    | none => params
  Utf16.encode ("remotepi://pair?".toList ++ FormUrlEncoded.serialize params)

/-- The bytes of a pairing token. -/
def tokenBytes : ℕ := 16

/-- The bytes of a device id. -/
def deviceIdBytes : ℕ := 32

/-- The code units of a session name. -/
def maxSessionNameLength : ℕ := 80

/-- `PairPayload` (`pwa/src/lib/remote-pi/types.ts`). -/
structure PairPayload where
  token : JsString
  deviceId : JsString
  deviceIdBytes : List Byte
  endpointId : JsString
  runtimeInstanceId : JsString
  sessionName : JsString
  relayUrl : Option JsString
deriving DecidableEq

/-- The parameters that a pairing URI may have. -/
def allowedParams : List (List Char) :=
  ["t".toList, "epk".toList, "n".toList, "r".toList, "ep".toList, "rt".toList]

/-- `searchParams.getAll`. -/
def getAll (params : List (List Char × List Char)) (name : List Char) : List (List Char) :=
  (params.filter fun entry => entry.1 = name).map Prod.snd

/-- `requiredParam` and `optionalParam` (lines 41–42). -/
def requiredParam (params : List (List Char × List Char)) (name : List Char) :
    Option (List Char) :=
  (getAll params name).head?.filter fun value => !value.isEmpty

/-- The URL is of the form `remotepi://pair?…` (line 14). -/
def isPairUrl (uri : Url) : Bool :=
  uri.protocol = "remotepi:".toList && uri.hostname = "pair".toList && uri.pathname.isEmpty &&
    uri.hash.isEmpty && uri.username.isEmpty && uri.password.isEmpty && uri.port.isEmpty

/-- Every parameter is known and given once (lines 15–16). -/
def knownParams (params : List (List Char × List Char)) : Bool :=
  params.all fun entry =>
    allowedParams.contains entry.1 && (getAll params entry.1).length = 1

/-- The parameters of a URI that has its form (lines 17–27). -/
def readParams (params : List (List Char × List Char)) : Option PairPayload := do
  let token ← requiredParam params "t".toList
  let deviceId ← requiredParam params "epk".toList
  let sessionName ← requiredParam params "n".toList
  let endpointId ← requiredParam params "ep".toList
  let runtimeInstanceId ← requiredParam params "rt".toList
  if maxSessionNameLength < (Utf16.encode sessionName).length ||
      !Pwa.isUuid (String.ofList endpointId) || !Pwa.isUuid (String.ofList runtimeInstanceId) then
    none
  let deviceIdBytes' ← decodeBase64 deviceId .url
  let tokenBytes' ← decodeBase64 token .url
  if tokenBytes'.length ≠ tokenBytes || deviceIdBytes'.length ≠ deviceIdBytes then none
  some {
    token := Utf16.encode token
    deviceId := Utf16.encode deviceId
    deviceIdBytes := deviceIdBytes'
    endpointId := Utf16.encode endpointId
    runtimeInstanceId := Utf16.encode runtimeInstanceId
    sessionName := Utf16.encode sessionName
    relayUrl := (requiredParam params "r".toList).map Utf16.encode }

/-- `parsePairUri` (lines 11–29), or `none` where it returns `undefined`. -/
def parsePairUri (special : List Char → Option Url) (raw : JsString) : Option PairPayload :=
  (newUrl special raw).bind fun uri =>
    if !isPairUrl uri then none
    else
      let params := FormUrlEncoded.parse uri.query
      if !knownParams params then none else readParams params

/-! ## Ids -/

/-- A UUID of one of the versions 1 to 8 and of the variant of RFC 4122, with the case in which
    each digit is written. -/
structure Uuid where
  timeLow : ℕ
  timeMid : ℕ
  timeHiAndVersion : ℕ
  clockSeq : ℕ
  node : ℕ
  upper : ℕ → Bool
  version : 1 ≤ timeHiAndVersion / 4096 ∧ timeHiAndVersion / 4096 ≤ 8
  variant : clockSeq / 16384 = 2

/-- A hexadecimal digit of either case. -/
def uuidDigit (upper : Bool) (n : ℕ) : Char :=
  Char.ofNat (if n < 10 then 0x30 + n else if upper then 0x37 + n else 0x57 + n)

/-- The last digits of a number, the first of them at the position. -/
def uuidField (upper : ℕ → Bool) (position value : ℕ) : ℕ → List Char
  | 0 => []
  | count + 1 => uuidField upper position (value / 16) count ++
      [uuidDigit (upper (position + count)) (value % 16)]

/-- The text of a UUID. -/
def Uuid.text (uuid : Uuid) : List Char :=
  uuidField uuid.upper 0 uuid.timeLow 8 ++ '-' :: uuidField uuid.upper 9 uuid.timeMid 4 ++
    '-' :: uuidField uuid.upper 14 uuid.timeHiAndVersion 4 ++
    '-' :: uuidField uuid.upper 19 uuid.clockSeq 4 ++ '-' :: uuidField uuid.upper 24 uuid.node 12

theorem isHexDigit_uuidDigit (upper : Bool) (n : ℕ) :
    Relay.isHexDigit (uuidDigit upper (n % 16)) = true := by
  have hall : ∀ m < 16, Relay.isHexDigit (uuidDigit true m) = true ∧
      Relay.isHexDigit (uuidDigit false m) = true := by decide
  obtain ⟨htrue, hfalse⟩ := hall (n % 16) (Nat.mod_lt n (by decide))
  cases upper
  · exact hfalse
  · exact htrue

theorem uuidText_ne_nil (uuid : Uuid) : uuid.text ≠ [] := by
  intro h
  have hnode := (List.append_eq_nil_iff.mp h).2
  cases hnode

/-- The browser accepts every such UUID. -/
theorem isUuid_text (uuid : Uuid) : Pwa.isUuid (String.ofList uuid.text) = true := by
  have hversion : ∀ m < 9, 1 ≤ m → '1' ≤ uuidDigit (uuid.upper 14) m ∧
      uuidDigit (uuid.upper 14) m ≤ '8' := by
    cases uuid.upper 14 <;> decide
  have hvariant : ∀ m < 12, 8 ≤ m → (uuidDigit (uuid.upper 19) m = '8' ∨
      uuidDigit (uuid.upper 19) m = '9' ∨ uuidDigit (uuid.upper 19) m = 'a' ∨
      uuidDigit (uuid.upper 19) m = 'b' ∨ uuidDigit (uuid.upper 19) m = 'A' ∨
      uuidDigit (uuid.upper 19) m = 'B') := by
    cases uuid.upper 19 <;> decide
  have hfirst := hversion (uuid.timeHiAndVersion / 16 / 16 / 16 % 16) (by
    have := uuid.version
    omega) (by
    have := uuid.version
    omega)
  have hsecond := hvariant (uuid.clockSeq / 16 / 16 / 16 % 16) (by
    have := uuid.variant
    omega) (by
    have := uuid.variant
    omega)
  rw [Pwa.isUuid, String.toList_ofList]
  simp [Uuid.text, uuidField, isHexDigit_uuidDigit, hfirst, hsecond]

/-! ## Keys and tokens -/

theorem urlDigit_spec (s : Base64.Sextet) :
    normalizeChar (urlDigit s) = Base64.digit s ∧ isWhiteSpace (urlDigit s) = false ∧
      urlDigit s ≠ '=' ∧ urlDigit s ≠ '+' ∧ urlDigit s ≠ '/' := by
  revert s
  decide

theorem base64Url_ne_nil {bytes : List Byte} (h : bytes ≠ []) : base64Url bytes ≠ [] := by
  intro hnil
  have hlength := Base64.length_encodeSextets bytes
  rw [List.map_eq_nil_iff.mp hnil] at hlength
  have hpos := List.length_pos_iff.mpr h
  rw [List.length_nil] at hlength
  omega

/-- The browser turns the alphabet of URLs into the standard one and pads the text. -/
theorem normalizeBase64_base64Url {bytes : List Byte} (h : bytes ≠ []) :
    normalizeBase64 (base64Url bytes) = some (Base64.encode bytes) := by
  have hcompact : (base64Url bytes).filter (fun c => !isWhiteSpace c) = base64Url bytes := by
    refine List.filter_eq_self.mpr fun c hc => ?_
    obtain ⟨s, -, rfl⟩ := List.mem_map.mp hc
    rw [(urlDigit_spec s).2.1]
    rfl
  have hunpadded : (base64Url bytes).rdropWhile (fun c => c = '=') = base64Url bytes := by
    refine List.rdropWhile_eq_self_iff.mpr fun hne hlast => ?_
    obtain ⟨s, -, hs⟩ := List.mem_map.mp (List.getLast_mem hne)
    rw [decide_eq_true_eq, ← hs] at hlast
    exact (urlDigit_spec s).2.2.1 hlast
  have hdigits : (base64Url bytes).map normalizeChar =
      (Base64.encodeSextets bytes).map Base64.digit := by
    rw [base64Url, List.map_map]
    exact List.map_congr_left fun s _ => (urlDigit_spec s).1
  have hall : (base64Url bytes).all (fun c => Base64.isDigit (normalizeChar c)) = true := by
    refine List.all_eq_true.mpr fun c hc => ?_
    obtain ⟨s, -, rfl⟩ := List.mem_map.mp hc
    rw [(urlDigit_spec s).1, Base64.isDigit_digit]
  have hlength : (base64Url bytes).length = (Base64.encodeSextets bytes).length := List.length_map _
  have hmod : ¬(Base64.encodeSextets bytes).length % 4 = 1 := by
    rw [Base64.length_encodeSextets]
    omega
  rw [normalizeBase64]
  simp only [hcompact, hunpadded, hdigits, hall, hlength, Nat.sub_self]
  rw [List.isEmpty_eq_false_iff.mpr (base64Url_ne_nil h), if_neg hmod]
  rfl

/-- The browser decodes every nonempty key or token of the extension. -/
theorem decodeBase64_base64Url {bytes : List Byte} (h : bytes ≠ []) :
    decodeBase64 (base64Url bytes) .url = some bytes := by
  have hurl : (base64Url bytes).any (fun c => c = '+' || c = '/') = false := by
    refine List.any_eq_false.mpr fun c hc => ?_
    obtain ⟨s, -, rfl⟩ := List.mem_map.mp hc
    obtain ⟨-, -, -, hplus, hslash⟩ := urlDigit_spec s
    simp [hplus, hslash]
  rw [decodeBase64, normalizeBase64_base64Url h, Option.bind_some, hurl, Base64.decode_encode]
  rfl

/-! ## The URI as a URL -/

theorem strippedUrl_of_visible {text : List Char} (h : ∀ c ∈ text, 0x20 < c.toNat) :
    strippedUrl text = text := by
  have hleft : (text.dropWhile fun c => decide (c.toNat ≤ 0x20)) = text := by
    refine List.dropWhile_eq_self_iff.mpr fun hpos hfirst => ?_
    exact absurd (of_decide_eq_true hfirst) (Nat.not_le.mpr (h _ (List.getElem_mem hpos)))
  have hright : (text.rdropWhile fun c => decide (c.toNat ≤ 0x20)) = text := by
    refine List.rdropWhile_eq_self_iff.mpr fun hne hlast => ?_
    exact absurd (of_decide_eq_true hlast) (Nat.not_le.mpr (h _ (List.getLast_mem hne)))
  rw [strippedUrl, hleft, hright]
  refine List.filter_eq_self.mpr fun c hc => ?_
  have hvisible := h c hc
  have h₁ : c.toNat ≠ 9 := by omega
  have h₂ : c.toNat ≠ 10 := by omega
  have h₃ : c.toNat ≠ 13 := by omega
  simp [h₁, h₂, h₃]

/-- A text after `remotepi://pair?` without spaces and `#` is the query. -/
theorem newUrl_pair {special : List Char → Option Url} {query : List Char}
    (hvisible : ∀ c ∈ query, 0x20 < c.toNat) (hhash : '#' ∉ query) :
    newUrl special (Utf16.encode ("remotepi://pair?".toList ++ query)) =
      some ⟨"remotepi:".toList, "pair".toList, [], [], [], [], [], query⟩ := by
  have hprefix : ("remotepi://pair?".toList.all fun c => 0x20 < c.toNat) = true := rfl
  have htext : ∀ c ∈ "remotepi://pair?".toList ++ query, 0x20 < c.toNat := by
    intro c hc
    rcases List.mem_append.mp hc with hc | hc
    · exact of_decide_eq_true (List.all_eq_true.mp hprefix c hc)
    · exact hvisible c hc
  have hscheme : scheme? ("remotepi://pair?".toList ++ query) =
      some ("remotepi".toList, "//pair?".toList ++ query) := rfl
  have hrest : ∀ c ∈ "//pair?".toList ++ query, decide (c ≠ '#') = true := by
    intro c hc
    refine decide_eq_true ?_
    rintro rfl
    rcases List.mem_append.mp hc with hc | hc
    · exact absurd hc (by decide)
    · exact hhash hc
  have hall : ("//pair?".toList ++ query).takeWhile (fun c => c ≠ '#') =
      "//pair?".toList ++ query := List.takeWhile_eq_self_iff.mpr hrest
  have hnone : ("//pair?".toList ++ query).dropWhile (fun c => c ≠ '#') = [] :=
    List.dropWhile_eq_nil_iff.mpr hrest
  rw [newUrl, Utf16.decode_encode, strippedUrl_of_visible htext, hscheme, Option.bind_some]
  dsimp only
  rw [if_neg (by decide), parseOther, hall, hnone]
  rfl

/-! ## The round trip -/

/-- A relay URL that the extension puts into the URI. -/
def IsHttpUrl (special : List Char → Option Url) (url : JsString) : Prop :=
  ∃ parsed, newUrl special url = some parsed ∧
    (parsed.protocol = "http:".toList ∨ parsed.protocol = "https:".toList)

section RoundTrip

variable {special : List Char → Option Url}

theorem IsHttpUrl.ne_nil {url : JsString} (h : IsHttpUrl special url) : url ≠ [] := by
  rintro rfl
  obtain ⟨parsed, hparsed, -⟩ := h
  have hnone : newUrl special [] = none := rfl
  rw [hnone] at hparsed
  cases hparsed

/-- The parameters of a URI with a relay URL. -/
def pairParams (token deviceId sessionName endpointId runtimeInstanceId relayUrl : List Char) :
    List (List Char × List Char) :=
  [("t".toList, token), ("epk".toList, deviceId), ("n".toList, sessionName),
    ("ep".toList, endpointId), ("rt".toList, runtimeInstanceId), ("r".toList, relayUrl)]

theorem buildQRUri_eq (token : JsString) (key : List Byte) (name endpoint runtime : JsString)
    {relayUrl : JsString} (hrelay : IsHttpUrl special relayUrl) :
    buildQRUri special token key name endpoint runtime (some relayUrl) =
      Utf16.encode ("remotepi://pair?".toList ++ FormUrlEncoded.serialize
        (pairParams (Utf16.decode token) (base64Url key) (Utf16.decode (name.take 80))
          (Utf16.decode endpoint) (Utf16.decode runtime) (Utf16.decode relayUrl))) := by
  obtain ⟨parsed, hparsed, hprotocol⟩ := hrelay
  have hne := IsHttpUrl.ne_nil ⟨parsed, hparsed, hprotocol⟩
  have hfilter : (some relayUrl).filter (fun url => !url.isEmpty) = some relayUrl := by
    rw [Option.filter_some, List.isEmpty_eq_false_iff.mpr hne]
    rfl
  rw [buildQRUri]
  simp only [hfilter, Option.filter_some, hparsed, decide_eq_true hprotocol, if_true]
  rfl

/-- The members of a URI as the browser reads them. -/
theorem newUrl_pairParams (entries : List (List Char × List Char)) :
    newUrl special (Utf16.encode ("remotepi://pair?".toList ++ FormUrlEncoded.serialize entries)) =
      some ⟨"remotepi:".toList, "pair".toList, [], [], [], [], [],
        FormUrlEncoded.serialize entries⟩ := by
  refine newUrl_pair (fun c hc => ?_) (fun hhash => ?_)
  · exact FormUrlEncoded.lt_toNat_of_mem hc
  · exact absurd (FormUrlEncoded.isQueryChar_of_mem hhash) (by decide)

theorem requiredParam_eq {params : List (List Char × List Char)} {name value : List Char}
    (h : getAll params name = [value]) (hvalue : value ≠ []) :
    requiredParam params name = some value := by
  rw [requiredParam, h, List.head?_cons, Option.filter_some, List.isEmpty_eq_false_iff.mpr hvalue]
  rfl

theorem knownParams_pairParams (t k n e r u : List Char) :
    knownParams (pairParams t k n e r u) = true := rfl

/-- The browser takes values that pass its checks. -/
theorem readParams_pairParams {t k n e r u : List Char} {token key : List Byte}
    (ht : t ≠ []) (hk : k ≠ []) (hn : n ≠ []) (he : e ≠ []) (hr : r ≠ []) (hu : u ≠ [])
    (hlength : (Utf16.encode n).length ≤ maxSessionNameLength)
    (hendpoint : Pwa.isUuid (String.ofList e) = true)
    (hruntime : Pwa.isUuid (String.ofList r) = true)
    (htoken : decodeBase64 t .url = some token ∧ token.length = tokenBytes)
    (hkey : decodeBase64 k .url = some key ∧ key.length = deviceIdBytes) :
    readParams (pairParams t k n e r u) =
      some ⟨Utf16.encode t, Utf16.encode k, key, Utf16.encode e, Utf16.encode r, Utf16.encode n,
        some (Utf16.encode u)⟩ := by
  have hgetT : requiredParam (pairParams t k n e r u) "t".toList = some t := requiredParam_eq rfl ht
  have hgetK : requiredParam (pairParams t k n e r u) "epk".toList = some k :=
    requiredParam_eq rfl hk
  have hgetN : requiredParam (pairParams t k n e r u) "n".toList = some n := requiredParam_eq rfl hn
  have hgetE : requiredParam (pairParams t k n e r u) "ep".toList = some e :=
    requiredParam_eq rfl he
  have hgetR : requiredParam (pairParams t k n e r u) "rt".toList = some r :=
    requiredParam_eq rfl hr
  have hgetU : requiredParam (pairParams t k n e r u) "r".toList = some u := requiredParam_eq rfl hu
  have hlong : decide (maxSessionNameLength < (Utf16.encode n).length) = false :=
    decide_eq_false (Nat.not_lt.mpr hlength)
  rw [readParams]
  simp only [Option.bind_eq_bind, Option.bind_some, hgetT, hgetK, hgetN, hgetE, hgetR, hgetU,
    hlong, hendpoint, hruntime, htoken.1, hkey.1, htoken.2, hkey.2]
  rfl

/-- What the browser reads from the URI of the extension, whatever the name: lone surrogates of
    the cut name and of the relay URL have become U+FFFD. -/
theorem parsePairUri_buildQRUri {token key : List Byte} (htoken : token.length = tokenBytes)
    (hkey : key.length = deviceIdBytes) (endpoint runtime : Uuid) {name relayUrl : JsString}
    (hname : name ≠ []) (hrelay : IsHttpUrl special relayUrl) :
    parsePairUri special (buildQRUri special (Utf16.encode (base64Url token)) key name
        (Utf16.encode endpoint.text) (Utf16.encode runtime.text) (some relayUrl)) =
      some ⟨Utf16.encode (base64Url token), Utf16.encode (base64Url key), key,
        Utf16.encode endpoint.text, Utf16.encode runtime.text,
        Utf16.encode (Utf16.decode (name.take maxSessionNameLength)),
        some (Utf16.encode (Utf16.decode relayUrl))⟩ := by
  have htoken' : token ≠ [] := List.ne_nil_of_length_eq_add_one htoken
  have hkey' : key ≠ [] := List.ne_nil_of_length_eq_add_one hkey
  have hcut : name.take maxSessionNameLength ≠ [] := by
    rw [Ne, List.take_eq_nil_iff]
    rintro (h | h)
    · cases h
    · exact hname h
  have hlength : (Utf16.encode (Utf16.decode (name.take maxSessionNameLength))).length ≤
      maxSessionNameLength := by
    rw [Utf16.length_encode_decode]
    exact List.length_take_le _ _
  rw [buildQRUri_eq _ _ _ _ _ hrelay, Utf16.decode_encode, Utf16.decode_encode,
    Utf16.decode_encode, parsePairUri, newUrl_pairParams, Option.bind_some]
  dsimp only
  rw [FormUrlEncoded.parse_serialize, knownParams_pairParams]
  exact readParams_pairParams (base64Url_ne_nil htoken') (base64Url_ne_nil hkey')
    (Utf16.decode_ne_nil hcut) (uuidText_ne_nil endpoint) (uuidText_ne_nil runtime)
    (Utf16.decode_ne_nil hrelay.ne_nil) hlength (isUuid_text endpoint) (isUuid_text runtime)
    ⟨decodeBase64_base64Url htoken', htoken⟩ ⟨decodeBase64_base64Url hkey', hkey⟩

/-- The URI is read back as it was built exactly when the cut does not go through a character
    of the name, and neither the name before it nor the relay URL has a lone surrogate. -/
theorem pairUri_kept_iff {token key : List Byte} (htoken : token.length = tokenBytes)
    (hkey : key.length = deviceIdBytes) (endpoint runtime : Uuid) {name relayUrl : JsString}
    (hname : name ≠ []) (hrelay : IsHttpUrl special relayUrl) :
    parsePairUri special (buildQRUri special (Utf16.encode (base64Url token)) key name
        (Utf16.encode endpoint.text) (Utf16.encode runtime.text) (some relayUrl)) =
      some ⟨Utf16.encode (base64Url token), Utf16.encode (base64Url key), key,
        Utf16.encode endpoint.text, Utf16.encode runtime.text, name.take maxSessionNameLength,
        some relayUrl⟩ ↔
      Utf16.isWellFormed (name.take maxSessionNameLength) = true ∧
        Utf16.isWellFormed relayUrl = true := by
  rw [parsePairUri_buildQRUri htoken hkey endpoint runtime hname hrelay, Option.some.injEq,
    PairPayload.mk.injEq, ← Utf16.encode_decode_iff, ← Utf16.encode_decode_iff]
  constructor
  · rintro ⟨-, -, -, -, -, hcut, hurl⟩
    exact ⟨hcut, Option.some.inj hurl⟩
  · rintro ⟨hcut, hurl⟩
    exact ⟨rfl, rfl, rfl, rfl, rfl, hcut, congrArg some hurl⟩

end RoundTrip

/-- A parser that knows one relay URL. -/
def exampleUrls (text : List Char) : Option Url :=
  if text = "https://relay.example".toList then
    some ⟨"https:".toList, "relay.example".toList, "/".toList, [], [], [], [], []⟩
  else none

/-- A relay. -/
def exampleRelay : JsString := Utf16.encode "https://relay.example".toList

/-- A device key. -/
def exampleKey : List Byte := (List.range deviceIdBytes).map fun n => Utf8.byte (n * 37 + 251)

/-- A token. -/
def exampleToken : List Byte := exampleKey.take tokenBytes

/-- An endpoint id. -/
def exampleUuid : Uuid :=
  ⟨0x123e4567, 0xe89b, 0x42d3, 0xa456, 0x426614174099, fun position => position = 9, by decide,
    by decide⟩

/-- A name of 79 letters and a character of two code units. -/
def splitName : List Char := List.replicate 79 'a' ++ [Char.ofNat 0x1f600]

theorem exampleRelay_isHttpUrl : IsHttpUrl exampleUrls exampleRelay :=
  ⟨_, rfl, Or.inr rfl⟩

/-- The browser shows a name that the session does not have. -/
theorem split_name_garbled :
    parsePairUri exampleUrls (buildQRUri exampleUrls (Utf16.encode (base64Url exampleToken))
        exampleKey (Utf16.encode splitName) (Utf16.encode exampleUuid.text)
        (Utf16.encode exampleUuid.text) (some exampleRelay)) =
      some ⟨Utf16.encode (base64Url exampleToken), Utf16.encode (base64Url exampleKey), exampleKey,
        Utf16.encode exampleUuid.text, Utf16.encode exampleUuid.text,
        Utf16.encode (List.replicate 79 'a' ++ [Utf8.replacement]), some exampleRelay⟩ ∧
      Utf16.encode (List.replicate 79 'a' ++ [Utf8.replacement]) ≠
        (Utf16.encode splitName).take maxSessionNameLength := by
  have hcut : Utf16.decode ((Utf16.encode splitName).take maxSessionNameLength) =
      List.replicate 79 'a' ++ [Utf8.replacement] := by decide
  have hurl : Utf16.encode (Utf16.decode exampleRelay) = exampleRelay := by
    rw [exampleRelay, Utf16.decode_encode]
  refine ⟨?_, by decide⟩
  rw [parsePairUri_buildQRUri (by decide) (by decide) _ _ (by decide) exampleRelay_isHttpUrl, hcut,
    hurl]

theorem pairUri_kept_unsplit :
    parsePairUri exampleUrls (buildQRUri exampleUrls (Utf16.encode (base64Url exampleToken))
        exampleKey (Utf16.encode (splitName.drop 1)) (Utf16.encode exampleUuid.text)
        (Utf16.encode exampleUuid.text) (some exampleRelay)) =
      some ⟨Utf16.encode (base64Url exampleToken), Utf16.encode (base64Url exampleKey), exampleKey,
        Utf16.encode exampleUuid.text, Utf16.encode exampleUuid.text,
        (Utf16.encode (splitName.drop 1)).take maxSessionNameLength, some exampleRelay⟩ :=
  (pairUri_kept_iff (by decide) (by decide) exampleUuid exampleUuid (by decide)
    exampleRelay_isHttpUrl).mpr ⟨by decide, by decide⟩

end RemotePi.Pairing
