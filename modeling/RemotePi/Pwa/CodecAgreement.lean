import RemotePi.Pwa.Codec

/-!
# One frame language

The decoders of the extension and of the browser, on the same text, bytes or value: they refuse
it with errors of one code, or return frames that differ at most in the order of their members.
What one side encodes, the other one decodes to the frame that was encoded.

Results:
* `readFrame_agree`: values that are alike are read as frames that are alike.
* `decoders_agree`: the decoders agree on whatever they read.
* `validateWindowFrom_agree`: a window has one size on both sides.
* `decode_encoded`: each side decodes what the other one encodes.
-/

namespace RemotePi.Pwa

open RemotePi.Lib
open RemotePi.Protocol (DecodeError Direction Raw FrameSchema textAt itemsAt textAt_of_alike
  itemsAt_of_alike member?_of_alike)

/-! ## Base64 -/

theorem isDigit_pad : Base64.isDigit '=' = false := by
  rw [Base64.isDigit, Base64.sextet?_pad]
  rfl

/-- A Base64 text is made of digits and a padding of at most two characters. -/
theorem exists_body_of_isText {text : List Char} (h : Base64.isText text = true) :
    ∃ body pad, text = body ++ pad ∧ body.all Base64.isDigit = true ∧
      (pad = [] ∨ pad = ['='] ∨ pad = ['=', '=']) ∧ text.length % 4 = 0 := by
  induction text using Base64.isText.induct with
  | case1 => exact ⟨[], [], rfl, rfl, .inl rfl, rfl⟩
  | case2 a b c d rest ih =>
    rw [Base64.isText, Bool.and_eq_true, Bool.and_eq_true] at h
    obtain ⟨⟨ha, hb⟩, h⟩ := h
    by_cases hlast : (rest.isEmpty && decide (d = '=')) = true
    · rw [if_pos hlast] at h
      rw [Bool.and_eq_true, decide_eq_true_eq, List.isEmpty_iff] at hlast
      obtain ⟨rfl, rfl⟩ := hlast
      by_cases hc : c = '='
      · exact ⟨[a, b], ['=', '='], by rw [hc]; rfl, by simp [ha, hb], .inr (.inr rfl), by simp⟩
      · rw [decide_eq_false hc, Bool.false_or] at h
        exact ⟨[a, b, c], ['='], rfl, by simp [ha, hb, h], .inr (.inl rfl), by simp⟩
    · rw [if_neg hlast, Bool.and_eq_true, Bool.and_eq_true] at h
      obtain ⟨⟨hc, hd⟩, hrest⟩ := h
      obtain ⟨body, pad, rfl, hbody, hpad, hlength⟩ := ih hrest
      refine ⟨a :: b :: c :: d :: body, pad, rfl, by simp [ha, hb, hc, hd, hbody], hpad, ?_⟩
      simp only [List.length_cons]
      omega
  | case3 text h₁ h₂ =>
    rw [Base64.isText] at h
    · cases h
    · exact h₁
    · exact h₂

theorem dropPadding_append {body pad : List Char} (hbody : body.all Base64.isDigit = true)
    (hpad : pad = [] ∨ pad = ['='] ∨ pad = ['=', '=']) : dropPadding (body ++ pad) = body := by
  have hlast : body.getLast? ≠ some '=' := by
    intro h
    have hdigit := List.all_eq_true.mp hbody '=' (List.mem_of_getLast? h)
    rw [isDigit_pad] at hdigit
    cases hdigit
  unfold dropPadding
  rcases hpad with rfl | rfl | rfl
  · rw [List.append_nil, if_neg hlast]
  · rw [List.getLast?_concat, if_pos rfl, List.dropLast_concat, if_neg hlast]
  · have htwo : body ++ ['=', '='] = (body ++ ['=']) ++ ['='] := by simp
    rw [htwo, List.getLast?_concat, if_pos rfl, List.dropLast_concat, List.getLast?_concat,
      if_pos rfl, List.dropLast_concat]

theorem isDigit_of_isAsciiSpace {c : Char} (h : isAsciiSpace c = true) :
    Base64.isDigit c = false := by
  simp only [isAsciiSpace, Bool.or_eq_true, decide_eq_true_eq] at h
  rcases h with (((rfl | rfl) | rfl) | rfl) | rfl <;> decide

/-- `atob` decodes a Base64 text as the extension does. -/
theorem atob_of_isText {text : List Char} (h : Base64.isText text = true) :
    atob text = some (Base64.decode text) := by
  obtain ⟨body, pad, rfl, hbody, hpad, hlength⟩ := exists_body_of_isText h
  have hpads : ∀ c ∈ pad, c = '=' := by
    rcases hpad with rfl | rfl | rfl <;> simp
  have hkept : (body ++ pad).filter (fun c => !isAsciiSpace c) = body ++ pad := by
    refine List.filter_eq_self.mpr fun c hc => ?_
    rw [Bool.not_eq_true', ← Bool.not_eq_true]
    intro hspace
    rcases List.mem_append.mp hc with hc | hc
    · have hdigit := List.all_eq_true.mp hbody c hc
      rw [isDigit_of_isAsciiSpace hspace] at hdigit
      cases hdigit
    · rw [hpads c hc] at hspace
      exact absurd hspace (by decide)
  have hmod : body.length % 4 ≠ 1 := by
    rw [List.length_append] at hlength
    rcases hpad with rfl | rfl | rfl
    all_goals
      simp only [List.length_cons, List.length_nil] at hlength
      omega
  have hdecode : Base64.decode (body ++ pad) = Base64.decode body := by
    have hnil : pad.filterMap Base64.sextet? = [] :=
      List.filterMap_eq_nil_iff.mpr fun c hc => by rw [hpads c hc, Base64.sextet?_pad]
    rw [Base64.decode, List.filterMap_append, hnil, List.append_nil, Base64.decode]
  unfold atob
  dsimp only
  rw [hkept, if_pos hlength, dropPadding_append hbody hpad, hbody, decide_eq_false hmod,
    Bool.not_true, Bool.or_false, if_neg Bool.false_ne_true, hdecode]

/-! ## Agreement -/

/-- Both succeed, with related values, or both fail with errors of one code. -/
inductive Agree {α β : Type} (r : α → β → Prop) :
    Except DecodeError α → Except DecodeError β → Prop where
  | ok {a : α} {b : β} (h : r a b) : Agree r (.ok a) (.ok b)
  | error {e e' : DecodeError} (h : e.code = e'.code) : Agree r (.error e) (.error e')

section Agree

variable {α β γ δ : Type} {r : α → β → Prop} {s : γ → δ → Prop}

theorem Agree.bind {x : Except DecodeError α} {y : Except DecodeError β}
    {f : α → Except DecodeError γ} {g : β → Except DecodeError δ} (h : Agree r x y)
    (hfg : ∀ a b, r a b → Agree s (f a) (g b)) : Agree s (x >>= f) (y >>= g) := by
  cases h with
  | ok h => exact hfg _ _ h
  | error h => exact .error h

/-- The same check on both sides. -/
theorem Agree.check {c : Prop} [Decidable c] {a : α} {b : β} {e e' : DecodeError} (hr : r a b)
    (he : e.code = e'.code) : Agree r (if c then .error e else .ok a)
      (if c then .error e' else .ok b) := by
  split_ifs
  · exact .error he
  · exact .ok hr

theorem Agree.exists_ok {x : Except DecodeError α} {y : Except DecodeError β} (h : Agree r x y)
    {a : α} (ha : x = .ok a) : ∃ b, y = .ok b ∧ r a b := by
  subst ha
  cases h with
  | ok h => exact ⟨_, rfl, h⟩

theorem Agree.exists_ok' {x : Except DecodeError α} {y : Except DecodeError β} (h : Agree r x y)
    {b : β} (hb : y = .ok b) : ∃ a, x = .ok a ∧ r a b := by
  subst hb
  cases h with
  | ok h => exact ⟨_, rfl, h⟩

end Agree

theorem plain_itemsAt {value : Json} (h : value.Plain) (key : String) :
    ∀ item ∈ itemsAt key value, item.Plain := by
  intro item hmem
  cases value with
  | object members =>
    rw [itemsAt, Json.member?_object] at hmem
    cases hfound : members.lookup key with
    | none =>
      rw [hfound] at hmem
      cases hmem
    | some found =>
      rw [hfound, Option.bind_some] at hmem
      cases found with
      | array items =>
        have hplain : (Json.array items).Plain := h.member (Json.mem_of_lookup hfound)
        exact hplain.item hmem
      | _ => cases hmem
  | _ => cases hmem

namespace Codec

section

variable {numbers : JsonText.NumberText} {lib : Validator Protocol.FrameSchemas.rules}
  {lib' : Validator FrameSchemas.rules} {value value' : Json}

theorem parseSchema_agree {schema schema' : FrameSchema}
    (h : Schema.equivalent schema schema' = true) (halike : Json.Alike value value')
    (hplain : value.Plain) :
    Agree (fun parsed parsed' => Json.Alike value parsed ∧ Json.Alike parsed parsed')
      (Protocol.Codec.parseSchema lib schema value) (parseSchema lib' schema' value') := by
  have hrel := lib.agree lib' FrameSchemas.rules_agree h halike hplain
  have hreturned := (lib.settles schema hplain).alike
  unfold Protocol.Codec.parseSchema parseSchema
  generalize lib.safeParse schema value = found at hrel hreturned
  generalize lib'.safeParse schema' value' = found' at hrel
  cases hrel with
  | some h => exact .ok ⟨hreturned _ rfl, h⟩
  | none => exact .error rfl

variable (numbers) in
theorem parseRaw_agree (raw : Raw) (maxBytes : ℕ) :
    Agree Eq (Protocol.Codec.parseRaw numbers raw maxBytes) (parseRaw numbers raw maxBytes) := by
  cases raw with
  | text text =>
    show Agree Eq (if maxBytes < (Utf8.encode text).length then _ else _)
      (if maxBytes < (Utf8.encode text).length then _ else _)
    split_ifs
    · exact .error rfl
    · cases JsonText.parse numbers text with
      | none => exact .error rfl
      | some value => exact .ok rfl
  | bytes bytes =>
    show Agree Eq (if maxBytes < bytes.length then _ else _)
      (if maxBytes < bytes.length then _ else _)
    split_ifs
    · exact .error rfl
    · cases (Utf8.decodeFatal bytes).bind (JsonText.parse numbers) with
      | none => exact .error rfl
      | some value => exact .ok rfl
  | record members => exact Agree.check rfl rfl
  | other => exact .error rfl

variable (numbers) in
theorem getUtf8ByteLength_of_alike (h : Json.Alike value value') :
    Protocol.Codec.getUtf8ByteLength numbers value = getUtf8ByteLength numbers value' :=
  JsonText.utf8Length_same Json.keyOrder h.distinct h.distinct' h.same

theorem checkVersion_agree (h : Json.Alike value value') :
    Agree Eq (Protocol.Codec.checkProtocolVersion value) (assertVersion value') := by
  have hversion : (value.member? "protocol_version").any (Literal.number 2).accepts =
      (value'.member? "protocol_version").any (Literal.number 2).accepts := by
    have hrel := member?_of_alike h "protocol_version"
    generalize value.member? "protocol_version" = found at hrel
    generalize value'.member? "protocol_version" = found' at hrel
    cases hrel with
    | none => rfl
    | some h => rcases h.cases with rfl | ⟨_, _, rfl, rfl⟩ | ⟨_, _, rfl, rfl⟩ <;> rfl
  unfold Protocol.Codec.checkProtocolVersion assertVersion
  rw [hversion]
  split_ifs
  · exact .ok rfl
  · exact .error rfl

theorem checkType_agree (type : String) (direction : Direction) :
    Agree Eq (Protocol.Codec.checkType type direction) (assertDirection type direction) := by
  have hclient : Protocol.FrameSchemas.clientFrameTypes = FrameSchemas.clientFrameTypes := rfl
  have hserver : Protocol.FrameSchemas.serverFrameTypes = FrameSchemas.serverFrameTypes := rfl
  unfold Protocol.Codec.checkType assertDirection
  rw [hclient, hserver]
  cases FrameSchemas.clientFrameTypes.contains type <;>
    cases FrameSchemas.serverFrameTypes.contains type <;> cases direction <;>
      first
        | exact .ok rfl
        | exact .error rfl

/-! ### Fragments -/

theorem accepts_data {rules : Rules Protocol.TextPattern Protocol.FrameCheck}
    {shape : List (String × Bool × FrameSchema)}
    (hfield : ((shape.lookup "data_base64").any fun field =>
      !field.1 && Schema.equivalent field.2 FrameSchemas.base64Schema) = true)
    (hpattern : rules.Agree FrameSchemas.rules)
    (h : Schema.accepts rules (.strictObject shape) value = true) :
    ∃ data, textAt "data_base64" value = some data ∧ Base64.isText data.toList = true := by
  cases hfound : shape.lookup "data_base64" with
  | none =>
    rw [hfound] at hfield
    cases hfield
  | some field =>
    obtain ⟨optional, schema⟩ := field
    rw [hfound, Option.any_some, Bool.and_eq_true, Bool.not_eq_true'] at hfield
    obtain ⟨hrequired, hequivalent⟩ := hfield
    dsimp only at hrequired hequivalent
    subst hrequired
    obtain ⟨found, hvalue, haccepts⟩ := Schema.accepts_required h hfound
    rw [Schema.accepts_of_equivalent hpattern hequivalent, FrameSchemas.base64Schema, Schema.text,
      Schema.accepts] at haccepts
    cases found with
    | string data =>
      rw [Scalar.accepts, TextRule.accepts, Bool.and_eq_true] at haccepts
      exact ⟨data, by rw [textAt, hvalue]; rfl, haccepts.2⟩
    | _ => cases haccepts

/-- The fragment of either schema that the extension tries. -/
theorem parsed_fragment (hplain : value.Plain) {parsed : Json}
    (h : (lib.safeParse Protocol.FrameSchemas.timelineEventFragmentSchema value).or
      (lib.safeParse Protocol.FrameSchemas.historyFragmentSchema value) = some parsed) :
    ∃ data, textAt "data_base64" parsed = some data ∧ Base64.isText data.toList = true := by
  have hof : ∀ shape : List (String × Bool × FrameSchema),
      ((shape.lookup "data_base64").any fun field =>
        !field.1 && Schema.equivalent field.2 FrameSchemas.base64Schema) = true →
      lib.safeParse (.strictObject shape) value = some parsed →
        ∃ data, textAt "data_base64" parsed = some data ∧ Base64.isText data.toList = true := by
    intro shape hshape hparsed
    have hsettles := lib.settles (.strictObject shape) hplain
    have haccepts := hsettles.isSome
    rw [hparsed, Option.isSome_some] at haccepts
    obtain ⟨data, hdata, htext⟩ := accepts_data hshape FrameSchemas.rules_agree haccepts.symm
    exact ⟨data, (textAt_of_alike (hsettles.alike parsed hparsed) _).symm.trans hdata, htext⟩
  rcases Option.or_eq_some_iff.mp h with h | ⟨-, h⟩
  · exact hof _ (by decide) h
  · exact hof _ (by decide) h

theorem validateFragmentSize_agree (halike : Json.Alike value value') (hplain : value.Plain) :
    Agree Eq (Protocol.Codec.validateFragmentSize lib value)
      (validateFragmentSize lib' value') := by
  have hframe := lib.agree lib' FrameSchemas.rules_agree FrameSchemas.fragmentFrame_equivalent
    halike hplain
  have hhistory := lib.agree lib' FrameSchemas.rules_agree FrameSchemas.fragment_equivalent
    halike hplain
  have hdata : ∀ parsed, (lib.safeParse Protocol.FrameSchemas.timelineEventFragmentSchema value).or
      (lib.safeParse Protocol.FrameSchemas.historyFragmentSchema value) = some parsed →
        ∃ data, textAt "data_base64" parsed = some data ∧ Base64.isText data.toList = true :=
    fun _ => parsed_fragment hplain
  have htwice : (lib'.safeParse FrameSchemas.timelineEventFragmentSchema value').or
      (lib'.safeParse FrameSchemas.historyFragmentSchema value') =
        lib'.safeParse FrameSchemas.historyFragmentSchema value' := Option.or_self
  unfold Protocol.Codec.validateFragmentSize validateFragmentSize
  rw [htwice]
  have hor : Option.Rel Json.Alike
      ((lib.safeParse Protocol.FrameSchemas.timelineEventFragmentSchema value).or
        (lib.safeParse Protocol.FrameSchemas.historyFragmentSchema value))
      ((lib'.safeParse FrameSchemas.timelineEventFragmentFrameSchema value').or
        (lib'.safeParse FrameSchemas.historyFragmentSchema value')) := by
    generalize lib.safeParse Protocol.FrameSchemas.timelineEventFragmentSchema value = x at hframe ⊢
    generalize lib'.safeParse FrameSchemas.timelineEventFragmentFrameSchema value' = y at hframe ⊢
    cases hframe with
    | some h => exact Option.Rel.some h
    | none => exact hhistory
  generalize (lib.safeParse Protocol.FrameSchemas.timelineEventFragmentSchema value).or
    (lib.safeParse Protocol.FrameSchemas.historyFragmentSchema value) = found at hor hdata ⊢
  generalize (lib'.safeParse FrameSchemas.timelineEventFragmentFrameSchema value').or
    (lib'.safeParse FrameSchemas.historyFragmentSchema value') = found' at hor ⊢
  cases hor with
  | none => exact .error rfl
  | @some parsed parsed' hparsed =>
    obtain ⟨data, htext, hbase⟩ := hdata parsed rfl
    have hdecode : decodeBase64Bytes data = .ok (Protocol.Codec.decodeBase64Bytes data) := by
      rw [decodeBase64Bytes, atob_of_isText hbase]
      rfl
    dsimp only
    rw [htext, ← textAt_of_alike hparsed, htext]
    dsimp only
    rw [hdecode]
    exact Agree.check rfl rfl

theorem validateFragments_agree {fragments fragments' : List Json}
    (h : List.Forall₂ Json.Alike fragments fragments')
    (hplain : ∀ fragment ∈ fragments, fragment.Plain) :
    Agree Eq (Protocol.Codec.validateFragments lib fragments)
      (validateFragments lib' fragments') := by
  induction h with
  | nil => exact .ok rfl
  | cons halike _ ih =>
    obtain ⟨hfirst, hrest⟩ := List.forall_mem_cons.mp hplain
    exact (validateFragmentSize_agree halike hfirst).bind fun _ _ _ => ih hrest

/-! ### Frames -/

theorem checkSize_agree {bytes bytes' maxBytes : ℕ} (h : bytes = bytes') (message : String)
    (message' : String) : Agree Eq (Protocol.Codec.checkSize bytes maxBytes message)
      (checkSize bytes' maxBytes message') := by
  subst h
  exact Agree.check rfl rfl

theorem validateHistoryChunkSize_agree (halike : Json.Alike value value')
    (hplain : value.Plain) : Agree Eq (Protocol.Codec.validateHistoryChunkSize numbers lib value)
      (validateHistoryChunkSize numbers lib' value') := by
  unfold Protocol.Codec.validateHistoryChunkSize validateHistoryChunkSize
  refine (parseSchema_agree FrameSchemas.chunk_equivalent halike hplain).bind ?_
  rintro parsed parsed' ⟨hreturned, hparsed⟩
  have hbytes : Protocol.Codec.getUtf8ByteLength numbers parsed =
      getUtf8ByteLength numbers parsed' := getUtf8ByteLength_of_alike numbers hparsed
  have hitems := itemsAt_of_alike hparsed "fragments"
  have hplains := plain_itemsAt (Json.plain_of_alike hreturned hplain) "fragments"
  refine (checkSize_agree hbytes _ _).bind fun _ _ _ => ?_
  exact (validateFragments_agree hitems hplains).bind fun _ _ _ => .ok hbytes

theorem validateParts_agree (type : String) (halike : Json.Alike value value')
    (hplain : value.Plain) : Agree Eq (Protocol.Codec.validateParts numbers lib type value)
      (validateParts numbers lib' type value') := by
  unfold Protocol.Codec.validateParts validateParts
  split_ifs
  · exact (validateFragmentSize_agree halike hplain).bind fun _ _ _ => .ok rfl
  · exact (validateHistoryChunkSize_agree halike hplain).bind fun _ _ _ => .ok rfl
  · exact .ok rfl

theorem frameSchema_equivalent (direction : Direction) :
    Schema.equivalent (Protocol.Codec.frameSchema direction) (frameSchema direction) = true := by
  cases direction with
  | client => exact FrameSchemas.client_equivalent
  | server => exact FrameSchemas.server_equivalent

variable (numbers lib lib') in
/-- Values that are alike are read as frames that are alike, and as what they are. -/
theorem readFrame_agree (halike : Json.Alike value value') (hplain : value.Plain) (bytes : ℕ)
    (direction : Direction) :
    Agree (fun frame frame' => Json.Alike value frame ∧ Json.Alike frame frame')
      (Protocol.Codec.readFrame numbers lib value bytes direction)
      (readFrame numbers lib' value' bytes direction) := by
  have htype := textAt_of_alike halike "type"
  unfold Protocol.Codec.readFrame readFrame frameType
  rw [← htype]
  cases textAt "type" value with
  | none => exact .error rfl
  | some type =>
    refine (checkType_agree type direction).bind fun _ _ _ => ?_
    refine (checkVersion_agree halike).bind fun _ _ _ => ?_
    refine (parseSchema_agree (frameSchema_equivalent direction) halike hplain).bind ?_
    intro frame frame' hframe
    refine (Agree.check (r := Eq) rfl rfl).bind fun _ _ _ => ?_
    exact (validateParts_agree type halike hplain).bind fun _ _ _ => .ok hframe

/-- What a decoder reads is a value without keys that are treated apart. -/
theorem parseRaw_plain {raw : Raw} (hplain : raw.Plain numbers) (maxBytes : ℕ) :
    Agree (fun read read' => read = read' ∧ read.1.Plain)
      (Protocol.Codec.parseRaw numbers raw maxBytes) (parseRaw numbers raw maxBytes) := by
  have hagree := parseRaw_agree numbers raw maxBytes
  have hvalue : ∀ read, Protocol.Codec.parseRaw numbers raw maxBytes = .ok read → read.1.Plain :=
    fun read hread => hplain.value (Protocol.Codec.value_of_parseRaw hread)
  generalize Protocol.Codec.parseRaw numbers raw maxBytes = x at hagree hvalue
  generalize parseRaw numbers raw maxBytes = y at hagree
  cases hagree with
  | ok h => exact .ok ⟨h, hvalue _ rfl⟩
  | error h => exact .error h

end

/-! ### The decoders -/

section Decoders

variable (numbers : JsonText.NumberText) (lib : Validator Protocol.FrameSchemas.rules)
  (lib' : Validator FrameSchemas.rules)

/-- The frames are read alike. -/
theorem parseFrame_agree (raw : Raw) (direction : Direction) (hplain : raw.Plain numbers) :
    Agree Json.Alike (Protocol.Codec.parseFrame numbers lib raw direction)
      (parseFrame numbers lib' raw direction) := by
  unfold Protocol.Codec.parseFrame parseFrame
  refine (parseRaw_plain hplain _).bind ?_
  rintro ⟨value, bytes⟩ _ ⟨rfl, hvalue⟩
  have hread := readFrame_agree numbers lib lib'
    (Json.Alike.refl hvalue.distinct) hvalue bytes direction
  generalize Protocol.Codec.readFrame numbers lib value bytes direction = x at hread ⊢
  generalize readFrame numbers lib' value bytes direction = y at hread ⊢
  cases hread with
  | ok h => exact .ok h.2
  | error h => exact .error h

/-- The events of a store are read alike. -/
theorem parseTimelineEvent_agree (raw : Raw) (hplain : raw.Plain numbers) :
    Agree Json.Alike (Protocol.Codec.parseTimelineEvent numbers lib raw)
      (parseTimelineEvent numbers lib' raw) := by
  unfold Protocol.Codec.parseTimelineEvent parseTimelineEvent
  refine (parseRaw_plain hplain _).bind ?_
  rintro ⟨value, bytes⟩ _ ⟨rfl, hvalue⟩
  refine (parseSchema_agree FrameSchemas.event_equivalent (Json.Alike.refl hvalue.distinct)
    hvalue).bind ?_
  rintro event event' ⟨-, hevent⟩
  refine (checkSize_agree (getUtf8ByteLength_of_alike numbers hevent) _ _).bind fun _ _ _ => ?_
  exact .ok hevent

theorem parseTimelinePartial_agree (raw : Raw) (hplain : raw.Plain numbers) :
    Agree Json.Alike (Protocol.Codec.parseTimelinePartial numbers lib raw)
      (parseTimelinePartial numbers lib' raw) := by
  unfold Protocol.Codec.parseTimelinePartial parseTimelinePartial
  refine (parseRaw_plain hplain _).bind ?_
  rintro ⟨value, bytes⟩ _ ⟨rfl, hvalue⟩
  refine (parseSchema_agree FrameSchemas.partial_equivalent (Json.Alike.refl hvalue.distinct)
    hvalue).bind ?_
  rintro update update' ⟨-, hupdate⟩
  refine (checkSize_agree (getUtf8ByteLength_of_alike numbers hupdate) _ _).bind fun _ _ _ => ?_
  exact .ok hupdate

/-- The sizes of a window of events are the same on both sides. -/
theorem validateWindowFrom_agree {events events' : List Json}
    (h : List.Forall₂ Json.Alike events events') (hplain : ∀ event ∈ events, event.Plain)
    (total : ℕ) : Agree Eq (Protocol.Codec.validateWindowFrom numbers lib total events)
      (validateWindowFrom numbers lib' total events') := by
  induction h generalizing total with
  | nil => exact .ok rfl
  | cons halike _ ih =>
    obtain ⟨hfirst, hrest⟩ := List.forall_mem_cons.mp hplain
    rw [Protocol.Codec.validateWindowFrom, validateWindowFrom]
    refine (parseSchema_agree FrameSchemas.event_equivalent halike hfirst).bind ?_
    rintro parsed parsed' ⟨-, hparsed⟩
    rw [getUtf8ByteLength_of_alike numbers hparsed]
    exact (checkSize_agree rfl _ _).bind fun _ _ _ => ih hrest _

/-- Each decoder of the browser agrees with the one of the extension: of whatever they read, they
make values that differ at most in the order of their members, or they refuse it for the same
reason. -/
theorem decoders_agree (raw : Raw) (hplain : raw.Plain numbers) :
    (∀ direction, Agree Json.Alike (Protocol.Codec.parseFrame numbers lib raw direction)
      (parseFrame numbers lib' raw direction)) ∧
    Agree Json.Alike (Protocol.Codec.parseTimelineEvent numbers lib raw)
      (parseTimelineEvent numbers lib' raw) ∧
    Agree Json.Alike (Protocol.Codec.parseTimelinePartial numbers lib raw)
      (parseTimelinePartial numbers lib' raw) :=
  ⟨fun direction => parseFrame_agree numbers lib lib' raw direction hplain,
    parseTimelineEvent_agree numbers lib lib' raw hplain,
    parseTimelinePartial_agree numbers lib lib' raw hplain⟩

end Decoders

theorem exists_ok_of_isSome {α : Type} {x : Except DecodeError α} (h : x.toOption.isSome = true) :
    ∃ a, x = .ok a := by
  cases x with
  | ok a => exact ⟨a, rfl⟩
  | error e => cases h

/-- A `timeline_event_fragment` with three bytes. -/
def fragmentFrame : List (String × Json) := [
  ("protocol_version", .number 2),
  ("type", .string "timeline_event_fragment"),
  ("session_id", .string "s"),
  ("history_generation", .string "g"),
  ("event_id", .string "e"),
  ("index", .number 0),
  ("data_base64", .string "AAAA"),
  ("final", .bool true)]

theorem plain_fragmentFrame : (Json.object fragmentFrame).Plain := ⟨by decide, by decide⟩

theorem decoders_agree_fragment :
    ∃ frame frame',
      Protocol.Codec.parseFrame JsonText.oneDigit (.reference Protocol.FrameSchemas.rules)
        (.record fragmentFrame) .server = .ok frame ∧
      parseFrame JsonText.oneDigit (.reference FrameSchemas.rules) (.record fragmentFrame) .server =
        .ok frame' ∧ Json.Alike frame frame' := by
  obtain ⟨hagree, -, -⟩ := decoders_agree JsonText.oneDigit
    (.reference Protocol.FrameSchemas.rules) (.reference FrameSchemas.rules) (.record fragmentFrame)
    (Raw.plain_record plain_fragmentFrame)
  obtain ⟨frame, hframe⟩ : ∃ frame, Protocol.Codec.parseFrame JsonText.oneDigit
      (.reference Protocol.FrameSchemas.rules) (.record fragmentFrame) .server = .ok frame :=
    exists_ok_of_isSome (by decide +kernel)
  obtain ⟨frame', hframe', halike⟩ := (hagree .server).exists_ok hframe
  exact ⟨frame, frame', hframe, hframe', halike⟩

/-! ### What is encoded -/

section Encoded

variable {numbers : JsonText.NumberText} {lib : Validator Protocol.FrameSchemas.rules}
  {lib' : Validator FrameSchemas.rules} {members : List (String × Json)} {direction : Direction}

theorem exists_object_of_alike {value : Json} (h : Json.Alike (.object members) value) :
    ∃ members', value = .object members' := by
  rcases h.cases with rfl | ⟨_, _, ⟨⟩, _⟩ | ⟨_, members', _, rfl⟩
  · exact ⟨members, rfl⟩
  · exact ⟨members', rfl⟩

/-- What the extension encodes is the text of an object like the one that was encoded, and the
browser reads that object as a frame. -/
theorem read_encoded (lib' : Validator FrameSchemas.rules) (hplain : (Json.object members).Plain)
    {text : List Char} (h : Protocol.Codec.encodeFrame numbers lib members direction = .ok text) :
    ∃ members', text = JsonText.stringify numbers (.object members') ∧
      Json.Alike (.object members) (.object members') ∧
      getUtf8ByteLength numbers (.object members') ≤ FrameSchemas.maxFrameBytes ∧
      ∃ frame, readFrame numbers lib' (.object members')
        (getUtf8ByteLength numbers (.object members')) direction = .ok frame ∧
          Json.Alike (.object members) frame := by
  obtain ⟨parsed, hparsed, rfl⟩ := Protocol.Codec.encodeFrame_eq_ok h
  obtain ⟨hsize, hread⟩ := Protocol.Codec.parseFrame_record hparsed
  have hself := readFrame_agree numbers lib lib' (Json.Alike.refl hplain.distinct) hplain
    (Protocol.Codec.getUtf8ByteLength numbers (.object members)) direction
  obtain ⟨-, -, hsame, -⟩ := hself.exists_ok hread
  have hbytes : Protocol.Codec.getUtf8ByteLength numbers (.object members) =
      getUtf8ByteLength numbers parsed := getUtf8ByteLength_of_alike numbers hsame
  have hagree := readFrame_agree numbers lib lib' hsame hplain
    (Protocol.Codec.getUtf8ByteLength numbers (.object members)) direction
  obtain ⟨frame, hframe, -, hframes⟩ := hagree.exists_ok hread
  obtain ⟨members', rfl⟩ := exists_object_of_alike hsame
  rw [hbytes] at hsize hframe
  exact ⟨members', rfl, hsame, hsize, frame, hframe, hsame.trans hframes⟩

/-- The same with the sides exchanged. -/
theorem read_encoded' (lib : Validator Protocol.FrameSchemas.rules)
    (hplain : (Json.object members).Plain) {bytes : List Byte}
    (h : encodeFrame numbers lib' members direction = .ok bytes) :
    ∃ members', bytes = encodeJson numbers (.object members') ∧
      Json.Alike (.object members) (.object members') ∧
      getUtf8ByteLength numbers (.object members') ≤ Protocol.maxFrameBytes ∧
      ∃ frame, Protocol.Codec.readFrame numbers lib (.object members')
        (getUtf8ByteLength numbers (.object members')) direction = .ok frame ∧
          Json.Alike (.object members) frame := by
  obtain ⟨parsed, hparsed, rfl⟩ := encodeFrame_eq_ok h
  obtain ⟨hsize, hread⟩ := parseFrame_record hparsed
  have hself := readFrame_agree numbers lib lib' (Json.Alike.refl hplain.distinct) hplain
    (getUtf8ByteLength numbers (.object members)) direction
  obtain ⟨first, -, hfirst, hframes⟩ := hself.exists_ok' hread
  have hsame : Json.Alike (.object members) parsed := hfirst.trans hframes
  have hbytes : getUtf8ByteLength numbers (.object members) = getUtf8ByteLength numbers parsed :=
    getUtf8ByteLength_of_alike numbers hsame
  have hagree := readFrame_agree numbers lib lib' hsame.symm (Json.plain_of_alike hsame hplain)
    (getUtf8ByteLength numbers (.object members)) direction
  obtain ⟨frame, hframe, halike, -⟩ := hagree.exists_ok' hread
  obtain ⟨members', rfl⟩ := exists_object_of_alike hsame
  rw [hbytes] at hsize hframe
  exact ⟨members', rfl, hsame, hsize, frame, hframe, hsame.trans halike⟩

end Encoded

section Encoders

variable (numbers : JsonText.NumberText) (lib : Validator Protocol.FrameSchemas.rules)
  (lib' : Validator FrameSchemas.rules)

/-- The encoders accept the same records, and refuse the others for the same reason. -/
theorem encodeFrame_agree (members : List (String × Json)) (direction : Direction)
    (hplain : (Json.object members).Plain) :
    Agree (fun text bytes => JsonText.utf8Length text = bytes.length)
      (Protocol.Codec.encodeFrame numbers lib members direction)
      (encodeFrame numbers lib' members direction) := by
  have hframes := parseFrame_agree numbers lib lib' (.record members) direction
    (Raw.plain_record hplain)
  have hrecord : ∀ frame,
      Protocol.Codec.parseFrame numbers lib (.record members) direction = .ok frame →
        getUtf8ByteLength numbers frame ≤ FrameSchemas.maxFrameBytes := by
    intro frame hframe
    obtain ⟨hsize, hread⟩ := Protocol.Codec.parseFrame_record hframe
    have hself := readFrame_agree numbers lib lib' (Json.Alike.refl hplain.distinct) hplain
      (Protocol.Codec.getUtf8ByteLength numbers (.object members)) direction
    obtain ⟨-, -, hsame, -⟩ := hself.exists_ok hread
    exact (getUtf8ByteLength_of_alike numbers hsame) ▸ hsize
  unfold Protocol.Codec.encodeFrame encodeFrame
  generalize Protocol.Codec.parseFrame numbers lib (.record members) direction = x
    at hframes hrecord
  generalize parseFrame numbers lib' (.record members) direction = y at hframes
  cases hframes with
  | error h => exact .error h
  | @ok frame frame' h =>
    have hlength : Protocol.Codec.getUtf8ByteLength numbers frame =
        getUtf8ByteLength numbers frame' := getUtf8ByteLength_of_alike numbers h
    have hself : Protocol.Codec.getUtf8ByteLength numbers frame = getUtf8ByteLength numbers frame :=
      rfl
    have hbound : ¬FrameSchemas.maxFrameBytes < (encodeJson numbers frame').length := by
      have hle := hrecord frame rfl
      rw [← hself, hlength] at hle
      exact Nat.not_lt_of_le hle
    have hcheck : assertByteLimit ((textAt "type" frame').getD "frame")
        (encodeJson numbers frame').length FrameSchemas.maxFrameBytes = .ok () := if_neg hbound
    show Agree _ (.ok _) (do
      assertByteLimit ((textAt "type" frame').getD "frame") (encodeJson numbers frame').length
        FrameSchemas.maxFrameBytes
      return encodeJson numbers frame')
    rw [hcheck]
    exact .ok hlength

/-- The encoders accept the same frames, and each side decodes the bytes of the other to the frame
that was encoded. -/
theorem decode_encoded (members : List (String × Json)) (direction : Direction)
    (hplain : (Json.object members).Plain)
    (hhosted : JsonText.hosted numbers (.object members) = true) :
    Agree (fun text bytes => JsonText.utf8Length text = bytes.length)
      (Protocol.Codec.encodeFrame numbers lib members direction)
      (encodeFrame numbers lib' members direction) ∧
    (∀ text, Protocol.Codec.encodeFrame numbers lib members direction = .ok text →
      ∃ frame, parseFrame numbers lib' (.bytes (Utf8.encode text)) direction = .ok frame ∧
        Json.Alike (.object members) frame) ∧
    ∀ bytes, encodeFrame numbers lib' members direction = .ok bytes →
      ∃ frame, Protocol.Codec.parseFrame numbers lib (.bytes bytes) direction = .ok frame ∧
        Json.Alike (.object members) frame := by
  refine ⟨encodeFrame_agree numbers lib lib' members direction hplain, ?_, ?_⟩
  · intro text htext
    obtain ⟨members', rfl, hsame, hsize, frame, hframe, halike⟩ := read_encoded lib' hplain htext
    have hraw := parseRaw_bytes (JsonText.hosted_of_alike hsame hhosted) hsize
    refine ⟨frame, ?_, halike⟩
    rw [parseFrame, ← encodeJson, hraw]
    exact hframe
  · intro bytes hbytes
    obtain ⟨members', rfl, hsame, hsize, frame, hframe, halike⟩ := read_encoded' lib hplain hbytes
    have hraw := Protocol.Codec.parseRaw_bytes (JsonText.hosted_of_alike hsame hhosted) hsize
    refine ⟨frame, ?_, halike⟩
    rw [Protocol.Codec.parseFrame, encodeJson, hraw]
    exact hframe

end Encoders

theorem decode_encoded_fragment :
    ∃ text frame,
      Protocol.Codec.encodeFrame JsonText.oneDigit (.reference Protocol.FrameSchemas.rules)
        fragmentFrame .server = .ok text ∧
      parseFrame JsonText.oneDigit (.reference FrameSchemas.rules) (.bytes (Utf8.encode text))
        .server = .ok frame ∧ Json.Alike (.object fragmentFrame) frame := by
  obtain ⟨text, htext⟩ : ∃ text, Protocol.Codec.encodeFrame JsonText.oneDigit
      (.reference Protocol.FrameSchemas.rules) fragmentFrame .server = .ok text :=
    exists_ok_of_isSome (by decide +kernel)
  obtain ⟨-, hdecode, -⟩ := decode_encoded JsonText.oneDigit
    (.reference Protocol.FrameSchemas.rules) (.reference FrameSchemas.rules) fragmentFrame .server
    plain_fragmentFrame (by decide)
  obtain ⟨frame, hframe, halike⟩ := hdecode text htext
  exact ⟨text, frame, htext, hframe, halike⟩

end Codec

end RemotePi.Pwa
