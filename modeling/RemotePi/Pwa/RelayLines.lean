import RemotePi.Pwa.Protocol
import RemotePi.Relay.Visibility

/-!
# Lines of the relay in the browser

Every control line that the relay queues is read by `decodeControlFrame` of the
browser. The relay takes any UUID and any 64-bit number; the browser asks for a
version and a variant digit, and its numbers are doubles.

Results:
* `accepted_run`: the lines queued in a run carry the ids of accepted frames.
* `decode_line_iff`: when the browser reads such a line as it was meant.
* `queued_lines_read_iff`: so for every run of the registry.
* `nil_uuid_hides_device`: a snapshot that the browser rejects whole.
-/

namespace RemotePi.Pwa

open RemotePi.Lib Relay

/-! ## Registries built from accepted frames -/

/-- The arguments of an operation come from a frame that the relay accepted. -/
def AcceptedOperation : Operation → Prop
  | .registerHost _ hello => ∃ wire, parseHello wire = .ok (.host hello)
  | .registerOwner _ ownerId => ∃ wire, parseHello wire = .ok (.owner ownerId)
  | .subscribeEndpoints _ _ deviceIds => ∃ wire, parseSubscribeEndpoints wire = .ok deviceIds
  | .updateHost _ _ _ update => ∃ wire, parseEndpointUpdate wire = .ok update
  | .unregisterHost _ _ _ | .unregisterOwner _ _ => True

/-- The ids that the relay let through. -/
structure AcceptedLine (line : ControlLine) : Prop where
  device : IsCanonicalId line.deviceId
  ids : ∀ id ∈ lineIds line, Relay.isUuid id = true

/-- A registry and queues that hold accepted ids only. -/
structure Accepted (r : PeerRegistry) : Prop where
  endpoint : ∀ key host, r.inner.endpoints.get? key = some host →
    IsCanonicalId key.1 ∧ Relay.isUuid key.2 = true ∧
      Relay.isUuid host.runtimeInstanceId = true
  queued : ∀ n ∈ r.queued, AcceptedLine n.2

theorem accepted_new : Accepted .new := by
  refine ⟨fun key host h => ?_, fun n h => ?_⟩
  · cases h
  · cases h

/-- The line about an endpoint that holds accepted ids before and after. -/
theorem acceptedLine_delta {key : EndpointKey} {previous current : Option HostConnection}
    {o : String} {line : ControlLine}
    (h : deltaLine key (previous.map HostSnapshot.from) current o = some line)
    (hkey : IsCanonicalId key.1 ∧ Relay.isUuid key.2 = true)
    (hruntime : ∀ host, previous = some host ∨ current = some host →
      Relay.isUuid host.runtimeInstanceId = true) : AcceptedLine line := by
  have hids : ∀ rt, Relay.isUuid rt = true → ∀ id ∈ [key.2, rt], Relay.isUuid id = true := by
    intro rt hrt id hid
    rcases List.mem_pair.mp hid with rfl | rfl
    · exact hkey.2
    · exact hrt
  unfold deltaLine visibilityLine at h
  split at h
  · obtain ⟨host, rfl, rfl⟩ := Option.map_eq_some_iff.mp h
    exact ⟨hkey.1, hids _ (hruntime host (Or.inr rfl))⟩
  · obtain ⟨host, rfl, rfl⟩ := Option.map_eq_some_iff.mp h
    exact ⟨hkey.1, hids _ (hruntime host (Or.inr rfl))⟩
  · obtain ⟨snapshot, hs, rfl⟩ := Option.map_eq_some_iff.mp h
    obtain ⟨host, rfl, rfl⟩ := Option.map_eq_some_iff.mp hs
    exact ⟨hkey.1, hids _ (hruntime host (Or.inl rfl))⟩
  · cases h

/-- A change of one endpoint that leaves accepted ids. -/
theorem Accepted.change {r r₁ : PeerRegistry} (hr : Accepted r) {key : EndpointKey}
    {lines : Notifications} (hc : HostChange r.inner r₁.inner key lines)
    (hq : r₁.queued = r.queued ++ lines)
    (hkey : ∀ host, r₁.inner.endpoints.get? key = some host →
      IsCanonicalId key.1 ∧ Relay.isUuid key.2 = true ∧
        Relay.isUuid host.runtimeInstanceId = true) : Accepted r₁ := by
  refine ⟨fun key' host hh => ?_, fun n hn => ?_⟩
  · by_cases hk : key' = key
    · subst hk
      exact hkey host hh
    · rw [hc.other key' hk] at hh
      exact hr.endpoint key' host hh
  · rw [hq, List.mem_append] at hn
    rcases hn with hn | hn
    · exact hr.queued n hn
    · rcases hc.queued with ⟨-, rfl⟩ | rfl
      · cases hn
      · obtain ⟨tx, line⟩ := n
        obtain ⟨o, c, owner, -, -, -, hl⟩ := mem_visibilityDelta hn
        have hany : ∀ host, r.inner.endpoints.get? key = some host ∨
            r₁.inner.endpoints.get? key = some host →
            IsCanonicalId key.1 ∧ Relay.isUuid key.2 = true ∧
              Relay.isUuid host.runtimeInstanceId = true := by
          rintro host (hh | hh)
          · exact hr.endpoint key host hh
          · exact hkey host hh
        have hsome : ∃ host, r.inner.endpoints.get? key = some host ∨
            r₁.inner.endpoints.get? key = some host := by
          cases hp : r.inner.endpoints.get? key with
          | some host => exact ⟨host, Or.inl rfl⟩
          | none =>
            cases hcur : r₁.inner.endpoints.get? key with
            | some host => exact ⟨host, Or.inr rfl⟩
            | none => rw [hp, hcur] at hl; cases hl
        obtain ⟨host, hh⟩ := hsome
        exact acceptedLine_delta hl ⟨(hany host hh).1, (hany host hh).2.1⟩
          fun host hh => (hany host hh).2.2

theorem accepted_step (r : PeerRegistry) (op : Operation) (r₁ : PeerRegistry) (hr : Accepted r)
    (hop : AcceptedOperation op) (h : r.step op = some r₁) : Accepted r₁ := by
  cases op with
  | registerHost tx hello =>
    obtain ⟨wire, hwire⟩ := hop
    obtain ⟨hd, he, hrt⟩ := parseHello_host hwire
    obtain ⟨lines, hc, hq, -⟩ := step_host_effect h rfl
    obtain ⟨-, rfl⟩ := step_registerHost h
    refine hr.change hc hq fun host hh => ?_
    cases (OrderedMap.get?_set_self ..).symm.trans hh
    exact ⟨hd, he, hrt⟩
  | unregisterHost tx deviceId endpointId =>
    obtain ⟨lines, hc, hq, -⟩ := step_host_effect h rfl
    refine hr.change hc hq fun host hh => ?_
    obtain ⟨caller, -, rfl⟩ := step_unregisterHost h
    rcases unregisterHost_cases r.inner deviceId endpointId caller.connId with
      ⟨_, -, -, hu⟩ | ⟨-, hu⟩
    · simp [PeerRegistry.update, hu] at hh
    · rw [PeerRegistry.update, hu] at hh
      exact hr.endpoint _ host hh
  | updateHost tx deviceId endpointId update =>
    obtain ⟨lines, hc, hq, -⟩ := step_host_effect h rfl
    refine hr.change hc hq fun host hh => ?_
    obtain ⟨caller, -, ⟨-, rfl⟩ | ⟨host₀, hh₀, -, rfl⟩⟩ := step_updateHost h
    · exact hr.endpoint _ host hh
    · cases (OrderedMap.get?_set_self ..).symm.trans hh
      exact hr.endpoint _ host₀ hh₀
  | registerOwner tx ownerId =>
    obtain ⟨-, rfl⟩ := step_registerOwner h
    exact ⟨hr.endpoint, by rw [PeerRegistry.register, List.append_nil]; exact hr.queued⟩
  | unregisterOwner tx ownerId =>
    obtain ⟨caller, -, rfl⟩ := step_unregisterOwner h
    refine ⟨?_, by rw [PeerRegistry.update, List.append_nil]; exact hr.queued⟩
    rw [PeerRegistry.update, unregisterOwner_endpoints]
    exact hr.endpoint
  | subscribeEndpoints tx ownerId deviceIds =>
    obtain ⟨caller, -, ⟨-, rfl⟩ | ⟨⟨inner, snapshots⟩, hs, rfl⟩⟩ := step_subscribeEndpoints h
    · exact ⟨hr.endpoint, by rw [PeerRegistry.update, List.append_nil]; exact hr.queued⟩
    · obtain ⟨wire, hwire⟩ := hop
      obtain ⟨owner, -, hend, -, rfl⟩ := subscribeEndpoints_eq_some hs
      refine ⟨by rw [PeerRegistry.update, hend]; exact hr.endpoint, fun n hn => ?_⟩
      rw [PeerRegistry.update, List.mem_append] at hn
      rcases hn with hn | hn
      · exact hr.queued n hn
      · obtain ⟨d, hd, rfl⟩ := List.mem_map.mp hn
        refine ⟨parseSubscribeEndpoints_ok hwire d (List.mem_dedup.mp hd), fun id hid => ?_⟩
        obtain ⟨info, hinfo, hid⟩ := List.mem_flatMap.mp hid
        obtain ⟨⟨key, host⟩, he, rfl⟩ := List.mem_map.mp hinfo
        have hget := OrderedMap.mem_entries_iff.mp (List.mem_filter.mp he).1
        rw [hend] at hget
        obtain ⟨-, he', hrt⟩ := hr.endpoint key host hget
        rcases List.mem_pair.mp hid with rfl | rfl
        · exact he'
        · exact hrt

theorem accepted_run {ops : List Operation} {r : PeerRegistry}
    (hops : ∀ op ∈ ops, AcceptedOperation op) (h : run PeerRegistry.step .new ops = some r) :
    Accepted r := by
  suffices ∀ (ops : List Operation) (r₀ : PeerRegistry), Accepted r₀ →
      (∀ op ∈ ops, AcceptedOperation op) → run PeerRegistry.step r₀ ops = some r → Accepted r from
    this ops .new accepted_new hops h
  intro ops
  induction ops with
  | nil =>
    intro r₀ h₀ _ h
    cases h
    exact h₀
  | cons op ops ih =>
    intro r₀ h₀ hops h
    obtain ⟨t, ht, h⟩ := run_cons_eq_some.mp h
    exact ih t (accepted_step r₀ op t h₀ (hops op List.mem_cons_self) ht)
      (fun op' hop' => hops op' (List.mem_cons_of_mem _ hop')) h

/-! ## Which lines are read -/

/-- The metadata that a line carries. -/
def lineMetadata : ControlLine → List Relay.EndpointMetadata
  | .endpoints _ infos => infos.map Relay.EndpointInfo.metadata
  | .announced _ _ _ metadata | .updated _ _ _ metadata => [metadata]
  | .ended _ _ _ => []

/-- The numbers of the metadata are doubles. -/
def DoubleNumbers (m : Relay.EndpointMetadata) : Prop :=
  (∀ n ∈ m.pid, IsDouble (n : ℤ)) ∧ ∀ z ∈ m.startedAt, IsDouble z

/-- Every id of the line has the version and the variant digit of a standard UUID,
    and every number is a double. -/
def Readable (line : ControlLine) : Prop :=
  (∀ id ∈ lineIds line, hasVersionAndVariant id = true) ∧
    ∀ m ∈ lineMetadata line, DoubleNumbers m

theorem map_nearestDouble_eq {α : Type} {number : α → ℤ} {value : Option α} :
    (value.map fun a => ((nearestDouble (number a) : ℤ) : ℚ)) =
        (value.map fun a => ((number a : ℤ) : ℚ)) ↔
      ∀ a ∈ value, IsDouble (number a) := by
  cases value with
  | none => simp
  | some a => simp [nearestDouble_eq_self]

theorem readMetadata_eq {m : Relay.EndpointMetadata} :
    readMetadata nearestDouble m = readMetadata id m ↔ DoubleNumbers m := by
  rw [DoubleNumbers, ← map_nearestDouble_eq, ← map_nearestDouble_eq]
  simp only [readMetadata, EndpointMetadata.mk.injEq, true_and, and_true, id]

theorem readLine_eq {line : ControlLine} :
    readLine nearestDouble line = readLine id line ↔ ∀ m ∈ lineMetadata line, DoubleNumbers m := by
  cases line with
  | endpoints d infos =>
    simp only [readLine, ControlFrame.endpoints.injEq, true_and, lineMetadata, List.map_inj_left,
      readEndpoint, EndpointInfo.mk.injEq, readMetadata_eq, List.mem_map, forall_exists_index,
      and_imp, forall_apply_eq_imp_iff₂]
  | announced d e rt m | updated d e rt m =>
    simp [readLine, lineMetadata, readMetadata_eq]
  | ended d e rt => simp [readLine, lineMetadata]

theorem isId_of_canonical {id : String} (h : IsCanonicalId id) : isId id = true := by
  have hbound : ∀ chars : List Char,
      chars.length ≤ (chars.map fun c => if c.toNat < 0x10000 then 1 else 2).sum ∧
        (chars.map fun c => if c.toNat < 0x10000 then 1 else 2).sum ≤ 2 * chars.length := by
    intro chars
    induction chars with
    | nil => simp
    | cons c cs ih =>
      rw [List.map_cons, List.sum_cons, List.length_cons]
      split_ifs <;> omega
  obtain ⟨hlow, hhigh⟩ := hbound id.toList
  rw [h.length] at hlow hhigh
  rw [isId, Protocol.utf16Length, Bool.and_eq_true, decide_eq_true_eq, decide_eq_true_eq]
  omega

/-- The browser reads an accepted line as it was meant exactly when it is readable. -/
theorem decode_line_iff {line : ControlLine} (ha : AcceptedLine line) :
    decodeControlFrame line.json = some (readLine id line) ↔ Readable line := by
  have hd : line.json.member? "device_id" = some (.string line.deviceId) := by cases line <;> rfl
  have hids : (∀ id ∈ lineIds line, isUuid id = true) ↔
      ∀ id ∈ lineIds line, hasVersionAndVariant id = true :=
    forall₂_congr fun id hid => by rw [isUuid_of_relay (ha.ids id hid)]
  rw [decodeControlFrame_json (isId_of_canonical ha.device) hd, Readable, ← hids, ← readLine_eq]
  by_cases h : ∀ id ∈ lineIds line, isUuid id = true
  · rw [if_pos h, Option.some.injEq]
    exact (and_iff_right h).symm
  · rw [if_neg h]
    exact iff_of_false (by simp) fun he => h he.1

/-- **Control lines in the browser.** In every registry built from frames that the
    relay accepted, a queued line is decoded to its device, endpoints, runtimes and
    metadata exactly when its UUIDs have a version and a variant digit and its
    numbers are doubles. -/
theorem queued_lines_read_iff {ops : List Operation} {r : PeerRegistry}
    (hops : ∀ op ∈ ops, AcceptedOperation op) (h : run PeerRegistry.step .new ops = some r) :
    ∀ n ∈ r.queued, decodeControlFrame n.2.json = some (readLine id n.2) ↔ Readable n.2 :=
  fun n hn => decode_line_iff ((accepted_run hops h).queued n hn)

/-! ### A device with two endpoints -/

/-- The key of 32 zero bytes. -/
def zeroKey : String := "AAAAAAAAAAAAAAAAAAAAAAAAAAAAAAAAAAAAAAAAAAA="

/-- The hello of a host on the device `zeroKey`, authorizing the Owner `zeroKey`. -/
def helloWire (endpointId : String) : HelloWire where
  frameType := "hello"
  protocolVersion := 2
  role := .host
  pubkey := zeroKey
  endpointId := some endpointId
  runtimeInstanceId := some "22222222-2222-4222-8222-222222222222"
  metadata := some ⟨.daemon, none, none, some 42, none, none, none, none⟩
  authorizedOwnerIds := some [zeroKey]

def helloOf (endpointId : String) : HostHello where
  deviceId := zeroKey
  endpointId := endpointId
  runtimeInstanceId := "22222222-2222-4222-8222-222222222222"
  metadata := ⟨.daemon, none, none, some 42, none, none, none, none⟩
  authorizedOwnerIds := [zeroKey]

/-- Two endpoints register on one device; their Owner connects and subscribes to it. -/
def twoEndpoints (endpointId : String) : List Operation :=
  [.registerHost 1 (helloOf "11111111-1111-4111-8111-111111111111"),
    .registerHost 2 (helloOf endpointId), .registerOwner 0 zeroKey,
    .subscribeEndpoints 0 zeroKey [zeroKey]]

theorem isCanonicalId_zeroKey : IsCanonicalId zeroKey := by rfl

/-- The frames of these connections. -/
theorem twoEndpoints_accepted {endpointId : String} (h : Relay.isUuid endpointId = true) :
    ∀ op ∈ twoEndpoints endpointId, AcceptedOperation op := by
  have hkeys : ∀ id ∈ [zeroKey], IsCanonicalId id := by
    intro id hid
    rw [List.mem_singleton.mp hid]
    exact isCanonicalId_zeroKey
  have hhello : ∀ {endpointId : String}, Relay.isUuid endpointId = true →
      parseHello (helloWire endpointId) = .ok (.host (helloOf endpointId)) := by
    intro endpointId h
    have hruntime : Relay.isUuid "22222222-2222-4222-8222-222222222222" = true := by decide
    exact parseHello_of_host (helloOf endpointId) isCanonicalId_zeroKey h hruntime hkeys
  intro op hop
  simp only [twoEndpoints, List.mem_cons, List.not_mem_nil, or_false] at hop
  rcases hop with rfl | rfl | rfl | rfl
  · exact ⟨_, hhello (by decide)⟩
  · exact ⟨_, hhello h⟩
  · exact ⟨_, parseHello_of_owner isCanonicalId_zeroKey⟩
  · exact ⟨_, parseSubscribeEndpoints_of_ids hkeys⟩

theorem queued_lines_read_two_endpoints :
    ∃ r, run PeerRegistry.step .new
        (twoEndpoints "33333333-3333-4333-8333-333333333333") = some r ∧
      ∀ n ∈ r.queued, decodeControlFrame n.2.json = some (readLine id n.2) ↔ Readable n.2 := by
  obtain ⟨r, hr⟩ : ∃ r, run PeerRegistry.step .new
      (twoEndpoints "33333333-3333-4333-8333-333333333333") = some r :=
    Option.isSome_iff_exists.mp (by decide)
  exact ⟨r, hr, queued_lines_read_iff (twoEndpoints_accepted (by decide)) hr⟩

/-- The relay accepts the nil UUID, and the browser then sees no endpoint of the device. -/
theorem nil_uuid_hides_device :
    ∃ ops r, (∀ op ∈ ops, AcceptedOperation op) ∧ run PeerRegistry.step .new ops = some r ∧
      ∃ n ∈ r.queued, n.2.deviceId = zeroKey ∧
        "11111111-1111-4111-8111-111111111111" ∈ lineIds n.2 ∧
        decodeControlFrame n.2.json = none := by
  have hall : (run PeerRegistry.step .new
      (twoEndpoints "00000000-0000-0000-0000-000000000000")).any (fun r =>
        r.queued.any fun n => decide (n.2.deviceId = zeroKey ∧
          "11111111-1111-4111-8111-111111111111" ∈ lineIds n.2 ∧
          decodeControlFrame n.2.json = none)) = true := by
    decide
  obtain ⟨r, hr, hq⟩ := (Option.any_eq_true _ _).mp hall
  obtain ⟨n, hn, hd⟩ := List.any_eq_true.mp hq
  exact ⟨_, r, twoEndpoints_accepted (by decide), hr, n, hn, of_decide_eq_true hd⟩

end RemotePi.Pwa
