import RemotePi.Relay.Notifications

/-!
# What an Owner learns from the relay

Model of `PeerRegistry` (`relay/src/peers/registry.rs`) at the level of its
callers: every operation together with its notifications is one step. A caller is
named by the queue that it registered; it passes the connection id that
`fetch_add` gave it, with any other arguments. The two route operations neither
change the registry nor queue control lines.

Results:
* `Valid.step`, `valid_run`: what an Owner connection has been sent folds to what
  the registry holds for it.
* `Alike.step_both`, `Alike.step_hidden`: two runs that an Owner cannot tell apart
  stay so.
* `visibility_exact_and_confined`: both, for all sequences of operations.
* `update_reveals_metadata`: an update of the ACL alone shows the Owner the
  metadata that was registered when it was not authorized.
-/

namespace RemotePi.Relay

open RemotePi.Lib

/-! ## The operations -/

/-- What a caller got when it registered its queue. -/
structure Caller where
  connId : ℕ
  ownerId : Option String
deriving DecidableEq

/-- The registry, the ids its callers hold, and every control line queued so far,
    oldest first. -/
structure PeerRegistry where
  nextConnId : ℕ
  inner : RegistryInner
  callers : OrderedMap Outbound Caller
  queued : Notifications
deriving DecidableEq

def PeerRegistry.new : PeerRegistry := ⟨0, .empty, .empty, []⟩

inductive Operation where
  | registerHost (tx : Outbound) (hello : HostHello)
  | registerOwner (tx : Outbound) (ownerId : String)
  | unregisterHost (tx : Outbound) (deviceId endpointId : String)
  | unregisterOwner (tx : Outbound) (ownerId : String)
  | subscribeEndpoints (tx : Outbound) (ownerId : String) (deviceIds : List String)
  | updateHost (tx : Outbound) (deviceId endpointId : String) (update : EndpointUpdate)
deriving DecidableEq, Repr

/-- A registration takes the next connection id. -/
def PeerRegistry.register (r : PeerRegistry) (tx : Outbound) (ownerId : Option String)
    (inner : RegistryInner) (lines : Notifications) : PeerRegistry where
  nextConnId := r.nextConnId + 1
  inner := inner
  callers := r.callers.set tx ⟨r.nextConnId, ownerId⟩
  queued := r.queued ++ lines

/-- Any other operation. -/
def PeerRegistry.update (r : PeerRegistry) (inner : RegistryInner) (lines : Notifications) :
    PeerRegistry :=
  { r with inner, queued := r.queued ++ lines }

/-- One operation with its notifications. A queue is registered once, and only by
    registering does a caller get an id to pass. -/
def PeerRegistry.step (r : PeerRegistry) : Operation → Option PeerRegistry
  | .registerHost tx hello =>
    if r.callers.contains tx then none
    else
      let result := registerHost r.inner r.nextConnId hello tx
      some (r.register tx none result.1 result.2)
  | .registerOwner tx ownerId =>
    if r.callers.contains tx then none
    else some (r.register tx (some ownerId) (registerOwner r.inner r.nextConnId ownerId tx) [])
  | .unregisterHost tx deviceId endpointId =>
    (r.callers.get? tx).map fun caller =>
      let result := unregisterHost r.inner deviceId endpointId caller.connId
      r.update result.1 result.2
  | .unregisterOwner tx ownerId =>
    (r.callers.get? tx).map fun caller =>
      r.update (unregisterOwner r.inner ownerId caller.connId) []
  | .subscribeEndpoints tx ownerId deviceIds =>
    (r.callers.get? tx).map fun caller =>
      match subscribeEndpoints r.inner ownerId caller.connId deviceIds with
      | some result => r.update result.1 result.2
      | none => r.update r.inner []
  | .updateHost tx deviceId endpointId update =>
    (r.callers.get? tx).map fun caller =>
      match updateHost r.inner deviceId endpointId caller.connId update with
      | some result => r.update result.1 result.2
      | none => r.update r.inner []

/-- The endpoint an operation is about; none for the operations of Owners. -/
def Operation.key? : Operation → Option EndpointKey
  | .registerHost _ hello => some (hello.deviceId, hello.endpointId)
  | .unregisterHost _ deviceId endpointId | .updateHost _ deviceId endpointId _ =>
    some (deviceId, endpointId)
  | .registerOwner _ _ | .unregisterOwner _ _ | .subscribeEndpoints _ _ _ => none

/-- The Owner an operation is for; none for the operations of hosts. -/
def Operation.ownerId? : Operation → Option String
  | .registerOwner _ ownerId | .unregisterOwner _ ownerId | .subscribeEndpoints _ ownerId _ =>
    some ownerId
  | .registerHost _ _ | .unregisterHost _ _ _ | .updateHost _ _ _ _ => none

/-- The caller that operates. -/
def Operation.tx : Operation → Outbound
  | .registerHost tx _ | .registerOwner tx _ | .unregisterHost tx _ _ | .unregisterOwner tx _
  | .subscribeEndpoints tx _ _ | .updateHost tx _ _ _ => tx

/-! ## The effect of an operation -/

theorem step_registerHost {r r' : PeerRegistry} {tx : Outbound} {hello : HostHello}
    (h : r.step (.registerHost tx hello) = some r') :
    r.callers.get? tx = none ∧
      r' = r.register tx none (registerHost r.inner r.nextConnId hello tx).1
        (registerHost r.inner r.nextConnId hello tx).2 := by
  simp only [PeerRegistry.step] at h
  split_ifs at h with hc
  cases h
  exact ⟨by simpa [OrderedMap.contains] using hc, rfl⟩

theorem step_registerOwner {r r' : PeerRegistry} {tx : Outbound} {ownerId : String}
    (h : r.step (.registerOwner tx ownerId) = some r') :
    r.callers.get? tx = none ∧
      r' = r.register tx (some ownerId) (registerOwner r.inner r.nextConnId ownerId tx) [] := by
  simp only [PeerRegistry.step] at h
  split_ifs at h with hc
  cases h
  exact ⟨by simpa [OrderedMap.contains] using hc, rfl⟩

theorem step_unregisterHost {r r' : PeerRegistry} {tx : Outbound} {deviceId endpointId : String}
    (h : r.step (.unregisterHost tx deviceId endpointId) = some r') :
    ∃ caller, r.callers.get? tx = some caller ∧
      r' = r.update (unregisterHost r.inner deviceId endpointId caller.connId).1
        (unregisterHost r.inner deviceId endpointId caller.connId).2 := by
  obtain ⟨caller, hc, rfl⟩ := Option.map_eq_some_iff.mp h
  exact ⟨caller, hc, rfl⟩

theorem step_unregisterOwner {r r' : PeerRegistry} {tx : Outbound} {ownerId : String}
    (h : r.step (.unregisterOwner tx ownerId) = some r') :
    ∃ caller, r.callers.get? tx = some caller ∧
      r' = r.update (unregisterOwner r.inner ownerId caller.connId) [] := by
  obtain ⟨caller, hc, rfl⟩ := Option.map_eq_some_iff.mp h
  exact ⟨caller, hc, rfl⟩

/-- A subscription is accepted from a registered connection only. -/
theorem step_subscribeEndpoints {r r' : PeerRegistry} {tx : Outbound} {ownerId : String}
    {deviceIds : List String} (h : r.step (.subscribeEndpoints tx ownerId deviceIds) = some r') :
    ∃ caller, r.callers.get? tx = some caller ∧
      ((r.inner.ownerConnection ownerId caller.connId = none ∧ r' = r.update r.inner []) ∨
        ∃ result, subscribeEndpoints r.inner ownerId caller.connId deviceIds = some result ∧
          r' = r.update result.1 result.2) := by
  obtain ⟨caller, hc, rfl⟩ := Option.map_eq_some_iff.mp h
  refine ⟨caller, hc, ?_⟩
  split
  · next result hs => exact Or.inr ⟨result, hs, rfl⟩
  · next hs =>
    refine Or.inl ⟨?_, rfl⟩
    simp only [subscribeEndpoints] at hs
    split at hs
    · next ho => simp [RegistryInner.ownerConnection, ho]
    · next connections ho =>
      split at hs
      · next hn => simp [RegistryInner.ownerConnection, ho, hn]
      · cases hs

/-- An update is accepted from the caller that holds the endpoint only. -/
theorem step_updateHost {r r' : PeerRegistry} {tx : Outbound} {deviceId endpointId : String}
    {update : EndpointUpdate} (h : r.step (.updateHost tx deviceId endpointId update) = some r') :
    ∃ caller, r.callers.get? tx = some caller ∧
      (((∀ host, r.inner.endpoints.get? (deviceId, endpointId) = some host →
            host.connId ≠ caller.connId) ∧ r' = r.update r.inner []) ∨
        ∃ host, r.inner.endpoints.get? (deviceId, endpointId) = some host ∧
          host.connId = caller.connId ∧
          r' = r.update
            { r.inner with
              endpoints := r.inner.endpoints.set (deviceId, endpointId) (update.apply host) }
            (visibilityDelta
              { r.inner with
                endpoints := r.inner.endpoints.set (deviceId, endpointId) (update.apply host) }
              (deviceId, endpointId) (some host) (some (update.apply host)))) := by
  obtain ⟨caller, hc, rfl⟩ := Option.map_eq_some_iff.mp h
  refine ⟨caller, hc, ?_⟩
  split
  · next result hs =>
    obtain ⟨inner', notifications⟩ := result
    obtain ⟨host, hh, hi, rfl, rfl⟩ := updateHost_eq_some hs
    exact Or.inr ⟨host, hh, hi, rfl⟩
  · next hs =>
    refine Or.inl ⟨fun host hh he => ?_, rfl⟩
    simp [updateHost, hh, he] at hs

/-- What an operation on the endpoint `key` does to the registry, with the lines it
    queues: nothing, or a change of this endpoint that is notified. -/
structure HostChange (inner inner' : RegistryInner) (key : EndpointKey) (lines : Notifications) :
    Prop where
  owners : inner'.owners = inner.owners
  other : ∀ key', key' ≠ key → inner'.endpoints.get? key' = inner.endpoints.get? key'
  queued : (inner' = inner ∧ lines = []) ∨
    lines = visibilityDelta inner' key (inner.endpoints.get? key) (inner'.endpoints.get? key)

theorem hostChange_stale (inner : RegistryInner) (key : EndpointKey) :
    HostChange inner inner key [] :=
  ⟨rfl, fun _ _ => rfl, Or.inl ⟨rfl, rfl⟩⟩

theorem hostChange_set (inner : RegistryInner) (key : EndpointKey) (host : HostConnection) :
    HostChange inner { inner with endpoints := inner.endpoints.set key host } key
      (visibilityDelta { inner with endpoints := inner.endpoints.set key host } key
        (inner.endpoints.get? key) (some host)) := by
  refine ⟨rfl, fun key' hk => OrderedMap.get?_set_of_ne _ host hk, Or.inr ?_⟩
  rw [OrderedMap.get?_set_self]

theorem hostChange_erase (inner : RegistryInner) (key : EndpointKey) :
    HostChange inner { inner with endpoints := inner.endpoints.erase key } key
      (visibilityDelta { inner with endpoints := inner.endpoints.erase key } key
        (inner.endpoints.get? key) none) := by
  refine ⟨rfl, fun key' hk => OrderedMap.get?_erase_of_ne _ hk, Or.inr ?_⟩
  rw [OrderedMap.get?_erase_self]

theorem hostChange_register (inner : RegistryInner) (connId : ℕ) (hello : HostHello)
    (tx : Outbound) :
    HostChange inner (registerHost inner connId hello tx).1 (hello.deviceId, hello.endpointId)
      (registerHost inner connId hello tx).2 := by
  have h := hostChange_set inner (hello.deviceId, hello.endpointId)
    ⟨connId, hello.runtimeInstanceId, hello.metadata, hello.authorizedOwnerIds, tx⟩
  simpa only [registerHost, OrderedMap.get?_set_self] using h

theorem hostChange_unregister (inner : RegistryInner) (deviceId endpointId : String)
    (connId : ℕ) :
    HostChange inner (unregisterHost inner deviceId endpointId connId).1 (deviceId, endpointId)
      (unregisterHost inner deviceId endpointId connId).2 := by
  rcases unregisterHost_cases inner deviceId endpointId connId with ⟨host, hh, -, he⟩ | ⟨-, he⟩
  · rw [he, ← hh]
    exact hostChange_erase inner (deviceId, endpointId)
  · rw [he]
    exact hostChange_stale inner _

/-- The operations of hosts: which registry they leave and what they queue. -/
theorem step_host {r r' : PeerRegistry} {op : Operation} {key : EndpointKey}
    (h : r.step op = some r') (hk : op.key? = some key) :
    ∃ inner lines, HostChange r.inner inner key lines ∧
      ((r.callers.get? op.tx = none ∧ r' = r.register op.tx none inner lines) ∨
        ((∃ caller, r.callers.get? op.tx = some caller) ∧ r' = r.update inner lines)) := by
  cases op with
  | registerHost tx hello =>
    cases hk
    obtain ⟨hn, rfl⟩ := step_registerHost h
    exact ⟨_, _, hostChange_register .., Or.inl ⟨hn, rfl⟩⟩
  | unregisterHost tx deviceId endpointId =>
    cases hk
    obtain ⟨caller, hc, rfl⟩ := step_unregisterHost h
    exact ⟨_, _, hostChange_unregister .., Or.inr ⟨⟨caller, hc⟩, rfl⟩⟩
  | updateHost tx deviceId endpointId update =>
    cases hk
    obtain ⟨caller, hc, ⟨-, rfl⟩ | ⟨host, hh, -, rfl⟩⟩ := step_updateHost h
    · exact ⟨_, _, hostChange_stale .., Or.inr ⟨⟨caller, hc⟩, rfl⟩⟩
    · refine ⟨_, _, ?_, Or.inr ⟨⟨caller, hc⟩, rfl⟩⟩
      rw [← hh]
      exact hostChange_set ..
  | registerOwner | unregisterOwner | subscribeEndpoints => cases hk

/-! ## What an Owner connection has been sent -/

/-- The callers hold the ids of their registrations, and the queue of an Owner
    connection folds to what the registry holds for it. -/
structure Valid (r : PeerRegistry) : Prop where
  caller_lt : ∀ tx caller, r.callers.get? tx = some caller → caller.connId < r.nextConnId
  caller_inj : ∀ tx tx' caller caller', r.callers.get? tx = some caller →
    r.callers.get? tx' = some caller' → caller.connId = caller'.connId → tx = tx'
  owner_caller : ∀ o c owner, r.inner.ownerConnection o c = some owner →
    r.callers.get? owner.tx = some ⟨c, some o⟩
  host_caller : ∀ key host, r.inner.endpoints.get? key = some host →
    ∃ ownerId, r.callers.get? host.tx = some ⟨host.connId, ownerId⟩
  unregistered : ∀ tx, r.callers.get? tx = none → linesTo tx r.queued = []
  view_queued : ∀ o c owner, r.inner.ownerConnection o c = some owner →
    ∀ key, key.1 ∈ owner.subscribedDeviceIds →
      view (linesTo owner.tx r.queued) key = visible r.inner o key

theorem valid_new : Valid .new := by
  constructor <;> intros <;> first | rfl | simp_all [PeerRegistry.new, RegistryInner.empty,
    RegistryInner.ownerConnection]

theorem Valid.ownQueues {r : PeerRegistry} (hr : Valid r) : OwnQueues r.inner := by
  intro o c owner o' c' owner' h h' htx
  have h₁ := hr.owner_caller o c owner h
  rw [htx, hr.owner_caller o' c' owner' h'] at h₁
  cases h₁
  exact ⟨rfl, rfl⟩

/-- What a change of an endpoint queues for an Owner connection. -/
theorem HostChange.linesTo_eq {inner inner' : RegistryInner} {key : EndpointKey}
    {lines : Notifications} (h : HostChange inner inner' key lines) (hq : OwnQueues inner)
    {o : String} {c : ℕ} {owner : OwnerConnection} (ho : inner.ownerConnection o c = some owner) :
    (inner' = inner ∧ linesTo owner.tx lines = []) ∨
      linesTo owner.tx lines =
        if key.1 ∈ owner.subscribedDeviceIds then
          (deltaLine key ((inner.endpoints.get? key).map HostSnapshot.from)
            (inner'.endpoints.get? key) o).toList
        else [] := by
  have hsame : inner'.ownerConnection = inner.ownerConnection := by
    funext o c
    rw [RegistryInner.ownerConnection, h.owners]
    rfl
  rcases h.queued with ⟨hi, rfl⟩ | rfl
  · exact Or.inl ⟨hi, rfl⟩
  · exact Or.inr (linesTo_visibilityDelta (by unfold OwnQueues; rw [hsame]; exact hq)
      (hsame ▸ ho) key _ _)

theorem HostChange.linesTo_eq_nil {inner inner' : RegistryInner} {key : EndpointKey}
    {lines : Notifications} (h : HostChange inner inner' key lines) {tx : Outbound}
    (ho : ∀ o c owner, inner.ownerConnection o c = some owner → owner.tx ≠ tx) :
    linesTo tx lines = [] := by
  rcases h.queued with ⟨-, rfl⟩ | rfl
  · rfl
  · refine List.eq_nil_iff_forall_not_mem.mpr fun line hl => ?_
    obtain ⟨o, c, owner, hc, htx, -⟩ := mem_visibilityDelta (mem_linesTo.mp hl)
    rw [RegistryInner.ownerConnection, h.owners] at hc
    exact ho o c owner hc htx

/-- A change of an endpoint and what it queues keep the views exact. -/
theorem Valid.view_change {r : PeerRegistry} (hr : Valid r) {inner : RegistryInner}
    {key : EndpointKey} {lines : Notifications} (h : HostChange r.inner inner key lines)
    {o : String} {c : ℕ} {owner : OwnerConnection} (ho : inner.ownerConnection o c = some owner)
    {key' : EndpointKey} (hk : key'.1 ∈ owner.subscribedDeviceIds) :
    view (linesTo owner.tx (r.queued ++ lines)) key' = visible inner o key' := by
  rw [RegistryInner.ownerConnection, h.owners] at ho
  rw [linesTo_append, view_append, hr.view_queued o c owner ho key' hk]
  rcases h.linesTo_eq hr.ownQueues ho with ⟨rfl, hl⟩ | hl
  · rw [hl]
    rfl
  · rw [hl]
    split_ifs with hd
    · exact deltaLine_act rfl rfl h.other o key'
    · have hne : key' ≠ key := by
        rintro rfl
        exact hd hk
      simp [visible, h.other key' hne]

/-- The callers of the endpoints after an operation of a host. -/
theorem Valid.host_caller_step {r r' : PeerRegistry} (hr : Valid r) {op : Operation}
    {key : EndpointKey} (h : r.step op = some r') (hk : op.key? = some key)
    {key' : EndpointKey} {host : HostConnection} (hh : r'.inner.endpoints.get? key' = some host) :
    ∃ ownerId, r'.callers.get? host.tx = some ⟨host.connId, ownerId⟩ := by
  cases op with
  | registerHost tx hello =>
    obtain ⟨hn, rfl⟩ := step_registerHost h
    have hh' : (r.inner.endpoints.set (hello.deviceId, hello.endpointId)
        ⟨r.nextConnId, hello.runtimeInstanceId, hello.metadata, hello.authorizedOwnerIds,
          tx⟩).get? key' = some host := hh
    rw [OrderedMap.get?_set] at hh'
    split_ifs at hh'
    · cases hh'
      exact ⟨none, OrderedMap.get?_set_self ..⟩
    · obtain ⟨ownerId, ho⟩ := hr.host_caller key' host hh'
      refine ⟨ownerId, ?_⟩
      rw [PeerRegistry.register, OrderedMap.get?_set_of_ne _ _ fun he => ?_, ho]
      rw [he, hn] at ho
      cases ho
  | unregisterHost tx deviceId endpointId =>
    obtain ⟨caller, -, rfl⟩ := step_unregisterHost h
    refine hr.host_caller key' host ?_
    rcases unregisterHost_cases r.inner deviceId endpointId caller.connId with
      ⟨_, _, -, he⟩ | ⟨-, he⟩ <;> simp only [PeerRegistry.update, he] at hh
    · rw [OrderedMap.get?_erase] at hh
      split_ifs at hh
      exact hh
    · exact hh
  | updateHost tx deviceId endpointId update =>
    obtain ⟨caller, -, ⟨-, rfl⟩ | ⟨host₀, hh₀, -, rfl⟩⟩ := step_updateHost h
    · exact hr.host_caller key' host hh
    · simp only [PeerRegistry.update, OrderedMap.get?_set] at hh
      split_ifs at hh
      · cases hh
        exact hr.host_caller _ host₀ hh₀
      · exact hr.host_caller key' host hh
  | registerOwner | unregisterOwner | subscribeEndpoints => cases hk

/-- A registration keeps the ids of the callers apart. -/
theorem Valid.register_callers {r : PeerRegistry} (hr : Valid r) {tx : Outbound}
    (hn : r.callers.get? tx = none) (ownerId : Option String) :
    (∀ tx' caller, (r.callers.set tx ⟨r.nextConnId, ownerId⟩).get? tx' = some caller →
        caller.connId < r.nextConnId + 1) ∧
      (∀ tx₁ tx₂ caller₁ caller₂,
        (r.callers.set tx ⟨r.nextConnId, ownerId⟩).get? tx₁ = some caller₁ →
        (r.callers.set tx ⟨r.nextConnId, ownerId⟩).get? tx₂ = some caller₂ →
        caller₁.connId = caller₂.connId → tx₁ = tx₂) ∧
      (∀ tx' caller, r.callers.get? tx' = some caller →
        (r.callers.set tx ⟨r.nextConnId, ownerId⟩).get? tx' = some caller) := by
  refine ⟨fun tx' caller h => ?_, fun tx₁ tx₂ caller₁ caller₂ h₁ h₂ he => ?_,
    fun tx' caller h => ?_⟩
  · rw [OrderedMap.get?_set] at h
    split_ifs at h
    · cases h
      exact Nat.lt_succ_self _
    · exact Nat.lt_succ_of_lt (hr.caller_lt tx' caller h)
  · rw [OrderedMap.get?_set] at h₁ h₂
    split_ifs at h₁ h₂ with e₁ e₂ e₂
    · rw [e₁, e₂]
    · cases h₁
      exact absurd he.symm (Nat.ne_of_lt (hr.caller_lt tx₂ caller₂ h₂))
    · cases h₂
      exact absurd he (Nat.ne_of_lt (hr.caller_lt tx₁ caller₁ h₁))
    · exact hr.caller_inj tx₁ tx₂ caller₁ caller₂ h₁ h₂ he
  · rw [OrderedMap.get?_set_of_ne _ _ fun he => ?_, h]
    rw [he, hn] at h
    cases h

theorem Valid.step_host {r r' : PeerRegistry} (hr : Valid r) {op : Operation} {key : EndpointKey}
    (h : r.step op = some r') (hk : op.key? = some key) : Valid r' := by
  obtain ⟨inner, lines, hc, ⟨hn, rfl⟩ | ⟨-, rfl⟩⟩ := Relay.step_host h hk
  · obtain ⟨hlt, hinj, hkeep⟩ := hr.register_callers hn none
    refine ⟨hlt, hinj, fun o c owner ho => ?_, fun key' host => hr.host_caller_step h hk,
      fun tx htx => ?_, fun o c owner ho key' => hr.view_change hc ho⟩
    · refine hkeep _ _ (hr.owner_caller o c owner ?_)
      rwa [PeerRegistry.register, RegistryInner.ownerConnection, hc.owners] at ho
    · have htx' : r.callers.get? tx = none := by
        cases hx : r.callers.get? tx with
        | none => rfl
        | some caller => rw [PeerRegistry.register, hkeep tx caller hx] at htx; cases htx
      rw [PeerRegistry.register, linesTo_append, hr.unregistered tx htx',
        hc.linesTo_eq_nil fun o c owner ho he => ?_, List.append_nil]
      rw [← he, hr.owner_caller o c owner ho] at htx'
      cases htx'
  · refine ⟨hr.caller_lt, hr.caller_inj, fun o c owner ho => ?_,
      fun key' host => hr.host_caller_step h hk, fun tx htx => ?_,
      fun o c owner ho key' => hr.view_change hc ho⟩
    · refine hr.owner_caller o c owner ?_
      rwa [PeerRegistry.update, RegistryInner.ownerConnection, hc.owners] at ho
    · have htx' : r.callers.get? tx = none := htx
      rw [PeerRegistry.update, linesTo_append, hr.unregistered tx htx',
        hc.linesTo_eq_nil fun o c owner ho he => ?_, List.append_nil]
      rw [← he, hr.owner_caller o c owner ho] at htx'
      cases htx'

theorem Valid.register_owner {r : PeerRegistry} (hr : Valid r) {tx : Outbound} {ownerId : String}
    (hn : r.callers.get? tx = none) :
    Valid (r.register tx (some ownerId) (registerOwner r.inner r.nextConnId ownerId tx) []) := by
  obtain ⟨hlt, hinj, hkeep⟩ := hr.register_callers hn (some ownerId)
  have hqueued : ∀ tx', linesTo tx' (r.queued ++ []) = linesTo tx' r.queued := fun tx' => by
    rw [List.append_nil]
  refine ⟨hlt, hinj, fun o c owner ho => ?_, fun key' host hh => ?_, fun tx' htx => ?_,
    fun o c owner ho key' hk => ?_⟩
  · rw [PeerRegistry.register, registerOwner_ownerConnection] at ho
    split_ifs at ho with hoc
    · cases ho
      obtain ⟨rfl, rfl⟩ := hoc
      exact OrderedMap.get?_set_self ..
    · exact hkeep _ _ (hr.owner_caller o c owner ho)
  · obtain ⟨id, hid⟩ := hr.host_caller key' host hh
    exact ⟨id, hkeep _ _ hid⟩
  · rw [PeerRegistry.register, hqueued]
    refine hr.unregistered tx' ?_
    cases hx : r.callers.get? tx' with
    | none => rfl
    | some caller => rw [PeerRegistry.register, hkeep tx' caller hx] at htx; cases htx
  · rw [PeerRegistry.register, registerOwner_ownerConnection] at ho
    split_ifs at ho with hoc
    · cases ho
      cases hk
    · rw [PeerRegistry.register, hqueued]
      exact hr.view_queued o c owner ho key' hk

theorem Valid.unregister_owner {r : PeerRegistry} (hr : Valid r) (ownerId : String) (connId : ℕ) :
    Valid (r.update (unregisterOwner r.inner ownerId connId) []) := by
  have hold : ∀ o c owner,
      (unregisterOwner r.inner ownerId connId).ownerConnection o c = some owner →
      r.inner.ownerConnection o c = some owner := by
    intro o c owner ho
    rw [unregisterOwner_ownerConnection] at ho
    split_ifs at ho
    exact ho
  refine ⟨hr.caller_lt, hr.caller_inj, fun o c owner ho => hr.owner_caller o c owner (hold _ _ _ ho),
    fun key' host hh => ?_, fun tx' htx => ?_, fun o c owner ho key' hk => ?_⟩
  · exact hr.host_caller key' host (by simpa [PeerRegistry.update] using hh)
  · simpa [PeerRegistry.update] using hr.unregistered tx' htx
  · rw [PeerRegistry.update, List.append_nil, visible, unregisterOwner_endpoints]
    exact hr.view_queued o c owner (hold _ _ _ ho) key' hk

/-- The lines of a snapshot go to one queue. -/
theorem linesTo_snapshots (tx tx' : Outbound) (f : String → ControlLine) (deviceIds : List String) :
    linesTo tx' (deviceIds.map fun d => (tx, f d)) = if tx = tx' then deviceIds.map f else [] := by
  induction deviceIds with
  | nil => simp [linesTo]
  | cons d ds ih =>
    by_cases h : tx = tx'
    · subst h
      simp [linesTo]
    · simp [linesTo, h]

theorem Valid.subscribe {r : PeerRegistry} (hr : Valid r) {ownerId : String} {connId : ℕ}
    {deviceIds : List String} {result : RegistryInner × Notifications}
    (h : subscribeEndpoints r.inner ownerId connId deviceIds = some result) :
    Valid (r.update result.1 result.2) := by
  obtain ⟨inner, snapshots⟩ := result
  obtain ⟨owner, ho, hend, hconn, rfl⟩ := subscribeEndpoints_eq_some h
  have hcaller := hr.owner_caller ownerId connId owner ho
  refine ⟨hr.caller_lt, hr.caller_inj, fun o c owner' ho' => ?_, fun key' host hh => ?_,
    fun tx' htx => ?_, fun o c owner' ho' key' hk => ?_⟩
  · rw [PeerRegistry.update, hconn] at ho'
    split_ifs at ho' with hoc
    · cases ho'
      obtain ⟨rfl, rfl⟩ := hoc
      exact hcaller
    · exact hr.owner_caller o c owner' ho'
  · rw [PeerRegistry.update, hend] at hh
    exact hr.host_caller key' host hh
  · rw [PeerRegistry.update, linesTo_append, hr.unregistered tx' htx, linesTo_snapshots, if_neg]
    · rfl
    · rintro rfl
      cases hcaller.symm.trans htx
  · rw [PeerRegistry.update, linesTo_append, view_append, linesTo_snapshots]
    rw [PeerRegistry.update, hconn] at ho'
    split_ifs at ho' with hoc
    · cases ho'
      obtain ⟨rfl, rfl⟩ := hoc
      rw [if_pos rfl, snapshots_act, if_pos hk]
    · have hne : owner.tx ≠ owner'.tx := by
        intro he
        exact hoc (hr.ownQueues _ _ _ _ _ _ ho' ho he.symm)
      rw [if_neg hne]
      show view (linesTo owner'.tx r.queued) key' = visible inner o key'
      rw [hr.view_queued o c owner' ho' key' hk, visible, visible, hend]

theorem valid_step (r : PeerRegistry) (op : Operation) (r' : PeerRegistry) (hr : Valid r)
    (h : r.step op = some r') : Valid r' := by
  have hsame : Valid (r.update r.inner []) := by
    rw [PeerRegistry.update, List.append_nil]
    exact hr
  cases op with
  | registerHost => exact hr.step_host h rfl
  | unregisterHost => exact hr.step_host h rfl
  | updateHost => exact hr.step_host h rfl
  | registerOwner tx ownerId =>
    obtain ⟨hn, rfl⟩ := step_registerOwner h
    exact hr.register_owner hn
  | unregisterOwner tx ownerId =>
    obtain ⟨caller, -, rfl⟩ := step_unregisterOwner h
    exact hr.unregister_owner ownerId caller.connId
  | subscribeEndpoints tx ownerId deviceIds =>
    obtain ⟨caller, -, ⟨-, rfl⟩ | ⟨result, hs, rfl⟩⟩ := step_subscribeEndpoints h
    · exact hsame
    · exact hr.subscribe hs

theorem valid_run {ops : List Operation} {r : PeerRegistry}
    (h : run PeerRegistry.step .new ops = some r) : Valid r :=
  invariant_run valid_step valid_new h

/-! ## What an Owner can observe -/

/-- The queue was registered by the Owner. -/
def OwnedBy (r : PeerRegistry) (o : String) (tx : Outbound) : Prop :=
  (r.callers.get? tx).bind Caller.ownerId = some o

instance (r : PeerRegistry) (o : String) (tx : Outbound) : Decidable (OwnedBy r o tx) :=
  inferInstanceAs (Decidable (_ = _))

/-- The queue has a live connection of the Owner, subscribed to `deviceIds`. -/
def Connected (r : PeerRegistry) (o : String) (tx : Outbound) (deviceIds : List String) : Prop :=
  ∃ c, r.inner.ownerConnection o c = some ⟨tx, deviceIds⟩

/-- An endpoint that the Owner may reach: the queue that holds it and what is shown of it. -/
def grant (r : PeerRegistry) (o : String) (key : EndpointKey) : Option (Outbound × EndpointInfo) :=
  ((r.inner.endpoints.get? key).filter fun host => host.authorizedOwnerIds.contains o).map
    fun host => (host.tx, endpointInfo host key.2)

theorem visible_eq_grant (r : PeerRegistry) (o : String) (key : EndpointKey) :
    visible r.inner o key = (grant r o key).map Prod.snd := by
  rw [grant, Option.map_map]
  rfl

/-- Control lines that differ at most in the order of a hash map's entries. -/
def LineAlike : ControlLine → ControlLine → Prop
  | .endpoints deviceId infos, .endpoints deviceId' infos' =>
    deviceId = deviceId' ∧ infos.Perm infos'
  | line, line' => line = line'

theorem LineAlike.refl (line : ControlLine) : LineAlike line line := by
  cases line <;> simp [LineAlike]

theorem LineAlike.symm {line line' : ControlLine} (h : LineAlike line line') :
    LineAlike line' line := by
  cases line <;> cases line' <;> simp_all [LineAlike, List.perm_comm]

theorem forall₂_lineAlike_refl (lines : List ControlLine) : List.Forall₂ LineAlike lines lines :=
  List.forall₂_same.mpr fun line _ => LineAlike.refl line

/-- Two states that the Owner has seen alike. -/
structure Alike (o : String) (r r' : PeerRegistry) : Prop where
  left : Valid r
  right : Valid r'
  owned : ∀ tx, OwnedBy r o tx ↔ OwnedBy r' o tx
  connected : ∀ tx deviceIds, Connected r o tx deviceIds ↔ Connected r' o tx deviceIds
  grants : ∀ key, grant r o key = grant r' o key
  lines : ∀ tx, OwnedBy r o tx →
    List.Forall₂ LineAlike (linesTo tx r.queued) (linesTo tx r'.queued)

theorem Alike.new (o : String) : Alike o .new .new :=
  ⟨valid_new, valid_new, fun _ => Iff.rfl, fun _ _ => Iff.rfl, fun _ => rfl,
    fun _ _ => List.Forall₂.nil⟩

theorem Alike.symm {o : String} {r r' : PeerRegistry} (h : Alike o r r') : Alike o r' r := by
  refine ⟨h.right, h.left, fun tx => (h.owned tx).symm, fun tx d => (h.connected tx d).symm,
    fun key => (h.grants key).symm, fun tx ht => ?_⟩
  exact (h.lines tx ((h.owned tx).mpr ht)).flip.imp fun _ _ hl => LineAlike.symm hl

theorem Alike.visible_eq {o : String} {r r' : PeerRegistry} (h : Alike o r r') (key : EndpointKey) :
    visible r.inner o key = visible r'.inner o key := by
  rw [visible_eq_grant, visible_eq_grant, h.grants]

theorem ownedBy_iff {r : PeerRegistry} {o : String} {tx : Outbound} :
    OwnedBy r o tx ↔ ∃ c, r.callers.get? tx = some ⟨c, some o⟩ := by
  unfold OwnedBy
  cases r.callers.get? tx with
  | none => simp
  | some caller =>
    obtain ⟨c, id⟩ := caller
    simp

theorem Connected.ownedBy {r : PeerRegistry} (hr : Valid r) {o : String} {tx : Outbound}
    {deviceIds : List String} (h : Connected r o tx deviceIds) : OwnedBy r o tx := by
  obtain ⟨c, hc⟩ := h
  exact ownedBy_iff.mpr ⟨c, hr.owner_caller o c _ hc⟩

/-- The line for an Owner that sees an endpoint change from `was` to `is`. -/
def changeLine (key : EndpointKey) (was is : Option EndpointInfo) : Option ControlLine :=
  match was, is with
  | none, some info => some (endpointAnnouncedLine key.1 info)
  | some _, some info => some (endpointUpdatedLine key.1 info)
  | some info, none => some (endpointEndedLine key.1 info)
  | none, none => none

theorem deltaLine_eq_changeLine (inner inner' : RegistryInner) (o : String) (key : EndpointKey) :
    deltaLine key ((inner.endpoints.get? key).map HostSnapshot.from)
        (inner'.endpoints.get? key) o =
      changeLine key (visible inner o key) (visible inner' o key) := by
  unfold deltaLine visible
  cases inner.endpoints.get? key with
  | none =>
    cases inner'.endpoints.get? key with
    | none => rfl
    | some host =>
      by_cases h : o ∈ host.authorizedOwnerIds <;>
        simp [visibilityLine, changeLine, Option.filter_some, h]
  | some host₀ =>
    cases inner'.endpoints.get? key with
    | none =>
      by_cases h₀ : o ∈ host₀.authorizedOwnerIds <;>
        simp [visibilityLine, changeLine, Option.filter_some, h₀, HostSnapshot.from,
          HostSnapshot.endpointInfo, endpointInfo]
    | some host =>
      by_cases h₀ : o ∈ host₀.authorizedOwnerIds <;> by_cases h : o ∈ host.authorizedOwnerIds <;>
        simp [visibilityLine, changeLine, Option.filter_some, h₀, h, HostSnapshot.from,
          HostSnapshot.endpointInfo, endpointInfo]

/-- What a notified change of an endpoint queues for a connected Owner, by what it sees. -/
theorem linesTo_of_connected {r : PeerRegistry} (hr : Valid r) {inner : RegistryInner}
    {key : EndpointKey} (hc : inner.owners = r.inner.owners) {o : String} {tx : Outbound}
    {deviceIds : List String} (h : Connected r o tx deviceIds) :
    linesTo tx (visibilityDelta inner key (r.inner.endpoints.get? key)
        (inner.endpoints.get? key)) =
      if key.1 ∈ deviceIds then
        (changeLine key (visible r.inner o key) (visible inner o key)).toList
      else [] := by
  obtain ⟨c, ho⟩ := h
  have hsame : inner.ownerConnection = r.inner.ownerConnection := by
    funext o c
    rw [RegistryInner.ownerConnection, hc]
    rfl
  have hq : OwnQueues inner := by
    unfold OwnQueues
    rw [hsame]
    exact hr.ownQueues
  have hl := linesTo_visibilityDelta hq (hsame ▸ ho) key (r.inner.endpoints.get? key)
    (inner.endpoints.get? key)
  rwa [deltaLine_eq_changeLine] at hl

/-- An Owner that is not connected is sent nothing. -/
theorem HostChange.linesTo_of_not_connected {r : PeerRegistry} (hr : Valid r)
    {inner : RegistryInner} {key : EndpointKey} {lines : Notifications}
    (hc : HostChange r.inner inner key lines) {o : String} {tx : Outbound} (ht : OwnedBy r o tx)
    (h : ∀ deviceIds, ¬ Connected r o tx deviceIds) : linesTo tx lines = [] := by
  refine hc.linesTo_eq_nil fun o' c' owner ho htx => ?_
  subst htx
  obtain ⟨c, hcaller⟩ := ownedBy_iff.mp ht
  rw [hr.owner_caller o' c' owner ho] at hcaller
  cases hcaller
  exact h owner.subscribedDeviceIds ⟨c', ho⟩

/-- A change of an endpoint that the Owner sees neither before nor after. -/
theorem HostChange.linesTo_hidden {r : PeerRegistry} (hr : Valid r) {inner : RegistryInner}
    {key : EndpointKey} {lines : Notifications} (hc : HostChange r.inner inner key lines)
    {o : String} {tx : Outbound} (ht : OwnedBy r o tx) (hwas : visible r.inner o key = none)
    (his : visible inner o key = none) : linesTo tx lines = [] := by
  by_cases hex : ∃ deviceIds, Connected r o tx deviceIds
  · obtain ⟨deviceIds, h⟩ := hex
    rcases hc.queued with ⟨-, rfl⟩ | rfl
    · rfl
    · rw [linesTo_of_connected hr hc.owners h, hwas, his]
      exact ite_self _
  · exact hc.linesTo_of_not_connected hr ht fun d hd => hex ⟨d, hd⟩

/-- Notified changes of one endpoint that the Owner sees alike. -/
theorem Alike.linesTo_eq {o : String} {r r' : PeerRegistry} (h : Alike o r r')
    {inner inner' : RegistryInner} {key : EndpointKey} {lines lines' : Notifications}
    (hc : HostChange r.inner inner key lines) (hc' : HostChange r'.inner inner' key lines')
    (hl : lines = visibilityDelta inner key (r.inner.endpoints.get? key)
      (inner.endpoints.get? key))
    (hl' : lines' = visibilityDelta inner' key (r'.inner.endpoints.get? key)
      (inner'.endpoints.get? key))
    (hv : visible inner o key = visible inner' o key) {tx : Outbound} (ht : OwnedBy r o tx) :
    linesTo tx lines = linesTo tx lines' := by
  by_cases hex : ∃ deviceIds, Connected r o tx deviceIds
  · obtain ⟨deviceIds, hd⟩ := hex
    rw [hl, hl', linesTo_of_connected h.left hc.owners hd,
      linesTo_of_connected h.right hc'.owners ((h.connected _ _).mp hd), h.visible_eq, hv]
  · have hn : ∀ d, ¬ Connected r o tx d := fun d hd => hex ⟨d, hd⟩
    rw [hc.linesTo_of_not_connected h.left ht hn,
      hc'.linesTo_of_not_connected h.right ((h.owned tx).mp ht) fun d hd =>
        hn d ((h.connected _ _).mpr hd)]

/-! ## Operations that concern an Owner -/

/-- The operation is one of the Owner's, or its endpoint authorizes the Owner before
    or after it. -/
def Concerns (o : String) (r : PeerRegistry) (op : Operation) : Bool :=
  match op.key? with
  | none => op.ownerId? = some o
  | some key =>
    (visible r.inner o key).isSome || (r.step op).any fun r' => (visible r'.inner o key).isSome

/-- The operations differ at most in the membership of other Owners in the ACL. -/
def sameFor (o : String) : Operation → Operation → Bool
  | .registerHost tx hello, .registerHost tx' hello' =>
    tx = tx' ∧ { hello with authorizedOwnerIds := hello'.authorizedOwnerIds } = hello' ∧
      hello.authorizedOwnerIds.contains o = hello'.authorizedOwnerIds.contains o
  | .updateHost tx deviceId endpointId update, .updateHost tx' deviceId' endpointId' update' =>
    tx = tx' ∧ deviceId = deviceId' ∧ endpointId = endpointId' ∧
      update.metadata = update'.metadata ∧
      (update.authorizedOwnerIds.map fun ids => ids.contains o) =
        update'.authorizedOwnerIds.map fun ids => ids.contains o
  | op, op' => op = op'

/-- What an update shows of the endpoint it is about: who holds it, its runtime, and
    the metadata it will have. -/
def shown (r : PeerRegistry) (key : EndpointKey) (update : EndpointUpdate) :
    Option (Outbound × String × EndpointMetadata) :=
  (r.inner.endpoints.get? key).map fun host =>
    (host.tx, host.runtimeInstanceId, update.metadata.getD host.metadata)

/-- An update by which the Owner gains access in one of the states shows the same
    endpoint in both. -/
def showsAlike (o : String) (r r' : PeerRegistry) (op op' : Operation) : Prop :=
  match op with
  | .updateHost _ deviceId endpointId update =>
    (Concerns o r op = true ∨ Concerns o r' op' = true) →
      shown r (deviceId, endpointId) update = shown r' (deviceId, endpointId) update
  | _ => True

/-- The two sequences differ only in operations that do not concern the Owner, and in
    the membership of other Owners in ACLs; operations that both make meet `agree`. -/
inductive Similar (o : String)
    (agree : PeerRegistry → PeerRegistry → Operation → Operation → Prop) :
    PeerRegistry → List Operation → PeerRegistry → List Operation → Prop
  | nil (r r' : PeerRegistry) : Similar o agree r [] r' []
  | hiddenLeft {r r₁ r' : PeerRegistry} {op : Operation} {ops ops' : List Operation}
      (hop : r.step op = some r₁) (hidden : Concerns o r op = false)
      (rest : Similar o agree r₁ ops r' ops') : Similar o agree r (op :: ops) r' ops'
  | hiddenRight {r r' r₁' : PeerRegistry} {op' : Operation} {ops ops' : List Operation}
      (hop' : r'.step op' = some r₁') (hidden : Concerns o r' op' = false)
      (rest : Similar o agree r ops r₁' ops') : Similar o agree r ops r' (op' :: ops')
  | both {r r₁ r' r₁' : PeerRegistry} {op op' : Operation} {ops ops' : List Operation}
      (hop : r.step op = some r₁) (hop' : r'.step op' = some r₁') (same : sameFor o op op' = true)
      (hagree : agree r r' op op') (rest : Similar o agree r₁ ops r₁' ops') :
      Similar o agree r (op :: ops) r' (op' :: ops')

theorem visible_eq_none_of_grant {r : PeerRegistry} {o : String} {key : EndpointKey} :
    visible r.inner o key = none ↔ grant r o key = none := by
  rw [visible_eq_grant, Option.map_eq_none_iff]

/-- A change of an endpoint leaves the other endpoints as they are. -/
theorem HostChange.grant_of_ne {r r₁ : PeerRegistry} {key : EndpointKey} {lines : Notifications}
    (hc : HostChange r.inner r₁.inner key lines) (o : String) {key' : EndpointKey}
    (hk : key' ≠ key) : grant r₁ o key' = grant r o key' := by
  rw [grant, grant, hc.other key' hk]

theorem HostChange.connected_iff {r r₁ : PeerRegistry} {key : EndpointKey} {lines : Notifications}
    (hc : HostChange r.inner r₁.inner key lines) (o : String) (tx : Outbound)
    (deviceIds : List String) : Connected r₁ o tx deviceIds ↔ Connected r o tx deviceIds := by
  unfold Connected RegistryInner.ownerConnection
  rw [hc.owners]

/-- Which queues the Owner holds changes only when it registers one. -/
theorem ownedBy_register {r : PeerRegistry} {o : String} {tx : Outbound} {ownerId : Option String}
    (hn : r.callers.get? tx = none) (hne : ownerId ≠ some o) (inner : RegistryInner)
    (lines : Notifications) (tx' : Outbound) :
    OwnedBy (r.register tx ownerId inner lines) o tx' ↔ OwnedBy r o tx' := by
  rw [OwnedBy, OwnedBy, PeerRegistry.register, OrderedMap.get?_set]
  split_ifs with h
  · subst h
    simp [hn, hne]
  · rfl

/-- An operation of a host, by the registry it leaves and the lines it queues. -/
theorem step_host_effect {r r₁ : PeerRegistry} {op : Operation} {key : EndpointKey}
    (h : r.step op = some r₁) (hk : op.key? = some key) :
    ∃ lines, HostChange r.inner r₁.inner key lines ∧ r₁.queued = r.queued ++ lines ∧
      ∀ o tx, OwnedBy r₁ o tx ↔ OwnedBy r o tx := by
  obtain ⟨inner, lines, hc, ⟨hn, rfl⟩ | ⟨-, rfl⟩⟩ := step_host h hk
  · exact ⟨lines, hc, rfl, fun o tx => ownedBy_register hn (by simp) _ _ tx⟩
  · exact ⟨lines, hc, rfl, fun o tx => Iff.rfl⟩

/-- What an operation of another Owner leaves alone. -/
theorem step_other_owner {r r₁ : PeerRegistry} {op : Operation} {o o' : String}
    (h : r.step op = some r₁) (ho' : op.ownerId? = some o') (hne : o' ≠ o) :
    r₁.inner.endpoints = r.inner.endpoints ∧
      (∀ c, r₁.inner.ownerConnection o c = r.inner.ownerConnection o c) ∧
      ∀ tx, (OwnedBy r₁ o tx ↔ OwnedBy r o tx) ∧
        (Valid r → OwnedBy r o tx → linesTo tx r₁.queued = linesTo tx r.queued) := by
  cases op with
  | registerOwner tx ownerId =>
    cases ho'
    obtain ⟨hn, rfl⟩ := step_registerOwner h
    refine ⟨rfl, fun c => ?_, fun tx' => ⟨ownedBy_register hn (by simpa using hne) _ _ tx',
      fun _ _ => ?_⟩⟩
    · rw [PeerRegistry.register, registerOwner_ownerConnection, if_neg fun hoc => hne hoc.1.symm]
    · rw [PeerRegistry.register, List.append_nil]
  | unregisterOwner tx ownerId =>
    cases ho'
    obtain ⟨caller, -, rfl⟩ := step_unregisterOwner h
    refine ⟨unregisterOwner_endpoints .., fun c => ?_, fun tx' => ⟨Iff.rfl, fun _ _ => ?_⟩⟩
    · rw [PeerRegistry.update, unregisterOwner_ownerConnection, if_neg fun hoc => hne hoc.1.symm]
    · rw [PeerRegistry.update, List.append_nil]
  | subscribeEndpoints tx ownerId deviceIds =>
    cases ho'
    obtain ⟨caller, -, ⟨-, rfl⟩ | ⟨⟨inner, snapshots⟩, hs, rfl⟩⟩ := step_subscribeEndpoints h
    · refine ⟨rfl, fun c => rfl, fun tx' => ⟨Iff.rfl, fun _ _ => ?_⟩⟩
      rw [PeerRegistry.update, List.append_nil]
    · obtain ⟨owner, ho, hend, hconn, rfl⟩ := subscribeEndpoints_eq_some hs
      refine ⟨hend, fun c => ?_, fun tx' => ⟨Iff.rfl, fun hr ht => ?_⟩⟩
      · rw [PeerRegistry.update, hconn, if_neg fun hoc => hne hoc.1.symm]
      · rw [PeerRegistry.update, linesTo_append, linesTo_snapshots, if_neg, List.append_nil]
        rintro rfl
        obtain ⟨c, hc⟩ := ownedBy_iff.mp ht
        rw [hr.owner_caller _ _ _ ho] at hc
        cases hc
        exact hne rfl
  | registerHost | unregisterHost | updateHost => cases ho'

theorem Operation.key?_or_ownerId? (op : Operation) :
    (∃ key, op.key? = some key) ∨ (op.key? = none ∧ ∃ ownerId, op.ownerId? = some ownerId) := by
  cases op <;> simp [Operation.key?, Operation.ownerId?]

/-- An operation that does not concern the Owner, made in one of two runs. -/
theorem Alike.step_hidden {o : String} {r r₁ r' : PeerRegistry} (h : Alike o r r') {op : Operation}
    (hop : r.step op = some r₁) (hidden : Concerns o r op = false) : Alike o r₁ r' := by
  have hv₁ := valid_step r op r₁ h.left hop
  rcases op.key?_or_ownerId? with ⟨key, hk⟩ | ⟨hk, o', ho'⟩
  · simp only [Concerns, hk, Bool.or_eq_false_iff, hop, Option.any_some, Option.isSome_eq_false_iff,
      Option.isNone_iff_eq_none] at hidden
    obtain ⟨hwas, his⟩ := hidden
    obtain ⟨lines, hc, hq, howned⟩ := step_host_effect hop hk
    refine ⟨hv₁, h.right, fun tx => (howned o tx).trans (h.owned tx),
      fun tx d => (hc.connected_iff o tx d).trans (h.connected tx d), fun key' => ?_,
      fun tx ht => ?_⟩
    · rw [← h.grants key']
      by_cases hkey : key' = key
      · subst hkey
        rw [visible_eq_none_of_grant.mp hwas, visible_eq_none_of_grant.mp his]
      · exact hc.grant_of_ne o hkey
    · have ht' := (howned o tx).mp ht
      rw [hq, linesTo_append, hc.linesTo_hidden h.left ht' hwas his, List.append_nil]
      exact h.lines tx ht'
  · have hne : o' ≠ o := by
      simpa [Concerns, hk, ho'] using hidden
    obtain ⟨hend, hconn, hother⟩ := step_other_owner hop ho' hne
    refine ⟨hv₁, h.right, fun tx => (hother tx).1.trans (h.owned tx), fun tx d => ?_,
      fun key => ?_, fun tx ht => ?_⟩
    · rw [← h.connected tx d, Connected, Connected]
      simp only [hconn]
    · rw [← h.grants key, grant, grant, hend]
    · have ht' := (hother tx).1.mp ht
      rw [(hother tx).2 h.left ht']
      exact h.lines tx ht'

/-! ## Operations that both runs make -/

/-- An operation on one endpoint that does the same for the Owner in both runs. -/
theorem Alike.host {o : String} {r r₁ r' r₁' : PeerRegistry} (h : Alike o r r')
    {op op' : Operation} {key : EndpointKey} (hop : r.step op = some r₁)
    (hop' : r'.step op' = some r₁') (hk : op.key? = some key) (hk' : op'.key? = some key)
    (hg : grant r₁ o key = grant r₁' o key)
    (hq : (r₁.queued = r.queued ∧ r₁'.queued = r'.queued) ∨
      (r₁.queued = r.queued ++ visibilityDelta r₁.inner key (r.inner.endpoints.get? key)
          (r₁.inner.endpoints.get? key) ∧
        r₁'.queued = r'.queued ++ visibilityDelta r₁'.inner key (r'.inner.endpoints.get? key)
          (r₁'.inner.endpoints.get? key))) : Alike o r₁ r₁' := by
  obtain ⟨lines, hc, hl, howned⟩ := step_host_effect hop hk
  obtain ⟨lines', hc', hl', howned'⟩ := step_host_effect hop' hk'
  refine ⟨valid_step r op r₁ h.left hop, valid_step r' op' r₁' h.right hop',
    fun tx => (howned o tx).trans ((h.owned tx).trans (howned' o tx).symm),
    fun tx d => (hc.connected_iff o tx d).trans
      ((h.connected tx d).trans (hc'.connected_iff o tx d).symm), fun key' => ?_, fun tx ht => ?_⟩
  · by_cases hkey : key' = key
    · rw [hkey, hg]
    · rw [hc.grant_of_ne o hkey, hc'.grant_of_ne o hkey, h.grants]
  · have ht' := (howned o tx).mp ht
    rcases hq with ⟨hq, hq'⟩ | ⟨hq, hq'⟩
    · rw [hq, hq']
      exact h.lines tx ht'
    · have hv : visible r₁.inner o key = visible r₁'.inner o key := by
        rw [visible_eq_grant, visible_eq_grant, hg]
      have he := List.append_cancel_left (hl.symm.trans hq)
      have he' := List.append_cancel_left (hl'.symm.trans hq')
      rw [hl, hl', linesTo_append, linesTo_append, h.linesTo_eq hc hc' he he' hv ht']
      exact List.rel_append (h.lines tx ht') (forall₂_lineAlike_refl _)

/-- The caller holds the endpoint exactly when it registered it. -/
theorem Valid.holds_iff {r : PeerRegistry} (hr : Valid r) {tx : Outbound} {caller : Caller}
    (hc : r.callers.get? tx = some caller) {key : EndpointKey} {host : HostConnection}
    (hh : r.inner.endpoints.get? key = some host) : host.connId = caller.connId ↔ host.tx = tx := by
  obtain ⟨ownerId, ho⟩ := hr.host_caller key host hh
  constructor
  · exact fun he => hr.caller_inj _ _ _ _ ho hc he
  · rintro rfl
    rw [ho] at hc
    cases hc
    rfl

theorem grant_eq_some {r : PeerRegistry} {o : String} {key : EndpointKey}
    {g : Outbound × EndpointInfo} (h : grant r o key = some g) :
    ∃ host, r.inner.endpoints.get? key = some host ∧ host.tx = g.1 := by
  obtain ⟨host, hh, rfl⟩ := Option.map_eq_some_iff.mp h
  exact ⟨host, (Option.filter_eq_some_iff.mp hh).1, rfl⟩

theorem grant_of_get? {r : PeerRegistry} {key : EndpointKey} {host : HostConnection}
    (hh : r.inner.endpoints.get? key = some host) (o : String) :
    grant r o key =
      if host.authorizedOwnerIds.contains o then some (host.tx, endpointInfo host key.2)
      else none := by
  rw [grant, hh, Option.filter_some]
  split_ifs <;> rfl

/-- A registration of an endpoint. -/
theorem Alike.register_host {o : String} {r r₁ r' r₁' : PeerRegistry} (h : Alike o r r')
    {tx : Outbound} {hello hello' : HostHello}
    (hop : r.step (.registerHost tx hello) = some r₁)
    (hop' : r'.step (.registerHost tx hello') = some r₁')
    (hsame : { hello with authorizedOwnerIds := hello'.authorizedOwnerIds } = hello')
    (hacl : hello.authorizedOwnerIds.contains o = hello'.authorizedOwnerIds.contains o) :
    Alike o r₁ r₁' := by
  obtain ⟨deviceId, endpointId, runtimeInstanceId, metadata, acl⟩ := hello
  obtain ⟨deviceId', endpointId', runtimeInstanceId', metadata', acl'⟩ := hello'
  obtain ⟨rfl, rfl, rfl, rfl, -⟩ := HostHello.mk.inj hsame
  have hget : ∀ {r r₁ : PeerRegistry} {hello : HostHello},
      r.step (.registerHost tx hello) = some r₁ →
      r₁.inner.endpoints.get? (hello.deviceId, hello.endpointId) =
          some ⟨r.nextConnId, hello.runtimeInstanceId, hello.metadata, hello.authorizedOwnerIds,
            tx⟩ ∧
        r₁.queued = r.queued ++ visibilityDelta r₁.inner (hello.deviceId, hello.endpointId)
          (r.inner.endpoints.get? (hello.deviceId, hello.endpointId))
          (r₁.inner.endpoints.get? (hello.deviceId, hello.endpointId)) := by
    intro r r₁ hello hop
    obtain ⟨-, rfl⟩ := step_registerHost hop
    exact ⟨OrderedMap.get?_set_self .., rfl⟩
  obtain ⟨hh, hq⟩ := hget hop
  obtain ⟨hh', hq'⟩ := hget hop'
  refine h.host hop hop' rfl rfl ?_ (Or.inr ⟨hq, hq'⟩)
  rw [grant_of_get? hh, grant_of_get? hh']
  exact if_congr (Bool.eq_iff_iff.mp hacl) rfl rfl

/-- An unregistration of an endpoint that authorizes the Owner. -/
theorem Alike.unregister_host {o : String} {r r₁ r' r₁' : PeerRegistry} (h : Alike o r r')
    {tx : Outbound} {deviceId endpointId : String}
    (hop : r.step (.unregisterHost tx deviceId endpointId) = some r₁)
    (hop' : r'.step (.unregisterHost tx deviceId endpointId) = some r₁')
    {g : Outbound × EndpointInfo} (hg : grant r o (deviceId, endpointId) = some g) :
    Alike o r₁ r₁' := by
  have heffect : ∀ {r r₁ : PeerRegistry}, Valid r →
      r.step (.unregisterHost tx deviceId endpointId) = some r₁ →
      grant r o (deviceId, endpointId) = some g →
      (g.1 = tx → grant r₁ o (deviceId, endpointId) = none ∧
        r₁.queued = r.queued ++ visibilityDelta r₁.inner (deviceId, endpointId)
          (r.inner.endpoints.get? (deviceId, endpointId))
          (r₁.inner.endpoints.get? (deviceId, endpointId))) ∧
      (g.1 ≠ tx → grant r₁ o (deviceId, endpointId) = some g ∧ r₁.queued = r.queued) := by
    intro r r₁ hr hop hg
    obtain ⟨caller, hc, rfl⟩ := step_unregisterHost hop
    obtain ⟨host, hh, htx⟩ := grant_eq_some hg
    have hiff := hr.holds_iff hc hh
    rw [htx] at hiff
    rcases unregisterHost_cases r.inner deviceId endpointId caller.connId with
      ⟨host', hh', hid, he⟩ | ⟨hno, he⟩
    · rw [hh] at hh'
      cases hh'
      refine ⟨fun _ => ⟨?_, ?_⟩, fun hne => absurd (hiff.mp hid) hne⟩
      · simp [grant, PeerRegistry.update, he]
      · rw [PeerRegistry.update, he, hh, OrderedMap.get?_erase_self]
    · refine ⟨fun heq => absurd (hiff.mpr heq) (hno host hh), fun _ => ⟨?_, ?_⟩⟩
      · rw [PeerRegistry.update, he]
        exact hg
      · rw [PeerRegistry.update, he, List.append_nil]
  obtain ⟨h₁, h₂⟩ := heffect h.left hop hg
  obtain ⟨h₁', h₂'⟩ := heffect h.right hop' (h.grants _ ▸ hg)
  by_cases htx : g.1 = tx
  · exact h.host hop hop' rfl rfl ((h₁ htx).1.trans (h₁' htx).1.symm)
      (Or.inr ⟨(h₁ htx).2, (h₁' htx).2⟩)
  · exact h.host hop hop' rfl rfl ((h₂ htx).1.trans (h₂' htx).1.symm)
      (Or.inl ⟨(h₂ htx).2, (h₂' htx).2⟩)

/-- An update that shows the Owner the same endpoint in both runs. -/
theorem Alike.update_host {o : String} {r r₁ r' r₁' : PeerRegistry} (h : Alike o r r')
    {tx : Outbound} {deviceId endpointId : String} {update update' : EndpointUpdate}
    (hop : r.step (.updateHost tx deviceId endpointId update) = some r₁)
    (hop' : r'.step (.updateHost tx deviceId endpointId update') = some r₁')
    (hmeta : update.metadata = update'.metadata)
    (hacl : (update.authorizedOwnerIds.map fun ids => ids.contains o) =
      update'.authorizedOwnerIds.map fun ids => ids.contains o)
    (hshown : shown r (deviceId, endpointId) update = shown r' (deviceId, endpointId) update) :
    Alike o r₁ r₁' := by
  obtain ⟨caller, hc, heff⟩ := step_updateHost hop
  obtain ⟨caller', hc', heff'⟩ := step_updateHost hop'
  unfold shown at hshown
  cases hh : r.inner.endpoints.get? (deviceId, endpointId) with
  | none =>
    rw [hh, Option.map_none, eq_comm, Option.map_eq_none_iff] at hshown
    obtain rfl : r₁ = r.update r.inner [] := by simpa [hh] using heff
    obtain rfl : r₁' = r'.update r'.inner [] := by simpa [hshown] using heff'
    refine h.host hop hop' rfl rfl (h.grants _) (Or.inl ⟨List.append_nil _, List.append_nil _⟩)
  | some host =>
    rw [hh, Option.map_some, eq_comm, Option.map_eq_some_iff] at hshown
    obtain ⟨host', hh', hsame⟩ := hshown
    obtain ⟨htx, hruntime, hmetadata⟩ : host'.tx = host.tx ∧
        host'.runtimeInstanceId = host.runtimeInstanceId ∧
        update.metadata.getD host'.metadata = update.metadata.getD host.metadata := by
      simpa only [Prod.mk.injEq] using hsame
    have hiff := h.left.holds_iff hc hh
    have hiff' := h.right.holds_iff hc' hh'
    rw [htx] at hiff'
    rcases heff with ⟨hno, rfl⟩ | ⟨host₀, hh₀, hid, rfl⟩
    · have hne : host.tx ≠ tx := fun he => hno host hh (hiff.mpr he)
      rcases heff' with ⟨-, rfl⟩ | ⟨host₀, hh₀, hid, -⟩
      · exact h.host hop hop' rfl rfl (h.grants _)
          (Or.inl ⟨List.append_nil _, List.append_nil _⟩)
      · rw [hh'] at hh₀
        cases hh₀
        exact absurd (hiff'.mp hid) hne
    · rw [hh] at hh₀
      cases hh₀
      have htx' : host.tx = tx := hiff.mp hid
      rcases heff' with ⟨hno, -⟩ | ⟨host₀, hh₀, -, rfl⟩
      · exact absurd (hiff'.mpr htx') (hno host' hh')
      · rw [hh'] at hh₀
        cases hh₀
        refine h.host hop hop' rfl rfl ?_ (Or.inr ⟨?_, ?_⟩)
        · have hcontains : (update.apply host).authorizedOwnerIds.contains o =
              (update'.apply host').authorizedOwnerIds.contains o := by
            have hg := h.grants (deviceId, endpointId)
            rw [grant_of_get? hh, grant_of_get? hh', htx] at hg
            simp only [EndpointUpdate.apply]
            cases hu : update.authorizedOwnerIds with
            | none =>
              rw [hu, Option.map_none, eq_comm, Option.map_eq_none_iff] at hacl
              rw [hacl, Option.getD_none, Option.getD_none]
              split_ifs at hg with h₁ h₂ h₂ <;> simp_all
            | some ids =>
              rw [hu, Option.map_some, eq_comm, Option.map_eq_some_iff] at hacl
              obtain ⟨ids', hu', he⟩ := hacl
              rw [hu', Option.getD_some, Option.getD_some, he]
          rw [grant_of_get? (OrderedMap.get?_set_self ..),
            grant_of_get? (OrderedMap.get?_set_self ..), hcontains]
          simp only [EndpointUpdate.apply, endpointInfo, htx, hruntime, ← hmeta, hmetadata]
        · rw [PeerRegistry.update, hh, OrderedMap.get?_set_self]
        · rw [PeerRegistry.update, hh', OrderedMap.get?_set_self]

/-- Snapshots of a device on which the Owner sees the same endpoints. -/
theorem deviceSnapshot_alike {inner inner' : RegistryInner} {o deviceId : String}
    (h : ∀ endpointId, visible inner o (deviceId, endpointId) =
      visible inner' o (deviceId, endpointId)) :
    LineAlike (deviceSnapshot inner o deviceId) (deviceSnapshot inner' o deviceId) := by
  have hnodup : ∀ inner : RegistryInner, ((inner.endpoints.entries.filter fun e =>
      decide (e.1.1 = deviceId) && e.2.authorizedOwnerIds.contains o).map
        fun e => endpointInfo e.2 e.1.2).Nodup := by
    intro inner
    refine List.Nodup.map_on ?_ ((List.Nodup.of_map _ inner.endpoints.nodup).filter _)
    intro e he e' he' heq
    simp only [List.mem_filter, Bool.and_eq_true, decide_eq_true_eq] at he he'
    obtain ⟨⟨d, k⟩, host⟩ := e
    obtain ⟨⟨d', k'⟩, host'⟩ := e'
    obtain rfl : d = d' := he.2.1.trans he'.2.1.symm
    obtain rfl : k = k' := congrArg EndpointInfo.endpointId heq
    have hget := OrderedMap.mem_entries_iff.mp he.1
    rw [OrderedMap.mem_entries_iff.mp he'.1] at hget
    cases hget
    rfl
  have hmem : ∀ (inner : RegistryInner) (info : EndpointInfo),
      info ∈ ((inner.endpoints.entries.filter fun e =>
        decide (e.1.1 = deviceId) && e.2.authorizedOwnerIds.contains o).map
          fun e => endpointInfo e.2 e.1.2) ↔
        ∃ endpointId, visible inner o (deviceId, endpointId) = some info := by
    intro inner info
    simp only [List.mem_map, List.mem_filter, Bool.and_eq_true, decide_eq_true_eq, visible,
      Option.map_eq_some_iff, Option.filter_eq_some_iff]
    constructor
    · rintro ⟨⟨⟨d, k⟩, host⟩, ⟨hm, rfl, ha⟩, rfl⟩
      exact ⟨k, host, ⟨OrderedMap.mem_entries_iff.mp hm, ha⟩, rfl⟩
    · rintro ⟨k, host, ⟨hm, ha⟩, rfl⟩
      exact ⟨((deviceId, k), host), ⟨OrderedMap.mem_entries_iff.mpr hm, rfl, ha⟩, rfl⟩
  refine ⟨rfl, (List.perm_ext_iff_of_nodup (hnodup inner) (hnodup inner')).mpr fun info => ?_⟩
  rw [hmem, hmem]
  exact exists_congr fun k => by rw [h k]

theorem OwnedBy.caller {r : PeerRegistry} {o : String} {tx : Outbound} (h : OwnedBy r o tx) :
    ∃ c, r.callers.get? tx = some ⟨c, some o⟩ := ownedBy_iff.mp h

/-- The connection of a caller's id, if it is the Owner's, is that of its queue. -/
theorem Valid.connection_tx {r : PeerRegistry} (hr : Valid r) {o : String} {tx : Outbound}
    {caller : Caller} (hc : r.callers.get? tx = some caller) {owner : OwnerConnection} {c : ℕ}
    (ho : r.inner.ownerConnection o c = some owner) : c = caller.connId ↔ owner.tx = tx := by
  have hown := hr.owner_caller o c owner ho
  constructor
  · rintro rfl
    exact hr.caller_inj _ _ _ _ hown hc rfl
  · rintro rfl
    rw [hown] at hc
    cases hc
    rfl

/-- A connection of the Owner in both runs. -/
theorem Alike.register_owner {o : String} {r r₁ r' r₁' : PeerRegistry} (h : Alike o r r')
    {tx : Outbound} (hop : r.step (.registerOwner tx o) = some r₁)
    (hop' : r'.step (.registerOwner tx o) = some r₁') : Alike o r₁ r₁' := by
  have hv := valid_step r _ r₁ h.left hop
  have hv' := valid_step r' _ r₁' h.right hop'
  obtain ⟨hn, rfl⟩ := step_registerOwner hop
  obtain ⟨hn', rfl⟩ := step_registerOwner hop'
  have howned : ∀ (r : PeerRegistry) (inner : RegistryInner) (tx' : Outbound),
      OwnedBy (r.register tx (some o) inner []) o tx' ↔ tx' = tx ∨ OwnedBy r o tx' := by
    intro r inner tx'
    rw [OwnedBy, OwnedBy, PeerRegistry.register, OrderedMap.get?_set]
    split_ifs with he <;> simp [he]
  have hconn : ∀ {r : PeerRegistry}, Valid r → ∀ tx' deviceIds,
      Connected (r.register tx (some o) (registerOwner r.inner r.nextConnId o tx) []) o tx'
        deviceIds ↔ (tx' = tx ∧ deviceIds = []) ∨ Connected r o tx' deviceIds := by
    intro r hr tx' deviceIds
    unfold Connected
    simp only [PeerRegistry.register, registerOwner_ownerConnection, true_and]
    constructor
    · rintro ⟨c, hc⟩
      split_ifs at hc
      · cases hc
        exact Or.inl ⟨rfl, rfl⟩
      · exact Or.inr ⟨c, hc⟩
    · rintro (⟨rfl, rfl⟩ | ⟨c, hc⟩)
      · exact ⟨r.nextConnId, if_pos rfl⟩
      · refine ⟨c, ?_⟩
        rw [if_neg, hc]
        rintro rfl
        exact Nat.lt_irrefl _ (hr.caller_lt _ _ (hr.owner_caller o _ _ hc))
  refine ⟨hv, hv', fun tx' => ?_, fun tx' d => ?_, h.grants, fun tx' ht => ?_⟩
  · rw [howned, howned, h.owned]
  · rw [hconn h.left, hconn h.right, h.connected]
  · rw [PeerRegistry.register, PeerRegistry.register, List.append_nil, List.append_nil]
    rcases (howned r _ tx').mp ht with rfl | ht'
    · rw [h.left.unregistered _ hn, h.right.unregistered _ hn']
      exact List.Forall₂.nil
    · exact h.lines tx' ht'

theorem Alike.unregister_owner {o : String} {r r₁ r' r₁' : PeerRegistry} (h : Alike o r r')
    {tx : Outbound} (hop : r.step (.unregisterOwner tx o) = some r₁)
    (hop' : r'.step (.unregisterOwner tx o) = some r₁') : Alike o r₁ r₁' := by
  have hv := valid_step r _ r₁ h.left hop
  have hv' := valid_step r' _ r₁' h.right hop'
  obtain ⟨caller, hc, rfl⟩ := step_unregisterOwner hop
  obtain ⟨caller', hc', rfl⟩ := step_unregisterOwner hop'
  have hconn : ∀ {r : PeerRegistry}, Valid r → ∀ {caller : Caller},
      r.callers.get? tx = some caller → ∀ tx' deviceIds,
      Connected (r.update (unregisterOwner r.inner o caller.connId) []) o tx' deviceIds ↔
        tx' ≠ tx ∧ Connected r o tx' deviceIds := by
    intro r hr caller hc tx' deviceIds
    unfold Connected
    simp only [PeerRegistry.update, unregisterOwner_ownerConnection, true_and]
    constructor
    · rintro ⟨c, ho⟩
      split_ifs at ho with hne
      exact ⟨fun he => hne ((hr.connection_tx hc ho).mpr he), c, ho⟩
    · rintro ⟨hne, c, ho⟩
      exact ⟨c, by rw [if_neg fun he => hne ((hr.connection_tx hc ho).mp he), ho]⟩
  refine ⟨hv, hv', h.owned, fun tx' d => ?_, fun key => ?_, fun tx' ht => ?_⟩
  · rw [hconn h.left hc, hconn h.right hc', h.connected]
  · have hg : ∀ (r : PeerRegistry) (connId : ℕ),
        grant (r.update (unregisterOwner r.inner o connId) []) o key = grant r o key := by
      intro r connId
      rw [grant, PeerRegistry.update, unregisterOwner_endpoints]
      rfl
    rw [hg, hg, h.grants]
  · rw [PeerRegistry.update, PeerRegistry.update, List.append_nil, List.append_nil]
    exact h.lines tx' ht

theorem Alike.subscribe {o : String} {r r₁ r' r₁' : PeerRegistry} (h : Alike o r r')
    {tx : Outbound} {deviceIds : List String}
    (hop : r.step (.subscribeEndpoints tx o deviceIds) = some r₁)
    (hop' : r'.step (.subscribeEndpoints tx o deviceIds) = some r₁') : Alike o r₁ r₁' := by
  have hv := valid_step r _ r₁ h.left hop
  have hv' := valid_step r' _ r₁' h.right hop'
  -- What a subscription does, by whether its queue has a live connection.
  have heffect : ∀ {r r₁ : PeerRegistry}, Valid r →
      r.step (.subscribeEndpoints tx o deviceIds) = some r₁ →
      (∀ tx', OwnedBy r₁ o tx' ↔ OwnedBy r o tx') ∧ r₁.inner.endpoints = r.inner.endpoints ∧
      (∀ tx' d, Connected r₁ o tx' d ↔
        if tx' = tx then d = deviceIds.dedup ∧ ∃ d', Connected r o tx d'
        else Connected r o tx' d) ∧
      (∀ tx', linesTo tx' r₁.queued = linesTo tx' r.queued ++
        open Classical in
        if tx' = tx ∧ ∃ d', Connected r o tx d' then
          deviceIds.dedup.map (deviceSnapshot r₁.inner o)
        else []) := by
    intro r r₁ hr hop
    obtain ⟨caller, hc, ⟨hno, rfl⟩ | ⟨⟨inner, snapshots⟩, hs, rfl⟩⟩ := step_subscribeEndpoints hop
    · have hnone : ∀ d, ¬ Connected r o tx d := by
        rintro d ⟨c, ho⟩
        rw [(hr.connection_tx hc ho).mpr rfl, hno] at ho
        cases ho
      refine ⟨fun _ => Iff.rfl, rfl, fun tx' d => ?_, fun tx' => ?_⟩
      · split_ifs with he
        · subst he
          exact ⟨fun hd => absurd hd (hnone d), fun hd => absurd hd.2.choose_spec (hnone _)⟩
        · rfl
      · rw [if_neg fun hd => hnone _ hd.2.choose_spec]
        rw [PeerRegistry.update, List.append_nil, List.append_nil]
    · obtain ⟨owner, ho, hend, hconn, rfl⟩ := subscribeEndpoints_eq_some hs
      have htx : owner.tx = tx := (hr.connection_tx hc ho).mp rfl
      have hlive : ∃ d', Connected r o tx d' :=
        ⟨owner.subscribedDeviceIds, caller.connId, by rw [← htx]; exact ho⟩
      refine ⟨fun _ => Iff.rfl, hend, fun tx' d => ?_, fun tx' => ?_⟩
      · unfold Connected
        simp only [PeerRegistry.update, hconn, true_and]
        constructor
        · rintro ⟨c, hd⟩
          split_ifs at hd with hcid
          · cases hd
            rw [if_pos htx]
            exact ⟨rfl, hlive⟩
          · rw [if_neg fun he => hcid ((hr.connection_tx hc hd).mpr he)]
            exact ⟨c, hd⟩
        · intro hd
          split_ifs at hd with he
          · exact ⟨caller.connId, by rw [if_pos rfl, hd.1, he, htx]⟩
          · obtain ⟨c, hd⟩ := hd
            exact ⟨c, by rw [if_neg fun hcid => he ((hr.connection_tx hc hd).mp hcid), hd]⟩
      · rw [PeerRegistry.update, linesTo_append, linesTo_snapshots, htx]
        congr 1
        by_cases he : tx' = tx
        · rw [if_pos he.symm, if_pos ⟨he, hlive⟩]
        · rw [if_neg (Ne.symm he), if_neg fun hd => he hd.1]
  obtain ⟨howned, hend, hconn, hlines⟩ := heffect h.left hop
  obtain ⟨howned', hend', hconn', hlines'⟩ := heffect h.right hop'
  have hlive : (∃ d', Connected r o tx d') ↔ ∃ d', Connected r' o tx d' :=
    exists_congr fun d' => h.connected tx d'
  refine ⟨hv, hv', fun tx' => (howned tx').trans ((h.owned tx').trans (howned' tx').symm),
    fun tx' d => ?_, fun key => ?_, fun tx' ht => ?_⟩
  · rw [hconn, hconn']
    split_ifs
    · rw [hlive]
    · exact h.connected tx' d
  · rw [grant, grant, hend, hend']
    exact h.grants key
  · rw [hlines, hlines', hlive]
    refine List.rel_append (h.lines tx' ((howned tx').mp ht)) ?_
    split_ifs
    · rw [List.forall₂_map_left_iff, List.forall₂_map_right_iff]
      refine List.forall₂_same.mpr fun d _ => deviceSnapshot_alike fun k => ?_
      rw [visible, visible, hend, hend']
      exact h.visible_eq (d, k)
    · exact List.Forall₂.nil

/-! ## Runs -/

theorem Alike.step_both {o : String} {r r₁ r' r₁' : PeerRegistry} (h : Alike o r r')
    {op op' : Operation} (hop : r.step op = some r₁) (hop' : r'.step op' = some r₁')
    (hsame : sameFor o op op' = true) (hshows : showsAlike o r r' op op') : Alike o r₁ r₁' := by
  -- An operation that concerns the Owner in neither run is hidden in both.
  by_cases hconcerns : Concerns o r op = true ∨ Concerns o r' op' = true
  · cases op with
    | registerHost tx hello =>
      cases op' with
      | registerHost tx' hello' =>
        obtain ⟨rfl, hhello, hacl⟩ := of_decide_eq_true hsame
        exact h.register_host hop hop' hhello hacl
      | _ => simp [sameFor] at hsame
    | updateHost tx deviceId endpointId update =>
      cases op' with
      | updateHost tx' deviceId' endpointId' update' =>
        obtain ⟨rfl, rfl, rfl, hmeta, hacl⟩ := of_decide_eq_true hsame
        exact h.update_host hop hop' hmeta hacl (hshows hconcerns)
      | _ => simp [sameFor] at hsame
    | unregisterHost tx deviceId endpointId =>
      obtain rfl : Operation.unregisterHost tx deviceId endpointId = op' := by
        simpa [sameFor] using hsame
      cases hg : grant r o (deviceId, endpointId) with
      | some g => exact h.unregister_host hop hop' hg
      | none =>
        -- An unregistration authorizes nobody.
        have hnot : ∀ {r r₁ : PeerRegistry},
            r.step (.unregisterHost tx deviceId endpointId) = some r₁ →
            grant r o (deviceId, endpointId) = none →
            Concerns o r (.unregisterHost tx deviceId endpointId) = false := by
          intro r r₁ hop hg
          simp only [Concerns, Operation.key?, hop, Option.any_some, visible_eq_grant, hg,
            Option.map_none, Option.isSome_none, Bool.false_or, Option.isSome_map,
            Option.isSome_eq_false_iff, Option.isNone_iff_eq_none]
          obtain ⟨caller, -, rfl⟩ := step_unregisterHost hop
          rcases unregisterHost_cases r.inner deviceId endpointId caller.connId with
            ⟨_, -, -, he⟩ | ⟨-, he⟩
          · simp [grant, PeerRegistry.update, he]
          · rw [PeerRegistry.update, he]
            exact hg
        rw [hnot hop hg, hnot hop' (h.grants _ ▸ hg)] at hconcerns
        rcases hconcerns with hc | hc <;> cases hc
    | registerOwner tx ownerId =>
      obtain rfl : Operation.registerOwner tx ownerId = op' := by simpa [sameFor] using hsame
      obtain rfl : ownerId = o := by
        simpa [Concerns, Operation.key?, Operation.ownerId?] using hconcerns
      exact h.register_owner hop hop'
    | unregisterOwner tx ownerId =>
      obtain rfl : Operation.unregisterOwner tx ownerId = op' := by simpa [sameFor] using hsame
      obtain rfl : ownerId = o := by
        simpa [Concerns, Operation.key?, Operation.ownerId?] using hconcerns
      exact h.unregister_owner hop hop'
    | subscribeEndpoints tx ownerId deviceIds =>
      obtain rfl : Operation.subscribeEndpoints tx ownerId deviceIds = op' := by
        simpa [sameFor] using hsame
      obtain rfl : ownerId = o := by
        simpa [Concerns, Operation.key?, Operation.ownerId?] using hconcerns
      exact h.subscribe hop hop'
  · rw [not_or, Bool.not_eq_true, Bool.not_eq_true] at hconcerns
    exact ((h.step_hidden hop hconcerns.1).symm.step_hidden hop' hconcerns.2).symm

theorem Similar.alike {o : String} {r r' : PeerRegistry} {ops ops' : List Operation}
    (hs : Similar o (showsAlike o) r ops r' ops') (h : Alike o r r') {t t' : PeerRegistry}
    (ht : run PeerRegistry.step r ops = some t) (ht' : run PeerRegistry.step r' ops' = some t') :
    Alike o t t' := by
  induction hs with
  | nil r r' =>
    cases ht
    cases ht'
    exact h
  | hiddenLeft hop hidden rest ih =>
    obtain ⟨u, hu, ht⟩ := run_cons_eq_some.mp ht
    cases hop.symm.trans hu
    exact ih (h.step_hidden hop hidden) ht ht'
  | hiddenRight hop' hidden rest ih =>
    obtain ⟨u, hu, ht'⟩ := run_cons_eq_some.mp ht'
    cases hop'.symm.trans hu
    exact ih (h.symm.step_hidden hop' hidden).symm ht ht'
  | both hop hop' same hagree rest ih =>
    obtain ⟨u, hu, ht⟩ := run_cons_eq_some.mp ht
    cases hop.symm.trans hu
    obtain ⟨u', hu', ht'⟩ := run_cons_eq_some.mp ht'
    cases hop'.symm.trans hu'
    exact ih (h.step_both hop hop' same hagree) ht ht'

/-- **Visibility is exact and confined.** The lines queued to an Owner connection
    fold, on the devices it subscribes to, to exactly the endpoints that are
    registered and authorize it; and two sequences that differ only in what does not
    concern the Owner, in which an update that opens an endpoint to it opens the same
    endpoint, send the same lines to its queues. -/
theorem visibility_exact_and_confined {ops : List Operation} {r : PeerRegistry}
    (h : run PeerRegistry.step .new ops = some r) :
    (∀ o c owner, r.inner.ownerConnection o c = some owner →
        ∀ key, key.1 ∈ owner.subscribedDeviceIds →
          view (linesTo owner.tx r.queued) key = visible r.inner o key) ∧
      ∀ o ops' r', run PeerRegistry.step .new ops' = some r' →
        Similar o (showsAlike o) .new ops .new ops' → ∀ tx, OwnedBy r o tx →
          OwnedBy r' o tx ∧
            List.Forall₂ LineAlike (linesTo tx r.queued) (linesTo tx r'.queued) := by
  refine ⟨(valid_run h).view_queued, fun o ops' r' h' hs tx ht => ?_⟩
  have halike := hs.alike (Alike.new o) h h'
  exact ⟨(halike.owned tx).mp ht, halike.lines tx ht⟩

/-! ### Two Owners of one device -/

/-- The hello of endpoint `E` of device `D`, in the working directory `cwd`. -/
def helloIn (cwd : String) (authorizedOwnerIds : List String) : HostHello :=
  { sampleHello "R1" with
    metadata := ⟨.interactive, none, some cwd, none, none, none, none, none⟩
    authorizedOwnerIds }

/-- Owner `O` subscribes to `D`, and the endpoint `E` is registered and then updated. -/
def registerAndUpdate (hello : HostHello) (update : EndpointUpdate) : List Operation :=
  [.registerOwner 0 "O", .subscribeEndpoints 0 "O" ["D"], .registerHost 1 hello,
    .updateHost 1 "D" "E" update]

/-- In one run the endpoint is also shared with `P`, and another one only with `P`. -/
theorem visibility_of_shared_endpoint :
    ∃ r r', run PeerRegistry.step .new
        (registerAndUpdate (helloIn "/a" ["O", "P"]) ⟨none, some ["O"]⟩) = some r ∧
      run PeerRegistry.step .new (.registerHost 2 { helloIn "/b" ["P"] with endpointId := "F" } ::
        registerAndUpdate (helloIn "/a" ["O"]) ⟨none, some ["O", "P"]⟩) = some r' ∧
      view (linesTo 0 r.queued) ("D", "E") = visible r.inner "O" ("D", "E") ∧
      List.Forall₂ LineAlike (linesTo 0 r.queued) (linesTo 0 r'.queued) := by
  obtain ⟨r, hr⟩ : ∃ r, run PeerRegistry.step .new
      (registerAndUpdate (helloIn "/a" ["O", "P"]) ⟨none, some ["O"]⟩) = some r :=
    Option.isSome_iff_exists.mp (by decide)
  obtain ⟨r', hr'⟩ : ∃ r', run PeerRegistry.step .new
      (.registerHost 2 { helloIn "/b" ["P"] with endpointId := "F" } ::
        registerAndUpdate (helloIn "/a" ["O"]) ⟨none, some ["O", "P"]⟩) = some r' :=
    Option.isSome_iff_exists.mp (by decide)
  have hall : (run PeerRegistry.step .new
      (registerAndUpdate (helloIn "/a" ["O", "P"]) ⟨none, some ["O"]⟩)).all (fun r =>
        decide (r.inner.ownerConnection "O" 0 = some ⟨0, ["D"]⟩ ∧ OwnedBy r "O" 0)) = true := by
    decide
  rw [hr, Option.all_some, decide_eq_true_eq] at hall
  refine ⟨r, r', hr, hr',
    (visibility_exact_and_confined hr).1 "O" 0 ⟨0, ["D"]⟩ hall.1 ("D", "E") (by decide), ?_⟩
  refine ((visibility_exact_and_confined hr).2 "O" _ r' hr' ?_ 0 hall.2).2
  exact .hiddenRight rfl (by decide) <| .both rfl rfl (by decide) trivial <|
    .both rfl rfl (by decide) trivial <| .both rfl rfl (by decide) trivial <|
    .both rfl rfl (by decide) (fun _ => by decide) <| .nil _ _

/-- Two runs that differ in the metadata of an endpoint registered for nobody: the
    update of its ACL sends the Owner different lines. -/
theorem update_reveals_metadata :
    ∃ r r', run PeerRegistry.step .new
        (registerAndUpdate (helloIn "/a" []) ⟨none, some ["O"]⟩) = some r ∧
      run PeerRegistry.step .new
        (registerAndUpdate (helloIn "/b" []) ⟨none, some ["O"]⟩) = some r' ∧
      Similar "O" (fun _ _ _ _ => True)
        .new (registerAndUpdate (helloIn "/a" []) ⟨none, some ["O"]⟩)
        .new (registerAndUpdate (helloIn "/b" []) ⟨none, some ["O"]⟩) ∧
      OwnedBy r "O" 0 ∧ OwnedBy r' "O" 0 ∧
      ¬ List.Forall₂ LineAlike (linesTo 0 r.queued) (linesTo 0 r'.queued) := by
  have hrun : ∀ cwd ∈ ["/a", "/b"], ∃ r, run PeerRegistry.step .new
      (registerAndUpdate (helloIn cwd []) ⟨none, some ["O"]⟩) = some r ∧ OwnedBy r "O" 0 ∧
      linesTo 0 r.queued =
        [.endpoints "D" [], .announced "D" "E" "R1" (helloIn cwd []).metadata] := by
    intro cwd hcwd
    have hall : (run PeerRegistry.step .new
        (registerAndUpdate (helloIn cwd []) ⟨none, some ["O"]⟩)).any (fun r =>
          decide (OwnedBy r "O" 0 ∧ linesTo 0 r.queued =
            [.endpoints "D" [], .announced "D" "E" "R1" (helloIn cwd []).metadata])) = true := by
      rcases List.mem_cons.mp hcwd with rfl | hcwd
      · decide
      · rw [List.mem_singleton.mp hcwd]
        decide
    obtain ⟨r, hr, hd⟩ := (Option.any_eq_true _ _).mp hall
    exact ⟨r, hr, of_decide_eq_true hd⟩
  obtain ⟨r, hr, hown, hl⟩ := hrun "/a" (by decide)
  obtain ⟨r', hr', hown', hl'⟩ := hrun "/b" (by decide)
  refine ⟨r, r', hr, hr', ?_, hown, hown', fun h => ?_⟩
  · exact .both rfl rfl (by decide) trivial <|
      .both rfl rfl (by decide) trivial <|
      .hiddenLeft rfl (by decide) <| .hiddenRight rfl (by decide) <|
      .both rfl rfl (by decide) trivial <| .nil _ _
  · rw [hl, hl'] at h
    cases h with
    | cons _ h =>
      cases h with
      | cons h _ => exact absurd (ControlLine.announced.inj h).2.2.2 (by decide)

end RemotePi.Relay
