import RemotePi.Relay.Peer

/-!
# Route soundness of the relay

In every run of the relay, a route frame is put on a queue only on behalf of an
authenticated peer that the registry currently knows, and a host connection that
has been replaced has no further effect.

Results:
* `wellFormed_run`: every registry entry belongs to a live connection that was
  authenticated under the identity of the entry.
* `retired_run`: a connection that is not authoritative any more never is again.
* `route_soundness`: the frames on host and owner queues, and the silence of
  replaced connections.
-/

namespace RemotePi.Relay

open RemotePi.Lib

/-! ## Registry entries and connections -/

/-- The identity a registered task speaks for. -/
def Connection.identity : Connection → String
  | .host deviceId _ _ => deviceId
  | .owner ownerId _ => ownerId

/-- The connection id that `fetch_add` gave a task that has not ended. -/
def SocketPhase.connId? : SocketPhase → Option ℕ
  | .registering _ connId => some connId
  | .serving connection => some connection.connId
  | .closed => none

/-- Every registry entry belongs to a live connection that was authenticated
    under the identity of the entry, and connection ids are unique. -/
structure WellFormed (r : State) : Prop where
  host_socket : ∀ key host, r.inner.endpoints.get? key = some host →
    r.sockets.get? host.tx = some ⟨key.1, .serving (.host key.1 key.2 host.connId)⟩
  owner_socket : ∀ o c owner, r.inner.ownerConnection o c = some owner →
    r.sockets.get? owner.tx = some ⟨o, .serving (.owner o c)⟩
  identity : ∀ tx a connection, r.sockets.get? tx = some ⟨a, .serving connection⟩ →
    connection.identity = a
  hello : ∀ tx a hello c, r.sockets.get? tx = some ⟨a, .registering hello c⟩ →
    helloMatches hello a = true
  connId_lt : ∀ tx socket c, r.sockets.get? tx = some socket → socket.phase.connId? = some c →
    c < r.nextConnId
  connId_inj : ∀ tx tx' socket socket' c, r.sockets.get? tx = some socket →
    r.sockets.get? tx' = some socket' → socket.phase.connId? = some c →
    socket'.phase.connId? = some c → tx = tx'

theorem wellFormed_init : WellFormed State.init where
  host_socket _ _ h := by cases h
  owner_socket _ _ _ h := by cases h
  identity _ _ _ h := by cases h
  hello _ _ _ _ h := by cases h
  connId_lt _ _ _ h := by cases h
  connId_inj _ _ _ _ _ h := by cases h

/-- A locked step keeps the registry well formed when it changes only entries of
    its own connection, and drops those when the connection ends. -/
theorem WellFormed.locked {r : State} (hr : WellFormed r) {tx : Outbound} {a : String}
    {p p' : SocketPhase} {l : LockedStep} (hs : r.sockets.get? tx = some ⟨a, p⟩)
    (hphase : p'.connId? = p.connId? ∨ p'.connId? = none)
    (hid : ∀ connection, p' = .serving connection → connection.identity = a)
    (hreg : ∀ hello c, p' ≠ .registering hello c)
    (hhost : ∀ key host, l.inner.endpoints.get? key = some host →
      (host.tx = tx ∧ a = key.1 ∧ p' = .serving (.host key.1 key.2 host.connId)) ∨
        (host.tx ≠ tx ∧ ∃ host₀, r.inner.endpoints.get? key = some host₀ ∧
          host₀.tx = host.tx ∧ host₀.connId = host.connId))
    (howner : ∀ o c owner, l.inner.ownerConnection o c = some owner →
      (owner.tx = tx ∧ a = o ∧ p' = .serving (.owner o c)) ∨
        (owner.tx ≠ tx ∧ ∃ owner₀, r.inner.ownerConnection o c = some owner₀ ∧
          owner₀.tx = owner.tx)) :
    WellFormed (r.locked tx ⟨a, p⟩ p' l) := by
  have hconn : ∀ tx₁ s₁ c, (r.locked tx ⟨a, p⟩ p' l).sockets.get? tx₁ = some s₁ →
      s₁.phase.connId? = some c →
      ∃ s₀, r.sockets.get? tx₁ = some s₀ ∧ s₀.phase.connId? = some c := by
    intro tx₁ s₁ c h₁ hc
    rw [locked_sockets, OrderedMap.get?_set] at h₁
    split_ifs at h₁ with htx
    · cases h₁
      rcases hphase with hp | hp
      · exact ⟨_, by rw [htx, hs], by rw [← hc]; exact hp.symm⟩
      · exact absurd (hp.symm.trans hc) (by simp)
    · exact ⟨s₁, h₁, hc⟩
  refine ⟨?_, ?_, ?_, ?_, ?_, ?_⟩
  · intro key host h
    rcases hhost key host h with ⟨htx, ha, hp⟩ | ⟨htx, host₀, h₀, ht, hc⟩
    · rw [locked_sockets, htx, OrderedMap.get?_set_self, ha, hp]
    · rw [locked_sockets, OrderedMap.get?_set_of_ne _ _ htx, ← ht, ← hc]
      exact hr.host_socket key host₀ h₀
  · intro o c owner h
    rcases howner o c owner h with ⟨htx, ha, hp⟩ | ⟨htx, owner₀, h₀, ht⟩
    · rw [locked_sockets, htx, OrderedMap.get?_set_self, ha, hp]
    · rw [locked_sockets, OrderedMap.get?_set_of_ne _ _ htx, ← ht]
      exact hr.owner_socket o c owner₀ h₀
  · intro tx₁ a₁ connection h
    rw [locked_sockets, OrderedMap.get?_set] at h
    split_ifs at h with htx
    · cases h
      exact hid connection rfl
    · exact hr.identity tx₁ a₁ connection h
  · intro tx₁ a₁ hello c h
    rw [locked_sockets, OrderedMap.get?_set] at h
    split_ifs at h with htx
    · cases h
      exact absurd rfl (hreg hello c)
    · exact hr.hello tx₁ a₁ hello c h
  · intro tx₁ s₁ c h₁ hc
    obtain ⟨s₀, h₀, hc₀⟩ := hconn tx₁ s₁ c h₁ hc
    exact hr.connId_lt tx₁ s₀ c h₀ hc₀
  · intro tx₁ tx₂ s₁ s₂ c h₁ h₂ hc₁ hc₂
    obtain ⟨s₁', h₁', hc₁'⟩ := hconn tx₁ s₁ c h₁ hc₁
    obtain ⟨s₂', h₂', hc₂'⟩ := hconn tx₂ s₂ c h₂ hc₂
    exact hr.connId_inj tx₁ tx₂ s₁' s₂' c h₁' h₂' hc₁' hc₂'

/-- A registry entry of a connection that has not registered yet does not exist. -/
theorem WellFormed.host_tx_ne {r : State} (hr : WellFormed r) {tx : Outbound} {socket : Socket}
    (hs : r.sockets.get? tx = some socket) {key : EndpointKey} {host : HostConnection}
    (h : r.inner.endpoints.get? key = some host)
    (hp : socket.phase ≠ .serving (.host key.1 key.2 host.connId)) : host.tx ≠ tx := by
  intro htx
  have := hr.host_socket key host h
  rw [htx, hs] at this
  cases this
  exact hp rfl

theorem WellFormed.owner_tx_ne {r : State} (hr : WellFormed r) {tx : Outbound} {socket : Socket}
    (hs : r.sockets.get? tx = some socket) {o : String} {c : ℕ} {owner : OwnerConnection}
    (h : r.inner.ownerConnection o c = some owner)
    (hp : socket.phase ≠ .serving (.owner o c)) : owner.tx ≠ tx := by
  intro htx
  have := hr.owner_socket o c owner h
  rw [htx, hs] at this
  cases this
  exact hp rfl

/-- Entries that a locked step leaves as they were stay with their connection. -/
theorem WellFormed.host_kept {r : State} (hr : WellFormed r) {tx : Outbound} {a : String}
    {p : SocketPhase} (hs : r.sockets.get? tx = some ⟨a, p⟩) {key : EndpointKey}
    {host : HostConnection} (h : r.inner.endpoints.get? key = some host) :
    (host.tx = tx ∧ a = key.1 ∧ p = .serving (.host key.1 key.2 host.connId)) ∨
      (host.tx ≠ tx ∧ ∃ host₀, r.inner.endpoints.get? key = some host₀ ∧
        host₀.tx = host.tx ∧ host₀.connId = host.connId) := by
  by_cases htx : host.tx = tx
  · have := hr.host_socket key host h
    rw [htx, hs] at this
    cases this
    exact Or.inl ⟨htx, rfl, rfl⟩
  · exact Or.inr ⟨htx, host, h, rfl, rfl⟩

theorem WellFormed.owner_kept {r : State} (hr : WellFormed r) {tx : Outbound} {a : String}
    {p : SocketPhase} (hs : r.sockets.get? tx = some ⟨a, p⟩) {o : String} {c : ℕ}
    {owner : OwnerConnection} (h : r.inner.ownerConnection o c = some owner) :
    (owner.tx = tx ∧ a = o ∧ p = .serving (.owner o c)) ∨
      (owner.tx ≠ tx ∧ ∃ owner₀, r.inner.ownerConnection o c = some owner₀ ∧
        owner₀.tx = owner.tx) := by
  by_cases htx : owner.tx = tx
  · have := hr.owner_socket o c owner h
    rw [htx, hs] at this
    cases this
    exact Or.inl ⟨htx, rfl, rfl⟩
  · exact Or.inr ⟨htx, owner, h, rfl⟩

/-! ## What one locked step changes in the registry -/

/-- A frame changes the registry only in the entry of its own connection, and
    never the connection id or the queue of an entry. -/
theorem handleFrame_endpoints (isOpen : Outbound → Bool) (inner : RegistryInner)
    (connection : Connection) (frame : PeerFrame) (key : EndpointKey) :
    (handleFrame isOpen inner connection frame).inner.endpoints.get? key =
        inner.endpoints.get? key ∨
      ∃ host update, inner.endpoints.get? key = some host ∧
        connection = .host key.1 key.2 host.connId ∧
        (handleFrame isOpen inner connection frame).inner.endpoints.get? key =
          some (EndpointUpdate.apply update host) := by
  cases connection with
  | owner ownerId connId =>
    cases frame with
    | subscribeEndpoints deviceIds =>
      left
      simp only [handleFrame]
      split
      · next inner' snapshots h =>
        obtain ⟨owner, -, he, -⟩ := subscribeEndpoints_eq_some h
        exact congrArg (OrderedMap.get? · key) he
      · rfl
    | endpointUpdate update => exact Or.inl rfl
    | route frame => exact Or.inl rfl
    | dropped => exact Or.inl rfl
  | host deviceId endpointId connId =>
    cases frame with
    | subscribeEndpoints deviceIds => exact Or.inl rfl
    | endpointUpdate update =>
      simp only [handleFrame]
      split
      · next inner' notifications h =>
        obtain ⟨host, hs, hc, he, -⟩ := updateHost_eq_some h
        by_cases hk : key = (deviceId, endpointId)
        · subst hk hc
          exact Or.inr ⟨host, update, hs, rfl, by rw [he, OrderedMap.get?_set_self]⟩
        · exact Or.inl (by rw [he, OrderedMap.get?_set_of_ne _ _ hk])
      · exact Or.inl rfl
    | route frame => exact Or.inl rfl
    | dropped => exact Or.inl rfl

/-- A frame changes owner connections only in the subscription of its own. -/
theorem handleFrame_ownerConnection (isOpen : Outbound → Bool) (inner : RegistryInner)
    (connection : Connection) (frame : PeerFrame) (o : String) (c : ℕ) :
    (handleFrame isOpen inner connection frame).inner.ownerConnection o c =
        inner.ownerConnection o c ∨
      ∃ owner deviceIds, inner.ownerConnection o c = some owner ∧ connection = .owner o c ∧
        (handleFrame isOpen inner connection frame).inner.ownerConnection o c =
          some { owner with subscribedDeviceIds := deviceIds } := by
  cases connection with
  | owner ownerId connId =>
    cases frame with
    | subscribeEndpoints deviceIds =>
      simp only [handleFrame]
      split
      · next inner' snapshots h =>
        obtain ⟨owner, ho, -, hall, -⟩ := subscribeEndpoints_eq_some h
        by_cases hk : o = ownerId ∧ c = connId
        · obtain ⟨rfl, rfl⟩ := hk
          exact Or.inr ⟨owner, _, ho, rfl, by rw [hall, if_pos ⟨rfl, rfl⟩]⟩
        · exact Or.inl (by rw [hall, if_neg hk])
      · exact Or.inl rfl
    | endpointUpdate update => exact Or.inl rfl
    | route frame => exact Or.inl rfl
    | dropped => exact Or.inl rfl
  | host deviceId endpointId connId =>
    cases frame with
    | subscribeEndpoints deviceIds => exact Or.inl rfl
    | endpointUpdate update =>
      left
      simp only [handleFrame]
      split
      · next inner' notifications h =>
        obtain ⟨host, -, -, he, -⟩ := updateHost_eq_some h
        rw [he]
        rfl
      · rfl
    | route frame => exact Or.inl rfl
    | dropped => exact Or.inl rfl

/-! ## Every step keeps the registry well formed -/

theorem WellFormed.register {r : State} (hr : WellFormed r) {tx : Outbound} {a : String}
    {hello : Hello} {c : ℕ} (hs : r.sockets.get? tx = some ⟨a, .registering hello c⟩) :
    WellFormed (r.locked tx ⟨a, .registering hello c⟩
      (.serving (registerConnection r.inner c tx hello).1)
      (registerConnection r.inner c tx hello).2) := by
  have hm := hr.hello tx a hello c hs
  cases hello with
  | host host =>
    have ha : host.deviceId = a := by simpa [helloMatches] using hm
    refine hr.locked hs (Or.inl rfl) ?_ (fun _ _ h => by cases h) ?_ ?_
    · rintro connection ⟨⟩
      exact ha
    · intro key host' h
      simp only [registerConnection, registerHost_endpoints, OrderedMap.get?_set] at h
      split_ifs at h with hk
      · cases h
        subst hk
        exact Or.inl ⟨rfl, ha.symm, rfl⟩
      · exact Or.inr ⟨hr.host_tx_ne hs h (by simp), host', h, rfl, rfl⟩
    · intro o c' owner h
      exact Or.inr ⟨hr.owner_tx_ne hs h (by simp), owner, h, rfl⟩
  | owner ownerId =>
    have ha : ownerId = a := by simpa [helloMatches] using hm
    refine hr.locked hs (Or.inl rfl) ?_ (fun _ _ h => by cases h) ?_ ?_
    · rintro connection ⟨⟩
      exact ha
    · intro key host' h
      exact Or.inr ⟨hr.host_tx_ne hs h (by simp), host', h, rfl, rfl⟩
    · intro o c' owner h
      simp only [registerConnection, registerOwner_ownerConnection] at h
      split_ifs at h with hk
      · cases h
        obtain ⟨rfl, rfl⟩ := hk
        exact Or.inl ⟨rfl, ha.symm, rfl⟩
      · exact Or.inr ⟨hr.owner_tx_ne hs h (by simp), owner, h, rfl⟩

theorem WellFormed.frame {r : State} (hr : WellFormed r) {tx : Outbound} {a : String}
    {connection : Connection} (hs : r.sockets.get? tx = some ⟨a, .serving connection⟩)
    (frame : PeerFrame) :
    WellFormed (r.locked tx ⟨a, .serving connection⟩ (.serving connection)
      (handleFrame r.isOpen r.inner connection frame)) := by
  refine hr.locked hs (Or.inl rfl) ?_ (fun _ _ h => by cases h) ?_ ?_
  · rintro _ ⟨⟩
    exact hr.identity tx a connection hs
  · intro key host h
    rcases handleFrame_endpoints r.isOpen r.inner connection frame key with he | ⟨host₀, u, h₀, rfl, he⟩
    · exact hr.host_kept hs (he ▸ h)
    · rw [he] at h
      cases h
      simpa using hr.host_kept hs h₀
  · intro o c owner h
    rcases handleFrame_ownerConnection r.isOpen r.inner connection frame o c with
      he | ⟨owner₀, d, h₀, rfl, he⟩
    · exact hr.owner_kept hs (he ▸ h)
    · rw [he] at h
      cases h
      simpa using hr.owner_kept hs h₀

theorem WellFormed.disconnect {r : State} (hr : WellFormed r) {tx : Outbound} {a : String}
    {connection : Connection} (hs : r.sockets.get? tx = some ⟨a, .serving connection⟩) :
    WellFormed (r.locked tx ⟨a, .serving connection⟩ .closed
      (unregisterConnection r.inner connection)) := by
  cases connection with
  | host deviceId endpointId connId =>
    refine hr.locked hs (Or.inr rfl) (fun _ h => by cases h) (fun _ _ h => by cases h) ?_ ?_
    · intro key host h
      rcases unregisterHost_cases r.inner deviceId endpointId connId with
        ⟨host₀, h₀, hc, he⟩ | ⟨hn, he⟩
      · simp only [unregisterConnection, he, OrderedMap.get?_erase] at h
        split_ifs at h with hk
        exact Or.inr ⟨hr.host_tx_ne hs h (by rintro ⟨⟩; exact hk rfl), host, h, rfl, rfl⟩
      · simp only [unregisterConnection, he] at h
        exact Or.inr ⟨hr.host_tx_ne hs h (by rintro ⟨⟩; exact hn host h rfl), host, h, rfl, rfl⟩
    · intro o c owner h
      rw [RegistryInner.ownerConnection] at h
      simp only [unregisterConnection, unregisterHost_owners] at h
      exact Or.inr ⟨hr.owner_tx_ne hs h (by simp), owner, h, rfl⟩
  | owner ownerId connId =>
    refine hr.locked hs (Or.inr rfl) (fun _ h => by cases h) (fun _ _ h => by cases h) ?_ ?_
    · intro key host h
      simp only [unregisterConnection, unregisterOwner_endpoints] at h
      exact Or.inr ⟨hr.host_tx_ne hs h (by simp), host, h, rfl, rfl⟩
    · intro o c owner h
      simp only [unregisterConnection, unregisterOwner_ownerConnection] at h
      split_ifs at h with hk
      exact Or.inr ⟨hr.owner_tx_ne hs h (by rintro ⟨⟩; exact hk ⟨rfl, rfl⟩), owner, h, rfl⟩

theorem WellFormed.accept {r : State} (hr : WellFormed r) {tx : Outbound} {a : String}
    {hello : Hello} (hs : r.sockets.get? tx = none) (hm : helloMatches hello a = true) :
    WellFormed { r with
      nextConnId := r.nextConnId + 1
      sockets := r.sockets.set tx ⟨a, .registering hello r.nextConnId⟩ } := by
  have hne : ∀ tx₁ s₁, r.sockets.get? tx₁ = some s₁ → tx₁ ≠ tx := by
    rintro tx₁ s₁ h rfl
    rw [hs] at h
    cases h
  refine ⟨?_, ?_, ?_, ?_, ?_, ?_⟩
  · intro key host h
    have := hr.host_socket key host h
    rw [OrderedMap.get?_set_of_ne _ _ (hne _ _ this), this]
  · intro o c owner h
    have := hr.owner_socket o c owner h
    rw [OrderedMap.get?_set_of_ne _ _ (hne _ _ this), this]
  · intro tx₁ a₁ connection h
    simp only [OrderedMap.get?_set] at h
    split_ifs at h with htx
    · cases h
    · exact hr.identity tx₁ a₁ connection h
  · intro tx₁ a₁ hello₁ c h
    simp only [OrderedMap.get?_set] at h
    split_ifs at h with htx
    · cases h
      exact hm
    · exact hr.hello tx₁ a₁ hello₁ c h
  · intro tx₁ s₁ c h hc
    simp only [OrderedMap.get?_set] at h
    split_ifs at h with htx
    · cases h
      cases hc
      exact Nat.lt_succ_self _
    · exact Nat.lt_succ_of_lt (hr.connId_lt tx₁ s₁ c h hc)
  · intro tx₁ tx₂ s₁ s₂ c h₁ h₂ hc₁ hc₂
    simp only [OrderedMap.get?_set] at h₁ h₂
    split_ifs at h₁ h₂ with k₁ k₂ k₂
    · rw [k₁, k₂]
    · cases h₁
      cases hc₁
      exact absurd (hr.connId_lt tx₂ s₂ _ h₂ hc₂) (Nat.lt_irrefl _)
    · cases h₂
      cases hc₂
      exact absurd (hr.connId_lt tx₁ s₁ _ h₁ hc₁) (Nat.lt_irrefl _)
    · exact hr.connId_inj tx₁ tx₂ s₁ s₂ c h₁ h₂ hc₁ hc₂

theorem WellFormed.reject {r : State} (hr : WellFormed r) {tx : Outbound} (a : String)
    (hs : r.sockets.get? tx = none) :
    WellFormed { r with sockets := r.sockets.set tx ⟨a, .closed⟩ } := by
  have hne : ∀ tx₁ s₁, r.sockets.get? tx₁ = some s₁ → tx₁ ≠ tx := by
    rintro tx₁ s₁ h rfl
    rw [hs] at h
    cases h
  have hold : ∀ tx₁ s₁, (r.sockets.set tx ⟨a, .closed⟩).get? tx₁ = some s₁ →
      s₁.phase ≠ .closed → r.sockets.get? tx₁ = some s₁ := by
    intro tx₁ s₁ h hp
    rw [OrderedMap.get?_set] at h
    split_ifs at h with htx
    · cases h
      exact absurd rfl hp
    · exact h
  have hopen : ∀ s₁ : Socket, ∀ c, s₁.phase.connId? = some c → s₁.phase ≠ .closed := by
    intro s₁ c hc hp
    rw [hp] at hc
    cases hc
  refine ⟨?_, ?_, ?_, ?_, ?_, ?_⟩
  · intro key host h
    have := hr.host_socket key host h
    rw [OrderedMap.get?_set_of_ne _ _ (hne _ _ this), this]
  · intro o c owner h
    have := hr.owner_socket o c owner h
    rw [OrderedMap.get?_set_of_ne _ _ (hne _ _ this), this]
  · intro tx₁ a₁ connection h
    exact hr.identity tx₁ a₁ connection (hold _ _ h (by simp))
  · intro tx₁ a₁ hello c h
    exact hr.hello tx₁ a₁ hello c (hold _ _ h (by simp))
  · intro tx₁ s₁ c h hc
    exact hr.connId_lt tx₁ s₁ c (hold _ _ h (hopen _ _ hc)) hc
  · intro tx₁ tx₂ s₁ s₂ c h₁ h₂ hc₁ hc₂
    exact hr.connId_inj tx₁ tx₂ s₁ s₂ c (hold _ _ h₁ (hopen _ _ hc₁)) (hold _ _ h₂ (hopen _ _ hc₂))
      hc₁ hc₂

theorem wellFormed_step (r : State) (label : Label) (r' : State) (hr : WellFormed r)
    (h : r.step label = some r') : WellFormed r' := by
  cases label with
  | accept tx a hello =>
    obtain ⟨hs, ⟨hm, rfl⟩ | rfl⟩ := step_accept h
    · exact hr.accept hs hm
    · exact hr.reject a hs
  | register tx =>
    obtain ⟨a, hello, c, hs, rfl⟩ := step_register h
    exact hr.register hs
  | frame tx frame =>
    obtain ⟨a, connection, hs, -, rfl⟩ := step_frame h
    exact hr.frame hs frame
  | disconnect tx =>
    obtain ⟨a, connection, hs, -, rfl⟩ := step_disconnect h
    exact hr.disconnect hs
  | push tx =>
    obtain ⟨notifications, -, rfl⟩ := step_push h
    exact ⟨hr.host_socket, hr.owner_socket, hr.identity, hr.hello, hr.connId_lt, hr.connId_inj⟩

theorem wellFormed_run {labels : List Label} {r : State}
    (h : run State.step State.init labels = some r) : WellFormed r :=
  invariant_run wellFormed_step wellFormed_init h

/-! ## Replaced connections -/

/-- The host connection `tx` has been replaced: the registry holds another
    connection under its key. -/
def Superseded (r : State) (tx : Outbound) : Prop :=
  ∃ a deviceId endpointId connId,
    r.sockets.get? tx = some ⟨a, .serving (.host deviceId endpointId connId)⟩ ∧
    ∃ host, r.inner.endpoints.get? (deviceId, endpointId) = some host ∧ host.connId ≠ connId

/-- The connection `tx` has ended, or it is a host connection that is not
    authoritative for its key. -/
def Retired (r : State) (tx : Outbound) : Prop :=
  ∃ a phase, r.sockets.get? tx = some ⟨a, phase⟩ ∧
    (phase = .closed ∨
      ∃ deviceId endpointId connId, phase = .serving (.host deviceId endpointId connId) ∧
        ∀ host, r.inner.endpoints.get? (deviceId, endpointId) = some host → host.connId ≠ connId)

theorem Superseded.retired {r : State} {tx : Outbound} (h : Superseded r tx) : Retired r tx := by
  obtain ⟨a, deviceId, endpointId, connId, hs, host, hh, hc⟩ := h
  refine ⟨a, _, hs, Or.inr ⟨deviceId, endpointId, connId, rfl, fun host' h' => ?_⟩⟩
  cases hh.symm.trans h'
  exact hc

/-- A registered connection id was there before the step, or the step registers it. -/
theorem endpoints_step {r r' : State} {label : Label} (h : r.step label = some r')
    {key : EndpointKey} {host : HostConnection} (hh : r'.inner.endpoints.get? key = some host) :
    (∃ host₀, r.inner.endpoints.get? key = some host₀ ∧ host₀.connId = host.connId) ∨
      ∃ tx a hello, label = .register tx ∧
        r.sockets.get? tx = some ⟨a, .registering hello host.connId⟩ := by
  cases label with
  | accept tx a hello =>
    obtain ⟨-, ⟨-, rfl⟩ | rfl⟩ := step_accept h
    · exact Or.inl ⟨host, hh, rfl⟩
    · exact Or.inl ⟨host, hh, rfl⟩
  | register tx =>
    obtain ⟨a, hello, c, hs, rfl⟩ := step_register h
    cases hello with
    | host hello =>
      simp only [locked_inner, registerConnection, registerHost_endpoints,
        OrderedMap.get?_set] at hh
      split_ifs at hh with hk
      · cases hh
        exact Or.inr ⟨tx, a, _, rfl, hs⟩
      · exact Or.inl ⟨host, hh, rfl⟩
    | owner ownerId => exact Or.inl ⟨host, hh, rfl⟩
  | frame tx frame =>
    obtain ⟨a, connection, hs, -, rfl⟩ := step_frame h
    rw [locked_inner] at hh
    rcases handleFrame_endpoints r.isOpen r.inner connection frame key with
      he | ⟨host₀, u, h₀, -, he⟩
    · exact Or.inl ⟨host, he ▸ hh, rfl⟩
    · rw [he] at hh
      cases hh
      exact Or.inl ⟨host₀, h₀, rfl⟩
  | disconnect tx =>
    obtain ⟨a, connection, hs, -, rfl⟩ := step_disconnect h
    rw [locked_inner] at hh
    cases connection with
    | host deviceId endpointId connId =>
      rcases unregisterHost_cases r.inner deviceId endpointId connId with
        ⟨host₀, h₀, hc, he⟩ | ⟨hn, he⟩
      · simp only [unregisterConnection, he, OrderedMap.get?_erase] at hh
        split_ifs at hh with hk
        exact Or.inl ⟨host, hh, rfl⟩
      · simp only [unregisterConnection, he] at hh
        exact Or.inl ⟨host, hh, rfl⟩
    | owner ownerId connId =>
      simp only [unregisterConnection, unregisterOwner_endpoints] at hh
      exact Or.inl ⟨host, hh, rfl⟩
  | push tx =>
    obtain ⟨notifications, -, rfl⟩ := step_push h
    exact Or.inl ⟨host, hh, rfl⟩

/-- Where a task that is in its frame loop, or done, stands after a step. -/
theorem socket_step {r r' : State} {label : Label} (h : r.step label = some r') {tx : Outbound}
    {a : String} {phase : SocketPhase} (hs : r.sockets.get? tx = some ⟨a, phase⟩)
    (hp : ∀ hello c, phase ≠ .registering hello c) :
    r'.sockets.get? tx = some ⟨a, phase⟩ ∨ r'.sockets.get? tx = some ⟨a, .closed⟩ := by
  cases label with
  | accept tx₁ a₁ hello =>
    obtain ⟨hn, ⟨-, rfl⟩ | rfl⟩ := step_accept h
    all_goals
      have hne : tx ≠ tx₁ := by rintro rfl; rw [hs] at hn; cases hn
      exact Or.inl (by rw [OrderedMap.get?_set_of_ne _ _ hne, hs])
  | register tx₁ =>
    obtain ⟨a₁, hello, c, h₁, rfl⟩ := step_register h
    have hne : tx ≠ tx₁ := by rintro rfl; rw [hs] at h₁; cases h₁; exact hp _ _ rfl
    exact Or.inl (by rw [locked_sockets, OrderedMap.get?_set_of_ne _ _ hne, hs])
  | frame tx₁ frame =>
    obtain ⟨a₁, connection, h₁, -, rfl⟩ := step_frame h
    left
    rw [locked_sockets, OrderedMap.get?_set]
    split_ifs with htx
    · rw [← h₁, ← htx, hs]
    · exact hs
  | disconnect tx₁ =>
    obtain ⟨a₁, connection, h₁, -, rfl⟩ := step_disconnect h
    rw [locked_sockets, OrderedMap.get?_set]
    split_ifs with htx
    · rw [← htx, hs] at h₁
      cases h₁
      exact Or.inr rfl
    · exact Or.inl hs
  | push tx₁ =>
    obtain ⟨notifications, -, rfl⟩ := step_push h
    exact Or.inl hs

/-- A connection that is not authoritative never becomes authoritative again. -/
theorem retired_step (tx : Outbound) (r : State) (label : Label) (r' : State)
    (hr : WellFormed r ∧ Retired r tx) (h : r.step label = some r') :
    WellFormed r' ∧ Retired r' tx := by
  obtain ⟨hw, a, phase, hs, hphase⟩ := hr
  refine ⟨wellFormed_step r label r' hw h, ?_⟩
  have hp : ∀ hello c, phase ≠ .registering hello c := by
    rintro hello c rfl
    rcases hphase with hc | ⟨_, _, _, hc, -⟩ <;> cases hc
  rcases socket_step h hs hp with hs' | hs'
  · refine ⟨a, phase, hs', ?_⟩
    rcases hphase with hc | ⟨deviceId, endpointId, connId, rfl, hn⟩
    · exact Or.inl hc
    · refine Or.inr ⟨deviceId, endpointId, connId, rfl, fun host hh hc => ?_⟩
      rcases endpoints_step h hh with ⟨host₀, h₀, hc₀⟩ | ⟨tx₁, a₁, hello, -, h₁⟩
      · exact hn host₀ h₀ (hc₀.trans hc)
      · -- the registering task would share its connection id with the retired one
        rw [hc] at h₁
        cases hw.connId_inj tx tx₁ _ _ connId hs h₁ rfl rfl
        rw [hs] at h₁
        cases h₁
  · exact ⟨a, .closed, hs', Or.inl rfl⟩

theorem retired_run {r r' : State} {tx : Outbound} {labels : List Label} (hw : WellFormed r)
    (hr : Retired r tx) (h : run State.step r labels = some r') :
    WellFormed r' ∧ Retired r' tx :=
  invariant_run (retired_step tx) ⟨hw, hr⟩ h

/-- Frames and the disconnect of a retired connection leave the registry, the
    queues and the notifications as they are. -/
theorem retired_silent {r r' : State} {tx : Outbound} {label : Label} (hr : Retired r tx)
    (hl : (∃ frame, label = .frame tx frame) ∨ label = .disconnect tx)
    (h : r.step label = some r') :
    r'.inner = r.inner ∧ r'.sent = r.sent ∧ r'.outstanding = r.outstanding := by
  obtain ⟨a, phase, hs, hphase⟩ := hr
  rcases hl with ⟨frame, rfl⟩ | rfl
  · obtain ⟨a₁, connection, h₁, -, rfl⟩ := step_frame h
    rw [hs] at h₁
    cases h₁
    rcases hphase with hc | ⟨deviceId, endpointId, connId, hc, hn⟩
    · cases hc
    · cases hc
      cases frame with
      | subscribeEndpoints deviceIds => simp [handleFrame]
      | endpointUpdate update => simp [handleFrame, updateHost_stale update hn]
      | route frame => simp [handleFrame, routeFromHost_stale r.isOpen frame hn]
      | dropped => simp [handleFrame]
  · obtain ⟨a₁, connection, h₁, -, rfl⟩ := step_disconnect h
    rw [hs] at h₁
    cases h₁
    rcases hphase with hc | ⟨deviceId, endpointId, connId, hc, hn⟩
    · cases hc
    · cases hc
      rcases unregisterHost_cases r.inner deviceId endpointId connId with
        ⟨host₀, h₀, hc, -⟩ | ⟨-, he⟩
      · exact absurd hc (hn host₀ h₀)
      · simp [unregisterConnection, he]

/-! ## Delivered route frames -/

/-- `frame`, put on the queue `tx` of a host connection by a step from `r`, comes
    from the live connection `source` of the authenticated Owner it names, and
    matches the authoritative runtime and the ACL of its endpoint. -/
def OwnerToHost (r : State) (source tx : Outbound) (frame : RouteFrame) : Prop :=
  ∃ ownerId connId owner host,
    r.sockets.get? source = some ⟨ownerId, .serving (.owner ownerId connId)⟩ ∧
    r.inner.ownerConnection ownerId connId = some owner ∧ owner.tx = source ∧
    frame.sourceOwnerId = some ownerId ∧
    r.inner.endpoints.get? (frame.deviceId, frame.endpointId) = some host ∧ host.tx = tx ∧
    r.sockets.get? tx =
      some ⟨frame.deviceId, .serving (.host frame.deviceId frame.endpointId host.connId)⟩ ∧
    host.runtimeInstanceId = frame.runtimeInstanceId ∧
    (frame.purpose = .session → ownerId ∈ host.authorizedOwnerIds)

/-- `frame`, put on the queue `tx` of an Owner connection by a step from `r`,
    comes from the connection `source` that is authoritative for the device,
    endpoint and runtime it names, and its target is in the ACL. -/
def HostToOwner (r : State) (source tx : Outbound) (frame : RouteFrame) : Prop :=
  ∃ host targetOwnerId connId owner,
    r.inner.endpoints.get? (frame.deviceId, frame.endpointId) = some host ∧ host.tx = source ∧
    r.sockets.get? source =
      some ⟨frame.deviceId, .serving (.host frame.deviceId frame.endpointId host.connId)⟩ ∧
    host.runtimeInstanceId = frame.runtimeInstanceId ∧
    frame.targetOwnerId = some targetOwnerId ∧
    r.inner.ownerConnection targetOwnerId connId = some owner ∧ owner.tx = tx ∧
    r.sockets.get? tx = some ⟨targetOwnerId, .serving (.owner targetOwnerId connId)⟩ ∧
    (frame.purpose = .session → targetOwnerId ∈ host.authorizedOwnerIds)

theorem WellFormed.ownerToHost {r : State} (hr : WellFormed r) {source tx : Outbound}
    {a ownerId : String} {connId : ℕ} {route frame : RouteFrame}
    (hs : r.sockets.get? source = some ⟨a, .serving (.owner ownerId connId)⟩)
    (h : (tx, frame) ∈ (routeFromOwner r.isOpen r.inner ownerId connId route).2) :
    OwnerToHost r source tx frame := by
  obtain ⟨⟨owner, ho⟩, host, hh, htx, hrt, hacl, hframe⟩ := mem_routeFromOwner h
  have hid : ownerId = a := hr.identity source a _ hs
  subst hid
  have howner : owner.tx = source :=
    hr.connId_inj _ _ _ _ connId (hr.owner_socket ownerId connId owner ho) hs rfl rfl
  exact ⟨ownerId, connId, owner, host, hs, ho, howner, by rw [hframe], hh, htx,
    htx ▸ hr.host_socket _ host hh, hrt, hacl⟩

theorem WellFormed.hostToOwner {r : State} (hr : WellFormed r) {source tx : Outbound}
    {a deviceId endpointId : String} {connId : ℕ} {route frame : RouteFrame}
    (hs : r.sockets.get? source = some ⟨a, .serving (.host deviceId endpointId connId)⟩)
    (h : (tx, frame) ∈ (routeFromHost r.isOpen r.inner deviceId endpointId connId route).2) :
    HostToOwner r source tx frame := by
  obtain ⟨-, -, rfl, rfl, host, target, targetConnId, owner, hh, hc, hrt, ht, hacl, ho, htx⟩ :=
    mem_routeFromHost h
  subst hc htx
  have hsock := hr.host_socket _ host hh
  have hsource : host.tx = source := hr.connId_inj _ _ _ _ host.connId hsock hs rfl rfl
  exact ⟨host, target, targetConnId, owner, hh, hsource, hsource ▸ hsock, hrt, ht, ho, rfl,
    hr.owner_socket target targetConnId owner ho, hacl⟩

/-- A locked step puts a route frame on a queue only to forward a frame. -/
theorem route_mem_handleFrame {r : State} (hr : WellFormed r) {source tx : Outbound} {a : String}
    {connection : Connection} {frame : PeerFrame} {route : RouteFrame}
    (hs : r.sockets.get? source = some ⟨a, .serving connection⟩)
    (h : (tx, Message.route route) ∈ (handleFrame r.isOpen r.inner connection frame).sends) :
    (∃ f, frame = .route f) ∧ (OwnerToHost r source tx route ∨ HostToOwner r source tx route) := by
  cases connection with
  | owner ownerId connId =>
    cases frame with
    | subscribeEndpoints deviceIds =>
      simp only [handleFrame] at h
      split at h
      · simp at h
      · cases h
    | endpointUpdate update => cases h
    | route f =>
      simp only [handleFrame, List.mem_map, Prod.mk.injEq, Message.route.injEq] at h
      obtain ⟨⟨tx', route'⟩, hm, rfl, rfl⟩ := h
      exact ⟨⟨f, rfl⟩, Or.inl (hr.ownerToHost hs hm)⟩
    | dropped => cases h
  | host deviceId endpointId connId =>
    cases frame with
    | subscribeEndpoints deviceIds => cases h
    | endpointUpdate update =>
      simp only [handleFrame] at h
      split at h <;> cases h
    | route f =>
      simp only [handleFrame, List.mem_map, Prod.mk.injEq, Message.route.injEq] at h
      obtain ⟨⟨tx', route'⟩, hm, rfl, rfl⟩ := h
      exact ⟨⟨f, rfl⟩, Or.inr (hr.hostToOwner hs hm)⟩
    | dropped => cases h

/-- The messages a step appends; the route frames among them forward the frame of
    its label. -/
theorem sent_step {r r' : State} {label : Label} (hr : WellFormed r)
    (h : r.step label = some r') :
    ∃ new, r'.sent = r.sent ++ new ∧ ∀ tx frame, (tx, Message.route frame) ∈ new →
      ∃ source f, label = .frame source (.route f) ∧
        (OwnerToHost r source tx frame ∨ HostToOwner r source tx frame) := by
  cases label with
  | accept tx a hello =>
    obtain ⟨-, ⟨-, rfl⟩ | rfl⟩ := step_accept h <;>
      exact ⟨[], by simp, fun _ _ hm => by cases hm⟩
  | register tx =>
    obtain ⟨a, hello, c, hs, rfl⟩ := step_register h
    refine ⟨_, locked_sent .., fun tx' frame hm => ?_⟩
    cases hello <;> cases (List.mem_filter.mp hm).1
  | frame source frame =>
    obtain ⟨a, connection, hs, -, rfl⟩ := step_frame h
    refine ⟨_, locked_sent .., fun tx route hm => ?_⟩
    obtain ⟨⟨f, rfl⟩, hd⟩ := route_mem_handleFrame hr hs (List.mem_filter.mp hm).1
    exact ⟨source, f, rfl, hd⟩
  | disconnect tx =>
    obtain ⟨a, connection, hs, -, rfl⟩ := step_disconnect h
    refine ⟨_, locked_sent .., fun tx' frame hm => ?_⟩
    cases connection <;> cases (List.mem_filter.mp hm).1
  | push tx =>
    obtain ⟨notifications, -, rfl⟩ := step_push h
    refine ⟨_, deliver_sent .., fun tx' frame hm => ?_⟩
    simp at hm

/-- **Route soundness.** In every run, a route frame on a host's queue comes from
    a live connection of the authenticated Owner it names and matches the runtime
    and the ACL of its endpoint; a route frame on an Owner's queue comes from the
    authoritative connection and respects its ACL; and a host connection that has
    been replaced changes no registry entry and reaches no queue any more. -/
theorem route_soundness {labels : List Label} {r : State}
    (h : run State.step State.init labels = some r) :
    (∀ label r', r.step label = some r' →
      ∃ new, r'.sent = r.sent ++ new ∧ ∀ tx frame, (tx, Message.route frame) ∈ new →
        ∃ source f, label = .frame source (.route f) ∧
          (OwnerToHost r source tx frame ∨ HostToOwner r source tx frame)) ∧
      ∀ tx, Superseded r tx → ∀ labels' r', run State.step r labels' = some r' →
        ∀ label r'', ((∃ frame, label = .frame tx frame) ∨ label = .disconnect tx) →
          r'.step label = some r'' →
          r''.inner = r'.inner ∧ r''.sent = r'.sent ∧ r''.outstanding = r'.outstanding := by
  have hr := wellFormed_run h
  refine ⟨fun label r' => sent_step hr, fun tx hsup labels' r' h' label r'' hl h'' => ?_⟩
  obtain ⟨-, hret⟩ := retired_run hr hsup.retired h'
  exact retired_silent hret hl h''

/-! ### A takeover -/

/-- The hello of a host of device `D` with one endpoint that authorizes `O`. -/
def sampleHello (runtimeInstanceId : String) : HostHello :=
  { deviceId := "D", endpointId := "E", runtimeInstanceId
    metadata := ⟨.daemon, none, none, none, none, none, none, none⟩
    authorizedOwnerIds := ["O"] }

/-- Owner `O` connects, and the runtime `R1` of `D` is replaced by `R2`. -/
def takeoverRun : List Label :=
  [.accept 0 "O" (.owner "O"), .register 0,
    .accept 1 "D" (.host (sampleHello "R1")), .register 1,
    .accept 2 "D" (.host (sampleHello "R2")), .register 2]

/-- A session route of the replaced host to `O`. -/
def lateRoute : RouteFrame := ⟨"route", .session, "D", "E", "R1", some "O", none, "ct"⟩

theorem route_soundness_takeover :
    ∃ r r', run State.step State.init takeoverRun = some r ∧ Superseded r 1 ∧
      r.step (.frame 1 (.route lateRoute)) = some r' ∧
      r'.inner = r.inner ∧ r'.sent = r.sent ∧ r'.outstanding = r.outstanding := by
  obtain ⟨r, hr⟩ : ∃ r, run State.step State.init takeoverRun = some r :=
    Option.isSome_iff_exists.mp (by decide)
  obtain ⟨r', hr'⟩ : ∃ r', r.step (.frame 1 (.route lateRoute)) = some r' := by
    cases hr
    exact Option.isSome_iff_exists.mp (by decide)
  have hsup : Superseded r 1 := by
    cases hr
    exact ⟨"D", "D", "E", 1, rfl, _, rfl, by decide⟩
  exact ⟨r, r', hr, hsup, hr',
    (route_soundness hr).2 1 hsup [] r rfl _ r' (Or.inl ⟨_, rfl⟩) hr'⟩

end RemotePi.Relay
