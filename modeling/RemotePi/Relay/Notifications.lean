import RemotePi.Lib.CellUpdate
import RemotePi.Relay.Routing

/-!
# Order of the relay's notifications

An Owner folds the control lines of its queue into a view of the endpoints it
may reach. The lines are computed under the lock of the registry and pushed
after it is released, so that the lines of two operations may reach a queue in
the opposite order of their locked steps.

Results:
* `tracks_run`: as long as no push overtakes a line that it does not commute
  with, what an Owner has received and is still due adds up to the endpoints
  that are visible to it.
* `view_eq_visible`: hence, once all pushes have happened, its view of the
  devices it subscribes to is exact.
* `overtaken_view`: without that condition it is not.
-/

namespace RemotePi.Relay

open RemotePi.Lib

/-! ## The view of an Owner -/

/-- What a line does to one endpoint of the view: `endpoints` replaces the
    device, `announced` and `updated` upsert the endpoint, `ended` removes it when
    the runtime matches. -/
def ControlLine.updateOf (key : EndpointKey) : ControlLine → CellUpdate EndpointInfo
  | .endpoints deviceId infos =>
    if key.1 = deviceId then .put (infos.find? fun e => decide (e.endpointId = key.2))
    else .noop
  | .announced deviceId endpointId runtimeInstanceId metadata
  | .updated deviceId endpointId runtimeInstanceId metadata =>
    if key = (deviceId, endpointId) then .put (some ⟨endpointId, runtimeInstanceId, metadata⟩)
    else .noop
  | .ended deviceId endpointId runtimeInstanceId =>
    if key = (deviceId, endpointId) then
      .drop fun e => decide (e.runtimeInstanceId = runtimeInstanceId)
    else .noop

/-- The device a line is about. -/
def ControlLine.deviceId : ControlLine → String
  | .endpoints deviceId _ => deviceId
  | .announced deviceId _ _ _ => deviceId
  | .updated deviceId _ _ _ => deviceId
  | .ended deviceId _ _ => deviceId

/-- The endpoint `key` in the view folded from a queue, oldest line first. -/
def view (lines : List ControlLine) (key : EndpointKey) : Option EndpointInfo :=
  CellUpdate.apply (lines.map (ControlLine.updateOf key)) none

/-- What the registry holds for the Owner under `key`. -/
def visible (inner : RegistryInner) (ownerId : String) (key : EndpointKey) :
    Option EndpointInfo :=
  ((inner.endpoints.get? key).filter fun host => host.authorizedOwnerIds.contains ownerId).map
    fun host => endpointInfo host key.2

/-- The control lines on a queue. -/
def controlLines (tx : Outbound) (messages : List (Outbound × Message)) : List ControlLine :=
  messages.filterMap fun m =>
    match m.2 with
    | .control line => if m.1 = tx then some line else none
    | .route _ => none

/-- The lines for one queue among notifications. -/
def linesTo (tx : Outbound) (notifications : Notifications) : List ControlLine :=
  notifications.filterMap fun n => if n.1 = tx then some n.2 else none

/-- The lines for a queue that are computed and not pushed yet, in the order of
    the locked steps. -/
def pendingLines (r : State) (tx : Outbound) : List ControlLine :=
  r.outstanding.entries.flatMap fun e => linesTo tx e.2

/-- What a queue holds and is still due. -/
def due (r : State) (tx : Outbound) : List ControlLine :=
  controlLines tx r.sent ++ pendingLines r tx

theorem view_append (lines lines' : List ControlLine) (key : EndpointKey) :
    view (lines ++ lines') key =
      CellUpdate.apply (lines'.map (ControlLine.updateOf key)) (view lines key) := by
  rw [view, List.map_append, CellUpdate.apply_append]
  rfl

@[simp] theorem controlLines_append (tx : Outbound) (ms ms' : List (Outbound × Message)) :
    controlLines tx (ms ++ ms') = controlLines tx ms ++ controlLines tx ms' :=
  List.filterMap_append

@[simp] theorem linesTo_append (tx : Outbound) (ns ns' : Notifications) :
    linesTo tx (ns ++ ns') = linesTo tx ns ++ linesTo tx ns' :=
  List.filterMap_append

theorem mem_linesTo {tx : Outbound} {line : ControlLine} {ns : Notifications} :
    line ∈ linesTo tx ns ↔ (tx, line) ∈ ns := by
  simp [linesTo]

/-- The lines that a push delivers to an open queue. -/
theorem controlLines_notifications (r : State) {tx : Outbound} (ho : r.isOpen tx = true)
    (ns : Notifications) :
    controlLines tx ((ns.map fun n => (n.1, Message.control n.2)).filter fun m => r.isOpen m.1) =
      linesTo tx ns := by
  induction ns with
  | nil => rfl
  | cons n ns ih =>
    by_cases h : n.1 = tx
    · subst h
      simp only [List.map_cons, List.filter_cons, ho, if_true]
      simpa [controlLines, linesTo] using ih
    · by_cases hn : r.isOpen n.1 = true <;>
        simpa [List.filter_cons, hn, controlLines, linesTo, h] using ih

/-! ## Lines that may change places -/

/-- Lines about different endpoints, and an `ended` beside a line about another
    runtime, may reach a queue in either order. -/
def reorderable : ControlLine → ControlLine → Bool
  | .announced d e rt m, .announced d' e' rt' m'
  | .announced d e rt m, .updated d' e' rt' m'
  | .updated d e rt m, .announced d' e' rt' m'
  | .updated d e rt m, .updated d' e' rt' m' => decide ((d, e) = (d', e') → rt = rt' ∧ m = m')
  | .announced d e rt _, .ended d' e' rt'
  | .updated d e rt _, .ended d' e' rt'
  | .ended d e rt, .announced d' e' rt' _
  | .ended d e rt, .updated d' e' rt' _ => decide ((d, e) = (d', e') → rt ≠ rt')
  | .ended _ _ _, .ended _ _ _ => true
  | .endpoints d _, line | line, .endpoints d _ => decide (d ≠ line.deviceId)

theorem commute_upserts {key key₁ key₂ : EndpointKey} {e₁ e₂ : EndpointInfo}
    (h : key₁ = key₂ → e₁ = e₂) :
    CellUpdate.Commute (if key = key₁ then .put (some e₁) else .noop)
      (if key = key₂ then .put (some e₂) else .noop) := by
  split_ifs with h₁ h₂ h₂
  · rw [h (h₁.symm.trans h₂)]
    exact fun v => rfl
  · exact CellUpdate.commute_noop_right _
  · exact CellUpdate.commute_noop_left _
  · exact CellUpdate.commute_noop_left _

theorem commute_upsert_ended {key key₁ key₂ : EndpointKey} {e : EndpointInfo} {rt : String}
    (h : key₁ = key₂ → e.runtimeInstanceId ≠ rt) :
    CellUpdate.Commute (if key = key₁ then .put (some e) else .noop)
      (if key = key₂ then .drop fun e => decide (e.runtimeInstanceId = rt) else .noop) := by
  split_ifs with h₁ h₂ h₂
  · exact CellUpdate.commute_put_drop (decide_eq_false (h (h₁.symm.trans h₂)))
  · exact CellUpdate.commute_noop_right _
  · exact CellUpdate.commute_noop_left _
  · exact CellUpdate.commute_noop_left _

theorem updateOf_of_device_ne {key : EndpointKey} {line : ControlLine}
    (h : key.1 ≠ line.deviceId) : line.updateOf key = .noop := by
  cases line <;> simp_all [ControlLine.updateOf, ControlLine.deviceId, Prod.ext_iff]

/-- Lines about other devices leave the view of a device as it is. -/
theorem apply_of_device_ne {lines : List ControlLine} {key : EndpointKey}
    (h : ∀ line ∈ lines, line.deviceId ≠ key.1) (v : Option EndpointInfo) :
    CellUpdate.apply (lines.map (ControlLine.updateOf key)) v = v := by
  induction lines generalizing v with
  | nil => rfl
  | cons line lines ih =>
    rw [List.map_cons, CellUpdate.apply_cons,
      updateOf_of_device_ne (h line List.mem_cons_self).symm, CellUpdate.act_noop]
    exact ih (fun l hl => h l (List.mem_cons_of_mem _ hl)) v

theorem commute_of_reorderable {line line' : ControlLine} (h : reorderable line line' = true)
    (key : EndpointKey) : CellUpdate.Commute (line.updateOf key) (line'.updateOf key) := by
  have hdevice : ∀ l l' : ControlLine, l.deviceId ≠ l'.deviceId →
      CellUpdate.Commute (l.updateOf key) (l'.updateOf key) := by
    intro l l' hne
    by_cases hk : key.1 = l.deviceId
    · rw [updateOf_of_device_ne fun hk' => hne (hk.symm.trans hk')]
      exact CellUpdate.commute_noop_right _
    · rw [updateOf_of_device_ne hk]
      exact CellUpdate.commute_noop_left _
  cases line with
  | endpoints d infos =>
    cases line' <;> exact hdevice _ _ (of_decide_eq_true h)
  | announced d e rt m =>
    cases line' with
    | endpoints d' infos => exact (hdevice (.endpoints d' infos) _ (of_decide_eq_true h)).symm
    | announced d' e' rt' m' | updated d' e' rt' m' =>
      refine commute_upserts fun hk => ?_
      obtain ⟨rfl, rfl⟩ := of_decide_eq_true h hk
      cases hk
      rfl
    | ended d' e' rt' => exact commute_upsert_ended (of_decide_eq_true h)
  | updated d e rt m =>
    cases line' with
    | endpoints d' infos => exact (hdevice (.endpoints d' infos) _ (of_decide_eq_true h)).symm
    | announced d' e' rt' m' | updated d' e' rt' m' =>
      refine commute_upserts fun hk => ?_
      obtain ⟨rfl, rfl⟩ := of_decide_eq_true h hk
      cases hk
      rfl
    | ended d' e' rt' => exact commute_upsert_ended (of_decide_eq_true h)
  | ended d e rt =>
    cases line' with
    | endpoints d' infos => exact (hdevice (.endpoints d' infos) _ (of_decide_eq_true h)).symm
    | announced d' e' rt' m' | updated d' e' rt' m' =>
      refine (commute_upsert_ended fun hk => ?_).symm
      exact fun hrt => of_decide_eq_true h hk.symm hrt.symm
    | ended d' e' rt' =>
      simp only [ControlLine.updateOf]
      split_ifs
      · exact CellUpdate.commute_drop_drop _ _
      · exact CellUpdate.commute_noop_right _
      · exact CellUpdate.commute_noop_left _
      · exact CellUpdate.commute_noop_left _

/-! ## What a locked step makes due -/

/-- Queues belong to one connection. -/
def OwnQueues (inner : RegistryInner) : Prop :=
  ∀ o c owner o' c' owner', inner.ownerConnection o c = some owner →
    inner.ownerConnection o' c' = some owner' → owner.tx = owner'.tx → o = o' ∧ c = c'

/-- The line that an Owner with a subscription is due for a change of `key`. -/
def deltaLine (key : EndpointKey) (previous : Option HostSnapshot)
    (current : Option HostConnection) (ownerId : String) : Option ControlLine :=
  visibilityLine key previous current
    (previous.any fun host => host.authorizedOwnerIds.contains ownerId)
    (current.any fun host => host.authorizedOwnerIds.contains ownerId)

theorem ownerDelta_eq (key : EndpointKey) (previous : Option HostSnapshot)
    (current : Option HostConnection) (ownerId : String)
    (connections : OrderedMap ℕ OwnerConnection) :
    ownerDelta key previous current ownerId connections =
      match deltaLine key previous current ownerId with
      | none => []
      | some line =>
        (connections.values.filter fun owner => owner.subscribedDeviceIds.contains key.1).map
          fun owner => (owner.tx, line) := rfl

theorem mem_ownerDelta {key : EndpointKey} {previous : Option HostSnapshot}
    {current : Option HostConnection} {o : String} {connections : OrderedMap ℕ OwnerConnection}
    {tx : Outbound} {line : ControlLine}
    (h : (tx, line) ∈ ownerDelta key previous current o connections) :
    deltaLine key previous current o = some line ∧
      ∃ c owner, connections.get? c = some owner ∧ owner.tx = tx ∧
        key.1 ∈ owner.subscribedDeviceIds := by
  rw [ownerDelta_eq] at h
  split at h
  · cases h
  · next line' hline =>
    obtain ⟨owner, hm, heq⟩ := List.mem_map.mp h
    obtain ⟨hv, hsub⟩ := List.mem_filter.mp hm
    obtain ⟨⟨c, owner'⟩, hc, rfl⟩ := List.mem_map.mp hv
    obtain ⟨htx, rfl⟩ := Prod.mk.inj heq
    exact ⟨hline, c, owner', OrderedMap.mem_entries_iff.mp hc, htx, by simpa using hsub⟩

/-- Notifications go to the queues of Owners that subscribe to the device. -/
theorem mem_visibilityDelta {inner : RegistryInner} {key : EndpointKey}
    {previous current : Option HostConnection} {tx : Outbound} {line : ControlLine}
    (h : (tx, line) ∈ visibilityDelta inner key previous current) :
    ∃ o c owner, inner.ownerConnection o c = some owner ∧ owner.tx = tx ∧
      key.1 ∈ owner.subscribedDeviceIds ∧
      deltaLine key (previous.map HostSnapshot.from) current o = some line := by
  obtain ⟨⟨o, connections⟩, he, hl⟩ := List.mem_flatMap.mp h
  obtain ⟨hline, c, owner, hc, htx, hsub⟩ := mem_ownerDelta hl
  exact ⟨o, c, owner, ownerConnection_eq_some.mpr ⟨_, OrderedMap.mem_entries_iff.mp he, hc⟩,
    htx, hsub, hline⟩

theorem deltaLine_deviceId {key : EndpointKey} {previous : Option HostSnapshot}
    {current : Option HostConnection} {o : String} {line : ControlLine}
    (h : deltaLine key previous current o = some line) : line.deviceId = key.1 := by
  unfold deltaLine visibilityLine at h
  split at h
  · obtain ⟨host, -, rfl⟩ := Option.map_eq_some_iff.mp h
    rfl
  · obtain ⟨host, -, rfl⟩ := Option.map_eq_some_iff.mp h
    rfl
  · obtain ⟨host, -, rfl⟩ := Option.map_eq_some_iff.mp h
    rfl
  · cases h

theorem linesTo_ownerDelta {key : EndpointKey} {previous : Option HostSnapshot}
    {current : Option HostConnection} {o : String} {connections : OrderedMap ℕ OwnerConnection}
    {c : ℕ} {owner : OwnerConnection} (hc : connections.get? c = some owner)
    (hq : ∀ c' owner', connections.get? c' = some owner' → owner'.tx = owner.tx → c' = c) :
    linesTo owner.tx (ownerDelta key previous current o connections) =
      if key.1 ∈ owner.subscribedDeviceIds then
        (deltaLine key previous current o).toList
      else [] := by
  rw [ownerDelta_eq]
  cases deltaLine key previous current o with
  | none => simp [linesTo]
  | some line =>
    have hflat : linesTo owner.tx
        ((connections.values.filter fun owner => owner.subscribedDeviceIds.contains key.1).map
          fun owner => (owner.tx, line)) =
        connections.entries.flatMap fun e =>
          if e.2.tx = owner.tx ∧ key.1 ∈ e.2.subscribedDeviceIds then [line] else [] := by
      unfold OrderedMap.values
      induction connections.entries with
      | nil => rfl
      | cons e es ih =>
        rw [List.flatMap_cons, ← ih]
        by_cases h₁ : key.1 ∈ e.2.subscribedDeviceIds <;> by_cases h₂ : e.2.tx = owner.tx <;>
          simp [linesTo, h₁, h₂]
    show linesTo owner.tx (List.map _ _) = _
    rw [hflat, OrderedMap.flatMap_entries_eq hc]
    · simp
    · intro e he hne
      rw [if_neg]
      rintro ⟨htx, -⟩
      exact hne (hq e.1 e.2 (OrderedMap.mem_entries_iff.mp he) htx)

/-- The line that a change of the entry `key` makes due on the queue of an Owner. -/
theorem linesTo_visibilityDelta {inner : RegistryInner} (hq : OwnQueues inner) {o : String}
    {c : ℕ} {owner : OwnerConnection} (ho : inner.ownerConnection o c = some owner)
    (key : EndpointKey) (previous current : Option HostConnection) :
    linesTo owner.tx (visibilityDelta inner key previous current) =
      if key.1 ∈ owner.subscribedDeviceIds then
        (deltaLine key (previous.map HostSnapshot.from) current o).toList
      else [] := by
  obtain ⟨connections, hs, hc⟩ := ownerConnection_eq_some.mp ho
  have hflat : linesTo owner.tx (visibilityDelta inner key previous current) =
      inner.owners.entries.flatMap fun e =>
        linesTo owner.tx (ownerDelta key (previous.map HostSnapshot.from) current e.1 e.2) := by
    unfold visibilityDelta visibilityDeltaWith linesTo
    rw [List.filterMap_flatMap]
  rw [hflat, OrderedMap.flatMap_entries_eq hs]
  · refine linesTo_ownerDelta hc fun c' owner' hc' htx => ?_
    exact (hq o c' owner' o c owner (ownerConnection_eq_some.mpr ⟨_, hs, hc'⟩) ho htx).2
  · intro e he hne
    refine List.eq_nil_iff_forall_not_mem.mpr fun line hl => ?_
    obtain ⟨-, c', owner', hc', htx, -⟩ := mem_ownerDelta (mem_linesTo.mp hl)
    have ho' := ownerConnection_eq_some.mpr ⟨_, OrderedMap.mem_entries_iff.mp he, hc'⟩
    exact hne (hq e.1 c' owner' o c owner ho' ho htx).1

/-- The line of a change brings the view of its endpoint up to date. -/
theorem deltaLine_act {inner inner' : RegistryInner} {key : EndpointKey}
    {previous current : Option HostConnection} (hp : inner.endpoints.get? key = previous)
    (hc : inner'.endpoints.get? key = current)
    (hn : ∀ key', key' ≠ key → inner'.endpoints.get? key' = inner.endpoints.get? key')
    (o : String) (key' : EndpointKey) :
    CellUpdate.apply ((deltaLine key (previous.map HostSnapshot.from) current o).toList.map
      (ControlLine.updateOf key')) (visible inner o key') = visible inner' o key' := by
  by_cases hk : key' = key
  · subst hk
    unfold visible deltaLine
    rw [hp, hc]
    cases previous with
    | none =>
      cases current with
      | none => rfl
      | some host =>
        by_cases h : o ∈ host.authorizedOwnerIds <;>
          simp [visibilityLine, endpointAnnouncedLine, ControlLine.updateOf, h, endpointInfo,
            Option.filter_some]
    | some host₀ =>
      cases current with
      | none =>
        by_cases h₀ : o ∈ host₀.authorizedOwnerIds <;>
          simp [visibilityLine, endpointEndedLine, ControlLine.updateOf, h₀, endpointInfo,
            HostSnapshot.from, HostSnapshot.endpointInfo, CellUpdate.act, Option.filter_some]
      | some host =>
        by_cases h₀ : o ∈ host₀.authorizedOwnerIds <;> by_cases h : o ∈ host.authorizedOwnerIds <;>
          simp [visibilityLine, endpointAnnouncedLine, endpointUpdatedLine, endpointEndedLine,
            ControlLine.updateOf, h₀, h, endpointInfo, HostSnapshot.from,
            HostSnapshot.endpointInfo, CellUpdate.act, Option.filter_some]
  · have hv : visible inner' o key' = visible inner o key' := by rw [visible, hn key' hk]; rfl
    rw [hv]
    unfold deltaLine visibilityLine
    split
    · cases current <;>
        simp [endpointAnnouncedLine, ControlLine.updateOf, endpointInfo, hk]
    · cases current <;>
        simp [endpointUpdatedLine, ControlLine.updateOf, endpointInfo, hk]
    · cases previous <;>
        simp [endpointEndedLine, ControlLine.updateOf, HostSnapshot.endpointInfo, hk]
    · rfl

/-- A snapshot replaces the view of its device by what is visible. -/
theorem deviceSnapshot_act (inner : RegistryInner) (o deviceId : String) (key : EndpointKey)
    (v : Option EndpointInfo) :
    ((deviceSnapshot inner o deviceId).updateOf key).act v =
      if key.1 = deviceId then visible inner o key else v := by
  by_cases hd : key.1 = deviceId
  · subst hd
    have hfind : ∀ e : EndpointKey × HostConnection,
        decide ((decide (e.1.1 = key.1) && e.2.authorizedOwnerIds.contains o) = true ∧
            ((fun info : EndpointInfo => decide (info.endpointId = key.2)) ∘
              fun e : EndpointKey × HostConnection => endpointInfo e.2 e.1.2) e = true) =
          (decide (e.1 = key) && e.2.authorizedOwnerIds.contains o) := by
      intro e
      obtain ⟨⟨d, e⟩, host⟩ := e
      obtain ⟨d', e'⟩ := key
      by_cases h₁ : d = d' <;> by_cases h₂ : e = e' <;> simp [endpointInfo, h₁, h₂]
    simp only [deviceSnapshot, endpointsLine, ControlLine.updateOf, if_true, CellUpdate.act_put,
      List.find?_map, List.find?_filter, hfind, visible]
    rw [OrderedMap.find?_entries inner.endpoints key fun host => host.authorizedOwnerIds.contains o,
      Option.map_map]
    rfl
  · simp only [deviceSnapshot, endpointsLine, ControlLine.updateOf, hd, if_false,
      CellUpdate.act_noop]

theorem snapshots_act (inner : RegistryInner) (o : String) (deviceIds : List String)
    (key : EndpointKey) (v : Option EndpointInfo) :
    CellUpdate.apply ((deviceIds.map (deviceSnapshot inner o)).map (ControlLine.updateOf key)) v =
      if key.1 ∈ deviceIds then visible inner o key else v := by
  induction deviceIds generalizing v with
  | nil => simp
  | cons d ds ih =>
    rw [List.map_cons, List.map_cons, CellUpdate.apply_cons, ih, deviceSnapshot_act]
    by_cases h₁ : key.1 = d <;> by_cases h₂ : key.1 ∈ ds <;> simp [h₁, h₂]

/-! ## Runs that push in order -/

/-- The devices the connection of a queue subscribes to. -/
def State.subscriptions (r : State) (tx : Outbound) : List String :=
  match r.sockets.get? tx with
  | some ⟨_, .serving (.owner ownerId connId)⟩ =>
    ((r.inner.ownerConnection ownerId connId).map OwnerConnection.subscribedDeviceIds).getD []
  | _ => []

/-- A push does not overtake a line of an earlier locked step for the same queue
    that it does not commute with, and a snapshot of a device that was not
    subscribed does not overtake a line about it. -/
def inOrder (r : State) : Label → Bool
  | .push tx =>
    (r.outstanding.entries.takeWhile fun e => decide (e.1 ≠ tx)).all fun e =>
      e.2.all fun n => ((r.outstanding.get? tx).getD []).all fun n' =>
        decide (n.1 = n'.1 → reorderable n.2 n'.2 = true)
  | .frame tx (.subscribeEndpoints deviceIds) =>
    (pendingLines r tx).all fun line =>
      decide (line.deviceId ∈ deviceIds → line.deviceId ∈ r.subscriptions tx)
  | _ => true

/-- A subscription drops no device. -/
def keepsDevices (r : State) : Label → Bool
  | .frame tx (.subscribeEndpoints deviceIds) =>
    (r.subscriptions tx).all fun deviceId => deviceIds.contains deviceId
  | _ => true

/-- The task of a queue has not registered. -/
def Unregistered (r : State) (tx : Outbound) : Prop :=
  r.sockets.get? tx = none ∨ ∃ a hello c, r.sockets.get? tx = some ⟨a, .registering hello c⟩

/-- What an Owner has received and is still due adds up to what is visible to it. -/
structure Tracks (r : State) : Prop where
  wellFormed : WellFormed r
  fresh : ∀ tx, Unregistered r tx → r.outstanding.get? tx = none ∧ due r tx = []
  view_due : ∀ o c owner, r.inner.ownerConnection o c = some owner →
    ∀ key, key.1 ∈ owner.subscribedDeviceIds → view (due r owner.tx) key = visible r.inner o key

theorem WellFormed.ownQueues {r : State} (hr : WellFormed r) : OwnQueues r.inner := by
  intro o c owner o' c' owner' h h' htx
  have h₁ := hr.owner_socket o c owner h
  rw [htx, hr.owner_socket o' c' owner' h'] at h₁
  cases h₁
  exact ⟨rfl, rfl⟩

theorem WellFormed.isOpen_owner {r : State} (hr : WellFormed r) {o : String} {c : ℕ}
    {owner : OwnerConnection} (h : r.inner.ownerConnection o c = some owner) :
    r.isOpen owner.tx = true := by
  simp [State.isOpen, hr.owner_socket o c owner h]

theorem WellFormed.subscriptions_eq {r : State} (hr : WellFormed r) {o : String} {c : ℕ}
    {owner : OwnerConnection} (h : r.inner.ownerConnection o c = some owner) :
    r.subscriptions owner.tx = owner.subscribedDeviceIds := by
  simp [State.subscriptions, hr.owner_socket o c owner h, h]

theorem WellFormed.owner_not_unregistered {r : State} (hr : WellFormed r) {o : String} {c : ℕ}
    {owner : OwnerConnection} (h : r.inner.ownerConnection o c = some owner) :
    ¬ Unregistered r owner.tx := by
  rintro (hn | ⟨a, hello, c', hn⟩) <;> rw [hr.owner_socket o c owner h] at hn <;> cases hn

/-- What is due after a locked step of a task that had pushed its notifications. -/
theorem due_locked {r : State} {tx : Outbound} (hout : r.outstanding.get? tx = none)
    (socket : Socket) (phase : SocketPhase) (l : LockedStep) (tx' : Outbound) :
    due (r.locked tx socket phase l) tx' =
      controlLines tx' r.sent ++ controlLines tx' (l.sends.filter fun m => r.isOpen m.1) ++
        (pendingLines r tx' ++ linesTo tx' l.notifications) := by
  unfold due pendingLines
  rw [locked_sent, controlLines_append, locked_outstanding]
  split_ifs with hn
  · simp [hn, linesTo]
  · rw [OrderedMap.entries_set_of_none _ hout, List.flatMap_append]
    simp

/-! ## Every step in order keeps track -/

/-- Control lines that a locked step sends or makes due go to registered Owners. -/
def ToOwners (l : LockedStep) : Prop :=
  ∀ tx line, (tx, Message.control line) ∈ l.sends ∨ (tx, line) ∈ l.notifications →
    ∃ o c owner, l.inner.ownerConnection o c = some owner ∧ owner.tx = tx

theorem mem_controlLines {tx : Outbound} {line : ControlLine} {ms : List (Outbound × Message)}
    (h : line ∈ controlLines tx ms) : (tx, Message.control line) ∈ ms := by
  obtain ⟨⟨tx', m⟩, hm, hl⟩ := List.mem_filterMap.mp h
  cases m with
  | control line' =>
    split_ifs at hl with htx
    cases hl
    exact htx ▸ hm
  | route frame => cases hl

theorem Tracks.locked {r : State} (ht : Tracks r) {tx : Outbound} {socket : Socket}
    {phase : SocketPhase} {l : LockedStep} (hw : WellFormed (r.locked tx socket phase l))
    (hout : r.outstanding.get? tx = none) (hphase : ∀ hello c, phase ≠ .registering hello c)
    (hto : ToOwners l)
    (hview : ∀ o c owner, l.inner.ownerConnection o c = some owner →
      ∀ key, key.1 ∈ owner.subscribedDeviceIds →
        view (due (r.locked tx socket phase l) owner.tx) key = visible l.inner o key) :
    Tracks (r.locked tx socket phase l) := by
  refine ⟨hw, fun tx' hu => ?_, hview⟩
  have hne : tx' ≠ tx := by
    rintro rfl
    rcases hu with hu | ⟨a, hello, c, hu⟩ <;> rw [locked_sockets, OrderedMap.get?_set_self] at hu
    · cases hu
    · cases hu
      exact hphase hello c rfl
  have hu' : Unregistered r tx' := by
    simpa only [Unregistered, locked_sockets, OrderedMap.get?_set_of_ne _ _ hne] using hu
  obtain ⟨hnone, hdue⟩ := ht.fresh tx' hu'
  have hno : ∀ line, ¬ ((tx', Message.control line) ∈ l.sends ∨ (tx', line) ∈ l.notifications) := by
    intro line hl
    obtain ⟨o, c, owner, ho, rfl⟩ := hto tx' line hl
    exact hw.owner_not_unregistered ho hu
  constructor
  · rw [locked_outstanding]
    split_ifs
    · exact hnone
    · rw [OrderedMap.get?_set_of_ne _ _ hne, hnone]
  · obtain ⟨hsent, hpend⟩ := List.append_eq_nil_iff.mp hdue
    have h₁ : controlLines tx' (l.sends.filter fun m => r.isOpen m.1) = [] := by
      refine List.eq_nil_iff_forall_not_mem.mpr fun line hl => hno line (Or.inl ?_)
      exact (List.mem_filter.mp (mem_controlLines hl)).1
    have h₂ : linesTo tx' l.notifications = [] :=
      List.eq_nil_iff_forall_not_mem.mpr fun line hl => hno line (Or.inr (mem_linesTo.mp hl))
    rw [due_locked hout, hsent, hpend, h₁, h₂]
    rfl

/-- A locked step that changes the entry `key` and makes its visibility delta due. -/
theorem Tracks.delta {r : State} (ht : Tracks r) {tx : Outbound} {socket : Socket}
    {phase : SocketPhase} {l : LockedStep} (hw : WellFormed (r.locked tx socket phase l))
    (hout : r.outstanding.get? tx = none) (hphase : ∀ hello c, phase ≠ .registering hello c)
    (key : EndpointKey) {previous current : Option HostConnection} (hsends : l.sends = [])
    (hn : l.notifications = visibilityDelta l.inner key previous current)
    (hprev : r.inner.endpoints.get? key = previous)
    (hcur : l.inner.endpoints.get? key = current)
    (hother : ∀ key', key' ≠ key → l.inner.endpoints.get? key' = r.inner.endpoints.get? key')
    (howners : l.inner.owners = r.inner.owners) : Tracks (r.locked tx socket phase l) := by
  refine ht.locked hw hout hphase ?_ fun o c owner ho key' hsub => ?_
  · rintro tx' line (hl | hl)
    · rw [hsends] at hl
      cases hl
    · rw [hn] at hl
      obtain ⟨o, c, owner, ho, htx, -⟩ := mem_visibilityDelta hl
      exact ⟨o, c, owner, ho, htx⟩
  · have ho' : r.inner.ownerConnection o c = some owner := by
      rw [RegistryInner.ownerConnection, ← howners]
      exact ho
    have hdue : due (r.locked tx socket phase l) owner.tx =
        due r owner.tx ++ linesTo owner.tx l.notifications := by
      rw [due_locked hout, hsends]
      simp [due, controlLines]
    have hq : OwnQueues l.inner := hw.ownQueues
    rw [hdue, view_append, ht.view_due o c owner ho' key' hsub, hn, linesTo_visibilityDelta hq ho]
    split_ifs with hs
    · exact deltaLine_act hprev hcur hother o key'
    · have hk : key' ≠ key := by
        rintro rfl
        exact hs hsub
      rw [visible, visible, hother key' hk]
      rfl

/-- A locked step that changes no endpoint and no subscription, and sends no
    control line. -/
theorem Tracks.silent {r : State} (ht : Tracks r) {tx : Outbound} {socket : Socket}
    {phase : SocketPhase} {l : LockedStep} (hw : WellFormed (r.locked tx socket phase l))
    (hout : r.outstanding.get? tx = none) (hphase : ∀ hello c, phase ≠ .registering hello c)
    (hsends : ∀ tx' line, (tx', Message.control line) ∉ l.sends) (hn : l.notifications = [])
    (hends : l.inner.endpoints = r.inner.endpoints)
    (howners : ∀ o c owner, l.inner.ownerConnection o c = some owner →
      owner.subscribedDeviceIds = [] ∨ r.inner.ownerConnection o c = some owner) :
    Tracks (r.locked tx socket phase l) := by
  refine ht.locked hw hout hphase ?_ fun o c owner ho key hsub => ?_
  · rintro tx' line (hl | hl)
    · exact absurd hl (hsends tx' line)
    · rw [hn] at hl
      cases hl
  · rcases howners o c owner ho with he | ho'
    · rw [he] at hsub
      cases hsub
    · have hnil : controlLines owner.tx (l.sends.filter fun m => r.isOpen m.1) = [] :=
        List.eq_nil_iff_forall_not_mem.mpr fun line hl =>
          hsends _ line (List.mem_filter.mp (mem_controlLines hl)).1
      have hdue : due (r.locked tx socket phase l) owner.tx = due r owner.tx := by
        rw [due_locked hout, hn, hnil]
        simp [due, linesTo]
      rw [hdue, ht.view_due o c owner ho' key hsub, visible, visible, hends]

/-- The lines of a subscription's snapshots on the queue of its connection. -/
theorem controlLines_snapshots (r : State) {tx : Outbound} (ho : r.isOpen tx = true)
    (deviceIds : List String) (f : String → ControlLine) :
    controlLines tx (((deviceIds.map fun d => (tx, f d)).map
        fun s => (s.1, Message.control s.2)).filter fun m => r.isOpen m.1) = deviceIds.map f := by
  rw [controlLines_notifications r ho]
  simp [linesTo]

theorem Tracks.subscribe {r : State} (ht : Tracks r) {tx : Outbound} {a ownerId : String}
    {connId : ℕ} {deviceIds : List String} {inner' : RegistryInner} {snapshots : Notifications}
    (hs : r.sockets.get? tx = some ⟨a, .serving (.owner ownerId connId)⟩)
    (hsub : subscribeEndpoints r.inner ownerId connId deviceIds = some (inner', snapshots))
    (hw : WellFormed (r.locked tx ⟨a, .serving (.owner ownerId connId)⟩
      (.serving (.owner ownerId connId))
      { inner := inner', sends := snapshots.map fun s => (s.1, .control s.2) }))
    (hout : r.outstanding.get? tx = none)
    (hok : inOrder r (.frame tx (.subscribeEndpoints deviceIds)) = true) :
    Tracks (r.locked tx ⟨a, .serving (.owner ownerId connId)⟩
      (.serving (.owner ownerId connId))
      { inner := inner', sends := snapshots.map fun s => (s.1, .control s.2) }) := by
  obtain ⟨owner, ho, hends, hall, rfl⟩ := subscribeEndpoints_eq_some hsub
  have htx : owner.tx = tx := by
    have hsock := ht.wellFormed.owner_socket ownerId connId owner ho
    exact ht.wellFormed.connId_inj _ _ _ _ connId hsock hs rfl rfl
  subst htx
  have ho' : inner'.ownerConnection ownerId connId =
      some { owner with subscribedDeviceIds := deviceIds.dedup } := by
    rw [hall, if_pos ⟨rfl, rfl⟩]
  have hvis : ∀ o key, visible inner' o key = visible r.inner o key := by
    intro o key
    rw [visible, visible, hends]
  refine ht.locked hw hout (fun _ _ h => by cases h) ?_ fun o c owner' howner key hkey => ?_
  · rintro tx' line (hl | hl)
    · simp only [List.map_map, List.mem_map, Function.comp_apply, Prod.mk.injEq] at hl
      obtain ⟨d, -, rfl, -⟩ := hl
      exact ⟨ownerId, connId, _, ho', rfl⟩
    · cases hl
  · by_cases hk : o = ownerId ∧ c = connId
    · obtain ⟨rfl, rfl⟩ := hk
      cases ho'.symm.trans howner
      rw [due_locked hout]
      show view (controlLines owner.tx r.sent ++ controlLines owner.tx _ ++
        (pendingLines r owner.tx ++ [])) key = visible inner' o key
      rw [controlLines_snapshots r (ht.wellFormed.isOpen_owner ho), List.append_nil, view_append,
        view_append, snapshots_act, if_pos hkey]
      by_cases hold : key.1 ∈ owner.subscribedDeviceIds
      · -- what is pending acted on the old view already
        have hv := ht.view_due o c owner ho key hold
        rw [due, view_append] at hv
        rw [hvis, ← hv, CellUpdate.apply_apply]
      · refine apply_of_device_ne (fun line hl hd => hold ?_) _
        have hline := of_decide_eq_true (List.all_eq_true.mp hok line hl)
        rw [← hd, ← ht.wellFormed.subscriptions_eq ho]
        exact hline (hd ▸ List.mem_dedup.mp hkey)
    · have hold : r.inner.ownerConnection o c = some owner' := by
        rw [← howner]
        exact (by rw [hall, if_neg hk])
      have hne : owner.tx ≠ owner'.tx := by
        intro htx
        obtain ⟨h₁, h₂⟩ := ht.wellFormed.ownQueues _ _ _ _ _ _ ho hold htx
        exact hk ⟨h₁.symm, h₂.symm⟩
      rw [hvis, ← ht.view_due o c owner' hold key hkey, due_locked hout]
      have hnil : controlLines owner'.tx (((deviceIds.dedup.map fun d =>
          (owner.tx, deviceSnapshot inner' ownerId d)).map
            fun s => (s.1, Message.control s.2)).filter fun m => r.isOpen m.1) = [] := by
        refine List.eq_nil_iff_forall_not_mem.mpr fun line hl => hne ?_
        obtain ⟨s, hs', heq⟩ := List.mem_map.mp (List.mem_filter.mp (mem_controlLines hl)).1
        obtain ⟨d, -, rfl⟩ := List.mem_map.mp hs'
        exact congrArg Prod.fst heq
      show view (controlLines owner'.tx r.sent ++ controlLines owner'.tx _ ++
        (pendingLines r owner'.tx ++ [])) key = _
      rw [hnil, List.append_nil, List.append_nil]
      rfl

/-- The lines of one task among the pending ones. -/
theorem pendingLines_eq {r : State} {tx : Outbound} {ns : Notifications}
    (h : r.outstanding.get? tx = some ns) :
    ∃ pre post : List (Outbound × Notifications),
      r.outstanding.entries = pre ++ (tx, ns) :: post ∧
      (r.outstanding.entries.takeWhile fun e => decide (e.1 ≠ tx)) = pre ∧
      ∀ tx', pendingLines r tx' =
          (pre.flatMap fun e => linesTo tx' e.2) ++ (linesTo tx' ns ++
            post.flatMap fun e => linesTo tx' e.2) ∧
        ((r.outstanding.erase tx).entries.flatMap fun e => linesTo tx' e.2) =
          (pre.flatMap fun e => linesTo tx' e.2) ++ post.flatMap fun e => linesTo tx' e.2 := by
  obtain ⟨pre, post, he, hpre, hpost⟩ := OrderedMap.exists_entries_eq h
  refine ⟨pre, post, he, ?_, fun tx' => ⟨?_, ?_⟩⟩
  · have hall : ∀ e ∈ pre, decide (e.1 ≠ tx) = true := by
      intro e hm
      refine decide_eq_true fun hk => hpre ?_
      exact hk ▸ List.mem_map_of_mem hm
    rw [he, List.takeWhile_append_of_pos hall]
    simp
  · rw [pendingLines, he, List.flatMap_append, List.flatMap_cons]
  · rw [OrderedMap.entries_erase_eq he hpre hpost, List.flatMap_append]

theorem Tracks.push {r r' : State} (ht : Tracks r) {tx : Outbound}
    (h : r.step (.push tx) = some r') (hw : WellFormed r')
    (hok : inOrder r (.push tx) = true) : Tracks r' := by
  obtain ⟨ns, hout, rfl⟩ := step_push h
  obtain ⟨pre, post, he, htake, hlines⟩ := pendingLines_eq hout
  refine ⟨hw, fun tx' hu => ?_, fun o c owner ho key hkey => ?_⟩
  · obtain ⟨hnone, hdue⟩ := ht.fresh tx' hu
    obtain ⟨hsent, hpend⟩ := List.append_eq_nil_iff.mp hdue
    rw [(hlines tx').1, List.append_eq_nil_iff, List.append_eq_nil_iff] at hpend
    constructor
    · show (r.outstanding.erase tx).get? tx' = none
      rw [OrderedMap.get?_erase]
      split_ifs
      · rfl
      · exact hnone
    · have hnew : controlLines tx' ((ns.map fun n => (n.1, Message.control n.2)).filter
          fun m => r.isOpen m.1) = [] := by
        refine List.eq_nil_iff_forall_not_mem.mpr fun line hl => ?_
        obtain ⟨n, hn, heq⟩ := List.mem_map.mp (List.mem_filter.mp (mem_controlLines hl)).1
        cases heq
        have := mem_linesTo.mpr hn
        rw [hpend.2.1] at this
        cases this
      show controlLines tx' (r.sent ++ _) ++ _ = []
      rw [controlLines_append, hsent, hnew]
      show [] ++ ((r.outstanding.erase tx).entries.flatMap fun e => linesTo tx' e.2) = []
      rw [(hlines tx').2, hpend.1, hpend.2.2]
      rfl
  · have hopen := ht.wellFormed.isOpen_owner ho
    have hv := ht.view_due o c owner ho key hkey
    rw [due, (hlines owner.tx).1, view_append, List.map_append, List.map_append,
      CellUpdate.apply_append, CellUpdate.apply_append] at hv
    show view (controlLines owner.tx (r.sent ++ _) ++
      ((r.outstanding.erase tx).entries.flatMap fun e => linesTo owner.tx e.2)) key =
        visible r.inner o key
    rw [controlLines_append, controlLines_notifications r hopen, (hlines owner.tx).2, view_append,
      view_append, List.map_append, CellUpdate.apply_append, ← hv]
    congr 1
    -- the pushed lines move in front of those of the earlier locked steps
    rw [← CellUpdate.apply_append, ← CellUpdate.apply_append]
    refine (CellUpdate.apply_append_swap ?_ _).symm
    intro u hu u' hu'
    obtain ⟨line, hl, rfl⟩ := List.mem_map.mp hu
    obtain ⟨line', hl', rfl⟩ := List.mem_map.mp hu'
    obtain ⟨e, hm, hl⟩ := List.mem_flatMap.mp hl
    refine commute_of_reorderable ?_ key
    simp only [inOrder, htake, hout, Option.getD_some, List.all_eq_true, decide_eq_true_eq] at hok
    exact hok e hm _ (mem_linesTo.mp hl) _ (mem_linesTo.mp hl') rfl

theorem tracks_init : Tracks State.init :=
  ⟨wellFormed_init, fun _ _ => ⟨rfl, rfl⟩, fun _ _ _ h => by cases h⟩

/-- The locked step of a frame other than a subscription. -/
theorem Tracks.frame {r : State} (ht : Tracks r) {tx : Outbound} {a : String}
    {connection : Connection} {frame : PeerFrame}
    (hs : r.sockets.get? tx = some ⟨a, .serving connection⟩)
    (hout : r.outstanding.get? tx = none)
    (hw : WellFormed (r.locked tx ⟨a, .serving connection⟩ (.serving connection)
      (handleFrame r.isOpen r.inner connection frame)))
    (hok : inOrder r (.frame tx frame) = true) :
    Tracks (r.locked tx ⟨a, .serving connection⟩ (.serving connection)
      (handleFrame r.isOpen r.inner connection frame)) := by
  have hphase : ∀ hello c, SocketPhase.serving connection ≠ .registering hello c :=
    fun _ _ h => by cases h
  have hroute : ∀ {inner : RegistryInner} (frames : List (Outbound × RouteFrame)),
      inner = r.inner →
      WellFormed (r.locked tx ⟨a, .serving connection⟩ (.serving connection)
        { inner, sends := frames.map fun s => (s.1, .route s.2) }) →
      Tracks (r.locked tx ⟨a, .serving connection⟩ (.serving connection)
        { inner, sends := frames.map fun s => (s.1, .route s.2) }) := by
    rintro inner frames rfl hw
    refine ht.silent hw hout hphase (fun tx' line hl => ?_) rfl rfl fun _ _ _ h => Or.inr h
    obtain ⟨s, -, heq⟩ := List.mem_map.mp hl
    cases heq
  have hnone := hroute [] rfl
  cases connection with
  | owner ownerId connId =>
    cases frame with
    | subscribeEndpoints deviceIds =>
      simp only [handleFrame] at hw ⊢
      split at hw
      · next inner' snapshots hsub => exact ht.subscribe hs hsub hw hout hok
      · exact hnone hw
    | endpointUpdate update => exact hnone hw
    | route f => exact hroute _ rfl hw
    | dropped => exact hnone hw
  | host deviceId endpointId connId =>
    cases frame with
    | subscribeEndpoints deviceIds => exact hnone hw
    | endpointUpdate update =>
      simp only [handleFrame] at hw ⊢
      split at hw
      · next inner' notifications hup =>
        obtain ⟨host, hh, hc, rfl, rfl⟩ := updateHost_eq_some hup
        refine ht.delta hw hout hphase _ rfl rfl hh (OrderedMap.get?_set_self ..) ?_ rfl
        exact fun key' hk => OrderedMap.get?_set_of_ne _ _ hk
      · exact hnone hw
    | route f => exact hroute _ rfl hw
    | dropped => exact hnone hw

theorem Tracks.register {r : State} (ht : Tracks r) {tx : Outbound} {a : String} {hello : Hello}
    {c : ℕ} (hs : r.sockets.get? tx = some ⟨a, .registering hello c⟩) :
    Tracks (r.locked tx ⟨a, .registering hello c⟩
      (.serving (registerConnection r.inner c tx hello).1)
      (registerConnection r.inner c tx hello).2) := by
  have hw := ht.wellFormed.register hs
  have hout := (ht.fresh tx (Or.inr ⟨a, hello, c, hs⟩)).1
  have hphase : ∀ connection hello c, SocketPhase.serving connection ≠ .registering hello c :=
    fun _ _ _ h => by cases h
  cases hello with
  | host host =>
    refine ht.delta hw hout (hphase _) (host.deviceId, host.endpointId) rfl rfl rfl rfl
      (fun key' hk => OrderedMap.get?_set_of_ne _ _ hk) rfl
  | owner ownerId =>
    refine ht.silent hw hout (hphase _) (fun _ _ hl => by cases hl) rfl rfl ?_
    intro o c' owner ho
    simp only [registerConnection, registerOwner_ownerConnection] at ho
    split_ifs at ho
    · cases ho
      exact Or.inl rfl
    · exact Or.inr ho

theorem Tracks.disconnect {r : State} (ht : Tracks r) {tx : Outbound} {a : String}
    {connection : Connection} (hs : r.sockets.get? tx = some ⟨a, .serving connection⟩)
    (hout : r.outstanding.get? tx = none) :
    Tracks (r.locked tx ⟨a, .serving connection⟩ .closed
      (unregisterConnection r.inner connection)) := by
  have hw := ht.wellFormed.disconnect hs
  have hphase : ∀ hello c, SocketPhase.closed ≠ .registering hello c := fun _ _ h => by cases h
  cases connection with
  | host deviceId endpointId connId =>
    simp only [unregisterConnection] at hw ⊢
    rcases unregisterHost_cases r.inner deviceId endpointId connId with
      ⟨host, hh, -, he⟩ | ⟨-, he⟩
    · rw [he] at hw ⊢
      refine ht.delta hw hout hphase _ rfl rfl hh (OrderedMap.get?_erase_self ..) ?_ rfl
      exact fun key' hk => OrderedMap.get?_erase_of_ne _ hk
    · rw [he] at hw ⊢
      exact ht.silent hw hout hphase (fun _ _ hl => by cases hl) rfl rfl fun _ _ _ h => Or.inr h
  | owner ownerId connId =>
    refine ht.silent hw hout hphase (fun _ _ hl => by cases hl) rfl
      (unregisterOwner_endpoints ..) ?_
    intro o c owner ho
    simp only [unregisterConnection, unregisterOwner_ownerConnection] at ho
    split_ifs at ho
    exact Or.inr ho

theorem tracks_step (r : State) (label : Label) (r' : State) (ht : Tracks r)
    (hok : inOrder r label = true) (h : r.step label = some r') : Tracks r' := by
  have hw := wellFormed_step r label r' ht.wellFormed h
  cases label with
  | accept tx a hello =>
    have hkeep : r'.inner = r.inner ∧ r'.outstanding = r.outstanding ∧ r'.sent = r.sent ∧
        r.sockets.get? tx = none ∧ ∀ tx', tx' ≠ tx → r'.sockets.get? tx' = r.sockets.get? tx' := by
      obtain ⟨hn, ⟨-, rfl⟩ | rfl⟩ := step_accept h <;>
        exact ⟨rfl, rfl, rfl, hn, fun tx' hne => OrderedMap.get?_set_of_ne _ _ hne⟩
    obtain ⟨hi, ho, hsent, hn, hsock⟩ := hkeep
    have hdue : ∀ tx', due r' tx' = due r tx' := by
      intro tx'
      rw [due, due, pendingLines, pendingLines, ho, hsent]
    refine ⟨hw, fun tx' hu => ?_, fun o c owner howner key hkey => ?_⟩
    · rw [ho, hdue]
      refine ht.fresh tx' ?_
      by_cases hne : tx' = tx
      · exact Or.inl (hne ▸ hn)
      · rwa [Unregistered, hsock tx' hne] at hu
    · rw [hi] at howner ⊢
      rw [hdue]
      exact ht.view_due o c owner howner key hkey
  | register tx =>
    obtain ⟨a, hello, c, hs, rfl⟩ := step_register h
    exact ht.register hs
  | frame tx frame =>
    obtain ⟨a, connection, hs, hout, rfl⟩ := step_frame h
    exact ht.frame hs hout hw hok
  | disconnect tx =>
    obtain ⟨a, connection, hs, hout, rfl⟩ := step_disconnect h
    exact ht.disconnect hs hout
  | push tx => exact ht.push h hw hok

theorem tracks_run {labels : List Label} {r : State}
    (hok : Along State.step (fun r l => inOrder r l = true) State.init labels)
    (h : run State.step State.init labels = some r) : Tracks r :=
  invariant_along tracks_step tracks_init hok h

/-! ## Runs that drop no device -/

/-- Every line on the queue of an Owner, or due there, is about a device it
    subscribes to. -/
def Covered (r : State) : Prop :=
  ∀ o c owner, r.inner.ownerConnection o c = some owner →
    ∀ line ∈ due r owner.tx, line.deviceId ∈ owner.subscribedDeviceIds

theorem Covered.locked {r : State} (hr : Covered r) (ht : Tracks r) {tx : Outbound}
    {socket : Socket} {phase : SocketPhase} {l : LockedStep}
    (hout : r.outstanding.get? tx = none)
    (hnew : ∀ o c owner, l.inner.ownerConnection o c = some owner → ∀ line,
      (owner.tx, Message.control line) ∈ l.sends ∨ (owner.tx, line) ∈ l.notifications →
        line.deviceId ∈ owner.subscribedDeviceIds)
    (hold : ∀ o c owner, l.inner.ownerConnection o c = some owner →
      Unregistered r owner.tx ∨ ∃ owner₀, r.inner.ownerConnection o c = some owner₀ ∧
        owner₀.tx = owner.tx ∧ owner₀.subscribedDeviceIds ⊆ owner.subscribedDeviceIds) :
    Covered (r.locked tx socket phase l) := by
  intro o c owner ho line hl
  have hsplit : line ∈ due r owner.tx ∨
      ((owner.tx, Message.control line) ∈ l.sends ∨ (owner.tx, line) ∈ l.notifications) := by
    rw [due_locked hout, List.mem_append, List.mem_append, List.mem_append] at hl
    rcases hl with (hl | hl) | (hl | hl)
    · exact Or.inl (List.mem_append_left _ hl)
    · exact Or.inr (Or.inl (List.mem_filter.mp (mem_controlLines hl)).1)
    · exact Or.inl (List.mem_append_right _ hl)
    · exact Or.inr (Or.inr (mem_linesTo.mp hl))
  rcases hsplit with hl | hl
  · rcases hold o c owner ho with hu | ⟨owner₀, h₀, htx, hsub⟩
    · rw [(ht.fresh _ hu).2] at hl
      cases hl
    · exact hsub (hr o c owner₀ h₀ line (htx ▸ hl))
  · exact hnew o c owner ho line hl

/-- The lines of a visibility delta are about a subscribed device. -/
theorem OwnQueues.delta_covered {inner : RegistryInner} (hq : OwnQueues inner) {o : String}
    {c : ℕ} {owner : OwnerConnection} (ho : inner.ownerConnection o c = some owner)
    {key : EndpointKey} {previous current : Option HostConnection} {line : ControlLine}
    (h : (owner.tx, line) ∈ visibilityDelta inner key previous current) :
    line.deviceId ∈ owner.subscribedDeviceIds := by
  obtain ⟨o', c', owner', ho', htx, hsub, hline⟩ := mem_visibilityDelta h
  obtain ⟨rfl, rfl⟩ := hq _ _ _ _ _ _ ho' ho htx
  cases ho'.symm.trans ho
  rw [deltaLine_deviceId hline]
  exact hsub

theorem Covered.frame {r : State} (hr : Covered r) (ht : Tracks r) {tx : Outbound} {a : String}
    {connection : Connection} {frame : PeerFrame}
    (hs : r.sockets.get? tx = some ⟨a, .serving connection⟩)
    (hout : r.outstanding.get? tx = none)
    (hq : OwnQueues (handleFrame r.isOpen r.inner connection frame).inner)
    (hok : keepsDevices r (.frame tx frame) = true) :
    Covered (r.locked tx ⟨a, .serving connection⟩ (.serving connection)
      (handleFrame r.isOpen r.inner connection frame)) := by
  have hroute : ∀ frames : List (Outbound × RouteFrame),
      Covered (r.locked tx ⟨a, .serving connection⟩ (.serving connection)
        { inner := r.inner, sends := frames.map fun s => (s.1, .route s.2) }) := by
    refine fun frames => hr.locked ht hout (fun o c owner ho line hl => ?_) fun o c owner ho =>
      Or.inr ⟨owner, ho, rfl, List.Subset.refl _⟩
    rcases hl with hl | hl
    · obtain ⟨s, -, heq⟩ := List.mem_map.mp hl
      cases congrArg Prod.snd heq
    · cases hl
  have hnone := hroute []
  cases connection with
  | owner ownerId connId =>
    cases frame with
    | subscribeEndpoints deviceIds =>
      simp only [handleFrame] at hq ⊢
      split at hq
      · next inner' snapshots hsub =>
        obtain ⟨owner, ho, -, hall, rfl⟩ := subscribeEndpoints_eq_some hsub
        have htx : owner.tx = tx := ht.wellFormed.connId_inj _ _ _ _ connId
          (ht.wellFormed.owner_socket ownerId connId owner ho) hs rfl rfl
        have ho' : inner'.ownerConnection ownerId connId =
            some { owner with subscribedDeviceIds := deviceIds.dedup } := by
          rw [hall, if_pos ⟨rfl, rfl⟩]
        refine hr.locked ht hout (fun o c owner₁ h₁ line hl => ?_) fun o c owner₁ h₁ => ?_
        · rcases hl with hl | hl
          · simp only [List.map_map, List.mem_map, Function.comp_apply, Prod.mk.injEq,
              Message.control.injEq] at hl
            obtain ⟨d, hd, heq, rfl⟩ := hl
            obtain ⟨rfl, rfl⟩ := hq _ _ _ _ _ _ ho' h₁ heq
            cases ho'.symm.trans h₁
            exact hd
          · cases hl
        · by_cases hk : o = ownerId ∧ c = connId
          · obtain ⟨rfl, rfl⟩ := hk
            cases ho'.symm.trans h₁
            refine Or.inr ⟨owner, ho, rfl, fun d hd => List.mem_dedup.mpr ?_⟩
            have hsubs : r.subscriptions tx = owner.subscribedDeviceIds :=
              htx ▸ ht.wellFormed.subscriptions_eq ho
            simp only [keepsDevices, hsubs, List.all_eq_true] at hok
            simpa using hok d hd
          · have hold : r.inner.ownerConnection o c = some owner₁ := by
              rw [← h₁]
              exact (by rw [hall, if_neg hk])
            exact Or.inr ⟨owner₁, hold, rfl, List.Subset.refl _⟩
      · exact hnone
    | endpointUpdate update => exact hnone
    | route f => exact hroute _
    | dropped => exact hnone
  | host deviceId endpointId connId =>
    cases frame with
    | subscribeEndpoints deviceIds => exact hnone
    | endpointUpdate update =>
      simp only [handleFrame] at hq ⊢
      split at hq
      · next inner' notifications hup =>
        obtain ⟨host, hh, hc, rfl, rfl⟩ := updateHost_eq_some hup
        refine hr.locked ht hout (fun o c owner ho line hl => ?_) fun o c owner ho =>
          Or.inr ⟨owner, ho, rfl, List.Subset.refl _⟩
        rcases hl with hl | hl
        · cases hl
        · exact hq.delta_covered ho hl
      · exact hnone
    | route f => exact hroute _
    | dropped => exact hnone

theorem Covered.push {r r' : State} (hr : Covered r) {tx : Outbound}
    (h : r.step (.push tx) = some r') : Covered r' := by
  obtain ⟨ns, hout, rfl⟩ := step_push h
  obtain ⟨pre, post, -, -, hlines⟩ := pendingLines_eq hout
  intro o c owner ho line hl
  refine hr o c owner ho line ?_
  have hl' : line ∈ controlLines owner.tx (r.sent ++ (ns.map fun n =>
      (n.1, Message.control n.2)).filter fun m => r.isOpen m.1) ++
        ((r.outstanding.erase tx).entries.flatMap fun e => linesTo owner.tx e.2) := hl
  rw [controlLines_append, (hlines owner.tx).2, List.mem_append, List.mem_append,
    List.mem_append] at hl'
  rw [due, (hlines owner.tx).1, List.mem_append, List.mem_append, List.mem_append]
  rcases hl' with (hl | hl) | (hl | hl)
  · exact Or.inl hl
  · obtain ⟨⟨tx', line'⟩, hn, heq⟩ := List.mem_map.mp (List.mem_filter.mp (mem_controlLines hl)).1
    cases heq
    exact Or.inr (Or.inr (Or.inl (mem_linesTo.mpr hn)))
  · exact Or.inr (Or.inl hl)
  · exact Or.inr (Or.inr (Or.inr hl))

theorem covered_step (r : State) (label : Label) (r' : State) (hr : Tracks r ∧ Covered r)
    (hok : inOrder r label = true ∧ keepsDevices r label = true)
    (h : r.step label = some r') : Tracks r' ∧ Covered r' := by
  obtain ⟨ht, hc⟩ := hr
  have ht' := tracks_step r label r' ht hok.1 h
  have hq : OwnQueues r'.inner := ht'.wellFormed.ownQueues
  refine ⟨ht', ?_⟩
  have hsame : ∀ {inner : RegistryInner}, inner.owners = r.inner.owners →
      ∀ o c owner, inner.ownerConnection o c = some owner →
        Unregistered r owner.tx ∨ ∃ owner₀, r.inner.ownerConnection o c = some owner₀ ∧
          owner₀.tx = owner.tx ∧ owner₀.subscribedDeviceIds ⊆ owner.subscribedDeviceIds := by
    intro inner he o c owner ho
    rw [RegistryInner.ownerConnection, he] at ho
    exact Or.inr ⟨owner, ho, rfl, List.Subset.refl _⟩
  cases label with
  | accept tx a hello =>
    obtain ⟨-, ⟨-, rfl⟩ | rfl⟩ := step_accept h <;> exact hc
  | register tx =>
    obtain ⟨a, hello, c, hs, rfl⟩ := step_register h
    have hout := (ht.fresh tx (Or.inr ⟨a, hello, c, hs⟩)).1
    cases hello with
    | host host =>
      refine hc.locked ht hout (fun o c owner ho line hl => ?_) (hsame rfl)
      rcases hl with hl | hl
      · cases hl
      · exact hq.delta_covered ho hl
    | owner ownerId =>
      refine hc.locked ht hout (fun o c owner ho line hl => ?_) fun o c' owner ho => ?_
      · rcases hl with hl | hl <;> cases hl
      · simp only [registerConnection, registerOwner_ownerConnection] at ho
        split_ifs at ho
        · cases ho
          exact Or.inl (Or.inr ⟨a, _, c, hs⟩)
        · exact Or.inr ⟨owner, ho, rfl, List.Subset.refl _⟩
  | frame tx frame =>
    obtain ⟨a, connection, hs, hout, rfl⟩ := step_frame h
    exact hc.frame ht hs hout hq hok.2
  | disconnect tx =>
    obtain ⟨a, connection, hs, hout, rfl⟩ := step_disconnect h
    cases connection with
    | host deviceId endpointId connId =>
      refine hc.locked ht hout (fun o c owner ho line hl => ?_) ?_
      · simp only [unregisterConnection] at hl ho
        rcases unregisterHost_cases r.inner deviceId endpointId connId with
          ⟨host, hh, -, he⟩ | ⟨-, he⟩
        · rw [he] at hl ho
          rcases hl with hl | hl
          · cases hl
          · have hq' : OwnQueues { r.inner with
                endpoints := r.inner.endpoints.erase (deviceId, endpointId) } := by
              simpa only [locked_inner, unregisterConnection, he] using hq
            exact hq'.delta_covered ho hl
        · rw [he] at hl
          rcases hl with hl | hl <;> cases hl
      · exact hsame (unregisterHost_owners ..)
    | owner ownerId connId =>
      refine hc.locked ht hout (fun o c owner ho line hl => ?_) fun o c owner ho => ?_
      · rcases hl with hl | hl <;> cases hl
      · simp only [unregisterConnection, unregisterOwner_ownerConnection] at ho
        split_ifs at ho
        exact Or.inr ⟨owner, ho, rfl, List.Subset.refl _⟩
  | push tx =>
    exact hc.push h

/-! ## The view once all pushes have happened -/

theorem view_of_covered {lines : List ControlLine} {deviceIds : List String}
    (h : ∀ line ∈ lines, line.deviceId ∈ deviceIds) {key : EndpointKey}
    (hk : key.1 ∉ deviceIds) : view lines key = none := by
  refine apply_of_device_ne (fun line hl hd => hk ?_) none
  exact hd ▸ h line hl

theorem due_of_quiet {r : State} (hquiet : r.outstanding.isEmpty = true) (tx : Outbound) :
    due r tx = controlLines tx r.sent := by
  rw [OrderedMap.isEmpty, List.isEmpty_iff] at hquiet
  simp [due, pendingLines, hquiet]

/-- **Notification order.** In every run whose pushes keep the order of the locked
    steps, once all of them have happened, the view that a live Owner folds from
    its queue shows on the devices it subscribes to exactly the endpoints that are
    registered and whose ACL contains it; when its subscriptions have dropped no
    device, the view shows nothing else. -/
theorem view_eq_visible {labels : List Label} {r : State}
    (h : run State.step State.init labels = some r)
    (hok : Along State.step (fun r l => inOrder r l = true) State.init labels)
    (hquiet : r.outstanding.isEmpty = true) {o : String} {c : ℕ} {owner : OwnerConnection}
    (ho : r.inner.ownerConnection o c = some owner) :
    (∀ key, key.1 ∈ owner.subscribedDeviceIds →
        view (controlLines owner.tx r.sent) key = visible r.inner o key) ∧
      (Along State.step (fun r l => inOrder r l = true ∧ keepsDevices r l = true) State.init
          labels →
        ∀ key, view (controlLines owner.tx r.sent) key =
          if key.1 ∈ owner.subscribedDeviceIds then visible r.inner o key else none) := by
  have hview : ∀ key, key.1 ∈ owner.subscribedDeviceIds →
      view (controlLines owner.tx r.sent) key = visible r.inner o key := by
    intro key hkey
    rw [← due_of_quiet hquiet]
    exact (tracks_run hok h).view_due o c owner ho key hkey
  refine ⟨hview, fun hkeep key => ?_⟩
  have hcov : Covered r :=
    (invariant_along covered_step ⟨tracks_init, fun _ _ _ h => by cases h⟩ hkeep h).2
  split_ifs with hkey
  · exact hview key hkey
  · refine view_of_covered (fun line hl => ?_) hkey
    exact hcov o c owner ho line (due_of_quiet hquiet owner.tx ▸ hl)

/-! ### A takeover during an update -/

/-- Owner `O` subscribes to `D`; the runtime `R1` of `D` connects and updates its
    endpoint, and `R2` takes over. -/
def updateThenTakeover : List Label :=
  [.accept 0 "O" (.owner "O"), .register 0, .frame 0 (.subscribeEndpoints ["D"]),
    .accept 1 "D" (.host (sampleHello "R1")), .register 1, .push 1,
    .frame 1 (.endpointUpdate ⟨none, some ["O"]⟩),
    .accept 2 "D" (.host (sampleHello "R2")), .register 2]

theorem view_eq_visible_in_order :
    ∃ r owner, run State.step State.init (updateThenTakeover ++ [.push 1, .push 2]) = some r ∧
      r.inner.ownerConnection "O" 0 = some owner ∧
      view (controlLines owner.tx r.sent) ("D", "E") = visible r.inner "O" ("D", "E") := by
  obtain ⟨r, hr⟩ : ∃ r,
      run State.step State.init (updateThenTakeover ++ [.push 1, .push 2]) = some r :=
    Option.isSome_iff_exists.mp (by decide)
  have hr' : (run State.step State.init (updateThenTakeover ++ [.push 1, .push 2])).all (fun r =>
      r.outstanding.isEmpty && decide (r.inner.ownerConnection "O" 0 = some ⟨0, ["D"]⟩)) = true := by
    decide
  rw [hr, Option.all_some, Bool.and_eq_true, decide_eq_true_eq] at hr'
  exact ⟨r, _, hr, hr'.2,
    (view_eq_visible hr (by decide) hr'.1 hr'.2).1 ("D", "E") (by decide)⟩

/-- The notification of the takeover is pushed before that of the update it
    replaced, and the view stays at the runtime that is gone. -/
theorem overtaken_view :
    ∃ r owner, run State.step State.init (updateThenTakeover ++ [.push 2, .push 1]) = some r ∧
      r.outstanding.isEmpty = true ∧ r.inner.ownerConnection "O" 0 = some owner ∧
      "D" ∈ owner.subscribedDeviceIds ∧
      view (controlLines owner.tx r.sent) ("D", "E") =
        some ⟨"E", "R1", (sampleHello "R1").metadata⟩ ∧
      visible r.inner "O" ("D", "E") = some ⟨"E", "R2", (sampleHello "R2").metadata⟩ := by
  obtain ⟨r, hr⟩ : ∃ r,
      run State.step State.init (updateThenTakeover ++ [.push 2, .push 1]) = some r :=
    Option.isSome_iff_exists.mp (by decide)
  have hr' : (run State.step State.init (updateThenTakeover ++ [.push 2, .push 1])).all (fun r =>
      decide (r.outstanding.isEmpty = true ∧ r.inner.ownerConnection "O" 0 = some ⟨0, ["D"]⟩ ∧
        view (controlLines 0 r.sent) ("D", "E") =
          some ⟨"E", "R1", (sampleHello "R1").metadata⟩ ∧
        visible r.inner "O" ("D", "E") =
          some ⟨"E", "R2", (sampleHello "R2").metadata⟩)) = true := by
    decide
  rw [hr, Option.all_some, decide_eq_true_eq] at hr'
  obtain ⟨hq, ho, hv, hvis⟩ := hr'
  exact ⟨r, _, hr, hq, ho, by decide, hv, hvis⟩

end RemotePi.Relay
