import RemotePi.Lib.JsonText
import RemotePi.Lib.Trace
import RemotePi.Pairing.Identity

/-!
# The device identity over runs

`getOrCreateEd25519Keypair` (`pi-extension/src/pairing/storage.ts`, lines 344–450) as the
processes of a machine run it over one identity file and one keyring: any number of calls, each
stopping at every `await`, each able to die. A keyring operation that is given up after its
timeout (`_withTimeout`, lines 118–130) may still take effect later.

Results:
* `Kept.move`: what keeps an identity that the machine has.
* `Unset.move`: how a machine comes to an identity.
* `deserializeStored_serialize`: a stored key reads back.
* `identity_kept`: over careful runs the identity never changes, and it is what every call
  returns.
* `overlapping_migration_mints`: two calls that overlap while the legacy entry is moved.
-/

namespace RemotePi.Pairing.IdentityRuns

open RemotePi.Lib

/-! ## Model -/

/-- The text of `_serialize` (lines 276–282): the JSON object of both keys in Base64. -/
def serialize (keypair : Ed25519Keypair) : String :=
  String.ofList (['"'].intercalate ["\x7b".toList, "pk".toList, ":".toList,
    Base64.encode keypair.publicKey, ",".toList, "sk".toList, ":".toList,
    Base64.encode keypair.secretKey, "\x7d".toList])

/-- `_deserialize` (lines 284–290); `none` where it throws. `bufferFrom` is what
    `Buffer.from(value, "base64")` makes of a member; it throws for a missing one. -/
def deserializeStored (numbers : JsonText.NumberText) (bufferFrom : Json → Option (List Byte))
    (stored : String) : Option Ed25519Keypair := do
  let parsed ← JsonText.parse numbers stored.toList
  let publicKey ← (parsed.member? "pk").bind bufferFrom
  let secretKey ← (parsed.member? "sk").bind bufferFrom
  return ⟨publicKey, secretKey⟩

/-- An operation of the keyring that changes it. -/
inductive KeyringOp where
  /-- Writes the entry of the current service. -/
  | write (text : String)
  /-- Deletes the entry of the legacy service. -/
  | delete
deriving DecidableEq, Repr

/-- The `await` that a call stands at. -/
inductive CallPhase where
  | readFile
  | readCurrent (attempt : ℕ)
  | readLegacy (attempt : ℕ)
  | migrate (attempt : ℕ) (text : String) (keypair : Ed25519Keypair)
  | deleteLegacy (keypair : Ed25519Keypair)
  | store (attempt : ℕ) (keypair : Ed25519Keypair)
  | readFileAgain
  | listPeers
  | writeFile (keypair : Ed25519Keypair)
deriving DecidableEq

/-- The identity file, the entries of both keyring services, the calls under way and the
    operations that were given up and may still take effect. -/
structure Machine where
  file : Option String
  current : Option String
  legacy : Option String
  calls : OrderedMap ℕ CallPhase
  late : List KeyringOp
deriving DecidableEq

/-- What becomes of a keyring operation: it resolves, it fails, it takes effect although it
    is given up, or it is given up and may take effect later. -/
inductive OpOutcome where
  | done
  | failed
  | took
  | late
deriving DecidableEq, Repr

/-- What becomes of `writeFile`: a failure leaves the file in some way. -/
inductive FileOutcome where
  | done
  | failed (left : Option String)
deriving DecidableEq, Repr

inductive CallEvent where
  | returned (call : ℕ) (keypair : Ed25519Keypair)
  | threw (call : ℕ) (error : IdentityError)
deriving DecidableEq

/-- A step of a call, named by what it waits for, with the outcome of that. `fresh` is what
    `generateEd25519Keypair` gives where the step comes to it. -/
inductive Label where
  | start (call : ℕ)
  | readFile (call : ℕ) (ok : Bool)
  | readCurrent (call : ℕ) (ok : Bool)
  | readLegacy (call : ℕ) (ok : Bool) (fresh : Ed25519Keypair)
  | write (call : ℕ) (outcome : OpOutcome)
  | delete (call : ℕ) (outcome : OpOutcome)
  | readFileAgain (call : ℕ) (ok keyringExpected forceFile : Bool) (fresh : Ed25519Keypair)
  | listPeers (call : ℕ) (peers : PeersFile) (fresh : Ed25519Keypair)
  | writeFile (call : ℕ) (outcome : FileOutcome)
  /-- An operation that was given up takes effect. -/
  | land (i : ℕ)
  /-- The process of a call dies. -/
  | crash (call : ℕ)
deriving DecidableEq

/-- `_keyringReadAttempts` (line 55). -/
def keyringReadAttempts : ℕ := 3

/-- Where a call goes when an attempt throws (lines 391–397). -/
def nextAttempt (attempt : ℕ) : CallPhase :=
  if attempt + 1 < keyringReadAttempts then .readCurrent (attempt + 1) else .readFileAgain

/-- An empty text is falsy and counts as no entry. -/
def entry (stored : Option String) : Option String := stored.filter fun text => text ≠ ""

namespace Machine

def setCall (m : Machine) (call : ℕ) (phase : CallPhase) : Machine :=
  { m with calls := m.calls.set call phase }

def endCall (m : Machine) (call : ℕ) : Machine := { m with calls := m.calls.erase call }

/-- An operation takes effect. -/
def apply (m : Machine) : KeyringOp → Machine
  | .write text => { m with current := some text }
  | .delete => { m with legacy := none }

/-- An operation with its outcome. -/
def operate (m : Machine) (op : KeyringOp) : OpOutcome → Machine
  | .done | .took => m.apply op
  | .failed => m
  | .late => { m with late := m.late ++ [op] }

end Machine

section Model

variable (deserialize : String → Option Ed25519Keypair)

/-- `_readKeypairFromFile` (lines 295–302). -/
def readKeypair (m : Machine) (ok : Bool) : Option Ed25519Keypair :=
  (if ok then m.file else none).bind deserialize

/-- `getOrCreateEd25519Keypair` (lines 344–450), one `await` a step. -/
def move (m : Machine) : Label → Option (Machine × List CallEvent)
  | .start call => if m.calls.contains call then none else some (m.setCall call .readFile, [])
  | .readFile call ok =>
    match m.calls.get? call with
    | some .readFile =>
      match readKeypair deserialize m ok with
      | some keypair => some (m.endCall call, [.returned call keypair])
      | none => some (m.setCall call (.readCurrent 0), [])
    | _ => none
  | .readCurrent call ok =>
    match m.calls.get? call with
    | some (.readCurrent attempt) =>
      if ok then
        match entry m.current with
        | some text =>
          match deserialize text with
          | some keypair => some (m.endCall call, [.returned call keypair])
          | none => some (m.setCall call (nextAttempt attempt), [])
        | none => some (m.setCall call (.readLegacy attempt), [])
      else some (m.setCall call (nextAttempt attempt), [])
    | _ => none
  | .readLegacy call ok fresh =>
    match m.calls.get? call with
    | some (.readLegacy attempt) =>
      if ok then
        match entry m.legacy with
        | some text =>
          match deserialize text with
          | some keypair => some (m.setCall call (.migrate attempt text keypair), [])
          | none => some (m.setCall call (nextAttempt attempt), [])
        | none => some (m.setCall call (.store attempt fresh), [])
      else some (m.setCall call (nextAttempt attempt), [])
    | _ => none
  | .write call outcome =>
    match m.calls.get? call with
    | some (.migrate attempt text keypair) =>
      let m := m.operate (.write text) outcome
      if outcome = .done then some (m.setCall call (.deleteLegacy keypair), [])
      else some (m.setCall call (nextAttempt attempt), [])
    | some (.store attempt keypair) =>
      let m := m.operate (.write (serialize keypair)) outcome
      if outcome = .done then some (m.endCall call, [.returned call keypair])
      else some (m.setCall call (nextAttempt attempt), [])
    | _ => none
  | .delete call outcome =>
    match m.calls.get? call with
    | some (.deleteLegacy keypair) =>
      some ((m.endCall call).operate .delete outcome, [.returned call keypair])
    | _ => none
  | .readFileAgain call ok keyringExpected forceFile fresh =>
    match m.calls.get? call with
    | some .readFileAgain =>
      match readKeypair deserialize m ok with
      | some keypair => some (m.endCall call, [.returned call keypair])
      | none =>
        if keyringExpected && !forceFile then
          some (m.endCall call, [.threw call .keyringUnavailable])
        else if forceFile then some (m.setCall call (.writeFile fresh), [])
        else some (m.setCall call .listPeers, [])
    | _ => none
  | .listPeers call peers fresh =>
    match m.calls.get? call with
    | some .listPeers =>
      let paired := (listPeers peers).length
      if 0 < paired then some (m.endCall call, [.threw call (.pairedIdentityMissing paired)])
      else some (m.setCall call (.writeFile fresh), [])
    | _ => none
  | .writeFile call outcome =>
    match m.calls.get? call, outcome with
    | some (.writeFile keypair), .done =>
      some ({ m.endCall call with file := some (serialize keypair) }, [.returned call keypair])
    | some (.writeFile _), .failed left =>
      some ({ m.endCall call with file := left }, [.threw call .writeFailed])
    | _, _ => none
  | .land i => (m.late[i]?).map fun op => ({ m.apply op with late := m.late.eraseIdx i }, [])
  | .crash call => if m.calls.contains call then some (m.endCall call, []) else none

def step : Machine × List CallEvent → Label → Option (Machine × List CallEvent) :=
  logged (move deserialize)

/-- The identity of the machine, in the order in which it is looked for. -/
def resolve (m : Machine) : Option Ed25519Keypair :=
  match m.file.bind deserialize with
  | some keypair => some keypair
  | none =>
    match entry m.current with
    | some text => deserialize text
    | none => (entry m.legacy).bind deserialize

/-- What the calls rely on: the identity file can be read where there is one, and its failed
    write leaves nothing readable or all of its text; nobody forces a file identity; where the
    keyring cannot be read but has an identity, some Owner is paired; until the identity is in
    the file or under the current service, calls come one at a time; and the write of a new key
    is not given up before it takes effect. -/
def Careful (s : Machine × List CallEvent) : Label → Prop
  | .start _ => (s.1.file.bind deserialize).isSome = true ∨
      ((entry s.1.current).bind deserialize).isSome = true ∨ ∀ call, s.1.calls.get? call = none
  | .readFile _ ok => ok = true ∨ s.1.file = none
  | .readFileAgain _ ok _ forceFile _ => (ok = true ∨ s.1.file = none) ∧ forceFile = false
  | .listPeers _ peers _ => listPeers peers ≠ [] ∨ resolve deserialize s.1 = none
  | .writeFile call (.failed left) => left.bind deserialize = none ∨
      ∃ keypair, s.1.calls.get? call = some (.writeFile keypair) ∧ left = some (serialize keypair)
  | .write call outcome =>
      outcome = .late → ∀ attempt keypair, s.1.calls.get? call ≠ some (.store attempt keypair)
  | _ => True

end Model

/-! ## The identity that the machine has -/

/-- The call is between the read of the legacy service and the end of its migration. -/
def CallPhase.migrates : CallPhase → Bool
  | .readLegacy _ | .migrate _ _ _ | .deleteLegacy _ => true
  | _ => false

section Kept

variable {deserialize : String → Option Ed25519Keypair} {identity : Ed25519Keypair}
  {m m' : Machine} {log happened : List CallEvent} {label : Label} {call other : ℕ}
  {phase phase' phase'' : CallPhase}

/-- The identity file has the identity, and every call has yet to read it. -/
structure FileKept (deserialize : String → Option Ed25519Keypair) (identity : Ed25519Keypair)
    (m : Machine) : Prop where
  file : m.file.bind deserialize = some identity
  calls : ∀ call phase, m.calls.get? call = some phase → phase = .readFile
  late : m.late = []

/-- An entry of the keyring has the identity. -/
def Holds (deserialize : String → Option Ed25519Keypair) (identity : Ed25519Keypair)
    (stored : Option String) : Prop :=
  ∃ text, entry stored = some text ∧ deserialize text = some identity

/-- What a call may stand at while the keyring has the identity. -/
def PhaseKept (deserialize : String → Option Ed25519Keypair) (identity : Ed25519Keypair)
    (m : Machine) : CallPhase → Prop
  | .readLegacy _ => Holds deserialize identity m.legacy
  | .migrate _ text keypair =>
    keypair = identity ∧ Holds deserialize identity (some text)
  | .deleteLegacy keypair => keypair = identity ∧ Holds deserialize identity m.current
  | .store _ _ | .writeFile _ => False
  | _ => True

/-- What an operation that was given up may do while the keyring has the identity. -/
def OpKept (deserialize : String → Option Ed25519Keypair) (identity : Ed25519Keypair)
    (m : Machine) : KeyringOp → Prop
  | .write text => Holds deserialize identity (some text)
  | .delete => Holds deserialize identity m.current ∧
      ∀ call phase, m.calls.get? call = some phase → phase.migrates = false

/-- The keyring has the identity, and no call or late operation is about to change it. -/
structure KeyringKept (deserialize : String → Option Ed25519Keypair) (identity : Ed25519Keypair)
    (m : Machine) : Prop where
  file : m.file.bind deserialize = none
  keyring : Holds deserialize identity m.current ∨
    entry m.current = none ∧ Holds deserialize identity m.legacy
  phases : ∀ call phase, m.calls.get? call = some phase → PhaseKept deserialize identity m phase
  alone : entry m.current = none → ∀ call call' phase phase', m.calls.get? call = some phase →
    m.calls.get? call' = some phase' → call = call'
  migrating : ∀ call call' phase phase', m.calls.get? call = some phase →
    m.calls.get? call' = some phase' → phase.migrates = true → phase'.migrates = true →
      call = call'
  late : ∀ op ∈ m.late, OpKept deserialize identity m op

theorem migrates_nextAttempt (attempt : ℕ) : (nextAttempt attempt).migrates = false := by
  unfold nextAttempt
  split_ifs
  · rfl
  · rfl

theorem phaseKept_nextAttempt (attempt : ℕ) :
    PhaseKept deserialize identity m (nextAttempt attempt) := by
  unfold nextAttempt
  split_ifs
  · trivial
  · trivial

theorem get?_setCall (m : Machine) (call call' : ℕ) (phase : CallPhase) :
    (m.setCall call phase).calls.get? call' =
      if call' = call then some phase else m.calls.get? call' := OrderedMap.get?_set _ _ _ _

theorem get?_endCall (m : Machine) (call call' : ℕ) :
    (m.endCall call).calls.get? call' = if call' = call then none else m.calls.get? call' :=
  OrderedMap.get?_erase _ _ _

theorem get?_of_setCall (h : (m.setCall call phase').calls.get? other = some phase) :
    (other = call ∧ phase = phase') ∨ other ≠ call ∧ m.calls.get? other = some phase := by
  rw [get?_setCall] at h
  split_ifs at h with heq
  · exact Or.inl ⟨heq, (Option.some.inj h).symm⟩
  · exact Or.inr ⟨heq, h⟩

theorem under_way_of_setCall (hget : m.calls.get? call = some phase)
    (h : (m.setCall call phase').calls.get? other = some phase'') :
    ∃ was, m.calls.get? other = some was := by
  rcases get?_of_setCall h with ⟨rfl, -⟩ | ⟨-, hother⟩
  · exact ⟨phase, hget⟩
  · exact ⟨phase'', hother⟩

theorem get?_of_endCall (h : (m.endCall call).calls.get? other = some phase) :
    other ≠ call ∧ m.calls.get? other = some phase := by
  rw [get?_endCall] at h
  split_ifs at h with heq
  exact ⟨heq, h⟩

/-- While neither the file nor the current service has an identity, a call starts alone. -/
theorem idle_of_start (hfile : m.file.bind deserialize = none)
    (hcurrent : (entry m.current).bind deserialize = none)
    (hcareful : Careful deserialize (m, log) (.start call)) : ∀ call, m.calls.get? call = none := by
  rcases hcareful with hset | hset | hidle
  · rw [hfile] at hset
    cases hset
  · rw [hcurrent] at hset
    cases hset
  · exact hidle

theorem only_of_idle (hidle : ∀ call, m.calls.get? call = none)
    (h : (m.setCall call phase').calls.get? other = some phase) : other = call := by
  rcases get?_of_setCall h with ⟨heq, -⟩ | ⟨-, hother⟩
  · exact heq
  · rw [hidle other] at hother
    cases hother

/-- A call moves on. It comes to migrate only when it already did, or when it is the only call
    because the current service has no entry yet. -/
theorem KeyringKept.setCall (h : KeyringKept deserialize identity m)
    (hget : m.calls.get? call = some phase) (hphase : PhaseKept deserialize identity m phase')
    (hmigrates : phase'.migrates = true → phase.migrates = true ∨ entry m.current = none) :
    KeyringKept deserialize identity (m.setCall call phase') := by
  -- Another call that migrates would be one too many.
  have hunique : ∀ {other : ℕ} {p : CallPhase}, m.calls.get? other = some p →
      phase'.migrates = true → p.migrates = true → call = other := by
    intro other p hother hmoved hp
    rcases hmigrates hmoved with hwas | hnone
    · exact h.migrating call other phase p hget hother hwas hp
    · exact h.alone hnone call other phase p hget hother
  refine ⟨h.file, h.keyring, fun other p hother => ?_, fun hnone other other' p p' hother hother' =>
    ?_, fun other other' p p' hother hother' hp hp' => ?_, fun op hop => ?_⟩
  · rcases get?_of_setCall hother with ⟨-, rfl⟩ | ⟨-, hother⟩
    · exact hphase
    · exact h.phases other p hother
  · obtain ⟨q, hq⟩ := under_way_of_setCall hget hother
    obtain ⟨q', hq'⟩ := under_way_of_setCall hget hother'
    exact h.alone hnone other other' q q' hq hq'
  · rcases get?_of_setCall hother with ⟨heq, hphases⟩ | ⟨-, hold⟩
    · subst heq hphases
      rcases get?_of_setCall hother' with ⟨heq, -⟩ | ⟨-, hold'⟩
      · exact heq.symm
      · exact hunique hold' hp hp'
    · rcases get?_of_setCall hother' with ⟨heq, hphases⟩ | ⟨-, hold'⟩
      · subst heq hphases
        exact (hunique hold hp' hp).symm
      · exact h.migrating other other' p p' hold hold' hp hp'
  · have hkept := h.late op hop
    cases op with
    | write text => exact hkept
    | delete =>
      obtain ⟨hcurrent, hnone⟩ := hkept
      refine ⟨hcurrent, fun other p hother => ?_⟩
      rcases get?_of_setCall hother with ⟨-, rfl⟩ | ⟨-, hother⟩
      · by_contra hp
        rcases hmigrates (Bool.ne_false_iff.mp hp) with hwas | hempty
        · rw [hnone call phase hget] at hwas
          cases hwas
        · obtain ⟨text, htext, -⟩ := hcurrent
          rw [hempty] at htext
          cases htext
      · exact hnone other p hother

/-- A call ends. -/
theorem KeyringKept.endCall (h : KeyringKept deserialize identity m) (call : ℕ) :
    KeyringKept deserialize identity (m.endCall call) := by
  refine ⟨h.file, h.keyring, fun other p hother => h.phases other p (get?_of_endCall hother).2,
    fun hnone other other' p p' hother hother' =>
      h.alone hnone other other' p p' (get?_of_endCall hother).2 (get?_of_endCall hother').2,
    fun other other' p p' hother hother' =>
      h.migrating other other' p p' (get?_of_endCall hother).2 (get?_of_endCall hother').2,
    fun op hop => ?_⟩
  have hkept := h.late op hop
  cases op with
  | write text => exact hkept
  | delete => exact ⟨hkept.1, fun other p hother => hkept.2 other p (get?_of_endCall hother).2⟩

/-- The identity is written under the current service. -/
theorem KeyringKept.write (h : KeyringKept deserialize identity m) {text : String}
    (htext : Holds deserialize identity (some text)) :
    KeyringKept deserialize identity (m.apply (.write text)) := by
  refine ⟨h.file, Or.inl htext, fun other p hother => ?_, fun hnone => ?_, h.migrating,
    fun op hop => ?_⟩
  · have hkept := h.phases other p hother
    cases p with
    | deleteLegacy keypair => exact ⟨hkept.1, htext⟩
    | readFile => trivial
    | readCurrent attempt => trivial
    | readLegacy attempt => exact hkept
    | migrate attempt text keypair => exact hkept
    | store attempt keypair => exact hkept
    | readFileAgain => trivial
    | listPeers => trivial
    | writeFile keypair => exact hkept
  · obtain ⟨stored, hstored, -⟩ := htext
    rw [show entry (m.apply (.write text)).current = some stored from hstored] at hnone
    cases hnone
  · have hkept := h.late op hop
    cases op with
    | write text => exact hkept
    | delete => exact ⟨htext, hkept.2⟩

/-- The legacy entry is deleted once nobody migrates. -/
theorem KeyringKept.delete (h : KeyringKept deserialize identity m)
    (hkept : OpKept deserialize identity m .delete) :
    KeyringKept deserialize identity (m.apply .delete) := by
  obtain ⟨hcurrent, hnone⟩ := hkept
  refine ⟨h.file, Or.inl hcurrent, fun other p hother => ?_, h.alone, h.migrating,
    fun op hop => ?_⟩
  · have hphase := h.phases other p hother
    have hp := hnone other p hother
    cases p with
    | readLegacy attempt => cases hp
    | deleteLegacy keypair => cases hp
    | migrate attempt text keypair => cases hp
    | readFile => trivial
    | readCurrent attempt => trivial
    | store attempt keypair => exact hphase
    | readFileAgain => trivial
    | listPeers => trivial
    | writeFile keypair => exact hphase
  · exact h.late op hop

/-- An operation is given up. -/
theorem KeyringKept.giveUp (h : KeyringKept deserialize identity m) {op : KeyringOp}
    (hkept : OpKept deserialize identity m op) :
    KeyringKept deserialize identity { m with late := m.late ++ [op] } := by
  refine ⟨h.file, h.keyring, fun call phase hget => ?_, h.alone, h.migrating, fun op' hop' => ?_⟩
  · have hphase := h.phases call phase hget
    cases phase <;> exact hphase
  · have hold : OpKept deserialize identity m op' := by
      rcases List.mem_append.mp hop' with hop' | hop'
      · exact h.late op' hop'
      · rw [List.mem_singleton.mp hop']
        exact hkept
    cases op' <;> exact hold

theorem KeyringKept.operate (h : KeyringKept deserialize identity m) {op : KeyringOp}
    (hkept : OpKept deserialize identity m op) (outcome : OpOutcome) :
    KeyringKept deserialize identity (m.operate op outcome) := by
  have happly : KeyringKept deserialize identity (m.apply op) := by
    cases op with
    | write text => exact h.write hkept
    | delete => exact h.delete hkept
  cases outcome with
  | done => exact happly
  | failed => exact h
  | took => exact happly
  | late => exact h.giveUp hkept

theorem readKeypair_of_careful (hfile : m.file.bind deserialize = some identity) {ok : Bool}
    (hok : ok = true ∨ m.file = none) : readKeypair deserialize m ok = some identity := by
  rcases hok with rfl | hnone
  · exact hfile
  · rw [hnone] at hfile
    cases hfile

theorem readKeypair_none (hfile : m.file.bind deserialize = none) (ok : Bool) :
    readKeypair deserialize m ok = none := by
  cases ok with
  | true => exact hfile
  | false => rfl

theorem FileKept.endCall (h : FileKept deserialize identity m) (call : ℕ) :
    FileKept deserialize identity (m.endCall call) := by
  exact ⟨h.file, fun other p hother => h.calls other p (get?_of_endCall hother).2, h.late⟩

/-- With the identity in the file every call reads it and returns. -/
theorem FileKept.move (h : FileKept deserialize identity m)
    (hcareful : Careful deserialize (m, log) label)
    (hmove : move deserialize m label = some (m', happened)) :
    FileKept deserialize identity m' ∧
      ∀ call keypair, .returned call keypair ∈ happened → keypair = identity := by
  have hphase : ∀ {call : ℕ} {phase : CallPhase}, m.calls.get? call = some phase →
      phase = .readFile := fun hget => h.calls _ _ hget
  cases label with
  | start call =>
    simp only [IdentityRuns.move] at hmove
    split_ifs at hmove
    cases hmove
    refine ⟨⟨h.file, fun other p hother => ?_, h.late⟩, by intro _ _ hmem; cases hmem⟩
    rcases get?_of_setCall hother with ⟨-, rfl⟩ | ⟨-, hother⟩
    · rfl
    · exact h.calls other p hother
  | readFile call ok =>
    simp only [IdentityRuns.move, readKeypair_of_careful h.file (hcareful)] at hmove
    split at hmove
    · cases hmove
      refine ⟨h.endCall call, fun other keypair hmem => ?_⟩
      cases List.mem_singleton.mp hmem
      rfl
    · cases hmove
  | readCurrent call ok =>
    simp only [IdentityRuns.move] at hmove
    split at hmove
    · next hget => cases hphase hget
    · cases hmove
  | readLegacy call ok fresh =>
    simp only [IdentityRuns.move] at hmove
    split at hmove
    · next hget => cases hphase hget
    · cases hmove
  | write call outcome =>
    simp only [IdentityRuns.move] at hmove
    split at hmove
    · next hget => cases hphase hget
    · next hget => cases hphase hget
    · cases hmove
  | delete call outcome =>
    simp only [IdentityRuns.move] at hmove
    split at hmove
    · next hget => cases hphase hget
    · cases hmove
  | readFileAgain call ok keyringExpected forceFile fresh =>
    simp only [IdentityRuns.move] at hmove
    split at hmove
    · next hget => cases hphase hget
    · cases hmove
  | listPeers call peers fresh =>
    simp only [IdentityRuns.move] at hmove
    split at hmove
    · next hget => cases hphase hget
    · cases hmove
  | writeFile call outcome =>
    simp only [IdentityRuns.move] at hmove
    split at hmove
    · next hget => cases hphase hget
    · next hget => cases hphase hget
    · cases hmove
  | land i =>
    simp only [IdentityRuns.move, h.late] at hmove
    cases hmove
  | crash call =>
    simp only [IdentityRuns.move] at hmove
    split_ifs at hmove
    cases hmove
    exact ⟨h.endCall call, by intro _ _ hmem; cases hmem⟩

theorem KeyringKept.resolve_eq (h : KeyringKept deserialize identity m) :
    resolve deserialize m = some identity := by
  unfold resolve
  rw [h.file]
  rcases h.keyring with ⟨text, htext, hdeserialize⟩ | ⟨hnone, text, htext, hdeserialize⟩
  · dsimp only
    rw [htext]
    exact hdeserialize
  · dsimp only
    rw [hnone, htext]
    exact hdeserialize

/-- The identity is in the keyring, and nothing else was returned. -/
def KeyringKeeps (deserialize : String → Option Ed25519Keypair) (identity : Ed25519Keypair)
    (m : Machine) (happened : List CallEvent) : Prop :=
  KeyringKept deserialize identity m ∧
    ∀ call keypair, .returned call keypair ∈ happened → keypair = identity

theorem KeyringKept.quiet (h : KeyringKept deserialize identity m) :
    KeyringKeeps deserialize identity m [] := by
  refine ⟨h, fun call keypair hmem => ?_⟩
  cases hmem

theorem KeyringKept.returns (h : KeyringKept deserialize identity m) (call : ℕ) :
    KeyringKeeps deserialize identity m [.returned call identity] := by
  refine ⟨h, fun other keypair hmem => ?_⟩
  cases List.mem_singleton.mp hmem
  rfl

theorem KeyringKept.throws (h : KeyringKept deserialize identity m) (call : ℕ)
    (error : IdentityError) : KeyringKeeps deserialize identity m [.threw call error] := by
  refine ⟨h, fun other keypair hmem => ?_⟩
  cases List.mem_singleton.mp hmem

/-- A call goes on to the next attempt. -/
theorem KeyringKept.next (h : KeyringKept deserialize identity m)
    (hget : m.calls.get? call = some phase) (attempt : ℕ) :
    KeyringKeeps deserialize identity (m.setCall call (nextAttempt attempt)) [] := by
  have hmigrates : (nextAttempt attempt).migrates = true →
      phase.migrates = true ∨ entry m.current = none := by
    rw [migrates_nextAttempt]
    intro hp
    cases hp
  exact KeyringKept.quiet (h.setCall hget (phaseKept_nextAttempt attempt) hmigrates)

theorem KeyringKept.of_start (h : KeyringKept deserialize identity m)
    (hcareful : Careful deserialize (m, log) (.start call)) :
    KeyringKept deserialize identity (m.setCall call .readFile) := by
  refine ⟨h.file, h.keyring, fun other p hother => ?_, fun hnone other other' p p' hother hother'
    => ?_, fun other other' p p' hother hother' hp hp' => ?_, fun op hop => ?_⟩
  · rcases get?_of_setCall hother with ⟨-, rfl⟩ | ⟨-, hother⟩
    · trivial
    · exact h.phases other p hother
  -- Without a current entry the new call is the only one.
  · have hcurrent : (entry m.current).bind deserialize = none := by
      rw [show entry m.current = none from hnone]
      rfl
    have hidle := idle_of_start h.file hcurrent hcareful
    rw [only_of_idle hidle hother, only_of_idle hidle hother']
  · rcases get?_of_setCall hother with ⟨-, rfl⟩ | ⟨-, hother⟩
    · cases hp
    · rcases get?_of_setCall hother' with ⟨-, rfl⟩ | ⟨-, hother'⟩
      · cases hp'
      · exact h.migrating other other' p p' hother hother' hp hp'
  · have hkept := h.late op hop
    cases op with
    | write text => exact hkept
    | delete =>
      refine ⟨hkept.1, fun other p hother => ?_⟩
      rcases get?_of_setCall hother with ⟨-, rfl⟩ | ⟨-, hother⟩
      · rfl
      · exact hkept.2 other p hother

/-- The current entry is the identity, or the call goes on to the legacy one. -/
theorem KeyringKept.of_readCurrent (h : KeyringKept deserialize identity m) {ok : Bool}
    (hmove : move deserialize m (.readCurrent call ok) = some (m', happened)) :
    KeyringKeeps deserialize identity m' happened := by
  simp only [IdentityRuns.move] at hmove
  split at hmove
  · next attempt hget =>
    split_ifs at hmove
    · rcases h.keyring with ⟨text, htext, hdeserialize⟩ | ⟨hnone, hlegacy⟩
      · simp only [htext, hdeserialize] at hmove
        cases hmove
        exact (h.endCall call).returns call
      · simp only [hnone] at hmove
        cases hmove
        exact KeyringKept.quiet (h.setCall hget hlegacy fun _ => Or.inr hnone)
    · cases hmove
      exact h.next hget attempt
  · cases hmove

/-- The legacy entry is the identity, and is to be moved. -/
theorem KeyringKept.of_readLegacy (h : KeyringKept deserialize identity m) {ok : Bool}
    {fresh : Ed25519Keypair}
    (hmove : move deserialize m (.readLegacy call ok fresh) = some (m', happened)) :
    KeyringKeeps deserialize identity m' happened := by
  simp only [IdentityRuns.move] at hmove
  split at hmove
  · next attempt hget =>
    obtain ⟨text, htext, hdeserialize⟩ := h.phases call _ hget
    have hstored : entry (some text) = some text := by
      obtain ⟨-, hne⟩ := Option.filter_eq_some_iff.mp htext
      exact Option.filter_eq_some_iff.mpr ⟨rfl, hne⟩
    split_ifs at hmove
    · simp only [htext, hdeserialize] at hmove
      cases hmove
      exact KeyringKept.quiet
        (h.setCall hget ⟨rfl, text, hstored, hdeserialize⟩ fun _ => Or.inl rfl)
    · cases hmove
      exact h.next hget attempt
  · cases hmove

/-- Only a migration writes, and what it writes is the identity. -/
theorem KeyringKept.of_write (h : KeyringKept deserialize identity m) {outcome : OpOutcome}
    (hmove : move deserialize m (.write call outcome) = some (m', happened)) :
    KeyringKeeps deserialize identity m' happened := by
  simp only [IdentityRuns.move] at hmove
  split at hmove
  · next attempt text keypair hget =>
    obtain ⟨rfl, htext⟩ := h.phases call _ hget
    have hkept : OpKept deserialize keypair m (.write text) := htext
    have hwritten := h.operate hkept outcome
    have hget' : (m.operate (.write text) outcome).calls.get? call =
        some (.migrate attempt text keypair) := by
      cases outcome <;> exact hget
    split_ifs at hmove with hdone
    · cases hmove
      subst hdone
      exact KeyringKept.quiet (hwritten.setCall hget' ⟨rfl, htext⟩ fun _ => Or.inl rfl)
    · cases hmove
      exact hwritten.next hget' attempt
  · next attempt keypair hget => exact absurd (h.phases call _ hget) id
  · cases hmove

/-- The call that has moved the identity deletes the legacy entry and returns. -/
theorem KeyringKept.of_delete (h : KeyringKept deserialize identity m) {outcome : OpOutcome}
    (hmove : move deserialize m (.delete call outcome) = some (m', happened)) :
    KeyringKeeps deserialize identity m' happened := by
  simp only [IdentityRuns.move] at hmove
  split at hmove
  · next keypair hget =>
    cases hmove
    obtain ⟨rfl, hcurrent⟩ := h.phases call _ hget
    have hkept : OpKept deserialize keypair (m.endCall call) .delete := by
      refine ⟨hcurrent, fun other p hother => ?_⟩
      rw [get?_endCall] at hother
      split_ifs at hother with hne
      by_contra hp
      exact hne (h.migrating other call p _ hother hget (Bool.ne_false_iff.mp hp) rfl)
    exact ((h.endCall call).operate hkept outcome).returns call
  · cases hmove

/-- An operation that was given up takes effect. -/
theorem KeyringKept.of_land (h : KeyringKept deserialize identity m) {i : ℕ}
    (hmove : move deserialize m (.land i) = some (m', happened)) :
    KeyringKeeps deserialize identity m' happened := by
  obtain ⟨op, hop, heq⟩ := Option.map_eq_some_iff.mp hmove
  cases heq
  have hkept := h.late op (List.mem_of_getElem? hop)
  have happlied := h.operate hkept .done
  refine KeyringKept.quiet ⟨happlied.file, happlied.keyring, happlied.phases, happlied.alone,
    happlied.migrating, fun op' hop' => ?_⟩
  have hmem : op' ∈ m.late := List.mem_of_mem_eraseIdx hop'
  have hold := happlied.late op' (by cases op <;> exact hmem)
  cases op' <;> exact hold

/-- With the identity in the keyring a careful step keeps it there and returns nothing else. -/
theorem KeyringKept.move (h : KeyringKept deserialize identity m)
    (hcareful : Careful deserialize (m, log) label)
    (hmove : move deserialize m label = some (m', happened)) :
    KeyringKeeps deserialize identity m' happened := by
  cases label with
  | start call =>
    simp only [IdentityRuns.move] at hmove
    split_ifs at hmove
    cases hmove
    exact (h.of_start hcareful).quiet
  | readFile call ok =>
    simp only [IdentityRuns.move, readKeypair_none h.file] at hmove
    split at hmove
    · next hget =>
      cases hmove
      exact KeyringKept.quiet (h.setCall hget trivial (by intro hp; cases hp))
    · cases hmove
  | readCurrent call ok => exact h.of_readCurrent hmove
  | readLegacy call ok fresh => exact h.of_readLegacy hmove
  | write call outcome => exact h.of_write hmove
  | delete call outcome => exact h.of_delete hmove
  | readFileAgain call ok keyringExpected forceFile fresh =>
    obtain ⟨-, rfl⟩ := hcareful
    simp only [IdentityRuns.move, readKeypair_none h.file, Bool.false_eq_true, if_false] at hmove
    split at hmove
    · next hget =>
      split_ifs at hmove
      · cases hmove
        exact (h.endCall call).throws call _
      · cases hmove
        exact KeyringKept.quiet (h.setCall hget trivial (by intro hp; cases hp))
    · cases hmove
  | listPeers call peers fresh =>
    -- A pairing exists wherever the keyring hides the identity.
    have hpeers : 0 < (listPeers peers).length := by
      rcases hcareful with hpeers | hnone
      · exact List.length_pos_iff.mpr hpeers
      · rw [h.resolve_eq] at hnone
        cases hnone
    simp only [IdentityRuns.move, hpeers, if_true] at hmove
    split at hmove
    · cases hmove
      exact (h.endCall call).throws call _
    · cases hmove
  | writeFile call outcome =>
    simp only [IdentityRuns.move] at hmove
    split at hmove
    · next keypair hget => exact absurd (h.phases call _ hget) id
    · next keypair left hget => exact absurd (h.phases call _ hget) id
    · cases hmove
  | land i => exact h.of_land hmove
  | crash call =>
    simp only [IdentityRuns.move] at hmove
    split_ifs at hmove
    cases hmove
    exact (h.endCall call).quiet

/-- The file or the keyring has the identity. -/
def Kept (deserialize : String → Option Ed25519Keypair) (identity : Ed25519Keypair)
    (m : Machine) : Prop :=
  FileKept deserialize identity m ∨ KeyringKept deserialize identity m

theorem Kept.resolve_eq (h : Kept deserialize identity m) :
    resolve deserialize m = some identity := by
  rcases h with hfile | hkeyring
  · unfold resolve
    rw [hfile.file]
  · exact hkeyring.resolve_eq

/-- A machine at rest has the identity that it resolves to. -/
theorem kept_of_resolve (hcalls : m.calls = .empty) (hlate : m.late = [])
    (h : resolve deserialize m = some identity) : Kept deserialize identity m := by
  have hnone : ∀ call phase, m.calls.get? call ≠ some phase := by
    intro call phase hget
    rw [hcalls] at hget
    cases hget
  unfold resolve at h
  cases hfile : m.file.bind deserialize with
  | some keypair =>
    rw [hfile] at h
    cases h
    exact Or.inl ⟨hfile, fun call phase hget => absurd hget (hnone call phase), hlate⟩
  | none =>
    rw [hfile] at h
    refine Or.inr ⟨hfile, ?_, fun call phase hget => absurd hget (hnone call phase),
      fun _ call _ phase _ hget => absurd hget (hnone call phase),
      fun call _ phase _ hget => absurd hget (hnone call phase), fun op hop => ?_⟩
    · cases hcurrent : entry m.current with
      | some text =>
        rw [hcurrent] at h
        exact Or.inl ⟨text, hcurrent, h⟩
      | none =>
        rw [hcurrent] at h
        obtain ⟨text, htext, hdeserialize⟩ := Option.bind_eq_some_iff.mp h
        exact Or.inr ⟨rfl, text, htext, hdeserialize⟩
    · rw [hlate] at hop
      cases hop

theorem Kept.move (h : Kept deserialize identity m)
    (hcareful : Careful deserialize (m, log) label)
    (hmove : move deserialize m label = some (m', happened)) :
    Kept deserialize identity m' ∧
      ∀ call keypair, .returned call keypair ∈ happened → keypair = identity := by
  rcases h with hfile | hkeyring
  · obtain ⟨hkept, hreturned⟩ := hfile.move hcareful hmove
    exact ⟨Or.inl hkept, hreturned⟩
  · obtain ⟨hkept, hreturned⟩ := hkeyring.move hcareful hmove
    exact ⟨Or.inr hkept, hreturned⟩

end Kept

/-! ## A machine without an identity -/

section Unset

variable {deserialize : String → Option Ed25519Keypair} {m m' : Machine}
  {log happened : List CallEvent} {label : Label} {call : ℕ} {phase phase' : CallPhase}

/-- What a call may stand at while there is no identity. -/
def PhaseUnset (m : Machine) : CallPhase → Prop
  | .readLegacy _ => entry m.current = none
  | .migrate _ _ _ | .deleteLegacy _ => False
  | _ => True

/-- Nothing gives an identity, and at most one call is under way. -/
structure Unset (deserialize : String → Option Ed25519Keypair) (m : Machine) : Prop where
  unresolved : resolve deserialize m = none
  phases : ∀ call phase, m.calls.get? call = some phase → PhaseUnset m phase
  alone : ∀ call call' phase phase', m.calls.get? call = some phase →
    m.calls.get? call' = some phase' → call = call'
  late : m.late = []

theorem phaseUnset_nextAttempt (m : Machine) (attempt : ℕ) :
    PhaseUnset m (nextAttempt attempt) := by
  unfold nextAttempt
  split_ifs
  · trivial
  · trivial

theorem Unset.file (h : Unset deserialize m) : m.file.bind deserialize = none := by
  have hnone := h.unresolved
  unfold resolve at hnone
  split at hnone
  · cases hnone
  · assumption

/-- What is stored cannot be read. -/
theorem Unset.current (h : Unset deserialize m) : (entry m.current).bind deserialize = none := by
  have hnone := h.unresolved
  unfold resolve at hnone
  rw [h.file] at hnone
  cases hcurrent : entry m.current with
  | none => rfl
  | some text =>
    rw [hcurrent] at hnone
    exact hnone

theorem Unset.legacy (h : Unset deserialize m) (hcurrent : entry m.current = none) {text : String}
    (htext : entry m.legacy = some text) : deserialize text = none := by
  have hnone := h.unresolved
  unfold resolve at hnone
  rw [h.file, hcurrent, htext] at hnone
  exact hnone

theorem Unset.setCall (h : Unset deserialize m) (hget : m.calls.get? call = some phase)
    (hphase : PhaseUnset m phase') : Unset deserialize (m.setCall call phase') := by
  refine ⟨h.unresolved, fun other p hother => ?_, fun other other' p p' hother hother' => ?_,
    h.late⟩
  · rcases get?_of_setCall hother with ⟨-, rfl⟩ | ⟨-, hother⟩
    · exact hphase
    · exact h.phases other p hother
  · obtain ⟨q, hq⟩ := under_way_of_setCall hget hother
    obtain ⟨q', hq'⟩ := under_way_of_setCall hget hother'
    exact h.alone other other' q q' hq hq'


theorem Unset.endCall (h : Unset deserialize m) (call : ℕ) :
    Unset deserialize (m.endCall call) := by
  exact ⟨h.unresolved, fun other p hother => h.phases other p (get?_of_endCall hother).2,
    fun other other' p p' hother hother' =>
      h.alone other other' p p' (get?_of_endCall hother).2 (get?_of_endCall hother').2,
    h.late⟩

theorem entry_serialize (keypair : Ed25519Keypair) :
    entry (some (serialize keypair)) = some (serialize keypair) := by
  refine Option.filter_eq_some_iff.mpr ⟨rfl, decide_eq_true fun hempty => ?_⟩
  have hlist := congrArg String.toList hempty
  rw [serialize, String.toList_ofList] at hlist
  cases hlist

/-- The call that was alone has written a new key, and goes on or ends. -/
theorem Unset.written (h : Unset deserialize m)
    (hcodec : ∀ keypair, deserialize (serialize keypair) = some keypair) {attempt : ℕ}
    {keypair : Ed25519Keypair} (hget : m.calls.get? call = some (.store attempt keypair))
    (hfile : m'.file = m.file) (hcurrent : m'.current = some (serialize keypair))
    (hlate : m'.late = m.late)
    (hcalls : ∀ other p, m'.calls.get? other = some p →
      m.calls.get? other ≠ none ∧ (other = call → p = nextAttempt attempt)) :
    KeyringKept deserialize keypair m' := by
  have honly : ∀ {other : ℕ} {p : CallPhase}, m'.calls.get? other = some p →
      other = call ∧ p = nextAttempt attempt := by
    intro other p hother
    obtain ⟨hwas, hphase⟩ := hcalls other p hother
    obtain ⟨q, hq⟩ := Option.ne_none_iff_exists'.mp hwas
    have heq := h.alone other call q _ hq hget
    exact ⟨heq, hphase heq⟩
  have hholds : Holds deserialize keypair m'.current := by
    rw [hcurrent]
    exact ⟨serialize keypair, entry_serialize keypair, hcodec keypair⟩
  refine ⟨by rw [hfile]; exact h.file, Or.inl hholds, fun other p hother => ?_,
    fun _ other other' p p' hother hother' => ?_, fun other other' p p' hother hother' _ _ => ?_,
    fun op hop => ?_⟩
  · rw [(honly hother).2]
    exact phaseKept_nextAttempt attempt
  · rw [(honly hother).1, (honly hother').1]
  · rw [(honly hother).1, (honly hother').1]
  · rw [hlate, h.late] at hop
    cases hop

/-- The call that was alone has written the file, and ends. -/
theorem Unset.fileWritten (h : Unset deserialize m)
    (hcodec : ∀ keypair, deserialize (serialize keypair) = some keypair) {keypair : Ed25519Keypair}
    (hget : m.calls.get? call = some phase)
    (hm' : m' = { m.endCall call with file := some (serialize keypair) }) :
    FileKept deserialize keypair m' := by
  subst hm'
  refine ⟨hcodec keypair, fun other p hother => ?_, h.late⟩
  obtain ⟨hne, hother⟩ := get?_of_endCall hother
  exact absurd (h.alone other call p phase hother hget) hne

/-- There is no identity and none was returned, or there is one and it is all that was returned. -/
def Settles (deserialize : String → Option Ed25519Keypair) (m : Machine)
    (happened : List CallEvent) : Prop :=
  (Unset deserialize m ∧ ∀ call keypair, .returned call keypair ∉ happened) ∨
    ∃ identity, Kept deserialize identity m ∧
      ∀ call keypair, .returned call keypair ∈ happened → keypair = identity

theorem Unset.quiet (h : Unset deserialize m) : Settles deserialize m [] := by
  refine Or.inl ⟨h, fun call keypair hmem => ?_⟩
  cases hmem

theorem Unset.throws (h : Unset deserialize m) (call : ℕ) (error : IdentityError) :
    Settles deserialize m [.threw call error] := by
  refine Or.inl ⟨h, fun other keypair hmem => ?_⟩
  cases List.mem_singleton.mp hmem

theorem Kept.returns {identity : Ed25519Keypair} (h : Kept deserialize identity m) (call : ℕ) :
    Settles deserialize m [.returned call identity] := by
  refine Or.inr ⟨identity, h, fun other keypair hmem => ?_⟩
  cases List.mem_singleton.mp hmem
  rfl

theorem Unset.of_start (h : Unset deserialize m)
    (hcareful : Careful deserialize (m, log) (.start call)) :
    Unset deserialize (m.setCall call .readFile) := by
  refine ⟨h.unresolved, fun other p hother => ?_, fun other other' p p' hother hother' => ?_,
    h.late⟩
  · rcases get?_of_setCall hother with ⟨-, rfl⟩ | ⟨-, hother⟩
    · trivial
    · exact h.phases other p hother
  · have hidle := idle_of_start h.file h.current hcareful
    rw [only_of_idle hidle hother, only_of_idle hidle hother']

/-- The current entry is none or gives no key. -/
theorem Unset.of_readCurrent (h : Unset deserialize m) {ok : Bool}
    (hmove : move deserialize m (.readCurrent call ok) = some (m', happened)) :
    Settles deserialize m' happened := by
  simp only [IdentityRuns.move] at hmove
  split at hmove
  · next attempt hget =>
    have hnext := h.setCall hget (phaseUnset_nextAttempt m attempt)
    split_ifs at hmove
    · cases hcurrent : entry m.current with
      | some text =>
        have hunread : deserialize text = none := by
          have hnone := h.current
          rwa [hcurrent] at hnone
        simp only [hcurrent, hunread] at hmove
        cases hmove
        exact hnext.quiet
      | none =>
        simp only [hcurrent] at hmove
        cases hmove
        exact Unset.quiet (h.setCall hget hcurrent)
    · cases hmove
      exact hnext.quiet
  · cases hmove

/-- The legacy entry gives no key, or there is none and a key is to be stored. -/
theorem Unset.of_readLegacy (h : Unset deserialize m) {ok : Bool} {fresh : Ed25519Keypair}
    (hmove : move deserialize m (.readLegacy call ok fresh) = some (m', happened)) :
    Settles deserialize m' happened := by
  simp only [IdentityRuns.move] at hmove
  split at hmove
  · next attempt hget =>
    have hcurrent : entry m.current = none := h.phases call _ hget
    have hnext := h.setCall hget (phaseUnset_nextAttempt m attempt)
    split_ifs at hmove
    · cases hlegacy : entry m.legacy with
      | some text =>
        simp only [hlegacy, h.legacy hcurrent hlegacy] at hmove
        cases hmove
        exact hnext.quiet
      | none =>
        simp only [hlegacy] at hmove
        cases hmove
        exact Unset.quiet (h.setCall hget trivial)
    · cases hmove
      exact hnext.quiet
  · cases hmove

/-- A write stores a new key or does nothing; it is never given up. -/
theorem Unset.of_write (h : Unset deserialize m)
    (hcodec : ∀ keypair, deserialize (serialize keypair) = some keypair) {outcome : OpOutcome}
    (hcareful : Careful deserialize (m, log) (.write call outcome))
    (hmove : move deserialize m (.write call outcome) = some (m', happened)) :
    Settles deserialize m' happened := by
  simp only [IdentityRuns.move] at hmove
  split at hmove
  · next attempt text keypair hget => exact absurd (h.phases call _ hget) id
  · next attempt keypair hget =>
    have hunder : ∀ {other p}, m.calls.get? other = some p → m.calls.get? other ≠ none := by
      intro other p hother
      rw [hother]
      exact Option.some_ne_none p
    cases outcome with
    | done =>
      cases hmove
      have hkept : KeyringKept deserialize keypair
          ((m.apply (.write (serialize keypair))).endCall call) :=
        h.written hcodec hget rfl rfl rfl fun other p hother =>
          ⟨hunder (get?_of_endCall hother).2, fun heq => absurd heq (get?_of_endCall hother).1⟩
      exact Kept.returns (Or.inr hkept) call
    | took =>
      cases hmove
      have hkept : KeyringKept deserialize keypair
          ((m.apply (.write (serialize keypair))).setCall call (nextAttempt attempt)) := by
        refine h.written hcodec hget rfl rfl rfl fun other p hother => ?_
        rcases get?_of_setCall hother with ⟨rfl, hphase⟩ | ⟨hne, hother⟩
        · exact ⟨hunder hget, fun _ => hphase⟩
        · exact ⟨hunder hother, fun heq => absurd heq hne⟩
      exact Or.inr ⟨keypair, Or.inr hkept, hkept.quiet.2⟩
    | failed =>
      cases hmove
      exact Unset.quiet (h.setCall hget (phaseUnset_nextAttempt m attempt))
    | late => exact absurd hget (hcareful rfl attempt keypair)
  · cases hmove

/-- The file is written, or its failed write leaves nothing readable or all of the text. -/
theorem Unset.of_writeFile (h : Unset deserialize m)
    (hcodec : ∀ keypair, deserialize (serialize keypair) = some keypair) {outcome : FileOutcome}
    (hcareful : Careful deserialize (m, log) (.writeFile call outcome))
    (hmove : move deserialize m (.writeFile call outcome) = some (m', happened)) :
    Settles deserialize m' happened := by
  simp only [IdentityRuns.move] at hmove
  split at hmove
  · next keypair hget =>
    cases hmove
    exact Kept.returns (Or.inl (h.fileWritten hcodec hget rfl)) call
  · next keypair left hget =>
    cases hmove
    rcases hcareful with hleft | ⟨keypair', hget', rfl⟩
    · have hresolve : resolve deserialize { m.endCall call with file := left } = none := by
        have hnone := h.unresolved
        unfold resolve at hnone ⊢
        rw [h.file] at hnone
        rw [hleft]
        exact hnone
      have hend := h.endCall call
      refine Unset.throws ⟨hresolve, fun other p hother => ?_, hend.alone, hend.late⟩ call _
      have hphase := hend.phases other p hother
      cases p <;> exact hphase
    · refine Or.inr ⟨keypair', Or.inl (h.fileWritten hcodec hget' rfl), fun other keypair hmem =>
        ?_⟩
      cases List.mem_singleton.mp hmem
  · cases hmove

/-- A careful step makes no identity and returns none, or makes one and returns only that. -/
theorem Unset.move (h : Unset deserialize m)
    (hcodec : ∀ keypair, deserialize (serialize keypair) = some keypair)
    (hcareful : Careful deserialize (m, log) label)
    (hmove : move deserialize m label = some (m', happened)) :
    Settles deserialize m' happened := by
  cases label with
  | start call =>
    simp only [IdentityRuns.move] at hmove
    split_ifs at hmove
    cases hmove
    exact (h.of_start hcareful).quiet
  | readFile call ok =>
    simp only [IdentityRuns.move, readKeypair_none h.file] at hmove
    split at hmove
    · next hget =>
      cases hmove
      exact Unset.quiet (h.setCall hget trivial)
    · cases hmove
  | readCurrent call ok => exact h.of_readCurrent hmove
  | readLegacy call ok fresh => exact h.of_readLegacy hmove
  | write call outcome => exact h.of_write hcodec hcareful hmove
  | delete call outcome =>
    simp only [IdentityRuns.move] at hmove
    split at hmove
    · next keypair hget => exact absurd (h.phases call _ hget) id
    · cases hmove
  | readFileAgain call ok keyringExpected forceFile fresh =>
    obtain ⟨-, rfl⟩ := hcareful
    simp only [IdentityRuns.move, readKeypair_none h.file, Bool.false_eq_true, if_false] at hmove
    split at hmove
    · next hget =>
      split_ifs at hmove
      · cases hmove
        exact (h.endCall call).throws call _
      · cases hmove
        exact Unset.quiet (h.setCall hget trivial)
    · cases hmove
  | listPeers call peers fresh =>
    simp only [IdentityRuns.move] at hmove
    split at hmove
    · next hget =>
      split_ifs at hmove
      · cases hmove
        exact (h.endCall call).throws call _
      · cases hmove
        exact Unset.quiet (h.setCall hget trivial)
    · cases hmove
  | writeFile call outcome => exact h.of_writeFile hcodec hcareful hmove
  | land i =>
    simp only [IdentityRuns.move, h.late] at hmove
    cases hmove
  | crash call =>
    simp only [IdentityRuns.move] at hmove
    split_ifs at hmove
    cases hmove
    exact (h.endCall call).quiet

theorem unset_of_resolve (hcalls : m.calls = .empty) (hlate : m.late = [])
    (h : resolve deserialize m = none) : Unset deserialize m := by
  have hnone : ∀ call phase, m.calls.get? call ≠ some phase := by
    intro call phase hget
    rw [hcalls] at hget
    cases hget
  exact ⟨h, fun call phase hget => absurd hget (hnone call phase),
    fun _ call _ phase _ hget => absurd hget (hnone call phase), hlate⟩

end Unset

/-! ## Runs -/

section Runs

variable {deserialize : String → Option Ed25519Keypair} {identity : Ed25519Keypair}

/-- The identity is kept, and every call so far returned it. -/
def Holding (deserialize : String → Option Ed25519Keypair) (identity : Ed25519Keypair)
    (s : Machine × List CallEvent) : Prop :=
  Kept deserialize identity s.1 ∧
    ∀ call keypair, .returned call keypair ∈ s.2 → keypair = identity

theorem Holding.step {s s' : Machine × List CallEvent} {label : Label}
    (h : Holding deserialize identity s) (hcareful : Careful deserialize s label)
    (hstep : step deserialize s label = some s') : Holding deserialize identity s' := by
  obtain ⟨happened, hmove, hlog⟩ := logged_eq_some.mp hstep
  obtain ⟨hkept, hreturned⟩ := h.1.move hcareful hmove
  refine ⟨hkept, fun call keypair hmem => ?_⟩
  rw [hlog, List.mem_append] at hmem
  rcases hmem with hmem | hmem
  · exact h.2 call keypair hmem
  · exact hreturned call keypair hmem

/-- There is no identity and no call has returned, or there is one and it is all that calls
    returned. -/
def Determined (deserialize : String → Option Ed25519Keypair) (s : Machine × List CallEvent) :
    Prop :=
  (Unset deserialize s.1 ∧ ∀ call keypair, .returned call keypair ∉ s.2) ∨
    ∃ identity, Holding deserialize identity s

theorem Determined.step {s s' : Machine × List CallEvent} {label : Label}
    (hcodec : ∀ keypair, deserialize (serialize keypair) = some keypair)
    (h : Determined deserialize s) (hcareful : Careful deserialize s label)
    (hstep : step deserialize s label = some s') : Determined deserialize s' := by
  rcases h with ⟨hunset, hnone⟩ | ⟨identity, hholding⟩
  · obtain ⟨happened, hmove, hlog⟩ := logged_eq_some.mp hstep
    rcases hunset.move hcodec hcareful hmove with ⟨hunset', hnone'⟩ | ⟨identity, hkept, hreturned⟩
    · refine Or.inl ⟨hunset', fun call keypair hmem => ?_⟩
      rw [hlog, List.mem_append] at hmem
      rcases hmem with hmem | hmem
      · exact hnone call keypair hmem
      · exact hnone' call keypair hmem
    · refine Or.inr ⟨identity, hkept, fun call keypair hmem => ?_⟩
      rw [hlog, List.mem_append] at hmem
      rcases hmem with hmem | hmem
      · exact absurd hmem (hnone call keypair)
      · exact hreturned call keypair hmem
  · exact Or.inr ⟨identity, hholding.step hcareful hstep⟩

end Runs

/-- From a machine at rest, over any careful run: the identity that it has stays the same, and
    a call returns nothing but the identity of the machine. -/
theorem identity_kept (deserialize : String → Option Ed25519Keypair)
    (hcodec : ∀ keypair, deserialize (serialize keypair) = some keypair) (m₀ : Machine)
    (hcalls : m₀.calls = .empty) (hlate : m₀.late = []) (labels : List Label) (m : Machine)
    (log : List CallEvent) (hrun : run (step deserialize) (m₀, []) labels = some (m, log))
    (hcareful : Along (step deserialize) (Careful deserialize) (m₀, []) labels) :
    (∀ identity, resolve deserialize m₀ = some identity →
      resolve deserialize m = some identity) ∧
      ∀ call keypair, .returned call keypair ∈ log → resolve deserialize m = some keypair := by
  have hnil : ∀ {P : Prop} call keypair, CallEvent.returned call keypair ∈ [] → P := by
    intro P call keypair hmem
    cases hmem
  constructor
  · intro identity hresolve
    have h₀ : Holding deserialize identity (m₀, []) :=
      ⟨kept_of_resolve hcalls hlate hresolve, fun call keypair => hnil call keypair⟩
    have hholding : Holding deserialize identity (m, log) :=
      invariant_along (fun _ _ _ h hok hstep => h.step hok hstep) h₀ hcareful hrun
    exact hholding.1.resolve_eq
  · have h₀ : Determined deserialize (m₀, []) := by
      cases hresolve : resolve deserialize m₀ with
      | none => exact Or.inl ⟨unset_of_resolve hcalls hlate hresolve, fun call keypair =>
          hnil call keypair⟩
      | some identity => exact Or.inr ⟨identity, kept_of_resolve hcalls hlate hresolve,
          fun call keypair => hnil call keypair⟩
    intro call keypair hmem
    rcases invariant_along (fun _ _ _ h hok hstep => h.step hcodec hok hstep) h₀ hcareful hrun with
      ⟨-, hnone⟩ | ⟨identity, hkept, hreturned⟩
    · exact absurd hmem (hnone call keypair)
    · rw [hreturned call keypair hmem]
      exact hkept.resolve_eq

section Stored

variable (numbers : JsonText.NumberText) {bufferFrom : Json → Option (List Byte)}

theorem escapeChar_digit (sextet : Base64.Sextet) :
    JsonText.escapeChar (Base64.digit sextet) = [Base64.digit sextet] := by
  revert sextet
  decide

theorem escapeChar_encode {c : Char} {bytes : List Byte} (h : c ∈ Base64.encode bytes) :
    JsonText.escapeChar c = [c] := by
  rcases List.mem_append.mp h with hdigit | hpad
  · obtain ⟨sextet, -, rfl⟩ := List.mem_map.mp hdigit
    exact escapeChar_digit sextet
  · rw [List.eq_of_mem_replicate hpad]
    decide

/-- A text of Base64 stands in the JSON text as it is. -/
theorem quote_encode (bytes : List Byte) :
    JsonText.quote (String.ofList (Base64.encode bytes)) =
      '"' :: (Base64.encode bytes ++ ['"']) := by
  rw [JsonText.quote, String.toList_ofList]
  have hflat : (Base64.encode bytes).flatMap JsonText.escapeChar =
      (Base64.encode bytes).flatMap fun c => [c] :=
    List.flatMap_congr fun c hc => escapeChar_encode hc
  rw [hflat, List.flatMap_singleton']

/-- The payload of `_serialize` (lines 277–280). -/
def payload (keypair : Ed25519Keypair) : Json :=
  .object [("pk", .string (String.ofList (Base64.encode keypair.publicKey))),
    ("sk", .string (String.ofList (Base64.encode keypair.secretKey)))]

theorem toList_serialize (keypair : Ed25519Keypair) :
    (serialize keypair).toList = JsonText.stringify numbers (payload keypair) := by
  rw [serialize, String.toList_ofList, payload, JsonText.stringify, JsonText.stringify,
    JsonText.stringifyMembers, JsonText.stringify, JsonText.stringifyMembers, quote_encode,
    quote_encode]
  simp [JsonText.quote, JsonText.escapeChar, List.intercalate, List.intersperse]

/-- `_deserialize` reads what `_serialize` wrote, where `Buffer.from` reads a text of Base64. -/
theorem deserializeStored_serialize (hbuffer : ∀ bytes,
    bufferFrom (.string (String.ofList (Base64.encode bytes))) = some bytes)
    (keypair : Ed25519Keypair) :
    deserializeStored numbers bufferFrom (serialize keypair) = some keypair := by
  have hparse : JsonText.parse numbers (serialize keypair).toList = some (payload keypair) := by
    rw [toList_serialize numbers]
    exact JsonText.parse_stringify rfl
  have hpk : (payload keypair).member? "pk" =
      some (.string (String.ofList (Base64.encode keypair.publicKey))) := rfl
  have hsk : (payload keypair).member? "sk" =
      some (.string (String.ofList (Base64.encode keypair.secretKey))) := rfl
  unfold deserializeStored
  rw [hparse]
  simp only [bind, Option.bind, hpk, hsk, hbuffer]
  rfl

end Stored

/-- What `Buffer.from` makes of a string; no other member is written. -/
private def bytesOf : Json → Option (List Byte)
  | .string text => some (Base64.decode text.toList)
  | _ => none

private theorem bytesOf_encode (bytes : List Byte) :
    bytesOf (.string (String.ofList (Base64.encode bytes))) = some bytes := by
  rw [bytesOf, String.toList_ofList, Base64.decode_encode]

/-- `_deserialize` in the runs below. -/
private def read : String → Option Ed25519Keypair := deserializeStored JsonText.oneDigit bytesOf

private theorem read_serialize : ∀ keypair, read (serialize keypair) = some keypair :=
  deserializeStored_serialize JsonText.oneDigit bytesOf_encode

private def paired : Ed25519Keypair :=
  ⟨Base64.decode "AQ==".toList, Base64.decode "Ag==".toList⟩

private def other : Ed25519Keypair :=
  ⟨Base64.decode "Aw==".toList, Base64.decode "BA==".toList⟩

/-- A machine whose identity is still under the legacy service. -/
private def legacyMachine : Machine := ⟨none, none, some (serialize paired), .empty, []⟩

/-- The keyring is locked at first; then the entry is moved, and the deletion of the old one is
    given up. It takes effect while a second call runs. -/
private def migration : List Label :=
  [.start 0, .readFile 0 true, .readCurrent 0 false, .readCurrent 0 true, .readLegacy 0 true other,
    .write 0 .done, .delete 0 .late, .start 1, .readFile 1 true, .land 0, .readCurrent 1 true]

private def carefulCheck (s : Machine × List CallEvent) : Label → Bool
  | .start _ => ((entry s.1.current).bind read).isSome || s.1.calls.isEmpty
  | .readFile _ ok => ok
  | .readFileAgain _ _ _ _ _ => false
  | .listPeers _ _ _ => false
  | .writeFile _ _ => false
  | .write _ outcome => outcome ≠ .late
  | _ => true

private theorem careful_of_check (s : Machine × List CallEvent) (label : Label)
    (h : carefulCheck s label = true) : Careful read s label := by
  cases label with
  | start call =>
    rcases Bool.or_eq_true_iff.mp h with hcurrent | hempty
    · exact Or.inr (Or.inl hcurrent)
    · refine Or.inr (Or.inr fun call => ?_)
      have hentries : s.1.calls.entries = [] := List.isEmpty_iff.mp hempty
      rw [OrderedMap.get?, hentries]
      rfl
  | readFile call ok => exact Or.inl h
  | readFileAgain call ok keyringExpected forceFile fresh => cases h
  | listPeers call peers fresh => cases h
  | writeFile call outcome => cases h
  | write call outcome => exact fun hlate => absurd hlate (of_decide_eq_true h)
  | readCurrent call ok => trivial
  | readLegacy call ok fresh => trivial
  | delete call outcome => trivial
  | land i => trivial
  | crash call => trivial

theorem identity_kept_migration : ∃ m,
    run (step read) (legacyMachine, []) migration =
      some (m, [.returned 0 paired, .returned 1 paired]) ∧
    m.legacy = none ∧ resolve read m = some paired := by
  have hchecked : (run (guarded (step read) carefulCheck) (legacyMachine, [])
      migration).any (fun s => decide (s.2 = [.returned 0 paired, .returned 1 paired]) &&
        decide (s.1.legacy = none)) = true := by decide +kernel
  rw [Option.any_eq_true] at hchecked
  obtain ⟨⟨m, log⟩, hguarded, hends⟩ := hchecked
  rw [Bool.and_eq_true, decide_eq_true_eq, decide_eq_true_eq] at hends
  obtain ⟨rfl, hlegacy⟩ := hends
  obtain ⟨hrun, hcareful⟩ := run_of_guarded careful_of_check hguarded
  have hkept := identity_kept read read_serialize legacyMachine rfl rfl migration m
    _ hrun hcareful
  exact ⟨m, hrun, hlegacy, hkept.2 1 paired (List.mem_cons_of_mem _ List.mem_cons_self)⟩

/-- The second call finds no current entry, the first one moves the legacy entry, and the
    second one finds no legacy entry either. -/
private def overlapping : List Label :=
  [.start 0, .start 1, .readFile 0 true, .readFile 1 true, .readCurrent 0 true,
    .readCurrent 1 true, .readLegacy 0 true other, .write 0 .done, .delete 0 .done,
    .readLegacy 1 true other, .write 1 .done]

/-- Two calls overlap while the legacy entry is moved: the second one makes a new identity and
    writes it over the one that the first one returned. -/
theorem overlapping_migration_mints : ∃ m,
    run (step read) (legacyMachine, []) overlapping =
      some (m, [.returned 0 paired, .returned 1 other]) ∧
    resolve read legacyMachine = some paired ∧ resolve read m = some other := by
  have hchecked : (run (step read) (legacyMachine, []) overlapping).any (fun s =>
      decide (s.2 = [.returned 0 paired, .returned 1 other]) &&
        decide (resolve read s.1 = some other)) = true := by decide +kernel
  rw [Option.any_eq_true] at hchecked
  obtain ⟨⟨m, log⟩, hrun, hends⟩ := hchecked
  rw [Bool.and_eq_true, decide_eq_true_eq, decide_eq_true_eq] at hends
  obtain ⟨rfl, hresolve⟩ := hends
  exact ⟨m, hrun, by decide +kernel, hresolve⟩

end RemotePi.Pairing.IdentityRuns
