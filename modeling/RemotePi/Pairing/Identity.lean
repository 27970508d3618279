import RemotePi.Pairing.OwnerStorage

/-!
# The device identity

Model of `getOrCreateEd25519Keypair` (`pi-extension/src/pairing/storage.ts`): the
order in which the identity is looked for, the retries, and the paths that end
in minting a key.

Everything the function reads is a parameter: the two reads of the identity
file, what the keyring answers in each attempt, `peers.json`, and the environment.
A keypair carries where it comes from, so that a fresh one is told from an
established one whatever its bytes are.

Results:
* `keyringPath_spec`, `fallbackPath_keeps`: which of the two paths can mint.
* `not_mints_iff`: with an Owner paired and no force flag, a fresh key is made exactly
  when an attempt that is reached finds both keyring services empty.
* `empty_keyring_mints`: which does happen.
-/

namespace RemotePi.Pairing

open RemotePi.Lib

structure Ed25519Keypair where
  publicKey : List Byte
  secretKey : List Byte
deriving DecidableEq

inductive Origin where
  | established
  | fresh
deriving DecidableEq, Repr

/-- A keypair and whether it was found or generated. -/
structure Identity where
  keypair : Ed25519Keypair
  origin : Origin
deriving DecidableEq

inductive Service where
  /-- `dev.remotepi.pi`. -/
  | new
  /-- `dev.remotepi.mac`. -/
  | old
deriving DecidableEq, Repr

/-- What a keyring read comes to: a stored text, `undefined`, or an exception. -/
inductive KeyringRead where
  | value (stored : String)
  | absent
  | throws
deriving DecidableEq, Repr

/-- What reading `identity.json` comes to. -/
inductive FileRead where
  | missing
  | unreadable
  | content (raw : String)
deriving DecidableEq, Repr

inductive Platform where
  | darwin
  | win32
  | other
deriving DecidableEq, Repr

/-- Everything the function depends on. `deserialize` is `_deserialize`, none where it throws;
    the keyring answers by attempt; `write` and `delete` say whether the operation of the attempt
    resolves. -/
structure Environment where
  deserialize : String → Option Ed25519Keypair
  keyringReadAttempts : ℕ
  identityFile : FileRead
  identityFileAgain : FileRead
  read : ℕ → Service → KeyringRead
  write : ℕ → Bool
  delete : ℕ → Bool
  generate : ℕ → Ed25519Keypair
  generateForFile : Ed25519Keypair
  writeFile : Bool
  peers : PeersFile
  platform : Platform
  nativeBindingUnavailable : Bool
  allowFileIdentity : Bool

/-- What the function does to the stores, in order. -/
inductive Effect where
  | keyringWrite (service : Service) (identity : Identity)
  | keyringDelete (service : Service)
  | fileWrite (identity : Identity)
deriving DecidableEq

inductive IdentityError where
  | keyringUnavailable
  | pairedIdentityMissing (pairedCount : ℕ)
  | writeFailed
deriving DecidableEq, Repr

/-- The effects, and what the function returns or throws. -/
structure Outcome where
  effects : List Effect
  result : Except IdentityError Identity

/-- `_readKeypairFromFile` (lines 295–302). -/
def readKeypairFromFile (env : Environment) : FileRead → Option Identity
  | .content raw => (env.deserialize raw).map fun kp => ⟨kp, .established⟩
  | _ => none

/-- `_keyringExpectedAvailable` (lines 245–251), without the override for tests. -/
def keyringExpectedAvailable (env : Environment) : Bool :=
  if env.nativeBindingUnavailable then false
  else env.platform = .darwin || env.platform = .win32

/-- A text of the keyring as an established identity. -/
def established (env : Environment) (stored : String) : Option Identity :=
  (env.deserialize stored).map fun kp => ⟨kp, .established⟩

/-- The end of an attempt that found nothing (lines 386–390). -/
def mintAttempt (env : Environment) (attempt : ℕ) : List Effect × Option Identity :=
  let fresh : Identity := ⟨env.generate attempt, .fresh⟩
  ([.keyringWrite .new fresh], if env.write attempt then some fresh else none)

/-- An attempt from the read of the legacy service on (lines 370–390). -/
def legacyAttempt (env : Environment) (attempt : ℕ) : List Effect × Option Identity :=
  match env.read attempt .old with
  | .throws => ([], none)
  | .absent => mintAttempt env attempt
  | .value legacy =>
    if legacy = "" then mintAttempt env attempt
    else
      match established env legacy with
      | none => ([], none)
      | some kp =>
        if env.write attempt then
          ([.keyringWrite .new kp, .keyringDelete .old],
            if env.delete attempt then some kp else none)
        else ([.keyringWrite .new kp], none)

/-- One attempt of Path A (lines 366–390): the effects, and the keypair unless an
    operation throws. An empty text is falsy and counts as no entry. -/
def keyringAttempt (env : Environment) (attempt : ℕ) : List Effect × Option Identity :=
  match env.read attempt .new with
  | .throws => ([], none)
  | .absent => legacyAttempt env attempt
  | .value existing =>
    if existing = "" then legacyAttempt env attempt else ([], established env existing)

/-- The loop of Path A (lines 364–397): the first attempt that does not throw. -/
def keyringPath (env : Environment) (attempt : ℕ) : ℕ → List Effect × Option Identity
  | 0 => ([], none)
  | remaining + 1 =>
    match keyringAttempt env attempt with
    | (effects, some identity) => (effects, some identity)
    | (effects, none) =>
      let (effects', result) := keyringPath env (attempt + 1) remaining
      (effects ++ effects', result)

/-- Path B (lines 399–450): the keyring threw on every attempt. -/
def fallbackPath (env : Environment) : Outcome :=
  match readKeypairFromFile env env.identityFileAgain with
  | some fromFile => ⟨[], .ok fromFile⟩
  | none =>
    let forceFile := env.allowFileIdentity
    if keyringExpectedAvailable env && !forceFile then ⟨[], .error .keyringUnavailable⟩
    else
      let paired := listPeers env.peers
      if !forceFile && 0 < paired.length then ⟨[], .error (.pairedIdentityMissing paired.length)⟩
      else
        let fresh : Identity := ⟨env.generateForFile, .fresh⟩
        ⟨[.fileWrite fresh], if env.writeFile then .ok fresh else .error .writeFailed⟩

/-- `getOrCreateEd25519Keypair` (lines 344–450). -/
def getOrCreateEd25519Keypair (env : Environment) : Outcome :=
  match readKeypairFromFile env env.identityFile with
  | some existingFile => ⟨[], .ok existingFile⟩
  | none =>
    match keyringPath env 0 env.keyringReadAttempts with
    | (effects, some identity) => ⟨effects, .ok identity⟩
    | (effects, none) =>
      let outcome := fallbackPath env
      ⟨effects ++ outcome.effects, outcome.result⟩

/-! ## Fresh keys -/

/-- The effect puts a freshly generated keypair into a store. -/
def Effect.storesFresh : Effect → Bool
  | .keyringWrite _ identity => identity.origin = .fresh
  | .keyringDelete _ => false
  | .fileWrite identity => identity.origin = .fresh

/-- The answer of a keyring service that counts as no entry. -/
def KeyringRead.isEmpty : KeyringRead → Bool
  | .absent => true
  | .value stored => stored = ""
  | .throws => false

/-- Both keyring services answer in the attempt that there is no entry. -/
def bothEmpty (env : Environment) (attempt : ℕ) : Bool :=
  (env.read attempt .new).isEmpty && (env.read attempt .old).isEmpty

/-- The legacy service cannot be read, or its entry cannot be migrated. -/
def legacyThrows (env : Environment) (attempt : ℕ) : Bool :=
  match env.read attempt .old with
  | .throws => true
  | .value legacy =>
    legacy ≠ "" && ((env.deserialize legacy).isNone || !env.write attempt || !env.delete attempt)
  | .absent => false

/-- The attempt throws before it comes to generate a key. -/
def attemptThrows (env : Environment) (attempt : ℕ) : Bool :=
  match env.read attempt .new with
  | .throws => true
  | .value existing =>
    if existing = "" then legacyThrows env attempt else (env.deserialize existing).isNone
  | .absent => legacyThrows env attempt

/-- Of the attempts from `n` on, one that is reached finds both services empty. -/
def ReachesEmpty (env : Environment) (n remaining : ℕ) : Prop :=
  ∃ k < remaining, bothEmpty env (n + k) = true ∧ ∀ m < k, attemptThrows env (n + m) = true

/-- An attempt that is reached finds both keyring services empty. -/
def ReachesEmptyKeyring (env : Environment) : Prop :=
  ReachesEmpty env 0 env.keyringReadAttempts

theorem reachesEmpty_succ {env : Environment} {n remaining : ℕ} :
    ReachesEmpty env n (remaining + 1) ↔
      bothEmpty env n = true ∨ attemptThrows env n = true ∧ ReachesEmpty env (n + 1) remaining := by
  constructor
  · rintro ⟨k, hk, hb, ht⟩
    cases k with
    | zero => exact Or.inl hb
    | succ k =>
      refine Or.inr ⟨ht 0 (Nat.succ_pos k), k, by omega, ?_, fun m hm => ?_⟩
      · rwa [Nat.add_right_comm, Nat.add_assoc]
      · rw [Nat.add_right_comm, Nat.add_assoc]
        exact ht (m + 1) (by omega)
  · rintro (hb | ⟨ht, k, hk, hb, hk'⟩)
    · exact ⟨0, by omega, hb, fun m hm => absurd hm (Nat.not_lt_zero m)⟩
    · refine ⟨k + 1, by omega, ?_, fun m hm => ?_⟩
      · rwa [Nat.add_right_comm, Nat.add_assoc] at hb
      · cases m with
        | zero => exact ht
        | succ m =>
          have := hk' m (by omega)
          rwa [Nat.add_right_comm, Nat.add_assoc] at this

theorem readKeypairFromFile_origin {env : Environment} {file : FileRead} {identity : Identity}
    (h : readKeypairFromFile env file = some identity) : identity.origin = .established := by
  cases file with
  | content raw =>
    obtain ⟨kp, -, rfl⟩ := Option.map_eq_some_iff.mp h
    rfl
  | missing => cases h
  | unreadable => cases h

theorem established_origin {env : Environment} {stored : String} {identity : Identity}
    (h : established env stored = some identity) : identity.origin = .established := by
  obtain ⟨kp, -, rfl⟩ := Option.map_eq_some_iff.mp h
  rfl

/-- Some of the effects store a fresh key. -/
def storesFresh (effects : List Effect) : Bool := effects.any Effect.storesFresh

/-- An attempt that stores no fresh key, and throws or comes to an established
    identity. -/
structure KeepsIdentity (a : List Effect × Option Identity) (throws : Bool) : Prop where
  effects : storesFresh a.1 = false
  result : if throws then a.2 = none
    else ∃ identity, a.2 = some identity ∧ identity.origin = .established

theorem legacyAttempt_spec (env : Environment) (n : ℕ) :
    if (env.read n .old).isEmpty then storesFresh (legacyAttempt env n).1 = true
    else KeepsIdentity (legacyAttempt env n) (legacyThrows env n) := by
  unfold legacyAttempt legacyThrows
  cases env.read n .old with
  | throws => exact ⟨rfl, rfl⟩
  | absent => rfl
  | value legacy =>
    by_cases hl : legacy = ""
    · subst hl
      rfl
    · simp only [KeyringRead.isEmpty, hl, decide_false, if_false, Bool.false_eq_true]
      cases he : established env legacy with
      | none =>
        have hd : env.deserialize legacy = none := Option.map_eq_none_iff.mp he
        exact ⟨rfl, by simp [hd, hl]⟩
      | some kp =>
        have ho := established_origin he
        obtain ⟨d, hd, -⟩ := Option.map_eq_some_iff.mp he
        cases hw : env.write n
        · exact ⟨by simp [storesFresh, Effect.storesFresh, ho], by simp [hl]⟩
        · refine ⟨by simp [storesFresh, Effect.storesFresh, ho], ?_⟩
          cases hdel : env.delete n <;> simp [hd, hl, ho]

theorem keyringAttempt_spec (env : Environment) (n : ℕ) :
    if bothEmpty env n then storesFresh (keyringAttempt env n).1 = true
    else KeepsIdentity (keyringAttempt env n) (attemptThrows env n) := by
  have hlegacy := legacyAttempt_spec env n
  unfold keyringAttempt attemptThrows bothEmpty
  cases hn : env.read n .new with
  | throws => exact ⟨rfl, rfl⟩
  | absent => exact hlegacy
  | value existing =>
    by_cases he : existing = ""
    · subst he
      exact hlegacy
    · simp only [KeyringRead.isEmpty, he, decide_false, Bool.false_and, Bool.false_eq_true,
        if_false]
      refine ⟨rfl, ?_⟩
      cases hd : env.deserialize existing <;> simp [established, hd]

/-! ## When the function mints -/

/-- The loop stores a fresh key when it reaches an empty keyring; otherwise it
    throws in every attempt or comes to an established identity. -/
theorem keyringPath_spec (env : Environment) (n remaining : ℕ) :
    (ReachesEmpty env n remaining → storesFresh (keyringPath env n remaining).1 = true) ∧
      (¬ ReachesEmpty env n remaining → storesFresh (keyringPath env n remaining).1 = false ∧
        ∀ identity, (keyringPath env n remaining).2 = some identity →
          identity.origin = .established) := by
  induction remaining generalizing n with
  | zero =>
    refine ⟨fun ⟨k, hk, _⟩ => absurd hk (Nat.not_lt_zero k), fun _ => ⟨rfl, fun _ h => ?_⟩⟩
    cases h
  | succ remaining ih =>
    have hspec := keyringAttempt_spec env n
    obtain ⟨ih₁, ih₂⟩ := ih (n + 1)
    rw [reachesEmpty_succ, keyringPath]
    cases ha : keyringAttempt env n with
    | mk effects result =>
      rw [ha] at hspec
      cases hb : bothEmpty env n with
      | true =>
        rw [hb, if_pos rfl] at hspec
        refine ⟨fun _ => ?_, fun hn => absurd (Or.inl rfl) hn⟩
        cases result with
        | some identity => exact hspec
        | none => simp [storesFresh, List.any_append, show effects.any _ = true from hspec]
      | false =>
        rw [hb] at hspec
        obtain ⟨heff, hres⟩ := hspec
        cases ht : attemptThrows env n with
        | true =>
          rw [ht, if_pos rfl] at hres
          cases hres
          have hsplit : ∀ es, storesFresh (effects ++ es) = storesFresh es := by
            intro es
            rw [storesFresh, List.any_append, show effects.any _ = false from heff, Bool.false_or]
            rfl
          simp only [hsplit, Bool.false_eq_true, false_or, true_and]
          exact ⟨ih₁, ih₂⟩
        | false =>
          rw [ht] at hres
          obtain ⟨identity, hid, horigin⟩ := hres
          cases hid
          refine ⟨fun h => by simp at h, fun _ => ⟨heff, fun i hi => ?_⟩⟩
          cases hi
          exact horigin

/-- With an Owner paired and no force flag, Path B stores nothing and returns no
    fresh key. -/
theorem fallbackPath_keeps {env : Environment} (hpeers : listPeers env.peers ≠ [])
    (hforce : env.allowFileIdentity = false) :
    storesFresh (fallbackPath env).effects = false ∧
      ∀ identity, (fallbackPath env).result = .ok identity → identity.origin = .established := by
  unfold fallbackPath
  cases hf : readKeypairFromFile env env.identityFileAgain with
  | some identity =>
    refine ⟨rfl, fun i hi => ?_⟩
    cases hi
    exact readKeypairFromFile_origin hf
  | none =>
    have hpos : 0 < (listPeers env.peers).length := List.length_pos_iff.mpr hpeers
    simp only [hforce, Bool.not_false, Bool.and_true, hpos, decide_true, if_true]
    split_ifs <;> exact ⟨rfl, fun _ h => by cases h⟩

/-- The function returns a freshly generated keypair, or tries to store one. -/
def Outcome.Mints (o : Outcome) : Prop :=
  storesFresh o.effects = true ∨ ∃ identity, o.result = .ok identity ∧ identity.origin = .fresh

/-- **The identity of a paired device.** With an Owner paired and no force flag, a
    fresh keypair is neither returned nor stored exactly when the identity file
    yields a keypair at its first read, or no attempt that is reached finds both
    keyring services empty. -/
theorem not_mints_iff {env : Environment} (hpeers : listPeers env.peers ≠ [])
    (hforce : env.allowFileIdentity = false) :
    ¬ (getOrCreateEd25519Keypair env).Mints ↔
      (readKeypairFromFile env env.identityFile).isSome = true ∨ ¬ ReachesEmptyKeyring env := by
  obtain ⟨hreach, hkeep⟩ := keyringPath_spec env 0 env.keyringReadAttempts
  obtain ⟨hfeff, hfres⟩ := fallbackPath_keeps hpeers hforce
  unfold getOrCreateEd25519Keypair
  cases hf : readKeypairFromFile env env.identityFile with
  | some identity =>
    refine ⟨fun _ => Or.inl rfl, fun _ => ?_⟩
    rintro (h | ⟨i, hi, ho⟩)
    · cases h
    · cases hi
      rw [readKeypairFromFile_origin hf] at ho
      cases ho
  | none =>
    simp only [Option.isSome_none, Bool.false_eq_true, false_or]
    cases hp : keyringPath env 0 env.keyringReadAttempts with
    | mk effects result =>
      rw [hp] at hreach hkeep
      constructor
      · intro hm hr
        have heff : storesFresh effects = true := hreach hr
        refine hm (Or.inl ?_)
        cases result with
        | some identity => exact heff
        | none =>
          show storesFresh (effects ++ _) = true
          rw [storesFresh, List.any_append, show effects.any _ = true from heff, Bool.true_or]
      · intro hr
        obtain ⟨heff, hres⟩ := hkeep hr
        cases result with
        | some identity =>
          rintro (h | ⟨i, hi, ho⟩)
          · exact absurd h (by rw [heff]; decide)
          · cases hi
            rw [hres identity rfl] at ho
            cases ho
        | none =>
          rintro (h | ⟨i, hi, ho⟩)
          · rw [storesFresh, List.any_append, show effects.any _ = false from heff,
              show (fallbackPath env).effects.any _ = false from hfeff] at h
            cases h
          · rw [hfres i hi] at ho
            cases ho

/-! ### A keyring without the entry -/

/-- A machine with one paired Owner and no identity file. `keyring` is what every
    read of the keyring comes to. -/
def pairedMachine (keyring : KeyringRead) : Environment where
  deserialize := fun _ => some ⟨[], []⟩
  keyringReadAttempts := 3
  identityFile := .missing
  identityFileAgain := .missing
  read := fun _ _ => keyring
  write := fun _ => true
  delete := fun _ => true
  generate := fun _ => ⟨[1], [1]⟩
  generateForFile := ⟨[2], [2]⟩
  writeFile := true
  peers := .peers [(PeerRecord.mk "My Browser" "owner" "2026-08-29T00:00:00.000Z").entry]
  platform := .darwin
  nativeBindingUnavailable := false
  allowFileIdentity := false

theorem not_mints_locked : ¬ (getOrCreateEd25519Keypair (pairedMachine .throws)).Mints := by
  refine (not_mints_iff (by decide) rfl).mpr (Or.inr ?_)
  rintro ⟨k, -, hb, -⟩
  cases hb

/-- The keyring answers that it has no entry, and the paired identity is replaced. -/
theorem empty_keyring_mints :
    (listPeers (pairedMachine .absent).peers ≠ [] ∧
        (pairedMachine .absent).allowFileIdentity = false) ∧
      (getOrCreateEd25519Keypair (pairedMachine .absent)).result =
        .ok ⟨⟨[1], [1]⟩, .fresh⟩ ∧
      (getOrCreateEd25519Keypair (pairedMachine .absent)).effects =
        [.keyringWrite .new ⟨⟨[1], [1]⟩, .fresh⟩] ∧
      (getOrCreateEd25519Keypair (pairedMachine .absent)).Mints :=
  ⟨⟨by decide, rfl⟩, rfl, rfl, Or.inl rfl⟩

end RemotePi.Pairing
