import RemotePi.Pairing.OwnerStorage

/-!
# Pairing tokens

Model of `QRSession` (`pi-extension/src/pairing/qr.ts`): one active token, which
the attempt of one Owner and request reserves, releases or commits. Owner ids `ω` and
completions `α` are any types with decidable equality.

A reservation is an object that is compared by identity: it carries the number
under which it was made. Times are milliseconds of `Date.now()`.

Results:
* `commitToken_of_isReservationCurrent`: a current reservation can be committed.
-/

namespace RemotePi.Pairing

/-- The `pair_ok` of a request; its other fields describe the host. -/
structure PairOk where
  inReplyTo : String
deriving DecidableEq, Repr

/-- `TokenReservation` (lines 13–17). -/
structure TokenReservation (ω : Type) where
  id : ℕ
  token : String
  ownerId : ω
  requestId : String
deriving DecidableEq

inductive ReservationStatus (α : Type) where
  | reserved
  | released
  | committed (completion : α)
deriving DecidableEq

/-- `ReservationState` (lines 19–23). -/
structure ReservationState (ω α : Type) where
  reservation : TokenReservation ω
  status : ReservationStatus α
deriving DecidableEq

/-- `ActiveToken` (lines 30–35). -/
structure ActiveToken (ω α : Type) where
  token : String
  expiresAt : ℕ
  consumed : Bool
  reservation : Option (ReservationState ω α)
deriving DecidableEq

structure QRSession (ω α : Type) where
  active : Option (ActiveToken ω α)
  nextReservation : ℕ
deriving DecidableEq

/-- `TokenReservationResult` (lines 25–28). -/
inductive ReserveResult (ω α : Type) where
  | reserved (reservation : TokenReservation ω)
  | committed (completion : α)
  | expired
  | consumed
  | unknown
deriving DecidableEq

/-- What `consumeToken` returns (line 107). -/
inductive ConsumeResult where
  | ok
  | expired
  | consumed
  | unknown
deriving DecidableEq, Repr

namespace QRSession

variable {ω α : Type} [DecidableEq ω] [DecidableEq α]

def initial : QRSession ω α := ⟨none, 0⟩

/-- `issueToken` (lines 44–49); the token is drawn at random. -/
def issueToken (qr : QRSession ω α) (token : String) (now ttlMs : ℕ) : QRSession ω α :=
  { qr with active := some ⟨token, now + ttlMs, false, none⟩ }

/-- A reservation that `reserveToken` grants (lines 75–79). -/
def grant (qr : QRSession ω α) (active : ActiveToken ω α) (reservation : TokenReservation ω) :
    QRSession ω α × ReserveResult ω α :=
  ({ qr with active := some { active with reservation := some ⟨reservation, .reserved⟩ } },
    .reserved reservation)

/-- `reserveToken` (lines 51–80). -/
def reserveToken (qr : QRSession ω α) (now : ℕ) (token : String) (ownerId : ω)
    (requestId : String) : QRSession ω α × ReserveResult ω α :=
  match qr.active with
  | none => (qr, .unknown)
  | some active =>
    if active.token ≠ token then (qr, .unknown)
    else
      let fresh : QRSession ω α × ReserveResult ω α :=
        ({ qr with nextReservation := qr.nextReservation + 1 }).grant active
          ⟨qr.nextReservation, token, ownerId, requestId⟩
      match active.reservation with
      | none =>
        if active.expiresAt < now then (qr, .expired)
        else if active.consumed then (qr, .consumed)
        else fresh
      | some existing =>
        if existing.reservation.ownerId ≠ ownerId ∨ existing.reservation.requestId ≠ requestId then
          (qr, .consumed)
        else
          match existing.status with
          | .committed completion => (qr, .committed completion)
          | .reserved =>
            if active.expiresAt < now then (qr, .expired)
            else if active.consumed then (qr, .consumed)
            else (qr, .reserved existing.reservation)
          | .released =>
            if active.expiresAt < now then (qr, .expired)
            else if active.consumed then (qr, .consumed)
            else fresh

/-- The active token, if the reservation is the one it is reserved by. -/
def reservedBy (qr : QRSession ω α) (reservation : TokenReservation ω) : Option (ActiveToken ω α) :=
  qr.active.filter fun active => active.reservation = some ⟨reservation, .reserved⟩

/-- `commitToken` (lines 82–90). -/
def commitToken (qr : QRSession ω α) (now : ℕ) (reservation : TokenReservation ω)
    (completion : α) : Option (QRSession ω α) :=
  match qr.reservedBy reservation with
  | none => none
  | some active =>
    if active.token ≠ reservation.token ∨ active.expiresAt < now then none
    else
      some { qr with
        active := some { active with reservation := some ⟨reservation, .committed completion⟩ } }

/-- `releaseToken` (lines 92–98). -/
def releaseToken (qr : QRSession ω α) (reservation : TokenReservation ω) : QRSession ω α :=
  match qr.reservedBy reservation with
  | none => qr
  | some active =>
    { qr with active := some { active with reservation := some ⟨reservation, .released⟩ } }

/-- `isReservationCurrent` (lines 100–104). -/
def isReservationCurrent (qr : QRSession ω α) (now : ℕ) (reservation : TokenReservation ω) : Bool :=
  match qr.reservedBy reservation with
  | none => false
  | some active => active.token = reservation.token && now ≤ active.expiresAt

/-- `consumeToken` (lines 107–113), the older API. -/
def consumeToken (qr : QRSession ω α) (now : ℕ) (token : String) : QRSession ω α × ConsumeResult :=
  match qr.active with
  | none => (qr, .unknown)
  | some active =>
    if active.token ≠ token then (qr, .unknown)
    else if active.consumed || active.reservation.isSome then (qr, .consumed)
    else if active.expiresAt < now then (qr, .expired)
    else ({ qr with active := some { active with consumed := true } }, .ok)

/-- `clear` (lines 115–117). -/
def clear (qr : QRSession ω α) : QRSession ω α := { qr with active := none }

/-- A current reservation can be committed. -/
theorem commitToken_of_isReservationCurrent {qr : QRSession ω α} {now : ℕ}
    {reservation : TokenReservation ω} {completion : α}
    (h : qr.isReservationCurrent now reservation = true) :
    ∃ qr', qr.commitToken now reservation completion = some qr' := by
  unfold isReservationCurrent at h
  unfold commitToken
  cases hr : qr.reservedBy reservation with
  | none =>
    rw [hr] at h
    cases h
  | some active =>
    rw [hr] at h
    simp only [Bool.and_eq_true, decide_eq_true_eq] at h
    refine ⟨_, if_neg ?_⟩
    rw [not_or, not_not, Nat.not_lt]
    exact h

end QRSession

end RemotePi.Pairing
