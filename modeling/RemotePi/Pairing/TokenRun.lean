import Mathlib.Data.List.Induction
import RemotePi.Lib.Trace
import RemotePi.Pairing.QrSession

/-!
# The life of a pairing token

A run calls the operations of `QRSession` in any order, with any tokens, reservations and
completions, while the clock goes on. A token lives from the call of `issueToken` that
makes it the active one to the next `issueToken` or `clear`.

Results:
* `QRRun.Inv.keeps`: what the session knows of its active token is what has happened since it was
  issued.
* `token_granted_once`: all reservations of a token are of one owner and request; one of
  them is committed, at most once and in time; a reservation that is released or replaced
  stays dead.
-/

namespace RemotePi.Pairing

open RemotePi.Lib

variable {ω α : Type}

/-! ## Runs -/

inductive QREvent (ω α : Type) where
  | issued (token : String) (expiresAt : ℕ)
  | cleared
  /-- `reserveToken` returns a reservation. -/
  | granted (reservation : TokenReservation ω)
  /-- `reserveToken` returns a completion. -/
  | replayed (token : String) (ownerId : ω) (requestId : String) (completion : α)
  | committed (reservation : TokenReservation ω) (completion : α) (now : ℕ)
  | released (reservation : TokenReservation ω)
  /-- `isReservationCurrent` returns true. -/
  | current (reservation : TokenReservation ω)
  | consumed (token : String)
deriving DecidableEq

inductive QRLabel (ω α : Type) where
  /-- The clock goes on. -/
  | tick (ms : ℕ)
  | issue (token : String) (ttlMs : ℕ)
  | reserve (token : String) (ownerId : ω) (requestId : String)
  | commit (reservation : TokenReservation ω) (completion : α)
  | release (reservation : TokenReservation ω)
  | checkCurrent (reservation : TokenReservation ω)
  | consume (token : String)
  | clear

structure QRRun (ω α : Type) where
  now : ℕ
  qr : QRSession ω α

namespace QRRun

def initial : QRRun ω α := ⟨0, .initial⟩

variable [DecidableEq ω] [DecidableEq α]

/-- One call, with what it answers. -/
def move (s : QRRun ω α) : QRLabel ω α → QRRun ω α × List (QREvent ω α)
  | .tick ms => ({ s with now := s.now + ms }, [])
  | .issue token ttlMs =>
    ({ s with qr := s.qr.issueToken token s.now ttlMs }, [.issued token (s.now + ttlMs)])
  | .reserve token ownerId requestId =>
    match s.qr.reserveToken s.now token ownerId requestId with
    | (qr, .reserved reservation) => ({ s with qr }, [.granted reservation])
    | (qr, .committed completion) =>
      ({ s with qr }, [.replayed token ownerId requestId completion])
    | (qr, _) => ({ s with qr }, [])
  | .commit reservation completion =>
    match s.qr.commitToken s.now reservation completion with
    | some qr => ({ s with qr }, [.committed reservation completion s.now])
    | none => (s, [])
  | .release reservation =>
    ({ s with qr := s.qr.releaseToken reservation },
      if (s.qr.reservedBy reservation).isSome then [.released reservation] else [])
  | .checkCurrent reservation =>
    (s, if s.qr.isReservationCurrent s.now reservation then [.current reservation] else [])
  | .consume token =>
    match s.qr.consumeToken s.now token with
    | (qr, .ok) => ({ s with qr }, [.consumed token])
    | (qr, _) => ({ s with qr }, [])
  | .clear => ({ s with qr := s.qr.clear }, [.cleared])

/-- A call, and the log of what the calls have answered. -/
def step (s : QRRun ω α × List (QREvent ω α)) (label : QRLabel ω α) :
    QRRun ω α × List (QREvent ω α) :=
  ((s.1.move label).1, s.2 ++ (s.1.move label).2)

end QRRun

/-! ## What a log says -/

namespace QREvent

/-- The token that was active before is dropped. -/
def renews : QREvent ω α → Bool
  | .issued _ _ => true
  | .cleared => true
  | _ => false

def issuedStep (active : Option (String × ℕ)) : QREvent ω α → Option (String × ℕ)
  | .issued token expiresAt => some (token, expiresAt)
  | .cleared => none
  | _ => active

def sinceStep (since : List (QREvent ω α)) (event : QREvent ω α) : List (QREvent ω α) :=
  if event.renews then [] else since ++ [event]

end QREvent

/-- The active token and when it expires. -/
def issuedToken (log : List (QREvent ω α)) : Option (String × ℕ) :=
  log.foldl QREvent.issuedStep none

/-- What has happened since the active token was issued. -/
def sinceIssue (log : List (QREvent ω α)) : List (QREvent ω α) :=
  log.foldl QREvent.sinceStep []

/-- The token of the reservation has been replaced or cleared. -/
def Replaced (log : List (QREvent ω α)) (reservation : TokenReservation ω) : Prop :=
  ∃ before event after, log = before ++ event :: after ∧ event.renews = true ∧
    .granted reservation ∈ before

def Dead (log : List (QREvent ω α)) (reservation : TokenReservation ω) : Prop :=
  .released reservation ∈ log ∨ Replaced log reservation

/-- The reservation is one of the active token and may still be committed. -/
def Live (log : List (QREvent ω α)) (reservation : TokenReservation ω) : Prop :=
  ¬ Dead log reservation ∧ .granted reservation ∈ sinceIssue log ∧
    ∀ reservation' completion now, .committed reservation' completion now ∉ sinceIssue log

/-- What may happen after a log. -/
def Permitted (before : List (QREvent ω α)) : QREvent ω α → Prop
  | .granted reservation =>
    ¬ Dead before reservation ∧
      (∃ expiresAt, issuedToken before = some (reservation.token, expiresAt)) ∧
      (∀ other, .granted other ∈ sinceIssue before →
        other.ownerId = reservation.ownerId ∧ other.requestId = reservation.requestId) ∧
      (∀ other completion now, .committed other completion now ∉ sinceIssue before) ∧
      ∀ token, .consumed token ∉ sinceIssue before
  | .committed reservation _ now =>
    Live before reservation ∧
      ∃ expiresAt, issuedToken before = some (reservation.token, expiresAt) ∧ now ≤ expiresAt
  | .replayed token ownerId requestId completion =>
    ∃ reservation now, .committed reservation completion now ∈ sinceIssue before ∧
      reservation.token = token ∧ reservation.ownerId = ownerId ∧
      reservation.requestId = requestId
  | .released reservation => Live before reservation
  | .current reservation => Live before reservation
  | .consumed token =>
    (∀ reservation, .granted reservation ∉ sinceIssue before) ∧
      .consumed token ∉ sinceIssue before
  | _ => True

section Logs

variable {log : List (QREvent ω α)} {event : QREvent ω α} {reservation : TokenReservation ω}

theorem sinceIssue_snoc_of_renews (h : event.renews = true) :
    sinceIssue (log ++ [event]) = [] := by
  unfold sinceIssue
  rw [List.foldl_append, List.foldl_cons, List.foldl_nil]
  exact if_pos h

theorem mem_sinceIssue_snoc {other : QREvent ω α} (h : event.renews = false) :
    other ∈ sinceIssue (log ++ [event]) ↔ other ∈ sinceIssue log ∨ other = event := by
  unfold sinceIssue
  rw [List.foldl_append, List.foldl_cons, List.foldl_nil, QREvent.sinceStep, h,
    if_neg Bool.false_ne_true, List.mem_append, List.mem_singleton]

theorem issuedToken_snoc :
    issuedToken (log ++ [event]) = event.issuedStep (issuedToken log) := by
  unfold issuedToken
  rw [List.foldl_append, List.foldl_cons, List.foldl_nil]

theorem issuedToken_snoc_of_not_renews (h : event.renews = false) :
    issuedToken (log ++ [event]) = issuedToken log := by
  rw [issuedToken_snoc]
  cases event <;> first | rfl | cases h

theorem replaced_snoc : Replaced (log ++ [event]) reservation ↔
    Replaced log reservation ∨ (event.renews = true ∧ .granted reservation ∈ log) := by
  constructor
  · rintro ⟨before, other, after, heq, hrenews, hgranted⟩
    rcases List.eq_nil_or_concat after with rfl | ⟨rest, last, rfl⟩
    · obtain ⟨rfl, hlast⟩ := List.append_inj' heq rfl
      obtain rfl : event = other := by simpa using hlast
      exact Or.inr ⟨hrenews, hgranted⟩
    · rw [List.concat_eq_append, ← List.cons_append, ← List.append_assoc] at heq
      obtain ⟨rfl, -⟩ := List.append_inj' heq rfl
      exact Or.inl ⟨before, other, rest, rfl, hrenews, hgranted⟩
  · rintro (⟨before, other, after, rfl, hrenews, hgranted⟩ | ⟨hrenews, hgranted⟩)
    · exact ⟨before, other, after ++ [event], by simp, hrenews, hgranted⟩
    · exact ⟨log, event, [], rfl, hrenews, hgranted⟩

theorem mem_of_replaced (h : Replaced log reservation) : .granted reservation ∈ log := by
  obtain ⟨before, event, after, rfl, -, hgranted⟩ := h
  exact List.mem_append_left _ hgranted

end Logs

/-! ## What the session knows -/

/-- A token that nobody has reserved. -/
structure Unreserved (log : List (QREvent ω α)) (active : ActiveToken ω α) : Prop where
  ungranted : ∀ reservation, .granted reservation ∉ sinceIssue log
  uncommitted : ∀ reservation completion now,
    .committed reservation completion now ∉ sinceIssue log
  unconsumed : active.consumed = false → ∀ token, .consumed token ∉ sinceIssue log

/-- A token with a reservation. -/
structure Reserved (log : List (QREvent ω α)) (active : ActiveToken ω α)
    (state : ReservationState ω α) : Prop where
  granted : .granted state.reservation ∈ sinceIssue log
  token : state.reservation.token = active.token
  pair : ∀ other, .granted other ∈ sinceIssue log →
    other.ownerId = state.reservation.ownerId ∧ other.requestId = state.reservation.requestId
  kept : ¬ Replaced log state.reservation
  unconsumed : ∀ token, .consumed token ∉ sinceIssue log
  uncommitted : (∀ completion, state.status ≠ .committed completion) →
    ∀ other completion now, .committed other completion now ∉ sinceIssue log
  unreleased : state.status = .reserved → .released state.reservation ∉ log
  committed : ∀ completion, state.status = .committed completion →
    ∃ now, .committed state.reservation completion now ∈ sinceIssue log

structure QRRun.Inv (s : QRRun ω α) (log : List (QREvent ω α)) : Prop where
  issued : issuedToken log = s.qr.active.map fun active => (active.token, active.expiresAt)
  fresh : ∀ reservation, .granted reservation ∈ log → reservation.id < s.qr.nextReservation
  released : ∀ reservation, .released reservation ∈ log → .granted reservation ∈ log
  unreserved : ∀ active, s.qr.active = some active → active.reservation = none →
    Unreserved log active
  reserved : ∀ active state, s.qr.active = some active → active.reservation = some state →
    Reserved log active state

section Steps

variable {s : QRRun ω α} {log : List (QREvent ω α)}

theorem mem_of_mem_sinceIssue {event : QREvent ω α} (h : event ∈ sinceIssue log) :
    event ∈ log := by
  induction log using List.reverseRecOn with
  | nil => cases h
  | append_singleton log last ih =>
    cases hrenews : last.renews with
    | true =>
      rw [sinceIssue_snoc_of_renews hrenews] at h
      cases h
    | false =>
      rcases (mem_sinceIssue_snoc hrenews).mp h with h | rfl
      · exact List.mem_append_left _ (ih h)
      · exact List.mem_append_right _ List.mem_cons_self

/-- A token is issued or cleared. -/
theorem QRRun.Inv.renew (h : s.Inv log) {event : QREvent ω α} (hrenews : event.renews = true)
    {active : Option (ActiveToken ω α)}
    (hissued : event.issuedStep (issuedToken log) =
      active.map fun active => (active.token, active.expiresAt))
    (hnew : ∀ a ∈ active, a.reservation = none) :
    QRRun.Inv { s with qr := { s.qr with active } } (log ++ [event]) where
  issued := by rw [issuedToken_snoc, hissued]
  fresh reservation hgranted := by
    rcases List.mem_append.mp hgranted with hgranted | hgranted
    · exact h.fresh reservation hgranted
    · obtain rfl := List.mem_singleton.mp hgranted
      cases hrenews
  released reservation hreleased := by
    rcases List.mem_append.mp hreleased with hreleased | hreleased
    · exact List.mem_append_left _ (h.released reservation hreleased)
    · obtain rfl := List.mem_singleton.mp hreleased
      cases hrenews
  unreserved a _ _ := by
    rw [← List.nil_append [event]]
    constructor <;> simp [sinceIssue_snoc_of_renews hrenews]
  reserved a state hactive hstate := by
    rw [hnew a hactive] at hstate
    cases hstate

/-- The active token changes along with an event that does not renew it. -/
theorem QRRun.Inv.advance (h : s.Inv log) {event : QREvent ω α} (hrenews : event.renews = false)
    {active : ActiveToken ω α} (hactive : s.qr.active = some active) (active' : ActiveToken ω α)
    (htoken : active'.token = active.token) (hexpires : active'.expiresAt = active.expiresAt)
    {next : ℕ} (hnext : s.qr.nextReservation ≤ next)
    (hgranted : ∀ reservation, event = .granted reservation → reservation.id < next)
    (hreleased : ∀ reservation, event = .released reservation → .granted reservation ∈ log)
    (hunreserved : active'.reservation = none → Unreserved (log ++ [event]) active')
    (hreserved : ∀ state, active'.reservation = some state →
      Reserved (log ++ [event]) active' state) :
    QRRun.Inv { s with qr := ⟨some active', next⟩ } (log ++ [event]) where
  issued := by
    rw [issuedToken_snoc_of_not_renews hrenews, h.issued, hactive, Option.map_some,
      Option.map_some, htoken, hexpires]
  fresh reservation hmem := by
    rcases List.mem_append.mp hmem with hmem | hmem
    · exact Nat.lt_of_lt_of_le (h.fresh reservation hmem) hnext
    · exact hgranted reservation (List.mem_singleton.mp hmem).symm
  released reservation hmem := by
    rcases List.mem_append.mp hmem with hmem | hmem
    · exact List.mem_append_left _ (h.released reservation hmem)
    · exact List.mem_append_left _ (hreleased reservation (List.mem_singleton.mp hmem).symm)
  unreserved a ha hnone := by
    cases ha
    exact hunreserved hnone
  reserved a state ha hstate := by
    cases ha
    exact hreserved state hstate

/-- An answer that changes nothing. -/
def QREvent.answers : QREvent ω α → Bool
  | .replayed _ _ _ _ => true
  | .current _ => true
  | _ => false

theorem QRRun.Inv.answer (h : s.Inv log) {event : QREvent ω α} (hanswers : event.answers = true) :
    s.Inv (log ++ [event]) := by
  have hrenews : event.renews = false := by cases event <;> first | rfl | cases hanswers
  have hsince : ∀ other, other.answers = false →
      (other ∈ sinceIssue (log ++ [event]) ↔ other ∈ sinceIssue log) := by
    intro other hother
    rw [mem_sinceIssue_snoc hrenews, or_iff_left]
    rintro rfl
    cases hother.symm.trans hanswers
  have hlog : ∀ other, other.answers = false → (other ∈ log ++ [event] ↔ other ∈ log) := by
    intro other hother
    rw [List.mem_append, List.mem_singleton, or_iff_left]
    rintro rfl
    cases hother.symm.trans hanswers
  constructor
  · rw [issuedToken_snoc_of_not_renews hrenews, h.issued]
  · intro reservation hmem
    exact h.fresh reservation ((hlog _ rfl).mp hmem)
  · intro reservation hmem
    exact (hlog _ rfl).mpr (h.released reservation ((hlog _ rfl).mp hmem))
  · intro active hactive hnone
    obtain ⟨h1, h2, h3⟩ := h.unreserved active hactive hnone
    constructor
    · intro reservation
      rw [hsince _ rfl]
      exact h1 reservation
    · intro reservation completion now
      rw [hsince _ rfl]
      exact h2 reservation completion now
    · intro hconsumed token
      rw [hsince _ rfl]
      exact h3 hconsumed token
  · intro active state hactive hstate
    have hres := h.reserved active state hactive hstate
    constructor
    · exact (hsince _ rfl).mpr hres.granted
    · exact hres.token
    · intro other hmem
      exact hres.pair other ((hsince _ rfl).mp hmem)
    · rw [replaced_snoc, hrenews]
      simpa using hres.kept
    · intro token
      rw [hsince _ rfl]
      exact hres.unconsumed token
    · intro hstatus other completion now
      rw [hsince _ rfl]
      exact hres.uncommitted hstatus other completion now
    · intro hstatus
      rw [hlog _ rfl]
      exact hres.unreleased hstatus
    · intro completion hstatus
      obtain ⟨now, hmem⟩ := hres.committed completion hstatus
      exact ⟨now, (hsince _ rfl).mpr hmem⟩

/-- A reservation is granted: a new one, or the one that is held. -/
theorem QRRun.Inv.grant (h : s.Inv log) {active : ActiveToken ω α}
    {reservation : TokenReservation ω} {next : ℕ} (hactive : s.qr.active = some active)
    (hnext : s.qr.nextReservation ≤ next) (hid : reservation.id < next)
    (hlive : ¬ Dead log reservation) (htoken : reservation.token = active.token)
    (hpair : ∀ other, .granted other ∈ sinceIssue log →
      other.ownerId = reservation.ownerId ∧ other.requestId = reservation.requestId)
    (huncommitted : ∀ other completion now, .committed other completion now ∉ sinceIssue log)
    (hunconsumed : ∀ token, .consumed token ∉ sinceIssue log) :
    Permitted log (.granted reservation) ∧
      QRRun.Inv { s with
          qr := ⟨some { active with reservation := some ⟨reservation, .reserved⟩ }, next⟩ }
        (log ++ [.granted reservation]) := by
  constructor
  · refine ⟨hlive, ⟨active.expiresAt, ?_⟩, hpair, huncommitted, hunconsumed⟩
    rw [h.issued, hactive, Option.map_some, htoken]
  · refine h.advance rfl hactive { active with reservation := some ⟨reservation, .reserved⟩ }
      rfl rfl hnext (by rintro _ ⟨⟩; exact hid) (by rintro _ ⟨⟩)
      (by rintro ⟨⟩) ?_
    rintro state ⟨⟩
    constructor
    · exact (mem_sinceIssue_snoc rfl).mpr (Or.inr rfl)
    · exact htoken
    · intro other hmem
      rcases (mem_sinceIssue_snoc rfl).mp hmem with hmem | heq
      · exact hpair other hmem
      · cases heq
        exact ⟨rfl, rfl⟩
    · rw [replaced_snoc]
      rintro (hreplaced | ⟨hrenews, -⟩)
      · exact hlive (Or.inr hreplaced)
      · cases hrenews
    · intro token hmem
      rcases (mem_sinceIssue_snoc rfl).mp hmem with hmem | heq
      · exact hunconsumed token hmem
      · cases heq
    · intro _ other completion now hmem
      rcases (mem_sinceIssue_snoc rfl).mp hmem with hmem | heq
      · exact huncommitted other completion now hmem
      · cases heq
    · intro _ hmem
      rcases List.mem_append.mp hmem with hmem | hmem
      · exact hlive (Or.inl hmem)
      · simp at hmem
    · rintro completion ⟨⟩

/-- The reservation that is held is committed or released. -/
theorem QRRun.Inv.settle (h : s.Inv log) {active : ActiveToken ω α}
    {reservation : TokenReservation ω} (hactive : s.qr.active = some active)
    (hstate : active.reservation = some ⟨reservation, .reserved⟩) {event : QREvent ω α}
    {status : ReservationStatus α} (hsettles : event = .released reservation ∧ status = .released ∨
      ∃ completion now, event = .committed reservation completion now ∧
        status = .committed completion) :
    QRRun.Inv { s with
        qr := { s.qr with active := some { active with reservation := some ⟨reservation, status⟩ } } }
      (log ++ [event]) := by
  have hres := h.reserved active _ hactive hstate
  have hrenews : event.renews = false := by
    rcases hsettles with ⟨rfl, -⟩ | ⟨completion, now, rfl, -⟩ <;> rfl
  refine h.advance hrenews hactive { active with reservation := some ⟨reservation, status⟩ }
    rfl rfl (Nat.le_refl _) ?_ ?_ (by rintro ⟨⟩) ?_
  · rintro other rfl
    rcases hsettles with ⟨heq, -⟩ | ⟨completion, now, heq, -⟩ <;> cases heq
  · rintro other rfl
    rcases hsettles with ⟨heq, -⟩ | ⟨completion, now, heq, -⟩ <;> cases heq
    exact mem_of_mem_sinceIssue hres.granted
  · rintro state ⟨⟩
    constructor
    · exact (mem_sinceIssue_snoc hrenews).mpr (Or.inl hres.granted)
    · exact hres.token
    · intro other hmem
      rcases (mem_sinceIssue_snoc hrenews).mp hmem with hmem | rfl
      · exact hres.pair other hmem
      · rcases hsettles with ⟨heq, -⟩ | ⟨completion, now, heq, -⟩ <;> cases heq
    · rw [replaced_snoc, hrenews]
      simpa using hres.kept
    · intro token hmem
      rcases (mem_sinceIssue_snoc hrenews).mp hmem with hmem | rfl
      · exact hres.unconsumed token hmem
      · rcases hsettles with ⟨heq, -⟩ | ⟨completion, now, heq, -⟩ <;> cases heq
    · intro hstatus other completion now hmem
      rcases (mem_sinceIssue_snoc hrenews).mp hmem with hmem | rfl
      · exact hres.uncommitted (by simp) other completion now hmem
      · rcases hsettles with ⟨heq, -⟩ | ⟨completion', now', heq, rfl⟩
        · cases heq
        · exact hstatus completion' rfl
    · rintro rfl
      rcases hsettles with ⟨-, heq⟩ | ⟨completion, now, -, heq⟩ <;> cases heq
    · rintro completion rfl
      rcases hsettles with ⟨-, heq⟩ | ⟨completion', now, rfl, heq⟩
      · cases heq
      · cases heq
        exact ⟨now, (mem_sinceIssue_snoc rfl).mpr (Or.inr rfl)⟩

theorem QRRun.inv_initial : QRRun.Inv (.initial : QRRun ω α) [] where
  issued := rfl
  fresh _ hmem := by cases hmem
  released _ hmem := by cases hmem
  unreserved _ hactive := by cases hactive
  reserved _ _ hactive := by cases hactive

/-- A call whose answer is permitted and keeps the invariant. -/
def QRRun.Keeps (log : List (QREvent ω α)) (result : QRRun ω α × List (QREvent ω α)) : Prop :=
  Throughout (fun before => Permitted (log ++ before)) result.2 ∧ result.1.Inv (log ++ result.2)

theorem QRRun.Inv.keeps_nil (h : s.Inv log) : Keeps log (s, []) := by
  refine ⟨throughout_nil, ?_⟩
  rw [List.append_nil]
  exact h

theorem QRRun.keeps_singleton {event : QREvent ω α} (hpermitted : Permitted log event)
    (h : s.Inv (log ++ [event])) : Keeps log (s, [event]) := by
  refine ⟨throughout_singleton.mpr ?_, h⟩
  rw [List.append_nil]
  exact hpermitted

variable [DecidableEq ω] [DecidableEq α]

/-- What a reservation has that the session holds as reserved. -/
theorem QRSession.reservedBy_eq_some {qr : QRSession ω α} {reservation : TokenReservation ω}
    {active : ActiveToken ω α} : qr.reservedBy reservation = some active ↔
      qr.active = some active ∧ active.reservation = some ⟨reservation, .reserved⟩ := by
  unfold QRSession.reservedBy
  rw [Option.filter_eq_some_iff]
  simp

theorem QRRun.Inv.live (h : s.Inv log) {reservation : TokenReservation ω}
    {active : ActiveToken ω α} (hreserved : s.qr.reservedBy reservation = some active) :
    Live log reservation ∧ issuedToken log = some (reservation.token, active.expiresAt) := by
  obtain ⟨hactive, hstate⟩ := QRSession.reservedBy_eq_some.mp hreserved
  have hres := h.reserved active _ hactive hstate
  refine ⟨⟨?_, hres.granted, hres.uncommitted (by simp)⟩, ?_⟩
  · rintro (hreleased | hreplaced)
    · exact hres.unreleased rfl hreleased
    · exact hres.kept hreplaced
  · rw [h.issued, hactive, Option.map_some, hres.token]

theorem QRRun.Inv.keeps_reserve (h : s.Inv log) (token : String) (ownerId : ω)
    (requestId : String) : Keeps log (s.move (.reserve token ownerId requestId)) := by
  unfold QRRun.move QRSession.reserveToken
  cases hactive : s.qr.active with
  | none => exact h.keeps_nil
  | some active =>
    dsimp only
    by_cases htoken : active.token ≠ token
    · rw [if_pos htoken]
      exact h.keeps_nil
    · rw [if_neg htoken]
      obtain rfl := not_not.mp htoken
      -- a new reservation has a number that none in the log has
      have hfresh : ¬ Dead log (⟨s.qr.nextReservation, active.token, ownerId, requestId⟩ :
          TokenReservation ω) := by
        rintro (hreleased | hreplaced)
        · exact absurd (h.fresh _ (h.released _ hreleased)) (Nat.lt_irrefl _)
        · exact absurd (h.fresh _ (mem_of_replaced hreplaced)) (Nat.lt_irrefl _)
      cases hstate : active.reservation with
      | none =>
        have hun := h.unreserved active hactive hstate
        dsimp only
        by_cases hexpired : active.expiresAt < s.now
        · rw [if_pos hexpired]
          exact h.keeps_nil
        · rw [if_neg hexpired]
          by_cases hconsumed : active.consumed = true
          · rw [if_pos hconsumed]
            exact h.keeps_nil
          · rw [if_neg hconsumed]
            obtain ⟨hpermitted, hinv⟩ := h.grant hactive (Nat.le_succ _) (Nat.lt_succ_self _)
              hfresh rfl (fun other hmem => absurd hmem (hun.ungranted other)) hun.uncommitted
              (hun.unconsumed (Bool.not_eq_true _ ▸ hconsumed))
            exact keeps_singleton hpermitted hinv
      | some state =>
        have hres := h.reserved active state hactive hstate
        dsimp only
        by_cases hpair : state.reservation.ownerId ≠ ownerId ∨ state.reservation.requestId ≠ requestId
        · rw [if_pos hpair]
          exact h.keeps_nil
        · rw [if_neg hpair]
          simp only [not_or, not_not] at hpair
          obtain ⟨rfl, rfl⟩ := hpair
          cases hstatus : state.status with
          | committed completion =>
            obtain ⟨now, hcommitted⟩ := hres.committed completion hstatus
            exact keeps_singleton ⟨state.reservation, now, hcommitted, hres.token, rfl, rfl⟩
              (h.answer rfl)
          | reserved =>
            dsimp only
            by_cases hexpired : active.expiresAt < s.now
            · rw [if_pos hexpired]
              exact h.keeps_nil
            · rw [if_neg hexpired]
              by_cases hconsumed : active.consumed = true
              · rw [if_pos hconsumed]
                exact h.keeps_nil
              · rw [if_neg hconsumed]
                have hlive : ¬ Dead log state.reservation := by
                  rintro (hreleased | hreplaced)
                  · exact hres.unreleased hstatus hreleased
                  · exact hres.kept hreplaced
                obtain ⟨hpermitted, hinv⟩ := h.grant hactive (Nat.le_refl _)
                  (h.fresh _ (mem_of_mem_sinceIssue hres.granted)) hlive hres.token hres.pair
                  (hres.uncommitted (by simp [hstatus])) hres.unconsumed
                have hsame : { active with reservation := some ⟨state.reservation, .reserved⟩ } =
                    active := by
                  rw [← hstatus, ← hstate]
                rw [hsame, ← hactive] at hinv
                exact keeps_singleton hpermitted hinv
          | released =>
            dsimp only
            by_cases hexpired : active.expiresAt < s.now
            · rw [if_pos hexpired]
              exact h.keeps_nil
            · rw [if_neg hexpired]
              by_cases hconsumed : active.consumed = true
              · rw [if_pos hconsumed]
                exact h.keeps_nil
              · rw [if_neg hconsumed]
                obtain ⟨hpermitted, hinv⟩ := h.grant hactive (Nat.le_succ _) (Nat.lt_succ_self _)
                  hfresh rfl hres.pair (hres.uncommitted (by simp [hstatus])) hres.unconsumed
                exact keeps_singleton hpermitted hinv

theorem QRRun.Inv.keeps_commit (h : s.Inv log) (reservation : TokenReservation ω)
    (completion : α) : Keeps log (s.move (.commit reservation completion)) := by
  unfold QRRun.move QRSession.commitToken
  dsimp only
  cases hreserved : s.qr.reservedBy reservation with
  | none => exact h.keeps_nil
  | some active =>
    dsimp only
    by_cases hlate : active.token ≠ reservation.token ∨ active.expiresAt < s.now
    · rw [if_pos hlate]
      exact h.keeps_nil
    · rw [if_neg hlate]
      rw [not_or, Nat.not_lt] at hlate
      obtain ⟨hlive, hissued⟩ := h.live hreserved
      obtain ⟨hactive, hstate⟩ := QRSession.reservedBy_eq_some.mp hreserved
      exact keeps_singleton ⟨hlive, active.expiresAt, hissued, hlate.2⟩
        (h.settle hactive hstate (Or.inr ⟨completion, s.now, rfl, rfl⟩))

theorem QRRun.Inv.keeps_release (h : s.Inv log) (reservation : TokenReservation ω) :
    Keeps log (s.move (.release reservation)) := by
  unfold QRRun.move QRSession.releaseToken
  dsimp only
  cases hreserved : s.qr.reservedBy reservation with
  | none => exact h.keeps_nil
  | some active =>
    obtain ⟨hactive, hstate⟩ := QRSession.reservedBy_eq_some.mp hreserved
    exact keeps_singleton (h.live hreserved).1 (h.settle hactive hstate (Or.inl ⟨rfl, rfl⟩))

theorem QRRun.Inv.keeps_checkCurrent (h : s.Inv log) (reservation : TokenReservation ω) :
    Keeps log (s.move (.checkCurrent reservation)) := by
  unfold QRRun.move
  dsimp only
  by_cases hcurrent : s.qr.isReservationCurrent s.now reservation = true
  · rw [if_pos hcurrent]
    unfold QRSession.isReservationCurrent at hcurrent
    cases hreserved : s.qr.reservedBy reservation with
    | none =>
      rw [hreserved] at hcurrent
      cases hcurrent
    | some active => exact keeps_singleton (h.live hreserved).1 (h.answer rfl)
  · rw [if_neg hcurrent]
    exact h.keeps_nil

theorem QRRun.Inv.keeps_consume (h : s.Inv log) (token : String) :
    Keeps log (s.move (.consume token)) := by
  unfold QRRun.move QRSession.consumeToken
  dsimp only
  cases hactive : s.qr.active with
  | none => exact h.keeps_nil
  | some active =>
    dsimp only
    by_cases htoken : active.token ≠ token
    · rw [if_pos htoken]
      exact h.keeps_nil
    · rw [if_neg htoken]
      by_cases hused : (active.consumed || active.reservation.isSome) = true
      · rw [if_pos hused]
        exact h.keeps_nil
      · rw [if_neg hused]
        by_cases hexpired : active.expiresAt < s.now
        · rw [if_pos hexpired]
          exact h.keeps_nil
        · rw [if_neg hexpired]
          simp only [Bool.or_eq_true, not_or, Bool.not_eq_true, Option.isSome_eq_false_iff,
            Option.isNone_iff_eq_none] at hused
          have hun := h.unreserved active hactive hused.2
          refine keeps_singleton ⟨hun.ungranted, hun.unconsumed hused.1 token⟩ ?_
          refine h.advance rfl hactive { active with consumed := true } rfl rfl (Nat.le_refl _)
            (fun _ heq => by cases heq) (fun _ heq => by cases heq) (fun _ => ?_) ?_
          · refine ⟨?_, ?_, fun hconsumed => by cases hconsumed⟩
            · intro reservation hmem
              rcases (mem_sinceIssue_snoc rfl).mp hmem with hmem | heq
              · exact hun.ungranted reservation hmem
              · cases heq
            · intro reservation completion now hmem
              rcases (mem_sinceIssue_snoc rfl).mp hmem with hmem | heq
              · exact hun.uncommitted reservation completion now hmem
              · cases heq
          · intro state hstate
            rw [hused.2] at hstate
            cases hstate

/-- Every call answers what is permitted. -/
theorem QRRun.Inv.keeps (h : s.Inv log) (label : QRLabel ω α) : Keeps log (s.move label) := by
  cases label with
  | tick ms => exact QRRun.Inv.keeps_nil ⟨h.issued, h.fresh, h.released, h.unreserved, h.reserved⟩
  | issue token ttlMs =>
    exact keeps_singleton trivial (h.renew rfl rfl fun a ha => by cases ha; rfl)
  | reserve token ownerId requestId => exact h.keeps_reserve token ownerId requestId
  | commit reservation completion => exact h.keeps_commit reservation completion
  | release reservation => exact h.keeps_release reservation
  | checkCurrent reservation => exact h.keeps_checkCurrent reservation
  | consume token => exact h.keeps_consume token
  | clear => exact keeps_singleton trivial (h.renew rfl rfl fun a ha => by cases ha)

theorem QRRun.permitted_run (labels : List (QRLabel ω α)) {s : QRRun ω α × List (QREvent ω α)}
    (hinv : s.1.Inv s.2) (hthroughout : Throughout Permitted s.2) :
    Throughout Permitted (labels.foldl QRRun.step s).2 := by
  induction labels generalizing s with
  | nil => exact hthroughout
  | cons label labels ih =>
    obtain ⟨hpermitted, hinv⟩ := hinv.keeps label
    rw [List.foldl_cons]
    exact ih hinv (throughout_append.mpr ⟨hthroughout, hpermitted⟩)

/-- A QR token is granted to one owner and request and committed at most once, not after it has
    expired; its completion is returned only for that request; what is released or replaced
    stays dead. -/
theorem token_granted_once (labels : List (QRLabel ω α)) :
    Throughout Permitted (labels.foldl QRRun.step (.initial, [])).2 :=
  QRRun.permitted_run labels QRRun.inv_initial throughout_nil

end Steps

end RemotePi.Pairing
