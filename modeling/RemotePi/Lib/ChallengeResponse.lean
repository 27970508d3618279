import RemotePi.Lib.Trace

/-!
# Challenge and response

A verifier sends a nonce on each connection and accepts a key on it when it is shown a
signature of the nonce; holders of keys sign nonces in their sessions. The log says what
happened, and `Rule` what each event presupposes: nonces are fresh, an accepted signature
under a kept key was made by its holder, and some sessions sign no more than once.

Results:
* `answered_of_accepted`: what is accepted under a kept key was challenged, then signed by
  the holder of the key, then accepted.
* `Answered.nonce_ne`, `Answered.session_ne`: different connections are answered by different
  signatures, and by different sessions where a session signs once.
-/

namespace RemotePi.Lib.ChallengeResponse

variable {χ σ κ ν : Type*}

/-- An event over connections `χ`, sessions `σ`, keys `κ` and nonces `ν`. -/
inductive Event (χ σ κ ν : Type*) where
  | challenged (connection : χ) (nonce : ν)
  | signed (session : σ) (key : κ) (nonce : ν)
  | accepted (connection : χ) (key : κ)
deriving DecidableEq, Repr

/-- The nonce that an event mentions. -/
def Event.nonce? : Event χ σ κ ν → Option ν
  | .challenged _ nonce => some nonce
  | .signed _ _ nonce => some nonce
  | .accepted _ _ => none

/-- What an event presupposes of the events before it, for kept keys and sessions that sign
    at most once. -/
def Rule (kept : κ → Prop) (once : σ → Prop) (before : List (Event χ σ κ ν)) :
    Event χ σ κ ν → Prop
  | .challenged _ nonce => ∀ event ∈ before, event.nonce? ≠ some nonce
  | .signed session _ _ => once session → ∀ key nonce, .signed session key nonce ∉ before
  | .accepted connection key => ∃ nonce, .challenged connection nonce ∈ before ∧
      (kept key → ∃ session, .signed session key nonce ∈ before)

/-- The connection was challenged with the nonce, which the session then signed under the key
    that was accepted after it. -/
def Answered (log : List (Event χ σ κ ν)) (connection : χ) (key : κ) (nonce : ν)
    (session : σ) : Prop :=
  ∃ first second third last, log = first ++ .challenged connection nonce :: second ++
    .signed session key nonce :: third ++ .accepted connection key :: last

section Answered

variable {log : List (Event χ σ κ ν)} {connection connection' : χ} {key key' : κ} {nonce nonce' : ν}
  {session session' : σ}

theorem Answered.challenged_mem (h : Answered log connection key nonce session) :
    .challenged connection nonce ∈ log := by
  obtain ⟨first, second, third, last, rfl⟩ := h
  simp

theorem Answered.signed_mem (h : Answered log connection key nonce session) :
    .signed session key nonce ∈ log := by
  obtain ⟨first, second, third, last, rfl⟩ := h
  simp

variable {kept : κ → Prop} {once : σ → Prop}

/-- What is accepted under a kept key answers the challenge of its own connection. -/
theorem answered_of_accepted (h : Throughout (Rule kept once) log)
    (hmem : .accepted connection key ∈ log) (hkept : kept key) :
    ∃ nonce session, Answered log connection key nonce session := by
  obtain ⟨before, last, rfl⟩ := List.append_of_mem hmem
  obtain ⟨nonce, hchallenged, hsigned⟩ := h before _ last rfl
  obtain ⟨session, hsigned⟩ := hsigned hkept
  obtain ⟨earlier, third, rfl⟩ := List.append_of_mem hsigned
  have hearlier : .challenged connection nonce ∈ earlier := by
    rcases List.mem_append.mp hchallenged with hearlier | hlater
    · exact hearlier
    -- A challenge after the signature would repeat its nonce.
    · have hthird : .challenged connection nonce ∈ third := by simpa using hlater
      obtain ⟨left, right, rfl⟩ := List.append_of_mem hthird
      have hfresh := h (earlier ++ .signed session key nonce :: left)
        (.challenged connection nonce) (right ++ .accepted connection key :: last) (by simp)
      exact absurd rfl (hfresh (.signed session key nonce) (by simp))
  obtain ⟨first, second, rfl⟩ := List.append_of_mem hearlier
  exact ⟨nonce, session, first, second, third, last, by simp⟩

/-- Of two events of a log, one comes before the other. -/
theorem split_two {α : Type*} {log : List α} {event event' : α} (h : event ∈ log)
    (h' : event' ∈ log) (hne : event ≠ event') :
    (∃ first second last, log = first ++ event :: second ++ event' :: last) ∨
      ∃ first second last, log = first ++ event' :: second ++ event :: last := by
  obtain ⟨before, after, rfl⟩ := List.append_of_mem h
  rcases List.mem_append.mp h' with hbefore | hafter
  · obtain ⟨first, second, rfl⟩ := List.append_of_mem hbefore
    exact Or.inr ⟨first, second, after, rfl⟩
  · rcases List.mem_cons.mp hafter with heq | hafter
    · exact absurd heq.symm hne
    · obtain ⟨second, last, rfl⟩ := List.append_of_mem hafter
      exact Or.inl ⟨before, second, last, by simp⟩

/-- A nonce is sent on one connection only. -/
theorem connection_unique (h : Throughout (Rule kept once) log)
    (hmem : .challenged connection nonce ∈ log) (hmem' : .challenged connection' nonce ∈ log) :
    connection = connection' := by
  by_contra hne
  have hevents : (.challenged connection nonce : Event χ σ κ ν) ≠ .challenged connection' nonce :=
    fun heq => hne (Event.challenged.inj heq).1
  rcases split_two hmem hmem' hevents with ⟨first, second, last, rfl⟩ | ⟨first, second, last, rfl⟩
  · exact h _ _ last rfl (.challenged connection nonce) (by simp) rfl
  · exact h _ _ last rfl (.challenged connection' nonce) (by simp) rfl

/-- A session that signs at most once has signed one nonce. -/
theorem nonce_unique (h : Throughout (Rule kept once) log) (honce : once session)
    (hmem : .signed session key nonce ∈ log) (hmem' : .signed session key' nonce' ∈ log) :
    nonce = nonce' := by
  by_contra hne
  have hevents : (.signed session key nonce : Event χ σ κ ν) ≠ .signed session key' nonce' :=
    fun heq => hne (Event.signed.inj heq).2.2
  rcases split_two hmem hmem' hevents with ⟨first, second, last, rfl⟩ | ⟨first, second, last, rfl⟩
  · exact h _ _ last rfl honce key nonce (by simp)
  · exact h _ _ last rfl honce key' nonce' (by simp)

/-- Different connections are answered by signatures of different nonces. -/
theorem Answered.nonce_ne (h : Throughout (Rule kept once) log)
    (hanswered : Answered log connection key nonce session)
    (hanswered' : Answered log connection' key' nonce' session') (hne : connection ≠ connection') :
    nonce ≠ nonce' := by
  rintro rfl
  exact hne (connection_unique h hanswered.challenged_mem hanswered'.challenged_mem)

/-- They are answered by different sessions where a session signs at most once. -/
theorem Answered.session_ne (h : Throughout (Rule kept once) log)
    (hanswered : Answered log connection key nonce session)
    (hanswered' : Answered log connection' key' nonce' session') (hne : connection ≠ connection')
    (honce : once session) : session ≠ session' := by
  rintro rfl
  exact hanswered.nonce_ne h hanswered' hne
    (nonce_unique h honce hanswered.signed_mem hanswered'.signed_mem)

end Answered

end RemotePi.Lib.ChallengeResponse
