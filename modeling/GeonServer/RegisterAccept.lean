import GeonServer.Winsock
/-!
# RegisterAccept — the accepts of one event

`Listener::RegisterAccept` of ServerCore/Listener.cpp makes a session, hands it to `AcceptEx`, and calls itself when
`AcceptEx` fails.  What ends it is a round whose `AcceptEx` is posted; and a session that `CreateSession` could not
register is a null pointer, which it goes on to use (`accepts_iff`).

`StartAccept` makes the event and the first call; every completion of the event leads `ProcessAccept` to one more, on
each of its three ways out.
-/
namespace Geon
namespace Listener

/-- What a round of `RegisterAccept` is answered: whether `IocpCore::Register` takes the new session, and what
`AcceptEx` returns. -/
structure AcceptRound where
  registered : Bool
  acceptEx : WsaResult

/-- `AcceptEvent`: the session in it, `none` when it is null, and how many accepts are under way with it. -/
structure AcceptEvent where
  session : Option Nat
  outstanding : Nat

def acceptEvent₀ : AcceptEvent := ⟨none, 0⟩

/-- A completion of the event has been taken from the port. -/
def AcceptEvent.completed (acceptEvent : AcceptEvent) : AcceptEvent :=
  { acceptEvent with outstanding := acceptEvent.outstanding - 1 }

inductive AcceptEnd
  | returned (acceptEvent : AcceptEvent)
  /-- A null session has been used. -/
  | nullSession

/-! ## The code -/

/-- `Service::CreateSession`: the session, which is the `k`-th to be made, or null. -/
def createSession (k : Nat) (registered : Bool) : Option Nat := if registered = false then none else some k

/-- `RegisterAccept`, from the `k`-th round on; `none` when the fuel runs out. -/
def registerAccept (rounds : Nat → AcceptRound) : Nat → Nat → AcceptEvent → Option AcceptEnd
  | 0, _, _ => none
  | fuel + 1, k, acceptEvent =>
    let session := createSession k (rounds k).registered
    -- the arguments of `AcceptEx` need the session's socket and buffer
    if session = none then some .nullSession
    else if (rounds k).acceptEx.failed = none then some (.returned ⟨session, acceptEvent.outstanding + 1⟩)
    else registerAccept rounds fuel (k + 1) ⟨session, acceptEvent.outstanding⟩

def AcceptEnd.andThen : AcceptEnd → (AcceptEvent → Option AcceptEnd) → Option AcceptEnd
  | .returned acceptEvent, next => next acceptEvent
  | .nullSession, _ => some .nullSession

/-- The calls for one event, the first being that of `StartAccept` and each other one that of `ProcessAccept` at a
completion. -/
def acceptCalls (fuel : Nat) (first : Nat → AcceptRound) : List (Nat → AcceptRound) → AcceptEvent → Option AcceptEnd
  | [], acceptEvent => registerAccept first fuel 0 acceptEvent
  | rounds :: calls, acceptEvent =>
    (registerAccept first fuel 0 acceptEvent).bind
      (fun e => e.andThen (fun acceptEvent => acceptCalls fuel rounds calls acceptEvent.completed))

/-! ## When it returns -/

/-- A round posts its `AcceptEx`, and up to that round all sessions are registered. -/
def Posts (rounds : Nat → AcceptRound) : Prop :=
  ∃ n, (rounds n).acceptEx.failed = none ∧ ∀ i, i ≤ n → (rounds i).registered = true

/-- The calls return, with at most one accept under way. -/
def Accepts (first : Nat → AcceptRound) (calls : List (Nat → AcceptRound)) : Prop :=
  ∃ fuel acceptEvent, acceptCalls fuel first calls acceptEvent₀ = some (.returned acceptEvent) ∧
    acceptEvent.outstanding ≤ 1

variable {rounds first : Nat → AcceptRound} {calls : List (Nat → AcceptRound)} {fuel k : Nat}
  {acceptEvent acceptEvent' : AcceptEvent} {e : AcceptEnd}

theorem createSession_none {registered : Bool} : createSession k registered = none ↔ registered = false := by
  unfold createSession
  cases registered <;> simp

/-- A call gets no further than a round that posts its accept. -/
theorem registerAccept_posted : ∀ (n k : Nat) (acceptEvent : AcceptEvent),
    (rounds (k + n)).acceptEx.failed = none → (∀ i, i ≤ n → (rounds (k + i)).registered = true) → ∀ fuel, n < fuel →
    ∃ session, registerAccept rounds fuel k acceptEvent = some (.returned ⟨session, acceptEvent.outstanding + 1⟩)
  | n, k, acceptEvent, hposted, hregistered, fuel, hfuel => by
    obtain ⟨fuel, rfl⟩ := Nat.exists_eq_add_one_of_ne_zero (Nat.ne_zero_of_lt hfuel)
    have hsession : createSession k (rounds k).registered ≠ none := by
      intro hnone
      have htrue : (rounds k).registered = true := hregistered 0 (Nat.zero_le n)
      rw [createSession_none, htrue] at hnone
      cases hnone
    unfold registerAccept
    dsimp only
    rw [if_neg hsession]
    by_cases hnow : (rounds k).acceptEx.failed = none
    · rw [if_pos hnow]
      exact ⟨_, rfl⟩
    · rw [if_neg hnow]
      cases n with
      | zero => exact absurd hposted hnow
      | succ n =>
        have hshift : ∀ i, k + 1 + i = k + (i + 1) := fun i => by omega
        apply registerAccept_posted n (k + 1)
        · rw [hshift]
          exact hposted
        · intro i hi
          rw [hshift]
          exact hregistered (i + 1) (Nat.succ_le_succ hi)
        · exact Nat.lt_of_succ_lt_succ hfuel

theorem Posts.registerAccept (h : Posts rounds) : ∃ fuel₀, ∀ fuel, fuel₀ ≤ fuel → ∀ acceptEvent, ∃ session,
    registerAccept rounds fuel 0 acceptEvent = some (.returned ⟨session, acceptEvent.outstanding + 1⟩) := by
  obtain ⟨n, hposted, hregistered⟩ := h
  refine ⟨n + 1, fun fuel hfuel acceptEvent => ?_⟩
  apply registerAccept_posted n 0 acceptEvent
  · rw [Nat.zero_add]
    exact hposted
  · intro i hi
    rw [Nat.zero_add]
    exact hregistered i hi
  · exact hfuel

/-- What a call that returns has gone through. -/
theorem registerAccept_returned : ∀ (fuel k : Nat) (acceptEvent acceptEvent' : AcceptEvent),
    registerAccept rounds fuel k acceptEvent = some (.returned acceptEvent') →
    ∃ n, (rounds (k + n)).acceptEx.failed = none ∧ ∀ i, i ≤ n → (rounds (k + i)).registered = true
  | 0, k, acceptEvent, acceptEvent', h => by cases h
  | fuel + 1, k, acceptEvent, acceptEvent', h => by
    unfold registerAccept at h
    dsimp only at h
    by_cases hsession : createSession k (rounds k).registered = none
    · rw [if_pos hsession] at h
      cases h
    · rw [if_neg hsession] at h
      have hregistered : (rounds k).registered = true := by
        rw [createSession_none, Bool.not_eq_false] at hsession
        exact hsession
      by_cases hposted : (rounds k).acceptEx.failed = none
      · refine ⟨0, hposted, fun i hi => ?_⟩
        obtain rfl := Nat.le_zero.1 hi
        exact hregistered
      · rw [if_neg hposted] at h
        obtain ⟨n, hn, hlater⟩ := registerAccept_returned fuel (k + 1) _ _ h
        have hshift : ∀ i, k + (i + 1) = k + 1 + i := fun i => by omega
        refine ⟨n + 1, ?_, fun i hi => ?_⟩
        · rw [hshift]
          exact hn
        · cases i with
          | zero => exact hregistered
          | succ i =>
            rw [hshift]
            exact hlater i (Nat.le_of_succ_le_succ hi)

theorem Posts.of_returned (h : Listener.registerAccept rounds fuel 0 acceptEvent = some (.returned acceptEvent')) :
    Posts rounds := by
  obtain ⟨n, hposted, hregistered⟩ := registerAccept_returned fuel 0 acceptEvent acceptEvent' h
  rw [Nat.zero_add] at hposted
  refine ⟨n, hposted, fun i hi => ?_⟩
  have := hregistered i hi
  rwa [Nat.zero_add] at this

theorem acceptCalls_posts : ∀ (calls : List (Nat → AcceptRound)) (first : Nat → AcceptRound),
    (∀ rounds ∈ first :: calls, Posts rounds) → ∃ fuel₀, ∀ fuel, fuel₀ ≤ fuel → ∀ acceptEvent : AcceptEvent,
      acceptEvent.outstanding = 0 → ∃ session, acceptCalls fuel first calls acceptEvent = some (.returned ⟨session, 1⟩)
  | [], first, h => by
    obtain ⟨fuel₀, hcall⟩ := (h first (List.mem_singleton_self first)).registerAccept
    refine ⟨fuel₀, fun fuel hfuel acceptEvent hzero => ?_⟩
    obtain ⟨session, hreturned⟩ := hcall fuel hfuel acceptEvent
    refine ⟨session, ?_⟩
    unfold acceptCalls
    rw [hreturned, hzero]
  | rounds :: calls, first, h => by
    obtain ⟨fuel₁, hcall⟩ := (h first List.mem_cons_self).registerAccept
    obtain ⟨fuel₂, hcalls⟩ := acceptCalls_posts calls rounds (fun r hr => h r (List.mem_cons_of_mem first hr))
    refine ⟨max fuel₁ fuel₂, fun fuel hfuel acceptEvent hzero => ?_⟩
    obtain ⟨session, hreturned⟩ := hcall fuel (Nat.le_trans (Nat.le_max_left _ _) hfuel) acceptEvent
    unfold acceptCalls
    rw [hreturned, hzero, Option.bind_some]
    exact hcalls fuel (Nat.le_trans (Nat.le_max_right _ _) hfuel) _ rfl

theorem posts_of_acceptCalls : ∀ (calls : List (Nat → AcceptRound)) (first : Nat → AcceptRound)
    (acceptEvent acceptEvent' : AcceptEvent), acceptCalls fuel first calls acceptEvent = some (.returned acceptEvent') →
    ∀ rounds ∈ first :: calls, Posts rounds
  | [], first, acceptEvent, acceptEvent', h, rounds, hr => by
    obtain rfl := List.mem_singleton.1 hr
    exact .of_returned h
  | next :: calls, first, acceptEvent, acceptEvent', h, rounds, hr => by
    unfold acceptCalls at h
    obtain ⟨e, hcall, hnext⟩ := Option.bind_eq_some_iff.1 h
    cases e with
    | nullSession => cases hnext
    | returned event =>
      rcases List.mem_cons.1 hr with rfl | hr
      · exact .of_returned hcall
      · exact posts_of_acceptCalls calls next _ acceptEvent' hnext rounds hr

/-- **When accepting goes on**: the calls of `RegisterAccept` for an event return, without having used a null session
and with at most one accept under way, exactly if in each call some `AcceptEx` is posted and no session up to it fails
to register. -/
theorem accepts_iff (first : Nat → AcceptRound) (calls : List (Nat → AcceptRound)) :
    Accepts first calls ↔ ∀ rounds ∈ first :: calls, Posts rounds := by
  constructor
  · rintro ⟨fuel, acceptEvent, hcalls, -⟩
    exact posts_of_acceptCalls calls first _ _ hcalls
  · intro h
    obtain ⟨fuel, hcalls⟩ := acceptCalls_posts calls first h
    obtain ⟨session, hreturned⟩ := hcalls fuel (Nat.le_refl fuel) acceptEvent₀ rfl
    exact ⟨fuel, _, hreturned, Nat.le_refl 1⟩

def WSAENOTSOCK : Nat := 10038

/-- What the calls are answered after `CloseSocket`. -/
def socketClosed (_ : Nat) : AcceptRound := ⟨true, .socketError WSAENOTSOCK⟩

theorem registerAccept_closed : ∀ (fuel k : Nat) (acceptEvent : AcceptEvent),
    registerAccept socketClosed fuel k acceptEvent = none
  | 0, _, _ => by
    unfold registerAccept
    rfl
  | fuel + 1, k, acceptEvent => by
    unfold registerAccept
    exact registerAccept_closed fuel (k + 1) _

/-- **A closed listener never stops registering**, and a session that was not registered is used all the same. -/
theorem closed_never_returns : (¬ ∀ first calls, Accepts first calls) ∧
    (∀ fuel, acceptCalls fuel socketClosed [] acceptEvent₀ = none) ∧
    acceptCalls 1 (fun _ => ⟨false, .success⟩) [] acceptEvent₀ = some .nullSession := by
  refine ⟨fun h => ?_, fun fuel => registerAccept_closed fuel 0 _, rfl⟩
  obtain ⟨fuel, acceptEvent, hreturned, -⟩ := h socketClosed []
  have hnone : acceptCalls fuel socketClosed [] acceptEvent₀ = none := registerAccept_closed fuel 0 _
  rw [hnone] at hreturned
  cases hreturned

end Listener
end Geon
