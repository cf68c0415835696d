import GeonServer.RoomMembers
/-!
# PlayerIndex — which player a position of an `S_LOGIN` is

`Handle_C_LOGIN` lists in its answer the players it has just made and puts them behind the others in `_players`, and
`Handle_C_ENTER_GAME` takes the number it gets for a position in `_players`.  So the positions of the first answer are
those of `_players` and those of a later one are not (`selects_own_iff`).

A `PlayerRef` is named by the order of the session's calls of `make_shared<Player>`; the contents know players by their
values, of which each name has one (`Linked`).
-/
namespace Geon

open Function

/-! ## Players by name -/

/-- The `PlayerRef`s of a session: `_players`, `_currentPlayer`, those made since the last answer, and those made for
each answer. -/
structure PlayerRefs where
  made : Nat
  players : List Nat
  currentPlayer : Option Nat
  login : List Nat
  replies : List (List Nat)
  deriving DecidableEq, Repr

namespace PlayerRefs

def exec (refs : PlayerRefs) : GameOp → PlayerRefs
  | .newPlayer _ _ => { refs with
      made := refs.made + 1, players := refs.players ++ [refs.made], login := refs.login ++ [refs.made] }
  | .replyLogin _ => { refs with login := [], replies := refs.replies ++ [refs.login] }
  | .select index => { refs with currentPlayer := refs.players[index.toNat]? }
  | .clear => { refs with currentPlayer := none, players := [] }
  | .add | .remove | .leave | .enter | .replyEnterGame | .chat _ | .undefined => refs

/-- What the steps of a session leave. -/
def after (ops : List GameOp) : PlayerRefs := ops.foldl exec ⟨0, [], none, [], []⟩

end PlayerRefs

/-- The session's `C_LOGIN`s. -/
def numLogins (calls : List ClientPacketHandler.Call) : Nat :=
  calls.countP (fun
    | .Handle_C_LOGIN _ => true
    | _ => false)

/-! ## Names and values -/

/-- The session's fields are its `PlayerRef`s, each for its player. -/
structure Linked (s : GameState) (a : Nat) (refs : PlayerRefs) (player : Nat → Player Nat) : Prop where
  players : (s.game a).players = refs.players.map player
  currentPlayer : (s.game a).currentPlayer = refs.currentPlayer.map player
  players_lt : ∀ r ∈ refs.players, r < refs.made
  current_lt : ∀ r, refs.currentPlayer = some r → r < refs.made

/-- A `C_ENTER_GAME` with this index selects the player that was made for this position of the last `S_LOGIN`: the step
of the handler is the one on the `PlayerRef`s, and `_currentPlayer` is then the player of that name. -/
def SelectsOwn (s : GameState) (a : Nat) (refs : PlayerRefs) (index : UInt64) : Prop :=
  ∃ s' sent player, s.exec a (.select index) = some (s', sent) ∧ Linked s a refs player ∧
    Linked s' a (refs.exec (.select index)) player ∧
    (refs.exec (.select index)).currentPlayer = refs.replies.getLast?.bind (fun reply => reply[index.toNat]?)

variable {s s' : GameState} {a b : Nat} {op : GameOp} {refs : PlayerRefs} {player : Nat → Player Nat}
  {sent : Option (Nat × SendBufferRef)}

theorem Linked.same (h : Linked s a refs player) (hg : s'.game a = s.game a) : Linked s' a refs player :=
  ⟨hg ▸ h.players, hg ▸ h.currentPlayer, h.players_lt, h.current_lt⟩

/-- The handler's `_currentPlayer` is the player of the name selected. -/
theorem Linked.select (h : Linked s a refs player) {index : UInt64} (he : s.exec a (.select index) = some (s', sent)) :
    Linked s' a (refs.exec (.select index)) player := by
  simp only [GameState.exec] at he
  split at he <;> cases he
  rename_i p hp
  rw [h.players, List.getElem?_map] at hp
  refine ⟨?_, ?_, h.players_lt, fun r hr => h.players_lt r (List.mem_of_getElem? hr)⟩
  · simpa [GameState.setGame, PlayerRefs.exec] using h.players
  · simp [GameState.setGame, PlayerRefs.exec, hp]

/-- **The step lemma**: a step of the session is one on its `PlayerRef`s. -/
theorem Linked.step (h : Linked s a refs player) (he : s.exec a op = some (s', sent)) :
    ∃ player', Linked s' a (refs.exec op) player' := by
  cases op with
  | add | chat =>
    cases he
    exact ⟨player, h.same rfl⟩
  | remove =>
    cases he
    exact ⟨player, h.same rfl⟩
  | replyLogin =>
    cases he
    exact ⟨player, h.players, h.currentPlayer, h.players_lt, h.current_lt⟩
  | leave | enter | replyEnterGame =>
    simp only [GameState.exec] at he
    split at he <;> cases he
    all_goals exact ⟨player, h.same rfl⟩
  | clear =>
    cases he
    refine ⟨player, ?_, ?_, (fun r hr => by cases hr), fun r hr => by cases hr⟩ <;>
      simp [GameState.setGame, PlayerRefs.exec]
  | newPlayer name type =>
    cases he
    -- the new name gets the new value, and the others keep theirs
    have hnew : ∀ r, r < refs.made → update player refs.made ⟨s.idGenerator, name, type, a⟩ r = player r :=
      fun r hr => update_of_ne (Nat.ne_of_lt hr) _ _
    refine ⟨update player refs.made ⟨s.idGenerator, name, type, a⟩, ?_, ?_, fun r hr => ?_, fun r hr => ?_⟩
    · simp only [GameState.setGame, PlayerRefs.exec, update_self, List.map_append, List.map_cons, List.map_nil, h.players]
      rw [List.map_congr_left (fun r hr => hnew r (h.players_lt r hr))]
    · simp only [GameState.setGame, PlayerRefs.exec, update_self, h.currentPlayer]
      cases hc : refs.currentPlayer with
      | none => rfl
      | some r => rw [Option.map_some, Option.map_some, hnew r (h.current_lt r hc)]
    · rcases List.mem_append.1 hr with hr | hr
      · exact Nat.lt_succ_of_lt (h.players_lt r hr)
      · rw [List.mem_singleton.1 hr]
        exact Nat.lt_succ_self _
    · exact Nat.lt_succ_of_lt (h.current_lt r hr)
  | select index => exact ⟨player, h.select he⟩
  | undefined => cases he

/-- **The run lemma**: whatever the other sessions do in between. -/
theorem linked_run : ∀ (steps : List (Nat × GameOp)) {s : GameState} {refs : PlayerRefs} {player : Nat → Player Nat},
    Linked s a refs player → s.execAll steps = some s' →
      ∃ player', Linked s' a ((stepsOf a steps).foldl PlayerRefs.exec refs) player'
  | [], _, _, player, h, he => by
    cases he
    exact ⟨player, h⟩
  | (b, op) :: steps, s, refs, player, h, he => by
    obtain ⟨⟨s₁, sent⟩, h₁, he⟩ := Option.bind_eq_some_iff.1 he
    by_cases hb : b = a
    · rw [hb] at h₁
      obtain ⟨player₁, hlinked⟩ := h.step h₁
      have hsteps : stepsOf a ((b, op) :: steps) = op :: stepsOf a steps := by simp [stepsOf, hb]
      rw [hsteps, List.foldl_cons]
      exact linked_run steps hlinked he
    · have hsteps : stepsOf a ((b, op) :: steps) = stepsOf a steps := by simp [stepsOf, hb]
      rw [hsteps]
      exact linked_run steps (h.same ((GameState.exec_effect h₁).game_of_ne (Ne.symm hb))) he

theorem linked_after {steps : List (Nat × GameOp)} (h : gameState₀.execAll steps = some s) (a : Nat) :
    ∃ player, Linked s a (.after (stepsOf a steps)) player :=
  have hstart : Linked gameState₀ a ⟨0, [], none, [], []⟩ (fun _ => ⟨0, [], 0, a⟩) :=
    ⟨rfl, rfl, (fun _ hr => by cases hr), fun _ hr => by cases hr⟩
  linked_run steps hstart h

/-! ## The names after some packets -/

/-- After `n` logins: two players each, and the last answer is for the last two. -/
structure LoggedIn (n : Nat) (refs : PlayerRefs) : Prop where
  made : refs.made = 2 * n
  players : refs.players = List.range (2 * n)
  login : refs.login = []
  reply : 0 < n → refs.replies.getLast? = some [2 * (n - 1), 2 * (n - 1) + 1]

theorem LoggedIn.handler {n : Nat} (h : LoggedIn n refs) (call : ClientPacketHandler.Call) :
    LoggedIn (n + numLogins [call]) (call.handler.foldl PlayerRefs.exec refs) := by
  cases call with
  | Handle_C_LOGIN pkt =>
    refine ⟨?_, ?_, ?_, fun _ => ?_⟩
    · show refs.made + 1 + 1 = 2 * (n + 1)
      rw [h.made]
      omega
    · show (refs.players ++ [refs.made]) ++ [refs.made + 1] = List.range (2 * (n + 1))
      rw [h.players, h.made, Nat.mul_succ, List.range_succ, List.range_succ]
    · rfl
    · show (refs.replies ++ [(refs.login ++ [refs.made]) ++ [refs.made + 1]]).getLast? = _
      rw [List.getLast?_append, h.login, h.made]
      rfl
  | Handle_INVALID => exact ⟨h.made, h.players, h.login, h.reply⟩
  | Handle_C_ENTER_GAME pkt => exact ⟨h.made, h.players, h.login, h.reply⟩
  | Handle_C_CHAT pkt => exact ⟨h.made, h.players, h.login, h.reply⟩

theorem LoggedIn.packets : ∀ (calls : List ClientPacketHandler.Call) {n : Nat} {refs : PlayerRefs}, LoggedIn n refs →
    LoggedIn (n + numLogins calls) ((handled calls).foldl PlayerRefs.exec refs)
  | [], _, _, h => h
  | call :: calls, n, refs, h => by
    have hcount : numLogins (call :: calls) = numLogins [call] + numLogins calls := by
      unfold numLogins
      rw [← List.countP_append, List.singleton_append]
    have hsteps : handled (call :: calls) = call.handler ++ handled calls := List.flatMap_cons
    rw [hcount, ← Nat.add_assoc, hsteps, List.foldl_append]
    exact LoggedIn.packets calls (h.handler call)

theorem loggedIn_after (calls : List ClientPacketHandler.Call) :
    LoggedIn (numLogins calls) (.after (GameSession.onConnected ++ handled calls)) := by
  have hstart : LoggedIn 0 (GameSession.onConnected.foldl PlayerRefs.exec ⟨0, [], none, [], []⟩) :=
    ⟨rfl, rfl, rfl, fun h => absurd h (Nat.lt_irrefl 0)⟩
  have hend := LoggedIn.packets calls hstart
  rw [Nat.zero_add, ← List.foldl_append] at hend
  exact hend

/-- **Client and server agree on the first answer only**: after any packets of a session, a `C_LOGIN` among them, and
whatever the other sessions do in between, a `C_ENTER_GAME` selects the player made for that position of the last answer
if and only if it is the session's first. -/
theorem selects_own_iff {steps : List (Nat × GameOp)} {calls : List ClientPacketHandler.Call} {index : UInt64}
    (h : gameState₀.execAll steps = some s) (hcalls : stepsOf a steps = GameSession.onConnected ++ handled calls)
    (hlogin : 0 < numLogins calls) (hindex : index.toNat < loginPlayers.length) :
    SelectsOwn s a (.after (stepsOf a steps)) index ↔ numLogins calls = 1 := by
  obtain ⟨player, hlinked⟩ := linked_after h a
  have hlogged := loggedIn_after calls
  rw [← hcalls] at hlogged
  have hlen : loginPlayers.length = 2 := rfl
  have hmem : (PlayerRefs.after (stepsOf a steps)).players[index.toNat]? = some index.toNat := by
    rw [hlogged.players, List.getElem?_range (by omega)]
  obtain ⟨⟨s', sent⟩, he⟩ : ∃ r, s.exec a (.select index) = some r := Option.isSome_iff_exists.1 (by
    simp only [GameState.exec, hlinked.players, List.getElem?_map, hmem, Option.map_some, Option.isSome_some])
  have hreply : ([2 * (numLogins calls - 1), 2 * (numLogins calls - 1) + 1] : List Nat)[index.toNat]? =
      some (2 * (numLogins calls - 1) + index.toNat) := by
    rcases Nat.lt_or_ge index.toNat 1 with hzero | hone
    · obtain h0 : index.toNat = 0 := by omega
      rw [h0]
      rfl
    · obtain h1 : index.toNat = 1 := by omega
      rw [h1]
      rfl
  -- the name selected is the index, the name made for the position is behind those of the earlier answers
  have hnames : ((PlayerRefs.after (stepsOf a steps)).exec (.select index)).currentPlayer =
      (PlayerRefs.after (stepsOf a steps)).replies.getLast?.bind (fun reply => reply[index.toNat]?) ↔
        numLogins calls = 1 := by
    rw [hlogged.reply hlogin, Option.bind_some, hreply]
    simp only [PlayerRefs.exec, hmem, Option.some.injEq]
    omega
  constructor
  · rintro ⟨_, _, _, -, -, -, hown⟩
    exact hnames.1 hown
  · exact fun hone => ⟨s', sent, player, he, hlinked, hlinked.select he, hnames.2 hone⟩

/-- The first login, and another session's at the same time. -/
theorem selects_own_iff_first : ∃ s, gameState₀.execAll (alone 1 GameSession.onConnected ++
      alone 0 (GameSession.onConnected ++ handled [.Handle_C_LOGIN ⟨⟩])) = some s ∧
    SelectsOwn s 0 (.after (GameSession.onConnected ++ handled [.Handle_C_LOGIN ⟨⟩])) 1 := by
  obtain ⟨s, hs⟩ : ∃ s, gameState₀.execAll (alone 1 GameSession.onConnected ++
      alone 0 (GameSession.onConnected ++ handled [.Handle_C_LOGIN ⟨⟩])) = some s := ⟨_, rfl⟩
  have hcalls : stepsOf 0 (alone 1 GameSession.onConnected ++
      alone 0 (GameSession.onConnected ++ handled [.Handle_C_LOGIN ⟨⟩])) =
      GameSession.onConnected ++ handled [.Handle_C_LOGIN ⟨⟩] := rfl
  exact ⟨s, hs, (selects_own_iff hs hcalls (by decide) (by decide)).2 rfl⟩

/-- **The second login**: its first player is not the one that index 0 selects. -/
theorem second_login_other : ∃ s, gameState₀.execAll (alone 0 (GameSession.onConnected ++
      handled [.Handle_C_LOGIN ⟨⟩, .Handle_C_LOGIN ⟨⟩])) = some s ∧
    ¬ SelectsOwn s 0 (.after (GameSession.onConnected ++ handled [.Handle_C_LOGIN ⟨⟩, .Handle_C_LOGIN ⟨⟩])) 0 := by
  refine ⟨_, rfl, ?_⟩
  rintro ⟨_, _, _, -, -, -, hnames⟩
  revert hnames
  decide

end Geon
