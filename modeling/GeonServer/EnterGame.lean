import GeonServer.GameContents
import GeonServer.WireRoundTrip
/-!
# EnterGame — the player a client asks for

`Handle_C_ENTER_GAME` indexes `_players` with a number out of the packet and does not look at it first.  There are two
players for each `C_LOGIN` since the session was last disconnected (`length_players`), so the handler does what it
should for a number below that, and reads out of range for every other one (`enter_game_ok_iff`).
-/
namespace Geon

/-! ## Calls one after another -/

/-- The steps of a program for session `a` with nothing in between, and the sends; `none` when one of them is
undefined. -/
def GameState.runOps : GameState → Nat → List GameOp → Option (GameState × List (Nat × SendBufferRef))
  | s, _, [] => some (s, [])
  | s, a, op :: ops =>
    (s.exec a op).bind (fun r => (r.1.runOps a ops).map (fun r' => (r'.1, r.2.toList ++ r'.2)))

/-- A call of a virtual function of `GameSession`. -/
inductive GameCall
  | onConnected
  | onRecvPacket (buffer : List BYTE) (len : Nat)
  | onDisconnected

variable (pb : Protobuf)

def GameCall.ops : GameCall → List GameOp
  | .onConnected => GameSession.onConnected
  | .onRecvPacket buffer len => GameSession.onRecvPacket pb buffer len
  | .onDisconnected => GameSession.onDisconnected

/-- What is left by these calls, each of some session. -/
def GameState.calls : GameState → List (Nat × GameCall) → Option GameState
  | s, [] => some s
  | s, (a, call) :: cs => (s.runOps a (call.ops pb)).bind (fun r => r.1.calls cs)

/-- The number of `C_LOGIN`s since the last `OnDisconnected`, when it was `n` before the call. -/
def GameCall.logins (n : Nat) : GameCall → Nat
  | .onConnected => n
  | .onRecvPacket buffer len =>
    match handlePacket (ClientPacketHandler.init pb) buffer len with
    | .called (.Handle_C_LOGIN _) => n + 1
    | _ => n
  | .onDisconnected => 0

/-- The number of `C_LOGIN`s of session `a` since its last `OnDisconnected`, when it was `n` before the calls. -/
def logins (a : Nat) : Nat → List (Nat × GameCall) → Nat
  | n, [] => n
  | n, (b, call) :: cs => logins a (if b = a then call.logins pb n else n) cs

/-! ## How many players there are -/

def GameOp.adds : GameOp → Bool
  | .newPlayer _ _ => true
  | _ => false

variable {pb} {s s' : GameState} {a b : Nat}

theorem runOps_cons {op : GameOp} {ops : List GameOp} {sent : List (Nat × SendBufferRef)}
    (h : s.runOps a (op :: ops) = some (s', sent)) :
    ∃ s₁ one rest, s.exec a op = some (s₁, one) ∧ s₁.runOps a ops = some (s', rest) := by
  obtain ⟨⟨s₁, one⟩, he, h⟩ := Option.bind_eq_some_iff.1 h
  obtain ⟨⟨s₂, rest⟩, hrest, h⟩ := Option.map_eq_some_iff.1 h
  cases h
  exact ⟨s₁, one, rest, he, hrest⟩

theorem runOps_of_ne (hne : a ≠ b) : ∀ (ops : List GameOp) (s : GameState) (sent : List (Nat × SendBufferRef)),
    s.runOps b ops = some (s', sent) → s'.game a = s.game a
  | [], s, _, h => by
    cases h
    rfl
  | op :: ops, s, sent, h => by
    obtain ⟨s₁, one, rest, he, h⟩ := runOps_cons h
    rw [runOps_of_ne hne ops s₁ rest h, (GameState.exec_effect he).game_of_ne hne]

theorem exec_length {op : GameOp} {sent : Option (Nat × SendBufferRef)} (he : s.exec a op = some (s', sent))
    (hop : op ≠ .clear) :
    (s'.game a).players.length = (s.game a).players.length + if op.adds = true then 1 else 0 := by
  cases hadds : op.adds with
  | true =>
    cases op with
    | newPlayer name type =>
      cases he
      simp [GameState.setGame]
    | _ => cases hadds
  | false =>
    cases GameState.exec_effect he with
    | clear => exact absurd rfl hop
    | newPlayer => cases hadds
    | select _ _ _ hg => simp [hg]
    | add hg | remove hg | stay _ _ hg | leave _ _ hg | skip _ hg | enter _ _ hg | chat _ _ hg => simp [hg]

theorem runOps_length : ∀ (ops : List GameOp) (s : GameState) (sent : List (Nat × SendBufferRef)),
    s.runOps a ops = some (s', sent) → .clear ∉ ops →
      (s'.game a).players.length = (s.game a).players.length + ops.countP GameOp.adds
  | [], s, _, h, _ => by
    cases h
    rfl
  | op :: ops, s, sent, h, hops => by
    obtain ⟨s₁, one, rest, he, h⟩ := runOps_cons h
    rw [List.mem_cons, not_or] at hops
    rw [runOps_length ops s₁ rest h hops.2, exec_length he (Ne.symm hops.1), List.countP_cons]
    omega

theorem onDisconnected_players {sent : List (Nat × SendBufferRef)}
    (h : s.runOps a GameSession.onDisconnected = some (s', sent)) : (s'.game a).players = [] := by
  obtain ⟨s₁, _, _, -, h⟩ := runOps_cons h
  obtain ⟨s₂, _, _, -, h⟩ := runOps_cons h
  obtain ⟨s₃, _, _, he, h⟩ := runOps_cons h
  cases h
  cases he
  simp [GameState.setGame]

/-- A packet that is not undefined adds two players if it is a `C_LOGIN`, and none otherwise. -/
theorem onRecvPacket_adds (buffer : List BYTE) (len n : Nat) :
    2 * n + (GameSession.onRecvPacket pb buffer len).countP GameOp.adds =
      2 * (GameCall.onRecvPacket buffer len).logins pb n := by
  unfold GameSession.onRecvPacket GameCall.logins
  dsimp only
  cases handlePacket (ClientPacketHandler.init pb) buffer len with
  | outOfBounds => rfl
  | rejected => rfl
  | called call => cases call <;> rfl

/-- **A call keeps the number of players at two for each login.** -/
theorem call_length {call : GameCall} {n : Nat} {sent : List (Nat × SendBufferRef)}
    (h : s.runOps a (call.ops pb) = some (s', sent)) (hn : (s.game a).players.length = 2 * n) :
    (s'.game a).players.length = 2 * call.logins pb n := by
  cases call with
  | onConnected =>
    have hclear : .clear ∉ GameSession.onConnected := by decide
    rw [runOps_length _ s sent h hclear, hn]
    rfl
  | onRecvPacket buffer len =>
    have hclear : .clear ∉ GameSession.onRecvPacket pb buffer len := fun hmem => by
      cases ofPacket_onRecvPacket pb buffer len _ hmem
    rw [runOps_length _ s sent h hclear, hn]
    exact onRecvPacket_adds buffer len n
  | onDisconnected =>
    rw [onDisconnected_players h]
    rfl

/-- **A session has two players for each `C_LOGIN`** since it was last disconnected, whatever the other sessions do. -/
theorem length_players : ∀ (cs : List (Nat × GameCall)) (s : GameState) (n : Nat), s.calls pb cs = some s' →
    (s.game a).players.length = 2 * n → (s'.game a).players.length = 2 * logins pb a n cs
  | [], s, n, h, hn => by
    cases h
    exact hn
  | (b, call) :: cs, s, n, h, hn => by
    obtain ⟨⟨s₁, sent⟩, hcall, h⟩ := Option.bind_eq_some_iff.1 h
    rw [logins]
    refine length_players cs s₁ _ h ?_
    by_cases hb : b = a
    · subst hb
      rw [if_pos rfl]
      exact call_length hcall hn
    · rw [if_neg hb, runOps_of_ne (Ne.symm hb) _ s sent hcall]
      exact hn

/-! ## `Handle_C_ENTER_GAME` -/

/-- **A `C_ENTER_GAME` is handled**: no read is out of range, and the player asked for is the current one and enters the
room, or the packet is rejected and changes neither the current player nor the room nor the jobs of the room. -/
def EnterGameOk (s : GameState) (a : Nat) (pkt : Protocol.C_ENTER_GAME) : Prop :=
  ∃ s' sent, s.runOps a (ClientPacketHandler.Call.Handle_C_ENTER_GAME pkt).handler = some (s', sent) ∧
    ((∃ player, (s.game a).players[pkt.playerIndex.toNat]? = some player ∧
        (s'.game a).currentPlayer = some player ∧ (s'.game a).room = true ∧
        s'.roomJobs = s.roomJobs ++ [.Enter player]) ∨
      ((s'.game a).currentPlayer = (s.game a).currentPlayer ∧ (s'.game a).room = (s.game a).room ∧
        s'.roomJobs = s.roomJobs))

/-- **The handler on an index in range.** -/
theorem handle_C_ENTER_GAME_run (s : GameState) {a : Nat} {pkt : Protocol.C_ENTER_GAME} {player : Player Nat}
    (hp : (s.game a).players[pkt.playerIndex.toNat]? = some player) :
    ∃ s', s.runOps a (ClientPacketHandler.Call.Handle_C_ENTER_GAME pkt).handler =
        some (s', [(player.ownerSession, ⟨s.numBuffers, .S_ENTER_GAME ⟨true⟩⟩)]) ∧
      s'.game = Function.update s.game a { s.game a with currentPlayer := some player, room := true } ∧
      s'.roomJobs = s.roomJobs ++ [.Enter player] := by
  refine ⟨{ (s.setGame a { s.game a with currentPlayer := some player, room := true }).doAsync (.Enter player) with
    numBuffers := s.numBuffers + 1 }, ?_, rfl, rfl⟩
  simp [ClientPacketHandler.Call.handler, GameState.runOps, GameState.exec, hp, GameState.setGame, GameState.doAsync]

theorem enterGameOk_iff_lt (s : GameState) (a : Nat) (pkt : Protocol.C_ENTER_GAME) :
    EnterGameOk s a pkt ↔ pkt.playerIndex.toNat < (s.game a).players.length := by
  constructor
  · rintro ⟨s', sent, h, -⟩
    obtain ⟨s₁, one, rest, he, -⟩ := runOps_cons h
    cases hp : (s.game a).players[pkt.playerIndex.toNat]? with
    | none => simp [GameState.exec, hp] at he
    | some player => exact (List.getElem?_eq_some_iff.1 hp).1
  · intro hlt
    have hp := List.getElem?_eq_getElem hlt
    obtain ⟨s', hrun, hgame, hjobs⟩ := handle_C_ENTER_GAME_run s hp
    exact ⟨s', _, hrun, .inl ⟨_, hp, by simp [hgame], by simp [hgame], hjobs⟩⟩

/-- **A `C_ENTER_GAME` is handled exactly when it asks for one of the players made**: two for each `C_LOGIN` of the
session since it was last disconnected. -/
theorem enter_game_ok_iff {calls : List (Nat × GameCall)} (h : gameState₀.calls pb calls = some s) (a : Nat)
    (pkt : Protocol.C_ENTER_GAME) :
    EnterGameOk s a pkt ↔ pkt.playerIndex.toNat < 2 * logins pb a 0 calls := by
  rw [enterGameOk_iff_lt, length_players calls gameState₀ 0 h rfl]

theorem enter_game_ok_iff_second : ∃ s,
    gameState₀.calls somePackets [(0, .onConnected), (0, .onRecvPacket [4, 0, 0xe8, 3] 4)] = some s ∧
      EnterGameOk s 0 ⟨1⟩ := by
  obtain ⟨s, hs⟩ : ∃ s, gameState₀.calls somePackets
    [(0, .onConnected), (0, .onRecvPacket [4, 0, 0xe8, 3] 4)] = some s := ⟨_, rfl⟩
  exact ⟨s, hs, (enter_game_ok_iff hs 0 ⟨1⟩).2 (by decide)⟩

theorem enter_game_first : ∃ s, gameState₀.calls somePackets [(0, .onConnected)] = some s ∧
    handlePacket (ClientPacketHandler.init somePackets) [6, 0, 0xea, 3, 0x08, 0x01] 6 =
      .called (.Handle_C_ENTER_GAME ⟨1⟩) ∧
    ¬ EnterGameOk s 0 ⟨1⟩ := by
  obtain ⟨s, hs⟩ : ∃ s, gameState₀.calls somePackets [(0, .onConnected)] = some s := ⟨_, rfl⟩
  refine ⟨s, hs, rfl, fun hok => ?_⟩
  have hlen := length_players (a := 0) _ gameState₀ 0 hs rfl
  rw [enterGameOk_iff_lt, hlen] at hok
  exact absurd hok (by decide)

end Geon
