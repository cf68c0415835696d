import GeonServer.Chat
import GeonServer.Service
/-!
# GameContents — the virtual functions of `GameSession`

The contents of the server: Server/GameSession.cpp, Server/GameSessionManager.cpp and the handlers of
Server/ClientPacketHandler.cpp, as programs that the threads of a service run between its other steps.  No lock is held
from one step of a program to the next, and the fields of a session have none, so any two programs interleave.

What `DoAsync` does ends with the push on the queue of `GRoom`: the order of the pushes is kept, and the sends of the
jobs are sends of whichever thread runs them.  What is undefined behaviour in the source has no step.
-/
namespace Geon

/-- The fields of `GameSession` itself.  `room`: `_room` has been set to `GRoom`. -/
structure GameData where
  players : List (Player Nat)
  currentPlayer : Option (Player Nat)
  room : Bool
  deriving DecidableEq, Repr

/-- What the contents keep: the sessions' own fields, `GSessionManager._sessions`, the static `idGenerator` of
`Handle_C_LOGIN`, the number of buffers made, and the jobs pushed on the queue of `GRoom`. -/
structure GameState where
  game : Nat → GameData
  manager : Finset Nat
  idGenerator : UInt64
  numBuffers : Nat
  roomJobs : List (RoomJob Nat)

/-- A step of one of the functions, for the session it was called on. -/
inductive GameOp
  /-- `GSessionManager.Add`. -/
  | add
  /-- `GSessionManager.Remove`. -/
  | remove
  /-- `OnDisconnected` looks at `_currentPlayer` and `_room` and calls `DoAsync` with `Room::Leave`. -/
  | leave
  /-- `OnDisconnected` clears `_currentPlayer` and `_players`. -/
  | clear
  /-- `Handle_C_LOGIN` makes a player. -/
  | newPlayer (name : List BYTE) (type : Int32)
  /-- `Handle_C_LOGIN` sends its answer. -/
  | replyLogin (loginPkt : Protocol.S_LOGIN)
  /-- `Handle_C_ENTER_GAME` sets `_currentPlayer` and `_room`. -/
  | select (index : UInt64)
  /-- `Handle_C_ENTER_GAME` calls `DoAsync` with `Room::Enter`. -/
  | enter
  /-- `Handle_C_ENTER_GAME` sends its answer to the session of `_currentPlayer`. -/
  | replyEnterGame
  /-- `Handle_C_CHAT` makes its buffer and calls `DoAsync` with `Room::BroadCast`. -/
  | chat (msg : List BYTE)
  /-- A read outside the packet or the table. -/
  | undefined
  deriving DecidableEq, Repr

/-! ## The functions -/

def GameSession.onConnected : List GameOp := [.add]

def GameSession.onDisconnected : List GameOp := [.remove, .leave, .clear]

/-- The handlers of Server/ClientPacketHandler.cpp. -/
def ClientPacketHandler.Call.handler : ClientPacketHandler.Call → List GameOp
  | .Handle_INVALID => []
  | .Handle_C_LOGIN _ => loginPlayers.map (fun player => .newPlayer player.1 player.2) ++
      [.replyLogin ⟨true, loginPlayers.map (fun player => ⟨0, player.1, player.2⟩)⟩]
  | .Handle_C_ENTER_GAME pkt => [.select pkt.playerIndex, .enter, .replyEnterGame]
  | .Handle_C_CHAT pkt => [.chat pkt.msg]

def GameSession.onRecvPacket (pb : Protobuf) (buffer : List BYTE) (len : Nat) : List GameOp :=
  match handlePacket (ClientPacketHandler.init pb) buffer len with
  | .outOfBounds => [.undefined]
  | .rejected => []
  | .called call => call.handler

/-! ## Their steps -/

namespace GameState

def setGame (s : GameState) (a : Nat) (data : GameData) : GameState :=
  { s with game := Function.update s.game a data }

def doAsync (s : GameState) (job : RoomJob Nat) : GameState := { s with roomJobs := s.roomJobs ++ [job] }

/-- A step for session `a`, with the `Session::Send` it calls. -/
def exec (s : GameState) (a : Nat) : GameOp → Option (GameState × Option (Nat × SendBufferRef))
  | .add => some ({ s with manager := insert a s.manager }, none)
  | .remove => some ({ s with manager := s.manager.erase a }, none)
  | .leave =>
    match (s.game a).currentPlayer, (s.game a).room with
    | some player, true => some (s.doAsync (.Leave player), none)
    | _, _ => some (s, none)
  | .clear => some (s.setGame a { s.game a with currentPlayer := none, players := [] }, none)
  | .newPlayer name type =>
    some ({ s with idGenerator := s.idGenerator + 1 }.setGame a
      { s.game a with players := (s.game a).players ++ [(⟨s.idGenerator, name, type, a⟩ : Player Nat)] }, none)
  | .replyLogin loginPkt => some ({ s with numBuffers := s.numBuffers + 1 }, some (a, ⟨s.numBuffers, .S_LOGIN loginPkt⟩))
  | .select index =>
    match (s.game a).players[index.toNat]? with
    | none => none
    | some player => some (s.setGame a { s.game a with currentPlayer := some player, room := true }, none)
  | .enter =>
    match (s.game a).currentPlayer with
    | none => none
    | some player => some (s.doAsync (.Enter player), none)
  | .replyEnterGame =>
    match (s.game a).currentPlayer with
    | none => none
    | some player => some ({ s with numBuffers := s.numBuffers + 1 },
        some (player.ownerSession, ⟨s.numBuffers, .S_ENTER_GAME ⟨true⟩⟩))
  | .chat msg => some ({ s with numBuffers := s.numBuffers + 1 }.doAsync
      (.BroadCast ⟨s.numBuffers, .S_CHAT ⟨0, msg⟩⟩), none)
  | .undefined => none

end GameState

/-- The server before a session is connected. -/
def gameState₀ : GameState := ⟨fun _ => ⟨[], none, false⟩, ∅, 1, 0, []⟩

/-- The contents of the server. -/
abbrev gameContents (pb : Protobuf) : Contents SendBufferRef where
  State := GameState
  Prog := List GameOp
  onConnected := GameSession.onConnected
  onDisconnected := GameSession.onDisconnected
  onRecvPacket := GameSession.onRecvPacket pb
  step s a
    | [] => some (.ret s)
    | op :: ops =>
      match s.exec a op with
      | none => none
      | some (s', none) => some (.goOn s' ops)
      | some (s', some (b, sendBuffer)) => some (.send s' b sendBuffer ops)

/-! ## What a step changes -/

/-- The step is one of a packet handler. -/
def GameOp.ofPacket : GameOp → Bool
  | .add | .remove | .leave | .clear => false
  | _ => true

theorem ofPacket_handler (call : ClientPacketHandler.Call) : ∀ op ∈ call.handler, op.ofPacket = true := by
  cases call with
  | Handle_INVALID => exact fun op h => by cases h
  | Handle_C_LOGIN pkt =>
    simp only [ClientPacketHandler.Call.handler, List.forall_mem_append, List.forall_mem_map, List.forall_mem_singleton]
    exact ⟨fun _ _ => rfl, rfl⟩
  | Handle_C_ENTER_GAME pkt => simp [ClientPacketHandler.Call.handler, GameOp.ofPacket]
  | Handle_C_CHAT pkt => simp [ClientPacketHandler.Call.handler, GameOp.ofPacket]

theorem ofPacket_onRecvPacket (pb : Protobuf) (buffer : List BYTE) (len : Nat) :
    ∀ op ∈ GameSession.onRecvPacket pb buffer len, op.ofPacket = true := by
  unfold GameSession.onRecvPacket
  split
  · simp [GameOp.ofPacket]
  · exact fun op h => by cases h
  · exact ofPacket_handler _

namespace GameState

variable {s s' : GameState} {a : Nat} {op : GameOp} {sent : Option (Nat × SendBufferRef)}

/-- **The effect of a step**: what it does to the session's fields, to the manager and to the room's jobs. -/
inductive Effect (s s' : GameState) (a : Nat) : GameOp → Prop
  | add : s'.game = s.game → s'.manager = insert a s.manager → s'.roomJobs = s.roomJobs → Effect s s' a .add
  | remove : s'.game = s.game → s'.manager = s.manager.erase a → s'.roomJobs = s.roomJobs → Effect s s' a .remove
  | stay (op : GameOp) : op ∉ [.add, .remove, .leave, .clear] → s'.game = s.game → s'.manager = s.manager →
      s'.roomJobs = s.roomJobs → Effect s s' a op
  | leave (player : Player Nat) : (s.game a).currentPlayer = some player → s'.game = s.game →
      s'.manager = s.manager → s'.roomJobs = s.roomJobs ++ [.Leave player] → Effect s s' a .leave
  | skip : (s.game a).currentPlayer = none ∨ (s.game a).room = false → s'.game = s.game → s'.manager = s.manager →
      s'.roomJobs = s.roomJobs → Effect s s' a .leave
  | clear : s'.game = Function.update s.game a { s.game a with currentPlayer := none, players := [] } →
      s'.manager = s.manager → s'.roomJobs = s.roomJobs → Effect s s' a .clear
  | newPlayer (name : List BYTE) (type : Int32) : s'.game = Function.update s.game a { s.game a with
        players := (s.game a).players ++ [(⟨s.idGenerator, name, type, a⟩ : Player Nat)] } →
      s'.manager = s.manager → s'.roomJobs = s.roomJobs → Effect s s' a (.newPlayer name type)
  | select (index : UInt64) (player : Player Nat) : (s.game a).players[index.toNat]? = some player →
      s'.game = Function.update s.game a { s.game a with currentPlayer := some player, room := true } →
      s'.manager = s.manager → s'.roomJobs = s.roomJobs → Effect s s' a (.select index)
  | enter (player : Player Nat) : (s.game a).currentPlayer = some player → s'.game = s.game →
      s'.manager = s.manager → s'.roomJobs = s.roomJobs ++ [.Enter player] → Effect s s' a .enter
  | chat (msg : List BYTE) (sendBuffer : SendBufferRef) : s'.game = s.game → s'.manager = s.manager →
      s'.roomJobs = s.roomJobs ++ [.BroadCast sendBuffer] → Effect s s' a (.chat msg)

theorem exec_effect (h : s.exec a op = some (s', sent)) : Effect s s' a op := by
  cases op with
  | add =>
    cases h
    exact .add rfl rfl rfl
  | remove =>
    cases h
    exact .remove rfl rfl rfl
  | leave =>
    simp only [exec] at h
    split at h
    · cases h
      exact .leave _ ‹_› rfl rfl rfl
    · rename_i hnot
      cases h
      refine .skip ?_ rfl rfl rfl
      cases hc : (s.game a).currentPlayer with
      | none => exact .inl rfl
      | some player => exact .inr (Bool.eq_false_iff.2 (fun hroom => hnot player hc hroom))
  | clear =>
    cases h
    exact .clear rfl rfl rfl
  | newPlayer name type =>
    cases h
    exact .newPlayer name type rfl rfl rfl
  | replyLogin loginPkt =>
    cases h
    exact .stay _ (by simp) rfl rfl rfl
  | select index =>
    simp only [exec] at h
    split at h
    · cases h
    · cases h
      exact .select index _ ‹_› rfl rfl rfl
  | enter =>
    simp only [exec] at h
    split at h
    · cases h
    · cases h
      exact .enter _ ‹_› rfl rfl rfl
  | replyEnterGame =>
    simp only [exec] at h
    split at h
    · cases h
    · cases h
      exact .stay _ (by simp) rfl rfl rfl
  | chat msg =>
    cases h
    exact .chat msg _ rfl rfl rfl
  | undefined => cases h

/-- A session's players are its own. -/
def Owned (s : GameState) : Prop :=
  ∀ a, (∀ player ∈ (s.game a).players, player.ownerSession = a) ∧
    ∀ player, (s.game a).currentPlayer = some player → player.ownerSession = a

theorem Owned.set {data : GameData} (h : s.Owned) (hg : s'.game = Function.update s.game a data)
    (hp : ∀ player ∈ data.players, player.ownerSession = a)
    (hc : ∀ player, data.currentPlayer = some player → player.ownerSession = a) : s'.Owned := by
  unfold Owned
  rw [hg]
  exact (Function.forall_update_iff s.game (p := fun b (data : GameData) =>
    (∀ player ∈ data.players, player.ownerSession = b) ∧
      ∀ player, data.currentPlayer = some player → player.ownerSession = b)).2 ⟨⟨hp, hc⟩, fun b _ => h b⟩

theorem Owned.same (h : s.Owned) (hg : s'.game = s.game) : s'.Owned := by
  unfold Owned
  rw [hg]
  exact h

theorem Effect.owned (he : Effect s s' a op) (h : s.Owned) : s'.Owned := by
  cases he with
  | add hg | remove hg | stay _ _ hg | leave _ _ hg | skip _ hg | enter _ _ hg | chat _ _ hg => exact h.same hg
  | clear hg => exact h.set hg (fun _ hp => by cases hp) (fun _ hc => by cases hc)
  | newPlayer name type hg =>
    refine h.set hg (fun player hp => ?_) (h a).2
    rcases List.mem_append.1 hp with hp | hp
    · exact (h a).1 player hp
    · rw [List.mem_singleton.1 hp]
  | select index player hp hg =>
    refine h.set hg (h a).1 (fun player' hc => ?_)
    cases hc
    exact (h a).1 player (List.mem_of_getElem? hp)

theorem Effect.game_of_ne (he : Effect s s' a op) {b : Nat} (hb : b ≠ a) : s'.game b = s.game b := by
  cases he with
  | add hg | remove hg | stay _ _ hg | leave _ _ hg | skip _ hg | enter _ _ hg | chat _ _ hg => rw [hg]
  | clear hg | newPlayer _ _ hg | select _ _ _ hg => rw [hg, Function.update_of_ne hb]

end GameState

end Geon
