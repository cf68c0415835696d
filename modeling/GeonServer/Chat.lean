import GeonServer.Room
import GeonServer.JobToken
import GeonServer.SendRun
/-!
# Chat — packet handlers, the room's jobs and the sends they make

Server/ClientPacketHandler.cpp and Server/GameSession.cpp over the models below them: the handlers push jobs on the
job queue of `GRoom` (JobQueue), whose jobs are those of Room, and both call `Session::Send` (SendPath).  A worker
thread is inside at most one handler; from there it may come into `Execute`, a job, and a `Send`.

A step is one step of the model the thread is innermost in, or what a handler or a job does up to the next of these.
What is undefined behaviour in the source (an index out of range, a null pointer) has no step.
-/
namespace Geon

open Lts Function

/-- `GameSession`.  `room`: `_room` has been set to `GRoom`; `disconnected`: `ProcessDisconnect` has run. -/
structure GameSession (Tid Sid : Type*) where
  send : SendState Tid SendBufferRef
  players : List (Player Sid)
  currentPlayer : Option (Player Sid)
  room : Bool
  disconnected : Bool

/-- What is left of a handler. -/
inductive Handler (Sid : Type*)
  | none
  /-- `Handle_C_LOGIN` has added the players of `loginPkt`. -/
  | login (a : Sid) (loginPkt : Protocol.S_LOGIN)
  /-- `Handle_C_ENTER_GAME` has called `DoAsync`. -/
  | enterGame (a : Sid)
  /-- `OnDisconnected` has called `DoAsync`. -/
  | disconnected (a : Sid)
  deriving DecidableEq, Repr

/-- Where a thread is in the job it runs. -/
inductive JobBody
  /-- The job has not begun, or there is none. -/
  | start
  /-- In the loop of `BroadCast`, past the entry with this key. -/
  | loop (after : Option Nat)
  | returned
  deriving DecidableEq, Repr

/-- A worker thread: the session whose `Send` or `ProcessSend` it is inside, and where it is outside of that. -/
structure Worker (Sid : Type*) where
  sending : Option Sid
  body : JobBody
  handler : Handler Sid
  deriving DecidableEq, Repr

/-- The server.  The history is the players created and the `Session::Send` calls of the broadcasts. -/
structure ChatState (Tid Sid : Type*) where
  jobs : JobState Tid Unit (RoomJob Sid)
  players : RoomPlayers Sid
  sessions : Sid → GameSession Tid Sid
  idGenerator : UInt64
  numBuffers : Nat
  workers : Tid → Worker Sid
  created : List (Player Sid)
  sendCalls : List (SendBufferRef × Player Sid)

def PLAYER_TYPE_KNIGHT : Int32 := 1
def PLAYER_TYPE_MAGE : Int32 := 2

/-- The names and types of the two players `Handle_C_LOGIN` makes, in UTF-8. -/
def loginPlayers : List (List BYTE × Int32) :=
  [("DB에서긁어온이름1".toUTF8.toList, PLAYER_TYPE_KNIGHT), ("DB에서긁어온이름2".toUTF8.toList, PLAYER_TYPE_MAGE)]

variable {Tid Sid : Type} [DecidableEq Tid] [DecidableEq Sid]

namespace ChatState

def setSession (s : ChatState Tid Sid) (a : Sid) (session : GameSession Tid Sid) : ChatState Tid Sid :=
  { s with sessions := update s.sessions a session }

def setWorker (s : ChatState Tid Sid) (t : Tid) (w : Worker Sid) : ChatState Tid Sid :=
  { s with workers := update s.workers t w }

/-- Thread `t` has made a step in the sending code of session `a`. -/
def setSend (s : ChatState Tid Sid) (t : Tid) (a : Sid) (send : SendState Tid SendBufferRef) : ChatState Tid Sid :=
  (s.setSession a { s.sessions a with send := send }).setWorker t
    { s.workers t with sending := if (send.pcs t).isIdle = true then none else some a }

def callSend (s : ChatState Tid Sid) (t : Tid) (a : Sid) (sendBuffer : SendBufferRef) : Option (ChatState Tid Sid) :=
  (sendStep (s.sessions a).send (.send t sendBuffer)).map (s.setSend t a)

/-- `MakeSendBuffer`, and `Session::Send` of what it returns. -/
def makeAndSend (s : ChatState Tid Sid) (t : Tid) (a : Sid) (pkt : ServerPacket) : Option (ChatState Tid Sid) :=
  { s with numBuffers := s.numBuffers + 1 }.callSend t a ⟨s.numBuffers, pkt⟩

def doAsync (s : ChatState Tid Sid) (t : Tid) (job : RoomJob Sid) : Option (ChatState Tid Sid) :=
  (jobStep s.jobs (.push t () (some job) false)).map (fun jobs => { s with jobs := jobs })

/-- The thread is in no handler and in no code a handler calls. -/
def atBase (s : ChatState Tid Sid) (t : Tid) : Bool :=
  match s.workers t, (s.jobs.threads t).frames with
  | ⟨none, _, .none⟩, [] => true
  | _, _ => false

/-- A handler of Server/ClientPacketHandler.cpp is called for session `a`. -/
def handle (s : ChatState Tid Sid) (t : Tid) (a : Sid) : ClientPacketHandler.Call → Option (ChatState Tid Sid)
  | .Handle_INVALID => some s
  | .Handle_C_LOGIN _ => some (s.setWorker t { s.workers t with handler := .login a ⟨true, []⟩ })
  | .Handle_C_ENTER_GAME pkt =>
    match (s.sessions a).players[pkt.playerIndex.toNat]? with
    | none => none
    | some player =>
      ((s.setSession a { s.sessions a with currentPlayer := some player, room := true }).setWorker t
        { s.workers t with handler := .enterGame a }).doAsync t (.Enter player)
  | .Handle_C_CHAT pkt =>
    { s with numBuffers := s.numBuffers + 1 }.doAsync t (.BroadCast ⟨s.numBuffers, .S_CHAT ⟨0, pkt.msg⟩⟩)

def onDisconnected (s : ChatState Tid Sid) (t : Tid) (a : Sid) : Option (ChatState Tid Sid) :=
  let session := { s.sessions a with disconnected := true }
  let s' := (s.setSession a session).setWorker t { s.workers t with handler := .disconnected a }
  match session.currentPlayer, session.room with
  | some player, true => s'.doAsync t (.Leave player)
  | _, _ => some s'

/-- The rest of the handler thread `t` is inside. -/
def handlerNext (s : ChatState Tid Sid) (t : Tid) : Option (ChatState Tid Sid) :=
  match (s.workers t).handler with
  | .none => none
  | .login a loginPkt =>
    match loginPlayers[loginPkt.players.length]? with
    | some (name, type) =>
      let player : Player Sid := ⟨s.idGenerator, name, type, a⟩
      let reply : Protocol.Player := ⟨0, name, type⟩
      let session := s.sessions a
      some (({ s with idGenerator := s.idGenerator + 1, created := s.created ++ [player] }.setSession a
        { session with players := session.players ++ [player] }).setWorker t
        { s.workers t with handler := .login a { loginPkt with players := loginPkt.players ++ [reply] } })
    | none => (s.setWorker t { s.workers t with handler := .none }).makeAndSend t a (.S_LOGIN loginPkt)
  | .enterGame a =>
    match (s.sessions a).currentPlayer with
    | none => none
    | some player =>
      (s.setWorker t { s.workers t with handler := .none }).makeAndSend t player.ownerSession (.S_ENTER_GAME ⟨true⟩)
  | .disconnected a =>
    some ((s.setSession a { s.sessions a with currentPlayer := none, players := [] }).setWorker t
      { s.workers t with handler := .none })

/-- What thread `t` does next in the job it runs. -/
def runJob (s : ChatState Tid Sid) (t : Tid) (job : RoomJob Sid) : Option (ChatState Tid Sid) :=
  match (s.workers t).body, job with
  | .start, .Enter player =>
    some ({ s with players := Room.Enter s.players player }.setWorker t { s.workers t with body := .returned })
  | .start, .Leave player =>
    some ({ s with players := Room.Leave s.players player }.setWorker t { s.workers t with body := .returned })
  | .start, .BroadCast _ => some (s.setWorker t { s.workers t with body := .loop none })
  | .loop after, .BroadCast sendBuffer =>
    match s.players.beyond after with
    | [] => some (s.setWorker t { s.workers t with body := .returned })
    | (key, player) :: _ =>
      ({ s with sendCalls := s.sendCalls ++ [(sendBuffer, player)] }.setWorker t
        { s.workers t with body := .loop (some key) }).callSend t player.ownerSession sendBuffer
  | .loop _, _ => none
  | .returned, _ => (jobStep s.jobs (.finish t)).map (fun jobs =>
      { s with jobs := jobs }.setWorker t { s.workers t with body := .start })

/-- The next step of thread `t` inside a handler or the code it calls. -/
def next (s : ChatState Tid Sid) (t : Tid) (timeout : Bool) (wsaSend : WsaResult) : Option (ChatState Tid Sid) :=
  match (s.workers t).sending with
  | some a => (sendStep (s.sessions a).send (.next t wsaSend)).map (s.setSend t a)
  | none =>
    match (s.jobs.threads t).frames with
    | [] => s.handlerNext t
    | .inJob _ jobs i :: _ =>
      match jobs[i]? with
      | none => none
      | some job => s.runJob t job
    | _ => (jobStep s.jobs (.next t timeout)).map (fun jobs => { s with jobs := jobs })

end ChatState

inductive ChatAct (Tid Sid : Type)
  /-- `OnRecvPacket` of a session comes to a handler. -/
  | handle (t : Tid) (a : Sid) (call : ClientPacketHandler.Call)
  /-- `ProcessDisconnect` of a session calls `OnDisconnected`. -/
  | onDisconnected (t : Tid) (a : Sid)
  /-- `DoGlobalQueueWork` pops a queue. -/
  | pop (t : Tid)
  /-- A thread takes the completion of a send of a session and enters `ProcessSend`. -/
  | complete (t : Tid) (a : Sid) (i numOfBytes : Nat)
  /-- Some thread calls `Disconnect`. -/
  | disconnect (a : Sid)
  /-- A thread inside one of these takes its next step. -/
  | next (t : Tid) (timeout : Bool) (wsaSend : WsaResult)

def chatStep (s : ChatState Tid Sid) : ChatAct Tid Sid → Option (ChatState Tid Sid)
  | .handle t a call => if s.atBase t = true then s.handle t a call else none
  | .onDisconnected t a =>
    if s.atBase t = true ∧ (s.sessions a).send.connected = false ∧ (s.sessions a).disconnected = false then
      s.onDisconnected t a
    else none
  | .pop t =>
    if s.atBase t = true then (jobStep s.jobs (.pop t)).map (fun jobs => { s with jobs := jobs }) else none
  | .complete t a i numOfBytes =>
    if s.atBase t = true then
      (sendStep (s.sessions a).send (.complete t i numOfBytes)).map (s.setSend t a)
    else none
  | .disconnect a =>
    (sendStep (s.sessions a).send .disconnect).map (fun send => s.setSession a { s.sessions a with send := send })
  | .next t timeout wsaSend => s.next t timeout wsaSend

/-- The server as `main` has started it, every session as its `ProcessConnect` leaves it. -/
def chatState₀ : ChatState Tid Sid :=
  ⟨jobState₀, .empty, fun _ => ⟨sendState₀, [], none, false, false⟩, 1, 0, fun _ => ⟨none, .start, .none⟩, [], []⟩

end Geon
