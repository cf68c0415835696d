import GeonServer.Chat
import GeonServer.WireRoundTrip
/-!
# DummyClient — the clients and the server they talk to

DummyClient/DummyClient.cpp and DummyClient/ServerPacketHandler.cpp: a `ClientService` of `ServerSession`s, from their
`ProcessConnect` on, run by any number of threads, over the sending code of SendPath.  A step is one step of a thread's
`Send`, or what `ProcessConnect`, `Service::Broadcast` or a handler does up to the next of these.

`playStep` puts the clients and the server of Chat together.  What a session of one side has posted comes to the
`OnRecvPacket` of its session on the other side packet by packet: that the bytes arrive so is `link_in_order`, and that
they come to the handlers so is `wire_round_trip`.
-/
namespace Geon

open Lts Function

/-! ## The clients -/

/-- `ServerSession`.  `begun`: `ProcessConnect` has set `_connected`, and nobody looks at `send` before that;
`receiving`: `RegisterRecv` has called `WSARecv`. -/
structure ServerSession (Cid : Type) where
  send : SendState Cid ClientPacket
  begun : Bool
  receiving : Bool

/-- Where a thread of the client is, outside of `Send`. -/
inductive ClientPc (Sid : Type)
  | idle
  /-- `ProcessConnect` is about to call `AddSession`. -/
  | addSession (a : Sid)
  /-- About to call `OnConnected`. -/
  | onConnected (a : Sid)
  /-- About to call `RegisterRecv`. -/
  | registerRecv (a : Sid)
  /-- In the loop of `Service::Broadcast`, with these sessions to come. -/
  | broadcast (rest : List Sid)
  deriving DecidableEq, Repr

/-- A thread: the session whose `Send` or `ProcessSend` it is inside, and where it is outside of that. -/
structure ClientThread (Sid : Type) where
  sending : Option Sid
  pc : ClientPc Sid
  deriving DecidableEq, Repr

/-- The client.  `lock` is the `WRITE_LOCK` of the service, `members` is `_sessions`, and `printed` what
`Handle_S_CHAT` has printed. -/
structure DummyClient (Cid Sid : Type) where
  sessions : Sid → ServerSession Cid
  lock : Option Cid
  members : List Sid
  threads : Cid → ClientThread Sid
  printed : List (List BYTE)

/-- The packet of `main`. -/
def helloPkt : Protocol.C_CHAT := ⟨"Hello World!".toUTF8.toList⟩

variable {Cid Sid : Type} [DecidableEq Cid] [DecidableEq Sid]

namespace DummyClient

def setSession (c : DummyClient Cid Sid) (a : Sid) (session : ServerSession Cid) : DummyClient Cid Sid :=
  { c with sessions := update c.sessions a session }

def setThread (c : DummyClient Cid Sid) (u : Cid) (th : ClientThread Sid) : DummyClient Cid Sid :=
  { c with threads := update c.threads u th }

def setPc (c : DummyClient Cid Sid) (u : Cid) (pc : ClientPc Sid) : DummyClient Cid Sid :=
  c.setThread u { c.threads u with pc := pc }

/-- Thread `u` has made a step in the sending code of session `a`. -/
def setSend (c : DummyClient Cid Sid) (u : Cid) (a : Sid) (send : SendState Cid ClientPacket) : DummyClient Cid Sid :=
  (c.setSession a { c.sessions a with send := send }).setThread u
    { c.threads u with sending := if (send.pcs u).isIdle = true then none else some a }

/-- `MakeSendBuffer`, and `Session::Send` of what it returns. -/
def callSend (c : DummyClient Cid Sid) (u : Cid) (a : Sid) (pkt : ClientPacket) : Option (DummyClient Cid Sid) :=
  (sendStep (c.sessions a).send (.send u pkt)).map (c.setSend u a)

/-- The thread is in none of this code. -/
def atBase (c : DummyClient Cid Sid) (u : Cid) : Bool :=
  match c.threads u with
  | ⟨none, .idle⟩ => true
  | _ => false

/-- The next step of thread `u`. -/
def next (c : DummyClient Cid Sid) (u : Cid) (wsaSend : WsaResult) : Option (DummyClient Cid Sid) :=
  match (c.threads u).sending with
  | some a => (sendStep (c.sessions a).send (.next u wsaSend)).map (c.setSend u a)
  | none =>
    match (c.threads u).pc with
    | .idle => none
    | .addSession a =>
      if c.lock = none then some ({ c with members := c.members ++ [a] }.setPc u (.onConnected a)) else none
    | .onConnected a => (c.setPc u (.registerRecv a)).callSend u a (.C_LOGIN ⟨⟩)
    | .registerRecv a =>
      some ((c.setSession a { c.sessions a with receiving := (c.sessions a).send.connected }).setPc u .idle)
    | .broadcast [] => some ({ c with lock := none }.setPc u .idle)
    | .broadcast (a :: rest) => (c.setPc u (.broadcast rest)).callSend u a (.C_CHAT helloPkt)

/-- A handler of DummyClient/ServerPacketHandler.cpp is called for session `a`. -/
def handle (c : DummyClient Cid Sid) (u : Cid) (a : Sid) : ServerPacketHandler.Call → Option (DummyClient Cid Sid)
  | .Handle_INVALID => some c
  | .Handle_S_LOGIN pkt => if pkt.success = false then some c else c.callSend u a (.C_ENTER_GAME ⟨0⟩)
  | .Handle_S_ENTER_GAME _ => some c
  | .Handle_S_CHAT pkt => some { c with printed := c.printed ++ [pkt.msg] }

/-- `OnRecvPacket` of session `a` comes to a handler. -/
def onRecvPacket (c : DummyClient Cid Sid) (u : Cid) (a : Sid) (call : ServerPacketHandler.Call) :
    Option (DummyClient Cid Sid) :=
  if c.atBase u = true ∧ (c.sessions a).receiving = true then c.handle u a call else none

end DummyClient

inductive ClientAct (Cid Sid : Type)
  /-- The `ConnectEx` of a session has completed, and a thread enters `ProcessConnect`, which sets `_connected`. -/
  | connect (u : Cid) (a : Sid)
  /-- `main` calls `Broadcast`, whose loop goes through the set in this order. -/
  | broadcast (u : Cid) (order : List Sid)
  /-- A thread takes the completion of a send of a session and enters `ProcessSend`. -/
  | complete (u : Cid) (a : Sid) (i numOfBytes : Nat)
  /-- Some thread calls `Disconnect`. -/
  | disconnect (a : Sid)
  /-- `ProcessDisconnect`: its `OnDisconnected` does nothing, and it calls `ReleaseSession`. -/
  | release (u : Cid) (a : Sid)
  /-- A thread inside one of these takes its next step. -/
  | next (u : Cid) (wsaSend : WsaResult)

def clientStep (c : DummyClient Cid Sid) : ClientAct Cid Sid → Option (DummyClient Cid Sid)
  | .connect u a =>
    if c.atBase u = true ∧ (c.sessions a).begun = false then
      some ((c.setSession a { c.sessions a with begun := true }).setPc u (.addSession a))
    else none
  | .broadcast u order =>
    if c.atBase u = true ∧ c.lock = none ∧ order.Perm c.members then
      some ({ c with lock := some u }.setPc u (.broadcast order))
    else none
  | .complete u a i numOfBytes =>
    if c.atBase u = true then (sendStep (c.sessions a).send (.complete u i numOfBytes)).map (c.setSend u a) else none
  | .disconnect a =>
    if (c.sessions a).begun = true then
      (sendStep (c.sessions a).send .disconnect).map (fun send => c.setSession a { c.sessions a with send := send })
    else none
  | .release u a =>
    if c.atBase u = true ∧ (c.sessions a).send.connected = false ∧ c.lock = none ∧ a ∈ c.members then
      some { c with members := c.members.erase a }
    else none
  | .next u wsaSend => c.next u wsaSend

/-- The client as `ClientService::Start` leaves it. -/
def dummyClient₀ : DummyClient Cid Sid := ⟨fun _ => ⟨sendState₀, false, false⟩, none, [], fun _ => ⟨none, .idle⟩, []⟩

/-! ## The clients and the server -/

/-- The server and the clients; `taken` and `received` are how many packets of a session the `OnRecvPacket` of the
server and of the client have been called for. -/
structure PlayState (Tid Cid Sid : Type) where
  server : ChatState Tid Sid
  client : DummyClient Cid Sid
  taken : Sid → Nat
  received : Sid → Nat

inductive PlayAct (Tid Cid Sid : Type)
  /-- A step of the server, not one of `OnRecvPacket`. -/
  | server (act : ChatAct Tid Sid)
  /-- A step of the client, not one of `OnRecvPacket`. -/
  | client (act : ClientAct Cid Sid)
  /-- The server receives the next packet of a session. -/
  | toServer (t : Tid) (a : Sid)
  /-- The client receives the next packet of a session. -/
  | toClient (u : Cid) (a : Sid)

variable {Tid : Type} [DecidableEq Tid]

/-- What the client has sent the server on a session. -/
def PlayState.toServer (s : PlayState Tid Cid Sid) (a : Sid) : List ClientPacket :=
  (s.client.sessions a).send.posted.flatten

/-- What the server has sent the client on a session. -/
def PlayState.toClient (s : PlayState Tid Cid Sid) (a : Sid) : List SendBufferRef :=
  (s.server.sessions a).send.posted.flatten

def playStep (s : PlayState Tid Cid Sid) : PlayAct Tid Cid Sid → Option (PlayState Tid Cid Sid)
  | .server (.handle _ _ _) => none
  | .server act => (chatStep s.server act).map (fun server => { s with server := server })
  | .client act => (clientStep s.client act).map (fun client => { s with client := client })
  | .toServer t a =>
    match (s.toServer a)[s.taken a]? with
    | none => none
    | some pkt => (chatStep s.server (.handle t a pkt.handler)).map (fun server =>
        { s with server := server, taken := update s.taken a (s.taken a + 1) })
  | .toClient u a =>
    match (s.toClient a)[s.received a]? with
    | none => none
    | some sendBuffer => (s.client.onRecvPacket u a sendBuffer.pkt.handler).map (fun client =>
        { s with client := client, received := update s.received a (s.received a + 1) })

def playState₀ : PlayState Tid Cid Sid := ⟨chatState₀, dummyClient₀, fun _ => 0, fun _ => 0⟩

end Geon
