import GeonServer.OnRecv
import GeonServer.SendBuffer
/-!
# Packet — making and dispatching packets

The two generated headers Server/ClientPacketHandler.h and DummyClient/ServerPacketHandler.h: `MakeSendBuffer`, the
table `GPacketHandler` and `HandlePacket`.  They are one template with the `C_` and `S_` packets exchanged, so each is
the template's definitions at its own packets.  Of protobuf they use three functions, which are a parameter
(`Protobuf`).
-/
namespace Geon

open Lts Function

/-! ## The messages of Protocol.proto -/

namespace Protocol

/-- `playerType` keeps the values the enum does not name. -/
structure Player where
  id : UInt64
  name : List BYTE
  playerType : Int32
  deriving DecidableEq, Repr

structure C_LOGIN where
  deriving DecidableEq, Repr

structure S_LOGIN where
  success : Bool
  players : List Player
  deriving DecidableEq, Repr

structure C_ENTER_GAME where
  playerIndex : UInt64
  deriving DecidableEq, Repr

structure S_ENTER_GAME where
  success : Bool
  deriving DecidableEq, Repr

structure C_CHAT where
  msg : List BYTE
  deriving DecidableEq, Repr

structure S_CHAT where
  playerId : UInt64
  msg : List BYTE
  deriving DecidableEq, Repr

end Protocol

/-- What is used of the protobuf class of a message: `serializeToArray` gives the bytes it stores, `none` when it
returns false; `parseFromArray` is given the memory from its pointer on. -/
structure Message (α : Type) where
  byteSizeLong : α → Nat
  serializeToArray : α → Int → Option (List BYTE)
  parseFromArray : List BYTE → Int → Option α

/-- What protobuf promises for a message: given room for `ByteSizeLong` bytes, `SerializeToArray` stores that many,
and `ParseFromArray` of these gives the message back. -/
def Message.RoundTrips {α : Type} (M : Message α) (pkt : α) : Prop :=
  ∃ bytes : List BYTE, bytes.length = M.byteSizeLong pkt ∧
    (∀ size : Int, M.byteSizeLong pkt ≤ size → M.serializeToArray pkt size = some bytes) ∧
    ∀ rest, M.parseFromArray (bytes ++ rest) bytes.length = some pkt

structure Protobuf where
  C_LOGIN : Message Protocol.C_LOGIN
  S_LOGIN : Message Protocol.S_LOGIN
  C_ENTER_GAME : Message Protocol.C_ENTER_GAME
  S_ENTER_GAME : Message Protocol.S_ENTER_GAME
  C_CHAT : Message Protocol.C_CHAT
  S_CHAT : Message Protocol.S_CHAT

def PKT_C_LOGIN : Nat := 1000
def PKT_S_LOGIN : Nat := 1001
def PKT_C_ENTER_GAME : Nat := 1002
def PKT_S_ENTER_GAME : Nat := 1003
def PKT_C_CHAT : Nat := 1004
def PKT_S_CHAT : Nat := 1005

def UINT16_MAX : Nat := 0xffff

/-! ## `MakeSendBuffer` -/

def toUInt16 (n : Nat) : Nat := n % 65536

/-- A `uint16` in memory. -/
def uint16Bytes (n : Nat) : List BYTE := [UInt8.ofNat (n % 256), UInt8.ofNat (n / 256 % 256)]

def PacketHeader.bytes (header : PacketHeader) : List BYTE := uint16Bytes header.size ++ uint16Bytes header.id

variable {Tid : Type} [DecidableEq Tid]

/-- Thread `t` takes its next steps until it is out of the code, `none` if it cannot or the fuel runs out. -/
def runThread (t : Tid) : Nat → BufferState Tid → Option (BufferState Tid)
  | 0, _ => none
  | fuel + 1, s =>
    if (s.threads t).pc = .idle then some s
    else (bufferStep s (.next t)).bind (runThread t fuel)

/-- `SendBufferManager::Open` called by thread `t`, with the `SendBuffer` it returns; `none` when it crashes or returns
`nullptr`.  It takes four steps at most. -/
def openSendBuffer (s : BufferState Tid) (t : Tid) (size : Nat) : Option (BufferState Tid × Nat) := do
  let s₁ ← bufferStep s (.openCall t size)
  let s₂ ← runThread t 5 s₁
  if s₂.buffers.length = s.buffers.length then none else some (s₂, s.buffers.length)

/-- The template `MakeSendBuffer` called by thread `t`, with the `SendBuffer` it returns; `none` when it crashes. -/
def makeSendBuffer {α : Type} (M : Message α) (pkt : α) (pktId : Nat) (t : Tid) (s : BufferState Tid) :
    Option (BufferState Tid × Nat) := do
  let dataSize := toUInt16 (M.byteSizeLong pkt)
  let packetSize := toUInt16 (dataSize + sizeofPacketHeader)
  let (s₁, sendBuffer) ← openSendBuffer s t packetSize
  let s₂ ← bufferStep s₁ (.write t sendBuffer 0 (PacketHeader.bytes ⟨packetSize, pktId⟩))
  let bytes ← M.serializeToArray pkt dataSize
  let s₃ ← bufferStep s₂ (.write t sendBuffer sizeofPacketHeader bytes)
  let s₄ ← bufferStep s₃ (.close t sendBuffer packetSize)
  some (s₄, sendBuffer)

/-! ## `HandlePacket` -/

/-- What came of a packet: a handler was called, its body did not parse, or a read went outside the received bytes or
the table. -/
inductive Dispatch (Call : Type)
  | outOfBounds
  | rejected
  | called (call : Call)
  deriving DecidableEq, Repr

def PacketHandlerFunc (Call : Type) : Type := List BYTE → Nat → Dispatch Call

/-- The template `HandlePacket<PacketType>` for a handler `func`. -/
def handlePacketAs {α Call : Type} (M : Message α) (func : α → Call) : PacketHandlerFunc Call := fun buffer len =>
  match M.parseFromArray (buffer.drop sizeofPacketHeader) ((len : Int) - sizeofPacketHeader) with
  | none => .rejected
  | some pkt => .called (func pkt)

/-- `HandlePacket` with the table `GPacketHandler`, of which there are `UINT16_MAX` entries. -/
def handlePacket {Call : Type} (GPacketHandler : Nat → PacketHandlerFunc Call) : PacketHandlerFunc Call :=
  fun buffer len =>
    match readHeader buffer with
    | none => .outOfBounds
    | some header => if header.id < UINT16_MAX then GPacketHandler header.id buffer len else .outOfBounds

/-- A table with three entries of its own has what it had before everywhere else. -/
theorem table_of_ne {β : Type} {a b c id : Nat} (hc : id ≠ c) (hb : id ≠ b) (ha : id ≠ a) (f : Nat → β) (x y z : β) :
    update (update (update f a x) b y) c z id = f id := by
  rw [update_of_ne hc, update_of_ne hb, update_of_ne ha]

/-! ## ClientPacketHandler.h, on the server -/

inductive ClientPacket
  | C_LOGIN (pkt : Protocol.C_LOGIN)
  | C_ENTER_GAME (pkt : Protocol.C_ENTER_GAME)
  | C_CHAT (pkt : Protocol.C_CHAT)
  deriving DecidableEq, Repr

inductive ServerPacket
  | S_LOGIN (pkt : Protocol.S_LOGIN)
  | S_ENTER_GAME (pkt : Protocol.S_ENTER_GAME)
  | S_CHAT (pkt : Protocol.S_CHAT)
  deriving DecidableEq, Repr

namespace ClientPacketHandler

/-- The calls of the handlers of Server/ClientPacketHandler.cpp. -/
inductive Call
  | Handle_INVALID
  | Handle_C_LOGIN (pkt : Protocol.C_LOGIN)
  | Handle_C_ENTER_GAME (pkt : Protocol.C_ENTER_GAME)
  | Handle_C_CHAT (pkt : Protocol.C_CHAT)
  deriving DecidableEq, Repr

/-- `GPacketHandler` after `ClientPacketHandler::Init`. -/
def init (pb : Protobuf) : Nat → PacketHandlerFunc Call :=
  update (update (update (fun _ _ _ => .called .Handle_INVALID)
    PKT_C_LOGIN (handlePacketAs pb.C_LOGIN .Handle_C_LOGIN))
    PKT_C_ENTER_GAME (handlePacketAs pb.C_ENTER_GAME .Handle_C_ENTER_GAME))
    PKT_C_CHAT (handlePacketAs pb.C_CHAT .Handle_C_CHAT)

theorem init_of_ne (pb : Protobuf) {id : Nat} (hchat : id ≠ PKT_C_CHAT) (henter : id ≠ PKT_C_ENTER_GAME)
    (hlogin : id ≠ PKT_C_LOGIN) : init pb id = fun _ _ => .called .Handle_INVALID :=
  table_of_ne hchat henter hlogin ..

/-- The overloads of `ClientPacketHandler::MakeSendBuffer`. -/
def makeSendBuffer (pb : Protobuf) (t : Tid) (s : BufferState Tid) : ServerPacket → Option (BufferState Tid × Nat)
  | .S_LOGIN pkt => Geon.makeSendBuffer pb.S_LOGIN pkt PKT_S_LOGIN t s
  | .S_ENTER_GAME pkt => Geon.makeSendBuffer pb.S_ENTER_GAME pkt PKT_S_ENTER_GAME t s
  | .S_CHAT pkt => Geon.makeSendBuffer pb.S_CHAT pkt PKT_S_CHAT t s

end ClientPacketHandler

/-! ## ServerPacketHandler.h, on the client -/

namespace ServerPacketHandler

/-- The calls of the handlers of DummyClient/ServerPacketHandler.cpp. -/
inductive Call
  | Handle_INVALID
  | Handle_S_LOGIN (pkt : Protocol.S_LOGIN)
  | Handle_S_ENTER_GAME (pkt : Protocol.S_ENTER_GAME)
  | Handle_S_CHAT (pkt : Protocol.S_CHAT)
  deriving DecidableEq, Repr

/-- `GPacketHandler` after `ServerPacketHandler::Init`. -/
def init (pb : Protobuf) : Nat → PacketHandlerFunc Call :=
  update (update (update (fun _ _ _ => .called .Handle_INVALID)
    PKT_S_LOGIN (handlePacketAs pb.S_LOGIN .Handle_S_LOGIN))
    PKT_S_ENTER_GAME (handlePacketAs pb.S_ENTER_GAME .Handle_S_ENTER_GAME))
    PKT_S_CHAT (handlePacketAs pb.S_CHAT .Handle_S_CHAT)

theorem init_of_ne (pb : Protobuf) {id : Nat} (hchat : id ≠ PKT_S_CHAT) (henter : id ≠ PKT_S_ENTER_GAME)
    (hlogin : id ≠ PKT_S_LOGIN) : init pb id = fun _ _ => .called .Handle_INVALID :=
  table_of_ne hchat henter hlogin ..

/-- The overloads of `ServerPacketHandler::MakeSendBuffer`. -/
def makeSendBuffer (pb : Protobuf) (t : Tid) (s : BufferState Tid) : ClientPacket → Option (BufferState Tid × Nat)
  | .C_LOGIN pkt => Geon.makeSendBuffer pb.C_LOGIN pkt PKT_C_LOGIN t s
  | .C_ENTER_GAME pkt => Geon.makeSendBuffer pb.C_ENTER_GAME pkt PKT_C_ENTER_GAME t s
  | .C_CHAT pkt => Geon.makeSendBuffer pb.C_CHAT pkt PKT_C_CHAT t s

end ServerPacketHandler

end Geon
