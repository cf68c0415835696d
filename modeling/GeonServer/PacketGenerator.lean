import GeonServer.Packet
import GeonServer.ProtoParser
/-!
# PacketGenerator — the two generated headers

Tools/PacketGenerator/PacketGenerator.py, the loops of Templates/PacketHandler.h and the two runs of GenPackets.bat.
A header is the declarations the loops write, and what C++ makes of them: the value of an enumerator, the table
`GPacketHandler` after `Init`, and the id that the overload of `MakeSendBuffer` for a type puts into the header of a
packet.  The headers of the two runs dispatch each other's packets (`headers_agree`).
-/
namespace Geon

open Function

/-! ## Assignments at distinct keys -/

section

variable {κ β : Type*} [DecidableEq κ]

/-- `f` after these assignments. -/
def assigned (f : κ → β) (l : List (κ × β)) : κ → β := l.foldl (fun f p => update f p.1 p.2) f

theorem assigned_of_not_mem {k : κ} : ∀ (l : List (κ × β)) (f : κ → β), k ∉ l.map Prod.fst → assigned f l k = f k
  | [], _, _ => rfl
  | p :: l, f, h => by
    rw [List.map_cons, List.mem_cons, not_or] at h
    rw [assigned, List.foldl_cons]
    exact (assigned_of_not_mem l _ h.2).trans (update_of_ne h.1 _ _)

theorem assigned_of_mem {k : κ} {v : β} : ∀ (l : List (κ × β)) (f : κ → β), (l.map Prod.fst).Nodup → (k, v) ∈ l →
    assigned f l k = v
  | [], _, _, h => by cases h
  | p :: l, f, hnodup, h => by
    rw [List.map_cons, List.nodup_cons] at hnodup
    rw [assigned, List.foldl_cons]
    rcases List.mem_cons.1 h with rfl | h
    · exact (assigned_of_not_mem l _ hnodup.1).trans (update_self ..)
    · exact assigned_of_mem l _ hnodup.2 h

/-- The element at key `k`, if there is exactly one. -/
def only {α : Type*} (key : α → κ) (k : κ) (l : List α) : Option α :=
  match l.filter (fun a => key a = k) with
  | [a] => some a
  | _ => none

theorem only_of_nodup {α : Type*} {key : α → κ} {l : List α} (h : (l.map key).Nodup) {a : α} (ha : a ∈ l) :
    only key (key a) l = some a := by
  have hfilter : l.filter (fun b => key b = key a) = [a] := by
    induction l with
    | nil => cases ha
    | cons b l ih =>
      rw [List.map_cons, List.nodup_cons] at h
      rcases List.mem_cons.1 ha with rfl | ha
      · rw [List.filter_cons_of_pos (by simp), List.filter_eq_nil_iff.2]
        intro c hc
        simp only [decide_eq_true_eq]
        exact fun hkey => h.1 (hkey ▸ List.mem_map_of_mem hc)
      · have hne : key b ≠ key a := fun hkey => h.1 (hkey ▸ List.mem_map_of_mem ha)
        rw [List.filter_cons_of_neg (by simpa using hne), ih h.2 ha]
  rw [only, hfilter]

theorem mem_of_only {α : Type*} {key : α → κ} {k : κ} {l : List α} {a : α} (h : only key k l = some a) :
    a ∈ l ∧ key a = k := by
  unfold only at h
  split at h
  · rename_i b hfilter
    cases h
    have hmem : a ∈ l.filter (fun a => key a = k) := by rw [hfilter]; exact List.mem_singleton_self a
    simpa using hmem
  · cases h

end

namespace PacketGenerator

/-! ## The template -/

/-- `GPacketHandler[PKT_pkt] = HandlePacket<Protocol::type>(Handle_func, …)`. -/
structure Registration where
  pkt : Name
  type : Name
  func : Name
  deriving DecidableEq, Repr

/-- `MakeSendBuffer(Protocol::type& pkt) { return MakeSendBuffer(pkt, PKT_pkt); }`. -/
structure Overload where
  type : Name
  pkt : Name
  deriving DecidableEq, Repr

/-- What the loops of the template write: the enumerators `PKT_name = id`, the declarations of the functions
`Handle_name`, the registrations of `Init`, and the overloads of `MakeSendBuffer`. -/
structure Header where
  enumerators : List Packet
  handlers : List Name
  registrations : List Registration
  overloads : List Overload
  deriving DecidableEq, Repr

/-- Templates/PacketHandler.h. -/
def packetHandler (parser : ProtoParser) : Header where
  enumerators := parser.totalPkt
  handlers := parser.recvPkt.map (fun pkt => pkt.name)
  registrations := parser.recvPkt.map (fun pkt => ⟨pkt.name, pkt.name, pkt.name⟩)
  overloads := parser.sendPkt.map (fun pkt => ⟨pkt.name, pkt.name⟩)

/-- `main` of PacketGenerator.py up to the template. -/
def packetGenerator (upper : Name → Name) (recv send : Name) (text : List Char) : Option ProtoParser :=
  ProtoParser.parseProto upper (ProtoParser.new 1000 recv send) text

/-! ## What C++ makes of a header -/

/-- An entry of `GPacketHandler`. -/
inductive PacketHandlerFunc
  | Handle_INVALID
  | HandlePacket (type func : Name)
  deriving DecidableEq, Repr

namespace Header

/-- The value of `PKT_name`; `none` when the header does not compile: it is not declared, or declared twice, or is no
`uint16`. -/
def enumerator (h : Header) (name : Name) : Option Nat :=
  match only Packet.name name h.enumerators with
  | none => none
  | some pkt => if pkt.id ≤ UINT16_MAX then some pkt.id else none

/-- One registration of `Init`; `none` when it does not compile or is outside the table. -/
def register (h : Header) (GPacketHandler : Nat → PacketHandlerFunc) (r : Registration) :
    Option (Nat → PacketHandlerFunc) :=
  match h.enumerator r.pkt with
  | none => none
  | some id =>
    if id < UINT16_MAX ∧ r.func ∈ h.handlers then some (update GPacketHandler id (.HandlePacket r.type r.func))
    else none

/-- `GPacketHandler` after `Init`. -/
def init (h : Header) : Option (Nat → PacketHandlerFunc) :=
  h.registrations.foldlM h.register (fun _ => .Handle_INVALID)

/-- The id `MakeSendBuffer` writes for a packet of this type. -/
def makeSendBuffer (h : Header) (type : Name) : Option Nat :=
  match only Overload.type type h.overloads with
  | none => none
  | some overload => h.enumerator overload.pkt

end Header

/-- **One side dispatches what the other one makes**: every packet that is sent has a `MakeSendBuffer`, which writes its
id, every packet that is received is in the table at its id, and the id written for a type is the one at which the table
has the handler of this type. -/
structure Dispatches (sender receiver : ProtoParser) : Prop where
  written : ∀ pkt ∈ sender.sendPkt, (packetHandler sender).makeSendBuffer pkt.name = some pkt.id
  registered : ∃ GPacketHandler, (packetHandler receiver).init = some GPacketHandler ∧
    (∀ pkt ∈ receiver.recvPkt, GPacketHandler pkt.id = .HandlePacket pkt.name pkt.name) ∧
    ∀ type id, (packetHandler sender).makeSendBuffer type = some id ↔ GPacketHandler id = .HandlePacket type type

/-! ## Headers of numbered packets -/

/-- The packets have names and ids of their own, ids of the table, and are all declared. -/
structure Numbered (parser : ProtoParser) : Prop where
  names : (parser.totalPkt.map Packet.name).Nodup
  ids : (parser.totalPkt.map Packet.id).Nodup
  fits : ∀ pkt ∈ parser.totalPkt, pkt.id < UINT16_MAX
  received : parser.recvPkt.Sublist parser.totalPkt
  sent : parser.sendPkt.Sublist parser.totalPkt

/-- What `Init` needs: names and ids of their own, ids that are a `uint16`, and ids of the table for what is
received. -/
structure Registers (parser : ProtoParser) : Prop where
  names : (parser.totalPkt.map Packet.name).Nodup
  ids : (parser.totalPkt.map Packet.id).Nodup
  fits : ∀ pkt ∈ parser.totalPkt, pkt.id ≤ UINT16_MAX
  table : ∀ pkt ∈ parser.recvPkt, pkt.id < UINT16_MAX
  received : parser.recvPkt.Sublist parser.totalPkt

variable {parser : ProtoParser}

theorem Numbered.registers (h : Numbered parser) : Registers parser where
  names := h.names
  ids := h.ids
  fits pkt hpkt := Nat.le_of_lt (h.fits pkt hpkt)
  table pkt hpkt := h.fits pkt (h.received.subset hpkt)
  received := h.received

theorem enumerator_packetHandler (hnames : (parser.totalPkt.map Packet.name).Nodup) {pkt : Packet}
    (hpkt : pkt ∈ parser.totalPkt) (hid : pkt.id ≤ UINT16_MAX) :
    (packetHandler parser).enumerator pkt.name = some pkt.id := by
  have honly : only Packet.name pkt.name (packetHandler parser).enumerators = some pkt := only_of_nodup hnames hpkt
  rw [Header.enumerator, honly]
  exact if_pos hid

theorem Registers.enumerator (h : Registers parser) {pkt : Packet} (hpkt : pkt ∈ parser.totalPkt) :
    (packetHandler parser).enumerator pkt.name = some pkt.id :=
  enumerator_packetHandler h.names hpkt (h.fits pkt hpkt)

theorem makeSendBuffer_packetHandler (h : Numbered parser) (type : Name) (id : Nat) :
    (packetHandler parser).makeSendBuffer type = some id ↔ ⟨type, id⟩ ∈ parser.sendPkt := by
  have htypes : ((packetHandler parser).overloads.map Overload.type).Nodup := by
    have hnames := h.names.sublist (h.sent.map Packet.name)
    simpa [packetHandler, comp_def] using hnames
  unfold Header.makeSendBuffer
  constructor
  · intro hmake
    split at hmake
    · cases hmake
    · rename_i overload honly
      obtain ⟨hmem, rfl⟩ := mem_of_only honly
      obtain ⟨pkt, hpkt, rfl⟩ := List.mem_map.1 hmem
      rw [h.registers.enumerator (h.sent.subset hpkt)] at hmake
      cases hmake
      exact hpkt
  · intro hpkt
    have hmem : (⟨type, type⟩ : Overload) ∈ (packetHandler parser).overloads := List.mem_map.2 ⟨_, hpkt, rfl⟩
    rw [show only Overload.type type _ = _ from only_of_nodup htypes hmem]
    exact h.registers.enumerator (h.sent.subset hpkt)

theorem foldlM_register (h : Registers parser) : ∀ (pkts : List Packet) (GPacketHandler : Nat → PacketHandlerFunc),
    (∀ pkt ∈ pkts, pkt ∈ parser.recvPkt) →
      (pkts.map (fun pkt => (⟨pkt.name, pkt.name, pkt.name⟩ : Registration))).foldlM (packetHandler parser).register
        GPacketHandler =
      some (assigned GPacketHandler (pkts.map (fun pkt => (pkt.id, .HandlePacket pkt.name pkt.name))))
  | [], _, _ => rfl
  | pkt :: pkts, GPacketHandler, hsub => by
    have hpkt := hsub pkt List.mem_cons_self
    have htotal := h.received.subset hpkt
    have hreg : (packetHandler parser).register GPacketHandler ⟨pkt.name, pkt.name, pkt.name⟩ =
        some (update GPacketHandler pkt.id (.HandlePacket pkt.name pkt.name)) := by
      rw [Header.register, h.enumerator htotal]
      exact if_pos ⟨h.table pkt hpkt, List.mem_map_of_mem hpkt⟩
    rw [List.map_cons, List.foldlM_cons, hreg, Option.bind_eq_bind, Option.bind_some,
      foldlM_register h pkts _ (fun q hq => hsub q (List.mem_cons_of_mem _ hq))]
    rfl

/-- **`Init` registers exactly the packets received**, each at its id, and every other entry is `Handle_INVALID`. -/
theorem init_packetHandler (h : Registers parser) : ∃ GPacketHandler,
    (packetHandler parser).init = some GPacketHandler ∧
      (∀ pkt ∈ parser.recvPkt, GPacketHandler pkt.id = .HandlePacket pkt.name pkt.name) ∧
      ∀ id, (∀ pkt ∈ parser.recvPkt, pkt.id ≠ id) → GPacketHandler id = .Handle_INVALID := by
  refine ⟨_, foldlM_register h parser.recvPkt _ (fun pkt hpkt => hpkt), fun pkt hpkt => ?_, fun id hid => ?_⟩
  · have hids := h.ids.sublist (h.received.map Packet.id)
    refine assigned_of_mem _ _ ?_ (List.mem_map.2 ⟨pkt, hpkt, rfl⟩)
    simpa [comp_def] using hids
  · refine assigned_of_not_mem _ _ ?_
    simpa [comp_def] using hid

theorem init_at_type (h : Registers parser) : ∃ GPacketHandler,
    (packetHandler parser).init = some GPacketHandler ∧ ∀ type id,
      GPacketHandler id = .HandlePacket type type ↔ ⟨type, id⟩ ∈ parser.recvPkt := by
  obtain ⟨GPacketHandler, hinit, hreceived, hother⟩ := init_packetHandler h
  refine ⟨GPacketHandler, hinit, fun type id => ⟨fun htable => ?_, fun hpkt => hreceived _ hpkt⟩⟩
  by_cases hid : ∃ pkt ∈ parser.recvPkt, pkt.id = id
  · obtain ⟨pkt, hpkt, rfl⟩ := hid
    rw [hreceived pkt hpkt] at htable
    cases htable
    exact hpkt
  · rw [hother id (fun pkt hpkt he => hid ⟨pkt, hpkt, he⟩)] at htable
    cases htable

theorem dispatches_of_lists {sender receiver : ProtoParser} (hs : Numbered sender) (hr : Numbered receiver)
    (h : sender.sendPkt = receiver.recvPkt) : Dispatches sender receiver := by
  refine ⟨fun pkt hpkt => (makeSendBuffer_packetHandler hs _ _).2 hpkt, ?_⟩
  obtain ⟨GPacketHandler, hinit, htable⟩ := init_at_type hr.registers
  refine ⟨GPacketHandler, hinit, fun pkt hpkt => (htable _ _).2 hpkt, fun type id => ?_⟩
  rw [makeSendBuffer_packetHandler hs, htable, h]

/-! ## The two runs of GenPackets.bat -/

/-- The upper-cased names of the messages with the prefix of a packet. -/
def packetNames (upper : Name → Name) (text : List Char) : List Name :=
  (messageNames upper text).filter
    (fun name => startswith name "C_".toList || startswith name "S_".toList)

theorem startswith_C_not_S (name : Name) (h : startswith name "C_".toList = true) :
    startswith name "S_".toList = false := by
  cases name with
  | nil => rfl
  | cons c cs =>
    have hc : 'C' = c := by
      have hcons : (['C', '_'] : List Char).isPrefixOf (c :: cs) = true := h
      rw [List.isPrefixOf_cons_cons, Bool.and_eq_true] at hcons
      exact beq_iff_eq.1 hcons.1
    subst hc
    rfl

/-- The packets of a file are numbered, whichever prefix is which. -/
theorem numbered_file {p q : Name} {start : Nat} {names : List Name}
    (hdistinct : (names.filter (ProtoParser.new start p q).prefixed).Nodup)
    (hfew : start + (names.filter (ProtoParser.new start p q).prefixed).length ≤ UINT16_MAX) :
    Numbered ((ProtoParser.new start p q).file names) := by
  have htotal : ((ProtoParser.new start p q).file names).totalPkt =
      numbered start (names.filter (ProtoParser.new start p q).prefixed) := rfl
  refine ⟨?_, ?_, fun pkt hpkt => ?_, ?_, ?_⟩
  · rw [htotal, numbered_names]
    exact hdistinct
  · rw [htotal, numbered_ids]
    exact List.nodup_range'
  · rw [htotal] at hpkt
    have hid := List.mem_map_of_mem (f := Packet.id) hpkt
    rw [numbered_ids, List.mem_range'_1] at hid
    omega
  · exact List.filter_sublist
  · exact List.filter_sublist

/-- **The two headers agree**: on every file `parse_proto` does not raise on, whose packets have names of their own, the
run for the other side does not raise either, both number the same packets the same way, consecutively from 1000 on,
what one receives is what the other sends, and each dispatches what the other makes. -/
theorem headers_agree (upper : Name → Name) (text : List Char) {client : ProtoParser}
    (hclient : packetGenerator upper "C_".toList "S_".toList text = some client)
    (hfew : (packetNames upper text).length < 64000) (hdistinct : (packetNames upper text).Nodup) :
    ∃ server, packetGenerator upper "S_".toList "C_".toList text = some server ∧
      client.totalPkt = server.totalPkt ∧ client.totalPkt.map Packet.name = packetNames upper text ∧
      client.totalPkt.map Packet.id = List.range' 1000 (packetNames upper text).length ∧
      (client.totalPkt.map Packet.id).Nodup ∧
      client.recvPkt = server.sendPkt ∧ client.sendPkt = server.recvPkt ∧
      Dispatches client server ∧ Dispatches server client := by
  obtain ⟨hnamed, rfl⟩ := (ProtoParser.parseProto_eq_some upper _ client text).1 hclient
  obtain ⟨htotal, hrecv, hsend⟩ := ProtoParser.file_exchanged startswith_C_not_S 1000 (messageNames upper text)
  have hexchanged : (messageNames upper text).filter (ProtoParser.new 1000 "S_".toList "C_".toList).prefixed =
      packetNames upper text :=
    List.filter_congr (fun name _ => Bool.or_comm ..)
  have hn₁ : Numbered ((ProtoParser.new 1000 "C_".toList "S_".toList).file (messageNames upper text)) :=
    numbered_file hdistinct (Nat.le_of_lt (Nat.lt_trans (Nat.add_lt_add_left hfew 1000) (by decide)))
  have hn₂ : Numbered ((ProtoParser.new 1000 "S_".toList "C_".toList).file (messageNames upper text)) := by
    refine numbered_file ?_ ?_
    · rw [hexchanged]
      exact hdistinct
    · rw [hexchanged]
      exact Nat.le_of_lt (Nat.lt_trans (Nat.add_lt_add_left hfew 1000) (by decide))
  refine ⟨_, (ProtoParser.parseProto_eq_some upper _ _ text).2 ⟨hnamed, rfl⟩, htotal, ?_, ?_, hn₁.ids, hrecv, hsend,
    dispatches_of_lists hn₁ hn₂ hsend, dispatches_of_lists hn₂ hn₁ hrecv.symm⟩
  · exact numbered_names 1000 (packetNames upper text)
  · exact numbered_ids 1000 (packetNames upper text)

/-! ## Protocol.proto -/

/-- Common/Protobuf/bin/Protocol.proto, without its comment. -/
def protocolProto : List Char :=
  ["syntax = \"proto3\";", "package Protocol;", "", "import \"Enum.proto\";", "import \"Struct.proto\";", "",
    "message C_LOGIN", "\x7b", "", "\x7d", "",
    "message S_LOGIN", "\x7b", "    bool success = 1;", "    repeated Player players = 2;", "\x7d", "",
    "message C_ENTER_GAME", "\x7b", "    uint64 playerIndex = 1;", "\x7d", "",
    "message S_ENTER_GAME", "\x7b", "    bool success = 1;", "\x7d", "",
    "message C_CHAT", "\x7b", "    string msg = 1;", "\x7d", "",
    "message S_CHAT", "\x7b", "    uint64 playerId = 1;", "    string msg = 2;", "\x7d"].flatMap
      (fun line => line.toList ++ ['\n'])

def asciiUpper (name : Name) : Name := name.map Char.toUpper

/-- What the run for the side with these lists leaves. -/
def protocolParser (recvPrefix sendPrefix : Name) (recvPkt sendPkt : List Packet) : ProtoParser :=
  { recvPkt := recvPkt
    sendPkt := sendPkt
    totalPkt := [⟨"C_LOGIN".toList, PKT_C_LOGIN⟩, ⟨"S_LOGIN".toList, PKT_S_LOGIN⟩,
      ⟨"C_ENTER_GAME".toList, PKT_C_ENTER_GAME⟩, ⟨"S_ENTER_GAME".toList, PKT_S_ENTER_GAME⟩,
      ⟨"C_CHAT".toList, PKT_C_CHAT⟩, ⟨"S_CHAT".toList, PKT_S_CHAT⟩]
    startId := 1000
    id := 1006
    recvPrefix := recvPrefix
    sendPrefix := sendPrefix }

def protocolC : List Packet :=
  [⟨"C_LOGIN".toList, PKT_C_LOGIN⟩, ⟨"C_ENTER_GAME".toList, PKT_C_ENTER_GAME⟩, ⟨"C_CHAT".toList, PKT_C_CHAT⟩]

def protocolS : List Packet :=
  [⟨"S_LOGIN".toList, PKT_S_LOGIN⟩, ⟨"S_ENTER_GAME".toList, PKT_S_ENTER_GAME⟩, ⟨"S_CHAT".toList, PKT_S_CHAT⟩]

def protocolNames : List Name :=
  ["C_LOGIN".toList, "S_LOGIN".toList, "C_ENTER_GAME".toList, "S_ENTER_GAME".toList, "C_CHAT".toList, "S_CHAT".toList]

theorem protocol_named : ∀ line ∈ readlines protocolProto, Named line := by
  decide +kernel

theorem protocol_messages : messageNames asciiUpper protocolProto = protocolNames := by
  decide +kernel

theorem protocol_client : packetGenerator asciiUpper "C_".toList "S_".toList protocolProto =
    some (protocolParser "C_".toList "S_".toList protocolC protocolS) := by
  refine (ProtoParser.parseProto_eq_some asciiUpper _ _ protocolProto).2 ⟨protocol_named, ?_⟩
  rw [protocol_messages]
  decide

theorem protocol_server : packetGenerator asciiUpper "S_".toList "C_".toList protocolProto =
    some (protocolParser "S_".toList "C_".toList protocolS protocolC) := by
  refine (ProtoParser.parseProto_eq_some asciiUpper _ _ protocolProto).2 ⟨protocol_named, ?_⟩
  rw [protocol_messages]
  decide

theorem protocol_packets : packetNames asciiUpper protocolProto = protocolNames := by
  rw [packetNames, protocol_messages]
  decide

theorem headers_agree_protocol : ∃ server, packetGenerator asciiUpper "S_".toList "C_".toList protocolProto = some server ∧
    Dispatches (protocolParser "C_".toList "S_".toList protocolC protocolS) server := by
  obtain ⟨server, hserver, -, -, -, -, -, -, hdispatch, -⟩ :=
    headers_agree asciiUpper protocolProto protocol_client (by rw [protocol_packets]; decide)
      (by rw [protocol_packets]; decide)
  exact ⟨server, hserver, hdispatch⟩

/-- The function an entry is, where the types have these. -/
def PacketHandlerFunc.meaning {F : Type} (invalid : F) (handlers : List (Name × F)) : PacketHandlerFunc → Option F
  | .Handle_INVALID => some invalid
  | .HandlePacket type func => if func = type then handlers.lookup type else none

/-- **ClientPacketHandler.h is the header of the first run.** -/
theorem protocol_client_table (pb : Protobuf) : ∃ GPacketHandler,
    (packetHandler (protocolParser "C_".toList "S_".toList protocolC protocolS)).init = some GPacketHandler ∧
      ∀ id, (GPacketHandler id).meaning (fun _ _ => .called .Handle_INVALID)
        [("C_LOGIN".toList, handlePacketAs pb.C_LOGIN .Handle_C_LOGIN),
          ("C_ENTER_GAME".toList, handlePacketAs pb.C_ENTER_GAME .Handle_C_ENTER_GAME),
          ("C_CHAT".toList, handlePacketAs pb.C_CHAT .Handle_C_CHAT)] = some (ClientPacketHandler.init pb id) := by
  refine ⟨update (update (update (fun _ => .Handle_INVALID)
    PKT_C_LOGIN (.HandlePacket "C_LOGIN".toList "C_LOGIN".toList))
    PKT_C_ENTER_GAME (.HandlePacket "C_ENTER_GAME".toList "C_ENTER_GAME".toList))
    PKT_C_CHAT (.HandlePacket "C_CHAT".toList "C_CHAT".toList), rfl, fun id => ?_⟩
  rcases eq_or_ne id PKT_C_CHAT with rfl | hchat
  · rfl
  rcases eq_or_ne id PKT_C_ENTER_GAME with rfl | henter
  · rfl
  rcases eq_or_ne id PKT_C_LOGIN with rfl | hlogin
  · rfl
  rw [table_of_ne hchat henter hlogin, ClientPacketHandler.init_of_ne pb hchat henter hlogin]
  rfl

/-- **ServerPacketHandler.h is the header of the second run.** -/
theorem protocol_server_table (pb : Protobuf) : ∃ GPacketHandler,
    (packetHandler (protocolParser "S_".toList "C_".toList protocolS protocolC)).init = some GPacketHandler ∧
      ∀ id, (GPacketHandler id).meaning (fun _ _ => .called .Handle_INVALID)
        [("S_LOGIN".toList, handlePacketAs pb.S_LOGIN .Handle_S_LOGIN),
          ("S_ENTER_GAME".toList, handlePacketAs pb.S_ENTER_GAME .Handle_S_ENTER_GAME),
          ("S_CHAT".toList, handlePacketAs pb.S_CHAT .Handle_S_CHAT)] = some (ServerPacketHandler.init pb id) := by
  refine ⟨update (update (update (fun _ => .Handle_INVALID)
    PKT_S_LOGIN (.HandlePacket "S_LOGIN".toList "S_LOGIN".toList))
    PKT_S_ENTER_GAME (.HandlePacket "S_ENTER_GAME".toList "S_ENTER_GAME".toList))
    PKT_S_CHAT (.HandlePacket "S_CHAT".toList "S_CHAT".toList), rfl, fun id => ?_⟩
  rcases eq_or_ne id PKT_S_CHAT with rfl | hchat
  · rfl
  rcases eq_or_ne id PKT_S_ENTER_GAME with rfl | henter
  · rfl
  rcases eq_or_ne id PKT_S_LOGIN with rfl | hlogin
  · rfl
  rw [table_of_ne hchat henter hlogin, ServerPacketHandler.init_of_ne pb hchat henter hlogin]
  rfl

end PacketGenerator
end Geon
