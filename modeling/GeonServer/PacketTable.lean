import GeonServer.PacketGenerator
/-!
# PacketTable — the table has one entry less than there are ids

`Init` of a generated header fills `GPacketHandler` with `Handle_INVALID` and then registers the packets received, and
`HandlePacket` calls the entry of the id in the header of the packet.  The table has `UINT16_MAX` entries, so every id
goes to the one function it is meant for but the last one, which is outside (`dispatch_exact_iff`).
-/
namespace Geon
namespace PacketGenerator

open Function

/-! ## Filling the table -/

/-- `GPacketHandler`; an entry that has not been assigned holds no function. -/
abbrev Table : Type := Nat → Option PacketHandlerFunc

/-- `GPacketHandler[id] = f;` for these ids one after another, `none` when one is outside the table. -/
def stores (table : Table) (l : List (Nat × PacketHandlerFunc)) : Option Table :=
  l.foldlM (fun table p => if p.1 < UINT16_MAX then some (update table p.1 (some p.2)) else none) table

/-- A registration as a statement about the table; `none` when it does not compile. -/
def Header.statement (h : Header) (r : Registration) : Option (Nat × PacketHandlerFunc) := do
  let id ← h.enumerator r.pkt
  if h.handlers.contains r.func then some (id, .HandlePacket r.type r.func) else none

/-- `Init`: the loop over the table, and the registrations; `none` when it does not compile or stores outside. -/
def Header.fill (h : Header) : Option Table := do
  let statements ← h.registrations.mapM h.statement
  let table ← stores (fun _ => none) ((List.range UINT16_MAX).map (fun i => (i, .Handle_INVALID)))
  stores table statements

/-- The table with these entries. -/
def entries (f : Nat → PacketHandlerFunc) : Table := fun id => if id < UINT16_MAX then some (f id) else none

theorem update_entries (f : Nat → PacketHandlerFunc) {id : Nat} (hid : id < UINT16_MAX) (g : PacketHandlerFunc) :
    update (entries f) id (some g) = entries (update f id g) := by
  funext i
  by_cases hi : i = id
  · subst hi
    rw [update_self, entries, if_pos hid, update_self]
  · rw [update_of_ne hi, entries, entries, update_of_ne hi]

/-- The loop of `Init` so far. -/
theorem stores_range (n : Nat) (hn : n ≤ UINT16_MAX) :
    stores (fun _ => none) ((List.range n).map (fun i => (i, .Handle_INVALID))) =
      some (fun id => if id < n then some .Handle_INVALID else none) := by
  induction n with
  | zero => rfl
  | succ n ih =>
    have ih := ih (Nat.le_of_succ_le hn)
    unfold stores at ih ⊢
    rw [List.range_succ, List.map_append, List.foldlM_append, ih]
    simp only [List.map_cons, List.map_nil, List.foldlM_cons, List.foldlM_nil, Option.bind_eq_bind, Option.bind_some,
      if_pos (Nat.lt_of_succ_le hn)]
    refine congrArg some (funext fun i => ?_)
    by_cases hi : i = n
    · subst hi
      rw [update_self, if_pos (Nat.lt_succ_self i)]
    · rw [update_of_ne hi]
      exact if_congr (by omega) rfl rfl

theorem register_eq (h : Header) (f : Nat → PacketHandlerFunc) (r : Registration) :
    h.register f r =
      (h.statement r).bind (fun p => if p.1 < UINT16_MAX then some (update f p.1 p.2) else none) := by
  unfold Header.register Header.statement
  cases h.enumerator r.pkt with
  | none => rfl
  | some id =>
    rw [Option.bind_eq_bind, Option.bind_some]
    simp only [List.contains_iff_mem]
    by_cases hfunc : r.func ∈ h.handlers
    · simp only [hfunc, and_true, if_true, Option.bind_some]
    · simp only [hfunc, and_false, if_false, Option.bind_none]

/-- The statements of `Init` register what `Header.init` registers. -/
theorem stores_statements (h : Header) : ∀ (rs : List Registration) (f : Nat → PacketHandlerFunc),
    (rs.mapM h.statement).bind (stores (entries f)) = (rs.foldlM h.register f).map entries
  | [], _ => rfl
  | r :: rs, f => by
    rw [List.mapM_cons, List.foldlM_cons, register_eq, Option.bind_eq_bind, Option.bind_eq_bind]
    cases h.statement r with
    | none => rfl
    | some p =>
      have hcons : ∀ table l, stores table (p :: l) =
          if p.1 < UINT16_MAX then stores (update table p.1 (some p.2)) l else none := by
        intro table l
        rw [stores, List.foldlM_cons]
        split <;> rfl
      simp only [Option.bind_eq_bind, Option.bind_some, Option.bind_assoc, Option.pure_def, hcons]
      by_cases hid : p.1 < UINT16_MAX
      · simp only [if_pos hid, Option.bind_some, update_entries f hid]
        exact stores_statements h rs _
      · simp only [if_neg hid, Option.bind_none]
        cases rs.mapM h.statement <;> rfl

/-- **`Init` leaves the whole table assigned**, with the entries of `Header.init`. -/
theorem fill_eq (h : Header) : h.fill = h.init.map entries := by
  have hloop : stores (fun _ => none) ((List.range UINT16_MAX).map (fun i => (i, .Handle_INVALID))) =
      some (entries (fun _ => .Handle_INVALID)) := stores_range UINT16_MAX (Nat.le_refl _)
  rw [Header.init, ← stores_statements]
  unfold Header.fill
  simp only [hloop, Option.bind_eq_bind, Option.bind_some]

/-! ## Calling the entries -/

/-- The calls of the functions `Handle_name`. -/
inductive Call (Msg : Type)
  | Handle_INVALID
  | Handle (name : Name) (pkt : Msg)

variable {Msg : Type}

/-- The function of an entry, where the types have these classes. -/
def PacketHandlerFunc.function (messages : Name → Message Msg) : PacketHandlerFunc → Geon.PacketHandlerFunc (Call Msg)
  | .Handle_INVALID => fun _ _ => .called .Handle_INVALID
  | .HandlePacket type func => handlePacketAs (messages type) (.Handle func)

/-- `HandlePacket` of a generated header; `none` when the entry holds no function. -/
def Table.handlePacket (messages : Name → Message Msg) (GPacketHandler : Table) (buffer : List BYTE) (len : Nat) :
    Option (Dispatch (Call Msg)) :=
  match readHeader buffer with
  | none => some .outOfBounds
  | some header =>
    if header.id < UINT16_MAX then (GPacketHandler header.id).map (fun f => f.function messages buffer len)
    else some .outOfBounds

theorem handlePacket_entries (messages : Name → Message Msg) (f : Nat → PacketHandlerFunc) (buffer : List BYTE)
    (len : Nat) : Table.handlePacket messages (entries f) buffer len =
      some (Geon.handlePacket (fun id => (f id).function messages) buffer len) := by
  unfold Table.handlePacket Geon.handlePacket
  cases readHeader buffer with
  | none => rfl
  | some header =>
    dsimp only
    by_cases hid : header.id < UINT16_MAX
    · rw [if_pos hid, if_pos hid, entries, if_pos hid, Option.map_some]
    · rw [if_neg hid, if_neg hid]

/-- **Exact dispatch** of a packet: `Init` stays inside the table, and `HandlePacket` calls one function inside it, the
handler of the message received under the id of the packet if the body parses, and `Handle_INVALID` if there is no such
message. -/
def Exact (parser : ProtoParser) (messages : Name → Message Msg) (buffer : List BYTE) (len : Nat) : Prop :=
  ∃ GPacketHandler handled header, (packetHandler parser).fill = some GPacketHandler ∧
    GPacketHandler.handlePacket messages buffer len = some handled ∧ readHeader buffer = some header ∧
    handled ≠ .outOfBounds ∧
    (∀ pkt ∈ parser.recvPkt, pkt.id = header.id → handled =
      match (messages pkt.name).parseFromArray (buffer.drop sizeofPacketHeader) ((len : Int) - sizeofPacketHeader) with
      | some m => .called (.Handle pkt.name m)
      | none => .rejected) ∧
    ((∀ pkt ∈ parser.recvPkt, pkt.id ≠ header.id) → handled = .called .Handle_INVALID)

/-! ## Which packets are dispatched -/

theorem register_inside (h : Header) : ∀ (rs : List Registration) (f g : Nat → PacketHandlerFunc),
    rs.foldlM h.register f = some g → ∀ r ∈ rs, ∃ id, h.enumerator r.pkt = some id ∧ id < UINT16_MAX
  | [], _, _, _, r, hr => by cases hr
  | r :: rs, f, g, hfold, r', hr' => by
    rw [List.foldlM_cons] at hfold
    obtain ⟨f', hreg, hfold⟩ := Option.bind_eq_some_iff.1 hfold
    rcases List.mem_cons.1 hr' with rfl | hr'
    · unfold Header.register at hreg
      split at hreg
      · cases hreg
      · rename_i id henum
        split at hreg
        · rename_i hid
          exact ⟨id, henum, hid.1⟩
        · cases hreg
    · exact register_inside h rs f' g hfold r' hr'

theorem packetGenerator_ids {upper : Name → Name} {recv send : Name} {text : List Char} {parser : ProtoParser}
    (hgen : packetGenerator upper recv send text = some parser) :
    (parser.totalPkt.map Packet.id).Nodup ∧ parser.recvPkt.Sublist parser.totalPkt := by
  obtain ⟨-, rfl⟩ := (ProtoParser.parseProto_eq_some upper _ parser text).1 hgen
  refine ⟨?_, List.filter_sublist⟩
  have hids := numbered_ids 1000 ((messageNames upper text).filter (ProtoParser.new 1000 recv send).prefixed)
  show ((numbered 1000 _).map Packet.id).Nodup
  rw [hids]
  exact List.nodup_range'

theorem handlePacket_last {messages : Name → Message Msg} {buffer : List BYTE} {header : PacketHeader}
    (hheader : readHeader buffer = some header) (hid : header.id = UINT16_MAX) (GPacketHandler : Table) (len : Nat) :
    GPacketHandler.handlePacket messages buffer len = some .outOfBounds := by
  simp only [Table.handlePacket, hheader, hid, Nat.lt_irrefl, if_false]

theorem readHeader_id_lt (xs : List BYTE) (h : PacketHeader) (hx : readHeader xs = some h) : h.id < 65536 := by
  unfold readHeader at hx
  split at hx
  · cases hx
    exact uint16_lt _ _
  · cases hx

theorem exact_of_registers {parser : ProtoParser} (h : Registers parser) (messages : Name → Message Msg)
    {buffer : List BYTE} {header : PacketHeader} (hheader : readHeader buffer = some header)
    (hid : header.id < UINT16_MAX) (len : Nat) : Exact parser messages buffer len := by
  obtain ⟨f, hinit, hreceived, hother⟩ := init_packetHandler h
  have hcall : Geon.handlePacket (fun id => (f id).function messages) buffer len =
      (f header.id).function messages buffer len := by
    simp only [Geon.handlePacket, hheader, if_pos hid]
  have hknown : ∀ pkt ∈ parser.recvPkt, pkt.id = header.id →
      (f header.id).function messages buffer len = handlePacketAs (messages pkt.name) (.Handle pkt.name) buffer len := by
    intro pkt hpkt he
    rw [← he, hreceived pkt hpkt]
    rfl
  have hinvalid : (∀ pkt ∈ parser.recvPkt, pkt.id ≠ header.id) →
      (f header.id).function messages buffer len = .called .Handle_INVALID := by
    intro hnone
    rw [hother header.id hnone]
    rfl
  refine ⟨entries f, _, header, by rw [fill_eq, hinit, Option.map_some], handlePacket_entries messages f buffer len,
    hheader, ?_, fun pkt hpkt he => ?_, fun hnone => by rw [hcall, hinvalid hnone]⟩
  · rw [hcall]
    by_cases hsome : ∃ pkt ∈ parser.recvPkt, pkt.id = header.id
    · obtain ⟨pkt, hpkt, he⟩ := hsome
      rw [hknown pkt hpkt he, handlePacketAs]
      split <;> simp
    · rw [hinvalid (fun pkt hpkt he => hsome ⟨pkt, hpkt, he⟩)]
      simp
  · rw [hcall, hknown pkt hpkt he, handlePacketAs]
    cases (messages pkt.name).parseFromArray _ _ <;> rfl

/-- **A packet is dispatched exactly when neither its id nor that of a message received is the last `uint16`**, in
every generated header that compiles. -/
theorem dispatch_exact_iff {upper : Name → Name} {recv send : Name} {text : List Char} {parser : ProtoParser}
    (hgen : packetGenerator upper recv send text = some parser)
    (hcompiles : (parser.totalPkt.map Packet.name).Nodup) (hids : ∀ pkt ∈ parser.totalPkt, pkt.id ≤ UINT16_MAX)
    (messages : Name → Message Msg) {buffer : List BYTE} {header : PacketHeader}
    (hheader : readHeader buffer = some header) (len : Nat) :
    Exact parser messages buffer len ↔
      header.id ≠ UINT16_MAX ∧ ∀ pkt ∈ parser.recvPkt, pkt.id ≠ UINT16_MAX := by
  obtain ⟨hnodup, hreceived⟩ := packetGenerator_ids hgen
  constructor
  · rintro ⟨GPacketHandler, handled, header', hfill, hhandled, hheader', hinside, -, -⟩
    cases hheader.symm.trans hheader'
    refine ⟨fun hid => ?_, fun pkt hpkt hid => ?_⟩
    · rw [handlePacket_last hheader hid] at hhandled
      exact hinside (Option.some.inj hhandled).symm
    · rw [fill_eq] at hfill
      obtain ⟨f, hinit, -⟩ := Option.map_eq_some_iff.1 hfill
      obtain ⟨id, henum, hlt⟩ := register_inside _ _ _ f hinit ⟨pkt.name, pkt.name, pkt.name⟩
        (List.mem_map.2 ⟨pkt, hpkt, rfl⟩)
      have htotal := hreceived.subset hpkt
      cases henum.symm.trans (enumerator_packetHandler hcompiles htotal (hids pkt htotal))
      omega
  · rintro ⟨hid, hlast⟩
    have hregisters : Registers parser := by
      refine ⟨hcompiles, hnodup, hids, fun pkt hpkt => ?_, hreceived⟩
      exact Nat.lt_of_le_of_ne (hids pkt (hreceived.subset hpkt)) (hlast pkt hpkt)
    have hlt := readHeader_id_lt buffer header hheader
    refine exact_of_registers hregisters messages hheader ?_ len
    simp only [UINT16_MAX] at hid ⊢
    omega

/-- A message class with one message and no bytes. -/
def emptyMessage : Message Unit := ⟨fun _ => 0, fun _ _ => some [], fun _ _ => some ()⟩

theorem dispatch_exact_chat :
    Exact (protocolParser "C_".toList "S_".toList protocolC protocolS) (fun _ => emptyMessage) [4, 0, 0xec, 3] 4 := by
  have hheader : readHeader [4, 0, 0xec, 3] = some ⟨4, 1004⟩ := rfl
  refine (dispatch_exact_iff protocol_client ?_ ?_ (fun _ => emptyMessage) hheader 4).2 ⟨?_, ?_⟩ <;> decide

theorem last_id_outside :
    packetGenerator asciiUpper "C_".toList "S_".toList protocolProto =
      some (protocolParser "C_".toList "S_".toList protocolC protocolS) ∧
    ¬ Exact (protocolParser "C_".toList "S_".toList protocolC protocolS) (fun _ => emptyMessage)
      [4, 0, 0xff, 0xff] 4 := by
  refine ⟨protocol_client, ?_⟩
  rintro ⟨GPacketHandler, handled, header, -, hhandled, -, hinside, -, -⟩
  have hheader : readHeader [4, 0, 0xff, 0xff] = some ⟨4, 65535⟩ := rfl
  rw [handlePacket_last hheader rfl] at hhandled
  exact hinside (Option.some.inj hhandled).symm

end PacketGenerator
end Geon
