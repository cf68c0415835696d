import Mathlib.Tactic.Common
/-!
# ProtoParser — the packets of a proto file

Tools/PacketGenerator/ProtoParser.py.  A line that starts with "message" names a packet by its second word; the packets
whose upper-cased name has the prefix of one side are numbered in the order of the file, from the start id on, and each
is put on the list of its side.  What a run leaves is a function of the names in the file (`parseProto_eq_some`).

`str.upper` is a parameter: nothing here depends on what it does.
-/
namespace Geon
namespace PacketGenerator

abbrev Name : Type := List Char

/-! ## Lines and words, as Python has them -/

/-- Reading in text mode: every end of line becomes "\n". -/
def universalNewlines : List Char → List Char
  | [] => []
  | '\r' :: '\n' :: text => '\n' :: universalNewlines text
  | '\r' :: text => '\n' :: universalNewlines text
  | c :: text => c :: universalNewlines text

/-- The lines of a text; a line keeps its "\n". -/
def splitLines : List Char → List (List Char)
  | [] => []
  | c :: text =>
    if c = '\n' then [c] :: splitLines text
    else match splitLines text with
      | [] => [[c]]
      | line :: lines => (c :: line) :: lines

/-- `readlines` of a file with this text. -/
def readlines (text : List Char) : List (List Char) := splitLines (universalNewlines text)

/-- The characters `str.split` takes for whitespace. -/
def isspace (c : Char) : Bool :=
  let n := c.toNat
  (9 ≤ n && n ≤ 13) || (28 ≤ n && n ≤ 32) || n == 0x85 || n == 0xa0 || n == 0x1680 || (0x2000 ≤ n && n ≤ 0x200a) ||
    n == 0x2028 || n == 0x2029 || n == 0x202f || n == 0x205f || n == 0x3000

/-- `str.split` without arguments. -/
def split (line : List Char) : List Name := (line.splitOnP isspace).filter (fun word => !word.isEmpty)

/-- `s.startswith(t)`. -/
def startswith (s t : List Char) : Bool := t.isPrefixOf s

/-! ## `ProtoParser` -/

structure Packet where
  name : Name
  id : Nat
  deriving DecidableEq, Repr

structure ProtoParser where
  recvPkt : List Packet
  sendPkt : List Packet
  totalPkt : List Packet
  startId : Nat
  id : Nat
  recvPrefix : Name
  sendPrefix : Name
  deriving DecidableEq, Repr

/-- `ProtoParser.__init__`. -/
def ProtoParser.new (startId : Nat) (recvPrefix sendPrefix : Name) : ProtoParser :=
  ⟨[], [], [], startId, startId, recvPrefix, sendPrefix⟩

variable (upper : Name → Name)

namespace ProtoParser

/-- One round of the loop of `parse_proto`, `none` when `split()[1]` raises. -/
def parseLine (self : ProtoParser) (line : List Char) : Option ProtoParser :=
  if startswith line "message".toList = false then some self
  else match (split line)[1]? with
    | none => none
    | some word =>
      let pktName := upper word
      if startswith pktName self.recvPrefix = true then
        some { self with
          recvPkt := self.recvPkt ++ [⟨pktName, self.id⟩]
          totalPkt := self.totalPkt ++ [⟨pktName, self.id⟩]
          id := self.id + 1 }
      else if startswith pktName self.sendPrefix = true then
        some { self with
          sendPkt := self.sendPkt ++ [⟨pktName, self.id⟩]
          totalPkt := self.totalPkt ++ [⟨pktName, self.id⟩]
          id := self.id + 1 }
      else some self

/-- `parse_proto` of a file with this text, `none` when it raises. -/
def parseProto (self : ProtoParser) (text : List Char) : Option ProtoParser :=
  (readlines text).foldlM (parseLine upper) self

end ProtoParser

/-! ## What it leaves -/

/-- The line has what `parse_proto` takes from it. -/
def Named (line : List Char) : Prop := startswith line "message".toList = true → 2 ≤ (split line).length

instance (line : List Char) : Decidable (Named line) := inferInstanceAs (Decidable (_ → _))

def messageName (line : List Char) : Option Name :=
  if startswith line "message".toList = true then (split line)[1]?.map upper else none

/-- The upper-cased names of the messages of the file, in order. -/
def messageNames (text : List Char) : List Name := (readlines text).filterMap (messageName upper)

/-- Names with their ids, from `start` on. -/
def numbered (start : Nat) (names : List Name) : List Packet := (names.zipIdx start).map (fun p => ⟨p.1, p.2⟩)

theorem numbered_append (start : Nat) (names names' : List Name) :
    numbered start (names ++ names') = numbered start names ++ numbered (start + names.length) names' := by
  unfold numbered
  rw [List.zipIdx_append, List.map_append]

theorem numbered_names (start : Nat) (names : List Name) : (numbered start names).map Packet.name = names := by
  unfold numbered
  rw [List.map_map]
  exact List.zipIdx_map_fst start names

theorem numbered_ids (start : Nat) (names : List Name) :
    (numbered start names).map Packet.id = List.range' start names.length := by
  unfold numbered
  rw [List.map_map]
  exact List.zipIdx_map_snd start names

theorem length_numbered (start : Nat) (names : List Name) : (numbered start names).length = names.length := by
  unfold numbered
  rw [List.length_map, List.length_zipIdx]

namespace ProtoParser

def received (self : ProtoParser) (name : Name) : Bool := startswith name self.recvPrefix

def prefixed (self : ProtoParser) (name : Name) : Bool := self.received name || startswith name self.sendPrefix

/-- **The packets of these names are filed**: those with a prefix are numbered from `id` on, and a name with the
`recv` prefix is on that list even if it has the other prefix too. -/
def file (self : ProtoParser) (names : List Name) : ProtoParser :=
  let pkts := numbered self.id (names.filter self.prefixed)
  { self with
    recvPkt := self.recvPkt ++ pkts.filter (fun pkt => self.received pkt.name)
    sendPkt := self.sendPkt ++ pkts.filter (fun pkt => !self.received pkt.name)
    totalPkt := self.totalPkt ++ pkts
    id := self.id + pkts.length }

theorem file_nil (self : ProtoParser) : self.file [] = self := by
  simp [file, numbered]

theorem file_append (self : ProtoParser) (names names' : List Name) :
    (self.file names).file names' = self.file (names ++ names') := by
  have hp : (self.file names).prefixed = self.prefixed := rfl
  have hr : (self.file names).received = self.received := rfl
  rw [file.eq_1 (self.file names), hp, hr]
  unfold file
  simp only [List.filter_append, numbered_append, List.append_assoc, List.length_append, length_numbered, Nat.add_assoc]

theorem file_received {self : ProtoParser} {name : Name} (h : startswith name self.recvPrefix = true) :
    self.file [name] = { self with
      recvPkt := self.recvPkt ++ [⟨name, self.id⟩]
      totalPkt := self.totalPkt ++ [⟨name, self.id⟩]
      id := self.id + 1 } := by
  simp [file, prefixed, received, h, numbered]

theorem file_sent {self : ProtoParser} {name : Name} (h : startswith name self.recvPrefix = false)
    (hsend : startswith name self.sendPrefix = true) :
    self.file [name] = { self with
      sendPkt := self.sendPkt ++ [⟨name, self.id⟩]
      totalPkt := self.totalPkt ++ [⟨name, self.id⟩]
      id := self.id + 1 } := by
  simp [file, prefixed, received, h, hsend, numbered]

theorem file_other {self : ProtoParser} {name : Name} (h : startswith name self.recvPrefix = false)
    (hsend : startswith name self.sendPrefix = false) : self.file [name] = self := by
  simp [file, prefixed, received, h, hsend, numbered]

/-- **One round files the name of its line**, or raises. -/
theorem parseLine_eq (self : ProtoParser) (line : List Char) : parseLine upper self line =
    if Named line then some (self.file (messageName upper line).toList) else none := by
  by_cases hm : startswith line "message".toList = true
  · have hneg : ¬ startswith line "message".toList = false := by
      rw [hm]
      decide
    rw [parseLine, if_neg hneg, messageName, if_pos hm]
    cases hw : (split line)[1]? with
    | none =>
      have hnot : ¬ Named line := fun h => absurd (h hm) (Nat.not_le.2 (by
        rw [List.getElem?_eq_none_iff] at hw
        omega))
      rw [if_neg hnot]
    | some word =>
      have hnamed : Named line := fun _ => (List.getElem?_eq_some_iff.1 hw).1
      rw [if_pos hnamed, Option.map_some, Option.toList_some]
      dsimp only
      split
      · rw [file_received ‹_›]
      · rename_i hrecv
        rw [Bool.not_eq_true] at hrecv
        split
        · rw [file_sent hrecv ‹_›]
        · rename_i hsend
          rw [file_other hrecv (Bool.eq_false_iff.2 hsend)]
  · have hnamed : Named line := fun h => absurd h hm
    rw [parseLine, if_pos (Bool.eq_false_iff.2 hm), if_pos hnamed, messageName, if_neg hm, Option.toList_none, file_nil]

theorem foldlM_parseLine (self' : ProtoParser) : ∀ (lines : List (List Char)) (self : ProtoParser),
    lines.foldlM (parseLine upper) self = some self' ↔
      (∀ line ∈ lines, Named line) ∧ self' = self.file (lines.filterMap (messageName upper))
  | [], self => by
    simp [file_nil, eq_comm]
  | line :: lines, self => by
    rw [List.foldlM_cons, List.forall_mem_cons, parseLine_eq]
    by_cases hnamed : Named line
    · have hnames : (line :: lines).filterMap (messageName upper) =
          (messageName upper line).toList ++ lines.filterMap (messageName upper) := by
        cases h : messageName upper line <;> simp [h]
      rw [if_pos hnamed, Option.bind_eq_bind, Option.bind_some, foldlM_parseLine self' lines, file_append, hnames]
      simp [hnamed]
    · simp [hnamed]

/-- **`parse_proto` raises or files the names of the file**, whatever the prefixes are. -/
theorem parseProto_eq_some (self self' : ProtoParser) (text : List Char) :
    parseProto upper self text = some self' ↔
      (∀ line ∈ readlines text, Named line) ∧ self' = self.file (messageNames upper text) :=
  foldlM_parseLine upper self' (readlines text) self

/-! ## Two runs over one file -/

theorem name_mem_of_mem_numbered {start : Nat} {names : List Name} {pkt : Packet} (h : pkt ∈ numbered start names) :
    pkt.name ∈ names := by
  rw [← numbered_names start names]
  exact List.mem_map_of_mem h

/-- **With the prefixes exchanged the same packets get the same ids, and the two lists are exchanged**, if no name has
both prefixes. -/
theorem file_exchanged {p q : Name} (h : ∀ name, startswith name p = true → startswith name q = false) (start : Nat)
    (names : List Name) :
    ((new start p q).file names).totalPkt = ((new start q p).file names).totalPkt ∧
    ((new start p q).file names).recvPkt = ((new start q p).file names).sendPkt ∧
    ((new start p q).file names).sendPkt = ((new start q p).file names).recvPkt := by
  have hprefixed : (new start p q).prefixed = (new start q p).prefixed := by
    funext name
    exact Bool.or_comm ..
  -- every packet that is numbered has one of the prefixes, so it lacks the other
  have hother : ∀ pkt ∈ numbered start (names.filter (new start q p).prefixed),
      startswith pkt.name p = !startswith pkt.name q := by
    intro pkt hpkt
    have hone := (List.mem_filter.1 (name_mem_of_mem_numbered hpkt)).2
    cases hp : startswith pkt.name p with
    | true => rw [h _ hp, Bool.not_false]
    | false =>
      have hq : startswith pkt.name q = true := by simpa [prefixed, received, new, hp] using hone
      rw [hq, Bool.not_true]
  have hid : ∀ p' q' : Name, (new start p' q').id = start := fun _ _ => rfl
  refine ⟨?_, ?_, ?_⟩
  · unfold file
    rw [hprefixed]
    rfl
  · unfold file
    dsimp only
    rw [hprefixed, hid, hid]
    exact congrArg (List.append []) (List.filter_congr hother)
  · unfold file
    dsimp only
    rw [hprefixed, hid, hid]
    refine congrArg (List.append []) (List.filter_congr (fun pkt hpkt => ?_))
    show (!startswith pkt.name p) = startswith pkt.name q
    rw [hother pkt hpkt, Bool.not_not]

end ProtoParser

end PacketGenerator
end Geon
