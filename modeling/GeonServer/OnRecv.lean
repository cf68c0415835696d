import GeonServer.RecvBuffer
import GeonServer.Frames
/-!
# OnRecv — the packet framing loop

`onRecv` is `PacketSession::OnRecv` of ServerCore/Session.cpp: it hands the packets of the received bytes to
`OnRecvPacket` one by one and returns how many bytes they took.  The loop has no bound of its own, so it is run on
fuel; with one round for each byte and one more, running out means that it never returns (`onRecvLoop_none`).  The
loop is the cut of the received bytes into packet frames (`onRecv_eq_some`), so what `Frames` says of cutting a
stream part by part holds of it.
-/
namespace Geon

open Frames

/-- `PacketHeader` of ServerCore/Session.h. -/
structure PacketHeader where
  size : Nat
  id : Nat
  deriving DecidableEq, Repr

def sizeofPacketHeader : Nat := 4

/-- A little-endian `uint16`. -/
def uint16 (lo hi : BYTE) : Nat := lo.toNat + 256 * hi.toNat

def readHeader : List BYTE → Option PacketHeader
  | b0 :: b1 :: b2 :: b3 :: _ => some ⟨uint16 b0 b1, uint16 b2 b3⟩
  | _ => none

/-- The `while (true)` of `PacketSession::OnRecv` from `processLen` on: the `OnRecvPacket` calls and the value
returned, `none` when the fuel runs out. -/
def onRecvLoop {β : Type*} (onRecvPacket : List BYTE → Nat → β) (buffer : List BYTE) :
    Nat → Nat → Option (List β × Nat)
  | 0, _ => none
  | fuel + 1, processLen =>
    let dataSize := buffer.length - processLen
    if dataSize < sizeofPacketHeader then some ([], processLen)
    else match readHeader (buffer.drop processLen) with
      | none => some ([], processLen)
      | some header =>
        if dataSize < header.size then some ([], processLen)
        else (onRecvLoop onRecvPacket buffer fuel (processLen + header.size)).map
          (fun r => (onRecvPacket (buffer.drop processLen) header.size :: r.1, r.2))

/-- `PacketSession::OnRecv` on the received bytes; `none` when it never returns. -/
def onRecv {β : Type*} (onRecvPacket : List BYTE → Nat → β) (buffer : List BYTE) : Option (List β × Nat) :=
  onRecvLoop onRecvPacket buffer (buffer.length + 1) 0

/-! ## Packets as frames -/

theorem uint16_lt (lo hi : BYTE) : uint16 lo hi < 65536 := by
  have h1 := lo.toNat_lt
  have h2 := hi.toNat_lt
  unfold uint16
  omega

theorem readHeader_append (xs ys : List BYTE) (h : PacketHeader) (hx : readHeader xs = some h) :
    readHeader (xs ++ ys) = some h := by
  unfold readHeader at hx
  split at hx
  · exact hx
  · cases hx

theorem readHeader_length (xs : List BYTE) (h : PacketHeader) (hx : readHeader xs = some h) : 4 ≤ xs.length := by
  unfold readHeader at hx
  split at hx
  · simp only [List.length_cons]; omega
  · cases hx

theorem readHeader_of_length (xs : List BYTE) (h : 4 ≤ xs.length) : ∃ header, readHeader xs = some header := by
  match xs, h with
  | b0 :: b1 :: b2 :: b3 :: _, _ => exact ⟨_, rfl⟩

theorem readHeader_size_lt (xs : List BYTE) (h : PacketHeader) (hx : readHeader xs = some h) : h.size < 65536 := by
  unfold readHeader at hx
  split at hx
  · cases hx; exact uint16_lt _ _
  · cases hx

/-- The packet at the front of a stream: its header is there and says no more bytes than there are. -/
def packetHead (xs : List BYTE) : Option Nat :=
  match readHeader xs with
  | none => none
  | some header => if xs.length < header.size then none else some header.size

theorem packetHead_eq_some (xs : List BYTE) (n : Nat) :
    packetHead xs = some n ↔ ∃ h, readHeader xs = some h ∧ h.size = n ∧ n ≤ xs.length := by
  unfold packetHead
  cases hh : readHeader xs with
  | none => simp
  | some h =>
    simp only [Option.some.injEq, exists_eq_left']
    split
    · rename_i hlt
      simp only [reduceCtorEq, false_iff, not_and]
      rintro rfl; omega
    · rename_i hlt
      simp only [Option.some.injEq]
      constructor
      · rintro rfl; exact ⟨rfl, by omega⟩
      · rintro ⟨rfl, _⟩; rfl

/-- Packets are frames: `size` bytes, the header included. -/
def packets : Framer BYTE where
  head := packetHead
  head_le xs n h := by
    obtain ⟨_, _, _, hle⟩ := (packetHead_eq_some xs n).1 h
    exact hle
  head_append xs ys n h := by
    obtain ⟨header, hh, hs, hle⟩ := (packetHead_eq_some xs n).1 h
    exact (packetHead_eq_some _ _).2 ⟨header, readHeader_append _ _ _ hh, hs, by
      rw [List.length_append]; omega⟩

/-- **What no packet can be cut off is short**: less than a header, or less than a size field can say. -/
theorem length_lt_of_head_none (xs : List BYTE) (h : packets.head xs = none) : xs.length < 65535 := by
  by_cases hl : 4 ≤ xs.length
  · obtain ⟨header, hh⟩ := readHeader_of_length xs hl
    have hs := readHeader_size_lt xs header hh
    have hlt : xs.length < header.size := by
      by_contra hge
      have : packets.head xs = some header.size := (packetHead_eq_some _ _).2 ⟨header, hh, rfl, by omega⟩
      rw [h] at this; cases this
    omega
  · omega

variable {β : Type*} (onRecvPacket : List BYTE → Nat → β)

theorem onRecvLoop_succ (buffer : List BYTE) (fuel processLen : Nat) :
    onRecvLoop onRecvPacket buffer (fuel + 1) processLen =
      match packets.head (buffer.drop processLen) with
      | none => some ([], processLen)
      | some n => (onRecvLoop onRecvPacket buffer fuel (processLen + n)).map
          (fun r => (onRecvPacket (buffer.drop processLen) n :: r.1, r.2)) := by
  rw [onRecvLoop]
  show _ = match packetHead (buffer.drop processLen) with | none => _ | some n => _
  unfold packetHead
  have hlen : (buffer.drop processLen).length = buffer.length - processLen := List.length_drop
  split
  · rename_i hlt
    cases hh : readHeader (buffer.drop processLen) with
    | none => rfl
    | some header =>
      have := readHeader_length _ _ hh
      simp only [sizeofPacketHeader] at hlt
      omega
  · cases hh : readHeader (buffer.drop processLen) with
    | none => rfl
    | some header =>
      simp only [hlen]
      split <;> rfl

/-- The `OnRecvPacket` that keeps the bytes it is given, `len` of them from the pointer on. -/
def packetBytes (buffer : List BYTE) (len : Nat) : List BYTE := buffer.take len

/-- Any `OnRecvPacket` is called at the same places; `g` is what it makes of the packets of this run. -/
theorem onRecvLoop_eq_map {g : List BYTE → β} (buffer : List BYTE) : ∀ (fuel processLen : Nat) (ps : List (List BYTE))
    (q : Nat), onRecvLoop packetBytes buffer fuel processLen = some (ps, q) →
      (∀ p ∈ ps, ∀ rest, onRecvPacket (p ++ rest) p.length = g p) →
      onRecvLoop onRecvPacket buffer fuel processLen = some (ps.map g, q)
  | 0, _, _, _, h, _ => by cases h
  | fuel + 1, processLen, ps, q, h, hg => by
    rw [onRecvLoop_succ] at h ⊢
    cases hn : packets.head (buffer.drop processLen) with
    | none =>
      rw [hn] at h
      cases h
      rfl
    | some n =>
      rw [hn] at h
      simp only [Option.map_eq_some_iff, Prod.mk.injEq, Prod.exists] at h
      obtain ⟨ps, q, h, rfl, rfl⟩ := h
      have ih := onRecvLoop_eq_map buffer fuel _ ps q h (fun p hp => hg p (List.mem_cons_of_mem _ hp))
      have hp := hg _ List.mem_cons_self ((buffer.drop processLen).drop n)
      rw [packetBytes, List.take_append_drop, List.length_take_of_le (packets.head_le _ _ hn)] at hp
      simp only [ih, Option.map_some, hp, List.map_cons, packetBytes]

theorem done_of_onRecvLoop (buffer : List BYTE) : ∀ (fuel processLen : Nat) (ps : List (List BYTE)) (q : Nat),
    onRecvLoop packetBytes buffer fuel processLen = some (ps, q) →
      Done packets (buffer.drop processLen) ps (buffer.drop q) ∧ q = processLen + ps.flatten.length
  | 0, _, _, _, h => by cases h
  | fuel + 1, processLen, ps, q, h => by
    rw [onRecvLoop_succ] at h
    cases hn : packets.head (buffer.drop processLen) with
    | none =>
      rw [hn] at h
      simp only [Option.some.injEq, Prod.mk.injEq] at h
      obtain ⟨rfl, rfl⟩ := h
      exact ⟨⟨.rest _, hn⟩, rfl⟩
    | some n =>
      rw [hn] at h
      simp only [Option.map_eq_some_iff, Prod.mk.injEq, Prod.exists] at h
      obtain ⟨ps', q', h', rfl, rfl⟩ := h
      obtain ⟨⟨hc, hr⟩, hq⟩ := done_of_onRecvLoop buffer fuel _ _ _ h'
      have hle := packets.head_le _ _ hn
      rw [← List.drop_drop] at hc
      refine ⟨⟨.frame hn hc, hr⟩, ?_⟩
      rw [hq, List.flatten_cons, List.length_append, packetBytes, List.length_take]
      omega

theorem onRecvLoop_of_cut (buffer : List BYTE) {xs r : List BYTE} {ps : List (List BYTE)} (hc : Cut packets xs ps r)
    (hr : packets.head r = none) : ∀ (fuel processLen : Nat), xs = buffer.drop processLen → ps.length < fuel →
      onRecvLoop packetBytes buffer fuel processLen = some (ps, processLen + ps.flatten.length) := by
  induction hc with
  | rest xs =>
    intro fuel processLen hxs hf
    obtain ⟨fuel, rfl⟩ := Nat.exists_eq_succ_of_ne_zero (Nat.ne_of_gt hf)
    rw [onRecvLoop_succ, ← hxs, hr]
    rfl
  | @frame xs r ps n hn hc ih =>
    intro fuel processLen hxs hf
    obtain ⟨fuel, rfl⟩ := Nat.exists_eq_succ_of_ne_zero (Nat.ne_of_gt (Nat.zero_lt_of_lt hf))
    have hle := packets.head_le _ _ hn
    rw [List.length_cons] at hf
    rw [onRecvLoop_succ, ← hxs, hn]
    simp only
    rw [ih hr fuel (processLen + n) (by rw [hxs, List.drop_drop]) (by omega)]
    simp only [Option.map_some, packetBytes, List.flatten_cons, List.length_append, List.length_take]
    congr 2
    omega

theorem onRecvLoop_of_done (buffer : List BYTE) {r : List BYTE} {ps : List (List BYTE)}
    (h : Done packets buffer ps r) : onRecv packetBytes buffer = some (ps, ps.flatten.length) := by
  have hlen := h.length_le
  have := onRecvLoop_of_cut buffer h.1 h.2 (buffer.length + 1) 0 rfl (by omega)
  rw [Nat.zero_add] at this
  exact this

/-- **`OnRecv` is the cut of the received bytes into packets.** -/
theorem onRecv_eq_some (buffer : List BYTE) (ps : List (List BYTE)) (q : Nat) :
    onRecv packetBytes buffer = some (ps, q) ↔ Done packets buffer ps (buffer.drop q) ∧ q = ps.flatten.length := by
  constructor
  · intro h
    have := done_of_onRecvLoop buffer _ _ _ _ h
    rwa [List.drop_zero, Nat.zero_add] at this
  · rintro ⟨h, rfl⟩
    exact onRecvLoop_of_done buffer h

/-- **Running out of fuel is never returning**: no number of rounds ends the loop then. -/
theorem onRecvLoop_none (buffer : List BYTE) (h : onRecv packetBytes buffer = none) (fuel : Nat) :
    onRecvLoop packetBytes buffer fuel 0 = none := by
  cases hl : onRecvLoop packetBytes buffer fuel 0 with
  | none => rfl
  | some r =>
    obtain ⟨hd, -⟩ := done_of_onRecvLoop buffer fuel 0 r.1 r.2 hl
    rw [List.drop_zero] at hd
    rw [onRecvLoop_of_done buffer hd] at h
    cases h

theorem onRecv_le {buffer : List BYTE} {ps : List (List BYTE)} {q : Nat}
    (h : onRecv packetBytes buffer = some (ps, q)) : q ≤ buffer.length := by
  obtain ⟨⟨hc, -⟩, rfl⟩ := (onRecv_eq_some _ _ _).1 h
  have := congrArg List.length hc.flatten
  rw [List.length_append] at this
  omega

end Geon
