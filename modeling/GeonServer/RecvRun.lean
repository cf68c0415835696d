import GeonServer.OnRecv
import GeonServer.Winsock
import GeonServer.Lts
/-!
# RecvRun — a session's receive completions

`processRecv` is `Session::ProcessRecv` of ServerCore/Session.cpp with the loop of `PacketSession` for `OnRecv`: it
takes the bytes of one completion, frames what is there and posts the next receive.  Over a whole run the buffer
never fills up (`recvStep_inv`, `recv_window_never_closes`), and the packets handed out do not depend on how the
stream was cut into completions (`recv_framing_independent`).
-/
namespace Geon

open Frames Lts

def BUFFER_SIZE : Int := 0x10000

/-- The `WSABUF` of the receive that is outstanding: where it stores and how much. -/
structure PostedRecv where
  pos : Int
  len : Int
  deriving DecidableEq, Repr

/-- What receiving reads and writes of a `Session`: `disconnects` are the causes `ProcessRecv` and `RegisterRecv`
have disconnected with. -/
structure RecvSession where
  recvBuffer : RecvBuffer
  connected : Bool
  posted : Option PostedRecv
  disconnects : List String

/-- `Session::Disconnect`: only the first call gets past the exchange. -/
def RecvSession.disconnect (s : RecvSession) (cause : String) : RecvSession :=
  if s.connected = false then s else { s with connected := false, disconnects := s.disconnects ++ [cause] }

/-- `Session::RegisterRecv`, with what `WSARecv` answers. -/
def registerRecv (wsaRecv : WsaResult) (s : RecvSession) : RecvSession :=
  if s.connected = false then s
  else match wsaRecv.failed with
    | none => { s with posted := some ⟨s.recvBuffer.writePos, s.recvBuffer.freeSize⟩ }
    | some errCode => match handleError errCode with
      | some cause => s.disconnect cause
      | none => s

/-- The bytes of a completion are in the buffer, and no receive is outstanding any more. -/
def RecvSession.complete (s : RecvSession) (bytes : List BYTE) : RecvSession :=
  match s.posted with
  | none => s
  | some p => { s with recvBuffer := s.recvBuffer.store p.pos bytes, posted := none }

/-- `Session::ProcessRecv` for a completion of `bytes`, with the `OnRecvPacket` calls it makes; `none` when `OnRecv`
never returns. -/
def processRecv {β : Type*} (onRecvPacket : List BYTE → Nat → β) (junk : Nat → BYTE) (s : RecvSession)
    (bytes : List BYTE) (wsaRecv : WsaResult) : Option (RecvSession × List β) :=
  let s := s.complete bytes
  if bytes.length = 0 then some (s.disconnect "Recv 0", [])
  else match s.recvBuffer.onWrite bytes.length with
    | (false, _) => some (s.disconnect "OnWrite Overflow", [])
    | (true, b) =>
      match onRecv onRecvPacket b.data with
      | none => none
      | some (calls, processLen) =>
        if (processLen : Int) < 0 ∨ b.dataSize < processLen then
          some ({ s with recvBuffer := b }.disconnect "OnRead Overflow", calls)
        else match b.onRead processLen with
          | (false, b) => some ({ s with recvBuffer := b }.disconnect "OnRead Overflow", calls)
          | (true, b) => some (registerRecv wsaRecv { s with recvBuffer := b.clean junk }, calls)

/-- A session as `ProcessConnect` leaves it: connected, the buffer empty, the first receive posted. -/
def recvSession₀ (wsaRecv : WsaResult) : RecvSession :=
  registerRecv wsaRecv ⟨RecvBuffer.new BUFFER_SIZE, true, none, []⟩

inductive RecvAct
  /-- A completion of the outstanding receive, and what the `WSARecv` posted after it answers. -/
  | completion (bytes : List BYTE) (wsaRecv : WsaResult)
  /-- Another thread disconnects. -/
  | disconnect

def recvStep (junk : Nat → BYTE) (s : RecvSession) : RecvAct → Option RecvSession
  | .completion bytes wsaRecv =>
    match s.posted with
    | none => none
    | some p =>
      if 1 ≤ bytes.length ∧ bytes.length ≤ p.len then
        (processRecv packetBytes junk s bytes wsaRecv).map Prod.fst
      else none
  | .disconnect => some { s with connected := false }

/-! ## The window -/

/-- The receive window: the cursors are in order, the block has its size, a receive as large as a packet can be
still fits, the posted receive is for all of the free bytes, and no cursor ever overflowed. -/
structure RecvInv (s : RecvSession) : Prop where
  wf : s.recvBuffer.Wf
  capacity : s.recvBuffer.capacity = BUFFER_SIZE * BUFFER_COUNT
  bufferSize : s.recvBuffer.bufferSize = BUFFER_SIZE
  free : BUFFER_SIZE ≤ s.recvBuffer.freeSize
  leftover : packets.head s.recvBuffer.data = none
  posted : ∀ p, s.posted = some p → p = ⟨s.recvBuffer.writePos, s.recvBuffer.freeSize⟩
  causes : ∀ c ∈ s.disconnects, c = "HandleError"

theorem RecvInv.disconnect_handleError {s : RecvSession} (h : RecvInv s) :
    RecvInv (s.disconnect "HandleError") := by
  unfold RecvSession.disconnect
  split
  · exact h
  · refine ⟨h.wf, h.capacity, h.bufferSize, h.free, h.leftover, h.posted, fun c hc => ?_⟩
    rcases List.mem_append.1 hc with hc | hc
    · exact h.causes c hc
    · exact List.mem_singleton.1 hc

theorem RecvInv.registerRecv {s : RecvSession} (h : RecvInv s) (wsaRecv : WsaResult) :
    RecvInv (registerRecv wsaRecv s) := by
  unfold Geon.registerRecv
  split
  · exact h
  · split
    · exact ⟨h.wf, h.capacity, h.bufferSize, h.free, h.leftover, fun p hp => (Option.some.inj hp).symm, h.causes⟩
    · split
      · rename_i cause hc
        have : cause = "HandleError" := by
          unfold handleError at hc
          split at hc
          · exact (Option.some.inj hc).symm
          · cases hc
        exact this ▸ h.disconnect_handleError
      · exact h

theorem head_nil : packets.head [] = none := rfl

theorem recvInv_start (wsaRecv : WsaResult) : RecvInv (recvSession₀ wsaRecv) := by
  refine RecvInv.registerRecv ⟨RecvBuffer.wf_new _ (by decide), rfl, rfl, by decide, ?_, ?_, ?_⟩ _
  · rw [RecvBuffer.data_new]; exact head_nil
  · intro p hp; cases hp
  · intro c hc; cases hc

theorem RecvInv.onWrite {s : RecvSession} (h : RecvInv s) {p : PostedRecv} (hp : s.posted = some p)
    (bytes : List BYTE) (hle : bytes.length ≤ p.len) :
    ∃ b, (s.complete bytes).recvBuffer.onWrite bytes.length = (true, b) ∧ b.Wf ∧
      b.capacity = BUFFER_SIZE * BUFFER_COUNT ∧ b.bufferSize = BUFFER_SIZE ∧ b.data = s.recvBuffer.data ++ bytes := by
  obtain rfl := h.posted p hp
  have hc : (s.complete bytes).recvBuffer = s.recvBuffer.store s.recvBuffer.writePos bytes := by
    simp [RecvSession.complete, hp]
  have hfree : (bytes.length : Int) ≤ s.recvBuffer.freeSize := hle
  rw [hc]
  refine ⟨_, RecvBuffer.onWrite_of_le _ _ (by simpa using hfree), ⟨?_, ?_, ?_⟩, ?_, ?_, ?_⟩
  · exact h.wf.readPos_nonneg
  · have := h.wf.readPos_le; simp only [RecvBuffer.readPos_store, RecvBuffer.writePos_store]; omega
  · simp only [RecvBuffer.capacity_store, RecvBuffer.writePos_store]
    simp only [RecvBuffer.freeSize] at hfree
    omega
  · exact h.capacity
  · exact h.bufferSize
  · have := RecvBuffer.data_onWrite s.recvBuffer h.wf bytes hfree
    rwa [RecvBuffer.onWrite_of_le _ _ (by simpa using hfree)] at this

/-- **After `Clean` a whole receive fits**, and the leftover is kept: it is shorter than a packet, so what `Clean`
moves does not overlap where it goes. -/
theorem clean_window (junk : Nat → BYTE) {b : RecvBuffer} (hwf : b.Wf)
    (hcap : b.capacity = BUFFER_SIZE * BUFFER_COUNT) (hsz : b.bufferSize = BUFFER_SIZE)
    (hleft : packets.head b.data = none) :
    BUFFER_SIZE ≤ (b.clean junk).freeSize ∧ (b.clean junk).data = b.data := by
  have hshort := length_lt_of_head_none _ hleft
  have hds := hwf.length_data
  constructor
  · rcases RecvBuffer.freeSize_clean junk b with hf | hf
    · rw [hsz] at hf; exact hf
    · simp only [BUFFER_SIZE, BUFFER_COUNT] at *
      omega
  · apply RecvBuffer.data_clean
    intro hf
    simp only [RecvBuffer.freeSize, RecvBuffer.dataSize, BUFFER_SIZE, BUFFER_COUNT] at *
    omega

/-- **What `ProcessRecv` does with a completion the posted receive allows**: it frames the leftover with the new
bytes behind it, takes the framed bytes out and leaves a window at least one receive wide.  Both cursors stay in
order in between, and nothing is disconnected. -/
theorem processRecv_spec {s : RecvSession} (h : RecvInv s) (junk : Nat → BYTE) {p : PostedRecv}
    (hp : s.posted = some p) {bytes : List BYTE} (hne : bytes ≠ []) (hle : bytes.length ≤ p.len)
    (wsaRecv : WsaResult) :
    (onRecv packetBytes (s.recvBuffer.data ++ bytes) = none ∧ processRecv packetBytes junk s bytes wsaRecv = none) ∨
    ∃ ps r b, Done packets (s.recvBuffer.data ++ bytes) ps r ∧
      processRecv packetBytes junk s bytes wsaRecv =
        some (registerRecv wsaRecv { s with recvBuffer := b, posted := none }, ps) ∧
      RecvInv { s with recvBuffer := b, posted := none } ∧ b.data = r := by
  obtain ⟨b, hw, hwf, hcap, hsz, hdata⟩ := h.onWrite hp bytes hle
  have hlen : bytes.length ≠ 0 := fun h0 => hne (List.length_eq_zero_iff.1 h0)
  have hcomplete : (s.complete bytes) = { s with recvBuffer := (s.complete bytes).recvBuffer, posted := none } := by
    simp [RecvSession.complete, hp]
  unfold processRecv
  simp only [hlen, if_false, hw, hdata]
  cases ho : onRecv packetBytes (s.recvBuffer.data ++ bytes) with
  | none => left; exact ⟨rfl, rfl⟩
  | some out =>
    obtain ⟨ps, q⟩ := out
    right
    obtain ⟨hd, hq⟩ := (onRecv_eq_some _ _ _).1 ho
    have hqle : (q : Int) ≤ b.dataSize := by
      have := onRecv_le ho
      rw [← hdata] at this
      have := hwf.length_data
      omega
    have hr := RecvBuffer.onRead_of_le b q hqle
    have hdr := RecvBuffer.data_onRead b hwf q (by omega) hqle
    rw [hr] at hdr
    have hok : ¬ ((q : Int) < 0 ∨ b.dataSize < q) := by omega
    simp only [hok, if_false, hr]
    rw [hdata, Int.toNat_natCast] at hdr
    generalize hb' : ({ b with readPos := b.readPos + q } : RecvBuffer) = b' at *
    have hwf' : b'.Wf := by
      have h1 := hwf.readPos_nonneg
      have h2 := hwf.writePos_le
      simp only [RecvBuffer.dataSize] at hqle
      rw [← hb']
      exact ⟨by simp only; omega, by simp only; omega, h2⟩
    have hcap' : b'.capacity = BUFFER_SIZE * BUFFER_COUNT := by rw [← hb']; exact hcap
    have hsz' : b'.bufferSize = BUFFER_SIZE := by rw [← hb']; exact hsz
    obtain ⟨hfree, hclean⟩ := clean_window junk hwf' hcap' hsz' (hdr ▸ hd.2)
    refine ⟨ps, _, b'.clean junk, hd, by rw [hcomplete], ?_, by rw [hclean, hdr]⟩
    refine ⟨hwf'.clean junk, by simpa using hcap', by simpa using hsz', hfree, ?_, ?_, h.causes⟩
    · simp only
      rw [hclean, hdr]
      exact hd.2
    · intro p hp; cases hp

theorem recvStep_inv (junk : Nat → BYTE) (s s' : RecvSession) (a : RecvAct) (h : RecvInv s)
    (he : recvStep junk s a = some s') : RecvInv s' := by
  cases a with
  | disconnect =>
    cases he
    exact ⟨h.wf, h.capacity, h.bufferSize, h.free, h.leftover, h.posted, h.causes⟩
  | completion bytes wsaRecv =>
    simp only [recvStep] at he
    split at he
    · cases he
    · rename_i p hp
      split at he
      · rename_i hlen
        have hne : bytes ≠ [] := fun h0 => by rw [h0] at hlen; simp at hlen
        rcases processRecv_spec h junk hp hne hlen.2 wsaRecv with ⟨-, hpr⟩ | ⟨ps, r, b, -, hpr, hinv, -⟩
        · rw [hpr] at he; cases he
        · rw [hpr] at he
          cases he
          exact hinv.registerRecv wsaRecv
      · cases he

/-- The states a session's receive side goes through, from `ProcessConnect` on. -/
def RecvReach (junk : Nat → BYTE) (s : RecvSession) : Prop :=
  ∃ wsaRecv, Reach (recvStep junk) Any (recvSession₀ wsaRecv) s

theorem RecvReach.inv {junk : Nat → BYTE} {s : RecvSession} (h : RecvReach junk s) : RecvInv s := by
  obtain ⟨wsaRecv, h⟩ := h
  exact h.inv (recvInv_start wsaRecv) (fun s a s' _ hi he _ => recvStep_inv junk s s' a hi he)

/-- **The receive window never closes.**  In every state of every run the cursors are in order inside the block, one
whole receive fits after `Clean`, the receive posted is not empty, and neither overflow disconnect was taken; while
a completion is processed `OnWrite` and `OnRead` accept and keep the cursors in order. -/
theorem recv_window_never_closes (junk : Nat → BYTE) (s : RecvSession) (h : RecvReach junk s) :
    (0 ≤ s.recvBuffer.readPos ∧ s.recvBuffer.readPos ≤ s.recvBuffer.writePos ∧
      s.recvBuffer.writePos ≤ s.recvBuffer.capacity ∧ s.recvBuffer.capacity = 0x10000 * 10) ∧
    BUFFER_SIZE ≤ s.recvBuffer.freeSize ∧
    (∀ p, s.posted = some p → p.len = s.recvBuffer.freeSize ∧ 0 < p.len) ∧
    "OnWrite Overflow" ∉ s.disconnects ∧ "OnRead Overflow" ∉ s.disconnects ∧
    ∀ p, s.posted = some p → ∀ bytes : List BYTE, 1 ≤ bytes.length → bytes.length ≤ p.len →
      ∃ b, (s.complete bytes).recvBuffer.onWrite bytes.length = (true, b) ∧ b.Wf ∧
        ∀ calls processLen, onRecv packetBytes b.data = some (calls, processLen) →
          processLen ≤ b.dataSize ∧ ∃ b', b.onRead processLen = (true, b') ∧ b'.Wf := by
  have hi := h.inv
  have hposted : ∀ p, s.posted = some p → p.len = s.recvBuffer.freeSize ∧ 0 < p.len := by
    intro p hp
    have hfree := hi.free
    obtain rfl := hi.posted p hp
    simp only [BUFFER_SIZE] at hfree
    exact ⟨rfl, by simp only; omega⟩
  refine ⟨⟨hi.wf.readPos_nonneg, hi.wf.readPos_le, hi.wf.writePos_le, hi.capacity⟩, hi.free, hposted,
    fun hc => absurd (hi.causes _ hc) (by decide), fun hc => absurd (hi.causes _ hc) (by decide), ?_⟩
  intro p hp bytes _ hle
  obtain ⟨b, hw, hwf, -, -, -⟩ := hi.onWrite hp bytes hle
  refine ⟨b, hw, hwf, fun calls q ho => ?_⟩
  have hq : (q : Int) ≤ b.dataSize := by
    have := onRecv_le ho
    have := hwf.length_data
    omega
  refine ⟨hq, _, RecvBuffer.onRead_of_le b q hq, ?_⟩
  have h1 := hwf.readPos_nonneg
  simp only [RecvBuffer.dataSize] at hq
  exact ⟨by simp only; omega, by simp only; omega, hwf.writePos_le⟩

/-- A whole packet and the first byte of the next in one completion, the rest of that packet in another. -/
def straddleRun : List RecvAct := [.completion [4, 0, 7, 0, 5] .success, .completion [0, 7, 0, 9, 6] .success]

theorem recv_window_never_closes_straddle : ∃ s,
    run (recvStep (fun _ => 0)) Any (recvSession₀ .success) straddleRun = some s ∧
    BUFFER_SIZE ≤ s.recvBuffer.freeSize ∧ s.recvBuffer.writePos ≤ s.recvBuffer.capacity ∧
    "OnWrite Overflow" ∉ s.disconnects ∧ "OnRead Overflow" ∉ s.disconnects := by
  obtain ⟨s, hrun, hr⟩ := reach_of_run (recvStep (fun _ => 0)) Any (recvSession₀ .success) straddleRun (by decide)
  obtain ⟨⟨-, -, hle, -⟩, hfree, -, hw, hread, -⟩ := recv_window_never_closes (fun _ => 0) s ⟨.success, hr⟩
  exact ⟨s, hrun, hfree, hle, hw, hread⟩

/-! ## Fragmentation -/

/-- The parser comes to read a size field at this offset of the stream. -/
inductive Visits (stream : List BYTE) : Nat → Prop
  | start : Visits stream 0
  | packet {processLen : Nat} {header : PacketHeader} : Visits stream processLen →
      readHeader (stream.drop processLen) = some header → header.size ≤ (stream.drop processLen).length →
      Visits stream (processLen + header.size)

def SizesPositive (stream : List BYTE) : Prop :=
  ∀ processLen header, Visits stream processLen → readHeader (stream.drop processLen) = some header →
    1 ≤ header.size

theorem Visits.shift {stream : List BYTE} {n k : Nat} (hn : packets.head stream = some n)
    (h : Visits (stream.drop n) k) : Visits stream (n + k) := by
  induction h with
  | start =>
    obtain ⟨header, hh, hs, hle⟩ := (packetHead_eq_some _ _).1 hn
    have : Visits stream (0 + header.size) := .packet .start hh (by simpa [hs] using hle)
    rw [hs, Nat.zero_add] at this
    exact this
  | packet _ hh hle ih =>
    rw [List.drop_drop] at hh hle
    rw [← Nat.add_assoc]
    exact .packet ih hh hle

theorem visits_of_cut {xs r : List BYTE} {ps : List (List BYTE)} (h : Cut packets xs ps r) :
    ∃ k, Visits xs k ∧ r = xs.drop k := by
  induction h with
  | rest xs => exact ⟨0, .start, rfl⟩
  | @frame xs r ps n hn _ ih =>
    obtain ⟨k, hk, rfl⟩ := ih
    exact ⟨n + k, hk.shift hn, by rw [List.drop_drop]⟩

theorem SizesPositive.positive {stream : List BYTE} (h : SizesPositive stream) : Positive packets stream := by
  intro ps r n hc hn
  obtain ⟨k, hk, rfl⟩ := visits_of_cut hc
  obtain ⟨header, hh, rfl, -⟩ := (packetHead_eq_some _ _).1 hn
  exact h k header hk hh

/-- The `ProcessRecv` calls for a list of completions, and all `OnRecvPacket` calls they make. -/
def processRecvs {β : Type*} (onRecvPacket : List BYTE → Nat → β) (junk : Nat → BYTE) :
    RecvSession → List (List BYTE) → Option (RecvSession × List β)
  | s, [] => some (s, [])
  | s, bytes :: rest =>
    match processRecv onRecvPacket junk s bytes .success with
    | none => none
    | some (s', calls) => (processRecvs onRecvPacket junk s' rest).map (fun r => (r.1, calls ++ r.2))

/-- Every completion has at most the length that was posted for it. -/
def fitsPosted (junk : Nat → BYTE) : RecvSession → List (List BYTE) → Bool
  | _, [] => true
  | s, bytes :: rest =>
    (match s.posted with
      | none => false
      | some p => decide ((bytes.length : Int) ≤ p.len)) &&
    (match processRecv packetBytes junk s bytes .success with
      | none => true
      | some (s', _) => fitsPosted junk s' rest)

/-- What `ProcessRecv` of the first of these completions has done when it returns. -/
structure Taken (junk : Nat → BYTE) (s : RecvSession) (c : List BYTE) (cs : List (List BYTE)) (s' : RecvSession)
    (ps : List (List BYTE)) : Prop where
  returns : processRecv packetBytes junk s c .success = some (s', ps)
  done : Done packets (s.recvBuffer.data ++ c) ps s'.recvBuffer.data
  inv : RecvInv s'
  connected : s'.connected = true
  fits : fitsPosted junk s' cs = true
  disconnects : s'.disconnects = s.disconnects

section
variable {junk : Nat → BYTE} {s s' : RecvSession} {c : List BYTE} {cs ps : List (List BYTE)}

theorem processRecv_success (hi : RecvInv s) (hconn : s.connected = true) (hne : c ≠ [])
    (hfit : fitsPosted junk s (c :: cs) = true) :
    (∃ b, (s.complete c).recvBuffer.onWrite c.length = (true, b) ∧ b.data = s.recvBuffer.data ++ c) ∧
    (onRecv packetBytes (s.recvBuffer.data ++ c) = none ∧ processRecv packetBytes junk s c .success = none ∨
      ∃ s' ps, Taken junk s c cs s' ps) := by
  simp only [fitsPosted, Bool.and_eq_true] at hfit
  obtain ⟨hlen, hrest⟩ := hfit
  cases hp : s.posted with
  | none =>
    rw [hp] at hlen
    cases hlen
  | some p =>
    rw [hp] at hlen
    simp only [decide_eq_true_eq] at hlen
    obtain ⟨b, hw, -, -, -, hdata⟩ := hi.onWrite hp c hlen
    refine ⟨⟨b, hw, hdata⟩, ?_⟩
    rcases processRecv_spec hi junk hp hne hlen .success with hno | ⟨ps, r, b', hd, hpr, hi', hb⟩
    · exact .inl hno
    · have hposted : registerRecv .success { s with recvBuffer := b', posted := none } =
          { s with recvBuffer := b', posted := some ⟨b'.writePos, b'.freeSize⟩ } := by
        simp [registerRecv, hconn, WsaResult.failed]
      have hi₁ := hi'.registerRecv .success
      rw [hpr] at hrest
      rw [hposted] at hpr hrest hi₁
      exact .inr ⟨_, ps, hpr, hb ▸ hd, hi₁, hconn, hrest, rfl⟩

theorem taken_of_processRecv (hi : RecvInv s) (hconn : s.connected = true) (hne : c ≠ [])
    (hfit : fitsPosted junk s (c :: cs) = true) (hpr : processRecv packetBytes junk s c .success = some (s', ps)) :
    Taken junk s c cs s' ps := by
  rcases (processRecv_success hi hconn hne hfit).2 with ⟨-, hnone⟩ | ⟨s'', ps', ht⟩
  · rw [hnone] at hpr
    cases hpr
  · cases ht.returns.symm.trans hpr
    exact ht

end

theorem processRecvs_fed (junk : Nat → BYTE) : ∀ (chunks : List (List BYTE)) (s : RecvSession), RecvInv s →
    s.connected = true → (∀ c ∈ chunks, c ≠ []) → fitsPosted junk s chunks = true →
    Positive packets (s.recvBuffer.data ++ chunks.flatten) →
    ∃ s' calls, processRecvs packetBytes junk s chunks = some (s', calls) ∧
      Fed packets s.recvBuffer.data chunks calls s'.recvBuffer.data ∧ s'.disconnects = s.disconnects
  | [], s, _, _, _, _, _ => ⟨s, [], rfl, .done _, rfl⟩
  | c :: cs, s, hi, hconn, hne, hfit, hpos => by
    rw [List.flatten_cons, ← List.append_assoc] at hpos
    rcases (processRecv_success hi hconn (hne c List.mem_cons_self) hfit).2 with ⟨hno, -⟩ | ⟨s', ps, ht⟩
    · -- the parser meets no size 0 in what has arrived, so it does return
      obtain ⟨ps, r, hd⟩ := hpos.of_append.done
      rw [onRecvLoop_of_done _ hd] at hno
      cases hno
    · obtain ⟨s'', calls, hs'', hfed, hdis⟩ := processRecvs_fed junk cs s' ht.inv ht.connected
        (fun c hc => hne c (List.mem_cons_of_mem _ hc)) ht.fits (hpos.rest (ht.done.1.append cs.flatten))
      refine ⟨s'', ps ++ calls, ?_, .part ht.done hfed, hdis.trans ht.disconnects⟩
      simp only [processRecvs, ht.returns, hs'', Option.map_some]

/-- **Framing does not depend on fragmentation.**  However a stream is cut into non-empty completions that fit the
receive posted for them, the `OnRecvPacket` calls are the ones a single `OnRecv` over the whole stream makes, and the
same bytes are left unconsumed. -/
theorem recv_framing_independent (junk : Nat → BYTE) (chunks : List (List BYTE)) (hne : ∀ c ∈ chunks, c ≠ [])
    (hfit : fitsPosted junk (recvSession₀ .success) chunks = true) (hsize : SizesPositive chunks.flatten) :
    ∃ s calls processLen, processRecvs packetBytes junk (recvSession₀ .success) chunks = some (s, calls) ∧
      onRecv packetBytes chunks.flatten = some (calls, processLen) ∧
      s.recvBuffer.data = chunks.flatten.drop processLen ∧ s.disconnects = [] := by
  have hdata : (recvSession₀ .success).recvBuffer.data = [] := rfl
  obtain ⟨s, calls, hs, hfed, hdis⟩ := processRecvs_fed junk chunks _ (recvInv_start .success) rfl hne hfit
    (by rw [hdata]; exact hsize.positive)
  rw [hdata] at hfed
  have hd := hfed.done_of_head head_nil
  rw [List.nil_append] at hd
  refine ⟨s, calls, calls.flatten.length, hs, onRecvLoop_of_done _ hd, ?_, hdis⟩
  have := hd.1.flatten
  conv => rhs; rw [this]
  rw [List.drop_left]

theorem recv_framing_independent_two : ∃ s calls processLen,
    processRecvs packetBytes (fun _ => 0) (recvSession₀ .success) [[4], [0, 7, 0]] = some (s, calls) ∧
      onRecv packetBytes [4, 0, 7, 0] = some (calls, processLen) ∧
      s.recvBuffer.data = List.drop processLen [4, 0, 7, 0] ∧ s.disconnects = [] := by
  refine recv_framing_independent (fun _ => 0) [[4], [0, 7, 0]] (by decide) (by decide) ?_
  intro k header hv
  have hk : k = 0 ∨ k = 4 := by
    induction hv with
    | start => exact .inl rfl
    | packet _ hh _ ih =>
      rcases ih with rfl | rfl
      · cases hh; exact .inr rfl
      · cases hh
  rcases hk with rfl | rfl
  · intro hh; cases hh; decide
  · intro hh; cases hh

end Geon
