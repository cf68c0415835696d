import GeonServer.RecvRun
/-!
# RecvQueue — the receive buffer is a queue of the bytes received

`ProcessRecv` call by call: at every point between the calls of `OnWrite`, `OnRecv`, `OnRead`, `Clean` and `RegisterRecv`
the bytes between the cursors are those received and not yet consumed.  What `Clean` moves is less than a packet, and the
block has room for ten of them, so it is moved clear of itself (`QueueInv.clear`).
-/
namespace Geon

open Frames Lts

/-- Where a thread is in `ProcessRecv`. -/
inductive RecvPoint
  | idle
  /-- The completion of these bytes: about to call `OnWrite`. -/
  | arrived (bytes : List BYTE)
  /-- About to call `OnRecv`. -/
  | written
  /-- `OnRecv` has returned: about to call `OnRead`. -/
  | handled (processLen : Nat)
  /-- About to call `Clean`. -/
  | read
  /-- About to call `RegisterRecv`. -/
  | cleaned
  deriving DecidableEq, Repr

/-- A session inside `ProcessRecv`, with the bytes `OnWrite` has accepted and how many `OnRead` has. -/
structure RecvQueue where
  session : RecvSession
  point : RecvPoint
  received : List BYTE
  consumed : Nat

inductive QueueAct
  /-- A completion of the outstanding receive. -/
  | completion (bytes : List BYTE)
  /-- The next call of `ProcessRecv`, and what `WSARecv` answers in it. -/
  | next (wsaRecv : WsaResult)
  /-- Another thread disconnects. -/
  | disconnect

/-- `ProcessRecv` disconnects and returns. -/
def RecvQueue.leave (q : RecvQueue) (cause : String) : RecvQueue :=
  { q with session := q.session.disconnect cause, point := .idle }

/-- The buffer of the session has changed, and the thread is at the next point. -/
def RecvQueue.goto (q : RecvQueue) (b : RecvBuffer) (point : RecvPoint) : RecvQueue :=
  { q with session := { q.session with recvBuffer := b }, point := point }

/-- The next call of `Session::ProcessRecv`; `none` when `OnRecv` never returns. -/
def RecvQueue.next (junk : Nat → BYTE) (q : RecvQueue) (wsaRecv : WsaResult) : Option RecvQueue :=
  let b := q.session.recvBuffer
  match q.point with
  | .idle => none
  | .arrived bytes =>
    if bytes.length = 0 then some (q.leave "Recv 0")
    else match b.onWrite bytes.length with
      | (false, b) => some ((q.goto b .idle).leave "OnWrite Overflow")
      | (true, b) => some { q.goto b .written with received := q.received ++ bytes }
  | .written => (onRecv packetBytes b.data).map (fun r => q.goto b (.handled r.2))
  | .handled processLen =>
    if (processLen : Int) < 0 ∨ b.dataSize < processLen then some (q.leave "OnRead Overflow")
    else match b.onRead processLen with
      | (false, b) => some ((q.goto b .idle).leave "OnRead Overflow")
      | (true, b) => some { q.goto b .read with consumed := q.consumed + processLen }
  | .read => some (q.goto (b.clean junk) .cleaned)
  | .cleaned => some { q with session := registerRecv wsaRecv q.session, point := .idle }

def queueStep (junk : Nat → BYTE) (q : RecvQueue) : QueueAct → Option RecvQueue
  | .completion bytes =>
    match q.point, q.session.posted with
    | .idle, some p =>
      if 1 ≤ bytes.length ∧ bytes.length ≤ p.len then
        some { q with session := q.session.complete bytes, point := .arrived bytes }
      else none
    | _, _ => none
  | .next wsaRecv => q.next junk wsaRecv
  | .disconnect => some { q with session := { q.session with connected := false } }

def recvQueue₀ (wsaRecv : WsaResult) : RecvQueue := ⟨recvSession₀ wsaRecv, .idle, [], 0⟩

/-! ## The invariant -/

/-- `ProcessRecv` is inside, and no receive is outstanding. -/
structure Processing (s : RecvSession) : Prop where
  wf : s.recvBuffer.Wf
  capacity : s.recvBuffer.capacity = BUFFER_SIZE * BUFFER_COUNT
  bufferSize : s.recvBuffer.bufferSize = BUFFER_SIZE
  posted : s.posted = none
  causes : ∀ c ∈ s.disconnects, c = "HandleError"

/-- What holds of the session at a point. -/
def RecvPoint.Ok (s : RecvSession) : RecvPoint → Prop
  | .idle => RecvInv s
  | .arrived bytes => bytes ≠ [] ∧ ∃ s₀ p, RecvInv s₀ ∧ s₀.posted = some p ∧ bytes.length ≤ p.len ∧
      s = s₀.complete bytes
  | .written => Processing s
  | .handled processLen => Processing s ∧ ∃ calls, onRecv packetBytes s.recvBuffer.data = some (calls, processLen)
  | .read => Processing s ∧ packets.head s.recvBuffer.data = none
  | .cleaned => Processing s ∧ RecvInv s

/-- **The invariant of the queue.** -/
structure QueueInv (q : RecvQueue) : Prop where
  data : q.session.recvBuffer.data = q.received.drop q.consumed
  consumed : q.consumed ≤ q.received.length
  point : q.point.Ok q.session

variable {junk : Nat → BYTE} {q q' : RecvQueue}

/-- What is stored behind the write cursor is not in the queue yet. -/
theorem data_store (b : RecvBuffer) (h : b.Wf) (bytes : List BYTE) : (b.store b.writePos bytes).data = b.data := by
  have h1 := h.readPos_nonneg
  apply List.ext_getElem
  · simp only [RecvBuffer.length_data, RecvBuffer.dataSize, RecvBuffer.writePos_store, RecvBuffer.readPos_store]
  · intro i _ hi
    simp only [RecvBuffer.length_data, RecvBuffer.dataSize] at hi
    simp only [RecvBuffer.data, List.getElem_map, List.getElem_range, RecvBuffer.store]
    rw [dif_neg (by omega)]

theorem queueInv₀ (wsaRecv : WsaResult) : QueueInv (recvQueue₀ wsaRecv) := by
  have hempty : (recvSession₀ wsaRecv).recvBuffer.data = [] := by
    unfold recvSession₀ registerRecv
    simp only [Bool.true_eq_false, if_false]
    split
    · rfl
    · split
      · rfl
      · rfl
  exact ⟨hempty, Nat.le_refl 0, recvInv_start wsaRecv⟩

theorem RecvInv.setConnected {s : RecvSession} (h : RecvInv s) (c : Bool) : RecvInv { s with connected := c } :=
  ⟨h.wf, h.capacity, h.bufferSize, h.free, h.leftover, h.posted, h.causes⟩

theorem Processing.setConnected {s : RecvSession} (h : Processing s) (c : Bool) :
    Processing { s with connected := c } :=
  ⟨h.wf, h.capacity, h.bufferSize, h.posted, h.causes⟩

theorem RecvPoint.Ok.setConnected {s : RecvSession} {point : RecvPoint} (h : point.Ok s) (c : Bool) :
    point.Ok { s with connected := c } := by
  cases point with
  | idle => exact RecvInv.setConnected h c
  | arrived bytes =>
    obtain ⟨hne, s₀, p, hi, hp, hle, rfl⟩ := h
    refine ⟨hne, { s₀ with connected := c }, p, hi.setConnected c, hp, hle, ?_⟩
    simp [RecvSession.complete, hp]
  | written => exact Processing.setConnected h c
  | handled processLen => exact ⟨h.1.setConnected c, h.2⟩
  | read => exact ⟨h.1.setConnected c, h.2⟩
  | cleaned => exact ⟨h.1.setConnected c, h.2.setConnected c⟩

/-- **`Clean` moves the leftover clear of itself.** -/
theorem Processing.clear {s : RecvSession} (h : Processing s) (hleft : packets.head s.recvBuffer.data = none)
    (hmove : s.recvBuffer.freeSize < s.recvBuffer.bufferSize) : s.recvBuffer.dataSize ≤ s.recvBuffer.readPos := by
  have hshort := length_lt_of_head_none _ hleft
  have hlen := h.wf.length_data
  have hcap := h.capacity
  have hsize := h.bufferSize
  simp only [RecvBuffer.freeSize, RecvBuffer.dataSize, BUFFER_SIZE, BUFFER_COUNT] at *
  omega

theorem recvBuffer_registerRecv (wsaRecv : WsaResult) (s : RecvSession) :
    (registerRecv wsaRecv s).recvBuffer = s.recvBuffer := by
  unfold registerRecv
  split
  · rfl
  · split
    · rfl
    · split
      · unfold RecvSession.disconnect
        split <;> rfl
      · rfl

/-! ## The calls -/

/-- What a call does to the queue: `OnWrite` appends, `OnRead` drops a prefix, nothing else changes it. -/
def RecvQueue.Moved (q q' : RecvQueue) : Prop :=
  match q.point, q'.point with
  | .arrived bytes, .written => q'.session.recvBuffer.data = q.session.recvBuffer.data ++ bytes
  | .handled processLen, .read => q'.session.recvBuffer.data = q.session.recvBuffer.data.drop processLen
  | _, _ => q'.session.recvBuffer.data = q.session.recvBuffer.data

/-- `OnWrite` accepts what the posted receive allowed. -/
theorem QueueInv.onWrite (h : QueueInv q) {bytes : List BYTE} (hpoint : q.point = .arrived bytes) :
    ∃ b, q.session.recvBuffer.onWrite bytes.length = (true, b) ∧ bytes.length ≠ 0 ∧
      b.data = q.session.recvBuffer.data ++ bytes ∧
      QueueInv { q.goto b .written with received := q.received ++ bytes } := by
  have hok := h.point
  rw [hpoint] at hok
  obtain ⟨hne, s₀, p, hi, hp, hle, hs⟩ := hok
  obtain ⟨b, hw, hwf, hcap, hsize, hdata⟩ := hi.onWrite hp bytes hle
  obtain rfl := hi.posted p hp
  have hstored : q.session.recvBuffer.data = s₀.recvBuffer.data := by
    rw [hs]
    simp only [RecvSession.complete, hp]
    exact data_store _ hi.wf bytes
  have hposted : q.session.posted = none := by
    rw [hs]
    simp [RecvSession.complete, hp]
  have hcauses : q.session.disconnects = s₀.disconnects := by
    rw [hs]
    simp [RecvSession.complete, hp]
  rw [← hs] at hw
  refine ⟨b, hw, fun h0 => hne (List.length_eq_zero_iff.1 h0), by rw [hdata, hstored], ?_, ?_, ?_⟩
  · show b.data = (q.received ++ bytes).drop q.consumed
    rw [hdata, ← hstored, h.data, List.drop_append_of_le_length h.consumed]
  · have := h.consumed
    simp only [List.length_append]
    exact Nat.le_trans this (Nat.le_add_right _ _)
  · exact ⟨hwf, hcap, hsize, hposted, fun c hc => hi.causes c (hcauses ▸ hc)⟩

/-- `OnRead` accepts what `OnRecv` has returned, and what is left is less than a packet. -/
theorem QueueInv.onRead (h : QueueInv q) {processLen : Nat} (hpoint : q.point = .handled processLen) :
    ¬ ((processLen : Int) < 0 ∨ q.session.recvBuffer.dataSize < processLen) ∧
    ∃ b, q.session.recvBuffer.onRead processLen = (true, b) ∧
      b.data = q.session.recvBuffer.data.drop processLen ∧
      QueueInv { q.goto b .read with consumed := q.consumed + processLen } := by
  have hok := h.point
  rw [hpoint] at hok
  obtain ⟨hproc, calls, hcalls⟩ := hok
  obtain ⟨hd, -⟩ := (onRecv_eq_some _ _ _).1 hcalls
  have hle := onRecv_le hcalls
  have hlen := hproc.wf.length_data
  have hread : (processLen : Int) ≤ q.session.recvBuffer.dataSize := by omega
  have haccept := RecvBuffer.onRead_of_le q.session.recvBuffer processLen hread
  have hdata := RecvBuffer.data_onRead q.session.recvBuffer hproc.wf processLen (by omega) hread
  rw [haccept, Int.toNat_natCast] at hdata
  refine ⟨by omega, _, haccept, hdata, ?_, ?_, ?_, ?_⟩
  · refine hdata.trans ?_
    show _ = q.received.drop (q.consumed + processLen)
    rw [h.data, List.drop_drop]
  · have := congrArg List.length h.data
    rw [List.length_drop] at this
    have := h.consumed
    show q.consumed + processLen ≤ q.received.length
    omega
  · have h1 := hproc.wf.readPos_nonneg
    have h2 := hproc.wf.writePos_le
    simp only [RecvBuffer.dataSize] at hread
    exact ⟨⟨by simp only [RecvQueue.goto]; omega, by simp only [RecvQueue.goto]; omega, h2⟩, hproc.capacity,
      hproc.bufferSize, hproc.posted, hproc.causes⟩
  · exact (congrArg packets.head hdata).trans hd.2

/-- `Clean` leaves the queue alone, and room for the next receive. -/
theorem QueueInv.clean (h : QueueInv q) (junk : Nat → BYTE) (hpoint : q.point = .read) :
    (q.session.recvBuffer.clean junk).data = q.session.recvBuffer.data ∧
      QueueInv (q.goto (q.session.recvBuffer.clean junk) .cleaned) := by
  have hok := h.point
  rw [hpoint] at hok
  obtain ⟨hproc, hleft⟩ := hok
  obtain ⟨hfree, hdata⟩ := clean_window junk hproc.wf hproc.capacity hproc.bufferSize hleft
  have hwf := hproc.wf.clean junk
  have hcap : (q.session.recvBuffer.clean junk).capacity = BUFFER_SIZE * BUFFER_COUNT := by
    rw [RecvBuffer.capacity_clean]
    exact hproc.capacity
  have hsize : (q.session.recvBuffer.clean junk).bufferSize = BUFFER_SIZE := by
    rw [RecvBuffer.bufferSize_clean]
    exact hproc.bufferSize
  refine ⟨hdata, hdata.trans h.data, h.consumed, ⟨hwf, hcap, hsize, hproc.posted, hproc.causes⟩, hwf, hcap, hsize, hfree,
    (congrArg packets.head hdata).trans hleft, fun p hp => ?_, hproc.causes⟩
  exact absurd (hproc.posted.symm.trans hp) (by simp)

theorem QueueInv.next (h : QueueInv q) {wsaRecv : WsaResult} (he : q.next junk wsaRecv = some q') :
    QueueInv q' ∧ q.Moved q' := by
  unfold RecvQueue.next at he
  unfold RecvQueue.Moved
  cases hpoint : q.point with
  | idle =>
    rw [hpoint] at he
    cases he
  | arrived bytes =>
    obtain ⟨b, hw, hne, hdata, hq⟩ := h.onWrite hpoint
    simp only [hpoint, if_neg hne, hw] at he
    cases he
    exact ⟨hq, hdata⟩
  | written =>
    have hok := h.point
    rw [hpoint] at hok
    simp only [hpoint] at he
    obtain ⟨⟨calls, processLen⟩, hcalls, rfl⟩ := Option.map_eq_some_iff.1 he
    exact ⟨⟨h.data, h.consumed, hok, calls, hcalls⟩, rfl⟩
  | handled processLen =>
    obtain ⟨hin, b, hr, hdata, hq⟩ := h.onRead hpoint
    simp only [hpoint, if_neg hin, hr] at he
    cases he
    exact ⟨hq, hdata⟩
  | read =>
    obtain ⟨hdata, hq⟩ := h.clean junk hpoint
    simp only [hpoint] at he
    cases he
    exact ⟨hq, hdata⟩
  | cleaned =>
    have hok := h.point
    rw [hpoint] at hok
    simp only [hpoint] at he
    cases he
    have hbuffer := recvBuffer_registerRecv wsaRecv q.session
    refine ⟨⟨?_, h.consumed, hok.2.registerRecv wsaRecv⟩, congrArg RecvBuffer.data hbuffer⟩
    exact (congrArg RecvBuffer.data hbuffer).trans h.data

theorem QueueInv.step (h : QueueInv q) {act : QueueAct} (he : queueStep junk q act = some q') :
    QueueInv q' ∧ q.Moved q' := by
  cases act with
  | completion bytes =>
    simp only [queueStep] at he
    split at he
    · rename_i p hpoint hp
      split at he
      · rename_i hlen
        cases he
        have hok := h.point
        rw [hpoint] at hok
        obtain rfl := RecvInv.posted hok p hp
        have hdata : (q.session.complete bytes).recvBuffer.data = q.session.recvBuffer.data := by
          simp only [RecvSession.complete, hp]
          exact data_store _ (RecvInv.wf hok) bytes
        refine ⟨⟨hdata.trans h.data, h.consumed, ?_, q.session, _, hok, hp, hlen.2, rfl⟩, ?_⟩
        · intro hnil
          rw [hnil] at hlen
          exact absurd hlen.1 (by decide)
        · unfold RecvQueue.Moved
          rw [hpoint]
          exact hdata
      · cases he
    · cases he
  | next wsaRecv => exact h.next he
  | disconnect =>
    cases he
    refine ⟨⟨h.data, h.consumed, h.point.setConnected false⟩, ?_⟩
    unfold RecvQueue.Moved
    simp only
    split
    · rename_i hfrom hto
      rw [hfrom] at hto
      cases hto
    · rename_i hfrom hto
      rw [hfrom] at hto
      cases hto
    · trivial

/-- **`ProcessRecv` is its calls one after the other**, when no other thread disconnects in between. -/
theorem processRecv_calls (h : QueueInv q) (hidle : q.point = .idle) {p : PostedRecv} (hp : q.session.posted = some p)
    {bytes : List BYTE} (hlen : 1 ≤ bytes.length ∧ bytes.length ≤ p.len) {wsaRecv : WsaResult} {s' : RecvSession}
    {calls : List (List BYTE)} (hret : processRecv packetBytes junk q.session bytes wsaRecv = some (s', calls)) :
    ∃ q', run (queueStep junk) Any q (.completion bytes :: .replicate 5 (.next wsaRecv)) = some q' ∧ q'.session = s' ∧
      q'.point = .idle ∧ q'.received = q.received ++ bytes := by
  let q₁ : RecvQueue := { q with session := q.session.complete bytes, point := .arrived bytes }
  have harrive : queueStep junk q (.completion bytes) = some q₁ := by
    simp only [queueStep, hidle, hp, if_pos hlen, q₁]
  obtain ⟨b, hw, hne, -, hwritten⟩ := (h.step harrive).1.onWrite rfl
  let q₂ : RecvQueue := { q₁.goto b .written with received := q.received ++ bytes }
  have hwrite : queueStep junk q₁ (.next wsaRecv) = some q₂ := by
    show q₁.next junk wsaRecv = some q₂
    unfold RecvQueue.next
    simp only [q₁, if_neg hne] at hw ⊢
    rw [hw]
  unfold processRecv at hret
  simp only [q₁] at hw
  simp only [if_neg hne, hw] at hret
  split at hret
  · cases hret
  rename_i calls' processLen hcalls
  have hhandle : queueStep junk q₂ (.next wsaRecv) = some (q₂.goto b (.handled processLen)) := by
    show (onRecv packetBytes b.data).map (fun r => q₂.goto b (.handled r.2)) = _
    rw [hcalls]
    rfl
  obtain ⟨hin, b', hr, -, -⟩ := (hwritten.step hhandle).1.onRead rfl
  have hin : ¬ ((processLen : Int) < 0 ∨ b.dataSize < processLen) := hin
  have hr : b.onRead processLen = (true, b') := hr
  let q₄ : RecvQueue := { q₂.goto b' .read with consumed := q.consumed + processLen }
  have hread : queueStep junk (q₂.goto b (.handled processLen)) (.next wsaRecv) = some q₄ := by
    show (q₂.goto b (.handled processLen)).next junk wsaRecv = some q₄
    unfold RecvQueue.next
    simp only [RecvQueue.goto, if_neg hin, hr]
    rfl
  simp only [if_neg hin, hr] at hret
  obtain ⟨rfl, -⟩ := Prod.mk.inj (Option.some.inj hret)
  let q₅ := q₄.goto (b'.clean junk) .cleaned
  have hclean : queueStep junk q₄ (.next wsaRecv) = some q₅ := rfl
  let q₆ : RecvQueue := { q₅ with session := registerRecv wsaRecv q₅.session, point := .idle }
  have hregister : queueStep junk q₅ (.next wsaRecv) = some q₆ := rfl
  refine ⟨q₆, ?_, ?_, rfl, rfl⟩
  · simp only [run, harrive, hwrite, hhandle, hread, hclean, hregister, List.replicate, Option.bind_some, Any, if_true]
    rfl
  · rfl

/-! ## Every run -/

/-- **The receive buffer is a queue**: at every point of every run it has the bytes received and not consumed, in order.
`OnWrite` appends, `OnRead` drops, nothing else changes it; a call that refuses changes nothing at all, and what `Clean`
moves goes from `readPos` on to a place that ends before it. -/
theorem recv_buffer_queue {wsaRecv : WsaResult} (h : Reach (queueStep junk) Any (recvQueue₀ wsaRecv) q) :
    (q.session.recvBuffer.data = q.received.drop q.consumed ∧ q.consumed ≤ q.received.length) ∧
    (∀ act q', queueStep junk q act = some q' → q.Moved q') ∧
    (∀ numOfBytes, ((q.session.recvBuffer.onWrite numOfBytes).1 = false →
        (q.session.recvBuffer.onWrite numOfBytes).2 = q.session.recvBuffer) ∧
      ((q.session.recvBuffer.onRead numOfBytes).1 = false →
        (q.session.recvBuffer.onRead numOfBytes).2 = q.session.recvBuffer)) ∧
    (q.point = .read → q.session.recvBuffer.freeSize < q.session.recvBuffer.bufferSize →
      0 + q.session.recvBuffer.dataSize ≤ q.session.recvBuffer.readPos) := by
  have hinv : QueueInv q := h.inv (queueInv₀ wsaRecv) (fun _ _ _ _ hi he _ => (hi.step he).1)
  refine ⟨⟨hinv.data, hinv.consumed⟩, fun act q' he => (hinv.step he).2, fun numOfBytes => ⟨fun hrefused => ?_,
    fun hrefused => ?_⟩, fun hpoint hmove => ?_⟩
  · unfold RecvBuffer.onWrite at hrefused ⊢
    split at hrefused <;> simp_all
  · unfold RecvBuffer.onRead at hrefused ⊢
    split at hrefused <;> simp_all
  · have hok := hinv.point
    rw [hpoint] at hok
    rw [Int.zero_add]
    exact hok.1.clear hok.2 hmove

/-- A whole packet and the first byte of the next, up to `Clean`; then the rest of that packet. -/
def straddleCalls : List QueueAct :=
  .completion [4, 0, 7, 0, 5] :: .replicate 5 (.next .success) ++ .completion [0, 7, 0, 9] ::
    .replicate 2 (.next .success)

theorem recv_buffer_queue_straddle :
    ∃ q, run (queueStep (fun _ => 0)) Any (recvQueue₀ .success) straddleCalls = some q ∧
      q.received = [4, 0, 7, 0, 5, 0, 7, 0, 9] ∧ q.consumed = 4 ∧
      q.session.recvBuffer.data = q.received.drop q.consumed := by
  obtain ⟨q, hrun, hr⟩ := reach_of_run (queueStep (fun _ => 0)) Any (recvQueue₀ .success) straddleCalls (by decide)
  have hend : (run (queueStep (fun _ => 0)) Any (recvQueue₀ .success) straddleCalls).map (fun q =>
      (q.received, q.consumed)) = some ([4, 0, 7, 0, 5, 0, 7, 0, 9], 4) := by decide
  rw [hrun, Option.map_some, Option.some.injEq, Prod.mk.injEq] at hend
  exact ⟨q, hrun, hend.1, hend.2, (recv_buffer_queue hr).1.1⟩

end Geon
