import GeonServer.SendOrder
import GeonServer.RecvQueue
import GeonServer.WireRoundTrip
/-!
# Link — one direction of a connection

The send path of the session at one end (`SendPath`), the receive side of the session at the other (`RecvRun`), and
between them the byte stream of the connection: what `WSASend` has taken goes into it, a receive completion takes the
next bytes out of it, as many as it likes of those that are there and fit the posted receive.  Neither end sees how the
other cuts the stream.
-/
namespace Geon

open Frames Lts

variable {Tid : Type*} [DecidableEq Tid]

/-- The two ends, how many bytes of the stream have arrived, and the `OnRecvPacket` calls made of them. -/
structure Link (Tid : Type*) where
  sender : SendState Tid (List BYTE)
  receiver : RecvSession
  arrived : Nat
  calls : List (List BYTE)

/-- The bytes the sender's `WSASend` calls have put into the connection. -/
def Link.stream (l : Link Tid) : List BYTE := l.sender.posted.flatten.flatten

inductive LinkAct (Tid : Type*)
  /-- A step of the sending end. -/
  | send (a : SendAct Tid (List BYTE))
  /-- A completion of the outstanding receive with the next `n` bytes, and what the next `WSARecv` answers. -/
  | recv (n : Nat) (wsaRecv : WsaResult)
  /-- The receiving end disconnects. -/
  | disconnect

def linkStep (junk : Nat → BYTE) (l : Link Tid) : LinkAct Tid → Option (Link Tid)
  | .send a => (sendStep l.sender a).map (fun s => { l with sender := s })
  | .recv n wsaRecv =>
    match l.receiver.posted with
    | none => none
    | some p =>
      if 1 ≤ n ∧ n ≤ p.len ∧ l.arrived + n ≤ l.stream.length then
        (processRecv packetBytes junk l.receiver ((l.stream.drop l.arrived).take n) wsaRecv).map
          (fun r => { l with receiver := r.1, arrived := l.arrived + n, calls := l.calls ++ r.2 })
      else none
  | .disconnect => some { l with receiver := { l.receiver with connected := false } }

def link₀ (wsaRecv : WsaResult) : Link Tid := ⟨sendState₀, recvSession₀ wsaRecv, 0, []⟩

/-- The bytes of one packet: its header says how many they are.  What `MakeSendBuffer` writes is one
(`head_packetOf`). -/
def IsPacket (bytes : List BYTE) : Prop := packets.head bytes = some bytes.length

instance (bytes : List BYTE) : Decidable (IsPacket bytes) := inferInstanceAs (Decidable (_ = _))

/-- Only packets are sent. -/
def SendsPackets (_ : Link Tid) (a : LinkAct Tid) (_ : Link Tid) : Prop :=
  match a with
  | .send (.send _ bytes) => IsPacket bytes
  | _ => True

instance (l : Link Tid) (a : LinkAct Tid) (l' : Link Tid) : Decidable (SendsPackets l a l') :=
  match a with
  | .send (.send _ bytes) => inferInstanceAs (Decidable (IsPacket bytes))
  | .send (.next _ _) | .send (.complete _ _ _) | .send .disconnect | .recv _ _ | .disconnect => .isTrue trivial

/-! ## The sending end -/

/-- What a step adds to what was posted. -/
theorem sendStep_posted {Buf : Type*} {s s' : SendState Tid Buf} {a : SendAct Tid Buf} (he : sendStep s a = some s') :
    s.posted <+: s'.posted := by
  cases a with
  | disconnect =>
    cases he
    exact List.prefix_rfl
  | send t b =>
    simp only [sendStep] at he
    split at he <;> cases he
    split <;> exact List.prefix_rfl
  | complete t i n =>
    simp only [sendStep] at he
    split at he
    · split at he <;> cases he
      exact List.prefix_rfl
    · cases he
  | next t wsaSend =>
    simp only [sendStep, SendState.next] at he
    cases hpc : s.pcs t <;> simp only [hpc] at he
    case idle => cases he
    case sendPush b =>
      split at he <;> cases he
      split <;> exact List.prefix_rfl
    case registerPost locked =>
      split at he <;> cases he
      · exact List.prefix_append _ _
      · exact List.prefix_rfl
    all_goals first
      | (cases he; exact List.prefix_rfl)
      | (split at he <;> cases he <;> exact List.prefix_rfl)

/-- Whatever is pushed, and about to be, is a packet. -/
def PushesPackets (s : SendState Tid (List BYTE)) : Prop :=
  (∀ bytes ∈ s.pushed, IsPacket bytes) ∧ ∀ t bytes, s.pcs t = .sendPush bytes → IsPacket bytes

/-- A thread goes on to a point that is not in front of a push. -/
theorem PushesPackets.goto {s s₁ : SendState Tid (List BYTE)} (h : PushesPackets s) {t : Tid}
    {pc : SendPc (List BYTE)} (hpcs : s₁.pcs = s.pcs) (hpushed : ∀ bytes ∈ s₁.pushed, IsPacket bytes)
    (hpc : ∀ bytes, pc = .sendPush bytes → IsPacket bytes) : PushesPackets (s₁.goto t pc) := by
  refine ⟨hpushed, fun u bytes hu => ?_⟩
  simp only [SendState.goto, hpcs] at hu
  by_cases hut : u = t
  · subst hut
    rw [Function.update_self] at hu
    exact hpc bytes hu
  · rw [Function.update_of_ne hut] at hu
    exact h.2 u bytes hu

theorem PushesPackets.step {s s' : SendState Tid (List BYTE)} {a : SendAct Tid (List BYTE)} (h : PushesPackets s)
    (he : sendStep s a = some s') (hok : ∀ t bytes, a = .send t bytes → IsPacket bytes) : PushesPackets s' := by
  cases a with
  | disconnect =>
    cases he
    exact h
  | send t b =>
    simp only [sendStep] at he
    split at he <;> cases he
    split
    · exact h
    · exact h.goto rfl h.1 (fun bytes hb => by cases hb; exact hok t b rfl)
  | complete t i n =>
    simp only [sendStep] at he
    split at he
    · split at he <;> cases he
      exact h.goto rfl h.1 (fun _ hb => by cases hb)
    · cases he
  | next t wsaSend =>
    simp only [sendStep, SendState.next] at he
    have hleave : ∀ (locked : Bool) bytes, (if locked = true then .processUnlock else .idle : SendPc (List BYTE)) =
        .sendPush bytes → IsPacket bytes := by
      intro locked bytes hb
      cases locked <;> cases hb
    cases hpc : s.pcs t <;> simp only [hpc] at he
    case idle => cases he
    case sendPush b =>
      have hpushed : ∀ bytes ∈ s.pushed ++ [b], IsPacket bytes := by
        intro bytes hb
        rcases List.mem_append.1 hb with hb | hb
        · exact h.1 bytes hb
        · rw [List.mem_singleton.1 hb]
          exact h.2 t b hpc
      split at he <;> cases he
      split <;> exact h.goto rfl hpushed (fun _ hb => by cases hb)
    all_goals first
      | (cases he; exact h.goto rfl h.1 (fun _ hb => by cases hb))
      | (cases he; exact h.goto rfl h.1 (hleave _))
      | (split at he <;> cases he <;> first
          | exact h.goto rfl h.1 (fun _ hb => by cases hb)
          | exact h.goto rfl h.1 (hleave _))

/-! ## The invariant -/

/-- **The invariant of the link**: the calls and what is left in the receive buffer are the bytes that have arrived, cut
into packets. -/
structure LinkInv (l : Link Tid) : Prop where
  pushes : PushesPackets l.sender
  posted : l.sender.posted.flatten.Sublist l.sender.pushed
  arrived : l.arrived ≤ l.stream.length
  cut : Cut packets (l.stream.take l.arrived) l.calls l.receiver.recvBuffer.data
  receiver : RecvInv l.receiver

variable {junk : Nat → BYTE} {l l' : Link Tid}

omit [DecidableEq Tid] in
theorem LinkInv.packets_posted (h : LinkInv l) : ∀ bytes ∈ l.sender.posted.flatten, ∀ rest,
    packets.head (bytes ++ rest) = some bytes.length :=
  fun bytes hb rest => packets.head_append bytes rest _ (h.pushes.1 bytes (h.posted.subset hb))

omit [DecidableEq Tid] in
/-- **The calls are the packets posted first.** -/
theorem LinkInv.calls (h : LinkInv l) : l.calls <+: l.sender.posted.flatten :=
  h.cut.prefix_of_flatten (List.take_prefix _ _) h.packets_posted head_nil

omit [DecidableEq Tid] in
/-- The stream is cut at packets that are not empty, so `OnRecv` returns. -/
theorem LinkInv.positive (h : LinkInv l) : Positive packets l.stream :=
  Done.positive ⟨Cut.of_flatten _ h.packets_posted, head_nil⟩

omit [DecidableEq Tid] in
/-- When everything has arrived, everything was handed out. -/
theorem LinkInv.calls_all (h : LinkInv l) (hall : l.arrived = l.stream.length) :
    l.calls = l.sender.posted.flatten ∧ l.receiver.recvBuffer.data = [] := by
  have hcut := h.cut
  rw [hall, List.take_length] at hcut
  exact Done.unique ⟨hcut, h.receiver.leftover⟩ ⟨Cut.of_flatten _ h.packets_posted, head_nil⟩

/-- What a completion of the next `n` bytes does. -/
theorem LinkInv.recv (h : LinkInv l) {p : PostedRecv} (hp : l.receiver.posted = some p) {n : Nat}
    (hn : 1 ≤ n ∧ n ≤ p.len ∧ l.arrived + n ≤ l.stream.length) (wsaRecv : WsaResult) :
    ∃ b calls l', linkStep junk l (.recv n wsaRecv) = some l' ∧ LinkInv l' ∧
      l' = { l with
        receiver := registerRecv wsaRecv { l.receiver with recvBuffer := b, posted := none },
        arrived := l.arrived + n, calls := l.calls ++ calls } := by
  obtain ⟨hn1, hnp, hle'⟩ := hn
  have hlen : ((l.stream.drop l.arrived).take n).length = n := by
    rw [List.length_take, List.length_drop]
    omega
  have hne : (l.stream.drop l.arrived).take n ≠ [] := by
    intro h0
    rw [h0, List.length_nil] at hlen
    omega
  have htake : l.stream.take (l.arrived + n) = l.stream.take l.arrived ++ (l.stream.drop l.arrived).take n :=
    List.take_add
  have hcut := h.cut.append ((l.stream.drop l.arrived).take n)
  rw [← htake] at hcut
  rcases processRecv_spec h.receiver junk hp hne (by rw [hlen]; exact hnp) wsaRecv with
    ⟨hno, -⟩ | ⟨ps, r, b, hd, hpr, hinv, hb⟩
  · -- the bytes received are part of a stream of packets, so the cutting ends
    have hall : Positive packets (l.stream.take (l.arrived + n) ++ l.stream.drop (l.arrived + n)) := by
      rw [List.take_append_drop]
      exact h.positive
    have hpos := hall.of_append
    obtain ⟨ps, r, hd⟩ := (hpos.rest hcut).done
    rw [onRecvLoop_of_done _ hd] at hno
    cases hno
  · refine ⟨b, ps, _, ?_, ?_, rfl⟩
    · simp only [linkStep, hp, if_pos (And.intro hn1 (And.intro hnp hle')), hpr, Option.map_some]
    · refine ⟨h.pushes, h.posted, hle', ?_, hinv.registerRecv wsaRecv⟩
      show Cut packets (l.stream.take (l.arrived + n)) (l.calls ++ ps) _
      rw [recvBuffer_registerRecv]
      exact hcut.trans (hb ▸ hd.1)

/-- **What a step of the link can be.** -/
theorem linkStep_cases (h : LinkInv l) {a : LinkAct Tid} (he : linkStep junk l a = some l') :
    (∃ a' s, a = .send a' ∧ sendStep l.sender a' = some s ∧ l' = { l with sender := s }) ∨
    (∃ n wsaRecv b calls, a = .recv n wsaRecv ∧ 1 ≤ n ∧ l.arrived + n ≤ l.stream.length ∧ LinkInv l' ∧
      l' = { l with
        receiver := registerRecv wsaRecv { l.receiver with recvBuffer := b, posted := none },
        arrived := l.arrived + n, calls := l.calls ++ calls }) ∨
    a = .disconnect ∧ l' = { l with receiver := { l.receiver with connected := false } } := by
  cases a with
  | disconnect =>
    cases he
    exact .inr (.inr ⟨rfl, rfl⟩)
  | send a =>
    obtain ⟨s, hs, rfl⟩ := Option.map_eq_some_iff.1 he
    exact .inl ⟨a, s, rfl, hs, rfl⟩
  | recv n wsaRecv =>
    have hstep := he
    simp only [linkStep] at he
    split at he
    · cases he
    · rename_i p hp
      split at he
      · rename_i hn
        obtain ⟨b, calls, l₁, hrecv, hinv, hl⟩ := h.recv hp hn wsaRecv
        obtain rfl := Option.some.inj (hrecv.symm.trans hstep)
        exact .inr (.inl ⟨n, wsaRecv, b, calls, rfl, hn.1, hn.2.2, hinv, hl⟩)
      · cases he

theorem linkStep_inv (hs : Reach sendStep Any sendState₀ l.sender) (h : LinkInv l) {a : LinkAct Tid}
    (he : linkStep junk l a = some l') (hok : SendsPackets l a l') : LinkInv l' := by
  obtain ⟨a, s, rfl, hs', rfl⟩ | ⟨n, wsaRecv, b, calls, rfl, -, -, hinv, -⟩ | ⟨rfl, rfl⟩ := linkStep_cases h he
  · have hgrow : l.stream <+: s.posted.flatten.flatten := (sendStep_posted hs').flatten.flatten
    have htake : s.posted.flatten.flatten.take l.arrived = l.stream.take l.arrived := by
      obtain ⟨ys, hys⟩ := hgrow
      rw [← hys, List.take_append_of_le_length h.arrived]
    refine ⟨h.pushes.step hs' (fun t bytes ha => by subst ha; exact hok), posted_sublist (hs.next hs' trivial),
      Nat.le_trans h.arrived hgrow.length_le, ?_, h.receiver⟩
    show Cut packets (s.posted.flatten.flatten.take l.arrived) _ _
    rw [htake]
    exact h.cut
  · exact hinv
  · exact ⟨h.pushes, h.posted, h.arrived, h.cut, h.receiver.setConnected false⟩

/-! ## Every run -/

/-- The sending end of a run is a run of the send path. -/
theorem sender_reach {ok : SendState Tid (List BYTE) → SendAct Tid (List BYTE) → SendState Tid (List BYTE) → Prop}
    {okLink : Link Tid → LinkAct Tid → Link Tid → Prop} {wsaRecv : WsaResult}
    (hok : ∀ l a l', okLink l (.send a) l' → ok l.sender a l'.sender)
    (h : Reach (linkStep junk) okLink (link₀ wsaRecv) l) : Reach sendStep ok sendState₀ l.sender := by
  refine Reach.map sendStep Link.sender (fun l a l' he hok' => ?_) h
  cases a with
  | disconnect =>
    cases he
    exact .inl rfl
  | recv n wsaRecv =>
    simp only [linkStep] at he
    split at he
    · cases he
    · split at he
      · obtain ⟨r, -, rfl⟩ := Option.map_eq_some_iff.1 he
        exact .inl rfl
      · cases he
  | send a =>
    obtain ⟨s, hs, rfl⟩ := Option.map_eq_some_iff.1 he
    exact .inr ⟨a, hs, hok l a _ hok'⟩

omit [DecidableEq Tid] in
theorem linkInv₀ (wsaRecv : WsaResult) : LinkInv (link₀ wsaRecv : Link Tid) := by
  refine ⟨⟨fun _ hb => (by cases hb), fun _ _ hb => (by cases hb)⟩, .slnil, Nat.le_refl 0, ?_, recvInv_start wsaRecv⟩
  show Cut packets [] [] (recvSession₀ wsaRecv).recvBuffer.data
  rw [recvSession₀, recvBuffer_registerRecv]
  exact .rest []

theorem linkInv_of_reach {wsaRecv : WsaResult} (h : Reach (linkStep junk) SendsPackets (link₀ wsaRecv) l) :
    LinkInv l :=
  h.inv (linkInv₀ wsaRecv)
    (fun _ _ _ hr hI he hok => linkStep_inv (sender_reach (fun _ _ _ _ => trivial) hr) hI he hok)

/-- **What arrives is what was sent.**  In every run in which only packets are sent, whatever `WSASend` and `WSARecv`
answer and however the stream is cut into completions, the `OnRecvPacket` calls are packets pushed at the other end,
whole, in the order of the pushes and none of them twice; while no batch was dropped they are the first of them.  When
everything posted has arrived it was handed out, and nothing is left in the buffer; and until then every completion the
posted receive allows is processed. -/
theorem link_in_order {wsaRecv : WsaResult} (h : Reach (linkStep junk) SendsPackets (link₀ wsaRecv : Link Tid) l) :
    l.calls.Sublist l.sender.pushed ∧
    (l.sender.dropped = [] → l.calls <+: l.sender.pushed) ∧
    (l.arrived = l.stream.length → l.calls = l.sender.posted.flatten ∧ l.receiver.recvBuffer.data = []) ∧
    ∀ p, l.receiver.posted = some p → ∀ n : Nat, 1 ≤ n → n ≤ p.len → l.arrived + n ≤ l.stream.length →
      ∀ wsaRecv, (linkStep junk l (.recv n wsaRecv)).isSome := by
  have hI := linkInv_of_reach h
  have hsender : Reach sendStep Any sendState₀ l.sender := sender_reach (fun _ _ _ _ => trivial) h
  refine ⟨hI.calls.sublist.trans (posted_sublist hsender),
    fun hd => hI.calls.trans (posted_first_of_dropped hsender hd), hI.calls_all, ?_⟩
  intro p hp n h1 hn hle wsaRecv
  obtain ⟨_, _, _, he, -⟩ := hI.recv hp ⟨h1, hn, hle⟩ wsaRecv
  rw [he]
  rfl

/-- Two packets are sent in two batches; nine of their ten bytes arrive, cut inside the first header and inside both
packets. -/
def twoPackets : List (LinkAct Two) :=
  [.send (.send .one (packetOf 7 [1])), .send (.next .one .success), .send (.next .one .success),
   .send (.send .two (packetOf 8 [2])), .send (.next .one .success), .send (.next .one .success),
   .send (.next .two .success), .recv 3 .success, .send (.complete .two 0 5)] ++
    .replicate 8 (.send (.next .two .success)) ++ [.recv 1 .success, .recv 5 .success]

theorem link_in_order_two : ∃ l, run (linkStep (fun _ => 0)) SendsPackets (link₀ .success) twoPackets = some l ∧
    l.calls = [packetOf 7 [1]] ∧ l.calls <+: l.sender.pushed := by
  obtain ⟨l, hrun, hr⟩ := reach_of_run (linkStep (fun _ => 0)) SendsPackets (link₀ .success) twoPackets (by decide)
  have hl : (run (linkStep (fun _ => 0)) SendsPackets (link₀ .success) twoPackets).map
      (fun l => (l.calls, l.sender.dropped)) = some ([packetOf 7 [1]], []) := by decide
  simp only [hrun, Option.map_some, Option.some.injEq, Prod.mk.injEq] at hl
  exact ⟨l, hrun, hl.1, (link_in_order hr).2.1 hl.2⟩

/-! ## Everything arrives -/

/-- Only packets are sent, and a `WSASend` that fails has lost the connection. -/
def SendsWell (l : Link Tid) (a : LinkAct Tid) (l' : Link Tid) : Prop :=
  SendsPackets l a l' ∧ match a with
    | .send a => FailsWhenClosing l.sender a l'.sender
    | _ => True

instance (l : Link Tid) (a : LinkAct Tid) (l' : Link Tid) : Decidable (SendsWell l a l') :=
  match a with
  | .send a => inferInstanceAs (Decidable (SendsPackets l (.send a) l' ∧ FailsWhenClosing l.sender a l'.sender))
  | .recv _ _ | .disconnect => .isTrue ⟨trivial, trivial⟩

/-- The steps that are left when nobody calls `Send` or `Disconnect` and no `WSARecv` fails any more: what is inside the
send path goes on, and the stream arrives. -/
def Flowing (l : Link Tid) (a : LinkAct Tid) (l' : Link Tid) : Prop :=
  match a with
  | .send a => Settling l.sender a l'.sender
  | .recv _ wsaRecv => wsaRecv.failed = none
  | .disconnect => False

omit [DecidableEq Tid] in
theorem Flowing.sendsWell {a : LinkAct Tid} (h : Flowing l a l') : SendsWell l a l' := by
  cases a with
  | disconnect => exact absurd h id
  | recv n wsaRecv => exact ⟨trivial, trivial⟩
  | send a =>
    refine ⟨?_, h.2⟩
    cases a with
    | send t bytes => exact absurd h.1 id
    | next | complete | disconnect => trivial

/-- The receiving end takes part: it is connected, and its receive is outstanding. -/
structure Receiving (l : Link Tid) : Prop where
  connected : l.receiver.connected = true
  posted : l.receiver.posted.isSome = true

theorem Receiving.step (h : Receiving l) (hI : LinkInv l) {a : LinkAct Tid} (he : linkStep junk l a = some l')
    (hok : Flowing l a l') : Receiving l' := by
  obtain ⟨a, s, rfl, -, rfl⟩ | ⟨n, wsaRecv, b, calls, rfl, -, -, -, rfl⟩ | ⟨rfl, -⟩ := linkStep_cases hI he
  · exact ⟨h.connected, h.posted⟩
  · have hfailed : wsaRecv.failed = none := hok
    have hregister : registerRecv wsaRecv { l.receiver with recvBuffer := b, posted := none } =
        { l.receiver with recvBuffer := b, posted := some ⟨b.writePos, b.freeSize⟩ } := by
      simp [registerRecv, h.connected, hfailed]
    rw [hregister]
    exact ⟨h.connected, rfl⟩
  · exact absurd hok id

/-- What holds in the states from which the rest arrives. -/
structure Delivering (l : Link Tid) : Prop where
  inv : LinkInv l
  sender : SendReach l.sender
  receiving : Receiving l

theorem Delivering.step (h : Delivering l) {a : LinkAct Tid} (he : linkStep junk l a = some l')
    (hok : Flowing l a l') : Delivering l' := by
  refine ⟨?_, ?_, h.receiving.step h.inv he hok⟩
  · exact linkStep_inv (h.sender.mono (fun _ _ _ _ => trivial)) h.inv he hok.sendsWell.1
  · obtain ⟨a, s, rfl, hs, rfl⟩ | ⟨n, wsaRecv, b, calls, rfl, -, -, -, rfl⟩ | ⟨rfl, -⟩ := linkStep_cases h.inv he
    · exact h.sender.next hs hok.2
    · exact h.sender
    · exact absurd hok id

/-- **A step of the sending end brings its work down, and an arrival the bytes on the way.** -/
theorem Delivering.down [Fintype Tid] (h : Delivering l) {a : LinkAct Tid} (he : linkStep junk l a = some l')
    (hok : Flowing l a l') :
    Prod.Lex (· < ·) (· < ·) (l'.sender.work, l'.stream.length - l'.arrived)
      (l.sender.work, l.stream.length - l.arrived) := by
  obtain ⟨a, s, rfl, hs, rfl⟩ | ⟨n, wsaRecv, b, calls, rfl, hn, hle, -, rfl⟩ | ⟨rfl, -⟩ := linkStep_cases h.inv he
  · obtain ⟨w, hI⟩ := sendFifo_of_reach (h.sender.mono (fun _ _ _ _ => trivial))
    exact .left _ _ (work_step hI hs hok.1)
  · refine .right _ ?_
    show l.stream.length - (l.arrived + n) < l.stream.length - l.arrived
    omega
  · exact absurd hok id

/-- While bytes are on the way the posted receive takes one. -/
theorem Delivering.recv_one (h : Delivering l) (hless : l.arrived < l.stream.length) :
    ∃ l', linkStep junk l (.recv 1 .success) = some l' := by
  obtain ⟨p, hp⟩ := Option.isSome_iff_exists.1 h.receiving.posted
  have hfree := h.inv.receiver.free
  have hlen : ((1 : Nat) : Int) ≤ p.len := by
    obtain rfl := h.inv.receiver.posted p hp
    simp only [BUFFER_SIZE] at hfree
    simp only
    omega
  obtain ⟨_, _, l', he, -⟩ := h.inv.recv hp ⟨Nat.le_refl 1, hlen, hless⟩ .success
  exact ⟨l', he⟩

/-- **Everything that was sent arrives.**  From every state of a run in which only packets are sent and only a lost
connection makes `WSASend` fail, with the receiving end connected and its receive outstanding: once nobody calls `Send`
or `Disconnect` and no `WSARecv` fails any more, so that a receive stays outstanding, every order of the remaining steps,
completions and arrivals comes to an end, and then, if the sending end is still connected, the `OnRecvPacket` calls are
all packets pushed, in order. -/
theorem link_delivers [Fintype Tid] [Nonempty Tid] {wsaRecv : WsaResult}
    (h : Reach (linkStep junk) SendsWell (link₀ wsaRecv : Link Tid) l) (hreceiving : Receiving l) :
    Ends (linkStep junk) Flowing
      (fun l => SendRest l.sender ∧ l.calls = l.sender.posted.flatten ∧
        (l.sender.connected = true → l.calls = l.sender.pushed)) l := by
  refine Ends.of_measure (I := Delivering) (WellFounded.prod_lex wellFounded_lt wellFounded_lt)
    (fun l => (l.sender.work, l.stream.length - l.arrived)) ?_ ?_ ?_
    ⟨linkInv_of_reach (h.mono (fun _ _ _ hok => hok.1)), sender_reach (fun _ _ _ hok => hok.2) h, hreceiving⟩
  · exact fun l a l' hD he hok => hD.step he hok
  · exact fun l a l' hD he hok => hD.down he hok
  · intro l hD hstuck
    have hsender : Stuck sendStep Settling l.sender := fun a s hs hok =>
      hstuck (.send a) { l with sender := s } (by rw [linkStep, hs]; rfl) hok
    have hrest : SendRest l.sender := rest_of_stuck hD.sender.lockHeld
      (fun _ _ _ => ⟨trivial, fun _ _ _ he => by cases he⟩) (fun _ _ _ _ _ => ⟨trivial, trivial⟩) hsender
    have hall : l.arrived = l.stream.length := by
      by_contra hne
      obtain ⟨l', he⟩ : ∃ l', linkStep junk l (.recv 1 .success) = some l' :=
        hD.recv_one (Nat.lt_of_le_of_ne hD.inv.arrived hne)
      exact hstuck _ l' he rfl
    have hcalls := hD.inv.calls_all hall
    refine ⟨hrest, hcalls.1, fun hc => ?_⟩
    obtain ⟨w, hI⟩ := hD.sender.inv
    rw [hcalls.1, (hI.posted_all hrest hc).2]

/-- However the rest goes, the second packet arrives. -/
theorem link_delivers_two : ∃ l, run (linkStep (fun _ => 0)) SendsWell (link₀ .success) twoPackets = some l ∧
    l.calls = [packetOf 7 [1]] ∧
    ∀ l', Reach (linkStep (fun _ => 0)) Flowing l l' → Stuck (linkStep (fun _ => 0)) Flowing l' →
      l'.sender.connected = true → l'.calls = l'.sender.pushed := by
  obtain ⟨l, hrun, hr⟩ := reach_of_run (linkStep (fun _ => 0)) SendsWell (link₀ .success) twoPackets (by decide)
  have hl : (run (linkStep (fun _ => 0)) SendsWell (link₀ .success) twoPackets).map
      (fun l => (l.calls, l.receiver.connected, l.receiver.posted.isSome)) = some ([packetOf 7 [1]], true, true) := by
    decide
  simp only [hrun, Option.map_some, Option.some.injEq, Prod.mk.injEq] at hl
  have : Nonempty Two := ⟨.one⟩
  exact ⟨l, hrun, hl.1, fun l' hreach hstuck =>
    ((link_delivers hr ⟨hl.2.1, hl.2.2⟩).stuck hreach hstuck).2.2⟩

end Geon
