import GeonServer.RecvRun
/-!
# OnRecvCalls — the size field against the loop that believes it

The loop of `PacketSession::OnRecv` compares the size field of a packet with the bytes that are there and with nothing
else.  It comes to its end exactly when no size field it comes to is 0 (`onRecv_returns_iff`), and a packet it hands out
has a header of its own, and a body as long as `HandlePacket` computes, exactly when none is below 4 (`calls_ok_iff`).
-/
namespace Geon

open Frames Relation

variable {β γ : Type*}

/-! ## The rounds of the loop -/

/-- A round of the loop that does not exit: from this `processLen` to that. -/
def Round (buffer : List BYTE) (processLen processLen' : Nat) : Prop :=
  ∃ size, packetHead (buffer.drop processLen) = some size ∧ processLen' = processLen + size

/-- The `OnRecvPacket` calls of the first rounds from `processLen` on, whether or not the loop comes to an end. -/
def onRecvTrace (onRecvPacket : List BYTE → Nat → β) (buffer : List BYTE) : Nat → Nat → List β
  | 0, _ => []
  | rounds + 1, processLen =>
    match packetHead (buffer.drop processLen) with
    | none => []
    | some size =>
      onRecvPacket (buffer.drop processLen) size :: onRecvTrace onRecvPacket buffer rounds (processLen + size)

/-- The calls of a loop that returns. -/
theorem onRecvTrace_eq (onRecvPacket : List BYTE → Nat → β) (buffer : List BYTE) :
    ∀ (fuel processLen : Nat) (calls : List β) (q : Nat),
      onRecvLoop onRecvPacket buffer fuel processLen = some (calls, q) →
        onRecvTrace onRecvPacket buffer fuel processLen = calls
  | 0, _, _, _, h => by cases h
  | fuel + 1, processLen, calls, q, h => by
    rw [onRecvLoop_succ] at h
    simp only [packets] at h
    unfold onRecvTrace
    cases hn : packetHead (buffer.drop processLen) with
    | none =>
      rw [hn] at h
      cases h
      rfl
    | some n =>
      rw [hn] at h
      simp only [Option.map_eq_some_iff, Prod.mk.injEq, Prod.exists] at h
      obtain ⟨rest, q', h, rfl, -⟩ := h
      exact congrArg _ (onRecvTrace_eq onRecvPacket buffer fuel _ rest q' h)

/-- How long the loop runs, and where it ends, does not depend on what `OnRecvPacket` makes of the packets. -/
theorem onRecvLoop_shape (f : List BYTE → Nat → β) (g : List BYTE → Nat → γ) (buffer : List BYTE) :
    ∀ (fuel processLen : Nat) (calls : List β) (q : Nat), onRecvLoop f buffer fuel processLen = some (calls, q) →
      ∃ calls', onRecvLoop g buffer fuel processLen = some (calls', q) ∧ calls'.length = calls.length
  | 0, _, _, _, h => by cases h
  | fuel + 1, processLen, calls, q, h => by
    rw [onRecvLoop_succ] at h ⊢
    split at h
    · cases h
      exact ⟨[], rfl, rfl⟩
    · simp only [Option.map_eq_some_iff, Prod.mk.injEq, Prod.exists] at h
      obtain ⟨rest, q', h, rfl, rfl⟩ := h
      obtain ⟨rest', h', hlen⟩ := onRecvLoop_shape f g buffer fuel _ rest q' h
      exact ⟨_, by rw [h']; rfl, congrArg (· + 1) hlen⟩

theorem visits_of_rounds {buffer : List BYTE} {processLen : Nat} (h : ReflTransGen (Round buffer) 0 processLen) :
    Visits buffer processLen := by
  induction h with
  | refl => exact .start
  | tail _ hround ih =>
    obtain ⟨size, hn, rfl⟩ := hround
    obtain ⟨header, hh, rfl, hle⟩ := (packetHead_eq_some _ _).1 hn
    exact .packet ih hh hle

theorem rounds_of_visits {buffer : List BYTE} {processLen : Nat} (h : Visits buffer processLen) :
    ReflTransGen (Round buffer) 0 processLen := by
  induction h with
  | start => exact .refl
  | packet _ hh hle ih => exact ih.tail ⟨_, (packetHead_eq_some _ _).2 ⟨_, hh, rfl, hle⟩, rfl⟩

theorem cut_of_visits {stream : List BYTE} {processLen : Nat} (h : Visits stream processLen) :
    ∃ ps, Cut packets stream ps (stream.drop processLen) := by
  induction h with
  | start => exact ⟨[], .rest _⟩
  | @packet k header _ hh hle ih =>
    obtain ⟨ps, hc⟩ := ih
    have hn : packets.head (stream.drop k) = some header.size := (packetHead_eq_some _ _).2 ⟨header, hh, rfl, hle⟩
    refine ⟨ps ++ [(stream.drop k).take header.size], hc.trans ?_⟩
    rw [← List.drop_drop]
    exact .frame hn (.rest _)

/-- The packets the parser comes to are the frames of the stream. -/
theorem allFrames_iff {P : Nat → Prop} {stream : List BYTE} : AllFrames packets P stream ↔
    ∀ processLen size, Visits stream processLen → packetHead (stream.drop processLen) = some size → P size := by
  constructor
  · intro h k size hk hn
    obtain ⟨ps, hc⟩ := cut_of_visits hk
    exact h ps _ size hc hn
  · intro h ps r n hc hn
    obtain ⟨k, hk, rfl⟩ := visits_of_cut hc
    exact h k n hk hn

/-! ## Whether the loop comes to its end -/

/-- The loop returns: every round takes it further, and after as many rounds as there are bytes it is out. -/
structure Returns (onRecvPacket : List BYTE → Nat → β) (buffer : List BYTE) : Prop where
  rises : ∀ processLen processLen', ReflTransGen (Round buffer) 0 processLen → Round buffer processLen processLen' →
    processLen < processLen'
  returns : ∃ calls processLen, onRecvLoop onRecvPacket buffer (buffer.length + 1) 0 = some (calls, processLen) ∧
    calls.length ≤ buffer.length ∧ processLen ≤ buffer.length

/-- **`OnRecv` returns exactly when no size field it comes to is 0**, whatever the peer has sent. -/
theorem onRecv_returns_iff (onRecvPacket : List BYTE → Nat → β) (buffer : List BYTE) :
    Returns onRecvPacket buffer ↔ SizesPositive buffer := by
  constructor
  · intro h k header hk hh
    by_contra hzero
    have hn : packetHead (buffer.drop k) = some 0 := (packetHead_eq_some _ _).2 ⟨header, hh, by omega, Nat.zero_le _⟩
    exact absurd (h.rises k k (rounds_of_visits hk) ⟨0, hn, rfl⟩) (lt_irrefl k)
  · intro h
    constructor
    · rintro k k' hk ⟨size, hn, rfl⟩
      obtain ⟨header, hh, rfl, -⟩ := (packetHead_eq_some _ _).1 hn
      have := h k header (visits_of_rounds hk) hh
      omega
    · obtain ⟨ps, r, hd⟩ := h.positive.done
      have hloop := onRecvLoop_of_done buffer hd
      obtain ⟨calls, hcalls, hlen⟩ := onRecvLoop_shape packetBytes onRecvPacket buffer _ 0 ps _ hloop
      refine ⟨calls, _, hcalls, ?_, onRecv_le hloop⟩
      rw [hlen]
      exact hd.length_le

theorem onRecv_never_returns (onRecvPacket : List BYTE → Nat → β) {buffer : List BYTE} (h : ¬ SizesPositive buffer)
    (fuel : Nat) : onRecvLoop onRecvPacket buffer fuel 0 = none := by
  cases hl : onRecvLoop onRecvPacket buffer fuel 0 with
  | none => rfl
  | some r =>
    obtain ⟨calls, hcalls, -⟩ := onRecvLoop_shape onRecvPacket packetBytes buffer fuel 0 r.1 r.2 hl
    obtain ⟨hd, -⟩ := done_of_onRecvLoop buffer fuel 0 calls r.2 hcalls
    rw [List.drop_zero] at hd
    refine absurd (fun k header hk hh => ?_) h
    by_contra hzero
    have hn : packetHead (buffer.drop k) = some 0 := (packetHead_eq_some _ _).2 ⟨header, hh, by omega, Nat.zero_le _⟩
    exact absurd (allFrames_iff.1 hd.positive k 0 hk hn) (Nat.lt_irrefl 0)

/-- **Four zero bytes**: a size field of 0 keeps the loop where it is. -/
theorem onRecv_hangs : ¬ Returns packetBytes [0, 0, 0, 0] ∧
    ∀ fuel, onRecvLoop packetBytes [0, 0, 0, 0] fuel 0 = none := by
  have hsize : ¬ SizesPositive [0, 0, 0, 0] := fun h => absurd (h 0 ⟨0, 0⟩ .start rfl) (by decide)
  have hnone := onRecv_never_returns packetBytes hsize
  refine ⟨fun h => ?_, hnone⟩
  obtain ⟨calls, processLen, hret, -⟩ := h.returns
  rw [hnone] at hret
  cases hret

/-! ## What `OnRecvPacket` is given -/

/-- The `OnRecvPacket` calls a session makes on these completions, `buffer` being what is there from its pointer on:
those of an `OnRecv` that does not return too. -/
def CallMade (junk : Nat → BYTE) : RecvSession → List (List BYTE) → List BYTE → Nat → Prop
  | _, [], _, _ => False
  | s, bytes :: rest, buffer, len =>
    (bytes.length ≠ 0 ∧ ∃ b rounds, (s.complete bytes).recvBuffer.onWrite bytes.length = (true, b) ∧
      (buffer, len) ∈ onRecvTrace Prod.mk b.data rounds 0) ∨
    ∃ s' calls, processRecv packetBytes junk s bytes .success = some (s', calls) ∧ CallMade junk s' rest buffer len

/-- `len - sizeof(PacketHeader)`, which is a `size_t`, as the `int` that `ParseFromArray` takes. -/
def bodyLength (len : BitVec 32) : BitVec 32 := (len.signExtend 64 - 4#64).setWidth 32

theorem bodyLength_toInt {len : Nat} (h : len < 65536) :
    (bodyLength (BitVec.ofNat 32 len)).toInt = (len : Int) - sizeofPacketHeader := by
  have hmsb : (BitVec.ofNat 32 len).msb = false := by
    rw [BitVec.msb_eq_false_iff_two_mul_lt, BitVec.toNat_ofNat]
    omega
  unfold bodyLength
  rw [BitVec.signExtend_eq_setWidth_of_msb_false hmsb, BitVec.toInt_eq_toNat_cond]
  simp only [BitVec.toNat_setWidth, BitVec.toNat_sub, BitVec.toNat_ofNat, sizeofPacketHeader]
  split <;> omega

/-- The call is for a packet that is there, and its body is what is in the packet behind the header. -/
structure CallOk (stream buffer : List BYTE) (len : Nat) : Prop where
  header : sizeofPacketHeader ≤ len
  received : len ≤ buffer.length
  unconsumed : ∃ processLen, Visits stream processLen ∧ buffer <+: stream.drop processLen
  body : 0 ≤ (bodyLength (BitVec.ofNat 32 len)).toInt ∧
    sizeofPacketHeader + (bodyLength (BitVec.ofNat 32 len)).toInt = len

theorem mem_onRecvTrace (buffer : List BYTE) {call : List BYTE × Nat} : ∀ (rounds processLen : Nat),
    call ∈ onRecvTrace Prod.mk buffer rounds processLen → Visits buffer processLen →
      ∃ k, Visits buffer k ∧ call.1 = buffer.drop k ∧ packetHead (buffer.drop k) = some call.2
  | 0, _, h, _ => by cases h
  | rounds + 1, processLen, h, hk => by
    unfold onRecvTrace at h
    split at h
    · cases h
    · rename_i size hn
      rcases List.mem_cons.1 h with rfl | h
      · exact ⟨processLen, hk, rfl, hn⟩
      · obtain ⟨header, hh, rfl, hle⟩ := (packetHead_eq_some _ _).1 hn
        exact mem_onRecvTrace buffer rounds _ h (.packet hk hh hle)

theorem mem_onRecvTrace_of_rounds {buffer : List BYTE} {k size processLen : Nat}
    (h : ReflTransGen (Round buffer) processLen k) (hn : packetHead (buffer.drop k) = some size) :
    ∃ rounds, (buffer.drop k, size) ∈ onRecvTrace Prod.mk buffer rounds processLen := by
  induction h using ReflTransGen.head_induction_on with
  | refl =>
    refine ⟨1, ?_⟩
    unfold onRecvTrace
    rw [hn]
    exact List.mem_cons_self
  | head hround _ ih =>
    obtain ⟨n, hn', rfl⟩ := hround
    obtain ⟨rounds, hmem⟩ := ih
    refine ⟨rounds + 1, ?_⟩
    unfold onRecvTrace
    rw [hn']
    exact List.mem_cons_of_mem _ hmem

variable {junk : Nat → BYTE} {s : RecvSession} {P : Nat → Prop}

/-- The calls of a session are those of its next `OnRecv`, and those after it. -/
theorem callMade_cons (hi : RecvInv s) (hconn : s.connected = true) {c : List BYTE} {cs : List (List BYTE)}
    (hne : c ≠ []) (hfit : fitsPosted junk s (c :: cs) = true) (buffer : List BYTE) (len : Nat) :
    CallMade junk s (c :: cs) buffer len ↔
      (∃ k, Visits (s.recvBuffer.data ++ c) k ∧ buffer = (s.recvBuffer.data ++ c).drop k ∧
        packetHead buffer = some len) ∨
      ∃ s' ps, Taken junk s c cs s' ps ∧ CallMade junk s' cs buffer len := by
  obtain ⟨⟨b, hw, hdata⟩, -⟩ := processRecv_success hi hconn hne hfit
  constructor
  · rintro (⟨-, b', rounds, hw', hmem⟩ | ⟨s', ps, hpr, hcall⟩)
    · obtain rfl : b = b' := congrArg Prod.snd (hw.symm.trans hw')
      rw [hdata] at hmem
      obtain ⟨k, hk, rfl, hn⟩ := mem_onRecvTrace _ rounds 0 hmem .start
      exact .inl ⟨k, hk, rfl, hn⟩
    · exact .inr ⟨s', ps, taken_of_processRecv hi hconn hne hfit hpr, hcall⟩
  · rintro (⟨k, hk, rfl, hn⟩ | ⟨s', ps, ht, hcall⟩)
    · obtain ⟨rounds, hmem⟩ := mem_onRecvTrace_of_rounds (rounds_of_visits hk) hn
      exact .inl ⟨fun h0 => hne (List.length_eq_zero_iff.1 h0), b, rounds, hw, hdata ▸ hmem⟩
    · exact .inr ⟨s', ps, ht.returns, hcall⟩

/-- **Every packet there is is handed out, and nothing else**: the calls of a session have the lengths of the frames of
what it has and what arrives. -/
theorem calls_iff_frames (hP : ∀ n, P n → 0 < n) : ∀ (chunks : List (List BYTE)) (s : RecvSession), RecvInv s →
    s.connected = true → (∀ c ∈ chunks, c ≠ []) → fitsPosted junk s chunks = true →
    ((∀ buffer len, CallMade junk s chunks buffer len → P len) ↔
      AllFrames packets P (s.recvBuffer.data ++ chunks.flatten))
  | [], s, hi, _, _, _ => by
    rw [List.flatten_nil, List.append_nil]
    exact iff_of_true (fun _ _ h => h.elim) (.of_head_none hi.leftover)
  | c :: cs, s, hi, hconn, hne, hfit => by
    have hc := hne c List.mem_cons_self
    have hcs := fun d hd => hne d (List.mem_cons_of_mem c hd)
    have hcalls := callMade_cons hi hconn hc hfit
    rw [List.flatten_cons, ← List.append_assoc]
    constructor
    · intro h
      have hB : AllFrames packets P (s.recvBuffer.data ++ c) := by
        refine allFrames_iff.2 (fun k size hk hn => ?_)
        exact h _ size ((hcalls _ _).2 (.inl ⟨k, hk, rfl, hn⟩))
      rcases (processRecv_success hi hconn hc hfit).2 with ⟨hno, -⟩ | ⟨s', ps, ht⟩
      · obtain ⟨ps, r, hd⟩ := Positive.done (hB.mono hP)
        rw [onRecvLoop_of_done _ hd] at hno
        cases hno
      · have hrest := (calls_iff_frames hP cs s' ht.inv ht.connected hcs ht.fits).1 (fun buffer len hcall =>
          h buffer len ((hcalls _ _).2 (.inr ⟨s', ps, ht, hcall⟩)))
        exact .of_cut (ht.done.1.append cs.flatten) (hB.of_mem ht.done.1) hrest
    · intro h buffer len hcall
      rcases (hcalls _ _).1 hcall with ⟨k, hk, rfl, hn⟩ | ⟨s', ps, ht, hcall⟩
      · exact allFrames_iff.1 h.of_append k len hk hn
      · exact (calls_iff_frames hP cs s' ht.inv ht.connected hcs ht.fits).2 (h.rest (ht.done.1.append cs.flatten))
          buffer len hcall

/-- **What a call is given is at the front of what has not been consumed.** -/
theorem callMade_at : ∀ (chunks : List (List BYTE)) (s : RecvSession), RecvInv s → s.connected = true →
    (∀ c ∈ chunks, c ≠ []) → fitsPosted junk s chunks = true → ∀ buffer len, CallMade junk s chunks buffer len →
      packetHead buffer = some len ∧
      ∃ ps r, Cut packets (s.recvBuffer.data ++ chunks.flatten) ps r ∧ buffer <+: r
  | [], _, _, _, _, _, _, _, h => h.elim
  | c :: cs, s, hi, hconn, hne, hfit, buffer, len, h => by
    rw [List.flatten_cons, ← List.append_assoc]
    rcases (callMade_cons hi hconn (hne c List.mem_cons_self) hfit buffer len).1 h with
      ⟨k, hk, rfl, hn⟩ | ⟨s', ps, ht, hcall⟩
    · obtain ⟨ps, hc⟩ := cut_of_visits hk
      exact ⟨hn, ps, _, hc.append cs.flatten, List.prefix_append _ _⟩
    · obtain ⟨hn, qs, r, hc, hpre⟩ := callMade_at cs s' ht.inv ht.connected (fun d hd => hne d (List.mem_cons_of_mem c hd))
        ht.fits buffer len hcall
      exact ⟨hn, ps ++ qs, r, (ht.done.1.append cs.flatten).trans hc, hpre⟩

/-- **The packets handed out are packets exactly when no size field says less than a header**: for every stream and every
fragmentation, the calls are for whole packets with a body of their own if and only if every size field the parser comes
to, of a packet that is there, is at least 4. -/
theorem calls_ok_iff (junk : Nat → BYTE) (chunks : List (List BYTE)) (hne : ∀ c ∈ chunks, c ≠ [])
    (hfit : fitsPosted junk (recvSession₀ .success) chunks = true) :
    (∀ buffer len, CallMade junk (recvSession₀ .success) chunks buffer len → CallOk chunks.flatten buffer len) ↔
      ∀ processLen size, Visits chunks.flatten processLen →
        packetHead (chunks.flatten.drop processLen) = some size → sizeofPacketHeader ≤ size := by
  have hi := recvInv_start .success
  rw [← allFrames_iff]
  have hpos : ∀ n, sizeofPacketHeader ≤ n → 0 < n := fun n hn => Nat.lt_of_lt_of_le (by decide) hn
  have hframes : _ ↔ AllFrames packets (fun n => sizeofPacketHeader ≤ n) _ :=
    calls_iff_frames hpos chunks _ hi rfl hne hfit
  have hdata : (recvSession₀ .success).recvBuffer.data = [] := rfl
  rw [hdata, List.nil_append] at hframes
  rw [← hframes]
  refine forall_congr' (fun buffer => forall_congr' (fun len => forall_congr' (fun hcall => ⟨fun h => h.header,
    fun hheader => ?_⟩)))
  obtain ⟨hn, ps, r, hc, hpre⟩ := callMade_at chunks _ hi rfl hne hfit buffer len hcall
  obtain ⟨header, hh, rfl, hle⟩ := (packetHead_eq_some _ _).1 hn
  obtain ⟨k, hk, rfl⟩ := visits_of_cut hc
  have hbody := bodyLength_toInt (readHeader_size_lt _ _ hh)
  refine ⟨hheader, hle, ⟨k, hk, hpre⟩, ?_, ?_⟩
  · rw [hbody]
    omega
  · rw [hbody]
    omega

theorem visits_two {k : Nat} (hk : Visits [4, 0, 0xEC, 3] k) : k = 0 ∨ k = 4 := by
  induction hk with
  | start => exact .inl rfl
  | packet _ hh _ ih =>
    rcases ih with rfl | rfl
    · cases hh
      exact .inr rfl
    · cases hh

theorem calls_ok_iff_two : CallMade (fun _ => 0) (recvSession₀ .success) [[4], [0, 0xEC, 3]] [4, 0, 0xEC, 3] 4 ∧
    CallOk [4, 0, 0xEC, 3] [4, 0, 0xEC, 3] 4 := by
  have hmade : CallMade (fun _ => 0) (recvSession₀ .success) [[4], [0, 0xEC, 3]] [4, 0, 0xEC, 3] 4 := by
    refine .inr ⟨_, [], rfl, .inl ⟨by decide, _, 1, rfl, ?_⟩⟩
    decide
  refine ⟨hmade, (calls_ok_iff (fun _ => 0) [[4], [0, 0xEC, 3]] (by decide) (by decide)).2 (fun k size hk hn => ?_)
    _ _ hmade⟩
  rcases visits_two hk with rfl | rfl
  · cases hn
    decide
  · cases hn

/-- **A size field of 3**: the body is said to be -1 bytes long. -/
theorem short_packet : fitsPosted (fun _ => 0) (recvSession₀ .success) [[3, 0, 0xEC, 3]] = true ∧
    CallMade (fun _ => 0) (recvSession₀ .success) [[3, 0, 0xEC, 3]] [3, 0, 0xEC, 3] 3 ∧
    ¬ CallOk [3, 0, 0xEC, 3] [3, 0, 0xEC, 3] 3 ∧ (bodyLength 3).toInt = -1 := by
  refine ⟨by decide, .inl ⟨by decide, _, 1, rfl, ?_⟩, fun h => absurd h.header (by decide), by decide⟩
  decide

end Geon
