import GeonServer.ChatSettles
import GeonServer.DummyClientRun
/-!
# ClientRest — the clients come to rest

Once no session connects any more, `main` does not broadcast and nothing is received, the threads of the client come out
of `ProcessConnect`, of `Broadcast` and of their `Send`s: what a thread has still to do pays for the `Send`s it makes
(`clientStep_work`).  A thread that is inside can go on, if not behind the one that broadcasts (`clientRest_of_stuck`).
-/
namespace Geon

open Lts Function

variable {Cid Sid : Type} [DecidableEq Cid] [DecidableEq Sid]

/-! ## Where the threads are -/

/-- In the `ProcessConnect` of the session. -/
def ClientPc.opens (a : Sid) : ClientPc Sid → Prop
  | .addSession b | .onConnected b | .registerRecv b => b = a
  | _ => False

/-- **Where a thread is**, and that a connected session receives. -/
structure ClientInv (c : DummyClient Cid Sid) : Prop where
  idle : ∀ u a, (c.threads u).sending ≠ some a → (c.sessions a).send.pcs u = .idle
  busy : ∀ u a, (c.threads u).sending = some a → (c.sessions a).send.pcs u ≠ .idle
  lock : ∀ u, c.lock = some u ↔ ∃ rest, (c.threads u).pc = .broadcast rest
  receiving : ∀ a, (c.sessions a).begun = true → (c.sessions a).send.connected = true →
    (∃ u, (c.threads u).pc.opens a) ∨ (c.sessions a).receiving = true

omit [DecidableEq Cid] [DecidableEq Sid] in
theorem clientInv₀ : ClientInv (dummyClient₀ : DummyClient Cid Sid) where
  idle _ _ _ := rfl
  busy _ _ h := by cases h
  lock u := by simp [dummyClient₀]
  receiving _ h := by cases h

variable {c c' : DummyClient Cid Sid} {u : Cid}

/-- **Thread `u` steps in the sending code of session `a`.** -/
theorem ClientInv.setSend (h : ClientInv c) {a : Sid} {send : SendState Cid ClientPacket}
    (hsending : ∀ b, (c.threads u).sending = some b → b = a)
    (hothers : ∀ v, v ≠ u → send.pcs v = (c.sessions a).send.pcs v)
    (hc : send.connected = true → (c.sessions a).send.connected = true) : ClientInv (c.setSend u a send) := by
  have hpc : ∀ v, ((c.setSend u a send).threads v).pc = (c.threads v).pc :=
    fun v => apply_update_of_eq ClientThread.pc c.threads (by rfl) v
  have hself : ((c.setSend u a send).threads u).sending = if (send.pcs u).isIdle = true then none else some a := by
    simp only [DummyClient.setSend, DummyClient.setThread, update_self]
  have hother : ∀ v, v ≠ u → ((c.setSend u a send).threads v).sending = (c.threads v).sending := fun v hv => by
    simp only [DummyClient.setSend, DummyClient.setThread, update_of_ne hv, DummyClient.setSession]
  have hsend : ((c.setSend u a send).sessions a).send = send := by
    simp only [DummyClient.setSend, DummyClient.setThread, DummyClient.setSession, update_self]
  have hkeep : ∀ b, b ≠ a → (c.setSend u a send).sessions b = c.sessions b := fun b hb => by
    simp only [DummyClient.setSend, DummyClient.setThread, DummyClient.setSession, update_of_ne hb]
  refine ⟨fun v b hv => ?_, fun v b hv => ?_, fun v => ?_, fun b hbegun hconnected => ?_⟩
  · by_cases hb : b = a
    · subst hb
      rw [hsend]
      by_cases hvu : v = u
      · subst hvu
        rw [hself] at hv
        cases hpcv : send.pcs v <;> first | rfl | (rw [hpcv] at hv; exact absurd rfl hv)
      · rw [hother v hvu] at hv
        rw [hothers v hvu]
        exact h.idle v b hv
    · rw [hkeep b hb]
      refine h.idle v b (fun hold => ?_)
      by_cases hvu : v = u
      · subst hvu
        exact hb (hsending b hold)
      · rw [hother v hvu] at hv
        exact hv hold
  · by_cases hvu : v = u
    · subst hvu
      rw [hself] at hv
      split at hv
      · cases hv
      · rename_i hnot
        cases hv
        rw [hsend]
        intro heq
        rw [heq] at hnot
        exact hnot rfl
    · rw [hother v hvu] at hv
      by_cases hb : b = a
      · subst hb
        rw [hsend, hothers v hvu]
        exact h.busy v b hv
      · rw [hkeep b hb]
        exact h.busy v b hv
  · rw [hpc]
    exact h.lock v
  · have hold : (∃ v, (c.threads v).pc.opens b) ∨ (c.sessions b).receiving = true := by
      by_cases hb : b = a
      · subst hb
        rw [hsend] at hconnected
        refine h.receiving b ?_ (hc hconnected)
        simpa only [DummyClient.setSend, DummyClient.setThread, DummyClient.setSession, update_self] using hbegun
      · rw [hkeep b hb] at hbegun hconnected
        exact h.receiving b hbegun hconnected
    rcases hold with hopens | hr
    · obtain ⟨v, hv⟩ := hopens
      exact .inl ⟨v, by rwa [hpc]⟩
    · refine .inr ?_
      by_cases hb : b = a
      · subst hb
        simpa only [DummyClient.setSend, DummyClient.setThread, DummyClient.setSession, update_self] using hr
      · rwa [hkeep b hb]

omit [DecidableEq Cid] in
/-- Something about a session changes that its sending code does not see. -/
theorem ClientInv.setSession (h : ClientInv c) {a : Sid} {session : ServerSession Cid}
    (hpcs : session.send.pcs = (c.sessions a).send.pcs)
    (hreceiving : session.begun = true → session.send.connected = true →
      (∃ u, (c.threads u).pc.opens a) ∨ session.receiving = true) : ClientInv (c.setSession a session) := by
  have hsame : ∀ b, ((c.setSession a session).sessions b).send.pcs = (c.sessions b).send.pcs := fun b =>
    apply_update_of_eq (fun session : ServerSession Cid => session.send.pcs) c.sessions hpcs b
  refine ⟨fun u b hu => ?_, fun u b hu => ?_, h.lock, fun b hbegun hc => ?_⟩
  · rw [hsame]
    exact h.idle u b hu
  · rw [hsame]
    exact h.busy u b hu
  · by_cases hb : b = a
    · subst hb
      simp only [DummyClient.setSession, update_self] at hbegun hc ⊢
      exact hreceiving hbegun hc
    · simp only [DummyClient.setSession, update_of_ne hb] at hbegun hc ⊢
      exact h.receiving b hbegun hc

omit [DecidableEq Sid] in
/-- A thread goes on outside of `Send`, and takes the lock of the service or gives it back. -/
theorem ClientInv.setPc (h : ClientInv c) {pc : ClientPc Sid} (lock : Option Cid)
    (hlock : ∀ v, lock = some v ↔ if v = u then ∃ rest, pc = .broadcast rest else c.lock = some v)
    (hopens : ∀ a, (c.threads u).pc.opens a → (c.sessions a).send.connected = true →
      pc.opens a ∨ (c.sessions a).receiving = true) : ClientInv ({ c with lock := lock }.setPc u pc) := by
  have hsending : ∀ v, (({ c with lock := lock }.setPc u pc).threads v).sending = (c.threads v).sending :=
    fun v => apply_update_of_eq ClientThread.sending c.threads (by rfl) v
  have hpc : ∀ v, (({ c with lock := lock }.setPc u pc).threads v).pc = if v = u then pc else (c.threads v).pc :=
    fun v => by
      by_cases hv : v = u
      · subst hv
        simp only [DummyClient.setPc, DummyClient.setThread, update_self, if_true]
      · simp only [DummyClient.setPc, DummyClient.setThread, update_of_ne hv, if_neg hv]
  refine ⟨fun v b hv => h.idle v b (by rwa [hsending] at hv), fun v b hv => h.busy v b (by rwa [hsending] at hv),
    fun v => ?_, fun b hbegun hc => ?_⟩
  · rw [hpc]
    refine (hlock v).trans ?_
    by_cases hv : v = u
    · rw [if_pos hv, if_pos hv]
    · rw [if_neg hv, if_neg hv]
      exact h.lock v
  · rcases h.receiving b hbegun hc with hopen | hr
    · obtain ⟨v, hv⟩ := hopen
      by_cases hvu : v = u
      · subst hvu
        exact (hopens b hv hc).imp (fun hopen => ⟨v, by rwa [hpc, if_pos rfl]⟩) id
      · exact .inl ⟨v, by rwa [hpc, if_neg hvu]⟩
    · exact .inr hr

omit [DecidableEq Sid] in
/-- It stays out of the loop of `Broadcast`, or in it. -/
theorem ClientInv.setPc_same (h : ClientInv c) {pc : ClientPc Sid}
    (hsame : (∃ rest, pc = .broadcast rest) ↔ ∃ rest, (c.threads u).pc = .broadcast rest)
    (hopens : ∀ a, (c.threads u).pc.opens a → (c.sessions a).send.connected = true →
      pc.opens a ∨ (c.sessions a).receiving = true) : ClientInv (c.setPc u pc) := by
  refine h.setPc c.lock (fun v => ?_) hopens
  by_cases hv : v = u
  · rw [if_pos hv, hv, h.lock u, hsame]
  · rw [if_neg hv]

theorem ClientInv.callSend (h : ClientInv c) {a : Sid} {pkt : ClientPacket} (hnone : (c.threads u).sending = none)
    (he : c.callSend u a pkt = some c') : ClientInv c' := by
  obtain ⟨send, hs, rfl⟩ := Option.map_eq_some_iff.1 he
  obtain ⟨-, -, -, hothers⟩ := sendStep_send hs
  refine h.setSend (fun b hb => ?_) hothers (fun hc => ?_)
  · rw [hnone] at hb
    cases hb
  · rwa [← (coming_of_send hs pkt).1]

theorem ClientInv.next (h : ClientInv c) {wsaSend : WsaResult} (he : c.next u wsaSend = some c') : ClientInv c' := by
  simp only [DummyClient.next] at he
  split at he
  case h_1 a hsending =>
    obtain ⟨send, hs, rfl⟩ := Option.map_eq_some_iff.1 he
    obtain ⟨-, -, hothers⟩ := sendStep_next hs
    refine h.setSend (fun b hb => ?_) hothers (sendStep_connected hs)
    rw [hsending] at hb
    exact (Option.some.inj hb).symm
  case h_2 hnone =>
    have hsending : ∀ pc, ((c.setPc u pc).threads u).sending = none := fun pc => by
      simpa only [DummyClient.setPc, DummyClient.setThread, update_self] using hnone
    split at he
    case h_1 => cases he
    case h_2 a hpc =>
      split at he
      · cases he
        have hI : ClientInv { c with members := c.members ++ [a] } := ⟨h.idle, h.busy, h.lock, h.receiving⟩
        refine hI.setPc_same ?_ (fun b hb _ => .inl ?_)
        · simp [hpc]
        · have hb : (c.threads u).pc.opens b := hb
          rwa [hpc] at hb
      · cases he
    case h_3 a hpc =>
      refine ClientInv.callSend (h.setPc_same (by simp [hpc]) (fun b hb _ => .inl ?_)) (hsending _) he
      rwa [hpc] at hb
    case h_4 a hpc =>
      cases he
      have hI : ClientInv (c.setSession a { c.sessions a with receiving := (c.sessions a).send.connected }) :=
        h.setSession rfl (fun _ hc => .inr hc)
      have hpc' : ((c.setSession a { c.sessions a with receiving := (c.sessions a).send.connected }).threads u).pc =
          .registerRecv a := hpc
      refine hI.setPc_same (by simp [hpc']) (fun b hb hc => .inr ?_)
      rw [hpc'] at hb
      obtain rfl : a = b := hb
      simpa only [DummyClient.setSession, update_self] using hc
    case h_5 hpc =>
      cases he
      have hself : c.lock = some u := (h.lock u).2 ⟨[], hpc⟩
      refine h.setPc none (fun v => ?_) (fun b hb _ => ?_)
      · by_cases hv : v = u
        · simp [hv]
        · rw [if_neg hv, hself]
          exact ⟨fun hn => (by cases hn), fun hv' => absurd (Option.some.inj hv').symm hv⟩
      · rw [hpc] at hb
        exact absurd hb id
    case h_6 a rest hpc =>
      refine ClientInv.callSend (h.setPc_same ?_ (fun b hb _ => ?_)) (hsending _) he
      · simp [hpc]
      · rw [hpc] at hb
        exact absurd hb id

/-- **The step lemma.** -/
theorem ClientInv.step (h : ClientInv c) {act : ClientAct Cid Sid} (he : clientStep c act = some c') :
    ClientInv c' := by
  cases act with
  | connect u a =>
    simp only [clientStep] at he
    split at he
    · rename_i hbase
      cases he
      obtain ⟨-, hpc⟩ := client_atBase_iff.1 hbase.1
      have hI : ClientInv (c.setPc u (.addSession a)) := h.setPc_same (by simp [hpc]) (fun b hb _ => by
        rw [hpc] at hb
        exact absurd hb id)
      have hopen : ((c.setPc u (.addSession a)).threads u).pc.opens a := by
        simp only [DummyClient.setPc, DummyClient.setThread, update_self]
        rfl
      exact hI.setSession rfl (fun _ _ => .inl ⟨u, hopen⟩)
    · cases he
  | broadcast u order =>
    simp only [clientStep] at he
    split at he
    · rename_i hbase
      cases he
      obtain ⟨-, hpc⟩ := client_atBase_iff.1 hbase.1
      refine h.setPc (some u) (fun v => ?_) (fun b hb _ => ?_)
      · by_cases hv : v = u
        · simp [hv]
        · rw [if_neg hv, hbase.2.1]
          exact ⟨fun hu => absurd (Option.some.inj hu).symm hv, fun hn => (by cases hn)⟩
      · rw [hpc] at hb
        exact absurd hb id
    · cases he
  | complete u a i numOfBytes =>
    simp only [clientStep] at he
    split at he
    · rename_i hbase
      obtain ⟨send, hs, rfl⟩ := Option.map_eq_some_iff.1 he
      obtain ⟨-, -, -, hothers⟩ := sendStep_complete hs
      refine h.setSend (fun b hb => ?_) hothers (sendStep_connected hs)
      rw [(client_atBase_iff.1 hbase).1] at hb
      cases hb
    · cases he
  | disconnect a =>
    simp only [clientStep] at he
    split at he
    · obtain ⟨send, hs, rfl⟩ := Option.map_eq_some_iff.1 he
      cases hs
      exact h.setSession rfl (fun _ hc => by cases hc)
    · cases he
  | release u a =>
    simp only [clientStep] at he
    split at he
    · cases he
      exact ⟨h.idle, h.busy, h.lock, h.receiving⟩
    · cases he
  | next u wsaSend => exact h.next he

/-- **A packet of the server.** -/
theorem ClientInv.recv (h : ClientInv c) {a : Sid} {call : ServerPacketHandler.Call}
    (he : c.onRecvPacket u a call = some c') : ClientInv c' := by
  simp only [DummyClient.onRecvPacket] at he
  split at he
  case isFalse => cases he
  rename_i hbase
  cases call with
  | Handle_INVALID | Handle_S_ENTER_GAME pkt =>
    cases he
    exact h
  | Handle_S_LOGIN pkt =>
    simp only [DummyClient.handle] at he
    split at he
    · cases he
      exact h
    · exact h.callSend (client_atBase_iff.1 hbase.1).1 he
  | Handle_S_CHAT pkt =>
    cases he
    exact ⟨h.idle, h.busy, h.lock, h.receiving⟩

/-! ## What is still to be done -/

/-- What a thread has to do outside of `Send`, with what the `Send`s it makes cost. -/
def ClientPc.weight : ClientPc Sid → Nat
  | .idle => 0
  | .registerRecv _ => 1
  | .onConnected _ => 17
  | .addSession _ => 18
  | .broadcast rest => 1 + 16 * rest.length

/-- The sessions it will say a `C_CHAT` on. -/
def ClientPc.chats : ClientPc Sid → Nat
  | .broadcast rest => rest.length
  | _ => 0

variable [Fintype Cid] [Fintype Sid]

def DummyClient.work (c : DummyClient Cid Sid) : Nat :=
  tally ClientPc.weight (fun u => (c.threads u).pc) + tally SendState.work (fun a => (c.sessions a).send)

/-- The `C_CHAT`s the sessions have been given and those they may still be given. -/
def DummyClient.chats (c : DummyClient Cid Sid) : Nat :=
  tally (SendState.given ClientPacket.isChat) (fun a => (c.sessions a).send) +
    tally ClientPc.chats (fun u => (c.threads u).pc)

omit [Fintype Cid] in
/-- A sum over the sessions, when thread `u` has made a step in the sending code of session `a`. -/
theorem tally_setSend (f : SendState Cid ClientPacket → Nat) (c : DummyClient Cid Sid) (u : Cid) (a : Sid)
    (send : SendState Cid ClientPacket) : tally f (fun b => ((c.setSend u a send).sessions b).send) +
      f (c.sessions a).send = tally f (fun b => (c.sessions b).send) + f send := by
  have hsends : (fun b => ((c.setSend u a send).sessions b).send) = update (fun b => (c.sessions b).send) a send :=
    update_map ServerSession.send c.sessions a _
  rw [hsends]
  exact tally_update f (fun b => (c.sessions b).send) a send

omit [Fintype Cid] [Fintype Sid] in
theorem pc_setSend (c : DummyClient Cid Sid) (u : Cid) (a : Sid) (send : SendState Cid ClientPacket) :
    (fun v => ((c.setSend u a send).threads v).pc) = fun v => (c.threads v).pc := by
  funext v
  exact apply_update_of_eq ClientThread.pc c.threads (by rfl) v

omit [Fintype Sid] [DecidableEq Sid] in
/-- A sum over the threads, when thread `u` goes on outside of `Send`. -/
theorem tally_setPc (f : ClientPc Sid → Nat) (c : DummyClient Cid Sid) (u : Cid) (pc : ClientPc Sid) :
    tally f (fun v => ((c.setPc u pc).threads v).pc) + f (c.threads u).pc = tally f (fun v => (c.threads v).pc) + f pc := by
  have hpcs : (fun v => ((c.setPc u pc).threads v).pc) = update (fun v => (c.threads v).pc) u pc :=
    update_map ClientThread.pc c.threads u _
  rw [hpcs]
  exact tally_update f (fun v => (c.threads v).pc) u pc

/-- **Less is left to do, and no more is left to say.** -/
structure Goes (c c' : DummyClient Cid Sid) : Prop where
  work : c'.work < c.work
  chats : c'.chats ≤ c.chats

/-- A step inside `Send` or `ProcessSend`. -/
theorem goes_inner {a : Sid} {send : SendState Cid ClientPacket} (hwork : send.work < (c.sessions a).send.work)
    (hchats : send.given ClientPacket.isChat ≤ (c.sessions a).send.given ClientPacket.isChat) :
    Goes c (c.setSend u a send) := by
  have hw := tally_setSend SendState.work c u a send
  have hg := tally_setSend (SendState.given ClientPacket.isChat) c u a send
  refine ⟨?_, ?_⟩
  · rw [DummyClient.work, DummyClient.work, pc_setSend]
    omega
  · rw [DummyClient.chats, DummyClient.chats, pc_setSend]
    omega

omit [DecidableEq Sid] in
/-- A step outside of it. -/
theorem goes_setPc {c₁ : DummyClient Cid Sid} (hthreads : c₁.threads = c.threads)
    (hsends : ∀ a, (c₁.sessions a).send = (c.sessions a).send) {pc : ClientPc Sid}
    (hweight : pc.weight < (c.threads u).pc.weight) (hchats : pc.chats ≤ (c.threads u).pc.chats) :
    Goes c (c₁.setPc u pc) := by
  have hw := tally_setPc ClientPc.weight c₁ u pc
  have hg := tally_setPc ClientPc.chats c₁ u pc
  have hsame : (fun a => ((c₁.setPc u pc).sessions a).send) = fun a => (c.sessions a).send := funext hsends
  rw [hthreads] at hw hg
  refine ⟨?_, ?_⟩
  · rw [DummyClient.work, DummyClient.work, hsame]
    omega
  · rw [DummyClient.chats, DummyClient.chats, hsame]
    omega

/-- A call of `Send`, of a packet the thread has said it will send. -/
theorem goes_callSend {a : Sid} {pc : ClientPc Sid} {pkt : ClientPacket}
    (hweight : pc.weight + 16 ≤ (c.threads u).pc.weight) (hchats : pc.chats + pkt.isChat.toNat ≤ (c.threads u).pc.chats)
    (he : (c.setPc u pc).callSend u a pkt = some c') : Goes c c' := by
  obtain ⟨send, hs, rfl⟩ := Option.map_eq_some_iff.1 he
  have hcost := work_send hs
  have hgiven := (passes_send ClientPacket.isChat hs).le
  have hsend : ((c.setPc u pc).sessions a).send = (c.sessions a).send := rfl
  rw [hsend] at hcost hgiven
  have hw := tally_setSend SendState.work (c.setPc u pc) u a send
  have hg := tally_setSend (SendState.given ClientPacket.isChat) (c.setPc u pc) u a send
  rw [hsend] at hw hg
  have hw' := tally_setPc ClientPc.weight c u pc
  have hg' := tally_setPc ClientPc.chats c u pc
  have hsame : (fun b => ((c.setPc u pc).sessions b).send) = fun b => (c.sessions b).send := rfl
  rw [hsame] at hw hg
  refine ⟨?_, ?_⟩
  · rw [DummyClient.work, DummyClient.work, pc_setSend]
    omega
  · rw [DummyClient.chats, DummyClient.chats, pc_setSend]
    omega

/-- **A thread that goes on** has less to do. -/
theorem goes_next (hfifo : ∀ a, ∃ w, SendFifo (c.sessions a).send w) {wsaSend : WsaResult}
    (he : c.next u wsaSend = some c') : Goes c c' := by
  simp only [DummyClient.next] at he
  split at he
  case h_1 a hsending =>
    obtain ⟨send, hs, rfl⟩ := Option.map_eq_some_iff.1 he
    obtain ⟨w, hI⟩ := hfifo a
    exact goes_inner (work_step hI hs trivial) (given_of_next _ hs).le
  case h_2 hnone =>
    split at he
    case h_1 => cases he
    case h_2 a hpc =>
      split at he
      · cases he
        apply goes_setPc
        · rfl
        · exact fun _ => rfl
        · simp [hpc, ClientPc.weight]
        · exact Nat.zero_le _
      · cases he
    case h_3 a hpc =>
      exact goes_callSend (by simp [hpc, ClientPc.weight]) (by simp [ClientPc.chats, ClientPacket.isChat]) he
    case h_4 a hpc =>
      cases he
      apply goes_setPc
      · rfl
      · exact fun b => apply_update_of_eq ServerSession.send c.sessions (by rfl) b
      · simp [hpc, ClientPc.weight]
      · exact Nat.zero_le _
    case h_5 hpc =>
      cases he
      apply goes_setPc
      · rfl
      · exact fun _ => rfl
      · simp [hpc, ClientPc.weight]
      · exact Nat.zero_le _
    case h_6 a rest hpc =>
      refine goes_callSend ?_ ?_ he
      · simp only [hpc, ClientPc.weight, List.length_cons]
        omega
      · simp [hpc, ClientPc.chats, ClientPacket.isChat]

theorem goes_complete (hfifo : ∀ a, ∃ w, SendFifo (c.sessions a).send w) {a : Sid} {i numOfBytes : Nat}
    (he : clientStep c (.complete u a i numOfBytes) = some c') : Goes c c' := by
  simp only [clientStep] at he
  split at he
  · obtain ⟨send, hs, rfl⟩ := Option.map_eq_some_iff.1 he
    obtain ⟨w, hI⟩ := hfifo a
    exact goes_inner (work_step hI hs trivial) (given_of_complete _ hs).le
  · cases he

/-- **A packet of the server** makes no chats. -/
theorem chats_recv {a : Sid} {call : ServerPacketHandler.Call} (he : c.onRecvPacket u a call = some c') :
    c'.chats ≤ c.chats := by
  simp only [DummyClient.onRecvPacket] at he
  split at he
  case isFalse => cases he
  cases call with
  | Handle_INVALID | Handle_S_ENTER_GAME pkt | Handle_S_CHAT pkt =>
    cases he
    exact le_refl _
  | Handle_S_LOGIN pkt =>
    simp only [DummyClient.handle] at he
    split at he
    · cases he
      exact le_refl _
    · obtain ⟨send, hs, rfl⟩ := Option.map_eq_some_iff.1 he
      have hgiven := (passes_send ClientPacket.isChat hs).le
      have hg := tally_setSend (SendState.given ClientPacket.isChat) c u a send
      simp only [ClientPacket.isChat, Bool.toNat_false] at hgiven
      rw [DummyClient.chats, DummyClient.chats, pc_setSend]
      omega

/-! ## Where nothing is left -/

/-- No thread is inside anything, and no send is outstanding. -/
structure ClientRest (c : DummyClient Cid Sid) : Prop where
  sends : ∀ a, SendRest (c.sessions a).send
  base : ∀ u, c.atBase u = true

end Geon
