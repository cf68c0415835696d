import GeonServer.Net
/-!
# SessionLife — the life of one session as a net

The places of a session are the points of the code where a thread may be with it, its operations in flight, its flags,
and what has happened to it.  `LifeRule` are the moves the code makes, and `lifeLaws` what every one of them keeps: a
session is connected once, the receives follow from that as a chain, and so does disconnecting it.
-/
namespace Geon

open Net

inductive Place
  -- where a thread is
  | connecting | connectPosting | connectReset | accepting
  | opening (accepted : Bool) | adding | greeting
  | arming | recvPosting | recvFailed | recvReset
  | recvClearing (empty : Bool) | recvChecking (empty : Bool) | receiving
  | closing | closePosting | closeReset
  | partClearing | parting | releasing | leaving
  | sending
  -- operations in flight
  | connectOp | acceptOp | recvOp | disconnectOp | sendOp
  -- flags and memberships
  | connected | connectOwner | recvOwner | disconnectOwner | member | created | destroyed
  -- history
  | connects | added | greeted | disconnects | parted | released | lost
  | connectOk | connectFailed | accepted
  deriving DecidableEq, Repr

/-- The moves of a session, by what the code does. -/
inductive LifeRule
  | stay | destroy
  -- `Connect` and accepting
  | createConnect | createAccept
  | connectRefused | connectOwn | connectPost | connectFail | connectDrop | connectComplete (failed : Bool)
  | acceptPost | acceptDrop | acceptComplete | acceptOpen
  -- `ProcessConnect`
  | open (accepted : Bool) | add | greet
  -- `RegisterRecv`
  | recvSkip | recvOwn | recvPost | recvFail | recvLog | recvQuiet | recvClose | recvDrop
  -- `ProcessRecv`
  | recvComplete (empty : Bool) | recvClear (empty : Bool) | recvRead | recvAgain
  | checkEnd (empty : Bool) | checkClose (empty : Bool) | loopEnd | loopClose
  -- `Disconnect` by the contents, and `RegisterDisconnect`
  | callClose | closeOwn | closePost | closeFail | closeDrop | closeComplete
  -- `ProcessDisconnect`
  | partClear | part | release | leave
  -- `Send` and `ProcessSend`
  | sendCall | sendNext (stays posts closes : Bool) | sendComplete
  deriving DecidableEq, Repr

/-- The rules without a flag. -/
def LifeRule.plain : List LifeRule :=
  [stay, destroy, createConnect, createAccept, connectRefused, connectOwn, connectPost, connectFail, connectDrop,
    acceptPost, acceptDrop, acceptComplete, acceptOpen, add, greet, recvSkip, recvOwn, recvPost, recvFail, recvLog,
    recvQuiet, recvClose, recvDrop, recvRead, recvAgain, loopEnd, loopClose, callClose, closeOwn, closePost, closeFail,
    closeDrop, closeComplete, partClear, part, release, leave, sendCall, sendComplete]

def LifeRule.flagged (b : Bool) : List LifeRule :=
  [connectComplete b, LifeRule.open b, recvComplete b, recvClear b, checkEnd b, checkClose b, sendNext b false false, sendNext b false true,
    sendNext b true false, sendNext b true true]

def LifeRule.all : List LifeRule := plain ++ (flagged false ++ flagged true)

theorem LifeRule.forall_of_all {p : LifeRule → Prop} (h : ∀ r ∈ LifeRule.all, p r) (r : LifeRule) : p r := by
  refine h r ?_
  cases r with
  | connectComplete b | «open» b | recvComplete b | recvClear b | checkEnd b | checkClose b => cases b <;> decide
  | sendNext stays posts closes => cases stays <;> cases posts <;> cases closes <;> decide
  | _ => decide

def LifeRule.rule : LifeRule → Rule Place
  | .stay => ⟨[], []⟩
  | .destroy => ⟨[], [.destroyed]⟩
  | .createConnect => ⟨[], [.connecting, .created]⟩
  | .createAccept => ⟨[], [.accepting, .created]⟩
  | .connectRefused => ⟨[.connecting], []⟩
  | .connectOwn => ⟨[.connecting], [.connectPosting, .connectOwner]⟩
  | .connectPost => ⟨[.connectPosting], [.connectOp]⟩
  | .connectFail => ⟨[.connectPosting], [.connectReset]⟩
  | .connectDrop => ⟨[.connectReset, .connectOwner], []⟩
  | .connectComplete failed =>
    ⟨[.connectOp], [.opening false, .connects, if failed = true then .connectFailed else .connectOk]⟩
  | .acceptPost => ⟨[.accepting], [.acceptOp]⟩
  | .acceptDrop => ⟨[.accepting], []⟩
  | .acceptComplete => ⟨[.acceptOp], [.accepting]⟩
  | .acceptOpen => ⟨[.accepting], [.opening true, .connects, .accepted]⟩
  | .open false => ⟨[.opening false, .connectOwner], [.adding, .connected]⟩
  | .open true => ⟨[.opening true], [.adding, .connected]⟩
  | .add => ⟨[.adding], [.greeting, .added, .member]⟩
  | .greet => ⟨[.greeting], [.arming, .greeted]⟩
  | .recvSkip => ⟨[.arming], []⟩
  | .recvOwn => ⟨[.arming], [.recvPosting, .recvOwner]⟩
  | .recvPost => ⟨[.recvPosting], [.recvOp]⟩
  | .recvFail => ⟨[.recvPosting], [.recvFailed]⟩
  | .recvLog | .recvQuiet => ⟨[.recvFailed], [.recvReset]⟩
  | .recvClose => ⟨[.recvFailed, .connected], [.recvReset, .closing]⟩
  | .recvDrop => ⟨[.recvReset, .recvOwner], []⟩
  | .recvComplete empty => ⟨[.recvOp], [.recvClearing empty]⟩
  | .recvClear empty => ⟨[.recvClearing empty, .recvOwner], [.recvChecking empty]⟩
  | .recvRead => ⟨[.recvChecking false], [.receiving]⟩
  | .recvAgain => ⟨[.receiving], [.arming]⟩
  | .checkEnd empty => ⟨[.recvChecking empty], []⟩
  | .checkClose empty => ⟨[.recvChecking empty, .connected], [.closing]⟩
  | .loopEnd => ⟨[.receiving], []⟩
  | .loopClose => ⟨[.receiving, .connected], [.closing]⟩
  | .callClose => ⟨[.connected], [.closing]⟩
  | .closeOwn => ⟨[.closing], [.closePosting, .disconnectOwner]⟩
  | .closePost => ⟨[.closePosting], [.disconnectOp]⟩
  | .closeFail => ⟨[.closePosting], [.closeReset]⟩
  | .closeDrop => ⟨[.closeReset, .disconnectOwner], [.lost]⟩
  | .closeComplete => ⟨[.disconnectOp], [.partClearing, .disconnects]⟩
  | .partClear => ⟨[.partClearing, .disconnectOwner], [.parting]⟩
  | .part => ⟨[.parting], [.releasing, .parted]⟩
  | .release => ⟨[.releasing, .member], [.leaving, .released]⟩
  | .leave => ⟨[.leaving], []⟩
  | .sendCall => ⟨[], [.sending]⟩
  | .sendNext stays posts closes =>
    ⟨.sending :: (if closes = true then [.connected] else []),
      ((if stays = true then [.sending] else []) ++ (if closes = true then [.closing] else [])) ++
        (if posts = true then [.sendOp] else [])⟩
  | .sendComplete => ⟨[.sendOp], [.sending]⟩

/-- The places where the session is in use. -/
def livePlaces : List Place :=
  [.connecting, .connectPosting, .connectReset, .accepting, .opening false, .opening true, .adding, .greeting, .arming,
    .recvPosting, .recvFailed, .recvReset, .recvClearing false, .recvClearing true, .recvChecking false,
    .recvChecking true, .receiving, .closing, .closePosting, .closeReset, .partClearing, .parting, .releasing, .leaving,
    .sending, .connectOp, .acceptOp, .recvOp, .disconnectOp, .sendOp, .connectOwner, .recvOwner, .disconnectOwner, .member]

/-- What the code has seen where it makes the move. -/
def LifeRule.Guard (m : Place → Nat) : LifeRule → Prop
  | .createConnect | .createAccept => ∀ p, m p = 0
  | .destroy => 0 < m .created ∧ ∀ p ∈ livePlaces, m p = 0
  | .recvSkip | .recvQuiet | .checkEnd _ | .loopEnd => m .connected = 0
  | .callClose | .sendCall => 0 < m .added ∧ m .destroyed = 0
  | _ => True

/-! ## The laws -/

def lawEq (xs ys : List Place) : List (Law Place) := [⟨xs, ys⟩, ⟨ys, xs⟩]

/-- Where the receive of a connected session is. -/
def recvChain : List Place :=
  [.arming, .recvPosting, .recvFailed, .recvReset, .recvOp, .recvClearing false, .recvClearing true,
    .recvChecking false, .recvChecking true, .receiving]

/-- A session that is no longer connected is in one of these. -/
def closings : List Place := [.closing, .closePosting, .closeReset, .disconnectOp, .disconnects, .lost]

def lifeLaws : List (Law Place) :=
  [⟨[.connecting, .connectPosting, .connectReset, .connectOp, .accepting, .acceptOp, .connects], [.created]⟩,
    ⟨recvChain, [.greeted]⟩, ⟨[.leaving], [.released]⟩] ++
  lawEq [.connects] [.opening false, .opening true, .adding, .added] ++
  lawEq [.connects] [.connectOk, .connectFailed, .accepted] ++
  lawEq [.added] [.greeting, .greeted] ++
  lawEq (.connected :: closings) [.adding, .added] ++
  lawEq [.disconnects] [.partClearing, .parting, .parted] ++
  lawEq [.parted] [.releasing, .released] ++
  lawEq [.added] [.member, .released] ++
  lawEq [.connectOwner] [.connectPosting, .connectReset, .connectOp, .opening false] ++
  lawEq [.disconnectOwner] [.closePosting, .closeReset, .disconnectOp, .partClearing] ++
  lawEq [.recvOwner] [.recvPosting, .recvFailed, .recvReset, .recvOp, .recvClearing false, .recvClearing true]

theorem keeps_lifeLaws (r : LifeRule) : ∀ l ∈ lifeLaws, l.Keeps r.rule :=
  LifeRule.forall_of_all (p := fun r => ∀ l ∈ lifeLaws, l.Keeps r.rule) (by decide +kernel) r

/-- **The invariant of a session's life.**  Only what has been added is sent on or disconnected. -/
structure Life (m : Place → Nat) : Prop where
  laws : ∀ l ∈ lifeLaws, l.Holds m
  created : m .created ≤ 1
  closed : total m closings ≤ m .added
  sent : 0 < m .sending + m .sendOp → 0 < m .added
  blank : m .created = 0 → ∀ p, m p = 0
  dead : 0 < m .destroyed → ∀ p ∈ livePlaces, m p = 0

/-- The laws one by one. -/
structure LifeFacts (m : Place → Nat) : Prop where
  born : m .connecting + m .connectPosting + m .connectReset + m .connectOp + m .accepting + m .acceptOp +
    m .connects ≤ m .created
  created : m .created ≤ 1
  opened : m .connects = m (.opening false) + m (.opening true) + m .adding + m .added
  entered : m .connects = m .connectOk + m .connectFailed + m .accepted
  greeted : m .added = m .greeting + m .greeted
  chain : m .arming + m .recvPosting + m .recvFailed + m .recvReset + m .recvOp + m (.recvClearing false) +
    m (.recvClearing true) + m (.recvChecking false) + m (.recvChecking true) + m .receiving ≤ m .greeted
  life : m .connected + m .closing + m .closePosting + m .closeReset + m .disconnectOp + m .disconnects + m .lost =
    m .adding + m .added
  closed : m .closing + m .closePosting + m .closeReset + m .disconnectOp + m .disconnects + m .lost ≤ m .added
  parted : m .disconnects = m .partClearing + m .parting + m .parted
  released : m .parted = m .releasing + m .released
  left : m .leaving ≤ m .released
  member : m .added = m .member + m .released
  connectOwner : m .connectOwner = m .connectPosting + m .connectReset + m .connectOp + m (.opening false)
  disconnectOwner : m .disconnectOwner = m .closePosting + m .closeReset + m .disconnectOp + m .partClearing
  recvOwner : m .recvOwner = m .recvPosting + m .recvFailed + m .recvReset + m .recvOp + m (.recvClearing false) +
    m (.recvClearing true)
  sent : 0 < m .sending + m .sendOp → 0 < m .added

theorem Life.facts {m : Place → Nat} (h : Life m) : LifeFacts m := by
  have hl := h.laws
  have hc := h.closed
  simp only [lifeLaws, lawEq, recvChain, closings, List.forall_mem_append, List.forall_mem_cons, Law.Holds, total_cons,
    total_nil, List.not_mem_nil, false_imp_iff, implies_true, and_true] at hl hc
  exact ⟨by omega, h.created, by omega, by omega, by omega, by omega, by omega, by omega, by omega, by omega, by omega,
    by omega, by omega, by omega, by omega, h.sent⟩

/-- **`ProcessConnect` runs once at most.** -/
theorem LifeFacts.entering_le {m : Place → Nat} (h : LifeFacts m) :
    m .connects ≤ 1 ∧ m (.opening false) + m (.opening true) + m .adding + m .added ≤ 1 := by
  have := h.born
  have := h.created
  have := h.opened
  omega

variable {m m' : Place → Nat} {r : LifeRule}

/-- The rules by which a session stops being connected. -/
def LifeRule.closes : LifeRule → Bool
  | .recvClose | .checkClose _ | .loopClose | .callClose | .sendNext _ _ true => true
  | _ => false

def closedLaw : Law Place := ⟨closings, [.added]⟩

theorem keeps_closedLaw : ∀ r : LifeRule, r.closes = false → closedLaw.Keeps r.rule :=
  LifeRule.forall_of_all (by decide)

/-- A rule that disconnects is one of code that only runs for a session that has been added. -/
theorem Life.added_of_closes (h : Life m) (hg : r.Guard m) (hf : r.rule.Fires m m') (hc : r.closes = true) :
    0 < m .added := by
  have hfacts := h.facts
  have hgreeted := hfacts.greeted
  have hchain := hfacts.chain
  cases r with
  | callClose => exact hg.1
  | recvClose =>
    have := hf.pos (p := .recvFailed) (by decide)
    omega
  | checkClose empty =>
    have := hf.pos (p := .recvChecking empty) List.mem_cons_self
    cases empty <;> omega
  | loopClose =>
    have := hf.pos (p := .receiving) (by decide)
    omega
  | sendNext stays posts closes =>
    have := hf.pos (p := .sending) List.mem_cons_self
    exact h.sent (by omega)
  | _ => cases hc

theorem closes_effect : ∀ r : LifeRule, r.closes = true →
    .connected ∈ r.rule.take ∧ .added ∉ r.rule.take ∧ .added ∉ r.rule.put ∧
      total r.rule.take.count closings = 0 ∧ total r.rule.put.count closings = 1 :=
  LifeRule.forall_of_all (by decide)

/-- **A disconnect comes after the session was added**, and only once. -/
theorem Life.closed_fire (h : Life m) (hg : r.Guard m) (hf : r.rule.Fires m m') :
    total m' closings ≤ m' .added := by
  cases hc : r.closes with
  | false =>
    have := Law.Holds.fire (l := closedLaw) (by simpa [closedLaw, Law.Holds] using h.closed) hf (keeps_closedLaw r hc)
    simpa [closedLaw, Law.Holds] using this
  | true =>
    obtain ⟨hconn, hat, hap, htake, hput⟩ := closes_effect r hc
    have hadded := h.added_of_closes hg hf hc
    have hpos := hf.pos hconn
    have htotal := hf.total closings
    have hfacts := h.facts
    have honce := hfacts.entering_le
    have hlife := hfacts.life
    rw [hf.same hat hap]
    simp only [closings, total_cons, total_nil] at htotal htake hput ⊢
    omega

theorem put_created : ∀ r : LifeRule,
    r = .createConnect ∨ r = .createAccept ∨ .created ∉ r.rule.take ∧ .created ∉ r.rule.put :=
  LifeRule.forall_of_all (by decide)

theorem Life.created_fire (h : Life m) (hg : r.Guard m) (hf : r.rule.Fires m m') : m' .created ≤ 1 := by
  rcases put_created r with rfl | rfl | ⟨ht, hp⟩
  · have := hf.moved .created
    rw [hg .created] at this
    exact Nat.le_of_eq this
  · have := hf.moved .created
    rw [hg .created] at this
    exact Nat.le_of_eq this
  · rw [hf.same ht hp]
    exact h.created

theorem take_added : ∀ r : LifeRule, .added ∉ r.rule.take := LifeRule.forall_of_all (by decide)

theorem put_sending : ∀ r : LifeRule, .sending ∈ r.rule.put ∨ .sendOp ∈ r.rule.put →
    r = .sendCall ∨ .sending ∈ r.rule.take ∨ .sendOp ∈ r.rule.take :=
  LifeRule.forall_of_all (by decide)

theorem Life.sent_fire (h : Life m) (hg : r.Guard m) (hf : r.rule.Fires m m') :
    0 < m' .sending + m' .sendOp → 0 < m' .added := by
  intro hs
  have hmono := hf.moved .added
  rw [List.count_eq_zero_of_not_mem (take_added r)] at hmono
  suffices 0 < m .added by omega
  by_cases hr : .sending ∈ r.rule.put ∨ .sendOp ∈ r.rule.put
  · -- sending begins with a call, and goes on from there
    rcases put_sending r hr with rfl | hr | hr
    · exact hg.1
    · have := hf.pos hr
      exact h.sent (by omega)
    · have := hf.pos hr
      exact h.sent (by omega)
  · simp only [not_or] at hr
    have h1 := hf.moved .sending
    have h2 := hf.moved .sendOp
    rw [List.count_eq_zero_of_not_mem hr.1] at h1
    rw [List.count_eq_zero_of_not_mem hr.2] at h2
    exact h.sent (by omega)

theorem take_live : ∀ r : LifeRule, r = .stay ∨ r = .destroy ∨ r = .createConnect ∨ r = .createAccept ∨
    r = .callClose ∨ r = .sendCall ∨ ∃ p ∈ r.rule.take, p ∈ livePlaces :=
  LifeRule.forall_of_all (by decide)

theorem put_destroyed : ∀ r : LifeRule, r ≠ .destroy → .destroyed ∉ r.rule.put := LifeRule.forall_of_all (by decide)

theorem take_created : ∀ r : LifeRule, .created ∉ r.rule.take := LifeRule.forall_of_all (by decide)

theorem take_nil : ∀ r : LifeRule, r.rule.take = [] →
    r = .stay ∨ r = .destroy ∨ r = .createConnect ∨ r = .createAccept ∨ r = .sendCall :=
  LifeRule.forall_of_all (by decide)

theorem Life.blank_fire (h : Life m) (hg : r.Guard m) (hf : r.rule.Fires m m') :
    m' .created = 0 → ∀ p, m' p = 0 := by
  intro h0 p
  have hc := hf.moved .created
  rw [List.count_eq_zero_of_not_mem (take_created r)] at hc
  have hblank := h.blank (by omega)
  rcases take_nil r (hf.take_eq_nil hblank) with rfl | rfl | rfl | rfl | rfl
  · rw [hf.same List.not_mem_nil List.not_mem_nil]
    exact hblank p
  · have := hg.1
    omega
  · simp only [LifeRule.rule, List.count_cons, List.count_nil] at hc
    exact absurd hc (by simp [h0])
  · simp only [LifeRule.rule, List.count_cons, List.count_nil] at hc
    exact absurd hc (by simp [h0])
  · have := hg.1
    have := hblank .added
    omega

/-- **Nothing happens to a session that has been destroyed.** -/
theorem Life.dead_fire (h : Life m) (hg : r.Guard m) (hf : r.rule.Fires m m') :
    0 < m' .destroyed → ∀ p ∈ livePlaces, m' p = 0 := by
  intro hd p hp
  by_cases hr : r = .destroy
  · subst hr
    rw [hf.same List.not_mem_nil (fun hm => ?_)]
    · exact hg.2 p hp
    · rw [List.mem_singleton.1 hm] at hp
      exact absurd hp (by decide)
  · have hd' : 0 < m .destroyed := by
      have := hf.moved .destroyed
      rw [List.count_eq_zero_of_not_mem (put_destroyed r hr)] at this
      omega
    have hdead := h.dead hd'
    rcases take_live r with rfl | rfl | rfl | rfl | rfl | rfl | ⟨q, hq, hlive⟩
    · rw [hf.same List.not_mem_nil List.not_mem_nil]
      exact hdead p hp
    · exact absurd rfl hr
    · have := hg .destroyed
      omega
    · have := hg .destroyed
      omega
    · have := hg.2
      omega
    · have := hg.2
      omega
    · have := hf.pos hq
      have := hdead q hlive
      omega

/-- **Every move of the code keeps the invariant.** -/
theorem Life.fire (h : Life m) (hg : r.Guard m) (hf : r.rule.Fires m m') : Life m' where
  laws l hl := (h.laws l hl).fire hf (keeps_lifeLaws r l hl)
  created := h.created_fire hg hf
  closed := h.closed_fire hg hf
  sent := h.sent_fire hg hf
  blank := h.blank_fire hg hf
  dead := h.dead_fire hg hf

theorem life_zero : Life (fun _ => 0) where
  laws l _ := by simp only [Law.Holds, total_zero, Nat.le_refl]
  created := Nat.zero_le 1
  closed := by simp only [total_zero, Nat.le_refl]
  sent hs := hs
  blank _ _ := rfl
  dead _ _ _ := rfl

/-! ## What follows where a thread is -/

namespace LifeFacts

variable (h : LifeFacts m)

include h

theorem connectOwner_of_connecting (hp : 0 < m .connecting) : m .connectOwner = 0 := by
  have := h.born
  have := h.created
  have := h.opened
  have := h.connectOwner
  omega

theorem connected_of_opening (hp : 0 < m (.opening false) + m (.opening true)) : m .connected = 0 := by
  have := h.entering_le
  have := h.life
  omega

/-- `ProcessConnect` of an accepted session finds `_connectEvent.owner` null. -/
theorem connectOwner_of_accepted (hp : 0 < m (.opening true)) : m .connectOwner = 0 := by
  have := h.born
  have := h.created
  have := h.opened
  have := h.connectOwner
  omega

theorem created_of_connected (hp : 0 < m .connected) : 0 < m .created := by
  have := h.born
  have := h.opened
  have := h.life
  omega

theorem member_of_adding (hp : 0 < m .adding) : m .member = 0 := by
  have := h.entering_le
  have := h.member
  omega

theorem recvOwner_of_arming (hp : 0 < m .arming) : m .recvOwner = 0 := by
  have := h.entering_le
  have := h.greeted
  have := h.chain
  have := h.recvOwner
  omega

theorem disconnectOwner_of_closing (hp : 0 < m .closing) : m .disconnectOwner = 0 := by
  have := h.entering_le
  have := h.closed
  have := h.parted
  have := h.disconnectOwner
  omega

/-- **The assertion of `ReleaseSession` holds.** -/
theorem member_of_releasing (hp : 0 < m .releasing) : 0 < m .member := by
  have := h.closed
  have := h.parted
  have := h.released
  have := h.member
  omega

end LifeFacts

end Geon
