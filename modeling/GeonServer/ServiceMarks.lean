import GeonServer.Service
import GeonServer.SessionLife
import GeonServer.Tally
/-!
# ServiceMarks — what a step of the service does to a session's life

The marking of a session counts the threads at each point of its code, its operations in flight, its flags and its
history.  A step of the service moves the marking of one session by one rule and leaves the others alone
(`ServiceState.Moved`).
-/
namespace Geon

open Net Lts Function

variable {Tid Buf : Type} {K : Contents Buf}

/-! ## The marking -/

def ClosePc.place : ClosePc → Place
  | .register => .closing
  | .post => .closePosting
  | .reset => .closeReset

/-- The session a task is about, and where it is with it. -/
def Task.place {Prog : Type} : Task Prog Buf → Option (Nat × Place)
  | .idle | .registerAccept | .broadcast _ _ => none
  | .registerConnect a .check => some (a, .connecting)
  | .registerConnect a .post => some (a, .connectPosting)
  | .registerConnect a .reset => some (a, .connectReset)
  | .acceptEx a | .processAccept a => some (a, .accepting)
  | .processConnect a accepted .store => some (a, .opening accepted)
  | .processConnect a _ .lock | .processConnect a _ .insert => some (a, .adding)
  | .processConnect a _ (.onConnected _) => some (a, .greeting)
  | .registerRecv a _ .check => some (a, .arming)
  | .registerRecv a _ .post => some (a, .recvPosting)
  | .registerRecv a _ (.error _) => some (a, .recvFailed)
  | .registerRecv a _ .reset => some (a, .recvReset)
  | .processRecv a (.clear numOfBytes) => some (a, .recvClearing (numOfBytes = 0))
  | .processRecv a (.check numOfBytes) => some (a, .recvChecking (numOfBytes = 0))
  | .processRecv a (.loop _) | .processRecv a (.packet _ _) => some (a, .receiving)
  | .processDisconnect a .clear => some (a, .partClearing)
  | .processDisconnect a (.onDisconnected _) => some (a, .parting)
  | .processDisconnect a .release => some (a, .releasing)
  | .processDisconnect a .uncount => some (a, .leaving)

/-- Where a thread is with which sessions. -/
def ServiceWorker.marks {Prog : Type} (w : ServiceWorker Prog Buf) : List (Nat × Place) :=
  w.task.place.toList ++ ((w.sending.map (fun a => (a, Place.sending))).toList ++
    (w.closing.map (fun c => (c.1, c.2.place))).toList)

/-- What a session itself counts, a `member` of the set of its service, and `created`. -/
def Session.part (x : Session Tid Buf) (member created : Bool) : Place → Nat
  | .connectOp => x.connectEvent.ops.length
  | .acceptOp => x.accepts.length
  | .recvOp => x.recvEvent.ops.length
  | .disconnectOp => x.disconnectEvent.ops.length
  | .sendOp => x.send.outstanding.length
  | .connected => x.send.connected.toNat
  | .connectOwner => x.connectEvent.owner.toNat
  | .recvOwner => x.recvEvent.owner.toNat
  | .disconnectOwner => x.disconnectEvent.owner.toNat
  | .member => member.toNat
  | .created => created.toNat
  | .destroyed => x.destroyed.toNat
  | .connects => x.history.connects
  | .added => x.history.added
  | .greeted => x.history.greeted
  | .disconnects => x.history.disconnects
  | .parted => x.history.parted
  | .released => x.history.released
  | .lost => x.history.lost
  | .connectOk => x.history.connectOk
  | .connectFailed => x.history.connectFailed
  | .accepted => x.history.accepted
  | _ => 0

/-- The place is one of the code. -/
def Place.inCode (p : Place) : Bool :=
  match p with
  | .connecting | .connectPosting | .connectReset | .accepting | .opening _ | .adding | .greeting | .arming
  | .recvPosting | .recvFailed | .recvReset | .recvClearing _ | .recvChecking _ | .receiving | .closing
  | .closePosting | .closeReset | .partClearing | .parting | .releasing | .leaving | .sending => true
  | _ => false

theorem inCode_of_mem_marks {Prog : Type} {w : ServiceWorker Prog Buf} {a : Nat} {p : Place} (h : (a, p) ∈ w.marks) :
    p.inCode = true := by
  rcases w with ⟨task, sending, closing⟩
  simp only [ServiceWorker.marks, List.mem_append, Option.mem_toList, Option.map_eq_some_iff, Prod.mk.injEq] at h
  rcases h with h | ⟨_, _, _, rfl⟩ | ⟨⟨_, pc⟩, _, _, rfl⟩
  · unfold Task.place at h
    split at h <;> cases h <;> rfl
  · rfl
  · cases pc <;> rfl

/-- The place is one of a task. -/
def Place.inTask (p : Place) : Bool :=
  match p with
  | .closing | .closePosting | .closeReset | .sending => false
  | p => p.inCode

theorem mem_marks_task {Prog : Type} {w : ServiceWorker Prog Buf} {a : Nat} {p : Place} (hp : p.inTask = true) :
    (a, p) ∈ w.marks ↔ w.task.place = some (a, p) := by
  rcases w with ⟨task, sending, closing⟩
  simp only [ServiceWorker.marks, List.mem_append, Option.mem_toList, Option.map_eq_some_iff, Prod.mk.injEq]
  constructor
  · rintro (h | ⟨_, _, _, rfl⟩ | ⟨⟨_, pc⟩, _, _, rfl⟩)
    · exact h
    · cases hp
    · cases pc <;> cases hp
  · exact .inl

theorem mem_marks_closing {Prog : Type} {w : ServiceWorker Prog Buf} {a : Nat} (pc : ClosePc) :
    (a, pc.place) ∈ w.marks ↔ w.closing = some (a, pc) := by
  rcases w with ⟨task, sending, closing⟩
  simp only [ServiceWorker.marks, List.mem_append, Option.mem_toList, Option.map_eq_some_iff, Prod.mk.injEq]
  constructor
  · rintro (h | ⟨_, _, _, h⟩ | ⟨⟨_, pc'⟩, rfl, rfl, h⟩)
    · have hin : pc.place.inTask = true := by
        unfold Task.place at h
        split at h <;> simp only [reduceCtorEq, Option.some.injEq, Prod.mk.injEq] at h <;> rw [← h.2] <;> rfl
      cases pc <;> cases hin
    · cases pc <;> cases h
    · cases pc <;> cases pc' <;> first | rfl | cases h
  · intro h
    exact .inr (.inr ⟨_, h, rfl, rfl⟩)

theorem mem_marks_sending {Prog : Type} {w : ServiceWorker Prog Buf} {a : Nat} (h : w.sending = some a) :
    (a, Place.sending) ∈ w.marks := by
  simp [ServiceWorker.marks, h]

theorem Task.session?_eq {Prog : Type} (task : Task Prog Buf) : task.session? = task.place.map Prod.fst := by
  unfold Task.place
  split <;> rfl

theorem uses_iff {Prog : Type} {w : ServiceWorker Prog Buf} {a : Nat} : w.uses a ↔ ∃ p, (a, p) ∈ w.marks := by
  rcases w with ⟨task, sending, closing⟩
  simp only [ServiceWorker.uses, ServiceWorker.marks, Task.session?_eq, List.mem_append, Option.mem_toList,
    Option.map_eq_some_iff, Prod.mk.injEq, Prod.exists]
  constructor
  · rintro (⟨_, p, h, rfl⟩ | h | ⟨_, pc, h, rfl⟩)
    · exact ⟨p, .inl h⟩
    · exact ⟨_, .inr (.inl ⟨a, h, rfl, rfl⟩)⟩
    · exact ⟨_, .inr (.inr ⟨_, pc, h, rfl, rfl⟩)⟩
  · rintro ⟨p, h | ⟨_, h, rfl, -⟩ | ⟨_, pc, h, rfl, -⟩⟩
    · exact .inl ⟨a, p, h, rfl⟩
    · exact .inr (.inl h)
    · exact .inr (.inr ⟨_, pc, h, rfl⟩)

theorem mem_livePlaces {p : Place} (h : p.inCode = true) : p ∈ livePlaces := by
  cases p with
  | «opening» b | recvClearing b | recvChecking b => cases b <;> decide
  | connectOp | acceptOp | recvOp | disconnectOp | sendOp | connected | connectOwner | recvOwner | disconnectOwner
  | member | created | destroyed | connects | added | greeted | disconnects | parted | released | lost | connectOk
  | connectFailed | accepted => cases h
  | _ => decide

theorem part_eq_zero (x : Session Tid Buf) (member created : Bool) {p : Place} (h : p.inCode = true) :
    x.part member created p = 0 := by
  cases p <;> first | rfl | cases h

/-- The thread is between setting `_connectEvent.owner` and clearing it. -/
def ServiceWorker.holdsConnect {Prog : Type} (w : ServiceWorker Prog Buf) (a : Nat) : Prop :=
  w.task = .registerConnect a .post ∨ w.task = .registerConnect a .reset ∨ w.task = .processConnect a false .store

/-- The thread is between setting `_disconnectEvent.owner` and clearing it. -/
def ServiceWorker.holdsDisconnect {Prog : Type} (w : ServiceWorker Prog Buf) (a : Nat) : Prop :=
  w.closing = some (a, .post) ∨ w.closing = some (a, .reset) ∨ w.task = .processDisconnect a .clear

/-- The thread is between setting `_recvEvent.owner` and clearing it. -/
def ServiceWorker.holdsRecv {Prog : Type} (w : ServiceWorker Prog Buf) (a : Nat) : Prop :=
  (∃ accepted pc, w.task = .registerRecv a accepted pc ∧ pc ≠ .check) ∨
    ∃ numOfBytes, w.task = .processRecv a (.clear numOfBytes)

variable [Fintype Tid]

theorem eq_true_of_toNat_pos {b : Bool} (h : 0 < b.toNat) : b = true :=
  Bool.toNat_eq_one.1 (Nat.le_antisymm (Bool.toNat_le b) h)

namespace ServiceState

/-- The marking of session `a`. -/
def marking (s : ServiceState Tid K) (a : Nat) (p : Place) : Nat :=
  tally (fun w => w.marks.count (a, p)) s.workers +
    (s.session a).part (decide (a ∈ s.sessions)) (decide (a < s.numSessions)) p

theorem marking_flag (s : ServiceState Tid K) (a : Nat) {p : Place} (h : p.inCode = false) :
    s.marking a p = (s.session a).part (decide (a ∈ s.sessions)) (decide (a < s.numSessions)) p := by
  unfold marking
  rw [Nat.add_eq_right, tally_eq_zero]
  intro t
  refine List.count_eq_zero_of_not_mem (fun hm => ?_)
  rw [inCode_of_mem_marks hm] at h
  cases h

theorem marking_pos {s : ServiceState Tid K} {t : Tid} {a : Nat} {p : Place} (h : (a, p) ∈ (s.workers t).marks) :
    0 < s.marking a p :=
  Nat.lt_of_lt_of_le (List.count_pos_iff.2 h)
    (Nat.le_trans (le_tally (fun w => w.marks.count (a, p)) s.workers t) (Nat.le_add_right _ _))

/-- A thread's task is at the place. -/
theorem marking_pos_of_task {s : ServiceState Tid K} {t : Tid} {a : Nat} {p : Place}
    (h : (s.workers t).task.place = some (a, p)) : 0 < s.marking a p := by
  refine marking_pos (t := t) ?_
  unfold ServiceWorker.marks
  rw [h]
  simp

theorem mem_marks_of_pos {s : ServiceState Tid K} {a : Nat} {p : Place} (hp : p.inCode = true)
    (h : 0 < s.marking a p) : ∃ t, (a, p) ∈ (s.workers t).marks := by
  unfold marking at h
  rw [part_eq_zero _ _ _ hp, Nat.add_zero] at h
  obtain ⟨t, ht⟩ := exists_of_tally_pos _ _ h
  exact ⟨t, List.count_pos_iff.1 ht⟩

theorem marking_pos_iff {s : ServiceState Tid K} {a : Nat} {p : Place} (hp : p.inCode = true) :
    0 < s.marking a p ↔ ∃ t, (a, p) ∈ (s.workers t).marks :=
  ⟨mem_marks_of_pos hp, fun ⟨_, ht⟩ => marking_pos ht⟩

/-! ## One session moves -/

/-- **What a step does**: session `a` moves by the rule `r`, the other sessions stay. -/
structure Moved (s s' : ServiceState Tid K) (a : Nat) (r : LifeRule) : Prop where
  guard : r.Guard (s.marking a)
  fires : r.rule.Fires (s.marking a) (s'.marking a)
  others : ∀ b, b ≠ a → s'.marking b = s.marking b

section flags

variable (s : ServiceState Tid K) (a : Nat)

theorem marking_connected : s.marking a .connected = (s.session a).send.connected.toNat := marking_flag s a rfl

theorem marking_connectOwner : s.marking a .connectOwner = (s.session a).connectEvent.owner.toNat :=
  marking_flag s a rfl

theorem marking_recvOwner : s.marking a .recvOwner = (s.session a).recvEvent.owner.toNat := marking_flag s a rfl

theorem marking_disconnectOwner : s.marking a .disconnectOwner = (s.session a).disconnectEvent.owner.toNat :=
  marking_flag s a rfl

theorem marking_connectOp : s.marking a .connectOp = (s.session a).connectEvent.ops.length := marking_flag s a rfl

theorem marking_recvOp : s.marking a .recvOp = (s.session a).recvEvent.ops.length := marking_flag s a rfl

theorem marking_disconnectOp : s.marking a .disconnectOp = (s.session a).disconnectEvent.ops.length :=
  marking_flag s a rfl

theorem marking_member : s.marking a .member = (decide (a ∈ s.sessions)).toNat := marking_flag s a rfl

theorem marking_added : s.marking a .added = (s.session a).history.added := marking_flag s a rfl

end flags

/-! ## Owners -/

section owners

variable {s : ServiceState Tid K} {a : Nat}

/-- A session that anything has happened to is one that was created. -/
theorem lt_numSessions (hL : ∀ a, Life (s.marking a)) {p : Place} (h : 0 < s.marking a p) : a < s.numSessions := by
  by_contra hge
  have hcreated : s.marking a .created = 0 := by
    rw [marking_flag _ _ rfl]
    simp [Session.part, hge]
  rw [(hL a).blank hcreated p] at h
  exact absurd h (Nat.lt_irrefl 0)

theorem notMem_of_adding (h : Life (s.marking a)) (hpos : 0 < s.marking a .adding) : a ∉ s.sessions := by
  have := h.facts.member_of_adding hpos
  rw [marking_member, Bool.toNat_eq_zero] at this
  exact of_decide_eq_false this

theorem lt_of_session (hL : ∀ a, Life (s.marking a)) {t : Tid} {task : Task K.Prog Buf}
    (hw : s.workers t = ⟨task, none, none⟩) (ha : task.session? = some a) : a < s.numSessions := by
  rw [Task.session?_eq] at ha
  obtain ⟨⟨b, p⟩, hp, rfl⟩ := Option.map_eq_some_iff.1 ha
  exact lt_numSessions hL (marking_pos_of_task (t := t) (by rw [hw]; exact hp))

theorem connectEvent_owned (h : Life (s.marking a))
    (ho : (s.session a).connectEvent.ops ≠ [] ∨ ∃ t, (s.workers t).holdsConnect a) :
    (s.session a).connectEvent.owner = true := by
  have howner := h.facts.connectOwner
  rw [marking_connectOwner, marking_connectOp] at howner
  apply eq_true_of_toNat_pos
  rcases ho with ho | ⟨t, ho | ho | ho⟩
  · have := List.length_pos_iff.2 ho
    omega
  · have : 0 < s.marking a .connectPosting := marking_pos_of_task (t := t) (by rw [ho]; rfl)
    omega
  · have : 0 < s.marking a .connectReset := marking_pos_of_task (t := t) (by rw [ho]; rfl)
    omega
  · have : 0 < s.marking a (.opening false) := marking_pos_of_task (t := t) (by rw [ho]; rfl)
    omega

theorem disconnectEvent_owned (h : Life (s.marking a))
    (ho : (s.session a).disconnectEvent.ops ≠ [] ∨ ∃ t, (s.workers t).holdsDisconnect a) :
    (s.session a).disconnectEvent.owner = true := by
  have howner := h.facts.disconnectOwner
  rw [marking_disconnectOwner, marking_disconnectOp] at howner
  apply eq_true_of_toNat_pos
  rcases ho with ho | ⟨t, ho | ho | ho⟩
  · have := List.length_pos_iff.2 ho
    omega
  · have := marking_pos (t := t) (a := a) ((mem_marks_closing .post).2 ho)
    simp only [ClosePc.place] at this
    omega
  · have := marking_pos (t := t) (a := a) ((mem_marks_closing .reset).2 ho)
    simp only [ClosePc.place] at this
    omega
  · have : 0 < s.marking a .partClearing := marking_pos_of_task (t := t) (by rw [ho]; rfl)
    omega

theorem recvEvent_owned (h : Life (s.marking a))
    (ho : (s.session a).recvEvent.ops ≠ [] ∨ ∃ t, (s.workers t).holdsRecv a) :
    (s.session a).recvEvent.owner = true := by
  have howner := h.facts.recvOwner
  rw [marking_recvOwner, marking_recvOp] at howner
  apply eq_true_of_toNat_pos
  rcases ho with ho | ⟨t, ⟨accepted, pc, ho, hpc⟩ | ⟨numOfBytes, ho⟩⟩
  · have := List.length_pos_iff.2 ho
    omega
  · cases pc with
    | check => exact absurd rfl hpc
    | post =>
      have : 0 < s.marking a .recvPosting := marking_pos_of_task (t := t) (by rw [ho]; rfl)
      omega
    | error errCode =>
      have : 0 < s.marking a .recvFailed := marking_pos_of_task (t := t) (by rw [ho]; rfl)
      omega
    | reset =>
      have : 0 < s.marking a .recvReset := marking_pos_of_task (t := t) (by rw [ho]; rfl)
      omega
  · have := marking_pos (t := t) (a := a)
      ((mem_marks_task (p := .recvClearing (numOfBytes = 0)) rfl).2 (by rw [ho]; rfl))
    cases hn : decide (numOfBytes = 0) <;> rw [hn] at this <;> omega

end owners

variable [DecidableEq Tid] {s s' : ServiceState Tid K} {t : Tid} {a : Nat} {w : ServiceWorker K.Prog Buf}
  {r : LifeRule} {x : Session Tid Buf}

/-- Thread `t` goes from the places `xs` of session `a` to `ys`, and the session counts `ys'` for `xs'`. -/
theorem Moved.of_marks (xs ys xs' ys' : List Place) (rest : List (Nat × Place))
    (hw : s'.workers = update s.workers t w)
    (hfrom : (s.workers t).marks.Perm (xs.map (fun p => (a, p)) ++ rest))
    (hto : w.marks.Perm (ys.map (fun p => (a, p)) ++ rest)) (hr : r.rule = ⟨xs ++ xs', ys ++ ys'⟩)
    (hpart : ∀ p, (s'.session a).part (decide (a ∈ s'.sessions)) (decide (a < s'.numSessions)) p + xs'.count p =
      (s.session a).part (decide (a ∈ s.sessions)) (decide (a < s.numSessions)) p + ys'.count p)
    (hfresh : ∀ p ∈ xs', ys'.count p = 0)
    (hothers : ∀ b, b ≠ a → s'.session b = s.session b ∧ (b ∈ s'.sessions ↔ b ∈ s.sessions) ∧
      (b < s'.numSessions ↔ b < s.numSessions)) (hg : r.Guard (s.marking a)) : Moved s s' a r where
  guard := hg
  fires := by
    rw [hr]
    refine ⟨fun p => ?_, fun p => ?_⟩
    · have hle := le_tally (fun w => w.marks.count (a, p)) s.workers t
      have hc := hfrom.count_eq (a, p)
      have hx : (xs.map (fun p => (a, p))).count (a, p) = xs.count p :=
        List.count_map_of_injective _ _ (fun _ _ h => (Prod.mk.inj h).2) p
      have hx' : xs'.count p ≤ (s.session a).part (decide (a ∈ s.sessions)) (decide (a < s.numSessions)) p := by
        by_cases hp : p ∈ xs'
        · have := hpart p
          have := hfresh p hp
          omega
        · rw [List.count_eq_zero_of_not_mem hp]
          exact Nat.zero_le _
      rw [List.count_append, hx] at hc
      simp only [List.count_append, marking]
      omega
    · have hupd := tally_update (fun w => w.marks.count (a, p)) s.workers t w
      have hc := hfrom.count_eq (a, p)
      have hc' := hto.count_eq (a, p)
      have hx : (xs.map (fun p => (a, p))).count (a, p) = xs.count p :=
        List.count_map_of_injective _ _ (fun _ _ h => (Prod.mk.inj h).2) p
      have hy : (ys.map (fun p => (a, p))).count (a, p) = ys.count p :=
        List.count_map_of_injective _ _ (fun _ _ h => (Prod.mk.inj h).2) p
      have hp := hpart p
      rw [List.count_append, hx] at hc
      rw [List.count_append, hy] at hc'
      simp only [List.count_append, marking, hw]
      omega
  others b hb := by
    obtain ⟨hs, hm, hn⟩ := hothers b hb
    funext p
    have hupd := tally_update (fun w => w.marks.count (b, p)) s.workers t w
    have hnone : ∀ zs : List Place, (zs.map (fun p => (a, p))).count (b, p) = 0 := fun zs =>
      List.count_eq_zero_of_not_mem (by simp [Ne.symm hb])
    have hc := hfrom.count_eq (b, p)
    have hc' := hto.count_eq (b, p)
    rw [List.count_append, hnone] at hc hc'
    simp only [marking, hw, hs, hm, hn]
    omega

theorem Moved.of_task (xs ys xs' ys' : List Place) {task task' : Task K.Prog Buf}
    (hw : s.workers t = ⟨task, none, none⟩)
    (hw' : s'.workers = update s.workers t ⟨task', none, none⟩)
    (hfrom : task.place.toList = xs.map (fun p => (a, p))) (hto : task'.place.toList = ys.map (fun p => (a, p)))
    (hr : r.rule = ⟨xs ++ xs', ys ++ ys'⟩) (hs : s'.session = update s.session a x)
    (hm : ∀ b, b ≠ a → (b ∈ s'.sessions ↔ b ∈ s.sessions)) (hn : s'.numSessions = s.numSessions)
    (hpart : ∀ p, x.part (decide (a ∈ s'.sessions)) (decide (a < s.numSessions)) p + xs'.count p =
      (s.session a).part (decide (a ∈ s.sessions)) (decide (a < s.numSessions)) p + ys'.count p)
    (hfresh : ∀ p ∈ xs', ys'.count p = 0) (hg : r.Guard (s.marking a)) : Moved s s' a r := by
  refine Moved.of_marks xs ys xs' ys' [] hw' ?_ ?_ hr ?_ hfresh (fun b hb => ⟨?_, hm b hb, by rw [hn]⟩) hg
  · rw [hw, ServiceWorker.marks, hfrom]
    exact .refl _
  · rw [ServiceWorker.marks, hto]
    exact .refl _
  · rw [hs, hn, update_self]
    exact hpart
  · rw [hs, update_of_ne hb]

end ServiceState
end Geon
