import GeonServer.Lts
/-!
# SocketOwner — who closes which socket

`Session`, `Listener` and `SocketUtils` of ServerCore, as far as they make and close sockets.  Each object keeps a plain
copy of a handle, and `SocketUtils::Close` takes its argument by value: the `INVALID_SOCKET` it assigns is lost, and a
listener that has closed its socket has the old handle still.  So a second `CloseSocket`, or the destructor behind the
first, closes a handle that is nobody's, or that the system has handed out again (`closes_own_iff`).

Objects are numbered as they are made.  `owner` is the table of the system: the object that a handle was made for, as long
as it is open.
-/
namespace Geon

open Function Lts

abbrev SOCKET : Type := Nat

/-- The third kind is the `dummySocket` of `SocketUtils::Init`. -/
inductive SocketKind
  | Session
  | Listener
  | dummySocket
  deriving DecidableEq, Repr

/-- `socket` is `_socket`, and `none` is `INVALID_SOCKET`; `closed` tells of a listener that no `StartAccept` has made a
socket since its last `CloseSocket`. -/
structure SocketObject where
  kind : SocketKind
  socket : Option SOCKET
  closed : Bool
  deriving DecidableEq, Repr

/-- A call of `closesocket`: the object it was made for, and whose the handle was. -/
structure CloseCall where
  caller : Nat
  socket : SOCKET
  owner : Option Nat
  deriving DecidableEq, Repr

structure Sockets where
  objects : Nat → Option SocketObject
  next : Nat
  owner : SOCKET → Option Nat
  closes : List CloseCall

/-- What happens to sockets; `created` is what `WSASocket` answers, and `service` whether there is one. -/
inductive SocketAct
  | newSession (created : Option SOCKET)
  | init (created : SOCKET)
  | newListener
  | startAccept (o : Nat) (service : Bool) (created : Option SOCKET)
  | closeSocket (o : Nat)
  | delete (o : Nat)
  deriving DecidableEq, Repr

namespace SocketUtils

/-- `CreateSocket` for object `o`: the system gives a handle that is not open, or none. -/
def createSocket (s : Sockets) (o : Nat) : Option SOCKET → Option Sockets
  | none => some s
  | some h => if s.owner h = none then some { s with owner := update s.owner h (some o) } else none

/-- `Close`, called by object `o`. -/
def close (s : Sockets) (o : Nat) : Option SOCKET → Sockets
  | none => s
  | some h => { s with owner := update s.owner h none, closes := s.closes ++ [⟨o, h, s.owner h⟩] }

end SocketUtils

namespace Sockets

def new : Sockets := ⟨fun _ => none, 0, fun _ => none, []⟩

def put (s : Sockets) (o : Nat) (object : Option SocketObject) : Sockets :=
  { s with objects := update s.objects o object }

/-- An object that has a socket from the start. -/
def construct (s : Sockets) (kind : SocketKind) (created : Option SOCKET) : Option Sockets :=
  (SocketUtils.createSocket s s.next created).map (fun s' =>
    { s' with objects := update s'.objects s.next (some ⟨kind, created, false⟩), next := s.next + 1 })

def step (s : Sockets) : SocketAct → Option Sockets
  | .newSession created => s.construct .Session created
  | .init created => s.construct .dummySocket (some created)
  | .newListener => some { s with objects := update s.objects s.next (some ⟨.Listener, none, false⟩), next := s.next + 1 }
  | .startAccept o service created =>
    match s.objects o with
    | some ⟨.Listener, _, _⟩ =>
      if service = false then some s
      else (SocketUtils.createSocket s o created).map (fun s' => s'.put o (some ⟨.Listener, created, false⟩))
    | _ => none
  | .closeSocket o =>
    match s.objects o with
    | some ⟨.Listener, socket, _⟩ => some ((SocketUtils.close s o socket).put o (some ⟨.Listener, socket, true⟩))
    | _ => none
  -- the destructors, and the end of `Init`
  | .delete o => (s.objects o).map (fun object => (SocketUtils.close s o object.socket).put o none)

/-- The listener that closes has no handle, or has not closed it yet. -/
def NotClosed (s : Sockets) (a : SocketAct) (_ : Sockets) : Prop :=
  (match a with
    | .closeSocket o | .delete o => (s.objects o).all (fun object => !object.closed || object.socket.isNone)
    | _ => true) = true

instance (s : Sockets) (a : SocketAct) (s' : Sockets) : Decidable (s.NotClosed a s') :=
  inferInstanceAs (Decidable (_ = true))

/-- Every call of `closesocket` was for a handle of the caller. -/
def ClosesOwn (s : Sockets) : Prop := ∀ c ∈ s.closes, c.owner = some c.caller

variable {s s' : Sockets} {a : SocketAct} {o h : Nat}

/-- The object owns its handle if and only if it has not closed it. -/
def Owns (owner : SOCKET → Option Nat) (o : Nat) (object : SocketObject) : Prop :=
  ∀ h, object.socket = some h → (owner h = some o ↔ object.closed = false)

/-- As long as every object has closed its own handles only. -/
structure OwnerInv (s : Sockets) : Prop where
  owns : ∀ o object, s.objects o = some object → Owns s.owner o object
  objects : ∀ o object, s.objects o = some object → o < s.next
  owner : ∀ h o, s.owner h = some o → o < s.next
  closes : s.ClosesOwn

theorem ownerInv_new : OwnerInv new where
  owns _ _ h := by cases h
  objects _ _ h := by cases h
  owner _ _ h := by cases h
  closes _ h := absurd h List.not_mem_nil

/-- A handle that is not the object's changes hands between others. -/
theorem Owns.update {owner : SOCKET → Option Nat} {object : SocketObject} {v : Option Nat} (ho : Owns owner o object)
    (hne : owner h ≠ some o) (hv : v ≠ some o) : Owns (update owner h v) o object := by
  intro h' hsocket
  by_cases hh : h' = h
  · subst hh
    rw [update_self, iff_false_left hv, ← ho h' hsocket]
    exact hne
  · rw [update_of_ne hh]
    exact ho h' hsocket

/-- One object changes, and handles change hands between it and the system. -/
theorem OwnerInv.replace (hI : OwnerInv s) {owner : SOCKET → Option Nat} {n : Nat} {object' : Option SocketObject}
    {closes : List CloseCall} (hothers : ∀ o' object, o' ≠ o → Owns s.owner o' object → Owns owner o' object)
    (hself : ∀ object, object' = some object → Owns owner o object) (hn : s.next ≤ n) (ho : o < n)
    (howner : ∀ h o', owner h = some o' → o' < n) (hcloses : ∀ c ∈ closes, c.owner = some c.caller) :
    OwnerInv ⟨Function.update s.objects o object', n, owner, closes⟩ := by
  refine ⟨fun o' object hobject => ?_, fun o' object hobject => ?_, howner, hcloses⟩
  · by_cases ho' : o' = o
    · subst ho'
      exact hself object ((update_self (f := s.objects) o' object').symm.trans hobject)
    · exact hothers o' object ho' (hI.owns o' object ((update_of_ne ho' object' s.objects).symm.trans hobject))
  · by_cases ho' : o' = o
    · rw [ho']
      exact ho
    · exact Nat.lt_of_lt_of_le (hI.objects o' object ((update_of_ne ho' object' s.objects).symm.trans hobject)) hn

theorem lt_of_owner_update {owner : SOCKET → Option Nat} {h₀ n : Nat} {v : Option Nat}
    (howner : ∀ h o, owner h = some o → o < n) (hv : ∀ o, v = some o → o < n)
    (h' : Function.update owner h₀ v h = some o) : o < n := by
  by_cases hh : h = h₀
  · subst hh
    rw [update_self] at h'
    exact hv o h'
  · rw [update_of_ne hh] at h'
    exact howner h o h'

/-- **An object is given a socket** by the system, or none. -/
theorem OwnerInv.createSocket (hI : OwnerInv s) {created : Option SOCKET} {n : Nat} (kind : SocketKind)
    (hcreate : SocketUtils.createSocket s o created = some s') (hn : s.next ≤ n) (ho : o < n) :
    OwnerInv { s' with objects := Function.update s'.objects o (some ⟨kind, created, false⟩), next := n } := by
  have hlt : ∀ h o', s.owner h = some o' → o' < n := fun h o' howner => Nat.lt_of_lt_of_le (hI.owner h o' howner) hn
  cases created with
  | none =>
    cases hcreate
    refine hI.replace (fun _ _ _ hown => hown) (fun object hobject => ?_) hn ho hlt hI.closes
    cases hobject
    exact fun h hsocket => nomatch hsocket
  | some h₀ =>
    obtain ⟨hfree, hs'⟩ := Option.ite_none_right_eq_some.1 hcreate
    cases hs'
    refine hI.replace (fun o' object ho' hown => hown.update ?_ ?_) (fun object hobject => ?_) hn ho
      (fun h o' howner => ?_) hI.closes
    · rw [hfree]
      exact (Option.some_ne_none o').symm
    · exact fun heq => ho' (Option.some.inj heq).symm
    · cases hobject
      intro h hsocket
      cases hsocket
      exact iff_of_true (update_self _ _ _) rfl
    · exact lt_of_owner_update hlt (fun o' heq => Option.some.inj heq ▸ ho) howner

/-- **An object closes its own handle**, or has none. -/
theorem OwnerInv.close (hI : OwnerInv s) {object : SocketObject} {object' : Option SocketObject}
    (hobject : s.objects o = some object) (hok : (!object.closed || object.socket.isNone) = true)
    (hobject' : ∀ new, object' = some new → new.socket = object.socket ∧ new.closed = true) :
    OwnerInv ((SocketUtils.close s o object.socket).put o object') := by
  have ho := hI.objects o object hobject
  cases hsocket : object.socket with
  | none =>
    refine hI.replace (fun _ _ _ hown => hown) (fun new hnew h hh => ?_) (Nat.le_refl _) ho hI.owner hI.closes
    rw [(hobject' new hnew).1, hsocket] at hh
    cases hh
  | some h₀ =>
    have hopen : object.closed = false := by simpa [hsocket] using hok
    have hown : s.owner h₀ = some o := (hI.owns o object hobject h₀ hsocket).2 hopen
    refine hI.replace (fun o' other ho' hother => hother.update ?_ (Option.some_ne_none o').symm)
      (fun new hnew h hh => ?_) (Nat.le_refl _) ho (fun h o' howner => ?_) (fun c hc => ?_)
    · rw [hown]
      exact fun heq => ho' (Option.some.inj heq).symm
    · rw [(hobject' new hnew).1, hsocket] at hh
      cases hh
      have hclosed : (SocketUtils.close s o (some h₀)).owner h₀ = none := update_self _ _ _
      rw [hclosed, (hobject' new hnew).2]
      exact iff_of_false (Option.some_ne_none o).symm (by decide)
    · exact lt_of_owner_update hI.owner (fun o' heq => absurd heq.symm (Option.some_ne_none o')) howner
    · rcases List.mem_append.1 hc with hc | hc
      · exact hI.closes c hc
      · rw [List.mem_singleton.1 hc]
        exact hown

theorem startAccept_eq {service : Bool} {created : Option SOCKET} (h : s.step (.startAccept o service created) = some s') :
    ∃ socket closed, s.objects o = some ⟨.Listener, socket, closed⟩ ∧ (s' = s ∨
      ∃ s₁, SocketUtils.createSocket s o created = some s₁ ∧ s' = s₁.put o (some ⟨.Listener, created, false⟩)) := by
  simp only [Sockets.step] at h
  split at h
  · rename_i socket closed hobject
    refine ⟨socket, closed, hobject, ?_⟩
    split at h
    · cases h
      exact .inl rfl
    · obtain ⟨s₁, hcreate, rfl⟩ := Option.map_eq_some_iff.1 h
      exact .inr ⟨s₁, hcreate, rfl⟩
  · cases h

theorem closeSocket_eq (h : s.step (.closeSocket o) = some s') : ∃ socket closed,
    s.objects o = some ⟨.Listener, socket, closed⟩ ∧
    s' = (SocketUtils.close s o socket).put o (some ⟨.Listener, socket, true⟩) := by
  simp only [Sockets.step] at h
  split at h
  · rename_i socket closed hobject
    cases h
    exact ⟨socket, closed, hobject, rfl⟩
  · cases h

theorem createSocket_keeps {created : Option SOCKET} (h : SocketUtils.createSocket s o created = some s') :
    s'.next = s.next ∧ s'.closes = s.closes := by
  cases created with
  | none =>
    cases h
    exact ⟨rfl, rfl⟩
  | some h₀ =>
    obtain ⟨-, hs'⟩ := Option.ite_none_right_eq_some.1 h
    cases hs'
    exact ⟨rfl, rfl⟩

/-- **The step lemma.** -/
theorem OwnerInv.step (hI : OwnerInv s) (hstep : s.step a = some s') (hok : s.NotClosed a s') : OwnerInv s' := by
  cases a with
  | newSession created =>
    obtain ⟨s₁, hcreate, rfl⟩ := Option.map_eq_some_iff.1 hstep
    exact hI.createSocket .Session hcreate (Nat.le_succ _) (Nat.lt_succ_self _)
  | init created =>
    obtain ⟨s₁, hcreate, rfl⟩ := Option.map_eq_some_iff.1 hstep
    exact hI.createSocket .dummySocket hcreate (Nat.le_succ _) (Nat.lt_succ_self _)
  | newListener =>
    cases hstep
    have hnone : SocketUtils.createSocket s s.next none = some s := rfl
    exact hI.createSocket .Listener hnone (Nat.le_succ _) (Nat.lt_succ_self _)
  | startAccept o service created =>
    obtain ⟨socket, closed, hobject, rfl | ⟨s₁, hcreate, rfl⟩⟩ := startAccept_eq hstep
    · exact hI
    · have hnext : s₁.next = s.next := (createSocket_keeps hcreate).1
      exact hI.createSocket .Listener hcreate (Nat.le_of_eq hnext.symm) (by rw [hnext]; exact hI.objects o _ hobject)
  | closeSocket o =>
    obtain ⟨socket, closed, hobject, rfl⟩ := closeSocket_eq hstep
    have hnot : (s.objects o).all (fun object => !object.closed || object.socket.isNone) = true := hok
    rw [hobject] at hnot
    exact hI.close hobject hnot (fun new hnew => by cases hnew; exact ⟨rfl, rfl⟩)
  | delete o =>
    obtain ⟨object, hobject, rfl⟩ := Option.map_eq_some_iff.1 hstep
    have hnot : (s.objects o).all (fun object => !object.closed || object.socket.isNone) = true := hok
    rw [hobject] at hnot
    exact hI.close hobject hnot (fun new hnew => by cases hnew)

/-- **A handle is closed a second time**, and is not the caller's any more. -/
theorem OwnerInv.fault (hI : OwnerInv s) (hstep : s.step a = some s') (hnot : ¬ s.NotClosed a s') : ¬ s'.ClosesOwn := by
  have hlost : ∀ o object object', s.objects o = some object →
      ¬ (s.objects o).all (fun object => !object.closed || object.socket.isNone) = true →
      ¬ ((SocketUtils.close s o object.socket).put o object').ClosesOwn := by
    intro o object object' hobject hnot hown
    rw [hobject] at hnot
    cases hsocket : object.socket with
    | none => simp [hsocket] at hnot
    | some h =>
      have hclosed : object.closed = true := by simpa [hsocket] using hnot
      rw [hsocket] at hown
      have howner := hown ⟨o, h, s.owner h⟩ (List.mem_append.2 (.inr (List.mem_singleton_self _)))
      have hopen := (hI.owns o object hobject h hsocket).1 howner
      rw [hclosed] at hopen
      cases hopen
  cases a with
  | closeSocket o =>
    obtain ⟨socket, closed, hobject, rfl⟩ := closeSocket_eq hstep
    exact hlost o _ _ hobject hnot
  | delete o =>
    obtain ⟨object, hobject, rfl⟩ := Option.map_eq_some_iff.1 hstep
    exact hlost o _ _ hobject hnot
  | newSession _ | init _ | newListener | startAccept _ _ _ => exact absurd rfl hnot

theorem closesOwn_close {socket : Option SOCKET} (hown : (SocketUtils.close s o socket).ClosesOwn) : s.ClosesOwn := by
  cases socket with
  | none => exact hown
  | some h => exact fun c hc => hown c (List.mem_append.2 (.inl hc))

theorem closesOwn_of_step (hstep : s.step a = some s') (hown : s'.ClosesOwn) : s.ClosesOwn := by
  cases a with
  | newSession created =>
    obtain ⟨s₁, hcreate, rfl⟩ := Option.map_eq_some_iff.1 hstep
    exact fun c hc => hown c ((createSocket_keeps hcreate).2.symm ▸ hc)
  | init created =>
    obtain ⟨s₁, hcreate, rfl⟩ := Option.map_eq_some_iff.1 hstep
    exact fun c hc => hown c ((createSocket_keeps hcreate).2.symm ▸ hc)
  | newListener =>
    cases hstep
    exact hown
  | startAccept o service created =>
    obtain ⟨socket, closed, -, rfl | ⟨s₁, hcreate, rfl⟩⟩ := startAccept_eq hstep
    · exact hown
    · exact fun c hc => hown c ((createSocket_keeps hcreate).2.symm ▸ hc)
  | closeSocket o =>
    obtain ⟨socket, closed, -, rfl⟩ := closeSocket_eq hstep
    exact closesOwn_close hown
  | delete o =>
    obtain ⟨object, -, rfl⟩ := Option.map_eq_some_iff.1 hstep
    exact closesOwn_close hown

/-- **When only own handles are closed**: if and only if no listener closes, by `CloseSocket` or its destructor, a handle
that it has closed before. -/
theorem closes_own_iff {acts : List SocketAct} (h : run step Any new acts = some s) :
    s.ClosesOwn ↔ run step NotClosed new acts = some s := by
  rw [← run_allowed_iff (fun _ _ _ hI hstep hok => OwnerInv.step hI hstep hok)
    (fun _ _ _ hI hstep hnot => OwnerInv.fault hI hstep hnot)
    (fun _ _ _ hfault hstep hown => hfault (closesOwn_of_step hstep hown)) (fun _ hI hno => hno hI.closes) acts
    ownerInv_new h, not_not]

/-- A listener is closed and started again, and gets the handle that it had. -/
def restarted : List SocketAct :=
  [.init 4, .delete 0, .newListener, .startAccept 1 true (some 4), .newSession (some 5), .closeSocket 1,
    .startAccept 1 true (some 4), .delete 1, .delete 2]

theorem closes_own_iff_restarted : ∃ s, run step Any new restarted = some s ∧ s.ClosesOwn :=
  ⟨_, rfl, (@closes_own_iff _ restarted rfl).2 rfl⟩

/-- A listener is closed, the next session gets its handle, and the listener is deleted. -/
def deletedLater : List SocketAct :=
  [.newListener, .startAccept 0 true (some 4), .closeSocket 0, .newSession (some 4), .delete 0]

/-- **The destructor closes the session's socket.** -/
theorem session_socket_closed : ∃ s, run step Any new deletedLater = some s ∧ ⟨0, 4, some 1⟩ ∈ s.closes ∧
    ¬ s.ClosesOwn := by
  refine ⟨_, rfl, by decide, fun hown => ?_⟩
  have howner := hown ⟨0, 4, some 1⟩ (by decide)
  cases howner

end Sockets

end Geon
