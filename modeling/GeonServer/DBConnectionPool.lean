import GeonServer.DBConnection
/-!
# DBConnectionPool — the handles of the database

`DBConnectionPool` and the `Connect` and `Clear` of `DBConnection`.  `Connect` allocates an environment handle, under it
a connection handle for each connection, and under each of these a statement handle, and returns `false` at the first
failure with what it has.  `Clear` frees the environment handle and deletes the connections, which free nothing: they have
no destructor, and their own `Clear` is called nowhere.  So the handles are freed as they should be only in runs without
any connection handle (`disciplined_iff`).

A handle is the number of its allocation.  `HandleTable` records the calls of `SQLAllocHandle` that have allocated one,
with the handle they were under, and those of `SQLFreeHandle`.
-/
namespace Geon

open DBConnection (SQLRETURN SQL_SUCCESS SQL_SUCCESS_WITH_INFO SQL_ERROR Succeeded handleError)

inductive HandleCall
  | alloc (h : Nat) (parent : Option Nat)
  | free (h : Nat)
  deriving DecidableEq, Repr

structure HandleTable where
  next : Nat
  calls : List HandleCall
  deriving DecidableEq, Repr

namespace HandleTable

/-- `SQLAllocHandle` and what is then in `out`: `SQL_SUCCESS_WITH_INFO` comes with a handle, `SQL_ERROR` with a null
handle, and the other codes leave it alone. -/
def alloc (t : HandleTable) (parent : Option Nat) (ret : SQLRETURN) (out : Option Nat) :
    HandleTable × Option Nat :=
  if Succeeded ret then (⟨t.next + 1, t.calls ++ [.alloc t.next parent]⟩, some t.next)
  else if ret = SQL_ERROR then (t, none)
  else (t, out)

/-- `SQLFreeHandle`, for a handle that is not null. -/
def free (t : HandleTable) : Option Nat → HandleTable
  | none => t
  | some h => { t with calls := t.calls ++ [.free h] }

end HandleTable

/-! ## The code -/

/-- The two handles; `none` is `SQL_NULL_HANDLE`. -/
structure DBConnection where
  connection : Option Nat
  statement : Option Nat
  deriving DecidableEq, Repr

/-- What the driver answers to a `DBConnection::Connect`. -/
structure ConnectAnswers where
  allocConnection : SQLRETURN
  driverConnect : SQLRETURN
  allocStatement : SQLRETURN
  getDiagRec : Int → SQLRETURN × Option String

/-- `DBConnection::Connect`, `none` when it does not come back. -/
def DBConnection.connect (fuel : Nat) (henv : Option Nat) (answers : ConnectAnswers) (t : HandleTable) :
    Option (HandleTable × DBConnection × Bool) :=
  let c := t.alloc henv answers.allocConnection none
  if answers.allocConnection ≠ SQL_SUCCESS then some (c.1, ⟨c.2, none⟩, false)
  else
    let s := c.1.alloc c.2 answers.allocStatement none
    if answers.allocStatement ≠ SQL_SUCCESS then
      (handleError answers.getDiagRec fuel answers.driverConnect).map (fun _ => (s.1, ⟨c.2, s.2⟩, false))
    else some (s.1, ⟨c.2, s.2⟩, decide (Succeeded answers.driverConnect))

/-- `DBConnection::Clear`. -/
def DBConnection.clear (c : DBConnection) (t : HandleTable) : HandleTable × DBConnection :=
  ((t.free c.connection).free c.statement, ⟨none, none⟩)

/-- `popped` are the connections that have been handed out. -/
structure DBConnectionPool where
  environment : Option Nat
  connections : List DBConnection
  popped : List DBConnection
  handles : HandleTable
  deriving DecidableEq, Repr

/-- What the driver answers to a `DBConnectionPool::Connect`. -/
structure PoolAnswers where
  allocEnvironment : SQLRETURN
  setEnvAttr : SQLRETURN
  connect : Nat → ConnectAnswers

/-- A call of the pool; `push i` gives back the `i`th of the connections that are out. -/
inductive PoolOp
  | connect (connectionCount : Int) (answers : PoolAnswers)
  | pop
  | push (i : Nat)
  | clear

namespace DBConnectionPool

def new : DBConnectionPool := ⟨none, [], [], ⟨0, []⟩⟩

/-- The loop of `Connect`, from connection `i` on and with this many to go. -/
def connectLoop (fuel : Nat) (henv : Option Nat) (answers : Nat → ConnectAnswers) :
    Nat → Nat → HandleTable → List DBConnection → Option (HandleTable × List DBConnection × Bool)
  | 0, _, t, connections => some (t, connections, true)
  | n + 1, i, t, connections => (DBConnection.connect fuel henv (answers i) t).bind (fun r =>
      if r.2.2 = false then some (r.1, connections, false)
      else connectLoop fuel henv answers n (i + 1) r.1 (connections ++ [r.2.1]))

/-- `Connect`; every early return keeps the environment. -/
def connect (fuel : Nat) (connectionCount : Int) (answers : PoolAnswers) (s : DBConnectionPool) :
    Option (DBConnectionPool × Bool) :=
  let e := s.handles.alloc none answers.allocEnvironment s.environment
  if answers.allocEnvironment ≠ SQL_SUCCESS then some ({ s with environment := e.2, handles := e.1 }, false)
  else if answers.setEnvAttr ≠ SQL_SUCCESS then some ({ s with environment := e.2, handles := e.1 }, false)
  else (connectLoop fuel e.2 answers.connect connectionCount.toNat 0 e.1 s.connections).map (fun r =>
    ({ s with environment := e.2, connections := r.2.1, handles := r.1 }, r.2.2))

/-- `Clear`: deleting a `DBConnection` frees no handle. -/
def clear (s : DBConnectionPool) : DBConnectionPool :=
  { s with environment := none, connections := [], handles := s.handles.free s.environment }

/-- `Pop` of an empty pool is a null pointer, which is nothing to give back. -/
def pop (s : DBConnectionPool) : DBConnectionPool :=
  match s.connections.getLast? with
  | none => s
  | some c => { s with connections := s.connections.dropLast, popped := s.popped ++ [c] }

def push (i : Nat) (s : DBConnectionPool) : DBConnectionPool :=
  { s with connections := s.connections ++ s.popped[i]?.toList, popped := s.popped.eraseIdx i }

/-- One call, with what `Connect` has returned. -/
def step (fuel : Nat) (s : DBConnectionPool) : PoolOp → Option (DBConnectionPool × Bool)
  | .connect connectionCount answers => s.connect fuel connectionCount answers
  | .pop => some (s.pop, true)
  | .push i => some (s.push i, true)
  | .clear => some (s.clear, true)

end DBConnectionPool

/-! ## The discipline -/

def Allocated (calls : List HandleCall) (h : Nat) : Prop := ∃ parent, .alloc h parent ∈ calls

/-- No handle is left allocated. -/
def AllFreed (calls : List HandleCall) : Prop := ∀ h, Allocated calls h → .free h ∈ calls

/-- Each handle is freed once, and none before those that were allocated under it. -/
structure FreedInOrder (calls : List HandleCall) : Prop where
  once : ∀ h, Allocated calls h → calls.count (.free h) = 1
  children : ∀ before after h, calls = before ++ .free h :: after →
    ∀ child, .alloc child (some h) ∈ before → .free child ∈ before

namespace DBConnectionPool

/-- What has to be so after a call: a `Connect` that returns `false` leaves nothing, and so does a `Clear`. -/
def LeavesNothing (ok : Bool) (s : DBConnectionPool) : PoolOp → Prop
  | .connect _ _ => ok = false → AllFreed s.handles.calls ∧ s.connections = []
  | .clear => AllFreed s.handles.calls
  | .pop | .push _ => True

/-- The calls come back and leave what they should, and after the destructor every handle has been freed in order. -/
def Disciplined (fuel : Nat) : DBConnectionPool → List PoolOp → Prop
  | s, [] => FreedInOrder s.clear.handles.calls
  | s, op :: ops => ∃ s' ok, s.step fuel op = some (s', ok) ∧ LeavesNothing ok s' op ∧ Disciplined fuel s' ops

/-- `P` holds of every call as it is made, and `E` at the end. -/
def Along (fuel : Nat) (P : DBConnectionPool → PoolOp → Prop) (E : DBConnectionPool → Prop) :
    DBConnectionPool → List PoolOp → Prop
  | s, [] => E s
  | s, op :: ops => P s op ∧ ∀ s' ok, s.step fuel op = some (s', ok) → Along fuel P E s' ops

/-- `Push` is for a connection that is out, and none is out at a `Clear`. -/
def Allowed (s : DBConnectionPool) : PoolOp → Prop
  | .push i => i < s.popped.length
  | .clear => s.popped = []
  | .connect _ _ | .pop => True

/-- The calls of a program that gives back what it pops; the last `Clear` is that of the destructor. -/
def Valid (fuel : Nat) (s : DBConnectionPool) (ops : List PoolOp) : Prop :=
  Along fuel Allowed (fun s => s.popped = []) s ops

/-- The pool has no environment, and either the driver gives none or the call is for no connection at all. -/
def NoConnection (s : DBConnectionPool) : PoolOp → Prop
  | .connect connectionCount answers => s.environment = none ∧ (¬ Succeeded answers.allocEnvironment ∨
      (answers.allocEnvironment = SQL_SUCCESS ∧ answers.setEnvAttr = SQL_SUCCESS ∧ connectionCount ≤ 0))
  | .pop | .push _ | .clear => True

end DBConnectionPool

/-! ## What a `Connect` allocates -/

/-- The new calls all allocate, and handles that were not there. -/
def Grows (t t' : HandleTable) : Prop :=
  t.next ≤ t'.next ∧ ∃ new, t'.calls = t.calls ++ new ∧
    ∀ call ∈ new, ∃ h parent, call = .alloc h parent ∧ t.next ≤ h ∧ h < t'.next

theorem Grows.refl (t : HandleTable) : Grows t t :=
  ⟨Nat.le_refl _, [], (List.append_nil _).symm, fun _ h => absurd h List.not_mem_nil⟩

theorem Grows.trans {t t₁ t₂ : HandleTable} (h : Grows t t₁) (h' : Grows t₁ t₂) : Grows t t₂ := by
  obtain ⟨hnext, new, hcalls, hnew⟩ := h
  obtain ⟨hnext', new', hcalls', hnew'⟩ := h'
  refine ⟨Nat.le_trans hnext hnext', new ++ new', by rw [hcalls', hcalls, List.append_assoc], fun call hcall => ?_⟩
  rcases List.mem_append.1 hcall with hcall | hcall
  · obtain ⟨h, parent, rfl, hle, hlt⟩ := hnew call hcall
    exact ⟨h, parent, rfl, hle, by omega⟩
  · obtain ⟨h, parent, rfl, hle, hlt⟩ := hnew' call hcall
    exact ⟨h, parent, rfl, by omega, hlt⟩

theorem grows_alloc (t : HandleTable) (parent : Option Nat) (ret : SQLRETURN) (out : Option Nat) :
    Grows t (t.alloc parent ret out).1 := by
  unfold HandleTable.alloc
  split
  · refine ⟨Nat.le_succ _, [.alloc t.next parent], rfl, fun call hcall => ?_⟩
    exact ⟨t.next, parent, List.mem_singleton.1 hcall, Nat.le_refl _, Nat.lt_succ_self _⟩
  · split
    · exact .refl t
    · exact .refl t

variable {fuel : Nat} {henv : Option Nat} {t t' : HandleTable} {ok : Bool}

/-- **The connection handle comes first**, and the rest of a `Connect` only allocates more. -/
theorem grows_connect {answers : ConnectAnswers} {c : DBConnection}
    (h : DBConnection.connect fuel henv answers t = some (t', c, ok)) :
    Grows (t.alloc henv answers.allocConnection none).1 t' ∧ (¬ Succeeded answers.allocConnection → ok = false) := by
  unfold DBConnection.connect at h
  split at h
  · cases h
    exact ⟨.refl _, fun _ => rfl⟩
  · rename_i hret
    have hsucc : answers.allocConnection = SQL_SUCCESS := not_not.1 hret
    split at h
    · obtain ⟨lines, -, hr⟩ := Option.map_eq_some_iff.1 h
      cases hr
      exact ⟨grows_alloc _ _ _ _, fun hno => absurd (.inl hsucc) hno⟩
    · cases h
      exact ⟨grows_alloc _ _ _ _, fun hno => absurd (.inl hsucc) hno⟩

namespace DBConnectionPool

theorem grows_connectLoop {answers : Nat → ConnectAnswers} : ∀ (n i : Nat) {t t' : HandleTable}
    {connections connections' : List DBConnection},
    connectLoop fuel henv answers n i t connections = some (t', connections', ok) → Grows t t'
  | 0, _, t, t', _, _, h => by
    cases h
    exact .refl t
  | n + 1, i, t, t', connections, connections', h => by
    obtain ⟨⟨t₁, c, ok₁⟩, h₁, h⟩ := Option.bind_eq_some_iff.1 h
    have hgrows : Grows t t₁ := (grows_alloc _ _ _ _).trans (grows_connect h₁).1
    split at h
    · cases h
      exact hgrows
    · exact hgrows.trans (grows_connectLoop n (i + 1) h)

/-- The first connection of a loop has a handle, or the loop ends there with `false`. -/
theorem connectLoop_first {answers : Nat → ConnectAnswers} {n : Nat} {connections connections' : List DBConnection}
    (h : connectLoop fuel henv answers (n + 1) 0 t connections = some (t', connections', ok)) :
    ok = false ∨ Grows ⟨t.next + 1, t.calls ++ [.alloc t.next henv]⟩ t' := by
  obtain ⟨⟨t₁, c, ok₁⟩, h₁, h⟩ := Option.bind_eq_some_iff.1 h
  obtain ⟨hgrows, hfalse⟩ := grows_connect h₁
  by_cases hret : Succeeded (answers 0).allocConnection
  · rw [HandleTable.alloc, if_pos hret] at hgrows
    split at h
    · cases h
      exact .inl rfl
    · exact .inr (hgrows.trans (grows_connectLoop n 1 h))
  · rw [if_pos (hfalse hret)] at h
    cases h
    exact .inl rfl

variable {connectionCount : Int} {answers : PoolAnswers} {s s' : DBConnectionPool} {op : PoolOp} {ops : List PoolOp}
  {h : Nat}

/-- **What a `Connect` does to the table**: it allocates, and the environment is what the driver gave. -/
theorem connect_eq (h : s.connect fuel connectionCount answers = some (s', ok)) :
    Grows (s.handles.alloc none answers.allocEnvironment s.environment).1 s'.handles ∧
    s'.environment = (s.handles.alloc none answers.allocEnvironment s.environment).2 ∧
    (answers.allocEnvironment ≠ SQL_SUCCESS ∨ answers.setEnvAttr ≠ SQL_SUCCESS → ok = false) := by
  unfold connect at h
  split at h
  · cases h
    exact ⟨.refl _, rfl, fun _ => rfl⟩
  · rename_i henv
    split at h
    · cases h
      exact ⟨.refl _, rfl, fun _ => rfl⟩
    · rename_i hattr
      obtain ⟨⟨t, connections, ok'⟩, hloop, hr⟩ := Option.map_eq_some_iff.1 h
      cases hr
      exact ⟨grows_connectLoop _ _ hloop, rfl, fun hno => absurd hno (not_or.2 ⟨henv, hattr⟩)⟩

/-! ## A handle that is lost -/

/-- The handle is allocated, and has not been freed. -/
def Open (t : HandleTable) (h : Nat) : Prop := Allocated t.calls h ∧ .free h ∉ t.calls ∧ h < t.next

theorem Open.grows (hopen : Open t h) (hgrows : Grows t t') : Open t' h := by
  obtain ⟨⟨parent, hmem⟩, hfree, hlt⟩ := hopen
  obtain ⟨hnext, new, hcalls, hnew⟩ := hgrows
  refine ⟨⟨parent, ?_⟩, fun hin => ?_, by omega⟩
  · rw [hcalls]
    exact List.mem_append.2 (.inl hmem)
  · rw [hcalls] at hin
    rcases List.mem_append.1 hin with hin | hin
    · exact hfree hin
    · obtain ⟨h', parent', heq, -⟩ := hnew _ hin
      cases heq

theorem Open.free {h' : Nat} (hopen : Open t h) (hne : h' ≠ h) : Open (t.free (some h')) h := by
  obtain ⟨⟨parent, hmem⟩, hfree, hlt⟩ := hopen
  refine ⟨⟨parent, List.mem_append.2 (.inl hmem)⟩, fun hin => ?_, hlt⟩
  rcases List.mem_append.1 hin with hin | hin
  · exact hfree hin
  · cases List.mem_singleton.1 hin
    exact hne rfl

theorem open_alloc (parent : Option Nat) (hfreed : ∀ h, .free h ∈ t.calls → h < t.next) :
    Open ⟨t.next + 1, t.calls ++ [.alloc t.next parent]⟩ t.next := by
  refine ⟨⟨parent, List.mem_append.2 (.inr (List.mem_singleton_self _))⟩, fun hin => ?_, Nat.lt_succ_self _⟩
  rcases List.mem_append.1 hin with hin | hin
  · exact Nat.lt_irrefl _ (hfreed _ hin)
  · cases List.mem_singleton.1 hin

theorem not_allFreed (hopen : Open t h) : ¬ AllFreed t.calls := fun hall => hopen.2.1 (hall h hopen.1)

/-- Nobody can free the handle any more: the environment is all that the pool frees. -/
def Lost (h : Nat) (s : DBConnectionPool) : Prop := Open s.handles h ∧ s.environment ≠ some h

theorem Lost.clear (hlost : Lost h s) : Lost h s.clear := by
  refine ⟨?_, Option.some_ne_none h ∘ Eq.symm⟩
  show Open (s.handles.free s.environment) h
  cases henv : s.environment with
  | none => exact hlost.1
  | some h' => exact hlost.1.free (fun heq => hlost.2 (by rw [henv, heq]))

/-- **The step lemma.** -/
theorem Lost.step (hlost : Lost h s) (hstep : s.step fuel op = some (s', ok)) : Lost h s' := by
  cases op with
  | connect connectionCount answers =>
    obtain ⟨hgrows, henv, -⟩ := connect_eq hstep
    refine ⟨(hlost.1.grows (grows_alloc _ _ _ _)).grows hgrows, fun heq => ?_⟩
    rw [henv, HandleTable.alloc] at heq
    have hlt := hlost.1.2.2
    split at heq
    · cases heq
      exact Nat.lt_irrefl _ hlt
    · split at heq
      · cases heq
      · exact hlost.2 heq
  | pop =>
    cases hstep
    unfold pop
    split
    · exact hlost
    · exact hlost
  | push i =>
    cases hstep
    exact hlost
  | clear =>
    cases hstep
    exact hlost.clear

/-- **A handle that is lost is never freed**, whatever is called. -/
theorem Lost.not_disciplined : ∀ (ops : List PoolOp) {s : DBConnectionPool}, Lost h s → ¬ Disciplined fuel s ops
  | [], s, hlost, hd => by
    have honce := hd.once h hlost.clear.1.1
    exact hlost.clear.1.2.1 (List.count_pos_iff.1 (by omega))
  | op :: ops, s, hlost, hd => by
    obtain ⟨s', ok, hstep, -, hd⟩ := hd
    exact (hlost.step hstep).not_disciplined ops hd

/-! ## Runs without a connection handle -/

/-- No connection is in the pool or out of it, and every handle but the environment is that of an earlier environment, and
freed. -/
structure Clean (s : DBConnectionPool) : Prop where
  connections : s.connections = []
  popped : s.popped = []
  allocated : ∀ h parent, .alloc h parent ∈ s.handles.calls → parent = none ∧ h < s.handles.next
  freed : ∀ h, .free h ∈ s.handles.calls → h < s.handles.next
  once : ∀ h, Allocated s.handles.calls h → s.environment ≠ some h → s.handles.calls.count (.free h) = 1
  environment : ∀ h, s.environment = some h → Open s.handles h

theorem clean_new : Clean new where
  connections := rfl
  popped := rfl
  allocated _ _ h := absurd h List.not_mem_nil
  freed _ h := absurd h List.not_mem_nil
  once _ h _ := h.elim (fun _ h => absurd h List.not_mem_nil)
  environment h heq := absurd heq.symm (Option.some_ne_none h)

theorem Clean.allFreed (hC : Clean s) (henv : s.environment = none) : AllFreed s.handles.calls := by
  intro h hh
  have honce := hC.once h hh (by rw [henv]; exact (Option.some_ne_none h).symm)
  exact List.count_pos_iff.1 (by omega)

theorem Clean.freedInOrder (hC : Clean s) (henv : s.environment = none) : FreedInOrder s.handles.calls where
  once h hh := hC.once h hh (by rw [henv]; exact (Option.some_ne_none h).symm)
  children before after h hcalls child hchild := by
    have hin : HandleCall.alloc child (some h) ∈ s.handles.calls := by
      rw [hcalls]
      exact List.mem_append.2 (.inl hchild)
    exact absurd (hC.allocated child _ hin).1 (Option.some_ne_none h)

theorem Clean.clear (hC : Clean s) : Clean s.clear := by
  cases henv : s.environment with
  | none =>
    have hsame : s.clear = s := by
      have hconnections := hC.connections
      obtain ⟨environment, connections, popped, handles⟩ := s
      cases henv
      cases hconnections
      rfl
    rwa [hsame]
  | some e =>
    obtain ⟨hmem, hfree, hlt⟩ := hC.environment e henv
    have hcalls : s.clear.handles.calls = s.handles.calls ++ [.free e] := by
      unfold DBConnectionPool.clear
      rw [henv]
      rfl
    have hnext : s.clear.handles.next = s.handles.next := by
      unfold DBConnectionPool.clear
      rw [henv]
      rfl
    have hold : ∀ h parent, .alloc h parent ∈ s.clear.handles.calls → .alloc h parent ∈ s.handles.calls := by
      intro h parent hin
      rw [hcalls] at hin
      exact (List.mem_append.1 hin).resolve_right (fun hin => nomatch List.mem_singleton.1 hin)
    refine ⟨rfl, hC.popped, fun h parent hin => ?_, fun h hin => ?_, fun h hh _ => ?_,
      fun h heq => absurd heq.symm (Option.some_ne_none h)⟩
    · rw [hnext]
      exact hC.allocated h parent (hold h parent hin)
    · rw [hnext]
      rw [hcalls] at hin
      rcases List.mem_append.1 hin with hin | hin
      · exact hC.freed h hin
      · cases List.mem_singleton.1 hin
        exact hlt
    · obtain ⟨parent, hin⟩ := hh
      rw [hcalls, List.count_append]
      by_cases he : h = e
      · rw [he, List.count_eq_zero.2 hfree, Nat.zero_add, List.count_singleton_self]
      · rw [hC.once h ⟨parent, hold h parent hin⟩ (by rw [henv]; exact fun heq => he (Option.some.inj heq).symm),
          List.count_eq_zero.2 (fun hin => he (HandleCall.free.inj (List.mem_singleton.1 hin)))]

/-- The driver gives an environment, and there is no connection to make. -/
theorem Clean.allocEnvironment (hC : Clean s) (henv : s.environment = none) :
    Clean { s with environment := some s.handles.next,
                   handles := ⟨s.handles.next + 1, s.handles.calls ++ [.alloc s.handles.next none]⟩ } := by
  refine ⟨hC.connections, hC.popped, fun h parent hin => ?_, fun h hin => ?_, fun h hh hne => ?_, fun h heq => ?_⟩
  · rcases List.mem_append.1 hin with hin | hin
    · exact ⟨(hC.allocated h parent hin).1, Nat.lt_succ_of_lt (hC.allocated h parent hin).2⟩
    · cases List.mem_singleton.1 hin
      exact ⟨rfl, Nat.lt_succ_self _⟩
  · rcases List.mem_append.1 hin with hin | hin
    · exact Nat.lt_succ_of_lt (hC.freed h hin)
    · cases List.mem_singleton.1 hin
  · obtain ⟨parent, hin⟩ := hh
    have hnew : List.count (HandleCall.free h) [.alloc s.handles.next none] = 0 := List.count_eq_zero.2 (by simp)
    rw [List.count_append, hnew, Nat.add_zero]
    rcases List.mem_append.1 hin with hin | hin
    · exact hC.once h ⟨parent, hin⟩ (by rw [henv]; exact (Option.some_ne_none h).symm)
    · cases List.mem_singleton.1 hin
      exact absurd rfl hne
  · cases heq
    exact open_alloc none hC.freed

/-- **The step lemma**: a call with no connection to make comes back, and leaves the pool clean. -/
theorem Clean.step (hC : Clean s) (fuel : Nat) (hallowed : s.Allowed op) (hno : s.NoConnection op) :
    ∃ s' ok, s.step fuel op = some (s', ok) ∧ LeavesNothing ok s' op ∧ Clean s' := by
  cases op with
  | connect connectionCount answers =>
    obtain ⟨henv, hfails | ⟨hsucc, hattr, hcount⟩⟩ := hno
    · have halloc : s.handles.alloc none answers.allocEnvironment s.environment = (s.handles, none) := by
        rw [HandleTable.alloc, if_neg hfails, henv]
        split <;> rfl
      have hstep : s.step fuel (.connect connectionCount answers) = some (s, false) := by
        show s.connect fuel connectionCount answers = _
        unfold connect
        rw [halloc, if_pos (fun heq => hfails (.inl heq)), ← henv]
      exact ⟨s, false, hstep, fun _ => ⟨hC.allFreed henv, hC.connections⟩, hC⟩
    · have halloc : s.handles.alloc none answers.allocEnvironment s.environment =
          (⟨s.handles.next + 1, s.handles.calls ++ [.alloc s.handles.next none]⟩, some s.handles.next) := by
        rw [HandleTable.alloc, if_pos (.inl hsucc)]
      have hzero : connectionCount.toNat = 0 := by omega
      refine ⟨_, true, ?_, fun h => Bool.noConfusion h, hC.allocEnvironment henv⟩
      show s.connect fuel connectionCount answers = _
      unfold connect
      rw [halloc, if_neg (not_not.2 hsucc), if_neg (not_not.2 hattr), hzero]
      rfl
  | pop =>
    refine ⟨s, true, ?_, trivial, hC⟩
    show some (s.pop, true) = _
    unfold pop
    rw [hC.connections]
    rfl
  | push i =>
    have hlt : i < s.popped.length := hallowed
    rw [hC.popped] at hlt
    exact absurd hlt (Nat.not_lt_zero i)
  | clear => exact ⟨s.clear, true, rfl, hC.clear.allFreed rfl, hC.clear⟩

theorem Clean.disciplined : ∀ (ops : List PoolOp) {s : DBConnectionPool}, Clean s → Valid fuel s ops →
    Along fuel NoConnection (fun _ => True) s ops → Disciplined fuel s ops
  | [], _, hC, _, _ => hC.clear.freedInOrder rfl
  | op :: ops, s, hC, hvalid, hno => by
    obtain ⟨s', ok, hstep, hleaves, hC'⟩ := hC.step fuel hvalid.1 hno.1
    exact ⟨s', ok, hstep, hleaves, hC'.disciplined ops (hvalid.2 s' ok hstep) (hno.2 s' ok hstep)⟩

/-- **A `Connect` that is disciplined has no connection to make.** -/
theorem Clean.noConnection (hC : Clean s) (hstep : s.step fuel op = some (s', ok)) (hleaves : LeavesNothing ok s' op)
    (hd : Disciplined fuel s' ops) : s.NoConnection op := by
  cases op with
  | pop | push _ | clear => trivial
  | connect connectionCount answers =>
    obtain ⟨hgrows, henv', hfalse⟩ := connect_eq hstep
    have hold : ∀ e, s.environment = some e → Open s'.handles e := fun e henv =>
      ((hC.environment e henv).grows (grows_alloc _ _ _ _)).grows hgrows
    by_cases hsucc : Succeeded answers.allocEnvironment
    · rw [HandleTable.alloc, if_pos hsucc] at hgrows henv'
      replace henv' : s'.environment = some s.handles.next := henv'
      have hopen : Open s'.handles s.handles.next := (open_alloc none hC.freed).grows hgrows
      -- the environment that there was is lost
      have henv : s.environment = none := by
        cases henv : s.environment with
        | none => rfl
        | some e =>
          have hlost : Lost e s' := ⟨hold e henv, fun heq => by
            rw [henv'] at heq
            exact Nat.ne_of_gt (hC.environment e henv).2.2 (Option.some.inj heq)⟩
          exact absurd hd (hlost.not_disciplined ops)
      have hback : ok = true := by
        cases ok with
        | true => rfl
        | false => exact absurd (hleaves rfl).1 (not_allFreed hopen)
      obtain ⟨hret, hattr⟩ : answers.allocEnvironment = SQL_SUCCESS ∧ answers.setEnvAttr = SQL_SUCCESS := by
        by_contra hno
        rw [hfalse (not_and_or.1 hno)] at hback
        cases hback
      refine ⟨henv, .inr ⟨hret, hattr, ?_⟩⟩
      -- the first connection's handle is lost
      by_contra hcount
      obtain ⟨n, hn⟩ : ∃ n, connectionCount.toNat = n + 1 := ⟨connectionCount.toNat - 1, by omega⟩
      have hcall : s.connect fuel connectionCount answers = some (s', ok) := hstep
      unfold connect at hcall
      rw [HandleTable.alloc, if_pos hsucc, if_neg (not_not.2 hret), if_neg (not_not.2 hattr), hn] at hcall
      obtain ⟨⟨t, connections, ok'⟩, hloop, hr⟩ := Option.map_eq_some_iff.1 hcall
      have hhandles : t = s'.handles := congrArg (fun r => r.1.handles) hr
      have hok : ok' = ok := congrArg Prod.snd hr
      rw [hhandles, hok] at hloop
      have hfreed : ∀ h, HandleCall.free h ∈ s.handles.calls ++ [.alloc s.handles.next none] →
          h < s.handles.next + 1 := by
        intro h hin
        rcases List.mem_append.1 hin with hin | hin
        · exact Nat.lt_succ_of_lt (hC.freed h hin)
        · cases List.mem_singleton.1 hin
      rcases connectLoop_first hloop with hno | hmore
      · exact absurd (hno.symm.trans hback) Bool.false_ne_true
      · have hne : s'.environment ≠ some (s.handles.next + 1) := by
          rw [henv']
          exact fun heq => Nat.ne_of_lt (Nat.lt_succ_self _) (Option.some.inj heq)
        have hlost : Lost (s.handles.next + 1) s' := ⟨(open_alloc _ hfreed).grows hmore, hne⟩
        exact hlost.not_disciplined ops hd
    · have hback : ok = false := hfalse (.inl (fun heq => hsucc (.inl heq)))
      refine ⟨?_, .inl hsucc⟩
      cases henv : s.environment with
      | none => rfl
      | some e => exact absurd (hleaves hback).1 (not_allFreed (hold e henv))

theorem Clean.noConnections : ∀ (ops : List PoolOp) {s : DBConnectionPool}, Clean s → Valid fuel s ops →
    Disciplined fuel s ops → Along fuel NoConnection (fun _ => True) s ops
  | [], _, _, _, _ => trivial
  | op :: ops, s, hC, hvalid, hd => by
    obtain ⟨s₁, ok₁, hstep₁, hleaves, hd⟩ := hd
    have hno := hC.noConnection hstep₁ hleaves hd
    refine ⟨hno, fun s' ok hstep => ?_⟩
    rw [hstep₁, Option.some.injEq] at hstep
    cases hstep
    obtain ⟨s₂, ok₂, hstep₂, -, hC'⟩ := hC.step fuel hvalid.1 hno
    rw [hstep₁, Option.some.injEq] at hstep₂
    cases hstep₂
    exact hC'.noConnections ops (hvalid.2 _ _ hstep₁) hd

/-- **When the handles are freed as they should be**: if and only if no `Connect` has a connection to make. -/
theorem disciplined_iff (hvalid : Valid fuel new ops) :
    Disciplined fuel new ops ↔ Along fuel NoConnection (fun _ => True) new ops :=
  ⟨clean_new.noConnections ops hvalid, clean_new.disciplined ops hvalid⟩

/-- A driver that fails nowhere. -/
def allSucceed : PoolAnswers :=
  ⟨SQL_SUCCESS, SQL_SUCCESS, fun _ => ⟨SQL_SUCCESS, SQL_SUCCESS, SQL_SUCCESS, fun _ => (SQL_SUCCESS, none)⟩⟩

theorem disciplined_iff_none : Valid 0 new [.connect 0 allSucceed, .pop, .clear] ∧
    Disciplined 0 new [.connect 0 allSucceed, .pop, .clear] := by
  have hvalid : Valid 0 new [.connect 0 allSucceed, .pop, .clear] := by
    refine ⟨trivial, fun s₁ ok₁ h₁ => ?_⟩
    cases h₁
    refine ⟨trivial, fun s₂ ok₂ h₂ => ?_⟩
    cases h₂
    refine ⟨rfl, fun s₃ ok₃ h₃ => ?_⟩
    cases h₃
    rfl
  refine ⟨hvalid, (disciplined_iff hvalid).2 ⟨⟨rfl, .inr ⟨rfl, rfl, by decide⟩⟩, fun s₁ ok₁ h₁ => ?_⟩⟩
  cases h₁
  refine ⟨trivial, fun s₂ ok₂ h₂ => ?_⟩
  cases h₂
  exact ⟨trivial, fun _ _ _ => trivial⟩

/-- **One connection, and a driver that fails nowhere**: its handle and the statement's are never freed. -/
theorem one_connection_leaks : Valid 0 new [.connect 1 allSucceed] ∧ ¬ Disciplined 0 new [.connect 1 allSucceed] := by
  constructor
  · refine ⟨trivial, fun s₁ ok₁ h₁ => ?_⟩
    cases h₁
    rfl
  · rintro ⟨s₁, ok₁, h₁, -, hfreed⟩
    cases h₁
    exact absurd (hfreed.once 1 ⟨some 0, by decide⟩) (by decide)

end DBConnectionPool

/-- **The `Clear` of a connection frees in the wrong order**: the statement handle is freed behind the one it is under. -/
theorem DBConnection.clear_out_of_order {c : DBConnection} {t : HandleTable} {connection statement : Nat}
    (hc : c.connection = some connection) (hs : c.statement = some statement)
    (halloc : .alloc statement (some connection) ∈ t.calls) (hopen : .free statement ∉ t.calls) :
    ¬ FreedInOrder (c.clear t).1.calls := by
  intro hordered
  have hcalls : (c.clear t).1.calls = t.calls ++ .free connection :: [.free statement] := by
    unfold DBConnection.clear
    rw [hc, hs]
    simp [HandleTable.free]
  exact hopen (hordered.children _ _ _ hcalls statement halloc)

end Geon
