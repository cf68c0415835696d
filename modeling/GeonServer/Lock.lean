import GeonServer.Tally
import GeonServer.Lts
/-!
# Lock — the reader/writer spin lock

`Lock` of ServerCore/Lock.cpp keeps the owner's thread id in the upper half of `_lockFlag`, the number of read holds
in the lower half and the owner's nesting depth in `_writeCount`.  A thread runs `WriteLock`, `WriteUnlock`,
`ReadLock` and `ReadUnlock` one atomic operation at a time (`lockNext`), and its guards are released innermost first,
as scopes are.
-/
namespace Geon

open Lts

/-! ## The words of the lock -/

def ACQUIRE_TIMEOUT_TICK : Nat := 10000
def MAX_SPIN_COUNT : Nat := 5000
def WRITE_THREAD_MASK : BitVec 32 := 0xFFFF0000#32
def READ_COUNT_MASK : BitVec 32 := 0x0000FFFF#32
def EMPTY_FLAG : BitVec 32 := 0x00000000#32

structure Lock where
  lockFlag : BitVec 32
  writeCount : BitVec 16
  deriving DecidableEq, Repr

/-- The id in the upper half of `_lockFlag`, as `WriteLock` and `ReadLock` read it. -/
def Lock.lockThreadId (l : Lock) : BitVec 32 := (l.lockFlag &&& WRITE_THREAD_MASK) >>> 16

/-- The upper half of `_lockFlag`. -/
def Lock.high (l : Lock) : Nat := l.lockFlag.toNat / 65536

/-- The lower half of `_lockFlag`. -/
def Lock.low (l : Lock) : Nat := l.lockFlag.toNat % 65536

theorem toNat_lockThreadId (l : Lock) : l.lockThreadId.toNat = l.high := by
  have hlt : l.lockFlag.toNat / 2 ^ 16 < 2 ^ 16 := by have := l.lockFlag.isLt; omega
  have hm : (4294901760 : Nat) >>> 16 = 2 ^ 16 - 1 := rfl
  simp only [Lock.lockThreadId, WRITE_THREAD_MASK, BitVec.toNat_ushiftRight, BitVec.toNat_and, BitVec.toNat_ofNat]
  rw [show (4294901760 % 2 ^ 32 : Nat) = 4294901760 from rfl, Nat.shiftRight_and_distrib, hm,
    Nat.and_two_pow_sub_one_eq_mod, Nat.shiftRight_eq_div_pow, Nat.mod_eq_of_lt hlt]
  rfl

theorem toNat_readCount (l : Lock) : (l.lockFlag &&& READ_COUNT_MASK).toNat = l.low := by
  simp only [READ_COUNT_MASK, BitVec.toNat_and, BitVec.toNat_ofNat]
  rw [show (65535 % 2 ^ 32 : Nat) = 2 ^ 16 - 1 from rfl, Nat.and_two_pow_sub_one_eq_mod]
  rfl

theorem toNat_desired (myId : BitVec 32) (h : myId.toNat ≤ 65535) :
    ((myId <<< 16) &&& WRITE_THREAD_MASK).toNat = myId.toNat * 65536 := by
  have hmask : (myId <<< 16) &&& WRITE_THREAD_MASK = myId <<< 16 := by
    apply BitVec.eq_of_getLsbD_eq
    intro i hi
    simp only [BitVec.getLsbD_and, BitVec.getLsbD_shiftLeft]
    by_cases h16 : i < 16
    · simp [h16]
    · have hw : ∀ i < 32, ¬ i < 16 → WRITE_THREAD_MASK.getLsbD i = true := by decide
      rw [hw i hi h16, Bool.and_true]
  rw [hmask, BitVec.toNat_shiftLeft, Nat.shiftLeft_eq]
  omega

theorem lock_eq_empty (l : Lock) : l.lockFlag = EMPTY_FLAG ↔ l.high = 0 ∧ l.low = 0 := by
  constructor
  · intro h
    simp [Lock.high, Lock.low, h, EMPTY_FLAG]
  · rintro ⟨h1, h2⟩
    apply BitVec.eq_of_toNat_eq
    simp only [Lock.high, Lock.low, EMPTY_FLAG] at *
    simp only [BitVec.toNat_ofNat]
    omega

/-! ## The code -/

inductive Guard
  | write
  | read
  deriving DecidableEq, Repr

/-- Where a thread is in the code of `Lock`. -/
inductive LockPc
  | idle
  /-- `WriteLock` is about to read the owner. -/
  | writeLoad
  /-- It is the owner already: about to do `_writeCount++`. -/
  | writeReenter
  /-- About to compare-and-exchange, for the `spinCount`-th time of this round. -/
  | writeSpin (spinCount : Nat)
  /-- A round has failed: about to look at the clock. -/
  | writeClock
  /-- The flag is set: about to do `_writeCount++`. -/
  | writeEnter
  /-- `WriteUnlock` is about to read the read count. -/
  | unlockLoad
  /-- About to do `--_writeCount`. -/
  | unlockCount
  /-- The count is 0: about to store `EMPTY_FLAG`. -/
  | unlockStore
  /-- `ReadLock` is about to read the owner. -/
  | readLoad
  /-- It is the owner: about to do `fetch_add`. -/
  | readReenter
  /-- About to read the expected value. -/
  | readSpin (spinCount : Nat)
  /-- About to compare-and-exchange. -/
  | readTry (spinCount : Nat) (expected : BitVec 32)
  /-- A round has failed: about to look at the clock. -/
  | readClock
  /-- `ReadUnlock` is about to do `fetch_sub`. -/
  | readUnlock
  deriving DecidableEq, Repr

def Guard.acquirePc : Guard → LockPc
  | .write => .writeLoad
  | .read => .readLoad

def Guard.releasePc : Guard → LockPc
  | .write => .unlockLoad
  | .read => .readUnlock

/-- A thread: where it is, and the guards it has, innermost first. -/
structure LockThread where
  pc : LockPc
  guards : List Guard
  deriving DecidableEq, Repr

/-- The next atomic operation of thread `LThreadId` in the code of `Lock`: the lock and the thread after it, or the
cause of the `CRASH` it runs into.  `elapsed` is what `GetTickCount64() - beginTick` gives where it is read. -/
def lockNext (LThreadId : BitVec 32) (elapsed : Nat) (l : Lock) (th : LockThread) :
    Option (Except String (Lock × LockThread)) :=
  match th.pc with
  | .idle => none
  | .writeLoad =>
    some (.ok (l, { th with pc := if LThreadId = l.lockThreadId then .writeReenter else .writeSpin 0 }))
  | .writeReenter =>
    some (.ok ({ l with writeCount := l.writeCount + 1 }, ⟨.idle, .write :: th.guards⟩))
  | .writeSpin spinCount =>
    let desired := (LThreadId <<< 16) &&& WRITE_THREAD_MASK
    if l.lockFlag = EMPTY_FLAG then some (.ok ({ l with lockFlag := desired }, { th with pc := .writeEnter }))
    else if spinCount + 1 < MAX_SPIN_COUNT then some (.ok (l, { th with pc := .writeSpin (spinCount + 1) }))
    else some (.ok (l, { th with pc := .writeClock }))
  | .writeClock =>
    if elapsed ≥ ACQUIRE_TIMEOUT_TICK then some (.error "LOCK_TIMEOUT")
    else some (.ok (l, { th with pc := .writeSpin 0 }))
  | .writeEnter =>
    some (.ok ({ l with writeCount := l.writeCount + 1 }, ⟨.idle, .write :: th.guards⟩))
  | .unlockLoad =>
    if l.lockFlag &&& READ_COUNT_MASK ≠ 0 then some (.error "INVALD_UNLOCK_ORDER")
    else some (.ok (l, { th with pc := .unlockCount }))
  | .unlockCount =>
    let lockCount := l.writeCount - 1
    if lockCount = 0 then some (.ok ({ l with writeCount := lockCount }, { th with pc := .unlockStore }))
    else some (.ok ({ l with writeCount := lockCount }, ⟨.idle, th.guards.tail⟩))
  | .unlockStore => some (.ok ({ l with lockFlag := EMPTY_FLAG }, ⟨.idle, th.guards.tail⟩))
  | .readLoad =>
    some (.ok (l, { th with pc := if LThreadId = l.lockThreadId then .readReenter else .readSpin 0 }))
  | .readReenter => some (.ok ({ l with lockFlag := l.lockFlag + 1 }, ⟨.idle, .read :: th.guards⟩))
  | .readSpin spinCount =>
    some (.ok (l, { th with pc := .readTry spinCount (l.lockFlag &&& READ_COUNT_MASK) }))
  | .readTry spinCount expected =>
    if l.lockFlag = expected then
      some (.ok ({ l with lockFlag := expected + 1 }, ⟨.idle, .read :: th.guards⟩))
    else if spinCount + 1 < MAX_SPIN_COUNT then some (.ok (l, { th with pc := .readSpin (spinCount + 1) }))
    else some (.ok (l, { th with pc := .readClock }))
  | .readClock =>
    if elapsed ≥ ACQUIRE_TIMEOUT_TICK then some (.error "LOCK_TIMEOUT")
    else some (.ok (l, { th with pc := .readSpin 0 }))
  | .readUnlock =>
    if l.lockFlag &&& READ_COUNT_MASK = 0 then some (.error "MUTIPLE_UNLOCK")
    else some (.ok ({ l with lockFlag := l.lockFlag - 1 }, ⟨.idle, th.guards.tail⟩))

/-- One lock, the threads that use it, and the cause of the crash that ended the process, if one did. -/
structure LockState (Tid : Type*) where
  lock : Lock
  threads : Tid → LockThread
  crashed : Option String

inductive LockAct (Tid : Type*)
  /-- A thread constructs a guard: it calls `WriteLock` or `ReadLock`. -/
  | acquire (t : Tid) (g : Guard)
  /-- A thread's innermost scope ends: it calls `WriteUnlock` or `ReadUnlock`. -/
  | release (t : Tid)
  /-- A thread inside one of the four functions does its next atomic operation. -/
  | next (t : Tid) (elapsed : Nat)

variable {Tid : Type*} [DecidableEq Tid]

/-- A thread's step has changed the lock and the thread. -/
def LockState.set (s : LockState Tid) (t : Tid) (l : Lock) (th : LockThread) : LockState Tid :=
  { s with lock := l, threads := Function.update s.threads t th }

@[simp] theorem LockState.set_lock (s : LockState Tid) (t : Tid) (l : Lock) (th : LockThread) :
    (s.set t l th).lock = l := rfl

@[simp] theorem LockState.set_threads (s : LockState Tid) (t : Tid) (l : Lock) (th : LockThread) :
    (s.set t l th).threads = Function.update s.threads t th := rfl

def lockStep (LThreadId : Tid → BitVec 32) (s : LockState Tid) : LockAct Tid → Option (LockState Tid)
  | .acquire t g =>
    if s.crashed = none ∧ (s.threads t).pc = .idle then
      some (s.set t s.lock ⟨g.acquirePc, (s.threads t).guards⟩)
    else none
  | .release t =>
    if s.crashed = none ∧ (s.threads t).pc = .idle then
      match (s.threads t).guards with
      | [] => none
      | g :: gs => some (s.set t s.lock ⟨g.releasePc, g :: gs⟩)
    else none
  | .next t elapsed =>
    if s.crashed = none then
      match lockNext (LThreadId t) elapsed s.lock (s.threads t) with
      | none => none
      | some (.error cause) => some { s with crashed := some cause }
      | some (.ok (l, th)) => some (s.set t l th)
    else none

def lockState₀ : LockState Tid := ⟨⟨EMPTY_FLAG, 0⟩, fun _ => ⟨.idle, []⟩, none⟩

/-! ## What a thread holds -/

/-- The read holds of a thread. -/
def LockThread.reads (th : LockThread) : Nat := th.guards.count .read

/-- The nested write holds of a thread. -/
def LockThread.depth (th : LockThread) : Nat := th.guards.count .write

/-- A thread holds the lock for writing: from the exchange that sets the flag to the store that clears it. -/
def LockThread.owns (th : LockThread) : Prop := 0 < th.depth ∨ th.pc = .writeEnter

instance (th : LockThread) : Decidable th.owns := inferInstanceAs (Decidable (_ ∨ _))

/-- Fewer than 65536 read holds in all and fewer than 65536 nested write holds of any thread. -/
def Bounded [Fintype Tid] (s : LockState Tid) : Prop :=
  tally LockThread.reads s.threads < 65536 ∧ ∀ t, (s.threads t).depth < 65536

end Geon
