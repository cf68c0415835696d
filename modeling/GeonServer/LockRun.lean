import GeonServer.Lock
/-!
# LockRun — exclusion by the reader/writer lock

The two halves of `_lockFlag` against what the threads hold, in every interleaving.  The owner test of `WriteLock` and
`ReadLock` reads a word that another thread may change at once, but no other thread can make it this thread's id or
take this thread's id out of it, so its answer stays true until the thread itself acts (`LockInv.owner_test`).
-/
namespace Geon

open Lts Function

/-! ## The two halves under the code's operations -/

theorem Lock.high_fetchAdd (l : Lock) (h : l.low + 1 < 65536) :
    ({ l with lockFlag := l.lockFlag + 1 } : Lock).high = l.high := by
  have h1 : (1 : BitVec 32).toNat = 1 := rfl
  have := l.lockFlag.isLt
  simp only [Lock.high, Lock.low, BitVec.toNat_add, h1] at *
  omega

theorem Lock.low_fetchAdd (l : Lock) (h : l.low + 1 < 65536) :
    ({ l with lockFlag := l.lockFlag + 1 } : Lock).low = l.low + 1 := by
  have h1 : (1 : BitVec 32).toNat = 1 := rfl
  have := l.lockFlag.isLt
  simp only [Lock.low, BitVec.toNat_add, h1] at *
  omega

theorem Lock.high_fetchSub (l : Lock) (h : 0 < l.low) :
    ({ l with lockFlag := l.lockFlag - 1 } : Lock).high = l.high := by
  have h1 : (1 : BitVec 32).toNat = 1 := rfl
  have := l.lockFlag.isLt
  simp only [Lock.high, Lock.low, BitVec.toNat_sub, h1] at *
  omega

theorem Lock.low_fetchSub (l : Lock) (h : 0 < l.low) :
    ({ l with lockFlag := l.lockFlag - 1 } : Lock).low + 1 = l.low := by
  have h1 : (1 : BitVec 32).toNat = 1 := rfl
  have := l.lockFlag.isLt
  simp only [Lock.low, BitVec.toNat_sub, h1] at *
  omega

theorem Lock.high_store (c : BitVec 16) : (⟨EMPTY_FLAG, c⟩ : Lock).high = 0 := by
  simp [Lock.high, EMPTY_FLAG]

theorem Lock.low_store (c : BitVec 16) : (⟨EMPTY_FLAG, c⟩ : Lock).low = 0 := by
  simp [Lock.low, EMPTY_FLAG]

theorem Lock.high_desired (c : BitVec 16) (myId : BitVec 32) (h : myId.toNat ≤ 65535) :
    (⟨(myId <<< 16) &&& WRITE_THREAD_MASK, c⟩ : Lock).high = myId.toNat := by
  simp only [Lock.high, toNat_desired myId h]
  omega

theorem Lock.low_desired (c : BitVec 16) (myId : BitVec 32) (h : myId.toNat ≤ 65535) :
    (⟨(myId <<< 16) &&& WRITE_THREAD_MASK, c⟩ : Lock).low = 0 := by
  simp only [Lock.low, toNat_desired myId h]
  omega

/-! ## The invariant -/

/-- What a thread's place in the code says of its guards. -/
def LockThread.PcOk (th : LockThread) : Prop :=
  match th.pc with
  | .writeReenter => 0 < th.depth
  | .readReenter => 0 < th.depth
  | .writeEnter => th.depth = 0
  | .unlockLoad => th.guards.head? = some .write
  | .unlockCount => th.guards.head? = some .write ∧ th.reads = 0
  | .unlockStore => th.guards.head? = some .write ∧ th.reads = 0 ∧ th.depth = 1
  | .readTry _ expected => expected.toNat < 65536
  | .readUnlock => th.guards.head? = some .read
  | _ => True

/-- `_writeCount` is already down while the owner is about to clear the flag. -/
def LockThread.leaving (th : LockThread) : Nat := if th.pc = .unlockStore then 1 else 0

variable {Tid : Type*} [DecidableEq Tid] [Fintype Tid]

/-- **The invariant of the lock**: who owns it, who reads it, and what the words say of that. -/
structure LockInv (LThreadId : Tid → BitVec 32) (s : LockState Tid) : Prop where
  low : s.lock.low = tally LockThread.reads s.threads
  high : (∃ t, (s.threads t).owns ∧ s.lock.high = (LThreadId t).toNat) ∨
    (∀ t, ¬ (s.threads t).owns) ∧ s.lock.high = 0 ∧ s.lock.writeCount.toNat = 0
  excl : ∀ t u, (s.threads t).owns → u ≠ t → ¬ (s.threads u).owns ∧ (s.threads u).reads = 0
  count : ∀ t, (s.threads t).owns → s.lock.writeCount.toNat + (s.threads t).leaving = (s.threads t).depth
  pcOk : ∀ t, (s.threads t).PcOk

/-- The ids are those `ThreadManager::InitTLS` can give out without running over 16 bits. -/
structure Ids (LThreadId : Tid → BitVec 32) : Prop where
  inj : Injective LThreadId
  pos : ∀ t, 1 ≤ (LThreadId t).toNat
  le : ∀ t, (LThreadId t).toNat ≤ 65535

variable {LThreadId : Tid → BitVec 32} {s : LockState Tid}

omit [DecidableEq Tid] in
theorem lockInv₀ : LockInv LThreadId (lockState₀ : LockState Tid) where
  low := by
    simp only [lockState₀, Lock.low_store]
    exact (tally_const_zero _ _ rfl).symm
  high := .inr ⟨fun t => by simp [lockState₀, LockThread.owns, LockThread.depth], Lock.high_store 0, rfl⟩
  excl t u h := by simp [lockState₀, LockThread.owns, LockThread.depth] at h
  count t h := by simp [lockState₀, LockThread.owns, LockThread.depth] at h
  pcOk t := by simp [lockState₀, LockThread.PcOk]

/-- **The owner test is right**: the upper half is this thread's id exactly when it is the owner. -/
theorem LockInv.owner_test (hI : LockInv LThreadId s) (hid : Ids LThreadId) (t : Tid) :
    LThreadId t = s.lock.lockThreadId ↔ (s.threads t).owns := by
  have hpos := hid.pos t
  rw [← BitVec.toNat_inj, toNat_lockThreadId]
  constructor
  · intro h
    rcases hI.high with ⟨o, ho, hh⟩ | ⟨-, hh, -⟩
    · rw [hh, BitVec.toNat_inj] at h
      exact hid.inj h ▸ ho
    · omega
  · intro h
    rcases hI.high with ⟨o, ho, hh⟩ | ⟨hno, -⟩
    · by_cases hto : t = o
      · rw [hh, hto]
      · exact absurd h (hI.excl o t ho hto).1
    · exact absurd h (hno t)

/-- A thread that passes the owner test has a guard to nest in. -/
theorem LockInv.depth_pos (hI : LockInv LThreadId s) (hid : Ids LThreadId) {t : Tid}
    (howner : LThreadId t = s.lock.lockThreadId) (hpc : (s.threads t).pc ≠ .writeEnter) : 0 < (s.threads t).depth :=
  ((hI.owner_test hid t).1 howner).resolve_right hpc

theorem LockInv.high_of_owns (hI : LockInv LThreadId s) (hid : Ids LThreadId) {t : Tid} (h : (s.threads t).owns) :
    s.lock.high = (LThreadId t).toNat := by
  rw [← toNat_lockThreadId, ← (hI.owner_test hid t).2 h]

theorem LockInv.no_owner (hI : LockInv LThreadId s) (hid : Ids LThreadId) (h : s.lock.high = 0) (t : Tid) :
    ¬ (s.threads t).owns := fun ho => by
  have := hid.pos t
  rw [hI.high_of_owns hid ho] at h
  omega

/-- **One thread steps**: what the new lock and the thread's new place must satisfy for the invariant to survive.  The
other threads are only concerned by who owns the lock and by new read holds. -/
theorem LockInv.set (hI : LockInv LThreadId s) {t : Tid} {l : Lock} {th : LockThread}
    (hlow : l.low + (s.threads t).reads = s.lock.low + th.reads)
    (hhigh : (th.owns ∧ l.high = (LThreadId t).toNat) ∨
      ¬ th.owns ∧ (s.threads t).owns ∧ l.high = 0 ∧ l.writeCount.toNat = 0 ∨
      ¬ th.owns ∧ ¬ (s.threads t).owns ∧ l.high = s.lock.high ∧ l.writeCount = s.lock.writeCount)
    (hown : th.owns → (s.threads t).owns ∨ (∀ u, ¬ (s.threads u).owns) ∧ s.lock.low = 0)
    (hreads : th.reads ≤ (s.threads t).reads ∨ (s.threads t).owns ∨ ∀ u, ¬ (s.threads u).owns)
    (hcount : th.owns → l.writeCount.toNat + th.leaving = th.depth)
    (hpc : th.PcOk) : LockInv LThreadId (s.set t l th) := by
  have hother : ∀ u, u ≠ t → update s.threads t th u = s.threads u := fun u hu => update_of_ne hu _ _
  -- when the stepping thread comes out as the owner, the others hold nothing
  have hquiet : th.owns → ∀ u, u ≠ t → ¬ (s.threads u).owns ∧ (s.threads u).reads = 0 := by
    intro ho u hu
    rcases hown ho with h | ⟨hno, h0⟩
    · exact hI.excl t u h hu
    · have := le_tally LockThread.reads s.threads u
      rw [← hI.low, h0] at this
      exact ⟨hno u, by omega⟩
  constructor
  case low =>
    have := tally_update LockThread.reads s.threads t th
    have := hI.low
    simp only [LockState.set_lock, LockState.set_threads]
    omega
  case high =>
    simp only [LockState.set_lock, LockState.set_threads]
    rcases hhigh with ⟨ho, hh⟩ | ⟨hn, ho, h0, hw⟩ | ⟨hn, hn', hh, hw⟩
    · exact .inl ⟨t, by rwa [update_self], hh⟩
    · refine .inr ⟨?_, h0, hw⟩
      rw [forall_update_iff s.threads (p := fun _ th => ¬ th.owns)]
      exact ⟨hn, fun u hu => (hI.excl t u ho hu).1⟩
    · rw [hh, hw]
      rcases hI.high with ⟨o, ho, hoh⟩ | ⟨hno, h0⟩
      · have hot : o ≠ t := fun h => hn' (h ▸ ho)
        exact .inl ⟨o, by rwa [hother o hot], hoh⟩
      · refine .inr ⟨?_, h0⟩
        rw [forall_update_iff s.threads (p := fun _ th => ¬ th.owns)]
        exact ⟨hn, fun u _ => hno u⟩
  case excl =>
    simp only [LockState.set_threads]
    intro o u ho hu
    by_cases hot : o = t
    · subst hot
      rw [update_self] at ho
      rw [hother u hu]
      exact hquiet ho u hu
    · rw [hother o hot] at ho
      by_cases hut : u = t
      · subst hut
        rw [update_self]
        have hold := hI.excl o u ho hu
        refine ⟨fun hth => (hquiet hth o hot).1 ho, ?_⟩
        rcases hreads with h | h | h
        · omega
        · exact absurd h hold.1
        · exact absurd ho (h o)
      · rw [hother u hut]
        exact hI.excl o u ho hu
  case count =>
    simp only [LockState.set_lock, LockState.set_threads]
    intro o ho
    by_cases hot : o = t
    · subst hot
      rw [update_self] at ho ⊢
      exact hcount ho
    · rw [hother o hot] at ho ⊢
      rcases hhigh with ⟨hth, -⟩ | ⟨-, hold, -⟩ | ⟨-, -, -, hw⟩
      · exact absurd ho (hquiet hth o hot).1
      · exact absurd ho (hI.excl t o hold hot).1
      · rw [hw]; exact hI.count o ho
  case pcOk =>
    rw [LockState.set_threads, forall_update_iff s.threads (p := fun _ th => th.PcOk)]
    exact ⟨hpc, fun u _ => hI.pcOk u⟩

/-! ## What each step does -/

theorem LockThread.depth_pos_of_head {th : LockThread} (h : th.guards.head? = some .write) : 0 < th.depth := by
  obtain ⟨gs, hg⟩ := List.head?_eq_some_iff.1 h
  simp [LockThread.depth, hg]

/-- **A step inside the code**: the lock, the guards and the ownership stay as they are. -/
theorem LockInv.move (hI : LockInv LThreadId s) (hid : Ids LThreadId) {t : Tid} {pc : LockPc}
    (hown : (s.threads t).pc ≠ .writeEnter) (hnew : pc ≠ .writeEnter)
    (hleave : (s.threads t).pc ≠ .unlockStore) (hleave' : pc ≠ .unlockStore)
    (hpc : (⟨pc, (s.threads t).guards⟩ : LockThread).PcOk) :
    LockInv LThreadId (s.set t s.lock ⟨pc, (s.threads t).guards⟩) := by
  have hiff : (⟨pc, (s.threads t).guards⟩ : LockThread).owns ↔ (s.threads t).owns := by
    simp only [LockThread.owns, LockThread.depth, hown, hnew, or_false]
  refine hI.set rfl ?_ (fun h => .inl (hiff.1 h)) (.inl (Nat.le_refl _)) (fun h => ?_) hpc
  · by_cases ho : (s.threads t).owns
    · exact .inl ⟨hiff.2 ho, hI.high_of_owns hid ho⟩
    · exact .inr (.inr ⟨fun h => ho (hiff.1 h), ho, rfl, rfl⟩)
  · have := hI.count t (hiff.1 h)
    simp only [LockThread.leaving, if_neg hleave, if_neg hleave', LockThread.depth] at this ⊢
    exact this

/-- **The owner comes to hold one more guard**: `_writeCount++`, on the first acquisition and on a nested one. -/
theorem LockInv.enter (hI : LockInv LThreadId s) (hid : Ids LThreadId) {t : Tid} (ho : (s.threads t).owns)
    (hleave : (s.threads t).pc ≠ .unlockStore) (hb : (s.threads t).depth + 1 < 65536) :
    LockInv LThreadId (s.set t { s.lock with writeCount := s.lock.writeCount + 1 }
      ⟨.idle, .write :: (s.threads t).guards⟩) := by
  have h1 : (1 : BitVec 16).toNat = 1 := rfl
  have hd : (⟨.idle, .write :: (s.threads t).guards⟩ : LockThread).depth = (s.threads t).depth + 1 := by
    simp [LockThread.depth]
  have hr : (⟨.idle, .write :: (s.threads t).guards⟩ : LockThread).reads = (s.threads t).reads := by
    simp [LockThread.reads]
  have hc := hI.count t ho
  simp only [LockThread.leaving, if_neg hleave] at hc
  refine hI.set (by rw [hr]; rfl) (.inl ⟨.inl (by omega), hI.high_of_owns hid ho⟩) (fun _ => .inl ho)
    (.inl (by omega)) (fun _ => ?_) trivial
  simp only [LockThread.leaving, reduceCtorEq, if_false, hd, BitVec.toNat_add, h1]
  omega

/-- **A free lock is taken**: the exchange found `EMPTY_FLAG`. -/
theorem LockInv.take (hI : LockInv LThreadId s) (hid : Ids LThreadId) (t : Tid)
    (hempty : s.lock.lockFlag = EMPTY_FLAG) :
    LockInv LThreadId (s.set t { s.lock with lockFlag := (LThreadId t <<< 16) &&& WRITE_THREAD_MASK }
      ⟨.writeEnter, (s.threads t).guards⟩) := by
  obtain ⟨hhigh, hlow⟩ := (lock_eq_empty s.lock).1 hempty
  have hno := hI.no_owner hid hhigh
  have hd : (s.threads t).depth = 0 := by
    have := hno t
    simp only [LockThread.owns, not_or] at this
    omega
  have hw : s.lock.writeCount.toNat = 0 := by
    rcases hI.high with ⟨o, ho, -⟩ | ⟨-, -, h⟩
    · exact absurd ho (hno o)
    · exact h
  refine hI.set ?_ (.inl ⟨.inr rfl, Lock.high_desired _ _ (hid.le t)⟩) (fun _ => .inr ⟨hno, hlow⟩)
    (.inl (Nat.le_refl _)) (fun _ => ?_) hd
  · rw [Lock.low_desired _ _ (hid.le t), hlow]
    rfl
  · simp only [LockThread.leaving, reduceCtorEq, if_false, LockThread.depth] at hd ⊢
    omega

theorem LockInv.leave (hI : LockInv LThreadId s) (hid : Ids LThreadId) {t : Tid}
    (hleave : (s.threads t).pc ≠ .unlockStore) (hhead : (s.threads t).guards.head? = some .write)
    (hne : s.lock.writeCount - 1 ≠ 0) :
    LockInv LThreadId (s.set t { s.lock with writeCount := s.lock.writeCount - 1 }
      ⟨.idle, (s.threads t).guards.tail⟩) := by
  have h1 : (1 : BitVec 16).toNat = 1 := rfl
  have h0 : (0 : BitVec 16).toNat = 0 := rfl
  have ho : (s.threads t).owns := .inl (LockThread.depth_pos_of_head hhead)
  have hc := hI.count t ho
  have hlt := s.lock.writeCount.isLt
  obtain ⟨gs, hg⟩ := List.head?_eq_some_iff.1 hhead
  have hd : (s.threads t).depth = (⟨.idle, gs⟩ : LockThread).depth + 1 := by simp [LockThread.depth, hg]
  have hr : (s.threads t).reads = (⟨.idle, gs⟩ : LockThread).reads := by simp [LockThread.reads, hg]
  simp only [LockThread.leaving, if_neg hleave] at hc
  rw [Ne, ← BitVec.toNat_inj, BitVec.toNat_sub, h1, h0] at hne
  rw [hg, List.tail_cons]
  refine hI.set (by rw [hr]; rfl) (.inl ⟨.inl (by omega), hI.high_of_owns hid ho⟩) (fun _ => .inl ho)
    (.inl (by omega)) (fun _ => ?_) trivial
  simp only [LockThread.leaving, reduceCtorEq, if_false, BitVec.toNat_sub, h1]
  omega

/-- **The owner is about to clear the flag**: `--_writeCount` has reached 0. -/
theorem LockInv.lastCount (hI : LockInv LThreadId s) (hid : Ids LThreadId) {t : Tid}
    (hleave : (s.threads t).pc ≠ .unlockStore) (hhead : (s.threads t).guards.head? = some .write)
    (hreads : (s.threads t).reads = 0) (hz : s.lock.writeCount - 1 = 0) :
    LockInv LThreadId (s.set t { s.lock with writeCount := s.lock.writeCount - 1 }
      ⟨.unlockStore, (s.threads t).guards⟩) := by
  have h1 : (1 : BitVec 16).toNat = 1 := rfl
  have h0 : (0 : BitVec 16).toNat = 0 := rfl
  have hpos := LockThread.depth_pos_of_head hhead
  have ho : (s.threads t).owns := .inl hpos
  have hc := hI.count t ho
  have hlt := s.lock.writeCount.isLt
  simp only [LockThread.leaving, if_neg hleave] at hc
  rw [← BitVec.toNat_inj, BitVec.toNat_sub, h1, h0] at hz
  have hd : (⟨.unlockStore, (s.threads t).guards⟩ : LockThread).depth = 1 := by
    simp only [LockThread.depth] at hc ⊢
    omega
  refine hI.set rfl (.inl ⟨.inl (by omega), hI.high_of_owns hid ho⟩) (fun _ => .inl ho)
    (.inl (Nat.le_refl _)) (fun _ => ?_) ⟨hhead, hreads, hd⟩
  simp only [LockThread.leaving, if_true, BitVec.toNat_sub, h1]
  omega

theorem LockInv.clear (hI : LockInv LThreadId s) {t : Tid} (hpc : (s.threads t).pc = .unlockStore)
    (hhead : (s.threads t).guards.head? = some .write) (hreads : (s.threads t).reads = 0)
    (hdepth : (s.threads t).depth = 1) :
    LockInv LThreadId (s.set t { s.lock with lockFlag := EMPTY_FLAG } ⟨.idle, (s.threads t).guards.tail⟩) := by
  have ho : (s.threads t).owns := .inl (by omega)
  have hc := hI.count t ho
  simp only [LockThread.leaving, if_pos hpc, hdepth] at hc
  obtain ⟨gs, hg⟩ := List.head?_eq_some_iff.1 hhead
  have hd : (s.threads t).depth = (⟨.idle, gs⟩ : LockThread).depth + 1 := by simp [LockThread.depth, hg]
  have hr : (s.threads t).reads = (⟨.idle, gs⟩ : LockThread).reads := by simp [LockThread.reads, hg]
  have hno : ¬ (⟨.idle, gs⟩ : LockThread).owns := by
    simp only [LockThread.owns, reduceCtorEq, or_false]
    omega
  have hlow : s.lock.low = 0 := by
    rw [hI.low, tally_eq_zero]
    intro u
    by_cases hu : u = t
    · rw [hu, hreads]
    · exact (hI.excl t u ho hu).2
  rw [hg, List.tail_cons]
  refine hI.set ?_ (.inr (.inl ⟨hno, ho, Lock.high_store _, ?_⟩)) (fun h => absurd h hno) (.inl (by omega))
    (fun h => absurd h hno) trivial
  · rw [Lock.low_store, hlow, hr]
  · simp only; omega

/-- **A read hold comes or goes**: the low half moves by one, nothing else does. -/
theorem LockInv.read (hI : LockInv LThreadId s) (hid : Ids LThreadId) {t : Tid} {l : Lock} {gs : List Guard}
    (hpc : (s.threads t).pc ≠ .writeEnter) (hleave : (s.threads t).pc ≠ .unlockStore)
    (hdepth : (⟨.idle, gs⟩ : LockThread).depth = (s.threads t).depth)
    (hlow : l.low + (s.threads t).reads = s.lock.low + (⟨.idle, gs⟩ : LockThread).reads)
    (hhigh : l.high = s.lock.high) (hw : l.writeCount = s.lock.writeCount)
    (hreads : (⟨.idle, gs⟩ : LockThread).reads ≤ (s.threads t).reads ∨ (s.threads t).owns ∨
      ∀ u, ¬ (s.threads u).owns) : LockInv LThreadId (s.set t l ⟨.idle, gs⟩) := by
  have hiff : (⟨.idle, gs⟩ : LockThread).owns ↔ (s.threads t).owns := by
    simp only [LockThread.owns, hpc, reduceCtorEq, or_false, hdepth]
  refine hI.set hlow ?_ (fun h => .inl (hiff.1 h)) hreads (fun h => ?_) trivial
  · by_cases ho : (s.threads t).owns
    · exact .inl ⟨hiff.2 ho, by rw [hhigh, hI.high_of_owns hid ho]⟩
    · exact .inr (.inr ⟨fun h => ho (hiff.1 h), ho, hhigh, hw⟩)
  · have := hI.count t (hiff.1 h)
    simp only [LockThread.leaving, if_neg hleave] at this
    simp only [LockThread.leaving, reduceCtorEq, if_false, hw, hdepth]
    exact this

/-- **The step lemma of the lock's code**: one atomic operation of one thread keeps the invariant, as long as the counts
stay within their 16 bits. -/
theorem LockInv.next (hI : LockInv LThreadId s) (hid : Ids LThreadId) {t : Tid} {elapsed : Nat} {l : Lock}
    {th : LockThread} (h : lockNext (LThreadId t) elapsed s.lock (s.threads t) = some (.ok (l, th)))
    (hb : Bounded (s.set t l th)) : LockInv LThreadId (s.set t l th) := by
  have hok := hI.pcOk t
  have hdb := hb.2 t
  have hlow := hI.low
  have htally := tally_update LockThread.reads s.threads t th
  have hrb := hb.1
  simp only [LockState.set_threads, update_self] at hdb hrb
  unfold LockThread.PcOk at hok
  unfold lockNext at h
  cases hpc : (s.threads t).pc <;> simp only [hpc] at h hok
  case idle => cases h
  case writeLoad =>
    cases h
    refine hI.move hid (by simp [hpc]) (by split <;> simp) (by simp [hpc]) (by split <;> simp) ?_
    split
    · rename_i howner
      exact hI.depth_pos hid howner (by simp [hpc])
    · trivial
  case writeReenter =>
    cases h
    exact hI.enter hid (.inl hok) (by simp [hpc]) (by simpa [LockThread.depth] using hdb)
  case writeSpin spinCount =>
    split at h
    · cases h
      exact hI.take hid t ‹_›
    · split at h <;> cases h <;> exact hI.move hid (by simp [hpc]) (by simp) (by simp [hpc]) (by simp) trivial
  case writeClock =>
    split at h <;> cases h
    exact hI.move hid (by simp [hpc]) (by simp) (by simp [hpc]) (by simp) trivial
  case writeEnter =>
    cases h
    exact hI.enter hid (.inr hpc) (by simp [hpc]) (by simpa [LockThread.depth] using hdb)
  case unlockLoad =>
    split at h <;> cases h
    rename_i hzero
    have h0 : (0 : BitVec 32).toNat = 0 := rfl
    rw [not_not, ← BitVec.toNat_inj, toNat_readCount, h0] at hzero
    have := le_tally LockThread.reads s.threads t
    refine hI.move hid (by simp [hpc]) (by simp) (by simp [hpc]) (by simp) ⟨hok, ?_⟩
    simp only [LockThread.reads] at *
    omega
  case unlockCount =>
    split at h <;> cases h
    · exact hI.lastCount hid (by simp [hpc]) hok.1 hok.2 ‹_›
    · exact hI.leave hid (by simp [hpc]) hok.1 ‹_›
  case unlockStore =>
    cases h
    exact hI.clear hpc hok.1 hok.2.1 hok.2.2
  case readLoad =>
    cases h
    refine hI.move hid (by simp [hpc]) (by split <;> simp) (by simp [hpc]) (by split <;> simp) ?_
    split
    · rename_i howner
      exact hI.depth_pos hid howner (by simp [hpc])
    · trivial
  case readReenter =>
    cases h
    have hr : (⟨.idle, .read :: (s.threads t).guards⟩ : LockThread).reads = (s.threads t).reads + 1 := by
      simp [LockThread.reads]
    have hfit : s.lock.low + 1 < 65536 := by omega
    exact hI.read hid (by simp [hpc]) (by simp [hpc]) (by simp [LockThread.depth])
      (by rw [Lock.low_fetchAdd _ hfit]; omega) (Lock.high_fetchAdd _ hfit) rfl (.inr (.inl (.inl hok)))
  case readSpin spinCount =>
    cases h
    refine hI.move hid (by simp [hpc]) (by simp) (by simp [hpc]) (by simp) ?_
    show (s.lock.lockFlag &&& READ_COUNT_MASK).toNat < 65536
    rw [toNat_readCount]
    exact Nat.mod_lt _ (by decide)
  case readTry spinCount expected =>
    split at h
    · rename_i hflag
      cases h
      have hr : (⟨.idle, .read :: (s.threads t).guards⟩ : LockThread).reads = (s.threads t).reads + 1 := by
        simp [LockThread.reads]
      have hfit : s.lock.low + 1 < 65536 := by omega
      -- the expected word has an empty upper half, so the exchange succeeds on a lock without an owner only
      have hhigh : s.lock.high = 0 := by
        simp only [Lock.high, hflag]
        omega
      rw [← hflag]
      exact hI.read hid (by simp [hpc]) (by simp [hpc]) (by simp [LockThread.depth])
        (by rw [Lock.low_fetchAdd _ hfit]; omega) (Lock.high_fetchAdd _ hfit) rfl
        (.inr (.inr (hI.no_owner hid hhigh)))
    · split at h <;> cases h <;> exact hI.move hid (by simp [hpc]) (by simp) (by simp [hpc]) (by simp) trivial
  case readClock =>
    split at h <;> cases h
    exact hI.move hid (by simp [hpc]) (by simp) (by simp [hpc]) (by simp) trivial
  case readUnlock =>
    split at h <;> cases h
    obtain ⟨gs, hg⟩ := List.head?_eq_some_iff.1 hok
    have hr : (s.threads t).reads = (⟨.idle, gs⟩ : LockThread).reads + 1 := by simp [LockThread.reads, hg]
    have hle := le_tally LockThread.reads s.threads t
    have hpos : 0 < s.lock.low := by omega
    have hsub := Lock.low_fetchSub s.lock hpos
    rw [hg, List.tail_cons]
    exact hI.read hid (by simp [hpc]) (by simp [hpc]) (by simp [LockThread.depth, hg]) (by omega)
      (Lock.high_fetchSub _ hpos) rfl (.inl (by omega))

/-- **The step lemma of the system.** -/
theorem lockStep_inv (hI : LockInv LThreadId s) (hid : Ids LThreadId) {a : LockAct Tid} {s' : LockState Tid}
    (h : lockStep LThreadId s a = some s') (hb : Bounded s') : LockInv LThreadId s' := by
  cases a with
  | acquire t g =>
    simp only [lockStep] at h
    split at h <;> cases h
    rename_i hidle
    exact hI.move hid (by simp [hidle.2]) (by cases g <;> simp [Guard.acquirePc]) (by simp [hidle.2])
      (by cases g <;> simp [Guard.acquirePc]) (by cases g <;> trivial)
  | release t =>
    simp only [lockStep] at h
    split at h
    · rename_i hidle
      split at h <;> cases h
      rename_i g gs hg
      rw [← hg]
      refine hI.move hid (by simp [hidle.2]) (by cases g <;> simp [Guard.releasePc]) (by simp [hidle.2])
        (by cases g <;> simp [Guard.releasePc]) ?_
      cases g <;> simp only [Guard.releasePc, LockThread.PcOk, hg, List.head?_cons]
    · cases h
  | next t elapsed =>
    simp only [lockStep] at h
    split at h
    · split at h <;> cases h
      · exact ⟨hI.low, hI.high, hI.excl, hI.count, hI.pcOk⟩
      · exact hI.next hid ‹_› hb
    · cases h

/-- The states of the runs in which the counts stay within their 16 bits. -/
def LockReach (LThreadId : Tid → BitVec 32) (s : LockState Tid) : Prop :=
  Reach (lockStep LThreadId) (fun _ _ s' => Bounded s') lockState₀ s

theorem LockReach.lockInv (h : LockReach LThreadId s) (hid : Ids LThreadId) : LockInv LThreadId s :=
  h.inv lockInv₀ (fun _ _ _ _ hI he hb => lockStep_inv hI hid he hb)

def OwnerId (LThreadId : Tid → BitVec 32) (s : LockState Tid) (n : Nat) : Prop :=
  (∃ t, (s.threads t).owns ∧ n = (LThreadId t).toNat) ∨ (∀ t, ¬ (s.threads t).owns) ∧ n = 0

/-- **Reader/writer exclusion of `Lock`**: in every interleaving of threads with distinct ids in 1..65535, a write
owner excludes every other holder, the upper half of `_lockFlag` is the owner's id, the lower half counts the read
holds, and `_writeCount` is the owner's nesting depth while it is outside the four functions (and 0 when nobody owns
the lock). -/
theorem lock_exclusion (hid : Ids LThreadId) (h : LockReach LThreadId s) :
    (∀ t u, (s.threads t).owns → u ≠ t → ¬ (s.threads u).owns ∧ (s.threads u).reads = 0) ∧
    OwnerId LThreadId s s.lock.high ∧
    s.lock.low = tally LockThread.reads s.threads ∧
    (∀ t, (s.threads t).owns → (s.threads t).pc = .idle → s.lock.writeCount.toNat = (s.threads t).depth) ∧
    ((∀ t, ¬ (s.threads t).owns) → s.lock.writeCount.toNat = 0) := by
  have hI := h.lockInv hid
  refine ⟨hI.excl, ?_, hI.low, fun t ho hidle => ?_, fun hno => ?_⟩
  · rcases hI.high with h | ⟨hno, h0, -⟩
    · exact .inl h
    · exact .inr ⟨hno, h0⟩
  · have := hI.count t ho
    simpa only [LockThread.leaving, hidle, reduceCtorEq, if_false, Nat.add_zero] using this
  · rcases hI.high with ⟨t, ho, -⟩ | ⟨-, -, h⟩
    · exact absurd ho (hno t)
    · exact h

/-- Thread one writes, writes again and reads inside; thread two spins once. -/
def nestedRun : List (LockAct Two) :=
  [.acquire .one .write, .next .one 0, .acquire .two .write, .next .two 0, .next .one 0, .next .one 0, .next .two 0,
   .acquire .one .write, .next .one 0, .next .one 0, .acquire .one .read, .next .one 0, .next .one 0]

def ids : Two → BitVec 32
  | .one => 1#32
  | .two => 2#32

theorem ids_ids : Ids ids := ⟨by decide, by decide, by decide⟩

instance (s : LockState Two) : Decidable (Bounded s) := inferInstanceAs (Decidable (_ ∧ _))

theorem lock_exclusion_nested : ∃ s, run (lockStep ids) (fun _ _ s' => Bounded s') lockState₀ nestedRun = some s ∧
    (s.threads .one).owns ∧ (s.threads .one).depth = 2 ∧ s.lock.writeCount.toNat = 2 ∧
    ¬ (s.threads .two).owns ∧ (s.threads .two).reads = 0 := by
  obtain ⟨s, hrun, hr⟩ := reach_of_run (lockStep ids) (fun _ _ s' => Bounded s') lockState₀ nestedRun
    (by decide)
  have h0 : s.threads .one = ⟨.idle, [.read, .write, .write]⟩ := by
    have : (run (lockStep ids) (fun _ _ s' => Bounded s') lockState₀ nestedRun).map (·.threads .one) =
      some ⟨.idle, [.read, .write, .write]⟩ := by decide
    simpa only [hrun, Option.map_some, Option.some.injEq] using this
  have ho : (s.threads .one).owns := by rw [h0]; decide
  obtain ⟨hexcl, -, -, hcount, -⟩ := lock_exclusion ids_ids hr
  have hd : (s.threads .one).depth = 2 := by rw [h0]; decide
  exact ⟨s, hrun, ho, hd, (hcount .one ho (by rw [h0])).trans hd, hexcl .one .two ho (by decide)⟩

end Geon
