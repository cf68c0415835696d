import GeonServer.LockRun
/-!
# LockCounters — when the counters of the lock wrap

`_lockFlag` counts the read holds in its lower 16 bits and is changed by plain additions, and `_writeCount` is 16 bits
wide.  Nothing in Lock.cpp looks at either before it counts up.  An acquisition changes its own counter only, and the
lock is released by the last unlock, as long as fewer than 65536 holds of each kind are there (`counters_own_iff`); one
read hold more makes the thread with id 1 the owner, and a nested write lock one deeper is released from inside
(`counters_wrap`).
-/
namespace Geon

open Lts Function

variable {Tid : Type*} [DecidableEq Tid]

/-- A thread that comes to hold one more guard counts that guard and changes nothing else, and a write guard that goes
leaves the lock free if and only if it was the outermost. -/
def OwnCounter (s : LockState Tid) (a : LockAct Tid) (s' : LockState Tid) : Prop :=
  match a with
  | .next t _ =>
    ((s'.threads t).guards = .read :: (s.threads t).guards → s'.lock.low = s.lock.low + 1 ∧
      s'.lock.high = s.lock.high ∧ s'.lock.writeCount = s.lock.writeCount) ∧
    ((s'.threads t).guards = .write :: (s.threads t).guards → s'.lock.lockFlag = s.lock.lockFlag ∧
      s'.lock.writeCount.toNat = s.lock.writeCount.toNat + 1) ∧
    ((s'.threads t).pc = .writeEnter → s'.lock.low = s.lock.low ∧ s'.lock.writeCount = s.lock.writeCount) ∧
    ((s.threads t).guards = .write :: (s'.threads t).guards → (s'.lock.high = 0 ↔ (s'.threads t).depth = 0))
  | _ => True

instance (s : LockState Tid) (a : LockAct Tid) (s' : LockState Tid) : Decidable (OwnCounter s a s') :=
  match a with
  | .next _ _ => inferInstanceAs (Decidable (_ ∧ _))
  | .acquire _ _ | .release _ => inferInstanceAs (Decidable True)

/-! ## The steps by what they do to the guards -/

/-- **What an operation does**: it leaves the guards alone, counts a new one, or drops the innermost. -/
inductive GuardStep (LThreadId : BitVec 32) (l : Lock) (th : LockThread) (l' : Lock) (th' : LockThread) : Prop
  | move (hguards : th'.guards = th.guards) (henter : th'.pc = .writeEnter → l.lockFlag = EMPTY_FLAG ∧
      l' = { l with lockFlag := (LThreadId <<< 16) &&& WRITE_THREAD_MASK })
  | read (hpc : th'.pc = .idle) (hguards : th'.guards = .read :: th.guards)
      (hlock : l' = { l with lockFlag := l.lockFlag + 1 })
  | write (hfrom : th.pc = .writeReenter ∨ th.pc = .writeEnter) (hpc : th'.pc = .idle)
      (hguards : th'.guards = .write :: th.guards) (hlock : l' = { l with writeCount := l.writeCount + 1 })
  | leave (hfrom : th.pc = .unlockCount) (hpc : th'.pc = .idle) (hguards : th'.guards = th.guards.tail)
      (hlock : l' = { l with writeCount := l.writeCount - 1 }) (hcount : l.writeCount - 1 ≠ 0)
  | clear (hfrom : th.pc = .unlockStore) (hpc : th'.pc = .idle) (hguards : th'.guards = th.guards.tail)
      (hlock : l' = { l with lockFlag := EMPTY_FLAG })
  | drop (hfrom : th.pc = .readUnlock) (hpc : th'.pc = .idle) (hguards : th'.guards = th.guards.tail)

theorem guardStep {LThreadId : BitVec 32} {elapsed : Nat} {l l' : Lock} {th th' : LockThread}
    (h : lockNext LThreadId elapsed l th = some (.ok (l', th'))) : GuardStep LThreadId l th l' th' := by
  unfold lockNext at h
  cases hpc : th.pc <;> simp only [hpc] at h
  case idle => cases h
  case writeLoad =>
    cases h
    exact .move rfl (by split <;> simp)
  case writeReenter =>
    cases h
    exact .write (.inl hpc) rfl rfl rfl
  case writeSpin spinCount =>
    split at h
    · cases h
      exact .move rfl (fun _ => ⟨‹_›, rfl⟩)
    · split at h <;> cases h <;> exact .move rfl (by simp)
  case writeClock =>
    split at h <;> cases h
    exact .move rfl (by simp)
  case writeEnter =>
    cases h
    exact .write (.inr hpc) rfl rfl rfl
  case unlockLoad =>
    split at h <;> cases h
    exact .move rfl (by simp)
  case unlockCount =>
    split at h <;> cases h
    · exact .move rfl (by simp)
    · exact .leave hpc rfl rfl rfl ‹_›
  case unlockStore =>
    cases h
    exact .clear hpc rfl rfl rfl
  case readLoad =>
    cases h
    exact .move rfl (by split <;> simp)
  case readReenter =>
    cases h
    exact .read rfl rfl rfl
  case readSpin spinCount =>
    cases h
    exact .move rfl (by simp)
  case readTry spinCount expected =>
    split at h
    · rename_i hflag
      cases h
      exact .read rfl rfl (by rw [hflag])
    · split at h <;> cases h <;> exact .move rfl (by simp)
  case readClock =>
    split at h <;> cases h
    exact .move rfl (by simp)
  case readUnlock =>
    split at h <;> cases h
    exact .drop hpc rfl rfl

/-! ## Whole runs -/

variable [Fintype Tid] {LThreadId : Tid → BitVec 32} {s s' : LockState Tid} {a : LockAct Tid} {t : Tid} {l : Lock}
  {th : LockThread}

local instance (s : LockState Tid) : Decidable (Bounded s) := inferInstanceAs (Decidable (_ ∧ _))

theorem bounded_set (hb : Bounded s) (l : Lock) (hreads : th.reads ≤ (s.threads t).reads)
    (hdepth : th.depth ≤ (s.threads t).depth) : Bounded (s.set t l th) := by
  have htally := tally_update LockThread.reads s.threads t th
  refine ⟨?_, ?_⟩
  · have hlt := hb.1
    simp only [LockState.set_threads]
    omega
  · rw [LockState.set_threads, forall_update_iff s.threads (p := fun _ th => th.depth < 65536)]
    exact ⟨Nat.lt_of_le_of_lt hdepth (hb.2 t), fun u _ => hb.2 u⟩

theorem tail_le (gs : List Guard) (g : Guard) : gs.tail.count g ≤ gs.count g :=
  (List.tail_sublist gs).count_le g

theorem ne_cons_of_le_length {gs gs' : List Guard} (h : gs.length ≤ gs'.length) (g : Guard) : gs ≠ g :: gs' := by
  intro hg
  have hlen := congrArg List.length hg
  rw [List.length_cons] at hlen
  omega

omit [Fintype Tid] in
theorem ownCounter_set {elapsed : Nat} : OwnCounter s (.next t elapsed) (s.set t l th) ↔
    (th.guards = .read :: (s.threads t).guards →
      l.low = s.lock.low + 1 ∧ l.high = s.lock.high ∧ l.writeCount = s.lock.writeCount) ∧
    (th.guards = .write :: (s.threads t).guards →
      l.lockFlag = s.lock.lockFlag ∧ l.writeCount.toNat = s.lock.writeCount.toNat + 1) ∧
    (th.pc = .writeEnter → l.low = s.lock.low ∧ l.writeCount = s.lock.writeCount) ∧
    ((s.threads t).guards = .write :: th.guards → (l.high = 0 ↔ th.depth = 0)) := by
  simp only [OwnCounter, LockState.set_threads, update_self, LockState.set_lock]

variable {elapsed : Nat}

/-- **A new read hold**: the word is counted up without a carry if and only if there is room in its lower half. -/
theorem LockInv.read_iff (hI : LockInv LThreadId s) (hb : Bounded s) (hpc : th.pc = .idle)
    (hguards : th.guards = .read :: (s.threads t).guards) (hl : l = { s.lock with lockFlag := s.lock.lockFlag + 1 }) :
    OwnCounter s (.next t elapsed) (s.set t l th) ↔ Bounded (s.set t l th) := by
  have hreads : th.reads = (s.threads t).reads + 1 := by simp [LockThread.reads, hguards]
  have hdepth : th.depth = (s.threads t).depth := by simp [LockThread.depth, hguards]
  have htally := tally_update LockThread.reads s.threads t th
  have hlow := hI.low
  subst hl
  rw [ownCounter_set]
  constructor
  · rintro ⟨hread, -⟩
    have hcount := (hread hguards).1
    refine ⟨?_, ?_⟩
    · have hlt : ({ s.lock with lockFlag := s.lock.lockFlag + 1 } : Lock).low < 65536 := Nat.mod_lt _ (by decide)
      simp only [LockState.set_threads]
      omega
    · rw [LockState.set_threads, forall_update_iff s.threads (p := fun _ th => th.depth < 65536)]
      exact ⟨hdepth ▸ hb.2 t, fun u _ => hb.2 u⟩
  · intro hb'
    have hroom := hb'.1
    simp only [LockState.set_threads] at hroom
    have hfit : s.lock.low + 1 < 65536 := by omega
    refine ⟨fun _ => ⟨Lock.low_fetchAdd _ hfit, Lock.high_fetchAdd _ hfit, rfl⟩, fun hw => ?_, fun hw => ?_, fun hw => ?_⟩
    · rw [hguards] at hw
      cases hw
    · rw [hpc] at hw
      cases hw
    · exact absurd hw (ne_cons_of_le_length (by rw [hguards, List.length_cons]; omega) _)

/-- **A new write hold**: `_writeCount` is counted up without a carry if and only if there is room in it. -/
theorem LockInv.write_iff (hI : LockInv LThreadId s) (hb : Bounded s)
    (hfrom : (s.threads t).pc = .writeReenter ∨ (s.threads t).pc = .writeEnter) (hpc : th.pc = .idle)
    (hguards : th.guards = .write :: (s.threads t).guards)
    (hl : l = { s.lock with writeCount := s.lock.writeCount + 1 }) :
    OwnCounter s (.next t elapsed) (s.set t l th) ↔ Bounded (s.set t l th) := by
  have hreads : th.reads = (s.threads t).reads := by simp [LockThread.reads, hguards]
  have hdepth : th.depth = (s.threads t).depth + 1 := by simp [LockThread.depth, hguards]
  have htally := tally_update LockThread.reads s.threads t th
  have hrest := hb.1
  have hone : (1 : BitVec 16).toNat = 1 := rfl
  have hcount : s.lock.writeCount.toNat = (s.threads t).depth := by
    have hok := hI.pcOk t
    rcases hfrom with hfrom | hfrom
    · simp only [LockThread.PcOk, hfrom] at hok
      simpa [LockThread.leaving, hfrom] using hI.count t (.inl hok)
    · simpa [LockThread.leaving, hfrom] using hI.count t (.inr hfrom)
  have hbounded : Bounded (s.set t l th) ↔ (s.threads t).depth + 1 < 65536 := by
    constructor
    · intro hb'
      have hlt := hb'.2 t
      rwa [LockState.set_threads, update_self, hdepth] at hlt
    · intro hlt
      refine ⟨?_, ?_⟩
      · simp only [LockState.set_threads]
        omega
      · rw [LockState.set_threads, forall_update_iff s.threads (p := fun _ th => th.depth < 65536)]
        exact ⟨hdepth ▸ hlt, fun u _ => hb.2 u⟩
  subst hl
  rw [hbounded, ownCounter_set]
  constructor
  · rintro ⟨-, hwrite, -⟩
    have hup := (hwrite hguards).2
    have hlt := (s.lock.writeCount + 1).isLt
    dsimp only at hup
    omega
  · intro hlt
    refine ⟨fun hr => ?_, fun _ => ⟨rfl, ?_⟩, fun hw => ?_, fun hw => ?_⟩
    · rw [hguards] at hr
      cases hr
    · rw [BitVec.toNat_add, hone]
      omega
    · rw [hpc] at hw
      cases hw
    · exact absurd hw (ne_cons_of_le_length (by rw [hguards, List.length_cons]; omega) _)

omit [Fintype Tid] in
/-- **A guard goes**: nothing is counted up. -/
theorem ownCounter_drop (hpc : th.pc = .idle) (hguards : th.guards = (s.threads t).guards.tail)
    (hfree : (s.threads t).guards = .write :: th.guards → (l.high = 0 ↔ th.depth = 0)) :
    OwnCounter s (.next t elapsed) (s.set t l th) := by
  have hshort : ∀ g, th.guards ≠ g :: (s.threads t).guards :=
    ne_cons_of_le_length (by rw [hguards, List.length_tail]; omega)
  rw [ownCounter_set]
  refine ⟨fun hr => absurd hr (hshort _), fun hw => absurd hw (hshort _), fun hw => ?_, hfree⟩
  rw [hpc] at hw
  cases hw

theorem bounded_drop (hb : Bounded s) (l : Lock) (hguards : th.guards = (s.threads t).guards.tail) :
    Bounded (s.set t l th) :=
  bounded_set hb l (by rw [LockThread.reads, hguards]; exact tail_le _ _)
    (by rw [LockThread.depth, hguards]; exact tail_le _ _)

/-- One operation of a thread. -/
theorem LockInv.next_iff (hI : LockInv LThreadId s) (hb : Bounded s) (hid : Ids LThreadId)
    (h : lockNext (LThreadId t) elapsed s.lock (s.threads t) = some (.ok (l, th))) :
    OwnCounter s (.next t elapsed) (s.set t l th) ↔ Bounded (s.set t l th) := by
  have hok := hI.pcOk t
  cases guardStep h with
  | move hguards henter =>
    refine iff_of_true (ownCounter_set.2 ⟨fun hr => ?_, fun hw => ?_, fun hw => ?_, fun hw => ?_⟩)
      (bounded_set hb l (by simp [LockThread.reads, hguards]) (by simp [LockThread.depth, hguards]))
    · exact absurd (hguards.symm.trans hr) (List.cons_ne_self _ _).symm
    · exact absurd (hguards.symm.trans hw) (List.cons_ne_self _ _).symm
    · obtain ⟨hempty, hlock⟩ := henter hw
      rw [hlock, Lock.low_desired _ _ (hid.le t), ((lock_eq_empty s.lock).1 hempty).2]
      exact ⟨rfl, rfl⟩
    · rw [hguards] at hw
      exact absurd hw (List.cons_ne_self _ _).symm
  | read hpc hguards hlock => exact hI.read_iff hb hpc hguards hlock
  | write hfrom hpc hguards hlock => exact hI.write_iff hb hfrom hpc hguards hlock
  | leave hfrom hpc hguards hlock hcount =>
    refine iff_of_true (ownCounter_drop hpc hguards (fun hw => ?_)) (bounded_drop hb l hguards)
    have ho : (s.threads t).owns := .inl (by rw [LockThread.depth, hw, List.count_cons_self]; exact Nat.succ_pos _)
    have hdepth : s.lock.writeCount.toNat = th.depth + 1 := by
      have hc := hI.count t ho
      simpa [LockThread.leaving, hfrom, LockThread.depth, hw] using hc
    have hhigh : l.high = s.lock.high := by rw [hlock]; rfl
    have hpos := hid.pos t
    rw [hhigh, hI.high_of_owns hid ho]
    refine iff_of_false (by omega) (fun hzero => hcount ?_)
    rw [← BitVec.toNat_inj, BitVec.toNat_sub]
    have h1 : (1 : BitVec 16).toNat = 1 := rfl
    have h0 : (0 : BitVec 16).toNat = 0 := rfl
    omega
  | clear hfrom hpc hguards hlock =>
    refine iff_of_true (ownCounter_drop hpc hguards (fun hw => ?_)) (bounded_drop hb l hguards)
    simp only [LockThread.PcOk, hfrom] at hok
    have hdepth : (s.threads t).depth = th.depth + 1 := by simp [LockThread.depth, hw]
    have hhigh : l.high = 0 := by rw [hlock, Lock.high_store]
    exact iff_of_true hhigh (by omega)
  | drop hfrom hpc hguards =>
    refine iff_of_true (ownCounter_drop hpc hguards (fun hw => ?_)) (bounded_drop hb l hguards)
    simp only [LockThread.PcOk, hfrom, hw, List.head?_cons] at hok
    cases hok

/-- **The step lemma**: a step changes its own counter only if and only if the holds after it are few enough. -/
theorem ownCounter_iff (hI : LockInv LThreadId s) (hb : Bounded s) (hid : Ids LThreadId)
    (h : lockStep LThreadId s a = some s') : OwnCounter s a s' ↔ Bounded s' := by
  cases a with
  | acquire t g =>
    obtain ⟨-, h⟩ := Option.ite_none_right_eq_some.1 h
    cases h
    exact iff_of_true trivial (bounded_set hb _ (Nat.le_refl _) (Nat.le_refl _))
  | release t =>
    simp only [lockStep] at h
    split at h
    · split at h <;> cases h
      rename_i g gs hg
      refine iff_of_true trivial (bounded_set hb _ ?_ ?_)
      · exact Nat.le_of_eq (by rw [LockThread.reads, LockThread.reads, hg])
      · exact Nat.le_of_eq (by rw [LockThread.depth, LockThread.depth, hg])
    · cases h
  | next t elapsed =>
    simp only [lockStep] at h
    split at h
    · split at h <;> cases h
      · refine iff_of_true ?_ hb
        have hself := fun g => (List.cons_ne_self g (s.threads t).guards).symm
        refine ⟨fun hr => absurd hr (hself _), fun hw => absurd hw (hself _), fun _ => ⟨rfl, rfl⟩,
          fun hw => absurd hw (hself _)⟩
      · exact hI.next_iff hb hid ‹_›
    · cases h

/-- **When the counters count**: every step of a run changes its own counter only, and write locks are released by their
last unlock, if and only if there are never 65536 read holds or nested write holds. -/
theorem counters_own_iff (hid : Ids LThreadId) (acts : List (LockAct Tid)) :
    run (lockStep LThreadId) OwnCounter lockState₀ acts = some s ↔
      run (lockStep LThreadId) (fun _ _ s' => Bounded s') lockState₀ acts = some s := by
  rw [run_congr (P := fun s => LockInv LThreadId s ∧ Bounded s) (fun s a s' hP h hb' =>
    ⟨lockStep_inv hP.1 hid h hb', hb'⟩) (fun s a s' hP h => ownCounter_iff hP.1 hP.2 hid h) acts ⟨lockInv₀, ?_⟩]
  refine ⟨?_, fun t => ?_⟩
  · rw [(tally_eq_zero LockThread.reads _).2 (fun _ => rfl)]
    decide
  · exact (by decide : 0 < 65536)

theorem counters_own_iff_nested : ∃ s, run (lockStep ids) OwnCounter lockState₀ nestedRun = some s := by
  obtain ⟨s, hs⟩ := Option.isSome_iff_exists.1 (show (run (lockStep ids) (fun _ _ s' => Bounded s') lockState₀
    nestedRun).isSome = true by decide)
  exact ⟨s, (counters_own_iff ids_ids nestedRun).2 hs⟩

/-! ## One hold too many -/

/-- Thread one is here, and nobody else does anything. -/
def solo (l : Lock) (th : LockThread) : LockState Two := ⟨l, update (fun _ => ⟨.idle, []⟩) .one th, none⟩

theorem solo_set (l l' : Lock) (th th' : LockThread) : (solo l th).set .one l' th' = solo l' th' := by
  unfold solo LockState.set
  rw [update_idem]

theorem solo_thread (l : Lock) (th : LockThread) : (solo l th).threads .one = th := rfl

theorem solo_next {l k : Lock} {th t : LockThread} (h : lockNext 1#32 0 l th = some (.ok (k, t))) :
    lockStep ids (solo l th) (.next .one 0) = some (solo k t) := by
  have hnext : lockNext (ids .one) 0 (solo l th).lock ((solo l th).threads .one) = some (.ok (k, t)) := h
  have hcrashed : (solo l th).crashed = none := rfl
  simp only [lockStep, if_pos hcrashed, hnext, solo_set]

theorem solo_acquire (l : Lock) (gs : List Guard) (g : Guard) :
    lockStep ids (solo l ⟨.idle, gs⟩) (.acquire .one g) = some (solo l ⟨g.acquirePc, gs⟩) := by
  have hidle : (solo l ⟨.idle, gs⟩).crashed = none ∧ ((solo l ⟨.idle, gs⟩).threads .one).pc = .idle := ⟨rfl, rfl⟩
  rw [lockStep, if_pos hidle, solo_set]
  rfl

theorem solo_release (l : Lock) (gs : List Guard) (g : Guard) :
    lockStep ids (solo l ⟨.idle, g :: gs⟩) (.release .one) = some (solo l ⟨g.releasePc, g :: gs⟩) := by
  have hidle : (solo l ⟨.idle, g :: gs⟩).crashed = none ∧ ((solo l ⟨.idle, g :: gs⟩).threads .one).pc = .idle :=
    ⟨rfl, rfl⟩
  rw [lockStep, if_pos hidle, solo_thread]
  exact congrArg some (solo_set _ _ _ _)

/-- **Up to 65536 nested read locks**, each by an exchange on a word without an owner. -/
theorem reach_readers : ∀ n : Nat, n ≤ 65536 → Reach (lockStep ids) Any (lockState₀ : LockState Two)
    (solo ⟨BitVec.ofNat 32 n, 0⟩ ⟨.idle, List.replicate n .read⟩)
  | 0, _ => by
    have hstart : solo ⟨BitVec.ofNat 32 0, 0⟩ ⟨.idle, []⟩ = lockState₀ := by
      unfold solo lockState₀
      rw [update_eq_self]
      rfl
    rw [List.replicate_zero, hstart]
    exact .start
  | n + 1, hn => by
    have hflag : (BitVec.ofNat 32 n).toNat = n := by
      rw [BitVec.toNat_ofNat]
      omega
    have howner : ¬ (1#32 = (⟨BitVec.ofNat 32 n, 0⟩ : Lock).lockThreadId) := by
      rw [← BitVec.toNat_inj, toNat_lockThreadId, Lock.high, hflag]
      have hone : (1#32).toNat = 1 := rfl
      omega
    have hcount : BitVec.ofNat 32 n &&& READ_COUNT_MASK = BitVec.ofNat 32 n := by
      have hlow := toNat_readCount ⟨BitVec.ofNat 32 n, 0⟩
      rw [Lock.low, hflag] at hlow
      rw [← BitVec.toNat_inj, hlow, hflag]
      omega
    have hacquire := (reach_readers n (by omega)).next (solo_acquire _ _ .read) trivial
    have hload := hacquire.next (solo_next (t := ⟨.readSpin 0, List.replicate n .read⟩)
      (k := ⟨BitVec.ofNat 32 n, 0⟩) (by simp only [lockNext, Guard.acquirePc, if_neg howner])) trivial
    have hspin := hload.next (solo_next (k := ⟨BitVec.ofNat 32 n, 0⟩)
      (t := ⟨.readTry 0 (BitVec.ofNat 32 n), List.replicate n .read⟩) (by simp [lockNext, hcount])) trivial
    exact hspin.next (solo_next (by simp [lockNext, List.replicate_succ, BitVec.ofNat_add])) trivial

/-- **Any number of nested write locks**: the owner does not look at the count. -/
theorem reach_writers : ∀ n : Nat, Reach (lockStep ids) Any (lockState₀ : LockState Two)
    (solo ⟨0x10000, BitVec.ofNat 16 (n + 1)⟩ ⟨.idle, List.replicate (n + 1) .write⟩)
  | 0 => by
    have hacquire := (reach_readers 0 (by decide)).next (solo_acquire _ _ .write) trivial
    have hload := hacquire.next (solo_next (k := ⟨0, 0⟩) (t := ⟨.writeSpin 0, []⟩) rfl) trivial
    have hspin := hload.next (solo_next (k := ⟨0x10000, 0⟩) (t := ⟨.writeEnter, []⟩) rfl) trivial
    exact hspin.next (solo_next rfl) trivial
  | n + 1 => by
    have hacquire := (reach_writers n).next (solo_acquire _ _ .write) trivial
    have howner : 1#32 = (⟨0x10000, BitVec.ofNat 16 (n + 1)⟩ : Lock).lockThreadId := by
      show 1#32 = (0x10000#32 &&& WRITE_THREAD_MASK) >>> 16
      decide
    have hload := hacquire.next (solo_next (k := ⟨0x10000, BitVec.ofNat 16 (n + 1)⟩)
      (t := ⟨.writeReenter, List.replicate (n + 1) .write⟩) (by simp only [lockNext, Guard.acquirePc, if_pos howner])) trivial
    exact hload.next (solo_next (by simp [lockNext, List.replicate_succ, BitVec.ofNat_add])) trivial

/-- **The unlock that brings `_writeCount` to 0** clears the flag, however many guards are left. -/
theorem reach_released {n : Nat} (hcount : BitVec.ofNat 16 (n + 1) - 1 = 0) :
    Reach (lockStep ids) Any (lockState₀ : LockState Two) (solo ⟨EMPTY_FLAG, 0⟩ ⟨.idle, List.replicate n .write⟩) := by
  have hrelease := (reach_writers n).next (solo_release _ _ .write) trivial
  have hload := hrelease.next (solo_next (k := ⟨0x10000, BitVec.ofNat 16 (n + 1)⟩)
    (t := ⟨.unlockCount, List.replicate (n + 1) .write⟩) (by
      simp [lockNext, Guard.releasePc, READ_COUNT_MASK, List.replicate_succ])) trivial
  have hlast := hload.next (solo_next (k := ⟨0x10000, 0⟩)
    (t := ⟨.unlockStore, List.replicate (n + 1) .write⟩) (by simp only [lockNext, hcount, if_true])) trivial
  exact hlast.next (solo_next rfl) trivial

theorem readers_not_owns (n : Nat) : ¬ (⟨.idle, List.replicate n .read⟩ : LockThread).owns := by
  simp [LockThread.owns, LockThread.depth, List.count_replicate]

/-- **The counters wrap**: with 65536 read holds and nobody writing the lock has thread one for its owner, and with 65537
nested write holds it is free after the first unlock. -/
theorem counters_wrap :
    (∃ s : LockState Two, Reach (lockStep ids) Any lockState₀ s ∧ (∀ t, ¬ (s.threads t).owns) ∧
      s.lock.high = (ids .one).toNat) ∧
    ∃ s : LockState Two, Reach (lockStep ids) Any lockState₀ s ∧ (s.threads .one).depth = 65536 ∧ s.lock.high = 0 := by
  refine ⟨⟨_, reach_readers 65536 (Nat.le_refl _), fun t => ?_, by decide⟩,
    ⟨_, reach_released (n := 65536) (by decide), ?_, by decide⟩⟩
  · cases t with
    | one => exact readers_not_owns 65536
    | two => decide
  · rw [solo_thread, LockThread.depth, List.count_replicate_self]

end Geon
