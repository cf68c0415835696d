import GeonServer.LockRun
import Mathlib.Data.Fintype.Sum
import Mathlib.Order.Interval.Finset.Nat
/-!
# ThreadManager — the ids of the threads in the lock

`ThreadManager::InitTLS` numbers the threads from 1 on, in 32 bits, and a `Lock` keeps 16 of them.  Up to 65535 threads
the owner test of `Lock` tells every thread from every other; the 65536-th stores `EMPTY_FLAG` when it takes the lock
(`faithful_iff`).

A thread starts with `InitTLS`, be it the main thread in the constructor or one of `Launch`, and ends with `DestroyTLS`,
which does nothing.  An id is not given back.
-/
namespace Geon

open Lts Function

/-! ## The code -/

inductive ThreadLife
  | notStarted
  | live
  | ended
  deriving DecidableEq, Repr

/-- The threads of the process and one of its locks. -/
structure ThreadManager (Tid : Type*) where
  SThreadId : BitVec 32
  LThreadId : Tid → BitVec 32
  life : Tid → ThreadLife
  lock : LockState Tid

inductive ThreadAct (Tid : Type*)
  | initTLS (t : Tid)
  | destroyTLS (t : Tid)
  /-- A thread does something with the lock. -/
  | lock (a : LockAct Tid)

def LockAct.thread {Tid : Type*} : LockAct Tid → Tid
  | .acquire t _ | .release t | .next t _ => t

variable {Tid : Type*} [DecidableEq Tid]

/-- `InitTLS` on thread `t`: one `fetch_add`. -/
def ThreadManager.initTLS (s : ThreadManager Tid) (t : Tid) : ThreadManager Tid :=
  { s with
    SThreadId := s.SThreadId + 1, LThreadId := update s.LThreadId t s.SThreadId, life := update s.life t .live }

def threadStep (s : ThreadManager Tid) : ThreadAct Tid → Option (ThreadManager Tid)
  | .initTLS t =>
    if s.life t = .notStarted then some (s.initTLS t) else none
  | .destroyTLS t =>
    -- the scopes of the guards are inside the callback
    if s.life t = .live ∧ s.lock.threads t = ⟨.idle, []⟩ then some { s with life := update s.life t .ended } else none
  | .lock a =>
    if s.life a.thread = .live then (lockStep s.LThreadId s.lock a).map (fun lock => { s with lock := lock }) else none

def threadManager₀ : ThreadManager Tid := ⟨1, fun _ => 0, fun _ => .notStarted, lockState₀⟩

/-! ## What is asked of the ids -/

/-- What `WriteLock` stores in the flag. -/
def desired (LThreadId : BitVec 32) : BitVec 32 := (LThreadId <<< 16) &&& WRITE_THREAD_MASK

/-- The lock tells thread `t` from the other live ones: what `t` stores reads back as its id, is not the empty value and
is not what another id stores, and `t` passes the owner test exactly when it owns the lock. -/
structure Faithful (s : ThreadManager Tid) (t : Tid) : Prop where
  readsBack : (⟨desired (s.LThreadId t), 0⟩ : Lock).lockThreadId = s.LThreadId t
  notEmpty : desired (s.LThreadId t) ≠ EMPTY_FLAG
  differs : ∀ u, s.life u = .live → s.LThreadId u ≠ s.LThreadId t → desired (s.LThreadId u) ≠ desired (s.LThreadId t)
  ownerTest : s.LThreadId t = s.lock.lock.lockThreadId ↔ (s.lock.threads t).owns

variable [Fintype Tid]

/-- The states of the runs in which the counts of the lock stay within their 16 bits. -/
def ThreadReach (s : ThreadManager Tid) : Prop :=
  Reach threadStep (fun _ _ s' => Bounded s'.lock) threadManager₀ s

/-! ## The numbering -/

def ThreadLife.started (life : ThreadLife) : Nat := if life = .notStarted then 0 else 1

theorem ThreadLife.started_eq_one {life : ThreadLife} (h : life ≠ .notStarted) : life.started = 1 := if_neg h

omit [DecidableEq Tid] in
theorem tally_started_le (life : Tid → ThreadLife) : tally ThreadLife.started life ≤ Fintype.card Tid := by
  have hle : ∀ t ∈ Finset.univ, (life t).started ≤ 1 := by
    intro t _
    unfold ThreadLife.started
    split <;> omega
  simpa [tally] using Finset.sum_le_card_nsmul Finset.univ (fun t => (life t).started) 1 hle

/-- **The numbering**: the ids are the numbers from 1 up to the next one, and each is one thread's. -/
structure Numbered (s : ThreadManager Tid) : Prop where
  next : s.SThreadId.toNat = tally ThreadLife.started s.life + 1
  inj : Set.InjOn s.LThreadId {t | s.life t ≠ .notStarted}
  pos : ∀ t, s.life t ≠ .notStarted → 1 ≤ (s.LThreadId t).toNat
  lt : ∀ t, s.life t ≠ .notStarted → (s.LThreadId t).toNat < s.SThreadId.toNat

variable {s s' : ThreadManager Tid} {a : ThreadAct Tid} {t : Tid}

omit [DecidableEq Tid] in
theorem numbered₀ : Numbered (threadManager₀ : ThreadManager Tid) where
  next := by
    have hzero : tally ThreadLife.started (fun _ : Tid => .notStarted) = 0 := tally_const_zero _ _ (if_pos rfl)
    have hone : (1 : BitVec 32).toNat = 1 := rfl
    unfold threadManager₀
    rw [hzero, hone]
  inj t ht := absurd rfl ht
  pos t ht := absurd rfl ht
  lt t ht := absurd rfl ht

omit [Fintype Tid] in
/-- A thread that is not the one that starts had started before. -/
theorem started_of_update {life : ThreadLife} {u : Tid} (hu : u ≠ t) (h : update s.life t life u ≠ .notStarted) :
    s.life u ≠ .notStarted := by
  rwa [update_of_ne hu] at h

theorem Numbered.initTLS (hN : Numbered s) (hcard : Fintype.card Tid ≤ 65535) (ht : s.life t = .notStarted) :
    Numbered (s.initTLS t) := by
  have htally := tally_update ThreadLife.started s.life t .live
  have hlive : ThreadLife.live.started = 1 := rfl
  have hnot : (s.life t).started = 0 := if_pos ht
  have hle := tally_started_le (update s.life t .live)
  have hnext : (s.SThreadId + 1).toNat = s.SThreadId.toNat + 1 := by
    have h1 : (1 : BitVec 32).toNat = 1 := rfl
    rw [BitVec.toNat_add, h1, hN.next]
    omega
  constructor
  case next =>
    unfold ThreadManager.initTLS
    dsimp only
    rw [hnext, hN.next]
    omega
  case inj =>
    intro u hu v hv huv
    unfold ThreadManager.initTLS at huv
    dsimp only at huv
    -- an id that has been given out is below the new one
    have hfresh : ∀ w, s.life w ≠ .notStarted → s.LThreadId w ≠ s.SThreadId :=
      fun w hw heq => Nat.lt_irrefl _ (heq ▸ hN.lt w hw)
    by_cases hut : u = t
    · by_cases hvt : v = t
      · rw [hut, hvt]
      · rw [hut, update_self, update_of_ne hvt] at huv
        exact absurd huv.symm (hfresh v (started_of_update hvt hv))
    · by_cases hvt : v = t
      · rw [hvt, update_self, update_of_ne hut] at huv
        exact absurd huv (hfresh u (started_of_update hut hu))
      · rw [update_of_ne hut, update_of_ne hvt] at huv
        exact hN.inj (started_of_update hut hu) (started_of_update hvt hv) huv
  case pos =>
    intro u hu
    unfold ThreadManager.initTLS at hu ⊢
    dsimp only at hu ⊢
    by_cases hut : u = t
    · rw [hut, update_self, hN.next]
      omega
    · rw [update_of_ne hut]
      exact hN.pos u (started_of_update hut hu)
  case lt =>
    intro u hu
    unfold ThreadManager.initTLS at hu ⊢
    dsimp only at hu ⊢
    rw [hnext]
    by_cases hut : u = t
    · rw [hut, update_self]
      omega
    · rw [update_of_ne hut]
      exact Nat.lt_succ_of_lt (hN.lt u (started_of_update hut hu))

theorem Numbered.destroyTLS (hN : Numbered s) (ht : s.life t = .live) :
    Numbered { s with life := update s.life t .ended } := by
  have htally := tally_update ThreadLife.started s.life t .ended
  have hlive : (s.life t).started = 1 := ThreadLife.started_eq_one (by simp [ht])
  have hended : ThreadLife.ended.started = 1 := rfl
  have hold : ∀ u, update s.life t .ended u ≠ .notStarted → s.life u ≠ .notStarted := by
    intro u hu
    by_cases hut : u = t
    · simp [hut, ht]
    · exact started_of_update hut hu
  constructor
  case next =>
    dsimp only
    rw [hN.next]
    omega
  case inj => exact hN.inj.mono hold
  case pos => exact fun u hu => hN.pos u (hold u hu)
  case lt => exact fun u hu => hN.lt u (hold u hu)

/-! ## The lock under the numbering -/

omit [Fintype Tid] in
/-- The lock sees the id of the thread that acts and no other. -/
theorem lockStep_congr {ids ids' : Tid → BitVec 32} {a : LockAct Tid} (h : ids a.thread = ids' a.thread)
    (l : LockState Tid) : lockStep ids l a = lockStep ids' l a := by
  cases a with
  | acquire t g => rfl
  | release t => rfl
  | next t elapsed =>
    have ht : ids t = ids' t := h
    simp only [lockStep, ht]

/-- **The invariant of the process**: the threads are numbered, and the invariant of the lock holds for all ids that
could yet come out of the numbering. -/
structure ThreadInv (s : ThreadManager Tid) : Prop where
  numbered : Numbered s
  lock : ∀ ids : Tid → BitVec 32, Ids ids → (∀ t, s.life t ≠ .notStarted → ids t = s.LThreadId t) → LockInv ids s.lock

/-- **The step lemma.** -/
theorem ThreadInv.step (hI : ThreadInv s) (hcard : Fintype.card Tid ≤ 65535) (he : threadStep s a = some s')
    (hb : Bounded s'.lock) : ThreadInv s' := by
  cases a with
  | initTLS t =>
    obtain ⟨ht, he⟩ := Option.ite_none_right_eq_some.1 he
    cases he
    refine ⟨hI.numbered.initTLS hcard ht, fun ids hids hagree => hI.lock ids hids (fun u hu => ?_)⟩
    have hut : u ≠ t := fun h => hu (h ▸ ht)
    unfold ThreadManager.initTLS at hagree
    have hid := hagree u (by dsimp only; rwa [update_of_ne hut])
    dsimp only at hid
    rwa [update_of_ne hut] at hid
  | destroyTLS t =>
    obtain ⟨⟨ht, -⟩, he⟩ := Option.ite_none_right_eq_some.1 he
    cases he
    refine ⟨hI.numbered.destroyTLS ht, fun ids hids hagree => hI.lock ids hids (fun u hu => hagree u ?_)⟩
    by_cases hut : u = t
    · simp [hut]
    · dsimp only
      rwa [update_of_ne hut]
  | lock a =>
    obtain ⟨ht, he⟩ := Option.ite_none_right_eq_some.1 he
    obtain ⟨l, hl, he⟩ := Option.map_eq_some_iff.1 he
    cases he
    refine ⟨⟨hI.numbered.next, hI.numbered.inj, hI.numbered.pos, hI.numbered.lt⟩, fun ids hids hagree => ?_⟩
    have hsame := hagree a.thread (by simp [ht])
    rw [← lockStep_congr hsame] at hl
    exact lockStep_inv (hI.lock ids hids hagree) hids hl hb

theorem ThreadReach.threadInv (h : ThreadReach s) (hcard : Fintype.card Tid ≤ 65535) : ThreadInv s :=
  h.inv ⟨numbered₀, fun _ _ _ => lockInv₀⟩ (fun _ _ _ _ hI he hb => hI.step hcard he hb)

omit [DecidableEq Tid] in
/-- The numbering so far goes on to a numbering of all threads. -/
theorem Numbered.exists_ids (hN : Numbered s) (hcard : Fintype.card Tid ≤ 65535) :
    ∃ ids : Tid → BitVec 32, Ids ids ∧ ∀ t, s.life t ≠ .notStarted → ids t = s.LThreadId t := by
  let numbers : Finset (BitVec 32) := (Finset.Icc 1 (Fintype.card Tid)).image (BitVec.ofNat 32)
  have htoNat : ∀ n ∈ Finset.Icc 1 (Fintype.card Tid), (BitVec.ofNat 32 n).toNat = n := by
    intro n hn
    rw [BitVec.toNat_ofNat]
    have := Finset.mem_Icc.1 hn
    omega
  have hnumbers : Fintype.card Tid = numbers.card := by
    have hinj : Set.InjOn (BitVec.ofNat 32) (Finset.Icc 1 (Fintype.card Tid)) := by
      intro m hm n hn hmn
      rw [← htoNat m hm, ← htoNat n hn, hmn]
    rw [Finset.card_image_of_injOn hinj, Nat.card_Icc, Nat.add_sub_cancel]
  have hmaps : Set.MapsTo s.LThreadId {t | s.life t ≠ .notStarted} numbers := by
    intro t ht
    have hle := tally_started_le s.life
    have hlt := hN.lt t ht
    rw [hN.next] at hlt
    refine Finset.mem_coe.2 (Finset.mem_image.2 ⟨(s.LThreadId t).toNat, ?_, ?_⟩)
    · exact Finset.mem_Icc.2 ⟨hN.pos t ht, by omega⟩
    · rw [BitVec.ofNat_toNat, BitVec.setWidth_eq]
  obtain ⟨g, hg⟩ := hmaps.exists_equiv_extend_of_card_eq hnumbers hN.inj
  have hrange : ∀ t, 1 ≤ (g t : BitVec 32).toNat ∧ (g t : BitVec 32).toNat ≤ Fintype.card Tid := by
    intro t
    obtain ⟨n, hn, hgt⟩ := Finset.mem_image.1 (g t).2
    rw [← hgt, htoNat n hn]
    exact Finset.mem_Icc.1 hn
  refine ⟨fun t => g t, ⟨?_, fun t => (hrange t).1, fun t => Nat.le_trans (hrange t).2 hcard⟩, hg⟩
  exact Subtype.val_injective.comp g.injective

/-! ## Up to 65535 threads -/

theorem lockThreadId_desired {id : BitVec 32} (h : id.toNat ≤ 65535) (writeCount : BitVec 16) :
    (⟨desired id, writeCount⟩ : Lock).lockThreadId = id := by
  rw [← BitVec.toNat_inj, toNat_lockThreadId]
  exact Lock.high_desired writeCount id h

theorem desired_ne {id id' : BitVec 32} (h : id.toNat ≤ 65535) (h' : id'.toNat ≤ 65535) (hne : id ≠ id') :
    desired id ≠ desired id' := by
  intro heq
  have hread := lockThreadId_desired h 0
  rw [heq, lockThreadId_desired h' 0] at hread
  exact hne hread.symm

theorem ThreadReach.faithful (h : ThreadReach s) (hcard : Fintype.card Tid ≤ 65535) (t : Tid)
    (ht : s.life t = .live) : Faithful s t := by
  have hI := h.threadInv hcard
  obtain ⟨ids, hids, hagree⟩ := hI.numbered.exists_ids hcard
  have hlive : ∀ u, s.life u = .live → s.life u ≠ .notStarted := fun u hu => by simp [hu]
  have hid := hagree t (hlive t ht)
  have hle : (s.LThreadId t).toNat ≤ 65535 := hid ▸ hids.le t
  have hpos : 1 ≤ (s.LThreadId t).toNat := hid ▸ hids.pos t
  constructor
  case readsBack => exact lockThreadId_desired hle 0
  case notEmpty =>
    intro hempty
    have hflag := toNat_desired (s.LThreadId t) hle
    have hzero : EMPTY_FLAG.toNat = 0 := rfl
    unfold desired at hempty
    rw [hempty, hzero] at hflag
    omega
  case differs =>
    intro u hu hne
    exact desired_ne (hagree u (hlive u hu) ▸ hids.le u) hle hne
  case ownerTest =>
    rw [← hid]
    exact (hI.lock ids hids hagree).owner_test hids t

/-! ## From 65536 threads on -/

omit [DecidableEq Tid] in
theorem exists_notStarted {life : Tid → ThreadLife} (h : tally ThreadLife.started life < Fintype.card Tid) :
    ∃ t, life t = .notStarted := by
  by_contra hall
  rw [not_exists] at hall
  have hone : tally ThreadLife.started life = Fintype.card Tid := by
    simp [tally, ThreadLife.started, hall]
  omega

omit [DecidableEq Tid] in
theorem bounded₀ : Bounded (lockState₀ : LockState Tid) := by
  have hnone : tally LockThread.reads (fun _ : Tid => ⟨.idle, []⟩) = 0 := tally_const_zero _ _ rfl
  have hdepth : (⟨.idle, []⟩ : LockThread).depth < 65536 := by decide
  refine ⟨?_, fun _ => hdepth⟩
  unfold lockState₀
  rw [hnone]
  decide

/-- As long as nobody uses the lock, any number of the threads can be started, one after the other. -/
theorem exists_started : ∀ k, k ≤ Fintype.card Tid → ∃ s : ThreadManager Tid, ThreadReach s ∧
    s.lock = lockState₀ ∧ s.SThreadId = BitVec.ofNat 32 (k + 1) ∧ tally ThreadLife.started s.life = k
  | 0, _ => ⟨threadManager₀, .start, rfl, rfl, tally_const_zero _ _ rfl⟩
  | k + 1, hk => by
    obtain ⟨s, hs, hlock, hid, htally⟩ := exists_started k (Nat.le_of_succ_le hk)
    obtain ⟨t, ht⟩ := exists_notStarted (htally ▸ hk)
    have hgrow := tally_update ThreadLife.started s.life t .live
    have hlive : ThreadLife.live.started = 1 := rfl
    have hzero : (s.life t).started = 0 := if_pos ht
    refine ⟨s.initTLS t, hs.next (a := .initTLS t) (if_pos ht) ?_, hlock, ?_, ?_⟩
    · unfold ThreadManager.initTLS
      dsimp only
      rw [hlock]
      exact bounded₀
    · unfold ThreadManager.initTLS
      dsimp only
      rw [hid, BitVec.ofNat_add (k + 1) 1]
      rfl
    · unfold ThreadManager.initTLS
      dsimp only
      omega

theorem exists_not_faithful (h : 65535 < Fintype.card Tid) :
    ∃ (s : ThreadManager Tid) (t : Tid), ThreadReach s ∧ s.life t = .live ∧ ¬ Faithful s t := by
  obtain ⟨s, hs, hlock, hid, htally⟩ := @exists_started Tid _ _ 65535 (Nat.le_of_lt h)
  obtain ⟨t, ht⟩ := exists_notStarted (htally ▸ h)
  refine ⟨s.initTLS t, t, hs.next (a := .initTLS t) (if_pos ht) ?_, update_self .., fun hfaithful => ?_⟩
  · unfold ThreadManager.initTLS
    dsimp only
    rw [hlock]
    exact bounded₀
  · have hlast : (s.initTLS t).LThreadId t = 65536#32 := by
      unfold ThreadManager.initTLS
      dsimp only
      rw [update_self, hid]
    have hne := hfaithful.notEmpty
    rw [hlast] at hne
    exact hne (by decide)

/-- **The ids of the threads are faithful up to 65535 threads**: in every run in which the counts of the lock stay within
their 16 bits the lock tells every live thread from the others, if and only if no more than 65535 threads can be
started. -/
theorem faithful_iff : (∀ s : ThreadManager Tid, ThreadReach s → ∀ t, s.life t = .live → Faithful s t) ↔
    Fintype.card Tid ≤ 65535 := by
  constructor
  · intro h
    by_contra hcard
    obtain ⟨s, t, hs, ht, hnot⟩ := @exists_not_faithful Tid _ _ (Nat.lt_of_not_le hcard)
    exact hnot (h s hs t ht)
  · intro hcard s hs t ht
    exact hs.faithful hcard t ht

/-- **The 65536-th thread is not told from nobody.** -/
theorem last_thread_not_faithful : ¬ ∀ (n : Nat) (s : ThreadManager (Fin n)), ThreadReach s →
    ∀ t, s.life t = .live → Faithful s t := by
  intro h
  obtain ⟨s, t, hs, ht, hnot⟩ := @exists_not_faithful (Fin 65536) _ _ (by rw [Fintype.card_fin]; decide)
  exact hnot (h 65536 s hs t ht)

end Geon
