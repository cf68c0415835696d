import GeonServer.TimerRun
/-!
# TimerDue — when the jobs of the timer are pushed

`Distribute` is given a clock that has been read before, so it never takes out what is due later than now.  What an item
is due at is `GetTickCount64() + tickAfter` in 64 bits: where that runs over, the job is pushed early
(`fires_late_iff`).
-/
namespace Geon
namespace JobTimer

open Lts Function

variable {Heap Tid Q F : Type} [DecidableEq Q] [DecidableEq Tid] [Fintype Tid]
  {PQ : PriorityQueue Heap (TimerItem Q F) TimerItem.lt}

/-- `now` has been read from the clock. -/
def ReadsClock (s : TimerState Heap Tid Q F) (a : TimerAct Tid Q F) (_ : TimerState Heap Tid Q F) : Prop :=
  match a with
  | .distribute _ now => now.toNat ≤ s.clock.toNat
  | .queue _ | .reserve _ _ _ _ | .next _ | .pushNext _ _ | .tick _ | .hold _ _ => True

instance (s : TimerState Heap Tid Q F) (s' : TimerState Heap Tid Q F) : ∀ a, Decidable (ReadsClock s a s')
  | .distribute _ _ => inferInstanceAs (Decidable (_ ≤ _))
  | .queue _ | .reserve _ _ _ _ | .next _ | .pushNext _ _ | .tick _ | .hold _ _ => .isTrue trivial

/-- The states of the runs in which `Distribute` is given what the clock has shown. -/
def ClockReach (PQ : PriorityQueue Heap (TimerItem Q F) TimerItem.lt) (s : TimerState Heap Tid Q F) : Prop :=
  Reach (timerStep PQ) ReadsClock (timerState₀ PQ) s

/-! ## What is due -/

/-- What a thread has in its hands is due by the clock. -/
def TimerPc.Due (clock : BitVec 64) : TimerPc Q F → Prop
  | .idle => True
  | .reserve executeTick jobData => executeTick = jobData.reservedAt + jobData.tickAfter
  | .collect now => now.toNat ≤ clock.toNat
  | .deliver items => ∀ item ∈ items, item.executeTick.toNat ≤ clock.toNat
  | .push item items | .inPush item items => ∀ i ∈ item :: items, i.executeTick.toNat ≤ clock.toNat

structure DueInv (s : TimerState Heap Tid Q F) : Prop where
  threads : ∀ t, (s.timers t).Due s.clock
  reserved : ∀ item ∈ s.reserved, item.executeTick = item.jobData.reservedAt + item.jobData.tickAfter
  pushed : ∀ d ∈ s.delivered, ∀ clock, d.pushedAt = some clock → d.item.executeTick.toNat ≤ clock.toNat

variable {s s' : TimerState Heap Tid Q F} {a : TimerAct Tid Q F} {pc : TimerPc Q F}

omit [DecidableEq Q] in
theorem TimerPc.Due.mono {clock clock' : BitVec 64} (h : pc.Due clock) (hle : clock.toNat ≤ clock'.toNat) :
    pc.Due clock' := by
  cases pc with
  | idle => trivial
  | reserve => exact h
  | collect now => exact Nat.le_trans h hle
  | deliver items => exact fun item hitem => Nat.le_trans (h item hitem) hle
  | push item items => exact fun i hi => Nat.le_trans (h i hi) hle
  | inPush item items => exact fun i hi => Nat.le_trans (h i hi) hle

omit [DecidableEq Q] [Fintype Tid] in
theorem DueInv.goto (hI : DueInv s) {t : Tid} (hpc : pc.Due s.clock) :
    ∀ u, (update s.timers t pc u).Due s.clock := by
  rw [forall_update_iff s.timers (p := fun _ pc => pc.Due s.clock)]
  exact ⟨hpc, fun u _ => hI.threads u⟩

omit [DecidableEq Q] [Fintype Tid] [DecidableEq Tid] in
/-- A delivery that is recorded, pushed or dropped. -/
theorem DueInv.deliver (hI : DueInv s) {d : Delivery Q F}
    (hd : ∀ clock, d.pushedAt = some clock → d.item.executeTick.toNat ≤ clock.toNat) :
    ∀ d' ∈ s.delivered ++ [d], ∀ clock, d'.pushedAt = some clock → d'.item.executeTick.toNat ≤ clock.toNat :=
  List.forall_mem_append.2 ⟨hI.pushed, List.forall_mem_singleton.2 hd⟩

theorem DueInv.step (hI : DueInv s) (he : Effect PQ s a s') (hok : ReadsClock s a s') : DueInv s' := by
  cases he with
  | queue => exact ⟨hI.threads, hI.reserved, hI.pushed⟩
  | @enter t timeout item items queues ht =>
    have hdue := hI.threads t
    rw [ht] at hdue
    refine ⟨hI.goto (fun i hi => hdue i (List.mem_cons_of_mem item hi)), hI.reserved,
      hI.deliver (fun clock hclock => ?_)⟩
    cases hclock
    exact hdue item List.mem_cons_self
  | reserve => exact ⟨hI.goto rfl, hI.reserved, hI.pushed⟩
  | @insert t executeTick jobData ht =>
    have hdue := hI.threads t
    rw [ht] at hdue
    refine ⟨hI.goto trivial, fun item hitem => ?_, hI.pushed⟩
    rcases List.mem_append.1 hitem with hitem | hitem
    · exact hI.reserved item hitem
    · obtain rfl := List.mem_singleton.1 hitem
      exact hdue
  | turnedAway => exact hI
  | gate => exact ⟨hI.goto hok, hI.reserved, hI.pushed⟩
  | @collect t now due ht hdue =>
    have hnow := hI.threads t
    rw [ht] at hnow
    refine ⟨hI.goto (fun item hitem => ?_), hI.reserved, hI.pushed⟩
    rw [hdue] at hitem
    have hpass := due_iff.1 (PriorityQueue.popWhile_passes _ _ item hitem)
    exact Nat.le_trans (BitVec.le_def.1 hpass) hnow
  | leave => exact ⟨hI.goto trivial, hI.reserved, hI.pushed⟩
  | @lock t item items ht =>
    have hdue := hI.threads t
    rw [ht] at hdue
    exact ⟨hI.goto hdue, hI.reserved, hI.pushed⟩
  | @drop t item items ht =>
    have hdue := hI.threads t
    rw [ht] at hdue
    exact ⟨hI.goto (fun i hi => hdue i (List.mem_cons_of_mem item hi)), hI.reserved,
      hI.deliver (fun clock hclock => by cases hclock)⟩
  | @push t item items queues ht =>
    have hdue := hI.threads t
    rw [ht] at hdue
    exact ⟨hI.goto hdue, hI.reserved, hI.pushed⟩
  | tick hle => exact ⟨fun t => (hI.threads t).mono hle, hI.reserved, hI.pushed⟩
  | hold => exact ⟨hI.threads, hI.reserved, hI.pushed⟩

theorem ClockReach.dueInv (h : ClockReach PQ s) : DueInv s := by
  refine h.inv ⟨fun t => trivial, fun item hitem => ?_, fun d hd => ?_⟩
    (fun _ _ _ _ hI he hok => hI.step (timerStep_effect he) hok)
  · cases hitem
  · cases hd

theorem ClockReach.timerInv (h : ClockReach PQ s) : TimerInv PQ s :=
  TimerReach.timerInv (Reach.mono h (fun _ _ _ _ => trivial))

omit [DecidableEq Tid] in
theorem TimerInv.mem_reserved (hI : TimerInv PQ s) {d : Delivery Q F} (hd : d ∈ s.delivered) : d.item ∈ s.reserved := by
  have hpopped := hI.gate.delivered_first.subset (List.mem_map_of_mem hd)
  rw [← Multiset.mem_coe, ← hI.counted.items]
  exact Multiset.mem_add.2 (.inr (Multiset.mem_coe.2 hpopped))

/-- **When a timer is not early**: a job that has been pushed was pushed at its clock and its delay, as natural numbers,
or later, exactly if these do not run over 64 bits. -/
theorem fires_late_iff (h : ClockReach PQ s) : ∀ d ∈ s.delivered, ∀ clock, d.pushedAt = some clock →
    (d.item.jobData.reservedAt.toNat + d.item.jobData.tickAfter.toNat ≤ clock.toNat ↔
      d.item.jobData.reservedAt.toNat + d.item.jobData.tickAfter.toNat < 2 ^ 64) := by
  intro d hd clock hclock
  have hdue := h.dueInv.pushed d hd clock hclock
  have htick := h.dueInv.reserved d.item (h.timerInv.mem_reserved hd)
  have hlt := clock.isLt
  rw [htick, BitVec.toNat_add] at hdue
  constructor
  · intro hle
    exact Nat.lt_of_le_of_lt hle hlt
  · intro hfit
    rwa [Nat.mod_eq_of_lt hfit] at hdue

/-- A job with a delay of 3 at a clock of 5 is reserved, is due at a clock of 8 and is pushed at a clock of 9. -/
def dueAtEight : List (TimerAct Two Unit Nat) :=
  [.tick 5, .reserve .one 3 () ⟨[], 7⟩, .next .one, .tick 8, .distribute .two 8, .tick 9, .next .two, .next .two,
   .next .two, .pushNext .two false]

theorem fires_late_iff_eight : ∃ s, run (timerStep (sortedItems Unit Nat)) ReadsClock
      (timerState₀ (sortedItems Unit Nat)) dueAtEight = some s ∧
    ∃ d ∈ s.delivered, d.pushedAt = some 9 ∧ (5 + 3 ≤ 9 ↔ 5 + 3 < 2 ^ 64) := by
  obtain ⟨s, hrun, hr⟩ := reach_of_run (timerStep (sortedItems Unit Nat)) ReadsClock
    (timerState₀ (sortedItems Unit Nat)) dueAtEight (by decide)
  have hdelivered : (run (timerStep (sortedItems Unit Nat)) ReadsClock (timerState₀ (sortedItems Unit Nat))
      dueAtEight).map (fun s => s.delivered) = some [⟨⟨8, ⟨(), ⟨[], 7⟩, 5, 3⟩, 0⟩, some 9⟩] := by decide
  rw [hrun, Option.map_some, Option.some.injEq] at hdelivered
  have hd : ⟨⟨8, ⟨(), ⟨[], 7⟩, 5, 3⟩, 0⟩, some 9⟩ ∈ s.delivered := by
    rw [hdelivered]
    exact List.mem_cons_self
  exact ⟨s, hrun, _, hd, rfl, fires_late_iff hr _ hd 9 rfl⟩

/-- A job is reserved with the longest delay. -/
def longestDelay : List (TimerAct Two Unit Nat) :=
  [.tick 5, .reserve .one (-1) () ⟨[], 7⟩, .next .one, .distribute .two 5, .next .two, .next .two, .next .two,
   .pushNext .two false]

/-- **The longest delay is over at once**: the job is pushed while the clock still shows what it showed before. -/
theorem longest_delay_early : ∃ s, run (timerStep (sortedItems Unit Nat)) ReadsClock
      (timerState₀ (sortedItems Unit Nat)) longestDelay = some s ∧
    ∃ d ∈ s.delivered, d.pushedAt = some 5 ∧ d.item.jobData.tickAfter.toNat = 2 ^ 64 - 1 ∧
      ¬ d.item.jobData.reservedAt.toNat + d.item.jobData.tickAfter.toNat ≤ (5 : BitVec 64).toNat := by
  obtain ⟨s, hrun, -⟩ := reach_of_run (timerStep (sortedItems Unit Nat)) ReadsClock
    (timerState₀ (sortedItems Unit Nat)) longestDelay (by decide)
  have hdelivered : (run (timerStep (sortedItems Unit Nat)) ReadsClock (timerState₀ (sortedItems Unit Nat))
      longestDelay).map (fun s => s.delivered) = some [⟨⟨4, ⟨(), ⟨[], 7⟩, 5, -1⟩, 0⟩, some 5⟩] := by decide
  rw [hrun, Option.map_some, Option.some.injEq] at hdelivered
  refine ⟨s, hrun, ⟨⟨4, ⟨(), ⟨[], 7⟩, 5, -1⟩, 0⟩, some 5⟩, ?_, rfl, by decide, by decide⟩
  rw [hdelivered]
  exact List.mem_cons_self

end JobTimer
end Geon
