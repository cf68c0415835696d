import GeonServer.CheckCycle
/-!
# CycleReport — what is printed at `DEADLOCK_DETECTED`

`Called` has the calls of `Dfs` that `CheckCycle` comes to, from whichever root, and `Meets` the edges to an id that is
discovered and not finished.  At each of these the parents lead back along the calls `Dfs` is inside of
(`Called.inv`), so the loop that prints them ends at that id, and what is printed is a cycle (`cycle_report`).  Nothing
else makes `CheckCycle` crash (`crash_iff_meets`).
-/
namespace Geon

open Digraph Function

/-! ## Where the search comes to -/

/-- `Dfs(here)` at the beginning of its loop. -/
def DfsState.discover (s : DfsState) (here : Nat) : DfsState := { s with
  discoveredOrder := update s.discoveredOrder here s.discoveredCount
  discoveredCount := s.discoveredCount + 1 }

/-- The loop of a `Dfs(here)` that was called in `s` comes to `there` in `s'`. -/
def LoopAt (lockHistory : LockHistory) (lockCount fuel here : Nat) (s : DfsState) (there : Nat)
    (s' : DfsState) : Prop :=
  here < lockCount ∧ s.discoveredOrder here = -1 ∧ ∃ before after, lockHistory here = before ++ there :: after ∧
    before.foldlM (visit lockCount (dfs lockHistory lockCount fuel) here) (s.discover here) = .ok s'

/-- `CheckCycle` comes to `Dfs(here)` in the state `s`, inside the calls for the ids of the path. -/
inductive Called (lockHistory : LockHistory) (lockCount : Nat) : Nat → List Nat → Nat → DfsState → Prop
  | root {lockIds rest : List Nat} {lockId : Nat} {s : DfsState}
      (hids : List.range lockCount = lockIds ++ lockId :: rest)
      (hrun : lockIds.foldlM (fun s lockId => dfs lockHistory lockCount (lockCount + 1) lockId s) .new = .ok s) :
      Called lockHistory lockCount (lockCount + 1) [] lockId s
  | inner {fuel here there : Nat} {path : List Nat} {s s' : DfsState}
      (hcall : Called lockHistory lockCount (fuel + 1) path here s)
      (hloop : LoopAt lockHistory lockCount fuel here s there s') (hlt : there < lockCount)
      (hnew : s'.discoveredOrder there = -1) :
      Called lockHistory lockCount fuel (here :: path) there { s' with parent := update s'.parent there here }

/-- `Dfs` meets an edge `here -> there` in the state `s'`, `there` discovered earlier and not finished. -/
def Meets (lockHistory : LockHistory) (lockCount here there : Nat) (s' : DfsState) : Prop :=
  ∃ fuel path s, Called lockHistory lockCount (fuel + 1) path here s ∧
    LoopAt lockHistory lockCount fuel here s there s' ∧ s'.discoveredOrder there ≠ -1 ∧
    s'.discoveredOrder there < s'.discoveredOrder here ∧ s'.finished there = false

variable {lockHistory : LockHistory} {lockCount fuel here there : Nat} {s s' : DfsState} {path : List Nat}

theorem LoopAt.edge (h : LoopAt lockHistory lockCount fuel here s there s') : lockHistory.Edge here there := by
  obtain ⟨-, -, before, after, hhistory, -⟩ := h
  show there ∈ lockHistory here
  rw [hhistory]
  exact List.mem_append_right before List.mem_cons_self

/-! ## The path at each of them -/

/-- **The loop keeps to the path**: the rounds before leave it as it is. -/
theorem LoopAt.inv (hirrefl : ∀ a, ¬ lockHistory.Edge a a) (h : LoopAt lockHistory lockCount fuel here s there s')
    (hinv : DfsInv lockHistory lockCount s path) (hfuel : fuel + path.length = lockCount)
    (henters : Enters lockHistory s path here) : DfsInv lockHistory lockCount s' (here :: path) := by
  obtain ⟨hlt, hnew, before, after, hhistory, hrun⟩ := h
  have hends := foldlM_ends (f := visit lockCount (dfs lockHistory lockCount fuel) here) before (s.discover here)
    (fun s₁ x hx h₁ => visit_ends hirrefl h₁ (show x ∈ lockHistory here from hhistory ▸ List.mem_append_left _ hx)
      (fun s₂ h₂ hlt' => dfs_ends hirrefl fuel x s₂ (here :: path) h₂ (by rw [List.length_cons]; omega) hlt'))
    (hinv.discover hlt hnew (henters.top hnew))
  rw [hrun] at hends
  exact hends.1

/-- **The unfinished ids are the calls `Dfs` is inside of**, each with the next one out as its parent, whichever root it
has come from. -/
theorem Called.inv (hirrefl : ∀ a, ¬ lockHistory.Edge a a) (h : Called lockHistory lockCount fuel path here s) :
    DfsInv lockHistory lockCount s path ∧ fuel + path.length = lockCount + 1 ∧ Enters lockHistory s path here := by
  induction h with
  | @root lockIds rest lockId s hids hrun =>
    have hends := foldlM_ends (f := fun s lockId => dfs lockHistory lockCount (lockCount + 1) lockId s)
      lockIds .new (fun s₁ x hx h₁ => dfs_ends hirrefl (lockCount + 1) x s₁ [] h₁ (Nat.lt_succ_self _)
        (List.mem_range.1 (hids ▸ List.mem_append_left _ hx)) (enters_root s₁ x)) dfsInv_new
    rw [hrun] at hends
    exact ⟨hends.1, rfl, enters_root s lockId⟩
  | @inner fuel here there path s s' hcall hloop hlt hnew ih =>
    obtain ⟨hinv, hfuel, henters⟩ := ih
    have hset : DfsInv lockHistory lockCount { s' with parent := update s'.parent there here } (here :: path) :=
      (hloop.inv hirrefl hinv (by omega) henters).setParent hnew
    exact ⟨hset, by rw [List.length_cons]; omega, hset.enters hloop.edge hnew (update_self ..)⟩

theorem Called.loop_inv (hirrefl : ∀ a, ¬ lockHistory.Edge a a)
    (h : Called lockHistory lockCount (fuel + 1) path here s)
    (hloop : LoopAt lockHistory lockCount fuel here s there s') : DfsInv lockHistory lockCount s' (here :: path) := by
  obtain ⟨hinv, hfuel, henters⟩ := h.inv hirrefl
  exact hloop.inv hirrefl hinv (by omega) henters

/-! ## The crash -/

/-- A loop stops where the first of its rounds does. -/
theorem foldlM_eq_error {σ α ε : Type*} {f : σ → α → Except ε σ} {e : ε} : ∀ (xs : List α) (s : σ),
    xs.foldlM f s = .error e ↔
      ∃ before x after s', xs = before ++ x :: after ∧ before.foldlM f s = .ok s' ∧ f s' x = .error e
  | [], s => by
    apply iff_of_false (fun h => by cases h)
    rintro ⟨before, x, after, s', hxs, -⟩
    exact absurd hxs.symm (List.append_ne_nil_of_right_ne_nil _ (List.cons_ne_nil _ _))
  | y :: xs, s => by
    rw [List.foldlM_cons]
    constructor
    · intro h
      cases hy : f s y with
      | error e' =>
        rw [hy] at h
        cases h
        exact ⟨[], y, xs, s, rfl, rfl, hy⟩
      | ok s₁ =>
        rw [hy] at h
        obtain ⟨before, x, after, s', rfl, hrun, hx⟩ := (foldlM_eq_error xs s₁).1 h
        refine ⟨y :: before, x, after, s', rfl, ?_, hx⟩
        rw [List.foldlM_cons, hy]
        exact hrun
    · rintro ⟨before, x, after, s', hxs, hrun, hx⟩
      cases before with
      | nil =>
        obtain ⟨rfl, -⟩ := List.cons.inj hxs
        cases hrun
        rw [hx]
        rfl
      | cons z before =>
        obtain ⟨rfl, rfl⟩ := List.cons.inj hxs
        rw [List.foldlM_cons] at hrun
        cases hy : f s y with
        | error e' =>
          rw [hy] at hrun
          cases hrun
        | ok s₁ =>
          rw [hy] at hrun
          exact (foldlM_eq_error _ s₁).2 ⟨before, x, after, s', rfl, hrun, hx⟩

/-- `Dfs` stops where its loop does. -/
theorem dfs_eq_error {stop : DfsStop} (hlt : here < lockCount) (hnew : s.discoveredOrder here = -1) :
    dfs lockHistory lockCount (fuel + 1) here s = .error stop ↔
      ∃ there s', LoopAt lockHistory lockCount fuel here s there s' ∧
        visit lockCount (dfs lockHistory lockCount fuel) here s' there = .error stop := by
  have hloop : dfs lockHistory lockCount (fuel + 1) here s = .error stop ↔
      (lockHistory here).foldlM (visit lockCount (dfs lockHistory lockCount fuel) here) (s.discover here) =
        .error stop := by
    rw [dfs, if_neg (Nat.not_le.2 hlt), if_neg (not_not.2 hnew)]
    show (do
      let s' ← (lockHistory here).foldlM (visit lockCount (dfs lockHistory lockCount fuel) here) (s.discover here)
      Except.ok _) = _ ↔ _
    cases (lockHistory here).foldlM (visit lockCount (dfs lockHistory lockCount fuel) here) (s.discover here) with
    | error stop' => exact Iff.rfl
    | ok s' => exact iff_of_false (fun h => by cases h) (fun h => by cases h)
  rw [hloop, foldlM_eq_error]
  constructor
  · rintro ⟨before, there, after, s', hhistory, hrun, hstop⟩
    exact ⟨there, s', ⟨hlt, hnew, before, after, hhistory, hrun⟩, hstop⟩
  · rintro ⟨there, s', ⟨-, -, before, after, hhistory, hrun⟩, hstop⟩
    exact ⟨before, there, after, s', hhistory, hrun, hstop⟩

/-- **A call that stops stops everything.** -/
theorem Called.stops {stop : DfsStop} (h : Called lockHistory lockCount fuel path here s)
    (hstop : dfs lockHistory lockCount fuel here s = .error stop) : checkCycle lockHistory lockCount = .error stop := by
  induction h with
  | root hids hrun => exact (foldlM_eq_error _ _).2 ⟨_, _, _, _, hids, hrun, hstop⟩
  | inner hcall hloop hlt hnew ih =>
    refine ih ((dfs_eq_error hloop.1 hloop.2.1).2 ⟨_, _, hloop, ?_⟩)
    rw [visit, if_neg (Nat.not_le.2 hlt), if_pos hnew]
    exact hstop

/-- What `Dfs` does at such an edge. -/
theorem Meets.stops {printed : List (Nat × Nat)} (h : Meets lockHistory lockCount here there s)
    (hlt : there < lockCount) (hprinted : printPath s.parent there lockCount here = some printed) :
    checkCycle lockHistory lockCount = .error (.crash ((here, there) :: printed)) := by
  obtain ⟨fuel, path, s₀, hcall, hloop, hold, hearlier, hfin⟩ := h
  refine hcall.stops ((dfs_eq_error hloop.1 hloop.2.1).2 ⟨there, s, hloop, ?_⟩)
  rw [visit, if_neg (Nat.not_le.2 hlt), if_neg hold, if_neg (by omega), if_pos hfin, hprinted]

/-! ## The report -/

theorem printPath_parent {parent : Nat → Int} : ∀ (fuel now : Nat) (printed : List (Nat × Nat)),
    printPath parent there fuel now = some printed → ∀ line ∈ printed, parent line.2 = line.1
  | 0, _, _, h => by cases h
  | fuel + 1, now, printed, h => by
    rw [printPath] at h
    split at h
    · cases h
    rename_i hpos
    have hline : parent now = ((parent now).toNat : Int) := (Int.toNat_of_nonneg (Int.not_lt.1 hpos)).symm
    simp only at h
    split at h
    · cases h
      intro line hmem
      rw [List.mem_singleton.1 hmem]
      exact hline
    · obtain ⟨rest, hrest, rfl⟩ := Option.map_eq_some_iff.1 h
      intro line hmem
      rcases List.mem_cons.1 hmem with rfl | hmem
      · exact hline
      · exact printPath_parent fuel _ rest hrest line hmem

theorem PrintsBack.edges {now : Nat} {printed : List (Nat × Nat)} (h : PrintsBack lockHistory there now printed) :
    ∀ line ∈ printed, lockHistory.Edge line.1 line.2 := by
  induction h with
  | last he => exact List.forall_mem_singleton.2 he
  | line he _ ih => exact List.forall_mem_cons.2 ⟨he, ih⟩

/-- Between a line that begins at `now` and one that ends at `there`. -/
theorem PrintsBack.chain {now : Nat} {printed : List (Nat × Nat)} (h : PrintsBack lockHistory there now printed)
    {line line' : Nat × Nat} (hnow : line.1 = now) (hthere : line'.2 = there) :
    (line :: (printed ++ [line'])).IsChain (fun p q => p.1 = q.2) := by
  induction h generalizing line with
  | last => exact .cons_cons hnow (.cons_cons hthere.symm (.singleton _))
  | line _ _ ih => exact .cons_cons hnow (ih rfl)

theorem PrintsBack.ends {now : Nat} {printed : List (Nat × Nat)} (h : PrintsBack lockHistory there now printed) :
    ∃ line, printed.getLast? = some line ∧ line.1 = there := by
  induction h with
  | last => exact ⟨_, rfl, rfl⟩
  | line _ _ ih =>
    obtain ⟨line, hlast, hthere⟩ := ih
    exact ⟨line, by rw [List.getLast?_cons, hlast, Option.getD_some], hthere⟩

theorem PrintsBack.isCycle {printed : List (Nat × Nat)} (h : PrintsBack lockHistory there here printed)
    (hedge : lockHistory.Edge here there) (hnodup : (there :: printed.map Prod.snd).Nodup) :
    IsCycle lockHistory.Edge ((here, there) :: printed) where
  rel := List.forall_mem_cons.2 ⟨hedge, h.edges⟩
  ne_nil := List.cons_ne_nil _ _
  chain := (Cycle.chain_coe_cons ..).2 (h.chain rfl rfl)
  nodup := hnodup

/-- **The cycle report**: whenever `Dfs` meets an edge to an id discovered earlier and not finished, the loop that
follows `_parent` ends at that id, having read it of discovered ids with a parent only, and the lines printed before the
crash are a cycle of the history. -/
theorem cycle_report (hirrefl : ∀ lockId, ¬ lockHistory.Edge lockId lockId)
    (h : Meets lockHistory lockCount here there s) :
    ∃ printed, printPath s.parent there lockCount here = some printed ∧
      (∀ line ∈ printed, line.2 < lockCount ∧ s.discoveredOrder line.2 ≠ -1 ∧ s.parent line.2 = line.1) ∧
      (∃ line, printed.getLast? = some line ∧ line.1 = there) ∧
      IsCycle lockHistory.Edge ((here, there) :: printed) ∧
      checkCycle lockHistory lockCount = .error (.crash ((here, there) :: printed)) := by
  have ⟨fuel, path, s₀, hcall, hloop, hold, _, hfin⟩ := h
  have hinv := hcall.loop_inv hirrefl hloop
  have hmem := hinv.mem_path hirrefl hloop.edge hold hfin
  obtain ⟨printed, hprinted, hback, hprefix⟩ := hinv.prints hmem
  refine ⟨printed, hprinted, fun line hline => ?_, hback.ends, hback.isCycle hloop.edge ?_,
    h.stops (hinv.bound there (List.mem_cons_of_mem _ hmem)) hprinted⟩
  · have hpath : line.2 ∈ here :: path :=
      hprefix.subset (List.mem_append_left _ (List.mem_map_of_mem hline))
    exact ⟨hinv.bound _ hpath, ((hinv.onPath _).1 hpath).1, printPath_parent _ _ _ hprinted line hline⟩
  · apply (List.perm_append_singleton ..).nodup_iff.1
    exact hinv.nodup.sublist hprefix.sublist

/-- Two roots: lock 0 is finished when the search comes to 1, and 1 and 2 are taken in both orders. -/
def crossed : LockHistory
  | 1 => [0, 2]
  | 2 => [1]
  | _ => []

theorem cycle_report_crossed : ∃ s printed, Meets crossed 3 2 1 s ∧ printPath s.parent 1 3 2 = some printed ∧
    IsCycle crossed.Edge ((2, 1) :: printed) ∧ checkCycle crossed 3 = .error (.crash ((2, 1) :: printed)) := by
  have hirrefl : ∀ lockId, ¬ crossed.Edge lockId lockId := by
    intro lockId hself
    unfold LockHistory.Edge crossed at hself
    split at hself <;> simp at hself
  have hone : Called crossed 3 4 [] 1 _ := .root (show List.range 3 = [0] ++ 1 :: [2] from rfl) rfl
  have htwo : Called crossed 3 3 [1] 2 _ :=
    hone.inner (show LoopAt crossed 3 3 1 _ 2 _ from ⟨by decide, rfl, [0], [], rfl, rfl⟩) (by decide) rfl
  have hmeets : Meets crossed 3 2 1 _ :=
    ⟨2, [1], _, htwo, ⟨by decide, rfl, [], [], rfl, rfl⟩, by decide, by decide, by decide⟩
  obtain ⟨printed, hprinted, -, -, hcycle, hcrash⟩ := cycle_report hirrefl hmeets
  exact ⟨_, printed, hmeets, hprinted, hcycle, hcrash⟩

/-- **Nothing else makes the search crash.** -/
theorem Called.crash_cases (hirrefl : ∀ lockId, ¬ lockHistory.Edge lockId lockId) {lines : List (Nat × Nat)} :
    ∀ {fuel here : Nat} {path : List Nat} {s : DfsState}, Called lockHistory lockCount fuel path here s →
      dfs lockHistory lockCount fuel here s = .error (.crash lines) → ∃ here there s printed,
        Meets lockHistory lockCount here there s ∧ printPath s.parent there lockCount here = some printed ∧
          lines = (here, there) :: printed
  | 0, _, _, _, _, hcrash => by cases hcrash
  | fuel + 1, here, path, s, h, hcrash => by
    have hlt : here < lockCount := by
      by_contra hle
      rw [dfs, if_pos (Nat.not_lt.1 hle)] at hcrash
      cases hcrash
    have hnew : s.discoveredOrder here = -1 := by
      by_contra hold
      rw [dfs, if_neg (Nat.not_le.2 hlt), if_pos hold] at hcrash
      cases hcrash
    obtain ⟨there, s', hloop, hcrash⟩ := (dfs_eq_error hlt hnew).1 hcrash
    have hinv := h.loop_inv hirrefl hloop
    rw [visit] at hcrash
    split at hcrash
    · cases hcrash
    rename_i hlt'
    split at hcrash
    · exact (h.inner hloop (Nat.not_le.1 hlt') ‹_›).crash_cases hirrefl hcrash
    rename_i hold
    split at hcrash
    · cases hcrash
    split at hcrash
    · rename_i hfin
      -- unfinished, so a call `Dfs` is inside of, which was discovered earlier
      have hmem := hinv.mem_path hirrefl hloop.edge hold hfin
      have hearlier := (List.pairwise_cons.1 hinv.later).1 there hmem
      obtain ⟨printed, hprinted, -⟩ := hinv.prints hmem
      rw [hprinted] at hcrash
      cases hcrash
      exact ⟨here, there, s', printed, ⟨fuel, path, s, h, hloop, hold, hearlier, hfin⟩, hprinted, rfl⟩
    · cases hcrash

theorem crash_iff_meets (hirrefl : ∀ lockId, ¬ lockHistory.Edge lockId lockId) (lines : List (Nat × Nat)) :
    checkCycle lockHistory lockCount = .error (.crash lines) ↔ ∃ here there s printed,
      Meets lockHistory lockCount here there s ∧ printPath s.parent there lockCount here = some printed ∧
        lines = (here, there) :: printed := by
  constructor
  · intro h
    obtain ⟨lockIds, lockId, rest, s, hids, hrun, hcrash⟩ := (foldlM_eq_error _ _).1 h
    exact (Called.root hids hrun).crash_cases hirrefl hcrash
  · rintro ⟨here, there, s, printed, h, hprinted, rfl⟩
    have ⟨fuel, path, s₀, hcall, hloop, hold, _, hfin⟩ := h
    have hinv := hcall.loop_inv hirrefl hloop
    exact h.stops (hinv.bound there ((hinv.onPath there).2 ⟨hold, hfin⟩)) hprinted

end Geon
