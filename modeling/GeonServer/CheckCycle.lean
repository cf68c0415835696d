import GeonServer.DeadLockProfiler
import GeonServer.Digraph
import Mathlib.Data.Finset.Card
import Mathlib.Data.Finset.Range
import Mathlib.Data.List.Chain
/-!
# CheckCycle — the depth-first search finds a cycle exactly when there is one

While `Dfs` runs, the ids that are discovered and not finished are the path it has come down (`DfsInv.onPath`), and what
is finished leads to no cycle (`DfsInv.ends`).  So a search that comes to its end has seen that there is none, and one
that stops has printed one (`checkCycle_spec`); it never runs out of fuel or of its vectors.
-/
namespace Geon

open Digraph Function Relation

/-- The second id was pushed on top of the first. -/
def LockHistory.Edge (lockHistory : LockHistory) (a b : Nat) : Prop := b ∈ lockHistory a

/-- The ids are below `lockCount` and none was pushed on itself. -/
structure LockHistory.Wf (lockHistory : LockHistory) (lockCount : Nat) : Prop where
  left : ∀ a b, lockHistory.Edge a b → a < lockCount
  right : ∀ a b, lockHistory.Edge a b → b < lockCount
  irrefl : ∀ a, ¬ lockHistory.Edge a a

/-- **The invariant of the search**, with the path it has come down, the innermost id first. -/
structure DfsInv (lockHistory : LockHistory) (lockCount : Nat) (s : DfsState) (path : List Nat) : Prop where
  count : ∀ x, s.discoveredOrder x < s.discoveredCount
  order : ∀ x, -1 ≤ s.discoveredOrder x
  onPath : ∀ x, x ∈ path ↔ s.discoveredOrder x ≠ -1 ∧ s.finished x = false
  ends : ∀ x, s.finished x = true → s.discoveredOrder x ≠ -1 ∧ Ends lockHistory.Edge x
  later : path.Pairwise (fun a b => s.discoveredOrder b < s.discoveredOrder a)
  chain : path.IsChain (fun a b => s.parent a = b ∧ lockHistory.Edge b a)
  bound : ∀ x ∈ path, x < lockCount

/-- The lines that lead back from an id to `there`. -/
inductive PrintsBack (lockHistory : LockHistory) (there : Nat) : Nat → List (Nat × Nat) → Prop
  | last {now : Nat} : lockHistory.Edge there now → PrintsBack lockHistory there now [(there, now)]
  | line {next now : Nat} {printed : List (Nat × Nat)} : lockHistory.Edge next now →
      PrintsBack lockHistory there next printed → PrintsBack lockHistory there now ((next, now) :: printed)

/-- The lines are a cycle of the history. -/
def PrintsCycle (lockHistory : LockHistory) (printed : List (Nat × Nat)) : Prop :=
  ∃ here there back, printed = (here, there) :: back ∧ lockHistory.Edge here there ∧
    PrintsBack lockHistory there here back

variable {lockHistory : LockHistory} {lockCount : Nat} {s : DfsState} {path : List Nat} {here there : Nat}

theorem PrintsBack.reaches {now : Nat} {printed : List (Nat × Nat)} (h : PrintsBack lockHistory there now printed) :
    TransGen lockHistory.Edge there now := by
  induction h with
  | last he => exact .single he
  | line he _ ih => exact ih.tail he

theorem PrintsCycle.not_acyclic {printed : List (Nat × Nat)} (h : PrintsCycle lockHistory printed) :
    ¬ Acyclic lockHistory.Edge := by
  obtain ⟨here, there, back, -, he, hb⟩ := h
  exact fun hacyclic => hacyclic here (.head he hb.reaches)

/-! ## The path -/

theorem dfsInv_new : DfsInv lockHistory lockCount .new [] where
  count x := by simp [DfsState.new]
  order x := by simp [DfsState.new]
  onPath x := by simp [DfsState.new]
  ends x h := by simp [DfsState.new] at h
  later := .nil
  chain := .nil
  bound x hx := by cases hx

theorem DfsInv.nodup (h : DfsInv lockHistory lockCount s path) : path.Nodup :=
  h.later.imp (fun hlt hab => by rw [hab] at hlt; exact absurd hlt (lt_irrefl _))

theorem DfsInv.length_le (h : DfsInv lockHistory lockCount s path) : path.length ≤ lockCount := by
  rw [← List.toFinset_card_of_nodup h.nodup]
  have hsub : path.toFinset ⊆ Finset.range lockCount := fun x hx =>
    Finset.mem_range.2 (h.bound x (List.mem_toFinset.1 hx))
  have := Finset.card_le_card hsub
  rwa [Finset.card_range] at this

theorem DfsInv.discover (h : DfsInv lockHistory lockCount s path) (hlt : here < lockCount)
    (hnew : s.discoveredOrder here = -1) (hhead : ∀ top ∈ path.head?, s.parent here = top ∧ lockHistory.Edge top here) :
    DfsInv lockHistory lockCount { s with
      discoveredOrder := update s.discoveredOrder here s.discoveredCount
      discoveredCount := s.discoveredCount + 1 } (here :: path) := by
  have hpath : here ∉ path := fun hx => ((h.onPath here).1 hx).1 hnew
  have hfin : s.finished here = false := by
    rw [← Bool.not_eq_true]
    exact fun hf => (h.ends here hf).1 hnew
  have hother : ∀ x ∈ path, update s.discoveredOrder here (s.discoveredCount : Int) x = s.discoveredOrder x :=
    fun x hx => update_of_ne (fun hxh : x = here => hpath (hxh ▸ hx)) ..
  refine ⟨fun x => ?_, fun x => ?_, fun x => ?_, fun x hx => ?_, ?_, ?_, ?_⟩
  · by_cases hxh : x = here
    · subst hxh
      simp
    · have := h.count x
      simp only [update_of_ne hxh]
      omega
  · by_cases hxh : x = here
    · subst hxh
      simp
    · simpa only [update_of_ne hxh] using h.order x
  · by_cases hxh : x = here
    · subst hxh
      simp [hfin]
    · simp only [List.mem_cons, hxh, false_or, update_of_ne hxh]
      exact h.onPath x
  · obtain ⟨hd, he⟩ := h.ends x hx
    refine ⟨?_, he⟩
    by_cases hxh : x = here
    · subst hxh
      exact absurd hnew hd
    · simpa only [update_of_ne hxh] using hd
  · refine List.pairwise_cons.2 ⟨fun x hx => ?_, ?_⟩
    · simp only [update_self]
      rw [hother x hx]
      exact h.count x
    · refine h.later.imp_of_mem (fun ha hb hlt => ?_)
      simp only
      rw [hother _ ha, hother _ hb]
      exact hlt
  · cases path with
    | nil => exact .singleton _
    | cons top path => exact .cons_cons (hhead top rfl) h.chain
  · intro x hx
    rcases List.mem_cons.1 hx with rfl | hx
    · exact hlt
    · exact h.bound x hx

theorem DfsInv.setParent (h : DfsInv lockHistory lockCount s path) (hnew : s.discoveredOrder there = -1) :
    DfsInv lockHistory lockCount { s with parent := update s.parent there here } path := by
  have hpath : there ∉ path := fun hx => ((h.onPath there).1 hx).1 hnew
  refine ⟨h.count, h.order, h.onPath, h.ends, h.later, ?_, h.bound⟩
  refine h.chain.imp_of_mem_imp (fun a b ha _ hab => ⟨?_, hab.2⟩)
  have hne : a ≠ there := fun hat => hpath (hat ▸ ha)
  simp only [update_of_ne hne]
  exact hab.1

theorem DfsInv.finish (h : DfsInv lockHistory lockCount s (here :: path))
    (hall : ∀ x ∈ lockHistory here, s.finished x = true) :
    DfsInv lockHistory lockCount { s with finished := update s.finished here true } path := by
  have hpath : here ∉ path := (List.nodup_cons.1 h.nodup).1
  refine ⟨h.count, h.order, fun x => ?_, fun x hx => ?_, (List.pairwise_cons.1 h.later).2, h.chain.tail, fun x hx =>
    h.bound x (List.mem_cons_of_mem _ hx)⟩
  · by_cases hxh : x = here
    · subst hxh
      simp [hpath]
    · have := h.onPath x
      simp only [List.mem_cons, hxh, false_or] at this
      simpa only [update_of_ne hxh] using this
  · by_cases hxh : x = here
    · subst hxh
      exact ⟨((h.onPath x).1 List.mem_cons_self).1, .intro (fun y hy => (h.ends y (hall y hy)).2)⟩
    · simp only [update_of_ne hxh] at hx
      exact h.ends x hx

/-- **The printing comes to its end**: the parents lead back along the path. -/
theorem printPath_spec : ∀ (path : List Nat) (fuel now : Nat), path.length ≤ fuel →
    (now :: path).IsChain (fun a b => s.parent a = b ∧ lockHistory.Edge b a) → there ∈ path →
      ∃ printed, printPath s.parent there fuel now = some printed ∧ PrintsBack lockHistory there now printed ∧
        printed.map Prod.snd ++ [there] <+: now :: path
  | [], _, _, _, _, h => by cases h
  | next :: path, 0, _, hlen, _, _ => by cases hlen
  | next :: path, fuel + 1, now, hlen, hchain, h => by
    obtain ⟨⟨hparent, hedge⟩, hrest⟩ := List.isChain_cons_cons.1 hchain
    have hnat : (s.parent now).toNat = next := by rw [hparent, Int.toNat_natCast]
    have hpos : ¬ s.parent now < 0 := by omega
    simp only [printPath, if_neg hpos, hnat]
    by_cases hnt : next = there
    · subst hnt
      exact ⟨_, if_pos rfl, .last hedge, path, rfl⟩
    · obtain ⟨printed, hprinted, hback, hprefix⟩ := printPath_spec path fuel next (Nat.le_of_succ_le_succ hlen) hrest
        (List.mem_of_ne_of_mem (Ne.symm hnt) h)
      rw [if_neg hnt, hprinted]
      exact ⟨_, rfl, .line hedge hback, List.cons_prefix_cons.2 ⟨rfl, hprefix⟩⟩

/-- **What `Dfs` meets unfinished is on its path**, below `here` itself. -/
theorem DfsInv.mem_path (h : DfsInv lockHistory lockCount s (here :: path)) (hirrefl : ∀ a, ¬ lockHistory.Edge a a)
    (hedge : lockHistory.Edge here there) (hold : s.discoveredOrder there ≠ -1) (hfin : s.finished there = false) :
    there ∈ path := by
  apply List.mem_of_ne_of_mem _ ((h.onPath there).2 ⟨hold, hfin⟩)
  rintro rfl
  exact hirrefl there hedge

/-- The printing leads back to it. -/
theorem DfsInv.prints (h : DfsInv lockHistory lockCount s (here :: path)) (hmem : there ∈ path) :
    ∃ printed, printPath s.parent there lockCount here = some printed ∧ PrintsBack lockHistory there here printed ∧
      printed.map Prod.snd ++ [there] <+: here :: path := by
  have hlen := h.length_le
  rw [List.length_cons] at hlen
  exact printPath_spec path lockCount here (Nat.le_of_succ_le hlen) h.chain hmem

/-! ## The search -/

/-- What the search of an id comes to: the id is finished and the path is as it was, or a cycle has been printed. -/
def DfsDone (lockHistory : LockHistory) (lockCount : Nat) (s : DfsState) (path : List Nat) (ids : List Nat) :
    Except DfsStop DfsState → Prop
  | .ok s' => DfsInv lockHistory lockCount s' path ∧ (∀ x, s.finished x = true → s'.finished x = true) ∧
      ∀ x ∈ ids, s'.finished x = true
  | .error (.crash printed) => PrintsCycle lockHistory printed
  | .error _ => False

/-- What it comes to when the history may lead out of the vectors. -/
def DfsEnds (lockHistory : LockHistory) (lockCount : Nat) (s : DfsState) (path : List Nat) (ids : List Nat) :
    Except DfsStop DfsState → Prop
  | .ok s' => DfsDone lockHistory lockCount s path ids (.ok s')
  | .error stop => (∃ printed, stop = .crash printed ∧ PrintsCycle lockHistory printed) ∨
      stop = .undefined ∧ ∃ a b, lockHistory.Edge a b ∧ lockCount ≤ b

theorem DfsEnds.done {ids : List Nat} {r : Except DfsStop DfsState} (h : DfsEnds lockHistory lockCount s path ids r)
    (hw : lockHistory.Wf lockCount) : DfsDone lockHistory lockCount s path ids r := by
  cases r with
  | ok s' => exact h
  | error stop =>
    rcases h with ⟨printed, rfl, hprinted⟩ | ⟨-, a, b, hab, hle⟩
    · exact hprinted
    · exact absurd (hw.right a b hab) (Nat.not_lt.2 hle)

/-- `Dfs(here)` may be called: `here` comes from the top of the path if it is new, and is not on it. -/
structure Enters (lockHistory : LockHistory) (s : DfsState) (path : List Nat) (here : Nat) : Prop where
  notMem : here ∉ path
  top : s.discoveredOrder here = -1 → ∀ top ∈ path.head?, s.parent here = top ∧ lockHistory.Edge top here

theorem enters_root (s : DfsState) (lockId : Nat) : Enters lockHistory s [] lockId :=
  ⟨List.not_mem_nil, fun _ _ htop => by cases htop⟩

theorem DfsInv.enters (h : DfsInv lockHistory lockCount s (here :: path)) (hedge : lockHistory.Edge here there)
    (hnew : s.discoveredOrder there = -1) (hparent : s.parent there = here) :
    Enters lockHistory s (here :: path) there where
  notMem hmem := ((h.onPath there).1 hmem).1 hnew
  top _ top htop := by
    rw [List.head?_cons, Option.mem_some_iff] at htop
    exact htop ▸ ⟨hparent, hedge⟩

/-- **One round of the loop**: the id is searched, or was before, or is on the path. -/
theorem visit_ends (hirrefl : ∀ a, ¬ lockHistory.Edge a a) (h : DfsInv lockHistory lockCount s (here :: path))
    (hedge : lockHistory.Edge here there) {dfs : Nat → DfsState → Except DfsStop DfsState}
    (hdfs : ∀ s₁, DfsInv lockHistory lockCount s₁ (here :: path) → there < lockCount →
      Enters lockHistory s₁ (here :: path) there →
        DfsEnds lockHistory lockCount s₁ (here :: path) [there] (dfs there s₁)) :
    DfsEnds lockHistory lockCount s (here :: path) [there] (visit lockCount dfs here s there) := by
  unfold visit
  split
  · rename_i hle
    exact .inr ⟨rfl, here, there, hedge, hle⟩
  rename_i hlt
  split
  · rename_i hnew
    have hset : DfsInv lockHistory lockCount { s with parent := update s.parent there here } (here :: path) :=
      h.setParent hnew
    exact hdfs _ hset (Nat.not_le.1 hlt) (hset.enters hedge hnew (update_self ..))
  rename_i hnew
  split
  · -- discovered after `here`: on the path nothing is
    rename_i hlater
    refine ⟨h, fun _ hx => hx, fun x hx => ?_⟩
    rw [List.mem_singleton.1 hx, ← Bool.not_eq_false]
    intro hfin
    rcases List.mem_cons.1 ((h.onPath there).2 ⟨hnew, hfin⟩) with rfl | hmem
    · exact absurd hlater (lt_irrefl _)
    · have := (List.pairwise_cons.1 h.later).1 there hmem
      omega
  split
  · rename_i hfin
    obtain ⟨printed, hprinted, hback, -⟩ := h.prints (h.mem_path hirrefl hedge hnew hfin)
    rw [hprinted]
    exact .inl ⟨_, rfl, here, there, printed, rfl, hedge, hback⟩
  · rename_i hfin
    exact ⟨h, fun _ hx => hx, fun x hx => by rw [List.mem_singleton.1 hx]; exact Bool.eq_true_of_not_eq_false hfin⟩

/-- The loop of `Dfs`, and that of `CheckCycle`: the rounds one after the other. -/
theorem foldlM_ends {f : DfsState → Nat → Except DfsStop DfsState} : ∀ (ids : List Nat) (s : DfsState),
    (∀ s₁ x, x ∈ ids → DfsInv lockHistory lockCount s₁ path → DfsEnds lockHistory lockCount s₁ path [x] (f s₁ x)) →
    DfsInv lockHistory lockCount s path → DfsEnds lockHistory lockCount s path ids (ids.foldlM f s)
  | [], s, _, h => ⟨h, fun _ hx => hx, fun _ hx => by cases hx⟩
  | x :: ids, s, hf, h => by
    have hx := hf s x List.mem_cons_self h
    rw [List.foldlM_cons]
    cases hfx : f s x with
    | error stop =>
      rw [hfx] at hx
      exact hx
    | ok s₁ =>
      rw [hfx] at hx
      obtain ⟨h₁, hkept, hfin⟩ := hx
      have hrest := foldlM_ends ids s₁ (fun s₂ y hy => hf s₂ y (List.mem_cons_of_mem _ hy)) h₁
      show DfsEnds lockHistory lockCount s path (x :: ids) (ids.foldlM f s₁)
      cases hl : ids.foldlM f s₁ with
      | error stop =>
        rw [hl] at hrest
        exact hrest
      | ok s₂ =>
        rw [hl] at hrest
        obtain ⟨h₂, hkept₂, hfin₂⟩ := hrest
        refine ⟨h₂, fun y hy => hkept₂ y (hkept y hy), fun y hy => ?_⟩
        rcases List.mem_cons.1 hy with rfl | hy
        · exact hkept₂ y (hfin y List.mem_cons_self)
        · exact hfin₂ y hy

/-- **`Dfs`**, by induction on the fuel: the path grows by one id with each call inside a call. -/
theorem dfs_ends (hirrefl : ∀ a, ¬ lockHistory.Edge a a) : ∀ (fuel here : Nat) (s : DfsState) (path : List Nat),
    DfsInv lockHistory lockCount s path → lockCount < fuel + path.length → here < lockCount →
      Enters lockHistory s path here →
        DfsEnds lockHistory lockCount s path [here] (dfs lockHistory lockCount fuel here s)
  | 0, _, _, _, h, hfuel, _, _ => by
    have := h.length_le
    omega
  | fuel + 1, here, s, path, h, hfuel, hlt, henters => by
    rw [dfs, if_neg (Nat.not_le.2 hlt)]
    split
    · -- discovered, and not on the path
      rename_i hold
      refine ⟨h, fun _ hx => hx, fun x hx => ?_⟩
      rw [List.mem_singleton.1 hx, ← Bool.not_eq_false]
      exact fun hfin => henters.notMem ((h.onPath here).2 ⟨hold, hfin⟩)
    · rename_i hold
      rw [ne_eq, not_not] at hold
      have hdisc := h.discover hlt hold (henters.top hold)
      have hloop := foldlM_ends (f := visit lockCount (dfs lockHistory lockCount fuel) here) (lockHistory here) _
        (fun s₁ there hedge h₁ => visit_ends hirrefl h₁ hedge (fun s₂ h₂ hlt' =>
          dfs_ends hirrefl fuel there s₂ (here :: path) h₂ (by rw [List.length_cons]; omega) hlt')) hdisc
      cases hl : (lockHistory here).foldlM (visit lockCount (dfs lockHistory lockCount fuel) here) { s with
          discoveredOrder := update s.discoveredOrder here s.discoveredCount
          discoveredCount := s.discoveredCount + 1 } with
      | error stop =>
        rw [hl] at hloop
        exact hloop
      | ok s' =>
        rw [hl] at hloop
        obtain ⟨h', hkept, hfin⟩ := hloop
        refine ⟨h'.finish hfin, fun x hx => ?_, fun x hx => ?_⟩
        · by_cases hxh : x = here
          · simp [hxh]
          · simpa only [update_of_ne hxh] using hkept x hx
        · rw [List.mem_singleton.1 hx]
          exact update_self ..

/-- What `CheckCycle` finds. -/
def CycleChecked (lockHistory : LockHistory) : Except DfsStop DfsState → Prop
  | .ok _ => Acyclic lockHistory.Edge
  | .error (.crash printed) => PrintsCycle lockHistory printed
  | .error _ => False

/-- **`CheckCycle` is a decision**: it returns when the history has no cycle, and otherwise crashes having printed one. -/
theorem checkCycle_spec (hw : lockHistory.Wf lockCount) : CycleChecked lockHistory (checkCycle lockHistory lockCount) := by
  have h := (foldlM_ends (f := fun s lockId => dfs lockHistory lockCount (lockCount + 1) lockId s) (List.range lockCount)
    .new (fun s₁ x hx h₁ => dfs_ends hw.irrefl (lockCount + 1) x s₁ [] h₁ (Nat.lt_succ_self _) (List.mem_range.1 hx)
      (enters_root s₁ x)) dfsInv_new).done hw
  unfold checkCycle
  cases hc : (List.range lockCount).foldlM (fun s lockId => dfs lockHistory lockCount (lockCount + 1) lockId s)
      DfsState.new with
  | error stop =>
    rw [hc] at h
    cases stop with
    | crash printed => exact h
    | undefined | outOfFuel => exact h
  | ok s =>
    rw [hc] at h
    obtain ⟨hinv, -, hfin⟩ := h
    exact acyclic_of_ends (fun a b hab => (hinv.ends a (hfin a (List.mem_range.2 (hw.left a b hab)))).2)

/-- **Cycle detection is exact**: whatever the history, `CheckCycle` comes to an end inside its vectors, and it ends at
`DEADLOCK_DETECTED` exactly when the history has a cycle. -/
theorem cycle_detection_exact (hw : lockHistory.Wf lockCount) :
    ((∃ s, checkCycle lockHistory lockCount = .ok s) ∨
      ∃ printed, checkCycle lockHistory lockCount = .error (.crash printed)) ∧
    ((∃ printed, checkCycle lockHistory lockCount = .error (.crash printed)) ↔
      ∃ lockId, TransGen lockHistory.Edge lockId lockId) := by
  have h := checkCycle_spec hw
  cases hc : checkCycle lockHistory lockCount with
  | ok s =>
    rw [hc] at h
    refine ⟨.inl ⟨s, rfl⟩, iff_of_false (fun ⟨_, hcrash⟩ => by cases hcrash) ?_⟩
    rintro ⟨lockId, hcycle⟩
    exact h lockId hcycle
  | error stop =>
    rw [hc] at h
    cases stop with
    | crash printed =>
      refine ⟨.inr ⟨printed, rfl⟩, iff_of_true ⟨printed, rfl⟩ ?_⟩
      by_contra hn
      exact h.not_acyclic (fun lockId hcycle => hn ⟨lockId, hcycle⟩)
    | undefined | outOfFuel => exact h.elim

/-- Three locks, each taken with the one before it held. -/
def threeLocks : LockHistory := fun lockId => if lockId < 3 then [(lockId + 1) % 3] else []

theorem cycle_detection_exact_three : ∃ printed, checkCycle threeLocks 3 = .error (.crash printed) := by
  have hedge : ∀ a b, threeLocks.Edge a b → a < 3 ∧ b = (a + 1) % 3 := by
    intro a b hab
    unfold LockHistory.Edge threeLocks at hab
    split at hab
    · exact ⟨‹_›, List.mem_singleton.1 hab⟩
    · cases hab
  refine (cycle_detection_exact ⟨fun a b hab => (hedge a b hab).1, fun a b hab => ?_, fun a haa => ?_⟩).2.2 ⟨0, ?_⟩
  · have := (hedge a b hab).2
    omega
  · have := hedge a a haa
    omega
  · exact .head (b := 1) (List.mem_singleton.2 rfl) (.head (b := 2) (List.mem_singleton.2 rfl)
      (.single (List.mem_singleton.2 rfl)))

end Geon
