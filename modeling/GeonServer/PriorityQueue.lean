import Mathlib.Algebra.Order.Group.Multiset
import Mathlib.Data.Multiset.Filter
import Mathlib.Data.List.Sort
/-!
# PriorityQueue — queues that give back a greatest element first

What is asked of a priority queue is the bag of its elements, and that its top is one of them with none above it; which
of two elements that are alike comes first is left open.  Popping as long as the top passes a test takes out what
passes it, no element before a greater one (`popWhile_pairwise`, `takeOut_fst`).
-/

/-- Priority queues in `Heap` of elements of `α`, a greatest one by `lt` at the top. -/
structure PriorityQueue (Heap α : Type*) (lt : α → α → Prop) where
  items : Heap → Multiset α
  empty : Heap
  push : Heap → α → Heap
  top : Heap → Option α
  pop : Heap → Heap
  items_empty : items empty = 0
  items_push : ∀ h x, items (push h x) = x ::ₘ items h
  items_of_none : ∀ h, top h = none → items h = 0
  items_of_some : ∀ h x, top h = some x → items h = x ::ₘ items (pop h)
  top_greatest : ∀ h x, top h = some x → ∀ y ∈ items h, ¬ lt x y

namespace PriorityQueue

variable {Heap α : Type*} {lt : α → α → Prop} (Q : PriorityQueue Heap α lt) (p : α → Bool)

/-- Pops while the top passes the test, at most `fuel` times: what has been popped, and what is left. -/
def popWhile : Nat → Heap → List α × Heap
  | 0, h => ([], h)
  | fuel + 1, h =>
    (Q.top h).elim ([], h) (fun x =>
      if p x = true then (x :: (popWhile fuel (Q.pop h)).1, (popWhile fuel (Q.pop h)).2) else ([], h))

/-- Pops while there is a top and it passes the test. -/
def takeOut (h : Heap) : List α × Heap := Q.popWhile p (Q.items h).card h

variable {Q p} {h : Heap} {x : α} {fuel : Nat}

theorem popWhile_none (ht : Q.top h = none) : Q.popWhile p (fuel + 1) h = ([], h) := by
  rw [popWhile, ht, Option.elim_none]

theorem popWhile_pass (ht : Q.top h = some x) (hx : p x = true) :
    Q.popWhile p (fuel + 1) h = (x :: (Q.popWhile p fuel (Q.pop h)).1, (Q.popWhile p fuel (Q.pop h)).2) := by
  rw [popWhile, ht, Option.elim_some, if_pos hx]

theorem popWhile_fail (ht : Q.top h = some x) (hx : ¬ p x = true) : Q.popWhile p (fuel + 1) h = ([], h) := by
  rw [popWhile, ht, Option.elim_some, if_neg hx]

/-- **Nothing is lost or doubled.** -/
theorem popWhile_items : ∀ (fuel : Nat) (h : Heap),
    ((Q.popWhile p fuel h).1 : Multiset α) + Q.items (Q.popWhile p fuel h).2 = Q.items h
  | 0, h => by rw [popWhile, Multiset.coe_nil, zero_add]
  | fuel + 1, h => by
    cases ht : Q.top h with
    | none => rw [popWhile_none ht, Multiset.coe_nil, zero_add]
    | some x =>
      by_cases hx : p x = true
      · rw [popWhile_pass ht hx, ← Multiset.cons_coe, Multiset.cons_add, popWhile_items fuel, ← Q.items_of_some h x ht]
      · rw [popWhile_fail ht hx, Multiset.coe_nil, zero_add]

theorem popWhile_passes : ∀ (fuel : Nat) (h : Heap), ∀ y ∈ (Q.popWhile p fuel h).1, p y = true
  | 0, _, _, hy => by cases hy
  | fuel + 1, h, y, hy => by
    cases ht : Q.top h with
    | none =>
      rw [popWhile_none ht] at hy
      cases hy
    | some x =>
      by_cases hx : p x = true
      · rw [popWhile_pass ht hx] at hy
        rcases List.mem_cons.1 hy with rfl | hy
        · exact hx
        · exact popWhile_passes fuel _ y hy
      · rw [popWhile_fail ht hx] at hy
        cases hy

theorem mem_of_popWhile {y : α} (hy : y ∈ (Q.popWhile p fuel h).1) : y ∈ Q.items h := by
  rw [← popWhile_items (p := p) fuel h]
  exact Multiset.mem_add.2 (.inl (Multiset.mem_coe.2 hy))

/-- **Greater elements come first.** -/
theorem popWhile_pairwise : ∀ (fuel : Nat) (h : Heap), (Q.popWhile p fuel h).1.Pairwise (fun x y => ¬ lt x y)
  | 0, _ => .nil
  | fuel + 1, h => by
    cases ht : Q.top h with
    | none =>
      rw [popWhile_none ht]
      exact .nil
    | some x =>
      by_cases hx : p x = true
      · rw [popWhile_pass ht hx]
        refine List.pairwise_cons.2 ⟨fun y hy => ?_, popWhile_pairwise fuel _⟩
        apply Q.top_greatest h x ht
        rw [Q.items_of_some h x ht]
        exact Multiset.mem_cons_of_mem (mem_of_popWhile hy)
      · rw [popWhile_fail ht hx]
        exact .nil

/-- **With enough fuel nothing that passes is left**, when what is above an element that passes does so too. -/
theorem popWhile_rest (hp : ∀ x y, ¬ lt x y → p y = true → p x = true) : ∀ (fuel : Nat) (h : Heap),
    (Q.items h).card ≤ fuel → ∀ y ∈ Q.items (Q.popWhile p fuel h).2, ¬ p y = true
  | 0, h, hcard, y, hy => by
    rw [popWhile, Multiset.card_eq_zero.1 (Nat.le_zero.1 hcard)] at hy
    exact absurd hy (Multiset.notMem_zero y)
  | fuel + 1, h, hcard, y, hy => by
    cases ht : Q.top h with
    | none =>
      rw [popWhile_none ht, Q.items_of_none h ht] at hy
      exact absurd hy (Multiset.notMem_zero y)
    | some x =>
      by_cases hx : p x = true
      · rw [popWhile_pass ht hx] at hy
        refine popWhile_rest hp fuel _ ?_ y hy
        rw [Q.items_of_some h x ht, Multiset.card_cons] at hcard
        exact Nat.le_of_succ_le_succ hcard
      · rw [popWhile_fail ht hx] at hy
        exact fun hpass => hx (hp x y (Q.top_greatest h x ht y hy) hpass)

theorem takeOut_items (h : Heap) : ((Q.takeOut p h).1 : Multiset α) + Q.items (Q.takeOut p h).2 = Q.items h :=
  popWhile_items _ h

theorem takeOut_pairwise (h : Heap) : (Q.takeOut p h).1.Pairwise (fun x y => ¬ lt x y) := popWhile_pairwise _ h

/-- **What is taken out is what passes.** -/
theorem takeOut_fst (hp : ∀ x y, ¬ lt x y → p y = true → p x = true) (h : Heap) :
    ((Q.takeOut p h).1 : Multiset α) = (Q.items h).filter (fun x => p x = true) := by
  have hpass : ((Q.takeOut p h).1 : Multiset α).filter (fun x => p x = true) = (Q.takeOut p h).1 :=
    Multiset.filter_eq_self.2 (fun x hx => popWhile_passes _ h x (Multiset.mem_coe.1 hx))
  have hrest : (Q.items (Q.takeOut p h).2).filter (fun x => p x = true) = 0 :=
    Multiset.filter_eq_nil.2 (popWhile_rest hp _ h (Nat.le_refl _))
  rw [← takeOut_items (p := p) h, Multiset.filter_add, hpass, hrest, add_zero]

theorem takeOut_snd (hp : ∀ x y, ¬ lt x y → p y = true → p x = true) (h : Heap) :
    Q.items (Q.takeOut p h).2 = (Q.items h).filter (fun x => ¬ p x = true) := by
  have hpass : ((Q.takeOut p h).1 : Multiset α).filter (fun x => ¬ p x = true) = 0 :=
    Multiset.filter_eq_nil.2 (fun x hx hnot => hnot (popWhile_passes _ h x (Multiset.mem_coe.1 hx)))
  have hrest : (Q.items (Q.takeOut p h).2).filter (fun x => ¬ p x = true) = Q.items (Q.takeOut p h).2 :=
    Multiset.filter_eq_self.2 (popWhile_rest hp _ h (Nat.le_refl _))
  rw [← takeOut_items (p := p) h, Multiset.filter_add, hpass, hrest, zero_add]

/-- Sorted lists: the head is the top. -/
def sorted (r : α → α → Prop) [DecidableRel r] [Std.Total r] [IsTrans α r] (hlt : ∀ x y, r x y → ¬ lt x y) :
    PriorityQueue {l : List α // l.Pairwise r} α lt where
  items l := l.1
  empty := ⟨[], .nil⟩
  push l x := ⟨l.1.orderedInsert r x, l.2.orderedInsert x _⟩
  top l := l.1.head?
  pop l := ⟨l.1.tail, l.2.tail⟩
  items_empty := rfl
  items_push l x := Multiset.coe_eq_coe.2 (List.perm_orderedInsert r x l.1)
  items_of_none l h := by rw [List.head?_eq_none_iff.1 h, Multiset.coe_nil]
  items_of_some l x h := by
    obtain ⟨xs, hl⟩ := List.head?_eq_some_iff.1 h
    have hcons : (l.1 : Multiset α) = x ::ₘ (l.1.tail : Multiset α) := by
      rw [hl, List.tail_cons, Multiset.cons_coe]
    exact hcons
  top_greatest l x h y hy := by
    obtain ⟨xs, hl⟩ := List.head?_eq_some_iff.1 h
    have hsorted := l.2
    rw [hl] at hsorted
    rw [hl] at hy
    rcases List.mem_cons.1 (Multiset.mem_coe.1 hy) with rfl | hy
    · exact hlt y y ((Std.Total.total y y).elim id id)
    · exact hlt x y ((List.pairwise_cons.1 hsorted).1 y hy)

end PriorityQueue
