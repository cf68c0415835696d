import Mathlib.Algebra.Order.BigOperators.Group.Finset
import Mathlib.Data.Fintype.BigOperators
/-!
# Tally — counting over the threads of a system

`tally f σ` adds up what each thread contributes to a count.  A step of one thread changes one entry of `σ`, and
`tally_update` is the whole effect of that on any tally.
-/
namespace Lts

open Finset

variable {ι α : Type*} [Fintype ι]

def tally (f : α → Nat) (σ : ι → α) : Nat := ∑ i, f (σ i)

theorem le_tally (f : α → Nat) (σ : ι → α) (i : ι) : f (σ i) ≤ tally f σ :=
  Finset.single_le_sum (fun j _ => Nat.zero_le (f (σ j))) (mem_univ i)

theorem tally_eq_zero (f : α → Nat) (σ : ι → α) : tally f σ = 0 ↔ ∀ i, f (σ i) = 0 := by
  simp [tally, Finset.sum_eq_zero_iff]

theorem exists_of_tally_pos (f : α → Nat) (σ : ι → α) (h : 0 < tally f σ) : ∃ i, 0 < f (σ i) := by
  by_contra hn
  have : tally f σ = 0 := (tally_eq_zero f σ).2 (fun i => by
    have := not_exists.1 hn i
    omega)
  omega

theorem tally_const_zero (f : α → Nat) (a : α) (h : f a = 0) : tally f (fun _ : ι => a) = 0 :=
  (tally_eq_zero f _).2 (fun _ => h)

variable [DecidableEq ι]

omit [Fintype ι] in
/-- What the new entry has in common with the old one, all entries keep. -/
theorem apply_update_of_eq {β : Type*} (f : α → β) (σ : ι → α) {i : ι} {a : α} (h : f a = f (σ i)) (j : ι) :
    f (Function.update σ i a j) = f (σ j) := by
  rw [Function.apply_update (fun _ => f), h, Function.update_eq_self]

omit [Fintype ι] in
theorem sum_update {M : Type*} [AddCommMonoid M] (f : α → M) (σ : ι → α) {s : Finset ι} {i : ι} (hi : i ∈ s) (a : α) :
    ∑ j ∈ s, f (Function.update σ i a j) + f (σ i) = ∑ j ∈ s, f (σ j) + f a := by
  have hrest : ∑ j ∈ s.erase i, f (Function.update σ i a j) = ∑ j ∈ s.erase i, f (σ j) :=
    Finset.sum_congr rfl (fun j hj => by rw [Function.update_of_ne (Finset.ne_of_mem_erase hj)])
  rw [← Finset.add_sum_erase s (fun j => f (Function.update σ i a j)) hi, ← Finset.add_sum_erase s (fun j => f (σ j)) hi,
    hrest, Function.update_self]
  ac_rfl

/-- **One entry changes**: the tally loses its old contribution and gains the new one. -/
theorem tally_update (f : α → Nat) (σ : ι → α) (i : ι) (a : α) :
    tally f (Function.update σ i a) + f (σ i) = tally f σ + f a :=
  sum_update f σ (mem_univ i) a

theorem add_le_tally (f : α → Nat) (σ : ι → α) {i j : ι} (h : i ≠ j) : f (σ i) + f (σ j) ≤ tally f σ := by
  have h1 := Finset.add_sum_erase univ (fun k => f (σ k)) (mem_univ i)
  have h2 : f (σ j) ≤ ∑ k ∈ univ.erase i, f (σ k) :=
    Finset.single_le_sum (fun k _ => Nat.zero_le (f (σ k))) (mem_erase.2 ⟨h.symm, mem_univ j⟩)
  unfold tally
  omega

/-- **At most one**: when the tally is at most one, a contributing entry is the only one. -/
theorem eq_zero_of_tally_le_one (f : α → Nat) (σ : ι → α) {i j : ι} (h : tally f σ ≤ 1) (hi : 0 < f (σ i))
    (hj : j ≠ i) : f (σ j) = 0 := by
  have := add_le_tally f σ hj
  omega

end Lts
