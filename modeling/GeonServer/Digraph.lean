import Mathlib.Data.Finset.Card
import Mathlib.Data.List.Cycle
import Mathlib.Logic.Relation
/-!
# Digraph — relations without cycles

A relation is acyclic when no chain of its pairs leads back to where it started.  Pairs that are chains of another
relation add no cycle (`Acyclic.of_transGen`), a map of the elements takes cycles to cycles (`Acyclic.of_map`) unless it makes one element
of them (`Acyclic.eq_of_cycle`), and elements that can be cut off one by one, each after everything it leads to, lie on
none (`acyclic_of_ends`).  A cycle may be written down as its pairs (`IsCycle`).
-/
namespace Digraph

open Relation

variable {α β : Type*} {r s : α → α → Prop}

def Acyclic (r : α → α → Prop) : Prop := ∀ a, ¬ TransGen r a a

theorem Acyclic.of_transGen (h : Acyclic s) (hrs : ∀ a b, r a b → TransGen s a b) : Acyclic r := fun a ha =>
  h a (TransGen.closed (fun _ _ hab => hrs _ _ hab) a a ha)

theorem Acyclic.mono (h : Acyclic s) (hrs : ∀ a b, r a b → s a b) : Acyclic r :=
  h.of_transGen (fun a b hab => .single (hrs a b hab))

/-- **A cycle is mapped to a cycle**, as long as the pairs are mapped to pairs. -/
theorem Acyclic.of_map {s : β → β → Prop} (h : Acyclic s) (f : α → β) (hf : ∀ a b, r a b → s (f a) (f b)) :
    Acyclic r := fun a ha =>
  h (f a) (ha.lift f (fun _ _ hab => hf _ _ hab))

theorem reflTransGen_of_map {s : β → β → Prop} (f : α → β) (hf : ∀ a b, r a b → f a = f b ∨ s (f a) (f b)) {a b : α}
    (hab : TransGen r a b) : ReflTransGen s (f a) (f b) := by
  have hone : ∀ c d, r c d → ReflTransGen s (f c) (f d) := fun c d hcd => by
    rcases hf c d hcd with heq | hs
    · rw [heq]
    · exact .single hs
  induction hab with
  | single hac => exact hone _ _ hac
  | tail _ hbc ih => exact ih.trans (hone _ _ hbc)

/-- **A cycle that is not mapped to a cycle is mapped to one element.** -/
theorem Acyclic.eq_of_cycle {s : β → β → Prop} (h : Acyclic s) (f : α → β)
    (hf : ∀ a b, r a b → f a = f b ∨ s (f a) (f b)) {a b : α} (hab : TransGen r a b) (hba : TransGen r b a) :
    f a = f b := by
  rcases reflTransGen_iff_eq_or_transGen.1 (reflTransGen_of_map f hf hab) with heq | hab'
  · exact heq.symm
  · exact absurd (hab'.trans_left (reflTransGen_of_map f hf hba)) (h (f a))

/-- **Without cycles the elements have ranks**: the number of those that lead to one. -/
theorem Acyclic.exists_rank (h : Acyclic r) (l : List α) (hl : ∀ a b, r a b → a ∈ l) :
    ∃ rank : α → Nat, ∀ a b, r a b → rank a < rank b := by
  classical
  refine ⟨fun b => (l.toFinset.filter (fun a => TransGen r a b)).card, fun a b hab => Finset.card_lt_card ?_⟩
  refine Finset.ssubset_iff_subset_ne.2 ⟨fun c hc => ?_, fun heq => ?_⟩
  · obtain ⟨hmem, hca⟩ := Finset.mem_filter.1 hc
    exact Finset.mem_filter.2 ⟨hmem, hca.tail hab⟩
  · have ha : a ∈ l.toFinset.filter (fun c => TransGen r c b) :=
      Finset.mem_filter.2 ⟨List.mem_toFinset.2 (hl a b hab), .single hab⟩
    rw [← heq] at ha
    exact h a (Finset.mem_filter.1 ha).2

/-- Everything that can be reached from `a` comes to an end. -/
def Ends (r : α → α → Prop) (a : α) : Prop := Acc (fun b a => r a b) a

theorem Ends.intro {a : α} (h : ∀ b, r a b → Ends r b) : Ends r a := Acc.intro a h

theorem Ends.no_cycle {a : α} (h : Ends r a) : ¬ TransGen r a a := by
  induction h with
  | intro a _ ih =>
    intro ha
    obtain ⟨b, hab, hba⟩ := TransGen.head'_iff.1 ha
    exact ih b hab (TransGen.tail' hba hab)

theorem acyclic_of_ends (h : ∀ a b, r a b → Ends r a) : Acyclic r := fun a ha => by
  obtain ⟨b, hab, -⟩ := TransGen.head'_iff.1 ha
  exact (h a b hab).no_cycle ha

/-- **A cycle as its pairs**, backwards: each begins where the next one ends, the last where the first one ends, and no two
end at one element. -/
structure IsCycle (r : α → α → Prop) (pairs : List (α × α)) : Prop where
  rel : ∀ p ∈ pairs, r p.1 p.2
  ne_nil : pairs ≠ []
  chain : Cycle.Chain (fun p q => p.1 = q.2) (pairs : Cycle (α × α))
  nodup : (pairs.map Prod.snd).Nodup

end Digraph
