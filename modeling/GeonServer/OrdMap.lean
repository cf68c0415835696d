import Mathlib.Order.Lattice
/-!
# OrdMap — maps in the order of their keys

A map as the list of its entries, the keys going up.  An iterator is what is behind a key (`beyond`): it comes past
each entry once (`beyond_tail`), also when the map is read again at every step.
-/

/-- A map from `α` to `β`: its entries, each key once, the keys going up. -/
structure OrdMap (α β : Type*) [LinearOrder α] where
  entries : List (α × β)
  sorted : entries.Pairwise (fun a b => a.1 < b.1)

namespace OrdMap

variable {α β : Type*} [LinearOrder α]

def empty : OrdMap α β := ⟨[], .nil⟩

/-- Puts an entry at its place in the list, instead of one with its key. -/
def insertEntry (k : α) (v : β) : List (α × β) → List (α × β)
  | [] => [(k, v)]
  | e :: es => if k < e.1 then (k, v) :: e :: es else if e.1 < k then e :: insertEntry k v es else (k, v) :: es

theorem mem_insertEntry {k : α} {v : β} : ∀ {es : List (α × β)}, es.Pairwise (fun a b => a.1 < b.1) → ∀ e,
    e ∈ insertEntry k v es ↔ e = (k, v) ∨ e ∈ es ∧ e.1 ≠ k
  | [], _, e => by simp [insertEntry]
  | x :: es, h, e => by
    obtain ⟨hx, hes⟩ := List.pairwise_cons.1 h
    have ih := mem_insertEntry (k := k) (v := v) hes e
    rw [insertEntry]
    split_ifs with hlt hgt
    · have : ∀ y ∈ x :: es, y.1 ≠ k := by
        intro y hy
        rcases List.mem_cons.1 hy with rfl | hy
        · exact hlt.ne'
        · exact (hlt.trans (hx y hy)).ne'
      rw [List.mem_cons]
      exact or_congr_right ⟨fun he => ⟨he, this e he⟩, And.left⟩
    · rw [List.mem_cons, ih, List.mem_cons]
      constructor
      · rintro (rfl | rfl | ⟨he, hne⟩)
        · exact .inr ⟨.inl rfl, hgt.ne⟩
        · exact .inl rfl
        · exact .inr ⟨.inr he, hne⟩
      · rintro (rfl | ⟨rfl | he, hne⟩)
        · exact .inr (.inl rfl)
        · exact .inl rfl
        · exact .inr (.inr ⟨he, hne⟩)
    · obtain rfl : k = x.1 := le_antisymm (not_lt.1 hgt) (not_lt.1 hlt)
      rw [List.mem_cons, List.mem_cons]
      refine or_congr_right ⟨fun he => ⟨.inr he, (hx e he).ne'⟩, ?_⟩
      rintro ⟨rfl | he, hne⟩
      · exact absurd rfl hne
      · exact he

theorem sorted_insertEntry {k : α} {v : β} : ∀ {es : List (α × β)}, es.Pairwise (fun a b => a.1 < b.1) →
    (insertEntry k v es).Pairwise (fun a b => a.1 < b.1)
  | [], _ => List.pairwise_singleton ..
  | x :: es, h => by
    obtain ⟨hx, hes⟩ := List.pairwise_cons.1 h
    rw [insertEntry]
    split_ifs with hlt hgt
    · refine List.pairwise_cons.2 ⟨fun y hy => ?_, h⟩
      rcases List.mem_cons.1 hy with rfl | hy
      · exact hlt
      · exact hlt.trans (hx y hy)
    · refine List.pairwise_cons.2 ⟨fun y hy => ?_, sorted_insertEntry hes⟩
      rcases (mem_insertEntry hes y).1 hy with rfl | ⟨hy, -⟩
      · exact hgt
      · exact hx y hy
    · obtain rfl : k = x.1 := le_antisymm (not_lt.1 hgt) (not_lt.1 hlt)
      exact List.pairwise_cons.2 ⟨hx, hes⟩

/-- The map with `k` going to `v`. -/
def insert (m : OrdMap α β) (k : α) (v : β) : OrdMap α β := ⟨insertEntry k v m.entries, sorted_insertEntry m.sorted⟩

def erase (m : OrdMap α β) (k : α) : OrdMap α β := ⟨m.entries.filter (fun e => e.1 ≠ k), m.sorted.filter _⟩

theorem mem_insert (m : OrdMap α β) (k : α) (v : β) (e : α × β) :
    e ∈ (m.insert k v).entries ↔ e = (k, v) ∨ e ∈ m.entries ∧ e.1 ≠ k := mem_insertEntry m.sorted e

theorem mem_erase (m : OrdMap α β) (k : α) (e : α × β) : e ∈ (m.erase k).entries ↔ e ∈ m.entries ∧ e.1 ≠ k := by
  simp [erase]

theorem nodup_keys (m : OrdMap α β) : (m.entries.map Prod.fst).Nodup :=
  List.pairwise_map.2 (m.sorted.imp fun h => h.ne)

/-! ## Iterating -/

/-- What an iterator that stands at key `k` has before it; from the start, everything. -/
def beyond (m : OrdMap α β) : Option α → List (α × β)
  | none => m.entries
  | some k => m.entries.filter (fun e => k < e.1)

/-- What a condition picks that holds of all keys from some on, without the first, is what is behind the first. -/
theorem filter_lt_of_filter {p : α × β → Bool} (hup : ∀ a b, p a = true → a.1 < b.1 → p b = true) :
    ∀ {es : List (α × β)} {e : α × β} {tail : List (α × β)}, es.Pairwise (fun a b => a.1 < b.1) →
      es.filter p = e :: tail → es.filter (fun x => e.1 < x.1) = tail
  | [], _, _, _, h => by cases h
  | x :: es, e, tail, hs, h => by
    obtain ⟨hx, hes⟩ := List.pairwise_cons.1 hs
    by_cases hp : p x = true
    · -- the first entry counts, so all do
      have hall : ∀ y ∈ es, p y = true := fun y hy => hup x y hp (hx y hy)
      rw [List.filter_cons_of_pos hp, List.filter_eq_self.2 hall] at h
      cases h
      rw [List.filter_cons_of_neg (by simp)]
      exact List.filter_eq_self.2 (fun y hy => decide_eq_true (hx y hy))
    · rw [List.filter_cons_of_neg hp] at h
      have he : e ∈ es := (List.mem_filter.1 (h ▸ List.mem_cons_self : e ∈ es.filter p)).1
      rw [List.filter_cons_of_neg (by simp [(hx e he).le])]
      exact filter_lt_of_filter hup hes h

/-- **An iterator that goes on leaves the entry it was before behind.** -/
theorem beyond_tail {m : OrdMap α β} {after : Option α} {e : α × β} {tail : List (α × β)}
    (h : m.beyond after = e :: tail) : m.beyond (some e.1) = tail := by
  cases after with
  | none =>
    have hself : m.entries.filter (fun _ => true) = e :: tail := by
      rw [← h]
      exact List.filter_eq_self.2 (fun _ _ => rfl)
    exact filter_lt_of_filter (fun _ _ _ _ => rfl) m.sorted hself
  | some k =>
    exact filter_lt_of_filter (fun a b ha hab => decide_eq_true (lt_trans (of_decide_eq_true ha) hab)) m.sorted h

end OrdMap
