import Mathlib.Data.List.Sort

/-!
# Selecting the first elements of an order

A `Sorter` is any way to put a list into an order; which of two equal elements comes first is left
open. `Selects r k l best` says that `best` are `k` elements of `l`, or all if there are fewer, in
the order `r`, and that nothing that was left out comes before one of them.
-/

namespace PiksiBuildroot.Lib

open List

variable {α : Type*} {r : α → α → Prop}

/-- A way to sort by a relation. -/
structure Sorter (r : α → α → Prop) where
  sort : List α → List α
  perm : ∀ l, (sort l).Perm l
  sorted : ∀ l, (sort l).Pairwise r

/-- Sorting by insertion. -/
def Sorter.insertion (r : α → α → Prop) [DecidableRel r] [Std.Total r] [IsTrans α r] :
    Sorter r where
  sort := List.insertionSort r
  perm := perm_insertionSort r
  sorted := pairwise_insertionSort r

/-- `best` are the first `k` elements of `l` in some order by `r`. -/
structure Selects (r : α → α → Prop) (k : ℕ) (l best : List α) : Prop where
  length_eq : best.length = min k l.length
  sorted : best.Pairwise r
  exists_perm : ∃ rest, (best ++ rest).Perm l ∧ ∀ x ∈ best, ∀ y ∈ rest, r x y

theorem Sorter.selects_take (s : Sorter r) (k : ℕ) (l : List α) :
    Selects r k l ((s.sort l).take k) where
  length_eq := by rw [length_take, (s.perm l).length_eq]
  sorted := (s.sorted l).sublist (take_sublist k _)
  exists_perm := by
    refine ⟨(s.sort l).drop k, ?_, fun x hx y hy => ?_⟩
    · rw [take_append_drop]
      exact s.perm l
    · have hsorted := s.sorted l
      rw [← take_append_drop k (s.sort l)] at hsorted
      exact (pairwise_append.mp hsorted).2.2 x hx y hy

namespace Selects

variable {k : ℕ} {l best : List α}

lemma subset (h : Selects r k l best) : best ⊆ l := by
  obtain ⟨rest, hperm, -⟩ := h.exists_perm
  exact fun x hx => hperm.subset (mem_append_left rest hx)

lemma nodup (h : Selects r k l best) (hl : l.Nodup) : best.Nodup := by
  obtain ⟨rest, hperm, -⟩ := h.exists_perm
  exact (nodup_append.mp (hperm.nodup_iff.mpr hl)).1

/-- What was left out comes after what was selected. -/
lemma rel_of_not_mem (h : Selects r k l best) {x y : α} (hx : x ∈ best) (hy : y ∈ l)
    (hnot : y ∉ best) : r x y := by
  obtain ⟨rest, hperm, hrel⟩ := h.exists_perm
  refine hrel x hx y ?_
  rcases mem_append.mp (hperm.mem_iff.mpr hy) with hbest | hrest
  · exact absurd hbest hnot
  · exact hrest

/-- Selecting elements selects what a function takes from them. -/
lemma map {β : Type*} {f : α → β} {r' : β → β → Prop} (h : Selects r k l best)
    (hf : ∀ x ∈ l, ∀ y ∈ l, r x y → r' (f x) (f y)) : Selects r' k (l.map f) (best.map f) where
  length_eq := by rw [length_map, length_map, h.length_eq]
  sorted := by
    refine pairwise_map.mpr (h.sorted.imp_of_mem fun {x y} hx hy hrel => ?_)
    exact hf x (h.subset hx) y (h.subset hy) hrel
  exists_perm := by
    obtain ⟨rest, hperm, hrel⟩ := h.exists_perm
    refine ⟨rest.map f, ?_, fun b hb b' hb' => ?_⟩
    · rw [← map_append]
      exact hperm.map f
    · obtain ⟨x, hx, rfl⟩ := mem_map.mp hb
      obtain ⟨y, hy, rfl⟩ := mem_map.mp hb'
      exact hf x (h.subset hx) y (hperm.subset (mem_append_right best hy)) (hrel x hx y hy)

end Selects

end PiksiBuildroot.Lib
