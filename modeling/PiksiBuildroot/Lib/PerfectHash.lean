import Mathlib.Data.List.Nodup
import Mathlib.Data.List.Range
import Mathlib.Data.List.Perm.Subperm

/-!
# Tables filled through a minimal perfect hash

A table of `n` slots is filled by modifying, for each of a list of keys, the slot the key hashes
to (`fillTable`). When no two keys share a slot, the slot of a key has seen exactly the
modification of that key (`getElem?_fillTable`).
-/

namespace PiksiBuildroot.Lib

open List

variable {κ α : Type*} (slot : κ → ℕ) (f : κ → α → α)

/-- Modify the slot of each key in turn. -/
def fillTable (keys : List κ) (table : List α) : List α :=
  keys.foldl (fun t k => t.modify (slot k) (f k)) table

variable {slot f}

/-- Two modifications of one slot are one. -/
lemma modify_modify_eq (l : List α) (i : ℕ) (f g : α → α) :
    (l.modify i f).modify i g = l.modify i (g ∘ f) := by
  refine ext_getElem? fun j => ?_
  by_cases hij : i = j
  · subst hij
    simp
  · rw [getElem?_modify_ne _ _ hij, getElem?_modify_ne _ _ hij, getElem?_modify_ne _ _ hij]

variable {keys : List κ} {j : ℕ}

/-- A slot that no key hashes to is untouched. -/
lemma getElem?_fillTable_of_ne (h : ∀ k ∈ keys, slot k ≠ j) (table : List α) :
    (fillTable slot f keys table)[j]? = table[j]? := by
  induction keys generalizing table with
  | nil => rfl
  | cons k keys ih =>
    have ih' := ih (fun k' hk' => h k' (mem_cons_of_mem _ hk')) (table.modify (slot k) (f k))
    rw [fillTable, foldl_cons, ← fillTable, ih', getElem?_modify_ne _ _ (h k mem_cons_self)]

/-- The slot of a key has seen the modification of that key and no other. -/
theorem getElem?_fillTable (hdisj : keys.Pairwise fun a b => slot a ≠ slot b) {k : κ}
    (hk : k ∈ keys) (table : List α) :
    (fillTable slot f keys table)[slot k]? = table[slot k]?.map (f k) := by
  induction keys generalizing table with
  | nil => exact absurd hk not_mem_nil
  | cons k₀ keys ih =>
    rw [pairwise_cons] at hdisj
    rw [fillTable, foldl_cons, ← fillTable]
    rcases mem_cons.mp hk with rfl | hk'
    · rw [getElem?_fillTable_of_ne (fun k' hk' => (hdisj.1 k' hk').symm), getElem?_modify_eq]
      rfl
    · rw [ih hdisj.2 hk', getElem?_modify_ne _ _ (hdisj.1 k hk')]

/-- Distinct slots below the number of keys are all the slots. -/
theorem exists_slot_eq (hdisj : keys.Pairwise fun a b => slot a ≠ slot b)
    (hlt : ∀ k ∈ keys, slot k < keys.length) (hj : j < keys.length) : ∃ k ∈ keys, slot k = j := by
  have hnodup : (keys.map slot).Nodup := pairwise_map.mpr hdisj
  have hsub : keys.map slot ⊆ List.range keys.length := by
    intro i hi
    obtain ⟨k, hk, rfl⟩ := mem_map.mp hi
    exact mem_range.mpr (hlt k hk)
  have hperm := (subperm_of_subset hnodup hsub).perm_of_length_le (by simp)
  exact mem_map.mp (hperm.mem_iff.mpr (mem_range.mpr hj))

end PiksiBuildroot.Lib
