import Mathlib.Data.List.Sort

/-!
# Sorting and dropping adjacent equals, over an arbitrary comparison

`sortBy cmp` sorts by a three-way comparison and `uniqAfter cmp prev` walks a list keeping an
entry unless it compares equal to the one kept last. For a transitive comparison the composition
lists every class of the input exactly once, in strictly increasing order.
-/

namespace PiksiBuildroot.Lib

open Std List

variable {α : Type*} (cmp : α → α → Ordering)

/-- Sort by a three-way comparison. -/
def sortBy (l : List α) : List α := l.insertionSort fun a b => (cmp a b).isLE

/-- Keep an entry unless it compares equal to the entry kept last. -/
def uniqAfter : Option α → List α → List α
  | _, [] => []
  | prev, x :: xs =>
    if prev.any fun p => cmp p x == .eq then uniqAfter prev xs
    else x :: uniqAfter (some x) xs

variable {cmp}

/-- Sorting keeps the entries. -/
@[simp] lemma mem_sortBy {l : List α} {x : α} : x ∈ sortBy cmp l ↔ x ∈ l := mem_insertionSort _

/-- The output of `sortBy` is increasing. -/
lemma pairwise_sortBy [TransCmp cmp] (l : List α) :
    (sortBy cmp l).Pairwise fun a b => (cmp a b).isLE := by
  have htotal : Std.Total fun a b : α => ((cmp a b).isLE : Prop) := by
    refine ⟨fun a b => ?_⟩
    have hswap : cmp b a = (cmp a b).swap := OrientedCmp.eq_swap
    rw [hswap]
    cases cmp a b <;> simp
  have htrans : IsTrans α fun a b => (cmp a b).isLE := ⟨fun _ _ _ => TransCmp.isLE_trans⟩
  exact pairwise_insertionSort _ l

/-- The walk only keeps entries of the list. -/
lemma mem_of_mem_uniqAfter {prev : Option α} {l : List α} {y : α}
    (h : y ∈ uniqAfter cmp prev l) : y ∈ l := by
  induction l generalizing prev with
  | nil => exact h
  | cons x xs ih =>
    rw [uniqAfter] at h
    split at h
    · exact mem_cons_of_mem _ (ih h)
    · rcases mem_cons.mp h with rfl | h'
      · exact mem_cons_self
      · exact mem_cons_of_mem _ (ih h')

/-- Every entry is equal to the entry kept before the walk or to one the walk keeps. -/
lemma exists_mem_uniqAfter [ReflCmp cmp] {prev : Option α} {l : List α} {x : α} (hx : x ∈ l) :
    (∃ p, prev = some p ∧ cmp p x = .eq) ∨ ∃ y ∈ uniqAfter cmp prev l, cmp y x = .eq := by
  induction l generalizing prev with
  | nil => exact absurd hx not_mem_nil
  | cons z zs ih =>
    rw [uniqAfter]
    split
    case isTrue hz =>
      rcases mem_cons.mp hx with rfl | hx'
      · left
        obtain ⟨p, hp, hpx⟩ := (Option.any_eq_true _ _).mp hz
        exact ⟨p, hp, by simpa using hpx⟩
      · exact ih hx'
    case isFalse =>
      right
      rcases mem_cons.mp hx with rfl | hx'
      · exact ⟨x, mem_cons_self, ReflCmp.compare_self⟩
      · rcases @ih (some z) hx' with ⟨p, hp, hpx⟩ | ⟨y, hy, hyx⟩
        · cases hp
          exact ⟨z, mem_cons_self, hpx⟩
        · exact ⟨y, mem_cons_of_mem _ hy, hyx⟩

/-- On an increasing list everything kept is above the entry kept before the walk. -/
lemma lt_of_mem_uniqAfter [TransCmp cmp] {p : α} {l : List α}
    (hl : l.Pairwise fun a b => (cmp a b).isLE) (hp : ∀ z ∈ l, (cmp p z).isLE) :
    ∀ y ∈ uniqAfter cmp (some p) l, cmp p y = .lt := by
  induction l generalizing p with
  | nil => exact fun y hy => absurd hy not_mem_nil
  | cons x xs ih =>
    rw [pairwise_cons] at hl
    intro y hy
    rw [uniqAfter] at hy
    split at hy
    · exact ih hl.2 (fun z hz => hp z (mem_cons_of_mem _ hz)) y hy
    · rename_i hne
      have hpx : cmp p x = .lt := by
        cases h : cmp p x <;> simp_all
      rcases mem_cons.mp hy with rfl | hy'
      · exact hpx
      · exact TransCmp.lt_trans hpx (ih hl.2 hl.1 y hy')

/-- On an increasing list the walk keeps a strictly increasing one. -/
lemma pairwise_lt_uniqAfter [TransCmp cmp] {prev : Option α} {l : List α}
    (hl : l.Pairwise fun a b => (cmp a b).isLE) :
    (uniqAfter cmp prev l).Pairwise fun a b => cmp a b = .lt := by
  induction l generalizing prev with
  | nil => exact List.Pairwise.nil
  | cons x xs ih =>
    rw [pairwise_cons] at hl
    rw [uniqAfter]
    split
    · exact ih hl.2
    · exact pairwise_cons.mpr ⟨lt_of_mem_uniqAfter hl.2 hl.1, ih hl.2⟩

/-- Sorting and dropping adjacent equals gives a strictly increasing list. -/
theorem pairwise_lt_uniq_sortBy [TransCmp cmp] (l : List α) :
    (uniqAfter cmp none (sortBy cmp l)).Pairwise fun a b => cmp a b = .lt :=
  pairwise_lt_uniqAfter (pairwise_sortBy l)

/-- Every class of the input is represented, and by entries of the input only. -/
theorem exists_mem_uniq_sortBy [TransCmp cmp] {l : List α} {x : α} (hx : x ∈ l) :
    ∃ y ∈ uniqAfter cmp none (sortBy cmp l), cmp y x = .eq := by
  have hx' : x ∈ sortBy cmp l := mem_sortBy.mpr hx
  rcases @exists_mem_uniqAfter _ cmp _ none _ _ hx' with ⟨p, hp, -⟩ | h
  · cases hp
  · exact h

end PiksiBuildroot.Lib
