import Mathlib.Data.List.Basic

/-!
# Mapping a fallible function over a list

`l.mapM f` in `Option` is the loop that stops at the first failure. When it succeeds, its result
is the list of the individual results, position by position (`exists_of_getElem?_mapM`).
-/

namespace PiksiBuildroot.Lib

open List Option

variable {α β : Type*} {f : α → Option β} {l : List α} {l' : List β}

/-- One round of the loop. -/
lemma mapM_cons_eq_some {a : α} :
    (a :: l).mapM f = some l' ↔ ∃ b, f a = some b ∧ ∃ bs, l.mapM f = some bs ∧ b :: bs = l' := by
  simp only [mapM_cons, bind_eq_bind, Option.pure_def, bind_eq_some_iff, some.injEq]

/-- A successful loop keeps the length. -/
lemma length_of_mapM (h : l.mapM f = some l') : l'.length = l.length := by
  induction l generalizing l' with
  | nil =>
    simp only [mapM_nil, Option.pure_def, some.injEq] at h
    simp [← h]
  | cons a l ih =>
    obtain ⟨b, -, bs, hbs, rfl⟩ := mapM_cons_eq_some.mp h
    simp [ih hbs]

variable {b : β}

/-- The result at a position is the result of the entry at that position. -/
theorem exists_of_getElem?_mapM (h : l.mapM f = some l') {i : ℕ} (hb : l'[i]? = some b) :
    ∃ a, l[i]? = some a ∧ f a = some b := by
  induction l generalizing l' i with
  | nil =>
    simp only [mapM_nil, Option.pure_def, some.injEq] at h
    simp [← h] at hb
  | cons a l ih =>
    obtain ⟨b₀, hb₀, bs, hbs, rfl⟩ := mapM_cons_eq_some.mp h
    cases i with
    | zero =>
      exact ⟨a, rfl, hb ▸ hb₀⟩
    | succ i => exact ih hbs hb

/-- Every result comes from an entry. -/
lemma exists_of_mem_mapM (h : l.mapM f = some l') (hb : b ∈ l') : ∃ a ∈ l, f a = some b := by
  obtain ⟨i, hi⟩ := mem_iff_getElem?.mp hb
  obtain ⟨a, ha, hab⟩ := exists_of_getElem?_mapM h hi
  exact ⟨a, mem_of_getElem? ha, hab⟩

/-- The loop over a function that is total on a condition. -/
lemma mapM_eq_some_iff {p : α → Prop} {g : α → β} (hf : ∀ a b, f a = some b ↔ p a ∧ b = g a) :
    l.mapM f = some l' ↔ (∀ a ∈ l, p a) ∧ l' = l.map g := by
  induction l generalizing l' with
  | nil => simp [eq_comm]
  | cons a l ih =>
    rw [mapM_cons_eq_some]
    constructor
    · rintro ⟨b, hb, bs, hbs, rfl⟩
      obtain ⟨ha, rfl⟩ := (hf a b).mp hb
      obtain ⟨hl, rfl⟩ := ih.mp hbs
      exact ⟨forall_mem_cons.mpr ⟨ha, hl⟩, rfl⟩
    · rintro ⟨hall, rfl⟩
      obtain ⟨ha, hl⟩ := forall_mem_cons.mp hall
      exact ⟨g a, (hf a _).mpr ⟨ha, rfl⟩, l.map g, ih.mpr ⟨hl, rfl⟩, rfl⟩

/-- The loop that reads a list position by position. -/
lemma mapM_range_eq_some {f : ℕ → Option β} (h : ∀ i < l'.length, f i = l'[i]?) :
    (List.range l'.length).mapM f = some l' := by
  induction l' generalizing f with
  | nil => rfl
  | cons b l' ih =>
    have hzero : f 0 = some b := h 0 (Nat.zero_lt_succ _)
    have hrest : ((List.range l'.length).map Nat.succ).mapM f = some l' := by
      rw [mapM_map]
      exact ih fun i hi => h (i + 1) (Nat.succ_lt_succ hi)
    rw [length_cons, range_succ_eq_map]
    exact mapM_cons_eq_some.mpr ⟨b, hzero, l', hrest, rfl⟩

end PiksiBuildroot.Lib
