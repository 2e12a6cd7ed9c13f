import Mathlib.Data.List.Basic
import Mathlib.Data.List.Induction
import Mathlib.Data.List.Nodup

/-!
# Lists in blocks

`grouped key xs` has the elements of `xs` in one block for each key, the blocks in the order in
which the keys first occur and every block in the order of `xs`. A list is kept like that by putting
each new element behind the block of its key (`insertAfterBlock_grouped`). `InBlocks key ks l` says
that `l` is a block for each key of `ks`.
-/

namespace PiksiBuildroot.Lib

open List

variable {α β κ : Type*}

/-! ### First occurrences -/

variable {xs : List α} {a : α} {l : List α}

section firsts

variable [DecidableEq α]

/-- Put an element at the end of a list that does not have it. -/
def addNew (l : List α) (a : α) : List α := if a ∈ l then l else l ++ [a]

/-- The elements of a list in the order in which they first occur. -/
def firsts (xs : List α) : List α := xs.foldl addNew []

lemma firsts_append_singleton (xs : List α) (x : α) :
    firsts (xs ++ [x]) = addNew (firsts xs) x := by
  unfold firsts
  rw [foldl_append]
  rfl

lemma mem_addNew {a b : α} : b ∈ addNew l a ↔ b ∈ l ∨ b = a := by
  unfold addNew
  split
  · rename_i ha
    constructor
    · exact Or.inl
    · rintro (hb | rfl)
      · exact hb
      · exact ha
  · rw [mem_append, mem_singleton]

lemma mem_firsts : a ∈ firsts xs ↔ a ∈ xs := by
  induction xs using List.reverseRecOn with
  | nil => rfl
  | append_singleton xs x ih =>
    rw [firsts_append_singleton, mem_addNew, ih, mem_append, mem_singleton]

lemma nodup_firsts (xs : List α) : (firsts xs).Nodup := by
  induction xs using List.reverseRecOn with
  | nil => exact nodup_nil
  | append_singleton xs x ih =>
    rw [firsts_append_singleton]
    unfold addNew
    split
    · exact ih
    · rename_i hx
      exact nodup_append.mpr ⟨ih, nodup_singleton x, by
        intro a ha b hb hab
        rw [mem_singleton.mp hb] at hab
        exact hx (hab ▸ ha)⟩

end firsts

/-! ### Insertion behind a block -/

variable {k : κ}

section insertion

variable [DecidableEq κ] (key : α → κ)

/-- Put an element behind the first element of its key that is followed by one of another key, or at
the end. -/
def insertAfterBlock (x : α) : List α → List α
  | [] => [x]
  | [a] => [a, x]
  | a :: b :: l =>
    if key a = key x ∧ key b ≠ key x then a :: x :: b :: l
    else a :: insertAfterBlock x (b :: l)

/-- The elements of each key together. -/
def grouped (xs : List α) : List α := (firsts (xs.map key)).flatMap fun k => xs.filter (key · = k)

variable {key}

lemma map_insertAfterBlock (g : β → α) (x : β) (l : List β) :
    (insertAfterBlock (fun b => key (g b)) x l).map g = insertAfterBlock key (g x) (l.map g) := by
  induction l with
  | nil => rfl
  | cons a l ih =>
    cases l with
    | nil => rfl
    | cons b l =>
      simp only [insertAfterBlock, map_cons] at ih ⊢
      split
      · rfl
      · rw [map_cons, ih]

variable {x : α}

lemma insertAfterBlock_of_forall_ne (h : ∀ a ∈ l, key a ≠ key x) :
    insertAfterBlock key x l = l ++ [x] := by
  induction l with
  | nil => rfl
  | cons a l ih =>
    cases l with
    | nil => rfl
    | cons b l =>
      have ha : ¬ (key a = key x ∧ key b ≠ key x) := fun hab => h a mem_cons_self hab.1
      rw [insertAfterBlock, if_neg ha, ih (fun c hc => h c (mem_cons_of_mem a hc))]
      rfl

/-- Elements of other keys in front are passed. -/
lemma insertAfterBlock_append {l r : List α} (h : ∀ a ∈ l, key a ≠ key x) (hr : r ≠ []) :
    insertAfterBlock key x (l ++ r) = l ++ insertAfterBlock key x r := by
  induction l with
  | nil => rfl
  | cons a l ih =>
    have hrest := ih (fun c hc => h c (mem_cons_of_mem a hc))
    obtain ⟨b, t, hbt⟩ := exists_cons_of_ne_nil (append_ne_nil_of_right_ne_nil l hr)
    have ha : ¬ (key a = key x ∧ key b ≠ key x) := fun hab => h a mem_cons_self hab.1
    rw [cons_append, cons_append, ← hrest, hbt, insertAfterBlock, if_neg ha]

/-- The element goes behind the block. -/
lemma insertAfterBlock_block {b r : List α} (hb : b ≠ []) (hkey : ∀ a ∈ b, key a = key x)
    (hr : ∀ a ∈ r, key a ≠ key x) : insertAfterBlock key x (b ++ r) = b ++ x :: r := by
  induction b with
  | nil => exact absurd rfl hb
  | cons a b ih =>
    have ha := hkey a mem_cons_self
    cases b with
    | nil =>
      cases r with
      | nil => rfl
      | cons c r => exact if_pos ⟨ha, hr c mem_cons_self⟩
    | cons c b =>
      have hc : ¬ (key a = key x ∧ key c ≠ key x) := by
        intro hac
        exact hac.2 (hkey c (mem_cons_of_mem a mem_cons_self))
      have hrest := ih (cons_ne_nil c b) (fun d hd => hkey d (mem_cons_of_mem a hd))
      rw [cons_append, cons_append, insertAfterBlock, if_neg hc]
      exact congrArg (a :: ·) hrest

lemma filter_append_singleton_of_ne (h : key x ≠ k) :
    (xs ++ [x]).filter (key · = k) = xs.filter (key · = k) := by
  simp [filter_append, h]

lemma key_of_mem_flatMap_filter {ks : List κ} (h : a ∈ ks.flatMap fun k => xs.filter (key · = k)) :
    key a ∈ ks := by
  obtain ⟨k, hk, ha⟩ := mem_flatMap.mp h
  have hkey : key a = k := by simpa using (mem_filter.mp ha).2
  exact hkey ▸ hk

lemma filter_ne_nil_of_mem (h : k ∈ xs.map key) : xs.filter (key · = k) ≠ [] := by
  obtain ⟨a, ha, rfl⟩ := mem_map.mp h
  exact ne_nil_of_mem (mem_filter.mpr ⟨ha, by simp⟩)

/-- Insertion keeps a list grouped. -/
theorem insertAfterBlock_grouped (xs : List α) (x : α) :
    insertAfterBlock key x (grouped key xs) = grouped key (xs ++ [x]) := by
  unfold grouped
  rw [map_append, map_singleton, firsts_append_singleton]
  unfold addNew
  by_cases hx : key x ∈ firsts (xs.map key)
  · rw [if_pos hx]
    obtain ⟨before, after, hks⟩ := append_of_mem hx
    have hnodup := hks ▸ nodup_firsts (xs.map key)
    rw [nodup_append, nodup_cons] at hnodup
    obtain ⟨-, ⟨hafter, -⟩, hbefore⟩ := hnodup
    have hbefore' : key x ∉ before := fun hmem => hbefore _ hmem _ mem_cons_self rfl
    -- only the block of the key of `x` changes
    have hother : ∀ ks : List κ, key x ∉ ks → (ks.flatMap fun k => (xs ++ [x]).filter (key · = k)) =
          ks.flatMap fun k => xs.filter (key · = k) := by
      intro ks hks
      apply flatMap_congr
      intro k hk
      exact filter_append_singleton_of_ne (fun heq => hks (heq ▸ hk))
    have hblock : (xs ++ [x]).filter (key · = key x) = xs.filter (key · = key x) ++ [x] := by
      simp [filter_append]
    rw [hks, flatMap_append, flatMap_append, flatMap_cons, flatMap_cons,
      hother before hbefore', hother after hafter, hblock, append_assoc]
    have hne := filter_ne_nil_of_mem (mem_firsts.mp hx)
    rw [insertAfterBlock_append ?_ (append_ne_nil_of_left_ne_nil hne _)]
    · rw [insertAfterBlock_block hne ?_ ?_]
      · rfl
      · intro a ha
        simpa using (mem_filter.mp ha).2
      · intro a ha heq
        exact hafter (heq ▸ key_of_mem_flatMap_filter ha)
    · intro a ha heq
      exact hbefore' (heq ▸ key_of_mem_flatMap_filter ha)
  · rw [if_neg hx, flatMap_append, flatMap_singleton]
    have hold : ((firsts (xs.map key)).flatMap fun k => (xs ++ [x]).filter (key · = k)) =
        (firsts (xs.map key)).flatMap fun k => xs.filter (key · = k) := by
      apply flatMap_congr
      intro k hk
      exact filter_append_singleton_of_ne (fun heq => hx (heq ▸ hk))
    have hnew : (xs ++ [x]).filter (key · = key x) = [x] := by
      have hnone : xs.filter (key · = key x) = [] := by
        apply filter_eq_nil_iff.mpr
        intro a ha hax
        exact hx (mem_firsts.mpr (mem_map.mpr ⟨a, ha, by simpa using hax⟩))
      rw [filter_append, hnone]
      simp
    rw [hold, hnew]
    apply insertAfterBlock_of_forall_ne
    intro a ha heq
    exact hx (heq ▸ key_of_mem_flatMap_filter ha)

lemma insertAfterBlock_perm (x : α) (l : List α) : (insertAfterBlock key x l).Perm (x :: l) := by
  induction l with
  | nil => exact List.Perm.refl _
  | cons a l ih =>
    cases l with
    | nil => exact List.Perm.swap x a []
    | cons b l =>
      rw [insertAfterBlock]
      split
      · exact List.Perm.swap x a (b :: l)
      · exact (ih.cons a).trans (List.Perm.swap x a (b :: l))

/-- Grouping only reorders. -/
lemma grouped_perm (key : α → κ) (xs : List α) : (grouped key xs).Perm xs := by
  induction xs using List.reverseRecOn with
  | nil => exact List.Perm.refl _
  | append_singleton xs x ih =>
    rw [← insertAfterBlock_grouped]
    exact ((insertAfterBlock_perm x _).trans (ih.cons x)).trans
      (perm_append_singleton x xs).symm

end insertion

/-! ### Blocks -/

/-- The list is a block for each of the keys. -/
inductive InBlocks (key : α → κ) : List κ → List α → Prop
  | nil : InBlocks key [] []
  | cons {k : κ} {ks : List κ} {b rest : List α} : b ≠ [] → (∀ a ∈ b, key a = k) → k ∉ ks →
      InBlocks key ks rest → InBlocks key (k :: ks) (b ++ rest)

namespace InBlocks

variable {key : α → κ} {ks : List κ}

lemma nodup (h : InBlocks key ks l) : ks.Nodup := by
  induction h with
  | nil => exact nodup_nil
  | cons _ _ hk _ ih => exact nodup_cons.mpr ⟨hk, ih⟩

lemma flatMap {f : κ → List α} (hks : ks.Nodup) (hne : ∀ k ∈ ks, f k ≠ [])
    (hkey : ∀ k ∈ ks, ∀ a ∈ f k, key a = k) : InBlocks key ks (ks.flatMap f) := by
  induction ks with
  | nil => exact .nil
  | cons k ks ih =>
    obtain ⟨hk, hks⟩ := nodup_cons.mp hks
    have hrest := ih hks (fun k' hk' => hne k' (mem_cons_of_mem k hk'))
      (fun k' hk' => hkey k' (mem_cons_of_mem k hk'))
    exact .cons (hne k mem_cons_self) (hkey k mem_cons_self) hk hrest

lemma key_mem (h : InBlocks key ks l) (ha : a ∈ l) : key a ∈ ks := by
  induction h with
  | nil => exact absurd ha not_mem_nil
  | cons _ hkey _ _ ih =>
    rcases mem_append.mp ha with ha | ha
    · exact hkey a ha ▸ mem_cons_self
    · exact mem_cons_of_mem _ (ih ha)

lemma exists_of_mem (h : InBlocks key ks l) (hk : k ∈ ks) : ∃ a ∈ l, key a = k := by
  induction h with
  | nil => exact absurd hk not_mem_nil
  | cons hne hkey _ _ ih =>
    rcases mem_cons.mp hk with rfl | hk
    · obtain ⟨a, ha⟩ := exists_mem_of_ne_nil _ hne
      exact ⟨a, mem_append_left _ ha, hkey a ha⟩
    · obtain ⟨a, ha, hkey'⟩ := ih hk
      exact ⟨a, mem_append_right _ ha, hkey'⟩

/-- Blocks of the images are blocks. -/
lemma of_map {g : β → α} {m : List β} (h : InBlocks key ks (m.map g)) :
    InBlocks (fun b => key (g b)) ks m := by
  generalize hl : m.map g = l at h
  induction h generalizing m with
  | nil =>
    rw [map_eq_nil_iff.mp hl]
    exact .nil
  | @cons k ks b rest hne hkey hk _ ih =>
    obtain ⟨m₁, m₂, rfl, rfl, hm₂⟩ := map_eq_append_iff.mp hl
    refine .cons ?_ ?_ hk (ih hm₂)
    · rintro rfl
      exact hne rfl
    · intro a ha
      exact hkey (g a) (mem_map_of_mem ha)

/-- The elements that pass a test are in blocks, of some of the keys. -/
lemma filter (p : α → Bool) (h : InBlocks key ks l) :
    ∃ ks', ks'.Sublist ks ∧ InBlocks key ks' (l.filter p) := by
  induction h with
  | nil => exact ⟨[], List.Sublist.refl _, .nil⟩
  | @cons k ks b rest hne hkey hk _ ih =>
    obtain ⟨ks', hsub, hblocks⟩ := ih
    rw [filter_append]
    by_cases hb : b.filter p = []
    · rw [hb, nil_append]
      exact ⟨ks', hsub.cons k, hblocks⟩
    · refine ⟨k :: ks', hsub.cons_cons k, .cons hb ?_ ?_ hblocks⟩
      · intro a ha
        exact hkey a (mem_filter.mp ha).1
      · exact fun hmem => hk (hsub.subset hmem)

end InBlocks

lemma inBlocks_grouped [DecidableEq κ] (key : α → κ) (xs : List α) :
    InBlocks key (firsts (xs.map key)) (grouped key xs) := by
  apply InBlocks.flatMap (nodup_firsts _)
  · intro k hk
    exact filter_ne_nil_of_mem (mem_firsts.mp hk)
  · intro k _ a ha
    simpa using (mem_filter.mp ha).2

end PiksiBuildroot.Lib
