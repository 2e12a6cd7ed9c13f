import Mathlib.Data.List.Dedup
import Mathlib.Data.List.Induction
import Mathlib.Data.List.Perm.Subperm

/-!
# Tables with a bounded number of entries

A table keeps the entries in the order in which they were put; a key can be put once, and not into a
full table. `tally` adds a row to the entry of its key, which it creates if there is room
(`tallied_foldl`, `Tallied.forall_mem_keys_iff`).
-/

namespace PiksiBuildroot.Lib

open List Option

/-- A table of at most `cap` entries with different keys. -/
structure Table (κ β : Type*) (cap : ℕ) where
  entries : List (κ × β)
  nodup : (entries.map Prod.fst).Nodup
  length_le : entries.length ≤ cap

namespace Table

variable {κ β ρ : Type*} {cap : ℕ} [DecidableEq κ]

/-- A table without entries. -/
def empty : Table κ β cap := ⟨[], nodup_nil, Nat.zero_le _⟩

/-- The keys in the order in which they were put. -/
def keys (t : Table κ β cap) : List κ := t.entries.map Prod.fst

/-- The entry of a key. -/
def get (t : Table κ β cap) (k : κ) : Option β := (t.entries.find? fun p => p.1 = k).map Prod.snd

variable {t : Table κ β cap} {k : κ}

lemma get_eq_none_iff : t.get k = none ↔ k ∉ t.keys := by
  rw [get, map_eq_none_iff, find?_eq_none, keys, List.mem_map]
  constructor
  · rintro h ⟨p, hp, hk⟩
    exact h p hp (decide_eq_true hk)
  · exact fun h p hp hk => h ⟨p, hp, of_decide_eq_true hk⟩

lemma get_isSome_iff : (t.get k).isSome = true ↔ k ∈ t.keys := by
  rw [← not_iff_not, ← get_eq_none_iff, not_isSome_iff_eq_none]

/-- Put an entry for a new key. -/
def put (t : Table κ β cap) (k : κ) (b : β) : Option (Table κ β cap) :=
  if h : k ∉ t.keys ∧ t.entries.length < cap then
    some ⟨t.entries ++ [(k, b)], by
      rw [map_append, map_singleton]
      exact nodup_append_comm.mp (nodup_cons.mpr ⟨h.1, t.nodup⟩), by
      rw [length_append, length_singleton]
      exact h.2⟩
  else none

/-- Change the entry of a key. -/
def update (t : Table κ β cap) (k : κ) (f : β → β) : Table κ β cap where
  entries := t.entries.map fun p => if p.1 = k then (p.1, f p.2) else p
  nodup := by
    have hkeys : (Prod.fst ∘ fun p : κ × β => if p.1 = k then (p.1, f p.2) else p) = Prod.fst := by
      funext p
      simp only [Function.comp_apply]
      split_ifs <;> rfl
    rw [List.map_map, hkeys]
    exact t.nodup
  length_le := by
    rw [length_map]
    exact t.length_le

lemma keys_update (t : Table κ β cap) (k : κ) (f : β → β) : (t.update k f).keys = t.keys := by
  unfold keys update
  rw [List.map_map]
  refine map_congr_left fun p _ => ?_
  simp only [Function.comp_apply]
  split_ifs <;> rfl

lemma get_update (t : Table κ β cap) (k k' : κ) (f : β → β) :
    (t.update k f).get k' = if k' = k then (t.get k').map f else t.get k' := by
  unfold get update
  rw [find?_map, Option.map_map, Option.map_map]
  have hsame : (fun p : κ × β => decide (p.1 = k')) ∘
      (fun p => if p.1 = k then (p.1, f p.2) else p) = fun p => decide (p.1 = k') := by
    funext p
    simp only [Function.comp_apply]
    split_ifs <;> rfl
  rw [hsame]
  cases hfind : t.entries.find? (fun p => decide (p.1 = k')) with
  | none => simp
  | some p =>
    have hp : p.1 = k' := by simpa using find?_some hfind
    by_cases hk : k' = k
    · simp [hp, hk]
    · simp [hp, hk]

variable {t' : Table κ β cap} {b : β}

lemma keys_put (h : t.put k b = some t') : t'.keys = t.keys ++ [k] := by
  unfold put at h
  split_ifs at h
  cases h
  simp [keys]

lemma get_put (h : t.put k b = some t') (k' : κ) :
    t'.get k' = if k' = k then some b else t.get k' := by
  unfold put at h
  split_ifs at h with hnew
  cases h
  unfold get
  rw [find?_append]
  by_cases hk : k' = k
  · subst hk
    have hnone : t.entries.find? (fun p => decide (p.1 = k')) = none :=
      map_eq_none_iff.mp (get_eq_none_iff.mpr hnew.1)
    simp [hnone]
  · have hone : [(k, b)].find? (fun p => decide (p.1 = k')) = none := by
      simp [Ne.symm hk]
    rw [hone, or_none, if_neg hk]

lemma put_eq_none (h : t.put k b = none) (hk : k ∉ t.keys) : t.keys.length = cap := by
  unfold put at h
  split_ifs at h with hnew
  have hle := t.length_le
  rw [keys, length_map]
  have : ¬t.entries.length < cap := fun hlt => hnew ⟨hk, hlt⟩
  omega

/-! ### Tallies -/

section
variable (key : ρ → κ) (new : κ → β) (add : β → ρ → β)

/-- Add a row to the entry of its key. -/
def tally (t : Table κ β cap) (r : ρ) : Table κ β cap :=
  if (t.get (key r)).isSome then t.update (key r) (add · r)
  else match t.put (key r) (new (key r)) with
    | none => t
    | some t => t.update (key r) (add · r)

/-- The rows of a key. -/
def rowsOf (rows : List ρ) (k : κ) : List ρ := rows.filter fun r => key r = k

/-- Every entry is the tally of the rows of its key, and a key without an entry found the table
full. -/
structure Tallied (rows : List ρ) (t : Table κ β cap) : Prop where
  keys_subset : t.keys ⊆ rows.map key
  get_eq : ∀ k b, t.get k = some b → b = (rowsOf key rows k).foldl add (new k)
  full : ∀ k ∈ rows.map key, k ∉ t.keys → t.keys.length = cap

end

variable {key : ρ → κ} {new : κ → β} {add : β → ρ → β}

lemma rowsOf_append_self (rows : List ρ) (r : ρ) :
    rowsOf key (rows ++ [r]) (key r) = rowsOf key rows (key r) ++ [r] := by
  simp [rowsOf]

variable {rows : List ρ} {r : ρ}

lemma rowsOf_append_ne (h : k ≠ key r) : rowsOf key (rows ++ [r]) k = rowsOf key rows k := by
  simp [rowsOf, h.symm]

lemma rowsOf_eq_nil (h : k ∉ rows.map key) : rowsOf key rows k = [] := by
  refine filter_eq_nil_iff.mpr fun r hr hk => h ?_
  exact List.mem_map.mpr ⟨r, hr, of_decide_eq_true hk⟩

lemma tallied_empty : Tallied key new add [] (empty : Table κ β cap) where
  keys_subset := List.Subset.refl _
  get_eq _ _ h := absurd h (by simp [get, empty])
  full _ h := absurd h not_mem_nil

/-- A row for a key with an entry. -/
lemma Tallied.update (h : Tallied key new add rows t) (hr : key r ∈ t.keys) :
    Tallied key new add (rows ++ [r]) (t.update (key r) (add · r)) where
  keys_subset := by
    rw [keys_update, map_append]
    exact subset_append_of_subset_left _ h.keys_subset
  get_eq := by
    intro k b hget
    rw [get_update] at hget
    by_cases hk : k = key r
    · subst hk
      rw [if_pos rfl, map_eq_some_iff] at hget
      obtain ⟨b₀, hb₀, rfl⟩ := hget
      rw [rowsOf_append_self, foldl_append, ← h.get_eq _ _ hb₀]
      rfl
    · rw [if_neg hk] at hget
      rw [rowsOf_append_ne hk]
      exact h.get_eq k b hget
  full := by
    intro k hk hnone
    rw [keys_update] at hnone ⊢
    rw [map_append, mem_append] at hk
    rcases hk with hk | hk
    · exact h.full k hk hnone
    · exact absurd (mem_singleton.mp hk ▸ hr) hnone

/-- The keys of a table are tallied for a row that comes to a full table. -/
lemma Tallied.drop (h : Tallied key new add rows t) (hr : key r ∉ t.keys)
    (hfull : t.keys.length = cap) : Tallied key new add (rows ++ [r]) t where
  keys_subset := by
    rw [map_append]
    exact subset_append_of_subset_left _ h.keys_subset
  get_eq := by
    intro k b hget
    have hk : k ≠ key r := by
      rintro rfl
      exact hr (get_isSome_iff.mp (by rw [hget]; rfl))
    rw [rowsOf_append_ne hk]
    exact h.get_eq k b hget
  full := fun _ _ _ => hfull

/-- A row for a new key, while there is room. -/
lemma Tallied.create (h : Tallied key new add rows t) (hr : key r ∉ t.keys)
    (hput : t.put (key r) (new (key r)) = some t') :
    Tallied key new add (rows ++ [r]) (t'.update (key r) (add · r)) := by
  have hkeys := keys_put hput
  have hroom : t.keys.length < cap := by
    have hle := t'.length_le
    have hlength := congrArg List.length hkeys
    rw [keys, length_map, length_append, length_singleton] at hlength
    omega
  have hnew : key r ∉ rows.map key := fun hmem => absurd (h.full _ hmem hr) (Nat.ne_of_lt hroom)
  refine ⟨?_, fun k b hget => ?_, fun k hk hnone => ?_⟩
  · rw [keys_update, hkeys, map_append]
    exact append_subset.mpr ⟨subset_append_of_subset_left _ h.keys_subset, subset_append_right _ _⟩
  · rw [get_update, get_put hput] at hget
    by_cases hk : k = key r
    · subst hk
      rw [if_pos rfl, if_pos rfl, map_some] at hget
      rw [rowsOf_append_self, rowsOf_eq_nil hnew]
      exact (some_inj.mp hget).symm
    · rw [if_neg hk, if_neg hk] at hget
      rw [rowsOf_append_ne hk]
      exact h.get_eq k b hget
  · rw [keys_update, hkeys, mem_append, not_or] at hnone
    rw [map_append, mem_append] at hk
    rcases hk with hk | hk
    · exact absurd (h.full k hk hnone.1) (Nat.ne_of_lt hroom)
    · exact absurd hk hnone.2

lemma tallied_tally (h : Tallied key new add rows t) (r : ρ) :
    Tallied key new add (rows ++ [r]) (tally key new add t r) := by
  unfold tally
  split_ifs with hget
  · exact h.update (get_isSome_iff.mp hget)
  · have hkey : key r ∉ t.keys := fun hmem => hget (get_isSome_iff.mpr hmem)
    cases hput : t.put (key r) (new (key r)) with
    | none => exact h.drop hkey (put_eq_none hput hkey)
    | some t' => exact h.create hkey hput

/-- A table that rows were added to one after the other. -/
theorem tallied_foldl (rows : List ρ) :
    Tallied key new add rows (rows.foldl (tally key new add) (empty : Table κ β cap)) := by
  induction rows using List.reverseRecOn with
  | nil => exact tallied_empty
  | append_singleton rows r ih =>
    rw [foldl_append]
    exact tallied_tally ih r

/-- Every key has an entry exactly if there are not more keys than entries. -/
theorem Tallied.forall_mem_keys_iff (h : Tallied key new add rows t) :
    (∀ k ∈ rows.map key, k ∈ t.keys) ↔ (rows.map key).dedup.length ≤ cap := by
  have hlength : t.keys.length ≤ cap := by
    rw [keys, length_map]
    exact t.length_le
  constructor
  · intro hall
    have hsub : (rows.map key).dedup ⊆ t.keys := fun k hk => hall k (mem_dedup.mp hk)
    exact Nat.le_trans ((nodup_dedup _).subperm hsub).length_le hlength
  · intro hle k hk
    by_contra hnone
    -- the table is full of other keys
    have hcons : (k :: t.keys) ⊆ (rows.map key).dedup := by
      refine cons_subset.mpr ⟨mem_dedup.mpr hk, fun k' hk' => ?_⟩
      exact mem_dedup.mpr (h.keys_subset hk')
    have hmore := ((nodup_cons.mpr ⟨hnone, t.nodup⟩).subperm hcons).length_le
    rw [length_cons, h.full k hk hnone] at hmore
    omega

end Table

end PiksiBuildroot.Lib
