import Mathlib.Data.List.Perm.Basic

/-!
# Ledgers of what is acquired and released

A log of acquisitions and releases is read from an empty account. A release of what is not held at
that time has no meaning. A log is balanced if there is no such release and nothing is held at its
end (`balanced_append_releases_iff`).
-/

namespace PiksiBuildroot.Lib.Ledger

open List Option

/-- One entry of the log. -/
inductive Entry (α : Type*) where
  | acquire (a : α)
  | release (a : α)
  deriving DecidableEq, Repr

variable {α : Type*} [DecidableEq α]

/-- What is held after an entry. -/
def enter (held : List α) : Entry α → Option (List α)
  | .acquire a => some (a :: held)
  | .release a => if a ∈ held then some (held.erase a) else none

/-- What is held after a log. -/
def after (log : List (Entry α)) : Option (List α) := log.foldlM enter []

/-- All that was acquired was released once, and nothing else was released. -/
def Balanced (log : List (Entry α)) : Prop := after log = some []

instance (log : List (Entry α)) : Decidable (Balanced log) :=
  inferInstanceAs (Decidable (after log = some []))

variable {log : List (Entry α)} {held : List α}

lemma after_append (h : after log = some held) (more : List (Entry α)) :
    after (log ++ more) = more.foldlM enter held := by
  unfold after at h ⊢
  rw [foldlM_append, h]
  rfl

lemma foldlM_releases_eq_nil_iff (as held : List α) :
    (as.map Entry.release).foldlM enter held = some [] ↔ as.Perm held := by
  induction as generalizing held with
  | nil => simp [nil_perm]
  | cons a as ih =>
    rw [map_cons, foldlM_cons, cons_perm_iff_perm_erase, ← ih]
    by_cases ha : a ∈ held <;> simp [enter, ha]

/-- What is held was acquired. -/
lemma acquire_mem_of_after (h : after log = some held) {a : α} (ha : a ∈ held) :
    .acquire a ∈ log := by
  suffices hfrom : ∀ start, log.foldlM enter start = some held → a ∈ start ∨ .acquire a ∈ log by
    simpa using hfrom [] h
  clear h
  induction log with
  | nil =>
    intro start h
    cases h
    exact .inl ha
  | cons entry log ih =>
    intro start h
    obtain ⟨next, hnext, hrest⟩ := bind_eq_some_iff.mp h
    rcases ih next hrest with hmem | hmem
    · cases entry with
      | acquire b =>
        cases hnext
        rcases mem_cons.mp hmem with rfl | hmem
        · exact .inr mem_cons_self
        · exact .inl hmem
      | release b =>
        rw [enter, ite_none_right_eq_some] at hnext
        obtain rfl := some_inj.mp hnext.2
        exact .inl (mem_of_mem_erase hmem)
    · exact .inr (mem_cons_of_mem _ hmem)

/-- A last round of releases balances the log exactly if it is all that is held. -/
theorem balanced_append_releases_iff (h : after log = some held) (as : List α) :
    Balanced (log ++ as.map Entry.release) ↔ as.Perm held := by
  unfold Balanced
  rw [after_append h, foldlM_releases_eq_nil_iff]

end PiksiBuildroot.Lib.Ledger
