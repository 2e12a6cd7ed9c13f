import Mathlib.Data.List.Basic

/-!
# Arrays with checked accesses

`load` reads some elements of a list from an offset on, and `Block.store` overwrites some elements
of an array of fixed size. Neither has a result if the access leaves the array.
-/

namespace PiksiBuildroot.Lib

variable {α : Type*}

/-- Read `n` elements from `offset` on. -/
def load (l : List α) (offset n : ℕ) : Option (List α) :=
  if offset + n ≤ l.length then some ((l.drop offset).take n) else none

lemma load_of_le {l : List α} {offset n : ℕ} (h : offset + n ≤ l.length) :
    load l offset n = some ((l.drop offset).take n) := if_pos h

/-- An array of a fixed size. -/
structure Block (α : Type*) (size : ℕ) where
  toList : List α
  length_eq : toList.length = size
  deriving DecidableEq

namespace Block

variable {size : ℕ}

/-- Overwrite the elements from `offset` on. -/
def store (b : Block α size) (offset : ℕ) (data : List α) : Option (Block α size) :=
  if h : offset + data.length ≤ size then
    some
      { toList := b.toList.take offset ++ data ++ b.toList.drop (offset + data.length)
        length_eq := by
          have hlength := b.length_eq
          simp only [List.length_append, List.length_take, List.length_drop]
          omega }
  else none

/-- A store inside the array. -/
lemma exists_store (b : Block α size) {offset : ℕ} {data : List α}
    (h : offset + data.length ≤ size) :
    ∃ b', b.store offset data = some b' ∧
      b'.toList = b.toList.take offset ++ data ++ b.toList.drop (offset + data.length) :=
  ⟨_, dif_pos h, rfl⟩

lemma store_eq_none_iff (b : Block α size) {offset : ℕ} {data : List α} :
    b.store offset data = none ↔ size < offset + data.length := by
  unfold store
  split_ifs with h
  · simp [Nat.not_lt.mpr h]
  · simp [Nat.not_le.mp h]

/-- The array up to the end of what was stored. -/
lemma take_of_store {b b' : Block α size} {offset : ℕ} {data : List α}
    (h : b.store offset data = some b') :
    b'.toList.take (offset + data.length) = b.toList.take offset ++ data := by
  have hle : offset + data.length ≤ size := by
    by_contra hlt
    rw [(b.store_eq_none_iff).mpr (Nat.not_le.mp hlt)] at h
    cases h
  obtain ⟨b'', hb'', hlist⟩ := b.exists_store hle
  obtain rfl := Option.some_inj.mp (hb''.symm.trans h)
  have hlength : (b.toList.take offset ++ data).length = offset + data.length := by
    have := b.length_eq
    simp only [List.length_append, List.length_take]
    omega
  rw [hlist, List.take_append_of_le_length (Nat.le_of_eq hlength.symm),
    List.take_of_length_le (Nat.le_of_eq hlength)]

end Block

end PiksiBuildroot.Lib
