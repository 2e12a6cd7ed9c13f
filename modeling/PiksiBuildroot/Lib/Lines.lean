import Mathlib.Data.List.Basic

/-!
# The lines of a text

A text is cut at a delimiter: `terminated` are the pieces that end in one, `unterminated` is what
comes after the last. A text is either without a delimiter or a line and a further text
(`lines_induction`).
-/

namespace PiksiBuildroot.Lib

open List

variable {α : Type*} [DecidableEq α]

/-- The pieces of a text that end in a delimiter, without it. -/
def terminated (d : α) (text : List α) : List (List α) := (text.splitOn d).dropLast

/-- What comes after the last delimiter. -/
def unterminated (d : α) (text : List α) : List α := (text.splitOn d).getLastD []

variable {d : α} {line text : List α}

lemma terminated_of_notMem (h : d ∉ text) : terminated d text = [] := by
  rw [terminated, splitOn_eq_singleton h]
  rfl

lemma unterminated_of_notMem (h : d ∉ text) : unterminated d text = text := by
  rw [unterminated, splitOn_eq_singleton h]
  rfl

lemma splitOn_append_cons (h : d ∉ line) (text : List α) :
    (line ++ d :: text).splitOn d = line :: text.splitOn d := by
  apply splitOnP_append_cons_of_forall_mem
  · intro a ha
    exact beq_eq_false_iff_ne.mpr fun had => h (had ▸ ha)
  · exact beq_self_eq_true d

lemma terminated_append_cons (h : d ∉ line) (text : List α) :
    terminated d (line ++ d :: text) = line :: terminated d text := by
  rw [terminated, splitOn_append_cons h, dropLast_cons_of_ne_nil (splitOn_ne_nil d text)]
  rfl

lemma unterminated_append_cons (h : d ∉ line) (text : List α) :
    unterminated d (line ++ d :: text) = unterminated d text := by
  rw [unterminated, splitOn_append_cons h, getLastD_cons, unterminated]
  obtain ⟨piece, pieces, hpieces⟩ := exists_cons_of_ne_nil (splitOn_ne_nil d text)
  rw [hpieces, getLastD_cons, getLastD_cons]

/-- A text is without a delimiter, or it is a line and a further text. -/
@[elab_as_elim]
theorem lines_induction {motive : List α → Prop} (d : α)
    (rest : ∀ text, d ∉ text → motive text)
    (line : ∀ line text, d ∉ line → motive text → motive (line ++ d :: text))
    (text : List α) : motive text := by
  induction hn : text.length using Nat.strongRecOn generalizing text with
  | _ n ih =>
    by_cases hmem : d ∈ text
    · obtain ⟨first, others, rfl, hfirst⟩ := eq_append_cons_of_mem hmem
      refine line first others hfirst (ih others.length ?_ others rfl)
      rw [← hn, length_append, length_cons]
      omega
    · exact rest text hmem

lemma notMem_unterminated (d : α) (text : List α) : d ∉ unterminated d text := by
  induction text using lines_induction d with
  | rest text h => rwa [unterminated_of_notMem h]
  | line line text h ih => rwa [unterminated_append_cons h]

theorem terminated_append (d : α) (text more : List α) : terminated d (text ++ more) =
      terminated d text ++ terminated d (unterminated d text ++ more) := by
  induction text using lines_induction d with
  | rest text h => rw [terminated_of_notMem h, unterminated_of_notMem h, nil_append]
  | line line text h ih =>
    rw [append_assoc, cons_append, terminated_append_cons h, terminated_append_cons h,
      unterminated_append_cons h, ih, cons_append]

theorem unterminated_append (d : α) (text more : List α) :
    unterminated d (text ++ more) = unterminated d (unterminated d text ++ more) := by
  induction text using lines_induction d with
  | rest text h => rw [unterminated_of_notMem h]
  | line line text h ih =>
    rw [append_assoc, cons_append, unterminated_append_cons h, unterminated_append_cons h, ih]

end PiksiBuildroot.Lib
