import Mathlib.Data.Nat.Init

/-!
# Loops with an exit

`loop body fuel s` runs a loop body that either goes round again with a new state or leaves with a
value; `none` means that the fuel ran out, or that the body itself gave nothing. The rule
`exists_loop` is total correctness: an invariant, a measure that every round decreases and a
postcondition of every exit give a value, which any fuel above the measure computes.
-/

namespace PiksiBuildroot.Lib

variable {σ β : Type*}

/-- Run a loop body until it leaves. -/
def loop (body : σ → Option (σ ⊕ β)) : ℕ → σ → Option β
  | 0, _ => none
  | fuel + 1, s =>
    match body s with
    | none => none
    | some (.inl s') => loop body fuel s'
    | some (.inr b) => some b

/-- What one round has to do for the rule: go round with the invariant kept and the measure
smaller, or leave with the postcondition. -/
def RoundOk (inv : σ → Prop) (measure : σ → ℕ) (post : β → Prop) (s : σ) : σ ⊕ β → Prop
  | .inl s' => inv s' ∧ measure s' < measure s
  | .inr b => post b

/-- The rule for loops: with enough fuel the loop leaves, and the postcondition holds. -/
theorem exists_loop {body : σ → Option (σ ⊕ β)} {inv : σ → Prop} {measure : σ → ℕ}
    {post : β → Prop}
    (round : ∀ s, inv s → ∃ o, body s = some o ∧ RoundOk inv measure post s o)
    {s : σ} (hs : inv s) :
    ∃ b, post b ∧ ∀ fuel, measure s < fuel → loop body fuel s = some b := by
  induction hm : measure s using Nat.strongRecOn generalizing s with
  | _ m ih =>
    obtain ⟨o, ho, hok⟩ := round s hs
    cases o with
    | inl s' =>
      obtain ⟨hinv, hlt⟩ := hok
      obtain ⟨b, hb, hrun⟩ := ih (measure s') (hm ▸ hlt) hinv rfl
      refine ⟨b, hb, ?_⟩
      intro fuel hfuel
      obtain ⟨fuel, rfl⟩ := Nat.exists_eq_add_one_of_ne_zero (Nat.ne_zero_of_lt hfuel)
      simp only [loop, ho]
      exact hrun fuel (by omega)
    | inr b =>
      refine ⟨b, hok, ?_⟩
      intro fuel hfuel
      obtain ⟨fuel, rfl⟩ := Nat.exists_eq_add_one_of_ne_zero (Nat.ne_zero_of_lt hfuel)
      simp only [loop, ho]

/-- A loop leaves where its body does. -/
theorem of_loop_eq_some {body : σ → Option (σ ⊕ β)} {post : β → Prop}
    (exit : ∀ s b, body s = some (.inr b) → post b) {fuel : ℕ} {s : σ} {b : β}
    (h : loop body fuel s = some b) : post b := by
  induction fuel generalizing s with
  | zero => cases h
  | succ fuel ih =>
    rw [loop] at h
    split at h
    · cases h
    · exact ih h
    · rename_i b' hbody
      obtain rfl := Option.some_inj.mp h
      exact exit s b' hbody

end PiksiBuildroot.Lib
