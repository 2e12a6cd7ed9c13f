import Mathlib.Data.List.Basic

/-!
# Machines that take one action at a time

A machine has a first state and, for each action, either a next state or none when the action is
not possible. Interleavings of several parties are machines whose actions are the atomic steps of
the parties. `Reaches` are the states that runs of any length lead to; the one rule is
`Reaches.invariant`. `restrict` allows an action only in states where a condition holds, so that
its runs are those all of whose steps meet the condition (`Reaches.invariant_restrict`).
-/

namespace PiksiBuildroot.Lib

/-- A first state and the effect of each action. -/
structure Machine (σ α : Type*) where
  init : σ
  step : σ → α → Option σ

namespace Machine

variable {σ α : Type*} (m : Machine σ α)

/-- Take some actions in order. -/
def run (actions : List α) : Option σ := actions.foldlM m.step m.init

/-- The states that runs lead to. -/
inductive Reaches : σ → Prop
  | init : Reaches m.init
  | step {s s' : σ} {a : α} : Reaches s → m.step s a = some s' → Reaches s'

/-- Allow an action only where `ok` holds. -/
def restrict (ok : σ → α → Prop) [∀ s a, Decidable (ok s a)] : Machine σ α where
  init := m.init
  step s a := if ok s a then m.step s a else none

/-- The same steps from another state on. -/
def startAt (s : σ) : Machine σ α := { m with init := s }

variable {m}

/-- What holds at first and is kept by every step holds in every state reached. -/
theorem Reaches.invariant {inv : σ → Prop} (init : inv m.init)
    (step : ∀ s a s', inv s → m.step s a = some s' → inv s') {s : σ} (h : m.Reaches s) :
    inv s := by
  induction h with
  | init => exact init
  | step _ hstep ih => exact step _ _ _ ih hstep

lemma run_append_singleton (actions : List α) (a : α) :
    m.run (actions ++ [a]) = (m.run actions).bind fun s => m.step s a := by
  unfold run
  simp [List.foldlM_append]

/-- A run leads to a state that is reached. -/
lemma reaches_of_run {actions : List α} {s : σ} (h : m.run actions = some s) : m.Reaches s := by
  suffices hfrom : ∀ s₀, m.Reaches s₀ → actions.foldlM m.step s₀ = some s → m.Reaches s from
    hfrom m.init .init h
  clear h
  induction actions with
  | nil =>
    intro s₀ hs₀ h
    simp only [List.foldlM_nil, Option.pure_def, Option.some.injEq] at h
    exact h ▸ hs₀
  | cons a actions ih =>
    intro s₀ hs₀ h
    obtain ⟨s₁, hstep, hrest⟩ := Option.bind_eq_some_iff.mp h
    exact ih s₁ (.step hs₀ hstep) hrest

/-- A run to a state with some property reaches a state that has it. -/
lemma exists_reaches_of_run (actions : List α) {p : σ → Prop} [DecidablePred p]
    (h : (m.run actions).any (fun s => decide (p s)) = true) : ∃ s, m.Reaches s ∧ p s := by
  rcases hrun : m.run actions with _ | s
  · simp [hrun] at h
  · exact ⟨s, reaches_of_run hrun, by simpa [hrun] using h⟩

/-- Such a state also has what every state reached with the property has. -/
lemma exists_reaches_and_of_run (actions : List α) {p q : σ → Prop} [DecidablePred p]
    (h : (m.run actions).any (fun s => decide (p s)) = true)
    (hq : ∀ s, m.Reaches s → p s → q s) : ∃ s, m.Reaches s ∧ p s ∧ q s := by
  obtain ⟨s, hs, hp⟩ := exists_reaches_of_run actions h
  exact ⟨s, hs, hp, hq s hs hp⟩

/-- A step of the restricted machine is a step that meets the condition. -/
lemma restrict_step_eq_some {ok : σ → α → Prop} [∀ s a, Decidable (ok s a)] {s s' : σ} {a : α} :
    (m.restrict ok).step s a = some s' ↔ ok s a ∧ m.step s a = some s' := by
  simp only [restrict]
  split_ifs with h
  · exact ⟨fun hs => ⟨h, hs⟩, fun hs => hs.2⟩
  · exact ⟨fun hs => absurd hs (by simp), fun hs => absurd hs.1 h⟩

/-- The rule for runs that meet a condition: a step also has the condition. -/
theorem Reaches.invariant_restrict {ok : σ → α → Prop} [∀ s a, Decidable (ok s a)] {s : σ}
    (h : (m.restrict ok).Reaches s) (inv : σ → Prop) (init : inv m.init)
    (step : ∀ s a s', inv s → ok s a → m.step s a = some s' → inv s') : inv s := by
  induction h with
  | init => exact init
  | step _ hstep ih =>
    obtain ⟨hok, hstep⟩ := restrict_step_eq_some.mp hstep
    exact step _ _ _ ih hok hstep

/-- Runs that meet a condition are runs. -/
lemma Reaches.of_restrict {ok : σ → α → Prop} [∀ s a, Decidable (ok s a)] {s : σ}
    (h : (m.restrict ok).Reaches s) : m.Reaches s := by
  induction h with
  | init => exact .init
  | step _ hstep ih => exact .step ih (restrict_step_eq_some.mp hstep).2

/-- Runs from a state that is reached are parts of runs. -/
lemma Reaches.of_startAt {s₀ s : σ} (h : (m.startAt s₀).Reaches s) (hs₀ : m.Reaches s₀) :
    m.Reaches s := by
  induction h with
  | init => exact hs₀
  | step _ hstep ih => exact .step ih hstep

lemma Reaches.trans_startAt {s₀ s₁ s : σ} (h : (m.startAt s₁).Reaches s)
    (hs₁ : (m.startAt s₀).Reaches s₁) : (m.startAt s₀).Reaches s :=
  @Reaches.of_startAt _ _ (m.startAt s₀) _ _ h hs₁

/-- A condition that always holds restricts nothing. -/
theorem Reaches.restrict {s : σ} (h : m.Reaches s) (ok : σ → α → Prop)
    [∀ s a, Decidable (ok s a)] (hok : ∀ s a, ok s a) : (m.restrict ok).Reaches s := by
  induction h with
  | init => exact .init
  | step _ hstep ih => exact .step ih (restrict_step_eq_some.mpr ⟨hok _ _, hstep⟩)

end Machine

end PiksiBuildroot.Lib
