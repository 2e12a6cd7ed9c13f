import PiksiBuildroot.Lib.Machine

/-!
# Runs that go on for ever

A `Path` is an infinite run of a machine. It is fair to some actions if they are taken again and
again unless they stop being enabled. The rules are `Fair.exists_taken`, for what stays enabled
until it is taken, and `exists_lt_of_grows`, for a number that never falls and always grows again.
-/

namespace PiksiBuildroot.Lib.Machine

variable {σ α : Type*} {m : Machine σ α}

/-- An infinite run. -/
structure Path (m : Machine σ α) where
  state : ℕ → σ
  action : ℕ → α
  init : state 0 = m.init
  step : ∀ n, m.step (state n) (action n) = some (state (n + 1))

namespace Path

lemma reaches (p : m.Path) (n : ℕ) : m.Reaches (p.state n) := by
  induction n with
  | zero => exact p.init ▸ .init
  | succ n ih => exact .step ih (p.step n)

/-- What is enabled from some time on is taken at some later time. -/
def Fair (p : m.Path) (enabled : σ → Prop) (taken : α → Prop) : Prop :=
  ∀ n, (∀ k, n ≤ k → enabled (p.state k)) → ∃ k, n ≤ k ∧ taken (p.action k)

/-- What stays enabled until it is taken is taken. -/
theorem Fair.exists_taken {p : m.Path} {enabled : σ → Prop} {taken : α → Prop}
    (h : p.Fair enabled taken) {n : ℕ} (hn : enabled (p.state n))
    (keep : ∀ k, enabled (p.state k) → ¬taken (p.action k) → enabled (p.state (k + 1))) :
    ∃ k, n ≤ k ∧ taken (p.action k) := by
  by_contra hnever
  have hidle : ∀ k, n ≤ k → ¬taken (p.action k) := fun k hk htaken => hnever ⟨k, hk, htaken⟩
  refine hnever (h n fun k hk => ?_)
  induction hk with
  | refl => exact hn
  | step hk ih => exact keep _ ih (hidle _ hk)

/-- A number that never falls and always grows again exceeds every bound. -/
theorem exists_lt_of_grows (p : m.Path) {f : σ → ℕ} {n : ℕ}
    (mono : ∀ k, n ≤ k → f (p.state k) ≤ f (p.state (k + 1)))
    (grows : ∀ k, n ≤ k → ∃ j, k ≤ j ∧ f (p.state j) < f (p.state (j + 1))) (bound : ℕ) :
    ∃ k, n ≤ k ∧ bound < f (p.state k) := by
  have hle : ∀ k j, n ≤ k → k ≤ j → f (p.state k) ≤ f (p.state j) := by
    intro k j hk hj
    induction hj with
    | refl => exact Nat.le_refl _
    | step hj ih => exact Nat.le_trans ih (mono _ (Nat.le_trans hk hj))
  induction bound with
  | zero =>
    obtain ⟨j, hj, hlt⟩ := grows n (Nat.le_refl _)
    exact ⟨j + 1, by omega, Nat.lt_of_le_of_lt (Nat.zero_le _) hlt⟩
  | succ bound ih =>
    obtain ⟨k, hk, hbound⟩ := ih
    obtain ⟨j, hj, hlt⟩ := grows k hk
    have := hle k j hk hj
    exact ⟨j + 1, by omega, by omega⟩

end Path

/-- A run, and then the same action for ever. -/
theorem exists_path_of_run {actions : List α} {s : σ} (h : m.run actions = some s) {a : α}
    (hidle : m.step s a = some s) :
    ∃ p : m.Path, ∀ n, actions.length ≤ n → p.state n = s ∧ p.action n = a := by
  suffices hfrom : ∀ s₀, actions.foldlM m.step s₀ = some s →
      ∃ p : (m.startAt s₀).Path, ∀ n, actions.length ≤ n → p.state n = s ∧ p.action n = a from
    hfrom m.init h
  clear h
  induction actions with
  | nil =>
    intro s₀ h
    obtain rfl := Option.some_inj.mp h
    exact ⟨⟨fun _ => s₀, fun _ => a, rfl, fun _ => hidle⟩, fun _ _ => ⟨rfl, rfl⟩⟩
  | cons first actions ih =>
    intro s₀ h
    simp only [List.foldlM_cons, Option.bind_eq_bind, Option.bind_eq_some_iff] at h
    obtain ⟨s₁, hfirst, hrest⟩ := h
    obtain ⟨p, hp⟩ := ih s₁ hrest
    refine ⟨⟨fun | 0 => s₀ | n + 1 => p.state n, fun | 0 => first | n + 1 => p.action n,
      rfl, ?_⟩, ?_⟩
    · intro n
      cases n with
      | zero =>
        change m.step s₀ first = some (p.state 0)
        rw [hfirst, p.init]
        rfl
      | succ n => exact p.step n
    · intro n hn
      cases n with
      | zero => simp at hn
      | succ n => exact hp n (Nat.le_of_succ_le_succ hn)

end PiksiBuildroot.Lib.Machine
