import PiksiBuildroot.Lib.Machine

/-!
# Components with a periodic timer

A component takes inputs, some of which restart its timer, and is told when the timer has expired,
on which it may give an alert. The timer expires a period after it was restarted or has last
expired, whichever is later. `TimedComponent.machine` has an action for the passing of time, which
cannot go beyond an expiry that is due, and a log of what happened and when.

`TimedComponent.invariant` is the induction rule: one case for the passing of time, one for an input
and one for an expiry.
-/

namespace PiksiBuildroot.Lib

open List Option

/-- The effect of an input, with whether the timer is restarted, and of an expiry, with whether an
alert is given. -/
structure TimedComponent (σ ι : Type) where
  period : Nat
  init : σ
  input : σ → ι → σ × Bool
  expire : σ → σ × Bool

/-- What is logged. -/
inductive TimedEvent (ι : Type)
  | input (i : ι)
  | expired (alert : Bool)
  deriving DecidableEq

/-- Times and events, the latest first. -/
abbrev TimedLog (ι : Type) := List (Nat × TimedEvent ι)

/-- The time, the time at which the timer is due, the state of the component and the log. -/
structure TimedState (σ ι : Type) where
  now : Nat
  due : Nat
  comp : σ
  log : TimedLog ι

/-- What can happen. -/
inductive TimedAction (ι : Type)
  | pass (d : Nat)
  | input (i : ι)
  | expire

/-- The property of each alert, by its time and the log before it. -/
def EachAlert {ι : Type} (P : Nat → TimedLog ι → Prop) (log : TimedLog ι) : Prop :=
  ∀ later t past, log = later ++ (t, .expired true) :: past → P t past

/-- The latest input of a kind, with its time. -/
def latestInput {ι β : Type} (f : ι → Option β) : TimedLog ι → Option (Nat × β)
  | [] => none
  | (t, .input i) :: past =>
    match f i with
    | some b => some (t, b)
    | none => latestInput f past
  | (_, .expired _) :: past => latestInput f past

namespace TimedComponent

variable {σ ι : Type} (c : TimedComponent σ ι)

/-- The state some time later. -/
def later (s : TimedState σ ι) (d : Nat) : TimedState σ ι := { s with now := s.now + d }

/-- The state after an input. -/
def received (s : TimedState σ ι) (i : ι) : TimedState σ ι where
  now := s.now
  due := if (c.input s.comp i).2 then s.now + c.period else s.due
  comp := (c.input s.comp i).1
  log := (s.now, .input i) :: s.log

/-- The state after an expiry. -/
def expired (s : TimedState σ ι) : TimedState σ ι where
  now := s.now
  due := s.now + c.period
  comp := (c.expire s.comp).1
  log := (s.now, .expired (c.expire s.comp).2) :: s.log

/-- The component with its timer. -/
def machine : Machine (TimedState σ ι) (TimedAction ι) where
  init := { now := 0, due := c.period, comp := c.init, log := [] }
  step s
    | .pass d => if s.now + d ≤ s.due then some (later s d) else none
    | .input i => some (c.received s i)
    | .expire => if s.now = s.due then some (c.expired s) else none

/-- The timer is due within a period, and the log is about the past. -/
structure Regular (s : TimedState σ ι) : Prop where
  now_le_due : s.now ≤ s.due
  due_le : s.due ≤ s.now + c.period
  log_le : ∀ entry ∈ s.log, entry.1 ≤ s.now
  sorted : s.log.Pairwise fun entry earlier => earlier.1 ≤ entry.1

variable {c}

lemma regular_init : c.Regular c.machine.init :=
  ⟨Nat.zero_le _, by simp [machine], fun _ hentry => absurd hentry not_mem_nil, .nil⟩

variable {s : TimedState σ ι}

lemma Regular.later (h : c.Regular s) {d : Nat} (hd : s.now + d ≤ s.due) : c.Regular (later s d) :=
  ⟨hd, Nat.le_trans h.due_le (Nat.add_le_add_right (Nat.le_add_right _ _) _),
    fun entry hentry => Nat.le_trans (h.log_le entry hentry) (Nat.le_add_right _ _), h.sorted⟩

/-- The timer is not due any earlier after an input. -/
lemma Regular.due_le_received (h : c.Regular s) (i : ι) : s.due ≤ (c.received s i).due := by
  simp only [TimedComponent.received]
  split
  · exact h.due_le
  · exact Nat.le_refl _

lemma Regular.received (h : c.Regular s) (i : ι) : c.Regular (c.received s i) := by
  refine ⟨Nat.le_trans h.now_le_due (h.due_le_received i), ?_, ?_, .cons h.log_le h.sorted⟩
  · simp only [TimedComponent.received]
    split
    · exact Nat.le_refl _
    · exact h.due_le
  · intro entry hentry
    rcases mem_cons.mp hentry with rfl | hentry
    · exact Nat.le_refl _
    · exact h.log_le entry hentry

lemma Regular.expired (h : c.Regular s) : c.Regular (c.expired s) := by
  refine ⟨Nat.le_add_right _ _, Nat.le_refl _, fun entry hentry => ?_, .cons h.log_le h.sorted⟩
  rcases mem_cons.mp hentry with rfl | hentry
  · exact Nat.le_refl _
  · exact h.log_le entry hentry

variable {s₀ : TimedState σ ι}

/-- A property that the passing of time, every input and every expiry keep, holds in every run whose
steps meet a condition. -/
lemma invariant {ok : TimedState σ ι → TimedAction ι → Prop} [∀ s a, Decidable (ok s a)]
    (h : ((c.machine.startAt s₀).restrict ok).Reaches s) (hs₀ : c.Regular s₀)
    (inv : TimedState σ ι → Prop) (init : inv s₀)
    (pass : ∀ s d, c.Regular s → inv s → ok s (.pass d) → s.now + d ≤ s.due → inv (later s d))
    (input : ∀ s i, c.Regular s → inv s → ok s (.input i) → inv (c.received s i))
    (expire : ∀ s, c.Regular s → inv s → ok s .expire → s.now = s.due → inv (c.expired s)) :
    c.Regular s ∧ inv s := by
  refine h.invariant_restrict (fun s => c.Regular s ∧ inv s) ⟨hs₀, init⟩ ?_
  rintro s a s' ⟨hregular, hinv⟩ hok hstep
  cases a with
  | pass d =>
    obtain ⟨hd, heq⟩ := ite_none_right_eq_some.mp hstep
    cases heq
    exact ⟨hregular.later hd, pass s d hregular hinv hok hd⟩
  | input i =>
    cases hstep
    exact ⟨hregular.received i, input s i hregular hinv hok⟩
  | expire =>
    obtain ⟨hdue, heq⟩ := ite_none_right_eq_some.mp hstep
    cases heq
    exact ⟨hregular.expired, expire s hregular hinv hok hdue⟩

/-- The rule for runs from the beginning, without a condition. -/
lemma invariant_of_reaches (h : c.machine.Reaches s) (inv : TimedState σ ι → Prop)
    (init : inv c.machine.init)
    (pass : ∀ s d, c.Regular s → inv s → s.now + d ≤ s.due → inv (later s d))
    (input : ∀ s i, c.Regular s → inv s → inv (c.received s i))
    (expire : ∀ s, c.Regular s → inv s → s.now = s.due → inv (c.expired s)) : c.Regular s ∧ inv s :=
  invariant (h.restrict (fun _ _ => True) fun _ _ => trivial) regular_init inv init
    (fun s d hs hinv _ => pass s d hs hinv) (fun s i hs hinv _ => input s i hs hinv)
    (fun s hs hinv _ => expire s hs hinv)

lemma regular_of_reaches (h : c.machine.Reaches s) : c.Regular s :=
  (invariant_of_reaches h (fun _ => True) trivial (fun _ _ _ _ _ => trivial)
    (fun _ _ _ _ => trivial) fun _ _ _ _ => trivial).1

/-- An input that always restarts the timer was a period before the timer is due. -/
lemma input_add_period_le {P : ι → Prop} (hrestart : ∀ comp i, P i → (c.input comp i).2 = true)
    (h : c.machine.Reaches s) : ∀ t i, (t, .input i) ∈ s.log → P i → t + c.period ≤ s.due := by
  refine (invariant_of_reaches h
    (fun s => ∀ t i, (t, .input i) ∈ s.log → P i → t + c.period ≤ s.due) ?_ ?_ ?_ ?_).2
  · exact fun t i hmem => absurd hmem not_mem_nil
  · exact fun s d _ hinv _ => hinv
  · intro s i hs hinv t j hmem hj
    rcases mem_cons.mp hmem with heq | hmem
    · cases heq
      simp [received, hrestart s.comp i hj]
    · exact Nat.le_trans (hinv t j hmem hj) (hs.due_le_received i)
  · intro s hs hinv hdue t j hmem hj
    have hold := mem_of_ne_of_mem (by simp) hmem
    exact Nat.le_trans (hinv t j hold hj) (hdue ▸ Nat.le_add_right _ _)

/-- Time passes until the timer expires. -/
lemma reaches_expiry (h : (c.machine.startAt s₀).Reaches s) (hs : s.now ≤ s.due) :
    (c.machine.startAt s₀).Reaches (c.expired { s with now := s.due }) := by
  have hnow : s.now + (s.due - s.now) = s.due := Nat.add_sub_cancel' hs
  have hpass : (c.machine.startAt s₀).step s (.pass (s.due - s.now)) =
      some { s with now := s.due } := by
    simp [Machine.startAt, machine, later, hnow]
  exact .step (a := .expire) (.step h hpass) (if_pos rfl)

end TimedComponent

variable {ι : Type}

lemma eachAlert_nil (P : Nat → TimedLog ι → Prop) : EachAlert P [] := by
  intro later t past h
  simp at h

variable {t : Nat}

lemma eachAlert_cons {P : Nat → TimedLog ι → Prop} {e : TimedEvent ι} {log : TimedLog ι} :
    EachAlert P ((t, e) :: log) ↔ (e = .expired true → P t log) ∧ EachAlert P log := by
  constructor
  · intro h
    refine ⟨fun he => h [] t log (by rw [he]; rfl), fun later t' past hlog => ?_⟩
    exact h ((t, e) :: later) t' past (by rw [hlog]; rfl)
  · rintro ⟨hnew, hold⟩ later t' past hlog
    cases later with
    | nil =>
      cases hlog
      exact hnew rfl
    | cons entry later => exact hold later t' past (cons.inj hlog).2

/-- A property of the moment of each alert is one of each alert in the log. -/
lemma TimedComponent.eachAlert_of_reaches {σ ι : Type} {c : TimedComponent σ ι}
    {ok : TimedState σ ι → TimedAction ι → Prop} [∀ s a, Decidable (ok s a)]
    {P : Nat → TimedLog ι → Prop} {s : TimedState σ ι} (h : (c.machine.restrict ok).Reaches s)
    (hP : ∀ s, (c.machine.restrict ok).Reaches s → s.now = s.due →
      (c.expire s.comp).2 = true → P s.now s.log) : EachAlert P s.log := by
  induction h with
  | init => exact eachAlert_nil P
  | @step s s' a hs hstep ih =>
    have hstep := (Machine.restrict_step_eq_some.mp hstep).2
    cases a with
    | pass d =>
      obtain ⟨-, heq⟩ := ite_none_right_eq_some.mp hstep
      cases heq
      exact ih
    | input i =>
      cases hstep
      exact eachAlert_cons.mpr ⟨fun h => by simp at h, ih⟩
    | expire =>
      obtain ⟨hdue, heq⟩ := ite_none_right_eq_some.mp hstep
      cases heq
      exact eachAlert_cons.mpr ⟨fun h => hP s hs hdue (by simpa using h), ih⟩

variable {β : Type}

lemma mem_of_latestInput {f : ι → Option β} {log : TimedLog ι} {b : β}
    (h : latestInput f log = some (t, b)) : ∃ i, (t, .input i) ∈ log ∧ f i = some b := by
  induction log with
  | nil => simp [latestInput] at h
  | cons entry past ih =>
    obtain ⟨t', e⟩ := entry
    cases e with
    | expired alert =>
      obtain ⟨i, hmem, hi⟩ := ih h
      exact ⟨i, mem_cons_of_mem _ hmem, hi⟩
    | input i =>
      unfold latestInput at h
      split at h
      · next b' hb' =>
          cases h
          exact ⟨i, mem_cons_self, hb'⟩
      · obtain ⟨j, hmem, hj⟩ := ih h
        exact ⟨j, mem_cons_of_mem _ hmem, hj⟩

/-- No input of the kind is later than the latest one. -/
lemma le_of_latestInput {f : ι → Option β} {log : TimedLog ι}
    (hsorted : log.Pairwise fun entry earlier => earlier.1 ≤ entry.1) {b : β}
    (h : latestInput f log = some (t, b)) {t' : Nat} {i : ι} (hmem : (t', .input i) ∈ log)
    (hi : (f i).isSome) : t' ≤ t := by
  induction log with
  | nil => exact absurd hmem not_mem_nil
  | cons entry past ih =>
    obtain ⟨hhead, htail⟩ := pairwise_cons.mp hsorted
    obtain ⟨t₁, e⟩ := entry
    cases e with
    | expired alert => exact ih htail h (mem_of_ne_of_mem (by simp) hmem)
    | input j =>
      unfold latestInput at h
      split at h
      · cases h
        rcases mem_cons.mp hmem with heq | hmem
        · cases heq
          exact Nat.le_refl _
        · exact hhead _ hmem
      · next hnone =>
          refine ih htail h ?_
          rcases mem_cons.mp hmem with heq | hmem
          · cases heq
            simp [hnone] at hi
          · exact hmem

end PiksiBuildroot.Lib
