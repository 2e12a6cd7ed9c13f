import Mathlib.Data.List.Basic
import Mathlib.Data.List.ModifyLast

/-!
# Parsers that act on a state

A step parser reads a first part of its tokens and changes a state. `Reads inv n p text act` says
that, on fewer than `n` tokens and from a state with `inv`, `p` succeeds exactly on the texts `text
x` of some syntax `x`, and that it then does to the state what `x` means. A `Focus` is a part of the
state that may be missing; syntax often acts on the part alone (`Focus.on`).
-/

namespace PiksiBuildroot.Lib

open List Option

variable {τ σ ε α X Y : Type*}

/-! ### Step parsers -/

/-- What a step parser returns: the tokens that are left and the new state. -/
abbrev StepResult (τ σ ε : Type*) := Except ε (List τ × σ)

/-- On fewer than `n` tokens the parser succeeds exactly on the texts of the syntax, and acts as the
syntax says. -/
def Reads (inv : σ → Prop) (n : ℕ) (p : List τ → σ → StepResult τ σ ε) (text : X → List τ)
    (act : X → σ → Option σ) : Prop :=
  ∀ ts s ts' s', inv s → ts.length < n →
    (p ts s = .ok (ts', s') ↔ ∃ x, ts = text x ++ ts' ∧ act x s = some s')

/-- The text of several items and of an ending. -/
def manyText (text : X → List τ) (ending : List τ) (xs : List X) : List τ :=
  xs.flatMap text ++ ending

/-- What several items do to the state, one after the other. -/
def manyAct (act : X → σ → Option σ) (xs : List X) (s : σ) : Option σ :=
  xs.foldlM (fun s x => act x s) s

@[simp] lemma manyAct_nil (act : X → σ → Option σ) (s : σ) : manyAct act [] s = some s := rfl

@[simp] lemma manyAct_cons (act : X → σ → Option σ) (x : X) (xs : List X) (s : σ) :
    manyAct act (x :: xs) s = (act x s).bind (manyAct act xs) := rfl

/-- Items that always do something. -/
lemma manyAct_some (f : X → σ → σ) (xs : List X) (s : σ) :
    manyAct (fun x s => some (f x s)) xs s = some (xs.foldl (fun s x => f x s) s) := by
  induction xs generalizing s with
  | nil => rfl
  | cons x xs ih => exact ih (f x s)

variable {inv : σ → Prop} {n : ℕ} {p q : List τ → σ → StepResult τ σ ε} {text : X → List τ}
  {act : X → σ → Option σ}

/-- Another description of the same syntax. -/
theorem Reads.congr {text' : Y → List τ} {act' : Y → σ → Option σ} (h : Reads inv n p text act)
    (hxy : ∀ x s s', inv s → act x s = some s' → ∃ y, text' y = text x ∧ act' y s = some s')
    (hyx : ∀ y s s', inv s → act' y s = some s' → ∃ x, text x = text' y ∧ act x s = some s') :
    Reads inv n p text' act' := by
  intro ts s ts' s' hs hlength
  rw [h ts s ts' s' hs hlength]
  constructor
  · rintro ⟨x, rfl, hact⟩
    obtain ⟨y, htext, hacty⟩ := hxy x s s' hs hact
    exact ⟨y, by rw [htext], hacty⟩
  · rintro ⟨y, rfl, hact⟩
    obtain ⟨x, htext, hactx⟩ := hyx y s s' hs hact
    exact ⟨x, by rw [htext], hactx⟩

lemma Reads.weaken {inv' : σ → Prop} (h : Reads inv n p text act) (hinv : ∀ s, inv' s → inv s) :
    Reads inv' n p text act :=
  fun ts s ts' s' hs hlength => h ts s ts' s' (hinv s hs) hlength

/-- Another description of what the syntax does. -/
lemma Reads.congr_act {act' : X → σ → Option σ} (h : Reads inv n p text act)
    (hact : ∀ x s, inv s → act' x s = act x s) : Reads inv n p text act' := by
  apply h.congr
  · intro x s s' hs hx
    exact ⟨x, rfl, by rw [hact x s hs, hx]⟩
  · intro x s s' hs hx
    exact ⟨x, rfl, by rw [← hact x s hs, hx]⟩

/-- A parser that wants one token in front. -/
theorem Reads.opened {t : τ} (h : Reads inv n p text act) (hopen : ∀ ts s, q (t :: ts) s = p ts s)
    (helse : ∀ ts s r, q ts s = .ok r → ∃ ts', ts = t :: ts') :
    Reads inv (n + 1) q (fun x => t :: text x) act := by
  intro ts s ts' s' hs hlength
  constructor
  · intro hq
    obtain ⟨us, rfl⟩ := helse ts s _ hq
    rw [hopen] at hq
    obtain ⟨x, rfl, hx⟩ := (h us s ts' s' hs (Nat.lt_of_succ_lt_succ hlength)).mp hq
    exact ⟨x, rfl, hx⟩
  · rintro ⟨x, rfl, hx⟩
    rw [cons_append, hopen]
    exact (h _ s ts' s' hs (Nat.lt_of_succ_lt_succ hlength)).mpr ⟨x, rfl, hx⟩

/-- A loop that reads items until a closing token comes, and then the rest of an ending. -/
theorem reads_many {h item : ℕ → List τ → σ → StepResult τ σ ε} {close : τ} {rest : List τ}
    (hnil : ∀ fuel s r, h fuel [] s ≠ .ok r)
    (hclose : ∀ fuel ts s ts' s', ts.length < fuel →
      (h (fuel + 1) (close :: ts) s = .ok (ts', s') ↔ ts = rest ++ ts' ∧ s = s'))
    (hitem : ∀ fuel t ts s, t ≠ close →
      h (fuel + 1) (t :: ts) s = (item fuel (t :: ts) s).bind fun r => h fuel r.1 r.2)
    (htext : ∀ x, ∃ t ts, text x = t :: ts ∧ t ≠ close)
    (hinv : ∀ x s s', inv s → act x s = some s' → inv s')
    (hreads : ∀ fuel, Reads inv (fuel + 1) (item fuel) text act) (fuel : ℕ) :
    Reads inv fuel (h fuel) (manyText text (close :: rest)) (manyAct act) := by
  induction fuel with
  | zero => exact fun ts s ts' s' hs hlength => absurd hlength (Nat.not_lt_zero _)
  | succ fuel ih =>
    intro ts s ts' s' hs hlength
    constructor
    · intro hok
      cases ts with
      | nil => exact absurd hok (hnil _ _ _)
      | cons t ts =>
        have hlt : ts.length < fuel := Nat.lt_of_succ_lt_succ hlength
        by_cases ht : t = close
        · rw [ht, hclose fuel ts s ts' s' hlt] at hok
          obtain ⟨rfl, rfl⟩ := hok
          exact ⟨[], by simp [ht, manyText], rfl⟩
        · rw [hitem fuel t ts s ht] at hok
          cases hfirst : item fuel (t :: ts) s with
          | error e => rw [hfirst] at hok; cases hok
          | ok r =>
            obtain ⟨us, u⟩ := r
            rw [hfirst] at hok
            obtain ⟨x, hx, hact⟩ := (hreads fuel (t :: ts) s us u hs hlength).mp hfirst
            have hus : us.length < fuel := by
              obtain ⟨t₁, ts₁, htx, -⟩ := htext x
              have hsum := congrArg List.length hx
              simp only [htx, length_append, length_cons] at hsum
              omega
            obtain ⟨xs, hxs, hmany⟩ := (ih us u ts' s' (hinv x s u hs hact) hus).mp hok
            refine ⟨x :: xs, ?_, ?_⟩
            · rw [hx, hxs]
              simp [manyText]
            · rw [manyAct_cons, hact]
              exact hmany
    · rintro ⟨xs, rfl, hact⟩
      cases xs with
      | nil =>
        obtain rfl : s = s' := some.inj hact
        exact (hclose fuel _ s ts' s (Nat.lt_of_succ_lt_succ hlength)).mpr ⟨rfl, rfl⟩
      | cons x xs =>
        obtain ⟨t, us, htx, ht⟩ := htext x
        obtain ⟨u, hu, hmany⟩ := bind_eq_some_iff.mp hact
        have hsplit : manyText text (close :: rest) (x :: xs) ++ ts' =
            text x ++ (manyText text (close :: rest) xs ++ ts') := by
          simp [manyText]
        rw [hsplit] at hlength ⊢
        have hlt : (manyText text (close :: rest) xs ++ ts').length < fuel := by
          rw [htx, cons_append, length_cons, length_append] at hlength
          omega
        have hfirst := (hreads fuel _ s _ u hs hlength).mpr ⟨x, rfl, hu⟩
        rw [htx, cons_append] at hfirst ⊢
        rw [hitem fuel t _ s ht, hfirst]
        exact (ih _ u ts' s' (hinv x s u hs hu) hlt).mpr ⟨xs, rfl, hmany⟩

/-! ### Acting on a part of the state -/

/-- A part of the state that may be missing, and how to replace it. -/
structure Focus (σ α : Type*) where
  get : σ → Option α
  set : α → σ → σ
  get_set : ∀ a s, (get s).isSome → get (set a s) = some a
  set_set : ∀ a b s, set b (set a s) = set b s
  set_get : ∀ a s, get s = some a → set a s = s

namespace Focus

variable (F : Focus σ α)

/-- Act on the part alone. -/
def on (f : α → Option α) (s : σ) : Option σ := (F.get s).bind fun a => (f a).map fun b => F.set b s

variable {F : Focus σ α}

lemma on_of_get {a : α} {s : σ} (h : F.get s = some a) (f : α → Option α) :
    F.on f s = (f a).map fun b => F.set b s := by
  rw [on, h]
  rfl

/-- The part stays there. -/
lemma isSome_of_on {f : α → Option α} {s s' : σ} (h : F.on f s = some s') : (F.get s').isSome := by
  obtain ⟨a, ha, h⟩ := bind_eq_some_iff.mp h
  obtain ⟨b, -, rfl⟩ := map_eq_some_iff.mp h
  rw [F.get_set b s (by rw [ha]; rfl)]
  rfl

lemma on_bind (f g : α → Option α) (s : σ) :
    (F.on f s).bind (F.on g) = F.on (fun a => (f a).bind g) s := by
  unfold on
  cases ha : F.get s with
  | none => rfl
  | some a =>
    have hsome : (F.get s).isSome := by rw [ha]; rfl
    cases hb : f a with
    | none => simp [hb]
    | some b => simp [hb, F.get_set b s hsome, F.set_set]

/-- Several items that act on the part alone. -/
lemma manyAct_on (act : X → α → Option α) (xs : List X) {s : σ} (h : (F.get s).isSome) :
    manyAct (fun x => F.on (act x)) xs s = F.on (manyAct act xs) s := by
  induction xs generalizing s with
  | nil =>
    obtain ⟨a, ha⟩ := isSome_iff_exists.mp h
    rw [on_of_get ha]
    simp [F.set_get a s ha]
  | cons x xs ih =>
    have hrest : (F.on (act x) s).bind (manyAct (fun x => F.on (act x)) xs) =
        (F.on (act x) s).bind (F.on (manyAct act xs)) := by
      cases hx : F.on (act x) s with
      | none => rfl
      | some s' => exact ih (isSome_of_on hx)
    rw [manyAct_cons, hrest, on_bind]
    rfl

/-- A field of a record. -/
def field (get : σ → α) (set : α → σ → σ) (get_set : ∀ a s, get (set a s) = a)
    (set_set : ∀ a b s, set b (set a s) = set b s) (set_get : ∀ s, set (get s) s = s) :
    Focus σ α where
  get s := some (get s)
  set := set
  get_set a s _ := congrArg some (get_set a s)
  set_set := set_set
  set_get := by
    rintro a s h
    obtain rfl := some.inj h
    exact set_get s

/-- The end of a list. -/
def last : Focus (List α) α where
  get l := l.getLast?
  set a l := l.modifyLast fun _ => a
  get_set := by
    intro a l h
    obtain ⟨b, hb⟩ := isSome_iff_exists.mp h
    obtain ⟨l, rfl⟩ := getLast?_eq_some_iff.mp hb
    simp [modifyLast_concat]
  set_set := by
    intro a b l
    rcases eq_nil_or_concat l with rfl | ⟨l, c, rfl⟩
    · rfl
    · simp [modifyLast_concat]
  set_get := by
    intro a l h
    obtain ⟨l, rfl⟩ := getLast?_eq_some_iff.mp h
    simp [modifyLast_concat]

/-- A part of a part. -/
def comp {β : Type*} (F : Focus σ α) (G : Focus α β) : Focus σ β where
  get s := (F.get s).bind G.get
  set b s := match F.get s with
    | none => s
    | some a => F.set (G.set b a) s
  get_set := by
    intro b s h
    cases ha : F.get s with
    | none =>
      rw [ha] at h
      exact absurd h Bool.false_ne_true
    | some a =>
      rw [ha] at h
      simp only [F.get_set (G.set b a) s (by rw [ha]; rfl), bind_some]
      exact G.get_set b a h
  set_set := by
    intro b c s
    cases ha : F.get s with
    | none => simp only [ha]
    | some a => simp only [F.get_set _ s (by rw [ha]; rfl), F.set_set, G.set_set]
  set_get := by
    intro b s h
    cases ha : F.get s with
    | none => rfl
    | some a =>
      rw [ha] at h
      simp only [G.set_get b a h, F.set_get a s ha]

end Focus

end PiksiBuildroot.Lib
