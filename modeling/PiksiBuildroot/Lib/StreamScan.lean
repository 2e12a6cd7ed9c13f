import Mathlib.Data.List.Basic

/-!
# Scanning a stream for frames

A scanner looks at the front of what is left of a stream and finds that a frame of some length
starts there, that the first element starts none, or that it cannot tell before more has come
(`Verdict`). A scanner is `Stable` when what it finds does not change as more of the stream comes;
then a prefix can be scanned before the rest is known.
-/

namespace PiksiBuildroot.Lib

open List

variable {α : Type*}

/-- What a scanner finds at the front of a stream. -/
inductive Verdict where
  | more
  | skip
  | frame (len : ℕ)
  deriving DecidableEq, Repr

/-- All frames of a stream: drop an element at every `skip`, take a frame at every `frame`, and
stop when the scanner wants more than there is. -/
def scan (verdict : List α → Verdict) (l : List α) : List (List α) := match l with
  | [] => []
  | a :: l =>
    match verdict (a :: l) with
    | .more => []
    | .skip => scan verdict l
    | .frame len => (a :: l).take len :: scan verdict (l.drop (len - 1))
termination_by l.length
decreasing_by all_goals simp only [length_cons, length_drop]; omega

/-- A verdict other than `more` stays when the stream goes on, and a frame is there in full. -/
structure Stable (verdict : List α → Verdict) : Prop where
  nil : verdict [] = .more
  keep : ∀ l r, verdict l ≠ .more → verdict (l ++ r) = verdict l
  pos : ∀ l len, verdict l = .frame len → 0 < len ∧ len ≤ l.length

variable {verdict : List α → Verdict} {l : List α}

/-- Nothing is found in a stream the scanner cannot tell about. -/
lemma scan_eq_nil_of_more (h : verdict l = .more) : scan verdict l = [] := by
  cases l with
  | nil => rw [scan]
  | cons a l => rw [scan, h]

/-- An element that starts no frame is dropped, whatever follows. -/
theorem scan_append_of_skip (hv : Stable verdict) (h : verdict l = .skip) (r : List α) :
    scan verdict (l ++ r) = scan verdict (l.tail ++ r) := by
  cases l with
  | nil =>
    rw [hv.nil] at h
    exact absurd h (by simp)
  | cons a l =>
    have hkeep : verdict (a :: (l ++ r)) = .skip := (hv.keep (a :: l) r (by simp [h])).trans h
    rw [cons_append, scan, hkeep]
    rfl

/-- A frame is taken, whatever follows. -/
theorem scan_append_of_frame (hv : Stable verdict) {len : ℕ} (h : verdict l = .frame len)
    (r : List α) : scan verdict (l ++ r) = l.take len :: scan verdict (l.drop len ++ r) := by
  obtain ⟨hpos, hlen⟩ := hv.pos l len h
  cases l with
  | nil =>
    rw [length_nil] at hlen
    omega
  | cons a l =>
    have hkeep : verdict (a :: (l ++ r)) = .frame len := (hv.keep (a :: l) r (by simp [h])).trans h
    obtain ⟨len, rfl⟩ := Nat.exists_eq_add_one_of_ne_zero (Nat.ne_zero_of_lt hpos)
    simp only [length_cons, Nat.add_le_add_iff_right] at hlen
    rw [cons_append, scan, hkeep]
    simp [take_append_of_le_length hlen, drop_append_of_le_length hlen]

end PiksiBuildroot.Lib
