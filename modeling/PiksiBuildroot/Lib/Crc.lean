import Mathlib.Data.List.Basic

/-!
# Cyclic redundancy checks, bit by bit

`crcBits poly c bits` is the remainder register `c` of width `w` after the bits of a message have
been shifted through it, most significant bit first. The register is additive (`crcBits_xor`),
which is why a message can be processed several bits at a time with a table
(`crcBits_eq_shift_xor`).
-/

namespace PiksiBuildroot.Lib

variable {w : ℕ} (poly : BitVec w)

/-- Shift one bit of the message through the register. -/
def crcBit (c : BitVec w) (bit : Bool) : BitVec w :=
  if c.msb ^^ bit then (c <<< 1) ^^^ poly else c <<< 1

/-- Shift the bits of the message through the register, in order. -/
def crcBits (c : BitVec w) (bits : List Bool) : BitVec w := bits.foldl (crcBit poly) c

/-- The `k` most significant bits of the register, in order. -/
def topBits : ℕ → BitVec w → List Bool
  | 0, _ => []
  | k + 1, c => c.msb :: topBits k (c <<< 1)

variable {poly}

/-- One bit: the shifted register, and the polynomial if the top bit and the message differ. -/
lemma crcBit_eq (c : BitVec w) (bit : Bool) :
    crcBit poly c bit = (c <<< 1) ^^^ (if c.msb ^^ bit then poly else 0) := by
  unfold crcBit
  split_ifs
  · rfl
  · simp

/-- A choice between a value and zero is additive. -/
lemma ite_xor_ite (a b : Bool) (x : BitVec w) :
    (if a ^^ b then x else 0) = (if a then x else 0) ^^^ (if b then x else 0) := by
  cases a <;> cases b <;> simp

/-- One bit is additive in the register and the message. -/
lemma crcBit_xor (c d : BitVec w) (a b : Bool) :
    crcBit poly (c ^^^ d) (a ^^ b) = crcBit poly c a ^^^ crcBit poly d b := by
  have hmsb : (c ^^^ d).msb = (c.msb ^^ d.msb) := BitVec.msb_xor
  have hbit : ((c.msb ^^ d.msb) ^^ (a ^^ b)) = ((c.msb ^^ a) ^^ (d.msb ^^ b)) := by
    cases c.msb <;> cases d.msb <;> cases a <;> cases b <;> rfl
  rw [crcBit_eq, crcBit_eq, crcBit_eq, hmsb, hbit, ite_xor_ite, BitVec.shiftLeft_xor_distrib]
  ac_rfl

/-- The register is additive: what is added to it runs through with zeroes for the message. -/
theorem crcBits_xor (c d : BitVec w) (bits : List Bool) : crcBits poly (c ^^^ d) bits =
      crcBits poly c bits ^^^ crcBits poly d (List.replicate bits.length false) := by
  induction bits generalizing c d with
  | nil => rfl
  | cons b bits ih =>
    have hbit : crcBit poly (c ^^^ d) b = crcBit poly c b ^^^ crcBit poly d false := by
      have := @crcBit_xor w poly c d b false
      rwa [Bool.xor_false] at this
    show crcBits poly (crcBit poly (c ^^^ d) b) bits = _
    rw [hbit, ih]
    rfl

lemma crcBits_append (c : BitVec w) (bits more : List Bool) :
    crcBits poly c (bits ++ more) = crcBits poly (crcBits poly c bits) more :=
  List.foldl_append

/-- There are `k` top bits. -/
@[simp]
lemma length_topBits (k : ℕ) (c : BitVec w) : (topBits k c).length = k := by
  induction k generalizing c with
  | zero => rfl
  | succ k ih => simp [topBits, ih]

/-- The top bits are additive. -/
lemma topBits_xor (k : ℕ) (c d : BitVec w) :
    (topBits k c).zipWith xor (topBits k d) = topBits k (c ^^^ d) := by
  induction k generalizing c d with
  | zero => rfl
  | succ k ih =>
    simp only [topBits, List.zipWith_cons_cons, ih, BitVec.msb_xor, BitVec.shiftLeft_xor_distrib]

/-- As many bits as are in `bits`, at once: the register is shifted out, and the message is
processed with the bits that leave the register added to it. -/
theorem crcBits_eq_shift_xor (c : BitVec w) (bits : List Bool) : crcBits poly c bits =
      (c <<< bits.length) ^^^ crcBits poly 0 ((topBits bits.length c).zipWith xor bits) := by
  induction bits generalizing c with
  | nil => simp [crcBits, topBits]
  | cons b bits ih =>
    -- `e` is what this bit adds to the register, `rest` the message of the remaining bits
    obtain ⟨e, he⟩ : ∃ e, e = if c.msb ^^ b then poly else 0 := ⟨_, rfl⟩
    obtain ⟨rest, hrest⟩ : ∃ l, l = (topBits bits.length (c <<< 1)).zipWith xor bits := ⟨_, rfl⟩
    have hlen : rest.length = bits.length := by simp [hrest]
    have hleft : crcBits poly c (b :: bits) =
        crcBits poly (c <<< 1) bits ^^^ crcBits poly e (List.replicate bits.length false) := by
      show crcBits poly (crcBit poly c b) bits = _
      rw [crcBit_eq, ← he, crcBits_xor]
    have hright : crcBits poly 0 ((c.msb ^^ b) :: rest) =
        crcBits poly 0 rest ^^^ crcBits poly e (List.replicate bits.length false) := by
      have hzero : crcBit poly 0 (c.msb ^^ b) = 0 ^^^ e := by
        rw [crcBit_eq, he]
        simp
      show crcBits poly (crcBit poly 0 (c.msb ^^ b)) rest = _
      rw [hzero, crcBits_xor, hlen]
    rw [hleft, ih, ← hrest, List.length_cons, topBits, List.zipWith_cons_cons, ← hrest, hright,
      Nat.add_comm, BitVec.shiftLeft_add]
    ac_rfl

/-- A message of zeroes leaves an empty register empty. -/
lemma crcBits_zero (k : ℕ) : crcBits poly 0#w (topBits k 0#w) = 0#w := by
  induction k with
  | zero => rfl
  | succ k ih =>
    have hbit : crcBit poly 0#w (0#w).msb = 0#w := by simp [crcBit]
    show crcBits poly (crcBit poly 0#w (0#w).msb) (topBits k (0#w <<< 1)) = 0#w
    rw [hbit, BitVec.zero_shiftLeft]
    exact ih

/-- A message that goes on with the bits of the register leaves nothing. -/
theorem crcBits_topBits (c : BitVec w) : crcBits poly c (topBits w c) = 0#w := by
  rw [crcBits_eq_shift_xor, length_topBits, topBits_xor, BitVec.xor_self,
    BitVec.shiftLeft_eq_zero (Nat.le_refl w), BitVec.zero_xor]
  exact crcBits_zero w

end PiksiBuildroot.Lib
