import Mathlib.Algebra.Group.Nat.Defs
import Mathlib.Data.List.Basic
import Mathlib.Data.List.DropRight
import Mathlib.Data.List.Induction
import Mathlib.Data.List.TakeWhile

/-!
# Reading text with the C library

`fgets`, `strtoul`, `atoi`, `strcmp` and the conversions of numbers of `sscanf` on lists of
characters, and what they do on text that was printed line by line with `%x`, or with `%u`. The
width of `long` is a parameter.
-/

namespace PiksiBuildroot.Lib.CText

open List Option

/-! ### Characters -/

/-- `isspace` in the C locale. -/
def isSpace (c : Char) : Bool := c == ' ' || (9 ≤ c.toNat && c.toNat ≤ 13)

/-- Value of a character as a digit: the letters of either case continue after `9`. -/
def digitValue (c : Char) : Option Nat := if 48 ≤ c.toNat ∧ c.toNat ≤ 57 then some (c.toNat - 48)
  else if 97 ≤ c.toNat ∧ c.toNat ≤ 122 then some (c.toNat - 87)
  else if 65 ≤ c.toNat ∧ c.toNat ≤ 90 then some (c.toNat - 55)
  else none

/-- The characters that are digits in a base. -/
def isDigitOf (base : Nat) (c : Char) : Bool := (digitValue c).any (· < base)

lemma isDigitOf_ten (c : Char) : isDigitOf 10 c = c.isDigit := by
  have hdigit : c.isDigit ↔ 48 ≤ c.toNat ∧ c.toNat ≤ 57 := Char.isDigit_iff_toNat
  unfold isDigitOf digitValue
  rw [Bool.eq_iff_iff, hdigit]
  split_ifs <;>
    simp only [any_some, any_none, decide_eq_true_eq, Bool.false_eq_true, false_iff] <;>
    omega

variable {base : Nat}

lemma isSpace_of_isDigitOf {c : Char} (h : isDigitOf base c) : isSpace c = false := by
  apply Bool.eq_false_iff.mpr
  intro hspace
  have hnat : c.toNat = 32 ∨ (9 ≤ c.toNat ∧ c.toNat ≤ 13) := by
    simp only [isSpace, Bool.or_eq_true, beq_iff_eq, Bool.and_eq_true, decide_eq_true_eq] at hspace
    rcases hspace with rfl | hspace
    · exact Or.inl rfl
    · exact Or.inr hspace
  unfold isDigitOf digitValue at h
  rw [if_neg (by omega), if_neg (by omega), if_neg (by omega)] at h
  cases h

/-! ### Numerals -/

/-- Value of a run of digits. -/
def value (base : Nat) (digits : List Char) : Nat :=
  digits.foldl (fun n c => base * n + (digitValue c).getD 0) 0

@[simp] lemma value_nil (base : Nat) : value base [] = 0 := rfl

lemma value_append_singleton (base : Nat) (digits : List Char) (c : Char) :
    value base (digits ++ [c]) = base * value base digits + (digitValue c).getD 0 := by
  simp [value]

/-- Each further digit multiplies the value by the base at least. -/
lemma mul_value_le_value_append (hbase : 0 < base) (digits : List Char) (c : Char)
    (more : List Char) : base * value base digits ≤ value base (digits ++ c :: more) := by
  induction more using List.reverseRecOn with
  | nil =>
    rw [value_append_singleton]
    exact Nat.le_add_right _ _
  | append_singleton more d ih =>
    rw [← cons_append, ← append_assoc, value_append_singleton]
    calc base * value base digits
        ≤ value base (digits ++ c :: more) := ih
      _ ≤ base * value base (digits ++ c :: more) := Nat.le_mul_of_pos_left _ hbase
      _ ≤ _ := Nat.le_add_right _ _

lemma digitValue_digitChar {d : Nat} (h : d < 16) : digitValue d.digitChar = some d := by
  revert d
  decide

/-- What `%x` prints has the value that was printed. -/
lemma value_toDigits (n : Nat) : value 16 (Nat.toDigits 16 n) = n := by
  induction n using Nat.strong_induction_on with
  | h n ih =>
    rw [Nat.toDigits_eq_if (by decide)]
    split
    · rename_i hlt
      rw [← nil_append [n.digitChar], value_append_singleton, digitValue_digitChar hlt]
      simp
    · have hmod : n % 16 < 16 := Nat.mod_lt n (by decide)
      rw [value_append_singleton, ih (n / 16) (by omega), digitValue_digitChar hmod]
      exact Nat.div_add_mod n 16

variable {n : Nat}

lemma isDigitOf_of_mem_toDigits {c : Char} (h : c ∈ Nat.toDigits 16 n) : isDigitOf 16 c := by
  induction n using Nat.strong_induction_on with
  | h n ih =>
    rw [Nat.toDigits_eq_if (by decide)] at h
    split at h
    · rename_i hlt
      obtain rfl := mem_singleton.mp h
      simp [isDigitOf, digitValue_digitChar hlt, hlt]
    · rcases mem_append.mp h with h | h
      · exact ih (n / 16) (by omega) h
      · obtain rfl := mem_singleton.mp h
        have hmod : n % 16 < 16 := Nat.mod_lt n (by decide)
        simp [isDigitOf, digitValue_digitChar hmod, hmod]

lemma value_ten {digits : List Char} (h : ∀ c ∈ digits, c.isDigit) :
    value 10 digits = Nat.ofDigitChars 10 digits 0 := by
  apply foldl_ext
  intro n c hc
  have hdigit : 48 ≤ c.toNat ∧ c.toNat ≤ 57 := Char.isDigit_iff_toNat.mp (h c hc)
  rw [digitValue, if_pos hdigit]
  rfl

/-- The number that a conversion to `unsigned long` of `bits` bits gives: too large a value is cut
at the maximum, a minus sign negates in the type. -/
def toUnsignedLong (bits : Nat) (negative : Bool) (n : Nat) : Nat :=
  if 2 ^ bits ≤ n then 2 ^ bits - 1
  else if negative then (2 ^ bits - n) % 2 ^ bits
  else n

variable {bits : Nat}

lemma toUnsignedLong_of_lt (h : n < 2 ^ bits) : toUnsignedLong bits false n = n := by
  unfold toUnsignedLong
  rw [if_neg (by omega)]
  rfl

/-- An optional sign. -/
def takeSign : List Char → Bool × List Char
  | '-' :: s => (true, s)
  | '+' :: s => (false, s)
  | s => (false, s)

/-- The text after an optional `0x`. -/
def dropHexMark : List Char → List Char
  | '0' :: 'x' :: s => s
  | '0' :: 'X' :: s => s
  | s => s

/-- `strtoul(s, &end, base)`: the number and the text at `end`. -/
def strtoul (bits base : Nat) (s : List Char) : Nat × List Char :=
  let (negative, t) := takeSign (s.dropWhile isSpace)
  -- a `0x` counts only in front of a digit
  let t := if base = 16 ∧ (dropHexMark t).head?.any (isDigitOf 16) then dropHexMark t else t
  let digits := t.takeWhile (isDigitOf base)
  if digits = [] then (0, s)
  else (toUnsignedLong bits negative (value base digits), t.dropWhile (isDigitOf base))

lemma takeSign_of_isDigitOf {c : Char} (s : List Char) (h : isDigitOf base c) :
    takeSign (c :: s) = (false, c :: s) := by
  unfold takeSign
  split
  · rename_i heq
    obtain ⟨rfl, -⟩ := cons.inj heq
    exact absurd h (Bool.false_ne_true)
  · rename_i heq
    obtain ⟨rfl, -⟩ := cons.inj heq
    exact absurd h (Bool.false_ne_true)
  · rfl

/-- At a decimal digit `strtoul` reads the whole run of digits. -/
lemma strtoul_ten {bits : Nat} {c : Char} (s : List Char) (h : c.isDigit) :
    strtoul bits 10 (c :: s) =
      (toUnsignedLong bits false (Nat.ofDigitChars 10 (c :: s.takeWhile Char.isDigit) 0),
        s.dropWhile Char.isDigit) := by
  have hdigit : isDigitOf 10 c := by rwa [isDigitOf_ten]
  have hspace := isSpace_of_isDigitOf hdigit
  have hfun : isDigitOf 10 = Char.isDigit := funext isDigitOf_ten
  have hrun : ∀ d ∈ c :: s.takeWhile Char.isDigit, d.isDigit := by
    intro d hd
    rcases mem_cons.mp hd with rfl | hd
    · exact h
    · exact mem_takeWhile_imp hd
  unfold strtoul
  rw [dropWhile_cons_of_neg (by simp [hspace]), takeSign_of_isDigitOf s hdigit]
  simp [hfun, h, value_ten hrun]

/-- The number that a conversion to `long` of `bits` bits gives: one out of range is cut at the
bound. -/
def toLong (bits : Nat) (negative : Bool) (n : Nat) : Int :=
  if negative then (if 2 ^ (bits - 1) ≤ n then -((2 ^ (bits - 1) : Nat) : Int) else -(n : Int))
  else (if 2 ^ (bits - 1) ≤ n then ((2 ^ (bits - 1) - 1 : Nat) : Int) else n)

/-- The conversion of a `long` to `int`. -/
def longToInt (v : Int) : Int := v.bmod (2 ^ 32)

/-- `atoi(s)`, for a `long` of `longBits` bits. -/
def atoi (longBits : Nat) (s : List Char) : Int :=
  let (negative, t) := takeSign (s.dropWhile isSpace)
  longToInt (toLong longBits negative (value 10 (t.takeWhile (isDigitOf 10))))

/-- `atoi` reads a printed number back, up to the width of `long`. -/
lemma atoi_toDigits (longBits n : Nat) :
    atoi longBits (Nat.toDigits 10 n) = longToInt (toLong longBits false n) := by
  have hdigits : ∀ c ∈ Nat.toDigits 10 n, c.isDigit := fun c hc =>
    Nat.isDigit_of_mem_toDigits (by decide) (by decide) hc
  have hvalue : value 10 (Nat.toDigits 10 n) = n := by
    rw [value_ten hdigits, Nat.ofDigitChars_ten_toDigits]
  have hfun : isDigitOf 10 = Char.isDigit := funext isDigitOf_ten
  have hall : (Nat.toDigits 10 n).takeWhile (isDigitOf 10) = Nat.toDigits 10 n := by
    rw [hfun]
    exact takeWhile_eq_self_iff.mpr hdigits
  obtain ⟨c, cs, hcs⟩ := exists_cons_of_ne_nil (@Nat.toDigits_ne_nil n 10)
  have hc : isDigitOf 10 c := by
    rw [hfun]
    exact hdigits c (by simp [hcs])
  have hstart : takeSign ((Nat.toDigits 10 n).dropWhile isSpace) = (false, Nat.toDigits 10 n) := by
    rw [hcs, dropWhile_cons_of_neg (by simp [isSpace_of_isDigitOf hc]), takeSign_of_isDigitOf cs hc]
  unfold atoi
  rw [hstart]
  dsimp only
  rw [hall, hvalue]

lemma ofInt_longToInt {n : UInt32} : UInt32.ofInt (longToInt n.toNat) = n := by
  have hmod : longToInt n.toNat % 2 ^ 32 = n.toNat := by
    have hemod := @Int.bmod_emod n.toNat (2 ^ 32)
    have hlt := n.toNat_lt
    unfold longToInt
    omega
  unfold UInt32.ofInt
  rw [hmod]
  simp

variable {longBits : Nat}

/-- A number that fits into `long` comes back as an `unsigned int`. -/
lemma ofInt_atoi {n : UInt32} (h : n.toNat < 2 ^ (longBits - 1)) :
    UInt32.ofInt (atoi longBits (Nat.toDigits 10 n.toNat)) = n := by
  rw [atoi_toDigits, toLong, if_neg Bool.false_ne_true, if_neg (by omega), ofInt_longToInt]

/-- A number that does not fit into `long`, which then has 32 bits, becomes the largest one. -/
lemma ofInt_atoi_of_le (hbits : 32 ≤ longBits) {n : UInt32} (h : 2 ^ (longBits - 1) ≤ n.toNat) :
    UInt32.ofInt (atoi longBits (Nat.toDigits 10 n.toNat)) = 0x7FFFFFFF := by
  have hbits' : longBits = 32 := by
    by_contra hne
    have hpow : 2 ^ 32 ≤ 2 ^ (longBits - 1) := Nat.pow_le_pow_right (by decide) (by omega)
    have hlt := n.toNat_lt
    omega
  subst hbits'
  rw [atoi_toDigits, toLong, if_neg Bool.false_ne_true, if_pos h]
  rfl

/-! ### `sscanf` -/

/-- The `%x` conversion of `sscanf`: the number and the text after it, or no conversion. -/
def scanHex (bits : Nat) (s : List Char) : Option (Nat × List Char) :=
  let (negative, t) := takeSign (s.dropWhile isSpace)
  let t := dropHexMark t
  let digits := t.takeWhile (isDigitOf 16)
  if digits = [] then none
  else some (toUnsignedLong bits negative (value 16 digits), t.dropWhile (isDigitOf 16))

/-- `sscanf(s, "%x %x", &a, &b)`, if both are converted. -/
def scanHexPair (bits : Nat) (s : List Char) : Option (Nat × Nat) := do
  let (a, s) ← scanHex bits s
  let (b, _) ← scanHex bits (s.dropWhile isSpace)
  return (a, b)

lemma scanHex_dropWhile (bits : Nat) (s : List Char) :
    scanHex bits (s.dropWhile isSpace) = scanHex bits s := by
  unfold scanHex
  rw [dropWhile_idempotent]

variable {b : Char}

lemma scanHex_space (bits : Nat) (hb : isSpace b) (s : List Char) :
    scanHex bits (b :: s) = scanHex bits s := by
  rw [← scanHex_dropWhile, dropWhile_cons_of_pos hb, scanHex_dropWhile]

/-- In front of a blank the digits of a number are not taken for a `0x`. -/
lemma dropHexMark_toDigits (n : Nat) (hb : isSpace b) (s : List Char) :
    dropHexMark (Nat.toDigits 16 n ++ b :: s) = Nat.toDigits 16 n ++ b :: s := by
  have hmark : ∀ x u, x = 'x' ∨ x = 'X' → Nat.toDigits 16 n ++ b :: s ≠ '0' :: x :: u := by
    intro x u hx heq
    -- an `x` is neither a digit nor a blank
    have hnone : isDigitOf 16 x = false ∧ isSpace x = false := by
      rcases hx with rfl | rfl <;> decide
    obtain ⟨c, cs, hcs⟩ := exists_cons_of_ne_nil (@Nat.toDigits_ne_nil n 16)
    rw [hcs, cons_append] at heq
    have htail := (cons.inj heq).2
    cases cs with
    | nil =>
      rw [(cons.inj htail).1, hnone.2] at hb
      cases hb
    | cons d ds =>
      have hd : isDigitOf 16 d := @isDigitOf_of_mem_toDigits n d (by simp [hcs])
      rw [(cons.inj htail).1, hnone.1] at hd
      cases hd
  unfold dropHexMark
  split
  · rename_i u heq
    exact absurd heq (hmark 'x' u (Or.inl rfl))
  · rename_i u heq
    exact absurd heq (hmark 'X' u (Or.inr rfl))
  · rfl

/-- What `%x` printed is read back, up to the next blank. -/
lemma scanHex_toDigits (h : n < 2 ^ bits) (hb : isSpace b) (s : List Char) :
    scanHex bits (Nat.toDigits 16 n ++ b :: s) = some (n, b :: s) := by
  have hall : ∀ c ∈ Nat.toDigits 16 n, isDigitOf 16 c := fun c => isDigitOf_of_mem_toDigits
  have hend : isDigitOf 16 b = false := by
    apply Bool.eq_false_iff.mpr
    intro hdigit
    rw [isSpace_of_isDigitOf hdigit] at hb
    cases hb
  have htake : (Nat.toDigits 16 n ++ b :: s).takeWhile (isDigitOf 16) = Nat.toDigits 16 n := by
    rw [takeWhile_append_of_pos hall, takeWhile_cons_of_neg (by simp [hend]), append_nil]
  have hdrop : (Nat.toDigits 16 n ++ b :: s).dropWhile (isDigitOf 16) = b :: s := by
    rw [dropWhile_append_of_pos hall, dropWhile_cons_of_neg (by simp [hend])]
  have hsign : takeSign ((Nat.toDigits 16 n ++ b :: s).dropWhile isSpace) =
      (false, Nat.toDigits 16 n ++ b :: s) := by
    obtain ⟨c, cs, hcs⟩ := exists_cons_of_ne_nil (@Nat.toDigits_ne_nil n 16)
    have hc : isDigitOf 16 c := hall c (by simp [hcs])
    rw [hcs, cons_append, dropWhile_cons_of_neg (by simp [isSpace_of_isDigitOf hc]),
      takeSign_of_isDigitOf _ hc]
  unfold scanHex
  simp only [hsign, dropHexMark_toDigits n hb, htake, hdrop, Nat.toDigits_ne_nil, value_toDigits,
    toUnsignedLong_of_lt h, if_false]

/-- What `printf("%x %x\n", a, b)` prints. -/
def printHexPair (a b : Nat) : List Char :=
  Nat.toDigits 16 a ++ ' ' :: (Nat.toDigits 16 b ++ ['\n'])

lemma scanHexPair_printHexPair {bits a b : Nat} (ha : a < 2 ^ bits) (hb : b < 2 ^ bits) :
    scanHexPair bits (printHexPair a b) = some (a, b) := by
  have hspace : isSpace ' ' := rfl
  have hfirst := scanHex_toDigits ha hspace (Nat.toDigits 16 b ++ ['\n'])
  have hsecond := scanHex_toDigits hb (show isSpace '\n' from rfl) []
  simp [scanHexPair, printHexPair, hfirst, scanHex_dropWhile, scanHex_space bits hspace, hsecond]

/-- A decimal number as `sscanf` takes it: blanks, a sign and digits. The result says whether the
number is negative, and has the text behind it. -/
def scanDecimal (s : List Char) : Option ((Bool × Nat) × List Char) :=
  let t := takeSign (s.dropWhile isSpace)
  let digits := t.2.takeWhile Char.isDigit
  if digits = [] then none else some ((t.1, value 10 digits), t.2.dropWhile Char.isDigit)

/-- The `%d` conversion of `sscanf`, for a `long` of `longBits` bits. -/
def scanInt (longBits : Nat) (s : List Char) : Option (Int × List Char) :=
  (scanDecimal s).map fun r => (longToInt (toLong longBits r.1.1 r.1.2), r.2)

/-- The `%u`, `%lu` and `%llu` conversions of `sscanf`, to a type of `bits` bits. -/
def scanUnsigned (bits : Nat) (s : List Char) : Option (Nat × List Char) :=
  (scanDecimal s).map fun r => (toUnsignedLong bits r.1.1 r.1.2, r.2)

/-- A number as it stands in a text: blanks, a sign and digits. -/
structure Numeral where
  blanks : List Char
  sign : Option Bool
  digits : List Char
  isSpace_of_mem : ∀ c ∈ blanks, isSpace c
  isDigit_of_mem : ∀ c ∈ digits, c.isDigit
  digits_ne : digits ≠ []

variable {s t : List Char}

namespace Numeral

/-- The character of a sign. -/
def signText : Option Bool → List Char
  | none => []
  | some true => ['-']
  | some false => ['+']

def text (n : Numeral) : List Char := n.blanks ++ (signText n.sign ++ n.digits)

def negative (n : Numeral) : Bool := n.sign == some true

def magnitude (n : Numeral) : Nat := value 10 n.digits

/-- The number has neither blanks nor a sign. -/
def Plain (n : Numeral) : Prop := n.blanks = [] ∧ n.sign = none

/-- Digits alone. -/
def ofDigits (digits : List Char) (hne : digits ≠ []) (h : ∀ c ∈ digits, c.isDigit) : Numeral :=
  ⟨[], none, digits, fun _ hc => absurd hc not_mem_nil, h, hne⟩

lemma text_of_plain {n : Numeral} (h : n.Plain) : n.text = n.digits := by
  rw [text, h.1, h.2]
  rfl

lemma exists_digits_eq (n : Numeral) : ∃ c cs, n.digits = c :: cs ∧ c.isDigit := by
  obtain ⟨c, cs, hcs⟩ := exists_cons_of_ne_nil n.digits_ne
  exact ⟨c, cs, hcs, n.isDigit_of_mem c (hcs ▸ mem_cons_self)⟩

/-- A number is plain exactly if its text begins with a digit. -/
lemma plain_iff (n : Numeral) : n.Plain ↔ ∃ c cs, n.text = c :: cs ∧ c.isDigit := by
  constructor
  · intro h
    rw [text_of_plain h]
    exact n.exists_digits_eq
  · rintro ⟨c, cs, htext, hc⟩
    have hblanks : n.blanks = [] := by
      by_contra hne
      obtain ⟨b, bs, hbs⟩ := exists_cons_of_ne_nil hne
      have hb := n.isSpace_of_mem b (hbs ▸ mem_cons_self)
      rw [text, hbs, cons_append] at htext
      rw [(cons.inj htext).1, isSpace_of_isDigitOf ((isDigitOf_ten c).trans hc)] at hb
      exact Bool.false_ne_true hb
    refine ⟨hblanks, ?_⟩
    rw [text, hblanks, nil_append] at htext
    match hsign : n.sign with
    | none => rfl
    | some true =>
      rw [hsign] at htext
      exact absurd hc ((cons.inj htext).1 ▸ Bool.false_ne_true)
    | some false =>
      rw [hsign] at htext
      exact absurd hc ((cons.inj htext).1 ▸ Bool.false_ne_true)

lemma text_ne_nil (n : Numeral) : n.text ≠ [] := by
  intro h
  have hdigits := (append_eq_nil_iff.mp (append_eq_nil_iff.mp h).2).2
  exact n.digits_ne hdigits

lemma plain_of_append {n : Numeral} {c : Char} (h : n.text ++ t = c :: s) (hc : c.isDigit) :
    n.Plain := by
  obtain ⟨d, ds, hds⟩ := exists_cons_of_ne_nil n.text_ne_nil
  rw [hds, cons_append] at h
  exact n.plain_iff.mpr ⟨d, ds, hds, (cons.inj h).1 ▸ hc⟩

lemma plain_of_text_eq {n m : Numeral} (h : n.text = m.text) (hn : n.Plain) : m.Plain :=
  m.plain_iff.mpr (h ▸ n.plain_iff.mp hn)

end Numeral

lemma takeSign_signText (sign : Option Bool) {c : Char} (s : List Char) (h : c.isDigit) :
    takeSign (Numeral.signText sign ++ c :: s) = (sign == some true, c :: s) := by
  match sign with
  | none => exact takeSign_of_isDigitOf s ((isDigitOf_ten c).trans h)
  | some true => rfl
  | some false => rfl

lemma exists_signText_eq (s : List Char) : ∃ sign, s = Numeral.signText sign ++ (takeSign s).2 ∧
      (takeSign s).1 = (sign == some true) := by
  unfold takeSign
  split
  · exact ⟨some true, rfl, rfl⟩
  · exact ⟨some false, rfl, rfl⟩
  · exact ⟨none, rfl, rfl⟩

/-- A number in front of a text that does not go on with a digit is read. -/
lemma scanDecimal_complete (n : Numeral) (ht : t.head?.all (!·.isDigit)) :
    scanDecimal (n.text ++ t) = some ((n.negative, n.magnitude), t) := by
  obtain ⟨c, cs, hcs, hc⟩ := n.exists_digits_eq
  have hspace : (n.text ++ t).dropWhile isSpace = Numeral.signText n.sign ++ c :: (cs ++ t) := by
    rw [Numeral.text, append_assoc, dropWhile_append_of_pos n.isSpace_of_mem, hcs,
      append_assoc, cons_append]
    match n.sign with
    | none =>
      exact dropWhile_cons_of_neg
        (by simp [isSpace_of_isDigitOf ((isDigitOf_ten c).trans hc)])
    | some true => exact dropWhile_cons_of_neg (by decide)
    | some false => exact dropWhile_cons_of_neg (by decide)
  have htake : t.takeWhile Char.isDigit = [] ∧ t.dropWhile Char.isDigit = t := by
    cases t with
    | nil => exact ⟨rfl, rfl⟩
    | cons d t =>
      have hd : ¬d.isDigit = true := by simpa using ht
      exact ⟨takeWhile_cons_of_neg hd, dropWhile_cons_of_neg hd⟩
  have hrun : ∀ d ∈ c :: cs, d.isDigit := hcs ▸ n.isDigit_of_mem
  unfold scanDecimal
  rw [hspace, takeSign_signText n.sign _ hc]
  dsimp only
  rw [← cons_append, takeWhile_append_of_pos hrun, dropWhile_append_of_pos hrun,
    htake.1, htake.2, append_nil, if_neg (cons_ne_nil c cs), ← hcs]
  rfl

/-- What is read is a number, and the text does not go on with a digit. -/
lemma scanDecimal_sound {r : Bool × Nat} (h : scanDecimal s = some (r, t)) :
    ∃ n : Numeral, s = n.text ++ t ∧ r = (n.negative, n.magnitude) ∧ t.head?.all (!·.isDigit) := by
  obtain ⟨sign, hsign, hnegative⟩ := exists_signText_eq (s.dropWhile isSpace)
  unfold scanDecimal at h
  dsimp only at h
  split_ifs at h with hne
  cases h
  refine ⟨⟨s.takeWhile isSpace, sign, _, fun c hc => mem_takeWhile_imp hc,
    fun c hc => mem_takeWhile_imp hc, hne⟩, ?_, ?_, ?_⟩
  · rw [Numeral.text]
    rw [append_assoc, append_assoc, takeWhile_append_dropWhile, ← hsign, takeWhile_append_dropWhile]
  · rw [hnegative]
    rfl
  · have hnot := head?_dropWhile_not Char.isDigit (takeSign (s.dropWhile isSpace)).2
    rw [Option.all_eq_true]
    intro c hc
    rw [mem_def.mp hc] at hnot
    rw [hnot, Bool.not_false]

/-- The `int` that `%d` makes of a number. -/
def Numeral.toInt (longBits : Nat) (n : Numeral) : Int :=
  longToInt (toLong longBits n.negative n.magnitude)

lemma scanInt_complete (longBits : Nat) (n : Numeral) (ht : t.head?.all (!·.isDigit)) :
    scanInt longBits (n.text ++ t) = some (n.toInt longBits, t) := by
  rw [scanInt, scanDecimal_complete n ht]
  rfl

lemma scanInt_sound {v : Int} (h : scanInt longBits s = some (v, t)) :
    ∃ n : Numeral, s = n.text ++ t ∧ v = n.toInt longBits ∧ t.head?.all (!·.isDigit) := by
  obtain ⟨⟨r, t⟩, hscan, heq⟩ := map_eq_some_iff.mp h
  cases heq
  obtain ⟨n, hs, rfl, ht⟩ := scanDecimal_sound hscan
  exact ⟨n, hs, rfl, ht⟩

/-- A plain number that fits is read as it is. -/
lemma Numeral.toInt_of_lt (hbits : 32 ≤ longBits) {n : Numeral} (h : n.Plain)
    (hlt : n.magnitude < 2 ^ 31) : n.toInt longBits = n.magnitude := by
  have hnegative : n.negative = false := by
    rw [negative, h.2]
    rfl
  have hpow : 2 ^ 31 ≤ 2 ^ (longBits - 1) := Nat.pow_le_pow_right (by decide) (by omega)
  rw [toInt, hnegative, toLong, if_neg Bool.false_ne_true, if_neg (by omega), longToInt]
  exact Int.bmod_eq_of_le (by omega) (by omega)

/-- The text of a number ends where the digits end. -/
lemma Numeral.text_append_inj (n m : Numeral) {t u : List Char}
    (ht : t.head?.all (!·.isDigit)) (hu : u.head?.all (!·.isDigit))
    (h : n.text ++ t = m.text ++ u) : n.text = m.text ∧ t = u := by
  have hn := scanDecimal_complete n ht
  rw [h, scanDecimal_complete m hu] at hn
  have htu : t = u := (Prod.mk.inj (some.inj hn)).2.symm
  subst htu
  exact ⟨append_cancel_right h, rfl⟩

/-! ### `fgets` -/

/-- At most `n` characters, up to and including the first newline, and what follows. -/
def takeLine : Nat → List Char → List Char × List Char
  | 0, s => ([], s)
  | _, [] => ([], [])
  | n + 1, c :: s =>
    if c = '\n' then ([c], s)
    else ((c :: (takeLine n s).1), (takeLine n s).2)

/-- `fgets(line, size, fp)` on the text that is left of the file. -/
def fgets (size : Nat) (s : List Char) : Option (List Char × List Char) :=
  if s = [] then none else some (takeLine (size - 1) s)

lemma takeLine_length_lt (c : Char) (s : List Char) (h : n ≠ 0) :
    (takeLine n (c :: s)).2.length < (c :: s).length := by
  have hle : ∀ n s, (takeLine n s).2.length ≤ s.length := by
    intro n s
    fun_induction takeLine n s with
    | case1 s | case2 n hn => exact Nat.le_refl _
    | case3 n s => simp
    | case4 n c s hc ih => exact Nat.le_succ_of_le ih
  cases n with
  | zero => exact absurd rfl h
  | succ n =>
    unfold takeLine
    split
    · simp
    · exact Nat.lt_succ_of_le (hle n s)

variable {size : Nat}

lemma fgets_length_lt (hsize : 2 ≤ size) {s line rest : List Char}
    (h : fgets size s = some (line, rest)) : rest.length < s.length := by
  unfold fgets at h
  split at h
  · cases h
  · rename_i hs
    obtain ⟨c, t, rfl⟩ := exists_cons_of_ne_nil hs
    have hlt := takeLine_length_lt c t (show size - 1 ≠ 0 by omega)
    rw [some.inj h] at hlt
    exact hlt

/-- The lines that `fgets` delivers until it returns `NULL`. -/
def lines (size : Nat) (hsize : 2 ≤ size) (s : List Char) : List (List Char) :=
  match _h : fgets size s with
  | none => []
  | some (line, rest) => line :: lines size hsize rest
termination_by s.length
decreasing_by exact fgets_length_lt hsize _h

variable {l : List Char}

lemma takeLine_newline (s : List Char) (hl : '\n' ∉ l) (hn : l.length < n) :
    takeLine n (l ++ '\n' :: s) = (l ++ ['\n'], s) := by
  induction l generalizing n with
  | nil =>
    obtain ⟨m, rfl⟩ := Nat.exists_eq_succ_of_ne_zero (Nat.ne_of_gt hn)
    rfl
  | cons c l ih =>
    obtain ⟨m, rfl⟩ := Nat.exists_eq_succ_of_ne_zero (Nat.ne_of_gt (Nat.zero_lt_of_lt hn))
    have hc : c ≠ '\n' := fun heq => hl (by simp [heq])
    have hrest := ih (fun hmem => hl (mem_cons_of_mem c hmem)) (Nat.lt_of_succ_lt_succ hn)
    simp [takeLine, hc, hrest]

@[simp] lemma lines_nil (size : Nat) (hsize : 2 ≤ size) : lines size hsize [] = [] := by
  unfold lines
  rfl

/-- A line that fits the buffer is delivered as it is. -/
lemma lines_newline (hsize : 2 ≤ size) (s : List Char) (hl : '\n' ∉ l)
    (hlength : l.length + 2 ≤ size) :
    lines size hsize (l ++ '\n' :: s) = (l ++ ['\n']) :: lines size hsize s := by
  have hfgets : fgets size (l ++ '\n' :: s) = some (l ++ ['\n'], s) := by
    unfold fgets
    rw [if_neg (by simp), takeLine_newline s hl (by omega)]
  rw [lines]
  split
  · rename_i hnone
    rw [hfgets] at hnone
    cases hnone
  · rename_i line rest hsome
    rw [hfgets] at hsome
    cases hsome
    rfl

/-- A text of lines is delivered line by line. -/
lemma lines_flatMap (hsize : 2 ≤ size) {ls : List (List Char)}
    (h : ∀ l ∈ ls, '\n' ∉ l ∧ l.length + 2 ≤ size) :
    lines size hsize (ls.flatMap (· ++ ['\n'])) = ls.map (· ++ ['\n']) := by
  induction ls with
  | nil => exact lines_nil size hsize
  | cons l ls ih =>
    obtain ⟨hl, hlength⟩ := h l mem_cons_self
    rw [flatMap_cons, append_assoc, singleton_append, lines_newline hsize _ hl hlength,
      ih (fun l' hl' => h l' (mem_cons_of_mem l hl')), map_cons]

lemma takeLine_newline_last {s : List Char} : '\n' ∉ (takeLine n s).1.dropLast := by
  fun_induction takeLine n s with
  | case1 s | case2 n hn | case3 n s => simp
  | case4 n c s hc ih =>
    intro hmem
    rcases hline : (takeLine n s).1 with _ | ⟨d, line⟩
    · simp [hline] at hmem
    · rw [hline] at hmem ih
      rw [dropLast_cons_of_ne_nil (cons_ne_nil d line), mem_cons] at hmem
      rcases hmem with heq | hmem
      · exact hc heq.symm
      · exact ih hmem

/-- In a line that `fgets` delivers a newline can only be the last character. -/
lemma newline_last_of_mem_lines {hsize : 2 ≤ size} {s line : List Char}
    (h : line ∈ lines size hsize s) : '\n' ∉ line.dropLast := by
  fun_induction lines size hsize s with
  | case1 s hnone => exact absurd h not_mem_nil
  | case2 s l rest hsome ih =>
    rcases mem_cons.mp h with rfl | h
    · unfold fgets at hsome
      split at hsome
      · cases hsome
      · have hline : (takeLine (size - 1) s).1 = line := congrArg Prod.fst (some.inj hsome)
        exact hline ▸ takeLine_newline_last
    · exact ih h

/-! ### Strings -/

/-- The C string at the start of a buffer. -/
def cString (s : List Char) : List Char := s.takeWhile (· ≠ '\x00')

/-- The fields that `strtok_r` returns one after the other: the runs of other characters. -/
def strtokFields (separators s : List Char) : List (List Char) :=
  (s.splitOnP (· ∈ separators)).filter (· ≠ [])

/-- `strncpy(dst, src, n)` for a buffer of at least `n` characters: no terminator is written behind
a text of `n` characters or more. -/
def strncpy (dst src : List Char) (n : Nat) : List Char :=
  src.take n ++ List.replicate (n - src.length) '\x00' ++ dst.drop n

/-- Pieces of a text consist of its characters. -/
lemma mem_of_mem_splitOnP {p : Char → Bool} {s piece : List Char} {c : Char}
    (hpiece : piece ∈ s.splitOnP p) (hc : c ∈ piece) : c ∈ s := by
  induction s generalizing piece with
  | nil =>
    rw [splitOnP_nil, mem_singleton] at hpiece
    exact absurd (hpiece ▸ hc) not_mem_nil
  | cons x xs ih =>
    rw [splitOnP_cons_eq_if_modifyHead] at hpiece
    split_ifs at hpiece
    · rcases mem_cons.mp hpiece with rfl | hpiece
      · cases hc
      · exact mem_cons_of_mem _ (ih hpiece hc)
    · obtain ⟨first, pieces, hpieces⟩ := exists_cons_of_ne_nil (splitOnP_ne_nil p xs)
      rw [hpieces, modifyHead_cons] at hpiece
      rcases mem_cons.mp hpiece with rfl | hpiece
      · rcases mem_cons.mp hc with rfl | hc
        · exact mem_cons_self
        · exact mem_cons_of_mem _ (ih (hpieces ▸ mem_cons_self) hc)
      · exact mem_cons_of_mem _ (ih (hpieces ▸ mem_cons_of_mem _ hpiece) hc)

/-- A field has only characters of the text. -/
lemma mem_of_mem_strtokFields {separators s field : List Char} {c : Char}
    (h : field ∈ strtokFields separators s) (hc : c ∈ field) : c ∈ s :=
  mem_of_mem_splitOnP (mem_of_mem_filter h) hc

/-- The string that `strncpy` leaves in a zeroed buffer, if it fits. -/
lemma cString_strncpy {field : List Char} (h : '\x00' ∉ field) (hlt : field.length < n) :
    cString (strncpy (List.replicate n '\x00') field n) = field := by
  have hall : ∀ c ∈ field, decide (c ≠ '\x00') = true := fun c hc =>
    decide_eq_true fun hzero => h (hzero ▸ hc)
  obtain ⟨m, hm⟩ := Nat.exists_eq_add_one_of_ne_zero (Nat.sub_ne_zero_of_lt hlt)
  rw [strncpy, take_of_length_le (Nat.le_of_lt hlt), hm, replicate_succ, append_assoc,
    cString, takeWhile_append_of_pos hall]
  simp

/-- The text from the first occurrence of a pattern on: `strstr(s, pattern)`. -/
def strstr (pattern : List Char) : List Char → Option (List Char)
  | [] => if pattern = [] then some [] else none
  | c :: s => if pattern.isPrefixOf (c :: s) then some (c :: s) else strstr pattern s

/-- Whether `strncasecmp(a, b, n)` is 0. -/
def strncasecmpEq (a b : List Char) (n : Nat) : Bool :=
  (a.take n).map Char.toLower == (b.take n).map Char.toLower

/-- Whether `strcasecmp(a, b)` is 0. -/
def sameWord (a b : List Char) : Bool := a.map Char.toLower == b.map Char.toLower

/-- The text that `snprintf` leaves in a buffer of a size. -/
def snprintf (size : Nat) (text : List Char) : List Char := text.take (size - 1)

/-- `strcmp(a, b)`, of which only the sign counts. -/
def strcmp (a b : List Char) : Ordering := List.compareLex (compareOn Char.toNat) a b

instance lawfulEqCmp_toNat : Std.LawfulEqCmp (compareOn Char.toNat) where
  eq_of_compare h := Char.toNat_inj.mp (Std.LawfulEqCmp.eq_of_compare h)

instance : Std.TransCmp strcmp := inferInstanceAs (Std.TransCmp (List.compareLex _))

instance : Std.LawfulEqCmp strcmp := inferInstanceAs (Std.LawfulEqCmp (List.compareLex _))

end PiksiBuildroot.Lib.CText
