import Mathlib.Logic.Function.Basic
import PiksiBuildroot.Lib.CText

/-!
# The configuration of the SBP filter

`filter_sbp_load_config` reads one rule a line. A file of lines `"%x %x\n"` is read rule by rule,
each number cut to the width of its field (`filterSbpLoadConfig_print`).
-/

namespace PiksiBuildroot.SbpProtocol

open Lib CText List Option

/-- The text files of the system. -/
abbrev Files := String → Option (List Char)

/-- Source: `filter_sbp_rule_t`. -/
structure FilterSbpRule where
  type : UInt16
  divisor : UInt8
  counter : UInt8
  deriving DecidableEq, Repr

/-- One line of the file: `sscanf(line, "%x %x", &msg_type, &divisor)` has to convert both. -/
def parseRule (ulongBits : Nat) (line : List Char) : Option FilterSbpRule := do
  let (msgType, divisor) ← scanHexPair ulongBits line
  -- the two `unsigned int` are assigned to the narrower fields
  return { type := .ofNat (msgType % 2 ^ 32), divisor := .ofNat (divisor % 2 ^ 32), counter := 0 }

/-- Source: `filter_sbp_load_config`, with every allocation succeeding. A line that cannot be read
clears the rules. -/
def filterSbpLoadConfig (ulongBits : Nat) (files : Files) (configFile : String) :
    List FilterSbpRule :=
  match files configFile with
  | none => []
  | some text => ((lines 256 (by decide) text).mapM (parseRule ulongBits)).getD []

/-- The rule that a printed line is read as. -/
def ruleOf (id div : Nat) : FilterSbpRule :=
  { type := .ofNat id, divisor := .ofNat div, counter := 0 }

lemma parseRule_printHexPair {ulongBits id div : Nat} (hbits : 32 ≤ ulongBits) (hid : id < 2 ^ 32)
    (hdiv : div < 2 ^ 32) : parseRule ulongBits (printHexPair id div) = some (ruleOf id div) := by
  have hpow : 2 ^ 32 ≤ 2 ^ ulongBits := Nat.pow_le_pow_right (by decide) hbits
  have hscan : scanHexPair ulongBits (printHexPair id div) = some (id, div) :=
    scanHexPair_printHexPair (Nat.lt_of_lt_of_le hid hpow) (Nat.lt_of_lt_of_le hdiv hpow)
  unfold parseRule
  simp only [hscan, bind_eq_bind, bind_some, Nat.mod_eq_of_lt hid, Nat.mod_eq_of_lt hdiv]
  rfl

/-- A printed line is one line of the file. -/
lemma lines_printHexPair {id div : Nat} (hid : id < 2 ^ 32) (hdiv : div < 2 ^ 32)
    (s : List Char) :
    lines 256 (by decide) (printHexPair id div ++ s) =
      printHexPair id div :: lines 256 (by decide) s := by
  have hhex : ∀ n, '\n' ∉ Nat.toDigits 16 n := by
    intro n hmem
    exact absurd (isDigitOf_of_mem_toDigits hmem) (by decide)
  have hid' := (@Nat.length_toDigits_le_iff 16 id 8 (by decide) (by decide)).mpr hid
  have hdiv' := (@Nat.length_toDigits_le_iff 16 div 8 (by decide) (by decide)).mpr hdiv
  have hnewline : '\n' ∉ Nat.toDigits 16 id ++ ' ' :: Nat.toDigits 16 div := by
    simp [hhex]
  have hlength : (Nat.toDigits 16 id ++ ' ' :: Nat.toDigits 16 div).length + 2 ≤ 256 := by
    rw [length_append, length_cons]
    omega
  have hline := lines_newline (by decide : 2 ≤ 256) s hnewline hlength
  simpa [printHexPair] using hline

/-- A file of printed lines is read back line by line. -/
theorem filterSbpLoadConfig_print {ulongBits : Nat} (hbits : 32 ≤ ulongBits) {files : Files}
    {configFile : String} {entries : List (Nat × Nat)}
    (hentries : ∀ e ∈ entries, e.1 < 2 ^ 32 ∧ e.2 < 2 ^ 32)
    (hfile : files configFile = some (entries.flatMap fun e => printHexPair e.1 e.2)) :
    filterSbpLoadConfig ulongBits files configFile = entries.map fun e => ruleOf e.1 e.2 := by
  have hread : (lines 256 (by decide) (entries.flatMap fun e => printHexPair e.1 e.2)).mapM
      (parseRule ulongBits) = some (entries.map fun e => ruleOf e.1 e.2) := by
    clear hfile
    induction entries with
    | nil => simp
    | cons e entries ih =>
      obtain ⟨hid, hdiv⟩ := hentries e (by simp)
      have hrest := ih fun e' he' => hentries e' (mem_cons_of_mem e he')
      rw [flatMap_cons, lines_printHexPair hid hdiv, mapM_cons,
        parseRule_printHexPair hbits hid hdiv, hrest]
      rfl
  unfold filterSbpLoadConfig
  rw [hfile]
  simp only [hread, getD_some]

end PiksiBuildroot.SbpProtocol
