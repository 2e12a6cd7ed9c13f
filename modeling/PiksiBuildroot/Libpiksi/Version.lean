import Mathlib.Algebra.Group.Int.Defs
import Mathlib.Data.Int.Order.Basic
import Mathlib.Data.Prod.Lex
import PiksiBuildroot.Lib.CText

/-!
# Version strings

`version_parse_str` takes a version apart with `sscanf(str, "%d.%d.%d%s", ...)`, and `version_cmp`
compares two versions by subtraction. The format that it is meant for is some text without digits,
three numbers with dots between them and a tail that begins with a dash.

The conversions of `sscanf` skip blanks, and `%d` takes a sign. So `1.-2.3`, `1. 2.3` and
`1.2.3 -dev` are versions, too, and the text in front may have 64 characters, which leaves no
place for the terminator of `devstr` (`versionParseStr_eq_some_iff`, `versionsOk_iff`).
-/

namespace PiksiBuildroot.Libpiksi.Version

open Lib.CText List Option

/-- Source: `VERSION_DEVSTRING_MAXLEN`. -/
def versionDevstringMaxlen : Nat := 64

/-- Source: `piksi_version_t`, with all characters of the array `devstr`. -/
structure PiksiVersion where
  marketing : Int
  major : Int
  patch : Int
  devstr : List Char

/-- A string without its terminator. -/
def Str : Type := { s : List Char // '\x00' ∉ s }

/-- The loop that looks for the first digit, of a string of `len` characters. -/
def findDigit (len : Nat) : Nat → List Char → Option Nat
  -- the terminator is no digit
  | _, [] => none
  | idx, c :: rest =>
    if c.isDigit then some idx
    else if len ≤ idx + 1 ∨ versionDevstringMaxlen < idx + 1 then none
    else findDigit len (idx + 1) rest

/-- A dot in the format of `sscanf`. -/
def scanDot : List Char → Option (List Char)
  | '.' :: s => some s
  | _ => none

/-- The conversion `%s` of `sscanf`. -/
def scanWord (s : List Char) : Option (List Char) :=
  let word := (s.dropWhile isSpace).takeWhile (!isSpace ·)
  if word = [] then none else some word

/-- `sscanf(s, "%d.%d.%d%s", ...)`: nothing if there are fewer than three conversions. -/
def scanVersion (longBits : Nat) (s : List Char) :
    Option ((Int × Int × Int) × Option (List Char)) := do
  let (marketing, s) ← scanInt longBits s
  let s ← scanDot s
  let (major, s) ← scanInt longBits s
  let s ← scanDot s
  let (patch, s) ← scanInt longBits s
  return ((marketing, major, patch), scanWord s)

/-- The zeroed `devstr` after `memcpy` of the text in front of the numbers. -/
def copyLead (lead : List Char) : List Char :=
  lead ++ List.replicate (versionDevstringMaxlen - lead.length) '\x00'

/-- `snprintf_warn(devstr + idx, VERSION_DEVSTRING_MAXLEN - idx, "%s", tail)`: nothing is written
if there is no place. -/
def writeTail (devstr : List Char) (idx : Nat) (tail : List Char) : List Char :=
  if versionDevstringMaxlen - idx = 0 then devstr
  else
    let written := tail.take (versionDevstringMaxlen - idx - 1) ++ ['\x00']
    devstr.take idx ++ (written ++ devstr.drop (idx + written.length))

/-- Source: `version_parse_str`, of which the callers use `ver` only if it returns 0. -/
def versionParseStr (longBits : Nat) (str : List Char) : Option PiksiVersion :=
  match findDigit str.length 0 str with
  | none => none
  | some idx =>
    let devstr := copyLead (str.take idx)
    match scanVersion longBits (str.drop idx) with
    | none => none
    | some ((marketing, major, patch), none) => some ⟨marketing, major, patch, devstr⟩
    | some ((marketing, major, patch), some tail) =>
      if tail.head? = some '-' then
        some ⟨marketing, major, patch, writeTail devstr idx tail⟩
      else none

/-- The difference of two `int`s. -/
def intSub (a b : Int) : Int := (a - b).bmod (2 ^ 32)

/-- Source: `version_cmp`. -/
def versionCmp (a b : PiksiVersion) : Int :=
  if a.marketing ≠ b.marketing then intSub a.marketing b.marketing
  else if a.major ≠ b.major then intSub a.major b.major
  else intSub a.patch b.patch

/-! ### The format -/

/-- Three texts with dots between them, and what follows. -/
def dotted (x y z rest : List Char) : List Char := x ++ '.' :: (y ++ '.' :: (z ++ rest))

/-- A string of the format. -/
structure Format (str : List Char) where
  lead : List Char
  x : List Char
  y : List Char
  z : List Char
  rest : List Char
  text_eq : str = lead ++ dotted x y z rest
  lead_lt : lead.length < versionDevstringMaxlen
  isDigit_lead : ∀ c ∈ lead, c.isDigit = false
  number : ∀ n ∈ [x, y, z], n ≠ [] ∧ ∀ c ∈ n, c.isDigit
  rest_ok : (∀ c ∈ rest, isSpace c) ∨ rest.head? = some '-'

/-- How `version_parse_str` reads a string. -/
structure Reading (str : List Char) where
  lead : List Char
  x : Numeral
  y : Numeral
  z : Numeral
  gap : List Char
  tail : List Char
  text_eq : str = lead ++ dotted x.text y.text z.text (gap ++ tail)
  lead_le : lead.length ≤ versionDevstringMaxlen
  isDigit_lead : ∀ c ∈ lead, c.isDigit = false
  x_plain : x.Plain
  isSpace_gap : ∀ c ∈ gap, isSpace c
  tail_head : tail = [] ∨ tail.head? = some '-'

/-- The reading is one of the format. -/
structure Reading.Plain {str : List Char} (r : Reading str) : Prop where
  lead_lt : r.lead.length < versionDevstringMaxlen
  y_plain : r.y.Plain
  z_plain : r.z.Plain
  gap_nil : r.tail ≠ [] → r.gap = []

/-- The numbers of the string fit into 31 bits. -/
def Fits (str : List Char) : Prop :=
  ∀ r : Reading str, r.x.magnitude < 2 ^ 31 ∧ r.y.magnitude < 2 ^ 31 ∧ r.z.magnitude < 2 ^ 31

/-- The parts of a version in the order of their weight. -/
def PiksiVersion.triple (v : PiksiVersion) : ℤ ×ₗ ℤ ×ₗ ℤ :=
  toLex (v.marketing, toLex (v.major, v.patch))

/-- The strings of the format are accepted, with their numbers, and `devstr` is terminated. -/
structure ParseOk (longBits : Nat) (str : List Char) : Prop where
  accepts : (versionParseStr longBits str).isSome ↔ Nonempty (Format str)
  parsed : ∀ v, versionParseStr longBits str = some v → Fits str → ∀ f : Format str,
    v.marketing = value 10 f.x ∧ v.major = value 10 f.y ∧ v.patch = value 10 f.z
  terminated : ∀ v, versionParseStr longBits str = some v →
    v.devstr.length = versionDevstringMaxlen ∧ '\x00' ∈ v.devstr

/-- Both strings are parsed as they should be, and the versions are compared part by part. -/
structure VersionsOk (longBits : Nat) (a b : List Char) : Prop where
  left : ParseOk longBits a
  right : ParseOk longBits b
  compared : ∀ v w, versionParseStr longBits a = some v → versionParseStr longBits b = some w →
    Fits a → Fits b → (versionCmp v w < 0 ↔ v.triple < w.triple) ∧
      (0 < versionCmp v w ↔ w.triple < v.triple)

/-! ### What is accepted -/

variable {s : List Char}

section
variable {len idx : Nat} {longBits : Nat}

/-- The first digit within the limit is found. -/
lemma findDigit_complete {lead : List Char} {c : Char} (rest : List Char)
    (hlead : ∀ d ∈ lead, d.isDigit = false) (hc : c.isDigit) (hlen : idx + lead.length < len)
    (hmax : idx + lead.length ≤ versionDevstringMaxlen) :
    findDigit len idx (lead ++ c :: rest) = some (idx + lead.length) := by
  induction lead generalizing idx with
  | nil => rw [nil_append, findDigit, if_pos hc, length_nil, Nat.add_zero]
  | cons d lead ih =>
    rw [length_cons] at hlen hmax
    have hd : ¬d.isDigit = true := by simp [hlead d mem_cons_self]
    have hstop : ¬(len ≤ idx + 1 ∨ versionDevstringMaxlen < idx + 1) := by omega
    rw [cons_append, findDigit, if_neg hd, if_neg hstop,
      ih (fun e he => hlead e (mem_cons_of_mem d he)) (by omega) (by omega),
      length_cons, Nat.add_assoc, Nat.add_comm 1]

/-- The digit found is the first one, within the limit. -/
lemma findDigit_sound {k : Nat} (h : findDigit len idx s = some k)
    (hidx : idx ≤ versionDevstringMaxlen) :
    ∃ lead c rest, s = lead ++ c :: rest ∧ k = idx + lead.length ∧ k ≤ versionDevstringMaxlen ∧
      (∀ d ∈ lead, d.isDigit = false) ∧ c.isDigit := by
  induction s generalizing idx with
  | nil => exact absurd h (by simp [findDigit])
  | cons c s ih =>
    rw [findDigit] at h
    split_ifs at h with hc hstop
    · cases h
      exact ⟨[], c, s, rfl, rfl, hidx, fun d hd => absurd hd not_mem_nil, hc⟩
    · obtain ⟨lead, d, rest, rfl, hk, hle, hlead, hd⟩ := ih h (by omega)
      refine ⟨c :: lead, d, rest, rfl, ?_, hle, ?_, hd⟩
      · rw [hk, length_cons, Nat.add_assoc, Nat.add_comm 1]
      · intro e he
        rcases mem_cons.mp he with rfl | he
        · exact Bool.eq_false_iff.mpr hc
        · exact hlead e he

lemma scanDot_eq_some {s t : List Char} (h : scanDot s = some t) : s = '.' :: t := by
  unfold scanDot at h
  split at h
  · rw [some.inj h]
  · cases h

lemma scanVersion_complete (longBits : Nat) (x y z : Numeral) {rest : List Char}
    (hrest : rest.head?.all (!·.isDigit)) :
    scanVersion longBits (dotted x.text y.text z.text rest) =
      some ((x.toInt longBits, y.toInt longBits, z.toInt longBits), scanWord rest) := by
  have hdot : ∀ s : List Char, ('.' :: s).head?.all (!·.isDigit) := fun _ => rfl
  unfold scanVersion dotted
  rw [scanInt_complete longBits x (hdot _)]
  simp only [bind_eq_bind, bind_some, scanDot]
  rw [scanInt_complete longBits y (hdot _)]
  simp only [bind_some]
  rw [scanInt_complete longBits z hrest]
  rfl

/-- What `sscanf` accepts is three numerals with dots and a word. -/
lemma scanVersion_sound {t : Int × Int × Int} {word : Option (List Char)}
    (h : scanVersion longBits s = some (t, word)) :
    ∃ (x y z : Numeral) (rest : List Char), s = dotted x.text y.text z.text rest ∧
      rest.head?.all (!·.isDigit) ∧
      t = (x.toInt longBits, y.toInt longBits, z.toInt longBits) ∧ word = scanWord rest := by
  unfold scanVersion at h
  simp only [bind_eq_bind, bind_eq_some_iff, Prod.exists] at h
  obtain ⟨_, _, hx, _, hdot, _, _, hy, _, hdot', _, rest, hz, h⟩ := h
  obtain ⟨x, rfl, rfl, -⟩ := scanInt_sound hx
  obtain rfl := scanDot_eq_some hdot
  obtain ⟨y, rfl, rfl, -⟩ := scanInt_sound hy
  obtain rfl := scanDot_eq_some hdot'
  obtain ⟨z, rfl, rfl, hrest⟩ := scanInt_sound hz
  cases h
  exact ⟨x, y, z, rest, rfl, hrest, rfl, rfl⟩

end

/-- A dash is read as the tail, up to the next blank. -/
lemma scanWord_tail {gap tail : List Char} (hgap : ∀ c ∈ gap, isSpace c)
    (htail : tail.head? = some '-') :
    scanWord (gap ++ tail) = some (tail.takeWhile (!isSpace ·)) ∧
      (tail.takeWhile (!isSpace ·)).head? = some '-' := by
  obtain ⟨rest, rfl⟩ : ∃ rest, tail = '-' :: rest := by
    cases tail with
    | nil => exact absurd htail (by simp)
    | cons c rest => exact ⟨rest, by rw [some.inj htail]⟩
  unfold scanWord
  rw [dropWhile_append_of_pos hgap, dropWhile_cons_of_neg (by decide),
    takeWhile_cons_of_pos (by decide)]
  exact ⟨rfl, rfl⟩

lemma scanWord_blanks {gap : List Char} (hgap : ∀ c ∈ gap, isSpace c) : scanWord gap = none := by
  unfold scanWord
  rw [dropWhile_eq_nil_iff.mpr hgap]
  rfl

lemma dropWhile_eq_nil_of_scanWord (h : scanWord s = none) : s.dropWhile isSpace = [] := by
  have hnot := head?_dropWhile_not isSpace s
  unfold scanWord at h
  cases hdrop : s.dropWhile isSpace with
  | nil => rfl
  | cons c rest =>
    rw [hdrop] at h hnot
    rw [head?_cons] at hnot
    rw [takeWhile_cons_of_pos (by simp [hnot])] at h
    cases h

/-- The tail that is read begins where the text after the blanks begins. -/
lemma head?_of_scanWord {s word : List Char} (h : scanWord s = some word) :
    word.head? = (s.dropWhile isSpace).head? := by
  unfold scanWord at h
  dsimp only at h
  split_ifs at h with hne
  cases h
  cases hdrop : s.dropWhile isSpace with
  | nil => rfl
  | cons c rest =>
    by_cases hc : isSpace c
    · rw [hdrop, takeWhile_cons_of_neg (by simp [hc])] at hne
      exact absurd rfl hne
    · rw [takeWhile_cons_of_pos (by simp [hc])]
      rfl

namespace Reading

variable {str : List Char}

lemma isDigit_rest (r : Reading str) : (r.gap ++ r.tail).head?.all (!·.isDigit) := by
  rcases hgap : r.gap with _ | ⟨c, gap⟩
  · rcases r.tail_head with htail | htail <;> simp [htail]
  · have hc := r.isSpace_gap c (hgap ▸ mem_cons_self)
    have hdigit : c.isDigit = false := by
      apply Bool.eq_false_iff.mpr
      intro hdigit
      rw [isSpace_of_isDigitOf ((isDigitOf_ten c).trans hdigit)] at hc
      exact Bool.false_ne_true hc
    simp [hdigit]

/-- What becomes of `devstr`. -/
def devstr (r : Reading str) : List Char := if r.tail = [] then copyLead r.lead
  else writeTail (copyLead r.lead) r.lead.length (r.tail.takeWhile (!isSpace ·))

/-- The version that is read. -/
def version (longBits : Nat) (r : Reading str) : PiksiVersion :=
  ⟨r.x.toInt longBits, r.y.toInt longBits, r.z.toInt longBits, r.devstr⟩

lemma exists_numbers_eq (r : Reading str) :
    ∃ c rest, c.isDigit ∧ dotted r.x.text r.y.text r.z.text (r.gap ++ r.tail) = c :: rest := by
  obtain ⟨c, cs, hcs, hc⟩ := r.x.plain_iff.mp r.x_plain
  exact ⟨c, _, hc, by rw [dotted, hcs, cons_append]⟩

lemma findDigit_eq (r : Reading str) : findDigit str.length 0 str = some r.lead.length := by
  obtain ⟨c, rest, hc, hnumbers⟩ := r.exists_numbers_eq
  have htext : str = r.lead ++ c :: rest := hnumbers ▸ r.text_eq
  have hlength : 0 + r.lead.length < str.length := by
    have hcount := congrArg List.length htext
    rw [length_append, length_cons] at hcount
    omega
  have hle : 0 + r.lead.length ≤ versionDevstringMaxlen := (Nat.zero_add _).symm ▸ r.lead_le
  have hfind := findDigit_complete rest r.isDigit_lead hc hlength hle
  rwa [← htext, Nat.zero_add] at hfind

lemma take_lead (r : Reading str) : str.take r.lead.length = r.lead :=
  (congrArg (List.take r.lead.length) r.text_eq).trans take_left

lemma drop_lead (r : Reading str) :
    str.drop r.lead.length = dotted r.x.text r.y.text r.z.text (r.gap ++ r.tail) :=
  (congrArg (List.drop r.lead.length) r.text_eq).trans drop_left

lemma versionParseStr_eq (longBits : Nat) (r : Reading str) :
    versionParseStr longBits str = some (r.version longBits) := by
  unfold versionParseStr
  rw [r.findDigit_eq]
  dsimp only
  rw [r.take_lead, r.drop_lead, scanVersion_complete longBits r.x r.y r.z r.isDigit_rest]
  rcases r.tail_head with htail | htail
  · rw [htail, append_nil, scanWord_blanks r.isSpace_gap, version, devstr, if_pos htail]
  · have hne : r.tail ≠ [] := fun hnil => by simp [hnil] at htail
    obtain ⟨hscan, hdash⟩ := scanWord_tail r.isSpace_gap htail
    rw [hscan]
    dsimp only
    rw [if_pos hdash, version, devstr, if_neg hne]

end Reading

variable {longBits : Nat} {str : List Char}

/-- A version that was parsed has a reading. -/
lemma exists_reading {v : PiksiVersion} (h : versionParseStr longBits str = some v) :
    Nonempty (Reading str) := by
  unfold versionParseStr at h
  cases hfind : findDigit str.length 0 str with
  | none =>
    rw [hfind] at h
    cases h
  | some idx =>
    rw [hfind] at h
    dsimp only at h
    obtain ⟨lead, c, rest, rfl, hidx, hle, hlead, hc⟩ := findDigit_sound hfind (Nat.zero_le _)
    rw [Nat.zero_add] at hidx
    subst hidx
    rw [drop_left] at h
    cases hscan : scanVersion longBits (c :: rest) with
    | none =>
      rw [hscan] at h
      cases h
    | some result =>
      obtain ⟨t, word⟩ := result
      obtain ⟨x, y, z, rest', htext, hrest, rfl, rfl⟩ := scanVersion_sound hscan
      refine ⟨⟨lead, x, y, z, rest'.takeWhile isSpace, rest'.dropWhile isSpace, ?_, hle, hlead,
        Numeral.plain_of_append htext.symm hc, fun d hd => mem_takeWhile_imp hd, ?_⟩⟩
      · rw [takeWhile_append_dropWhile, htext]
      · rw [hscan] at h
        cases hword : scanWord rest' with
        | none => exact .inl (dropWhile_eq_nil_of_scanWord hword)
        | some word =>
          rw [hword] at h
          dsimp only at h
          split_ifs at h with hdash
          exact .inr (head?_of_scanWord hword ▸ hdash)

/-- What is accepted, and what is made of it. -/
theorem versionParseStr_eq_some_iff {v : PiksiVersion} :
    versionParseStr longBits str = some v ↔ ∃ r : Reading str, v = r.version longBits := by
  constructor
  · intro h
    obtain ⟨r⟩ := exists_reading h
    exact ⟨r, some.inj (h.symm.trans (r.versionParseStr_eq longBits))⟩
  · rintro ⟨r, rfl⟩
    exact r.versionParseStr_eq longBits

/-! ### Readings of one string -/

namespace Reading

lemma takeWhile_eq_lead (r : Reading str) : str.takeWhile (!·.isDigit) = r.lead := by
  obtain ⟨c, rest, hc, hnumbers⟩ := r.exists_numbers_eq
  have htext : str = r.lead ++ c :: rest := hnumbers ▸ r.text_eq
  have hlead : ∀ d ∈ r.lead, (!d.isDigit) = true := fun d hd => by simp [r.isDigit_lead d hd]
  rw [congrArg (List.takeWhile (!·.isDigit)) htext, takeWhile_append_of_pos hlead,
    takeWhile_cons_of_neg (by simp [hc]), append_nil]

lemma dropWhile_gap_tail (r : Reading str) : (r.gap ++ r.tail).dropWhile isSpace = r.tail := by
  rw [dropWhile_append_of_pos r.isSpace_gap]
  rcases htail : r.tail with _ | ⟨c, tail⟩
  · rfl
  · rcases r.tail_head with hnil | hdash
    · exact absurd (htail.symm.trans hnil) (cons_ne_nil c tail)
    · rw [htail] at hdash
      rw [some.inj hdash]
      exact dropWhile_cons_of_neg (by decide)

/-- There is one way to read a string, up to the representation of its numbers. -/
lemma parts_eq (r q : Reading str) :
    r.lead = q.lead ∧ r.y.text = q.y.text ∧ r.z.text = q.z.text ∧ r.gap = q.gap ∧
      r.tail = q.tail := by
  have hdot : ∀ s : List Char, ('.' :: s).head?.all (!·.isDigit) := fun _ => rfl
  have hlead : r.lead = q.lead := r.takeWhile_eq_lead.symm.trans q.takeWhile_eq_lead
  have hnumbers := r.drop_lead.symm.trans ((congrArg (str.drop ·.length) hlead).trans q.drop_lead)
  obtain ⟨-, hrest⟩ := r.x.text_append_inj q.x (hdot _) (hdot _) hnumbers
  obtain ⟨hy, hrest⟩ := r.y.text_append_inj q.y (hdot _) (hdot _) (cons.inj hrest).2
  obtain ⟨hz, hrest⟩ := r.z.text_append_inj q.z r.isDigit_rest q.isDigit_rest (cons.inj hrest).2
  have htail : r.tail = q.tail := by
    rw [← r.dropWhile_gap_tail, hrest, q.dropWhile_gap_tail]
  rw [htail] at hrest
  exact ⟨hlead, hy, hz, append_cancel_right hrest, htail⟩

lemma plain_of_plain {r : Reading str} (q : Reading str) (h : r.Plain) : q.Plain := by
  obtain ⟨hlead, hy, hz, hgap, htail⟩ := r.parts_eq q
  exact ⟨hlead ▸ h.lead_lt, Numeral.plain_of_text_eq hy h.y_plain,
    Numeral.plain_of_text_eq hz h.z_plain, fun hne => hgap ▸ h.gap_nil (htail ▸ hne)⟩

/-- A plain reading shows that the string has the format. -/
def toFormat (r : Reading str) (h : r.Plain) : Format str where
  lead := r.lead
  x := r.x.digits
  y := r.y.digits
  z := r.z.digits
  rest := r.gap ++ r.tail
  text_eq := by
    have htext := r.text_eq
    rwa [Numeral.text_of_plain r.x_plain, Numeral.text_of_plain h.y_plain,
      Numeral.text_of_plain h.z_plain] at htext
  lead_lt := h.lead_lt
  isDigit_lead := r.isDigit_lead
  number := by
    simp only [forall_mem_cons, not_mem_nil, false_implies, implies_true, and_true]
    exact ⟨⟨r.x.digits_ne, r.x.isDigit_of_mem⟩, ⟨r.y.digits_ne, r.y.isDigit_of_mem⟩,
      r.z.digits_ne, r.z.isDigit_of_mem⟩
  rest_ok := by
    rcases r.tail_head with htail | htail
    · rw [htail, append_nil]
      exact .inl r.isSpace_gap
    · have hne : r.tail ≠ [] := fun hnil => by simp [hnil] at htail
      rw [h.gap_nil hne]
      exact .inr htail

end Reading

namespace Format

/-- A number of the format. -/
def numeral (f : Format str) {n : List Char} (h : n ∈ [f.x, f.y, f.z]) : Numeral :=
  Numeral.ofDigits n (f.number n h).1 (f.number n h).2

lemma exists_gap_tail (f : Format str) : ∃ gap tail, f.rest = gap ++ tail ∧ (∀ c ∈ gap, isSpace c) ∧
      (tail = [] ∨ tail.head? = some '-') ∧ (tail ≠ [] → gap = []) := by
  rcases f.rest_ok with hblank | hdash
  · exact ⟨f.rest, [], (append_nil _).symm, hblank, .inl rfl, fun h => absurd rfl h⟩
  · exact ⟨[], f.rest, rfl, fun c hc => absurd hc not_mem_nil, .inr hdash, fun _ => rfl⟩

/-- A string of the format has a plain reading, with the same numbers. -/
lemma exists_reading (f : Format str) :
    ∃ r : Reading str, r.Plain ∧ r.x.magnitude = value 10 f.x ∧ r.y.magnitude = value 10 f.y ∧
      r.z.magnitude = value 10 f.z := by
  obtain ⟨gap, tail, hrest, hgap, htail, hnil⟩ := f.exists_gap_tail
  refine ⟨⟨f.lead, f.numeral (n := f.x) (by simp), f.numeral (n := f.y) (by simp),
    f.numeral (n := f.z) (by simp), gap, tail, ?_, f.lead_lt.le, f.isDigit_lead, ⟨rfl, rfl⟩, hgap,
    htail⟩, ⟨f.lead_lt, ⟨rfl, rfl⟩, ⟨rfl, rfl⟩, hnil⟩, rfl, rfl, rfl⟩
  rw [← hrest]
  exact f.text_eq

end Format

lemma isSome_iff_nonempty_reading (longBits : Nat) (str : List Char) :
    (versionParseStr longBits str).isSome ↔ Nonempty (Reading str) := by
  rw [isSome_iff_exists]
  constructor
  · rintro ⟨v, hv⟩
    exact exists_reading hv
  · rintro ⟨r⟩
    exact ⟨_, r.versionParseStr_eq longBits⟩

/-! ### The terminator -/

lemma length_copyLead {lead : List Char} (h : lead.length ≤ versionDevstringMaxlen) :
    (copyLead lead).length = versionDevstringMaxlen := by
  rw [copyLead, length_append, length_replicate]
  omega

lemma length_writeTail {devstr : List Char} {idx : Nat} (tail : List Char)
    (h : devstr.length = versionDevstringMaxlen) :
    (writeTail devstr idx tail).length = versionDevstringMaxlen := by
  unfold writeTail
  split_ifs with hfull
  · exact h
  · simp only [length_append, length_take, length_drop, length_singleton, h]
    omega

lemma Reading.length_devstr (r : Reading str) : r.devstr.length = versionDevstringMaxlen := by
  unfold Reading.devstr
  split_ifs
  · exact length_copyLead r.lead_le
  · exact length_writeTail _ (length_copyLead r.lead_le)

/-- There is a terminator exactly if the text in front of the numbers leaves a place for it. -/
lemma Reading.zero_mem_devstr_iff (hstr : '\x00' ∉ str) (r : Reading str) :
    '\x00' ∈ r.devstr ↔ r.lead.length < versionDevstringMaxlen := by
  constructor
  · intro hmem
    by_contra hfull
    -- the array holds the text and nothing else
    have hcopy : copyLead r.lead = r.lead := by
      rw [copyLead, show versionDevstringMaxlen - r.lead.length = 0 by omega,
        replicate_zero, append_nil]
    have hdevstr : r.devstr = r.lead := by
      unfold Reading.devstr writeTail
      rw [if_pos (show versionDevstringMaxlen - r.lead.length = 0 by omega), hcopy, ite_self]
    rw [hdevstr] at hmem
    exact hstr (r.text_eq ▸ mem_append_left _ hmem)
  · intro hlt
    unfold Reading.devstr
    split_ifs
    · refine mem_append_right _ (mem_replicate.mpr ⟨?_, rfl⟩)
      omega
    · rw [writeTail, if_neg (by omega)]
      simp

/-! ### The comparison -/

lemma intSub_of_lt {a b : Int} (ha : 0 ≤ a ∧ a < 2 ^ 31) (hb : 0 ≤ b ∧ b < 2 ^ 31) :
    intSub a b = a - b :=
  Int.bmod_eq_of_le (by omega) (by omega)

/-- The parts of a version are in the range where a difference does not overflow. -/
def PiksiVersion.InRange (v : PiksiVersion) : Prop :=
  (0 ≤ v.marketing ∧ v.marketing < 2 ^ 31) ∧ (0 ≤ v.major ∧ v.major < 2 ^ 31) ∧
    (0 ≤ v.patch ∧ v.patch < 2 ^ 31)

lemma versionCmp_sign {v w : PiksiVersion} (hv : v.InRange) (hw : w.InRange) :
    (versionCmp v w < 0 ↔ v.triple < w.triple) ∧ (0 < versionCmp v w ↔ w.triple < v.triple) := by
  obtain ⟨hmarketing, hmajor, hpatch⟩ := hv
  obtain ⟨hmarketing', hmajor', hpatch'⟩ := hw
  simp only [PiksiVersion.triple, Prod.Lex.toLex_lt_toLex]
  unfold versionCmp
  rw [intSub_of_lt hmarketing hmarketing', intSub_of_lt hmajor hmajor', intSub_of_lt hpatch hpatch']
  split_ifs <;> omega

lemma Reading.inRange (hbits : 32 ≤ longBits) {r : Reading str} (h : r.Plain) (hfits : Fits str) :
    (r.version longBits).InRange := by
  have hrange : ∀ n : Numeral, n.Plain → n.magnitude < 2 ^ 31 →
      0 ≤ n.toInt longBits ∧ n.toInt longBits < 2 ^ 31 := by
    intro n hn hlt
    rw [Numeral.toInt_of_lt hbits hn hlt]
    omega
  obtain ⟨hx, hy, hz⟩ := hfits r
  exact ⟨hrange r.x r.x_plain hx, hrange r.y h.y_plain hy, hrange r.z h.z_plain hz⟩

/-! ### Both together -/

/-- A string is parsed as it should be exactly if it has no reading but plain ones. -/
lemma parseOk_iff (hbits : 32 ≤ longBits) (hstr : '\x00' ∉ str) :
    ParseOk longBits str ↔ ∀ r : Reading str, r.Plain := by
  constructor
  · intro h r
    obtain ⟨f⟩ := h.accepts.mp ((isSome_iff_nonempty_reading longBits str).mpr ⟨r⟩)
    obtain ⟨q, hq, -⟩ := f.exists_reading
    exact q.plain_of_plain r hq
  · intro h
    refine ⟨?_, ?_, ?_⟩
    · rw [isSome_iff_nonempty_reading]
      exact ⟨fun ⟨r⟩ => ⟨r.toFormat (h r)⟩, fun ⟨f⟩ => let ⟨r, _⟩ := f.exists_reading; ⟨r⟩⟩
    · intro v hv hfits f
      obtain ⟨r, hr, hx, hy, hz⟩ := f.exists_reading
      obtain rfl := some.inj (hv.symm.trans (r.versionParseStr_eq longBits))
      obtain ⟨hfitsX, hfitsY, hfitsZ⟩ := hfits r
      rw [← hx, ← hy, ← hz]
      exact ⟨Numeral.toInt_of_lt hbits r.x_plain hfitsX,
        Numeral.toInt_of_lt hbits hr.y_plain hfitsY, Numeral.toInt_of_lt hbits hr.z_plain hfitsZ⟩
    · intro v hv
      obtain ⟨r, rfl⟩ := versionParseStr_eq_some_iff.mp hv
      exact ⟨r.length_devstr, (r.zero_mem_devstr_iff hstr).mpr (h r).lead_lt⟩

/-- Two strings are parsed and compared as they should be exactly if each has no reading but plain
ones. -/
theorem versionsOk_iff {longBits : Nat} (hbits : 32 ≤ longBits) (a b : Str) :
    VersionsOk longBits a.1 b.1 ↔ (∀ r : Reading a.1, r.Plain) ∧ ∀ r : Reading b.1, r.Plain := by
  constructor
  · intro h
    exact ⟨(parseOk_iff hbits a.2).mp h.left, (parseOk_iff hbits b.2).mp h.right⟩
  · rintro ⟨ha, hb⟩
    refine ⟨(parseOk_iff hbits a.2).mpr ha, (parseOk_iff hbits b.2).mpr hb, ?_⟩
    intro v w hv hw hfitsA hfitsB
    obtain ⟨r, rfl⟩ := versionParseStr_eq_some_iff.mp hv
    obtain ⟨q, rfl⟩ := versionParseStr_eq_some_iff.mp hw
    exact versionCmp_sign (Reading.inRange hbits (ha r) hfitsA)
      (Reading.inRange hbits (hb q) hfitsB)

/-- The string `v1.2.3`. -/
def released : Str := ⟨['v', '1', '.', '2', '.', '3'], by decide⟩

/-- The string `v1.-2.3`. -/
def signed : Str := ⟨['v', '1', '.', '-', '2', '.', '3'], by decide⟩

/-- A character that is neither a blank nor a sign. -/
def plainChar (c : Char) : Bool := !isSpace c && c ≠ '-' && c ≠ '+'

lemma plain_of_plainChar {n : Numeral} (h : ∀ c ∈ n.text, plainChar c) : n.Plain := by
  constructor
  · refine eq_nil_iff_forall_not_mem.mpr fun c hc => ?_
    have hplain := h c (mem_append_left _ hc)
    rw [plainChar, n.isSpace_of_mem c hc] at hplain
    cases hplain
  · cases hsign : n.sign with
    | none => rfl
    | some b =>
      have hmem : ∀ c ∈ Numeral.signText n.sign, plainChar c := fun c hc =>
        h c (mem_append_right _ (mem_append_left _ hc))
      rw [hsign] at hmem
      cases b <;> exact absurd (hmem _ (mem_singleton_self _)) (by decide)

/-- A short string without blanks and signs is read in the plain way. -/
lemma Reading.plain_of_plainChar {str : List Char} (hlen : str.length < versionDevstringMaxlen)
    (h : str.all plainChar) (r : Reading str) : r.Plain := by
  rw [r.text_eq] at hlen h
  simp only [List.all_eq_true, dotted, forall_mem_append, forall_mem_cons] at h
  obtain ⟨-, -, -, hy, -, hz, hgap, -⟩ := h
  refine ⟨?_, Version.plain_of_plainChar hy, Version.plain_of_plainChar hz, fun _ => ?_⟩
  · rw [length_append] at hlen
    omega
  · refine eq_nil_iff_forall_not_mem.mpr fun c hc => ?_
    have hplain := hgap c hc
    rw [plainChar, r.isSpace_gap c hc] at hplain
    cases hplain

/-- `v1.2.3` is parsed and compared as it should be. -/
theorem versionsOk_iff_released : (versionParseStr 32 released.1).map (·.major) = some 2 ∧
      VersionsOk 32 released.1 released.1 := by
  have hplain : ∀ r : Reading released.1, r.Plain :=
    Reading.plain_of_plainChar (by decide) (by decide)
  exact ⟨by rfl, (versionsOk_iff (Nat.le_refl 32) released released).mpr ⟨hplain, hplain⟩⟩

lemma isSpace_of_mem_nil : ∀ c ∈ ([] : List Char), isSpace c := forall_mem_nil _

/-- The reading of `v1.-2.3`. -/
def signedReading : Reading signed.1 where
  lead := ['v']
  x := Numeral.ofDigits ['1'] (by decide) (forall_mem_singleton.mpr rfl)
  y := ⟨[], some true, ['2'], isSpace_of_mem_nil, forall_mem_singleton.mpr rfl, by decide⟩
  z := Numeral.ofDigits ['3'] (by decide) (forall_mem_singleton.mpr rfl)
  gap := []
  tail := []
  text_eq := rfl
  lead_le := by decide
  isDigit_lead := forall_mem_singleton.mpr rfl
  x_plain := ⟨rfl, rfl⟩
  isSpace_gap := isSpace_of_mem_nil
  tail_head := .inl rfl

/-- `v1.-2.3` is accepted, with -2 as its second number. -/
theorem not_versionsOk_signed : (versionParseStr 32 signed.1).map (·.major) = some (-2) ∧
      ¬VersionsOk 32 released.1 signed.1 := by
  refine ⟨by rfl, fun h => ?_⟩
  have hplain := (parseOk_iff (Nat.le_refl 32) signed.2).mp h.right signedReading
  exact absurd hplain.y_plain.2 (by simp [signedReading])

end PiksiBuildroot.Libpiksi.Version
