import PiksiBuildroot.Libpiksi.MinIni

/-!
# Texts of sections and entries

A text that is written as `[section]` and `key=value` lines is read back by looking the section up
and the key in it, both without case (`getkeystring_iniText`): every line fits the buffer, a header
is not taken for an entry nor an entry for a header, and the search ends at the next header.
-/

namespace PiksiBuildroot.Libpiksi.MinIni

open Lib CText List Option

/-- Letters, digits and underscores. -/
def isWordChar (c : Char) : Bool := c.isAlphanum || c == '_'

/-- A nonempty string of letters, digits and underscores. -/
structure IsWord (s : List Char) : Prop where
  ne_nil : s ≠ []
  chars : ∀ c ∈ s, isWordChar c

instance (s : List Char) : Decidable (IsWord s) := decidable_of_iff (s ≠ [] ∧ s.all isWordChar)
    ⟨fun h => ⟨h.1, List.all_eq_true.mp h.2⟩, fun h => ⟨h.ne_nil, List.all_eq_true.mpr h.chars⟩⟩

/-- A section: its name and its entries, a key and a value each. -/
abbrev Section := List Char × List (List Char × List Char)

def headerLine (sectionName : List Char) : List Char := '[' :: sectionName ++ [']']

def entryLine (entry : List Char × List Char) : List Char := entry.1 ++ '=' :: entry.2

def iniLines (sections : List Section) : List (List Char) :=
  sections.flatMap fun s => headerLine s.1 :: s.2.map entryLine

def iniText (sections : List Section) : List Char := (iniLines sections).flatMap (· ++ ['\n'])

/-- Names are words, values are strings without newline, and a line fits the buffer. -/
structure IniSection (s : Section) : Prop where
  name : IsWord s.1
  name_length : s.1.length < 255
  keys : ∀ e ∈ s.2, IsWord e.1 ∧ e.1.length < 255
  values : ∀ e ∈ s.2, '\n' ∉ e.2 ∧ '\x00' ∉ e.2 ∧ e.2.length < 255

/-! ### Lines -/

section texts

variable {charSigned : Bool} {c : Char} {s : List Char} {e : List Char × List Char}

lemma toNat_of_isWordChar (h : isWordChar c) :
    (48 ≤ c.toNat ∧ c.toNat ≤ 57) ∨ (65 ≤ c.toNat ∧ c.toNat ≤ 90) ∨ c.toNat = 95 ∨
      (97 ≤ c.toNat ∧ c.toNat ≤ 122) := by
  unfold isWordChar Char.isAlphanum Char.isAlpha Char.isUpper Char.isLower Char.isDigit at h
  simp only [Bool.or_eq_true, Bool.and_eq_true, decide_eq_true_eq, beq_iff_eq, ge_iff_le,
    UInt32.le_iff_toNat_le] at h
  rcases h with ((h | h) | h) | rfl
  · exact Or.inr (Or.inl h)
  · exact Or.inr (Or.inr (Or.inr h))
  · exact Or.inl h
  · exact Or.inr (Or.inr (Or.inl rfl))

lemma isBlank_of_isWordChar (h : isWordChar c) : isBlank charSigned c = false := by
  have hnat := toNat_of_isWordChar h
  unfold isBlank
  rw [decide_eq_false (by omega), decide_eq_false (by omega), Bool.and_false, Bool.or_false]

lemma IsWord.notMem (h : IsWord s) (hc : isWordChar c = false) : c ∉ s := by
  intro hmem
  have hword := h.chars c hmem
  rw [hc] at hword
  exact Bool.false_ne_true hword

lemma IsWord.skipleading (h : IsWord s) (rest : List Char) :
    skipleading charSigned (s ++ rest) = s ++ rest := by
  obtain ⟨c, s, rfl⟩ := exists_cons_of_ne_nil h.ne_nil
  exact dropWhile_cons_of_neg
    (by simpa using isBlank_of_isWordChar (h.chars c mem_cons_self))

lemma IsWord.skiptrailing (h : IsWord s) : skiptrailing charSigned s = s := by
  apply skiptrailing_eq_self
  intro c hc
  exact isBlank_of_isWordChar (h.chars c (mem_of_getLast? hc))

lemma IsWord.head?_append (h : IsWord s) (rest : List Char) (hc : isWordChar c = false) :
    (s ++ rest).head? ≠ some c := by
  obtain ⟨d, s, rfl⟩ := exists_cons_of_ne_nil h.ne_nil
  intro heq
  exact h.notMem hc (some.inj heq ▸ mem_cons_self)

lemma strncasecmpEq_append {a b rest : List Char} (h : a.length = b.length) :
    strncasecmpEq (a ++ rest) b b.length = sameWord a b := by
  unfold strncasecmpEq sameWord
  rw [← h, take_left, h, take_length]

lemma length_eq_of_sameWord {a b : List Char} (h : sameWord a b) : a.length = b.length := by
  have hmap := congrArg List.length (beq_iff_eq.mp h)
  rwa [length_map, length_map] at hmap

/-- A header opens the section of its name, whatever the case. -/
lemma isSection_headerLine (h : IsWord s) (sectionName : List Char) :
    isSection charSigned sectionName (headerLine s ++ ['\n']) = sameWord s sectionName := by
  have hclose : ∀ c ∈ s, decide (c ≠ ']') = true := by
    intro c hc
    have hnot := h.notMem (c := ']') (by decide)
    exact decide_eq_true (fun heq => hnot (heq ▸ hc))
  have htake : (s ++ [']', '\n']).takeWhile (· ≠ ']') = s := by
    rw [takeWhile_append_of_pos hclose]
    simp
  have hskip : skipleading charSigned (headerLine s ++ ['\n']) = '[' :: (s ++ [']', '\n']) := by
    unfold skipleading headerLine
    rw [cons_append, cons_append, dropWhile_cons_of_neg (by cases charSigned <;> decide),
      append_assoc]
    rfl
  unfold isSection
  rw [hskip]
  simp only [htake]
  by_cases hlength : s.length = sectionName.length
  · simp [hlength, strncasecmpEq_append hlength]
  · have hne : sameWord s sectionName = false :=
      Bool.eq_false_iff.mpr (fun hsame => hlength (length_eq_of_sameWord hsame))
    simp [hlength, hne]

lemma isSection_entryLine (h : IsWord e.1) (sectionName : List Char) :
    isSection charSigned sectionName (entryLine e ++ ['\n']) = false := by
  unfold isSection entryLine
  rw [append_assoc, h.skipleading]
  split
  · rename_i sp heq
    exact absurd (congrArg List.head? heq) (h.head?_append _ (by decide))
  · rfl

lemma splitSign_entryLine (h : IsWord e.1) :
    splitSign (entryLine e ++ ['\n']) = some (e.1, e.2 ++ ['\n']) := by
  have hsign : ∀ c ∈ e.1, decide (c ≠ '=') = true := by
    intro c hc
    have hnot := h.notMem (c := '=') (by decide)
    exact decide_eq_true (fun heq => hnot (heq ▸ hc))
  unfold splitSign entryLine
  rw [if_pos (by simp), append_assoc, takeWhile_append_of_pos hsign, dropWhile_append_of_pos hsign]
  simp

/-- The key of an entry is compared, and the text behind the sign is the value. -/
lemma findKey_entryLine (h : IsWord e.1) (key : List Char) (rest : List (List Char)) :
    findKey charSigned key ((entryLine e ++ ['\n']) :: rest) =
      if sameWord e.1 key then some (e.2 ++ ['\n']) else findKey charSigned key rest := by
  have hskip : skipleading charSigned (entryLine e ++ ['\n']) = entryLine e ++ ['\n'] := by
    unfold entryLine
    rw [append_assoc]
    exact h.skipleading _
  have hhead : ∀ c, isWordChar c = false → (entryLine e ++ ['\n']).head? ≠ some c := by
    intro c hc
    unfold entryLine
    rw [append_assoc]
    exact h.head?_append _ hc
  rw [findKey]
  simp only [hskip, if_neg (hhead '[' (by decide)), splitSign_entryLine h, h.skiptrailing,
    hhead ';' (by decide), hhead '#' (by decide), false_or]
  by_cases hlength : e.1.length = key.length
  · have hsame : strncasecmpEq (entryLine e ++ ['\n']) key key.length = sameWord e.1 key := by
      unfold entryLine
      rw [append_assoc]
      exact strncasecmpEq_append hlength
    rw [hsame]
    cases sameWord e.1 key <;> simp [hlength]
  · have hne : sameWord e.1 key = false :=
      Bool.eq_false_iff.mpr (fun hsame => hlength (length_eq_of_sameWord hsame))
    simp [hlength, hne]

variable {entries : List (List Char × List Char)}

lemma findKey_entries (h : ∀ e ∈ entries, IsWord e.1) (key : List Char) (rest : List (List Char)) :
    findKey charSigned key (entries.map (fun e => entryLine e ++ ['\n']) ++ rest) =
      match entries.find? (fun e => sameWord e.1 key) with
      | some e => some (e.2 ++ ['\n'])
      | none => findKey charSigned key rest := by
  induction entries with
  | nil => rfl
  | cons e entries ih =>
    rw [map_cons, cons_append, findKey_entryLine (h e mem_cons_self), find?_cons]
    split
    · rename_i hsame
      rw [hsame]
    · rename_i hsame
      rw [Bool.eq_false_iff.mpr hsame]
      exact ih (fun e' he' => h e' (mem_cons_of_mem e he'))

/-! ### Sections -/

/-- The lines of a section. -/
def sectionText (s : Section) : List (List Char) :=
  (headerLine s.1 ++ ['\n']) :: s.2.map (fun e => entryLine e ++ ['\n'])

variable {sections : List Section}

/-- The key is looked for up to the next header. -/
lemma findKey_sections (key : List Char) :
    findKey charSigned key (sections.flatMap sectionText) = none := by
  cases sections with
  | nil => rfl
  | cons s sections =>
    have hskip : (skipleading charSigned (headerLine s.1 ++ ['\n'])).head? = some '[' := by
      unfold skipleading headerLine
      rw [cons_append, cons_append, dropWhile_cons_of_neg (by cases charSigned <;> decide)]
      rfl
    exact if_pos hskip

lemma findSection_entries (h : ∀ e ∈ entries, IsWord e.1) (sectionName : List Char)
    (rest : List (List Char)) :
    findSection charSigned sectionName (entries.map (fun e => entryLine e ++ ['\n']) ++ rest) =
      findSection charSigned sectionName rest := by
  induction entries with
  | nil => rfl
  | cons e entries ih =>
    rw [map_cons, cons_append, findSection,
      isSection_entryLine (h e mem_cons_self), if_neg Bool.false_ne_true]
    exact ih (fun e' he' => h e' (mem_cons_of_mem e he'))

/-- The first section of the name is found, and the key is looked for in it. -/
lemma lookup_sections (h : ∀ s ∈ sections, IniSection s) (sectionName key : List Char) :
    (findSection charSigned sectionName (sections.flatMap sectionText)).bind
        (findKey charSigned key) =
      ((sections.find? (fun s => sameWord s.1 sectionName)).bind fun s =>
        s.2.find? (fun e => sameWord e.1 key)).map (·.2 ++ ['\n']) := by
  induction sections with
  | nil => rfl
  | cons s sections ih =>
    have hs := h s mem_cons_self
    have hwords : ∀ e ∈ s.2, IsWord e.1 := fun e he => (hs.keys e he).1
    rw [flatMap_cons, sectionText, cons_append, findSection,
      isSection_headerLine hs.name, find?_cons]
    split
    · rename_i hsame
      rw [hsame, bind_some, findKey_entries hwords, findKey_sections]
      simp only [bind_some]
      split
      · rename_i e he
        rw [he]
        rfl
      · rename_i he
        rw [he]
        rfl
    · rename_i hsame
      rw [Bool.eq_false_iff.mpr hsame, findSection_entries hwords]
      exact ih (fun s' hs' => h s' (mem_cons_of_mem s hs'))

/-- Each line of the file fits the buffer of the reader. -/
lemma iniLine_ok (h : ∀ s ∈ sections, IniSection s) {line : List Char}
    (hline : line ∈ iniLines sections) :
    '\n' ∉ line ∧ '\x00' ∉ line ∧ line.length + 2 ≤ iniBuffersize := by
  obtain ⟨s, hs, hline⟩ := mem_flatMap.mp hline
  have hok := h s hs
  unfold iniBuffersize
  rcases mem_cons.mp hline with rfl | hline
  · have hlength := hok.name_length
    refine ⟨?_, ?_, ?_⟩
    · simpa [headerLine] using hok.name.notMem (by decide)
    · simpa [headerLine] using hok.name.notMem (by decide)
    · simp only [headerLine, length_cons, length_append, length_nil]
      omega
  · obtain ⟨e, he, rfl⟩ := List.mem_map.mp hline
    obtain ⟨hkey, hkeylength⟩ := hok.keys e he
    obtain ⟨hnewline, hnul, hlength⟩ := hok.values e he
    refine ⟨?_, ?_, ?_⟩
    · simpa [entryLine, hnewline] using hkey.notMem (by decide)
    · simpa [entryLine, hnul] using hkey.notMem (by decide)
    · simp only [entryLine, length_cons, length_append]
      omega

/-- The lines of the written file are those of its sections. -/
lemma iniRead_iniText (h : ∀ s ∈ sections, IniSection s) :
    iniRead (iniText sections) = sections.flatMap sectionText := by
  have hlines : lines iniBuffersize (by decide) (iniText sections) =
      (iniLines sections).map (· ++ ['\n']) := by
    apply lines_flatMap
    intro l hl
    obtain ⟨hnewline, -, hlength⟩ := iniLine_ok h hl
    exact ⟨hnewline, hlength⟩
  have hstring : ∀ l ∈ iniLines sections, cString (l ++ ['\n']) = l ++ ['\n'] := by
    intro l hl
    apply takeWhile_eq_self_iff.mpr
    intro c hc
    apply decide_eq_true
    rintro rfl
    rcases mem_append.mp hc with hc | hc
    · exact (iniLine_ok h hl).2.1 hc
    · exact absurd hc (by decide)
  unfold iniRead
  rw [hlines, List.map_map]
  calc (iniLines sections).map (cString ∘ (· ++ ['\n']))
      = (iniLines sections).map (· ++ ['\n']) := map_congr_left hstring
    _ = sections.flatMap sectionText := by
        unfold iniLines sectionText
        rw [map_flatMap]
        simp [Function.comp_def]

/-- A text of sections is read back by looking the section and the key up. -/
theorem getkeystring_iniText (h : ∀ s ∈ sections, IniSection s) {sectionName : List Char}
    (hname : sectionName ≠ []) (key : List Char) (bufferSize : Nat) :
    getkeystring charSigned sectionName key bufferSize (iniText sections) =
      ((sections.find? (fun s => sameWord s.1 sectionName)).bind fun s =>
        s.2.find? (fun e => sameWord e.1 key)).map
          fun e => readValue charSigned (e.2 ++ ['\n']) bufferSize := by
  have hlookup := @lookup_sections charSigned sections h sectionName key
  unfold getkeystring sectionLines
  rw [if_neg hname, iniRead_iniText h]
  simp only [bind_eq_bind]
  rw [← bind_assoc, hlookup, bind_map, map_eq_bind]
  rfl

end texts

end PiksiBuildroot.Libpiksi.MinIni
