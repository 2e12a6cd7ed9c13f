import PiksiBuildroot.Lib.CText

/-!
# The INI reader

`ini_gets` as the settings daemon calls it: a section and a key given by name. The text is read line
by line, section and key are compared without case, and the value is trimmed, cut at a comment and
unquoted. A value is read back as it was written exactly if it is `Plain` (`Plain.readValue_eq`,
`plain_of_readValue_eq`).
-/

namespace PiksiBuildroot.Libpiksi.MinIni

open Lib CText List Option

/-- How `save_strncpy` treats quotes (the reader never writes them). Source: `enum quote_option`. -/
inductive QuoteOption where
  | none
  | dequote
  deriving DecidableEq

/-- Source: `INI_BUFFERSIZE`. -/
def iniBuffersize : Nat := 512

section reader

-- whether `char` is signed, so that the bytes from 128 on compare below a blank
variable (charSigned : Bool)

/-- Whether a character is at most a blank. -/
def isBlank (c : Char) : Bool := c.toNat ≤ 32 || (charSigned && 128 ≤ c.toNat)

/-- Source: `skipleading`. -/
def skipleading (str : List Char) : List Char := str.dropWhile (isBlank charSigned)

/-- Source: `skiptrailing` and `striptrailing`. -/
def skiptrailing (str : List Char) : List Char := str.rdropWhile (isBlank charSigned)

/-- What is in front of a comment. Source: the loop of `cleanstring`. -/
def cutComment : Bool → List Char → List Char
  | isstring, '"' :: '"' :: s => '"' :: '"' :: cutComment isstring s
  | isstring, '\\' :: '"' :: s => '\\' :: '"' :: cutComment isstring s
  | isstring, c :: s =>
    if (c = ';' ∨ c = '#') ∧ isstring = false then []
    else c :: cutComment (if c = '"' then !isstring else isstring) s
  | _, [] => []

/-- Source: `cleanstring`. -/
def cleanstring (string : List Char) : List Char × QuoteOption :=
  let string := skiptrailing charSigned (cutComment false string)
  if string.head? = some '"' ∧ string.getLast? = some '"' then (string.tail.dropLast, .dequote)
  else (string, .none)

/-- Source: the loop of `save_strncpy` for `QUOTE_DEQUOTE`. -/
def dequote : List Char → List Char
  | '"' :: '"' :: s => '"' :: dequote s
  | '\\' :: '"' :: s => '"' :: dequote s
  | c :: s => c :: dequote s
  | [] => []

/-- Source: `save_strncpy`. -/
def saveStrncpy (source : List Char) (maxlen : Nat) : QuoteOption → List Char
  | .none => source.take (maxlen - 1)
  | .dequote => (dequote source).take (maxlen - 1)

/-- Source: the condition of the first loop of `getkeystring`. -/
def isSection (sectionName line : List Char) : Bool := match skipleading charSigned line with
  | '[' :: sp =>
    -- `sp` is the text behind the bracket, `ep` the first bracket that closes
    ']' ∈ sp ∧ (sp.takeWhile (· ≠ ']')).length = sectionName.length ∧
      strncasecmpEq sp sectionName sectionName.length
  | _ => false

/-- The lines that follow the header of the section. -/
def findSection (sectionName : List Char) : List (List Char) → Option (List (List Char))
  | [] => none
  | line :: rest =>
    if isSection charSigned sectionName line then some rest else findSection sectionName rest

/-- The text in front of the first `=`, or the first `:` if there is no `=`, and the text behind. -/
def splitSign (sp : List Char) : Option (List Char × List Char) :=
  if '=' ∈ sp then some (sp.takeWhile (· ≠ '='), (sp.dropWhile (· ≠ '=')).tail)
  else if ':' ∈ sp then some (sp.takeWhile (· ≠ ':'), (sp.dropWhile (· ≠ ':')).tail)
  else none

/-- Source: the second loop of `getkeystring`. -/
def findKey (key : List Char) : List (List Char) → Option (List Char)
  | [] => none
  | line :: rest =>
    let sp := skipleading charSigned line
    if sp.head? = some '[' then none
    else
      match splitSign sp with
      | none => findKey key rest
      | some (before, after) =>
        if sp.head? = some ';' ∨ sp.head? = some '#' ∨
            (skiptrailing charSigned before).length ≠ key.length ∨
            strncasecmpEq sp key key.length = false then
          findKey key rest
        else some after

/-- The value behind the sign. Source: the end of `getkeystring`. -/
def readValue (after : List Char) (bufferSize : Nat) : List Char :=
  let (sp, quotes) := cleanstring charSigned (skipleading charSigned after)
  saveStrncpy sp bufferSize quotes

/-- The lines of a file, as C strings. -/
def iniRead (text : List Char) : List (List Char) :=
  (lines iniBuffersize (by decide) text).map cString

/-- The lines to look for the key in; without a section these are the first lines of the file. -/
def sectionLines (sectionName : List Char) (ls : List (List Char)) : Option (List (List Char)) :=
  if sectionName = [] then some ls else findSection charSigned sectionName ls

/-- Source: `getkeystring` with both indices negative. -/
def getkeystring (sectionName key : List Char) (bufferSize : Nat) (text : List Char) :
    Option (List Char) := do
  let rest ← sectionLines charSigned sectionName (iniRead text)
  let after ← findKey charSigned key rest
  some (readValue charSigned after bufferSize)

/-- The text in the buffer after `ini_gets`; no file is one that does not open. Source: `ini_gets`.
-/
def iniGets (sectionName key defValue : List Char) (bufferSize : Nat) (file : Option (List Char)) :
    List Char :=
  match file.bind (getkeystring charSigned sectionName key bufferSize) with
  | some value => value
  | none => saveStrncpy defValue bufferSize .none

end reader

/-! ### Values -/

/-- Whether there is a `;` or `#` that is not between quotes. -/
def hasComment : Bool → List Char → Bool
  | quoted, '"' :: '"' :: s => hasComment quoted s
  | quoted, '\\' :: '"' :: s => hasComment quoted s
  | quoted, c :: s =>
    ((c = ';' ∨ c = '#') ∧ quoted = false) ||
      hasComment (if c = '"' then !quoted else quoted) s
  | _, [] => false

/-- A value that does not start or end with a blank, has no comment and is not in quotes. -/
structure Plain (charSigned : Bool) (v : List Char) : Prop where
  head : ∀ c ∈ v.head?, isBlank charSigned c = false
  last : ∀ c ∈ v.getLast?, isBlank charSigned c = false
  noComment : hasComment false v = false
  noQuotes : ¬ (v.head? = some '"' ∧ v.getLast? = some '"')

instance (charSigned : Bool) (v : List Char) : Decidable (Plain charSigned v) := decidable_of_iff
    (v.head?.all (!isBlank charSigned ·) ∧ v.getLast?.all (!isBlank charSigned ·) ∧
      hasComment false v = false ∧ ¬ (v.head? = some '"' ∧ v.getLast? = some '"'))
    (by
      simp only [Option.all_eq_true, Bool.not_eq_true']
      exact ⟨fun h => ⟨h.1, h.2.1, h.2.2.1, h.2.2.2⟩,
        fun h => ⟨h.head, h.last, h.noComment, h.noQuotes⟩⟩)

section values

variable {charSigned : Bool}

lemma cutComment_isPrefix (isstring : Bool) (s : List Char) : cutComment isstring s <+: s := by
  fun_induction cutComment isstring s with
  | case1 isstring s ih | case2 isstring s ih | case4 isstring c s h₁ h₂ hc ih => simpa using ih
  | case3 isstring c s h₁ h₂ hc | case5 isstring => exact nil_prefix

/-- A newline at the end is kept exactly if there is no comment. -/
lemma cutComment_newline (quoted : Bool) (v : List Char) : cutComment quoted (v ++ ['\n']) =
      if hasComment quoted v then cutComment quoted v else v ++ ['\n'] := by
  fun_induction hasComment quoted v with
  | case1 quoted s ih | case2 quoted s ih =>
    simp only [cons_append, cutComment, ih]
    split <;> rfl
  | case3 quoted c s h₁ h₂ ih =>
    -- a quote behind `c` would have been behind it without the newline
    have hquote : ∀ t, s ++ ['\n'] = '"' :: t → ∃ t', s = '"' :: t' := by
      intro t ht
      cases s with
      | nil => exact absurd (cons.inj ht).1 (by decide)
      | cons d s => exact ⟨s, by rw [(cons.inj ht).1]⟩
    have h₁' : ∀ t, c = '"' → s ++ ['\n'] = '"' :: t → False := by
      intro t hc ht
      obtain ⟨t', rfl⟩ := hquote t ht
      exact h₁ t' hc rfl
    have h₂' : ∀ t, c = '\\' → s ++ ['\n'] = '"' :: t → False := by
      intro t hc ht
      obtain ⟨t', rfl⟩ := hquote t ht
      exact h₂ t' hc rfl
    rw [List.cons_append, cutComment.eq_3 _ _ _ h₁' h₂', cutComment.eq_3 _ _ _ h₁ h₂, ih]
    by_cases hcomment : (c = ';' ∨ c = '#') ∧ quoted = false
    · simp [hcomment]
    · rw [if_neg hcomment, if_neg hcomment, decide_eq_false hcomment, Bool.false_or]
      exact apply_ite (c :: ·) _ _ _
  | case4 quoted => rfl

variable {v : List Char} {bufferSize : Nat} {after : List Char}

/-- A value with a comment is cut. -/
lemma length_cutComment_lt {quoted : Bool} (h : hasComment quoted v = true) :
    (cutComment quoted v).length < v.length := by
  fun_induction hasComment quoted v with
  | case1 quoted s ih | case2 quoted s ih => exact Nat.succ_lt_succ (Nat.succ_lt_succ (ih h))
  | case3 quoted c s h₁ h₂ ih =>
    rw [cutComment.eq_3 _ _ _ h₁ h₂]
    split
    · exact Nat.succ_pos _
    · rename_i hcomment
      rw [decide_eq_false hcomment, Bool.false_or] at h
      exact Nat.succ_lt_succ (ih h)
  | case4 quoted => exact absurd h Bool.false_ne_true

lemma length_dequote_le (s : List Char) : (dequote s).length ≤ s.length := by
  fun_induction dequote s with
  | case1 s ih | case2 s ih => exact Nat.le_succ_of_le (Nat.succ_le_succ ih)
  | case3 c s h₁ h₂ ih => exact Nat.succ_le_succ ih
  | case4 => exact Nat.le_refl _

lemma length_saveStrncpy_le (source : List Char) (maxlen : Nat) (option : QuoteOption) :
    (saveStrncpy source maxlen option).length ≤ source.length := by
  cases option with
  | none => exact (List.take_prefix _ _).length_le
  | dequote => exact (List.take_prefix _ _).length_le.trans (length_dequote_le source)

/-- The value is at most what trimming leaves, and less if that is in quotes. -/
lemma length_readValue (after : List Char) (bufferSize : Nat) :
    let string := skiptrailing charSigned (cutComment false (skipleading charSigned after))
    (readValue charSigned after bufferSize).length ≤ string.length ∧
      (string.head? = some '"' ∧ string.getLast? = some '"' →
        (readValue charSigned after bufferSize).length < string.length) := by
  intro string
  have hsave := fun source option => length_saveStrncpy_le source bufferSize option
  unfold readValue cleanstring
  by_cases hquotes : string.head? = some '"' ∧ string.getLast? = some '"'
  · have hpos : 0 < string.length := by
      apply length_pos_iff.mpr
      intro hnil
      simp [hnil] at hquotes
    have hle := hsave string.tail.dropLast .dequote
    rw [length_dropLast, length_tail] at hle
    simp only [string] at hquotes hle hpos ⊢
    simp only [hquotes, and_self, if_true]
    omega
  · have hle := hsave string .none
    simp only [string] at hquotes hle ⊢
    simp only [hquotes, if_false]
    exact ⟨hle, fun hfalse => absurd hfalse id⟩

lemma isBlank_newline : isBlank charSigned '\n' = true := rfl

/-- A value that is not read as blank, without the blanks in front of it. -/
lemma skipleading_newline (h : skipleading charSigned v ≠ []) :
    skipleading charSigned (v ++ ['\n']) = skipleading charSigned v ++ ['\n'] := by
  unfold skipleading at h ⊢
  rw [dropWhile_append, if_neg (by simpa using h)]

lemma skipleading_newline_of_blank (h : skipleading charSigned v = []) :
    skipleading charSigned (v ++ ['\n']) = [] := by
  unfold skipleading at h ⊢
  rw [dropWhile_append, if_pos (by simpa using h)]
  rfl

lemma skiptrailing_newline (u : List Char) :
    skiptrailing charSigned (u ++ ['\n']) = skiptrailing charSigned u :=
  rdropWhile_concat_pos _ _ _ isBlank_newline

lemma length_skiptrailing_le (u : List Char) : (skiptrailing charSigned u).length ≤ u.length :=
  (List.rdropWhile_prefix _ u).length_le

lemma skipleading_eq_self (h : ∀ c ∈ v.head?, isBlank charSigned c = false) :
    skipleading charSigned v = v := by
  cases v with
  | nil => rfl
  | cons c v => exact dropWhile_cons_of_neg (by simpa using h c rfl)

lemma skiptrailing_eq_self (h : ∀ c ∈ v.getLast?, isBlank charSigned c = false) :
    skiptrailing charSigned v = v := by
  apply rdropWhile_eq_self_iff.mpr
  intro hv
  simpa using h _ (getLast?_eq_some_getLast hv)

/-- A plain value is read back. -/
theorem Plain.readValue_eq (h : Plain charSigned v) (hlength : v.length < bufferSize) :
    readValue charSigned (v ++ ['\n']) bufferSize = v := by
  have hkeep : skiptrailing charSigned
      (cutComment false (skipleading charSigned (v ++ ['\n']))) = v := by
    by_cases hv : v = []
    · subst hv
      rfl
    · have hhead := skipleading_eq_self h.head
      rw [skipleading_newline (hhead.symm ▸ hv), hhead, cutComment_newline, h.noComment,
        if_neg Bool.false_ne_true, skiptrailing_newline, skiptrailing_eq_self h.last]
  unfold readValue cleanstring
  simp only [hkeep, if_neg h.noQuotes]
  exact take_of_length_le (by omega)

/-- Only a plain value is read back. -/
theorem plain_of_readValue_eq (h : readValue charSigned (v ++ ['\n']) bufferSize = v) :
    Plain charSigned v := by
  have hlength := @length_readValue charSigned (v ++ ['\n']) bufferSize
  rw [h] at hlength
  by_cases hblank : skipleading charSigned v = []
  · rw [skipleading_newline_of_blank hblank] at hlength
    have hnil : v = [] := eq_nil_of_length_eq_zero (Nat.le_zero.mp hlength.1)
    subst hnil
    exact ⟨nofun, nofun, rfl, nofun⟩
  · rw [skipleading_newline hblank, cutComment_newline] at hlength
    have hsuffix := dropWhile_suffix (l := v) (isBlank charSigned)
    have hskip : (skipleading charSigned v).length ≤ v.length := hsuffix.length_le
    -- nothing may be lost on the way
    have hcomment : hasComment false (skipleading charSigned v) = false := by
      apply Bool.eq_false_iff.mpr
      intro htrue
      rw [if_pos htrue] at hlength
      have hcut := length_cutComment_lt htrue
      have htrail := @length_skiptrailing_le charSigned
        (cutComment false (skipleading charSigned v))
      omega
    rw [hcomment, if_neg Bool.false_ne_true, skiptrailing_newline] at hlength
    have htrail := @length_skiptrailing_le charSigned (skipleading charSigned v)
    have hle := hlength.1
    have hself : skipleading charSigned v = v := hsuffix.eq_of_length (by
      show (skipleading charSigned v).length = v.length
      omega)
    have hlast : skiptrailing charSigned v = v := by
      apply (List.rdropWhile_prefix _ v).eq_of_length
      rw [hself] at hle htrail
      exact Nat.le_antisymm htrail hle
    rw [hself, hlast] at hlength
    rw [hself] at hcomment
    refine ⟨?_, ?_, hcomment, ?_⟩
    · intro c hc
      cases v with
      | nil => exact absurd hc nofun
      | cons d v =>
        obtain rfl := some.inj hc
        simpa using dropWhile_eq_self_iff.mp hself (Nat.succ_pos _)
    · intro c hc
      have hv : v ≠ [] := by
        rintro rfl
        exact absurd hc nofun
      rw [getLast?_eq_some_getLast hv] at hc
      obtain rfl := some.inj hc
      simpa using rdropWhile_eq_self_iff.mp hlast hv
    · intro hquotes
      exact Nat.lt_irrefl _ (hlength.2 hquotes)

variable {c : Char}

lemma mem_of_mem_dequote {s : List Char} (h : c ∈ dequote s) : c ∈ s := by
  fun_induction dequote s with
  | case1 s ih =>
    rcases mem_cons.mp h with rfl | h
    · exact mem_cons_self
    · exact mem_cons_of_mem _ (mem_cons_of_mem _ (ih h))
  | case2 s ih =>
    rcases mem_cons.mp h with rfl | h
    · exact mem_cons_of_mem _ mem_cons_self
    · exact mem_cons_of_mem _ (mem_cons_of_mem _ (ih h))
  | case3 d s h₁ h₂ ih =>
    rcases mem_cons.mp h with rfl | h
    · exact mem_cons_self
    · exact mem_cons_of_mem _ (ih h)
  | case4 => exact h

/-- The characters of a value are among those that trimming leaves. -/
lemma mem_of_mem_readValue (h : c ∈ readValue charSigned after bufferSize) :
    c ∈ skiptrailing charSigned (cutComment false (skipleading charSigned after)) := by
  unfold readValue cleanstring at h
  simp only at h
  split at h
  · exact mem_of_mem_tail ((List.dropLast_prefix _).subset
      (mem_of_mem_dequote (mem_of_mem_take h)))
  · exact mem_of_mem_take h

lemma skiptrailing_isInfix (after : List Char) :
    skiptrailing charSigned (cutComment false (skipleading charSigned after)) <:+: after :=
  ((List.rdropWhile_prefix _ _).trans (cutComment_isPrefix false _)).isInfix.trans
    (dropWhile_suffix _).isInfix

lemma isBlank_getLast_skiptrailing {w : List Char} (h : skiptrailing charSigned w ≠ []) :
    ¬ isBlank charSigned ((skiptrailing charSigned w).getLast h) :=
  rdropWhile_last_not _ _ h

lemma dropLast_subset_of_isInfix {X : Type*} {a l : List X} (h : a <:+: l) :
    a.dropLast ⊆ l.dropLast := by
  obtain ⟨b, c, rfl⟩ := h
  by_cases hc : c = []
  · by_cases ha : a = []
    · rw [ha]
      exact nil_subset _
    · rw [hc, append_nil, dropLast_append_of_ne_nil ha]
      exact subset_append_right b a.dropLast
  · rw [dropLast_append_of_ne_nil hc]
    intro x hx
    exact mem_append_left _ (mem_append_right b ((List.dropLast_prefix a).subset hx))

/-- A newline at the end of a line is trimmed. -/
lemma newline_notMem_readValue (h : '\n' ∉ after.dropLast) :
    '\n' ∉ readValue charSigned after bufferSize := by
  intro hmem
  have hmem := mem_of_mem_readValue hmem
  have hsub := dropLast_subset_of_isInfix (@skiptrailing_isInfix charSigned after)
  have hlast := @isBlank_getLast_skiptrailing charSigned
    (cutComment false (skipleading charSigned after))
  generalize skiptrailing charSigned (cutComment false (skipleading charSigned after)) = string
    at hmem hsub hlast
  have hne : string ≠ [] := ne_nil_of_mem hmem
  -- the newline is not the last character that is left, so it is not the last of the line
  rw [← dropLast_append_getLast hne, mem_append, mem_singleton] at hmem
  rcases hmem with hmem | heq
  · exact h (hsub hmem)
  · exact hlast hne (heq ▸ isBlank_newline)

lemma nul_notMem_readValue (h : '\x00' ∉ after) : '\x00' ∉ readValue charSigned after bufferSize :=
  fun hmem => h ((@skiptrailing_isInfix charSigned after).subset (mem_of_mem_readValue hmem))

lemma length_readValue_lt (h : 0 < bufferSize) :
    (readValue charSigned after bufferSize).length < bufferSize := by
  unfold readValue saveStrncpy
  simp only
  split <;> exact Nat.lt_of_le_of_lt (length_take_le _ _) (by omega)

/-! ### Lookup -/

lemma mem_of_findSection {sectionName : List Char} {ls rest : List (List Char)}
    (h : findSection charSigned sectionName ls = some rest) : rest ⊆ ls := by
  induction ls with
  | nil => exact absurd h nofun
  | cons line ls ih =>
    unfold findSection at h
    split at h
    · cases h
      exact subset_cons_self _ _
    · exact subset_cons_of_subset _ (ih h)

lemma splitSign_suffix {sp before after : List Char} (h : splitSign sp = some (before, after)) :
    after <:+ sp := by
  have htail : ∀ p : Char → Bool, (sp.dropWhile p).tail <:+ sp :=
    fun p => (tail_suffix _).trans (dropWhile_suffix p)
  unfold splitSign at h
  split at h
  · exact (Prod.mk.inj (some.inj h)).2 ▸ htail _
  · split at h
    · exact (Prod.mk.inj (some.inj h)).2 ▸ htail _
    · exact absurd h nofun

/-- What is behind the sign of a key is the end of a line. -/
lemma exists_suffix_of_findKey {key after : List Char} {ls : List (List Char)}
    (h : findKey charSigned key ls = some after) : ∃ line ∈ ls, after <:+ line := by
  induction ls with
  | nil => exact absurd h nofun
  | cons line ls ih =>
    have hrest :
        findKey charSigned key ls = some after → ∃ line' ∈ line :: ls, after <:+ line' := by
      intro hfound
      obtain ⟨line', hmem, hsuffix⟩ := ih hfound
      exact ⟨line', mem_cons_of_mem line hmem, hsuffix⟩
    unfold findKey at h
    simp only at h
    split at h
    · exact absurd h nofun
    · split at h
      · exact hrest h
      · rename_i before after' hsplit
        split at h
        · exact hrest h
        · cases h
          exact ⟨line, mem_cons_self, (splitSign_suffix hsplit).trans (dropWhile_suffix _)⟩

/-- A value in the file is a string without newline that fits the buffer. -/
theorem text_of_getkeystring {sectionName key value text : List Char} (hsize : 0 < bufferSize)
    (h : getkeystring charSigned sectionName key bufferSize text = some value) :
    '\n' ∉ value ∧ '\x00' ∉ value ∧ value.length < bufferSize := by
  unfold getkeystring sectionLines at h
  simp only [bind_eq_bind, bind_eq_some_iff] at h
  obtain ⟨rest, hrest, after, hafter, hvalue⟩ := h
  obtain rfl := some.inj hvalue
  have hsub : rest ⊆ iniRead text := by
    split at hrest
    · exact some.inj hrest ▸ List.Subset.refl _
    · exact mem_of_findSection hrest
  obtain ⟨line, hline, hsuffix⟩ := exists_suffix_of_findKey hafter
  obtain ⟨raw, hraw, rfl⟩ := List.mem_map.mp (hsub hline)
  refine ⟨newline_notMem_readValue ?_, nul_notMem_readValue ?_, length_readValue_lt hsize⟩
  · intro hmem
    have hinfix := hsuffix.isInfix.trans (List.takeWhile_prefix _).isInfix
    exact newline_last_of_mem_lines hraw (dropLast_subset_of_isInfix hinfix hmem)
  · intro hmem
    have hnul := mem_takeWhile_imp (hsuffix.subset hmem)
    exact absurd hnul (by decide)

end values

end PiksiBuildroot.Libpiksi.MinIni
