import Mathlib.Tactic.ByContra
import PiksiBuildroot.Lib.ShellLex

/-!
# Values in a command of the shell

`SameCommand` says that a value that is printed into a text is in one word of it, and everything
else is as for an alphanumeric value. Between a text that is `Ready` for a word and a `Trailer`
this holds exactly for the values that are `Plain` (`sameCommand_iff`): another value loses a
character to the shell, so that the words weigh less than they should.
-/

namespace PiksiBuildroot.Lib.ShellLex

/-! ### Plain values -/

/-- A character that separates words, or that is not taken literally. -/
def special (c : Char) : Bool := match classify c with
  | .hash | .ordinary => false
  | _ => true

/-- The value is a word of its own, taken literally. -/
def Plain (value : List Char) : Prop :=
  value ≠ [] ∧ value.head? ≠ some '#' ∧ value.all (fun c => !special c) = true

instance (value : List Char) : Decidable (Plain value) := inferInstanceAs (Decidable (_ ∧ _ ∧ _))

/-- The value has letters and digits only. -/
def Alphanumeric (value : List Char) : Prop := value ≠ [] ∧ value.all Char.isAlphanum = true

variable {c : Char} {value : List Char} {word : Option (List Char)} {tokens : List Token}
  {s : State}

lemma step_word (hc : special c = false) (text : List Char) (tokens : List Token) :
    step ⟨.word text, tokens⟩ c = some ⟨.word (text ++ [c]), tokens⟩ := by
  simp only [step, inWord, part]
  unfold special at hc
  split at hc <;> simp_all

lemma step_blank_word (hc : special c = false) (hhash : c ≠ '#') (tokens : List Token) :
    step ⟨.blank, tokens⟩ c = some ⟨.word [c], tokens⟩ := by
  simp only [step, start, part]
  unfold special at hc
  split at hc
  · rename_i hclass
    exact absurd (eq_hash_of_classify hclass) hhash
  · simp_all
  · simp at hc

/-- Characters that are not special are added to the word. -/
lemma run_word {text : List Char} (htext : text.all (fun c => !special c) = true)
    (word : List Char) (tokens : List Token) :
    run ⟨.word word, tokens⟩ text = some ⟨.word (word ++ text), tokens⟩ := by
  induction text generalizing word with
  | nil => simp [run]
  | cons c text ih =>
    simp only [List.all_cons, Bool.and_eq_true, Bool.not_eq_true'] at htext
    rw [run_cons, step_word htext.1, Option.bind_some, ih htext.2]
    simp

/-- A plain value becomes the word after a blank. -/
lemma run_plain (h : Plain value) (tokens : List Token) :
    run ⟨.blank, tokens⟩ value = some ⟨.word value, tokens⟩ := by
  obtain ⟨hne, hhead, hall⟩ := h
  rcases value with _ | ⟨c, text⟩
  · exact absurd rfl hne
  · simp only [List.all_cons, Bool.and_eq_true, Bool.not_eq_true'] at hall
    have hhash : c ≠ '#' := fun heq => hhead (by rw [heq]; rfl)
    rw [run_cons, step_blank_word hall.1 hhash, Option.bind_some, run_word hall.2]
    rfl

variable {mode : Mode}

lemma part_special_weight (f : Char → Nat) (hc : special c = true)
    (hseparator : classify c ≠ .blank ∧ classify c ≠ .newline ∧ classify c ≠ .operator)
    (h : part word c = some mode) : modeWeight f mode = weight f (word.getD []) := by
  unfold part at h
  unfold special at hc
  cases hclass : classify c <;> simp_all [modeWeight] <;> subst h <;> rfl

lemma start_special_weight (f : Char → Nat) (hc : special c = true ∨ c = '#')
    (h : start tokens c = some s) : s.weight f = tokensWeight f tokens := by
  unfold start at h
  split at h
  case h_5 hblank hnewline hoperator hhash =>
    have hspecial : special c = true := hc.resolve_right fun heq => hhash (by rw [heq]; rfl)
    obtain ⟨mode, hpart, rfl⟩ := Option.map_eq_some_iff.mp h
    have hmode := part_special_weight f hspecial ⟨hblank, hnewline, hoperator⟩ hpart
    simp [State.weight, hmode]
  all_goals
    cases h
    simp [State.weight, modeWeight]

/-- Outside of quotations a special character adds nothing. -/
lemma step_special_weight (f : Char → Nat) {text : List Char} (hc : special c = true)
    (h : step ⟨.word text, tokens⟩ c = some s) :
    s.weight f = tokensWeight f tokens + weight f text := by
  simp only [step, inWord] at h
  split at h
  case h_4 hblank hnewline hoperator =>
    obtain ⟨mode, hpart, rfl⟩ := Option.map_eq_some_iff.mp h
    have hmode := part_special_weight f hc ⟨hblank, hnewline, hoperator⟩ hpart
    simp [State.weight, hmode]
  all_goals
    rw [start_special_weight f (Or.inl hc) h]
    simp [State.close]

/-- The first special character of a text that continues a word is lost. -/
lemma run_word_special {word text : List Char} (hspecial : text.all (fun c => !special c) = false)
    (h : run ⟨.word word, tokens⟩ text = some s) :
    s.weight (fun _ => 1) <
      tokensWeight (fun _ => 1) tokens + weight (fun _ => 1) word + weight (fun _ => 1) text := by
  induction text generalizing word with
  | nil => exact absurd hspecial.symm Bool.false_ne_true
  | cons c text ih =>
    obtain ⟨s₁, hstep, hrun⟩ := Option.bind_eq_some_iff.mp h
    rw [weight_cons]
    rcases hc : special c with _ | _
    · rw [step_word hc] at hstep
      cases hstep
      have hrest := ih (by simpa [hc] using hspecial) hrun
      simp only [weight_append, weight_cons, weight_nil] at hrest
      omega
    · have hlost := step_special_weight (fun _ => 1) hc hstep
      have hrest := run_weight (fun _ => 1) hrun
      omega

/-- The first special character of a value, or the hash mark it starts with, is lost. -/
lemma run_not_plain (hne : value ≠ []) (hplain : ¬ Plain value)
    (h : run ⟨.blank, tokens⟩ value = some s) :
    s.weight (fun _ => 1) < tokensWeight (fun _ => 1) tokens + weight (fun _ => 1) value := by
  rcases value with _ | ⟨c, rest⟩
  · exact absurd rfl hne
  obtain ⟨s₁, hstep, hrun⟩ := Option.bind_eq_some_iff.mp h
  have hrest := run_weight (fun _ => 1) hrun
  rw [weight_cons]
  by_cases hfirst : special c = true ∨ c = '#'
  · have hlost : s₁.weight (fun _ => 1) = tokensWeight (fun _ => 1) tokens :=
      start_special_weight (fun _ => 1) hfirst hstep
    omega
  · obtain ⟨hc, hhash⟩ := not_or.mp hfirst
    rw [Bool.not_eq_true] at hc
    rw [step_blank_word hc hhash] at hstep
    cases hstep
    have hspecial : rest.all (fun c => !special c) = false := by
      by_contra hall
      exact hplain ⟨hne, by simpa using hhash, by simpa [hc] using hall⟩
    have hlost := run_word_special hspecial hrun
    simp only [weight_cons, weight_nil] at hlost
    omega

/-! ### Before and after a value -/

/-- The text ends after a blank. -/
def Ready (text : List Char) : Prop := ∃ tokens, run ⟨.blank, []⟩ text = some ⟨.blank, tokens⟩

/-- A character of the text around a value: one that is taken literally, or a blank or a single
quote. -/
def simpleChar (c : Char) : Bool := match classify c with
  | .ordinary | .blank | .single => true
  | _ => false

/-- Whether a text ends between single quotes. -/
def endsQuoted (quoted : Bool) : List Char → Bool
  | [] => quoted
  | c :: text => endsQuoted (if c = '\'' then !quoted else quoted) text

/-- Words and blanks, with single quotes that are closed. -/
def Balanced (text : List Char) : Prop := text.all simpleChar = true ∧ endsQuoted false text = false

/-- What follows a value: nothing, or a blank and the rest of a line. -/
def Trailer (text : List Char) : Prop :=
  text = [] ∨ ∃ line, text = ' ' :: line ++ ['\n'] ∧ Balanced line

/-- Outside of quotations and comments. -/
inductive Mode.Settled : Mode → Prop
  | blank : Settled .blank
  | operator (text : List Char) : Settled (.operator text)
  | word (text : List Char) : Settled (.word text)

/-- Outside of quotations and comments, or between single quotes. -/
def Mode.Level (quoted : Bool) (mode : Mode) : Prop :=
  if quoted then ∃ text, mode = .single text else mode.Settled

/-- A blank or a newline outside of quotations ends the token. -/
lemma step_separator (hs : s.mode.Settled) (hc : classify c = .blank ∨ classify c = .newline) :
    step s c = start s.close c := by
  rcases s with ⟨mode, tokens⟩
  cases hs with
  | blank => rfl
  | word text => rcases hc with hc | hc <;> simp only [step, inWord, hc]
  | operator text =>
    refine if_neg fun hoperator => ?_
    rcases last_of_operator hoperator with hlast | rfl
    · rcases hc with hc | hc <;> exact absurd (hc.symm.trans hlast) (by decide)
    · exact absurd hc (by decide)

lemma finish_of_settled (hs : s.mode.Settled) : s.finish = some s.close := by
  rcases s with ⟨mode, tokens⟩
  cases hs with
  | blank | operator text | word text => rfl

lemma simpleChar_cases (hc : simpleChar c = true) :
    c = '\'' ∨ c ≠ '\'' ∧ (classify c = .blank ∨ classify c = .ordinary) := by
  by_cases hquote : c = '\''
  · exact Or.inl hquote
  · refine Or.inr ⟨hquote, ?_⟩
    unfold simpleChar at hc
    split at hc
    · exact Or.inr ‹_›
    · exact Or.inl ‹_›
    · exact absurd (eq_single_of_classify ‹_›) hquote
    · cases hc

/-- A blank or a literal character between tokens. -/
lemma start_settled (hc : classify c = .blank ∨ classify c = .ordinary) (tokens : List Token) :
    ∃ s, start tokens c = some s ∧ s.mode.Settled := by
  rcases hc with hc | hc
  · exact ⟨⟨.blank, tokens⟩, by simp [start, hc], .blank⟩
  · exact ⟨⟨.word [c], tokens⟩, by simp [start, part, hc], .word [c]⟩

/-- A blank or a literal character outside of quotations. -/
lemma step_settled (hs : s.mode.Settled) (hc : classify c = .blank ∨ classify c = .ordinary) :
    ∃ s', step s c = some s' ∧ s'.mode.Settled := by
  rcases s with ⟨mode, tokens⟩
  cases hs with
  | blank => exact start_settled hc tokens
  | word text =>
    rcases hc with hc | hc
    · exact ⟨⟨.blank, State.close ⟨.word text, tokens⟩⟩,
        by simp only [step, inWord, start, hc], .blank⟩
    · exact ⟨⟨.word (text ++ [c]), tokens⟩, by simp [step, inWord, part, hc], .word _⟩
  | operator text =>
    simp only [step]
    split_ifs
    · exact ⟨_, rfl, .operator _⟩
    · exact start_settled hc _

/-- A single quote outside of quotations. -/
lemma step_quote (hs : s.mode.Settled) :
    ∃ s' text, step s '\'' = some s' ∧ s'.mode = .single text := by
  rcases s with ⟨mode, tokens⟩
  cases hs with
  | blank | word text => exact ⟨_, _, rfl, rfl⟩
  | operator text =>
    have hnot : ¬ operators.contains (text ++ ['\'']) = true := fun hoperator =>
      absurd (last_of_operator hoperator) (by decide)
    exact ⟨_, _, if_neg hnot, rfl⟩

variable {quoted : Bool} {a b : List Char}

/-- A simple character only opens or closes single quotes. -/
lemma step_simple (hs : s.mode.Level quoted) (hc : simpleChar c = true) :
    ∃ s', step s c = some s' ∧ s'.mode.Level (if c = '\'' then !quoted else quoted) := by
  rcases s with ⟨mode, tokens⟩
  rcases simpleChar_cases hc with rfl | ⟨hquote, hclass⟩
  · cases quoted with
    | false =>
      obtain ⟨s', text, hstep, hmode⟩ := step_quote hs
      exact ⟨s', hstep, text, hmode⟩
    | true =>
      obtain ⟨text, rfl⟩ := hs
      exact ⟨_, rfl, .word text⟩
  · rw [if_neg hquote]
    cases quoted with
    | false => exact step_settled hs hclass
    | true =>
      obtain ⟨text, rfl⟩ := hs
      exact ⟨⟨.single (text ++ [c]), tokens⟩, by simp [step, hquote], text ++ [c], rfl⟩

lemma run_simple {text : List Char} (hs : s.mode.Level quoted)
    (htext : text.all simpleChar = true) :
    ∃ s', run s text = some s' ∧ s'.mode.Level (endsQuoted quoted text) := by
  induction text generalizing s quoted with
  | nil => exact ⟨s, rfl, hs⟩
  | cons c text ih =>
    simp only [List.all_cons, Bool.and_eq_true] at htext
    obtain ⟨s₁, hstep, hs₁⟩ := step_simple hs htext.1
    obtain ⟨s', hrun, hs'⟩ := ih hs₁ htext.2
    exact ⟨s', by rw [run_cons, hstep, Option.bind_some, hrun], hs'⟩

lemma endsQuoted_append (quoted : Bool) (a b : List Char) :
    endsQuoted quoted (a ++ b) = endsQuoted (endsQuoted quoted a) b := by
  induction a generalizing quoted with
  | nil => rfl
  | cons c a ih => exact ih _

lemma endsQuoted_not (quoted : Bool) (text : List Char) :
    endsQuoted (!quoted) text = !endsQuoted quoted text := by
  induction text generalizing quoted with
  | nil => rfl
  | cons c text ih =>
    unfold endsQuoted
    split_ifs
    · exact ih _
    · exact ih _

lemma Balanced.append (ha : Balanced a) (hb : Balanced b) : Balanced (a ++ b) := by
  refine ⟨by rw [List.all_append, ha.1, hb.1]; rfl, ?_⟩
  rw [endsQuoted_append, ha.2, hb.2]

/-- Words and blanks after a text that is ready, up to another blank. -/
lemma Ready.append (ha : Ready a) (hb : Balanced b) : Ready (a ++ b ++ [' ']) := by
  obtain ⟨tokens, ha⟩ := ha
  obtain ⟨s, hrun, hs⟩ := @run_simple ⟨.blank, tokens⟩ false b .blank hb.1
  rw [hb.2] at hs
  refine ⟨s.close, ?_⟩
  rw [run_append, run_append, ha, Option.bind_some, hrun, Option.bind_some, run_cons,
    step_separator hs (Or.inl rfl)]
  rfl

lemma Trailer.cases {text : List Char} (htext : Trailer text) :
    text = [] ∨ ∃ rest, text = ' ' :: rest := by
  rcases htext with rfl | ⟨line, rfl, -⟩
  · exact Or.inl rfl
  · exact Or.inr ⟨line ++ ['\n'], rfl⟩

/-- What follows a value outside of quotations is read as from the start. -/
lemma lexFrom_settled {text : List Char} (hs : s.mode.Settled)
    (htext : text = [] ∨ ∃ rest, text = ' ' :: rest) :
    lexFrom s text = (lex text).map (s.close ++ ·) := by
  rcases htext with rfl | ⟨rest, rfl⟩
  · have hnil : lex [] = some [] := rfl
    have hfrom : lexFrom s [] = s.finish := rfl
    rw [hnil, hfrom, finish_of_settled hs, Option.map_some, List.append_nil]
  · have hfrom : lexFrom s (' ' :: rest) = lexFrom ⟨.blank, s.close⟩ rest := by
      rw [lexFrom, run_cons, step_separator hs (Or.inl rfl)]
      rfl
    have hlex : lex (' ' :: rest) = lex rest := rfl
    rw [hfrom, hlex, lexFrom_blank]

/-- A trailer has tokens. -/
lemma lex_trailer {text : List Char} (htext : Trailer text) : ∃ tokens, lex text = some tokens := by
  rcases htext with rfl | ⟨line, rfl, hline⟩
  · exact ⟨[], rfl⟩
  · obtain ⟨s, hrun, hs⟩ := @run_simple ⟨.blank, []⟩ false (' ' :: line) .blank hline.1
    rw [endsQuoted, if_neg (by decide), hline.2] at hs
    rw [lex, lexFrom_append, hrun, Option.bind_some, lexFrom, run_cons,
      step_separator hs (Or.inr rfl)]
    exact ⟨_, rfl⟩

/-! ### A value that does not end between words -/

lemma lexFrom_weight (f : Char → Nat) {text : List Char} (h : lexFrom s text = some tokens) :
    tokensWeight f tokens ≤ s.weight f + weight f text := by
  obtain ⟨s', hrun, hfinish⟩ := Option.bind_eq_some_iff.mp h
  have hclose : s'.close = tokens := by
    unfold State.finish at hfinish
    split at hfinish
    all_goals first
      | exact Option.some_inj.mp hfinish
      | exact absurd hfinish.symm (Option.some_ne_none _)
  have hlast := tokensWeight_close_le f s'
  have hall := run_weight f hrun
  rw [hclose] at hlast
  omega

lemma run_comment {text : List Char} (htext : text.all simpleChar = true) :
    run ⟨.comment, tokens⟩ text = some ⟨.comment, tokens⟩ := by
  induction text with
  | nil => rfl
  | cons c text ih =>
    simp only [List.all_cons, Bool.and_eq_true] at htext
    have hne : c ≠ '\n' := fun heq => by
      rw [heq] at htext
      exact absurd htext.1 (by decide)
    rw [run_cons, step, if_neg hne, Option.bind_some, ih htext.2]

/-- A comment ends with the line. -/
lemma lexFrom_comment (f : Char → Nat) {tokens tokens' : List Token} {text : List Char}
    (htext : Trailer text) (h : lexFrom ⟨.comment, tokens⟩ text = some tokens') :
    tokensWeight f tokens' = tokensWeight f tokens := by
  rcases htext with rfl | ⟨line, rfl, hline⟩
  · cases h
    rfl
  · have hrun := @run_comment tokens (' ' :: line) hline.1
    rw [lexFrom_append, hrun, Option.bind_some] at h
    cases h
    exact tokensWeight_append f tokens _

lemma lexFrom_single {word text : List Char} (htext : Trailer text) :
    lexFrom ⟨.single word, tokens⟩ text = none := by
  rcases htext with rfl | ⟨line, rfl, hline⟩
  · rfl
  · obtain ⟨⟨mode, tokens'⟩, hrun, hs⟩ :=
      @run_simple ⟨.single word, tokens⟩ true (' ' :: line) ⟨word, rfl⟩ hline.1
    have hquoted : endsQuoted true (' ' :: line) = true := by
      rw [endsQuoted, if_neg (by decide), ← Bool.not_false, endsQuoted_not, hline.2]
    rw [hquoted] at hs
    obtain ⟨word', rfl⟩ := hs
    rw [lexFrom_append, hrun, Option.bind_some]
    rfl

lemma step_double {word : List Char} (hc : simpleChar c = true ∨ c = '\n') :
    step ⟨.double word, tokens⟩ c = some ⟨.double (word ++ [c]), tokens⟩ := by
  have hclass : classify c ≠ .double ∧ classify c ≠ .backslash ∧ classify c ≠ .expansion := by
    rcases hc with hc | rfl
    · unfold simpleChar at hc
      split at hc <;> simp_all
    · decide
  unfold step inDouble
  cases hclassify : classify c <;> simp_all

lemma lexFrom_double {word text : List Char} (htext : ∀ c ∈ text, simpleChar c = true ∨ c = '\n') :
    lexFrom ⟨.double word, tokens⟩ text = none := by
  induction text generalizing word with
  | nil => rfl
  | cons c text ih =>
    rw [lexFrom, run_cons, step_double (htext c List.mem_cons_self)]
    exact ih fun c hc => htext c (List.mem_cons_of_mem _ hc)

lemma lexFrom_doubleEscape {word text : List Char}
    (htext : ∀ c ∈ text, simpleChar c = true ∨ c = '\n') :
    lexFrom ⟨.doubleEscape word, tokens⟩ text = none := by
  rcases text with _ | ⟨c, text⟩
  · rfl
  · exact lexFrom_double fun c hc => htext c (List.mem_cons_of_mem _ hc)

lemma part_escape {word word' : Option (List Char)} (h : part word c = some mode)
    (hmode : mode = .escape word') : c = '\\' := by
  subst hmode
  unfold part at h
  split at h
  case h_3 hclass => exact eq_backslash_of_classify hclass
  all_goals exact absurd h (by simp)

lemma start_escape (h : start tokens c = some s) (hmode : s.mode = .escape word) : c = '\\' := by
  unfold start at h
  split at h
  case h_5 =>
    obtain ⟨mode, hpart, rfl⟩ := Option.map_eq_some_iff.mp h
    exact part_escape hpart hmode
  all_goals
    cases h
    cases hmode

/-- Only a backslash that is lost leads to the mode after it. -/
lemma step_escape (f : Char → Nat) {s s' : State} (h : step s c = some s')
    (hmode : s'.mode = .escape word) : c = '\\' ∧ s'.weight f ≤ s.weight f := by
  have hstart : start s.close c = some s' → c = '\\' ∧ s'.weight f ≤ s.weight f := by
    intro hstart
    have hc := start_escape hstart hmode
    have hle := tokensWeight_close_le f s
    rw [← start_special_weight f (Or.inl (by rw [hc]; rfl)) hstart] at hle
    exact ⟨hc, hle⟩
  rcases s with ⟨mode, tokens⟩
  cases mode with
  | blank => exact hstart h
  | comment =>
    simp only [step] at h
    split_ifs at h
    · exact hstart h
    · cases h
      cases hmode
  | operator text =>
    simp only [step] at h
    split_ifs at h
    · cases h
      cases hmode
    · exact hstart h
  | word text =>
    have hc : c = '\\' := by
      simp only [step, inWord] at h
      split at h
      case h_4 =>
        obtain ⟨mode, hpart, rfl⟩ := Option.map_eq_some_iff.mp h
        exact part_escape hpart hmode
      all_goals exact (hstart h).1
    exact ⟨hc, Nat.le_of_eq (step_special_weight f (by rw [hc]; rfl) h)⟩
  | single text =>
    cases h
    split_ifs at hmode
  | double text =>
    obtain ⟨mode, hdouble, rfl⟩ := Option.map_eq_some_iff.mp h
    unfold inDouble at hdouble
    split at hdouble
    case h_3 => exact absurd hdouble.symm (Option.some_ne_none _)
    all_goals
      cases hdouble
      cases hmode
  | escape word' =>
    cases h
    split_ifs at hmode
    cases word' <;> exact absurd hmode (by simp)
  | doubleEscape text =>
    cases h
    cases hmode

/-- A value that ends with a backslash that is lost. -/
lemma run_escape (f : Char → Nat) (h : run ⟨.blank, tokens⟩ value = some s)
    (hmode : s.mode = .escape word) :
    s.weight f + f '\\' ≤ tokensWeight f tokens + weight f value := by
  rcases List.eq_nil_or_concat value with rfl | ⟨front, c, rfl⟩
  · cases h
    cases hmode
  · rw [List.concat_eq_append, run_append] at h
    obtain ⟨s₁, hfront, hlast⟩ := Option.bind_eq_some_iff.mp h
    obtain ⟨s₂, hstep, hnil⟩ := Option.bind_eq_some_iff.mp hlast
    cases hnil
    obtain ⟨rfl, hle⟩ := step_escape f hstep hmode
    have hbefore : s₁.weight f ≤ tokensWeight f tokens + weight f front := run_weight f hfront
    simp only [List.concat_eq_append, weight_append, weight_cons, weight_nil]
    omega

lemma weight_backslash_of_simple {text : List Char} (h : text.all simpleChar = true) :
    weight (fun c => if c = '\\' then 1 else 0) text = 0 := by
  induction text with
  | nil => rfl
  | cons c text ih =>
    simp only [List.all_cons, Bool.and_eq_true] at h
    have hne : c ≠ '\\' := by
      rintro rfl
      exact absurd h.1 (by decide)
    rw [weight_cons, if_neg hne, ih h.2]

/-- There is no backslash after a value. -/
lemma Trailer.weight_backslash {text : List Char} (htext : Trailer text) :
    weight (fun c => if c = '\\' then 1 else 0) text = 0 := by
  rcases htext with rfl | ⟨line, rfl, hline⟩
  · rfl
  · rw [List.cons_append, weight_cons, weight_append, weight_backslash_of_simple hline.1]
    rfl

lemma Trailer.simple {text : List Char} (htext : Trailer text) :
    ∀ c ∈ text, simpleChar c = true ∨ c = '\n' := by
  intro c hc
  rcases htext with rfl | ⟨line, rfl, hline⟩
  · cases hc
  · rcases List.mem_append.mp hc with hc | hc
    · rcases List.mem_cons.mp hc with rfl | hc
      · exact Or.inl (by decide)
      · exact Or.inl (List.all_eq_true.mp hline.1 c hc)
    · exact Or.inr (List.mem_singleton.mp hc)

variable {text : List Char}

/-- If the tokens have the number and the weight that they would have with the value as one word,
the value is plain. -/
lemma plain_of_lexFrom {before after tokens : List Token} (htext : Trailer text)
    (hafter : lex text = some after) (h : lexFrom ⟨.blank, before⟩ (value ++ text) = some tokens)
    (hlength : tokens.length = before.length + 1 + after.length)
    (hweight : ∀ f, tokensWeight f tokens =
      tokensWeight f before + weight f value + tokensWeight f after) :
    Plain value := by
  by_contra hplain
  rw [lexFrom_append] at h
  obtain ⟨s, hrun, hlex⟩ := Option.bind_eq_some_iff.mp h
  by_cases hne : value = []
  · subst hne
    cases hrun
    rw [lexFrom_blank, hafter] at hlex
    cases hlex
    rw [List.length_append] at hlength
    omega
  have hlost := run_not_plain hne hplain hrun
  have hone := hweight fun _ => 1
  rcases s with ⟨mode, tokens'⟩
  cases hmode : mode with
  | blank | operator word | word word =>
    rw [lexFrom_settled (by rw [hmode]; constructor) htext.cases, hafter] at hlex
    cases hlex
    have hclose := tokensWeight_close_le (fun _ => 1) ⟨mode, tokens'⟩
    rw [tokensWeight_append] at hone
    omega
  | comment =>
    subst hmode
    have hsame : tokensWeight (fun _ => 1) tokens = State.weight (fun _ => 1) ⟨.comment, tokens'⟩ :=
      lexFrom_comment (fun _ => 1) htext hlex
    omega
  | single word =>
    subst hmode
    rw [lexFrom_single htext] at hlex
    cases hlex
  | double word =>
    subst hmode
    rw [lexFrom_double htext.simple] at hlex
    cases hlex
  | doubleEscape word =>
    subst hmode
    rw [lexFrom_doubleEscape htext.simple] at hlex
    cases hlex
  | escape word =>
    have hbackslash := run_escape (fun c => if c = '\\' then 1 else 0) hrun hmode
    have hle := lexFrom_weight (fun c => if c = '\\' then 1 else 0) hlex
    have hall := hweight fun c => if c = '\\' then 1 else 0
    rw [htext.weight_backslash] at hle
    simp only [if_true] at hbackslash
    omega

/-! ### Values in a command -/

/-- The tokens with a value printed into a text, everything else being fixed: the value, wrapped in
some text of its own, is in one word, and so is every alphanumeric value. -/
def SameCommand {V : Type*} (text : V → List Char) (wrap : List Char → List Char)
    (parse : V → Option (List Token)) (value : V) : Prop :=
  ∃ before after, ∀ x, Alphanumeric (text x) ∨ x = value →
    parse x = some (before ++ .word (wrap (text x)) :: after)

lemma classify_of_isAlphanum (h : c.isAlphanum = true) : classify c = .ordinary := by
  have hne : ∀ d, d.isAlphanum = false → c ≠ d := by
    rintro d hd rfl
    exact Bool.false_ne_true (hd.symm.trans h)
  simp only [classify, hne ' ' rfl, hne '\t' rfl, hne '\n' rfl, hne '|' rfl, hne '&' rfl,
    hne ';' rfl, hne '<' rfl, hne '>' rfl, hne '(' rfl, hne ')' rfl, hne '#' rfl, hne '\'' rfl,
    hne '"' rfl, hne '\\' rfl, hne '$' rfl, hne (Char.ofNat 96) rfl, or_self, if_false]

lemma Alphanumeric.plain (h : Alphanumeric value) : Plain value := by
  have hordinary : ∀ c ∈ value, classify c = .ordinary := fun c hc =>
    classify_of_isAlphanum (List.all_eq_true.mp h.2 c hc)
  refine ⟨h.1, fun hhead => ?_, ?_⟩
  · exact absurd (hordinary '#' (List.mem_of_head? hhead)) (by decide)
  · refine List.all_eq_true.mpr fun c hc => ?_
    simp only [special, hordinary c hc]
    rfl

variable {before after : List Token}

lemma lexFrom_plain (hvalue : Plain value) (htext : Trailer text) (hafter : lex text = some after) :
    lexFrom ⟨.blank, before⟩ (value ++ text) = some (before ++ .word value :: after) := by
  rw [lexFrom_append, run_plain hvalue, Option.bind_some, lexFrom_settled (.word _) htext.cases,
    hafter]
  simp [State.close]

/-- A text without single quotes is one word between them. -/
lemma lexFrom_quoted {text rest : List Char} (htext : ∀ c ∈ text, c ≠ '\'')
    (hafter : lex (' ' :: rest) = some after) :
    lexFrom ⟨.blank, before⟩ ('\'' :: text ++ '\'' :: ' ' :: rest) =
      some (before ++ .word text :: after) := by
  have hrun : ∀ word, run ⟨.single word, before⟩ text = some ⟨.single (word ++ text), before⟩ := by
    induction text with
    | nil => simp [run]
    | cons c text ih =>
      intro word
      have hstep : step ⟨.single word, before⟩ c = some ⟨.single (word ++ [c]), before⟩ := by
        simp [step, htext c List.mem_cons_self]
      rw [run_cons, hstep, Option.bind_some, ih fun c hc => htext c (List.mem_cons_of_mem _ hc)]
      simp
  have hopen : run ⟨.blank, before⟩ ('\'' :: text) = some ⟨.single text, before⟩ := hrun []
  rw [lexFrom_append, hopen, Option.bind_some]
  change lexFrom ⟨.word text, before⟩ (' ' :: rest) = _
  rw [lexFrom_settled (.word _) (Or.inr ⟨rest, rfl⟩), hafter]
  simp [State.close]

/-- Between a text that is ready and a trailer, exactly the plain values are in one word. -/
theorem sameCommand_iff {V : Type*} {text : V → List Char} {parse : V → Option (List Token)}
    {front back : List Char} (hparse : ∀ x, parse x = lex (front ++ text x ++ back))
    (hfront : Ready front) (hback : Trailer back) {letters : V}
    (hletters : Alphanumeric (text letters)) (value : V) :
    SameCommand text id parse value ↔ Plain (text value) := by
  obtain ⟨tokens, hfront⟩ := hfront
  obtain ⟨rest, hrest⟩ := lex_trailer hback
  have hread : ∀ x, parse x = lexFrom ⟨.blank, tokens⟩ (text x ++ back) := by
    intro x
    rw [hparse, List.append_assoc, lex, lexFrom_append, hfront, Option.bind_some]
  constructor
  · rintro ⟨before, after, hall⟩
    have hone := hall letters (Or.inl hletters)
    rw [hread, lexFrom_plain hletters.plain hback hrest] at hone
    have hvalue := hall value (Or.inr rfl)
    rw [hread] at hvalue
    have htokens := Option.some_inj.mp hone
    apply plain_of_lexFrom hback hrest hvalue
    · have hlength := congrArg List.length htokens
      simp only [List.length_append, List.length_cons] at hlength ⊢
      omega
    · intro f
      have hweight := congrArg (tokensWeight f) htokens
      simp only [tokensWeight_append, tokensWeight_word_cons, id_eq] at hweight ⊢
      omega
  · intro hplain
    refine ⟨tokens, rest, fun x hx => ?_⟩
    rw [hread]
    rcases hx with hx | rfl
    · exact lexFrom_plain hx.plain hback hrest
    · exact lexFrom_plain hplain hback hrest

end PiksiBuildroot.Lib.ShellLex
