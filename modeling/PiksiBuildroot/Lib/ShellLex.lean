import Mathlib.Tactic.SplitIfs

/-!
# Tokens of the shell

The shell reads its text a character at a time: blanks, operators and newlines separate words, a
hash mark starts a comment between words, and quotes and backslashes take what follows literally.
`lex` is the list of tokens; there is none for a text that ends inside a quotation, or that has an
expansion (a dollar sign or a backquote), since what is executed is then not fixed by the text.
The characters `*`, `?`, `[` and `~` are ordinary here: pathname and tilde expansion come after the
text is divided into words and are not part of it.
-/

namespace PiksiBuildroot.Lib.ShellLex

open List Option

/-- What a character means outside of quotations. -/
inductive Class where
  | blank
  | newline
  | operator
  | hash
  | single
  | double
  | backslash
  | expansion
  | ordinary
  deriving DecidableEq

def classify (c : Char) : Class := if c = ' ' ∨ c = '\t' then .blank
  else if c = '\n' then .newline
  else if c = '|' ∨ c = '&' ∨ c = ';' ∨ c = '<' ∨ c = '>' ∨ c = '(' ∨ c = ')' then .operator
  else if c = '#' then .hash
  else if c = '\'' then .single
  else if c = '"' then .double
  else if c = '\\' then .backslash
  else if c = '$' ∨ c = Char.ofNat 96 then .expansion
  else .ordinary

variable {c : Char}

lemma eq_backslash_of_classify (h : classify c = .backslash) : c = '\\' := by
  unfold classify at h
  split_ifs at h
  assumption

lemma eq_single_of_classify (h : classify c = .single) : c = '\'' := by
  unfold classify at h
  split_ifs at h
  assumption

lemma eq_hash_of_classify (h : classify c = .hash) : c = '#' := by
  unfold classify at h
  split_ifs at h
  assumption

/-- The operators of more than one character. -/
def operators : List (List Char) :=
  ["&&", "||", ";;", "<<", ">>", "<&", ">&", "<>", "<<-", ">|"].map String.toList

variable {text : List Char}

lemma last_of_operator (h : operators.contains (text ++ [c]) = true) :
    classify c = .operator ∨ c = '-' := by
  have hlast : operators.all (fun operator =>
      operator.getLast?.all fun c => classify c == .operator || c == '-') = true := by decide
  have hc := List.all_eq_true.mp hlast _ (List.contains_iff_mem.mp h)
  simpa using hc

inductive Token where
  | word (text : List Char)
  | operator (text : List Char)
  deriving DecidableEq

/-- Where the reader is, with the text of the token it is in. A backslash may come before the first
character of a word. -/
inductive Mode where
  | blank
  | comment
  | operator (text : List Char)
  | word (text : List Char)
  | single (text : List Char)
  | double (text : List Char)
  | escape (word : Option (List Char))
  | doubleEscape (text : List Char)
  deriving DecidableEq

structure State where
  mode : Mode
  tokens : List Token
  deriving DecidableEq

/-- The tokens when a word or an operator ends here. -/
def State.close (s : State) : List Token := match s.mode with
  | .word text => s.tokens ++ [.word text]
  | .operator text => s.tokens ++ [.operator text]
  | _ => s.tokens

/-- A character that is part of a word. -/
def part (word : Option (List Char)) (c : Char) : Option Mode := match classify c with
  | .single => some (.single (word.getD []))
  | .double => some (.double (word.getD []))
  | .backslash => some (.escape word)
  | .expansion => none
  | _ => some (.word (word.getD [] ++ [c]))

/-- A character between tokens. -/
def start (tokens : List Token) (c : Char) : Option State := match classify c with
  | .blank => some ⟨.blank, tokens⟩
  | .newline => some ⟨.blank, tokens ++ [.operator ['\n']]⟩
  | .operator => some ⟨.operator [c], tokens⟩
  | .hash => some ⟨.comment, tokens⟩
  | _ => (part none c).map fun mode => ⟨mode, tokens⟩

/-- A character of a word, or the one after it. -/
def inWord (s : State) (text : List Char) (c : Char) : Option State := match classify c with
  | .blank | .newline | .operator => start s.close c
  | _ => (part (some text) c).map fun mode => { s with mode := mode }

/-- A character between double quotes. -/
def inDouble (text : List Char) (c : Char) : Option Mode := match classify c with
  | .double => some (.word text)
  | .backslash => some (.doubleEscape text)
  | .expansion => none
  | _ => some (.double (text ++ [c]))

/-- The text with what a backslash between double quotes and the character after it stand for. -/
def unescapeDouble (text : List Char) (c : Char) : List Char := match classify c with
  | .newline => text
  | .double | .backslash | .expansion => text ++ [c]
  | _ => text ++ ['\\', c]

def step (s : State) (c : Char) : Option State := match s.mode with
  | .blank => start s.tokens c
  | .comment => if c = '\n' then start s.tokens c else some s
  | .operator text =>
    if operators.contains (text ++ [c]) then
      some { s with mode := .operator (text ++ [c]) }
    else start s.close c
  | .word text => inWord s text c
  | .single text => some { s with mode := if c = '\'' then .word text else .single (text ++ [c]) }
  | .double text => (inDouble text c).map fun mode => { s with mode := mode }
  | .escape word =>
    some { s with
      mode := if c = '\n' then word.elim .blank .word else .word (word.getD [] ++ [c]) }
  | .doubleEscape text => some { s with mode := .double (unescapeDouble text c) }

/-- The tokens at the end of the text. -/
def State.finish (s : State) : Option (List Token) := match s.mode with
  | .blank | .comment | .operator _ | .word _ => some s.close
  | _ => none

def run (s : State) (text : List Char) : Option State := text.foldlM step s

/-- The tokens of a text that follows what has been read. -/
def lexFrom (s : State) (text : List Char) : Option (List Token) := (run s text).bind State.finish

def lex (text : List Char) : Option (List Token) := lexFrom ⟨.blank, []⟩ text

example : lex "echo 'a b'\\ c >>f # d".toList =
    some [.word "echo".toList, .word "a b c".toList, .operator ">>".toList, .word "f".toList] := by
  decide +kernel

lemma run_append (s : State) (a b : List Char) :
    run s (a ++ b) = (run s a).bind fun s' => run s' b :=
  foldlM_append

lemma lexFrom_append (s : State) (a b : List Char) :
    lexFrom s (a ++ b) = (run s a).bind fun s' => lexFrom s' b := by
  unfold lexFrom
  rw [run_append, bind_assoc]

lemma run_cons (s : State) (c : Char) (text : List Char) :
    run s (c :: text) = (step s c).bind fun s' => run s' text :=
  foldlM_cons

/-! ### Earlier tokens do not matter -/

/-- Put tokens before those of a state. -/
def State.after (tokens : List Token) (s : State) : State := { s with tokens := tokens ++ s.tokens }

lemma close_after (tokens : List Token) (s : State) :
    (s.after tokens).close = tokens ++ s.close := by
  unfold State.close State.after
  cases s.mode <;> simp

lemma start_after (tokens tokens' : List Token) (c : Char) :
    start (tokens ++ tokens') c = (start tokens' c).map (State.after tokens) := by
  unfold start State.after
  cases classify c <;> simp [Function.comp_def]

/-- A step does not depend on the tokens already found. -/
lemma step_after (tokens : List Token) (s : State) (c : Char) :
    step (s.after tokens) c = (step s c).map (State.after tokens) := by
  rcases s with ⟨mode, tokens'⟩
  cases mode with
  | blank => exact start_after tokens tokens' c
  | comment =>
    simp only [step, State.after]
    split_ifs
    · exact start_after tokens tokens' c
    · rfl
  | operator text =>
    simp only [step]
    change (if _ then _ else start (State.after tokens _).close c) = _
    rw [close_after, start_after]
    split_ifs <;> rfl
  | word text =>
    change inWord (State.after tokens _) text c = (inWord _ text c).map _
    unfold inWord
    rw [close_after, start_after]
    cases classify c <;> simp [State.after, Function.comp_def]
  | double text => simp [step, State.after, Function.comp_def]
  | single text | escape word | doubleEscape text => rfl

theorem run_after (tokens : List Token) (s : State) (text : List Char) :
    run (s.after tokens) text = (run s text).map (State.after tokens) := by
  induction text generalizing s with
  | nil => rfl
  | cons c text ih =>
    rw [run_cons, run_cons, step_after]
    cases step s c with
    | none => rfl
    | some s' => exact ih s'

lemma finish_after (tokens : List Token) (s : State) :
    (s.after tokens).finish = s.finish.map (tokens ++ ·) := by
  have hclose := close_after tokens s
  rcases s with ⟨mode, tokens'⟩
  cases mode <;> first | rfl | exact congrArg some hclose

/-- What follows a blank is read as from the start. -/
lemma lexFrom_blank (tokens : List Token) (text : List Char) :
    lexFrom ⟨.blank, tokens⟩ text = (lex text).map (tokens ++ ·) := by
  have hstate : (⟨.blank, tokens⟩ : State) = State.after tokens ⟨.blank, []⟩ := by
    simp [State.after]
  unfold lex lexFrom
  rw [hstate, run_after]
  cases run ⟨.blank, []⟩ text with
  | none => rfl
  | some s => exact finish_after tokens s

/-! ### The weight of the words

A weight is given to each character. What is read so far weighs the words and the word begun, with
the backslash that a quotation may still give back. -/

section weight

variable (f : Char → Nat)

def weight : List Char → Nat
  | [] => 0
  | c :: text => f c + weight text

def tokenWeight : Token → Nat
  | .word text => weight f text
  | .operator _ => 0

def tokensWeight : List Token → Nat
  | [] => 0
  | token :: tokens => tokenWeight f token + tokensWeight tokens

def modeWeight : Mode → Nat
  | .blank | .comment | .operator _ => 0
  | .word text | .single text | .double text => weight f text
  | .escape word => weight f (word.getD [])
  | .doubleEscape text => weight f text + f '\\'

def State.weight (s : State) : Nat := tokensWeight f s.tokens + modeWeight f s.mode

@[simp] lemma weight_nil : weight f [] = 0 := rfl

@[simp] lemma weight_cons (c : Char) (text : List Char) :
    weight f (c :: text) = f c + weight f text := rfl

@[simp] lemma weight_append (a b : List Char) : weight f (a ++ b) = weight f a + weight f b := by
  induction a with
  | nil => exact (Nat.zero_add _).symm
  | cons c a ih => rw [cons_append, weight_cons, weight_cons, ih, Nat.add_assoc]

@[simp] lemma tokensWeight_append (a b : List Token) :
    tokensWeight f (a ++ b) = tokensWeight f a + tokensWeight f b := by
  induction a with
  | nil => exact (Nat.zero_add _).symm
  | cons token a ih => rw [cons_append, tokensWeight, tokensWeight, ih, Nat.add_assoc]

@[simp] lemma tokensWeight_nil : tokensWeight f [] = 0 := rfl

@[simp] lemma tokensWeight_word_cons (text : List Char) (tokens : List Token) :
    tokensWeight f (.word text :: tokens) = weight f text + tokensWeight f tokens := rfl

@[simp] lemma tokensWeight_operator_cons (text : List Char) (tokens : List Token) :
    tokensWeight f (.operator text :: tokens) = tokensWeight f tokens :=
  Nat.zero_add _

/-- Ending a token keeps the weight. -/
lemma tokensWeight_close_le (s : State) : tokensWeight f s.close ≤ s.weight f := by
  unfold State.close State.weight
  cases s.mode <;> simp [modeWeight]

variable {mode : Mode} {s s' : State}

lemma part_weight {word : Option (List Char)} (h : part word c = some mode) :
    modeWeight f mode ≤ weight f (word.getD []) + f c := by
  unfold part at h
  split at h <;> simp only [some.injEq, reduceCtorEq] at h <;> subst h <;>
    simp [modeWeight]

lemma inDouble_weight (h : inDouble text c = some mode) :
    modeWeight f mode ≤ weight f text + f c := by
  unfold inDouble at h
  split at h
  next =>
    cases h
    exact Nat.le_add_right _ _
  next hclass =>
    cases h
    rw [eq_backslash_of_classify hclass]
    exact Nat.le_refl _
  next => exact absurd h.symm (some_ne_none _)
  next =>
    cases h
    simp [modeWeight]

lemma start_weight {tokens : List Token} {s : State} (h : start tokens c = some s) :
    s.weight f ≤ tokensWeight f tokens + f c := by
  unfold start at h
  split at h
  case h_5 =>
    obtain ⟨mode, hpart, rfl⟩ := map_eq_some_iff.mp h
    have hle := part_weight f hpart
    simp only [State.weight]
    simp only [getD_none, weight_nil] at hle
    omega
  all_goals
    cases h
    simp [State.weight, modeWeight]

/-- A character adds at most its own weight. -/
lemma step_weight (h : step s c = some s') : s'.weight f ≤ s.weight f + f c := by
  have hclose := tokensWeight_close_le f s
  have hstart : start s.close c = some s' → s'.weight f ≤ s.weight f + f c := by
    intro hstart
    have hle := start_weight f hstart
    omega
  rcases s with ⟨mode, tokens⟩
  cases mode with
  | blank => exact hstart h
  | comment =>
    simp only [step] at h
    split_ifs at h
    · exact hstart h
    · cases h
      exact Nat.le_add_right _ _
  | operator text =>
    simp only [step] at h
    split_ifs at h
    · cases h
      exact Nat.le_add_right _ _
    · exact hstart h
  | word text =>
    simp only [step, inWord] at h
    split at h
    case h_4 =>
      obtain ⟨mode, hpart, rfl⟩ := map_eq_some_iff.mp h
      have hle := part_weight f hpart
      simp only [State.weight, modeWeight, getD_some] at hle ⊢
      omega
    all_goals exact hstart h
  | single text =>
    simp only [step, some.injEq] at h
    subst h
    split_ifs <;> simp [State.weight, modeWeight, Nat.add_assoc]
  | double text =>
    obtain ⟨mode, hmode, rfl⟩ := map_eq_some_iff.mp h
    have hle := inDouble_weight f hmode
    simp only [State.weight, modeWeight] at hle ⊢
    omega
  | escape word =>
    simp only [step, some.injEq] at h
    subst h
    split_ifs
    · cases word <;> simp [State.weight, modeWeight]
    · simp [State.weight, modeWeight, Nat.add_assoc]
  | doubleEscape text =>
    simp only [step, some.injEq] at h
    subst h
    simp only [State.weight, modeWeight, unescapeDouble]
    split <;> simp <;> omega

theorem run_weight (h : run s text = some s') : s'.weight f ≤ s.weight f + weight f text := by
  induction text generalizing s with
  | nil =>
    obtain rfl := some_inj.mp h
    exact Nat.le_add_right _ _
  | cons c text ih =>
    obtain ⟨s₁, hstep, hrun⟩ := bind_eq_some_iff.mp h
    have hfirst := step_weight f hstep
    have hrest := ih hrun
    rw [weight_cons]
    omega

end weight

end PiksiBuildroot.Lib.ShellLex
