import Mathlib.Data.List.GetD
import Mathlib.Data.List.TakeWhile
import PiksiBuildroot.Lib.Lines
import PiksiBuildroot.Lib.Loop

/-!
# Lines of a text that comes in pieces

`foreach_line` calls a function with every line of a text. A line that is not yet terminated is kept
in a leftover for the next call. Whether the last line is terminated is decided by counting: its
length and the lengths of the lines before it, with one newline each, have to be the length of the
text. `strtok_r` skips blank lines without their being counted. So with a blank line in front of it,
an unterminated line is taken for a terminated one (`foreachLine_eq`, `feed_exact_iff`). The texts
are C strings, without a zero character.
-/

namespace PiksiBuildroot.ResourceMonitor

open Lib List Option

/-- Source: `leftover_t`. -/
structure Leftover where
  buf : List Char
  size : Nat
  lineCount : Nat
  deriving DecidableEq, Repr

/-- What `strncat` takes from the leftover. -/
def Leftover.content (leftover : Leftover) : List Char := leftover.buf.take leftover.size

/-- The local variables of the loop: the text in front of and behind `line_ctx`, the two counters,
and the lines that were given to the function. -/
structure LineLoop where
  done : List Char
  rest : List Char
  consumed : Nat
  lineCount : Nat
  delivered : List (List Char)
  deriving DecidableEq, Repr

/-- The next line, and the text in front of and behind `line_ctx` then. The newline behind a line is
overwritten. Source: `strtok_r` with the delimiter newline. -/
def strtokR (done rest : List Char) : Option (List Char × List Char × List Char) :=
  match rest.dropWhile (· = '\n') with
  | [] => none
  | text =>
    let front := done ++ rest.takeWhile (· = '\n') ++ text.takeWhile (· ≠ '\n')
    match text.dropWhile (· ≠ '\n') with
    | [] => some (text.takeWhile (· ≠ '\n'), front, [])
    | _ :: rest => some (text.takeWhile (· ≠ '\n'), front ++ ['\x00'], rest)

/-- The counters and the lines when the loop ends, and the line that is to be kept. -/
structure LineExit where
  consumed : Nat
  lineCount : Nat
  delivered : List (List Char)
  kept : Option (List Char)
  deriving DecidableEq, Repr

/-- A round of the loop. Source: `foreach_line`. -/
def lineRound (lineFn : List Char → Bool) (totalLen : Nat) (s : LineLoop) :
    Option (LineLoop ⊕ LineExit) :=
  match strtokR s.done s.rest with
  | none => some (.inr ⟨s.consumed, s.lineCount, s.delivered, none⟩)
  | some (line, done, rest) =>
    if s.consumed + line.length = totalLen ∧ (done ++ rest).getD (totalLen - 1) '\x00' ≠ '\n' then
      some (.inr ⟨s.consumed + line.length, s.lineCount, s.delivered, some line⟩)
    else if lineFn line then
      some (.inl
        ⟨done, rest, s.consumed + line.length + 1, s.lineCount + 1, s.delivered ++ [line]⟩)
    else
      some (.inr ⟨s.consumed + line.length + 1, s.lineCount + 1, s.delivered ++ [line], none⟩)

/-- What a call returns, leaves in the leftover and has given to the function. -/
structure LinesResult where
  ret : Int
  leftover : Option Leftover
  delivered : List (List Char)
  deriving DecidableEq, Repr

/-- The end of the call. Source: `foreach_line`, behind the loop and at its early exits. -/
def finishLines (leftover : Option Leftover) (exit : LineExit) : LinesResult :=
  match leftover, exit.kept with
  | none, none => ⟨exit.consumed, none, exit.delivered⟩
  | none, some _ => ⟨-1, none, exit.delivered⟩
  | some leftover, none =>
    ⟨exit.consumed, some ⟨leftover.buf, 0, exit.lineCount⟩, exit.delivered⟩
  | some _, some line =>
    ⟨exit.consumed, some ⟨line, line.length, exit.lineCount⟩, exit.delivered⟩

/-- Source: `foreach_line`. Every round but the last takes a line from the text. -/
def foreachLine (linesRo : List Char) (leftover : Option Leftover) (lineFn : List Char → Bool) :
    Option LinesResult :=
  let lines := (leftover.elim [] Leftover.content) ++ linesRo
  (loop (lineRound lineFn lines.length) (lines.length + 1) ⟨[], lines, 0, 0, []⟩).map
    (finishLines leftover)

/-! ### One call -/

/-- The lines of a text that are not blank. -/
def fullLines (text : List Char) : List (List Char) := (terminated '\n' text).filter (· ≠ [])

/-- An unterminated line with a blank one before it, in the text or among `blanks` earlier ones. -/
def EarlyAfter (blanks : Nat) (text : List Char) : Prop :=
  (0 < blanks ∨ [] ∈ terminated '\n' text) ∧ unterminated '\n' text ≠ []

instance (blanks : Nat) (text : List Char) : Decidable (EarlyAfter blanks text) :=
  inferInstanceAs (Decidable (_ ∧ _))

/-- The text ends in an unterminated line that is taken for a terminated one. -/
abbrev Early (text : List Char) : Prop := EarlyAfter 0 text

/-- The unterminated line, if it is taken for a terminated one. -/
def earlyLine (blanks : Nat) (text : List Char) : List (List Char) :=
  if EarlyAfter blanks text then [unterminated '\n' text] else []

/-- The unterminated line, if it is kept. -/
def keptLine (blanks : Nat) (text : List Char) : Option (List Char) :=
  if EarlyAfter blanks text ∨ unterminated '\n' text = [] then none
  else some (unterminated '\n' text)

variable {text : List Char}

lemma fullLines_of_notMem (h : '\n' ∉ text) : fullLines text = [] := by
  rw [fullLines, terminated_of_notMem h]
  rfl

lemma fullLines_newline (text : List Char) : fullLines ('\n' :: text) = fullLines text := by
  have hlines := @terminated_append_cons _ _ '\n' [] not_mem_nil text
  rw [nil_append] at hlines
  rw [fullLines, hlines, filter_cons_of_neg (by simp)]
  rfl

lemma fullLines_line {line : List Char} (h : '\n' ∉ line) (hne : line ≠ []) (text : List Char) :
    fullLines (line ++ '\n' :: text) = line :: fullLines text := by
  rw [fullLines, terminated_append_cons h, filter_cons_of_pos (by simpa using hne)]
  rfl

lemma earlyAfter_of_notMem (h : '\n' ∉ text) (blanks : Nat) :
    EarlyAfter blanks text ↔ 0 < blanks ∧ text ≠ [] := by
  rw [EarlyAfter, terminated_of_notMem h, unterminated_of_notMem h]
  simp

lemma earlyAfter_newline (blanks : Nat) (text : List Char) :
    EarlyAfter blanks ('\n' :: text) ↔ EarlyAfter (blanks + 1) text := by
  have hlines := @terminated_append_cons _ _ '\n' [] not_mem_nil text
  have hrest := @unterminated_append_cons _ _ '\n' [] not_mem_nil text
  rw [nil_append] at hlines hrest
  rw [EarlyAfter, EarlyAfter, hlines, hrest]
  simp

lemma earlyAfter_line {line : List Char} (h : '\n' ∉ line) (hne : line ≠ []) (blanks : Nat)
    (text : List Char) :
    EarlyAfter blanks (line ++ '\n' :: text) ↔ EarlyAfter blanks text := by
  rw [EarlyAfter, EarlyAfter, terminated_append_cons h, unterminated_append_cons h]
  simp [hne.symm]

lemma unterminated_newline (text : List Char) :
    unterminated '\n' ('\n' :: text) = unterminated '\n' text :=
  @unterminated_append_cons _ _ '\n' [] not_mem_nil text

lemma strtokR_nil (done : List Char) : strtokR done [] = none := rfl

lemma strtokR_newline (done rest : List Char) :
    strtokR done ('\n' :: rest) = strtokR (done ++ ['\n']) rest := by
  simp [strtokR]

lemma ne_newline_of_notMem {line : List Char} (h : '\n' ∉ line) :
    ∀ c ∈ line, decide (c ≠ '\n') = true :=
  fun _ hc => decide_eq_true fun hnewline => h (hnewline ▸ hc)

lemma dropWhile_newline {line : List Char} (h : '\n' ∉ line) (hne : line ≠ [])
    (rest : List Char) : (line ++ rest).dropWhile (· = '\n') = line ++ rest ∧
      (line ++ rest).takeWhile (· = '\n') = [] := by
  obtain ⟨c, cs, rfl⟩ := exists_cons_of_ne_nil hne
  have hc : c ≠ '\n' := fun hc => h (hc ▸ mem_cons_self)
  simp [hc]

/-- A terminated line. -/
lemma strtokR_line {line : List Char} (h : '\n' ∉ line) (hne : line ≠ [])
    (done rest : List Char) :
    strtokR done (line ++ '\n' :: rest) = some (line, done ++ line ++ ['\x00'], rest) := by
  obtain ⟨hdrop, htake⟩ := dropWhile_newline h hne ('\n' :: rest)
  have hall := ne_newline_of_notMem h
  unfold strtokR
  rw [hdrop, htake]
  obtain ⟨c, cs, rfl⟩ := exists_cons_of_ne_nil hne
  dsimp only [cons_append]
  rw [← cons_append, dropWhile_append_of_pos hall, takeWhile_append_of_pos hall]
  simp

/-- An unterminated line. -/
lemma strtokR_rest {line : List Char} (h : '\n' ∉ line) (hne : line ≠ []) (done : List Char) :
    strtokR done line = some (line, done ++ line, []) := by
  obtain ⟨hdrop, htake⟩ := dropWhile_newline h hne []
  rw [append_nil] at hdrop htake
  have hend : line.dropWhile (· ≠ '\n') = [] := dropWhile_eq_nil_iff.mpr (ne_newline_of_notMem h)
  have hline : line.takeWhile (· ≠ '\n') = line :=
    takeWhile_eq_self_iff.mpr (ne_newline_of_notMem h)
  unfold strtokR
  rw [hdrop, htake]
  obtain ⟨c, cs, rfl⟩ := exists_cons_of_ne_nil hne
  dsimp only
  rw [hend, hline, append_nil]

/-- The last character of an unterminated line is not a newline. -/
lemma getD_ne_newline {line : List Char} (h : '\n' ∉ line) (hne : line ≠ [])
    (done : List Char) :
    (done ++ line ++ []).getD (done.length + line.length - 1) '\x00' ≠ '\n' := by
  have hpos := length_pos_of_ne_nil hne
  rw [append_nil, getD_append_right _ _ _ _ (by omega), getD_eq_getElem _ _ (by omega)]
  exact fun hnewline => h (hnewline ▸ getElem_mem _)

/-- What the loop comes to from a state, with a function that always returns true. Newlines in
front of the rest that were not counted are `blanks`. -/
def Gives (totalLen fuel : Nat) (s : LineLoop) (blanks : Nat) : Prop :=
  ∃ exit, loop (lineRound (fun _ => true) totalLen) fuel s = some exit ∧
    exit.kept = keptLine blanks s.rest ∧
    exit.delivered = s.delivered ++ (fullLines s.rest ++ earlyLine blanks s.rest) ∧
    exit.lineCount = s.lineCount + (fullLines s.rest ++ earlyLine blanks s.rest).length

lemma gives_nil (totalLen fuel blanks : Nat) (done : List Char) (consumed lineCount : Nat)
    (delivered : List (List Char)) :
    Gives totalLen (fuel + 1) ⟨done, [], consumed, lineCount, delivered⟩ blanks := by
  have hlines : fullLines [] ++ earlyLine blanks [] = [] := by
    rw [fullLines_of_notMem not_mem_nil, earlyLine,
      if_neg fun hearly => ((earlyAfter_of_notMem not_mem_nil blanks).mp hearly).2 rfl]
    rfl
  have hkept : keptLine blanks [] = none := if_pos (Or.inr rfl)
  refine ⟨_, rfl, hkept.symm, ?_, ?_⟩
  · rw [hlines, append_nil]
  · rw [hlines]
    rfl

/-- An unterminated line is kept if every newline was counted, and else given to the function. -/
lemma gives_unterminated {totalLen fuel consumed blanks : Nat} {done line : List Char}
    (h : '\n' ∉ line) (hne : line ≠ []) (htotal : done.length + line.length = totalLen)
    (hblanks : consumed + blanks = done.length) (lineCount : Nat) (delivered : List (List Char)) :
    Gives totalLen (fuel + 2) ⟨done, line, consumed, lineCount, delivered⟩ blanks := by
  have hround := strtokR_rest h hne done
  have hearly := earlyAfter_of_notMem h blanks
  unfold Gives keptLine earlyLine
  rw [fullLines_of_notMem h, nil_append, unterminated_of_notMem h]
  by_cases hzero : blanks = 0
  · -- the count is the length of the text: the line is kept
    have hkept : ¬EarlyAfter blanks line := fun hearly' =>
      absurd (hearly.mp hearly').1 (by omega)
    have hend : consumed + line.length = totalLen ∧
        (done ++ line ++ []).getD (totalLen - 1) '\x00' ≠ '\n' :=
      ⟨by omega, htotal ▸ getD_ne_newline h hne done⟩
    rw [if_neg hkept, if_neg (not_or.mpr ⟨hkept, hne⟩)]
    refine ⟨⟨consumed + line.length, lineCount, delivered, some line⟩, ?_, rfl,
      (append_nil _).symm, rfl⟩
    simp only [loop, lineRound, hround, if_pos hend]
  · -- the count falls short by the skipped newlines, so the test for the last line fails
    have hgiven : EarlyAfter blanks line := hearly.mpr ⟨Nat.pos_of_ne_zero hzero, hne⟩
    have hend : ¬(consumed + line.length = totalLen ∧
        (done ++ line ++ []).getD (totalLen - 1) '\x00' ≠ '\n') := fun hend =>
      absurd hend.1 (by omega)
    rw [if_pos hgiven, if_pos (Or.inl hgiven)]
    refine ⟨⟨consumed + line.length + 1, lineCount + 1, delivered ++ [line], none⟩, ?_, rfl, rfl,
      rfl⟩
    simp only [loop, lineRound, hround, if_neg hend, if_true, strtokR_nil]

variable {totalLen fuel consumed blanks lineCount : Nat} {delivered : List (List Char)}

/-- A blank line: `strtok_r` skips it. -/
lemma Gives.blank {done text : List Char}
    (h : Gives totalLen fuel ⟨done ++ ['\n'], text, consumed, lineCount, delivered⟩ (blanks + 1)) :
    Gives totalLen fuel ⟨done, '\n' :: text, consumed, lineCount, delivered⟩ blanks := by
  have hround : lineRound (fun _ => true) totalLen
      ⟨done, '\n' :: text, consumed, lineCount, delivered⟩ = lineRound (fun _ => true) totalLen
          ⟨done ++ ['\n'], text, consumed, lineCount, delivered⟩ := by
    simp only [lineRound, strtokR_newline]
  obtain ⟨exit, hloop, hexit⟩ := h
  refine ⟨exit, ?_, ?_⟩
  · cases fuel with
    | zero => cases hloop
    | succ fuel =>
      rw [loop, hround]
      exact hloop
  · rw [fullLines_newline, earlyLine, keptLine, unterminated_newline]
    simp only [earlyAfter_newline]
    exact hexit

/-- A line that is counted with its newline. -/
lemma Gives.line {done line text : List Char} (hline : '\n' ∉ line) (hne : line ≠ [])
    (hlt : consumed + line.length < totalLen)
    (h : Gives totalLen fuel ⟨done ++ line ++ ['\x00'], text, consumed + line.length + 1,
      lineCount + 1, delivered ++ [line]⟩ blanks) :
    Gives totalLen (fuel + 1) ⟨done, line ++ '\n' :: text, consumed, lineCount, delivered⟩
      blanks := by
  have hend : ¬(consumed + line.length = totalLen ∧
      (done ++ line ++ ['\x00'] ++ text).getD (totalLen - 1) '\x00' ≠ '\n') := fun hend =>
    absurd hend.1 (Nat.ne_of_lt hlt)
  obtain ⟨exit, hloop, hkept, hdelivered, hcount⟩ := h
  unfold Gives keptLine earlyLine
  rw [fullLines_line hline hne, unterminated_append_cons hline]
  simp only [earlyAfter_line hline hne]
  refine ⟨exit, ?_, hkept, ?_, ?_⟩
  · simp only [loop, lineRound, strtokR_line hline hne, if_neg hend, if_true]
    exact hloop
  · rw [hdelivered, append_assoc]
    rfl
  · rw [hcount, cons_append, length_cons, Nat.add_right_comm, Nat.add_assoc]
    rfl

/-- By induction on the rest; `blanks` are the newlines not yet counted. -/
lemma lineRound_gives (totalLen : Nat) (rest : List Char) :
    ∀ (done : List Char) (consumed blanks lineCount : Nat) (delivered : List (List Char))
      (fuel : Nat), done.length + rest.length = totalLen → consumed + blanks = done.length →
      rest.length < fuel →
      Gives totalLen fuel ⟨done, rest, consumed, lineCount, delivered⟩ blanks := by
  induction rest using lines_induction '\n' with
  | rest line h =>
    intro done consumed blanks lineCount delivered fuel htotal hblanks hfuel
    by_cases hne : line = []
    · subst hne
      obtain ⟨fuel, rfl⟩ := Nat.exists_eq_add_one_of_ne_zero (Nat.ne_zero_of_lt hfuel)
      exact gives_nil _ _ _ _ _ _ _
    · have hpos := length_pos_of_ne_nil hne
      obtain ⟨fuel, rfl⟩ : ∃ n, fuel = n + 2 := ⟨fuel - 2, by omega⟩
      exact gives_unterminated h hne htotal hblanks lineCount delivered
  | line line text h ih =>
    intro done consumed blanks lineCount delivered fuel htotal hblanks hfuel
    rw [length_append, length_cons] at htotal hfuel
    by_cases hne : line = []
    · subst hne
      rw [length_nil] at htotal hfuel
      apply Gives.blank
      apply ih
      · rw [length_append, length_singleton]
        omega
      · rw [length_append, length_singleton]
        omega
      · omega
    · obtain ⟨fuel, rfl⟩ := Nat.exists_eq_add_one_of_ne_zero (Nat.ne_zero_of_lt hfuel)
      apply Gives.line h hne (by omega)
      apply ih
      · rw [length_append, length_append, length_singleton]
        omega
      · rw [length_append, length_append, length_singleton]
        omega
      · omega

/-- A call with a leftover: the lines of the leftover and the text are given to the function, with
an unterminated one behind a blank line among them, and only another unterminated one is kept. -/
theorem foreachLine_eq (linesRo : List Char) (leftover : Leftover) :
    ∃ r leftover', foreachLine linesRo (some leftover) (fun _ => true) = some r ∧
      r.leftover = some leftover' ∧
      r.delivered = fullLines (leftover.content ++ linesRo) ++
        earlyLine 0 (leftover.content ++ linesRo) ∧
      leftover'.content = (keptLine 0 (leftover.content ++ linesRo)).getD [] ∧
      leftover'.lineCount = r.delivered.length := by
  obtain ⟨exit, hloop, hkept, hdelivered, hcount⟩ :=
    lineRound_gives (leftover.content ++ linesRo).length (leftover.content ++ linesRo) [] 0 0 0 []
      ((leftover.content ++ linesRo).length + 1) (Nat.zero_add _) rfl (Nat.lt_succ_self _)
  rw [nil_append] at hdelivered
  rw [Nat.zero_add, ← hdelivered] at hcount
  have hcall : foreachLine linesRo (some leftover) (fun _ => true) =
      some (finishLines (some leftover) exit) := by
    simp only [foreachLine, elim_some, hloop, map_some]
  rw [← hkept, ← hdelivered, hcall]
  unfold finishLines
  cases exit.kept with
  | none => exact ⟨_, _, rfl, rfl, rfl, rfl, hcount⟩
  | some line => exact ⟨_, _, rfl, rfl, rfl, take_length, hcount⟩

/-! ### A text in pieces -/

/-- Successive calls with one leftover and a function that always returns true: the lines that were
given to it, and the leftover at the end. -/
def feed : List (List Char) → Leftover → Option (List (List Char) × Leftover)
  | [], leftover => some ([], leftover)
  | chunk :: chunks, leftover => do
    let r ← foreachLine chunk (some leftover) fun _ => true
    let (delivered, leftover) ← feed chunks (← r.leftover)
    return (r.delivered ++ delivered, leftover)

/-- After each unterminated line that was taken for a terminated one, the next piece begins with the
newline of that line. -/
def recovers (leftover : List Char) : List (List Char) → Bool
  | [] => true
  | chunk :: chunks =>
    if Early (leftover ++ chunk) then
      decide (chunks.head?.bind List.head? = some '\n') && recovers [] chunks
    else recovers (unterminated '\n' (leftover ++ chunk)) chunks

lemma getD_keptLine (text : List Char) :
    (keptLine 0 text).getD [] = if Early text then [] else unterminated '\n' text := by
  unfold keptLine
  by_cases hearly : Early text
  · rw [if_pos (Or.inl hearly), if_pos hearly]
    rfl
  · rw [if_neg hearly]
    by_cases hnil : unterminated '\n' text = []
    · rw [if_pos (Or.inr hnil), hnil]
      rfl
    · rw [if_neg (not_or.mpr ⟨hearly, hnil⟩)]
      rfl

/-- The first call, and the others with what it leaves. -/
lemma feed_cons (chunk : List Char) (chunks : List (List Char)) (leftover : Leftover) :
    ∃ leftover', feed (chunk :: chunks) leftover = (feed chunks leftover').map (fun r =>
        (fullLines (leftover.content ++ chunk) ++ earlyLine 0 (leftover.content ++ chunk) ++ r.1,
          r.2)) ∧
      leftover'.content = if Early (leftover.content ++ chunk) then []
        else unterminated '\n' (leftover.content ++ chunk) := by
  obtain ⟨r, leftover', hcall, hleftover, hdelivered, hcontent, -⟩ := foreachLine_eq chunk leftover
  rw [getD_keptLine] at hcontent
  refine ⟨leftover', ?_, hcontent⟩
  rw [feed, hcall, bind_eq_bind, bind_some, hleftover, bind_eq_bind, bind_some, ← hdelivered]
  cases feed chunks leftover' with
  | none | some r => rfl

lemma fullLines_append (text more : List Char) :
    fullLines (text ++ more) = fullLines text ++ fullLines (unterminated '\n' text ++ more) := by
  rw [fullLines, terminated_append, filter_append]
  rfl

/-- A line that goes on is not a line of the text. -/
lemma fullLines_ne_cons {line : List Char} (h : '\n' ∉ line) {c : Char} (hc : c ≠ '\n')
    (text : List Char) (lines : List (List Char)) :
    fullLines (line ++ c :: text) ≠ line :: lines := by
  by_cases hmem : '\n' ∈ text
  · obtain ⟨front, rest, rfl, hfront⟩ := eq_append_cons_of_mem hmem
    have hlonger : '\n' ∉ line ++ c :: front := by
      simp [h, hfront, hc.symm]
    have hsplit := fullLines_line hlonger (by simp) rest
    rw [append_assoc, cons_append] at hsplit
    rw [hsplit]
    intro hlines
    have hhead := congrArg List.length (cons_eq_cons.mp hlines).1
    rw [length_append, length_cons] at hhead
    omega
  · rw [fullLines_of_notMem (by simp [h, hmem, hc.symm])]
    exact (cons_ne_nil _ _).symm

variable {chunks : List (List Char)}

/-- A line was given to the function before it was terminated: from there on the lines are those
of the text exactly if the next piece begins with the newline and they are those of the pieces. -/
lemma early_iff {line : List Char} (h : '\n' ∉ line) (hne : line ≠ [])
    (hchunks : ∀ c ∈ chunks, c ≠ []) (delivered : List (List Char)) (content : List Char) :
    (line :: delivered = fullLines (line ++ chunks.flatten) ∧
        content = unterminated '\n' (line ++ chunks.flatten)) ↔
      chunks.head?.bind List.head? = some '\n' ∧
        delivered = fullLines chunks.flatten ∧ content = unterminated '\n' chunks.flatten := by
  cases chunks with
  | nil =>
    rw [flatten_nil, append_nil, fullLines_of_notMem h]
    simp
  | cons chunk chunks =>
    obtain ⟨c, cs, rfl⟩ := exists_cons_of_ne_nil (hchunks chunk mem_cons_self)
    rw [flatten_cons, cons_append]
    by_cases hc : c = '\n'
    · subst hc
      rw [fullLines_line h hne, unterminated_append_cons h, fullLines_newline,
        unterminated_newline, cons_inj_right]
      simp
    · constructor
      · intro hlines
        exact absurd hlines.1.symm (fullLines_ne_cons h hc _ _)
      · intro hnewline
        exact absurd (some_inj.mp hnewline.1) hc

/-- The calls return, and what they give is what the text has exactly if they recover. -/
lemma exists_feed (hchunks : ∀ c ∈ chunks, c ≠ []) :
    ∀ leftover : Leftover, '\n' ∉ leftover.content →
      ∃ delivered leftover', feed chunks leftover = some (delivered, leftover') ∧
        ((delivered = fullLines (leftover.content ++ chunks.flatten) ∧
          leftover'.content = unterminated '\n' (leftover.content ++ chunks.flatten)) ↔
            recovers leftover.content chunks = true) := by
  induction chunks with
  | nil =>
    intro leftover hleftover
    refine ⟨[], leftover, rfl, ?_⟩
    rw [flatten_nil, append_nil, fullLines_of_notMem hleftover, unterminated_of_notMem hleftover]
    exact ⟨fun _ => rfl, fun _ => ⟨rfl, rfl⟩⟩
  | cons chunk chunks ih =>
    intro leftover _
    have hrest : ∀ c ∈ chunks, c ≠ [] := fun c hc => hchunks c (mem_cons_of_mem _ hc)
    obtain ⟨leftover₁, hfeed, hcontent⟩ := feed_cons chunk chunks leftover
    rw [flatten_cons, ← append_assoc, recovers, hfeed]
    generalize leftover.content ++ chunk = text at hcontent ⊢
    have hline := notMem_unterminated '\n' text
    rw [fullLines_append text, unterminated_append '\n' text]
    by_cases hearly : Early text
    · rw [if_pos hearly] at hcontent
      obtain ⟨delivered, leftover', hcalls, hiff⟩ := ih hrest leftover₁ (hcontent ▸ not_mem_nil)
      rw [hcontent, nil_append] at hiff
      refine ⟨_, _, congrArg (Option.map _) hcalls, ?_⟩
      rw [earlyLine, if_pos hearly, if_pos hearly,
        append_assoc, append_cancel_left_eq, Bool.and_eq_true, ← hiff,
        decide_eq_true_iff]
      exact early_iff hline hearly.2 hrest delivered leftover'.content
    · rw [if_neg hearly] at hcontent
      obtain ⟨delivered, leftover', hcalls, hiff⟩ := ih hrest leftover₁ (hcontent ▸ hline)
      refine ⟨_, _, congrArg (Option.map _) hcalls, ?_⟩
      rw [earlyLine, if_neg hearly, if_neg hearly, append_nil, append_cancel_left_eq, ← hcontent]
      exact hiff

/-- For every text and every way of cutting it into pieces that are not empty: the lines given to
the function are the non-blank terminated lines of the text, and the leftover is what is
unterminated, exactly if after every unterminated line behind a blank one in a call the next piece
begins with its newline. -/
theorem feed_exact_iff (chunks : List (List Char)) (hchunks : ∀ c ∈ chunks, c ≠ [])
    (leftover : Leftover) (hleftover : leftover.size = 0) :
    (∃ leftover', feed chunks leftover = some (fullLines chunks.flatten, leftover') ∧
        leftover'.content = unterminated '\n' chunks.flatten) ↔ recovers [] chunks = true := by
  have hnil : leftover.content = [] := by
    rw [Leftover.content, hleftover, take_zero]
  obtain ⟨delivered, leftover', hfeed, hiff⟩ := exists_feed hchunks leftover (hnil ▸ not_mem_nil)
  rw [hnil, nil_append] at hiff
  rw [← hiff, hfeed]
  constructor
  · rintro ⟨leftover₁, hsome, hcontent⟩
    obtain ⟨rfl, rfl⟩ := Prod.mk.inj (some_inj.mp hsome)
    exact ⟨rfl, hcontent⟩
  · rintro ⟨rfl, hcontent⟩
    exact ⟨leftover', rfl, hcontent⟩

theorem feed_exact_iff_blankLines : ∃ leftover', feed ["a\n\nb".toList, "\nc\n".toList] ⟨[], 0, 0⟩ =
        some (fullLines ["a\n\nb".toList, "\nc\n".toList].flatten, leftover') ∧
      leftover'.content = unterminated '\n' ["a\n\nb".toList, "\nc\n".toList].flatten :=
  (feed_exact_iff ["a\n\nb".toList, "\nc\n".toList] (by decide) ⟨[], 0, 0⟩ rfl).mpr
    (by decide +kernel)

/-- The line `bc` behind a blank one is cut between its letters, and comes as two lines. -/
theorem not_exact_cutLine : feed ["a\n\nb".toList, "c\n".toList] ⟨[], 0, 0⟩ =
        some ([['a'], ['b'], ['c']], ⟨[], 0, 1⟩) ∧
      fullLines ["a\n\nb".toList, "c\n".toList].flatten = [['a'], ['b', 'c']] ∧
      ¬∃ leftover', feed ["a\n\nb".toList, "c\n".toList] ⟨[], 0, 0⟩ =
        some (fullLines ["a\n\nb".toList, "c\n".toList].flatten, leftover') := by
  have hfeed : feed ["a\n\nb".toList, "c\n".toList] ⟨[], 0, 0⟩ =
      some ([['a'], ['b'], ['c']], ⟨[], 0, 1⟩) := by decide +kernel
  have hlines : fullLines ["a\n\nb".toList, "c\n".toList].flatten = [['a'], ['b', 'c']] := by
    decide +kernel
  refine ⟨hfeed, hlines, ?_⟩
  rintro ⟨leftover', hexact⟩
  have hsame : [['a'], ['b'], ['c']] = [['a'], ['b', 'c']] := congrArg Prod.fst (some_inj.mp hexact)
  exact absurd hsame (by decide)

end PiksiBuildroot.ResourceMonitor
