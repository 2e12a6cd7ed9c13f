import PiksiBuildroot.Lib.CText
import PiksiBuildroot.ResourceMonitor.ForeachLine

/-!
# The leftover of a command's output

The queries for file descriptors and for sockets read the output of a command in pieces of at most
4095 bytes and give each to `foreach_line`, which keeps an unterminated line in a buffer of 4096
bytes. A line that goes on over several pieces is kept with all of them. Against this `buffer_fn`
counts the calls in which there was no line, and it is to fail at the second in a row; but it sets
the count to zero at the end of every call that does not fail (`stored_fit_iff`).
-/

namespace PiksiBuildroot.ResourceMonitor.LeftoverBuffer

open Lib CText List Option

/-- Source: `sizeof(leftover_buffer)`. -/
def leftoverSize : Nat := 4096

/-- Source: `run_config.length`. -/
def readSize : Nat := leftoverSize - 1

/-- What a function for lines returns; it depends on the lines that it was called with before, which
are what its tables were filled from. -/
abbrev LineFn := List (List Char) → List Char → Bool

/-- A round of the loop of `foreach_line` for a function with a state. -/
def lineRoundBy (lineFn : LineFn) (totalLen : Nat) (s : LineLoop) : Option (LineLoop ⊕ LineExit) :=
  lineRound (lineFn s.delivered) totalLen s

/-- Source: `foreach_line`, for a function with a state. -/
def foreachLineBy (linesRo : List Char) (leftover : Option Leftover) (lineFn : LineFn) :
    Option LinesResult :=
  let lines := (leftover.elim [] Leftover.content) ++ linesRo
  (loop (lineRoundBy lineFn lines.length) (lines.length + 1) ⟨[], lines, 0, 0, []⟩).map
    (finishLines leftover)

/-- The variables that `buffer_fn` captures, the lines that the function for lines was called with,
and the sizes of the leftovers that were stored. -/
structure Query where
  leftover : Leftover
  noLineCount : Nat
  delivered : List (List Char)
  stored : List Nat
  deriving DecidableEq, Repr

/-- Source: `buffer_fn` of both queries: what it returns, and the variables. A terminator is put
behind the buffer, so `foreach_line` gets what is in it up to the first zero character. -/
def bufferFn (lineFn : LineFn) (q : Query) (buffer : List Char) : Option (Int × Query) := do
  let r ← foreachLineBy (cString buffer) (some q.leftover)
    fun lines => lineFn (q.delivered ++ lines)
  let leftover ← r.leftover
  let q := { q with
    leftover := leftover
    delivered := q.delivered ++ r.delivered
    stored := if leftover.size = 0 then q.stored else q.stored ++ [leftover.size] }
  if r.ret < 0 then
    return (-1, q)
  -- the second operand is evaluated, and counts, only if there was no line
  else if leftover.lineCount = 0 ∧ 2 ≤ q.noLineCount + 1 then
    return (-1, { q with noLineCount := q.noLineCount + 1 })
  else
    return ((buffer.length : Int), { q with noLineCount := 0 })

section
variable {σ : Type*} (fn : σ → List Char → Option (Int × σ))

/-- A round of the inner loop over what was read. Source: `run_with_stdin_file2`. -/
def serveRound : σ × List Char → Option ((σ × List Char) ⊕ σ)
  | (s, []) => some (.inr s)
  | (s, bytes) => do
    let (consumed, s) ← fn s bytes
    if consumed < 0 then return .inr s
    else if consumed.toNat < bytes.length then return .inl (s, bytes.drop consumed.toNat)
    else return .inl (s, [])

/-- The loop over the reads of the output; a read without bytes is the end of it or an error.
Source: `run_with_stdin_file2`. -/
def readLoop : List (List Char) → σ → Option σ
  | [], s => some s
  | bytes :: reads, s =>
    if bytes = [] then some s
    else do
      let s ← loop (serveRound fn) (bytes.length + 1) (s, bytes)
      readLoop reads s

end

/-- The reads of the output of the command in a query. Source: `run_resource_query`. -/
def runQuery (lineFn : LineFn) (reads : List (List Char)) : Option Query :=
  readLoop (bufferFn lineFn) reads ⟨⟨[], 0, 0⟩, 0, [], []⟩

/-! ### What is kept -/

/-- The lines that are given to the function: up to the first that it rejects. -/
def given (lineFn : LineFn) (before : List (List Char)) : List (List Char) → List (List Char)
  | [] => []
  | line :: lines =>
    if lineFn before line then line :: given lineFn (before ++ [line]) lines else [line]

/-- The function accepts all lines. -/
def acceptsAll (lineFn : LineFn) (before : List (List Char)) : List (List Char) → Bool
  | [] => true
  | line :: lines => lineFn before line && acceptsAll lineFn (before ++ [line]) lines

/-- The lines of a text, with an unterminated one that is taken for a terminated one. -/
def linesOf (text : List Char) : List (List Char) := fullLines text ++ earlyLine 0 text

/-- What a call keeps of a text: the line that is in progress at its end. It keeps nothing if the
function has rejected a line, or if the line in progress was taken for a terminated one. -/
def keeps (lineFn : LineFn) (before : List (List Char)) (text : List Char) : List Char :=
  if acceptsAll lineFn before (linesOf text) then (keptLine 0 text).getD [] else []

/-- The line in progress fits in the buffer after every read. -/
def fits (lineFn : LineFn) (before : List (List Char)) (kept : List Char) : List (List Char) → Bool
  | [] => true
  | bytes :: reads =>
    let text := kept ++ cString bytes
    bytes.isEmpty ||
      decide ((keeps lineFn before text).length + 1 ≤ leftoverSize) &&
        fits lineFn (before ++ given lineFn before (linesOf text)) (keeps lineFn before text)
          reads

/-- A round either ends the loop without the function, or calls it with a line. -/
lemma lineRound_cases (totalLen : Nat) (s : LineLoop) :
    (∃ exit : LineExit, exit.delivered = s.delivered ∧
      ∀ fn, lineRound fn totalLen s = some (.inr exit)) ∨
    ∃ (line : List Char) (s' : LineLoop) (exit : LineExit),
      s'.delivered = s.delivered ++ [line] ∧ exit.delivered = s.delivered ++ [line] ∧
      exit.kept = none ∧
      ∀ fn, lineRound fn totalLen s = some (if fn line then .inl s' else .inr exit) := by
  unfold lineRound
  cases strtokR s.done s.rest with
  | none => exact .inl ⟨_, rfl, fun _ => rfl⟩
  | some next =>
    obtain ⟨line, done, rest⟩ := next
    dsimp only
    split_ifs
    · exact .inl ⟨_, rfl, fun _ => rfl⟩
    · refine .inr ⟨line, ⟨done, rest, s.consumed + line.length + 1, s.lineCount + 1,
        s.delivered ++ [line]⟩, ⟨s.consumed + line.length + 1, s.lineCount + 1,
        s.delivered ++ [line], none⟩, rfl, rfl, rfl, fun fn => ?_⟩
      split_ifs <;> rfl

/-- The loop with a function that may reject a line, from what it does with one that does not. -/
lemma loop_lineRoundBy (lineFn : LineFn) (totalLen : Nat) {exit : LineExit} (fuel : Nat) :
    ∀ s : LineLoop, loop (lineRound (fun _ => true) totalLen) fuel s = some exit →
      ∃ exit' lines, loop (lineRoundBy lineFn totalLen) fuel s = some exit' ∧
        exit.delivered = s.delivered ++ lines ∧
        exit'.delivered = s.delivered ++ given lineFn s.delivered lines ∧
        exit'.kept = if acceptsAll lineFn s.delivered lines then exit.kept else none := by
  induction fuel with
  | zero =>
    intro s h
    cases h
  | succ fuel ih =>
    intro s h
    rcases lineRound_cases totalLen s with
      ⟨exit₀, hdelivered₀, hround⟩ | ⟨line, s', exit₀, hs', hdelivered₀, hkept₀, hround⟩
    · rw [loop, hround] at h
      cases h
      refine ⟨_, [], ?_, ?_, ?_, rfl⟩
      · rw [loop, lineRoundBy, hround]
      · rw [hdelivered₀, append_nil]
      · rw [hdelivered₀, given, append_nil]
    · rw [loop, hround, if_pos rfl] at h
      obtain ⟨exit', lines, hloop, hdelivered, hgiven, hkept⟩ := ih s' h
      rw [hs'] at hdelivered hgiven hkept
      rw [loop, lineRoundBy, hround]
      rw [append_assoc] at hdelivered hgiven
      by_cases haccept : lineFn s.delivered line = true
      · refine ⟨exit', line :: lines, ?_, hdelivered, ?_, ?_⟩
        · rw [if_pos haccept]
          exact hloop
        · rw [hgiven, given, if_pos haccept]
          rfl
        · rw [hkept, acceptsAll, haccept, Bool.true_and]
      · refine ⟨exit₀, line :: lines, ?_, hdelivered, ?_, ?_⟩
        · rw [if_neg haccept]
        · rw [hdelivered₀, given, if_neg haccept]
        · rw [hkept₀, acceptsAll, Bool.eq_false_iff.mpr haccept, Bool.false_and]
          rfl

/-- A call with a leftover and any function for the lines. -/
lemma foreachLineBy_eq (linesRo : List Char) (leftover : Leftover) (lineFn : LineFn) :
    ∃ r leftover', foreachLineBy linesRo (some leftover) lineFn = some r ∧
      r.leftover = some leftover' ∧ 0 ≤ r.ret ∧
      r.delivered = given lineFn [] (linesOf (leftover.content ++ linesRo)) ∧
      leftover'.content = keeps lineFn [] (leftover.content ++ linesRo) ∧
      leftover'.size = leftover'.content.length := by
  obtain ⟨exit, hloop, hkept, hdelivered, -⟩ :=
    lineRound_gives (leftover.content ++ linesRo).length (leftover.content ++ linesRo) [] 0 0 0 []
      ((leftover.content ++ linesRo).length + 1) (Nat.zero_add _) rfl (Nat.lt_succ_self _)
  obtain ⟨exit', lines, hloop', hlines, hdelivered', hkept'⟩ := loop_lineRoundBy lineFn _ _ _ hloop
  rw [nil_append] at hdelivered hlines hdelivered'
  rw [← hlines, hdelivered] at hdelivered' hkept'
  have hcall : foreachLineBy linesRo (some leftover) lineFn =
      some (finishLines (some leftover) exit') := by
    simp only [foreachLineBy, elim_some, hloop', map_some]
  have hkeeps : keeps lineFn [] (leftover.content ++ linesRo) = exit'.kept.getD [] := by
    rw [hkept', hkept, keeps, linesOf]
    split_ifs <;> rfl
  rw [hkeeps, hcall]
  unfold finishLines
  cases exit'.kept with
  | none => exact ⟨_, _, rfl, rfl, Int.natCast_nonneg _, hdelivered', rfl, rfl⟩
  | some line =>
    refine ⟨_, _, rfl, rfl, Int.natCast_nonneg _, hdelivered', take_length, ?_⟩
    rw [Leftover.content, take_length]

lemma given_append (lineFn : LineFn) (before earlier : List (List Char))
    (lines : List (List Char)) :
    given (fun ds => lineFn (before ++ ds)) earlier lines =
      given lineFn (before ++ earlier) lines := by
  induction lines generalizing earlier with
  | nil => rfl
  | cons line lines ih => rw [given, given, ih, append_assoc]

lemma acceptsAll_append (lineFn : LineFn) (before earlier : List (List Char))
    (lines : List (List Char)) :
    acceptsAll (fun ds => lineFn (before ++ ds)) earlier lines =
      acceptsAll lineFn (before ++ earlier) lines := by
  induction lines generalizing earlier with
  | nil => rfl
  | cons line lines ih => rw [acceptsAll, acceptsAll, ih, append_assoc]

/-! ### A query -/

/-- `buffer_fn` is called with the count at zero, so it never fails, and leaves it at zero. -/
lemma bufferFn_eq (lineFn : LineFn) {q : Query} (hcount : q.noLineCount = 0)
    (buffer : List Char) :
    ∃ q', bufferFn lineFn q buffer = some ((buffer.length : Int), q') ∧ q'.noLineCount = 0 ∧
      q'.leftover.content = keeps lineFn q.delivered (q.leftover.content ++ cString buffer) ∧
      q'.delivered = q.delivered ++
        given lineFn q.delivered (linesOf (q.leftover.content ++ cString buffer)) ∧
      ((∀ size ∈ q'.stored, size + 1 ≤ leftoverSize) ↔
        (∀ size ∈ q.stored, size + 1 ≤ leftoverSize) ∧
          q'.leftover.content.length + 1 ≤ leftoverSize) := by
  obtain ⟨r, leftover', hcall, hleftover, hret, hdelivered, hcontent, hsize⟩ :=
    foreachLineBy_eq (cString buffer) q.leftover fun lines => lineFn (q.delivered ++ lines)
  rw [given_append, append_nil] at hdelivered
  rw [keeps, acceptsAll_append, append_nil] at hcontent
  have hguard : ¬(leftover'.lineCount = 0 ∧ 2 ≤ q.noLineCount + 1) := by omega
  refine ⟨⟨leftover', 0, q.delivered ++ r.delivered,
    if leftover'.size = 0 then q.stored else q.stored ++ [leftover'.size]⟩,
    ?_, rfl, hcontent, ?_, ?_⟩
  · simp only [bufferFn, hcall, hleftover, bind_eq_bind, bind_some,
      if_neg (Int.not_lt.mpr hret), if_neg hguard]
    rfl
  · rw [← hdelivered]
  · rw [← hsize]
    split_ifs with hzero
    · rw [hzero]
      exact (and_iff_left (by decide)).symm
    · rw [forall_mem_append, forall_mem_singleton]

/-- Each piece is given to `buffer_fn` once. -/
lemma loop_serveRound {σ : Type*} {fn : σ → List Char → Option (Int × σ)} {s s' : σ}
    {bytes : List Char} (hne : bytes ≠ []) (hfn : fn s bytes = some ((bytes.length : Int), s')) :
    loop (serveRound fn) (bytes.length + 1) (s, bytes) = some s' := by
  obtain ⟨c, cs, rfl⟩ := exists_cons_of_ne_nil hne
  have hround : serveRound fn (s, c :: cs) = some (.inl (s', [])) := by
    simp only [serveRound, hfn, bind_eq_bind, bind_some,
      if_neg (Int.not_lt.mpr (Int.natCast_nonneg _)), Int.toNat_natCast, Nat.lt_irrefl, if_false]
    rfl
  rw [loop, hround]
  rfl

/-- By induction on the reads: what is stored fits exactly if the lines in progress do. -/
lemma exists_readLoop (lineFn : LineFn) (reads : List (List Char)) :
    ∀ q : Query, q.noLineCount = 0 → ∃ q', readLoop (bufferFn lineFn) reads q = some q' ∧
        ((∀ size ∈ q'.stored, size + 1 ≤ leftoverSize) ↔
          (∀ size ∈ q.stored, size + 1 ≤ leftoverSize) ∧
            fits lineFn q.delivered q.leftover.content reads = true) := by
  induction reads with
  | nil => exact fun q _ => ⟨q, rfl, (and_iff_left rfl).symm⟩
  | cons bytes reads ih =>
    intro q hcount
    by_cases hne : bytes = []
    · subst hne
      exact ⟨q, rfl, (and_iff_left rfl).symm⟩
    · obtain ⟨q₁, hcall, hcount₁, hcontent, hdelivered, hstored⟩ := bufferFn_eq lineFn hcount bytes
      obtain ⟨q', hreads, hiff⟩ := ih q₁ hcount₁
      refine ⟨q', ?_, ?_⟩
      · rw [readLoop, if_neg hne, loop_serveRound hne hcall]
        exact hreads
      · rw [hiff, hstored, fits, ← hcontent, ← hdelivered, isEmpty_eq_false_iff.mpr hne,
          Bool.false_or, Bool.and_eq_true, decide_eq_true_iff, and_assoc]

lemma keeps_of_notMem {text : List Char} (h : '\n' ∉ text) (lineFn : LineFn)
    (before : List (List Char)) : keeps lineFn before text = text := by
  have hearly : ¬Early text := fun hearly =>
    absurd ((earlyAfter_of_notMem h 0).mp hearly).1 (Nat.lt_irrefl 0)
  have hlines : linesOf text = [] := by
    rw [linesOf, fullLines_of_notMem h, earlyLine, if_neg hearly]
    rfl
  rw [keeps, hlines, getD_keptLine, if_neg hearly, unterminated_of_notMem h]
  rfl

/-- For every function for the lines and all reads of the output of the command: every leftover that
`foreach_line` stores fits in the buffer with its terminator, exactly if the line in progress does
after every read. -/
theorem stored_fit_iff (lineFn : LineFn) (reads : List (List Char)) :
    (∃ q, runQuery lineFn reads = some q ∧ ∀ size ∈ q.stored, size + 1 ≤ leftoverSize) ↔
      fits lineFn [] [] reads = true := by
  obtain ⟨q, hrun, hiff⟩ := exists_readLoop lineFn reads ⟨⟨[], 0, 0⟩, 0, [], []⟩ rfl
  have hfits : (∀ size ∈ q.stored, size + 1 ≤ leftoverSize) ↔ fits lineFn [] [] reads = true := by
    rw [hiff]
    exact and_iff_right fun _ h => absurd h not_mem_nil
  rw [← hfits, runQuery, hrun]
  constructor
  · rintro ⟨q', hq', hstored⟩
    rw [some_inj.mp hq']
    exact hstored
  · exact fun hstored => ⟨q, rfl, hstored⟩

/-- A line of 4096 characters, of which 4095 are read first. -/
def longLine : List (List Char) := [List.replicate readSize 'a', ['a']]

/-- The line is stored whole, and its terminator is behind the buffer. -/
theorem not_stored_fit_longLine : (∀ bytes ∈ longLine, bytes.length ≤ readSize) ∧
      ¬∃ q, runQuery (fun _ _ => true) longLine = some q ∧
        ∀ size ∈ q.stored, size + 1 ≤ leftoverSize := by
  refine ⟨?_, ?_⟩
  · rw [longLine, forall_mem_cons, forall_mem_singleton, length_replicate]
    exact ⟨Nat.le_refl _, by decide⟩
  · rintro ⟨q, hrun, hstored⟩
    obtain ⟨q', hrun', hiff⟩ :=
      exists_readLoop (fun _ _ => true) longLine ⟨⟨[], 0, 0⟩, 0, [], []⟩ rfl
    rw [runQuery, hrun'] at hrun
    rw [← some_inj.mp hrun] at hstored
    have hfits := (hiff.mp hstored).2
    have hall : ∀ n, cString (List.replicate n 'a') = List.replicate n 'a' := fun n =>
      takeWhile_eq_self_iff.mpr fun c hc => by rw [eq_of_mem_replicate hc]; decide
    have hline : ∀ n, '\n' ∉ List.replicate n 'a' := fun n hmem =>
      absurd (eq_of_mem_replicate hmem) (by decide)
    simp only [longLine, fits, Leftover.content, take_nil, nil_append,
      show (['a'] : List Char) = List.replicate 1 'a' from rfl, hall, keeps_of_notMem (hline _),
      replicate_append_replicate, length_replicate, Bool.or_eq_true, Bool.and_eq_true,
      decide_eq_true_iff] at hfits
    simp [readSize, leftoverSize] at hfits

end PiksiBuildroot.ResourceMonitor.LeftoverBuffer
