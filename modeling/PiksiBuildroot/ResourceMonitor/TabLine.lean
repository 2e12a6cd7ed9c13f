import PiksiBuildroot.Lib.CText

/-!
# Lines of columns

`parse_tab_line` takes the fields of a line one after the other through a chain of states; the table
of states says of what type the next field is, where it goes and what the next state is. Numbers are
converted; a string is copied with `strncpy` and the size of its buffer, which writes no terminator
if the field is as long as the buffer or longer (`parsedWell_iff`).
-/

namespace PiksiBuildroot.ResourceMonitor.TabLine

open Lib CText List Option

/-- Source: `field_type_t`; `invalid` is any other value. -/
inductive FieldType where
  | f64
  | u16
  | u32
  | str
  | invalid
  deriving DecidableEq, Repr

/-- Source: `line_spec_t`, for destinations `δ`. -/
structure LineSpec (δ : Type*) where
  type : FieldType
  next : Nat
  buflen : Nat
  dst : δ

/-- What the destinations hold. A destination is used with one type; `F` are the numbers of type
`double`. -/
structure Dests (δ F : Type*) where
  f64 : δ → F
  u16 : δ → UInt16
  u32 : δ → UInt32
  str : δ → List Char

/-! ### The chain of states -/

variable {state : Nat} {fields : List (List Char)} {field : List Char}

section
variable {δ : Type*} (specs : Nat → LineSpec δ)

/-- The chain from a state to the final state has a length. -/
def ChainLength (finalState : Nat) : Nat → Nat → Prop
  | state, 0 => state = finalState
  | state, n + 1 => state ≠ finalState ∧ ChainLength finalState (specs state).next n

/-- The states of the chain with the fields that they are for. -/
def assigned : Nat → List (List Char) → List (Nat × List Char)
  | _, [] => []
  | state, field :: fields => (state, field) :: assigned (specs state).next fields

variable {specs} {finalState : Nat}

lemma chainLength_unique {state n m : Nat} (hn : ChainLength specs finalState state n)
    (hm : ChainLength specs finalState state m) : n = m := by
  induction n generalizing state m with
  | zero =>
    cases m with
    | zero => rfl
    | succ m => exact absurd hn hm.1
  | succ n ih =>
    cases m with
    | zero => exact absurd hm hn.1
    | succ m => rw [ih hn.2 hm.2]

lemma mem_of_mem_assigned {p : Nat × List Char} (h : p ∈ assigned specs state fields) :
    p.2 ∈ fields := by
  induction fields generalizing state with
  | nil => exact absurd h not_mem_nil
  | cons field fields ih =>
    rcases mem_cons.mp h with rfl | h
    · exact mem_cons_self
    · exact mem_cons_of_mem _ (ih h)

/-- A state of the chain has a shorter chain. -/
lemma chainLength_of_mem_assigned {state state' : Nat}
    (h : ChainLength specs finalState state fields.length)
    (hmem : (state', field) ∈ assigned specs state fields) :
    ∃ n, n ≤ fields.length ∧ ChainLength specs finalState state' n := by
  induction fields generalizing state with
  | nil => exact absurd hmem not_mem_nil
  | cons first fields ih =>
    rcases mem_cons.mp hmem with heq | hmem
    · cases heq
      exact ⟨_, Nat.le_refl _, h⟩
    · obtain ⟨n, hn, hchain⟩ := ih h.2 hmem
      exact ⟨n, Nat.le_succ_of_le hn, hchain⟩

/-- A chain that comes to the final state does not come to a state twice. -/
lemma ne_of_mem_assigned_next {state state' : Nat} {field first : List Char}
    (h : ChainLength specs finalState state (first :: fields).length)
    (hmem : (state', field) ∈ assigned specs (specs state).next fields) : state' ≠ state := by
  rintro rfl
  obtain ⟨n, hn, hchain⟩ := chainLength_of_mem_assigned h.2 hmem
  have := chainLength_unique h hchain
  rw [length_cons] at this
  omega

end

/-! ### The fields of a line -/

/-- Source: `strtoul_all`. The text is at its end when the pointers are compared, so they are equal
for the empty text only. -/
def strtoulAll (ulongBits base : Nat) (str : List Char) : Option Nat :=
  let (value, endptr) := strtoul ulongBits base str
  if endptr.dropWhile isSpace ≠ [] then none
  else if str = [] then none
  else some value

section
variable {δ F : Type*} [DecidableEq δ]

/-- Put a value at a destination. -/
def put {α : Type*} (dsts : δ → α) (dst : δ) (value : α) : δ → α :=
  fun d => if d = dst then value else dsts d

variable (ulongBits : Nat) (strtodAll : List Char → Option F) (specs : Nat → LineSpec δ)

/-- What becomes of one field; `none` if it is not of the type. -/
def storeField (spec : LineSpec δ) (field : List Char) (dsts : Dests δ F) : Option (Dests δ F) :=
  match spec.type with
  | .u16 => (strtoulAll ulongBits 10 field).map fun value =>
    { dsts with u16 := put dsts.u16 spec.dst (UInt16.ofNat value) }
  | .u32 => (strtoulAll ulongBits 10 field).map fun value =>
    { dsts with u32 := put dsts.u32 spec.dst (UInt32.ofNat value) }
  | .f64 => (strtodAll field).map fun value =>
    { dsts with f64 := put dsts.f64 spec.dst value }
  | .str => some
      { dsts with str := put dsts.str spec.dst (strncpy (dsts.str spec.dst) field spec.buflen) }
  | .invalid => none

/-- The loop over the fields. Source: `parse_tab_line`. -/
def parseFields (finalState : Nat) : Nat → List (List Char) → Dests δ F → Option (Dests δ F)
  | state, [], dsts => if state = finalState then some dsts else none
  | state, field :: fields, dsts =>
    if state = finalState then none
    else do
      let dsts ← storeField ulongBits strtodAll (specs state) field dsts
      parseFields finalState (specs state).next fields dsts

/-- The destinations if the function returns true. Source: `parse_tab_line`. -/
def parseTabLine (line : List Char) (startState finalState : Nat) (separators : List Char)
    (dsts : Dests δ F) : Option (Dests δ F) :=
  parseFields ulongBits strtodAll specs finalState startState (strtokFields separators line) dsts

/-- Source: `parse_ps_line`. -/
def parsePsLine (line : List Char) (startState finalState : Nat) (dsts : Dests δ F) :
    Option (Dests δ F) :=
  parseTabLine ulongBits strtodAll specs line startState finalState ['\t'] dsts

variable {ulongBits strtodAll specs} {finalState : Nat} {dsts dsts' : Dests δ F}

/-- The fields are as many as the chain has states. -/
lemma chainLength_of_parseFields
    (h : parseFields ulongBits strtodAll specs finalState state fields dsts = some dsts') :
    ChainLength specs finalState state fields.length := by
  induction fields generalizing state dsts with
  | nil =>
    rw [parseFields, ite_none_right_eq_some] at h
    exact h.1
  | cons field fields ih =>
    rw [parseFields, ite_none_left_eq_some, bind_eq_bind, bind_eq_some_iff] at h
    obtain ⟨hstate, dsts₁, -, hrest⟩ := h
    exact ⟨hstate, ih hrest⟩

/-! ### The strings -/

/-- A field changes a string destination only if it is the one of its own state. -/
lemma str_storeField_of_ne {spec : LineSpec δ} {d : δ}
    (h : storeField ulongBits strtodAll spec field dsts = some dsts')
    (hd : spec.type = .str → spec.dst ≠ d) : dsts'.str d = dsts.str d := by
  unfold storeField at h
  split at h
  · obtain ⟨value, -, rfl⟩ := map_eq_some_iff.mp h
    rfl
  · obtain ⟨value, -, rfl⟩ := map_eq_some_iff.mp h
    rfl
  · obtain ⟨value, -, rfl⟩ := map_eq_some_iff.mp h
    rfl
  · rename_i htype
    cases h
    exact if_neg fun heq => hd htype heq.symm
  · cases h

lemma str_storeField {spec : LineSpec δ}
    (h : storeField ulongBits strtodAll spec field dsts = some dsts') (htype : spec.type = .str) :
    dsts'.str spec.dst = strncpy (dsts.str spec.dst) field spec.buflen := by
  unfold storeField at h
  rw [htype] at h
  cases h
  exact if_pos rfl

/-- What no state of the chain writes stays as it is. -/
lemma str_parseFields_of_ne {d : δ}
    (h : parseFields ulongBits strtodAll specs finalState state fields dsts = some dsts')
    (hd : ∀ p ∈ assigned specs state fields, (specs p.1).type = .str → (specs p.1).dst ≠ d) :
    dsts'.str d = dsts.str d := by
  induction fields generalizing state dsts with
  | nil =>
    rw [parseFields, ite_none_right_eq_some] at h
    rw [some_inj.mp h.2]
  | cons field fields ih =>
    rw [parseFields, ite_none_left_eq_some, bind_eq_bind, bind_eq_some_iff] at h
    obtain ⟨-, dsts₁, hstore, hrest⟩ := h
    rw [assigned, forall_mem_cons] at hd
    rw [ih hrest hd.2, str_storeField_of_ne hstore hd.1]

variable (specs) in
/-- No two of the states that fields go to have the same buffer. -/
def OwnBuffers (state : Nat) (fields : List (List Char)) : Prop :=
  ∀ p ∈ assigned specs state fields, ∀ q ∈ assigned specs state fields,
    (specs p.1).type = .str → (specs q.1).type = .str → (specs p.1).dst = (specs q.1).dst →
      p.1 = q.1

/-- Each state of the chain leaves its field in its buffer. -/
lemma str_parseFields (hdst : OwnBuffers specs state fields)
    (h : parseFields ulongBits strtodAll specs finalState state fields dsts = some dsts') :
    ∀ p ∈ assigned specs state fields, (specs p.1).type = .str → dsts'.str (specs p.1).dst =
        strncpy (dsts.str (specs p.1).dst) p.2 (specs p.1).buflen := by
  have hchain := chainLength_of_parseFields h
  induction fields generalizing state dsts with
  | nil => exact fun p hp => absurd hp not_mem_nil
  | cons field fields ih =>
    rw [parseFields, ite_none_left_eq_some, bind_eq_bind, bind_eq_some_iff] at h
    obtain ⟨-, dsts₁, hstore, hrest⟩ := h
    obtain ⟨hfirst, hbehind⟩ := forall_mem_cons.mp hdst
    intro p hp htype
    rcases mem_cons.mp hp with rfl | hp
    · -- the states behind it have other buffers
      rw [str_parseFields_of_ne hrest fun p hp htype' heq => ne_of_mem_assigned_next hchain hp
        (hfirst p (mem_cons_of_mem _ hp) htype htype' heq.symm).symm,
        str_storeField hstore htype]
    · have hne := ne_of_mem_assigned_next hchain hp
      have hrest' : OwnBuffers specs (specs state).next fields := fun p hp q hq =>
        hbehind p hp q (mem_cons_of_mem _ hq)
      rw [ih hrest' hrest hchain.2 p hp htype, str_storeField_of_ne hstore fun htype' heq =>
        hne (hfirst p (mem_cons_of_mem _ hp) htype' htype heq).symm]

/-! ### Terminated prefixes -/

/-- A buffer holds a terminated string, which is a prefix of a field. -/
def TerminatedPrefix (buf field : List Char) : Prop := '\x00' ∈ buf ∧ cString buf <+: field

lemma terminatedPrefix_strncpy_iff (h : '\x00' ∉ field) (buflen : Nat) :
    TerminatedPrefix (strncpy (List.replicate buflen '\x00') field buflen) field ↔
      field.length < buflen := by
  have hmem : '\x00' ∈ strncpy (List.replicate buflen '\x00') field buflen ↔
      field.length < buflen := by
    have htake : '\x00' ∉ field.take buflen := fun hmem => h (mem_of_mem_take hmem)
    simp only [strncpy, mem_append, htake, mem_replicate, drop_replicate]
    simp
    omega
  constructor
  · exact fun hterminated => hmem.mp hterminated.1
  · intro hlt
    exact ⟨hmem.mpr hlt, [], by rw [cString_strncpy h hlt, append_nil]⟩

variable (specs finalState) in
/-- The strings that a line gives are terminated prefixes of its fields, and the fields are as many
as the chain from the first state to the final one has states. -/
structure ParsedWell (startState : Nat) (fields : List (List Char)) (dsts : Dests δ F) : Prop where
  terminated : ∀ p ∈ assigned specs startState fields, (specs p.1).type = .str →
    TerminatedPrefix (dsts.str (specs p.1).dst) p.2
  consumed : ChainLength specs finalState startState fields.length

/-- For every line and every table with a zeroed buffer of the given size for each string, if the
strings of the line have buffers of their own and `parse_tab_line` returns true: the strings are
terminated prefixes of the fields, which are as many as the chain has states, exactly if each field
for a string is shorter than its buffer. -/
theorem parsedWell_iff {startState : Nat} {separators line : List Char} (hline : '\x00' ∉ line)
    {dsts dsts' : Dests δ F}
    (hbuf : ∀ i, (specs i).type = .str →
      dsts.str (specs i).dst = List.replicate (specs i).buflen '\x00')
    (hdst : OwnBuffers specs startState (strtokFields separators line))
    (h : parseTabLine ulongBits strtodAll specs line startState finalState separators dsts =
      some dsts') :
    ParsedWell specs finalState startState (strtokFields separators line) dsts' ↔
      ∀ p ∈ assigned specs startState (strtokFields separators line), (specs p.1).type = .str →
        p.2.length < (specs p.1).buflen := by
  have hfields : ∀ p ∈ assigned specs startState (strtokFields separators line), '\x00' ∉ p.2 :=
    fun p hp hzero => hline (mem_of_mem_strtokFields (mem_of_mem_assigned hp) hzero)
  have hstr := str_parseFields hdst h
  constructor
  · intro hwell p hp htype
    have hterminated := hwell.terminated p hp htype
    rw [hstr p hp htype, hbuf p.1 htype] at hterminated
    exact (terminatedPrefix_strncpy_iff (hfields p hp) _).mp hterminated
  · intro hshort
    refine ⟨fun p hp htype => ?_, chainLength_of_parseFields h⟩
    rw [hstr p hp htype, hbuf p.1 htype]
    exact (terminatedPrefix_strncpy_iff (hfields p hp) _).mpr (hshort p hp htype)

end

/-! ### The table of the CPU query -/

/-- The destinations of `parse_ps_cpu_line`. -/
inductive CpuDst where
  | pid
  | pcpu
  | threadName
  | commandLine
  deriving DecidableEq, Repr

/-- The states of `parse_ps_cpu_line` in order, `STATE_PID` first; `STATE_DONE` is 4 and has no
entry. -/
def cpuSpecs : Nat → LineSpec CpuDst
  | 0 => ⟨.u16, 1, 0, .pid⟩
  | 1 => ⟨.f64, 2, 0, .pcpu⟩
  | 2 => ⟨.str, 3, 32, .threadName⟩
  | 3 => ⟨.str, 4, 256, .commandLine⟩
  | _ => ⟨.invalid, 0, 0, .pid⟩

lemma cpuSpecs_type_str {i : Nat} (h : (cpuSpecs i).type = .str) : i = 2 ∨ i = 3 := by
  unfold cpuSpecs at h
  split at h <;> simp at h ⊢

/-- Zeroed destinations, with the text of a number in the place of its value as a `double`. -/
def cpuZero : Dests CpuDst (List Char) where
  f64 _ := []
  u16 _ := 0
  u32 _ := 0
  str
    | .threadName => List.replicate 32 '\x00'
    | .commandLine => List.replicate 256 '\x00'
    | .pid | .pcpu => []

lemma cpuZero_str (i : Nat) (h : (cpuSpecs i).type = .str) :
    cpuZero.str (cpuSpecs i).dst = List.replicate (cpuSpecs i).buflen '\x00' := by
  rcases cpuSpecs_type_str h with rfl | rfl <;> rfl

/-- A line of `ps`. -/
def initLine : List Char := "1\t0.5\tinit\t/sbin/init".toList

theorem parsedWell_iff_initLine :
    ∃ dsts, parsePsLine 32 some cpuSpecs initLine 0 4 cpuZero = some dsts ∧
      ParsedWell cpuSpecs 4 0 (strtokFields ['\t'] initLine) dsts := by
  have hparse : (parsePsLine 32 some cpuSpecs initLine 0 4 cpuZero).isSome = true := by
    decide +kernel
  obtain ⟨dsts, hdsts⟩ := isSome_iff_exists.mp hparse
  have hdst : OwnBuffers cpuSpecs 0 (strtokFields ['\t'] initLine) := by
    unfold OwnBuffers
    decide +kernel
  exact ⟨dsts, hdsts, (parsedWell_iff (by decide +kernel) cpuZero_str hdst hdsts).mpr
    (by decide +kernel)⟩

/-- A line with a thread name of 32 characters. -/
def longNameLine : List Char := "1\t0.5\t".toList ++ List.replicate 32 'x' ++ "\t/sbin/init".toList

/-- The buffer of the thread name has no terminator. -/
theorem not_parsedWell_longNameLine :
    ∃ dsts, parsePsLine 32 some cpuSpecs longNameLine 0 4 cpuZero = some dsts ∧
      dsts.str .threadName = List.replicate 32 'x' ∧
      ¬ParsedWell cpuSpecs 4 0 (strtokFields ['\t'] longNameLine) dsts := by
  have hparse : (parsePsLine 32 some cpuSpecs longNameLine 0 4 cpuZero).map
      (fun dsts => dsts.str .threadName) = some (List.replicate 32 'x') := by
    decide +kernel
  have hname : (2, List.replicate 32 'x') ∈
      assigned cpuSpecs 0 (strtokFields ['\t'] longNameLine) := by
    decide +kernel
  obtain ⟨dsts, hdsts, hstr⟩ := map_eq_some_iff.mp hparse
  refine ⟨dsts, hdsts, hstr, fun hwell => ?_⟩
  have hzero := (hwell.terminated _ hname rfl).1
  rw [show (cpuSpecs (2, List.replicate 32 'x').1).dst = .threadName from rfl, hstr] at hzero
  exact absurd hzero (by decide)

end PiksiBuildroot.ResourceMonitor.TabLine
