import Mathlib.Data.List.ModifyLast
import PiksiBuildroot.Lib.Machine
import PiksiBuildroot.SbpProtocol.FilterConfig

/-!
# The setting `enabled_sbp_messages`

`whitelist_notify` reads the setting with a small state machine and writes one line an entry to the
configuration file of the port's SBP filter. On acceptance the entries are the pairs that the
setting denotes (`parse_spec`), no round of the parser writes outside `whitelist[128]`
(`index_lt_of_reaches`), and the filter reads the pairs back if every number fits its field
(`filterSbpLoadConfig_whitelistNotify`).
-/

namespace PiksiBuildroot.PortsDaemon

open Lib CText SbpProtocol List

/-! ### The parser -/

/-- Source: the `enum` of the parser in `whitelist_notify`. -/
inductive ParseState where
  | parseId
  | parseAfterId
  | parseDiv
  | parseAfterDiv
  deriving DecidableEq, Repr

/-- An element of the array `whitelist`. -/
structure Entry where
  id : Nat
  div : Nat
  deriving DecidableEq, Repr

/-- How the parser ends. -/
inductive Parsed where
  /-- `SETTINGS_WR_PARSE_FAILED` is returned. -/
  | failed
  /-- An element outside the array is written. -/
  | outOfBounds
  | ok (entries : List Entry)
  deriving DecidableEq, Repr

/-- The number of elements of the array `whitelist`. -/
def whitelistLength : Nat := 128

/-- The white space that the parser ignores. -/
def isBlank (c : Char) : Bool := c == ' ' || c == '\t' || c == '\n' || c == '\r' || c == '\x0b'

/-- The `unsigned` that the integer token at a digit is read into. -/
def tokenValue (ulongBits n : Nat) : Nat := toUnsignedLong ulongBits false n % 2 ^ 32

/-- Source: the loop of `whitelist_notify`, from a state and the entries so far. -/
def parse (ulongBits : Nat) (state : ParseState) (entries : List Entry) (c : List Char) : Parsed :=
  match c with
  | [] => .ok entries
  | ch :: cs =>
    if _hdigit : ch.isDigit then
      let tmp := (strtoul ulongBits 10 (ch :: cs)).1 % 2 ^ 32
      let c' := (strtoul ulongBits 10 (ch :: cs)).2
      match state with
      | .parseId =>
        if entries.length < whitelistLength then
          parse ulongBits .parseAfterId (entries ++ [{ id := tmp, div := 1 }]) c'
        else .outOfBounds
      | .parseDiv =>
        -- `whitelist[entries - 1].div = tmp`
        if entries = [] then .outOfBounds
        else parse ulongBits .parseAfterDiv (entries.modifyLast ({ · with div := tmp })) c'
      | .parseAfterDiv | .parseAfterId => .failed
    else if ch = '/' then
      if state = .parseAfterId then parse ulongBits .parseDiv entries cs else .failed
    else if ch = ',' then
      if state = .parseAfterId ∨ state = .parseAfterDiv then parse ulongBits .parseId entries cs
      else .failed
    else if isBlank ch then parse ulongBits state entries cs
    else .failed
termination_by c.length
decreasing_by
  all_goals
    first
    | exact Nat.lt_succ_self _
    | rw [strtoul_ten cs _hdigit]
      exact Nat.lt_succ_of_le (dropWhile_sublist Char.isDigit).length_le

/-! ### The notification -/

/-- Source: `port_whitelist_config_t`; `wl` is a string in a buffer of 256 characters. -/
structure PortWhitelistConfig where
  name : String
  wl : List Char
  wl_length : wl.length < 256
  noNul : '\x00' ∉ wl

/-- Source: the result of `whitelist_notify`. -/
inductive WriteResult where
  | ok
  | parseFailed
  | serviceFailed
  deriving DecidableEq, Repr

/-- The file `fn` of a port. -/
def filterOutConfig (name : String) : String := "/etc/filter_out_config/" ++ name

/-- The text that the entries are written as. -/
def printEntries (entries : List Entry) : List Char :=
  entries.flatMap fun e => printHexPair e.id e.div

/-- Source: `whitelist_notify`. Whether `fopen` succeeds is given; there is no result if the parser
leaves the array. -/
def whitelistNotify (ulongBits : Nat) (opens : Bool) (files : Files) (cfg : PortWhitelistConfig) :
    Option (WriteResult × Files) :=
  match parse ulongBits .parseId [] cfg.wl with
  | .outOfBounds => none
  | .failed => some (.parseFailed, files)
  | .ok entries =>
    if opens then
      some (.ok, Function.update files (filterOutConfig cfg.name) (some (printEntries entries)))
    else some (.serviceFailed, files)

/-! ### What a setting denotes -/

/-- The integer that a run of decimal digits is written for. -/
def decimal (digits : List Char) : Nat := Nat.ofDigitChars 10 digits 0

/-- The characters of an item that count. -/
def strip (item : List Char) : List Char := item.filter (!isBlank ·)

/-- The pair of one item: its white space does not count, what stands before the slash is the id and
what stands after it the divisor, 1 when absent. -/
def itemPair (item : List Char) : Option (Nat × Nat) := match (strip item).splitOnP (· == '/') with
  | [] | [[]] => none
  | [id] | id :: [] :: _ => some (decimal id, 1)
  | id :: div :: _ => some (decimal id, decimal div)

/-- The pairs of a setting: its items are separated by commas. -/
def pairs (wl : List Char) : List (Nat × Nat) := (wl.splitOnP (· == ',')).filterMap itemPair

lemma pairs_append_comma (item wl : List Char) :
    pairs (item ++ ',' :: wl) = pairs item ++ pairs wl := by
  unfold pairs
  rw [splitOnP_append_cons item wl (by decide), filterMap_append]

lemma pairs_item {item : List Char} (h : ',' ∉ item) : pairs item = (itemPair item).toList := by
  have hsplit : item.splitOnP (· == ',') = [item] := by
    apply splitOnP_eq_singleton
    intro c hc
    apply Bool.eq_false_iff.mpr
    intro heq
    rw [beq_iff_eq.mp heq] at hc
    exact h hc
  unfold pairs
  rw [hsplit]
  cases hitem : itemPair item with
  | none => rw [filterMap_cons_none hitem]; rfl
  | some p => rw [filterMap_cons_some hitem]; rfl

/-! ### The parser reads the pairs -/

lemma strip_append (item s : List Char) : strip (item ++ s) = strip item ++ strip s :=
  filter_append ..

/-- A non-empty run of decimal digits. -/
def IsRun (digits : List Char) : Prop := digits ≠ [] ∧ ∀ c ∈ digits, c.isDigit

variable {digits : List Char}

lemma IsRun.strip (h : IsRun digits) : strip digits = digits := by
  apply filter_eq_self.mpr
  intro c hc
  have hdigit : 48 ≤ c.toNat ∧ c.toNat ≤ 57 := Char.isDigit_iff_toNat.mp (h.2 c hc)
  apply Bool.not_eq_true' _ ▸ Bool.eq_false_iff.mpr
  intro hblank
  simp only [isBlank, Bool.or_eq_true, beq_iff_eq] at hblank
  rcases hblank with (((rfl | rfl) | rfl) | rfl) | rfl <;> exact absurd hdigit (by decide)

lemma IsRun.splitOnP_slash (h : IsRun digits) : digits.splitOnP (· == '/') = [digits] := by
  apply splitOnP_eq_singleton
  intro c hc
  apply Bool.eq_false_iff.mpr
  intro heq
  have hslash : Char.isDigit '/' := beq_iff_eq.mp heq ▸ h.2 c hc
  cases hslash

lemma IsRun.exists_cons (h : IsRun digits) : ∃ c cs, digits = c :: cs := exists_cons_of_ne_nil h.1

lemma itemPair_of_blank {item : List Char} (h : strip item = []) : itemPair item = none := by
  rw [itemPair, h]
  rfl

lemma itemPair_of_id {item id : List Char} (hid : IsRun id) (h : strip item = id) :
    itemPair item = some (decimal id, 1) := by
  obtain ⟨c, cs, rfl⟩ := hid.exists_cons
  rw [itemPair, h, hid.splitOnP_slash]

lemma itemPair_of_slash {item id : List Char} (hid : IsRun id) (h : strip item = id ++ ['/']) :
    itemPair item = some (decimal id, 1) := by
  have hsplit : (id ++ ['/']).splitOnP (· == '/') = [id, []] := by
    rw [splitOnP_append_cons id [] (by decide), hid.splitOnP_slash]
    rfl
  obtain ⟨c, cs, rfl⟩ := hid.exists_cons
  rw [itemPair, h, hsplit]

lemma itemPair_of_div {item id div : List Char} (hid : IsRun id) (hdiv : IsRun div)
    (h : strip item = id ++ '/' :: div) : itemPair item = some (decimal id, decimal div) := by
  have hsplit : (id ++ '/' :: div).splitOnP (· == '/') = [id, div] := by
    rw [splitOnP_append_cons id div (by decide), hid.splitOnP_slash, hdiv.splitOnP_slash]
    rfl
  obtain ⟨c, cs, rfl⟩ := hid.exists_cons
  obtain ⟨d, ds, rfl⟩ := hdiv.exists_cons
  rw [itemPair, h, hsplit]

/-- The entry for a pair. -/
def entryOf (ulongBits : Nat) (p : Nat × Nat) : Entry :=
  { id := tokenValue ulongBits p.1, div := tokenValue ulongBits p.2 }

/-- What the parser has read of the current item, in each of its states, and the entry it has made
for it. -/
inductive Consumed (ulongBits : Nat) : ParseState → List Char → List Entry → Prop
  | parseId {item} : strip item = [] → Consumed ulongBits .parseId item []
  | parseAfterId {item id} : IsRun id → strip item = id →
      Consumed ulongBits .parseAfterId item [entryOf ulongBits (decimal id, 1)]
  | parseDiv {item id} : IsRun id → strip item = id ++ ['/'] →
      Consumed ulongBits .parseDiv item [entryOf ulongBits (decimal id, 1)]
  | parseAfterDiv {item id div} : IsRun id → IsRun div → strip item = id ++ '/' :: div →
      Consumed ulongBits .parseAfterDiv item [entryOf ulongBits (decimal id, decimal div)]

variable {ulongBits : Nat} {state : ParseState} {entries : List Entry}

lemma Consumed.entries_eq {item : List Char} (h : Consumed ulongBits state item entries) :
    entries = (itemPair item).toList.map (entryOf ulongBits) := by
  cases h with
  | parseId hitem => rw [itemPair_of_blank hitem]; rfl
  | parseAfterId hid hitem => rw [itemPair_of_id hid hitem]; rfl
  | parseDiv hid hitem => rw [itemPair_of_slash hid hitem]; rfl
  | parseAfterDiv hid hdiv hitem => rw [itemPair_of_div hid hdiv hitem]; rfl

/-- White space does not count. -/
lemma Consumed.blank {item : List Char} (h : Consumed ulongBits state item entries) {c : Char}
    (hc : isBlank c) : Consumed ulongBits state (item ++ [c]) entries := by
  have hstrip : strip (item ++ [c]) = strip item := by
    simp [strip, hc]
  cases h with
  | parseId hitem => exact .parseId (hstrip.trans hitem)
  | parseAfterId hid hitem => exact .parseAfterId hid (hstrip.trans hitem)
  | parseDiv hid hitem => exact .parseDiv hid (hstrip.trans hitem)
  | parseAfterDiv hid hdiv hitem => exact .parseAfterDiv hid hdiv (hstrip.trans hitem)

variable {ch : Char}

/-- The run of digits that `strtoul` reads, and what it leaves. -/
lemma exists_run (cs : List Char) (h : ch.isDigit) :
    ∃ digits rest, IsRun digits ∧ ch :: cs = digits ++ rest ∧
      (strtoul ulongBits 10 (ch :: cs)).1 % 2 ^ 32 = tokenValue ulongBits (decimal digits) ∧
      (strtoul ulongBits 10 (ch :: cs)).2 = rest := by
  refine ⟨ch :: cs.takeWhile Char.isDigit, cs.dropWhile Char.isDigit, ?_, ?_, ?_, ?_⟩
  · refine ⟨cons_ne_nil _ _, ?_⟩
    intro c hc
    rcases mem_cons.mp hc with rfl | hc
    · exact h
    · exact mem_takeWhile_imp hc
  · rw [cons_append, takeWhile_append_dropWhile]
  · rw [strtoul_ten cs h]
    rfl
  · rw [strtoul_ten cs h]

lemma tokenValue_of_lt {ulongBits n : Nat} (hbits : 32 ≤ ulongBits) (h : n < 2 ^ 32) :
    tokenValue ulongBits n = n := by
  have hpow : 2 ^ 32 ≤ 2 ^ ulongBits := Nat.pow_le_pow_right (by decide) hbits
  unfold tokenValue
  rw [toUnsignedLong_of_lt (Nat.lt_of_lt_of_le h hpow), Nat.mod_eq_of_lt h]

lemma IsRun.comma_notMem (h : IsRun digits) : ',' ∉ digits := by
  intro hmem
  exact absurd (h.2 ',' hmem) (by decide)

/-- An id token starts the entry of its item. -/
lemma Consumed.id (hbits : 32 ≤ ulongBits) {item : List Char}
    (h : Consumed ulongBits .parseId item entries) (hdigits : IsRun digits) :
    entries = [] ∧ Consumed ulongBits .parseAfterId (item ++ digits)
      [{ id := tokenValue ulongBits (decimal digits), div := 1 }] := by
  cases h with
  | parseId hitem =>
    have hstrip : strip (item ++ digits) = digits := by
      rw [strip_append, hitem, hdigits.strip, nil_append]
    have hone : tokenValue ulongBits 1 = 1 := tokenValue_of_lt hbits (by decide)
    have hentry := @Consumed.parseAfterId ulongBits _ _ hdigits hstrip
    rw [entryOf, hone] at hentry
    exact ⟨rfl, hentry⟩

/-- A divisor token completes the entry of its item. -/
lemma Consumed.div {item : List Char} (h : Consumed ulongBits .parseDiv item entries)
    (hdigits : IsRun digits) :
    ∃ e, entries = [e] ∧ Consumed ulongBits .parseAfterDiv (item ++ digits)
      [{ e with div := tokenValue ulongBits (decimal digits) }] := by
  cases h with
  | @parseDiv _ id hid hitem =>
    have hstrip : strip (item ++ digits) = id ++ '/' :: digits := by
      rw [strip_append, hitem, hdigits.strip, append_assoc]
      rfl
    exact ⟨_, rfl, .parseAfterDiv hid hdigits hstrip⟩

lemma Consumed.slash {item : List Char} (h : Consumed ulongBits .parseAfterId item entries) :
    Consumed ulongBits .parseDiv (item ++ ['/']) entries := by
  cases h with
  | parseAfterId hid hitem =>
    apply Consumed.parseDiv hid
    rw [strip_append, hitem]
    rfl

/-- An accepted setting is read as the pairs it denotes. -/
theorem parse_spec (hbits : 32 ≤ ulongBits) {all done entries result : List Entry}
    {item c : List Char} (hall : all = done ++ entries)
    (hitem : Consumed ulongBits state item entries) (hcomma : ',' ∉ item)
    (h : parse ulongBits state all c = .ok result) :
    result = done ++ (pairs (item ++ c)).map (entryOf ulongBits) := by
  fun_induction parse ulongBits state all c generalizing done entries item with
  | case1 state all =>
    obtain rfl := Parsed.ok.inj h
    rw [append_nil, pairs_item hcomma, hall, hitem.entries_eq]
  | case2 all ch cs hdigit tmp c' =>
    rename_i hlt ih
    obtain ⟨digits, rest, hrun, hsplit, htmp, hrest⟩ := @exists_run ulongBits ch cs hdigit
    obtain ⟨rfl, hitem'⟩ := hitem.id hbits hrun
    rw [← htmp] at hitem'
    have hcomma' : ',' ∉ item ++ digits := by simp [hcomma, hrun.comma_notMem]
    have hresult := ih (by rw [hall, append_nil]) hitem' hcomma' h
    rwa [show c' = rest from hrest, append_assoc, ← hsplit] at hresult
  | case3 | case4 | case6 | case7 | case9 | case11 | case13 => exact absurd h (by simp)
  | case5 all ch cs hdigit tmp c' =>
    rename_i hne ih
    obtain ⟨digits, rest, hrun, hsplit, htmp, hrest⟩ := @exists_run ulongBits ch cs hdigit
    obtain ⟨e, rfl, hitem'⟩ := hitem.div hrun
    rw [← htmp] at hitem'
    have hcomma' : ',' ∉ item ++ digits := by simp [hcomma, hrun.comma_notMem]
    have hresult := ih (by rw [hall, modifyLast_concat]) hitem' hcomma' h
    rwa [show c' = rest from hrest, append_assoc, ← hsplit] at hresult
  | case8 all cs hdigit ih =>
    have hresult := ih hall hitem.slash (by simp [hcomma]) h
    rwa [append_assoc] at hresult
  | case10 state all cs hstate hdigit hslash ih =>
    -- the item is complete
    have hresult := ih (append_nil all).symm (@Consumed.parseId _ [] rfl)
      not_mem_nil h
    rw [hresult, hall, hitem.entries_eq, pairs_append_comma, pairs_item hcomma,
      map_append, append_assoc, nil_append]
  | case12 state all ch cs hdigit hslash hc hblank ih =>
    have hcomma' : ',' ∉ item ++ [ch] := by simp [hcomma, Ne.symm hc]
    have hresult := ih hall (hitem.blank hblank) hcomma' h
    rwa [append_assoc] at hresult

/-! ### The array of entries is large enough -/

/-- A token leaves less of the text. -/
lemma strtoul_length_le (cs : List Char) (h : ch.isDigit) :
    (strtoul ulongBits 10 (ch :: cs)).2.length ≤ cs.length := by
  rw [strtoul_ten cs h]
  exact (dropWhile_sublist Char.isDigit).length_le

/-- The parser at the head of its loop: its state, the entries made so far and the text left. -/
structure Parser where
  state : ParseState
  entries : List Entry
  c : List Char
  deriving DecidableEq, Repr

/-- The index that the next round writes `whitelist` at, if it writes: `entries` for an id and
`entries - 1` for a divisor. -/
def Parser.index (p : Parser) : Option Int := match p.c with
  | [] => none
  | ch :: _ =>
    if ch.isDigit then
      match p.state with
      | .parseId => some p.entries.length
      | .parseDiv => some (p.entries.length - 1)
      | .parseAfterDiv | .parseAfterId => none
    else none

/-- Source: one round of the loop of `whitelist_notify`, whatever index it writes at. There is no
next round at the end of the text and after a parse error. -/
def Parser.round (ulongBits : Nat) (p : Parser) : Option Parser := match p.c with
  | [] => none
  | ch :: cs =>
    if ch.isDigit then
      let tmp := (strtoul ulongBits 10 (ch :: cs)).1 % 2 ^ 32
      let c' := (strtoul ulongBits 10 (ch :: cs)).2
      match p.state with
      | .parseId => some ⟨.parseAfterId, p.entries ++ [{ id := tmp, div := 1 }], c'⟩
      | .parseDiv => some ⟨.parseAfterDiv, p.entries.modifyLast ({ · with div := tmp }), c'⟩
      | .parseAfterDiv | .parseAfterId => none
    else if ch = '/' then
      if p.state = .parseAfterId then some ⟨.parseDiv, p.entries, cs⟩ else none
    else if ch = ',' then
      if p.state = .parseAfterId ∨ p.state = .parseAfterDiv then some ⟨.parseId, p.entries, cs⟩
      else none
    else if isBlank ch then some ⟨p.state, p.entries, cs⟩
    else none

/-- The rounds of the parser on a setting. -/
def parser (ulongBits : Nat) (wl : List Char) : Machine Parser Unit where
  init := ⟨.parseId, [], wl⟩
  step p _ := p.round ulongBits

/-- Every entry takes at least a digit, and a separator from the next one. -/
structure Parser.Fits (p : Parser) : Prop where
  length_lt : 2 * p.entries.length + p.c.length <
    2 * whitelistLength + if p.state = .parseId then 0 else 1
  entries_ne_nil : p.state ≠ .parseId → p.entries ≠ []

lemma fits_start (ulongBits : Nat) (cfg : PortWhitelistConfig) :
    (parser ulongBits cfg.wl).init.Fits := by
  refine ⟨?_, fun h => absurd rfl h⟩
  simpa [parser, whitelistLength] using cfg.wl_length

variable {p p' : Parser}

/-- A round that adds an entry has used its characters. -/
lemma Parser.Fits.round (h : p.Fits) (hround : p.round ulongBits = some p') : p'.Fits := by
  obtain ⟨state, entries, c⟩ := p
  obtain ⟨hlength, hentries⟩ := h
  unfold Parser.round at hround
  cases c with
  | nil => cases hround
  | cons ch cs =>
    rw [length_cons] at hlength
    simp only at hlength hentries hround
    split_ifs at hround with hdigit hslash hafter hcomma hsep hblank
    · have hrest := @strtoul_length_le ulongBits ch cs hdigit
      cases state with
      | parseId =>
        cases hround
        refine ⟨?_, by simp⟩
        simp at hlength ⊢
        omega
      | parseDiv =>
        cases hround
        obtain ⟨es, e, rfl⟩ := eq_nil_or_concat entries |>.resolve_left (hentries (by simp))
        refine ⟨?_, by simp [modifyLast_concat]⟩
        simp [modifyLast_concat] at hlength ⊢
        omega
      | parseAfterId | parseAfterDiv => cases hround
    · cases hround
      subst hafter
      refine ⟨?_, fun _ => hentries (by simp)⟩
      simp at hlength ⊢
      omega
    · cases hround
      have hne : state ≠ .parseId := by rcases hsep with rfl | rfl <;> simp
      rw [if_neg hne] at hlength
      refine ⟨?_, by simp⟩
      simp
      omega
    · cases hround
      exact ⟨by simp only; omega, hentries⟩

/-- The array is large enough for what the next round writes. -/
lemma Parser.Fits.index_lt (h : p.Fits) {i : Int} (hi : p.index = some i) :
    0 ≤ i ∧ i < whitelistLength := by
  obtain ⟨state, entries, c⟩ := p
  obtain ⟨hlength, hentries⟩ := h
  unfold Parser.index at hi
  cases c with
  | nil => cases hi
  | cons ch cs =>
    simp only [length_cons] at hlength hentries hi
    split_ifs at hi with hdigit
    cases state with
    | parseId =>
      cases hi
      simp at hlength ⊢
      omega
    | parseDiv =>
      cases hi
      have hpos : 0 < entries.length := length_pos_iff.mpr (hentries (by simp))
      simp at hlength ⊢
      omega
    | parseAfterId | parseAfterDiv => cases hi

/-- The parser takes the rounds one after the other. -/
lemma parse_of_round (h : p.Fits) (hround : p.round ulongBits = some p') :
    parse ulongBits p.state p.entries p.c = parse ulongBits p'.state p'.entries p'.c := by
  have hindex : ∀ i, p.index = some i → 0 ≤ i ∧ i < whitelistLength := fun i => h.index_lt
  obtain ⟨state, entries, c⟩ := p
  unfold Parser.round at hround
  unfold Parser.index at hindex
  cases c with
  | nil => cases hround
  | cons ch cs =>
    simp only at hround hindex
    rw [parse]
    split_ifs at hround with hdigit hslash hafter hcomma hsep hblank
    · rw [if_pos hdigit] at hindex
      rw [dif_pos hdigit]
      cases state with
      | parseId =>
        cases hround
        have hlt : entries.length < whitelistLength := by
          have := hindex entries.length rfl
          omega
        exact if_pos hlt
      | parseDiv =>
        cases hround
        exact if_neg (h.entries_ne_nil (by simp))
      | parseAfterId | parseAfterDiv => cases hround
    · cases hround
      rw [dif_neg hdigit, if_pos hslash, if_pos hafter]
    · cases hround
      rw [dif_neg hdigit, if_neg hslash, if_pos hcomma, if_pos hsep]
    · cases hround
      rw [dif_neg hdigit, if_neg hslash, if_neg hcomma, if_pos hblank]

/-- From entries that fit, no round writes past the array. -/
lemma parse_ne_outOfBounds {c : List Char} (h : Parser.Fits ⟨state, entries, c⟩) :
    parse ulongBits state entries c ≠ .outOfBounds := by
  fun_induction parse ulongBits state entries c with
  | case1 | case6 | case7 | case9 | case11 | case13 => simp
  | case2 entries ch cs hdigit tmp c' hlt ih | case5 entries ch cs hdigit tmp c' hne ih =>
    exact ih (@Parser.Fits.round ulongBits _ _ h (by simp [Parser.round, hdigit, tmp, c']))
  | case3 entries ch cs hdigit hlt =>
    have hindex : Parser.index ⟨.parseId, entries, ch :: cs⟩ = some ↑entries.length := if_pos hdigit
    have := h.index_lt hindex
    omega
  | case4 ch cs hdigit => exact absurd rfl (h.entries_ne_nil (by simp))
  | case8 entries cs hdigit ih =>
    exact ih (@Parser.Fits.round ulongBits _ _ h (by simp [Parser.round, hdigit]))
  | case10 state entries cs hstate hdigit hslash ih =>
    exact ih (@Parser.Fits.round ulongBits _ _ h (by simp [Parser.round, hdigit, hstate]))
  | case12 state entries ch cs hdigit hslash hc hblank ih =>
    exact ih (@Parser.Fits.round ulongBits _ _ h
      (by simp [Parser.round, hdigit, hslash, hc, hblank]))

lemma fits_of_reaches {cfg : PortWhitelistConfig} (h : (parser ulongBits cfg.wl).Reaches p) :
    p.Fits :=
  h.invariant (fits_start ulongBits cfg) fun _ _ _ => Parser.Fits.round

/-- In every round of the parser on a setting, the index that is written is one of the array, and
there is an entry where `entries - 1` is used. The rounds are those of `parse`. -/
theorem index_lt_of_reaches (ulongBits : Nat) (cfg : PortWhitelistConfig) {p : Parser}
    (h : (parser ulongBits cfg.wl).Reaches p) :
    (∀ i, p.index = some i → 0 ≤ i ∧ i < whitelistLength) ∧
      (p.state = .parseDiv → 1 ≤ p.entries.length) ∧
      parse ulongBits .parseId [] cfg.wl = parse ulongBits p.state p.entries p.c := by
  have hfits : p.Fits := fits_of_reaches h
  refine ⟨fun i hi => hfits.index_lt hi, ?_, ?_⟩
  · intro hstate
    exact length_pos_iff.mpr (hfits.entries_ne_nil (by simp [hstate]))
  · clear hfits
    induction h with
    | init => rfl
    | step hreaches hround ih => exact ih.trans (parse_of_round (fits_of_reaches hreaches) hround)

/-- The setting `72, 74/2` of a port. -/
def validConfig : PortWhitelistConfig where
  name := "tcp_server0"
  wl := "72, 74/2".toList
  wl_length := by decide
  noNul := by decide

/-- The divisor of the second item is written to the second element. -/
theorem index_lt_of_reaches_validConfig :
    ∃ p, (parser 32 validConfig.wl).Reaches p ∧ p.state = .parseDiv ∧ p.index = some 1 ∧
      (1 : Int) < whitelistLength ∧ 1 ≤ p.entries.length := by
  have hreaches : (parser 32 validConfig.wl).Reaches
      ⟨.parseDiv, [{ id := 72, div := 1 }, { id := 74, div := 1 }], ['2']⟩ :=
    @Machine.reaches_of_run _ _ _ (List.replicate 5 ()) _ (by decide +kernel)
  obtain ⟨hindex, hentries, -⟩ := index_lt_of_reaches 32 validConfig hreaches
  exact ⟨_, hreaches, rfl, rfl, (hindex 1 rfl).2, hentries rfl⟩

/-! ### The filter reads the setting -/

variable {opens : Bool} {files files' : Files} {cfg : PortWhitelistConfig}

lemma whitelistNotify_eq_ok : whitelistNotify ulongBits opens files cfg = some (.ok, files') ↔
      opens ∧ ∃ entries, parse ulongBits .parseId [] cfg.wl = .ok entries ∧ files' =
          Function.update files (filterOutConfig cfg.name) (some (printEntries entries)) := by
  unfold whitelistNotify
  cases hparse : parse ulongBits .parseId [] cfg.wl with
  | outOfBounds | failed => simp
  | ok entries =>
    cases opens with
    | false => simp
    | true => simp [eq_comm]

/-- The pair that a rule is for. -/
def rulePair (r : FilterSbpRule) : Nat × Nat := (r.type.toNat, r.divisor.toNat)

/-- What an accepted setting is read back as: the pairs that it denotes, each number first as an
`unsigned` and then as the field of the rule. -/
lemma rules_of_whitelistNotify (hbits : 32 ≤ ulongBits)
    (h : whitelistNotify ulongBits opens files cfg = some (.ok, files')) :
    (filterSbpLoadConfig ulongBits files' (filterOutConfig cfg.name)).map rulePair =
      (pairs cfg.wl).map fun p =>
        (tokenValue ulongBits p.1 % 65536, tokenValue ulongBits p.2 % 256) := by
  obtain ⟨-, entries, hparse, rfl⟩ := whitelistNotify_eq_ok.mp h
  have hentries : entries = [] ++ (pairs ([] ++ cfg.wl)).map (entryOf ulongBits) :=
    parse_spec hbits rfl (.parseId rfl) not_mem_nil hparse
  have hfile : Function.update files (filterOutConfig cfg.name) (some (printEntries entries))
      (filterOutConfig cfg.name) = some
        (((pairs cfg.wl).map fun p => (tokenValue ulongBits p.1, tokenValue ulongBits p.2)).flatMap
          fun e => printHexPair e.1 e.2) := by
    rw [Function.update_self, hentries, nil_append, nil_append]
    simp [printEntries, flatMap_map, entryOf]
  have hlt : ∀ e ∈ (pairs cfg.wl).map fun p =>
      (tokenValue ulongBits p.1, tokenValue ulongBits p.2), e.1 < 2 ^ 32 ∧ e.2 < 2 ^ 32 := by
    intro e he
    obtain ⟨p, -, rfl⟩ := mem_map.mp he
    exact ⟨Nat.mod_lt _ (by decide), Nat.mod_lt _ (by decide)⟩
  rw [filterSbpLoadConfig_print hbits hlt hfile]
  simp [rulePair, ruleOf, Function.comp_def]

/-- The filter reads the pairs of an accepted setting back exactly if every id is below 65536 and
every divisor below 256. -/
theorem filterSbpLoadConfig_whitelistNotify {ulongBits : Nat} (hbits : 32 ≤ ulongBits)
    {opens : Bool} {files files' : Files} {cfg : PortWhitelistConfig}
    (h : whitelistNotify ulongBits opens files cfg = some (.ok, files')) :
    (filterSbpLoadConfig ulongBits files' (filterOutConfig cfg.name)).map rulePair = pairs cfg.wl ↔
      ∀ p ∈ pairs cfg.wl, p.1 < 65536 ∧ p.2 < 256 := by
  rw [rules_of_whitelistNotify hbits h]
  constructor
  · intro heq p hp
    rw [← heq] at hp
    obtain ⟨q, -, rfl⟩ := mem_map.mp hp
    exact ⟨Nat.mod_lt _ (by decide), Nat.mod_lt _ (by decide)⟩
  · intro hlt
    conv_rhs => rw [← map_id (pairs cfg.wl)]
    apply map_congr_left
    intro p hp
    obtain ⟨hid, hdiv⟩ := hlt p hp
    rw [tokenValue_of_lt hbits (by omega), tokenValue_of_lt hbits (by omega),
      Nat.mod_eq_of_lt hid, Nat.mod_eq_of_lt hdiv]
    rfl

theorem filterSbpLoadConfig_whitelistNotify_validConfig :
    ∃ files', whitelistNotify 32 true (fun _ => none) validConfig = some (.ok, files') ∧
      (filterSbpLoadConfig 32 files' (filterOutConfig validConfig.name)).map rulePair =
        pairs validConfig.wl := by
  have hok : ∃ files', whitelistNotify 32 true (fun _ => none) validConfig = some (.ok, files') :=
    ⟨_, whitelistNotify_eq_ok.mpr
      ⟨rfl, [{ id := 72, div := 1 }, { id := 74, div := 2 }], by decide +kernel, rfl⟩⟩
  obtain ⟨files', hfiles⟩ := hok
  refine ⟨files', hfiles, (filterSbpLoadConfig_whitelistNotify (by decide) hfiles).mpr ?_⟩
  decide +kernel

/-- The setting `65536`, one more than the largest message type. -/
def wideConfig : PortWhitelistConfig where
  name := "tcp_server0"
  wl := "65536".toList
  wl_length := by decide
  noNul := by decide

/-- The setting is accepted for message 65536, and the filter passes message 0. -/
theorem filterSbpLoadConfig_wideConfig :
    ∃ files', whitelistNotify 32 true (fun _ => none) wideConfig = some (.ok, files') ∧
      pairs wideConfig.wl = [(65536, 1)] ∧
      filterSbpLoadConfig 32 files' (filterOutConfig wideConfig.name) =
        [{ type := 0, divisor := 1, counter := 0 }] := by
  refine ⟨_, whitelistNotify_eq_ok.mpr
    ⟨rfl, [{ id := 65536, div := 1 }], by decide +kernel, rfl⟩, ?_, ?_⟩
  · decide +kernel
  · decide +kernel

end PiksiBuildroot.PortsDaemon
