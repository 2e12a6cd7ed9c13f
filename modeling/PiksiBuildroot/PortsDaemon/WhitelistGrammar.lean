import PiksiBuildroot.PortsDaemon.Whitelist

/-!
# The grammar of the setting `enabled_sbp_messages`

A setting is a list of items `id` or `id/div` with commas between them. The parser of
`whitelist_notify` reads the setting token by token (`parse_eq_parseTokens`) and accepts in whatever
state the text ends. So besides the lists of items (`listTokens`) it accepts those that stop after a
comma or after the slash of the last item (`StopsShort`), and a number that does not fit an
`unsigned` is another number in the entry (`acceptsGrammar_iff`).
-/

namespace PiksiBuildroot.PortsDaemon

open Lib CText List

/-! ### The grammar -/

inductive Token where
  | number (n : Nat)
  | slash
  | comma
  | other (c : Char)
  deriving DecidableEq, Repr

/-- The tokens of a text: a run of digits is one number, and white space separates tokens. -/
def tokens (c : List Char) : List Token := match c with
  | [] => []
  | ch :: cs =>
    if ch.isDigit then
      .number (decimal (ch :: cs.takeWhile Char.isDigit)) :: tokens (cs.dropWhile Char.isDigit)
    else if ch = '/' then .slash :: tokens cs
    else if ch = ',' then .comma :: tokens cs
    else if isBlank ch then tokens cs
    else .other ch :: tokens cs
termination_by c.length
decreasing_by
  all_goals
    first
    | exact Nat.lt_succ_self _
    | exact Nat.lt_succ_of_le (dropWhile_sublist Char.isDigit).length_le

/-- An item: an id, and a divisor if there is one. -/
structure Item where
  id : Nat
  div : Option Nat
  deriving DecidableEq, Repr

def Item.tokens : Item → List Token
  | ⟨id, none⟩ => [.number id]
  | ⟨id, some div⟩ => [.number id, .slash, .number div]

/-- The entry that an item stands for. -/
def Item.entry (item : Item) : Entry := ⟨item.id, item.div.getD 1⟩

/-- The tokens of a list of items, with commas between them. -/
def listTokens (items : List Item) : List Token := [Token.comma].intercalate (items.map Item.tokens)

/-- The parser accepts exactly the lists of items, and the entries are the items. -/
structure AcceptsGrammar (ulongBits : Nat) (wl : List Char) : Prop where
  accepts_iff : (∃ entries, parse ulongBits .parseId [] wl = .ok entries) ↔
    ∃ items, tokens wl = listTokens items
  entries_eq : ∀ entries items, parse ulongBits .parseId [] wl = .ok entries →
    tokens wl = listTokens items → entries = items.map Item.entry

/-- A list of items and then a comma, or the slash of its last item, with nothing behind it. -/
def StopsShort (ts : List Token) : Prop :=
  (∃ items, items ≠ [] ∧ ts = listTokens items ++ [.comma]) ∨
    ∃ items id, ts = listTokens (items ++ [⟨id, none⟩]) ++ [.slash]

/-- Items with a comma behind each. -/
def closed (items : List Item) : List Token := items.flatMap fun item => item.tokens ++ [.comma]

lemma closed_cons (item : Item) (items : List Item) :
    closed (item :: items) = item.tokens ++ .comma :: closed items := by
  rw [closed, flatMap_cons, append_assoc]
  rfl

lemma listTokens_concat (items : List Item) (item : Item) :
    listTokens (items ++ [item]) = closed items ++ item.tokens := by
  induction items with
  | nil => simp [listTokens, closed]
  | cons first items ih =>
    obtain ⟨next, rest, hrest⟩ : ∃ next rest, items ++ [item] = next :: rest :=
      exists_cons_of_ne_nil (by simp)
    rw [hrest] at ih
    rw [cons_append, hrest, closed_cons, append_assoc, cons_append, ← ih]
    simp [listTokens, intercalate_cons_cons]

variable {items : List Item}

lemma closed_eq (h : items ≠ []) : closed items = listTokens items ++ [.comma] := by
  obtain ⟨front, last, rfl⟩ := eq_nil_or_concat items |>.resolve_left h
  rw [concat_eq_append, listTokens_concat, closed, flatMap_append]
  simp [closed]

lemma number_mem_listTokens {n : Nat} :
    .number n ∈ listTokens items ↔ ∃ item ∈ items, item.id = n ∨ item.div = some n := by
  have hitem : ∀ item : Item, .number n ∈ item.tokens ↔ item.id = n ∨ item.div = some n := by
    rintro ⟨id, div⟩
    cases div with
    | none | some div => simp [Item.tokens, eq_comm]
  have hclosed : ∀ items : List Item, .number n ∈ closed items ↔
      ∃ item ∈ items, item.id = n ∨ item.div = some n := by
    simp [closed, hitem]
  by_cases hnil : items = []
  · subst hnil
    simp [listTokens]
  · have hmem := hclosed items
    rw [closed_eq hnil] at hmem
    rw [← hmem]
    simp

/-! ### The parser on tokens -/

/-- What `whitelist_notify` does with each token. -/
def parseTokens (ulongBits : Nat) : ParseState → List Entry → List Token → Parsed
  | _, entries, [] => .ok entries
  | .parseId, entries, .number n :: ts =>
    if entries.length < whitelistLength then
      parseTokens ulongBits .parseAfterId (entries ++ [⟨tokenValue ulongBits n, 1⟩]) ts
    else .outOfBounds
  | .parseDiv, entries, .number n :: ts =>
    if entries = [] then .outOfBounds
    else parseTokens ulongBits .parseAfterDiv
      (entries.modifyLast ({ · with div := tokenValue ulongBits n })) ts
  | .parseAfterId, entries, .slash :: ts => parseTokens ulongBits .parseDiv entries ts
  | .parseAfterId, entries, .comma :: ts => parseTokens ulongBits .parseId entries ts
  | .parseAfterDiv, entries, .comma :: ts => parseTokens ulongBits .parseId entries ts
  | _, _, _ :: _ => .failed

lemma parseTokens_nil (ulongBits : Nat) (state : ParseState) (entries : List Entry) :
    parseTokens ulongBits state entries [] = .ok entries := by
  cases state <;> rfl

/-- A token at a digit: its number, and what `strtoul` leaves. -/
lemma tokens_digit (ulongBits : Nat) {ch : Char} (h : ch.isDigit) (cs : List Char) :
    ∃ n, tokens (ch :: cs) = .number n :: tokens (strtoul ulongBits 10 (ch :: cs)).2 ∧
      (strtoul ulongBits 10 (ch :: cs)).1 % 2 ^ 32 = tokenValue ulongBits n := by
  refine ⟨decimal (ch :: cs.takeWhile Char.isDigit), ?_, ?_⟩
  · rw [tokens, if_pos h, strtoul_ten cs h]
  · rw [strtoul_ten cs h]
    rfl

/-- The parser works on the tokens of its text. -/
theorem parse_eq_parseTokens (ulongBits : Nat) (state : ParseState) (entries : List Entry)
    (c : List Char) :
    parse ulongBits state entries c = parseTokens ulongBits state entries (tokens c) := by
  fun_induction parse ulongBits state entries c with
  | case1 state entries => rw [tokens, parseTokens_nil]
  | case2 entries ch cs hdigit tmp c' =>
    rename_i hlt ih
    obtain ⟨n, htokens, hn⟩ := tokens_digit ulongBits hdigit cs
    rw [htokens, parseTokens, if_pos hlt, ← hn]
    exact ih
  | case3 entries ch cs hdigit hlt =>
    obtain ⟨n, htokens, -⟩ := tokens_digit ulongBits hdigit cs
    rw [htokens, parseTokens, if_neg hlt]
  | case4 ch cs hdigit =>
    obtain ⟨n, htokens, -⟩ := tokens_digit ulongBits hdigit cs
    rw [htokens, parseTokens, if_pos rfl]
  | case5 entries ch cs hdigit tmp c' =>
    rename_i hne ih
    obtain ⟨n, htokens, hn⟩ := tokens_digit ulongBits hdigit cs
    rw [htokens, parseTokens, if_neg hne, ← hn]
    exact ih
  | case6 entries ch cs hdigit | case7 entries ch cs hdigit =>
    obtain ⟨n, htokens, -⟩ := tokens_digit ulongBits hdigit cs
    rw [htokens, parseTokens]
    all_goals simp
  | case8 entries cs hdigit ih =>
    rw [tokens, if_neg hdigit, if_pos rfl, parseTokens, ih]
  | case9 state entries cs hstate hdigit =>
    rw [tokens, if_neg hdigit, if_pos rfl]
    cases state with
    | parseAfterId => exact absurd rfl hstate
    | parseId | parseDiv | parseAfterDiv => rfl
  | case10 state entries cs hstate hdigit hslash ih =>
    rw [tokens, if_neg hdigit, if_neg hslash, if_pos rfl, ih]
    obtain rfl | rfl := hstate
    · rfl
    · rfl
  | case11 state entries cs hstate hdigit hslash =>
    rw [tokens, if_neg hdigit, if_neg hslash, if_pos rfl]
    cases state with
    | parseAfterId => exact absurd (Or.inl rfl) hstate
    | parseAfterDiv => exact absurd (Or.inr rfl) hstate
    | parseId | parseDiv => rfl
  | case12 state entries ch cs hdigit hslash hcomma hblank ih =>
    rw [tokens, if_neg hdigit, if_neg hslash, if_neg hcomma, if_pos hblank, ih]
  | case13 state entries ch cs hdigit hslash hcomma hblank =>
    rw [tokens, if_neg hdigit, if_neg hslash, if_neg hcomma, if_neg hblank]
    cases state <;> rfl

/-! ### The texts that are accepted -/

/-- The entry that the parser makes for an item. -/
def Item.stored (ulongBits : Nat) (item : Item) : Entry :=
  ⟨tokenValue ulongBits item.id, item.div.elim 1 (tokenValue ulongBits)⟩

/-- The state behind an item. -/
def Item.stateAfter (item : Item) : ParseState :=
  item.div.elim .parseAfterId fun _ => .parseAfterDiv

/-- An item is read, or the array is full. -/
lemma parseTokens_item (ulongBits : Nat) (entries : List Entry) (item : Item) (ts : List Token) :
    parseTokens ulongBits .parseId entries (item.tokens ++ ts) =
        parseTokens ulongBits item.stateAfter (entries ++ [item.stored ulongBits]) ts ∨
      parseTokens ulongBits .parseId entries (item.tokens ++ ts) = .outOfBounds := by
  obtain ⟨id, div⟩ := item
  by_cases hroom : entries.length < whitelistLength
  · left
    cases div with
    | none =>
      rw [Item.tokens, singleton_append, parseTokens, if_pos hroom]
      rfl
    | some div =>
      rw [Item.tokens, cons_append, cons_append, singleton_append, parseTokens,
        if_pos hroom, parseTokens, parseTokens, if_neg (by simp), modifyLast_concat]
      rfl
  · right
    cases div with
    | none => rw [Item.tokens, singleton_append, parseTokens, if_neg hroom]
    | some div => rw [Item.tokens, cons_append, parseTokens, if_neg hroom]

lemma parseTokens_comma (ulongBits : Nat) (item : Item) (entries : List Entry)
    (ts : List Token) :
    parseTokens ulongBits item.stateAfter entries (.comma :: ts) =
      parseTokens ulongBits .parseId entries ts := by
  obtain ⟨id, div⟩ := item
  cases div with
  | none | some div => rfl

/-- Items with a comma behind each are read, or the array gets full. -/
lemma parseTokens_closed (ulongBits : Nat) (entries : List Entry) (items : List Item)
    (ts : List Token) :
    parseTokens ulongBits .parseId entries (closed items ++ ts) =
        parseTokens ulongBits .parseId (entries ++ items.map (Item.stored ulongBits)) ts ∨
      parseTokens ulongBits .parseId entries (closed items ++ ts) = .outOfBounds := by
  induction items generalizing entries with
  | nil => exact Or.inl (by rw [map_nil, append_nil]; rfl)
  | cons item items ih =>
    rw [closed_cons, append_assoc, cons_append]
    obtain hitem | hfull := parseTokens_item ulongBits entries item (.comma :: (closed items ++ ts))
    · have hrest := ih (entries ++ [item.stored ulongBits])
      rw [append_assoc, singleton_append] at hrest
      rw [hitem, parseTokens_comma]
      exact hrest
    · exact Or.inr hfull

/-- The parser accepts in the middle of a list as well. -/
inductive Accepted : List Token → Prop
  | closed (items : List Item) : Accepted (closed items)
  | list (items : List Item) (item : Item) : Accepted (PortsDaemon.closed items ++ item.tokens)
  | slash (items : List Item) (id : Nat) :
      Accepted (PortsDaemon.closed items ++ [.number id, .slash])

variable {ts : List Token}

lemma Accepted.cons (h : Accepted ts) (item : Item) : Accepted (item.tokens ++ .comma :: ts) := by
  cases h with
  | closed items =>
    rw [← closed_cons]
    exact .closed (item :: items)
  | list items last =>
    rw [← cons_append, ← append_assoc, ← closed_cons]
    exact .list (item :: items) last
  | slash items id =>
    rw [← cons_append, ← append_assoc, ← closed_cons]
    exact .slash (item :: items) id

/-- The tokens of the current item in a state. -/
def pending (id div : Nat) : ParseState → List Token
  | .parseId => []
  | .parseAfterId => [.number id]
  | .parseDiv => [.number id, .slash]
  | .parseAfterDiv => [.number id, .slash, .number div]

variable {ulongBits : Nat}

/-- What is accepted from a state on, behind the tokens of an item that lead to it. -/
lemma accepted_of_parseTokens {state : ParseState} {entries result : List Entry}
    (h : parseTokens ulongBits state entries ts = .ok result) (id div : Nat) :
    Accepted (pending id div state ++ ts) := by
  fun_induction parseTokens ulongBits state entries ts generalizing id div with
  | case1 state entries =>
    cases state with
    | parseId => exact .closed []
    | parseAfterId => exact .list [] ⟨id, none⟩
    | parseDiv => exact .slash [] id
    | parseAfterDiv => exact .list [] ⟨id, some div⟩
  | case2 entries n ts hroom ih => exact ih h n div
  | case3 | case4 | case9 => cases h
  | case5 entries n ts hne ih => exact ih h id n
  | case6 entries ts ih => exact ih h id div
  | case7 entries ts ih => exact (ih h id div).cons ⟨id, none⟩
  | case8 entries ts ih => exact (ih h id div).cons ⟨id, some div⟩

/-- Without an access outside the array the parser accepts exactly these tokens. -/
lemma exists_parseTokens_iff (h : parseTokens ulongBits .parseId [] ts ≠ .outOfBounds) :
    (∃ entries, parseTokens ulongBits .parseId [] ts = .ok entries) ↔ Accepted ts := by
  constructor
  · rintro ⟨entries, hok⟩
    exact accepted_of_parseTokens hok 0 0
  · intro haccepted
    cases haccepted with
    | closed items =>
      have hread := (parseTokens_closed ulongBits [] items []).resolve_right
        (by rwa [append_nil])
      rw [append_nil, parseTokens_nil] at hread
      exact ⟨_, hread⟩
    | list items item =>
      have hread := (parseTokens_closed ulongBits [] items item.tokens).resolve_right h
      rw [hread] at h ⊢
      have hlast := parseTokens_item ulongBits ([] ++ items.map (Item.stored ulongBits)) item []
      rw [append_nil] at hlast
      rw [hlast.resolve_right h, parseTokens_nil]
      exact ⟨_, rfl⟩
    | slash items id =>
      have hread := (parseTokens_closed ulongBits [] items [.number id, .slash]).resolve_right h
      rw [hread] at h ⊢
      have hlast := parseTokens_item ulongBits ([] ++ items.map (Item.stored ulongBits))
        ⟨id, none⟩ [.slash]
      rw [show Item.tokens ⟨id, none⟩ ++ [.slash] = [.number id, .slash] from rfl] at hlast
      rw [hlast.resolve_right h]
      exact ⟨_, rfl⟩

/-- What the parser makes of a list of items. -/
lemma parseTokens_listTokens
    (h : parseTokens ulongBits .parseId [] (listTokens items) ≠ .outOfBounds) :
    parseTokens ulongBits .parseId [] (listTokens items) =
      .ok (items.map (Item.stored ulongBits)) := by
  by_cases hnil : items = []
  · subst hnil
    rfl
  · obtain ⟨front, last, rfl⟩ := eq_nil_or_concat items |>.resolve_left hnil
    rw [concat_eq_append, listTokens_concat] at h ⊢
    have hread := (parseTokens_closed ulongBits [] front last.tokens).resolve_right h
    rw [hread] at h ⊢
    have hlast := parseTokens_item ulongBits ([] ++ front.map (Item.stored ulongBits)) last []
    rw [append_nil] at hlast
    rw [hlast.resolve_right h, parseTokens_nil, nil_append, map_append]
    rfl

/-- What is accepted is a list or stops short of one. -/
lemma accepted_iff : Accepted ts ↔ (∃ items, ts = listTokens items) ∨ StopsShort ts := by
  constructor
  · intro h
    cases h with
    | closed items =>
      by_cases hnil : items = []
      · exact Or.inl ⟨[], by rw [hnil]; rfl⟩
      · exact Or.inr (Or.inl ⟨items, hnil, closed_eq hnil⟩)
    | list items item => exact Or.inl ⟨items ++ [item], (listTokens_concat items item).symm⟩
    | slash items id =>
      refine Or.inr (Or.inr ⟨items, id, ?_⟩)
      rw [listTokens_concat, append_assoc]
      rfl
  · rintro (⟨items, rfl⟩ | ⟨items, hne, rfl⟩ | ⟨items, id, rfl⟩)
    · by_cases hnil : items = []
      · rw [hnil]
        exact .closed []
      · obtain ⟨front, last, rfl⟩ := eq_nil_or_concat items |>.resolve_left hnil
        rw [concat_eq_append, listTokens_concat]
        exact .list front last
    · rw [← closed_eq hne]
      exact .closed items
    · rw [listTokens_concat, append_assoc]
      exact .slash items id

/-- A list of items ends in a number. -/
lemma not_stopsShort_listTokens (items : List Item) : ¬StopsShort (listTokens items) := by
  have hlast : ∀ t ∈ (listTokens items).getLast?, ∃ n, t = .number n := by
    intro t ht
    by_cases hnil : items = []
    · subst hnil
      cases ht
    · obtain ⟨front, last, rfl⟩ := eq_nil_or_concat items |>.resolve_left hnil
      rw [concat_eq_append, listTokens_concat] at ht
      obtain ⟨id, div⟩ := last
      cases div with
      | none =>
        rw [Item.tokens, getLast?_concat] at ht
        exact ⟨id, (Option.some_inj.mp ht).symm⟩
      | some div =>
        rw [Item.tokens, append_cons, append_cons, getLast?_concat] at ht
        exact ⟨div, (Option.some_inj.mp ht).symm⟩
  rintro (⟨others, -, hothers⟩ | ⟨others, id, hothers⟩)
  · rw [hothers, getLast?_concat] at hlast
    obtain ⟨n, hn⟩ := hlast .comma rfl
    cases hn
  · rw [hothers, getLast?_concat] at hlast
    obtain ⟨n, hn⟩ := hlast .slash rfl
    cases hn

lemma tokenValue_eq_iff {ulongBits n : Nat} (hbits : 32 ≤ ulongBits) :
    tokenValue ulongBits n = n ↔ n < 2 ^ 32 := by
  constructor
  · intro h
    rw [← h]
    exact Nat.mod_lt _ (by decide)
  · exact tokenValue_of_lt hbits

/-- The entry for an item is the item if its numbers are values of an `unsigned`. -/
lemma stored_eq_entry_iff (hbits : 32 ≤ ulongBits) (item : Item) :
    item.stored ulongBits = item.entry ↔ ∀ n, item.id = n ∨ item.div = some n → n < 2 ^ 32 := by
  obtain ⟨id, div⟩ := item
  cases div with
  | none => simp [Item.stored, Item.entry, tokenValue_eq_iff hbits]
  | some div => simp [Item.stored, Item.entry, tokenValue_eq_iff hbits, or_imp, forall_and]

/-- For every setting of a port: the parser accepts exactly the grammar and reads the items exactly
if the setting does not stop after a comma or a slash and, where it is a list of items, has only
numbers that fit an `unsigned`. -/
theorem acceptsGrammar_iff {ulongBits : Nat} (hbits : 32 ≤ ulongBits) (cfg : PortWhitelistConfig) :
    AcceptsGrammar ulongBits cfg.wl ↔ ¬StopsShort (tokens cfg.wl) ∧
        ((∃ items, tokens cfg.wl = listTokens items) →
          ∀ n, .number n ∈ tokens cfg.wl → n < 2 ^ 32) := by
  have hbounds : parse ulongBits .parseId [] cfg.wl ≠ .outOfBounds :=
    parse_ne_outOfBounds (fits_start ulongBits cfg)
  rw [parse_eq_parseTokens] at hbounds
  have haccepts := exists_parseTokens_iff hbounds
  rw [accepted_iff] at haccepts
  constructor
  · intro hgrammar
    have hiff := hgrammar.accepts_iff
    rw [parse_eq_parseTokens, haccepts] at hiff
    refine ⟨fun hshort => ?_, ?_⟩
    · obtain ⟨items, hitems⟩ := hiff.mp (Or.inr hshort)
      exact not_stopsShort_listTokens items (hitems ▸ hshort)
    · rintro ⟨items, hitems⟩ n hn
      rw [hitems] at hbounds
      have hread := parseTokens_listTokens hbounds
      rw [← hitems, ← parse_eq_parseTokens] at hread
      have hstored := hgrammar.entries_eq _ items hread hitems
      rw [hitems, number_mem_listTokens] at hn
      obtain ⟨item, hitem, hnumber⟩ := hn
      exact (stored_eq_entry_iff hbits item).mp (map_inj_left.mp hstored item hitem) n hnumber
  · rintro ⟨hshort, hnumbers⟩
    refine ⟨?_, ?_⟩
    · rw [parse_eq_parseTokens, haccepts]
      exact or_iff_left hshort
    · intro entries items hok hitems
      rw [parse_eq_parseTokens, hitems] at hok
      rw [hitems] at hbounds
      rw [parseTokens_listTokens hbounds] at hok
      obtain rfl := Parsed.ok.inj hok
      refine map_inj_left.mpr fun item hitem => (stored_eq_entry_iff hbits item).mpr ?_
      intro n hnumber
      apply hnumbers ⟨items, hitems⟩ n
      rw [hitems, number_mem_listTokens]
      exact ⟨item, hitem, hnumber⟩

theorem acceptsGrammar_iff_validConfig : AcceptsGrammar 32 validConfig.wl := by
  have htokens : tokens validConfig.wl = listTokens [⟨72, none⟩, ⟨74, some 2⟩] := by
    decide +kernel
  rw [acceptsGrammar_iff (by decide) validConfig, htokens]
  refine ⟨not_stopsShort_listTokens _, fun _ n hn => ?_⟩
  rw [number_mem_listTokens] at hn
  obtain ⟨item, hitem, hnumber⟩ := hn
  simp only [mem_cons, not_mem_nil, or_false] at hitem
  obtain rfl | rfl := hitem
  · simp at hnumber
    omega
  · simp at hnumber
    omega

/-- The setting `72,` of a port. -/
def trailingComma : PortWhitelistConfig where
  name := "tcp_server0"
  wl := "72,".toList
  wl_length := by decide
  noNul := by decide

/-- The setting stops after its comma, and is accepted. So is one that stops after a slash, and of a
number that is too large another one is kept. -/
theorem not_acceptsGrammar_trailingComma : parse 32 .parseId [] trailingComma.wl = .ok [⟨72, 1⟩] ∧
      tokens trailingComma.wl = [.number 72, .comma] ∧
      ¬AcceptsGrammar 32 trailingComma.wl ∧
      parse 32 .parseId [] "72/".toList = .ok [⟨72, 1⟩] ∧
      parse 32 .parseId [] "4294967296".toList = .ok [⟨4294967295, 1⟩] := by
  have hok : parse 32 .parseId [] trailingComma.wl = .ok [⟨72, 1⟩] := by decide +kernel
  have htokens : tokens trailingComma.wl = [.number 72, .comma] := by decide +kernel
  refine ⟨hok, htokens, fun hgrammar => ?_, by decide +kernel, by decide +kernel⟩
  obtain ⟨items, hitems⟩ := hgrammar.accepts_iff.mp ⟨_, hok⟩
  have hshort : StopsShort (listTokens items) := by
    rw [← hitems, htokens]
    exact Or.inl ⟨[⟨72, none⟩], by decide, rfl⟩
  exact not_stopsShort_listTokens items hshort

end PiksiBuildroot.PortsDaemon
