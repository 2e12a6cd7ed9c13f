import PiksiBuildroot.Lib.FallibleMap
import PiksiBuildroot.Lib.Machine
import PiksiBuildroot.SbpProtocol.FilterConfig

/-!
# The messages that the SBP filter passes

`filter_process` looks for the first rule with the type of a message and counts the message there;
each time the counter gets to the rule's divisor it begins again, and the message passes. `Session`
keeps, beside the filter, the rules of the last load and the verdicts since then
(`decimates_of_reaches`).
-/

namespace PiksiBuildroot.SbpProtocol

open Lib List Option

/-- What `filter_process` returns: 0 to pass the message, 1 to reject it. -/
inductive FilterResult where
  | pass
  | reject
  deriving DecidableEq, Repr

/-- Source: `SBP_MSG_SIZE_MIN`. -/
def sbpMsgSizeMin : Nat := 6

/-- Source: `process_rule`. -/
def processRule (rule : FilterSbpRule) : FilterSbpRule × FilterResult :=
  if rule.divisor = 0 then (rule, .reject)
  else if rule.counter + 1 ≥ rule.divisor then ({ rule with counter := 0 }, .pass)
  else ({ rule with counter := rule.counter + 1 }, .reject)

/-- The two bytes behind the preamble, in little endian. Source: `msg_type` of `filter_process`. -/
def msgType (msg : List UInt8) : UInt16 :=
  .ofNat ((msg.getD 1 0).toNat + 256 * (msg.getD 2 0).toNat)

/-- The loop over the rules. Source: `filter_process`. -/
def searchRules : List FilterSbpRule → UInt16 → List FilterSbpRule × FilterResult
  | [], _ => ([], .reject)
  | rule :: rules, type =>
    if rule.type = type then ((processRule rule).1 :: rules, (processRule rule).2)
    else (rule :: (searchRules rules type).1, (searchRules rules type).2)

/-- Source: `filter_sbp_state_t`. -/
structure FilterSbpState where
  rules : List FilterSbpRule
  configFile : String

/-- A call of the filter: whether `read` returns an event of the configuration file, the files at
that time and the message. -/
structure FilterCall where
  changed : Bool
  files : Files
  msg : List UInt8

/-- The rules that a call goes on with. -/
def reload (ulongBits : Nat) (s : FilterSbpState) (call : FilterCall) : FilterSbpState :=
  if call.changed then { s with rules := filterSbpLoadConfig ulongBits call.files s.configFile }
  else s

/-- Source: `filter_process`, behind the reload of the configuration. -/
def filterMessage (s : FilterSbpState) (msg : List UInt8) : FilterSbpState × FilterResult :=
  if s.rules.length = 0 then (s, .pass)
  else if msg.length < sbpMsgSizeMin then (s, .reject)
  else ({ s with rules := (searchRules s.rules (msgType msg)).1 },
    (searchRules s.rules (msgType msg)).2)

/-- Source: `filter_process`. -/
def filterProcess (ulongBits : Nat) (s : FilterSbpState) (call : FilterCall) :
    FilterSbpState × FilterResult :=
  filterMessage (reload ulongBits s call) call.msg

/-! ### What a filter does between two loads -/

/-- A filter, the rules that were loaded last and, since then, the types of the messages of at least
six bytes with their verdicts. -/
structure Session where
  state : FilterSbpState
  loaded : List FilterSbpRule
  log : List (UInt16 × FilterResult)

/-- The session after a call of `filter_process`. -/
def Session.call (ulongBits : Nat) (s : Session) (call : FilterCall) : Session :=
  { state := (filterProcess ulongBits s.state call).1
    loaded := if call.changed then (reload ulongBits s.state call).rules else s.loaded
    log := (if call.changed then [] else s.log) ++ if call.msg.length < sbpMsgSizeMin then []
      else [(msgType call.msg, (filterProcess ulongBits s.state call).2)] }

/-- Calls of a filter that has loaded some rules. -/
def calls (ulongBits : Nat) (configFile : String) (rules : List FilterSbpRule) :
    Machine Session FilterCall where
  init := ⟨⟨rules, configFile⟩, rules, []⟩
  step s call := some (s.call ulongBits call)

/-- The verdict on the `n`-th message of a type since the rules were loaded. -/
def verdict (loaded : List FilterSbpRule) (type : UInt16) (n : Nat) : FilterResult :=
  match loaded.find? (·.type = type) with
  | none => .reject
  | some rule =>
    if 0 < rule.divisor.toNat ∧ rule.divisor.toNat ∣ n then .pass else .reject

/-- The verdicts on the messages of a type. -/
def verdictsOf (type : UInt16) (log : List (UInt16 × FilterResult)) : List FilterResult :=
  (log.filter (·.1 = type)).map Prod.snd

/-- Of every type, the first message had verdict 1, the second verdict 2, and so on. -/
def Decimates (loaded : List FilterSbpRule) (log : List (UInt16 × FilterResult)) : Prop :=
  ∀ type, verdictsOf type log =
    (List.range (verdictsOf type log).length).map fun k => verdict loaded type (k + 1)

/-! ### The counter of a rule -/

/-- A rule after `n` messages. -/
def FilterSbpRule.after (rule : FilterSbpRule) (n : Nat) : FilterSbpRule := { rule with
    counter := if rule.divisor.toNat = 0 then 0 else .ofNat (n % rule.divisor.toNat) }

variable {rule : FilterSbpRule}

lemma FilterSbpRule.after_zero (h : rule.counter = 0) : rule.after 0 = rule := by
  have hcounter : (if rule.divisor.toNat = 0 then (0 : UInt8)
      else .ofNat (0 % rule.divisor.toNat)) = rule.counter := by
    rw [h, Nat.zero_mod]
    exact ite_self 0
  unfold FilterSbpRule.after
  rw [hcounter]

/-- One more message: the counter neither wraps nor gets to the divisor. -/
lemma processRule_after (rule : FilterSbpRule) (n : Nat) : processRule (rule.after n) =
      (rule.after (n + 1),
        if 0 < rule.divisor.toNat ∧ rule.divisor.toNat ∣ n + 1 then .pass else .reject) := by
  have hdivisor := rule.divisor.toNat_lt
  by_cases hzero : rule.divisor.toNat = 0
  · have hdivisor0 : rule.divisor = 0 := UInt8.toNat_inj.mp hzero
    unfold processRule FilterSbpRule.after
    simp only [hdivisor0]
    rfl
  · have hne : rule.divisor ≠ 0 := fun h => hzero (congrArg UInt8.toNat h)
    have hmod : n % rule.divisor.toNat < rule.divisor.toNat := Nat.mod_lt _ (by omega)
    have hcounter : (UInt8.ofNat (n % rule.divisor.toNat) + 1).toNat =
        n % rule.divisor.toNat + 1 := by
      have hsmall : n % rule.divisor.toNat + 1 < 256 := by omega
      rw [UInt8.toNat_add, UInt8.toNat_ofNat_of_lt' (Nat.lt_of_succ_lt hsmall)]
      exact Nat.mod_eq_of_lt hsmall
    have hcount : UInt8.ofNat (n % rule.divisor.toNat) + 1 =
        UInt8.ofNat (n % rule.divisor.toNat + 1) := by
      rw [← hcounter, UInt8.ofNat_toNat]
    unfold processRule FilterSbpRule.after
    simp only [if_neg hzero, if_neg hne, ge_iff_le, UInt8.le_iff_toNat_le, hcounter]
    by_cases hfull : rule.divisor.toNat ≤ n % rule.divisor.toNat + 1
    · have hlast : n % rule.divisor.toNat + 1 = rule.divisor.toNat := by omega
      have hdvd : (n + 1) % rule.divisor.toNat = 0 := by
        rw [← Nat.mod_add_mod, hlast, Nat.mod_self]
      rw [if_pos hfull, if_pos ⟨by omega, Nat.dvd_of_mod_eq_zero hdvd⟩, hdvd]
      rfl
    · have hnext : (n + 1) % rule.divisor.toNat = n % rule.divisor.toNat + 1 := by
        rw [← Nat.mod_add_mod, Nat.mod_eq_of_lt (by omega)]
      have hndvd : ¬(0 < rule.divisor.toNat ∧ rule.divisor.toNat ∣ n + 1) := by
        rintro ⟨-, hdvd⟩
        omega
      rw [if_neg hfull, if_neg hndvd, hnext, hcount]

lemma type_processRule (rule : FilterSbpRule) : (processRule rule).1.type = rule.type := by
  unfold processRule
  split_ifs
  · rfl
  · rfl
  · rfl

/-! ### The search for a rule -/

lemma length_searchRules (rules : List FilterSbpRule) (type : UInt16) :
    (searchRules rules type).1.length = rules.length := by
  induction rules with
  | nil => rfl
  | cons rule rules ih =>
    unfold searchRules
    split_ifs
    · rfl
    · exact congrArg (· + 1) ih

/-- The first rule of the type counts the message, and without one it is rejected. -/
lemma searchRules_snd (rules : List FilterSbpRule) (type : UInt16) : (searchRules rules type).2 =
      ((rules.find? (·.type = type)).map fun rule => (processRule rule).2).getD .reject := by
  induction rules with
  | nil => rfl
  | cons rule rules ih =>
    unfold searchRules
    by_cases htype : rule.type = type
    · rw [if_pos htype, find?_cons_of_pos (by simpa using htype)]
      rfl
    · rw [if_neg htype, find?_cons_of_neg (by simpa using htype)]
      exact ih

lemma find_searchRules (rules : List FilterSbpRule) (type : UInt16) :
    (searchRules rules type).1.find? (·.type = type) =
      (rules.find? (·.type = type)).map fun rule => (processRule rule).1 := by
  induction rules with
  | nil => rfl
  | cons rule rules ih =>
    unfold searchRules
    by_cases htype : rule.type = type
    · rw [if_pos htype, find?_cons_of_pos (by simpa [type_processRule] using htype),
        find?_cons_of_pos (by simpa using htype)]
      rfl
    · rw [if_neg htype, find?_cons_of_neg (by simpa using htype),
        find?_cons_of_neg (by simpa using htype)]
      exact ih

variable {type other : UInt16}

/-- The rules of other types stay as they are. -/
lemma find_searchRules_of_ne (rules : List FilterSbpRule) (hne : other ≠ type) :
    (searchRules rules type).1.find? (·.type = other) = rules.find? (·.type = other) := by
  induction rules with
  | nil => rfl
  | cons rule rules ih =>
    unfold searchRules
    by_cases htype : rule.type = type
    · have hother : rule.type ≠ other := fun h => hne (h.symm.trans htype)
      rw [if_pos htype, find?_cons_of_neg (by simpa [type_processRule] using hother),
        find?_cons_of_neg (by simpa using hother)]
    · rw [if_neg htype, find?_cons, find?_cons, ih]

/-! ### Whole runs -/

lemma verdictsOf_append (log : List (UInt16 × FilterResult)) (type : UInt16)
    (result : FilterResult) :
    verdictsOf type (log ++ [(type, result)]) = verdictsOf type log ++ [result] := by
  simp [verdictsOf]

lemma verdictsOf_append_of_ne (log : List (UInt16 × FilterResult)) (hne : other ≠ type)
    (result : FilterResult) :
    verdictsOf other (log ++ [(type, result)]) = verdictsOf other log := by
  simp [verdictsOf, hne.symm]

/-- The counters are those after the messages in the log, and the log is as it should be. -/
structure Session.Counts (s : Session) : Prop where
  length_eq : s.state.rules.length = s.loaded.length
  find_eq : s.loaded ≠ [] → ∀ type, s.state.rules.find? (·.type = type) =
    (s.loaded.find? (·.type = type)).map fun rule => rule.after (verdictsOf type s.log).length
  decimates : s.loaded ≠ [] → Decimates s.loaded s.log

lemma counts_of_loaded {state : FilterSbpState} (h : ∀ rule ∈ state.rules, rule.counter = 0) :
    Session.Counts ⟨state, state.rules, []⟩ where
  length_eq := rfl
  find_eq _ type := by
    cases hfind : state.rules.find? (·.type = type) with
    | none => rfl
    | some rule =>
      have hrule := FilterSbpRule.after_zero (h rule (mem_of_find?_eq_some hfind))
      exact congrArg some hrule.symm
  decimates _ type := rfl

variable {ulongBits : Nat}

lemma counter_of_parseRule {line : List Char} (h : parseRule ulongBits line = some rule) :
    rule.counter = 0 := by
  unfold parseRule at h
  simp only [bind_eq_bind, bind_eq_some_iff] at h
  obtain ⟨pair, -, hrule⟩ := h
  cases hrule
  rfl

/-- Every rule of a file begins to count at zero. -/
lemma counter_of_filterSbpLoadConfig {files : Files} {configFile : String} :
    ∀ rule ∈ filterSbpLoadConfig ulongBits files configFile, rule.counter = 0 := by
  intro rule hmem
  unfold filterSbpLoadConfig at hmem
  cases hfile : files configFile with
  | none =>
    rw [hfile] at hmem
    cases hmem
  | some text =>
    rw [hfile] at hmem
    dsimp only at hmem
    cases hrules : (CText.lines 256 (by decide) text).mapM (parseRule ulongBits) with
    | none =>
      rw [hrules] at hmem
      cases hmem
    | some rules =>
      rw [hrules] at hmem
      obtain ⟨line, -, hparse⟩ := exists_of_mem_mapM hrules hmem
      exact counter_of_parseRule hparse

/-- The session when a call comes to its message. -/
def Session.reload (ulongBits : Nat) (s : Session) (call : FilterCall) : Session :=
  if call.changed then
    ⟨SbpProtocol.reload ulongBits s.state call,
      (SbpProtocol.reload ulongBits s.state call).rules, []⟩
  else s

/-- The session after the message. -/
def Session.message (s : Session) (msg : List UInt8) : Session :=
  { state := (filterMessage s.state msg).1
    loaded := s.loaded
    log := s.log ++
      if msg.length < sbpMsgSizeMin then [] else [(msgType msg, (filterMessage s.state msg).2)] }

lemma Session.call_eq (ulongBits : Nat) (s : Session) (call : FilterCall) :
    s.call ulongBits call = (s.reload ulongBits call).message call.msg := by
  unfold Session.call Session.reload filterProcess SbpProtocol.reload
  cases call.changed with
  | false | true => rfl

variable {s : Session}

lemma Session.Counts.reload (h : s.Counts) (ulongBits : Nat) (call : FilterCall) :
    (s.reload ulongBits call).Counts := by
  unfold Session.reload
  split_ifs with hchanged
  · apply counts_of_loaded
    unfold SbpProtocol.reload
    rw [if_pos hchanged]
    exact counter_of_filterSbpLoadConfig
  · exact h

/-- The verdict on a message is the next one of its type. -/
lemma Session.Counts.verdict_eq (h : s.Counts) (hloaded : s.loaded ≠ []) (type : UInt16) :
    (searchRules s.state.rules type).2 =
      verdict s.loaded type ((verdictsOf type s.log).length + 1) := by
  rw [searchRules_snd, h.find_eq hloaded type, verdict]
  cases s.loaded.find? (·.type = type) with
  | none => rfl
  | some rule =>
    simp only [map_some, getD_some, processRule_after]

/-- A message moves the counter of the first rule of its type on, and no other. -/
lemma Session.Counts.message (h : s.Counts) (msg : List UInt8) : (s.message msg).Counts := by
  unfold Session.message filterMessage
  by_cases hnone : s.state.rules.length = 0
  · -- without rules nothing is said about the verdicts
    have hloaded : s.loaded = [] := length_eq_zero_iff.mp (h.length_eq.symm.trans hnone)
    rw [if_pos hnone]
    exact ⟨h.length_eq, fun hne => absurd hloaded hne, fun hne => absurd hloaded hne⟩
  rw [if_neg hnone]
  by_cases hshort : msg.length < sbpMsgSizeMin
  · rw [if_pos hshort, if_pos hshort, append_nil]
    exact h
  rw [if_neg hshort, if_neg hshort]
  generalize msgType msg = type
  refine ⟨(length_searchRules _ _).trans h.length_eq, fun hne other => ?_, fun hne other => ?_⟩
  · by_cases hother : other = type
    · subst hother
      rw [find_searchRules, h.find_eq hne, verdictsOf_append, Option.map_map, length_append]
      congr 1
      funext rule
      exact congrArg Prod.fst (processRule_after rule _)
    · rw [find_searchRules_of_ne _ hother, verdictsOf_append_of_ne _ hother]
      exact h.find_eq hne other
  · by_cases hother : other = type
    · subst hother
      rw [verdictsOf_append, length_append, length_singleton, range_succ,
        map_append, ← h.decimates hne other, h.verdict_eq hne]
      rfl
    · rw [verdictsOf_append_of_ne _ hother]
      exact h.decimates hne other

/-- Over all calls of a filter with any rules, and with loads of the configuration in between: since
the last load that gave rules, the `n`-th message of a type passes exactly if the first rule of the
type has a divisor that is not zero and divides `n`. -/
theorem decimates_of_reaches (ulongBits : Nat) (configFile : String) (rules : List FilterSbpRule)
    (hrules : ∀ rule ∈ rules, rule.counter = 0) (s : Session)
    (h : (calls ulongBits configFile rules).Reaches s) (hloaded : s.loaded ≠ []) :
    Decimates s.loaded s.log := by
  have hcounts : s.Counts := by
    refine @Machine.Reaches.invariant _ _ _ Session.Counts ?_ ?_ s h
    · exact @counts_of_loaded ⟨rules, configFile⟩ hrules
    · intro s call s' hs hstep
      obtain rfl := some_inj.mp hstep
      rw [Session.call_eq]
      exact (hs.reload ulongBits call).message call.msg
  exact hcounts.decimates hloaded

/-- Two rules for the type 0x0102, of which the first counts, and one for 0x0304. -/
def twoTypes : List FilterSbpRule := [⟨0x0102, 2, 0⟩, ⟨0x0102, 3, 0⟩, ⟨0x0304, 0, 0⟩]

/-- A message without payload, and no change of the configuration. -/
def plainCall (lo hi : UInt8) : FilterCall := ⟨false, fun _ => none, [0x55, lo, hi, 0, 0, 0]⟩

theorem decimates_of_reaches_twoTypes : ∃ s, (calls 32 "filter" twoTypes).Reaches s ∧
      s.log = [(0x0102, .reject), (0x0304, .reject), (0x0102, .pass), (0x0506, .reject)] ∧
      Decimates s.loaded s.log := by
  obtain ⟨s, hreaches, hne, hlog⟩ : ∃ s, (calls 32 "filter" twoTypes).Reaches s ∧ s.loaded ≠ [] ∧
      s.log = [(0x0102, .reject), (0x0304, .reject), (0x0102, .pass), (0x0506, .reject)] :=
    Machine.exists_reaches_of_run [plainCall 2 1, plainCall 4 3, plainCall 2 1, plainCall 6 5]
      (by decide +kernel)
  exact ⟨s, hreaches, hlog, decimates_of_reaches 32 "filter" twoTypes (by decide) s hreaches hne⟩

end PiksiBuildroot.SbpProtocol
