import PiksiBuildroot.EndpointRouter.Config
import PiksiBuildroot.Lib.SortedDedup

/-!
# Extracting the prefixes of a port

`extract_rule_prefixes` of `endpoint_router.c`: one pass over the rules of a port checks that
all non-empty filters have one length of at most `MAX_PREFIX_LEN` and collects the "default
accept" destinations, then the filter data are copied to zeroed blocks of `MAX_PREFIX_LEN` bytes,
sorted with `memcmp` and deduplicated (`extractRulePrefixes_spec`).
-/

namespace PiksiBuildroot.EndpointRouter

open Lib List Option

variable {Ept : Type}

/-- Source: `MAX_PREFIX_LEN`. -/
def maxPrefixLen : Nat := 8

/-- The largest `size_t` of the target. -/
def sizeMax : Nat := 2 ^ 32 - 1

/-- The conversion `(int)n` of a `size_t`. -/
def intOfSize (n : Nat) : Int :=
  if n % 2 ^ 32 < 2 ^ 31 then (n % 2 ^ 32 : Nat) else (n % 2 ^ 32 : Nat) - 2 ^ 32

/-- The conversion `(size_t)i` of an `int`. -/
def sizeOfInt (i : Int) : Nat := (i % 2 ^ 32).toNat

/-- The deduplicated prefixes of a port, each a block of `maxPrefixLen` bytes of which
`prefixLen` are meant. Source: `rule_prefixes_t`. -/
structure RulePrefixes where
  count : Nat
  prefixLen : Nat
  prefixes : List (List UInt8)
  deriving DecidableEq

/-! ### The definitions -/

/-- `memcmp` of the first `n` bytes. -/
def memcmp (n : Nat) : List UInt8 → List UInt8 → Ordering := compareOn (List.take n)

/-- A zeroed block of `maxPrefixLen` bytes after `memcpy` of `n` bytes of `data` to it. -/
def prefixBlock (n : Nat) (data : List UInt8) : List UInt8 :=
  data.take n ++ List.replicate (maxPrefixLen - n) 0

/-- One filter of the checking loop: the state is `prefix_len` and `filter_prefix_count`, and
`none` is the `return NULL` on a length mismatch or an overlong prefix.
Source: `extract_rule_prefixes`, inner loop. -/
def scanFilter (s : Int × Nat) (filter : Filter) : Option (Int × Nat) := if filter.len ≠ 0 then
    if s.1 < 0 then
      if intOfSize filter.len > maxPrefixLen then none else some (intOfSize filter.len, s.2 + 1)
    else if s.1 ≠ intOfSize filter.len then none
    else if s.1 > maxPrefixLen then none
    else some (s.1, s.2 + 1)
  else some s

/-- The last filter of the rule exists and is an `ACCEPT`.
Source: `filter_last != NULL && filter_last->action == FILTER_ACTION_ACCEPT`. -/
def ForwardingRule.lastFilterAccepts (rule : ForwardingRule) : Bool :=
  match rule.filtersList.getLast? with
  | some filterLast => filterLast.action == .accept
  | none => false

/-- The variables of the checking loop. Source: `prefix_len`, `total_filter_prefixes` and
`rule_cache->accept_ports` of `extract_rule_prefixes`. -/
structure PrefixScan (Ept : Type) where
  prefixLen : Int
  totalFilterPrefixes : Nat
  acceptPorts : List (Option Ept)

/-- One rule of the checking loop. Source: `extract_rule_prefixes`, first loop. -/
def scanRule (ports : List (Port Ept)) (s : PrefixScan Ept) (rule : ForwardingRule) :
    Option (PrefixScan Ept) := do
  let (prefixLen, filterPrefixCount) ← rule.filtersList.foldlM scanFilter (s.prefixLen, 0)
  let total := s.totalFilterPrefixes + filterPrefixCount
  if rule.lastFilterAccepts then
    some ⟨prefixLen, total, s.acceptPorts ++ [rule.pubEpt ports]⟩
  else
    some ⟨prefixLen, total, s.acceptPorts⟩

/-- The filters of a port that have data, in rule and filter order. -/
def Port.prefixFilters (port : Port Ept) : List Filter :=
  port.forwardingRulesList.flatMap fun rule => rule.filtersList.filter fun f => f.data ≠ []

/-- The blocks of the filter data, sorted and without repetitions: `all_filter_prefixes`, the
`qsort` with `compare_prefixes`, and the loop that copies to `deduped_filter_prefixes`.
Source: `extract_rule_prefixes`, second half. -/
def dedupedFilterPrefixes (n : Nat) (filters : List Filter) : List (List UInt8) :=
  let allFilterPrefixes := filters.map fun f => prefixBlock n f.data
  let sorted := sortBy (memcmp n) allFilterPrefixes
  (uniqAfter (memcmp n) none sorted).map (prefixBlock n)

/-- The prefixes of a port and the scan that found its default accept destinations.
Source: `extract_rule_prefixes`. -/
def extractRulePrefixes (ports : List (Port Ept)) (port : Port Ept) :
    Option (RulePrefixes × PrefixScan Ept) := do
  let scan ← port.forwardingRulesList.foldlM (scanRule ports) ⟨-1, 0, []⟩
  let prefixLen := sizeOfInt scan.prefixLen
  let deduped := dedupedFilterPrefixes prefixLen port.prefixFilters
  some (⟨deduped.length, prefixLen, deduped⟩, scan)

/-! ### Integers and bytes -/

/-- The lengths a filter can have survive the conversion to `int`. -/
lemma intOfSize_len (f : Filter) : intOfSize f.len = f.len := by
  have h := f.len_lt
  have hmod : f.data.length % 2 ^ 32 = f.data.length := by omega
  simp only [intOfSize, Filter.len, hmod, if_pos h]

variable {n : Nat}

/-- Converting a small non-negative `int` back. -/
lemma sizeOfInt_natCast (h : n < 2 ^ 32) : sizeOfInt (n : Int) = n := by
  unfold sizeOfInt
  omega

/-- `(size_t)-1`. -/
lemma sizeOfInt_neg_one : sizeOfInt (-1) = sizeMax := by
  unfold sizeOfInt sizeMax
  omega

/-- Two buffers compare equal when their first `n` bytes are the same. -/
lemma memcmp_eq_iff {a b : List UInt8} : memcmp n a b = .eq ↔ a.take n = b.take n := by
  simp [memcmp, compareOn]

variable {data : List UInt8}

/-- The meant bytes of a block. -/
lemma take_prefixBlock (h : n ≤ data.length) : (prefixBlock n data).take n = data.take n := by
  have hlen : (data.take n).length = n := by simp [h]
  rw [prefixBlock, take_append_of_le_length (by omega), take_take, Nat.min_self]

/-- Copying a block of `n` bytes again changes nothing. -/
lemma prefixBlock_prefixBlock (h : n ≤ data.length) :
    prefixBlock n (prefixBlock n data) = prefixBlock n data := by
  rw [prefixBlock, take_prefixBlock h, ← prefixBlock]

/-! ### The checking loop -/

variable {s s' : Int × Nat} {f : Filter}

/-- What one filter does to the scan: an empty filter nothing, another one fixes the length or
agrees with it. -/
lemma scanFilter_eq_some (h : scanFilter s f = some s') : (f.len = 0 ∧ s' = s) ∨
      (f.len ≠ 0 ∧ f.len ≤ maxPrefixLen ∧ (s.1 < 0 ∨ s.1 = f.len) ∧
        s' = ((f.len : Int), s.2 + 1)) := by
  unfold scanFilter at h
  rw [intOfSize_len] at h
  by_cases h0 : f.len = 0
  · simp only [h0, ne_eq, not_true_eq_false, if_false, some.injEq] at h
    exact Or.inl ⟨h0, h.symm⟩
  · right
    simp only [ne_eq, h0, not_false_eq_true, if_true] at h
    split_ifs at h with hneg hmax hne hmax'
    · simp only [some.injEq] at h
      exact ⟨h0, by omega, Or.inl hneg, h.symm⟩
    · simp only [some.injEq] at h
      exact ⟨h0, by omega, Or.inr hne, by rw [← h, hne]⟩

/-- The non-empty filters among `fs` all have the length `p`. -/
def LengthsAgree (p : Int) (fs : List Filter) : Prop :=
  ∀ f ∈ fs, f.data ≠ [] → (f.len : Int) = p ∧ f.len ≤ maxPrefixLen

/-- What a scan of `fs` from `p` to `p'` establishes: the lengths agree with `p'`, a length that
was fixed before stays, and `p'` differs from `p` only when some filter has data. -/
structure ScanSpec (p p' : Int) (fs : List Filter) : Prop where
  agree : LengthsAgree p' fs
  keep : 0 ≤ p → p' = p
  start : p' = p ∨ 0 ≤ p'
  empty : (∀ f ∈ fs, f.data = []) → p' = p

/-- The empty scan. -/
lemma ScanSpec.nil (p : Int) : ScanSpec p p [] :=
  ⟨fun _ hf => absurd hf not_mem_nil, fun _ => rfl, Or.inl rfl, fun _ => rfl⟩

/-- Scans compose. -/
lemma ScanSpec.append {p q r : Int} {fs gs : List Filter} (h₁ : ScanSpec p q fs)
    (h₂ : ScanSpec q r gs) : ScanSpec p r (fs ++ gs) := by
  refine ⟨fun f hf hne => ?_, fun hp => ?_, ?_, fun hall => ?_⟩
  · rcases mem_append.mp hf with hf' | hf'
    · obtain ⟨hq, hmax⟩ := h₁.agree f hf' hne
      have hrq : r = q := h₂.keep (by omega)
      exact ⟨by omega, hmax⟩
    · exact h₂.agree f hf' hne
  · have hq := h₁.keep hp
    rw [h₂.keep (by omega), hq]
  · rcases h₂.start with hr | hr
    · rw [hr]; exact h₁.start
    · exact Or.inr hr
  · rw [h₂.empty fun f hf => hall f (mem_append_right _ hf),
      h₁.empty fun f hf => hall f (mem_append_left _ hf)]

/-- One filter scanned. -/
lemma ScanSpec.of_scanFilter (h : scanFilter s f = some s') : ScanSpec s.1 s'.1 [f] := by
  have hnil : f.data = [] ↔ f.len = 0 := length_eq_zero_iff.symm
  rcases scanFilter_eq_some h with ⟨h0, rfl⟩ | ⟨h0, hmax, hs, rfl⟩
  · refine ⟨fun g hg hne => ?_, fun _ => rfl, Or.inl rfl, fun _ => rfl⟩
    cases mem_singleton.mp hg
    exact absurd (hnil.mpr h0) hne
  · refine ⟨fun g hg _ => ?_, fun hp => ?_, Or.inr (by simp), fun hall => ?_⟩
    · cases mem_singleton.mp hg
      exact ⟨rfl, hmax⟩
    · rcases hs with hneg | heq
      · omega
      · exact heq.symm
    · exact absurd (hnil.mp (hall f mem_cons_self)) h0

/-- The inner loop scanned; it also counts the filters that have data. -/
lemma scanSpec_of_foldlM_scanFilter {fs : List Filter} (h : fs.foldlM scanFilter s = some s') :
    ScanSpec s.1 s'.1 fs ∧ s'.2 = s.2 + (fs.filter fun f => f.data ≠ []).length := by
  induction fs generalizing s with
  | nil =>
    simp only [foldlM_nil, Option.pure_def, some.injEq] at h
    subst h
    exact ⟨ScanSpec.nil _, rfl⟩
  | cons f fs ih =>
    obtain ⟨t, hf, ht⟩ := bind_eq_some_iff.mp h
    obtain ⟨hspec, hcount⟩ := ih ht
    refine ⟨(ScanSpec.of_scanFilter hf).append hspec, ?_⟩
    rcases scanFilter_eq_some hf with ⟨h0, rfl⟩ | ⟨h0, -, -, rfl⟩
    · have : f.data = [] := length_eq_zero_iff.mp h0
      simp [hcount, this]
    · have : f.data ≠ [] := fun h => h0 (by simp [h])
      simp only [hcount, filter_cons, this, ne_eq, not_false_eq_true, decide_true, if_true,
        length_cons]
      omega

/-- The filters of a list of rules, in order. -/
def filtersOf (rules : List ForwardingRule) : List Filter :=
  rules.flatMap ForwardingRule.filtersList

/-- What the checking loop leaves behind after the rules `rules`, from the scan `s`. -/
structure RulesScanned (ports : List (Port Ept)) (rules : List ForwardingRule)
    (s s' : PrefixScan Ept) : Prop where
  lengths : ScanSpec s.prefixLen s'.prefixLen (filtersOf rules)
  total : s'.totalFilterPrefixes =
    s.totalFilterPrefixes + ((filtersOf rules).filter fun f => f.data ≠ []).length
  accepts : s'.acceptPorts = s.acceptPorts ++
    (rules.filter ForwardingRule.lastFilterAccepts).map (ForwardingRule.pubEpt ports)

variable {ports : List (Port Ept)} {s s' : PrefixScan Ept}

/-- One rule of the checking loop. -/
lemma rulesScanned_of_scanRule {rule : ForwardingRule} (h : scanRule ports s rule = some s') :
    RulesScanned ports [rule] s s' := by
  unfold scanRule at h
  simp only [bind_eq_bind, bind_eq_some_iff] at h
  obtain ⟨⟨p, c⟩, hfold, h⟩ := h
  obtain ⟨hspec, hcount⟩ := scanSpec_of_foldlM_scanFilter hfold
  simp only [Nat.zero_add] at hcount
  split_ifs at h with hlast
  all_goals
    simp only [some.injEq] at h
    subst h
    exact ⟨by simpa [filtersOf] using hspec, by simp [filtersOf, hcount], by simp [hlast]⟩

/-- The whole checking loop. -/
lemma rulesScanned_of_foldlM {rules : List ForwardingRule}
    (h : rules.foldlM (scanRule ports) s = some s') : RulesScanned ports rules s s' := by
  induction rules generalizing s with
  | nil =>
    simp only [foldlM_nil, Option.pure_def, some.injEq] at h
    subst h
    exact ⟨ScanSpec.nil _, by simp [filtersOf], by simp⟩
  | cons rule rules ih =>
    obtain ⟨t, hrule, ht⟩ := bind_eq_some_iff.mp h
    have h₁ := rulesScanned_of_scanRule hrule
    have h₂ := ih ht
    have hsplit : filtersOf (rule :: rules) = filtersOf [rule] ++ filtersOf rules := by
      simp [filtersOf]
    refine ⟨?_, ?_, ?_⟩
    · rw [hsplit]
      exact h₁.lengths.append h₂.lengths
    · rw [hsplit, h₂.total, h₁.total, filter_append, length_append, Nat.add_assoc]
    · rw [h₂.accepts, h₁.accepts, append_assoc, ← map_append, ← filter_append]
      rfl

/-! ### What is extracted -/

variable {port : Port Ept}

/-- The filters with data, as a sublist of all filters of the port. -/
lemma mem_prefixFilters :
    f ∈ port.prefixFilters ↔ f ∈ filtersOf port.forwardingRulesList ∧ f.data ≠ [] := by
  simp only [Port.prefixFilters, filtersOf, mem_flatMap, mem_filter, decide_eq_true_eq]
  constructor
  · rintro ⟨rule, hrule, hf, hne⟩
    exact ⟨⟨rule, hrule, hf⟩, hne⟩
  · rintro ⟨⟨rule, hrule, hf⟩, hne⟩
    exact ⟨rule, hrule, hf, hne⟩

/-- Sorting and deduplicating blocks of the common length `n`: strictly increasing, and exactly
the blocks of the filters. -/
lemma dedupedFilterPrefixes_spec {fs : List Filter} (hlen : ∀ f ∈ fs, f.len = n) :
    (dedupedFilterPrefixes n fs).Pairwise (fun a b => memcmp n a b = .lt) ∧
      ∀ p, p ∈ dedupedFilterPrefixes n fs ↔ ∃ f ∈ fs, p = prefixBlock n f.data := by
  have htrans : Std.TransCmp (memcmp n) := inferInstanceAs (Std.TransCmp (compareOn _))
  -- the copy into `deduped_filter_prefixes` changes nothing
  have hid : dedupedFilterPrefixes n fs =
      uniqAfter (memcmp n) none (sortBy (memcmp n) (fs.map fun f => prefixBlock n f.data)) := by
    refine (map_congr_left fun p hp => ?_).trans (List.map_id _)
    obtain ⟨f, hf, rfl⟩ := List.mem_map.mp (mem_sortBy.mp (mem_of_mem_uniqAfter hp))
    exact prefixBlock_prefixBlock (hlen f hf).ge
  rw [hid]
  refine ⟨pairwise_lt_uniq_sortBy _, fun p => ⟨fun hp => ?_, ?_⟩⟩
  · obtain ⟨f, hf, rfl⟩ := List.mem_map.mp (mem_sortBy.mp (mem_of_mem_uniqAfter hp))
    exact ⟨f, hf, rfl⟩
  · rintro ⟨f, hf, rfl⟩
    have hmem : prefixBlock n f.data ∈ fs.map fun f => prefixBlock n f.data :=
      List.mem_map_of_mem hf
    obtain ⟨y, hy, heq⟩ := @exists_mem_uniq_sortBy _ (memcmp n) _ _ _ hmem
    obtain ⟨g, hg, rfl⟩ := List.mem_map.mp (mem_sortBy.mp (mem_of_mem_uniqAfter hy))
    rw [memcmp_eq_iff, take_prefixBlock (hlen g hg).ge, take_prefixBlock (hlen f hf).ge] at heq
    have : prefixBlock n g.data = prefixBlock n f.data := by rw [prefixBlock, heq, prefixBlock]
    rwa [this] at hy

/-- What `extract_rule_prefixes` returns for a port it accepts. `total_eq` is its assertion
`total_filter_prefixes == filter_prefix_index`. -/
structure Extracted (ports : List (Port Ept)) (port : Port Ept) (rp : RulePrefixes)
    (scan : PrefixScan Ept) : Prop where
  count_eq : rp.count = rp.prefixes.length
  len_eq : ∀ f ∈ port.prefixFilters, f.len = rp.prefixLen
  len_le : ∀ f ∈ port.prefixFilters, f.len ≤ maxPrefixLen
  len_empty : port.prefixFilters = [] → rp.prefixLen = sizeMax
  strict : rp.prefixes.Pairwise fun a b => memcmp rp.prefixLen a b = .lt
  mem_iff : ∀ p, p ∈ rp.prefixes ↔ ∃ f ∈ port.prefixFilters, p = prefixBlock rp.prefixLen f.data
  total_eq : scan.totalFilterPrefixes = port.prefixFilters.length
  accepts : scan.acceptPorts =
    (port.forwardingRulesList.filter ForwardingRule.lastFilterAccepts).map
      (ForwardingRule.pubEpt ports)

/-- Specification of `extract_rule_prefixes`. -/
theorem extractRulePrefixes_spec {rp : RulePrefixes} {scan : PrefixScan Ept}
    (h : extractRulePrefixes ports port = some (rp, scan)) : Extracted ports port rp scan := by
  unfold extractRulePrefixes at h
  simp only [bind_eq_bind, bind_eq_some_iff, some.injEq, Prod.mk.injEq] at h
  obtain ⟨scan', hscan, rfl, rfl⟩ := h
  have hs := rulesScanned_of_foldlM hscan
  have hagree : ∀ f ∈ port.prefixFilters,
      (f.len : Int) = scan'.prefixLen ∧ f.len ≤ maxPrefixLen := by
    intro f hf
    obtain ⟨hmem, hne⟩ := mem_prefixFilters.mp hf
    exact hs.lengths.agree f hmem hne
  have hlen : ∀ f ∈ port.prefixFilters, f.len = sizeOfInt scan'.prefixLen := by
    intro f hf
    have hlt : f.len < 2 ^ 32 := f.len_lt.trans (by omega)
    rw [← (hagree f hf).1, sizeOfInt_natCast hlt]
  obtain ⟨hstrict, hmem⟩ := dedupedFilterPrefixes_spec hlen
  refine ⟨rfl, hlen, fun f hf => (hagree f hf).2, fun hempty => ?_, hstrict, hmem, ?_, ?_⟩
  · have hneg : scan'.prefixLen = -1 := by
      apply hs.lengths.empty
      intro f hf
      by_contra hne
      have : f ∈ port.prefixFilters := mem_prefixFilters.mpr ⟨hf, hne⟩
      rw [hempty] at this
      exact absurd this not_mem_nil
    simp only [hneg, sizeOfInt_neg_one]
  · rw [hs.total, Nat.zero_add, filtersOf, filter_flatMap, Port.prefixFilters]
  · simpa using hs.accepts

/-! ### When a port is refused -/

variable {p : Int}

/-- A filter that agrees with the length found so far is scanned. -/
lemma exists_scanFilter {s : Int × Nat} (hagree : LengthsAgree p [f]) (hs : s.1 < 0 ∨ s.1 = p) :
    ∃ s', scanFilter s f = some s' ∧ (s'.1 < 0 ∨ s'.1 = p) := by
  unfold scanFilter
  rw [intOfSize_len]
  by_cases h0 : f.len = 0
  · rw [if_neg (not_not.mpr h0)]
    exact ⟨s, rfl, hs⟩
  · have hne : f.data ≠ [] := fun hnil => h0 (length_eq_zero_iff.mpr hnil)
    obtain ⟨hp, hmax⟩ := hagree f mem_cons_self hne
    rw [if_pos h0]
    by_cases hneg : s.1 < 0
    · rw [if_pos hneg, if_neg (by omega)]
      exact ⟨_, rfl, Or.inr hp⟩
    · have heq : s.1 = p := hs.resolve_left hneg
      rw [if_neg hneg, if_neg (by omega), if_neg (by omega)]
      exact ⟨_, rfl, Or.inr heq⟩

/-- The inner loop does not give up on filters of one length. -/
lemma exists_foldlM_scanFilter {fs : List Filter} {s : Int × Nat} (hagree : LengthsAgree p fs)
    (hs : s.1 < 0 ∨ s.1 = p) : ∃ s', fs.foldlM scanFilter s = some s' ∧ (s'.1 < 0 ∨ s'.1 = p) := by
  induction fs generalizing s with
  | nil => exact ⟨s, rfl, hs⟩
  | cons f fs ih =>
    have hf : LengthsAgree p [f] := by
      intro g hg
      exact hagree g (mem_cons.mpr (Or.inl (mem_singleton.mp hg)))
    obtain ⟨t, ht, ht'⟩ := exists_scanFilter hf hs
    obtain ⟨s', hs', hend⟩ := ih (fun g hg => hagree g (mem_cons_of_mem f hg)) ht'
    exact ⟨s', by rw [foldlM_cons, ht]; exact hs', hend⟩

/-- The checking loop does not give up on filters of one length. -/
lemma exists_foldlM_scanRule {rules : List ForwardingRule} {s : PrefixScan Ept}
    (hagree : LengthsAgree p (filtersOf rules)) (hs : s.prefixLen < 0 ∨ s.prefixLen = p) :
    ∃ s', rules.foldlM (scanRule ports) s = some s' := by
  induction rules generalizing s with
  | nil => exact ⟨s, rfl⟩
  | cons rule rules ih =>
    have hrule : LengthsAgree p rule.filtersList := fun f hf =>
      hagree f (mem_append_left _ hf)
    have hrules : LengthsAgree p (filtersOf rules) := fun f hf =>
      hagree f (mem_append_right _ hf)
    obtain ⟨⟨len, count⟩, hfold, hlen⟩ :=
      @exists_foldlM_scanFilter p rule.filtersList (s.prefixLen, 0) hrule hs
    have hscan : ∃ t, scanRule ports s rule = some t ∧ t.prefixLen = len := by
      simp only [scanRule, hfold, bind_eq_bind, bind_some]
      split_ifs
      · exact ⟨_, rfl, rfl⟩
      · exact ⟨_, rfl, rfl⟩
    obtain ⟨t, ht, rfl⟩ := hscan
    obtain ⟨s', hs'⟩ := ih hrules hlen
    exact ⟨s', by rw [foldlM_cons, ht]; exact hs'⟩

/-- A port is refused exactly if two of its filters with data differ in length or one of them is
too long. -/
lemma extractRulePrefixes_eq_none_iff : extractRulePrefixes ports port = none ↔
      (∃ f ∈ port.prefixFilters, ∃ g ∈ port.prefixFilters, f.len ≠ g.len) ∨
        ∃ f ∈ port.prefixFilters, maxPrefixLen < f.len := by
  constructor
  · intro hnone
    by_contra hgood
    obtain ⟨hdiffer, hlong⟩ := not_or.mp hgood
    have hsame : ∀ f ∈ port.prefixFilters, ∀ g ∈ port.prefixFilters, f.len = g.len := by
      intro f hf g hg
      by_contra hne
      exact hdiffer ⟨f, hf, g, hg, hne⟩
    have hmax : ∀ f ∈ port.prefixFilters, f.len ≤ maxPrefixLen := by
      intro f hf
      exact Nat.not_lt.mp fun hlt => hlong ⟨f, hf, hlt⟩
    -- the common length, or any number if no filter has data
    obtain ⟨p, hp⟩ : ∃ p : Int, LengthsAgree p (filtersOf port.forwardingRulesList) := by
      cases hfilters : port.prefixFilters with
      | nil =>
        refine ⟨0, fun f hf hne => ?_⟩
        have hmem := mem_prefixFilters.mpr ⟨hf, hne⟩
        rw [hfilters] at hmem
        cases hmem
      | cons g gs =>
        have hg : g ∈ port.prefixFilters := hfilters ▸ mem_cons_self
        refine ⟨g.len, fun f hf hne => ?_⟩
        have hmem := mem_prefixFilters.mpr ⟨hf, hne⟩
        exact ⟨by rw [hsame f hmem g hg], hmax f hmem⟩
    have hneg : (-1 : Int) < 0 := by decide
    obtain ⟨scan, hscan⟩ := @exists_foldlM_scanRule _ ports p _ ⟨-1, 0, []⟩ hp (Or.inl hneg)
    rw [extractRulePrefixes, hscan] at hnone
    cases hnone
  · intro hbad
    cases hextract : extractRulePrefixes ports port with
    | none => rfl
    | some result =>
      have hspec := extractRulePrefixes_spec hextract
      rcases hbad with ⟨f, hf, g, hg, hne⟩ | ⟨f, hf, hlong⟩
      · exact absurd ((hspec.len_eq f hf).trans (hspec.len_eq g hg).symm) hne
      · exact absurd (hspec.len_le f hf) (Nat.not_le.mpr hlong)

/-- What a port is refused for, and what is returned for a port that is not: the data of its
filters in the order of `memcmp`, each once. -/
theorem extractRulePrefixes_sortedSet (ports : List (Port Ept)) (port : Port Ept) :
    (extractRulePrefixes ports port = none ↔
      (∃ f ∈ port.prefixFilters, ∃ g ∈ port.prefixFilters, f.len ≠ g.len) ∨
        ∃ f ∈ port.prefixFilters, maxPrefixLen < f.len) ∧
    ∀ rp scan, extractRulePrefixes ports port = some (rp, scan) →
      rp.prefixes.Pairwise (fun a b => memcmp rp.prefixLen a b = .lt) ∧
      (∀ data, (∃ p ∈ rp.prefixes, p.take rp.prefixLen = data) ↔
        ∃ f ∈ port.prefixFilters, f.data = data) ∧
      rp.count = rp.prefixes.length ∧
      ∀ f ∈ port.prefixFilters, f.len = rp.prefixLen := by
  refine ⟨extractRulePrefixes_eq_none_iff, fun rp scan h => ?_⟩
  have hspec := extractRulePrefixes_spec h
  have htake : ∀ f ∈ port.prefixFilters,
      (prefixBlock rp.prefixLen f.data).take rp.prefixLen = f.data := by
    intro f hf
    rw [take_prefixBlock (hspec.len_eq f hf).ge, take_of_length_le (hspec.len_eq f hf).le]
  refine ⟨hspec.strict, fun data => ⟨?_, ?_⟩, hspec.count_eq, hspec.len_eq⟩
  · rintro ⟨p, hp, rfl⟩
    obtain ⟨f, hf, rfl⟩ := (hspec.mem_iff p).mp hp
    exact ⟨f, hf, (htake f hf).symm⟩
  · rintro ⟨f, hf, rfl⟩
    exact ⟨_, (hspec.mem_iff _).mpr ⟨f, hf, rfl⟩, htake f hf⟩

end PiksiBuildroot.EndpointRouter
