import PiksiBuildroot.EndpointRouter.Cache
import PiksiBuildroot.Lib.PerfectHash
import Mathlib.Data.List.Find

/-!
# Routing through the cache and walking the rules

`process_buffer` and the walk of the forwarding rules agree when the message starts with a prefix of
the port (`processBuffer_eq_forwardWalk_of_hit`). When it does not, the cache answers with the
destinations of the rules whose *last* filter accepts, while the walk takes the first *empty* filter
(`processBuffer_eq_forwardWalk_iff_of_miss`).

Filling the cache is `fillTable` of `Lib.PerfectHash` (`fillCache_eq`), and a filter of the common
length cannot tell a message from its prefix (`matchedEpts_congr`).
-/

namespace PiksiBuildroot.EndpointRouter

open Lib

variable {Ept : Type}

/-! ### Filling one entry -/

/-- The entry after a list of matching rules has been recorded in it. -/
def CachedPort.fill (n : Nat) (data : List UInt8) (epts : List (Option Ept)) (c : CachedPort Ept) :
    CachedPort Ept :=
  epts.foldl (fun c ept => c.record n data ept) c

/-- The destinations are appended in order. -/
lemma CachedPort.endpoints_fill (n : Nat) (data : List UInt8) (epts : List (Option Ept))
    (c : CachedPort Ept) : (c.fill n data epts).endpoints = c.endpoints ++ epts := by
  induction epts generalizing c with
  | nil => simp [CachedPort.fill]
  | cons ept epts ih =>
    rw [CachedPort.fill, List.foldl_cons, ← CachedPort.fill, ih]
    simp [CachedPort.record]

variable {n : Nat}

/-- Recording a rule writes the prefix. -/
lemma CachedPort.take_prefixBytes_record {data : List UInt8} (h : n ≤ data.length)
    (ept : Option Ept) (c : CachedPort Ept) :
    (c.record n data ept).prefixBytes.take n = data.take n := by
  have hlen : (data.take n).length = n := by simp [h]
  simp only [CachedPort.record, memcpyTo]
  rw [List.take_append_of_le_length hlen.ge, List.take_take, Nat.min_self]

/-- Once a rule has matched, the entry holds the prefix. -/
lemma CachedPort.take_prefixBytes_fill {data : List UInt8} (h : n ≤ data.length)
    {epts : List (Option Ept)} (hne : epts ≠ []) (c : CachedPort Ept) :
    (c.fill n data epts).prefixBytes.take n = data.take n := by
  induction epts using List.reverseRecOn with
  | nil => exact absurd rfl hne
  | append_singleton epts ept _ =>
    rw [CachedPort.fill, List.foldl_append, List.foldl_cons, List.foldl_nil]
    exact CachedPort.take_prefixBytes_record h ept _

/-! ### Filling the table -/

variable {ports : List (Port Ept)} {rules : List ForwardingRule} {hash : List UInt8 → Nat}

/-- Running the rules on one prefix fills the slot of that prefix. -/
lemma processForwardingRules_cacheMatchProcess {rc : RuleCache Ept} (hhash : rc.hash = some hash)
    (pre : List UInt8) :
    processForwardingRules rules pre rc.rulePrefixes.prefixLen (cacheMatchProcess ports)
        (some rc) =
      some { rc with
        cachedPorts := rc.cachedPorts.modify (hash (pre.take rc.rulePrefixes.prefixLen))
          (CachedPort.fill rc.rulePrefixes.prefixLen pre
            (matchedEpts ports rules pre rc.rulePrefixes.prefixLen)) } := by
  induction rules generalizing rc with
  | nil =>
    have hid : CachedPort.fill rc.rulePrefixes.prefixLen pre ([] : List (Option Ept)) = id := rfl
    simp [processForwardingRules, matchedEpts, hid]
  | cons rule rules ih =>
    rw [processForwardingRules_cons]
    cases hm : rule.firstMatch pre rc.rulePrefixes.prefixLen with
    | none =>
      simp only [matchedEpts, List.filterMap_cons, hm, Option.map_none]
      exact ih hhash
    | some f =>
      have hstep : cacheMatchProcess ports rule f pre rc.rulePrefixes.prefixLen (some rc) =
          some { rc with
            cachedPorts := rc.cachedPorts.modify (hash (pre.take rc.rulePrefixes.prefixLen))
              (CachedPort.record rc.rulePrefixes.prefixLen pre (matchedEpt ports rule f)) } := by
        simp [cacheMatchProcess, hhash]
      have ih' := @ih { rc with
        cachedPorts := rc.cachedPorts.modify (hash (pre.take rc.rulePrefixes.prefixLen))
          (CachedPort.record rc.rulePrefixes.prefixLen pre (matchedEpt ports rule f)) } hhash
      simp only [hstep, ih', modify_modify_eq, matchedEpts, List.filterMap_cons, hm,
        Option.map_some]
      rfl

/-- Running the rules on every prefix fills the table through the hash. -/
theorem fillCache_eq (prefixes : List (List UInt8)) {rc : RuleCache Ept}
    (hhash : rc.hash = some hash) (hn : rc.rulePrefixes.prefixLen = n) :
    prefixes.foldl (fun ctx pre => processForwardingRules rules pre n (cacheMatchProcess ports) ctx)
        (some rc) =
      some { rc with
        cachedPorts := fillTable (fun pre => hash (pre.take n))
          (fun pre => CachedPort.fill n pre (matchedEpts ports rules pre n))
          prefixes rc.cachedPorts } := by
  subst hn
  induction prefixes generalizing rc with
  | nil => rfl
  | cons pre prefixes ih =>
    rw [List.foldl_cons, processForwardingRules_cacheMatchProcess hhash]
    exact @ih { rc with
      cachedPorts := rc.cachedPorts.modify (hash (pre.take rc.rulePrefixes.prefixLen))
        (CachedPort.fill rc.rulePrefixes.prefixLen pre
          (matchedEpts ports rules pre rc.rulePrefixes.prefixLen)) } hhash

/-! ### What a filter sees of a message -/

variable {f : Filter} {a b : List UInt8} {lenA lenB : Nat}

/-- A filter of the common length sees only the first `n` bytes. -/
lemma Filter.isMatch_congr (hf : f.data ≠ [] → f.len = n) (hlenA : n ≤ lenA) (hlenB : n ≤ lenB)
    (hab : a.take n = b.take n) : f.isMatch a lenA = f.isMatch b lenB := by
  by_cases h0 : f.data = []
  · simp [Filter.isMatch, Filter.len, h0]
  · have hlen : f.len = n := hf h0
    have hne : f.len ≠ 0 := fun h => h0 (List.length_eq_zero_iff.mp h)
    have hcmp : memcmp n a f.data = memcmp n b f.data := by simp only [memcmp, compareOn, hab]
    rw [Filter.isMatch, Filter.isMatch, if_neg hne, if_neg hne, hlen, hcmp]
    simp [hlenA, hlenB]

/-- Two pieces of data with the same first `n` bytes match the same filters of a port. -/
theorem matchedEpts_congr (hlen : ∀ f ∈ filtersOf rules, f.data ≠ [] → f.len = n) (hlenA : n ≤ lenA)
    (hlenB : n ≤ lenB) (hab : a.take n = b.take n) :
    matchedEpts ports rules a lenA = matchedEpts ports rules b lenB := by
  apply List.filterMap_congr
  intro rule hrule
  have hfirst : rule.firstMatch a lenA = rule.firstMatch b lenB := by
    refine List.find?_congr fun f hf => ?_
    exact Filter.isMatch_congr (hlen f (List.mem_flatMap.mpr ⟨rule, hrule, hf⟩)) hlenA hlenB hab
  rw [hfirst]

/-- The data of a filter match some rule. -/
lemma matchedEpts_ne_nil (hf : f ∈ filtersOf rules) {data : List UInt8}
    (hdata : data.take f.len = f.data) : matchedEpts ports rules data f.len ≠ [] := by
  obtain ⟨rule, hrule, hfr⟩ := List.mem_flatMap.mp hf
  have hmatch : f.isMatch data f.len := by
    have hcmp : memcmp f.len data f.data = .eq := by rw [memcmp_eq_iff, hdata, List.take_length]
    simp [Filter.isMatch, hcmp]
  have hsome : (rule.firstMatch data f.len).isSome := List.find?_isSome.mpr ⟨f, hfr, hmatch⟩
  obtain ⟨g, hg⟩ := Option.isSome_iff_exists.mp hsome
  have hmem : matchedEpt ports rule g ∈ matchedEpts ports rules data f.len :=
    List.mem_filterMap.mpr ⟨rule, hrule, by rw [hg]; rfl⟩
  exact List.ne_nil_of_mem hmem

/-! ### The cache of a port -/

/-- The entry of the filter data `d`: its bytes and one destination for each matching rule. -/
structure CachedPort.HoldsFor (ports : List (Port Ept)) (rules : List ForwardingRule) (n : Nat)
    (d : List UInt8) (c : CachedPort Ept) : Prop where
  bytes : c.prefixBytes.take n = d
  epts : c.endpoints = matchedEpts ports rules (prefixBlock n d) n

/-- What the cache of a port holds. Whatever key is looked up, the slot is the entry of some
filter, and of that key's own filter when there is one. -/
structure RuleCache.Built (ports : List (Port Ept)) (port : Port Ept) (rc : RuleCache Ept) :
    Prop where
  len_eq : ∀ f ∈ port.prefixFilters, f.len = rc.rulePrefixes.prefixLen
  len_empty : port.prefixFilters = [] → rc.rulePrefixes.prefixLen = sizeMax
  accepts : rc.acceptPorts = (port.forwardingRulesList.filter ForwardingRule.lastFilterAccepts).map
      (ForwardingRule.pubEpt ports)
  slots : port.prefixFilters ≠ [] → ∃ hash, rc.hash = some hash ∧
    ∀ key, ∃ f ∈ port.prefixFilters, (∀ g ∈ port.prefixFilters, g.data = key → f.data = key) ∧
      ∃ c, rc.cachedPorts[hash key]? = some c ∧
        c.HoldsFor ports port.forwardingRulesList rc.rulePrefixes.prefixLen f.data

variable {port : Port Ept}

/-- The keys handed to cmph: no two are equal. -/
lemma Extracted.nodup_keys {rp : RulePrefixes} {scan : PrefixScan Ept}
    (h : Extracted ports port rp scan) : (rp.prefixes.map (List.take rp.prefixLen)).Nodup := by
  refine List.pairwise_map.mpr (h.strict.imp fun {a b} hlt heq => ?_)
  rw [memcmp_eq_iff.mpr heq] at hlt
  cases hlt

/-- The entry that filling leaves for a filter of the port. -/
lemma holdsFor_fill (hlen : ∀ f ∈ port.prefixFilters, f.len = n) (hf : f ∈ port.prefixFilters)
    (bytes : List UInt8) :
    (CachedPort.fill n (prefixBlock n f.data)
      (matchedEpts ports port.forwardingRulesList (prefixBlock n f.data) n) ⟨bytes, []⟩).HoldsFor
        ports port.forwardingRulesList n f.data := by
  have hn : f.len = n := hlen f hf
  have htake : (prefixBlock n f.data).take n = f.data := by
    rw [take_prefixBlock hn.ge, ← hn, List.take_length]
  have hblock : n ≤ (prefixBlock n f.data).length := by
    have := congrArg List.length htake
    rw [List.length_take, ← Filter.len, hn] at this
    omega
  have hne : matchedEpts ports port.forwardingRulesList (prefixBlock n f.data) n ≠ [] := by
    have := @matchedEpts_ne_nil Ept ports _ f (mem_prefixFilters.mp hf).1
      (prefixBlock n f.data) (by rw [hn, htake])
    rwa [hn] at this
  refine ⟨?_, ?_⟩
  · rw [CachedPort.take_prefixBytes_fill hblock hne, htake]
  · rw [CachedPort.endpoints_fill, List.nil_append]

/-- Specification of the cache that `router_create` builds for a port. -/
theorem createRuleCache_spec {cmphSearch : List (List UInt8) → List UInt8 → Nat}
    (hcmph : CmphSpec cmphSearch) {rc : RuleCache Ept}
    (h : createRuleCache cmphSearch ports port = some rc) : rc.Built ports port := by
  unfold createRuleCache at h
  simp only [Option.bind_eq_bind, Option.bind_eq_some_iff] at h
  obtain ⟨⟨rp, scan⟩, hex, h⟩ := h
  have hspec := extractRulePrefixes_spec hex
  by_cases hcount : rp.count > 0
  · simp only [hcount, if_true] at h
    rw [@fillCache_eq _ _ _ _ _ rp.prefixes ⟨some _, _, _, rp, _, _⟩ rfl rfl,
      Option.some.injEq] at h
    subst h
    refine ⟨hspec.len_eq, hspec.len_empty, hspec.accepts, fun _ => ⟨_, rfl, fun key => ?_⟩⟩
    -- no two prefixes share a slot, and the slots are all in use
    have hdisj : rp.prefixes.Pairwise fun a b =>
        cmphSearch (rp.prefixes.map (List.take rp.prefixLen)) (a.take rp.prefixLen) ≠
          cmphSearch (rp.prefixes.map (List.take rp.prefixLen)) (b.take rp.prefixLen) := by
      refine (List.pairwise_map.mp hspec.nodup_keys).imp_of_mem fun {a b} ha hb hne heq => ?_
      exact hne (hcmph.inj _ hspec.nodup_keys _ (List.mem_map_of_mem ha) _
        (List.mem_map_of_mem hb) heq)
    have hlt : ∀ k, cmphSearch (rp.prefixes.map (List.take rp.prefixLen)) k
        < rp.prefixes.length := by
      intro k
      have hne : rp.prefixes.map (List.take rp.prefixLen) ≠ [] := by
        rw [hspec.count_eq] at hcount
        exact List.ne_nil_of_length_pos (by simpa using hcount)
      simpa using hcmph.lt _ hne k
    obtain ⟨pre, hpre, hslot⟩ := exists_slot_eq hdisj (fun k _ => hlt _) (hlt key)
    obtain ⟨f, hf, rfl⟩ := (hspec.mem_iff pre).mp hpre
    have htake : ∀ g ∈ port.prefixFilters,
        (prefixBlock rp.prefixLen g.data).take rp.prefixLen = g.data := by
      intro g hg
      rw [take_prefixBlock (hspec.len_eq g hg).ge, ← hspec.len_eq g hg, List.take_length]
    refine ⟨f, hf, fun g hg hgk => ?_, _, ?_,
      holdsFor_fill hspec.len_eq hf (List.replicate maxPrefixLen 0)⟩
    · have hkey : key ∈ rp.prefixes.map (List.take rp.prefixLen) := by
        rw [← hgk, ← htake g hg]
        exact List.mem_map_of_mem ((hspec.mem_iff _).mpr ⟨g, hg, rfl⟩)
      have := hcmph.inj _ hspec.nodup_keys _ (List.mem_map_of_mem hpre) _ hkey hslot
      rwa [htake f hf] at this
    · rw [← hslot, getElem?_fillTable hdisj hpre, List.getElem?_replicate,
        if_pos (by rw [hspec.count_eq, hslot]; exact hlt key)]
      rfl
  · simp only [hcount, if_false, Option.some.injEq] at h
    subst h
    refine ⟨hspec.len_eq, hspec.len_empty, hspec.accepts, fun hne => absurd hcount ?_⟩
    obtain ⟨f, hf⟩ := List.exists_mem_of_ne_nil _ hne
    have := List.length_pos_of_mem ((hspec.mem_iff _).mpr ⟨f, hf, rfl⟩)
    rw [hspec.count_eq]
    omega

/-! ### Looking a message up -/

/-- A message that starts with a prefix of the port is sent to what the rules give for it. -/
lemma processBuffer_of_hit {rc : RuleCache Ept} (h : rc.Built ports port)
    (hf : f ∈ port.prefixFilters) {data : List UInt8}
    (hdata : data.take rc.rulePrefixes.prefixLen = f.data) :
    processBuffer rc data =
      some ((matchedEpts ports port.forwardingRulesList data data.length).filter
        Option.isSome) := by
  have hn : f.data.length = rc.rulePrefixes.prefixLen := h.len_eq f hf
  have hlen : rc.rulePrefixes.prefixLen ≤ data.length := by
    have := congrArg List.length hdata
    rw [List.length_take] at this
    omega
  obtain ⟨hash, hhash, hslots⟩ := h.slots (List.ne_nil_of_mem hf)
  obtain ⟨g, hg, hown, c, hc, hholds⟩ := hslots f.data
  have hgf : g.data = f.data := hown f hf rfl
  have hbytes : memcmp rc.rulePrefixes.prefixLen c.prefixBytes data = .eq := by
    rw [memcmp_eq_iff, hholds.bytes, hgf, hdata]
  have htake : (prefixBlock rc.rulePrefixes.prefixLen f.data).take rc.rulePrefixes.prefixLen =
      data.take rc.rulePrefixes.prefixLen := by
    rw [take_prefixBlock hn.ge, hdata, ← hn, List.take_length]
  have hepts : c.endpoints = matchedEpts ports port.forwardingRulesList data data.length := by
    rw [hholds.epts, hgf]
    refine matchedEpts_congr (fun k hk hne => ?_) le_rfl hlen htake
    exact h.len_eq k (mem_prefixFilters.mpr ⟨hk, hne⟩)
  simp only [processBuffer, if_neg (Nat.not_lt.mpr hlen), hhash, hdata, Option.bind_eq_bind,
    Option.bind_some, hc, hbytes, if_true, hepts]

/-- The message starts with no prefix of the port, or is too short to tell. -/
def Misses (port : Port Ept) (rc : RuleCache Ept) (data : List UInt8) : Prop :=
  data.length < rc.rulePrefixes.prefixLen ∨
    ∀ f ∈ port.prefixFilters, data.take rc.rulePrefixes.prefixLen ≠ f.data

/-- A message in memory: the lengths of objects are bounded by `PTRDIFF_MAX` of the target.
Source: the parameters `data` and `length` of `process_buffer`. -/
structure Message where
  data : List UInt8
  len_lt : data.length < 2 ^ 31

/-- Any other message is sent to the default accept destinations. -/
lemma processBuffer_of_miss {rc : RuleCache Ept} (h : rc.Built ports port) {msg : Message}
    (hmiss : Misses port rc msg.data) : processBuffer rc msg.data = some rc.acceptPorts := by
  by_cases hshort : msg.data.length < rc.rulePrefixes.prefixLen
  · simp only [processBuffer, hshort, if_true]
  · have hne : port.prefixFilters ≠ [] := by
      intro hempty
      have := h.len_empty hempty
      have := msg.len_lt
      unfold sizeMax at *
      omega
    obtain ⟨hash, hhash, hslots⟩ := h.slots hne
    obtain ⟨f, hf, -, c, hc, hholds⟩ := hslots (msg.data.take rc.rulePrefixes.prefixLen)
    have hbytes : memcmp rc.rulePrefixes.prefixLen c.prefixBytes msg.data ≠ .eq := by
      rw [Ne, memcmp_eq_iff, hholds.bytes]
      exact fun heq => (hmiss.resolve_left hshort) f hf heq.symm
    simp only [processBuffer, if_neg hshort, hhash, Option.bind_eq_bind, Option.bind_some, hc,
      if_neg hbytes]

/-- The rule has an empty filter, and the first one is an `ACCEPT`. -/
def ForwardingRule.defaultAccepts (rule : ForwardingRule) : Bool :=
  (rule.filtersList.find? fun f => f.data = []).any fun f => f.action == .accept

/-- On a miss only the empty filters match, so the walk gives the rules that accept by default. -/
lemma forwardWalk_of_miss {rc : RuleCache Ept} (h : rc.Built ports port) {data : List UInt8}
    (hmiss : Misses port rc data) :
    forwardWalk ports port.forwardingRulesList data =
      (port.forwardingRulesList.filter ForwardingRule.defaultAccepts).map
        (ForwardingRule.pubEpt ports) := by
  rw [forwardWalk_eq]
  congr 1
  apply List.filter_congr
  intro rule hrule
  suffices hfirst : rule.firstMatch data data.length =
      rule.filtersList.find? fun f => f.data = [] by
    rw [hfirst, ForwardingRule.defaultAccepts]
  refine List.find?_congr fun f hf => ?_
  by_cases h0 : f.data = []
  · simp [Filter.isMatch, Filter.len, h0]
  · have hpf : f ∈ port.prefixFilters :=
      mem_prefixFilters.mpr ⟨List.mem_flatMap.mpr ⟨rule, hrule, hf⟩, h0⟩
    have hn := h.len_eq f hpf
    have hno : ¬(f.len ≤ data.length ∧ memcmp f.len data f.data = .eq) := by
      rintro ⟨hle, heq⟩
      rw [memcmp_eq_iff, List.take_length, hn] at heq
      rcases hmiss with hshort | hother
      · omega
      · exact hother f hpf heq
    simpa [Filter.isMatch, h0] using hno

/-! ### Routers that `router_create` accepts -/

section router

variable {cmphSearch : List (List UInt8) → List UInt8 → Nat}
  {pkEndpointCreate : Nat → EndpointConfig → Option Ept}

/-- In an accepted router every port has its cache built, and no destination is `NULL`. -/
lemma routerCreate_spec (hcmph : CmphSpec cmphSearch) {parsed : Option (RouterCfg Ept)}
    {router : Router Ept}
    (h : routerCreate cmphSearch (routerCfgLoad parsed) (routerCreateEndpoints pkEndpointCreate) =
      some router)
    {i : Nat} {rc : RuleCache Ept} (hport : router.routerCfg.portsList[i]? = some port)
    (hrc : router.portRuleCache[i]? = some rc) :
    rc.Built router.routerCfg.portsList port ∧
      ∀ rule ∈ port.forwardingRulesList, (rule.pubEpt router.routerCfg.portsList).isSome := by
  unfold routerCreate routerCfgLoad at h
  simp only [Option.bind_eq_bind, Option.bind_eq_some_iff, Option.some.injEq] at h
  obtain ⟨loaded, ⟨cfg₀, -, hload⟩, cfg, hopen, caches, hcaches, rfl⟩ := h
  obtain ⟨hres, hepts⟩ := routerCreateEndpoints_spec (resolved_of_dstPortsSet hload) hopen
  obtain ⟨port', hport', hbuilt⟩ := exists_of_getElem?_mapM hcaches hrc
  obtain rfl : port' = port := Option.some.inj (hport'.symm.trans hport)
  refine ⟨createRuleCache_spec hcmph hbuilt, fun rule hrule => ?_⟩
  exact RouterCfg.pubEpt_isSome hres hepts (List.mem_of_getElem? hport) hrule

/-- A message that starts with a prefix of the port is sent where the rules send it. -/
theorem processBuffer_eq_forwardWalk_of_hit (hcmph : CmphSpec cmphSearch)
    {parsed : Option (RouterCfg Ept)} {router : Router Ept}
    (h : routerCreate cmphSearch (routerCfgLoad parsed) (routerCreateEndpoints pkEndpointCreate) =
      some router) {i : Nat} {port : Port Ept} {rc : RuleCache Ept}
    (hport : router.routerCfg.portsList[i]? = some port)
    (hrc : router.portRuleCache[i]? = some rc) {f : Filter} (hf : f ∈ port.prefixFilters)
    {data : List UInt8} (hdata : data.take rc.rulePrefixes.prefixLen = f.data) :
    processBuffer rc data =
      some (forwardWalk router.routerCfg.portsList port.forwardingRulesList data) := by
  obtain ⟨hbuilt, hsome⟩ := routerCreate_spec hcmph h hport hrc
  rw [forwardWalk_eq_filter hsome]
  exact processBuffer_of_hit hbuilt hf hdata

/-- On any other message the two agree exactly when the rules that end in an `ACCEPT` filter have
the destinations of the rules whose first empty filter is an `ACCEPT`. -/
theorem processBuffer_eq_forwardWalk_iff_of_miss (hcmph : CmphSpec cmphSearch)
    {parsed : Option (RouterCfg Ept)} {router : Router Ept}
    (h : routerCreate cmphSearch (routerCfgLoad parsed) (routerCreateEndpoints pkEndpointCreate) =
      some router) {i : Nat} {port : Port Ept} {rc : RuleCache Ept}
    (hport : router.routerCfg.portsList[i]? = some port)
    (hrc : router.portRuleCache[i]? = some rc) {msg : Message}
    (hmiss : Misses port rc msg.data) :
    processBuffer rc msg.data =
        some (forwardWalk router.routerCfg.portsList port.forwardingRulesList msg.data) ↔
      (port.forwardingRulesList.filter ForwardingRule.lastFilterAccepts).map
          (ForwardingRule.pubEpt router.routerCfg.portsList) =
        (port.forwardingRulesList.filter ForwardingRule.defaultAccepts).map
          (ForwardingRule.pubEpt router.routerCfg.portsList) := by
  obtain ⟨hbuilt, -⟩ := routerCreate_spec hcmph h hport hrc
  rw [processBuffer_of_miss hbuilt hmiss, forwardWalk_of_miss hbuilt hmiss, hbuilt.accepts,
    Option.some.injEq]

end router

/-! ### A small router -/

/-- A search that meets `CmphSpec`: the position of the key, or `0` for any other key. -/
def idxSearch (keys : List (List UInt8)) (key : List UInt8) : Nat :=
  if key ∈ keys then keys.idxOf key else 0

lemma cmphSpec_idxSearch : CmphSpec idxSearch := by
  refine ⟨fun keys _ a ha b hb heq => ?_, fun keys hne k => ?_⟩
  · rw [idxSearch, idxSearch, if_pos ha, if_pos hb] at heq
    exact (List.idxOf_inj ha).mp heq
  · unfold idxSearch
    split_ifs with hk
    · exact List.idxOf_lt_length_iff.mpr hk
    · exact List.length_pos_iff.mpr hne

/-- A source port with one rule to one sink port. -/
def twoPortCfg (filters : List Filter) : RouterCfg Nat :=
  { name := "test"
    portsList := [ ⟨"source", "source", "ipc:///src.pub", "ipc:///src.sub", none, none,
          [⟨"sink", none, filters⟩]⟩,
        ⟨"sink", "sink", "ipc:///snk.pub", "ipc:///snk.sub", none, none, []⟩ ] }

/-- Accept what starts with `0x55`, reject the rest. -/
def acceptThenReject : List Filter := [⟨.accept, [0x55], by decide⟩, ⟨.reject, [], by decide⟩]

/-- Reject what starts with `0x55`, accept the rest. -/
def rejectThenAccept : List Filter := [⟨.reject, [0x55], by decide⟩, ⟨.accept, [], by decide⟩]

/-- Accept what starts with `0x55`, with no filter for the rest. -/
def acceptOnly : List Filter := [⟨.accept, [0x55], by decide⟩]

/-- The router of `twoPortCfg`, with endpoints numbered in the order they are opened. -/
def twoPortRouter (filters : List Filter) : Option (Router Nat) :=
  routerCreate idxSearch (routerCfgLoad (some (twoPortCfg filters)))
    (routerCreateEndpoints fun k _ => some k)

/-- The source port of the router and its cache. -/
def IsSource (filters : List Filter) (router : Router Nat) (port : Port Nat) (rc : RuleCache Nat) :
    Prop :=
  twoPortRouter filters = some router ∧ router.routerCfg.portsList[0]? = some port ∧
    router.portRuleCache[0]? = some rc

theorem processBuffer_eq_forwardWalk_of_hit_twoPort :
    ∃ router port rc, IsSource acceptThenReject router port rc ∧ processBuffer rc [0x55, 7] =
        some (forwardWalk router.routerCfg.portsList port.forwardingRulesList [0x55, 7]) := by
  have hsource : ∃ router port rc, IsSource acceptThenReject router port rc ∧
      (⟨.accept, [0x55], by decide⟩ : Filter) ∈ port.prefixFilters ∧
      rc.rulePrefixes.prefixLen = 1 :=
    ⟨_, _, _, ⟨rfl, rfl, rfl⟩, by decide, rfl⟩
  obtain ⟨router, port, rc, hsrc, hf, hlen⟩ := hsource
  refine ⟨router, port, rc, hsrc, ?_⟩
  exact processBuffer_eq_forwardWalk_of_hit cmphSpec_idxSearch hsrc.1 hsrc.2.1 hsrc.2.2 hf
    (by rw [hlen]; rfl)

theorem processBuffer_eq_forwardWalk_iff_of_miss_twoPort :
    ∃ router port rc, IsSource rejectThenAccept router port rc ∧ processBuffer rc [0, 7] =
        some (forwardWalk router.routerCfg.portsList port.forwardingRulesList [0, 7]) := by
  have hsource : ∃ router port rc, IsSource rejectThenAccept router port rc ∧
      rc.rulePrefixes.prefixLen = 1 ∧ (∀ f ∈ port.prefixFilters, [0] ≠ f.data) ∧
      port.forwardingRulesList.filter ForwardingRule.lastFilterAccepts =
        port.forwardingRulesList.filter ForwardingRule.defaultAccepts :=
    ⟨_, _, _, ⟨rfl, rfl, rfl⟩, rfl, by decide, by decide⟩
  obtain ⟨router, port, rc, hsrc, hlen, hne, hrules⟩ := hsource
  refine ⟨router, port, rc, hsrc, ?_⟩
  have hmiss : Misses port rc [0, 7] := Or.inr fun f hf => by rw [hlen]; exact hne f hf
  exact (@processBuffer_eq_forwardWalk_iff_of_miss _ _ _ cmphSpec_idxSearch _ _ hsrc.1 _ _ _
    hsrc.2.1 hsrc.2.2 ⟨[0, 7], by decide⟩ hmiss).mpr (by rw [hrules])

/-- A rule that only accepts `0x55` still forwards a message that starts with `0`. -/
theorem processBuffer_ne_forwardWalk_acceptOnly :
    CmphSpec idxSearch ∧ ∃ router port rc, IsSource acceptOnly router port rc ∧
      Misses port rc [0, 7] ∧ processBuffer rc [0, 7] = some [some 2] ∧
      forwardWalk router.routerCfg.portsList port.forwardingRulesList [0, 7] = [] := by
  refine ⟨cmphSpec_idxSearch, _, _, _, ⟨rfl, rfl, rfl⟩, Or.inr ?_, rfl, rfl⟩
  decide

end PiksiBuildroot.EndpointRouter
