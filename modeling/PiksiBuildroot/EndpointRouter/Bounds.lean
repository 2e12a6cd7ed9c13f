import PiksiBuildroot.EndpointRouter.Routing

/-!
# The bounds of the arrays of a rule cache

`router_create` allocates `accept_ports` with one place for each rule of the port, and the
`endpoints` of each prefix with one place for each port of the router. Both are filled by
`array[count++] = …`. Here the functions that fill them also log the places they write to
(`routerCreateLogged_fst`). Which of them are in the arrays is `writes_lt_iff`.
-/

namespace PiksiBuildroot.EndpointRouter

open Lib List Option

variable {Ept : Type}

/-! ### Logging the writes -/

/-- The slot and the place in it that the next matching rule is written to. Source:
`rule_cache->cached_ports[key].endpoints[rule_cache->cached_ports[key].count++]`. -/
def RuleCache.nextWrite (rc : RuleCache Ept) (data : List UInt8) : Option (Nat × Nat) :=
  rc.hash.map fun hash =>
    let key := hash (data.take rc.rulePrefixes.prefixLen)
    (key, (rc.cachedPorts[key]?.map fun c => c.endpoints.length).getD 0)

/-- `cacheMatchProcess` with a log of the writes to `endpoints`. -/
def cacheMatchProcessLogged (ports : List (Port Ept)) :
    MatchFn (Option (RuleCache Ept × List (Nat × Nat))) :=
  fun rule filter data length context =>
    context.bind fun logged =>
      (cacheMatchProcess ports rule filter data length (some logged.1)).map fun rc =>
        (rc, logged.2 ++ (logged.1.nextWrite data).toList)

/-- `scanRule` with a log of the writes to `accept_ports`. Source:
`rule_cache->accept_ports[rule_cache->accept_ports_count++]`. -/
def scanRuleLogged (ports : List (Port Ept)) (s : PrefixScan Ept × List Nat)
    (rule : ForwardingRule) : Option (PrefixScan Ept × List Nat) :=
  (scanRule ports s.1 rule).map fun scan =>
    (scan, if rule.lastFilterAccepts then s.2 ++ [s.1.acceptPorts.length] else s.2)

/-- The places that are written when the cache of a port is built. -/
structure Writes where
  endpoints : List (Nat × Nat)
  acceptPorts : List Nat

/-- The cache of a port before the prefixes are processed. -/
def emptyRuleCache (port : Port Ept) (rulePrefixes : RulePrefixes) (scan : PrefixScan Ept)
    (hash : List UInt8 → Nat) : RuleCache Ept where
  hash := some hash
  cachedPorts := List.replicate rulePrefixes.count ⟨List.replicate maxPrefixLen 0, []⟩
  acceptPorts := scan.acceptPorts
  rulePrefixes := rulePrefixes
  ruleCount := port.forwardingRulesList.length
  subEpt := port.subEpt

section create

variable (cmphSearch : List (List UInt8) → List UInt8 → Nat)

/-- `createRuleCache` with a log of the writes. -/
def createRuleCacheLogged (ports : List (Port Ept)) (port : Port Ept) :
    Option (RuleCache Ept × Writes) :=
  (port.forwardingRulesList.foldlM (scanRuleLogged ports) (⟨-1, 0, []⟩, [])).bind fun accepts =>
    (extractRulePrefixes ports port).bind fun extracted =>
      if extracted.1.count > 0 then
        (extracted.1.prefixes.foldl (fun ctx pre =>
          processForwardingRules port.forwardingRulesList pre extracted.1.prefixLen
            (cacheMatchProcessLogged ports) ctx)
          (some (emptyRuleCache port extracted.1 extracted.2
            (cmphSearch (extracted.1.prefixes.map (List.take extracted.1.prefixLen))), []))).map
          fun logged => (logged.1, ⟨logged.2, accepts.2⟩)
      else (createRuleCache cmphSearch ports port).map fun rc => (rc, ⟨[], accepts.2⟩)

/-- `routerCreate` with a log of the writes for each port. -/
def routerCreateLogged (routerCfg : Option (RouterCfg Ept))
    (loadEndpoints : RouterCfg Ept → Option (RouterCfg Ept)) :
    Option (Router Ept × List Writes) := do
  let routerCfg ← routerCfg
  let routerCfg ← loadEndpoints routerCfg
  let logged ← routerCfg.portsList.mapM (createRuleCacheLogged cmphSearch routerCfg.portsList)
  some (⟨routerCfg, logged.map Prod.fst, routerCfg.portsList.length⟩, logged.map Prod.snd)

end create

/-! ### The log does not change the result -/

/-- Running the rules commutes with a map between the contexts of two callbacks. -/
lemma processForwardingRules_hom {σ τ : Type} (g : σ → τ) {f : MatchFn σ} {f' : MatchFn τ}
    (hom : ∀ rule filter data length ctx,
      g (f rule filter data length ctx) = f' rule filter data length (g ctx))
    (rules : List ForwardingRule) (data : List UInt8) (length : Nat) (ctx : σ) :
    g (processForwardingRules rules data length f ctx) =
      processForwardingRules rules data length f' (g ctx) := by
  induction rules generalizing ctx with
  | nil => rfl
  | cons rule rules ih =>
    rw [processForwardingRules_cons, processForwardingRules_cons, ih]
    cases rule.firstMatch data length with
    | none => rfl
    | some filter => rw [hom]

lemma cacheMatchProcessLogged_fst (ports : List (Port Ept)) (rule : ForwardingRule)
    (filter : Filter) (data : List UInt8) (length : Nat)
    (ctx : Option (RuleCache Ept × List (Nat × Nat))) :
    (cacheMatchProcessLogged ports rule filter data length ctx).map Prod.fst =
      cacheMatchProcess ports rule filter data length (ctx.map Prod.fst) := by
  cases ctx with
  | none => rfl
  | some logged =>
    simp [cacheMatchProcessLogged, Function.comp_def]

lemma foldlM_scanRuleLogged_fst (ports : List (Port Ept)) (rules : List ForwardingRule)
    (s : PrefixScan Ept × List Nat) :
    (rules.foldlM (scanRuleLogged ports) s).map Prod.fst = rules.foldlM (scanRule ports) s.1 := by
  induction rules generalizing s with
  | nil => rfl
  | cons rule rules ih =>
    rw [foldlM_cons, foldlM_cons]
    simp only [scanRuleLogged, bind_eq_bind, bind_map, Option.map_bind]
    exact congrArg _ (funext fun scan => ih _)

lemma foldl_cacheMatchProcessLogged_fst (ports : List (Port Ept)) (rules : List ForwardingRule)
    (n : Nat) (prefixes : List (List UInt8)) (ctx : Option (RuleCache Ept × List (Nat × Nat))) :
    (prefixes.foldl (fun ctx pre =>
        processForwardingRules rules pre n (cacheMatchProcessLogged ports) ctx) ctx).map Prod.fst =
      prefixes.foldl (fun ctx pre =>
        processForwardingRules rules pre n (cacheMatchProcess ports) ctx) (ctx.map Prod.fst) := by
  induction prefixes generalizing ctx with
  | nil => rfl
  | cons pre prefixes ih =>
    rw [foldl_cons, foldl_cons, ih,
      processForwardingRules_hom _ (cacheMatchProcessLogged_fst ports)]

/-- Without the log it is `createRuleCache`. -/
lemma createRuleCacheLogged_fst (cmphSearch : List (List UInt8) → List UInt8 → Nat)
    (ports : List (Port Ept)) (port : Port Ept) :
    (createRuleCacheLogged cmphSearch ports port).map Prod.fst =
      createRuleCache cmphSearch ports port := by
  have hscan := foldlM_scanRuleLogged_fst ports port.forwardingRulesList (⟨-1, 0, []⟩, [])
  unfold createRuleCacheLogged
  cases haccepts : port.forwardingRulesList.foldlM (scanRuleLogged ports) (⟨-1, 0, []⟩, []) with
  | none =>
    rw [haccepts] at hscan
    have hnone : extractRulePrefixes ports port = none := by
      simp [extractRulePrefixes, ← hscan]
    simp [createRuleCache, hnone]
  | some accepts =>
    cases hex : extractRulePrefixes ports port with
    | none => simp [createRuleCache, hex]
    | some extracted =>
      simp only [bind_some]
      split
      · next hcount =>
          rw [Option.map_map]
          refine (foldl_cacheMatchProcessLogged_fst ports _ _ _ _).trans ?_
          simp only [createRuleCache, hex, bind_eq_bind, bind_some, if_pos hcount]
          rfl
      · rw [Option.map_map]
        exact Option.map_id'

lemma mapM_fst {α β γ : Type} {f : α → Option (β × γ)} {g : α → Option β}
    (h : ∀ a, (f a).map Prod.fst = g a) (l : List α) :
    (l.mapM f).map (List.map Prod.fst) = l.mapM g := by
  induction l with
  | nil => rfl
  | cons a l ih =>
    simp only [mapM_cons, ← h a, ← ih, bind_eq_bind, Option.pure_def, Option.map_bind,
      bind_map, Function.comp_def, map_some, map_cons]

/-- The log does not change the result. -/
theorem routerCreateLogged_fst (cmphSearch : List (List UInt8) → List UInt8 → Nat)
    (routerCfg : Option (RouterCfg Ept)) (loadEndpoints : RouterCfg Ept → Option (RouterCfg Ept)) :
    (routerCreateLogged cmphSearch routerCfg loadEndpoints).map Prod.fst =
      routerCreate cmphSearch routerCfg loadEndpoints := by
  simp only [routerCreateLogged, routerCreate, bind_eq_bind, Option.map_bind,
    ← mapM_fst (createRuleCacheLogged_fst cmphSearch _), bind_map, Function.comp_def,
    map_some]

/-! ### What is logged -/

/-- The log of the writes to the slots of a cache: in each slot the places below its length. -/
structure Logged (hash : List UInt8 → Nat) (n : Nat) (rc : RuleCache Ept)
    (writes : List (Nat × Nat)) : Prop where
  hash_eq : rc.hash = some hash
  length_eq : rc.cachedPorts.length = n
  mem_iff : ∀ key i, (key, i) ∈ writes ↔ ∃ c, rc.cachedPorts[key]? = some c ∧ i < c.endpoints.length
  keys : ∀ w ∈ writes, ∃ k, w.1 = hash k

variable {ports : List (Port Ept)} {hash : List UInt8 → Nat} {n : Nat} {rc : RuleCache Ept}
  {rules : List ForwardingRule}

/-- A match of one rule keeps the log in step with the cache. -/
lemma Logged.step (hlt : ∀ k, hash k < n) {writes : List (Nat × Nat)}
    (h : Logged hash n rc writes) {rule : ForwardingRule} {filter : Filter} {data : List UInt8}
    {length : Nat} {logged : RuleCache Ept × List (Nat × Nat)}
    (hstep : cacheMatchProcessLogged ports rule filter data length (some (rc, writes)) =
      some logged) :
    Logged hash n logged.1 logged.2 := by
  obtain ⟨rc', hrc', rfl⟩ := map_eq_some_iff.mp hstep
  simp only [cacheMatchProcess, bind_eq_bind, bind_some, h.hash_eq] at hrc'
  split at hrc'
  · cases hrc'
  · cases hrc'
    have hkey : hash (data.take rc.rulePrefixes.prefixLen) < rc.cachedPorts.length :=
      h.length_eq ▸ hlt _
    generalize hk : hash (data.take rc.rulePrefixes.prefixLen) = key at hkey ⊢
    have hnext : rc.nextWrite data = some (key, rc.cachedPorts[key].endpoints.length) := by
      simp [RuleCache.nextWrite, h.hash_eq, hk, getElem?_eq_getElem hkey]
    refine ⟨rfl, by simp [h.length_eq], fun key' i => ?_, fun w hw => ?_⟩
    · have hcount : ∀ (ept : Option Ept) (c : CachedPort Ept),
          (c.record rc.rulePrefixes.prefixLen data ept).endpoints.length =
            c.endpoints.length + 1 := by
        simp [CachedPort.record]
      simp only [hnext, toList_some, mem_append, mem_singleton, h.mem_iff]
      by_cases heq : key' = key
      · subst heq
        simp only [getElem?_modify_eq, getElem?_eq_getElem hkey, Option.map_eq_map,
          map_some, some.injEq, exists_eq_left', hcount, Prod.mk.injEq, true_and]
        exact Nat.lt_succ_iff_lt_or_eq.symm
      · simp [heq, Ne.symm heq]
    · simp only [hnext, toList_some, mem_append, mem_singleton] at hw
      rcases hw with hw | rfl
      · exact h.keys w hw
      · exact ⟨_, hk.symm⟩

/-- What a callback keeps is kept by running the rules. -/
lemma processForwardingRules_invariant {σ : Type} (inv : σ → Prop) {f : MatchFn σ}
    (hstep : ∀ rule filter data length ctx, inv ctx → inv (f rule filter data length ctx))
    (rules : List ForwardingRule) (data : List UInt8) (length : Nat) {ctx : σ} (h : inv ctx) :
    inv (processForwardingRules rules data length f ctx) := by
  induction rules generalizing ctx with
  | nil => exact h
  | cons rule rules ih =>
    rw [processForwardingRules_cons]
    refine ih ?_
    cases rule.firstMatch data length with
    | none => exact h
    | some filter => exact hstep rule filter data length ctx h

lemma logged_foldl (hlt : ∀ k, hash k < n) {len : Nat} {prefixes : List (List UInt8)}
    {ctx : Option (RuleCache Ept × List (Nat × Nat))}
    (hctx : ∀ logged ∈ ctx, Logged hash n logged.1 logged.2) :
    ∀ logged ∈ prefixes.foldl (fun ctx pre =>
      processForwardingRules rules pre len (cacheMatchProcessLogged ports) ctx) ctx,
      Logged hash n logged.1 logged.2 := by
  induction prefixes generalizing ctx with
  | nil => exact hctx
  | cons pre prefixes ih =>
    refine ih (processForwardingRules_invariant
      (fun ctx : Option (RuleCache Ept × List (Nat × Nat)) =>
        ∀ logged ∈ ctx, Logged hash n logged.1 logged.2) ?_ rules pre len hctx)
    intro rule filter data length ctx hctx logged hlogged
    cases ctx with
    | none => cases hlogged
    | some before => exact (hctx before rfl).step hlt hlogged

lemma logged_emptyRuleCache (port : Port Ept) (rp : RulePrefixes) (scan : PrefixScan Ept)
    (hash : List UInt8 → Nat) : Logged hash rp.count (emptyRuleCache port rp scan hash) [] := by
  refine ⟨rfl, by simp [emptyRuleCache], fun key i => ?_, fun w hw => absurd hw not_mem_nil⟩
  simp only [not_mem_nil, false_iff, not_exists, not_and]
  intro c hc
  obtain ⟨-, rfl⟩ := mem_replicate.mp (mem_of_getElem? hc)
  exact Nat.not_lt_zero _

/-- The places in `accept_ports` are those below its length. -/
lemma lt_of_foldlM_scanRuleLogged {s s' : PrefixScan Ept × List Nat}
    (hs : ∀ j ∈ s.2, j < s.1.acceptPorts.length)
    (h : rules.foldlM (scanRuleLogged ports) s = some s') :
    ∀ j ∈ s'.2, j < s'.1.acceptPorts.length := by
  induction rules generalizing s with
  | nil =>
    cases h
    exact hs
  | cons rule rules ih =>
    obtain ⟨t, hrule, ht⟩ := bind_eq_some_iff.mp h
    obtain ⟨scan, hscan, rfl⟩ := map_eq_some_iff.mp hrule
    have haccepts := (rulesScanned_of_scanRule hscan).accepts
    refine ih (fun j hj => ?_) ht
    rw [haccepts]
    by_cases hlast : rule.lastFilterAccepts = true
    · simp only [hlast, if_true, mem_append, mem_singleton] at hj
      simp only [hlast, filter_singleton, cond_true, length_append, map_cons,
        map_nil, length_singleton]
      rcases hj with hj | rfl
      · exact Nat.lt_succ_of_lt (hs j hj)
      · exact Nat.lt_succ_self _
    · simp only [hlast] at hj
      rw [length_append]
      exact Nat.lt_add_right _ (hs j hj)

/-! ### The bounds -/

/-- The rules of the port that match some data. -/
def Port.matchingRules (port : Port Ept) (data : List UInt8) : List ForwardingRule :=
  port.forwardingRulesList.filter fun rule => (rule.firstMatch data data.length).isSome

lemma length_matchedEpts (ports : List (Port Ept)) (rules : List ForwardingRule)
    (data : List UInt8) (length : Nat) :
    (matchedEpts ports rules data length).length =
      (rules.filter fun rule => (rule.firstMatch data length).isSome).length := by
  induction rules with
  | nil => rfl
  | cons rule rules ih =>
    simp only [matchedEpts] at ih ⊢
    cases hm : rule.firstMatch data length with
    | none | some filter => simp [hm, ih]

variable {port : Port Ept}

/-- The slot of a prefix has one entry for each rule that matches it. -/
lemma length_endpoints_of_holdsFor (hbuilt : rc.Built ports port) {f : Filter}
    (hf : f ∈ port.prefixFilters) {c : CachedPort Ept}
    (hc : c.HoldsFor ports port.forwardingRulesList rc.rulePrefixes.prefixLen f.data) :
    c.endpoints.length = (port.matchingRules f.data).length := by
  have hn : f.data.length = rc.rulePrefixes.prefixLen := hbuilt.len_eq f hf
  have htake : (prefixBlock rc.rulePrefixes.prefixLen f.data).take rc.rulePrefixes.prefixLen =
      f.data.take rc.rulePrefixes.prefixLen := take_prefixBlock hn.ge
  have hsame : matchedEpts ports port.forwardingRulesList
      (prefixBlock rc.rulePrefixes.prefixLen f.data) rc.rulePrefixes.prefixLen =
        matchedEpts ports port.forwardingRulesList f.data f.data.length := by
    refine matchedEpts_congr (fun g hg hne => ?_) le_rfl hn.ge htake
    exact hbuilt.len_eq g (mem_prefixFilters.mpr ⟨hg, hne⟩)
  rw [hc.epts, hsame, length_matchedEpts]
  rfl

section bounds

variable {cmphSearch : List (List UInt8) → List UInt8 → Nat} {w : Writes}

lemma ruleCount_of_createRuleCache (h : createRuleCache cmphSearch ports port = some rc) :
    rc.ruleCount = port.forwardingRulesList.length := by
  unfold createRuleCache at h
  simp only [bind_eq_bind, bind_eq_some_iff] at h
  obtain ⟨⟨rp, scan⟩, -, h⟩ := h
  split at h
  · rw [@fillCache_eq _ _ _ _ _ rp.prefixes ⟨some _, _, _, rp, _, _⟩ rfl rfl, some.injEq] at h
    subst h
    rfl
  · cases h
    rfl

/-- The log of the writes to the slots, unless the port has no prefix. -/
lemma logged_of_createRuleCacheLogged (hcmph : CmphSpec cmphSearch)
    (h : createRuleCacheLogged cmphSearch ports port = some (rc, w)) :
    (port.prefixFilters = [] ∧ w.endpoints = []) ∨
      (port.prefixFilters ≠ [] ∧ ∃ hash n, Logged hash n rc w.endpoints) := by
  unfold createRuleCacheLogged at h
  simp only [bind_eq_some_iff] at h
  obtain ⟨accepts, -, ⟨rp, scan⟩, hex, h⟩ := h
  have hspec := extractRulePrefixes_spec hex
  split at h
  · next hcount =>
      obtain ⟨logged, hlogged, heq⟩ := map_eq_some_iff.mp h
      cases heq
      have hpos : 0 < rp.prefixes.length := hspec.count_eq ▸ hcount
      have hne : rp.prefixes.map (List.take rp.prefixLen) ≠ [] :=
        ne_nil_of_length_pos (by simpa using hpos)
      obtain ⟨f, hf, -⟩ := (hspec.mem_iff _).mp (getElem_mem hpos)
      have hlt : ∀ k, cmphSearch (rp.prefixes.map (List.take rp.prefixLen)) k < rp.count := by
        intro k
        rw [hspec.count_eq]
        simpa using hcmph.lt _ hne k
      refine Or.inr ⟨ne_nil_of_mem hf, _, rp.count,
        logged_foldl hlt (fun before hbefore => ?_) logged hlogged⟩
      cases hbefore
      exact logged_emptyRuleCache port rp scan _
  · next hcount =>
      obtain ⟨rc', -, heq⟩ := map_eq_some_iff.mp h
      cases heq
      refine Or.inl ⟨?_, rfl⟩
      rw [eq_nil_iff_forall_not_mem]
      intro f hf
      have hpos := length_pos_of_mem ((hspec.mem_iff _).mpr ⟨f, hf, rfl⟩)
      exact hcount (hspec.count_eq ▸ hpos)

/-- `accept_ports` is large enough. -/
lemma acceptPorts_lt (h : createRuleCacheLogged cmphSearch ports port = some (rc, w)) :
    ∀ j ∈ w.acceptPorts, j < rc.ruleCount := by
  have hfst := createRuleCacheLogged_fst cmphSearch ports port
  rw [h] at hfst
  rw [ruleCount_of_createRuleCache hfst.symm]
  unfold createRuleCacheLogged at h
  simp only [bind_eq_some_iff] at h
  obtain ⟨accepts, haccepts, ⟨rp, scan⟩, -, h⟩ := h
  have hw : w.acceptPorts = accepts.2 := by
    split at h
    · obtain ⟨logged, -, heq⟩ := map_eq_some_iff.mp h
      cases heq
      rfl
    · obtain ⟨rc', -, heq⟩ := map_eq_some_iff.mp h
      cases heq
      rfl
  have hscan := foldlM_scanRuleLogged_fst ports port.forwardingRulesList (⟨-1, 0, []⟩, [])
  rw [haccepts] at hscan
  have hlength : accepts.1.acceptPorts.length ≤ port.forwardingRulesList.length := by
    rw [(rulesScanned_of_foldlM hscan.symm).accepts]
    simpa using length_filter_le _ _
  intro j hj
  rw [hw] at hj
  have hlt := lt_of_foldlM_scanRuleLogged (fun j hj => absurd hj not_mem_nil) haccepts j hj
  exact Nat.lt_of_lt_of_le hlt hlength

/-- The `endpoints` of the prefixes have room for `n` entries exactly if no prefix is matched by
more than `n` rules. -/
lemma endpoints_lt_iff (hcmph : CmphSpec cmphSearch)
    (h : createRuleCacheLogged cmphSearch ports port = some (rc, w)) (n : Nat) :
    (∀ x ∈ w.endpoints, x.2 < n) ↔
      ∀ f ∈ port.prefixFilters, (port.matchingRules f.data).length ≤ n := by
  have hfst := createRuleCacheLogged_fst cmphSearch ports port
  rw [h] at hfst
  have hbuilt := createRuleCache_spec hcmph hfst.symm
  rcases logged_of_createRuleCacheLogged hcmph h with ⟨hnone, hempty⟩ | ⟨hne, hash, m, hlogged⟩
  · simp [hnone, hempty]
  constructor
  · intro hlt f hf
    obtain ⟨hash', hhash', hslots⟩ := hbuilt.slots (ne_nil_of_mem hf)
    obtain ⟨g, hg, hown, c, hc, hholds⟩ := hslots f.data
    rw [← hown f hf rfl, ← length_endpoints_of_holdsFor hbuilt hg hholds]
    -- the last place of the slot was written to
    by_contra hmore
    exact absurd (hlt (hash' f.data, n) ((hlogged.mem_iff _ _).mpr ⟨c, hc, Nat.not_le.mp hmore⟩))
      (Nat.lt_irrefl _)
  · rintro hle ⟨key, i⟩ hmem
    obtain ⟨c, hc, hi⟩ := (hlogged.mem_iff key i).mp hmem
    obtain ⟨k, rfl⟩ := hlogged.keys _ hmem
    obtain ⟨hash', hhash', hslots⟩ := hbuilt.slots hne
    obtain rfl : hash' = hash := some_inj.mp (hhash'.symm.trans hlogged.hash_eq)
    obtain ⟨f, hf, -, c', hc', hholds⟩ := hslots k
    obtain rfl : c' = c := some_inj.mp (hc'.symm.trans hc)
    rw [length_endpoints_of_holdsFor hbuilt hf hholds] at hi
    exact Nat.lt_of_lt_of_le hi (hle f hf)

end bounds

/-- For every router that is created, and each of its ports: the places written in `accept_ports`
are below `rule_count`, and those written in the `endpoints` of the prefixes are below `port_count`
exactly if no prefix of the port is matched by more rules of it than there are ports. -/
theorem writes_lt_iff {cmphSearch : List (List UInt8) → List UInt8 → Nat}
    (hcmph : CmphSpec cmphSearch) {routerCfg : Option (RouterCfg Ept)}
    {loadEndpoints : RouterCfg Ept → Option (RouterCfg Ept)} {router : Router Ept}
    (h : routerCreate cmphSearch routerCfg loadEndpoints = some router) :
    ∃ writes, routerCreateLogged cmphSearch routerCfg loadEndpoints = some (router, writes) ∧
      writes.length = router.routerCfg.portsList.length ∧
      ∀ (i : Nat) (port : Port Ept) (rc : RuleCache Ept) (w : Writes),
        router.routerCfg.portsList[i]? = some port → router.portRuleCache[i]? = some rc →
        writes[i]? = some w →
        (∀ j ∈ w.acceptPorts, j < rc.ruleCount) ∧
        ((∀ x ∈ w.endpoints, x.2 < router.portCount) ↔
          ∀ f ∈ port.prefixFilters, (port.matchingRules f.data).length ≤ router.portCount) := by
  rw [← routerCreateLogged_fst] at h
  obtain ⟨⟨router, writes⟩, hlogged, rfl⟩ := map_eq_some_iff.mp h
  refine ⟨writes, hlogged, ?_⟩
  simp only [routerCreateLogged, bind_eq_bind, bind_eq_some_iff, some.injEq,
    Prod.mk.injEq] at hlogged
  obtain ⟨loaded, -, cfg, -, logged, hports, rfl, rfl⟩ := hlogged
  refine ⟨by simp [length_of_mapM hports], fun i port rc w hport hrc hw => ?_⟩
  have hi : logged[i]? = some (rc, w) := by
    rw [getElem?_map, map_eq_some_iff] at hrc hw
    obtain ⟨x, hx, rfl⟩ := hrc
    obtain ⟨y, hy, rfl⟩ := hw
    cases some_inj.mp (hx.symm.trans hy)
    exact hx
  obtain ⟨port', hport', hcreate⟩ := exists_of_getElem?_mapM hports hi
  obtain rfl : port' = port := some_inj.mp (hport'.symm.trans hport)
  exact ⟨acceptPorts_lt hcreate, endpoints_lt_iff hcmph hcreate _⟩

/-- One rule and two ports: there is room for every entry. -/
theorem writes_lt_iff_twoPort : ∃ router writes w, twoPortRouter acceptThenReject = some router ∧
      routerCreateLogged idxSearch (routerCfgLoad (some (twoPortCfg acceptThenReject)))
        (routerCreateEndpoints fun k _ => some k) = some (router, writes) ∧
      writes[0]? = some w ∧ w.endpoints = [(0, 0)] ∧ ∀ x ∈ w.endpoints, x.2 < router.portCount := by
  obtain ⟨router, writes, w, port, rc, hrun, hw, hplaces, hsource, hmatching⟩ :
      ∃ router writes w port rc,
        routerCreateLogged idxSearch (routerCfgLoad (some (twoPortCfg acceptThenReject)))
          (routerCreateEndpoints fun k _ => some k) = some (router, writes) ∧
        writes[0]? = some w ∧ w.endpoints = [(0, 0)] ∧ IsSource acceptThenReject router port rc ∧
        ∀ f ∈ port.prefixFilters, (port.matchingRules f.data).length ≤ router.portCount :=
    ⟨_, _, _, _, _, rfl, rfl, rfl, ⟨rfl, rfl, rfl⟩, by decide⟩
  obtain ⟨writes', hlogged, -, hall⟩ := writes_lt_iff cmphSpec_idxSearch hsource.1
  obtain rfl : writes = writes' := (Prod.mk.inj (some_inj.mp (hrun.symm.trans hlogged))).2
  exact ⟨router, writes, w, hsource.1, hrun, hw, hplaces,
    (hall 0 port rc w hsource.2.1 hsource.2.2 hw).2.mpr hmatching⟩

/-- A source port with three rules to one sink port. -/
def threeRulesCfg : RouterCfg Nat :=
  { name := "test"
    portsList := [ ⟨"source", "source", "ipc:///src.pub", "ipc:///src.sub", none, none,
          [⟨"sink", none, acceptOnly⟩, ⟨"sink", none, acceptOnly⟩, ⟨"sink", none, acceptOnly⟩]⟩,
        ⟨"sink", "sink", "ipc:///snk.pub", "ipc:///snk.sub", none, none, []⟩ ] }

/-- Three rules that match one prefix, and two ports: the third entry is beyond the array. -/
theorem not_writes_lt_threeRules : CmphSpec idxSearch ∧ ∃ router writes w,
      routerCreateLogged idxSearch (routerCfgLoad (some threeRulesCfg))
        (routerCreateEndpoints fun k _ => some k) = some (router, writes) ∧
      writes[0]? = some w ∧ router.portCount = 2 ∧ w.endpoints = [(0, 0), (0, 1), (0, 2)] :=
  ⟨cmphSpec_idxSearch, _, _, _, rfl, rfl, rfl, rfl⟩

end PiksiBuildroot.EndpointRouter
