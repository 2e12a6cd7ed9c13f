import PiksiBuildroot.EndpointRouter.Prefixes

/-!
# The rule cache of a port and how messages are routed

`router_create` builds for every port a table that maps each of its prefixes to the list of
destinations, by running the forwarding rules on the prefix, and `process_buffer` routes a message
by one look-up in that table. The table is addressed by a minimal perfect hash of the cmph library,
which is not part of this repository: it is the parameter `cmphSearch`, and `CmphSpec` states what
the router relies on. `forwardWalk` is the routing the table stands for.
-/

namespace PiksiBuildroot.EndpointRouter

open Lib

variable {Ept : Type}

/-! ### Running the forwarding rules -/

/-- A callback on the first matching filter of a rule, with its context passed along.
Source: `match_fn_t`. -/
abbrev MatchFn (σ : Type) := ForwardingRule → Filter → List UInt8 → Nat → σ → σ

/-- The filter matches the first `length` bytes of `data`; an empty filter matches all.
Source: `process_forwarding_rule`, the computation of `match` (`data` is never `NULL` here). -/
def Filter.isMatch (filter : Filter) (data : List UInt8) (length : Nat) : Bool :=
  if filter.len = 0 then true
  else decide (filter.len ≤ length) && memcmp filter.len data filter.data == .eq

/-- Run one rule: the callback is called for the first filter that matches.
Source: `process_forwarding_rule`. -/
def processForwardingRule {σ : Type} (rule : ForwardingRule) (data : List UInt8) (length : Nat)
    (matchFn : MatchFn σ) (context : σ) : σ :=
  match rule.filtersList.find? fun f => f.isMatch data length with
  | some filter => matchFn rule filter data length context
  | none => context

/-- Run the rules in order. Source: `process_forwarding_rules`. -/
def processForwardingRules {σ : Type} (rules : List ForwardingRule) (data : List UInt8)
    (length : Nat) (matchFn : MatchFn σ) (context : σ) : σ :=
  rules.foldl (fun ctx rule => processForwardingRule rule data length matchFn ctx) context

/-- The callback that collects the destinations of accepting rules. -/
def collectAccept (ports : List (Port Ept)) : MatchFn (List (Option Ept)) :=
  fun rule filter _ _ acc =>
    match filter.action with
    | .accept => acc ++ [rule.pubEpt ports]
    | .reject => acc

/-- The destinations of a message by walking the rules of the port on it. -/
def forwardWalk (ports : List (Port Ept)) (rules : List ForwardingRule) (data : List UInt8) :
    List (Option Ept) :=
  processForwardingRules rules data data.length (collectAccept ports) []

/-! ### The rule cache -/

/-- The entry of one prefix: its bytes and its destinations, `none` for a rule that rejects.
The field `count` of the source is the length of `endpoints`. Source: `cached_port_t`. -/
structure CachedPort (Ept : Type) where
  prefixBytes : List UInt8
  endpoints : List (Option Ept)

/-- The cache of one port. `hash` is `none` for the `NULL` pointer, and `accept_ports_count` of
the source is the length of `acceptPorts`. Source: `rule_cache_t`. -/
structure RuleCache (Ept : Type) where
  hash : Option (List UInt8 → Nat)
  cachedPorts : List (CachedPort Ept)
  acceptPorts : List (Option Ept)
  rulePrefixes : RulePrefixes
  ruleCount : Nat
  subEpt : Option Ept

/-- `memcpy` of `n` bytes to the front of a buffer. -/
def memcpyTo (n : Nat) (data buf : List UInt8) : List UInt8 := data.take n ++ buf.drop n

/-- Record one matching rule in the entry of a prefix.
Source: `cache_match_process`, the assignments to `cached_ports[key]`. -/
def CachedPort.record (n : Nat) (data : List UInt8) (ept : Option Ept) (c : CachedPort Ept) :
    CachedPort Ept :=
  { prefixBytes := memcpyTo n data c.prefixBytes, endpoints := c.endpoints ++ [ept] }

/-- What a matching rule contributes to an entry: its destination, or `NULL` when it rejects. -/
def matchedEpt (ports : List (Port Ept)) (rule : ForwardingRule) (filter : Filter) : Option Ept :=
  match filter.action with
  | .accept => rule.pubEpt ports
  | .reject => none

/-- The callback that fills the cache. The context is `none` after the failed assertion
`length >= prefix_len`. Source: `cache_match_process`. -/
def cacheMatchProcess (ports : List (Port Ept)) : MatchFn (Option (RuleCache Ept)) :=
  fun rule filter data length context => do
    let ruleCache ← context
    if length < ruleCache.rulePrefixes.prefixLen then none
    else match ruleCache.hash with
      | none => some ruleCache
      | some hash =>
        let n := ruleCache.rulePrefixes.prefixLen
        let key := hash (data.take n)
        let ept := matchedEpt ports rule filter
        let cachedPorts := ruleCache.cachedPorts.modify key (CachedPort.record n data ept)
        some { ruleCache with cachedPorts := cachedPorts }

/-- A router: its configuration and one rule cache for each port. Source: `router_t`. -/
structure Router (Ept : Type) where
  routerCfg : RouterCfg Ept
  portRuleCache : List (RuleCache Ept)
  portCount : Nat

/-- What the router relies on from cmph: for keys without repetitions the search is injective on
the keys and stays below their number on every key. -/
structure CmphSpec (cmphSearch : List (List UInt8) → List UInt8 → Nat) : Prop where
  inj : ∀ keys : List (List UInt8), keys.Nodup → ∀ a ∈ keys, ∀ b ∈ keys,
    cmphSearch keys a = cmphSearch keys b → a = b
  lt : ∀ keys : List (List UInt8), keys ≠ [] → ∀ k, cmphSearch keys k < keys.length

section create

-- `cmph_new` on a vector of keys followed by `cmph_search`
variable (cmphSearch : List (List UInt8) → List UInt8 → Nat)

/-- Build the rule cache of one port. Source: `router_create`, body of the second loop. -/
def createRuleCache (ports : List (Port Ept)) (port : Port Ept) : Option (RuleCache Ept) := do
  let (rulePrefixes, scan) ← extractRulePrefixes ports port
  if rulePrefixes.count > 0 then
    let keys := rulePrefixes.prefixes.map (List.take rulePrefixes.prefixLen)
    let empty : CachedPort Ept := ⟨List.replicate maxPrefixLen 0, []⟩
    let ruleCache : RuleCache Ept :=
      { hash := some (cmphSearch keys)
        cachedPorts := List.replicate rulePrefixes.count empty
        acceptPorts := scan.acceptPorts
        rulePrefixes := rulePrefixes
        ruleCount := port.forwardingRulesList.length
        subEpt := port.subEpt }
    rulePrefixes.prefixes.foldl (fun ctx pre =>
      processForwardingRules port.forwardingRulesList pre rulePrefixes.prefixLen
        (cacheMatchProcess ports) ctx) (some ruleCache)
  else
    some
      { hash := none
        cachedPorts := []
        acceptPorts := scan.acceptPorts
        rulePrefixes := rulePrefixes
        ruleCount := port.forwardingRulesList.length
        subEpt := port.subEpt }

/-- Source: `router_create`, after `router_cfg_load` gave `routerCfg`. -/
def routerCreate (routerCfg : Option (RouterCfg Ept))
    (loadEndpoints : RouterCfg Ept → Option (RouterCfg Ept)) : Option (Router Ept) := do
  let routerCfg ← routerCfg
  let routerCfg ← loadEndpoints routerCfg
  let caches ← routerCfg.portsList.mapM (createRuleCache cmphSearch routerCfg.portsList)
  some ⟨routerCfg, caches, routerCfg.portsList.length⟩

end create

/-- The endpoints a message is sent to, in order; `none` when a `NULL` hash or an entry outside
the table would be used. Source: `process_buffer`. -/
def processBuffer (ruleCache : RuleCache Ept) (data : List UInt8) : Option (List (Option Ept)) :=
  let prefixLen := ruleCache.rulePrefixes.prefixLen
  if data.length < prefixLen then some ruleCache.acceptPorts
  else do
    let hash ← ruleCache.hash
    let cached ← ruleCache.cachedPorts[hash (data.take prefixLen)]?
    if memcmp prefixLen cached.prefixBytes data = .eq then
      some (cached.endpoints.filter Option.isSome)
    else some ruleCache.acceptPorts

/-! ### The rules in closed form -/

/-- The first filter of the rule that matches. -/
def ForwardingRule.firstMatch (data : List UInt8) (length : Nat) (rule : ForwardingRule) :
    Option Filter :=
  rule.filtersList.find? fun f => f.isMatch data length

/-- The entries the rules contribute for some data: one for each rule that matches. -/
def matchedEpts (ports : List (Port Ept)) (rules : List ForwardingRule) (data : List UInt8)
    (length : Nat) : List (Option Ept) :=
  rules.filterMap fun rule => (rule.firstMatch data length).map (matchedEpt ports rule)

/-- Running one more rule. -/
lemma processForwardingRules_cons {σ : Type} (rule : ForwardingRule)
    (rules : List ForwardingRule) (data : List UInt8) (length : Nat) (matchFn : MatchFn σ)
    (ctx : σ) :
    processForwardingRules (rule :: rules) data length matchFn ctx =
      processForwardingRules rules data length matchFn
        (match rule.firstMatch data length with
          | some filter => matchFn rule filter data length ctx
          | none => ctx) := rfl

/-- The walk, in closed form: the destinations of the rules whose first match accepts. -/
lemma forwardWalk_eq (ports : List (Port Ept)) (rules : List ForwardingRule)
    (data : List UInt8) :
    forwardWalk ports rules data =
      (rules.filter fun r => (r.firstMatch data data.length).any fun f => f.action == .accept).map
        (ForwardingRule.pubEpt ports) := by
  suffices h : ∀ acc, processForwardingRules rules data data.length (collectAccept ports) acc =
      acc ++ (rules.filter fun r =>
        (r.firstMatch data data.length).any fun f => f.action == .accept).map
          (ForwardingRule.pubEpt ports) by
    simpa [forwardWalk] using h []
  induction rules with
  | nil => simp [processForwardingRules]
  | cons rule rules ih =>
    intro acc
    rw [processForwardingRules_cons]
    cases hm : rule.firstMatch data data.length with
    | none => simp [ih, hm]
    | some f =>
      cases ha : f.action with
      | accept | reject => simp [ih, hm, ha, collectAccept]

/-- When no destination is `NULL`, the walk is what the entries keep after dropping `NULL`. -/
lemma forwardWalk_eq_filter {ports : List (Port Ept)} {rules : List ForwardingRule}
    (hsome : ∀ rule ∈ rules, (rule.pubEpt ports).isSome) (data : List UInt8) :
    forwardWalk ports rules data =
      (matchedEpts ports rules data data.length).filter Option.isSome := by
  rw [forwardWalk_eq]
  induction rules with
  | nil => rfl
  | cons rule rules ih =>
    have ih' := ih fun r hr => hsome r (List.mem_cons_of_mem _ hr)
    have hrule := hsome rule List.mem_cons_self
    simp only [matchedEpts] at ih' ⊢
    cases hm : rule.firstMatch data data.length with
    | none => simp [hm, ih']
    | some f => cases ha : f.action <;> simp [hm, ha, matchedEpt, hrule, ih']

end PiksiBuildroot.EndpointRouter
