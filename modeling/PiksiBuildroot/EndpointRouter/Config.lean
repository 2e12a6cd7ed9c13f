import PiksiBuildroot.Lib.FallibleMap
import Mathlib.Algebra.Group.Int.Defs
import Mathlib.Algebra.Group.Nat.Defs

/-!
# The router configuration and its endpoints

The data model of `endpoint_router.h` and the two passes `router_create` runs over a parsed
configuration before it builds the rule caches: `dst_ports_set` and `router_create_endpoints`.

Pointers into `ports_list` are positions in the list, a pointer that may be `NULL` is an `Option`,
and linked lists are Lean lists. Endpoints are an arbitrary type `Ept`.
-/

namespace PiksiBuildroot.EndpointRouter

open Lib List Option

/-- What a matching filter does with the data. Source: `filter_action_t`. -/
inductive FilterAction where
  | accept
  | reject
  deriving DecidableEq, Repr

/-- A filter: its action and its `len` bytes of `data`. The loader grows `data` one byte at a
time with `malloc(len + 1)` and gives up when that fails, and no object is larger than
`PTRDIFF_MAX = 2^31 - 1` bytes on the 32-bit target; `len_lt` records this.
Source: `filter_t`, `process_prefix_element`. -/
structure Filter where
  action : FilterAction
  data : List UInt8
  len_lt : data.length < 2 ^ 31
  deriving DecidableEq

/-- Source: the field `len` of `filter_t`. -/
abbrev Filter.len (f : Filter) : Nat := f.data.length

/-- A forwarding rule. `dstPort` is `none` until `dstPortsSet` has resolved `dstPortName`.
Source: `forwarding_rule_t`. -/
structure ForwardingRule where
  dstPortName : String
  dstPort : Option Nat
  filtersList : List Filter
  deriving DecidableEq

variable {Ept : Type}

/-- A port of the router. Source: `port_t`. -/
structure Port (Ept : Type) where
  name : String
  metric : String
  pubAddr : String
  subAddr : String
  pubEpt : Option Ept
  subEpt : Option Ept
  forwardingRulesList : List ForwardingRule
  deriving DecidableEq

/-- Source: `router_cfg_t`. -/
structure RouterCfg (Ept : Type) where
  name : String
  portsList : List (Port Ept)
  deriving DecidableEq

/-- The endpoint `rule->dst_port->pub_ept` (`none` is the `NULL` pointer).
Source: the expression of that form in `cache_match_process` and `extract_rule_prefixes`. -/
def ForwardingRule.pubEpt (ports : List (Port Ept)) (rule : ForwardingRule) : Option Ept :=
  rule.dstPort.bind fun i => ports[i]?.bind Port.pubEpt

/-! ### Resolving destination names -/

/-- `strcasecmp(a, b) == 0` in the C locale: only ASCII letters are folded. -/
def strcasecmpEq (a b : String) : Bool := a.toList.map Char.toLower == b.toList.map Char.toLower

/-- Resolve one rule: the first port whose name matches. Source: `dst_ports_set`, inner loop. -/
def dstPortSet (ports : List (Port Ept)) (rule : ForwardingRule) : Option ForwardingRule :=
  match ports.findIdx? fun p => strcasecmpEq rule.dstPortName p.name with
  | some i => some { rule with dstPort := some i }
  | none => none

/-- Resolve every rule of every port, or fail at the first name that no port has.
Source: `dst_ports_set`. -/
def dstPortsSet (router : RouterCfg Ept) : Option (RouterCfg Ept) := do
  let ports ← router.portsList.mapM fun port => do
    let rules ← port.forwardingRulesList.mapM (dstPortSet router.portsList)
    some { port with forwardingRulesList := rules }
  some { router with portsList := ports }

/-- The loader after the YAML events have been read into `parsed` (`none` when that failed).
Source: `router_cfg_load`. -/
def routerCfgLoad (parsed : Option (RouterCfg Ept)) : Option (RouterCfg Ept) :=
  parsed.bind dstPortsSet

/-! ### Opening the endpoints -/

/-- The two server types the router opens. Source: `pk_endpoint_type`. -/
inductive EndpointType where
  | pubServer
  | subServer
  deriving DecidableEq, Repr

/-- What the router passes to `pk_endpoint_create`. Source: `pk_endpoint_config_t`. -/
structure EndpointConfig where
  endpoint : String
  identity : String
  type : EndpointType
  deriving DecidableEq

/-- `snprintf_assert` into a buffer of `n` bytes: the process aborts when the text and its
terminator do not fit. -/
def snprintfAssert (n : Nat) (s : String) : Option String :=
  if s.utf8ByteSize < n then some s else none

/-- The size of `endpoint_metric` in `router_create_endpoints`. -/
def endpointMetricSize : Nat := 128

section endpoints

-- `pk_endpoint_create`, as a function of how many endpoints were asked for before and of the
-- configuration; `none` is its `NULL` result.
variable (pkEndpointCreate : Nat → EndpointConfig → Option Ept)

/-- Open the endpoints of one port, the `k`-th of the list.
Source: `router_create_endpoints`, loop body. -/
def portCreateEndpoints (k : Nat) (port : Port Ept) : Option (Port Ept) := do
  let pubMetric ← snprintfAssert endpointMetricSize s!"router/{port.metric}/pub_server"
  let pub ← pkEndpointCreate (2 * k) ⟨port.pubAddr, pubMetric, .pubServer⟩
  let subMetric ← snprintfAssert endpointMetricSize s!"router/{port.metric}/sub_server"
  let sub ← pkEndpointCreate (2 * k + 1) ⟨port.subAddr, subMetric, .subServer⟩
  some { port with pubEpt := some pub, subEpt := some sub }

/-- Open the endpoints of the ports from position `k` on. Source: `router_create_endpoints`. -/
def portsCreateEndpoints : Nat → List (Port Ept) → Option (List (Port Ept))
  | _, [] => some []
  | k, port :: ports => do
    let port ← portCreateEndpoints pkEndpointCreate k port
    let ports ← portsCreateEndpoints (k + 1) ports
    some (port :: ports)

/-- Source: `router_create_endpoints`. -/
def routerCreateEndpoints (router : RouterCfg Ept) : Option (RouterCfg Ept) := do
  let ports ← portsCreateEndpoints pkEndpointCreate 0 router.portsList
  some { router with portsList := ports }

end endpoints

/-! ### What the two passes leave behind -/

/-- Every rule of the configuration names a port of it. -/
def RouterCfg.Resolved (router : RouterCfg Ept) : Prop :=
  ∀ port ∈ router.portsList, ∀ rule ∈ port.forwardingRulesList,
    ∃ i < router.portsList.length, rule.dstPort = some i

/-- Every port of the configuration has both endpoints open. -/
def RouterCfg.EndpointsOpen (router : RouterCfg Ept) : Prop :=
  ∀ port ∈ router.portsList, port.pubEpt.isSome ∧ port.subEpt.isSome

/-- An accepted rule points at one of the ports. -/
lemma dstPort_of_dstPortSet {ports : List (Port Ept)} {rule rule' : ForwardingRule}
    (h : dstPortSet ports rule = some rule') : ∃ i < ports.length, rule'.dstPort = some i := by
  unfold dstPortSet at h
  split at h
  · rename_i i hi
    cases h
    exact ⟨i, (findIdx?_eq_some_iff_findIdx_eq.mp hi).1, rfl⟩
  · cases h

variable {router router' : RouterCfg Ept}

/-- A loaded configuration is resolved. -/
lemma resolved_of_dstPortsSet (h : dstPortsSet router = some router') : router'.Resolved := by
  unfold dstPortsSet at h
  simp only [bind_eq_bind, bind_eq_some_iff, some.injEq] at h
  obtain ⟨ports, hports, rfl⟩ := h
  intro port hport rule hrule
  obtain ⟨port₀, -, hp⟩ := exists_of_mem_mapM hports hport
  simp only [bind_eq_some_iff, some.injEq] at hp
  obtain ⟨rules, hrules, rfl⟩ := hp
  obtain ⟨rule₀, -, hr⟩ := exists_of_mem_mapM hrules hrule
  obtain ⟨i, hi, hdst⟩ := dstPort_of_dstPortSet hr
  exact ⟨i, by simpa [length_of_mapM hports] using hi, hdst⟩

section endpoints

variable {pkEndpointCreate : Nat → EndpointConfig → Option Ept} {k : Nat}

/-- Opening the endpoints of a port touches nothing else of it. -/
lemma portCreateEndpoints_eq {port port' : Port Ept}
    (h : portCreateEndpoints pkEndpointCreate k port = some port') :
    ∃ pub sub, port' = { port with pubEpt := some pub, subEpt := some sub } := by
  unfold portCreateEndpoints at h
  simp only [bind_eq_bind, bind_eq_some_iff, some.injEq] at h
  obtain ⟨-, -, pub, -, -, -, sub, -, rfl⟩ := h
  exact ⟨pub, sub, rfl⟩

/-- Opening the endpoints keeps the forwarding rules, port by port, and leaves every endpoint
open. -/
lemma portsCreateEndpoints_spec {ports ports' : List (Port Ept)}
    (h : portsCreateEndpoints pkEndpointCreate k ports = some ports') :
    ports'.map Port.forwardingRulesList = ports.map Port.forwardingRulesList ∧
      ∀ port ∈ ports', port.pubEpt.isSome ∧ port.subEpt.isSome := by
  induction ports generalizing k ports' with
  | nil =>
    simp only [portsCreateEndpoints, some.injEq] at h
    subst h
    simp
  | cons port ports ih =>
    simp only [portsCreateEndpoints, bind_eq_bind, bind_eq_some_iff, some.injEq] at h
    obtain ⟨p, hp, ps, hps, rfl⟩ := h
    obtain ⟨pub, sub, rfl⟩ := portCreateEndpoints_eq hp
    obtain ⟨hrules, hopen⟩ := ih hps
    refine ⟨by simp [hrules], fun q hq => ?_⟩
    rcases mem_cons.mp hq with rfl | hq'
    · exact ⟨rfl, rfl⟩
    · exact hopen q hq'

/-- Opening the endpoints of a resolved configuration leaves a resolved one with every endpoint
open. -/
lemma routerCreateEndpoints_spec (hr : router.Resolved)
    (h : routerCreateEndpoints pkEndpointCreate router = some router') :
    router'.Resolved ∧ router'.EndpointsOpen := by
  unfold routerCreateEndpoints at h
  simp only [bind_eq_bind, bind_eq_some_iff, some.injEq] at h
  obtain ⟨ports, hports, rfl⟩ := h
  obtain ⟨hrules, hopen⟩ := portsCreateEndpoints_spec hports
  refine ⟨fun port hport rule hrule => ?_, hopen⟩
  have hlen : ports.length = router.portsList.length := by
    simpa using congrArg List.length hrules
  have hmem : port.forwardingRulesList ∈ router.portsList.map Port.forwardingRulesList := by
    rw [← hrules]
    exact List.mem_map_of_mem hport
  obtain ⟨port₀, hport₀, heq⟩ := List.mem_map.mp hmem
  obtain ⟨i, hi, hdst⟩ := hr port₀ hport₀ rule (heq ▸ hrule)
  exact ⟨i, by simpa [hlen] using hi, hdst⟩

end endpoints

/-- In a resolved configuration with open endpoints the destination of a rule is never `NULL`. -/
lemma RouterCfg.pubEpt_isSome {router : RouterCfg Ept} (hr : router.Resolved)
    (ho : router.EndpointsOpen) {port : Port Ept} (hport : port ∈ router.portsList)
    {rule : ForwardingRule} (hrule : rule ∈ port.forwardingRulesList) :
    (rule.pubEpt router.portsList).isSome := by
  obtain ⟨i, hi, hdst⟩ := hr port hport rule hrule
  simp only [ForwardingRule.pubEpt, hdst, bind_some, getElem?_eq_getElem hi]
  exact (ho _ (getElem_mem hi)).1

end PiksiBuildroot.EndpointRouter
