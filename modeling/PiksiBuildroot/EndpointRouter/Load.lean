import PiksiBuildroot.EndpointRouter.Config
import PiksiBuildroot.Lib.CText
import PiksiBuildroot.Lib.StepParser

/-!
# Reading the router configuration

The loader of `endpoint_router_load.c` over the events that the YAML parser delivers. Eight tables
say which events are expected; `handle_expected_events` goes through one table, and the handlers
that the tables name read values, add nodes at the ends of the lists and go through further tables.
The loop ends for every stream, inside its table (`handleExpectedEvents_ends`).
-/

namespace PiksiBuildroot.EndpointRouter

open Lib CText

/-! ### Events -/

/-- Source: `yaml_event_type_t`. -/
inductive EventType where
  | noEvent
  | streamStart
  | streamEnd
  | documentStart
  | documentEnd
  | alias
  | scalar
  | sequenceStart
  | sequenceEnd
  | mappingStart
  | mappingEnd
  deriving DecidableEq, Repr

/-- An event that the parser delivers. The value of a scalar is read as a C string. -/
inductive Event where
  | streamStart
  | streamEnd
  | documentStart
  | documentEnd
  | alias
  | scalar (value : String)
  | sequenceStart
  | sequenceEnd
  | mappingStart
  | mappingEnd
  deriving DecidableEq, Repr

/-- The type of an event. -/
def Event.type : Event → EventType
  | .streamStart => .streamStart
  | .streamEnd => .streamEnd
  | .documentStart => .documentStart
  | .documentEnd => .documentEnd
  | .alias => .alias
  | .scalar _ => .scalar
  | .sequenceStart => .sequenceStart
  | .sequenceEnd => .sequenceEnd
  | .mappingStart => .mappingStart
  | .mappingEnd => .mappingEnd

/-- What the YAML parser delivers for a file: a list of events, after which it fails. The end of the
stream is the last event. -/
structure EventStream where
  events : List Event
  streamEnd_last : ∀ before after, events = before ++ .streamEnd :: after → after = []

/-! ### The tables -/

/-- The handlers that the tables name. Source: the declarations `PROCESS_FN`. -/
inductive ProcessFn where
  | routerName
  | ports
  | port
  | portName
  | portMetric
  | pubAddr
  | subAddr
  | forwardingRules
  | forwardingRule
  | dstPort
  | filters
  | filter
  | action
  | prefixList
  | prefixElement
  deriving DecidableEq, Repr

/-- Source: `expected_event_t`. -/
structure ExpectedEvent where
  eventType : EventType
  scalarValue : Option String
  process : Option ProcessFn
  next : Bool
  deriving DecidableEq, Repr

/-- Source: `router_events`. -/
def routerEvents : List ExpectedEvent := [⟨.streamStart, none, none, false⟩,
   ⟨.documentStart, none, none, false⟩,
   ⟨.mappingStart, none, none, false⟩,
   ⟨.scalar, some "name", some .routerName, true⟩,
   ⟨.scalar, some "ports", some .ports, true⟩,
   ⟨.mappingEnd, none, none, false⟩,
   ⟨.documentEnd, none, none, false⟩,
   ⟨.streamEnd, none, none, false⟩,
   ⟨.noEvent, none, none, false⟩]

/-- Source: `ports_events`. -/
def portsEvents : List ExpectedEvent := [⟨.sequenceStart, none, none, false⟩,
   ⟨.mappingStart, none, some .port, true⟩,
   ⟨.sequenceEnd, none, none, false⟩,
   ⟨.noEvent, none, none, false⟩]

/-- Source: `port_events`. -/
def portEvents : List ExpectedEvent := [⟨.scalar, some "name", some .portName, true⟩,
   ⟨.scalar, some "metric", some .portMetric, true⟩,
   ⟨.scalar, some "pub_addr", some .pubAddr, true⟩,
   ⟨.scalar, some "sub_addr", some .subAddr, true⟩,
   ⟨.scalar, some "forwarding_rules", some .forwardingRules, true⟩,
   ⟨.mappingEnd, none, none, false⟩,
   ⟨.noEvent, none, none, false⟩]

/-- Source: `forwarding_rules_events`. -/
def forwardingRulesEvents : List ExpectedEvent := [⟨.sequenceStart, none, none, false⟩,
   ⟨.mappingStart, none, some .forwardingRule, true⟩,
   ⟨.sequenceEnd, none, none, false⟩,
   ⟨.noEvent, none, none, false⟩]

/-- Source: `forwarding_rule_events`. -/
def forwardingRuleEvents : List ExpectedEvent := [⟨.scalar, some "dst_port", some .dstPort, true⟩,
   ⟨.scalar, some "filters", some .filters, true⟩,
   ⟨.mappingEnd, none, none, false⟩,
   ⟨.noEvent, none, none, false⟩]

/-- Source: `filters_events`. -/
def filtersEvents : List ExpectedEvent := [⟨.sequenceStart, none, none, false⟩,
   ⟨.mappingStart, none, some .filter, true⟩,
   ⟨.sequenceEnd, none, none, false⟩,
   ⟨.noEvent, none, none, false⟩]

/-- Source: `filter_events`. -/
def filterEvents : List ExpectedEvent := [⟨.scalar, some "action", some .action, true⟩,
   ⟨.scalar, some "prefix", some .prefixList, true⟩,
   ⟨.mappingEnd, none, none, false⟩,
   ⟨.noEvent, none, none, false⟩]

/-- Source: `prefix_events`. -/
def prefixEvents : List ExpectedEvent := [⟨.sequenceStart, none, none, false⟩,
   ⟨.scalar, none, some .prefixElement, true⟩,
   ⟨.sequenceEnd, none, none, false⟩,
   ⟨.noEvent, none, none, false⟩]

/-! ### Going through a table -/

/-- The configuration that is being read, and whether its name is a copy on the heap or still the
literal `""` of the beginning. Source: `router_cfg_t`. -/
structure Loading (Ept : Type) extends RouterCfg Ept where
  nameOnHeap : Bool

/-- Why reading gives no configuration. Only `rejected` is a result of the code. -/
inductive Failure where
  /-- A handler or the loop returns -1, with the configuration as it is then. -/
  | rejected (nameOnHeap : Bool)
  /-- An element behind the end of a table is read. -/
  | outOfBounds
  /-- The loop has not come to its end. -/
  | outOfFuel
  deriving DecidableEq, Repr

variable {Ept : Type}

/-- The events that are left and the configuration built so far. -/
abbrev LoadState (Ept : Type) := List Event × Loading Ept

/-- Return -1. -/
def Loading.reject {α : Type} (router : Loading Ept) : Except Failure α :=
  .error (.rejected router.nameOnHeap)

@[simp] lemma Loading.reject_ne_ok {α : Type} (router : Loading Ept) (a : α) :
    router.reject ≠ .ok a := nofun

/-- Source: `event_scalar_value_get`. -/
def eventScalarValueGet (router : Loading Ept) : List Event → Except Failure (String × List Event)
  | .scalar value :: parser => .ok (value, parser)
  | _ => router.reject

/-- Source: `expected_event_match`, where 0 is `true`. -/
def expectedEventMatch (event : Event) (expected : ExpectedEvent) : Bool :=
  if event.type ≠ expected.eventType then false
  else
    match event, expected.scalarValue with
    | .scalar value, some scalarValue => strcasecmpEq value scalarValue
    | _, _ => true

/-- The inner loop of `handle_expected_events`: the first element that the event matches, as long as
the elements before it may be skipped, and the table behind it. -/
def findExpected (router : Loading Ept) (event : Event) :
    List ExpectedEvent → Except Failure (ExpectedEvent × List ExpectedEvent)
  | [] => .error .outOfBounds
  | expected :: table =>
    if expectedEventMatch event expected then .ok (expected, table)
    else if expected.next then findExpected router event table
    else router.reject

/-! ### The current nodes -/

/-- Source: `current_port_get`. -/
def currentPortGet (router : Loading Ept) : Option (Port Ept) := router.portsList.getLast?

/-- Source: `current_forwarding_rule_get`. -/
def currentForwardingRuleGet (router : Loading Ept) : Option ForwardingRule :=
  (currentPortGet router).bind fun port => port.forwardingRulesList.getLast?

/-- Source: `current_filter_get`. -/
def currentFilterGet (router : Loading Ept) : Option Filter :=
  (currentForwardingRuleGet router).bind fun rule => rule.filtersList.getLast?

/-- Write to the node that `current_port_get` returns. -/
def modifyPort (f : Port Ept → Port Ept) (router : Loading Ept) : Loading Ept :=
  { router with portsList := router.portsList.modifyLast f }

/-- Write to the node that `current_forwarding_rule_get` returns. -/
def modifyRule (f : ForwardingRule → ForwardingRule) : Loading Ept → Loading Ept :=
  modifyPort fun port => { port with forwardingRulesList := port.forwardingRulesList.modifyLast f }

/-- Write to the node that `current_filter_get` returns. -/
def modifyFilter (f : Filter → Filter) : Loading Ept → Loading Ept :=
  modifyRule fun rule => { rule with filtersList := rule.filtersList.modifyLast f }

/-! ### The handlers -/

/-- Source: the port that `process_port` adds. -/
def newPort : Port Ept :=
  { name := "", metric := "", pubAddr := "", subAddr := "", pubEpt := none, subEpt := none,
    forwardingRulesList := [] }

/-- Source: the rule that `process_forwarding_rule_` adds. -/
def newForwardingRule : ForwardingRule := { dstPortName := "", dstPort := none, filtersList := [] }

/-- Source: the filter that `process_filter` adds. -/
def newFilter : Filter := { action := .reject, data := [], len_lt := Nat.two_pow_pos 31 }

/-- Source: `is_valid_metric_name`. -/
def isValidMetricName (s : String) : Bool := s.toList.any (!isSpace ·)

/-- The byte of an element of a prefix: `strtoul(value, NULL, 16)` as a `uint8_t`, where
`unsigned long` has 32 bits. -/
def prefixByte (value : String) : UInt8 := .ofNat (strtoul 32 16 value.toList).1

/-- A filter with one more byte of data, if there is memory for it. -/
def Filter.push (filter : Filter) (b : UInt8) : Option Filter :=
  if h : (filter.data ++ [b]).length < 2 ^ 31 then
    some { filter with data := filter.data ++ [b], len_lt := h }
  else none

/-- Source: `event_port_string`. -/
def eventPortString (consume : Port Ept → String → Option (Port Ept)) (parser : List Event)
    (router : Loading Ept) : Except Failure (LoadState Ept) := do
  let (str, parser) ← eventScalarValueGet router parser
  match currentPortGet router with
  | none => router.reject
  | some port =>
    match consume port str with
    | none => router.reject
    | some port => .ok (parser, modifyPort (fun _ => port) router)

/-- Source: `process_router_name`. -/
def processRouterName (parser : List Event) (router : Loading Ept) :
    Except Failure (LoadState Ept) := do
  let (str, parser) ← eventScalarValueGet router parser
  .ok (parser, { router with name := str, nameOnHeap := true })

/-- Source: `process_port_name`. -/
def processPortName : List Event → Loading Ept → Except Failure (LoadState Ept) :=
  eventPortString fun p s => some { p with name := s }

/-- Source: `process_port_metric`. -/
def processPortMetric : List Event → Loading Ept → Except Failure (LoadState Ept) :=
  eventPortString fun p s => if isValidMetricName s then some { p with metric := s } else none

/-- Source: `process_pub_addr`. -/
def processPubAddr : List Event → Loading Ept → Except Failure (LoadState Ept) :=
  eventPortString fun p s => some { p with pubAddr := s }

/-- Source: `process_sub_addr`. -/
def processSubAddr : List Event → Loading Ept → Except Failure (LoadState Ept) :=
  eventPortString fun p s => some { p with subAddr := s }

/-- Source: `process_dst_port`. -/
def processDstPort (parser : List Event) (router : Loading Ept) : Except Failure (LoadState Ept) :=
  match currentForwardingRuleGet router with
  | none => router.reject
  | some rule => do
    let (str, parser) ← eventScalarValueGet router parser
    .ok (parser, modifyRule (fun _ => { rule with dstPortName := str }) router)

/-- Source: the comparisons of `process_action`. -/
def filterActionOf (str : String) : Option FilterAction :=
  if strcasecmpEq str "ACCEPT" then some .accept
  else if strcasecmpEq str "REJECT" then some .reject
  else none

/-- Source: `process_action`. -/
def processAction (parser : List Event) (router : Loading Ept) : Except Failure (LoadState Ept) :=
  match currentFilterGet router with
  | none => router.reject
  | some filter => do
    let (str, parser) ← eventScalarValueGet router parser
    match filterActionOf str with
    | none => router.reject
    | some action => .ok (parser, modifyFilter (fun _ => { filter with action := action }) router)

/-- Source: `process_prefix_element`. The event is the element itself. -/
def processPrefixElement (event : Event) (parser : List Event) (router : Loading Ept) :
    Except Failure (LoadState Ept) :=
  match event, currentFilterGet router with
  | .scalar value, some filter =>
    match filter.push (prefixByte value) with
    | none => router.reject
    | some filter => .ok (parser, modifyFilter (fun _ => filter) router)
  | _, _ => router.reject

section handlers

-- `handle_expected_events`, for the handlers that go through a further table
variable
  (handle : List ExpectedEvent → List Event → Loading Ept → Except Failure (LoadState Ept))

/-- Source: `process_port`. -/
def processPort (parser : List Event) (router : Loading Ept) : Except Failure (LoadState Ept) := do
  let i := router.portsList.length
  let (parser, router) ←
    handle portEvents parser { router with portsList := router.portsList ++ [newPort] }
  match router.portsList[i]? with
  | none => router.reject
  | some port => if isValidMetricName port.metric then .ok (parser, router) else router.reject

/-- Source: `process_forwarding_rule_`. -/
def Load.processForwardingRule (parser : List Event) (router : Loading Ept) :
    Except Failure (LoadState Ept) :=
  match currentPortGet router with
  | none => router.reject
  | some port =>
    let rules := port.forwardingRulesList ++ [newForwardingRule]
    handle forwardingRuleEvents parser
      (modifyPort (fun _ => { port with forwardingRulesList := rules }) router)

/-- Source: `process_filter`. -/
def processFilter (parser : List Event) (router : Loading Ept) : Except Failure (LoadState Ept) :=
  match currentForwardingRuleGet router with
  | none => router.reject
  | some rule =>
    handle filterEvents parser
      (modifyRule (fun _ => { rule with filtersList := rule.filtersList ++ [newFilter] }) router)

/-- The call of the function that an element of a table names. -/
def process (event : Event) (parser : List Event) (router : Loading Ept) :
    Option ProcessFn → Except Failure (LoadState Ept)
  | none => .ok (parser, router)
  | some .routerName => processRouterName parser router
  | some .ports => handle portsEvents parser router
  | some .port => processPort handle parser router
  | some .portName => processPortName parser router
  | some .portMetric => processPortMetric parser router
  | some .pubAddr => processPubAddr parser router
  | some .subAddr => processSubAddr parser router
  | some .forwardingRules => handle forwardingRulesEvents parser router
  | some .forwardingRule => Load.processForwardingRule handle parser router
  | some .dstPort => processDstPort parser router
  | some .filters => handle filtersEvents parser router
  | some .filter => processFilter handle parser router
  | some .action => processAction parser router
  | some .prefixList => handle prefixEvents parser router
  | some .prefixElement => processPrefixElement event parser router

end handlers

/-- Source: `handle_expected_events`, from the element at `event_offset` on. -/
def handleExpectedEvents :
    Nat → List ExpectedEvent → List Event → Loading Ept → Except Failure (LoadState Ept)
  | 0, _, _, _ => .error .outOfFuel
  | _ + 1, [], _, _ => .error .outOfBounds
  | fuel + 1, first :: table, parser, router =>
    if first.eventType = .noEvent then .ok (parser, router)
    else
      match parser with
      | [] => router.reject
      | event :: parser => do
        let (expected, behind) ← findExpected router event (first :: table)
        let (parser, router) ←
          process (handleExpectedEvents fuel) event parser router expected.process
        let table := if expected.next then first :: table else behind
        handleExpectedEvents fuel table parser router

/-- Reading the events and resolving the names, up to the label `error`.
Source: `router_cfg_load`. -/
def routerCfgRead (stream : EventStream) : Except Failure (RouterCfg Ept) := do
  let (_, router) ← handleExpectedEvents (stream.events.length + 1) routerEvents stream.events
    { name := "", portsList := [], nameOnHeap := false }
  match dstPortsSet router.toRouterCfg with
  | none => router.reject
  | some router => .ok router

/-- What comes of loading. -/
inductive Loaded (Ept : Type) where
  | router (router : RouterCfg Ept)
  | null
  /-- The C library ends the process at a `free` of what is not on the heap. -/
  | aborted
  deriving DecidableEq

/-- Every pointer but the name is freed only if its text is not empty, and then it is on the heap.
Source: `router_cfg_teardown`, for `router_cfg_load`. -/
def routerCfgTeardown (nameOnHeap : Bool) : Loaded Ept := if nameOnHeap then .null else .aborted

/-- Source: `router_cfg_load` on the events of the file. -/
def routerCfgLoadEvents (stream : EventStream) : Except Failure (Loaded Ept) :=
  match routerCfgRead stream with
  | .ok router => .ok (.router router)
  | .error (.rejected nameOnHeap) => .ok (routerCfgTeardown nameOnHeap)
  | .error failure => .error failure

variable {event : Event} {expected : ExpectedEvent} {failure : Failure}

section rounds

variable {fuel : Nat} {first : ExpectedEvent} {table : List ExpectedEvent}

lemma handleExpectedEvents_noEvent (h : first.eventType = .noEvent) (parser : List Event)
    (router : Loading Ept) :
    handleExpectedEvents (fuel + 1) (first :: table) parser router = .ok (parser, router) := by
  simp only [handleExpectedEvents, if_pos h]

lemma handleExpectedEvents_nil (h : first.eventType ≠ .noEvent) (router : Loading Ept) :
    handleExpectedEvents (fuel + 1) (first :: table) [] router = router.reject := by
  simp only [handleExpectedEvents, if_neg h]

/-- A round with an event that is not expected. -/
lemma handleExpectedEvents_unexpected (h : first.eventType ≠ .noEvent) {router : Loading Ept}
    (hfind : findExpected router event (first :: table) = .error failure) (parser : List Event) :
    handleExpectedEvents (fuel + 1) (first :: table) (event :: parser) router = .error failure := by
  simp only [handleExpectedEvents, if_neg h, hfind]
  rfl

/-- A round with an expected event. -/
lemma handleExpectedEvents_expected (h : first.eventType ≠ .noEvent) {behind : List ExpectedEvent}
    {router : Loading Ept}
    (hfind : findExpected router event (first :: table) = .ok (expected, behind))
    (parser : List Event) :
    handleExpectedEvents (fuel + 1) (first :: table) (event :: parser) router =
      (process (handleExpectedEvents fuel) event parser router expected.process).bind fun r =>
        handleExpectedEvents fuel (if expected.next then first :: table else behind) r.1 r.2 := by
  simp only [handleExpectedEvents, if_neg h, hfind]
  rfl

end rounds

/-! ### The loop ends, inside its table -/

/-- A table ends with `YAML_NO_EVENT`, which is not skipped. -/
def Closed (table : List ExpectedEvent) : Prop :=
  table.getLast?.any fun last => last.eventType == .noEvent && !last.next

lemma closed_cons {table : List ExpectedEvent} (h : Closed (expected :: table))
    (hne : expected.eventType ≠ .noEvent ∨ expected.next) : Closed table := by
  cases table with
  | nil =>
    simp only [Closed, List.getLast?_singleton, Option.any_some, Bool.and_eq_true, beq_iff_eq,
      Bool.not_eq_true'] at h
    rcases hne with hne | hne
    · exact absurd h.1 hne
    · rw [h.2] at hne
      cases hne
  | cons second table =>
    unfold Closed at h ⊢
    rwa [List.getLast?_cons_cons] at h

lemma eventType_ne_noEvent (h : expectedEventMatch event expected) :
    expected.eventType ≠ .noEvent := by
  intro hno
  unfold expectedEventMatch at h
  rw [hno, if_pos (by cases event <;> simp [Event.type])] at h
  cases h

/-- The inner loop stops inside the table. -/
lemma findExpected_closed (router : Loading Ept) (event : Event) {table : List ExpectedEvent}
    (h : Closed table) :
    (∃ expected behind, findExpected router event table = .ok (expected, behind) ∧ Closed behind) ∨
      findExpected router event table = router.reject := by
  induction table with
  | nil => exact absurd h Bool.false_ne_true
  | cons expected table ih =>
    unfold findExpected
    by_cases hmatch : expectedEventMatch event expected
    · left
      refine ⟨expected, table, if_pos hmatch, ?_⟩
      exact closed_cons h (Or.inl (eventType_ne_noEvent hmatch))
    · by_cases hnext : expected.next
      · simp only [hmatch, hnext, Bool.false_eq_true, if_true, if_false]
        exact ih (closed_cons h (Or.inr hnext))
      · simp [hmatch, hnext]

/-- A result that the code can have: no event comes back, or -1. -/
def Ends (parser : List Event) : Except Failure (LoadState Ept) → Prop
  | .ok (rest, _) => rest.length ≤ parser.length
  | .error failure => ∃ nameOnHeap, failure = .rejected nameOnHeap

variable {r : Except Failure (LoadState Ept)}

lemma Ends.mono {parser parser' : List Event} (h : Ends parser r)
    (hle : parser.length ≤ parser'.length) : Ends parser' r := by
  cases r with
  | error failure => exact h
  | ok state => exact Nat.le_trans h hle

lemma Ends.bind {parser : List Event} {f : LoadState Ept → Except Failure (LoadState Ept)}
    (hr : Ends parser r)
    (hf : ∀ rest router, rest.length ≤ parser.length → Ends rest (f (rest, router))) :
    Ends parser (r >>= f) := by
  cases r with
  | error failure => exact hr
  | ok state => exact (hf state.1 state.2 hr).mono hr

/-- Reading a value ends if what is done with it does. -/
lemma ends_value (router : Loading Ept) (parser : List Event)
    {f : String × List Event → Except Failure (LoadState Ept)}
    (hf : ∀ str rest, Ends rest (f (str, rest))) :
    Ends parser (eventScalarValueGet router parser >>= f) := by
  unfold eventScalarValueGet
  split
  · exact (hf _ _).mono (Nat.le_succ _)
  · exact ⟨_, rfl⟩

lemma eventPortString_ends (consume : Port Ept → String → Option (Port Ept))
    (parser : List Event) (router : Loading Ept) :
    Ends parser (eventPortString consume parser router) := by
  apply ends_value
  intro str rest
  cases currentPortGet router with
  | none => exact ⟨_, rfl⟩
  | some port =>
    show Ends rest (match consume port str with
      | none => router.reject
      | some port => .ok (rest, modifyPort (fun _ => port) router))
    cases consume port str with
    | none => exact ⟨_, rfl⟩
    | some port => exact Nat.le_refl _

section handlers

variable
  {handle : List ExpectedEvent → List Event → Loading Ept → Except Failure (LoadState Ept)}

/-- Every handler ends if the passes over the further tables do. -/
lemma process_ends {parser : List Event} {router : Loading Ept}
    (hhandle : ∀ table router, Closed table → Ends parser (handle table parser router))
    (fn : Option ProcessFn) : Ends parser (process handle event parser router fn) := by
  unfold process
  split
  · exact Nat.le_refl _
  · exact ends_value router parser fun str rest => Nat.le_refl _
  · exact hhandle portsEvents router rfl
  · apply (hhandle portEvents _ rfl).bind
    intro rest router' hrest
    dsimp only
    split
    · exact ⟨_, rfl⟩
    · split
      · exact Nat.le_refl _
      · exact ⟨_, rfl⟩
  · exact eventPortString_ends _ parser router
  · exact eventPortString_ends _ parser router
  · exact eventPortString_ends _ parser router
  · exact eventPortString_ends _ parser router
  · exact hhandle forwardingRulesEvents router rfl
  · unfold Load.processForwardingRule
    split
    · exact ⟨_, rfl⟩
    · exact hhandle forwardingRuleEvents _ rfl
  · unfold processDstPort
    split
    · exact ⟨_, rfl⟩
    · exact ends_value router parser fun str rest => Nat.le_refl _
  · exact hhandle filtersEvents router rfl
  · unfold processFilter
    split
    · exact ⟨_, rfl⟩
    · exact hhandle filterEvents _ rfl
  · unfold processAction
    split
    · exact ⟨_, rfl⟩
    · apply ends_value
      intro str rest
      dsimp only
      split
      · exact ⟨_, rfl⟩
      · exact Nat.le_refl _
  · exact hhandle prefixEvents router rfl
  · unfold processPrefixElement
    split
    · split
      · exact ⟨_, rfl⟩
      · exact Nat.le_refl _
    · exact ⟨_, rfl⟩

end handlers

/-- Each round takes an event, so that the loop ends, and always at an element of its table. -/
theorem handleExpectedEvents_ends {fuel : Nat} {table : List ExpectedEvent} (hclosed : Closed table)
    {parser : List Event} (hfuel : parser.length < fuel) (router : Loading Ept) :
    Ends parser (handleExpectedEvents fuel table parser router) := by
  induction fuel generalizing table parser router with
  | zero => exact absurd hfuel (Nat.not_lt_zero _)
  | succ fuel ih =>
    cases table with
    | nil => exact absurd hclosed Bool.false_ne_true
    | cons first table =>
      by_cases hno : first.eventType = .noEvent
      · rw [handleExpectedEvents_noEvent hno]
        exact Nat.le_refl _
      · cases parser with
        | nil =>
          rw [handleExpectedEvents_nil hno]
          exact ⟨_, rfl⟩
        | cons event parser =>
          have hlt : parser.length < fuel := Nat.lt_of_succ_lt_succ hfuel
          apply Ends.mono _ (Nat.le_succ parser.length)
          rcases findExpected_closed router event hclosed with
            ⟨expected, behind, hfind, hbehind⟩ | hfind
          · rw [handleExpectedEvents_expected hno hfind]
            apply (process_ends (fun table router h => ih h hlt router) _).bind
            intro rest router' hrest
            apply ih _ (Nat.lt_of_le_of_lt hrest hlt)
            split
            · exact hclosed
            · exact hbehind
          · rw [handleExpectedEvents_unexpected hno hfind]
            exact ⟨_, rfl⟩

/-- Reading gives a configuration or -1. -/
lemma routerCfgRead_error {stream : EventStream}
    (h : @routerCfgRead Ept stream = .error failure) : ∃ b, failure = .rejected b := by
  have hends := @handleExpectedEvents_ends Ept _ routerEvents rfl _
    (Nat.lt_succ_self stream.events.length) { name := "", portsList := [], nameOnHeap := false }
  unfold routerCfgRead at h
  cases hpass : handleExpectedEvents (stream.events.length + 1) routerEvents stream.events
      { name := "", portsList := ([] : List (Port Ept)), nameOnHeap := false } with
  | error f =>
    rw [hpass] at h hends
    exact Except.error.inj h ▸ hends
  | ok r =>
    rw [hpass] at h
    dsimp only [Bind.bind, Except.bind] at h
    split at h
    · exact ⟨_, (Except.error.inj h).symm⟩
    · cases h

/-- Loading always comes to a result, and to a configuration exactly if reading does. -/
lemma exists_routerCfgLoadEvents (stream : EventStream) :
    ∃ loaded, @routerCfgLoadEvents Ept stream = .ok loaded ∧
      ∀ cfg, loaded = .router cfg ↔ routerCfgRead stream = .ok cfg := by
  unfold routerCfgLoadEvents
  cases hread : @routerCfgRead Ept stream with
  | ok router => exact ⟨_, rfl, by simp⟩
  | error failure =>
    obtain ⟨nameOnHeap, rfl⟩ := routerCfgRead_error hread
    exact ⟨_, rfl, by cases nameOnHeap <;> simp [routerCfgTeardown]⟩

end PiksiBuildroot.EndpointRouter
