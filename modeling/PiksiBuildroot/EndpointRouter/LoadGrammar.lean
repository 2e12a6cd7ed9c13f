import PiksiBuildroot.EndpointRouter.LoadTables

/-!
# The grammar of the router configuration

The configuration as a tree (`RouterEntry` down to `FilterEntry`), the events of its YAML text
(`documentEvents`) and the configuration it denotes (`routerOf`). Table by table, from the
innermost, a pass of the loader reads exactly the events of the tree and does what the tree denotes
(`filterEvents_reads` to `routerEvents_reads`, `routerCfgLoadEvents_iff`).
-/

namespace PiksiBuildroot.EndpointRouter

open Lib CText List Option

variable {Ept : Type}

/-! ### Syntax -/

/-- A scalar that is a given word, ignoring case. -/
def Word (word : String) := { value : String // strcasecmpEq value word }

/-- A metric that is not blank. -/
def MetricName := { value : String // isValidMetricName value }

/-- An entry of a filter. -/
inductive FilterEntry where
  | accept (key : Word "action") (value : Word "ACCEPT")
  | reject (key : Word "action") (value : Word "REJECT")
  | prefixList (key : Word "prefix") (elements : List String)

/-- The data that an entry gives. -/
def FilterEntry.data : FilterEntry → List UInt8
  | .prefixList _ elements => elements.map prefixByte
  | _ => []

/-- The action that an entry gives. -/
def FilterEntry.action : FilterEntry → Option FilterAction
  | .accept _ _ => some .accept
  | .reject _ _ => some .reject
  | .prefixList _ _ => none

/-- A filter, with memory for its data. -/
structure FilterSyntax where
  entries : List FilterEntry
  fits : (entries.flatMap FilterEntry.data).length < 2 ^ 31

/-- An entry of a forwarding rule. -/
inductive RuleEntry where
  | dstPort (key : Word "dst_port") (value : String)
  | filters (key : Word "filters") (filters : List FilterSyntax)

/-- An entry of a port. -/
inductive PortEntry where
  | name (key : Word "name") (value : String)
  | metric (key : Word "metric") (value : MetricName)
  | pubAddr (key : Word "pub_addr") (value : String)
  | subAddr (key : Word "sub_addr") (value : String)
  | forwardingRules (key : Word "forwarding_rules") (rules : List (List RuleEntry))

/-- The metric that an entry gives. -/
def PortEntry.metricName : PortEntry → Option String
  | .metric _ value => some value.1
  | _ => none

/-- A port, with a metric. -/
structure PortSyntax where
  entries : List PortEntry
  hasMetric : ∃ entry ∈ entries, entry.metricName.isSome

/-- An entry of the configuration. -/
inductive RouterEntry where
  | name (key : Word "name") (value : String)
  | ports (key : Word "ports") (ports : List PortSyntax)

/-! ### The events of the syntax -/

def FilterEntry.events : FilterEntry → List Event
  | .accept key value => [.scalar key.1, .scalar value.1]
  | .reject key value => [.scalar key.1, .scalar value.1]
  | .prefixList key elements => .scalar key.1 :: sequenceText (fun e => [.scalar e]) elements

def FilterSyntax.events (filter : FilterSyntax) : List Event :=
  mappingText FilterEntry.events filter.entries

def RuleEntry.events : RuleEntry → List Event
  | .dstPort key value => [.scalar key.1, .scalar value]
  | .filters key items => .scalar key.1 :: sequenceText FilterSyntax.events items

def PortEntry.events : PortEntry → List Event
  | .name key value => [.scalar key.1, .scalar value]
  | .metric key value => [.scalar key.1, .scalar value.1]
  | .pubAddr key value => [.scalar key.1, .scalar value]
  | .subAddr key value => [.scalar key.1, .scalar value]
  | .forwardingRules key rules =>
    .scalar key.1 :: sequenceText (mappingText RuleEntry.events) rules

def PortSyntax.events (port : PortSyntax) : List Event := mappingText PortEntry.events port.entries

def RouterEntry.events : RouterEntry → List Event
  | .name key value => [.scalar key.1, .scalar value]
  | .ports key items => .scalar key.1 :: sequenceText PortSyntax.events items

/-- The events of a configuration file. -/
def documentEvents (entries : List RouterEntry) : List Event :=
  .streamStart :: .documentStart :: mappingText RouterEntry.events entries ++
    [.documentEnd, .streamEnd]

/-! ### What the syntax denotes -/

/-- The value that is given last, or a default. -/
def lastGiven {X Y : Type} (value : X → Option Y) (default : Y) (entries : List X) : Y :=
  (entries.filterMap value).getLast?.getD default

/-- The filter with the last action given and all the bytes in document order. -/
def FilterSyntax.filter (filter : FilterSyntax) : Filter where
  action := lastGiven FilterEntry.action .reject filter.entries
  data := filter.entries.flatMap FilterEntry.data
  len_lt := filter.fits

/-- The destination that an entry gives. -/
def RuleEntry.dstPortName : RuleEntry → Option String
  | .dstPort _ value => some value
  | .filters _ _ => none

/-- The filters that an entry gives. -/
def RuleEntry.filtersList : RuleEntry → List Filter
  | .dstPort _ _ => []
  | .filters _ items => items.map FilterSyntax.filter

/-- The rule with the last destination given and all the filters in document order. -/
def ruleOf (entries : List RuleEntry) : ForwardingRule where
  dstPortName := lastGiven RuleEntry.dstPortName "" entries
  dstPort := none
  filtersList := entries.flatMap RuleEntry.filtersList

def PortEntry.portName : PortEntry → Option String
  | .name _ value => some value
  | _ => none

def PortEntry.pubAddress : PortEntry → Option String
  | .pubAddr _ value => some value
  | _ => none

def PortEntry.subAddress : PortEntry → Option String
  | .subAddr _ value => some value
  | _ => none

/-- The rules that an entry gives. -/
def PortEntry.rulesList : PortEntry → List ForwardingRule
  | .forwardingRules _ rules => rules.map ruleOf
  | _ => []

/-- The port with the last values given and all the rules in document order. -/
def portOf (entries : List PortEntry) : Port Ept where
  name := lastGiven PortEntry.portName "" entries
  metric := lastGiven PortEntry.metricName "" entries
  pubAddr := lastGiven PortEntry.pubAddress "" entries
  subAddr := lastGiven PortEntry.subAddress "" entries
  pubEpt := none
  subEpt := none
  forwardingRulesList := entries.flatMap PortEntry.rulesList

def RouterEntry.routerName : RouterEntry → Option String
  | .name _ value => some value
  | .ports _ _ => none

/-- The ports that an entry gives. -/
def RouterEntry.portsList : RouterEntry → List (Port Ept)
  | .name _ _ => []
  | .ports _ items => items.map fun port => portOf port.entries

/-- The configuration with the last name given and all the ports in document order. -/
def routerOf (entries : List RouterEntry) : RouterCfg Ept where
  name := lastGiven RouterEntry.routerName "" entries
  portsList := entries.flatMap RouterEntry.portsList

/-- Every rule names a port, ignoring case. -/
def DstPortsNamed (router : RouterCfg Ept) : Prop :=
  ∀ port ∈ router.portsList, ∀ rule ∈ port.forwardingRulesList,
    ∃ dst ∈ router.portsList, strcasecmpEq rule.dstPortName dst.name

/-- The rules of a port, each pointing at the first port of its name. -/
def resolvePort (ports : List (Port Ept)) (port : Port Ept) : Port Ept := { port with
    forwardingRulesList := port.forwardingRulesList.map fun rule =>
      { rule with
        dstPort := ports.findIdx? fun dst => strcasecmpEq rule.dstPortName dst.name } }

/-- The configuration in which every rule points at the first port of its name. -/
def resolveDstPorts (router : RouterCfg Ept) : RouterCfg Ept :=
  { router with portsList := router.portsList.map (resolvePort router.portsList) }

/-! ### Filters -/

/-- What an entry does to its filter. -/
def FilterEntry.apply : FilterEntry → Filter → Option Filter
  | .accept _ _, filter => some { filter with action := .accept }
  | .reject _ _, filter => some { filter with action := .reject }
  | .prefixList _ elements, filter =>
    manyAct (fun value filter => Filter.push filter (prefixByte value)) elements filter

/-- There is a current filter. -/
def HasFilter (router : Loading Ept) : Prop := (filterFocus.get router).isSome

/-- A prefix is a sequence of scalars, pushed one by one. -/
lemma prefixEvents_reads (fuel : Nat) :
    Reads HasFilter fuel (@handleExpectedEvents Ept fuel prefixEvents)
      (sequenceText fun value => [.scalar value])
      (fun elements => filterFocus.on
        (manyAct (fun value filter => filter.push (prefixByte value)) elements)) := by
  have hloop : IsLoop [⟨.scalar, none, some .prefixElement, true⟩] .sequenceEnd [] :=
    ⟨by decide, by decide, by decide⟩
  have hopen : Event.sequenceStart.type ≠ .scalar := by decide
  have hitem : ∀ fuel, Reads HasFilter (fuel + 1)
      (itemStep [⟨.scalar, none, some .prefixElement, true⟩] (@handleExpectedEvents Ept fuel))
      (fun value => [.scalar value])
      (fun value => filterFocus.on fun filter => filter.push (prefixByte value)) := by
    intro fuel ts s ts' s' hs hlength
    constructor
    · intro hok
      obtain ⟨event, us, e, rfl, hmem, hmatch, hprocess⟩ := exists_of_itemStep hok
      obtain rfl := mem_singleton.mp hmem
      cases event with
      | scalar value =>
        change processPrefixElement _ _ _ = _ at hprocess
        rw [processPrefixElement_eq, resultOf_eq_ok] at hprocess
        exact ⟨value, by rw [hprocess.1]; rfl, hprocess.2⟩
      | _ => cases hmatch
    · rintro ⟨value, rfl, hact⟩
      show processPrefixElement _ _ _ = _
      rw [processPrefixElement_eq, resultOf_eq_ok]
      exact ⟨rfl, hact⟩
  exact reads_opened hopen (hloop.reads_focus (fun x => ⟨_, _, rfl, by simp⟩) hitem) fuel

variable {value : String}

lemma filterActionOf_accept (h : strcasecmpEq value "ACCEPT") :
    filterActionOf value = some .accept := by
  simp only [filterActionOf, h, if_true]

lemma filterActionOf_reject (h : strcasecmpEq value "REJECT") :
    filterActionOf value = some .reject := by
  have hne : strcasecmpEq value "ACCEPT" = false := by
    rw [strcasecmpEq_congr h]
    decide
  simp [filterActionOf, hne, h]

/-- The table of a filter reads its entries into the last filter. -/
theorem filterEvents_reads (fuel : Nat) :
    Reads HasFilter fuel (@handleExpectedEvents Ept fuel filterEvents)
      (manyText FilterEntry.events [.mappingEnd])
      (fun entries => filterFocus.on (manyAct FilterEntry.apply entries)) := by
  have hloop := isLoop_keys [("action", .action), ("prefix", .prefixList)] (forall_mem_nil _)
  refine hloop.reads_focus ?_ ?_ fuel
  · intro entry
    cases entry <;> exact ⟨_, _, rfl, by simp⟩
  intro fuel
  apply reads_keys
  · intro key fn hmem value hkey us s ts' s' hs hlt hok
    simp only [mem_cons, not_mem_nil, or_false, Prod.mk.injEq] at hmem
    rcases hmem with ⟨rfl, rfl⟩ | ⟨rfl, rfl⟩
    · obtain ⟨action, rfl, hact⟩ := processAction_readsValue.ok_iff.mp hok
      by_cases haccept : strcasecmpEq action "ACCEPT"
      · simp only [filterActionOf_accept haccept] at hact
        exact ⟨.accept ⟨value, hkey⟩ ⟨action, haccept⟩, rfl, hact⟩
      · by_cases hreject : strcasecmpEq action "REJECT"
        · simp only [filterActionOf_reject hreject] at hact
          exact ⟨.reject ⟨value, hkey⟩ ⟨action, hreject⟩, rfl, hact⟩
        · simp [filterActionOf, haccept, hreject, Focus.on] at hact
    · obtain ⟨elements, rfl, hact⟩ := (prefixEvents_reads fuel us s ts' s' hs hlt).mp hok
      exact ⟨.prefixList ⟨value, hkey⟩ elements, rfl, hact⟩
  · intro entry s ts' s' hs hlength hact
    cases entry with
    | accept key value =>
      refine (itemStep_key key.2 rfl _ s).trans ?_
      refine processAction_readsValue.ok_iff.mpr ⟨value.1, rfl, ?_⟩
      simp only [filterActionOf_accept value.2]
      exact hact
    | reject key value =>
      refine (itemStep_key key.2 rfl _ s).trans ?_
      refine processAction_readsValue.ok_iff.mpr ⟨value.1, rfl, ?_⟩
      simp only [filterActionOf_reject value.2]
      exact hact
    | prefixList key elements =>
      refine (itemStep_key key.2 rfl _ s).trans ?_
      exact (prefixEvents_reads fuel _ s ts' s' hs (Nat.lt_of_succ_lt_succ hlength)).mpr
        ⟨elements, rfl, hact⟩

lemma lastGiven_cons {X Y : Type} (value : X → Option Y) (default : Y) (x : X) (xs : List X) :
    lastGiven value default (x :: xs) = lastGiven value ((value x).getD default) xs := by
  unfold lastGiven
  cases hx : value x with
  | none => rw [filterMap_cons_none hx, getD_none]
  | some y =>
    rw [filterMap_cons_some hx, getLast?_cons, getD_some, getD_some]

/-- A filter with given data, if there is memory for it. -/
def filterWith (action : FilterAction) (data : List UInt8) : Option Filter :=
  if h : data.length < 2 ^ 31 then some { action := action, data := data, len_lt := h } else none

lemma filterWith_self (filter : Filter) : filterWith filter.action filter.data = some filter :=
  dif_pos filter.len_lt

/-- More data has to fit as well. -/
lemma filterWith_bind (action : FilterAction) (data : List UInt8)
    (g : FilterAction → FilterAction) (more : List UInt8) :
    ((filterWith action data).bind fun filter =>
      filterWith (g filter.action) (filter.data ++ more)) =
        filterWith (g action) (data ++ more) := by
  by_cases h : data.length < 2 ^ 31
  · simp only [filterWith, dif_pos h, bind_some]
  · have hmore : ¬ (data ++ more).length < 2 ^ 31 := by
      rw [length_append]
      omega
    simp only [filterWith, dif_neg h, dif_neg hmore, bind_none]

/-- Pushed bytes follow those that were there. -/
lemma manyAct_push (elements : List String) (filter : Filter) :
    manyAct (fun value filter => Filter.push filter (prefixByte value)) elements filter =
      filterWith filter.action (filter.data ++ elements.map prefixByte) := by
  induction elements generalizing filter with
  | nil => rw [map_nil, append_nil, filterWith_self, manyAct_nil]
  | cons value elements ih =>
    have hrest : manyAct (fun value filter => Filter.push filter (prefixByte value)) elements =
        fun filter => filterWith filter.action (filter.data ++ elements.map prefixByte) :=
      funext ih
    rw [manyAct_cons, hrest]
    have hbind := filterWith_bind filter.action (filter.data ++ [prefixByte value]) id
      (elements.map prefixByte)
    rwa [append_assoc] at hbind

lemma FilterEntry.apply_eq (entry : FilterEntry) (filter : Filter) : entry.apply filter =
      filterWith (entry.action.getD filter.action) (filter.data ++ entry.data) := by
  cases entry with
  | accept key value | reject key value =>
    simp only [FilterEntry.data, append_nil, filterWith, dif_pos filter.len_lt]
    rfl
  | prefixList key elements => exact manyAct_push elements filter

/-- The entries of a filter give its last action and all its bytes, as long as there is memory. -/
lemma manyAct_filterEntry (entries : List FilterEntry) (filter : Filter) :
    manyAct FilterEntry.apply entries filter =
      filterWith (lastGiven FilterEntry.action filter.action entries)
        (filter.data ++ entries.flatMap FilterEntry.data) := by
  induction entries generalizing filter with
  | nil => rw [flatMap_nil, append_nil, manyAct_nil]; exact (filterWith_self filter).symm
  | cons entry entries ih =>
    have hrest : manyAct FilterEntry.apply entries = fun filter =>
        filterWith (lastGiven FilterEntry.action filter.action entries)
          (filter.data ++ entries.flatMap FilterEntry.data) := funext ih
    rw [manyAct_cons, hrest, FilterEntry.apply_eq, lastGiven_cons, flatMap_cons]
    have hbind := filterWith_bind (entry.action.getD filter.action) (filter.data ++ entry.data)
      (fun action => lastGiven FilterEntry.action action entries)
      (entries.flatMap FilterEntry.data)
    rwa [append_assoc] at hbind

lemma manyAct_newFilter (entries : List FilterEntry) : manyAct FilterEntry.apply entries newFilter =
      filterWith (lastGiven FilterEntry.action .reject entries)
        (entries.flatMap FilterEntry.data) :=
  manyAct_filterEntry entries newFilter

/-- A filter is added empty and then filled by its entries. -/
lemma processFilter_reads (fuel : Nat) :
    Reads (fun _ => True) fuel (processFilter (@handleExpectedEvents Ept fuel))
      (fun filter : FilterSyntax => manyText FilterEntry.events [.mappingEnd] filter.entries)
      (fun filter => ruleFocus.on fun rule => some (addFilter rule filter.filter)) := by
  have hraw : Reads (fun _ => True) fuel (processFilter (@handleExpectedEvents Ept fuel))
      (manyText FilterEntry.events [.mappingEnd])
      (fun entries => ruleFocus.on fun rule =>
        (manyAct FilterEntry.apply entries newFilter).map (addFilter rule)) := by
    apply reads_added filterFocus_on_added _ _ (filterEvents_reads fuel)
    · intro parser router hrule
      rw [ruleFocus_get] at hrule
      simp only [processFilter, hrule]
    · intro parser router rule hrule
      rw [ruleFocus_get] at hrule
      simp only [processFilter, hrule, modifyRule_of_current hrule, addFilter]
  apply hraw.congr
  · intro entries s s' _ hact
    rw [manyAct_newFilter] at hact
    by_cases hfits : (entries.flatMap FilterEntry.data).length < 2 ^ 31
    · refine ⟨⟨entries, hfits⟩, rfl, ?_⟩
      rwa [filterWith, dif_pos hfits] at hact
    · rw [filterWith, dif_neg hfits] at hact
      simp [Focus.on] at hact
  · intro filter s s' _ hact
    refine ⟨filter.entries, rfl, ?_⟩
    rw [manyAct_newFilter, filterWith, dif_pos filter.fits]
    exact hact

/-! ### Forwarding rules -/

/-- What an entry does to its rule. -/
def RuleEntry.apply : RuleEntry → ForwardingRule → ForwardingRule
  | .dstPort _ value, rule => { rule with dstPortName := value }
  | .filters _ items, rule =>
    { rule with filtersList := rule.filtersList ++ items.map FilterSyntax.filter }

/-- There is a current rule. -/
def HasRule (router : Loading Ept) : Prop := (ruleFocus.get router).isSome

lemma foldl_addFilter (items : List FilterSyntax) (rule : ForwardingRule) :
    items.foldl (fun rule item => addFilter rule item.filter) rule =
      { rule with filtersList := rule.filtersList ++ items.map FilterSyntax.filter } := by
  induction items generalizing rule with
  | nil => simp
  | cons item items ih =>
    rw [foldl_cons, ih]
    simp [addFilter]

/-- A sequence of filters is added to the last rule. -/
lemma filtersEvents_reads (fuel : Nat) :
    Reads HasRule fuel (@handleExpectedEvents Ept fuel filtersEvents)
      (sequenceText FilterSyntax.events)
      (fun items => ruleFocus.on fun rule =>
        some { rule with filtersList := rule.filtersList ++ items.map FilterSyntax.filter }) := by
  have hfilter : ∀ fuel, Reads (@HasRule Ept) fuel
      (fun parser router => process (handleExpectedEvents fuel) .mappingStart parser router
        (some .filter)) _ _ :=
    fun fuel => (processFilter_reads fuel).weaken fun _ _ => trivial
  have hreads := reads_mappings (fun x s s' _ hact => Focus.isSome_of_on hact) hfilter fuel
  apply hreads.congr_act
  intro items s hs
  rw [Focus.manyAct_on _ items hs]
  congr 1
  funext rule
  rw [manyAct_some, foldl_addFilter]

/-- The table of a rule reads its entries into the last rule. -/
lemma forwardingRuleEvents_reads (fuel : Nat) :
    Reads HasRule fuel (@handleExpectedEvents Ept fuel forwardingRuleEvents)
      (manyText RuleEntry.events [.mappingEnd])
      (fun entries => ruleFocus.on
        (manyAct (fun entry rule => some (RuleEntry.apply entry rule)) entries)) := by
  have hloop := isLoop_keys [("dst_port", .dstPort), ("filters", .filters)] (forall_mem_nil _)
  refine hloop.reads_focus ?_ ?_ fuel
  · intro entry
    cases entry <;> exact ⟨_, _, rfl, by simp⟩
  intro fuel
  apply reads_keys
  · intro key fn hmem value hkey us s ts' s' hs hlt hok
    simp only [mem_cons, not_mem_nil, or_false, Prod.mk.injEq] at hmem
    rcases hmem with ⟨rfl, rfl⟩ | ⟨rfl, rfl⟩
    · obtain ⟨dst, rfl, hact⟩ := processDstPort_readsValue.ok_iff.mp hok
      exact ⟨.dstPort ⟨value, hkey⟩ dst, rfl, hact⟩
    · obtain ⟨items, rfl, hact⟩ := (filtersEvents_reads fuel us s ts' s' hs hlt).mp hok
      exact ⟨.filters ⟨value, hkey⟩ items, rfl, hact⟩
  · intro entry s ts' s' hs hlength hact
    cases entry with
    | dstPort key value =>
      refine (itemStep_key key.2 rfl _ s).trans ?_
      exact processDstPort_readsValue.ok_iff.mpr ⟨value, rfl, hact⟩
    | filters key items =>
      refine (itemStep_key key.2 rfl _ s).trans ?_
      exact (filtersEvents_reads fuel _ s ts' s' hs (Nat.lt_of_succ_lt_succ hlength)).mpr
        ⟨items, rfl, hact⟩

/-- The entries of a rule give its last destination and all its filters. -/
lemma foldl_ruleEntry (entries : List RuleEntry) (rule : ForwardingRule) :
    entries.foldl (fun rule entry => entry.apply rule) rule =
      { dstPortName := lastGiven RuleEntry.dstPortName rule.dstPortName entries
        dstPort := rule.dstPort
        filtersList := rule.filtersList ++ entries.flatMap RuleEntry.filtersList } := by
  induction entries generalizing rule with
  | nil => simp [lastGiven]
  | cons entry entries ih =>
    rw [foldl_cons, ih, lastGiven_cons]
    cases entry with
    | dstPort key value => rfl
    | filters key items => simp [RuleEntry.apply, RuleEntry.filtersList, RuleEntry.dstPortName]

/-- A rule is added empty and then filled by its entries. -/
lemma processForwardingRule_reads (fuel : Nat) :
    Reads (fun _ => True) fuel (Load.processForwardingRule (@handleExpectedEvents Ept fuel))
      (manyText RuleEntry.events [.mappingEnd])
      (fun entries => portFocus.on fun port => some (addRule port (ruleOf entries))) := by
  have hraw :
      Reads (fun _ => True) fuel (Load.processForwardingRule (@handleExpectedEvents Ept fuel))
      (manyText RuleEntry.events [.mappingEnd])
      (fun entries => portFocus.on fun port =>
        (manyAct (fun entry rule => some (RuleEntry.apply entry rule)) entries
          newForwardingRule).map (addRule port)) := by
    apply reads_added ruleFocus_on_added _ _ (forwardingRuleEvents_reads fuel)
    · intro parser router hport
      rw [portFocus_get] at hport
      simp only [Load.processForwardingRule, hport]
    · intro parser router port hport
      rw [portFocus_get] at hport
      simp only [Load.processForwardingRule, hport]
      rfl
  apply hraw.congr_act
  intro entries s _
  rw [manyAct_some, foldl_ruleEntry]
  rfl

/-! ### Ports -/

/-- What an entry does to its port. -/
def PortEntry.apply : PortEntry → Port Ept → Port Ept
  | .name _ value, port => { port with name := value }
  | .metric _ value, port => { port with metric := value.1 }
  | .pubAddr _ value, port => { port with pubAddr := value }
  | .subAddr _ value, port => { port with subAddr := value }
  | .forwardingRules _ rules, port =>
    { port with forwardingRulesList := port.forwardingRulesList ++ rules.map ruleOf }

/-- There is a current port. -/
def HasPort (router : Loading Ept) : Prop := (portFocus.get router).isSome

lemma foldl_addRule (rules : List (List RuleEntry)) (port : Port Ept) :
    rules.foldl (fun port entries => addRule port (ruleOf entries)) port =
      { port with forwardingRulesList := port.forwardingRulesList ++ rules.map ruleOf } := by
  induction rules generalizing port with
  | nil => simp
  | cons entries rules ih =>
    rw [foldl_cons, ih]
    simp [addRule]

/-- A sequence of rules is added to the last port. -/
lemma forwardingRulesEvents_reads (fuel : Nat) :
    Reads HasPort fuel (@handleExpectedEvents Ept fuel forwardingRulesEvents)
      (sequenceText (mappingText RuleEntry.events))
      (fun rules => portFocus.on fun port =>
        some { port with
          forwardingRulesList := port.forwardingRulesList ++ rules.map ruleOf }) := by
  have hrule : ∀ fuel, Reads (@HasPort Ept) fuel
      (fun parser router => process (handleExpectedEvents fuel) .mappingStart parser router
        (some .forwardingRule)) _ _ :=
    fun fuel => (processForwardingRule_reads fuel).weaken fun _ _ => trivial
  have hreads := reads_mappings (fun x s s' _ hact => Focus.isSome_of_on hact) hrule fuel
  apply hreads.congr_act
  intro rules s hs
  rw [Focus.manyAct_on _ rules hs]
  congr 1
  funext port
  rw [manyAct_some, foldl_addRule]

/-- The table of a port reads its entries into the last port. -/
lemma portEvents_reads (fuel : Nat) : Reads HasPort fuel (@handleExpectedEvents Ept fuel portEvents)
      (manyText PortEntry.events [.mappingEnd])
      (fun entries => portFocus.on
        (manyAct (fun entry port => some (PortEntry.apply entry port)) entries)) := by
  have hloop := isLoop_keys [("name", .portName), ("metric", .portMetric), ("pub_addr", .pubAddr),
    ("sub_addr", .subAddr), ("forwarding_rules", .forwardingRules)] (forall_mem_nil _)
  refine hloop.reads_focus ?_ ?_ fuel
  · intro entry
    cases entry <;> exact ⟨_, _, rfl, by simp⟩
  intro fuel
  apply reads_keys
  · intro key fn hmem value hkey us s ts' s' hs hlt hok
    simp only [mem_cons, not_mem_nil, or_false, Prod.mk.injEq] at hmem
    rcases hmem with ⟨rfl, rfl⟩ | ⟨rfl, rfl⟩ | ⟨rfl, rfl⟩ | ⟨rfl, rfl⟩ | ⟨rfl, rfl⟩
    · obtain ⟨name, rfl, hact⟩ := processPortName_readsValue.ok_iff.mp hok
      exact ⟨.name ⟨value, hkey⟩ name, rfl, hact⟩
    · obtain ⟨metric, rfl, hact⟩ := processPortMetric_readsValue.ok_iff.mp hok
      by_cases hvalid : isValidMetricName metric
      · simp only [hvalid, if_true] at hact
        exact ⟨.metric ⟨value, hkey⟩ ⟨metric, hvalid⟩, rfl, hact⟩
      · simp [hvalid, Focus.on] at hact
    · obtain ⟨addr, rfl, hact⟩ := processPubAddr_readsValue.ok_iff.mp hok
      exact ⟨.pubAddr ⟨value, hkey⟩ addr, rfl, hact⟩
    · obtain ⟨addr, rfl, hact⟩ := processSubAddr_readsValue.ok_iff.mp hok
      exact ⟨.subAddr ⟨value, hkey⟩ addr, rfl, hact⟩
    · obtain ⟨rules, rfl, hact⟩ := (forwardingRulesEvents_reads fuel us s ts' s' hs hlt).mp hok
      exact ⟨.forwardingRules ⟨value, hkey⟩ rules, rfl, hact⟩
  · intro entry s ts' s' hs hlength hact
    cases entry with
    | name key value =>
      refine (itemStep_key key.2 rfl _ s).trans ?_
      exact processPortName_readsValue.ok_iff.mpr ⟨value, rfl, hact⟩
    | pubAddr key value =>
      refine (itemStep_key key.2 rfl _ s).trans ?_
      exact processPubAddr_readsValue.ok_iff.mpr ⟨value, rfl, hact⟩
    | subAddr key value =>
      refine (itemStep_key key.2 rfl _ s).trans ?_
      exact processSubAddr_readsValue.ok_iff.mpr ⟨value, rfl, hact⟩
    | metric key value =>
      refine (itemStep_key key.2 rfl _ s).trans ?_
      refine processPortMetric_readsValue.ok_iff.mpr ⟨value.1, rfl, ?_⟩
      simp only [value.2, if_true]
      exact hact
    | forwardingRules key rules =>
      refine (itemStep_key key.2 rfl _ s).trans ?_
      exact (forwardingRulesEvents_reads fuel _ s ts' s' hs
        (Nat.lt_of_succ_lt_succ hlength)).mpr ⟨rules, rfl, hact⟩

/-- The entries of a port give its last values and all its rules. -/
lemma foldl_portEntry (entries : List PortEntry) (port : Port Ept) :
    entries.foldl (fun port entry => entry.apply port) port =
      { name := lastGiven PortEntry.portName port.name entries
        metric := lastGiven PortEntry.metricName port.metric entries
        pubAddr := lastGiven PortEntry.pubAddress port.pubAddr entries
        subAddr := lastGiven PortEntry.subAddress port.subAddr entries
        pubEpt := port.pubEpt
        subEpt := port.subEpt
        forwardingRulesList :=
          port.forwardingRulesList ++ entries.flatMap PortEntry.rulesList } := by
  induction entries generalizing port with
  | nil => simp [lastGiven]
  | cons entry entries ih =>
    rw [foldl_cons, ih]
    simp only [lastGiven_cons, flatMap_cons]
    cases entry with
    | forwardingRules key rules =>
      simp [PortEntry.apply, PortEntry.rulesList, PortEntry.portName, PortEntry.metricName,
        PortEntry.pubAddress, PortEntry.subAddress]
    | _ => rfl

lemma PortEntry.isValidMetricName {entry : PortEntry} (h : entry.metricName = some value) :
    isValidMetricName value := by
  cases entry with
  | metric key name =>
    cases h
    exact name.2
  | _ => cases h

/-- The metric of a port is valid exactly if one is given: those that are given are not blank. -/
lemma isValidMetricName_lastGiven (entries : List PortEntry) :
    isValidMetricName (lastGiven PortEntry.metricName "" entries) ↔
      ∃ entry ∈ entries, entry.metricName.isSome := by
  unfold lastGiven
  rcases eq_nil_or_concat (entries.filterMap PortEntry.metricName) with h | ⟨values, value, h⟩
  · rw [h]
    constructor
    · intro hvalid
      cases hvalid
    · rintro ⟨entry, hentry, hsome⟩
      obtain ⟨value, hvalue⟩ := isSome_iff_exists.mp hsome
      have hmem := mem_filterMap.mpr ⟨entry, hentry, hvalue⟩
      rw [h] at hmem
      cases hmem
  · have hmem : value ∈ entries.filterMap PortEntry.metricName := by simp [h]
    obtain ⟨entry, hentry, hvalue⟩ := mem_filterMap.mp hmem
    rw [h, concat_eq_append, getLast?_concat, getD_some]
    constructor
    · intro hvalid
      exact ⟨entry, hentry, by rw [hvalue]; rfl⟩
    · intro hgiven
      exact entry.isValidMetricName hvalue

variable {router router' : Loading Ept}

/-- The port that was added has to have a valid metric in the end. -/
lemma processPort_eq_ok
    {handle : List ExpectedEvent → List Event → Loading Ept → Except Failure (LoadState Ept)}
    {parser parser' : List Event} :
    processPort handle parser router = .ok (parser', router') ↔
      handle portEvents parser (addPort router newPort) = .ok (parser', router') ∧
        ∃ port, router'.portsList[router.portsList.length]? = some port ∧
          isValidMetricName port.metric := by
  show (handle portEvents parser (addPort router newPort) >>= _) = _ ↔ _
  cases handle portEvents parser (addPort router newPort) with
  | error failure => simp [Bind.bind, Except.bind]
  | ok r =>
    obtain ⟨rest, result⟩ := r
    simp only [Bind.bind, Except.bind, Except.ok.injEq, Prod.mk.injEq]
    constructor
    · intro h
      split at h
      · cases h
      · rename_i port hport
        split at h
        · rename_i hvalid
          cases h
          exact ⟨⟨rfl, rfl⟩, port, hport, hvalid⟩
        · cases h
    · rintro ⟨⟨rfl, rfl⟩, port, hport, hvalid⟩
      simp only [hport, hvalid, if_true]

/-- A port is added empty and then filled by its entries. -/
lemma processPort_reads (fuel : Nat) :
    Reads (fun _ => True) fuel (processPort (@handleExpectedEvents Ept fuel))
      (fun port : PortSyntax => manyText PortEntry.events [.mappingEnd] port.entries)
      (fun port router => some (addPort router (portOf port.entries))) := by
  intro ts s ts' s' _ hlength
  have hhas : HasPort (addPort s newPort) := Focus.isSome_of_on (portFocus_on_added s newPort some)
  have hpass := portEvents_reads fuel ts (addPort s newPort) ts' s' hhas hlength
  have hact : ∀ entries, portFocus.on
      (manyAct (fun entry port => some (PortEntry.apply entry port)) entries) (addPort s newPort) =
        some (addPort s (portOf entries)) := by
    intro entries
    rw [portFocus_on_added, manyAct_some, foldl_portEntry]
    rfl
  have hlast : ∀ port : Port Ept, (addPort s port).portsList[s.portsList.length]? = some port := by
    simp [addPort]
  rw [processPort_eq_ok, hpass]
  simp only [hact]
  constructor
  · rintro ⟨⟨entries, rfl, hrouter⟩, port, hport, hvalid⟩
    cases hrouter
    rw [hlast] at hport
    cases hport
    exact ⟨⟨entries, (isValidMetricName_lastGiven entries).mp hvalid⟩, rfl, rfl⟩
  · rintro ⟨port, rfl, hrouter⟩
    cases hrouter
    refine ⟨⟨port.entries, rfl, rfl⟩, portOf port.entries, hlast _, ?_⟩
    exact (isValidMetricName_lastGiven port.entries).mpr port.hasMetric

/-! ### The configuration -/

/-- What an entry does to the configuration. -/
def RouterEntry.apply : RouterEntry → Loading Ept → Loading Ept
  | .name _ value, router => { router with name := value, nameOnHeap := true }
  | .ports _ items, router =>
    { router with
      portsList := router.portsList ++ items.map fun port => portOf port.entries }

lemma foldl_addPort (items : List PortSyntax) (router : Loading Ept) :
    items.foldl (fun router port => addPort router (portOf port.entries)) router = { router with
        portsList := router.portsList ++ items.map fun port => portOf port.entries } := by
  induction items generalizing router with
  | nil => simp
  | cons item items ih =>
    rw [foldl_cons, ih]
    simp [addPort]

lemma portsEvents_reads (fuel : Nat) :
    Reads (fun _ => True) fuel (@handleExpectedEvents Ept fuel portsEvents)
      (sequenceText PortSyntax.events)
      (fun items router => some { router with
        portsList := router.portsList ++ items.map fun port => portOf port.entries }) := by
  have hport : ∀ fuel, Reads (fun _ : Loading Ept => True) fuel
      (fun parser router => process (handleExpectedEvents fuel) .mappingStart parser router
        (some .port)) _ _ := processPort_reads
  have hreads := reads_mappings (fun _ _ _ _ _ => trivial) hport fuel
  apply hreads.congr_act
  intro items s _
  rw [manyAct_some, foldl_addPort]

/-- The table of the router reads whole documents. -/
theorem routerEvents_reads (fuel : Nat) :
    Reads (fun _ => True) fuel (@handleExpectedEvents Ept fuel routerEvents) documentEvents
      (manyAct fun entry router => some (RouterEntry.apply entry router)) := by
  have hloop : IsLoop _ .mappingEnd [.documentEnd, .streamEnd] :=
    isLoop_keys [("name", .routerName), ("ports", .ports)] (by decide)
  have hitem : ∀ fuel, Reads (fun _ => True) (fuel + 1)
      (itemStep ([("name", .routerName), ("ports", .ports)].map keyItem)
        (@handleExpectedEvents Ept fuel))
      RouterEntry.events (fun entry router => some (entry.apply router)) := by
    intro fuel
    apply reads_keys
    · intro key fn hmem value hkey us s ts' s' hs hlt hok
      simp only [mem_cons, not_mem_nil, or_false, Prod.mk.injEq] at hmem
      rcases hmem with ⟨rfl, rfl⟩ | ⟨rfl, rfl⟩
      · obtain ⟨name, rfl, hact⟩ := processRouterName_readsValue.ok_iff.mp hok
        exact ⟨.name ⟨value, hkey⟩ name, rfl, hact⟩
      · obtain ⟨items, rfl, hact⟩ := (portsEvents_reads fuel us s ts' s' hs hlt).mp hok
        exact ⟨.ports ⟨value, hkey⟩ items, rfl, hact⟩
    · intro entry s ts' s' hs hlength hact
      cases entry with
      | name key value =>
        refine (itemStep_key key.2 rfl _ s).trans ?_
        exact processRouterName_readsValue.ok_iff.mpr ⟨value, rfl, hact⟩
      | ports key items =>
        refine (itemStep_key key.2 rfl _ s).trans ?_
        exact (portsEvents_reads fuel _ s ts' s' hs (Nat.lt_of_succ_lt_succ hlength)).mpr
          ⟨items, rfl, hact⟩
  have htext : ∀ entry : RouterEntry, ∃ t ts, entry.events = t :: ts ∧ t ≠ .mappingEnd := by
    intro entry
    cases entry <;> exact ⟨_, _, rfl, by simp⟩
  have hstream : Event.streamStart.type ≠ .scalar := by decide
  have hdocument : Event.documentStart.type ≠ .scalar := by decide
  have hmapping : Event.mappingStart.type ≠ .scalar := by decide
  have hreads := reads_opened hstream (reads_opened hdocument (reads_opened hmapping
    (hloop.reads htext (fun _ _ _ _ _ => trivial) hitem))) fuel
  apply hreads.congr
  · intro entries s s' _ hact
    exact ⟨entries, by simp [documentEvents, mappingText, manyText], hact⟩
  · intro entries s s' _ hact
    exact ⟨entries, by simp [documentEvents, mappingText, manyText], hact⟩

/-- The entries of the configuration give its last name and all its ports. -/
lemma foldl_routerEntry (entries : List RouterEntry) (router : Loading Ept) :
    (entries.foldl (fun router entry => entry.apply router) router).toRouterCfg =
      { name := lastGiven RouterEntry.routerName router.name entries
        portsList := router.portsList ++ entries.flatMap RouterEntry.portsList } := by
  induction entries generalizing router with
  | nil => simp [lastGiven]
  | cons entry entries ih =>
    rw [foldl_cons, ih, lastGiven_cons]
    cases entry with
    | name key value => rfl
    | ports key items => simp [RouterEntry.apply, RouterEntry.portsList, RouterEntry.routerName]

/-! ### Resolving the destinations -/

/-- A destination is the first port of its name. -/
lemma dstPortSet_eq_some {ports : List (Port Ept)} (rule rule' : ForwardingRule) :
    dstPortSet ports rule = some rule' ↔ (∃ dst ∈ ports, strcasecmpEq rule.dstPortName dst.name) ∧
        rule' = { rule with
          dstPort := ports.findIdx? fun dst => strcasecmpEq rule.dstPortName dst.name } := by
  unfold dstPortSet
  cases hfind : ports.findIdx? fun dst => strcasecmpEq rule.dstPortName dst.name with
  | none =>
    have hnone := findIdx?_eq_none_iff.mp hfind
    constructor
    · intro h
      cases h
    · rintro ⟨⟨dst, hdst, hname⟩, -⟩
      rw [hnone dst hdst] at hname
      cases hname
  | some i =>
    have hsome : (ports.findIdx? fun dst => strcasecmpEq rule.dstPortName dst.name).isSome := by
      rw [hfind]
      rfl
    have hnamed : ∃ dst ∈ ports, strcasecmpEq rule.dstPortName dst.name := by
      simpa [findIdx?_isSome] using hsome
    constructor
    · intro h
      exact ⟨hnamed, (some.inj h).symm⟩
    · rintro ⟨-, rfl⟩
      rfl

/-- The loop over the rules of one port. -/
lemma bind_dstPortSet_eq_some (ports : List (Port Ept)) (port port' : Port Ept) :
    ((port.forwardingRulesList.mapM (dstPortSet ports)).bind fun rules =>
        some { port with forwardingRulesList := rules }) = some port' ↔
      (∀ rule ∈ port.forwardingRulesList, ∃ dst ∈ ports, strcasecmpEq rule.dstPortName dst.name) ∧
      port' = resolvePort ports port := by
  simp only [bind_eq_some_iff, some.injEq, mapM_eq_some_iff dstPortSet_eq_some]
  constructor
  · rintro ⟨rules, ⟨hnamed, rfl⟩, rfl⟩
    exact ⟨hnamed, rfl⟩
  · rintro ⟨hnamed, rfl⟩
    exact ⟨_, ⟨hnamed, rfl⟩, rfl⟩

/-- The loop over all the rules succeeds exactly if every rule names a port, and then it resolves
each of them. -/
lemma dstPortsSet_eq_some {router router' : RouterCfg Ept} : dstPortsSet router = some router' ↔
      DstPortsNamed router ∧ router' = resolveDstPorts router := by
  unfold dstPortsSet
  simp only [bind_eq_bind]
  rw [bind_eq_some_iff]
  simp only [mapM_eq_some_iff (bind_dstPortSet_eq_some router.portsList), some.injEq]
  constructor
  · rintro ⟨ports, ⟨hnamed, rfl⟩, rfl⟩
    exact ⟨hnamed, rfl⟩
  · rintro ⟨hnamed, rfl⟩
    exact ⟨_, ⟨hnamed, rfl⟩, rfl⟩

/-! ### The loader -/

variable {stream : EventStream}

/-- A file is loaded if its events are read and every destination is found. -/
lemma routerCfgRead_eq_ok {cfg : RouterCfg Ept} : routerCfgRead stream = .ok cfg ↔
      ∃ rest router, handleExpectedEvents (stream.events.length + 1) routerEvents stream.events
          { name := "", portsList := [], nameOnHeap := false } = .ok (rest, router) ∧
        dstPortsSet router.toRouterCfg = some cfg := by
  show (handleExpectedEvents (stream.events.length + 1) routerEvents stream.events
    { name := "", portsList := [], nameOnHeap := false } >>= _) = _ ↔ _
  cases handleExpectedEvents (stream.events.length + 1) routerEvents stream.events
      { name := "", portsList := ([] : List (Port Ept)), nameOnHeap := false } with
  | error failure => simp [Bind.bind, Except.bind]
  | ok r =>
    obtain ⟨rest, router⟩ := r
    simp only [Bind.bind, Except.bind, Except.ok.injEq, Prod.mk.injEq]
    constructor
    · intro h
      split at h
      · cases h
      · rename_i router' hset
        cases h
        exact ⟨rest, router, ⟨rfl, rfl⟩, hset⟩
    · rintro ⟨rest', router', ⟨rfl, rfl⟩, hset⟩
      simp only [hset]

/-- The end of the stream is the last event that the loader reads. -/
lemma rest_eq_nil {entries : List RouterEntry} {rest : List Event}
    (h : stream.events = documentEvents entries ++ rest) : rest = [] := by
  apply stream.streamEnd_last (.streamStart :: .documentStart ::
    (mappingText RouterEntry.events entries ++ [.documentEnd]))
  rw [h]
  simp [documentEvents]

/-- Loading always comes to an end: to a configuration exactly for the events of a document whose
rules all name a port, and then to the one that the document denotes. -/
theorem routerCfgLoadEvents_iff (stream : EventStream) :
    ∃ loaded, @routerCfgLoadEvents Ept stream = .ok loaded ∧
      ∀ cfg : RouterCfg Ept, loaded = .router cfg ↔
        ∃ entries, stream.events = documentEvents entries ∧
          DstPortsNamed (@routerOf Ept entries) ∧ cfg = resolveDstPorts (routerOf entries) := by
  obtain ⟨loaded, hloaded, hread⟩ := @exists_routerCfgLoadEvents Ept stream
  refine ⟨loaded, hloaded, fun cfg => ?_⟩
  have hcfg : ∀ entries, (entries.foldl (fun router entry => RouterEntry.apply entry router)
      ({ name := "", portsList := [], nameOnHeap := false } : Loading Ept)).toRouterCfg =
        routerOf entries := by
    intro entries
    rw [foldl_routerEntry]
    rfl
  rw [hread, routerCfgRead_eq_ok]
  simp only [routerEvents_reads _ _ _ _ _ trivial (Nat.lt_succ_self _), manyAct_some,
    dstPortsSet_eq_some]
  constructor
  · rintro ⟨rest, router, ⟨entries, hevents, hrouter⟩, hnamed, rfl⟩
    obtain rfl := some.inj hrouter
    obtain rfl := rest_eq_nil hevents
    rw [hcfg] at hnamed ⊢
    exact ⟨entries, by rw [hevents, append_nil], hnamed, rfl⟩
  · rintro ⟨entries, hevents, hnamed, rfl⟩
    refine ⟨[], _, ⟨entries, by rw [hevents, append_nil], rfl⟩, ?_⟩
    rw [hcfg]
    exact ⟨hnamed, rfl⟩

lemma streamEnd_last_of_notMem {events : List Event} (h : .streamEnd ∉ events.dropLast) :
    ∀ before after, events = before ++ .streamEnd :: after → after = [] := by
  rintro before after rfl
  by_contra hne
  apply h
  rw [dropLast_append_of_ne_nil (cons_ne_nil _ _), dropLast_cons_of_ne_nil hne]
  simp

/-- A named configuration with a port that gives a blank metric first and then one that is not. -/
def blankMetricFirst : EventStream where
  events := [.streamStart, .documentStart, .mappingStart, .scalar "name", .scalar "router",
      .scalar "ports", .sequenceStart, .mappingStart, .scalar "metric", .scalar " ",
      .scalar "metric", .scalar "sbp", .mappingEnd, .sequenceEnd, .mappingEnd, .documentEnd,
      .streamEnd]
  streamEnd_last := streamEnd_last_of_notMem (by decide)

/-- The result is `NULL`, although the port ends with a metric that is not blank. -/
theorem routerCfgLoadEvents_blankMetricFirst :
    @routerCfgLoadEvents Unit blankMetricFirst = .ok .null := by
  decide +kernel

/-- A stream that fails before a name was read ends the process. -/
example : @routerCfgLoadEvents Unit ⟨[], by simp⟩ = .ok .aborted := by decide +kernel

end PiksiBuildroot.EndpointRouter
