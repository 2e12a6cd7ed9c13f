import PiksiBuildroot.EndpointRouter.Load

/-!
# Passes of the loader over its tables

What one pass of `handle_expected_events` reads, for the two shapes that the tables have: elements
that may come in any order and number up to an ending (`IsLoop.reads`), and an element that has to
come first (`reads_opened`). The current nodes that the handlers write to are parts of the
configuration in the sense of `Focus`.
-/

namespace PiksiBuildroot.EndpointRouter

open Lib List Option

variable {Ept : Type}

/-! ### The current nodes as parts of the configuration -/

/-- The port that `current_port_get` returns. -/
def portFocus : Focus (Loading Ept) (Port Ept) :=
  (Focus.field (fun router => router.portsList)
    (fun ports router => { router with portsList := ports })
    (fun _ _ => rfl) (fun _ _ _ => rfl) fun _ => rfl).comp .last

/-- The rule that `current_forwarding_rule_get` returns. -/
def ruleFocus : Focus (Loading Ept) ForwardingRule :=
  (portFocus.comp (.field Port.forwardingRulesList
    (fun rules port => { port with forwardingRulesList := rules })
    (fun _ _ => rfl) (fun _ _ _ => rfl) fun _ => rfl)).comp .last

/-- The filter that `current_filter_get` returns. -/
def filterFocus : Focus (Loading Ept) Filter := (ruleFocus.comp (.field ForwardingRule.filtersList
    (fun filters rule => { rule with filtersList := filters })
    (fun _ _ => rfl) (fun _ _ _ => rfl) fun _ => rfl)).comp .last

lemma portFocus_get (router : Loading Ept) : portFocus.get router = currentPortGet router := rfl

lemma portFocus_set (port : Port Ept) (router : Loading Ept) :
    portFocus.set port router = modifyPort (fun _ => port) router := rfl

lemma ruleFocus_get (router : Loading Ept) :
    ruleFocus.get router = currentForwardingRuleGet router := by
  show ((portFocus.get router).bind _).bind _ = _
  rw [portFocus_get, bind_assoc]
  rfl

lemma filterFocus_get (router : Loading Ept) :
    filterFocus.get router = currentFilterGet router := by
  show ((ruleFocus.get router).bind _).bind _ = _
  rw [ruleFocus_get, bind_assoc]
  rfl

variable {router : Loading Ept}

/-- Writing to the current port, when it is known. -/
lemma modifyPort_of_current {port : Port Ept} (h : currentPortGet router = some port)
    (f : Port Ept → Port Ept) : modifyPort f router = portFocus.set (f port) router := by
  obtain ⟨ports, hports⟩ := getLast?_eq_some_iff.mp h
  simp only [portFocus_set, modifyPort, hports, modifyLast_concat]

lemma modifyRule_of_current {rule : ForwardingRule}
    (h : currentForwardingRuleGet router = some rule) (f : ForwardingRule → ForwardingRule) :
    modifyRule f router = ruleFocus.set (f rule) router := by
  obtain ⟨port, hport, hrule⟩ := bind_eq_some_iff.mp h
  obtain ⟨rules, hrules⟩ := getLast?_eq_some_iff.mp hrule
  rw [modifyRule, modifyPort_of_current hport]
  simp only [ruleFocus, Focus.comp, Focus.field, Focus.last, portFocus_get, hport,
    bind_some, hrules, modifyLast_concat]

lemma modifyFilter_of_current {filter : Filter} (h : currentFilterGet router = some filter)
    (f : Filter → Filter) : modifyFilter f router = filterFocus.set (f filter) router := by
  obtain ⟨rule, hrule, hfilter⟩ := bind_eq_some_iff.mp h
  obtain ⟨filters, hfilters⟩ := getLast?_eq_some_iff.mp hfilter
  rw [modifyFilter, modifyRule_of_current hrule]
  simp only [filterFocus, Focus.comp, Focus.field, Focus.last, ruleFocus_get, hrule,
    bind_some, hfilters, modifyLast_concat]

/-! ### A new node becomes the current one -/

/-- A configuration with one more port. -/
def addPort (router : Loading Ept) (port : Port Ept) : Loading Ept :=
  { router with portsList := router.portsList ++ [port] }

/-- A port with one more rule. -/
def addRule (port : Port Ept) (rule : ForwardingRule) : Port Ept :=
  { port with forwardingRulesList := port.forwardingRulesList ++ [rule] }

/-- A rule with one more filter. -/
def addFilter (rule : ForwardingRule) (filter : Filter) : ForwardingRule :=
  { rule with filtersList := rule.filtersList ++ [filter] }

/-- What is done to a port that was just added is done to the port before it is added. -/
lemma portFocus_on_added (router : Loading Ept) (port : Port Ept)
    (f : Port Ept → Option (Port Ept)) :
    portFocus.on f (addPort router port) = (f port).map (addPort router) := by
  simp [Focus.on, portFocus, Focus.comp, Focus.field, Focus.last, addPort, modifyLast_concat]
  rfl

/-- A node of the list of an outer node: what is done to one that was just added is done to it
before it is added. -/
def AddedIsCurrent {α β : Type} (outer : Focus (Loading Ept) α) (inner : Focus (Loading Ept) β)
    (add : α → β → α) : Prop :=
  ∀ router a b f, outer.get router = some a →
    inner.on f (outer.set (add a b) router) = (f b).map fun b => outer.set (add a b) router

lemma ruleFocus_on_added : AddedIsCurrent (@portFocus Ept) ruleFocus addRule := by
  intro router port rule f h
  have hget := portFocus.get_set (addRule port rule) router (by rw [h]; rfl)
  unfold addRule at hget ⊢
  simp [Focus.on, ruleFocus, Focus.comp, Focus.field, Focus.last, hget, portFocus.set_set,
    modifyLast_concat]

lemma filterFocus_on_added : AddedIsCurrent (@ruleFocus Ept) filterFocus addFilter := by
  intro router rule filter f h
  have hget := ruleFocus.get_set (addFilter rule filter) router (by rw [h]; rfl)
  unfold addFilter at hget ⊢
  simp [Focus.on, filterFocus, Focus.comp, Focus.field, Focus.last, hget, ruleFocus.set_set,
    modifyLast_concat]

/-! ### Going through a table -/

/-- A table of events that have to come one after the other. -/
def inTurn (events : List Event) : List ExpectedEvent :=
  events.map (fun event => ⟨event.type, none, none, false⟩) ++ [⟨.noEvent, none, none, false⟩]

variable {handle : List ExpectedEvent → List Event → Loading Ept → Except Failure (LoadState Ept)}
  {parser : List Event} {r : LoadState Ept} {parser' : List Event} {router' : Loading Ept}
  {event : Event} {fuel : Nat}

section tables

variable {items rest : List ExpectedEvent}

/-- Of entries with `next`, the first that matches is taken. -/
lemma findExpected_of_find? (hnext : ∀ e ∈ items, e.next) {expected : ExpectedEvent}
    (h : items.find? (expectedEventMatch event) = some expected) :
    ∃ behind, findExpected router event (items ++ rest) = .ok (expected, behind) := by
  induction items with
  | nil => cases h
  | cons first items ih =>
    by_cases hmatch : expectedEventMatch event first
    · rw [find?_cons_of_pos hmatch] at h
      cases h
      exact ⟨items ++ rest, by simp [findExpected, hmatch]⟩
    · rw [find?_cons_of_neg hmatch] at h
      obtain ⟨behind, hbehind⟩ := ih (fun e he => hnext e (mem_cons_of_mem first he)) h
      exact ⟨behind, by simp [findExpected, hmatch, hnext first mem_cons_self, hbehind]⟩

lemma findExpected_of_find?_none (hnext : ∀ e ∈ items, e.next)
    (h : items.find? (expectedEventMatch event) = none) :
    findExpected router event (items ++ rest) = findExpected router event rest := by
  induction items with
  | nil => rfl
  | cons first items ih =>
    have hmatch : ¬ expectedEventMatch event first := find?_eq_none.mp h first
      mem_cons_self
    rw [find?_cons_of_neg hmatch] at h
    have hrest := ih (fun e he => hnext e (mem_cons_of_mem first he)) h
    simp [findExpected, hmatch, hnext first mem_cons_self, hrest]

/-- An event that is handled by one of the items. -/
def itemStep (items : List ExpectedEvent)
    (handle : List ExpectedEvent → List Event → Loading Ept → Except Failure (LoadState Ept)) :
    List Event → Loading Ept → Except Failure (LoadState Ept)
  | [], router => router.reject
  | event :: parser, router =>
    match items.find? (expectedEventMatch event) with
    | none => router.reject
    | some expected => process handle event parser router expected.process

lemma itemStep_of_find? {expected : ExpectedEvent}
    (h : items.find? (expectedEventMatch event) = some expected) (parser : List Event)
    (router : Loading Ept) :
    itemStep items handle (event :: parser) router =
      process handle event parser router expected.process := by
  simp only [itemStep, h]

lemma exists_of_itemStep (h : itemStep items handle parser router = .ok r) :
    ∃ event parser' expected, parser = event :: parser' ∧ expected ∈ items ∧
      expectedEventMatch event expected ∧
      process handle event parser' router expected.process = .ok r := by
  cases parser with
  | nil => cases h
  | cons event parser' =>
    cases hfind : items.find? (expectedEventMatch event) with
    | none => simp only [itemStep, hfind] at h; cases h
    | some expected =>
      rw [itemStep_of_find? hfind] at h
      exact ⟨event, parser', expected, rfl, mem_of_find?_eq_some hfind, find?_some hfind, h⟩

/-- An event of another type does not match. -/
lemma expectedEventMatch_of_ne {expected : ExpectedEvent}
    (h : event.type ≠ expected.eventType) : expectedEventMatch event expected = false := by
  simp only [expectedEventMatch, if_pos h]

lemma type_of_match {expected : ExpectedEvent} (h : expectedEventMatch event expected) :
    event.type = expected.eventType := by
  by_contra hne
  rw [expectedEventMatch_of_ne hne] at h
  cases h

/-- Apart from scalars the type of an event is all of it. -/
lemma eq_of_type_eq {event event' : Event} (hscalar : event'.type ≠ .scalar)
    (h : event.type = event'.type) : event = event' := by
  cases event' with
  | scalar value => exact absurd rfl hscalar
  | _ => cases event <;> first | rfl | cases h

/-! ### Events that have to come in turn -/

variable {fuel : Nat} {first : Event} {table : List ExpectedEvent}

lemma type_ne_noEvent (event : Event) : event.type ≠ .noEvent := by
  cases event <;> simp [Event.type]

/-- The event that has to come first. -/
lemma handleExpectedEvents_first (first : Event) (parser : List Event) (router : Loading Ept) :
    handleExpectedEvents (fuel + 1) (⟨first.type, none, none, false⟩ :: table) (first :: parser)
        router =
      handleExpectedEvents fuel table parser router := by
  have hfind : findExpected router first (⟨first.type, none, none, false⟩ :: table) =
      .ok (⟨first.type, none, none, false⟩, table) := by
    cases first <;> rfl
  rw [handleExpectedEvents_expected (type_ne_noEvent first) hfind]
  rfl

/-- Nothing else can come first. -/
lemma exists_of_first (hfirst : first.type ≠ .scalar)
    (h : handleExpectedEvents fuel (⟨first.type, none, none, false⟩ :: table) parser router =
      .ok r) :
    ∃ parser', parser = first :: parser' := by
  cases fuel with
  | zero => cases h
  | succ fuel =>
    cases parser with
    | nil =>
      rw [handleExpectedEvents_nil (type_ne_noEvent first)] at h
      cases h
    | cons event parser =>
      by_cases htype : event.type = first.type
      · exact ⟨parser, by rw [eq_of_type_eq hfirst htype]⟩
      · have hmatch : expectedEventMatch event ⟨first.type, none, none, false⟩ = false :=
          expectedEventMatch_of_ne htype
        have hunexpected : findExpected router event (⟨first.type, none, none, false⟩ :: table) =
            router.reject := by
          simp [findExpected, hmatch]
        rw [handleExpectedEvents_unexpected (type_ne_noEvent first) hunexpected] at h
        cases h

/-- A table of events in turn accepts just these events. -/
lemma handleExpectedEvents_inTurn {events : List Event} (hevents : ∀ e ∈ events, e.type ≠ .scalar)
    (hlt : parser.length < fuel) :
    handleExpectedEvents fuel (inTurn events) parser router = .ok (parser', router') ↔
      parser = events ++ parser' ∧ router = router' := by
  induction events generalizing fuel parser with
  | nil =>
    obtain ⟨fuel, rfl⟩ := Nat.exists_eq_succ_of_ne_zero (Nat.ne_zero_of_lt hlt)
    have hend : handleExpectedEvents (fuel + 1) (inTurn []) parser router =
        .ok (parser, router) := handleExpectedEvents_noEvent rfl parser router
    rw [hend]
    simp
  | cons first events ih =>
    have hrest : ∀ e ∈ events, e.type ≠ .scalar := fun e he => hevents e (mem_cons_of_mem first he)
    obtain ⟨fuel, rfl⟩ := Nat.exists_eq_succ_of_ne_zero (Nat.ne_zero_of_lt hlt)
    constructor
    · intro hok
      obtain ⟨parser, rfl⟩ := exists_of_first (hevents first mem_cons_self) hok
      have hpass := (handleExpectedEvents_first first parser router).symm.trans hok
      obtain ⟨rfl, hrouter⟩ := (ih hrest (Nat.lt_of_succ_lt_succ hlt)).mp hpass
      exact ⟨rfl, hrouter⟩
    · rintro ⟨rfl, hrouter⟩
      refine (handleExpectedEvents_first first _ router).trans ?_
      exact (ih hrest (Nat.lt_of_succ_lt_succ hlt)).mpr ⟨rfl, hrouter⟩

/-! ### Tables of items and an ending -/

variable {close : Event} {ending : List Event}

/-- The items of a table may come in any order and number before the first event of the ending. -/
structure IsLoop (items : List ExpectedEvent) (close : Event) (ending : List Event) : Prop where
  next : ∀ e ∈ items, e.next
  type_ne : ∀ e ∈ items, e.eventType ≠ close.type ∧ e.eventType ≠ .noEvent
  ending_ne : ∀ e ∈ close :: ending, e.type ≠ .scalar

lemma IsLoop.exists_cons (h : IsLoop items close ending) :
    ∃ first table, items ++ inTurn (close :: ending) = first :: table ∧
      first.eventType ≠ .noEvent := by
  cases items with
  | nil => exact ⟨_, _, rfl, type_ne_noEvent close⟩
  | cons first items => exact ⟨first, _, rfl, (h.type_ne first mem_cons_self).2⟩

lemma IsLoop.nil (h : IsLoop items close ending) (fuel : Nat) (router : Loading Ept)
    (r : LoadState Ept) :
    handleExpectedEvents fuel (items ++ inTurn (close :: ending)) [] router ≠ .ok r := by
  obtain ⟨first, table, htable, hfirst⟩ := h.exists_cons
  intro hok
  cases fuel with
  | zero => cases hok
  | succ fuel =>
    rw [htable, handleExpectedEvents_nil hfirst] at hok
    cases hok

/-- The first event of the ending ends the loop. -/
lemma IsLoop.closed (h : IsLoop items close ending) (fuel : Nat) (parser : List Event)
    (router : Loading Ept) :
    handleExpectedEvents (fuel + 1) (items ++ inTurn (close :: ending)) (close :: parser) router =
      handleExpectedEvents fuel (inTurn ending) parser router := by
  obtain ⟨first, table, htable, hfirst⟩ := h.exists_cons
  have hnone : items.find? (expectedEventMatch close) = none := by
    apply find?_eq_none.mpr
    intro e he
    rw [expectedEventMatch_of_ne (Ne.symm (h.type_ne e he).1)]
    exact Bool.false_ne_true
  have hfind : findExpected router close (items ++ inTurn (close :: ending)) =
      .ok (⟨close.type, none, none, false⟩, inTurn ending) := by
    rw [findExpected_of_find?_none h.next hnone]
    cases close <;> rfl
  rw [htable] at hfind ⊢
  rw [handleExpectedEvents_expected hfirst hfind]
  rfl

/-- Any other event is handled by an item, and the loop goes on. -/
lemma IsLoop.item (h : IsLoop items close ending) (fuel : Nat) (hne : event ≠ close)
    (parser : List Event) (router : Loading Ept) :
    handleExpectedEvents (fuel + 1) (items ++ inTurn (close :: ending)) (event :: parser) router =
      (itemStep items (handleExpectedEvents fuel) (event :: parser) router).bind fun r =>
        handleExpectedEvents fuel (items ++ inTurn (close :: ending)) r.1 r.2 := by
  obtain ⟨first, table, htable, hfirst⟩ := h.exists_cons
  cases hfind : items.find? (expectedEventMatch event) with
  | none =>
    have hclose := h.ending_ne close mem_cons_self
    have htype : event.type ≠ close.type := fun heq => hne (eq_of_type_eq hclose heq)
    have hmatch : expectedEventMatch event ⟨close.type, none, none, false⟩ = false :=
      expectedEventMatch_of_ne htype
    have hunexpected : findExpected router event (items ++ inTurn (close :: ending)) =
        router.reject := by
      rw [findExpected_of_find?_none h.next hfind]
      simp [inTurn, findExpected, hmatch]
    rw [htable] at hunexpected ⊢
    rw [handleExpectedEvents_unexpected hfirst hunexpected]
    simp only [itemStep, hfind]
    rfl
  | some expected =>
    obtain ⟨behind, hexpected⟩ :=
      @findExpected_of_find? _ router event items (inTurn (close :: ending)) h.next _ hfind
    rw [htable] at hexpected ⊢
    rw [handleExpectedEvents_expected hfirst hexpected, itemStep_of_find? hfind,
      if_pos (h.next expected (mem_of_find?_eq_some hfind))]

variable {X : Type} {inv : Loading Ept → Prop} {text : X → List Event}
  {act : X → Loading Ept → Option (Loading Ept)}

/-- A table of items and an ending reads a list of what the items read. -/
theorem IsLoop.reads (h : IsLoop items close ending)
    (htext : ∀ x, ∃ t ts, text x = t :: ts ∧ t ≠ close)
    (hinv : ∀ x s s', inv s → act x s = some s' → inv s')
    (hreads : ∀ fuel, Reads inv (fuel + 1) (itemStep items (handleExpectedEvents fuel)) text act)
    (fuel : Nat) :
    Reads inv fuel (handleExpectedEvents fuel (items ++ inTurn (close :: ending)))
      (manyText text (close :: ending)) (manyAct act) := by
  have hending : ∀ e ∈ ending, e.type ≠ .scalar :=
    fun e he => h.ending_ne e (mem_cons_of_mem close he)
  refine reads_many h.nil ?_ (fun fuel _ ts s ht => h.item fuel ht ts s) htext hinv hreads fuel
  intro fuel ts s ts' s' hlt
  rw [h.closed]
  exact handleExpectedEvents_inTurn hending hlt

/-- A table whose items act on one node acts on the node item by item. -/
lemma IsLoop.reads_focus {α : Type} {F : Focus (Loading Ept) α} {apply : X → α → Option α}
    (h : IsLoop items close ending) (htext : ∀ x, ∃ t ts, text x = t :: ts ∧ t ≠ close)
    (hreads : ∀ fuel, Reads (fun router => (F.get router).isSome) (fuel + 1)
      (itemStep items (handleExpectedEvents fuel)) text (fun x => F.on (apply x))) (fuel : Nat) :
    Reads (fun router => (F.get router).isSome) fuel
      (handleExpectedEvents fuel (items ++ inTurn (close :: ending)))
      (manyText text (close :: ending)) (fun xs => F.on (manyAct apply xs)) := by
  have hloop := h.reads htext (fun x s s' _ hact => Focus.isSome_of_on hact) hreads fuel
  apply hloop.congr_act
  intro xs s hs
  exact (Focus.manyAct_on _ xs hs).symm

/-- An event that has to come first. -/
theorem reads_opened (hfirst : first.type ≠ .scalar)
    (hreads : ∀ fuel, Reads inv fuel (handleExpectedEvents fuel table) text act) (fuel : Nat) :
    Reads inv fuel (handleExpectedEvents fuel (⟨first.type, none, none, false⟩ :: table))
      (fun x => first :: text x) act := by
  cases fuel with
  | zero => exact fun ts s ts' s' hs hlength => absurd hlength (Nat.not_lt_zero _)
  | succ fuel =>
    apply (hreads fuel).opened
    · exact handleExpectedEvents_first first
    · intro ts s r hok
      exact exists_of_first hfirst hok

/-- A sequence of items. -/
def sequenceText (text : X → List Event) (items : List X) : List Event :=
  .sequenceStart :: manyText text [.sequenceEnd] items

/-- A mapping with its entries. -/
def mappingText (text : X → List Event) (entries : List X) : List Event :=
  .mappingStart :: manyText text [.mappingEnd] entries

/-- The three tables of a sequence of mappings. -/
lemma reads_mappings {fn : ProcessFn}
    (hinv : ∀ x s s', inv s → act x s = some s' → inv s')
    (hreads : ∀ fuel, Reads inv fuel
      (fun parser router =>
        process (handleExpectedEvents fuel) .mappingStart parser router (some fn))
      text act) (fuel : Nat) :
    Reads inv fuel (handleExpectedEvents fuel
        [⟨.sequenceStart, none, none, false⟩, ⟨.mappingStart, none, some fn, true⟩,
          ⟨.sequenceEnd, none, none, false⟩, ⟨.noEvent, none, none, false⟩])
      (sequenceText fun x => .mappingStart :: text x) (manyAct act) := by
  have hloop : IsLoop [⟨.mappingStart, none, some fn, true⟩] .sequenceEnd [] :=
    ⟨by simp, by simp [Event.type], by simp [Event.type]⟩
  have hopen : Event.sequenceStart.type ≠ .scalar := by simp [Event.type]
  refine reads_opened hopen (hloop.reads (fun x => ⟨_, _, rfl, by simp⟩) hinv ?_) fuel
  intro fuel
  apply (hreads fuel).opened
  · intro ts s
    rfl
  · intro ts s r h
    obtain ⟨event, ts', e, rfl, hmem, hmatch, -⟩ := exists_of_itemStep h
    obtain rfl := mem_singleton.mp hmem
    have htype : event.type = Event.mappingStart.type := type_of_match hmatch
    exact ⟨ts', by rw [eq_of_type_eq (by simp [Event.type]) htype]⟩

/-- A handler that adds a node to an outer one and goes through a further table for it. -/
lemma reads_added {α β : Type} {outer : Focus (Loading Ept) α} {inner : Focus (Loading Ept) β}
    {add : α → β → α} (hadded : AddedIsCurrent outer inner add) {new : β}
    {table : List ExpectedEvent} {apply : X → β → Option β}
    {p : List Event → Loading Ept → Except Failure (LoadState Ept)}
    (hnone : ∀ parser router, outer.get router = none → p parser router = router.reject)
    (hsome : ∀ parser router a, outer.get router = some a →
      p parser router = handleExpectedEvents fuel table parser (outer.set (add a new) router))
    (hreads : Reads (fun router => (inner.get router).isSome) fuel
      (handleExpectedEvents fuel table) text (fun x => inner.on (apply x))) :
    Reads (fun _ => True) fuel p text (fun x => outer.on fun a => (apply x new).map (add a)) := by
  intro ts s ts' s' _ hlength
  cases houter : outer.get s with
  | none => simp [hnone ts s houter, Focus.on, houter]
  | some a =>
    have hinner : (inner.get (outer.set (add a new) s)).isSome :=
      Focus.isSome_of_on (hadded s a new some houter)
    simp only [hsome ts s a houter, hreads ts _ ts' s' hinner hlength, hadded s a new _ houter,
      Focus.on_of_get houter, Option.map_map]
    rfl

end tables

/-! ### Keys -/

lemma strcasecmpEq_congr {a b : String} (h : strcasecmpEq a b) (c : String) :
    strcasecmpEq a c = strcasecmpEq b c := by
  unfold strcasecmpEq at *
  rw [beq_iff_eq.mp h]

variable {value key : String}

/-- A key finds the element of its table, in whatever case it is written. -/
lemma find?_key (h : strcasecmpEq value key) (items : List ExpectedEvent) :
    items.find? (expectedEventMatch (.scalar value)) =
      items.find? (expectedEventMatch (.scalar key)) := by
  congr 1
  funext e
  simp only [expectedEventMatch, Event.type]
  cases e.scalarValue with
  | none => rfl
  | some word =>
    simp only [strcasecmpEq_congr h]
    rfl

lemma itemStep_key {items : List ExpectedEvent} {expected : ExpectedEvent}
    (h : strcasecmpEq value key)
    (hfind : items.find? (expectedEventMatch (.scalar key)) = some expected) (parser : List Event)
    (router : Loading Ept) :
    itemStep items handle (.scalar value :: parser) router =
      process handle (.scalar value) parser router expected.process :=
  itemStep_of_find? ((find?_key h items).trans hfind) parser router

/-- The element of a table for a key. -/
def keyItem (item : String × ProcessFn) : ExpectedEvent := ⟨.scalar, some item.1, some item.2, true⟩

lemma isLoop_keys (keys : List (String × ProcessFn)) {ending : List Event}
    (hending : ∀ e ∈ ending, e.type ≠ .scalar) :
    IsLoop (keys.map keyItem) .mappingEnd ending := by
  have hitem : ∀ e ∈ keys.map keyItem, e.next ∧ e.eventType = .scalar := by
    intro e he
    obtain ⟨item, -, rfl⟩ := List.mem_map.mp he
    exact ⟨rfl, rfl⟩
  refine ⟨fun e he => (hitem e he).1, ?_, ?_⟩
  · intro e he
    rw [(hitem e he).2]
    simp [Event.type]
  · exact forall_mem_cons.mpr ⟨by simp [Event.type], hending⟩

/-- The items of a table of keys: what a key is followed by, and that every entry is read. -/
lemma reads_keys {keys : List (String × ProcessFn)} {X : Type} {inv : Loading Ept → Prop}
    {text : X → List Event} {act : X → Loading Ept → Option (Loading Ept)}
    (hsound : ∀ key fn, (key, fn) ∈ keys → ∀ value, strcasecmpEq value key → ∀ ts s ts' s', inv s →
      ts.length < fuel →
      process (handleExpectedEvents fuel) (.scalar value) ts s (some fn) = .ok (ts', s') →
        ∃ x, .scalar value :: ts = text x ++ ts' ∧ act x s = some s')
    (hcomplete : ∀ x s ts' s', inv s → (text x ++ ts').length < fuel + 1 → act x s = some s' →
      itemStep (keys.map keyItem) (handleExpectedEvents fuel) (text x ++ ts') s = .ok (ts', s')) :
    Reads inv (fuel + 1) (itemStep (keys.map keyItem) (handleExpectedEvents fuel)) text act := by
  intro ts s ts' s' hs hlength
  constructor
  · intro hok
    obtain ⟨event, us, e, rfl, hmem, hmatch, hprocess⟩ := exists_of_itemStep hok
    obtain ⟨⟨key, fn⟩, hkey, rfl⟩ := List.mem_map.mp hmem
    cases event with
    | scalar value =>
      exact hsound key fn hkey value hmatch us s ts' s' hs (Nat.lt_of_succ_lt_succ hlength) hprocess
    | _ => cases hmatch
  · rintro ⟨x, rfl, hact⟩
    exact hcomplete x s ts' s' hs hlength hact

/-! ### Handlers that read a value -/

/-- The result of a handler that has only to change the configuration. -/
def resultOf (router : Loading Ept) (parser : List Event) :
    Option (Loading Ept) → Except Failure (LoadState Ept)
  | none => router.reject
  | some router => .ok (parser, router)

lemma resultOf_eq_ok {o : Option (Loading Ept)} :
    resultOf router parser o = .ok (parser', router') ↔ parser = parser' ∧ o = some router' := by
  cases o with
  | none | some router₀ => simp [resultOf]

/-- A handler that reads one scalar. -/
def ReadsValue (h : List Event → Loading Ept → Except Failure (LoadState Ept))
    (act : String → Loading Ept → Option (Loading Ept)) : Prop :=
  (∀ value parser router,
    h (.scalar value :: parser) router = resultOf router parser (act value router)) ∧
    ∀ parser router r, h parser router = .ok r → ∃ value parser', parser = .scalar value :: parser'

lemma ReadsValue.ok_iff {h : List Event → Loading Ept → Except Failure (LoadState Ept)}
    {act : String → Loading Ept → Option (Loading Ept)} (hreads : ReadsValue h act) :
    h parser router = .ok (parser', router') ↔
      ∃ value, parser = .scalar value :: parser' ∧ act value router = some router' := by
  constructor
  · intro hok
    obtain ⟨value, rest, rfl⟩ := hreads.2 parser router _ hok
    rw [hreads.1, resultOf_eq_ok] at hok
    exact ⟨value, by rw [hok.1], hok.2⟩
  · rintro ⟨value, rfl, hact⟩
    rw [hreads.1, resultOf_eq_ok]
    exact ⟨rfl, hact⟩

/-- Nothing but a scalar is taken for a value. -/
lemma exists_of_eventScalarValueGet {f : String × List Event → Except Failure (LoadState Ept)}
    (h : (eventScalarValueGet router parser >>= f) = .ok r) :
    ∃ value parser', parser = .scalar value :: parser' := by
  unfold eventScalarValueGet at h
  split at h
  · exact ⟨_, _, rfl⟩
  · cases h

lemma processRouterName_readsValue : ReadsValue (@processRouterName Ept) fun value router =>
      some { router with name := value, nameOnHeap := true } :=
  ⟨fun _ _ _ => rfl, fun _ _ _ => exists_of_eventScalarValueGet⟩

lemma eventPortString_readsValue (consume : Port Ept → String → Option (Port Ept)) :
    ReadsValue (eventPortString consume) fun value => portFocus.on fun port =>
      consume port value := by
  refine ⟨?_, fun _ _ _ => exists_of_eventScalarValueGet⟩
  intro value parser router
  simp only [eventPortString, Focus.on, portFocus_get]
  cases currentPortGet router with
  | none => rfl
  | some port =>
    simp only [eventScalarValueGet, Bind.bind, Except.bind, bind_some]
    cases consume port value with
    | none | some port => rfl

lemma processPortName_readsValue : ReadsValue (@processPortName Ept) fun value =>
      portFocus.on fun port => some { port with name := value } :=
  eventPortString_readsValue _

lemma processPortMetric_readsValue : ReadsValue (@processPortMetric Ept) fun value =>
      portFocus.on fun port =>
        if isValidMetricName value then some { port with metric := value } else none :=
  eventPortString_readsValue _

lemma processPubAddr_readsValue : ReadsValue (@processPubAddr Ept) fun value =>
      portFocus.on fun port => some { port with pubAddr := value } :=
  eventPortString_readsValue _

lemma processSubAddr_readsValue : ReadsValue (@processSubAddr Ept) fun value =>
      portFocus.on fun port => some { port with subAddr := value } :=
  eventPortString_readsValue _

lemma processDstPort_readsValue : ReadsValue (@processDstPort Ept) fun value =>
      ruleFocus.on fun rule => some { rule with dstPortName := value } := by
  constructor
  · intro value parser router
    simp only [processDstPort, Focus.on, ruleFocus_get]
    cases hrule : currentForwardingRuleGet router with
    | none => rfl
    | some rule =>
      simp only [modifyRule_of_current hrule]
      rfl
  · intro parser router r h
    unfold processDstPort at h
    split at h
    · cases h
    · exact exists_of_eventScalarValueGet h

/-- An action sets that of the last filter, if it is known. -/
lemma processAction_readsValue : ReadsValue (@processAction Ept) fun value =>
      filterFocus.on fun filter =>
        (filterActionOf value).map fun action => { filter with action := action } := by
  constructor
  · intro value parser router
    simp only [processAction, Focus.on, filterFocus_get]
    cases hfilter : currentFilterGet router with
    | none => rfl
    | some filter =>
      simp only [modifyFilter_of_current hfilter, eventScalarValueGet, Bind.bind, Except.bind,
        bind_some]
      cases filterActionOf value with
      | none | some action => rfl
  · intro parser router r h
    unfold processAction at h
    split at h
    · cases h
    · exact exists_of_eventScalarValueGet h

/-- The element of a prefix is the event itself. -/
lemma processPrefixElement_eq (value : String) (parser : List Event) (router : Loading Ept) :
    processPrefixElement (.scalar value) parser router = resultOf router parser
        (filterFocus.on (fun filter => filter.push (prefixByte value)) router) := by
  simp only [processPrefixElement, Focus.on, filterFocus_get]
  cases hfilter : currentFilterGet router with
  | none => rfl
  | some filter =>
    simp only [modifyFilter_of_current hfilter, bind_some]
    cases filter.push (prefixByte value) with
    | none | some filter => rfl

end PiksiBuildroot.EndpointRouter
