import PiksiBuildroot.SbpFileio.WriteQueueRuns

/-!
# Delivery of write requests and their replies

With a pipe that accepts every pointer the requests are executed intact, in order and each once
(`executed_eq_take_of_reaches`). Replies are staged on the pubsub index that is in the slot after
the count was decremented; with a full queue the main loop can give the slot another index meanwhile
(`staged_eq_of_reaches`, `staged_on_other_pubsubIdx`).
-/

namespace PiksiBuildroot.SbpFileio.WriteQueue

open Function Lib List Option

/-! ### Requests -/

/-- Every write of a pointer to the pipe succeeds. -/
def PipeAccepts (_ : State) (a : Action) : Prop := a ≠ .push false

instance (s : State) (a : Action) : Decidable (PipeAccepts s a) := by
  unfold PipeAccepts
  infer_instance

/-- The request the write thread has taken and not executed. -/
def Writer.unexecuted : Writer → List Nat
  | .popped _ k => [k]
  | .hasSequence _ k _ => [k]
  | _ => []

/-- How many requests the main loop has a slot for and has not handed on. -/
def Producer.inSlot : Producer → Nat
  | .filling _ _ _ _ => 1
  | _ => 0

/-- The requests that have a slot and are not executed, in order. -/
def State.unexecuted (s : State) : List Nat :=
  s.writer.unexecuted ++ s.pipe.filterMap Token.number? ++
    List.replicate s.producer.inSlot (s.queued.length - 1)

/-- The executed requests and those that are to be executed are all that have a slot, in order. -/
def InOrder (s : State) : Prop := s.executed.map Executed.number ++ s.unexecuted =
    List.range (s.queued.length - s.producer.unacquired)

variable {s s' : State}

/-- A step that moves no request past its execution. -/
lemma InOrder.of_eq (h : InOrder s) (hexecuted : s'.executed = s.executed)
    (hunexecuted : s'.unexecuted = s.unexecuted)
    (hacquired : s'.queued.length - s'.producer.unacquired =
      s.queued.length - s.producer.unacquired) :
    InOrder s' := by
  unfold InOrder
  rw [hexecuted, hunexecuted, hacquired]
  exact h

variable {a : Action}

/-- Filling a slot moves no request. -/
lemma InOrder.of_fill (h : InOrder s) {r : Request} {i k : Nat} {f : Filled}
    (hp : s.producer = .filling r i k f) (x : Slot) (f' : Filled) :
    InOrder { s.setSlot i x with producer := .filling r i k f' } := by
  refine h.of_eq rfl ?_ ?_
  · simp [State.unexecuted, hp, Producer.inSlot, State.setSlot]
  · simp [hp, Producer.unacquired, Producer.uncounted, State.setSlot]

/-- Every step whose pointer is accepted keeps the order. -/
lemma inOrder_step (hc : Counts s) (h : InOrder s) (hok : PipeAccepts s a) (hstep : Step s a s') :
    InOrder s' := by
  cases hstep with
  | call r hp | pass r hp hroom | increment r hp =>
    refine h.of_eq rfl ?_ ?_
    · simp [State.unexecuted, hp, Producer.inSlot]
    · simp [hp, Producer.unacquired, Producer.uncounted]
  | spin r hp hfull => exact h
  | acquire r hp =>
    have hpos := hc.length_pos (r := r) (by rw [hp]; rfl)
    have hold : s.executed.map Executed.number ++
        (s.writer.unexecuted ++ s.pipe.filterMap Token.number?) =
          List.range (s.queued.length - 1) := by
      have := h
      simpa [InOrder, State.unexecuted, hp, Producer.inSlot, Producer.unacquired] using this
    show s.executed.map Executed.number ++ (s.writer.unexecuted ++
      s.pipe.filterMap Token.number? ++ [s.queued.length - 1]) = List.range (s.queued.length - 0)
    rw [← append_assoc, hold, ← range_succ, Nat.sub_zero, Nat.succ_eq_add_one,
      Nat.sub_add_cancel hpos]
  | fillLen r i k hp | fillMsg r i k hp | fillPubsubIdx r i k hp => exact h.of_fill hp _ _
  | push r i k hp =>
    obtain ⟨-, hk⟩ := hc.producerSlot r i k _ hp
    refine h.of_eq rfl ?_ ?_
    · simp [State.unexecuted, hp, Producer.inSlot, Token.number?, ← hk]
    · simp [hp, Producer.unacquired, Producer.uncounted]
  | lose r i k hp => exact absurd rfl hok
  | requestFlush hp =>
    refine h.of_eq rfl ?_ rfl
    simp [State.unexecuted, Token.number?]
  | takePtr i k rest hw hpipe =>
    refine h.of_eq rfl ?_ rfl
    simp [State.unexecuted, hw, hpipe, Writer.unexecuted, Token.number?]
  | takeNull rest hw hpipe =>
    refine h.of_eq rfl ?_ rfl
    simp [State.unexecuted, hpipe, Token.number?, filterMap_cons]
  | readSequence i k hw | stage i k seq hw =>
    refine h.of_eq rfl ?_ rfl
    simp [State.unexecuted, hw, Writer.unexecuted]
  | execute i k seq success hw =>
    have := h
    simpa [InOrder, State.unexecuted, hw, Writer.unexecuted] using this
  | decrement i k seq success hw =>
    refine h.of_eq rfl ?_ rfl
    cases success <;> simp [State.unexecuted, hw, Writer.unexecuted]

/-- The requests are in order in every run in which the pipe accepts every pointer. -/
lemma inOrder_of_reaches (h : (machine.restrict PipeAccepts).Reaches s) : InOrder s := by
  have hboth : Counts s ∧ InOrder s := by
    have hinit : InOrder init := rfl
    refine h.invariant_restrict (fun s => Counts s ∧ InOrder s) ⟨counts_init, hinit⟩ ?_
    intro s a s' hs hok hstep
    have htrans := step_of_eq_some hstep
    exact ⟨counts_step hs.1 htrans, inOrder_step hs.1 hs.2 hok htrans⟩
  exact hboth.2

/-- Nothing is under way: the main loop is in no call, and no request is in the pipe or taken. -/
def State.AtRest (s : State) : Prop := s.producer = .idle ∧ s.unexecuted = []

/-- If the pipe accepts every pointer, the executed writes are the first of the queued requests, in
order and with their length and bytes, and all of them when nothing is under way. -/
theorem executed_eq_take_of_reaches {s : State} (h : (machine.restrict PipeAccepts).Reaches s) :
    s.executed.map (fun e => (e.len, e.msg)) =
        (s.queued.take s.executed.length).map (fun r => (r.msg.length, r.msg)) ∧
      (s.AtRest → s.executed.length = s.queued.length) := by
  have hinv := queueInv_of_reaches h.of_restrict
  have horder := inOrder_of_reaches h
  -- the number of the `j`-th executed write is `j`
  have hnumber : ∀ (j : Nat) (e : Executed), s.executed[j]? = some e → e.number = j := by
    intro j e he
    have hj : j < (s.executed.map Executed.number).length := by
      simpa using (List.getElem?_eq_some_iff.mp he).1
    have hget := congrArg (fun l : List Nat => l[j]?) horder
    simp only [getElem?_append_left hj, getElem?_map, he, map_some] at hget
    obtain ⟨hlt, hval⟩ := List.getElem?_eq_some_iff.mp hget.symm
    rw [← hval, getElem_range]
  refine ⟨ext_getElem? fun j => ?_, ?_⟩
  · by_cases hj : j < s.executed.length
    · obtain ⟨e, he⟩ : ∃ e, s.executed[j]? = some e := ⟨_, getElem?_eq_getElem hj⟩
      obtain ⟨r, hr, hlen, hmsg⟩ := hinv.logs.executed e (mem_of_getElem? he)
      rw [hnumber j e he] at hr
      rw [getElem?_map, getElem?_map, getElem?_take_of_lt hj, he, hr,
        map_some, map_some, hlen, hmsg]
    · have hle := Nat.le_of_not_lt hj
      rw [getElem?_map, getElem?_map, getElem?_eq_none hle, getElem?_take_eq_none hle]
      rfl
  · rintro ⟨hidle, hnone⟩
    have hlen := congrArg List.length horder
    simpa [InOrder, hidle, hnone, Producer.unacquired, Producer.uncounted] using hlen

/-! ### A small run -/

/-- A request of eleven bytes that are its pubsub index. -/
def smallRequest (pubsubIdx : Nat) : Request :=
  ⟨List.replicate 11 (UInt8.ofNat pubsubIdx), pubsubIdx, by simp, by simp⟩

/-- The steps of one call of `queue_file_write`. -/
def queueFileWrite (r : Request) : List Action :=
  [.call r, .checkPending, .incrementPending, .acquireIndex, .fillLen, .fillMsg, .fillPubsubIdx,
    .push true]

/-- The steps of the write thread with one request. -/
def serveOne : List Action := [.take, .readSequence, .execute true, .decrement, .stage]

theorem executed_eq_take_of_reaches_serveOne : ∃ s, (machine.restrict PipeAccepts).Reaches s ∧
      s.executed.map Executed.msg = [List.replicate 11 1, List.replicate 11 2] ∧
      s.executed.map (fun e => (e.len, e.msg)) =
        (s.queued.take s.executed.length).map (fun r => (r.msg.length, r.msg)) ∧
      s.executed.length = s.queued.length := by
  obtain ⟨s, hs, hmsg, hrest⟩ : ∃ s, (machine.restrict PipeAccepts).run
      (queueFileWrite (smallRequest 1) ++ queueFileWrite (smallRequest 2) ++ serveOne ++
        serveOne) = some s ∧
      s.executed.map Executed.msg = [List.replicate 11 1, List.replicate 11 2] ∧ s.AtRest :=
    ⟨_, rfl, rfl, rfl, rfl⟩
  obtain ⟨htake, hall⟩ := executed_eq_take_of_reaches (Machine.reaches_of_run hs)
  exact ⟨s, Machine.reaches_of_run hs, hmsg, htake, hall hrest⟩

/-! ### Replies -/

/-- The main loop stores no other pubsub index in the slot of a request that was decremented and
whose reply is not staged yet. -/
def KeepsPubsubIdx (s : State) (a : Action) : Prop := match a, s.producer, s.writer with
  | .fillPubsubIdx, .filling r i _ _, .decremented j _ _ =>
    i = j → r.pubsubIdx = (s.slots j).pubsubIdx
  | _, _, _ => True

instance (s : State) (a : Action) : Decidable (KeepsPubsubIdx s a) := by
  unfold KeepsPubsubIdx
  split <;> infer_instance

/-- The replies are right, and the one to come will be. -/
structure Replies (s : State) : Prop where
  toCome : ∀ i k seq, s.writer = .decremented i k seq →
    ∃ r, s.queued[k]? = some r ∧ (s.slots i).pubsubIdx = r.pubsubIdx
  staged : ∀ e ∈ s.staged,
    ∃ r, s.queued[e.number]? = some r ∧ e.seq = sequence r.msg ∧ e.pubsubIdx = r.pubsubIdx

/-- A step that stages nothing and keeps the pubsub indices of the slots. -/
lemma Replies.of_eq (h : Replies s)
    (hqueued : ∀ (k : Nat) r, s.queued[k]? = some r → s'.queued[k]? = some r)
    (hwriter : ∀ i k seq, s'.writer = .decremented i k seq →
      s.writer = .decremented i k seq ∧ (s'.slots i).pubsubIdx = (s.slots i).pubsubIdx)
    (hstaged : s'.staged = s.staged) : Replies s' := by
  constructor
  · intro i k seq hw
    obtain ⟨hw', hidx⟩ := hwriter i k seq hw
    obtain ⟨r, hr, hri⟩ := h.toCome i k seq hw'
    exact ⟨r, hqueued k r hr, hidx.trans hri⟩
  · intro e he
    obtain ⟨r, hr, hseq, hidx⟩ := h.staged e (hstaged ▸ he)
    exact ⟨r, hqueued _ r hr, hseq, hidx⟩

/-- Changing a slot without changing its pubsub index. -/
lemma pubsubIdx_setSlot (s : State) {i : Nat} {x : Slot}
    (hx : x.pubsubIdx = (s.slots i).pubsubIdx) (j : Nat) :
    ((s.setSlot i x).slots j).pubsubIdx = (s.slots j).pubsubIdx := by
  show (update s.slots i x j).pubsubIdx = _
  by_cases hj : j = i
  · rw [hj, update_self, hx]
  · rw [update_of_ne hj]

/-- Every step that keeps the pubsub index of a reply to come keeps the replies right. -/
lemma replies_step (hinv : QueueInv s) (h : Replies s) (hok : KeepsPubsubIdx s a)
    (hstep : Step s a s') : Replies s' := by
  have hqueued := hstep.queued
  cases hstep with
  | call r hp | pass r hp hroom | increment r hp | acquire r hp | push r i k hp | lose r i k hp
  | requestFlush hp | takeNull rest hw hpipe =>
    exact h.of_eq hqueued (fun _ _ _ hw => ⟨hw, rfl⟩) rfl
  | spin r hp hfull => exact h
  | fillLen r i k hp | fillMsg r i k hp =>
    refine h.of_eq hqueued (fun j _ _ hw => ⟨hw, ?_⟩) rfl
    apply pubsubIdx_setSlot
    rfl
  | fillPubsubIdx r i k hp =>
    refine h.of_eq hqueued ?_ rfl
    intro j k' seq hw
    have hw' : s.writer = .decremented j k' seq := hw
    refine ⟨hw', ?_⟩
    simp only [KeepsPubsubIdx, hp, hw'] at hok
    show (update s.slots i _ j).pubsubIdx = _
    by_cases hj : j = i
    · rw [hj, update_self]
      exact hj ▸ hok hj.symm
    · rw [update_of_ne hj]
  | takePtr i k rest hw hpipe | readSequence i k hw =>
    refine h.of_eq hqueued ?_ rfl
    intro j k' seq hw'
    cases hw'
  | execute i k seq success hw =>
    refine h.of_eq hqueued ?_ rfl
    intro j k' seq' hw'
    cases hw'
  | decrement i k seq success hw =>
    -- the slot still holds the request at this moment
    obtain ⟨r, hr, hholds⟩ := hinv.slots.holds_of_serving hinv.counts (i := i) (k := k)
      (by rw [hw]; rfl) (by rw [hw]; rfl)
    refine ⟨?_, h.staged⟩
    intro j k' seq' hw'
    cases success with
    | true =>
      cases hw'
      exact ⟨r, hr, hholds.pubsubIdx⟩
    | false => exact absurd hw' (by simp)
  | stage i k seq hw =>
    obtain ⟨r, hr, hidx⟩ := h.toCome i k seq hw
    obtain ⟨r', hr', hseq⟩ := hinv.logs.seq k seq (by rw [hw]; rfl)
    constructor
    · intro j k' seq' hw'
      cases hw'
    · intro e he
      rcases mem_append.mp he with he' | he'
      · exact h.staged e he'
      · rw [mem_singleton.mp he']
        obtain rfl : r' = r := some.inj (hr'.symm.trans hr)
        exact ⟨r', hr, hseq, hidx⟩

/-- In every run in which no slot is given another pubsub index between the decrement and the reply,
each reply carries the sequence number of its request and is staged on its pubsub index. -/
theorem staged_eq_of_reaches {s : State} (h : (machine.restrict KeepsPubsubIdx).Reaches s)
    {e : Staged} (he : e ∈ s.staged) :
    ∃ r, s.queued[e.number]? = some r ∧ e.seq = sequence r.msg ∧ e.pubsubIdx = r.pubsubIdx := by
  have hinit : Replies init := by
    constructor
    · intro i k seq hw
      cases hw
    · intro e he
      exact absurd he not_mem_nil
  have hboth : QueueInv s ∧ Replies s := by
    refine h.invariant_restrict (fun s => QueueInv s ∧ Replies s) ⟨queueInv_init, hinit⟩ ?_
    intro s a s' hs hok hstep
    exact ⟨queueInv_step hs.1 hstep, replies_step hs.1 hs.2 hok (step_of_eq_some hstep)⟩
  exact hboth.2.staged e he

theorem staged_eq_of_reaches_serveOne : ∃ s e, (machine.restrict KeepsPubsubIdx).run
        (queueFileWrite (smallRequest 3) ++ serveOne) = some s ∧ e ∈ s.staged ∧
      ∃ r, s.queued[e.number]? = some r ∧ e.seq = sequence r.msg ∧ e.pubsubIdx = r.pubsubIdx := by
  have hrun : ∃ s, (machine.restrict KeepsPubsubIdx).run
      (queueFileWrite (smallRequest 3) ++ serveOne) = some s ∧ s.staged = [⟨0, [3, 3, 3, 3], 3⟩] :=
    ⟨_, rfl, rfl⟩
  obtain ⟨s, hs, hstaged⟩ := hrun
  have hmem : (⟨0, [3, 3, 3, 3], 3⟩ : Staged) ∈ s.staged := by
    rw [hstaged]
    exact mem_singleton_self _
  exact ⟨s, _, hs, hmem, staged_eq_of_reaches (Machine.reaches_of_run hs) hmem⟩

/-- A full queue of requests on pubsub index `0`; when the first is decremented, a request on index
`1` is queued and fills the same slot before the reply is staged. -/
def refillBeforeReply : List Action :=
  (List.replicate wqMaxPending (queueFileWrite (smallRequest 0))).flatten ++
    [.take, .readSequence, .execute true, .decrement] ++
    (queueFileWrite (smallRequest 1)).dropLast ++ [.stage]

set_option maxRecDepth 10000 in
/-- The reply to the first request is staged on the pubsub index of another one. -/
theorem staged_on_other_pubsubIdx : ∃ s, machine.Reaches s ∧ s.staged = [⟨0, [0, 0, 0, 0], 1⟩] ∧
      (s.queued[0]?).map Request.pubsubIdx = some 0 := by
  have hrun : (machine.run refillBeforeReply).map
      (fun s => (s.staged, (s.queued[0]?).map Request.pubsubIdx)) =
        some ([⟨0, [0, 0, 0, 0], 1⟩], some 0) := by
    decide +kernel
  obtain ⟨s, hs, hlog⟩ := map_eq_some_iff.mp hrun
  rw [Prod.mk.injEq] at hlog
  exact ⟨s, Machine.reaches_of_run hs, hlog.1, hlog.2⟩

end PiksiBuildroot.SbpFileio.WriteQueue
