import PiksiBuildroot.SbpFileio.WriteQueue

/-!
# What holds in every run of the write queue

`Counts` ties the two counters, the pipe and the ring together by the numbers of the requests: those
counted in `writes_pending` and not yet decremented are fewer than `WQ_MAX_PENDING` numbers apart,
so that no two of them share a slot. `Slots` says that a slot holds its request until the count has
been decremented, and `Logs` that what was read and executed is what was queued.
-/

namespace PiksiBuildroot.SbpFileio.WriteQueue

open Function Lib List

/-! ### Numbers of requests -/

/-- The request the main loop is queueing. -/
def Producer.request? : Producer → Option Request
  | .idle => none
  | .waiting r => some r
  | .ready r => some r
  | .acquiring r => some r
  | .filling r _ _ _ => some r

/-- How many requests were called and are not yet counted in `writes_pending`. -/
def Producer.uncounted : Producer → Nat
  | .waiting _ => 1
  | .ready _ => 1
  | _ => 0

/-- How many requests were called and have no index yet. -/
def Producer.unacquired : Producer → Nat
  | .acquiring _ => 1
  | p => p.uncounted

/-- How many requests the main loop has counted and not yet handed on. -/
def Producer.inHand : Producer → Nat
  | .acquiring _ => 1
  | .filling _ _ _ _ => 1
  | _ => 0

/-- The slot and number of the request the write thread is at. -/
def Writer.current : Writer → Option (Nat × Nat)
  | .idle => none
  | .popped i k => some (i, k)
  | .hasSequence i k _ => some (i, k)
  | .executed i k _ _ => some (i, k)
  | .decremented i k _ => some (i, k)

/-- The request the write thread is at and has not decremented. -/
def Writer.serving : Writer → List Nat
  | .popped _ k => [k]
  | .hasSequence _ k _ => [k]
  | .executed _ k _ _ => [k]
  | _ => []

/-- Once it has decremented, the write thread serves no request. -/
lemma Writer.serving_of_decrement (success : Bool) (i k : Nat) (seq : List UInt8) :
    (if success then Writer.decremented i k seq else Writer.idle).serving = [] := by
  cases success <;> rfl

/-- The number of the request a token points to. -/
def Token.number? : Token → Option Nat
  | .null => none
  | .ptr _ k => some k

/-- The numbers the write thread or the pipe has, in order. -/
def State.handed (s : State) : List Nat := s.writer.serving ++ s.pipe.filterMap Token.number?

/-- The numbers of the requests that are counted and not decremented, in order. -/
def State.outstanding (s : State) : List Nat :=
  s.handed ++ List.replicate s.producer.inHand (s.queued.length - 1)

/-- How many requests were ever counted. -/
def State.counted (s : State) : Nat := s.queued.length - s.producer.uncounted

/-! ### Counters -/

/-- The counters, the pipe and the ring in terms of the numbers. -/
structure Counts (s : State) : Prop where
  held : ∀ r, s.producer.request? = some r → s.queued.getLast? = some r
  index : s.writeReqIndex = (s.queued.length - s.producer.unacquired) % wordSize
  pending_le : s.writesPending ≤ wqMaxPending
  pending_lt : ∀ r, s.producer = .ready r → s.writesPending < wqMaxPending
  sorted : s.outstanding.Pairwise (· < ·)
  lt_counted : ∀ k ∈ s.outstanding, k < s.counted
  room : ∀ k ∈ s.outstanding, s.counted ≤ k + s.writesPending
  pipeSlot : ∀ i k, .ptr i k ∈ s.pipe → i = k % wqMaxPending
  writerSlot : ∀ i k, s.writer.current = some (i, k) → i = k % wqMaxPending
  producerSlot : ∀ r i k f, s.producer = .filling r i k f →
    i = k % wqMaxPending ∧ k + 1 = s.queued.length

variable {s : State} {r : Request} {s' : State} {i k : Nat} {a : Action}

/-- While the main loop is queueing a request there is one. -/
lemma Counts.length_pos (h : Counts s) (hr : s.producer.request? = some r) :
    0 < s.queued.length := by
  have := h.held r hr
  by_contra hzero
  rw [length_eq_zero_iff.mp (Nat.eq_zero_of_not_pos hzero)] at this
  exact absurd this (by simp)

/-- A step that leaves the numbers and counters as they are. -/
lemma Counts.of_eq (h : Counts s)
    (hheld : ∀ r, s'.producer.request? = some r → s'.queued.getLast? = some r)
    (hindex : s'.writeReqIndex = (s'.queued.length - s'.producer.unacquired) % wordSize)
    (hpending : s'.writesPending = s.writesPending)
    (hready : ∀ r, s'.producer = .ready r → s'.writesPending < wqMaxPending)
    (hout : s'.outstanding.Sublist s.outstanding) (hcounted : s'.counted = s.counted)
    (hpipe : ∀ i k, .ptr i k ∈ s'.pipe → i = k % wqMaxPending)
    (hwriter : ∀ i k, s'.writer.current = some (i, k) → i = k % wqMaxPending)
    (hproducer : ∀ r i k f, s'.producer = .filling r i k f →
      i = k % wqMaxPending ∧ k + 1 = s'.queued.length) :
    Counts s' := by
  refine ⟨hheld, hindex, hpending ▸ h.pending_le, hready, h.sorted.sublist hout, ?_, ?_, hpipe,
    hwriter, hproducer⟩
  · intro k hk
    rw [hcounted]
    exact h.lt_counted k (hout.subset hk)
  · intro k hk
    rw [hcounted, hpending]
    exact h.room k (hout.subset hk)

variable {f : Filled}

/-- Filling a slot changes no number and no counter. -/
lemma Counts.of_fill (h : Counts s) (hp : s.producer = .filling r i k f) (x : Slot) (f' : Filled) :
    Counts { s.setSlot i x with producer := .filling r i k f' } := by
  refine h.of_eq ?_ ?_ rfl ?_ ?_ ?_ h.pipeSlot h.writerSlot ?_
  · intro r' hr'
    exact h.held r' (by rw [hp]; exact hr')
  · have := h.index
    rw [hp] at this
    exact this
  · intro r' hr'
    cases hr'
  · simp [State.outstanding, State.handed, hp, Producer.inHand, State.setSlot]
  · simp [State.counted, hp, Producer.uncounted, State.setSlot]
  · intro r' i' k' f₀ hf
    cases hf
    exact h.producerSlot r i k f hp

/-- The counters are right in the first state. -/
lemma counts_init : Counts init := by
  refine ⟨?_, rfl, Nat.zero_le _, ?_, List.Pairwise.nil, ?_, ?_, ?_, ?_, ?_⟩
  · intro r hr
    cases hr
  · intro r hr
    cases hr
  · intro k hk
    cases hk
  · intro k hk
    cases hk
  · intro i k hk
    cases hk
  · intro i k hk
    cases hk
  · intro r i k f hf
    cases hf

/-- Counting a request: it comes after all that are counted, and there is room for it. -/
lemma Counts.increment (h : Counts s) (hp : s.producer = .ready r) : Counts { s with
      writesPending := (s.writesPending + 1) % wordSize
      producer := .acquiring r } := by
  have hpos := h.length_pos (r := r) (by rw [hp]; rfl)
  have hlt := h.pending_lt r hp
  have hword : (s.writesPending + 1) % wordSize = s.writesPending + 1 := by
    unfold wqMaxPending at hlt
    unfold wordSize
    omega
  have hcount : s.counted = s.queued.length - 1 := by
    simp [State.counted, hp, Producer.uncounted]
  have hout : s.outstanding = s.handed := by
    simp [State.outstanding, hp, Producer.inHand]
  have hlast : ∀ k ∈ s.handed, k < s.queued.length - 1 := by
    intro k hk
    have := h.lt_counted k (hout ▸ hk)
    omega
  refine ⟨?_, ?_, ?_, ?_, ?_, ?_, ?_, h.pipeSlot, h.writerSlot, ?_⟩
  · intro r' hr'
    exact h.held r' (by rw [hp]; exact hr')
  · have := h.index
    simpa [hp, Producer.unacquired, Producer.uncounted] using this
  · show (s.writesPending + 1) % wordSize ≤ wqMaxPending
    omega
  · intro r' hr'
    cases hr'
  · show (s.handed ++ [s.queued.length - 1]).Pairwise (· < ·)
    rw [pairwise_append]
    refine ⟨hout ▸ h.sorted, pairwise_singleton _ _, ?_⟩
    intro a ha b hb
    rw [mem_singleton.mp hb]
    exact hlast a ha
  · intro k hk
    show k < s.queued.length
    rcases mem_append.mp (show k ∈ s.handed ++ [s.queued.length - 1] from hk) with hk' | hk'
    · have := hlast k hk'
      omega
    · rw [mem_singleton.mp hk']
      omega
  · intro k hk
    show s.queued.length ≤ k + (s.writesPending + 1) % wordSize
    rcases mem_append.mp (show k ∈ s.handed ++ [s.queued.length - 1] from hk) with hk' | hk'
    · have := h.room k (hout ▸ hk')
      omega
    · rw [mem_singleton.mp hk']
      omega
  · intro r' i k f hf
    cases hf

/-- The request that was executed is the first, and leaves when it is counted down. -/
lemma outstanding_eq_cons {seq : List UInt8} {success : Bool}
    (hw : s.writer = .executed i k seq success) (p : Nat) :
    s.outstanding = k :: State.outstanding { s with
      writesPending := p
      writer := if success then .decremented i k seq else .idle } := by
  simp only [State.outstanding, State.handed, hw, Writer.serving_of_decrement]
  rfl

/-- Decrementing after a request has been executed. -/
lemma Counts.decrement (h : Counts s) {seq : List UInt8} {success : Bool}
    (hw : s.writer = .executed i k seq success) :
    Counts { s with
      writesPending := (s.writesPending + (wordSize - 1)) % wordSize
      writer := if success then .decremented i k seq else .idle } := by
  -- the number that leaves is the smallest, so one less is still room for the others
  have hout := outstanding_eq_cons hw ((s.writesPending + (wordSize - 1)) % wordSize)
  have hsorted := h.sorted
  rw [hout, pairwise_cons] at hsorted
  have hmem : k ∈ s.outstanding := by rw [hout]; exact mem_cons_self
  have hroom := h.room k hmem
  have hlt := h.lt_counted k hmem
  have hle := h.pending_le
  have hword : (s.writesPending + (wordSize - 1)) % wordSize = s.writesPending - 1 := by
    unfold wqMaxPending at hle
    unfold wordSize
    omega
  have hcounted : ∀ p w, State.counted { s with writesPending := p, writer := w } = s.counted :=
    fun _ _ => rfl
  refine ⟨h.held, h.index, ?_, ?_, ?_, ?_, ?_, h.pipeSlot, ?_, h.producerSlot⟩
  · show (s.writesPending + (wordSize - 1)) % wordSize ≤ wqMaxPending
    omega
  · intro r hr
    show (s.writesPending + (wordSize - 1)) % wordSize < wqMaxPending
    omega
  · exact hsorted.2
  · intro j hj
    rw [hcounted]
    exact h.lt_counted j (by rw [hout]; exact mem_cons_of_mem _ hj)
  · intro j hj
    have := hsorted.1 j hj
    rw [hcounted, hword]
    dsimp only
    omega
  · intro i' k' hcur
    apply h.writerSlot i' k'
    rw [hw]
    cases success with
    | true => exact hcur
    | false => exact absurd hcur (by simp [Writer.current])

/-- Every transition keeps the counters right. -/
lemma counts_step (h : Counts s) (hstep : Step s a s') : Counts s' := by
  cases hstep with
  | call r hp =>
    refine h.of_eq ?_ ?_ rfl ?_ ?_ ?_ h.pipeSlot h.writerSlot ?_
    · intro r' hr'
      cases hr'
      simp
    · have := h.index
      simpa [hp, Producer.unacquired, Producer.uncounted] using this
    · intro r' hr'
      cases hr'
    · simp [State.outstanding, State.handed, hp, Producer.inHand]
    · simp [State.counted, hp, Producer.uncounted]
    · intro r' i k f hf
      cases hf
  | spin r hp hfull => exact h
  | pass r hp hroom =>
    refine h.of_eq ?_ ?_ rfl ?_ ?_ ?_ h.pipeSlot h.writerSlot ?_
    · intro r' hr'
      exact h.held r' (by rw [hp]; exact hr')
    · have := h.index
      simpa [hp, Producer.unacquired, Producer.uncounted] using this
    · intro r' hr'
      exact Nat.lt_of_le_of_ne h.pending_le hroom
    · simp [State.outstanding, State.handed, hp, Producer.inHand]
    · simp [State.counted, hp, Producer.uncounted]
    · intro r' i k f hf
      cases hf
  | increment r hp => exact h.increment hp
  | acquire r hp =>
    have hpos := h.length_pos (r := r) (by rw [hp]; rfl)
    have hindex : s.writeReqIndex = (s.queued.length - 1) % wordSize := by
      have := h.index
      simpa [hp, Producer.unacquired] using this
    refine h.of_eq ?_ ?_ rfl ?_ ?_ ?_ h.pipeSlot h.writerSlot ?_
    · intro r' hr'
      exact h.held r' (by rw [hp]; exact hr')
    · show (s.writeReqIndex + 1) % wordSize = (s.queued.length - 0) % wordSize
      rw [hindex]
      unfold wordSize
      omega
    · intro r' hr'
      cases hr'
    · simp [State.outstanding, State.handed, hp, Producer.inHand]
    · simp [State.counted, hp, Producer.uncounted]
    · intro r' i k f hf
      cases hf
      refine ⟨?_, Nat.sub_add_cancel hpos⟩
      rw [hindex]
      unfold wordSize wqMaxPending
      omega
  | fillLen r i k hp | fillMsg r i k hp | fillPubsubIdx r i k hp => exact h.of_fill hp _ _
  | push r i k hp =>
    obtain ⟨hslot, hk⟩ := h.producerSlot r i k _ hp
    refine h.of_eq ?_ ?_ rfl ?_ ?_ ?_ ?_ h.writerSlot ?_
    · intro r' hr'
      cases hr'
    · have := h.index
      simpa [hp, Producer.unacquired, Producer.uncounted] using this
    · intro r' hr'
      cases hr'
    · simp [State.outstanding, State.handed, hp, Producer.inHand, Token.number?, ← hk]
    · simp [State.counted, hp, Producer.uncounted]
    · intro i' k' hmem
      rcases mem_append.mp hmem with hmem' | hmem'
      · exact h.pipeSlot i' k' hmem'
      · cases mem_singleton.mp hmem'
        exact hslot
    · intro r' i' k' f hf
      cases hf
  | lose r i k hp =>
    refine h.of_eq ?_ ?_ rfl ?_ ?_ ?_ h.pipeSlot h.writerSlot ?_
    · intro r' hr'
      cases hr'
    · have := h.index
      simpa [hp, Producer.unacquired, Producer.uncounted] using this
    · intro r' hr'
      cases hr'
    · simp [State.outstanding, State.handed, hp, Producer.inHand]
    · simp [State.counted, hp, Producer.uncounted]
    · intro r' i' k' f hf
      cases hf
  | requestFlush hp =>
    refine h.of_eq h.held h.index rfl h.pending_lt ?_ rfl ?_ h.writerSlot h.producerSlot
    · simp [State.outstanding, State.handed, Token.number?]
    · intro i k hmem
      rcases mem_append.mp hmem with hmem' | hmem'
      · exact h.pipeSlot i k hmem'
      · cases mem_singleton.mp hmem'
  | takePtr i k rest hw hpipe =>
    refine h.of_eq h.held h.index rfl h.pending_lt ?_ rfl ?_ ?_ h.producerSlot
    · simp [State.outstanding, State.handed, hw, hpipe, Writer.serving, Token.number?]
    · intro i' k' hmem
      exact h.pipeSlot i' k' (by rw [hpipe]; exact mem_cons_of_mem _ hmem)
    · intro i' k' hcur
      cases hcur
      exact h.pipeSlot i k (by rw [hpipe]; exact mem_cons_self)
  | takeNull rest hw hpipe =>
    refine h.of_eq h.held h.index rfl h.pending_lt ?_ rfl ?_ h.writerSlot h.producerSlot
    · simp [State.outstanding, State.handed, hpipe, Token.number?, filterMap_cons]
    · intro i' k' hmem
      exact h.pipeSlot i' k' (by rw [hpipe]; exact mem_cons_of_mem _ hmem)
  | readSequence i k hw | execute i k seq success hw =>
    refine h.of_eq h.held h.index rfl h.pending_lt ?_ rfl h.pipeSlot ?_ h.producerSlot
    · simp [State.outstanding, State.handed, hw, Writer.serving]
    · intro i' k' hcur
      exact h.writerSlot i' k' (by rw [hw]; exact hcur)
  | decrement i k seq success hw => exact h.decrement hw
  | stage i k seq hw =>
    refine h.of_eq h.held h.index rfl h.pending_lt ?_ rfl h.pipeSlot ?_ h.producerSlot
    · simp [State.outstanding, State.handed, hw, Writer.serving]
    · intro i' k' hcur
      cases hcur

/-! ### Slots -/

/-- The slot holds the request. -/
structure Slot.Holds (slot : Slot) (r : Request) : Prop where
  len : slot.len = r.msg.length
  msg : slot.msgBuffer.take r.msg.length = r.msg
  pubsubIdx : slot.pubsubIdx = r.pubsubIdx

/-- The slot holds as much of the request as was filled in. -/
def Slot.HoldsFilled (slot : Slot) (r : Request) : Filled → Prop
  | .nothing => True
  | .len => slot.len = r.msg.length
  | .msg => slot.len = r.msg.length ∧ slot.msgBuffer.take r.msg.length = r.msg
  | .all => slot.Holds r

/-- Each request that is counted and not decremented is in its slot. -/
structure Slots (s : State) : Prop where
  handed : ∀ k ∈ s.handed, ∃ r, s.queued[k]? = some r ∧ (s.slots (k % wqMaxPending)).Holds r
  filling : ∀ r i k f, s.producer = .filling r i k f → (s.slots i).HoldsFilled r f

/-- The slot that is being filled is none of those that were handed on. -/
lemma Counts.slot_ne (h : Counts s) (hp : s.producer = .filling r i k f) {j : Nat}
    (hj : j ∈ s.handed) : j % wqMaxPending ≠ i := by
  obtain ⟨hi, hk⟩ := h.producerSlot r i k f hp
  have hout : s.outstanding = s.handed ++ [k] := by
    simp [State.outstanding, hp, Producer.inHand, ← hk]
  have hsorted := h.sorted
  rw [hout, pairwise_append] at hsorted
  have hlt : j < k := hsorted.2.2 j hj k (mem_singleton_self k)
  have hroom := h.room j (by exact mem_append_left _ hj)
  have hcount : s.counted = s.queued.length := by simp [State.counted, hp, Producer.uncounted]
  have hle := h.pending_le
  unfold wqMaxPending at *
  omega

/-- A step that changes neither slots nor the requests handed on. -/
lemma Slots.of_eq (h : Slots s) (hslots : s'.slots = s.slots)
    (hqueued : ∀ (k : Nat) r, s.queued[k]? = some r → s'.queued[k]? = some r)
    (hhanded : ∀ k ∈ s'.handed, k ∈ s.handed)
    (hfilling : ∀ r i k f, s'.producer = .filling r i k f → (s'.slots i).HoldsFilled r f) :
    Slots s' := by
  refine ⟨?_, hfilling⟩
  intro k hk
  obtain ⟨r, hr, hholds⟩ := h.handed k (hhanded k hk)
  exact ⟨r, hqueued k r hr, hslots ▸ hholds⟩

/-- Filling in more of a slot. -/
lemma Slots.of_fill (h : Slots s) (hc : Counts s) {f f' : Filled}
    (hp : s.producer = .filling r i k f) {x : Slot} (hx : x.HoldsFilled r f') :
    Slots { s.setSlot i x with producer := .filling r i k f' } := by
  constructor
  · intro j hj
    obtain ⟨r', hr', hholds⟩ := h.handed j hj
    refine ⟨r', hr', ?_⟩
    show (update s.slots i x (j % wqMaxPending)).Holds r'
    rw [update_of_ne (hc.slot_ne hp hj)]
    exact hholds
  · intro r' i' k' f₀ hf
    cases hf
    show (update s.slots i x i).HoldsFilled r f'
    rw [update_self]
    exact hx

/-- Every transition keeps the requests in their slots. -/
lemma slots_step (hc : Counts s) (h : Slots s) (hstep : Step s a s') : Slots s' := by
  have hqueued := hstep.queued
  cases hstep with
  | call r hp | pass r hp hroom | increment r hp =>
    refine h.of_eq rfl hqueued (fun _ hk => hk) ?_
    intro r' i k f hf
    cases hf
  | spin r hp hfull => exact h
  | acquire r hp =>
    refine h.of_eq rfl hqueued (fun _ hk => hk) ?_
    intro r' i k f hf
    cases hf
    trivial
  | fillLen r i k hp => exact h.of_fill hc hp (show _ = _ from rfl)
  | fillMsg r i k hp =>
    refine h.of_fill hc hp (show _ ∧ _ from ⟨h.filling r i k _ hp, ?_⟩)
    simp
  | fillPubsubIdx r i k hp =>
    have hmsg : _ ∧ _ := h.filling r i k _ hp
    exact h.of_fill hc hp (show Slot.Holds _ _ from ⟨hmsg.1, hmsg.2, rfl⟩)
  | push r i k hp =>
    obtain ⟨hi, hk⟩ := hc.producerSlot r i k _ hp
    have hhanded : State.handed { s with producer := .idle, pipe := s.pipe ++ [.ptr i k] } =
        s.handed ++ [k] := by
      simp [State.handed, Token.number?]
    constructor
    · intro j hj
      rw [hhanded] at hj
      rcases mem_append.mp hj with hj' | hj'
      · exact h.handed j hj'
      · rw [mem_singleton.mp hj']
        have hlast := hc.held r (by rw [hp]; rfl)
        rw [getLast?_eq_getElem?, ← hk, Nat.add_sub_cancel] at hlast
        exact ⟨r, hlast, hi ▸ h.filling r i k _ hp⟩
    · intro r' i' k' f hf
      cases hf
  | lose r i k hp =>
    refine h.of_eq rfl hqueued (fun _ hk => hk) ?_
    intro r' i' k' f hf
    cases hf
  | requestFlush hp =>
    refine h.of_eq rfl hqueued ?_ h.filling
    intro k hk
    simpa [State.handed, Token.number?] using hk
  | takePtr i k rest hw hpipe =>
    refine h.of_eq rfl hqueued ?_ h.filling
    intro j hj
    simpa [State.handed, Token.number?, hw, hpipe, Writer.serving] using hj
  | takeNull rest hw hpipe =>
    refine h.of_eq rfl hqueued ?_ h.filling
    intro j hj
    simpa [State.handed, Token.number?, hpipe, filterMap_cons] using hj
  | readSequence i k hw | execute i k seq success hw | stage i k seq hw =>
    refine h.of_eq rfl hqueued ?_ h.filling
    intro j hj
    simpa [State.handed, hw, Writer.serving] using hj
  | decrement i k seq success hw =>
    refine h.of_eq rfl hqueued ?_ h.filling
    intro j hj
    simp only [State.handed, Writer.serving_of_decrement, nil_append] at hj
    exact mem_append_right _ hj

/-! ### What was executed -/

/-- The sequence number the write thread has read, with the number of its request. -/
def Writer.sequence? : Writer → Option (Nat × List UInt8)
  | .hasSequence _ k seq => some (k, seq)
  | .executed _ k seq _ => some (k, seq)
  | .decremented _ k seq => some (k, seq)
  | _ => none

/-- What the write thread has read and executed is what was queued. -/
structure Logs (s : State) : Prop where
  seq : ∀ k q, s.writer.sequence? = some (k, q) → ∃ r, s.queued[k]? = some r ∧ q = sequence r.msg
  executed : ∀ e ∈ s.executed,
    ∃ r, s.queued[e.number]? = some r ∧ e.len = r.msg.length ∧ e.msg = r.msg

/-- A step that reads nothing from the slots. -/
lemma Logs.of_eq (h : Logs s)
    (hqueued : ∀ (k : Nat) r, s.queued[k]? = some r → s'.queued[k]? = some r)
    (hseq : ∀ k q, s'.writer.sequence? = some (k, q) → s.writer.sequence? = some (k, q))
    (hexecuted : s'.executed = s.executed) : Logs s' := by
  constructor
  · intro k q hq
    obtain ⟨r, hr, hrq⟩ := h.seq k q (hseq k q hq)
    exact ⟨r, hqueued k r hr, hrq⟩
  · intro e he
    obtain ⟨r, hr, hlen, hmsg⟩ := h.executed e (hexecuted ▸ he)
    exact ⟨r, hqueued _ r hr, hlen, hmsg⟩

/-- The slot the write thread is at holds its request until the count is decremented. -/
lemma Slots.holds_of_serving (h : Slots s) (hc : Counts s) (hcur : s.writer.current = some (i, k))
    (hserving : s.writer.serving = [k]) : ∃ r, s.queued[k]? = some r ∧ (s.slots i).Holds r := by
  have hmem : k ∈ s.handed := by simp [State.handed, hserving]
  obtain ⟨r, hr, hholds⟩ := h.handed k hmem
  exact ⟨r, hr, hc.writerSlot i k hcur ▸ hholds⟩

/-- The sequence number in a slot is that of its request. -/
lemma Slot.Holds.sequence_eq {slot : Slot} (h : slot.Holds r) :
    sequence slot.msgBuffer = sequence r.msg := by
  have hlen := r.len_gt
  have := congrArg (List.take 4) h.msg
  rwa [take_take, Nat.min_eq_left (by omega)] at this

/-- Every transition keeps the logs right. -/
lemma logs_step (hc : Counts s) (hs : Slots s) (h : Logs s) (hstep : Step s a s') : Logs s' := by
  have hqueued := hstep.queued
  cases hstep with
  | call r hp | pass r hp hroom | increment r hp | acquire r hp | fillLen r i k hp
  | fillMsg r i k hp | fillPubsubIdx r i k hp | push r i k hp | lose r i k hp | requestFlush hp
  | takeNull rest hw hpipe => exact h.of_eq hqueued (fun _ _ hq => hq) rfl
  | spin r hp hfull => exact h
  | takePtr i k rest hw hpipe | stage i k seq hw =>
    refine h.of_eq hqueued ?_ rfl
    intro j q hq
    cases hq
  | readSequence i k hw =>
    obtain ⟨r, hr, hholds⟩ := hs.holds_of_serving hc (i := i) (k := k) (by rw [hw]; rfl)
      (by rw [hw]; rfl)
    refine ⟨?_, h.executed⟩
    intro j q hq
    cases hq
    exact ⟨r, hr, hholds.sequence_eq⟩
  | execute i k seq success hw =>
    obtain ⟨r, hr, hholds⟩ := hs.holds_of_serving hc (i := i) (k := k) (by rw [hw]; rfl)
      (by rw [hw]; rfl)
    constructor
    · intro j q hq
      exact h.seq j q (by rw [hw]; exact hq)
    · intro e he
      rcases mem_append.mp he with he' | he'
      · exact h.executed e he'
      · rw [mem_singleton.mp he']
        refine ⟨r, hr, hholds.len, ?_⟩
        show (s.slots i).msgBuffer.take (s.slots i).len = r.msg
        rw [hholds.len, hholds.msg]
  | decrement i k seq success hw =>
    refine h.of_eq hqueued ?_ rfl
    intro j q hq
    rw [hw]
    cases success with
    | true => exact hq
    | false => exact absurd hq (by simp [Writer.sequence?])

/-- All that holds in every run. -/
structure QueueInv (s : State) : Prop where
  counts : Counts s
  slots : Slots s
  logs : Logs s

/-- The first state. -/
lemma queueInv_init : QueueInv init := by
  refine ⟨counts_init, ⟨?_, ?_⟩, ⟨?_, ?_⟩⟩
  · intro k hk
    cases hk
  · intro r i k f hf
    cases hf
  · intro k q hq
    cases hq
  · intro e he
    cases he

/-- Every step. -/
lemma queueInv_step (h : QueueInv s) (hstep : step s a = some s') : QueueInv s' := by
  have hs := step_of_eq_some hstep
  exact ⟨counts_step h.counts hs, slots_step h.counts h.slots hs,
    logs_step h.counts h.slots h.logs hs⟩

/-- Every run. -/
theorem queueInv_of_reaches (h : machine.Reaches s) : QueueInv s := by
  apply h.invariant queueInv_init
  intro s a s' hs hstep
  exact queueInv_step hs hstep

end PiksiBuildroot.SbpFileio.WriteQueue
