import PiksiBuildroot.SbpFileio.WriteQueueDelivery

/-!
# The count of pending writes

`queue_file_write` counts a request before it writes the pointer to the pipe, and only the write
thread counts it down again (`writesPending_eq_of_reaches`). A pointer that the pipe does not take
is only logged: the request is gone and stays counted (`writesPending_of_lost`).
-/

namespace PiksiBuildroot.SbpFileio.WriteQueue

open Lib List

/-- The count is the number of requests that are counted and not decremented. -/
def Accounted (s : State) : Prop := s.writesPending = s.outstanding.length

variable {s s' : State}

/-- A step that changes neither the count nor how many requests it is for. -/
lemma Accounted.of_eq (h : Accounted s) (hpending : s'.writesPending = s.writesPending)
    (hlength : s'.outstanding.length = s.outstanding.length) : Accounted s' := by
  unfold Accounted
  rw [hpending, hlength]
  exact h

variable {r : Request} {i k : Nat}

/-- Filling a slot counts nothing. -/
lemma Accounted.of_fill (h : Accounted s) {f : Filled} (hp : s.producer = .filling r i k f)
    (x : Slot) (f' : Filled) : Accounted { s.setSlot i x with producer := .filling r i k f' } := by
  refine h.of_eq rfl ?_
  simp [State.outstanding, State.handed, hp, Producer.inHand, State.setSlot]

/-- A request is counted before it is handed over. -/
lemma Accounted.increment (hc : Counts s) (h : Accounted s) (hp : s.producer = .ready r) :
    Accounted { s with
      producer := .acquiring r, writesPending := (s.writesPending + 1) % wordSize } := by
  have hlt := hc.pending_lt r hp
  have hlength : s.outstanding.length = s.handed.length := by
    simp [State.outstanding, hp, Producer.inHand]
  show (s.writesPending + 1) % wordSize =
    (s.handed ++ List.replicate 1 (s.queued.length - 1)).length
  rw [length_append, length_replicate]
  unfold Accounted at h
  unfold wqMaxPending at hlt
  unfold wordSize
  omega

/-- The request that is counted down is the one that was being executed. -/
lemma Accounted.decrement (hc : Counts s) (h : Accounted s) {seq : List UInt8} {success : Bool}
    (hw : s.writer = .executed i k seq success) :
    Accounted { s with
      writesPending := (s.writesPending + (wordSize - 1)) % wordSize
      writer := if success then .decremented i k seq else .idle } := by
  have hle := hc.pending_le
  have hout := outstanding_eq_cons hw ((s.writesPending + (wordSize - 1)) % wordSize)
  unfold Accounted at *
  rw [hout, length_cons] at h
  dsimp only
  unfold wqMaxPending at hle
  unfold wordSize at *
  omega

/-- Every step whose pointer is accepted keeps the account. -/
lemma accounted_step {a : Action} (hc : Counts s) (h : Accounted s) (hok : PipeAccepts s a)
    (hstep : Step s a s') : Accounted s' := by
  cases hstep with
  | call r hp | pass r hp hroom | acquire r hp =>
    refine h.of_eq rfl ?_
    simp [State.outstanding, State.handed, hp, Producer.inHand]
  | spin r hp hfull => exact h
  | increment r hp => exact h.increment hc hp
  | fillLen r i k hp | fillMsg r i k hp | fillPubsubIdx r i k hp => exact h.of_fill hp _ _
  | push r i k hp =>
    refine h.of_eq rfl ?_
    simp [State.outstanding, State.handed, hp, Producer.inHand, Token.number?]
  | lose r i k hp => exact absurd rfl hok
  | requestFlush hp =>
    refine h.of_eq rfl ?_
    simp [State.outstanding, State.handed, Token.number?]
  | takePtr i k rest hw hpipe =>
    refine h.of_eq rfl ?_
    simp [State.outstanding, State.handed, hw, hpipe, Writer.serving, Token.number?]
  | takeNull rest hw hpipe =>
    refine h.of_eq rfl ?_
    simp [State.outstanding, State.handed, hpipe, Token.number?, filterMap_cons]
  | readSequence i k hw | execute i k seq success hw | stage i k seq hw =>
    refine h.of_eq rfl ?_
    simp [State.outstanding, State.handed, hw, Writer.serving]
  | decrement i k seq success hw => exact h.decrement hc hw

/-- In every run in which the pipe accepts every pointer, `writes_pending` is the number of requests
that are in the pipe, being executed or being handed over; while the main loop is not in
`queue_file_write` it is the number of those in the pipe or being executed. -/
theorem writesPending_eq_of_reaches {s : State}
    (h : (machine.restrict PipeAccepts).Reaches s) :
    s.writesPending = (s.pipe.filterMap Token.number?).length + s.writer.serving.length +
        s.producer.inHand ∧
      (s.producer = .idle →
        s.writesPending = (s.pipe.filterMap Token.number?).length + s.writer.serving.length) := by
  have hboth : Counts s ∧ Accounted s := by
    have hinit : Accounted init := rfl
    refine h.invariant_restrict (fun s => Counts s ∧ Accounted s) ⟨counts_init, hinit⟩ ?_
    intro s a s' hs hok hstep
    have htrans := step_of_eq_some hstep
    exact ⟨counts_step hs.1 htrans, accounted_step hs.1 hs.2 hok htrans⟩
  have hpending : s.writesPending = (s.pipe.filterMap Token.number?).length +
      s.writer.serving.length + s.producer.inHand := by
    rw [hboth.2]
    simp only [State.outstanding, State.handed, length_append, length_replicate]
    omega
  refine ⟨hpending, ?_⟩
  intro hidle
  rw [hpending, hidle]
  rfl

theorem writesPending_eq_of_reaches_twoQueued :
    ∃ s, (machine.restrict PipeAccepts).run (queueFileWrite (smallRequest 0) ++
        queueFileWrite (smallRequest 1) ++ [.take]) = some s ∧ s.writesPending = 2 ∧
      s.writesPending = (s.pipe.filterMap Token.number?).length + s.writer.serving.length +
        s.producer.inHand ∧
      (s.producer = .idle →
        s.writesPending = (s.pipe.filterMap Token.number?).length + s.writer.serving.length) := by
  have hrun : ∃ s, (machine.restrict PipeAccepts).run (queueFileWrite (smallRequest 0) ++
      queueFileWrite (smallRequest 1) ++ [.take]) = some s ∧ s.writesPending = 2 :=
    ⟨_, rfl, rfl⟩
  obtain ⟨s, hs, hpending⟩ := hrun
  exact ⟨s, hs, hpending, writesPending_eq_of_reaches (Machine.reaches_of_run hs)⟩

/-- The pipe is full when the pointer is written: nothing is in it or executed any more, and the
request is still counted. -/
theorem writesPending_of_lost :
    ∃ s, machine.Reaches s ∧ s.producer = .idle ∧ s.writer = .idle ∧ s.pipe = [] ∧
      s.writesPending = 1 := by
  refine ⟨_, @Machine.reaches_of_run _ _ _
    ((queueFileWrite (smallRequest 0)).dropLast ++ [.push false]) _ rfl, rfl, rfl, rfl, rfl⟩

/-! ### Pointers -/

/-- The slot and number that the write thread has and has not counted down. -/
def Writer.pointers : Writer → List (Nat × Nat)
  | .popped i k | .hasSequence i k _ | .executed i k _ _ => [(i, k)]
  | _ => []

/-- The slot and number that a token points to. -/
def Token.pointer? : Token → Option (Nat × Nat)
  | .null => none
  | .ptr i k => some (i, k)

/-- The slot that the main loop fills. -/
def Producer.slots : Producer → List Nat
  | .filling _ i _ _ => [i]
  | _ => []

/-- The pointers that the write thread or the pipe has, in order. -/
def State.pointers (s : State) : List (Nat × Nat) :=
  s.writer.pointers ++ s.pipe.filterMap Token.pointer?

lemma map_snd_pointers (s : State) : s.pointers.map Prod.snd = s.handed := by
  have hwriter : s.writer.pointers.map Prod.snd = s.writer.serving := by
    cases s.writer <;> rfl
  rw [State.pointers, State.handed, map_append, hwriter, map_filterMap]
  congr 2
  funext t
  cases t <;> rfl

/-- A pointer is to the slot of its number. -/
lemma Counts.fst_eq_of_mem_pointers (h : Counts s) {p : Nat × Nat} (hp : p ∈ s.pointers) :
    p.1 = p.2 % wqMaxPending := by
  rcases mem_append.mp hp with hp | hp
  · refine h.writerSlot p.1 p.2 ?_
    cases hw : s.writer <;> simp_all [Writer.pointers, Writer.current]
  · obtain ⟨t, ht, hpt⟩ := mem_filterMap.mp hp
    cases t <;> cases hpt
    exact h.pipeSlot _ _ ht

/-- The slots in use are those of requests that are counted. -/
lemma Counts.sublist_outstanding (h : Counts s) :
    (s.pointers.map Prod.fst ++ s.producer.slots).Sublist
      (s.outstanding.map (· % wqMaxPending)) := by
  have hfst : s.pointers.map Prod.fst = s.handed.map (· % wqMaxPending) := by
    rw [← map_snd_pointers, map_map]
    exact map_congr_left fun p hp => h.fst_eq_of_mem_pointers hp
  rw [hfst, State.outstanding, map_append]
  refine List.Sublist.append_left ?_ _
  cases hp : s.producer with
  | filling r i k f =>
    obtain ⟨rfl, hk⟩ := h.producerSlot r i k f hp
    simp [Producer.slots, Producer.inHand, ← hk]
  | idle | waiting r | ready r | acquiring r => exact nil_sublist _

end PiksiBuildroot.SbpFileio.WriteQueue
