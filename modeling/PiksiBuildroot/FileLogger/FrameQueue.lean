import Mathlib.Algebra.GroupWithZero.Nat
import PiksiBuildroot.FileLogger.RotatingLogger

/-!
# The queue of the logger

`frame_handler` looks at the number of queued bytes without the lock, and then queues the frame with
it; the thread of the logger takes frames off with the lock. `stop_thread` queues a null pointer,
which is not counted, and waits for the thread, which ends when it takes that off.

The test without the lock is sound because the only other thread can only make the number smaller
(`Books.fits`). No vector can be made of a frame of 2 GiB or more, whose size may overflow in the
test: there the program ends. What holds in every interleaving is `queueOk_of_reaches`.
-/

namespace PiksiBuildroot.FileLogger.FrameQueue

open Lib List Option

/-- The width of `size_t`. -/
def sizeBits : Nat := 32

/-- Source: `MAX_QUEUE_SIZE`. -/
def maxQueueSize : Nat := 1 * 1024 * 1024

/-- Where the thread that calls `frame_handler` and `stop_thread` is. The latter is called by the
destructor, so that no frame comes after it. An exception of `frame_handler` is not caught. -/
inductive Producer where
  | idle
  | checked (frame : Bytes)
  | thrown (frame : Bytes)
  | marked
  | joining
  | stopped
deriving DecidableEq

/-- Where the thread of the logger is: about to take a frame, waiting for one, or at its end. -/
inductive Consumer where
  | running
  | waiting
  | finished
deriving DecidableEq

/-- The queue with its null pointer and the number of bytes; the frames that passed the test and
those that were delivered so far. -/
structure State where
  queue : List (Option Bytes)
  queueBytes : Nat
  producer : Producer
  consumer : Consumer
  accepted : List Bytes
  delivered : List Bytes
deriving DecidableEq

/-- The steps of the two threads. -/
inductive Action where
  | check (frame : Bytes)
  | push
  | mark
  | notify
  | join
  | getFrame
  | wake

/-- `notify_one`. -/
def Consumer.notified : Consumer → Consumer
  | .waiting => .running
  | c => c

/-- The test of `frame_handler`: `_queue_bytes + size > MAX_QUEUE_SIZE`. -/
def queueFull (s : State) (size : Nat) : Bool := maxQueueSize < (s.queueBytes + size) % 2 ^ sizeBits

/-- The locked part of `frame_handler`. A vector that is too large throws before anything is
queued. -/
def pushFrame (s : State) (frame : Bytes) : State :=
  if 2 ^ (sizeBits - 1) ≤ frame.length then { s with producer := .thrown frame }
  else
    { s with
      queue := s.queue ++ [some frame]
      queueBytes := (s.queueBytes + frame.length) % 2 ^ sizeBits
      producer := .idle
      consumer := s.consumer.notified }

/-- Source: `get_frame`. `process_frame` ends at a null pointer, and calls it again otherwise. -/
def getFrame (s : State) : State := match s.queue with
  | [] => { s with consumer := .waiting }
  | some frame :: queue =>
    { s with
      queue := queue
      queueBytes := (s.queueBytes + 2 ^ sizeBits - frame.length) % 2 ^ sizeBits
      delivered := s.delivered ++ [frame] }
  | none :: queue => { s with queue := queue, consumer := .finished }

/-- Source: `frame_handler`, `stop_thread`, `get_frame`. -/
def step (s : State) : Action → Option State
  | .check frame =>
    if s.producer = .idle ∧ frame.length < 2 ^ sizeBits then
      if queueFull s frame.length then some s
      else some { s with producer := .checked frame, accepted := s.accepted ++ [frame] }
    else none
  | .push =>
    match s.producer with
    | .checked frame => some (pushFrame s frame)
    | _ => none
  | .mark =>
    if s.producer = .idle then
      some { s with queue := s.queue ++ [none], producer := .marked }
    else none
  | .notify =>
    if s.producer = .marked then
      some { s with producer := .joining, consumer := s.consumer.notified }
    else none
  | .join =>
    if s.producer = .joining ∧ s.consumer = .finished then some { s with producer := .stopped }
    else none
  | .getFrame => if s.consumer = .running then some (getFrame s) else none
  -- the wait may also end without a notification
  | .wake => if s.consumer = .waiting then some { s with consumer := .running } else none

/-- The logger with its two threads. -/
def machine : Machine State Action where
  init := ⟨[], 0, .idle, .running, [], []⟩
  step := step

/-- The bytes of an entry of the queue. -/
def frameSize : Option Bytes → Nat
  | none => 0
  | some frame => frame.length

/-- `stop_thread` was called. -/
def Producer.stopping : Producer → Bool
  | .marked | .joining | .stopped => true
  | _ => false

/-- The frame that passed the test and is not queued. -/
def Producer.inHand : Producer → List Bytes
  | .checked frame | .thrown frame => [frame]
  | _ => []

/-- What holds in every state. -/
structure QueueOk (s : State) : Prop where
  bytes : s.queueBytes = (s.queue.map frameSize).sum
  bound : s.queueBytes ≤ maxQueueSize
  inOrder : s.delivered ++ s.queue.filterMap id ++ s.producer.inHand = s.accepted
  thrown : ∀ frame, s.producer = .thrown frame → 2 ^ (sizeBits - 1) ≤ frame.length
  drained : s.producer = .stopped → s.delivered = s.accepted
  notified : s.queue ≠ [] → s.consumer = .waiting → s.producer = .marked
  returns : s.producer.stopping → ∃ actions s',
    (machine.startAt s).run actions = some s' ∧ s'.producer = .stopped

/-! ### The books -/

/-- The null pointer is in the queue from the call of `stop_thread` until the end of the thread. -/
def marker (p : Producer) (c : Consumer) : List (Option Bytes) :=
  if p.stopping ∧ c ≠ .finished then [none] else []

/-- A state whose queue holds some frames. -/
structure Books (s : State) (frames : List Bytes) : Prop where
  queue : s.queue = frames.map some ++ marker s.producer s.consumer
  bytes : s.queueBytes = (frames.map List.length).sum
  bound : s.queueBytes ≤ maxQueueSize
  inOrder : s.delivered ++ frames ++ s.producer.inHand = s.accepted
  thrown : ∀ frame, s.producer = .thrown frame → 2 ^ (sizeBits - 1) ≤ frame.length
  fits : ∀ frame, s.producer = .checked frame → frame.length < 2 ^ (sizeBits - 1) →
    s.queueBytes + frame.length ≤ maxQueueSize
  waiting : s.consumer = .waiting → s.queue = [] ∨ s.producer = .marked
  finished : s.consumer = .finished → frames = [] ∧ s.producer.stopping
  stopped : s.producer = .stopped → s.consumer = .finished

lemma books_init : Books machine.init [] where
  queue := rfl
  bytes := rfl
  bound := Nat.zero_le _
  inOrder := rfl
  thrown _ h := absurd h (by simp [machine])
  fits _ h := absurd h (by simp [machine])
  waiting h := absurd h (by simp [machine])
  finished h := absurd h (by simp [machine])
  stopped h := absurd h (by simp [machine])

lemma Consumer.notified_ne_waiting (c : Consumer) : c.notified ≠ .waiting := by
  cases c <;> simp [Consumer.notified]

variable {c : Consumer}

lemma Consumer.notified_eq_finished : c.notified = .finished ↔ c = .finished := by
  cases c <;> simp [Consumer.notified]

lemma marker_of_not_stopping {p : Producer} (h : p.stopping = false) (c : Consumer) :
    marker p c = [] :=
  if_neg fun hc => Bool.false_ne_true (h.symm.trans hc.1)

lemma marker_of_finished (p : Producer) (h : c = .finished) : marker p c = [] :=
  if_neg fun hc => hc.2 h

lemma marker_of_stopping {p : Producer} (h : p.stopping) (hc : c ≠ .finished) :
    marker p c = [none] :=
  if_pos ⟨h, hc⟩

namespace Books

variable {s : State} {frames : List Bytes}

/-- The sum does not overflow for a frame that a vector can be made of. -/
lemma le_of_not_full (h : Books s frames) {size : Nat} (hsize : size < 2 ^ (sizeBits - 1))
    (hfull : queueFull s size = false) : s.queueBytes + size ≤ maxQueueSize := by
  have hbound := h.bound
  unfold queueFull at hfull
  rw [decide_eq_false_iff_not] at hfull
  unfold maxQueueSize sizeBits at *
  omega

lemma consumer_ne_finished (h : Books s frames) (hstop : s.producer.stopping = false) :
    s.consumer ≠ .finished :=
  fun hc => Bool.false_ne_true (hstop.symm.trans (h.finished hc).2)

lemma queue_of_not_stopping (h : Books s frames) (hstop : s.producer.stopping = false) :
    s.queue = frames.map some := by
  rw [h.queue, marker_of_not_stopping hstop, append_nil]

lemma delivered_append (h : Books s frames) (hhand : s.producer.inHand = []) :
    s.delivered ++ frames = s.accepted := by
  have horder := h.inOrder
  rwa [hhand, append_nil] at horder

/-! ### Steps of the producer -/

variable {frame : Bytes}

/-- A frame for which there is room is accepted. -/
lemma check (h : Books s frames) (hidle : s.producer = .idle)
    (hfull : queueFull s frame.length = false) :
    Books { s with producer := .checked frame, accepted := s.accepted ++ [frame] } frames where
  queue := by
    rw [marker_of_not_stopping rfl, append_nil]
    exact h.queue_of_not_stopping (hidle ▸ rfl)
  bytes := h.bytes
  bound := h.bound
  inOrder := congrArg (· ++ [frame]) (h.delivered_append (hidle ▸ rfl))
  thrown _ hp := absurd hp (by simp)
  fits frame' hframe hlt := by
    obtain rfl := Producer.checked.inj hframe
    exact h.le_of_not_full hlt hfull
  waiting hc := .inl ((h.waiting hc).resolve_right fun hp => by simp [hidle] at hp)
  finished hc := absurd hc (h.consumer_ne_finished (hidle ▸ rfl))
  stopped hp := absurd hp (by simp)

/-- The frame that passed the test still fits, whatever was taken off since. -/
lemma push (h : Books s frames) (hchecked : s.producer = .checked frame) :
    ∃ frames', Books (pushFrame s frame) frames' := by
  have hstop : s.producer.stopping = false := hchecked ▸ rfl
  have hrunning := h.consumer_ne_finished hstop
  have horder : s.delivered ++ frames ++ [frame] = s.accepted := by
    rw [← h.inOrder, hchecked, Producer.inHand]
  unfold pushFrame
  split_ifs with hlarge
  · refine ⟨frames, ?_, h.bytes, h.bound, horder, fun frame' hp => ?_,
      fun _ hp => absurd hp (by simp), fun hc => ?_, fun hc => absurd hc hrunning,
      fun hp => absurd hp (by simp)⟩
    · rw [marker_of_not_stopping rfl, append_nil]
      exact h.queue_of_not_stopping hstop
    · obtain rfl := Producer.thrown.inj hp
      exact hlarge
    · exact .inl ((h.waiting hc).resolve_right fun hp => by simp [hchecked] at hp)
  · have hfits := h.fits frame hchecked (Nat.lt_of_not_le hlarge)
    have hmod : (s.queueBytes + frame.length) % 2 ^ sizeBits = s.queueBytes + frame.length :=
      Nat.mod_eq_of_lt (Nat.lt_of_le_of_lt hfits (by decide))
    rw [hmod]
    refine ⟨frames ++ [frame], ?_, ?_, hfits, ?_, fun _ hp => absurd hp (by simp),
      fun _ hp => absurd hp (by simp), fun hc => absurd hc (Consumer.notified_ne_waiting _),
      fun hc => absurd (Consumer.notified_eq_finished.mp hc) hrunning,
      fun hp => absurd hp (by simp)⟩
    · rw [marker_of_not_stopping rfl, append_nil, map_append]
      rw [h.queue_of_not_stopping hstop]
      rfl
    · rw [map_append, sum_append, ← h.bytes]
      rfl
    · rw [← append_assoc, horder]
      exact append_nil _

lemma mark (h : Books s frames) (hidle : s.producer = .idle) :
    Books { s with queue := s.queue ++ [none], producer := .marked } frames where
  queue := by
    have hstop : s.producer.stopping = false := hidle ▸ rfl
    rw [marker_of_stopping rfl (h.consumer_ne_finished hstop), h.queue_of_not_stopping hstop]
  bytes := h.bytes
  bound := h.bound
  inOrder := (append_nil _).trans (h.delivered_append (hidle ▸ rfl))
  thrown _ hp := absurd hp (by simp)
  fits _ hp := absurd hp (by simp)
  waiting _ := .inr rfl
  finished hc := absurd hc (h.consumer_ne_finished (hidle ▸ rfl))
  stopped hp := absurd hp (by simp)

/-- After its marker the producer wakes the consumer. -/
lemma notify (h : Books s frames) (hmarked : s.producer = .marked) :
    Books { s with producer := .joining, consumer := s.consumer.notified } frames where
  queue := by
    rw [h.queue]
    by_cases hc : s.consumer = .finished
    · rw [marker_of_finished _ hc, marker_of_finished _ (Consumer.notified_eq_finished.mpr hc)]
    · rw [marker_of_stopping (hmarked ▸ rfl) hc,
        marker_of_stopping rfl (mt Consumer.notified_eq_finished.mp hc)]
  bytes := h.bytes
  bound := h.bound
  inOrder := (append_nil _).trans (h.delivered_append (hmarked ▸ rfl))
  thrown _ hp := absurd hp (by simp)
  fits _ hp := absurd hp (by simp)
  waiting hc := absurd hc (Consumer.notified_ne_waiting _)
  finished hc := ⟨(h.finished (Consumer.notified_eq_finished.mp hc)).1, rfl⟩
  stopped hp := absurd hp (by simp)

lemma join (h : Books s frames) (hjoining : s.producer = .joining)
    (hfinished : s.consumer = .finished) :
    Books { s with producer := .stopped } frames where
  queue := by
    rw [h.queue, marker_of_finished _ hfinished, marker_of_finished _ hfinished]
  bytes := h.bytes
  bound := h.bound
  inOrder := (append_nil _).trans (h.delivered_append (hjoining ▸ rfl))
  thrown _ hp := absurd hp (by simp)
  fits _ hp := absurd hp (by simp)
  waiting hc := absurd (hfinished.symm.trans hc) (by simp)
  finished hc := ⟨(h.finished hc).1, rfl⟩
  stopped _ := hfinished

/-! ### Steps of the consumer -/

/-- The consumer takes the first frame of the queue. -/
lemma getFrame_cons (h : Books s (frame :: frames)) (hrunning : s.consumer = .running) :
    Books (getFrame s) frames ∧ (getFrame s).producer = s.producer ∧
      (getFrame s).consumer = .running := by
  have hqueue : s.queue = some frame :: (frames.map some ++ marker s.producer s.consumer) := h.queue
  have hbytes : s.queueBytes = frame.length + (frames.map List.length).sum := h.bytes
  have hbound := h.bound
  have hmod : (s.queueBytes + 2 ^ sizeBits - frame.length) % 2 ^ sizeBits =
      (frames.map List.length).sum := by
    unfold maxQueueSize at hbound
    unfold sizeBits
    omega
  unfold getFrame
  rw [hqueue]
  dsimp only
  rw [hmod]
  refine ⟨⟨rfl, rfl, ?_, ?_, h.thrown, fun frame' hp hlt => ?_, fun hc => ?_, fun hc => ?_,
    fun hp => ?_⟩, rfl, hrunning⟩
  · dsimp only
    omega
  · rw [← h.inOrder]
    simp
  · have hfits := h.fits frame' hp hlt
    dsimp only
    omega
  · exact absurd (hrunning.symm.trans hc) (by simp)
  · exact absurd (hrunning.symm.trans hc) (by simp)
  · exact absurd (hrunning.symm.trans (h.stopped hp)) (by simp)

/-- At the null pointer the thread ends. -/
lemma getFrame_marker (h : Books s []) (hrunning : s.consumer = .running)
    (hstop : s.producer.stopping) :
    Books (getFrame s) [] ∧ (getFrame s).producer = s.producer ∧
      (getFrame s).consumer = .finished := by
  have hqueue : s.queue = [none] := by
    rw [h.queue, marker_of_stopping hstop (by simp [hrunning])]
    rfl
  unfold getFrame
  rw [hqueue]
  refine ⟨⟨?_, h.bytes, h.bound, h.inOrder, h.thrown, h.fits, fun hc => absurd hc (by simp),
    fun _ => ⟨rfl, hstop⟩, fun _ => rfl⟩, rfl, rfl⟩
  exact (marker_of_finished _ rfl).symm

/-- With an empty queue the thread waits. -/
lemma getFrame_empty (h : Books s []) (hstop : s.producer.stopping = false) :
    Books (getFrame s) [] := by
  have hqueue : s.queue = [] := h.queue_of_not_stopping hstop
  have hget : getFrame s = { s with consumer := .waiting } := by
    rw [getFrame, hqueue]
  rw [hget]
  refine ⟨?_, h.bytes, h.bound, h.inOrder, h.thrown, h.fits, fun _ => .inl hqueue,
    fun hc => absurd hc (by simp), fun hp => ?_⟩
  · rw [marker_of_not_stopping hstop]
    exact hqueue
  · rw [show s.producer = .stopped from hp] at hstop
    cases hstop

lemma wake (h : Books s frames) (hwaiting : s.consumer = .waiting) :
    Books { s with consumer := .running } frames where
  queue := by
    rw [h.queue]
    unfold marker
    simp [hwaiting]
  bytes := h.bytes
  bound := h.bound
  inOrder := h.inOrder
  thrown := h.thrown
  fits := h.fits
  waiting hc := absurd hc (by simp)
  finished hc := absurd hc (by simp)
  stopped hp := absurd (hwaiting.symm.trans (h.stopped hp)) (by simp)

/-! ### Runs -/

/-- Every step keeps the books. -/
lemma exists_of_step {s' : State} {a : Action} (h : Books s frames)
    (hstep : step s a = some s') : ∃ frames', Books s' frames' := by
  cases a <;> simp only [step] at hstep
  case check frame =>
    split_ifs at hstep with hidle hfull
    · exact ⟨frames, some.inj hstep ▸ h⟩
    · exact ⟨frames, some.inj hstep ▸ h.check hidle.1 (Bool.eq_false_iff.mpr hfull)⟩
  case push =>
    split at hstep
    · rename_i frame hchecked
      exact some.inj hstep ▸ h.push hchecked
    · cases hstep
  case mark =>
    split_ifs at hstep with hidle
    exact ⟨frames, some.inj hstep ▸ h.mark hidle⟩
  case notify =>
    split_ifs at hstep with hmarked
    exact ⟨frames, some.inj hstep ▸ h.notify hmarked⟩
  case join =>
    split_ifs at hstep with hjoin
    exact ⟨frames, some.inj hstep ▸ h.join hjoin.1 hjoin.2⟩
  case getFrame =>
    split_ifs at hstep with hrunning
    cases hstep
    cases frames with
    | cons frame frames => exact ⟨frames, (h.getFrame_cons hrunning).1⟩
    | nil =>
      cases hstop : s.producer.stopping with
      | true => exact ⟨[], (h.getFrame_marker hrunning hstop).1⟩
      | false => exact ⟨[], h.getFrame_empty hstop⟩
  case wake =>
    split_ifs at hstep with hwaiting
    exact ⟨frames, some.inj hstep ▸ h.wake hwaiting⟩

end Books

lemma exists_books_of_reaches {s : State} (hs : machine.Reaches s) : ∃ frames, Books s frames := by
  induction hs with
  | init => exact ⟨[], books_init⟩
  | step _ hstep ih =>
    obtain ⟨frames, h⟩ := ih
    exact h.exists_of_step hstep

/-! ### The end of `stop_thread` -/

section
variable {s : State} {frames : List Bytes}

lemma run_cons {a : Action} {s' : State} (h : step s a = some s') (actions : List Action) :
    (machine.startAt s).run (a :: actions) = (machine.startAt s').run actions := by
  change (step s a).bind _ = _
  rw [h, bind_some]
  rfl

lemma step_getFrame (h : s.consumer = .running) : step s .getFrame = some (getFrame s) := if_pos h

lemma step_notify (h : s.producer = .marked) :
    step s .notify = some { s with producer := .joining, consumer := s.consumer.notified } :=
  if_pos h

lemma step_join (h : s.producer = .joining) (hc : s.consumer = .finished) :
    step s .join = some { s with producer := .stopped } :=
  if_pos ⟨h, hc⟩

/-- While the thread is joined the consumer takes the frames off, and then the null pointer. -/
lemma Books.exists_run_of_joining (h : Books s frames) (hjoining : s.producer = .joining) :
    ∃ actions s', (machine.startAt s).run actions = some s' ∧ s'.producer = .stopped := by
  by_cases hfinished : s.consumer = .finished
  · exact ⟨[.join], _, run_cons (step_join hjoining hfinished) [], rfl⟩
  · -- the null pointer is in the queue, so the consumer does not wait
    have hstop : s.producer.stopping := hjoining ▸ rfl
    have hrunning : s.consumer = .running := by
      cases hc : s.consumer with
      | running => rfl
      | finished => exact absurd hc hfinished
      | waiting =>
        rcases h.waiting hc with hempty | hmarked
        · rw [h.queue, marker_of_stopping hstop hfinished] at hempty
          exact absurd hempty (by simp)
        · exact absurd (hjoining.symm.trans hmarked) (by simp)
    clear hfinished
    induction frames generalizing s with
    | nil =>
      obtain ⟨-, hproducer, hconsumer⟩ := h.getFrame_marker hrunning hstop
      have hlast := step_join (hproducer.trans hjoining) hconsumer
      exact ⟨[.getFrame, .join], _,
        (run_cons (step_getFrame hrunning) _).trans (run_cons hlast []), rfl⟩
    | cons frame frames ih =>
      obtain ⟨hbooks, hproducer, hconsumer⟩ := h.getFrame_cons hrunning
      obtain ⟨actions, s', hrun, hstopped⟩ :=
        ih hbooks (hproducer.trans hjoining) (hproducer ▸ hstop) hconsumer
      exact ⟨.getFrame :: actions, s', (run_cons (step_getFrame hrunning) _).trans hrun, hstopped⟩

/-- `stop_thread` returns. -/
lemma Books.exists_run_of_stopping (h : Books s frames) (hstop : s.producer.stopping) :
    ∃ actions s', (machine.startAt s).run actions = some s' ∧ s'.producer = .stopped := by
  cases hp : s.producer with
  | idle | checked frame | thrown frame => exact absurd hstop (by simp [hp, Producer.stopping])
  | marked =>
    obtain ⟨actions, s', hrun, hstopped⟩ := (h.notify hp).exists_run_of_joining rfl
    exact ⟨.notify :: actions, s', (run_cons (step_notify hp) _).trans hrun, hstopped⟩
  | joining => exact h.exists_run_of_joining hp
  | stopped => exact ⟨[], s, rfl, hp⟩

end

lemma sum_frameSize (frames : List Bytes) (p : Producer) (c : Consumer) :
    ((frames.map some ++ marker p c).map frameSize).sum = (frames.map List.length).sum := by
  have hmarker : ((marker p c).map frameSize).sum = 0 := by
    unfold marker
    split_ifs <;> rfl
  rw [map_append, sum_append, hmarker, Nat.add_zero, List.map_map]
  rfl

lemma filterMap_queue (frames : List Bytes) (p : Producer) (c : Consumer) :
    (frames.map some ++ marker p c).filterMap id = frames := by
  have hmarker : (marker p c).filterMap id = [] := by
    unfold marker
    split_ifs <;> rfl
  rw [filterMap_append, hmarker, append_nil, filterMap_map]
  exact filterMap_some

/-- In every interleaving the bytes are counted and bounded, the frames delivered in order and once,
and all of them when `stop_thread` returns, which it does. -/
theorem queueOk_of_reaches {s : State} (hs : machine.Reaches s) : QueueOk s := by
  obtain ⟨frames, h⟩ := exists_books_of_reaches hs
  refine ⟨?_, h.bound, ?_, h.thrown, fun hp => ?_, fun hne hc => ?_, h.exists_run_of_stopping⟩
  · rw [h.queue, sum_frameSize, h.bytes]
  · rw [h.queue, filterMap_queue, h.inOrder]
  · have horder := h.delivered_append (hp ▸ rfl)
    rwa [(h.finished (h.stopped hp)).1, append_nil] at horder
  · exact (h.waiting hc).resolve_left hne

/-- Two frames of which the second is queued while the first is taken off, and the end. -/
def twoFrames : List Action :=
  [.check [1, 2], .push, .check [3], .getFrame, .push, .mark, .getFrame, .notify, .getFrame, .join]

theorem queueOk_of_reaches_twoFrames :
    ∃ s, machine.Reaches s ∧ s.producer = .stopped ∧ s.delivered = [[1, 2], [3]] ∧ QueueOk s := by
  have hrun : machine.run twoFrames = some ⟨[], 0, .stopped, .finished, [[1, 2], [3]],
      [[1, 2], [3]]⟩ := by
    decide
  exact ⟨_, Machine.reaches_of_run hrun, rfl, rfl, queueOk_of_reaches (Machine.reaches_of_run hrun)⟩

end PiksiBuildroot.FileLogger.FrameQueue
