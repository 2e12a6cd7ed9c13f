import PiksiBuildroot.Lib.Machine
import Mathlib.Algebra.Group.Nat.Defs
import Mathlib.Data.List.GetD
import Mathlib.Logic.Function.Basic

/-!
# The write queue of the fileio daemon

The main loop hands write requests to the write thread through a ring of `WQ_MAX_PENDING` slots and
a pipe with pointers to them. A slot is chosen by a free-running counter, the main loop waits while
`writes_pending` is at its bound, and the write thread decrements that count when it has executed a
request, before it stages the reply. Here are the atomic steps of the two threads
(`step_of_eq_some`). Requests are numbered in the order of their calls, and a pointer carries the
number of its request; the numbers are not in the source, and nothing is decided by them.
-/

namespace PiksiBuildroot.SbpFileio.WriteQueue

open Lib

/-- Source: `WQ_MAX_PENDING`. -/
def wqMaxPending : Nat := 256

/-- The number of values of `size_t`. -/
def wordSize : Nat := 2 ^ 32

/-- A write request as `write_cb` accepts it: longer than the header of the message and the shortest
name with its terminator, and at most a payload long. -/
structure Request where
  msg : List UInt8
  pubsubIdx : Nat
  len_gt : 10 < msg.length
  len_le : msg.length ≤ 255
  deriving DecidableEq

/-- The sequence number of a message: its first four bytes. Source: `msg_fileio_write_req_t`. -/
def sequence (msg : List UInt8) : List UInt8 := msg.take 4

/-- A slot of the ring. Source: `write_request_t`. -/
structure Slot where
  len : Nat
  pubsubIdx : Nat
  msgBuffer : List UInt8
  deriving DecidableEq

/-- How far the main loop has filled a slot. -/
inductive Filled where
  | nothing
  | len
  | msg
  | all
  deriving DecidableEq, Repr

/-- Where the main loop is in `queue_file_write`. -/
inductive Producer where
  | idle
  | waiting (r : Request)
  | ready (r : Request)
  | acquiring (r : Request)
  | filling (r : Request) (slot number : Nat) (filled : Filled)
  deriving DecidableEq

/-- Where the write thread is with a request. -/
inductive Writer where
  | idle
  | popped (slot number : Nat)
  | hasSequence (slot number : Nat) (seq : List UInt8)
  | executed (slot number : Nat) (seq : List UInt8) (success : Bool)
  | decremented (slot number : Nat) (seq : List UInt8)
  deriving DecidableEq

/-- What is in the pipe: a `NULL` token or the pointer to a slot. -/
inductive Token where
  | null
  | ptr (slot number : Nat)
  deriving DecidableEq

/-- An executed write: what `sbp_fileio_write` was given. -/
structure Executed where
  number : Nat
  len : Nat
  msg : List UInt8
  deriving DecidableEq

/-- A staged reply: what `stage_output_sbp` was given. -/
structure Staged where
  number : Nat
  seq : List UInt8
  pubsubIdx : Nat
  deriving DecidableEq

/-- The shared data, the two threads, and what they have done: the requests of all calls so far, the
executed writes and the staged replies. Source: `write_thread_ctx`. -/
structure State where
  slots : Nat → Slot
  writeReqIndex : Nat
  writesPending : Nat
  pipe : List Token
  producer : Producer
  writer : Writer
  queued : List Request
  executed : List Executed
  staged : List Staged

/-- The atomic steps. The outcome of writing to the pipe and of the write to the file are
parameters. -/
inductive Action where
  | call (r : Request)
  | checkPending
  | incrementPending
  | acquireIndex
  | fillLen
  | fillMsg
  | fillPubsubIdx
  | push (written : Bool)
  | requestFlush
  | take
  | readSequence
  | execute (success : Bool)
  | decrement
  | stage
  deriving DecidableEq

/-- Change one slot. -/
def State.setSlot (s : State) (i : Nat) (slot : Slot) : State :=
  { s with slots := Function.update s.slots i slot }

/-- A step of the main loop. Source: `queue_file_write`, `wq_increment_pending_writes`,
`wq_acquire_index`, `request_flush_output_sbp`. -/
def stepProducer (s : State) : Action → Option State
  | .call r =>
    if s.producer = .idle then
      some { s with producer := .waiting r, queued := s.queued ++ [r] }
    else none
  | .checkPending =>
    match s.producer with
    | .waiting r => if s.writesPending = wqMaxPending then some s
        else some { s with producer := .ready r }
    | _ => none
  | .incrementPending =>
    match s.producer with
    | .ready r => some { s with
        producer := .acquiring r, writesPending := (s.writesPending + 1) % wordSize }
    | _ => none
  | .acquireIndex =>
    match s.producer with
    | .acquiring r => some { s with
        producer := .filling r (s.writeReqIndex % wqMaxPending) (s.queued.length - 1) .nothing
        writeReqIndex := (s.writeReqIndex + 1) % wordSize }
    | _ => none
  | .fillLen =>
    match s.producer with
    | .filling r i k .nothing =>
      some { s.setSlot i { s.slots i with len := r.msg.length } with
        producer := .filling r i k .len }
    | _ => none
  | .fillMsg =>
    match s.producer with
    | .filling r i k .len =>
      let msgBuffer := r.msg ++ (s.slots i).msgBuffer.drop r.msg.length
      some { s.setSlot i { s.slots i with msgBuffer := msgBuffer } with
        producer := .filling r i k .msg }
    | _ => none
  | .fillPubsubIdx =>
    match s.producer with
    | .filling r i k .msg =>
      some { s.setSlot i { s.slots i with pubsubIdx := r.pubsubIdx } with
        producer := .filling r i k .all }
    | _ => none
  | .push written =>
    match s.producer with
    | .filling _ i k .all => some { s with
        producer := .idle, pipe := if written then s.pipe ++ [.ptr i k] else s.pipe }
    | _ => none
  | .requestFlush =>
    if s.producer = .idle then some { s with pipe := s.pipe ++ [.null] } else none
  | _ => none

/-- A step of the write thread. Source: `write_thread_handler`, `wq_decrement_and_signal`. -/
def stepWriter (s : State) : Action → Option State
  | .take =>
    match s.writer, s.pipe with
    | .idle, .ptr i k :: rest => some { s with pipe := rest, writer := .popped i k }
    | .idle, .null :: rest => some { s with pipe := rest }
    | _, _ => none
  | .readSequence =>
    match s.writer with
    | .popped i k => some { s with writer := .hasSequence i k (sequence (s.slots i).msgBuffer) }
    | _ => none
  | .execute success =>
    match s.writer with
    | .hasSequence i k seq =>
      let done : Executed := ⟨k, (s.slots i).len, (s.slots i).msgBuffer.take (s.slots i).len⟩
      some { s with writer := .executed i k seq success, executed := s.executed ++ [done] }
    | _ => none
  | .decrement =>
    match s.writer with
    | .executed i k seq success => some { s with
        writesPending := (s.writesPending + (wordSize - 1)) % wordSize
        writer := if success then .decremented i k seq else .idle }
    | _ => none
  | .stage =>
    match s.writer with
    | .decremented i k seq => some { s with
        writer := .idle, staged := s.staged ++ [⟨k, seq, (s.slots i).pubsubIdx⟩] }
    | _ => none
  | _ => none

/-- One atomic step of either thread. -/
def step (s : State) : Action → Option State
  | .take => stepWriter s .take
  | .readSequence => stepWriter s .readSequence
  | .execute success => stepWriter s (.execute success)
  | .decrement => stepWriter s .decrement
  | .stage => stepWriter s .stage
  | a => stepProducer s a

/-- The daemon after `sbp_fileio_setup`. -/
def init : State := ⟨fun _ => ⟨0, 0, List.replicate 255 0⟩, 0, 0, [], .idle, .idle, [], [], []⟩

/-- The two threads. -/
def machine : Machine State Action := ⟨init, step⟩

/-! ### The transitions one by one -/

/-- The transitions of the machine, each with what it needs and what it changes. -/
inductive Step (s : State) : Action → State → Prop
  | call (r : Request) : s.producer = .idle →
      Step s (.call r) { s with producer := .waiting r, queued := s.queued ++ [r] }
  | spin (r : Request) : s.producer = .waiting r → s.writesPending = wqMaxPending →
      Step s .checkPending s
  | pass (r : Request) : s.producer = .waiting r → s.writesPending ≠ wqMaxPending →
      Step s .checkPending { s with producer := .ready r }
  | increment (r : Request) : s.producer = .ready r →
      Step s .incrementPending { s with
        producer := .acquiring r, writesPending := (s.writesPending + 1) % wordSize }
  | acquire (r : Request) : s.producer = .acquiring r →
      Step s .acquireIndex { s with
        producer := .filling r (s.writeReqIndex % wqMaxPending) (s.queued.length - 1) .nothing
        writeReqIndex := (s.writeReqIndex + 1) % wordSize }
  | fillLen (r : Request) (i k : Nat) : s.producer = .filling r i k .nothing →
      Step s .fillLen { s.setSlot i { s.slots i with len := r.msg.length } with
        producer := .filling r i k .len }
  | fillMsg (r : Request) (i k : Nat) : s.producer = .filling r i k .len →
      Step s .fillMsg
        { s.setSlot i { s.slots i with
            msgBuffer := r.msg ++ (s.slots i).msgBuffer.drop r.msg.length } with
          producer := .filling r i k .msg }
  | fillPubsubIdx (r : Request) (i k : Nat) : s.producer = .filling r i k .msg →
      Step s .fillPubsubIdx { s.setSlot i { s.slots i with pubsubIdx := r.pubsubIdx } with
        producer := .filling r i k .all }
  | push (r : Request) (i k : Nat) : s.producer = .filling r i k .all →
      Step s (.push true) { s with producer := .idle, pipe := s.pipe ++ [.ptr i k] }
  | lose (r : Request) (i k : Nat) : s.producer = .filling r i k .all →
      Step s (.push false) { s with producer := .idle }
  | requestFlush : s.producer = .idle →
      Step s .requestFlush { s with pipe := s.pipe ++ [.null] }
  | takePtr (i k : Nat) (rest : List Token) : s.writer = .idle → s.pipe = .ptr i k :: rest →
      Step s .take { s with pipe := rest, writer := .popped i k }
  | takeNull (rest : List Token) : s.writer = .idle → s.pipe = .null :: rest →
      Step s .take { s with pipe := rest }
  | readSequence (i k : Nat) : s.writer = .popped i k →
      Step s .readSequence { s with
        writer := .hasSequence i k (sequence (s.slots i).msgBuffer) }
  | execute (i k : Nat) (seq : List UInt8) (success : Bool) : s.writer = .hasSequence i k seq →
      Step s (.execute success) { s with
        writer := .executed i k seq success
        executed := s.executed ++
          [⟨k, (s.slots i).len, (s.slots i).msgBuffer.take (s.slots i).len⟩] }
  | decrement (i k : Nat) (seq : List UInt8) (success : Bool) :
      s.writer = .executed i k seq success →
      Step s .decrement { s with
        writesPending := (s.writesPending + (wordSize - 1)) % wordSize
        writer := if success then .decremented i k seq else .idle }
  | stage (i k : Nat) (seq : List UInt8) : s.writer = .decremented i k seq →
      Step s .stage { s with
        writer := .idle, staged := s.staged ++ [⟨k, seq, (s.slots i).pubsubIdx⟩] }

variable {s s' : State} {a : Action}

/-- Every step is one of the transitions. -/
theorem step_of_eq_some (h : step s a = some s') : Step s a s' := by
  cases a <;> simp only [step, stepProducer, stepWriter] at h
  case call r =>
    split_ifs at h with hp
    cases h
    exact .call r hp
  case checkPending =>
    split at h
    · rename_i r hp
      split_ifs at h with hfull
      · cases h
        exact .spin r hp hfull
      · cases h
        exact .pass r hp hfull
    · cases h
  case incrementPending =>
    split at h
    · rename_i r hp
      cases h
      exact .increment r hp
    · cases h
  case acquireIndex =>
    split at h
    · rename_i r hp
      cases h
      exact .acquire r hp
    · cases h
  case fillLen =>
    split at h
    · rename_i r i k hp
      cases h
      exact .fillLen r i k hp
    · cases h
  case fillMsg =>
    split at h
    · rename_i r i k hp
      cases h
      exact .fillMsg r i k hp
    · cases h
  case fillPubsubIdx =>
    split at h
    · rename_i r i k hp
      cases h
      exact .fillPubsubIdx r i k hp
    · cases h
  case push written =>
    split at h
    · rename_i r i k hp
      cases h
      cases written with
      | true => exact .push r i k hp
      | false => exact .lose r i k hp
    · cases h
  case requestFlush =>
    split_ifs at h with hp
    cases h
    exact .requestFlush hp
  case take =>
    split at h
    · rename_i i k rest hw hp
      cases h
      exact .takePtr i k rest hw hp
    · rename_i rest hw hp
      cases h
      exact .takeNull rest hw hp
    · cases h
  case readSequence =>
    split at h
    · rename_i i k hw
      cases h
      exact .readSequence i k hw
    · cases h
  case execute success =>
    split at h
    · rename_i i k seq hw
      cases h
      exact .execute i k seq success hw
    · cases h
  case decrement =>
    split at h
    · rename_i i k seq success hw
      cases h
      exact .decrement i k seq success hw
    · cases h
  case stage =>
    split at h
    · rename_i i k seq hw
      cases h
      exact .stage i k seq hw
    · cases h

/-- A queued request keeps its number. -/
lemma Step.queued (h : Step s a s') (k : Nat) (r : Request) (hr : s.queued[k]? = some r) :
    s'.queued[k]? = some r := by
  cases h with
  | call r' hp =>
    rw [List.getElem?_append_left (List.getElem?_eq_some_iff.mp hr).1]
    exact hr
  | _ => exact hr

end PiksiBuildroot.SbpFileio.WriteQueue
