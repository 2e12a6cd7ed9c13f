import PiksiBuildroot.EndpointAdapter.Options

/-!
# The CAN loop of the endpoint adapter

`can_loop` installs a receive filter on the socket, and a thread cuts what it reads from a pipe into
frames. Both take the identifier from the static variable `can_filter`, which is the filter that
`main` passes; the identifier of the other option is parsed and not passed
(`canLoop_keepsIds_iff`).
-/

namespace PiksiBuildroot.EndpointAdapter

open Lib CText

/-- Source: `CAN_SFF_MASK`. -/
def canSffMask : UInt32 := 0x7FF

/-- `CAN_INV_FILTER` of the kernel: a filter with this bit in its identifier is inverted. -/
def canInvFilter : UInt32 := 0x20000000

/-- `struct can_filter` of the kernel. -/
structure SocketFilter where
  canId : UInt32
  canMask : UInt32
  deriving DecidableEq, Repr

/-- Whether a filter of a raw CAN socket accepts a frame with the identifier. -/
def SocketFilter.Accepts (f : SocketFilter) (canId : UInt32) : Prop :=
  if f.canId &&& canInvFilter = 0 then canId &&& f.canMask = f.canId &&& f.canMask
  else canId &&& f.canMask ≠ f.canId &&& f.canMask

/-- `struct can_frame`. -/
structure CanFrame where
  canId : UInt32
  canDlc : Nat
  data : List UInt8
  deriving DecidableEq, Repr

/-- How `write` on the socket returns. -/
inductive WriteResult
  | written
  | interrupted
  | full
  | failed
  deriving DecidableEq, Repr

/-- What the loop sets up: the interface, the static variable `can_filter` and the filter of the
socket. -/
structure CanLoop where
  name : List Char
  canFilter : UInt32
  rfilter : SocketFilter
  deriving DecidableEq, Repr

/-- The loop when the calls that open the socket succeed. Source: `can_loop`. -/
def canLoop (name : List Char) (canFilterIn : UInt32) : CanLoop where
  name := name
  canFilter := canFilterIn
  rfilter := { canId := canFilterIn, canMask := canSffMask }

/-- The frame of the first bytes of a buffer. Source: `can_write` before its loop. -/
def canFrame (canFilter : UInt32) (buffer : List UInt8) : CanFrame where
  canId := canFilter &&& canSffMask
  canDlc := min 8 buffer.length
  data := buffer.take 8 ++ List.replicate (8 - buffer.length) 0

/-- The frames that are given to `write` for a buffer, when it returns as told. A frame is written
again after an interrupt, and the rest of the buffer is dropped when the queue is full. Source:
`can_write_all`, with the loop of `can_write`. -/
def canWriteAll (canFilter : UInt32) : List UInt8 → List WriteResult → List CanFrame
  | _, [] => []
  | buffer, result :: results =>
    if buffer = [] then []
    else
      let frame := canFrame canFilter buffer
      frame :: match result with
        | .interrupted => canWriteAll canFilter buffer results
        | .full | .failed => []
        | .written => canWriteAll canFilter (buffer.drop frame.canDlc) results

/-- The frames for what the thread reads from its pipe. Source: `can_write_thread_handler`. -/
def CanLoop.frames (loop : CanLoop) (reads : List (List UInt8 × List WriteResult)) :
    List CanFrame :=
  reads.flatMap fun read => canWriteAll loop.canFilter read.1 read.2

lemma canWriteAll_canId {canFilter : UInt32} {buffer : List UInt8} {results : List WriteResult}
    {frame : CanFrame} (h : frame ∈ canWriteAll canFilter buffer results) :
    frame.canId = canFilter &&& canSffMask := by
  induction results generalizing buffer with
  | nil => simp [canWriteAll] at h
  | cons result results ih =>
    unfold canWriteAll at h
    split at h
    · simp at h
    · rcases List.mem_cons.mp h with rfl | h
      · rfl
      · cases result with
        | interrupted | written => exact ih h
        | full | failed => simp at h

/-- Frames carry the identifier, and exactly those with the low bits of the filter are accepted. -/
def CanLoop.KeepsIds (loop : CanLoop) (id filter : UInt32) : Prop :=
  (∀ reads, ∀ frame ∈ loop.frames reads, frame.canId = id &&& canSffMask) ∧
    ∀ canId, loop.rfilter.Accepts canId ↔ canId &&& canSffMask = filter &&& canSffMask

/-- The frames of a loop have the low bits of its filter, and there are frames. -/
lemma frames_canId_iff (name : List Char) (f id : UInt32) :
    (∀ reads, ∀ frame ∈ (canLoop name f).frames reads, frame.canId = id &&& canSffMask) ↔
      f &&& canSffMask = id &&& canSffMask := by
  constructor
  · intro h
    exact h [([0], [.written])] (canFrame f [0]) (by simp [CanLoop.frames, canWriteAll, canLoop])
  · intro h reads frame hframe
    obtain ⟨read, -, hread⟩ := List.mem_flatMap.mp hframe
    rw [canWriteAll_canId hread]
    exact h

/-- The filter accepts the frames with given low bits if they are its own and it is not inverted. -/
lemma accepts_iff (name : List Char) (f filter : UInt32) :
    (∀ canId, (canLoop name f).rfilter.Accepts canId ↔
        canId &&& canSffMask = filter &&& canSffMask) ↔
      f &&& canInvFilter = 0 ∧ f &&& canSffMask = filter &&& canSffMask := by
  have haccepts : ∀ canId, (canLoop name f).rfilter.Accepts canId ↔
      if f &&& canInvFilter = 0 then canId &&& canSffMask = f &&& canSffMask
      else canId &&& canSffMask ≠ f &&& canSffMask := fun canId => Iff.rfl
  simp only [haccepts]
  by_cases hinv : f &&& canInvFilter = 0
  · simp only [hinv, if_true, true_and]
    exact ⟨fun h => (h f).mp rfl, fun h canId => by rw [h]⟩
  · simp only [hinv, if_false, false_and, iff_false]
    intro h
    -- the low bits of 0, 1 and 2 would be those of `f` or the given ones
    have hzero : 0 ≠ f &&& canSffMask ↔ 0 = filter &&& canSffMask := h 0
    have hone : 1 ≠ f &&& canSffMask ↔ 1 = filter &&& canSffMask := h 1
    have htwo : 2 ≠ f &&& canSffMask ↔ 2 = filter &&& canSffMask := h 2
    by_cases hf : 0 = f &&& canSffMask
    · rw [← hf] at hone htwo
      exact absurd ((hone.mp (by decide)).trans (htwo.mp (by decide)).symm) (by decide)
    · rw [← hzero.mp hf] at hone htwo
      have hone := not_not.mp fun hne => absurd (hone.mp hne) (by decide)
      have htwo := not_not.mp fun hne => absurd (htwo.mp hne) (by decide)
      exact absurd (hone.trans htwo.symm) (by decide)

theorem canLoop_keepsIds_iff (name : List Char) (f id filter : UInt32) :
    (canLoop name f).KeepsIds id filter ↔
      f &&& canInvFilter = 0 ∧ f &&& canSffMask = filter &&& canSffMask ∧
        f &&& canSffMask = id &&& canSffMask := by
  unfold CanLoop.KeepsIds
  rw [frames_canId_iff, accepts_iff]
  tauto

/-- Source: `main`, the case `IO_CAN`; other modes do not use the CAN loop. -/
def runCan (longBits : Nat) (args : List (List Char)) : Option CanLoop := do
  let o ← parseOptions longBits args
  match o.ioMode, o.portName with
  | .can, some name => some (canLoop name (UInt32.ofInt o.canFilter))
  | _, _ => none

end PiksiBuildroot.EndpointAdapter
