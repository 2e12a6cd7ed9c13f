import PiksiBuildroot.Lib.Loop
import PiksiBuildroot.Lib.StreamScan
import PiksiBuildroot.Rtcm3.Crc24q
import Mathlib.Data.List.GetD

/-!
# The RTCM3 framer

`framer_process` of `framer_rtcm3_in.c`. The framer keeps a buffer of at most one frame, a number
of bytes to remove from its front and a number of bytes it waits for, and goes round a loop until
it has a frame or needs more data. `Framer.WellFormed` is what holds at the head of that loop.
-/

namespace PiksiBuildroot.Rtcm3

open Lib

/-- Source: `RTCM3_PREAMBLE`. -/
def rtcm3Preamble : UInt8 := 0xD3

/-- Source: `RTCM3_HEADER_LENGTH`. -/
def rtcm3HeaderLength : Nat := 3

/-- Source: `RTCM3_FOOTER_LENGTH`. -/
def rtcm3FooterLength : Nat := 3

/-- Source: `RTCM3_FRAME_SIZE_MAX`. -/
def rtcm3FrameSizeMax : Nat := 1029

/-- The framer. `buffer` is the part of the array that is in use, so that `buffer_length` is its
length. Source: `framer_rtcm3_state_t`. -/
structure FramerState where
  buffer : List UInt8
  refillCount : Nat
  removeCount : Nat
  deriving DecidableEq

/-- Source: `framer_create`. -/
def framerCreate : FramerState := ⟨[], 0, 0⟩

/-! ### One call -/

/-- Remove from the front of the buffer, up to the next preamble after the removed bytes.
Source: `framer_process`, first block of the loop. -/
def removeFront (s : FramerState) : FramerState := if s.removeCount ≠ 0 then
    { s with
      buffer := (s.buffer.drop s.removeCount).dropWhile fun b => b != rtcm3Preamble
      removeCount := 0 }
  else s

/-- Refill the buffer as far as `avail` goes: the state and the number of bytes taken.
Source: `framer_process`, second block of the loop. -/
def refill (s : FramerState) (avail : List UInt8) : FramerState × Nat :=
  let count := min s.refillCount avail.length
  ({ s with buffer := s.buffer ++ avail.take count, refillCount := s.refillCount - count }, count)

/-- The length of the message, from the header. Source: `message_length` of `framer_process`. -/
def messageLength (buffer : List UInt8) : Nat :=
  ((buffer.getD 1 0 &&& 0x3).toNat <<< 8) ||| (buffer.getD 2 0).toNat

/-- The length of the frame. Source: `total_length` of `framer_process`. -/
def totalLength (buffer : List UInt8) : Nat :=
  rtcm3HeaderLength + messageLength buffer + rtcm3FooterLength

/-- The CRC in the footer of a frame. Source: `frame_crc` of `framer_process`. -/
def frameCrc (buffer : List UInt8) (totalLength : Nat) : UInt32 :=
  ((buffer.getD (totalLength - 3) 0).toUInt32 <<< (16 : UInt32)) |||
    ((buffer.getD (totalLength - 2) 0).toUInt32 <<< (8 : UInt32)) |||
    (buffer.getD (totalLength - 1) 0).toUInt32

/-- What a call returns: the number of bytes it took, and the frame if there is one. -/
structure FramerResult where
  state : FramerState
  dataOffset : Nat
  frame : Option (List UInt8)
  deriving DecidableEq

/-- Look at the buffer: wait for more, give up its first byte, or return a frame.
Source: `framer_process`, the loop from `Wait for header` on. -/
def decode (s : FramerState) (dataOffset : Nat) : (FramerState × Nat) ⊕ FramerResult :=
  if s.buffer.length < rtcm3HeaderLength then
    .inl ({ s with refillCount := rtcm3HeaderLength - s.buffer.length }, dataOffset)
  else if s.buffer.getD 0 0 ≠ rtcm3Preamble then
    .inl ({ s with removeCount := 1 }, dataOffset)
  else
    let total := totalLength s.buffer
    if s.buffer.length < total then
      .inl ({ s with refillCount := total - s.buffer.length }, dataOffset)
    else
      let computedCrc := crc24q s.buffer (total - rtcm3FooterLength) 0
      if frameCrc s.buffer total ≠ computedCrc then
        .inl ({ s with removeCount := 1 }, dataOffset)
      else
        .inr ⟨{ s with removeCount := total }, dataOffset, some (s.buffer.take total)⟩

/-- One round of the loop, at `dataOffset` of the data. Source: `framer_process`, loop body. -/
def processRound (data : List UInt8) :
    FramerState × Nat → Option ((FramerState × Nat) ⊕ FramerResult)
  | (s, dataOffset) =>
    let s := removeFront s
    if s.refillCount ≠ 0 then
      let (s, count) := refill s (data.drop dataOffset)
      let dataOffset := dataOffset + count
      if s.refillCount ≠ 0 then some (.inr ⟨s, dataOffset, none⟩)
      else some (decode s dataOffset)
    else some (decode s dataOffset)

/-- A bound on the number of rounds, for the fuel of the loop. -/
def processMeasure (data : List UInt8) : FramerState × Nat → Nat
  | (s, dataOffset) =>
    4 * s.buffer.length + 6 * (data.length - dataOffset) +
      if s.removeCount = 0 ∧ s.refillCount = 0 then 1 else 0

/-- Source: `framer_process`; `none` would mean that its loop does not end. -/
def framerProcess (s : FramerState) (data : List UInt8) : Option FramerResult :=
  loop (processRound data) (processMeasure data (s, 0) + 1) (s, 0)

/-! ### What holds at the head of the loop -/

/-- The framer never removes more than it has, and it waits for bytes only with an incomplete
header or an incomplete frame at the front of its buffer, and for just as many as complete it. -/
structure FramerState.WellFormed (s : FramerState) : Prop where
  remove_le : s.removeCount ≤ s.buffer.length
  size_le : s.buffer.length + s.refillCount ≤ rtcm3FrameSizeMax
  waits : s.refillCount ≠ 0 → s.removeCount = 0 ∧
    (s.buffer.length < rtcm3HeaderLength ∧ s.buffer.length + s.refillCount = rtcm3HeaderLength ∨
      rtcm3HeaderLength ≤ s.buffer.length ∧ s.buffer.getD 0 0 = rtcm3Preamble ∧
        s.buffer.length + s.refillCount = totalLength s.buffer)

/-- The framer starts well formed. -/
lemma wellFormed_framerCreate : framerCreate.WellFormed :=
  ⟨Nat.le_refl _, by decide, fun h => absurd rfl h⟩

/-- The length of the message is the low two bits of one byte and all of the next. -/
lemma messageLength_eq (buffer : List UInt8) :
    messageLength buffer = (buffer.getD 1 0).toNat % 4 * 256 + (buffer.getD 2 0).toNat := by
  have hlow : (buffer.getD 2 0).toNat < 2 ^ 8 := (buffer.getD 2 0).toNat_lt
  have hmask : (buffer.getD 1 0 &&& 0x3).toNat = (buffer.getD 1 0).toNat % 4 :=
    Nat.and_two_pow_sub_one_eq_mod _ 2
  rw [messageLength, hmask, ← Nat.shiftLeft_add_eq_or_of_lt hlow, Nat.shiftLeft_eq]

/-- A frame is at most as long as the buffer of the framer. -/
lemma totalLength_le (buffer : List UInt8) : totalLength buffer ≤ rtcm3FrameSizeMax := by
  have hlow : (buffer.getD 2 0).toNat < 2 ^ 8 := (buffer.getD 2 0).toNat_lt
  rw [totalLength, messageLength_eq]
  unfold rtcm3HeaderLength rtcm3FooterLength rtcm3FrameSizeMax
  omega

/-- The length of the frame is in the header. -/
lemma totalLength_append {buffer : List UInt8} (h : rtcm3HeaderLength ≤ buffer.length)
    (rest : List UInt8) : totalLength (buffer ++ rest) = totalLength buffer := by
  unfold rtcm3HeaderLength at h
  have h1 : (buffer ++ rest).getD 1 0 = buffer.getD 1 0 := List.getD_append _ _ _ _ (by omega)
  have h2 : (buffer ++ rest).getD 2 0 = buffer.getD 2 0 := List.getD_append _ _ _ _ (by omega)
  rw [totalLength, messageLength, h1, h2, ← messageLength, ← totalLength]

variable {s : FramerState}

/-- Removing from the front leaves a well-formed framer with nothing to remove. -/
lemma wellFormed_removeFront (h : s.WellFormed) :
    (removeFront s).WellFormed ∧ (removeFront s).removeCount = 0 ∧
      (removeFront s).refillCount = s.refillCount ∧
      (removeFront s).buffer.length ≤ s.buffer.length - s.removeCount := by
  unfold removeFront
  by_cases hr : s.removeCount ≠ 0
  · have hfill : s.refillCount = 0 := by
      by_contra hne
      exact hr (h.waits hne).1
    have hlen : ((s.buffer.drop s.removeCount).dropWhile fun b => b != rtcm3Preamble).length ≤
        s.buffer.length - s.removeCount := by
      rw [← List.length_drop]
      exact (List.dropWhile_suffix _).length_le
    have hsize := h.size_le
    rw [if_pos hr]
    refine ⟨⟨Nat.zero_le _, ?_, fun hne => absurd hfill hne⟩, rfl, rfl, hlen⟩
    dsimp only
    omega
  · rw [if_neg hr]
    exact ⟨h, not_not.mp hr, rfl, by omega⟩

/-- Refilling keeps the framer well formed and moves bytes from the data to the buffer. -/
lemma wellFormed_refill (h : s.WellFormed) (hr : s.refillCount ≠ 0) (avail : List UInt8) :
    (refill s avail).1.WellFormed ∧ (refill s avail).1.removeCount = 0 ∧
      (refill s avail).2 ≤ avail.length ∧
      (refill s avail).1.buffer ++ avail.drop (refill s avail).2 = s.buffer ++ avail ∧
      (refill s avail).1.refillCount + (refill s avail).2 = s.refillCount ∧
      ((refill s avail).1.refillCount ≠ 0 → (refill s avail).2 = avail.length) := by
  obtain ⟨hzero, hwait⟩ := h.waits hr
  have hsize := h.size_le
  have hcount : min s.refillCount avail.length ≤ avail.length := Nat.min_le_right _ _
  have hlen : (s.buffer ++ avail.take (min s.refillCount avail.length)).length =
      s.buffer.length + min s.refillCount avail.length := by
    simp
  have hhead : ∀ l : List UInt8, rtcm3HeaderLength ≤ s.buffer.length →
      (s.buffer ++ l).getD 0 0 = s.buffer.getD 0 0 := by
    intro l hl
    unfold rtcm3HeaderLength at hl
    exact List.getD_append _ _ _ _ (by omega)
  simp only [refill]
  refine ⟨⟨?_, ?_, fun hne => ⟨hzero, ?_⟩⟩, hzero, hcount, ?_, ?_, ?_⟩
  · dsimp only
    omega
  · dsimp only
    omega
  · dsimp only at hne ⊢
    rcases hwait with ⟨hlt, heq⟩ | ⟨hge, hpre, heq⟩
    · omega
    · right
      rw [hhead _ hge, totalLength_append hge, hlen]
      exact ⟨by omega, hpre, by omega⟩
  · rw [List.append_assoc, List.take_append_drop]
  · omega
  · omega

end PiksiBuildroot.Rtcm3
