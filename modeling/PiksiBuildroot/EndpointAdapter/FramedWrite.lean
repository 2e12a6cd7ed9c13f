import Mathlib.Algebra.Group.Nat.Defs
import PiksiBuildroot.Rtcm3.Chunks

/-!
# Writing through the framer

`handle_write_all_via_framer` gives the framer what is left of a buffer, passes each frame that
comes back through the filter and writes it to the handle, until the buffer is used up. The filter
and the handle are arbitrary.

A call of the framer that has no frame takes all that is left, and one that has a frame leaves less
to scan (`Rtcm3.framerProcess_spec`). So the loops end if a write is never without progress
(`framing_ends`).
-/

namespace PiksiBuildroot.EndpointAdapter

open Lib Rtcm3 List Option

/-- A buffer of the program; no object has more than `PTRDIFF_MAX` bytes. -/
structure Buffer where
  bytes : List UInt8
  length_lt : bytes.length < 2 ^ 31

/-- The framer, the filter and what is written to. Source: `handle_t`. -/
structure Handle (F H : Type) where
  framer : FramerState
  filter : F
  out : H

section pipeline

variable {F H : Type}
-- the verdict on a frame, 0 to pass it; and the result of a write, negative for an error
variable (filterProcess : F → List UInt8 → F × Int) (handleWrite : H → List UInt8 → H × Int)

/-- Source: the loop of `handle_write_all`. -/
def handleWriteAllRound (buffer : List UInt8) : H × Nat → Option ((H × Nat) ⊕ (H × Int))
  | (out, bufferIndex) =>
    if bufferIndex < buffer.length then
      let (out, writeCount) := handleWrite out (buffer.drop bufferIndex)
      if writeCount < 0 then some (.inr (out, writeCount))
      else some (.inl (out, (bufferIndex + writeCount.toNat) % 2 ^ 32))
    else some (.inr (out, bufferIndex))

/-- Source: `handle_write_all`. -/
def handleWriteAll (fuel : Nat) (out : H) (buffer : List UInt8) : Option (H × Int) :=
  loop (handleWriteAllRound handleWrite buffer) fuel (out, 0)

/-- What `handle_write_one_via_framer` and `handle_write_all_via_framer` leave: the handle, the
result, the bytes of the buffer that were used, and the number of frames written. -/
structure Written (F H : Type) where
  handle : Handle F H
  result : Int
  bufferIndex : Nat
  frames : Nat

/-- Source: the loop of `handle_write_one_via_framer`. -/
def writeOneRound (fuel : Nat) (buffer : List UInt8) (frames : Nat) :
    Handle F H × Nat → Option ((Handle F H × Nat) ⊕ Written F H)
  | (handle, bufferIndex) => do
    let res ← framerProcess handle.framer (buffer.drop bufferIndex)
    let bufferIndex : Nat := (bufferIndex + res.dataOffset) % 2 ^ 32
    let handle := { handle with framer := res.state }
    match res.frame with
    | none => some (.inr ⟨handle, bufferIndex, bufferIndex, frames⟩)
    | some frame =>
      let (filter, verdict) := filterProcess handle.filter frame
      let handle := { handle with filter := filter }
      if verdict ≠ 0 then some (.inl (handle, bufferIndex))
      else do
        let (out, writeCount) ← handleWriteAll handleWrite fuel handle.out frame
        let handle := { handle with out := out }
        if writeCount < 0 then some (.inr ⟨handle, writeCount, bufferIndex, frames⟩)
        else some (.inr ⟨handle, bufferIndex, bufferIndex, frames + 1⟩)

/-- Source: `handle_write_one_via_framer`. -/
def handleWriteOneViaFramer (fuel : Nat) (handle : Handle F H) (buffer : List UInt8)
    (frames : Nat) : Option (Written F H) :=
  loop (writeOneRound filterProcess handleWrite fuel buffer frames) fuel (handle, 0)

/-- Source: the loop of `handle_write_all_via_framer`. -/
def writeAllRound (fuel : Nat) (buffer : List UInt8) :
    Handle F H × Nat × Nat → Option ((Handle F H × Nat × Nat) ⊕ Written F H)
  | (handle, bufferIndex, frameCount) => do
    let one ← handleWriteOneViaFramer filterProcess handleWrite fuel handle
      (buffer.drop bufferIndex) frameCount
    if one.result < 0 then some (.inr ⟨one.handle, one.result, bufferIndex, one.frames⟩)
    else
      let bufferIndex : Nat := (bufferIndex + one.result.toNat) % 2 ^ 32
      if buffer.length ≤ bufferIndex then
        some (.inr ⟨one.handle, buffer.length, bufferIndex, one.frames⟩)
      else some (.inl (one.handle, bufferIndex, one.frames))

/-- Source: `handle_write_all_via_framer`; there is no result if the fuel of a loop runs out. -/
def handleWriteAllViaFramer (fuel : Nat) (handle : Handle F H) (buffer : Buffer) :
    Option (Written F H) :=
  loop (writeAllRound filterProcess handleWrite fuel buffer.bytes) fuel (handle, 0, 0)

/-- Every write of some bytes writes at least one of them. -/
def MakesProgress : Prop := ∀ out bytes, bytes ≠ [] →
    1 ≤ (handleWrite out bytes).2 ∧ (handleWrite out bytes).2 ≤ bytes.length

/-- Some bytes are written whole: each write is given what the writes before it have left. -/
inductive WritesAll : H → List UInt8 → H → Prop
  | nil (out : H) : WritesAll out [] out
  | write {out out' : H} {bytes : List UInt8} : bytes ≠ [] →
      WritesAll (handleWrite out bytes).1 (bytes.drop (handleWrite out bytes).2.toNat) out' →
      WritesAll out bytes out'

/-- What some frames do to the filter and to what is written to, and how many are written. -/
inductive Delivers (filter : F) (out : H) : List (List UInt8) → F → H → Nat → Prop
  | nil : Delivers filter out [] filter out 0
  | reject {frames : List (List UInt8)} {f : F} {o : H} {n : Nat} {frame : List UInt8} :
      Delivers filter out frames f o n → (filterProcess f frame).2 ≠ 0 →
      Delivers filter out (frames ++ [frame]) (filterProcess f frame).1 o n
  | pass {frames : List (List UInt8)} {f : F} {o o' : H} {n : Nat} {frame : List UInt8} :
      Delivers filter out frames f o n → (filterProcess f frame).2 = 0 →
      WritesAll handleWrite o frame o' →
      Delivers filter out (frames ++ [frame]) (filterProcess f frame).1 o' (n + 1)

/-- From `start` with `bytes` to scan to `handle` with `rest`: the frames in between were given to
the filter and written. -/
def Advances (start : Handle F H) (bytes : List UInt8) (handle : Handle F H) (rest : List UInt8)
    (written : Nat) : Prop :=
  ∃ frames, ScansTo (start.framer.unread ++ bytes) (handle.framer.unread ++ rest) frames ∧
    Delivers filterProcess handleWrite start.filter start.out frames handle.filter handle.out
      written

/-- All the bytes are used: the framer has scanned over them, with the frames on the way
delivered. -/
structure Framed (start : Handle F H) (bytes : List UInt8) (w : Written F H) : Prop where
  result : w.result = bytes.length
  index : w.bufferIndex = bytes.length
  advances : Advances filterProcess handleWrite start bytes w.handle [] w.frames

variable {filterProcess : F → List UInt8 → F × Int} {handleWrite : H → List UInt8 → H × Int}

section advances
variable {first handle : Handle F H} {bytes rest : List UInt8} {n : Nat} {res : FramerResult}

lemma advances_refl (start : Handle F H) (bytes : List UInt8) :
    Advances filterProcess handleWrite start bytes start bytes 0 :=
  ⟨[], fun _ => rfl, .nil⟩

/-- A call of the framer without a frame. -/
lemma Advances.wait (h : Advances filterProcess handleWrite first bytes handle rest n)
    (hproc : Processed handle.framer rest res) (hframe : res.frame = none) :
    Advances filterProcess handleWrite first bytes { handle with framer := res.state }
      (rest.drop res.dataOffset) n := by
  obtain ⟨frames, hscans, hdelivers⟩ := h
  have hnext := hscans.trans hproc.scans
  rw [hframe, toList_none, append_nil] at hnext
  exact ⟨frames, hnext, hdelivers⟩

variable {frame : List UInt8}

/-- A frame that the filter rejects. -/
lemma Advances.reject (h : Advances filterProcess handleWrite first bytes handle rest n)
    (hproc : Processed handle.framer rest res) (hframe : res.frame = some frame)
    (hverdict : (filterProcess handle.filter frame).2 ≠ 0) :
    Advances filterProcess handleWrite first bytes
      ⟨res.state, (filterProcess handle.filter frame).1, handle.out⟩
      (rest.drop res.dataOffset) n := by
  obtain ⟨frames, hscans, hdelivers⟩ := h
  have hnext := hscans.trans hproc.scans
  rw [hframe] at hnext
  exact ⟨frames ++ [frame], hnext, hdelivers.reject hverdict⟩

/-- A frame that is written. -/
lemma Advances.pass (h : Advances filterProcess handleWrite first bytes handle rest n)
    (hproc : Processed handle.framer rest res) (hframe : res.frame = some frame)
    (hverdict : (filterProcess handle.filter frame).2 = 0) {out : H}
    (hout : WritesAll handleWrite handle.out frame out) :
    Advances filterProcess handleWrite first bytes
      ⟨res.state, (filterProcess handle.filter frame).1, out⟩
      (rest.drop res.dataOffset) (n + 1) := by
  obtain ⟨frames, hscans, hdelivers⟩ := h
  have hnext := hscans.trans hproc.scans
  rw [hframe] at hnext
  exact ⟨frames ++ [frame], hnext, hdelivers.pass hverdict hout⟩

end advances

/-- A frame is written whole, in as many writes as it takes. -/
lemma exists_handleWriteAll (hprogress : MakesProgress handleWrite) (out : H)
    {buffer : List UInt8} (hlength : buffer.length < 2 ^ 31) :
    ∃ out', WritesAll handleWrite out buffer out' ∧ ∀ fuel, buffer.length < fuel →
      handleWriteAll handleWrite fuel out buffer = some (out', (buffer.length : Int)) := by
  -- what writes the rest has written the whole
  have hround : ∀ p : H × Nat, p.2 ≤ buffer.length ∧ (∀ out',
      WritesAll handleWrite p.1 (buffer.drop p.2) out' → WritesAll handleWrite out buffer out') →
      ∃ o, handleWriteAllRound handleWrite buffer p = some o ∧
        RoundOk (fun p => p.2 ≤ buffer.length ∧ ∀ out',
            WritesAll handleWrite p.1 (buffer.drop p.2) out' →
              WritesAll handleWrite out buffer out')
          (fun p => buffer.length - p.2)
          (fun b => WritesAll handleWrite out buffer b.1 ∧ b.2 = (buffer.length : Int)) p o := by
    rintro ⟨out, bufferIndex⟩ ⟨hle, hrest⟩
    dsimp only at hle hrest
    unfold handleWriteAllRound
    dsimp only
    by_cases hlt : bufferIndex < buffer.length
    · have hne : buffer.drop bufferIndex ≠ [] := by
        apply ne_nil_of_length_pos
        rw [length_drop]
        omega
      obtain ⟨hpos, hmax⟩ := hprogress out _ hne
      rw [length_drop] at hmax
      rw [if_pos hlt, if_neg (by omega)]
      rw [Nat.mod_eq_of_lt (by omega)]
      refine ⟨_, rfl, ⟨?_, fun out' hout' => hrest out' (.write hne ?_)⟩, ?_⟩
      · omega
      · rw [drop_drop]
        exact hout'
      · dsimp only
        omega
    · rw [if_neg hlt]
      refine ⟨_, rfl, hrest out ?_, ?_⟩
      · rw [drop_eq_nil_of_le (Nat.le_of_not_lt hlt)]
        exact .nil out
      · show (bufferIndex : Int) = buffer.length
        omega
  obtain ⟨⟨out', n⟩, ⟨hwrites, hn⟩, hloop⟩ := @exists_loop _ _ _ _ _ _ hround (out, 0)
    ⟨Nat.zero_le _, fun _ => id⟩
  refine ⟨out', hwrites, fun fuel hfuel => ?_⟩
  rw [handleWriteAll, hloop fuel (by omega)]
  exact congrArg (fun n => some (out', n)) hn

/-- What is still to be scanned. -/
def Handle.pending (handle : Handle F H) (rest : Nat) : Nat := handle.framer.unread.length + rest

section calls
variable (filterProcess handleWrite) (first : Handle F H) (bytes : List UInt8)

/-- What one call of `handle_write_one_via_framer` has done: it has used some of the buffer, all of
it or with less left to scan. The handle was `first` before `bytes`. -/
structure WroteOne (start : Handle F H) (buffer : List UInt8) (w : Written F H) : Prop where
  wf : w.handle.framer.WellFormed
  result : w.result = w.bufferIndex
  index_le : w.bufferIndex ≤ buffer.length
  used : w.bufferIndex = buffer.length ∨
    w.handle.pending (buffer.length - w.bufferIndex) < start.pending buffer.length
  advances : Advances filterProcess handleWrite first bytes w.handle (buffer.drop w.bufferIndex)
    w.frames

/-- The head of a loop over the buffer: no more is left to scan than at the start. -/
structure InWrite (start : Handle F H) (buffer : List UInt8) (handle : Handle F H)
    (bufferIndex frames : Nat) : Prop where
  wf : handle.framer.WellFormed
  index_le : bufferIndex ≤ buffer.length
  pending_le : handle.pending (buffer.length - bufferIndex) ≤ start.pending buffer.length
  advances : Advances filterProcess handleWrite first bytes handle (buffer.drop bufferIndex) frames

end calls

variable {first : Handle F H} {bytes : List UInt8}

/-- One round of `handle_write_one_via_framer`. -/
lemma roundOk_writeOneRound (hprogress : MakesProgress handleWrite) {handle : Handle F H}
    {buffer : List UInt8} (hlength : buffer.length < 2 ^ 31) (frames : Nat) {fuel : Nat}
    (hframe : rtcm3FrameSizeMax < fuel) (p : Handle F H × Nat)
    (h : InWrite filterProcess handleWrite first bytes handle buffer p.1 p.2 frames) :
    ∃ o, writeOneRound filterProcess handleWrite fuel buffer frames p = some o ∧
      RoundOk (fun p => InWrite filterProcess handleWrite first bytes handle buffer p.1 p.2 frames)
        (fun p => p.1.pending (buffer.length - p.2))
        (WroteOne filterProcess handleWrite first bytes handle buffer) p o := by
  obtain ⟨⟨framer, filter, out⟩, bufferIndex⟩ := p
  obtain ⟨hwf, hle, hpending, hadvances⟩ := h
  obtain ⟨res, hres, hproc⟩ := framerProcess_spec hwf (buffer.drop bufferIndex)
  have hoffset := hproc.offset_le
  have hdecrease := hproc.length_lt
  rw [length_drop] at hoffset hdecrease
  have hindex : (bufferIndex + res.dataOffset) % 2 ^ 32 = bufferIndex + res.dataOffset := by
    omega
  unfold Handle.pending at hpending
  simp only [writeOneRound, hres, hindex, bind_eq_bind, bind_some]
  cases hcase : res.frame with
  | none =>
    have hall := (hproc.waits hcase).1
    rw [length_drop] at hall
    refine ⟨_, rfl, hproc.wf, rfl, ?_, Or.inl ?_, ?_⟩
    · dsimp only
      omega
    · dsimp only
      omega
    · rw [← drop_drop]
      exact hadvances.wait hproc hcase
  | some frame =>
    have hless := hdecrease (by simp [hcase])
    dsimp only at hless hpending ⊢
    by_cases hverdict : (filterProcess filter frame).2 ≠ 0
    · rw [if_pos hverdict]
      refine ⟨_, rfl, ⟨hproc.wf, ?_, ?_, ?_⟩, ?_⟩
      · omega
      · unfold Handle.pending
        dsimp only
        omega
      · rw [← drop_drop]
        exact hadvances.reject hproc hcase hverdict
      · unfold Handle.pending
        dsimp only
        omega
    · have hframeLength := length_of_framerProcess hres hcase
      have hmax : rtcm3FrameSizeMax = 1029 := rfl
      obtain ⟨out', hwrites, hwrite⟩ := exists_handleWriteAll hprogress out
        (show frame.length < 2 ^ 31 by omega)
      rw [if_neg hverdict, hwrite fuel (by omega), bind_some]
      refine ⟨_, rfl, hproc.wf, rfl, ?_, Or.inr ?_, ?_⟩
      · dsimp only
        omega
      · unfold Handle.pending
        dsimp only
        omega
      · rw [← drop_drop]
        exact hadvances.pass hproc hcase (not_not.mp hverdict) hwrites

/-- A call of `handle_write_one_via_framer` ends. -/
lemma exists_handleWriteOneViaFramer (hprogress : MakesProgress handleWrite)
    {handle : Handle F H} (hwf : handle.framer.WellFormed) {buffer : List UInt8}
    (hlength : buffer.length < 2 ^ 31) {frames fuel : Nat}
    (hadvances : Advances filterProcess handleWrite first bytes handle buffer frames)
    (hframe : rtcm3FrameSizeMax < fuel) (hfuel : handle.pending buffer.length < fuel) :
    ∃ w, handleWriteOneViaFramer filterProcess handleWrite fuel handle buffer frames = some w ∧
      WroteOne filterProcess handleWrite first bytes handle buffer w := by
  have hstart : InWrite filterProcess handleWrite first bytes handle buffer handle 0 frames :=
    ⟨hwf, Nat.zero_le _, Nat.le_refl _, hadvances⟩
  obtain ⟨w, hw, hloop⟩ := @exists_loop _ _ _ _ _ _
    (roundOk_writeOneRound hprogress hlength frames hframe) (handle, 0) hstart
  exact ⟨w, hloop fuel hfuel, hw⟩

/-- One round of `handle_write_all_via_framer`. -/
lemma roundOk_writeAllRound (hprogress : MakesProgress handleWrite) {handle : Handle F H}
    {buffer : List UInt8} (hlength : buffer.length < 2 ^ 31) {fuel : Nat}
    (hframe : rtcm3FrameSizeMax < fuel) (hfuel : handle.pending buffer.length < fuel)
    (p : Handle F H × Nat × Nat)
    (h : InWrite filterProcess handleWrite handle buffer handle buffer p.1 p.2.1 p.2.2) :
    ∃ o, writeAllRound filterProcess handleWrite fuel buffer p = some o ∧ RoundOk
        (fun p => InWrite filterProcess handleWrite handle buffer handle buffer p.1 p.2.1 p.2.2)
        (fun p => p.1.pending (buffer.length - p.2.1))
        (Framed filterProcess handleWrite handle buffer) p o := by
  obtain ⟨current, bufferIndex, frameCount⟩ := p
  obtain ⟨hwf, hle, hpending, hadvances⟩ := h
  dsimp only at hwf hle hpending hadvances
  have hrest : (buffer.drop bufferIndex).length = buffer.length - bufferIndex := length_drop
  obtain ⟨one, hone, hwrote⟩ := exists_handleWriteOneViaFramer hprogress hwf (by omega) hadvances
    hframe (by rw [hrest]; omega)
  have hnext := hwrote.advances
  have hindex := hwrote.index_le
  have hused := hwrote.used
  have hresult : one.result.toNat = one.bufferIndex := by rw [hwrote.result, Int.toNat_natCast]
  rw [hrest] at hindex hused
  rw [drop_drop] at hnext
  have hmod : (bufferIndex + one.bufferIndex) % 2 ^ 32 = bufferIndex + one.bufferIndex := by
    omega
  simp only [writeAllRound, hone, hresult, hmod, bind_eq_bind, bind_some]
  rw [if_neg (by rw [hwrote.result]; omega)]
  by_cases hend : buffer.length ≤ bufferIndex + one.bufferIndex
  · rw [if_pos hend]
    rw [drop_eq_nil_of_le hend] at hnext
    refine ⟨_, rfl, rfl, ?_, hnext⟩
    dsimp only
    omega
  · rw [if_neg hend]
    have hless := hused.resolve_left (by omega)
    have hsub : buffer.length - bufferIndex - one.bufferIndex =
        buffer.length - (bufferIndex + one.bufferIndex) := by
      omega
    rw [hsub] at hless
    refine ⟨_, rfl, ⟨hwrote.wf, ?_, ?_, hnext⟩, hless⟩
    · dsimp only
      omega
    · dsimp only
      omega

/-- A buffer is used up, in as many frames as it takes. -/
lemma exists_handleWriteAllViaFramer (hprogress : MakesProgress handleWrite)
    {handle : Handle F H} (hwf : handle.framer.WellFormed) (buffer : Buffer) {fuel : Nat}
    (hframe : rtcm3FrameSizeMax < fuel) (hfuel : handle.pending buffer.bytes.length < fuel) :
    ∃ w, handleWriteAllViaFramer filterProcess handleWrite fuel handle buffer = some w ∧
      Framed filterProcess handleWrite handle buffer.bytes w := by
  have hstart : InWrite filterProcess handleWrite handle buffer.bytes handle buffer.bytes handle
      0 0 := ⟨hwf, Nat.zero_le _, Nat.le_refl _, advances_refl handle buffer.bytes⟩
  obtain ⟨w, hw, hloop⟩ := @exists_loop _ _ _ _ _ _
    (roundOk_writeAllRound hprogress buffer.length_lt hframe hfuel) (handle, 0, 0) hstart
  exact ⟨w, hloop fuel hfuel, hw⟩

/-- From every state of the framer that calls lead to, the loop of a call ends for all data, and
with any filter and a handle whose writes make progress a buffer is used up, with the frames in it
delivered. -/
theorem framing_ends (hprogress : MakesProgress handleWrite) {s : FramerState}
    (hs : framerCalls.Reaches s) :
    (∀ data, ∃ res enough, ∀ fuel, enough < fuel → loop (processRound data) fuel (s, 0) =
      some res) ∧
      ∀ (filter : F) (out : H) (buffer : Buffer), ∃ enough, ∀ fuel, enough < fuel →
        ∃ w, handleWriteAllViaFramer filterProcess handleWrite fuel ⟨s, filter, out⟩ buffer =
          some w ∧
          Framed filterProcess handleWrite ⟨s, filter, out⟩ buffer.bytes w := by
  have hwf := wellFormed_of_reaches hs
  constructor
  · intro data
    obtain ⟨res, -, hloop⟩ := exists_loop roundOk_processRound
      (⟨hwf, Nat.zero_le _, fun _ => rfl, Nat.le_refl _⟩ : InCall s data (s, 0))
    exact ⟨res, _, hloop⟩
  · intro filter out buffer
    refine ⟨max rtcm3FrameSizeMax (s.unread.length + buffer.bytes.length), fun fuel hfuel => ?_⟩
    exact exists_handleWriteAllViaFramer hprogress hwf buffer (by omega)
      (by unfold Handle.pending; dsimp only; omega)

end pipeline

/-- A filter that rejects every other frame. -/
def everyOther (pass : Bool) (_ : List UInt8) : Bool × Int := (!pass, if pass then 0 else 1)

/-- A handle that writes one byte at a time and keeps what was written. -/
def byteByByte (out bytes : List UInt8) : List UInt8 × Int := (out ++ bytes.take 1, 1)

/-- A frame without a message. -/
def emptyFrame : List UInt8 := [0xD3, 0, 0, 0x47, 0xEA, 0x4B]

/-- The rest of a frame behind its first byte, and another one. -/
def twoFrames : Buffer := ⟨emptyFrame.tail ++ emptyFrame, by decide⟩

/-- A framer that waits for the rest of a frame, with the filter and the handle above: of two frames
the first is written. -/
theorem framing_ends_afterPreamble : ∃ s, framerCalls.Reaches s ∧ s.buffer = [0xD3] ∧
      (handleWriteAllViaFramer everyOther byteByByte 20 ⟨s, true, []⟩ twoFrames).map
        (fun w => (w.result, w.frames, w.handle.out)) = some (11, 1, emptyFrame) ∧
      ∀ (buffer : Buffer), ∃ enough, ∀ fuel, enough < fuel →
        ∃ w, handleWriteAllViaFramer everyOther byteByByte fuel ⟨s, true, []⟩ buffer = some w ∧
          Framed everyOther byteByByte ⟨s, true, []⟩ buffer.bytes w := by
  have hprogress : MakesProgress byteByByte := by
    intro out bytes hne
    have hpos := length_pos_iff.mpr hne
    exact ⟨Int.le_refl 1, by simp only [byteByByte]; omega⟩
  obtain ⟨s, hs, hbuffer, hrun⟩ : ∃ s, framerCalls.Reaches s ∧ s.buffer = [0xD3] ∧
      (handleWriteAllViaFramer everyOther byteByByte 20 ⟨s, true, []⟩ twoFrames).map
        (fun w => (w.result, w.frames, w.handle.out)) = some (11, 1, emptyFrame) :=
    Machine.exists_reaches_of_run [[0xD3]] (by decide +kernel)
  exact ⟨s, hs, hbuffer, hrun, (@framing_ends _ _ everyOther _ hprogress s hs).2 true []⟩

end PiksiBuildroot.EndpointAdapter
