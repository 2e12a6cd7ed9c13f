import Mathlib.Algebra.Group.Nat.Defs
import PiksiBuildroot.Lib.Block
import PiksiBuildroot.Rtcm3.Chunks

/-!
# The RTCM3 framer in memory

`FramerMemory` is the framer with its whole array and its counters of 32 bits, and every access to
the array or to the data is checked: a round of the loop has no result if an access leaves them. The
framer of lists is a view of it, and a round here is a round there (`exists_round`). Calls and the
rounds of their loop are the steps of a machine (`inBounds_of_reaches`).
-/

namespace PiksiBuildroot.Rtcm3

open Lib List Option

/-- The bytes of a call; `data_length` has 32 bits. -/
structure Input where
  bytes : List UInt8
  length_lt : bytes.length < 2 ^ 32

/-- Source: the argument `data_length` of `framer_process`. -/
def Input.dataLength (data : Input) : UInt32 := .ofNat data.bytes.length

/-- The framer with its whole array. Source: `framer_rtcm3_state_t`. -/
structure FramerMemory where
  buffer : Block UInt8 rtcm3FrameSizeMax
  bufferLength : UInt32
  refillCount : UInt32
  removeCount : UInt32
  deriving DecidableEq

/-- What a call returns. -/
structure MemoryResult where
  state : FramerMemory
  dataOffset : UInt32
  frame : Option (List UInt8)
  deriving DecidableEq

namespace FramerMemory

/-- A new framer; the array has whatever was there before. Source: `framer_create`. -/
def create (buffer : Block UInt8 rtcm3FrameSizeMax) : FramerMemory := ⟨buffer, 0, 0, 0⟩

/-- One round of the search for a preamble. Source: `framer_process`, the inner loop. -/
def searchRound (s : FramerMemory) (offset : UInt32) : Option (UInt32 ⊕ UInt32) :=
  if offset < s.bufferLength then do
    let byte ← s.buffer.toList[offset.toNat]?
    if byte = rtcm3Preamble then some (.inr offset) else some (.inl (offset + 1))
  else some (.inr offset)

/-- Source: `framer_process`, first block of the loop. -/
def removeFront (s : FramerMemory) : Option FramerMemory := if s.removeCount ≠ 0 then do
    let offset ← loop s.searchRound (s.bufferLength.toNat + 1) s.removeCount
    if offset < s.bufferLength then do
      let rest ← load s.buffer.toList offset.toNat (s.bufferLength - offset).toNat
      let buffer ← s.buffer.store 0 rest
      some { s with buffer := buffer, bufferLength := s.bufferLength - offset, removeCount := 0 }
    else some { s with bufferLength := 0, removeCount := 0 }
  else some s

/-- Source: `framer_process`, second block of the loop up to the `return`. -/
def refill (s : FramerMemory) (data : Input) (dataOffset : UInt32) :
    Option (FramerMemory × UInt32) := do
  let available := data.dataLength - dataOffset
  let count := if available < s.refillCount then available else s.refillCount
  let bytes ← load data.bytes dataOffset.toNat count.toNat
  let buffer ← s.buffer.store s.bufferLength.toNat bytes
  some
    ({ s with
        buffer := buffer
        bufferLength := s.bufferLength + count
        refillCount := s.refillCount - count },
      dataOffset + count)

/-- Source: `total_length` of `framer_process`. -/
def totalLength (high low : UInt8) : UInt32 :=
  3 + (((high &&& 0x3).toUInt32 <<< (8 : UInt32)) ||| low.toUInt32) + 3

/-- Source: `framer_process`, the loop from `Wait for header` on. -/
def decode (s : FramerMemory) (dataOffset : UInt32) :
    Option ((FramerMemory × UInt32) ⊕ MemoryResult) :=
  if s.bufferLength < 3 then
    some (.inl ({ s with refillCount := 3 - s.bufferLength }, dataOffset))
  else do
    let first ← s.buffer.toList[0]?
    if first ≠ rtcm3Preamble then some (.inl ({ s with removeCount := 1 }, dataOffset))
    else do
      let high ← s.buffer.toList[1]?
      let low ← s.buffer.toList[2]?
      let total := totalLength high low
      if s.bufferLength < total then
        some (.inl ({ s with refillCount := total - s.bufferLength }, dataOffset))
      else do
        let body ← load s.buffer.toList 0 (total - 3).toNat
        let footer ← load s.buffer.toList (total - 3).toNat 3
        if frameCrc footer 3 ≠ crc24q body body.length 0 then
          some (.inl ({ s with removeCount := 1 }, dataOffset))
        else do
          let frame ← load s.buffer.toList 0 total.toNat
          some (.inr ⟨{ s with removeCount := total }, dataOffset, some frame⟩)

/-- Source: `framer_process`, loop body. -/
def round (data : Input) : FramerMemory × UInt32 → Option ((FramerMemory × UInt32) ⊕ MemoryResult)
  | (s, dataOffset) => do
    let s ← s.removeFront
    if s.refillCount ≠ 0 then do
      let (s, dataOffset) ← s.refill data dataOffset
      if s.refillCount ≠ 0 then some (.inr ⟨s, dataOffset, none⟩)
      else s.decode dataOffset
    else s.decode dataOffset

/-! ### The framer of lists as a view -/

/-- The part of the array that is in use, and the counters. -/
def view (s : FramerMemory) : FramerState where
  buffer := s.buffer.toList.take s.bufferLength.toNat
  refillCount := s.refillCount.toNat
  removeCount := s.removeCount.toNat

/-- The part that is in use is inside the array. -/
def Fits (s : FramerMemory) : Prop := s.bufferLength.toNat ≤ rtcm3FrameSizeMax

variable {s : FramerMemory} {data : Input} {dataOffset : UInt32}

lemma length_view (h : s.Fits) : s.view.buffer.length = s.bufferLength.toNat := by
  have hlength := s.buffer.length_eq
  unfold Fits at h
  simp only [view, length_take]
  omega

/-- An index that is in use is inside the array, and in the view. -/
lemma getElem?_of_lt (h : s.Fits) {i : Nat} (hi : i < s.bufferLength.toNat) :
    s.buffer.toList[i]? = some (s.view.buffer.getD i 0) := by
  have hlength := s.buffer.length_eq
  have hview := length_view h
  unfold Fits at h
  rw [getElem?_eq_getElem (by omega), getD_eq_getElem _ _ (by omega)]
  simp [view]

/-- The search ends at the first preamble, or at the end of what is in use. -/
lemma exists_search (h : s.Fits) {start : UInt32} (hstart : start ≤ s.bufferLength) :
    ∃ offset, loop s.searchRound (s.bufferLength.toNat + 1) start = some offset ∧
      offset.toNat ≤ s.bufferLength.toNat ∧
      s.view.buffer.drop offset.toNat =
        (s.view.buffer.drop start.toNat).dropWhile fun b => b != rtcm3Preamble := by
  have hlength := length_view h
  -- the search has passed no preamble
  let inv : UInt32 → Prop := fun offset =>
    offset.toNat ≤ s.bufferLength.toNat ∧
      (s.view.buffer.drop offset.toNat).dropWhile (fun b => b != rtcm3Preamble) =
        (s.view.buffer.drop start.toNat).dropWhile fun b => b != rtcm3Preamble
  have hround : ∀ offset, inv offset → ∃ o, s.searchRound offset = some o ∧
      RoundOk inv (fun offset => s.bufferLength.toNat - offset.toNat)
        (fun offset => offset.toNat ≤ s.bufferLength.toNat ∧ s.view.buffer.drop offset.toNat =
            (s.view.buffer.drop start.toNat).dropWhile fun b => b != rtcm3Preamble) offset o := by
    rintro offset ⟨hle, hpassed⟩
    unfold searchRound
    by_cases hlt : offset < s.bufferLength
    · have hlt' : offset.toNat < s.bufferLength.toNat := UInt32.lt_iff_toNat_lt.mp hlt
      have hsplit : s.view.buffer.drop offset.toNat =
          s.view.buffer.getD offset.toNat 0 :: s.view.buffer.drop (offset.toNat + 1) := by
        rw [drop_eq_getElem_cons (by omega), getD_eq_getElem _ _ (by omega)]
      rw [if_pos hlt, getElem?_of_lt h hlt']
      simp only [bind_eq_bind, bind_some]
      generalize s.view.buffer.getD offset.toNat 0 = byte at hsplit ⊢
      by_cases hbyte : byte = rtcm3Preamble
      · rw [if_pos hbyte]
        refine ⟨.inr offset, rfl, hle, ?_⟩
        rw [← hpassed, hsplit, dropWhile_cons_of_neg (by simp [hbyte])]
      · have hnext : (offset + 1).toNat = offset.toNat + 1 := by
          have hmax := h
          unfold Fits rtcm3FrameSizeMax at hmax
          change (offset.toNat + 1) % 2 ^ 32 = _
          omega
        rw [if_neg hbyte]
        refine ⟨.inl (offset + 1), rfl, ⟨by omega, ?_⟩, ?_⟩
        · rw [← hpassed, hnext, hsplit, dropWhile_cons_of_pos (by simpa using hbyte)]
        · dsimp only
          omega
    · have hge : s.bufferLength.toNat ≤ offset.toNat :=
        Nat.not_lt.mp fun h => hlt (UInt32.lt_iff_toNat_lt.mpr h)
      rw [if_neg hlt]
      refine ⟨.inr offset, rfl, hle, ?_⟩
      have hnil : s.view.buffer.drop offset.toNat = [] := drop_of_length_le (by omega)
      rw [← hpassed, hnil]
      rfl
  obtain ⟨offset, hoffset, hloop⟩ :=
    exists_loop hround (⟨UInt32.le_iff_toNat_le.mp hstart, rfl⟩ : inv start)
  exact ⟨offset, hloop _ (by omega), hoffset⟩

/-- Removing from the front stays inside the array. -/
lemma exists_removeFront (h : s.Fits) (hwf : s.view.WellFormed) :
    ∃ s', s.removeFront = some s' ∧ s'.Fits ∧ s'.view = Rtcm3.removeFront s.view := by
  have hlength := length_view h
  have hremove : s.removeCount.toNat ≤ s.bufferLength.toNat := hlength ▸ hwf.remove_le
  have hzero : s.view.removeCount ≠ 0 ↔ s.removeCount ≠ 0 := by
    simp [view, ← UInt32.toNat_inj]
  unfold removeFront Rtcm3.removeFront
  by_cases hne : s.removeCount ≠ 0
  · rw [if_pos hne, if_pos (hzero.mpr hne)]
    obtain ⟨offset, hsearch, hle, hdrop⟩ := exists_search h (UInt32.le_iff_toNat_le.mpr hremove)
    simp only [hsearch, bind_eq_bind, bind_some]
    by_cases hlt : offset < s.bufferLength
    · have hcount : (s.bufferLength - offset).toNat = s.bufferLength.toNat - offset.toNat :=
        UInt32.toNat_sub_of_le _ _ (UInt32.le_iff_toNat_le.mpr hle)
      have hsize := s.buffer.length_eq
      have hfits : s.bufferLength.toNat ≤ rtcm3FrameSizeMax := h
      have hrest : (s.buffer.toList.drop offset.toNat).take (s.bufferLength.toNat - offset.toNat) =
          s.view.buffer.drop offset.toNat := by
        rw [view, drop_take]
      have hrestLength : (s.view.buffer.drop offset.toNat).length =
          s.bufferLength.toNat - offset.toNat := by
        rw [length_drop, hlength]
      obtain ⟨buffer, hstore, hbuffer⟩ :=
        @Block.exists_store _ _ s.buffer 0 (s.view.buffer.drop offset.toNat) (by omega)
      have htake := Block.take_of_store hstore
      rw [if_pos hlt, hcount, load_of_le (by omega), bind_some, hrest, hstore, bind_some]
      refine ⟨_, rfl, ?_, ?_⟩
      · unfold Fits
        dsimp only
        omega
      · simp only [view]
        rw [hcount, ← hrestLength]
        rw [Nat.zero_add, take_zero, nil_append] at htake
        rw [htake, hdrop]
        rfl
    · rw [if_neg hlt]
      refine ⟨_, rfl, Nat.zero_le _, ?_⟩
      have hge : s.bufferLength.toNat ≤ offset.toNat :=
        Nat.not_lt.mp fun h => hlt (UInt32.lt_iff_toNat_lt.mpr h)
      have hnil : s.view.buffer.drop offset.toNat = [] := drop_of_length_le (by omega)
      rw [hnil] at hdrop
      change FramerState.mk [] _ _ = _
      rw [hdrop]
      rfl
  · rw [if_neg hne, if_neg (fun hview => hne (hzero.mp hview))]
    exact ⟨s, rfl, h, rfl⟩

/-- What a refill copies is what is asked for, or all that is left of the data. -/
lemma toNat_copyCount (refillCount : UInt32) (hoffset : dataOffset.toNat ≤ data.bytes.length) :
    (if data.dataLength - dataOffset < refillCount then data.dataLength - dataOffset
      else refillCount).toNat = min refillCount.toNat (data.bytes.length - dataOffset.toNat) := by
  have hlen32 : data.dataLength.toNat = data.bytes.length :=
    UInt32.toNat_ofNat_of_lt' data.length_lt
  have havailable :
      (data.dataLength - dataOffset).toNat = data.bytes.length - dataOffset.toNat := by
    rw [UInt32.toNat_sub_of_le _ _ (UInt32.le_iff_toNat_le.mpr (by omega)), hlen32]
  split_ifs with hlt
  · rw [UInt32.lt_iff_toNat_lt] at hlt
    omega
  · rw [UInt32.lt_iff_toNat_lt] at hlt
    omega

/-- Refilling stays inside the array and inside the data. -/
lemma exists_refill (h : s.Fits) (hwf : s.view.WellFormed)
    (hoffset : dataOffset.toNat ≤ data.bytes.length) :
    ∃ s' dataOffset', s.refill data dataOffset = some (s', dataOffset') ∧ s'.Fits ∧
      s'.view = (Rtcm3.refill s.view (data.bytes.drop dataOffset.toNat)).1 ∧
      dataOffset'.toNat = dataOffset.toNat +
        (Rtcm3.refill s.view (data.bytes.drop dataOffset.toNat)).2 := by
  have hlength := length_view h
  have hsize : s.bufferLength.toNat + s.refillCount.toNat ≤ rtcm3FrameSizeMax :=
    hlength ▸ hwf.size_le
  have hmax : rtcm3FrameSizeMax = 1029 := rfl
  have hdata := data.length_lt
  obtain ⟨count, hcount⟩ : ∃ count, (if data.dataLength - dataOffset < s.refillCount then
      data.dataLength - dataOffset else s.refillCount) = count := ⟨_, rfl⟩
  have hcountNat : count.toNat = min s.refillCount.toNat (data.bytes.length - dataOffset.toNat) :=
    hcount ▸ toNat_copyCount s.refillCount hoffset
  have hbytes : ((data.bytes.drop dataOffset.toNat).take count.toNat).length = count.toNat := by
    rw [length_take, length_drop]
    omega
  obtain ⟨buffer, hstore, -⟩ := @Block.exists_store _ _ s.buffer s.bufferLength.toNat
    ((data.bytes.drop dataOffset.toNat).take count.toNat) (by omega)
  have htake := Block.take_of_store hstore
  have hlengthNat : (s.bufferLength + count).toNat = s.bufferLength.toNat + count.toNat := by
    rw [UInt32.toNat_add]
    omega
  have hrefillNat : (s.refillCount - count).toNat = s.refillCount.toNat - count.toNat :=
    UInt32.toNat_sub_of_le _ _ (UInt32.le_iff_toNat_le.mpr (by omega))
  have hcountView : min s.view.refillCount (data.bytes.drop dataOffset.toNat).length =
      count.toNat := by
    rw [length_drop, hcountNat]
    rfl
  refine ⟨{ s with
    buffer := buffer
    bufferLength := s.bufferLength + count
    refillCount := s.refillCount - count }, dataOffset + count, ?_, ?_, ?_, ?_⟩
  · simp only [refill, hcount, bind_eq_bind]
    rw [load_of_le (by omega), bind_some, hstore, bind_some]
  · unfold Fits
    dsimp only
    omega
  · simp only [Rtcm3.refill, hcountView]
    simp only [view, hlengthNat, hrefillNat]
    rw [← hbytes, htake]
    simp only [hbytes]
  · simp only [Rtcm3.refill, hcountView]
    rw [UInt32.toNat_add]
    omega

/-- The length of a frame, as a number. -/
lemma toNat_totalLength (buffer : List UInt8) :
    (totalLength (buffer.getD 1 0) (buffer.getD 2 0)).toNat = Rtcm3.totalLength buffer := by
  have hle := totalLength_le buffer
  have hmax : rtcm3FrameSizeMax = 1029 := rfl
  have hmessage : (((buffer.getD 1 0 &&& 0x3).toUInt32 <<< (8 : UInt32)) |||
      (buffer.getD 2 0).toUInt32).toNat = messageLength buffer := by
    have hshift : (buffer.getD 1 0 &&& 0x3).toNat <<< 8 < 2 ^ 32 := by
      have := (buffer.getD 1 0 &&& 0x3).toNat_lt
      omega
    simp only [UInt32.toNat_or, UInt32.toNat_shiftLeft, UInt8.toNat_toUInt32, messageLength]
    change (buffer.getD 1 0 &&& 0x3).toNat <<< 8 % 2 ^ 32 ||| _ = _
    rw [Nat.mod_eq_of_lt hshift]
  rw [Rtcm3.totalLength] at hle ⊢
  unfold rtcm3HeaderLength rtcm3FooterLength at *
  unfold totalLength
  simp only [UInt32.toNat_add, hmessage]
  change ((3 + messageLength buffer) % 2 ^ 32 + 3) % 2 ^ 32 = _
  omega

/-- What a round leaves, as the framer of lists has it. -/
def viewOutcome : (FramerMemory × UInt32) ⊕ MemoryResult → (FramerState × Nat) ⊕ FramerResult
  | .inl (s, dataOffset) => .inl (s.view, dataOffset.toNat)
  | .inr res => .inr ⟨res.state.view, res.dataOffset.toNat, res.frame⟩

/-- The array of what a round leaves is large enough. -/
def OutcomeFits : (FramerMemory × UInt32) ⊕ MemoryResult → Prop
  | .inl (s, _) => s.Fits
  | .inr res => res.state.Fits

/-- What is read of the part in use is read of the view. -/
lemma load_view (h : s.Fits) {offset n : Nat} (hle : offset + n ≤ s.bufferLength.toNat) :
    load s.buffer.toList offset n = some ((s.view.buffer.drop offset).take n) := by
  have hlength := s.buffer.length_eq
  unfold Fits at h
  rw [load_of_le (by omega)]
  rw [view, drop_take, take_take, Nat.min_eq_left (by omega)]

/-- The footer read on its own. -/
lemma frameCrc_footer {buffer : List UInt8} {total : Nat} (h3 : 3 ≤ total)
    (hle : total ≤ buffer.length) :
    frameCrc ((buffer.drop (total - 3)).take 3) 3 = frameCrc buffer total := by
  obtain ⟨n, rfl⟩ : ∃ n, total = n + 3 := ⟨total - 3, by omega⟩
  have hget : ∀ i < 3, ((buffer.drop n).take 3).getD i 0 = buffer.getD (n + i) 0 := by
    intro i hi
    have hlen : i < ((buffer.drop n).take 3).length := by
      rw [length_take, length_drop]
      omega
    rw [getD_eq_getElem _ _ hlen, getD_eq_getElem _ _ (by omega), getElem_take, getElem_drop]
  unfold frameCrc
  rw [Nat.add_sub_cancel, hget _ (by omega), hget _ (by omega), hget _ (by omega)]
  rfl

/-- The header and the message read on their own. -/
lemma crc24q_body (buffer : List UInt8) (n : Nat) :
    crc24q (buffer.take n) (buffer.take n).length 0 = crc24q buffer n 0 := by
  unfold crc24q
  rw [take_length]

/-- Looking at the buffer stays inside the array. -/
lemma exists_decode (h : s.Fits) (dataOffset : UInt32) :
    ∃ o, s.decode dataOffset = some o ∧ OutcomeFits o ∧
      Rtcm3.decode s.view dataOffset.toNat = viewOutcome o := by
  have hlength := length_view h
  have hlt3 : s.bufferLength < 3 ↔ s.view.buffer.length < rtcm3HeaderLength := by
    rw [UInt32.lt_iff_toNat_lt, hlength]
    rfl
  unfold decode Rtcm3.decode
  by_cases hheader : s.bufferLength < 3
  · have hcount : (3 - s.bufferLength).toNat = 3 - s.bufferLength.toNat :=
      UInt32.toNat_sub_of_le _ _ (UInt32.le_of_lt hheader)
    rw [if_pos hheader, if_pos (hlt3.mp hheader), hlength]
    refine ⟨_, rfl, h, ?_⟩
    simp only [viewOutcome, view, hcount]
    rfl
  have h3 : 3 ≤ s.bufferLength.toNat := Nat.not_lt.mp fun hlt =>
    hheader (UInt32.lt_iff_toNat_lt.mpr hlt)
  rw [if_neg hheader, if_neg (fun hlt => hheader (hlt3.mpr hlt)), getElem?_of_lt h (by omega),
    getElem?_of_lt h (by omega), getElem?_of_lt h (by omega)]
  simp only [bind_eq_bind, bind_some]
  by_cases hpre : s.view.buffer.getD 0 0 ≠ rtcm3Preamble
  · rw [if_pos hpre, if_pos hpre]
    exact ⟨_, rfl, h, rfl⟩
  rw [if_neg hpre, if_neg hpre]
  have htotal := toNat_totalLength s.view.buffer
  generalize totalLength (s.view.buffer.getD 1 0) (s.view.buffer.getD 2 0) = total at htotal ⊢
  rw [← htotal, hlength]
  have hge : 6 ≤ total.toNat := by
    rw [htotal, Rtcm3.totalLength]
    unfold rtcm3HeaderLength rtcm3FooterLength
    omega
  by_cases hfull : s.bufferLength < total
  · have hfull' : s.bufferLength.toNat < total.toNat := UInt32.lt_iff_toNat_lt.mp hfull
    have hcount : (total - s.bufferLength).toNat = total.toNat - s.bufferLength.toNat :=
      UInt32.toNat_sub_of_le _ _ (UInt32.le_of_lt hfull)
    rw [if_pos hfull, if_pos hfull']
    refine ⟨_, rfl, h, ?_⟩
    simp only [viewOutcome, view, hcount]
  have hfull' : total.toNat ≤ s.bufferLength.toNat := Nat.not_lt.mp fun hlt =>
    hfull (UInt32.lt_iff_toNat_lt.mpr hlt)
  have hfooter : (total - 3).toNat = total.toNat - 3 :=
    UInt32.toNat_sub_of_le _ _ (UInt32.le_iff_toNat_le.mpr (by change 3 ≤ _; omega))
  rw [if_neg hfull, if_neg (Nat.not_lt.mpr hfull'), hfooter, load_view h (by omega),
    load_view h (by omega), load_view h (by omega)]
  simp only [bind_some, drop_zero]
  rw [frameCrc_footer (by omega) (by omega), crc24q_body, show rtcm3FooterLength = 3 from rfl]
  by_cases hbad : frameCrc s.view.buffer total.toNat ≠ crc24q s.view.buffer (total.toNat - 3) 0
  · rw [if_pos hbad, if_pos hbad]
    exact ⟨_, rfl, h, rfl⟩
  · rw [if_neg hbad, if_neg hbad]
    exact ⟨_, rfl, h, rfl⟩

/-- A round stays inside the array and inside the data, and is a round of the framer of lists. -/
theorem exists_round (h : s.Fits) (hwf : s.view.WellFormed)
    (hoffset : dataOffset.toNat ≤ data.bytes.length) :
    ∃ o, round data (s, dataOffset) = some o ∧ OutcomeFits o ∧
      processRound data.bytes (s.view, dataOffset.toNat) = some (viewOutcome o) := by
  obtain ⟨s₁, hremove, hfits₁, hview₁⟩ := exists_removeFront h hwf
  have hwf₁ : s₁.view.WellFormed := hview₁ ▸ (wellFormed_removeFront hwf).1
  have hzero : ∀ t : FramerMemory, t.view.refillCount ≠ 0 ↔ t.refillCount ≠ 0 := by
    simp [view, ← UInt32.toNat_inj]
  simp only [round, processRound, hremove, ← hview₁, bind_eq_bind, bind_some]
  by_cases hwait : s₁.refillCount ≠ 0
  · obtain ⟨s₂, dataOffset₂, hrefill, hfits₂, hview₂, hoffset₂⟩ := exists_refill hfits₁ hwf₁ hoffset
    rw [if_pos hwait, if_pos ((hzero _).mpr hwait), hrefill, ← hview₂, ← hoffset₂]
    simp only [bind_some]
    by_cases hstill : s₂.refillCount ≠ 0
    · rw [if_pos hstill, if_pos ((hzero _).mpr hstill)]
      exact ⟨_, rfl, hfits₂, rfl⟩
    · rw [if_neg hstill, if_neg (fun hview => hstill ((hzero _).mp hview))]
      obtain ⟨o, ho, hfits, hdecode⟩ := exists_decode hfits₂ dataOffset₂
      exact ⟨o, ho, hfits, by rw [hdecode]⟩
  · rw [if_neg hwait, if_neg (fun hview => hwait ((hzero _).mp hview))]
    obtain ⟨o, ho, hfits, hdecode⟩ := exists_decode hfits₁ dataOffset
    exact ⟨o, ho, hfits, by rw [hdecode]⟩

end FramerMemory

/-! ### Calls and their rounds -/

/-- Between two calls, at the head of the loop of a call, or after an access that left an array. -/
inductive CallState where
  | returned (data : Input) (res : MemoryResult)
  | head (data : Input) (s : FramerMemory) (dataOffset : UInt32)
  | fault

inductive CallAction where
  | call (data : Input)
  | round

/-- A call begins, or the loop goes round once. -/
def callStep : CallState → CallAction → Option CallState
  | .returned _ res, .call data => some (.head data res.state 0)
  | .head data s dataOffset, .round =>
    match FramerMemory.round data (s, dataOffset) with
    | none => some .fault
    | some (.inl (s, dataOffset)) => some (.head data s dataOffset)
    | some (.inr res) => some (.returned data res)
  | _, _ => none

/-- The calls of a new framer. -/
def calls (buffer : Block UInt8 rtcm3FrameSizeMax) : Machine CallState CallAction where
  init := .returned ⟨[], by decide⟩ ⟨FramerMemory.create buffer, 0, none⟩
  step := callStep

/-- The counters are within the array and the data, and no access has left them. -/
def CallState.InBounds : CallState → Prop
  | .returned data res => res.dataOffset.toNat ≤ data.bytes.length
  | .head data s dataOffset =>
    s.removeCount ≤ s.bufferLength ∧
      s.bufferLength.toNat + s.refillCount.toNat ≤ rtcm3FrameSizeMax ∧
      dataOffset.toNat ≤ data.bytes.length
  | .fault => False

/-- The state of a call as the framer of lists has it. -/
def CallState.Sound : CallState → Prop
  | .returned data res =>
    res.state.Fits ∧ res.state.view.WellFormed ∧ res.dataOffset.toNat ≤ data.bytes.length
  | .head data s dataOffset =>
    s.Fits ∧ ∃ start, InCall start data.bytes (s.view, dataOffset.toNat)
  | .fault => False

/-- A step keeps the state as the framer of lists has it. -/
lemma sound_step (c : CallState) (a : CallAction) (c' : CallState) (h : c.Sound)
    (hstep : callStep c a = some c') : c'.Sound := by
  cases c with
  | fault => exact h.elim
  | returned data res =>
    cases a with
    | round => cases hstep
    | call data' =>
      obtain ⟨hfits, hwf, -⟩ := h
      cases hstep
      refine ⟨hfits, res.state.view, hwf, Nat.zero_le _, fun _ => rfl, ?_⟩
      exact Nat.le_refl _
  | head data s dataOffset =>
    cases a with
    | call data' => cases hstep
    | round =>
      obtain ⟨hfits, start, hcall⟩ := h
      obtain ⟨o, ho, hofits, hround⟩ := FramerMemory.exists_round hfits hcall.wf hcall.offset_le
      obtain ⟨o', ho', hok⟩ := roundOk_processRound _ hcall
      obtain rfl := some_inj.mp (ho'.symm.trans hround)
      cases o with
      | inl p =>
        simp only [callStep, ho, some.injEq] at hstep
        subst hstep
        exact ⟨hofits, start, hok.1⟩
      | inr res =>
        simp only [callStep, ho, some.injEq] at hstep
        subst hstep
        exact ⟨hofits, hok.wf, hok.offset_le⟩

/-- In every state reached by calls with any data, the counters are within the array, the offset is
within the data, and no access has left the array or the data. -/
theorem inBounds_of_reaches {buffer : Block UInt8 rtcm3FrameSizeMax} {c : CallState}
    (h : (calls buffer).Reaches c) : c.InBounds := by
  have hcreate : (FramerMemory.create buffer).view = framerCreate := by
    simp [FramerMemory.view, FramerMemory.create, framerCreate]
  have hsound : c.Sound := @Machine.Reaches.invariant _ _ (calls buffer) CallState.Sound
      ⟨Nat.zero_le _, hcreate ▸ wellFormed_framerCreate, Nat.le_refl _⟩ sound_step c h
  cases c with
  | fault => exact hsound.elim
  | returned data res => exact hsound.2.2
  | head data s dataOffset =>
    obtain ⟨hfits, start, hcall⟩ := hsound
    have hlength := FramerMemory.length_view hfits
    have hremove := hcall.wf.remove_le
    have hsize := hcall.wf.size_le
    rw [hlength] at hremove hsize
    exact ⟨UInt32.le_iff_toNat_le.mpr hremove, hsize, hcall.offset_le⟩

/-- An array of zeros. -/
def zeroBuffer : Block UInt8 rtcm3FrameSizeMax := ⟨List.replicate rtcm3FrameSizeMax 0, by simp⟩

/-- A byte that is no preamble, and a frame without a message. -/
def strayThenFrame : Input := ⟨[0x00, 0xD3, 0x00, 0x00, 0x47, 0xEA, 0x4B], by decide⟩

/-- The calls of a framer that skips a byte, returns a frame and is called without data. -/
theorem inBounds_of_reaches_strayThenFrame : ∃ c, (calls zeroBuffer).Reaches c ∧
      (match c with | .head _ s _ => s.removeCount == 6 && s.bufferLength == 6 | _ => false) =
        true ∧
      c.InBounds :=
  Machine.exists_reaches_and_of_run [.call strayThenFrame, .round, .round, .round, .round, .round,
    .call ⟨[], Nat.two_pow_pos 32⟩] (by decide +kernel) fun _ hc _ => inBounds_of_reaches hc

end PiksiBuildroot.Rtcm3
