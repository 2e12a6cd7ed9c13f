import PiksiBuildroot.Lib.Machine
import PiksiBuildroot.Rtcm3.Reference

/-!
# The framer follows the reference scan

The framer is given the stream in pieces. A call always returns, keeps the framer well formed, and
moves it along the reference scan by exactly the frame it returns, whatever comes later
(`framerProcess_spec`). So the frames do not depend on the pieces (`framesOfChunks_eq_scan`).
-/

namespace PiksiBuildroot.Rtcm3

open Lib List Option

/-! ### One call of the framer -/

/-- The bytes the framer has yet to scan. -/
def FramerState.unread (s : FramerState) : List UInt8 := s.buffer.drop s.removeCount

/-- The framer has scanned on from `unread` to `unread'` and found `frames` on the way: whatever
comes later, these are the frames in between. -/
def ScansTo (unread unread' : List UInt8) (frames : List (List UInt8)) : Prop :=
  ∀ later, scan rtcm3Verdict (unread ++ later) = frames ++ scan rtcm3Verdict (unread' ++ later)

/-- Scanning on in two steps. -/
lemma ScansTo.trans {a b c : List UInt8} {fs gs : List (List UInt8)} (h₁ : ScansTo a b fs)
    (h₂ : ScansTo b c gs) : ScansTo a c (fs ++ gs) := by
  intro later
  rw [h₁ later, h₂ later, append_assoc]

/-- More data behind both. -/
lemma ScansTo.append {a b : List UInt8} {fs : List (List UInt8)} (h : ScansTo a b fs)
    (rest : List UInt8) : ScansTo (a ++ rest) (b ++ rest) fs := by
  intro later
  rw [append_assoc, append_assoc]
  exact h (rest ++ later)

/-- Removing from the front scans over bytes that start no frame. -/
lemma scansTo_removeFront (s : FramerState) : ScansTo s.unread (removeFront s).buffer [] := by
  intro later
  unfold removeFront FramerState.unread
  by_cases hr : s.removeCount ≠ 0
  · rw [if_pos hr]
    exact (scan_dropWhile_append _ later).symm
  · rw [if_neg hr, not_not.mp hr]
    rfl

/-- The outcome of `decode` on a buffer: the framer waits for more of what it has, gives up its
first byte, or returns the frame at its front. -/
def DecodeOk (s : FramerState) (dataOffset : Nat) : (FramerState × Nat) ⊕ FramerResult → Prop
  | .inl (s', dataOffset') =>
    dataOffset' = dataOffset ∧ s'.WellFormed ∧ s'.buffer = s.buffer ∧
      (s'.removeCount ≠ 0 ∨ s'.refillCount ≠ 0) ∧ ScansTo s.buffer s'.unread []
  | .inr res =>
    res.dataOffset = dataOffset ∧ res.state.WellFormed ∧
      ∃ frame, res.frame = some frame ∧ ScansTo s.buffer res.state.unread [frame] ∧
        res.state.unread.length < s.buffer.length

variable {s : FramerState}

/-- Specification of `decode`. -/
lemma decodeOk (hwf : s.WellFormed) (hremove : s.removeCount = 0) (hrefill : s.refillCount = 0)
    (dataOffset : Nat) : DecodeOk s dataOffset (decode s dataOffset) := by
  have hsize := hwf.size_le
  -- giving up the first byte after the verdict was `skip`
  have hskip : rtcm3Verdict s.buffer = .skip → s.buffer ≠ [] →
      DecodeOk s dataOffset (.inl ({ s with removeCount := 1 }, dataOffset)) := by
    intro hv hne
    have hpos : 0 < s.buffer.length := length_pos_iff.mpr hne
    refine ⟨rfl, ⟨hpos, hsize, fun h => absurd hrefill h⟩, rfl, Or.inl Nat.one_ne_zero, ?_⟩
    intro later
    show _ = scan rtcm3Verdict (s.buffer.drop 1 ++ later)
    rw [drop_one]
    exact scan_append_of_skip stable_rtcm3Verdict hv later
  unfold decode
  by_cases hheader : s.buffer.length < rtcm3HeaderLength
  · rw [if_pos hheader]
    refine ⟨rfl, ⟨by simp [hremove], ?_, fun _ => ⟨hremove, Or.inl ⟨hheader, ?_⟩⟩⟩, rfl, ?_, ?_⟩
    · simp only [rtcm3HeaderLength, rtcm3FrameSizeMax] at *
      omega
    · dsimp only
      omega
    · dsimp only
      omega
    · intro later
      simp [FramerState.unread, hremove]
  rw [if_neg hheader]
  have h3 : 3 ≤ s.buffer.length := Nat.not_lt.mp hheader
  have hne : s.buffer ≠ [] := ne_nil_of_length_pos (by omega)
  by_cases hpre : s.buffer.getD 0 0 ≠ rtcm3Preamble
  · rw [if_pos hpre]
    exact hskip (rtcm3Verdict_of_ne hne hpre) hne
  rw [if_neg hpre]
  have hhead : s.buffer.getD 0 0 = 0xD3 := not_not.mp hpre
  have htotal := totalLength_eq s.buffer
  have hverdict := rtcm3Verdict_of_header hhead h3
  rw [← htotal] at hverdict
  by_cases hfull : s.buffer.length < totalLength s.buffer
  · have hle := totalLength_le s.buffer
    rw [if_pos hfull]
    refine ⟨rfl, ⟨by simp [hremove], ?_, fun _ => ⟨hremove, Or.inr ⟨h3, hhead, ?_⟩⟩⟩, rfl, ?_, ?_⟩
    · dsimp only
      omega
    · dsimp only
      omega
    · dsimp only
      omega
    · intro later
      simp [FramerState.unread, hremove]
  rw [if_neg hfull]
  rw [if_neg hfull] at hverdict
  have hcrc := @frameCrc_eq_iff s.buffer (totalLength s.buffer) (by omega) (by omega)
  by_cases hmatch : crcMatches (s.buffer.take (totalLength s.buffer))
  · rw [if_neg (not_not.mpr (hcrc.mpr hmatch))]
    rw [if_pos hmatch] at hverdict
    refine ⟨rfl, ⟨by dsimp only; omega, hsize, fun h => absurd hrefill h⟩, _, rfl, ?_, ?_⟩
    · intro later
      exact scan_append_of_frame stable_rtcm3Verdict hverdict later
    · simp only [FramerState.unread, length_drop]
      omega
  · rw [if_pos fun h => hmatch (hcrc.mp h)]
    rw [if_neg hmatch] at hverdict
    exact hskip hverdict hne

/-- What a call of the framer does to the data: it scans on over the bytes it takes, and takes all
of them when it has no frame to return. -/
structure Processed (s : FramerState) (data : List UInt8) (res : FramerResult) : Prop where
  wf : res.state.WellFormed
  offset_le : res.dataOffset ≤ data.length
  scans : ScansTo (s.unread ++ data) (res.state.unread ++ data.drop res.dataOffset)
    res.frame.toList
  waits : res.frame = none → res.dataOffset = data.length ∧ res.state.refillCount ≠ 0
  length_le : res.state.unread.length + (data.length - res.dataOffset) ≤
    s.unread.length + data.length
  length_lt : res.frame ≠ none → res.state.unread.length + (data.length - res.dataOffset) <
    s.unread.length + data.length

/-- The invariant of the loop in a call from `s`. -/
structure InCall (s : FramerState) (data : List UInt8) (p : FramerState × Nat) : Prop where
  wf : p.1.WellFormed
  offset_le : p.2 ≤ data.length
  scans : ScansTo (s.unread ++ data) (p.1.unread ++ data.drop p.2) []
  length_le : p.1.unread.length + (data.length - p.2) ≤ s.unread.length + data.length

variable {data : List UInt8}

/-- Looking at the buffer `t.buffer` in the middle of a call, at `off` of the data. -/
lemma roundOk_decode {s t : FramerState} {off m : Nat} (hwf : t.WellFormed)
    (hremove : t.removeCount = 0) (hrefill : t.refillCount = 0) (hoff : off ≤ data.length)
    (hscans : ScansTo (s.unread ++ data) (t.buffer ++ data.drop off) [])
    (hlen : t.buffer.length + (data.length - off) ≤ s.unread.length + data.length)
    {p : FramerState × Nat} (hm : processMeasure data p = m)
    (hlt : 4 * t.buffer.length + 6 * (data.length - off) < m) :
    RoundOk (InCall s data) (processMeasure data) (Processed s data) p (decode t off) := by
  have hok := decodeOk hwf hremove hrefill off
  cases hd : decode t off with
  | inl q =>
    obtain ⟨t', off'⟩ := q
    rw [hd] at hok
    obtain ⟨rfl, hwf', hbuf, hbusy, hscans'⟩ := hok
    have hunread : t'.unread.length ≤ t.buffer.length := by
      rw [FramerState.unread, hbuf, length_drop]
      omega
    refine ⟨⟨hwf', hoff, hscans.trans (hscans'.append _), by dsimp only; omega⟩, ?_⟩
    rw [hm]
    simp only [processMeasure]
    rw [if_neg (by omega), hbuf]
    exact hlt
  | inr res =>
    rw [hd] at hok
    obtain ⟨rfl, hwf', frame, hframe, hscans', hshort⟩ := hok
    refine ⟨hwf', hoff, ?_, ?_, by omega, fun _ => by omega⟩
    · rw [hframe]
      exact hscans.trans (hscans'.append _)
    · intro hnone
      rw [hframe] at hnone
      cases hnone

/-- One round of the loop. -/
lemma roundOk_processRound (p : FramerState × Nat) (h : InCall s data p) :
    ∃ o, processRound data p = some o ∧
      RoundOk (InCall s data) (processMeasure data) (Processed s data) p o := by
  obtain ⟨t, off⟩ := p
  obtain ⟨hwf, hoff, hscans, hlen⟩ := h
  dsimp only at hwf hoff hscans hlen
  obtain ⟨hwf₁, hremove₁, hrefill₁, hlen₁⟩ := wellFormed_removeFront hwf
  have hunread : t.unread.length = t.buffer.length - t.removeCount := length_drop
  have hle := hwf.remove_le
  have hscans₁ := hscans.trans ((scansTo_removeFront t).append (data.drop off))
  simp only [processRound]
  by_cases hwait : (removeFront t).refillCount ≠ 0
  · rw [if_pos hwait]
    obtain ⟨hwf₂, hremove₂, hcount, hmove, hleft, hall⟩ :=
      wellFormed_refill hwf₁ hwait (data.drop off)
    have hcount' : (refill (removeFront t) (data.drop off)).2 ≤ data.length - off := by
      rwa [length_drop] at hcount
    have hlen₂ : (refill (removeFront t) (data.drop off)).1.buffer.length =
        (removeFront t).buffer.length + (refill (removeFront t) (data.drop off)).2 := by
      have := congrArg List.length hmove
      simp only [length_append, length_drop] at this
      omega
    have hscans₂ : ScansTo (s.unread ++ data)
        ((refill (removeFront t) (data.drop off)).1.buffer ++
          data.drop (off + (refill (removeFront t) (data.drop off)).2)) [] := by
      rw [← drop_drop, hmove]
      exact hscans₁
    by_cases hstill : (refill (removeFront t) (data.drop off)).1.refillCount ≠ 0
    · rw [if_pos hstill]
      have hend : off + (refill (removeFront t) (data.drop off)).2 = data.length := by
        have := hall hstill
        rw [length_drop] at this
        omega
      have hunread₂ : (refill (removeFront t) (data.drop off)).1.unread =
          (refill (removeFront t) (data.drop off)).1.buffer := by
        rw [FramerState.unread, hremove₂, drop_zero]
      refine ⟨_, rfl, ⟨hwf₂, by dsimp only; omega, ?_, fun _ => ⟨hend, hstill⟩, ?_,
        fun h => absurd rfl h⟩⟩
      · rw [hunread₂]
        exact hscans₂
      · dsimp only
        rw [hunread₂]
        omega
    · rw [if_neg hstill]
      refine ⟨_, rfl, roundOk_decode hwf₂ hremove₂ (not_not.mp hstill) (by omega) hscans₂
        (by omega) rfl ?_⟩
      simp only [processMeasure]
      omega
  · rw [if_neg hwait]
    refine ⟨_, rfl, roundOk_decode hwf₁ hremove₁ (not_not.mp hwait) hoff hscans₁ (by omega) rfl ?_⟩
    simp only [processMeasure]
    split_ifs with hidle
    · omega
    · omega

/-- Specification of `framer_process`: the loop ends, and the call scans on. -/
theorem framerProcess_spec (hwf : s.WellFormed) (data : List UInt8) :
    ∃ res, framerProcess s data = some res ∧ Processed s data res := by
  have hstart : InCall s data (s, 0) := ⟨hwf, Nat.zero_le _, fun _ => rfl, by dsimp only; omega⟩
  obtain ⟨res, hres, hloop⟩ := exists_loop roundOk_processRound hstart
  exact ⟨res, hloop _ (Nat.lt_succ_self _), hres⟩

/-- The framer over some calls; an action is the data of a call. -/
def framerCalls : Machine FramerState (List UInt8) where
  init := framerCreate
  step s data := (framerProcess s data).map FramerResult.state

lemma wellFormed_of_reaches (h : framerCalls.Reaches s) : s.WellFormed := by
  refine @Machine.Reaches.invariant _ _ _ FramerState.WellFormed wellFormed_framerCreate ?_ s h
  intro s data s' hwf hstep
  obtain ⟨res, hres, rfl⟩ := map_eq_some_iff.mp hstep
  obtain ⟨res', hres', hproc⟩ := framerProcess_spec hwf data
  obtain rfl := some_inj.mp (hres.symm.trans hres')
  exact hproc.wf

variable {res : FramerResult} {frame : List UInt8}

lemma length_of_decode {dataOffset : Nat} (h : decode s dataOffset = .inr res)
    (hframe : res.frame = some frame) : frame.length ≤ rtcm3FrameSizeMax := by
  simp only [decode] at h
  split_ifs at h
  cases h
  cases hframe
  exact Nat.le_trans (length_take_le _ _) (totalLength_le _)

/-- A frame is at most as long as the buffer of the framer. -/
lemma length_of_framerProcess (h : framerProcess s data = some res)
    (hframe : res.frame = some frame) : frame.length ≤ rtcm3FrameSizeMax := by
  refine @of_loop_eq_some _ _ _
    (fun res => res.frame = some frame → frame.length ≤ rtcm3FrameSizeMax) ?_ _ _ _ h hframe
  rintro ⟨t, off⟩ res hround hframe
  simp only [processRound] at hround
  split_ifs at hround
  · cases hround
    cases hframe
  · exact length_of_decode (some_inj.mp hround) hframe
  · exact length_of_decode (some_inj.mp hround) hframe

/-! ### A stream in pieces -/

/-- Call the framer on what is left of a chunk, and keep the frame it returns. -/
def feedRound : FramerState × List UInt8 × List (List UInt8) →
    Option ((FramerState × List UInt8 × List (List UInt8)) ⊕ (FramerState × List (List UInt8)))
  | (s, rest, frames) =>
    if rest = [] then some (.inr (s, frames))
    else do
      let res ← framerProcess s rest
      some (.inl (res.state, rest.drop res.dataOffset, frames ++ res.frame.toList))

/-- Feed a chunk to the framer, advancing by the returned count until all of it is consumed. -/
def feedChunk (fuel : Nat) (p : FramerState × List (List UInt8)) (chunk : List UInt8) :
    Option (FramerState × List (List UInt8)) :=
  loop feedRound fuel (p.1, chunk, p.2)

/-- Call the framer without data, and keep the frame it returns. -/
def drainRound : FramerState × List (List UInt8) →
    Option ((FramerState × List (List UInt8)) ⊕ List (List UInt8))
  | (s, frames) => do
    let res ← framerProcess s []
    match res.frame with
    | some frame => some (.inl (res.state, frames ++ [frame]))
    | none => some (.inr frames)

/-- The frames a new framer returns for a stream in chunks, drained at the end; `none` when the
fuel of one of the loops runs out. -/
def framesOfChunks (fuel : Nat) (chunks : List (List UInt8)) : Option (List (List UInt8)) := do
  let p ← chunks.foldlM (feedChunk fuel) (framerCreate, [])
  loop drainRound fuel p

/-- The framer is in the middle of a stream: well formed, with `read` behind it and `frames`
found. -/
structure InStream (read : List UInt8) (p : FramerState × List (List UInt8)) : Prop where
  wf : p.1.WellFormed
  scans : ScansTo read p.1.unread p.2

variable {read : List UInt8}

/-- One round of feeding a chunk. -/
lemma roundOk_feedRound (p : FramerState × List UInt8 × List (List UInt8))
    (h : p.1.WellFormed ∧ ScansTo read (p.1.unread ++ p.2.1) p.2.2) :
    ∃ o, feedRound p = some o ∧
      RoundOk (fun p => p.1.WellFormed ∧ ScansTo read (p.1.unread ++ p.2.1) p.2.2)
        (fun p => p.1.unread.length + 2 * p.2.1.length) (InStream read) p o := by
  obtain ⟨s, rest, frames⟩ := p
  obtain ⟨hwf, hscans⟩ := h
  dsimp only at hwf hscans
  by_cases hrest : rest = []
  · refine ⟨.inr (s, frames), by rw [feedRound, if_pos hrest], hwf, ?_⟩
    rwa [hrest, append_nil] at hscans
  · obtain ⟨res, hres, hproc⟩ := framerProcess_spec hwf rest
    have hpos : 0 < rest.length := length_pos_iff.mpr hrest
    refine ⟨.inl (res.state, rest.drop res.dataOffset, frames ++ res.frame.toList),
      by rw [feedRound, if_neg hrest, hres]; rfl, ⟨hproc.wf, ?_⟩, ?_⟩
    · exact hscans.trans hproc.scans
    · have hle := hproc.length_le
      simp only [length_drop]
      cases hframe : res.frame with
      | none =>
        have := (hproc.waits hframe).1
        omega
      | some frame =>
        have := hproc.length_lt (by simp [hframe])
        omega

variable {p : FramerState × List (List UInt8)}

/-- Feeding one chunk. -/
lemma exists_feedChunk (h : InStream read p) (chunk : List UInt8) :
    ∃ p', InStream (read ++ chunk) p' ∧
      ∃ enough, ∀ fuel, enough < fuel → feedChunk fuel p chunk = some p' := by
  have hstart : p.1.WellFormed ∧ ScansTo (read ++ chunk) (p.1.unread ++ chunk) p.2 :=
    ⟨h.wf, h.scans.append chunk⟩
  obtain ⟨p', hp', hloop⟩ := @exists_loop _ _ _ _ _ _ roundOk_feedRound (p.1, chunk, p.2) hstart
  exact ⟨p', hp', _, hloop⟩

/-- Feeding all chunks, by induction on them. -/
lemma exists_foldlM_feedChunk (chunks : List (List UInt8)) (h : InStream read p) :
    ∃ p', InStream (read ++ chunks.flatten) p' ∧
      ∃ enough, ∀ fuel, enough < fuel → chunks.foldlM (feedChunk fuel) p = some p' := by
  induction chunks generalizing read p with
  | nil => exact ⟨p, by simpa using h, 0, fun _ _ => rfl⟩
  | cons chunk chunks ih =>
    obtain ⟨p₁, hp₁, n₁, hrun₁⟩ := exists_feedChunk h chunk
    obtain ⟨p₂, hp₂, n₂, hrun₂⟩ := ih hp₁
    refine ⟨p₂, by simpa using hp₂, max n₁ n₂, ?_⟩
    intro fuel hfuel
    rw [foldlM_cons, hrun₁ fuel (by omega)]
    exact hrun₂ fuel (by omega)

/-- A framer that waits has no frame in its buffer. -/
lemma scan_unread_eq_nil (hwf : s.WellFormed) (hwait : s.refillCount ≠ 0) :
    scan rtcm3Verdict s.unread = [] := by
  obtain ⟨hzero, hcase⟩ := hwf.waits hwait
  rw [FramerState.unread, hzero, drop_zero]
  rcases hcase with ⟨hlt, -⟩ | ⟨hge, hhead, heq⟩
  · apply scan_eq_nil_of_length_lt
    unfold rtcm3HeaderLength at hlt
    omega
  · apply scan_eq_nil_of_more
    have htotal := totalLength_eq s.buffer
    rw [rtcm3Verdict_of_header hhead hge, if_pos (by omega)]

/-- One round of draining. -/
lemma roundOk_drainRound (p : FramerState × List (List UInt8)) (h : InStream read p) :
    ∃ o, drainRound p = some o ∧ RoundOk (InStream read) (fun p => p.1.unread.length)
        (fun frames => frames = scan rtcm3Verdict read) p o := by
  obtain ⟨s, frames⟩ := p
  obtain ⟨hwf, hscans⟩ := h
  obtain ⟨res, hres, hproc⟩ := framerProcess_spec hwf []
  have hnext : ScansTo read res.state.unread (frames ++ res.frame.toList) := by
    have := hproc.scans
    rw [append_nil, drop_nil, append_nil] at this
    exact hscans.trans this
  cases hframe : res.frame with
  | some frame =>
    refine ⟨.inl (res.state, frames ++ [frame]), by simp [drainRound, hres, hframe],
      ⟨hproc.wf, ?_⟩, ?_⟩
    · rwa [hframe] at hnext
    · have := hproc.length_lt (by simp [hframe])
      simp only [length_nil] at this
      dsimp only
      omega
  | none =>
    refine ⟨.inr frames, by simp [drainRound, hres, hframe], ?_⟩
    have hend := hnext []
    rw [hframe, append_nil, append_nil, scan_unread_eq_nil hproc.wf (hproc.waits hframe).2] at hend
    show frames = scan rtcm3Verdict read
    simpa using hend.symm

/-- For every stream and every way of cutting it into chunks, the framer returns the frames of the
reference scan, given enough fuel for the loops to end. -/
theorem framesOfChunks_eq_scan (chunks : List (List UInt8)) : ∃ enough, ∀ fuel, enough < fuel →
      framesOfChunks fuel chunks = some (scan rtcm3Verdict chunks.flatten) := by
  have hstart : InStream [] (framerCreate, []) := ⟨wellFormed_framerCreate, fun _ => rfl⟩
  obtain ⟨p, hp, n₁, hfeed⟩ := exists_foldlM_feedChunk chunks hstart
  obtain ⟨frames, rfl, hdrain⟩ := exists_loop roundOk_drainRound hp
  refine ⟨max n₁ p.1.unread.length, ?_⟩
  intro fuel hfuel
  rw [framesOfChunks, hfeed fuel (by omega)]
  exact hdrain fuel (by omega)

end PiksiBuildroot.Rtcm3
