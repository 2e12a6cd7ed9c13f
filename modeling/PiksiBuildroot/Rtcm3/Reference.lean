import PiksiBuildroot.Rtcm3.Framer

/-!
# The reference scan of an RTCM3 stream

`rtcm3Verdict` says in the terms of the RTCM3 standard what is at the front of a stream, and
`scan rtcm3Verdict` finds all frames of a stream that is known as a whole. The verdict is stable
(`stable_rtcm3Verdict`).
-/

namespace PiksiBuildroot.Rtcm3

open Lib List

/-! ### The reference scan -/

/-- The 10-bit length in a header. -/
def headerLength (l : List UInt8) : Nat := (l.getD 1 0).toNat % 4 * 256 + (l.getD 2 0).toNat

/-- The big-endian number that some bytes are. -/
def beNat (l : List UInt8) : Nat := l.foldl (fun n b => n * 256 + b.toNat) 0

/-- The last three bytes are the remainder of all that come before them. -/
def crcMatches (frame : List UInt8) : Bool :=
  (crcBits crc24qPoly 0 ((frame.take (frame.length - 3)).flatMap byteBits)).toNat =
    beNat (frame.drop (frame.length - 3))

/-- What is at the front of a stream: no preamble, an incomplete frame, a frame with a wrong CRC or
a frame. -/
def rtcm3Verdict (l : List UInt8) : Verdict := match l with
  | [] => .more
  | b :: _ =>
    if b ≠ 0xD3 then .skip
    else if l.length < 3 then .more
    else if l.length < 3 + headerLength l + 3 then .more
    else if crcMatches (l.take (3 + headerLength l + 3)) then .frame (3 + headerLength l + 3)
    else .skip

variable {l : List UInt8}

/-- The verdict on a complete header. -/
lemma rtcm3Verdict_of_header (hhead : l.getD 0 0 = 0xD3) (hlen : 3 ≤ l.length) : rtcm3Verdict l =
      if l.length < 3 + headerLength l + 3 then .more
      else if crcMatches (l.take (3 + headerLength l + 3)) then .frame (3 + headerLength l + 3)
      else .skip := by
  cases l with
  | nil => exact absurd hlen (by simp)
  | cons b l =>
    have hb : b = 0xD3 := hhead
    rw [rtcm3Verdict, if_neg (not_not.mpr hb), if_neg (Nat.not_lt.mpr hlen)]

/-- A byte other than the preamble is skipped. -/
lemma rtcm3Verdict_of_ne (hne : l ≠ []) (hhead : l.getD 0 0 ≠ 0xD3) : rtcm3Verdict l = .skip := by
  cases l with
  | nil => exact absurd rfl hne
  | cons b l =>
    have hb : b ≠ 0xD3 := hhead
    rw [rtcm3Verdict, if_pos hb]

/-- The length of a frame in the code is that of the reference. -/
lemma totalLength_eq (l : List UInt8) : totalLength l = 3 + headerLength l + 3 := by
  rw [totalLength, messageLength_eq]
  rfl

/-- The header is not changed by what follows it. -/
lemma headerLength_append (h : 3 ≤ l.length) (r : List UInt8) :
    headerLength (l ++ r) = headerLength l := by
  have h1 : (l ++ r).getD 1 0 = l.getD 1 0 := getD_append _ _ _ _ (by omega)
  have h2 : (l ++ r).getD 2 0 = l.getD 2 0 := getD_append _ _ _ _ (by omega)
  rw [headerLength, headerLength, h1, h2]

/-- The verdict does not change as more of the stream comes. -/
theorem stable_rtcm3Verdict : Stable rtcm3Verdict := by
  refine ⟨rfl, ?_, ?_⟩
  · intro l r h
    cases l with
    | nil => exact absurd rfl h
    | cons b l =>
      by_cases hb : b = 0xD3
      · have hlen : 3 ≤ (b :: l).length := by
          by_contra hlt
          apply h
          rw [rtcm3Verdict, if_neg (not_not.mpr hb), if_pos (by omega)]
        have hhead : (b :: l).getD 0 0 = 0xD3 := hb
        have hhead' : (b :: l ++ r).getD 0 0 = 0xD3 := hb
        have hfull : ¬(b :: l).length < 3 + headerLength (b :: l) + 3 := by
          intro hlt
          apply h
          rw [rtcm3Verdict_of_header hhead hlen, if_pos hlt]
        have hlen' : (b :: l).length ≤ (b :: l ++ r).length := by simp
        rw [rtcm3Verdict_of_header hhead hlen,
          rtcm3Verdict_of_header hhead' (Nat.le_trans hlen hlen'),
          headerLength_append hlen, if_neg hfull, if_neg (by omega),
          take_append_of_le_length (Nat.not_lt.mp hfull)]
      · rw [rtcm3Verdict_of_ne (cons_ne_nil _ _) hb]
        exact rtcm3Verdict_of_ne (cons_ne_nil _ _) hb
  · intro l len h
    cases l with
    | nil => exact absurd h (by simp [rtcm3Verdict])
    | cons b l =>
      simp only [rtcm3Verdict] at h
      split_ifs at h with hb h3 hlen hcrc
      cases h
      omega

/-- A stream shorter than the shortest frame has none. -/
lemma scan_eq_nil_of_length_lt (h : l.length < 6) : scan rtcm3Verdict l = [] := by
  induction l with
  | nil => exact scan_eq_nil_of_more rfl
  | cons b l ih =>
    simp only [length_cons] at h
    cases hv : rtcm3Verdict (b :: l) with
    | more => exact scan_eq_nil_of_more hv
    | skip =>
      have hskip := scan_append_of_skip stable_rtcm3Verdict hv []
      simp only [append_nil, tail_cons] at hskip
      rw [hskip]
      exact ih (by omega)
    | frame len =>
      have hlen := (stable_rtcm3Verdict.pos _ _ hv).2
      simp only [rtcm3Verdict] at hv
      split_ifs at hv
      cases hv
      simp only [length_cons] at hlen
      omega

/-- Bytes before the first preamble do not matter. -/
lemma scan_dropWhile_append (l r : List UInt8) :
    scan rtcm3Verdict ((l.dropWhile fun b => b != rtcm3Preamble) ++ r) =
      scan rtcm3Verdict (l ++ r) := by
  induction l with
  | nil => rfl
  | cons b l ih =>
    by_cases hb : b = rtcm3Preamble
    · simp [hb]
    · have hskip : rtcm3Verdict (b :: l) = .skip := rtcm3Verdict_of_ne (cons_ne_nil _ _) hb
      rw [scan_append_of_skip stable_rtcm3Verdict hskip, dropWhile_cons_of_pos (by simpa),
        ih, tail_cons]

/-! ### The CRC of the code is the CRC of the reference -/

/-- The last three bytes of a frame. -/
lemma drop_eq_of_length {n : Nat} (h : l.length = n + 3) :
    l.drop n = [l.getD n 0, l.getD (n + 1) 0, l.getD (n + 2) 0] := by
  rw [drop_eq_getElem_cons (by omega), drop_eq_getElem_cons (by omega),
    drop_eq_getElem_cons (by omega), drop_of_length_le (by omega),
    getD_eq_getElem _ _ (by omega), getD_eq_getElem _ _ (by omega),
    getD_eq_getElem _ _ (by omega)]

/-- The footer as a number. -/
lemma toNat_frameCrc (buffer : List UInt8) (n : Nat) : (frameCrc buffer (n + 3)).toNat =
      beNat [buffer.getD n 0, buffer.getD (n + 1) 0, buffer.getD (n + 2) 0] := by
  have h0 : (buffer.getD n 0).toNat < 2 ^ 8 := (buffer.getD n 0).toNat_lt
  have h1 : (buffer.getD (n + 1) 0).toNat < 2 ^ 8 := (buffer.getD (n + 1) 0).toNat_lt
  have h2 : (buffer.getD (n + 2) 0).toNat < 2 ^ 8 := (buffer.getD (n + 2) 0).toNat_lt
  have hor : ∀ a b c : Nat, b < 2 ^ 8 → c < 2 ^ 8 →
      a <<< 16 ||| b <<< 8 ||| c = (a * 256 + b) * 256 + c := by
    intro a b c hb hc
    have hbc : b <<< 8 ||| c = b * 256 + c := by
      rw [← Nat.shiftLeft_add_eq_or_of_lt hc, Nat.shiftLeft_eq]
    have hlt : b * 256 + c < 2 ^ 16 := by omega
    rw [Nat.or_assoc, hbc, ← Nat.shiftLeft_add_eq_or_of_lt hlt, Nat.shiftLeft_eq]
    omega
  have hs0 : (buffer.getD n 0).toNat <<< 16 % 2 ^ 32 = (buffer.getD n 0).toNat <<< 16 := by
    omega
  have hs1 : (buffer.getD (n + 1) 0).toNat <<< 8 % 2 ^ 32 =
      (buffer.getD (n + 1) 0).toNat <<< 8 := by
    omega
  have hnat : (frameCrc buffer (n + 3)).toNat =
      (buffer.getD n 0).toNat <<< 16 % 2 ^ 32 ||| (buffer.getD (n + 1) 0).toNat <<< 8 % 2 ^ 32 |||
        (buffer.getD (n + 2) 0).toNat := by
    simp [frameCrc]
  rw [hnat, hs0, hs1, hor _ _ _ h1 h2]
  simp [beNat]

/-- The code compares the footer with its CRC just as the reference does. -/
theorem frameCrc_eq_iff {buffer : List UInt8} {total : Nat} (h3 : 3 ≤ total)
    (hlen : total ≤ buffer.length) :
    frameCrc buffer total = crc24q buffer (total - rtcm3FooterLength) 0 ↔
      crcMatches (buffer.take total) := by
  obtain ⟨n, rfl⟩ : ∃ n, total = n + 3 := ⟨total - 3, by omega⟩
  have htake : (buffer.take (n + 3)).length = n + 3 := by simp [hlen]
  have hget : ∀ i < n + 3, (buffer.take (n + 3)).getD i 0 = buffer.getD i 0 := by
    intro i hi
    rw [getD_eq_getElem _ _ (by omega), getD_eq_getElem _ _ (by omega), getElem_take]
  have hcrc : crc24q buffer (n + 3 - rtcm3FooterLength) 0 =
      ofRemainder (crcBits crc24qPoly 0 ((buffer.take n).flatMap byteBits)) :=
    crc24q_eq_crcBits buffer n 0
  rw [hcrc, ← UInt32.toNat_inj, toNat_frameCrc, toNat_ofRemainder, crcMatches, htake,
    Nat.add_sub_cancel, take_take, Nat.min_eq_left (by omega), drop_eq_of_length htake,
    hget _ (by omega), hget _ (by omega), hget _ (by omega), decide_eq_true_eq]
  exact eq_comm

end PiksiBuildroot.Rtcm3
