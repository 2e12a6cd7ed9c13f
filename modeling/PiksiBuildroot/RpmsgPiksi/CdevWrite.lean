import Mathlib.Data.List.Basic

/-!
# Writing to the character device of rpmsg

`ept_cdev_write` sends the user's buffer in pieces of at most 496 bytes, up to 4096 bytes in all,
and returns how many bytes it sent. If a piece cannot be copied or sent it returns the error
instead, also if pieces before it were sent: the caller cannot tell that they were (`writeOk_iff`).
-/

namespace PiksiBuildroot.RpmsgPiksi.CdevWrite

open List

/-- Source: `TX_BUFF_SIZE`. -/
def txBuffSize : Nat := 512 - 16

/-- Source: `MAX_BUF_SUBMIT`. -/
def maxBufSubmit : Nat := 4096

/-- How a piece goes: it cannot be copied, `rpmsg_sendto` returns an error, or it is sent. -/
inductive PieceOutcome where
  | copyFailed
  | sendFailed (errno : { n : Nat // 0 < n })
  | sent

/-- The size of the next piece. -/
def pieceSize (rest : List UInt8) : Nat :=
  if rest.length ≤ txBuffSize then rest.length else txBuffSize

lemma pieceSize_pos {rest : List UInt8} (h : rest ≠ []) : 0 < pieceSize rest := by
  unfold pieceSize txBuffSize
  split_ifs
  · exact length_pos_iff.mpr h
  · decide

/-- The loop of `ept_cdev_write` from piece `i` on, where `rest` is left of the buffer: the value
that is returned and the messages that are sent. -/
def writeLoop (outcomes : Nat → PieceOutcome) (i offset : Nat) (rest : List UInt8) :
    Int × List (List UInt8) :=
  if _h : rest = [] then (offset, [])
  else
    let size := pieceSize rest
    if maxBufSubmit < offset + size then (offset, [])
    else
      match outcomes i with
      | .copyFailed => (-1, [])
      | .sendFailed errno => (-(errno.val : Int), [])
      | .sent =>
        let r := writeLoop outcomes (i + 1) (offset + size) (rest.drop size)
        (r.1, rest.take size :: r.2)
termination_by rest.length
decreasing_by
  have hpos := length_pos_iff.mpr _h
  have hsize := pieceSize_pos _h
  rw [length_drop]
  omega

/-- Source: `ept_cdev_write`. `lock` is the error of `mutex_lock_interruptible`, 0 if there is
none. -/
def eptCdevWrite (rpmsgReady : Bool) (lock : Nat) (outcomes : Nat → PieceOutcome)
    (ubuff : List UInt8) : Int × List (List UInt8) :=
  if lock ≠ 0 then (-(lock : Int), [])
  else if !rpmsgReady then (ubuff.length, [])
  else writeLoop outcomes 0 0 ubuff

/-- The messages fit into the transmit buffer; they are the part of the buffer that the returned
value tells, and none if it is negative. -/
structure WriteOk (ubuff : List UInt8) (r : Int × List (List UInt8)) : Prop where
  fits : ∀ m ∈ r.2, m.length ≤ txBuffSize
  returned : 0 ≤ r.1 → r.1.toNat ≤ ubuff.length ∧ r.2.flatten = ubuff.take r.1.toNat
  failed : r.1 < 0 → r.2 = []

/-! ### The pieces -/

/-- The pieces that the loop comes to if none fails. -/
def pieces (offset : Nat) (rest : List UInt8) : List (List UInt8) := if _h : rest = [] then []
  else
    let size := pieceSize rest
    if maxBufSubmit < offset + size then []
    else rest.take size :: pieces (offset + size) (rest.drop size)
termination_by rest.length
decreasing_by
  have hpos := length_pos_iff.mpr _h
  have hsize := pieceSize_pos _h
  rw [length_drop]
  omega

/-- Send pieces until one fails. -/
def sendPieces (outcomes : Nat → PieceOutcome) : Nat → Nat → List (List UInt8) →
    Int × List (List UInt8)
  | _, offset, [] => (offset, [])
  | i, offset, piece :: rest =>
    match outcomes i with
    | .copyFailed => (-1, [])
    | .sendFailed errno => (-(errno.val : Int), [])
    | .sent =>
      let r := sendPieces outcomes (i + 1) (offset + piece.length) rest
      (r.1, piece :: r.2)

lemma pieceSize_le (rest : List UInt8) : pieceSize rest ≤ rest.length := by
  unfold pieceSize
  split_ifs <;> omega

lemma pieceSize_le_txBuffSize (rest : List UInt8) : pieceSize rest ≤ txBuffSize := by
  unfold pieceSize
  split_ifs <;> omega

lemma length_take_pieceSize (rest : List UInt8) :
    (rest.take (pieceSize rest)).length = pieceSize rest := by
  rw [length_take, Nat.min_eq_left (pieceSize_le rest)]

/-- The loop sends the pieces. -/
lemma writeLoop_eq (outcomes : Nat → PieceOutcome) (i offset : Nat) (rest : List UInt8) :
    writeLoop outcomes i offset rest = sendPieces outcomes i offset (pieces offset rest) := by
  fun_induction pieces offset rest generalizing i with
  | case1 offset => rw [writeLoop, dif_pos rfl, sendPieces]
  | case2 offset rest h size hfull =>
    rw [writeLoop, dif_neg h]
    rw [if_pos hfull, sendPieces]
  | case3 offset rest h size hfull ih =>
    rw [writeLoop, dif_neg h]
    rw [if_neg hfull, sendPieces, length_take_pieceSize]
    cases outcomes i with
    | copyFailed | sendFailed errno => rfl
    | sent => simp only [ih, size]

lemma length_le_of_mem_pieces {offset : Nat} {rest piece : List UInt8}
    (h : piece ∈ pieces offset rest) : piece.length ≤ txBuffSize := by
  fun_induction pieces offset rest with
  | case1 | case2 => cases h
  | case3 offset rest _ size hfull ih =>
    rcases mem_cons.mp h with rfl | h
    · rw [length_take_pieceSize]
      exact pieceSize_le_txBuffSize rest
    · exact ih h

/-- The pieces are a part of the buffer from its start. -/
lemma flatten_pieces_prefix (offset : Nat) (rest : List UInt8) :
    (pieces offset rest).flatten <+: rest := by
  fun_induction pieces offset rest with
  | case1 | case2 => exact nil_prefix
  | case3 offset rest _ size hfull ih =>
    have hprefix := (prefix_append_right_inj (rest.take size)).mpr ih
    rwa [take_append_drop] at hprefix

/-! ### Sending them -/

section
variable {outcomes : Nat → PieceOutcome}

/-- If no piece fails all are sent. -/
lemma sendPieces_of_forall {i offset : Nat} {ps : List (List UInt8)}
    (h : ∀ j < ps.length, outcomes (i + j) = .sent) :
    sendPieces outcomes i offset ps = (((offset + ps.flatten.length : Nat) : Int), ps) := by
  induction ps generalizing i offset with
  | nil => rfl
  | cons piece ps ih =>
    have hfirst : outcomes i = .sent := h 0 (Nat.zero_lt_succ _)
    have hrest : ∀ j < ps.length, outcomes (i + 1 + j) = .sent := by
      intro j hj
      have hnext := h (j + 1) (Nat.succ_lt_succ hj)
      rwa [Nat.add_comm j 1, ← Nat.add_assoc] at hnext
    rw [sendPieces, hfirst]
    rw [ih hrest, flatten_cons, length_append, Nat.add_assoc]

/-- The first piece that fails ends the loop with an error, whatever was sent before it. -/
lemma sendPieces_of_fails (i offset : Nat) {k : Nat} {ps : List (List UInt8)} (hk : k < ps.length)
    (hsent : ∀ j < k, outcomes (i + j) = .sent) (hfails : outcomes (i + k) ≠ .sent) :
    (sendPieces outcomes i offset ps).1 < 0 ∧ (sendPieces outcomes i offset ps).2 = ps.take k := by
  induction ps generalizing i offset k with
  | nil => exact absurd hk (Nat.not_lt_zero k)
  | cons piece ps ih =>
    cases k with
    | zero =>
      rw [sendPieces]
      cases ho : outcomes i with
      | copyFailed => exact ⟨Int.negSucc_lt_zero 0, rfl⟩
      | sendFailed errno => exact ⟨Int.neg_neg_of_pos (Int.natCast_pos.mpr errno.property), rfl⟩
      | sent => exact absurd ho hfails
    | succ k =>
      have hfirst : outcomes i = .sent := hsent 0 (Nat.zero_lt_succ _)
      have hshift : ∀ j, i + (j + 1) = i + 1 + j := fun j => by omega
      rw [sendPieces, hfirst]
      dsimp only
      obtain ⟨hneg, htake⟩ := ih (i + 1) (offset + piece.length)
        (Nat.lt_of_succ_lt_succ hk) (fun j hj => hshift j ▸ hsent (j + 1) (Nat.succ_lt_succ hj))
        (hshift k ▸ hfails)
      exact ⟨hneg, by rw [htake, take_succ_cons]⟩

/-- Either no piece fails, or there is a first one that does. -/
lemma forall_sent_or_exists_first (outcomes : Nat → PieceOutcome) (n : Nat) :
    (∀ j < n, outcomes j = .sent) ∨
      ∃ k < n, (∀ j < k, outcomes j = .sent) ∧ outcomes k ≠ .sent := by
  induction n with
  | zero => exact .inl fun j hj => absurd hj (Nat.not_lt_zero j)
  | succ n ih =>
    rcases ih with hall | ⟨k, hk, hsent, hfails⟩
    · by_cases hn : outcomes n = .sent
      · refine .inl fun j hj => ?_
        rcases Nat.lt_succ_iff_lt_or_eq.mp hj with hj | rfl
        · exact hall j hj
        · exact hn
      · exact .inr ⟨n, Nat.lt_succ_self n, hall, hn⟩
    · exact .inr ⟨k, Nat.lt_succ_of_lt hk, hsent, hfails⟩

end

/-- A piece fails after the ones before it, of which there are some, were sent. -/
def FailsLate (outcomes : Nat → PieceOutcome) (ubuff : List UInt8) : Prop :=
  ∃ k, 0 < k ∧ k < (pieces 0 ubuff).length ∧ (∀ j < k, outcomes j = .sent) ∧ outcomes k ≠ .sent

/-- What was sent agrees with the returned value exactly if no piece fails late. -/
theorem writeOk_iff (lock : Nat) (outcomes : Nat → PieceOutcome) (ubuff : List UInt8) :
    WriteOk ubuff (eptCdevWrite true lock outcomes ubuff) ↔
      (lock = 0 → ¬FailsLate outcomes ubuff) := by
  by_cases hlock : lock = 0
  · have hwrite :
        eptCdevWrite true lock outcomes ubuff = sendPieces outcomes 0 0 (pieces 0 ubuff) := by
      rw [← writeLoop_eq, eptCdevWrite, if_neg (not_not.mpr hlock)]
      rfl
    rw [hwrite]
    constructor
    · rintro h _ ⟨k, hpos, hk, hsent, hfails⟩
      obtain ⟨hneg, htake⟩ := sendPieces_of_fails 0 0 hk
        (fun j hj => (Nat.zero_add j).symm ▸ hsent j hj) ((Nat.zero_add k).symm ▸ hfails)
      have hnil := htake.symm.trans (h.failed hneg)
      have hlength := congrArg List.length hnil
      rw [length_take, length_nil] at hlength
      omega
    · intro hlate
      rcases forall_sent_or_exists_first outcomes (pieces 0 ubuff).length with
        hall | ⟨k, hk, hsent, hfails⟩
      · rw [sendPieces_of_forall fun j hj => (Nat.zero_add j).symm ▸ hall j hj, Nat.zero_add]
        have hfront := flatten_pieces_prefix 0 ubuff
        refine ⟨fun m hm => length_le_of_mem_pieces hm, fun _ => ⟨hfront.length_le, ?_⟩,
          fun hneg => absurd hneg (by omega)⟩
        exact prefix_iff_eq_take.mp hfront
      · -- the first piece fails
        obtain rfl : k = 0 := by
          by_contra hne
          exact hlate hlock ⟨k, Nat.pos_of_ne_zero hne, hk, hsent, hfails⟩
        obtain ⟨hneg, htake⟩ := sendPieces_of_fails 0 0 hk
          (fun j hj => absurd hj (Nat.not_lt_zero j)) hfails
        exact ⟨fun m hm => absurd (htake ▸ hm) not_mem_nil, fun h => absurd h (by omega),
          fun _ => htake⟩
  · rw [eptCdevWrite, if_pos hlock]
    refine iff_of_true ⟨fun m hm => absurd hm not_mem_nil, fun h => ?_, fun _ => rfl⟩
      fun h => absurd h hlock
    exact absurd h (by omega)

/-- The second piece of 497 bytes fails. -/
def failSecond : Nat → PieceOutcome
  | 0 => .sent
  | _ => .sendFailed ⟨12, by decide⟩

lemma pieces_replicate : pieces 0 (List.replicate 497 0) = [List.replicate 496 0, [0]] := by
  have hlast : pieces 496 [0] = [[0]] := by
    simp [pieces, pieceSize, txBuffSize, maxBufSubmit]
  have hsize : pieceSize (List.replicate 497 0) = 496 := by
    rw [pieceSize, length_replicate]
    rfl
  rw [pieces, dif_neg (by decide)]
  rw [hsize, if_neg (by decide), take_replicate, drop_replicate]
  exact congrArg (List.replicate 496 0 :: ·) hlast

/-- An error is returned after 496 bytes were sent. -/
theorem not_writeOk_failSecond : (eptCdevWrite true 0 failSecond (List.replicate 497 0)).1 = -12 ∧
      ¬WriteOk (List.replicate 497 0) (eptCdevWrite true 0 failSecond (List.replicate 497 0)) := by
  have hwrite : eptCdevWrite true 0 failSecond (List.replicate 497 0) =
      (-12, [List.replicate 496 0]) := by
    rw [eptCdevWrite, if_neg (by decide), if_neg (by decide), writeLoop_eq, pieces_replicate]
    rfl
  rw [hwrite]
  exact ⟨rfl, fun h => cons_ne_nil _ _ (h.failed (by decide))⟩

end PiksiBuildroot.RpmsgPiksi.CdevWrite
