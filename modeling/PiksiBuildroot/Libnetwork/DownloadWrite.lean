import Mathlib.Data.Nat.ModEq
import PiksiBuildroot.Libnetwork.Request

/-!
# The writes of a download

`network_download_write` calls `write` until nothing remains of the buffer that curl gave it. After
a short count the offset is moved by what remains instead of by what was written, an error is
taken for a count of -1, and the function returns the last count only (`exactWrite_iff`).
-/

namespace PiksiBuildroot.Libnetwork

open Lib Stdio List

section loop

variable (sizeBits : Nat)

/-- What the callback is for. -/
structure WriteRun.Exact (ctx : Context) (buf : Bytes) (results : List WriteResult)
    (run : WriteRun) : Prop where
  inBounds : run.state ≠ .outOfBounds
  written : run.written <+: buf
  curBytes : run.ctx.curBytes % 2 ^ sizeBits = (ctx.curBytes + run.written.length) % 2 ^ sizeBits
  /-- Results other than `EINTR` are an error or at least one byte each. -/
  ends : run.state ≠ .impossible →
    max 1 buf.length ≤ (results.filter (· ≠ .interrupted)).length → ∃ ret, run.state = .returned ret
  ret : ∀ ret, run.state = .returned ret → (ret = buf.length ↔ run.written = buf)

def ExactWrite (ctx : Context) (buf : Bytes) (results : List WriteResult) : Prop :=
  (downloadRun sizeBits ctx buf results).Exact sizeBits ctx buf results

end loop

variable {sizeBits : Nat} {buf : Bytes}

/-! ### The first result that is not an interruption -/

variable {ctx : Context}

/-- Beyond the limit nothing is written. -/
lemma exactWrite_of_byteLimit (h : networkByteLimit sizeBits ctx buf.length = true)
    (results : List WriteResult) : ExactWrite sizeBits ctx buf results := by
  have hrun : downloadRun sizeBits ctx buf results = ⟨.returned 0, ctx, []⟩ := if_pos h
  rw [ExactWrite, hrun]
  refine ⟨by simp, nil_prefix, rfl, fun _ _ => ⟨0, rfl⟩, fun ret hret => ?_⟩
  obtain rfl := WriteState.returned.inj hret
  rw [eq_comm, length_eq_zero_iff, eq_comm]

/-- A first result that is the whole buffer ends the call. -/
lemma exactWrite_of_complete (h : ¬networkByteLimit sizeBits ctx buf.length = true) (k : Nat)
    (later : List WriteResult) :
    ExactWrite sizeBits ctx buf
      (List.replicate k .interrupted ++ .wrote buf.length :: later) := by
  rw [ExactWrite, downloadRun_complete h]
  refine ⟨by simp, prefix_rfl, Nat.mod_mod _ _, fun _ _ => ⟨buf.length, rfl⟩, fun ret hret => ?_⟩
  obtain rfl := WriteState.returned.inj hret
  exact ⟨fun _ => rfl, fun _ => rfl⟩

/-- While the calls are interrupted nothing has happened. -/
lemma exactWrite_interrupted (ctx : Context) (buf : Bytes) (k : Nat) :
    ExactWrite sizeBits ctx buf (List.replicate k .interrupted) := by
  by_cases hlimit : networkByteLimit sizeBits ctx buf.length = true
  · exact exactWrite_of_byteLimit hlimit _
  have hrun : downloadRun sizeBits ctx buf (List.replicate k .interrupted) =
      ⟨.waiting, ctx, []⟩ := by
    have hloop := @downloadLoop_interrupted sizeBits buf k [] buf.length 0 ctx []
    rw [append_nil] at hloop
    rw [downloadRun, if_neg hlimit, hloop]
    rfl
  rw [ExactWrite, hrun]
  refine ⟨by simp, nil_prefix, rfl, fun _ hmax => ?_, by simp⟩
  have hnone : (List.replicate k WriteResult.interrupted).filter (· ≠ .interrupted) = [] := by
    simp
  rw [hnone, length_nil] at hmax
  omega

/-- After an error the counter is one too small. -/
lemma not_exactWrite_failed (hbits : 0 < sizeBits)
    (h : ¬networkByteLimit sizeBits ctx buf.length = true) (k : Nat) :
    ¬ExactWrite sizeBits ctx buf (List.replicate k .interrupted ++ [.failed]) := by
  intro hexact
  have hrun : ∃ state, downloadRun sizeBits ctx buf
      (List.replicate k .interrupted ++ [.failed]) = ⟨state, { ctx with
          curBytes := (ctx.curBytes + (2 ^ sizeBits - 1)) % 2 ^ sizeBits }, []⟩ := by
    rw [downloadRun, if_neg h, downloadLoop_interrupted]
    simp only [downloadLoop]
    split_ifs
    · exact ⟨_, rfl⟩
    · exact ⟨_, rfl⟩
  obtain ⟨state, hrun⟩ := hrun
  rw [ExactWrite, hrun] at hexact
  have hcur := (Nat.mod_mod _ _).symm.trans hexact.curBytes
  have hdvd : 2 ^ sizeBits ∣ 2 ^ sizeBits - 1 :=
    (Nat.modEq_zero_iff_dvd).mp (Nat.ModEq.add_left_cancel' ctx.curBytes hcur)
  have hpow : 2 ≤ 2 ^ sizeBits := Nat.le_self_pow (Nat.pos_iff_ne_zero.mp hbits) 2
  have hle := Nat.le_of_dvd (by omega) hdvd
  omega

/-- After a short count, a second one for the rest is beyond the buffer or is all that is
returned. -/
lemma not_exactWrite_short (hbuf : buf.length < 2 ^ sizeBits)
    (h : ¬networkByteLimit sizeBits ctx buf.length = true) (k : Nat) {n : Nat} (hpos : 0 < n)
    (hlt : n < buf.length) :
    ¬ExactWrite sizeBits ctx buf
      (List.replicate k .interrupted ++ .wrote n :: [.wrote (buf.length - n)]) := by
  intro hexact
  have hfirst : IsCount n buf.length := ⟨Nat.le_of_lt hlt, Or.inr hpos⟩
  have hsecond : IsCount (buf.length - n) (buf.length - n) := ⟨Nat.le_refl _, Or.inr (by omega)⟩
  have hoffset : (0 + (buf.length - n)) % 2 ^ sizeBits = buf.length - n := by
    rw [Nat.zero_add, Nat.mod_eq_of_lt (by omega)]
  by_cases hbeyond : buf.length < buf.length - n + (buf.length - n)
  · apply WriteRun.Exact.inBounds hexact
    rw [downloadRun, if_neg h, downloadLoop_interrupted]
    simp only [downloadLoop, if_neg (not_not.mpr hfirst),
      if_neg (show ¬buf.length < 0 + n by omega),
      if_neg (show ¬buf.length - n = 0 by omega), hoffset, if_neg (not_not.mpr hsecond),
      if_pos hbeyond]
  · have hrun : ∃ ctx', downloadRun sizeBits ctx buf
        (List.replicate k .interrupted ++ .wrote n :: [.wrote (buf.length - n)]) =
          ⟨.returned (buf.length - n), ctx',
            buf.take n ++ (buf.drop (buf.length - n)).take (buf.length - n)⟩ := by
      rw [downloadRun, if_neg h, downloadLoop_interrupted]
      simp only [downloadLoop, if_neg (not_not.mpr hfirst),
        if_neg (show ¬buf.length < 0 + n by omega), if_neg (show ¬buf.length - n = 0 by omega),
        hoffset, if_neg (not_not.mpr hsecond), if_neg hbeyond, Nat.sub_self, if_true,
        drop_zero, nil_append]
      exact ⟨_, rfl⟩
    obtain ⟨ctx', hrun⟩ := hrun
    rw [ExactWrite, hrun] at hexact
    -- as many bytes as the buffer has, so a prefix of it is all of it
    have hwhole := hexact.written.eq_of_length (by
      simp only [length_append, length_take, length_drop]
      omega)
    have hcount := (hexact.ret (buf.length - n) rfl).mpr hwhole
    omega

/-- For every buffer, and any number of interruptions before the first other result: whatever the
later results are, the call is exact exactly if the byte limit refuses the buffer or the first
result is all of it. While there are only interruptions it is exact. -/
theorem exactWrite_iff (hbits : 0 < sizeBits) (ctx : Context) (buf : Bytes)
    (hbuf : buf.length < 2 ^ sizeBits) (k : Nat) (first : WriteResult)
    (hfirst : first ≠ .interrupted) (hcount : ∀ n, first = .wrote n → IsCount n buf.length) :
    ExactWrite sizeBits ctx buf (List.replicate k .interrupted) ∧
      ((∀ later, ExactWrite sizeBits ctx buf (List.replicate k .interrupted ++ first :: later)) ↔
        networkByteLimit sizeBits ctx buf.length = true ∨ first = .wrote buf.length) := by
  refine ⟨exactWrite_interrupted ctx buf k, ?_, ?_⟩
  · intro hexact
    by_contra hcond
    obtain ⟨hlimit, hcomplete⟩ := not_or.mp hcond
    cases first with
    | interrupted => exact hfirst rfl
    | failed => exact not_exactWrite_failed hbits hlimit k (hexact [])
    | wrote n =>
      obtain ⟨hle, hpos⟩ := hcount n rfl
      have hne : n ≠ buf.length := fun h => hcomplete (congrArg _ h)
      exact not_exactWrite_short hbuf hlimit k (by omega) (by omega)
        (hexact [.wrote (buf.length - n)])
  · intro hcond later
    by_cases hlimit : networkByteLimit sizeBits ctx buf.length = true
    · exact exactWrite_of_byteLimit hlimit _
    · obtain rfl := hcond.resolve_left hlimit
      exact exactWrite_of_complete hlimit k later

/-- A download without a limit that has begun. -/
def begunDownload : Context where
  file := ⟨[], 0⟩
  maxBytes := 2 ^ 32 - 1
  curBytes := 0
  bytesTransfered := 0
  byteMoveTime := 0
  shutdownSignaled := false
  cycleConnectionSignaled := false
  continuous := false

theorem exactWrite_iff_whole : ExactWrite 32 begunDownload [1, 2, 3] [.interrupted] ∧
      ∀ later, ExactWrite 32 begunDownload [1, 2, 3] (.interrupted :: .wrote 3 :: later) := by
  have hexact := @exactWrite_iff 32 (by decide) begunDownload [1, 2, 3] (by decide) 1 (.wrote 3)
    (by decide) (by
      rintro n hn
      cases hn
      decide)
  exact ⟨hexact.1, hexact.2.mpr (Or.inr rfl)⟩

/-- Two of three bytes, then one: the second `write` begins at the second byte again, and the call
returns 1. One of three bytes, then two: the second `write` reads beyond the buffer. An error: the
counter is below zero and the call goes on. -/
theorem not_exactWrite_twoThenOne :
    (downloadRun 32 begunDownload [1, 2, 3] [.wrote 2, .wrote 1]).state = .returned 1 ∧
      (downloadRun 32 begunDownload [1, 2, 3] [.wrote 2, .wrote 1]).written = [1, 2, 2] ∧
      (downloadRun 32 begunDownload [1, 2, 3] [.wrote 1, .wrote 2]).state = .outOfBounds ∧
      (downloadRun 32 begunDownload [1, 2, 3] [.failed]).state = .waiting ∧
      (downloadRun 32 begunDownload [1, 2, 3] [.failed]).ctx.curBytes = 2 ^ 32 - 1 ∧
      ¬ExactWrite 32 begunDownload [1, 2, 3] [.wrote 2, .wrote 1] := by
  refine ⟨by decide +kernel, by decide +kernel, by decide +kernel, by decide +kernel,
    by decide +kernel, fun hexact => ?_⟩
  exact absurd (WriteRun.Exact.written hexact) (by decide +kernel)

end PiksiBuildroot.Libnetwork
