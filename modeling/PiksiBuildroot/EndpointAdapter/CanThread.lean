import Mathlib.Algebra.Group.Int.Defs
import PiksiBuildroot.EndpointAdapter.Can
import PiksiBuildroot.Lib.Block

/-!
# The thread that writes to the CAN socket

`can_write_thread_handler` reads from a pipe and gives what it has read to `can_write_all`, which
sends it in frames of at most eight bytes. Its tests are for results of `read` below -1, so a read
that is interrupted or fails is taken for one of `(size_t)-1` bytes (`correct_iff`).

The run keeps, for each read, which bytes of the buffer were copied and which frames were given to
`write`; a copy from behind the buffer ends it. `intended` is what the thread is for.
-/

namespace PiksiBuildroot.EndpointAdapter.CanThread

open Lib List

/-- Source: `BUFFER_SIZE`. -/
def bufferSize : Nat := 4096

/-- The buffer that the thread reads to. Source: `pipe_read_buffer`. -/
abbrev PipeReadBuffer := Block UInt8 bufferSize

/-- Bytes that a read returns. -/
structure Chunk where
  bytes : List UInt8
  length_pos : 0 < bytes.length
  length_le : bytes.length ≤ bufferSize

/-- How `read` on the pipe returns. -/
inductive PipeRead where
  | data (chunk : Chunk)
  | closed
  | interrupted
  | failed

/-- The value that `read` returns. -/
def PipeRead.ret : PipeRead → Int
  | .data chunk => chunk.bytes.length
  | .closed => 0
  | .interrupted => -1
  | .failed => -1

/-- Whether `errno` is `EINTR`. -/
def PipeRead.eintr : PipeRead → Bool
  | .interrupted => true
  | _ => false

/-- How many bytes have just been read. -/
def PipeRead.count : PipeRead → Nat
  | .data chunk => chunk.bytes.length
  | _ => 0

/-- The buffer after a read. -/
def PipeRead.fill (buffer : PipeReadBuffer) : PipeRead → PipeReadBuffer
  | .data chunk =>
    ⟨chunk.bytes ++ buffer.toList.drop chunk.bytes.length, by
      have hlength := buffer.length_eq
      have hle := chunk.length_le
      rw [length_append, length_drop]
      omega⟩
  | _ => buffer

/-- The conversion `(size_t)i`. -/
def sizeOfSsize (i : Int) : Nat := (i % 2 ^ 32).toNat

/-- The conversion `(ssize_t)n`. -/
def ssizeOfSize (n : Nat) : Int := if n < 2 ^ 31 then n else (n : Int) - 2 ^ 32

/-- Where a call is when it returns or has to wait. -/
inductive SendEnd where
  | returned
  | waiting
  | outOfBounds
  deriving DecidableEq, Repr

/-- The sending of a chunk: the parts of the buffer that were copied, as offset and length, the
frames that were given to `write`, and the results of `write` that are left. -/
structure Sending where
  copied : List (Nat × Nat)
  frames : List CanFrame
  writes : List WriteResult
  state : SendEnd
  deriving DecidableEq

/-- The loop of `can_write`: the frames that are given to `write`, and the result that is not an
interrupt, if there is one, with the results behind it. Source: `can_write`. -/
def canWriteLoop (frame : CanFrame) :
    List WriteResult → List CanFrame × Option (WriteResult × List WriteResult)
  | [] => ([], none)
  | .interrupted :: writes =>
    ((canWriteLoop frame writes).1.cons frame, (canWriteLoop frame writes).2)
  | result :: writes => ([frame], some (result, writes))

/-- The value that `can_write` returns. Source: `can_write`. -/
def canWriteRet (frame : CanFrame) (count : Nat) : WriteResult → Int
  | .full => ssizeOfSize count
  | .failed => -1
  | _ => frame.canDlc

/-- A piece was copied and given to `write`, and then the rest was sent. -/
def Sending.after (piece : Nat × Nat) (frames : List CanFrame) (s : Sending) : Sending :=
  { s with copied := piece :: s.copied, frames := frames ++ s.frames }

lemma length_of_canWriteLoop {frame : CanFrame} {writes rest : List WriteResult}
    {result : WriteResult} (h : (canWriteLoop frame writes).2 = some (result, rest)) :
    rest.length < writes.length := by
  induction writes with
  | nil => cases h
  | cons first writes ih =>
    cases first with
    | interrupted => exact Nat.lt_succ_of_lt (ih h)
    | written | full | failed =>
      cases h
      exact Nat.lt_succ_self _

/-- The loop from an index on. Source: `can_write_all`. -/
def canWriteAllFrom (canFilter : UInt32) (buffer : PipeReadBuffer) (count bufferIndex : Nat)
    (writes : List WriteResult) : Sending :=
  if bufferIndex < count then
    match load buffer.toList bufferIndex (min 8 (count - bufferIndex)) with
    | none => ⟨[], [], writes, .outOfBounds⟩
    | some bytes =>
      let frame := canFrame canFilter bytes
      let piece := (bufferIndex, frame.canDlc)
      let frames := (canWriteLoop frame writes).1
      match _h : (canWriteLoop frame writes).2 with
      | none => ⟨[piece], frames, [], .waiting⟩
      | some (result, rest) =>
        let ret := canWriteRet frame (count - bufferIndex) result
        if ret < 0 then ⟨[piece], frames, rest, .returned⟩
        else
          (canWriteAllFrom canFilter buffer count ((bufferIndex + ret.toNat) % 2 ^ 32)
            rest).after piece frames
  else ⟨[], [], writes, .returned⟩
termination_by writes.length
decreasing_by exact length_of_canWriteLoop _h

/-- Source: `can_write_all`. -/
def canWriteAll (canFilter : UInt32) (buffer : PipeReadBuffer) (count : Nat)
    (writes : List WriteResult) : Sending :=
  canWriteAllFrom canFilter buffer count 0 writes

/-- What the thread has done for one read. -/
structure Visit where
  read : PipeRead
  copied : List (Nat × Nat)
  frames : List CanFrame

/-- Where the thread is: it waits for a read or for a write, it has ended, or it has left the
buffer. -/
inductive ThreadState where
  | reading
  | writing
  | ended
  | outOfBounds
  deriving DecidableEq, Repr

/-- A run of the thread, as far as there are results. -/
structure Run where
  visits : List Visit
  state : ThreadState

/-- A visit in front of a run. -/
def Run.cons (visit : Visit) (run : Run) : Run := { run with visits := visit :: run.visits }

/-- The sending of a chunk and, if it has returned, the rest of the run. -/
def Sending.andThen (s : Sending) (read : PipeRead) (rest : List WriteResult → Run) : Run :=
  match s.state with
  | .returned => (rest s.writes).cons ⟨read, s.copied, s.frames⟩
  | .waiting => ⟨[⟨read, s.copied, s.frames⟩], .writing⟩
  | .outOfBounds => ⟨[⟨read, s.copied, s.frames⟩], .outOfBounds⟩

/-- Source: `can_write_thread_handler`. -/
def canWriteThreadHandler (canFilter : UInt32) :
    PipeReadBuffer → List PipeRead → List WriteResult → Run
  | _, [], _ => ⟨[], .reading⟩
  | buffer, read :: reads, writes =>
    let buffer := read.fill buffer
    if read.ret = 0 then ⟨[⟨read, [], []⟩], .ended⟩
    else if read.ret < -1 ∧ read.eintr then
      (canWriteThreadHandler canFilter buffer reads writes).cons ⟨read, [], []⟩
    else if read.ret < -1 then ⟨[⟨read, [], []⟩], .ended⟩
    else
      (canWriteAll canFilter buffer (sizeOfSsize read.ret) writes).andThen read
        fun writes => canWriteThreadHandler canFilter buffer reads writes

/-! ### What the thread is for -/

/-- Consecutive pieces of eight bytes, the last of which may be shorter. -/
def pieces : List UInt8 → List (List UInt8)
  | [] => []
  | byte :: bytes => (byte :: bytes.take 7) :: pieces (bytes.drop 7)
termination_by bytes => bytes.length

/-- Send pieces in order up to the first that the socket does not take. -/
def sendPieces (canFilter : UInt32) : Nat → List (List UInt8) → List WriteResult → Sending
  | _, [], writes => ⟨[], [], writes, .returned⟩
  | offset, piece :: rest, writes =>
    let frame := canFrame canFilter piece
    match canWriteLoop frame writes with
    | (frames, none) => ⟨[(offset, piece.length)], frames, [], .waiting⟩
    | (frames, some (result, writes)) =>
      if result = .full ∨ result = .failed then
        ⟨[(offset, piece.length)], frames, writes, .returned⟩
      else
        (sendPieces canFilter (offset + piece.length) rest writes).after
          (offset, piece.length) frames

/-- Chunks are sent in pieces, an interrupted read is made again, and the thread ends when the pipe
is closed or a read fails. -/
def intended (canFilter : UInt32) : List PipeRead → List WriteResult → Run
  | [], _ => ⟨[], .reading⟩
  | .data chunk :: reads, writes =>
    (sendPieces canFilter 0 (pieces chunk.bytes) writes).andThen (.data chunk)
      fun writes => intended canFilter reads writes
  | .interrupted :: reads, writes =>
    (intended canFilter reads writes).cons ⟨.interrupted, [], []⟩
  | .closed :: _, _ => ⟨[⟨.closed, [], []⟩], .ended⟩
  | .failed :: _, _ => ⟨[⟨.failed, [], []⟩], .ended⟩

/-- The reads that the thread is to make. -/
def readsMade (canFilter : UInt32) (reads : List PipeRead) (writes : List WriteResult) :
    List PipeRead :=
  (intended canFilter reads writes).visits.map Visit.read

/-- A run that does what the thread is for, and copies no byte behind those it has just read. -/
structure Correct (canFilter : UInt32) (reads : List PipeRead) (writes : List WriteResult)
    (run : Run) : Prop where
  inBounds : run.state ≠ .outOfBounds ∧
    ∀ visit ∈ run.visits, ∀ piece ∈ visit.copied, piece.1 + piece.2 ≤ visit.read.count
  asIntended : run = intended canFilter reads writes

/-! ### Pieces -/

lemma flatten_pieces (bytes : List UInt8) : (pieces bytes).flatten = bytes := by
  fun_induction pieces bytes with
  | case1 => rfl
  | case2 byte bytes ih => rw [flatten_cons, ih, cons_append, take_append_drop]

variable {bytes : List UInt8} {canFilter : UInt32} {writes : List WriteResult}

lemma pieces_of_ne_nil (h : bytes ≠ []) : pieces bytes = bytes.take 8 :: pieces (bytes.drop 8) := by
  obtain ⟨byte, bytes, rfl⟩ := exists_cons_of_ne_nil h
  rw [pieces]
  rfl

/-- Pieces are copied from where they are in the text. -/
lemma le_of_mem_copied {offset : Nat} {ps : List (List UInt8)} {piece : Nat × Nat}
    (h : piece ∈ (sendPieces canFilter offset ps writes).copied) :
    piece.1 + piece.2 ≤ offset + ps.flatten.length := by
  induction ps generalizing offset writes with
  | nil => cases h
  | cons first ps ih =>
    rw [flatten_cons, length_append]
    have hfirst : piece = (offset, first.length) → piece.1 + piece.2 ≤
        offset + (first.length + ps.flatten.length) := by
      rintro rfl
      omega
    rw [sendPieces] at h
    split at h
    · exact hfirst (mem_singleton.mp h)
    · split_ifs at h
      · exact hfirst (mem_singleton.mp h)
      · obtain h | h := mem_cons.mp h
        · exact hfirst h
        · have := ih h
          omega

lemma sendPieces_state (canFilter : UInt32) (offset : Nat) (ps : List (List UInt8))
    (writes : List WriteResult) :
    (sendPieces canFilter offset ps writes).state ≠ .outOfBounds := by
  induction ps generalizing offset writes with
  | nil => exact SendEnd.noConfusion
  | cons first ps ih =>
    rw [sendPieces]
    split
    · exact SendEnd.noConfusion
    · split_ifs
      · exact SendEnd.noConfusion
      · exact ih _ _

/-- Behind a piece there is what follows the first eight bytes. -/
lemma drop_length_piece (bytes : List UInt8) : bytes.drop (bytes.take 8).length = bytes.drop 8 := by
  rw [length_take]
  by_cases hlong : 8 ≤ bytes.length
  · rw [Nat.min_eq_left hlong]
  · rw [drop_of_length_le (by omega), drop_of_length_le (by omega)]

/-! ### The loop over the buffer -/

variable {buffer : PipeReadBuffer}

/-- One piece is copied, written and, if that succeeds, followed by the rest. -/
lemma canWriteAllFrom_of_load {count bufferIndex : Nat} (hlt : bufferIndex < count)
    (hload : load buffer.toList bufferIndex (min 8 (count - bufferIndex)) = some bytes)
    (writes : List WriteResult) :
    canWriteAllFrom canFilter buffer count bufferIndex writes =
      match canWriteLoop (canFrame canFilter bytes) writes with
      | (frames, none) => ⟨[(bufferIndex, min 8 bytes.length)], frames, [], .waiting⟩
      | (frames, some (result, rest)) =>
        let ret := canWriteRet (canFrame canFilter bytes) (count - bufferIndex) result
        if ret < 0 then ⟨[(bufferIndex, min 8 bytes.length)], frames, rest, .returned⟩
        else
          (canWriteAllFrom canFilter buffer count ((bufferIndex + ret.toNat) % 2 ^ 32)
            rest).after (bufferIndex, min 8 bytes.length) frames := by
  rw [canWriteAllFrom, if_pos hlt, hload]
  dsimp only
  split
  · rename_i hloop
    rw [← Prod.eta (canWriteLoop _ _), hloop]
    rfl
  · rename_i result rest hloop
    rw [← Prod.eta (canWriteLoop _ _), hloop]
    rfl

variable {bufferIndex : Nat}

/-- The bytes for a frame are the next piece of what was read. -/
lemma load_piece (hbuffer : buffer.toList.take bytes.length = bytes)
    (hle : bytes.length ≤ bufferSize) (hlt : bufferIndex < bytes.length) :
    load buffer.toList bufferIndex (min 8 (bytes.length - bufferIndex)) =
      some ((bytes.drop bufferIndex).take 8) := by
  have hblock := buffer.length_eq
  have hdrop : bytes.drop bufferIndex =
      (buffer.toList.drop bufferIndex).take (bytes.length - bufferIndex) := by
    rw [← drop_take, hbuffer]
  rw [load_of_le (by omega), hdrop, take_take]

/-- Writing out a buffer sends the pieces of its bytes from the index on. -/
lemma canWriteAllFrom_eq (canFilter : UInt32) (hbuffer : buffer.toList.take bytes.length = bytes)
    (hle : bytes.length ≤ bufferSize) (hindex : bufferIndex ≤ bytes.length)
    (writes : List WriteResult) :
    canWriteAllFrom canFilter buffer bytes.length bufferIndex writes =
      sendPieces canFilter bufferIndex (pieces (bytes.drop bufferIndex)) writes := by
  -- what is left to be sent gets shorter with every piece
  induction hn : bytes.length - bufferIndex using Nat.strongRecOn
    generalizing bufferIndex writes with
  | _ n ih =>
    by_cases hlt : bufferIndex < bytes.length
    · have hsize : bufferSize = 4096 := rfl
      have hne : bytes.drop bufferIndex ≠ [] := by
        apply ne_nil_of_length_pos
        rw [length_drop]
        omega
      have hload := load_piece hbuffer hle hlt
      have hrest := drop_length_piece (bytes.drop bufferIndex)
      rw [drop_drop] at hrest
      rw [pieces_of_ne_nil hne, ← hrest]
      generalize hpiece : (bytes.drop bufferIndex).take 8 = piece at hload ⊢
      have hlength : piece.length = min 8 (bytes.length - bufferIndex) := by
        rw [← hpiece, length_take, length_drop]
      have hdlc : min 8 piece.length = piece.length := by omega
      rw [canWriteAllFrom_of_load hlt hload, sendPieces, hdlc]
      obtain ⟨frames, answer⟩ := canWriteLoop (canFrame canFilter piece) writes
      cases answer with
      | none => rfl
      | some answer =>
        obtain ⟨result, rest⟩ := answer
        have hsend : ∀ next, bufferIndex < next → next ≤ bytes.length →
            canWriteAllFrom canFilter buffer bytes.length next rest =
              sendPieces canFilter next (pieces (bytes.drop next)) rest :=
          fun next hgt hnext => ih (bytes.length - next) (by omega) hnext rest rfl
        have hframe : (canFrame canFilter piece).canDlc = piece.length := hdlc
        cases result with
        | written | interrupted =>
          have hnext : (bufferIndex + piece.length) % 2 ^ 32 = bufferIndex + piece.length := by
            omega
          simp only [canWriteRet, hframe, Int.toNat_natCast, hnext]
          rw [if_neg (by omega), hsend _ (by omega) (by omega)]
          rfl
        | full =>
          have hret : ssizeOfSize (bytes.length - bufferIndex) =
              (bytes.length - bufferIndex : Nat) := if_pos (by omega)
          have hnext : (bufferIndex + (bytes.length - bufferIndex)) % 2 ^ 32 = bytes.length := by
            omega
          simp only [canWriteRet, hret, Int.toNat_natCast, hnext]
          rw [if_neg (by omega), canWriteAllFrom, if_neg (Nat.lt_irrefl _),
            if_pos (Or.inl trivial), Sending.after, append_nil]
        | failed => rfl
    · have hnil : bytes.drop bufferIndex = [] := drop_of_length_le (by omega)
      rw [canWriteAllFrom, if_neg hlt, hnil, pieces, sendPieces]

/-- A chunk is sent in its pieces. -/
lemma canWriteAll_data (canFilter : UInt32) (buffer : PipeReadBuffer) (chunk : Chunk)
    (writes : List WriteResult) :
    canWriteAll canFilter ((PipeRead.data chunk).fill buffer)
        (sizeOfSsize (PipeRead.data chunk).ret) writes =
      sendPieces canFilter 0 (pieces chunk.bytes) writes := by
  have hle := chunk.length_le
  have hsize : bufferSize = 4096 := rfl
  have hcount : sizeOfSsize (PipeRead.data chunk).ret = chunk.bytes.length := by
    change ((chunk.bytes.length : Int) % 2 ^ 32).toNat = _
    omega
  have hbuffer : ((PipeRead.data chunk).fill buffer).toList.take chunk.bytes.length =
      chunk.bytes := take_left' rfl
  rw [canWriteAll, hcount, canWriteAllFrom_eq canFilter hbuffer hle (Nat.zero_le _), drop_zero]

/-! ### Reads that return -1 -/

variable {read : PipeRead}

/-- After such a read the first eight bytes of the buffer are copied. -/
lemma mem_copied_of_ret (hret : read.ret = -1) (writes : List WriteResult) :
    (0, 8) ∈ (canWriteAll canFilter buffer (sizeOfSsize read.ret) writes).copied := by
  have hcount : sizeOfSsize read.ret = 2 ^ 32 - 1 := by
    rw [hret]
    rfl
  have hblock := buffer.length_eq
  have hsize : bufferSize = 4096 := rfl
  have hload : load buffer.toList 0 (min 8 (2 ^ 32 - 1 - 0)) = some (buffer.toList.take 8) :=
    load_of_le (by omega)
  have hpiece : min 8 (buffer.toList.take 8).length = 8 := by
    rw [length_take]
    omega
  rw [hcount, canWriteAll, canWriteAllFrom_of_load (by decide) hload, hpiece]
  split
  · exact mem_singleton_self _
  · dsimp only
    split_ifs
    · exact mem_singleton_self _
    · exact mem_cons_self

variable {s : Sending} {visit : Visit} {reads : List PipeRead}

/-- The visits of a run that begins with a sending. -/
lemma Sending.mem_andThen {rest : List WriteResult → Run}
    (h : visit ∈ (s.andThen read rest).visits) :
    visit = ⟨read, s.copied, s.frames⟩ ∨ visit ∈ (rest s.writes).visits := by
  unfold Sending.andThen at h
  split at h
  · exact mem_cons.mp h
  · exact Or.inl (mem_singleton.mp h)
  · exact Or.inl (mem_singleton.mp h)

lemma Sending.head_mem_andThen (s : Sending) (read : PipeRead) (rest : List WriteResult → Run) :
    ⟨read, s.copied, s.frames⟩ ∈ (s.andThen read rest).visits := by
  unfold Sending.andThen
  split
  · exact mem_cons_self
  · exact mem_singleton_self _
  · exact mem_singleton_self _

lemma Sending.andThen_congr {rest rest' : List WriteResult → Run}
    (h : s.state = .returned → rest s.writes = rest' s.writes) :
    s.andThen read rest = s.andThen read rest' := by
  unfold Sending.andThen
  split
  · rename_i hstate
    rw [h hstate]
  · rfl
  · rfl

lemma handler_data (canFilter : UInt32) (buffer : PipeReadBuffer) (chunk : Chunk)
    (reads : List PipeRead) (writes : List WriteResult) :
    canWriteThreadHandler canFilter buffer (.data chunk :: reads) writes =
      (sendPieces canFilter 0 (pieces chunk.bytes) writes).andThen (.data chunk)
        fun writes => canWriteThreadHandler canFilter ((PipeRead.data chunk).fill buffer) reads
          writes := by
  have hret : (PipeRead.data chunk).ret = chunk.bytes.length := rfl
  have hpos := chunk.length_pos
  rw [canWriteThreadHandler, if_neg (by omega), if_neg (by omega), if_neg (by omega),
    canWriteAll_data]

lemma handler_of_ret (canFilter : UInt32) (buffer : PipeReadBuffer) (hret : read.ret = -1)
    (reads : List PipeRead) (writes : List WriteResult) :
    canWriteThreadHandler canFilter buffer (read :: reads) writes =
      (canWriteAll canFilter (read.fill buffer) (sizeOfSsize read.ret) writes).andThen read
        fun writes => canWriteThreadHandler canFilter (read.fill buffer) reads writes := by
  rw [canWriteThreadHandler, if_neg (by omega), if_neg (by omega), if_neg (by omega)]

lemma copied_of_ret (h : visit ∈ (canWriteThreadHandler canFilter buffer reads writes).visits)
    (hret : visit.read.ret = -1) : (0, 8) ∈ visit.copied := by
  induction reads generalizing buffer writes with
  | nil => cases h
  | cons read reads ih =>
    cases read with
    | data chunk =>
      rw [handler_data] at h
      obtain rfl | h := Sending.mem_andThen h
      · exact absurd hret (by simp only [PipeRead.ret]; omega)
      · exact ih h
    | closed =>
      obtain rfl := mem_singleton.mp h
      cases hret
    | interrupted | failed =>
      obtain rfl | h := Sending.mem_andThen h
      · exact mem_copied_of_ret rfl writes
      · exact ih h

lemma handler_eq_intended
    (h : ∀ visit ∈ (intended canFilter reads writes).visits, visit.read.ret ≠ -1) :
    canWriteThreadHandler canFilter buffer reads writes = intended canFilter reads writes := by
  induction reads generalizing buffer writes with
  | nil => rfl
  | cons read reads ih =>
    cases read with
    | data chunk =>
      rw [intended] at h ⊢
      rw [handler_data]
      apply Sending.andThen_congr
      intro hstate
      apply ih
      intro visit hvisit
      apply h
      simp only [Sending.andThen, hstate]
      exact mem_cons_of_mem _ hvisit
    | closed => rfl
    | interrupted | failed => exact absurd rfl (h _ mem_cons_self)

/-- The intended thread copies only bytes that were read. -/
lemma intended_inBounds (canFilter : UInt32) (reads : List PipeRead)
    (writes : List WriteResult) :
    (intended canFilter reads writes).state ≠ .outOfBounds ∧
      ∀ visit ∈ (intended canFilter reads writes).visits, ∀ piece ∈ visit.copied,
        piece.1 + piece.2 ≤ visit.read.count := by
  induction reads generalizing writes with
  | nil => exact ⟨ThreadState.noConfusion, fun visit h => absurd h not_mem_nil⟩
  | cons read reads ih =>
    cases read with
    | data chunk =>
      have hstate := sendPieces_state canFilter 0 (pieces chunk.bytes) writes
      rw [intended]
      constructor
      · unfold Sending.andThen
        split
        · exact (ih _).1
        · exact ThreadState.noConfusion
        · rename_i hout
          exact absurd hout hstate
      · intro visit hvisit piece hpiece
        obtain rfl | hvisit := Sending.mem_andThen hvisit
        · have hle := le_of_mem_copied hpiece
          rwa [flatten_pieces, Nat.zero_add] at hle
        · exact (ih _).2 visit hvisit piece hpiece
    | interrupted =>
      refine ⟨(ih writes).1, fun visit hvisit piece hpiece => ?_⟩
      obtain rfl | hvisit := mem_cons.mp hvisit
      · cases hpiece
      · exact (ih writes).2 visit hvisit piece hpiece
    | closed | failed =>
      refine ⟨ThreadState.noConfusion, fun visit hvisit piece hpiece => ?_⟩
      obtain rfl := mem_singleton.mp hvisit
      cases hpiece

/-- For every buffer and all results of the reads and the writes: the thread does what it is for
exactly if none of the reads that it is to make returns -1. -/
theorem correct_iff (canFilter : UInt32) (buffer : PipeReadBuffer) (reads : List PipeRead)
    (writes : List WriteResult) :
    Correct canFilter reads writes (canWriteThreadHandler canFilter buffer reads writes) ↔
      ∀ read ∈ readsMade canFilter reads writes, read.ret ≠ -1 := by
  constructor
  · intro h read hread hret
    obtain ⟨visit, hvisit, rfl⟩ := mem_map.mp hread
    rw [← h.asIntended] at hvisit
    have hle := h.inBounds.2 visit hvisit (0, 8) (copied_of_ret hvisit hret)
    have hcount : visit.read.count = 0 := by
      cases hread : visit.read with
      | data chunk =>
        rw [hread] at hret
        exact absurd hret (by simp only [PipeRead.ret]; omega)
      | closed | interrupted | failed => rfl
    omega
  · intro h
    have heq := @handler_eq_intended canFilter writes buffer reads fun visit hvisit =>
      h visit.read (mem_map_of_mem hvisit)
    exact ⟨heq ▸ intended_inBounds canFilter reads writes, heq⟩

/-- A buffer of zeros. -/
def zeroBuffer : PipeReadBuffer := ⟨List.replicate bufferSize 0, length_replicate⟩

/-- The first read is interrupted: eight bytes of the buffer are sent although none was read. -/
theorem not_correct_interrupted :
    ∃ visit ∈ (canWriteThreadHandler 0x100 zeroBuffer [.interrupted] [.written]).visits,
      visit.read.count = 0 ∧ (0, 8) ∈ visit.copied ∧ ¬Correct 0x100 [.interrupted] [.written]
          (canWriteThreadHandler 0x100 zeroBuffer [.interrupted] [.written]) := by
  have hrun := handler_of_ret 0x100 zeroBuffer (show PipeRead.interrupted.ret = -1 from rfl) []
    [.written]
  have hcopied := @mem_copied_of_ret 0x100 (PipeRead.interrupted.fill zeroBuffer) .interrupted rfl
    [.written]
  refine ⟨_, Sending.head_mem_andThen _ _ _, rfl, hcopied, fun hcorrect => ?_⟩
  have hle := hcorrect.inBounds.2 _ (Sending.head_mem_andThen _ _ _) _ hcopied
  exact absurd hle (by decide)

end PiksiBuildroot.EndpointAdapter.CanThread
