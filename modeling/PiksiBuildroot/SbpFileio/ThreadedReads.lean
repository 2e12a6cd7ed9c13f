import PiksiBuildroot.Lib.Machine
import PiksiBuildroot.SbpFileio.FdCacheRuns

/-!
# Reads while the write thread runs

With threading, `write_cb` only queues a request and the write thread executes it under the lock.
`read_cb` waits for the queue to be empty before it reads, but flushes the cached `w` stream and
opens the `r` stream before it waits. A write of the same file that is still in the queue then does
not show in the reply, or closes the stream between the two halves of the read
(`reply_eq_of_reaches`). What a run has to give is fixed when a request arrives: `arrived` is what
the files hold after all requests so far, executed one after the other.
-/

namespace PiksiBuildroot.SbpFileio.ThreadedReads

open Lib Lib.Stdio FdCache List

/-- Source: `WQ_MAX_PENDING`. -/
def wqMaxPending : Nat := 256

/-- Where the main loop is in `read_cb`. -/
inductive MainPc where
  | idle
  | flushed (msg : ReadReq)
  | opened (msg : ReadReq) (theFile : OpenFile) (f : Nat)
  | sought (msg : ReadReq) (theFile : OpenFile) (f : Nat)
  | waiting (msg : ReadReq) (theFile : OpenFile) (f : Nat)
  | locked (msg : ReadReq) (theFile : OpenFile) (f : Nat)
  | hasRead (msg : ReadReq) (theFile : OpenFile) (contents : Bytes) (streamOpen : Bool)
  | done (msg : ReadReq) (theFile : OpenFile) (flushCached : Bool) (contents : Bytes)
      (streamOpen : Bool)

/-- Where the write thread is with a request. -/
inductive WriterPc where
  | idle
  | popped (msg : WriteReq)
  | locked (msg : WriteReq)
  | flushed (msg : WriteReq)
  | opened (msg : WriteReq) (r : OpenFile) (f : Nat)
  | sought (msg : WriteReq) (r : OpenFile) (f : Nat)
  | executed
  | decremented

/-- Who has the lock. -/
inductive Thread where
  | main
  | writer
  deriving DecidableEq

/-- An answered read: the reply, what it should be, and whether the stream that it was read from, if
there was one, was still open. -/
structure Answer where
  msg : ReadReq
  reply : Reply
  expected : Bytes
  streamOpen : Bool

/-- The reply has the bytes that it should have, read from an open stream. -/
def Answer.Right (a : Answer) : Prop :=
  a.reply = .readResp a.msg.sequence a.expected ∧ a.streamOpen = true

/-- The files and the cache, the queue, the lock and the two threads; and, for the statement, what
the files hold after all requests so far and the answered reads. -/
structure State where
  io : FdCache.State
  queue : List WriteReq
  pending : Nat
  lock : Option Thread
  main : MainPc
  writer : WriterPc
  arrived : Store String
  answers : List Answer

/-- The steps of the two threads. -/
inductive Action where
  | writeReq (msg : WriteReq)
  | readReq (msg : ReadReq)
  | readOpen (now : Int)
  | readSeek
  | readLock
  | readWake
  | readBytes
  | readUnlock
  | readReply
  | pop
  | lock
  | flush
  | openFile (now : Int)
  | seek
  | write
  | decrement
  | unlock

/-- A write request arrives and is queued. The counter is below its bound, else the main loop waits.
Source: `queue_file_write`. -/
def writeReq (env : Env) (s : State) (msg : WriteReq) : Option State := match s.main with
  | .idle =>
    if s.pending ≠ wqMaxPending ∧ msg.offset < env.seekLimit ∧
        msg.contents.length ≤ sbpFramingMaxPayloadSize then
      some { s with
        pending := s.pending + 1
        queue := s.queue ++ [msg]
        arrived := (directWrite env s.arrived msg).2 }
    else none
  | _ => none

/-- A read request arrives: `read_cb` up to the flush of the `w` stream. -/
def readReq (env : Env) (s : State) (msg : ReadReq) : Option State := match s.main with
  | .idle =>
    if msg.offset < env.seekLimit then
      if readDenied env msg.filename then
        some { s with main := .done msg emptyOpenFile false [] true }
      else some { s with io := flushCachedFd s.io msg.filename .w, main := .flushed msg }
    else none
  | _ => none

/-- `read_cb`: `open_file`, and the jump to `done` if it fails. -/
def readOpen (env : Env) (s : State) (now : Int) : Option State := match s.main with
  | .flushed msg =>
    let (theFile, io) := openFile env s.io msg.filename .r now
    match theFile.fp with
    | none => some { s with io := io, main := .done msg theFile true [] true }
    | some f => some { s with io := io, main := .opened msg theFile f }
  | _ => none

/-- `read_cb`: the seek. -/
def readSeek (env : Env) (s : State) : Option State := match s.main with
  | .opened msg theFile f =>
    match seekTo env s.io theFile f msg.offset with
    | none => some { s with main := .done msg theFile true [] true }
    | some io => some { s with io := io, main := .sought msg theFile f }
  | _ => none

/-- `wq_run_when_empty`: the lock is taken; if writes are pending, `wq_wait_empty` gives it up and
waits for the signal. -/
def readLock (s : State) : Option State := match s.main with
  | .sought msg theFile f =>
    if s.lock = none then
      if s.pending = 0 then some { s with lock := some .main, main := .locked msg theFile f }
      else some { s with main := .waiting msg theFile f }
    else none
  | _ => none

/-- `pthread_cond_wait` returns, with the lock. It is called once; it may return without a signal.
-/
def readWake (s : State) : Option State := match s.main with
  | .waiting msg theFile f =>
    if s.lock = none then
      some { s with lock := some .main, main := .locked msg theFile f }
    else none
  | _ => none

/-- The part of `read_cb` under the lock. -/
def readBytes (env : Env) (s : State) : Option State := match s.main with
  | .locked msg theFile f =>
    let result := readWhenEmpty env s.io theFile f msg.readlen
    some { s with
      io := result.2
      main := .hasRead msg theFile result.1 (s.io.fs.streams f).isSome }
  | _ => none

/-- `wq_run_when_empty`: the lock is given back. -/
def readUnlock (s : State) : Option State := match s.main with
  | .hasRead msg theFile contents streamOpen =>
    some { s with lock := none, main := .done msg theFile false contents streamOpen }
  | _ => none

/-- The end of `read_cb`. -/
def readReply (env : Env) (s : State) : Option State := match s.main with
  | .done msg theFile flushCached contents streamOpen =>
    let result := readDone env s.io msg theFile flushCached contents
    some { s with
      io := result.2
      main := .idle
      answers := s.answers ++ [⟨msg, result.1, directRead env s.arrived msg, streamOpen⟩] }
  | _ => none

/-- The write thread takes a request from the queue. Source: `write_thread_handler`. -/
def pop (s : State) : Option State := match s.writer, s.queue with
  | .idle, msg :: queue => some { s with queue := queue, writer := .popped msg }
  | _, _ => none

/-- The write thread takes the lock. -/
def lock (s : State) : Option State := match s.writer with
  | .popped msg =>
    if s.lock = none then some { s with lock := some .writer, writer := .locked msg } else none
  | _ => none

/-- `sbp_fileio_write` up to the flush of the `r` stream. -/
def flush (env : Env) (s : State) : Option State := match s.writer with
  | .locked msg =>
    if !env.pathValidatorCheck (filterImagesetBin env msg.filename) then
      some { s with writer := .executed }
    else some { s with
      io := flushCachedFd s.io (filterImagesetBin env msg.filename) .r
      writer := .flushed msg }
  | _ => none

/-- `sbp_fileio_write`: `open_file`. -/
def openWrite (env : Env) (s : State) (now : Int) : Option State := match s.writer with
  | .flushed msg =>
    let (r, io) := openFile env s.io (filterImagesetBin env msg.filename) .w now
    match r.fp with
    | none => some { s with io := io, writer := .executed }
    | some f => some { s with io := io, writer := .opened msg r f }
  | _ => none

/-- `sbp_fileio_write`: the seek, and the cleanup if it fails. -/
def seek (env : Env) (s : State) : Option State := match s.writer with
  | .opened msg r f =>
    match seekTo env s.io r f msg.offset with
    | none => some { s with
        io := finalizeNonCached (flushCachedFd s.io (filterImagesetBin env msg.filename) .w) r
        writer := .executed }
    | some io => some { s with io := io, writer := .sought msg r f }
  | _ => none

/-- `sbp_fileio_write` from `fwrite` on. -/
def write (env : Env) (s : State) : Option State := match s.writer with
  | .sought msg r f =>
    let io := { s.io with fs := s.io.fs.fwrite f msg.contents }
    let io := updateOffset env io r msg.contents.length .increment
    some { s with io := finalizeNonCached io r, writer := .executed }
  | _ => none

/-- Source: `wq_decrement_and_signal`. -/
def decrement (s : State) : Option State := match s.writer with
  | .executed => some { s with pending := s.pending - 1, writer := .decremented }
  | _ => none

/-- The write thread gives the lock back; the reply of the write is not followed here. -/
def unlock (s : State) : Option State := match s.writer with
  | .decremented => some { s with lock := none, writer := .idle }
  | _ => none

/-- One step of one of the threads. -/
def step (env : Env) (s : State) : Action → Option State
  | .writeReq msg => writeReq env s msg
  | .readReq msg => readReq env s msg
  | .readOpen now => readOpen env s now
  | .readSeek => readSeek env s
  | .readLock => readLock s
  | .readWake => readWake s
  | .readBytes => readBytes env s
  | .readUnlock => readUnlock s
  | .readReply => readReply env s
  | .pop => pop s
  | .lock => lock s
  | .flush => flush env s
  | .openFile now => openWrite env s now
  | .seek => seek env s
  | .write => write env s
  | .decrement => decrement s
  | .unlock => unlock s

/-- The daemon with its write thread, on some files. -/
def machine (env : Env) (disk : Disk String) : Machine State Action where
  init := ⟨.init disk, [], 0, none, .idle, .idle, (Fs.ofDisk disk).content, []⟩
  step := step env

/-! ### What holds while reads start with no write pending -/

/-- A read request is taken only while no write is pending. -/
def ReadsWhenEmpty (s : State) : Action → Prop
  | .readReq _ => s.pending = 0
  | _ => True

instance (s : State) (a : Action) : Decidable (ReadsWhenEmpty s a) := by
  cases a <;> unfold ReadsWhenEmpty <;> infer_instance

/-- The request that the write thread has taken and not yet written. -/
def WriterPc.todo : WriterPc → List WriteReq
  | popped msg | locked msg | flushed msg | opened msg _ _ | sought msg _ _ => [msg]
  | _ => []

/-- The requests of the write thread that `writes_pending` counts. -/
def WriterPc.counted : WriterPc → Nat
  | idle | decremented => 0
  | _ => 1

/-- Execute writes one after the other. -/
def directWrites (env : Env) (store : Store String) (msgs : List WriteReq) : Store String :=
  msgs.foldl (fun store msg => (directWrite env store msg).2) store

/-- What holds of the files while the write thread is at a point of a write. -/
def WriterInv (env : Env) (io : FdCache.State) (store : Store String) : WriterPc → Prop
  | .flushed msg => CacheInv env noneHeld noneOwed io store ∧
      env.pathValidatorCheck (filterImagesetBin env msg.filename) ∧
      ∀ idx, (io.fdCache idx).isFor (filterImagesetBin env msg.filename) .r = false
  | .opened msg r f => env.pathValidatorCheck (filterImagesetBin env msg.filename) ∧
      store.fopen env.perms (filterImagesetBin env msg.filename) .w = some store ∧
      ∃ st, st.buffer.mode = .w ∧ HasFile env io store (filterImagesetBin env msg.filename) r f st
  | .sought msg r f => env.pathValidatorCheck (filterImagesetBin env msg.filename) ∧
      store.fopen env.perms (filterImagesetBin env msg.filename) .w = some store ∧
      ∃ st, st.buffer.mode = .w ∧ st.pos = msg.offset ∧
        HasFile env io store (filterImagesetBin env msg.filename) r f st
  | _ => CacheInv env noneHeld noneOwed io store

/-- `read_cb` has the stream of its file, at the offset of the request. -/
def Reading (env : Env) (io : FdCache.State) (store : Store String) (msg : ReadReq)
    (theFile : OpenFile) (f : Nat) : Prop :=
  readDenied env msg.filename = false ∧ msg.offset < env.seekLimit ∧
    store.fopen env.perms msg.filename .r = some store ∧
    ∃ st, st.buffer.mode = .r ∧ st.pos = msg.offset ∧ HasFile env io store msg.filename theFile f st

/-- `read_cb` has the bytes, and its end leaves the cache as it should be. -/
def HasBytes (env : Env) (io : FdCache.State) (store : Store String) (msg : ReadReq)
    (theFile : OpenFile) (flushCached : Bool) (contents : Bytes) (streamOpen : Bool) : Prop :=
  contents = directRead env store msg ∧ streamOpen = true ∧
    CacheInv env noneHeld noneOwed (readDone env io msg theFile flushCached contents).2 store

/-- What holds of the files while the main loop is at a point of a read and no write is pending. -/
def MainInv (env : Env) (io : FdCache.State) (store : Store String) : MainPc → Prop
  | .idle => CacheInv env noneHeld noneOwed io store
  | .flushed msg => readDenied env msg.filename = false ∧ msg.offset < env.seekLimit ∧
      CacheInv env noneHeld noneOwed io store ∧
      ∀ idx, (io.fdCache idx).isFor msg.filename .w = false
  | .opened msg theFile f => readDenied env msg.filename = false ∧ msg.offset < env.seekLimit ∧
      store.fopen env.perms msg.filename .r = some store ∧
      ∃ st, st.buffer.mode = .r ∧ HasFile env io store msg.filename theFile f st
  | .sought msg theFile f | .waiting msg theFile f | .locked msg theFile f =>
    Reading env io store msg theFile f
  | .hasRead msg theFile contents streamOpen =>
    HasBytes env io store msg theFile false contents streamOpen
  | .done msg theFile flushCached contents streamOpen =>
    HasBytes env io store msg theFile flushCached contents streamOpen

/-- What holds of the two threads together: in a read, no write is pending. -/
structure Inv (env : Env) (s : State) : Prop where
  count : s.pending = s.queue.length + s.writer.counted
  fits : ∀ msg ∈ s.writer.todo ++ s.queue,
    msg.offset < env.seekLimit ∧ msg.contents.length ≤ sbpFramingMaxPayloadSize
  files : ∃ store, directWrites env store (s.writer.todo ++ s.queue) = s.arrived ∧
    ((s.main = .idle ∧ WriterInv env s.io store s.writer) ∨
      (s.pending = 0 ∧ MainInv env s.io store s.main))
  right : ∀ a ∈ s.answers, a.Right

variable {env : Env} {s s' : State}

/-- With no write pending, the write thread is between requests. -/
lemma Inv.writer_of_pending_eq_zero (h : Inv env s) (hpending : s.pending = 0) :
    s.writer = .idle ∨ s.writer = .decremented := by
  have hcount := h.count
  have hcounted : s.writer.counted = 0 := by omega
  revert hcounted
  cases s.writer <;> simp [WriterPc.counted]

/-- With no write pending, no request is left to execute. -/
lemma Inv.todo_of_pending_eq_zero (h : Inv env s) (hpending : s.pending = 0) :
    s.writer.todo ++ s.queue = [] := by
  have hcount := h.count
  have hqueue : s.queue = [] := eq_nil_of_length_eq_zero (by omega)
  rcases h.writer_of_pending_eq_zero hpending with hw | hw <;> simp [hw, hqueue, WriterPc.todo]

/-- With no write pending, the files are as all requests so far have left them. -/
lemma Inv.of_pending_eq_zero (h : Inv env s) (hpending : s.pending = 0) :
    (s.main = .idle ∧ CacheInv env noneHeld noneOwed s.io s.arrived) ∨
      MainInv env s.io s.arrived s.main := by
  obtain ⟨store, hstore, hfiles⟩ := h.files
  rw [h.todo_of_pending_eq_zero hpending] at hstore
  obtain rfl : store = s.arrived := hstore
  rcases hfiles with ⟨hmain, hinv⟩ | ⟨-, hinv⟩
  · refine .inl ⟨hmain, ?_⟩
    rcases h.writer_of_pending_eq_zero hpending with hw | hw <;> rw [hw] at hinv <;> exact hinv
  · exact .inr hinv

variable {pc : MainPc} {io : FdCache.State}

/-- In a read no write is pending, and the files are as all requests so far have left them. -/
lemma Inv.mainInv (h : Inv env s) (hmain : s.main = pc) (hpc : pc ≠ .idle) :
    s.pending = 0 ∧ MainInv env s.io s.arrived pc := by
  subst hmain
  have hpending : s.pending = 0 := by
    obtain ⟨store, -, ⟨hidle, -⟩ | ⟨hpending, -⟩⟩ := h.files
    · exact absurd hidle hpc
    · exact hpending
  rcases h.of_pending_eq_zero hpending with ⟨hidle, -⟩ | hinv
  · exact absurd hidle hpc
  · exact ⟨hpending, hinv⟩

/-- While the write thread has a request, the main loop is not in a read. -/
lemma Inv.writerInv (h : Inv env s) {pc : WriterPc} (hwriter : s.writer = pc)
    (hcounted : pc.counted = 1) :
    s.main = .idle ∧ ∃ store, directWrites env store (pc.todo ++ s.queue) = s.arrived ∧
      WriterInv env s.io store pc := by
  subst hwriter
  obtain ⟨store, hstore, ⟨hmain, hinv⟩ | ⟨hpending, -⟩⟩ := h.files
  · exact ⟨hmain, store, hstore, hinv⟩
  · have hcount := h.count
    omega

/-- A step to or within a read. -/
lemma Inv.mainStep (h : Inv env s) (hpending : s.pending = 0) (hpc : MainInv env io s.arrived pc)
    (lock : Option Thread) : Inv env { s with io := io, main := pc, lock := lock } := by
  refine ⟨h.count, h.fits, ⟨s.arrived, ?_, .inr ⟨hpending, hpc⟩⟩, h.right⟩
  rw [h.todo_of_pending_eq_zero hpending]
  rfl

/-- A step within a write. -/
lemma Inv.writerStep (h : Inv env s) {pc : WriterPc} (hwriter : s.writer = pc)
    (hcounted : pc.counted = 1) (pc' : WriterPc) (store : Store String)
    (hcounted' : pc'.counted = 1) (htodo : pc'.todo = pc.todo ∨ pc'.todo = [])
    (hpc : WriterInv env io store pc')
    (hstore : directWrites env store (pc'.todo ++ s.queue) = s.arrived) (lock : Option Thread) :
    Inv env { s with io := io, writer := pc', lock := lock } := by
  refine ⟨?_, ?_, ⟨store, hstore, .inl ⟨(h.writerInv hwriter hcounted).1, hpc⟩⟩, h.right⟩
  · have hcount := h.count
    rw [hwriter, hcounted] at hcount
    rw [hcounted', hcount]
  · intro msg hmsg
    have hfits := h.fits msg
    rw [hwriter] at hfits
    rcases htodo with htodo | htodo <;> dsimp only at hmsg <;> rw [htodo] at hmsg
    · exact hfits hmsg
    · exact hfits (mem_append_right _ hmsg)

/-! ### The steps of a read -/

/-- A read request, up to the flush of the `w` stream. -/
lemma Inv.readReq (h : Inv env s) (hpending : s.pending = 0) {msg : ReadReq}
    (hstep : readReq env s msg = some s') : Inv env s' := by
  unfold ThreadedReads.readReq at hstep
  split at hstep
  case h_2 => cases hstep
  next hmain =>
    have hcache : CacheInv env noneHeld noneOwed s.io s.arrived := by
      rcases h.of_pending_eq_zero hpending with ⟨-, hinv⟩ | hinv
      · exact hinv
      · rw [hmain] at hinv
        exact hinv
    split_ifs at hstep with hoffset hdenied
    · cases hstep
      refine h.mainStep hpending ?_ s.lock
      refine ⟨by simp [directRead, hdenied], rfl, ?_⟩
      exact hcache
    · obtain rfl := Option.some.inj hstep
      refine h.mainStep hpending ?_ s.lock
      exact ⟨by simpa using hdenied, hoffset, hcache.flushCachedFd _ _,
        hcache.not_isFor_flushCachedFd _ _⟩

variable {now : Int}

/-- Opening the `r` stream of a read. -/
lemma Inv.readOpen (h : Inv env s) (hstep : readOpen env s now = some s') : Inv env s' := by
  unfold ThreadedReads.readOpen at hstep
  split at hstep
  case h_2 => cases hstep
  next msg hmain =>
    obtain ⟨hpending, hdenied, hoffset, hcache, hslots⟩ := h.mainInv hmain (by simp)
    rcases hcache.openFile (by decide : Mode.w ≠ .r) hslots now with
      ⟨hopen, hstore⟩ | ⟨r, io, f, store, st, hopen, hstore, hmode, hfile⟩
    · simp only [hopen, emptyOpenFile] at hstep
      cases hstep
      refine h.mainStep hpending ?_ s.lock
      refine ⟨?_, rfl, ?_⟩
      · simp [directRead, hdenied, hstore]
      · simp only [readDone, updateOffset, if_true]
        exact hcache.flushCachedFd _ _
    · obtain rfl : s.arrived = store := Store.eq_of_fopen_r hstore
      simp only [hopen, hfile.handle.fp] at hstep
      cases hstep
      refine h.mainStep hpending ?_ s.lock
      exact ⟨hdenied, hoffset, hstore, st, hmode, hfile⟩

lemma Inv.readSeek (h : Inv env s) (hstep : readSeek env s = some s') : Inv env s' := by
  unfold ThreadedReads.readSeek at hstep
  split at hstep
  case h_2 => cases hstep
  next msg theFile f hmain =>
    obtain ⟨hpending, hdenied, hoffset, hstore, st, hmode, hfile⟩ := h.mainInv hmain (by simp)
    obtain ⟨io, hseek, hfile'⟩ := hfile.seekTo hoffset
    rw [hseek] at hstep
    cases hstep
    refine h.mainStep hpending ?_ s.lock
    exact ⟨hdenied, hoffset, hstore, { st with pos := msg.offset }, hmode, rfl, hfile'⟩

lemma Inv.readLock (h : Inv env s) (hstep : readLock s = some s') : Inv env s' := by
  unfold ThreadedReads.readLock at hstep
  split at hstep
  case h_2 => cases hstep
  next msg theFile f hmain =>
    obtain ⟨hpending, hinv⟩ := h.mainInv hmain (by simp)
    split_ifs at hstep
    cases hstep
    refine h.mainStep hpending ?_ (some .main)
    exact hinv

lemma Inv.readWake (h : Inv env s) (hstep : readWake s = some s') : Inv env s' := by
  unfold ThreadedReads.readWake at hstep
  split at hstep
  case h_2 => cases hstep
  next msg theFile f hmain =>
    obtain ⟨hpending, hinv⟩ := h.mainInv hmain (by simp)
    split_ifs at hstep
    cases hstep
    refine h.mainStep hpending ?_ (some .main)
    exact hinv

lemma Inv.readBytes (h : Inv env s) (hstep : readBytes env s = some s') : Inv env s' := by
  unfold ThreadedReads.readBytes at hstep
  split at hstep
  case h_2 => cases hstep
  next msg theFile f hmain =>
    obtain ⟨hpending, hdenied, hoffset, hstore, st, hmode, hpos, hfile⟩ := h.mainInv hmain (by simp)
    obtain ⟨content, hcontent⟩ := hfile.exists_content
    obtain ⟨hread, hdone⟩ := hfile.readWhenEmpty hmode hcontent (by rw [hpos]; exact hoffset) msg
    rw [hpos] at hread hdone
    cases hstep
    refine h.mainStep hpending ?_ s.lock
    refine ⟨?_, by simp [hfile.stream], ?_⟩
    · simp only [directRead, hdenied, hstore, hcontent, hread, Bool.false_eq_true, if_false]
    · rw [hread]
      exact hdone

lemma Inv.readUnlock (h : Inv env s) (hstep : readUnlock s = some s') : Inv env s' := by
  unfold ThreadedReads.readUnlock at hstep
  split at hstep
  case h_2 => cases hstep
  next msg theFile contents streamOpen hmain =>
    obtain ⟨hpending, hinv⟩ := h.mainInv hmain (by simp)
    cases hstep
    refine h.mainStep hpending ?_ none
    exact hinv

lemma Inv.readReply (h : Inv env s) (hstep : readReply env s = some s') : Inv env s' := by
  unfold ThreadedReads.readReply at hstep
  split at hstep
  case h_2 => cases hstep
  next msg theFile flushCached contents streamOpen hmain =>
    obtain ⟨hpending, hcontents, hopen, hcache⟩ := h.mainInv hmain (by simp)
    cases hstep
    have hnext := h.mainStep hpending (show MainInv env _ s.arrived .idle from hcache) s.lock
    refine ⟨hnext.count, hnext.fits, hnext.files, ?_⟩
    intro a ha
    rcases mem_append.mp ha with ha | ha
    · exact h.right a ha
    · rw [mem_singleton.mp ha, Answer.Right]
      exact ⟨by rw [← hcontents]; rfl, hopen⟩

/-! ### The steps of a write -/

lemma directWrites_cons (env : Env) (store : Store String) (msg : WriteReq) (msgs : List WriteReq) :
    directWrites env store (msg :: msgs) =
      directWrites env (directWrite env store msg).2 msgs := rfl

variable {msg : WriteReq}

/-- A write to a file that could be opened. -/
lemma directWrite_of_fopen {store : Store String}
    (hcheck : env.pathValidatorCheck (filterImagesetBin env msg.filename)) {store' : Store String}
    (hopen : store.fopen env.perms (filterImagesetBin env msg.filename) .w = some store') :
    (directWrite env store msg).2 = Function.update store' (filterImagesetBin env msg.filename)
      ((store' (filterImagesetBin env msg.filename)).map fun content =>
        writeAt content msg.offset msg.contents) := by
  simp [directWrite, hcheck, hopen]

/-- Queueing a write. -/
lemma Inv.writeReq (h : Inv env s) (hstep : writeReq env s msg = some s') : Inv env s' := by
  unfold ThreadedReads.writeReq at hstep
  split at hstep
  case h_2 => cases hstep
  next hmain =>
    split_ifs at hstep with hfits
    cases hstep
    refine ⟨?_, ?_, ?_, h.right⟩
    · have hcount := h.count
      simp only [length_append, length_singleton]
      omega
    · intro m hm
      rw [← append_assoc] at hm
      rcases mem_append.mp hm with hm | hm
      · exact h.fits m hm
      · rw [mem_singleton.mp hm]
        exact hfits.2
    · obtain ⟨store, hstore, hfiles⟩ := h.files
      refine ⟨store, ?_, .inl ⟨hmain, ?_⟩⟩
      · rw [← hstore, ← append_assoc, directWrites, foldl_append]
        rfl
      · rcases hfiles with ⟨-, hinv⟩ | ⟨hpending, hinv⟩
        · exact hinv
        · rw [hmain] at hinv
          rcases h.writer_of_pending_eq_zero hpending with hw | hw <;> rw [hw] <;> exact hinv

/-- Taking a request from the queue. -/
lemma Inv.pop (h : Inv env s) (hstep : pop s = some s') : Inv env s' := by
  unfold ThreadedReads.pop at hstep
  split at hstep
  case h_2 => cases hstep
  next msg queue hwriter hqueue =>
    cases hstep
    have hcount := h.count
    rw [hwriter, hqueue] at hcount
    refine ⟨?_, ?_, ?_, h.right⟩
    · simp only [WriterPc.counted, length_cons] at hcount ⊢
      omega
    · have hfits := h.fits
      rw [hwriter, hqueue] at hfits
      exact hfits
    · obtain ⟨store, hstore, ⟨hmain, hinv⟩ | ⟨hpending, -⟩⟩ := h.files
      · rw [hwriter] at hinv
        rw [hwriter, hqueue] at hstore
        exact ⟨store, hstore, .inl ⟨hmain, hinv⟩⟩
      · rw [hpending, length_cons] at hcount
        omega

lemma Inv.lock (h : Inv env s) (hstep : lock s = some s') : Inv env s' := by
  unfold ThreadedReads.lock at hstep
  split at hstep
  case h_2 => cases hstep
  next msg hwriter =>
    split_ifs at hstep
    cases hstep
    obtain ⟨-, store, hstore, hinv⟩ := h.writerInv hwriter rfl
    exact h.writerStep hwriter rfl (.locked msg) store rfl (.inl rfl) hinv hstore _

/-- A write, up to the flush of the `r` stream. -/
lemma Inv.flush (h : Inv env s) (hstep : flush env s = some s') : Inv env s' := by
  unfold ThreadedReads.flush at hstep
  split at hstep
  case h_2 => cases hstep
  next msg hwriter =>
    obtain ⟨-, store, hstore, hinv⟩ := h.writerInv hwriter rfl
    split_ifs at hstep with hcheck
    · cases hstep
      refine h.writerStep hwriter rfl .executed store rfl (.inr rfl) hinv ?_ s.lock
      simpa [WriterPc.todo, directWrites_cons, directWrite, hcheck] using hstore
    · obtain rfl := Option.some.inj hstep
      refine h.writerStep hwriter rfl (.flushed msg) store rfl (.inl rfl) ?_ hstore s.lock
      exact ⟨CacheInv.flushCachedFd hinv _ _, by simpa using hcheck,
        CacheInv.not_isFor_flushCachedFd hinv _ _⟩

/-- Opening the file of a write. -/
lemma Inv.openWrite (h : Inv env s) (hstep : openWrite env s now = some s') : Inv env s' := by
  unfold ThreadedReads.openWrite at hstep
  split at hstep
  case h_2 => cases hstep
  next msg hwriter =>
    obtain ⟨-, store, hstore, hcache, hcheck, hslots⟩ := h.writerInv hwriter rfl
    rcases hcache.openFile (by decide : Mode.r ≠ .w) hslots now with
      ⟨hopen, hnone⟩ | ⟨r, io, f, store', st, hopen, hsome, hmode, hfile⟩
    · simp only [hopen, emptyOpenFile] at hstep
      cases hstep
      refine h.writerStep hwriter rfl .executed store rfl (.inr rfl) hcache ?_ s.lock
      simpa [WriterPc.todo, directWrites_cons, directWrite, hcheck, hnone] using hstore
    · simp only [hopen, hfile.handle.fp] at hstep
      cases hstep
      refine h.writerStep hwriter rfl (.opened msg r f) store' rfl (.inl rfl) ?_ ?_ s.lock
      · exact ⟨hcheck, Store.fopen_fopen hsome, st, hmode, hfile⟩
      · -- the file may be new, but the write that is to come makes the same of it
        simp only [WriterPc.todo, singleton_append, directWrites_cons] at hstore ⊢
        rw [directWrite_of_fopen hcheck (Store.fopen_fopen hsome), ← hstore,
          directWrite_of_fopen hcheck hsome]

lemma Inv.seek (h : Inv env s) (hstep : seek env s = some s') : Inv env s' := by
  unfold ThreadedReads.seek at hstep
  split at hstep
  case h_2 => cases hstep
  next msg r f hwriter =>
    obtain ⟨-, store, hstore, hcheck, hopen, st, hmode, hfile⟩ := h.writerInv hwriter rfl
    have hfits : msg.offset < env.seekLimit := by
      refine (h.fits msg ?_).1
      simp [hwriter, WriterPc.todo]
    obtain ⟨io, hseek, hfile'⟩ := hfile.seekTo hfits
    rw [hseek] at hstep
    cases hstep
    refine h.writerStep hwriter rfl (.sought msg r f) store rfl (.inl rfl) ?_ hstore s.lock
    exact ⟨hcheck, hopen, { st with pos := msg.offset }, hmode, rfl, hfile'⟩

lemma Inv.write (h : Inv env s) (hstep : write env s = some s') : Inv env s' := by
  unfold ThreadedReads.write at hstep
  split at hstep
  case h_2 => cases hstep
  next msg r f hwriter =>
    obtain ⟨-, store, hstore, hcheck, hopen, st, hmode, hpos, hfile⟩ := h.writerInv hwriter rfl
    obtain ⟨hoffset, hlength⟩ := h.fits msg (by simp [hwriter, WriterPc.todo])
    obtain ⟨content, hcontent⟩ := hfile.exists_content
    have hcache := hfile.fwrite hmode hcontent (by rw [hpos]; exact hoffset) hlength
    cases hstep
    refine h.writerStep hwriter rfl .executed _ rfl (.inr rfl) hcache ?_ s.lock
    simp only [WriterPc.todo, singleton_append, directWrites_cons, nil_append] at hstore ⊢
    rw [← hstore, directWrite_of_fopen hcheck hopen, hcontent, hpos]
    rfl

lemma Inv.decrement (h : Inv env s) (hstep : decrement s = some s') : Inv env s' := by
  unfold ThreadedReads.decrement at hstep
  split at hstep
  case h_2 => cases hstep
  next hwriter =>
    obtain ⟨hmain, store, hstore, hinv⟩ := h.writerInv hwriter rfl
    cases hstep
    refine ⟨?_, ?_, ⟨store, hstore, .inl ⟨hmain, hinv⟩⟩, h.right⟩
    · have hcount := h.count
      rw [hwriter] at hcount
      simp only [WriterPc.counted] at hcount ⊢
      omega
    · have hfits := h.fits
      rwa [hwriter] at hfits

lemma Inv.unlock (h : Inv env s) (hstep : unlock s = some s') : Inv env s' := by
  unfold ThreadedReads.unlock at hstep
  split at hstep
  case h_2 => cases hstep
  next hwriter =>
    cases hstep
    obtain ⟨hcount, hfits, hfiles, hright⟩ := h
    rw [hwriter] at hcount hfits hfiles
    exact ⟨hcount, hfits, hfiles, hright⟩

/-- Every step keeps the invariant if reads start while no write is pending. -/
lemma inv_step {a : Action} (h : Inv env s) (hok : ReadsWhenEmpty s a)
    (hstep : step env s a = some s') : Inv env s' := by
  cases a with
  | writeReq msg => exact h.writeReq hstep
  | readReq msg => exact h.readReq hok hstep
  | readOpen now => exact h.readOpen hstep
  | readSeek => exact h.readSeek hstep
  | readLock => exact h.readLock hstep
  | readWake => exact h.readWake hstep
  | readBytes => exact h.readBytes hstep
  | readUnlock => exact h.readUnlock hstep
  | readReply => exact h.readReply hstep
  | pop => exact h.pop hstep
  | lock => exact h.lock hstep
  | flush => exact h.flush hstep
  | openFile now => exact h.openWrite hstep
  | seek => exact h.seek hstep
  | write => exact h.write hstep
  | decrement => exact h.decrement hstep
  | unlock => exact h.unlock hstep

lemma inv_init (env : Env) (disk : Disk String) : Inv env (machine env disk).init where
  count := rfl
  fits := by simp [machine, WriterPc.todo]
  files := ⟨(Fs.ofDisk disk).content, rfl, .inl ⟨rfl, cacheInv_init env disk⟩⟩
  right := by simp [machine]

/-- In every run in which `read_cb` is entered only while no write is pending, every read is
answered with the bytes that all requests before it, executed one after the other, have left, and
is read from a stream that is open. -/
theorem reply_eq_of_reaches (env : Env) (disk : Disk String)
    (h : ((machine env disk).restrict ReadsWhenEmpty).Reaches s) : ∀ a ∈ s.answers, a.Right := by
  have hinv := h.invariant_restrict (Inv env) (inv_init env disk)
    fun s a s' hs hok hstep => inv_step hs hok hstep
  exact hinv.right

/-- The write thread takes a request and executes it. -/
def serve : List Action := [.pop, .lock, .flush, .openFile 0, .seek, .write, .decrement, .unlock]

/-- `read_cb` without a wait. -/
def readAll (msg : ReadReq) : List Action :=
  [.readReq msg, .readOpen 0, .readSeek, .readLock, .readBytes, .readUnlock, .readReply]

/-- A write and then a read of a file, with the write executed in between. -/
def writeServeRead : List Action :=
  [.writeReq ⟨1, 0, "/data/a", [7]⟩] ++ serve ++ readAll ⟨2, 0, 9, "/data/a"⟩

theorem reply_eq_of_reaches_writeServeRead :
    ∃ s, ((machine allowAll emptyDisk).restrict ReadsWhenEmpty).Reaches s ∧
      s.answers.map Answer.reply = [.readResp 2 [7]] ∧ ∀ a ∈ s.answers, a.Right :=
  Machine.exists_reaches_and_of_run writeServeRead (by decide +kernel) fun _ hs _ =>
    reply_eq_of_reaches allowAll emptyDisk hs

/-- A write to a new file is still queued when the file is opened for reading: the open fails, and
the reply is empty although the request before it has written a byte. -/
def readOfQueuedWrite : List Action :=
  [.writeReq ⟨1, 0, "/data/a", [7]⟩, .readReq ⟨2, 0, 9, "/data/a"⟩, .readOpen 0, .readReply]

/-- The file is there and a second write to it is queued. It is executed between the two halves of
the read, and closes the stream that the read has opened. -/
def readOfClosedStream : List Action := [.writeReq ⟨1, 0, "/data/a", [7]⟩] ++ serve ++
    [.writeReq ⟨2, 0, "/data/a", [8]⟩, .readReq ⟨3, 0, 9, "/data/a"⟩, .readOpen 0, .readSeek] ++
    serve ++ [.readLock, .readBytes, .readUnlock, .readReply]

theorem reply_wrong_reached : (∃ s, (machine allowAll emptyDisk).Reaches s ∧
      ∃ a ∈ s.answers, a.reply = .readResp 2 [] ∧ a.expected = [7]) ∧
    (∃ s, (machine allowAll emptyDisk).Reaches s ∧ ∃ a ∈ s.answers, a.streamOpen = false) :=
  ⟨Machine.exists_reaches_of_run readOfQueuedWrite (by decide +kernel),
    Machine.exists_reaches_of_run readOfClosedStream (by decide +kernel)⟩

end PiksiBuildroot.SbpFileio.ThreadedReads
