import Mathlib.Data.List.TakeWhile
import PiksiBuildroot.Lib.Ledger
import PiksiBuildroot.Lib.Machine

/-!
# Descriptors of a pipeline

A pipeline of commands keeps the descriptor that the next process reads from in `_fd_stdin`, and the
ones that earlier processes read from in an array of 16 entries, which `destroy` closes up to the
first -1. The array is initialised with `{-1}`, which sets its first entry only: the others are 0.

So if the first process was started before any file was opened, `destroy` closes nothing but
`_fd_stdin`. If a file was opened first, there is no -1 and `destroy` goes on to close descriptor 0.
`wait` closes the output of its process and leaves its number in `_fd_stdin`, so `destroy` closes
it again, and a `fork` that fails leaves both ends of the pipe open. For which histories the log of
the descriptors, a `Ledger`, is balanced after `destroy` is `balanced_destroy`.
-/

namespace PiksiBuildroot.Libpiksi.Pipeline

open Lib Ledger List Option

/-- Source: `COUNT_OF(_closeable_fds)`. -/
def closeableCount : Nat := 16

/-- Source: `sizeof(stdout_buffer)`. -/
def stdoutSize : Nat := 4096

/-- Source: `pipeline_t`. The text in `stdoutBuffer` is without its terminator. -/
structure State where
  stdoutBuffer : List UInt8
  exitCode : Int
  filename : Option String
  fdStdin : Int
  procPath : Option String
  procArgs : Option (List String)
  isNil : Bool
  closeableFds : List Int
  closeableIdx : Nat

/-- The array `{-1}`: what the initialiser does not name is zero. -/
def closeableInit : List Int := -1 :: List.replicate (closeableCount - 1) 0

/-- Source: `create_pipeline`. -/
def createPipeline : State where
  stdoutBuffer := []
  exitCode := 1 -- EXIT_FAILURE
  filename := none
  fdStdin := -1
  procPath := none
  procArgs := none
  isNil := false
  closeableFds := closeableInit
  closeableIdx := 0

/-- The results of `pipe` and `fork` in the parent, with the read side and the write side. -/
inductive Spawn where
  | noPipe
  | noFork (readSide writeSide : Nat)
  | started (readSide writeSide : Nat)
  deriving DecidableEq, Repr

/-- The descriptors that `pipe` returned. -/
def Spawn.fds : Spawn → List Int
  | .noPipe => []
  | .noFork r w => [(r : Int), (w : Int)]
  | .started r w => [(r : Int), (w : Int)]

/-- Source: `_run_with_stdin_file` in the parent: what is stored at `stdout_pipe_fd` if it returns
0, and what was done to descriptors. -/
def runWithStdinFile : Spawn → Option Nat × List (Entry Int)
  | .noPipe => (none, [])
  | .noFork r w => (none, [.acquire r, .acquire w])
  | .started r w => (some r, [.acquire r, .acquire w, .release w])

/-- What happened to a pipeline: a file was opened, a process was started by `pipe` or by `wait`, or
`pipe` or `fork` failed when one was to be started. -/
inductive Event where
  | file
  | piped
  | awaited
  | noPipe
  | noFork
  deriving DecidableEq, Repr

/-- A start of a process; `ok` is what it is if it succeeds. -/
def Spawn.event (ok : Event) : Spawn → Event
  | .noPipe => .noPipe
  | .noFork _ _ => .noFork
  | .started _ _ => ok

/-- The parent process: the pipeline, the log of its descriptors, and what happened so far. -/
structure Parent where
  r : State
  log : List (Entry Int)
  history : List Event

/-- The part that `pipeline_pipe` and `pipeline_wait` share: the process has been run, and its input
is recorded in the array, whether it was started or not. A failed assertion is `none`. -/
def recordProcess (r : State) (outFd : Option Nat) : Option State :=
  if r.closeableIdx < closeableCount then
    let r := { r with
      closeableFds := r.closeableFds.set r.closeableIdx r.fdStdin
      closeableIdx := r.closeableIdx + 1 }
    match outFd with
    | none => some { r with isNil := true }
    | some fd => some { r with fdStdin := fd, procPath := none, procArgs := none }
  else none

/-- Source: `pipeline_cat`. -/
def pipelineCat (filename : Option String) (s : Parent) : Parent :=
  if s.r.isNil then s else { s with r := { s.r with filename := filename } }

/-- Source: `pipeline_pipe`, with the results of `open` and of the start of a process. -/
def pipelinePipe (opened : Option Nat) (spawn : Spawn) (s : Parent) : Option Parent :=
  if s.r.isNil then some s
  else if s.r.filename.isSome then
    match opened with
    | none => some { s with r := { s.r with isNil := true } }
    | some fd => some {
        r := { s.r with filename := none, fdStdin := fd }
        log := s.log ++ [.acquire (fd : Int)]
        history := s.history ++ [.file] }
  else if s.r.procPath.isSome then
    let (outFd, calls) := runWithStdinFile spawn
    (recordProcess s.r outFd).map fun r =>
      { r := r, log := s.log ++ calls, history := s.history ++ [spawn.event .piped] }
  else some { s with r := { s.r with isNil := true } }

/-- Source: `pipeline_call`. -/
def pipelineCall (procPath : Option String) (argv : Option (List String)) (s : Parent) : Parent :=
  if s.r.isNil then s else { s with r := { s.r with procPath := procPath, procArgs := argv } }

/-- The loop of `pipeline_wait` over the results of `read`; an error is a result without bytes. -/
def readOutput (output : List UInt8) : List (List UInt8) → List UInt8
  | [] => output
  | bytes :: reads =>
    if stdoutSize ≤ output.length ∨ bytes = [] then output
    else readOutput (output ++ bytes.take (stdoutSize - output.length)) reads

/-- Source: `pipeline_wait`, with the results of the start of the process, of the reads of its
output and of `wait`. -/
def pipelineWait (spawn : Spawn) (reads : List (List UInt8)) (status : Int) (s : Parent) :
    Option Parent :=
  if s.r.isNil then some s
  else
    let (outFd, calls) := runWithStdinFile spawn
    (recordProcess s.r outFd).map fun r =>
      match outFd with
      | none => { r := r, log := s.log ++ calls, history := s.history ++ [spawn.event .awaited] }
      | some fd => {
          r := { r with
            -- the last byte of a full buffer makes room for the terminator
            stdoutBuffer := (readOutput [] reads).take (stdoutSize - 1)
            exitCode := status }
          log := s.log ++ calls ++ [.release (fd : Int)]
          history := s.history ++ [spawn.event .awaited] }

/-- The descriptors that `pipeline_destroy` closes, in order. -/
def closedByDestroy (r : State) : List Int :=
  (if 0 ≤ r.fdStdin then [r.fdStdin] else []) ++ r.closeableFds.takeWhile (· ≠ -1)

/-- Source: `pipeline_destroy`: the log of the descriptors after it. -/
def pipelineDestroy (s : Parent) : List (Entry Int) := s.log ++ (closedByDestroy s.r).map .release

/-- A step of the pipeline with the results of the system calls that it may make. -/
inductive Step where
  | cat (filename : Option String)
  | pipe (opened : Option Nat) (spawn : Spawn)
  | call (procPath : Option String) (argv : Option (List String))
  | wait (spawn : Spawn) (reads : List (List UInt8)) (status : Int)

/-- The descriptors that the system calls of a step return. -/
def Step.returned : Step → List Int
  | .cat _ => []
  | .pipe opened spawn => (opened.toList.map Int.ofNat) ++ spawn.fds
  | .call _ _ => []
  | .wait spawn _ _ => spawn.fds

/-- The descriptors of the pipeline that are open. -/
def Parent.openFds (s : Parent) : List Int := (after s.log).getD []

/-- A system call returns descriptors that are not open. -/
def Possible (s : Parent) (step : Step) : Prop := (step.returned ++ s.openFds).Nodup

instance (s : Parent) (step : Step) : Decidable (Possible s step) :=
  inferInstanceAs (Decidable (List.Nodup _))

/-- A pipeline that any steps are taken on. -/
def machine : Machine Parent Step := Machine.restrict
    { init := ⟨createPipeline, [], []⟩
      step := fun s step =>
        match step with
        | .cat filename => some (pipelineCat filename s)
        | .pipe opened spawn => pipelinePipe opened spawn s
        | .call procPath argv => some (pipelineCall procPath argv s)
        | .wait spawn reads status => pipelineWait spawn reads status s }
    Possible

/-! ## What the history says about the descriptors -/

/-- A descriptor was obtained. -/
def Event.isObtained : Event → Bool
  | .file | .piped | .awaited => true
  | .noPipe | .noFork => false

/-- A descriptor was obtained and left open. -/
def Event.isKept : Event → Bool
  | .file | .piped => true
  | .awaited | .noPipe | .noFork => false

/-- A process was started. -/
def Event.isStarted : Event → Bool
  | .piped | .awaited => true
  | .file | .noPipe | .noFork => false

/-- A process was to be started, but was not. -/
def Event.isFailed : Event → Bool
  | .noPipe | .noFork => true
  | .file | .piped | .awaited => false

/-- The event that `_fd_stdin` is from. -/
def lastObtained (history : List Event) : Option Event := (history.filter Event.isObtained).getLast?

/-- The array of recorded descriptors, read from the history. -/
structure Recorded (r : State) (history : List Event) : Prop where
  length_fds : r.closeableFds.length = closeableCount
  idx_eq : r.closeableIdx = history.countP Event.isStarted + history.countP Event.isFailed
  fds_init : r.closeableIdx = 0 → r.closeableFds = closeableInit
  /-- The initial -1 is replaced by another unless a file was opened first. -/
  head_fds : history.head? ≠ some .file → r.closeableFds.head? = some (-1)
  fds_nonneg : history.head? = some .file → 0 < r.closeableIdx → ∀ fd ∈ r.closeableFds, 0 ≤ fd
  /-- As long as the array is not full it ends in a zero. -/
  last_fds : r.closeableIdx < closeableCount → r.closeableFds.getLast? = some 0
  failed : (∃ e ∈ history, e.isFailed = true) → r.isNil = true ∧ r.fdStdin ∈ r.closeableFds

/-- The open descriptors and `_fd_stdin`, read from the history. -/
structure Books (s : Parent) (held : List Int) : Prop where
  after : after s.log = some held
  nodup : held.Nodup
  /-- The output of a process started by `wait` is closed; both ends of a pipe without a process
  stay open. -/
  length_held : held.length = s.history.countP Event.isKept + 2 * s.history.count .noFork
  stdin_neg : lastObtained s.history = none → s.r.fdStdin = -1
  stdin_nonneg : lastObtained s.history ≠ none → 0 ≤ s.r.fdStdin
  stdin_mem : .noFork ∉ s.history → lastObtained s.history ≠ none →
    (s.r.fdStdin ∈ held ↔ lastObtained s.history ≠ some .awaited)
  recorded : Recorded s.r s.history

lemma books_init : Books ⟨createPipeline, [], []⟩ [] where
  after := rfl
  nodup := nodup_nil
  length_held := rfl
  stdin_neg _ := rfl
  stdin_nonneg h := absurd rfl h
  stdin_mem _ h := absurd rfl h
  recorded := {
    length_fds := rfl
    idx_eq := rfl
    fds_init := fun _ => rfl
    head_fds := fun _ => rfl
    fds_nonneg := fun h => absurd h (by simp)
    last_fds := fun _ => rfl
    failed := fun h => absurd h (by simp) }

variable {s : Parent} {held : List Int} {r : State} {history : List Event} {e : Event}

/-- The books do not change with what is staged, and a pipeline may become nil. -/
lemma Books.congr (h : Books s held) (hstdin : r.fdStdin = s.r.fdStdin)
    (hfds : r.closeableFds = s.r.closeableFds) (hidx : r.closeableIdx = s.r.closeableIdx)
    (hnil : s.r.isNil = true → r.isNil = true) :
    Books { s with r := r } held where
  after := h.after
  nodup := h.nodup
  length_held := h.length_held
  stdin_neg := hstdin ▸ h.stdin_neg
  stdin_nonneg := hstdin ▸ h.stdin_nonneg
  stdin_mem := hstdin ▸ h.stdin_mem
  recorded := {
    length_fds := hfds ▸ h.recorded.length_fds
    idx_eq := hidx ▸ h.recorded.idx_eq
    fds_init := hfds ▸ hidx ▸ h.recorded.fds_init
    head_fds := hfds ▸ h.recorded.head_fds
    fds_nonneg := hfds ▸ hidx ▸ h.recorded.fds_nonneg
    last_fds := hfds ▸ hidx ▸ h.recorded.last_fds
    failed := fun hfailed =>
      ⟨hnil (h.recorded.failed hfailed).1, hfds ▸ hstdin ▸ (h.recorded.failed hfailed).2⟩ }

lemma lastObtained_append_obtained (he : e.isObtained = true) :
    lastObtained (history ++ [e]) = some e := by
  simp [lastObtained, filter_append, he]

lemma lastObtained_append_failed (he : e.isObtained = false) :
    lastObtained (history ++ [e]) = lastObtained history := by
  simp [lastObtained, filter_append, he]

lemma countP_isKept_of_lastObtained (h : lastObtained history = none) :
    history.countP Event.isKept = 0 := by
  rw [lastObtained, getLast?_eq_none_iff, filter_eq_nil_iff] at h
  refine countP_eq_zero.mpr fun e he hkept => h e he ?_
  cases e <;> simp [Event.isKept, Event.isObtained] at hkept ⊢

lemma lastObtained_ne_none (hmem : e ∈ history) (he : e.isObtained = true) :
    lastObtained history ≠ none := by
  intro h
  rw [lastObtained, getLast?_eq_none_iff, filter_eq_nil_iff] at h
  exact h e hmem he

/-- As long as the pipeline is not nil, no process failed. -/
lemma Books.not_failed (h : Books s held) (hnil : ¬s.r.isNil = true) (he : e.isFailed = false) :
    ¬∃ e' ∈ s.history ++ [e], e'.isFailed = true := by
  rintro ⟨e', hmem, he'⟩
  rcases mem_append.mp hmem with hmem | hmem
  · exact hnil (h.recorded.failed ⟨e', hmem, he'⟩).1
  · rw [mem_singleton.mp hmem, he] at he'
    simp at he'

variable {fd : Nat}

/-- A file is opened. -/
lemma Books.openFile (h : Books s held) (hnil : ¬s.r.isNil = true) (hfd : (fd : Int) ∉ held) :
    Books { r := { s.r with filename := none, fdStdin := fd }
            log := s.log ++ [.acquire (fd : Int)]
            history := s.history ++ [.file] } ((fd : Int) :: held) where
  after := by rw [after_append h.after]; rfl
  nodup := nodup_cons.mpr ⟨hfd, h.nodup⟩
  length_held := by
    simp only [length_cons, h.length_held, countP_append, count_append]
    simp [Event.isKept]
    omega
  stdin_neg hlast := by rw [lastObtained_append_obtained rfl] at hlast; simp at hlast
  stdin_nonneg _ := Int.natCast_nonneg _
  stdin_mem _ _ := by
    rw [lastObtained_append_obtained rfl]
    simp
  recorded := {
    length_fds := h.recorded.length_fds
    idx_eq := by
      simp only [h.recorded.idx_eq, countP_append]
      simp [Event.isStarted, Event.isFailed]
    fds_init := h.recorded.fds_init
    head_fds := by
      intro hhead
      refine h.recorded.head_fds fun hfile => hhead ?_
      simp [hfile]
    fds_nonneg := by
      intro hhead hidx
      refine h.recorded.fds_nonneg ?_ hidx
      -- a process was already recorded, so this is not the first event
      rcases hhistory : s.history with _ | ⟨e, history⟩
      · have hcount := h.recorded.idx_eq
        rw [hhistory] at hcount
        exact absurd hcount (by simpa using Nat.pos_iff_ne_zero.mp hidx)
      · rw [hhistory] at hhead
        simpa using hhead
    last_fds := h.recorded.last_fds
    failed := fun hfailed => absurd hfailed (h.not_failed hnil rfl) }

lemma head?_append_eq_file_iff (he : e ≠ .file) :
    (history ++ [e]).head? = some .file ↔ history.head? = some .file := by
  cases history with
  | nil => simp [he]
  | cons first history => simp

/-- The first process is run before a file is opened, and its input is -1. -/
lemma Books.stdin_of_first (h : Books s held) (hidx : s.r.closeableIdx = 0)
    (hhead : s.history.head? ≠ some .file) : s.r.fdStdin = -1 := by
  rcases hhistory : s.history with _ | ⟨e, history⟩
  · exact h.stdin_neg (by rw [hhistory]; rfl)
  · -- an event other than a file is a process
    have hcount := h.recorded.idx_eq
    rw [hidx, hhistory, countP_cons, countP_cons] at hcount
    rw [hhistory] at hhead
    cases e <;> simp [Event.isStarted, Event.isFailed] at hcount hhead <;> omega

lemma Books.stdin_of_file (h : Books s held) (hhead : s.history.head? = some .file) :
    0 ≤ s.r.fdStdin :=
  h.stdin_nonneg (lastObtained_ne_none (mem_of_head? hhead) rfl)

lemma Books.head?_set (h : Books s held) (hhead : s.history.head? ≠ some .file) :
    (s.r.closeableFds.set s.r.closeableIdx s.r.fdStdin).head? = some (-1) := by
  rcases Nat.eq_zero_or_pos s.r.closeableIdx with hidx | hidx
  · rw [h.recorded.fds_init hidx, hidx, h.stdin_of_first hidx hhead]
    rfl
  · rw [head?_eq_getElem?, getElem?_set_ne (by omega), ← head?_eq_getElem?]
    exact h.recorded.head_fds hhead

lemma Books.nonneg_set (h : Books s held) (hhead : s.history.head? = some .file) :
    ∀ fd ∈ s.r.closeableFds.set s.r.closeableIdx s.r.fdStdin, 0 ≤ fd := by
  have hstdin := h.stdin_of_file hhead
  intro fd hfd
  rcases Nat.eq_zero_or_pos s.r.closeableIdx with hidx | hidx
  · rw [h.recorded.fds_init hidx, hidx, closeableInit, set_cons_zero] at hfd
    rcases mem_cons.mp hfd with rfl | hfd
    · exact hstdin
    · exact Int.le_of_eq (eq_of_mem_replicate hfd).symm
  · rcases mem_or_eq_of_mem_set hfd with hfd | rfl
    · exact h.recorded.fds_nonneg hhead hidx fd hfd
    · exact hstdin

lemma Books.getLast?_set (h : Books s held) (hidx : s.r.closeableIdx + 1 < closeableCount) :
    (s.r.closeableFds.set s.r.closeableIdx s.r.fdStdin).getLast? = some 0 := by
  have hlast := h.recorded.last_fds (by omega)
  have hlength := h.recorded.length_fds
  rw [getLast?_eq_getElem?] at hlast ⊢
  rw [length_set, getElem?_set_ne (by omega)]
  exact hlast

variable {outFd : Option Nat}

lemma recordProcess_eq_some {r r' : State} (h : recordProcess r outFd = some r') :
    r.closeableIdx < closeableCount ∧
      r'.closeableFds = r.closeableFds.set r.closeableIdx r.fdStdin ∧
      r'.closeableIdx = r.closeableIdx + 1 ∧
      r'.fdStdin = outFd.elim r.fdStdin Nat.cast ∧ (outFd = none → r'.isNil = true) := by
  unfold recordProcess at h
  split_ifs at h with hidx
  cases outFd with
  | none =>
    cases h
    exact ⟨hidx, rfl, rfl, rfl, fun _ => rfl⟩
  | some fd =>
    cases h
    exact ⟨hidx, rfl, rfl, rfl, fun hnone => absurd hnone (some_ne_none fd)⟩

/-- The input of a process that is run is recorded, whether it is started or not. -/
lemma Books.record (h : Books s held) (hr : recordProcess s.r outFd = some r) (hfile : e ≠ .file)
    (hfailed : (∃ e' ∈ s.history ++ [e], e'.isFailed = true) → outFd = none) :
    Recorded r (s.history ++ [e]) := by
  have hlength := h.recorded.length_fds
  have hone : [e].countP Event.isStarted + [e].countP Event.isFailed = 1 := by
    cases e <;> simp [Event.isStarted, Event.isFailed] at hfile ⊢
  obtain ⟨hidx, hfds, hidx', hstdin, hnil⟩ := recordProcess_eq_some hr
  refine ⟨by rw [hfds, length_set, hlength], ?_, fun hzero => by omega, ?_, ?_, ?_, ?_⟩
  · rw [hidx', h.recorded.idx_eq, countP_append, countP_append]
    omega
  · rw [Ne, head?_append_eq_file_iff hfile, hfds]
    exact h.head?_set
  · rw [head?_append_eq_file_iff hfile, hfds]
    exact fun hhead _ => h.nonneg_set hhead
  · rw [hidx', hfds]
    exact h.getLast?_set
  · intro hmem
    obtain rfl := hfailed hmem
    refine ⟨hnil rfl, ?_⟩
    rw [hstdin, hfds]
    exact mem_set (hlength ▸ hidx) _

variable {log : List (Entry Int)}

/-- A process is not started. -/
lemma Books.fail {held held' : List Int} (h : Books s held) (hr : recordProcess s.r none = some r)
    (he : e.isFailed = true) (hafter : Ledger.after log = some held') (hnodup : held'.Nodup)
    (hlength : held'.length = held.length + 2 * [e].count .noFork)
    (hsame : e = .noPipe → held' = held) :
    Books { r := r, log := log, history := s.history ++ [e] } held' := by
  have hfile : e ≠ .file := by rintro rfl; simp [Event.isFailed] at he
  have hlast : lastObtained (s.history ++ [e]) = lastObtained s.history :=
    lastObtained_append_failed (by cases e <;> simp [Event.isFailed, Event.isObtained] at he ⊢)
  have hkept : [e].countP Event.isKept = 0 := by
    cases e <;> simp [Event.isFailed, Event.isKept] at he ⊢
  have hrecorded := h.record hr hfile fun _ => rfl
  have hstdin : r.fdStdin = s.r.fdStdin := (recordProcess_eq_some hr).2.2.2.1
  refine ⟨hafter, hnodup, ?_, ?_, ?_, ?_, hrecorded⟩
  · rw [hlength, h.length_held, countP_append, count_append, hkept]
    omega
  · rw [hlast, hstdin]
    exact h.stdin_neg
  · rw [hlast, hstdin]
    exact h.stdin_nonneg
  · intro hfork
    simp only [mem_append, mem_singleton, not_or] at hfork
    have hpipe : e = .noPipe := by
      cases e <;> simp [Event.isFailed] at he hfork ⊢
    rw [hlast, hstdin, hsame hpipe]
    exact h.stdin_mem hfork.1

/-- A process is started; the books depend on whether its output stays open. -/
lemma Books.start (h : Books s held) (hnil : ¬s.r.isNil = true)
    (hr : recordProcess s.r (some fd) = some r) (hfd : (fd : Int) ∉ held) (he : e.isStarted = true)
    (hafter : Ledger.after log = some (if e.isKept then (fd : Int) :: held else held)) :
    Books { r := r, log := log, history := s.history ++ [e] }
      (if e.isKept then (fd : Int) :: held else held) := by
  have hfile : e ≠ .file := by rintro rfl; simp [Event.isStarted] at he
  have hlast : lastObtained (s.history ++ [e]) = some e :=
    lastObtained_append_obtained (by cases e <;> simp [Event.isStarted, Event.isObtained] at he ⊢)
  have hfailed : e.isFailed = false := by
    cases e <;> simp [Event.isStarted, Event.isFailed] at he ⊢
  have hrecorded := h.record hr hfile fun hmem => absurd hmem (h.not_failed hnil hfailed)
  have hstdin : r.fdStdin = fd := (recordProcess_eq_some hr).2.2.2.1
  refine ⟨hafter, ?_, ?_, ?_, ?_, ?_, hrecorded⟩
  · split_ifs
    · exact nodup_cons.mpr ⟨hfd, h.nodup⟩
    · exact h.nodup
  · cases e <;> simp [Event.isStarted, Event.isKept, h.length_held] at he ⊢
    omega
  · intro hnone
    rw [hlast] at hnone
    simp at hnone
  · intro _
    rw [hstdin]
    exact Int.natCast_nonneg _
  · rw [hlast, hstdin]
    cases e <;> simp [Event.isStarted, Event.isKept, hfd] at he ⊢

/-- A run of a process, started for `ok`: the calls and what the parent holds after them. -/
lemma Books.spawn (h : Books s held) (hnil : ¬s.r.isNil = true) {spawn : Spawn}
    (hfresh : (spawn.fds ++ held).Nodup)
    (hr : recordProcess s.r (runWithStdinFile spawn).1 = some r) :
    (∃ held', Books
      { r := r, log := s.log ++ (runWithStdinFile spawn).2
        history := s.history ++ [spawn.event .piped] } held') ∧
    ∃ held', Books
      { r := r, log := s.log ++ (runWithStdinFile spawn).2 ++
          (runWithStdinFile spawn).1.toList.map fun fd => .release (fd : Int)
        history := s.history ++ [spawn.event .awaited] } held' := by
  cases spawn with
  | noPipe =>
    have hbooks := h.fail hr (e := .noPipe) rfl h.after h.nodup rfl fun _ => rfl
    exact ⟨⟨held, by simpa [runWithStdinFile, Spawn.event] using hbooks⟩,
      ⟨held, by simpa [runWithStdinFile, Spawn.event] using hbooks⟩⟩
  | noFork rd wr =>
    have hnodup : ((wr : Int) :: (rd : Int) :: held).Nodup := by
      simpa [Spawn.fds, and_comm, and_assoc, and_left_comm, not_or, eq_comm] using hfresh
    have hafter : Ledger.after (s.log ++ [.acquire (rd : Int), .acquire (wr : Int)]) =
        some ((wr : Int) :: (rd : Int) :: held) := by
      rw [after_append h.after]
      rfl
    have hbooks := h.fail hr (e := .noFork) rfl hafter hnodup (by simp) (by simp)
    exact ⟨⟨_, hbooks⟩, ⟨_, by simpa [runWithStdinFile, Spawn.event] using hbooks⟩⟩
  | started rd wr =>
    have hrd : (rd : Int) ∉ held := by
      simp only [Spawn.fds, cons_append, nodup_cons, mem_cons, not_or] at hfresh
      exact hfresh.1.2
    have hafter : ∀ more, Ledger.after (s.log ++
        [.acquire (rd : Int), .acquire (wr : Int), .release (wr : Int)] ++ more) =
        more.foldlM enter ((rd : Int) :: held) := by
      intro more
      rw [append_assoc, after_append h.after]
      simp [enter]
    constructor
    · have hpiped := hafter []
      rw [append_nil] at hpiped
      exact ⟨_, h.start hnil hr hrd (e := .piped) rfl hpiped⟩
    · have hawaited := hafter [.release (rd : Int)]
      rw [show [Entry.release (rd : Int)].foldlM enter ((rd : Int) :: held) = some held by
        simp [enter]] at hawaited
      exact ⟨_, h.start hnil hr hrd (e := .awaited) rfl hawaited⟩

variable {s s' : Parent}

/-- Adding a process to the pipeline keeps the books. -/
lemma books_pipe (h : Books s held) {opened : Option Nat} {spawn : Spawn}
    (hfresh : ((Step.pipe opened spawn).returned ++ held).Nodup)
    (hstep : pipelinePipe opened spawn s = some s') : ∃ held', Books s' held' := by
  unfold pipelinePipe at hstep
  split_ifs at hstep with hnil hfilename hproc
  · exact ⟨held, some_inj.mp hstep ▸ h⟩
  · cases opened with
    | none =>
      cases hstep
      exact ⟨held, h.congr rfl rfl rfl fun _ => rfl⟩
    | some fd =>
      cases hstep
      refine ⟨_, h.openFile hnil fun hfd => ?_⟩
      exact (nodup_append.mp hfresh).2.2 fd (by simp [Step.returned]) fd hfd rfl
  · obtain ⟨r, hr, rfl⟩ := map_eq_some_iff.mp hstep
    refine (h.spawn hnil ?_ hr).1
    rw [Step.returned, append_assoc] at hfresh
    exact (nodup_append.mp hfresh).2.1
  · cases hstep
    exact ⟨held, h.congr rfl rfl rfl fun _ => rfl⟩

lemma books_wait (h : Books s held) {spawn : Spawn} {reads : List (List UInt8)} {status : Int}
    (hfresh : (spawn.fds ++ held).Nodup) (hstep : pipelineWait spawn reads status s = some s') :
    ∃ held', Books s' held' := by
  unfold pipelineWait at hstep
  split_ifs at hstep with hnil
  · exact ⟨held, some_inj.mp hstep ▸ h⟩
  · obtain ⟨r, hr, rfl⟩ := map_eq_some_iff.mp hstep
    obtain ⟨held', hbooks⟩ := (h.spawn hnil hfresh hr).2
    cases spawn with
    | noPipe | noFork rd wr => exact ⟨held', by simpa [runWithStdinFile] using hbooks⟩
    | started rd wr => exact ⟨held', hbooks.congr rfl rfl rfl id⟩

/-- The books are kept by every step. -/
lemma exists_books_of_reaches (h : machine.Reaches s) : ∃ held, Books s held := by
  refine h.invariant_restrict (fun s => ∃ held, Books s held) ⟨[], books_init⟩ ?_
  rintro s step s' ⟨held, h⟩ hpossible hstep
  rw [Possible, Parent.openFds, h.after, getD_some] at hpossible
  cases step with
  | cat filename =>
    cases hstep
    unfold pipelineCat
    split_ifs
    · exact ⟨held, h⟩
    · exact ⟨held, h.congr rfl rfl rfl id⟩
  | pipe opened spawn => exact books_pipe h hpossible hstep
  | call procPath argv =>
    cases hstep
    unfold pipelineCall
    split_ifs
    · exact ⟨held, h⟩
    · exact ⟨held, h.congr rfl rfl rfl id⟩
  | wait spawn reads status => exact books_wait h hpossible hstep

/-! ## After `destroy` -/

/-- The pipelines whose descriptors `destroy` closes: no `fork` failed, nothing happened behind a
file that was opened first, at most one descriptor besides the outputs of `wait` was obtained, and
the last one that was obtained is not an output of `wait`. -/
structure Orderly (history : List Event) : Prop where
  noFork : .noFork ∉ history
  first : history.head? = some .file → history = [.file]
  kept : history.countP Event.isKept ≤ 1
  last : lastObtained history ≠ some .awaited

lemma closedByDestroy_of_head (h : r.closeableFds.head? = some (-1)) :
    closedByDestroy r = if 0 ≤ r.fdStdin then [r.fdStdin] else [] := by
  obtain ⟨fds, hfds⟩ := head?_eq_some_iff.mp h
  simp [closedByDestroy, hfds]

lemma closedByDestroy_of_nonneg (hstdin : 0 ≤ r.fdStdin) (h : ∀ fd ∈ r.closeableFds, 0 ≤ fd) :
    closedByDestroy r = r.fdStdin :: r.closeableFds := by
  have htake : r.closeableFds.takeWhile (· ≠ -1) = r.closeableFds := by
    refine takeWhile_eq_self_iff.mpr fun fd hfd => decide_eq_true ?_
    have := h fd hfd
    omega
  rw [closedByDestroy, htake, if_pos hstdin]
  rfl

/-- Behind a file that was opened first, `destroy` closes every entry of the array: a descriptor
twice, or descriptor 0. -/
lemma Books.of_perm_of_file (h : Books s held)
    (hcount : s.history.countP Event.isStarted < closeableCount)
    (hhead : s.history.head? = some .file) (hidx : 0 < s.r.closeableIdx)
    (hperm : (closedByDestroy s.r).Perm held) : .acquire 0 ∈ s.log := by
  have hstdin := h.stdin_of_file hhead
  rw [closedByDestroy_of_nonneg hstdin (h.recorded.fds_nonneg hhead hidx)] at hperm
  rcases Nat.lt_or_ge s.r.closeableIdx closeableCount with hlt | hge
  · have hzero : (0 : Int) ∈ s.r.closeableFds := mem_of_getLast? (h.recorded.last_fds hlt)
    exact acquire_mem_of_after h.after (hperm.subset (mem_cons_of_mem _ hzero))
  · -- the array is full, so the last process was not started and its input is recorded and current
    have hfailed : 0 < s.history.countP Event.isFailed := by
      have := h.recorded.idx_eq
      omega
    have hmem := (h.recorded.failed (countP_pos_iff.mp hfailed)).2
    exact absurd hmem (nodup_cons.mp (hperm.nodup_iff.mpr h.nodup)).1

/-- Where the array begins with -1, only `_fd_stdin` is closed. -/
lemma Books.closed_of_head (h : Books s held) (hhead : s.r.closeableFds.head? = some (-1)) :
    closedByDestroy s.r = if lastObtained s.history = none then [] else [s.r.fdStdin] := by
  rw [closedByDestroy_of_head hhead]
  by_cases hlast : lastObtained s.history = none
  · rw [h.stdin_neg hlast, if_pos hlast]
    rfl
  · rw [if_pos (h.stdin_nonneg hlast), if_neg hlast]

/-- After an orderly history `destroy` closes what is held. -/
lemma Books.perm_of_orderly (h : Books s held) (ho : Orderly s.history) :
    (closedByDestroy s.r).Perm held := by
  have hhead : s.r.closeableFds.head? = some (-1) := by
    by_cases hfile : s.history.head? = some .file
    · have hidx : s.r.closeableIdx = 0 := by rw [h.recorded.idx_eq, ho.first hfile]; rfl
      rw [h.recorded.fds_init hidx]
      rfl
    · exact h.recorded.head_fds hfile
  have hlength := h.length_held
  have hkept := ho.kept
  rw [count_eq_zero.mpr ho.noFork] at hlength
  rw [h.closed_of_head hhead]
  split_ifs with hlast
  · rw [countP_isKept_of_lastObtained hlast] at hlength
    rw [length_eq_zero_iff.mp hlength]
  · have hmem := (h.stdin_mem ho.noFork hlast).mpr ho.last
    obtain ⟨fd, rfl⟩ := length_eq_one_iff.mp
      (Nat.le_antisymm (by omega) (length_pos_of_mem hmem))
    rw [mem_singleton.mp hmem]

/-- If `destroy` closes what is held, the history was orderly. -/
lemma Books.orderly_of_perm (h : Books s held) (hhead : s.r.closeableFds.head? = some (-1))
    (hfirst : s.history.head? = some .file → s.r.closeableIdx = 0)
    (hperm : (closedByDestroy s.r).Perm held) : Orderly s.history := by
  rw [h.closed_of_head hhead] at hperm
  have hone : held.length ≤ 1 := by
    rw [← hperm.length_eq]
    split_ifs <;> simp
  have hlength := h.length_held
  have hfork : .noFork ∉ s.history := count_eq_zero.mp (by omega)
  refine ⟨hfork, fun hfile => ?_, by omega, fun hlast => ?_⟩
  · -- nothing was recorded, so all events are files, and there is at most one
    have hidx := h.recorded.idx_eq
    rw [hfirst hfile] at hidx
    have hkept : s.history.countP Event.isKept ≤ 1 := by omega
    obtain ⟨history, hhistory⟩ := head?_eq_some_iff.mp hfile
    rw [hhistory, countP_cons, countP_cons] at hidx
    rw [hhistory, countP_cons] at hkept
    rcases history with _ | ⟨e, history⟩
    · exact hhistory
    · rw [countP_cons, countP_cons] at hidx
      cases e <;> simp [Event.isStarted, Event.isFailed, Event.isKept] at hidx hkept
      all_goals omega
  · have hne : lastObtained s.history ≠ none := by rw [hlast]; simp
    rw [if_neg hne] at hperm
    exact (h.stdin_mem hfork hne).mp (hperm.subset mem_cons_self) hlast

/-- **Descriptors of a pipeline.** For every pipeline that fewer than 16 processes were started for,
with any results of `open`, `pipe` and `fork`: if its history is orderly, `destroy` leaves each
descriptor that was opened closed exactly once, and no other was closed. If the history is not
orderly this fails, unless the pipeline itself was given descriptor 0. -/
theorem balanced_destroy {s : Parent} (h : machine.Reaches s)
    (hcount : s.history.countP Event.isStarted < closeableCount) :
    (Orderly s.history → Balanced (pipelineDestroy s)) ∧
      (Balanced (pipelineDestroy s) → Orderly s.history ∨ .acquire 0 ∈ s.log) := by
  obtain ⟨held, hbooks⟩ := exists_books_of_reaches h
  rw [pipelineDestroy, balanced_append_releases_iff hbooks.after]
  refine ⟨hbooks.perm_of_orderly, fun hperm => ?_⟩
  by_cases hfile : s.history.head? = some .file
  · rcases Nat.eq_zero_or_pos s.r.closeableIdx with hidx | hidx
    · refine .inl (hbooks.orderly_of_perm ?_ (fun _ => hidx) hperm)
      rw [hbooks.recorded.fds_init hidx]
      rfl
    · exact .inr (hbooks.of_perm_of_file hcount hfile hidx hperm)
  · exact .inl (hbooks.orderly_of_perm (hbooks.recorded.head_fds hfile)
      (fun hhead => absurd hhead hfile) hperm)

/-- One process that is started by `pipe`, with the pipe 3 and 4. -/
def oneProcess : List Step := [.call (some "ip") (some ["ip", "route"]), .pipe none (.started 3 4)]

theorem balanced_destroy_oneProcess :
    ∃ s, machine.run oneProcess = some s ∧ Balanced (pipelineDestroy s) := by
  have hrun : ∃ s, machine.run oneProcess = some s := ⟨_, rfl⟩
  obtain ⟨s, hs⟩ := hrun
  have hhistory : s.history = [.piped] := by
    have : (machine.run oneProcess).map Parent.history = some [.piped] := by decide
    rw [hs] at this
    exact some_inj.mp this
  refine ⟨s, hs, (balanced_destroy (Machine.reaches_of_run hs) ?_).1 ?_⟩
  · rw [hhistory]
    decide
  · rw [hhistory]
    exact ⟨by decide, by decide, by decide, by decide⟩

/-- The lines of a log are counted, as the resource monitor does for the processes started. -/
def countLines : List Step :=
  [.cat (some "/var/run/resource_monitor/extrace.log"), .pipe (some 3) .noPipe,
    .call (some "grep") (some ["grep", "-c", "^[0-9][0-9]*[+] "]),
    .wait (.started 4 5) [[55, 10]] 0]

/-- The output of the process is closed twice, and then descriptor 0 is closed. -/
theorem not_balanced_countLines :
    ∃ s, machine.Reaches s ∧ s.history.countP Event.isStarted < closeableCount ∧
      closedByDestroy s.r = [4, 3, 0, 0, 0, 0, 0, 0, 0, 0, 0, 0, 0, 0, 0, 0, 0] ∧
      ¬Balanced (pipelineDestroy s) :=
  Machine.exists_reaches_of_run countLines (by decide +kernel)

end PiksiBuildroot.Libpiksi.Pipeline
