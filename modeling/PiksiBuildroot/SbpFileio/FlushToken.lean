import PiksiBuildroot.Lib.Machine
import Mathlib.Algebra.Group.Nat.Defs

/-!
# The flush token

After every buffer it has received the main loop of the fileio daemon asks the write thread to send
what is staged for a pubsub index: `request_flush_output_sbp` stores the index in `flush_pending`
and puts a `NULL` token in the request pipe. The write thread takes the token, reads
`flush_pending`, passes it to `flush_output_sbp` and resets it to `SIZET_MAX`.

The compare-exchange of the request is meant to wait until `flush_pending` is `SIZET_MAX`, but a
failed attempt replaces the expected value by the current one, so the next attempt overwrites an
index that was not flushed yet (`flushing_eq_of_reaches`, `flush_sizetMax_reached`).
-/

namespace PiksiBuildroot.SbpFileio.FlushToken

open Lib List

/-- The largest `size_t`. Source: `SIZET_MAX`. -/
def sizetMax : Nat := 2 ^ 32 - 1

/-- What is in the request pipe: a `NULL` token, with the index of the request it was written for,
or the pointer to a slot of the write queue. -/
inductive Token where
  | flush (idx : Nat)
  | write (slot : Nat)
  deriving DecidableEq, Repr

/-- Where the main loop is in `request_flush_output_sbp`. -/
inductive Requester where
  | idle
  | trying (idx expected : Nat)
  | posting (idx : Nat)
  deriving DecidableEq, Repr

/-- Where the write thread is in serving the token of a request for `idx`: it has taken it, it has
passed an index to `flush_output_sbp`, or it has read the value that it expects to reset. -/
inductive Writer where
  | idle
  | gotNull (idx : Nat)
  | flushing (idx passed : Nat)
  | resetting (idx expected : Nat)
  | aborted
  deriving DecidableEq, Repr

/-- The shared word, the pipe and the two threads. -/
structure State where
  flushPending : Nat
  pipe : List Token
  requester : Requester
  writer : Writer
  deriving DecidableEq, Repr

/-- The atomic steps of the two threads. A weak compare-exchange may fail for no reason. -/
inductive Action where
  | request (idx : Nat)
  | compareExchange (spurious : Bool)
  | post
  | queueWrite (slot : Nat)
  | take
  | loadFlush
  | loadExpected
  | reset
  deriving DecidableEq, Repr

/-- The compare-exchange of a request for `idx` with this `expected` value succeeds.
Source: `request_flush_output_sbp`, `atomic_compare_exchange_weak`. -/
def succeeds (s : State) (expected : Nat) (spurious : Bool) : Bool :=
  !spurious && s.flushPending == expected

/-- One atomic step. Source: `request_flush_output_sbp`, `queue_file_write` and
`write_thread_handler`. -/
def step (pubsubCount : Nat) (s : State) : Action → Option State
  | .request idx =>
    if s.requester = .idle ∧ idx < pubsubCount then
      some { s with requester := .trying idx sizetMax }
    else none
  | .compareExchange spurious =>
    match s.requester with
    | .trying idx expected =>
      if succeeds s expected spurious then
        some { s with flushPending := idx, requester := .posting idx }
      else some { s with requester := .trying idx s.flushPending }
    | _ => none
  | .post =>
    match s.requester with
    | .posting idx => some { s with pipe := s.pipe ++ [.flush idx], requester := .idle }
    | _ => none
  | .queueWrite slot =>
    if s.requester = .idle then some { s with pipe := s.pipe ++ [.write slot] } else none
  | .take =>
    match s.writer, s.pipe with
    | .idle, .flush idx :: rest => some { s with pipe := rest, writer := .gotNull idx }
    | .idle, .write _ :: rest => some { s with pipe := rest }
    | _, _ => none
  | .loadFlush =>
    match s.writer with
    | .gotNull idx => some { s with writer := .flushing idx s.flushPending }
    | _ => none
  | .loadExpected =>
    match s.writer with
    | .flushing idx _ => some { s with writer := .resetting idx s.flushPending }
    | _ => none
  | .reset =>
    match s.writer with
    | .resetting _ expected =>
      if s.flushPending = expected then
        some { s with flushPending := sizetMax, writer := .idle }
      else some { s with writer := .aborted }
    | _ => none

/-- The daemon after `sbp_fileio_setup`, where `flush_pending` is initialised to `false`.
Source: `atomic_init(&write_thread_ctx.flush_pending, false)`. -/
def init : State := ⟨0, [], .idle, .idle⟩

/-- The two threads, for a number of pubsub contexts. -/
def machine (pubsubCount : Nat) : Machine State Action := ⟨init, step pubsubCount⟩

/-! ### Requests that wait for the token before them -/

/-- The index of a flush token. -/
def Token.flushIdx? : Token → Option Nat
  | .flush idx => some idx
  | .write _ => none

/-- The request the write thread is serving. -/
def Writer.serving : Writer → List Nat
  | .gotNull idx => [idx]
  | .flushing idx _ => [idx]
  | .resetting idx _ => [idx]
  | _ => []

/-- The request that is stored and not yet in the pipe. -/
def Requester.stored : Requester → List Nat
  | .posting idx => [idx]
  | _ => []

/-- The requests whose index is stored and not yet reset. -/
def State.outstanding (s : State) : List Nat :=
  s.writer.serving ++ s.pipe.filterMap Token.flushIdx? ++ s.requester.stored

/-- A request stores its index only when no request before it is outstanding. -/
def StoresAlone (s : State) (a : Action) : Prop := match a, s.requester with
  | .compareExchange spurious, .trying _ expected =>
    succeeds s expected spurious = true → s.outstanding = []
  | _, _ => True

instance (s : State) (a : Action) : Decidable (StoresAlone s a) := by
  unfold StoresAlone
  split <;> infer_instance

/-- What holds in runs of such requests: at most one request is outstanding, the shared word is its
index, and so is what the write thread has read of it. -/
structure Inv (pubsubCount : Nat) (s : State) : Prop where
  alone : s.outstanding.length ≤ 1
  pending : ∀ idx ∈ s.outstanding, s.flushPending = idx ∧ idx < pubsubCount
  passed : ∀ idx v, s.writer = .flushing idx v → v = idx
  expected : ∀ idx v, s.writer = .resetting idx v → v = idx
  trying : ∀ idx v, s.requester = .trying idx v → idx < pubsubCount

section steps

variable {pubsubCount : Nat} {s s' : State}

/-- A step that leaves the shared word and the outstanding requests. -/
lemma Inv.of_eq (h : Inv pubsubCount s) (hout : s'.outstanding = s.outstanding)
    (hpending : s'.flushPending = s.flushPending)
    (hpassed : ∀ idx v, s'.writer = .flushing idx v → v = idx)
    (hexpected : ∀ idx v, s'.writer = .resetting idx v → v = idx)
    (htrying : ∀ idx v, s'.requester = .trying idx v → idx < pubsubCount) : Inv pubsubCount s' := by
  refine ⟨?_, ?_, hpassed, hexpected, htrying⟩
  · rw [hout]
    exact h.alone
  · rw [hout, hpending]
    exact h.pending

/-- A step of the requester that leaves the shared word and the outstanding requests. -/
lemma Inv.of_writer_eq (h : Inv pubsubCount s) (hout : s'.outstanding = s.outstanding)
    (hpending : s'.flushPending = s.flushPending) (hwriter : s'.writer = s.writer)
    (htrying : ∀ idx v, s'.requester = .trying idx v → idx < pubsubCount) : Inv pubsubCount s' :=
  h.of_eq hout hpending (hwriter ▸ h.passed) (hwriter ▸ h.expected) htrying

/-- The shared word is the index of the request that is served. -/
lemma Inv.flushPending_eq (h : Inv pubsubCount s) {idx : Nat}
    (hserving : s.writer.serving = [idx]) :
    s.flushPending = idx :=
  (h.pending idx (by simp [State.outstanding, hserving])).1

variable {idx expected : Nat}

/-- An index that is stored with nothing else outstanding is the one that is outstanding. -/
lemma Inv.store (h : Inv pubsubCount s) (hrequester : s.requester = .trying idx expected)
    (halone : s.outstanding = []) :
    Inv pubsubCount { s with flushPending := idx, requester := .posting idx } := by
  have hnone : s.writer.serving ++ s.pipe.filterMap Token.flushIdx? = [] :=
    (append_eq_nil_iff.mp halone).1
  have hserving := (append_eq_nil_iff.mp hnone).1
  have hout : State.outstanding { s with flushPending := idx, requester := .posting idx } =
      [idx] := by
    simp only [State.outstanding, hnone, Requester.stored, nil_append]
  refine ⟨?_, ?_, ?_, ?_, ?_⟩
  · rw [hout]
    exact Nat.le_refl _
  · intro i hi
    rw [hout, mem_singleton] at hi
    exact ⟨hi.symm, hi ▸ h.trying idx expected hrequester⟩
  · intro i v hw
    simp [show s.writer = .flushing i v from hw, Writer.serving] at hserving
  · intro i v hw
    simp [show s.writer = .resetting i v from hw, Writer.serving] at hserving
  · intro i v hi
    cases hi

/-- The request whose token is reset was the only one outstanding. -/
lemma Inv.finish (h : Inv pubsubCount s) (hw : s.writer = .resetting idx expected) (word : Nat)
    {writer : Writer} (hwriter : writer = .idle ∨ writer = .aborted) :
    Inv pubsubCount { s with flushPending := word, writer := writer } := by
  have hrest : s.pipe.filterMap Token.flushIdx? ++ s.requester.stored = [] := by
    have halone := h.alone
    simp only [State.outstanding, hw, Writer.serving, cons_append, nil_append,
      length_cons] at halone
    exact length_eq_zero_iff.mp (by omega)
  have hout : State.outstanding { s with flushPending := word, writer := writer } = [] := by
    rcases hwriter with rfl | rfl <;>
      simp only [State.outstanding, Writer.serving, nil_append, hrest]
  refine ⟨?_, ?_, ?_, ?_, h.trying⟩
  · rw [hout]
    exact Nat.zero_le _
  · intro i hi
    rw [hout] at hi
    cases hi
  · rintro i v rfl
    simp at hwriter
  · rintro i v rfl
    simp at hwriter

/-- Every step that stores alone keeps the invariant. -/
lemma inv_step {a : Action} (h : Inv pubsubCount s) (hok : StoresAlone s a)
    (hstep : step pubsubCount s a = some s') : Inv pubsubCount s' := by
  cases a <;> simp only [step] at hstep
  case request idx =>
    split_ifs at hstep with hidle
    cases hstep
    refine h.of_writer_eq (by simp [State.outstanding, Requester.stored, hidle.1]) rfl rfl ?_
    intro i v hi
    cases hi
    exact hidle.2
  case compareExchange spurious =>
    split at hstep
    · next idx expected hrequester =>
        split_ifs at hstep with hsucc
        · cases hstep
          simp only [StoresAlone, hrequester] at hok
          exact h.store hrequester (hok hsucc)
        · cases hstep
          refine h.of_writer_eq (by simp [State.outstanding, Requester.stored, hrequester])
            rfl rfl ?_
          intro i v hi
          cases hi
          exact h.trying idx expected hrequester
    · cases hstep
  case post =>
    split at hstep
    · next idx hrequester =>
        cases hstep
        refine h.of_writer_eq ?_ rfl rfl ?_
        · simp [State.outstanding, Requester.stored, hrequester, Token.flushIdx?]
        · intro i v hi
          cases hi
    · cases hstep
  case queueWrite slot =>
    split_ifs at hstep with hidle
    cases hstep
    refine h.of_writer_eq ?_ rfl rfl h.trying
    simp [State.outstanding, Token.flushIdx?]
  case take =>
    split at hstep
    · next idx rest hw hpipe =>
        cases hstep
        refine h.of_eq ?_ rfl ?_ ?_ h.trying
        · simp [State.outstanding, hw, hpipe, Writer.serving, Token.flushIdx?]
        · intro i v hi
          cases hi
        · intro i v hi
          cases hi
    · next slot rest hw hpipe =>
        cases hstep
        refine h.of_writer_eq ?_ rfl rfl h.trying
        simp [State.outstanding, hpipe, Token.flushIdx?, filterMap_cons]
    · cases hstep
  case loadFlush =>
    split at hstep
    · next idx hw =>
        cases hstep
        refine h.of_eq (by simp [State.outstanding, hw, Writer.serving]) rfl ?_ ?_ h.trying
        · intro i v hi
          cases hi
          exact h.flushPending_eq (by rw [hw]; rfl)
        · intro i v hi
          cases hi
    · cases hstep
  case loadExpected =>
    split at hstep
    · next idx passed hw =>
        cases hstep
        refine h.of_eq (by simp [State.outstanding, hw, Writer.serving]) rfl ?_ ?_ h.trying
        · intro i v hi
          cases hi
        · intro i v hi
          cases hi
          exact h.flushPending_eq (by rw [hw]; rfl)
    · cases hstep
  case reset =>
    split at hstep
    · next idx expected hw =>
        split_ifs at hstep
        · cases hstep
          exact h.finish hw sizetMax (.inl rfl)
        · cases hstep
          exact h.finish hw s.flushPending (.inr rfl)
    · cases hstep

end steps

/-- In every run whose requests store their index only when no other request is outstanding, the
write thread flushes the index that the token was written for, a valid one. -/
theorem flushing_eq_of_reaches {pubsubCount : Nat} (hcount : pubsubCount ≤ sizetMax) {s : State}
    (h : ((machine pubsubCount).restrict StoresAlone).Reaches s) {idx passed : Nat}
    (hs : s.writer = .flushing idx passed) :
    passed = idx ∧ passed < pubsubCount ∧ passed ≠ sizetMax := by
  have hinit : Inv pubsubCount init := by
    refine ⟨by decide, ?_, ?_, ?_, ?_⟩
    · intro i hi
      exact absurd hi not_mem_nil
    all_goals
      intro i v hi
      cases hi
  have hinv : Inv pubsubCount s :=
    h.invariant_restrict (Inv pubsubCount) hinit fun s a s' hs hok hstep => inv_step hs hok hstep
  have heq : passed = idx := hinv.passed idx passed hs
  have hmem : idx ∈ s.outstanding := by simp [State.outstanding, hs, Writer.serving]
  have hlt := (hinv.pending idx hmem).2
  exact ⟨heq, heq ▸ hlt, by omega⟩

/-- One request, served. -/
def oneRequest : List Action :=
  [.request 0, .compareExchange false, .compareExchange false, .post, .take, .loadFlush]

theorem flushing_eq_of_reaches_oneRequest :
    ∃ s idx passed, ((machine 1).restrict StoresAlone).run oneRequest = some s ∧
      s.writer = .flushing idx passed ∧ passed = idx ∧ passed < 1 ∧ passed ≠ sizetMax := by
  have hrun : ∃ s, ((machine 1).restrict StoresAlone).run oneRequest = some s ∧
      s.writer = .flushing 0 0 := ⟨_, rfl, rfl⟩
  obtain ⟨s, hs, hw⟩ := hrun
  exact ⟨s, 0, 0, hs, hw, flushing_eq_of_reaches (by decide) (Machine.reaches_of_run hs) hw⟩

/-- Two requests for the same index before the write thread runs: the second token is served with
`SIZET_MAX`. -/
theorem flush_sizetMax_reached : ∃ s, (machine 1).Reaches s ∧ s.writer = .flushing 0 sizetMax := by
  refine ⟨_, @Machine.reaches_of_run _ _ _
    [.request 0, .compareExchange false, .compareExchange false, .post,
      .request 0, .compareExchange false, .compareExchange false, .post,
      .take, .loadFlush, .loadExpected, .reset, .take, .loadFlush] _ rfl, rfl⟩

end PiksiBuildroot.SbpFileio.FlushToken
