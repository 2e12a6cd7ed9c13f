import Mathlib.Algebra.Group.Nat.Defs
import Mathlib.Data.List.Basic

/-!
# Writes to a descriptor that is full

`fd_write_with_timeout` is written to sleep and to try again while `write` returns `EAGAIN`, and to
count the bytes as dropped when that has gone on for `max_send_sleep_ms`. The test of the counter is
the wrong way round: below the limit the bytes are counted and the counter begins again, from the
limit on the call sleeps. So every `EAGAIN` is counted as a drop (`backPressure_iff`).
-/

namespace PiksiBuildroot.EndpointAdapter

open List

/-- How `write` returns. -/
inductive FdWriteResult where
  | written (n : Nat)
  | eintr
  | eagain
  | error
  deriving DecidableEq, Repr

/-- What a call does, in order: an attempt to write with its result, a sleep, an addition of the
bytes to `bytes_dropped`. -/
inductive WriteEvent where
  | attempt (result : FdWriteResult)
  | sleep
  | dropped
  deriving DecidableEq, Repr

/-- Source: `max_send_sleep_count` of `fd_write_with_timeout`. -/
def maxSendSleepCount (maxSendSleepMs perRetrySleepNs : Nat) : Nat :=
  maxSendSleepMs * 1000000 % 2 ^ 32 / perRetrySleepNs

/-- The loop, as far as there are results: what it does, and the value it returns. Source:
`fd_write_with_timeout`. -/
def fdWriteLoop (limit : Nat) : Nat → List FdWriteResult → List WriteEvent × Option Int
  | _, [] => ([], none)
  | sleepCount, .eintr :: results =>
    let (events, ret) := fdWriteLoop limit sleepCount results
    (.attempt .eintr :: events, ret)
  | sleepCount, .eagain :: results =>
    if (sleepCount + 1) % 2 ^ 32 ≥ limit then
      let (events, ret) := fdWriteLoop limit ((sleepCount + 1) % 2 ^ 32) results
      (.attempt .eagain :: .sleep :: events, ret)
    else
      let (events, ret) := fdWriteLoop limit 0 results
      (.attempt .eagain :: .dropped :: events, ret)
  | _, .written n :: _ => ([.attempt (.written n)], some n)
  | _, .error :: _ => ([.attempt .error], some (-1))

/-- Source: `fd_write_with_timeout`. -/
def fdWriteWithTimeout (maxSendSleepMs perRetrySleepNs : Nat) (results : List FdWriteResult) :
    List WriteEvent × Option Int :=
  fdWriteLoop (maxSendSleepCount maxSendSleepMs perRetrySleepNs) 0 results

/-- The number of `EAGAIN` since the start or since the last addition. -/
def eagainsSince : List WriteEvent → Nat → Nat
  | [], n => n
  | .attempt .eagain :: events, n => eagainsSince events (n + 1)
  | .dropped :: events, _ => eagainsSince events 0
  | _ :: events, n => eagainsSince events n

/-- The call sleeps between attempts, and adds to `bytes_dropped` after the limit. -/
structure BackPressure (limit : Nat) (results : List FdWriteResult) (events : List WriteEvent) :
    Prop where
  /-- There is a sleep between an `EAGAIN` and the next attempt. -/
  sleeps : ∀ before between result after,
    events = before ++ .attempt .eagain :: (between ++ .attempt result :: after) →
      (∀ r, .attempt r ∉ between) → .sleep ∈ between
  /-- An addition comes after the limit of `EAGAIN` since the start or the last addition. -/
  drops : ∀ before after, events = before ++ .dropped :: after → limit ≤ eagainsSince before 0
  /-- Data that are accepted before the limit are not dropped. -/
  accepted : ∀ waits n rest, results = waits ++ .written n :: rest →
    (∀ r ∈ waits, r = .eagain ∨ r = .eintr) → waits.count .eagain < limit → .dropped ∉ events

variable {waits : List FdWriteResult}

/-- Interrupts are attempts and nothing else. -/
lemma fdWriteLoop_append (limit sleepCount : Nat) (h : ∀ r ∈ waits, r = .eintr)
    (results : List FdWriteResult) :
    (fdWriteLoop limit sleepCount (waits ++ results)).1 =
      waits.map .attempt ++ (fdWriteLoop limit sleepCount results).1 := by
  induction waits with
  | nil => rfl
  | cons result waits ih =>
    obtain ⟨rfl, hwaits⟩ := forall_mem_cons.mp h
    exact congrArg (WriteEvent.attempt .eintr :: ·) (ih hwaits)

lemma eagainsSince_append (before after : List WriteEvent) (n : Nat) :
    eagainsSince (before ++ after) n = eagainsSince after (eagainsSince before n) := by
  induction before generalizing n with
  | nil => rfl
  | cons event before ih =>
    cases event with
    | attempt result =>
      cases result with
      | eagain => exact ih (n + 1)
      | written m | eintr | error => exact ih n
    | sleep => exact ih n
    | dropped => exact ih 0

lemma eagainsSince_eintr (h : ∀ r ∈ waits, r = .eintr) (n : Nat) :
    eagainsSince (waits.map .attempt) n = n := by
  induction waits with
  | nil => rfl
  | cons result waits ih =>
    obtain ⟨rfl, hwaits⟩ := forall_mem_cons.mp h
    exact ih hwaits

variable {limit : Nat}

/-- The counter begins at zero, so with a limit of two the first `EAGAIN` is below it. -/
lemma fdWriteLoop_zero_eagain (hlimit : 2 ≤ limit) (results : List FdWriteResult) :
    (fdWriteLoop limit 0 (.eagain :: results)).1 =
      .attempt .eagain :: .dropped :: (fdWriteLoop limit 0 results).1 := by
  rw [fdWriteLoop, if_neg (show ¬(0 + 1) % 2 ^ 32 ≥ limit by omega)]

variable {results : List FdWriteResult}

/-- Up to the first result other than `EINTR`. -/
lemma exists_split_of_find {result : FdWriteResult} (h : results.find? (· ≠ .eintr) = some result) :
    ∃ waits rest, results = waits ++ result :: rest ∧ ∀ r ∈ waits, r = .eintr := by
  obtain ⟨-, waits, rest, hsplit, hwaits⟩ := find?_eq_some_iff_append.mp h
  exact ⟨waits, rest, hsplit, fun r hr => by simpa using hwaits r hr⟩

/-- If `EAGAIN` is not the first result other than `EINTR`, the call makes attempts and nothing
else, and none of them returns `EAGAIN`. -/
lemma events_of_find (h : results.find? (· ≠ .eintr) ≠ some .eagain) :
    ∀ event ∈ (fdWriteLoop limit 0 results).1, ∃ r, event = .attempt r ∧ r ≠ .eagain := by
  induction results with
  | nil => exact fun event hevent => absurd hevent not_mem_nil
  | cons result results ih =>
    cases result with
    | eintr =>
      intro event hevent
      obtain rfl | hevent := mem_cons.mp hevent
      · exact ⟨.eintr, rfl, by decide⟩
      · exact ih h event hevent
    | eagain => exact absurd rfl h
    | written n | error =>
      intro event hevent
      obtain rfl := mem_singleton.mp hevent
      exact ⟨_, rfl, by simp⟩

/-- The loop waits as it should unless the first answer besides `EINTR` is `EAGAIN`. -/
lemma backPressure_fdWriteLoop_iff (hlimit : 2 ≤ limit) (results : List FdWriteResult) :
    BackPressure limit results (fdWriteLoop limit 0 results).1 ↔
      results.find? (· ≠ .eintr) ≠ some .eagain := by
  constructor
  · intro hpressure hfind
    obtain ⟨waits, rest, rfl, hwaits⟩ := exists_split_of_find hfind
    have hevents := fdWriteLoop_append limit 0 hwaits (.eagain :: rest)
    rw [fdWriteLoop_zero_eagain hlimit] at hevents
    have hdrop := hpressure.drops (waits.map .attempt ++ [.attempt .eagain]) _
      (by rw [hevents, append_assoc]; rfl)
    rw [eagainsSince_append, eagainsSince_eintr hwaits] at hdrop
    exact absurd hdrop (Nat.not_le.mpr hlimit)
  · intro hfind
    have hevents := @events_of_find limit results hfind
    have hdropped : .dropped ∉ (fdWriteLoop limit 0 results).1 := by
      intro hmem
      obtain ⟨r, hr, -⟩ := hevents _ hmem
      cases hr
    refine ⟨?_, ?_, fun _ _ _ _ _ _ => hdropped⟩
    · intro before between result after hsplit
      obtain ⟨r, hr, hne⟩ := hevents (.attempt .eagain) (by rw [hsplit]; simp)
      cases hr
      exact absurd rfl hne
    · intro before after hsplit
      exact absurd (hsplit ▸ by simp) hdropped

/-- For every limit of at least two and every sequence of results: the call sleeps and drops as it
is meant to exactly if `EAGAIN` is not the first result other than `EINTR`. -/
theorem backPressure_iff (maxSendSleepMs perRetrySleepNs : Nat)
    (hlimit : 2 ≤ maxSendSleepCount maxSendSleepMs perRetrySleepNs)
    (results : List FdWriteResult) :
    BackPressure (maxSendSleepCount maxSendSleepMs perRetrySleepNs) results
        (fdWriteWithTimeout maxSendSleepMs perRetrySleepNs results).1 ↔
      results.find? (· ≠ .eintr) ≠ some .eagain :=
  backPressure_fdWriteLoop_iff hlimit results

/-- A write of 3 ms in steps of 1 ms that is interrupted once. -/
theorem backPressure_iff_interrupted : 2 ≤ maxSendSleepCount 3 1000000 ∧
      BackPressure (maxSendSleepCount 3 1000000) [.eintr, .written 4]
        (fdWriteWithTimeout 3 1000000 [.eintr, .written 4]).1 :=
  ⟨by decide, (backPressure_iff 3 1000000 (by decide) [.eintr, .written 4]).mpr (by decide)⟩

/-- One `EAGAIN` and then a success, with a limit of three: the bytes are counted as dropped, there
is no sleep, and then they are written. -/
theorem not_backPressure_eagain : maxSendSleepCount 3 1000000 = 3 ∧
      fdWriteWithTimeout 3 1000000 [.eagain, .written 4] =
        ([.attempt .eagain, .dropped, .attempt (.written 4)], some 4) ∧
      ¬BackPressure (maxSendSleepCount 3 1000000) [.eagain, .written 4]
        (fdWriteWithTimeout 3 1000000 [.eagain, .written 4]).1 := by
  refine ⟨by decide, by decide, fun hpressure => ?_⟩
  exact absurd (hpressure.drops [.attempt .eagain] [.attempt (.written 4)] (by decide)) (by decide)

/-! ### Writes of the adapter -/

/-- Source: `MAX_SEND_SLEEP_MS`. -/
def maxSendSleepMs : Nat := 1000

/-- Source: `SEND_SLEEP_NS`. -/
def sendSleepNs : Nat := 100

/-- The output queue of a terminal: the option `outq` and the bytes that are in the queue. -/
structure OutQueue where
  isatty : Bool
  outq : Int
  qlen : Nat
  deriving DecidableEq, Repr

/-- Source: `needs_outq_check`. -/
def needsOutqCheck (q : OutQueue) : Bool := q.isatty && decide (0 < q.outq)

/-- Source: `ensure_outq_space`; without room the queue is flushed. -/
def ensureOutqSpace (q : OutQueue) (count : Nat) : Bool := decide ((q.qlen + count : Nat) ≤ q.outq)

/-- Source: `fd_write`. -/
def fdWrite (q : OutQueue) (count : Nat) (results : List FdWriteResult) :
    List WriteEvent × Option Int :=
  if needsOutqCheck q && !ensureOutqSpace q count then ([], some count)
  else fdWriteWithTimeout maxSendSleepMs sendSleepNs results

/-- The limit of the adapter is ten million. -/
theorem fdWrite_backPressure_iff (q : OutQueue) (count : Nat) (results : List FdWriteResult) :
    BackPressure 10000000 results (fdWrite q count results).1 ↔
      (needsOutqCheck q = true ∧ ensureOutqSpace q count = false) ∨
        results.find? (· ≠ .eintr) ≠ some .eagain := by
  unfold fdWrite
  split_ifs with hdrop
  · have hroom : needsOutqCheck q = true ∧ ensureOutqSpace q count = false := by
      simpa using hdrop
    refine iff_of_true ⟨?_, ?_, fun _ _ _ _ _ _ => not_mem_nil⟩ (Or.inl hroom)
    · intro before between result after hsplit
      simp at hsplit
    · intro before after hsplit
      simp at hsplit
  · have hroom : ¬(needsOutqCheck q = true ∧ ensureOutqSpace q count = false) := by
      simpa using hdrop
    rw [or_iff_right hroom]
    exact backPressure_fdWriteLoop_iff (by decide) results

end PiksiBuildroot.EndpointAdapter
