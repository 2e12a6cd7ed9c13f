import PiksiBuildroot.Libpiksi.Endpoint

/-!
# Sends to a client whose socket is full

`send_impl` is written to sleep and to try again while `sendmsg` returns `EAGAIN`, for 10 ms or
`MAX_SEND_SLEEP_COUNT` results, and to disconnect the client after that. The test of the counter is
the wrong way round: results below the limit disconnect, those from the limit on sleep. As the
counter begins at zero the first `EAGAIN` disconnects (`retriesWhileBusy_iff`).
-/

namespace PiksiBuildroot.Libpiksi.Endpoint

open List

/-- How the loop of `send_impl` ends: the message is sent, or the client is disconnected because of
`EAGAIN` or because of another error. -/
inductive SendEnd where
  | sent
  | busy
  | failed
  deriving DecidableEq, Repr

/-- The loop of `send_impl`, with the branch that ends it. Source: `send_impl`. -/
def sendLoop : Nat → List Sendmsg → Option (SendEnd × List Sendmsg)
  | _, [] => none
  | _, .sent :: rest => some (.sent, rest)
  | sleepCount, .eagain :: rest =>
    if sleepCount + 1 ≥ maxSendSleepCount then sendLoop (sleepCount + 1) rest
    else some (.busy, rest)
  | sleepCount, .eintr :: rest => sendLoop sleepCount rest
  | _, .error :: rest => some (.failed, rest)

/-- The value that `send_impl` returns. -/
def SendEnd.ret : SendEnd → Int
  | .sent => 0
  | .busy => -1
  | .failed => -1

lemma sendmsg_eq (sleepCount : Nat) (results : List Sendmsg) : sendmsg sleepCount results =
      (sendLoop sleepCount results).map fun r => (decide (r.1.ret = 0), r.2) := by
  induction results generalizing sleepCount with
  | nil => rfl
  | cons result results ih =>
    cases result with
    | sent | error => rfl
    | eintr => exact ih sleepCount
    | eagain =>
      rw [sendmsg, sendLoop]
      split_ifs with hlimit
      · exact ih (sleepCount + 1)
      · rfl

/-- What `send_impl` leaves of a connected client. -/
lemma sendImpl_of_sendLoop {s : State} {id fd : Nat} (h : handleOf s id = some fd)
    {results rest : List Sendmsg} {e : SendEnd} (hloop : sendLoop 0 results = some (e, rest)) :
    sendImpl s id results = some (if e.ret = 0 then s else sendCloseSocketHelper s id, rest) := by
  simp only [sendImpl, h, sendmsg_eq, hloop, Option.map_some]
  by_cases hret : e.ret = 0
  · simp [hret]
  · simp [hret]

/-- The loop tries again while the socket is full. -/
structure RetriesWhileBusy (s : State) (id : Nat) (results : List Sendmsg) : Prop where
  /-- A disconnect because of `EAGAIN` comes after the limit of them. -/
  busy : ∀ used rest, results = used ++ rest → sendLoop 0 results = some (.busy, rest) →
    maxSendSleepCount ≤ used.count .eagain
  /-- With a success before the limit and before another error, the call returns 0 and the client
  stays connected. -/
  sent : ∀ waits rest, results = waits ++ .sent :: rest →
    (∀ r ∈ waits, r = .eagain ∨ r = .eintr) → waits.count .eagain < maxSendSleepCount →
      sendLoop 0 results = some (.sent, rest) ∧ sendImpl s id results = some (s, rest)
  /-- `EINTR` does not count. -/
  eintr : (sendLoop 0 results).map Prod.fst =
    (sendLoop 0 (results.filter (· ≠ .eintr))).map Prod.fst
  /-- The loop ends, and with at most the limit of `EAGAIN`. -/
  ends : maxSendSleepCount ≤ results.count .eagain →
    ∃ e used rest, results = used ++ rest ∧ sendLoop 0 results = some (e, rest) ∧
      used.count .eagain ≤ maxSendSleepCount

/-! ### The loop by its first result that is not `EINTR` -/

variable {waits : List Sendmsg}

lemma sendLoop_append (h : ∀ r ∈ waits, r = .eintr) (sleepCount : Nat) (rest : List Sendmsg) :
    sendLoop sleepCount (waits ++ rest) = sendLoop sleepCount rest := by
  induction waits with
  | nil => rfl
  | cons result waits ih =>
    obtain ⟨rfl, hwaits⟩ := forall_mem_cons.mp h
    exact ih hwaits

lemma sendLoop_filter (sleepCount : Nat) (results : List Sendmsg) :
    (sendLoop sleepCount results).map Prod.fst =
      (sendLoop sleepCount (results.filter (· ≠ .eintr))).map Prod.fst := by
  induction results generalizing sleepCount with
  | nil => rfl
  | cons result results ih =>
    cases result with
    | sent | error => rfl
    | eintr => exact ih sleepCount
    | eagain =>
      rw [filter_cons_of_pos (by decide), sendLoop, sendLoop]
      split_ifs with hlimit
      · exact ih (sleepCount + 1)
      · rfl

/-- The counter begins at zero, so the first `EAGAIN` is below the limit. -/
lemma sendLoop_zero_eagain (rest : List Sendmsg) :
    sendLoop 0 (.eagain :: rest) = some (.busy, rest) :=
  if_neg (by decide)

variable {results : List Sendmsg} {result : Sendmsg}

lemma exists_split_of_find (h : results.find? (· ≠ .eintr) = some result) :
    ∃ waits rest, results = waits ++ result :: rest ∧ (∀ r ∈ waits, r = .eintr) ∧
      result ≠ .eintr := by
  obtain ⟨hresult, waits, rest, hsplit, hwaits⟩ := find?_eq_some_iff_append.mp h
  refine ⟨waits, rest, hsplit, fun r hr => ?_, by simpa using hresult⟩
  simpa using hwaits r hr

lemma count_eagain_eq_zero (h : ∀ r ∈ waits, r = .eintr) : waits.count .eagain = 0 := by
  rw [count_eq_zero]
  intro hmem
  cases h _ hmem

/-- The loop ends with the first result other than `EINTR`, if there is one. -/
lemma exists_end_of_find (h : results.find? (· ≠ .eintr) = some result) (hne : result ≠ .eagain) :
    ∃ e used rest, results = used ++ rest ∧ sendLoop 0 results = some (e, rest) ∧
      e ≠ .busy ∧ used.count .eagain = 0 := by
  obtain ⟨waits, rest, rfl, hwaits, hother⟩ := exists_split_of_find h
  have hcount : (waits ++ [result]).count .eagain = 0 := by
    rw [count_append, count_eagain_eq_zero hwaits, count_singleton, Nat.zero_add]
    exact if_neg (by simpa using hne)
  have hsplit : waits ++ result :: rest = waits ++ [result] ++ rest := append_cons _ _ _
  have hloop := sendLoop_append hwaits 0 (result :: rest)
  cases result with
  | sent => exact ⟨.sent, waits ++ [.sent], rest, hsplit, hloop, by decide, hcount⟩
  | error => exact ⟨.failed, waits ++ [.error], rest, hsplit, hloop, by decide, hcount⟩
  | eagain => exact absurd rfl hne
  | eintr => exact absurd rfl hother

/-- Results that are all `EINTR` do not end the loop. -/
lemma sendLoop_eq_none (h : ∀ r ∈ results, r = .eintr) : sendLoop 0 results = none := by
  have hnone := sendLoop_append h 0 []
  rwa [append_nil] at hnone

/-- If `EAGAIN` is not the first result other than `EINTR`, a success that only such results
precede has only `EINTR` before it. -/
lemma eintr_of_find {waits rest : List Sendmsg}
    (hwaits : ∀ r ∈ waits, r = .eagain ∨ r = .eintr)
    (h : (waits ++ .sent :: rest).find? (· ≠ .eintr) ≠ some .eagain) :
    ∀ r ∈ waits, r = .eintr := by
  induction waits with
  | nil => exact fun r hr => absurd hr not_mem_nil
  | cons result waits ih =>
    obtain ⟨hresult, hrest⟩ := forall_mem_cons.mp hwaits
    obtain rfl | rfl := hresult
    · exact absurd rfl h
    · exact forall_mem_cons.mpr ⟨rfl, ih hrest h⟩

/-- For every sequence of results and every connected client: the loop tries again while the
socket is full exactly if `EAGAIN` is not the first result other than `EINTR`. -/
theorem retriesWhileBusy_iff (s : State) (id fd : Nat) (h : handleOf s id = some fd)
    (results : List Sendmsg) :
    RetriesWhileBusy s id results ↔ results.find? (· ≠ .eintr) ≠ some .eagain := by
  constructor
  · intro hretries hfind
    obtain ⟨waits, rest, rfl, hwaits, -⟩ := exists_split_of_find hfind
    have hloop : sendLoop 0 (waits ++ .eagain :: rest) = some (.busy, rest) := by
      rw [sendLoop_append hwaits, sendLoop_zero_eagain]
    have hcount := hretries.busy (waits ++ [.eagain]) rest (by simp) hloop
    rw [count_append, count_eagain_eq_zero hwaits] at hcount
    exact absurd hcount (by decide)
  · intro hfind
    refine ⟨?_, ?_, sendLoop_filter 0 results, ?_⟩
    · intro used rest _ hloop
      cases hfirst : results.find? (· ≠ .eintr) with
      | none =>
        rw [sendLoop_eq_none (by simpa using hfirst)] at hloop
        cases hloop
      | some result =>
        obtain ⟨e, used', rest', -, hloop', hne, -⟩ :=
          exists_end_of_find hfirst fun heq => hfind (heq ▸ hfirst)
        rw [hloop'] at hloop
        cases hloop
        exact absurd rfl hne
    · rintro waits rest rfl hwaits -
      have hloop : sendLoop 0 (waits ++ .sent :: rest) = some (.sent, rest) :=
        sendLoop_append (eintr_of_find hwaits hfind) 0 _
      exact ⟨hloop, sendImpl_of_sendLoop h hloop⟩
    · intro hcount
      cases hfirst : results.find? (· ≠ .eintr) with
      | none =>
        have hwaits : ∀ r ∈ results, r = .eintr := by simpa using hfirst
        rw [count_eagain_eq_zero hwaits] at hcount
        exact absurd hcount (by decide)
      | some result =>
        obtain ⟨e, used, rest, hsplit, hloop, -, hused⟩ :=
          exists_end_of_find hfirst fun heq => hfind (heq ▸ hfirst)
        exact ⟨e, used, rest, hsplit, hloop, by omega⟩

/-- A publisher with one client. -/
def onePeer : State where
  type := .pubServer
  woke := false
  wakeCounter := 0
  clientNodes := [⟨0, some 5, true⟩]
  removedNodes := []
  clientCount := 1
  accepted := 1
  recorded := []
  purged := []

theorem retriesWhileBusy_iff_interrupted :
    handleOf onePeer 0 = some 5 ∧ RetriesWhileBusy onePeer 0 [.eintr, .sent] :=
  ⟨rfl, (retriesWhileBusy_iff onePeer 0 5 rfl [.eintr, .sent]).mpr (by decide)⟩

/-- One `EAGAIN` and then a success: the client is disconnected before the success. -/
theorem not_retriesWhileBusy_eagain : sendLoop 0 [.eagain, .sent] = some (.busy, [.sent]) ∧
      (sendImpl onePeer 0 [.eagain, .sent]).map (fun r => handleOf r.1 0) = some none ∧
      ¬RetriesWhileBusy onePeer 0 [.eagain, .sent] := by
  have hloop : sendLoop 0 [.eagain, .sent] = some (.busy, [.sent]) := sendLoop_zero_eagain _
  refine ⟨hloop, by decide, fun hretries => ?_⟩
  exact absurd (hretries.busy [.eagain] [.sent] rfl hloop) (by decide)

end PiksiBuildroot.Libpiksi.Endpoint
