import PiksiBuildroot.Lib.Machine
import Mathlib.Data.List.Nodup

/-!
# The clients of a server endpoint

A server endpoint keeps a list of client nodes, a count of them, and a list of the nodes that are to
be removed. A disconnect is found in several places; each decrements the count and puts the node on
the second list, and `process_removed_clients` later takes it off the first.

All callers but one run `process_removed_clients` before they return. `discard_read_data`, which a
read wake-up of a `PUB_SERVER` runs, does not: a receive of nothing there leaves the node in the
list, and the next send records and purges it again (`books_of_reaches`). What the system calls
return is given with each call.
-/

namespace PiksiBuildroot.Libpiksi.Endpoint

open Lib List Option

/-- The server types. Source: `pk_endpoint_type`. -/
inductive EndpointType where
  | pubServer
  | subServer
  | rep
  deriving DecidableEq, Repr

/-- What a call of `recvmsg` returns; with data comes whether the callback then stops the reads. -/
inductive Recvmsg where
  | data (stop : Bool)
  | zero
  | eintr
  | eagain
  | notConn
  | error
  deriving DecidableEq, Repr

/-- What a call of `sendmsg` returns. -/
inductive Sendmsg where
  | sent
  | eagain
  | eintr
  | error
  deriving DecidableEq, Repr

/-- Status bits of a wake-up. Source: `LOOP_READ`, `LOOP_DISCONNECTED`, `LOOP_ERROR`. -/
structure Status where
  read : Bool
  disconnected : Bool
  error : Bool
  deriving DecidableEq, Repr

/-- A client node: its number in the order of accepts, its socket (`-1` is `none`) and whether it is
polled. Source: `client_node`, `client_context_t`. -/
structure Client where
  id : Nat
  handle : Option Nat
  polled : Bool
  deriving DecidableEq, Repr

/-- The endpoint, and which clients have been recorded as disconnected and purged so far.
Source: `pk_endpoint_s`. -/
structure State where
  type : EndpointType
  woke : Bool
  wakeCounter : Nat
  clientNodes : List Client
  removedNodes : List Nat
  clientCount : Int
  accepted : Nat
  recorded : List Nat
  purged : List Nat

/-- Source: `ENDPOINT_SERVICE_MAX`. -/
def endpointServiceMax : Nat := 32

/-- Source: `MAX_SEND_SLEEP_COUNT`, 10 ms in steps of 100 ns. -/
def maxSendSleepCount : Nat := 10 * 1000000 / 100

/-- Source: `teardown_client`. -/
def teardownClient (s : State) (id : Nat) : State :=
  { s with clientNodes := s.clientNodes.map fun c =>
      if c.id = id then { c with handle := none, polled := false } else c }

/-- Source: `record_disconnect`. -/
def recordDisconnect (s : State) (id : Nat) : State := { s with
    clientCount := s.clientCount - 1
    removedNodes := id :: s.removedNodes
    recorded := s.recorded ++ [id] }

/-- Source: `purge_client_node`. -/
def purgeClientNode (s : State) (id : Nat) : State := { s with
    clientNodes := s.clientNodes.eraseP fun c => c.id == id
    purged := s.purged ++ [id] }

/-- The loop of `process_removed_clients` over the nodes that are to be removed. -/
def processRemoved : List Nat → State → State
  | [], s => s
  | id :: rest, s => processRemoved rest (purgeClientNode { s with removedNodes := rest } id)

/-- Source: `process_removed_clients`. -/
def processRemovedClients (s : State) : State := processRemoved s.removedNodes s

/-- The socket of a client. -/
def handleOf (s : State) (id : Nat) : Option Nat :=
  (s.clientNodes.find? fun c => c.id == id).bind Client.handle

/-! ### Receiving and sending -/

/-- What `recv_impl` returns: data, a length of zero, or an error code. -/
inductive Received where
  | data (stop : Bool)
  | closed
  | failed

/-- Calls of `recvmsg` until one is not interrupted; `none` is a call that has not returned. -/
def recvmsg : List Recvmsg → Option (Recvmsg × List Recvmsg)
  | [] => none
  | .eintr :: rest => recvmsg rest
  | result :: rest => some (result, rest)

/-- Source: `recv_impl`. A call on a closed socket fails with `EBADF`. -/
def recvImpl (s : State) (id : Nat) (results : List Recvmsg) :
    Option (Received × State × List Recvmsg) :=
  match handleOf s id with
  | none => some (.failed, s, results)
  | some _ =>
    match recvmsg results with
    | none => none
    | some (.data stop, rest) => some (.data stop, s, rest)
    | some (.zero, rest) => some (.closed, teardownClient (recordDisconnect s id) id, rest)
    | some (_, rest) => some (.failed, s, rest)

/-- The loop of `service_reads`. -/
def serviceReads : Nat → State → Nat → List Recvmsg → Option (State × List Recvmsg)
  | 0, s, _, results => some (s, results)
  | n + 1, s, id, results =>
    match recvImpl s id results with
    | none => none
    | some (.data false, s, rest) => serviceReads n s id rest
    | some (_, s, rest) => some (s, rest)

/-- The loop of `discard_read_data`: only an error ends it early. -/
def discardReadData : Nat → State → Nat → List Recvmsg → Option (State × List Recvmsg)
  | 0, s, _, results => some (s, results)
  | n + 1, s, id, results =>
    match recvImpl s id results with
    | none => none
    | some (.failed, s, rest) => some (s, rest)
    | some (_, s, rest) => discardReadData n s id rest

/-- Calls of `sendmsg` until the loop of `send_impl` ends: whether the message was sent. -/
def sendmsg : Nat → List Sendmsg → Option (Bool × List Sendmsg)
  | _, [] => none
  | _, .sent :: rest => some (true, rest)
  | sleepCount, .eintr :: rest => sendmsg sleepCount rest
  | sleepCount, .eagain :: rest =>
    if sleepCount + 1 ≥ maxSendSleepCount then sendmsg (sleepCount + 1) rest else some (false, rest)
  | _, .error :: rest => some (false, rest)

/-- Source: `send_close_socket_helper`. -/
def sendCloseSocketHelper (s : State) (id : Nat) : State :=
  teardownClient (recordDisconnect s id) id

/-- Source: `send_impl`. -/
def sendImpl (s : State) (id : Nat) (results : List Sendmsg) : Option (State × List Sendmsg) :=
  match handleOf s id with
  | none => some (sendCloseSocketHelper s id, results)
  | some _ =>
    match sendmsg 0 results with
    | none => none
    | some (true, rest) => some (s, rest)
    | some (false, rest) => some (sendCloseSocketHelper s id, rest)

/-- What a visit of a client leaves, if the given results are those of the calls that it made. -/
def whole {α : Type} (visit : Option (State × List α)) : Option State := match visit with
  | some (s, []) => some s
  | _ => none

/-- Source: `foreach_client`. -/
def foreachClient (s : State) (visit : State → Nat → Option State) : Option State :=
  ((s.clientNodes.map Client.id).foldlM visit s).map processRemovedClients

/-! ### Calls -/

/-- Source: `accept_wake_handler`; `allocated` is whether `malloc` returned a node, `fd` what
`accept` returned. -/
def acceptWakeHandler (s : State) (status : Status) (allocated : Bool) (fd : Nat) : State :=
  if !status.read && (status.disconnected || status.error) then s
  else if !allocated then s
  else { s with
    clientNodes := ⟨s.accepted, some fd, true⟩ :: s.clientNodes
    clientCount := s.clientCount + 1
    accepted := s.accepted + 1 }

/-- Source: `handle_client_wake`. The loop calls it for clients that are polled. -/
def handleClientWake (s : State) (id : Nat) (status : Status) (results : List Recvmsg) :
    Option State :=
  if !s.clientNodes.any (fun c => c.id == id && c.polled) then none
  else if status.error || status.disconnected then
    some (processRemovedClients (recordDisconnect (teardownClient s id) id))
  else if status.read && s.type == .pubServer then
    whole (discardReadData endpointServiceMax s id results)
  else if s.woke then some s
  else some { s with woke := true, wakeCounter := s.wakeCounter + 1 }

/-- Source: `read_and_receive_common`. A `PUB_SERVER` is not read, and without a wake-up the read of
the event counter fails; a count other than one fails an assertion. -/
def readAndReceiveCommon (s : State) (readHandler : State → Nat → Option State) : Option State :=
  if s.type = .pubServer then some s
  else if s.wakeCounter = 0 then some s
  else if s.wakeCounter = 1 ∧ s.woke then
    foreachClient { s with wakeCounter := 0, woke := false } readHandler
  else none

/-- Source: `pk_endpoint_receive`. -/
def pkEndpointReceive (s : State) (results : Nat → List Recvmsg) : Option State :=
  readAndReceiveCommon s fun s id => whole (serviceReads endpointServiceMax s id (results id))

/-- Source: `pk_endpoint_read`. -/
def pkEndpointRead (s : State) (count : Nat) (results : Nat → List Recvmsg) : Option State :=
  if count = 0 then some s
  else readAndReceiveCommon s fun s id => whole ((recvImpl s id (results id)).map Prod.snd)

/-- Source: `pk_endpoint_send`. A `SUB_SERVER` fails an assertion. -/
def pkEndpointSend (s : State) (results : Nat → List Sendmsg) : Option State :=
  if s.type = .subServer then none
  else foreachClient s fun s id => whole (sendImpl s id (results id))

/-- The calls, with what the system calls in them return, client by client. -/
inductive Action where
  | accept (status : Status) (allocated : Bool) (fd : Nat)
  | wake (id : Nat) (status : Status) (results : List Recvmsg)
  | receive (results : Nat → List Recvmsg)
  | read (count : Nat) (results : Nat → List Recvmsg)
  | send (results : Nat → List Sendmsg)

/-- One call; `none` if it is not made, does not return or fails an assertion. -/
def step (s : State) : Action → Option State
  | .accept status allocated fd => some (acceptWakeHandler s status allocated fd)
  | .wake id status results => handleClientWake s id status results
  | .receive results => pkEndpointReceive s results
  | .read count results => pkEndpointRead s count results
  | .send results => pkEndpointSend s results

/-- A server endpoint. -/
def machine (type : EndpointType) : Machine State Action where
  init := ⟨type, false, 0, [], [], 0, 0, [], []⟩
  step := step

/-- No read wake-up of a `PUB_SERVER` receives nothing. -/
def DiscardsData (s : State) : Action → Prop
  | .wake _ status results =>
    s.type = .pubServer → status.read → ¬ status.error → ¬ status.disconnected → .zero ∉ results
  | _ => True

instance (s : State) (a : Action) : Decidable (DiscardsData s a) := by
  cases a <;> unfold DiscardsData <;> infer_instance

/-! ### The books -/

/-- The numbers of the nodes in the list. -/
def State.ids (s : State) : List Nat := s.clientNodes.map Client.id

/-- The count, the lists and the history agree. -/
structure Books (s : State) : Prop where
  count : s.clientCount + s.removedNodes.length = s.ids.length
  ids : s.ids.Nodup
  removed : ∀ id ∈ s.removedNodes, id ∈ s.ids
  removedOnce : s.removedNodes.Nodup
  recordedOnce : s.recorded.Nodup
  purgedOnce : s.purged.Nodup
  history : ∀ id, id ∈ s.recorded ↔ id ∈ s.purged ∨ id ∈ s.removedNodes
  gone : ∀ id ∈ s.purged, id ∉ s.ids
  fresh : ∀ id, id ∈ s.ids ∨ id ∈ s.purged → id < s.accepted

/-- Tearing a client down leaves the list of nodes. -/
lemma teardownClient_ids (s : State) (id : Nat) : (teardownClient s id).ids = s.ids := by
  simp only [State.ids, teardownClient, List.map_map]
  congr 1
  funext c
  simp only [Function.comp_apply]
  split <;> rfl

variable {s : State} {id : Nat}

/-- The books do not see sockets. -/
lemma Books.teardownClient (h : Books s) (id : Nat) : Books (teardownClient s id) := by
  have hids := teardownClient_ids s id
  refine ⟨?_, ?_, ?_, h.removedOnce, h.recordedOnce, h.purgedOnce, h.history, ?_, ?_⟩ <;> rw [hids]
  · exact h.count
  · exact h.ids
  · exact h.removed
  · exact h.gone
  · exact h.fresh

/-- A client that is in the list and not on its way out may be recorded as disconnected. -/
lemma Books.recordDisconnect (h : Books s) (hid : id ∈ s.ids) (hnot : id ∉ s.removedNodes) :
    Books (recordDisconnect s id) := by
  have hrecorded : id ∉ s.recorded := by
    intro hrec
    rcases (h.history id).mp hrec with hp | hr
    · exact h.gone id hp hid
    · exact hnot hr
  refine ⟨?_, h.ids, ?_, nodup_cons.mpr ⟨hnot, h.removedOnce⟩, ?_, h.purgedOnce, ?_, h.gone,
    h.fresh⟩
  · have hcount := h.count
    show s.clientCount - 1 + ((id :: s.removedNodes).length : Nat) = (s.ids.length : Int)
    rw [length_cons]
    omega
  · intro i hi
    rcases mem_cons.mp hi with rfl | hi
    · exact hid
    · exact h.removed i hi
  · show (s.recorded ++ [id]).Nodup
    rw [← concat_eq_append]
    exact h.recordedOnce.concat hrecorded
  · intro i
    show i ∈ s.recorded ++ [id] ↔ i ∈ s.purged ∨ i ∈ id :: s.removedNodes
    rw [mem_append, h.history i, mem_singleton, mem_cons]
    tauto

lemma purgeClientNode_ids (s : State) (id : Nat) : (purgeClientNode s id).ids = s.ids.erase id := by
  simp only [State.ids, purgeClientNode, erase_eq_eraseP', eraseP_map]
  rfl

/-- The first node that is to be removed is purged. -/
lemma Books.purge (h : Books s) {rest : List Nat} (hremoved : s.removedNodes = id :: rest) :
    Books (purgeClientNode { s with removedNodes := rest } id) := by
  have hid : id ∈ s.ids := h.removed id (by simp [hremoved])
  have hids : (purgeClientNode { s with removedNodes := rest } id).ids = s.ids.erase id :=
    purgeClientNode_ids _ id
  have hpurged : id ∉ s.purged := fun hp => h.gone id hp hid
  have honce := h.removedOnce
  rw [hremoved, nodup_cons] at honce
  refine ⟨?_, ?_, ?_, honce.2, h.recordedOnce, ?_, ?_, ?_, ?_⟩
  · have hcount := h.count
    rw [hremoved, length_cons] at hcount
    rw [hids, length_erase_of_mem hid]
    have hpos := length_pos_of_mem hid
    show s.clientCount + (rest.length : Nat) = ((s.ids.length - 1 : Nat) : Int)
    omega
  · rw [hids]
    exact h.ids.erase id
  · intro i hi
    rw [hids, h.ids.mem_erase_iff]
    refine ⟨?_, h.removed i (by simp [hremoved, show i ∈ rest from hi])⟩
    rintro rfl
    exact honce.1 hi
  · show (s.purged ++ [id]).Nodup
    rw [← concat_eq_append]
    exact h.purgedOnce.concat hpurged
  · intro i
    show i ∈ s.recorded ↔ i ∈ s.purged ++ [id] ∨ i ∈ rest
    rw [h.history i, hremoved, mem_append, mem_singleton, mem_cons]
    tauto
  · intro i hi
    rw [hids, h.ids.mem_erase_iff]
    rcases mem_append.mp hi with hi | hi
    · exact fun hmem => h.gone i hi hmem.2
    · exact fun hmem => hmem.1 (mem_singleton.mp hi)
  · intro i hi
    rw [hids] at hi
    rcases hi with hi | hi
    · exact h.fresh i (.inl (mem_of_mem_erase hi))
    · rcases mem_append.mp hi with hi | hi
      · exact h.fresh i (.inr hi)
      · rw [mem_singleton.mp hi]
        exact h.fresh id (.inl hid)

/-- Processing the removed clients keeps the books and leaves none. -/
lemma Books.processRemovedClients (h : Books s) :
    Books (processRemovedClients s) ∧ (processRemovedClients s).removedNodes = [] := by
  unfold Endpoint.processRemovedClients
  generalize hremoved : s.removedNodes = removed
  induction removed generalizing s with
  | nil => exact ⟨h, hremoved⟩
  | cons id rest ih => exact ih (h.purge hremoved) rfl

/-- The first half of a disconnect: the client is recorded and torn down. -/
def disconnect (s : State) (id : Nat) : State := teardownClient (recordDisconnect s id) id

lemma Books.disconnect (h : Books s) (hid : id ∈ s.ids) (hnot : id ∉ s.removedNodes) :
    Books (disconnect s id) :=
  (h.recordDisconnect hid hnot).teardownClient id

/-! ### Visits of clients -/

variable {s' : State} {results rest : List Recvmsg} {r : Received} {n : Nat}
  {visit : State → Nat → Option State}

/-- A call of `recv_impl` does nothing to the books, or finds the client disconnected. -/
lemma recvImpl_cases (h : recvImpl s id results = some (r, s', rest)) :
    (s' = s ∧ r ≠ .closed) ∨ (s' = disconnect s id ∧ r = .closed) := by
  unfold recvImpl at h
  split at h
  · cases h
    exact .inl ⟨rfl, by simp⟩
  · split at h
    · cases h
    · cases h
      exact .inl ⟨rfl, by simp⟩
    · cases h
      exact .inr ⟨rfl, rfl⟩
    · cases h
      exact .inl ⟨rfl, by simp⟩

/-- The reads of a client end with the first disconnect. -/
lemma serviceReads_cases (h : serviceReads n s id results = some (s', rest)) :
    s' = s ∨ s' = disconnect s id := by
  induction n generalizing s results with
  | zero =>
    cases h
    exact .inl rfl
  | succ n ih =>
    unfold serviceReads at h
    split at h
    · cases h
    · next hrecv =>
        rcases recvImpl_cases hrecv with ⟨rfl, -⟩ | ⟨-, hr⟩
        · exact ih h
        · cases hr
    · next hrecv =>
        cases h
        exact (recvImpl_cases hrecv).imp And.left And.left

/-- A send to a client succeeds or disconnects it. -/
lemma sendImpl_cases {results rest : List Sendmsg} (h : sendImpl s id results = some (s', rest)) :
    s' = s ∨ s' = disconnect s id := by
  unfold sendImpl at h
  split at h
  · cases h
    exact .inr rfl
  · split at h
    · cases h
    · cases h
      exact .inl rfl
    · cases h
      exact .inr rfl

/-- What is left of the results are results. -/
lemma recvmsg_subset {r : Recvmsg} (h : recvmsg results = some (r, rest)) :
    r ∈ results ∧ ∀ r' ∈ rest, r' ∈ results := by
  induction results with
  | nil => cases h
  | cons first results ih =>
    cases first
    case eintr =>
      obtain ⟨hr, hrest⟩ := ih h
      exact ⟨mem_cons_of_mem _ hr, fun r' hr' => mem_cons_of_mem _ (hrest r' hr')⟩
    all_goals
      cases h
      exact ⟨mem_cons_self, fun r' hr' => mem_cons_of_mem _ hr'⟩

/-- Without a receive of nothing, `recv_impl` does nothing to the books. -/
lemma recvImpl_of_not_mem (hzero : .zero ∉ results)
    (h : recvImpl s id results = some (r, s', rest)) : s' = s ∧ .zero ∉ rest := by
  unfold recvImpl at h
  split at h
  · cases h
    exact ⟨rfl, hzero⟩
  · split at h
    · cases h
    all_goals
      next hrecv =>
        obtain ⟨hr, hrest⟩ := recvmsg_subset hrecv
        first
          | exact absurd hr hzero
          | (cases h
             exact ⟨rfl, fun hmem => hzero (hrest _ hmem)⟩)

/-- Discarding data does nothing to the books. -/
lemma discardReadData_eq (hzero : .zero ∉ results)
    (h : discardReadData n s id results = some (s', rest)) : s' = s := by
  induction n generalizing s results with
  | zero =>
    cases h
    rfl
  | succ n ih =>
    unfold discardReadData at h
    split at h
    · cases h
    · next hrecv =>
        cases h
        exact (recvImpl_of_not_mem hzero hrecv).1
    · next hrecv =>
        obtain ⟨rfl, hrest⟩ := recvImpl_of_not_mem hzero hrecv
        exact ih hrest h

lemma eq_some_of_whole {α : Type} {visit : Option (State × List α)} {s' : State}
    (h : whole visit = some s') : visit = some (s', []) := by
  unfold whole at h
  split at h
  · cases h
    rfl
  · cases h

/-- The visits of `pk_endpoint_receive`. -/
lemma receiveVisit_cases (h : whole (serviceReads endpointServiceMax s id results) = some s') :
    s' = s ∨ s' = disconnect s id :=
  serviceReads_cases (eq_some_of_whole h)

/-- The visits of `pk_endpoint_read`. -/
lemma readVisit_cases (h : whole ((recvImpl s id results).map Prod.snd) = some s') :
    s' = s ∨ s' = disconnect s id := by
  obtain ⟨⟨r, s₁, rest⟩, hrecv, heq⟩ := map_eq_some_iff.mp (eq_some_of_whole h)
  cases heq
  exact (recvImpl_cases hrecv).imp And.left And.left

/-- The visits of `pk_endpoint_send`. -/
lemma sendVisit_cases {results : List Sendmsg} (h : whole (sendImpl s id results) = some s') :
    s' = s ∨ s' = disconnect s id :=
  sendImpl_cases (eq_some_of_whole h)

/-- Visits that each leave their client or disconnect it keep the books: every client is visited
once, so none is recorded twice. -/
lemma books_foldlM (hvisit : ∀ s id s', visit s id = some s' → s' = s ∨ s' = disconnect s id)
    {l : List Nat} (hl : l.Nodup) (h : Books s) (hids : ∀ id ∈ l, id ∈ s.ids)
    (hnot : ∀ id ∈ l, id ∉ s.removedNodes) (hfold : l.foldlM visit s = some s') : Books s' := by
  induction l generalizing s with
  | nil =>
    cases hfold
    exact h
  | cons id l ih =>
    simp only [foldlM_cons, bind_eq_bind, bind_eq_some_iff] at hfold
    obtain ⟨s₁, hs₁, hfold⟩ := hfold
    rw [nodup_cons] at hl
    rcases hvisit s id s₁ hs₁ with rfl | rfl
    · exact ih hl.2 h (fun i hi => hids i (mem_cons_of_mem _ hi))
        (fun i hi => hnot i (mem_cons_of_mem _ hi)) hfold
    · have hids' : (disconnect s id).ids = s.ids := teardownClient_ids _ id
      refine ih hl.2 (h.disconnect (hids id mem_cons_self) (hnot id mem_cons_self))
        ?_ ?_ hfold
      · intro i hi
        rw [hids']
        exact hids i (mem_cons_of_mem _ hi)
      · intro i hi hmem
        rcases mem_cons.mp hmem with rfl | hmem
        · exact hl.1 hi
        · exact hnot i (mem_cons_of_mem _ hi) hmem

/-! ### Runs -/

/-- Between calls: the books agree and no node waits to be removed. -/
def Settled (s : State) : Prop := Books s ∧ s.removedNodes = []

/-- All clients are visited, and each visit leaves its client or disconnects it. -/
def Visits (s s' : State) : Prop := ∃ visit : State → Nat → Option State,
    (∀ s id s', visit s id = some s' → s' = s ∨ s' = disconnect s id) ∧
      foreachClient s visit = some s'

/-- A call does nothing, accepts a client, wakes one, or visits all of them; a receive and a read
clear the wake-up first. -/
lemma step_cases {a : Action} (h : step s a = some s') :
    s' = s ∨ (∃ status allocated fd, s' = acceptWakeHandler s status allocated fd) ∨
      (∃ id status results, a = .wake id status results ∧
        handleClientWake s id status results = some s') ∨
      Visits s s' ∨ Visits { s with wakeCounter := 0, woke := false } s' := by
  have hread : ∀ visit, (∀ s id s', visit s id = some s' → s' = s ∨ s' = disconnect s id) →
      readAndReceiveCommon s visit = some s' →
        s' = s ∨ Visits { s with wakeCounter := 0, woke := false } s' := by
    intro visit hvisit h
    unfold readAndReceiveCommon at h
    split_ifs at h
    · exact .inl (some_inj.mp h).symm
    · exact .inl (some_inj.mp h).symm
    · exact .inr ⟨visit, hvisit, h⟩
  cases a with
  | accept status allocated fd => exact .inr (.inl ⟨_, _, _, (some_inj.mp h).symm⟩)
  | wake id status results => exact .inr (.inr (.inl ⟨_, _, _, rfl, h⟩))
  | receive results =>
    exact (hread _ (fun _ _ _ => receiveVisit_cases) h).imp_right (.inr <| .inr <| .inr ·)
  | read count results =>
    simp only [step, pkEndpointRead] at h
    split_ifs at h
    · exact .inl (some_inj.mp h).symm
    · exact (hread _ (fun _ _ _ => readVisit_cases) h).imp_right (.inr <| .inr <| .inr ·)
  | send results =>
    simp only [step, pkEndpointSend] at h
    split_ifs at h
    exact .inr (.inr (.inr (.inl ⟨_, fun _ _ _ => sendVisit_cases, h⟩)))

lemma Settled.visits (h : Settled s) (hvisits : Visits s s') : Settled s' := by
  obtain ⟨visit, hvisit, hstep⟩ := hvisits
  obtain ⟨s₁, hfold, rfl⟩ := map_eq_some_iff.mp hstep
  have hbooks := books_foldlM hvisit h.1.ids h.1 (fun _ hid => hid) (by simp [h.2]) hfold
  exact hbooks.processRemovedClients

/-- The wake-up fields are not in the books. -/
lemma Settled.setWake (h : Settled s) (woke : Bool) (wakeCounter : Nat) :
    Settled { s with woke := woke, wakeCounter := wakeCounter } :=
  ⟨⟨h.1.count, h.1.ids, h.1.removed, h.1.removedOnce, h.1.recordedOnce, h.1.purgedOnce, h.1.history,
    h.1.gone, h.1.fresh⟩, h.2⟩

/-- Accepting a client leaves the endpoint settled. -/
lemma Settled.acceptWakeHandler (h : Settled s) (status : Status) (allocated : Bool) (fd : Nat) :
    Settled (acceptWakeHandler s status allocated fd) := by
  unfold Endpoint.acceptWakeHandler
  split_ifs
  · exact h
  · exact h
  have hnew : s.accepted ∉ s.ids := fun hmem => absurd (h.1.fresh _ (.inl hmem)) (by omega)
  refine ⟨⟨?_, nodup_cons.mpr ⟨hnew, h.1.ids⟩, ?_, h.1.removedOnce, h.1.recordedOnce,
    h.1.purgedOnce, h.1.history, ?_, ?_⟩, h.2⟩
  · have hcount := h.1.count
    show s.clientCount + 1 + (s.removedNodes.length : Int) = ((s.accepted :: s.ids).length : Nat)
    rw [length_cons]
    omega
  · exact fun id hid => mem_cons_of_mem _ (h.1.removed id hid)
  · intro id hid hmem
    rcases mem_cons.mp hmem with rfl | hmem
    · exact absurd (h.1.fresh _ (.inr hid)) (Nat.lt_irrefl _)
    · exact h.1.gone id hid hmem
  · intro id hid
    rcases hid with hid | hid
    · rcases mem_cons.mp hid with rfl | hid
      · exact Nat.lt_succ_self _
      · exact Nat.lt_succ_of_lt (h.1.fresh id (.inl hid))
    · exact Nat.lt_succ_of_lt (h.1.fresh id (.inr hid))

/-- A wake-up with an error disconnects a client of the list. -/
lemma Settled.books_disconnected (h : Settled s)
    (hpolled : ¬(!s.clientNodes.any fun c => c.id == id && c.polled) = true) :
    Books (recordDisconnect (teardownClient s id) id) := by
  obtain ⟨c, hc, hcid⟩ : ∃ c ∈ s.clientNodes, c.id = id ∧ c.polled := by simpa using hpolled
  have hid : id ∈ s.ids := hcid.1 ▸ List.mem_map_of_mem hc
  exact (h.1.teardownClient id).recordDisconnect (by rw [teardownClient_ids]; exact hid)
    (by simp [teardownClient, h.2])

/-- A wake-up of a client leaves the endpoint settled. -/
lemma Settled.handleClientWake (h : Settled s) {status : Status}
    (hok : DiscardsData s (.wake id status results))
    (hstep : handleClientWake s id status results = some s') : Settled s' := by
  unfold Endpoint.handleClientWake at hstep
  split_ifs at hstep with hpolled hdisconnect hdiscard
  · cases hstep
    exact (h.books_disconnected hpolled).processRemovedClients
  · obtain ⟨hread, htype⟩ : status.read = true ∧ s.type = .pubServer := by simpa using hdiscard
    obtain ⟨herror, hdisc⟩ : status.error = false ∧ status.disconnected = false := by
      simpa using hdisconnect
    have hzero := hok htype hread (by simp [herror]) (by simp [hdisc])
    rw [discardReadData_eq hzero (eq_some_of_whole hstep)]
    exact h
  · cases hstep
    exact h
  · cases hstep
    exact h.setWake true (s.wakeCounter + 1)

lemma settled_init (type : EndpointType) : Settled (machine type).init :=
  ⟨⟨rfl, nodup_nil, by simp [machine], nodup_nil, nodup_nil, nodup_nil,
    by simp [machine], by simp [machine], by simp [machine, State.ids]⟩, rfl⟩

/-- Every call leaves the books settled if no read wake-up of a `PUB_SERVER` receives nothing. -/
lemma settled_step {a : Action} (h : Settled s) (hok : DiscardsData s a)
    (hstep : step s a = some s') : Settled s' := by
  obtain rfl | ⟨status, allocated, fd, rfl⟩ | ⟨id, status, results, rfl, hwake⟩ | hvisits |
    hvisits := step_cases hstep
  · exact h
  · exact h.acceptWakeHandler status allocated fd
  · exact h.handleClientWake hok hwake
  · exact h.visits hvisits
  · exact (h.setWake false 0).visits hvisits

/-- In every run without a read wake-up of a `PUB_SERVER` that receives nothing, every client is
recorded as disconnected at most once and purged at most once, and between calls the count is the
number of nodes. -/
theorem books_of_reaches (type : EndpointType) {s : State}
    (h : ((machine type).restrict DiscardsData).Reaches s) :
    s.recorded.Nodup ∧ s.purged.Nodup ∧ s.clientCount = s.clientNodes.length := by
  have hsettled : Settled s := h.invariant_restrict Settled (settled_init type)
      fun s a s' hs hok hstep => settled_step hs hok hstep
  obtain ⟨hbooks, hremoved⟩ := hsettled
  have hcount := hbooks.count
  simp only [hremoved, length_nil, State.ids, length_map] at hcount
  exact ⟨hbooks.recordedOnce, hbooks.purgedOnce, by simpa using hcount⟩

/-- A client connects to a `REP`, is woken for a message, closes its end, and is received from and
sent to. -/
def closeWhileReceiving : List Action :=
  [.accept ⟨true, false, false⟩ true 5, .accept ⟨true, false, false⟩ true 6,
    .wake 0 ⟨true, false, false⟩ [],
    .receive fun id => if id = 0 then [.data false, .zero] else [.eagain],
    .send fun _ => [.sent]]

theorem books_of_reaches_closeWhileReceiving :
    ∃ s, ((machine .rep).restrict DiscardsData).Reaches s ∧ s.recorded = [0] ∧
      s.recorded.Nodup ∧ s.purged.Nodup ∧ s.clientCount = s.clientNodes.length :=
  Machine.exists_reaches_and_of_run closeWhileReceiving (by decide +kernel) fun _ hs _ =>
    books_of_reaches .rep hs

/-- A client of a `PUB_SERVER` closes its end; the loop wakes for a read, and then the server
sends. -/
def closeThenSend : List Action :=
  [.accept ⟨true, false, false⟩ true 5, .wake 0 ⟨true, false, false⟩ [.zero], .send fun _ => []]

theorem books_wrong_reached :
    (∃ s, (machine .pubServer).Reaches s ∧ s.clientCount ≠ s.clientNodes.length) ∧
    (∃ s, (machine .pubServer).Reaches s ∧ ¬ s.recorded.Nodup ∧ ¬ s.purged.Nodup) :=
  ⟨Machine.exists_reaches_of_run (closeThenSend.take 2) (by decide +kernel),
    Machine.exists_reaches_of_run closeThenSend (by decide +kernel)⟩

end PiksiBuildroot.Libpiksi.Endpoint
