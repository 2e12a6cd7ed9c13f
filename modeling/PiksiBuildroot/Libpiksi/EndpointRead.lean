import PiksiBuildroot.Libpiksi.Endpoint

/-!
# Reading one message from a server endpoint

`pk_endpoint_read` is to read a single message. For a server it visits every client of the list with
one buffer and one length, which for each further client is what the last receive returned. So a
message is taken from every client that has one, each overwrites the one before, and if no client
has one the call returns the size of the buffer (`readsOne_iff`).
-/

namespace PiksiBuildroot.Libpiksi.EndpointRead

open Function Lib Endpoint List Option

/-- The other end of a connection. -/
inductive Peer where
  | connected
  | closed
  | failed
  deriving DecidableEq, Repr

/-- The socket of a client: the messages that were sent to it and not yet received. -/
structure Socket where
  queue : List (List UInt8)
  peer : Peer
  deriving DecidableEq, Repr

/-- What `recvmsg` returns: some bytes, which at the end of the connection are none, or an error. -/
inductive Recvd where
  | bytes (data : List UInt8)
  | eagain
  | error
  deriving DecidableEq, Repr

/-- A call of `recvmsg` on a socket of type `SOCK_SEQPACKET` takes one message; what does not fit in
the `iovLen` bytes of the buffer is lost. -/
def Socket.recvmsg (sock : Socket) (iovLen : Nat) : Recvd × Socket :=
  match sock.queue, sock.peer with
  | message :: queue, _ => (.bytes (message.take iovLen), { sock with queue := queue })
  | [], .connected => (.eagain, sock)
  | [], .closed => (.bytes [], sock)
  | [], .failed => (.error, sock)

/-- The endpoint, the sockets of its clients, the messages taken from them so far, the buffer of the
caller and the length that the visits share. -/
structure Reading where
  ept : State
  sockets : Nat → Socket
  taken : List (List UInt8)
  buffer : List UInt8
  length : Nat

/-- Source: `recv_impl`. A call on a closed socket fails with `EBADF`. -/
def recvImpl (r : Reading) (id : Nat) : Reading := match handleOf r.ept id with
  | none => r
  | some _ =>
    match (r.sockets id).recvmsg r.length with
    | (.bytes data, sock) =>
      { ept := if data = [] then disconnect r.ept id else r.ept
        sockets := Function.update r.sockets id sock
        taken := r.taken ++ (r.sockets id).queue.take 1
        buffer := data ++ r.buffer.drop data.length
        length := data.length }
    | _ => r

/-- What a read returns, and what it leaves. -/
structure ReadResult where
  ret : Int
  reading : Reading

/-- Source: `pk_endpoint_read`, `read_and_receive_common` for a server. The read handler's return
value is not used, and an assertion fails if the event counter is not one. -/
def pkEndpointRead (s : State) (sockets : Nat → Socket) (buffer : List UInt8) : Option ReadResult :=
  let reading : Reading := ⟨s, sockets, [], buffer, buffer.length⟩
  if buffer.length = 0 then some ⟨0, reading⟩
  else if s.type = .pubServer then some ⟨-1, reading⟩
  else if s.wakeCounter = 0 then some ⟨-1, reading⟩
  else if s.wakeCounter = 1 ∧ s.woke then
    let visited := s.ids.foldl recvImpl
      { reading with ept := { s with wakeCounter := 0, woke := false } }
    some ⟨visited.length, { visited with ept := processRemovedClients visited.ept }⟩
  else none

/-! ### What a read is for -/

/-- A client that is connected and has a message. -/
def HasMessage (s : State) (sockets : Nat → Socket) (id : Nat) : Prop :=
  (handleOf s id).isSome = true ∧ (sockets id).queue ≠ []

instance (s : State) (sockets : Nat → Socket) (id : Nat) : Decidable (HasMessage s sockets id) := by
  unfold HasMessage
  infer_instance

/-- A client that has closed its end, and all of whose messages have been received. -/
def HasEnded (s : State) (sockets : Nat → Socket) (id : Nat) : Prop :=
  (handleOf s id).isSome = true ∧ (sockets id).queue = [] ∧ (sockets id).peer = .closed

instance (s : State) (sockets : Nat → Socket) (id : Nat) : Decidable (HasEnded s sockets id) := by
  unfold HasEnded
  infer_instance

/-- The clients that have a message. -/
def withMessage (s : State) (sockets : Nat → Socket) : List Nat :=
  s.ids.filter fun id => HasMessage s sockets id

/-- A read takes at most one message, and what it returns is that message. -/
structure ReadsOne (s : State) (sockets : Nat → Socket) (buffer : List UInt8) (r : ReadResult) :
    Prop where
  atMostOne : r.reading.taken.length ≤ 1
  message : 0 < r.ret → ∃ m, r.reading.taken = [m] ∧ r.ret = (min m.length buffer.length : Nat) ∧
    r.reading.buffer.take r.ret.toNat = m.take r.ret.toNat
  nothing : withMessage s sockets = [] → r.ret ≤ 0

/-! ### Visits -/

variable {s : State} {id other : Nat}

lemma handleOf_disconnect (h : other ≠ id) :
    handleOf (disconnect s id) other = handleOf s other := by
  have hfind : ∀ clients : List Client, ((clients.map fun c =>
        if c.id = id then { c with handle := none, polled := false } else c).find?
        fun c => c.id == other) = clients.find? fun c => c.id == other := by
    intro clients
    induction clients with
    | nil => rfl
    | cons c clients ih =>
      rw [map_cons, find?_cons, find?_cons, ih]
      by_cases hid : c.id = id
      · have hne : (c.id == other) = false := by simpa [hid] using h.symm
        rw [if_pos hid]
        simp only [hne]
      · rw [if_neg hid]
  unfold handleOf disconnect teardownClient recordDisconnect
  rw [hfind]

lemma recvImpl_of_none {r : Reading} (h : handleOf r.ept id = none) : recvImpl r id = r := by
  simp only [recvImpl, h]

lemma recvImpl_of_bytes {r : Reading} (hopen : (handleOf r.ept id).isSome = true)
    {data : List UInt8} {sock : Socket}
    (hrecv : (r.sockets id).recvmsg r.length = (.bytes data, sock)) :
    recvImpl r id =
      { ept := if data = [] then disconnect r.ept id else r.ept
        sockets := update r.sockets id sock
        taken := r.taken ++ (r.sockets id).queue.take 1
        buffer := data ++ r.buffer.drop data.length
        length := data.length } := by
  obtain ⟨fd, hfd⟩ := isSome_iff_exists.mp hopen
  simp only [recvImpl, hfd, hrecv]

lemma recvImpl_of_not_bytes {r : Reading}
    (h : ∀ data sock, (r.sockets id).recvmsg r.length ≠ (.bytes data, sock)) :
    recvImpl r id = r := by
  unfold recvImpl
  split
  · rfl
  · split
    · rename_i data sock hrecv
      exact absurd hrecv (h data sock)
    · rfl

/-- A visit leaves the other clients. -/
lemma recvImpl_other (r : Reading) (h : other ≠ id) :
    handleOf (recvImpl r id).ept other = handleOf r.ept other ∧
      (recvImpl r id).sockets other = r.sockets other := by
  unfold recvImpl
  split
  · exact ⟨rfl, rfl⟩
  · split
    · refine ⟨?_, update_of_ne h _ _⟩
      split_ifs
      · exact handleOf_disconnect h
      · rfl
    · exact ⟨rfl, rfl⟩

/-- A client that has a message gives it. -/
lemma recvImpl_of_message {r : Reading} {m : List UInt8} {queue : List (List UInt8)}
    (hopen : (handleOf r.ept id).isSome = true) (hqueue : (r.sockets id).queue = m :: queue) :
    (recvImpl r id).taken = r.taken ++ [m] ∧ (recvImpl r id).length = (m.take r.length).length ∧
      (recvImpl r id).buffer = m.take r.length ++ r.buffer.drop (m.take r.length).length := by
  have hrecv : (r.sockets id).recvmsg r.length =
      (.bytes (m.take r.length), { r.sockets id with queue := queue }) := by
    unfold Socket.recvmsg
    rw [hqueue]
  rw [recvImpl_of_bytes hopen hrecv, hqueue]
  exact ⟨rfl, rfl, rfl⟩

/-- A client without a message leaves the buffer, and the length unless its connection has ended. -/
lemma recvImpl_of_not_hasMessage {r : Reading} (h : ¬HasMessage r.ept r.sockets id) :
    (recvImpl r id).taken = r.taken ∧ (recvImpl r id).buffer = r.buffer ∧
      (recvImpl r id).length = if HasEnded r.ept r.sockets id then 0 else r.length := by
  by_cases hended : HasEnded r.ept r.sockets id
  · have hrecv : (r.sockets id).recvmsg r.length = (.bytes [], r.sockets id) := by
      unfold Socket.recvmsg
      rw [hended.2.1, hended.2.2]
    rw [recvImpl_of_bytes hended.1 hrecv, if_pos hended, hended.2.1]
    exact ⟨append_nil _, rfl, rfl⟩
  · have hsame : recvImpl r id = r := by
      cases hfd : handleOf r.ept id with
      | none => exact recvImpl_of_none hfd
      | some fd =>
        have hopen : (handleOf r.ept id).isSome = true := by rw [hfd]; rfl
        have hqueue : (r.sockets id).queue = [] := not_not.mp fun hne => h ⟨hopen, hne⟩
        have hpeer : (r.sockets id).peer ≠ .closed := fun hpeer =>
          hended ⟨hopen, hqueue, hpeer⟩
        apply recvImpl_of_not_bytes
        intro data sock hrecv
        unfold Socket.recvmsg at hrecv
        rw [hqueue] at hrecv
        cases hcase : (r.sockets id).peer with
        | connected | failed => simp [hcase] at hrecv
        | closed => exact hpeer hcase
    rw [hsame, if_neg hended]
    exact ⟨rfl, rfl, rfl⟩

lemma hasMessage_recvImpl (r : Reading) (h : other ≠ id) :
    HasMessage (recvImpl r id).ept (recvImpl r id).sockets other ↔
      HasMessage r.ept r.sockets other := by
  obtain ⟨hhandle, hsocket⟩ := recvImpl_other r h
  unfold HasMessage
  rw [hhandle, hsocket]

lemma hasEnded_recvImpl (r : Reading) (h : other ≠ id) :
    HasEnded (recvImpl r id).ept (recvImpl r id).sockets other ↔
      HasEnded r.ept r.sockets other := by
  obtain ⟨hhandle, hsocket⟩ := recvImpl_other r h
  unfold HasEnded
  rw [hhandle, hsocket]

/-! ### All visits of a read -/

variable {l : List Nat}

/-- Visits leave the clients that are not visited. -/
lemma foldl_other {other : Nat} (h : other ∉ l) (r : Reading) :
    handleOf (l.foldl recvImpl r).ept other = handleOf r.ept other ∧
      (l.foldl recvImpl r).sockets other = r.sockets other := by
  induction l generalizing r with
  | nil => exact ⟨rfl, rfl⟩
  | cons id l ih =>
    obtain ⟨hne, hl⟩ := not_or.mp (mt mem_cons.mpr h)
    obtain ⟨hhandle, hsocket⟩ := recvImpl_other r hne
    obtain ⟨hhandle', hsocket'⟩ := ih hl (recvImpl r id)
    exact ⟨hhandle'.trans hhandle, hsocket'.trans hsocket⟩

/-- As many messages are taken as there are clients with one. -/
lemma length_taken_foldl (hl : l.Nodup) (r : Reading) : (l.foldl recvImpl r).taken.length =
      r.taken.length + (l.filter fun id => HasMessage r.ept r.sockets id).length := by
  induction l generalizing r with
  | nil => rfl
  | cons id l ih =>
    obtain ⟨hid, hl⟩ := nodup_cons.mp hl
    have hfilter : (l.filter fun other =>
        HasMessage (recvImpl r id).ept (recvImpl r id).sockets other) =
        l.filter fun other => HasMessage r.ept r.sockets other := by
      apply filter_congr
      intro other hother
      rw [decide_eq_decide]
      exact hasMessage_recvImpl r (ne_of_mem_of_not_mem hother hid)
    rw [foldl_cons, ih hl, hfilter]
    by_cases hmessage : HasMessage r.ept r.sockets id
    · obtain ⟨m, queue, hqueue⟩ := exists_cons_of_ne_nil hmessage.2
      rw [(recvImpl_of_message hmessage.1 hqueue).1, filter_cons_of_pos (by simpa using hmessage),
        length_append, length_singleton, length_cons]
      omega
    · rw [(recvImpl_of_not_hasMessage hmessage).1, filter_cons_of_neg (by simpa using hmessage)]

/-- Visits of clients without a message. -/
lemma foldl_of_not_hasMessage (hl : l.Nodup) {r : Reading}
    (h : ∀ id ∈ l, ¬HasMessage r.ept r.sockets id) :
    (l.foldl recvImpl r).taken = r.taken ∧ (l.foldl recvImpl r).buffer = r.buffer ∧
      (l.foldl recvImpl r).length =
        if ∃ id ∈ l, HasEnded r.ept r.sockets id then 0 else r.length := by
  induction l generalizing r with
  | nil => exact ⟨rfl, rfl, by simp⟩
  | cons id l ih =>
    obtain ⟨hid, hl⟩ := nodup_cons.mp hl
    obtain ⟨hfirst, hrest⟩ := forall_mem_cons.mp h
    have hne : ∀ other ∈ l, other ≠ id := fun other hother => ne_of_mem_of_not_mem hother hid
    obtain ⟨htaken, hbuffer, hlength⟩ := recvImpl_of_not_hasMessage hfirst
    obtain ⟨htaken', hbuffer', hlength'⟩ := @ih hl (recvImpl r id) fun other hother =>
      mt (hasMessage_recvImpl r (hne other hother)).mp (hrest other hother)
    have hended : (∃ other ∈ l, HasEnded (recvImpl r id).ept (recvImpl r id).sockets other) ↔
        ∃ other ∈ l, HasEnded r.ept r.sockets other := by
      refine exists_congr fun other => and_congr_right fun hother => ?_
      exact hasEnded_recvImpl r (hne other hother)
    refine ⟨htaken'.trans htaken, hbuffer'.trans hbuffer, ?_⟩
    rw [foldl_cons, hlength', hlength]
    simp only [hended, exists_mem_cons_iff]
    by_cases h1 : HasEnded r.ept r.sockets id
    · simp [h1]
    · simp [h1]

/-- One client has a message: what the visits leave is that message, unless a connection has
ended. -/
lemma foldl_of_one (hl : l.Nodup) {r : Reading} (htaken : r.taken = [])
    (h : (l.filter fun id => HasMessage r.ept r.sockets id).length = 1)
    (hpos : 0 < (l.foldl recvImpl r).length) :
    ∃ m, (l.foldl recvImpl r).taken = [m] ∧ (l.foldl recvImpl r).length = min m.length r.length ∧
      (l.foldl recvImpl r).buffer.take (l.foldl recvImpl r).length =
        m.take (l.foldl recvImpl r).length := by
  obtain ⟨id, hid⟩ := length_eq_one_iff.mp h
  obtain ⟨l₁, l₂, rfl, hl₁, hmessage, hl₂⟩ := filter_eq_cons_iff.mp hid
  obtain ⟨hnodup₁, hnodup, hdisjoint⟩ := nodup_append.mp hl
  obtain ⟨hid₂, hnodup₂⟩ := nodup_cons.mp hnodup
  have hid₁ : id ∉ l₁ := fun hmem => hdisjoint id hmem id mem_cons_self rfl
  rw [foldl_append, foldl_cons] at hpos ⊢
  -- the clients in front of the one with the message
  obtain ⟨htaken₁, hbuffer₁, hlength₁⟩ := @foldl_of_not_hasMessage l₁ hnodup₁ r fun other hother =>
    by simpa using hl₁ other hother
  have hother₁ := fun other (hother : other ∉ l₁) => foldl_other hother r
  generalize l₁.foldl recvImpl r = r₁ at hpos htaken₁ hbuffer₁ hlength₁ hother₁ ⊢
  -- the client with the message
  have hopen : (handleOf r₁.ept id).isSome = true ∧ (r₁.sockets id).queue ≠ [] := by
    rw [(hother₁ id hid₁).1, (hother₁ id hid₁).2]
    exact of_decide_eq_true hmessage
  obtain ⟨m, queue, hqueue⟩ := exists_cons_of_ne_nil hopen.2
  obtain ⟨htaken₂, hlength₂, hbuffer₂⟩ := recvImpl_of_message hopen.1 hqueue
  -- the clients behind it
  have hquiet : ∀ other ∈ l₂, ¬HasMessage (recvImpl r₁ id).ept (recvImpl r₁ id).sockets other := by
    intro other hother
    have hne : other ≠ id := ne_of_mem_of_not_mem hother hid₂
    have hnot : other ∉ l₁ := fun hmem =>
      hdisjoint other hmem other (mem_cons_of_mem _ hother) rfl
    rw [hasMessage_recvImpl r₁ hne, HasMessage, (hother₁ other hnot).1, (hother₁ other hnot).2]
    exact fun hmem => filter_eq_nil_iff.mp hl₂ other hother (decide_eq_true hmem)
  obtain ⟨htaken₃, hbuffer₃, hlength₃⟩ := foldl_of_not_hasMessage hnodup₂ hquiet
  rw [hlength₃] at hpos
  split_ifs at hpos with hended
  · exact absurd hpos (Nat.lt_irrefl 0)
  rw [if_neg hended] at hlength₃
  have hfull : r₁.length = r.length := by
    rw [hlength₂, length_take] at hpos
    split_ifs at hlength₁
    · omega
    · exact hlength₁
  refine ⟨m, ?_, ?_, ?_⟩
  · rw [htaken₃, htaken₂, htaken₁, htaken]
    rfl
  · rw [hlength₃, hlength₂, length_take, hfull, Nat.min_comm]
  · rw [hbuffer₃, hbuffer₂, hlength₃, hlength₂, take_left' rfl, length_take,
      ← take_take, take_of_length_le (Nat.le_of_eq rfl)]

/-! ### Wake-ups of reached endpoints -/

variable {s' : State} {visit : State → Nat → Option State}

/-- What a disconnect keeps, the visits of all clients keep. -/
lemma foldlM_invariant {P : State → Prop} (hdisconnect : ∀ s id, P s → P (disconnect s id))
    (hvisit : ∀ s id s', visit s id = some s' → s' = s ∨ s' = disconnect s id)
    (hs : P s) (h : l.foldlM visit s = some s') : P s' := by
  induction l generalizing s with
  | nil =>
    cases h
    exact hs
  | cons id l ih =>
    simp only [foldlM_cons, bind_eq_bind, bind_eq_some_iff] at h
    obtain ⟨s₁, hs₁, h⟩ := h
    obtain rfl | rfl := hvisit s id s₁ hs₁
    · exact ih hs h
    · exact ih (hdisconnect s id hs) h

/-- The fields that visits of clients leave. -/
def wakeFields (s : State) : EndpointType × Bool × Nat := (s.type, s.woke, s.wakeCounter)

lemma wakeFields_processRemoved (l : List Nat) (s : State) :
    wakeFields (processRemoved l s) = wakeFields s := by
  induction l generalizing s with
  | nil => rfl
  | cons id l ih => exact ih _

lemma wakeFields_visits (h : Visits s s') : wakeFields s' = wakeFields s := by
  obtain ⟨visit, hvisit, h⟩ := h
  obtain ⟨s₁, hfold, rfl⟩ := map_eq_some_iff.mp h
  have hkeep : wakeFields s₁ = wakeFields s :=
    foldlM_invariant (P := (wakeFields · = wakeFields s)) (fun _ _ heq => heq) hvisit rfl hfold
  rw [processRemovedClients, wakeFields_processRemoved, hkeep]

/-- The event counter is one while a wake-up is pending, and zero otherwise. -/
def WakeMatches (s : State) : Prop := s.wakeCounter = if s.woke then 1 else 0

lemma WakeMatches.of_wakeFields (hs : WakeMatches s) (h : wakeFields s' = wakeFields s) :
    s'.type = s.type ∧ WakeMatches s' := by
  simp only [wakeFields, Prod.mk.injEq] at h
  rw [WakeMatches, h.2.1, h.2.2]
  exact ⟨h.1, hs⟩

lemma wakeFields_discardReadData {n : Nat} {results rest : List Recvmsg}
    (h : discardReadData n s id results = some (s', rest)) : wakeFields s' = wakeFields s := by
  induction n generalizing s results with
  | zero =>
    cases h
    rfl
  | succ n ih =>
    unfold discardReadData at h
    split at h
    · cases h
    · rename_i hrecv
      cases h
      obtain ⟨rfl, -⟩ | ⟨rfl, -⟩ := recvImpl_cases hrecv
      · rfl
      · rfl
    · rename_i hrecv
      rw [ih h]
      obtain ⟨rfl, -⟩ | ⟨rfl, -⟩ := recvImpl_cases hrecv
      · rfl
      · rfl

lemma WakeMatches.handleClientWake (hs : WakeMatches s) {status : Status} {results : List Recvmsg}
    (h : handleClientWake s id status results = some s') : s'.type = s.type ∧ WakeMatches s' := by
  unfold Endpoint.handleClientWake at h
  split_ifs at h with hpolled hdisconnect hdiscard hwoke
  · cases h
    exact hs.of_wakeFields (wakeFields_processRemoved _ _)
  · exact hs.of_wakeFields (wakeFields_discardReadData (eq_some_of_whole h))
  · cases h
    exact ⟨rfl, hs⟩
  · cases h
    simp only [WakeMatches, if_neg hwoke] at hs
    exact ⟨rfl, by simp [WakeMatches, hs]⟩

lemma WakeMatches.step {a : Action} (hs : WakeMatches s) (h : step s a = some s') :
    s'.type = s.type ∧ WakeMatches s' := by
  obtain rfl | ⟨status, allocated, fd, rfl⟩ | ⟨id, status, results, rfl, hwake⟩ | hvisits |
    hvisits := step_cases h
  · exact ⟨rfl, hs⟩
  · apply hs.of_wakeFields
    unfold acceptWakeHandler
    split_ifs
    · rfl
    · rfl
    · rfl
  · exact hs.handleClientWake hwake
  · exact hs.of_wakeFields (wakeFields_visits hvisits)
  · -- a receive or a read clears a wake-up that is pending
    have hcleared : WakeMatches { s with wakeCounter := 0, woke := false } := rfl
    exact hcleared.of_wakeFields (wakeFields_visits hvisits)

variable {type : EndpointType}

/-- In every state reached the type is the one at first and the event counter matches. -/
lemma wakeMatches_of_reaches (h : (machine type).Reaches s) : s.type = type ∧ WakeMatches s := by
  induction h with
  | init => exact ⟨rfl, rfl⟩
  | step _ hstep ih =>
    obtain ⟨htype, hwake⟩ := ih.2.step hstep
    exact ⟨htype.trans ih.1, hwake⟩

/-- The books of a server that is read agree in every state reached. -/
lemma settled_of_reaches (htype : type ≠ .pubServer) (h : (machine type).Reaches s) :
    Settled s := by
  have hok : ∀ {s : State}, s.type ≠ .pubServer → ∀ a, DiscardsData s a := by
    intro s hs a
    cases a with
    | wake id status results => exact fun hpub => absurd hpub hs
    | accept | receive | read | send => trivial
  induction h with
  | init => exact settled_init type
  | step hreach hstep ih =>
    exact settled_step ih (hok ((wakeMatches_of_reaches hreach).1 ▸ htype) _) hstep

/-! ### Reads -/

/-- What a read leaves before removed clients are processed: all clients are visited. -/
def visited (s : State) (sockets : Nat → Socket) (buffer : List UInt8) : Reading :=
  s.ids.foldl recvImpl
    ⟨{ s with wakeCounter := 0, woke := false }, sockets, [], buffer, buffer.length⟩

/-- What a read with room for some bytes returns. -/
def visitedResult (s : State) (sockets : Nat → Socket) (buffer : List UInt8) : ReadResult where
  ret := (visited s sockets buffer).length
  reading := { visited s sockets buffer with
      ept := processRemovedClients (visited s sockets buffer).ept }

variable {buffer : List UInt8}

lemma pkEndpointRead_eq (htype : type ≠ .pubServer) (hs : (machine type).Reaches s)
    (hwoke : s.woke = true) (sockets : Nat → Socket) (hbuffer : buffer ≠ []) :
    pkEndpointRead s sockets buffer = some (visitedResult s sockets buffer) := by
  obtain ⟨htype', hwake⟩ := wakeMatches_of_reaches hs
  rw [WakeMatches, if_pos hwoke] at hwake
  unfold pkEndpointRead
  rw [if_neg (mt length_eq_zero_iff.mp hbuffer), if_neg (htype' ▸ htype), if_neg (by omega),
    if_pos ⟨hwake, hwoke⟩]
  rfl

section
variable (hids : s.ids.Nodup) {sockets : Nat → Socket}
include hids

lemma length_taken_visited :
    (visited s sockets buffer).taken.length = (withMessage s sockets).length :=
  (length_taken_foldl hids _).trans (Nat.zero_add _)

/-- Without a message the length stays the size of the buffer unless a connection has ended. -/
lemma length_visited_of_nil (hnil : withMessage s sockets = []) :
    (visited s sockets buffer).length =
      if ∃ id ∈ s.ids, HasEnded s sockets id then 0 else buffer.length := by
  have hquiet : ∀ id ∈ s.ids, ¬HasMessage s sockets id := fun id hid hmem =>
    filter_eq_nil_iff.mp hnil id hid (decide_eq_true hmem)
  exact (@foldl_of_not_hasMessage s.ids hids
    ⟨{ s with wakeCounter := 0, woke := false }, sockets, [], buffer, buffer.length⟩ hquiet).2.2

lemma readsOne_of_one (hone : (withMessage s sockets).length = 1) :
    ReadsOne s sockets buffer (visitedResult s sockets buffer) := by
  refine ⟨Nat.le_of_eq ((length_taken_visited hids).trans hone), fun hpos => ?_, fun hnil => ?_⟩
  · obtain ⟨m, hm, hlength, htake⟩ := @foldl_of_one s.ids hids
      ⟨{ s with wakeCounter := 0, woke := false }, sockets, [], buffer, buffer.length⟩ rfl hone
      (Int.natCast_pos.mp hpos)
    exact ⟨m, hm, congrArg Nat.cast hlength, htake⟩
  · rw [hnil] at hone
    cases hone

lemma readsOne_of_ended (hnil : withMessage s sockets = [])
    (hended : ∃ id ∈ s.ids, HasEnded s sockets id) :
    ReadsOne s sockets buffer (visitedResult s sockets buffer) := by
  have hlength := @length_visited_of_nil _ buffer hids _ hnil
  rw [if_pos hended] at hlength
  have hret : (visitedResult s sockets buffer).ret = 0 := congrArg Nat.cast hlength
  refine ⟨?_, fun hpos => ?_, fun _ => Int.le_of_eq hret⟩
  · exact Nat.le_trans (Nat.le_of_eq ((length_taken_visited hids).trans (by rw [hnil]; rfl)))
      (Nat.zero_le 1)
  · rw [hret] at hpos
    exact absurd hpos (Int.lt_irrefl 0)

/-- A read that takes one message at most found one, or the end of a connection. -/
lemma one_or_ended_of_readsOne (hbuffer : buffer ≠ [])
    (h : ReadsOne s sockets buffer (visitedResult s sockets buffer)) :
    (withMessage s sockets).length = 1 ∨
      (withMessage s sockets = [] ∧ ∃ id ∈ s.ids, HasEnded s sockets id) := by
  have hle : (withMessage s sockets).length ≤ 1 := length_taken_visited hids ▸ h.atMostOne
  obtain hzero | hone := Nat.le_one_iff_eq_zero_or_eq_one.mp hle
  · have hnil := length_eq_zero_iff.mp hzero
    refine Or.inr ⟨hnil, ?_⟩
    by_contra hended
    have hlength := @length_visited_of_nil _ buffer hids _ hnil
    rw [if_neg hended] at hlength
    have hret : ((visited s sockets buffer).length : Int) ≤ 0 := h.nothing hnil
    have hpos := length_pos_of_ne_nil hbuffer
    omega
  · exact Or.inl hone

end

/-! ### Reads and the books -/

/-- What a call of `recvmsg` on the socket is to the books. -/
def Socket.result (sock : Socket) (iovLen : Nat) : Recvmsg := match (sock.recvmsg iovLen).1 with
  | .bytes data => if data = [] then .zero else .data false
  | .eagain => .eagain
  | .error => .error

/-- What the calls of `recvmsg` in the visits of some clients return: what their sockets give for
the length that the visits before have left, and nothing for a client without a socket. -/
def results (r : Reading) : List Nat → Nat → List Recvmsg
  | [] => fun _ => []
  | id :: l => update (results (recvImpl r id) l) id
    (if (handleOf r.ept id).isSome then [(r.sockets id).result r.length] else [])

/-- A visit does to the endpoint what it does in `Endpoint` for what the socket gives. -/
lemma whole_recvImpl (r : Reading) (id : Nat) :
    whole ((Endpoint.recvImpl r.ept id (if (handleOf r.ept id).isSome then
      [(r.sockets id).result r.length] else [])).map Prod.snd) = some (recvImpl r id).ept := by
  cases hfd : handleOf r.ept id with
  | none =>
    rw [recvImpl_of_none hfd]
    simp only [Endpoint.recvImpl, hfd]
    rfl
  | some fd =>
    have hopen : (handleOf r.ept id).isSome = true := by rw [hfd]; rfl
    rw [isSome_some, if_pos rfl, Socket.result]
    cases hrecv : (r.sockets id).recvmsg r.length with
    | mk recvd sock =>
      cases recvd with
      | bytes data =>
        rw [recvImpl_of_bytes hopen hrecv]
        by_cases hdata : data = []
        · simp only [Endpoint.recvImpl, hfd, if_pos hdata]
          rfl
        · simp only [Endpoint.recvImpl, hfd, if_neg hdata]
          rfl
      | eagain | error =>
        rw [recvImpl_of_not_bytes (by simp [hrecv])]
        simp only [Endpoint.recvImpl, hfd]
        rfl

lemma foldlM_congr {f g : State → Nat → Option State} (h : ∀ s, ∀ id ∈ l, f s id = g s id)
    (s : State) : l.foldlM f s = l.foldlM g s := by
  induction l generalizing s with
  | nil => rfl
  | cons id l ih =>
    rw [foldlM_cons, foldlM_cons, h s id mem_cons_self]
    congr 1
    funext s'
    exact ih (fun s other hother => h s other (mem_cons_of_mem _ hother)) s'

lemma foldlM_results (hl : l.Nodup) (r : Reading) :
    l.foldlM (fun s id => whole ((Endpoint.recvImpl s id (results r l id)).map Prod.snd)) r.ept =
      some (l.foldl recvImpl r).ept := by
  induction l generalizing r with
  | nil => rfl
  | cons id l ih =>
    obtain ⟨hid, hl⟩ := nodup_cons.mp hl
    rw [foldlM_cons, results, update_self, whole_recvImpl, bind_eq_bind,
      bind_some, foldl_cons, ← ih hl]
    apply foldlM_congr
    intro s other hother
    rw [update_of_ne (ne_of_mem_of_not_mem hother hid)]

/-- For every server endpoint that was woken, and whatever its clients have sent: a read takes one
message and returns it exactly if one client has a message, or none has and a connection has
ended. -/
theorem readsOne_iff {type : EndpointType} (htype : type ≠ .pubServer) {s : State}
    (hs : (machine type).Reaches s) (hwoke : s.woke = true) (sockets : Nat → Socket)
    (buffer : List UInt8) :
    (∃ r, pkEndpointRead s sockets buffer = some r ∧ ReadsOne s sockets buffer r) ↔
      buffer = [] ∨ (withMessage s sockets).length = 1 ∨
        (withMessage s sockets = [] ∧ ∃ id ∈ s.ids, HasEnded s sockets id) := by
  by_cases hbuffer : buffer = []
  · subst hbuffer
    refine iff_of_true ⟨_, rfl, Nat.zero_le _, ?_, fun _ => Int.le_refl _⟩ (Or.inl rfl)
    exact fun hpos => absurd hpos (Int.lt_irrefl _)
  have hids : s.ids.Nodup := (settled_of_reaches htype hs).1.ids
  rw [pkEndpointRead_eq htype hs hwoke sockets hbuffer, or_iff_right hbuffer]
  constructor
  · rintro ⟨r, hr, hone⟩
    obtain rfl := some_inj.mp hr
    exact one_or_ended_of_readsOne hids hbuffer hone
  · rintro (hone | ⟨hnil, hended⟩)
    · exact ⟨_, rfl, readsOne_of_one hids hone⟩
    · exact ⟨_, rfl, readsOne_of_ended hids hnil hended⟩

/-- Two clients connect to a `REP`, and the first is woken. -/
def wokenPair : List Action :=
  [.accept ⟨true, false, false⟩ true 5, .accept ⟨true, false, false⟩ true 6,
    .wake 0 ⟨true, false, false⟩ []]

/-- The first client has sent a message of two bytes. -/
def firstSent (id : Nat) : Socket := if id = 0 then ⟨[[1, 2]], .connected⟩ else ⟨[], .connected⟩

theorem readsOne_iff_firstSent : ∃ s, (machine .rep).Reaches s ∧ s.woke = true ∧
      ∃ r, pkEndpointRead s firstSent [0, 0, 0, 0] = some r ∧
        ReadsOne s firstSent [0, 0, 0, 0] r := by
  obtain ⟨s, hs, hwoke, hone⟩ : ∃ s, (machine .rep).Reaches s ∧ s.woke = true ∧
      (withMessage s firstSent).length = 1 :=
    Machine.exists_reaches_of_run wokenPair (by decide +kernel)
  exact ⟨s, hs, hwoke,
    (readsOne_iff (by decide) hs hwoke firstSent [0, 0, 0, 0]).mpr (Or.inr (Or.inl hone))⟩

/-- A read with the bytes of the clients returns, and leaves of the endpoint what the books have for
what the sockets give in the visits. -/
theorem pkEndpointRead_ept (htype : type ≠ .pubServer) (hs : (machine type).Reaches s)
    (sockets : Nat → Socket) (buffer : List UInt8) :
    ∃ r, pkEndpointRead s sockets buffer = some r ∧ Endpoint.pkEndpointRead s buffer.length
      (results ⟨{ s with wakeCounter := 0, woke := false }, sockets, [], buffer, buffer.length⟩
        s.ids) = some r.reading.ept := by
  unfold pkEndpointRead Endpoint.pkEndpointRead Endpoint.readAndReceiveCommon
  split_ifs with hzero hpub hidle hwoke
  · exact ⟨_, rfl, rfl⟩
  · exact ⟨_, rfl, rfl⟩
  · exact ⟨_, rfl, rfl⟩
  · refine ⟨_, rfl, ?_⟩
    exact congrArg (Option.map processRemovedClients)
      (foldlM_results (settled_of_reaches htype hs).1.ids _)
  · -- the assertion holds, since the event counter matches
    have hmatches := (wakeMatches_of_reaches hs).2
    unfold WakeMatches at hmatches
    split_ifs at hmatches with hpending
    · exact absurd ⟨hmatches, hpending⟩ hwoke
    · exact absurd hmatches hidle

/-- The second client has sent a message, and the first has closed its end. -/
def firstClosed (id : Nat) : Socket := if id = 0 then ⟨[], .closed⟩ else ⟨[[1, 2]], .connected⟩

/-- The books see a message of one client and the end of the other, whose node is removed. -/
theorem pkEndpointRead_ept_firstClosed : ∃ s, (machine .rep).Reaches s ∧ ∃ r results,
      pkEndpointRead s firstClosed [0, 0, 0, 0] = some r ∧
        results 1 = [.data false] ∧ results 0 = [.zero] ∧ r.reading.ept.ids = [1] ∧
        Endpoint.pkEndpointRead s 4 results = some r.reading.ept := by
  obtain ⟨s, hs, hread, hone, hzero⟩ : ∃ s, (machine .rep).Reaches s ∧
      (pkEndpointRead s firstClosed [0, 0, 0, 0]).map (·.reading.ept.ids) = some [1] ∧
      results ⟨{ s with wakeCounter := 0, woke := false }, firstClosed, [], [0, 0, 0, 0], 4⟩ s.ids
        1 = [.data false] ∧
      results ⟨{ s with wakeCounter := 0, woke := false }, firstClosed, [], [0, 0, 0, 0], 4⟩ s.ids
        0 = [.zero] :=
    Machine.exists_reaches_of_run wokenPair (by decide +kernel)
  obtain ⟨r, hr, hept⟩ := pkEndpointRead_ept (by decide) hs firstClosed [0, 0, 0, 0]
  rw [hr] at hread
  exact ⟨s, hs, r, _, hr, hone, hzero, some_inj.mp hread, hept⟩

/-- No client has sent a message. -/
def noneSent (_ : Nat) : Socket := ⟨[], .connected⟩

/-- Both clients have sent a message. -/
def bothSent (id : Nat) : Socket := ⟨[[UInt8.ofNat id, 7]], .connected⟩

/-- With nothing to read the call returns the size of the buffer, and with two messages it takes
both. -/
theorem not_readsOne_wokenPair : ∃ s, (machine .rep).Reaches s ∧ s.woke = true ∧
      (∃ r, pkEndpointRead s noneSent [0, 0, 0, 0] = some r ∧ r.ret = 4 ∧
        ¬ReadsOne s noneSent [0, 0, 0, 0] r) ∧
      ∃ r, pkEndpointRead s bothSent [0, 0, 0, 0] = some r ∧
        r.reading.taken = [[1, 7], [0, 7]] ∧ ¬ReadsOne s bothSent [0, 0, 0, 0] r := by
  obtain ⟨s, hs, hwoke, hnil, hnone, hboth⟩ : ∃ s, (machine .rep).Reaches s ∧ s.woke = true ∧
      withMessage s noneSent = [] ∧
      (pkEndpointRead s noneSent [0, 0, 0, 0]).map (·.ret) = some 4 ∧
      (pkEndpointRead s bothSent [0, 0, 0, 0]).map (·.reading.taken) = some [[1, 7], [0, 7]] :=
    Machine.exists_reaches_of_run wokenPair (by decide +kernel)
  obtain ⟨r, hr, hret⟩ := map_eq_some_iff.mp hnone
  obtain ⟨r', hr', htaken⟩ := map_eq_some_iff.mp hboth
  refine ⟨s, hs, hwoke, ⟨r, hr, hret, fun hone => ?_⟩, r', hr', htaken, fun hone => ?_⟩
  · have hle := hone.nothing hnil
    omega
  · have hle := hone.atMostOne
    rw [htaken] at hle
    exact absurd hle (by decide)

end PiksiBuildroot.Libpiksi.EndpointRead
