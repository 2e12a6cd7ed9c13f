import PiksiBuildroot.Lib.FairRun
import PiksiBuildroot.Libpiksi.EndpointRead

/-!
# Wake-ups of a server endpoint

All clients of a server share one event descriptor. A wake-up of a client sets `woke` and writes
to the descriptor unless a wake-up is already pending; `pk_endpoint_receive` clears both and then
serves each client, up to `ENDPOINT_SERVICE_MAX` messages or until the callback stops it.

The system keeps the sockets of the clients and, for each, what was sent to it and what the callback
was given; messages arrive at any time, also between two receives of one call. The endpoint in it is
a run of `Endpoint` (`reaches_ept`). Messages that the limits left in a queue keep the socket
readable, so a level-triggered loop wakes the endpoint again (`wakeUps_sound_live`).
-/

namespace PiksiBuildroot.Libpiksi.EndpointWake

open Function Lib Endpoint EndpointRead List Option

/-- Source: `PK_ENDPOINT_RECV_BUF_SIZE`. -/
def recvBufSize : Nat := 8 * 1024

/-- A message that is not empty and fits in the receive buffer. -/
structure Message where
  bytes : List UInt8
  ne_nil : bytes ≠ []
  length_le : bytes.length ≤ recvBufSize

/-- One receive of a visit: the messages that arrive before it, and whether the callback then stops
the visit. -/
structure Turn where
  arrivals : List Message
  stop : Bool

/-- What a visit of a client leaves: its socket, what arrived, what was delivered, and the results
of `recvmsg`. -/
structure Visit where
  socket : Socket
  sent : List (List UInt8)
  delivered : List (List UInt8)
  results : List Recvmsg

/-- What arrives at a socket; after the end of a connection nothing does. -/
def Socket.accepts (sock : Socket) (messages : List Message) : List (List UInt8) :=
  if sock.peer = .connected then messages.map Message.bytes else []

/-- The loop of `service_reads`. Source: `service_reads`, `recv_impl`. -/
def serviceReads : Nat → List Turn → Socket → Visit
  | 0, _, sock => ⟨sock, [], [], []⟩
  | n + 1, turns, sock =>
    let turn := turns.headD ⟨[], false⟩
    let arrived := Socket.accepts sock turn.arrivals
    let sock : Socket := { sock with queue := sock.queue ++ arrived }
    match sock.recvmsg recvBufSize with
    | (.bytes data, sock) =>
      if data = [] then ⟨sock, arrived, [], [.zero]⟩
      else if turn.stop then ⟨sock, arrived, [data], [.data true]⟩
      else
        let rest := serviceReads n turns.tail sock
        ⟨rest.socket, arrived ++ rest.sent, data :: rest.delivered, .data false :: rest.results⟩
    | (.eagain, sock) => ⟨sock, arrived, [], [.eagain]⟩
    | (.error, sock) => ⟨sock, arrived, [], [.error]⟩

/-- The endpoint, the sockets of its clients, and what was sent by and delivered from each client.
-/
structure System where
  ept : State
  sockets : Nat → Socket
  sent : Nat → List (List UInt8)
  delivered : Nat → List (List UInt8)

/-- The visit of a client; without a socket nothing is received. -/
def System.visit (s : System) (turns : Nat → List Turn) (id : Nat) : Visit :=
  if (handleOf s.ept id).isSome then
    serviceReads endpointServiceMax (turns id) (s.sockets id)
  else ⟨s.sockets id, [], [], []⟩

/-- A receive, when the event descriptor is readable. Source: `pk_endpoint_receive`. -/
def System.receive (s : System) (turns : Nat → List Turn) : Option System :=
  if s.ept.wakeCounter = 0 then none
  else
    (pkEndpointReceive s.ept fun id => (s.visit turns id).results).map fun ept =>
      { ept := ept
        sockets := fun id => (s.visit turns id).socket
        sent := fun id => s.sent id ++ (s.visit turns id).sent
        delivered := fun id => s.delivered id ++ (s.visit turns id).delivered }

/-- What the clients, the loop and the program do. -/
inductive Action where
  | accept (status : Status) (allocated : Bool) (fd : Nat)
  | send (id : Nat) (message : Message)
  | leave (id : Nat) (peer : Peer)
  | wake (id : Nat) (status : Status)
  | receive (turns : Nat → List Turn)

def step (s : System) : Action → Option System
  | .accept status allocated fd =>
    some { s with ept := acceptWakeHandler s.ept status allocated fd }
  | .send id message =>
    if (s.sockets id).peer = .connected ∧ id ∉ s.ept.purged then
      some { s with
        sockets := Function.update s.sockets id
          { s.sockets id with queue := (s.sockets id).queue ++ [message.bytes] }
        sent := Function.update s.sent id (s.sent id ++ [message.bytes]) }
    else none
  | .leave id peer =>
    if peer = .connected then none
    else some { s with
      sockets := Function.update s.sockets id { s.sockets id with peer := peer } }
  | .wake id status => (handleClientWake s.ept id status []).map fun ept => { s with ept := ept }
  | .receive turns => s.receive turns

def machine (type : EndpointType) : Machine System Action where
  init := ⟨(Endpoint.machine type).init, fun _ => ⟨[], .connected⟩, fun _ => [], fun _ => []⟩
  step := step

variable {type : EndpointType}

/-- The endpoint of every state reached is reached by its calls. -/
theorem reaches_ept {s : System} (h : (machine type).Reaches s) :
    (Endpoint.machine type).Reaches s.ept := by
  induction h with
  | init => exact .init
  | @step s s' a _ hstep ih =>
    cases a with
    | accept status allocated fd =>
      cases hstep
      exact .step (a := .accept status allocated fd) ih rfl
    | send id message | leave id peer =>
      simp only [machine, step] at hstep
      split_ifs at hstep
      cases hstep
      exact ih
    | wake id status =>
      obtain ⟨ept, hept, rfl⟩ := map_eq_some_iff.mp hstep
      exact .step (a := .wake id status []) ih hept
    | receive turns =>
      simp only [machine, step, System.receive] at hstep
      split_ifs at hstep
      obtain ⟨ept, hept, rfl⟩ := map_eq_some_iff.mp hstep
      exact .step (a := .receive _) ih hept

/-! ### The clients in the list -/

/-- A client in the list has its socket and is polled, or is to be removed. -/
def Attended (s : State) : Prop :=
  ∀ c ∈ s.clientNodes, (c.handle.isSome = true ∧ c.polled = true) ∨ c.id ∈ s.removedNodes

variable {s : State} {s' : State} {id : Nat}

lemma Attended.teardownClient (h : Attended s) (id : Nat) {c : Client}
    (hc : c ∈ (teardownClient s id).clientNodes) :
    (c.handle.isSome = true ∧ c.polled = true) ∨ c.id ∈ id :: s.removedNodes := by
  obtain ⟨c', hc', rfl⟩ := List.mem_map.mp hc
  split_ifs with hid
  · exact Or.inr (hid ▸ mem_cons_self)
  · exact (h c' hc').imp_right (mem_cons_of_mem _)

lemma Attended.disconnect (h : Attended s) (id : Nat) : Attended (disconnect s id) :=
  fun _ hc => h.teardownClient id hc

/-- Removing clients leaves the others attended. -/
lemma Attended.processRemovedClients (h : Attended s) (hbooks : Books s) :
    Attended (processRemovedClients s) := by
  unfold Endpoint.processRemovedClients
  generalize hremoved : s.removedNodes = removed
  induction removed generalizing s with
  | nil => exact h
  | cons id rest ih =>
    refine ih ?_ (hbooks.purge hremoved) rfl
    intro c hc
    have hmem : c ∈ s.clientNodes := mem_of_mem_eraseP hc
    refine (h c hmem).imp_right fun hid => ?_
    -- the purged node is the only one with its number
    rw [hremoved] at hid
    refine (mem_cons.mp hid).resolve_left ?_
    have hc' : c.id ∈ (purgeClientNode { s with removedNodes := rest } id).ids :=
      List.mem_map_of_mem hc
    rw [purgeClientNode_ids] at hc'
    exact (hbooks.ids.mem_erase_iff.mp hc').1

lemma Attended.visits (hs : Attended s) (hsettled : Settled s) (h : Visits s s') : Attended s' := by
  obtain ⟨visit, hvisit, h⟩ := h
  obtain ⟨s₁, hfold, rfl⟩ := map_eq_some_iff.mp h
  have hbooks : Books s₁ := books_foldlM hvisit hsettled.1.ids hsettled.1 (fun _ hid => hid)
    (by simp [hsettled.2]) hfold
  exact (foldlM_invariant (fun _ id h => h.disconnect id) hvisit hs hfold).processRemovedClients
    hbooks

lemma Attended.handleClientWake (hs : Attended s) (hsettled : Settled s)
    (htype : s.type ≠ .pubServer) {status : Status} {results : List Recvmsg}
    (h : handleClientWake s id status results = some s') : Attended s' := by
  unfold Endpoint.handleClientWake at h
  split_ifs at h with hpolled hdisconnect hdiscard hwoke
  · cases h
    have hrecorded : Attended (recordDisconnect (Endpoint.teardownClient s id) id) :=
      fun _ hc => hs.teardownClient id hc
    exact hrecorded.processRemovedClients (hsettled.books_disconnected hpolled)
  · exact absurd hdiscard (by simp [htype])
  · cases h
    exact hs
  · cases h
    exact hs

/-- Between calls every client in the list has its socket and is polled. -/
lemma attended_of_reaches (htype : type ≠ .pubServer) (h : (Endpoint.machine type).Reaches s) :
    Attended s := by
  induction h with
  | init => exact fun c hc => absurd hc not_mem_nil
  | @step s s' a hreach hstep ih =>
    have hsettled := settled_of_reaches htype hreach
    have htype' : s.type ≠ .pubServer := (wakeMatches_of_reaches hreach).1 ▸ htype
    obtain rfl | ⟨status, allocated, fd, rfl⟩ | ⟨id, status, results, rfl, hwake⟩ | hvisits |
      hvisits := step_cases hstep
    · exact ih
    · unfold acceptWakeHandler
      split_ifs
      · exact ih
      · exact ih
      · intro c hc
        obtain rfl | hc := mem_cons.mp hc
        · exact Or.inl ⟨rfl, rfl⟩
        · exact ih c hc
    · exact ih.handleClientWake hsettled htype' hwake
    · exact ih.visits hsettled hvisits
    · have hcleared : Attended { s with wakeCounter := 0, woke := false } := ih
      exact hcleared.visits (hsettled.setWake false 0) hvisits

/-! ### Visits -/

/-- Not empty, and small enough for the receive buffer. -/
def Fits (bytes : List UInt8) : Prop := bytes ≠ [] ∧ bytes.length ≤ recvBufSize

lemma fits_of_mem_accepts {sock : Socket} {messages : List Message} {bytes : List UInt8}
    (h : bytes ∈ Socket.accepts sock messages) : Fits bytes := by
  unfold Socket.accepts at h
  split_ifs at h
  · obtain ⟨message, -, rfl⟩ := List.mem_map.mp h
    exact ⟨message.ne_nil, message.length_le⟩
  · cases h

/-- A receive from a socket whose messages fit takes the first one whole, or finds none. -/
lemma recvmsg_cases {sock : Socket} (hfits : ∀ m ∈ sock.queue, Fits m) :
    (∃ m queue, sock.queue = m :: queue ∧ m ≠ [] ∧
      sock.recvmsg recvBufSize = (.bytes m, { sock with queue := queue })) ∨
    (sock.queue = [] ∧ ∃ r, (r = .bytes [] ∨ r = .eagain ∨ r = .error) ∧
      sock.recvmsg recvBufSize = (r, sock)) := by
  obtain ⟨queue, peer⟩ := sock
  cases queue with
  | nil =>
    refine Or.inr ⟨rfl, ?_⟩
    cases peer with
    | connected => exact ⟨.eagain, Or.inr (Or.inl rfl), rfl⟩
    | closed => exact ⟨.bytes [], Or.inl rfl, rfl⟩
    | failed => exact ⟨.error, Or.inr (Or.inr rfl), rfl⟩
  | cons m queue =>
    obtain ⟨hne, hle⟩ := hfits m mem_cons_self
    refine Or.inl ⟨m, queue, rfl, hne, ?_⟩
    change (Recvd.bytes (m.take recvBufSize), _) = _
    rw [take_of_length_le hle]

/-- What a visit of a socket does: it delivers the front of what was and came in the queue. -/
structure Visit.Exact (sock : Socket) (v : Visit) : Prop where
  queue : v.delivered ++ v.socket.queue = sock.queue ++ v.sent
  fits : ∀ m ∈ v.socket.queue, Fits m

/-- By induction on the number of reads of a visit. -/
lemma serviceReads_exact (n : Nat) (turns : List Turn) {sock : Socket}
    (hfits : ∀ m ∈ sock.queue, Fits m) : Visit.Exact sock (serviceReads n turns sock) := by
  induction n generalizing turns sock with
  | zero => exact ⟨(append_nil _).symm, hfits⟩
  | succ n ih =>
    rw [serviceReads]
    generalize turns.headD ⟨[], false⟩ = turn
    obtain ⟨arrived, harrived⟩ : ∃ arrived, Socket.accepts sock turn.arrivals = arrived := ⟨_, rfl⟩
    have hfits' : ∀ m ∈ sock.queue ++ arrived, Fits m := by
      intro m hm
      obtain hm | hm := mem_append.mp hm
      · exact hfits m hm
      · exact fits_of_mem_accepts (harrived ▸ hm)
    rw [harrived]
    obtain ⟨m, queue, hqueue, hne, hrecv⟩ | ⟨hqueue, r, hr, hrecv⟩ :=
      @recvmsg_cases ⟨sock.queue ++ arrived, sock.peer⟩ hfits'
    · dsimp only at hqueue
      have hfits'' : ∀ m ∈ queue, Fits m := fun m' hm' =>
        hfits' m' (hqueue ▸ mem_cons_of_mem _ hm')
      rw [hrecv]
      dsimp only
      rw [if_neg hne]
      split_ifs
      · exact ⟨hqueue.symm, hfits''⟩
      · obtain ⟨hrest, hrestFits⟩ := @ih turns.tail ⟨queue, sock.peer⟩ hfits''
        refine ⟨?_, hrestFits⟩
        rw [cons_append, hrest, ← append_assoc, hqueue]
        rfl
    · rw [hrecv]
      obtain rfl | rfl | rfl := hr
      · exact ⟨rfl, hfits'⟩
      · exact ⟨rfl, hfits'⟩
      · exact ⟨rfl, hfits'⟩

/-- A socket that has a message delivers one. -/
lemma serviceReads_delivers {n : Nat} (hn : 0 < n) (turns : List Turn) {sock : Socket}
    (hfits : ∀ m ∈ sock.queue, Fits m) (hqueue : sock.queue ≠ []) :
    (serviceReads n turns sock).delivered ≠ [] := by
  obtain ⟨n, rfl⟩ := Nat.exists_eq_add_one_of_ne_zero (Nat.ne_of_gt hn)
  obtain ⟨m, queue, hm⟩ := exists_cons_of_ne_nil hqueue
  obtain ⟨hne, hle⟩ := hfits m (hm ▸ mem_cons_self)
  have hrecv : ∀ arrived, (Socket.mk (sock.queue ++ arrived) sock.peer).recvmsg recvBufSize =
      (.bytes m, ⟨queue ++ arrived, sock.peer⟩) := by
    intro arrived
    rw [hm]
    change (Recvd.bytes (m.take recvBufSize), _) = _
    rw [take_of_length_le hle]
    rfl
  rw [serviceReads]
  rw [hrecv]
  dsimp only
  rw [if_neg hne]
  split_ifs
  · exact cons_ne_nil _ _
  · exact cons_ne_nil _ _

/-- The results of a visit are those of the calls that `service_reads` makes. -/
lemma exists_serviceReads_results (n : Nat) (turns : List Turn) (sock : Socket)
    (hopen : (handleOf s id).isSome = true) :
    ∃ s', Endpoint.serviceReads n s id (serviceReads n turns sock).results = some (s', []) := by
  obtain ⟨fd, hfd⟩ := isSome_iff_exists.mp hopen
  induction n generalizing turns sock with
  | zero => exact ⟨s, rfl⟩
  | succ n ih =>
    rw [serviceReads]
    split
    · split_ifs
      · exact ⟨disconnect s id,
          by simp [Endpoint.serviceReads, Endpoint.recvImpl, hfd, recvmsg, disconnect]⟩
      · exact ⟨s, by simp [Endpoint.serviceReads, Endpoint.recvImpl, hfd, recvmsg]⟩
      · rename_i sock' _ _ _
        obtain ⟨s', hs'⟩ := ih turns.tail sock'
        exact ⟨s', by simpa [Endpoint.serviceReads, Endpoint.recvImpl, hfd, recvmsg] using hs'⟩
    · exact ⟨s, by simp [Endpoint.serviceReads, Endpoint.recvImpl, hfd, recvmsg]⟩
    · exact ⟨s, by simp [Endpoint.serviceReads, Endpoint.recvImpl, hfd, recvmsg]⟩

lemma exists_whole_visit (s : System) (turns : Nat → List Turn) {t : State}
    (hsame : handleOf t id = handleOf s.ept id) :
    ∃ t', whole (Endpoint.serviceReads endpointServiceMax t id (s.visit turns id).results) =
      some t' := by
  unfold System.visit
  split_ifs with hopen
  · obtain ⟨t', ht'⟩ := exists_serviceReads_results endpointServiceMax (turns id) (s.sockets id)
      (hsame ▸ hopen)
    exact ⟨t', by rw [ht']; rfl⟩
  · have hnone : handleOf t id = none := by
      rw [hsame]
      simpa using hopen
    simp [endpointServiceMax, Endpoint.serviceReads, Endpoint.recvImpl, hnone, whole]

/-- The visits to all clients go through, since none changes another's handle. -/
lemma exists_visits (s : System) (turns : Nat → List Turn) {l : List Nat} (hl : l.Nodup)
    {t : State} (hsame : ∀ id ∈ l, handleOf t id = handleOf s.ept id) :
    ∃ t', l.foldlM (fun t id =>
      whole (Endpoint.serviceReads endpointServiceMax t id (s.visit turns id).results)) t =
        some t' := by
  induction l generalizing t with
  | nil => exact ⟨t, rfl⟩
  | cons id l ih =>
    obtain ⟨hid, hl⟩ := nodup_cons.mp hl
    obtain ⟨t₁, ht₁⟩ := exists_whole_visit s turns (hsame id mem_cons_self)
    have hsame₁ : ∀ other ∈ l, handleOf t₁ other = handleOf s.ept other := by
      intro other hother
      rw [← hsame other (mem_cons_of_mem _ hother)]
      obtain rfl | rfl := receiveVisit_cases ht₁
      · rfl
      · exact handleOf_disconnect (ne_of_mem_of_not_mem hother hid)
    obtain ⟨t', ht'⟩ := ih hl hsame₁
    refine ⟨t', ?_⟩
    rw [foldlM_cons, ht₁]
    exact ht'

/-! ### Runs -/

/-- The event counter and the flag agree, a receive on a readable descriptor returns, and each
client's messages are delivered in order and once. -/
structure Sound (s : System) : Prop where
  woke : s.ept.woke = true → s.ept.wakeCounter = 1
  idle : s.ept.woke = false → s.ept.wakeCounter = 0
  returns : s.ept.wakeCounter ≠ 0 → ∀ turns, (step s (.receive turns)).isSome = true
  delivered : ∀ id, s.delivered id ++ (s.sockets id).queue = s.sent id

/-- A receive after a wake-up returns. -/
lemma receive_isSome (htype : type ≠ .pubServer) {s : System}
    (h : (Endpoint.machine type).Reaches s.ept) (hwake : s.ept.wakeCounter ≠ 0)
    (turns : Nat → List Turn) : (s.receive turns).isSome = true := by
  obtain ⟨htype', hmatches⟩ := wakeMatches_of_reaches h
  have hwoke : s.ept.woke = true := by
    by_contra hnot
    rw [WakeMatches, if_neg hnot] at hmatches
    exact hwake hmatches
  rw [WakeMatches, if_pos hwoke] at hmatches
  obtain ⟨t', ht'⟩ := @exists_visits s turns s.ept.ids (settled_of_reaches htype h).1.ids
    { s.ept with wakeCounter := 0, woke := false } fun _ _ => rfl
  have hfold : foreachClient { s.ept with wakeCounter := 0, woke := false } (fun t id =>
      whole (Endpoint.serviceReads endpointServiceMax t id (s.visit turns id).results)) =
        some (processRemovedClients t') := congrArg (Option.map processRemovedClients) ht'
  simp only [System.receive, if_neg hwake, pkEndpointReceive, Endpoint.readAndReceiveCommon,
    if_neg (htype' ▸ htype), if_pos (And.intro hmatches hwoke), hfold]
  rfl

/-- What was delivered and what is in the queue is what was sent. -/
structure Tidy (s : System) : Prop where
  delivered : ∀ id, s.delivered id ++ (s.sockets id).queue = s.sent id
  fits : ∀ id, ∀ m ∈ (s.sockets id).queue, Fits m

variable {turns : Nat → List Turn}

lemma Tidy.receive {s s' : System} (h : Tidy s) (hstep : s.receive turns = some s') : Tidy s' := by
  unfold System.receive at hstep
  split_ifs at hstep
  obtain ⟨ept, -, rfl⟩ := map_eq_some_iff.mp hstep
  have hvisit : ∀ id, (s.visit turns id).Exact (s.sockets id) := by
    intro id
    unfold System.visit
    split_ifs
    · exact serviceReads_exact endpointServiceMax (turns id) (h.fits id)
    · exact ⟨(append_nil _).symm, h.fits id⟩
  refine ⟨fun id => ?_, fun id => (hvisit id).fits⟩
  rw [append_assoc, (hvisit id).queue, ← append_assoc, h.delivered]

variable {a : Action}

/-- A step loses, doubles and reorders no message. -/
lemma Tidy.step {s s' : System} (h : Tidy s) (hstep : step s a = some s') : Tidy s' := by
  cases a with
  | accept status allocated fd =>
    cases hstep
    exact ⟨h.delivered, h.fits⟩
  | send id message =>
    simp only [EndpointWake.step] at hstep
    split_ifs at hstep
    cases hstep
    refine ⟨fun other => ?_, fun other => ?_⟩
    · by_cases hother : other = id
      · subst hother
        simp only [update_self]
        rw [← append_assoc, h.delivered]
      · simp only [update_of_ne hother]
        exact h.delivered other
    · by_cases hother : other = id
      · subst hother
        simp only [update_self]
        intro m hm
        obtain hm | hm := mem_append.mp hm
        · exact h.fits other m hm
        · obtain rfl := mem_singleton.mp hm
          exact ⟨message.ne_nil, message.length_le⟩
      · simp only [update_of_ne hother]
        exact h.fits other
  | leave id peer =>
    simp only [EndpointWake.step] at hstep
    split_ifs at hstep
    cases hstep
    have hqueue : ∀ other, (update s.sockets id { s.sockets id with peer := peer } other).queue =
        (s.sockets other).queue := by
      intro other
      by_cases hother : other = id
      · subst hother
        rw [update_self]
      · rw [update_of_ne hother]
    refine ⟨fun other => ?_, fun other => ?_⟩
    · rw [hqueue, h.delivered]
    · rw [hqueue]
      exact h.fits other
  | wake id status =>
    obtain ⟨ept, -, rfl⟩ := map_eq_some_iff.mp hstep
    exact ⟨h.delivered, h.fits⟩
  | receive turns => exact h.receive hstep

lemma tidy_of_reaches {s : System} (h : (machine type).Reaches s) : Tidy s := by
  refine @Machine.Reaches.invariant _ _ (machine type) Tidy ?_ (fun _ _ _ => Tidy.step) s h
  exact ⟨fun _ => rfl, fun id m hm => absurd hm not_mem_nil⟩

lemma sound_of_reaches (htype : type ≠ .pubServer) {s : System} (h : (machine type).Reaches s) :
    Sound s := by
  have hept := reaches_ept h
  have hmatches := (wakeMatches_of_reaches hept).2
  refine ⟨fun hwoke => ?_, fun hwoke => ?_, receive_isSome htype hept,
    (tidy_of_reaches h).delivered⟩
  · rwa [WakeMatches, if_pos hwoke] at hmatches
  · rwa [WakeMatches, if_neg (by simp [hwoke])] at hmatches

/-! ### A level-triggered loop -/

/-- The loop calls a callback again and again while its descriptor is readable: the receive of the
program for the event descriptor, and the wake-up of the endpoint for a client of the list. -/
structure LevelTriggered {type : EndpointType} (p : (machine type).Path) : Prop where
  wakefd : p.Fair (fun s => s.ept.wakeCounter ≠ 0) fun a => ∃ turns, a = .receive turns
  client : ∀ id, p.Fair (fun s => id ∈ s.ept.ids ∧ (s.sockets id).queue ≠ [])
    fun a => a = .wake id ⟨true, false, false⟩

/-- A wake-up stays pending until a receive. -/
lemma wakeCounter_ne_zero_step {s s' : System} (h : s.ept.wakeCounter ≠ 0)
    (ha : ¬∃ turns, a = .receive turns) (htype : s.ept.type ≠ .pubServer)
    (hstep : step s a = some s') : s'.ept.wakeCounter ≠ 0 := by
  cases a with
  | accept status allocated fd =>
    cases hstep
    unfold acceptWakeHandler
    split_ifs
    · exact h
    · exact h
    · exact h
  | send id message | leave id peer =>
    simp only [step] at hstep
    split_ifs at hstep
    cases hstep
    exact h
  | wake id status =>
    obtain ⟨ept, hept, rfl⟩ := map_eq_some_iff.mp hstep
    unfold handleClientWake at hept
    split_ifs at hept with hpolled hdisconnect hdiscard hwoke
    · cases hept
      have hkeep := wakeFields_processRemoved
        (recordDisconnect (teardownClient s.ept id) id).removedNodes
        (recordDisconnect (teardownClient s.ept id) id)
      simp only [wakeFields, Prod.mk.injEq] at hkeep
      exact hkeep.2.2 ▸ h
    · exact absurd hdiscard (by simp [htype])
    · cases hept
      exact h
    · cases hept
      exact Nat.succ_ne_zero _
  | receive turns => exact absurd ⟨turns, rfl⟩ ha

/-- A wake-up of a client for a read is pending afterwards. -/
lemma wakeCounter_ne_zero_of_wake (htype : type ≠ .pubServer) {s s' : System}
    (hs : (machine type).Reaches s) (hstep : step s (.wake id ⟨true, false, false⟩) = some s') :
    s'.ept.wakeCounter ≠ 0 := by
  obtain ⟨htype', hmatches⟩ := wakeMatches_of_reaches (reaches_ept hs)
  obtain ⟨ept, hept, rfl⟩ := map_eq_some_iff.mp hstep
  unfold handleClientWake at hept
  split_ifs at hept with hpolled hdisconnect hdiscard hwoke
  · cases hdisconnect
  · exact absurd hdiscard (by simp [htype', htype])
  · cases hept
    rw [WakeMatches, if_pos hwoke] at hmatches
    dsimp only
    omega
  · cases hept
    exact Nat.succ_ne_zero _

/-- No step takes back what was sent or delivered. -/
lemma isPrefix_step {s s' : System} (hstep : step s a = some s') (id : Nat) :
    s.sent id <+: s'.sent id ∧ s.delivered id <+: s'.delivered id := by
  cases a with
  | accept status allocated fd =>
    cases hstep
    exact ⟨prefix_rfl, prefix_rfl⟩
  | send other message =>
    simp only [step] at hstep
    split_ifs at hstep
    cases hstep
    refine ⟨?_, prefix_rfl⟩
    by_cases hid : id = other
    · subst hid
      simp only [update_self]
      exact prefix_append _ _
    · simp only [update_of_ne hid]
      exact prefix_rfl
  | leave other peer =>
    simp only [step] at hstep
    split_ifs at hstep
    cases hstep
    exact ⟨prefix_rfl, prefix_rfl⟩
  | wake other status =>
    obtain ⟨ept, -, rfl⟩ := map_eq_some_iff.mp hstep
    exact ⟨prefix_rfl, prefix_rfl⟩
  | receive turns =>
    simp only [step, System.receive] at hstep
    split_ifs at hstep
    obtain ⟨ept, -, rfl⟩ := map_eq_some_iff.mp hstep
    exact ⟨prefix_append _ _, prefix_append _ _⟩

/-- A client in the list has its socket. -/
lemma handleOf_isSome (htype : type ≠ .pubServer) (h : (Endpoint.machine type).Reaches s)
    (hid : id ∈ s.ids) : (handleOf s id).isSome = true := by
  have hattended := attended_of_reaches htype h
  have hremoved := (settled_of_reaches htype h).2
  obtain ⟨c, hc, hcid⟩ := List.mem_map.mp hid
  have hfind : (s.clientNodes.find? fun c => c.id == id).isSome = true :=
    find?_isSome.mpr ⟨c, hc, by simp [hcid]⟩
  obtain ⟨c', hc'⟩ := isSome_iff_exists.mp hfind
  have hopen := (hattended c' (mem_of_find?_eq_some hc')).resolve_right (by simp [hremoved])
  unfold handleOf
  rw [hc', bind_some]
  exact hopen.1

/-- A receive delivers a message of every client that has one. -/
lemma length_delivered_of_receive (htype : type ≠ .pubServer) {s s' : System}
    (hs : (machine type).Reaches s) (hid : id ∈ s.ept.ids) (hqueue : (s.sockets id).queue ≠ [])
    (hstep : s.receive turns = some s') : (s.delivered id).length < (s'.delivered id).length := by
  have hopen := handleOf_isSome htype (reaches_ept hs) hid
  have hdelivers := serviceReads_delivers (show 0 < endpointServiceMax by decide) (turns id)
    ((tidy_of_reaches hs).fits id) hqueue
  unfold System.receive at hstep
  split_ifs at hstep
  obtain ⟨ept, -, rfl⟩ := map_eq_some_iff.mp hstep
  dsimp only
  rw [System.visit, if_pos hopen, length_append]
  have := length_pos_of_ne_nil hdelivers
  omega

variable {p : (machine type).Path} {n : Nat}

/-- A client that stays connected and has messages is received from again and again. -/
lemma exists_receive (htype : type ≠ .pubServer) (hp : LevelTriggered p)
    (hready : ∀ j, n ≤ j → id ∈ (p.state j).ept.ids ∧ ((p.state j).sockets id).queue ≠ []) :
    ∃ j, n ≤ j ∧ ∃ turns, p.action j = .receive turns := by
  obtain ⟨i, hi, hwake⟩ := hp.client id n hready
  have hstep : step (p.state i) (.wake id ⟨true, false, false⟩) = some (p.state (i + 1)) := by
    rw [← hwake]
    exact p.step i
  have hpending := wakeCounter_ne_zero_of_wake htype (p.reaches i) hstep
  have hkeep : ∀ k, (p.state k).ept.wakeCounter ≠ 0 → (¬∃ turns, p.action k = .receive turns) →
      (p.state (k + 1)).ept.wakeCounter ≠ 0 := by
    intro k hk hnot
    have htype' := (wakeMatches_of_reaches (reaches_ept (p.reaches k))).1
    exact wakeCounter_ne_zero_step hk hnot (fun hpub => htype (htype'.symm.trans hpub)) (p.step k)
  obtain ⟨j, hj, hreceive⟩ := hp.wakefd.exists_taken hpending hkeep
  exact ⟨j, by omega, hreceive⟩

lemma sent_mono (p : (machine type).Path) (id : Nat) {n j : Nat} (h : n ≤ j) :
    (p.state n).sent id <+: (p.state j).sent id := by
  induction h with
  | refl => exact prefix_rfl
  | step _ ih => exact ih.trans (isPrefix_step (p.step _) id).1

/-- Every message of a client that stays connected is delivered. -/
lemma exists_delivered (htype : type ≠ .pubServer) (hp : LevelTriggered p)
    (hid : ∀ j, n ≤ j → id ∈ (p.state j).ept.ids) {k : Nat}
    (hk : k < ((p.state n).sent id).length) :
    ∃ j, n ≤ j ∧ k < ((p.state j).delivered id).length := by
  by_contra hnever
  have hle : ∀ j, n ≤ j → ((p.state j).delivered id).length ≤ k := fun j hj =>
    Nat.not_lt.mp fun hlt => hnever ⟨j, hj, hlt⟩
  -- the message stays in the queue, so the client is readable all the time
  have hready : ∀ j, n ≤ j → id ∈ (p.state j).ept.ids ∧ ((p.state j).sockets id).queue ≠ [] := by
    intro j hj
    refine ⟨hid j hj, fun hnil => ?_⟩
    have hdelivered := (tidy_of_reaches (p.reaches j)).delivered id
    have hsent := (sent_mono p id hj).length_le
    rw [hnil, append_nil] at hdelivered
    have := hle j hj
    rw [hdelivered] at this
    omega
  have hgrows : ∀ i, n ≤ i → ∃ j, i ≤ j ∧
      ((p.state j).delivered id).length < ((p.state (j + 1)).delivered id).length := by
    intro i hi
    obtain ⟨j, hj, turns, hreceive⟩ :=
      exists_receive htype hp fun j hj => hready j (Nat.le_trans hi hj)
    obtain ⟨hmem, hqueue⟩ := hready j (Nat.le_trans hi hj)
    have hstep : step (p.state j) (.receive turns) = some (p.state (j + 1)) := by
      rw [← hreceive]
      exact p.step j
    exact ⟨j, hj, length_delivered_of_receive htype (p.reaches j) hmem hqueue hstep⟩
  obtain ⟨j, hj, hlt⟩ := @Machine.Path.exists_lt_of_grows _ _ _ p
    (fun s => (s.delivered id).length) n
    (fun i _ => (isPrefix_step (p.step i) id).2.length_le) hgrows k
  exact hnever ⟨j, hj, hlt⟩

/-- Wake-ups are neither lost nor doubled. In every state that wake-ups, receives and what clients
send lead to, the event counter matches the flag, receives return and messages are delivered in
order and once; and in every run of a level-triggered loop each message of a client that stays
connected is delivered. -/
theorem wakeUps_sound_live (type : EndpointType) (htype : type ≠ .pubServer) :
    (∀ s, (machine type).Reaches s → Sound s) ∧
      ∀ p : (machine type).Path, LevelTriggered p → ∀ n id k,
        (∀ j, n ≤ j → id ∈ (p.state j).ept.ids) → k < ((p.state n).sent id).length →
          ∃ j, n ≤ j ∧ k < ((p.state j).delivered id).length ∧
            ((p.state j).delivered id)[k]? = ((p.state n).sent id)[k]? := by
  refine ⟨fun s hs => sound_of_reaches htype hs, fun p hp n id k hid hk => ?_⟩
  obtain ⟨j, hj, hlt⟩ := exists_delivered htype hp hid hk
  have hdelivered := (tidy_of_reaches (p.reaches j)).delivered id
  obtain ⟨later, hlater⟩ := sent_mono p id hj
  refine ⟨j, hj, hlt, ?_⟩
  calc ((p.state j).delivered id)[k]?
      = ((p.state j).sent id)[k]? := by rw [← hdelivered, getElem?_append_left hlt]
    _ = ((p.state n).sent id)[k]? := by rw [← hlater, getElem?_append_left hk]

/-- A client connects to a `REP` and sends a message, and the endpoint is woken and received from.
-/
def sendAndReceive : List Action :=
  [.accept ⟨true, false, false⟩ true 5, .send 0 ⟨[1, 2], by decide, by decide⟩,
    .wake 0 ⟨true, false, false⟩, .receive fun _ => []]

theorem wakeUps_sound_live_sendAndReceive : EndpointType.rep ≠ .pubServer ∧
      ∃ p : (machine .rep).Path, LevelTriggered p ∧
        ∃ j, ((p.state j).delivered 0)[0]? = some [1, 2] := by
  have hrun : ((machine .rep).run sendAndReceive).any (fun s =>
      s.ept.ids = [0] ∧ s.ept.wakeCounter = 0 ∧ (s.sockets 0).queue = [] ∧
        s.sent 0 = [[1, 2]]) = true := by
    decide +kernel
  obtain ⟨s, hs, htest⟩ := (Option.any_eq_true _ _).mp hrun
  obtain ⟨hids, hwake, hqueue, hsent⟩ := of_decide_eq_true htest
  -- from then on only connections fail
  obtain ⟨p, hp⟩ := Machine.exists_path_of_run hs
    (show (machine .rep).step s (.accept ⟨false, false, true⟩ true 0) = some s from rfl)
  have hstate : ∀ j, 4 ≤ j → p.state j = s := fun j hj => (hp j hj).1
  have hlevel : LevelTriggered p := by
    refine ⟨fun n hn => ?_, fun id n hn => ?_⟩
    · have henabled := hn (max n 4) (Nat.le_max_left _ _)
      rw [hstate _ (Nat.le_max_right _ _)] at henabled
      exact absurd hwake henabled
    · obtain ⟨hid, hne⟩ := hn (max n 4) (Nat.le_max_left _ _)
      rw [hstate _ (Nat.le_max_right _ _)] at hid hne
      rw [hids] at hid
      obtain rfl := mem_singleton.mp hid
      exact absurd hqueue hne
  obtain ⟨j, -, -, hj⟩ := (wakeUps_sound_live .rep (by decide)).2 p hlevel 4 0 0
    (fun j hj => by rw [hstate j hj, hids]; exact mem_singleton_self _)
    (by rw [hstate 4 (Nat.le_refl _), hsent]; decide)
  rw [hstate 4 (Nat.le_refl _), hsent] at hj
  exact ⟨by decide, p, hlevel, j, hj⟩

end PiksiBuildroot.Libpiksi.EndpointWake
