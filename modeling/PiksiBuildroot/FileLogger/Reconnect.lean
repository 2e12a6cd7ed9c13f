import Mathlib.Data.List.Nodup
import Mathlib.Order.BooleanAlgebra.Set
import PiksiBuildroot.Lib.Descriptors

/-!
# Reconnecting the logger

When its endpoint is disconnected, `reconnect_loop_callback` opens a placeholder, so that the new
endpoint does not get the number of the old one, destroys the endpoint, creates and attaches a new
one and closes the placeholder. Meanwhile the thread of the logger opens and closes log files.

On success the callback closes the placeholder and then falls through to the label `fail`, where it
is closed again. And if a receive returns nothing, the socket is closed on a copy of its number; the
endpoint keeps the number, and the next reconnect closes it again (`closesOwn_iff`).

A name stands for each call that opens a descriptor. Memory is taken to be available, so that a file
of a metric that can be opened gets its stream.
-/

namespace PiksiBuildroot.FileLogger.Reconnect

open Lib Lib.Descriptors List

/-! ### The endpoint -/

/-- How many metrics an endpoint has, each with a file. -/
def endpointMetrics : Nat := 8

/-- A `SUB` endpoint: its socket has the name `sock`, the files of its metrics the names after it.
`torn` says that a receive closed the socket, which the endpoint does not know. -/
structure Endpoint where
  sock : Nat
  torn : Bool

/-- The files of the metrics. -/
def Endpoint.metrics (e : Endpoint) : List Nat := List.range' (e.sock + 1) endpointMetrics

/-- Source: `pk_endpoint_destroy`. A `SUB` endpoint has no clients and no `wakefd`. -/
def pkEndpointDestroy : Option Endpoint → List (Call Nat)
  | none => []
  | some e => (e.sock :: e.metrics).map .closeFd

/-- How `pk_endpoint_create` goes: there is no socket, it cannot be connected, only some files of
metrics can be opened, or the endpoint is created. -/
inductive CreateOutcome where
  | noSocket
  | notConnected
  | noMetrics (opened : Fin endpointMetrics)
  | created
deriving DecidableEq

/-- Source: `pk_endpoint_create`, with names from `n` on. -/
def pkEndpointCreate (n : Nat) : CreateOutcome → List (Call Nat) × Option Endpoint
  | .noSocket => ([], none)
  | .notConnected => ([.openFd n, .closeFd n], none)
  | .noMetrics opened =>
    let files := List.range' (n + 1) opened
    (.openFd n :: (files.map .openFd ++ files.map .closeFd ++ [.closeFd n]), none)
  | .created =>
    let e : Endpoint := ⟨n, false⟩
    ((e.sock :: e.metrics).map .openFd, some e)

/-- Source: `sub_poll_handler`. If a receive returns nothing the socket is closed; on a number that
is no socket any more `recvmsg` fails. -/
def subPollHandler (e : Endpoint) (receivesNothing : Bool) : List (Call Nat) × Endpoint :=
  if receivesNothing && !e.torn then ([.closeFd e.sock], { e with torn := true }) else ([], e)

/-! ### The callback -/

/-- The endpoint of `sub_poll_ctx_t`, and the next name. -/
structure Ctx where
  pkEpt : Option Endpoint
  next : Nat

/-- A call of the callback with what happens in it. -/
structure Wake where
  disconnected : Bool
  detached : Bool
  nullOpened : Bool
  created : CreateOutcome
  attached : Bool
  receivesNothing : Bool

/-- Source: `reconnect_loop_callback`, with the calls that open or close a descriptor. -/
def reconnectLoopCallback (ctx : Ctx) (w : Wake) : List (Call Nat) × Ctx := if w.disconnected then
    if !w.detached then ([], ctx)
    else
      let forceNewFd := ctx.next
      -- `force_new_fd` is -1 if it cannot be opened, and closing that has no effect
      let openNull := if w.nullOpened then [.openFd forceNewFd] else []
      let closeNull := if w.nullOpened then [.closeFd forceNewFd] else []
      let create := pkEndpointCreate (ctx.next + 1) w.created
      let calls := openNull ++ pkEndpointDestroy ctx.pkEpt ++ create.1
      let next := ctx.next + 1 + (1 + endpointMetrics)
      match create.2 with
      | none => (calls ++ closeNull, ⟨none, next⟩)
      | some e =>
        if !w.attached then (calls ++ closeNull, ⟨some e, next⟩)
        else
          let handled := subPollHandler e w.receivesNothing
          (calls ++ closeNull ++ handled.1 ++ closeNull, ⟨some handled.2, next⟩)
  else
    match ctx.pkEpt with
    -- a receive without an endpoint fails an assertion
    | none => ([], ctx)
    | some e =>
      let handled := subPollHandler e w.receivesNothing
      (handled.1, { ctx with pkEpt := some handled.2 })

/-- The calls of the callback one after the other. -/
def callbacks (ctx : Ctx) : List Wake → List (Call Nat) × Ctx
  | [] => ([], ctx)
  | w :: wakes =>
    let first := reconnectLoopCallback ctx w
    let rest := callbacks first.2 wakes
    (first.1 ++ rest.1, rest.2)

/-- The context after the endpoint was created at the start. -/
def startCtx : Ctx := ⟨some ⟨0, false⟩, 1 + endpointMetrics⟩

/-! ### The two threads -/

inductive Thread where
  | callback
  | logger
deriving DecidableEq

/-- The log files, each closed before the next one is opened. Source: `open_new_file`,
`close_current_file`. -/
def logFiles (n : Nat) : List (Call Nat) := (List.range n).flatMap fun i => [.openFd i, .closeFd i]

/-- What the threads call. -/
def program (wakes : List Wake) (files : Nat) : Thread → List (Call Nat)
  | .callback => (pkEndpointCreate 0 .created).1 ++ (callbacks startCtx wakes).1
  | .logger => logFiles files

/-- The process, with descriptors that were open before. -/
def process (table : List (Entry Thread Nat)) (wakes : List Wake) (files : Nat) :
    Machine (State Thread Nat) Thread :=
  Descriptors.machine table (program wakes files)

/-- The descriptors of an endpoint that are open. -/
def Endpoint.held (e : Endpoint) : Set Nat := { x | x ∈ e.metrics ∨ (x = e.sock ∧ e.torn = false) }

/-- The descriptors that are open of an endpoint that there may be. -/
def heldBy (ept : Option Endpoint) : Set Nat := { x | ∃ e, ept = some e ∧ x ∈ e.held }

/-- In every interleaving each close of the callback refers to the descriptor that the callback
opened under the name, and in the end what was opened is closed, except for the endpoint. -/
structure ClosesOwn (table : List (Entry Thread Nat)) (wakes : List Wake) (files : Nat) : Prop where
  own : ∀ s, (process table wakes files).Reaches s → CloseOk s .callback
  closed : liveAfter ∅ (program wakes files .callback) = heldBy (callbacks startCtx wakes).2.pkEpt

/-- The callback closes a descriptor twice: the placeholder after a reconnect, or the socket that a
receive closed. -/
def ClosesTwice (ctx : Ctx) (w : Wake) : Prop := w.disconnected ∧ w.detached ∧
    ((w.nullOpened ∧ w.created = .created ∧ w.attached) ∨ ∃ e, ctx.pkEpt = some e ∧ e.torn)

/-- No call of the callback closes a descriptor twice. -/
def NoneTwice (ctx : Ctx) : List Wake → Prop
  | [] => True
  | w :: wakes => ¬ClosesTwice ctx w ∧ NoneTwice (reconnectLoopCallback ctx w).2 wakes

/-! ### One call -/

variable {e : Endpoint}

lemma Endpoint.mem_metrics {x : Nat} :
    x ∈ e.metrics ↔ e.sock < x ∧ x < e.sock + (1 + endpointMetrics) := by
  rw [metrics, mem_range'_1]
  omega

lemma Endpoint.nodup (e : Endpoint) : (e.sock :: e.metrics).Nodup := by
  refine nodup_cons.mpr ⟨fun h => ?_, nodup_range'⟩
  exact absurd (mem_metrics.mp h).1 (Nat.lt_irrefl _)

/-- The names of the endpoint are in use. -/
def Ctx.Fresh (ctx : Ctx) : Prop :=
  ∀ e, ctx.pkEpt = some e → e.sock + (1 + endpointMetrics) ≤ ctx.next

variable {ctx : Ctx}

lemma heldBy_none : heldBy none = ∅ := by
  ext x
  simp [heldBy]

lemma heldBy_some (e : Endpoint) : heldBy (some e) = e.held := by
  ext x
  simp [heldBy]

/-- A placeholder, if it was opened. -/
def placeholder (b : Bool) (n : Nat) : Set Nat := { x | b ∧ x = n }

section
variable (live : Set Nat)

/-- Creating an endpoint opens its descriptors, or leaves nothing open. -/
lemma pkEndpointCreate_spec {n : Nat} (hlive : ∀ x ∈ live, x < n) (o : CreateOutcome) :
    Leads live (pkEndpointCreate n o).1 True (live ∪ heldBy (pkEndpointCreate n o).2) := by
  rw [leads_true_iff]
  have hn : n ∉ live := fun h => Nat.lt_irrefl n (hlive n h)
  cases o with
  | noSocket => exact ⟨trivial, by rw [pkEndpointCreate, heldBy_none, Set.union_empty, liveAfter]⟩
  | notConnected =>
    refine ⟨⟨Set.mem_insert n live, trivial⟩, ?_⟩
    rw [pkEndpointCreate, heldBy_none, Set.union_empty]
    exact Set.insert_sdiff_self_of_notMem hn
  | noMetrics opened =>
    have hfiles : ∀ x ∈ List.range' (n + 1) opened, n < x := fun x hx => by
      rw [mem_range'_1] at hx
      omega
    rw [pkEndpointCreate, heldBy_none, Set.union_empty]
    dsimp only
    rw [disciplined_cons, disciplined_append, disciplined_append, liveAfter_append,
      disciplined_map_close _ nodup_range', liveAfter_map_open, liveAfter_map_close]
    refine ⟨⟨trivial, ⟨disciplined_map_open _ _, fun x hx => .inr hx⟩, ?_, trivial⟩, ?_⟩
    · refine ⟨.inl (Set.mem_insert n live), fun h => ?_⟩
      exact Nat.lt_irrefl n (hfiles n h)
    · rw [liveAfter, liveAfter_append, liveAfter_append, liveAfter_map_open, liveAfter_map_close]
      have hnew : insert n live ∩ { x | x ∈ List.range' (n + 1) opened } ⊆ ∅ := by
        rintro x ⟨rfl | hx, hfile⟩
        · exact Nat.lt_irrefl x (hfiles x hfile)
        · exact Nat.lt_asymm (hlive x hx) (hfiles x hfile)
      rw [Set.union_sdiff_cancel_right hnew]
      exact Set.insert_sdiff_self_of_notMem hn
  | created =>
    refine ⟨disciplined_map_open _ _, ?_⟩
    rw [pkEndpointCreate]
    dsimp only
    rw [liveAfter_map_open, heldBy_some]
    congr 1
    ext x
    simp [Endpoint.held, or_comm]

lemma pkEndpointDestroy_disciplined (e : Endpoint) :
    Disciplined live (pkEndpointDestroy (some e)) ↔ ∀ x ∈ e.sock :: e.metrics, x ∈ live :=
  disciplined_map_close live e.nodup

lemma leads_openIf (b : Bool) (n : Nat) :
    Leads live (if b then [.openFd n] else []) True (live ∪ placeholder b n) := by
  cases b with
  | false | true =>
    refine ⟨iff_of_true trivial trivial, ?_⟩
    ext x
    simp [liveAfter, placeholder]

lemma leads_closeIf (b : Bool) (n : Nat) :
    Leads live (if b then [.closeFd n] else []) (b → n ∈ live) (live \ placeholder b n) := by
  cases b with
  | false | true =>
    refine ⟨by simp [Disciplined], ?_⟩
    ext x
    simp [liveAfter, placeholder]

end

/-- A receive closes the socket of an endpoint at most once. -/
lemma subPollHandler_spec (e : Endpoint) (receivesNothing : Bool) :
    Leads e.held (subPollHandler e receivesNothing).1 True
      (subPollHandler e receivesNothing).2.held := by
  unfold subPollHandler
  rw [leads_true_iff]
  split_ifs with h
  · have htorn : e.torn = false := by
      rw [Bool.and_eq_true, Bool.not_eq_true'] at h
      exact h.2
    refine ⟨⟨.inr ⟨rfl, htorn⟩, trivial⟩, ?_⟩
    ext x
    simp only [liveAfter, Endpoint.held, Set.mem_sdiff, Set.mem_ofPred_eq, Set.mem_singleton_iff]
    constructor
    · rintro ⟨hx | hx, hne⟩
      · exact .inl hx
      · exact absurd hx.1 hne
    · rintro (hx | hx)
      · exact ⟨.inl hx, Nat.ne_of_gt (Endpoint.mem_metrics.mp hx).1⟩
      · exact absurd hx.2 (by simp)
  · exact ⟨trivial, rfl⟩

lemma subPollHandler_sock (e : Endpoint) (receivesNothing : Bool) :
    (subPollHandler e receivesNothing).2.sock = e.sock := by
  unfold subPollHandler
  split_ifs <;> rfl

/-- The old endpoint can be destroyed if its socket is still open; the placeholder stays. -/
lemma pkEndpointDestroy_spec (h : ctx.Fresh) (b : Bool) :
    Leads (heldBy ctx.pkEpt ∪ placeholder b ctx.next) (pkEndpointDestroy ctx.pkEpt)
      (¬∃ e, ctx.pkEpt = some e ∧ e.torn) (placeholder b ctx.next) := by
  rcases hept : ctx.pkEpt with _ | e
  · refine ⟨iff_of_true trivial (by simp), ?_⟩
    rw [heldBy_none, Set.empty_union, pkEndpointDestroy, liveAfter]
  · have hle := h e hept
    have hlt : ∀ x ∈ e.sock :: e.metrics, x < ctx.next := by
      intro x hx
      rcases mem_cons.mp hx with rfl | hx
      · omega
      · exact Nat.lt_of_lt_of_le (Endpoint.mem_metrics.mp hx).2 hle
    refine ⟨?_, ?_⟩
    · rw [pkEndpointDestroy_disciplined, heldBy_some]
      constructor
      · rintro hopen ⟨e', he', htorn⟩
        cases he'
        rcases hopen e.sock mem_cons_self with (hx | hx) | hx
        · exact absurd (Endpoint.mem_metrics.mp hx).1 (Nat.lt_irrefl _)
        · exact absurd (htorn.symm.trans hx.2) (by simp)
        · exact absurd (hlt e.sock mem_cons_self) (by rw [hx.2]; omega)
      · intro htorn x hx
        refine .inl ?_
        rcases mem_cons.mp hx with rfl | hx
        · exact .inr ⟨rfl, Bool.eq_false_iff.mpr fun ht => htorn ⟨e, rfl, ht⟩⟩
        · exact .inl hx
    · rw [heldBy_some, pkEndpointDestroy, liveAfter_map_close]
      ext x
      simp only [Set.mem_sdiff, Set.mem_union, Set.mem_ofPred_eq]
      constructor
      · rintro ⟨(hx | hx) | hx, hnot⟩
        · exact absurd (mem_cons_of_mem _ hx) hnot
        · exact absurd (hx.1 ▸ mem_cons_self) hnot
        · exact hx
      · intro hx
        refine ⟨.inr hx, fun hmem => ?_⟩
        exact absurd (hlt x hmem) (by rw [hx.2]; omega)

/-- The calls of a reconnect up to the new endpoint. -/
def replaceCalls (ctx : Ctx) (w : Wake) : List (Call Nat) :=
  (if w.nullOpened then [.openFd ctx.next] else []) ++ pkEndpointDestroy ctx.pkEpt ++
    (pkEndpointCreate (ctx.next + 1) w.created).1

/-- They are disciplined exactly if the socket of the old endpoint is still open. -/
lemma replaceCalls_spec (h : ctx.Fresh) (w : Wake) :
    Leads (heldBy ctx.pkEpt) (replaceCalls ctx w) (¬∃ e, ctx.pkEpt = some e ∧ e.torn)
      (placeholder w.nullOpened ctx.next ∪
        heldBy (pkEndpointCreate (ctx.next + 1) w.created).2) := by
  have hlt : ∀ x ∈ placeholder w.nullOpened ctx.next, x < ctx.next + 1 := fun x hx => by
    have heq : x = ctx.next := hx.2
    omega
  have hcalls := ((leads_openIf _ w.nullOpened ctx.next).append
    (pkEndpointDestroy_spec h w.nullOpened)).append (pkEndpointCreate_spec _ hlt w.created)
  rwa [true_and, and_true] at hcalls

lemma not_mem_held_of_lt {n : Nat} (h : n < e.sock) : n ∉ e.held := by
  rintro (hn | ⟨rfl, -⟩)
  · exact absurd (Endpoint.mem_metrics.mp hn).1 (by omega)
  · exact Nat.lt_irrefl _ h

lemma sdiff_placeholder {b : Bool} {n : Nat} {live : Set Nat} (hn : n ∉ live) :
    live \ placeholder b n = live :=
  sdiff_eq_left.mpr (Set.disjoint_left.mpr fun _ hx heq => hn (heq.2 ▸ hx))

/-- The placeholder is closed once. -/
lemma closeNull_spec {b : Bool} {n : Nat} {live : Set Nat} (hn : n ∉ live) :
    Leads (placeholder b n ∪ live) (if b then [.closeFd n] else []) True live := by
  have hclose := leads_closeIf (placeholder b n ∪ live) b n
  rw [Set.union_sdiff_left, sdiff_placeholder hn] at hclose
  exact leads_true_iff.mpr ⟨hclose.disciplined_iff.mpr fun hb => .inl ⟨hb, rfl⟩, hclose.live_eq⟩

lemma pkEndpointCreate_eq_some {n : Nat} {o : CreateOutcome}
    (h : (pkEndpointCreate n o).2 = some e) : o = .created ∧ e = ⟨n, false⟩ := by
  cases o with
  | created => exact ⟨rfl, (Option.some.inj h).symm⟩
  | noSocket | notConnected | noMetrics opened => exact absurd h (by simp [pkEndpointCreate])

/-- The close of the placeholder. -/
def closeNull (ctx : Ctx) (w : Wake) : List (Call Nat) :=
  if w.nullOpened then [.closeFd ctx.next] else []

/-- The placeholder is closed once after the endpoint was replaced. -/
lemma replaceCalls_closeNull (h : ctx.Fresh) (w : Wake) :
    Leads (heldBy ctx.pkEpt) (replaceCalls ctx w ++ closeNull ctx w)
      (¬∃ e, ctx.pkEpt = some e ∧ e.torn)
      (heldBy (pkEndpointCreate (ctx.next + 1) w.created).2) := by
  have hnot : ctx.next ∉ heldBy (pkEndpointCreate (ctx.next + 1) w.created).2 := by
    rintro ⟨e, he, hmem⟩
    obtain ⟨-, rfl⟩ := pkEndpointCreate_eq_some he
    exact not_mem_held_of_lt (Nat.lt_succ_self _) hmem
  have hcalls := (replaceCalls_spec h w).append (closeNull_spec hnot)
  rwa [and_true] at hcalls

/-- After a reconnect the placeholder is closed a second time. -/
lemma reconnected_spec (h : ctx.Fresh) {w : Wake} (hcreated : w.created = .created) :
    Leads (heldBy ctx.pkEpt) (replaceCalls ctx w ++ closeNull ctx w ++
        (subPollHandler ⟨ctx.next + 1, false⟩ w.receivesNothing).1 ++ closeNull ctx w)
      (¬(w.nullOpened ∨ ∃ e, ctx.pkEpt = some e ∧ e.torn))
      (subPollHandler ⟨ctx.next + 1, false⟩ w.receivesNothing).2.held := by
  have hnew : heldBy (pkEndpointCreate (ctx.next + 1) w.created).2 =
      Endpoint.held ⟨ctx.next + 1, false⟩ := by
    rw [hcreated]
    exact heldBy_some _
  have hnot : ctx.next ∉ (subPollHandler ⟨ctx.next + 1, false⟩ w.receivesNothing).2.held := by
    apply not_mem_held_of_lt
    rw [subPollHandler_sock]
    exact Nat.lt_succ_self _
  have hcalls := ((hnew ▸ replaceCalls_closeNull h w).append
    (subPollHandler_spec _ w.receivesNothing)).append (leads_closeIf _ w.nullOpened ctx.next)
  rw [sdiff_placeholder hnot, and_true] at hcalls
  refine ⟨hcalls.disciplined_iff.trans ?_, hcalls.live_eq⟩
  constructor
  · rintro ⟨htorn, hnull⟩ (hopened | htorn')
    · exact hnot (hnull hopened)
    · exact htorn htorn'
  · intro hnone
    exact ⟨fun htorn => hnone (.inr htorn), fun hopened => absurd (.inl hopened) hnone⟩

lemma Ctx.fresh_of_sock {n next : Nat} (hsock : e.sock = n)
    (hle : n + (1 + endpointMetrics) ≤ next) : Ctx.Fresh ⟨some e, next⟩ := by
  intro e' he'
  cases he'
  rw [hsock]
  exact hle

/-- A reconnect trades the old descriptors for the new unless it closes one twice. -/
lemma reconnect_spec (h : ctx.Fresh) {w : Wake} (hdisconnected : w.disconnected)
    (hdetached : w.detached) :
    Leads (heldBy ctx.pkEpt) (reconnectLoopCallback ctx w).1 (¬ClosesTwice ctx w)
        (heldBy (reconnectLoopCallback ctx w).2.pkEpt) ∧
      (reconnectLoopCallback ctx w).2.Fresh := by
  obtain ⟨hreplace, hlive⟩ := replaceCalls_closeNull h w
  have htwice : ClosesTwice ctx w ↔ (w.nullOpened ∧ w.created = .created ∧ w.attached) ∨
      ∃ e, ctx.pkEpt = some e ∧ e.torn := by
    simp [ClosesTwice, hdisconnected, hdetached]
  rw [htwice]
  unfold reconnectLoopCallback
  rw [if_pos hdisconnected, if_neg (by simp [hdetached])]
  dsimp only
  rcases hcreate : (pkEndpointCreate (ctx.next + 1) w.created).2 with _ | e
  · -- the endpoint could not be created
    have hfailed : w.created ≠ .created := fun hcreated => by
      rw [hcreated] at hcreate
      exact absurd hcreate (by simp [pkEndpointCreate])
    rw [hcreate] at hlive
    refine ⟨⟨hreplace.trans (not_congr ?_), hlive⟩, fun e he => absurd he (by simp)⟩
    rw [or_iff_right fun hc => hfailed hc.2.1]
  · obtain ⟨hcreated, rfl⟩ := pkEndpointCreate_eq_some hcreate
    dsimp only
    by_cases hattached : w.attached
    · rw [if_neg (by simp [hattached])]
      obtain ⟨hcalls, hlive⟩ := reconnected_spec h hcreated
      refine ⟨⟨hcalls.trans (not_congr (or_congr_left ?_)), hlive.trans (heldBy_some _).symm⟩,
        Ctx.fresh_of_sock (subPollHandler_sock _ _) (Nat.le_refl _)⟩
      exact ⟨fun hopened => ⟨hopened, hcreated, hattached⟩, fun hc => hc.1⟩
    · rw [if_pos (by simp [hattached])]
      rw [hcreate] at hlive
      refine ⟨⟨hreplace.trans (not_congr ?_), hlive⟩, Ctx.fresh_of_sock rfl (Nat.le_refl _)⟩
      rw [or_iff_right fun hc => hattached hc.2.2]

/-- A call of the callback is disciplined exactly if it closes nothing twice, and leaves the
descriptors of its endpoint open. -/
lemma reconnectLoopCallback_spec (h : ctx.Fresh) (w : Wake) :
    Leads (heldBy ctx.pkEpt) (reconnectLoopCallback ctx w).1 (¬ClosesTwice ctx w)
        (heldBy (reconnectLoopCallback ctx w).2.pkEpt) ∧
      (reconnectLoopCallback ctx w).2.Fresh := by
  by_cases hdisconnected : w.disconnected
  · by_cases hdetached : w.detached
    · exact reconnect_spec h hdisconnected hdetached
    · unfold ClosesTwice reconnectLoopCallback
      rw [if_pos hdisconnected, if_pos (by simp [hdetached])]
      exact ⟨⟨iff_of_true trivial fun hc => hdetached hc.2.1, rfl⟩, h⟩
  · unfold ClosesTwice reconnectLoopCallback
    rw [if_neg hdisconnected]
    rcases hept : ctx.pkEpt with _ | e
    · rw [hept]
      exact ⟨⟨iff_of_true trivial fun hc => hdisconnected hc.1, rfl⟩, h⟩
    · have hhandled := subPollHandler_spec e w.receivesNothing
      rw [leads_true_iff] at hhandled
      rw [heldBy_some, heldBy_some]
      exact ⟨⟨iff_of_true hhandled.1 fun hc => hdisconnected hc.1, hhandled.2⟩,
        Ctx.fresh_of_sock (subPollHandler_sock e _) (h e hept)⟩

/-! ### All calls -/

lemma callbacks_spec (h : ctx.Fresh) (wakes : List Wake) :
    Leads (heldBy ctx.pkEpt) (callbacks ctx wakes).1 (NoneTwice ctx wakes)
      (heldBy (callbacks ctx wakes).2.pkEpt) := by
  induction wakes generalizing ctx with
  | nil => exact ⟨Iff.rfl, rfl⟩
  | cons w wakes ih =>
    obtain ⟨hfirst, hfresh⟩ := reconnectLoopCallback_spec h w
    exact hfirst.append (ih hfresh)

lemma logFiles_disciplined (n : Nat) : Disciplined ∅ (logFiles n) := by
  induction n with
  | zero => trivial
  | succ n ih =>
    unfold logFiles at ih ⊢
    rw [range_succ, flatMap_append, disciplined_append]
    exact ⟨ih, Set.mem_insert n _, trivial⟩

lemma program_callback_spec (wakes : List Wake) (files : Nat) :
    Leads ∅ (program wakes files .callback) (NoneTwice startCtx wakes)
      (heldBy (callbacks startCtx wakes).2.pkEpt) := by
  have hfresh : startCtx.Fresh := Ctx.fresh_of_sock rfl (by decide)
  have hcreate := pkEndpointCreate_spec ∅
    (fun x hx => absurd hx (Set.notMem_empty x)) .created (n := 0)
  have hstart : ∅ ∪ heldBy (pkEndpointCreate 0 .created).2 = heldBy startCtx.pkEpt :=
    Set.empty_union _
  rw [hstart] at hcreate
  have hcalls := hcreate.append (callbacks_spec hfresh wakes)
  rwa [true_and] at hcalls

/-- The callback closes only what it opened, and that once, in every interleaving with the logger
exactly if no call closes the placeholder or a torn socket again. -/
theorem closesOwn_iff (table : List (Entry Thread Nat)) (wakes : List Wake) (files : Nat) :
    ClosesOwn table wakes files ↔ NoneTwice startCtx wakes := by
  obtain ⟨hcalls, hlive⟩ := program_callback_spec wakes files
  have hlogger : ∀ t, t ≠ .callback → Disciplined ∅ (program wakes files t) := by
    intro t ht
    cases t with
    | callback => exact absurd rfl ht
    | logger => exact logFiles_disciplined files
  have hown := @forall_closeOk_iff _ _ _ _ .callback table _ hlogger
  exact ⟨fun h => hcalls.mp (hown.mp h.own), fun h => ⟨hown.mpr (hcalls.mpr h), hlive⟩⟩

/-- A reconnect in which everything succeeds. -/
def reconnects : Wake := ⟨true, true, true, .created, true, false⟩

/-- The callback is about to close a number that has become that of a log file. -/
def closesLogFile (s : State Thread Nat) : Bool :=
  s.pending .callback = [.closeFd 9] ∧ s.number (.callback, 9) = some 12 ∧
    entryAt s.table 12 = .own .logger 0

/-- After a reconnect the callback closes a log file, if one is opened between its two closes of the
placeholder. -/
theorem not_closesOwn_reconnects :
    (∃ s, (process [.foreign, .foreign, .foreign] [reconnects] 1).Reaches s ∧
        closesLogFile s = true) ∧
      ¬ClosesOwn [.foreign, .foreign, .foreign] [reconnects] 1 := by
  have hrun : ∃ s, (process [.foreign, .foreign, .foreign] [reconnects] 1).Reaches s ∧
      closesLogFile s = true :=
    Machine.exists_reaches_of_run (List.replicate 29 .callback ++ [.logger]) (by decide)
  refine ⟨hrun, fun h => ?_⟩
  obtain ⟨s, hs, htest⟩ := hrun
  obtain ⟨hpending, hnumber, hentry⟩ := of_decide_eq_true htest
  obtain ⟨n, hn, hown⟩ := h.own s hs 9 [] hpending
  obtain rfl := Option.some.inj (hnumber.symm.trans hn)
  exact absurd (hentry.symm.trans hown) (by simp)

end PiksiBuildroot.FileLogger.Reconnect
