import PiksiBuildroot.Lib.Machine
import PiksiBuildroot.Lib.Selection
import PiksiBuildroot.ResourceMonitor.SocketAccounting

/-!
# Reports of the processes with the most sockets

A run of the socket query makes a new table of processes and keeps pointers to the keys of the ten
with the most sockets. If the command fails no pointer is kept, and if there are fewer than ten
processes only that many are; the other positions still hold what an earlier run left there,
pointers to the keys of a table that has been destroyed, or nothing. `query_sockets_prepare` then
walks all ten positions (`reports_iff`). A pointer to a key carries the generation of the table that
the key belongs to.
-/

namespace PiksiBuildroot.ResourceMonitor.Sockets

open Lib List Option

/-- Source: `ITEM_COUNT`. -/
def itemCount : Nat := 10

/-- Source: `send_state_t`. -/
inductive SendState where
  | socketCounts (index : Fin itemCount)
  | socketQueues (index : Fin itemCount)
  | done
  deriving DecidableEq, Repr

/-- The state for a position of the walk; behind the last it is done. -/
def stateAt (index : Nat) : SendState :=
  if h : index < itemCount then .socketCounts ⟨index, h⟩ else .done

/-- A pointer to a key of the table of a run. -/
structure KeyPtr where
  generation : Nat
  key : List Char
  deriving DecidableEq, Repr

/-- Source: `resq_state_t`; `none` is a null pointer. The number of runs tells which table is the
current one. -/
structure QueryState where
  sendState : SendState
  generation : Nat
  pidTable : PidTable
  top10Counts : List (Option KeyPtr)

/-- Source: `pid_to_count_t`. -/
structure PidToCount where
  count : UInt16
  pid : List Char
  deriving DecidableEq, Repr

/-- `qsort` with `compare_counts`: some order in which no count is above an earlier one. -/
abbrev Qsort := Sorter fun a b : PidToCount => b.count ≤ a.count

/-- The array that `table_foreach_key` fills. -/
def pidToCounts (table : PidTable) : List PidToCount :=
  table.entries.map fun p => ⟨p.2.socketCount, p.1⟩

/-- Source: `run_resource_query`. `lines` are the lines that the output comes to, and `ok` says
whether `run_command` returned 0. -/
def runResourceQuery (ulongBits : Nat) (qsort : Qsort) (lines : List (List Char)) (ok : Bool)
    (s : QueryState) : Option QueryState :=
  (processLines ulongBits lines).map fun table =>
    let s := { s with
      sendState := stateAt 0
      generation := s.generation + 1
      pidTable := table }
    if ok then
      let top := (qsort.sort (pidToCounts table)).take itemCount
      { s with
        top10Counts :=
          top.map (fun p => some ⟨s.generation, p.pid⟩) ++ s.top10Counts.drop top.length }
    else s

/-- Source: `msg_linux_process_socket_counts_t`. -/
structure SocketCounts where
  index : UInt8
  pid : UInt16
  socketCount : UInt16
  socketTypes : UInt16
  socketStates : UInt16
  deriving DecidableEq, Repr

/-- The message for an entry. -/
def socketCounts (index : Nat) (entry : PidEntry) : SocketCounts where
  index := UInt8.ofNat index
  pid := entry.pid
  socketCount := entry.socketCount
  socketTypes := entry.socketTypes.toUInt16
  socketStates := entry.socketStates.toUInt16

/-- Source: `query_sockets_prepare`: what it returns, the message and the state. `none` is a
fault: a key that is not one of the current table, or no entry for it. -/
def querySocketsPrepare (s : QueryState) : Option (Bool × Option SocketCounts × QueryState) :=
  match s.sendState with
  | .done => some (false, none, s)
  | .socketQueues _ => some (true, none, s)
  | .socketCounts index => do
    let ptr ← (s.top10Counts.getD index none)
    if ptr.generation = s.generation then
      let entry ← s.pidTable.get ptr.key
      return (true, some (socketCounts index entry), { s with sendState := stateAt (index + 1) })
    else none

/-- Several calls, and the messages. -/
def prepareCalls : Nat → QueryState → Option (List SocketCounts × QueryState)
  | 0, s => some ([], s)
  | calls + 1, s => do
    let (_, message, s) ← querySocketsPrepare s
    let (messages, s) ← prepareCalls calls s
    return (message.toList ++ messages, s)

/-- What happens to the query. -/
inductive QueryAction where
  | run (lines : List (List Char)) (ok : Bool)
  | prepare

/-- Runs of the query and calls for reports in any order. -/
def queryMachine (ulongBits : Nat) (qsort : Qsort) : Machine QueryState QueryAction where
  init := ⟨stateAt 0, 0, Table.empty, List.replicate itemCount none⟩
  step s
    | .run lines ok => runResourceQuery ulongBits qsort lines ok s
    | .prepare => (querySocketsPrepare s).map fun r => r.2.2

/-- The messages for some keys, the first at a position. -/
def reportsOf (table : PidTable) (index : Nat) (keys : List (List Char)) :
    List (Option SocketCounts) :=
  (keys.zipIdx index).map fun p => (table.get p.1).map (socketCounts p.2)

/-- The messages are those of the processes with the most sockets, in descending order: as many as
were asked for, but not more than ten and not more than there are processes. -/
def Reports (table : PidTable) (calls : Nat) (messages : List SocketCounts) : Prop :=
  ∃ order : List PidToCount, order.Perm (pidToCounts table) ∧
    order.Pairwise (fun a b => b.count ≤ a.count) ∧
    messages.map some = reportsOf table 0 ((order.take (min calls itemCount)).map PidToCount.pid)

/-! ### Pointers of earlier runs -/

/-- The pointers are of this run or an earlier one. -/
structure Held (s : QueryState) : Prop where
  length_top : s.top10Counts.length = itemCount
  generation_le : ∀ ptr, some ptr ∈ s.top10Counts → ptr.generation ≤ s.generation

variable {s : QueryState}

section
variable {ulongBits : Nat} {qsort : Qsort} {lines : List (List Char)} {ok : Bool}

variable (qsort ok) in
/-- The keys that a run keeps pointers to. -/
def kept (table : PidTable) : List (List Char) :=
  if ok then ((qsort.sort (pidToCounts table)).take itemCount).map PidToCount.pid else []

lemma length_kept (table : PidTable) :
    (kept qsort ok table).length = if ok then min itemCount table.keys.length else 0 := by
  unfold kept
  split_ifs
  · rw [length_map, length_take, (qsort.perm _).length_eq, pidToCounts, length_map,
      Table.keys, length_map]
  · rfl

variable {s' : QueryState}

/-- After a run the first positions point to the keys that it keeps, and the others at most to
keys of tables that were destroyed. -/
lemma top_of_run (hs : Held s) (h : runResourceQuery ulongBits qsort lines ok s = some s') :
    s'.sendState = stateAt 0 ∧ s'.generation = s.generation + 1 ∧
      ∃ rest, s'.top10Counts = (kept qsort ok s'.pidTable).map (fun k => some ⟨s'.generation, k⟩) ++
          rest ∧
        s'.top10Counts.length = itemCount ∧
        ∀ ptr, some ptr ∈ rest → ptr.generation < s'.generation := by
  obtain ⟨table, -, rfl⟩ := map_eq_some_iff.mp h
  have hlength := hs.length_top
  cases ok with
  | false =>
    refine ⟨rfl, rfl, s.top10Counts, rfl, hlength, fun ptr hptr => ?_⟩
    exact Nat.lt_succ_of_le (hs.generation_le ptr hptr)
  | true =>
    refine ⟨rfl, rfl, s.top10Counts.drop ((qsort.sort (pidToCounts table)).take itemCount).length,
      ?_, ?_, fun ptr hptr => ?_⟩
    · simp [kept, Function.comp_def]
    · have hle : ((qsort.sort (pidToCounts table)).take itemCount).length ≤ itemCount :=
        length_take_le _ _
      simp only [if_true, length_append, length_map, length_drop, hlength]
      omega
    · exact Nat.lt_succ_of_le (hs.generation_le ptr (mem_of_mem_drop hptr))

lemma held_of_run (hs : Held s) (h : runResourceQuery ulongBits qsort lines ok s = some s') :
    Held s' := by
  obtain ⟨-, -, rest, htop, hlength, hrest⟩ := top_of_run hs h
  refine ⟨hlength, fun ptr hptr => ?_⟩
  rw [htop, mem_append, List.mem_map] at hptr
  rcases hptr with ⟨k, -, hk⟩ | hptr
  · exact Nat.le_of_eq (some_inj.mp hk ▸ rfl)
  · exact Nat.le_of_lt (hrest ptr hptr)

/-- A call changes the position only. -/
lemma held_of_prepare {ret : Bool} {message : Option SocketCounts} (hs : Held s)
    (h : querySocketsPrepare s = some (ret, message, s')) : Held s' := by
  unfold querySocketsPrepare at h
  split at h
  · simp only [some.injEq, Prod.mk.injEq] at h
    exact h.2.2 ▸ hs
  · simp only [some.injEq, Prod.mk.injEq] at h
    exact h.2.2 ▸ hs
  · simp only [bind_eq_bind, bind_eq_some_iff, ite_none_right_eq_some,
      Option.pure_def, some.injEq, Prod.mk.injEq] at h
    obtain ⟨ptr, -, -, entry, -, -, -, rfl⟩ := h
    exact ⟨hs.length_top, hs.generation_le⟩

lemma held_of_reaches (h : (queryMachine ulongBits qsort).Reaches s) : Held s := by
  have hinit : Held (queryMachine ulongBits qsort).init :=
    ⟨rfl, fun ptr hptr => absurd (eq_of_mem_replicate hptr) (some_ne_none _)⟩
  refine h.invariant hinit fun s action s' hs hstep => ?_
  cases action with
  | run lines ok => exact held_of_run hs hstep
  | prepare =>
    obtain ⟨⟨ret, message, s₁⟩, hprepare, rfl⟩ := map_eq_some_iff.mp hstep
    exact held_of_prepare hs hprepare

end

/-! ### The walk -/

lemma prepareCalls_succ (calls : Nat) (s : QueryState) :
    prepareCalls (calls + 1) s = (querySocketsPrepare s).bind fun r =>
      (prepareCalls calls r.2.2).map fun r' => (r.2.1.toList ++ r'.1, r'.2) := by
  rw [prepareCalls]
  cases querySocketsPrepare s with
  | none => rfl
  | some r =>
    simp only [bind_eq_bind, bind_some, map_eq_bind]
    rfl

lemma prepareCalls_add (a b : Nat) (s : QueryState) :
    prepareCalls (a + b) s = (prepareCalls a s).bind fun r =>
      (prepareCalls b r.2).map fun r' => (r.1 ++ r'.1, r'.2) := by
  induction a generalizing s with
  | zero => simp [prepareCalls]
  | succ a ih =>
    rw [Nat.succ_add, Nat.succ_eq_add_one, prepareCalls_succ, prepareCalls_succ]
    cases querySocketsPrepare s with
    | none => rfl
    | some r =>
      simp only [bind_some, ih, Option.map_bind, bind_map, Function.comp_def,
        Option.map_map, append_assoc]

/-- When it is done, nothing more is sent. -/
lemma prepareCalls_done (h : s.sendState = .done) (calls : Nat) :
    prepareCalls calls s = some ([], s) := by
  induction calls with
  | zero => rfl
  | succ calls ih =>
    have hprepare : querySocketsPrepare s = some (false, none, s) := by
      rw [querySocketsPrepare, h]
    rw [prepareCalls_succ, hprepare, bind_some, ih]
    rfl

lemma querySocketsPrepare_at {index : Nat} (h : s.sendState = stateAt index)
    (hindex : index < itemCount) :
    querySocketsPrepare s = (s.top10Counts.getD index none).bind fun ptr =>
      if ptr.generation = s.generation then
        (s.pidTable.get ptr.key).map fun entry =>
          (true, some (socketCounts index entry), { s with sendState := stateAt (index + 1) })
      else none := by
  rw [querySocketsPrepare, h, stateAt, dif_pos hindex]
  simp only [bind_eq_bind, map_eq_bind]
  rfl

/-- Positions that point to keys of the current table are walked, with a message for each. -/
lemma prepareCalls_live (keys : List (List Char)) :
    ∀ (s : QueryState) (index : Nat), s.sendState = stateAt index →
      index + keys.length ≤ itemCount →
      (∀ j k, keys[j]? = some k → s.top10Counts.getD (index + j) none = some ⟨s.generation, k⟩ ∧
        k ∈ s.pidTable.keys) →
      ∃ messages, prepareCalls keys.length s =
          some (messages, { s with sendState := stateAt (index + keys.length) }) ∧
        messages.map some = reportsOf s.pidTable index keys := by
  induction keys with
  | nil =>
    intro s index hstate _ _
    refine ⟨[], ?_, rfl⟩
    rw [length_nil, Nat.add_zero, ← hstate]
    rfl
  | cons k keys ih =>
    intro s index hstate hle hkeys
    rw [length_cons] at hle
    obtain ⟨hptr, hmem⟩ := hkeys 0 k rfl
    obtain ⟨entry, hentry⟩ := isSome_iff_exists.mp (Table.get_isSome_iff.mpr hmem)
    have hprepare := querySocketsPrepare_at hstate (by omega)
    rw [Nat.add_zero] at hptr
    rw [hptr, bind_some, if_pos rfl, hentry, map_some] at hprepare
    obtain ⟨messages, hcalls, hmessages⟩ :=
      ih { s with sendState := stateAt (index + 1) } (index + 1) rfl (by omega) fun j k' hk' => by
        have hnext := hkeys (j + 1) k' hk'
        rw [← Nat.add_assoc, Nat.add_right_comm] at hnext
        exact hnext
    refine ⟨socketCounts index entry :: messages, ?_, ?_⟩
    · rw [length_cons, prepareCalls_succ, hprepare, bind_some, hcalls,
        map_some, Nat.add_assoc, Nat.add_comm 1]
      rfl
    · rw [map_cons, hmessages, reportsOf, reportsOf, zipIdx_cons, map_cons, hentry]
      rfl

/-- A position that points to no key of the current table is a fault. -/
lemma prepareCalls_stale {index : Nat} (h : s.sendState = stateAt index)
    (hindex : index < itemCount)
    (hstale : ∀ ptr, s.top10Counts.getD index none = some ptr → ptr.generation < s.generation)
    (calls : Nat) : prepareCalls (calls + 1) s = none := by
  rw [prepareCalls_succ, querySocketsPrepare_at h hindex]
  cases hptr : s.top10Counts.getD index none with
  | none => rfl
  | some ptr =>
    rw [bind_some, if_neg (Nat.ne_of_lt (hstale ptr hptr))]
    rfl

/-! ### The reports of a run -/

section
variable {ulongBits : Nat} {qsort : Qsort} {lines : List (List Char)} {ok : Bool} {s' : QueryState}

lemma mem_keys_of_mem_kept {table : PidTable} {k : List Char} (h : k ∈ kept qsort ok table) :
    k ∈ table.keys := by
  unfold kept at h
  split_ifs at h
  · obtain ⟨p, hp, rfl⟩ := List.mem_map.mp h
    have hmem := (qsort.perm _).mem_iff.mp (mem_of_mem_take hp)
    obtain ⟨e, he, rfl⟩ := List.mem_map.mp hmem
    exact List.mem_map_of_mem he
  · cases h

variable {calls : Nat}

/-- After a run, calls walk the keys that it keeps. -/
lemma prepareCalls_kept (hs : Held s) (h : runResourceQuery ulongBits qsort lines ok s = some s')
    (hcalls : calls ≤ (kept qsort ok s'.pidTable).length) :
    ∃ messages, prepareCalls calls s' = some (messages, { s' with sendState := stateAt calls }) ∧
      messages.map some = reportsOf s'.pidTable 0 ((kept qsort ok s'.pidTable).take calls) := by
  obtain ⟨hstate, -, rest, htop, hlength, -⟩ := top_of_run hs h
  have hle : calls ≤ itemCount := by
    rw [htop, length_append, length_map] at hlength
    omega
  have hwalk := prepareCalls_live ((kept qsort ok s'.pidTable).take calls) s' 0 hstate
    (by rw [Nat.zero_add, length_take_of_le hcalls]; exact hle) fun j k hk => by
      rw [getElem?_take, ite_none_right_eq_some] at hk
      obtain ⟨hj, hk⟩ := hk
      refine ⟨?_, mem_keys_of_mem_kept (mem_of_getElem? hk)⟩
      rw [Nat.zero_add, getD_eq_getElem?_getD, htop,
        getElem?_append_left (by rw [length_map]; omega), getElem?_map, hk]
      rfl
  rw [length_take_of_le hcalls, Nat.zero_add] at hwalk
  exact hwalk

/-- After a run, one call more than there are keys that it keeps is a fault. -/
lemma prepareCalls_eq_none (hs : Held s)
    (h : runResourceQuery ulongBits qsort lines ok s = some s')
    (hcalls : (kept qsort ok s'.pidTable).length < min calls itemCount) :
    prepareCalls calls s' = none := by
  obtain ⟨-, -, rest, htop, -, hrest⟩ := top_of_run hs h
  obtain ⟨messages, hwalk, -⟩ := prepareCalls_kept hs h (Nat.le_refl _)
  obtain ⟨more, rfl⟩ : ∃ more, calls = (kept qsort ok s'.pidTable).length + (more + 1) :=
    ⟨calls - (kept qsort ok s'.pidTable).length - 1, by omega⟩
  rw [prepareCalls_add, hwalk, bind_some, prepareCalls_stale rfl (by omega) fun ptr hptr => ?_]
  · rfl
  · -- behind the keys that the run keeps there is what was there before it
    rw [getD_eq_getElem?_getD, htop, getElem?_append_right (by simp)] at hptr
    obtain hentry | ⟨-, hnone⟩ := getD_eq_iff.mp hptr
    · exact hrest _ (mem_of_getElem? hentry)
    · cases hnone

/-- Calls past the tenth position change nothing. -/
lemma prepareCalls_min {messages : List SocketCounts}
    (h : prepareCalls (min calls itemCount) s =
      some (messages, { s with sendState := stateAt (min calls itemCount) })) :
    prepareCalls calls s =
      some (messages, { s with sendState := stateAt (min calls itemCount) }) := by
  obtain hlt | hle := Nat.lt_or_ge itemCount calls
  · rw [Nat.min_eq_right (Nat.le_of_lt hlt)] at h ⊢
    rw [← Nat.add_sub_cancel' (Nat.le_of_lt hlt), prepareCalls_add, h, bind_some,
      prepareCalls_done rfl, map_some, append_nil]
  · rwa [Nat.min_eq_left hle] at h ⊢

/-- The first keys that a run keeps are the first ones of the order of the sort. -/
lemma take_kept {table : PidTable} (hcalls : calls ≤ (kept qsort ok table).length) :
    (kept qsort ok table).take calls =
      ((qsort.sort (pidToCounts table)).take calls).map PidToCount.pid := by
  cases ok with
  | false =>
    rw [Nat.le_zero.mp hcalls]
    rfl
  | true =>
    rw [length_kept] at hcalls
    have hle : calls ≤ itemCount := Nat.le_trans hcalls (Nat.min_le_left _ _)
    rw [kept, if_pos rfl, ← map_take, take_take, Nat.min_eq_left hle]

/-- The calls after a run look up keys of its table only and report the processes with the most
sockets exactly if there are as many processes as calls, the first ten calls counted only, and the
command did not fail. -/
theorem reports_iff (hs : (queryMachine ulongBits qsort).Reaches s)
    (hrun : runResourceQuery ulongBits qsort lines ok s = some s') (calls : Nat) :
    (∃ messages s'', prepareCalls calls s' = some (messages, s'') ∧
      Reports s'.pidTable calls messages) ↔
    min calls itemCount ≤ if ok then s'.pidTable.keys.length else 0 := by
  have hheld := held_of_reaches hs
  have hkept := @length_kept qsort ok s'.pidTable
  have hmin : min calls itemCount ≤ (kept qsort ok s'.pidTable).length ↔
      min calls itemCount ≤ if ok then s'.pidTable.keys.length else 0 := by
    rw [hkept]
    split_ifs <;> omega
  rw [← hmin]
  constructor
  · rintro ⟨messages, s'', hcalls, -⟩
    by_contra hlt
    rw [prepareCalls_eq_none hheld hrun (Nat.lt_of_not_le hlt)] at hcalls
    cases hcalls
  · intro hle
    obtain ⟨messages, hwalk, hmessages⟩ := prepareCalls_kept hheld hrun hle
    rw [take_kept hle] at hmessages
    exact ⟨messages, _, prepareCalls_min hwalk, qsort.sort (pidToCounts s'.pidTable), qsort.perm _,
      qsort.sorted _, hmessages⟩

end

/-- The order by insertion. -/
def byCount : Qsort :=
  have : Std.Total fun a b : PidToCount => b.count ≤ a.count :=
    ⟨fun a b => UInt16.le_total b.count a.count⟩
  have : IsTrans PidToCount fun a b => b.count ≤ a.count :=
    ⟨fun _ _ _ hab hbc => UInt16.le_trans hbc hab⟩
  Sorter.insertion _

theorem reports_iff_twoProcesses :
    ∃ s, runResourceQuery 32 byCount [udsLine, tcpLine] true (queryMachine 32 byCount).init =
        some s ∧
      ∃ messages s'', prepareCalls 2 s = some (messages, s'') ∧ Reports s.pidTable 2 messages := by
  have hrun : (runResourceQuery 32 byCount [udsLine, tcpLine] true
      (queryMachine 32 byCount).init).map (fun s => s.pidTable.keys.length) = some 2 := by
    decide +kernel
  obtain ⟨s, hs, hkeys⟩ := map_eq_some_iff.mp hrun
  exact ⟨s, hs, (reports_iff .init hs 2).mpr (by rw [if_pos rfl, hkeys]; decide)⟩

/-- One process: the second report takes a pointer that was never set. If the command fails the next
time, the first report takes the pointer to a key of the table that was destroyed. -/
theorem not_reports_oneProcess :
    ∃ s, runResourceQuery 32 byCount [udsLine] true (queryMachine 32 byCount).init = some s ∧
      prepareCalls 2 s = none ∧
      ∃ s', runResourceQuery 32 byCount [] false s = some s' ∧
        s'.top10Counts.head? = some (some ⟨1, ['1', '2']⟩) ∧ s'.generation = 2 ∧
        prepareCalls 1 s' = none := by
  have hrun : (runResourceQuery 32 byCount [udsLine] true (queryMachine 32 byCount).init).map
      (fun s => ((prepareCalls 2 s).isNone, (runResourceQuery 32 byCount [] false s).map fun s' =>
        (s'.top10Counts.head?, s'.generation, (prepareCalls 1 s').isNone))) =
      some (true, some (some (some ⟨1, ['1', '2']⟩), 2, true)) := by
    decide +kernel
  obtain ⟨s, hs, hvalues⟩ := map_eq_some_iff.mp hrun
  obtain ⟨hcalls, hnext⟩ := Prod.mk.inj hvalues
  obtain ⟨s', hs', hvalues⟩ := map_eq_some_iff.mp hnext
  obtain ⟨hhead, hvalues⟩ := Prod.mk.inj hvalues
  obtain ⟨hgeneration, hcalls'⟩ := Prod.mk.inj hvalues
  exact ⟨s, hs, isNone_iff_eq_none.mp hcalls, s', hs', hhead, hgeneration,
    isNone_iff_eq_none.mp hcalls'⟩

end PiksiBuildroot.ResourceMonitor.Sockets
