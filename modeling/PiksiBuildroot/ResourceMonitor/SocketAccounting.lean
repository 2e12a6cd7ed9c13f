import PiksiBuildroot.ResourceMonitor.Sockets

/-!
# Sockets and queues by process

`process_ss_entry` adds up what it is given by process: the number of sockets in 16 bits, and the
queues in 32 bits (`sums_foldl_account`). It is given nothing for Send-Q (`accounted_iff`).
-/

namespace PiksiBuildroot.ResourceMonitor.Sockets

open Lib List Option

/-- A sum modulo 2³². -/
def sum (queues : List UInt32) : UInt32 := queues.foldl (· + ·) 0

/-- The largest of some queues, zero if there are none. -/
def largest (queues : List UInt32) : UInt32 := queues.foldl (fun m q => if m < q then q else m) 0

lemma sum_append_singleton (queues : List UInt32) (q : UInt32) :
    sum (queues ++ [q]) = sum queues + q := by
  rw [sum, foldl_append]
  rfl

lemma largest_append_singleton (queues : List UInt32) (q : UInt32) :
    largest (queues ++ [q]) = if largest queues < q then q else largest queues := by
  rw [largest, foldl_append]
  rfl

lemma sum_map_zero {α : Type*} (l : List α) : sum (l.map fun _ => (0 : UInt32)) = 0 := by
  induction l using List.reverseRecOn with
  | nil => rfl
  | append_singleton l a ih =>
    rw [map_append, map_singleton, sum_append_singleton, ih]
    rfl

/-- The lines that are for a process. -/
def attributed (lines : List (List Char)) : List (List Char) := lines.filter fun l => !skipped l

/-- The lines of a process. -/
def linesOf (lines : List (List Char)) (pid : List Char) : List (List Char) :=
  (attributed lines).filter fun l => pidOf l = pid

/-- The entry of a process is what its lines add up to. -/
structure EntryAccounts (entry : PidEntry) (lines : List (List Char)) : Prop where
  socketCount : entry.socketCount.toNat = lines.length % 2 ^ 32
  recvQueue : entry.recvQueue = sum (lines.map recvQOf)
  sendQueue : entry.sendQueue = sum (lines.map sendQOf)
  totalQueue : entry.totalQueue = sum (lines.map recvQOf) + sum (lines.map sendQOf)
  maxQueue : entry.maxQueue = largest (lines.map fun l => recvQOf l + sendQOf l)

/-- Every process has an entry that is what its lines add up to. -/
def Accounted (lines : List (List Char)) (table : PidTable) : Prop :=
  ∀ pid ∈ (attributed lines).map pidOf,
    ∃ entry, table.get pid = some entry ∧ EntryAccounts entry (linesOf lines pid)

/-! ### What is added up -/

/-- An entry is what some sockets add up to. -/
structure Sums (entry : PidEntry) (rows : List SsEntry) : Prop where
  socketCount : entry.socketCount = UInt16.ofNat rows.length
  recvQueue : entry.recvQueue = sum (rows.map SsEntry.recvQ)
  sendQueue : entry.sendQueue = sum (rows.map SsEntry.sendQ)
  totalQueue : entry.totalQueue = sum (rows.map fun s => s.recvQ + s.sendQ)
  maxQueue : entry.maxQueue = largest (rows.map fun s => s.recvQ + s.sendQ)

/-- By induction on the rows, from the end. -/
theorem sums_foldl_account (ulongBits : Nat) (pid : List Char) (rows : List SsEntry) :
    Sums (rows.foldl account (newEntry ulongBits pid)) rows := by
  induction rows using List.reverseRecOn with
  | nil => exact ⟨rfl, rfl, rfl, rfl, rfl⟩
  | append_singleton rows s ih =>
    rw [foldl_append]
    constructor
    · change (rows.foldl account _).socketCount + 1 = _
      rw [ih.socketCount, length_append, length_singleton, UInt16.ofNat_add]
      rfl
    · rw [map_append, map_singleton, sum_append_singleton, ← ih.recvQueue]
      rfl
    · rw [map_append, map_singleton, sum_append_singleton, ← ih.sendQueue]
      rfl
    · rw [map_append, map_singleton, sum_append_singleton, ← ih.totalQueue]
      rfl
    · rw [map_append, map_singleton, largest_append_singleton, ← ih.maxQueue]
      rfl

/-- A process that is named by a number is tallied. -/
lemma processSsEntry_eq_tally {ulongBits : Nat} {s : SsEntry} (hpid : Decimal s.pidStr)
    (hlength : s.pidStr.length < pidStrSize) (table : PidTable) :
    processSsEntry ulongBits table s =
      table.tally SsEntry.pidStr (newEntry ulongBits) account s := by
  rw [processSsEntry, Table.tally, if_neg (Nat.not_le.mpr hlength),
    strtoulAll_decimal ulongBits hpid]
  split_ifs
  · rfl
  · cases table.put s.pidStr (newEntry ulongBits s.pidStr) <;> rfl

variable {lines : List (List Char)} {rows : List SsEntry}

/-- The rows that some lines come to. -/
lemma exists_rows {ulongBits : Nat} (hbits : 32 ≤ ulongBits)
    (h : ∀ line ∈ lines, skipped line = true ∨ WellFormed line) :
    ∃ rows : List SsEntry, processLines ulongBits lines =
        some (rows.foldl (Table.tally SsEntry.pidStr (newEntry ulongBits) account) Table.empty) ∧
      rows.map (fun s => (s.pidStr, s.recvQ, s.sendQ)) =
        (attributed lines).map fun l => (pidOf l, recvQOf l, 0) := by
  induction lines using List.reverseRecOn with
  | nil => exact ⟨[], rfl, rfl⟩
  | append_singleton lines line ih =>
    obtain ⟨rows, hlines, hrows⟩ := ih fun l hl => h l (mem_append_left _ hl)
    have hstep : processLines ulongBits (lines ++ [line]) =
        (processLines ulongBits lines).bind fun table => lineFunc ulongBits table line := by
      simp [processLines]
    rw [hstep, hlines, bind_some, attributed, filter_append]
    rcases h line (mem_append_right _ mem_cons_self) with hskipped | hline
    · refine ⟨rows, ?_, ?_⟩
      · rw [lineFunc, if_pos hskipped]
      · rw [filter_singleton, hskipped]
        simpa [attributed] using hrows
    · obtain ⟨s, hpid, hrecv, hsend, hfunc⟩ := lineFunc_of_wellFormed hbits hline
      refine ⟨rows ++ [s], ?_, ?_⟩
      · rw [hfunc, foldl_append, processSsEntry_eq_tally (hpid ▸ hline.pid.1)
          (hpid ▸ hline.pid.2)]
        rfl
      · rw [filter_singleton, hline.not_skipped, map_append, hrows]
        simp [attributed, hpid, hrecv, hsend]

/-- The rows of a process are its lines, with nothing for Send-Q. -/
lemma map_rowsOf
    (h : rows.map (fun s => (s.pidStr, s.recvQ, s.sendQ)) =
      (attributed lines).map fun l => (pidOf l, recvQOf l, 0))
    (pid : List Char) :
    (Table.rowsOf SsEntry.pidStr rows pid).map (fun s => (s.pidStr, s.recvQ, s.sendQ)) =
      (linesOf lines pid).map fun l => (pidOf l, recvQOf l, 0) := by
  have hfilter := congrArg (List.filter fun t => decide (t.1 = pid)) h
  rw [List.filter_map, List.filter_map] at hfilter
  exact hfilter

/-- The sums of the rows of a process, from its lines. -/
lemma Sums.of_lines {entry : PidEntry} (h : Sums entry rows)
    (hrows : rows.map (fun s => (s.pidStr, s.recvQ, s.sendQ)) =
      lines.map fun l => (pidOf l, recvQOf l, 0)) :
    entry.socketCount = UInt16.ofNat lines.length ∧ entry.recvQueue = sum (lines.map recvQOf) ∧
      entry.sendQueue = 0 ∧ entry.totalQueue = sum (lines.map recvQOf) ∧
      entry.maxQueue = largest (lines.map recvQOf) := by
  have hlength := congrArg List.length hrows
  have hrecv := congrArg (List.map fun t => t.2.1) hrows
  have hsend := congrArg (List.map fun t => t.2.2) hrows
  have hboth := congrArg (List.map fun t => t.2.1 + t.2.2) hrows
  simp only [List.map_map, Function.comp_def, length_map, UInt32.add_zero]
    at hlength hrecv hsend hboth
  refine ⟨?_, ?_, ?_, ?_, ?_⟩
  · rw [h.socketCount, hlength]
  · rw [h.recvQueue, hrecv]
  · rw [h.sendQueue, hsend, sum_map_zero]
  · rw [h.totalQueue, hboth]
  · rw [h.maxQueue, hboth]

/-- Nothing that is lost makes a difference for a process. -/
structure Unaffected (lines : List (List Char)) : Prop where
  count : lines.length % 2 ^ 32 < 2 ^ 16
  send : sum (lines.map sendQOf) = 0
  largest : largest (lines.map recvQOf) = largest (lines.map fun l => recvQOf l + sendQOf l)

/-- An entry accounts for its lines exactly if what is lost makes no difference. -/
lemma Sums.entryAccounts_iff {entry : PidEntry} (h : Sums entry rows)
    (hrows : rows.map (fun s => (s.pidStr, s.recvQ, s.sendQ)) =
      lines.map fun l => (pidOf l, recvQOf l, 0)) :
    EntryAccounts entry lines ↔ Unaffected lines := by
  obtain ⟨hcount, hrecv, hsend, htotal, hmax⟩ := h.of_lines hrows
  have hmod : entry.socketCount.toNat = lines.length % 2 ^ 32 ↔ lines.length % 2 ^ 32 < 2 ^ 16 := by
    rw [hcount, UInt16.toNat_ofNat']
    omega
  constructor
  · intro haccounts
    exact ⟨hmod.mp haccounts.socketCount, haccounts.sendQueue.symm.trans hsend,
      hmax.symm.trans haccounts.maxQueue⟩
  · intro hun
    refine ⟨hmod.mpr hun.count, hrecv, ?_, ?_, ?_⟩
    · rw [hsend, hun.send]
    · rw [htotal, hun.send, UInt32.add_zero]
    · rw [hmax, hun.largest]

/-- For every list of lines that are skipped or well formed: each process has an entry with what its
lines add up to, exactly if there is an entry for each process and nothing that is lost makes a
difference for it. -/
theorem accounted_iff {ulongBits : Nat} (hbits : 32 ≤ ulongBits) {lines : List (List Char)}
    (h : ∀ line ∈ lines, skipped line = true ∨ WellFormed line) :
    (∃ table, processLines ulongBits lines = some table ∧ Accounted lines table) ↔
      ((attributed lines).map pidOf).dedup.length ≤ maxProcessCount ∧
        ∀ pid ∈ (attributed lines).map pidOf, Unaffected (linesOf lines pid) := by
  obtain ⟨rows, hlines, hrows⟩ := exists_rows hbits h
  have htallied := @Table.tallied_foldl _ _ _ maxProcessCount _ SsEntry.pidStr
    (newEntry ulongBits) account rows
  generalize rows.foldl _ _ = table at hlines htallied
  have hpids : rows.map SsEntry.pidStr = (attributed lines).map pidOf := by
    have hfst := congrArg (List.map Prod.fst) hrows
    simpa only [List.map_map, Function.comp_def] using hfst
  have hiff : ∀ pid entry, table.get pid = some entry →
      (EntryAccounts entry (linesOf lines pid) ↔ Unaffected (linesOf lines pid)) := by
    intro pid entry hget
    have hentry := htallied.get_eq pid entry hget
    exact (hentry ▸ sums_foldl_account ulongBits pid _).entryAccounts_iff (map_rowsOf hrows pid)
  have hkeys := htallied.forall_mem_keys_iff
  rw [hpids] at hkeys
  rw [← hkeys, hlines]
  constructor
  · rintro ⟨table', htable, haccounted⟩
    obtain rfl := some_inj.mp htable
    refine ⟨fun pid hpid => ?_, fun pid hpid => ?_⟩
    · obtain ⟨entry, hget, -⟩ := haccounted pid hpid
      exact Table.get_isSome_iff.mp (by rw [hget]; rfl)
    · obtain ⟨entry, hget, hentry⟩ := haccounted pid hpid
      exact (hiff pid entry hget).mp hentry
  · rintro ⟨hmem, hun⟩
    refine ⟨table, rfl, fun pid hpid => ?_⟩
    obtain ⟨entry, hget⟩ := isSome_iff_exists.mp (Table.get_isSome_iff.mpr (hmem pid hpid))
    exact ⟨entry, hget, (hiff pid entry hget).mpr (hun pid hpid)⟩

/-- A connection in the Unix domain with 5 bytes to be received:
`u_str ESTAB 5 0 /run/a 1 * 2 (a,pid=12,fd=3)`. -/
def udsLine : List Char :=
  ['u', '_', 's', 't', 'r', ' ', 'E', 'S', 'T', 'A', 'B', ' ', '5', ' ', '0', ' ', '/', 'r',
    'u', 'n', '/', 'a', ' ', '1', ' ', '*', ' ', '2', ' ', '(', 'a', ',', 'p', 'i', 'd',
    '=', '1', '2', ',', 'f', 'd', '=', '3', ')']

/-- A connection with 7 bytes to be sent: `tcp ESTAB 0 7 *:22 *:99 (b,pid=34,fd=3)`. -/
def tcpLine : List Char :=
  ['t', 'c', 'p', ' ', 'E', 'S', 'T', 'A', 'B', ' ', '0', ' ', '7', ' ', '*', ':', '2', '2',
    ' ', '*', ':', '9', '9', ' ', '(', 'b', ',', 'p', 'i', 'd', '=', '3', '4', ',',
    'f', 'd', '=', '3', ')']

lemma wellFormed_udsLine : WellFormed udsLine where
  not_skipped := by decide +kernel
  no_zero := by decide +kernel
  columns := by decide +kernel
  fits := by decide +kernel
  recvQ := by decide +kernel
  sendQ := by decide +kernel
  pid := by decide +kernel

lemma wellFormed_tcpLine : WellFormed tcpLine where
  not_skipped := by decide +kernel
  no_zero := by decide +kernel
  columns := by decide +kernel
  fits := by decide +kernel
  recvQ := by decide +kernel
  sendQ := by decide +kernel
  pid := by decide +kernel

theorem accounted_iff_udsLine :
    ∃ table, processLines 32 [['N', 'e', 't', 'i', 'd'], udsLine, udsLine] = some table ∧
      Accounted [['N', 'e', 't', 'i', 'd'], udsLine, udsLine] table := by
  have hpids : (attributed [['N', 'e', 't', 'i', 'd'], udsLine, udsLine]).map pidOf =
      [['1', '2'], ['1', '2']] := by decide +kernel
  refine (accounted_iff (Nat.le_refl 32) ?_).mpr ⟨by decide +kernel, ?_⟩
  · intro line hline
    simp only [mem_cons, not_mem_nil, or_false] at hline
    rcases hline with rfl | rfl | rfl
    · exact .inl (by decide +kernel)
    · exact .inr wellFormed_udsLine
    · exact .inr wellFormed_udsLine
  · rw [hpids]
    intro pid hpid
    obtain rfl : pid = ['1', '2'] := by simpa using hpid
    exact ⟨by decide +kernel, by decide +kernel, by decide +kernel⟩

/-- The bytes to be sent are not counted. -/
theorem not_accounted_tcpLine : WellFormed tcpLine ∧ sendQOf tcpLine = 7 ∧
      ∃ table, processLines 32 [tcpLine] = some table ∧ (table.get ['3', '4']).map
            (fun entry => (entry.sendQueue, entry.totalQueue, entry.maxQueue)) = some (0, 0, 0) ∧
          ¬Accounted [tcpLine] table := by
  have hrun : (processLines 32 [tcpLine]).map (fun table => (table.get ['3', '4']).map
      (fun entry => (entry.sendQueue, entry.totalQueue, entry.maxQueue))) =
        some (some (0, 0, 0)) := by decide +kernel
  have hsend : sum ((linesOf [tcpLine] ['3', '4']).map sendQOf) = 7 := by decide +kernel
  obtain ⟨table, htable, hget⟩ := map_eq_some_iff.mp hrun
  refine ⟨wellFormed_tcpLine, by decide +kernel, table, htable, hget, fun haccounted => ?_⟩
  obtain ⟨entry, hentry, haccounts⟩ := haccounted ['3', '4'] (by decide +kernel)
  rw [hentry, map_some, some_inj] at hget
  have hzero := congrArg Prod.fst hget
  rw [show (entry.sendQueue, entry.totalQueue, entry.maxQueue).1 = entry.sendQueue from rfl,
    haccounts.sendQueue, hsend] at hzero
  exact absurd hzero (by decide)

end PiksiBuildroot.ResourceMonitor.Sockets
