import PiksiBuildroot.Lib.BoundedTable
import PiksiBuildroot.ResourceMonitor.TabLine

/-!
# Lines of `ss` and the table of processes

A line of the output of `ss` is one socket. Its columns are parsed with one of two tables, for
sockets of the Unix domain and for others, and are added to the entry of the process that is named
first. In both tables the send queue has the type of a string and no size, so nothing is copied
for it and it stays zero (`lineFunc_of_wellFormed`).
-/

namespace PiksiBuildroot.ResourceMonitor.Sockets

open Lib CText TabLine List Option

/-- Source: `MAX_PROCESS_COUNT`. -/
def maxProcessCount : Nat := 1024

/-- Source: `sizeof(pid_str)`. -/
def pidStrSize : Nat := 16

/-- Source: `sizeof(max_queue_address)`. -/
def maxQueueAddressSize : Nat := 64

/-- Source: `pid_entry_t`. -/
structure PidEntry where
  pidStr : List Char
  pid : UInt16
  socketCount : UInt16
  socketTypes : UInt32
  socketStates : UInt32
  totalQueue : UInt32
  sendQueue : UInt32
  recvQueue : UInt32
  maxQueue : UInt32
  maxQueueAddress : List Char
  deriving DecidableEq, Repr

/-- Source: `table_create(MAX_PROCESS_COUNT)`, `pid_table_get` and `pid_table_put`. -/
abbrev PidTable := Table (List Char) PidEntry maxProcessCount

/-- Source: `socket_states_t`, as `process_ss_entry` reads the column. -/
def socketStateBit (s : List Char) : UInt32 := if s = "ESTAB".toList then 0x0001
  else if s = "LISTEN".toList then 0x0200
  else if s = "UNCONN".toList then 0x0800
  else if s = "SYN-SENT".toList then 0x0002
  else if s = "SYN-RECV".toList then 0x0004
  else if s = "FIN-WAIT-1".toList then 0x0008
  else if s = "FIN-WAIT-2".toList then 0x0010
  else if s = "TIME-WAIT".toList then 0x0020
  else if s = "CLOSED".toList then 0x0040
  else if s = "CLOSE-WAIT".toList then 0x0080
  else if s = "LAST-ACK".toList then 0x0100
  else if s = "CLOSING".toList then 0x0400
  else 0x8000

/-- Source: `socket_types_t`, as `process_ss_entry` reads the column. -/
def socketTypeBit (s : List Char) : UInt32 := if s = "u_str".toList then 0x0004
  else if s = "u_dgr".toList then 0x0008
  else if s = "u_seq".toList then 0x0010
  else if s = "tcp".toList then 0x0001
  else if s = "udp".toList then 0x0002
  else 0x8000

/-- The arguments of `process_ss_entry`. -/
structure SsEntry where
  socketType : List Char
  socketState : List Char
  recvQ : UInt32
  sendQ : UInt32
  localAddr1 : List Char
  localAddr2 : List Char
  remoteAddr1 : List Char
  remoteAddr2 : List Char
  pidStr : List Char
  deriving DecidableEq, Repr

/-- A new entry; the number of the process is cut to 16 bits. Source: `process_ss_entry`. -/
def newEntry (ulongBits : Nat) (pidStr : List Char) : PidEntry where
  pidStr := pidStr
  pid := UInt16.ofNat (strtoul ulongBits 10 pidStr).1
  socketCount := 0
  socketTypes := 0
  socketStates := 0
  totalQueue := 0
  sendQueue := 0
  recvQueue := 0
  maxQueue := 0
  maxQueueAddress := []

/-- Add a socket to an entry. Source: `process_ss_entry`. -/
def account (entry : PidEntry) (s : SsEntry) : PidEntry := let totalQueue := s.recvQ + s.sendQ
  { entry with
    socketStates := entry.socketStates ||| socketStateBit s.socketState
    socketTypes := entry.socketTypes ||| socketTypeBit s.socketType
    socketCount := entry.socketCount + 1
    recvQueue := entry.recvQueue + s.recvQ
    sendQueue := entry.sendQueue + s.sendQ
    totalQueue := entry.totalQueue + totalQueue
    maxQueueAddress := if entry.maxQueue < totalQueue then
        snprintf (maxQueueAddressSize - 1) (s.localAddr1 ++ ',' :: s.localAddr2 ++ ',' ::
          s.remoteAddr1 ++ ',' :: s.remoteAddr2)
      else entry.maxQueueAddress
    maxQueue := if entry.maxQueue < totalQueue then totalQueue else entry.maxQueue }

/-- Source: `process_ss_entry`. -/
def processSsEntry (ulongBits : Nat) (table : PidTable) (s : SsEntry) : PidTable :=
  if (table.get s.pidStr).isSome then table.update s.pidStr (account · s)
  else if pidStrSize ≤ s.pidStr.length then table
  else match strtoulAll ulongBits 10 s.pidStr with
    | none => table
    | some _ => match table.put s.pidStr (newEntry ulongBits s.pidStr) with
      | none => table
      | some table => table.update s.pidStr (account · s)

/-- What `parse_socket_common` finds in the last column: the text behind the first `pid=` up to a
comma. -/
def firstPid (extraInfo : List Char) : Option (List Char) :=
  (strstr ['p', 'i', 'd', '='] extraInfo).map fun pidEq => (pidEq.drop 4).takeWhile (· ≠ ',')

/-- Source: `parse_socket_common`. If the text ends behind `pid=`, `sscanf` returns an error instead
of zero items, and the assertion behind it fails: `none`. -/
def parseSocketCommon (ulongBits : Nat) (table : PidTable) (s : SsEntry) (extraInfo : List Char) :
    Option (Bool × PidTable) :=
  match strstr ['p', 'i', 'd', '='] extraInfo with
  | none => some (false, table)
  | some pidEq =>
    match (pidEq.drop 4).takeWhile (· ≠ ',') with
    | [] => if pidEq.drop 4 = [] then none else some (false, table)
    | c :: cs => some (true, processSsEntry ulongBits table { s with pidStr := c :: cs })

/-- The local variables that the columns go to. -/
inductive SocketDst where
  | socketType
  | socketState
  | recvQ
  | sendQ
  | localAddr1
  | localAddr2
  | remoteAddr1
  | remoteAddr2
  | extraInfo
  deriving DecidableEq, Repr

/-- The states of `parse_uds_socket_line`; the final state is 9. The send queue has the type of a
string without a buffer, and the second remote address the destination of the first. -/
def udsSpecs : Nat → LineSpec SocketDst
  | 0 => ⟨.str, 1, 32, .socketType⟩
  | 1 => ⟨.str, 2, 32, .socketState⟩
  | 2 => ⟨.u32, 3, 0, .recvQ⟩
  | 3 => ⟨.str, 4, 0, .sendQ⟩
  | 4 => ⟨.str, 5, 128, .localAddr1⟩
  | 5 => ⟨.str, 6, 128, .localAddr2⟩
  | 6 => ⟨.str, 7, 128, .remoteAddr1⟩
  | 7 => ⟨.str, 8, 128, .remoteAddr1⟩
  | 8 => ⟨.str, 9, 256, .extraInfo⟩
  | _ => ⟨.f64, 0, 0, .socketType⟩

/-- The states of `parse_ext_socket_line`; the final state is 7. Its `local_addr` and `remote_addr`
are the first addresses here. -/
def extSpecs : Nat → LineSpec SocketDst
  | 0 => ⟨.str, 1, 32, .socketType⟩
  | 1 => ⟨.str, 2, 32, .socketState⟩
  | 2 => ⟨.u32, 3, 0, .recvQ⟩
  | 3 => ⟨.str, 4, 0, .sendQ⟩
  | 4 => ⟨.str, 5, 128, .localAddr1⟩
  | 5 => ⟨.str, 6, 128, .remoteAddr1⟩
  | 6 => ⟨.str, 7, 256, .extraInfo⟩
  | _ => ⟨.f64, 0, 0, .socketType⟩

/-- The variables at first. There are no numbers of type `double` among them. -/
def socketZero : Dests SocketDst Unit where
  f64 _ := ()
  u16 _ := 0
  u32 _ := 0
  str
    | .socketType | .socketState => List.replicate 32 '\x00'
    | .localAddr1 | .localAddr2 | .remoteAddr1 | .remoteAddr2 => List.replicate 128 '\x00'
    | .extraInfo => List.replicate 256 '\x00'
    | .recvQ | .sendQ => []

/-- The variables as arguments. -/
def entryOf (dsts : Dests SocketDst Unit) : SsEntry where
  socketType := cString (dsts.str .socketType)
  socketState := cString (dsts.str .socketState)
  recvQ := dsts.u32 .recvQ
  sendQ := dsts.u32 .sendQ
  localAddr1 := cString (dsts.str .localAddr1)
  localAddr2 := cString (dsts.str .localAddr2)
  remoteAddr1 := cString (dsts.str .remoteAddr1)
  remoteAddr2 := cString (dsts.str .remoteAddr2)
  pidStr := []

/-- A line with one of the two tables. -/
def parseSocketLine (specs : Nat → LineSpec SocketDst) (finalState ulongBits : Nat)
    (table : PidTable) (line : List Char) : Option (Bool × PidTable) :=
  match parseTabLine ulongBits (fun _ => none) specs line 0 finalState [' '] socketZero with
  | none => some (false, table)
  | some dsts =>
    parseSocketCommon ulongBits table (entryOf dsts) (cString (dsts.str .extraInfo))

/-- Source: `parse_uds_socket_line`. -/
def parseUdsSocketLine := parseSocketLine udsSpecs 9

/-- Source: `parse_ext_socket_line`. -/
def parseExtSocketLine := parseSocketLine extSpecs 7

/-- The header, the netlink sockets and those in the state `TIME-WAIT` are skipped. -/
def skipped (line : List Char) : Bool :=
  ['N', 'e', 't', 'i', 'd'].isPrefixOf line || ['n', 'l'].isPrefixOf line ||
    (strstr ['T', 'I', 'M', 'E', '-', 'W', 'A', 'I', 'T'] line).isSome

/-- The sockets of the Unix domain. -/
def isUds (line : List Char) : Bool :=
  ['u', '_', 's', 't', 'r'].isPrefixOf line || ['u', '_', 'd', 'g', 'r'].isPrefixOf line ||
    ['u', '_', 's', 'e', 'q'].isPrefixOf line

/-- Source: `line_func`, which returns true in any case. -/
def lineFunc (ulongBits : Nat) (table : PidTable) (line : List Char) : Option PidTable :=
  if skipped line then some table
  else if isUds line then (parseUdsSocketLine ulongBits table line).map Prod.snd
  else (parseExtSocketLine ulongBits table line).map Prod.snd

/-- The table after some lines. -/
def processLines (ulongBits : Nat) (lines : List (List Char)) : Option PidTable :=
  lines.foldlM (lineFunc ulongBits) Table.empty

/-! ### What a line passes on -/

/-- A column of a line. -/
def column (line : List Char) (n : Nat) : List Char := (strtokFields [' '] line).getD n []

/-- The process that a line is attributed to: the first in its last column. -/
def pidOf (line : List Char) : List Char :=
  (firstPid ((strtokFields [' '] line).getLastD [])).getD []

/-- The column Recv-Q. -/
def recvQOf (line : List Char) : UInt32 := UInt32.ofNat (Nat.ofDigitChars 10 (column line 2) 0)

/-- The column Send-Q. -/
def sendQOf (line : List Char) : UInt32 := UInt32.ofNat (Nat.ofDigitChars 10 (column line 3) 0)

/-- A field that is a decimal number. -/
def Decimal (field : List Char) : Prop := field ≠ [] ∧ ∀ c ∈ field, c.isDigit

instance (field : List Char) : Decidable (Decimal field) :=
  decidable_of_iff ((!field.isEmpty && field.all Char.isDigit) = true) (by simp [Decimal])

/-- The table of states that a line is parsed with. -/
def specsOf (line : List Char) : Nat → LineSpec SocketDst :=
  if isUds line then udsSpecs else extSpecs

/-- The number of its columns. -/
def columnCount (line : List Char) : Nat := if isUds line then 9 else 7

/-- A line for a socket of a process: the columns of its format, which fit in their buffers, with
numbers of 32 bits for the queues, and a process in the last column. -/
structure WellFormed (line : List Char) : Prop where
  not_skipped : skipped line = false
  no_zero : '\x00' ∉ line
  columns : (strtokFields [' '] line).length = columnCount line
  fits : ∀ p ∈ assigned (specsOf line) 0 (strtokFields [' '] line),
    (specsOf line p.1).type = .str → p.1 ≠ 3 → p.2.length < (specsOf line p.1).buflen
  recvQ : Decimal (column line 2) ∧ Nat.ofDigitChars 10 (column line 2) 0 < 2 ^ 32
  sendQ : Decimal (column line 3) ∧ Nat.ofDigitChars 10 (column line 3) 0 < 2 ^ 32
  pid : Decimal (pidOf line) ∧ (pidOf line).length < pidStrSize

lemma strtoulAll_decimal (ulongBits : Nat) {field : List Char} (h : Decimal field) :
    strtoulAll ulongBits 10 field =
      some (toUnsignedLong ulongBits false (Nat.ofDigitChars 10 field 0)) := by
  obtain ⟨hne, hdigits⟩ := h
  obtain ⟨c, cs, rfl⟩ := exists_cons_of_ne_nil hne
  rw [forall_mem_cons] at hdigits
  have htake : cs.takeWhile Char.isDigit = cs := takeWhile_eq_self_iff.mpr hdigits.2
  have hdrop : cs.dropWhile Char.isDigit = [] := dropWhile_eq_nil_iff.mpr hdigits.2
  rw [strtoulAll, strtoul_ten cs hdigits.1, htake, hdrop]
  simp

/-- What the table for the Unix domain does with nine columns. -/
lemma parseFields_uds {ulongBits value : Nat} {f0 f1 f2 f3 f4 f5 f6 f7 f8 : List Char}
    (h : strtoulAll ulongBits 10 f2 = some value) :
    ∃ dsts, parseFields ulongBits (fun _ => none) udsSpecs 9 0 [f0, f1, f2, f3, f4, f5, f6, f7, f8]
        socketZero = some dsts ∧
      dsts.u32 .recvQ = UInt32.ofNat value ∧ dsts.u32 .sendQ = 0 ∧
      dsts.str .extraInfo = strncpy (List.replicate 256 '\x00') f8 256 := by
  simp only [parseFields, storeField, udsSpecs, h, map_some, bind_eq_bind, bind_some]
  exact ⟨_, rfl, rfl, rfl, rfl⟩

/-- What the other table does with seven columns. -/
lemma parseFields_ext {ulongBits value : Nat} {f0 f1 f2 f3 f4 f5 f6 : List Char}
    (h : strtoulAll ulongBits 10 f2 = some value) :
    ∃ dsts, parseFields ulongBits (fun _ => none) extSpecs 7 0 [f0, f1, f2, f3, f4, f5, f6]
        socketZero = some dsts ∧
      dsts.u32 .recvQ = UInt32.ofNat value ∧ dsts.u32 .sendQ = 0 ∧
      dsts.str .extraInfo = strncpy (List.replicate 256 '\x00') f6 256 := by
  simp only [parseFields, storeField, extSpecs, h, map_some, bind_eq_bind, bind_some]
  exact ⟨_, rfl, rfl, rfl, rfl⟩

variable {ulongBits : Nat}

/-- The columns of a line that is well formed are all parsed, but nothing is stored for Send-Q. -/
lemma WellFormed.exists_dsts (hbits : 32 ≤ ulongBits) {line : List Char} (h : WellFormed line) :
    ∃ dsts, parseTabLine ulongBits (fun _ => none) (specsOf line) line 0 (columnCount line) [' ']
        socketZero = some dsts ∧
      dsts.u32 .recvQ = recvQOf line ∧ dsts.u32 .sendQ = 0 ∧
      cString (dsts.str .extraInfo) = (strtokFields [' '] line).getLastD [] := by
  have hlt := Nat.lt_of_lt_of_le h.recvQ.2 (Nat.pow_le_pow_right (by decide) hbits)
  have hvalue := strtoulAll_decimal ulongBits h.recvQ.1
  have hcolumns := h.columns
  have hfits := h.fits
  have hzero : ∀ field ∈ strtokFields [' '] line, '\x00' ∉ field := fun field hfield hmem =>
    h.no_zero (mem_of_mem_strtokFields hfield hmem)
  rw [toUnsignedLong_of_lt hlt] at hvalue
  unfold parseTabLine
  unfold recvQOf
  unfold column at hvalue ⊢
  by_cases huds : isUds line = true
  · have hspecs : specsOf line = udsSpecs := if_pos huds
    have hcount : columnCount line = 9 := if_pos huds
    rw [hspecs] at hfits ⊢
    rw [hcount] at hcolumns ⊢
    generalize strtokFields [' '] line = fields at *
    obtain ⟨f0, f1, f2, f3, f4, f5, f6, f7, f8, rfl⟩ :
        ∃ f0 f1 f2 f3 f4 f5 f6 f7 f8, [f0, f1, f2, f3, f4, f5, f6, f7, f8] = fields := by
      simpa [length_eq_succ_iff] using hcolumns
    have hlength : f8.length < 256 :=
      hfits (8, f8) (by simp [assigned, udsSpecs]) rfl (fun h => by cases h)
    obtain ⟨dsts, hparse, hrecv, hsend, hextra⟩ := parseFields_uds hvalue
    refine ⟨dsts, hparse, hrecv, hsend, ?_⟩
    rw [hextra, cString_strncpy (hzero f8 (by simp)) hlength]
    rfl
  · have hspecs : specsOf line = extSpecs := if_neg huds
    have hcount : columnCount line = 7 := if_neg huds
    rw [hspecs] at hfits ⊢
    rw [hcount] at hcolumns ⊢
    generalize strtokFields [' '] line = fields at *
    obtain ⟨f0, f1, f2, f3, f4, f5, f6, rfl⟩ :
        ∃ f0 f1 f2 f3 f4 f5 f6, [f0, f1, f2, f3, f4, f5, f6] = fields := by
      simpa [length_eq_succ_iff] using hcolumns
    have hlength : f6.length < 256 :=
      hfits (6, f6) (by simp [assigned, extSpecs]) rfl (fun h => by cases h)
    obtain ⟨dsts, hparse, hrecv, hsend, hextra⟩ := parseFields_ext hvalue
    refine ⟨dsts, hparse, hrecv, hsend, ?_⟩
    rw [hextra, cString_strncpy (hzero f6 (by simp)) hlength]
    rfl

lemma parseSocketCommon_of_firstPid {extraInfo pid : List Char}
    (h : firstPid extraInfo = some pid) (hne : pid ≠ []) (table : PidTable) (s : SsEntry) :
    parseSocketCommon ulongBits table s extraInfo =
      some (true, processSsEntry ulongBits table { s with pidStr := pid }) := by
  obtain ⟨pidEq, hpidEq, rfl⟩ := map_eq_some_iff.mp h
  rw [parseSocketCommon, hpidEq]
  obtain ⟨c, cs, hpid⟩ := exists_cons_of_ne_nil hne
  simp only [hpid]

/-- A line that is well formed adds a socket to the entry of its process, with the queue for
receiving and nothing for sending. -/
theorem lineFunc_of_wellFormed (hbits : 32 ≤ ulongBits) {line : List Char} (h : WellFormed line) :
    ∃ s : SsEntry, s.pidStr = pidOf line ∧ s.recvQ = recvQOf line ∧ s.sendQ = 0 ∧
      ∀ table, lineFunc ulongBits table line = some (processSsEntry ulongBits table s) := by
  obtain ⟨dsts, hparse, hrecv, hsend, hextra⟩ := h.exists_dsts hbits
  have hpid : firstPid (cString (dsts.str .extraInfo)) = some (pidOf line) := by
    have hne := h.pid.1.1
    unfold pidOf at hne ⊢
    rw [hextra]
    cases hfirst : firstPid ((strtokFields [' '] line).getLastD []) with
    | none => exact absurd (by rw [hfirst]; rfl) hne
    | some pid => rfl
  refine ⟨{ entryOf dsts with pidStr := pidOf line }, rfl, hrecv, hsend, fun table => ?_⟩
  have hline : ∀ specs finalState,
      parseTabLine ulongBits (fun _ => none) specs line 0 finalState [' '] socketZero = some dsts →
      (parseSocketLine specs finalState ulongBits table line).map Prod.snd =
        some (processSsEntry ulongBits table { entryOf dsts with pidStr := pidOf line }) := by
    intro specs finalState hspecs
    rw [parseSocketLine, hspecs]
    simp only [parseSocketCommon_of_firstPid hpid h.pid.1.1, map_some]
  unfold specsOf columnCount at hparse
  rw [lineFunc, h.not_skipped, if_neg Bool.false_ne_true]
  split_ifs at hparse ⊢
  · exact hline _ _ hparse
  · exact hline _ _ hparse

end PiksiBuildroot.ResourceMonitor.Sockets
