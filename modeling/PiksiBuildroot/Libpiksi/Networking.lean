import PiksiBuildroot.Libpiksi.InterfaceList

/-!
# The report of network usage

`interface_list_read_interfaces` adds the interface of each line of `/proc/net/dev` to a list and
stores its counters, so that the last line of an interface counts. `query_network_usage` then
writes one entry for each interface, and compares the number of entries with the room for them only
after an entry was written. The counters are cut at the largest number of 32 bits, but their sum
is made in 32 bits before it is cut, so that it wraps (`exists_usageReport_iff`).
-/

namespace PiksiBuildroot.Libpiksi.Networking

open Lib CText LinkedList InterfaceList List Option

/-! ### Reading the lines -/

/-- A line of `/proc/net/dev` as `fgets` leaves it. The kernel prints no blank lines. -/
structure DevLine where
  text : List Char
  no_zero : '\x00' ∉ text
  nonblank : ∃ c ∈ text, isSpace c = false

/-- The loop of `get_name` with room for some more characters. -/
def scanName : Nat → List Char → Option (List Char × List Char)
  | 0, _ => none -- interface name too large
  | _ + 1, [] => none
  | room + 1, c :: s =>
    if c = ':' then some ([], s)
    else if s.head?.all fun d => d.toNat ≤ ' '.toNat then none -- trailing ':' not found
    else (scanName room s).map fun r => (c :: r.1, r.2)

/-- The name and the text behind it, or `none` if the text is returned unchanged. The text is not
blank, or else the loop would start behind its end. Source: `get_name`. -/
def getName (p : List Char) : Option (List Char × List Char) :=
  scanName ifNameSize (p.dropWhile isSpace)

/-- Source: `procnetdev_version`. -/
def procnetdevVersion (buf : List Char) : Nat :=
  if (strstr ['c', 'o', 'm', 'p', 'r', 'e', 's', 's', 'e', 'd'] buf).isSome then 2
  else if (strstr ['b', 'y', 't', 'e', 's'] buf).isSome then 1
  else 0

/-- The numbers that `sscanf` converts, for the widths of the conversions. -/
def scanFields : List Nat → List Char → List Nat
  | [], _ => []
  | bits :: widths, s =>
    match scanUnsigned bits s with
    | none => []
    | some r => r.1 :: scanFields widths r.2

/-- The conversions of `ss_fmt` up to the one for `tx_bytes`; `%n` converts nothing. -/
def ssFmt (ulongBits vsn : Nat) : List Nat :=
  if vsn = 1 then [64, 64] ++ List.replicate 4 ulongBits ++ [64]
  else [64, 64] ++ List.replicate 6 ulongBits ++ [64]

/-- Source: `get_dev_fields`, the counters of bytes. A field that is not converted stays 0. -/
def getDevFields (ulongBits vsn : Nat) (bp : List Char) : DevStats := if vsn = 0 then ⟨0, 0⟩
  else
    let widths := ssFmt ulongBits vsn
    let fields := scanFields widths bp
    ⟨UInt64.ofNat (fields.getD 0 0), UInt64.ofNat (fields.getD (widths.length - 1) 0)⟩

/-- The interface that a line describes, or `none` if its name cannot be parsed. -/
def readLine (ulongBits vsn : Nat) (line : DevLine) : Option (List Char × DevStats) :=
  (getName line.text).bind fun r =>
    if r.1 = [] then none else some (r.1, getDevFields ulongBits vsn r.2)

/-- An allocator that has memory. -/
structure Malloc where
  pick : List ℕ → ℕ
  fresh : ∀ live, pick live ∉ live

/-- The loop of `interface_list_read_interfaces`, with the result that it returns. -/
def readLines (malloc : Malloc) (ulongBits vsn : Nat) :
    List DevLine → IfaList → Option (Int × IfaList)
  | [], l => some (0, l)
  | line :: lines, l =>
    match readLine ulongBits vsn line with
    | none => some (-1, l)
    | some (name, stats) =>
      (interfaceListAdd l name (some (malloc.pick l.heap.live))).bind fun r =>
        match r.1 with
        | none => some (-1, r.2)
        | some ifa =>
          (r.2.heap.write ifa fun node => { node with value.stats := stats }).bind fun heap =>
            readLines malloc ulongBits vsn lines { r.2 with heap }

/-- `/proc/net/dev`: the second line, and the lines behind it. -/
structure ProcNetDev where
  header : List Char
  lines : List DevLine

/-- Source: `interface_list_read_interfaces`. The file may fail to open. -/
def interfaceListReadInterfaces (malloc : Malloc) (ulongBits : Nat) (file : Option ProcNetDev)
    (l : IfaList) : Option (Int × IfaList) :=
  match file with
  | none => some (-1, l)
  | some file => readLines malloc ulongBits (procnetdevVersion file.header) file.lines l

/-! ### Writing the entries -/

/-- Source: `network_usage_t`. -/
structure NetworkUsage where
  duration : UInt64
  totalBytes : UInt32
  rxBytes : UInt32
  txBytes : UInt32
  interfaceName : List Char
  deriving DecidableEq, Repr

/-- The largest number of 32 bits. -/
def uint32Max : UInt64 := 0xffffffff

/-- A number of 64 bits cut to 32 bits. -/
def saturate (n : UInt64) : UInt32 := (if uint32Max < n then uint32Max else n).toUInt32

/-- The entry that `query_network_usage` writes for an interface. -/
def usageOf (uptimeMs : UInt64) (ifa : Interface) : NetworkUsage :=
  let rxBytes := saturate ifa.stats.rxBytes
  let txBytes := saturate ifa.stats.txBytes
  -- the sum of two `u32` is a `u32`
  let totalBytes : UInt64 := (rxBytes + txBytes).toUInt64
  ⟨uptimeMs, saturate totalBytes, rxBytes, txBytes, InterfaceList.interfaceName ifa⟩

/-- What `query_network_usage` stores: the entries with their indices in order, and
`*interface_count` at the end. -/
structure Stored where
  writes : List (Nat × NetworkUsage)
  interfaceCount : UInt8
  deriving DecidableEq, Repr

/-- The loop of `query_network_usage` over at most `fuel` nodes. -/
def usageFrom (uptimeMs : UInt64) (usageEntriesN : UInt8) (heap : Heap Interface) :
    Nat → Option ℕ → UInt8 → Option Stored
  | _, none, count => some ⟨[], count⟩
  | 0, some _, _ => none
  | fuel + 1, some ifa, count =>
    (heap.cells ifa).bind fun node =>
      let write := (count.toNat, usageOf uptimeMs node.value)
      -- `(*interface_count)++ >= usage_entries_n`
      if usageEntriesN ≤ count then some ⟨[write], count + 1⟩
      else
        (usageFrom uptimeMs usageEntriesN heap fuel node.next (count + 1)).map fun r =>
          { r with writes := write :: r.writes }

/-- Source: `query_network_usage`, with memory and `*interface_count` 0 at first. -/
def queryNetworkUsage (malloc : Malloc) (ulongBits : Nat) (uptimeMs : UInt64)
    (file : Option ProcNetDev) (usageEntriesN : UInt8) : Option Stored :=
  (interfaceListReadInterfaces malloc ulongBits file interfaceListCreate).bind fun r =>
    let l := r.2
    (usageFrom uptimeMs usageEntriesN l.heap l.heap.live.length l.head 0).bind fun stored =>
      (interfaceListDestroy l).map fun _ => stored

/-! ### What the report should be -/

/-- The interfaces that lines describe, up to the first line that cannot be parsed. -/
def described (ulongBits vsn : Nat) : List DevLine → List (List Char × DevStats)
  | [] => []
  | line :: lines =>
    match readLine ulongBits vsn line with
    | none => []
    | some p => p :: described ulongBits vsn lines

/-- The interfaces that the file describes. -/
def describedBy (ulongBits : Nat) (file : Option ProcNetDev) : List (List Char × DevStats) :=
  match file with
  | none => []
  | some file => described ulongBits (procnetdevVersion file.header) file.lines

/-- The counters of the last line of an interface. -/
def lastStats (ps : List (List Char × DevStats)) (name : List Char) : Option DevStats :=
  (ps.reverse.find? fun p => p.1 = name).map Prod.snd

/-- The interfaces without repetitions in the order of their names, with their last counters. -/
structure Summarises (ps : List (List Char × DevStats)) (ifaces : List Interface) : Prop where
  sorted : (ifaces.map InterfaceList.interfaceName).Pairwise fun a b => strcmp a b = .lt
  mem_iff : ∀ name, name ∈ ifaces.map InterfaceList.interfaceName ↔ name ∈ ps.map Prod.fst
  stats : ∀ ifa ∈ ifaces, lastStats ps (InterfaceList.interfaceName ifa) = some ifa.stats

/-- The last entry that was written at an index. -/
def Stored.entry (r : Stored) (i : Nat) : Option NetworkUsage :=
  (r.writes.reverse.find? fun w => w.1 = i).map Prod.snd

/-- An entry has the name and the counters of an interface, cut to 32 bits. -/
structure Describes (ifa : Interface) (entry : NetworkUsage) : Prop where
  name : entry.interfaceName = InterfaceList.interfaceName ifa
  rx : entry.rxBytes.toNat = min ifa.stats.rxBytes.toNat (2 ^ 32 - 1)
  tx : entry.txBytes.toNat = min ifa.stats.txBytes.toNat (2 ^ 32 - 1)
  total : entry.totalBytes.toNat = min (entry.rxBytes.toNat + entry.txBytes.toNat) (2 ^ 32 - 1)

/-- The report for some interfaces with room for `n` entries. -/
structure UsageReport (n : UInt8) (ifaces : List Interface) (r : Stored) : Prop where
  inside : ∀ w ∈ r.writes, w.1 < n.toNat
  count : r.interfaceCount.toNat = min n.toNat ifaces.length
  entries : ∀ i ifa, i < n.toNat → ifaces[i]? = some ifa →
    ∃ entry, r.entry i = some entry ∧ Describes ifa entry

/-! ### The lines that were read -/

lemma scanName_spec {room : Nat} {s name rest : List Char}
    (h : scanName room s = some (name, rest)) : name.length < room ∧ name ⊆ s := by
  induction room generalizing s name rest with
  | zero => exact absurd h (by simp [scanName])
  | succ room ih =>
    cases s with
    | nil => exact absurd h (by simp [scanName])
    | cons c s =>
      rw [scanName] at h
      split_ifs at h with hcolon hend
      · cases h
        exact ⟨Nat.zero_lt_succ _, nil_subset _⟩
      · obtain ⟨⟨name', rest'⟩, hscan, heq⟩ := map_eq_some_iff.mp h
        cases heq
        obtain ⟨hlength, hsubset⟩ := ih hscan
        exact ⟨Nat.succ_lt_succ hlength, cons_subset_cons c hsubset⟩

/-- The name in a line is a name of an interface. -/
lemma exists_ifName {ulongBits vsn : Nat} {line : DevLine} {p : List Char × DevStats}
    (h : readLine ulongBits vsn line = some p) : ∃ name : IfName, name.chars = p.1 := by
  obtain ⟨⟨name, rest⟩, hname, h⟩ := bind_eq_some_iff.mp h
  split_ifs at h
  cases h
  obtain ⟨hlength, hsubset⟩ := scanName_spec hname
  refine ⟨⟨name, fun hzero => line.no_zero ?_, hlength⟩, rfl⟩
  exact (dropWhile_suffix _).subset (hsubset hzero)

lemma lastStats_append (ps : List (List Char × DevStats)) (p : List Char × DevStats)
    (name : List Char) :
    lastStats (ps ++ [p]) name = if p.1 = name then some p.2 else lastStats ps name := by
  unfold lastStats
  by_cases h : p.1 = name
  · simp [h]
  · simp [h]

/-- A list holds the interfaces that were described, with their last counters. -/
structure Holds (l : IfaList) (chain : List ℕ) (ps : List (List Char × DevStats)) : Prop where
  linked : WellLinked l chain
  mem_iff : ∀ name, name ∈ names l.heap chain ↔ name ∈ ps.map Prod.fst
  stats : ∀ a ∈ chain, ∀ ifa, l.heap.value a = some ifa →
    lastStats ps (InterfaceList.interfaceName ifa) = some ifa.stats

lemma holds_create : Holds interfaceListCreate [] [] :=
  ⟨wellLinked_create, fun _ => Iff.rfl, fun _ h => absurd h not_mem_nil⟩

variable {l : IfaList} {chain : List ℕ} {ps : List (List Char × DevStats)}

/-- One more line. -/
lemma Holds.exists_add (h : Holds l chain ps) (malloc : Malloc) (name : IfName) (stats : DevStats) :
    ∃ ifa l₁ heap chain',
      interfaceListAdd l name.chars (some (malloc.pick l.heap.live)) = some (some ifa, l₁) ∧
      (l₁.heap.write ifa fun node => { node with value.stats := stats }) = some heap ∧
      Holds { l₁ with heap } chain' (ps ++ [(name.chars, stats)]) := by
  obtain ⟨ifa, l₁, chain₁, hadd, hlinked, hifa, hname, hnames, hother⟩ :=
    exists_added h.linked name (malloc.fresh l.heap.live)
  obtain ⟨heap, hwrite, hlive, hlinks, hvalue⟩ := Heap.exists_write_value
    (hlinked.perm.mem_iff.mp hifa) fun value : Interface => { value with stats := stats }
  have hkept : ∀ b, (heap.value b).map InterfaceList.interfaceName =
      (l₁.heap.value b).map InterfaceList.interfaceName := by
    intro b
    rw [hvalue]
    split_ifs with hb
    · rw [hb, Option.map_map]
      rfl
    · rfl
  have hsame : names heap chain₁ = names l₁.heap chain₁ := names_congr fun b _ => hkept b
  refine ⟨ifa, l₁, heap, chain₁, hadd, hwrite,
    ⟨?_, ?_, hlinked.head_eq, hlinked.tail_eq, ?_⟩, ?_, ?_⟩
  · exact hlinked.segment.congr fun b _ => hlinks b
  · exact hlive ▸ hlinked.perm
  · exact hsame ▸ hlinked.sorted
  · intro n
    rw [hsame, hnames, h.mem_iff, map_append, mem_append, map_singleton, mem_singleton, or_comm]
  · intro b hb value hvalueb
    rw [lastStats_append]
    have hnameb := (hkept b).symm.trans (congrArg (Option.map InterfaceList.interfaceName) hvalueb)
    by_cases hbifa : b = ifa
    · -- the node that was written
      rw [hbifa, hname, map_some, some_inj] at hnameb
      rw [hvalue, if_pos hbifa] at hvalueb
      obtain ⟨old, -, rfl⟩ := map_eq_some_iff.mp hvalueb
      rw [if_pos hnameb]
    · -- any other node has another name
      have hne : name.chars ≠ InterfaceList.interfaceName value := by
        intro heq
        rw [map_some, ← heq] at hnameb
        exact hbifa (hlinked.eq_of_name hb hifa hnameb hname)
      obtain ⟨hbchain, hbsame⟩ := hother b hb hbifa
      rw [hvalue, if_neg hbifa, hbsame] at hvalueb
      rw [if_neg hne]
      exact h.stats b hbchain value hvalueb

/-- The loop over the lines. -/
lemma Holds.exists_readLines (malloc : Malloc) (ulongBits vsn : Nat) (h : Holds l chain ps)
    (lines : List DevLine) :
    ∃ result l' chain', readLines malloc ulongBits vsn lines l = some (result, l') ∧
      Holds l' chain' (ps ++ described ulongBits vsn lines) := by
  induction lines generalizing l chain ps with
  | nil => exact ⟨0, l, chain, rfl, by rwa [described, append_nil]⟩
  | cons line lines ih =>
    rw [readLines, described]
    cases hline : readLine ulongBits vsn line with
    | none => exact ⟨-1, l, chain, rfl, by rwa [append_nil]⟩
    | some p =>
      obtain ⟨name, stats⟩ := p
      obtain ⟨ifName, rfl⟩ := exists_ifName hline
      obtain ⟨ifa, l₁, heap, chain₁, hadd, hwrite, hholds⟩ := h.exists_add malloc ifName stats
      obtain ⟨result, l', chain', hread, hholds'⟩ := ih hholds
      refine ⟨result, l', chain', ?_, ?_⟩
      · simp only [hadd, bind_some, hwrite, hread]
      · rwa [append_assoc, singleton_append] at hholds'

lemma exists_interfaceListReadInterfaces (malloc : Malloc) (ulongBits : Nat)
    (file : Option ProcNetDev) :
    ∃ result l chain,
      interfaceListReadInterfaces malloc ulongBits file interfaceListCreate = some (result, l) ∧
      Holds l chain (describedBy ulongBits file) := by
  cases file with
  | none => exact ⟨-1, _, [], rfl, holds_create⟩
  | some file => exact holds_create.exists_readLines malloc ulongBits _ file.lines

lemma Holds.summarises (h : Holds l chain ps) : Summarises ps (interfaces l.heap chain) := by
  refine ⟨h.linked.sorted, h.mem_iff, fun ifa hifa => ?_⟩
  obtain ⟨a, ha, hvalue⟩ := mem_filterMap.mp hifa
  exact h.stats a ha ifa hvalue

/-! ### The entries that are written -/

section
variable (uptimeMs : UInt64) (n : UInt8)

/-- The loop over the interfaces themselves. -/
def usageLoop : List Interface → UInt8 → Stored
  | [], count => ⟨[], count⟩
  | ifa :: ifaces, count =>
    let write := (count.toNat, usageOf uptimeMs ifa)
    if n ≤ count then ⟨[write], count + 1⟩
    else
      let r := usageLoop ifaces (count + 1)
      { r with writes := write :: r.writes }

/-- The loop over the nodes goes over their interfaces. -/
lemma usageFrom_eq {heap : Heap Interface} {p : Option ℕ} {fuel : Nat}
    (h : Segment heap p chain none) (hfuel : chain.length ≤ fuel) (count : UInt8) :
    usageFrom uptimeMs n heap fuel chain.head? count =
      some (usageLoop uptimeMs n (interfaces heap chain) count) := by
  induction chain generalizing p fuel count with
  | nil => rw [head?_nil, usageFrom]; rfl
  | cons a chain ih =>
    obtain ⟨fuel, rfl⟩ : ∃ m, fuel = m + 1 := Nat.exists_eq_succ_of_ne_zero (by
      rintro rfl
      simp at hfuel)
    obtain ⟨node, hnode, -, hnext⟩ := exists_cell h.1
    have hvalue : heap.value a = some node.value := by rw [Heap.value, hnode]; rfl
    rw [or_none] at hnext
    rw [head?_cons, usageFrom, hnode, bind_some, hnext, interfaces,
      filterMap_cons_some hvalue, usageLoop]
    split_ifs
    · rfl
    · rw [ih h.2 (by simpa using hfuel), map_some]
      rfl

omit uptimeMs in
lemma toNat_add_one {n count : UInt8} (h : count.toNat < n.toNat) :
    (count + 1).toNat = count.toNat + 1 := by
  have hn := n.toNat_lt
  rw [UInt8.toNat_add]
  exact Nat.mod_eq_of_lt (by simpa using by omega)

/-- As long as there is room the entries are written one behind the other, and one more entry is
written after that. -/
lemma usageLoop_eq (ifaces : List Interface) {count : UInt8} (hcount : count ≤ n) :
    (usageLoop uptimeMs n ifaces count).writes =
      ((ifaces.take (n.toNat - count.toNat + 1)).zipIdx count.toNat).map fun p =>
        (p.2, usageOf uptimeMs p.1) := by
  induction ifaces generalizing count with
  | nil => rfl
  | cons ifa ifaces ih =>
    rw [usageLoop]
    split_ifs with hfull
    · obtain rfl := UInt8.le_antisymm hcount hfull
      simp
    · have hlt : count.toNat < n.toNat := UInt8.lt_iff_toNat_lt.mp (UInt8.not_le.mp hfull)
      have hsucc := toNat_add_one hlt
      have hle : count + 1 ≤ n := UInt8.le_iff_toNat_le.mpr (by omega)
      have hroom : n.toNat - count.toNat + 1 = (n.toNat - (count.toNat + 1) + 1) + 1 := by omega
      dsimp only
      rw [ih hle, hsucc, hroom, take_succ_cons, zipIdx_cons, map_cons]

/-- The count, if there is room for all interfaces. -/
lemma interfaceCount_usageLoop {ifaces : List Interface} {count : UInt8}
    (h : count.toNat + ifaces.length ≤ n.toNat) :
    (usageLoop uptimeMs n ifaces count).interfaceCount.toNat = count.toNat + ifaces.length := by
  induction ifaces generalizing count with
  | nil => rfl
  | cons ifa ifaces ih =>
    rw [length_cons] at h
    have hlt : count.toNat < n.toNat := by omega
    have hnot : ¬n ≤ count := fun hle => absurd (UInt8.le_iff_toNat_le.mp hle) (by omega)
    have hsucc := toNat_add_one hlt
    rw [usageLoop]
    rw [if_neg hnot, ih (by omega), hsucc, length_cons]
    omega

end

lemma toNat_saturate (m : UInt64) : (saturate m).toNat = min m.toNat (2 ^ 32 - 1) := by
  unfold saturate uint32Max
  split_ifs with h
  · have := UInt64.lt_iff_toNat_lt.mp h
    simp at this ⊢
    omega
  · have := UInt64.le_iff_toNat_le.mp (UInt64.not_lt.mp h)
    simp at this ⊢
    omega

/-- The two counters cut to 32 bits do not add up to more. -/
def SumFits (ifa : Interface) : Prop :=
  min ifa.stats.rxBytes.toNat (2 ^ 32 - 1) + min ifa.stats.txBytes.toNat (2 ^ 32 - 1) < 2 ^ 32

/-- An entry describes its interface unless the sum wraps. -/
lemma describes_usageOf_iff (uptimeMs : UInt64) (ifa : Interface) :
    Describes ifa (usageOf uptimeMs ifa) ↔ SumFits ifa := by
  have hrx := toNat_saturate ifa.stats.rxBytes
  have htx := toNat_saturate ifa.stats.txBytes
  have htotal : (usageOf uptimeMs ifa).totalBytes.toNat =
      ((saturate ifa.stats.rxBytes).toNat + (saturate ifa.stats.txBytes).toNat) % 2 ^ 32 := by
    change (saturate _).toNat = _
    rw [toNat_saturate, UInt32.toNat_toUInt64, UInt32.toNat_add] at *
    omega
  have hsum : (usageOf uptimeMs ifa).totalBytes.toNat =
      min ((saturate ifa.stats.rxBytes).toNat + (saturate ifa.stats.txBytes).toNat) (2 ^ 32 - 1) ↔
      SumFits ifa := by
    unfold SumFits
    omega
  exact ⟨fun h => hsum.mp h.total, fun h => ⟨rfl, hrx, htx, hsum.mpr h⟩⟩

section
variable {uptimeMs : UInt64} {n : UInt8} {ifaces : List Interface}

/-- The loop goes one entry past the given number. -/
lemma mem_writes_iff {w : Nat × NetworkUsage} : w ∈ (usageLoop uptimeMs n ifaces 0).writes ↔
      ∃ ifa, ifaces[w.1]? = some ifa ∧ w.1 ≤ n.toNat ∧ w.2 = usageOf uptimeMs ifa := by
  rw [usageLoop_eq uptimeMs n ifaces (UInt8.le_iff_toNat_le.mpr (Nat.zero_le _)), List.mem_map]
  constructor
  · rintro ⟨⟨ifa, i⟩, hmem, rfl⟩
    have hget := mem_zipIdx_iff_getElem?.mp hmem
    obtain ⟨hlt, -⟩ := List.getElem?_eq_some_iff.mp hget
    rw [length_take, UInt8.toNat_zero] at hlt
    refine ⟨ifa, ?_, by omega, rfl⟩
    rwa [getElem?_take_of_lt (by rw [UInt8.toNat_zero]; omega)] at hget
  · rintro ⟨ifa, hget, hle, hw⟩
    refine ⟨(ifa, w.1), mem_zipIdx_iff_getElem?.mpr ?_, by rw [← hw]⟩
    rwa [getElem?_take_of_lt (by rw [UInt8.toNat_zero]; omega)]

/-- The entry at an index is the one of the interface there. -/
lemma entry_usageLoop {i : Nat} {ifa : Interface} (hi : i ≤ n.toNat)
    (hifa : ifaces[i]? = some ifa) :
    (usageLoop uptimeMs n ifaces 0).entry i = some (usageOf uptimeMs ifa) := by
  have hmem : (i, usageOf uptimeMs ifa) ∈ (usageLoop uptimeMs n ifaces 0).writes :=
    mem_writes_iff.mpr ⟨ifa, hifa, hi, rfl⟩
  have hsome : ((usageLoop uptimeMs n ifaces 0).writes.reverse.find? fun w => w.1 = i).isSome :=
    find?_isSome.mpr ⟨_, mem_reverse.mpr hmem, by simp⟩
  obtain ⟨w, hw⟩ := isSome_iff_exists.mp hsome
  have hwi : w.1 = i := by simpa using find?_some hw
  have hwmem := mem_reverse.mp (mem_of_find?_eq_some hw)
  obtain ⟨ifa', hifa', -, hw2⟩ := mem_writes_iff.mp hwmem
  rw [hwi, hifa, some_inj] at hifa'
  rw [Stored.entry, hw, map_some, hw2, hifa']

/-- The report for the interfaces of a list. -/
lemma usageReport_usageLoop_iff : UsageReport n ifaces (usageLoop uptimeMs n ifaces 0) ↔
      ifaces.length ≤ n.toNat ∧ ∀ ifa ∈ ifaces, SumFits ifa := by
  constructor
  · intro h
    have hlength : ifaces.length ≤ n.toNat := by
      by_contra hmore
      -- the entry behind the array
      have hget := getElem?_eq_getElem (Nat.lt_of_not_le hmore)
      have hwrite := h.inside (n.toNat, _) (mem_writes_iff.mpr ⟨_, hget, Nat.le_refl _, rfl⟩)
      exact Nat.lt_irrefl _ hwrite
    refine ⟨hlength, fun ifa hifa => ?_⟩
    obtain ⟨i, hi⟩ := mem_iff_getElem?.mp hifa
    obtain ⟨hlt, -⟩ := List.getElem?_eq_some_iff.mp hi
    obtain ⟨entry, hentry, hdescribes⟩ := h.entries i ifa (by omega) hi
    rw [entry_usageLoop (by omega) hi, some_inj] at hentry
    rw [← hentry] at hdescribes
    exact (describes_usageOf_iff uptimeMs ifa).mp hdescribes
  · rintro ⟨hlength, hfits⟩
    refine ⟨fun w hw => ?_, ?_, fun i ifa hi hifa => ?_⟩
    · obtain ⟨ifa, hifa, -⟩ := mem_writes_iff.mp hw
      obtain ⟨hlt, -⟩ := List.getElem?_eq_some_iff.mp hifa
      omega
    · have hzero : (0 : UInt8).toNat = 0 := rfl
      rw [interfaceCount_usageLoop uptimeMs n (by omega)]
      omega
    · refine ⟨_, entry_usageLoop (Nat.le_of_lt hi) hifa, ?_⟩
      exact (describes_usageOf_iff uptimeMs ifa).mpr (hfits ifa (mem_of_getElem? hifa))

end

/-- The report is right exactly if there is an entry for every interface and no sum wraps. -/
theorem exists_usageReport_iff (malloc : Malloc) (ulongBits : Nat) (uptimeMs : UInt64)
    (file : Option ProcNetDev) (n : UInt8) :
    ∃ ifaces r, Summarises (describedBy ulongBits file) ifaces ∧
      queryNetworkUsage malloc ulongBits uptimeMs file n = some r ∧
      (UsageReport n ifaces r ↔ ifaces.length ≤ n.toNat ∧ ∀ ifa ∈ ifaces, SumFits ifa) := by
  obtain ⟨result, l, chain, hread, hholds⟩ :=
    exists_interfaceListReadInterfaces malloc ulongBits file
  have hlinked := hholds.linked
  have hfuel := Nat.le_of_eq hlinked.perm.length_eq
  have husage := usageFrom_eq uptimeMs n hlinked.segment hfuel 0
  obtain ⟨heap, hdestroy, -⟩ := exists_destroyFrom hlinked.segment hlinked.perm hfuel
  refine ⟨interfaces l.heap chain, usageLoop uptimeMs n (interfaces l.heap chain) 0,
    hholds.summarises, ?_, usageReport_usageLoop_iff⟩
  simp only [queryNetworkUsage, hread, bind_some, hlinked.head_eq, husage,
    interfaceListDestroy, hlinked.tail_eq, hdestroy, map_some]

/-- An allocator that takes the address behind the last one. -/
def bumpMalloc : Malloc where
  pick live := live.max?.getD 0 + 1
  fresh _ h := absurd (le_max?_getD_of_mem h) (Nat.not_succ_le_self _)

/-- Two interfaces; the first has received the largest number of 32 bits and has sent one byte. -/
def twoInterfaces : ProcNetDev where
  header := ['b', 'y', 't', 'e', 's', ' ', 'c', 'o', 'm', 'p', 'r', 'e', 's', 's', 'e', 'd']
  lines := [
    ⟨['c', ':', '4', '2', '9', '4', '9', '6', '7', '2', '9', '5', ' ', '0', ' ', '0', ' ', '0', ' ',
      '0', ' ', '0', ' ', '0', ' ', '0', ' ', '1'], by decide, 'c', by decide, rfl⟩,
    ⟨['e', ':', '7', ' ', '0', ' ', '0', ' ', '0', ' ', '0', ' ', '0', ' ', '0', ' ', '0', ' ',
      '5'], by decide, 'e', by decide, rfl⟩]

/-- With room for one entry the second is written and counted too, and the sum for the first
wraps. -/
theorem not_usageReport_twoInterfaces :
    ∃ r, queryNetworkUsage bumpMalloc 32 0 (some twoInterfaces) 1 = some r ∧
      r.interfaceCount = 2 ∧ r.entry 0 = some ⟨0, 0, 4294967295, 1, ['c']⟩ ∧
      r.entry 1 = some ⟨0, 12, 7, 5, ['e']⟩ ∧ ∀ ifaces, ¬UsageReport 1 ifaces r := by
  refine ⟨⟨[(0, ⟨0, 0, 4294967295, 1, ['c']⟩), (1, ⟨0, 12, 7, 5, ['e']⟩)], 2⟩, ?_, rfl, rfl, rfl,
    fun ifaces h => ?_⟩
  · decide
  · exact absurd (h.inside (1, _) (mem_cons_of_mem _ mem_cons_self)) (by decide)

end PiksiBuildroot.Libpiksi.Networking
