import Mathlib.Data.List.Pairwise
import PiksiBuildroot.Lib.CText
import PiksiBuildroot.Lib.LinkedList
import PiksiBuildroot.Lib.Machine

/-!
# The list of network interfaces

The interfaces are nodes of a doubly linked list in the order of their names. `interface_list_add`
goes from the tail to the first node whose name is not larger, returns it if the names are equal,
and links a new node in behind it otherwise (`structured_of_reaches`).

Nodes live in a heap where any use of what is not allocated is an error, and the loops may visit at
most as many nodes as there are, so that the result also says that the calls return.
-/

namespace PiksiBuildroot.Libpiksi.InterfaceList

open Lib CText LinkedList List Option

/-- Source: `IF_NAMESIZE`. -/
def ifNameSize : Nat := 16

/-- Source: `struct user_net_device_stats`, the counters of bytes. -/
structure DevStats where
  rxBytes : UInt64
  txBytes : UInt64
  deriving DecidableEq, Repr

/-- Source: `struct interface_s` without its pointers. -/
structure Interface where
  name : List Char
  stats : DevStats
  deriving DecidableEq, Repr

/-- Source: `interface_name`. -/
def interfaceName (ifa : Interface) : List Char := cString ifa.name

/-- Source: `struct interface_list_s`, with the heap that the nodes are in. -/
structure IfaList where
  heap : Heap Interface
  head : Option ℕ
  tail : Option ℕ

/-- Source: `interface_list_create`, with memory. -/
def interfaceListCreate : IfaList := ⟨.empty, none, none⟩

/-- How the search of `interface_list_add` ends: at a node with the name, or at the node that the
new one goes behind, where `none` stands for the place before the head. -/
inductive Place where
  | found (ifa : ℕ)
  | behind (ifa : Option ℕ)

/-- The search of `interface_list_add` over at most `fuel` nodes. -/
def findPlace (heap : Heap Interface) (ifaName : List Char) : Nat → Option ℕ → Option Place
  | _, none => some (.behind none)
  | 0, some _ => none
  | fuel + 1, some ifa =>
    (heap.cells ifa).bind fun node =>
      match strcmp (interfaceName node.value) ifaName with
      | .eq => some (.found ifa)
      | .lt => some (.behind (some ifa))
      | .gt => findPlace heap ifaName fuel node.prev

/-- A new node after `memset` and `strncpy`. -/
def newNode (ifaName : List Char) : Node Interface where
  value := ⟨strncpy (List.replicate ifNameSize '\x00') ifaName ifNameSize, ⟨0, 0⟩⟩
  next := none
  prev := none

/-- Source: `interface_list_add`, the branch for a new head. -/
def linkHead (l : IfaList) (new : ℕ) : Option IfaList := match l.head with
  | none => some { l with tail := some new, head := some new }
  | some head =>
    (l.heap.write new fun node => { node with next := some head }).bind fun heap =>
      (heap.write head fun node => { node with prev := some new }).map fun heap =>
        { l with heap, head := some new }

/-- Source: `interface_list_add`, the branch for a node behind an existing one. -/
def linkBehind (l : IfaList) (new ifa : ℕ) : Option IfaList :=
  (l.heap.write new fun node => { node with prev := some ifa }).bind fun heap =>
    (heap.cells ifa).bind fun left =>
      match left.next with
      | none =>
        (heap.write ifa fun node => { node with next := some new }).map fun heap =>
          { l with heap, tail := some new }
      | some right =>
        (heap.write new fun node => { node with next := some right }).bind fun heap =>
          (heap.write right fun node => { node with prev := some new }).bind fun heap =>
            (heap.write ifa fun node => { node with next := some new }).map fun heap =>
              { l with heap }

/-- Source: `interface_list_add`. `mem` is what `malloc` returns, which is never an address that is
in use; the result is the node that is returned, `none` for `NULL`, and the list. -/
def interfaceListAdd (l : IfaList) (ifaName : List Char) (mem : Option ℕ) :
    Option (Option ℕ × IfaList) :=
  (findPlace l.heap ifaName l.heap.live.length l.tail).bind fun place =>
    match place with
    | .found ifa => some (some ifa, l)
    | .behind ifa =>
      match mem with
      | none => some (none, l)
      | some new =>
        if hnew : new ∉ l.heap.live then
          let l := { l with heap := l.heap.alloc new (newNode ifaName) hnew }
          (ifa.elim (linkHead l new) (linkBehind l new)).map fun l => (some new, l)
        else none

/-- The loop of `interface_list_destroy` over at most `fuel` nodes: the nodes that are freed in
order, and the heap. -/
def destroyFrom : Nat → Heap Interface → Option ℕ → Option (List ℕ × Heap Interface)
  | _, heap, none => some ([], heap)
  | 0, _, some _ => none
  | fuel + 1, heap, some ifa =>
    (heap.cells ifa).bind fun node =>
      (heap.free ifa).bind fun heap =>
        (destroyFrom fuel heap node.prev).map fun r => (ifa :: r.1, r.2)

/-- Source: `interface_list_destroy`. -/
def interfaceListDestroy (l : IfaList) : Option (List ℕ × Heap Interface) :=
  destroyFrom l.heap.live.length l.heap l.tail

/-- A name of an interface: it fits into the array with its terminator. -/
structure IfName where
  chars : List Char
  no_zero : '\x00' ∉ chars
  length_lt : chars.length < ifNameSize

/-- A list with the names of the calls that had memory. -/
structure State where
  list : IfaList
  added : List (List Char)

/-- A call with the name and what `malloc` returns. -/
structure AddCall where
  name : IfName
  mem : Option ℕ

/-- Calls of `interface_list_add` in any order. -/
def addMachine : Machine State AddCall where
  init := ⟨interfaceListCreate, []⟩
  step s call := (interfaceListAdd s.list call.name.chars call.mem).map fun r =>
      ⟨r.2, if call.mem.isSome then call.name.chars :: s.added else s.added⟩

/-- The interfaces of some nodes. -/
def interfaces (heap : Heap Interface) (chain : List ℕ) : List Interface :=
  chain.filterMap heap.value

/-- The names of some nodes. -/
def names (heap : Heap Interface) (chain : List ℕ) : List (List Char) :=
  (interfaces heap chain).map interfaceName

/-- The nodes from head to tail are `chain`, linked in both directions and in the order of their
names. -/
structure WellLinked (l : IfaList) (chain : List ℕ) : Prop where
  segment : Segment l.heap none chain none
  perm : chain.Perm l.heap.live
  head_eq : l.head = chain.head?
  tail_eq : l.tail = chain.getLast?
  sorted : (names l.heap chain).Pairwise fun a b => strcmp a b = .lt

lemma wellLinked_create : WellLinked interfaceListCreate [] :=
  ⟨trivial, List.Perm.refl _, rfl, rfl, List.Pairwise.nil⟩

variable {chain : List ℕ} {name : List Char} {xs ys : List ℕ} {ifa : Interface} {fuel : Nat}

section
variable {heap heap' : Heap Interface}

lemma names_append (xs ys : List ℕ) : names heap (xs ++ ys) = names heap xs ++ names heap ys := by
  simp [names, interfaces]

variable {a : ℕ}

lemma names_cons (h : heap.value a = some ifa) (xs : List ℕ) :
    names heap (a :: xs) = interfaceName ifa :: names heap xs := by
  simp [names, interfaces, h]

lemma names_eq_filterMap (chain : List ℕ) :
    names heap chain = chain.filterMap fun a => (heap.value a).map interfaceName := by
  rw [names, interfaces, map_filterMap]

lemma names_congr
    (h : ∀ a ∈ chain, (heap'.value a).map interfaceName = (heap.value a).map interfaceName) :
    names heap' chain = names heap chain := by
  rw [names_eq_filterMap, names_eq_filterMap]
  exact filterMap_congr h

lemma mem_names (ha : a ∈ chain) (hname : (heap.value a).map interfaceName = some name) :
    name ∈ names heap chain := by
  obtain ⟨ifa, hifa, rfl⟩ := map_eq_some_iff.mp hname
  exact List.mem_map_of_mem (mem_filterMap.mpr ⟨a, ha, hifa⟩)

/-- A linked node is allocated. -/
lemma exists_cell {l : Option ℕ × Option ℕ} (h : heap.links a = some l) :
    ∃ node, heap.cells a = some node ∧ node.prev = l.1 ∧ node.next = l.2 := by
  obtain ⟨node, hnode, hl⟩ := map_eq_some_iff.mp h
  exact ⟨node, hnode, congrArg Prod.fst hl, congrArg Prod.snd hl⟩

/-- The search from the end of `xs`. -/
lemma exists_findPlace (ifaName : List Char) (h : Segment heap none (xs ++ ys) none)
    (hfuel : xs.length ≤ fuel) :
    (∃ a ∈ xs, findPlace heap ifaName fuel xs.getLast? = some (.found a) ∧
      (heap.value a).map interfaceName = some ifaName) ∨
    ∃ us vs, xs = us ++ vs ∧ findPlace heap ifaName fuel xs.getLast? = some (.behind us.getLast?) ∧
      (∀ n ∈ names heap vs, strcmp n ifaName = .gt) ∧
      ∀ n ∈ (names heap us).getLast?, strcmp n ifaName = .lt := by
  induction xs using List.reverseRecOn generalizing ys fuel with
  | nil => exact .inr ⟨[], [], rfl, by simp [findPlace], by simp [names, interfaces], by
      simp [names, interfaces]⟩
  | append_singleton xs b ih =>
    rw [append_assoc, singleton_append] at h
    obtain ⟨node, hnode, hprev, -⟩ := exists_cell h.links_mid
    have hvalue : heap.value b = some node.value := by rw [Heap.value, hnode]; rfl
    obtain ⟨fuel, rfl⟩ : ∃ n, fuel = n + 1 := Nat.exists_eq_succ_of_ne_zero (by
      rintro rfl
      simp at hfuel)
    have hfind : findPlace heap ifaName (fuel + 1) (xs ++ [b]).getLast? =
        match strcmp (interfaceName node.value) ifaName with
        | .eq => some (.found b)
        | .lt => some (.behind (some b))
        | .gt => findPlace heap ifaName fuel xs.getLast? := by
      rw [getLast?_concat, findPlace, hnode, bind_some, hprev]
    rw [hfind]
    cases hcmp : strcmp (interfaceName node.value) ifaName with
    | eq =>
      refine .inl ⟨b, by simp, rfl, ?_⟩
      rw [hvalue, map_some, Std.LawfulEqCmp.eq_of_compare hcmp]
    | lt =>
      refine .inr ⟨xs ++ [b], [], by simp, by simp, by simp [names, interfaces], ?_⟩
      rw [names_append, names_cons hvalue]
      simpa [names, interfaces] using hcmp
    | gt =>
      rw [length_append, length_singleton] at hfuel
      have hle : xs.length ≤ fuel := by omega
      rcases ih h hle with ⟨a, ha, hfound, hname⟩ | ⟨us, vs, rfl, hbehind, hgt, hlt⟩
      · exact .inl ⟨a, mem_append_left _ ha, hfound, hname⟩
      · refine .inr ⟨us, vs ++ [b], by simp, hbehind, fun n hn => ?_, hlt⟩
        rw [names_append, names_cons hvalue] at hn
        rcases mem_append.mp hn with hn | hn
        · exact hgt n hn
        · simp only [names, interfaces, filterMap_nil, map_nil, mem_singleton] at hn
          rw [hn, hcmp]

end

/-! ### Linking a node in -/

/-- A new node was linked in between the nodes `xs` and the nodes `ys`. -/
structure Inserted (l l' : IfaList) (xs ys : List ℕ) (new : ℕ) (ifa : Interface) : Prop where
  linked : LinkedIn l.heap l'.heap xs.getLast? new ys.head? ifa
  head_eq : l'.head = (xs ++ new :: ys).head?
  tail_eq : l'.tail = (xs ++ new :: ys).getLast?

section
variable {l : IfaList} {new : ℕ} (ifaName : List Char) (hnew : new ∉ l.heap.live)

/-- A new head. -/
lemma exists_linkHead (h : WellLinked l ys) :
    ∃ l', linkHead { l with heap := l.heap.alloc new (newNode ifaName) hnew } new = some l' ∧
      Inserted l l' [] ys new (newNode ifaName).value := by
  cases ys with
  | nil =>
    have hhead : l.head = none := h.head_eq
    refine ⟨_, by rw [linkHead, hhead], ⟨rfl, fun a => ?_, fun a => ?_⟩, rfl, rfl⟩
    · rw [Heap.links_alloc]
      simp [newNode]
    · rw [Heap.value_alloc]
  | cons c ys =>
    have hc : c ∈ l.heap.live := h.perm.mem_iff.mp mem_cons_self
    have hne : c ≠ new := fun heq => hnew (heq ▸ hc)
    have hmem : new ∈ (l.heap.alloc new (newNode ifaName) hnew).live := mem_cons_self
    obtain ⟨heap₁, hwrite₁, hlive₁, hlinks₁, hvalue₁⟩ := Heap.exists_write_next hmem (some c)
    have hc₁ : c ∈ heap₁.live := hlive₁ ▸ mem_cons_of_mem new hc
    obtain ⟨heap₂, hwrite₂, hlive₂, hlinks₂, hvalue₂⟩ := Heap.exists_write_prev hc₁ (some new)
    have hhead : l.head = some c := h.head_eq
    refine ⟨{ heap := heap₂, head := some new, tail := l.tail }, ?_, ⟨?_, fun a => ?_, fun a => ?_⟩,
      rfl, ?_⟩
    · simp only [linkHead, hhead, hwrite₁, bind_some, hwrite₂, map_some]
    · rw [hlive₂, hlive₁, Heap.live_alloc]
    · simp only [hlinks₂, hlinks₁, Heap.links_alloc]
      by_cases hanew : a = new
      · simp [hanew, hne.symm, newNode]
      · simp [hanew, eq_comm]
    · rw [hvalue₂, hvalue₁, Heap.value_alloc]
    · rw [h.tail_eq]
      simp

/-- A node behind another one. -/
lemma exists_linkBehind {b : ℕ} (h : WellLinked l (xs ++ b :: ys)) :
    ∃ l', linkBehind { l with heap := l.heap.alloc new (newNode ifaName) hnew } new b = some l' ∧
      Inserted l l' (xs ++ [b]) ys new (newNode ifaName).value := by
  have hb : b ∈ l.heap.live := h.perm.mem_iff.mp (by simp)
  have hbnew : b ≠ new := fun heq => hnew (heq ▸ hb)
  have hmem : new ∈ (l.heap.alloc new (newNode ifaName) hnew).live := mem_cons_self
  obtain ⟨heap₁, hwrite₁, hlive₁, hlinks₁, hvalue₁⟩ := Heap.exists_write_prev hmem (some b)
  have hb₁ : b ∈ heap₁.live := hlive₁ ▸ mem_cons_of_mem new hb
  have hlinksb : heap₁.links b = some (xs.getLast?, ys.head?) := by
    rw [hlinks₁, if_neg hbnew, Heap.links_alloc, if_neg hbnew, h.segment.links_mid]
  obtain ⟨left, hleft, -, hnext⟩ := exists_cell hlinksb
  cases ys with
  | nil =>
    obtain ⟨heap₂, hwrite₂, hlive₂, hlinks₂, hvalue₂⟩ := Heap.exists_write_next hb₁ (some new)
    refine ⟨{ heap := heap₂, head := l.head, tail := some new }, ?_, ⟨?_, fun a => ?_, fun a => ?_⟩,
      ?_, by simp⟩
    · simp only [linkBehind, hwrite₁, bind_some, hleft, hnext, head?_nil, hwrite₂, map_some]
    · rw [hlive₂, hlive₁, Heap.live_alloc]
    · simp only [hlinks₂, hlinks₁, Heap.links_alloc]
      by_cases hanew : a = new
      · simp [hanew, hbnew.symm, newNode]
      · simp [hanew, eq_comm]
    · rw [hvalue₂, hvalue₁, Heap.value_alloc]
    · rw [h.head_eq]
      simp
  | cons c ys =>
    have hc : c ∈ l.heap.live := h.perm.mem_iff.mp (by simp)
    have hcnew : c ≠ new := fun heq => hnew (heq ▸ hc)
    have hbc : b ≠ c := by
      have hnodup := (nodup_append.mp (h.perm.nodup_iff.mpr l.heap.nodup)).2.1
      rintro rfl
      exact (nodup_cons.mp hnodup).1 mem_cons_self
    have hc₁ : c ∈ heap₁.live := hlive₁ ▸ mem_cons_of_mem new hc
    obtain ⟨heap₂, hwrite₂, hlive₂, hlinks₂, hvalue₂⟩ :=
      Heap.exists_write_next (hlive₁ ▸ hmem) (some c)
    obtain ⟨heap₃, hwrite₃, hlive₃, hlinks₃, hvalue₃⟩ :=
      Heap.exists_write_prev (hlive₂ ▸ hc₁) (some new)
    have hb₃ : b ∈ heap₃.live := hlive₃ ▸ hlive₂ ▸ hb₁
    obtain ⟨heap₄, hwrite₄, hlive₄, hlinks₄, hvalue₄⟩ := Heap.exists_write_next hb₃ (some new)
    refine ⟨{ heap := heap₄, head := l.head, tail := l.tail }, ?_, ⟨?_, fun a => ?_, fun a => ?_⟩,
      ?_, ?_⟩
    · simp only [linkBehind, hwrite₁, bind_some, hleft, hnext, head?_cons, hwrite₂,
        hwrite₃, hwrite₄, map_some]
    · rw [hlive₄, hlive₃, hlive₂, hlive₁, Heap.live_alloc]
    · simp only [hlinks₄, hlinks₃, hlinks₂, hlinks₁, Heap.links_alloc]
      by_cases hanew : a = new
      · simp [hanew, hbnew.symm, hcnew.symm]
      · by_cases hab : a = b
        · simp [hab, hbc, hbnew]
        · simp [hanew, hab, Ne.symm hab, eq_comm]
    · rw [hvalue₄, hvalue₃, hvalue₂, hvalue₁, Heap.value_alloc]
    · rw [h.head_eq]
      simp
    · rw [h.tail_eq]
      simp

/-- A node in either place. -/
lemma exists_link (h : WellLinked l (xs ++ ys)) : ∃ l', xs.getLast?.elim
        (linkHead { l with heap := l.heap.alloc new (newNode ifaName) hnew } new)
        (linkBehind { l with heap := l.heap.alloc new (newNode ifaName) hnew } new) = some l' ∧
      Inserted l l' xs ys new (newNode ifaName).value := by
  induction xs using List.reverseRecOn with
  | nil => exact exists_linkHead ifaName hnew h
  | append_singleton xs b _ =>
    rw [append_assoc, singleton_append] at h
    rw [getLast?_concat]
    exact exists_linkBehind ifaName hnew h

end

variable {l l' : IfaList} {new : ℕ}

lemma Inserted.value_new (h : Inserted l l' xs ys new ifa) : l'.heap.value new = some ifa := by
  rw [h.linked.value, if_pos rfl]

/-- A list that a node was linked into is linked, if the name is in its place. -/
lemma Inserted.wellLinked (h : Inserted l l' xs ys new ifa) (hl : WellLinked l (xs ++ ys))
    (hnew : new ∉ l.heap.live) (hleft : ∀ n ∈ names l.heap xs, strcmp n (interfaceName ifa) = .lt)
    (hright : ∀ n ∈ names l.heap ys, strcmp (interfaceName ifa) n = .lt) :
    WellLinked l' (xs ++ new :: ys) ∧ names l'.heap (xs ++ new :: ys) =
        names l.heap xs ++ interfaceName ifa :: names l.heap ys := by
  have hnotMem : new ∉ xs ++ ys := mt hl.perm.mem_iff.mp hnew
  have hother : ∀ zs : List ℕ, zs ⊆ xs ++ ys → names l'.heap zs = names l.heap zs := by
    refine fun zs hzs => names_congr fun a ha => congrArg _ ?_
    rw [h.linked.value, if_neg (ne_of_mem_of_not_mem (hzs ha) hnotMem)]
  have hnames : names l'.heap (xs ++ new :: ys) =
      names l.heap xs ++ interfaceName ifa :: names l.heap ys := by
    rw [names_append, names_cons h.value_new, hother xs (by simp), hother ys (by simp)]
  have hnodup := hl.perm.nodup_iff.mpr l.heap.nodup
  refine ⟨⟨hl.segment.insert hnodup hnotMem h.linked, ?_, h.head_eq, h.tail_eq, ?_⟩, hnames⟩
  · rw [h.linked.live_eq]
    exact perm_middle.trans (hl.perm.cons new)
  · have hsorted := hl.sorted
    rw [names_append] at hsorted
    obtain ⟨hxs, hys, hcross⟩ := pairwise_append.mp hsorted
    rw [hnames]
    refine pairwise_append.mpr ⟨hxs, pairwise_cons.mpr ⟨hright, hys⟩, fun a ha b hb => ?_⟩
    rcases mem_cons.mp hb with rfl | hb
    · exact hleft a ha
    · exact hcross a ha b hb

/-- In a list in the order of its names, the names up to one below a name are below it. -/
lemma strcmp_lt_of_getLast {ns : List (List Char)}
    (hsorted : ns.Pairwise fun a b => strcmp a b = .lt)
    (hlast : ∀ n ∈ ns.getLast?, strcmp n name = .lt) : ∀ n ∈ ns, strcmp n name = .lt := by
  induction ns using List.reverseRecOn with
  | nil => exact fun n hn => absurd hn not_mem_nil
  | append_singleton ns m _ =>
    have hm : strcmp m name = .lt := hlast m (by simp)
    intro n hn
    rcases mem_append.mp hn with hn | hn
    · exact Std.TransCmp.lt_trans ((pairwise_append.mp hsorted).2.2 n hn m (by simp)) hm
    · rwa [mem_singleton.mp hn]

lemma interfaceName_newNode (name : IfName) :
    interfaceName (newNode name.chars).value = name.chars :=
  cString_strncpy name.no_zero name.length_lt

variable {l : IfaList}

/-- A call finds the name, or adds a node with the name if there is memory for it. -/
lemma exists_interfaceListAdd (h : WellLinked l chain) (name : IfName) :
    (∃ a ∈ chain, (l.heap.value a).map interfaceName = some name.chars ∧
      ∀ mem, interfaceListAdd l name.chars mem = some (some a, l)) ∨
    name.chars ∉ names l.heap chain ∧ interfaceListAdd l name.chars none = some (none, l) ∧
      (∀ new ∈ l.heap.live, interfaceListAdd l name.chars (some new) = none) ∧
      ∀ new, new ∉ l.heap.live → ∃ l' xs ys, chain = xs ++ ys ∧
        interfaceListAdd l name.chars (some new) = some (some new, l') ∧
        Inserted l l' xs ys new (newNode name.chars).value ∧ WellLinked l' (xs ++ new :: ys) ∧
        names l'.heap (xs ++ new :: ys) = names l.heap xs ++ name.chars :: names l.heap ys := by
  have hfuel : chain.length ≤ l.heap.live.length := Nat.le_of_eq h.perm.length_eq
  have hsegment : Segment l.heap none (chain ++ []) none := by simpa using h.segment
  rcases exists_findPlace name.chars hsegment hfuel with
    ⟨a, ha, hfind, hname⟩ | ⟨xs, ys, rfl, hfind, hgt, hlast⟩
  · refine .inl ⟨a, ha, hname, fun mem => ?_⟩
    rw [interfaceListAdd, h.tail_eq, hfind]
    rfl
  · have hsorted := h.sorted
    rw [names_append] at hsorted
    have hlt := strcmp_lt_of_getLast (pairwise_append.mp hsorted).1 hlast
    rw [← h.tail_eq] at hfind
    refine .inr ⟨fun hmem => ?_, ?_, fun new hnew => ?_, fun new hnew => ?_⟩
    · rw [names_append] at hmem
      have heq : strcmp name.chars name.chars = .eq := Std.ReflCmp.compare_self
      rcases mem_append.mp hmem with hmem | hmem
      · exact absurd (heq.symm.trans (hlt _ hmem)) (by decide)
      · exact absurd (heq.symm.trans (hgt _ hmem)) (by decide)
    · rw [interfaceListAdd, hfind]
      rfl
    · simp only [interfaceListAdd, hfind, bind_some, dif_neg (not_not.mpr hnew)]
    · obtain ⟨l', hlink, hinserted⟩ := exists_link name.chars hnew h
      have hname := interfaceName_newNode name
      obtain ⟨hlinked, hnames⟩ := hinserted.wellLinked h hnew
        (fun n hn => by rw [hname]; exact hlt n hn)
        (fun n hn => by rw [hname]; exact Std.OrientedCmp.lt_of_gt (hgt n hn))
      rw [hname] at hnames
      refine ⟨l', xs, ys, rfl, ?_, hinserted, hlinked, hnames⟩
      simp only [interfaceListAdd, hfind, bind_some, dif_pos hnew, hlink, map_some]

/-- Different nodes have different names. -/
lemma WellLinked.eq_of_name (h : WellLinked l chain) {a b : ℕ} (ha : a ∈ chain) (hb : b ∈ chain)
    (hna : (l.heap.value a).map interfaceName = some name)
    (hnb : (l.heap.value b).map interfaceName = some name) : a = b := by
  have hsorted := h.sorted
  rw [names_eq_filterMap, pairwise_filterMap] at hsorted
  let Differ : ℕ → ℕ → Prop := fun a b => ∀ n,
    (l.heap.value a).map interfaceName = some n → (l.heap.value b).map interfaceName ≠ some n
  have hsymm : Std.Symm Differ := ⟨fun a b hab n hn hn' => hab n hn' hn⟩
  have hdistinct : chain.Pairwise Differ := by
    refine hsorted.imp fun {a b} hlt n hn hn' => ?_
    have hcmp : strcmp n n = .eq := Std.ReflCmp.compare_self
    exact absurd (hcmp.symm.trans (hlt n hn n hn')) (by decide)
  by_contra hne
  exact hdistinct.forall ha hb hne name hna hnb

/-- A call with memory returns a node with the name, and all other nodes are as before. -/
lemma exists_added (h : WellLinked l chain) (name : IfName) (hnew : new ∉ l.heap.live) :
    ∃ ifa l' chain', interfaceListAdd l name.chars (some new) = some (some ifa, l') ∧
      WellLinked l' chain' ∧ ifa ∈ chain' ∧
      (l'.heap.value ifa).map interfaceName = some name.chars ∧
      (∀ n, n ∈ names l'.heap chain' ↔ n = name.chars ∨ n ∈ names l.heap chain) ∧
      ∀ b ∈ chain', b ≠ ifa → b ∈ chain ∧ l'.heap.value b = l.heap.value b := by
  rcases exists_interfaceListAdd h name with ⟨a, ha, hname, hfound⟩ | ⟨-, -, -, hsome⟩
  · refine ⟨a, l, chain, hfound _, h, ha, hname, fun n => ?_, fun b hb _ => ⟨hb, rfl⟩⟩
    refine ⟨.inr, fun hn => ?_⟩
    rcases hn with rfl | hn
    · exact mem_names ha hname
    · exact hn
  · obtain ⟨l', xs, ys, rfl, hadd, hinserted, hlinked, hnames⟩ := hsome new hnew
    refine ⟨new, l', _, hadd, hlinked, by simp, ?_, fun n => ?_, fun b hb hne => ⟨?_, ?_⟩⟩
    · rw [hinserted.value_new, map_some, interfaceName_newNode]
    · rw [hnames, perm_middle.mem_iff, mem_cons, ← names_append]
    · exact (mem_cons.mp (perm_middle.mem_iff.mp hb)).resolve_left hne
    · rw [hinserted.linked.value, if_neg hne]

/-! ### Destroying the list -/

/-- The loop frees the nodes from the last to the first. -/
lemma exists_destroyFrom {heap : Heap Interface} {q : Option ℕ} (h : Segment heap none chain q)
    (hperm : chain.Perm heap.live) (hfuel : chain.length ≤ fuel) :
    ∃ heap', destroyFrom fuel heap chain.getLast? = some (chain.reverse, heap') ∧
      heap'.live = [] := by
  induction chain using List.reverseRecOn generalizing heap q fuel with
  | nil => exact ⟨heap, by simp [destroyFrom], perm_nil.mp hperm.symm⟩
  | append_singleton chain b ih =>
    obtain ⟨hchain, hlast, -⟩ := segment_append.mp h
    obtain ⟨node, hnode, hprev, -⟩ := exists_cell hlast
    obtain ⟨heap₁, hfree, hlive, hlinks⟩ := Heap.exists_free (Heap.mem_live_of_links hlast)
    obtain ⟨fuel, rfl⟩ : ∃ n, fuel = n + 1 := Nat.exists_eq_succ_of_ne_zero (by
      rintro rfl
      simp at hfuel)
    have hnodup := hperm.nodup_iff.mpr heap.nodup
    have hnot : b ∉ chain := fun hb => (nodup_append.mp hnodup).2.2 b hb b (by simp) rfl
    have hsegment : Segment heap₁ none chain (some b) := by
      refine (hchain.congr fun a ha => hlinks a ?_)
      rintro rfl
      exact hnot ha
    have hperm₁ : chain.Perm heap₁.live := by
      rw [hlive]
      have herase := hperm.erase b
      rwa [erase_append_right _ hnot, erase_cons_head, append_nil] at herase
    rw [length_append, length_singleton] at hfuel
    have hle : chain.length ≤ fuel := by omega
    obtain ⟨heap', hloop, hnil⟩ := ih hsegment hperm₁ hle
    refine ⟨heap', ?_, hnil⟩
    rw [or_none] at hprev
    rw [getLast?_concat, destroyFrom, hnode, bind_some, hfree, bind_some,
      hprev, hloop, reverse_append]
    rfl

/-! ### Runs -/

/-- What holds of a list after any calls. -/
structure Structured (s : State) (chain : List ℕ) : Prop where
  head_eq : s.list.head = chain.head?
  tail_eq : s.list.tail = chain.getLast?
  live : chain.Perm s.list.heap.live
  links : ∀ i a, chain[i]? = some a →
    s.list.heap.links a = some (if i = 0 then none else chain[i - 1]?, chain[i + 1]?)
  inverse : ∀ a ∈ chain, ∀ b ∈ chain, (s.list.heap.links a).map Prod.snd = some (some b) ↔
      (s.list.heap.links b).map Prod.fst = some (some a)
  sorted : (names s.list.heap chain).Pairwise fun a b => strcmp a b = .lt
  nodup : (names s.list.heap chain).Nodup
  mem_names : ∀ name, name ∈ names s.list.heap chain ↔ name ∈ s.added
  /-- An added name is found and nothing changes. -/
  existing : ∀ name : IfName, name.chars ∈ s.added → ∃ a ∈ chain,
    (s.list.heap.value a).map interfaceName = some name.chars ∧
      ∀ mem, interfaceListAdd s.list name.chars mem = some (some a, s.list)
  /-- Every call returns, and with memory it returns a node with the name. -/
  returns : ∀ (name : IfName) (mem : Option ℕ), (∀ a ∈ mem, a ∉ s.list.heap.live) →
    ∃ ret l, interfaceListAdd s.list name.chars mem = some (ret, l) ∧
      (mem.isSome → ∃ ifa ∈ ret, (l.heap.value ifa).map interfaceName = some name.chars)
  destroyed : ∃ freed heap, interfaceListDestroy s.list = some (freed, heap) ∧
    freed.Perm s.list.heap.live ∧ freed.Nodup ∧ heap.live = []

/-- Every list reached is well linked and holds the added names. -/
lemma exists_wellLinked {s : State} (h : addMachine.Reaches s) : ∃ chain, WellLinked s.list chain ∧
      ∀ name, name ∈ names s.list.heap chain ↔ name ∈ s.added := by
  induction h with
  | init => exact ⟨[], wellLinked_create, fun name => Iff.rfl⟩
  | @step s s' a _ hstep ih =>
    obtain ⟨name, mem⟩ := a
    obtain ⟨chain, hlinked, hnames⟩ := ih
    obtain ⟨⟨ret, l⟩, hadd, rfl⟩ := map_eq_some_iff.mp hstep
    rcases exists_interfaceListAdd hlinked name with
      ⟨a, ha, hname, hfound⟩ | ⟨-, hnone, hlive, hsome⟩
    · obtain ⟨rfl, rfl⟩ := Prod.mk.inj (some_inj.mp ((hfound mem).symm.trans hadd))
      have hadded := (hnames _).mp (mem_names ha hname)
      refine ⟨chain, hlinked, fun n => ?_⟩
      rw [hnames]
      split_ifs
      · exact ⟨mem_cons_of_mem _, fun hn => (mem_cons.mp hn).elim (· ▸ hadded) id⟩
      · rfl
    · cases mem with
      | none =>
        obtain ⟨rfl, rfl⟩ := Prod.mk.inj (some_inj.mp (hnone.symm.trans hadd))
        exact ⟨chain, hlinked, hnames⟩
      | some new =>
        have hnew : new ∉ s.list.heap.live := fun hmem => by
          rw [hlive new hmem] at hadd
          cases hadd
        obtain ⟨l', xs, ys, rfl, hadd', -, hlinked', hnames'⟩ := hsome new hnew
        obtain ⟨rfl, rfl⟩ := Prod.mk.inj (some_inj.mp (hadd'.symm.trans hadd))
        refine ⟨_, hlinked', fun n => ?_⟩
        rw [hnames', perm_middle.mem_iff, mem_cons, ← names_append, hnames,
          isSome_some, if_pos rfl, mem_cons]

/-- The list of interfaces after any calls. -/
theorem structured_of_reaches {s : State} (h : addMachine.Reaches s) :
    ∃ chain, Structured s chain := by
  obtain ⟨chain, hlinked, hnames⟩ := exists_wellLinked h
  have hnodup : chain.Nodup := hlinked.perm.nodup_iff.mpr s.list.heap.nodup
  obtain ⟨heap, hdestroy, hnil⟩ :=
    exists_destroyFrom hlinked.segment hlinked.perm (Nat.le_of_eq hlinked.perm.length_eq)
  refine ⟨chain, hlinked.head_eq, hlinked.tail_eq, hlinked.perm,
    fun i a ha => hlinked.segment.links_getElem? ha,
    fun a ha b hb => hlinked.segment.next_iff_prev hnodup ha hb, hlinked.sorted, ?_, hnames,
    fun name hname => ?_, fun name mem hmem => ?_, chain.reverse, heap, ?_, ?_,
    chain.reverse_perm.nodup_iff.mpr hnodup, hnil⟩
  · refine hlinked.sorted.imp fun {a b} hab heq => ?_
    have hself : strcmp b b = .eq := Std.ReflCmp.compare_self
    rw [heq, hself] at hab
    cases hab
  · rcases exists_interfaceListAdd hlinked name with hfound | ⟨hnot, -⟩
    · exact hfound
    · exact absurd ((hnames _).mpr hname) hnot
  · cases mem with
    | none =>
      rcases exists_interfaceListAdd hlinked name with ⟨a, -, -, hfound⟩ | ⟨-, hnone, -⟩
      · exact ⟨_, _, hfound none, fun hsome => absurd hsome (by simp)⟩
      · exact ⟨_, _, hnone, fun hsome => absurd hsome (by simp)⟩
    | some new =>
      obtain ⟨ifa, l', -, hadd, -, -, hname, -⟩ := exists_added hlinked name (hmem new rfl)
      exact ⟨_, _, hadd, fun _ => ⟨ifa, rfl, hname⟩⟩
  · rw [interfaceListDestroy, hlinked.tail_eq]
    exact hdestroy
  · exact chain.reverse_perm.trans hlinked.perm

/-- Two interfaces in the other order than that of their names. -/
def twoCalls : List AddCall := [⟨⟨['e', 't', 'h', '0'], by decide, by decide⟩, some 5⟩,
    ⟨⟨['c', 'a', 'n', '0'], by decide, by decide⟩, some 9⟩]

theorem structured_of_reaches_twoCalls :
    ∃ s, addMachine.Reaches s ∧ s.added = [['c', 'a', 'n', '0'], ['e', 't', 'h', '0']] ∧
      ∃ chain, Structured s chain :=
  Machine.exists_reaches_and_of_run twoCalls (by decide) fun _ hs _ => structured_of_reaches hs

end PiksiBuildroot.Libpiksi.InterfaceList
