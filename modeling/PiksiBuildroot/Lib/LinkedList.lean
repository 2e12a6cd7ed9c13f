import Mathlib.Data.List.Basic
import Mathlib.Data.List.Induction
import Mathlib.Logic.Function.Basic

/-!
# Doubly linked lists in a heap

A heap knows which addresses are allocated, so that reading, writing and freeing anything else is an
error (`none`). `Segment heap p chain q` says that the nodes of `chain` are linked in both
directions, with `p` before the first and `q` behind the last.
-/

namespace PiksiBuildroot.Lib.LinkedList

open List Option

/-- A node with its pointers; `none` is `NULL`. -/
structure Node (α : Type*) where
  value : α
  next : Option ℕ
  prev : Option ℕ

/-- The nodes that are allocated. -/
structure Heap (α : Type*) where
  cells : ℕ → Option (Node α)
  live : List ℕ
  mem_live : ∀ a, a ∈ live ↔ (cells a).isSome
  nodup : live.Nodup

variable {α : Type*} {a : ℕ}

namespace Heap

/-- A heap without nodes. -/
def empty : Heap α := ⟨fun _ => none, [], fun a => by simp, nodup_nil⟩

/-- The pointers of a node, first the one to the node before it. -/
def links (heap : Heap α) (a : ℕ) : Option (Option ℕ × Option ℕ) :=
  (heap.cells a).map fun node => (node.prev, node.next)

/-- The value in a node. -/
def value (heap : Heap α) (a : ℕ) : Option α := (heap.cells a).map Node.value

/-- Allocate a node at an address that is free. -/
def alloc (heap : Heap α) (a : ℕ) (node : Node α) (ha : a ∉ heap.live) : Heap α where
  cells := Function.update heap.cells a (some node)
  live := a :: heap.live
  mem_live b := by
    by_cases hb : b = a
    · simp [hb]
    · simp [hb, heap.mem_live]
  nodup := nodup_cons.mpr ⟨ha, heap.nodup⟩

/-- Change a node. -/
def write (heap : Heap α) (a : ℕ) (f : Node α → Node α) : Option (Heap α) :=
  if h : a ∈ heap.live then
    some { heap with
      cells := Function.update heap.cells a ((heap.cells a).map f)
      mem_live b := by
        by_cases hb : b = a
        · simp [hb, heap.mem_live]
        · simp [hb, heap.mem_live] }
  else none

/-- Free a node. -/
def free (heap : Heap α) (a : ℕ) : Option (Heap α) := if a ∈ heap.live then
    some { heap with
      cells := Function.update heap.cells a none
      live := heap.live.erase a
      mem_live b := by
        by_cases hb : b = a
        · simp [hb, heap.nodup.mem_erase_iff]
        · simp [hb, heap.nodup.mem_erase_iff, heap.mem_live]
      nodup := heap.nodup.erase a }
  else none

variable {heap : Heap α}

lemma mem_live_of_links {l : Option ℕ × Option ℕ} (h : heap.links a = some l) : a ∈ heap.live := by
  obtain ⟨node, hnode, -⟩ := map_eq_some_iff.mp h
  rw [heap.mem_live, hnode]
  rfl

section
variable {node : Node α} {ha : a ∉ heap.live}

@[simp] lemma live_alloc : (heap.alloc a node ha).live = a :: heap.live := rfl

lemma links_alloc (b : ℕ) : (heap.alloc a node ha).links b =
      if b = a then some (node.prev, node.next) else heap.links b := by
  unfold links alloc
  by_cases hb : b = a
  · simp [hb]
  · simp [hb]

lemma value_alloc (b : ℕ) :
    (heap.alloc a node ha).value b = if b = a then some node.value else heap.value b := by
  unfold value alloc
  by_cases hb : b = a
  · simp [hb]
  · simp [hb]

end

/-- A write changes the pointers and the value of its node. -/
lemma exists_write (f : Node α → Node α) {g : Option ℕ × Option ℕ → Option ℕ × Option ℕ}
    {v : α → α} (ha : a ∈ heap.live)
    (hg : ∀ node, ((f node).prev, (f node).next) = g (node.prev, node.next))
    (hv : ∀ node, (f node).value = v node.value) :
    ∃ heap', heap.write a f = some heap' ∧ heap'.live = heap.live ∧
      (∀ b, heap'.links b = if b = a then (heap.links b).map g else heap.links b) ∧
      ∀ b, heap'.value b = if b = a then (heap.value b).map v else heap.value b := by
  refine ⟨_, dif_pos ha, rfl, fun b => ?_, fun b => ?_⟩
  · by_cases hb : b = a
    · simp [links, hb, Function.comp_def, hg]
    · simp [links, hb]
  · by_cases hb : b = a
    · simp [value, hb, Function.comp_def, hv]
    · simp [value, hb]

lemma exists_write_next (ha : a ∈ heap.live) (q : Option ℕ) :
    ∃ heap', heap.write a (fun node => { node with next := q }) = some heap' ∧
      heap'.live = heap.live ∧
      (∀ b, heap'.links b = if b = a then (heap.links b).map fun l => (l.1, q) else heap.links b) ∧
      ∀ b, heap'.value b = heap.value b := by
  obtain ⟨heap', hwrite, hlive, hlinks, hvalue⟩ :=
    exists_write (g := fun l => (l.1, q)) (v := id) (fun node => { node with next := q }) ha
      (fun _ => rfl) fun _ => rfl
  exact ⟨heap', hwrite, hlive, hlinks, fun b => by simp [hvalue]⟩

lemma exists_write_prev (ha : a ∈ heap.live) (p : Option ℕ) :
    ∃ heap', heap.write a (fun node => { node with prev := p }) = some heap' ∧
      heap'.live = heap.live ∧
      (∀ b, heap'.links b = if b = a then (heap.links b).map fun l => (p, l.2) else heap.links b) ∧
      ∀ b, heap'.value b = heap.value b := by
  obtain ⟨heap', hwrite, hlive, hlinks, hvalue⟩ :=
    exists_write (g := fun l => (p, l.2)) (v := id) (fun node => { node with prev := p }) ha
      (fun _ => rfl) fun _ => rfl
  exact ⟨heap', hwrite, hlive, hlinks, fun b => by simp [hvalue]⟩

lemma exists_write_value (ha : a ∈ heap.live) (v : α → α) :
    ∃ heap', heap.write a (fun node => { node with value := v node.value }) = some heap' ∧
      heap'.live = heap.live ∧ (∀ b, heap'.links b = heap.links b) ∧
      ∀ b, heap'.value b = if b = a then (heap.value b).map v else heap.value b := by
  obtain ⟨heap', hwrite, hlive, hlinks, hvalue⟩ :=
    exists_write (g := id) (v := v) (fun node => { node with value := v node.value }) ha
      (fun _ => rfl) fun _ => rfl
  exact ⟨heap', hwrite, hlive, fun b => by simp [hlinks], hvalue⟩

lemma exists_free (ha : a ∈ heap.live) :
    ∃ heap', heap.free a = some heap' ∧ heap'.live = heap.live.erase a ∧
      ∀ b, b ≠ a → heap'.links b = heap.links b := by
  refine ⟨_, if_pos ha, rfl, fun b hb => ?_⟩
  simp [links, hb]

end Heap

/-- A new node was linked in between two others, or at an end. -/
structure LinkedIn (heap heap' : Heap α) (left : Option ℕ) (new : ℕ) (right : Option ℕ) (v : α) :
    Prop where
  live_eq : heap'.live = new :: heap.live
  links : ∀ a, heap'.links a = if a = new then some (left, right)
    else if left = some a then (heap.links a).map fun l => (l.1, some new)
    else if right = some a then (heap.links a).map fun l => (some new, l.2)
    else heap.links a
  value : ∀ a, heap'.value a = if a = new then some v else heap.value a

/-- The nodes of a chain are linked, with `p` before and `q` behind them. -/
def Segment (heap : Heap α) : Option ℕ → List ℕ → Option ℕ → Prop
  | _, [], _ => True
  | p, a :: chain, q => heap.links a = some (p, chain.head?.or q) ∧ Segment heap (some a) chain q

section
variable {heap heap' : Heap α} {xs ys : List ℕ} {chain : List ℕ}

lemma segment_append {p q : Option ℕ} : Segment heap p (xs ++ ys) q ↔
      Segment heap p xs (ys.head?.or q) ∧ Segment heap (xs.getLast?.or p) ys q := by
  induction xs generalizing p with
  | nil => simp [Segment]
  | cons a xs ih =>
    have hhead : (xs ++ ys).head?.or q = xs.head?.or (ys.head?.or q) := by
      rw [List.head?_append, Option.or_assoc]
    have hlast : (a :: xs).getLast?.or p = xs.getLast?.or (some a) := by
      rw [getLast?_cons]
      cases xs.getLast? <;> rfl
    rw [cons_append, Segment, Segment, ih, hhead, hlast, and_assoc]

/-- Only the pointers of the nodes matter. -/
lemma Segment.congr {p q : Option ℕ} (h : Segment heap p chain q)
    (hlinks : ∀ a ∈ chain, heap'.links a = heap.links a) : Segment heap' p chain q := by
  induction chain generalizing p with
  | nil => trivial
  | cons a chain ih =>
    refine ⟨(hlinks a mem_cons_self).trans h.1, ih h.2 fun b hb => ?_⟩
    exact hlinks b (mem_cons_of_mem a hb)

/-- The pointers of a node lead to its neighbours. -/
theorem Segment.links_mid (h : Segment heap none (xs ++ a :: ys) none) :
    heap.links a = some (xs.getLast?, ys.head?) := by
  have hmid := (segment_append.mp h).2.1
  rwa [or_none, or_none] at hmid

/-- The pointers of the node at a position lead to the positions next to it. -/
lemma Segment.links_getElem? (h : Segment heap none chain none) {i a : ℕ}
    (ha : chain[i]? = some a) :
    heap.links a = some (if i = 0 then none else chain[i - 1]?, chain[i + 1]?) := by
  obtain ⟨hi, rfl⟩ := List.getElem?_eq_some_iff.mp ha
  have hsplit : chain = chain.take i ++ chain[i] :: chain.drop (i + 1) := by
    rw [getElem_cons_drop, take_append_drop]
  rw [hsplit] at h
  have hmid := h.links_mid
  rw [head?_drop, getLast?_take] at hmid
  rw [hmid]
  by_cases hzero : i = 0
  · simp [hzero]
  · rw [if_neg hzero, if_neg hzero, getElem?_eq_getElem (by omega), some_or]

/-- In a list without repetitions the pointers in the two directions are inverse. -/
lemma Segment.next_iff_prev (h : Segment heap none chain none) (hnodup : chain.Nodup) {a b : ℕ}
    (ha : a ∈ chain) (hb : b ∈ chain) :
    (heap.links a).map Prod.snd = some (some b) ↔ (heap.links b).map Prod.fst = some (some a) := by
  obtain ⟨i, hi⟩ := mem_iff_getElem?.mp ha
  obtain ⟨j, hj⟩ := mem_iff_getElem?.mp hb
  have hinj : ∀ k c : ℕ, chain[k]? = some c → ∀ m : ℕ, chain[m]? = some c → k = m := by
    intro k c hk m hm
    obtain ⟨hlt, -⟩ := List.getElem?_eq_some_iff.mp hk
    exact (getElem?_inj hlt hnodup).mp (hk.trans hm.symm)
  rw [h.links_getElem? hi, h.links_getElem? hj, map_some, map_some, some_inj, some_inj]
  constructor
  · intro hnext
    obtain rfl := hinj _ _ hnext _ hj
    rw [if_neg (Nat.succ_ne_zero i), Nat.add_sub_cancel, hi]
  · intro hprev
    by_cases hzero : j = 0
    · simp [hzero] at hprev
    · rw [if_neg hzero] at hprev
      have hij := hinj _ _ hi _ hprev
      rw [hij, Nat.sub_add_cancel (Nat.one_le_iff_ne_zero.mpr hzero), hj]

/-- The first node gets another node before it. -/
lemma Segment.setPrev {p p' q : Option ℕ} (h : Segment heap p (a :: chain) q)
    (ha : heap'.links a = (heap.links a).map fun l => (p', l.2))
    (hlinks : ∀ b ∈ chain, heap'.links b = heap.links b) : Segment heap' p' (a :: chain) q := by
  refine ⟨?_, h.2.congr hlinks⟩
  rw [ha, h.1]
  rfl

/-- The last node gets another node behind it. -/
lemma Segment.setNext {p q q' : Option ℕ} (h : Segment heap p (chain ++ [a]) q)
    (ha : heap'.links a = (heap.links a).map fun l => (l.1, q'))
    (hlinks : ∀ b ∈ chain, heap'.links b = heap.links b) : Segment heap' p (chain ++ [a]) q' := by
  obtain ⟨hchain, hlast, -⟩ := segment_append.mp h
  refine segment_append.mpr ⟨hchain.congr hlinks, ?_, trivial⟩
  rw [ha, hlast]
  rfl

/-- A node is linked in between the nodes `xs` and the nodes `ys`. -/
theorem Segment.insert {v : α} (h : Segment heap none (xs ++ ys) none) (hnodup : (xs ++ ys).Nodup)
    (ha : a ∉ xs ++ ys) (hin : LinkedIn heap heap' xs.getLast? a ys.head? v) :
    Segment heap' none (xs ++ a :: ys) none := by
  obtain ⟨hxs, hys⟩ := segment_append.mp h
  obtain ⟨hnodupxs, hnodupys, hdisj⟩ := nodup_append.mp hnodup
  have hne : ∀ c ∈ xs ++ ys, c ≠ a := fun c hc => ne_of_mem_of_not_mem hc ha
  have hother : ∀ c ∈ xs ++ ys, xs.getLast? ≠ some c → ys.head? ≠ some c →
      heap'.links c = heap.links c := fun c hc hleft hright => by
    rw [hin.links, if_neg (hne c hc), if_neg hleft, if_neg hright]
  refine segment_append.mpr ⟨?_, ?_, ?_⟩
  · -- the last node of `xs` now leads to the new node
    induction xs using List.reverseRecOn with
    | nil => trivial
    | append_singleton xs b _ =>
      refine hxs.setNext ?_ fun c hc => ?_
      · rw [hin.links, if_neg (hne b (by simp)), if_pos (by simp)]
        rfl
      · have hcb : b ≠ c := fun heq =>
          (nodup_append.mp hnodupxs).2.2 c hc b (by simp) heq.symm
        refine hother c (by simp [hc]) (by simpa using hcb) fun hhead => ?_
        exact hdisj c (by simp [hc]) c (mem_of_mem_head? hhead) rfl
  · rw [hin.links, if_pos rfl]
    simp
  · -- the first node of `ys` now leads back to it
    cases ys with
    | nil => trivial
    | cons b ys =>
      have hlast : ∀ c ∈ b :: ys, xs.getLast? ≠ some c := fun c hc hlast =>
        hdisj c (mem_of_getLast? hlast) c hc rfl
      refine hys.setPrev ?_ fun c hc => ?_
      · rw [hin.links, if_neg (hne b (by simp)), if_neg (hlast b (by simp)), if_pos head?_cons]
      · have hcb : b ≠ c := fun heq => (nodup_cons.mp hnodupys).1 (heq ▸ hc)
        exact hother c (by simp [hc]) (hlast c (by simp [hc])) (by simpa using hcb)

end

end PiksiBuildroot.Lib.LinkedList
