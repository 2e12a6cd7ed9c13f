import Mathlib.Data.Set.Insert
import PiksiBuildroot.Lib.Machine

/-!
# Threads that share a table of descriptors

The threads of a process open and close descriptors, each call in one step. `open` takes the lowest
number that is free; a thread keeps the number under a name, also after it has closed it, and
closes by number. So a close can hit the descriptor of another thread, if the number was closed
before and taken again. Whether it does depends only on the calls of its own thread, as long as the
closes before it did not (`liveAfter`, `forall_closeOk_iff`).
-/

namespace PiksiBuildroot.Lib.Descriptors

open Function List

/-- Open a descriptor under a name, or close the number that is kept under a name. -/
inductive Call (ν : Type*) where
  | openFd (x : ν)
  | closeFd (x : ν)
deriving DecidableEq

/-- What a number refers to. -/
inductive Entry (τ ν : Type*) where
  | free
  | foreign
  | own (t : τ) (x : ν)
deriving DecidableEq

variable {τ ν : Type*}

def Entry.isFree : Entry τ ν → Bool
  | .free => true
  | _ => false

/-! ### The table -/

/-- What a number refers to in a table. -/
def entryAt (table : List (Entry τ ν)) (n : Nat) : Entry τ ν := table[n]?.getD .free

/-- The lowest number that is free. -/
def lowestFree (table : List (Entry τ ν)) : Nat := table.findIdx Entry.isFree

/-- Put an entry at a number, at most behind the last one. -/
def put (table : List (Entry τ ν)) (n : Nat) (e : Entry τ ν) : List (Entry τ ν) :=
  if n < table.length then table.set n e else table ++ [e]

lemma entryAt_lowestFree (table : List (Entry τ ν)) : entryAt table (lowestFree table) = .free := by
  unfold entryAt
  rcases Nat.lt_or_ge (lowestFree table) table.length with hlt | hge
  · have hfree : (table.get ⟨lowestFree table, hlt⟩).isFree = true := findIdx_getElem (w := hlt)
    rw [getElem?_eq_getElem hlt]
    cases hentry : table.get ⟨lowestFree table, hlt⟩ with
    | free => exact hentry
    | foreign | own t x => exact absurd (hentry ▸ hfree) (by simp [Entry.isFree])
  · rw [getElem?_eq_none hge]
    rfl

lemma entryAt_put {table : List (Entry τ ν)} {n : Nat} (hn : n ≤ table.length) (e : Entry τ ν)
    (m : Nat) : entryAt (put table n e) m = if m = n then e else entryAt table m := by
  unfold entryAt put
  split_ifs with hlt hm hm
  · rw [hm, getElem?_set_self hlt]
    rfl
  · rw [getElem?_set_ne (Ne.symm hm)]
  · obtain rfl : n = table.length := by omega
    rw [hm, getElem?_concat_length]
    rfl
  · obtain rfl : n = table.length := by omega
    rcases Nat.lt_or_gt_of_ne hm with hm | hm
    · rw [getElem?_append_left hm]
    · rw [getElem?_eq_none (by simp; omega), getElem?_eq_none (by omega)]

lemma entryAt_set_free (table : List (Entry τ ν)) (n m : Nat) :
    entryAt (table.set n .free) m = if m = n then .free else entryAt table m := by
  unfold entryAt
  split_ifs with hm
  · subst hm
    rcases Nat.lt_or_ge m table.length with hlt | hge
    · rw [getElem?_set_self hlt]
      rfl
    · rw [getElem?_eq_none (by simpa using hge)]
      rfl
  · rw [getElem?_set_ne (Ne.symm hm)]

/-! ### Threads -/

/-- The table, the number that each thread keeps under a name, and the calls still to come. -/
structure State (τ ν : Type*) where
  table : List (Entry τ ν)
  number : τ × ν → Option Nat
  pending : τ → List (Call ν)

section
variable [DecidableEq τ] [DecidableEq ν]

/-- The next call of a thread. Nothing is closed under a name without a number. -/
def step (s : State τ ν) (t : τ) : Option (State τ ν) := match s.pending t with
  | [] => none
  | .openFd x :: rest =>
    some {
      table := put s.table (lowestFree s.table) (.own t x)
      number := Function.update s.number (t, x) (some (lowestFree s.table))
      pending := Function.update s.pending t rest }
  | .closeFd x :: rest =>
    some { s with
      table := match s.number (t, x) with
        | none => s.table
        | some n => s.table.set n .free
      pending := Function.update s.pending t rest }

/-- The threads with their programs. -/
def machine (table : List (Entry τ ν)) (program : τ → List (Call ν)) : Machine (State τ ν) τ where
  init := ⟨table, fun _ => none, program⟩
  step := step

end

/-- The number that a thread keeps under a name refers to what it opened under the name. -/
def Refers (s : State τ ν) (t : τ) (x : ν) : Prop :=
  ∃ n, s.number (t, x) = some n ∧ entryAt s.table n = .own t x

/-- If the next call of a thread is a close, it closes what the thread opened. -/
def CloseOk (s : State τ ν) (t : τ) : Prop :=
  ∀ x rest, s.pending t = .closeFd x :: rest → Refers s t x

/-! ### Discipline -/

/-- The names that are open after some calls. -/
def liveAfter (live : Set ν) : List (Call ν) → Set ν
  | [] => live
  | .openFd x :: calls => liveAfter (insert x live) calls
  | .closeFd x :: calls => liveAfter (live \ {x}) calls

/-- Only names that are open are closed. -/
def Disciplined (live : Set ν) : List (Call ν) → Prop
  | [] => True
  | .openFd x :: calls => Disciplined (insert x live) calls
  | .closeFd x :: calls => x ∈ live ∧ Disciplined (live \ {x}) calls

section
variable (live : Set ν)

lemma liveAfter_append (a b : List (Call ν)) :
    liveAfter live (a ++ b) = liveAfter (liveAfter live a) b := by
  induction a generalizing live with
  | nil => rfl
  | cons call a ih =>
    cases call with
    | openFd x => exact ih (insert x live)
    | closeFd x => exact ih (live \ {x})

lemma disciplined_append (a b : List (Call ν)) :
    Disciplined live (a ++ b) ↔ Disciplined live a ∧ Disciplined (liveAfter live a) b := by
  induction a generalizing live with
  | nil => exact (iff_of_eq (true_and _)).symm
  | cons call a ih =>
    cases call with
    | openFd x => exact ih (insert x live)
    | closeFd x => exact (and_congr_right fun _ => ih (live \ {x})).trans and_assoc.symm

lemma disciplined_cons (call : Call ν) (rest : List (Call ν)) : Disciplined live (call :: rest) ↔
      Disciplined live [call] ∧ Disciplined (liveAfter live [call]) rest :=
  disciplined_append live [call] rest

lemma disciplined_map_open (xs : List ν) : Disciplined live (xs.map .openFd) := by
  induction xs generalizing live with
  | nil => trivial
  | cons x xs ih => exact ih (insert x live)

lemma liveAfter_map_open (xs : List ν) :
    liveAfter live (xs.map .openFd) = live ∪ { x | x ∈ xs } := by
  induction xs generalizing live with
  | nil => simp [liveAfter]
  | cons x xs ih =>
    rw [map_cons, liveAfter, ih]
    ext y
    simp only [Set.mem_union, Set.mem_insert_iff, Set.mem_ofPred_eq, mem_cons]
    tauto

lemma liveAfter_map_close (xs : List ν) :
    liveAfter live (xs.map .closeFd) = live \ { x | x ∈ xs } := by
  induction xs generalizing live with
  | nil =>
    ext y
    simp [liveAfter]
  | cons x xs ih =>
    rw [map_cons, liveAfter, ih]
    ext y
    simp only [Set.mem_sdiff, Set.mem_singleton_iff, Set.mem_ofPred_eq, mem_cons]
    tauto

lemma disciplined_map_close {xs : List ν} (hxs : xs.Nodup) :
    Disciplined live (xs.map .closeFd) ↔ ∀ x ∈ xs, x ∈ live := by
  induction xs generalizing live with
  | nil => simp [Disciplined]
  | cons x xs ih =>
    obtain ⟨hx, hxs⟩ := nodup_cons.mp hxs
    rw [map_cons, Disciplined, ih _ hxs, forall_mem_cons]
    refine and_congr_right fun _ => forall₂_congr fun y hy => ?_
    have hne : y ≠ x := fun heq => hx (heq ▸ hy)
    simp [hne]

end

/-- Calls that lead from some open names to others, disciplined exactly under a condition. -/
structure Leads (live : Set ν) (calls : List (Call ν)) (ok : Prop) (live' : Set ν) : Prop where
  disciplined_iff : Disciplined live calls ↔ ok
  live_eq : liveAfter live calls = live'

lemma leads_true_iff {live live' : Set ν} {calls : List (Call ν)} :
    Leads live calls True live' ↔ Disciplined live calls ∧ liveAfter live calls = live' :=
  ⟨fun h => ⟨h.1.mpr trivial, h.2⟩, fun h => ⟨iff_of_true h.1 trivial, h.2⟩⟩

lemma Leads.append {live live' live'' : Set ν} {a b : List (Call ν)} {p q : Prop}
    (h : Leads live a p live') (h' : Leads live' b q live'') :
    Leads live (a ++ b) (p ∧ q) live'' := by
  refine ⟨?_, ?_⟩
  · rw [disciplined_append, h.live_eq, h.disciplined_iff, h'.disciplined_iff]
  · rw [liveAfter_append, h.live_eq, h'.live_eq]

/-! ### Runs -/

section
variable [DecidableEq τ] [DecidableEq ν] {s s' : State τ ν} {t : τ} {x : ν} {rest : List (Call ν)}

lemma step_open (h : s.pending t = .openFd x :: rest) : step s t = some {
      table := put s.table (lowestFree s.table) (.own t x)
      number := update s.number (t, x) (some (lowestFree s.table))
      pending := update s.pending t rest } := by
  rw [step, h]

lemma step_close {n : Nat} (h : s.pending t = .closeFd x :: rest) (hn : s.number (t, x) = some n) :
    step s t = some { s with
      table := s.table.set n .free
      pending := update s.pending t rest } := by
  rw [step, h]
  dsimp only
  rw [hn]

/-- An open makes its own name refer, and leaves the others. -/
lemma refers_open (h : s.pending t = .openFd x :: rest) (hstep : step s t = some s') (t' : τ)
    (y : ν) : Refers s' t' y ↔ (t' = t ∧ y = x) ∨ Refers s t' y := by
  rw [step_open h] at hstep
  cases hstep
  have hle : lowestFree s.table ≤ s.table.length := findIdx_le_length
  have hfree := entryAt_lowestFree s.table
  unfold Refers
  by_cases hname : (t', y) = (t, x)
  · cases hname
    refine iff_of_true ⟨lowestFree s.table, update_self _ _ _, ?_⟩ (.inl ⟨rfl, rfl⟩)
    rw [entryAt_put hle, if_pos rfl]
  · have hne : ¬(t' = t ∧ y = x) := fun heq => hname (Prod.ext heq.1 heq.2)
    rw [or_iff_right hne]
    dsimp only
    rw [update_of_ne hname]
    refine exists_congr fun n => and_congr_right fun _ => ?_
    rw [entryAt_put hle]
    split_ifs with hn
    · -- the number was free, and is now another name's
      rw [hn, hfree]
      refine iff_of_false (fun heq => hne ?_) (by simp)
      obtain ⟨rfl, rfl⟩ := Entry.own.inj heq
      exact ⟨rfl, rfl⟩
    · rfl

/-- A close of what was opened under the name ends that, and leaves the others. -/
lemma refers_close (h : s.pending t = .closeFd x :: rest) (hx : Refers s t x)
    (hstep : step s t = some s') (t' : τ) (y : ν) :
    Refers s' t' y ↔ ¬(t' = t ∧ y = x) ∧ Refers s t' y := by
  obtain ⟨n, hn, hentry⟩ := hx
  rw [step_close h hn] at hstep
  cases hstep
  unfold Refers
  constructor
  · rintro ⟨m, hm, hm'⟩
    rw [entryAt_set_free] at hm'
    split_ifs at hm' with heq
    refine ⟨?_, m, hm, hm'⟩
    rintro ⟨rfl, rfl⟩
    exact heq (Option.some.inj (hm.symm.trans hn))
  · rintro ⟨hne, m, hm, hm'⟩
    refine ⟨m, hm, ?_⟩
    rw [entryAt_set_free, if_neg, hm']
    rintro rfl
    -- the number refers to one name only
    obtain ⟨rfl, rfl⟩ := Entry.own.inj (hm'.symm.trans hentry)
    exact hne ⟨rfl, rfl⟩

lemma pending_of_step {call : Call ν} (h : s.pending t = call :: rest)
    (hstep : step s t = some s') : s'.pending = update s.pending t rest := by
  rw [step, h] at hstep
  cases call with
  | openFd x | closeFd x => exact Option.some.inj hstep ▸ rfl

/-- The names that refer are those that are open. -/
def Tracks (s : State τ ν) (t : τ) (live : Set ν) : Prop := ∀ x, Refers s t x ↔ x ∈ live

/-- The names of all threads after a call of one of them. -/
lemma exists_tracks_of_step {live : τ → Set ν} (h : ∀ t', Tracks s t' (live t'))
    (hok : CloseOk s t) (hstep : step s t = some s') :
    ∃ call rest, s.pending t = call :: rest ∧ s'.pending = update s.pending t rest ∧
      ∀ t', Tracks s' t' (update live t (liveAfter (live t) [call]) t') := by
  cases hpending : s.pending t with
  | nil =>
    rw [step, hpending] at hstep
    cases hstep
  | cons call rest =>
    refine ⟨call, rest, rfl, pending_of_step hpending hstep, fun t' y => ?_⟩
    cases call with
    | openFd x =>
      rw [refers_open hpending hstep, h t' y]
      by_cases ht : t' = t
      · subst ht
        simp [liveAfter]
      · simp [ht]
    | closeFd x =>
      rw [refers_close hpending (hok x rest hpending) hstep, h t' y]
      by_cases ht : t' = t
      · subst ht
        simp [liveAfter, and_comm]
      · simp [ht]

variable {table : List (Entry τ ν)} {program : τ → List (Call ν)}

lemma tracks_init (t : τ) : Tracks (machine table program).init t ∅ := by
  intro x
  refine iff_of_false ?_ (Set.notMem_empty x)
  rintro ⟨n, hn, -⟩
  exact absurd hn (by simp [machine])

/-- What all threads keep up while they run. -/
lemma exists_disciplined_of_reaches (h : ∀ t, Disciplined ∅ (program t))
    (hs : (machine table program).Reaches s) :
    ∃ live : τ → Set ν, ∀ t, Tracks s t (live t) ∧ Disciplined (live t) (s.pending t) := by
  induction hs with
  | init => exact ⟨fun _ => ∅, fun t => ⟨tracks_init t, h t⟩⟩
  | @step s s' t hs hstep ih =>
    obtain ⟨live, hlive⟩ := ih
    have hok : CloseOk s t := by
      intro x rest hpending
      have hx := (hlive t).2
      rw [hpending] at hx
      exact ((hlive t).1 x).mpr hx.1
    obtain ⟨call, rest, hpending, hpending', htracks⟩ :=
      exists_tracks_of_step (fun t' => (hlive t').1) hok hstep
    refine ⟨_, fun t' => ⟨htracks t', ?_⟩⟩
    rw [hpending']
    by_cases ht : t' = t
    · subst ht
      have hx := (hlive t').2
      rw [hpending] at hx
      rw [update_self, update_self]
      exact ((disciplined_cons _ _ _).mp hx).2
    · rw [update_of_ne ht, update_of_ne ht]
      exact (hlive t').2

lemma closeOk_of_disciplined (h : ∀ t, Disciplined ∅ (program t))
    (hs : (machine table program).Reaches s) (t : τ) : CloseOk s t := by
  obtain ⟨live, hlive⟩ := exists_disciplined_of_reaches h hs
  intro x rest hpending
  have hx := (hlive t).2
  rw [hpending] at hx
  exact ((hlive t).1 x).mpr hx.1

/-- A thread that runs alone from a state that is reached, and whose closes are all right. -/
lemma disciplined_of_closeOk (h : ∀ s, (machine table program).Reaches s → CloseOk s t)
    {live : τ → Set ν} (hs : (machine table program).Reaches s)
    (hlive : ∀ t', Tracks s t' (live t')) : Disciplined (live t) (s.pending t) := by
  induction hpending : s.pending t generalizing s live with
  | nil => trivial
  | cons call rest ih =>
    obtain ⟨s', hstep⟩ : ∃ s', step s t = some s' := by
      rw [step, hpending]
      cases call with
      | openFd x | closeFd x => exact ⟨_, rfl⟩
    obtain ⟨call', rest', heq, hpending', htracks⟩ := exists_tracks_of_step hlive (h s hs) hstep
    obtain ⟨rfl, rfl⟩ := cons.inj (hpending.symm.trans heq)
    have hrest : s'.pending t = rest := by rw [hpending', update_self]
    have hlast := ih (.step hs hstep) htracks hrest
    rw [update_self] at hlast
    refine (disciplined_cons _ _ _).mpr ⟨?_, hlast⟩
    cases call with
    | openFd x => trivial
    | closeFd x => exact ⟨(hlive t x).mp (h s hs x rest hpending), trivial⟩

/-- Beside disciplined threads, all closes of a thread are of its own descriptors in all
interleavings exactly if it is disciplined. -/
theorem forall_closeOk_iff (h : ∀ t', t' ≠ t → Disciplined ∅ (program t')) :
    (∀ s, (machine table program).Reaches s → CloseOk s t) ↔ Disciplined ∅ (program t) := by
  constructor
  · intro hok
    exact disciplined_of_closeOk hok .init tracks_init
  · intro ht s hs
    refine closeOk_of_disciplined (fun t' => ?_) hs t
    by_cases heq : t' = t
    · exact heq ▸ ht
    · exact h t' heq

end

end PiksiBuildroot.Lib.Descriptors
