import Mathlib.Data.List.Nodup

/-!
# A table of child processes

A program that keeps one child process per slot stores the result of each `fork` in the slot's pid,
with zero for a slot that has no process. The table keeps these pids together with the history of
what was forked, what is known to have exited and what was signalled, newest first. `OnlyChildren`
says that every signal of the history went to a child of its slot at that time.

The functions of the program are trees of atomic instructions (`Code`), because the handler that
records exits runs between any two of them. A `Thread` executes them; the pid at hand is the one
that was last read or forked, until it is used. The rules `Thread.Inv.next`, `.exit` and `.call`
keep the invariant of a thread, as long as no failed fork is read and no exit is recorded for the
pid at hand.
-/

namespace PiksiBuildroot.Lib

/-- What happened to a process: a fork for a slot with its result, an exit that was recorded, a
signal sent for a slot. -/
inductive ProcessEvent (ι σ : Type*)
  | forked (slot : ι) (result : Int)
  | exited (pid : Int)
  | killed (slot : ι) (pid : Int) (signal : σ)
  deriving DecidableEq

/-- The pid of each slot, and what happened so far, newest first. -/
structure ProcessTable (ι σ : Type*) where
  pid : ι → Int
  history : List (ProcessEvent ι σ)

namespace ProcessTable

variable {ι σ : Type*}

/-- The pid was returned by a fork for the slot and has not been recorded as exited since. -/
def Child : List (ProcessEvent ι σ) → ι → Int → Prop
  | [], _, _ => False
  | .forked s result :: older, slot, pid => (s = slot ∧ result = pid) ∨ Child older slot pid
  | .exited p :: older, slot, pid => p ≠ pid ∧ Child older slot pid
  | .killed _ _ _ :: older, slot, pid => Child older slot pid

/-- Every signal went to a process that was a child of its slot at that time. -/
def OnlyChildren : List (ProcessEvent ι σ) → Prop
  | [] => True
  | .killed slot pid _ :: older => (0 < pid ∧ Child older slot pid) ∧ OnlyChildren older
  | .forked _ _ :: older => OnlyChildren older
  | .exited _ :: older => OnlyChildren older

/-- The results of forks that have not been recorded as exited. -/
def unreaped : List (ProcessEvent ι σ) → List Int
  | [] => []
  | .forked _ result :: older => result :: unreaped older
  | .exited pid :: older => (unreaped older).filter (· ≠ pid)
  | .killed _ _ _ :: older => unreaped older

variable {slot : ι} {pid : Int} {history : List (ProcessEvent ι σ)}

lemma Child.mem_unreaped (h : Child history slot pid) : pid ∈ unreaped history := by
  induction history with
  | nil => exact h.elim
  | cons event older ih =>
    cases event with
    | forked s result =>
      rcases h with ⟨-, hresult⟩ | h
      · exact hresult ▸ List.mem_cons_self
      · exact List.mem_cons_of_mem _ (ih h)
    | exited p =>
      refine List.mem_filter.mpr ⟨ih h.2, ?_⟩
      simpa using h.1.symm
    | killed s p signal => exact ih h

/-- A signal to a pid that is not positive is not one to a child. -/
lemma not_onlyChildren_of_head {signal : σ} (h : history.head? = some (.killed slot pid signal))
    (hpid : ¬ 0 < pid) : ¬ OnlyChildren history := by
  obtain ⟨older, rfl⟩ := List.head?_eq_some_iff.mp h
  exact fun hown => hpid hown.1.1

/-! ### Operations -/

section operations

variable [DecidableEq ι]

/-- Forget the process of a slot. -/
def clear (t : ProcessTable ι σ) (slot : ι) : ProcessTable ι σ :=
  { t with pid := Function.update t.pid slot 0 }

/-- Put a pid into a slot. -/
def store (t : ProcessTable ι σ) (slot : ι) (pid : Int) : ProcessTable ι σ :=
  { t with pid := Function.update t.pid slot pid }

/-- What `fork` may return: `-1`, or a positive pid that is not that of a child that has not been
waited for. -/
def Forks (t : ProcessTable ι σ) (result : Int) : Prop :=
  result = -1 ∨ (0 < result ∧ result ∉ unreaped t.history)

instance (t : ProcessTable ι σ) (result : Int) : Decidable (t.Forks result) :=
  inferInstanceAs (Decidable (_ ∨ _))

/-- Another event. -/
def log (t : ProcessTable ι σ) (event : ProcessEvent ι σ) : ProcessTable ι σ :=
  { t with history := event :: t.history }

/-- Record an exit: the first of the slots that holds the pid is cleared. -/
def recordExit (order : List ι) (t : ProcessTable ι σ) (pid : Int) : ProcessTable ι σ :=
  match order.find? fun slot => decide (t.pid slot ≠ 0 ∧ t.pid slot = pid) with
  | some slot => (t.log (.exited pid)).clear slot
  | none => t.log (.exited pid)

end operations

/-! ### The invariant -/

/-- What a slot holds is zero, the result of a failed fork, or a child of the slot, and no two
slots hold the same child. -/
structure Sound (t : ProcessTable ι σ) : Prop where
  range : ∀ slot, t.pid slot = -1 ∨ 0 ≤ t.pid slot
  child : ∀ slot, 0 < t.pid slot → Child t.history slot (t.pid slot)
  apart : ∀ slot slot', 0 < t.pid slot → t.pid slot = t.pid slot' → slot = slot'
  own : OnlyChildren t.history

variable {t : ProcessTable ι σ}

/-- No process was ever forked. -/
lemma sound_empty : Sound ({ pid := fun _ => 0, history := [] } : ProcessTable ι σ) where
  range _ := .inr (Int.le_refl 0)
  child _ hpos := absurd hpos (Int.lt_irrefl 0)
  apart _ _ hpos := absurd hpos (Int.lt_irrefl 0)
  own := trivial

/-- A signal to a child. -/
lemma sound_killed (h : Sound t) (hpos : 0 < pid) (hchild : Child t.history slot pid) (signal : σ) :
    Sound (t.log (.killed slot pid signal)) where
  range := h.range
  child := h.child
  apart := h.apart
  own := ⟨⟨hpos, hchild⟩, h.own⟩

/-- A fork whose result is not yet stored. -/
lemma sound_forked (h : Sound t) (slot : ι) (result : Int) :
    Sound (t.log (.forked slot result)) where
  range := h.range
  child j hpos := .inr (h.child j hpos)
  apart := h.apart
  own := h.own

/-! ### What the operations keep -/

variable [DecidableEq ι] {j : ι} {order : List ι}

lemma clear_pid_of_ne (t : ProcessTable ι σ) (hj : j ≠ slot) : (t.clear slot).pid j = t.pid j := by
  simp [clear, hj]

lemma clear_pid (t : ProcessTable ι σ) (slot j : ι) :
    (t.clear slot).pid j = t.pid j ∨ (t.clear slot).pid j = 0 := by
  by_cases hj : j = slot
  · exact .inr (by simp [clear, hj])
  · exact .inl (clear_pid_of_ne t hj)

lemma clear_pid_of_pos (hpos : 0 < (t.clear slot).pid j) :
    j ≠ slot ∧ (t.clear slot).pid j = t.pid j := by
  have hj : j ≠ slot := by
    rintro rfl
    simp [clear] at hpos
  exact ⟨hj, clear_pid_of_ne t hj⟩

lemma sound_clear (h : Sound t) (slot : ι) : Sound (t.clear slot) where
  range j := by
    rcases clear_pid t slot j with hj | hj <;> rw [hj]
    · exact h.range j
    · exact .inr (Int.le_refl 0)
  child j hpos := by
    obtain ⟨-, hj⟩ := clear_pid_of_pos hpos
    rw [hj] at hpos ⊢
    exact h.child j hpos
  apart j j' hpos heq := by
    obtain ⟨-, hj⟩ := clear_pid_of_pos hpos
    obtain ⟨-, hj'⟩ := clear_pid_of_pos (heq ▸ hpos)
    rw [hj] at hpos
    rw [hj, hj'] at heq
    exact h.apart j j' hpos heq
  own := h.own

/-- A slot may be given the result of a failed fork, or a child that no slot holds. -/
lemma sound_store (h : Sound t) (hpid : pid = -1 ∨
    (0 < pid ∧ Child t.history slot pid ∧ ∀ j, t.pid j ≠ pid)) : Sound (t.store slot pid) := by
  unfold store
  refine ⟨fun j => ?_, fun j hpos => ?_, fun j j' hpos heq => ?_, h.own⟩
  · by_cases hj : j = slot
    · simp only [hj, Function.update_self]
      omega
    · simpa [hj] using h.range j
  · by_cases hj : j = slot
    · subst hj
      simp only [Function.update_self] at hpos ⊢
      exact (hpid.resolve_left (by omega)).2.1
    · simp only [ne_eq, hj, not_false_eq_true, Function.update_of_ne] at hpos ⊢
      exact h.child j hpos
  · have hother : 0 < pid → ∀ j, t.pid j ≠ pid := fun hpos => (hpid.resolve_left (by omega)).2.2
    by_cases hj : j = slot <;> by_cases hj' : j' = slot <;>
      simp only [hj, hj', ne_eq, not_false_eq_true, Function.update_self,
        Function.update_of_ne] at hpos heq ⊢
    · exact absurd heq.symm (hother hpos j')
    · exact absurd heq (hother (heq ▸ hpos) j)
    · exact h.apart j j' hpos heq

lemma recordExit_pid (order : List ι) (t : ProcessTable ι σ) (pid : Int) (j : ι) :
    (t.recordExit order pid).pid j = t.pid j ∨ (t.recordExit order pid).pid j = 0 := by
  unfold recordExit
  split
  · exact clear_pid _ _ j
  · exact .inl rfl

/-- A slot that holds another pid is left as it is. -/
lemma recordExit_pid_of_ne (hj : t.pid j ≠ pid) : (t.recordExit order pid).pid j = t.pid j := by
  unfold recordExit
  split
  · next slot hfind =>
      have hslot := List.find?_some hfind
      simp only [ne_eq, decide_eq_true_eq] at hslot
      exact clear_pid_of_ne _ fun heq => hj (heq ▸ hslot.2)
  · rfl

/-- After an exit was recorded no slot holds the pid: two slots do not hold the same child. -/
lemma recordExit_ne (h : Sound t) (hall : ∀ slot, slot ∈ order) (hpid : 0 < pid) (j : ι) :
    (t.recordExit order pid).pid j ≠ pid := by
  unfold recordExit
  split
  · next slot hfind =>
      have hslot := List.find?_some hfind
      simp only [ne_eq, decide_eq_true_eq] at hslot
      intro hj
      obtain ⟨hne, heq⟩ := clear_pid_of_pos (hj ▸ hpid)
      have hpidj : t.pid j = pid := heq.symm.trans hj
      exact hne (h.apart j slot (hpidj ▸ hpid) (hpidj.trans hslot.2.symm))
  · next hfind =>
      intro hj
      have hnone := List.find?_eq_none.mp hfind j (hall j)
      simp only [ne_eq, decide_eq_true_eq, not_and, log] at hnone hj
      exact hnone (by omega) hj

lemma recordExit_history (order : List ι) (t : ProcessTable ι σ) (pid : Int) :
    (t.recordExit order pid).history = .exited pid :: t.history := by
  unfold recordExit
  split <;> rfl

/-- After an exit no slot holds that child. -/
lemma sound_recordExit (h : Sound t) (hall : ∀ slot, slot ∈ order) (hpid : 0 < pid) :
    Sound (t.recordExit order pid) := by
  have kept : ∀ j, 0 < (t.recordExit order pid).pid j →
      (t.recordExit order pid).pid j = t.pid j := by
    intro j hpos
    exact (recordExit_pid order t pid j).resolve_right (Int.ne_of_gt hpos)
  refine ⟨fun j => ?_, fun j hpos => ?_, fun j j' hpos heq => ?_, ?_⟩
  · rcases recordExit_pid order t pid j with hj | hj <;> rw [hj]
    · exact h.range j
    · exact .inr (Int.le_refl 0)
  · rw [recordExit_history]
    refine ⟨(recordExit_ne h hall hpid j).symm, ?_⟩
    have hj := kept j hpos
    rw [hj] at hpos ⊢
    exact h.child j hpos
  · have hj := kept j hpos
    have hj' := kept j' (heq ▸ hpos)
    rw [hj] at hpos
    rw [hj, hj'] at heq
    exact h.apart j j' hpos heq
  · rw [recordExit_history]
    exact h.own

end ProcessTable

/-! ### Code -/

/-- The functions that start, stop and signal processes, instruction by instruction. -/
inductive Code (ι σ : Type*)
  | done
  /-- Read the pid of a slot. -/
  | read (slot : ι) (next : Code ι σ)
  /-- Whether the pid that was read is not zero. -/
  | ifRunning (yes no : Code ι σ)
  /-- Send a signal to the pid that was read. -/
  | kill (slot : ι) (signal : σ) (next : Code ι σ)
  /-- Set the pid of a slot to zero. -/
  | clear (slot : ι) (next : Code ι σ)
  | fork (slot : ι) (next : Code ι σ)
  /-- Put the result of the fork into a slot. -/
  | store (slot : ι) (next : Code ι σ)

/-- What is known of the pid at hand: that it is not used any more, that it was read from a slot,
that it was also tested, that it was forked for a slot. -/
inductive AtHand (ι : Type*)
  | nothing
  | read (slot : ι)
  | running (slot : ι)
  | forked (slot : ι)
  deriving DecidableEq

/-- Where a program is in its code, with the pid at hand. -/
structure Thread (ι σ : Type*) where
  table : ProcessTable ι σ
  code : Code ι σ
  pid : Int
  atHand : AtHand ι

section code

variable {ι σ : Type*} [DecidableEq ι]

/-- A pid that was tested may be read once more. -/
def AtHand.reread (atHand : AtHand ι) (slot : ι) : AtHand ι :=
  if atHand = .running slot then .running slot else .read slot

/-- The code signals and stores only what it has at hand. -/
def Code.Checked : AtHand ι → Code ι σ → Prop
  | _, .done => True
  | atHand, .read slot next => next.Checked (atHand.reread slot)
  | .read slot, .ifRunning yes no => yes.Checked (.running slot) ∧ no.Checked .nothing
  | .running slot, .kill slot' _ next => slot = slot' ∧ next.Checked .nothing
  | _, .clear _ next => next.Checked .nothing
  | _, .fork slot next => next.Checked (.forked slot)
  | .forked slot, .store slot' next => slot = slot' ∧ next.Checked .nothing
  | _, _ => False

/-- The rule for code that treats one slot after the other. -/
lemma Code.checked_foldr {f : ι → Code ι σ → Code ι σ} (order : List ι)
    (hf : ∀ slot next, next.Checked .nothing → (f slot next).Checked .nothing) :
    (order.foldr f .done).Checked .nothing := by
  induction order with
  | nil => trivial
  | cons slot order ih => exact hf slot _ ih

namespace Thread

/-- The next instruction; `forked` is what `fork` returns. -/
def next (s : Thread ι σ) (forked : Int) : Option (Thread ι σ) := match s.code with
  | .done => none
  | .read slot next =>
    some { s with code := next, pid := s.table.pid slot, atHand := s.atHand.reread slot }
  | .ifRunning yes no =>
    if s.pid = 0 then some { s with code := no, atHand := .nothing }
    else
      match s.atHand with
      | .read slot => some { s with code := yes, atHand := .running slot }
      | _ => some { s with code := yes }
  | .kill slot signal next =>
    some { s with table := s.table.log (.killed slot s.pid signal), code := next,
                  atHand := .nothing }
  | .clear slot next =>
    some { s with table := s.table.clear slot, code := next, atHand := .nothing }
  | .fork slot next =>
    if s.table.Forks forked then
      some { s with table := s.table.log (.forked slot forked), code := next, pid := forked,
                    atHand := .forked slot }
    else none
  | .store slot next =>
    some { s with table := s.table.store slot s.pid, code := next, atHand := .nothing }

/-- The handler records an exit. `waitpid` returned a positive pid. -/
def exit (order : List ι) (s : Thread ι σ) (pid : Int) : Option (Thread ι σ) :=
  if 0 < pid then some { s with table := s.table.recordExit order pid } else none

/-- Before anything is called. -/
def idle : Thread ι σ := ⟨⟨fun _ => 0, []⟩, .done, 0, .nothing⟩

/-- A function is called. -/
def call (s : Thread ι σ) (code : Code ι σ) : Thread ι σ :=
  { s with code := code, atHand := .nothing }

/-- The next instruction reads no slot whose last fork failed. -/
def ReadsForked (s : Thread ι σ) : Prop := match s.code with
  | .read slot _ => s.table.pid slot ≠ -1
  | _ => True

instance (s : Thread ι σ) : Decidable s.ReadsForked := by
  unfold ReadsForked
  cases s.code <;> infer_instance

/-- The exit is not that of the pid at hand. -/
def Spares (s : Thread ι σ) (pid : Int) : Prop := s.atHand ≠ .nothing → pid ≠ s.pid

instance (s : Thread ι σ) (pid : Int) : Decidable (s.Spares pid) :=
  inferInstanceAs (Decidable (_ → _))

/-- What is known of the pid at hand holds. -/
def HandOk (t : ProcessTable ι σ) (pid : Int) : AtHand ι → Prop
  | .nothing => True
  | .read slot => pid = t.pid slot ∧ pid ≠ -1
  | .running slot => pid = t.pid slot ∧ 0 < pid
  | .forked slot => pid = -1 ∨
      (0 < pid ∧ ProcessTable.Child t.history slot pid ∧ ∀ j, t.pid j ≠ pid)

/-- The invariant of a thread. -/
structure Inv (s : Thread ι σ) : Prop where
  sound : s.table.Sound
  hand : HandOk s.table s.pid s.atHand
  checked : s.code.Checked s.atHand

variable {s s' : Thread ι σ} {t : ProcessTable ι σ} {slot : ι} {pid : Int}

lemma HandOk.reread {atHand : AtHand ι} (h : HandOk t pid atHand) (hread : t.pid slot ≠ -1) :
    HandOk t (t.pid slot) (atHand.reread slot) := by
  unfold AtHand.reread
  split_ifs with hrunning
  · rw [hrunning] at h
    exact ⟨rfl, h.1 ▸ h.2⟩
  · exact ⟨rfl, hread⟩

omit [DecidableEq ι] in
/-- A new child is in no slot. -/
lemma handOk_forked (h : t.Sound) (slot : ι) (hforks : t.Forks pid) :
    HandOk (t.log (.forked slot pid)) pid (.forked slot) := by
  refine hforks.imp_right fun ⟨hpos, hfresh⟩ => ⟨hpos, .inl ⟨rfl, rfl⟩, fun j hj => ?_⟩
  change t.pid j = pid at hj
  exact hfresh (hj ▸ (h.child j (hj ▸ hpos)).mem_unreaped)

/-- The rule for an instruction. -/
theorem Inv.next (h : s.Inv) (hreads : s.ReadsForked) {forked : Int}
    (hnext : s.next forked = some s') : s'.Inv := by
  obtain ⟨t, code, pid, atHand⟩ := s
  obtain ⟨hsound, hhand, hchecked⟩ := h
  dsimp only at hsound hhand hchecked
  cases code with
  | done => cases hnext
  | read slot next =>
    cases hnext
    exact ⟨hsound, hhand.reread hreads, by simpa only [Code.Checked] using hchecked⟩
  | ifRunning yes no =>
    cases atHand with
    | read slot =>
      simp only [Code.Checked] at hchecked
      obtain ⟨hpid, hforked⟩ := hhand
      simp only [Thread.next] at hnext
      split_ifs at hnext with hzero
      · cases hnext
        exact ⟨hsound, trivial, hchecked.2⟩
      · cases hnext
        have hrange := hsound.range slot
        exact ⟨hsound, ⟨hpid, by dsimp only; omega⟩, hchecked.1⟩
    | nothing | running slot | forked slot => simp [Code.Checked] at hchecked
  | kill slot signal next =>
    cases hnext
    cases atHand with
    | running slot' =>
      simp only [Code.Checked] at hchecked
      obtain ⟨rfl, hnext⟩ := hchecked
      obtain ⟨rfl, hpos⟩ := hhand
      exact ⟨ProcessTable.sound_killed hsound hpos (hsound.child _ hpos) signal, trivial, hnext⟩
    | nothing | read slot | forked slot => simp [Code.Checked] at hchecked
  | clear slot next =>
    cases hnext
    exact ⟨ProcessTable.sound_clear hsound slot, trivial, by
      cases atHand <;> simpa only [Code.Checked] using hchecked⟩
  | fork slot next =>
    simp only [Thread.next] at hnext
    split_ifs at hnext with hforks
    cases hnext
    exact ⟨ProcessTable.sound_forked hsound slot forked, handOk_forked hsound slot hforks, by
      cases atHand <;> simpa only [Code.Checked] using hchecked⟩
  | store slot next =>
    cases hnext
    cases atHand with
    | forked slot' =>
      simp only [Code.Checked] at hchecked
      obtain ⟨rfl, hnext⟩ := hchecked
      exact ⟨ProcessTable.sound_store hsound hhand, trivial, hnext⟩
    | nothing | read slot | running slot => simp [Code.Checked] at hchecked

/-- The rule for an exit. -/
theorem Inv.exit {order : List ι} (h : s.Inv) (hall : ∀ slot, slot ∈ order)
    (hspares : s.Spares pid) (hexit : s.exit order pid = some s') : s'.Inv := by
  obtain ⟨t, code, pid', atHand⟩ := s
  obtain ⟨hsound, hhand, hchecked⟩ := h
  unfold Thread.exit at hexit
  split_ifs at hexit with hpos
  cases hexit
  refine ⟨ProcessTable.sound_recordExit hsound hall hpos, ?_, hchecked⟩
  cases atHand with
  | nothing => trivial
  | read slot =>
    have hne : t.pid slot ≠ pid := hhand.1 ▸ (hspares (by simp)).symm
    exact ⟨hhand.1.trans (ProcessTable.recordExit_pid_of_ne hne).symm, hhand.2⟩
  | running slot =>
    have hne : t.pid slot ≠ pid := hhand.1 ▸ (hspares (by simp)).symm
    exact ⟨hhand.1.trans (ProcessTable.recordExit_pid_of_ne hne).symm, hhand.2⟩
  | forked slot =>
    refine hhand.imp_right fun ⟨hpos', hchild, hother⟩ => ⟨hpos', ?_, fun j => ?_⟩
    · rw [ProcessTable.recordExit_history]
      exact ⟨hspares (by simp), hchild⟩
    · rcases ProcessTable.recordExit_pid order t pid j with hj | hj <;> rw [hj]
      · exact hother j
      · exact Int.ne_of_lt hpos'

lemma inv_idle : Inv (idle : Thread ι σ) := ⟨ProcessTable.sound_empty, trivial, trivial⟩

/-- The rule for a call. -/
theorem Inv.call (h : s.Inv) {code : Code ι σ} (hchecked : code.Checked .nothing) :
    (s.call code).Inv :=
  ⟨h.sound, trivial, hchecked⟩

end Thread

end code

end PiksiBuildroot.Lib
