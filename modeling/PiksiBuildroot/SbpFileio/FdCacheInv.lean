import PiksiBuildroot.SbpFileio.FdCache

/-!
# What holds of the fd cache between the steps of a handler

`CacheInv` relates the slots to the open streams and the files to a store without buffers. Every
slot in use has an open stream of its path and mode whose position is the tracked offset, every
open stream is in one slot or in the hands of a handler (`held`), and no file is open twice. A
handler moves the position of a stream before it records the move in the slot; `owed` is what it has
not recorded yet. There is one lemma for each operation of the cache.
-/

namespace PiksiBuildroot.SbpFileio.FdCache

open Function Lib Lib.Stdio List Option

/-- The slots, the open streams and the store agree. -/
structure CacheInv (env : Env) (held : Nat → Prop) (owed : Nat → Nat) (s : State)
    (store : Store String) : Prop where
  coherent : s.fs.Coherent store
  unused : env.noCache → ∀ idx, (s.fdCache idx).fp = none
  inRange : ∀ idx f, (s.fdCache idx).fp = some f → idx < fdCacheCount
  notHeld : ∀ idx f, (s.fdCache idx).fp = some f → ¬ held f
  slot : ∀ idx f, (s.fdCache idx).fp = some f → ∃ st, s.fs.streams f = some st ∧
    s.fs.names (s.fdCache idx).path = some st.inode ∧
    (s.fdCache idx).mode = some st.buffer.mode ∧ st.pos = (s.fdCache idx).offset + owed f
  free : ∀ idx, (s.fdCache idx).fp = none → (s.fdCache idx).mode = none ∧ (s.fdCache idx).offset = 0
  allowed : ∀ idx mode, (s.fdCache idx).mode = some mode →
    env.perms.allows (s.fdCache idx).path mode
  distinct : ∀ i j f, (s.fdCache i).fp = some f → (s.fdCache j).fp = some f → i = j
  owned : ∀ f st, s.fs.streams f = some st → held f ∨ ∃ idx, (s.fdCache idx).fp = some f

/-- Nothing is in the hands of a handler. -/
abbrev noneHeld : Nat → Prop := fun _ => False

/-- Every move is recorded. -/
abbrev noneOwed : Nat → Nat := fun _ => 0

/-- At the start the store is what is on the disk. -/
lemma cacheInv_init (env : Env) (disk : Disk String) :
    CacheInv env noneHeld noneOwed (State.init disk) (Fs.ofDisk disk).content where
  coherent := Fs.coherent_ofDisk disk
  unused := by simp [State.init]
  inRange := by simp [State.init]
  notHeld := by simp [State.init]
  slot := by simp [State.init]
  free := by simp [State.init]
  allowed := by simp [State.init]
  distinct := by simp [State.init]
  owned := by simp [State.init, Fs.ofDisk]

variable {env : Env} {held : Nat → Prop} {owed : Nat → Nat} {s : State} {store : Store String}

/-! ### Closing slots -/

/-- The slots after one is emptied. -/
lemma closeSlot_fdCache (s : State) (idx : Nat) :
    (closeSlot s idx).fdCache = update s.fdCache idx emptyCacheEntry := by
  unfold closeSlot
  split <;> rfl

/-- Closing a slot removes no file. -/
lemma closeSlot_names (s : State) (idx : Nat) : (closeSlot s idx).fs.names = s.fs.names := by
  unfold closeSlot
  split
  · rfl
  · exact Fs.fclose_names s.fs _

/-- Closing a slot closes its stream and no other. -/
lemma closeSlot_streams (s : State) (idx g : Nat) : (closeSlot s idx).fs.streams g =
      if (s.fdCache idx).fp = some g then none else s.fs.streams g := by
  unfold closeSlot
  split
  · next h => simp [h, State.setSlot]
  · next f h =>
      rw [h]
      simp only [State.setSlot, Fs.fclose_streams, some.injEq]
      by_cases hg : g = f
      · simp [hg]
      · rw [update_of_ne hg, if_neg (Ne.symm hg)]

/-- Closing a slot keeps the invariant. -/
lemma CacheInv.closeSlot (h : CacheInv env held owed s store) (idx : Nat) :
    CacheInv env held owed (closeSlot s idx) store := by
  have hslot : ∀ i f, ((FdCache.closeSlot s idx).fdCache i).fp = some f →
      i ≠ idx ∧ (FdCache.closeSlot s idx).fdCache i = s.fdCache i ∧ (s.fdCache i).fp = some f := by
    intro i f hf
    rw [closeSlot_fdCache] at hf ⊢
    have hi : i ≠ idx := by
      rintro rfl
      simp [emptyCacheEntry] at hf
    rw [update_of_ne hi] at hf ⊢
    exact ⟨hi, rfl, hf⟩
  constructor
  · unfold FdCache.closeSlot
    split
    · exact h.coherent
    · exact h.coherent.fclose _
  · intro hno i
    rw [closeSlot_fdCache]
    by_cases hidx : i = idx
    · subst hidx
      simp [emptyCacheEntry]
    · rw [update_of_ne hidx]
      exact h.unused hno i
  · exact fun i f hf => h.inRange i f (hslot i f hf).2.2
  · exact fun i f hf => h.notHeld i f (hslot i f hf).2.2
  · intro i f hf
    obtain ⟨hi, hsame, hf⟩ := hslot i f hf
    have hopen : (s.fdCache idx).fp ≠ some f := fun hidx => hi (h.distinct i idx f hf hidx)
    rw [hsame, closeSlot_streams, if_neg hopen, closeSlot_names]
    exact h.slot i f hf
  · intro i hi
    rw [closeSlot_fdCache] at hi ⊢
    by_cases hidx : i = idx
    · subst hidx
      simp [emptyCacheEntry]
    · rw [update_of_ne hidx] at hi ⊢
      exact h.free i hi
  · intro i mode hmode
    rw [closeSlot_fdCache] at hmode ⊢
    by_cases hidx : i = idx
    · subst hidx
      simp [emptyCacheEntry] at hmode
    · rw [update_of_ne hidx] at hmode ⊢
      exact h.allowed i mode hmode
  · exact fun i j f hi hj => h.distinct i j f (hslot i f hi).2.2 (hslot j f hj).2.2
  · intro f st hf
    rw [closeSlot_streams] at hf
    split_ifs at hf with hidx
    apply (h.owned f st hf).imp_right
    rintro ⟨i, hi⟩
    have hne : i ≠ idx := by
      rintro rfl
      exact hidx hi
    exact ⟨i, by rw [closeSlot_fdCache, update_of_ne hne]; exact hi⟩

/-- What closing a slot keeps, closing all slots that meet a condition keeps. -/
lemma closeWhere_induction {motive : State → Prop} (cond : FdCacheEntry → Bool)
    (step : ∀ s idx, motive s → cond (s.fdCache idx) → motive (closeSlot s idx)) (h : motive s) :
    motive (closeWhere cond s) := by
  unfold closeWhere
  induction List.range fdCacheCount generalizing s with
  | nil => exact h
  | cons idx l ih =>
    rw [foldl_cons]
    split_ifs with hc
    · exact ih (step s idx h hc)
    · exact ih h

/-- Closing slots keeps the invariant. -/
lemma CacheInv.closeWhere (h : CacheInv env held owed s store) (cond : FdCacheEntry → Bool) :
    CacheInv env held owed (closeWhere cond s) store :=
  @closeWhere_induction s (fun s' => CacheInv env held owed s' store) cond
    (fun _ idx hs _ => hs.closeSlot idx) h

/-- Exactly the slots that meet the condition are emptied. -/
lemma closeWhere_fdCache (cond : FdCacheEntry → Bool) (s : State) (idx : Nat) :
    (closeWhere cond s).fdCache idx =
      if idx < fdCacheCount ∧ cond (s.fdCache idx) then emptyCacheEntry else s.fdCache idx := by
  simp only [← mem_range]
  unfold closeWhere
  induction List.range fdCacheCount generalizing s with
  | nil => simp
  | cons i l ih =>
    rw [foldl_cons, ih]
    by_cases hi : idx = i
    · subst hi
      by_cases hc : cond (s.fdCache idx)
      · simp [hc, closeSlot_fdCache]
      · simp [hc]
    · have hsame : (if cond (s.fdCache i) then closeSlot s i else s).fdCache idx =
          s.fdCache idx := by
        split_ifs
        · rw [closeSlot_fdCache, update_of_ne hi]
        · rfl
      simp [hsame, hi]

variable {path : String} {mode : Mode} {idx : Nat} {cond : FdCacheEntry → Bool}

/-- An entry that is for a path after slots were closed was so before. -/
lemma eq_of_isFor_closeWhere (h : ((closeWhere cond s).fdCache idx).isFor path mode) :
    (closeWhere cond s).fdCache idx = s.fdCache idx := by
  rw [closeWhere_fdCache] at h ⊢
  split_ifs at h ⊢
  · simp [emptyCacheEntry, FdCacheEntry.isFor] at h
  · rfl

lemma CacheInv.flushCachedFd (h : CacheInv env held owed s store) (path : String) (mode : Mode) :
    CacheInv env held owed (flushCachedFd s path mode) store :=
  h.closeWhere (FdCacheEntry.isFor path mode)

/-- An entry that is for a path has a stream. -/
lemma CacheInv.exists_fp_of_isFor (h : CacheInv env held owed s store)
    (hidx : (s.fdCache idx).isFor path mode) : ∃ f, (s.fdCache idx).fp = some f := by
  rcases hf : (s.fdCache idx).fp with _ | f
  · have hmode := (h.free idx hf).1
    simp [FdCacheEntry.isFor, hmode] at hidx
  · exact ⟨f, rfl⟩

/-- After a flush no slot is for the path and mode. -/
lemma CacheInv.not_isFor_flushCachedFd (h : CacheInv env held owed s store) (path : String)
    (mode : Mode) (idx : Nat) :
    ((FdCache.flushCachedFd s path mode).fdCache idx).isFor path mode = false := by
  by_contra hfor
  rw [Bool.not_eq_false, FdCache.flushCachedFd] at hfor
  have hsame := eq_of_isFor_closeWhere hfor
  have hfor' : (s.fdCache idx).isFor path mode := hsame ▸ hfor
  obtain ⟨f, hf⟩ := h.exists_fp_of_isFor hfor'
  rw [closeWhere_fdCache, if_pos ⟨h.inRange idx f hf, hfor'⟩] at hfor
  simp [emptyCacheEntry, FdCacheEntry.isFor] at hfor

/-- A file for which no slot is in use is not open, if nothing is in the hands of a handler. -/
lemma CacheInv.unopened (h : CacheInv env noneHeld owed s store)
    (hslots : ∀ mode idx, (s.fdCache idx).isFor path mode = false) (i : Nat)
    (hi : s.fs.names path = some i) : s.fs.Unopened i := by
  rintro f st hf rfl
  rcases h.owned f st hf with hheld | ⟨idx, hidx⟩
  · exact hheld.elim
  · obtain ⟨st', hst', hname, hmode, -⟩ := h.slot idx f hidx
    obtain rfl : st = st' := by simpa [hf] using hst'
    have hpath : (s.fdCache idx).path = path := h.coherent.names_inj _ _ _ hname hi
    have hfor := hslots st.buffer.mode idx
    simp [FdCacheEntry.isFor, hpath, hmode] at hfor

/-! ### Opening -/

/-- The invariant does not see the time at which a slot was opened. -/
lemma CacheInv.setSlot_openedAt (h : CacheInv env held owed s store) (idx : Nat) (now : Int) :
    CacheInv env held owed (s.setSlot idx { s.fdCache idx with openedAt := now }) store := by
  -- the entry differs from the old one in a field that no part of the invariant reads
  have hsame : ∀ i, ∃ t, (s.setSlot idx { s.fdCache idx with openedAt := now }).fdCache i =
      { s.fdCache i with openedAt := t } := by
    intro i
    by_cases hi : i = idx
    · subst hi
      exact ⟨now, update_self i _ _⟩
    · exact ⟨(s.fdCache i).openedAt, update_of_ne hi _ _⟩
  have hfp : ∀ i, ((s.setSlot idx { s.fdCache idx with openedAt := now }).fdCache i).fp =
      (s.fdCache i).fp := fun i => by
    obtain ⟨t, ht⟩ := hsame i
    rw [ht]
  constructor
  · exact h.coherent
  · exact fun hno i => (hfp i).trans (h.unused hno i)
  · exact fun i f hf => h.inRange i f ((hfp i).symm.trans hf)
  · exact fun i f hf => h.notHeld i f ((hfp i).symm.trans hf)
  · intro i f hf
    have hslot := h.slot i f ((hfp i).symm.trans hf)
    obtain ⟨t, ht⟩ := hsame i
    rw [ht]
    exact hslot
  · intro i hf
    have hfree := h.free i ((hfp i).symm.trans hf)
    obtain ⟨t, ht⟩ := hsame i
    rw [ht]
    exact hfree
  · intro i mode hmode
    obtain ⟨t, ht⟩ := hsame i
    rw [ht] at hmode ⊢
    exact h.allowed i mode hmode
  · exact fun i j f hi hj => h.distinct i j f ((hfp i).symm.trans hi) ((hfp j).symm.trans hj)
  · intro f st hf
    apply (h.owned f st hf).imp_right
    rintro ⟨i, hi⟩
    exact ⟨i, (hfp i).trans hi⟩

variable {store' : Store String} {f : Nat} {st : Stream} {fs' : Fs String}

/-- The invariant with a new stream in the hands of a handler. -/
lemma CacheInv.addStream (h : CacheInv env noneHeld owed s store)
    (hcoherent : fs'.Coherent store') (hf : s.fs.streams f = none)
    (hnames : ∀ q i, s.fs.names q = some i → fs'.names q = some i)
    (hstreams : ∀ g, g ≠ f → fs'.streams g = s.fs.streams g) :
    CacheInv env (fun g => g = f) owed { s with fs := fs' } store' := by
  have hne : ∀ idx g, (s.fdCache idx).fp = some g → g ≠ f := by
    rintro idx g hg rfl
    obtain ⟨st, hst, -⟩ := h.slot idx g hg
    simp [hf] at hst
  constructor
  · exact hcoherent
  · exact h.unused
  · exact h.inRange
  · exact hne
  · intro idx g hg
    obtain ⟨st, hst, hname, hrest⟩ := h.slot idx g hg
    exact ⟨st, (hstreams g (hne idx g hg)).trans hst, hnames _ _ hname, hrest⟩
  · exact h.free
  · exact h.allowed
  · exact h.distinct
  · intro g st hg
    by_cases hgf : g = f
    · exact .inl hgf
    · exact (h.owned g st ((hstreams g hgf).symm.trans hg)).imp_left False.elim

/-- A free slot takes the stream in the hands of a handler. -/
lemma CacheInv.adopt {f idx : Nat} (h : CacheInv env (fun g => g = f) owed s store)
    (hcache : env.noCache = false) (hidx : idx < fdCacheCount) (hfree : (s.fdCache idx).fp = none)
    (hst : s.fs.streams f = some st) (hname : s.fs.names path = some st.inode)
    (hpos : st.pos = owed f) (hallowed : env.perms.allows path st.buffer.mode) (now : Int) :
    CacheInv env noneHeld owed
      (s.setSlot idx ⟨some f, path, some st.buffer.mode, now, (s.fdCache idx).offset⟩) store := by
  have hslots : ∀ i g, ((s.setSlot idx ⟨some f, path, some st.buffer.mode, now,
      (s.fdCache idx).offset⟩).fdCache i).fp = some g →
      (i = idx ∧ g = f) ∨ (i ≠ idx ∧ (s.fdCache i).fp = some g) := by
    intro i g hg
    by_cases hi : i = idx
    · subst hi
      exact .inl ⟨rfl, by simpa [State.setSlot] using hg.symm⟩
    · exact .inr ⟨hi, by simpa [State.setSlot, hi] using hg⟩
  constructor
  · exact h.coherent
  · simp [hcache]
  · intro i g hg
    rcases hslots i g hg with ⟨rfl, -⟩ | ⟨-, hg⟩
    · exact hidx
    · exact h.inRange i g hg
  · exact fun _ _ _ => id
  · intro i g hg
    rcases hslots i g hg with ⟨rfl, rfl⟩ | ⟨hi, hg⟩
    · refine ⟨st, hst, ?_⟩
      simp [State.setSlot, hname, hpos, (h.free i hfree).2]
    · simpa [State.setSlot, hi] using h.slot i g hg
  · intro i hi
    by_cases hii : i = idx
    · subst hii
      simp [State.setSlot] at hi
    · simp only [State.setSlot, update_of_ne hii] at hi ⊢
      exact h.free i hi
  · intro i mode hmode
    by_cases hii : i = idx
    · subst hii
      obtain rfl : st.buffer.mode = mode := by simpa [State.setSlot] using hmode
      simpa [State.setSlot] using hallowed
    · simp only [State.setSlot, update_of_ne hii] at hmode ⊢
      exact h.allowed i mode hmode
  · intro i j g hi hj
    rcases hslots i g hi with ⟨hi', hg⟩ | ⟨-, hi'⟩ <;>
      rcases hslots j g hj with ⟨hj', hg'⟩ | ⟨-, hj'⟩
    · rw [hi', hj']
    · exact absurd hg (h.notHeld j g hj')
    · exact absurd hg' (h.notHeld i g hi')
    · exact h.distinct i j g hi' hj'
  · intro g st' hg
    rcases h.owned g st' hg with rfl | ⟨i, hi⟩
    · exact .inr ⟨idx, by simp [State.setSlot]⟩
    · have hii : i ≠ idx := by
        rintro rfl
        simp [hfree] at hi
      exact .inr ⟨i, by simpa [State.setSlot, hii] using hi⟩

/-- A slot that is found is one of the cache and meets the condition. -/
lemma findSlot_eq_some (h : findSlot s cond = some idx) :
    idx < fdCacheCount ∧ cond (s.fdCache idx) :=
  ⟨mem_range.mp (mem_of_find?_eq_some h), by simpa using find?_some h⟩

/-- If no slot for a path and mode is found there is none. -/
lemma CacheInv.not_isFor_of_findSlot (h : CacheInv env held owed s store)
    (hfind : findSlot s (FdCacheEntry.isFor path mode) = none) (idx : Nat) :
    (s.fdCache idx).isFor path mode = false := by
  by_contra hfor
  rw [Bool.not_eq_false] at hfor
  obtain ⟨f, hf⟩ := h.exists_fp_of_isFor hfor
  exact find?_eq_none.mp hfind idx (mem_range.mpr (h.inRange idx f hf)) hfor

/-- `r` is a handle on the stream `f`: one of a slot, with a pointer to the offset of the slot, or
one outside the cache. -/
structure Handle (s : State) (r : OpenFile) (f : Nat) : Prop where
  fp : r.fp = some f
  slot : ∀ idx, r.offset = some idx → r.cached = true ∧ (s.fdCache idx).fp = some f
  outside : r.offset = none → r.cached = false

/-- The stream of a handle outside the cache. -/
def heldBy (r : OpenFile) : Nat → Prop := fun g => r.cached = false ∧ r.fp = some g

variable {r : OpenFile}

lemma heldBy_cached (hr : r.cached = true) : heldBy r = noneHeld := by
  funext g
  simp [heldBy, hr]

lemma heldBy_outside (hr : r.cached = false) (hf : r.fp = some f) : heldBy r = fun g => g = f := by
  funext g
  simp [heldBy, hr, hf, eq_comm]

/-- A handler has the stream `f`, in state `st`, on the file of a path, and the rest is as it should
be. -/
structure HasFile (env : Env) (s : State) (store : Store String) (path : String) (r : OpenFile)
    (f : Nat) (st : Stream) : Prop where
  inv : CacheInv env (heldBy r) noneOwed s store
  handle : Handle s r f
  stream : s.fs.streams f = some st
  name : s.fs.names path = some st.inode

/-- The file that a handler has is in the store. -/
lemma HasFile.exists_content (h : HasFile env s store path r f st) :
    ∃ content, store path = some content :=
  isSome_iff_exists.mp (h.inv.coherent.isSome_of_names h.name)

/-- The case of `open_file` that finds the stream in the cache. -/
lemma CacheInv.hasFile_of_hit (h : CacheInv env noneHeld noneOwed s store)
    (hfor : (s.fdCache idx).isFor path mode) (now : Int) :
    store.fopen env.perms path mode = some store ∧ ∃ f st, st.buffer.mode = mode ∧
      HasFile env (s.setSlot idx { s.fdCache idx with openedAt := now }) store path
        ⟨(s.fdCache idx).fp, true, some idx⟩ f st := by
  obtain ⟨f, hf⟩ := h.exists_fp_of_isFor hfor
  obtain ⟨st, hst, hname, hmode, -⟩ := h.slot idx f hf
  obtain ⟨rfl, hmode'⟩ : (s.fdCache idx).path = path ∧ (s.fdCache idx).mode = some mode := by
    simpa [FdCacheEntry.isFor] using hfor
  obtain ⟨content, hcontent⟩ := isSome_iff_exists.mp (h.coherent.isSome_of_names hname)
  refine ⟨by simp [Store.fopen, hcontent, h.allowed idx mode hmode'], f, st,
    some.inj (hmode.symm.trans hmode'), ?_, ⟨hf, ?_, by simp⟩, hst, hname⟩
  · rw [heldBy_cached rfl]
    exact h.setSlot_openedAt idx now
  · intro i hi
    exact ⟨rfl, by simp [State.setSlot, ← some.inj hi, hf]⟩

/-- Opening a path of which no stream of the other mode is open does to the store what opening the
file does, whether the stream comes from the cache or not. -/
lemma CacheInv.openFile (h : CacheInv env noneHeld noneOwed s store) {other mode : Mode}
    (hne : other ≠ mode) (hother : ∀ idx, (s.fdCache idx).isFor path other = false) (now : Int) :
    (openFile env s path mode now = (emptyOpenFile, s) ∧ store.fopen env.perms path mode = none) ∨
    ∃ r s' f store' st, openFile env s path mode now = (r, s') ∧
      store.fopen env.perms path mode = some store' ∧ st.buffer.mode = mode ∧
      HasFile env s' store' path r f st := by
  unfold FdCache.openFile
  rcases hfind : (if env.noCache then none else findSlot s (FdCacheEntry.isFor path mode)) with
    _ | idx
  swap
  · have hfind' : findSlot s (FdCacheEntry.isFor path mode) = some idx := by
      split_ifs at hfind
      exact hfind
    obtain ⟨hstore, f, st, hmode, hfile⟩ := h.hasFile_of_hit (findSlot_eq_some hfind').2 now
    exact .inr ⟨_, _, f, store, st, rfl, hstore, hmode, hfile⟩
  have hslots : ∀ m idx, (s.fdCache idx).isFor path m = false := by
    intro m idx
    by_cases hm : m = mode
    · subst hm
      by_cases hno : env.noCache
      · have hmode := (h.free idx (h.unused hno idx)).1
        simp [FdCacheEntry.isFor, hmode]
      · rw [if_neg hno] at hfind
        exact h.not_isFor_of_findSlot hfind idx
    · obtain rfl : m = other := by
        cases m <;> cases other <;> cases mode <;> simp_all
      exact hother idx
  rcases h.coherent.fopen env.perms mode (h.unopened hslots) with
    ⟨hopen, hstore⟩ | ⟨fs', store', i, hopen, hstore, hallows, hcoherent, hname, hnames, hi,
      hstreams⟩
  · exact .inl ⟨by rw [hopen], hstore⟩
  have hnew : fs'.streams s.fs.nextStream = some (.opened i mode) := by
    rw [hstreams, update_self]
  have hmode : (Stream.opened i mode).buffer.mode = mode := by cases mode <;> rfl
  have hname' : fs'.names path = some (Stream.opened i mode).inode := by cases mode <;> exact hname
  have hpos : (Stream.opened i mode).pos = 0 := by cases mode <;> rfl
  have hclosed : s.fs.streams s.fs.nextStream = none := by
    rcases hf : s.fs.streams s.fs.nextStream with _ | st
    · rfl
    · exact absurd (h.coherent.streams_lt _ _ hf) (Nat.lt_irrefl _)
  have hadd := h.addStream hcoherent hclosed
    (fun q j hq => by
      by_cases hqp : q = path
      · rw [hqp] at hq ⊢
        rw [hname, hi j hq]
      · rw [hnames q hqp, hq])
    (fun g hg => by rw [hstreams, update_of_ne hg])
  have houtside : HasFile env { s with fs := fs' } store' path ⟨some s.fs.nextStream, false, none⟩
      s.fs.nextStream (.opened i mode) :=
    ⟨by rw [heldBy_outside rfl rfl]; exact hadd, ⟨rfl, by simp, fun _ => rfl⟩, hnew, hname'⟩
  rw [hopen]
  right
  by_cases hno : env.noCache
  · simp only [hno, if_true]
    exact ⟨_, _, _, store', _, rfl, hstore, hmode, houtside⟩
  simp only [hno, if_false, Bool.false_eq_true]
  rcases hslot : findSlot s (fun e => e.fp.isNone) with _ | idx
  · exact ⟨_, _, _, store', _, rfl, hstore, hmode, houtside⟩
  · obtain ⟨hidx, hfree⟩ := findSlot_eq_some hslot
    have hadopt := hadd.adopt (Bool.not_eq_true _ ▸ hno) hidx (by simpa using hfree) hnew hname'
      hpos (by rw [hmode]; exact hallows) now
    rw [hmode] at hadopt
    refine ⟨_, _, s.fs.nextStream, store', _, rfl, hstore, hmode, ?_, ⟨rfl, ?_, by simp⟩, hnew,
      hname'⟩
    · rw [heldBy_cached rfl]
      exact hadopt
    · exact fun i hi => ⟨rfl, by simp [State.setSlot, some.inj hi]⟩

/-! ### Moving a stream and recording it -/

variable {s' : State} {content : Bytes}

/-- A stream may be moved if its slot records the move up to what is then owed. -/
lemma CacheInv.move (h : CacheInv env held owed s store) (hst : s.fs.streams f = some st)
    (st' : Stream) (hfs : s'.fs = s.fs.setStream f st') (hinode : st'.inode = st.inode)
    (hmode : st'.buffer.mode = st.buffer.mode) (hcoherent : s'.fs.Coherent store')
    (hslots : ∀ idx, ∃ o, s'.fdCache idx = { s.fdCache idx with offset := o } ∧
      ((s.fdCache idx).fp ≠ some f → o = (s.fdCache idx).offset))
    {owed' : Nat → Nat} (howed : ∀ g, g ≠ f → owed' g = owed g)
    (hpos : ∀ idx, (s.fdCache idx).fp = some f → st'.pos = (s'.fdCache idx).offset + owed' f) :
    CacheInv env held owed' s' store' := by
  have hfp : ∀ i, (s'.fdCache i).fp = (s.fdCache i).fp := fun i => by
    obtain ⟨o, ho, -⟩ := hslots i
    rw [ho]
  constructor
  · exact hcoherent
  · exact fun hno i => (hfp i).trans (h.unused hno i)
  · exact fun i g hg => h.inRange i g ((hfp i).symm.trans hg)
  · exact fun i g hg => h.notHeld i g ((hfp i).symm.trans hg)
  · intro i g hg
    rw [hfp] at hg
    obtain ⟨b, hb, hname, hbmode, hbpos⟩ := h.slot i g hg
    by_cases hgf : g = f
    · subst hgf
      obtain rfl : st = b := by simpa [hst] using hb
      refine ⟨st', by simp [hfs, Fs.setStream], ?_, ?_, hpos i hg⟩
      · obtain ⟨o, ho, -⟩ := hslots i
        rw [ho, hfs, hinode]
        exact hname
      · obtain ⟨o, ho, -⟩ := hslots i
        rw [ho, hmode]
        exact hbmode
    · have hfpne : (s.fdCache i).fp ≠ some f := by
        rw [hg]
        simpa using hgf
      obtain ⟨o, ho, hsame⟩ := hslots i
      refine ⟨b, by simpa [hfs, Fs.setStream, hgf] using hb, ?_⟩
      rw [ho, hfs, hsame hfpne, howed g hgf]
      exact ⟨hname, hbmode, hbpos⟩
  · intro i hi
    rw [hfp] at hi
    obtain ⟨o, ho, hsame⟩ := hslots i
    rw [ho, hsame (by simp [hi])]
    exact h.free i hi
  · intro i mode hi
    obtain ⟨o, ho, -⟩ := hslots i
    rw [ho] at hi ⊢
    exact h.allowed i mode hi
  · exact fun i j g hi hj => h.distinct i j g ((hfp i).symm.trans hi) ((hfp j).symm.trans hj)
  · intro g b hg
    have hopen : ∃ b', s.fs.streams g = some b' := by
      by_cases hgf : g = f
      · exact ⟨st, hgf ▸ hst⟩
      · exact ⟨b, by simpa [hfs, Fs.setStream, hgf] using hg⟩
    obtain ⟨b', hb'⟩ := hopen
    apply (h.owned g b' hb').imp_right
    rintro ⟨i, hi⟩
    exact ⟨i, (hfp i).trans hi⟩

/-- The slot of a handle is the one that has its stream. -/
lemma HasFile.offset_eq_some_iff (h : HasFile env s store path r f st) (idx : Nat) :
    r.offset = some idx ↔ (s.fdCache idx).fp = some f := by
  refine ⟨fun hoff => (h.handle.slot idx hoff).2, fun hidx => ?_⟩
  rcases hoff : r.offset with _ | i
  · exact absurd ⟨h.handle.outside hoff, h.handle.fp⟩ (h.inv.notHeld idx f hidx)
  · rw [h.inv.distinct i idx f (h.handle.slot i hoff).2 hidx]

/-- What `update_offset` does to the slots. -/
lemma exists_updateOffset_fdCache (env : Env) (s : State) (r : OpenFile) (offset : Nat)
    (op : OffsetOp) (idx : Nat) :
    ∃ o, (updateOffset env s r offset op).fdCache idx = { s.fdCache idx with offset := o } ∧
      (r.offset ≠ some idx → o = (s.fdCache idx).offset) := by
  unfold updateOffset
  rcases hoff : r.offset with _ | i
  · exact ⟨_, rfl, fun _ => rfl⟩
  · by_cases hi : idx = i
    · subst hi
      exact ⟨_, update_self idx _ _, by simp⟩
    · exact ⟨_, by simp only [State.setSlot, update_of_ne hi], fun _ => rfl⟩

lemma updateOffset_fs (env : Env) (s : State) (r : OpenFile) (offset : Nat) (op : OffsetOp) :
    (updateOffset env s r offset op).fs = s.fs := by
  unfold updateOffset
  split <;> rfl

/-- The handle stays a handle when offsets and streams change. -/
lemma Handle.of_fp (hr : Handle s r f) (hfp : ∀ idx, (s'.fdCache idx).fp = (s.fdCache idx).fp) :
    Handle s' r f where
  fp := hr.fp
  slot idx hidx := ⟨(hr.slot idx hidx).1, (hfp idx).trans (hr.slot idx hidx).2⟩
  outside := hr.outside

/-- A stream is brought to the offset of a request, and its slot says so. -/
lemma HasFile.seekTo (h : HasFile env s store path r f st) {offset : Nat}
    (hoffset : offset < env.seekLimit) :
    ∃ s', seekTo env s r f offset = some s' ∧
      HasFile env s' store path r f { st with pos := offset } := by
  unfold FdCache.seekTo
  by_cases hread : readOffset s r = offset
  · -- the tracked offset is the position
    have hpos : st.pos = offset := by
      unfold readOffset at hread
      rcases hoff : r.offset with _ | idx <;> rw [hoff] at hread <;> dsimp only at hread
      · omega
      · obtain ⟨b, hb, -, -, hbpos⟩ := h.inv.slot idx f (h.handle.slot idx hoff).2
        obtain rfl : st = b := by simpa [h.stream] using hb
        rw [hbpos, Nat.add_zero]
        omega
    exact ⟨s, by simp [hread], hpos ▸ h⟩
  rw [if_pos hread, if_pos hoffset]
  have hfs : (updateOffset env { s with fs := s.fs.fseek f offset } r offset .assign).fs =
      s.fs.setStream f { st with pos := offset } := by
    rw [updateOffset_fs]
    simp [Fs.fseek, h.stream]
  have hslots := exists_updateOffset_fdCache env
    { s with fs := s.fs.fseek f offset } r offset .assign
  refine ⟨_, rfl, h.inv.move h.stream { st with pos := offset } hfs rfl rfl ?_ ?_
    (fun _ _ => rfl) ?_,
    h.handle.of_fp ?_, by simp [hfs, Fs.setStream], by rw [hfs]; exact h.name⟩
  · rw [updateOffset_fs]
    exact h.inv.coherent.fseek f offset
  · intro idx
    obtain ⟨o, ho, hsame⟩ := hslots idx
    exact ⟨o, ho, fun hne => hsame fun hoff => hne ((h.offset_eq_some_iff idx).mp hoff)⟩
  · intro idx hidx
    have hoff := (h.offset_eq_some_iff idx).mpr hidx
    have hlt : offset < env.sizetMod := by
      have := env.fits
      omega
    simp [updateOffset, hoff, State.setSlot, Nat.mod_eq_of_lt hlt]
  · intro idx
    obtain ⟨o, ho, -⟩ := hslots idx
    rw [ho]

/-- A stream that moves, and whose slots stay as they are, owes the move to its slot. -/
lemma HasFile.move (h : HasFile env s store path r f st) (st' : Stream)
    (hfs : fs' = s.fs.setStream f st') (hinode : st'.inode = st.inode)
    (hmode : st'.buffer.mode = st.buffer.mode) {n : Nat} (hpos : st'.pos = st.pos + n)
    (hcoherent : fs'.Coherent store') :
    CacheInv env (heldBy r) (update noneOwed f n) { s with fs := fs' } store' := by
  have hfs' : ({ s with fs := fs' } : State).fs = s.fs.setStream f st' := hfs
  refine h.inv.move h.stream st' hfs' hinode hmode hcoherent
    (fun idx => ⟨_, rfl, fun _ => rfl⟩) ?_ ?_
  · exact fun g hg => update_of_ne hg _ _
  intro idx hidx
  obtain ⟨b, hb, -, -, hbpos⟩ := h.inv.slot idx f hidx
  obtain rfl : st = b := by simpa [h.stream] using hb
  rw [update_self, hpos, hbpos]
  rfl

/-- What is owed to the slot of a handle is recorded there. -/
lemma CacheInv.record {f n : Nat} (h : CacheInv env held (update owed f n) s store)
    (howed : owed f = 0) (hr : ∀ idx, r.offset = some idx ↔ (s.fdCache idx).fp = some f)
    (hpos : ∀ st, s.fs.streams f = some st → st.pos < env.sizetMod) :
    CacheInv env held owed (updateOffset env s r n .increment) store := by
  have hslots := exists_updateOffset_fdCache env s r n .increment
  by_cases hopen : ∃ st, s.fs.streams f = some st
  · obtain ⟨st, hst⟩ := hopen
    apply h.move hst st (by rw [updateOffset_fs, Fs.setStream_self hst]) rfl rfl
    · rw [updateOffset_fs]
      exact h.coherent
    · intro idx
      obtain ⟨o, ho, hsame⟩ := hslots idx
      exact ⟨o, ho, fun hne => hsame fun hoff => hne ((hr idx).mp hoff)⟩
    · exact fun g hg => (update_of_ne hg _ _).symm
    · intro idx hidx
      obtain ⟨b, hb, -, -, hbpos⟩ := h.slot idx f hidx
      obtain rfl : st = b := by simpa [hst] using hb
      rw [update_self] at hbpos
      have hlt := hpos st hst
      rw [hbpos] at hlt
      simp [updateOffset, (hr idx).mpr hidx, State.setSlot, howed, Nat.mod_eq_of_lt hlt, hbpos]
  · -- the stream was outside the cache and is closed: no slot is concerned
    have hnone : ∀ idx, (s.fdCache idx).fp ≠ some f := by
      intro idx hidx
      obtain ⟨st, hst, -⟩ := h.slot idx f hidx
      exact hopen ⟨st, hst⟩
    have hoff : r.offset = none := by
      rcases hoff : r.offset with _ | idx
      · rfl
      · exact absurd ((hr idx).mp hoff) (hnone idx)
    have hsame : updateOffset env s r n .increment = s := by
      unfold updateOffset
      rw [hoff]
    rw [hsame]
    refine ⟨h.coherent, h.unused, h.inRange, h.notHeld, ?_, h.free, h.allowed, h.distinct, h.owned⟩
    intro idx g hg
    have hgf : g ≠ f := by
      rintro rfl
      exact hnone idx hg
    have hslot := h.slot idx g hg
    rwa [update_of_ne hgf] at hslot

lemma finalizeNonCached_fdCache (s : State) (r : OpenFile) :
    (finalizeNonCached s r).fdCache = s.fdCache := by
  unfold finalizeNonCached
  split
  · rfl
  · split <;> rfl

/-- Closing a stream outside the cache opens no stream. -/
lemma streams_of_finalizeNonCached {g : Nat} (hg : (finalizeNonCached s r).fs.streams g = some st) :
    s.fs.streams g = some st := by
  unfold finalizeNonCached at hg
  split at hg
  · exact hg
  · next f _ =>
      split_ifs at hg
      · exact hg
      · rw [Fs.fclose_streams] at hg
        by_cases hgf : g = f
        · subst hgf
          simp at hg
        · rwa [update_of_ne hgf] at hg

/-- A stream outside the cache is closed. -/
lemma CacheInv.finalizeNonCached (h : CacheInv env (heldBy r) owed s store) (hr : r.fp = some f) :
    CacheInv env noneHeld owed (finalizeNonCached s r) store := by
  unfold FdCache.finalizeNonCached
  rw [hr]
  dsimp only
  by_cases hcached : r.cached
  · rw [if_pos hcached]
    rwa [heldBy_cached hcached] at h
  · rw [if_neg hcached]
    rw [heldBy_outside (by simpa using hcached) hr] at h
    have hne : ∀ idx g, (s.fdCache idx).fp = some g → g ≠ f :=
      fun idx g hg hgf => h.notHeld idx g hg hgf
    constructor
    · exact h.coherent.fclose f
    · exact h.unused
    · exact h.inRange
    · exact fun _ _ _ => id
    · intro idx g hg
      rw [Fs.fclose_streams, update_of_ne (hne idx g hg), Fs.fclose_names]
      exact h.slot idx g hg
    · exact h.free
    · exact h.allowed
    · exact h.distinct
    · intro g st hg
      rw [Fs.fclose_streams] at hg
      have hgf : g ≠ f := by
        rintro rfl
        simp at hg
      rw [update_of_ne hgf] at hg
      exact .inr ((h.owned g st hg).resolve_left hgf)

/-- The bytes that `read_cb` reads are those of the file, and the end of `read_cb` records them. -/
lemma HasFile.readWhenEmpty (h : HasFile env s store path r f st) (hmode : st.buffer.mode = .r)
    (hcontent : store path = some content) (hoffset : st.pos < env.seekLimit) (msg : ReadReq) :
    (readWhenEmpty env s r f msg.readlen).1 = readAt content st.pos msg.readlen ∧
      CacheInv env noneHeld noneOwed (readDone env (readWhenEmpty env s r f msg.readlen).2 msg r
        false (readAt content st.pos msg.readlen)).2 store := by
  obtain ⟨inode, pos, _ | _⟩ := st
  swap
  · simp [Buffer.mode] at hmode
  obtain ⟨buffer, hbuffer, hcoherent, hread⟩ :=
    h.inv.coherent.fread env.bufsiz h.stream h.name hcontent msg.readlen
  rw [hread] at hcoherent
  have hmove := h.move
    ⟨inode, pos + (readAt content pos msg.readlen).length, buffer⟩ rfl rfl hbuffer
    rfl hcoherent
  simp only [FdCache.readWhenEmpty, readDone, hread, Bool.false_eq_true, if_false, true_and]
  apply (hmove.finalizeNonCached h.handle.fp).record rfl
  · intro idx
    rw [h.offset_eq_some_iff idx, finalizeNonCached_fdCache]
  · intro st' hst'
    have hst := streams_of_finalizeNonCached hst'
    simp only [Fs.setStream, update_self, some.injEq] at hst
    have hlen : (readAt content pos msg.readlen).length ≤ msg.readlen := length_take_le _ _
    have hfits := env.fits
    rw [← hst]
    simp only [ReadReq.readlen, sbpFramingMaxPayloadSize, sizeofReadResp] at hlen hfits hoffset ⊢
    omega

/-- The data of a write request goes to the file, and its length is recorded. -/
lemma HasFile.fwrite (h : HasFile env s store path r f st) (hmode : st.buffer.mode = .w)
    (hcontent : store path = some content) (hoffset : st.pos < env.seekLimit) {data : Bytes}
    (hlength : data.length ≤ sbpFramingMaxPayloadSize) :
    CacheInv env noneHeld noneOwed
      (finalizeNonCached
        (updateOffset env { s with fs := s.fs.fwrite f data } r data.length .increment) r)
      (update store path (some (writeAt content st.pos data))) := by
  obtain ⟨inode, pos, _ | writes⟩ := st
  · simp [Buffer.mode] at hmode
  have hmove := h.move ⟨inode, pos + data.length, .held (writes ++ [(pos, data)])⟩
    (Fs.fwrite_eq h.stream data) rfl rfl rfl (h.inv.coherent.fwrite h.stream h.name hcontent data)
  refine (hmove.record rfl h.offset_eq_some_iff ?_).finalizeNonCached h.handle.fp
  intro st' hst'
  simp only [Fs.fwrite_eq h.stream data, Fs.setStream, update_self, some.injEq] at hst'
  have hfits := env.fits
  rw [← hst']
  dsimp only at hoffset ⊢
  omega

end PiksiBuildroot.SbpFileio.FdCache
