import PiksiBuildroot.SbpFileio.FdCacheInv

/-!
# The fd cache does not show

What the file IO daemon is for: requests act on files, one after the other (`directRead`,
`directWrite`, `directRemove` on a store without streams, buffers or slots). Each handler of the
daemon does that, with the cache or without it, and purges and flushes do nothing that shows. So a
run of the daemon is a run on the store (`run_refines`, `run_withCache_eq_run_noCache`).
-/

namespace PiksiBuildroot.SbpFileio.FdCache

open Function Lib Lib.Stdio

/-! ### Requests on files without buffers -/

/-- The bytes that a read request asks for. -/
def directRead (env : Env) (store : Store String) (msg : ReadReq) : Bytes :=
  if readDenied env msg.filename then []
  else
    match store.fopen env.perms msg.filename .r, store msg.filename with
    | some _, some content => readAt content msg.offset msg.readlen
    | _, _ => []

/-- Whether a write request can be met, and the files after it. -/
def directWrite (env : Env) (store : Store String) (msg : WriteReq) : Bool × Store String :=
  let filename := filterImagesetBin env msg.filename
  if !env.pathValidatorCheck filename then (false, store)
  else
    match store.fopen env.perms filename .w with
    | none => (false, store)
    | some store => (true, Function.update store filename
        ((store filename).map fun content => writeAt content msg.offset msg.contents))

/-- The files after a remove request. -/
def directRemove (env : Env) (store : Store String) (msg : String) : Store String :=
  let filename := filterImagesetBin env msg
  if env.pathValidatorCheck filename && env.perms.removable filename then
    Function.update store filename none
  else store

/-! ### The handlers -/

variable {env : Env} {held : Nat → Prop} {owed : Nat → Nat} {s : State} {store : Store String}

/-- `sbp_fileio_write` writes to the file. -/
theorem CacheInv.sbpFileioWrite (h : CacheInv env noneHeld noneOwed s store) {msg : WriteReq}
    (hoffset : msg.offset < env.seekLimit)
    (hlength : msg.contents.length ≤ sbpFramingMaxPayloadSize) (now : Int) :
    (sbpFileioWrite env s msg now).1 = (directWrite env store msg).1 ∧
      CacheInv env noneHeld noneOwed (sbpFileioWrite env s msg now).2
        (directWrite env store msg).2 := by
  unfold FdCache.sbpFileioWrite directWrite
  by_cases hcheck : env.pathValidatorCheck (filterImagesetBin env msg.filename)
  swap
  · simp [hcheck, h]
  simp only [hcheck, Bool.not_true, Bool.false_eq_true, if_false]
  generalize filterImagesetBin env msg.filename = path
  rcases (h.flushCachedFd path .r).openFile (by decide : Mode.r ≠ .w)
    (h.not_isFor_flushCachedFd path .r) now with
    ⟨hopen, hstore⟩ | ⟨r, s₁, f, store₁, st, hopen, hstore, hmode, hfile⟩
  · simp only [hopen, hstore, emptyOpenFile, true_and]
    exact h.flushCachedFd path .r
  obtain ⟨s₂, hseek, hfile₂⟩ := hfile.seekTo hoffset
  obtain ⟨content, hcontent⟩ := hfile.exists_content
  simp only [hopen, hstore, hfile.handle.fp, hseek, hcontent, Option.map_some, true_and]
  exact hfile₂.fwrite hmode hcontent hoffset hlength

/-- `read_cb` replies with what the file has. -/
theorem CacheInv.readCb (h : CacheInv env noneHeld noneOwed s store) {msg : ReadReq}
    (hoffset : msg.offset < env.seekLimit) (now : Int) :
    (readCb env s msg now).1 = .readResp msg.sequence (directRead env store msg) ∧
      CacheInv env noneHeld noneOwed (readCb env s msg now).2 store := by
  unfold FdCache.readCb directRead
  by_cases hdenied : readDenied env msg.filename
  · rw [if_pos hdenied, if_pos hdenied]
    exact ⟨rfl, h⟩
  rw [if_neg hdenied, if_neg hdenied]
  rcases (h.flushCachedFd msg.filename .w).openFile (by decide : Mode.w ≠ .r)
    (h.not_isFor_flushCachedFd msg.filename .w) now with
    ⟨hopen, hstore⟩ | ⟨r, s₁, f, store₁, st, hopen, hstore, hmode, hfile⟩
  · simp only [hopen, hstore, emptyOpenFile, readDone, updateOffset, if_true, true_and]
    exact (h.flushCachedFd _ _).flushCachedFd _ _
  obtain rfl : store = store₁ := Store.eq_of_fopen_r hstore
  obtain ⟨s₂, hseek, hfile₂⟩ := hfile.seekTo hoffset
  obtain ⟨content, hcontent⟩ := hfile.exists_content
  obtain ⟨hread, hdone⟩ := hfile₂.readWhenEmpty hmode hcontent hoffset msg
  simp only [hopen, hstore, hcontent, hfile.handle.fp, hseek, hread]
  exact ⟨rfl, hdone⟩

/-- Removing the name of a file that is not open. -/
lemma CacheInv.unlink (h : CacheInv env noneHeld owed s store) {path : String}
    (hslots : ∀ mode idx, (s.fdCache idx).isFor path mode = false) :
    CacheInv env noneHeld owed { s with fs := s.fs.unlink env.perms path }
      (if env.perms.removable path then update store path none else store) := by
  unfold Fs.unlink
  by_cases hremovable : env.perms.removable path
  swap
  · simp only [hremovable, Bool.false_eq_true, if_false]
    exact h
  rw [if_pos hremovable, if_pos hremovable]
  have hopen := h.unopened hslots
  refine ⟨h.coherent.removeName hopen, h.unused, h.inRange, h.notHeld, ?_, h.free, h.allowed,
    h.distinct, h.owned⟩
  intro idx f hf
  obtain ⟨st, hst, hname, hmode, hpos⟩ := h.slot idx f hf
  have hpath : (s.fdCache idx).path ≠ path := by
    intro hpath
    have hfor := hslots st.buffer.mode idx
    simp [FdCacheEntry.isFor, hpath, hmode] at hfor
  exact ⟨st, hst, (update_of_ne hpath _ _).trans hname, hmode, hpos⟩

/-- `remove_cb` removes the file. -/
theorem CacheInv.removeCb (h : CacheInv env noneHeld noneOwed s store) (msg : String) :
    CacheInv env noneHeld noneOwed (removeCb env s msg) (directRemove env store msg) := by
  unfold FdCache.removeCb directRemove
  by_cases hcheck : env.pathValidatorCheck (filterImagesetBin env msg)
  swap
  · simp only [hcheck, Bool.not_false, if_true, Bool.false_and, Bool.false_eq_true, if_false]
    exact h
  simp only [hcheck, Bool.not_true, Bool.false_eq_true, if_false, Bool.true_and]
  generalize filterImagesetBin env msg = path
  have hr := h.flushCachedFd path .r
  apply (hr.flushCachedFd path .w).unlink
  intro mode idx
  cases mode with
  | w => exact hr.not_isFor_flushCachedFd path .w idx
  | r =>
    -- a slot that is for `r` after the second flush was so after the first
    by_contra hfor
    rw [Bool.not_eq_false, FdCache.flushCachedFd] at hfor
    have hsame := eq_of_isFor_closeWhere hfor
    rw [hsame, h.not_isFor_flushCachedFd path .r idx] at hfor
    exact Bool.false_ne_true hfor

/-- A tick of the timer does nothing that shows. -/
lemma CacheInv.timerHandler (h : CacheInv env noneHeld noneOwed s store) (now : Int) :
    CacheInv env noneHeld noneOwed (timerHandler s now) store := by
  have htrigger : ∀ {s : State} (n : Nat), CacheInv env noneHeld noneOwed s store →
      CacheInv env noneHeld noneOwed { s with triggerCachePurge := n } store :=
    fun _ h => ⟨h.coherent, h.unused, h.inRange, h.notHeld, h.slot, h.free, h.allowed, h.distinct,
      h.owned⟩
  unfold FdCache.timerHandler
  split_ifs
  · exact htrigger 0 (h.closeWhere _)
  · exact htrigger _ h

lemma CacheInv.flushFdCache (h : CacheInv env held owed s store) :
    CacheInv env held owed (flushFdCache s) store :=
  h.closeWhere fun e => e.fp.isSome

/-- After a flush of the cache the files hold what the store has. -/
lemma CacheInv.content_flushFdCache (h : CacheInv env noneHeld noneOwed s store) :
    (FdCache.flushFdCache s).fs.content = store := by
  have hflush := h.closeWhere fun e => e.fp.isSome
  apply hflush.coherent.content_eq
  intro f
  rcases hf : (FdCache.closeWhere (fun e => e.fp.isSome) s).fs.streams f with _ | st
  · rfl
  · rcases hflush.owned f st hf with hheld | ⟨idx, hidx⟩
    · exact hheld.elim
    · rw [closeWhere_fdCache] at hidx
      split_ifs at hidx with hcond
      · simp [emptyCacheEntry] at hidx
      · exact absurd ⟨h.inRange idx f hidx, by simp [hidx]⟩ hcond

/-! ### Runs -/

/-- What the main loop calls: a handler of a request, the timer, or `sbp_fileio_flush`. Calls that
ask for the time are given what `time` returns. -/
inductive Event where
  | read (msg : ReadReq) (now : Int)
  | write (msg : WriteReq) (now : Int)
  | remove (msg : String)
  | timer (now : Int)
  | flush

/-- A message whose offset `fseek` takes and whose data is that of one message. -/
def Event.Fits (env : Env) : Event → Prop
  | read msg _ => msg.offset < env.seekLimit
  | write msg _ =>
    msg.offset < env.seekLimit ∧ msg.contents.length ≤ sbpFramingMaxPayloadSize
  | _ => True

/-- One call of the main loop, and the replies it sends. -/
def handle (env : Env) (s : State) : Event → List Reply × State
  | .read msg now => let (reply, s) := readCb env s msg now; ([reply], s)
  | .write msg now => writeCb env s msg now
  | .remove msg => ([], removeCb env s msg)
  | .timer now => ([], timerHandler s now)
  | .flush => ([], flushFdCache s)

/-- A run of the daemon, and the replies it sends. -/
def run (env : Env) (s : State) : List Event → List Reply × State
  | [] => ([], s)
  | ev :: events =>
    let (replies, s) := handle env s ev
    let (rest, s) := run env s events
    (replies ++ rest, s)

/-- One call on files without buffers. -/
def directHandle (env : Env) (store : Store String) : Event → List Reply × Store String
  | .read msg _ => ([.readResp msg.sequence (directRead env store msg)], store)
  | .write msg _ =>
    let (success, store) := directWrite env store msg
    (if success then [.writeResp msg.sequence] else [], store)
  | .remove msg => ([], directRemove env store msg)
  | .timer _ => ([], store)
  | .flush => ([], store)

/-- A run on files without buffers. -/
def directRun (env : Env) (store : Store String) : List Event → List Reply × Store String
  | [] => ([], store)
  | ev :: events =>
    let (replies, store) := directHandle env store ev
    let (rest, store) := directRun env store events
    (replies ++ rest, store)

/-- Every call does to the files what it does without buffers, and sends the same replies. -/
lemma handle_refines (h : CacheInv env noneHeld noneOwed s store) {ev : Event}
    (hfits : ev.Fits env) :
    (handle env s ev).1 = (directHandle env store ev).1 ∧
      CacheInv env noneHeld noneOwed (handle env s ev).2 (directHandle env store ev).2 := by
  cases ev with
  | read msg now =>
    obtain ⟨hreply, hinv⟩ := h.readCb hfits now
    exact ⟨congrArg (fun reply => [reply]) hreply, hinv⟩
  | write msg now =>
    obtain ⟨hsuccess, hinv⟩ := h.sbpFileioWrite hfits.1 hfits.2 now
    exact ⟨by simp only [handle, writeCb, directHandle, hsuccess], hinv⟩
  | remove msg => exact ⟨rfl, h.removeCb msg⟩
  | timer now => exact ⟨rfl, h.timerHandler now⟩
  | flush => exact ⟨rfl, h.flushFdCache⟩

/-- A run of the daemon is a run on files without buffers. -/
theorem run_refines {events : List Event} (h : CacheInv env noneHeld noneOwed s store)
    (hfits : ∀ ev ∈ events, ev.Fits env) :
    (run env s events).1 = (directRun env store events).1 ∧
      CacheInv env noneHeld noneOwed (run env s events).2 (directRun env store events).2 := by
  induction events generalizing s store with
  | nil => exact ⟨rfl, h⟩
  | cons ev events ih =>
    obtain ⟨hreplies, hinv⟩ := handle_refines h (hfits ev List.mem_cons_self)
    obtain ⟨hrest, hinv'⟩ := ih hinv fun ev' hev' => hfits ev' (List.mem_cons_of_mem ev hev')
    exact ⟨by simp only [run, directRun, hreplies, hrest], hinv'⟩

/-- Files without buffers do not depend on `no_cache`. -/
lemma directRun_noCache (env : Env) (noCache : Bool) (store : Store String)
    (events : List Event) :
    directRun { env with noCache := noCache } store events = directRun env store events := by
  induction events generalizing store with
  | nil => rfl
  | cons ev events ih =>
    have hhandle : directHandle { env with noCache := noCache } store ev =
        directHandle env store ev := by
      cases ev <;> rfl
    simp only [directRun, hhandle, ih]

/-- With the cache and without it, every sequence of requests, purges and flushes gets the same
replies, and after a last flush leaves the same files. -/
theorem run_withCache_eq_run_noCache (env : Env) (disk : Disk String) (events : List Event)
    (hfits : ∀ ev ∈ events, ev.Fits env) :
    (run { env with noCache := false } (State.init disk) events).1 =
        (run { env with noCache := true } (State.init disk) events).1 ∧
      (flushFdCache (run { env with noCache := false } (State.init disk) events).2).fs.content =
        (flushFdCache
          (run { env with noCache := true } (State.init disk) events).2).fs.content := by
  have hrun : ∀ noCache, (run { env with noCache := noCache } (State.init disk) events).1 =
          (directRun env (Fs.ofDisk disk).content events).1 ∧
        (flushFdCache (run { env with noCache := noCache } (State.init disk) events).2).fs.content =
          (directRun env (Fs.ofDisk disk).content events).2 := by
    intro noCache
    obtain ⟨hreplies, hinv⟩ :=
      run_refines (cacheInv_init { env with noCache := noCache } disk) hfits
    rw [directRun_noCache] at hreplies hinv
    exact ⟨hreplies, hinv.content_flushFdCache⟩
  exact ⟨(hrun false).1.trans (hrun true).1.symm, (hrun false).2.trans (hrun true).2.symm⟩

/-- Every path is allowed and every file may be used; `size_t` and `long` have 64 bits. -/
def allowAll : Env where
  noCache := false
  allowFactoryMtd := false
  allowImagesetBin := false
  perms := ⟨fun _ => true, fun _ => true, fun _ => true, fun _ => true, fun _ _ => rfl⟩
  pathValidatorCheck _ := true
  bufsiz := 4
  seekLimit := 2 ^ 32
  sizetMod := 2 ^ 64
  fits := by decide

/-- No file is there. -/
def emptyDisk : Disk String := ⟨fun _ => none, fun _ => [], 0, by simp, by simp⟩

/-- Two writes that follow each other, two reads that do, a purge tick, and a removal. -/
def writeReadRemove : List Event :=
  [.write ⟨1, 0, "/data/a", [10, 11, 12]⟩ 0, .write ⟨2, 3, "/data/a", [13]⟩ 0,
    .read ⟨3, 1, 2, "/data/a"⟩ 1, .timer 2, .read ⟨4, 3, 9, "/data/a"⟩ 2, .remove "/data/a",
    .read ⟨5, 0, 9, "/data/a"⟩ 3]

example : (run allowAll (State.init emptyDisk) writeReadRemove).1 =
    [.writeResp 1, .writeResp 2, .readResp 3 [11, 12], .readResp 4 [13], .readResp 5 []] := by
  decide +kernel

theorem run_withCache_eq_run_noCache_writeReadRemove : (∀ ev ∈ writeReadRemove, ev.Fits allowAll) ∧
      (run { allowAll with noCache := false } (State.init emptyDisk) writeReadRemove).1 =
        (run { allowAll with noCache := true } (State.init emptyDisk) writeReadRemove).1 := by
  have hfits : ∀ ev ∈ writeReadRemove, ev.Fits allowAll := by
    simp [writeReadRemove, Event.Fits, allowAll, sbpFramingMaxPayloadSize]
  exact ⟨hfits, (run_withCache_eq_run_noCache allowAll emptyDisk writeReadRemove hfits).1⟩

end PiksiBuildroot.SbpFileio.FdCache
