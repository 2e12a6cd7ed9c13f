import PiksiBuildroot.Lib.CText
import PiksiBuildroot.Lib.Machine
import PiksiBuildroot.Lib.Stdio

/-!
# The rotating logger

The thread of the logger takes frames from its queue and writes them to the current log file. A new
file is extended to 15 MiB before anything is written to it, and cut off when it is closed, at the
number of bytes that `_bytes_written` has.

What processing a frame does to the files is a sequence of closing and opening (`Reopens`) and at
most one write. A frame that is lost is counted although it was not written, after the counter was
reset (`closed_content_of_reaches`, `closed_exact_of_reaches`).
-/

namespace PiksiBuildroot.FileLogger

open Lib CText Stdio List Option

/-! ### Files -/

/-- Source: `NEW_FILE_PAD_SIZE`. -/
def newFilePadSize : Nat := 15 * 1024 * 1024

/-- An open log file: what is on disk, the offset of the descriptor, what the stream holds back, and
the frames that were written to the stream. -/
structure OpenFile where
  path : List Char
  content : Bytes
  offset : Nat
  buffer : Bytes
  frames : List Bytes

/-- A closed log file, with the counter at that time. -/
structure ClosedFile where
  path : List Char
  content : Bytes
  frames : List Bytes
  counter : Nat

/-- What was logged to a file. -/
def OpenFile.data (file : OpenFile) : Bytes := file.frames.flatten

def ClosedFile.data (file : ClosedFile) : Bytes := file.frames.flatten

/-- A file after it was created and extended. Source: `pad_new_file`. -/
def padNewFile (path : List Char) : OpenFile where
  path := path
  content := ftruncate [] newFilePadSize
  offset := 0
  buffer := []
  frames := []

/-- A frame goes to the stream, which then writes some of what it holds to the file. -/
def OpenFile.fwrite (file : OpenFile) (frame : Bytes) (flushed : Nat) : OpenFile :=
  let buffer := file.buffer ++ frame
  { file with
    content := writeAt file.content file.offset (buffer.take flushed)
    offset := file.offset + (buffer.take flushed).length
    buffer := buffer.drop flushed
    frames := file.frames ++ [frame] }

/-- The current file, the counter and the files closed before. -/
structure Output where
  curFile : Option OpenFile
  bytesWritten : Nat
  closed : List ClosedFile

/-- The file is cut off before the stream is flushed. Source: `close_current_file`. -/
def Output.closeCurrentFile (o : Output) : Output := match o.curFile with
  | none => o
  | some file =>
    let content := if o.bytesWritten < newFilePadSize then ftruncate file.content o.bytesWritten
      else file.content
    { curFile := none
      bytesWritten := 0
      closed := o.closed ++
        [{ path := file.path, content := writeAt content file.offset file.buffer,
           frames := file.frames, counter := o.bytesWritten }] }

/-! ### The logger -/

/-- What opening a file meets. -/
structure OpenEnv where
  diskFull : Bool
  opens : Bool

/-- What processing a frame meets: the readings of the clock in nanoseconds in the order of the
calls, the names in the directory if it can be read, the two attempts to open a file, whether the
write succeeds, and how much the stream writes to the file. -/
structure Env where
  pollNow : Int
  restartNow : Int
  sessionNow : Int
  sliceNow : Int
  failureNow : Int
  listing : Option (List (List Char))
  sessionOpen : OpenEnv
  sliceOpen : OpenEnv
  writes : Bool
  flushed : Nat

/-- Source: `RotatingLogger`. -/
structure Logger where
  destAvailable : Bool
  sessionCount : Nat
  minuteCount : Nat
  sliceDuration : Nat
  pollPeriod : Nat
  outDir : List Char
  sessionStartTime : Int
  output : Output
  running : Bool

/-- Digits with zeros in front. -/
def printPadded (width n : Nat) : List Char := List.leftpad width '0' (Nat.toDigits 10 n)

/-- The name of a log file. -/
def logName (session minute : Nat) : List Char :=
  printPadded 4 session ++ ['-'] ++ printPadded 5 minute ++ ".sbp".toList

/-- Whole seconds since the start of the session. Source: `get_time_passed`. -/
def getTimePassed (l : Logger) (now : Int) : Int := (now - l.sessionStartTime).tdiv 1000000000

/-- Minutes beyond the last number start another session. -/
def rollMinutes (l : Logger) : Logger :=
  if 99999 < l.minuteCount then { l with minuteCount := 0, sessionCount := l.sessionCount + 1 }
  else l

/-- Source: `open_new_file`. -/
def openNewFile (l : Logger) (e : OpenEnv) : Bool × Logger :=
  if 9999 ≤ l.sessionCount then (false, l)
  else
    let l := { l with output := l.output.closeCurrentFile }
    if e.diskFull then (false, l)
    else
      let l := rollMinutes l
      let path := l.outDir ++ ['/'] ++ logName l.sessionCount l.minuteCount
      (e.opens, { l with
          destAvailable := e.opens
          output := { l.output with curFile := if e.opens then some (padNewFile path) else none } })

/-- Source: `check_slice_time`. -/
def checkSliceTime (l : Logger) (now : Int) (e : OpenEnv) : Bool × Logger :=
  let periods := ((getTimePassed l now - 60 * l.minuteCount) / (60 * l.sliceDuration)).toNat
  if periods = 0 then (true, l)
  else openNewFile { l with minuteCount := l.minuteCount + l.sliceDuration * periods } e

/-- The number at the start of a name; a negative one is larger than every session as a `size_t`. -/
def fileCount (name : List Char) : Option Nat :=
  let (negative, text) := takeSign (name.dropWhile isSpace)
  let n := value 10 (text.takeWhile (isDigitOf 10))
  if negative = true ∧ n ≠ 0 then none else some n

/-- The last session that has a file in the directory. -/
def lastSession (names : List (List Char)) : Nat := names.foldl (fun session name =>
    if name.length = 14 ∧ (name.tails.any (".sbp".toList).isPrefixOf) = true then
      match fileCount name with
      | some count => if count < 9999 ∧ session < count then count else session
      | none => session
    else session) 0

/-- Source: `start_new_session`. -/
def startNewSession (l : Logger) (e : Env) : Bool × Logger := match e.listing with
  | none => (false, l)
  | some names =>
    openNewFile
      { l with
        sessionCount := lastSession names + 1
        minuteCount := 0
        sessionStartTime := e.sessionNow }
      e.sessionOpen

/-- Source: `ensure_session_valid`. -/
def ensureSessionValid (l : Logger) (e : Env) : Bool × Logger :=
  if l.destAvailable then checkSliceTime l e.sliceNow e.sliceOpen
  else if l.sessionStartTime ≠ 0 ∧ getTimePassed l e.pollNow < l.pollPeriod then (false, l)
  else
    let (started, l) := startNewSession { l with sessionStartTime := e.restartNow } e
    if started then checkSliceTime l e.sliceNow e.sliceOpen else (false, l)

/-- The write of a frame: a frame of no bytes never fails. -/
def Output.write (o : Output) (frame : Bytes) (writes : Bool) (flushed : Nat) : Output :=
  match o.curFile with
  | some file =>
    if writes then
      { o with
        curFile := some (file.fwrite frame flushed)
        bytesWritten := o.bytesWritten + frame.length }
    else if frame = [] then o
    else
      let o := o.closeCurrentFile
      { o with bytesWritten := o.bytesWritten + frame.length }
  | none => { o with bytesWritten := o.bytesWritten + frame.length }

/-- Source: the body of the loop of `process_frame`. -/
def processFrame (l : Logger) (frame : Bytes) (e : Env) : Logger :=
  let (valid, l) := ensureSessionValid l e
  if valid = false then l
  else
    let failed := frame ≠ [] ∧ ¬ (l.output.curFile.isSome = true ∧ e.writes = true)
    { l with
      output := l.output.write frame e.writes e.flushed
      destAvailable := if failed then false else l.destAvailable
      sessionStartTime := if failed then e.failureNow else l.sessionStartTime }

/-- The frames of the queue in order, the changes of settings, and the end of the logger. -/
inductive Action where
  | frame (frame : Bytes) (e : Env)
  | updateDir (outDir : List Char)
  | updateSliceDuration (sliceDuration : Nat)
  | destroy

/-- Source: `process_frame`, `update_dir`, `update_slice_duration`, `~RotatingLogger`. -/
def step (l : Logger) (a : Action) : Option Logger := if l.running then
    some (match a with
      | .frame frame e => processFrame l frame e
      | .updateDir outDir => { l with outDir := outDir }
      | .updateSliceDuration sliceDuration => { l with sliceDuration := sliceDuration }
      | .destroy => { l with output := l.output.closeCurrentFile, running := false })
  else none

/-- A logger with its first settings. -/
def machine (outDir : List Char) (sliceDuration pollPeriod : Nat) : Machine Logger Action where
  init :=
    { destAvailable := false, sessionCount := 0, minuteCount := 0, sliceDuration := sliceDuration,
      pollPeriod := pollPeriod, outDir := outDir, sessionStartTime := 0,
      output := { curFile := none, bytesWritten := 0, closed := [] }, running := true }
  step := step

/-! ### What a frame does to the files -/

/-- The current file is closed and others are opened, where `opens` says whether one may be. -/
inductive Reopens (opens : Prop) : Output → Output → Prop
  | refl (o : Output) : Reopens opens o o
  | close {o o' : Output} : Reopens opens o o' → Reopens opens o o'.closeCurrentFile
  | opened {o o' : Output} (path : List Char) (h : opens) : Reopens opens o o' →
      Reopens opens o { o'.closeCurrentFile with curFile := some (padNewFile path) }

lemma closeCurrentFile_curFile (o : Output) : o.closeCurrentFile.curFile = none := by
  unfold Output.closeCurrentFile
  cases h : o.curFile with
  | none => exact h
  | some file => rfl

lemma rollMinutes_output (l : Logger) : (rollMinutes l).output = l.output := by
  unfold rollMinutes
  split_ifs
  · rfl
  · rfl

variable {opens : Prop} {o : Output} {l : Logger} {e : OpenEnv}

lemma openNewFile_reopens (he : e.opens = true → opens) (h : Reopens opens o l.output) :
    Reopens opens o (openNewFile l e).2.output := by
  unfold openNewFile
  split
  · exact h
  split
  · exact h.close
  simp only [rollMinutes_output]
  split_ifs with hopens
  · exact h.opened _ (he hopens)
  · have hsame :
        { l.output.closeCurrentFile with curFile := none } = l.output.closeCurrentFile := by
      rw [← closeCurrentFile_curFile l.output]
    rw [hsame]
    exact h.close

lemma checkSliceTime_reopens {now : Int} (he : e.opens = true → opens)
    (h : Reopens opens o l.output) : Reopens opens o (checkSliceTime l now e).2.output := by
  unfold checkSliceTime
  simp only
  split
  · exact h
  · exact openNewFile_reopens he h

lemma startNewSession_reopens {e : Env} (he : e.sessionOpen.opens = true → opens)
    (h : Reopens opens o l.output) : Reopens opens o (startNewSession l e).2.output := by
  unfold startNewSession
  split
  · exact h
  · exact openNewFile_reopens he h

/-- Checking the session closes and opens files. -/
lemma ensureSessionValid_reopens (l : Logger) (e : Env) :
    Reopens (e.sessionOpen.opens = true ∨ e.sliceOpen.opens = true) l.output
      (ensureSessionValid l e).2.output := by
  unfold ensureSessionValid
  split
  · exact checkSliceTime_reopens Or.inr (.refl _)
  split
  · exact .refl _
  · have hsession := @startNewSession_reopens
      (e.sessionOpen.opens = true ∨ e.sliceOpen.opens = true) l.output
      { l with sessionStartTime := e.restartNow } e Or.inl (.refl _)
    simp only
    split
    · exact checkSliceTime_reopens Or.inr hsession
    · exact hsession

/-! ### The content of closed files -/

/-- The file has what was flushed and then zeros; the rest of the data is in the stream. -/
def OpenFile.Sound (file : OpenFile) : Prop :=
  ∃ flushed, flushed ++ file.buffer = file.data ∧ file.offset = flushed.length ∧
    file.content = flushed ++ List.replicate (newFilePadSize - flushed.length) 0

/-- A closed file has the data and zeros up to the counter, not beyond the padding. -/
def ClosedFile.Sound (file : ClosedFile) : Prop := file.content =
    file.data ++ List.replicate (min file.counter newFilePadSize - file.data.length) 0

/-- The counter is not less than what was written. -/
structure Output.Sound (o : Output) : Prop where
  current : ∀ file, o.curFile = some file → file.Sound ∧ file.data.length ≤ o.bytesWritten
  closed : ∀ file ∈ o.closed, file.Sound

lemma padNewFile_sound (path : List Char) : (padNewFile path).Sound := by
  refine ⟨[], rfl, rfl, ?_⟩
  simp [padNewFile, ftruncate]

lemma data_fwrite (file : OpenFile) (frame : Bytes) (n : Nat) :
    (file.fwrite frame n).data = file.data ++ frame := by
  simp [OpenFile.fwrite, OpenFile.data]

lemma OpenFile.Sound.fwrite {file : OpenFile} (h : file.Sound) (frame : Bytes) (n : Nat) :
    (file.fwrite frame n).Sound := by
  obtain ⟨flushed, hdata, hoffset, hcontent⟩ := h
  refine ⟨flushed ++ (file.buffer ++ frame).take n, ?_, ?_, ?_⟩
  · simp only [OpenFile.fwrite, OpenFile.data, flatten_append, flatten_singleton] at hdata ⊢
    rw [append_assoc, take_append_drop, ← append_assoc, hdata]
  · simp only [OpenFile.fwrite, hoffset, length_append]
  · simp only [OpenFile.fwrite, hoffset, hcontent]
    rw [writeAt_zeros, length_append, Nat.sub_add_eq]

/-- Closing a file gives what the closed file should have. -/
lemma Output.Sound.closeCurrentFile (h : o.Sound) : o.closeCurrentFile.Sound := by
  unfold Output.closeCurrentFile
  cases hfile : o.curFile with
  | none => exact h
  | some file =>
    obtain ⟨⟨flushed, hdata, hoffset, hcontent⟩, hle⟩ := h.current file hfile
    refine ⟨fun _ hnone => absurd hnone.symm (some_ne_none _), fun closed hclosed => ?_⟩
    rcases mem_append.mp hclosed with hold | hnew
    · exact h.closed closed hold
    · obtain rfl := mem_singleton.mp hnew
      have hlength : flushed.length + file.buffer.length = file.data.length := by
        rw [← hdata, length_append]
      have hclosedData : file.frames.flatten = flushed ++ file.buffer := hdata.symm
      simp only [ClosedFile.Sound, ClosedFile.data, hoffset, hcontent, hclosedData, length_append]
      split_ifs with hpad
      · rw [ftruncate_zeros _ (by omega), writeAt_zeros, Nat.min_eq_left hpad.le, Nat.sub_add_eq]
      · rw [writeAt_zeros, Nat.min_eq_right (Nat.le_of_not_lt hpad), Nat.sub_add_eq]

variable {o' : Output}

lemma Reopens.sound (h : Reopens opens o o') (ho : o.Sound) : o'.Sound := by
  induction h with
  | refl => exact ho
  | close _ ih => exact ih.closeCurrentFile
  | opened path _ _ ih =>
    refine ⟨fun file hfile => ?_, ih.closeCurrentFile.closed⟩
    cases hfile
    exact ⟨padNewFile_sound path, Nat.zero_le _⟩

/-- A write keeps the content at the data and the padding. -/
lemma Output.Sound.write (h : o.Sound) (frame : Bytes) (writes : Bool) (n : Nat) :
    (o.write frame writes n).Sound := by
  unfold Output.write
  split
  next file hfile =>
    obtain ⟨hsound, hle⟩ := h.current file hfile
    split_ifs with hwrites hempty
    · refine ⟨fun file' hfile' => ?_, h.closed⟩
      cases hfile'
      refine ⟨hsound.fwrite frame n, ?_⟩
      rw [data_fwrite, length_append]
      exact Nat.add_le_add_right hle _
    · exact h
    · have hclose := h.closeCurrentFile
      refine ⟨fun file' hfile' => ?_, hclose.closed⟩
      rw [closeCurrentFile_curFile] at hfile'
      cases hfile'
  next hnone =>
    refine ⟨fun file' hfile' => ?_, h.closed⟩
    exact absurd (hfile'.symm.trans hnone) (some_ne_none _)

variable {l' : Logger} {a : Action}

/-- What a step does to the files: nothing, or closing, or for a frame closing and opening and then
perhaps a write. -/
lemma step_output (h : step l a = some l') :
    l'.output = l.output ∨ l'.output = l.output.closeCurrentFile ∨ ∃ frame e o, a = .frame frame e ∧
        Reopens (e.sessionOpen.opens = true ∨ e.sliceOpen.opens = true) l.output o ∧
        (l'.output = o ∨ l'.output = o.write frame e.writes e.flushed) := by
  unfold step at h
  split_ifs at h
  cases h
  cases a with
  | frame frame e =>
    refine Or.inr (Or.inr ⟨frame, e, _, rfl, ensureSessionValid_reopens l e, ?_⟩)
    simp only [processFrame]
    split
    · exact Or.inl rfl
    · exact Or.inr rfl
  | updateDir outDir | updateSliceDuration sliceDuration => exact Or.inl rfl
  | destroy => exact Or.inr (Or.inl rfl)

lemma step_sound (hl : l.output.Sound) (h : step l a = some l') : l'.output.Sound := by
  rcases step_output h with heq | heq | ⟨frame, e, o, -, hreopens, heq⟩
  · exact heq ▸ hl
  · exact heq ▸ hl.closeCurrentFile
  · have ho := hreopens.sound hl
    rcases heq with heq | heq
    · exact heq ▸ ho
    · exact heq ▸ ho.write frame e.writes e.flushed

section runs

variable {outDir : List Char} {sliceDuration pollPeriod : Nat}

/-- In every run a closed file has the frames written to it, followed by zeros up to the value that
the counter had when it was closed, and not beyond the padding. -/
theorem closed_content_of_reaches (h : (machine outDir sliceDuration pollPeriod).Reaches l) :
    l.output.Sound := by
  apply @Machine.Reaches.invariant _ _ _ (fun l => l.output.Sound) _ _ l h
  · exact ⟨fun _ hnone => absurd hnone.symm (some_ne_none _), fun _ hmem => absurd hmem not_mem_nil⟩
  · intro l a l' hl hstep
    exact step_sound hl hstep

end runs

/-! ### The counter -/

/-- Without a current file the counter is 0. -/
def Output.Clean (o : Output) : Prop := o.curFile = none → o.bytesWritten = 0

/-- The counter is the number of bytes written. -/
structure Output.Counted (o : Output) : Prop where
  current : ∀ file, o.curFile = some file → o.bytesWritten = file.data.length
  closed : ∀ file ∈ o.closed, file.counter = file.data.length

lemma Output.Clean.closeCurrentFile (h : o.Clean) : o.closeCurrentFile.bytesWritten = 0 := by
  unfold Output.closeCurrentFile
  cases hfile : o.curFile with
  | none => exact h hfile
  | some file => rfl

lemma Output.Counted.closeCurrentFile (h : o.Counted) : o.closeCurrentFile.Counted := by
  refine ⟨fun file hfile => ?_, fun file hfile => ?_⟩
  · rw [closeCurrentFile_curFile] at hfile
    cases hfile
  · unfold Output.closeCurrentFile at hfile
    cases hcur : o.curFile with
    | none =>
      rw [hcur] at hfile
      exact h.closed file hfile
    | some current =>
      rw [hcur] at hfile
      rcases mem_append.mp hfile with hold | hnew
      · exact h.closed file hold
      · obtain rfl := mem_singleton.mp hnew
        exact h.current current hcur

/-- Files that are opened while the counter is 0 are counted. -/
lemma Reopens.counted (h : Reopens opens o o') (ho : o.Counted) (hclean : opens → o.Clean) :
    o'.Counted ∧ (opens → o'.Clean) := by
  induction h with
  | refl => exact ⟨ho, hclean⟩
  | close _ ih => exact ⟨ih.1.closeCurrentFile, fun hopens _ => (ih.2 hopens).closeCurrentFile⟩
  | opened path hopens _ ih =>
    refine ⟨⟨fun file hfile => ?_, ih.1.closeCurrentFile.closed⟩, fun _ hnone => ?_⟩
    · cases hfile
      exact (ih.2 hopens).closeCurrentFile
    · cases hnone

lemma Output.Counted.write (h : o.Counted) (frame : Bytes) (writes : Bool) (n : Nat) :
    (o.write frame writes n).Counted := by
  unfold Output.write
  split
  next file hfile =>
    split_ifs
    · refine ⟨fun file' hfile' => ?_, h.closed⟩
      cases hfile'
      rw [data_fwrite, length_append, ← h.current file hfile]
    · exact h
    · refine ⟨fun file' hfile' => ?_, h.closeCurrentFile.closed⟩
      rw [closeCurrentFile_curFile] at hfile'
      cases hfile'
  next hnone =>
    refine ⟨fun file' hfile' => ?_, h.closed⟩
    exact absurd (hfile'.symm.trans hnone) (some_ne_none _)

/-- A frame that may open a file finds the counter at 0 unless there is a current file. -/
def OpensClean (l : Logger) : Action → Prop
  | .frame _ e => (e.sessionOpen.opens = true ∨ e.sliceOpen.opens = true) →
      l.output.curFile.isSome = true ∨ l.output.bytesWritten = 0
  | _ => True

instance (l : Logger) (a : Action) : Decidable (OpensClean l a) := by
  cases a with
  | frame frame e => exact inferInstanceAs (Decidable (_ → _))
  | updateDir outDir | updateSliceDuration sliceDuration | destroy =>
    exact inferInstanceAs (Decidable True)

lemma step_counted (hl : l.output.Counted) (ha : OpensClean l a) (h : step l a = some l') :
    l'.output.Counted := by
  rcases step_output h with heq | heq | ⟨frame, e, o, rfl, hreopens, heq⟩
  · exact heq ▸ hl
  · exact heq ▸ hl.closeCurrentFile
  · have hclean : e.sessionOpen.opens = true ∨ e.sliceOpen.opens = true → l.output.Clean := by
      intro hopens hnone
      rcases ha hopens with hsome | hzero
      · rw [hnone] at hsome
        cases hsome
      · exact hzero
    have ho := (hreopens.counted hl hclean).1
    rcases heq with heq | heq
    · exact heq ▸ ho
    · exact heq ▸ ho.write frame e.writes e.flushed

/-- A closed file that was counted has exactly the frames written to it. -/
lemma ClosedFile.Sound.content_eq {file : ClosedFile} (h : file.Sound)
    (hcounter : file.counter = file.data.length) : file.content = file.data := by
  rw [ClosedFile.Sound, hcounter, Nat.sub_eq_zero_of_le (Nat.min_le_left _ _)] at h
  simpa using h

/-- In every run in which no file is opened after a frame was lost, every closed file has exactly
the frames that were written to it. -/
theorem closed_exact_of_reaches (outDir : List Char) (sliceDuration pollPeriod : Nat) {l : Logger}
    (h : ((machine outDir sliceDuration pollPeriod).restrict OpensClean).Reaches l) :
    ∀ file ∈ l.output.closed, file.content = file.frames.flatten := by
  have hsound := closed_content_of_reaches (Machine.Reaches.of_restrict h)
  have hcounted : l.output.Counted := by
    refine h.invariant_restrict (fun l => l.output.Counted) ?_
      fun l a l' hl hclean hstep => step_counted hl hclean hstep
    exact ⟨fun _ hnone => absurd hnone.symm (some_ne_none _), fun _ hmem => absurd hmem not_mem_nil⟩
  intro file hfile
  exact (hsound.closed file hfile).content_eq (hcounted.closed file hfile)

/-- A frame at a time in seconds, when files can be opened and the directory has some names. -/
def frameAt (names : List String) (seconds : Int) (frame : Bytes) (writes : Bool) : Action :=
  .frame frame
    { pollNow := seconds * 1000000000, restartNow := seconds * 1000000000,
      sessionNow := seconds * 1000000000, sliceNow := seconds * 1000000000,
      failureNow := seconds * 1000000000, listing := some (names.map String.toList),
      sessionOpen := { diskFull := false, opens := true },
      sliceOpen := { diskFull := false, opens := true }, writes := writes, flushed := 0 }

/-- Two slices. -/
theorem closed_exact_of_reaches_twoSlices :
    ∃ l, ((machine "/media".toList 1 30).restrict OpensClean).Reaches l ∧
      l.output.closed.map ClosedFile.frames = [[[1, 2], [3]], [[4]]] ∧
      ∀ file ∈ l.output.closed, file.content = file.frames.flatten :=
  Machine.exists_reaches_and_of_run
    [frameAt [] 1 [1, 2] true, frameAt ["0001-00000.sbp"] 2 [3] true,
      frameAt ["0001-00000.sbp"] 70 [4] true, .destroy] (by decide +kernel)
    fun _ hl _ => closed_exact_of_reaches _ _ _ hl

/-- A frame of two bytes is lost; the next file has two bytes of padding at its end. -/
theorem closed_padding_afterLostFrame : ∃ l, (machine "/media".toList 1 30).Reaches l ∧
      ∃ file ∈ l.output.closed, file.frames = [[4]] ∧ file.content = [4, 0, 0] := by
  obtain ⟨l, hreaches, file, hfile, hframes, hcounter⟩ :
      ∃ l, (machine "/media".toList 1 30).Reaches l ∧
        ∃ file ∈ l.output.closed, file.frames = [[4]] ∧ file.counter = 3 :=
    Machine.exists_reaches_of_run
      [frameAt [] 1 [1] true, frameAt ["0001-00000.sbp"] 2 [2, 3] false,
        frameAt ["0001-00000.sbp"] 40 [4] true, .destroy] (by decide +kernel)
  refine ⟨l, hreaches, file, hfile, hframes, ?_⟩
  have hsound := (closed_content_of_reaches hreaches).closed file hfile
  rw [ClosedFile.Sound, ClosedFile.data, hframes, hcounter] at hsound
  exact hsound

end PiksiBuildroot.FileLogger
