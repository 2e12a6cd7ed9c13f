import Mathlib.Data.Int.Order.Basic
import Mathlib.Tactic.Ring
import PiksiBuildroot.FileLogger.RotatingLogger

/-!
# Rotation by the clock

`Rotation` says what rotation is: the time since the start of the session is cut into slices, a
frame of the current slice goes to the current file, a later one to one new file, and the session
number goes up when the minute count passes 99999. At such a passage the logger starts the minute
count at 0 again but not the time of the session, so that every later frame is taken to be 99999
minutes late (`files_of_reaches`, `files_afterPassage`).
-/

namespace PiksiBuildroot.FileLogger

open Lib Option

/-! ### Rotation -/

/-- A minute in nanoseconds. -/
def minuteNs : Int := 60 * 1000000000

/-- The path of a log file. -/
def logPath (dir : List Char) (session minute : Nat) : List Char :=
  dir ++ ['/'] ++ logName session minute

/-- The session, the minute count, the start of the current slice, how often the minute count has
passed 99999, and the files in the order in which they were opened, each with its frames. -/
structure Rotation where
  session : Nat
  minute : Nat
  sliceStart : Int
  passages : Nat
  finished : List (List Char × List Bytes)
  current : List Char × List Bytes

namespace Rotation

/-- The first slice of a session. -/
def first (dir : List Char) (session : Nat) (now : Int) : Rotation where
  session := session
  minute := 0
  sliceStart := now
  passages := 0
  finished := []
  current := (logPath dir session 0, [])

/-- A frame goes to the current file. -/
def append (frame : Bytes) (r : Rotation) : Rotation :=
  { r with current := (r.current.1, r.current.2 ++ [frame]) }

/-- Open a file, for a minute count of at most 99999. -/
def openFile (dir : List Char) (session minute : Nat) (r : Rotation) : Rotation := { r with
    session := session
    minute := minute
    finished := r.finished ++ [r.current]
    current := (logPath dir session minute, []) }

/-- Some slices later; the slices between have no file. -/
def advance (dir : List Char) (slice slices : Nat) (r : Rotation) : Rotation :=
  let start := r.sliceStart + slices * (slice * minuteNs)
  if 99999 < r.minute + slice * slices then
    { r.openFile dir (r.session + 1) 0 with sliceStart := start, passages := r.passages + 1 }
  else { r.openFile dir r.session (r.minute + slice * slices) with sliceStart := start }

/-- The slice of a time. -/
def slide (dir : List Char) (slice : Nat) (now : Int) (r : Rotation) : Rotation :=
  if now < r.sliceStart + slice * minuteNs then r
  else r.advance dir slice ((now - r.sliceStart) / (slice * minuteNs)).toNat

/-- A frame that arrives at a time. -/
def frame (dir : List Char) (slice : Nat) (now : Int) (frame : Bytes) (r : Rotation) : Rotation :=
  (r.slide dir slice now).append frame

/-- All files. -/
def files (r : Rotation) : List (List Char × List Bytes) := r.finished ++ [r.current]

end Rotation

/-! ### Runs by the clock -/

def OpenFile.entry (file : OpenFile) : List Char × List Bytes := (file.path, file.frames)

def ClosedFile.entry (file : ClosedFile) : List Char × List Bytes := (file.path, file.frames)

/-- The files of a logger in the order in which they were opened. -/
def Logger.files (l : Logger) : List (List Char × List Bytes) :=
  l.output.closed.map ClosedFile.entry ++ (l.output.curFile.map OpenFile.entry).toList

/-- A logger, the last reading of its clock, and the rotation of its session. -/
structure Timed where
  logger : Logger
  now : Int
  rotation : Option Rotation

/-- The rotation of a session begins when the logger has started the session. -/
def rotate (rotation : Option Rotation) (l l' : Logger) (frame : Bytes) (e : Env) :
    Option Rotation :=
  match rotation with
  | some r => some (r.frame l.outDir l.sliceDuration e.sliceNow frame)
  | none =>
    if l'.destAvailable then
      some ((Rotation.first l.outDir (lastSession (e.listing.getD []) + 1) e.sessionNow).frame
        l.outDir l.sliceDuration e.sliceNow frame)
    else none

def timedStep (s : Timed) (a : Action) : Option Timed := (step s.logger a).map fun l =>
    match a with
    | .frame frame e =>
      { logger := l, now := e.failureNow, rotation := rotate s.rotation s.logger l frame e }
    | _ => { s with logger := l }

/-- A logger that is created at a time. -/
def timed (outDir : List Char) (sliceDuration pollPeriod : Nat) (now : Int) :
    Machine Timed Action where
  init := { logger := (machine outDir sliceDuration pollPeriod).init, now := now, rotation := none }
  step := timedStep

/-- The clock does not go back, directories, disk and writes do not fail, and the duration of a
slice does not change. -/
def Undisturbed (s : Timed) : Action → Prop
  | .frame _ e =>
    (s.now ≤ e.pollNow ∧ e.pollNow ≤ e.restartNow ∧ e.restartNow ≤ e.sessionNow ∧
      e.sessionNow ≤ e.sliceNow ∧ e.sliceNow ≤ e.failureNow) ∧
    (e.listing.isSome = true ∧ e.writes = true) ∧
    (e.sessionOpen.diskFull = false ∧ e.sessionOpen.opens = true) ∧
    e.sliceOpen.diskFull = false ∧ e.sliceOpen.opens = true
  | .updateSliceDuration _ => False
  | _ => True

/-- A frame arrives before the minute count has passed 99999. -/
def BeforePassage (s : Timed) : Action → Prop
  | .frame _ _ => ∀ r ∈ s.rotation, r.passages = 0
  | _ => True

instance (s : Timed) (a : Action) : Decidable (Undisturbed s a) := match a with
  | .frame _ _ => inferInstanceAs (Decidable ((_ ∧ _) ∧ (_ ∧ _) ∧ (_ ∧ _) ∧ _ ∧ _))
  | .updateSliceDuration _ => inferInstanceAs (Decidable False)
  | .updateDir _ => inferInstanceAs (Decidable True)
  | .destroy => inferInstanceAs (Decidable True)

instance (s : Timed) (a : Action) : Decidable (BeforePassage s a) := match a with
  | .frame _ _ => inferInstanceAs (Decidable (∀ r ∈ s.rotation, _))
  | .updateSliceDuration _ => inferInstanceAs (Decidable True)
  | .updateDir _ => inferInstanceAs (Decidable True)
  | .destroy => inferInstanceAs (Decidable True)

/-! ### One frame -/

/-- A logger that has a current file shows a rotation. -/
structure Shows (l : Logger) (r : Rotation) : Prop where
  destAvailable : l.destAvailable = true
  session : l.sessionCount = r.session
  minute : l.minuteCount = r.minute
  finished : l.output.closed.map ClosedFile.entry = r.finished
  current : l.output.curFile.map OpenFile.entry = some r.current

/-- Before a passage the minute count of the session is the start of the slice. -/
def OnTime (l : Logger) (r : Rotation) (now : Int) : Prop := r.passages = 0 →
    r.sliceStart = l.sessionStartTime + l.minuteCount * minuteNs ∧ r.sliceStart ≤ now ∧
      l.sessionCount < 9999

variable {l : Logger} {r : Rotation} {slice : Nat}

lemma Shows.files (h : Shows l r) : l.files = r.files := by
  unfold Logger.files Rotation.files
  rw [h.finished, h.current]
  rfl

lemma closed_closeCurrentFile {o : Output} {file : OpenFile} (h : o.curFile = some file) :
    o.closeCurrentFile.closed.map ClosedFile.entry =
      o.closed.map ClosedFile.entry ++ [file.entry] := by
  unfold Output.closeCurrentFile
  rw [h]
  simp [ClosedFile.entry, OpenFile.entry]

variable {start now : Int}

/-- Whole seconds do not change which slice a time is in. -/
lemma periods_eq {minute slice : Nat} (hnow : start + minute * minuteNs ≤ now) :
    ((now - start).tdiv 1000000000 - 60 * minute) / (60 * slice) =
      (now - (start + minute * minuteNs)) / (slice * minuteNs) := by
  have hpos : 0 ≤ now - start := by
    have hminute : (0 : Int) ≤ minute * minuteNs :=
      Int.mul_nonneg (Int.natCast_nonneg _) (by decide)
    omega
  have hseconds : (now - start).tdiv 1000000000 - 60 * minute =
      (now - (start + minute * minuteNs)) / 1000000000 := by
    rw [Int.tdiv_eq_ediv_of_nonneg hpos]
    unfold minuteNs
    omega
  rw [hseconds, Int.ediv_ediv_of_nonneg (by decide)]
  congr 1
  unfold minuteNs
  omega

/-- No whole slice has passed exactly before the end of the slice. -/
lemma slices_eq_zero_iff (hslice : 1 ≤ slice) :
    ((now - start) / (slice * minuteNs)).toNat = 0 ↔ now < start + slice * minuteNs := by
  have hpos : 0 < (slice : Int) * minuteNs := by
    apply Int.mul_pos
    · exact Int.natCast_pos.mpr hslice
    · decide
  rw [Int.toNat_eq_zero, ← Int.lt_add_one_iff, Int.zero_add, Int.ediv_lt_iff_lt_mul hpos]
  omega

/-- The logger after it has opened a file. -/
def Logger.opened (l : Logger) (session minute : Nat) : Logger := { l with
    destAvailable := true
    sessionCount := session
    minuteCount := minute
    output := { l.output.closeCurrentFile with
      curFile := some (padNewFile (logPath l.outDir session minute)) } }

variable {e : OpenEnv}

/-- A file is opened when nothing fails and the sessions are not used up. -/
lemma openNewFile_ok (hsession : l.sessionCount < 9999) (hfull : e.diskFull = false)
    (hopens : e.opens = true) :
    openNewFile l e = (true, if 99999 < l.minuteCount then l.opened (l.sessionCount + 1) 0
        else l.opened l.sessionCount l.minuteCount) := by
  unfold openNewFile
  rw [if_neg (Nat.not_le.mpr hsession)]
  simp only [hfull, hopens, Bool.false_eq_true, if_false, if_true, rollMinutes]
  split_ifs
  · rfl
  · rfl

lemma openNewFile_usedUp (hsession : 9999 ≤ l.sessionCount) : openNewFile l e = (false, l) :=
  if_pos hsession

lemma Shows.opened (h : Shows l r) (session minute : Nat) :
    Shows (l.opened session minute) (r.openFile l.outDir session minute) := by
  obtain ⟨file, hfile, hentry⟩ := map_eq_some_iff.mp h.current
  refine ⟨rfl, rfl, rfl, ?_, rfl⟩
  have hclosed := closed_closeCurrentFile hfile
  rw [h.finished, hentry] at hclosed
  exact hclosed

variable {now : Int}

/-- A rollover opens the file of the new slice. -/
lemma openNewFile_advance {slices : Nat} (hshows : Shows l r) (htime : OnTime l r now)
    (hpassages : r.passages = 0)
    (hslices : slices * (l.sliceDuration * minuteNs) ≤ now - r.sliceStart)
    (hfull : e.diskFull = false) (hopens : e.opens = true) :
    ∃ l', openNewFile { l with minuteCount := l.minuteCount + l.sliceDuration * slices } e =
        (true, l') ∧
      Shows l' (r.advance l.outDir l.sliceDuration slices) ∧
      OnTime l' (r.advance l.outDir l.sliceDuration slices) now := by
  obtain ⟨hstart, -, hsession⟩ := htime hpassages
  refine ⟨_, openNewFile_ok (by exact hsession) hfull hopens, ?_⟩
  unfold Rotation.advance
  rw [← hshows.minute, ← hshows.session]
  split_ifs with hpass
  · have hshown := hshows.opened (l.sessionCount + 1) 0
    refine ⟨⟨rfl, rfl, rfl, hshown.finished, rfl⟩, fun hzero => ?_⟩
    cases hzero
  · have hshown := hshows.opened l.sessionCount (l.minuteCount + l.sliceDuration * slices)
    refine ⟨⟨rfl, rfl, rfl, hshown.finished, rfl⟩, fun _ => ⟨?_, ?_, hsession⟩⟩
    · simp only [Logger.opened, hstart]
      push_cast
      ring
    · simp only
      omega

/-- At the time of a frame the logger is in the slice of that time. -/
lemma checkSliceTime_shows (hshows : Shows l r) (hslice : 1 ≤ l.sliceDuration)
    (htime : OnTime l r now) (hpassages : r.passages = 0) (hfull : e.diskFull = false)
    (hopens : e.opens = true) :
    ∃ l', checkSliceTime l now e = (true, l') ∧ Shows l' (r.slide l.outDir l.sliceDuration now) ∧
      OnTime l' (r.slide l.outDir l.sliceDuration now) now := by
  obtain ⟨hstart, hle, hsession⟩ := htime hpassages
  have hperiods : ((getTimePassed l now - 60 * l.minuteCount) / (60 * l.sliceDuration)).toNat =
      ((now - r.sliceStart) / (l.sliceDuration * minuteNs)).toNat := by
    rw [hstart] at hle ⊢
    rw [← periods_eq hle]
    rfl
  unfold checkSliceTime Rotation.slide
  rw [hperiods]
  simp only [slices_eq_zero_iff hslice]
  split_ifs with hnow
  · exact ⟨l, rfl, hshows, htime⟩
  · apply openNewFile_advance hshows htime hpassages _ hfull hopens
    have hnonneg : 0 ≤ (now - r.sliceStart) / (l.sliceDuration * minuteNs) := by
      apply Int.ediv_nonneg (Int.sub_nonneg_of_le hle)
      exact Int.mul_nonneg (Int.natCast_nonneg _) (by decide)
    rw [Int.toNat_of_nonneg hnonneg]
    apply Int.ediv_mul_le
    have hpos : 0 < (l.sliceDuration : Int) * minuteNs :=
      Int.mul_pos (Int.natCast_pos.mpr hslice) (by decide)
    exact ne_of_gt hpos

lemma OnTime.mono {now now' : Int} (h : OnTime l r now) (hle : now ≤ now') : OnTime l r now' := by
  intro hpassages
  obtain ⟨hstart, hnow, hsession⟩ := h hpassages
  exact ⟨hstart, hnow.trans hle, hsession⟩

variable {e : Env}

/-- A session starts with the first slice, unless the sessions are used up. -/
lemma startNewSession_shows (hdest : l.destAvailable = false) (hfile : l.output.curFile = none)
    (hclosed : l.output.closed = []) (hlisting : e.listing.isSome = true)
    (hopen : e.sessionOpen.diskFull = false ∧ e.sessionOpen.opens = true) :
    (∃ l', startNewSession l e = (false, l') ∧ l'.destAvailable = false ∧ l'.output = l.output ∧
        9998 ≤ lastSession (e.listing.getD [])) ∨
      ∃ l', startNewSession l e = (true, l') ∧
        Shows l' (.first l.outDir (lastSession (e.listing.getD []) + 1) e.sessionNow) ∧
        OnTime l' (.first l.outDir (lastSession (e.listing.getD []) + 1) e.sessionNow)
          e.sessionNow := by
  obtain ⟨names, hnames⟩ := isSome_iff_exists.mp hlisting
  have hclose : l.output.closeCurrentFile = l.output := by
    unfold Output.closeCurrentFile
    rw [hfile]
  unfold startNewSession
  rw [hnames]
  by_cases hsession : lastSession names + 1 < 9999
  · refine Or.inr ⟨_, openNewFile_ok (by exact hsession) hopen.1 hopen.2, ?_, ?_⟩
    · refine ⟨rfl, rfl, rfl, ?_, rfl⟩
      simp only [Logger.opened, hclose, hclosed]
      rfl
    · intro _
      refine ⟨?_, le_refl _, hsession⟩
      simp [Rotation.first, Logger.opened]
  · exact Or.inl ⟨_, openNewFile_usedUp (Nat.le_of_not_lt hsession), hdest, rfl,
      Nat.le_of_not_lt fun hlt => hsession (Nat.succ_lt_succ hlt)⟩

variable {frame : Bytes}

/-- In a valid session a frame goes to the current file. -/
lemma processFrame_shows {l l' : Logger} (hvalid : ensureSessionValid l e = (true, l'))
    (hwrites : e.writes = true) (hshows : Shows l' r) (htime : OnTime l' r now) :
    Shows (processFrame l frame e) (r.append frame) ∧
      OnTime (processFrame l frame e) (r.append frame) now := by
  obtain ⟨file, hfile, hentry⟩ := map_eq_some_iff.mp hshows.current
  have hprocess : processFrame l frame e = { l' with
        output := { l'.output with
          curFile := some (file.fwrite frame e.flushed)
          bytesWritten := l'.output.bytesWritten + frame.length } } := by
    unfold processFrame
    simp [hvalid, hwrites, hfile, Output.write]
  rw [hprocess]
  refine ⟨⟨hshows.destAvailable, hshows.session, hshows.minute, hshows.finished, ?_⟩, htime⟩
  simp only [map_some, Rotation.append, ← hentry]
  rfl

/-! ### Settings -/

/-- What processing a frame does not change. -/
def Logger.settings (l : Logger) : Nat × List Char × Bool := (l.sliceDuration, l.outDir, l.running)

lemma openNewFile_settings (l : Logger) (e : OpenEnv) :
    (openNewFile l e).2.settings = l.settings := by
  unfold openNewFile
  simp only [rollMinutes]
  split_ifs <;> rfl

lemma checkSliceTime_settings (l : Logger) (now : Int) (e : OpenEnv) :
    (checkSliceTime l now e).2.settings = l.settings := by
  unfold checkSliceTime
  simp only
  split_ifs
  · rfl
  · exact openNewFile_settings _ e

lemma startNewSession_settings (l : Logger) (e : Env) :
    (startNewSession l e).2.settings = l.settings := by
  unfold startNewSession
  cases e.listing with
  | none => rfl
  | some names => exact openNewFile_settings _ e.sessionOpen

lemma ensureSessionValid_settings (l : Logger) (e : Env) :
    (ensureSessionValid l e).2.settings = l.settings := by
  unfold ensureSessionValid
  split_ifs
  · exact checkSliceTime_settings l e.sliceNow e.sliceOpen
  · rfl
  · have hstart := startNewSession_settings { l with sessionStartTime := e.restartNow } e
    simp only
    split_ifs
    · exact (checkSliceTime_settings _ e.sliceNow e.sliceOpen).trans hstart
    · exact hstart

lemma processFrame_settings (l : Logger) (frame : Bytes) (e : Env) :
    (processFrame l frame e).settings = l.settings := by
  have hvalid := ensureSessionValid_settings l e
  unfold processFrame
  simp only
  split_ifs <;> exact hvalid

/-! ### Runs -/

/-- Without a session there are no files; a session shows its rotation until the logger ends. -/
structure Timed.Follows (slice : Nat) (s : Timed) : Prop where
  sliceDuration : s.logger.sliceDuration = slice
  waiting : s.rotation = none → s.logger.destAvailable = false ∧
    s.logger.output.curFile = none ∧ s.logger.output.closed = []
  shows : ∀ r, s.rotation = some r → s.logger.running = true →
    Shows s.logger r ∧ OnTime s.logger r s.now
  files : ∀ r, s.rotation = some r → s.logger.files = r.files ∧ s.logger.sessionCount = r.session

variable {s : Timed}

lemma Timed.Follows.of_shows (hslice : s.logger.sliceDuration = slice)
    (hrotation : s.rotation = some r) (hshows : Shows s.logger r)
    (htime : OnTime s.logger r s.now) :
    s.Follows slice where
  sliceDuration := hslice
  waiting := by
    intro hnone
    rw [hrotation] at hnone
    cases hnone
  shows := by
    intro r' hr' _
    obtain rfl := some_inj.mp (hrotation.symm.trans hr')
    exact ⟨hshows, htime⟩
  files := by
    intro r' hr'
    obtain rfl := some_inj.mp (hrotation.symm.trans hr')
    exact ⟨hshows.files, hshows.session⟩

lemma Timed.Follows.of_waiting (hslice : s.logger.sliceDuration = slice)
    (hrotation : s.rotation = none) (hdest : s.logger.destAvailable = false)
    (hfile : s.logger.output.curFile = none) (hclosed : s.logger.output.closed = []) :
    s.Follows slice where
  sliceDuration := hslice
  waiting := fun _ => ⟨hdest, hfile, hclosed⟩
  shows := by
    intro r hr
    exact absurd (hrotation.symm.trans hr) (some_ne_none r).symm
  files := by
    intro r hr
    exact absurd (hrotation.symm.trans hr) (some_ne_none r).symm

/-- The state after a frame. -/
def Timed.afterFrame (s : Timed) (frame : Bytes) (e : Env) : Timed where
  logger := processFrame s.logger frame e
  now := e.failureNow
  rotation := rotate s.rotation s.logger (processFrame s.logger frame e) frame e

lemma afterFrame_sliceDuration (s : Timed) (frame : Bytes) (e : Env) :
    (s.afterFrame frame e).logger.sliceDuration = s.logger.sliceDuration :=
  congrArg Prod.fst (processFrame_settings s.logger frame e)

variable {s' : Timed} {a : Action}

/-- What a step does: a frame, a change of directory or the end; a change of the duration of slices
is excluded. -/
lemma timedStep_cases (h : timedStep s a = some s') (hundisturbed : Undisturbed s a) :
    s.logger.running = true ∧ ((∃ frame e, a = .frame frame e ∧ s' = s.afterFrame frame e) ∨
        (∃ dir, s' = { s with logger := { s.logger with outDir := dir } }) ∨
        s' = { s with logger :=
          { s.logger with output := s.logger.output.closeCurrentFile, running := false } }) := by
  unfold timedStep step at h
  split_ifs at h with hrunning
  · refine ⟨hrunning, ?_⟩
    cases a with
    | frame frame e => exact Or.inl ⟨frame, e, rfl, (some_inj.mp h).symm⟩
    | updateDir dir => exact Or.inr (Or.inl ⟨dir, (some_inj.mp h).symm⟩)
    | updateSliceDuration slice => exact absurd hundisturbed id
    | destroy => exact Or.inr (Or.inr (some_inj.mp h).symm)
  · cases h

/-- A frame in a session. -/
lemma afterFrame_follows (hslice : 1 ≤ slice) (h : s.Follows slice)
    (hrunning : s.logger.running = true) (hr : s.rotation = some r) (hpassages : r.passages = 0)
    (hundisturbed : Undisturbed s (.frame frame e)) : (s.afterFrame frame e).Follows slice := by
  obtain ⟨⟨hpoll, hrestart, hsession, hcheck, hfailure⟩, ⟨-, hwrites⟩, -, hopen⟩ := hundisturbed
  obtain ⟨hshows, htime⟩ := h.shows r hr hrunning
  have hnow : OnTime s.logger r e.sliceNow := htime.mono (by omega)
  obtain ⟨l', hvalid, hshows', htime'⟩ := checkSliceTime_shows hshows
    (h.sliceDuration.symm ▸ hslice) hnow hpassages hopen.1 hopen.2
  have hensure : ensureSessionValid s.logger e = (true, l') := by
    unfold ensureSessionValid
    rw [hshows.destAvailable, if_pos rfl, hvalid]
  obtain ⟨hprocess, hontime⟩ := processFrame_shows hensure hwrites hshows' (htime'.mono hfailure)
  refine .of_shows ?_ ?_ hprocess hontime
  · rw [afterFrame_sliceDuration, h.sliceDuration]
  · simp only [Timed.afterFrame, rotate, hr]
    rfl

/-- Without a session, and not while waiting for the next attempt, a session is started. -/
lemma ensureSessionValid_start (hdest : l.destAvailable = false)
    (hearly : ¬ (l.sessionStartTime ≠ 0 ∧ getTimePassed l e.pollNow < l.pollPeriod)) :
    ensureSessionValid l e =
      if (startNewSession { l with sessionStartTime := e.restartNow } e).1 then
        checkSliceTime (startNewSession { l with sessionStartTime := e.restartNow } e).2
          e.sliceNow e.sliceOpen
      else (false, (startNewSession { l with sessionStartTime := e.restartNow } e).2) := by
  unfold ensureSessionValid
  rw [if_neg (ne_of_eq_of_ne hdest Bool.false_ne_true), if_neg hearly]

/-- A frame before a session has started. The very first one starts the session, unless the last
one in the directory is 9998. -/
lemma afterFrame_follows_of_waiting (hslice : 1 ≤ slice) (h : s.Follows slice)
    (hr : s.rotation = none) (hundisturbed : Undisturbed s (.frame frame e)) :
    (s.afterFrame frame e).Follows slice ∧ (s.logger.sessionStartTime = 0 →
      lastSession (e.listing.getD []) < 9998 → (s.afterFrame frame e).rotation.isSome) := by
  obtain ⟨⟨hpoll, hrestart, hsession, hcheck, hfailure⟩, ⟨hlisting, hwrites⟩, hopen, hroll⟩ :=
    hundisturbed
  obtain ⟨hdest, hfile, hclosed⟩ := h.waiting hr
  have hduration : (s.afterFrame frame e).logger.sliceDuration = slice := by
    rw [afterFrame_sliceDuration, h.sliceDuration]
  -- a frame that finds no session leaves the files as they are
  have hwait : ∀ l', ensureSessionValid s.logger e = (false, l') → l'.destAvailable = false →
      l'.output = s.logger.output → (s.afterFrame frame e).Follows slice := by
    intro l' hensure hdest' houtput
    have hprocess : processFrame s.logger frame e = l' := by
      unfold processFrame
      rw [hensure]
      rfl
    refine .of_waiting hduration ?_ ?_ ?_ ?_
    · simp [Timed.afterFrame, rotate, hr, hprocess, hdest']
    · simp only [Timed.afterFrame, hprocess, hdest']
    · simp only [Timed.afterFrame, hprocess, houtput, hfile]
    · simp only [Timed.afterFrame, hprocess, houtput, hclosed]
  by_cases hearly : s.logger.sessionStartTime ≠ 0 ∧
      getTimePassed s.logger e.pollNow < s.logger.pollPeriod
  · refine ⟨hwait s.logger ?_ hdest rfl, fun hzero => absurd hzero hearly.1⟩
    simp [ensureSessionValid, hdest, hearly]
  have hensure := ensureSessionValid_start hdest hearly
  have hsettings := startNewSession_settings { s.logger with sessionStartTime := e.restartNow } e
  obtain ⟨l', hstart, hdest', houtput, hused⟩ | ⟨l', hstart, hshows, htime⟩ :=
    @startNewSession_shows { s.logger with sessionStartTime := e.restartNow } e hdest hfile hclosed
      hlisting hopen
  · refine ⟨hwait l' ?_ hdest' houtput, fun _ hlast => absurd hused (Nat.not_le.mpr hlast)⟩
    rw [hensure, hstart]
    rfl
  · rw [hstart] at hsettings hensure
    have hdir : l'.outDir = s.logger.outDir := congrArg (fun p => p.2.1) hsettings
    have hduration' : l'.sliceDuration = slice :=
      (congrArg Prod.fst hsettings).trans h.sliceDuration
    obtain ⟨l'', hvalid, hshows', htime'⟩ := checkSliceTime_shows hshows
      (hduration'.symm ▸ hslice) (htime.mono hcheck) rfl hroll.1 hroll.2
    obtain ⟨hprocess, hontime⟩ :=
      @processFrame_shows _ _ _ frame _ _ (hensure.trans hvalid) hwrites hshows'
        (htime'.mono hfailure)
    refine ⟨.of_shows hduration ?_ hprocess hontime, fun _ _ => ?_⟩
    · simp [Timed.afterFrame, rotate, hr, hprocess.destAvailable, hdir, hduration',
        h.sliceDuration, Rotation.frame]
    · simp [Timed.afterFrame, rotate, hr, hprocess.destAvailable]

/-- A step keeps the files those of the rotation. -/
lemma follows_step (hslice : 1 ≤ slice) (h : s.Follows slice) (hundisturbed : Undisturbed s a)
    (hbefore : BeforePassage s a) (hstep : timedStep s a = some s') : s'.Follows slice := by
  obtain ⟨hrunning, ⟨frame, e, rfl, rfl⟩ | ⟨dir, rfl⟩ | rfl⟩ := timedStep_cases hstep hundisturbed
  · cases hr : s.rotation with
    | none => exact (afterFrame_follows_of_waiting hslice h hr hundisturbed).1
    | some r => exact afterFrame_follows hslice h hrunning hr (hbefore r hr) hundisturbed
  · exact ⟨h.sliceDuration, h.waiting, fun r hr hrunning =>
      have hshows := (h.shows r hr hrunning).1
      ⟨⟨hshows.1, hshows.2, hshows.3, hshows.4, hshows.5⟩, (h.shows r hr hrunning).2⟩, h.files⟩
  · refine ⟨h.sliceDuration, fun hnone => ?_, fun _ _ hfalse => absurd hfalse Bool.false_ne_true,
      fun r hr => ⟨?_, (h.files r hr).2⟩⟩
    · obtain ⟨hdest, hfile, hclosed⟩ := h.waiting hnone
      have hclose : s.logger.output.closeCurrentFile = s.logger.output := by
        unfold Output.closeCurrentFile
        rw [hfile]
      exact ⟨hdest, hclose.symm ▸ hfile, hclose.symm ▸ hclosed⟩
    · obtain ⟨hshows, -⟩ := h.shows r hr hrunning
      obtain ⟨file, hfile, hentry⟩ := map_eq_some_iff.mp hshows.current
      unfold Logger.files Rotation.files
      rw [closed_closeCurrentFile hfile, closeCurrentFile_curFile, hshows.finished, hentry]
      simp

/-- The rotation begins with the first frame, unless there is a file of session 9998. -/
lemma isSome_rotation_firstFrame (outDir : List Char) {sliceDuration : Nat} (pollPeriod : Nat)
    (start : Int) (hslice : 1 ≤ sliceDuration)
    (hundisturbed : Undisturbed (timed outDir sliceDuration pollPeriod start).init (.frame frame e))
    (hlast : lastSession (e.listing.getD []) < 9998) :
    ((timed outDir sliceDuration pollPeriod start).init.afterFrame frame e).rotation.isSome :=
  (afterFrame_follows_of_waiting hslice (.of_waiting rfl rfl rfl rfl rfl) rfl hundisturbed).2 rfl
    hlast

/-- As long as no frame arrives after the minute count has passed 99999, the files of the logger and
their frames are those of the rotation, and the session number has gone up as in the rotation. -/
theorem files_of_reaches (outDir : List Char) (sliceDuration pollPeriod : Nat) (start : Int)
    (hslice : 1 ≤ sliceDuration) {s : Timed}
    (h : ((timed outDir sliceDuration pollPeriod start).restrict fun s a =>
      Undisturbed s a ∧ BeforePassage s a).Reaches s) :
    (s.rotation = none → s.logger.files = []) ∧
      ∀ r, s.rotation = some r → s.logger.files = r.files ∧ s.logger.sessionCount = r.session := by
  have hfollows : s.Follows sliceDuration := by
    refine h.invariant_restrict (Timed.Follows sliceDuration) (.of_waiting rfl rfl rfl rfl rfl) ?_
    rintro s a s' hs ⟨hundisturbed, hbefore⟩ hstep
    exact follows_step hslice hs hundisturbed hbefore hstep
  refine ⟨fun hnone => ?_, hfollows.files⟩
  obtain ⟨-, hfile, hclosed⟩ := hfollows.waiting hnone
  unfold Logger.files
  rw [hfile, hclosed]
  rfl

/-- A frame of a second, a rollover, and the frame that passes 99999 minutes. -/
theorem files_of_reaches_firstPassage : ∃ s, ((timed "/media".toList 5 30 0).restrict fun s a =>
        Undisturbed s a ∧ BeforePassage s a).Reaches s ∧
      (s.rotation = none → s.logger.files = []) ∧
      (∀ r, s.rotation = some r → s.logger.files = r.files ∧ s.logger.sessionCount = r.session) ∧
      s.logger.files = [("/media/0001-00000.sbp".toList, [[1], [2]]),
        ("/media/0001-00005.sbp".toList, [[3]]), ("/media/0002-00000.sbp".toList, [[4]])] := by
  obtain ⟨s, hreaches, hfiles⟩ : ∃ s, ((timed "/media".toList 5 30 0).restrict fun s a =>
        Undisturbed s a ∧ BeforePassage s a).Reaches s ∧
      s.logger.files = [("/media/0001-00000.sbp".toList, [[1], [2]]),
        ("/media/0001-00005.sbp".toList, [[3]]), ("/media/0002-00000.sbp".toList, [[4]])] :=
    Machine.exists_reaches_of_run [frameAt [] 1 [1] true, frameAt ["0001-00000.sbp"] 2 [2] true,
      frameAt ["0001-00000.sbp"] 310 [3] true,
      frameAt ["0001-00000.sbp", "0001-00005.sbp"] (100000 * 60 + 1) [4] true] (by decide +kernel)
  have hrotation := files_of_reaches _ _ _ _ (by decide) hreaches
  exact ⟨s, hreaches, hrotation.1, hrotation.2, hfiles⟩

/-- A second after the passage the next frame does not go to the current file: it opens a file and
starts another session. -/
theorem files_afterPassage :
    ∃ s r, ((timed "/media".toList 5 30 0).restrict Undisturbed).Reaches s ∧ s.rotation = some r ∧
      r.files = [("/media/0001-00000.sbp".toList, [[1]]),
        ("/media/0002-00000.sbp".toList, [[2], [3]])] ∧
      s.logger.files = [("/media/0001-00000.sbp".toList, [[1]]),
        ("/media/0002-00000.sbp".toList, [[2]]), ("/media/0003-00000.sbp".toList, [[3]])] := by
  obtain ⟨s, hreaches, hrotation, hfiles⟩ :
      ∃ s, ((timed "/media".toList 5 30 0).restrict Undisturbed).Reaches s ∧
        s.rotation.map Rotation.files = some [("/media/0001-00000.sbp".toList, [[1]]),
          ("/media/0002-00000.sbp".toList, [[2], [3]])] ∧
        s.logger.files = [("/media/0001-00000.sbp".toList, [[1]]),
          ("/media/0002-00000.sbp".toList, [[2]]), ("/media/0003-00000.sbp".toList, [[3]])] :=
    Machine.exists_reaches_of_run [frameAt [] 1 [1] true,
      frameAt ["0001-00000.sbp"] (100000 * 60 + 1) [2] true,
      frameAt ["0001-00000.sbp", "0002-00000.sbp"] (100000 * 60 + 2) [3] true] (by decide +kernel)
  obtain ⟨r, hr, hrfiles⟩ := map_eq_some_iff.mp hrotation
  exact ⟨s, r, hreaches, hr, hrfiles, hfiles⟩

end PiksiBuildroot.FileLogger
