import Mathlib.Data.List.DropRight
import Mathlib.Data.List.Infix
import PiksiBuildroot.FileLogger.Rotation
import PiksiBuildroot.Lib.Path

/-!
# Files that the logger did not create

A session gets its number from the names in the directory, so the names of the session and of later
ones are free in the directory that was scanned (`free_lastSession`). They need not be free in a
directory that is set later in the session, and a file of session 9999 is passed over by the scan
(`files_notForeign_of_reaches`). A file is known by its directory and its name, where different
texts may name one directory, as `/media/sda1` and `/media/sda1/` do.
-/

namespace PiksiBuildroot.FileLogger

open Lib CText List Option

/-! ### The numbers of names -/

/-- The session of a name that the scan takes for a log file. -/
def sessionOf (name : List Char) : Option Nat :=
  if name.length = 14 ∧ (name.tails.any (".sbp".toList).isPrefixOf) = true then fileCount name
  else none

/-- What the scan makes of one name. -/
def scanName (session : Nat) (name : List Char) : Nat := match sessionOf name with
  | some count => if count < 9999 ∧ session < count then count else session
  | none => session

lemma lastSession_eq (names : List (List Char)) : lastSession names = names.foldl scanName 0 := by
  unfold lastSession
  congr 1
  funext session name
  unfold scanName sessionOf
  split_ifs <;> rfl

lemma le_scanName (session : Nat) (name : List Char) : session ≤ scanName session name := by
  unfold scanName
  split
  · split_ifs with h
    · exact h.2.le
    · exact le_refl _
  · exact le_refl _

variable {name : List Char} {names : List (List Char)} {width n : Nat} {c : Char}

lemma sessionOf_le_scanName {session n : Nat} (hn : sessionOf name = some n) (hlt : n < 9999) :
    n ≤ scanName session name := by
  unfold scanName
  rw [hn]
  simp only
  split_ifs with h
  · exact le_refl _
  · omega

lemma le_foldl_scanName (names : List (List Char)) (session : Nat) :
    session ≤ names.foldl scanName session := by
  induction names generalizing session with
  | nil => exact le_refl _
  | cons name names ih => exact (le_scanName session name).trans (ih _)

/-- The scan finds the largest session below 9999. -/
lemma le_lastSession {n : Nat} (hmem : name ∈ names) (hn : sessionOf name = some n)
    (hlt : n < 9999) : n ≤ lastSession names := by
  obtain ⟨before, after, rfl⟩ := append_of_mem hmem
  rw [lastSession_eq, foldl_append, foldl_cons]
  exact (sessionOf_le_scanName hn hlt).trans (le_foldl_scanName after _)

lemma printPadded_digits (h : c ∈ printPadded width n) : c.isDigit = true := by
  unfold printPadded at h
  rcases mem_append.mp h with h | h
  · rw [eq_of_mem_replicate h]
    rfl
  · exact Nat.isDigit_of_mem_toDigits (by decide) (by decide) h

lemma printPadded_length (hwidth : 0 < width) (h : n < 10 ^ width) :
    (printPadded width n).length = width := by
  have hle : (Nat.toDigits 10 n).length ≤ width :=
    (Nat.length_toDigits_le_iff (by decide) hwidth).mpr h
  unfold printPadded
  rw [length_leftpad, Nat.max_eq_left hle]

lemma value_printPadded (width n : Nat) : value 10 (printPadded width n) = n := by
  rw [value_ten fun c hc => printPadded_digits hc]
  unfold printPadded
  rw [List.leftpad, Nat.ofDigitChars_append, Nat.ofDigitChars_replicate_zero, Nat.mul_zero,
    Nat.ofDigitChars_ten_toDigits]

lemma printPadded_ne_nil (width n : Nat) : printPadded width n ≠ [] := by
  unfold printPadded
  exact append_ne_nil_of_right_ne_nil _ Nat.toDigits_ne_nil

/-- The number of a name is that of the digits it begins with. -/
lemma fileCount_digits {digits rest : List Char} (hne : digits ≠ [])
    (hdigits : ∀ d ∈ digits, d.isDigit = true) (hc : c.isDigit = false) :
    fileCount (digits ++ c :: rest) = some (value 10 digits) := by
  obtain ⟨d, ds, rfl⟩ := exists_cons_of_ne_nil hne
  have hd : isDigitOf 10 d = true := by
    rw [isDigitOf_ten]
    exact hdigits d mem_cons_self
  have hfun : isDigitOf 10 = Char.isDigit := funext isDigitOf_ten
  have hsign : takeSign ((d :: ds ++ c :: rest).dropWhile isSpace) =
      (false, d :: ds ++ c :: rest) := by
    rw [cons_append, dropWhile_cons_of_neg (by simp [isSpace_of_isDigitOf hd]),
      takeSign_of_isDigitOf _ hd]
  have htake : (d :: ds ++ c :: rest).takeWhile (isDigitOf 10) = d :: ds := by
    rw [hfun, takeWhile_append_of_pos hdigits, takeWhile_cons_of_neg (by simp [hc]), append_nil]
  unfold fileCount
  rw [hsign]
  simp only [htake]
  simp

/-- A log name is read back as its session. -/
theorem sessionOf_logName {session minute : Nat} (hsession : session ≤ 9999)
    (hminute : minute ≤ 99999) : sessionOf (logName session minute) = some session := by
  have hlength : (logName session minute).length = 14 := by
    have hfour := printPadded_length (by decide) (show session < 10 ^ 4 by omega)
    have hfive := printPadded_length (by decide) (show minute < 10 ^ 5 by omega)
    simp [logName, hfour, hfive]
  have hsuffix : (logName session minute).tails.any (".sbp".toList).isPrefixOf = true := by
    apply List.any_eq_true.mpr
    exact ⟨".sbp".toList, (mem_tails _ _).mpr (suffix_append _ _), by decide⟩
  have hcount : fileCount (logName session minute) = some session := by
    unfold logName
    rw [append_assoc, append_assoc, singleton_append,
      fileCount_digits (printPadded_ne_nil 4 session) (fun c => printPadded_digits) rfl,
      value_printPadded]
  unfold sessionOf
  rw [if_pos ⟨hlength, hsuffix⟩, hcount]

/-! ### Files that were there before -/

/-- A file: the directory that it is in and its name there. -/
abbrev File (D : Type) := D × List Char

section
variable {D : Type} [DecidableEq D]

/-- The names of the files in a directory. -/
def namesIn (dir : D) (files : List (File D)) : List (List Char) :=
  (files.filter (·.1 = dir)).map Prod.snd

/-- A logger, the files that exist and that it did not create, and the directory that was in use
when the session started. -/
structure Hosted (D : Type) where
  logger : Logger
  foreign : List (File D)
  scannedDir : D

/-- Nobody else creates files, but files may be removed. -/
inductive HostedAction (D : Type) where
  | log (a : Action)
  | remove (file : File D)

-- the directory that a text names
variable (place : List Char → D)

/-- The file of a path: its name is what follows the last slash. -/
def fileAt (path : List Char) : File D :=
  (place (path.rdropWhile (· ≠ '/')).dropLast, path.rtakeWhile (· ≠ '/'))

/-- A scan of the directory finds every file in it. -/
def Lists (s : Hosted D) : Action → Prop
  | .frame _ e =>
    ∀ names ∈ e.listing, ∀ name ∈ namesIn (place s.logger.outDir) s.foreign, name ∈ names
  | _ => True

instance (s : Hosted D) (a : Action) : Decidable (Lists place s a) := match a with
  | .frame _ _ => inferInstanceAs (Decidable (∀ names ∈ _, ∀ name ∈ _, _))
  | .updateSliceDuration _ => inferInstanceAs (Decidable True)
  | .updateDir _ => inferInstanceAs (Decidable True)
  | .destroy => inferInstanceAs (Decidable True)

/-- A frame that finds no session starts one in the directory in use, if at all. -/
def scannedDirAfter (s : Hosted D) : Action → D
  | .frame _ _ => if s.logger.destAvailable then s.scannedDir else place s.logger.outDir
  | _ => s.scannedDir

/-- What a step of the logger, or the removal of a file, does. -/
def hostedStep (s : Hosted D) : HostedAction D → Option (Hosted D)
  | .log a =>
    if Lists place s a then
      (step s.logger a).map fun l => { s with logger := l, scannedDir := scannedDirAfter place s a }
    else none
  | .remove file => some { s with foreign := s.foreign.filter (· ≠ file) }

/-- A logger in a system with some files. -/
def hosted (outDir : List Char) (sliceDuration pollPeriod : Nat) (foreign : List (File D)) :
    Machine (Hosted D) (HostedAction D) where
  init := { logger := (machine outDir sliceDuration pollPeriod).init, foreign := foreign,
            scannedDir := place outDir }
  step := hostedStep place

/-- No file in a directory is of the session or, below 9999, of a later one. -/
def Free (foreign : List (File D)) (dir : D) (session : Nat) : Prop :=
  ∀ name ∈ namesIn dir foreign, ∀ n ∈ sessionOf name, n < 9999 → n < session

instance (foreign : List (File D)) (dir : D) (session : Nat) :
    Decidable (Free foreign dir session) :=
  inferInstanceAs (Decidable (∀ name ∈ namesIn dir foreign, ∀ n ∈ sessionOf name, _ → _))

/-- The session of a frame: the current one, or the one that the scan gives. -/
def sessionFor (l : Logger) (e : Env) : Nat :=
  if l.destAvailable then l.sessionCount else lastSession (e.listing.getD []) + 1

/-- In the middle of a session the directory in use is the one that was scanned, or it is free for
the session; and in session 9998 there is no file of session 9999. -/
def Clear (s : Hosted D) : HostedAction D → Prop
  | .log (.frame _ e) =>
    (s.logger.destAvailable = true → place s.logger.outDir ≠ s.scannedDir →
      Free s.foreign (place s.logger.outDir) s.logger.sessionCount) ∧
    (sessionFor s.logger e = 9998 → logName 9999 0 ∉ namesIn (place s.logger.outDir) s.foreign)
  | _ => True

instance (s : Hosted D) (a : HostedAction D) : Decidable (Clear place s a) := match a with
  | .log (.frame _ _) => inferInstanceAs (Decidable ((_ → _ → _) ∧ (_ → _)))
  | .log (.updateSliceDuration _) => inferInstanceAs (Decidable True)
  | .log (.updateDir _) => inferInstanceAs (Decidable True)
  | .log .destroy => inferInstanceAs (Decidable True)
  | .remove _ => inferInstanceAs (Decidable True)

end

/-! ### The files that a frame opens -/

variable {D : Type} {place : List Char → D} {foreign : List (File D)}

/-- The paths of the files of a logger, in the order in which they were opened. -/
def Output.paths (o : Output) : List (List Char) :=
  o.closed.map ClosedFile.path ++ (o.curFile.map OpenFile.path).toList

lemma closeCurrentFile_paths (o : Output) : o.closeCurrentFile.paths = o.paths := by
  unfold Output.closeCurrentFile Output.paths
  cases hfile : o.curFile with
  | none => simp [hfile]
  | some file => simp

lemma write_paths (o : Output) (frame : Bytes) (writes : Bool) (flushed : Nat) :
    (o.write frame writes flushed).paths = o.paths := by
  unfold Output.write
  cases hfile : o.curFile with
  | none => simp [Output.paths, hfile]
  | some file =>
    split_ifs
    · simp [Output.paths, hfile, OpenFile.fwrite]
    · rfl
    · exact closeCurrentFile_paths o

lemma paths_files (l : Logger) : l.files.map Prod.fst = l.output.paths := by
  unfold Logger.files Output.paths
  cases l.output.curFile with
  | none => simp [ClosedFile.entry, Function.comp_def]
  | some file => simp [ClosedFile.entry, OpenFile.entry, Function.comp_def]

variable (place) in
/-- One logger comes from another by opening files that were not there before, of the same directory
and with sessions that do not go down. -/
structure OpensFree (foreign : List (File D)) (l l' : Logger) : Prop where
  session : l.sessionCount ≤ l'.sessionCount
  paths : ∀ path ∈ l'.output.paths, path ∈ l.output.paths ∨ fileAt place path ∉ foreign

variable {l l' : Logger}

lemma OpensFree.of_paths (hsession : l.sessionCount ≤ l'.sessionCount)
    (hpaths : l'.output.paths = l.output.paths) : OpensFree place foreign l l' :=
  ⟨hsession, fun _ hmem => Or.inl (hpaths ▸ hmem)⟩

lemma OpensFree.trans {l l' l'' : Logger} (h : OpensFree place foreign l l')
    (h' : OpensFree place foreign l' l'') : OpensFree place foreign l l'' := by
  refine ⟨h.session.trans h'.session, fun path hmem => ?_⟩
  rcases h'.paths path hmem with hold | hnew
  · exact h.paths path hold
  · exact Or.inr hnew

/-- After closing, the current file is one of the closed ones. -/
lemma closed_paths (o : Output) : o.closeCurrentFile.closed.map ClosedFile.path = o.paths := by
  have hpaths := closeCurrentFile_paths o
  unfold Output.paths at hpaths ⊢
  rw [closeCurrentFile_curFile] at hpaths
  simpa using hpaths

/-- Opening the file of a name that is not taken. -/
lemma opensFree_opened {path : List Char} (hsession : l.sessionCount ≤ l'.sessionCount)
    (hclosed : l'.output.closed = l.output.closeCurrentFile.closed)
    (hcurFile : ∀ file, l'.output.curFile = some file → file.path = path)
    (hfree : fileAt place path ∉ foreign) : OpensFree place foreign l l' := by
  refine ⟨hsession, fun p hp => ?_⟩
  unfold Output.paths at hp
  rw [hclosed, closed_paths] at hp
  rcases mem_append.mp hp with hold | hnew
  · exact Or.inl hold
  · obtain ⟨file, hfile, rfl⟩ := map_eq_some_iff.mp (mem_toList.mp hnew)
    rw [hcurFile file hfile]
    exact Or.inr hfree

/-! ### Free names -/

lemma slash_notMem_logName (session minute : Nat) : '/' ∉ logName session minute := by
  have hpadded : ∀ width n, '/' ∉ printPadded width n := by
    intro width n hmem
    exact absurd (printPadded_digits hmem) (by decide)
  have hrest : '/' ∉ ".sbp".toList := by decide
  unfold logName
  simp only [mem_append, mem_singleton, hpadded, hrest]
  decide

/-- The file of a path that `open_new_file` makes. -/
lemma fileAt_logPath (dir : List Char) (session minute : Nat) :
    fileAt place (logPath dir session minute) = (place dir, logName session minute) := by
  have hall : ∀ c ∈ (logName session minute).reverse, (c != '/') = true := by
    intro c hc
    rw [bne_iff_ne]
    rintro rfl
    exact slash_notMem_logName session minute (mem_reverse.mp hc)
  have hreverse : (logPath dir session minute).reverse =
      (logName session minute).reverse ++ '/' :: dir.reverse := by
    simp [logPath]
  unfold fileAt
  simp only [List.rdropWhile, List.rtakeWhile, hreverse, ne_eq, ← bne_iff_ne, Bool.decide_eq_true]
  rw [dropWhile_append_of_pos hall, takeWhile_append_of_pos hall]
  simp

variable [DecidableEq D] {dir : D}

/-- The names in a directory are those of its files. -/
lemma mem_namesIn {name : List Char} : name ∈ namesIn dir foreign ↔ (dir, name) ∈ foreign := by
  simp [namesIn]

lemma Free.mono {foreign foreign' : List (File D)} {session session' : Nat}
    (h : Free foreign dir session) (hsub : ∀ file ∈ foreign', file ∈ foreign)
    (hle : session ≤ session') : Free foreign' dir session' := by
  intro name hname n hn hlt
  have hmem : name ∈ namesIn dir foreign := mem_namesIn.mpr (hsub _ (mem_namesIn.mp hname))
  exact lt_of_lt_of_le (h name hmem n hn hlt) hle

/-- The session that follows the last one is free. -/
theorem free_lastSession (h : ∀ name ∈ namesIn dir foreign, name ∈ names) :
    Free foreign dir (lastSession names + 1) := by
  intro name hname n hn hlt
  exact Nat.lt_succ_of_le (le_lastSession (h name hname) hn hlt)

/-- The names of a free session are not taken. -/
lemma Free.logPath_notMem {dir : List Char} {session session' minute : Nat}
    (h : Free foreign (place dir) session) (hle : session ≤ session') (hlt : session' < 9999)
    (hminute : minute ≤ 99999) : fileAt place (logPath dir session' minute) ∉ foreign := by
  intro hmem
  rw [fileAt_logPath] at hmem
  have hname := mem_namesIn.mpr hmem
  have hnumber := sessionOf_logName (Nat.le_of_lt hlt) hminute
  exact absurd (h _ hname session' hnumber hlt) (Nat.not_lt.mpr hle)

variable {e : OpenEnv}

/-- Opening a file in a free session. -/
lemma openNewFile_opensFree (hfree : Free foreign (place l.outDir) l.sessionCount)
    (hlast : l.sessionCount = 9998 → logName 9999 0 ∉ namesIn (place l.outDir) foreign) :
    OpensFree place foreign l (openNewFile l e).2 := by
  unfold openNewFile
  split
  next => exact .of_paths (le_refl _) rfl
  next hsession =>
    have hlt : l.sessionCount < 9999 := Nat.lt_of_not_le hsession
    have hcur : ∀ (path : List Char) (file : OpenFile),
        (if e.opens = true then some (padNewFile path) else none) = some file →
          file.path = path := by
      intro path file hfile
      split_ifs at hfile
      cases hfile
      rfl
    simp only [rollMinutes]
    split
    · exact .of_paths (le_refl _) (closeCurrentFile_paths _)
    by_cases hminute : 99999 < l.minuteCount
    -- a passage opens the first file of the next session, which may be 9999
    · rw [if_pos hminute]
      apply opensFree_opened (Nat.le_succ _) rfl (hcur _)
      intro hmem
      by_cases hnext : l.sessionCount + 1 < 9999
      · exact hfree.logPath_notMem (Nat.le_succ _) hnext (Nat.zero_le _) hmem
      · have hsession' : l.sessionCount = 9998 := by omega
        simp only [hsession'] at hmem
        rw [← logPath, fileAt_logPath] at hmem
        exact hlast hsession' (mem_namesIn.mpr hmem)
    · rw [if_neg hminute]
      refine opensFree_opened (le_refl l.sessionCount) rfl (hcur _) ?_
      exact hfree.logPath_notMem (le_refl _) hlt (Nat.le_of_not_lt hminute)

lemma checkSliceTime_opensFree {now : Int} (hfree : Free foreign (place l.outDir) l.sessionCount)
    (hlast : l.sessionCount = 9998 → logName 9999 0 ∉ namesIn (place l.outDir) foreign) :
    OpensFree place foreign l (checkSliceTime l now e).2 := by
  unfold checkSliceTime
  simp only
  split
  · exact .of_paths (le_refl _) rfl
  · generalize l.minuteCount + l.sliceDuration * _ = minute
    have hopens : OpensFree place foreign { l with minuteCount := minute }
        (openNewFile { l with minuteCount := minute } e).2 := openNewFile_opensFree hfree hlast
    exact ⟨hopens.session, hopens.paths⟩

/-- Without a passage the session stays. -/
lemma openNewFile_sessionCount (hminute : l.minuteCount ≤ 99999) :
    (openNewFile l e).2.sessionCount = l.sessionCount := by
  unfold openNewFile
  simp only [rollMinutes]
  rw [if_neg (Nat.not_lt.mpr hminute)]
  split_ifs <;> rfl

/-- The session that a scan starts. -/
def Logger.atSession (l : Logger) (session : Nat) (now : Int) : Logger :=
  { l with sessionCount := session, minuteCount := 0, sessionStartTime := now }

lemma startNewSession_eq {e : Env} (hnames : e.listing = some names) : startNewSession l e =
      openNewFile (l.atSession (lastSession names + 1) e.sessionNow) e.sessionOpen := by
  unfold startNewSession
  rw [hnames]
  rfl

/-- After the check of the session a frame opens no file. -/
lemma processFrame_after (l : Logger) (frame : Bytes) (e : Env) :
    (processFrame l frame e).sessionCount = (ensureSessionValid l e).2.sessionCount ∧
      (processFrame l frame e).output.paths = (ensureSessionValid l e).2.output.paths ∧
      ((processFrame l frame e).destAvailable = true →
        (ensureSessionValid l e).2.destAvailable = true) := by
  unfold processFrame
  simp only
  split
  · exact ⟨rfl, rfl, id⟩
  · refine ⟨rfl, write_paths _ _ _ _, fun hdest => ?_⟩
    split_ifs at hdest
    exact hdest

variable {frame : Bytes}

/-- A frame in a session that is free in the directory in use. -/
lemma processFrame_opensFree {e : Env} (hdest : l.destAvailable = true)
    (hfree : Free foreign (place l.outDir) l.sessionCount)
    (hlast : l.sessionCount = 9998 → logName 9999 0 ∉ namesIn (place l.outDir) foreign) :
    OpensFree place foreign l (processFrame l frame e) := by
  obtain ⟨hsession, hpaths, -⟩ := processFrame_after l frame e
  have hvalid : OpensFree place foreign l (ensureSessionValid l e).2 := by
    unfold ensureSessionValid
    rw [if_pos hdest]
    exact checkSliceTime_opensFree hfree hlast
  refine ⟨hsession ▸ hvalid.session, fun path hmem => ?_⟩
  rw [hpaths] at hmem
  exact hvalid.paths path hmem

/-- A frame that finds no session: what it opens is free in the directory in use, and so is the
session that it starts. -/
lemma processFrame_starts {e : Env} (hdest : l.destAvailable = false)
    (hlisting : ∀ names ∈ e.listing, ∀ name ∈ namesIn (place l.outDir) foreign, name ∈ names)
    (hlast : sessionFor l e = 9998 → logName 9999 0 ∉ namesIn (place l.outDir) foreign) :
    (∀ path ∈ (processFrame l frame e).output.paths, path ∈ l.output.paths ∨
      fileAt place path ∉ foreign) ∧
      ((processFrame l frame e).destAvailable = true →
        Free foreign (place l.outDir) (processFrame l frame e).sessionCount) := by
  obtain ⟨hsession, hpaths, hdest'⟩ := processFrame_after l frame e
  rw [hsession, hpaths]
  suffices h : (∀ path ∈ (ensureSessionValid l e).2.output.paths,
      path ∈ l.output.paths ∨ fileAt place path ∉ foreign) ∧
      ((ensureSessionValid l e).2.destAvailable = true →
        Free foreign (place l.outDir) (ensureSessionValid l e).2.sessionCount) from
    ⟨h.1, fun hvalid => h.2 (hdest' hvalid)⟩
  by_cases hearly : l.sessionStartTime ≠ 0 ∧ getTimePassed l e.pollNow < l.pollPeriod
  · have hvalid : ensureSessionValid l e = (false, l) := by
      simp [ensureSessionValid, hdest, hearly]
    rw [hvalid]
    exact ⟨fun path hmem => Or.inl hmem, fun htrue => absurd (hdest.symm.trans htrue) (by decide)⟩
  rw [ensureSessionValid_start hdest hearly]
  cases hnames : e.listing with
  | none =>
    have hstart : ∀ l, startNewSession l e = (false, l) := by
      intro l
      unfold startNewSession
      rw [hnames]
    rw [hstart]
    refine ⟨fun path hmem => Or.inl hmem, fun htrue => ?_⟩
    exact absurd (hdest.symm.trans htrue) (by decide)
  | some names =>
    have hfor : sessionFor l e = lastSession names + 1 := by
      simp [sessionFor, hdest, hnames]
    rw [hfor] at hlast
    have hfree : Free foreign (place l.outDir) (lastSession names + 1) :=
      free_lastSession (hlisting names hnames)
    rw [startNewSession_eq hnames]
    generalize hstarted : Logger.atSession { l with sessionStartTime := e.restartNow }
      (lastSession names + 1) e.sessionNow = started
    have hdir : started.outDir = l.outDir := by rw [← hstarted]; rfl
    have hcount : started.sessionCount = lastSession names + 1 := by rw [← hstarted]; rfl
    have houtput : started.output = l.output := by rw [← hstarted]; rfl
    have hminute : started.minuteCount ≤ 99999 := by rw [← hstarted]; exact Nat.zero_le _
    have hopened : OpensFree place foreign started (openNewFile started e.sessionOpen).2 :=
      openNewFile_opensFree (by rw [hdir, hcount]; exact hfree) (by rw [hdir, hcount]; exact hlast)
    have hcount' : (openNewFile started e.sessionOpen).2.sessionCount = lastSession names + 1 := by
      rw [openNewFile_sessionCount hminute, hcount]
    have hdir' : (openNewFile started e.sessionOpen).2.outDir = l.outDir := by
      have hsettings := openNewFile_settings started e.sessionOpen
      exact (congrArg (fun p => p.2.1) hsettings).trans hdir
    have hchecked : OpensFree place foreign started
        (checkSliceTime (openNewFile started e.sessionOpen).2 e.sliceNow e.sliceOpen).2 := by
      apply hopened.trans
      apply checkSliceTime_opensFree
      · rw [hdir', hcount']
        exact hfree
      · rw [hdir', hcount']
        exact hlast
    -- in both cases files of the new session were opened and the session did not go down
    have hends : ∀ l', OpensFree place foreign started l' →
        (∀ path ∈ l'.output.paths, path ∈ l.output.paths ∨ fileAt place path ∉ foreign) ∧
          (l'.destAvailable = true → Free foreign (place l.outDir) l'.sessionCount) := by
      intro l' h
      rw [← houtput]
      exact ⟨h.paths, fun _ => hfree.mono (fun _ hmem => hmem) (hcount ▸ h.session)⟩
    split_ifs
    · exact hends _ hchecked
    · exact hends _ hopened

/-! ### Runs -/

/-- No file of the logger was there before, and the session is free in the directory that was
scanned. -/
structure Hosted.Own (place : List Char → D) (s : Hosted D) : Prop where
  paths : ∀ path ∈ s.logger.output.paths, fileAt place path ∉ s.foreign
  free : s.logger.destAvailable = true → Free s.foreign s.scannedDir s.logger.sessionCount

/-- A frame goes to no file that was there before. -/
lemma own_frame {s : Hosted D} {e : Env} (h : s.Own place)
    (hlists : Lists place s (.frame frame e)) (hclear : Clear place s (.log (.frame frame e))) :
    Hosted.Own place { s with
      logger := processFrame s.logger frame e
      scannedDir := scannedDirAfter place s (.frame frame e) } := by
  have hpaths : ∀ {l'}, (∀ path ∈ Output.paths (Logger.output l'),
      path ∈ s.logger.output.paths ∨ fileAt place path ∉ s.foreign) →
      ∀ path ∈ l'.output.paths, fileAt place path ∉ s.foreign := by
    intro l' hl' path hmem
    rcases hl' path hmem with hold | hnew
    · exact h.paths path hold
    · exact hnew
  cases hdest : s.logger.destAvailable with
  | false =>
    obtain ⟨hopened, hfree⟩ := @processFrame_starts _ _ _ _ _ frame e hdest hlists hclear.2
    refine ⟨hpaths hopened, ?_⟩
    simpa [scannedDirAfter, hdest] using hfree
  | true =>
    have hfree : Free s.foreign (place s.logger.outDir) s.logger.sessionCount := by
      by_cases hdir : place s.logger.outDir = s.scannedDir
      · rw [hdir]
        exact h.free hdest
      · exact hclear.1 hdest hdir
    have hlast := hclear.2
    unfold sessionFor at hlast
    rw [if_pos hdest] at hlast
    have hopens := @processFrame_opensFree _ _ _ _ _ frame e hdest hfree hlast
    refine ⟨hpaths hopens.paths, fun _ => ?_⟩
    simp only [scannedDirAfter, hdest, if_true]
    exact (h.free hdest).mono (fun _ hmem => hmem) hopens.session

/-- No step writes to a file that was there before. -/
lemma own_step {s s' : Hosted D} {a : HostedAction D} (h : s.Own place) (hclear : Clear place s a)
    (hstep : hostedStep place s a = some s') : s'.Own place := by
  cases a with
  | remove file =>
    cases hstep
    have hsub : ∀ f ∈ s.foreign.filter (· ≠ file), f ∈ s.foreign := fun f hf => mem_of_mem_filter hf
    exact ⟨fun path hpath hmem => h.paths path hpath (hsub _ hmem),
      fun hdest => (h.free hdest).mono hsub (le_refl _)⟩
  | log a =>
    simp only [hostedStep] at hstep
    split_ifs at hstep with hlists
    obtain ⟨l, hl, rfl⟩ := map_eq_some_iff.mp hstep
    unfold step at hl
    split_ifs at hl
    cases hl
    cases a with
    | frame frame e => exact own_frame h hlists hclear
    | updateDir dir | updateSliceDuration slice => exact ⟨h.paths, h.free⟩
    | destroy =>
      refine ⟨fun path hmem => ?_, h.free⟩
      simp only [closeCurrentFile_paths] at hmem
      exact h.paths path hmem

/-- As long as the directory in use is the one that was scanned or is free for the session, and
there is no file of session 9999 in session 9998, every file of the logger is one that it created,
whatever directories the texts name. -/
theorem files_notForeign_of_reaches (place : List Char → D) (outDir : List Char)
    (sliceDuration pollPeriod : Nat) (foreign : List (File D)) {s : Hosted D}
    (h : ((hosted place outDir sliceDuration pollPeriod foreign).restrict
      (Clear place)).Reaches s) :
    ∀ file ∈ s.logger.files, fileAt place file.1 ∉ s.foreign := by
  have hown : s.Own place := by
    refine h.invariant_restrict (Hosted.Own place) ?_
      fun s a s' hs hclear hstep => own_step hs hclear hstep
    exact ⟨fun _ hmem => absurd hmem not_mem_nil, fun hfalse => absurd hfalse Bool.false_ne_true⟩
  intro file hfile
  apply hown.paths
  rw [← paths_files]
  exact List.mem_map_of_mem hfile

/-- A frame at a time in seconds. -/
def frameListing (seconds : Int) (names : List String) : HostedAction (List (List Char)) :=
  .log (frameAt names seconds [1] true)

/-- The directory has a file of session 3, and another directory, set later, one of session 2. A
directory is known by the names in its text. -/
theorem files_notForeign_of_reaches_twoDirs :
    ∃ s, ((hosted Lib.names "/a".toList 5 30 [(["a".toList], "0003-00005.sbp".toList),
        (["b".toList], "0002-00010.sbp".toList)]).restrict (Clear Lib.names)).Reaches s ∧
      s.logger.files = [("/a/0004-00000.sbp".toList, [[1]]), ("/b//0004-00010.sbp".toList, [[1]])] ∧
      ∀ file ∈ s.logger.files, fileAt Lib.names file.1 ∉ s.foreign :=
  Machine.exists_reaches_and_of_run [frameListing 1 ["0003-00005.sbp"],
    .log (.updateDir "/b/".toList), frameListing 610 ["0002-00010.sbp"]] (by decide +kernel)
    fun _ hs _ => files_notForeign_of_reaches _ _ _ _ _ hs

/-- After a change of directory in the middle of session 1, the rollover opens a file of session 1
that was there before. -/
theorem files_foreign_afterUpdateDir : ∃ s, (hosted Lib.names "/a/".toList 5 30
        [(["b".toList], "0001-00010.sbp".toList)]).Reaches s ∧
      ∃ file ∈ s.logger.files, fileAt Lib.names file.1 ∈ s.foreign :=
  Machine.exists_reaches_of_run [frameListing 1 [], .log (.updateDir "/b/".toList),
    frameListing 610 ["0001-00010.sbp"]] (by decide +kernel)

end PiksiBuildroot.FileLogger
