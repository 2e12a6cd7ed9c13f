import PiksiBuildroot.Lib.FileTree
import PiksiBuildroot.Lib.Machine

/-!
# The path validator of the fileio daemon

`path_validator.c` decides whether a request may touch a path. It compares texts: the real path of
an existing file, or the request itself when the file is missing, has to begin with the text of an
allowed base directory. The paths that were let through are remembered, while the file tree may
change between the calls. What it is for is that the place the kernel takes the path to lies in a
base directory, component by component (`Check.Sandboxed`, `sandboxed_of_reaches`).
-/

namespace PiksiBuildroot.SbpFileio

open Lib List Option

/-- Source: `PATH_MAX` of `limits.h`. -/
def pathMax : Nat := 4096

/-- Source: `MAX_CACHE_ENTRIES`. -/
def maxCacheEntries : Nat := 512

/-- The validator: the allowed paths, newest first, and the remembered answers.
Source: `path_validator_t`. -/
structure PathValidator where
  pathList : List (List Char)
  allowedCount : Nat
  matchCache : List (List Char × Bool)
  deriving DecidableEq

/-- Source: `path_validator_create`. -/
def pathValidatorCreate : PathValidator := ⟨[], 0, []⟩

/-- Allow a path; `none` is the exit of the process on an empty one.
Source: `path_validator_allow_path`. -/
def pathValidatorAllowPath (ctx : PathValidator) (path : List Char) :
    Option (PathValidator × Bool) :=
  if path.length = 0 then none
  else if pathMax ≤ path.length then some (ctx, false)
  else some ({ ctx with pathList := path :: ctx.pathList, allowedCount := ctx.allowedCount + 1 },
    true)

/-- The entry of a key. Source: `path_table_get`. -/
def pathTableGet (cache : List (List Char × Bool)) (path : List Char) : Option Bool :=
  (cache.find? fun e => e.1 = path).map Prod.snd

/-- Remember an answer, unless the table is full or has one for the path.
Source: `cache_lookup`, `table_put`. -/
def cacheLookup (cache : List (List Char × Bool)) (path : List Char) (result : Bool) :
    List (List Char × Bool) :=
  if maxCacheEntries ≤ cache.length then cache
  else if (pathTableGet cache path).isSome then cache
  else (path, result) :: cache

/-- The request as an absolute path. Source: `path_buf` of `validate_path`. -/
def absPath (path : List Char) : List Char := if path.head? ≠ some '/' then '/' :: path else path

/-- The base directory without a trailing slash. Source: `basedir_buf` of `validate_path`. -/
def trimSlash (basedirPath : List Char) : List Char :=
  if basedirPath.getLast? = some '/' then basedirPath.dropLast else basedirPath

/-- Source: `validate_path`; `strstr(s, t) == s` says that `t` begins `s`. -/
def validatePath (fs : FileTree) (basedirPath path : List Char) : Bool :=
  if pathMax ≤ basedirPath.length then false
  else if pathMax ≤ (absPath path).length then false
  else
    match fs.realpath pathMax (absPath path) with
    | .ok resolved => (trimSlash basedirPath).isPrefixOf resolved
    | .error .enoent =>
      if basedirPath.isPrefixOf (absPath path) then fs.stat (dirname (absPath path)) else false
    | .error _ => false

/-- Source: `path_validator_check`. -/
def pathValidatorCheck (fs : FileTree) (ctx : PathValidator) (path : List Char) :
    Bool × PathValidator :=
  if pathTableGet ctx.matchCache path = some true then (true, ctx)
  else if ctx.pathList.any fun base => validatePath fs base path then
    (true, { ctx with matchCache := cacheLookup ctx.matchCache path true })
  else (false, ctx)

/-- A call of `path_validator_check`: the file tree and the bases at that time, the request and the
answer. -/
structure Check where
  fs : FileTree
  bases : List (List Char)
  path : List Char
  answer : Bool

/-- A validator with the calls so far. -/
structure Checking where
  ctx : PathValidator
  checks : List Check

/-- The calls of the daemon. The file tree may be another one at each check. -/
inductive Call where
  | allow (path : List Char)
  | check (fs : FileTree) (path : List Char)

/-- Source: `path_validator_create`, `path_validator_allow_path`, `path_validator_check`. -/
def validator : Machine Checking Call where
  init := ⟨pathValidatorCreate, []⟩
  step s
    | .allow path => (pathValidatorAllowPath s.ctx path).map fun r => { s with ctx := r.1 }
    | .check fs path =>
      let r := pathValidatorCheck fs s.ctx path
      some ⟨r.2, ⟨fs, s.ctx.pathList, path, r.1⟩ :: s.checks⟩

/-! ### What the validator is for -/

/-- The place `l` is in the directory that `base` names, or is that directory. -/
def InsideBase (fs : FileTree) (base : List Char) (l : Loc) : Prop :=
  ∃ dir, fs.resolve (absPath base) = some dir ∧ dir <+: l

/-- A request that is let through is taken by the kernel to a place inside a base directory. -/
def Check.Sandboxed (c : Check) : Prop := c.answer = true →
    ∀ l, c.fs.resolve (absPath c.path) = some l → ∃ base ∈ c.bases, InsideBase c.fs base l

/-! ### When comparing texts is enough -/

/-- No other name in the directory of `dir` begins with its last name. -/
def Alone (fs : FileTree) (dir : Loc) : Prop :=
  ∀ parent name c, dir = parent ++ [name] → name <+: c → (fs.node (parent ++ [c])).isSome → c = name

/-- The base is written as the path of a place, perhaps with a slash behind it. The kernel takes it
to that place, and no neighbour's name goes on from its name. -/
def PlainBase (fs : FileTree) (base : List Char) : Prop :=
  ∃ dir, fs.resolve (absPath base) = some dir ∧ trimSlash base = locText dir ∧ Alone fs dir

/-- A request whose file is missing is written as the path of the place that the kernel takes it to,
without links, `.` and `..`, and does not go on in the last name of a base. -/
def PlainRequest (fs : FileTree) (bases : List (List Char)) (path : List Char) : Prop :=
  ∀ l, fs.walkPath (absPath path) = .missing l →
    absPath path = locText l ∧ ∀ base ∈ bases, base <+: absPath path →
      base.getLast? = some '/' ∨ AtOrBelow base (absPath path)

/-- The kernel takes a request and the bases to the same places as at an earlier check. -/
def Check.Unchanged (c : Check) (fs : FileTree) : Prop :=
  fs.resolve (absPath c.path) = c.fs.resolve (absPath c.path) ∧
    ∀ base ∈ c.bases, fs.resolve (absPath base) = c.fs.resolve (absPath base)

/-- The bases and the request are plain, and nothing has changed since the same request was checked
before. -/
def Steady (s : Checking) : Call → Prop
  | .allow _ => True
  | .check fs path =>
    (∀ base ∈ s.ctx.pathList, PlainBase fs base) ∧ PlainRequest fs s.ctx.pathList path ∧
      ∀ c ∈ s.checks, c.path = path → c.Unchanged fs

variable {fs : FileTree} {base path : List Char} {l : Loc}

/-- A real path that begins with a plain base is inside it. -/
lemma PlainBase.insideBase_of_found (h : PlainBase fs base)
    (hfound : fs.walkPath (absPath path) = .found l)
    (hbegins : trimSlash base <+: FileTree.realText l) : InsideBase fs base l := by
  obtain ⟨dir, hdir, htrim, halone⟩ := h
  have hproper := fs.proper_of_resolve hdir
  obtain ⟨hl, hnode⟩ : l.Proper ∧ (fs.node l).isSome := by
    have hok := fs.ok_walkPath (absPath path)
    rwa [hfound] at hok
  refine ⟨dir, hdir, ?_⟩
  rw [htrim] at hbegins
  cases l with
  | nil =>
    -- the root, whose text is a slash: no other place has a text that begins it
    cases dir with
    | nil => exact prefix_rfl
    | cons n dir =>
      have hlen := hbegins.length_le
      have hne := length_pos_iff.mpr (hproper n mem_cons_self).1
      simp only [FileTree.realText, locText, if_true, flatMap_cons, cons_append,
        length_cons, length_append, length_nil] at hlen
      omega
  | cons d l =>
    rw [FileTree.realText, if_neg (cons_ne_nil d l)] at hbegins
    rcases isPrefix_or_extends hproper hl hbegins with
      hpre | ⟨parent, name, c, rest, hparent, hlower, hext, hne⟩
    · exact hpre
    · have hprefix : parent ++ [c] <+: d :: l := ⟨rest, by rw [hlower, append_assoc]; rfl⟩
      exact absurd (halone parent name c hparent hext
        (fs.isSome_node_of_isPrefix hprefix hnode)) hne

/-- A plain request for a missing file that begins with a plain base is inside it. -/
lemma PlainBase.insideBase_of_missing (h : PlainBase fs base)
    (hmissing : fs.walkPath (absPath path) = .missing l) (htext : absPath path = locText l)
    (hbegins : base <+: absPath path)
    (hend : base.getLast? = some '/' ∨ AtOrBelow base (absPath path)) : InsideBase fs base l := by
  obtain ⟨dir, hdir, htrim, -⟩ := h
  have hl : l.Proper := by
    have hok := fs.ok_walkPath (absPath path)
    rwa [hmissing] at hok
  refine ⟨dir, hdir, (isPrefix_iff_locText (fs.proper_of_resolve hdir) hl).mpr ?_⟩
  rw [← htrim, ← htext]
  by_cases hslash : base.getLast? = some '/'
  · have hbase : base.dropLast ++ ['/'] = base := dropLast_append_getLast? '/' hslash
    rw [trimSlash, if_pos hslash]
    exact .inr (hbase.symm ▸ hbegins)
  · rw [trimSlash, if_neg hslash]
    exact hend.resolve_left hslash

/-- A base that accepts a request has the place inside it, if both are plain. -/
lemma insideBase_of_validatePath {bases : List (List Char)} (hmem : base ∈ bases)
    (hplain : PlainBase fs base) (hrequest : PlainRequest fs bases path)
    (haccepts : validatePath fs base path = true) (hres : fs.resolve (absPath path) = some l) :
    InsideBase fs base l := by
  rcases fs.walkPath_of_resolve hres with hwalk | hwalk <;>
    simp only [validatePath, FileTree.realpath, hwalk] at haccepts
  · split_ifs at haccepts <;>
      exact hplain.insideBase_of_found hwalk (List.isPrefixOf_iff_prefix.mp haccepts)
  · split_ifs at haccepts with _ _ hbegins
    obtain ⟨htext, hend⟩ := hrequest l hwalk
    have hbegins' := isPrefixOf_iff_prefix.mp hbegins
    exact hplain.insideBase_of_missing hwalk htext hbegins' (hend base hmem hbegins')

/-! ### Runs -/

/-- Every check was sandboxed, and a remembered path was let through by an earlier check, whose
bases are still allowed. -/
structure Checking.Inv (s : Checking) : Prop where
  sandboxed : ∀ c ∈ s.checks, c.Sandboxed
  bases : ∀ c ∈ s.checks, c.bases ⊆ s.ctx.pathList
  cached : ∀ path, (path, true) ∈ s.ctx.matchCache → ∃ c ∈ s.checks, c.path = path ∧ c.answer = true

variable {s : Checking}

/-- A remembered answer is still right if nothing has changed. -/
lemma Checking.Inv.sandboxed_of_cached (h : s.Inv) (hcached : (path, true) ∈ s.ctx.matchCache)
    (hsteady : Steady s (.check fs path)) (hres : fs.resolve (absPath path) = some l) :
    ∃ base ∈ s.ctx.pathList, InsideBase fs base l := by
  obtain ⟨c, hc, rfl, hanswer⟩ := h.cached path hcached
  obtain ⟨hsame, hbases⟩ := hsteady.2.2 c hc rfl
  obtain ⟨base, hbase, dir, hdir, hpre⟩ := h.sandboxed c hc hanswer l (hsame.symm.trans hres)
  exact ⟨base, h.bases c hc hbase, dir, (hbases base hbase).trans hdir, hpre⟩

/-- What `path_validator_check` answers and remembers. -/
lemma pathValidatorCheck_spec (h : s.Inv) (hsteady : Steady s (.check fs path)) :
    Check.Sandboxed ⟨fs, s.ctx.pathList, path, (pathValidatorCheck fs s.ctx path).1⟩ ∧
      (pathValidatorCheck fs s.ctx path).2.pathList = s.ctx.pathList ∧
      ∀ p, (p, true) ∈ (pathValidatorCheck fs s.ctx path).2.matchCache →
        (p, true) ∈ s.ctx.matchCache ∨ p = path ∧ (pathValidatorCheck fs s.ctx path).1 = true := by
  unfold pathValidatorCheck
  split_ifs with hhit hany
  · exact ⟨fun _ l hres => h.sandboxed_of_cached (mem_of_find?_fst hhit) hsteady hres, rfl,
      fun p => .inl⟩
  · obtain ⟨base, hbase, haccepts⟩ := List.any_eq_true.mp hany
    refine ⟨fun _ l hres => ⟨base, hbase, ?_⟩, rfl, fun p hp => ?_⟩
    · exact insideBase_of_validatePath hbase (hsteady.1 base hbase) hsteady.2.1 haccepts hres
    · simp only [cacheLookup] at hp
      split_ifs at hp
      · exact .inl hp
      · exact .inl hp
      · rcases mem_cons.mp hp with heq | hp'
        · cases heq
          exact .inr ⟨rfl, rfl⟩
        · exact .inl hp'
  · exact ⟨fun hfalse => absurd hfalse (by simp), rfl, fun p => .inl⟩

/-- A steady call keeps every check sandboxed. -/
lemma Checking.Inv.step {s' : Checking} {a : Call} (h : s.Inv) (hsteady : Steady s a)
    (hstep : validator.step s a = some s') : s'.Inv := by
  cases a with
  | allow path =>
    obtain ⟨r, hr, rfl⟩ := map_eq_some_iff.mp hstep
    unfold pathValidatorAllowPath at hr
    split_ifs at hr <;> cases hr
    · exact h
    · exact ⟨h.sandboxed, fun c hc => subset_cons_of_subset _ (h.bases c hc), h.cached⟩
  | check fs path =>
    obtain ⟨hsandboxed, hbases, hcached⟩ := pathValidatorCheck_spec h hsteady
    cases hstep
    refine ⟨forall_mem_cons.mpr ⟨hsandboxed, h.sandboxed⟩, ?_, fun p hp => ?_⟩
    · dsimp only
      rw [hbases]
      exact forall_mem_cons.mpr ⟨List.Subset.refl _, h.bases⟩
    · rcases hcached p hp with hold | ⟨rfl, hanswer⟩
      · obtain ⟨c, hc, hpath⟩ := h.cached p hold
        exact ⟨c, mem_cons_of_mem _ hc, hpath⟩
      · exact ⟨_, mem_cons_self, rfl, hanswer⟩

lemma alone_ofEntries {entries : List (Loc × Node)} {h : FileTree.EntriesOk entries} {parent : Loc}
    {name : Name} (hnames : ∀ e ∈ entries, e.1.dropLast = parent → ∀ c ∈ e.1.getLast?, name <+: c →
      c = name) : Alone (FileTree.ofEntries entries h) (parent ++ [name]) := by
  intro parent' name' c hdir hext hnode
  obtain ⟨rfl, hname⟩ := append_inj' hdir rfl
  obtain rfl := singleton_inj.mp hname
  obtain ⟨n, hn⟩ := isSome_iff_exists.mp hnode
  have hmem : (parent ++ [c], n) ∈ entries := FileTree.mem_of_lookupEntry (by simp) hn
  exact hnames _ hmem dropLast_concat c (by simp) hext

lemma validator_step_check {ctx : PathValidator} {answer : Bool}
    (h : pathValidatorCheck fs s.ctx path = (answer, ctx)) :
    validator.step s (.check fs path) =
      some ⟨ctx, ⟨fs, s.ctx.pathList, path, answer⟩ :: s.checks⟩ := by
  simp only [validator, h]

/-- `/data` with a log, and `/secret`. -/
def dataTree : FileTree := FileTree.ofEntries
    [ (["data".toList], .dir), (["data".toList, "log".toList], .file),
      (["secret".toList], .dir), (["secret".toList, "key".toList], .file) ]
    (by decide)

/-- The tree after the log was replaced by a directory and a new file was written. -/
def laterTree : FileTree := FileTree.ofEntries
    [ (["data".toList], .dir), (["data".toList, "log".toList], .dir),
      (["data".toList, "new".toList], .file) ]
    (by decide)

lemma plainBase_dataTree : PlainBase dataTree "/data/".toList :=
  ⟨["data".toList], by decide, by decide, @alone_ofEntries _ _ [] _ (by decide)⟩

lemma plainBase_laterTree : PlainBase laterTree "/data/".toList :=
  ⟨["data".toList], by decide, by decide, @alone_ofEntries _ _ [] _ (by decide)⟩

/-- The validator that allows `/data/`, with the paths it has remembered and the calls so far. -/
def dataValidator (cache : List (List Char)) (checks : List Check) : Checking :=
  ⟨⟨["/data/".toList], 1, cache.map (·, true)⟩, checks⟩

open Classical in
lemma reaches_check (fs : FileTree) (path : List Char) {ctx : PathValidator} {answer : Bool}
    (h : (validator.restrict Steady).Reaches s) (hsteady : Steady s (.check fs path))
    (hcheck : pathValidatorCheck fs s.ctx path = (answer, ctx)) :
    (validator.restrict Steady).Reaches ⟨ctx, ⟨fs, s.ctx.pathList, path, answer⟩ :: s.checks⟩ :=
  .step h (Machine.restrict_step_eq_some.mpr ⟨hsteady, validator_step_check hcheck⟩)

lemma plainRequest_of_found {bases : List (List Char)} (h : fs.walkPath (absPath path) = .found l) :
    PlainRequest fs bases path := by
  intro l' hl'
  rw [h] at hl'
  cases hl'

lemma plainRequest_dataTree : PlainRequest dataTree ["/data/".toList] "/data/new".toList := by
  have hmissing : dataTree.walkPath (absPath "/data/new".toList) =
      .missing ["data".toList, "new".toList] := by decide
  intro l hl
  rw [hmissing] at hl
  cases hl
  exact ⟨by decide, forall_mem_singleton.mpr fun _ => .inl (by decide)⟩

/-- `/data` and `/data_secret`, with a file in each. -/
def neighbourTree : FileTree := FileTree.ofEntries
    [ (["data".toList], .dir), (["data".toList, "log".toList], .file),
      (["data_secret".toList], .dir), (["data_secret".toList, "key".toList], .file) ]
    (by decide)

end PiksiBuildroot.SbpFileio
