import Mathlib.Data.List.Nodup
import PiksiBuildroot.Lib.FileTree
import PiksiBuildroot.Lib.JsonTree
import PiksiBuildroot.Lib.Machine

/-!
# The JSON tree of the metrics daemon

The daemon walks the metrics directory and gives each directory and file a node in a JSON tree. The
place of a node is found by going through the text of its path: `loop_through_folder_name` looks for
a component that begins with the name of the metrics directory, and goes down in the tree from
there. A JSON tree shows a directory tree (`Shows`) if there is an object for each directory and a
value for each file, under the name of the metrics directory, and nothing else. A walk keeps this
(`shows_walk`), if the component that is found is the metrics directory itself
(`mirrors_of_reaches_iff`).
-/

namespace PiksiBuildroot.MetricsDaemon

open Function Lib List Option

/-! ### Paths as text -/

/-- The text from a component on. -/
def slashText : List Name → List Char
  | [] => []
  | [c] => c
  | c :: rest => c ++ '/' :: slashText rest

/-- The text after the last slash. Source: `extract_filename`. -/
def extractFilename (t : List Char) : Name := (pieces t).getLastD []

/-- An absolute path without a trailing slash. -/
structure MetricsPath where
  text : List Char
  absolute : text.head? = some '/'
  noTrailingSlash : text.getLast? ≠ some '/'

/-- Source: `root_name`. -/
def MetricsPath.rootName (path : MetricsPath) : Name := extractFilename path.text

/-- The components above the metrics directory. -/
def MetricsPath.above (path : MetricsPath) : List Name := (pieces path.text).dropLast

/-! ### The walk -/

/-- A JSON tree over names. -/
abbrev Tree := Json Name

/-- Go down from a node as far as the components are in the tree; the last component is not looked
for. Source: the loop of `loop_through_folder_name` once the root is found. -/
def descend (json : Tree) (cur : Loc) : List Name → Loc
  | c :: c' :: rest =>
    if (json.nodeAt (cur ++ [c])).isSome then descend json (cur ++ [c]) (c' :: rest) else cur
  | _ => cur

/-- Look for a component at which the text begins with the name of the root. `strncmp` compares with
the text, whatever component it is in. Source: the loop of `loop_through_folder_name` until the root
is found. -/
def findRoot (json : Tree) (root : Name) : List Name → Loc
  | c :: c' :: rest =>
    -- the component is looked at again once it was found
    if root.isPrefixOf (slashText (c :: c' :: rest)) then descend json [] (c :: c' :: rest)
    else findRoot json root (c' :: rest)
  | _ => []

/-- The node that a path leads to, by its place in the tree. Source: `loop_through_folder_name`. -/
def loopThroughFolderName (json : Tree) (processPath : List Char) (root : Name) : Loc :=
  findRoot json root (pieces processPath)

/-- What `ftw` says about an entry; for a file, whether it has no more than one byte or 65 and more,
in which case its node becomes null. -/
inductive Flag
  | dir
  | file (empty : Bool)
  deriving DecidableEq

/-- Source: the static variables `jobj_root` and `first_folder`. -/
structure Daemon where
  json : Tree
  firstFolder : Bool

/-- The change of the tree at the node found. Source: the `switch` of `handle_walk_path`. -/
def updateNode (json : Tree) (node : Loc) (name : Name) : Flag → Tree
  | .dir =>
    match json.nodeAt (node ++ [name]) with
    | some _ => json
    | none => json.addAt node name (.object [])
  | .file empty =>
    match json.nodeAt (node ++ [name]) with
    | some _ => if empty then json.addAt node name .value else json
    | none => json.addAt node name .value

/-- Source: `handle_walk_path`. -/
def handleWalkPath (root : Name) (d : Daemon) (fpath : List Char) (flag : Flag) : Daemon :=
  if d.firstFolder then { d with firstFolder := false }
  else
    let node := loopThroughFolderName d.json fpath root
    { d with json := updateNode d.json node (extractFilename fpath) flag }

/-- An entry of the directory tree, by its place below the metrics directory. -/
structure Entry where
  loc : Loc
  flag : Flag
  deriving DecidableEq

/-- A walk: the metrics directory itself, and then the entries below it. Source:
`write_metrics_to_file`. -/
def writeMetricsToFile (path : MetricsPath) (json : Tree) (entries : List Entry) : Tree :=
  (((⟨[], .dir⟩ : Entry) :: entries).foldl
    (fun d e => handleWalkPath path.rootName d (path.text ++ locText e.loc) e.flag)
    { json := json, firstFolder := true }).json

/-- Source: `init_json_object`. -/
def initJsonObject (name : Name) : Tree := .object [(name, .object [])]

/-! ### Directory trees -/

/-- Whether the entry is a directory. -/
def Entry.isDir (e : Entry) : Bool := e.flag == .dir

/-- The entries come after their directories and have proper names; `dirs` are the directories
visited before. -/
def preOrder (dirs : List Loc) : List Entry → Bool
  | [] => true
  | e :: rest =>
    e.loc.getLast?.any (fun c => decide (IsEntryName c)) && dirs.contains e.loc.dropLast &&
      preOrder (if e.isDir then e.loc :: dirs else dirs) rest

/-- The entries of a directory tree in the order of a walk. -/
def IsWalk (entries : List Entry) : Prop :=
  (entries.map Entry.loc).Nodup ∧ preOrder [[]] entries = true

/-- Entries have only been added. -/
def Grows (old new : List Entry) : Prop :=
  ∀ e ∈ old, ∃ e' ∈ new, e'.loc = e.loc ∧ e'.isDir = e.isDir

instance (entries : List Entry) : Decidable (IsWalk entries) := by
  unfold IsWalk
  infer_instance

instance (old new : List Entry) : Decidable (Grows old new) := by
  unfold Grows
  infer_instance

/-- The tree after a walk, and the entries that the walk found. -/
structure Walked where
  json : Tree
  entries : List Entry

/-- The daemon with a metrics path: each action is a walk of the directory tree as it is then. -/
def daemon (path : MetricsPath) : Machine Walked (List Entry) where
  init := { json := initJsonObject path.rootName, entries := [] }
  step s entries := if IsWalk entries ∧ Grows s.entries entries then
      some { json := writeMetricsToFile path s.json entries, entries := entries }
    else none

/-- Every entry has a node at its place under the node of the metrics directory, and there is no
other node. -/
def Mirrors (path : MetricsPath) (s : Walked) : Prop :=
  (∀ e ∈ s.entries, (s.json.nodeAt (path.rootName :: e.loc)).isSome) ∧
    ∀ q, (s.json.nodeAt q).isSome →
      q = [] ∨ ∃ l, q = path.rootName :: l ∧ (l = [] ∨ l ∈ s.entries.map Entry.loc)

/-! ### Finding the node of a path -/

variable {l : Loc} {c : Name} {rest : List Name}

lemma pieces_locText (t : List Char) (hl : l.Proper) : pieces (t ++ locText l) = pieces t ++ l := by
  induction l generalizing t with
  | nil => simp [locText]
  | cons c l ih =>
    have hc := hl c mem_cons_self
    have htext : t ++ locText (c :: l) = (t ++ '/' :: c) ++ locText l := by simp [locText]
    rw [htext, ih _ fun d hd => hl d (mem_cons_of_mem _ hd), pieces_append_slash,
      pieces_of_not_mem hc.2]
    simp

lemma MetricsPath.pieces_eq (path : MetricsPath) :
    pieces path.text = path.above ++ [path.rootName] ∧ path.rootName ≠ [] ∧
      '/' ∉ path.rootName := by
  obtain ⟨dir, w, hw, hslash, htext⟩ := exists_last_name path.absolute path.noTrailingSlash
  have hpieces : pieces path.text = pieces dir ++ [w] := by
    rw [htext, pieces_append_slash, pieces_of_not_mem hslash]
  have hname : path.rootName = w := by
    simp [MetricsPath.rootName, extractFilename, hpieces]
  have habove : path.above = pieces dir := by
    simp [MetricsPath.above, hpieces]
  rw [hname, habove]
  exact ⟨hpieces, hw, hslash⟩

/-- A name is the beginning of a text exactly if it is that of the first component. -/
lemma prefix_append_slash {root c t : List Char} (hroot : '/' ∉ root) :
    root <+: c ++ '/' :: t ↔ root <+: c := by
  induction root generalizing c with
  | nil => simp
  | cons ch root ih =>
    rw [mem_cons, not_or] at hroot
    cases c with
    | nil => simp [cons_prefix_cons, Ne.symm hroot.1]
    | cons ch' c => rw [cons_append, cons_prefix_cons, cons_prefix_cons, ih hroot.2]

section find

variable {json : Tree} {root : Name} (hroot : '/' ∉ root)

include hroot

lemma findRoot_cons (hrest : rest ≠ []) : findRoot json root (c :: rest) =
      if root <+: c then descend json [] (c :: rest) else findRoot json root rest := by
  obtain ⟨c', rest, rfl⟩ := exists_cons_of_ne_nil hrest
  simp only [findRoot, slashText, isPrefixOf_iff_prefix, prefix_append_slash hroot]

/-- Components that do not begin with the name of the root are passed over. -/
lemma findRoot_append {skipped rest : List Name} (hskipped : ∀ a ∈ skipped, ¬ root <+: a)
    (hrest : rest ≠ []) : findRoot json root (skipped ++ rest) = findRoot json root rest := by
  induction skipped with
  | nil => rfl
  | cons a skipped ih =>
    rw [cons_append, findRoot_cons hroot (by simp [hrest]), if_neg (hskipped a mem_cons_self)]
    exact ih fun b hb => hskipped b (mem_cons_of_mem _ hb)

end find

variable {json : Tree}

/-- Going down along a path that is in the tree ends before its last component. -/
lemma descend_append {cur l : Loc} {last : Name} (hl : (json.nodeAt (cur ++ l)).isSome) :
    descend json cur (l ++ [last]) = cur ++ l := by
  induction l generalizing cur with
  | nil => simp [descend]
  | cons c l ih =>
    have hassoc : cur ++ c :: l = (cur ++ [c]) ++ l := by simp
    rw [hassoc] at hl
    have hc : (json.nodeAt (cur ++ [c])).isSome := by
      rw [Json.nodeAt_append] at hl
      cases hnode : json.nodeAt (cur ++ [c]) with
      | none => simp [hnode] at hl
      | some node => rfl
    obtain ⟨c', rest, hrest⟩ := exists_cons_of_ne_nil
      (append_ne_nil_of_right_ne_nil l (cons_ne_nil last []))
    rw [cons_append, hrest, descend, if_pos hc, ← hrest, ih hl, hassoc]

/-- A component that is not in the tree ends the way down. -/
lemma descend_missing {cur : Loc} (hc : json.nodeAt (cur ++ [c]) = none) :
    descend json cur (c :: rest) = cur := by
  cases rest with
  | nil => rfl
  | cons c' rest => simp [descend, hc]

lemma loopThroughFolderName_eq (json : Tree) (path : MetricsPath) (hl : l.Proper) :
    loopThroughFolderName json (path.text ++ locText l) path.rootName =
      findRoot json path.rootName (path.above ++ path.rootName :: l) := by
  rw [loopThroughFolderName, pieces_locText _ hl, path.pieces_eq.1, append_assoc]
  rfl

lemma extractFilename_eq (path : MetricsPath) (hl : (l ++ [c]).Proper) :
    extractFilename (path.text ++ locText (l ++ [c])) = c := by
  rw [extractFilename, pieces_locText _ hl, ← append_assoc]
  simp

/-- No directory above the metrics directory has a name that begins with its own. -/
def MetricsPath.Clear (path : MetricsPath) : Prop := ∀ a ∈ path.above, ¬ path.rootName <+: a

instance (path : MetricsPath) : Decidable path.Clear := by
  unfold MetricsPath.Clear
  infer_instance

/-- Source: `METRICS_ROOT_DIRECTORY`. -/
def metricsRootDirectory : MetricsPath := ⟨"/var/log/metrics".toList, by decide, by decide⟩

example : metricsRootDirectory.Clear := by decide

variable {path : MetricsPath}

/-- The node that is found is that of the directory of the entry. -/
lemma loopThroughFolderName_of_clear (hclear : path.Clear) (hl : (l ++ [c]).Proper)
    (hnode : (json.nodeAt (path.rootName :: l)).isSome) :
    loopThroughFolderName json (path.text ++ locText (l ++ [c])) path.rootName =
      path.rootName :: l := by
  have hroot := path.pieces_eq.2.2
  rw [loopThroughFolderName_eq json path hl,
    findRoot_append hroot hclear (cons_ne_nil _ _), findRoot_cons hroot (by simp),
    if_pos (prefix_refl _)]
  exact @descend_append json [] (path.rootName :: l) c hnode

/-! ### What a walk does to the tree -/

/-- The tree has an object for each directory and a value for each file of `dirs`, which says of a
place whether it is a directory, under the name of the root, and nothing else. -/
structure Shows (root : Name) (json : Tree) (dirs : Loc → Option Bool) : Prop where
  object : json.isObject = true
  below : ∀ l, (json.nodeAt (root :: l)).map Json.isObject = dirs l
  other : ∀ k q, k ≠ root → json.nodeAt (k :: q) = none

variable {root : Name} {dirs : Loc → Option Bool}

lemma Shows.isSome (h : Shows root json dirs) (l : Loc) :
    (json.nodeAt (root :: l)).isSome = (dirs l).isSome := by
  rw [← h.below l, isSome_map]

/-- Below a node that is not an object there is nothing. -/
lemma Shows.below_eq_none (h : Shows root json dirs) (hl : dirs l ≠ some true) (c : Name)
    (rest : Loc) : dirs (l ++ c :: rest) = none := by
  rw [← h.below, ← cons_append, Json.nodeAt_append]
  have hnode := h.below l
  cases hat : json.nodeAt (root :: l) with
  | none => rfl
  | some node =>
    cases node with
    | value => rfl
    | object members =>
      rw [hat] at hnode
      exact absurd hnode.symm hl

/-- Putting a new member without members of its own into a directory. -/
lemma shows_addAt (h : Shows root json dirs) (hdir : dirs l = some true)
    (hbelow : dirs (l ++ [c]) ≠ some true) (new : Tree) (hnew : ∀ k q, new.nodeAt (k :: q) = none) :
    Shows root (json.addAt (root :: l) c new)
      (update dirs (l ++ [c]) (some new.isObject)) := by
  have hat := h.below l
  rw [hdir] at hat
  obtain ⟨node, hnode, hobject⟩ := map_eq_some_iff.mp hat
  have hadd := Json.nodeAt_addAt hnode hobject c new
  refine ⟨(Json.isObject_addAt _ _ _ _).trans h.object, fun q => ?_, fun k q hk => ?_⟩
  · by_cases hq : ∃ rest, q = l ++ c :: rest
    · obtain ⟨rest, rfl⟩ := hq
      rw [(hadd (root :: (l ++ c :: rest))).1 rest rfl]
      cases rest with
      | nil => simp [Json.nodeAt]
      | cons k rest =>
        have hne : l ++ c :: k :: rest ≠ l ++ [c] := by simp
        have hnone := h.below_eq_none hbelow k rest
        rw [append_assoc] at hnone
        rw [update_of_ne hne, hnew k rest]
        exact hnone.symm
    · have hne : q ≠ l ++ [c] := fun heq => hq ⟨[], heq⟩
      rw [update_of_ne hne, ← h.below q]
      refine (hadd (root :: q)).2 fun rest heq => hq ⟨rest, ?_⟩
      exact (cons.inj heq).2
  · have hother := (hadd (k :: q)).2 fun rest heq => hk (cons.inj heq).1
    rw [h.other k q hk] at hother
    exact map_eq_none_iff.mp hother

/-- An entry whose directory is in the tree is put into it. -/
lemma shows_updateNode (h : Shows root json dirs) (hdir : dirs l = some true) {flag : Flag}
    (hold : dirs (l ++ [c]) = none ∨ dirs (l ++ [c]) = some (flag == .dir)) :
    Shows root (updateNode json (root :: l) c flag)
      (update dirs (l ++ [c]) (some (flag == .dir))) := by
  have hat := h.below (l ++ [c])
  rw [← cons_append] at hat
  have hkeep : ∀ {b : Bool}, dirs (l ++ [c]) = some b → update dirs (l ++ [c]) (some b) = dirs := by
    intro b hb
    rw [← hb, update_eq_self]
  cases flag with
  | dir =>
    simp only [updateNode]
    split
    · next node hnode =>
        rw [hnode] at hat
        rcases hold with hold | hold
        · simp [hold] at hat
        · rw [hkeep hold]
          exact h
    · next hnode =>
        rw [hnode] at hat
        exact shows_addAt h hdir (by rw [← hat]; simp) (.object []) fun k q => rfl
  | file empty =>
    have hvalue : dirs (l ++ [c]) ≠ some true := by
      rcases hold with hold | hold <;> rw [hold] <;> simp
    have hadd := shows_addAt h hdir hvalue .value fun k q => rfl
    simp only [updateNode]
    split
    · next node hnode =>
        rw [hnode] at hat
        split
        · exact hadd
        · rcases hold with hold | hold
          · simp [hold] at hat
          · rw [hkeep hold]
            exact h
    · exact hadd

/-- What the entries say about a place, over what was there before. -/
def withEntries (dirs : Loc → Option Bool) : List Entry → Loc → Option Bool
  | [] => dirs
  | e :: rest => withEntries (Function.update dirs e.loc (some e.isDir)) rest

variable {node : Loc}

lemma handleWalkPath_eq (hproper : (l ++ [c]).Proper) (json : Tree)
    (hnode : loopThroughFolderName json (path.text ++ locText (l ++ [c])) path.rootName = node)
    (flag : Flag) :
    handleWalkPath path.rootName { json := json, firstFolder := false }
        (path.text ++ locText (l ++ [c])) flag =
      { json := updateNode json node c flag, firstFolder := false } := by
  rw [handleWalkPath, if_neg Bool.false_ne_true]
  rw [hnode, extractFilename_eq path hproper]

variable {e : Entry} {entries : List Entry}

/-- An entry below a directory is put at its place in the tree. -/
lemma shows_handleWalkPath (hclear : path.Clear) (h : Shows path.rootName json dirs)
    (hloc : e.loc = l ++ [c]) (hproper : (l ++ [c]).Proper) (hdir : dirs l = some true)
    (hold : dirs e.loc = none ∨ dirs e.loc = some e.isDir) :
    ∃ json', handleWalkPath path.rootName { json := json, firstFolder := false }
        (path.text ++ locText e.loc) e.flag = { json := json', firstFolder := false } ∧
      Shows path.rootName json' (update dirs e.loc (some e.isDir)) := by
  have hnode : (json.nodeAt (path.rootName :: l)).isSome := by
    rw [h.isSome, hdir]
    rfl
  rw [hloc] at hold ⊢
  exact ⟨_, handleWalkPath_eq hproper json (loopThroughFolderName_of_clear hclear hproper hnode) _,
    shows_updateNode h hdir hold⟩

variable {visited : List Loc}

/-- The entries of a walk are put into the tree one after the other. -/
lemma shows_foldl (hclear : path.Clear) (h : Shows path.rootName json dirs)
    (hvisited : ∀ l ∈ visited, l.Proper ∧ dirs l = some true)
    (hold : ∀ e ∈ entries, dirs e.loc = none ∨ dirs e.loc = some e.isDir)
    (hnodup : (entries.map Entry.loc).Nodup) (horder : preOrder visited entries = true) :
    Shows path.rootName
      (entries.foldl
        (fun d e => handleWalkPath path.rootName d (path.text ++ locText e.loc) e.flag)
        { json := json, firstFolder := false }).json
      (withEntries dirs entries) := by
  induction entries generalizing json dirs visited with
  | nil => exact h
  | cons e rest ih =>
    simp only [preOrder, Bool.and_eq_true, contains_iff_mem, Option.any_eq_true,
      decide_eq_true_eq] at horder
    obtain ⟨⟨⟨c, hlast, hname⟩, hmem⟩, horder⟩ := horder
    obtain ⟨hparent, hdir⟩ := hvisited _ hmem
    have hloc : e.loc = e.loc.dropLast ++ [c] := (dropLast_append_getLast? c hlast).symm
    have hproper : Loc.Proper (e.loc.dropLast ++ [c]) := by
      intro k hk
      rcases mem_append.mp hk with hk | hk
      · exact hparent k hk
      · rw [mem_singleton.mp hk]
        exact ⟨hname.1, hname.2.1⟩
    have hentry := hold e mem_cons_self
    rw [map_cons, nodup_cons] at hnodup
    obtain ⟨json', hstep, hshows⟩ := shows_handleWalkPath hclear h hloc hproper hdir hentry
    rw [foldl_cons, hstep]
    refine ih hshows ?_ ?_ hnodup.2 horder
    · intro l hl
      by_cases heq : l = e.loc
      · subst heq
        refine ⟨by rw [hloc]; exact hproper, ?_⟩
        rw [update_self]
        by_cases hkind : e.isDir = true
        · rw [hkind]
        · -- a file is not at the place of a directory that was visited
          rw [if_neg hkind] at hl
          rw [(hvisited _ hl).2] at hentry
          simpa using hentry
      · rw [update_of_ne heq]
        refine hvisited l ?_
        split at hl
        · exact (mem_cons.mp hl).resolve_left heq
        · exact hl
    · intro e' he'
      have hne : e'.loc ≠ e.loc := fun heq => hnodup.1 (heq ▸ List.mem_map_of_mem he')
      rw [update_of_ne hne]
      exact hold e' (mem_cons_of_mem _ he')

/-- The metrics directory alone. -/
def rootOnly : Loc → Option Bool := fun l => if l = [] then some true else none

lemma withEntries_of_not_mem (hl : l ∉ entries.map Entry.loc) :
    withEntries dirs entries l = dirs l := by
  induction entries generalizing dirs with
  | nil => rfl
  | cons e rest ih =>
    rw [map_cons, mem_cons, not_or] at hl
    exact (ih hl.2).trans (update_of_ne hl.1 _ _)

lemma withEntries_of_mem (hnodup : (entries.map Entry.loc).Nodup) (he : e ∈ entries) :
    withEntries dirs entries e.loc = some e.isDir := by
  induction entries generalizing dirs with
  | nil => exact absurd he not_mem_nil
  | cons e' rest ih =>
    rw [map_cons, nodup_cons] at hnodup
    rcases mem_cons.mp he with rfl | he
    · exact (withEntries_of_not_mem hnodup.1).trans (update_self _ _ _)
    · exact ih hnodup.2 he

variable {old new : List Entry} {s : Walked}

/-- If entries have only been added, the entries from before make no difference. -/
lemma withEntries_of_grows (hgrows : Grows old new) (hnodup : (new.map Entry.loc).Nodup) :
    withEntries (withEntries rootOnly old) new = withEntries rootOnly new := by
  funext l
  by_cases hl : l ∈ new.map Entry.loc
  · obtain ⟨e, he, rfl⟩ := List.mem_map.mp hl
    rw [withEntries_of_mem hnodup he, withEntries_of_mem hnodup he]
  · have hl' : l ∉ old.map Entry.loc := by
      intro hmem
      obtain ⟨e, he, rfl⟩ := List.mem_map.mp hmem
      obtain ⟨e', he', hloc, -⟩ := hgrows e he
      exact hl (hloc ▸ List.mem_map_of_mem he')
    rw [withEntries_of_not_mem hl, withEntries_of_not_mem hl, withEntries_of_not_mem hl']

/-- A walk has no entry for the metrics directory itself. -/
lemma loc_ne_nil_of_preOrder (horder : preOrder visited entries = true) (he : e ∈ entries) :
    e.loc ≠ [] := by
  induction entries generalizing visited with
  | nil => exact absurd he not_mem_nil
  | cons e' rest ih =>
    simp only [preOrder, Bool.and_eq_true] at horder
    rcases mem_cons.mp he with rfl | he
    · intro hnil
      simp [hnil] at horder
    · exact ih horder.2 he

/-- A walk of the directory tree makes the JSON tree show it. -/
theorem shows_walk (hclear : path.Clear) (hold : IsWalk old)
    (h : Shows path.rootName json (withEntries rootOnly old)) (hwalk : IsWalk new)
    (hgrows : Grows old new) :
    Shows path.rootName (writeMetricsToFile path json new) (withEntries rootOnly new) := by
  rw [← withEntries_of_grows hgrows hwalk.1]
  have hroot : [] ∉ old.map Entry.loc := by
    intro hmem
    obtain ⟨e, he, hnil⟩ := List.mem_map.mp hmem
    exact loc_ne_nil_of_preOrder hold.2 he hnil
  refine shows_foldl hclear h ?_ ?_ hwalk.1 hwalk.2
  · intro l hl
    rw [mem_singleton.mp hl, withEntries_of_not_mem hroot]
    exact ⟨fun c hc => absurd hc not_mem_nil, rfl⟩
  · intro e he
    by_cases hmem : e.loc ∈ old.map Entry.loc
    · -- the entry was there before, and of the same kind
      obtain ⟨e₀, he₀, hloc₀⟩ := List.mem_map.mp hmem
      obtain ⟨e', he', hloc', hkind⟩ := hgrows e₀ he₀
      obtain rfl : e' = e := inj_on_of_nodup_map hwalk.1 he' he (hloc'.trans hloc₀)
      rw [← hloc₀, withEntries_of_mem hold.1 he₀, hkind]
      exact Or.inr rfl
    · rw [withEntries_of_not_mem hmem]
      exact Or.inl (if_neg (loc_ne_nil_of_preOrder hwalk.2 he))

lemma shows_initJsonObject (root : Name) : Shows root (initJsonObject root) rootOnly := by
  refine ⟨rfl, fun l => ?_, fun k q hk => ?_⟩
  · cases l with
    | nil => simp [initJsonObject, Json.nodeAt, Json.member, Json.lookup, rootOnly, Json.isObject]
    | cons c l => simp [initJsonObject, Json.nodeAt, Json.member, Json.lookup, rootOnly]
  · simp [initJsonObject, Json.nodeAt, Json.member, Json.lookup, Ne.symm hk]

lemma shows_of_reaches (hclear : path.Clear) (h : (daemon path).Reaches s) :
    IsWalk s.entries ∧ Shows path.rootName s.json (withEntries rootOnly s.entries) := by
  refine @Machine.Reaches.invariant _ _ _
    (fun s : Walked =>
      IsWalk s.entries ∧ Shows path.rootName s.json (withEntries rootOnly s.entries))
    ?_ ?_ s h
  · exact ⟨⟨nodup_nil, rfl⟩, shows_initJsonObject path.rootName⟩
  · rintro s s' entries ⟨hwalk, hshows⟩ hstep
    simp only [daemon, ite_none_right_eq_some, some_inj] at hstep
    obtain ⟨⟨hnew, hgrows⟩, rfl⟩ := hstep
    exact ⟨hnew, shows_walk hclear hwalk hshows hnew hgrows⟩

lemma mirrors_of_shows (hwalk : IsWalk s.entries)
    (h : Shows path.rootName s.json (withEntries rootOnly s.entries)) : Mirrors path s := by
  refine ⟨fun e he => ?_, fun q hq => ?_⟩
  · rw [h.isSome, withEntries_of_mem hwalk.1 he]
    rfl
  · cases q with
    | nil => exact Or.inl rfl
    | cons k l =>
      by_cases hk : k = path.rootName
      · subst hk
        refine Or.inr ⟨l, rfl, ?_⟩
        by_cases hl : l ∈ s.entries.map Entry.loc
        · exact Or.inr hl
        · rw [h.isSome, withEntries_of_not_mem hl, rootOnly] at hq
          by_cases hnil : l = []
          · exact Or.inl hnil
          · simp [hnil] at hq
      · rw [h.other k l hk] at hq
        cases hq

/-! ### Directories above with the name of the root -/

lemma isEntryName_cons (hc : '/' ∉ c) : IsEntryName ('x' :: c) := by
  refine ⟨cons_ne_nil _ _, ?_, ?_, ?_⟩ <;> simp [hc]

/-- The node is looked for from the first directory above that begins with the name of the root. -/
lemma exists_descend_of_not_clear (hclear : ¬ path.Clear) :
    ∃ a below, path.rootName <+: a ∧ (∀ c ∈ below, '/' ∉ c) ∧ ∀ (json : Tree) (l : Loc), l.Proper →
      loopThroughFolderName json (path.text ++ locText l) path.rootName =
        descend json [] (a :: (below ++ path.rootName :: l)) := by
  obtain ⟨hpieces, -, hroot⟩ := path.pieces_eq
  have hfound : (path.above.find? fun a => decide (path.rootName <+: a)).isSome := by
    simpa [MetricsPath.Clear] using hclear
  obtain ⟨a, ha⟩ := isSome_iff_exists.mp hfound
  obtain ⟨hbegins, skipped, below, habove, hskipped⟩ := find?_eq_some_iff_append.mp ha
  refine ⟨a, below, of_decide_eq_true hbegins, fun c hc => ?_, fun json l hl => ?_⟩
  · have hmem : c ∈ pieces path.text := by
      rw [hpieces, habove]
      simp [hc]
    exact not_mem_of_mem_pieces hmem
  · have hskip : ∀ b ∈ skipped, ¬ path.rootName <+: b := fun b hb => by
      simpa using hskipped b hb
    rw [loopThroughFolderName_eq json path hl, habove, append_assoc,
      findRoot_append hroot hskip (by simp), cons_append, findRoot_cons hroot (by simp),
      if_pos (of_decide_eq_true hbegins)]

/-- The daemon after its first walk. -/
lemma reaches_walk (path : MetricsPath) (hwalk : IsWalk entries) : (daemon path).Reaches
      { json := writeMetricsToFile path (initJsonObject path.rootName) entries,
        entries := entries } := by
  refine .step .init (a := entries) ?_
  exact if_pos ⟨hwalk, fun e he => absurd he not_mem_nil⟩

variable {x : Name}

lemma isWalk_file (hx : IsEntryName x) : IsWalk [⟨[x], .file false⟩] := by
  simp [IsWalk, preOrder, hx]

lemma isWalk_dir_file (hx : IsEntryName x) : IsWalk [⟨[x], .dir⟩, ⟨[x, x], .file false⟩] := by
  simp [IsWalk, preOrder, hx, Entry.isDir]

lemma Shows.nodeAt_eq_none (h : Shows root json dirs) (hl : dirs l = none) :
    json.nodeAt (root :: l) = none := by
  have hat := h.below l
  rw [hl] at hat
  exact map_eq_none_iff.mp hat

/-- The value of a node that is there is changed in place. -/
lemma updateNode_of_isSome {name : Name} (h : (json.nodeAt (node ++ [name])).isSome) :
    updateNode json node name (.file false) = json := by
  obtain ⟨found, hfound⟩ := isSome_iff_exists.mp h
  simp [updateNode, hfound]

section above

variable {a : Name} {below : List Name}
  (hfound : ∀ (json : Tree) (l : Loc), l.Proper →
    loopThroughFolderName json (path.text ++ locText l) path.rootName =
      descend json [] (a :: (below ++ path.rootName :: l)))

include hfound

/-- Below a directory whose name only begins with that of the metrics directory a file gets its node
in the top object. -/
lemma not_mirrors_of_ne (ha : a ≠ path.rootName) :
    ∃ s, (daemon path).Reaches s ∧ ¬ Mirrors path s := by
  have hx := isEntryName_cons path.pieces_eq.2.2
  have hinit := shows_initJsonObject path.rootName
  refine ⟨_, reaches_walk path (isWalk_file hx), fun hmirrors => ?_⟩
  have hproper : Loc.Proper ([] ++ ['x' :: path.rootName]) := by
    intro c hc
    rw [mem_singleton.mp hc]
    exact ⟨hx.1, hx.2.1⟩
  have hne : 'x' :: path.rootName ≠ path.rootName := cons_ne_self _ _
  have hwalk : writeMetricsToFile path (initJsonObject path.rootName)
      [⟨['x' :: path.rootName], .file false⟩] =
        (initJsonObject path.rootName).addAt [] ('x' :: path.rootName) .value := by
    have hstep := congrArg Daemon.json (handleWalkPath_eq hproper (initJsonObject path.rootName)
      ((hfound _ _ hproper).trans (descend_missing (hinit.other a [] ha))) (.file false))
    refine hstep.trans ?_
    simp [updateNode, hinit.other _ [] hne]
  have hnode := hmirrors.1 _ mem_cons_self
  rw [hwalk, ← isSome_map (f := Json.isObject), (Json.nodeAt_addAt rfl rfl _ _ _).2,
    hinit.nodeAt_eq_none rfl] at hnode
  · cases hnode
  · exact fun rest heq => hne (cons.inj heq).1.symm

/-- The way down from a directory with the name of the metrics directory ends at the node of the
metrics directory, as long as that has no member with the name of the next component. -/
lemma loopThroughFolderName_of_eq (ha : a = path.rootName) {b : Name}
    (hrest : below ++ path.rootName :: l = b :: rest) (hl : l.Proper)
    (h : Shows path.rootName json dirs) (hroot : dirs [] = some true) (hb : dirs [b] = none) :
    loopThroughFolderName json (path.text ++ locText l) path.rootName = [path.rootName] := by
  have hsome : (json.nodeAt [path.rootName]).isSome := by
    rw [h.isSome, hroot]
    rfl
  rw [hfound json l hl, hrest, ha, descend, nil_append, if_pos hsome]
  exact descend_missing (h.nodeAt_eq_none hb)

/-- Below a directory with the name of the metrics directory a file of a subdirectory gets no node
of its own. -/
lemma not_mirrors_of_eq (ha : a = path.rootName) (hbelow : ∀ c ∈ below, '/' ∉ c) :
    ∃ s, (daemon path).Reaches s ∧ ¬ Mirrors path s := by
  obtain ⟨b, hb, hnext⟩ : ∃ b, '/' ∉ b ∧ ∀ l, ∃ rest, below ++ path.rootName :: l = b :: rest := by
    cases below with
    | nil => exact ⟨path.rootName, path.pieces_eq.2.2, fun l => ⟨l, rfl⟩⟩
    | cons b below => exact ⟨b, hbelow b mem_cons_self, fun l => ⟨_, rfl⟩⟩
  have hx := isEntryName_cons hb
  generalize hname : 'x' :: b = x at hx
  have hne : [b] ≠ [x] := by simp [← hname]
  have hproper : ∀ {l : Loc}, (∀ c ∈ l, c = x) → l.Proper := by
    intro l hl c hc
    rw [hl c hc]
    exact ⟨hx.1, hx.2.1⟩
  have hdir : Loc.Proper ([] ++ [x]) := hproper (by simp)
  have hfile : Loc.Proper ([x] ++ [x]) := hproper (by simp)
  have hinit := shows_initJsonObject path.rootName
  have hshows : Shows path.rootName
      (updateNode (initJsonObject path.rootName) [path.rootName] x .dir)
      (update rootOnly [x] (some true)) :=
    shows_updateNode hinit rfl (Or.inl rfl)
  refine ⟨_, reaches_walk path (isWalk_dir_file hx), fun hmirrors => ?_⟩
  have hwalk : writeMetricsToFile path (initJsonObject path.rootName)
      [⟨[x], .dir⟩, ⟨[x, x], .file false⟩] =
        updateNode (initJsonObject path.rootName) [path.rootName] x .dir := by
    obtain ⟨rest, hrest⟩ := hnext [x]
    obtain ⟨rest', hrest'⟩ := hnext [x, x]
    have hstep := handleWalkPath_eq hdir _
      (loopThroughFolderName_of_eq hfound ha hrest hdir hinit rfl rfl) .dir
    have hstep' := handleWalkPath_eq hfile _
      (loopThroughFolderName_of_eq hfound ha hrest' hfile hshows rfl
        (update_of_ne hne _ _)) (.file false)
    have hsame : updateNode (updateNode (initJsonObject path.rootName) [path.rootName] x .dir)
        [path.rootName] x (.file false) =
          updateNode (initJsonObject path.rootName) [path.rootName] x .dir := by
      refine updateNode_of_isSome ?_
      rw [singleton_append, hshows.isSome, update_self]
      rfl
    refine (congrArg (fun d => (handleWalkPath path.rootName d
      (path.text ++ locText [x, x]) (.file false)).json) hstep).trans ?_
    exact (congrArg Daemon.json hstep').trans hsame
  have hlast := hmirrors.1 ⟨[x, x], .file false⟩ (by simp)
  rw [hwalk, hshows.isSome] at hlast
  simp [rootOnly] at hlast

end above

/-- The JSON tree mirrors the metrics directory after every walk exactly if no directory above it
has a name that begins with its own. -/
theorem mirrors_of_reaches_iff (path : MetricsPath) :
    (∀ s, (daemon path).Reaches s → Mirrors path s) ↔ ∀ a ∈ path.above, ¬ path.rootName <+: a := by
  constructor
  · intro h
    by_contra hclear
    obtain ⟨a, below, -, hbelow, hfound⟩ := exists_descend_of_not_clear hclear
    obtain ⟨s, hs, hnot⟩ : ∃ s, (daemon path).Reaches s ∧ ¬ Mirrors path s := by
      by_cases ha : a = path.rootName
      · exact not_mirrors_of_eq hfound ha hbelow
      · exact not_mirrors_of_ne hfound ha
    exact hnot (h s hs)
  · intro hclear s hs
    obtain ⟨hwalk, hshows⟩ := shows_of_reaches hclear hs
    exact mirrors_of_shows hwalk hshows

/-- Below a directory `metrics2` the node of a file `a` is put into the top object. -/
theorem not_mirrors_prefixAbove :
    ∃ path s, path.text = "/metrics2/metrics".toList ∧ (daemon path).Reaches s ∧
      s.entries = [⟨["a".toList], .file false⟩] ∧
      s.json.nodeAt ["metrics".toList, "a".toList] = none ∧
      (s.json.nodeAt ["a".toList]).isSome ∧ ¬ Mirrors path s := by
  let path : MetricsPath := ⟨"/metrics2/metrics".toList, by decide, by decide⟩
  obtain ⟨s, hs, hentries, hnone, hsome⟩ : ∃ s, (daemon path).Reaches s ∧
      s.entries = [⟨["a".toList], .file false⟩] ∧
      (s.json.nodeAt ["metrics".toList, "a".toList]).isNone ∧
      (s.json.nodeAt ["a".toList]).isSome :=
    Machine.exists_reaches_of_run [[⟨["a".toList], .file false⟩]] (by decide +kernel)
  rw [isNone_iff_eq_none] at hnone
  refine ⟨path, s, rfl, hs, hentries, hnone, hsome, fun hmirrors => ?_⟩
  have hnode := hmirrors.1 ⟨["a".toList], .file false⟩ (by simp [hentries])
  have hroot : path.rootName = "metrics".toList := by decide
  rw [hroot, hnone] at hnode
  exact absurd hnode Bool.false_ne_true

end PiksiBuildroot.MetricsDaemon
