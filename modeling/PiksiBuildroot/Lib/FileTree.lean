import PiksiBuildroot.Lib.Path

/-!
# File trees and path resolution

A file tree says what is at each place: a directory, a file or a symbolic link with the text of its
target. `walk` follows a path the way a kernel does: `.` stays, `..` goes up from where the walk
has come to, links are followed in place, up to a number of them, and a missing last component is
reported with the place where it would be. The place a walk comes to has proper names, and one that
is found is in the tree (`ok_walk`).
-/

namespace PiksiBuildroot.Lib

open List Option

/-- A value that is found under a key is in the list with that key. -/
lemma mem_of_find?_fst {α β : Type*} [DecidableEq α] {l : List (α × β)} {a : α} {b : β}
    (h : (l.find? fun e => e.1 = a).map Prod.snd = some b) : (a, b) ∈ l := by
  obtain ⟨⟨a', b'⟩, hfind, rfl⟩ := map_eq_some_iff.mp h
  have hkey : a' = a := by simpa using find?_some hfind
  exact hkey ▸ mem_of_find?_eq_some hfind

/-- What is at a place. -/
inductive Node where
  | dir
  | file
  | link (target : List Char)
  deriving DecidableEq

/-- A name that an entry of a directory can have. -/
def IsEntryName (c : Name) : Prop := c ≠ [] ∧ '/' ∉ c ∧ c ≠ ['.'] ∧ c ≠ ['.', '.']

instance (c : Name) : Decidable (IsEntryName c) := by
  unfold IsEntryName
  infer_instance

/-- A file tree: its root is a directory, entries are in directories and have proper names, and no
link has an empty target. -/
structure FileTree where
  node : Loc → Option Node
  root : node [] = some .dir
  parent : ∀ l c, (node (l ++ [c])).isSome → node l = some .dir
  entryName : ∀ l c, (node (l ++ [c])).isSome → IsEntryName c
  target : ∀ l t, node l = some (.link t) → t ≠ []

namespace FileTree

/-- What a list of entries says about a place; the root is always there. -/
def lookupEntry (entries : List (Loc × Node)) (l : Loc) : Option Node :=
  if l = [] then some .dir else (entries.find? fun e => e.1 = l).map Prod.snd

/-- The entries of a tree: each has a proper name and is in a directory. -/
def EntriesOk (entries : List (Loc × Node)) : Prop :=
  ∀ e ∈ entries, (∃ c ∈ e.1.getLast?, IsEntryName c) ∧
    lookupEntry entries e.1.dropLast = some .dir ∧ e.2 ≠ .link []

instance (entries : List (Loc × Node)) : Decidable (EntriesOk entries) := by
  unfold EntriesOk
  infer_instance

variable {l : Loc}

/-- An entry that is found is in the list. -/
lemma mem_of_lookupEntry {entries : List (Loc × Node)} {n : Node} (hl : l ≠ [])
    (h : lookupEntry entries l = some n) : (l, n) ∈ entries := by
  rw [lookupEntry, if_neg hl] at h
  exact mem_of_find?_fst h

/-- The tree with given entries. -/
def ofEntries (entries : List (Loc × Node)) (h : EntriesOk entries) : FileTree where
  node := lookupEntry entries
  root := rfl
  parent := by
    intro l c hsome
    obtain ⟨n, hn⟩ := isSome_iff_exists.mp hsome
    have := (h _ (mem_of_lookupEntry (by simp) hn)).2.1
    rwa [dropLast_concat] at this
  entryName := by
    intro l c hsome
    obtain ⟨n, hn⟩ := isSome_iff_exists.mp hsome
    obtain ⟨d, hd, hname⟩ := (h _ (mem_of_lookupEntry (by simp) hn)).1
    rw [getLast?_concat, mem_some_iff] at hd
    exact hd ▸ hname
  target := by
    intro l t hlink ht
    subst ht
    by_cases hl : l = []
    · rw [lookupEntry, if_pos hl] at hlink
      exact absurd hlink (by simp)
    · exact (h _ (mem_of_lookupEntry hl hlink)).2.2 rfl

/-- The longest name. -/
def nameMax : Nat := 255

/-- How many links a walk follows. -/
def linkMax : Nat := 40

/-- Where a descent that follows no link comes to. -/
inductive Descent where
  | found (l : Loc)
  | missing (l : Loc)
  | link (dir : Loc) (target : List Char) (rest : List Name)
  | noent
  | notdir
  | nametoolong
  deriving DecidableEq

/-- Go down from the directory `cur` along components until they end or there is a link. -/
def descend (fs : FileTree) : Loc → List Name → Descent
  | cur, [] => .found cur
  | cur, c :: rest =>
    if c = [] ∨ c = ['.'] then fs.descend cur rest
    else if c = ['.', '.'] then fs.descend cur.dropLast rest
    else if nameMax < c.length then .nametoolong
    else
      match fs.node (cur ++ [c]) with
      | none => if rest.all fun d => d = [] then .missing (cur ++ [c]) else .noent
      | some .dir => fs.descend (cur ++ [c]) rest
      | some .file => if rest = [] then .found (cur ++ [c]) else .notdir
      | some (.link target) => .link cur target rest

/-- Where a walk comes to. -/
inductive Walked where
  | found (l : Loc)
  | missing (l : Loc)
  | noent
  | notdir
  | nametoolong
  | loop
  deriving DecidableEq

/-- Where the walk goes on after a link in `dir`. -/
def linkStart (dir : Loc) (target : List Char) : Loc := if target.head? = some '/' then [] else dir

/-- Walk from the directory `cur` along components, following at most `links` links. -/
def walk (fs : FileTree) : Nat → Loc → List Name → Walked
  | links, cur, comps =>
    match fs.descend cur comps with
    | .found l => .found l
    | .missing l => .missing l
    | .noent => .noent
    | .notdir => .notdir
    | .nametoolong => .nametoolong
    | .link dir target rest =>
      match links with
      | 0 => .loop
      | links + 1 => fs.walk links (linkStart dir target) (components target ++ rest)

/-- Walk along an absolute path. -/
def walkPath (fs : FileTree) (t : List Char) : Walked := fs.walk linkMax [] (components t)

/-- The errors of a walk. -/
inductive Errno where
  | enoent
  | enotdir
  | enametoolong
  | eloop
  deriving DecidableEq

/-- The text of a place, with a slash for the root. -/
def realText (l : Loc) : List Char := if l = [] then ['/'] else locText l

/-- The C function `realpath` on an absolute path, into a buffer of `size` characters. -/
def realpath (fs : FileTree) (size : Nat) (t : List Char) : Except Errno (List Char) :=
  match fs.walkPath t with
  | .found l => if (realText l).length < size then .ok (realText l) else .error .enametoolong
  | .missing _ => .error .enoent
  | .noent => .error .enoent
  | .notdir => .error .enotdir
  | .nametoolong => .error .enametoolong
  | .loop => .error .eloop

/-- Whether the C function `stat` succeeds on an absolute path. -/
def stat (fs : FileTree) (t : List Char) : Bool := match fs.walkPath t with
  | .found _ => true
  | _ => false

/-- The place an absolute path leads to; its last component may be missing. -/
def resolve (fs : FileTree) (t : List Char) : Option Loc := match fs.walkPath t with
  | .found l => some l
  | .missing l => some l
  | _ => none

/-! ### Where walks come to -/

/-- What a descent comes to has proper names, what it finds is in the tree, and what is left of the
components are some of them. -/
def Descent.Ok (fs : FileTree) (comps : List Name) : Descent → Prop
  | .found l => l.Proper ∧ (fs.node l).isSome
  | .missing l => l.Proper
  | .link dir _ rest => dir.Proper ∧ fs.node dir = some .dir ∧ rest ⊆ comps
  | _ => True

variable {cur : Loc} {t : List Char} {comps : List Name}

/-- One step up from a directory there is a directory. -/
lemma node_dropLast (fs : FileTree) (h : (fs.node l).isSome) :
    l = [] ∨ fs.node l.dropLast = some .dir := by
  rcases eq_nil_or_concat l with rfl | ⟨dir, c, rfl⟩
  · exact .inl rfl
  · rw [concat_eq_append] at h ⊢
    rw [dropLast_concat]
    exact .inr (fs.parent dir c h)

/-- What is above a place in the tree is in the tree. -/
lemma isSome_node_of_isPrefix (fs : FileTree) {upper : Loc} (hupper : upper <+: l)
    (h : (fs.node l).isSome) : (fs.node upper).isSome := by
  obtain ⟨rest, rfl⟩ := hupper
  induction rest using List.reverseRecOn with
  | nil => rwa [append_nil] at h
  | append_singleton rest c ih =>
    rw [← append_assoc] at h
    exact ih (by rw [fs.parent _ c h]; rfl)

/-- A descent from a directory along components without slashes. -/
lemma ok_descend (fs : FileTree) (hcur : cur.Proper) (hdir : fs.node cur = some .dir)
    (hcomps : ∀ c ∈ comps, '/' ∉ c) : (fs.descend cur comps).Ok fs comps := by
  induction comps generalizing cur with
  | nil => exact ⟨hcur, by rw [hdir]; rfl⟩
  | cons c rest ih =>
    have hrest : ∀ d ∈ rest, '/' ∉ d := fun d hd => hcomps d (mem_cons_of_mem _ hd)
    -- a descent along `rest` is as good along `c :: rest`
    have hmono : ∀ d : Descent, d.Ok fs rest → d.Ok fs (c :: rest) := by
      intro d hd
      cases d with
      | link dir target left => exact ⟨hd.1, hd.2.1, fun e he => mem_cons_of_mem _ (hd.2.2 he)⟩
      | found l | missing l => exact hd
      | noent | notdir | nametoolong => trivial
    rw [descend]
    by_cases hdot : c = [] ∨ c = ['.']
    · rw [if_pos hdot]
      exact hmono _ (ih hcur hdir hrest)
    rw [if_neg hdot]
    by_cases hup : c = ['.', '.']
    · rw [if_pos hup]
      refine hmono _ (ih (fun e he => hcur e (dropLast_subset cur he)) ?_ hrest)
      rcases fs.node_dropLast (l := cur) (by rw [hdir]; rfl) with rfl | hparent
      · exact hdir
      · exact hparent
    rw [if_neg hup]
    by_cases hlong : nameMax < c.length
    · rw [if_pos hlong]
      trivial
    rw [if_neg hlong]
    have hnext : Loc.Proper (cur ++ [c]) := by
      intro e he
      rcases mem_append.mp he with he' | he'
      · exact hcur e he'
      · rw [mem_singleton.mp he']
        exact ⟨fun h => hdot (Or.inl h), hcomps c mem_cons_self⟩
    cases hnode : fs.node (cur ++ [c]) with
    | none =>
      dsimp only
      split_ifs
      · exact hnext
      · trivial
    | some n =>
      cases n with
      | dir => exact hmono _ (ih hnext hnode hrest)
      | file =>
        dsimp only
        split_ifs
        · exact ⟨hnext, by rw [hnode]; rfl⟩
        · trivial
      | link target => exact ⟨hcur, hdir, subset_cons_self c rest⟩

/-- What a walk comes to has proper names, and what it finds is in the tree. -/
def Walked.Ok (fs : FileTree) : Walked → Prop
  | .found l => l.Proper ∧ (fs.node l).isSome
  | .missing l => l.Proper
  | _ => True

/-- A walk from a directory along components without slashes. -/
theorem ok_walk (fs : FileTree) (links : Nat) (hcur : cur.Proper) (hdir : fs.node cur = some .dir)
    (hcomps : ∀ c ∈ comps, '/' ∉ c) : (fs.walk links cur comps).Ok fs := by
  induction links generalizing cur comps with
  | zero =>
    have hok := fs.ok_descend hcur hdir hcomps
    rw [walk]
    cases hd : fs.descend cur comps <;> rw [hd] at hok <;> first | exact hok | trivial
  | succ links ih =>
    have hok := fs.ok_descend hcur hdir hcomps
    rw [walk]
    cases hd : fs.descend cur comps with
    | found l | missing l =>
      rw [hd] at hok
      exact hok
    | link dir target rest =>
      rw [hd] at hok
      have hcomps' : ∀ c ∈ components target ++ rest, '/' ∉ c := by
        intro c hc
        rcases mem_append.mp hc with hc' | hc'
        · exact not_mem_of_mem_components hc'
        · exact hcomps c (hok.2.2 hc')
      change (fs.walk links (linkStart dir target) (components target ++ rest)).Ok fs
      unfold linkStart
      split_ifs
      · exact ih (fun c hc => absurd hc not_mem_nil) fs.root hcomps'
      · exact ih hok.1 hok.2.1 hcomps'
    | noent | notdir | nametoolong => trivial

lemma ok_walkPath (fs : FileTree) (t : List Char) : (fs.walkPath t).Ok fs :=
  fs.ok_walk linkMax (fun _ hc => absurd hc not_mem_nil) fs.root
    fun _ hc => not_mem_of_mem_components hc

/-- A resolved path was walked to its end, or to its missing last component. -/
lemma walkPath_of_resolve (fs : FileTree) (h : fs.resolve t = some l) :
    fs.walkPath t = .found l ∨ fs.walkPath t = .missing l := by
  unfold resolve at h
  cases hw : fs.walkPath t <;> rw [hw] at h <;> simp_all

/-- The place a path leads to has proper names. -/
lemma proper_of_resolve (fs : FileTree) (h : fs.resolve t = some l) : l.Proper := by
  have hok := fs.ok_walkPath t
  rcases fs.walkPath_of_resolve h with hwalk | hwalk <;> rw [hwalk] at hok
  · exact hok.1
  · exact hok

end FileTree

end PiksiBuildroot.Lib
