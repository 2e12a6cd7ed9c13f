import Mathlib.Data.List.Basic

/-!
# Trees of named members

A JSON tree without its values: a node is a value, or an object with a finite map from names to
nodes, kept as a list in which a name occurs once. A node inside a tree is known by its path. `add`
puts a member into an object, `addAt` into the object at a path (`nodeAt_addAt`).
-/

namespace PiksiBuildroot.Lib

/-- A value, or an object with its members. -/
inductive Json (κ : Type)
  | value
  | object (members : List (κ × Json κ))

namespace Json

variable {κ : Type} [DecidableEq κ]

/-- Whether the node is an object. -/
def isObject : Json κ → Bool
  | value => false
  | object _ => true

/-- The node under a name. -/
def lookup (key : κ) : List (κ × Json κ) → Option (Json κ)
  | [] => none
  | (k, node) :: members => if k = key then some node else lookup key members

/-- The members with a node put under a name: in its place, or at the end. -/
def put (key : κ) (new : Json κ) : List (κ × Json κ) → List (κ × Json κ)
  | [] => [(key, new)]
  | (k, node) :: members =>
    if k = key then (key, new) :: members else (k, node) :: put key new members

/-- A member of an object. -/
def member (j : Json κ) (key : κ) : Option (Json κ) := match j with
  | value => none
  | object members => lookup key members

/-- Put a member into an object; a value has no members. -/
def add (j : Json κ) (key : κ) (new : Json κ) : Json κ := match j with
  | value => value
  | object members => object (put key new members)

/-- The node at a path. -/
def nodeAt (j : Json κ) : List κ → Option (Json κ)
  | [] => some j
  | key :: path => (j.member key).bind fun child => child.nodeAt path

/-- Put a member into the object at a path. -/
def addAt (j : Json κ) : List κ → κ → Json κ → Json κ
  | [], key, new => j.add key new
  | step :: path, key, new =>
    match j.member step with
    | some child => j.add step (child.addAt path key new)
    | none => j

lemma lookup_put (key key' : κ) (new : Json κ) (members : List (κ × Json κ)) :
    lookup key' (put key new members) = if key' = key then some new else lookup key' members := by
  induction members with
  | nil =>
    by_cases h : key' = key
    · simp [put, lookup, h]
    · simp [put, lookup, h, Ne.symm h]
  | cons entry members ih =>
    obtain ⟨k, node⟩ := entry
    unfold put
    by_cases hk : k = key
    · subst hk
      by_cases h : key' = k
      · simp [lookup, h]
      · simp [lookup, h, Ne.symm h]
    · rw [if_neg hk, lookup, ih, lookup]
      by_cases h : key' = key
      · subst h
        simp [hk]
      · simp [h]

variable {j : Json κ}

lemma member_add (hj : j.isObject = true) (key key' : κ) (new : Json κ) :
    (j.add key new).member key' = if key' = key then some new else j.member key' := by
  cases j with
  | value => simp [isObject] at hj
  | object members => exact lookup_put key key' new members

lemma isObject_add (j : Json κ) (key : κ) (new : Json κ) :
    (j.add key new).isObject = j.isObject := by
  cases j <;> rfl

lemma isObject_addAt (j : Json κ) (path : List κ) (key : κ) (new : Json κ) :
    (j.addAt path key new).isObject = j.isObject := by
  cases path with
  | nil => exact isObject_add j key new
  | cons step path =>
    unfold addAt
    split
    · exact isObject_add j step _
    · rfl

lemma isObject_of_member {j child : Json κ} {key : κ} (h : j.member key = some child) :
    j.isObject = true := by
  cases j with
  | value => simp [member] at h
  | object members => rfl

lemma nodeAt_append (j : Json κ) (path rest : List κ) :
    j.nodeAt (path ++ rest) = (j.nodeAt path).bind fun child => child.nodeAt rest := by
  induction path generalizing j with
  | nil => rfl
  | cons key path ih =>
    rw [List.cons_append, nodeAt, nodeAt, Option.bind_assoc]
    exact congrArg _ (funext fun child => ih child)

/-- At a path below the new member are the nodes of the new one, elsewhere those from before. -/
theorem nodeAt_addAt {path : List κ} {node : Json κ} (hnode : j.nodeAt path = some node)
    (hobject : node.isObject = true) (key : κ) (new : Json κ) (q : List κ) :
    (∀ rest, q = path ++ key :: rest → (j.addAt path key new).nodeAt q = new.nodeAt rest) ∧
      ((∀ rest, q ≠ path ++ key :: rest) → ((j.addAt path key new).nodeAt q).map isObject =
        (j.nodeAt q).map isObject) := by
  induction path generalizing j q with
  | nil =>
    obtain rfl := Option.some_inj.mp hnode
    constructor
    · rintro rest rfl
      simp [addAt, nodeAt, member_add hobject]
    · intro hq
      cases q with
      | nil => simp [addAt, nodeAt, isObject_add]
      | cons key' rest =>
        have hne : key' ≠ key := fun heq => hq rest (by rw [heq]; rfl)
        simp [addAt, nodeAt, member_add hobject, hne]
  | cons step path ih =>
    obtain ⟨child, hchild, hbelow⟩ := Option.bind_eq_some_iff.mp hnode
    have hj := isObject_of_member hchild
    have hadd : j.addAt (step :: path) key new = j.add step (child.addAt path key new) := by
      rw [addAt, hchild]
    constructor
    · rintro rest rfl
      rw [hadd, List.cons_append, nodeAt, member_add hj, if_pos rfl]
      exact (ih hbelow _).1 rest rfl
    · intro hq
      rw [hadd]
      cases q with
      | nil => simp [nodeAt, isObject_add]
      | cons key' q =>
        rw [nodeAt, nodeAt, member_add hj]
        by_cases hkey : key' = step
        · subst hkey
          rw [if_pos rfl, hchild]
          refine (ih hbelow q).2 fun rest heq => hq rest ?_
          rw [heq]
          rfl
        · rw [if_neg hkey]

end Json

end PiksiBuildroot.Lib
