import Mathlib.Data.List.DropRight

/-!
# Path names as text

A path name is the list of its characters, and its components are the non-empty pieces between
slashes (`names`). A trailing slash is kept as one empty component (`components`), because it
asks for a directory. `dirname` works on the text, as the C library does. `locText` writes a list of
names as a path name, and `isPrefix_iff_locText` and `isPrefix_or_extends` say how one directory
being above another shows in the texts.
-/

namespace PiksiBuildroot.Lib

open List Option

/-- One component of a path. -/
abbrev Name := List Char

/-- A place in a file tree: the names on the way from the root. -/
abbrev Loc := List Name

/-! ### Splitting -/

/-- Put a character in front of a list of pieces; a slash starts a new piece. -/
def addChar (ch : Char) : List Name → List Name
  | [] => if ch = '/' then [[], []] else [[ch]]
  | w :: ws => if ch = '/' then [] :: w :: ws else (ch :: w) :: ws

/-- The pieces of a text between slashes, empty ones included. -/
def pieces (t : List Char) : List Name := t.foldr addChar [[]]

/-- The non-empty pieces. -/
def names (t : List Char) : List Name := (pieces t).filter fun w => w ≠ []

/-- The components of a path, with an empty one at the end for a trailing slash. -/
def components (t : List Char) : List Name := names t ++ if t.getLast? = some '/' then [[]] else []

/-- The directory part of a path name: without trailing slashes, the last component and the slashes
before it; the root when nothing is left. -/
def dirname (t : List Char) : List Char := let isSlash : Char → Bool := fun ch => ch = '/'
  let dir := ((t.rdropWhile isSlash).rdropWhile fun ch => !isSlash ch).rdropWhile isSlash
  if dir = [] then ['/'] else dir

/-- The text of a place. -/
def locText (l : Loc) : List Char := l.flatMap fun c => '/' :: c

/-- There is always a piece. -/
lemma pieces_ne_nil (t : List Char) : pieces t ≠ [] := by
  cases t with
  | nil => simp [pieces]
  | cons ch t =>
    show addChar ch (pieces t) ≠ []
    cases pieces t with
    | nil | cons w ws => unfold addChar; split_ifs <;> simp

/-- A slash separates the pieces before it from those after it. -/
lemma pieces_append_slash (u v : List Char) : pieces (u ++ '/' :: v) = pieces u ++ pieces v := by
  induction u with
  | nil =>
    show addChar '/' (pieces v) = [[]] ++ pieces v
    obtain ⟨w, ws, hw⟩ := exists_cons_of_ne_nil (pieces_ne_nil v)
    rw [hw]
    rfl
  | cons ch u ih =>
    show addChar ch (pieces (u ++ '/' :: v)) = addChar ch (pieces u) ++ pieces v
    obtain ⟨w, ws, hw⟩ := exists_cons_of_ne_nil (pieces_ne_nil u)
    rw [ih, hw]
    by_cases hch : ch = '/'
    · simp [addChar, hch]
    · simp [addChar, hch]

variable {w : List Char} {t : List Char}

/-- A text without slashes is one piece. -/
lemma pieces_of_not_mem (h : '/' ∉ w) : pieces w = [w] := by
  induction w with
  | nil => rfl
  | cons ch w ih =>
    rw [mem_cons, not_or] at h
    show addChar ch (pieces w) = _
    rw [ih h.2, addChar, if_neg (Ne.symm h.1)]

/-- No piece has a slash in it. -/
lemma not_mem_of_mem_pieces (h : w ∈ pieces t) : '/' ∉ w := by
  induction t generalizing w with
  | nil =>
    cases mem_singleton.mp h
    exact not_mem_nil
  | cons ch t ih =>
    obtain ⟨w₀, ws, hw⟩ := exists_cons_of_ne_nil (pieces_ne_nil t)
    have hmem : w ∈ addChar ch (pieces t) := h
    rw [hw] at hmem ih
    by_cases hch : ch = '/'
    · rw [addChar, if_pos hch] at hmem
      rcases mem_cons.mp hmem with rfl | hmem'
      · exact not_mem_nil
      · exact ih hmem'
    · rw [addChar, if_neg hch] at hmem
      rcases mem_cons.mp hmem with rfl | hmem'
      · rw [mem_cons, not_or]
        exact ⟨Ne.symm hch, ih mem_cons_self⟩
      · exact ih (mem_cons_of_mem _ hmem')

/-- No component has a slash in it. -/
lemma not_mem_of_mem_components (h : w ∈ components t) : '/' ∉ w := by
  rcases mem_append.mp h with hw | hw
  · exact not_mem_of_mem_pieces (mem_filter.mp hw).1
  · split_ifs at hw
    · cases mem_singleton.mp hw
      exact not_mem_nil
    · cases hw

/-- An absolute path without a trailing slash ends in a slash and its last name. -/
lemma exists_last_name {x : List Char} (habs : x.head? = some '/')
    (hlast : x.getLast? ≠ some '/') : ∃ y w, w ≠ [] ∧ '/' ∉ w ∧ x = y ++ '/' :: w := by
  obtain ⟨w, y, hx, hslash⟩ := eq_append_cons_of_mem (mem_reverse.mpr (mem_of_mem_head? habs))
  replace hx : x = y.reverse ++ '/' :: w.reverse := by
    rw [← reverse_reverse x, hx]
    simp
  refine ⟨y.reverse, w.reverse, ?_, mt mem_reverse.mp hslash, hx⟩
  intro hnil
  rw [hx, hnil] at hlast
  exact hlast getLast?_concat

/-! ### Places and their texts -/

/-- What the names of a place look like: neither empty nor with a slash. -/
def Loc.Proper (l : Loc) : Prop := ∀ c ∈ l, c ≠ [] ∧ '/' ∉ c

/-- Two texts that agree up to where each has its end or a slash. -/
lemma append_eq_append_of_slash {a b r s : List Char} (ha : '/' ∉ a) (hb : '/' ∉ b)
    (hr : r = [] ∨ r.head? = some '/') (hs : s = [] ∨ s.head? = some '/')
    (h : a ++ r = b ++ s) : a = b ∧ r = s := by
  induction a generalizing b with
  | nil =>
    cases b with
    | nil => exact ⟨rfl, h⟩
    | cons ch b =>
      rw [mem_cons, not_or] at hb
      rw [nil_append, cons_append] at h
      rcases hr with rfl | hr
      · cases h
      · rw [h, head?_cons, some.injEq] at hr
        exact absurd hr.symm hb.1
  | cons ch a ih =>
    rw [mem_cons, not_or] at ha
    cases b with
    | nil =>
      rw [nil_append, cons_append] at h
      rcases hs with rfl | hs
      · cases h
      · rw [← h, head?_cons, some.injEq] at hs
        exact absurd hs.symm ha.1
    | cons ch' b =>
      rw [mem_cons, not_or] at hb
      rw [cons_append, cons_append, cons.injEq] at h
      obtain ⟨rfl, htail⟩ := h
      obtain ⟨rfl, hrs⟩ := ih ha.2 hb.2 htail
      exact ⟨rfl, hrs⟩

/-- A text of a place is empty or starts with a slash. -/
lemma locText_eq_nil_or (l : Loc) : locText l = [] ∨ (locText l).head? = some '/' := by
  cases l with
  | nil => exact Or.inl rfl
  | cons c l => exact Or.inr rfl

/-- `upper` is `lower` or above it, seen in the texts: the text of the one begins the text of the
other and ends where that ends or has a slash. -/
def AtOrBelow (upper lower : List Char) : Prop := lower = upper ∨ upper ++ ['/'] <+: lower

/-- A place is at or below another exactly when its text is. -/
theorem isPrefix_iff_locText {upper lower : Loc} (hu : upper.Proper) (hl : lower.Proper) :
    upper <+: lower ↔ AtOrBelow (locText upper) (locText lower) := by
  constructor
  · rintro ⟨rest, rfl⟩
    cases rest with
    | nil => exact Or.inl (by rw [append_nil])
    | cons c rest => exact Or.inr ⟨c ++ locText rest, by simp [locText]⟩
  · induction upper generalizing lower with
    | nil => exact fun _ => nil_prefix
    | cons c upper ih =>
      have hc := hu c mem_cons_self
      have hu' : Loc.Proper upper := fun d hd => hu d (mem_cons_of_mem _ hd)
      intro h
      -- either way the text of `lower` goes on from `upper` with nothing or a slash
      obtain ⟨rest, hrest, htext⟩ : ∃ rest : List Char, (rest = [] ∨ rest.head? = some '/') ∧
            locText lower = '/' :: (c ++ (locText upper ++ rest)) := by
        rcases h with h | ⟨rest, h⟩
        · exact ⟨[], Or.inl rfl, by simpa [locText] using h⟩
        · exact ⟨'/' :: rest, Or.inr rfl, by simpa [locText] using h.symm⟩
      cases lower with
      | nil => exact absurd htext (by simp [locText])
      | cons d lower =>
        have hd := hl d mem_cons_self
        have htail : d ++ locText lower = c ++ (locText upper ++ rest) := by
          simpa [locText] using htext
        have hgo : locText upper ++ rest = [] ∨ (locText upper ++ rest).head? = some '/' := by
          rcases locText_eq_nil_or upper with hnil | hhead
          · rw [hnil]
            exact hrest
          · right
            rw [List.head?_append, hhead]
            rfl
        obtain ⟨rfl, hlow⟩ := append_eq_append_of_slash hd.2 hc.2 (locText_eq_nil_or lower)
          hgo htail
        rw [cons_prefix_cons]
        refine ⟨rfl, ih hu' (fun e he => hl e (mem_cons_of_mem _ he)) ?_⟩
        rcases hrest with rfl | hslash
        · exact Or.inl (by simpa using hlow)
        · cases rest with
          | nil => exact absurd hslash (by simp)
          | cons ch rest =>
            rw [head?_cons, some.injEq] at hslash
            exact Or.inr ⟨rest, by rw [hlow, hslash]; simp⟩

/-- A place whose text begins that of another is above it, or its last name begins another name in
the same directory. -/
theorem isPrefix_or_extends {upper lower : Loc} (hu : upper.Proper) (hl : lower.Proper)
    (h : locText upper <+: locText lower) :
    upper <+: lower ∨ ∃ dir name c rest, upper = dir ++ [name] ∧ lower = dir ++ c :: rest ∧
      name <+: c ∧ c ≠ name := by
  induction upper generalizing lower with
  | nil => exact .inl nil_prefix
  | cons n upper ih =>
    have hn := (hu n mem_cons_self).2
    cases lower with
    | nil => exact absurd (prefix_nil.mp h) (by simp [locText])
    | cons d lower =>
      obtain ⟨r, hr⟩ : n ++ locText upper <+: d ++ locText lower := by
        simpa [locText, cons_prefix_cons] using h
      cases upper with
      | nil =>
        replace hr : n ++ r = d ++ locText lower := by simpa [locText] using hr
        rcases append_eq_append_iff.mp hr with ⟨a, hd, -⟩ | ⟨a, hna, htext⟩
        · by_cases hne : d = n
          · exact .inl ⟨lower, by rw [hne]; rfl⟩
          · exact .inr ⟨[], n, d, lower, rfl, rfl, ⟨a, hd.symm⟩, hne⟩
        · -- what `n` has beyond `d` would begin with a slash
          cases a with
          | nil => exact .inl ⟨lower, by rw [hna, append_nil]; rfl⟩
          | cons ch a =>
            rcases locText_eq_nil_or lower with hnil | hslash
            · exact absurd (hnil.symm.trans htext) (by simp)
            · rw [htext] at hslash
              obtain rfl : ch = '/' := by simpa using hslash
              exact absurd hna (by rintro rfl; simp at hn)
      | cons m upper =>
        rw [append_assoc] at hr
        obtain ⟨rfl, htail⟩ := append_eq_append_of_slash hn (hl d mem_cons_self).2
          (.inr (by simp [locText])) (locText_eq_nil_or lower) hr
        rcases ih (fun c hc => hu c (mem_cons_of_mem _ hc))
          (fun c hc => hl c (mem_cons_of_mem _ hc)) ⟨r, htail⟩ with
          hpre | ⟨dir, name, c, rest, hupper, hlower, hext⟩
        · exact .inl (cons_prefix_cons.mpr ⟨rfl, hpre⟩)
        · exact .inr ⟨n :: dir, name, c, rest, by rw [hupper]; rfl, by rw [hlower]; rfl, hext⟩

end PiksiBuildroot.Lib
