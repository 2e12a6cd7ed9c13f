import PiksiBuildroot.Lib.Machine
import PiksiBuildroot.Lib.Selection

/-!
# Sets that the smallest scores are selected from

A set of a fixed size is filled by index, perhaps compacted, and then asked for the elements of some
ranks in the order of the scores. `kmin_find` sorts the array and copies what lies between
`kstart` and the smaller of `count` and the size to the same positions of the result, whose other
positions stay zero (`honoursStart_iff`).

The sort is a parameter, `Timsort`. A set carries that an element is filled exactly if it has an
identifier, and that `filled` counts these elements; `Logged` keeps what was put.
-/

namespace PiksiBuildroot.Libpiksi

open Lib List Option

/-- Source: `kmin_element_t`; `ident` is `none` for `NULL`. -/
structure KminElement (ι : Type*) where
  isFilled : Bool
  score : UInt32
  ident : Option ι
  deriving DecidableEq, Repr

variable {ι : Type*}

namespace KminElement

/-- An element as `calloc` leaves it. -/
def zero : KminElement ι := ⟨false, 0, none⟩

/-- An element as `kmin_put` leaves it. -/
def ofPut (p : UInt32 × ι) : KminElement ι := ⟨true, p.1, some p.2⟩

/-- What was put into an element. -/
def content (e : KminElement ι) : Option (UInt32 × ι) := e.ident.map fun i => (e.score, i)

@[simp] lemma content_zero : (zero : KminElement ι).content = none := rfl

@[simp] lemma content_ofPut (p : UInt32 × ι) : (ofPut p).content = some p := rfl

end KminElement

/-- Source: `KMIN_COMPARE`. -/
def kminCompare (l r : KminElement ι) : Int :=
  if l.score = r.score then 0 else if l.score < r.score then -1 else 1

/-- Source: the two definitions of `SORT_CMP`. -/
def sortCmp (invert : Bool) (l r : KminElement ι) : Int :=
  if invert then -1 * kminCompare l r else kminCompare l r

/-- The order of the scores, which may be inverted. -/
def ScoreLe (invert : Bool) (a b : UInt32) : Prop := if invert then b ≤ a else a ≤ b

instance (invert : Bool) (a b : UInt32) : Decidable (ScoreLe invert a b) :=
  inferInstanceAs (Decidable (if invert then b ≤ a else a ≤ b))

lemma kminCompare_nonpos_iff (l r : KminElement ι) : kminCompare l r ≤ 0 ↔ l.score ≤ r.score := by
  unfold kminCompare
  split_ifs with heq hlt
  · simp [heq]
  · simpa using UInt32.le_of_lt hlt
  · refine iff_of_false (by decide) fun hle => ?_
    rcases UInt32.lt_or_eq_of_le hle with h | h
    · exact hlt h
    · exact heq h

lemma kminCompare_nonneg_iff (l r : KminElement ι) : 0 ≤ kminCompare l r ↔ r.score ≤ l.score := by
  unfold kminCompare
  split_ifs with heq hlt
  · simp [heq]
  · refine iff_of_false (by decide) fun hle => ?_
    exact absurd hlt (UInt32.not_lt.mpr hle)
  · simpa using UInt32.not_lt.mp hlt

/-- A comparison sorts by the scores. -/
lemma sortCmp_nonpos_iff (invert : Bool) (l r : KminElement ι) :
    sortCmp invert l r ≤ 0 ↔ ScoreLe invert l.score r.score := by
  unfold sortCmp ScoreLe
  cases invert with
  | false => exact kminCompare_nonpos_iff l r
  | true =>
    rw [if_pos rfl, if_pos rfl, ← kminCompare_nonneg_iff]
    omega

/-- The vendored sort with either comparison. -/
abbrev Timsort (ι : Type*) :=
  ∀ invert : Bool, Sorter fun l r : KminElement ι => sortCmp invert l r ≤ 0

/-- Source: `kmin_t`; `size` and `result_count` are the lengths of the arrays. Identifiers that are
put are never `NULL`. -/
@[ext]
structure Kmin (ι : Type*) where
  arr : List (KminElement ι)
  filled : Nat
  invert : Bool
  result : Option (List (KminElement ι))
  isFilled_eq : ∀ e ∈ arr, e.isFilled = e.ident.isSome
  filled_eq : filled = arr.countP KminElement.isFilled

/-- Source: `kmin_create`, with memory. -/
def kminCreate (size : Nat) : Kmin ι where
  arr := List.replicate size .zero
  filled := 0
  invert := false
  result := none
  isFilled_eq e he := by rw [eq_of_mem_replicate he]; rfl
  filled_eq := by rw [countP_replicate, if_neg (by simp [KminElement.zero])]

variable {k : Kmin ι}

namespace Kmin

/-- Source: `kmin_size`. -/
def size (k : Kmin ι) : Nat := k.arr.length

/-- Source: `kmin_invert`. -/
def kminInvert (k : Kmin ι) (invert : Bool) : Kmin ι := { k with invert }

/-- Source: `kmin_compact`, with memory. -/
def kminCompact (k : Kmin ι) : Kmin ι := if k.filled = k.size then k
  else { k with
    arr := k.arr.filter KminElement.isFilled
    isFilled_eq e he := k.isFilled_eq e (mem_of_mem_filter he)
    filled_eq := by simp [k.filled_eq, countP_filter] }

lemma isFilled_of_ident_eq_none {e : KminElement ι} (he : e ∈ k.arr) (hident : e.ident = none) :
    e.isFilled = false := by
  rw [k.isFilled_eq e he, hident]
  rfl

/-- The result is freed first, also if the element is not put then. Source: `kmin_put`. -/
def kminPut (k : Kmin ι) (index : Nat) (score : UInt32) (ident : ι) : Bool × Kmin ι :=
  if h : index < k.arr.length then
    if hnull : k.arr[index].ident.isNone then
      (true, { k with
        result := none
        arr := k.arr.set index (.ofPut (score, ident))
        filled := k.filled + 1
        isFilled_eq e he := by
          rcases mem_or_eq_of_mem_set he with hmem | rfl
          · exact k.isFilled_eq e hmem
          · rfl
        filled_eq := by
          have hnone := isNone_iff_eq_none.mp hnull
          have hnot := isFilled_of_ident_eq_none (getElem_mem h) hnone
          rw [countP_set h, if_neg (by simp [hnot]), k.filled_eq]
          rfl })
    else (false, { k with result := none })
  else (false, { k with result := none })

/-- Source: `handle_macro_timsort`. -/
def handleMacroTimsort (tim : Timsort ι) (k : Kmin ι) : Kmin ι := { k with
    arr := (tim k.invert).sort k.arr
    isFilled_eq e he := k.isFilled_eq e (((tim k.invert).perm k.arr).mem_iff.mp he)
    filled_eq := by rw [((tim k.invert).perm k.arr).countP_eq, k.filled_eq] }

/-- The number that is returned, or `none` for -1. Source: `kmin_find`, with memory. -/
def kminFind (tim : Timsort ι) (k : Kmin ι) (kstart count : Nat) : Option Nat × Kmin ι :=
  if k.filled ≠ k.size then (none, k)
  else if k.size ≤ kstart then (none, k)
  else
    let count := min k.size count
    let k := k.handleMacroTimsort tim
    -- the loop copies the elements from `kstart` on over an array of zeros
    let result := (k.arr.take count).mapIdx fun i e => if kstart ≤ i then e else .zero
    (some count, { k with result := some result })

/-- Source: `kmin_result_at`. -/
def kminResultAt (k : Kmin ι) (index : Nat) : Option (UInt32 × Option ι) :=
  k.result.bind fun result => result[index]?.map fun e => (e.score, e.ident)

end Kmin

/-- The calls that change a set. -/
inductive KminAction (ι : Type*) where
  | put (index : Nat) (score : UInt32) (ident : ι)
  | invert (invert : Bool)
  | compact
  | find (kstart count : Nat)

/-- A set with what was put into it so far. -/
structure Logged (ι : Type*) where
  kmin : Kmin ι
  puts : List (UInt32 × ι)

/-- A set of some size and calls in any order. -/
def kminMachine (tim : Timsort ι) (size : Nat) : Machine (Logged ι) (KminAction ι) where
  init := ⟨kminCreate size, []⟩
  step s
    | .put index score ident =>
      let put := s.kmin.kminPut index score ident
      some ⟨put.2, if put.1 then (score, ident) :: s.puts else s.puts⟩
    | .invert invert => some { s with kmin := s.kmin.kminInvert invert }
    | .compact => some { s with kmin := s.kmin.kminCompact }
    | .find kstart count => some { s with kmin := (s.kmin.kminFind tim kstart count).2 }

/-- A call returns as many of the elements that were put as there are from rank `kstart` on, and at
most `count`; the result at an index is the element of that rank behind `kstart` in the order of
the scores. -/
structure HonoursStart (tim : Timsort ι) (s : Logged ι) (kstart count : Nat) : Prop where
  returned : (s.kmin.kminFind tim kstart count).1 = some (min count (s.kmin.size - kstart))
  ranked : ∃ order : List (UInt32 × ι), order.Perm s.puts ∧
    order.Pairwise (fun a b => ScoreLe s.kmin.invert a.1 b.1) ∧
    ∀ i < min count (s.kmin.size - kstart), ∃ p, order[kstart + i]? = some p ∧
      (s.kmin.kminFind tim kstart count).2.kminResultAt i = some (p.1, some p.2)

namespace Kmin

/-! ### The elements of a set -/

/-- What was put into the elements, in the order of the array. -/
def contents (k : Kmin ι) : List (UInt32 × ι) := k.arr.filterMap KminElement.content

lemma eq_ofPut {e : KminElement ι} (he : e ∈ k.arr) (hfilled : e.isFilled = true) :
    ∃ p, e.content = some p ∧ e = .ofPut p := by
  obtain ⟨isFilled, score, ident⟩ := e
  have hsome := k.isFilled_eq _ he
  rw [hfilled] at hsome
  obtain ⟨i, hi⟩ := isSome_iff_exists.mp hsome.symm
  exact ⟨(score, i), by simp_all [KminElement.content], by simp_all [KminElement.ofPut]⟩

/-- Every element of a full set was put. -/
lemma arr_eq_map_ofPut (h : k.filled = k.size) : k.arr = k.contents.map .ofPut := by
  have hall : ∀ e ∈ k.arr, e.isFilled = true := countP_eq_length.mp (k.filled_eq ▸ h)
  have hfilled := fun e he => eq_ofPut (k := k) he (hall e he)
  unfold contents
  generalize k.arr = arr at hfilled
  induction arr with
  | nil => rfl
  | cons e arr ih =>
    obtain ⟨p, hcontent, hp⟩ := hfilled e mem_cons_self
    rw [filterMap_cons_some hcontent, map_cons, ← hp,
      ← ih fun e' he' => hfilled e' (mem_cons_of_mem e he')]

lemma contents_kminCreate (size : Nat) : (kminCreate size : Kmin ι).contents = [] := by
  simp [contents, kminCreate]

/-- A free element is filled. -/
lemma kminPut_of_ident_eq_none {index : Nat} (h : index < k.arr.length)
    (hnull : k.arr[index].ident = none) (score : UInt32) (ident : ι) :
    (k.kminPut index score ident).1 = true ∧
      (k.kminPut index score ident).2.arr = k.arr.set index (.ofPut (score, ident)) ∧
      (k.kminPut index score ident).2.invert = k.invert := by
  rw [kminPut, dif_pos h, dif_pos (isNone_iff_eq_none.mpr hnull)]
  exact ⟨rfl, rfl, rfl⟩

/-- Nothing is put where there is an element already, or outside. -/
lemma kminPut_of_not {index : Nat} (h : ¬∃ hi : index < k.arr.length, k.arr[index].ident = none)
    (score : UInt32) (ident : ι) :
    k.kminPut index score ident = (false, { k with result := none }) := by
  unfold kminPut
  split_ifs with hi hnull
  · exact absurd ⟨hi, isNone_iff_eq_none.mp hnull⟩ h
  · rfl
  · rfl

/-- An element that is put is added to what was put before. -/
lemma contents_kminPut (k : Kmin ι) (index : Nat) (score : UInt32) (ident : ι) :
    (k.kminPut index score ident).2.contents.Perm
      (if (k.kminPut index score ident).1 then (score, ident) :: k.contents else k.contents) := by
  by_cases h : ∃ hi : index < k.arr.length, k.arr[index].ident = none
  · obtain ⟨hi, hnull⟩ := h
    obtain ⟨hput, harr, -⟩ := kminPut_of_ident_eq_none hi hnull score ident
    have hnone : k.arr[index].content = none := by
      rw [KminElement.content, hnull]
      rfl
    have hcontents : k.contents = (k.arr.take index).filterMap KminElement.content ++
        (k.arr.drop (index + 1)).filterMap KminElement.content := by
      have hsplit := take_append_drop index k.arr
      rw [drop_eq_getElem_cons hi] at hsplit
      rw [contents, ← hsplit]
      rw [filterMap_append, filterMap_cons_none hnone, hsplit]
    rw [hput, if_pos rfl, contents, harr, set_eq_take_append_cons_drop, if_pos hi,
      filterMap_append, filterMap_cons_some (KminElement.content_ofPut (score, ident)),
      hcontents]
    exact perm_middle
  · rw [kminPut_of_not h]
    exact List.Perm.refl _

lemma filterMap_content_filter (k : Kmin ι) :
    (k.arr.filter KminElement.isFilled).filterMap KminElement.content = k.contents := by
  rw [filterMap_filter]
  refine filterMap_congr fun e he => ?_
  split_ifs with hfilled
  · rfl
  · have hident : e.ident = none := by
      rw [k.isFilled_eq e he] at hfilled
      exact not_isSome_iff_eq_none.mp hfilled
    rw [KminElement.content, hident]
    rfl

/-- Compacting loses nothing that was put. -/
lemma contents_kminCompact (k : Kmin ι) : k.kminCompact.contents = k.contents := by
  unfold kminCompact
  split_ifs with hfull
  · rfl
  · exact filterMap_content_filter k

lemma arr_kminCompact (k : Kmin ι) : k.kminCompact.arr = k.arr.filter KminElement.isFilled := by
  unfold kminCompact
  split_ifs with hfull
  · have hall : ∀ e ∈ k.arr, e.isFilled = true := countP_eq_length.mp (k.filled_eq ▸ hfull)
    exact (filter_eq_self.mpr hall).symm
  · rfl

lemma filled_kminCompact (k : Kmin ι) : k.kminCompact.filled = k.kminCompact.size := by
  rw [filled_eq, size, arr_kminCompact, countP_filter, countP_eq_length_filter]
  simp

lemma invert_kminCompact (k : Kmin ι) : k.kminCompact.invert = k.invert := by
  unfold kminCompact
  split_ifs <;> rfl

lemma contents_handleMacroTimsort (tim : Timsort ι) (k : Kmin ι) :
    (k.handleMacroTimsort tim).contents.Perm k.contents :=
  ((tim k.invert).perm k.arr).filterMap _

lemma contents_kminFind (tim : Timsort ι) (k : Kmin ι) (kstart count : Nat) :
    (k.kminFind tim kstart count).2.contents.Perm k.contents := by
  unfold kminFind
  split_ifs
  · exact List.Perm.refl _
  · exact List.Perm.refl _
  · exact contents_handleMacroTimsort tim k

end Kmin

/-- A set holds what was put into it, through every sequence of calls. -/
lemma contents_of_reaches {tim : Timsort ι} {size : Nat} {s : Logged ι}
    (h : (kminMachine tim size).Reaches s) : s.kmin.contents.Perm s.puts := by
  induction h with
  | init => exact (Kmin.contents_kminCreate size).symm ▸ List.Perm.refl []
  | @step s s' a _ hstep hinv =>
    cases a with
    | put index score ident =>
      cases hstep
      refine (Kmin.contents_kminPut s.kmin index score ident).trans ?_
      split_ifs
      · exact hinv.cons _
      · exact hinv
    | invert invert =>
      cases hstep
      exact hinv
    | compact =>
      cases hstep
      exact (Kmin.contents_kminCompact s.kmin).symm ▸ hinv
    | find kstart count =>
      cases hstep
      exact (Kmin.contents_kminFind tim s.kmin kstart count).trans hinv

namespace Kmin

/-! ### What `kmin_find` returns -/

section
variable (tim : Timsort ι) {kstart : Nat}

lemma fst_kminFind (hfull : k.filled = k.size) (hstart : kstart < k.size) (count : Nat) :
    (k.kminFind tim kstart count).1 = some (min k.size count) := by
  rw [kminFind, if_neg (by simp [hfull]), if_neg (by omega)]

lemma fst_kminFind_of_le (hstart : k.size ≤ kstart) (count : Nat) :
    (k.kminFind tim kstart count).1 = none := by
  unfold kminFind
  split_ifs <;> rfl

lemma result_kminFind (hfull : k.filled = k.size) (hstart : kstart < k.size) (count : Nat) :
    (k.kminFind tim kstart count).2.result =
      some (((k.handleMacroTimsort tim).arr.take (min k.size count)).mapIdx fun i e =>
        if kstart ≤ i then e else .zero) := by
  rw [kminFind, if_neg (by simp [hfull]), if_neg (by omega)]

/-- The sorted array of a full set. -/
lemma arr_handleMacroTimsort (hfull : k.filled = k.size) :
    (k.handleMacroTimsort tim).arr = (k.handleMacroTimsort tim).contents.map .ofPut := by
  refine arr_eq_map_ofPut ?_
  rw [size, handleMacroTimsort, ((tim k.invert).perm k.arr).length_eq]
  exact hfull

lemma length_contents_handleMacroTimsort (hfull : k.filled = k.size) :
    (k.handleMacroTimsort tim).contents.length = k.size := by
  have harr := congrArg List.length (arr_handleMacroTimsort tim hfull)
  rw [length_map] at harr
  rw [← harr]
  exact ((tim k.invert).perm k.arr).length_eq

lemma pairwise_contents_handleMacroTimsort (hfull : k.filled = k.size) :
    (k.handleMacroTimsort tim).contents.Pairwise fun a b => ScoreLe k.invert a.1 b.1 := by
  have hsorted : (k.handleMacroTimsort tim).arr.Pairwise fun l r => sortCmp k.invert l r ≤ 0 :=
    (tim k.invert).sorted k.arr
  rw [arr_handleMacroTimsort tim hfull, pairwise_map] at hsorted
  exact hsorted.imp fun {a b} h => (sortCmp_nonpos_iff k.invert _ _).mp h

/-- The results from `kstart` on are those of their own rank. -/
lemma kminResultAt_kminFind_of_le (hfull : k.filled = k.size) (hstart : kstart < k.size)
    {count i : Nat} (hi : i < min k.size count) (hle : kstart ≤ i) :
    ∃ p, (k.handleMacroTimsort tim).contents[i]? = some p ∧
      (k.kminFind tim kstart count).2.kminResultAt i = some (p.1, some p.2) := by
  have hlength : i < (k.handleMacroTimsort tim).contents.length := by
    rw [length_contents_handleMacroTimsort tim hfull]
    omega
  rw [kminResultAt, result_kminFind tim hfull hstart, arr_handleMacroTimsort tim hfull, bind_some,
    getElem?_mapIdx, getElem?_take_of_lt hi, getElem?_map,
    getElem?_eq_getElem hlength]
  simp [hle, KminElement.ofPut]

/-- The results before `kstart` are elements that nobody put. -/
lemma kminResultAt_kminFind_of_lt (hfull : k.filled = k.size) (hstart : kstart < k.size)
    {count i : Nat} (hi : i < min k.size count) (hlt : i < kstart) :
    (k.kminFind tim kstart count).2.kminResultAt i = some (0, none) := by
  have hlength : i < (k.handleMacroTimsort tim).arr.length := by
    rw [handleMacroTimsort, ((tim k.invert).perm k.arr).length_eq]
    exact Nat.lt_of_lt_of_le hi (Nat.min_le_left _ _)
  rw [kminResultAt, result_kminFind tim hfull hstart, bind_some, getElem?_mapIdx,
    getElem?_take_of_lt hi, getElem?_eq_getElem hlength]
  simp [Nat.not_le_of_lt hlt, KminElement.zero]

end

end Kmin

/-- The ranks that a call asks for are returned exactly if it starts at rank 0 or asks for none. -/
theorem honoursStart_iff {tim : Timsort ι} {size : Nat} {s : Logged ι}
    (hs : (kminMachine tim size).Reaches s) (hfull : s.kmin.filled = s.kmin.size) {kstart : Nat}
    (hstart : kstart < s.kmin.size) (count : Nat) :
    HonoursStart tim s kstart count ↔ kstart = 0 ∨ count = 0 := by
  have hperm := (Kmin.contents_handleMacroTimsort tim s.kmin).trans (contents_of_reaches hs)
  have hsorted := Kmin.pairwise_contents_handleMacroTimsort tim hfull
  constructor
  · rintro ⟨hreturned, order, -, -, hranked⟩
    by_contra hnot
    -- with the right number of results there is one at index 0, which lies before `kstart`
    obtain ⟨p, -, hp⟩ := hranked 0 (by omega)
    rw [Kmin.kminResultAt_kminFind_of_lt tim hfull hstart (by omega) (by omega)] at hp
    simp at hp
  · rintro (rfl | rfl)
    · refine ⟨?_, _, hperm, hsorted, fun i hi => ?_⟩
      · rw [Kmin.fst_kminFind tim hfull hstart, Nat.sub_zero, Nat.min_comm]
      · rw [Nat.zero_add]
        exact Kmin.kminResultAt_kminFind_of_le tim hfull hstart (by omega) (Nat.zero_le i)
    · refine ⟨?_, _, hperm, hsorted, fun i hi => absurd hi (by simp)⟩
      rw [Kmin.fst_kminFind tim hfull hstart, Nat.min_zero, Nat.zero_min]

/-- The order by insertion. -/
def insertionTim : Timsort ι := fun invert =>
  have : Std.Total fun l r : KminElement ι => sortCmp invert l r ≤ 0 := by
    refine ⟨fun l r => ?_⟩
    rw [sortCmp_nonpos_iff, sortCmp_nonpos_iff]
    cases invert with
    | false => exact UInt32.le_total l.score r.score
    | true => exact UInt32.le_total r.score l.score
  have : IsTrans (KminElement ι) fun l r => sortCmp invert l r ≤ 0 := by
    refine ⟨fun a b c hab hbc => ?_⟩
    rw [sortCmp_nonpos_iff] at hab hbc ⊢
    cases invert with
    | false => exact UInt32.le_trans hab hbc
    | true => exact UInt32.le_trans hbc hab
  Sorter.insertion _

/-- A set of two elements. -/
def twoElements : Logged Nat :=
  ⟨(((kminCreate 2).kminPut 0 5 7).2.kminPut 1 3 8).2, [(3, 8), (5, 7)]⟩

lemma reaches_twoElements : (kminMachine insertionTim 2).Reaches twoElements :=
  .step (.step .init (a := .put 0 5 7) rfl) (a := .put 1 3 8) rfl

theorem honoursStart_iff_twoElements :
    twoElements.kmin.filled = twoElements.kmin.size ∧ 1 < twoElements.kmin.size ∧
      (HonoursStart insertionTim twoElements 1 1 ↔ 1 = 0 ∨ 1 = 0) :=
  ⟨rfl, by decide, honoursStart_iff reaches_twoElements rfl (by decide) 1⟩

/-- The second of two elements is asked for, and one that nobody put is returned. -/
theorem not_honoursStart_second :
    (twoElements.kmin.kminFind insertionTim 1 1).2.kminResultAt 0 = some (0, none) ∧
      ¬HonoursStart insertionTim twoElements 1 1 := by
  have hresult : (twoElements.kmin.kminFind insertionTim 1 1).2.kminResultAt 0 =
      some (0, none) := by
    decide
  refine ⟨hresult, fun h => ?_⟩
  obtain ⟨order, -, -, hranked⟩ := h.ranked
  obtain ⟨p, -, hp⟩ := hranked 0 (by decide)
  rw [hresult] at hp
  simp at hp

end PiksiBuildroot.Libpiksi
