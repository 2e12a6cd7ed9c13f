import PiksiBuildroot.Lib.BoundedTable
import PiksiBuildroot.Lib.FallibleMap
import PiksiBuildroot.Libpiksi.Kmin
import PiksiBuildroot.ResourceMonitor.FdSummary

/-!
# The processes and files with the most open descriptors

The counts of a table are put into a `Kmin` set at the index of their key, where the keys of what
is no file leave gaps. The set is compacted and its ten largest elements are asked for. The array
then holds the eligible keys with the largest counts, and empty texts behind them
(`topTen_populate`).
-/

namespace PiksiBuildroot.ResourceMonitor.TopCounts

open Lib Libpiksi List Option
open FdSummary (itemCount)

/-- Source: `MAX_PROCESS_COUNT`. -/
def maxProcessCount : Nat := 2048

/-- Source: `MAX_FILE_COUNT`. -/
def maxFileCount : Nat := 1024 * 16

/-- A text of C without its terminator. -/
abbrev Key := List Char

/-- Source: `pid_entry_t`; the other fields are not read here. -/
structure PidEntry where
  fdCount : UInt16

/-- Source: `pid_table`. -/
abbrev PidTable := Table Key PidEntry maxProcessCount

/-- Source: `file_table`. -/
abbrev FileTable := Table Key FdSummary.FileEntry maxFileCount

/-- Source: `populate_ctx_t`. -/
structure PopulateCtx where
  putSuccess : Bool
  maxFds : Kmin Key

/-- The loop of `table_foreach_key` over the keys that are left; `none` if the function reads
through `NULL`. -/
def foreachKey (func : Key → Nat → PopulateCtx → Option (Bool × PopulateCtx)) :
    List Key → Nat → PopulateCtx → Option PopulateCtx
  | [], _, ctx => some ctx
  | key :: keys, index, ctx =>
    (func key index ctx).bind fun r =>
      if r.1 then foreachKey func keys (index + 1) r.2 else some r.2

section
variable {β : Type} {cap : Nat}

/-- Source: `table_foreach_key`. -/
def tableForeachKey (table : Table Key β cap) (ctx : PopulateCtx)
    (func : Table Key β cap → Key → Nat → PopulateCtx → Option (Bool × PopulateCtx)) :
    Option PopulateCtx :=
  foreachKey (func table) table.keys 0 ctx

/-- Source: `kmin_ident_at`; `none` if the assertion fails. -/
def kminIdentAt (k : Kmin Key) (index : Nat) : Option (Option Key) :=
  (k.kminResultAt index).map Prod.snd

/-- Source: `populate_maximums`. The array holds pointers, `none` for `NULL`. -/
def populateMaximums (tim : Timsort Key) (table : Table Key β cap)
    (func : Table Key β cap → Key → Nat → PopulateCtx → Option (Bool × PopulateCtx)) :
    Option (List (Option Key)) :=
  let top10 := List.replicate itemCount (some [])
  let maxFds := (kminCreate table.entries.length).kminInvert true
  (tableForeachKey table ⟨true, maxFds⟩ func).bind fun ctx =>
    if ctx.putSuccess then
      let found := ctx.maxFds.kminCompact.kminFind tim 0 itemCount
      match found.1 with
      | none => some top10
      | some count =>
        ((List.range count).mapM (kminIdentAt found.2)).map fun idents =>
          idents ++ top10.drop count
    else some top10

end

/-- Source: the function in `populate_max_by_pid`. -/
def foreachPid (table : PidTable) (key : Key) (index : Nat) (ctx : PopulateCtx) :
    Option (Bool × PopulateCtx) :=
  (table.get key).map fun entry =>
    let put := ctx.maxFds.kminPut index entry.fdCount.toUInt32 key
    (put.1, { ctx with putSuccess := put.1, maxFds := put.2 })

/-- Source: the function in `populate_max_by_file`. -/
def foreachFile (table : FileTable) (key : Key) (index : Nat) (ctx : PopulateCtx) :
    Option (Bool × PopulateCtx) :=
  if key.head? ≠ some '/' then some (true, ctx)
  else
    (table.get key).map fun entry =>
      let put := ctx.maxFds.kminPut index entry.fdCount.toUInt32 key
      (put.1, { ctx with putSuccess := put.1, maxFds := put.2 })

/-- Source: `populate_max_by_pid`. -/
def populateMaxByPid (tim : Timsort Key) (table : PidTable) : Option (List (Option Key)) :=
  populateMaximums tim table foreachPid

/-- Source: `populate_max_by_file`. -/
def populateMaxByFile (tim : Timsort Key) (table : FileTable) : Option (List (Option Key)) :=
  populateMaximums tim table foreachFile

/-- The array lists the eligible keys with the largest counts, and then empty texts. -/
structure TopTen (eligible : List Key) (count : Key → UInt16) (listed : List Key)
    (top10 : List (Option Key)) : Prop where
  top10_eq : top10 = listed.map some ++ List.replicate (itemCount - listed.length) (some [])
  length_eq : listed.length = min itemCount eligible.length
  nodup : listed.Nodup
  subset : listed ⊆ eligible
  sorted : listed.Pairwise fun a b => count b ≤ count a
  largest : ∀ key ∈ eligible, key ∉ listed → ∀ a ∈ listed, count key ≤ count a

/-- The count of a process. -/
def pidCount (table : PidTable) (key : Key) : UInt16 := ((table.get key).map (·.fdCount)).getD 0

/-- The count of a file. -/
def fileCount (table : FileTable) (key : Key) : UInt16 := ((table.get key).map (·.fdCount)).getD 0

/-- The keys of files. -/
def isFile (key : Key) : Bool := key.head? = some '/'

/-! ### Filling the set -/

section
variable (eligible : Key → Bool) (count : Key → UInt16)

/-- What both functions do with a key. -/
def putIf (key : Key) (index : Nat) (ctx : PopulateCtx) : Bool × PopulateCtx := if eligible key then
    let put := ctx.maxFds.kminPut index (count key).toUInt32 key
    (put.1, { ctx with putSuccess := put.1, maxFds := put.2 })
  else (true, ctx)

/-- The element that a key leads to. -/
def elementOf (key : Key) : KminElement Key :=
  if eligible key then .ofPut ((count key).toUInt32, key) else .zero

end

lemma foreachPid_eq {table : PidTable} {key : Key} (hkey : key ∈ table.keys) (index : Nat)
    (ctx : PopulateCtx) :
    foreachPid table key index ctx =
      some (putIf (fun _ => true) (pidCount table) key index ctx) := by
  obtain ⟨entry, hentry⟩ := isSome_iff_exists.mp (Table.get_isSome_iff.mpr hkey)
  simp [foreachPid, putIf, pidCount, hentry]

lemma foreachFile_eq {table : FileTable} {key : Key} (hkey : key ∈ table.keys) (index : Nat)
    (ctx : PopulateCtx) :
    foreachFile table key index ctx = some (putIf isFile (fileCount table) key index ctx) := by
  obtain ⟨entry, hentry⟩ := isSome_iff_exists.mp (Table.get_isSome_iff.mpr hkey)
  by_cases hfile : key.head? = some '/'
  · simp [foreachFile, putIf, fileCount, isFile, hentry, hfile]
  · simp [foreachFile, putIf, isFile, hfile]

variable {ctx : PopulateCtx}

section
variable {eligible : Key → Bool} {count : Key → UInt16}

/-- One key: its position in the array is filled, or left as it is. -/
lemma putIf_spec (key : Key) {done : List (KminElement Key)} {n : Nat}
    (hsuccess : ctx.putSuccess = true)
    (harr : ctx.maxFds.arr = done ++ List.replicate (n + 1) .zero) :
    ∃ ctx', putIf eligible count key done.length ctx = (true, ctx') ∧ ctx'.putSuccess = true ∧
      ctx'.maxFds.arr = (done ++ [elementOf eligible count key]) ++ List.replicate n .zero ∧
      ctx'.maxFds.invert = ctx.maxFds.invert := by
  have hshift : done ++ List.replicate (n + 1) (.zero : KminElement Key) =
      (done ++ [.zero]) ++ List.replicate n .zero := by
    rw [replicate_succ, append_assoc, singleton_append]
  unfold putIf elementOf
  split_ifs with helig
  · have hlt : done.length < ctx.maxFds.arr.length := by
      rw [harr, length_append, length_replicate]
      omega
    have hnull : ctx.maxFds.arr[done.length].ident = none := by
      simp [harr, KminElement.zero]
    obtain ⟨hput, hset, hinvert⟩ := Kmin.kminPut_of_ident_eq_none hlt hnull (count key).toUInt32 key
    refine ⟨_, Prod.ext hput rfl, hput, ?_, hinvert⟩
    rw [hset, harr, set_append_right _ _ (Nat.le_refl _), Nat.sub_self, replicate_succ,
      set_cons_zero, append_assoc, singleton_append]
  · exact ⟨ctx, rfl, hsuccess, harr.trans hshift, rfl⟩

/-- The loop fills the position of each key. -/
lemma foreachKey_spec {func : Key → Nat → PopulateCtx → Option (Bool × PopulateCtx)}
    {keys : List Key}
    (hfunc : ∀ key ∈ keys, ∀ index ctx,
      func key index ctx = some (putIf eligible count key index ctx))
    {done : List (KminElement Key)} (hsuccess : ctx.putSuccess = true)
    (harr : ctx.maxFds.arr = done ++ List.replicate keys.length .zero) :
    ∃ ctx', foreachKey func keys done.length ctx = some ctx' ∧ ctx'.putSuccess = true ∧
      ctx'.maxFds.arr = done ++ keys.map (elementOf eligible count) ∧
      ctx'.maxFds.invert = ctx.maxFds.invert := by
  induction keys generalizing done ctx with
  | nil => exact ⟨ctx, rfl, hsuccess, harr, rfl⟩
  | cons key keys ih =>
    obtain ⟨ctx₁, hput, hsuccess₁, harr₁, hinvert₁⟩ := putIf_spec key hsuccess harr
    obtain ⟨ctx', hloop, hsuccess', harr', hinvert'⟩ :=
      ih (fun key' hkey' => hfunc key' (mem_cons_of_mem key hkey')) hsuccess₁ harr₁
    refine ⟨ctx', ?_, hsuccess', ?_, hinvert'.trans hinvert₁⟩
    · rw [foreachKey, hfunc key mem_cons_self, hput, bind_some, if_pos rfl]
      rw [length_append, length_singleton] at hloop
      exact hloop
    · rw [harr', map_cons, append_assoc, singleton_append]

/-- Compacting leaves the elements of the eligible keys. -/
lemma filter_map_elementOf (keys : List Key) :
    (keys.map (elementOf eligible count)).filter KminElement.isFilled =
      (keys.filter eligible).map fun key => .ofPut ((count key).toUInt32, key) := by
  induction keys with
  | nil => rfl
  | cons key keys ih =>
    by_cases helig : eligible key
    · have helement : elementOf eligible count key = .ofPut ((count key).toUInt32, key) := by
        rw [elementOf, if_pos helig]
      rw [map_cons, helement, filter_cons_of_pos rfl, filter_cons_of_pos helig, map_cons, ih]
    · have helement : elementOf eligible count key = .zero := by rw [elementOf, if_neg helig]
      rw [map_cons, helement, filter_cons_of_neg (by simp [KminElement.zero]),
        filter_cons_of_neg helig, ih]

/-! ### Selecting the largest -/

/-- The keys of the largest elements of a set. -/
def largestKeys (tim : Timsort Key) (k : Kmin Key) : List Key :=
  ((k.handleMacroTimsort tim).contents.map Prod.snd).take itemCount

variable {k : Kmin Key}

lemma length_largestKeys (tim : Timsort Key) (hfull : k.filled = k.size) :
    (largestKeys tim k).length = min k.size itemCount := by
  rw [largestKeys, length_take, length_map, Nat.min_comm,
    Kmin.length_contents_handleMacroTimsort tim hfull]

/-- A full set that is not empty gives the keys of its largest elements. -/
lemma mapM_kminIdentAt (tim : Timsort Key) (hfull : k.filled = k.size) (hsize : 0 < k.size) :
    (List.range (min k.size itemCount)).mapM (kminIdentAt (k.kminFind tim 0 itemCount).2) =
      some ((largestKeys tim k).map some) := by
  have hlength : ((largestKeys tim k).map some).length = min k.size itemCount := by
    rw [length_map, length_largestKeys tim hfull]
  rw [← hlength]
  refine mapM_range_eq_some fun i hi => ?_
  rw [hlength] at hi
  obtain ⟨p, hp, hresult⟩ := Kmin.kminResultAt_kminFind_of_le tim hfull hsize hi (Nat.zero_le i)
  have hkey : (largestKeys tim k)[i]? = some p.2 := by
    rw [largestKeys, getElem?_take_of_lt (by omega), getElem?_map, hp, map_some]
  rw [kminIdentAt, hresult, getElem?_map, hkey]
  rfl

/-- The keys of the largest elements are a selection of the keys. -/
lemma selects_largestKeys (tim : Timsort Key) {keys : List Key} (hfull : k.filled = k.size)
    (hinvert : k.invert = true)
    (harr : k.arr = keys.map fun key => .ofPut ((count key).toUInt32, key)) :
    Selects (fun a b => count b ≤ count a) itemCount keys (largestKeys tim k) := by
  have hselects := (tim k.invert).selects_take itemCount k.arr
  -- read the keys off the elements again
  have hkeys : k.arr.map (fun e => e.ident.getD []) = keys := by
    rw [harr, List.map_map]
    exact List.map_id keys
  have hlargest : ((tim k.invert).sort k.arr).map (fun e => e.ident.getD []) =
      (k.handleMacroTimsort tim).contents.map Prod.snd := by
    change (k.handleMacroTimsort tim).arr.map _ = _
    rw [Kmin.arr_handleMacroTimsort tim hfull, List.map_map]
    rfl
  rw [← hkeys, largestKeys, ← hlargest, ← map_take]
  refine hselects.map fun x hx y hy hrel => ?_
  rw [harr] at hx hy
  obtain ⟨a, -, rfl⟩ := List.mem_map.mp hx
  obtain ⟨b, -, rfl⟩ := List.mem_map.mp hy
  rw [sortCmp_nonpos_iff, hinvert] at hrel
  exact UInt16.toUInt32_le.mp hrel

end

section
variable (tim : Timsort Key) {β : Type} {cap : Nat} {table : Table Key β cap}
  {func : Table Key β cap → Key → Nat → PopulateCtx → Option (Bool × PopulateCtx)}

/-- The array after a loop that put every key it should. -/
lemma populateMaximums_eq
    (hloop : tableForeachKey table ⟨true, (kminCreate table.entries.length).kminInvert true⟩ func =
      some ctx)
    (hsuccess : ctx.putSuccess = true) :
    populateMaximums tim table func = some ((largestKeys tim ctx.maxFds.kminCompact).map some ++
        List.replicate (itemCount - (largestKeys tim ctx.maxFds.kminCompact).length)
          (some [])) := by
  have hfull := Kmin.filled_kminCompact ctx.maxFds
  have hlength := length_largestKeys tim hfull
  unfold populateMaximums
  dsimp only
  rw [hloop, bind_some, if_pos hsuccess]
  by_cases hsize : 0 < ctx.maxFds.kminCompact.size
  · rw [Kmin.fst_kminFind tim hfull hsize]
    dsimp only
    rw [mapM_kminIdentAt tim hfull hsize, map_some, drop_replicate, hlength]
  · -- without an eligible key `kmin_find` fails and the array stays empty
    have hnil : largestKeys tim ctx.maxFds.kminCompact = [] := length_eq_zero_iff.mp (by omega)
    rw [Kmin.fst_kminFind_of_le tim (by omega), hnil]
    rfl

/-- The array for a table whose function puts the counts of the eligible keys. -/
lemma exists_topTen {eligible : Key → Bool} {count : Key → UInt16}
    (hfunc : ∀ key ∈ table.keys, ∀ index ctx,
      func table key index ctx = some (putIf eligible count key index ctx)) :
    ∃ top10 listed, populateMaximums tim table func = some top10 ∧
      TopTen (table.keys.filter eligible) count listed top10 := by
  let ctx₀ : PopulateCtx := ⟨true, (kminCreate table.entries.length).kminInvert true⟩
  have hempty : ctx₀.maxFds.arr = [] ++ List.replicate table.keys.length .zero := by
    rw [Table.keys, length_map]
    rfl
  obtain ⟨ctx, hloop, hsuccess, harr, hinvert⟩ := foreachKey_spec hfunc rfl hempty
  have hcompact : ctx.maxFds.kminCompact.arr =
      (table.keys.filter eligible).map fun key => .ofPut ((count key).toUInt32, key) := by
    rw [Kmin.arr_kminCompact, harr, nil_append, filter_map_elementOf]
  have hselects := selects_largestKeys tim (Kmin.filled_kminCompact ctx.maxFds)
    ((Kmin.invert_kminCompact ctx.maxFds).trans hinvert) hcompact
  refine ⟨_, _, populateMaximums_eq tim hloop hsuccess, rfl, hselects.length_eq, hselects.nodup ?_,
    hselects.subset, hselects.sorted, fun key hkey hnot a ha => ?_⟩
  · exact List.Nodup.filter _ table.nodup
  · exact hselects.rel_of_not_mem ha hkey hnot

end

/-- The processes and the files with the most descriptors are listed. -/
theorem topTen_populate (tim : Timsort Key) (pids : PidTable) (files : FileTable) :
    (∃ top10 listed, populateMaxByPid tim pids = some top10 ∧
      TopTen pids.keys (pidCount pids) listed top10) ∧
    ∃ top10 listed, populateMaxByFile tim files = some top10 ∧
      TopTen (files.keys.filter isFile) (fileCount files) listed top10 := by
  refine ⟨?_, exists_topTen tim fun key hkey => foreachFile_eq hkey⟩
  obtain ⟨top10, listed, htop, htopTen⟩ :=
    exists_topTen tim fun key (hkey : key ∈ pids.keys) => foreachPid_eq hkey
  rw [filter_true] at htopTen
  exact ⟨top10, listed, htop, htopTen⟩

end PiksiBuildroot.ResourceMonitor.TopCounts
