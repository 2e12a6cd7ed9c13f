import PiksiBuildroot.Lib.Block
import PiksiBuildroot.Lib.CText

/-!
# The summary of open files

The last message of the file descriptor query names the files that are open most often, each as
its count, a zero character, its name and a zero character, and an empty count ends the list.
There are 251 bytes for it. A pair that does not fit is cut with two zero characters at the end of
these bytes, wherever they fall. No write leaves the payload (`exists_sendFdSummary`); what the
receiver finds is `faithful_iff`.
-/

namespace PiksiBuildroot.ResourceMonitor.FdSummary

open Lib CText List Option

/-- Source: `SBP_FRAMING_MAX_PAYLOAD_SIZE`. -/
def maxPayloadSize : Nat := 255

/-- The size of `msg_linux_process_fd_summary_t`, which ends with an array of no elements. -/
def summarySize : Nat := 4

/-- Source: `fd_summary_max_size`. -/
def fdSummaryMaxSize : Nat := maxPayloadSize - summarySize

/-- Source: `ITEM_COUNT`. -/
def itemCount : Nat := 10

/-- The largest `int`. -/
def intMax : Nat := 2147483647

/-- Source: `file_entry_t`; the name is a text of C. -/
structure FileEntry where
  fileStr : List Char
  fdCount : UInt16
  no_zero : '\x00' ∉ fileStr

namespace FileEntry

/-- The count as `%d` prints it. -/
def digits (e : FileEntry) : List Char := Nat.toDigits 10 e.fdCount.toNat

/-- What `%d%c%s` prints. -/
def text (e : FileEntry) : List Char := e.digits ++ '\x00' :: e.fileStr

/-- The text with the terminator that `snprintf` adds. -/
def encoded (e : FileEntry) : List Char := e.text ++ ['\x00']

end FileEntry

/-- What `snprintf` stores: nothing if there is no room. -/
def stored (size : Nat) (text : List Char) : List Char :=
  if size = 0 then [] else snprintf size text ++ ['\x00']

/-- The loop over the files. A call of `snprintf` fails if the length of the text is no `int`; what
it may store then stands where nothing is sent. Source: `query_fd_prepare`, the loop over
`state->top10_file_counts`. -/
def writeEntries : List FileEntry → Block Char fdSummaryMaxSize → Nat →
      Option (Block Char fdSummaryMaxSize × Nat)
  | [], most, consumed => some (most, consumed)
  | e :: files, most, consumed =>
    if e.fileStr = [] then writeEntries files most consumed
    else if intMax < e.text.length then some (most, consumed)
    else
      let remaining := fdSummaryMaxSize - consumed
      (most.store consumed (stored remaining e.text)).bind fun most =>
        let consumed := consumed + e.text.length + 1
        if fdSummaryMaxSize < consumed then
          (most.store (fdSummaryMaxSize - 2) ['\x00']).bind fun most =>
            (most.store (fdSummaryMaxSize - 1) ['\x00']).map fun most => (most, fdSummaryMaxSize)
        else writeEntries files most consumed

/-- Source: `msg_linux_process_fd_summary_t` with the bytes of the payload behind it. -/
structure Summary where
  sysFdCount : UInt32
  mostOpened : Block Char fdSummaryMaxSize

/-- The message of `query_fd_prepare` in the state `SEND_FD_SUMMARY`, with the value for `*len`.
There is no result if a write leaves the payload. `files` are the entries for
`state->top10_file_counts`, of which the unused ones have no name, and `most` is what is in the
payload before. -/
def sendFdSummary (totalFdCount : UInt32) (files : List FileEntry)
    (most : Block Char fdSummaryMaxSize) : Option (Summary × UInt8) :=
  (writeEntries files most 0).bind fun (most, consumed) =>
    if consumed < fdSummaryMaxSize then
      (most.store consumed ['\x00']).map fun most =>
        (⟨totalFdCount, most⟩, UInt8.ofNat (summarySize + (consumed + 1)))
    else some (⟨totalFdCount, most⟩, UInt8.ofNat (summarySize + consumed))

/-- Source: `query_fd_prepare` when it is called in the state `SEND_FD_SUMMARY`, with the numbers of
entries in the two tables. With too few it changes to `SEND_ERROR`, and there is no summary. -/
def queryFdPrepare (pidCount fileCount : Nat) (totalFdCount : UInt32) (files : List FileEntry)
    (most : Block Char fdSummaryMaxSize) : Option (Option (Summary × UInt8)) :=
  if pidCount < itemCount ∨ fileCount < itemCount then some none
  else (sendFdSummary totalFdCount files most).map some

/-- The bytes that are sent behind the count of all files. -/
def Summary.content (summary : Summary) (len : UInt8) : List Char :=
  summary.mostOpened.toList.take (len.toNat - summarySize)

/-! ### What the receiver finds -/

/-- A count and a name at a time, up to an empty count. -/
def pairUp : List (List Char) → List (Nat × List Char)
  | count :: name :: more => if count = [] then [] else (value 10 count, name) :: pairUp more
  | _ => []

/-- The pairs in a text. -/
def decode (content : List Char) : List (Nat × List Char) := pairUp (content.splitOnP (· == '\x00'))

/-- The files with a name. -/
def named (files : List FileEntry) : List FileEntry := files.filter fun e => e.fileStr ≠ []

/-- The counts and names of some files. -/
def pairsOf (files : List FileEntry) : List (Nat × List Char) :=
  files.map fun e => (e.fdCount.toNat, e.fileStr)

/-- The pairs one after the other. -/
def encode (files : List FileEntry) : List Char := files.flatMap FileEntry.encoded

/-- Some of the pairs from the first on, the last perhaps with its name cut. -/
def Shows (decoded pairs : List (Nat × List Char)) : Prop :=
  decoded = [] ∨ ∃ whole count cut name more, decoded = whole ++ [(count, cut)] ∧
    pairs = whole ++ (count, name) :: more ∧ cut <+: name

/-- The content ends with two zero characters, and the receiver finds the pairs in it: all of them
if there is room. -/
structure Faithful (files : List FileEntry) (content : List Char) : Prop where
  terminated : ['\x00', '\x00'] <:+ content
  shows : Shows (decode content) (pairsOf (named files))
  complete : (encode (named files)).length < fdSummaryMaxSize →
    decode content = pairsOf (named files)

/-- The files that are printed before a call of `snprintf` fails. -/
def shown (files : List FileEntry) : List FileEntry :=
  (named files).takeWhile fun e => e.text.length ≤ intMax

/-- There is a pair, the pairs do not take all the bytes, and if they take more, the cut is not
inside a count. -/
structure Clean (entries : List FileEntry) : Prop where
  ne_nil : entries ≠ []
  ne_max : (encode entries).length ≠ fdSummaryMaxSize
  count_whole : fdSummaryMaxSize < (encode entries).length → ∀ whole e rest,
    entries = whole ++ e :: rest → (encode whole).length < fdSummaryMaxSize - 2 →
    fdSummaryMaxSize - 2 < (encode (whole ++ [e])).length →
    (encode whole).length + e.digits.length ≤ fdSummaryMaxSize - 2

/-! ### The bytes that are written -/

@[simp] lemma encode_nil : encode [] = [] := rfl

@[simp] lemma encode_cons (e : FileEntry) (entries : List FileEntry) :
    encode (e :: entries) = e.encoded ++ encode entries := flatMap_cons

@[simp] lemma encode_append (a b : List FileEntry) : encode (a ++ b) = encode a ++ encode b :=
  flatMap_append

variable {files : List FileEntry} {e : FileEntry}

lemma shown_cons_of_eq_nil (h : e.fileStr = []) : shown (e :: files) = shown files := by
  simp [shown, named, h]

lemma shown_cons_of_lt (hname : e.fileStr ≠ []) (h : intMax < e.text.length) :
    shown (e :: files) = [] := by
  simp [shown, named, hname, h]

lemma shown_cons_of_le (hname : e.fileStr ≠ []) (h : e.text.length ≤ intMax) :
    shown (e :: files) = e :: shown files := by
  simp [shown, named, hname, h]

/-- A text that is too long for the payload is cut. -/
def clip (text : List Char) : List Char := if text.length ≤ fdSummaryMaxSize then text
  else text.take (fdSummaryMaxSize - 2) ++ ['\x00', '\x00']

lemma length_clip_le (text : List Char) : (clip text).length ≤ fdSummaryMaxSize := by
  unfold clip
  split_ifs with h
  · exact h
  · have hmax : fdSummaryMaxSize = 251 := rfl
    simp only [length_append, length_take, length_cons, length_nil]
    omega

lemma length_clip_of_lt {text : List Char} (h : fdSummaryMaxSize < text.length) :
    (clip text).length = fdSummaryMaxSize := by
  have hmax : fdSummaryMaxSize = 251 := rfl
  rw [clip, if_neg (by omega), length_append, length_take]
  simp only [length_cons, length_nil]
  omega

variable {size : Nat}

lemma length_stored {text : List Char} (h : size ≤ text.length + 1) :
    (stored size text).length = size := by
  unfold stored
  split_ifs with hsize
  · exact hsize.symm
  · rw [snprintf, length_append, length_take, length_singleton]
    omega

lemma stored_of_lt {text : List Char} (h : text.length < size) :
    stored size text = text ++ ['\x00'] := by
  rw [stored, if_neg (by omega), snprintf, take_of_length_le (by omega)]

variable {done text : List Char}

/-- What does not fit agrees with the text up to the last two bytes. -/
lemma take_append_stored (hdone : done.length ≤ fdSummaryMaxSize)
    (h : fdSummaryMaxSize ≤ done.length + text.length) :
    (done ++ stored (fdSummaryMaxSize - done.length) text).take (fdSummaryMaxSize - 2) =
      (done ++ text).take (fdSummaryMaxSize - 2) := by
  unfold stored
  split_ifs with hsize
  · rw [append_nil, take_append_of_le_length (by omega)]
  · rw [snprintf, ← append_assoc, take_append_of_le_length
      (by rw [length_append, length_take]; omega), take_append, take_append,
      take_take, Nat.min_eq_left (by omega)]

variable {most : Block Char fdSummaryMaxSize}

/-- What is stored of a pair that does not fit, up to the last two bytes. -/
lemma exists_store_cut (hdone : most.toList.take done.length = done)
    (hle : done.length ≤ fdSummaryMaxSize) (h : fdSummaryMaxSize < done.length + text.length + 1) :
    ∃ most', most.store done.length (stored (fdSummaryMaxSize - done.length) text) = some most' ∧
      most'.toList.take (fdSummaryMaxSize - 2) = (done ++ text).take (fdSummaryMaxSize - 2) := by
  have hlength := @length_stored (fdSummaryMaxSize - done.length) text (by omega)
  obtain ⟨most', hstore, -⟩ := @Block.exists_store _ _ most done.length
    (stored (fdSummaryMaxSize - done.length) text) (by omega)
  refine ⟨most', hstore, ?_⟩
  have hfirst := Block.take_of_store hstore
  rw [hlength, hdone, Nat.add_sub_cancel' hle] at hfirst
  rw [← take_append_stored hle (by omega), ← hfirst, take_take, Nat.min_eq_left (Nat.sub_le _ _)]

/-- What is stored of a pair that fits. -/
lemma exists_store_encoded {done : List Char} (hdone : most.toList.take done.length = done)
    (h : (done ++ e.encoded).length ≤ fdSummaryMaxSize) :
    ∃ most', most.store done.length (stored (fdSummaryMaxSize - done.length) e.text) = some most' ∧
      most'.toList.take (done ++ e.encoded).length = done ++ e.encoded := by
  have hlength : e.encoded.length = e.text.length + 1 := length_append
  rw [length_append] at h
  rw [stored_of_lt (by omega), ← FileEntry.encoded]
  obtain ⟨most', hstore, -⟩ := @Block.exists_store _ _ most done.length e.encoded h
  have hfirst := Block.take_of_store hstore
  rw [hdone, ← length_append] at hfirst
  exact ⟨most', hstore, hfirst⟩

/-- The two characters at the end. -/
lemma exists_store_end (most : Block Char fdSummaryMaxSize) :
    ∃ most', ((most.store (fdSummaryMaxSize - 2) ['\x00']).bind fun most =>
        (most.store (fdSummaryMaxSize - 1) ['\x00']).map fun most => (most, fdSummaryMaxSize)) =
          some (most', fdSummaryMaxSize) ∧
      most'.toList.take fdSummaryMaxSize =
        most.toList.take (fdSummaryMaxSize - 2) ++ ['\x00', '\x00'] := by
  obtain ⟨most₁, h₁, -⟩ := @Block.exists_store _ _ most (fdSummaryMaxSize - 2) ['\x00'] (by decide)
  obtain ⟨most₂, h₂, -⟩ := @Block.exists_store _ _ most₁ (fdSummaryMaxSize - 1) ['\x00'] (by decide)
  refine ⟨most₂, by rw [h₁, bind_some, h₂]; rfl, ?_⟩
  have htake := Block.take_of_store h₂
  rw [show fdSummaryMaxSize - 1 + ['\x00'].length = fdSummaryMaxSize from rfl,
    show fdSummaryMaxSize - 1 = fdSummaryMaxSize - 2 + ['\x00'].length from rfl,
    Block.take_of_store h₁, append_assoc] at htake
  exact htake

/-- The loop writes the pairs one after the other behind what is already there, up to the cut. -/
lemma exists_writeEntries (files : List FileEntry) :
    ∀ (done : List Char) (most : Block Char fdSummaryMaxSize),
      most.toList.take done.length = done → done.length ≤ fdSummaryMaxSize →
      ∃ most', writeEntries files most done.length =
          some (most', (clip (done ++ encode (shown files))).length) ∧
        most'.toList.take (clip (done ++ encode (shown files))).length =
          clip (done ++ encode (shown files)) := by
  have hnone : ∀ (done : List Char) (most : Block Char fdSummaryMaxSize),
      most.toList.take done.length = done → done.length ≤ fdSummaryMaxSize →
      (most, done.length) = (most, (clip (done ++ encode [])).length) ∧
        most.toList.take (clip (done ++ encode [])).length = clip (done ++ encode []) := by
    intro done most hdone hle
    rw [encode_nil, append_nil, clip, if_pos hle]
    exact ⟨rfl, hdone⟩
  induction files with
  | nil =>
    intro done most hdone hle
    obtain ⟨hpair, htake⟩ := hnone done most hdone hle
    exact ⟨most, congrArg some hpair, htake⟩
  | cons e files ih =>
    intro done most hdone hle
    rw [writeEntries]
    split_ifs with hname hint
    · rw [shown_cons_of_eq_nil hname]
      exact ih done most hdone hle
    · rw [shown_cons_of_lt hname hint]
      obtain ⟨hpair, htake⟩ := hnone done most hdone hle
      exact ⟨most, congrArg some hpair, htake⟩
    · rw [shown_cons_of_le hname (Nat.le_of_not_lt hint), encode_cons, ← append_assoc]
      dsimp only
      by_cases hlong : fdSummaryMaxSize < done.length + e.text.length + 1
      · -- the pair does not fit: the loop ends with the two characters at the end
        obtain ⟨most₁, hstore, hcut⟩ := exists_store_cut hdone hle hlong
        obtain ⟨most₂, hend, htake⟩ := exists_store_end most₁
        have hcutoff : fdSummaryMaxSize - 2 ≤ (done ++ e.text).length := by
          rw [length_append]
          omega
        have hlength : fdSummaryMaxSize < (done ++ e.encoded ++ encode (shown files)).length := by
          simp only [FileEntry.encoded, length_append, length_singleton]
          omega
        refine ⟨most₂, ?_, ?_⟩
        · rw [hstore, bind_some, if_pos hlong, hend, length_clip_of_lt hlength]
        · rw [length_clip_of_lt hlength, htake, hcut, clip, if_neg (Nat.not_le.mpr hlength),
            FileEntry.encoded, ← append_assoc, append_assoc _ _ (encode _),
            take_append_of_le_length hcutoff]
      · -- the pair fits: it stands behind what is there, with its terminator
        have hconsumed : done.length + e.text.length + 1 = (done ++ e.encoded).length := by
          rw [FileEntry.encoded, length_append, length_append, length_singleton, Nat.add_assoc]
        obtain ⟨most₁, hstore, htake⟩ := exists_store_encoded hdone (e := e) (by omega)
        rw [hstore, bind_some, if_neg hlong, hconsumed]
        exact ih (done ++ e.encoded) most₁ htake (by omega)

/-- What is sent for a text: the end is marked if there is room. -/
def framed (text : List Char) : List Char :=
  if text.length < fdSummaryMaxSize then text ++ ['\x00'] else clip text

lemma length_framed_le (text : List Char) : (framed text).length ≤ fdSummaryMaxSize := by
  unfold framed
  split_ifs with h
  · rw [length_append]
    exact h
  · exact length_clip_le text

lemma length_clip_lt_iff (text : List Char) :
    (clip text).length < fdSummaryMaxSize ↔ text.length < fdSummaryMaxSize := by
  by_cases hle : text.length ≤ fdSummaryMaxSize
  · rw [clip, if_pos hle]
  · rw [length_clip_of_lt (Nat.lt_of_not_le hle)]
    omega

/-- The content of a payload in which a text stands. -/
lemma content_of_take {text : List Char} (h : most.toList.take text.length = text)
    (hle : text.length ≤ fdSummaryMaxSize) (totalFdCount : UInt32) :
    (UInt8.ofNat (summarySize + text.length)).toNat ≤ maxPayloadSize ∧
      Summary.content ⟨totalFdCount, most⟩ (UInt8.ofNat (summarySize + text.length)) = text := by
  have hmax : fdSummaryMaxSize = 251 := rfl
  have hsize : summarySize = 4 := rfl
  have hpayload : maxPayloadSize = 255 := rfl
  have hlen : (UInt8.ofNat (summarySize + text.length)).toNat = summarySize + text.length := by
    rw [UInt8.toNat_ofNat']
    omega
  refine ⟨by omega, ?_⟩
  rw [Summary.content, hlen, Nat.add_sub_cancel_left, h]

section
variable (totalFdCount : UInt32) (files : List FileEntry) (most : Block Char fdSummaryMaxSize)

/-- Every write is inside the payload, and what is sent are the pairs, framed. -/
theorem exists_sendFdSummary :
    ∃ summary len, sendFdSummary totalFdCount files most = some (summary, len) ∧
      summary.sysFdCount = totalFdCount ∧ len.toNat ≤ maxPayloadSize ∧
      summary.content len = framed (encode (shown files)) := by
  obtain ⟨most₁, hwrite, htake⟩ := exists_writeEntries files [] most rfl (Nat.zero_le _)
  rw [nil_append] at hwrite htake
  have hle := length_framed_le (encode (shown files))
  rw [sendFdSummary, show writeEntries files most 0 = _ from hwrite, bind_some]
  dsimp only
  by_cases hlt : (encode (shown files)).length < fdSummaryMaxSize
  · have hclip : clip (encode (shown files)) = encode (shown files) := if_pos (Nat.le_of_lt hlt)
    have hframed : framed (encode (shown files)) = encode (shown files) ++ ['\x00'] := if_pos hlt
    rw [hclip] at htake ⊢
    rw [hframed] at hle ⊢
    obtain ⟨most₂, hstore, -⟩ := @Block.exists_store _ _ most₁ (encode (shown files)).length
      ['\x00'] hlt
    have hlast := Block.take_of_store hstore
    rw [htake, ← length_append] at hlast
    rw [if_pos hlt, hstore]
    refine ⟨⟨totalFdCount, most₂⟩, _, rfl, rfl, ?_⟩
    have hcontent := content_of_take hlast hle totalFdCount
    rwa [length_append] at hcontent
  · have hframed : framed (encode (shown files)) = clip (encode (shown files)) := if_neg hlt
    rw [if_neg (by rwa [length_clip_lt_iff]), hframed]
    exact ⟨⟨totalFdCount, most₁⟩, _, rfl, rfl,
      content_of_take htake (length_clip_le _) totalFdCount⟩

end

/-! ### Reading the pairs back -/

lemma not_zero_of_mem_digits {c : Char} (h : c ∈ e.digits) : c ≠ '\x00' := by
  rintro rfl
  have hdigit : ('\x00' : Char).isDigit := Nat.isDigit_of_mem_toDigits (by decide) (by decide) h
  cases hdigit

lemma value_digits (e : FileEntry) : value 10 e.digits = e.fdCount.toNat := by
  rw [FileEntry.digits,
    value_ten fun c hc => Nat.isDigit_of_mem_toDigits (by decide) (by decide) hc,
    Nat.ofDigitChars_ten_toDigits]

lemma digits_ne_nil (e : FileEntry) : e.digits ≠ [] := Nat.toDigits_ne_nil

/-- An empty count ends the list. -/
lemma decode_zero (content : List Char) : decode ('\x00' :: content) = [] := by
  rw [decode, ← nil_append ('\x00' :: content), splitOnP_append_cons_of_forall_mem (by simp) _ rfl]
  cases content.splitOnP (· == '\x00') with
  | nil | cons name more => rfl

/-- A count and a name, each with its terminator. -/
lemma decode_append {count name : List Char} (hcount : count ≠ []) (hzero : '\x00' ∉ count)
    (hname : '\x00' ∉ name) (content : List Char) :
    decode (count ++ '\x00' :: (name ++ '\x00' :: content)) =
      (value 10 count, name) :: decode content := by
  have hne : ∀ {l : List Char}, '\x00' ∉ l → ∀ c ∈ l, (c == '\x00') = false := by
    intro l hl c hc
    exact beq_eq_false_iff_ne.mpr fun heq => hl (heq ▸ hc)
  rw [decode, splitOnP_append_cons_of_forall_mem (hne hzero) _ rfl,
    splitOnP_append_cons_of_forall_mem (hne hname) _ rfl, pairUp, if_neg hcount]
  rfl

lemma decode_encode_append (entries : List FileEntry) (content : List Char) :
    decode (encode entries ++ content) = pairsOf entries ++ decode content := by
  induction entries with
  | nil => rfl
  | cons e entries ih =>
    have hzero : '\x00' ∉ e.digits := fun h => not_zero_of_mem_digits h rfl
    have hsplit : encode (e :: entries) ++ content =
        e.digits ++ '\x00' :: (e.fileStr ++ '\x00' :: (encode entries ++ content)) := by
      simp [FileEntry.encoded, FileEntry.text]
    rw [hsplit, decode_append (digits_ne_nil e) hzero e.no_zero, ih, value_digits]
    rfl

variable {k : Nat} {entries : List FileEntry}

/-- A pair of which only the count is left, perhaps cut. -/
lemma decode_take_digits (hpos : 0 < k) (hk : k ≤ e.digits.length) :
    decode (e.text.take k ++ ['\x00', '\x00']) = [(value 10 (e.digits.take k), [])] := by
  have hne : e.digits.take k ≠ [] := by
    rw [Ne, take_eq_nil_iff]
    exact fun h => h.elim (Nat.ne_of_gt hpos) (digits_ne_nil e)
  have hzero : '\x00' ∉ e.digits.take k := fun h => not_zero_of_mem_digits (mem_of_mem_take h) rfl
  rw [FileEntry.text, take_append_of_le_length hk]
  exact decode_append hne hzero not_mem_nil []

/-- A pair with its name cut. -/
lemma decode_take_text (hk : e.digits.length < k) : decode (e.text.take k ++ ['\x00', '\x00']) =
      [(e.fdCount.toNat, e.fileStr.take (k - e.digits.length - 1))] := by
  obtain ⟨n, rfl⟩ : ∃ n, k = e.digits.length + (n + 1) := ⟨k - e.digits.length - 1, by omega⟩
  have hzero : '\x00' ∉ e.digits := fun h => not_zero_of_mem_digits h rfl
  have hname : '\x00' ∉ e.fileStr.take n := fun h => e.no_zero (mem_of_mem_take h)
  have htext : e.text.take (e.digits.length + (n + 1)) ++ ['\x00', '\x00'] =
      e.digits ++ '\x00' :: (e.fileStr.take n ++ '\x00' :: ['\x00']) := by
    rw [FileEntry.text, take_length_add_append, take_succ_cons, append_assoc, cons_append]
  rw [htext, decode_append (digits_ne_nil e) hzero hname, value_digits, decode_zero,
    Nat.add_sub_cancel_left, Nat.add_sub_cancel]

/-- A count that is cut has another value. -/
lemma value_take_digits_ne (hpos : 0 < k) (hk : k < e.digits.length) :
    value 10 (e.digits.take k) ≠ e.fdCount.toNat := by
  intro heq
  have hle := @mul_value_le_value_append 10 (by decide) (e.digits.take k) e.digits[k]
    (e.digits.drop (k + 1))
  rw [← drop_eq_getElem_cons hk, take_append_drop, value_digits, heq] at hle
  have hzero : e.fdCount.toNat = 0 := by omega
  have hlength : e.digits.length = 1 := by rw [FileEntry.digits, hzero]; rfl
  omega

variable {whole rest : List FileEntry} {n : Nat}

/-- The encoding up to a place in one of the pairs. -/
lemma take_encode (hle : (encode whole).length ≤ n) (hlt : n < (encode (whole ++ [e])).length) :
    (encode (whole ++ e :: rest)).take n =
      encode whole ++ e.text.take (n - (encode whole).length) := by
  obtain ⟨m, rfl⟩ := Nat.exists_eq_add_of_le hle
  have hm : m ≤ e.text.length := by
    simp only [encode_append, encode_cons, encode_nil, append_nil, length_append,
      FileEntry.encoded, length_singleton] at hlt
    omega
  rw [encode_append, encode_cons, take_length_add_append, FileEntry.encoded, append_assoc,
    take_append_of_le_length hm, Nat.add_sub_cancel_left]

/-- Every place of the encoding is in one of the pairs. -/
lemma exists_split (h : n < (encode entries).length) :
    ∃ whole e rest, entries = whole ++ e :: rest ∧ (encode whole).length ≤ n ∧
      n < (encode (whole ++ [e])).length := by
  induction entries generalizing n with
  | nil => exact absurd h (Nat.not_lt_zero n)
  | cons e entries ih =>
    by_cases hlt : n < e.encoded.length
    · exact ⟨[], e, entries, rfl, Nat.zero_le n, by simpa using hlt⟩
    · rw [encode_cons, length_append] at h
      obtain ⟨whole, e', rest, rfl, hle, hlt'⟩ := @ih (n - e.encoded.length) (by omega)
      refine ⟨e :: whole, e', rest, rfl, ?_, ?_⟩
      · rw [encode_cons, length_append]
        omega
      · rw [cons_append, encode_cons, length_append]
        omega

/-! ### When the receiver finds the pairs -/

lemma fileStr_ne_nil_of_mem_shown (h : e ∈ shown files) : e.fileStr ≠ [] := by
  have hnamed : e ∈ named files := (List.takeWhile_prefix _).subset h
  exact of_decide_eq_true (mem_filter.mp hnamed).2

/-- If there is room for all the pairs, no call of `snprintf` fails. -/
lemma shown_eq_named (h : (encode (named files)).length < fdSummaryMaxSize) :
    shown files = named files := by
  refine takeWhile_eq_self_iff.mpr fun e he => decide_eq_true ?_
  obtain ⟨before, after, hsplit⟩ := append_of_mem he
  have hlength : e.encoded.length = e.text.length + 1 := length_append
  rw [hsplit, encode_append, encode_cons, length_append, length_append] at h
  have hmax : fdSummaryMaxSize = 251 := rfl
  have hint : intMax = 2147483647 := rfl
  omega

/-- The last two characters of the encoding of a pair. -/
lemma exists_encoded_eq (h : e.fileStr ≠ []) :
    ∃ front c, c ≠ '\x00' ∧ e.encoded = front ++ [c] ++ ['\x00'] := by
  refine ⟨e.digits ++ '\x00' :: e.fileStr.dropLast, e.fileStr.getLast h, ?_, ?_⟩
  · exact fun hzero => e.no_zero (hzero ▸ getLast_mem h)
  · rw [append_assoc e.digits, cons_append, dropLast_append_getLast h]
    rfl

/-- Behind the last pair there is one zero character. -/
lemma not_terminated_encode (h : ∀ e ∈ entries, e.fileStr ≠ []) :
    ¬['\x00', '\x00'] <:+ encode entries := by
  intro hsuffix
  rcases entries.eq_nil_or_concat with rfl | ⟨front, e, rfl⟩
  · exact absurd (suffix_nil.mp hsuffix) (by simp)
  · obtain ⟨before, c, hc, hencoded⟩ := exists_encoded_eq (h e (by simp))
    have hencode : encode (front.concat e) = (encode front ++ before) ++ [c] ++ ['\x00'] := by
      simp [hencoded]
    rw [hencode, show ['\x00', '\x00'] = ['\x00'] ++ ['\x00'] from rfl,
      suffix_append_self_iff, suffix_concat_iff] at hsuffix
    obtain hnil | ⟨t, ht, -⟩ := hsuffix
    · cases hnil
    · have hlast := congrArg List.getLast? ht
      rw [getLast?_append, getLast?_singleton] at hlast
      exact hc (some_inj.mp hlast).symm

/-- If something was written, there are two characters at the end unless the pairs take all the
bytes. -/
lemma terminated_framed_iff (h : ∀ e ∈ entries, e.fileStr ≠ []) :
    ['\x00', '\x00'] <:+ framed (encode entries) ↔
      entries ≠ [] ∧ (encode entries).length ≠ fdSummaryMaxSize := by
  rcases Nat.lt_trichotomy (encode entries).length fdSummaryMaxSize with hlt | heq | hgt
  · rw [framed, if_pos hlt]
    refine ⟨fun hsuffix => ⟨?_, Nat.ne_of_lt hlt⟩, fun hne => ?_⟩
    · rintro rfl
      exact absurd hsuffix.length_le (by decide)
    · obtain ⟨front, e, rfl⟩ := entries.eq_nil_or_concat.resolve_left hne.1
      refine ⟨encode front ++ e.text, ?_⟩
      simp [FileEntry.encoded]
  · rw [framed, if_neg (Nat.not_lt.mpr (Nat.le_of_eq heq.symm)), clip, if_pos (Nat.le_of_eq heq)]
    exact ⟨fun hsuffix => absurd hsuffix (not_terminated_encode h), fun hne => absurd heq hne.2⟩
  · rw [framed, if_neg (Nat.lt_asymm hgt), clip, if_neg (Nat.not_le.mpr hgt)]
    refine ⟨fun _ => ⟨?_, Nat.ne_of_gt hgt⟩, fun _ => ⟨_, rfl⟩⟩
    rintro rfl
    exact absurd hgt (Nat.not_lt_zero _)

/-- What the receiver finds if not all the pairs fit. -/
lemma decode_framed_of_lt (h : fdSummaryMaxSize < (encode (whole ++ e :: rest)).length)
    (hle : (encode whole).length ≤ fdSummaryMaxSize - 2)
    (hlt : fdSummaryMaxSize - 2 < (encode (whole ++ [e])).length) :
    decode (framed (encode (whole ++ e :: rest))) = pairsOf whole ++
      decode (e.text.take (fdSummaryMaxSize - 2 - (encode whole).length) ++ ['\x00', '\x00']) := by
  rw [framed, if_neg (Nat.lt_asymm h), clip, if_neg (Nat.not_le.mpr h), take_encode hle hlt,
    append_assoc, decode_encode_append]

lemma shows_append (pairs more : List (Nat × List Char)) : Shows pairs (pairs ++ more) := by
  rcases pairs.eq_nil_or_concat with rfl | ⟨whole, ⟨count, name⟩, rfl⟩
  · exact .inl rfl
  · rw [concat_eq_append]
    exact .inr ⟨whole, count, name, name, more, rfl, by rw [append_assoc]; rfl, prefix_refl name⟩

lemma shows_append_iff {whole more : List (Nat × List Char)} {found count : Nat}
    {cut name : List Char} :
    Shows (whole ++ [(found, cut)]) (whole ++ (count, name) :: more) ↔
      found = count ∧ cut <+: name := by
  constructor
  · rintro (hnil | ⟨whole', found', cut', name', more', hfound, hpairs, hcut⟩)
    · exact absurd hnil (by simp)
    · obtain ⟨rfl, hlast⟩ := append_inj' hfound rfl
      obtain ⟨rfl, rfl⟩ := Prod.mk.inj (singleton_inj.mp hlast)
      obtain ⟨hhead, -⟩ := cons.inj (append_cancel_left hpairs)
      cases hhead
      exact ⟨rfl, hcut⟩
  · rintro ⟨rfl, hcut⟩
    exact .inr ⟨whole, found, cut, name, more, rfl, rfl, hcut⟩

lemma pairsOf_split (whole rest more : List FileEntry) (e : FileEntry) :
    pairsOf (whole ++ e :: rest ++ more) =
      pairsOf whole ++ (e.fdCount.toNat, e.fileStr) :: pairsOf (rest ++ more) := by
  simp [pairsOf]

/-- If not all the pairs fit, the receiver finds some of them exactly if no count is cut. -/
lemma shows_framed_iff {entries more : List FileEntry}
    (h : fdSummaryMaxSize < (encode entries).length) :
    Shows (decode (framed (encode entries))) (pairsOf (entries ++ more)) ↔
      ∀ whole e rest, entries = whole ++ e :: rest → (encode whole).length < fdSummaryMaxSize - 2 →
        fdSummaryMaxSize - 2 < (encode (whole ++ [e])).length →
        (encode whole).length + e.digits.length ≤ fdSummaryMaxSize - 2 := by
  constructor
  · rintro hshows whole e rest rfl hlt hlt'
    by_contra hcut
    rw [decode_framed_of_lt h (Nat.le_of_lt hlt) hlt', pairsOf_split,
      decode_take_digits (by omega) (by omega), shows_append_iff] at hshows
    exact value_take_digits_ne (by omega) (by omega) hshows.1
  · intro hcount
    obtain ⟨whole, e, rest, rfl, hle, hlt⟩ :=
      @exists_split entries (fdSummaryMaxSize - 2) (by omega)
    rw [decode_framed_of_lt h hle hlt, pairsOf_split]
    rcases Nat.eq_or_lt_of_le hle with heq | hlt'
    · -- nothing is left of this pair
      rw [heq, Nat.sub_self, take_zero, nil_append, decode_zero, append_nil]
      exact shows_append _ _
    · have hwhole := hcount whole e rest rfl hlt' hlt
      rcases Nat.eq_or_lt_of_le (Nat.le_sub_of_add_le' hwhole) with heq | hname
      · -- its count is left
        rw [← heq, decode_take_digits (by omega) (Nat.le_refl _), take_length, value_digits]
        exact shows_append_iff.mpr ⟨rfl, nil_prefix⟩
      · -- its name is cut
        rw [decode_take_text hname]
        exact shows_append_iff.mpr ⟨rfl, take_prefix _ _⟩

/-- If all the pairs fit with the mark of the end, the receiver finds all. -/
lemma decode_framed_of_length_lt (h : (encode entries).length < fdSummaryMaxSize) :
    decode (framed (encode entries)) = pairsOf entries := by
  rw [framed, if_pos h, decode_encode_append, decode_zero, append_nil]

/-- The summary shows the files exactly if its cut is clean. -/
lemma faithful_framed_iff (files : List FileEntry) :
    Faithful files (framed (encode (shown files))) ↔ Clean (shown files) := by
  obtain ⟨more, hmore⟩ : shown files <+: named files := takeWhile_prefix _
  have hterminated := terminated_framed_iff fun e => @fileStr_ne_nil_of_mem_shown files e
  constructor
  · intro hfaithful
    obtain ⟨hne, hmax⟩ := hterminated.mp hfaithful.terminated
    refine ⟨hne, hmax, fun hlong => ?_⟩
    rw [← shows_framed_iff hlong, hmore]
    exact hfaithful.shows
  · intro hclean
    refine ⟨hterminated.mpr ⟨hclean.ne_nil, hclean.ne_max⟩, ?_, fun hfits => ?_⟩
    · rw [← hmore]
      rcases Nat.lt_or_gt_of_ne hclean.ne_max with hlt | hlong
      · rw [decode_framed_of_length_lt hlt, pairsOf, pairsOf, map_append]
        exact shows_append _ _
      · exact (shows_framed_iff hlong).mpr (hclean.count_whole hlong)
    · rw [shown_eq_named hfits]
      exact decode_framed_of_length_lt hfits

/-- What is right about a summary: it is at most 255 bytes, and the receiver finds the end and the
pairs. -/
structure SummaryOk (totalFdCount : UInt32) (files : List FileEntry) (sent : Summary × UInt8) :
    Prop where
  length_le : sent.2.toNat ≤ maxPayloadSize
  sysFdCount_eq : sent.1.sysFdCount = totalFdCount
  faithful : Faithful files (sent.1.content sent.2)

/-- No write leaves the payload, and a summary that is sent is right exactly if there is a pair, the
pairs do not take all the bytes and no count is cut. -/
theorem faithful_iff (pidCount fileCount : Nat) (totalFdCount : UInt32) (files : List FileEntry)
    (most : Block Char fdSummaryMaxSize) :
    (∃ sent, queryFdPrepare pidCount fileCount totalFdCount files most = some sent ∧
      ∀ msg ∈ sent, SummaryOk totalFdCount files msg) ↔
      (itemCount ≤ pidCount → itemCount ≤ fileCount → Clean (shown files)) := by
  unfold queryFdPrepare
  split_ifs with hfew
  · -- nothing is sent
    refine ⟨fun _ hpid hfile => absurd hfew (by omega), fun _ => ⟨none, rfl, ?_⟩⟩
    exact fun msg hmsg => absurd hmsg (by simp)
  obtain ⟨summary, len, hsend, hcount, hlen, hcontent⟩ :=
    exists_sendFdSummary totalFdCount files most
  rw [hsend, ← faithful_framed_iff files, ← hcontent]
  constructor
  · rintro ⟨sent, hsent, hok⟩ - -
    exact (hok (summary, len) (some_inj.mp hsent ▸ rfl)).faithful
  · intro hfaithful
    refine ⟨some (summary, len), rfl, fun msg hmsg => ?_⟩
    obtain rfl := some_inj.mp hmsg
    exact ⟨hlen, hcount, hfaithful (by omega) (by omega)⟩

/-- A file whose name begins with a letter. -/
def openFile (letter : Fin 26) (length : Nat) (count : UInt16) : FileEntry where
  fileStr := '/' :: Char.ofNat (97 + letter) :: List.replicate length 'a'
  fdCount := count
  no_zero := by
    have hletter : ∀ letter : Fin 26, Char.ofNat (97 + letter) ≠ '\x00' := by decide
    simp [mem_replicate, (hletter letter).symm]

/-- An unused place has no name. -/
lemma no_zero_nil : '\x00' ∉ ([] : List Char) := not_mem_nil

/-- Two files with names of 120 characters that are open thirty times, one that is open twelve
times, and seven unused places because the other files are no paths. -/
def threeFiles : List FileEntry := [openFile 1 118 30, openFile 0 118 30, openFile 0 0 12] ++
    List.replicate 7 ⟨[], 0, no_zero_nil⟩

/-- A payload of blanks. -/
def blank : Block Char fdSummaryMaxSize := ⟨List.replicate fdSummaryMaxSize ' ', length_replicate⟩

/-- The names leave three bytes for the file that is open twelve times, and the receiver finds that
it is open once. -/
theorem not_faithful_cutCount :
    threeFiles.length = itemCount ∧ threeFiles.Pairwise (fun a b => b.fdCount ≤ a.fdCount) ∧
      ((named threeFiles).map FileEntry.fileStr).Nodup ∧
      ∃ summary len, queryFdPrepare 10 10 79 threeFiles blank = some (some (summary, len)) ∧
        decode (summary.content len) = pairsOf [openFile 1 118 30, openFile 0 118 30] ++ [(1, [])] ∧
        ¬Faithful threeFiles (summary.content len) := by
  refine ⟨rfl, by decide, by decide +kernel, ?_⟩
  obtain ⟨summary, len, hsend, -, -, hcontent⟩ := exists_sendFdSummary 79 threeFiles blank
  have hdecode : decode (summary.content len) =
      pairsOf [openFile 1 118 30, openFile 0 118 30] ++ [(1, [])] := by
    rw [hcontent]
    decide +kernel
  have hsent : queryFdPrepare 10 10 79 threeFiles blank = some (some (summary, len)) := by
    rw [queryFdPrepare, if_neg (by decide), hsend, map_some]
  refine ⟨summary, len, hsent, hdecode, fun hfaithful => ?_⟩
  have hshows := hfaithful.shows
  rw [hdecode] at hshows
  exact absurd (shows_append_iff.mp hshows).1 (by decide)

end PiksiBuildroot.ResourceMonitor.FdSummary
