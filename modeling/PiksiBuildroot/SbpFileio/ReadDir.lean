import PiksiBuildroot.SbpFileio.WriteMessage

/-!
# The listing of a directory

`read_dir_cb` answers with the names of the entries from the request's offset on, each with its
terminator, until a name does not fit in the payload of the reply. A name fits if it is not longer
than `max_len - len - 1`, which is computed in `size_t`: once the payload is full this is the
largest number of the type, every name fits, and `strcpy` writes behind the payload
(`readDirCb_isListing_iff`).
-/

namespace PiksiBuildroot.SbpFileio

open Lib FdCache List Option

/-- The name of an entry, as `readdir` returns it in `d_name`. -/
structure EntryName where
  toList : List UInt8
  length_pos : 0 < toList.length
  length_le : toList.length ≤ 255
  zero_notMem : 0 ∉ toList

lemma EntryName.toList_inj {a b : EntryName} : a.toList = b.toList ↔ a = b := by
  obtain ⟨a, _, _, _⟩ := a
  obtain ⟨b, _, _, _⟩ := b
  simp

instance : DecidableEq EntryName := fun _ _ => decidable_of_iff _ EntryName.toList_inj

/-- The name as a C string. -/
def EntryName.text (name : EntryName) : List UInt8 := name.toList ++ [0]

/-- The sequence number and the offset in front of the name. Source: `msg_fileio_read_dir_req_t`. -/
def sizeofReadDirReq : Nat := 8

/-- The sequence number in front of the contents. Source: `msg_fileio_read_dir_resp_t`. -/
def sizeofReadDirResp : Nat := 4

/-- Source: `max_len` of `read_dir_cb`. -/
def readDirMaxLen : Nat := sbpFramingMaxPayloadSize - sizeofReadDirResp

/-- What the callback asks the daemon and the system about a path. -/
structure DirAccess where
  pathValidatorCheck : List UInt8 → Bool
  opendir : List UInt8 → Option (List EntryName)

/-- Source: `msg->offset` of `read_dir_cb`. -/
def readDirOffset (msg : PayloadBuffer) : Nat :=
  ((msg.toList.drop 4).take 4).foldr (fun b n => b.toNat + 256 * n) 0

/-- Source: `msg->dirname` of `read_dir_cb`. -/
def readDirDirname (msg : PayloadBuffer) : List UInt8 :=
  (msg.toList.drop sizeofReadDirReq).takeWhile (· != 0)

/-- The loop over the entries; there is no result if `strcpy` leaves the payload.
Source: `read_dir_cb`. -/
def listEntries : List EntryName → PayloadBuffer → UInt8 → Option (PayloadBuffer × UInt8)
  | [], reply, len => some (reply, len)
  | dName :: entries, reply, len =>
    if sizetSub (sizetSub readDirMaxLen len.toNat) 1 < dName.toList.length then some (reply, len)
    else
      (reply.store (sizeofReadDirResp + len.toNat) dName.text).bind fun reply =>
        listEntries entries reply (len + .ofNat (dName.toList.length + 1))

/-- The branches of the callback on the terminated request. Source: `read_dir_cb`. -/
def readDirReply (fs : DirAccess) (msg reply : PayloadBuffer) : Option (PayloadBuffer × UInt8) :=
  if !fs.pathValidatorCheck (readDirDirname msg) then some (reply, 0)
  else
    match fs.opendir (readDirDirname msg) with
    | none => some (reply, 0)
    | some entries => listEntries (entries.drop (readDirOffset msg)) reply 0

inductive ReadDirOutcome where
  | rejected
  | outOfBounds
  | sent (payload : List UInt8)
  deriving DecidableEq

/-- A request of `len` bytes in its buffer; the memory of the reply is not initialised.
Source: `read_dir_cb`. -/
def readDirCb (fs : DirAccess) (alloca msg : PayloadBuffer) (len : UInt8) : ReadDirOutcome :=
  if len.toNat ≤ sizeofReadDirReq ∨ len.toNat = sbpFramingMaxPayloadSize then .rejected
  else
    match (msg.store len.toNat [0]).bind fun msg =>
        (alloca.store 0 (msg.toList.take 4)).bind (readDirReply fs msg) with
    | none => .outOfBounds
    | some (reply, len) => .sent (reply.toList.take (sizeofReadDirResp + len.toNat))

/-! ### What a listing is -/

/-- Names as a list delimited by terminators. -/
def packed (names : List EntryName) : List UInt8 := names.flatMap EntryName.text

/-- The names up to the first one that does not fit with its terminator. -/
def fitting : Nat → List EntryName → List EntryName
  | _, [] => []
  | room, name :: names =>
    if name.text.length ≤ room then name :: fitting (room - name.text.length) names else []

/-- Some of the names take up all of the room, and they are not all. -/
def FillsUp (room : Nat) (names : List EntryName) : Prop :=
  ∃ front name rest, names = front ++ name :: rest ∧ (packed front).length = room

/-- The entries that a request asks for. -/
def requested (fs : DirAccess) (msg : PayloadBuffer) (len : UInt8) : List EntryName :=
  let dirname := ((messageBytes msg len).drop sizeofReadDirReq).takeWhile (· != 0)
  if fs.pathValidatorCheck dirname then
    ((fs.opendir dirname).getD []).drop (readDirOffset msg)
  else []

/-- The reply has the sequence number of the request and the names that fit. -/
def IsListing (msg : PayloadBuffer) (names : List EntryName) (outcome : ReadDirOutcome) : Prop :=
  ∃ contents, outcome = .sent (msg.toList.take 4 ++ contents) ∧
    contents.length ≤ readDirMaxLen ∧ contents = packed (fitting readDirMaxLen names)

lemma EntryName.length_text (name : EntryName) : name.text.length = name.toList.length + 1 :=
  length_append

lemma packed_cons (name : EntryName) (names : List EntryName) :
    packed (name :: names) = name.text ++ packed names := flatMap_cons

variable {room : Nat} {name : EntryName} {names : List EntryName}

lemma fitting_of_le (h : name.text.length ≤ room) :
    fitting room (name :: names) = name :: fitting (room - name.text.length) names := if_pos h

lemma fitting_of_lt (h : room < name.text.length) : fitting room (name :: names) = [] :=
  if_neg (Nat.not_le.mpr h)

lemma length_packed_fitting_le (room : Nat) (names : List EntryName) :
    (packed (fitting room names)).length ≤ room := by
  induction names generalizing room with
  | nil => exact Nat.zero_le room
  | cons name names ih =>
    rcases Nat.lt_or_ge room name.text.length with hlt | hle
    · rw [fitting_of_lt hlt]
      exact Nat.zero_le room
    · have hrest := ih (room - name.text.length)
      rw [fitting_of_le hle, packed_cons, length_append]
      omega

lemma not_fillsUp_nil (room : Nat) : ¬FillsUp room [] := by
  rintro ⟨front, name, rest, hsplit, -⟩
  simp at hsplit

lemma fillsUp_zero_cons (name : EntryName) (names : List EntryName) :
    FillsUp 0 (name :: names) := ⟨[], name, names, rfl, rfl⟩

/-- While there is room left, the names have to fill it up with the first of them. -/
lemma fillsUp_cons_iff (hroom : 0 < room) (name : EntryName) (names : List EntryName) :
    FillsUp room (name :: names) ↔
      name.text.length ≤ room ∧ FillsUp (room - name.text.length) names := by
  constructor
  · rintro ⟨front, next, rest, hsplit, hlength⟩
    obtain - | ⟨first, front⟩ := front
    · rw [← hlength] at hroom
      exact absurd hroom (Nat.lt_irrefl 0)
    · obtain ⟨rfl, rfl⟩ := cons_eq_cons.mp hsplit
      rw [packed_cons, length_append] at hlength
      exact ⟨by omega, front, next, rest, rfl, by omega⟩
  · rintro ⟨hle, front, next, rest, rfl, hlength⟩
    refine ⟨name :: front, next, rest, rfl, ?_⟩
    rw [packed_cons, length_append]
    omega

/-! ### The loop over the entries -/

lemma add_ofNat_toNat {len : UInt8} {n : Nat} (h : len.toNat + n < 256) :
    (len + UInt8.ofNat n).toNat = len.toNat + n := by
  have hn : n < 256 := by omega
  rw [UInt8.toNat_add, UInt8.toNat_ofNat_of_lt' hn]
  exact Nat.mod_eq_of_lt h

/-- With room left, the test of the loop is whether the name fits with its terminator. -/
lemma room_lt_iff {len : UInt8} (hlen : len.toNat < readDirMaxLen) (name : EntryName) :
    sizetSub (sizetSub readDirMaxLen len.toNat) 1 < name.toList.length ↔
      readDirMaxLen - len.toNat < name.text.length := by
  have hmax : readDirMaxLen < 2 ^ 32 := by decide
  have hlength := name.length_text
  rw [sizetSub_of_le (Nat.le_of_lt hlen) hmax, sizetSub_of_le (Nat.sub_pos_of_lt hlen) (by omega)]
  omega

/-- Without room left there is no name that does not fit. -/
lemma not_room_lt {len : UInt8} (hlen : len.toNat = readDirMaxLen) (name : EntryName) :
    ¬sizetSub (sizetSub readDirMaxLen len.toNat) 1 < name.toList.length := by
  have hroom : sizetSub (sizetSub readDirMaxLen readDirMaxLen) 1 = 2 ^ 32 - 1 := by decide
  have hlength := name.length_le
  rw [hlen, hroom]
  omega

/-- One round that copies a name: the contents are longer by the name and its terminator. -/
lemma listEntries_cons {dName : EntryName} {len : UInt8}
    (hfits : len.toNat + dName.text.length ≤ readDirMaxLen) (entries : List EntryName)
    (reply : PayloadBuffer) :
    ∃ (reply' : PayloadBuffer) (len' : UInt8),
      listEntries (dName :: entries) reply len = listEntries entries reply' len' ∧
      len'.toNat = len.toNat + dName.text.length ∧
      reply'.toList.take (sizeofReadDirResp + len'.toNat) =
        reply.toList.take (sizeofReadDirResp + len.toNat) ++ dName.text := by
  have hlength := dName.length_text
  have hmax : sizeofReadDirResp + readDirMaxLen = sbpFramingMaxPayloadSize := by decide
  have hsmall : readDirMaxLen < 256 := by decide
  obtain ⟨reply', hstore, -⟩ := reply.exists_store
    (show sizeofReadDirResp + len.toNat + dName.text.length ≤ sbpFramingMaxPayloadSize by omega)
  have hlen' : (len + UInt8.ofNat (dName.toList.length + 1)).toNat =
      len.toNat + dName.text.length := by
    rw [add_ofNat_toNat (by omega), hlength]
  refine ⟨reply', len + UInt8.ofNat (dName.toList.length + 1), ?_, hlen', ?_⟩
  · rw [listEntries, if_neg ((room_lt_iff (by omega) dName).not.mpr (by omega)), hstore, bind_some]
  · rw [hlen', ← Nat.add_assoc]
    exact Block.take_of_store hstore

variable {entries : List EntryName}

/-- The names that fit are added to the contents, unless the room is filled up. -/
lemma exists_listEntries {len : UInt8} (hlen : len.toNat ≤ readDirMaxLen) (reply : PayloadBuffer)
    (hfills : ¬FillsUp (readDirMaxLen - len.toNat) entries) :
    ∃ reply' len', listEntries entries reply len = some (reply', len') ∧
      reply'.toList.take (sizeofReadDirResp + len'.toNat) =
        reply.toList.take (sizeofReadDirResp + len.toNat) ++
          packed (fitting (readDirMaxLen - len.toNat) entries) := by
  induction entries generalizing reply len with
  | nil => exact ⟨reply, len, rfl, (append_nil _).symm⟩
  | cons dName entries ih =>
    have hroom : len.toNat < readDirMaxLen := by
      by_contra hfull
      rw [Nat.sub_eq_zero_of_le (Nat.not_lt.mp hfull)] at hfills
      exact hfills (fillsUp_zero_cons dName entries)
    rw [fillsUp_cons_iff (Nat.sub_pos_of_lt hroom)] at hfills
    by_cases hfits : readDirMaxLen - len.toNat < dName.text.length
    · refine ⟨reply, len, ?_, ?_⟩
      · rw [listEntries, if_pos ((room_lt_iff hroom dName).mpr hfits)]
      · rw [fitting_of_lt hfits]
        exact (append_nil _).symm
    · have hle : dName.text.length ≤ readDirMaxLen - len.toNat := Nat.not_lt.mp hfits
      obtain ⟨reply₁, len₁, hround, hlen₁, htake⟩ :=
        listEntries_cons (show len.toNat + dName.text.length ≤ readDirMaxLen by omega)
          entries reply
      have hrest : readDirMaxLen - len.toNat - dName.text.length =
          readDirMaxLen - len₁.toNat := by omega
      obtain ⟨reply', len', hresult, htake'⟩ := ih (show len₁.toNat ≤ readDirMaxLen by omega)
        reply₁ fun hfills' => hfills ⟨hle, hrest ▸ hfills'⟩
      refine ⟨reply', len', hround.trans hresult, ?_⟩
      rw [htake', htake, fitting_of_le hle, packed_cons, hrest, append_assoc]

/-- Once the room is filled up, the next name is written behind the payload. -/
lemma listEntries_eq_none {len : UInt8} (hlen : len.toNat ≤ readDirMaxLen) (reply : PayloadBuffer)
    (hfills : FillsUp (readDirMaxLen - len.toNat) entries) :
    listEntries entries reply len = none := by
  induction entries generalizing reply len with
  | nil => exact absurd hfills (not_fillsUp_nil _)
  | cons dName entries ih =>
    rcases Nat.eq_or_lt_of_le hlen with hfull | hroom
    · have hmax : sizeofReadDirResp + readDirMaxLen = sbpFramingMaxPayloadSize := by decide
      have hlength := dName.length_text
      rw [listEntries, if_neg (not_room_lt hfull dName),
        (reply.store_eq_none_iff).mpr (by omega), bind_none]
    · rw [fillsUp_cons_iff (Nat.sub_pos_of_lt hroom)] at hfills
      obtain ⟨hle, hfills⟩ := hfills
      obtain ⟨reply₁, len₁, hround, hlen₁, -⟩ :=
        listEntries_cons (show len.toNat + dName.text.length ≤ readDirMaxLen by omega)
          entries reply
      rw [hround]
      refine ih (by omega) reply₁ ?_
      rwa [show readDirMaxLen - len₁.toNat = readDirMaxLen - len.toNat - dName.text.length by
        omega]

/-! ### The callback -/

/-- A C string ends at its terminator, whatever is behind it. -/
lemma takeWhile_terminated (bytes rest : List UInt8) :
    (bytes ++ 0 :: rest).takeWhile (· != 0) = bytes.takeWhile (· != 0) := by
  induction bytes with
  | nil => rfl
  | cons b bytes ih => rw [cons_append, takeWhile_cons, takeWhile_cons, ih]

/-- The request with its terminator, as far as the callback reads it. -/
lemma exists_terminated {len : UInt8} (hheader : sizeofReadDirReq < len.toNat)
    (hlen : len.toNat < sbpFramingMaxPayloadSize) (msg : PayloadBuffer) :
    ∃ msg', msg.store len.toNat [0] = some msg' ∧ msg'.toList.take 4 = msg.toList.take 4 ∧
      readDirOffset msg' = readDirOffset msg ∧
      readDirDirname msg' = ((messageBytes msg len).drop sizeofReadDirReq).takeWhile (· != 0) := by
  unfold sizeofReadDirReq at hheader
  obtain ⟨msg', hstore, hlist⟩ := msg.exists_store
    (show len.toNat + [(0 : UInt8)].length ≤ sbpFramingMaxPayloadSize from hlen)
  have hlength : (messageBytes msg len).length = len.toNat := by
    rw [messageBytes, length_take, msg.length_eq]
    omega
  have hfront : ∀ n ≤ 8, msg'.toList.take n = msg.toList.take n := by
    intro n hn
    rw [hlist, append_assoc, take_append_of_le_length (by
      change n ≤ (messageBytes msg len).length
      omega), take_take, Nat.min_eq_left (by omega)]
  refine ⟨msg', hstore, hfront 4 (by omega), ?_, ?_⟩
  · have hoffset : (msg'.toList.drop 4).take 4 = (msg.toList.drop 4).take 4 := by
      rw [take_drop, take_drop, hfront (4 + 4) (by omega)]
    rw [readDirOffset, readDirOffset, hoffset]
  · rw [readDirDirname, hlist, append_assoc]
    change (List.drop 8 (messageBytes msg len ++ _)).takeWhile _ =
      (List.drop 8 (messageBytes msg len)).takeWhile _
    rw [drop_append_of_le_length (by omega), singleton_append, takeWhile_terminated]

lemma readDirReply_eq (fs : DirAccess) {msg msg' : PayloadBuffer} {len : UInt8}
    (hoffset : readDirOffset msg' = readDirOffset msg)
    (hdirname : readDirDirname msg' =
      ((messageBytes msg len).drop sizeofReadDirReq).takeWhile (· != 0))
    (reply : PayloadBuffer) :
    readDirReply fs msg' reply = listEntries (requested fs msg len) reply 0 := by
  unfold readDirReply requested
  rw [hoffset, hdirname]
  dsimp only
  cases fs.pathValidatorCheck _ with
  | false => rfl
  | true =>
    cases fs.opendir _ with
    | none => exact (congrArg (listEntries · reply 0) drop_nil).symm
    | some entries => rfl

/-- For every directory and every request that is not rejected, whatever the memory of the reply
holds: the reply is the listing exactly if no names fill the payload in front of a further one. -/
theorem readDirCb_isListing_iff (fs : DirAccess) (alloca msg : PayloadBuffer) (len : UInt8)
    (h : readDirCb fs alloca msg len ≠ .rejected) :
    IsListing msg (requested fs msg len) (readDirCb fs alloca msg len) ↔
      ¬FillsUp readDirMaxLen (requested fs msg len) := by
  have haccept : ¬(len.toNat ≤ sizeofReadDirReq ∨ len.toNat = sbpFramingMaxPayloadSize) :=
    fun hreject => h (if_pos hreject)
  have hlen := len.toNat_lt
  have hmax : sbpFramingMaxPayloadSize = 255 := rfl
  obtain ⟨msg', hterminated, hsequence, hoffset, hdirname⟩ :=
    exists_terminated (show sizeofReadDirReq < len.toNat by omega) (by omega) msg
  have hheader : (msg'.toList.take 4).length = 4 := by
    rw [length_take, msg'.length_eq]
    omega
  obtain ⟨reply, hstore, -⟩ := alloca.exists_store
    (show 0 + (msg'.toList.take 4).length ≤ sbpFramingMaxPayloadSize by omega)
  have htake : reply.toList.take (sizeofReadDirResp + (0 : UInt8).toNat) = msg.toList.take 4 := by
    have hfront := Block.take_of_store hstore
    rw [hheader, take_zero, nil_append, hsequence] at hfront
    exact hfront
  unfold readDirCb
  rw [if_neg haccept, hterminated, bind_some, hstore, bind_some,
    readDirReply_eq fs hoffset hdirname]
  constructor
  · rintro ⟨contents, hsent, -⟩ hfills
    rw [@listEntries_eq_none _ 0 (Nat.zero_le _) reply hfills] at hsent
    cases hsent
  · intro hfills
    obtain ⟨reply', len', hresult, hcontents⟩ :=
      @exists_listEntries _ 0 (Nat.zero_le _) reply hfills
    rw [htake] at hcontents
    rw [hresult]
    exact ⟨_, congrArg ReadDirOutcome.sent hcontents, length_packed_fitting_le _ _, rfl⟩

/-- A name made of one letter. -/
def letters (n : Nat) (hpos : 0 < n) (hle : n ≤ 255) : EntryName where
  toList := List.replicate n 97
  length_pos := by rwa [length_replicate]
  length_le := by rwa [length_replicate]
  zero_notMem := by simp

/-- One directory that the daemon may read. -/
def oneDirectory (entries : List EntryName) : DirAccess where
  pathValidatorCheck := fun _ => true
  opendir := fun _ => some entries

/-- The entries `a`, `aa` and `aaa`. -/
def shortNames : List EntryName :=
  [letters 1 (by decide) (by decide), letters 2 (by decide) (by decide),
    letters 3 (by decide) (by decide)]

/-- The same with a name of 250 bytes in the middle. -/
def longName : List EntryName :=
  [letters 1 (by decide) (by decide), letters 250 (by decide) (by decide),
    letters 3 (by decide) (by decide)]

/-- A request for the entries of `/` from the second on. -/
def listRoot : PayloadBuffer := paddedBuffer [7, 0, 0, 0, 1, 0, 0, 0, 47] (by decide)

theorem readDirCb_isListing_iff_listRoot : IsListing listRoot (shortNames.drop 1)
      (readDirCb (oneDirectory shortNames) usedSlot listRoot 9) := by
  have haccepted : readDirCb (oneDirectory shortNames) usedSlot listRoot 9 ≠ .rejected := by
    decide +kernel
  have hrequested : requested (oneDirectory shortNames) listRoot 9 = shortNames.drop 1 := by
    decide +kernel
  have hiff := readDirCb_isListing_iff (oneDirectory shortNames) usedSlot listRoot 9 haccepted
  rw [hrequested] at hiff
  rw [hiff, shortNames, drop_succ_cons, drop_zero, fillsUp_cons_iff (by decide),
    fillsUp_cons_iff (by decide)]
  exact fun hfills => not_fillsUp_nil _ hfills.2.2

/-- The second name and its terminator take up all of the 251 bytes, and the third is written
behind them. -/
theorem not_isListing_longName :
    readDirCb (oneDirectory longName) usedSlot listRoot 9 = .outOfBounds ∧
      ¬IsListing listRoot (requested (oneDirectory longName) listRoot 9)
        (readDirCb (oneDirectory longName) usedSlot listRoot 9) := by
  have houtcome : readDirCb (oneDirectory longName) usedSlot listRoot 9 = .outOfBounds := by
    decide +kernel
  rw [houtcome]
  refine ⟨rfl, ?_⟩
  rintro ⟨contents, hsent, -⟩
  cases hsent

end PiksiBuildroot.SbpFileio
