import PiksiBuildroot.Lib.Block
import PiksiBuildroot.SbpFileio.FdCache

/-!
# The bytes of a write message

A write message has a sequence number, an offset, the name of a file with its terminator and the
bytes to be written. `write_cb` looks for the terminator in the whole buffer that the message was
received in, and `sbp_fileio_write` takes the bytes from the terminator to the end of the message;
with the write thread it searches the slot that the message was copied to. Behind the end of the
message both hold what earlier messages left there, so the terminator that is found can lie behind
the end, and the number of bytes to write is then negative (`writeMessage_writesRest_iff`).
-/

namespace PiksiBuildroot.SbpFileio

open Lib FdCache List Option

/-- A buffer for the payload of a message. -/
abbrev PayloadBuffer := Block UInt8 sbpFramingMaxPayloadSize

/-- The sequence number and the offset in front of the name. Source: `msg_fileio_write_req_t`. -/
def sizeofWriteReq : Nat := 8

/-- `strlen` of the text at an offset; there is no result if it leaves the buffer. -/
def strlenAt (buffer : PayloadBuffer) (offset : Nat) : Option Nat :=
  (buffer.toList.drop offset).findIdx? (· == 0)

/-- `strnlen` of the text at an offset, for the rest of the buffer. -/
def strnlenAt (buffer : PayloadBuffer) (offset : Nat) : Nat :=
  (strlenAt buffer offset).getD (sbpFramingMaxPayloadSize - offset)

/-- The difference of two `size_t`. -/
def sizetSub (a b : Nat) : Nat := (a + 2 ^ 32 - b) % 2 ^ 32

lemma sizetSub_of_le {a b : Nat} (hle : b ≤ a) (ha : a < 2 ^ 32) : sizetSub a b = a - b := by
  unfold sizetSub
  omega

/-- What `sbp_fileio_write` computes and hands to `fwrite`. -/
structure WritePayload where
  headerlen : UInt8
  writeCount : Nat
  data : List UInt8
  deriving DecidableEq

/-- The bytes behind a header; there is no result if `fwrite` reads outside the buffer. -/
def payloadBehind (msg : PayloadBuffer) (length : Nat) (headerlen : UInt8) : Option WritePayload :=
  (load msg.toList headerlen.toNat (sizetSub length headerlen.toNat)).map fun data =>
    ⟨headerlen, sizetSub length headerlen.toNat, data⟩

/-- The block of `sbp_fileio_write` that computes what to write. Source: `sbp_fileio_write`. -/
def writePayload (msg : PayloadBuffer) (length : Nat) : Option WritePayload :=
  (strlenAt msg sizeofWriteReq).bind fun filenameLength =>
    payloadBehind msg length (.ofNat (sizeofWriteReq + filenameLength + 1))

/-- The slot of the write queue after the message was copied to it. Source: `queue_file_write`. -/
def queueMessage (slot msg : PayloadBuffer) (len : UInt8) : Option PayloadBuffer := do
  let bytes ← load msg.toList 0 len.toNat
  slot.store 0 bytes

inductive WriteOutcome where
  | rejected
  | outOfBounds
  | written (payload : WritePayload)
  deriving DecidableEq

/-- A message of `len` bytes in its buffer; with threading there is a slot that it is copied to and
written from. Source: `write_cb`. -/
def writeMessage (slot : Option PayloadBuffer) (msg : PayloadBuffer) (len : UInt8) : WriteOutcome :=
  if len.toNat ≤ sizeofWriteReq + 2 ∨
      strnlenAt msg sizeofWriteReq = sbpFramingMaxPayloadSize - sizeofWriteReq then .rejected
  else
    match (slot.elim (some msg) (queueMessage · msg len)).bind (writePayload · len.toNat) with
    | none => .outOfBounds
    | some payload => .written payload

/-! ### What is written -/

/-- The message itself. -/
def messageBytes (msg : PayloadBuffer) (len : UInt8) : List UInt8 := msg.toList.take len.toNat

/-- What follows the name and its terminator in a message. -/
def afterName (bytes : List UInt8) : List UInt8 :=
  ((bytes.drop sizeofWriteReq).dropWhile (· != 0)).tail

/-- The header is within the message, and what is written is what follows it. -/
def WritesRest (msg : PayloadBuffer) (len : UInt8) : WriteOutcome → Prop
  | .written payload =>
    payload.headerlen ≤ len ∧ payload.writeCount = len.toNat - payload.headerlen.toNat ∧
      payload.data = afterName (messageBytes msg len)
  | _ => False

variable {buffer : PayloadBuffer}

lemma strlenAt_of_split {offset : Nat} {name rest : List UInt8}
    (h : buffer.toList.drop offset = name ++ 0 :: rest) (hname : 0 ∉ name) :
    strlenAt buffer offset = some name.length := by
  have hnone : name.findIdx? (· == 0) = none := by
    rw [findIdx?_eq_none_iff]
    intro b hb
    exact beq_eq_false_iff_ne.mpr fun hzero => hname (hzero ▸ hb)
  rw [strlenAt, h, findIdx?_append, hnone]
  simp [findIdx?_cons]

lemma exists_split_of_strlenAt {offset n : Nat} (h : strlenAt buffer offset = some n) :
    ∃ name rest, buffer.toList.drop offset = name ++ 0 :: rest ∧ name.length = n := by
  have hmem : 0 ∈ buffer.toList.drop offset := by
    by_contra hmem
    have hnone : strlenAt buffer offset = none := by
      rw [strlenAt, findIdx?_eq_none_iff]
      intro b hb
      exact beq_eq_false_iff_ne.mpr fun hzero => hmem (hzero ▸ hb)
    rw [hnone] at h
    cases h
  obtain ⟨name, rest, hsplit, hname⟩ := eq_append_cons_of_mem hmem
  rw [strlenAt_of_split hsplit hname] at h
  exact ⟨name, rest, hsplit, some_inj.mp h⟩

/-- The header of a name in the buffer fits an `u8`. -/
lemma toNat_headerlen {n : Nat} (h : sizeofWriteReq + n + 1 < 256) :
    (UInt8.ofNat (sizeofWriteReq + n + 1)).toNat = sizeofWriteReq + n + 1 :=
  UInt8.toNat_ofNat_of_lt' h

/-- A buffer that begins with a message. -/
structure Holds (buffer : PayloadBuffer) (len : UInt8) (bytes : List UInt8) : Prop where
  take_eq : buffer.toList.take len.toNat = bytes
  header : sizeofWriteReq ≤ len.toNat

variable {len : UInt8} {bytes : List UInt8}

lemma Holds.length_eq (h : Holds buffer len bytes) : bytes.length = len.toNat := by
  have hlength := buffer.length_eq
  have hlen := len.toNat_lt
  rw [← h.take_eq, length_take]
  unfold sbpFramingMaxPayloadSize at hlength
  omega

/-- What is behind an offset in the message, and behind it what was there before. -/
lemma Holds.drop_eq (h : Holds buffer len bytes) {n : Nat} (hn : n ≤ len.toNat) :
    buffer.toList.drop n = bytes.drop n ++ buffer.toList.drop len.toNat := by
  have hbuffer : buffer.toList = bytes ++ buffer.toList.drop len.toNat := by
    conv_lhs => rw [← take_append_drop len.toNat buffer.toList, h.take_eq]
  conv_lhs => rw [hbuffer]
  rw [drop_append_of_le_length (by rw [h.length_eq]; exact hn)]

/-- A message with a terminator of its own: the rest of it is written. -/
lemma writePayload_of_mem (h : Holds buffer len bytes) (hmem : 0 ∈ bytes.drop sizeofWriteReq) :
    ∃ payload, writePayload buffer len.toNat = some payload ∧ payload.headerlen ≤ len ∧
      payload.writeCount = len.toNat - payload.headerlen.toNat ∧
      payload.data = afterName bytes := by
  obtain ⟨name, rest, hsplit, hname⟩ := eq_append_cons_of_mem hmem
  have hlen := len.toNat_lt
  have hlength := h.length_eq
  have hcount : sizeofWriteReq + name.length + 1 + rest.length = len.toNat := by
    have hdrop := congrArg List.length hsplit
    simp only [length_drop, length_append, length_cons] at hdrop
    omega
  have hdrop : buffer.toList.drop sizeofWriteReq =
      name ++ 0 :: (rest ++ buffer.toList.drop len.toNat) := by
    rw [h.drop_eq h.header, hsplit, append_assoc, cons_append]
  have hrest : buffer.toList.drop (sizeofWriteReq + name.length + 1) =
      rest ++ buffer.toList.drop len.toNat := by
    have hbehind : bytes.drop (sizeofWriteReq + (name.length + 1)) = rest := by
      rw [← drop_drop, hsplit, drop_append, drop_of_length_le (by omega)]
      simp
    rw [h.drop_eq (by omega), Nat.add_assoc, hbehind]
  have hheaderlen := @toNat_headerlen name.length (by omega)
  have hsub : sizetSub len.toNat (sizeofWriteReq + name.length + 1) = rest.length := by
    rw [sizetSub_of_le (by omega) (by omega)]
    omega
  have hafter : afterName bytes = rest := by
    rw [afterName, hsplit, dropWhile_append_of_pos]
    · rfl
    · intro b hb
      exact bne_iff_ne.mpr fun hzero => hname (hzero ▸ hb)
  refine ⟨⟨UInt8.ofNat (sizeofWriteReq + name.length + 1), rest.length, rest⟩, ?_, ?_, ?_,
    hafter.symm⟩
  · have hle : sizeofWriteReq + name.length + 1 + rest.length ≤ buffer.toList.length := by
      have hsize := buffer.length_eq
      unfold sbpFramingMaxPayloadSize at hsize
      omega
    rw [writePayload, strlenAt_of_split hdrop hname, bind_some, payloadBehind, hheaderlen,
      hsub, load_of_le hle, hrest, take_left' rfl, map_some]
  · rw [UInt8.le_iff_toNat_le, hheaderlen]
    omega
  · dsimp only
    omega

/-- If the header is within the message, the message has a terminator of its own. -/
lemma mem_of_writePayload (h : Holds buffer len bytes) {payload : WritePayload}
    (hpayload : writePayload buffer len.toNat = some payload) (hle : payload.headerlen ≤ len) :
    0 ∈ bytes.drop sizeofWriteReq := by
  obtain ⟨n, hn, hbehind⟩ := bind_eq_some_iff.mp hpayload
  obtain ⟨data, -, rfl⟩ := map_eq_some_iff.mp hbehind
  obtain ⟨name, rest, hsplit, rfl⟩ := exists_split_of_strlenAt hn
  have hsize := buffer.length_eq
  unfold sbpFramingMaxPayloadSize at hsize
  have hlengths := congrArg List.length hsplit
  simp only [length_drop, length_append, length_cons] at hlengths
  have hheaderlen := @toNat_headerlen name.length (by omega)
  have hle' : sizeofWriteReq + name.length + 1 ≤ len.toNat := by
    rwa [UInt8.le_iff_toNat_le, hheaderlen] at hle
  obtain ⟨k, hk⟩ : ∃ k, len.toNat - sizeofWriteReq = name.length + (k + 1) :=
    ⟨len.toNat - sizeofWriteReq - name.length - 1, by omega⟩
  rw [← h.take_eq, drop_take, hsplit, hk, take_length_add_append]
  simp

/-- For every message that is not rejected, whatever is behind its end in the buffer and in the
slot: what is written is what follows the name exactly if there is a terminator in the message. -/
theorem writeMessage_writesRest_iff (slot : Option PayloadBuffer) (msg : PayloadBuffer)
    (len : UInt8) (h : writeMessage slot msg len ≠ .rejected) :
    WritesRest msg len (writeMessage slot msg len) ↔
      0 ∈ (messageBytes msg len).drop sizeofWriteReq := by
  unfold writeMessage at h ⊢
  have hreject : ¬(len.toNat ≤ sizeofWriteReq + 2 ∨
      strnlenAt msg sizeofWriteReq = sbpFramingMaxPayloadSize - sizeofWriteReq) :=
    fun hreject => h (if_pos hreject)
  rw [if_neg hreject]
  have hheader : sizeofWriteReq ≤ len.toNat := by omega
  have hsize := msg.length_eq
  have hlen := len.toNat_lt
  unfold sbpFramingMaxPayloadSize at hsize
  have hbuffer : ∃ buffer, slot.elim (some msg) (queueMessage · msg len) = some buffer ∧
      Holds buffer len (messageBytes msg len) := by
    cases slot with
    | none => exact ⟨msg, rfl, rfl, hheader⟩
    | some slot =>
      have hload : (msg.toList.take len.toNat).length = len.toNat := by
        rw [length_take]
        omega
      obtain ⟨buffer, hstore, -⟩ := @Block.exists_store _ _ slot 0 (msg.toList.take len.toNat)
        (by unfold sbpFramingMaxPayloadSize; omega)
      have htake := Block.take_of_store hstore
      rw [hload, Nat.zero_add, take_zero, nil_append] at htake
      refine ⟨buffer, ?_, htake, hheader⟩
      simp only [elim_some, queueMessage, bind_eq_bind]
      rw [load_of_le (by omega), bind_some, drop_zero, hstore]
  obtain ⟨buffer, hbuffer, hholds⟩ := hbuffer
  rw [hbuffer, bind_some]
  constructor
  · intro hrest
    cases hpayload : writePayload buffer len.toNat with
    | none =>
      rw [hpayload] at hrest
      exact hrest.elim
    | some payload =>
      rw [hpayload] at hrest
      exact mem_of_writePayload hholds hpayload hrest.1
  · intro hmem
    obtain ⟨payload, hpayload, hrest⟩ := writePayload_of_mem hholds hmem
    rw [hpayload]
    exact hrest

/-- A buffer with some bytes, and zeros behind them. -/
def paddedBuffer (bytes : List UInt8) (h : bytes.length ≤ sbpFramingMaxPayloadSize) :
    PayloadBuffer where
  toList := bytes ++ List.replicate (sbpFramingMaxPayloadSize - bytes.length) 0
  length_eq := by
    rw [length_append, length_replicate]
    omega

/-- The bytes 1, 2 and 3 for the file `ab`. -/
def writeAb : PayloadBuffer := paddedBuffer [7, 0, 0, 0, 0, 0, 0, 0, 97, 98, 0, 1, 2, 3] (by decide)

/-- A slot that an earlier message has filled with bytes other than zero. -/
def usedSlot : PayloadBuffer := ⟨List.replicate sbpFramingMaxPayloadSize 255, by simp⟩

theorem writeMessage_writesRest_iff_writeAb : writeMessage (some usedSlot) writeAb 14 ≠ .rejected ∧
      WritesRest writeAb 14 (writeMessage (some usedSlot) writeAb 14) := by
  have haccepted : writeMessage (some usedSlot) writeAb 14 ≠ .rejected := by decide +kernel
  rw [writeMessage_writesRest_iff (some usedSlot) writeAb 14 haccepted]
  decide +kernel

/-- A message of 11 bytes that ends in its name, and behind it the `d` of an earlier message. -/
def unterminatedName : PayloadBuffer :=
  paddedBuffer [7, 0, 0, 0, 0, 0, 0, 0, 97, 98, 99, 100] (by decide)

/-- The name goes on behind the message: without threading 2 bytes too few are to be written, and
with it there is no terminator in the slot. -/
theorem not_writesRest_unterminatedName : writeMessage none unterminatedName 11 = .outOfBounds ∧
      writeMessage (some usedSlot) unterminatedName 11 = .outOfBounds ∧
      ¬WritesRest unterminatedName 11 (writeMessage none unterminatedName 11) ∧
      sizetSub 11 (sizeofWriteReq + 4 + 1) = 2 ^ 32 - 2 := by
  have hnone : writeMessage none unterminatedName 11 = .outOfBounds := by decide +kernel
  have hslot : writeMessage (some usedSlot) unterminatedName 11 = .outOfBounds := by
    decide +kernel
  have hcount : sizetSub 11 (sizeofWriteReq + 4 + 1) = 2 ^ 32 - 2 := by decide +kernel
  refine ⟨hnone, hslot, ?_, hcount⟩
  rw [hnone]
  exact id

end PiksiBuildroot.SbpFileio
