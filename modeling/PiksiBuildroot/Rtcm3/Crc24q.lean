import PiksiBuildroot.Lib.Crc

/-!
# The CRC-24Q of RTCM3

`crc24q` of `framer_rtcm3_in.c` runs a byte at a time with a table of 256 words. It is the remainder
of the bits of the buffer with the polynomial `0x1864CFB` (`crc24q_eq_crcBits`,
`crc24q_eq_crc24qBitwise`).
-/

namespace PiksiBuildroot.Rtcm3

open Lib

/-- Source: `crc24qtab`. -/
def crc24qtab : List UInt32 :=
  [ 0x000000, 0x864CFB, 0x8AD50D, 0x0C99F6, 0x93E6E1, 0x15AA1A, 0x1933EC, 0x9F7F17, 0xA18139,
    0x27CDC2, 0x2B5434, 0xAD18CF, 0x3267D8, 0xB42B23, 0xB8B2D5, 0x3EFE2E, 0xC54E89, 0x430272,
    0x4F9B84, 0xC9D77F, 0x56A868, 0xD0E493, 0xDC7D65, 0x5A319E, 0x64CFB0, 0xE2834B, 0xEE1ABD,
    0x685646, 0xF72951, 0x7165AA, 0x7DFC5C, 0xFBB0A7, 0x0CD1E9, 0x8A9D12, 0x8604E4, 0x00481F,
    0x9F3708, 0x197BF3, 0x15E205, 0x93AEFE, 0xAD50D0, 0x2B1C2B, 0x2785DD, 0xA1C926, 0x3EB631,
    0xB8FACA, 0xB4633C, 0x322FC7, 0xC99F60, 0x4FD39B, 0x434A6D, 0xC50696, 0x5A7981, 0xDC357A,
    0xD0AC8C, 0x56E077, 0x681E59, 0xEE52A2, 0xE2CB54, 0x6487AF, 0xFBF8B8, 0x7DB443, 0x712DB5,
    0xF7614E, 0x19A3D2, 0x9FEF29, 0x9376DF, 0x153A24, 0x8A4533, 0x0C09C8, 0x00903E, 0x86DCC5,
    0xB822EB, 0x3E6E10, 0x32F7E6, 0xB4BB1D, 0x2BC40A, 0xAD88F1, 0xA11107, 0x275DFC, 0xDCED5B,
    0x5AA1A0, 0x563856, 0xD074AD, 0x4F0BBA, 0xC94741, 0xC5DEB7, 0x43924C, 0x7D6C62, 0xFB2099,
    0xF7B96F, 0x71F594, 0xEE8A83, 0x68C678, 0x645F8E, 0xE21375, 0x15723B, 0x933EC0, 0x9FA736,
    0x19EBCD, 0x8694DA, 0x00D821, 0x0C41D7, 0x8A0D2C, 0xB4F302, 0x32BFF9, 0x3E260F, 0xB86AF4,
    0x2715E3, 0xA15918, 0xADC0EE, 0x2B8C15, 0xD03CB2, 0x567049, 0x5AE9BF, 0xDCA544, 0x43DA53,
    0xC596A8, 0xC90F5E, 0x4F43A5, 0x71BD8B, 0xF7F170, 0xFB6886, 0x7D247D, 0xE25B6A, 0x641791,
    0x688E67, 0xEEC29C, 0x3347A4, 0xB50B5F, 0xB992A9, 0x3FDE52, 0xA0A145, 0x26EDBE, 0x2A7448,
    0xAC38B3, 0x92C69D, 0x148A66, 0x181390, 0x9E5F6B, 0x01207C, 0x876C87, 0x8BF571, 0x0DB98A,
    0xF6092D, 0x7045D6, 0x7CDC20, 0xFA90DB, 0x65EFCC, 0xE3A337, 0xEF3AC1, 0x69763A, 0x578814,
    0xD1C4EF, 0xDD5D19, 0x5B11E2, 0xC46EF5, 0x42220E, 0x4EBBF8, 0xC8F703, 0x3F964D, 0xB9DAB6,
    0xB54340, 0x330FBB, 0xAC70AC, 0x2A3C57, 0x26A5A1, 0xA0E95A, 0x9E1774, 0x185B8F, 0x14C279,
    0x928E82, 0x0DF195, 0x8BBD6E, 0x872498, 0x016863, 0xFAD8C4, 0x7C943F, 0x700DC9, 0xF64132,
    0x693E25, 0xEF72DE, 0xE3EB28, 0x65A7D3, 0x5B59FD, 0xDD1506, 0xD18CF0, 0x57C00B, 0xC8BF1C,
    0x4EF3E7, 0x426A11, 0xC426EA, 0x2AE476, 0xACA88D, 0xA0317B, 0x267D80, 0xB90297, 0x3F4E6C,
    0x33D79A, 0xB59B61, 0x8B654F, 0x0D29B4, 0x01B042, 0x87FCB9, 0x1883AE, 0x9ECF55, 0x9256A3,
    0x141A58, 0xEFAAFF, 0x69E604, 0x657FF2, 0xE33309, 0x7C4C1E, 0xFA00E5, 0xF69913, 0x70D5E8,
    0x4E2BC6, 0xC8673D, 0xC4FECB, 0x42B230, 0xDDCD27, 0x5B81DC, 0x57182A, 0xD154D1, 0x26359F,
    0xA07964, 0xACE092, 0x2AAC69, 0xB5D37E, 0x339F85, 0x3F0673, 0xB94A88, 0x87B4A6, 0x01F85D,
    0x0D61AB, 0x8B2D50, 0x145247, 0x921EBC, 0x9E874A, 0x18CBB1, 0xE37B16, 0x6537ED, 0x69AE1B,
    0xEFE2E0, 0x709DF7, 0xF6D10C, 0xFA48FA, 0x7C0401, 0x42FA2F, 0xC4B6D4, 0xC82F22, 0x4E63D9,
    0xD11CCE, 0x575035, 0x5BC9C3, 0xDD8538 ]

/-- One byte. Source: `crc24q`, loop body. -/
def crc24qStep (crc : UInt32) (byte : UInt8) : UInt32 :=
  let index := ((crc >>> (16 : UInt32)) ^^^ byte.toUInt32) &&& 0xff
  ((crc <<< (8 : UInt32)) &&& 0xFFFFFF) ^^^ crc24qtab.getD index.toNat 0

/-- The CRC of the first `len` bytes of `buf`. Source: `crc24q`. -/
def crc24q (buf : List UInt8) (len : Nat) (crc : UInt32) : UInt32 :=
  (buf.take len).foldl crc24qStep crc

/-! ### The bitwise definition -/

/-- The polynomial `0x1864CFB`, without its leading term. -/
def crc24qPoly : BitVec 24 := 0x864CFB

/-- The bits of a byte, most significant first. -/
def byteBits (byte : UInt8) : List Bool := topBits 8 byte.toBitVec

/-- A 24-bit remainder in a word. -/
def ofRemainder (c : BitVec 24) : UInt32 := UInt32.ofBitVec (c.setWidth 32)

/-! ### The table is right -/

/-- The entries of the table are the remainders of their indices. -/
lemma getD_crc24qtab (i : BitVec 8) :
    crc24qtab.getD i.toNat 0 = ofRemainder (crcBits crc24qPoly 0 (topBits 8 i)) := by
  have h : ∀ i : Fin (2 ^ 8), crc24qtab.getD i 0 =
      ofRemainder (crcBits crc24qPoly 0 (topBits 8 (BitVec.ofFin i))) := by
    decide +kernel
  exact h i.toFin

/-- The bits that leave the register. -/
lemma topBits_eq_topBits_extract (c : BitVec 24) :
    topBits 8 c = topBits 8 (c.extractLsb' 16 8) := by
  simp [topBits, BitVec.msb_eq_getLsbD_last]

/-- A remainder in a word has the same value. -/
lemma toNat_ofRemainder (c : BitVec 24) : (ofRemainder c).toNat = c.toNat := by
  simp only [ofRemainder, UInt32.toNat_ofBitVec, BitVec.toNat_setWidth]
  omega

/-- The index into the table. -/
lemma index_eq (c : BitVec 24) (byte : UInt8) :
    (((ofRemainder c >>> (16 : UInt32)) ^^^ byte.toUInt32) &&& 0xff).toNat =
      (c.extractLsb' 16 8 ^^^ byte.toBitVec).toNat := by
  have hbyte : byte.toNat % 2 ^ 8 = byte.toNat := Nat.mod_eq_of_lt byte.toNat_lt
  have hmask : ∀ n : ℕ, (n ^^^ byte.toNat) &&& 255 = n % 256 ^^^ byte.toNat := by
    intro n
    have := Nat.and_two_pow_sub_one_eq_mod (n ^^^ byte.toNat) 8
    rwa [Nat.xor_mod_two_pow, hbyte] at this
  simp [toNat_ofRemainder, hmask]

/-- The shifted register. -/
lemma shift_eq (c : BitVec 24) :
    (ofRemainder c <<< (8 : UInt32)) &&& (0xFFFFFF : UInt32) = ofRemainder (c <<< 8) := by
  have hmask : ∀ n : ℕ, n &&& 16777215 = n % 2 ^ 24 := fun n =>
    Nat.and_two_pow_sub_one_eq_mod n 24
  apply UInt32.toNat_inj.mp
  simp [toNat_ofRemainder, hmask]

/-- Adding remainders in words. -/
lemma ofRemainder_xor (c d : BitVec 24) :
    ofRemainder (c ^^^ d) = ofRemainder c ^^^ ofRemainder d := by
  apply UInt32.toNat_inj.mp
  simp [toNat_ofRemainder]

/-! ### The byte-wise loop -/

/-- One byte of the table-driven loop is the eight bits of the byte. -/
lemma crc24qStep_eq (c : BitVec 24) (byte : UInt8) :
    crc24qStep (ofRemainder c) byte = ofRemainder (crcBits crc24qPoly c (byteBits byte)) := by
  have hbits : crcBits crc24qPoly c (byteBits byte) = (c <<< 8) ^^^
      crcBits crc24qPoly 0 (topBits 8 (c.extractLsb' 16 8 ^^^ byte.toBitVec)) := by
    rw [crcBits_eq_shift_xor, byteBits, length_topBits, topBits_eq_topBits_extract, topBits_xor]
  rw [crc24qStep, index_eq, getD_crc24qtab, shift_eq, hbits, ofRemainder_xor]

/-- The table-driven loop over some bytes is the remainder of their bits. -/
lemma foldl_crc24qStep_eq (bytes : List UInt8) (c : BitVec 24) :
    bytes.foldl crc24qStep (ofRemainder c) =
      ofRemainder (crcBits crc24qPoly c (bytes.flatMap byteBits)) := by
  induction bytes generalizing c with
  | nil => rfl
  | cons byte bytes ih =>
    rw [List.foldl_cons, crc24qStep_eq, ih, List.flatMap_cons, crcBits_append]

/-- The table-driven CRC of a buffer is the remainder of its bits. -/
theorem crc24q_eq_crcBits (buf : List UInt8) (len : Nat) (c : BitVec 24) :
    crc24q buf len (ofRemainder c) =
      ofRemainder (crcBits crc24qPoly c ((buf.take len).flatMap byteBits)) :=
  foldl_crc24qStep_eq (buf.take len) c

/-! ### The loop over the bits -/

/-- One bit of the bitwise CRC: the bit comes in above the register, and the polynomial is taken
off if that sets the bit of its leading term. -/
def crc24qBit (crc : UInt32) (bit : Bool) : UInt32 :=
  let crc := (crc <<< (1 : UInt32)) ^^^ (if bit then 0x1000000 else 0)
  if crc &&& 0x1000000 ≠ 0 then crc ^^^ 0x1864CFB else crc

/-- The bitwise CRC of some bytes: their bits, most significant first, with the polynomial
`0x1864CFB`. -/
def crc24qBitwise (bytes : List UInt8) (crc : UInt32) : UInt32 :=
  (bytes.flatMap byteBits).foldl crc24qBit crc

/-- The three bytes of a CRC, in the order of the footer of a frame. -/
def crc24qBytes (crc : UInt32) : List UInt8 :=
  [(crc >>> (16 : UInt32)).toUInt8, (crc >>> (8 : UInt32)).toUInt8, crc.toUInt8]

/-- The bit that leaves the register is kept above it. -/
lemma ofRemainder_shiftLeft_one (c : BitVec 24) : ofRemainder c <<< (1 : UInt32) =
      ofRemainder (c <<< 1) ^^^ (if c.msb then (0x1000000 : UInt32) else 0) := by
  have htop : ∀ i, (if c.msb then (0x1000000 : UInt32) else 0).toBitVec.getLsbD i =
      (c.msb && decide (24 = i)) := by
    intro i
    cases c.msb with
    | false => simp
    | true =>
      show (BitVec.twoPow 32 24).getLsbD i = _
      simp
  have hmsb : c.msb = c.getLsbD 23 := BitVec.msb_eq_getLsbD_last c
  apply UInt32.toBitVec_inj.mp
  apply BitVec.eq_of_getLsbD_eq
  intro i hi
  have hout : 24 < i → c.getLsbD (i - 1) = false := fun h => BitVec.getLsbD_of_ge c _ (by omega)
  rw [UInt32.toBitVec_xor, BitVec.getLsbD_xor, htop]
  simp only [ofRemainder, UInt32.toBitVec_shiftLeft, UInt32.toBitVec_ofBitVec]
  show (c.setWidth 32 <<< 1).getLsbD i = _
  rw [BitVec.getLsbD_shiftLeft, BitVec.getLsbD_setWidth, BitVec.getLsbD_setWidth,
    BitVec.getLsbD_shiftLeft]
  grind

/-- A remainder has no bit there. -/
lemma top_set_iff (c : BitVec 24) (bit : Bool) :
    (ofRemainder c ^^^ (if bit then (0x1000000 : UInt32) else 0)) &&& 0x1000000 ≠ 0 ↔ bit := by
  rw [Ne, ← UInt32.toBitVec_inj]
  cases bit with
  | false =>
    show ¬(c.setWidth 32 ^^^ 0#32) &&& BitVec.twoPow 32 24 = 0#32 ↔ _
    rw [BitVec.and_twoPow]
    simp
  | true =>
    have hpow : BitVec.twoPow 32 24 ≠ 0#32 := by decide
    show ¬(c.setWidth 32 ^^^ BitVec.twoPow 32 24) &&& BitVec.twoPow 32 24 = 0#32 ↔ _
    rw [BitVec.and_twoPow]
    simp [hpow]

/-- One bit in a word is one bit of the register. -/
lemma crc24qBit_eq (c : BitVec 24) (bit : Bool) :
    crc24qBit (ofRemainder c) bit = ofRemainder (crcBit crc24qPoly c bit) := by
  have hin : (ofRemainder c <<< (1 : UInt32)) ^^^ (if bit then (0x1000000 : UInt32) else 0) =
      ofRemainder (c <<< 1) ^^^ (if c.msb ^^ bit then (0x1000000 : UInt32) else 0) := by
    rw [ofRemainder_shiftLeft_one, UInt32.xor_assoc]
    cases c.msb <;> cases bit <;> simp
  have hpoly : ofRemainder crc24qPoly = 0x1000000 ^^^ 0x1864CFB := by decide
  unfold crc24qBit
  simp only [hin, top_set_iff, crcBit]
  cases c.msb ^^ bit with
  | false => simp
  | true => simp only [if_true, ofRemainder_xor, hpoly, UInt32.xor_assoc]

lemma crc24qBitwise_eq (bytes : List UInt8) (c : BitVec 24) : crc24qBitwise bytes (ofRemainder c) =
      ofRemainder (crcBits crc24qPoly c (bytes.flatMap byteBits)) := by
  unfold crc24qBitwise
  generalize bytes.flatMap byteBits = bits
  induction bits generalizing c with
  | nil => rfl
  | cons bit bits ih => rw [List.foldl_cons, crc24qBit_eq, ih]; rfl

lemma flatMap_crc24qBytes (c : BitVec 24) :
    (crc24qBytes (ofRemainder c)).flatMap byteBits = topBits 24 c := by
  simp [crc24qBytes, byteBits, topBits, BitVec.msb_eq_getLsbD_last, ofRemainder]

/-- From every 24-bit value the table-driven CRC of a string is its bitwise CRC; so the CRC of the
string and the three bytes of its CRC is zero. -/
theorem crc24q_eq_crc24qBitwise (bytes : List UInt8) (c : BitVec 24) :
    crc24q bytes bytes.length (ofRemainder c) = crc24qBitwise bytes (ofRemainder c) ∧
      crc24q (bytes ++ crc24qBytes (crc24q bytes bytes.length (ofRemainder c))) (bytes.length + 3)
        (ofRemainder c) = 0 := by
  have hcrc : crc24q bytes bytes.length (ofRemainder c) =
      ofRemainder (crcBits crc24qPoly c (bytes.flatMap byteBits)) := by
    rw [crc24q_eq_crcBits, List.take_length]
  refine ⟨hcrc.trans (crc24qBitwise_eq bytes c).symm, ?_⟩
  rw [hcrc, crc24q_eq_crcBits, List.take_of_length_le (by simp [crc24qBytes]), List.flatMap_append,
    flatMap_crc24qBytes, crcBits_append, crcBits_topBits]
  rfl

end PiksiBuildroot.Rtcm3
