/-
Start01/AbccCrc.lean

`CRC_Crc16` of the Anybus driver, crc.c: the check of a serial telegram, by two tables of bytes.

The tables are those of `modrtuChecksum`, and the two functions keep the same register: what
`CRC_Crc16` calls the low byte is `uchCRCHi` of utils.c.  They return it with the bytes in
opposite order.
-/
import Start01.ModRtu

namespace Start01

open Crc

/-! ### crc.c -/

/-- `abCrc16Hi`. -/
def abCrc16Hi : List UInt8 :=
  [0x00, 0xC1, 0x81, 0x40, 0x01, 0xC0, 0x80, 0x41, 0x01, 0xC0, 0x80, 0x41, 0x00,
   0xC1, 0x81, 0x40, 0x01, 0xC0, 0x80, 0x41, 0x00, 0xC1, 0x81, 0x40, 0x00, 0xC1,
   0x81, 0x40, 0x01, 0xC0, 0x80, 0x41, 0x01, 0xC0, 0x80, 0x41, 0x00, 0xC1, 0x81,
   0x40, 0x00, 0xC1, 0x81, 0x40, 0x01, 0xC0, 0x80, 0x41, 0x00, 0xC1, 0x81, 0x40,
   0x01, 0xC0, 0x80, 0x41, 0x01, 0xC0, 0x80, 0x41, 0x00, 0xC1, 0x81, 0x40, 0x01,
   0xC0, 0x80, 0x41, 0x00, 0xC1, 0x81, 0x40, 0x00, 0xC1, 0x81, 0x40, 0x01, 0xC0,
   0x80, 0x41, 0x00, 0xC1, 0x81, 0x40, 0x01, 0xC0, 0x80, 0x41, 0x01, 0xC0, 0x80,
   0x41, 0x00, 0xC1, 0x81, 0x40, 0x00, 0xC1, 0x81, 0x40, 0x01, 0xC0, 0x80, 0x41,
   0x01, 0xC0, 0x80, 0x41, 0x00, 0xC1, 0x81, 0x40, 0x01, 0xC0, 0x80, 0x41, 0x00,
   0xC1, 0x81, 0x40, 0x00, 0xC1, 0x81, 0x40, 0x01, 0xC0, 0x80, 0x41, 0x01, 0xC0,
   0x80, 0x41, 0x00, 0xC1, 0x81, 0x40, 0x00, 0xC1, 0x81, 0x40, 0x01, 0xC0, 0x80,
   0x41, 0x00, 0xC1, 0x81, 0x40, 0x01, 0xC0, 0x80, 0x41, 0x01, 0xC0, 0x80, 0x41,
   0x00, 0xC1, 0x81, 0x40, 0x00, 0xC1, 0x81, 0x40, 0x01, 0xC0, 0x80, 0x41, 0x01,
   0xC0, 0x80, 0x41, 0x00, 0xC1, 0x81, 0x40, 0x01, 0xC0, 0x80, 0x41, 0x00, 0xC1,
   0x81, 0x40, 0x00, 0xC1, 0x81, 0x40, 0x01, 0xC0, 0x80, 0x41, 0x00, 0xC1, 0x81,
   0x40, 0x01, 0xC0, 0x80, 0x41, 0x01, 0xC0, 0x80, 0x41, 0x00, 0xC1, 0x81, 0x40,
   0x01, 0xC0, 0x80, 0x41, 0x00, 0xC1, 0x81, 0x40, 0x00, 0xC1, 0x81, 0x40, 0x01,
   0xC0, 0x80, 0x41, 0x01, 0xC0, 0x80, 0x41, 0x00, 0xC1, 0x81, 0x40, 0x00, 0xC1,
   0x81, 0x40, 0x01, 0xC0, 0x80, 0x41, 0x00, 0xC1, 0x81, 0x40, 0x01, 0xC0, 0x80,
   0x41, 0x01, 0xC0, 0x80, 0x41, 0x00, 0xC1, 0x81, 0x40]

/-- `abCrc16Lo`. -/
def abCrc16Lo : List UInt8 :=
  [0x00, 0xC0, 0xC1, 0x01, 0xC3, 0x03, 0x02, 0xC2, 0xC6, 0x06, 0x07, 0xC7, 0x05,
   0xC5, 0xC4, 0x04, 0xCC, 0x0C, 0x0D, 0xCD, 0x0F, 0xCF, 0xCE, 0x0E, 0x0A, 0xCA,
   0xCB, 0x0B, 0xC9, 0x09, 0x08, 0xC8, 0xD8, 0x18, 0x19, 0xD9, 0x1B, 0xDB, 0xDA,
   0x1A, 0x1E, 0xDE, 0xDF, 0x1F, 0xDD, 0x1D, 0x1C, 0xDC, 0x14, 0xD4, 0xD5, 0x15,
   0xD7, 0x17, 0x16, 0xD6, 0xD2, 0x12, 0x13, 0xD3, 0x11, 0xD1, 0xD0, 0x10, 0xF0,
   0x30, 0x31, 0xF1, 0x33, 0xF3, 0xF2, 0x32, 0x36, 0xF6, 0xF7, 0x37, 0xF5, 0x35,
   0x34, 0xF4, 0x3C, 0xFC, 0xFD, 0x3D, 0xFF, 0x3F, 0x3E, 0xFE, 0xFA, 0x3A, 0x3B,
   0xFB, 0x39, 0xF9, 0xF8, 0x38, 0x28, 0xE8, 0xE9, 0x29, 0xEB, 0x2B, 0x2A, 0xEA,
   0xEE, 0x2E, 0x2F, 0xEF, 0x2D, 0xED, 0xEC, 0x2C, 0xE4, 0x24, 0x25, 0xE5, 0x27,
   0xE7, 0xE6, 0x26, 0x22, 0xE2, 0xE3, 0x23, 0xE1, 0x21, 0x20, 0xE0, 0xA0, 0x60,
   0x61, 0xA1, 0x63, 0xA3, 0xA2, 0x62, 0x66, 0xA6, 0xA7, 0x67, 0xA5, 0x65, 0x64,
   0xA4, 0x6C, 0xAC, 0xAD, 0x6D, 0xAF, 0x6F, 0x6E, 0xAE, 0xAA, 0x6A, 0x6B, 0xAB,
   0x69, 0xA9, 0xA8, 0x68, 0x78, 0xB8, 0xB9, 0x79, 0xBB, 0x7B, 0x7A, 0xBA, 0xBE,
   0x7E, 0x7F, 0xBF, 0x7D, 0xBD, 0xBC, 0x7C, 0xB4, 0x74, 0x75, 0xB5, 0x77, 0xB7,
   0xB6, 0x76, 0x72, 0xB2, 0xB3, 0x73, 0xB1, 0x71, 0x70, 0xB0, 0x50, 0x90, 0x91,
   0x51, 0x93, 0x53, 0x52, 0x92, 0x96, 0x56, 0x57, 0x97, 0x55, 0x95, 0x94, 0x54,
   0x9C, 0x5C, 0x5D, 0x9D, 0x5F, 0x9F, 0x9E, 0x5E, 0x5A, 0x9A, 0x9B, 0x5B, 0x99,
   0x59, 0x58, 0x98, 0x88, 0x48, 0x49, 0x89, 0x4B, 0x8B, 0x8A, 0x4A, 0x4E, 0x8E,
   0x8F, 0x4F, 0x8D, 0x4D, 0x4C, 0x8C, 0x44, 0x84, 0x85, 0x45, 0x87, 0x47, 0x46,
   0x86, 0x82, 0x42, 0x43, 0x83, 0x41, 0x81, 0x80, 0x40]

/-- `while( iLength > 0 )`, from the byte `i` of the buffer on.  A byte is in the range of the
tables. -/
def crc16Loop (pbBufferStart : ℕ → UInt8) : ℕ → ℕ → UInt8 → UInt8 → UInt8 × UInt8
  | 0, _, bCrcHi, bCrcLo => (bCrcHi, bCrcLo)
  | iLength + 1, i, bCrcHi, bCrcLo =>
    let bIndex := (bCrcLo ^^^ pbBufferStart i).toNat
    crc16Loop pbBufferStart iLength (i + 1) (abCrc16Lo.getD bIndex 0)
      (bCrcHi ^^^ abCrc16Hi.getD bIndex 0)

/-- `CRC_Crc16`. -/
def crcCrc16 (pbBufferStart : ℕ → UInt8) (iLength : UInt16) : UInt16 :=
  let (bCrcHi, bCrcLo) := crc16Loop pbBufferStart iLength.toNat 0 0xFF 0xFF
  bCrcHi.toUInt16 <<< 8 ||| bCrcLo.toUInt16

/-! ### The same tables, and the same register -/

theorem abCrc16_eq : abCrc16Hi = auchCRCHiExp ∧ abCrc16Lo = auchCRCLoExp := ⟨rfl, rfl⟩

/-- **Run.** -/
theorem crc16Loop_spec (pbBufferStart : ℕ → UInt8) (n : ℕ) :
    ∀ (i : ℕ) {c : BitVec 16} {bCrcHi bCrcLo : UInt8}, RegisterOf c bCrcLo bCrcHi →
      RegisterOf (crc 0xA001#16 c ((chkBytes pbBufferStart i n).map UInt8.toBitVec))
        (crc16Loop pbBufferStart n i bCrcHi bCrcLo).2
        (crc16Loop pbBufferStart n i bCrcHi bCrcLo).1 := by
  induction n with
  | zero => exact fun i {c bCrcHi bCrcLo} h => h
  | succ n ih =>
    intro i c bCrcHi bCrcLo h
    obtain ⟨hhi, hlo⟩ := auchCRC_exp_get (bCrcLo ^^^ pbBufferStart i) rfl
    have hround := h.round (pbBufferStart i) hhi hlo
    rw [crc16Loop, abCrc16_eq.1, abCrc16_eq.2, List.getD_eq_getElem?_getD,
      List.getD_eq_getElem?_getD, hhi, hlo, chkBytes_succ, List.map_cons, crc, List.foldl_cons]
    exact ih (i + 1) hround

theorem swapBytes_swapBytes (c : BitVec 16) : swapBytes (swapBytes c) = c := by
  apply BitVec.eq_of_getLsbD_eq
  intro i hi
  rw [getLsbD_swapBytes, getLsbD_swapBytes, getLsbD_swapBytes]
  by_cases hlow : i < 8
  · simp [hlow, show 8 + i < 16 by omega]
  · have hback : 8 + (i - 8) = i := by omega
    simp [hlow, hi, hback, show i - 8 < 8 by omega]

/-- The bytes of a register, exchanged. -/
theorem RegisterOf.swap {c : BitVec 16} {lo hi : UInt8} (h : RegisterOf c lo hi) :
    RegisterOf (swapBytes c) hi lo where
  low := h.high.trans (swapBytes_low c).symm
  high := h.low.trans (swapBytes_high c).symm

theorem registerOf_start : RegisterOf 0xFFFF#16 0xFF 0xFF := ⟨rfl, rfl⟩

/-- `CRC_Crc16` returns the CRC-16 of MODBUS. -/
theorem toBitVec_crcCrc16 (pbBufferStart : ℕ → UInt8) (iLength : UInt16) :
    (crcCrc16 pbBufferStart iLength).toBitVec
      = crc16Modbus (chkBytes pbBufferStart 0 iLength.toNat) := by
  have hreg := crc16Loop_spec pbBufferStart iLength.toNat 0 registerOf_start
  have hresult := hreg.swap.result
  rw [swapBytes_swapBytes] at hresult
  exact hresult

/-- **Two programs for one check.**  `CRC_Crc16` of any buffer is its CRC-16, bit by bit, and
`modrtuChecksum` of as many bytes is the same with the bytes exchanged. -/
theorem crcCrc16_exact (pbBufferStart : ℕ → UInt8) :
    (∀ iLength : UInt16, (crcCrc16 pbBufferStart iLength).toBitVec
      = (bits ((chkBytes pbBufferStart 0 iLength.toNat).map UInt8.toBitVec)).foldl
          (feed 0xA001#16) 0xFFFF#16) ∧
    ∀ len : UInt8, modrtuChecksum pbBufferStart len
      = some ⟨swapBytes (crcCrc16 pbBufferStart len.toUInt16).toBitVec⟩ := by
  constructor
  · intro iLength
    rw [toBitVec_crcCrc16, crc16Modbus, crc_eq_bits (by omega)]
  · intro len
    obtain ⟨hi, lo, hloop, hreg⟩ := modrtuLoop_spec pbBufferStart len.toNat 0 registerOf_start
    rw [modrtuChecksum, hloop, toBitVec_crcCrc16, UInt8.toNat_toUInt16]
    exact congrArg some (UInt16.toBitVec_inj.mp hreg.result)

/-- The two bytes of a word, put together again. -/
theorem join_bytes (c : UInt16) : (c >>> 8).toUInt8.toUInt16 <<< 8 ||| c.toUInt8.toUInt16 = c := by
  have hreg : RegisterOf c.toBitVec c.toUInt8 (c >>> 8).toUInt8 := ⟨rfl, rfl⟩
  apply UInt16.toBitVec_inj.mp
  rw [hreg.swap.result, swapBytes_swapBytes]

end Start01
