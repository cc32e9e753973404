/-
Start01/ModRtu.lean

`modrtuChecksum` of utils.c, the CRC-16 of MODBUS by two tables of bytes.

The pair `uchCRCHi`, `uchCRCLo` is the register with its bytes exchanged: `uchCRCHi` is the low
one (`RegisterOf`).  The tables hold the two bytes of eight shifts of their index
(`auchCRC_exp_eq`), so that one round of the loop is one octet of the message
(`RegisterOf.round`).
-/
import Start01.Lib.Crc

namespace Start01

open Crc

/-! ### utils.c -/

/-- `auchCRCHi_exp`. -/
def auchCRCHiExp : List UInt8 :=
  [0x00, 0xc1, 0x81, 0x40, 0x01, 0xc0, 0x80, 0x41, 0x01, 0xc0, 0x80, 0x41, 0x00, 0xc1, 0x81,
    0x40, 0x01, 0xc0, 0x80, 0x41, 0x00, 0xc1, 0x81, 0x40, 0x00, 0xc1, 0x81, 0x40, 0x01, 0xc0,
    0x80, 0x41, 0x01, 0xc0, 0x80, 0x41, 0x00, 0xc1, 0x81, 0x40, 0x00, 0xc1, 0x81, 0x40, 0x01,
    0xc0, 0x80, 0x41, 0x00, 0xc1, 0x81, 0x40, 0x01, 0xc0, 0x80, 0x41, 0x01, 0xc0, 0x80, 0x41,
    0x00, 0xc1, 0x81, 0x40, 0x01, 0xc0, 0x80, 0x41, 0x00, 0xc1, 0x81, 0x40, 0x00, 0xc1, 0x81,
    0x40, 0x01, 0xc0, 0x80, 0x41, 0x00, 0xc1, 0x81, 0x40, 0x01, 0xc0, 0x80, 0x41, 0x01, 0xc0,
    0x80, 0x41, 0x00, 0xc1, 0x81, 0x40, 0x00, 0xc1, 0x81, 0x40, 0x01, 0xc0, 0x80, 0x41, 0x01,
    0xc0, 0x80, 0x41, 0x00, 0xc1, 0x81, 0x40, 0x01, 0xc0, 0x80, 0x41, 0x00, 0xc1, 0x81, 0x40,
    0x00, 0xc1, 0x81, 0x40, 0x01, 0xc0, 0x80, 0x41, 0x01, 0xc0, 0x80, 0x41, 0x00, 0xc1, 0x81,
    0x40, 0x00, 0xc1, 0x81, 0x40, 0x01, 0xc0, 0x80, 0x41, 0x00, 0xc1, 0x81, 0x40, 0x01, 0xc0,
    0x80, 0x41, 0x01, 0xc0, 0x80, 0x41, 0x00, 0xc1, 0x81, 0x40, 0x00, 0xc1, 0x81, 0x40, 0x01,
    0xc0, 0x80, 0x41, 0x01, 0xc0, 0x80, 0x41, 0x00, 0xc1, 0x81, 0x40, 0x01, 0xc0, 0x80, 0x41,
    0x00, 0xc1, 0x81, 0x40, 0x00, 0xc1, 0x81, 0x40, 0x01, 0xc0, 0x80, 0x41, 0x00, 0xc1, 0x81,
    0x40, 0x01, 0xc0, 0x80, 0x41, 0x01, 0xc0, 0x80, 0x41, 0x00, 0xc1, 0x81, 0x40, 0x01, 0xc0,
    0x80, 0x41, 0x00, 0xc1, 0x81, 0x40, 0x00, 0xc1, 0x81, 0x40, 0x01, 0xc0, 0x80, 0x41, 0x01,
    0xc0, 0x80, 0x41, 0x00, 0xc1, 0x81, 0x40, 0x00, 0xc1, 0x81, 0x40, 0x01, 0xc0, 0x80, 0x41,
    0x00, 0xc1, 0x81, 0x40, 0x01, 0xc0, 0x80, 0x41, 0x01, 0xc0, 0x80, 0x41, 0x00, 0xc1, 0x81,
    0x40]

/-- `auchCRCLo_exp`. -/
def auchCRCLoExp : List UInt8 :=
  [0x00, 0xc0, 0xc1, 0x01, 0xc3, 0x03, 0x02, 0xc2, 0xc6, 0x06, 0x07, 0xc7, 0x05, 0xc5, 0xc4,
    0x04, 0xcc, 0x0c, 0x0d, 0xcd, 0x0f, 0xcf, 0xce, 0x0e, 0x0a, 0xca, 0xcb, 0x0b, 0xc9, 0x09,
    0x08, 0xc8, 0xd8, 0x18, 0x19, 0xd9, 0x1b, 0xdb, 0xda, 0x1a, 0x1e, 0xde, 0xdf, 0x1f, 0xdd,
    0x1d, 0x1c, 0xdc, 0x14, 0xd4, 0xd5, 0x15, 0xd7, 0x17, 0x16, 0xd6, 0xd2, 0x12, 0x13, 0xd3,
    0x11, 0xd1, 0xd0, 0x10, 0xf0, 0x30, 0x31, 0xf1, 0x33, 0xf3, 0xf2, 0x32, 0x36, 0xf6, 0xf7,
    0x37, 0xf5, 0x35, 0x34, 0xf4, 0x3c, 0xfc, 0xfd, 0x3d, 0xff, 0x3f, 0x3e, 0xfe, 0xfa, 0x3a,
    0x3b, 0xfb, 0x39, 0xf9, 0xf8, 0x38, 0x28, 0xe8, 0xe9, 0x29, 0xeb, 0x2b, 0x2a, 0xea, 0xee,
    0x2e, 0x2f, 0xef, 0x2d, 0xed, 0xec, 0x2c, 0xe4, 0x24, 0x25, 0xe5, 0x27, 0xe7, 0xe6, 0x26,
    0x22, 0xe2, 0xe3, 0x23, 0xe1, 0x21, 0x20, 0xe0, 0xa0, 0x60, 0x61, 0xa1, 0x63, 0xa3, 0xa2,
    0x62, 0x66, 0xa6, 0xa7, 0x67, 0xa5, 0x65, 0x64, 0xa4, 0x6c, 0xac, 0xad, 0x6d, 0xaf, 0x6f,
    0x6e, 0xae, 0xaa, 0x6a, 0x6b, 0xab, 0x69, 0xa9, 0xa8, 0x68, 0x78, 0xb8, 0xb9, 0x79, 0xbb,
    0x7b, 0x7a, 0xba, 0xbe, 0x7e, 0x7f, 0xbf, 0x7d, 0xbd, 0xbc, 0x7c, 0xb4, 0x74, 0x75, 0xb5,
    0x77, 0xb7, 0xb6, 0x76, 0x72, 0xb2, 0xb3, 0x73, 0xb1, 0x71, 0x70, 0xb0, 0x50, 0x90, 0x91,
    0x51, 0x93, 0x53, 0x52, 0x92, 0x96, 0x56, 0x57, 0x97, 0x55, 0x95, 0x94, 0x54, 0x9c, 0x5c,
    0x5d, 0x9d, 0x5f, 0x9f, 0x9e, 0x5e, 0x5a, 0x9a, 0x9b, 0x5b, 0x99, 0x59, 0x58, 0x98, 0x88,
    0x48, 0x49, 0x89, 0x4b, 0x8b, 0x8a, 0x4a, 0x4e, 0x8e, 0x8f, 0x4f, 0x8d, 0x4d, 0x4c, 0x8c,
    0x44, 0x84, 0x85, 0x45, 0x87, 0x47, 0x46, 0x86, 0x82, 0x42, 0x43, 0x83, 0x41, 0x81, 0x80,
    0x40]

/-- `while (len)`, from the byte `i` of the buffer on; a read behind a table is `none`. -/
def modrtuLoop (chkbuf : ℕ → UInt8) : ℕ → ℕ → UInt8 → UInt8 → Option (UInt8 × UInt8)
  | 0, _, uchCRCHi, uchCRCLo => some (uchCRCHi, uchCRCLo)
  | len + 1, i, uchCRCHi, uchCRCLo => do
    let uIndex := (uchCRCHi ^^^ chkbuf i).toNat
    let hi ← auchCRCHiExp[uIndex]?
    let lo ← auchCRCLoExp[uIndex]?
    modrtuLoop chkbuf len (i + 1) (uchCRCLo ^^^ hi) lo

/-- `modrtuChecksum`. -/
def modrtuChecksum (chkbuf : ℕ → UInt8) (len : UInt8) : Option UInt16 := do
  let (uchCRCHi, uchCRCLo) ← modrtuLoop chkbuf len.toNat 0 0xFF 0xFF
  let tempCode := uchCRCHi.toUInt16
  let tempCode := tempCode <<< 8
  return tempCode ||| uchCRCLo.toUInt16

/-! ### What it should compute -/

/-- The CRC-16 of MODBUS, bit by bit. -/
def crc16Modbus (bytes : List UInt8) : BitVec 16 :=
  crc 0xA001#16 0xFFFF#16 (bytes.map UInt8.toBitVec)

/-- The `n` bytes of a buffer from `i` on. -/
def chkBytes (chkbuf : ℕ → UInt8) (i n : ℕ) : List UInt8 :=
  (List.range n).map fun k => chkbuf (i + k)

/-- `uchCRCHi` and `uchCRCLo` are the low and the high byte of the register. -/
structure RegisterOf (c : BitVec 16) (uchCRCHi uchCRCLo : UInt8) : Prop where
  low : uchCRCHi.toBitVec = c.setWidth 8
  high : uchCRCLo.toBitVec = (c >>> 8).setWidth 8

/-! ### The tables -/

/-- The bytes of eight shifts of each index. -/
theorem auchCRC_exp_eq :
    auchCRCHiExp = (List.range 256).map (fun i =>
      ⟨(shifts 0xA001#16 8 (BitVec.ofNat 16 i)).setWidth 8⟩) ∧
    auchCRCLoExp = (List.range 256).map (fun i =>
      ⟨(shifts 0xA001#16 8 (BitVec.ofNat 16 i) >>> 8).setWidth 8⟩) := by
  decide +kernel

/-- The two reads of the loop. -/
theorem auchCRC_exp_get (i : UInt8) {x : BitVec 16} (hx : x = i.toBitVec.setWidth 16) :
    auchCRCHiExp[i.toNat]? = some ⟨(shifts 0xA001#16 8 x).setWidth 8⟩ ∧
      auchCRCLoExp[i.toNat]? = some ⟨(shifts 0xA001#16 8 x >>> 8).setWidth 8⟩ := by
  have hget : (List.range 256)[i.toNat]? = some i.toNat := List.getElem?_range i.toNat_lt
  have hindex : BitVec.ofNat 16 i.toNat = x := hx ▸ BitVec.ofNat_toNat 16 i.toBitVec
  rw [auchCRC_exp_eq.1, auchCRC_exp_eq.2, List.getElem?_map, List.getElem?_map, hget]
  simp only [Option.map_some, hindex]
  exact ⟨trivial, trivial⟩

/-! ### The loop -/

variable {c : BitVec 16} {uchCRCHi uchCRCLo hi lo : UInt8}

/-- **Round.** -/
theorem RegisterOf.round (h : RegisterOf c uchCRCHi uchCRCLo) (b : UInt8)
    (hhi : auchCRCHiExp[(uchCRCHi ^^^ b).toNat]? = some hi)
    (hlo : auchCRCLoExp[(uchCRCHi ^^^ b).toNat]? = some lo) :
    RegisterOf (octet 0xA001#16 c b.toBitVec) (uchCRCLo ^^^ hi) lo := by
  obtain ⟨x, hx⟩ : ∃ x, x = (c.setWidth 8 ^^^ b.toBitVec).setWidth 16 := ⟨_, rfl⟩
  have hindex : x = (uchCRCHi ^^^ b).toBitVec.setWidth 16 := by
    rw [hx, UInt8.toBitVec_xor, h.low]
  obtain ⟨hget, hget'⟩ := auchCRC_exp_get (uchCRCHi ^^^ b) hindex
  obtain rfl := Option.some.inj (hhi.symm.trans hget)
  obtain rfl := Option.some.inj (hlo.symm.trans hget')
  rw [octet_eq, ← hx]
  constructor
  · rw [UInt8.toBitVec_xor, h.high, BitVec.setWidth_xor, BitVec.xor_comm]
  · -- of the old register nothing reaches the high byte
    have hgone : c >>> 8 >>> 8 = 0#16 := by
      rw [← BitVec.shiftRight_add]
      exact BitVec.ushiftRight_eq_zero (Nat.le_refl 16)
    rw [BitVec.ushiftRight_xor_distrib, hgone, BitVec.xor_zero]

theorem chkBytes_succ (chkbuf : ℕ → UInt8) (i n : ℕ) :
    chkBytes chkbuf i (n + 1) = chkbuf i :: chkBytes chkbuf (i + 1) n := by
  simp only [chkBytes, List.range_succ_eq_map, List.map_cons, List.map_map]
  congr 1
  apply List.map_congr_left
  intro k _
  show chkbuf (i + (k + 1)) = chkbuf (i + 1 + k)
  congr 1
  omega

/-- **Run.** -/
theorem modrtuLoop_spec (chkbuf : ℕ → UInt8) (n : ℕ) : ∀ (i : ℕ) {c uchCRCHi uchCRCLo},
    RegisterOf c uchCRCHi uchCRCLo →
      ∃ hi lo, modrtuLoop chkbuf n i uchCRCHi uchCRCLo = some (hi, lo) ∧
        RegisterOf (crc 0xA001#16 c ((chkBytes chkbuf i n).map UInt8.toBitVec)) hi lo := by
  induction n with
  | zero => exact fun i {c uchCRCHi uchCRCLo} h => ⟨uchCRCHi, uchCRCLo, rfl, h⟩
  | succ n ih =>
    intro i c uchCRCHi uchCRCLo h
    obtain ⟨hhi, hlo⟩ := auchCRC_exp_get (uchCRCHi ^^^ chkbuf i) rfl
    obtain ⟨hi, lo, heq, hreg⟩ := ih (i + 1) (h.round (chkbuf i) hhi hlo)
    refine ⟨hi, lo, ?_, ?_⟩
    · rw [modrtuLoop, hhi, hlo]
      exact heq
    · rw [chkBytes_succ, List.map_cons, crc, List.foldl_cons]
      exact hreg

/-! ### The result -/

/-- A register with its two bytes exchanged. -/
def swapBytes (c : BitVec 16) : BitVec 16 := c <<< 8 ||| c >>> 8

theorem getLsbD_swapBytes (c : BitVec 16) (i : ℕ) : (swapBytes c).getLsbD i =
    if i < 8 then c.getLsbD (8 + i) else decide (i < 16) && c.getLsbD (i - 8) := by
  rw [swapBytes, BitVec.getLsbD_or, BitVec.getLsbD_shiftLeft, BitVec.getLsbD_ushiftRight]
  by_cases hlow : i < 8
  · simp [hlow]
  · have hout : c.getLsbD (8 + i) = false := BitVec.getLsbD_of_ge c _ (by omega)
    simp [hlow, hout]

theorem swapBytes_high (c : BitVec 16) : (swapBytes c >>> 8).setWidth 8 = c.setWidth 8 := by
  apply BitVec.eq_of_getLsbD_eq
  intro i hi
  have hin : 8 + i < 16 := by omega
  have hhigh : ¬ 8 + i < 8 := by omega
  rw [BitVec.getLsbD_setWidth, BitVec.getLsbD_ushiftRight, getLsbD_swapBytes, if_neg hhigh,
    BitVec.getLsbD_setWidth, Nat.add_sub_cancel_left, decide_eq_true hin, Bool.true_and]

theorem swapBytes_low (c : BitVec 16) : (swapBytes c).setWidth 8 = (c >>> 8).setWidth 8 := by
  apply BitVec.eq_of_getLsbD_eq
  intro i hi
  rw [BitVec.getLsbD_setWidth, getLsbD_swapBytes, if_pos hi, BitVec.getLsbD_setWidth,
    BitVec.getLsbD_ushiftRight]

/-- What `modrtuChecksum` puts together. -/
theorem RegisterOf.result (h : RegisterOf c uchCRCHi uchCRCLo) :
    (uchCRCHi.toUInt16 <<< 8 ||| uchCRCLo.toUInt16).toBitVec = swapBytes c := by
  rw [UInt16.toBitVec_or, UInt16.toBitVec_shiftLeft, UInt8.toBitVec_toUInt16,
    UInt8.toBitVec_toUInt16, h.low, h.high]
  show (c.setWidth 8).setWidth 16 <<< 8 ||| ((c >>> 8).setWidth 8).setWidth 16 = swapBytes c
  apply BitVec.eq_of_getLsbD_eq
  intro i hi
  rw [getLsbD_swapBytes, BitVec.getLsbD_or, BitVec.getLsbD_shiftLeft, BitVec.getLsbD_setWidth,
    BitVec.getLsbD_setWidth, BitVec.getLsbD_setWidth, BitVec.getLsbD_setWidth,
    BitVec.getLsbD_ushiftRight]
  by_cases hlow : i < 8
  · simp [hlow, hi]
  · have hin : i - 8 < 8 := by omega
    have hin' : i - 8 < 16 := by omega
    simp [hlow, hi, hin, hin']

/-- **The checksum** of a buffer is its CRC-16 with the bytes exchanged, and with it behind the
buffer, the high half first, the CRC-16 is 0. -/
theorem modrtuChecksum_exact (chkbuf : ℕ → UInt8) (len : UInt8) :
    ∃ r, modrtuChecksum chkbuf len = some r ∧
      r.toBitVec = swapBytes (crc16Modbus (chkBytes chkbuf 0 len.toNat)) ∧
      crc16Modbus (chkBytes chkbuf 0 len.toNat ++ [(r >>> 8).toUInt8, r.toUInt8]) = 0#16 := by
  have hstart : RegisterOf 0xFFFF#16 0xFF 0xFF := ⟨rfl, rfl⟩
  obtain ⟨hi, lo, hloop, hreg⟩ := modrtuLoop_spec chkbuf len.toNat 0 hstart
  obtain ⟨c, hc⟩ : ∃ c, c = crc16Modbus (chkBytes chkbuf 0 len.toNat) := ⟨_, rfl⟩
  have hres : (hi.toUInt16 <<< 8 ||| lo.toUInt16).toBitVec = swapBytes c := hc ▸ hreg.result
  refine ⟨hi.toUInt16 <<< 8 ||| lo.toUInt16, ?_, hres.trans (by rw [hc]), ?_⟩
  · rw [modrtuChecksum, hloop]
    rfl
  · -- the two bytes are the octets of the register
    have hoctets : [((hi.toUInt16 <<< 8 ||| lo.toUInt16) >>> 8).toUInt8,
        (hi.toUInt16 <<< 8 ||| lo.toUInt16).toUInt8].map UInt8.toBitVec = octets 2 c := by
      have hhigh : ((hi.toUInt16 <<< 8 ||| lo.toUInt16) >>> 8).toBitVec = swapBytes c >>> 8 := by
        rw [UInt16.toBitVec_shiftRight, hres]
        rfl
      simp only [List.map_cons, List.map_nil, UInt16.toBitVec_toUInt8, hhigh, hres, octets,
        swapBytes_high, swapBytes_low]
    rw [crc16Modbus, List.map_append, hoctets, hc]
    exact crc_append_octets (Nat.le_refl 16) _ _

/-- The digits 1 to 9. -/
example : modrtuChecksum (fun i => UInt8.ofNat (0x31 + i)) 9 = some 0x374B := by decide

end Start01
