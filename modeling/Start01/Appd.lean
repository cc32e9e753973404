/-
Start01/Appd.lean

The application data object of the Anybus driver (appd.c): five values of a drive, each with a
number, a type and limits, which the network reads and sets by commands to their instances, and by
process data, into which they are mapped.

The values are kept as their bytes in memory, low byte first, as the processor has them.  An access
outside the arrays of maps is `none`.
-/
import Start01.Abcc
import Start01.Lib.Bank
import Start01.Lib.Splice

namespace Start01

open Scatter Splice

/-! ### Responses (abp.h) -/

/-- `ABP_MsgErrorCodeType`, as far as it is used. -/
inductive MsgErrorCode
  | invMsgFormat
  | unsupObj
  | unsupInst
  | unsupCmd
  | invCmdExt0
  | invCmdExt1
  | attrNotSetable
  | attrNotGetable
  | tooMuchData
  | notEnoughData
  | outOfRange
  | noResources
  | objSpecific
  deriving DecidableEq

/-- Their numbers. -/
def MsgErrorCode.code : MsgErrorCode → UInt8
  | invMsgFormat => 0x02
  | unsupObj => 0x03
  | unsupInst => 0x04
  | unsupCmd => 0x05
  | invCmdExt0 => 0x06
  | invCmdExt1 => 0x07
  | attrNotSetable => 0x08
  | attrNotGetable => 0x09
  | tooMuchData => 0x0A
  | notEnoughData => 0x0B
  | outOfRange => 0x0C
  | noResources => 0x0E
  | objSpecific => 0xFF

/-- Data of a message is written. -/
def putData (m : ℕ → UInt8) (data : List UInt8) : ℕ → UInt8 := put sizeofMsgHeader data m

/-- The bytes of a word, low byte first. -/
def wordData (w : UInt16) : List UInt8 := [w.toUInt8, (w >>> 8).toUInt8]

/-- The characters of a string, without the zero behind them. -/
def stringData (s : String) : List UInt8 := s.toList.map fun c => UInt8.ofNat c.toNat

/-- `ABP_SetMsgResponse`. -/
def setMsgResponse (m : ℕ → UInt8) (bMsgDataSize : UInt8) : ℕ → UInt8 :=
  Function.update (Function.update m 4 (m 4 &&& 0xBF)) 5 bMsgDataSize

/-- `ABP_SetMsgErrorResponse`. -/
def setMsgErrorResponse (m : ℕ → UInt8) (bMsgDataSize : UInt8) (eErr : MsgErrorCode) : ℕ → UInt8 :=
  Function.update (Function.update (Function.update m 4 (m 4 &&& 0xBF ||| 0x80)) 5 bMsgDataSize) 8
    eErr.code

/-- Data is written, and the response made of it. -/
def respond (m : ℕ → UInt8) (data : List UInt8) : ℕ → UInt8 :=
  setMsgResponse (putData m data) (UInt8.ofNat data.length)

/-! ### Types and values -/

/-- `appd_abTypesize`, from ABP_BOOL to ABP_FLOAT. -/
def abTypesize : List ℕ := [1, 1, 2, 4, 1, 2, 4, 1, 1, 0, 0, 0, 0, 0, 0, 0, 8, 8, 4]

/-- `ABCC_Typesize`. -/
def typesize (bDataType : UInt8) : ℕ := abTypesize.getD bDataType.toNat 0

/-- An unsigned integer of `n` bytes. -/
def loadUnsigned (m : ℕ → UInt8) : ℕ → ℕ
  | 0 => 0
  | n + 1 => loadUnsigned m n + (m n).toNat * 256 ^ n

/-- A signed integer of `n` bytes. -/
def loadSigned (m : ℕ → UInt8) (n : ℕ) : ℤ :=
  let u := loadUnsigned m n
  if 2 * u < 256 ^ n then u else (u : ℤ) - 256 ^ n

/-- The order of the numbers that four bytes stand for as a FLOAT32; `none` is not a number. -/
def loadFloat (m : ℕ → UInt8) : Option ℤ :=
  let u := loadUnsigned m 4
  let magnitude : ℕ := u % 2 ^ 31
  if magnitude > 0x7F800000 then none
  else if u < 2 ^ 31 then some (magnitude : ℤ) else some (-(magnitude : ℤ))

/-- 1, -1 and 0. -/
def compareOf (v w : ℤ) : ℤ := if v > w then 1 else if v < w then -1 else 0

/-- `appd_Compare`. -/
def appdCompare (pVal1 pVal2 : ℕ → UInt8) (bDataType : UInt8) : ℤ :=
  match bDataType.toNat with
  | 0 | 4 | 7 | 8 => (loadUnsigned pVal1 1 : ℤ) - loadUnsigned pVal2 1
  | 1 => loadSigned pVal1 1 - loadSigned pVal2 1
  | 2 => loadSigned pVal1 2 - loadSigned pVal2 2
  | 3 => compareOf (loadSigned pVal1 4) (loadSigned pVal2 4)
  | 5 => (loadUnsigned pVal1 2 : ℤ) - loadUnsigned pVal2 2
  | 6 => compareOf (loadUnsigned pVal1 4) (loadUnsigned pVal2 4)
  | 16 => compareOf (loadSigned pVal1 8) (loadSigned pVal2 8)
  | 17 => compareOf (loadUnsigned pVal1 8) (loadUnsigned pVal2 8)
  | 18 =>
    match loadFloat pVal1, loadFloat pVal2 with
    | some v, some w => compareOf v w
    | _, _ => 0
  | _ => 0

/-! ### The instances -/

/-- `appd_InstanceType`, without `pxValue`. -/
structure AdiInstance where
  acName : String
  bDataType : UInt8
  bNumberOfElements : UInt8
  bDescriptor : UInt8
  pxMaxValue : ℕ → UInt8
  pxMinValue : ℕ → UInt8
  pxDefaultValue : ℕ → UInt8
  iInstanceNumber : UInt16

/-- A word in memory. -/
def memWord (w : UInt16) : ℕ → UInt8 := fun i => (wordData w).getD i 0

/-- A byte in memory. -/
def memByte (b : UInt8) : ℕ → UInt8 := fun i => [b].getD i 0

/-- ABP_NC_DESCR_GET_ACCESS and ABP_NC_DESCR_SET_ACCESS. -/
def descrGetAccess : UInt8 := 0x01

/-- The access bits of a descriptor. -/
def descrSetAccess : UInt8 := 0x02

/-- `appd_asInstance`.  The limits of the speed are SINT16, but its type is ABP_UINT16. -/
def asInstance : List AdiInstance := [
  ⟨"Speed", 5, 1, descrGetAccess, memWord 500, memWord (-500), memWord 10, 1⟩,
  ⟨"Temperature", 2, 1, descrGetAccess, memWord 125, memWord (-40), memWord 25, 2⟩,
  ⟨"Ref speed", 5, 1, descrSetAccess ||| descrGetAccess, memWord 500, memWord 0, memWord 10, 3⟩,
  ⟨"Direction = Forward", 0, 1, descrSetAccess ||| descrGetAccess, memByte 1, memByte 0, memByte 1, 4⟩,
  ⟨"Trip Current", 4, 1, descrSetAccess ||| descrGetAccess, memByte 6, memByte 0, memByte 4, 5⟩]

/-- NUMBER_OF_INSTANCES. -/
def numberOfInstances : ℕ := 5

/-- `APPD_FindAdiIndex`; `none` is 0xFFFF. -/
def findAdiIndex (iAdiNbr : UInt16) : Option ℕ :=
  asInstance.findIdx? fun adi => adi.iInstanceNumber = iAdiNbr

/-- An instance and its index. -/
def findAdi (iAdiNbr : UInt16) : Option (ℕ × AdiInstance) := do
  let i ← findAdiIndex iAdiNbr
  let adi ← asInstance[i]?
  return (i, adi)

/-- `appd_SizeOfAdiVal`. -/
def AdiInstance.sizeOfAdiVal (adi : AdiInstance) : ℕ :=
  typesize adi.bDataType * adi.bNumberOfElements.toNat

/-! ### Maps -/

/-- `ABCC_PdAdiMapType`. -/
structure PdAdiMap where
  iAdiNbr : UInt16
  bDataType : UInt8
  bNbrElements : UInt8
  bFirstElement : UInt8
  iOrderNumber : UInt16
  bAreaOffset : UInt8
  bMapStatus : UInt8
  deriving DecidableEq

/-- `ABCC_PdMapType`, and the array of NUMBER_OF_INSTANCES maps that `psMaps` points to. -/
structure PdMap where
  iNbrMaps : UInt16
  psMaps : ℕ → PdAdiMap

namespace PdMap

/-- The map at a place; `none` outside the array. -/
def get (maps : PdMap) (i : ℕ) : Option PdAdiMap :=
  if i < numberOfInstances then some (maps.psMaps i) else none

/-- The same, written. -/
def set (maps : PdMap) (i : ℕ) (map : PdAdiMap) : Option PdMap :=
  if i < numberOfInstances then some { maps with psMaps := Function.update maps.psMaps i map }
  else none

/-- All the maps, as a loop reads them. -/
def all (maps : PdMap) : Option (List PdAdiMap) := (List.range maps.iNbrMaps.toNat).mapM maps.get

end PdMap

/-- An element of `bNbrElements` of an instance. -/
def mapOf (i : ℕ) (adi : AdiInstance) (old : PdAdiMap) (bFirstElement bNbrElements : UInt8) :
    PdAdiMap :=
  { old with
    iAdiNbr := adi.iInstanceNumber
    bDataType := adi.bDataType
    bNbrElements := bNbrElements
    bFirstElement := bFirstElement
    iOrderNumber := UInt16.ofNat (i + 1) }

/-- The bytes of a map. -/
def PdAdiMap.size (map : PdAdiMap) : ℕ := map.bNbrElements.toNat * typesize map.bDataType

/-! ### The state -/

/-- The globals of appd.c. -/
structure Appd where
  /-- What the `pxValue` of the instances point to: APPD_iSpeed, APPD_iTemperature, APPD_iRefSpeed,
  APPD_fForward and APPD_bPoles. -/
  pxValue : ℕ → ℕ → UInt8
  sMyReadMappings : PdMap
  sMyWriteMappings : PdMap
  eBigEndianNetOrder : UInt8
  iWriteSize : UInt16
  iReadSize : UInt16

namespace Appd

/-- A cleared map. -/
def noMap : PdAdiMap := ⟨0, 0, 0, 0, 0, 0, 0⟩

/-- After a reset. -/
def boot : Appd where
  pxValue i := [memWord 0, memWord 25, memWord 0, memByte 1, memByte 4].getD i (memWord 0)
  sMyReadMappings := ⟨0, fun _ => noMap⟩
  sMyWriteMappings := ⟨0, fun _ => noMap⟩
  eBigEndianNetOrder := 1
  iWriteSize := 0
  iReadSize := 0

/-! ### Byte order -/

/-- `appd_SwapToNetOrder`, from the byte `src` of `pSrc` to the byte `dst` of `pDst`; these are two
blocks, or the same. -/
def swapToNetOrder (s : Appd) (pDst : ℕ → UInt8) (dst : ℕ) (pSrc : ℕ → UInt8) (src : ℕ)
    (bDataType : UInt8) : ℕ → ℕ → UInt8
  | 0 => pDst
  | bElements + 1 =>
    let n := typesize bDataType
    let temp := fun i => if s.eBigEndianNetOrder = 0 then pSrc (src + i) else pSrc (src + (n - 1 - i))
    s.swapToNetOrder (scatter pDst (fun i => dst + i) temp n) (dst + n) pSrc (src + n) bDataType
      bElements

/-- `appd_UpdateAdiVal`, for the instance `i` and the bytes from `at_` on.  What it writes to
`pbNotInRange` is the last result. -/
def updateAdiVal (s : Appd) (i : ℕ) (adi : AdiInstance) (pVal : ℕ → UInt8) (at_ : ℕ)
    (bElement : ℕ) : Appd × (ℕ → UInt8) × ℤ :=
  let pVal := s.swapToNetOrder pVal at_ pVal at_ adi.bDataType adi.bNumberOfElements.toNat
  let val := fun j => pVal (at_ + j)
  if appdCompare val adi.pxMaxValue adi.bDataType > 0 then (s, pVal, 1)
  else if appdCompare val adi.pxMinValue adi.bDataType < 0 then (s, pVal, -1)
  else
    let n := typesize adi.bDataType
    let new := scatter (s.pxValue i) (fun j => n * bElement + j) val n
    ({ s with pxValue := Function.update s.pxValue i new }, pVal, 0)

/-! ### Process data -/

/-- The elements of a map are updated, with `bIndex` and `abData` in the state of the loop. -/
def readElements (map : PdAdiMap) (i : ℕ) (adi : AdiInstance) :
    ℕ → Appd × (ℕ → UInt8) × UInt8 → Appd × (ℕ → UInt8) × UInt8
  | 0, st => st
  | n + 1, st =>
    let (s, abData, bIndex) := readElements map i adi n st
    let (s, abData, _) :=
      s.updateAdiVal i adi abData bIndex.toNat (map.bFirstElement.toNat + n)
    (s, abData, bIndex + UInt8.ofNat (typesize adi.bDataType))

/-- One map of `APPD_NewReadProcessData`. -/
def readMap (st : Appd × (ℕ → UInt8) × UInt8) (map : PdAdiMap) :
    Option (Appd × (ℕ → UInt8) × UInt8) := do
  let (i, adi) ← findAdi map.iAdiNbr
  return readElements map i adi map.bNbrElements.toNat st

/-- `APPD_CbfNewReadProcessData`, with what ABCC_ReadProcessData stores. -/
def newReadProcessData (s : Appd) (abData : ℕ → UInt8) : Option Appd := do
  let maps ← s.sMyReadMappings.all
  let (s, _) ← maps.foldlM readMap (s, abData, 0)
  return s

/-- One map of `APPD_ProcessDataChanged`. -/
def writeMap (s : Appd) (st : (ℕ → UInt8) × UInt8) (map : PdAdiMap) :
    Option ((ℕ → UInt8) × UInt8) := do
  let (i, adi) ← findAdi map.iAdiNbr
  let (abData, bIndex) := st
  let n := typesize adi.bDataType
  return (s.swapToNetOrder abData bIndex.toNat (s.pxValue i) (map.bFirstElement.toNat * n)
    adi.bDataType map.bNbrElements.toNat, bIndex + UInt8.ofNat (map.bNbrElements.toNat * n))

/-- `APPD_ProcessDataChanged`: what it hands over to ABCC_WriteProcessData, from an `abData` that
holds anything. -/
def processDataChanged (s : Appd) (abData : ℕ → UInt8) : Option (ℕ → UInt8) := do
  let maps ← s.sMyWriteMappings.all
  let (abData, _) ← maps.foldlM s.writeMap (abData, 0)
  return abData

/-- A list of ADI numbers is mapped from the map `iCnt` on. -/
def mapAll (maps : PdMap) (size : UInt16) : ℕ → List UInt16 → Option (PdMap × UInt16)
  | iCnt, [] => some ({ maps with iNbrMaps := UInt16.ofNat iCnt }, size)
  | iCnt, iAdiNbr :: rest => do
    let (i, adi) ← findAdi iAdiNbr
    let old ← maps.get iCnt
    let maps ← maps.set iCnt (mapOf i adi old 0 adi.bNumberOfElements)
    mapAll maps (size + UInt16.ofNat adi.sizeOfAdiVal) (iCnt + 1) rest

/-- `appd_aiInitialWriteMaps` and `appd_aiInitialReadMaps`. -/
def initialWriteMaps : List UInt16 := [1]

/-- The values that are mapped at first, by their numbers. -/
def initialReadMaps : List UInt16 := [3, 4]

/-- `APPD_MapAdiToPd`. -/
def mapAdiToPd (s : Appd) : Option Appd := do
  let (write, iWriteSize) ← mapAll s.sMyWriteMappings 0 0 initialWriteMaps
  let (read, iReadSize) ← mapAll s.sMyReadMappings 0 0 initialReadMaps
  return { s with
    sMyWriteMappings := write
    sMyReadMappings := read
    iWriteSize := iWriteSize
    iReadSize := iReadSize }

/-- `APPD_SetNetworkByteOrder`. -/
def setNetworkByteOrder (s : Appd) (eFormat : UInt8) : Appd := { s with eBigEndianNetOrder := eFormat }

end Appd

end Start01
