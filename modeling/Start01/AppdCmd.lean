/-
Start01/AppdCmd.lean

The commands to the application data object of the Anybus driver (appd.c).  Each is answered in the
message that brought it.  A remap command exchanges a part of the maps of the read or of the write
process data for another, in place (`remapProcessDataCommand`).
-/
import Start01.Appd

namespace Start01

open Scatter Splice

namespace Appd

/-! ### Commands to an instance -/

/-- A value is written to the message, and the response made of it. -/
def respondValue (s : Appd) (m : ℕ → UInt8) (adi : AdiInstance) (pxValue : ℕ → UInt8) :
    ℕ → UInt8 :=
  setMsgResponse
    (s.swapToNetOrder m sizeofMsgHeader pxValue 0 adi.bDataType adi.bNumberOfElements.toNat)
    (UInt8.ofNat adi.sizeOfAdiVal)

/-- ABP_CMD_GET_ATTR. -/
def getAttr (s : Appd) (i : ℕ) (adi : AdiInstance) (m : ℕ → UInt8) : ℕ → UInt8 :=
  match (bCmdExt0 m).toNat with
  | 1 => respond m (stringData adi.acName)
  | 2 => respond m [adi.bDataType]
  | 3 => respond m [adi.bNumberOfElements]
  | 4 => respond m [adi.bDescriptor]
  | 5 =>
    if adi.bDescriptor &&& descrGetAccess = 0 then setMsgErrorResponse m 1 .attrNotGetable
    else s.respondValue m adi (s.pxValue i)
  | 6 => s.respondValue m adi adi.pxMaxValue
  | 7 => s.respondValue m adi adi.pxMinValue
  | 8 => s.respondValue m adi adi.pxDefaultValue
  | _ => setMsgErrorResponse m 1 .invCmdExt0

/-- ABP_CMD_SET_INDEXED_ATTR, of a value that is an array. -/
def setElement (s : Appd) (i : ℕ) (adi : AdiInstance) (m : ℕ → UInt8) : Appd × (ℕ → UInt8) :=
  if adi.bDescriptor &&& descrSetAccess = 0 then (s, setMsgErrorResponse m 1 .attrNotSetable)
  else if (bDataSize m).toNat < typesize adi.bDataType then
    (s, setMsgErrorResponse m 1 .notEnoughData)
  else if (bDataSize m).toNat > typesize adi.bDataType then
    (s, setMsgErrorResponse m 1 .tooMuchData)
  else
    let (s, m, bNotInRange) := s.updateAdiVal i adi m sizeofMsgHeader (bCmdExt1 m).toNat
    if bNotInRange ≠ 0 then (s, setMsgErrorResponse m 1 .outOfRange) else (s, setMsgResponse m 0)

/-- ABP_CMD_GET_INDEXED_ATTR, of a value that is an array. -/
def getElement (s : Appd) (i : ℕ) (adi : AdiInstance) (m : ℕ → UInt8) : ℕ → UInt8 :=
  if adi.bDescriptor &&& descrGetAccess = 0 then setMsgErrorResponse m 1 .attrNotGetable
  else
    let n := typesize adi.bDataType
    setMsgResponse (s.swapToNetOrder m sizeofMsgHeader (s.pxValue i) (n * (bCmdExt1 m).toNat)
      adi.bDataType 1) (UInt8.ofNat n)

/-- ABP_CMD_GET_INDEXED_ATTR and ABP_CMD_SET_INDEXED_ATTR. -/
def indexedAttr (s : Appd) (i : ℕ) (adi : AdiInstance) (m : ℕ → UInt8) : Appd × (ℕ → UInt8) :=
  match (bCmdExt0 m).toNat with
  | 1 | 2 | 3 | 4 | 6 | 7 | 8 => (s, setMsgErrorResponse m 1 .unsupCmd)
  | 5 =>
    if adi.bNumberOfElements < 2 then (s, setMsgErrorResponse m 1 .tooMuchData)
    else if adi.bDataType = 7 then (s, setMsgErrorResponse m 1 .unsupCmd)
    else if bCmdExt1 m ≥ adi.bNumberOfElements then (s, setMsgErrorResponse m 1 .invCmdExt1)
    else if cmdBits m = 0x07 then (s, s.getElement i adi m)
    else s.setElement i adi m
  | _ => (s, setMsgErrorResponse m 1 .attrNotSetable)

/-- The elements of a value are set, `bCnt` to begin with, from the bytes from `at_` on. -/
def setElements (i : ℕ) (adi : AdiInstance) :
    ℕ → ℕ → ℕ → Appd × (ℕ → UInt8) → Appd × (ℕ → UInt8)
  | 0, _, _, st => st
  | k + 1, bCnt, at_, (s, m) =>
    let (s, m, bNotInRange) := s.updateAdiVal i adi m at_ bCnt
    if bNotInRange ≠ 0 then (s, setMsgErrorResponse m 1 .outOfRange)
    else setElements i adi k (bCnt + 1) (at_ + typesize adi.bDataType) (s, m)

/-- ABP_CMD_SET_ATTR. -/
def setAttr (s : Appd) (i : ℕ) (adi : AdiInstance) (m : ℕ → UInt8) : Appd × (ℕ → UInt8) :=
  match (bCmdExt0 m).toNat with
  | 1 | 2 | 3 | 4 | 6 | 7 | 8 => (s, setMsgErrorResponse m 1 .attrNotSetable)
  | 5 =>
    if adi.bDescriptor &&& descrSetAccess = 0 then (s, setMsgErrorResponse m 1 .attrNotSetable)
    else if (bDataSize m).toNat > adi.sizeOfAdiVal then (s, setMsgErrorResponse m 1 .tooMuchData)
    else if (bDataSize m).toNat < adi.sizeOfAdiVal then (s, setMsgErrorResponse m 1 .notEnoughData)
    else setElements i adi adi.bNumberOfElements.toNat 0 sizeofMsgHeader (s, setMsgResponse m 0)
  | _ => (s, setMsgErrorResponse m 1 .invCmdExt0)

/-- `appd_InstanceCommand`. -/
def instanceCommand (s : Appd) (m : ℕ → UInt8) : Appd × (ℕ → UInt8) :=
  match findAdi (iInstance m) with
  | none => (s, setMsgErrorResponse m 1 .unsupInst)
  | some (i, adi) =>
    match (cmdBits m).toNat with
    | 0x01 => (s, s.getAttr i adi m)
    | 0x07 | 0x08 => s.indexedAttr i adi m
    | 0x02 => s.setAttr i adi m
    | 0x12 => (s, respond m [adi.bDataType, adi.bNumberOfElements, adi.bDescriptor])
    | _ => (s, setMsgErrorResponse m 1 .unsupCmd)

/-! ### Remap commands -/

/-- A remap command: from where on, how many maps to remove, and how many to add. -/
def bStartOfRemap (m : ℕ → UInt8) : ℕ := (bCmdExt0 m).toNat

/-- The number of maps that a remap command removes. -/
def iItemsToRemove (m : ℕ → UInt8) : ℕ := (word m 8).toNat

/-- The number of maps that it adds. -/
def iItemsToAdd (m : ℕ → UInt8) : ℕ := (word m 10).toNat

/-- The first map behind those to remove. -/
def endOfRemap (m : ℕ → UInt8) : ℕ := bStartOfRemap m + iItemsToRemove m

/-- The maps to add: the ADI number, the first element and the number of elements. -/
def itemAdiNbr (m : ℕ → UInt8) (iCnt : ℕ) : UInt16 := word m (12 + 4 * iCnt)

def itemFirst (m : ℕ → UInt8) (iCnt : ℕ) : UInt8 := m (14 + 4 * iCnt)

def itemElements (m : ℕ → UInt8) (iCnt : ℕ) : UInt8 := m (15 + 4 * iCnt)

/-- An error response, perhaps with a second byte. -/
structure RemapError where
  eErr : MsgErrorCode
  second : Option UInt8

/-- The error response to a remap command. -/
def RemapError.respond (e : RemapError) (m : ℕ → UInt8) : ℕ → UInt8 :=
  match e.second with
  | none => setMsgErrorResponse m 1 e.eErr
  | some b => Function.update (setMsgErrorResponse m 2 e.eErr) 9 b

/-- The bytes of the maps that are removed are taken off, `n` of them. -/
def removedSize (maps : PdMap) (start : ℕ) (size : UInt16) : ℕ → Option UInt16
  | 0 => some size
  | n + 1 => do
    let size ← removedSize maps start size n
    let map ← maps.get (start + n)
    return size - UInt16.ofNat map.size

/-- A map to add is checked. -/
def checkItem (m : ℕ → UInt8) (size : UInt16) (iCnt : ℕ) : Except RemapError UInt16 :=
  match findAdi (itemAdiNbr m iCnt) with
  | none => .error ⟨.outOfRange, none⟩
  | some (_, adi) =>
    if itemAdiNbr m iCnt = 6 ∧ (itemFirst m iCnt ≠ 0 ∨ itemElements m iCnt ≠ 2) then
      .error ⟨.notEnoughData, none⟩
    else if (itemFirst m iCnt).toNat + (itemElements m iCnt).toNat > adi.bNumberOfElements.toNat then
      .error ⟨.objSpecific, some 0x02⟩
    else .ok (size + UInt16.ofNat ((itemElements m iCnt).toNat * typesize adi.bDataType))

/-- The maps to add are checked, `n` of them. -/
def checkItems (m : ℕ → UInt8) (size : UInt16) : ℕ → Except RemapError UInt16
  | 0 => .ok size
  | n + 1 => do
    let size ← checkItems m size n
    checkItem m size n

/-- The checks after the bytes of the maps to remove are taken off. -/
def remapCheckAdd (maps : PdMap) (size : UInt16) (m : ℕ → UInt8) : Except RemapError UInt16 :=
  if maps.iNbrMaps.toNat - iItemsToRemove m + iItemsToAdd m > 32 then .error ⟨.noResources, none⟩
  else if (bDataSize m).toNat < 4 + iItemsToAdd m * 4 then .error ⟨.notEnoughData, none⟩
  else if (bDataSize m).toNat > 4 + iItemsToAdd m * 4 then .error ⟨.tooMuchData, none⟩
  else do
    let size ← checkItems m size (iItemsToAdd m)
    if size > 256 then .error ⟨.objSpecific, some 0x03⟩ else .ok size

/-- All the checks of `appd_RemapProcessDataCommand`; what is left is the new size. -/
def remapCheck (maps : PdMap) (size : UInt16) (m : ℕ → UInt8) :
    Option (Except RemapError UInt16) :=
  if (bDataSize m).toNat < 4 then some (.error ⟨.notEnoughData, none⟩)
  else if bStartOfRemap m > maps.iNbrMaps.toNat then some (.error ⟨.invCmdExt0, none⟩)
  else if endOfRemap m > maps.iNbrMaps.toNat then some (.error ⟨.outOfRange, none⟩)
  else do
    let size ← removedSize maps (bStartOfRemap m) size (iItemsToRemove m)
    return remapCheckAdd maps size m

/-- The maps behind those to remove are moved down by `iCnt`, `n` of them. -/
def moveMapsDown (e iCnt : ℕ) : ℕ → PdMap → Option PdMap
  | 0, maps => some maps
  | n + 1, maps => do
    let maps ← moveMapsDown e iCnt n maps
    let map ← maps.get (e + n)
    maps.set (e + n - iCnt) map

/-- Maps are moved up by `iCnt`, which is not 0: the loop with `iMapIndex` from the first argument
down to `e`.  Where `e` is 0 it reads before the array, at the latest with `iMapIndex` 0. -/
def moveMapsUp (e iCnt : ℕ) : ℕ → PdMap → Option PdMap
  | 0, maps => if 0 < e then some maps else none
  | i + 1, maps =>
    if i + 1 < e then some maps
    else if i + 1 < iCnt then none
    else do
      let map ← maps.get (i + 1 - iCnt)
      let maps ← maps.set (i + 1) map
      moveMapsUp e iCnt i maps

/-- The new maps are put into the array, `n` of them. -/
def putMaps (m : ℕ → UInt8) (start : ℕ) : ℕ → PdMap → Option PdMap
  | 0, maps => some maps
  | n + 1, maps => do
    let maps ← putMaps m start n maps
    let (i, adi) ← findAdi (itemAdiNbr m n)
    let old ← maps.get (start + n)
    maps.set (start + n) (mapOf i adi old (itemFirst m n) (itemElements m n))

/-- The maps behind those to remove are moved. -/
def moveMaps (maps : PdMap) (m : ℕ → UInt8) : Option PdMap :=
  if iItemsToRemove m > iItemsToAdd m then
    moveMapsDown (endOfRemap m) (iItemsToRemove m - iItemsToAdd m)
      (maps.iNbrMaps.toNat - endOfRemap m) maps
  else if iItemsToRemove m < iItemsToAdd m then
    moveMapsUp (endOfRemap m) (iItemsToAdd m - iItemsToRemove m) (maps.iNbrMaps - 1).toNat maps
  else some maps

/-- The maps are exchanged: the part of `appd_RemapProcessDataCommand` after the checks. -/
def remap (maps : PdMap) (m : ℕ → UInt8) : Option PdMap := do
  let maps ← moveMaps maps m
  let maps ← putMaps m (bStartOfRemap m) (iItemsToAdd m) maps
  return { maps with iNbrMaps := maps.iNbrMaps + word m 10 - word m 8 }

/-- `appd_RemapProcessDataCommand`. -/
def remapProcessDataCommand (s : Appd) (m : ℕ → UInt8) : Option (Appd × (ℕ → UInt8)) := do
  if cmdBits m = 0x13 then
    match ← remapCheck s.sMyWriteMappings s.iWriteSize m with
    | .error e => return (s, e.respond m)
    | .ok iNewMapSize =>
      let maps ← remap s.sMyWriteMappings m
      return ({ s with sMyWriteMappings := maps, iWriteSize := iNewMapSize },
        respond m (wordData iNewMapSize))
  else
    match ← remapCheck s.sMyReadMappings s.iReadSize m with
    | .error e => return (s, e.respond m)
    | .ok iNewMapSize =>
      let maps ← remap s.sMyReadMappings m
      return ({ s with sMyReadMappings := maps, iReadSize := iNewMapSize },
        respond m (wordData iNewMapSize))

/-! ### Commands to the object -/

/-- The attributes that the objects of the application have: their name, their revision, the number
of their instances and the highest instance number. -/
def objectAttr (pcName : String) (bRevision : UInt8) (iNumberOfInstances iHighestInstanceNo : UInt16)
    (m : ℕ → UInt8) : ℕ → UInt8 :=
  match (bCmdExt0 m).toNat with
  | 1 => respond m (stringData pcName)
  | 2 => respond m [bRevision]
  | 3 => respond m (wordData iNumberOfInstances)
  | 4 => respond m (wordData iHighestInstanceNo)
  | _ => setMsgErrorResponse m 1 .invCmdExt0

/-- ABP_APPD_CMD_GET_INST_BY_ORDER. -/
def instByOrder (m : ℕ → UInt8) : ℕ → UInt8 :=
  let iInstanceOrder := (bCmdExt1 m).toNat * 256 + (bCmdExt0 m).toNat
  if iInstanceOrder > numberOfInstances ∨ iInstanceOrder = 0 then
    setMsgErrorResponse m 1 .invCmdExt0
  else
    match asInstance[iInstanceOrder - 1]? with
    | some adi => respond m (wordData adi.iInstanceNumber)
    | none => m

/-- `appd_ObjectCommand`. -/
def objectCommand (s : Appd) (m : ℕ → UInt8) : Option (Appd × (ℕ → UInt8)) :=
  match (cmdBits m).toNat with
  | 0x01 => some (s, objectAttr "Application Data" 0x01 5 5 m)
  | 0x10 => some (s, instByOrder m)
  | 0x13 | 0x14 => s.remapProcessDataCommand m
  | 0x11 =>
    if bCmdExt1 m ≠ 1 then some (s, setMsgErrorResponse m 1 .invCmdExt1)
    else some (s, respond m (List.replicate (27 * 2) 0))
  | _ => some (s, setMsgErrorResponse m 1 .unsupCmd)

/-- `APPD_ProcessCmdMsg`, up to the message that it sends. -/
def processCmdMsg (s : Appd) (m : ℕ → UInt8) : Option (Appd × (ℕ → UInt8)) :=
  if iInstance m = 0 then s.objectCommand m else some (s.instanceCommand m)

end Appd

end Start01
