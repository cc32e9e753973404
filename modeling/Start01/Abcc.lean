/-
Start01/Abcc.lean

The Anybus driver above its data link: aplink.c, with the messages of abp.h and the data of apdr.c.

Messages wait in three arrays of buffers, and pointers to them in three queues.  `sendMessage` puts
a message of the application into a buffer and into a queue, from which the data link takes it;
`messageReceived` is called by the data link with a message of the module, and
`handleQueuedMsgsToAppl` passes it on to the application.

The calls out of the driver are kept in `calls`, and five ghosts record what passes through it.
-/
import Start01.AbccCrc
import Start01.AbccUtil

namespace Start01

open Scatter

/-! ### Messages (abp.h) -/

/-- What is true of the 256 bytes. -/
theorem forall_byte {p : UInt8 → Prop} (h : ∀ b : BitVec 8, p ⟨b⟩) (x : UInt8) : p x :=
  h x.toBitVec

/-- `ABP_MsgType` is read and written as bytes: eight of the header, and up to 255 of data. -/
def sizeofMsgHeader : ℕ := 8

/-- The fields of the header. -/
def bDestObj (m : ℕ → UInt8) : UInt8 := m 1
def bCmd (m : ℕ → UInt8) : UInt8 := m 4
/-- `bDataSize` of the header. -/
def bDataSize (m : ℕ → UInt8) : UInt8 := m 5
/-- `bCmdExt0` of the header. -/
def bCmdExt0 (m : ℕ → UInt8) : UInt8 := m 6
/-- `bCmdExt1` of the header. -/
def bCmdExt1 (m : ℕ → UInt8) : UInt8 := m 7

/-- A `UINT16` at the byte `i`, low byte first. -/
def word (m : ℕ → UInt8) (i : ℕ) : UInt16 := (m i).toUInt16 ||| (m (i + 1)).toUInt16 <<< 8

/-- `iInstance`. -/
def iInstance (m : ℕ → UInt8) : UInt16 := word m 2

/-- `ABP_MSG_HEADER_C_BIT`: a command, not a response. -/
def isCommand (m : ℕ → UInt8) : Bool := bCmd m &&& 0x40 ≠ 0

/-- `ABP_MSG_HEADER_E_BIT`. -/
def isError (m : ℕ → UInt8) : Bool := bCmd m &&& 0x80 ≠ 0

/-- `ABP_MSG_HEADER_CMD_BITS`. -/
def cmdBits (m : ℕ → UInt8) : UInt8 := bCmd m &&& 0x3F

/-- The length of a message in memory. -/
def msgLength (m : ℕ → UInt8) : ℕ := sizeofMsgHeader + (bDataSize m).toNat

/-- A message, header and data. -/
def msgBytes (m : ℕ → UInt8) : List UInt8 := chkBytes m 0 (msgLength m)

/-- The acknowledgment of a remap command of the application data object, as the driver looks
for it; `cmd` is ABP_APPD_REMAP_ADI_WRITE_AREA or ABP_APPD_REMAP_ADI_READ_AREA. -/
def isRemapAck (m : ℕ → UInt8) (cmd : UInt8) : Bool :=
  bDestObj m == 254 && !isError m && cmdBits m == cmd && bDataSize m == 2

/-- The response to "setup complete". -/
def isSetupComplete (m : ℕ → UInt8) : Bool :=
  bDestObj m == 1 && !isError m && cmdBits m == 2 && iInstance m == 1 && bCmdExt0 m == 5 &&
    bCmdExt1 m == 0 && bDataSize m == 0

/-- `bNbrOfFragments` for a message. -/
def nbrOfFragments (m : ℕ → UInt8) : UInt8 :=
  let iTotalSize := (bDataSize m).toNat + sizeofMsgHeader
  if iTotalSize % 16 ≠ 0 then UInt8.ofNat (iTotalSize / 16) + 1 else UInt8.ofNat (iTotalSize / 16)

/-! ### The state -/

/-- `APLINK_asRspToAbccBuf`, `APLINK_asCmdToAbccBuf`, `APLINK_asMsgToApplBuf`. -/
inductive Pool
  | rspToAbcc
  | cmdToAbcc
  | msgToAppl
  deriving DecidableEq

/-- ABCC_NBR_SIMULTANEOUS_ABCC_COMMANDS, ABCC_NBR_SIMULTANEOUS_APPL_COMMANDS and
APLINK_MAX_NBR_COMMANDS_IN_USE. -/
def Pool.length : Pool → ℕ
  | rspToAbcc => 1
  | cmdToAbcc => 1
  | msgToAppl => 2

/-- The buffers for a message to the module. -/
def poolOf (m : ℕ → UInt8) : Pool := if isCommand m then .cmdToAbcc else .rspToAbcc

/-- A pointer to a buffer. -/
structure BufRef where
  pool : Pool
  entry : ℕ
  deriving DecidableEq

/-- `APLINK_DriverStateType`, without the state after a shutdown, which nothing requests. -/
inductive DriverState
  | inReset
  | setup
  | inConfiguration
  | inRunNoPd
  | inRun
  deriving DecidableEq

/-- `apdr_StateMachineType`. -/
inductive ApdrState
  | init
  | initialHandshake
  | idle
  | sendTelegramWithMessage
  | sendTelegramWithoutMessage
  | waitForTelegram
  | processReceivedTelegram
  | abccComLost
  deriving DecidableEq

/-- `bLastSentMsgType`. -/
inductive SentMsgType
  | command
  | response
  deriving DecidableEq

/-- The errors that the modelled part reports. -/
inductive AbccError
  | stateTransitionNotAllowed
  | serialFragError
  | outOfBuffers
  deriving DecidableEq

/-- `ABCC_StatusType`, as far as `ABCC_SendMessage` returns it. -/
inductive AbccStatus
  | ok
  | outOfResources
  | notAllowedDriverState
  deriving DecidableEq

/-- The calls out of the driver: to the port, and to the application. -/
inductive AbccCall
  | sendSerialTelegram (telegram : List UInt8)
  | reStartSerialComm (iReceptionLength : UInt16)
  | driverError (eErrorCode : AbccError)
  | wdTimeout
  | wdTimeoutRecovered
  | newReadPd (bAbccStatus : UInt8) (fNewData : Bool) (iPdReadLength : UInt16)
      (pabData : Option (ℕ → UInt8))
  | newMsgFromAbcc (msg : List UInt8)

/-- `aplink_DataType`, without its queues and its part in the configuration. -/
structure Aplink where
  bLastAbccState : UInt8
  eDriverState : DriverState
  abWriteDataBuffer : ℕ → UInt8
  abReadDataBuffer : ℕ → UInt8
  bNbrOfCmdsActiveFromAbcc : UInt8
  bNbrOfCmdsActiveToAbcc : UInt8
  iReadPdLength : UInt16
  iWritePdLength : UInt16
  fNewWritePdAvailable : Bool
  iNewWritePdLength : UInt16
  fRemappingReadPd : Bool
  fRemappingWritePd : Bool

/-- `apdr_DataType`, without its timers. -/
structure Apdr where
  psWriteMsgBuffer : Option BufRef
  iNbrRecFrags : UInt16
  abMessage : ℕ → UInt8
  eState : ApdrState
  iTelegramToTime : UInt16
  bLastStatusReg : UInt8
  bCurrentStatusReg : UInt8
  bWorkingControlReg : UInt8
  bLastSentMsgType : SentMsgType
  fAbccTelegramTo : Bool
  fAbccWdTo : Bool
  fTelegramReceived : Bool
  fInitHsTo : Bool
  pbReceptionBuffer : ℕ → UInt8
  abTransmissionBuffer : ℕ → UInt8
  iPdReadLength : UInt16
  iPdWriteLength : UInt16
  iSerialLengthRead : UInt16
  iSerialLengthWrite : UInt16
  fAbccWdToOccured : Bool
  fCompleteWrPdRemap : Bool

/-- The driver: aplink.c and apdr.c, with what has passed through. -/
structure Abcc where
  buf : BufRef → BufMsg
  /-- `asQueueEntries`: `xRspsToAbccQueue`, `xCmdsToAbccQueue` and `xMsgsFromAbccQueue`, named by the
  buffers that their pointers are to. -/
  queue : Pool → OneQueueEntry BufRef
  telegramToTimer : OneTimerEntry
  abccWdTimer : OneTimerEntry
  initHsTimer : OneTimerEntry
  aplink : Aplink
  apdr : Apdr
  /-- `appd_iReadSize` and `appd_iWriteSize` of the application. -/
  appdReadSize : UInt16
  appdWriteSize : UInt16
  calls : List AbccCall
  /-- Ghost: the messages put into the queues to the module. -/
  posted : List (List UInt8)
  /-- Ghost: the messages the data link has taken from them. -/
  begun : List (List UInt8)
  /-- Ghost: the telegrams built. -/
  sent : List (List UInt8)
  /-- Ghost: the telegrams accepted. -/
  got : List (ℕ → UInt8)
  /-- Ghost: the messages put into the queue from the module. -/
  delivered : List (List UInt8)
  /-- Ghost: the messages taken from it. -/
  taken : List (List UInt8)

namespace Abcc

/-! ### Buffers and queues -/

/-- A call out of the driver. -/
def call (s : Abcc) (c : AbccCall) : Abcc := { s with calls := s.calls ++ [c] }

/-- A buffer is marked. -/
def use (s : Abcc) (r : BufRef) : Abcc :=
  { s with buf := Function.update s.buf r { s.buf r with fEntryUsed := true } }

/-- `UTIL_AllocateMsgBuffer`; `none` is NULL. -/
def allocate (s : Abcc) (pool : Pool) : Option (BufRef × Abcc) :=
  (allocateMsgBuffer (fun i => s.buf ⟨pool, i⟩) pool.length).map fun i => (⟨pool, i⟩, s.use ⟨pool, i⟩)

/-- `UTIL_FreeMsgBuffer`. -/
def free (s : Abcc) (r : BufRef) : Abcc :=
  { s with buf := Function.update s.buf r { s.buf r with fEntryUsed := false } }

/-- The message of a buffer is written. -/
def putMsg (s : Abcc) (r : BufRef) (m : ℕ → UInt8) : Abcc :=
  { s with buf := Function.update s.buf r { s.buf r with sMsg := m } }

/-- `sFragInfo` of a buffer is written. -/
def putFrag (s : Abcc) (r : BufRef) (bNbrOfFragments bFragCounter : UInt8) : Abcc :=
  { s with buf := Function.update s.buf r { s.buf r with
      bNbrOfFragments := bNbrOfFragments
      bFragCounter := bFragCounter } }

/-- A queue is changed. -/
def putQueue (s : Abcc) (queue : Pool) (q : OneQueueEntry BufRef) : Abcc :=
  { s with queue := Function.update s.queue queue q }

/-! ### aplink.c, below the application -/

/-- `APDR_SetPdSize`. -/
def setPdSize (s : Abcc) (iPdReadLength iPdWriteLength : UInt16) : Abcc :=
  { s with
    apdr := { s.apdr with
      iSerialLengthRead := iPdReadLength + 19
      iPdReadLength := iPdReadLength
      iPdWriteLength := iPdWriteLength }
    calls := s.calls ++ [.reStartSerialComm (iPdReadLength + 19)] }

/-- `APLINK_ChangeDriverState`. -/
def changeDriverState (s : Abcc) (eRequestedState : DriverState) : Abcc :=
  match s.aplink.eDriverState, eRequestedState with
  | .inReset, .setup | .setup, .inConfiguration | .inConfiguration, .inRunNoPd
  | .inRunNoPd, .inRun => { s with aplink := { s.aplink with eDriverState := eRequestedState } }
  | _, _ => s.call (.driverError .stateTransitionNotAllowed)

/-- `APLINK_FreeCmdSlots`. -/
def freeCmdSlots (s : Abcc) : Bool :=
  s.aplink.bNbrOfCmdsActiveFromAbcc < 1 && (s.queue .msgToAppl).entriesLeft > 0

/-- `APLINK_GetNextMessage`, with `&apdr_s.psWriteMsgBuffer`; `none` is FALSE. -/
def getNextMessage (s : Abcc) (queue : Pool) : Option Abcc :=
  (s.queue queue).getFirst.map fun (r, q) =>
    { s.putQueue queue q with
      apdr := { s.apdr with psWriteMsgBuffer := r }
      begun := s.begun ++ r.toList.map fun r => msgBytes (s.buf r).sMsg }

/-- A command of the module is answered. -/
def answered (s : Abcc) : Abcc :=
  { s with aplink := { s.aplink with
      bNbrOfCmdsActiveFromAbcc :=
        if s.aplink.bNbrOfCmdsActiveFromAbcc > 0 then s.aplink.bNbrOfCmdsActiveFromAbcc - 1
        else s.aplink.bNbrOfCmdsActiveFromAbcc } }

/-- The new write process data length is noted, and `APDR_PrepareNewWritePdMap` called. -/
def prepareNewWritePdMap (s : Abcc) (length : UInt16) : Abcc :=
  { s with
    aplink := { s.aplink with iNewWritePdLength := length }
    apdr := { s.apdr with fCompleteWrPdRemap := true } }

/-- The read process data length is changed. -/
def useNewReadPdMap (s : Abcc) (length : UInt16) : Abcc :=
  { s.setPdSize length s.aplink.iWritePdLength with
    aplink := { s.aplink with
      iReadPdLength := length
      fRemappingReadPd := false } }

/-- The part of `APLINK_CompleteMsgTrans` for a response. -/
def completeResponse (s : Abcc) (m : ℕ → UInt8) : Abcc :=
  let s := s.answered
  let s := if isRemapAck m 0x13 then s.prepareNewWritePdMap (word m 8) else s
  if isRemapAck m 0x14 then s.useNewReadPdMap (word m 8) else s

/-- `APLINK_CompleteMsgTrans`. -/
def completeMsgTrans (s : Abcc) (psQEntry : BufRef) : Abcc :=
  let m := (s.buf psQEntry).sMsg
  (if isCommand m then s else s.completeResponse m).free psQEntry

/-- `APLINK_UseNewWritePdMap`. -/
def useNewWritePdMap (s : Abcc) : Abcc :=
  { s.setPdSize s.aplink.iReadPdLength s.aplink.iNewWritePdLength with
    aplink := { s.aplink with
      iWritePdLength := s.aplink.iNewWritePdLength
      fRemappingWritePd := false } }

/-- The response to "setup complete" has come. -/
def setupComplete (s : Abcc) : Abcc :=
  changeDriverState { s.setPdSize s.appdReadSize s.appdWriteSize with
    aplink := { s.aplink with
      iReadPdLength := s.appdReadSize
      iWritePdLength := s.appdWriteSize
      fNewWritePdAvailable := true } } .inRun

/-- What `APLINK_MessageReceived` does before the message is put into the queue. -/
def noteReceived (s : Abcc) (m : ℕ → UInt8) : Abcc :=
  if isCommand m then
    { s with aplink := { s.aplink with
        bNbrOfCmdsActiveFromAbcc := s.aplink.bNbrOfCmdsActiveFromAbcc + 1 } }
  else if isSetupComplete m then s.setupComplete
  else s

/-- `APLINK_MessageReceived`. -/
def messageReceived (s : Abcc) (psQEntry : BufRef) : Abcc :=
  let m := (s.buf psQEntry).sMsg
  let s := s.noteReceived m
  match (s.queue .msgToAppl).add psQEntry with
  | some q => { s.putQueue .msgToAppl q with delivered := s.delivered ++ [msgBytes m] }
  | none => s.free psQEntry

/-- `ABCC_CbfNewReadPd`. -/
def newReadPd (s : Abcc) (fNewData : Bool) (iLength : UInt16) (pbDataPtr : Option (ℕ → UInt8)) :
    Abcc := s.call (.newReadPd s.aplink.bLastAbccState fNewData iLength pbDataPtr)

/-- `APLINK_PutProcessData`. -/
def putProcessData (s : Abcc) (bAbccStatus : UInt8) (pbSourceData : ℕ → UInt8)
    (iLength : UInt16) : Abcc :=
  let fChanged : Bool := bAbccStatus ≠ s.aplink.bLastAbccState
  let s := { s with aplink := { s.aplink with bLastAbccState := bAbccStatus } }
  let old := s.aplink.abReadDataBuffer
  if s.aplink.fRemappingReadPd then
    if fChanged then s.newReadPd false iLength (some old) else s
  else if s.aplink.eDriverState = .inRun then
    if chkBytes pbSourceData 0 iLength.toNat = chkBytes old 0 iLength.toNat then
      if fChanged then s.newReadPd false iLength (some old) else s
    else
      let new := scatter old (fun i => i) pbSourceData iLength.toNat
      newReadPd { s with aplink := { s.aplink with abReadDataBuffer := new } } true iLength
        (some new)
  else if fChanged then s.newReadPd false iLength none
  else s

/-- `APLINK_GetNewProcessData`, which writes from the byte `at_` of the transmission buffer on. -/
def getNewProcessData (s : Abcc) (at_ : ℕ) (iLengthOfProcessData : UInt16) : Abcc :=
  if s.aplink.fRemappingWritePd then s
  else if s.aplink.eDriverState ≠ .inRun then s
  else if iLengthOfProcessData = 0 then s
  else if s.aplink.fNewWritePdAvailable then
    { s with
      aplink := { s.aplink with fNewWritePdAvailable := false }
      apdr := { s.apdr with
        abTransmissionBuffer := scatter s.apdr.abTransmissionBuffer (fun i => at_ + i)
          s.aplink.abWriteDataBuffer iLengthOfProcessData.toNat } }
  else s

/-! ### aplink.c, for the application -/

/-- `UTIL_AddToMessageQueue`, for a message to the module. -/
def post (s : Abcc) (queue : Pool) (psQEntry : BufRef) : Option Abcc :=
  ((s.queue queue).add psQEntry).map fun q =>
    { s.putQueue queue q with posted := s.posted ++ [msgBytes (s.buf psQEntry).sMsg] }

/-- `aplink_AddFragAndPostMsg`. -/
def addFragAndPostMsg (s : Abcc) (psQEntry : BufRef) : Abcc × AbccStatus :=
  let s := s.putFrag psQEntry (nbrOfFragments (s.buf psQEntry).sMsg) 0
  if isCommand (s.buf psQEntry).sMsg then
    if s.aplink.bNbrOfCmdsActiveToAbcc ≥ 1 then (s.free psQEntry, .outOfResources)
    else match s.post .cmdToAbcc psQEntry with
      | some s =>
        ({ s with aplink := { s.aplink with
            bNbrOfCmdsActiveToAbcc := s.aplink.bNbrOfCmdsActiveToAbcc + 1 } }, .ok)
      | none => (s.free psQEntry, .outOfResources)
  else match s.post .rspToAbcc psQEntry with
    | some s => (s, .ok)
    | none => (s.free psQEntry, .outOfResources)

/-- The part of `APLINK_SendMessage` for an acknowledged remap command. -/
def noteRemap (s : Abcc) (psMessage : ℕ → UInt8) : Abcc :=
  { s with aplink := { s.aplink with
      fRemappingWritePd := s.aplink.fRemappingWritePd || isRemapAck psMessage 0x13
      fRemappingReadPd := s.aplink.fRemappingReadPd || isRemapAck psMessage 0x14 } }

/-- `APLINK_SendMessage`. -/
def sendMessage (s : Abcc) (psMessage : ℕ → UInt8) : Abcc × AbccStatus :=
  if s.aplink.eDriverState = .inRunNoPd ∨ s.aplink.eDriverState = .inRun then
    match s.allocate (poolOf psMessage) with
    | none => (s, .outOfResources)
    | some (psQEntry, s) =>
      let s := s.noteRemap psMessage
      let s := s.putMsg psQEntry
        (scatter (s.buf psQEntry).sMsg (fun i => i) psMessage (msgLength psMessage))
      s.addFragAndPostMsg psQEntry
  else (s, .notAllowedDriverState)

/-- A message is taken from the queue, up to the call of `ABCC_CbfNewMsgFromAbcc`. -/
def takeMsg (s : Abcc) (psQEntry : BufRef) (q : OneQueueEntry BufRef) : Abcc :=
  let m := (s.buf psQEntry).sMsg
  let s := { s.putQueue .msgToAppl q with taken := s.taken ++ [msgBytes m] }
  let s := if isCommand m then s else
    { s with aplink := { s.aplink with
        bNbrOfCmdsActiveToAbcc := s.aplink.bNbrOfCmdsActiveToAbcc - 1 } }
  s.call (.newMsgFromAbcc (msgBytes m))

/-- `aplink_HandleQueuedMsgsToAppl`.  In `ABCC_CbfNewMsgFromAbcc`, the application sends the
messages `app`, whatever `ABCC_SendMessage` returns to it. -/
def handleQueuedMsgsToAppl (s : Abcc) (app : (ℕ → UInt8) → List (ℕ → UInt8)) : Option Abcc :=
  match (s.queue .msgToAppl).getFirst with
  | none => some s
  | some (none, _) => none
  | some (some psQEntry, q) =>
    some (((app (s.buf psQEntry).sMsg).foldl (fun s m => (s.sendMessage m).1)
      (s.takeMsg psQEntry q)).free psQEntry)

/-- A command of the configuration: UTIL_AllocateMsgBuffer, the fields of the message that `fill`
writes, and `aplink_AddFragAndPostMsg`. -/
def cfgSend (s : Abcc) (fill : (ℕ → UInt8) → ℕ → UInt8) : Option Abcc := do
  let (psQEntry, s) ← s.allocate .cmdToAbcc
  return ((s.putMsg psQEntry (fill (s.buf psQEntry).sMsg)).addFragAndPostMsg psQEntry).1

/-- A response to a command of the configuration is taken, and its buffer given free. -/
def cfgTake (s : Abcc) : Option Abcc :=
  match (s.queue .msgToAppl).getFirst with
  | none => some s
  | some (none, _) => none
  | some (some psQEntry, q) =>
    let s := { s.putQueue .msgToAppl q with
      aplink := { s.aplink with bNbrOfCmdsActiveToAbcc := s.aplink.bNbrOfCmdsActiveToAbcc - 1 }
      taken := s.taken ++ [msgBytes (s.buf psQEntry).sMsg] }
    some (s.free psQEntry)

/-- `APLINK_WriteProcessData`. -/
def writeProcessData (s : Abcc) (pbData : ℕ → UInt8) : Abcc :=
  let n := s.aplink.iWritePdLength.toNat
  if chkBytes s.aplink.abWriteDataBuffer 0 n = chkBytes pbData 0 n then s
  else { s with aplink := { s.aplink with
      abWriteDataBuffer := scatter s.aplink.abWriteDataBuffer (fun i => i) pbData n
      fNewWritePdAvailable := true } }

end Abcc

end Start01
