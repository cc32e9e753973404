/-
Start01/Apdr.lean

The serial data link of the Anybus driver: apdr.c and apdr_ser.c.

`APDR_RunDataLinkStateMachine` goes through `while( 1 )` until a state returns.  Each state is a
function of its own; `pass` is one round of the loop, and `runDataLinkStateMachine` the loop.  A
step that follows a null pointer is `none`.

Timer functions, `APDR_SerialTelegramReceived` and the calls of aplink.c come between two runs of
the loop in any order (`AbccOp`).
-/
import Start01.Abcc
import Start01.Lib.Run

namespace Start01

open Scatter

/-! ### Telegrams -/

/-- The register of a new telegram: M, R and T are set one after another. -/
def newReg (reg : UInt8) (fMessage fFree : Bool) : UInt8 :=
  let reg := if fMessage then reg ||| 0x40 else reg &&& ~~~0x40
  let reg := if fFree then reg ||| 0x20 else reg &&& ~~~0x20
  reg ^^^ 0x80

/-- The check of a telegram of `n` bytes: `iGeneratedCrc` is `iReceivedCrc`. -/
def telegramOk (pbReceptionBuffer : ℕ → UInt8) (n : UInt16) : Bool :=
  crcCrc16 pbReceptionBuffer (n - 2) ==
    (pbReceptionBuffer (n.toNat - 2)).toUInt16 <<< 8 ||| (pbReceptionBuffer (n.toNat - 1)).toUInt16

namespace Abcc

/-- A telegram goes out. -/
def sendTelegram (s : Abcc) : Abcc :=
  s.call (.sendSerialTelegram
    (chkBytes s.apdr.abTransmissionBuffer 0 s.apdr.iSerialLengthWrite.toNat))

/-- The fragment of a message at `psWriteMsgBuffer` is copied; `behind` is what a read behind the
message finds. -/
def copyFragment (s : Abcc) (behind : ℕ → UInt8) : Option Abcc := do
  let psWriteMsgBuffer ← s.apdr.psWriteMsgBuffer
  let b := s.buf psWriteMsgBuffer
  if b.bNbrOfFragments ≠ 0 ∧ b.bFragCounter < b.bNbrOfFragments then
    let pbTempPtr (i : ℕ) : UInt8 :=
      let j := b.bFragCounter.toNat * 16 + i
      if j < 263 then b.sMsg j else behind j
    let s := { s with apdr := { s.apdr with
        abTransmissionBuffer := scatter s.apdr.abTransmissionBuffer (fun i => 1 + i) pbTempPtr 16 } }
    return s.putFrag psWriteMsgBuffer b.bNbrOfFragments (b.bFragCounter + 1)
  else
    return (s.call (.driverError .serialFragError)).putFrag psWriteMsgBuffer
      b.bNbrOfFragments b.bNbrOfFragments

/-- The process data and the check are put behind the fragment. -/
def closeTelegram (s : Abcc) : Abcc :=
  let s := s.getNewProcessData 17 s.apdr.iPdWriteLength
  let lCrcCalcLength := s.apdr.iPdWriteLength.toNat + 1 + 16
  let iCrc := crcCrc16 s.apdr.abTransmissionBuffer (UInt16.ofNat lCrcCalcLength)
  let buffer := Function.update s.apdr.abTransmissionBuffer lCrcCalcLength (iCrc >>> 8).toUInt8
  { s with apdr := { s.apdr with
      abTransmissionBuffer := Function.update buffer (lCrcCalcLength + 1) iCrc.toUInt8
      iSerialLengthWrite := UInt16.ofNat lCrcCalcLength + 2 } }

/-- The register goes to the front of the telegram. -/
def putReg (s : Abcc) : Abcc :=
  { s with apdr := { s.apdr with
      abTransmissionBuffer :=
        Function.update s.apdr.abTransmissionBuffer 0 s.apdr.bWorkingControlReg } }

/-- `apdr_BuildSerialTelegram`. -/
def buildSerialTelegram (s : Abcc) (behind : ℕ → UInt8) (fMessageData : Bool) : Option Abcc :=
  (if fMessageData then s.putReg.copyFragment behind else some s.putReg).map closeTelegram

/-- The message field is cleared. -/
def clearMessage (s : Abcc) : Abcc :=
  { s with apdr := { s.apdr with
      abTransmissionBuffer := scatter s.apdr.abTransmissionBuffer (fun i => 1 + i) (fun _ => 0) 16 } }

/-- The bits of the register are set. -/
def setReg (s : Abcc) (fMessage : Bool) : Abcc :=
  { s with apdr := { s.apdr with
      bWorkingControlReg := newReg s.apdr.bWorkingControlReg fMessage s.freeCmdSlots } }

/-- A telegram just built goes out for the first time. -/
def postTelegram (s : Abcc) : Abcc :=
  { s.sendTelegram with
    abccWdTimer := s.abccWdTimer.start
    telegramToTimer := (OneTimerEntry.reload s.apdr.iTelegramToTime).start
    apdr := { s.apdr with eState := .waitForTelegram }
    sent := s.sent ++ [chkBytes s.apdr.abTransmissionBuffer 0 s.apdr.iSerialLengthWrite.toNat] }

/-- The states APDR_SM_SEND_TELEGRAM_WITH_MESSAGE and APDR_SM_SEND_TELEGRAM_WITHOUT_MESSAGE. -/
def sendNewTelegram (s : Abcc) (behind : ℕ → UInt8) (fMessage : Bool) : Option Abcc :=
  let s := (if fMessage then s else s.clearMessage).setReg fMessage
  (s.buildSerialTelegram behind fMessage).map postTelegram

/-- The telegram is sent again. -/
def retransmit (s : Abcc) : Abcc :=
  let s := s.sendTelegram
  { s with telegramToTimer := (OneTimerEntry.reload s.apdr.iTelegramToTime).start }

/-! ### The states -/

/-- APDR_SM_INIT. -/
def smInit (s : Abcc) : Abcc :=
  { s with
    initHsTimer := (OneTimerEntry.reload 1500).start
    apdr := { s.apdr with
      iPdReadLength := 0
      iPdWriteLength := 0
      iNbrRecFrags := 0
      fAbccWdToOccured := false
      bLastSentMsgType := .response
      fCompleteWrPdRemap := false
      psWriteMsgBuffer := none
      iSerialLengthRead := 19
      bWorkingControlReg := 0
      bLastStatusReg := 0
      fInitHsTo := false
      fTelegramReceived := false
      eState := .initialHandshake }
    calls := s.calls ++ [.reStartSerialComm 19] }

/-- The check of a telegram received, of which `iSerialLengthRead` bytes are expected. -/
def crcOk (s : Abcc) : Bool := telegramOk s.apdr.pbReceptionBuffer s.apdr.iSerialLengthRead

/-- A telegram is taken: the timers stop, and their flags are cleared. -/
def takeTelegram (s : Abcc) : Abcc :=
  { s with
    abccWdTimer := s.abccWdTimer.stop
    telegramToTimer := s.telegramToTimer.stop
    got := s.got ++ [s.apdr.pbReceptionBuffer]
    apdr := { s.apdr with
      fTelegramReceived := false
      bCurrentStatusReg := s.apdr.pbReceptionBuffer 0
      fAbccWdTo := false
      fAbccTelegramTo := false } }

/-- The communication is there again. -/
def noteRecovered (s : Abcc) : Abcc :=
  if s.apdr.fAbccWdToOccured then
    { s with apdr := { s.apdr with fAbccWdToOccured := false } }.call .wdTimeoutRecovered
  else s

/-- The module has had the acknowledgment of a new write process data map. -/
def completeWrPdRemap (s : Abcc) : Abcc :=
  if s.apdr.fCompleteWrPdRemap then
    { s with apdr := { s.apdr with fCompleteWrPdRemap := false } }.useNewWritePdMap
  else s

/-- The states change. -/
def goto (s : Abcc) (eState : ApdrState) : Abcc := { s with apdr := { s.apdr with eState := eState } }

/-- A telegram is accepted. -/
def accept (s : Abcc) : Abcc :=
  s.takeTelegram.noteRecovered.completeWrPdRemap.goto .processReceivedTelegram

/-- APDR_SM_WAIT_FOR_TELEGRAM; whether the state returns. -/
def smWaitForTelegram (s : Abcc) : Abcc × Bool :=
  if s.apdr.fTelegramReceived then
    if s.apdr.bLastStatusReg &&& 0x80 ≠ s.apdr.pbReceptionBuffer 0 &&& 0x80 ∧ s.crcOk then
      (s.accept, false)
    else ({ s with apdr := { s.apdr with fTelegramReceived := false } }, false)
  else if s.apdr.fAbccTelegramTo then
    let s := { s with apdr := { s.apdr with fAbccTelegramTo := false } }
    ((s.call (.reStartSerialComm s.apdr.iSerialLengthRead)).retransmit, true)
  else if s.apdr.fAbccWdTo then
    ({ s with abccWdTimer := s.abccWdTimer.stop }.goto .abccComLost, false)
  else (s, true)

/-- A fragment of a message of the module is kept. -/
def keepFragment (s : Abcc) : Abcc :=
  let n := s.apdr.iNbrRecFrags.toNat
  let store (length : ℕ) : ℕ → UInt8 :=
    scatter s.apdr.abMessage (fun i => n * 16 + i) (fun i => s.apdr.pbReceptionBuffer (1 + i)) length
  let s := if n < 16 then { s with apdr := { s.apdr with abMessage := store 16 } }
    else if n = 16 then { s with apdr := { s.apdr with abMessage := store 7 } }
    else s.call (.driverError .serialFragError)
  { s with apdr := { s.apdr with iNbrRecFrags := s.apdr.iNbrRecFrags + 1 } }

/-- The message received is copied to a buffer. -/
def copyMessage (s : Abcc) (psQEntry : BufRef) : Abcc :=
  let iCopyLength := min (msgLength s.apdr.abMessage) 263
  s.putMsg psQEntry (scatter (s.buf psQEntry).sMsg (fun i => i) s.apdr.abMessage iCopyLength)

/-- A message of the module is complete; `none` if there is no buffer for it. -/
def passMessage (s : Abcc) : Option Abcc :=
  (s.allocate .msgToAppl).map fun (psQEntry, s) =>
    let s := (s.copyMessage psQEntry).messageReceived psQEntry
    { s with apdr := { s.apdr with iNbrRecFrags := 0 } }

/-- What follows a telegram: more of the message, the end of it, or the next one. -/
def nextState (s : Abcc) : Abcc :=
  match s.apdr.psWriteMsgBuffer with
  | none => s.goto .idle
  | some r =>
    let b := s.buf r
    if b.bNbrOfFragments ≠ 0 ∧ b.bFragCounter < b.bNbrOfFragments then
      s.goto .sendTelegramWithMessage
    else if b.bNbrOfFragments ≠ 0 ∧ b.bFragCounter = b.bNbrOfFragments then
      let s := ((s.putFrag r 0 0).goto .sendTelegramWithoutMessage).completeMsgTrans r
      { s with apdr := { s.apdr with psWriteMsgBuffer := none } }
    else s.goto .idle

/-- The rest of APDR_SM_PROCESS_RECEIVED_TELEGRAM, behind the message. -/
def finishTelegram (s : Abcc) : Abcc :=
  let s := s.putProcessData (s.apdr.bCurrentStatusReg &&& 0x0F)
    (fun i => s.apdr.pbReceptionBuffer (17 + i)) s.apdr.iPdReadLength
  let s := s.nextState
  { s with apdr := { s.apdr with bLastStatusReg := s.apdr.bCurrentStatusReg } }

/-- APDR_SM_PROCESS_RECEIVED_TELEGRAM. -/
def smProcessReceivedTelegram (s : Abcc) : Abcc × Bool :=
  if s.apdr.bCurrentStatusReg &&& 0x40 ≠ 0 then (s.keepFragment.finishTelegram, false)
  else if s.apdr.bLastStatusReg &&& 0x40 = 0 then (s.finishTelegram, false)
  else match s.passMessage with
    | none => (s.call (.driverError .outOfBuffers), true)
    | some s => (s.finishTelegram, false)

/-- The module has not answered. -/
def noteLost (s : Abcc) : Abcc :=
  { s.call .wdTimeout with apdr := { s.apdr with
      fAbccWdToOccured := true
      fAbccWdTo := false
      fAbccTelegramTo := false } }

/-- APDR_SM_ABCC_COM_LOST. -/
def smAbccComLost (s : Abcc) : Abcc := s.noteLost.retransmit.goto .waitForTelegram

/-- A message of one kind is to be sent; `none` if there is none. -/
def sendFrom (s : Abcc) (type : SentMsgType) : Option Abcc :=
  let queue : Pool := match type with
    | .command => .cmdToAbcc
    | .response => .rspToAbcc
  (s.getNextMessage queue).map fun s => { s with apdr := { s.apdr with
    eState := .sendTelegramWithMessage
    bLastSentMsgType := type } }

/-- APDR_SM_IDLE. -/
def smIdle (s : Abcc) : Abcc :=
  let s := { s with abccWdTimer := OneTimerEntry.reload 5000 }
  let next : Option Abcc :=
    if s.apdr.bLastStatusReg &&& 0x20 = 0 then s.sendFrom .response
    else match s.apdr.bLastSentMsgType with
      | .command => s.sendFrom .response <|> s.sendFrom .command
      | .response => s.sendFrom .command <|> s.sendFrom .response
  next.getD (s.goto .sendTelegramWithoutMessage)

/-- One round of `while( 1 )`; whether it returns. -/
def pass (s : Abcc) (behind : ℕ → UInt8) : Option (Abcc × Bool) :=
  match s.apdr.eState with
  | .init => some (s.smInit, false)
  | .initialHandshake =>
    if s.apdr.fInitHsTo then
      some ({ s with initHsTimer := s.initHsTimer.stop }.goto .idle, false)
    else some (s, true)
  | .sendTelegramWithMessage => (s.sendNewTelegram behind true).map fun s => (s, true)
  | .sendTelegramWithoutMessage => (s.sendNewTelegram behind false).map fun s => (s, true)
  | .waitForTelegram => some s.smWaitForTelegram
  | .processReceivedTelegram => some s.smProcessReceivedTelegram
  | .abccComLost => some (s.smAbccComLost, true)
  | .idle => some (s.smIdle, false)

/-- The loop, for as many rounds; `none` if it has not returned then. -/
def runLoop (behind : ℕ → UInt8) : ℕ → Abcc → Option Abcc
  | 0, _ => none
  | n + 1, s => do
    let (s, leaves) ← s.pass behind
    if leaves then return s else runLoop behind n s

/-- `APDR_RunDataLinkStateMachine`. -/
def runDataLinkStateMachine (s : Abcc) (behind : ℕ → UInt8) : Option Abcc := runLoop behind 5 s

/-! ### Between the runs -/

/-- `UTIL_RunTimerSystem( ABCC_TIMER_RESOLUTION_MS )`, with `apdr_TelegramTimeout`,
`apdr_AbccWatchdogTimeout` and `apdr_InitHsTimerExpired`. -/
def runTimerSystem (s : Abcc) : Abcc :=
  let (telegramTo, fTelegramTo) := s.telegramToTimer.run 10
  let (abccWd, fAbccWd) := s.abccWdTimer.run 10
  let (initHs, fInitHs) := s.initHsTimer.run 10
  { s with
    telegramToTimer := telegramTo
    abccWdTimer := abccWd
    initHsTimer := initHs
    apdr := { s.apdr with
      fAbccTelegramTo := s.apdr.fAbccTelegramTo || fTelegramTo
      fAbccWdTo := s.apdr.fAbccWdTo || fAbccWd
      fInitHsTo := s.apdr.fInitHsTo || fInitHs } }

/-- `APDR_SerialTelegramReceived`. -/
def serialTelegramReceived (s : Abcc) (pbNewData : ℕ → UInt8) : Abcc :=
  { s with apdr := { s.apdr with
      pbReceptionBuffer := pbNewData
      fTelegramReceived := true } }

/-- The driver's memory after a reset, and then `APDR_Init` and `APLINK_Init` in the state
APLINK_SM_SETUP.  `buf` are the bytes of the buffers, none of which is used. -/
def boot (buf : BufRef → ℕ → UInt8) : Abcc where
  buf r := { sMsg := buf r, bNbrOfFragments := 0, bFragCounter := 0, fEntryUsed := false }
  queue pool := .create (fun _ => none) pool.length
  telegramToTimer := { iTimeInMs := 60, fEnabled := false }
  abccWdTimer := { iTimeInMs := 5000, fEnabled := false }
  initHsTimer := { iTimeInMs := 1500, fEnabled := false }
  aplink := {
    bLastAbccState := 0xFF
    eDriverState := .inConfiguration
    abWriteDataBuffer _ := 0
    abReadDataBuffer _ := 0
    bNbrOfCmdsActiveFromAbcc := 0
    bNbrOfCmdsActiveToAbcc := 0
    iReadPdLength := 0
    iWritePdLength := 0
    fNewWritePdAvailable := false
    iNewWritePdLength := 0
    fRemappingReadPd := false
    fRemappingWritePd := false }
  apdr := {
    psWriteMsgBuffer := none
    iNbrRecFrags := 0
    abMessage _ := 0
    eState := .init
    iTelegramToTime := 60
    bLastStatusReg := 0
    bCurrentStatusReg := 0
    bWorkingControlReg := 0
    bLastSentMsgType := .response
    fAbccTelegramTo := false
    fAbccWdTo := false
    fTelegramReceived := false
    fInitHsTo := false
    pbReceptionBuffer _ := 0
    abTransmissionBuffer _ := 0
    iPdReadLength := 0
    iPdWriteLength := 0
    iSerialLengthRead := 0
    iSerialLengthWrite := 0
    fAbccWdToOccured := false
    fCompleteWrPdRemap := false }
  appdReadSize := 0
  appdWriteSize := 0
  calls := []
  posted := []
  begun := []
  sent := []
  got := []
  delivered := []
  taken := []

end Abcc

/-- What happens between two runs of the loop, and such a run. -/
inductive AbccOp
  /-- `APDR_RunDataLinkStateMachine`. -/
  | run (behind : ℕ → UInt8)
  /-- `aplink_HandleQueuedMsgsToAppl`. -/
  | handle (app : (ℕ → UInt8) → List (ℕ → UInt8))
  /-- `APLINK_SendMessage`. -/
  | send (psMessage : ℕ → UInt8)
  /-- A step of the configuration. -/
  | cfgSend (fill : (ℕ → UInt8) → ℕ → UInt8)
  | cfgTake
  /-- `APLINK_ChangeDriverState`. -/
  | change (eRequestedState : DriverState)
  /-- `UTIL_RunTimerSystem`. -/
  | tick
  /-- `APDR_SerialTelegramReceived`. -/
  | received (pbNewData : ℕ → UInt8)
  /-- `APLINK_WriteProcessData`. -/
  | writeProcessData (pbData : ℕ → UInt8)
  /-- `fNewWritePdAvailable` is set in the state APLINK_SM_IN_RUN_NO_PD. -/
  | newWritePd
  /-- The application changes the lengths of its process data. -/
  | pdSize (iReadSize iWriteSize : UInt16)

namespace Abcc

/-- One step; `none` if a null pointer is followed, or the loop does not return. -/
def step (s : Abcc) : AbccOp → Option Abcc
  | .run behind => s.runDataLinkStateMachine behind
  | .handle app => s.handleQueuedMsgsToAppl app
  | .send psMessage => some (s.sendMessage psMessage).1
  | .cfgSend fill => s.cfgSend fill
  | .cfgTake => s.cfgTake
  | .change eRequestedState => some (s.changeDriverState eRequestedState)
  | .tick => some s.runTimerSystem
  | .received pbNewData => some (s.serialTelegramReceived pbNewData)
  | .writeProcessData pbData => some (s.writeProcessData pbData)
  | .newWritePd => some { s with aplink := { s.aplink with fNewWritePdAvailable := true } }
  | .pdSize iReadSize iWriteSize =>
    some { s with appdReadSize := iReadSize, appdWriteSize := iWriteSize }

end Abcc

end Start01
