/-
Start01/PcFrame.lean

The other end of the wire: what FormMain.cpp of the PC tool sends and how it reads
what it is sent.

`ReadParam`, `WriteIntParam` and `WriteFloatParam` fill an array of eleven bytes,
the value with its most significant byte first.  `ParseData` works on a
queue: while eleven bytes are queued it pops one, and if that is `FE` a second one,
and if that is `7F` the rest of the frame.

On single frames the two programs agree (`pcFrames_agree`).  On a stream they need
not: where an `FE` is followed by another byte than `7F`, `ParseData` has popped
both, and a frame that begins at the second is missed (`parseData_agrees_iff`).

`sktRead` queues what the socket delivers and parses.  The loop leaves what is too short
to decide, so the cuts between deliveries are not seen (`sktReads_refine_parseData`).

A read from the empty queue, and running out of fuel, are both `none`.  The position
of a frame in the stream is a ghost.
-/
import Start01.Comm
import Start01.Scan

namespace Start01

/-! ### What the tool sends -/

/-- `DIR_READ` and `DIR_WRITE` of FormMain.cpp. -/
def pcDirRead : UInt8 := 1

/-- `DIR_WRITE` of FormMain.cpp. -/
def pcDirWrite : UInt8 := 2

/-- `checkSum(buf, len)` of FormMain.cpp. -/
def pcCheckSum (buf : List UInt8) (len : ℕ) : UInt8 :=
  (buf.take len).foldl (· + ·) 0

/-- `cmd[10] = checkSum(cmd,10)`, behind the ten bytes stored before. -/
def pcSeal (cmd : List UInt8) : List UInt8 := cmd ++ [pcCheckSum cmd 10]

/-- The frame of `ReadParam`. -/
def readParamFrame (code : UInt8) : List UInt8 :=
  pcSeal [0xFE, 0x7F, 0, 0, pcDirRead, code, 0, 0, 0, 0]

/-- An `int` stored in a `UINT8`. -/
def lowByte (v : Int32) : UInt8 := v.toUInt32.toUInt8

/-- The frame of `WriteIntParam`; the shifts are those of an `int`. -/
def writeIntParamFrame (code : UInt8) (value : Int32) : List UInt8 :=
  pcSeal [0xFE, 0x7F, 0, 0, pcDirWrite, code, lowByte (value >>> 24), lowByte (value >>> 16),
    lowByte (value >>> 8), lowByte value]

/-- The frame of `WriteFloatParam`, for the bit pattern of the `float`; `leByte` is
the array `pad` of the union. -/
def writeFloatParamFrame (code : UInt8) (value : UInt32) : List UInt8 :=
  pcSeal [0xFE, 0x7F, 0, 0, pcDirWrite, code, leByte value 3, leByte value 2, leByte value 1,
    leByte value 0]

/-! ### What the tool reads -/

/-- `front()` and `pop()`. -/
def pop : List UInt8 → Option (UInt8 × List UInt8)
  | [] => none
  | b :: q => some (b, q)

/-- The `for` loop of `ParseData`: `n` bytes popped into the array. -/
def popMany : ℕ → List UInt8 → Option (List UInt8 × List UInt8)
  | 0, q => some ([], q)
  | n + 1, q => do
      let (b, q) ← pop q
      let (bs, q) ← popMany n q
      return (b :: bs, q)

/-- The assignments to `__CommMsg` from `m_DataBuf`. -/
def pcReadMsg (buf : ℕ → UInt8) : TCommMsg where
  devId := ((buf 2).toUInt16 <<< 8) + (buf 3).toUInt16
  dir := buf 4
  cmd := buf 5
  pad := ![buf 9, buf 8, buf 7, buf 6]

/-- The body of the `while` loop: the message handed to `DealData`, if any. -/
def parseBody (q : List UInt8) : Option (Option TCommMsg × List UInt8) := do
  let (ch, q) ← pop q
  if ch = 0xFE then
    let (ch, q) ← pop q
    if ch = 0x7F then
      let (bs, q) ← popMany 9 q
      return (some (pcReadMsg fun i => (0xFE :: 0x7F :: bs).getD i 0), q)
    else return (none, q)
  else return (none, q)

/-- The `while` loop; `pos` is the position of the front of the queue in the stream. -/
def parseWhile : ℕ → ℕ → List UInt8 → Option (List (ℕ × TCommMsg) × List UInt8)
  | 0, _, _ => none
  | fuel + 1, pos, q =>
      if 11 ≤ q.length then do
        let (msg, q') ← parseBody q
        let (msgs, q'') ← parseWhile fuel (pos + (q.length - q'.length)) q'
        return ((msg.map (Prod.mk pos)).toList ++ msgs, q'')
      else some ([], q)

/-- `ParseData`, on a queue: the messages dealt with, and what stays queued. -/
def parseData (q : List UInt8) : Option (List (ℕ × TCommMsg) × List UInt8) :=
  parseWhile (q.length + 1) 0 q

/-! ### The queue against the scanner -/

/-- What `ParseData` pops besides the byte it looks at, where no frame begins. -/
def pcExtra (data : List UInt8) : ℕ := if data.getD 0 0 = 0xFE then 1 else 0

/-- The frames `ParseData` finds. -/
abbrev pcFrames (pos : ℕ) (data : List UInt8) : List (ℕ × List UInt8) :=
  Windows.scanBy msgLen startsFrame pcExtra pos data

/-- A stream in which no frame begins at a byte that `ParseData` pops behind an `FE`. -/
abbrev InStep (data : List UInt8) : Prop := Windows.InStep msgLen startsFrame pcExtra data

theorem popMany_eq {n : ℕ} :
    ∀ {q : List UInt8}, n ≤ q.length → popMany n q = some (q.take n, q.drop n) := by
  induction n with
  | zero => exact fun _ => rfl
  | succ n ih =>
    intro q hn
    cases q with
    | nil => exact absurd hn (Nat.not_succ_le_zero n)
    | cons b q => simp [popMany, pop, ih (Nat.succ_le_succ_iff.mp hn)]

theorem pcReadMsg_eq (w : List UInt8) : pcReadMsg (fun i => w.getD i 0) = decodeWindow w := by
  simp only [pcReadMsg, decodeWindow, devId_eq]

/-- **One pass of the loop** takes the window in front, or drops one byte, or two
behind an `FE`. -/
theorem parseBody_eq {q : List UInt8} (hlen : 11 ≤ q.length) :
    parseBody q = if startsFrame (q.take msgLen) = true
      then some (some (decodeWindow (q.take msgLen)), q.drop msgLen)
      else some (none, q.drop (pcExtra q + 1)) := by
  obtain ⟨b, c, q, rfl⟩ : ∃ b c q', q = b :: c :: q' := by
    match q, hlen with
    | b :: c :: q', _ => exact ⟨b, c, q', rfl⟩
  have hq : 9 ≤ q.length := by simpa using hlen
  have htake : (b :: c :: q).take msgLen = b :: c :: q.take 9 := rfl
  have hdrop : (b :: c :: q).drop msgLen = q.drop 9 := rfl
  simp only [parseBody, pop, Option.bind_eq_bind, Option.bind_some, htake, hdrop]
  by_cases hb : b = 0xFE
  · subst hb
    by_cases hc : c = 0x7F
    · subst hc
      have hread := pcReadMsg_eq (0xFE :: 0x7F :: q.take 9)
      rw [popMany_eq hq]
      simp only [Option.bind_some, hread]
      rfl
    · simp [startsFrame, pcExtra, hc]
  · simp [startsFrame, pcExtra, hb]

/-- What `ParseData` leaves in the queue. -/
abbrev pcRest (data : List UInt8) : List UInt8 := Windows.restBy msgLen startsFrame pcExtra data

/-- **Loop invariant.**  The loop deals with the frames of `pcFrames`, in order, and
leaves what the scanner leaves; it needs one unit of fuel for every byte queued. -/
theorem parseWhile_eq {fuel : ℕ} :
    ∀ {pos : ℕ} {q : List UInt8}, q.length < fuel →
      parseWhile fuel pos q
        = some ((pcFrames pos q).map fun c => (c.1, decodeWindow c.2), pcRest q) := by
  induction fuel with
  | zero => exact fun h => absurd h (Nat.not_lt_zero _)
  | succ fuel ih =>
    intro pos q hf
    by_cases hlen : 11 ≤ q.length
    · have hk : msgLen ≤ q.length := hlen
      rw [parseWhile, if_pos hlen, parseBody_eq hlen]
      cases hs : startsFrame (q.take msgLen) with
      | true =>
        have hpos : pos + (q.length - (q.drop msgLen).length) = pos + msgLen := by
          rw [List.length_drop]
          omega
        have hrest := @ih (pos + msgLen) (q.drop msgLen) (by
          rw [List.length_drop]
          have : 0 < msgLen := by decide
          omega)
        rw [pcFrames, pcRest, Windows.scanBy_window hk hs, Windows.restBy_window hk hs]
        simp only [if_true, Option.bind_eq_bind, Option.bind_some, hpos, hrest]
        rfl
      | false =>
        have hextra : pcExtra q ≤ 1 := by
          unfold pcExtra
          split <;> omega
        have hpos : pos + (q.length - (q.drop (pcExtra q + 1)).length)
            = pos + (pcExtra q + 1) := by
          rw [List.length_drop]
          omega
        have hrest := @ih (pos + (pcExtra q + 1)) (q.drop (pcExtra q + 1)) (by
          rw [List.length_drop]
          omega)
        rw [pcFrames, pcRest, Windows.scanBy_skip hk hs, Windows.restBy_skip hk hs]
        simp only [Bool.false_eq_true, if_false, Option.bind_eq_bind, Option.bind_some, hpos, hrest]
        rfl
    · have hlt : q.length < msgLen := Nat.not_le.mp hlen
      rw [parseWhile, if_neg hlen, pcFrames, pcRest, Windows.scanBy_short hlt,
        Windows.restBy_short hlt]
      rfl

theorem parseData_eq (q : List UInt8) :
    parseData q = some ((pcFrames 0 q).map fun c => (c.1, decodeWindow c.2), pcRest q) :=
  parseWhile_eq (Nat.lt_succ_self _)

/-! ### Single frames -/

/-- `param.u32_val`, on a little-endian machine. -/
def TCommMsg.u32Val (msg : TCommMsg) : UInt32 := ofLe msg.padAt

/-- The message for device 0 with a value. -/
def paramMsg (dir cmd : UInt8) (value : UInt32) : TCommMsg where
  devId := 0
  dir := dir
  cmd := cmd
  pad i := leByte value i

@[simp] theorem paramMsg_u32Val (dir cmd : UInt8) (value : UInt32) :
    (paramMsg dir cmd value).u32Val = value :=
  (ofLe_congr fun i hi => by interval_cases i <;> rfl).trans (ofLe_leByte value)

/-- The shift of an `int` fills with the sign, but not within its four bytes. -/
theorem sshiftRight_setWidth (x : BitVec 32) {s : ℕ} (hs : s ≤ 24) :
    (x.sshiftRight s).setWidth 8 = (x >>> s).setWidth 8 := by
  ext i hi
  have hin : s + i < 32 := by omega
  simp only [BitVec.getElem_setWidth, BitVec.getLsbD_sshiftRight, BitVec.getLsbD_ushiftRight]
  simp [hin]
  omega

theorem lowByte_of_sshiftRight {v w : Int32} {i : ℕ} (hi : i < 4)
    (h : w.toBitVec = v.toBitVec.sshiftRight (8 * i)) : lowByte w = leByte v.toUInt32 i := by
  have hbits := congrArg BitVec.toNat (sshiftRight_setWidth v.toBitVec (show 8 * i ≤ 24 by omega))
  have hpow : 2 ^ (8 * i) = 256 ^ i := by rw [pow_mul]; rfl
  apply UInt8.toNat_inj.mp
  show w.toBitVec.toNat % 256 = v.toBitVec.toNat / 256 ^ i % 256
  rw [BitVec.toNat_setWidth, BitVec.toNat_setWidth, BitVec.toNat_ushiftRight,
    Nat.shiftRight_eq_div_pow, hpow] at hbits
  rw [h]
  exact hbits

/-- The ten bytes of a message for device 0. -/
theorem frameHead_paramMsg (dir cmd : UInt8) (value : UInt32) :
    frameHead (paramMsg dir cmd value) = [0xFE, 0x7F, 0, 0, dir, cmd, leByte value 3,
      leByte value 2, leByte value 1, leByte value 0] := by
  have hid : ((0 : UInt16) >>> 8).toUInt8 = 0 ∧ ((0 : UInt16) &&& 0xFF).toUInt8 = 0 := by decide
  simp only [frameHead, paramMsg, hid]
  rfl

theorem pcSeal_frameHead (msg : TCommMsg) : pcSeal (frameHead msg) = frameBytes msg := rfl

theorem readParamFrame_eq (code : UInt8) :
    readParamFrame code = frameBytes (paramMsg TCmdDir.dirRead.code code 0) := by
  rw [← pcSeal_frameHead, frameHead_paramMsg]
  rfl

theorem writeFloatParamFrame_eq (code : UInt8) (value : UInt32) :
    writeFloatParamFrame code value = frameBytes (paramMsg TCmdDir.dirWrite.code code value) := by
  rw [← pcSeal_frameHead, frameHead_paramMsg]
  rfl

theorem writeIntParamFrame_eq (code : UInt8) (value : Int32) :
    writeIntParamFrame code value
      = frameBytes (paramMsg TCmdDir.dirWrite.code code value.toUInt32) := by
  rw [← pcSeal_frameHead, frameHead_paramMsg, writeIntParamFrame,
    @lowByte_of_sshiftRight value (value >>> 24) 3 (by omega) (by simp),
    @lowByte_of_sshiftRight value (value >>> 16) 2 (by omega) (by simp),
    @lowByte_of_sshiftRight value (value >>> 8) 1 (by omega) (by simp),
    @lowByte_of_sshiftRight value value 0 (by omega) (by simp)]
  rfl

/-- A built frame is the one window of its eleven bytes. -/
theorem startsFrame_frameBytes (msg : TCommMsg) :
    startsFrame ((frameBytes msg).take msgLen) = true := rfl

theorem parseCalls_frameBytes (msg : TCommMsg) : parseCalls (frameBytes msg) = some [(0, msg)] := by
  have hlen : msgLen ≤ (frameBytes msg).length := le_rfl
  rw [parseCalls_eq (by rw [frameBytes_length]; omega), frames,
    Windows.scan_window hlen (startsFrame_frameBytes msg),
    Windows.scan_short (by rw [List.length_drop, frameBytes_length]; decide),
    List.take_of_length_le (show (frameBytes msg).length ≤ msgLen from le_rfl)]
  simp

theorem parseData_frameBytes (msg : TCommMsg) :
    parseData (frameBytes msg) = some ([(0, msg)], []) := by
  obtain ⟨bs, hbs⟩ : ∃ bs, frameBytes msg = 0xFE :: 0x7F :: bs := ⟨_, rfl⟩
  rw [parseData, frameBytes_length, parseWhile, if_pos (by rw [frameBytes_length]),
    parseBody_eq (by rw [frameBytes_length]), if_pos (startsFrame_frameBytes msg)]
  rw [List.take_of_length_le (show (frameBytes msg).length ≤ msgLen from le_rfl),
    List.drop_of_length_le (show (frameBytes msg).length ≤ msgLen from le_rfl),
    decodeWindow_frameBytes]
  rfl

/-- What the tool sends is what the firmware would build, and what it decodes. -/
structure FrameOf (frame : List UInt8) (dir cmd : UInt8) (value : UInt32) : Prop where
  built : ∀ buf, buildDebugMsgBuf (some (paramMsg dir cmd value)) (some buf) 11
    = (11, some (frame ++ buf.drop 11))
  parsed : ∃ msg, parseCalls frame = some [(0, msg)] ∧
    msg.dir = dir ∧ msg.cmd = cmd ∧ msg.u32Val = value

theorem FrameOf.of_eq {frame : List UInt8} {dir cmd : UInt8} {value : UInt32}
    (h : frame = frameBytes (paramMsg dir cmd value)) : FrameOf frame dir cmd value := by
  subst h
  exact ⟨fun _ => rfl, _, parseCalls_frameBytes _, rfl, rfl, paramMsg_u32Val dir cmd value⟩

/-- **One frame format.**  The three senders of the tool build what
`BuildDebugMsgBuf` builds for the same direction, command and value, the firmware
decodes it to these, and `ParseData` decodes whatever `BuildDebugMsgBuf` builds to
the message it was built from. -/
theorem pc_frames_agree :
    (∀ code, FrameOf (readParamFrame code) TCmdDir.dirRead.code code 0) ∧
    (∀ code value, FrameOf (writeIntParamFrame code value) TCmdDir.dirWrite.code code
      value.toUInt32) ∧
    (∀ code value, FrameOf (writeFloatParamFrame code value) TCmdDir.dirWrite.code code value) ∧
    (∀ msg buf len, (buildDebugMsgBuf (some msg) (some buf) len).1 = 0 ∨
      ∃ out, buildDebugMsgBuf (some msg) (some buf) len = (11, some out) ∧
        parseData (out.take 11) = some ([(0, msg)], [])) := by
  refine ⟨fun code => .of_eq (readParamFrame_eq code),
    fun code value => .of_eq (writeIntParamFrame_eq code value),
    fun code value => .of_eq (writeFloatParamFrame_eq code value), fun msg buf len => ?_⟩
  unfold buildDebugMsgBuf
  dsimp only
  split
  · exact .inl rfl
  · refine .inr ⟨_, rfl, ?_⟩
    rw [List.take_left' (frameBytes_length msg)]
    exact parseData_frameBytes msg

/-! ### Streams -/

/-- Both programs deal with the same messages, in the same order. -/
def SameMessages (data : List UInt8) : Prop :=
  ∃ calls msgs rest, parseCalls data = some calls ∧ parseData data = some (msgs, rest) ∧
    msgs.map Prod.snd = calls.map Prod.snd

/-- … and each of them was found at the same place of the stream by both. -/
def SameFrames (data : List UInt8) : Prop :=
  ∃ calls rest, parseCalls data = some calls ∧ parseData data = some (calls, rest)

theorem SameFrames.sameMessages {data : List UInt8} (h : SameFrames data) : SameMessages data := by
  obtain ⟨calls, rest, hcalls, hmsgs⟩ := h
  exact ⟨calls, calls, rest, hcalls, hmsgs, rfl⟩

/-- **Streams.**  Delivered in one piece, a stream is cut into the same frames at the
same places by both programs iff no frame begins at a byte that `ParseData` pops
behind an `FE`; on such a stream the messages are the same. -/
theorem parseData_agrees_iff (data : List UInt8) (h32 : data.length < 4294967296) :
    (SameFrames data ↔ InStep data) ∧ (InStep data → SameMessages data) := by
  have hpc := parseData_eq data
  have hiff : SameFrames data ↔ InStep data := by
    constructor
    · rintro ⟨calls, rest', hcalls, hmsgs⟩
      rw [parseCalls_eq h32, Option.some.injEq] at hcalls
      rw [hpc, Option.some.injEq, Prod.mk.injEq, ← hcalls] at hmsgs
      -- the places alone decide
      refine (Windows.map_fst_scanBy_eq_iff 0 data).mp ?_
      simpa [Function.comp_def] using congrArg (List.map Prod.fst) hmsgs.1
    · intro h
      refine ⟨_, pcRest data, parseCalls_eq h32, ?_⟩
      rw [hpc, pcFrames, h.scanBy_eq_scan]
  exact ⟨hiff, fun h => (hiff.mpr h).sameMessages⟩

/-- Noise that ends in two `FE`s, of which `ParseData` pops both, before a request. -/
theorem parseData_agrees_iff_noise :
    SameMessages [0xFE, 0xFE, 0xFE, 0x7F, 0, 0, 1, 0, 0, 0, 0, 0, 0x7E] :=
  (parseData_agrees_iff _ (by decide)).2
    (.skip (by decide) (by decide) (by decide) (.window (by decide) (by decide) (.tail (by decide))))

/-- A request behind a single `FE` reaches the firmware's `Cmd_Service`; a tool that
is sent the same bytes deals with nothing. -/
theorem stray_fe_missed : ¬ ∀ data : List UInt8, data.length < 4294967296 → SameMessages data := by
  intro h
  obtain ⟨calls, msgs, rest, hcalls, hmsgs, heq⟩ :=
    h [0xFE, 0xFE, 0x7F, 0, 0, 1, 0, 0, 0, 0, 0, 0x7E] (by decide)
  have hfw : parseCalls [0xFE, 0xFE, 0x7F, 0, 0, 1, 0, 0, 0, 0, 0, 0x7E]
      = some [(1, ⟨0, 1, 0, ![0, 0, 0, 0]⟩)] := by decide
  have hpc : (parseData [0xFE, 0xFE, 0x7F, 0, 0, 1, 0, 0, 0, 0, 0, 0x7E]).map Prod.fst
      = some [] := by decide
  rw [hmsgs] at hpc
  obtain rfl := Option.some.inj hpc
  obtain rfl := Option.some.inj (hcalls.symm.trans hfw)
  exact absurd heq (by simp)

/-! ### The stream in pieces -/

/-- `sizeof(m_RecvBuf)` of FormMain.cpp. -/
def recvBufSize : ℕ := 1024

/-- `sktRead`, on the queue, for the bytes that `ReceiveBuf` copies: the messages dealt
with, in order, and the queue left; `none` also where they do not fit `m_RecvBuf`. -/
def sktRead (bufList received : List UInt8) : Option (List TCommMsg × List UInt8) :=
  if received.length ≤ recvBufSize then do
    let (msgs, bufList) ← parseData (bufList ++ received)
    return (msgs.map Prod.snd, bufList)
  else none

/-- `sktRead`, once for every delivery. -/
def sktReads : List UInt8 → List (List UInt8) → Option (List TCommMsg × List UInt8)
  | bufList, [] => some ([], bufList)
  | bufList, received :: deliveries => do
      let (msgs, bufList) ← sktRead bufList received
      let (msgs', bufList) ← sktReads bufList deliveries
      return (msgs ++ msgs', bufList)

/-- The messages of the frames `ParseData` finds. -/
def pcMsgs (data : List UInt8) : List TCommMsg :=
  ((pcFrames 0 data).map Prod.snd).map decodeWindow

theorem pcExtra_local : Windows.Local msgLen pcExtra where
  lt data := by
    unfold pcExtra
    split <;> decide
  append data more hlen := by
    -- the byte in front is there before more arrives
    cases data with
    | nil => exact absurd hlen (by decide)
    | cons b data => rfl

theorem pcMsgs_append (data more : List UInt8) :
    pcMsgs (data ++ more) = pcMsgs data ++ pcMsgs (pcRest data ++ more) := by
  have h := (@Windows.scanBy_append _ msgLen _ startsFrame pcExtra pcExtra_local 0 data more).1
  rw [pcMsgs, pcFrames, h, List.map_append]
  rfl

theorem pcRest_append (data more : List UInt8) :
    pcRest (data ++ more) = pcRest (pcRest data ++ more) :=
  (@Windows.scanBy_append _ msgLen _ startsFrame pcExtra pcExtra_local 0 data more).2

/-- The queue is read again from the front when more arrives, and nothing is found twice. -/
theorem pcMsgs_of_short {q : List UInt8} (hq : q.length < msgLen) : pcMsgs q = [] := by
  rw [pcMsgs, pcFrames, Windows.scanBy_short hq]
  rfl

theorem sktRead_eq {bufList received : List UInt8} (h : received.length ≤ recvBufSize) :
    sktRead bufList received
      = some (pcMsgs (bufList ++ received), pcRest (bufList ++ received)) := by
  rw [sktRead, if_pos h, parseData_eq, pcMsgs, List.map_map]
  simp [Function.comp_def]

/-- **Run lemma.**  From a queue too short to hold a frame, the deliveries are dealt with
as one. -/
theorem sktReads_eq {deliveries : List (List UInt8)} :
    ∀ {bufList : List UInt8}, bufList.length < msgLen →
      (∀ received ∈ deliveries, received.length ≤ recvBufSize) →
      sktReads bufList deliveries
        = some (pcMsgs (bufList ++ deliveries.flatten), pcRest (bufList ++ deliveries.flatten)) := by
  induction deliveries with
  | nil =>
    intro bufList hshort _
    rw [List.flatten_nil, List.append_nil, sktReads, pcMsgs_of_short hshort, pcRest,
      Windows.restBy_short hshort]
  | cons received deliveries ih =>
    intro bufList hshort hfit
    have hread := @sktRead_eq bufList received (hfit received List.mem_cons_self)
    have hrest : (pcRest (bufList ++ received)).length < msgLen := Windows.length_restBy_lt _
    have hmore := ih hrest fun d hd => hfit d (List.mem_cons_of_mem received hd)
    rw [List.flatten_cons, ← List.append_assoc, pcMsgs_append (bufList ++ received),
      pcRest_append (bufList ++ received)]
    simp [sktReads, hread, hmore]

/-- **However the stream is cut up.**  `ParseData` comes to an end on every queue without
popping an empty one, and leaves at most ten bytes; and deliveries that fit the buffer
give the messages, and leave the queue, of one `ParseData` on the whole stream. -/
theorem sktReads_refine_parseData (deliveries : List (List UInt8))
    (hfit : ∀ received ∈ deliveries, received.length ≤ recvBufSize) :
    (∀ q, ∃ msgs rest, parseData q = some (msgs, rest) ∧ rest.length ≤ 10) ∧
    ∃ msgs rest, parseData deliveries.flatten = some (msgs, rest) ∧
      sktReads [] deliveries = some (msgs.map Prod.snd, rest) := by
  constructor
  · intro q
    exact ⟨_, _, parseData_eq q, Nat.lt_succ_iff.mp (Windows.length_restBy_lt q)⟩
  · refine ⟨_, _, parseData_eq _, ?_⟩
    rw [sktReads_eq (by decide) hfit, List.nil_append, pcMsgs, List.map_map, List.map_map]
    rfl

/-- Noise in two deliveries, and a request cut in two behind it. -/
theorem sktReads_refine_parseData_three :
    ∃ msgs rest, parseData [0xFE, 0xFE, 0x7F, 0xFE, 0x7F, 0, 0, 1, 0, 0, 0, 0, 0, 0x7E]
        = some (msgs, rest) ∧
      sktReads [] [[0xFE], [0xFE, 0x7F, 0xFE, 0x7F, 0, 0, 1], [0, 0, 0, 0, 0, 0x7E]]
        = some (msgs.map Prod.snd, rest) :=
  (sktReads_refine_parseData [[0xFE], [0xFE, 0x7F, 0xFE, 0x7F, 0, 0, 1], [0, 0, 0, 0, 0, 0x7E]]
    (by decide)).2

end Start01
