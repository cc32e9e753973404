/-
Start01/SerialOpen.lean

Opening and closing a serial device (serial.c): `usart_open` takes a FIFO from the heap for
the receiver and one for the transmitter, as the mode says, and then calls the driver;
`usart_close` calls the driver.

What `rt_malloc` and the driver answer is not determined here: each call of `usart_open` gets
its answers with it (`Answers`), so that a run is one under any pattern of failures.  The
port carries, beside the device, the blocks that were taken from the heap for it, and
whether the last call that succeeded was an open.

Two things go wrong.  `usart_close` does not clear `open_flag`, and `usart_open` gives nothing
back when it fails.  So what remains right are the runs in which no open device is closed, and
in which an open that fails is refused the first thing it asks for (`open_close_iff`).
-/
import Start01.KfifoAlloc

namespace Start01

open Run

/-! ### serial.c -/

/-- Of the description that a caller hands over, the mode. -/
structure TSerialDesc where
  mode : Int32
deriving DecidableEq

/-- Of the device, what opening and closing use.  The FIFOs are pointers, 0 being NULL. -/
structure TSerialDevice where
  rxFifo : UInt32
  txFifo : UInt32
  txFlag : Int32
  mode : Int32
  openFlag : Int32
deriving DecidableEq

/-- `SERIAL_ERROR_MODE`. -/
def serialErrorMode : Int32 := 0x0

/-- `SERIAL_RX_INT_MODE`. -/
def serialRxIntMode : Int32 := 0x1

/-- `SERIAL_TX_INT_MODE`. -/
def serialTxIntMode : Int32 := 0x2

/-- The four blocks that a device may have on the heap. -/
inductive FifoBlock
  | rxBuffer
  | rxFifo
  | txBuffer
  | txFifo
deriving DecidableEq

/-- A port, with the blocks of the heap that it has. -/
structure SerialPort where
  dev : TSerialDevice
  /-- The blocks that `rt_malloc` has given out for the device, none of which has been given
  back. -/
  heap : List (FifoBlock × UInt32)
  /-- Whether the last call that succeeded was a `usart_open`. -/
  lastOpen : Bool
deriving DecidableEq

/-- What `rt_malloc` answers to one `kfifo_alloc`: for the buffer, and for the structure. -/
structure Mallocs where
  buffer : UInt32
  fifo : UInt32

/-- The answers to one `usart_open`; `driver` is that of `dev->open`. -/
structure Answers where
  rx : Mallocs
  tx : Mallocs
  driver : Bool

/-- `usart_register`, of the device. -/
def usartRegister (dev : TSerialDevice) : TSerialDevice :=
  { dev with txFifo := 0, rxFifo := 0, txFlag := 0, openFlag := 0 }

/-- `kfifo_alloc`: the FIFO, and the blocks that it leaves taken.  A buffer without a structure is
passed to `free`, the C library's, which gives nothing back to `rt_malloc`. -/
def kfifoTake (buffer fifo : FifoBlock) (m : Mallocs) : UInt32 × List (FifoBlock × UInt32) :=
  if m.buffer = 0 then (0, [])
  else if m.fifo = 0 then (0, [(buffer, m.buffer)])
  else (m.fifo, [(buffer, m.buffer), (fifo, m.fifo)])

namespace SerialPort

/-- `if (dev->mode & flag) { fifo = kfifo_alloc(MAX_USART_BUF); if (fifo == NULL) return 0; }`,
false being the return. -/
def fifoInit (flag : Int32) (set : TSerialDevice → UInt32 → TSerialDevice)
    (buffer fifo : FifoBlock) (s : SerialPort) (m : Mallocs) : Bool × SerialPort :=
  if s.dev.mode &&& flag ≠ 0 then
    let (p, taken) := kfifoTake buffer fifo m
    (p ≠ 0, { s with dev := set s.dev p, heap := s.heap ++ taken })
  else (true, s)

/-- The half of `usart_fifo_init` for reception. -/
def rxInit : SerialPort → Mallocs → Bool × SerialPort :=
  fifoInit serialRxIntMode (fun dev p => { dev with rxFifo := p }) .rxBuffer .rxFifo

/-- The half for sending. -/
def txInit : SerialPort → Mallocs → Bool × SerialPort :=
  fifoInit serialTxIntMode (fun dev p => { dev with txFifo := p }) .txBuffer .txFifo

end SerialPort

/-- `usart_fifo_init`. -/
def usartFifoInit (s : SerialPort) (a : Answers) : Int32 × SerialPort :=
  match s.rxInit a.rx with
  | (false, s) => (0, s)
  | (true, s) =>
    match s.txInit a.tx with
    | (false, s) => (0, s)
    | (true, s) => (1, s)

/-- `usart_is_open`. -/
def usartIsOpen (dev : TSerialDevice) : Int32 := dev.openFlag

/-- `usart_open`, which may change the mode in the caller's description.  The driver, which is
`stm32_uart_open`, changes no field of the device. -/
def usartOpen (s : SerialPort) (desc : TSerialDesc) (a : Answers) :
    Int32 × TSerialDesc × SerialPort :=
  if s.dev.openFlag ≠ 0 then (1, desc, s)
  else
    let desc := if desc.mode = serialErrorMode then { desc with mode := serialRxIntMode } else desc
    let s := { s with dev := { s.dev with mode := desc.mode } }
    let (ret, s) := usartFifoInit s a
    if ret = 0 then (0, desc, s)
    else if a.driver then (1, desc, { s with dev := { s.dev with openFlag := 1 } })
    else (0, desc, s)

/-- `stm32_uart_close`. -/
def stm32UartClose (_dev : TSerialDevice) : Int32 := 1

/-- `usart_close`. -/
def usartClose (dev : TSerialDevice) : Int32 :=
  if dev.openFlag ≠ 0 then stm32UartClose dev else 0

/-! ### Runs -/

/-- The calls of a port. -/
inductive SerialOp
  | usartOpen (desc : TSerialDesc) (a : Answers)
  | usartClose

/-- A call and its result. -/
structure SerialCall where
  op : SerialOp
  ret : Int32
  before : SerialPort
  after : SerialPort

/-- A call that succeeds is remembered. -/
def SerialPort.note (s : SerialPort) (ret : Int32) (opened : Bool) : SerialPort :=
  if ret ≠ 0 then { s with lastOpen := opened } else s

/-- One call. -/
def serialStep (s : SerialPort) : SerialOp → SerialPort × List SerialCall
  | .usartOpen desc a =>
      let (ret, _, s') := usartOpen s desc a
      (s'.note ret true, [⟨.usartOpen desc a, ret, s, s'.note ret true⟩])
  | .usartClose =>
      let ret := usartClose s.dev
      (s.note ret false, [⟨.usartClose, ret, s, s.note ret false⟩])

/-- A device that has been registered, and has not been opened. -/
def SerialPort.registered (dev : TSerialDevice) : SerialPort := ⟨usartRegister dev, [], false⟩

namespace SerialCall

/-- The device is open iff the last call to succeed was an open; no block is held twice; and an
open that returns 0 has changed nothing. -/
structure Right (e : SerialCall) : Prop where
  isOpen : usartIsOpen e.after.dev ≠ 0 ↔ e.after.lastOpen = true
  once : (e.after.heap.map Prod.fst).Nodup
  failed : e.op ≠ .usartClose → e.ret = 0 → e.after.dev = e.before.dev ∧ e.after.heap = e.before.heap

end SerialCall

/-- Both blocks of a FIFO are there. -/
def Mallocs.Whole (m : Mallocs) : Prop := m.buffer ≠ 0 ∧ m.fifo ≠ 0

/-- The mode in which a device is opened. -/
def TSerialDesc.openMode (desc : TSerialDesc) : Int32 :=
  if desc.mode = serialErrorMode then serialRxIntMode else desc.mode

namespace Answers

/-- All that the mode asks for is granted. -/
structure Granted (a : Answers) (mode : Int32) : Prop where
  rx : mode &&& serialRxIntMode ≠ 0 → a.rx.Whole
  tx : mode &&& serialTxIntMode ≠ 0 → a.tx.Whole
  driver : a.driver = true

/-- The first thing that the mode asks for is refused. -/
def RefusedAtOnce (a : Answers) (mode : Int32) : Prop :=
  if mode &&& serialRxIntMode ≠ 0 then a.rx.buffer = 0
  else if mode &&& serialTxIntMode ≠ 0 then a.tx.buffer = 0
  else a.driver = false

end Answers

/-- A close of a device that is not open; an open of one that is; an open that is granted all it
asks for; and one that is refused the first thing, in the mode that the device has already. -/
def SerialPort.Spares (s : SerialPort) : SerialOp → Prop
  | .usartClose => s.dev.openFlag = 0
  | .usartOpen desc a => s.dev.openFlag ≠ 0 ∨ a.Granted desc.openMode ∨
      s.dev.mode = desc.openMode ∧ a.RefusedAtOnce desc.openMode

/-! ### One FIFO -/

variable {s : SerialPort} {a : Answers} {m : Mallocs}

theorem kfifoTake_of_whole (buffer fifo : FifoBlock) (h : m.Whole) :
    kfifoTake buffer fifo m = (m.fifo, [(buffer, m.buffer), (fifo, m.fifo)]) := by
  rw [kfifoTake, if_neg h.1, if_neg h.2]

/-- Without both blocks there is no FIFO, but the buffer may be gone. -/
theorem kfifoTake_of_not_whole (buffer fifo : FifoBlock) (h : ¬ m.Whole) :
    ∃ taken, kfifoTake buffer fifo m = (0, taken) ∧ (taken.map Prod.fst).Sublist [buffer] ∧
      (taken = [] ↔ m.buffer = 0) := by
  rw [kfifoTake]
  by_cases hbuf : m.buffer = 0
  · exact ⟨[], if_pos hbuf, List.nil_sublist _, iff_of_true rfl hbuf⟩
  · have hfifo : m.fifo = 0 := not_not.mp fun hne => h ⟨hbuf, hne⟩
    rw [if_neg hbuf, if_pos hfifo]
    exact ⟨_, rfl, List.Sublist.refl _, iff_of_false (List.cons_ne_nil _ _) hbuf⟩

/-- The calls of `kfifo_alloc` over the heap of dlmem.c are of this kind: where no block is left
taken, and only there, the heap is as it was. -/
theorem Tidy.kfifoAlloc_take {A : Arena} {h h' : Heap} {gs : List Tiling.Block} {fuel : ℕ}
    {size p : UInt32} {free : Heap → UInt32 → Heap} (hfree : ∀ h p, (free h p).usedMem = h.usedMem)
    (hT : Tidy A h gs) (heq : h.kfifoAlloc free fuel size = some (p, h'))
    (buffer fifo : FifoBlock) :
    ∃ m, (kfifoTake buffer fifo m).1 = p ∧ ((kfifoTake buffer fifo m).2 = [] ↔ h' = h) := by
  have hcounted := hT.kfifoAlloc_counted hfree heq
  obtain ⟨b, h₁, hbuf, ⟨hzero, rfl, rfl⟩ | ⟨hne, q, h₂, hq, hcase⟩⟩ := Heap.kfifoAlloc_cases heq
  · have hsame := hT.unchanged_of_malloc hbuf hzero
    exact ⟨⟨0, 0⟩, rfl, iff_of_true rfl hsame⟩
  · have hmore : h' ≠ h := by
      rintro rfl
      obtain ⟨hno, -, -⟩ | hlt := hcounted
      · exact hne ((hT.malloc_null_iff_refuses hbuf).mpr hno)
      · exact absurd rfl (UInt32.ne_of_lt hlt)
    refine ⟨⟨b, q⟩, ?_⟩
    rw [kfifoTake, if_neg hne]
    rcases hcase with ⟨hnull, rfl, -⟩ | ⟨hnz, rfl, -⟩
    · rw [if_pos hnull]
      exact ⟨rfl, iff_of_false (List.cons_ne_nil _ _) hmore⟩
    · rw [if_neg hnz]
      exact ⟨rfl, iff_of_false (List.cons_ne_nil _ _) hmore⟩

/-- What is done about one of the FIFOs, in a device that does not have it. -/
theorem SerialPort.fifoInit_spec (flag : Int32) {set : TSerialDevice → UInt32 → TSerialDevice}
    (buffer fifo : FifoBlock) (s : SerialPort) (m : Mallocs) (h : set s.dev 0 = s.dev) :
    ∃ ok p taken,
      s.fifoInit flag set buffer fifo m = (ok, ⟨set s.dev p, s.heap ++ taken, s.lastOpen⟩) ∧
        (ok = true ↔ (s.dev.mode &&& flag ≠ 0 → m.Whole)) ∧
        (taken.map Prod.fst).Sublist [buffer, fifo] ∧
        (taken = [] ↔ (s.dev.mode &&& flag ≠ 0 → m.buffer = 0)) ∧ (taken = [] → p = 0) := by
  rw [fifoInit]
  by_cases hflag : s.dev.mode &&& flag = 0
  · -- it is not asked for
    refine ⟨true, 0, [], ?_, ?_, List.nil_sublist _, ?_, fun _ => rfl⟩
    · rw [if_neg (not_not.mpr hflag), h, List.append_nil]
    · exact iff_of_true rfl fun hne => absurd hflag hne
    · exact iff_of_true rfl fun hne => absurd hflag hne
  · rw [if_pos hflag]
    by_cases hwhole : m.Whole
    · refine ⟨true, m.fifo, [(buffer, m.buffer), (fifo, m.fifo)], ?_, ?_, List.Sublist.refl _, ?_,
        fun hnil => by cases hnil⟩
      · rw [kfifoTake_of_whole buffer fifo hwhole]
        simp [hwhole.2]
      · exact iff_of_true rfl fun _ => hwhole
      · exact iff_of_false (List.cons_ne_nil _ _) fun hbuf => hwhole.1 (hbuf hflag)
    · obtain ⟨taken, heq, hsub, hnil⟩ := kfifoTake_of_not_whole buffer fifo hwhole
      refine ⟨false, 0, taken, ?_, ?_, hsub.trans (by simp), ?_, fun _ => rfl⟩
      · rw [heq]
        simp
      · exact iff_of_false Bool.false_ne_true fun hw => hwhole (hw hflag)
      · rw [hnil]
        exact ⟨fun hbuf _ => hbuf, fun hbuf => hbuf hflag⟩

/-! ### usart_open -/

namespace Answers

/-- The FIFOs that the mode asks for are granted. -/
def Whole (a : Answers) (mode : Int32) : Prop :=
  (mode &&& serialRxIntMode ≠ 0 → a.rx.Whole) ∧ (mode &&& serialTxIntMode ≠ 0 → a.tx.Whole)

/-- Nothing is taken from the heap. -/
def Barren (a : Answers) (mode : Int32) : Prop :=
  if mode &&& serialRxIntMode ≠ 0 then a.rx.buffer = 0
  else mode &&& serialTxIntMode ≠ 0 → a.tx.buffer = 0

theorem granted_iff {mode : Int32} : a.Granted mode ↔ a.Whole mode ∧ a.driver = true :=
  ⟨fun h => ⟨⟨h.rx, h.tx⟩, h.driver⟩, fun h => ⟨h.1.1, h.1.2, h.2⟩⟩

/-- An open that fails takes nothing exactly where it is refused at once. -/
theorem barren_iff {mode : Int32} (h : ¬ a.Granted mode) :
    a.Barren mode ↔ a.RefusedAtOnce mode := by
  rw [granted_iff] at h
  simp only [Whole, Barren, RefusedAtOnce] at h ⊢
  by_cases hrx : mode &&& serialRxIntMode = 0
  · by_cases htx : mode &&& serialTxIntMode = 0
    · simpa [hrx, htx] using h
    · simp [hrx, htx]
  · simp [hrx]

end Answers

/-- What `usart_fifo_init` does to a device without FIFOs. -/
theorem usartFifoInit_spec (s : SerialPort) (a : Answers) (hrx : s.dev.rxFifo = 0)
    (htx : s.dev.txFifo = 0) :
    ∃ ret p q taken, usartFifoInit s a =
        (ret, ⟨{ s.dev with rxFifo := p, txFifo := q }, s.heap ++ taken, s.lastOpen⟩) ∧
      (ret ≠ 0 ↔ a.Whole s.dev.mode) ∧
      (taken.map Prod.fst).Sublist [.rxBuffer, .rxFifo, .txBuffer, .txFifo] ∧
      (taken = [] ↔ a.Barren s.dev.mode) ∧ (taken = [] → p = 0 ∧ q = 0) := by
  obtain ⟨⟨rxFifo, txFifo, txFlag, mode, openFlag⟩, heap, lastOpen⟩ := s
  obtain rfl : rxFifo = 0 := hrx
  obtain rfl : txFifo = 0 := htx
  obtain ⟨ok, p, taken, heq, hok, hsub, hnil, hp⟩ :=
    @SerialPort.fifoInit_spec serialRxIntMode (fun dev p => { dev with rxFifo := p })
      .rxBuffer .rxFifo ⟨⟨0, 0, txFlag, mode, openFlag⟩, heap, lastOpen⟩ a.rx rfl
  obtain ⟨ok₁, q, taken₁, heq₁, hok₁, hsub₁, hnil₁, hq⟩ :=
    @SerialPort.fifoInit_spec serialTxIntMode (fun dev p => { dev with txFifo := p })
      .txBuffer .txFifo ⟨⟨p, 0, txFlag, mode, openFlag⟩, heap ++ taken, lastOpen⟩ a.tx rfl
  simp only [usartFifoInit, SerialPort.rxInit, SerialPort.txInit, heq]
  cases ok with
  | false =>
    have hno : ¬ (mode &&& serialRxIntMode ≠ 0 → a.rx.Whole) := fun hw =>
      absurd (hok.mpr hw) Bool.false_ne_true
    have hrx : mode &&& serialRxIntMode ≠ 0 := fun hzero => hno fun hne => absurd hzero hne
    refine ⟨0, p, 0, taken, rfl, ?_, hsub.trans (by simp), ?_, fun h => ⟨hp h, rfl⟩⟩
    · exact iff_of_false (fun h => h rfl) fun hw => hno hw.1
    · rw [hnil, Answers.Barren, if_pos hrx]
      exact ⟨fun h => h hrx, fun h _ => h⟩
  | true =>
    have hwhole := hok.mp rfl
    have hboth : (taken ++ taken₁ = [] ↔ a.Barren mode) := by
      rw [List.append_eq_nil_iff, hnil, hnil₁, Answers.Barren]
      by_cases hrx : mode &&& serialRxIntMode ≠ 0
      · rw [if_pos hrx]
        have hbuf := (hwhole hrx).1
        exact iff_of_false (fun h => hbuf (h.1 hrx)) hbuf
      · rw [if_neg hrx]
        exact ⟨fun h => h.2, fun h => ⟨fun hne => absurd hne hrx, h⟩⟩
    have hnull : taken ++ taken₁ = [] → p = 0 ∧ q = 0 := fun h =>
      ⟨hp (List.append_eq_nil_iff.mp h).1, hq (List.append_eq_nil_iff.mp h).2⟩
    have hnames : ((taken ++ taken₁).map Prod.fst).Sublist
        [.rxBuffer, .rxFifo, .txBuffer, .txFifo] := by
      rw [List.map_append]
      exact hsub.append hsub₁
    simp only [heq₁, List.append_assoc]
    cases ok₁ with
    | false =>
      refine ⟨0, p, q, taken ++ taken₁, rfl, ?_, hnames, hboth, hnull⟩
      exact iff_of_false (fun h => h rfl) fun hw => absurd (hok₁.mpr hw.2) Bool.false_ne_true
    | true =>
      refine ⟨1, p, q, taken ++ taken₁, rfl, ?_, hnames, hboth, hnull⟩
      exact iff_of_true (by decide) ⟨hwhole, hok₁.mp rfl⟩

/-- What `usart_open` does to such a device. -/
theorem usartOpen_spec (s : SerialPort) (desc : TSerialDesc) (a : Answers)
    (hclosed : s.dev.openFlag = 0) (hrx : s.dev.rxFifo = 0) (htx : s.dev.txFifo = 0) :
    ∃ ret desc' dev taken, usartOpen s desc a = (ret, desc', ⟨dev, s.heap ++ taken, s.lastOpen⟩) ∧
      (ret ≠ 0 ↔ a.Granted desc.openMode) ∧ (dev.openFlag ≠ 0 ↔ ret ≠ 0) ∧
      (taken.map Prod.fst).Sublist [.rxBuffer, .rxFifo, .txBuffer, .txFifo] ∧
      (ret = 0 → (dev = s.dev ∧ taken = [] ↔
        s.dev.mode = desc.openMode ∧ a.RefusedAtOnce desc.openMode)) := by
  obtain ⟨⟨rxFifo, txFifo, txFlag, mode, openFlag⟩, heap, lastOpen⟩ := s
  obtain rfl : rxFifo = 0 := hrx
  obtain rfl : txFifo = 0 := htx
  obtain rfl : openFlag = 0 := hclosed
  obtain ⟨ret, p, q, taken, heq, hret, hsub, hnil, hnull⟩ :=
    usartFifoInit_spec ⟨⟨0, 0, txFlag, desc.openMode, 0⟩, heap, lastOpen⟩ a rfl rfl
  obtain ⟨desc', hdesc⟩ : ∃ desc', desc' =
    if desc.mode = serialErrorMode then { desc with mode := serialRxIntMode } else desc := ⟨_, rfl⟩
  have hmode : desc'.mode = desc.openMode := by
    rw [hdesc, TSerialDesc.openMode]
    split <;> rfl
  -- where the open fails, the mode and the two pointers are what may have changed
  have hsame : ¬ a.Granted desc.openMode →
      ((⟨p, q, txFlag, desc.openMode, 0⟩ : TSerialDevice) = ⟨0, 0, txFlag, mode, 0⟩ ∧ taken = [] ↔
        mode = desc.openMode ∧ a.RefusedAtOnce desc.openMode) := by
    intro hno
    rw [← a.barren_iff hno, ← hnil]
    constructor
    · rintro ⟨hdev, htaken⟩
      exact ⟨(congrArg TSerialDevice.mode hdev).symm, htaken⟩
    · rintro ⟨rfl, htaken⟩
      obtain ⟨rfl, rfl⟩ := hnull htaken
      exact ⟨rfl, htaken⟩
  rw [usartOpen, if_neg (fun h => h rfl)]
  simp only [← hdesc, hmode, heq]
  by_cases hzero : ret = 0
  · have hno : ¬ a.Granted desc.openMode := fun h => hret.mpr (a.granted_iff.mp h).1 hzero
    rw [if_pos hzero]
    exact ⟨0, desc', _, taken, rfl, iff_of_false (fun h => h rfl) hno, Iff.rfl, hsub,
      fun _ => hsame hno⟩
  · rw [if_neg hzero]
    have hwhole := hret.mp hzero
    cases hdriver : a.driver with
    | true =>
      refine ⟨1, desc', _, taken, if_pos rfl, ?_, Iff.rfl, hsub, fun h => absurd h (by decide)⟩
      exact iff_of_true (by decide) (a.granted_iff.mpr ⟨hwhole, hdriver⟩)
    | false =>
      have hno : ¬ a.Granted desc.openMode := fun h => by
        rw [h.driver] at hdriver
        cases hdriver
      exact ⟨0, desc', _, taken, if_neg Bool.false_ne_true, iff_of_false (fun h => h rfl) hno,
        Iff.rfl, hsub, fun _ => hsame hno⟩

/-! ### Every run -/

/-- While all goes well, a device that is not open has no FIFO. -/
structure SerialPort.Sound (s : SerialPort) : Prop where
  isOpen : s.dev.openFlag ≠ 0 ↔ s.lastOpen = true
  once : (s.heap.map Prod.fst).Nodup
  closed : s.dev.openFlag = 0 → s.dev.rxFifo = 0 ∧ s.dev.txFifo = 0 ∧ s.heap = []

theorem SerialPort.sound_registered (dev : TSerialDevice) : (registered dev).Sound where
  isOpen := iff_of_false (fun h => h rfl) (by simp [registered])
  once := List.nodup_nil
  closed := fun _ => ⟨rfl, rfl, rfl⟩

/-- What is to be shown of a call: from a sound state, it goes well exactly where the state spares
it, and then the state stays sound. -/
def SerialPort.Judged (s : SerialPort) (op : SerialOp) : Prop :=
  Verdict SerialPort.Sound SerialCall.Right (fun e => e.before.Spares e.op)
    (serialStep s op).1 (serialStep s op).2

namespace SerialPort.Sound

theorem usartClose (h : s.Sound) : s.Judged .usartClose := by
  simp only [Judged, Verdict, serialStep, List.forall_mem_singleton, Spares]
  by_cases hclosed : s.dev.openFlag = 0
  · have hret : Start01.usartClose s.dev = 0 := if_neg (not_not.mpr hclosed)
    have hnote : s.note (Start01.usartClose s.dev) false = s := by
      rw [hret, note, if_neg (fun h => h rfl)]
    rw [hnote]
    exact ⟨iff_of_true ⟨h.isOpen, h.once, fun hop => absurd rfl hop⟩ hclosed, fun _ => h⟩
  · -- the flag stays
    have hret : Start01.usartClose s.dev = 1 := if_pos hclosed
    rw [hret]
    have hwrong : ¬ SerialCall.Right ⟨.usartClose, 1, s, s.note 1 false⟩ := fun hright =>
      absurd (hright.isOpen.mp hclosed) Bool.false_ne_true
    exact ⟨iff_of_false hwrong hclosed, fun hright => absurd hright hwrong⟩

/-- An open of a device that is open already. -/
theorem usartOpen_again (h : s.Sound) (hopen : s.dev.openFlag ≠ 0) (desc : TSerialDesc)
    (a : Answers) : s.Judged (.usartOpen desc a) := by
  have hnote : s.note 1 true = s := by
    rw [note, if_pos (by decide), ← h.isOpen.mp hopen]
  simp only [Judged, Verdict, serialStep, List.forall_mem_singleton, Spares, usartOpen,
    if_pos hopen, hnote]
  exact ⟨iff_of_true ⟨h.isOpen, h.once, fun _ hzero => absurd hzero (show (1 : Int32) ≠ 0 by decide)⟩
    (.inl hopen),
    fun _ => h⟩

theorem usartOpen (h : s.Sound) (hclosed : s.dev.openFlag = 0) (desc : TSerialDesc)
    (a : Answers) : s.Judged (.usartOpen desc a) := by
  obtain ⟨hrx, htx, hheap⟩ := h.closed hclosed
  obtain ⟨ret, desc', dev, taken, heq, hret, hflag, hsub, hsame⟩ :=
    usartOpen_spec s desc a hclosed hrx htx
  have honce : (taken.map Prod.fst).Nodup := hsub.nodup (by decide)
  rw [hheap, List.nil_append] at heq
  simp only [Judged, Verdict, serialStep, List.forall_mem_singleton, Spares, heq]
  by_cases hzero : ret = 0
  · have hno : ¬ a.Granted desc.openMode := fun hg => hret.mpr hg hzero
    rw [note, if_neg (not_not.mpr hzero), or_iff_right (not_not.mpr hclosed), or_iff_right hno,
      ← hsame hzero]
    have hkept : SerialCall.Right ⟨.usartOpen desc a, ret, s, ⟨dev, taken, s.lastOpen⟩⟩ →
        dev = s.dev ∧ taken = [] := fun hright =>
      have hfailed := hright.failed (fun h => by cases h) hzero
      ⟨hfailed.1, hfailed.2.trans hheap⟩
    refine ⟨⟨hkept, ?_⟩, fun hright => ?_⟩
    · rintro ⟨rfl, rfl⟩
      exact ⟨h.isOpen, List.nodup_nil, fun _ _ => ⟨rfl, hheap.symm⟩⟩
    · obtain ⟨rfl, rfl⟩ := hkept hright
      exact ⟨h.isOpen, List.nodup_nil, fun _ => ⟨hrx, htx, rfl⟩⟩
  · have hopen := hflag.mpr hzero
    rw [note, if_pos hzero]
    refine ⟨iff_of_true ⟨?_, honce, fun _ hfail => absurd hfail hzero⟩ (.inr (.inl (hret.mp hzero))),
      fun _ => ⟨?_, honce, fun hfail => absurd hfail hopen⟩⟩
    · exact iff_of_true hopen rfl
    · exact iff_of_true hopen rfl

/-- **Step.** -/
theorem judged (h : s.Sound) (op : SerialOp) : s.Judged op := by
  cases op with
  | usartClose => exact h.usartClose
  | usartOpen desc a =>
    by_cases hclosed : s.dev.openFlag = 0
    · exact h.usartOpen hclosed desc a
    · exact h.usartOpen_again hclosed desc a

end SerialPort.Sound

/-- **Opening and closing.**  In every run of calls, under every pattern of failures, all goes well
iff each call is one that the state before it spares. -/
theorem open_close_iff (dev : TSerialDevice) (ops : List SerialOp) :
    (∀ e ∈ (trace serialStep (.registered dev) ops).2, e.Right) ↔
      ∀ e ∈ (trace serialStep (.registered dev) ops).2, e.before.Spares e.op :=
  (trace_verdict (fun _ op h => h.judged op) ops (SerialPort.sound_registered dev)).1

/-- A device that is closed is still open; and one whose driver refuses twice has two receive FIFOs
on the heap. -/
theorem open_close_not_right :
    ¬ (∀ e ∈ (trace serialStep (.registered ⟨0, 0, 0, 0, 0⟩)
        [.usartOpen ⟨1⟩ ⟨⟨0x20001010, 0x200010A0⟩, ⟨0, 0⟩, true⟩, .usartClose]).2, e.Right) ∧
    (trace serialStep (.registered ⟨0, 0, 0, 0, 0⟩)
        [.usartOpen ⟨1⟩ ⟨⟨0x20001010, 0x200010A0⟩, ⟨0, 0⟩, false⟩,
          .usartOpen ⟨1⟩ ⟨⟨0x200010C0, 0x20001150⟩, ⟨0, 0⟩, false⟩]).1.heap =
      [(.rxBuffer, 0x20001010), (.rxFifo, 0x200010A0), (.rxBuffer, 0x200010C0),
        (.rxFifo, 0x20001150)] := by
  refine ⟨fun hall => ?_, by decide⟩
  have hright := hall _ (List.mem_append_right _ (List.mem_append_left _
    (List.mem_singleton_self _)))
  exact absurd (hright.isOpen.mp (by decide)) (by decide)

end Start01
