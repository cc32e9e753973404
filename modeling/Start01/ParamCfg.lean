/-
Start01/ParamCfg.lean

Parameter devices (ParamCfg.c) and the FRAM behind one of them (fm25l16.c).

A device object is a name and a record of function pointers; `none` is the null
pointer.  The storage a device's functions work on is kept beside the object, as
a byte memory.  `float` arguments are their bit patterns: every function only
copies their four bytes.

The registered devices form a chain through `next`, newest first, headed by
`g_curTarget`.  `Param_dev_Request` searches it by name; the search carries fuel
because nothing keeps an object from being registered twice.

Of the FRAM chip the model assumes a memory of 2048 bytes whose eleven-bit
address counter advances after each byte and wraps.
-/
import Start01.Lib.Linked
import Start01.Lib.Scatter

namespace Start01

open Scatter

/-- An address in RAM. -/
abbrev Addr := ℕ

/-- The bytes behind a parameter device. -/
abbrev Store := ℕ → UInt8

/-! ### Words as bytes -/

/-- Byte `i` of a word stored little-endian. -/
def leByte (v : UInt32) (i : ℕ) : UInt8 := UInt8.ofNat (v.toNat / 256 ^ i)

/-- The word whose little-endian bytes are `b 0 … b 3`. -/
def ofLe (b : ℕ → UInt8) : UInt32 :=
  UInt32.ofNat ((b 0).toNat + 256 * (b 1).toNat + 65536 * (b 2).toNat + 16777216 * (b 3).toNat)

theorem ofLe_congr {b b' : ℕ → UInt8} (h : ∀ i < 4, b i = b' i) : ofLe b = ofLe b' := by
  unfold ofLe
  rw [h 0 (by omega), h 1 (by omega), h 2 (by omega), h 3 (by omega)]

@[simp] theorem ofLe_leByte (v : UInt32) : ofLe (leByte v) = v := by
  apply UInt32.toNat_inj.mp
  have hv := v.toNat_lt
  simp [ofLe, leByte]
  omega

theorem leByte_ofLe (b : ℕ → UInt8) {i : ℕ} (hi : i < 4) : leByte (ofLe b) i = b i := by
  apply UInt8.toNat_inj.mp
  have h0 := (b 0).toNat_lt
  have h1 := (b 1).toNat_lt
  have h2 := (b 2).toNat_lt
  have h3 := (b 3).toNat_lt
  interval_cases i <;> simp [ofLe, leByte] <;> omega

/-- The word stored at an address. -/
def wordAt (m : ℕ → UInt8) (a : ℕ) : UInt32 := ofLe fun i => m (a + i)

/-- `*(u32*)a = v`. -/
def storeWord (m : ℕ → UInt8) (a : ℕ) (v : UInt32) : ℕ → UInt8 :=
  scatter m (fun i => a + i) (leByte v) 4

@[simp] theorem wordAt_storeWord (m : ℕ → UInt8) (a : ℕ) (v : UInt32) :
    wordAt (storeWord m a v) a = v := by
  have hbytes : ∀ i < 4, storeWord m a v (a + i) = leByte v i := fun i hi =>
    scatter_apply hi fun j _ hij => by omega
  rw [wordAt, ofLe_congr hbytes, ofLe_leByte]

theorem wordAt_storeWord_of_disjoint {m : ℕ → UInt8} {a b : ℕ} {v : UInt32}
    (h : a + 4 ≤ b ∨ b + 4 ≤ a) : wordAt (storeWord m a v) b = wordAt m b :=
  ofLe_congr fun _ _ => scatter_of_forall_ne fun _ _ => by omega

/-! ### Device objects -/

/-- `struct Param_Device`. -/
structure ParamDevice where
  name : List UInt8
  init : Option (Store → Bool × Store)
  getSize : Option (Store → UInt32)
  write : Option (Store → ℤ → UInt32 → Bool × Store)
  read : Option (Store → ℤ → UInt32 → UInt32)
  writeFloat : Option (Store → ℤ → UInt32 → Bool × Store)
  readFloat : Option (Store → ℤ → UInt32 → UInt32)
  writeBuffer : Option (Store → ℤ → (ℕ → UInt8) → UInt16 → Bool × Store)
  readBuffer : Option (Store → ℤ → (ℕ → UInt8) → UInt16 → Bool × (ℕ → UInt8))
  next : Option Addr

/-- The statics of ParamCfg.c, the device objects and what they store. -/
structure ParamCfg where
  gCurTarget : Option Addr
  devs : Addr → ParamDevice
  cells : Addr → Store

/-- Before any registration.  The device objects and their cells are arbitrary. -/
def ParamCfg.reset (devs : Addr → ParamDevice) (cells : Addr → Store) : ParamCfg where
  gCurTarget := none
  devs := devs
  cells := cells

/-- `MAX_PAR_DEVICE_NAME`. -/
def maxParDeviceName : ℕ := 16

/-- `strncmp(s, t, n) == 0`. -/
def strncmpEq (s t : List UInt8) (n : ℕ) : Bool :=
  (s.take n).takeWhile (· ≠ 0) == (t.take n).takeWhile (· ≠ 0)

/-- `Param_dev_Request(name)`. -/
def paramDevRequest (fuel : ℕ) (p : ParamCfg) (name : List UInt8) : Option (Option Addr) :=
  Linked.find (fun d => (p.devs d).next)
    (fun d => strncmpEq (p.devs d).name name maxParDeviceName) fuel p.gCurTarget

/-- Calls a function that may write through a device pointer: `FALSE` where the
device or the function is missing. -/
def ParamCfg.onDevice (p : ParamCfg) (dev : Option Addr)
    (op : ParamDevice → Option (Store → Bool × Store)) : Bool × ParamCfg :=
  match dev with
  | none => (false, p)
  | some d =>
      match op (p.devs d) with
      | none => (false, p)
      | some f =>
          let r := f (p.cells d)
          (r.1, { p with cells := Function.update p.cells d r.2 })

/-- Calls a function that only reads through a device pointer: `dflt` where the
device or the function is missing. -/
def ParamCfg.askDevice {γ : Type} (p : ParamCfg) (dev : Option Addr)
    (op : ParamDevice → Option (Store → γ)) (dflt : γ) : γ :=
  match dev with
  | none => dflt
  | some d =>
      match op (p.devs d) with
      | none => dflt
      | some f => f (p.cells d)

/-- `Param_Register_Device(device)`. -/
def paramRegisterDevice (p : ParamCfg) (device : Option Addr) : Bool × ParamCfg :=
  match device with
  | none => (false, p)
  | some d =>
      let linked : ParamCfg :=
        { p with
          devs := Function.update p.devs d { p.devs d with next := p.gCurTarget }
          gCurTarget := some d }
      if (linked.devs d).init.isSome then linked.onDevice (some d) ParamDevice.init
      else (true, linked)

/-- A call through a device pointer changes cells only. -/
theorem onDevice_snd (p : ParamCfg) (dev : Option Addr)
    (op : ParamDevice → Option (Store → Bool × Store)) :
    ∃ cells, (p.onDevice dev op).2 = { p with cells := cells } := by
  unfold ParamCfg.onDevice
  split
  · exact ⟨p.cells, rfl⟩
  · split
    · exact ⟨p.cells, rfl⟩
    · exact ⟨_, rfl⟩

/-- Registering links the object in front of the list; its `Init` changes cells only. -/
theorem paramRegisterDevice_snd (p : ParamCfg) (d : Addr) :
    ∃ cells, (paramRegisterDevice p (some d)).2 =
      { devs := Function.update p.devs d { p.devs d with next := p.gCurTarget }
        gCurTarget := some d
        cells := cells } := by
  unfold paramRegisterDevice
  dsimp only
  split
  · obtain ⟨cells, h⟩ := onDevice_snd
      { p with
        devs := Function.update p.devs d { p.devs d with next := p.gCurTarget }
        gCurTarget := some d }
      (some d) ParamDevice.init
    exact ⟨cells, h⟩
  · exact ⟨p.cells, rfl⟩

/-- `Param_WriteInteger(dev, addr, value)`. -/
def paramWriteInteger (p : ParamCfg) (dev : Option Addr) (addr : ℤ) (value : UInt32) :
    Bool × ParamCfg :=
  p.onDevice dev fun d => d.write.map fun f s => f s addr value

/-- `Param_ReadInteger(dev, addr, value)`. -/
def paramReadInteger (p : ParamCfg) (dev : Option Addr) (addr : ℤ) (value : UInt32) : UInt32 :=
  p.askDevice dev (fun d => d.read.map fun f s => f s addr value) value

/-- `Param_ReadFloat(dev, addr, value)`. -/
def paramReadFloat (p : ParamCfg) (dev : Option Addr) (addr : ℤ) (value : UInt32) : UInt32 :=
  p.askDevice dev (fun d => d.readFloat.map fun f s => f s addr value) value

/-- `Param_WriteBuffer(dev, addr, data, size)`. -/
def paramWriteBuffer (p : ParamCfg) (dev : Option Addr) (addr : ℤ) (data : ℕ → UInt8)
    (size : UInt16) : Bool × ParamCfg :=
  p.onDevice dev fun d => d.writeBuffer.map fun f s => f s addr data size

/-- `Param_ReadBuffer(dev, addr, data, size)`. -/
def paramReadBuffer (p : ParamCfg) (dev : Option Addr) (addr : ℤ) (data : ℕ → UInt8)
    (size : UInt16) : Bool × (ℕ → UInt8) :=
  p.askDevice dev (fun d => d.readBuffer.map fun f s => f s addr data size) (false, data)

/-- `Param_Devsize(dev)`. -/
def paramDevsize (p : ParamCfg) (dev : Option Addr) : UInt32 :=
  p.askDevice dev (fun d => d.getSize) 0

/-- `GET_OFFSET(cmd)`. -/
def getOffset (cmd : ℕ) : ℕ := cmd * 4

/-! ### The FRAM -/

/-- The size of the chip, as `FM25L16_GetSize` reports it. -/
def framSize : ℕ := 2048

/-- The cell the chip's counter is at after `i` bytes from a `u16` address. -/
def framCell (addr : ℤ) (i : ℕ) : ℕ := ((addr % 65536).toNat + i) % framSize

/-- `FM25L16B_WriteData_Len(address, data_array, length)`. -/
def fm25l16bWriteDataLen (s : Store) (addr : ℤ) (data : ℕ → UInt8) (length : ℕ) : Store :=
  scatter s (framCell addr) data length

/-- `FM25L16B_ReadData_Len(address, data_array, length)`: the array afterwards. -/
def fm25l16bReadDataLen (s : Store) (addr : ℤ) (data : ℕ → UInt8) (length : ℕ) : ℕ → UInt8 :=
  scatter data id (fun i => s (framCell addr i)) length

/-- `DEV_FM25L16`, the characters of "fm25l16". -/
def devFm25l16 : List UInt8 := [0x66, 0x6D, 0x32, 0x35, 0x6C, 0x31, 0x36]

/-- The device object `FM25L16_Init` fills in. -/
def fm25l16Device : ParamDevice where
  name := devFm25l16
  init := some fun s => (true, s)
  getSize := some fun _ => UInt32.ofNat framSize
  write := some fun s addr v => (true, fm25l16bWriteDataLen s addr (leByte v) 4)
  read := some fun s addr v => ofLe (fm25l16bReadDataLen s addr (leByte v) 4)
  writeFloat := some fun s addr v => (true, fm25l16bWriteDataLen s addr (leByte v) 4)
  readFloat := some fun s addr v => ofLe (fm25l16bReadDataLen s addr (leByte v) 4)
  writeBuffer := some fun s addr data size => (true, fm25l16bWriteDataLen s addr data size.toNat)
  readBuffer := some fun s addr data size => (true, fm25l16bReadDataLen s addr data size.toNat)
  next := none

theorem framCell_of_lt {off i : ℕ} (h : off + i < framSize) : framCell off i = off + i := by
  simp only [framCell, framSize] at *
  omega

/-- A block that does not reach the end of the chip is stored byte by byte. -/
theorem fm25l16bWriteDataLen_apply {s : Store} {data : ℕ → UInt8} {off n i : ℕ}
    (h : off + n ≤ framSize) (hi : i < n) :
    fm25l16bWriteDataLen s off data n (off + i) = data i := by
  rw [← @framCell_of_lt off i (by omega)]
  refine scatter_apply hi fun j hj hij => ?_
  rw [framCell_of_lt (by omega), framCell_of_lt (by omega)] at hij
  omega

/-- … and the other cells keep their bytes. -/
theorem fm25l16bWriteDataLen_frame {s : Store} {data : ℕ → UInt8} {off n x : ℕ}
    (h : off + n ≤ framSize) (hx : x < off ∨ off + n ≤ x) :
    fm25l16bWriteDataLen s off data n x = s x := by
  refine scatter_of_forall_ne fun i hi => ?_
  rw [framCell_of_lt (by omega)]
  omega

/-- Reading an in-range word returns the word its four cells hold. -/
theorem ofLe_fm25l16bReadDataLen {s : Store} {data : ℕ → UInt8} {off : ℕ}
    (h : off + 4 ≤ framSize) : ofLe (fm25l16bReadDataLen s off data 4) = wordAt s off := by
  refine ofLe_congr fun i hi => ?_
  have hread : fm25l16bReadDataLen s off data 4 (id i) = s (framCell off i) :=
    scatter_apply hi fun j _ hij => hij
  rw [← @framCell_of_lt off i (by omega)]
  exact hread

/-- A word written in range is the word its cells hold. -/
theorem wordAt_fm25l16bWriteDataLen {s : Store} {data : ℕ → UInt8} {off : ℕ}
    (h : off + 4 ≤ framSize) : wordAt (fm25l16bWriteDataLen s off data 4) off = ofLe data :=
  ofLe_congr fun _ hi => fm25l16bWriteDataLen_apply h hi

theorem wordAt_fm25l16bWriteDataLen_of_disjoint {s : Store} {data : ℕ → UInt8} {off off' n : ℕ}
    (h : off + n ≤ framSize) (hdisj : off + n ≤ off' ∨ off' + 4 ≤ off) :
    wordAt (fm25l16bWriteDataLen s off data n) off' = wordAt s off' :=
  ofLe_congr fun _ _ => fm25l16bWriteDataLen_frame h (by omega)

end Start01
