/-
Start01/ParamStore.lean

The backup registers (stm32_bpk.c), and what the two parameter devices store.

The registers of the chip are words four bytes apart, register 11 and those behind
it after a gap; only the low half of a word exists, so a store of bytes as wide as
the address space serves for them too.  `bpk_Param_Write` checks its address and
keeps the low half of the value; the FRAM driver checks nothing, and the chip wraps.

Both are memories all the same.  What a call reads is what the last call that wrote
there left (`param_devices_store`): for the FRAM byte by byte, whatever the
addresses, and for the backup registers register by register, modulo 2^16.
-/
import Start01.ParamCfg

namespace Start01

open Scatter

/-! ### The backup registers -/

/-- `max_size` of stm32_bpk.c. -/
def bpkMaxSize : ℕ := 42

/-- `bpk_check_addr`. -/
def bpkCheckAddr (addr : ℤ) : Bool := 0 ≤ addr && addr < bpkMaxSize

theorem bpkCheckAddr_iff {addr : ℤ} : bpkCheckAddr addr = true ↔ 0 ≤ addr ∧ addr < 42 := by
  rw [bpkCheckAddr, Bool.and_eq_true, decide_eq_true_iff, decide_eq_true_iff]
  exact Iff.rfl

/-- `bpk_convert_addr`: the offset of a register, in a `u16`. -/
def bpkConvertAddr (addr : ℤ) : ℕ :=
  let addr := addr + 1
  if addr < 11 then (addr * 4 % 65536).toNat else ((addr * 4 + 0x14) % 65536).toNat

/-- `BKP_WriteBackupRegister(BKP_DR, Data)`. -/
def bkpWriteBackupRegister (s : Store) (dr : ℕ) (data : UInt16) : Store :=
  scatter s (fun i => dr + i) (fun i => UInt8.ofNat (data.toNat / 256 ^ i)) 2

/-- `BKP_ReadBackupRegister(BKP_DR)`. -/
def bkpReadBackupRegister (s : Store) (dr : ℕ) : UInt16 :=
  UInt16.ofNat ((s dr).toNat + 256 * (s (dr + 1)).toNat)

/-- `DEV_BPK`, the characters of "stm32_bpk". -/
def devBpk : List UInt8 := [0x73, 0x74, 0x6D, 0x33, 0x32, 0x5F, 0x62, 0x70, 0x6B]

/-- The device object `bpk_dev`. -/
def stm32BpkDevice : ParamDevice where
  name := devBpk
  init := some fun s => (true, s)
  getSize := some fun _ => UInt32.ofNat bpkMaxSize
  write := some fun s addr v =>
    if bpkCheckAddr addr then
      (true, bkpWriteBackupRegister s (bpkConvertAddr addr) (v &&& 0xFFFF).toUInt16)
    else (false, s)
  read := some fun s addr v =>
    if bpkCheckAddr addr then (bkpReadBackupRegister s (bpkConvertAddr addr)).toUInt32 else v
  writeFloat := some fun s _ _ => (false, s)
  readFloat := some fun _ _ v => v
  writeBuffer := some fun s _ _ _ => (false, s)
  readBuffer := some fun _ _ data _ => (false, data)
  next := none

@[simp] theorem bkpReadBackupRegister_write (s : Store) (dr : ℕ) (data : UInt16) :
    bkpReadBackupRegister (bkpWriteBackupRegister s dr data) dr = data := by
  have hbytes : ∀ i < 2, bkpWriteBackupRegister s dr data (dr + i)
      = UInt8.ofNat (data.toNat / 256 ^ i) := fun i hi => scatter_apply hi fun j _ hij => by omega
  have h0 := hbytes 0 (by omega)
  have h1 := hbytes 1 (by omega)
  rw [Nat.add_zero] at h0
  have hdata := data.toNat_lt
  apply UInt16.toNat_inj.mp
  rw [bkpReadBackupRegister, h0, h1]
  simp
  omega

theorem bkpReadBackupRegister_write_of_disjoint {s : Store} {dr dr' : ℕ} {data : UInt16}
    (h : dr + 2 ≤ dr' ∨ dr' + 2 ≤ dr) :
    bkpReadBackupRegister (bkpWriteBackupRegister s dr data) dr' = bkpReadBackupRegister s dr' := by
  have hbyte : ∀ i < 2, bkpWriteBackupRegister s dr data (dr' + i) = s (dr' + i) :=
    fun i _ => scatter_of_forall_ne fun j _ => by omega
  have h0 := hbyte 0 (by omega)
  rw [Nat.add_zero] at h0
  rw [bkpReadBackupRegister, h0, hbyte 1 (by omega)]
  rfl

/-- Different registers lie four bytes apart at least. -/
theorem bpkConvertAddr_disjoint {addr addr' : ℤ} (h : bpkCheckAddr addr = true)
    (h' : bpkCheckAddr addr' = true) (hne : addr ≠ addr') :
    bpkConvertAddr addr + 2 ≤ bpkConvertAddr addr' ∨
      bpkConvertAddr addr' + 2 ≤ bpkConvertAddr addr := by
  rw [bpkCheckAddr_iff] at h h'
  simp only [bpkConvertAddr]
  split <;> split <;> omega

/-! ### Calls -/

/-- The calls of a parameter device. -/
inductive ParamCall
  | write (addr : ℤ) (value : UInt32)
  | writeBuffer (addr : ℤ) (data : ℕ → UInt8) (size : UInt16)
  | read (addr : ℤ) (value : UInt32)
  | readBuffer (addr : ℤ) (data : ℕ → UInt8) (size : UInt16)

/-- What a call returns: for a read, the value, or the buffer afterwards. -/
inductive ParamRet
  | wrote (ok : Bool)
  | value (v : UInt32)
  | buffer (ok : Bool) (data : ℕ → UInt8)

/-- A call through the functions of ParamCfg.c. -/
def paramCall (p : ParamCfg) (d : Addr) : ParamCall → ParamRet × ParamCfg
  | .write addr value =>
      let r := paramWriteInteger p (some d) addr value
      (.wrote r.1, r.2)
  | .writeBuffer addr data size =>
      let r := paramWriteBuffer p (some d) addr data size
      (.wrote r.1, r.2)
  | .read addr value => (.value (paramReadInteger p (some d) addr value), p)
  | .readBuffer addr data size =>
      let r := paramReadBuffer p (some d) addr data size
      (.buffer r.1 r.2, p)

/-- The state after a list of calls. -/
def paramCalls (p : ParamCfg) (d : Addr) (cs : List ParamCall) : ParamCfg :=
  cs.foldl (fun p c => (paramCall p d c).2) p

/-- The device object is one of the two, linked wherever it may be. -/
def ParamCfg.Holds (p : ParamCfg) (d : Addr) (dev : ParamDevice) : Prop :=
  ∃ next, p.devs d = { dev with next := next }

/-- What each call keeps, a list of calls keeps. -/
theorem paramCalls_keep {I : ParamCfg → Prop} {d : Addr} {cs : List ParamCall} :
    ∀ {p : ParamCfg}, (∀ p, ∀ c ∈ cs, I p → I (paramCall p d c).2) → I p →
      I (paramCalls p d cs) := by
  induction cs with
  | nil => exact fun _ h => h
  | cons c cs ih =>
    intro p hstep h
    exact ih (fun p c' hc' => hstep p c' (List.mem_cons_of_mem c hc'))
      (hstep p c List.mem_cons_self h)

theorem ParamCfg.Holds.call {p : ParamCfg} {d : Addr} {dev : ParamDevice} (h : p.Holds d dev)
    (c : ParamCall) : (paramCall p d c).2.Holds d dev := by
  obtain ⟨next, hdev⟩ := h
  refine ⟨next, ?_⟩
  cases c with
  | write addr value =>
    obtain ⟨cells, hcells⟩ := onDevice_snd p (some d) fun d => d.write.map fun f s => f s addr value
    exact (congrArg (fun q => ParamCfg.devs q d) hcells).trans hdev
  | writeBuffer addr data size =>
    obtain ⟨cells, hcells⟩ :=
      onDevice_snd p (some d) fun d => d.writeBuffer.map fun f s => f s addr data size
    exact (congrArg (fun q => ParamCfg.devs q d) hcells).trans hdev
  | read addr value => exact hdev
  | readBuffer addr data size => exact hdev

theorem ParamCfg.Holds.calls {p : ParamCfg} {d : Addr} {dev : ParamDevice} (h : p.Holds d dev)
    (cs : List ParamCall) : (paramCalls p d cs).Holds d dev :=
  @paramCalls_keep (fun q => q.Holds d dev) d cs p (fun _ c _ hq => hq.call c) h

/-- The bytes behind a device replaced. -/
def ParamCfg.setCells (p : ParamCfg) (d : Addr) (s : Store) : ParamCfg :=
  { p with cells := Function.update p.cells d s }

@[simp] theorem ParamCfg.setCells_cells (p : ParamCfg) (d : Addr) (s : Store) :
    (p.setCells d s).cells d = s := Function.update_self ..

@[simp] theorem ParamCfg.setCells_self (p : ParamCfg) (d : Addr) : p.setCells d (p.cells d) = p := by
  rw [setCells, Function.update_eq_self]

/-- A call on one of the two, with its functions put in. -/
theorem ParamCfg.Holds.call_eq {p : ParamCfg} {d : Addr} {dev : ParamDevice} (h : p.Holds d dev)
    (c : ParamCall) :
    paramCall p d c = match c with
      | .write addr value => match dev.write with
        | none => (.wrote false, p)
        | some f => (.wrote (f (p.cells d) addr value).1, p.setCells d (f (p.cells d) addr value).2)
      | .writeBuffer addr data size => match dev.writeBuffer with
        | none => (.wrote false, p)
        | some f => (.wrote (f (p.cells d) addr data size).1,
            p.setCells d (f (p.cells d) addr data size).2)
      | .read addr value => match dev.read with
        | none => (.value value, p)
        | some f => (.value (f (p.cells d) addr value), p)
      | .readBuffer addr data size => match dev.readBuffer with
        | none => (.buffer false data, p)
        | some f => (.buffer (f (p.cells d) addr data size).1 (f (p.cells d) addr data size).2, p) := by
  obtain ⟨next, hdev⟩ := h
  cases c with
  | write addr value =>
    simp only [paramCall, paramWriteInteger, ParamCfg.onDevice, hdev]
    cases dev.write <;> rfl
  | writeBuffer addr data size =>
    simp only [paramCall, paramWriteBuffer, ParamCfg.onDevice, hdev]
    cases dev.writeBuffer <;> rfl
  | read addr value =>
    simp only [paramCall, paramReadInteger, ParamCfg.askDevice, hdev]
    cases dev.read <;> rfl
  | readBuffer addr data size =>
    simp only [paramCall, paramReadBuffer, ParamCfg.askDevice, hdev]
    cases dev.readBuffer <;> rfl

/-! ### The FRAM, byte by byte -/

/-- The address of a call. -/
def ParamCall.addr : ParamCall → ℤ
  | .write addr _ | .writeBuffer addr _ _ | .read addr _ | .readBuffer addr _ _ => addr

/-- The bytes a call writes or reads. -/
def ParamCall.len : ParamCall → ℕ
  | .write _ _ | .read _ _ => 4
  | .writeBuffer _ _ size | .readBuffer _ _ size => size.toNat

/-- The call writes. -/
def ParamCall.isWrite : ParamCall → Bool
  | .write _ _ | .writeBuffer _ _ _ => true
  | .read _ _ | .readBuffer _ _ _ => false

/-- What is passed to a write, byte by byte. -/
def ParamCall.byte : ParamCall → ℕ → UInt8
  | .write _ value | .read _ value => leByte value
  | .writeBuffer _ data _ | .readBuffer _ data _ => data

/-- What a read returned, byte by byte. -/
def ParamRet.byte : ParamRet → ℕ → UInt8
  | .wrote _ => fun _ => 0
  | .value v => leByte v
  | .buffer _ data => data

/-- A write has the cell in its block. -/
def ParamCall.Covers (c : ParamCall) (x : ℕ) : Prop :=
  c.isWrite = true ∧ ∃ i < c.len, framCell c.addr i = x

theorem fram_read_byte {p : ParamCfg} {d : Addr} (h : p.Holds d fm25l16Device) {r : ParamCall}
    (hr : r.isWrite = false) {j : ℕ} (hj : j < r.len) :
    (paramCall p d r).1.byte j = p.cells d (framCell r.addr j) := by
  rw [h.call_eq]
  have hcell : ∀ (s : Store) (addr : ℤ) (data : ℕ → UInt8) {n j : ℕ}, j < n →
      fm25l16bReadDataLen s addr data n j = s (framCell addr j) := by
    intro s addr data n j hj
    have hread : fm25l16bReadDataLen s addr data n (id j) = s (framCell addr j) :=
      scatter_apply hj fun _ _ hij => hij
    exact hread
  cases r with
  | read addr value =>
    show leByte (ofLe _) j = _
    rw [leByte_ofLe _ hj]
    exact hcell _ _ _ hj
  | readBuffer addr data size => exact hcell _ _ _ hj
  | write addr value => cases hr
  | writeBuffer addr data size => cases hr

theorem fram_call_of_not_covers {p : ParamCfg} {d : Addr} (h : p.Holds d fm25l16Device)
    {c : ParamCall} {x : ℕ} (hc : ¬ c.Covers x) :
    (paramCall p d c).2.cells d x = p.cells d x := by
  rw [h.call_eq]
  have hframe : ∀ i < c.len, c.isWrite = true → x ≠ framCell c.addr i :=
    fun i hi hw hx => hc ⟨hw, i, hi, hx.symm⟩
  cases c with
  | write addr value =>
    show (p.setCells d _).cells d x = _
    rw [ParamCfg.setCells_cells]
    exact scatter_of_forall_ne fun i hi => hframe i hi rfl
  | writeBuffer addr data size =>
    show (p.setCells d _).cells d x = _
    rw [ParamCfg.setCells_cells]
    exact scatter_of_forall_ne fun i hi => hframe i hi rfl
  | read addr value => rfl
  | readBuffer addr data size => rfl

/-- Within the size of the chip, a block has every cell once. -/
theorem framCell_inj {addr : ℤ} {n i j : ℕ} (hn : n ≤ framSize) (hi : i < n) (hj : j < n)
    (h : framCell addr i = framCell addr j) : i = j := by
  simp only [framCell, framSize] at *
  omega

theorem fram_write_byte {p : ParamCfg} {d : Addr} (h : p.Holds d fm25l16Device) {w : ParamCall}
    (hw : w.isWrite = true) (hlen : w.len ≤ framSize) {i : ℕ} (hi : i < w.len) :
    (paramCall p d w).2.cells d (framCell w.addr i) = w.byte i := by
  rw [h.call_eq]
  have hinj : ∀ j < w.len, framCell w.addr j = framCell w.addr i → j = i :=
    fun j hj hij => framCell_inj hlen hj hi hij
  cases w with
  | write addr value =>
    show (p.setCells d _).cells d _ = _
    rw [ParamCfg.setCells_cells]
    exact scatter_apply hi hinj
  | writeBuffer addr data size =>
    show (p.setCells d _).cells d _ = _
    rw [ParamCfg.setCells_cells]
    exact scatter_apply hi hinj
  | read addr value => cases hw
  | readBuffer addr data size => cases hw

/-- The FRAM from a state on: a cell that a write has in its block is read as that
write left it, whatever is called in between beside the cell; and a write changes
no cell beside its block. -/
structure FramStores (p : ParamCfg) (d : Addr) : Prop where
  readBack : ∀ w r cs i j, w.isWrite = true → w.len ≤ framSize →
    (paramCall p d w).1 = .wrote true → r.isWrite = false → i < w.len → j < r.len →
    framCell r.addr j = framCell w.addr i → (∀ c ∈ cs, ¬ c.Covers (framCell w.addr i)) →
    (paramCall (paramCalls (paramCall p d w).2 d cs) d r).1.byte j = w.byte i
  frame : ∀ w r j, r.isWrite = false → j < r.len → ¬ w.Covers (framCell r.addr j) →
    (paramCall (paramCall p d w).2 d r).1.byte j = (paramCall p d r).1.byte j

theorem ParamCfg.Holds.framStores {p : ParamCfg} {d : Addr} (h : p.Holds d fm25l16Device) :
    FramStores p d where
  readBack w r cs i j hw hlen _ hr hi hj hcell hcs := by
    have hstart := fram_write_byte h hw hlen hi
    -- the cell keeps its byte over the calls in between
    have hkept := @paramCalls_keep
      (fun q => q.Holds d fm25l16Device ∧ q.cells d (framCell w.addr i) = w.byte i) d cs
      (paramCall p d w).2
      (fun q c hc hq => ⟨hq.1.call c, (fram_call_of_not_covers hq.1 (hcs c hc)).trans hq.2⟩)
      ⟨h.call w, hstart⟩
    rw [fram_read_byte hkept.1 hr hj, hcell]
    exact hkept.2
  frame w r j hr hj hcov := by
    rw [fram_read_byte (h.call w) hr hj, fram_read_byte h hr hj]
    exact fram_call_of_not_covers h hcov

/-! ### The backup registers, one by one -/

/-- The value of a register. -/
def bpkReg (p : ParamCfg) (d : Addr) (addr : ℤ) : UInt16 :=
  bkpReadBackupRegister (p.cells d) (bpkConvertAddr addr)

theorem bpk_write_eq {p : ParamCfg} {d : Addr} (h : p.Holds d stm32BpkDevice) (addr : ℤ)
    (value : UInt32) :
    paramCall p d (.write addr value) = if bpkCheckAddr addr then
        (.wrote true, p.setCells d
          (bkpWriteBackupRegister (p.cells d) (bpkConvertAddr addr) (value &&& 0xFFFF).toUInt16))
      else (.wrote false, p) := by
  rw [h.call_eq]
  cases hcheck : bpkCheckAddr addr with
  | true => simp [stm32BpkDevice, hcheck]
  | false => simp [stm32BpkDevice, hcheck]

theorem bpk_writeBuffer_eq {p : ParamCfg} {d : Addr} (h : p.Holds d stm32BpkDevice) (addr : ℤ)
    (data : ℕ → UInt8) (size : UInt16) :
    paramCall p d (.writeBuffer addr data size) = (.wrote false, p) := by
  rw [h.call_eq]
  simp [stm32BpkDevice]

theorem bpk_read_eq {p : ParamCfg} {d : Addr} (h : p.Holds d stm32BpkDevice) (addr : ℤ)
    (value : UInt32) :
    paramCall p d (.read addr value)
      = (.value (if bpkCheckAddr addr then (bpkReg p d addr).toUInt32 else value), p) := by
  rw [h.call_eq]
  rfl

/-- A call that does not write the register leaves it alone. -/
theorem bpkReg_call {p : ParamCfg} {d : Addr} (h : p.Holds d stm32BpkDevice) {c : ParamCall}
    {addr : ℤ} (haddr : bpkCheckAddr addr = true) (hc : ∀ v, c ≠ .write addr v) :
    bpkReg (paramCall p d c).2 d addr = bpkReg p d addr := by
  cases c with
  | write addr' value =>
    rw [bpk_write_eq h]
    cases hcheck : bpkCheckAddr addr' with
    | false => rfl
    | true =>
      have hne : addr' ≠ addr := fun e => hc value (e ▸ rfl)
      show bkpReadBackupRegister ((p.setCells d _).cells d) _ = _
      rw [ParamCfg.setCells_cells]
      exact bkpReadBackupRegister_write_of_disjoint (bpkConvertAddr_disjoint hcheck haddr hne)
  | writeBuffer addr' data size => rw [bpk_writeBuffer_eq h]
  | read addr' value => rfl
  | readBuffer addr' data size => rfl

/-- The backup registers from a state on: what a successful write leaves in a
register is read, modulo 2^16, until the register is written again; another
register keeps its value; a write outside changes nothing. -/
structure BpkStores (p : ParamCfg) (d : Addr) : Prop where
  readBack : ∀ addr value cs dflt, (paramCall p d (.write addr value)).1 = .wrote true →
    (∀ c ∈ cs, ∀ v, c ≠ .write addr v) →
    (paramCall (paramCalls (paramCall p d (.write addr value)).2 d cs) d (.read addr dflt)).1
      = .value (UInt32.ofNat (value.toNat % 65536))
  frame : ∀ w addr dflt, (∀ v, w ≠ .write addr v) →
    (paramCall (paramCall p d w).2 d (.read addr dflt)).1 = (paramCall p d (.read addr dflt)).1
  outside : ∀ w, w.isWrite = true → ¬ (0 ≤ w.addr ∧ w.addr < ((paramDevsize p (some d)).toNat : ℤ)) →
    paramCall p d w = (.wrote false, p)
  notBuffer : ∀ w, w.isWrite = true → (∀ addr v, w ≠ .write addr v) →
    paramCall p d w = (.wrote false, p)

theorem paramDevsize_bpk {p : ParamCfg} {d : Addr} (h : p.Holds d stm32BpkDevice) :
    paramDevsize p (some d) = 42 := by
  obtain ⟨next, hdev⟩ := h
  simp only [paramDevsize, ParamCfg.askDevice, hdev]
  rfl

theorem ParamCfg.Holds.bpkStores {p : ParamCfg} {d : Addr} (h : p.Holds d stm32BpkDevice) :
    BpkStores p d where
  readBack addr value cs dflt hok hcs := by
    -- the write succeeded, so the register exists
    have hcheck : bpkCheckAddr addr = true := by
      rw [bpk_write_eq h] at hok
      by_contra hno
      rw [if_neg hno] at hok
      cases hok
    have hlow : (value &&& 0xFFFF).toUInt16.toNat = value.toNat % 65536 := by
      have hand := fun n => Nat.and_two_pow_sub_one_eq_mod n 16
      simp only [Nat.reducePow, Nat.reduceSub] at hand
      simp [hand]
    have hkept := @paramCalls_keep
      (fun q => q.Holds d stm32BpkDevice ∧ bpkReg q d addr = (value &&& 0xFFFF).toUInt16) d cs
      (paramCall p d (.write addr value)).2
      (fun q c hc hq => ⟨hq.1.call c, (bpkReg_call hq.1 hcheck (hcs c hc)).trans hq.2⟩)
      ⟨h.call _, by rw [bpk_write_eq h, if_pos hcheck, bpkReg]; simp⟩
    rw [bpk_read_eq hkept.1, if_pos hcheck, hkept.2]
    refine congrArg ParamRet.value (UInt32.toNat_inj.mp ?_)
    rw [UInt16.toNat_toUInt32, hlow, UInt32.toNat_ofNat']
    omega
  frame w addr dflt hw := by
    rw [bpk_read_eq (h.call w), bpk_read_eq h]
    cases hcheck : bpkCheckAddr addr with
    | true => rw [if_pos rfl, if_pos rfl, bpkReg_call h hcheck hw]
    | false => rfl
  outside w hw hout := by
    rw [paramDevsize_bpk h] at hout
    cases w with
    | write addr value =>
      have hno : ¬ bpkCheckAddr addr = true := fun hcheck => hout (bpkCheckAddr_iff.mp hcheck)
      rw [bpk_write_eq h, if_neg hno]
    | writeBuffer addr data size => exact bpk_writeBuffer_eq h addr data size
    | read addr value => cases hw
    | readBuffer addr data size => cases hw
  notBuffer w hw hno := by
    cases w with
    | write addr value => exact absurd rfl (hno addr value)
    | writeBuffer addr data size => exact bpk_writeBuffer_eq h addr data size
    | read addr value => cases hw
    | readBuffer addr data size => cases hw

/-- **Both devices are memories**, from every state that a sequence of calls reaches. -/
theorem param_devices_store (p : ParamCfg) (d : Addr) (calls : List ParamCall) :
    (p.Holds d fm25l16Device → FramStores (paramCalls p d calls) d) ∧
    (p.Holds d stm32BpkDevice → BpkStores (paramCalls p d calls) d) :=
  ⟨fun h => (h.calls calls).framStores, fun h => (h.calls calls).bpkStores⟩

/-- One device object at every address, and cells that hold zero. -/
def blankCfg (dev : ParamDevice) : ParamCfg := .reset (fun _ => dev) fun _ _ => 0

/-- Calls to write and to read, some of them beyond the end. -/
def someCalls : List ParamCall :=
  [.write 4 0x44332211, .read 4 0, .write 2046 7, .writeBuffer 10 (fun i => UInt8.ofNat i) 3,
    .write 5 0x10005, .readBuffer 10 (fun _ => 0) 3, .read 42 1]

theorem param_devices_store_blank :
    FramStores (paramCalls (blankCfg fm25l16Device) 0 someCalls) 0 ∧
    BpkStores (paramCalls (blankCfg stm32BpkDevice) 0 someCalls) 0 ∧
    (paramCall (paramCalls (blankCfg fm25l16Device) 0 someCalls) 0 (.read 4 0)).1
      = .value 0x01000511 ∧
    (paramCall (paramCalls (blankCfg stm32BpkDevice) 0 someCalls) 0 (.read 5 0)).1 = .value 5 := by
  refine ⟨(param_devices_store (blankCfg fm25l16Device) 0 someCalls).1 ⟨none, rfl⟩,
    (param_devices_store (blankCfg stm32BpkDevice) 0 someCalls).2 ⟨none, rfl⟩, ?_, ?_⟩
  all_goals exact congrArg ParamRet.value (by decide)

/-- A backup register that is sent 10005 hex answers `TRUE` and holds 5; a word sent
to the last cell but one of the FRAM answers `TRUE`, and half of it is in the first
two cells. -/
theorem param_devices_truncate_and_wrap :
    (∃ p, paramCall (blankCfg stm32BpkDevice) 0 (.write 0 0x10005) = (.wrote true, p) ∧
      (paramCall p 0 (.read 0 0)).1 = .value 5) ∧
    (∃ p, paramCall (blankCfg fm25l16Device) 0 (.write 2046 0x44332211) = (.wrote true, p) ∧
      (paramCall (blankCfg fm25l16Device) 0 (.read 0 0)).1 = .value 0 ∧
      (paramCall p 0 (.read 0 0)).1 = .value 0x4433) := by
  refine ⟨⟨_, rfl, ?_⟩, ⟨_, rfl, ?_, ?_⟩⟩
  all_goals exact congrArg ParamRet.value (by decide)

end Start01
