/-
Start01/FramBus.lean

The FRAM driver of fm25l16.c on the pins.  The byte primitive lowers chip select and the
functions raise it, so where a transaction begins and ends is settled by both; the chip takes the
first byte of a transaction as its command, and carries out `WREN` when chip select rises.

Each of the six functions leaves the chip deselected, with the transactions of
`FramOp.transactions` behind it (`FramOp.exec_rest`).  `FM25L16B_WriteData` and
`FM25L16B_WriteData_Len` raise chip select behind `WREN`; `FM25L16B_WriteSTA` does not, so its
`WRSR` is a byte of the transaction that `WREN` began, and no command (`framRight_iff`).
-/
import Start01.Lib.Run
import Start01.Lib.Spi
import Start01.ParamCfg

namespace Start01

open Spi Run Scatter

namespace FramBus

/-! ### Commands -/

/-- `FM25L16B_CMD_WREN`. -/
def cmdWren : UInt8 := 0x06

/-- `FM25L16B_CMD_WRDI`. -/
def cmdWrdi : UInt8 := 0x04

/-- `FM25L16B_CMD_RDSR`. -/
def cmdRdsr : UInt8 := 0x05

/-- `FM25L16B_CMD_WRSR`. -/
def cmdWrsr : UInt8 := 0x01

/-- `FM25L16B_CMD_READ`. -/
def cmdRead : UInt8 := 0x03

/-- `FM25L16B_CMD_WRITE`. -/
def cmdWrite : UInt8 := 0x02

/-! ### The driver -/

section Driver

-- the level of SO, as the chip drives it
variable (so : Slave → Bool)

/-- The loop of `FM25L16B_WriteRead`, with the rounds that are left. -/
def writeReadLoop : ℕ → UInt8 → UInt8 → Slave → UInt8 × Slave
  | 0, _, dataIn, s => (dataIn, s)
  | i + 1, cmd, dataIn, s =>
      let s := s.pin .sckLow
      let s := s.pin (if cmd &&& 0x80 = 0x80 then .siHigh else .siLow)
      let cmd := cmd <<< 1
      let s := s.pin .sckHigh
      let dataIn := dataIn <<< 1 ||| if so s then 1 else 0
      writeReadLoop i cmd dataIn s

/-- `FM25L16B_WriteRead(cmd)`. -/
def fm25l16bWriteRead (cmd : UInt8) (s : Slave) : UInt8 × Slave :=
  let s := s.pin .csLow
  let r := writeReadLoop so 8 cmd 0 s
  (r.1, r.2.pin .sckLow)

/-- `FM25L16B_WriteSTA(data)`. -/
def fm25l16bWriteSTA (data : UInt8) (s : Slave) : Slave :=
  let s := s.pin .csLow
  let s := (fm25l16bWriteRead so cmdWren s).2
  let s := (fm25l16bWriteRead so cmdWrsr s).2
  let s := (fm25l16bWriteRead so data s).2
  s.pin .csHigh

/-- `FM25L16B_ReadSTA()`. -/
def fm25l16bReadSTA (s : Slave) : UInt8 × Slave :=
  let s := s.pin .csLow
  let s := (fm25l16bWriteRead so cmdRdsr s).2
  let r := fm25l16bWriteRead so 0xFF s
  (r.1, r.2.pin .csHigh)

/-- `FM25L16B_ReadData(address)`. -/
def fm25l16bReadData (address : UInt16) (s : Slave) : UInt8 × Slave :=
  let s := s.pin .csLow
  let s := (fm25l16bWriteRead so cmdRead s).2
  let s := (fm25l16bWriteRead so (address >>> 8).toUInt8 s).2
  let s := (fm25l16bWriteRead so (address &&& 0xFF).toUInt8 s).2
  let r := fm25l16bWriteRead so 0xFF s
  (r.1, r.2.pin .csHigh)

/-- The loop of `FM25L16B_ReadData_Len`, from index `i` on. -/
def readLoop : ℕ → ℕ → (ℕ → UInt8) → Slave → (ℕ → UInt8) × Slave
  | 0, _, data, s => (data, s)
  | n + 1, i, data, s =>
      let r := fm25l16bWriteRead so 0xFF s
      readLoop n (i + 1) (Function.update data i r.1) r.2

/-- `FM25L16B_ReadData_Len(address, data_array, length)`: the array afterwards. -/
def fm25l16bReadDataLen (address : UInt16) (data : ℕ → UInt8) (length : UInt16) (s : Slave) :
    (ℕ → UInt8) × Slave :=
  let s := s.pin .csLow
  let s := (fm25l16bWriteRead so cmdRead s).2
  let s := (fm25l16bWriteRead so (address >>> 8).toUInt8 s).2
  let s := (fm25l16bWriteRead so (address &&& 0xFF).toUInt8 s).2
  let r := readLoop so length.toNat 0 data s
  (r.1, r.2.pin .csHigh)

/-- `FM25L16B_WriteData(address, data)`. -/
def fm25l16bWriteData (address : UInt16) (data : UInt8) (s : Slave) : Slave :=
  let s := s.pin .csLow
  let s := (fm25l16bWriteRead so cmdWren s).2
  let s := s.pin .csHigh
  let s := (fm25l16bWriteRead so cmdWrite s).2
  let s := (fm25l16bWriteRead so (address >>> 8).toUInt8 s).2
  let s := (fm25l16bWriteRead so (address &&& 0xFF).toUInt8 s).2
  let s := (fm25l16bWriteRead so data s).2
  let s := s.pin .csHigh
  let s := (fm25l16bWriteRead so cmdWrdi s).2
  s.pin .csHigh

/-- The loop of `FM25L16B_WriteData_Len`, from index `i` on. -/
def writeLoop : ℕ → ℕ → (ℕ → UInt8) → Slave → Slave
  | 0, _, _, s => s
  | n + 1, i, data, s => writeLoop n (i + 1) data (fm25l16bWriteRead so (data i) s).2

/-- `FM25L16B_WriteData_Len(address, data_array, length)`. -/
def fm25l16bWriteDataLen (address : UInt16) (data : ℕ → UInt8) (length : UInt16) (s : Slave) :
    Slave :=
  let s := s.pin .csLow
  let s := (fm25l16bWriteRead so cmdWren s).2
  let s := s.pin .csHigh
  let s := (fm25l16bWriteRead so cmdWrite s).2
  let s := (fm25l16bWriteRead so (address >>> 8).toUInt8 s).2
  let s := (fm25l16bWriteRead so (address &&& 0xFF).toUInt8 s).2
  let s := writeLoop so length.toNat 0 data s
  let s := s.pin .csHigh
  let s := (fm25l16bWriteRead so cmdWrdi s).2
  s.pin .csHigh

end Driver

/-! ### The chip -/

/-- A chip, by what a transaction makes of its state when chip select rises. -/
structure Chip (γ : Type*) where
  transact : γ → List UInt8 → γ
  /-- The write enable latch. -/
  wel : γ → Bool

/-- `WREN` takes effect when chip select rises. -/
def Chip.WrenAtRise {γ : Type*} (chip : Chip γ) : Prop :=
  ∀ c, chip.wel (chip.transact c [cmdWren]) = true

/-- The FRAM: its latch and its memory.  The status register is left out, and with it the
protection of blocks. -/
structure Fram where
  wel : Bool
  mem : Store

/-- The address in two bytes. -/
def addressOf (hi lo : UInt8) : ℤ := hi.toNat * 256 + lo.toNat

/-- What a transaction does when chip select rises. -/
def Fram.transact (c : Fram) : List UInt8 → Fram
  | [] => c
  | cmd :: rest =>
      if cmd = cmdWren then { c with wel := true }
      else if cmd = cmdWrite then
        match rest with
        | hi :: lo :: data =>
            if c.wel then
              ⟨false, scatter c.mem (framCell (addressOf hi lo)) (fun i => data.getD i 0) data.length⟩
            else c
        | _ => c
      else if cmd = cmdWrsr ∨ cmd = cmdWrdi then { c with wel := false }
      else c

/-- The FRAM as a chip on the bus. -/
def fm25l16b : Chip Fram := ⟨Fram.transact, Fram.wel⟩

theorem wrenAtRise_fm25l16b : fm25l16b.WrenAtRise := fun _ => rfl

/-- The byte that goes out while byte `i` of a transaction comes in. -/
def Fram.out (c : Fram) (bytes : List UInt8) (i : ℕ) : UInt8 :=
  match bytes with
  | cmd :: hi :: lo :: _ =>
      if cmd = cmdRead ∧ 3 ≤ i then c.mem (framCell (addressOf hi lo) (i - 3)) else 0
  | _ => 0

/-- SO behind a rise of the clock, of a chip that was in the state `c`: the bit that belongs to the
one that has come in. -/
def Fram.so (c : Fram) (s : Slave) : Bool :=
  let c := s.done.foldl Fram.transact c
  if s.count = 0 then (c.out s.bytes (s.bytes.length - 1)).toNat.testBit 0
  else (c.out s.bytes s.bytes.length).toNat.testBit (8 - s.count)

section Bus

variable (so : Slave → Bool) {s : Slave} {ts : List (List UInt8)} {bs : List UInt8} {k v : ℕ}

/-! ### One byte -/

/-- A round is a bit on the line and a clock. -/
theorem writeReadLoop_succ (i : ℕ) (cmd dataIn : UInt8) (s : Slave) :
    writeReadLoop so (i + 1) cmd dataIn s =
      writeReadLoop so i (cmd <<< 1) (shiftIn dataIn (so (s.clock (128 ≤ cmd.toNat))))
        (s.clock (128 ≤ cmd.toNat)) := by
  rw [← top_eq]
  simp only [writeReadLoop, Slave.clock, decide_eq_true_eq, shiftIn]

/-- The rounds that are left put out what is left of the byte `c`. -/
theorem writeReadLoop_taking {c : UInt8} (n : ℕ) :
    ∀ {s : Slave} {k v : ℕ} {cmd dataIn : UInt8}, Taking s ts bs k v → k + (n + 1) = 8 →
      256 * v + cmd.toNat = c.toNat * 2 ^ k →
      Taking (writeReadLoop so (n + 1) cmd dataIn s).2 ts (bs ++ [c]) 0 0 := by
  have hc := c.toNat_lt
  induction n with
  | zero =>
    intro s k v cmd dataIn h hk hv
    obtain rfl : k = 7 := by omega
    have hlt := cmd.toNat_lt
    have hlast := h.clock_last (128 ≤ cmd.toNat)
    have hbit : 2 * v + (decide (128 ≤ cmd.toNat)).toNat = c.toNat := by
      by_cases htop : 128 ≤ cmd.toNat
      · rw [decide_eq_true htop, Bool.toNat_true]
        omega
      · rw [decide_eq_false htop, Bool.toNat_false]
        omega
    rw [hbit, UInt8.ofNat_toNat] at hlast
    rwa [writeReadLoop_succ so]
  | succ n ih =>
    intro s k v cmd dataIn h hk hv
    have hlt := cmd.toNat_lt
    have hnext := h.clock (by omega) (128 ≤ cmd.toNat)
    rw [writeReadLoop_succ so]
    refine ih hnext (by omega) ?_
    rw [toNat_shiftLeft_one, pow_succ, ← mul_assoc, ← hv]
    by_cases htop : 128 ≤ cmd.toNat
    · rw [decide_eq_true htop, Bool.toNat_true]
      omega
    · rw [decide_eq_false htop, Bool.toNat_false]
      omega

/-- **`FM25L16B_WriteRead`** adds its byte to the transaction. -/
theorem writeRead (h : Taking s ts bs 0 0) (cmd : UInt8) :
    Taking (fm25l16bWriteRead so cmd s).2 ts (bs ++ [cmd]) 0 0 :=
  (writeReadLoop_taking so 7 h.select rfl (by omega)).sckLow

/-- It begins one where there is none. -/
theorem writeRead_rest (h : Rest s ts) (cmd : UInt8) :
    Taking (fm25l16bWriteRead so cmd s).2 ts [cmd] 0 0 :=
  (writeReadLoop_taking so 7 h.select rfl (by omega)).sckLow

theorem writeLoop_taking (n : ℕ) (data : ℕ → UInt8) :
    ∀ {s : Slave} {bs : List UInt8} (i : ℕ), Taking s ts bs 0 0 →
      Taking (writeLoop so n i data s) ts (bs ++ (List.range' i n).map data) 0 0 := by
  induction n with
  | zero =>
    intro s bs i h
    rwa [List.range'_zero, List.map_nil, List.append_nil]
  | succ n ih =>
    intro s bs i h
    rw [List.range'_succ, List.map_cons, List.append_cons]
    exact ih (i + 1) (writeRead so h (data i))

theorem readLoop_taking (n : ℕ) :
    ∀ {s : Slave} {bs : List UInt8} {i : ℕ} {data : ℕ → UInt8}, Taking s ts bs 0 0 →
      Taking (readLoop so n i data s).2 ts (bs ++ List.replicate n 0xFF) 0 0 := by
  induction n with
  | zero =>
    intro s bs i data h
    rwa [List.replicate_zero, List.append_nil]
  | succ n ih =>
    intro s bs i data h
    rw [List.replicate_succ, List.append_cons]
    exact ih (writeRead so h 0xFF)

/-! ### The six functions -/

/-- A call of the driver. -/
inductive FramOp
  | writeSTA (data : UInt8)
  | readSTA
  | readData (address : UInt16)
  | readDataLen (address : UInt16) (data : ℕ → UInt8) (length : UInt16)
  | writeData (address : UInt16) (data : UInt8)
  | writeDataLen (address : UInt16) (data : ℕ → UInt8) (length : UInt16)

/-- What a call does to the bus. -/
def FramOp.exec (so : Slave → Bool) (s : Slave) : FramOp → Slave
  | .writeSTA data => fm25l16bWriteSTA so data s
  | .readSTA => (fm25l16bReadSTA so s).2
  | .readData address => (fm25l16bReadData so address s).2
  | .readDataLen address data length => (fm25l16bReadDataLen so address data length s).2
  | .writeData address data => fm25l16bWriteData so address data s
  | .writeDataLen address data length => fm25l16bWriteDataLen so address data length s

/-- A command with the two bytes of an address. -/
def addressed (cmd : UInt8) (address : UInt16) : List UInt8 :=
  [cmd, (address >>> 8).toUInt8, (address &&& 0xFF).toUInt8]

/-- Behind a command, the two bytes. -/
theorem writeRead_address {cmd : UInt8} (h : Taking s ts [cmd] 0 0) (address : UInt16) :
    Taking (fm25l16bWriteRead so (address &&& 0xFF).toUInt8
      (fm25l16bWriteRead so (address >>> 8).toUInt8 s).2).2 ts (addressed cmd address) 0 0 := by
  have hhigh := writeRead so h (address >>> 8).toUInt8
  exact writeRead so hhigh (address &&& 0xFF).toUInt8

/-- The end of a write: chip select rises, and `WRDI` is a transaction of its own. -/
theorem writeRead_wrdi (h : Taking s (ts ++ [[cmdWren]]) bs 0 0) :
    Rest ((fm25l16bWriteRead so cmdWrdi (s.pin .csHigh)).2.pin .csHigh)
      (ts ++ [[cmdWren], bs, [cmdWrdi]]) := by
  have hwrdi := (writeRead_rest so h.deselect cmdWrdi).deselect
  rw [List.append_assoc, List.append_assoc] at hwrdi
  exact hwrdi

/-- The transactions of a call. -/
def FramOp.transactions : FramOp → List (List UInt8)
  | .writeSTA data => [[cmdWren, cmdWrsr, data]]
  | .readSTA => [[cmdRdsr, 0xFF]]
  | .readData address => [addressed cmdRead address ++ [0xFF]]
  | .readDataLen address _ length =>
      [addressed cmdRead address ++ List.replicate length.toNat 0xFF]
  | .writeData address data => [[cmdWren], addressed cmdWrite address ++ [data], [cmdWrdi]]
  | .writeDataLen address data length =>
      [[cmdWren], addressed cmdWrite address ++ (List.range' 0 length.toNat).map data, [cmdWrdi]]

/-- **What a call leaves behind it.** -/
theorem FramOp.exec_rest (h : Rest s ts) (op : FramOp) :
    Rest (op.exec so s) (ts ++ op.transactions) := by
  have hsel := h.select
  cases op with
  | writeSTA data =>
    have hwren := writeRead so hsel cmdWren
    have hwrsr := writeRead so hwren cmdWrsr
    exact (writeRead so hwrsr data).deselect
  | readSTA =>
    have hcmd := writeRead so hsel cmdRdsr
    exact (writeRead so hcmd 0xFF).deselect
  | readData address =>
    have hcmd := writeRead so hsel cmdRead
    have haddress := writeRead_address so hcmd address
    exact (writeRead so haddress 0xFF).deselect
  | readDataLen address data length =>
    have hcmd := writeRead so hsel cmdRead
    have haddress := writeRead_address so hcmd address
    exact (readLoop_taking so length.toNat haddress).deselect
  | writeData address data =>
    have hwren := (writeRead so hsel cmdWren).deselect
    have hcmd := writeRead_rest so hwren cmdWrite
    have haddress := writeRead_address so hcmd address
    exact writeRead_wrdi so (writeRead so haddress data)
  | writeDataLen address data length =>
    have hwren := (writeRead so hsel cmdWren).deselect
    have hcmd := writeRead_rest so hwren cmdWrite
    have haddress := writeRead_address so hcmd address
    exact writeRead_wrdi so (writeLoop_taking so length.toNat data 0 haddress)

/-! ### What is to hold -/

/-- The commands of the chip. -/
def commands : List UInt8 := [cmdWren, cmdWrdi, cmdRdsr, cmdWrsr, cmdRead, cmdWrite]

/-- A transaction that writes to the memory or to the status register. -/
def IsWrite (t : List UInt8) : Prop := t.head? = some cmdWrite ∨ t.head? = some cmdWrsr

instance (t : List UInt8) : Decidable (IsWrite t) := inferInstanceAs (Decidable (_ ∨ _))

theorem not_isWrite {cmd : UInt8} {t : List UInt8} (h : cmd ≠ cmdWrite) (h' : cmd ≠ cmdWrsr) :
    ¬ IsWrite (cmd :: t) := by
  rintro (hw | hw)
  · exact h (Option.some.inj hw)
  · exact h' (Option.some.inj hw)

/-- Each of them comes directly behind one that is `WREN` alone. -/
def Preceded (ts : List (List UInt8)) : Prop :=
  ∀ pre t post, ts = pre ++ t :: post → IsWrite t → ∃ pre', pre = pre' ++ [[cmdWren]]

/-- The command for the write that a function is to make. -/
def FramOp.writeCmd : FramOp → Option UInt8
  | .writeSTA _ => some cmdWrsr
  | .writeData _ _ => some cmdWrite
  | .writeDataLen _ _ _ => some cmdWrite
  | _ => none

/-- A call, with the transactions before and after it. -/
structure FramCall where
  op : FramOp
  before : List (List UInt8)
  after : List (List UInt8)

/-- What the call is to write reaches the chip as a command, and the latch is set then. -/
def FramCall.Enabled {γ : Type*} (chip : Chip γ) (c : γ) (e : FramCall) : Prop :=
  ∀ cmd, e.op.writeCmd = some cmd → ∃ pre t post, e.after = e.before ++ pre ++ t :: post ∧
    t.head? = some cmd ∧ chip.wel ((e.before ++ pre).foldl chip.transact c) = true

/-- A call as a step of the bus. -/
def framStep (s : Slave) (op : FramOp) : Slave × List FramCall :=
  (op.exec so s, [⟨op, s.done, (op.exec so s).done⟩])

/-- The transactions on the bus: none is left open, and each is as it is to be. -/
structure Framed (s : Slave) : Prop where
  rest : Rest s s.done
  command : ∀ t ∈ s.done, ∃ cmd ∈ commands, t.head? = some cmd
  preceded : Preceded s.done

/-- All is well with a run of calls, on a chip that was in the state `c`. -/
structure FramRight {γ : Type*} (chip : Chip γ) (c : γ) (r : Slave × List FramCall) : Prop where
  framed : Framed r.1
  enabled : ∀ e ∈ r.2, e.Enabled chip c

/-! ### Calls in a row -/

theorem Preceded.append {ts ts' : List (List UInt8)} (h : Preceded ts) (h' : Preceded ts') :
    Preceded (ts ++ ts') := by
  intro pre t post heq hw
  obtain ⟨mid, rfl, hmid⟩ | ⟨mid, rfl, hmid⟩ := List.append_eq_append_iff.mp heq
  · obtain ⟨pre', rfl⟩ := h' mid t post hmid hw
    exact ⟨ts ++ pre', (List.append_assoc ..).symm⟩
  · cases mid with
    | nil =>
      obtain ⟨pre', hpre'⟩ := h' [] t post hmid.symm hw
      exact absurd hpre' (by simp)
    | cons t' mid =>
      obtain ⟨rfl, rfl⟩ := List.cons.inj hmid
      exact h pre t mid rfl hw

/-- A single transaction that writes nothing. -/
theorem preceded_singleton {t : List UInt8} (ht : ¬ IsWrite t) : Preceded [t] := by
  intro pre t' post heq hw
  cases pre with
  | nil => exact absurd (List.cons.inj heq).1 fun h => ht (h ▸ hw)
  | cons t'' pre => simp at heq

/-- A write between `WREN` and `WRDI`. -/
theorem preceded_write (t : List UInt8) : Preceded [[cmdWren], t, [cmdWrdi]] := by
  rintro (- | ⟨t₀, - | ⟨t₁, - | ⟨t₂, pre⟩⟩⟩) t' post heq hw
  · obtain ⟨rfl, -⟩ := List.cons.inj heq
    exact absurd hw (by decide)
  · obtain ⟨rfl, -⟩ := List.cons.inj heq
    exact ⟨[], rfl⟩
  · obtain ⟨-, htail⟩ := List.cons.inj heq
    obtain ⟨-, htail⟩ := List.cons.inj htail
    obtain ⟨rfl, -⟩ := List.cons.inj htail
    exact absurd hw (by decide)
  · simp at heq

/-- Every call gives chip select back, and begins each transaction with a command. -/
theorem FramOp.command (op : FramOp) : ∀ t ∈ op.transactions, ∃ cmd ∈ commands, t.head? = some cmd := by
  cases op <;> simp [transactions, commands, addressed]

/-- Each write command of a call comes behind its own `WREN`. -/
theorem FramOp.preceded (op : FramOp) : Preceded op.transactions := by
  cases op with
  | writeSTA data => exact preceded_singleton (not_isWrite (by decide) (by decide))
  | readSTA => exact preceded_singleton (not_isWrite (by decide) (by decide))
  | readData address => exact preceded_singleton (not_isWrite (by decide) (by decide))
  | readDataLen address data length =>
    exact preceded_singleton (not_isWrite (by decide) (by decide))
  | writeData address data => exact preceded_write _
  | writeDataLen address data length => exact preceded_write _

variable {γ : Type*} {chip : Chip γ} {c : γ} {so}

/-- A call keeps the bus as it is to be. -/
theorem Framed.step (h : Framed s) (op : FramOp) : Framed (op.exec so s) := by
  have hrest := op.exec_rest so h.rest
  have hdone := hrest.done
  refine ⟨hdone.symm ▸ hrest, fun t ht => ?_, ?_⟩
  · rw [hdone] at ht
    rcases List.mem_append.mp ht with ht | ht
    · exact h.command t ht
    · exact op.command t ht
  · rw [hdone]
    exact h.preceded.append op.preceded

/-- **Step.**  The latch is set for a call iff it is not one of `FM25L16B_WriteSTA`. -/
theorem Framed.enabled_iff (h : Framed s) (hwren : chip.WrenAtRise) (op : FramOp) :
    FramCall.Enabled chip c ⟨op, s.done, (op.exec so s).done⟩ ↔ ∀ data, op ≠ .writeSTA data := by
  rw [FramCall.Enabled, (op.exec_rest so h.rest).done]
  -- behind `WREN` for itself the latch is set
  have hset : chip.wel ((s.done ++ [[cmdWren]]).foldl chip.transact c) = true := by
    rw [List.foldl_append]
    exact hwren _
  have hwrite : ∀ t : List UInt8, t.head? = some cmdWrite → ∃ pre t' post,
      s.done ++ [[cmdWren], t, [cmdWrdi]] = s.done ++ pre ++ t' :: post ∧
        t'.head? = some cmdWrite ∧ chip.wel ((s.done ++ pre).foldl chip.transact c) = true :=
    fun t ht => ⟨[[cmdWren]], t, [[cmdWrdi]], by rw [List.append_assoc]; rfl, ht, hset⟩
  cases op with
  | writeSTA data =>
    refine iff_of_false (fun hen => ?_) fun hne => hne data rfl
    obtain ⟨pre, t, post, heq, hcmd, -⟩ := hen cmdWrsr rfl
    rw [List.append_assoc, List.append_cancel_left_eq] at heq
    -- its one transaction begins with `WREN`
    have hmem : t ∈ [[cmdWren, cmdWrsr, data]] := by
      rw [show [[cmdWren, cmdWrsr, data]] = pre ++ t :: post from heq]
      simp
    rw [List.mem_singleton.mp hmem] at hcmd
    cases hcmd
  | writeData address data =>
    refine iff_of_true (fun cmd hcmd => ?_) fun _ => FramOp.noConfusion
    obtain rfl := Option.some.inj hcmd
    exact hwrite _ rfl
  | writeDataLen address data length =>
    refine iff_of_true (fun cmd hcmd => ?_) fun _ => FramOp.noConfusion
    obtain rfl := Option.some.inj hcmd
    exact hwrite _ rfl
  | _ => exact iff_of_true (fun _ hcmd => by cases hcmd) fun _ => FramOp.noConfusion

/-- Before any call. -/
theorem framed_start (hs : Rest s []) : Framed s := by
  have hdone := hs.done
  refine ⟨hdone.symm ▸ hs, fun t ht => ?_, fun pre t post heq => ?_⟩
  · rw [hdone] at ht
    cases ht
  · rw [hdone] at heq
    simp at heq

/-- A run makes the calls it is given. -/
theorem map_op_trace (ops : List FramOp) (s : Slave) :
    (trace (framStep so) s ops).2.map FramCall.op = ops := by
  induction ops generalizing s with
  | nil => rfl
  | cons op ops ih => exact congrArg (op :: ·) (ih _)

/-- **The bus.**  On every chip for which `WREN` takes effect when chip select rises, after every
sequence of calls: all is well iff none of them is `FM25L16B_WriteSTA`. -/
theorem framRight_iff (hwren : chip.WrenAtRise) (c : γ) (hs : Rest s []) (ops : List FramOp) :
    FramRight chip c (trace (framStep so) s ops) ↔ ∀ op ∈ ops, ∀ data, op ≠ .writeSTA data := by
  have hstart := framed_start hs
  have hverdict : Verdict Framed (FramCall.Enabled chip c) (fun e => ∀ data, e.op ≠ .writeSTA data)
      (trace (framStep so) s ops).1 (trace (framStep so) s ops).2 := by
    refine trace_verdict (fun t op ht => ⟨?_, fun _ => ht.step op⟩) ops hstart
    simp only [framStep, List.forall_mem_singleton]
    exact ht.enabled_iff hwren op
  obtain ⟨hiff, hframed⟩ := hverdict
  have hops : (∀ e ∈ (trace (framStep so) s ops).2, ∀ data, e.op ≠ .writeSTA data) ↔
      ∀ op ∈ ops, ∀ data, op ≠ .writeSTA data := by
    rw [← List.forall_mem_map (f := FramCall.op) (P := fun op => ∀ data, op ≠ .writeSTA data),
      map_op_trace]
  rw [← hops, ← hiff]
  exact ⟨fun h => h.enabled, fun h => ⟨hframed h, h⟩⟩

/-- A byte is written and read. -/
theorem framRight_write_read :
    FramRight fm25l16b ⟨false, fun _ => 0⟩
      (trace (framStep (Fram.so ⟨false, fun _ => 0⟩)) ⟨true, false, false, 0, 0, [], []⟩
        [.writeData 0x0123 7, .readData 0x0123]) :=
  (framRight_iff wrenAtRise_fm25l16b _ ⟨rfl, rfl, rfl⟩ _).mpr (by simp)

/-- `FM25L16B_WriteSTA(0x0C)` is one transaction, which begins with `WREN`; no status is written. -/
theorem framRight_not_writeSTA :
    ¬ FramRight fm25l16b ⟨false, fun _ => 0⟩
      (trace (framStep (Fram.so ⟨false, fun _ => 0⟩)) ⟨true, false, false, 0, 0, [], []⟩
        [.writeSTA 0x0C]) ∧
    (trace (framStep (Fram.so ⟨false, fun _ => 0⟩)) ⟨true, false, false, 0, 0, [], []⟩
        [.writeSTA 0x0C]).1.done = [[0x06, 0x01, 0x0C]] := by
  refine ⟨fun hright => ?_, ?_⟩
  · have hen := hright.enabled _ (List.mem_singleton_self _)
    exact (Framed.enabled_iff (framed_start ⟨rfl, rfl, rfl⟩) wrenAtRise_fm25l16b _).mp hen 0x0C rfl
  · exact (FramOp.exec_rest _ ⟨rfl, rfl, rfl⟩ (.writeSTA 0x0C)).done

end Bus

/-! ### Writing -/

theorem addressOf_bytes (address : UInt16) :
    addressOf (address >>> 8).toUInt8 (address &&& 0xFF).toUInt8 = address.toNat := by
  have hlt := address.toNat_lt
  have hhi : (address >>> 8).toUInt8.toNat = address.toNat / 256 := by
    rw [UInt16.toNat_toUInt8, UInt16.toNat_shiftRight]
    show address.toNat >>> 8 % 256 = _
    rw [Nat.shiftRight_eq_div_pow]
    omega
  have hlo : (address &&& 0xFF).toUInt8.toNat = address.toNat % 256 := by
    rw [UInt16.toNat_toUInt8, UInt16.toNat_and]
    show (address.toNat &&& 2 ^ 8 - 1) % 256 = _
    rw [Nat.and_two_pow_sub_one_eq_mod]
    omega
  rw [addressOf, hhi, hlo]
  omega

/-- **`FM25L16B_WriteData_Len`** on the pins stores what it stores in ParamCfg.lean. -/
theorem mem_writeDataLen (c : Fram) (address : UInt16) (data : ℕ → UInt8) (length : UInt16) :
    ((FramOp.writeDataLen address data length).transactions.foldl fm25l16b.transact c).mem =
      Start01.fm25l16bWriteDataLen c.mem address.toNat data length.toNat := by
  let sent := (List.range' 0 length.toNat).map data
  show scatter c.mem (framCell (addressOf _ _)) (fun i => sent.getD i 0) sent.length = _
  rw [addressOf_bytes, List.length_map, List.length_range']
  refine scatter_congr fun i hi => ⟨rfl, ?_⟩
  rw [List.getD_eq_getElem?_getD, List.getElem?_map, List.getElem?_range' hi]
  show data (0 + 1 * i) = data i
  rw [Nat.one_mul, Nat.zero_add]

/-! ### Reading -/

section Reading

variable {so : Slave → Bool} {s : Slave} {ts : List (List UInt8)} {bs : List UInt8} {out c : UInt8}

/-- Behind the transactions `ts` and the bytes `bs`, the chip puts out the byte `out`. -/
structure Sends (so : Slave → Bool) (ts : List (List UInt8)) (bs : List UInt8) (out : UInt8) :
    Prop where
  bit : ∀ s : Slave, s.done = ts → s.bytes = bs → s.count ≠ 0 →
    so s = out.toNat.testBit (8 - s.count)
  last : ∀ (s : Slave) (c : UInt8), s.done = ts → s.bytes = bs ++ [c] → s.count = 0 →
    so s = out.toNat.testBit 0

/-- The rounds that are left take in what is left of it. -/
theorem writeReadLoop_value (hs : Sends so ts bs out) (n : ℕ) :
    ∀ {s : Slave} {k v : ℕ} {cmd dataIn : UInt8}, Taking s ts bs k v → k + (n + 1) = 8 →
      dataIn.toNat = out.toNat / 2 ^ (n + 1) →
      (writeReadLoop so (n + 1) cmd dataIn s).1 = out := by
  have hout := out.toNat_lt
  -- one round moves a bit of the byte over
  have hround : ∀ {m : ℕ} {dataIn : UInt8} {b : Bool}, dataIn.toNat = out.toNat / 2 ^ (m + 1) →
      b = out.toNat.testBit m → (shiftIn dataIn b).toNat = out.toNat / 2 ^ m := by
    intro m dataIn b hdata hb
    have hle := Nat.div_le_self out.toNat (2 ^ m)
    have hbit : b.toNat = out.toNat / 2 ^ m % 2 := by
      rw [hb, Nat.testBit_eq_decide_div_mod_eq]
      rcases Nat.mod_two_eq_zero_or_one (out.toNat / 2 ^ m) with h | h <;> rw [h] <;> rfl
    rw [toNat_shiftIn, hdata, hbit, pow_succ, ← Nat.div_div_eq_div_mul]
    omega
  induction n with
  | zero =>
    intro s k v cmd dataIn h hk hdata
    obtain rfl : k = 7 := by omega
    have hlast := h.clock_last (128 ≤ cmd.toNat)
    rw [writeReadLoop_succ so]
    apply UInt8.toNat_inj.mp
    have hb := hs.last _ _ hlast.done hlast.bytes hlast.count
    exact (hround hdata hb).trans (by rw [pow_zero, Nat.div_one])
  | succ n ih =>
    intro s k v cmd dataIn h hk hdata
    have hnext := h.clock (by omega) (128 ≤ cmd.toNat)
    rw [writeReadLoop_succ so]
    have hb := hs.bit _ hnext.done hnext.bytes (by rw [hnext.count]; exact Nat.succ_ne_zero k)
    rw [hnext.count, show 8 - (k + 1) = n + 1 by omega] at hb
    exact ih hnext (by omega) (hround hdata hb)

/-- **`FM25L16B_WriteRead`** returns the byte that the chip puts out. -/
theorem writeRead_value (hs : Sends so ts bs out) (h : Taking s ts bs 0 0) (cmd : UInt8) :
    (fm25l16bWriteRead so cmd s).1 = out :=
  writeReadLoop_value hs 7 h.select rfl (Nat.div_eq_of_lt out.toNat_lt).symm

/-- While a read goes on, the FRAM puts out the cells one after the other. -/
theorem sends_read (c : Fram) (ts : List (List UInt8)) (address : UInt16) (i : ℕ) :
    Sends c.so ts (addressed cmdRead address ++ List.replicate i 0xFF)
      ((ts.foldl Fram.transact c).mem (framCell address.toNat i)) := by
  have hout : ∀ rest : List UInt8, (ts.foldl Fram.transact c).out (addressed cmdRead address ++ rest)
      (i + 3) = (ts.foldl Fram.transact c).mem (framCell address.toNat i) := by
    intro rest
    show (if cmdRead = cmdRead ∧ 3 ≤ i + 3 then
      (ts.foldl Fram.transact c).mem (framCell (addressOf _ _) (i + 3 - 3)) else 0) = _
    rw [if_pos ⟨rfl, Nat.le_add_left 3 i⟩, addressOf_bytes, Nat.add_sub_cancel]
  have hlen : (addressed cmdRead address ++ List.replicate i 0xFF).length = i + 3 := by
    rw [List.length_append, List.length_replicate]
    exact Nat.add_comm 3 i
  refine ⟨fun s hdone hbytes hcount => ?_, fun s b hdone hbytes hcount => ?_⟩
  · simp only [Fram.so, if_neg hcount, hdone, hbytes, hlen, hout]
  · simp only [Fram.so, if_pos hcount, hdone, hbytes]
    rw [List.length_append, hlen, List.append_assoc]
    exact congrArg (fun b : UInt8 => b.toNat.testBit 0) (hout _)

/-- The loop, from index `i` on. -/
theorem readLoop_value (c : Fram) (address : UInt16) (data : ℕ → UInt8) (n : ℕ) :
    ∀ {s : Slave} (i : ℕ), Taking s ts (addressed cmdRead address ++ List.replicate i 0xFF) 0 0 →
      let cell := fun i => (ts.foldl Fram.transact c).mem (framCell address.toNat i)
      (readLoop c.so n i (scatter data id cell i) s).1 = scatter data id cell (i + n) := by
  induction n with
  | zero => exact fun _ _ => rfl
  | succ n ih =>
    intro s i h cell
    have hbyte := writeRead_value (sends_read c ts address i) h 0xFF
    have hnext := writeRead c.so h 0xFF
    rw [List.append_assoc, ← List.replicate_succ'] at hnext
    have hrest := ih (i + 1) hnext
    rw [readLoop, hbyte, show i + (n + 1) = i + 1 + n by omega]
    exact hrest

/-- **`FM25L16B_ReadData_Len`** on the pins reads what it reads in ParamCfg.lean. -/
theorem readDataLen_value (h : Rest s ts) (c : Fram) (address : UInt16) (data : ℕ → UInt8)
    (length : UInt16) :
    (fm25l16bReadDataLen c.so address data length s).1 =
      Start01.fm25l16bReadDataLen (ts.foldl Fram.transact c).mem address.toNat data length.toNat := by
  have hcmd := writeRead c.so h.select cmdRead
  have haddress := writeRead_address c.so hcmd address
  have hloop := readLoop_value c address data length.toNat 0 haddress
  rw [Nat.zero_add] at hloop
  exact hloop

end Reading

/-! ### The memory -/

/-- What a call stores, in terms of ParamCfg.lean. -/
def FramOp.store (mem : Store) : FramOp → Store
  | .writeData address data => Start01.fm25l16bWriteDataLen mem address.toNat (fun _ => data) 1
  | .writeDataLen address data length =>
      Start01.fm25l16bWriteDataLen mem address.toNat data length.toNat
  | _ => mem

/-- The transactions of a call store it. -/
theorem mem_transactions (c : Fram) (op : FramOp) :
    (op.transactions.foldl Fram.transact c).mem = op.store c.mem := by
  cases op with
  | writeData address data =>
    show scatter c.mem (framCell (addressOf _ _)) (fun i => [data].getD i 0) 1 = _
    rw [addressOf_bytes]
    refine scatter_congr fun i hi => ⟨rfl, ?_⟩
    rw [Nat.lt_one_iff.mp hi]
    rfl
  | writeDataLen address data length => exact mem_writeDataLen c address data length
  | writeSTA data => rfl
  | readSTA => rfl
  | readData address => rfl
  | readDataLen address data length => rfl

/-- **Step, run.**  Calls leave their transactions behind them, and these have stored what the calls
store. -/
theorem calls_store (c : Fram) (ops : List FramOp) : ∀ {s : Slave} {ts : List (List UInt8)},
    Rest s ts → ∃ ts', Rest (ops.foldl (FramOp.exec c.so) s) ts' ∧
      (ts'.foldl Fram.transact c).mem = ops.foldl FramOp.store (ts.foldl Fram.transact c).mem := by
  induction ops with
  | nil => exact fun {s ts} h => ⟨ts, h, rfl⟩
  | cons op ops ih =>
    intro s ts h
    obtain ⟨ts', hrest, hmem⟩ := ih (op.exec_rest c.so h)
    refine ⟨ts', hrest, hmem.trans ?_⟩
    rw [List.foldl_append, mem_transactions]
    rfl

/-- **The driver on the pins keeps the memory of ParamCfg.lean.**  After every sequence of calls, a
read returns what is there after the same calls on the cells. -/
theorem fram_bus_memory (c : Fram) (s : Slave) (hs : Rest s []) (ops : List FramOp)
    (address : UInt16) (data : ℕ → UInt8) (length : UInt16) :
    (fm25l16bReadDataLen c.so address data length (ops.foldl (FramOp.exec c.so) s)).1 =
      Start01.fm25l16bReadDataLen (ops.foldl FramOp.store c.mem) address.toNat data
        length.toNat := by
  obtain ⟨ts, hrest, hmem⟩ := calls_store c ops hs
  rw [readDataLen_value hrest, hmem]
  rfl

/-- Three bytes are written over the end of the memory, the status in between, and read back. -/
theorem fram_bus_memory_wrap : ∃ data,
    (fm25l16bReadDataLen (Fram.so ⟨false, fun _ => 0⟩) 2047 (fun _ => 0) 3
      ([.writeDataLen 2047 (fun i => UInt8.ofNat (i + 7)) 2, .writeSTA 0x0C, .writeData 1 9].foldl
        (FramOp.exec (Fram.so ⟨false, fun _ => 0⟩)) ⟨true, false, false, 0, 0, [], []⟩)).1 = data ∧
    (data 0, data 1, data 2) = (7, 8, 9) :=
  ⟨_, fram_bus_memory ⟨false, fun _ => 0⟩ _ ⟨rfl, rfl, rfl⟩ _ 2047 (fun _ => 0) 3, by decide +kernel⟩

end FramBus

end Start01
