/-
Start01/AbccLink.lean

What the data link of the Anybus driver is about: `Abcc.link` forgets the timers, the process data,
the errors and the state of the driver.  Most of aplink.c does not change what is left, and a round
of `APDR_RunDataLinkStateMachine` is one of few moves of it (`Move`, `pass_move`).

The link remembers the telegrams that went out, those sent again included (`out`).
-/
import Start01.AbccQueues
import Start01.Apdr

namespace Start01

open Scatter

/-! ### Bytes and bits -/

/-- The T bit of a register. -/
def tBit (reg : UInt8) : Bool := reg &&& 0x80 ≠ 0

/-- The M bit. -/
def mBit (reg : UInt8) : Bool := reg &&& 0x40 ≠ 0

/-- The T bit alone is a comparison of bits. -/
theorem and_tBit (x : UInt8) : x &&& 0x80 = if tBit x then 0x80 else 0 :=
  forall_byte (p := fun x => x &&& 0x80 = if tBit x then 0x80 else 0) (by decide) x

theorem tBit_ne_iff (x y : UInt8) : x &&& 0x80 ≠ y &&& 0x80 ↔ tBit x ≠ tBit y := by
  rw [and_tBit x, and_tBit y]
  cases tBit x <;> cases tBit y <;> decide

/-- A new register has the other T bit… -/
theorem tBit_newReg (reg : UInt8) (fMessage fFree : Bool) :
    tBit (newReg reg fMessage fFree) = !tBit reg := by
  cases fMessage <;> cases fFree
  · exact forall_byte (p := fun x => tBit (newReg x false false) = !tBit x) (by decide) reg
  · exact forall_byte (p := fun x => tBit (newReg x false true) = !tBit x) (by decide) reg
  · exact forall_byte (p := fun x => tBit (newReg x true false) = !tBit x) (by decide) reg
  · exact forall_byte (p := fun x => tBit (newReg x true true) = !tBit x) (by decide) reg

/-- …and the M bit as wanted. -/
theorem mBit_newReg (reg : UInt8) (fMessage fFree : Bool) :
    mBit (newReg reg fMessage fFree) = fMessage := by
  cases fMessage <;> cases fFree
  · exact forall_byte (p := fun x => mBit (newReg x false false) = false) (by decide) reg
  · exact forall_byte (p := fun x => mBit (newReg x false true) = false) (by decide) reg
  · exact forall_byte (p := fun x => mBit (newReg x true false) = true) (by decide) reg
  · exact forall_byte (p := fun x => mBit (newReg x true true) = true) (by decide) reg

theorem length_chkBytes (m : ℕ → UInt8) (i n : ℕ) : (chkBytes m i n).length = n := by
  simp [chkBytes]

/-- A block is its bytes. -/
theorem chkBytes_congr {m m' : ℕ → UInt8} {i i' n : ℕ} (h : ∀ j < n, m (i + j) = m' (i' + j)) :
    chkBytes m i n = chkBytes m' i' n :=
  List.map_congr_left fun j hj => h j (List.mem_range.mp hj)

theorem getElem?_chkBytes (m : ℕ → UInt8) (i : ℕ) {n j : ℕ} (h : j < n) :
    (chkBytes m i n)[j]? = some (m (i + j)) := by
  rw [chkBytes, List.getElem?_map, List.getElem?_range h]
  rfl

/-- What is written to a block is read from it. -/
theorem chkBytes_scatter (m b : ℕ → UInt8) (i n : ℕ) :
    chkBytes (scatter m (fun j => i + j) b n) i n = chkBytes b 0 n := by
  apply chkBytes_congr
  intro j hj
  rw [Nat.zero_add]
  exact scatter_apply (g := fun j => i + j) hj fun k _ h => by omega

/-! ### Telegrams -/

/-- The fragment in a telegram to the module. -/
def sentPart (t : List UInt8) : Option (List UInt8) :=
  if mBit (t.headD 0) then some ((t.drop 1).take 16) else none

/-- The fragment in a telegram from the module. -/
def gotPart (rx : ℕ → UInt8) : Option (List UInt8) :=
  if mBit (rx 0) then some (chkBytes rx 1 16) else none

/-- A telegram as long as the process data wants it, with its check. -/
structure Sealed (t : List UInt8) : Prop where
  le_length : 19 ≤ t.length
  length_le : t.length ≤ 275
  check : telegramOk (fun i => t.getD i 0) (UInt16.ofNat t.length) = true

/-- So is the check of a block. -/
theorem crcCrc16_congr {m m' : ℕ → UInt8} {n : UInt16} (h : ∀ i < n.toNat, m i = m' i) :
    crcCrc16 m n = crcCrc16 m' n := by
  apply UInt16.toBitVec_inj.mp
  rw [toBitVec_crcCrc16, toBitVec_crcCrc16]
  congr 1
  exact chkBytes_congr fun i hi => by rw [Nat.zero_add, h i hi]

theorem getD_chkBytes (m : ℕ → UInt8) {n i : ℕ} (h : i < n) : (chkBytes m 0 n).getD i 0 = m i := by
  rw [List.getD_eq_getElem?_getD, getElem?_chkBytes m 0 h, Nat.zero_add]
  rfl

/-! ### The view -/

/-- What the telegrams and the messages depend on. -/
structure Link where
  buf : BufRef → BufMsg
  queue : Pool → OneQueueEntry BufRef
  psWriteMsgBuffer : Option BufRef
  iNbrRecFrags : UInt16
  abMessage : ℕ → UInt8
  eState : ApdrState
  bLastStatusReg : UInt8
  bCurrentStatusReg : UInt8
  bWorkingControlReg : UInt8
  fTelegramReceived : Bool
  pbReceptionBuffer : ℕ → UInt8
  /-- The telegram in the transmission buffer. -/
  telegram : List UInt8
  out : List (List UInt8)
  posted : List (List UInt8)
  begun : List (List UInt8)
  sent : List (List UInt8)
  got : List (ℕ → UInt8)
  delivered : List (List UInt8)
  taken : List (List UInt8)

/-- The telegrams that went out. -/
def sentOut (calls : List AbccCall) : List (List UInt8) :=
  calls.filterMap fun
    | .sendSerialTelegram telegram => some telegram
    | _ => none

theorem sentOut_append (cs cs' : List AbccCall) : sentOut (cs ++ cs') = sentOut cs ++ sentOut cs' :=
  List.filterMap_append

namespace Abcc

/-- A state of the driver as one of the link. -/
def link (s : Abcc) : Link where
  buf := s.buf
  queue := s.queue
  psWriteMsgBuffer := s.apdr.psWriteMsgBuffer
  iNbrRecFrags := s.apdr.iNbrRecFrags
  abMessage := s.apdr.abMessage
  eState := s.apdr.eState
  bLastStatusReg := s.apdr.bLastStatusReg
  bCurrentStatusReg := s.apdr.bCurrentStatusReg
  bWorkingControlReg := s.apdr.bWorkingControlReg
  fTelegramReceived := s.apdr.fTelegramReceived
  pbReceptionBuffer := s.apdr.pbReceptionBuffer
  telegram := chkBytes s.apdr.abTransmissionBuffer 0 s.apdr.iSerialLengthWrite.toNat
  out := sentOut s.calls
  posted := s.posted
  begun := s.begun
  sent := s.sent
  got := s.got
  delivered := s.delivered
  taken := s.taken

/-! ### What the link does not see -/

/-- A call that sends no telegram. -/
theorem link_call (s : Abcc) {c : AbccCall} (h : sentOut [c] = []) : (s.call c).link = s.link := by
  simp only [link, call, sentOut_append, h, List.append_nil]

/-- The lengths of the process data. -/
theorem link_setPdSize (s : Abcc) (r w : UInt16) : (s.setPdSize r w).link = s.link := by
  simp only [link, setPdSize, sentOut_append]
  simp [sentOut]

/-- The state of the driver. -/
theorem link_changeDriverState (s : Abcc) (eRequestedState : DriverState) :
    (s.changeDriverState eRequestedState).link = s.link := by
  unfold changeDriverState
  split
  · rfl
  · rfl
  · rfl
  · rfl
  · exact s.link_call rfl

theorem link_useNewWritePdMap (s : Abcc) : s.useNewWritePdMap.link = s.link :=
  s.link_setPdSize _ _

/-- What follows a response that has been sent. -/
theorem link_completeResponse (s : Abcc) (m : ℕ → UInt8) : (s.completeResponse m).link = s.link := by
  have hprepare : ∀ t : Abcc, (t.prepareNewWritePdMap (word m 8)).link = t.link := fun _ => rfl
  have huse : ∀ t : Abcc, (t.useNewReadPdMap (word m 8)).link = t.link :=
    fun t => t.link_setPdSize _ _
  unfold completeResponse
  split
  · split
    · rw [huse, hprepare]
      rfl
    · rw [hprepare]
      rfl
  · split
    · rw [huse]
      rfl
    · rfl

/-- What follows a response to a command of the configuration. -/
theorem link_noteReceived (s : Abcc) (m : ℕ → UInt8) : (s.noteReceived m).link = s.link := by
  unfold noteReceived
  split
  · rfl
  split
  · exact (link_changeDriverState _ _).trans (s.link_setPdSize _ _)
  · rfl

theorem link_newReadPd (s : Abcc) (fNewData : Bool) (n : UInt16) (p : Option (ℕ → UInt8)) :
    (s.newReadPd fNewData n p).link = s.link := s.link_call rfl

/-- The process data that comes in. -/
theorem link_putProcessData (s : Abcc) (bAbccStatus : UInt8) (pbSourceData : ℕ → UInt8)
    (n : UInt16) : (s.putProcessData bAbccStatus pbSourceData n).link = s.link := by
  dsimp only [putProcessData]
  split
  · split
    · rw [link_newReadPd]
      rfl
    · rfl
  split
  · split
    · split
      · rw [link_newReadPd]
        rfl
      · rfl
    · rw [link_newReadPd]
      rfl
  split
  · rw [link_newReadPd]
    rfl
  · rfl

/-- The process data that is to go out. -/
theorem link_writeProcessData (s : Abcc) (pbData : ℕ → UInt8) :
    (s.writeProcessData pbData).link = s.link := by
  dsimp only [writeProcessData]
  split <;> rfl

/-! ### A telegram is closed -/

/-- The process data goes behind the fragment. -/
theorem getNewProcessData_before (s : Abcc) (n : UInt16) {at_ i : ℕ} (h : i < at_) :
    (s.getNewProcessData at_ n).apdr.abTransmissionBuffer i = s.apdr.abTransmissionBuffer i := by
  unfold getNewProcessData
  split
  · rfl
  split
  · rfl
  split
  · rfl
  split
  · exact scatter_of_forall_ne fun j _ => by omega
  · rfl

/-- And is no part of the link, but for the telegram that is built. -/
theorem link_getNewProcessData (s : Abcc) (at_ : ℕ) (n : UInt16) :
    { (s.getNewProcessData at_ n).link with telegram := [] } = { s.link with telegram := [] } ∧
      (s.getNewProcessData at_ n).apdr.iPdWriteLength = s.apdr.iPdWriteLength := by
  unfold getNewProcessData
  split
  · exact ⟨rfl, rfl⟩
  split
  · exact ⟨rfl, rfl⟩
  split
  · exact ⟨rfl, rfl⟩
  split
  · exact ⟨rfl, rfl⟩
  · exact ⟨rfl, rfl⟩

/-- A telegram is closed: the fragment is left as it is, and the check is right. -/
theorem closeTelegram_spec (s : Abcc) (h : s.apdr.iPdWriteLength ≤ 256) :
    ∃ t, s.closeTelegram.link = { s.link with telegram := t } ∧ Sealed t ∧
      ∀ i < 17, t[i]? = some (s.apdr.abTransmissionBuffer i) := by
  obtain ⟨hlink, hlength⟩ := s.link_getNewProcessData 17 s.apdr.iPdWriteLength
  have hbefore := fun i (hi : i < 17) => s.getNewProcessData_before s.apdr.iPdWriteLength hi
  unfold closeTelegram
  generalize s.getNewProcessData 17 s.apdr.iPdWriteLength = s₁ at *
  extract_lets s₂ n iCrc buffer
  have hn : n ≤ 273 := by
    have hle := UInt16.le_iff_toNat_le.mp h
    rw [← hlength] at hle
    exact Nat.add_le_add_right (Nat.add_le_add_right hle 1) 16
  have hn17 : 17 ≤ n := Nat.le_add_left 17 _
  have hcast : (UInt16.ofNat n).toNat = n := by
    rw [UInt16.toNat_ofNat', Nat.mod_eq_of_lt (by omega)]
  have hlast : UInt16.ofNat n + 2 = UInt16.ofNat (n + 2) := (UInt16.ofNat_add n 2).symm
  have hlastcast : (UInt16.ofNat (n + 2)).toNat = n + 2 := by
    rw [UInt16.toNat_ofNat', Nat.mod_eq_of_lt (by omega)]
  obtain ⟨b, hb⟩ : ∃ b, b = Function.update buffer (n + 1) iCrc.toUInt8 := ⟨_, rfl⟩
  have hkeep : ∀ i < n, b i = s₂.apdr.abTransmissionBuffer i := by
    intro i hi
    rw [hb, Function.update_of_ne (by omega)]
    exact Function.update_of_ne (by omega) _ _
  refine ⟨chkBytes b 0 (n + 2), ?_, ⟨?_, ?_, ?_⟩, fun i hi => ?_⟩
  · rw [← hb, hlast]
    have hview := congrArg (fun v : Link => { v with telegram := chkBytes b 0 (n + 2) }) hlink
    refine Eq.trans ?_ hview
    show { s₁.link with telegram := chkBytes b 0 (UInt16.ofNat (n + 2)).toNat } = _
    rw [hlastcast]
  · rw [length_chkBytes]
    omega
  · rw [length_chkBytes]
    omega
  · have hcrc : crcCrc16 (fun i => (chkBytes b 0 (n + 2)).getD i 0) (UInt16.ofNat (n + 2) - 2)
        = iCrc := by
      rw [← hlast, UInt16.add_sub_cancel]
      apply crcCrc16_congr
      intro i hi
      rw [hcast] at hi
      rw [getD_chkBytes b (by omega), hkeep i hi]
    rw [telegramOk, length_chkBytes, hcrc, hlastcast, Nat.add_sub_cancel,
      getD_chkBytes b (by omega), show n + 2 - 1 = n + 1 by omega, getD_chkBytes b (by omega), hb,
      Function.update_self, Function.update_of_ne (by omega), beq_iff_eq]
    show iCrc = (Function.update s₂.apdr.abTransmissionBuffer n (iCrc >>> 8).toUInt8 n).toUInt16 <<< 8
      ||| iCrc.toUInt8.toUInt16
    rw [Function.update_self, join_bytes]
  · rw [getElem?_chkBytes b 0 (by omega), Nat.zero_add, hkeep i (by omega), hbefore i hi]

end Abcc

end Start01
