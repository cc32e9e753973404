/-
Start01/AppdDrive.lean

What the application data object is for: a drive (`Drive`), with a bank of values, two lists of
instances that are mapped to process data, and the byte order of the network.  A command gets a
value, offers one, or exchanges a part of a list.

Here are the drive, what the network sees of the code, and the answers to the commands to an
instance; that each run of the code is one of the drive is in AppdRefine.lean.
-/
import Start01.AppdAccept
import Start01.Lib.Run

namespace Start01

open Scatter Splice

/-! ### The drive -/

/-- The drive, as the network sees it. -/
structure Drive where
  bank : ℕ → ℤ
  read : List Item
  write : List Item
  eFormat : UInt8

/-- What the network sees. -/
inductive DriveEvent
  | value (i : ℕ) (v : ℤ)
  | taken (i : ℕ) (v : ℤ)
  | mapped (size : ℕ)
  | refused
  | sent (values : List (ℕ × ℤ))

/-- The calls of the application data object. -/
inductive AppdOp
  | command (m : ℕ → UInt8)
  | newReadProcessData (abData : ℕ → UInt8)
  | processDataChanged (abData : ℕ → UInt8)
  | setNetworkByteOrder (eFormat : UInt8)

/-- A set command for an instance that can be set, with as many bytes as it has. -/
def Settable (adi : AdiInstance) (m : ℕ → UInt8) : Prop :=
  adi.bDescriptor &&& descrSetAccess ≠ 0 ∧ (bDataSize m).toNat = adi.sizeOfAdiVal

namespace Drive

open Classical in
noncomputable def command (d : Drive) (m : ℕ → UInt8) : Drive × List DriveEvent :=
  if iInstance m = 0 then
    if cmdBits m = 0x13 then
      if Acceptable d.write m then
        ({ d with write := remapped d.write m }, [.mapped (totalSize (remapped d.write m))])
      else (d, [.refused])
    else if cmdBits m = 0x14 then
      if Acceptable d.read m then
        ({ d with read := remapped d.read m }, [.mapped (totalSize (remapped d.read m))])
      else (d, [.refused])
    else (d, [])
  else
    match findAdi (iInstance m) with
    | none => (d, [])
    | some (i, adi) =>
      if bCmdExt0 m = 5 ∧ cmdBits m = 0x01 then (d, [.value i (d.bank i)])
      else if bCmdExt0 m = 5 ∧ cmdBits m = 0x02 then
        let v := Appd.netValue d.eFormat adi.bDataType m 8
        if Settable adi m ∧ Appd.limits.Takes (i, v) then
          ({ d with bank := Function.update d.bank i v }, [.taken i v])
        else (d, [.refused])
      else (d, [])

noncomputable def step (d : Drive) : AppdOp → Drive × List DriveEvent
  | .command m => d.command m
  | .newReadProcessData abData =>
    ({ d with bank := Bank.offers Appd.limits d.bank (Appd.fields d.eFormat abData 0 d.read) }, [])
  | .processDataChanged _ => (d, [.sent ((mappedOf d.write).map fun i => (i, d.bank i))])
  | .setNetworkByteOrder eFormat => ({ d with eFormat := eFormat }, [])

end Drive

namespace Appd

open PdMap

/-! ### The code, as the network sees it -/

/-- What an answer `r` to a command `m` says. -/
def observe (s : Appd) (m r : ℕ → UInt8) : List DriveEvent :=
  if iInstance m = 0 then
    if cmdBits m = 0x13 ∨ cmdBits m = 0x14 then
      [if isError r then .refused else .mapped (word r 8).toNat]
    else []
  else
    match findAdi (iInstance m) with
    | none => []
    | some (i, adi) =>
      if bCmdExt0 m = 5 ∧ cmdBits m = 0x01 then
        [if isError r then .refused
          else .value i (netValue s.eBigEndianNetOrder adi.bDataType r 8)]
      else if bCmdExt0 m = 5 ∧ cmdBits m = 0x02 then
        [if isError r then .refused
          else .taken i (netValue s.eBigEndianNetOrder adi.bDataType m 8)]
      else []

/-- One call, and what goes out; `none` if it does not return. -/
def step (s : Appd) : AppdOp → Option (Appd × List DriveEvent)
  | .command m => (s.processCmdMsg m).map fun (s', r) => (s', s.observe m r)
  | .newReadProcessData abData => (s.newReadProcessData abData).map fun s' => (s', [])
  | .processDataChanged abData =>
    (s.processDataChanged abData).map fun data =>
      (s, [.sent (fields s.eBigEndianNetOrder data 0 s.sMyWriteMappings.items)])
  | .setNetworkByteOrder eFormat => some (s.setNetworkByteOrder eFormat, [])

/-- The drive that the code keeps. -/
def drive (s : Appd) : Drive where
  bank := s.bank
  read := s.sMyReadMappings.items
  write := s.sMyWriteMappings.items
  eFormat := s.eBigEndianNetOrder

/-- What holds between two calls. -/
structure Good (s : Appd) : Prop where
  read : MapsOk s.sMyReadMappings
  write : MapsOk s.sMyWriteMappings
  readSize : s.iReadSize.toNat = totalSize s.sMyReadMappings.items
  writeSize : s.iWriteSize.toNat = totalSize s.sMyWriteMappings.items

/-- A command comes without the error bit, and if it is to remap, it does not lose a map. -/
def CommandOk (s : Appd) (m : ℕ → UInt8) : Prop :=
  isError m = false ∧ (iInstance m = 0 →
    (cmdBits m = 0x13 → Acceptable s.sMyWriteMappings.items m → Sound s.sMyWriteMappings m) ∧
    (cmdBits m = 0x14 → Acceptable s.sMyReadMappings.items m → Sound s.sMyReadMappings m))

end Appd

/-- What is asked of a call. -/
def AppdOp.Ok (s : Appd) : AppdOp → Prop
  | .command m => s.CommandOk m
  | _ => True

namespace Appd

variable {s : Appd} {maps maps' : PdMap} {m : ℕ → UInt8} {size size' : UInt16}

/-! ### Answers -/

/-- An answer has the header of the command, as a response. -/
structure AnswerTo (m r : ℕ → UInt8) : Prop where
  same : ∀ j < 8, j ≠ 4 → j ≠ 5 → r j = m j
  cmd : r 4 = m 4 &&& 0xBF ∨ r 4 = m 4 &&& 0xBF ||| 0x80

/-- An error response. -/
structure Refuses (m r : ℕ → UInt8) : Prop where
  answer : AnswerTo m r
  error : isError r = true

/-- A response that is none. -/
structure Grants (m r : ℕ → UInt8) : Prop where
  answer : AnswerTo m r
  cmd : r 4 = m 4 &&& 0xBF

/-- An error response refuses the command that it was made of. -/
theorem setMsgErrorResponse_refuses {m' : ℕ → UInt8} (h : ∀ j < 8, j ≠ 4 → j ≠ 5 → m' j = m j)
    (h4 : m' 4 &&& 0xBF = m 4 &&& 0xBF) (n : UInt8) (e : MsgErrorCode) :
    Refuses m (setMsgErrorResponse m' n e) := by
  have hcmd : setMsgErrorResponse m' n e 4 = m 4 &&& 0xBF ||| 0x80 := by
    rw [← h4]
    rfl
  refine ⟨⟨fun j hj hj4 hj5 => ?_, .inr hcmd⟩, ?_⟩
  · rw [setMsgErrorResponse, Function.update_of_ne (by omega), Function.update_of_ne hj5,
      Function.update_of_ne hj4, h j hj hj4 hj5]
  · rw [isError, bCmd, hcmd]
    exact forall_byte (p := fun x => decide ((x &&& 0xBF ||| 0x80) &&& 0x80 ≠ 0) = true) (by decide)
      (m 4)

/-- A response without one grants it. -/
theorem setMsgResponse_grants {m' : ℕ → UInt8} (h : ∀ j < 8, m' j = m j) (n : UInt8) :
    Grants m (setMsgResponse m' n) := by
  have hcmd : setMsgResponse m' n 4 = m 4 &&& 0xBF := by
    rw [← h 4 (by omega)]
    rfl
  refine ⟨⟨fun j hj hj4 hj5 => ?_, .inl hcmd⟩, hcmd⟩
  rw [setMsgResponse, Function.update_of_ne hj5, Function.update_of_ne hj4, h j hj]

theorem refuses (m : ℕ → UInt8) (n : UInt8) (e : MsgErrorCode) :
    Refuses m (setMsgErrorResponse m n e) :=
  setMsgErrorResponse_refuses (fun _ _ _ _ => rfl) rfl n e

theorem respond_grants (m : ℕ → UInt8) (data : List UInt8) : Grants m (respond m data) :=
  setMsgResponse_grants (fun j hj => put_of_lt data _ m (show j < 8 from hj)) _

/-- Of a command without the error bit, the error bit tells. -/
theorem Grants.isError {r : ℕ → UInt8} (h : Grants m r) (hm : Start01.isError m = false) :
    Start01.isError r = false := by
  rw [Start01.isError, bCmd, h.cmd]
  rw [Start01.isError, bCmd] at hm
  have hbit := forall_byte (p := fun x => decide (x &&& 0x80 ≠ 0) = false →
    decide ((x &&& 0xBF) &&& 0x80 ≠ 0) = false) (by decide)
  exact hbit (m 4) hm

/-! ### Commands to an instance -/

variable {i : ℕ} {adi : AdiInstance}

theorem setMsgResponse_behind (m : ℕ → UInt8) (n : UInt8) {j : ℕ} (h : 8 ≤ j) :
    setMsgResponse m n j = m j := by
  rw [setMsgResponse, Function.update_of_ne (by omega), Function.update_of_ne (by omega)]

/-- The header is not the value. -/
theorem netValue_setMsgResponse (eFormat bDataType : UInt8) (m : ℕ → UInt8) (n : UInt8) :
    netValue eFormat bDataType (setMsgResponse m n) 8 = netValue eFormat bDataType m 8 :=
  netValue_congr fun _ hj _ => setMsgResponse_behind m n hj

/-- A value in an answer. -/
theorem respondValue_spec (hi : asInstance[i]? = some adi) (s : Appd) (m pxValue : ℕ → UInt8) :
    Grants m (s.respondValue m adi pxValue) ∧
      netValue s.eBigEndianNetOrder adi.bDataType (s.respondValue m adi pxValue) 8
        = valueOf adi.bDataType pxValue := by
  obtain ⟨hone, -⟩ := instance_spec (List.mem_of_getElem? hi)
  have hone : adi.bNumberOfElements.toNat = 1 := by rw [hone]; rfl
  unfold respondValue
  rw [hone]
  constructor
  · exact setMsgResponse_grants
      (fun j hj => swapToNetOrder_outside _ _ _ _ _ _ (.inl (show j < 8 from hj))) _
  · rw [netValue_setMsgResponse]
    exact netValue_swapToNetOrder s m 8 pxValue adi.bDataType

/-- ABP_CMD_GET_ATTR is answered, and the value is the one in memory. -/
theorem getAttr_spec (hi : asInstance[i]? = some adi) (s : Appd) (m : ℕ → UInt8) :
    AnswerTo m (s.getAttr i adi m) ∧ (bCmdExt0 m = 5 → Grants m (s.getAttr i adi m) ∧
      netValue s.eBigEndianNetOrder adi.bDataType (s.getAttr i adi m) 8 = s.bank i) := by
  have hget : ∀ adi ∈ asInstance, ¬ adi.bDescriptor &&& descrGetAccess = 0 := by decide
  have hvalue := respondValue_spec hi s m (s.pxValue i)
  have hother : ∀ {k : ℕ}, k ≠ 5 → (bCmdExt0 m).toNat = k → bCmdExt0 m ≠ 5 := by
    intro k hk hext hc
    rw [hc] at hext
    exact hk hext.symm
  unfold getAttr
  split
  · rename_i hext
    exact ⟨(respond_grants m _).answer, fun hc => absurd hc (hother (by decide) hext)⟩
  · rename_i hext
    exact ⟨(respond_grants m _).answer, fun hc => absurd hc (hother (by decide) hext)⟩
  · rename_i hext
    exact ⟨(respond_grants m _).answer, fun hc => absurd hc (hother (by decide) hext)⟩
  · rename_i hext
    exact ⟨(respond_grants m _).answer, fun hc => absurd hc (hother (by decide) hext)⟩
  · rw [if_neg (hget adi (List.mem_of_getElem? hi)), bank_eq hi]
    exact ⟨hvalue.1.answer, fun _ => hvalue⟩
  · rename_i hext
    exact ⟨(respondValue_spec hi s m _).1.answer, fun hc => absurd hc (hother (by decide) hext)⟩
  · rename_i hext
    exact ⟨(respondValue_spec hi s m _).1.answer, fun hc => absurd hc (hother (by decide) hext)⟩
  · rename_i hext
    exact ⟨(respondValue_spec hi s m _).1.answer, fun hc => absurd hc (hother (by decide) hext)⟩
  · have hext : (bCmdExt0 m).toNat ≠ 5 := by assumption
    exact ⟨(refuses m 1 _).answer, fun hc => absurd (congrArg UInt8.toNat hc) hext⟩

/-- No value is an array. -/
theorem indexedAttr_spec (hi : asInstance[i]? = some adi) (s : Appd) (m : ℕ → UInt8) :
    ∃ r, s.indexedAttr i adi m = (s, r) ∧ Refuses m r := by
  obtain ⟨hone, -⟩ := instance_spec (List.mem_of_getElem? hi)
  unfold indexedAttr
  split
  · exact ⟨_, rfl, refuses m 1 _⟩
  · exact ⟨_, rfl, refuses m 1 _⟩
  · exact ⟨_, rfl, refuses m 1 _⟩
  · exact ⟨_, rfl, refuses m 1 _⟩
  · exact ⟨_, rfl, refuses m 1 _⟩
  · exact ⟨_, rfl, refuses m 1 _⟩
  · exact ⟨_, rfl, refuses m 1 _⟩
  · rw [if_pos (by rw [hone]; decide)]
    exact ⟨_, rfl, refuses m 1 _⟩
  · exact ⟨_, rfl, refuses m 1 _⟩

/-- The value of the command is offered. -/
theorem setElements_spec (hi : asInstance[i]? = some adi) (s : Appd) (m : ℕ → UInt8) :
    ∃ s' r, setElements i adi adi.bNumberOfElements.toNat 0 sizeofMsgHeader (s, setMsgResponse m 0)
        = (s', r) ∧ Same s s' ∧
      s'.bank = Bank.offer limits s.bank (i, netValue s.eBigEndianNetOrder adi.bDataType m 8) ∧
      if limits.Takes (i, netValue s.eBigEndianNetOrder adi.bDataType m 8) then Grants m r
        else Refuses m r := by
  obtain ⟨hone, -⟩ := instance_spec (List.mem_of_getElem? hi)
  have hone : adi.bNumberOfElements.toNat = 1 := by rw [hone]; rfl
  obtain ⟨hsame, hbank, hrange, hout⟩ := updateAdiVal_spec hi s (setMsgResponse m 0) sizeofMsgHeader
  have hvalue : netValue s.eBigEndianNetOrder adi.bDataType (setMsgResponse m 0) sizeofMsgHeader
      = netValue s.eBigEndianNetOrder adi.bDataType m 8 := netValue_setMsgResponse _ _ m 0
  rw [hvalue] at hbank hrange
  rw [hone, setElements]
  generalize s.updateAdiVal i adi (setMsgResponse m 0) sizeofMsgHeader 0 = u at *
  obtain ⟨s', m', bNotInRange⟩ := u
  have hheader : ∀ j < 8, m' j = setMsgResponse m 0 j := fun j hj => hout j (.inl hj)
  dsimp only at hsame hbank hrange ⊢
  by_cases htakes : limits.Takes (i, netValue s.eBigEndianNetOrder adi.bDataType m 8)
  · rw [if_neg (not_not.mpr (hrange.mpr htakes)), setElements]
    refine ⟨s', m', rfl, hsame, hbank, ?_⟩
    rw [if_pos htakes]
    obtain ⟨hgrant, hcmd⟩ := @setMsgResponse_grants m m (fun _ _ => rfl) 0
    have h4 : m' 4 = m 4 &&& 0xBF := (hheader 4 (by omega)).trans hcmd
    exact ⟨⟨fun j hj h4 h5 => (hheader j hj).trans (hgrant.same j hj h4 h5), .inl h4⟩, h4⟩
  · rw [if_pos fun h => htakes (hrange.mp h)]
    refine ⟨s', _, rfl, hsame, hbank, ?_⟩
    rw [if_neg htakes]
    obtain ⟨hgrant, hcmd⟩ := @setMsgResponse_grants m m (fun _ _ => rfl) 0
    refine setMsgErrorResponse_refuses
      (fun j hj h4 h5 => (hheader j hj).trans (hgrant.same j hj h4 h5)) ?_ 1 _
    rw [hheader 4 (by omega), hcmd]
    exact forall_byte (p := fun x => x &&& 0xBF &&& 0xBF = x &&& 0xBF) (by decide) (m 4)

/-- Only attribute 5 may be set… -/
theorem setAttr_other (s : Appd) (i : ℕ) (adi : AdiInstance) (h5 : bCmdExt0 m ≠ 5) :
    ∃ e, s.setAttr i adi m = (s, setMsgErrorResponse m 1 e) := by
  unfold setAttr
  split
  case h_8 hext => exact absurd (UInt8.toNat_inj.mp hext) h5
  all_goals exact ⟨_, rfl⟩

/-- ABP_APPD_IA_VALUE_ATTR. -/
theorem setAttr_five (s : Appd) (i : ℕ) (adi : AdiInstance) (h5 : bCmdExt0 m = 5) :
    s.setAttr i adi m =
      if adi.bDescriptor &&& descrSetAccess = 0 then (s, setMsgErrorResponse m 1 .attrNotSetable)
      else if (bDataSize m).toNat > adi.sizeOfAdiVal then (s, setMsgErrorResponse m 1 .tooMuchData)
      else if (bDataSize m).toNat < adi.sizeOfAdiVal then
        (s, setMsgErrorResponse m 1 .notEnoughData)
      else setElements i adi adi.bNumberOfElements.toNat 0 sizeofMsgHeader
        (s, setMsgResponse m 0) := by
  have hext : (bCmdExt0 m).toNat = 5 := by
    rw [h5]
    rfl
  unfold setAttr
  rw [hext]
  rfl

/-- …to a value that may be stored… -/
theorem setAttr_refused (s : Appd) (i : ℕ) (h5 : bCmdExt0 m = 5) (hnot : ¬ Settable adi m) :
    ∃ e, s.setAttr i adi m = (s, setMsgErrorResponse m 1 e) := by
  rw [setAttr_five s i adi h5]
  split
  · exact ⟨_, rfl⟩
  split
  · exact ⟨_, rfl⟩
  split
  · exact ⟨_, rfl⟩
  · rename_i haccess hmuch hfew
    exact absurd ⟨haccess, by omega⟩ hnot

/-- …and then it is set. -/
theorem setAttr_value (s : Appd) (i : ℕ) (h5 : bCmdExt0 m = 5) (hs : Settable adi m) :
    s.setAttr i adi m = setElements i adi adi.bNumberOfElements.toNat 0 sizeofMsgHeader
      (s, setMsgResponse m 0) := by
  rw [setAttr_five s i adi h5, if_neg hs.1, if_neg (by rw [hs.2]; omega),
    if_neg (by rw [hs.2]; omega)]

/-- ABP_CMD_SET_ATTR is answered, and a value is set or nothing changes. -/
theorem setAttr_spec (hi : asInstance[i]? = some adi) (s : Appd) (m : ℕ → UInt8) :
    ∃ s' r, s.setAttr i adi m = (s', r) ∧ Same s s' ∧
      (bCmdExt0 m ≠ 5 → s' = s ∧ Refuses m r) ∧
      (bCmdExt0 m = 5 → ¬ Settable adi m → s' = s ∧ Refuses m r) ∧
      (bCmdExt0 m = 5 → Settable adi m →
        s'.bank = Bank.offer limits s.bank (i, netValue s.eBigEndianNetOrder adi.bDataType m 8) ∧
        if limits.Takes (i, netValue s.eBigEndianNetOrder adi.bDataType m 8) then Grants m r
          else Refuses m r) := by
  by_cases h5 : bCmdExt0 m = 5
  · by_cases hs : Settable adi m
    · obtain ⟨s', r, hset, hsame, hbank, hanswer⟩ := setElements_spec hi s m
      exact ⟨s', r, (setAttr_value s i h5 hs).trans hset, hsame, fun hc => absurd h5 hc,
        fun _ hc => absurd hs hc, fun _ _ => ⟨hbank, hanswer⟩⟩
    · obtain ⟨e, hset⟩ := setAttr_refused s i h5 hs
      exact ⟨s, _, hset, .refl s, fun _ => ⟨rfl, refuses m 1 e⟩, fun _ _ => ⟨rfl, refuses m 1 e⟩,
        fun _ hc => absurd hc hs⟩
  · obtain ⟨e, hset⟩ := setAttr_other s i adi h5
    exact ⟨s, _, hset, .refl s, fun _ => ⟨rfl, refuses m 1 e⟩, fun _ _ => ⟨rfl, refuses m 1 e⟩,
      fun hc => absurd hc h5⟩

end Appd

end Start01
