/-
Start01/AbccCbf.lean

The application behind the Anybus driver: the application object (app.c), the objects of the two
networks (dev.c and dpv1.c), the application data object and the client (appc.c), and the function
of abcc_cbf.c that gives each message of the module to one of them (`newMsgFromAbcc`).

For each command one message is given to `ABCC_SendMessage`: a response with the header of the
command; only a command to reset the application object goes back as it came.  A response goes to
the client, which gives the command of its state to `ABCC_SendMessage` (`newMsgFromAbcc_spec`).
-/
import Start01.AbccRun
import Start01.Appc
import Start01.AppdRefine

namespace Start01

open Appd

/-! ### The objects -/

/-- ABP_LANG_ENG. -/
def langEng : UInt8 := 0

/-- `app_ObjectCommand`.  ABP_CMD_RESET leaves the message as it is. -/
def appObjectCommand (m : ℕ → UInt8) : ℕ → UInt8 :=
  match (cmdBits m).toNat with
  | 0x01 => objectAttr "Application" 0x01 1 1 m
  | 0x10 => setMsgErrorResponse m 1 .unsupCmd
  | 0x05 => m
  | _ => setMsgErrorResponse m 1 .unsupCmd

/-- `app_InstanceCommand`: fConfigured and bSupportedLanguages, and `app_aacLanguages`. -/
def appInstanceCommand (m : ℕ → UInt8) : ℕ → UInt8 :=
  if iInstance m ≠ 1 then setMsgErrorResponse m 1 .unsupInst
  else
    match (cmdBits m).toNat with
    | 0x01 =>
      match (bCmdExt0 m).toNat with
      | 1 => respond m [0]
      | 2 => respond m [langEng]
      | _ => setMsgErrorResponse m 1 .invCmdExt0
    | 0x06 =>
      match (bCmdExt0 m).toNat with
      | 2 =>
        if bCmdExt1 m ≤ langEng then respond m (stringData "English")
        else setMsgErrorResponse m 1 .invCmdExt1
      | _ => setMsgErrorResponse m 1 .invCmdExt0
    | _ => setMsgErrorResponse m 1 .unsupCmd

/-- `APP_ProcessCmdMsg`, up to the message that it sends. -/
def appProcessCmdMsg (m : ℕ → UInt8) : ℕ → UInt8 :=
  if iInstance m = 0 then appObjectCommand m else appInstanceCommand m

/-- `dev_ObjectCommand` and `dpv1_ObjectCommand`. -/
def netObjectCommand (pcName : String) (m : ℕ → UInt8) : ℕ → UInt8 :=
  match (cmdBits m).toNat with
  | 0x01 => objectAttr pcName 1 1 1 m
  | _ => setMsgErrorResponse m 1 .unsupCmd

/-- `dev_ObjectCommand`. -/
def devObjectCommand : (ℕ → UInt8) → ℕ → UInt8 := netObjectCommand "DeviceNet"

/-- `dpv1_ObjectCommand`. -/
def dpv1ObjectCommand : (ℕ → UInt8) → ℕ → UInt8 := netObjectCommand "Profibus"

/-- `dev_InstanceCommand`: bMajorRevision and bMinorRevision, and pcProductName. -/
def devInstanceCommand (m : ℕ → UInt8) : ℕ → UInt8 :=
  if iInstance m ≠ 1 then setMsgErrorResponse m 1 .unsupInst
  else
    match (cmdBits m).toNat with
    | 0x01 =>
      match (bCmdExt0 m).toNat with
      | 6 => respond m (stringData "Anybus CompactCom example")
      | 4 => respond m [1, 1]
      | _ => setMsgErrorResponse m 1 .invCmdExt0
    | _ => setMsgErrorResponse m 1 .unsupCmd

/-- `DEV_ProcessCmdMsg`, up to the message that it sends. -/
def devProcessCmdMsg (m : ℕ → UInt8) : ℕ → UInt8 :=
  if iInstance m = 0 then devObjectCommand m else devInstanceCommand m

/-- ABP_CMD_GET_ATTR: iIdentNumber, fSsaEnabled, bSizeOfIdRelDiag and bBufferMode. -/
def dpv1GetAttr (m : ℕ → UInt8) : ℕ → UInt8 :=
  match (bCmdExt0 m).toNat with
  | 1 => respond m (wordData 0x1811)
  | 2 => setMsgErrorResponse m 1 .attrNotGetable
  | 4 => respond m [1]
  | 5 => respond m [0]
  | 6 => respond m [5]
  | _ => setMsgErrorResponse m 1 .invCmdExt0

/-- ABP_CMD_SET_ATTR.  Ten bytes are copied to `abPrmData`, of a message of seven, too. -/
def dpv1SetAttr (abPrmData : List UInt8) (m : ℕ → UInt8) : List UInt8 × (ℕ → UInt8) :=
  match (bCmdExt0 m).toNat with
  | 2 =>
    if (bDataSize m).toNat > 10 then (abPrmData, setMsgErrorResponse m 1 .tooMuchData)
    else if (bDataSize m).toNat < 7 then (abPrmData, setMsgErrorResponse m 1 .notEnoughData)
    else ((List.range 10).map fun i => m (sizeofMsgHeader + i), setMsgResponse m 0)
  | 1 | 3 | 4 | 5 | 6 => (abPrmData, setMsgErrorResponse m 1 .attrNotSetable)
  | _ => (abPrmData, setMsgErrorResponse m 1 .invCmdExt0)

/-- `dpv1_InstanceCommand`. -/
def dpv1InstanceCommand (abPrmData : List UInt8) (m : ℕ → UInt8) : List UInt8 × (ℕ → UInt8) :=
  if iInstance m ≠ 1 then (abPrmData, setMsgErrorResponse m 1 .unsupInst)
  else
    match (cmdBits m).toNat with
    | 0x01 => (abPrmData, dpv1GetAttr m)
    | 0x02 => dpv1SetAttr abPrmData m
    | _ => (abPrmData, setMsgErrorResponse m 1 .unsupCmd)

/-- `DPV1_ProcessCmdMsg`, up to the message that it sends. -/
def dpv1ProcessCmdMsg (abPrmData : List UInt8) (m : ℕ → UInt8) : List UInt8 × (ℕ → UInt8) :=
  if iInstance m = 0 then (abPrmData, dpv1ObjectCommand m) else dpv1InstanceCommand abPrmData m

/-! ### The dispatch -/

/-- What the objects keep. -/
structure Appl where
  appd : Appd
  abPrmData : List UInt8
  appc : Appc

/-- What `ABCC_CbfNewMsgFromAbcc` does. -/
structure Reaction where
  appl : Appl
  /-- The message, as it is left in its buffer. -/
  msg : ℕ → UInt8
  /-- What is given to `ABCC_SendMessage`, and what that returns. -/
  offered : List ((ℕ → UInt8) × AbccStatus)

namespace Appl

/-- The message is made an answer, which is given to `ABCC_SendMessage`. -/
def answer (a : Appl) (sendMessage : Appd → (ℕ → UInt8) → AbccStatus) (r : ℕ → UInt8) : Reaction :=
  ⟨a, r, [(r, sendMessage a.appd r)]⟩

/-- `ABCC_CbfNewMsgFromAbcc`.  `sendMessage` is what `ABCC_SendMessage` returns, when the application
data object is as given. -/
def newMsgFromAbcc (a : Appl) (sendMessage : Appd → (ℕ → UInt8) → AbccStatus) (m : ℕ → UInt8) :
    Option Reaction :=
  if isCommand m ∧ isError m then
    some (a.answer sendMessage (setMsgErrorResponse m 1 .invMsgFormat))
  else if isCommand m then
    match (bDestObj m).toNat with
    | 255 => some (a.answer sendMessage (appProcessCmdMsg m))
    | 254 => (a.appd.processCmdMsg m).map fun (appd, r) =>
      { a with appd := appd }.answer sendMessage r
    | 252 => some (a.answer sendMessage (devProcessCmdMsg m))
    | 253 =>
      let (abPrmData, r) := dpv1ProcessCmdMsg a.abPrmData m
      some ({ a with abPrmData := abPrmData }.answer sendMessage r)
    | _ => some (a.answer sendMessage (setMsgErrorResponse m 1 .unsupObj))
  else
    let (appc, offered) := a.appc.runStateMachine (sendMessage a.appd)
    some ⟨{ a with appc := appc }, Appc.processRespMsg m, offered⟩

end Appl

/-- A command to reset the application object. -/
def IsReset (m : ℕ → UInt8) : Prop :=
  isError m = false ∧ bDestObj m = 255 ∧ iInstance m = 0 ∧ cmdBits m = 0x05

/-- For a command, one message is given to `ABCC_SendMessage`, its answer; for a response, the
command of the client `c`, which goes on exactly if it is accepted. -/
def Answered (m : ℕ → UInt8) (c : Appc) (x : Reaction) : Prop :=
  if isCommand m then x.appl.appc = c ∧ ∃ r status, x.offered = [(r, status)] ∧
    (IsReset m ∧ r = m ∨ ¬ IsReset m ∧ AnswerTo m r)
  else match c.request with
    | none => x.appl.appc = c ∧ x.offered = []
    | some (r, next) => ∃ status, x.offered = [(r, status)] ∧
      x.appl.appc.eState = if status = .ok then next else c.eState

variable {m r : ℕ → UInt8}

/-! ### Answers -/

theorem appObjectCommand_spec (h : cmdBits m ≠ 0x05) : AnswerTo m (appObjectCommand m) := by
  unfold appObjectCommand
  split
  · exact objectAttr_answer _ _ _ _ m
  · exact (refuses m 1 _).answer
  · rename_i hcmd
    exact absurd (UInt8.toNat_inj.mp hcmd) h
  · exact (refuses m 1 _).answer

/-- A reset goes back as it came. -/
theorem appObjectCommand_reset (h : cmdBits m = 0x05) : appObjectCommand m = m := by
  unfold appObjectCommand
  rw [h]
  rfl

/-- Every command to the instance of the application object is answered. -/
theorem appInstanceCommand_spec (m : ℕ → UInt8) : AnswerTo m (appInstanceCommand m) := by
  unfold appInstanceCommand
  split
  · exact (refuses m 1 _).answer
  split
  · split
    · exact (respond_grants m _).answer
    · exact (respond_grants m _).answer
    · exact (refuses m 1 _).answer
  · split
    · split
      · exact (respond_grants m _).answer
      · exact (refuses m 1 _).answer
    · exact (refuses m 1 _).answer
  · exact (refuses m 1 _).answer

/-- Every command to a network object is answered. -/
theorem netObjectCommand_spec (pcName : String) (m : ℕ → UInt8) :
    AnswerTo m (netObjectCommand pcName m) := by
  unfold netObjectCommand
  split
  · exact objectAttr_answer _ _ _ _ m
  · exact (refuses m 1 _).answer

/-- The DeviceNet object answers every command. -/
theorem devProcessCmdMsg_spec (m : ℕ → UInt8) : AnswerTo m (devProcessCmdMsg m) := by
  unfold devProcessCmdMsg
  split
  · exact netObjectCommand_spec _ m
  unfold devInstanceCommand
  split
  · exact (refuses m 1 _).answer
  split
  · split
    · exact (respond_grants m _).answer
    · exact (respond_grants m _).answer
    · exact (refuses m 1 _).answer
  · exact (refuses m 1 _).answer

theorem dpv1GetAttr_spec (m : ℕ → UInt8) : AnswerTo m (dpv1GetAttr m) := by
  unfold dpv1GetAttr
  split
  all_goals first
    | exact (respond_grants m _).answer
    | exact (refuses m 1 _).answer

theorem dpv1SetAttr_spec (abPrmData : List UInt8) (m : ℕ → UInt8) :
    AnswerTo m (dpv1SetAttr abPrmData m).2 := by
  unfold dpv1SetAttr
  split
  · split
    · exact (refuses m 1 _).answer
    split
    · exact (refuses m 1 _).answer
    · exact (@setMsgResponse_grants m m (fun _ _ => rfl) 0).answer
  all_goals exact (refuses m 1 _).answer

/-- So does the Profibus object, and the length of its data stays. -/
theorem dpv1ProcessCmdMsg_spec (abPrmData : List UInt8) (m : ℕ → UInt8) :
    AnswerTo m (dpv1ProcessCmdMsg abPrmData m).2 := by
  unfold dpv1ProcessCmdMsg
  split
  · exact netObjectCommand_spec _ m
  unfold dpv1InstanceCommand
  split
  · exact (refuses m 1 _).answer
  split
  · exact dpv1GetAttr_spec m
  · exact dpv1SetAttr_spec abPrmData m
  · exact (refuses m 1 _).answer

/-! ### What the driver asks for -/

/-- An answer has the number of the command, and is none itself. -/
theorem Appd.AnswerTo.bits (h : AnswerTo m r) : cmdBits r = cmdBits m ∧ isCommand r = false := by
  have hbits := forall_byte (p := fun x => (x &&& 0xBF) &&& 0x3F = x &&& 0x3F ∧
    (x &&& 0xBF ||| 0x80) &&& 0x3F = x &&& 0x3F ∧ decide ((x &&& 0xBF) &&& 0x40 ≠ 0) = false ∧
    decide ((x &&& 0xBF ||| 0x80) &&& 0x40 ≠ 0) = false) (by decide) (m 4)
  obtain ⟨hgrant, hrefuse, hcmd, hcmd'⟩ := hbits
  rw [cmdBits, cmdBits, isCommand, bCmd, bCmd]
  rcases h.cmd with h4 | h4
  · rw [h4]
    exact ⟨hgrant, hcmd⟩
  · rw [h4]
    exact ⟨hrefuse, hcmd'⟩

theorem remapOk_of_command (h : isCommand m = true) : RemapOk m := by
  intro hno
  rw [h] at hno
  cases hno

theorem remapOk_of_error (h : isError m = true) : RemapOk m := by
  intro _ hack
  unfold isRemapAck at hack
  rw [h, Bool.not_true, Bool.and_false] at hack
  cases hack

/-- Only the application data object acknowledges remap commands. -/
theorem remapOk_of_dest (h : bDestObj m ≠ 254) : RemapOk m := by
  intro _ hack
  unfold isRemapAck at hack
  rw [beq_eq_false_iff_ne.mpr h] at hack
  cases hack

theorem Appd.AnswerTo.dest (h : AnswerTo m r) : bDestObj r = bDestObj m :=
  h.same 1 (by decide) (by decide) (by decide)

theorem Appd.AnswerTo.remapOk (h : AnswerTo m r) (hdest : bDestObj m ≠ 254) : RemapOk r := by
  rw [← h.dest] at hdest
  exact remapOk_of_dest hdest

theorem not_isReset_of_dest (h : bDestObj m ≠ 255) : ¬ IsReset m :=
  fun hreset => h hreset.2.1

section Sent

variable {a : Appl} {sendMessage : Appd → (ℕ → UInt8) → AbccStatus}

theorem Answered.one (hcmd : isCommand m = true) (hreset : ¬ IsReset m) (h : AnswerTo m r) :
    Answered m a.appc (a.answer sendMessage r) := by
  rw [Answered, if_pos hcmd]
  exact ⟨rfl, r, _, rfl, .inr ⟨hreset, h⟩⟩

/-- A response runs the client. -/
theorem Answered.response (hcmd : isCommand m = false) : Answered m a.appc
    ⟨{ a with appc := (a.appc.runStateMachine (sendMessage a.appd)).1 }, Appc.processRespMsg m,
      (a.appc.runStateMachine (sendMessage a.appd)).2⟩ := by
  rw [Answered, if_neg (by rw [hcmd]; decide), Appc.runStateMachine]
  cases hrequest : a.appc.request with
  | none => exact ⟨rfl, rfl⟩
  | some p =>
    refine ⟨_, rfl, ?_⟩
    dsimp only
    split
    · rfl
    · rfl

end Sent

/-- The application object sends a reset back as it came, a command still. -/
theorem appProcessCmdMsg_spec (hcmd : isCommand m = true) (herror : isError m = false)
    (hdest : bDestObj m = 255) :
    (IsReset m ∧ appProcessCmdMsg m = m ∨ ¬ IsReset m ∧ AnswerTo m (appProcessCmdMsg m)) ∧
      RemapOk (appProcessCmdMsg m) := by
  have hne : bDestObj m ≠ 254 := by
    rw [hdest]
    decide
  unfold appProcessCmdMsg
  split
  · rename_i hinst
    by_cases hreset : cmdBits m = 0x05
    · rw [appObjectCommand_reset hreset]
      exact ⟨.inl ⟨⟨herror, hdest, hinst, hreset⟩, rfl⟩, remapOk_of_command hcmd⟩
    · have hans := appObjectCommand_spec hreset
      exact ⟨.inr ⟨fun hc => hreset hc.2.2.2, hans⟩, hans.remapOk hne⟩
  · rename_i hinst
    have hans := appInstanceCommand_spec m
    exact ⟨.inr ⟨fun hc => hinst hc.2.2.1, hans⟩, hans.remapOk hne⟩

/-- A remap command to an instance is refused. -/
theorem instanceCommand_remap (s : Appd) (h : cmdBits m = 0x13) :
    ∃ s', ∃ r, s.instanceCommand m = (s', r) ∧ Refuses m r := by
  unfold instanceCommand
  split
  · exact ⟨_, _, rfl, refuses m 1 _⟩
  · rw [h]
    exact ⟨_, _, rfl, refuses m 1 _⟩

/-- An acknowledgment of the application data object has the size of its process data. -/
theorem remapOk_processCmdMsg {s s' : Appd} (h : s.processCmdMsg m = some (s', r))
    (hans : s.Answers m s' r) : RemapOk r := by
  intro hcommand hack
  have hcmd : cmdBits m = 0x13 := by
    unfold isRemapAck at hack
    simp only [Bool.and_eq_true, beq_iff_eq] at hack
    rw [← hans.answer.bits.1]
    exact hack.1.2
  have herror : isError r = false := by
    unfold isRemapAck at hack
    simp only [Bool.and_eq_true, Bool.not_eq_true'] at hack
    exact hack.1.1.2
  by_cases hinst : iInstance m = 0
  · -- the drive has mapped its list
    have hevent := hans.event
    have hdrive := hans.drive
    rw [observe, if_pos hinst, if_pos (.inl hcmd), herror, Drive.command, if_pos hinst,
      if_pos hcmd] at hevent
    rw [Drive.command, if_pos hinst, if_pos hcmd] at hdrive
    by_cases hacc : Acceptable s.drive.write m
    · rw [if_pos hacc] at hevent hdrive
      have hsize : (word r 8).toNat = totalSize (remapped s.drive.write m) := by
        simpa using hevent
      have hwrite : s'.sMyWriteMappings.items = remapped s.drive.write m :=
        congrArg Drive.write hdrive
      have hten := hans.good.write.totalSize_le
      rw [hwrite, ← hsize] at hten
      exact UInt16.le_iff_toNat_le.mpr (hten.trans (by decide))
    · rw [if_neg hacc] at hevent
      simp at hevent
  · unfold processCmdMsg at h
    rw [if_neg hinst] at h
    obtain ⟨s₁, r₁, hrefuse, hrefuses⟩ := instanceCommand_remap s hcmd
    rw [hrefuse] at h
    obtain ⟨-, rfl⟩ := Prod.mk.inj (Option.some.inj h)
    rw [hrefuses.error] at herror
    cases herror

namespace Appl

/-- What holds between two messages. -/
structure Good (a : Appl) : Prop where
  appd : a.appd.Good
  ranged : a.appd.drive.Ranged
  ordered : a.appc.Ordered

/-- A remap command that is accepted does not lose a map. -/
def MessageOk (a : Appl) (m : ℕ → UInt8) : Prop :=
  isCommand m = true → isError m = false → bDestObj m = 254 → a.appd.CommandOk m

variable {a : Appl} {sendMessage : Appd → (ℕ → UInt8) → AbccStatus}

/-- What is right of a reaction. -/
structure Reacts (a : Appl) (sendMessage : Appd → (ℕ → UInt8) → AbccStatus) (m : ℕ → UInt8)
    (x : Reaction) : Prop where
  good : x.appl.Good
  answered : Answered m a.appc x
  status : ∀ p ∈ x.offered, p.2 = sendMessage x.appl.appd p.1
  remapOk : ∀ p ∈ x.offered, RemapOk p.1
  /-- At most one message is given to `ABCC_SendMessage`. -/
  atMostOne : x.offered.length ≤ 1

/-- What an object answers is what is offered. -/
theorem reacts_answer {b : Appl} (hgood : b.Good) {r : ℕ → UInt8} (hremap : RemapOk r)
    (hans : Answered m a.appc (b.answer sendMessage r)) :
    Reacts a sendMessage m (b.answer sendMessage r) where
  good := hgood
  answered := hans
  status := List.forall_mem_singleton.mpr rfl
  remapOk := List.forall_mem_singleton.mpr hremap
  atMostOne := le_refl 1

/-- **Dispatch.**  For each command one message is given to `ABCC_SendMessage`, and for each response
at most one; and no answer is an acknowledgment that the driver does not expect. -/
theorem newMsgFromAbcc_spec (h : a.Good) (sendMessage : Appd → (ℕ → UInt8) → AbccStatus)
    (m : ℕ → UInt8) (hok : a.MessageOk m) :
    ∃ x, a.newMsgFromAbcc sendMessage m = some x ∧ Reacts a sendMessage m x := by
  by_cases hcmd : isCommand m = true
  · have hone : ∀ {b : Appl} {r : ℕ → UInt8}, b.Good → b.appc = a.appc → ¬ IsReset m →
        AnswerTo m r → RemapOk r → Reacts a sendMessage m (b.answer sendMessage r) := by
      intro b r hgood hsame hreset hans hremap
      exact reacts_answer hgood hremap (hsame ▸ Answered.one hcmd hreset hans)
    unfold newMsgFromAbcc
    split
    · rename_i hbits
      have hreset : ¬ IsReset m := fun hc => absurd (hbits.2.symm.trans hc.1) (by decide)
      exact ⟨_, rfl, hone h rfl hreset (refuses m 1 _).answer
        (remapOk_of_error (refuses m 1 _).error)⟩
    rename_i hbits
    have herror : isError m = false := Bool.eq_false_iff.mpr fun he => hbits ⟨hcmd, he⟩
    split
    · rename_i hdest
      obtain ⟨hans, hremap⟩ := appProcessCmdMsg_spec hcmd herror (UInt8.toNat_inj.mp hdest)
      refine ⟨_, rfl, reacts_answer h hremap ?_⟩
      rw [Answered, if_pos hcmd]
      exact ⟨rfl, _, _, rfl, hans⟩
    · rename_i hdest
      have hdest : bDestObj m = 254 := UInt8.toNat_inj.mp hdest
      obtain ⟨s', r, hprocess, hans⟩ := processCmdMsg_spec h.appd (hok hcmd herror hdest)
      have hranged : s'.drive.Ranged := hans.drive ▸ (h.ranged.command m).1
      have hreset : ¬ IsReset m := not_isReset_of_dest (by rw [hdest]; decide)
      refine ⟨_, by rw [hprocess]; rfl, hone (b := { a with appd := s' })
        ⟨hans.good, hranged, h.ordered⟩ rfl hreset hans.answer (remapOk_processCmdMsg hprocess hans)⟩
    · rename_i hdest
      have hdest : bDestObj m = 252 := UInt8.toNat_inj.mp hdest
      have hans := devProcessCmdMsg_spec m
      have hreset : ¬ IsReset m := not_isReset_of_dest (by rw [hdest]; decide)
      exact ⟨_, rfl, hone h rfl hreset hans (hans.remapOk (by rw [hdest]; decide))⟩
    · rename_i hdest
      have hdest : bDestObj m = 253 := UInt8.toNat_inj.mp hdest
      have hans := dpv1ProcessCmdMsg_spec a.abPrmData m
      have hreset : ¬ IsReset m := not_isReset_of_dest (by rw [hdest]; decide)
      exact ⟨_, rfl, hone (b := { a with abPrmData := (dpv1ProcessCmdMsg a.abPrmData m).1 })
        ⟨h.appd, h.ranged, h.ordered⟩ rfl hreset hans (hans.remapOk (by rw [hdest]; decide))⟩
    · have hdest : (bDestObj m).toNat ≠ 255 := by assumption
      have hreset : ¬ IsReset m := not_isReset_of_dest fun hc => hdest (by rw [hc]; rfl)
      exact ⟨_, rfl, hone h rfl hreset (refuses m 1 _).answer
        (remapOk_of_error (refuses m 1 _).error)⟩
  · have hresponse := @Answered.response m a sendMessage (Bool.eq_false_iff.mpr hcmd)
    have hoffered : (∀ p ∈ (a.appc.runStateMachine (sendMessage a.appd)).2,
        p.2 = sendMessage a.appd p.1) ∧
        (a.appc.runStateMachine (sendMessage a.appd)).2.length ≤ 1 := by
      rw [Appc.runStateMachine]
      split
      · exact ⟨fun p hp => absurd hp List.not_mem_nil, Nat.zero_le 1⟩
      · exact ⟨List.forall_mem_singleton.mpr rfl, le_refl 1⟩
    have hcommand := @Appc.offered_isCommand a.appc (sendMessage a.appd)
    have hordered := h.ordered.runStateMachine (sendMessage a.appd)
    rw [newMsgFromAbcc, if_neg fun hc => hcmd hc.1, if_neg hcmd]
    dsimp only
    generalize a.appc.runStateMachine (sendMessage a.appd) = ran at *
    exact ⟨_, rfl, ⟨h.appd, h.ranged, hordered⟩, hresponse, hoffered.1,
      fun p hp => remapOk_of_command (hcommand p hp), hoffered.2⟩

end Appl

end Start01
