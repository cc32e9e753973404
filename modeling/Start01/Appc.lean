/-
Start01/Appc.lean

The client of the Anybus application, appc.c, that sets the module up.  It sends one command in each
state, and goes to the next state only if `ABCC_SendMessage` has returned ABCC_STATUS_OK; it tries
again with the next response.

So the commands that are accepted after `APPC_Init` come one after another in the order of the
states, each of them once (`Appc.Ordered`).
-/
import Start01.Abcc

namespace Start01

/-- `APPC_StateType`. -/
inductive AppcState
  | nwType
  | firmware
  | serialNo
  | dipSw1
  | dipSw2
  | setupComplete
  | done
  deriving DecidableEq

/-- The private globals of appc.c, and a ghost. -/
structure Appc where
  eState : AppcState
  bSwitch1 : UInt8
  bSwitch2 : UInt8
  fSwitch1Set : Bool
  fSwitch2Set : Bool
  /-- The source ids of the commands accepted since `APPC_Init`. -/
  accepted : List UInt8

/-- `appc_GetAttribute`, up to `ABCC_SendMessage`. -/
def getAttribute (bObject : UInt8) (iInstance : UInt16) (bAttribute bSourceId : UInt8) :
    ℕ → UInt8 := fun i =>
  [bSourceId, bObject, iInstance.toUInt8, (iInstance >>> 8).toUInt8, 0x40 ||| 0x01, 0, bAttribute,
    0].getD i 0

/-- `appc_SetByteAttribute`, up to `ABCC_SendMessage`. -/
def setByteAttribute (bObject : UInt8) (iInstance : UInt16) (bAttribute bVal bSourceId : UInt8) :
    ℕ → UInt8 := fun i =>
  [bSourceId, bObject, iInstance.toUInt8, (iInstance >>> 8).toUInt8, 0x40 ||| 0x02, 1, bAttribute,
    0, bVal].getD i 0

namespace Appc

/-- Before `APPC_Init`. -/
def initial : Appc := ⟨.nwType, 0, 0, false, false, []⟩

/-- `APPC_Init`. -/
def init (c : Appc) : Appc := { c with eState := .nwType, accepted := [] }

/-- `APPC_SetSwitch1`. -/
def setSwitch1 (c : Appc) (bSw1 : UInt8) : Appc := { c with bSwitch1 := bSw1, fSwitch1Set := true }

/-- `APPC_SetSwitch2`. -/
def setSwitch2 (c : Appc) (bSw2 : UInt8) : Appc := { c with bSwitch2 := bSw2, fSwitch2Set := true }

/-- The command of each state, and the state behind it. -/
def request (c : Appc) : Option ((ℕ → UInt8) × AppcState) :=
  match c.eState with
  | .nwType => some (getAttribute 3 1 2 0, .firmware)
  | .firmware => some (getAttribute 1 1 2 1, .serialNo)
  | .serialNo => some (getAttribute 1 1 3 2, if c.fSwitch1Set then .dipSw1 else .setupComplete)
  | .dipSw1 => some (setByteAttribute 4 1 5 c.bSwitch1 3,
    if c.fSwitch2Set then .dipSw2 else .setupComplete)
  | .dipSw2 => some (setByteAttribute 4 2 5 c.bSwitch2 4, .setupComplete)
  | .setupComplete => some (setByteAttribute 1 1 5 1 5, .done)
  | .done => none

/-- `APPC_RunStateMachine`, with what it gives to `ABCC_SendMessage` and what is returned. -/
def runStateMachine (c : Appc) (sendMessage : (ℕ → UInt8) → AbccStatus) :
    Appc × List ((ℕ → UInt8) × AbccStatus) :=
  match c.request with
  | none => (c, [])
  | some (m, next) =>
    (if sendMessage m = .ok then { c with eState := next, accepted := c.accepted ++ [m 0] } else c,
      [(m, sendMessage m)])

/-- What `APPC_ProcessRespMsg` does to a response: the network type is terminated by a zero. -/
def processRespMsg (m : ℕ → UInt8) : ℕ → UInt8 :=
  if m 0 = 0 ∧ isError m = false then
    Function.update m (sizeofMsgHeader + min 254 (bDataSize m).toNat) 0
  else m

/-! ### The order of the commands -/

/-- What may have been accepted in a state: the source ids run through the states, and the switches
may be left out. -/
def paths : AppcState → List (List UInt8)
  | .nwType => [[]]
  | .firmware => [[0]]
  | .serialNo => [[0, 1]]
  | .dipSw1 => [[0, 1, 2]]
  | .dipSw2 => [[0, 1, 2, 3]]
  | .setupComplete => [[0, 1, 2], [0, 1, 2, 3], [0, 1, 2, 3, 4]]
  | .done => [[0, 1, 2, 5], [0, 1, 2, 3, 5], [0, 1, 2, 3, 4, 5]]

/-- The commands accepted come in the order of the states, each once. -/
def Ordered (c : Appc) : Prop := c.accepted ∈ paths c.eState

variable {c : Appc}

theorem isCommand_getAttribute (bObject : UInt8) (iInstance : UInt16)
    (bAttribute bSourceId : UInt8) :
    isCommand (getAttribute bObject iInstance bAttribute bSourceId) = true := by
  show decide ((0x40 ||| 0x01 : UInt8) &&& 0x40 ≠ 0) = true
  decide

theorem isCommand_setByteAttribute (bObject : UInt8) (iInstance : UInt16)
    (bAttribute bVal bSourceId : UInt8) :
    isCommand (setByteAttribute bObject iInstance bAttribute bVal bSourceId) = true := by
  show decide ((0x40 ||| 0x02 : UInt8) &&& 0x40 ≠ 0) = true
  decide

/-- The command of a state, and what follows it. -/
theorem paths_request {m : ℕ → UInt8} {next : AppcState} (h : c.request = some (m, next)) :
    isCommand m = true ∧ ∀ l ∈ paths c.eState, l ++ [m 0] ∈ paths next := by
  have hget : ∀ (bObject bAttribute bSourceId : UInt8), getAttribute bObject 1 bAttribute bSourceId 0
      = bSourceId := fun _ _ _ => rfl
  have hset : ∀ (bObject : UInt8) (iInstance : UInt16) (bAttribute bVal bSourceId : UInt8),
      setByteAttribute bObject iInstance bAttribute bVal bSourceId 0 = bSourceId :=
    fun _ _ _ _ _ => rfl
  unfold request at h
  cases hstate : c.eState with
  | nwType =>
    rw [hstate] at h
    obtain ⟨rfl, rfl⟩ := Prod.mk.inj (Option.some.inj h)
    exact ⟨isCommand_getAttribute _ _ _ _, by rw [hget]; decide⟩
  | firmware =>
    rw [hstate] at h
    obtain ⟨rfl, rfl⟩ := Prod.mk.inj (Option.some.inj h)
    exact ⟨isCommand_getAttribute _ _ _ _, by rw [hget]; decide⟩
  | serialNo =>
    rw [hstate] at h
    obtain ⟨rfl, rfl⟩ := Prod.mk.inj (Option.some.inj h)
    refine ⟨isCommand_getAttribute _ _ _ _, ?_⟩
    rw [hget]
    split <;> decide
  | dipSw1 =>
    rw [hstate] at h
    obtain ⟨rfl, rfl⟩ := Prod.mk.inj (Option.some.inj h)
    refine ⟨isCommand_setByteAttribute _ _ _ _ _, ?_⟩
    rw [hset]
    split <;> decide
  | dipSw2 =>
    rw [hstate] at h
    obtain ⟨rfl, rfl⟩ := Prod.mk.inj (Option.some.inj h)
    exact ⟨isCommand_setByteAttribute _ _ _ _ _, by rw [hset]; decide⟩
  | setupComplete =>
    rw [hstate] at h
    obtain ⟨rfl, rfl⟩ := Prod.mk.inj (Option.some.inj h)
    exact ⟨isCommand_setByteAttribute _ _ _ _ _, by rw [hset]; decide⟩
  | done =>
    rw [hstate] at h
    cases h

theorem Ordered.init (c : Appc) : c.init.Ordered := List.mem_singleton_self _

/-- **Step.** -/
theorem Ordered.runStateMachine (h : c.Ordered) (sendMessage : (ℕ → UInt8) → AbccStatus) :
    (c.runStateMachine sendMessage).1.Ordered := by
  unfold Appc.runStateMachine
  split
  · exact h
  · rename_i m next hrequest
    dsimp only
    split
    · exact (paths_request hrequest).2 _ h
    · exact h

/-- What is offered is a command. -/
theorem offered_isCommand {sendMessage : (ℕ → UInt8) → AbccStatus} :
    ∀ p ∈ (c.runStateMachine sendMessage).2, isCommand p.1 = true := by
  unfold Appc.runStateMachine
  split
  · exact fun p hp => absurd hp List.not_mem_nil
  · rename_i m next hrequest
    exact List.forall_mem_singleton.mpr (paths_request hrequest).1

end Appc

end Start01
