/-
Start01/Comm.lean

DebugComm.c: the command table, the table of automatic variables, and
`Cmd_Service`, which serves one message.

The table `cmdlist[MAX_DIR_SIZE][CMD_MAX]` is modelled as flat storage indexed by
`dir * CMD_MAX + cmd` (`slot`).  The storage is unbounded, so that an access
behind the declared table has a meaning; a ghost list `touched` records the index
of every access.  Note the three different bounds of the source: the table is
declared with `CMD_MAX` columns, while the guards and the initialisation loop use
`MAX_CMD_NUM`.

`TCmd` objects are cells of a heap and the entries of the table are heads of
chains through `next`.  A handler is a function of `*src` and the message that
returns a byte and may change both; it registers nothing itself.  What
`Cmd_Service` does to the outside is a list of events: handlers run, buffers
written to the parameter device, replies handed to the `ack` function.

`Init_CmdList` asks the parameter registry for its device.  The answer is an
argument (`req`) here, so that this module does not depend on the state of the
registry.
-/
import Start01.Frame
import Start01.ParamCfg

namespace Start01

open Scatter

/-! ### Codes -/

/-- `TCmdDir`, without the final count. -/
inductive TCmdDir
  | dirContrl | dirRead | dirWrite | dirAck
deriving DecidableEq

/-- `MAX_DIR_SIZE`. -/
def maxDirSize : ℕ := 4

/-- `TCmdType`, without the final count. -/
inductive TCmdType
  | readInt1 | readInt2 | readInt3 | readInt4
  | readFloat1 | readFloat2 | readFloat3 | readFloat4
  | readDate | readTime | localIp | localPort | gateway | netmask | mac | devAddr
  | cpuMode | reportState | resetCnt | memDebug | netSendAd | udpIp | udpPort
deriving DecidableEq

/-- `CMD_MAX`, the number of `TCmdType` codes and of columns of the table. -/
def cmdMax : ℕ := 23

/-- `MAX_CMD_NUM`, the bound in the guards. -/
def maxCmdNum : ℕ := 128

/-- The byte of a direction. -/
def TCmdDir.code (d : TCmdDir) : UInt8 := UInt8.ofNat d.ctorIdx

/-- The byte of a command. -/
def TCmdType.code (c : TCmdType) : UInt8 := UInt8.ofNat c.ctorIdx

/-- `TDataChan`: an enumeration stored in a byte.  Handlers and the route
function may store any byte in it. -/
abbrev TDataChan := UInt8

/-- `CHAN_NULL`. -/
def chanNull : TDataChan := 0

/-- `CHAN_ETH0`. -/
def chanEth0 : TDataChan := 6

/-- `VAR_UPDATE_MEMORY`. -/
def varUpdateMemory : UInt8 := 1

/-- `VAR_UPDATE_FLASH`. -/
def varUpdateFlash : UInt8 := 2

/-! ### Objects and statics -/

/-- `cmd_func`: the byte returned, `*src` and the message afterwards. -/
abbrev CmdFunc := TDataChan → TCommMsg → UInt8 × TDataChan × TCommMsg

/-- `route_table_func`: the channel returned and the message afterwards. -/
abbrev RouteTableFunc := TDataChan → TCommMsg → TDataChan × TCommMsg

/-- `struct TCmd`. -/
structure TCmd where
  dir : UInt8
  cmd : UInt8
  func : Option CmdFunc
  next : Option Addr

/-- `TVarItem`. -/
structure TVarItem where
  cmd : UInt8
  varSize : UInt8
  varAddr : Option Addr
  varType : UInt8
  regFlag : UInt8

/-- The statics of DebugComm.c and the `TCmd` objects. -/
structure DebugComm where
  hasInit : Bool
  cmdlist : ℕ → Option Addr
  tcmd : Addr → TCmd
  varList : ℕ → TVarItem
  routeFunc : Option RouteTableFunc
  dev : Option Addr
  touched : List ℕ

/-- `DebugComm` with the parameter registry and the RAM the variables live in. -/
structure Sys where
  comm : DebugComm
  pcfg : ParamCfg
  mem : Addr → UInt8

/-- What the outside sees of `Cmd_Service`. -/
inductive Event
  /-- The handler of a `TCmd` object is called. -/
  | handler (item : Addr) (src : TDataChan) (msg : TCommMsg)
  /-- `Param_WriteBuffer` is called on `dev` and returns `ok`. -/
  | devWrite (dev : Option Addr) (offset : ℕ) (data : List UInt8) (ok : Bool)
  /-- `AckCommMsg(msg, dest, ack)`. -/
  | ack (dest : TDataChan) (msg : TCommMsg)
  /-- `AckCommMsg` with a null `ack`, which it calls. -/
  | ackNull
deriving DecidableEq

/-- The handler run in an event, if it is one. -/
def Event.handler? : Event → Option Addr
  | .handler a _ _ => some a
  | _ => none

/-- The handlers run in a list of events. -/
def handlersRun (ev : List Event) : List Addr := ev.filterMap Event.handler?

/-- A cleared entry of `var_list`. -/
def TVarItem.zero : TVarItem := ⟨0, 0, none, 0, 0⟩

/-- The statics before any call: zero.  The `TCmd` objects are arbitrary. -/
def DebugComm.reset (tcmd : Addr → TCmd) : DebugComm where
  hasInit := false
  cmdlist := fun _ => none
  tcmd := tcmd
  varList := fun _ => TVarItem.zero
  routeFunc := none
  dev := none
  touched := []

/-! ### The command table -/

/-- The flat index of `cmdlist[dir][cmd]`. -/
def slot (dir cmd : ℕ) : ℕ := dir * cmdMax + cmd

/-- The slot of an item. -/
def TCmd.slot (c : TCmd) : ℕ := Start01.slot c.dir.toNat c.cmd.toNat

/-- The number of elements the table is declared with. -/
def tableSize : ℕ := maxDirSize * cmdMax

/-- `cmdlist[k].next = p`. -/
def DebugComm.setHead (s : DebugComm) (k : ℕ) (p : Option Addr) : DebugComm :=
  { s with cmdlist := Function.update s.cmdlist k p, touched := s.touched ++ [k] }

/-- Records a read of `cmdlist[k].next`. -/
def DebugComm.touch (s : DebugComm) (k : ℕ) : DebugComm :=
  { s with touched := s.touched ++ [k] }

/-- The indices the loops of `Init_CmdList` run over. -/
def initCells : List ℕ :=
  (List.range maxDirSize).flatMap fun i => (List.range maxCmdNum).map fun j => slot i j

/-- `Init_CmdList()`.  The inner loop clears `var_list[i]`, not `var_list[j]`. -/
def initCmdList (req : Option Addr) (s : DebugComm) : DebugComm :=
  { s with
    cmdlist := fun k => if k ∈ initCells then none else s.cmdlist k
    touched := s.touched ++ initCells
    varList := fun i =>
      if i < maxDirSize then { TVarItem.zero with cmd := (s.varList i).cmd } else s.varList i
    dev := if s.dev.isNone then req else s.dev }

/-- `if(!_hasInit){ Init_CmdList(); _hasInit = 1; }` -/
def DebugComm.ensureInit (req : Option Addr) (s : DebugComm) : DebugComm :=
  if s.hasInit then s else { initCmdList req s with hasInit := true }

/-- `(dir >= MAX_DIR_SIZE) || (cmd >= MAX_CMD_NUM)` fails. -/
def guarded (dir cmd : UInt8) : Bool := dir.toNat < maxDirSize && cmd.toNat < maxCmdNum

/-- `RegisterCmd(item)`. -/
def registerCmd (req : Option Addr) (s : DebugComm) (item : Option Addr) : UInt8 × DebugComm :=
  match item with
  | none => (0, s)
  | some a =>
      let s := s.ensureInit req
      let dir := (s.tcmd a).dir
      let cmd := (s.tcmd a).cmd
      if guarded dir cmd then
        let k := slot dir.toNat cmd.toNat
        let s := s.touch k
        let s := { s with
          tcmd := Function.update s.tcmd a { s.tcmd a with next := s.cmdlist k } }
        (1, s.setHead k (some a))
      else (0, s)

/-- `RegisterCmdList(cmd_list, cmd_size)`; the objects of the array have
consecutive addresses. -/
def registerCmdList (req : Option Addr) (s : DebugComm) (base : Addr) (size : UInt8) :
    UInt8 × DebugComm :=
  (List.range size.toNat).foldl
    (fun acc i =>
      let r := registerCmd req acc.2 (some (base + i))
      (acc.1 &&& r.1, r.2))
    (1, s)

/-! ### Automatic variables -/

/-- `RegisterAutoVar(cmd, var_size, var_addr, var_type)`. -/
def registerAutoVar (req : Option Addr) (s : DebugComm) (cmd varSize : UInt8)
    (varAddr : Option Addr) (varType : UInt8) : UInt8 × DebugComm :=
  let s := s.ensureInit req
  if maxCmdNum ≤ cmd.toNat then (0, s)
  else if 4 < varSize.toNat then (0, s)
  else if varAddr.isNone then (0, s)
  else
    (1, { s with
      varList := Function.update s.varList cmd.toNat ⟨cmd, varSize, varAddr, varType, 1⟩ })

/-- `RegisterAutoVarList(var_list, var_size)`. -/
def registerAutoVarList (req : Option Addr) (s : DebugComm) (items : List TVarItem) :
    UInt8 × DebugComm :=
  items.foldl
    (fun acc v =>
      let r := registerAutoVar req acc.2 v.cmd v.varSize v.varAddr v.varType
      (acc.1 &&& r.1, r.2))
    (1, s)

/-- The effect of `Var_Auto_Update_Service` on a served variable at address `p`. -/
def serveVar (s : Sys) (msg : TCommMsg) (v : TVarItem) (p : Addr) : Sys × TCommMsg × List Event :=
  let n := v.varSize.toNat
  if msg.dir = TCmdDir.dirWrite.code then
    let s := if v.varType &&& varUpdateMemory ≠ 0
      then { s with mem := scatter s.mem (fun i => p + i) msg.padAt n } else s
    if v.varType &&& varUpdateFlash ≠ 0 then
      let off := getOffset msg.cmd.toNat
      let r := paramWriteBuffer s.pcfg s.comm.dev off msg.padAt v.varSize.toUInt16
      ({ s with pcfg := r.2 }, msg,
        [.devWrite s.comm.dev off ((List.range n).map msg.padAt) r.1])
    else (s, msg, [])
  else if v.varType &&& varUpdateMemory ≠ 0 then
    (s, { msg with pad := scatter msg.pad padIndex (fun i => s.mem (p + i)) n }, [])
  else (s, msg, [])

/-- `Var_Auto_Update_Service(msg)`: `none` where it returns 0. -/
def varAutoUpdateService (s : Sys) (msg : TCommMsg) : Option (Sys × TCommMsg × List Event) :=
  if maxCmdNum ≤ msg.cmd.toNat then none
  else if msg.dir ≠ TCmdDir.dirRead.code ∧ msg.dir ≠ TCmdDir.dirWrite.code then none
  else
    let v := s.comm.varList msg.cmd.toNat
    if v.regFlag = 0 then none
    else
      match v.varAddr with
      | none => none
      | some p => if 4 < v.varSize.toNat then none else some (serveVar s msg v p)

/-! ### Serving a message -/

/-- `AckCommMsg(msg, dest, ack)`; `ack` says whether the pointer is non-null. -/
def ackCommMsg (msg : TCommMsg) (dest : TDataChan) (ack : Bool) : List Event :=
  if ack then [.ack dest msg] else [.ackNull]

/-- The locals of `Cmd_Service` that change in its loop, and the events so far. -/
structure SvcState where
  src : TDataChan
  dest : TDataChan
  msg : TCommMsg
  hasCmd : Bool
  events : List Event

/-- `if(m_route_func){ dest = m_route_func(src,msg); }` -/
def DebugComm.routed (s : DebugComm) (src dest : TDataChan) (msg : TCommMsg) :
    TDataChan × TCommMsg :=
  match s.routeFunc with
  | some route => route src msg
  | none => (dest, msg)

/-- The body of the loop over the chain: call the handler, choose the
destination, acknowledge. -/
def serveItem (s : DebugComm) (ack : Bool) (st : SvcState) (a : Addr) : SvcState :=
  match (s.tcmd a).func with
  | none => st
  | some f =>
      let (bypass, src, msg) := f st.src st.msg
      let (dest, msg) := if bypass = 0 then s.routed src st.dest msg else (src, msg)
      let acked := if ack && dest != chanNull then ackCommMsg msg dest ack else []
      ⟨src, dest, msg, true, st.events ++ .handler a st.src st.msg :: acked⟩

/-- `Cmd_Service` behind its loop, for a message no handler took. -/
def serveAuto (s : Sys) (ack : Bool) (st : SvcState) : Sys × List Event :=
  let (dest, msg) := s.comm.routed st.src st.dest st.msg
  if st.src = dest then
    match varAutoUpdateService s msg with
    | none => (s, [])
    | some (s', msg', ev) =>
        (s', ev ++ if ack && dest != chanNull then ackCommMsg msg' dest ack else [])
  else (s, ackCommMsg msg dest ack)

/-- What follows the loop: nothing more where a handler took the message. -/
def finishService (s : Sys) (ack : Bool) (st : SvcState) : Bool × Sys × List Event :=
  if st.hasCmd then (true, s, st.events)
  else
    let r := serveAuto s ack st
    (true, r.1, st.events ++ r.2)

/-- The state after the head of the chain was read. -/
def Sys.touchAt (s : Sys) (k : ℕ) : Sys := { s with comm := s.comm.touch k }

/-- `Cmd_Service(src, msg, ack)`: the value returned, the state, the events.  The
reductions `dir %= MAX_DIR_SIZE` and `cmd %= MAX_CMD_NUM` behind the guard change
nothing.  `none`: the walk along the chain did not end within the fuel. -/
def cmdService (fuel : ℕ) (s : Sys) (src : TDataChan) (msg : TCommMsg) (ack : Bool) :
    Option (Bool × Sys × List Event) :=
  if s.comm.hasInit && guarded msg.dir msg.cmd then
    let k := slot msg.dir.toNat msg.cmd.toNat
    let s := s.touchAt k
    (Linked.walk (fun a => (s.comm.tcmd a).next) (serveItem s.comm ack) fuel (s.comm.cmdlist k)
        ⟨src, src, msg, false, []⟩).map (finishService s ack)
  else some (false, s, [])

/-! ### What the operations do and leave alone -/

@[simp] theorem ensureInit_tcmd (req : Option Addr) (s : DebugComm) :
    (s.ensureInit req).tcmd = s.tcmd := by
  unfold DebugComm.ensureInit; split <;> rfl

@[simp] theorem ensureInit_routeFunc (req : Option Addr) (s : DebugComm) :
    (s.ensureInit req).routeFunc = s.routeFunc := by
  unfold DebugComm.ensureInit; split <;> rfl

@[simp] theorem ensureInit_hasInit (req : Option Addr) (s : DebugComm) :
    (s.ensureInit req).hasInit = true := by
  unfold DebugComm.ensureInit; split
  · assumption
  · rfl

theorem ensureInit_of_hasInit {s : DebugComm} (h : s.hasInit = true) (req : Option Addr) :
    s.ensureInit req = s := if_pos h

/-- The table is empty until it is initialised, so clearing it changes nothing. -/
theorem ensureInit_cmdlist {s : DebugComm} {k : ℕ} (hempty : s.hasInit = false → s.cmdlist k = none)
    (req : Option Addr) : (s.ensureInit req).cmdlist k = s.cmdlist k := by
  cases hinit : s.hasInit with
  | false =>
    rw [DebugComm.ensureInit, hinit]
    show (if k ∈ initCells then none else s.cmdlist k) = s.cmdlist k
    rw [hempty hinit, ite_self]
  | true => rw [ensureInit_of_hasInit hinit]

/-- What `RegisterCmd` does with an item: refuse it, or push it on the chain of
its slot. -/
theorem registerCmd_cases (req : Option Addr) (s : DebugComm) (a : Addr) :
    (guarded (s.tcmd a).dir (s.tcmd a).cmd = false ∧
      registerCmd req s (some a) = (0, s.ensureInit req)) ∨
    (guarded (s.tcmd a).dir (s.tcmd a).cmd = true ∧
      ∃ ts, registerCmd req s (some a) = (1,
        { s.ensureInit req with
          tcmd := Function.update s.tcmd a
            { s.tcmd a with next := (s.ensureInit req).cmdlist (s.tcmd a).slot }
          cmdlist := Function.update (s.ensureInit req).cmdlist (s.tcmd a).slot (some a)
          touched := (s.ensureInit req).touched ++ ts })) := by
  rcases hg : guarded (s.tcmd a).dir (s.tcmd a).cmd with - | -
  · refine .inl ⟨rfl, ?_⟩
    simp only [registerCmd, ensureInit_tcmd, hg, Bool.false_eq_true, if_false]
  · refine .inr ⟨rfl, [(s.tcmd a).slot, (s.tcmd a).slot], ?_⟩
    simp only [registerCmd, ensureInit_tcmd, hg, if_true, DebugComm.setHead, DebugComm.touch,
      List.append_assoc]
    rfl

/-- Of the objects a registration changes one link. -/
theorem registerCmd_object {base : Addr → TCmd} {s : DebugComm}
    (hobject : ∀ b, ∃ p, s.tcmd b = { base b with next := p }) (req : Option Addr) (a b : Addr) :
    ∃ p, (registerCmd req s (some a)).2.tcmd b = { base b with next := p } := by
  rcases registerCmd_cases req s a with ⟨-, hr⟩ | ⟨-, ts, hr⟩
  · rw [hr]
    show ∃ p, (s.ensureInit req).tcmd b = _
    rw [ensureInit_tcmd]
    exact hobject b
  · rw [hr]
    show ∃ p, Function.update s.tcmd a _ b = _
    by_cases hba : b = a
    · subst hba
      obtain ⟨p, hp⟩ := hobject b
      rw [Function.update_self, hp]
      exact ⟨_, rfl⟩
    · rw [Function.update_of_ne hba]
      exact hobject b

/-- `RegisterAutoVar` initialises, whatever becomes of the variable. -/
theorem registerAutoVar_ensureInit (req : Option Addr) (s : DebugComm) (cmd varSize : UInt8)
    (varAddr : Option Addr) (varType : UInt8) :
    registerAutoVar req s cmd varSize varAddr varType
      = registerAutoVar req (s.ensureInit req) cmd varSize varAddr varType := by
  rw [registerAutoVar, registerAutoVar, ensureInit_of_hasInit (ensureInit_hasInit req s)]

/-- An entry `RegisterAutoVar` accepts. -/
def TVarItem.Valid (v : TVarItem) : Prop :=
  v.cmd.toNat < maxCmdNum ∧ v.varSize.toNat ≤ 4 ∧ v.varAddr.isSome

instance (v : TVarItem) : Decidable v.Valid := by unfold TVarItem.Valid; infer_instance

theorem registerAutoVar_of_valid (req : Option Addr) {s : DebugComm} (hinit : s.hasInit = true)
    {v : TVarItem} (hv : v.Valid) :
    registerAutoVar req s v.cmd v.varSize v.varAddr v.varType
      = (1, { s with varList := Function.update s.varList v.cmd.toNat { v with regFlag := 1 } }) := by
  obtain ⟨hcmd, hsize, haddr⟩ := hv
  rw [registerAutoVar, ensureInit_of_hasInit hinit]
  rw [if_neg (by omega), if_neg (by omega), if_neg (by rw [Option.isNone_iff_eq_none]; rintro h; simp [h] at haddr)]

/-- `var_list` with the entries of a list stored one after the other. -/
def storeItems (f : ℕ → TVarItem) (items : List TVarItem) : ℕ → TVarItem :=
  items.foldl (fun f v => Function.update f v.cmd.toNat { v with regFlag := 1 }) f

/-- Registering a list of valid entries stores them one after the other. -/
theorem registerAutoVarList_of_valid (req : Option Addr) {items : List TVarItem}
    (hv : ∀ v ∈ items, v.Valid) : ∀ {s : DebugComm}, s.hasInit = true →
      (registerAutoVarList req s items).2
        = { s with varList := storeItems s.varList items } := by
  have hfold : ∀ (items : List TVarItem), (∀ v ∈ items, v.Valid) → ∀ (r : UInt8) (s : DebugComm),
      s.hasInit = true →
      (items.foldl (fun acc v =>
          let r := registerAutoVar req acc.2 v.cmd v.varSize v.varAddr v.varType
          (acc.1 &&& r.1, r.2)) (r, s)).2
        = { s with varList := storeItems s.varList items } := by
    intro items
    induction items with
    | nil => intro _ r s _; rfl
    | cons v items ih =>
      intro hv r s hinit
      rw [List.foldl_cons, registerAutoVar_of_valid req hinit (hv v List.mem_cons_self)]
      exact ih (fun w hw => hv w (List.mem_cons_of_mem v hw)) _ _ hinit
  exact fun {s} hinit => hfold items hv 1 s hinit

theorem registerAutoVarList_ensureInit (req : Option Addr) (s : DebugComm) (v : TVarItem)
    (items : List TVarItem) :
    registerAutoVarList req s (v :: items) = registerAutoVarList req (s.ensureInit req) (v :: items) := by
  rw [registerAutoVarList, List.foldl_cons, registerAutoVar_ensureInit]
  rfl

/-- Of the device handle and the route function a registration changes only what
initialisation changes. -/
theorem registerCmd_statics (req : Option Addr) (s : DebugComm) (a : Addr) :
    (registerCmd req s (some a)).2.hasInit = true ∧
      (registerCmd req s (some a)).2.dev = (s.ensureInit req).dev ∧
      (registerCmd req s (some a)).2.routeFunc = s.routeFunc := by
  rcases registerCmd_cases req s a with ⟨-, hr⟩ | ⟨-, ts, hr⟩
  · rw [hr]
    exact ⟨ensureInit_hasInit req s, rfl, ensureInit_routeFunc req s⟩
  · rw [hr]
    exact ⟨ensureInit_hasInit req s, rfl, ensureInit_routeFunc req s⟩

theorem registerAutoVar_statics (req : Option Addr) (s : DebugComm) (cmd varSize : UInt8)
    (varAddr : Option Addr) (varType : UInt8) :
    (registerAutoVar req s cmd varSize varAddr varType).2.hasInit = true ∧
      (registerAutoVar req s cmd varSize varAddr varType).2.dev = (s.ensureInit req).dev ∧
      (registerAutoVar req s cmd varSize varAddr varType).2.routeFunc = s.routeFunc := by
  unfold registerAutoVar
  dsimp only
  split_ifs <;> exact ⟨ensureInit_hasInit req s, rfl, ensureInit_routeFunc req s⟩

/-- The first initialisation takes the device it is given. -/
theorem ensureInit_dev {s : DebugComm} (hinit : s.hasInit = false) (hdev : s.dev = none)
    (req : Option Addr) : (s.ensureInit req).dev = req := by
  simp [DebugComm.ensureInit, initCmdList, hinit, hdev]

/-- The automatic service changes nothing in DebugComm.c itself. -/
theorem serveVar_comm (s : Sys) (msg : TCommMsg) (v : TVarItem) (p : Addr) :
    (serveVar s msg v p).1.comm = s.comm := by
  unfold serveVar
  dsimp only
  split_ifs <;> rfl

/-- A write of a flash variable calls `Param_WriteBuffer` once, on the handle. -/
theorem serveVar_flashWrite (s : Sys) {msg : TCommMsg} {v : TVarItem} (p : Addr)
    (hdir : msg.dir = TCmdDir.dirWrite.code) (hflash : v.varType &&& varUpdateFlash ≠ 0) :
    let r := paramWriteBuffer s.pcfg s.comm.dev (getOffset msg.cmd.toNat) msg.padAt v.varSize.toUInt16
    ∃ mem, serveVar s msg v p = ({ s with mem := mem, pcfg := r.2 }, msg,
      [.devWrite s.comm.dev (getOffset msg.cmd.toNat) ((List.range v.varSize.toNat).map msg.padAt) r.1]) := by
  intro r
  unfold serveVar
  rw [if_pos hdir, if_pos hflash]
  by_cases hmem : v.varType &&& varUpdateMemory ≠ 0
  · rw [if_pos hmem]
    exact ⟨_, rfl⟩
  · rw [if_neg hmem]
    exact ⟨_, rfl⟩

/-- … and of the registry only the cells. -/
theorem serveVar_pcfg (s : Sys) (msg : TCommMsg) (v : TVarItem) (p : Addr) :
    ∃ cells, (serveVar s msg v p).1.pcfg = { s.pcfg with cells := cells } := by
  unfold serveVar
  dsimp only
  split_ifs
  · exact onDevice_snd _ _ _
  · exact onDevice_snd _ _ _
  · exact ⟨s.pcfg.cells, rfl⟩
  · exact ⟨s.pcfg.cells, rfl⟩
  · exact ⟨s.pcfg.cells, rfl⟩
  · exact ⟨s.pcfg.cells, rfl⟩

theorem varAutoUpdateService_eq_some {s s' : Sys} {msg msg' : TCommMsg} {ev : List Event}
    (h : varAutoUpdateService s msg = some (s', msg', ev)) :
    msg.cmd.toNat < maxCmdNum ∧ (msg.dir = TCmdDir.dirRead.code ∨ msg.dir = TCmdDir.dirWrite.code) ∧
      (s.comm.varList msg.cmd.toNat).regFlag ≠ 0 ∧
      (s.comm.varList msg.cmd.toNat).varSize.toNat ≤ 4 ∧
      ∃ p, (s.comm.varList msg.cmd.toNat).varAddr = some p ∧
        serveVar s msg (s.comm.varList msg.cmd.toNat) p = (s', msg', ev) := by
  unfold varAutoUpdateService at h
  split at h
  · cases h
  · rename_i hcmd
    split at h
    · cases h
    · rename_i hdir
      dsimp only at h
      split at h
      · cases h
      · rename_i hreg
        split at h
        · cases h
        · rename_i p hp
          split at h
          · cases h
          · rename_i hsize
            exact ⟨by omega, by tauto, hreg, by omega, p, hp, Option.some.inj h⟩

theorem serveAuto_comm (s : Sys) (ack : Bool) (st : SvcState) :
    (serveAuto s ack st).1.comm = s.comm := by
  unfold serveAuto
  dsimp only
  split
  · split
    · rfl
    · rename_i s' msg' ev h
      obtain ⟨-, -, -, -, p, -, hserve⟩ := varAutoUpdateService_eq_some h
      have hcomm := serveVar_comm s (s.comm.routed st.src st.dest st.msg).2
        (s.comm.varList (s.comm.routed st.src st.dest st.msg).2.cmd.toNat) p
      rw [hserve] at hcomm
      exact hcomm
  · rfl

theorem serveAuto_pcfg (s : Sys) (ack : Bool) (st : SvcState) :
    ∃ cells, (serveAuto s ack st).1.pcfg = { s.pcfg with cells := cells } := by
  unfold serveAuto
  dsimp only
  split
  · split
    · exact ⟨s.pcfg.cells, rfl⟩
    · rename_i s' msg' ev h
      obtain ⟨-, -, -, -, p, -, hserve⟩ := varAutoUpdateService_eq_some h
      have hpcfg := serveVar_pcfg s (s.comm.routed st.src st.dest st.msg).2
        (s.comm.varList (s.comm.routed st.src st.dest st.msg).2.cmd.toNat) p
      rw [hserve] at hpcfg
      exact hpcfg
  · exact ⟨s.pcfg.cells, rfl⟩

theorem cmdService_of_guard {s : Sys} {msg : TCommMsg}
    (h : (s.comm.hasInit && guarded msg.dir msg.cmd) = true) (fuel : ℕ) (src : TDataChan) (ack : Bool) :
    cmdService fuel s src msg ack
      = (Linked.walk (fun a => (s.comm.tcmd a).next) (serveItem s.comm ack) fuel
          (s.comm.cmdlist (slot msg.dir.toNat msg.cmd.toNat)) ⟨src, src, msg, false, []⟩).map
        (finishService (s.touchAt (slot msg.dir.toNat msg.cmd.toNat)) ack) := if_pos h

theorem cmdService_of_not_guard {s : Sys} {msg : TCommMsg}
    (h : (s.comm.hasInit && guarded msg.dir msg.cmd) = false) (fuel : ℕ) (src : TDataChan) (ack : Bool) :
    cmdService fuel s src msg ack = some (false, s, []) :=
  if_neg (by rw [h]; exact Bool.false_ne_true)

/-- **What a call of `Cmd_Service` can do**: refuse the message, or serve it with
the handlers in its slot, or, where no handler was called, serve it from the table
of automatic variables. -/
theorem cmdService_eq_some {fuel : ℕ} {s s' : Sys} {src : TDataChan} {msg : TCommMsg} {ack ret : Bool}
    {ev : List Event} (h : cmdService fuel s src msg ack = some (ret, s', ev)) :
    ((s.comm.hasInit && guarded msg.dir msg.cmd) = false ∧ ret = false ∧ s' = s ∧ ev = []) ∨
    ((s.comm.hasInit && guarded msg.dir msg.cmd) = true ∧ ret = true ∧
      ∃ st, Linked.walk (fun a => (s.comm.tcmd a).next) (serveItem s.comm ack) fuel
          (s.comm.cmdlist (slot msg.dir.toNat msg.cmd.toNat)) ⟨src, src, msg, false, []⟩ = some st ∧
        ((st.hasCmd = true ∧ s' = s.touchAt (slot msg.dir.toNat msg.cmd.toNat) ∧ ev = st.events) ∨
          (st.hasCmd = false ∧
            s' = (serveAuto (s.touchAt (slot msg.dir.toNat msg.cmd.toNat)) ack st).1 ∧
            ev = st.events
              ++ (serveAuto (s.touchAt (slot msg.dir.toNat msg.cmd.toNat)) ack st).2))) := by
  unfold cmdService at h
  split at h
  · rename_i hguard
    obtain ⟨st, hwalk, hout⟩ := Option.map_eq_some_iff.mp h
    -- whether a handler was called decides on the automatic service
    refine .inr ⟨hguard, ?_⟩
    unfold finishService at hout
    split at hout
    · rename_i hcmd
      obtain ⟨rfl, rfl, rfl⟩ := by simpa only [Prod.mk.injEq] using hout
      exact ⟨rfl, st, hwalk, .inl ⟨hcmd, rfl, rfl⟩⟩
    · rename_i hcmd
      obtain ⟨rfl, rfl, rfl⟩ := by simpa only [Prod.mk.injEq] using hout
      exact ⟨rfl, st, hwalk, .inr ⟨Bool.eq_false_iff.mpr hcmd, rfl, rfl⟩⟩
  · rename_i hguard
    obtain ⟨rfl, rfl, rfl⟩ := by simpa only [Option.some.injEq, Prod.mk.injEq] using h
    exact .inl ⟨Bool.eq_false_iff.mpr hguard, rfl, rfl, rfl⟩

/-- A message changes no table: it only adds a record of the access. -/
theorem cmdService_comm {fuel : ℕ} {s s' : Sys} {src : TDataChan} {msg : TCommMsg} {ack ret : Bool}
    {ev : List Event} (h : cmdService fuel s src msg ack = some (ret, s', ev)) :
    ∃ ts, s'.comm = { s.comm with touched := s.comm.touched ++ ts } := by
  obtain ⟨-, -, rfl, -⟩ | ⟨-, -, st, -, ⟨-, rfl, -⟩ | ⟨-, rfl, -⟩⟩ := cmdService_eq_some h
  · exact ⟨[], by rw [List.append_nil]⟩
  · exact ⟨_, rfl⟩
  · rw [serveAuto_comm]
    exact ⟨_, rfl⟩

/-- … and of the registry only the cells. -/
theorem cmdService_pcfg {fuel : ℕ} {s s' : Sys} {src : TDataChan} {msg : TCommMsg} {ack ret : Bool}
    {ev : List Event} (h : cmdService fuel s src msg ack = some (ret, s', ev)) :
    ∃ cells, s'.pcfg = { s.pcfg with cells := cells } := by
  obtain ⟨-, -, rfl, -⟩ | ⟨-, -, st, -, ⟨-, rfl, -⟩ | ⟨-, rfl, -⟩⟩ := cmdService_eq_some h
  · exact ⟨s'.pcfg.cells, rfl⟩
  · exact ⟨s.pcfg.cells, rfl⟩
  · exact serveAuto_pcfg _ ack st

end Start01
