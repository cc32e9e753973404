/-
Start01/Persist.lean

Persisted variables over a restart: `net_var_init` and `LwIP_Init` of the network
code and `test_var_init` of testsuite.c, over the command tables and the FRAM.

Eleven variables are registered for memory and flash.  A `DIR_WRITE` stores the
word in RAM and in the FRAM at `GET_OFFSET(cmd)`; a restart clears the RAM and the
tables, and loads the RAM from the FRAM.  Three maps have to agree:

* `PersistedVar.ram` — the RAM variable a command is registered for;
* `RamVar.loaded` — the command a RAM variable is loaded from at boot;
* the fields `LwIP_Init` hands to the interface.

The first one sends CMD_GATEWAY to `gNetConfig.netmask` and CMD_NETMASK to
`gNetConfig.gateway`, and so does the third.  The second one does not, so the two
words are exchanged by a restart (`persisted_iff`).

`System_Setup` is taken to succeed.  The handlers of the date and time commands
are an arbitrary function.
-/
import Start01.CmdTable

namespace Start01

open Scatter

/-! ### The variables -/

/-- The variables in RAM: `int_var1` …, and the fields of `gNetConfig`. -/
inductive RamVar
  | intVar1 | intVar2 | intVar3 | intVar4
  | floatVar1 | floatVar2 | floatVar3 | floatVar4
  | ip | netmask | gateway
deriving DecidableEq

/-- Where the variables are; no two of them overlap. -/
structure Layout where
  addr : RamVar → Addr
  disjoint : ∀ v w, v ≠ w → addr v + 4 ≤ addr w ∨ addr w + 4 ≤ addr v

/-- The persisted variables, by command. -/
inductive PersistedVar
  | int1 | int2 | int3 | int4 | float1 | float2 | float3 | float4
  | localIp | gateway | netmask
deriving DecidableEq

/-- The command of a variable. -/
def PersistedVar.cmd : PersistedVar → TCmdType
  | .int1 => .readInt1
  | .int2 => .readInt2
  | .int3 => .readInt3
  | .int4 => .readInt4
  | .float1 => .readFloat1
  | .float2 => .readFloat2
  | .float3 => .readFloat3
  | .float4 => .readFloat4
  | .localIp => .localIp
  | .gateway => .gateway
  | .netmask => .netmask

/-- `GET_OFFSET` of a command. -/
def TCmdType.offset (c : TCmdType) : ℕ := getOffset c.code.toNat

/-- An entry of one of the lists of variables. -/
def persistedItem (L : Layout) (c : TCmdType) (v : RamVar) : TVarItem :=
  ⟨c.code, 4, some (L.addr v), varUpdateMemory ||| varUpdateFlash, 0⟩

/-- `var_list` of network.c. -/
def netVarList (L : Layout) : List TVarItem :=
  [persistedItem L .localIp .ip, persistedItem L .gateway .netmask, persistedItem L .netmask .gateway]

/-- `var_list` of testsuite.c. -/
def testVarList (L : Layout) : List TVarItem :=
  [persistedItem L .readInt1 .intVar1, persistedItem L .readInt2 .intVar2,
    persistedItem L .readInt3 .intVar3, persistedItem L .readInt4 .intVar4,
    persistedItem L .readFloat1 .floatVar1, persistedItem L .readFloat2 .floatVar2,
    persistedItem L .readFloat3 .floatVar3, persistedItem L .readFloat4 .floatVar4]

/-- `cmd_list` of testsuite.c, with `h` for `test_cmd_parse`. -/
def testCmdList (h : CmdFunc) : List TCmd :=
  [⟨TCmdDir.dirRead.code, TCmdType.readDate.code, some h, none⟩,
    ⟨TCmdDir.dirWrite.code, TCmdType.readDate.code, some h, none⟩,
    ⟨TCmdDir.dirRead.code, TCmdType.readTime.code, some h, none⟩,
    ⟨TCmdDir.dirWrite.code, TCmdType.readTime.code, some h, none⟩]

/-- The `TCmd` objects, with that list at `base`. -/
def placeCmds (base : Addr) (cmds : List TCmd) (tcmd : Addr → TCmd) : Addr → TCmd :=
  fun a => if a < base then tcmd a else cmds[a - base]?.getD (tcmd a)

/-! ### Starting up -/

/-- Assignments to variables, in order. -/
def storeVars (L : Layout) (mem : Addr → UInt8) (vals : List (RamVar × UInt32)) : Addr → UInt8 :=
  vals.foldl (fun m x => storeWord m (L.addr x.1) x.2) mem

/-- `net_var_init()`.  `DEV_FM25L16` and `PARAM_DEV_NAME` are the same name, so that
`Init_CmdList`, run by the first registration, finds the same device. -/
def netVarInit (fuel : ℕ) (L : Layout) (s : Sys) : Option Sys := do
  let dev ← paramDevRequest fuel s.pcfg devFm25l16
  let rd (c : TCmdType) : UInt32 := paramReadInteger s.pcfg dev c.offset 0
  let mem :=
    if dev.isSome then
      storeVars L s.mem [(.ip, rd .localIp), (.netmask, rd .netmask), (.gateway, rd .gateway)]
    else s.mem
  return { s with comm := (registerAutoVarList dev s.comm (netVarList L)).2, mem := mem }

/-- The addresses of the network interface. -/
structure Netif where
  ip : UInt32
  netmask : UInt32
  gw : UInt32

/-- `LwIP_Init(&gNetConfig)`: the netmask is the field `gateway`, the gateway is the
field `netmask`. -/
def lwIPInit (L : Layout) (mem : Addr → UInt8) : Netif where
  ip := wordAt mem (L.addr .ip)
  netmask := wordAt mem (L.addr .gateway)
  gw := wordAt mem (L.addr .netmask)

/-- `test_var_init()`, with `fm25l16_dev` as `test_suite_init` has requested it. -/
def testVarInit (L : Layout) (fm25l16Dev : Option Addr) (base : Addr) (s : Sys) : Sys :=
  let comm := (registerAutoVarList fm25l16Dev s.comm (testVarList L)).2
  let comm := (registerCmdList fm25l16Dev comm base 4).2
  let rd (c : TCmdType) : UInt32 := paramReadInteger s.pcfg fm25l16Dev c.offset 0
  let rdf (c : TCmdType) : UInt32 := paramReadFloat s.pcfg fm25l16Dev c.offset 0
  let mem :=
    if fm25l16Dev.isSome then
      storeVars L s.mem
        [(.intVar1, rd .readInt1), (.intVar2, rd .readInt2), (.intVar3, rd .readInt3),
          (.intVar4, rd .readInt4), (.floatVar1, rdf .readFloat1), (.floatVar2, rdf .readFloat2),
          (.floatVar3, rdf .readFloat3), (.floatVar4, rdf .readFloat4)]
    else s.mem
  { s with comm := comm, mem := mem }

/-- The start of the firmware, on a registry `p` in which the devices have been
registered and a RAM with any contents: `network_init`, then `test_suite_init`. -/
def boot (fuel : ℕ) (L : Layout) (h : CmdFunc) (base : Addr) (tcmd : Addr → TCmd) (p : ParamCfg)
    (mem : Addr → UInt8) : Option (Sys × Netif) := do
  let s ← netVarInit fuel L ⟨DebugComm.reset (placeCmds base (testCmdList h) tcmd), p, mem⟩
  let dev ← paramDevRequest fuel s.pcfg devFm25l16
  return (testVarInit L dev base s, lwIPInit L s.mem)

/-! ### Writing, and what should be read -/

/-- A `DIR_WRITE` of a persisted variable. -/
structure WriteReq where
  var : PersistedVar
  value : UInt32
  src : TDataChan
  devId : UInt16
  ack : Bool

/-- The message of a request. -/
def WriteReq.msg (w : WriteReq) : TCommMsg :=
  ⟨w.devId, TCmdDir.dirWrite.code, w.var.cmd.code, fun i => leByte w.value i⟩

/-- The requests are served in order, each of them being accepted. -/
def serveWrites (fuel : ℕ) : Sys → List WriteReq → Option Sys
  | s, [] => some s
  | s, w :: ws => do
      let (ok, s, _) ← cmdService fuel s w.src w.msg w.ack
      if ok then serveWrites fuel s ws else none

/-- The value last written to each variable. -/
def lastWritten : List WriteReq → PersistedVar → Option UInt32 :=
  List.foldl (fun f w => Function.update f w.var (some w.value)) fun _ => none

/-- A `DIR_READ` of the variable, from any channel that gets an answer, returns `x`. -/
def ReadsBack (fuel : ℕ) (s : Sys) (v : PersistedVar) (x : UInt32) : Prop :=
  ∀ src devId pad, src ≠ chanNull →
    ∃ s', cmdService fuel s src ⟨devId, TCmdDir.dirRead.code, v.cmd.code, pad⟩ true
      = some (true, s', [.ack src ⟨devId, TCmdDir.dirRead.code, v.cmd.code, fun i => leByte x i⟩])

/-- Every variable that was written reads as the value last written, and the
interface has the addresses last written. -/
structure Persisted (fuel : ℕ) (s : Sys) (netif : Netif) (ws : List WriteReq) : Prop where
  read : ∀ v x, lastWritten ws v = some x → ReadsBack fuel s v x
  ip : ∀ x, lastWritten ws .localIp = some x → netif.ip = x
  netmask : ∀ x, lastWritten ws .netmask = some x → netif.netmask = x
  gateway : ∀ x, lastWritten ws .gateway = some x → netif.gw = x

/-! ### The maps between commands, RAM and FRAM -/

/-- The RAM variable a command is registered for. -/
def PersistedVar.ram : PersistedVar → RamVar
  | .int1 => .intVar1
  | .int2 => .intVar2
  | .int3 => .intVar3
  | .int4 => .intVar4
  | .float1 => .floatVar1
  | .float2 => .floatVar2
  | .float3 => .floatVar3
  | .float4 => .floatVar4
  | .localIp => .ip
  | .gateway => .netmask
  | .netmask => .gateway

/-- The command a RAM variable is loaded from at boot. -/
def RamVar.loaded : RamVar → PersistedVar
  | .intVar1 => .int1
  | .intVar2 => .int2
  | .intVar3 => .int3
  | .intVar4 => .int4
  | .floatVar1 => .float1
  | .floatVar2 => .float2
  | .floatVar3 => .float3
  | .floatVar4 => .float4
  | .ip => .localIp
  | .netmask => .netmask
  | .gateway => .gateway

theorem TCmdType.offset_le (c : TCmdType) : c.offset + 4 ≤ framSize := by
  cases c <;> decide

/-- Different variables have different words in the FRAM. -/
theorem PersistedVar.offset_disjoint {v w : PersistedVar} (h : v ≠ w) :
    v.cmd.offset + 4 ≤ w.cmd.offset ∨ w.cmd.offset + 4 ≤ v.cmd.offset := by
  cases v <;> cases w <;> first | exact absurd rfl h | decide

/-- The word of a variable in the FRAM. -/
def framWord (p : ParamCfg) (F : Addr) (v : PersistedVar) : UInt32 := wordAt (p.cells F) v.cmd.offset

/-- The working FRAM device: it is found by its name, and its functions are those of
fm25l16.c. -/
structure Bound (fuel : ℕ) (p : ParamCfg) (F : Addr) : Prop where
  found : paramDevRequest fuel p devFm25l16 = some (some F)
  ops : ∃ q, p.devs F = { fm25l16Device with next := q }

theorem Bound.readInteger {fuel : ℕ} {p : ParamCfg} {F : Addr} (h : Bound fuel p F) (c : TCmdType) :
    paramReadInteger p (some F) c.offset 0 = wordAt (p.cells F) c.offset := by
  obtain ⟨q, hq⟩ := h.ops
  rw [← @ofLe_fm25l16bReadDataLen _ (leByte 0) _ c.offset_le]
  simp [paramReadInteger, ParamCfg.askDevice, hq, fm25l16Device]

theorem Bound.readFloat {fuel : ℕ} {p : ParamCfg} {F : Addr} (h : Bound fuel p F) (c : TCmdType) :
    paramReadFloat p (some F) c.offset 0 = wordAt (p.cells F) c.offset := by
  obtain ⟨q, hq⟩ := h.ops
  rw [← @ofLe_fm25l16bReadDataLen _ (leByte 0) _ c.offset_le]
  simp [paramReadFloat, ParamCfg.askDevice, hq, fm25l16Device]

theorem Bound.writeBuffer {fuel : ℕ} {p : ParamCfg} {F : Addr} (h : Bound fuel p F) (off : ℤ)
    (data : ℕ → UInt8) (size : UInt16) :
    paramWriteBuffer p (some F) off data size
      = (true, { p with
          cells := Function.update p.cells F (fm25l16bWriteDataLen (p.cells F) off data size.toNat) }) := by
  obtain ⟨q, hq⟩ := h.ops
  simp [paramWriteBuffer, ParamCfg.onDevice, hq, fm25l16Device]

/-- The search does not look at what is stored. -/
theorem Bound.of_cells {fuel : ℕ} {p : ParamCfg} {F : Addr} (h : Bound fuel p F)
    (cells : Addr → Store) : Bound fuel { p with cells := cells } F := ⟨h.found, h.ops⟩

/-- What a list of assignments leaves in the variables. -/
theorem wordAt_storeVars (L : Layout) (vals : List (RamVar × UInt32)) :
    (vals.map Prod.fst).Nodup → ∀ (mem : Addr → UInt8) (r : RamVar),
      wordAt (storeVars L mem vals) (L.addr r) = (vals.lookup r).getD (wordAt mem (L.addr r)) := by
  induction vals with
  | nil => intro _ mem r; rfl
  | cons x vals ih =>
    intro hnd mem r
    obtain ⟨r₀, v⟩ := x
    obtain ⟨hnot, hnd⟩ := List.nodup_cons.mp hnd
    show wordAt (storeVars L (storeWord mem (L.addr r₀) v) vals) (L.addr r) = _
    rw [ih hnd, List.lookup_cons]
    by_cases hr : r = r₀
    · -- no later assignment is to the same variable
      subst hr
      have hnone : vals.lookup r = none := by
        rw [List.lookup_eq_none_iff]
        rintro ⟨r', v'⟩ hmem
        exact bne_iff_ne.mpr fun e => hnot (List.mem_map.mpr ⟨_, hmem, e.symm⟩)
      rw [hnone, beq_self_eq_true]
      show wordAt (storeWord mem (L.addr r) v) (L.addr r) = v
      exact wordAt_storeWord mem (L.addr r) v
    · rw [beq_eq_false_iff_ne.mpr hr, wordAt_storeWord_of_disjoint (L.disjoint r₀ r (Ne.symm hr))]

/-! ### The tables after start-up -/

/-- The tables as start-up leaves them: the device bound, the variables registered,
and no handler in their slots. -/
structure Ready (L : Layout) (F : Addr) (c : DebugComm) : Prop where
  hasInit : c.hasInit = true
  dev : c.dev = some F
  route : c.routeFunc = none
  item : ∀ v : PersistedVar,
    c.varList v.cmd.code.toNat = { persistedItem L v.cmd v.ram with regFlag := 1 }
  free : ∀ v : PersistedVar, ∀ d : TCmdDir, d = .dirRead ∨ d = .dirWrite →
    c.cmdlist (slot d.code.toNat v.cmd.code.toNat) = none

/-- The slots of the date and time commands are not those of a variable. -/
theorem testCmdList_slot (h : CmdFunc) :
    ∀ c ∈ testCmdList h, ∀ (v : PersistedVar) (d : TCmdDir), d = .dirRead ∨ d = .dirWrite →
      c.slot ≠ slot d.code.toNat v.cmd.code.toNat := by
  intro c hc v d hd
  have hslot : c.slot ∈ [31, 54, 32, 55] := by
    have hmem := List.mem_map_of_mem (f := TCmd.slot) hc
    exact hmem
  have hvar : slot d.code.toNat v.cmd.code.toNat ∉ [31, 54, 32, 55] := by
    rcases hd with rfl | rfl <;> cases v <;> decide
  exact fun heq => hvar (heq ▸ hslot)

theorem placeCmds_mem {base i : ℕ} {cmds : List TCmd} (tcmd : Addr → TCmd) (hi : i < cmds.length) :
    placeCmds base cmds tcmd (base + i) ∈ cmds := by
  rw [placeCmds, if_neg (Nat.not_lt.mpr (Nat.le_add_right base i)), Nat.add_sub_cancel_left, List.getElem?_eq_getElem hi]
  exact List.getElem_mem hi

theorem persistedItem_valid (L : Layout) (c : TCmdType) (v : RamVar) : (persistedItem L c v).Valid := by
  refine ⟨?_, le_rfl, rfl⟩
  show c.code.toNat < maxCmdNum
  cases c <;> decide

/-- The tables once the network variables are registered. -/
def netComm (L : Layout) (F : Addr) (tcmd : Addr → TCmd) : DebugComm :=
  let c := (DebugComm.reset tcmd).ensureInit (some F)
  { c with varList := storeItems c.varList (netVarList L) }

theorem netVarList_registered (L : Layout) (F : Addr) (tcmd : Addr → TCmd) :
    (registerAutoVarList (some F) (DebugComm.reset tcmd) (netVarList L)).2 = netComm L F tcmd := by
  have hvalid : ∀ v ∈ netVarList L, v.Valid := by
    intro v hv
    simp only [netVarList, List.mem_cons, List.not_mem_nil, or_false] at hv
    rcases hv with rfl | rfl | rfl <;> exact persistedItem_valid L _ _
  rw [netVarList, registerAutoVarList_ensureInit, ← netVarList,
    registerAutoVarList_of_valid (some F) hvalid (ensureInit_hasInit _ _)]
  rfl

/-- **The tables after start-up.** -/
theorem testVarInit_ready (L : Layout) (F : Addr) (h : CmdFunc) (base : Addr) (tcmd : Addr → TCmd)
    (p : ParamCfg) (mem : Addr → UInt8) :
    Ready L F (testVarInit L (some F) base
      ⟨netComm L F (placeCmds base (testCmdList h) tcmd), p, mem⟩).comm := by
  have hvalid : ∀ v ∈ testVarList L, v.Valid := by
    intro v hv
    simp only [testVarList, List.mem_cons, List.not_mem_nil, or_false] at hv
    rcases hv with rfl | rfl | rfl | rfl | rfl | rfl | rfl | rfl <;>
      exact persistedItem_valid L _ _
  have hinit : (netComm L F (placeCmds base (testCmdList h) tcmd)).hasInit = true :=
    ensureInit_hasInit _ _
  simp only [testVarInit, registerCmdList_snd, registerAutoVarList_of_valid (some F) hvalid hinit]
  obtain ⟨t, c, ts, heq, -, hframe⟩ := @registerItems_frame (some F)
    ((List.range (4 : UInt8).toNat).map fun i => base + i)
    { netComm L F (placeCmds base (testCmdList h) tcmd) with
      varList := storeItems (netComm L F (placeCmds base (testCmdList h) tcmd)).varList (testVarList L) }
    hinit
  rw [heq]
  refine ⟨hinit, rfl, ?_, fun v => by cases v <;> rfl, fun v d hd => ?_⟩
  · exact ensureInit_routeFunc _ _
  · show c (slot d.code.toNat v.cmd.code.toNat) = none
    rw [hframe]
    · -- the table was cleared, and was empty before
      exact ite_self _
    · intro a ha
      obtain ⟨i, hi, rfl⟩ := List.mem_map.mp ha
      refine testCmdList_slot h _ ?_ v d hd
      have htcmd : (netComm L F (placeCmds base (testCmdList h) tcmd)).tcmd
          = placeCmds base (testCmdList h) tcmd := ensureInit_tcmd _ _
      show (netComm L F (placeCmds base (testCmdList h) tcmd)).tcmd (base + i) ∈ _
      rw [htcmd]
      exact placeCmds_mem tcmd (List.mem_range.mp hi)

/-- **Start-up.**  It returns, with the tables ready, the registry as it was, and
every variable in RAM loaded from the FRAM. -/
theorem boot_eq_some {fuel : ℕ} {p : ParamCfg} {F : Addr} (hb : Bound fuel p F) (L : Layout)
    (h : CmdFunc) (base : Addr) (tcmd : Addr → TCmd) (mem : Addr → UInt8) :
    ∃ s, boot fuel L h base tcmd p mem = some (s,
        ⟨framWord p F .localIp, framWord p F .gateway, framWord p F .netmask⟩) ∧
      Ready L F s.comm ∧ s.pcfg = p ∧
      ∀ r : RamVar, wordAt s.mem (L.addr r) = framWord p F r.loaded := by
  -- the RAM between the two initialisations
  let mem₁ := storeVars L mem [(.ip, framWord p F .localIp), (.netmask, framWord p F .netmask),
    (.gateway, framWord p F .gateway)]
  let s₁ : Sys := ⟨netComm L F (placeCmds base (testCmdList h) tcmd), p, mem₁⟩
  have hnet : netVarInit fuel L ⟨DebugComm.reset (placeCmds base (testCmdList h) tcmd), p, mem⟩
      = some s₁ := by
    simp only [netVarInit, hb.found, Option.bind_eq_bind, Option.bind_some, hb.readInteger,
      netVarList_registered]
    rfl
  have hmem₁ : ∀ r, wordAt mem₁ (L.addr r)
      = ([(RamVar.ip, framWord p F .localIp), (.netmask, framWord p F .netmask),
          (.gateway, framWord p F .gateway)].lookup r).getD (wordAt mem (L.addr r)) :=
    wordAt_storeVars L _ (by simp) mem
  refine ⟨testVarInit L (some F) base s₁, ?_, testVarInit_ready L F h base tcmd p mem₁, rfl,
    fun r => ?_⟩
  · simp only [boot, hnet, Option.bind_eq_bind, Option.bind_some]
    show Option.bind (paramDevRequest fuel p devFm25l16) _ = _
    rw [hb.found, Option.bind_some]
    simp only [s₁, lwIPInit, hmem₁]
    rfl
  · show wordAt (storeVars L mem₁ _) (L.addr r) = _
    rw [wordAt_storeVars L _ (by simp), hmem₁]
    show (List.lookup r _).getD _ = _
    simp only [s₁, hb.readInteger, hb.readFloat]
    cases r <;> rfl

/-! ### Serving a variable -/

/-- A read or write of a persisted variable goes to the automatic service, and the
reply to the channel it came from. -/
theorem Ready.service {L : Layout} {F : Addr} {s : Sys} (h : Ready L F s.comm) (fuel : ℕ)
    (v : PersistedVar) {d : TCmdDir} (hd : d = .dirRead ∨ d = .dirWrite) (src : TDataChan)
    (msg : TCommMsg) (hdir : msg.dir = d.code) (hcmd : msg.cmd = v.cmd.code) (ack : Bool) :
    let r := serveVar (s.touchAt (slot d.code.toNat v.cmd.code.toNat)) msg
      { persistedItem L v.cmd v.ram with regFlag := 1 } (L.addr v.ram)
    cmdService fuel s src msg ack
      = some (true, r.1, r.2.2 ++ if ack && src != chanNull then ackCommMsg r.2.1 src ack else []) := by
  have hguard : (s.comm.hasInit && guarded msg.dir msg.cmd) = true := by
    rw [h.hasInit, hdir, hcmd]
    rcases hd with rfl | rfl <;> cases v <;> rfl
  have hauto : varAutoUpdateService (s.touchAt (slot d.code.toNat v.cmd.code.toNat)) msg
      = some (serveVar (s.touchAt (slot d.code.toNat v.cmd.code.toNat)) msg
          { persistedItem L v.cmd v.ram with regFlag := 1 } (L.addr v.ram)) := by
    have hitem := h.item v
    unfold varAutoUpdateService
    rw [if_neg (by rw [hcmd]; cases v <;> decide), if_neg (by
      rw [hdir]; rcases hd with rfl | rfl <;> decide)]
    dsimp only [Sys.touchAt, DebugComm.touch]
    rw [hcmd, hitem]
    rfl
  have hroute : (s.touchAt (slot d.code.toNat v.cmd.code.toNat)).comm.routed src src msg = (src, msg) := by
    show DebugComm.routed _ src src msg = _
    rw [DebugComm.routed, show (s.touchAt _).comm.routeFunc = none from h.route]
  intro r
  -- no handler is registered for the pair, so the loop ends at once
  rw [cmdService_of_guard hguard, hdir, hcmd, h.free v d hd, Linked.walk_none, Option.map_some]
  rw [finishService, if_neg Bool.false_ne_true]
  simp only [serveAuto, hroute, hauto, if_true, List.nil_append]
  rfl

/-- Both flags are set on a persisted variable. -/
theorem persistedItem_flags (L : Layout) (c : TCmdType) (v : RamVar) :
    (persistedItem L c v).varType &&& varUpdateMemory ≠ 0 ∧
      (persistedItem L c v).varType &&& varUpdateFlash ≠ 0 := by
  constructor
  · show (varUpdateMemory ||| varUpdateFlash) &&& varUpdateMemory ≠ 0
    decide
  · show (varUpdateMemory ||| varUpdateFlash) &&& varUpdateFlash ≠ 0
    decide

/-- A read fills in the bytes of the RAM variable. -/
theorem serveVar_read (L : Layout) (c : TCmdType) (v : RamVar) (s : Sys) {msg : TCommMsg}
    (hdir : msg.dir = TCmdDir.dirRead.code) :
    serveVar s msg { persistedItem L c v with regFlag := 1 } (L.addr v)
      = (s, { msg with pad := fun i => leByte (wordAt s.mem (L.addr v)) i }, []) := by
  have hpad : scatter msg.pad padIndex (fun i => s.mem (L.addr v + i)) 4
      = fun i : Fin 4 => leByte (wordAt s.mem (L.addr v)) i := by
    funext i
    rw [wordAt, leByte_ofLe _ i.isLt]
    have hi : padIndex i = i := Fin.ofNat_val_eq_self i
    conv_lhs => rw [← hi]
    refine scatter_apply i.isLt fun j hj hij => ?_
    have := congrArg Fin.val hij
    simp only [padIndex, Fin.val_ofNat] at this
    omega
  unfold serveVar
  rw [if_neg (by rw [hdir]; decide), if_pos (persistedItem_flags L c v).1]
  show (s, { msg with pad := scatter msg.pad padIndex (fun i => s.mem (L.addr v + i)) 4 }, _) = _
  rw [hpad]

/-- A write stores the word in RAM, and in the FRAM at the offset of the command. -/
theorem serveVar_write (L : Layout) (c : TCmdType) (v : RamVar) {s : Sys} {fuel : ℕ} {F : Addr}
    (hb : Bound fuel s.pcfg F) (hdev : s.comm.dev = some F) {msg : TCommMsg}
    (hdir : msg.dir = TCmdDir.dirWrite.code) :
    (serveVar s msg { persistedItem L c v with regFlag := 1 } (L.addr v)).1
      = { s with
          mem := scatter s.mem (fun i => L.addr v + i) msg.padAt 4
          pcfg := { s.pcfg with
            cells := Function.update s.pcfg.cells F
              (fm25l16bWriteDataLen (s.pcfg.cells F) (getOffset msg.cmd.toNat) msg.padAt 4) } } := by
  unfold serveVar
  rw [if_pos hdir, if_pos (persistedItem_flags L c v).1, if_pos (persistedItem_flags L c v).2]
  show { s with mem := _, pcfg := (paramWriteBuffer s.pcfg s.comm.dev _ _ _).2 } = _
  rw [hdev, hb.writeBuffer]
  rfl

/-! ### Writes -/

/-- The words in the FRAM after some writes. -/
def stored (fram : PersistedVar → UInt32) : List WriteReq → PersistedVar → UInt32 :=
  List.foldl (fun f w => Function.update f w.var w.value) fram

/-- **Write step.**  A write is accepted, keeps the tables ready and the device
bound, and changes the word of its own command only. -/
theorem Ready.write {L : Layout} {F : Addr} {s : Sys} (h : Ready L F s.comm) {fuel : ℕ}
    (hb : Bound fuel s.pcfg F) (w : WriteReq) :
    ∃ s' ev, cmdService fuel s w.src w.msg w.ack = some (true, s', ev) ∧ Ready L F s'.comm ∧
      Bound fuel s'.pcfg F ∧ framWord s'.pcfg F = Function.update (framWord s.pcfg F) w.var w.value := by
  have hserve := h.service fuel w.var (.inr rfl) w.src w.msg rfl rfl w.ack
  let k := slot TCmdDir.dirWrite.code.toNat w.var.cmd.code.toNat
  have hwrite := @serveVar_write L w.var.cmd w.var.ram (s.touchAt k) fuel F hb h.dev w.msg rfl
  refine ⟨_, _, hserve, ?_, ?_, ?_⟩
  · rw [hwrite]
    exact ⟨h.hasInit, h.dev, h.route, h.item, h.free⟩
  · rw [hwrite]
    exact hb.of_cells _
  · rw [hwrite]
    funext v
    show wordAt (Function.update s.pcfg.cells F _ F) v.cmd.offset = _
    rw [Function.update_self]
    by_cases hv : v = w.var
    · subst hv
      rw [Function.update_self]
      -- the bytes written are those of the value
      have hword := @wordAt_fm25l16bWriteDataLen (s.pcfg.cells F) w.msg.padAt _ w.var.cmd.offset_le
      refine Eq.trans hword ?_
      rw [← ofLe_leByte w.value]
      refine ofLe_congr fun i hi => ?_
      show leByte w.value (Fin.ofNat 4 i) = _
      rw [Fin.val_ofNat, Nat.mod_eq_of_lt hi]
    · rw [Function.update_of_ne hv]
      exact wordAt_fm25l16bWriteDataLen_of_disjoint w.var.cmd.offset_le
        (PersistedVar.offset_disjoint (Ne.symm hv))

/-- **Write runs.** -/
theorem Ready.writes {L : Layout} {F : Addr} {fuel : ℕ} {ws : List WriteReq} :
    ∀ {s : Sys}, Ready L F s.comm → Bound fuel s.pcfg F →
      ∃ s', serveWrites fuel s ws = some s' ∧ Bound fuel s'.pcfg F ∧
        framWord s'.pcfg F = stored (framWord s.pcfg F) ws := by
  induction ws with
  | nil => exact fun {s} _ hb => ⟨s, rfl, hb, rfl⟩
  | cons w ws ih =>
    intro s h hb
    obtain ⟨s₁, ev, hserve, h₁, hb₁, hword₁⟩ := h.write hb w
    obtain ⟨s₂, hrest, hb₂, hword₂⟩ := ih h₁ hb₁
    refine ⟨s₂, ?_, hb₂, ?_⟩
    · simp only [serveWrites, hserve, Option.bind_eq_bind, Option.bind_some, if_true]
      exact hrest
    · rw [hword₂, hword₁]
      rfl

/-- The stored word is the one last written, or the one that was there. -/
theorem stored_eq (fram : PersistedVar → UInt32) (ws : List WriteReq) (v : PersistedVar) :
    stored fram ws v = (lastWritten ws v).getD (fram v) := by
  have hfold : ∀ (ws : List WriteReq) (f : PersistedVar → UInt32) (g : PersistedVar → Option UInt32),
      (∀ v, f v = (g v).getD (fram v)) →
      ws.foldl (fun (f : PersistedVar → UInt32) w => Function.update f w.var w.value) f v
        = (ws.foldl (fun (g : PersistedVar → Option UInt32) w =>
            Function.update g w.var (some w.value)) g v).getD (fram v) := by
    intro ws
    induction ws with
    | nil => exact fun f g h => h v
    | cons w ws ih =>
      intro f g h
      -- the induction is on the writes; the two folds agree before each of them
      refine ih _ _ fun u => ?_
      show Function.update f w.var w.value u
        = (Function.update g w.var (some w.value) u).getD (fram u)
      by_cases hu : u = w.var
      · subst hu; rw [Function.update_self, Function.update_self]; rfl
      · rw [Function.update_of_ne hu, Function.update_of_ne hu, h u]
  exact hfold ws fram (fun _ => none) fun _ => rfl

/-! ### Write, restart, read -/

/-- A read returns the word in RAM. -/
theorem readsBack_iff {L : Layout} {F : Addr} {s : Sys} (h : Ready L F s.comm) (fuel : ℕ)
    (v : PersistedVar) (x : UInt32) :
    ReadsBack fuel s v x ↔ wordAt s.mem (L.addr v.ram) = x := by
  have hread : ∀ src devId pad, src ≠ chanNull →
      cmdService fuel s src ⟨devId, TCmdDir.dirRead.code, v.cmd.code, pad⟩ true
        = some (true, s.touchAt (slot TCmdDir.dirRead.code.toNat v.cmd.code.toNat),
            [.ack src ⟨devId, TCmdDir.dirRead.code, v.cmd.code,
              fun i => leByte (wordAt s.mem (L.addr v.ram)) i⟩]) := by
    intro src devId pad hsrc
    have hserve := h.service fuel v (.inl rfl) src
      ⟨devId, TCmdDir.dirRead.code, v.cmd.code, pad⟩ rfl rfl true
    rw [serveVar_read L v.cmd v.ram _ rfl] at hserve
    rw [hserve, bne_iff_ne.mpr hsrc]
    rfl
  constructor
  · intro hback
    obtain ⟨s', hs'⟩ := hback chanEth0 0 (fun _ => 0) (by decide)
    rw [hread chanEth0 0 _ (by decide)] at hs'
    -- equal replies have equal bytes, hence equal words
    have hpad : (fun i : Fin 4 => leByte (wordAt s.mem (L.addr v.ram)) i)
        = fun i : Fin 4 => leByte x i := by
      simp only [Option.some.injEq, Prod.mk.injEq, List.cons.injEq, Event.ack.injEq,
        TCommMsg.mk.injEq] at hs'
      exact hs'.2.2.1.2.2.2.2
    rw [← ofLe_leByte (wordAt s.mem (L.addr v.ram)), ← ofLe_leByte x]
    exact ofLe_congr fun i hi => congrFun hpad ⟨i, hi⟩
  · rintro rfl
    exact fun src devId pad hsrc => ⟨_, hread src devId pad hsrc⟩

/-- What write, restart and load amount to: every variable in RAM holds the stored
word of the command it is loaded from, and so does the interface. -/
theorem restart_words {fuel : ℕ} {p : ParamCfg} {F : Addr} (hb : Bound fuel p F) (L : Layout)
    (h : CmdFunc) (base : Addr) (tcmd : Addr → TCmd) (mem mem' : Addr → UInt8) (ws : List WriteReq) :
    ∃ s₁ n₁ s₂ s₃, boot fuel L h base tcmd p mem = some (s₁, n₁) ∧ serveWrites fuel s₁ ws = some s₂ ∧
      boot fuel L h base tcmd s₂.pcfg mem' = some (s₃, ⟨stored (framWord p F) ws .localIp,
        stored (framWord p F) ws .gateway, stored (framWord p F) ws .netmask⟩) ∧
      Ready L F s₃.comm ∧
      ∀ r : RamVar, wordAt s₃.mem (L.addr r) = stored (framWord p F) ws r.loaded := by
  obtain ⟨s₁, hboot₁, hready₁, hpcfg₁, -⟩ := boot_eq_some hb L h base tcmd mem
  have hb₁ : Bound fuel s₁.pcfg F := by rw [hpcfg₁]; exact hb
  obtain ⟨s₂, hwrites, hb₂, hwords⟩ := @Ready.writes L F fuel ws s₁ hready₁ hb₁
  rw [hpcfg₁] at hwords
  obtain ⟨s₃, hboot₃, hready₃, -, hram⟩ := boot_eq_some hb₂ L h base tcmd mem'
  rw [hwords] at hboot₃ hram
  exact ⟨s₁, _, s₂, s₃, hboot₁, hwrites, hboot₃, hready₃, hram⟩

/-- **Persistence over a restart.**  After any sequence of writes and a restart,
every variable and the interface have the values last written iff neither the
gateway nor the netmask was written, or the two words stored for them agree. -/
theorem persisted_iff {fuel : ℕ} {p : ParamCfg} {F : Addr} (hb : Bound fuel p F) (L : Layout)
    (h : CmdFunc) (base : Addr) (tcmd : Addr → TCmd) (mem mem' : Addr → UInt8) (ws : List WriteReq) :
    ∃ s₁ n₁ s₂ s₃ n₃, boot fuel L h base tcmd p mem = some (s₁, n₁) ∧
      serveWrites fuel s₁ ws = some s₂ ∧
      boot fuel L h base tcmd s₂.pcfg mem' = some (s₃, n₃) ∧
      (Persisted fuel s₃ n₃ ws ↔
        (lastWritten ws .gateway = none ∧ lastWritten ws .netmask = none) ∨
          stored (framWord p F) ws .gateway = stored (framWord p F) ws .netmask) := by
  obtain ⟨s₁, n₁, s₂, s₃, hboot₁, hwrites, hboot₃, hready, hram⟩ :=
    restart_words hb L h base tcmd mem mem' ws
  refine ⟨s₁, n₁, s₂, s₃, _, hboot₁, hwrites, hboot₃, ?_⟩
  have hlast : ∀ v x, lastWritten ws v = some x → stored (framWord p F) ws v = x := by
    intro v x hx
    rw [stored_eq, hx]
    rfl
  constructor
  · intro hpers
    rcases hg : lastWritten ws .gateway with - | x
    · rcases hm : lastWritten ws .netmask with - | x
      · exact .inl ⟨rfl, rfl⟩
      · exact .inr ((hpers.netmask x hm).trans (hlast _ x hm).symm)
    · exact .inr ((hlast _ x hg).trans (hpers.gateway x hg).symm)
  · intro hcond
    -- the words that a restart exchanges
    have hswap : ∀ v w, (v = .gateway ∧ w = .netmask) ∨ (v = .netmask ∧ w = .gateway) →
        ∀ x, lastWritten ws v = some x → stored (framWord p F) ws w = x := by
      rintro v w (⟨rfl, rfl⟩ | ⟨rfl, rfl⟩) x hx
      · rcases hcond with ⟨hg, -⟩ | heq
        · rw [hg] at hx; cases hx
        · rw [← heq, hlast _ x hx]
      · rcases hcond with ⟨-, hm⟩ | heq
        · rw [hm] at hx; cases hx
        · rw [heq, hlast _ x hx]
    refine ⟨fun v x hx => ?_, fun x hx => hlast _ x hx, fun x hx => hswap _ _ (.inr ⟨rfl, rfl⟩) x hx,
      fun x hx => hswap _ _ (.inl ⟨rfl, rfl⟩) x hx⟩
    rw [readsBack_iff hready, hram]
    cases v with
    | gateway => exact hswap _ _ (.inl ⟨rfl, rfl⟩) x hx
    | netmask => exact hswap _ _ (.inr ⟨rfl, rfl⟩) x hx
    | _ => exact hlast _ x hx

/-- The variables one after the other from address 0. -/
def denseLayout : Layout where
  addr v := 4 * v.ctorIdx
  disjoint := by
    intro v w h
    cases v <;> cases w <;> first | exact absurd rfl h | decide

/-- A registry with the FRAM alone, all zero. -/
def framOnly : ParamCfg :=
  (paramRegisterDevice (ParamCfg.reset (fun _ => fm25l16Device) fun _ _ => 0) (some 0)).2

theorem framOnly_bound : Bound 1 framOnly 0 where
  found := rfl
  ops := ⟨none, rfl⟩

/-- The address and one variable are written, and survive the restart. -/
theorem persisted_iff_address :
    ∃ s₁ n₁ s₂ s₃ n₃, boot 1 denseLayout (fun src msg => (0, src, msg)) 0 (fun _ => ⟨0, 0, none, none⟩)
        framOnly (fun _ => 0) = some (s₁, n₁) ∧
      serveWrites 1 s₁ [⟨.localIp, 0x0A32A8C0, chanEth0, 0, true⟩, ⟨.int1, 5, chanEth0, 0, true⟩]
        = some s₂ ∧
      boot 1 denseLayout (fun src msg => (0, src, msg)) 0 (fun _ => ⟨0, 0, none, none⟩) s₂.pcfg
        (fun _ => 0xFF) = some (s₃, n₃) ∧
      Persisted 1 s₃ n₃ [⟨.localIp, 0x0A32A8C0, chanEth0, 0, true⟩, ⟨.int1, 5, chanEth0, 0, true⟩] := by
  obtain ⟨s₁, n₁, s₂, s₃, n₃, hboot₁, hwrites, hboot₃, hiff⟩ := persisted_iff framOnly_bound denseLayout
    (fun src msg => (0, src, msg)) 0 (fun _ => ⟨0, 0, none, none⟩) (fun _ => 0) (fun _ => 0xFF)
    [⟨.localIp, 0x0A32A8C0, chanEth0, 0, true⟩, ⟨.int1, 5, chanEth0, 0, true⟩]
  exact ⟨s₁, n₁, s₂, s₃, n₃, hboot₁, hwrites, hboot₃, hiff.mpr (.inl ⟨rfl, rfl⟩)⟩

/-- Netmask 255.255.255.0 and gateway 192.168.50.1 are written: after a restart the
interface has the one for the other. -/
theorem netmask_gateway_exchanged :
    ∃ s₁ n₁ s₂ s₃ n₃, boot 1 denseLayout (fun src msg => (0, src, msg)) 0 (fun _ => ⟨0, 0, none, none⟩)
        framOnly (fun _ => 0) = some (s₁, n₁) ∧
      serveWrites 1 s₁ [⟨.netmask, 0x00FFFFFF, chanEth0, 0, true⟩,
        ⟨.gateway, 0x0132A8C0, chanEth0, 0, true⟩] = some s₂ ∧
      boot 1 denseLayout (fun src msg => (0, src, msg)) 0 (fun _ => ⟨0, 0, none, none⟩) s₂.pcfg
        (fun _ => 0) = some (s₃, n₃) ∧
      n₃.netmask = 0x0132A8C0 ∧ n₃.gw = 0x00FFFFFF ∧
      ¬ Persisted 1 s₃ n₃ [⟨.netmask, 0x00FFFFFF, chanEth0, 0, true⟩,
        ⟨.gateway, 0x0132A8C0, chanEth0, 0, true⟩] := by
  obtain ⟨s₁, n₁, s₂, s₃, hboot₁, hwrites, hboot₃, -, -⟩ := restart_words framOnly_bound denseLayout
    (fun src msg => (0, src, msg)) 0 (fun _ => ⟨0, 0, none, none⟩) (fun _ => 0) (fun _ => 0)
    [⟨.netmask, 0x00FFFFFF, chanEth0, 0, true⟩, ⟨.gateway, 0x0132A8C0, chanEth0, 0, true⟩]
  refine ⟨s₁, n₁, s₂, s₃, _, hboot₁, hwrites, hboot₃, rfl, rfl, fun hpers => ?_⟩
  exact absurd (hpers.netmask _ rfl) (by decide)

end Start01
