/-
Start01/Binding.lean

The device handle of DebugComm.c.  `Init_CmdList` runs once, inside the first
`RegisterCmd` or `RegisterAutoVar`, and looks the parameter device up by name; the
answer is cached for ever, also when it is NULL.  The initcalls that register the
device, the commands and the variables run at one level, so their order is that
of linking.

The machine of this module interleaves `Param_Register_Device`, `RegisterCmd`,
`RegisterAutoVar` and messages in any order.  Two ghosts record the devices
registered so far and those registered when `Init_CmdList` ran.  A search of the
registry that does not end (a device registered twice can close a cycle) is a run
that does not return.

The result (`flashWritten_iff`): a write that is acknowledged has reached the FRAM
exactly where the FRAM had been registered before `Init_CmdList` ran, and no handler is
on the chain of the message: a handler gets it in place of the variable.
-/
import Start01.CmdTable

namespace Start01

open Run Scatter

/-! ### The machine -/

/-- The firmware, with the two ghosts. -/
structure BindState where
  sys : Sys
  /-- Ghost: the devices registered so far. -/
  registered : List Addr
  /-- Ghost: the devices registered when `Init_CmdList` ran. -/
  known : List Addr

/-- A call from an initcall, or a message. -/
inductive BindOp
  | paramRegisterDevice (device : Option Addr)
  | registerCmd (item : Option Addr)
  | registerAutoVar (cmd varSize : UInt8) (varAddr : Option Addr) (varType : UInt8)
  | message (src : TDataChan) (msg : TCommMsg) (ack : Bool)

/-- One served message. -/
structure Served where
  before : BindState
  src : TDataChan
  msg : TCommMsg
  after : Sys
  events : List Event

/-- What `Init_CmdList` gets for `Param_dev_Request(PARAM_DEV_NAME)`, and the devices
registered at that moment; nothing is asked when it has run already. -/
def initRequest (fuel : ℕ) (b : BindState) : Option (Option Addr × List Addr) :=
  if b.sys.comm.hasInit then some (none, b.known)
  else (paramDevRequest fuel b.sys.pcfg devFm25l16).map fun dev => (dev, b.registered)

/-- One step: the state, and the message served. -/
def bindStep (fuel : ℕ) (b : BindState) : BindOp → Option (BindState × List Served)
  | .paramRegisterDevice device =>
      some ({ b with
        sys := { b.sys with pcfg := (paramRegisterDevice b.sys.pcfg device).2 }
        registered := device.toList ++ b.registered }, [])
  | .registerCmd none => some (b, [])
  | .registerCmd (some item) =>
      (initRequest fuel b).map fun r =>
        ({ b with
          sys := { b.sys with comm := (Start01.registerCmd r.1 b.sys.comm (some item)).2 }
          known := r.2 }, [])
  | .registerAutoVar cmd varSize varAddr varType =>
      (initRequest fuel b).map fun r =>
        ({ b with
          sys := { b.sys with
            comm := (Start01.registerAutoVar r.1 b.sys.comm cmd varSize varAddr varType).2 }
          known := r.2 }, [])
  | .message src msg ack =>
      (cmdService fuel b.sys src msg ack).map fun r =>
        ({ b with sys := r.2.1 }, [⟨b, src, msg, r.2.1, r.2.2⟩])

/-- Before the initcalls. -/
def BindState.reset (tcmd : Addr → TCmd) (devs : Addr → ParamDevice) (cells : Addr → Store)
    (mem : Addr → UInt8) : BindState where
  sys := ⟨DebugComm.reset tcmd, ParamCfg.reset devs cells, mem⟩
  registered := []
  known := []

/-! ### Writes to flash variables -/

/-- An acknowledged `DIR_WRITE` of a variable registered for flash, after the device
`F` was registered. -/
structure Served.FlashWrite (F : Addr) (r : Served) : Prop where
  registered : F ∈ r.before.registered
  dir : r.msg.dir = TCmdDir.dirWrite.code
  flash : (r.before.sys.comm.varList r.msg.cmd.toNat).varType &&& varUpdateFlash ≠ 0
  acked : ∃ msg, .ack r.src msg ∈ r.events

/-- None of the objects on the chain of the message has a function. -/
def DebugComm.Unhandled (s : DebugComm) (msg : TCommMsg) : Prop :=
  ∃ l, Linked.Chain (fun a => (s.tcmd a).next) (s.cmdlist (slot msg.dir.toNat msg.cmd.toNat)) l ∧
    ∀ a ∈ l, (s.tcmd a).func = none

/-- The write reached `F` at the offset of its command, and no other cell. -/
structure Served.Written (F : Addr) (r : Served) : Prop where
  call : ∃ data, .devWrite (some F) (getOffset r.msg.cmd.toNat) data true ∈ r.events
  cells : ∀ i < (r.before.sys.comm.varList r.msg.cmd.toNat).varSize.toNat,
    r.after.pcfg.cells F (getOffset r.msg.cmd.toNat + i) = r.msg.padAt i
  frame : ∀ x, x < getOffset r.msg.cmd.toNat ∨ getOffset r.msg.cmd.toNat + 4 ≤ x →
    r.after.pcfg.cells F x = r.before.sys.pcfg.cells F x
  others : ∀ d, d ≠ F → r.after.pcfg.cells d = r.before.sys.pcfg.cells d

/-! ### The registry -/

/-- The device objects: `F` alone has the name, and the functions of fm25l16.c. -/
structure FramAlone (devs : Addr → ParamDevice) (F : Addr) : Prop where
  ops : ∃ q, devs F = { fm25l16Device with next := q }
  unique : ∀ d, strncmpEq (devs d).name devFm25l16 maxParDeviceName = true → d = F

/-- From the head of the list every path leads to `F`, if it ends at all. -/
def LeadsTo (p : ParamCfg) (F : Addr) : Prop :=
  ∃ S : Set Addr, (∃ a ∈ S, p.gCurTarget = some a) ∧
    ∀ a ∈ S, a = F ∨ ∃ b ∈ S, (p.devs a).next = some b

/-- The list of devices: registering changes links only, what is linked has been
registered, and the list leads to `F` once it has been registered. -/
structure RegistryInv (devs : Addr → ParamDevice) (F : Addr) (p : ParamCfg) (registered : List Addr) :
    Prop where
  object : ∀ d, ∃ q, p.devs d = { devs d with next := q }
  head : ∀ d, p.gCurTarget = some d → d ∈ registered
  link : ∀ d ∈ registered, ∀ e, (p.devs d).next = some e → e ∈ registered
  leads : F ∈ registered → LeadsTo p F

theorem RegistryInv.register {devs : Addr → ParamDevice} {F : Addr} {p : ParamCfg} {reg : List Addr}
    (h : RegistryInv devs F p reg) (d : Addr) :
    RegistryInv devs F (paramRegisterDevice p (some d)).2 (d :: reg) := by
  obtain ⟨cells, hp⟩ := paramRegisterDevice_snd p d
  rw [hp]
  refine ⟨fun e => ?_, fun e he => ?_, fun e he f hf => ?_, fun hF => ?_⟩
  · obtain ⟨q, hq⟩ := h.object e
    show ∃ q, Function.update p.devs d _ e = _
    by_cases hed : e = d
    · subst hed
      rw [Function.update_self, hq]
      exact ⟨_, rfl⟩
    · rw [Function.update_of_ne hed]
      exact ⟨q, hq⟩
  · obtain rfl := Option.some.inj he
    exact List.mem_cons_self
  · change (Function.update p.devs d _ e).next = some f at hf
    by_cases hed : e = d
    · subst hed
      rw [Function.update_self] at hf
      exact List.mem_cons_of_mem e (h.head f hf)
    · rw [Function.update_of_ne hed] at hf
      exact List.mem_cons_of_mem d (h.link e ((List.mem_cons.mp he).resolve_left hed) f hf)
  · by_cases hdF : d = F
    · -- the device itself is the head
      subst hdF
      exact ⟨{d}, ⟨d, rfl, rfl⟩, fun a ha => .inl ha⟩
    · -- a new head in front of the old list
      obtain ⟨S, ⟨a, haS, hhead⟩, hclosed⟩ :=
        h.leads ((List.mem_cons.mp hF).resolve_left (Ne.symm hdF))
      refine ⟨insert d S, ⟨d, Set.mem_insert d S, rfl⟩, fun e he => ?_⟩
      show e = F ∨ ∃ b ∈ insert d S, (Function.update p.devs d _ e).next = some b
      by_cases hed : e = d
      · subst hed
        rw [Function.update_self]
        exact .inr ⟨a, Set.mem_insert_of_mem e haS, hhead⟩
      · rw [Function.update_of_ne hed]
        exact (hclosed e (Set.mem_of_mem_insert_of_ne he hed)).imp id
          fun ⟨b, hb, hnext⟩ => ⟨b, Set.mem_insert_of_mem d hb, hnext⟩

/-- **The search** finds `F` exactly if it has been registered. -/
theorem RegistryInv.request {devs : Addr → ParamDevice} {F : Addr} {p : ParamCfg} {reg : List Addr}
    (h : RegistryInv devs F p reg) (hF : FramAlone devs F) {fuel : ℕ} {r : Option Addr}
    (hr : paramDevRequest fuel p devFm25l16 = some r) : r = if F ∈ reg then some F else none := by
  have hname : ∀ d, (p.devs d).name = (devs d).name := by
    intro d
    obtain ⟨q, hq⟩ := h.object d
    rw [hq]
  have hhit : strncmpEq (p.devs F).name devFm25l16 maxParDeviceName = true := by
    obtain ⟨q, hq⟩ := hF.ops
    rw [hname, hq]
    show strncmpEq devFm25l16 devFm25l16 maxParDeviceName = true
    decide
  rcases r with - | d
  · -- an empty answer: the list cannot lead to `F`
    rw [if_neg]
    intro hreg
    obtain ⟨S, ⟨a, haS, hhead⟩, hclosed⟩ := h.leads hreg
    rw [paramDevRequest, hhead] at hr
    refine Linked.find_ne_end (fun b hb => ?_) haS hr
    rcases hclosed b hb with rfl | hnext
    · exact .inl hhit
    · exact .inr hnext
  · have hd : d = F := by
      have hit := Linked.find_hit hr
      rw [hname] at hit
      exact hF.unique d hit
    have hreg : d ∈ reg := Linked.find_mem (S := {e | e ∈ reg}) h.link h.head hr
    rw [hd] at hreg ⊢
    rw [if_pos hreg]

/-- Cells do not matter. -/
theorem RegistryInv.of_cells {devs : Addr → ParamDevice} {F : Addr} {p p' : ParamCfg} {reg : List Addr}
    (h : RegistryInv devs F p reg) {cells : Addr → Store} (hp : p' = { p with cells := cells }) :
    RegistryInv devs F p' reg := by
  subst hp
  exact ⟨h.object, h.head, h.link, h.leads⟩

/-! ### The handle -/

/-- The handle is `F` exactly if `F` was registered when `Init_CmdList` ran. -/
structure BindInv (devs : Addr → ParamDevice) (F : Addr) (b : BindState) : Prop where
  registry : RegistryInv devs F b.sys.pcfg b.registered
  route : b.sys.comm.routeFunc = none
  fresh : b.sys.comm.hasInit = false → b.sys.comm.dev = none
  dev : b.sys.comm.hasInit = true → b.sys.comm.dev = if F ∈ b.known then some F else none

/-- **Initialisation.**  What the first registration caches. -/
theorem BindInv.ensureInit_dev {devs : Addr → ParamDevice} {F : Addr} {b : BindState}
    (h : BindInv devs F b) (hF : FramAlone devs F) {fuel : ℕ} {req : Option Addr} {known : List Addr}
    (hreq : initRequest fuel b = some (req, known)) :
    (b.sys.comm.ensureInit req).dev = if F ∈ known then some F else none := by
  rcases hinit : b.sys.comm.hasInit with - | -
  · rw [initRequest, hinit, if_neg Bool.false_ne_true] at hreq
    obtain ⟨r, hr, heq⟩ := Option.map_eq_some_iff.mp hreq
    obtain ⟨rfl, rfl⟩ := Prod.mk.injEq .. ▸ heq
    rw [Start01.ensureInit_dev hinit (h.fresh hinit)]
    exact h.registry.request hF hr
  · rw [initRequest, hinit, if_pos rfl] at hreq
    obtain ⟨-, rfl⟩ := Prod.mk.injEq .. ▸ Option.some.inj hreq
    rw [ensureInit_of_hasInit hinit]
    exact h.dev hinit

/-! ### One message -/

/-- Handlers run exactly where there is one on the chain. -/
theorem handlersRun_eq_nil_iff {fuel : ℕ} {s s' : Sys} {src : TDataChan} {msg : TCommMsg}
    {ack ret : Bool} {ev : List Event} (h : cmdService fuel s src msg ack = some (ret, s', ev))
    (hgo : (s.comm.hasInit && guarded msg.dir msg.cmd) = true) :
    handlersRun ev = [] ↔ s.comm.Unhandled msg := by
  rw [cmdService_of_guard hgo] at h
  obtain ⟨st, hwalk, hout⟩ := Option.map_eq_some_iff.mp h
  obtain ⟨l, hl, hfold⟩ := Linked.walk_eq_some hwalk
  have hev : handlersRun ev = l.filter fun a => (s.comm.tcmd a).func.isSome := by
    have hrun := finishService_handlersRun (s.touchAt (slot msg.dir.toNat msg.cmd.toNat)) ack st
    rw [hout, ← hfold, foldl_serveItem_handlersRun] at hrun
    exact hrun
  have hnone : handlersRun ev = [] ↔ ∀ a ∈ l, (s.comm.tcmd a).func = none := by
    rw [hev, List.filter_eq_nil_iff]
    simp
  rw [hnone]
  constructor
  · exact fun hall => ⟨l, hl, hall⟩
  · rintro ⟨l', hl', hall⟩
    rw [hl.unique hl']
    exact hall

/-- The loop over the chain writes to no device, and where it has called nothing it has done
nothing. -/
theorem walk_serveItem_events {s : DebugComm} {ack : Bool} {fuel : ℕ} {p : Option Addr}
    {src : TDataChan} {msg : TCommMsg} {st : SvcState}
    (hwalk : Linked.walk (fun a => (s.tcmd a).next) (serveItem s ack) fuel p
      ⟨src, src, msg, false, []⟩ = some st) :
    (st.hasCmd = true ∨ st = ⟨src, src, msg, false, []⟩) ∧
      ∀ dev off data ok, .devWrite dev off data ok ∉ st.events := by
  refine Linked.walk_invariant (S := Set.univ) (P := fun x : SvcState =>
    (x.hasCmd = true ∨ x = ⟨src, src, msg, false, []⟩) ∧
      ∀ dev off data ok, .devWrite dev off data ok ∉ x.events) (fun _ _ _ _ => trivial)
    (fun x a _ hx => ?_) (fun _ _ => trivial)
    ⟨.inr rfl, fun _ _ _ _ => List.not_mem_nil⟩ hwalk
  rw [serveItem]
  rcases (s.tcmd a).func with - | f
  · exact hx
  · refine ⟨.inl rfl, fun dev off data ok hmem => ?_⟩
    rcases List.mem_append.mp hmem with hmem | hmem
    · exact hx.2 dev off data ok hmem
    · rcases List.mem_cons.mp hmem with hmem | hmem
      · cases hmem
      · -- what follows is the acknowledgment
        unfold ackCommMsg at hmem
        split_ifs at hmem
        all_goals simp at hmem

/-- A message that a handler gets is written to no device. -/
theorem no_devWrite_of_handled {fuel : ℕ} {s s' : Sys} {src : TDataChan} {msg : TCommMsg}
    {ack ret : Bool} {ev : List Event} (h : cmdService fuel s src msg ack = some (ret, s', ev))
    (hrun : handlersRun ev ≠ []) : ∀ dev off data ok, .devWrite dev off data ok ∉ ev := by
  obtain ⟨-, -, -, rfl⟩ | ⟨-, -, st, hwalk, ⟨-, -, rfl⟩ | ⟨hcmd, -, rfl⟩⟩ := cmdService_eq_some h
  · exact absurd rfl hrun
  · exact (walk_serveItem_events hwalk).2
  · refine absurd ?_ hrun
    rcases (walk_serveItem_events hwalk).1 with hhas | rfl
    · rw [hcmd] at hhas
      cases hhas
    · exact serveAuto_handlersRun _ ack _

/-- **A served flash write** that no handler gets and which is acknowledged calls
`Param_WriteBuffer` on the handle, whatever that is, and ignores what it returns. -/
theorem flashWrite_effect {fuel : ℕ} {s s' : Sys} {src : TDataChan} {msg : TCommMsg} {ack ret : Bool}
    {ev : List Event} (h : cmdService fuel s src msg ack = some (ret, s', ev))
    (hroute : s.comm.routeFunc = none) (hdir : msg.dir = TCmdDir.dirWrite.code)
    (hflash : (s.comm.varList msg.cmd.toNat).varType &&& varUpdateFlash ≠ 0)
    (hunhandled : s.comm.Unhandled msg) (hack : ∃ m, .ack src m ∈ ev) :
    let v := s.comm.varList msg.cmd.toNat
    let r := paramWriteBuffer s.pcfg s.comm.dev (getOffset msg.cmd.toNat) msg.padAt v.varSize.toUInt16
    msg.cmd.toNat < maxCmdNum ∧ v.varSize.toNat ≤ 4 ∧ s'.pcfg = r.2 ∧
      ev = [.devWrite s.comm.dev (getOffset msg.cmd.toNat) ((List.range v.varSize.toNat).map msg.padAt) r.1,
        .ack src msg] := by
  obtain ⟨m, hm⟩ := hack
  obtain ⟨-, -, -, rfl⟩ | ⟨-, -, st, hwalk, hout⟩ := cmdService_eq_some h
  · cases hm
  · -- the loop did nothing
    have hst : st = ⟨src, src, msg, false, []⟩ := by
      obtain ⟨l, hl, hfold⟩ := Linked.walk_eq_some hwalk
      obtain ⟨l', hl', hall⟩ := hunhandled
      rw [hl.unique hl', foldl_serveItem_of_no_handler hall] at hfold
      exact hfold.symm
    subst hst
    rcases hout with ⟨hcmd, -, -⟩ | ⟨-, rfl, rfl⟩
    · cases hcmd
    · rw [List.nil_append] at hm
      set t := s.touchAt (slot msg.dir.toNat msg.cmd.toNat) with ht
      have hrouted : t.comm.routed src src msg = (src, msg) := by
        rw [DebugComm.routed, show t.comm.routeFunc = none from hroute]
      simp only [serveAuto, hrouted, if_true] at hm ⊢
      rcases hauto : varAutoUpdateService t msg with - | ⟨s₁, msg₁, ev₁⟩
      · rw [hauto] at hm
        cases hm
      · obtain ⟨hcmd, -, -, hsize, p, -, hserve⟩ := varAutoUpdateService_eq_some hauto
        obtain ⟨mem, heff⟩ := serveVar_flashWrite t p hdir hflash
        obtain ⟨rfl, rfl, rfl⟩ : _ ∧ _ ∧ _ := by simpa only [Prod.mk.injEq] using heff.symm.trans hserve
        rw [hauto] at hm
        -- the acknowledgment can only be the one behind the service
        rcases hcond : ack && src != chanNull with - | -
        · simp [hcond] at hm
        · rw [(Bool.and_eq_true_iff.mp hcond).1]
          exact ⟨hcmd, hsize, rfl, rfl⟩

/-- On the handle `F` the write goes to the FRAM. -/
theorem BindInv.paramWriteBuffer_eq {devs : Addr → ParamDevice} {F : Addr} {b : BindState}
    (h : BindInv devs F b) (hF : FramAlone devs F) (off : ℕ) (data : ℕ → UInt8) (size : UInt8) :
    paramWriteBuffer b.sys.pcfg (some F) off data size.toUInt16
      = (true, { b.sys.pcfg with
          cells := Function.update b.sys.pcfg.cells F
            (fm25l16bWriteDataLen (b.sys.pcfg.cells F) off data size.toNat) }) := by
  obtain ⟨q, hq⟩ := h.registry.object F
  obtain ⟨q', hq'⟩ := hF.ops
  simp [paramWriteBuffer, ParamCfg.onDevice, hq, hq', fm25l16Device]

/-- A write on the handle `F` has reached `F`, and no cell beside it. -/
theorem BindInv.written_of_dev {devs : Addr → ParamDevice} {F : Addr} {b : BindState}
    (h : BindInv devs F b) (hF : FramAlone devs F) {fuel : ℕ} {src : TDataChan} {msg : TCommMsg}
    {ack ret : Bool} {s' : Sys} {ev : List Event}
    (hserve : cmdService fuel b.sys src msg ack = some (ret, s', ev))
    (hw : Served.FlashWrite F ⟨b, src, msg, s', ev⟩) (hunhandled : b.sys.comm.Unhandled msg)
    (hdev : b.sys.comm.dev = some F) :
    Served.Written F ⟨b, src, msg, s', ev⟩ := by
  obtain ⟨hcmd, hsize, hpcfg, hev⟩ :=
    flashWrite_effect hserve h.route hw.dir hw.flash hunhandled hw.acked
  rw [hdev, h.paramWriteBuffer_eq hF] at hpcfg hev
  have hcells : s'.pcfg.cells = Function.update b.sys.pcfg.cells F
      (fm25l16bWriteDataLen (b.sys.pcfg.cells F) (getOffset msg.cmd.toNat) msg.padAt
        (b.sys.comm.varList msg.cmd.toNat).varSize.toNat) := by
    rw [hpcfg]
  -- the last command has its word below the end of the chip
  have hfit : getOffset msg.cmd.toNat + (b.sys.comm.varList msg.cmd.toNat).varSize.toNat ≤ framSize := by
    simp only [getOffset, framSize, maxCmdNum] at *
    omega
  refine ⟨⟨(List.range (b.sys.comm.varList msg.cmd.toNat).varSize.toNat).map msg.padAt, ?_⟩,
    fun i hi => ?_, fun x hx => ?_, fun d hd => ?_⟩
  · show Event.devWrite (some F) _ _ true ∈ ev
    rw [hev]
    exact List.mem_cons_self
  · show s'.pcfg.cells F _ = _
    rw [hcells, Function.update_self]
    exact fm25l16bWriteDataLen_apply hfit hi
  · show s'.pcfg.cells F x = _
    rw [hcells, Function.update_self]
    change x < getOffset msg.cmd.toNat ∨ getOffset msg.cmd.toNat + 4 ≤ x at hx
    exact fm25l16bWriteDataLen_frame hfit (by omega)
  · show s'.pcfg.cells d = _
    rw [hcells]
    exact Function.update_of_ne hd _ _

/-- **The verdict on one message**: an acknowledged flash write has reached `F` iff
`F` was registered when `Init_CmdList` ran and no handler got the message. -/
theorem BindInv.written_iff {devs : Addr → ParamDevice} {F : Addr} {b : BindState}
    (h : BindInv devs F b) (hF : FramAlone devs F) {fuel : ℕ} {src : TDataChan} {msg : TCommMsg}
    {ack ret : Bool} {s' : Sys} {ev : List Event}
    (hserve : cmdService fuel b.sys src msg ack = some (ret, s', ev))
    (hw : Served.FlashWrite F ⟨b, src, msg, s', ev⟩) :
    Served.Written F ⟨b, src, msg, s', ev⟩ ↔ F ∈ b.known ∧ b.sys.comm.Unhandled msg := by
  -- before initialisation nothing is served
  have hgo : (b.sys.comm.hasInit && guarded msg.dir msg.cmd) = true := by
    by_contra hno
    rw [cmdService_of_not_guard (Bool.eq_false_iff.mpr hno)] at hserve
    obtain ⟨-, -, rfl⟩ := by simpa only [Option.some.injEq, Prod.mk.injEq] using hserve
    obtain ⟨m, hm⟩ := hw.acked
    cases hm
  have hdev := h.dev (Bool.and_eq_true_iff.mp hgo).1
  constructor
  · intro hwritten
    obtain ⟨data, hcall⟩ := hwritten.call
    change Event.devWrite (some F) _ data true ∈ ev at hcall
    have hunhandled : b.sys.comm.Unhandled msg := by
      rw [← handlersRun_eq_nil_iff hserve hgo]
      by_contra hrun
      exact no_devWrite_of_handled hserve hrun _ _ _ _ hcall
    refine ⟨?_, hunhandled⟩
    by_contra hk
    -- the call went to the handle NULL
    obtain ⟨-, -, -, hev⟩ :=
      flashWrite_effect hserve h.route hw.dir hw.flash hunhandled hw.acked
    rw [if_neg hk] at hdev
    rw [hev, hdev] at hcall
    simp at hcall
  · rintro ⟨hk, hunhandled⟩
    rw [if_pos hk] at hdev
    exact h.written_of_dev hF hserve hw hunhandled hdev

/-! ### Runs -/

/-- If the message is an acknowledged flash write, it has reached `F`. -/
def Served.Honest (F : Addr) (r : Served) : Prop := r.FlashWrite F → r.Written F

/-- If the message is an acknowledged flash write, `F` was registered when
`Init_CmdList` ran, and no handler gets the message. -/
def Served.InTime (F : Addr) (r : Served) : Prop :=
  r.FlashWrite F → F ∈ r.before.known ∧ r.before.sys.comm.Unhandled r.msg

/-- A registration that has initialised the tables keeps the invariant. -/
theorem BindInv.of_registration {devs : Addr → ParamDevice} {F : Addr} {b : BindState}
    (h : BindInv devs F b) (hF : FramAlone devs F) {fuel : ℕ} {req : Option Addr} {known : List Addr}
    (hreq : initRequest fuel b = some (req, known)) {comm : DebugComm} (hinit : comm.hasInit = true)
    (hdev : comm.dev = (b.sys.comm.ensureInit req).dev)
    (hroute : comm.routeFunc = b.sys.comm.routeFunc) :
    BindInv devs F { b with sys := { b.sys with comm := comm }, known := known } where
  registry := h.registry
  route := hroute.trans h.route
  fresh hf := absurd (hinit.symm.trans hf) (by decide)
  dev _ := hdev.trans (h.ensureInit_dev hF hreq)

/-- **Step.**  Registrations keep the invariant, and a message is judged by it. -/
theorem bindStep_verdict {devs : Addr → ParamDevice} {F : Addr} (hF : FramAlone devs F) {fuel : ℕ}
    (b : BindState) (op : BindOp) (b' : BindState) (o : List Served) (h : BindInv devs F b)
    (hstep : bindStep fuel b op = some (b', o)) :
    Verdict (BindInv devs F) (Served.Honest F) (Served.InTime F) b' o := by
  cases op with
  | paramRegisterDevice device =>
    obtain ⟨rfl, rfl⟩ := Prod.mk.injEq .. ▸ Option.some.inj hstep
    refine .nil ?_
    -- NULL is refused; a device is linked in front
    cases device with
    | none => exact h
    | some d => exact ⟨h.registry.register d, h.route, h.fresh, h.dev⟩
  | registerCmd item =>
    cases item with
    | none =>
      obtain ⟨rfl, rfl⟩ := Prod.mk.injEq .. ▸ Option.some.inj hstep
      exact .nil h
    | some a =>
      obtain ⟨⟨req, known⟩, hreq, heq⟩ := Option.map_eq_some_iff.mp hstep
      obtain ⟨rfl, rfl⟩ := Prod.mk.injEq .. ▸ heq
      obtain ⟨hinit, hdev, hroute⟩ := registerCmd_statics req b.sys.comm a
      exact .nil (h.of_registration hF hreq hinit hdev hroute)
  | registerAutoVar cmd varSize varAddr varType =>
    obtain ⟨⟨req, known⟩, hreq, heq⟩ := Option.map_eq_some_iff.mp hstep
    obtain ⟨rfl, rfl⟩ := Prod.mk.injEq .. ▸ heq
    obtain ⟨hinit, hdev, hroute⟩ := registerAutoVar_statics req b.sys.comm cmd varSize varAddr varType
    exact .nil (h.of_registration hF hreq hinit hdev hroute)
  | message src msg ack =>
    obtain ⟨⟨ret, s', ev⟩, hserve, heq⟩ := Option.map_eq_some_iff.mp hstep
    obtain ⟨rfl, rfl⟩ := Prod.mk.injEq .. ▸ heq
    obtain ⟨ts, hcomm⟩ := cmdService_comm hserve
    obtain ⟨cells, hpcfg⟩ := cmdService_pcfg hserve
    -- a message changes no table, so the invariant survives whatever its verdict
    have hiff : Served.Honest F ⟨b, src, msg, s', ev⟩ ↔ Served.InTime F ⟨b, src, msg, s', ev⟩ :=
      forall_congr' fun hw => h.written_iff hF hserve hw
    refine ⟨by simpa using hiff, fun _ => ⟨h.registry.of_cells hpcfg, ?_, ?_, ?_⟩⟩
    · show s'.comm.routeFunc = none
      rw [hcomm]; exact h.route
    · show s'.comm.hasInit = false → s'.comm.dev = none
      rw [hcomm]; exact h.fresh
    · show s'.comm.hasInit = true → s'.comm.dev = _
      rw [hcomm]; exact h.dev

/-- **When an acknowledged write is stored.**  In every interleaving of device
registrations, command and variable registrations and messages: every acknowledged
write of a flash variable, made after the FRAM was registered, has reached the FRAM
at its offset and no other cell, iff for each of them the FRAM had been registered
when `Init_CmdList` ran, and no object on the chain of the message has a function. -/
theorem flashWritten_iff {devs : Addr → ParamDevice} {F : Addr} (hF : FramAlone devs F) (fuel : ℕ)
    (tcmd : Addr → TCmd) (cells : Addr → Store) (mem : Addr → UInt8) (ops : List BindOp)
    {b : BindState} {rs : List Served}
    (hrun : run (bindStep fuel) (BindState.reset tcmd devs cells mem) ops = some (b, rs)) :
    (∀ r ∈ rs, r.FlashWrite F → r.Written F) ↔
      ∀ r ∈ rs, r.FlashWrite F → F ∈ r.before.known ∧ r.before.sys.comm.Unhandled r.msg := by
  have hboot : BindInv devs F (BindState.reset tcmd devs cells mem) := by
    refine ⟨⟨fun d => ⟨(devs d).next, rfl⟩, ?_, ?_, ?_⟩, rfl, fun _ => rfl, ?_⟩
    · intro d hd; cases hd
    · intro d hd; cases hd
    · intro hreg; cases hreg
    · intro hinit; cases hinit
  exact (run_verdict (bindStep_verdict hF) hboot hrun).1

/-- Device objects of which the one at 0 is the FRAM. -/
def framAtZero (d : Addr) : ParamDevice :=
  if d = 0 then fm25l16Device else { fm25l16Device with name := [] }

theorem framAtZero_alone : FramAlone framAtZero 0 where
  ops := ⟨none, rfl⟩
  unique d h := by
    by_contra hd
    rw [framAtZero, if_neg hd] at h
    exact absurd h (by decide)

/-- A write of 1, 2, 3, 4 to `CMD_READ_INT1`. -/
def writeInt1 : TCommMsg := ⟨0, 2, 0, ![1, 2, 3, 4]⟩

/-- Device, variable, write: the write reaches the FRAM. -/
theorem flashWritten_iff_device_first :
    ∃ b r, run (bindStep 1) (BindState.reset (fun _ => ⟨0, 0, none, none⟩) framAtZero (fun _ _ => 0)
          fun _ => 0)
        [.paramRegisterDevice (some 0), .registerAutoVar 0 4 (some 100) 3,
          .message chanEth0 writeInt1 true] = some (b, [r]) ∧
      r.FlashWrite 0 ∧ r.Written 0 := by
  obtain ⟨b, r, hrun, hw, hknown⟩ : ∃ b r, run (bindStep 1)
        (BindState.reset (fun _ => ⟨0, 0, none, none⟩) framAtZero (fun _ _ => 0) fun _ => 0)
        [.paramRegisterDevice (some 0), .registerAutoVar 0 4 (some 100) 3,
          .message chanEth0 writeInt1 true] = some (b, [r]) ∧ r.FlashWrite 0 ∧
          0 ∈ r.before.known ∧ r.before.sys.comm.Unhandled r.msg :=
    ⟨_, _, rfl, ⟨by decide, rfl, by decide, ⟨writeInt1, by decide⟩⟩, by decide, [], rfl,
      fun _ ha => absurd ha List.not_mem_nil⟩
  have hall := (flashWritten_iff framAtZero_alone 1 _ _ _ _ hrun).mpr fun r' hr' _ => by
    rw [List.mem_singleton.mp hr']
    exact hknown
  exact ⟨b, r, hrun, hw, hall r List.mem_cons_self hw⟩

/-- Variable, device, write: the write is acknowledged and is not stored. -/
theorem acknowledged_write_lost :
    ∃ b r, run (bindStep 1) (BindState.reset (fun _ => ⟨0, 0, none, none⟩) framAtZero (fun _ _ => 0)
          fun _ => 0)
        [.registerAutoVar 0 4 (some 100) 3, .paramRegisterDevice (some 0),
          .message chanEth0 writeInt1 true] = some (b, [r]) ∧
      r.FlashWrite 0 ∧ r.after.pcfg.cells 0 0 = 0 ∧ ¬ r.Written 0 := by
  refine ⟨_, _, rfl, ⟨by decide, rfl, by decide, ⟨writeInt1, by decide⟩⟩, rfl, fun h => ?_⟩
  exact absurd (h.cells 0 (by decide)) (by decide)

end Start01
