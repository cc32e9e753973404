/-
Start01/Chains.lean

Whether the chains of `TCmd` items and of parameter devices end.  The objects are list nodes
themselves, and `RegisterCmd` and `Param_Register_Device` push them without asking whether they
are linked already.  An object pushed a second time closes a cycle behind itself, for good:
`Cmd_Service` does not come back from a message to the slot of such an item
(`ChainsOf.cmdService_hangs`).

`chainsEnd_iff`: in every order of registrations and messages, all chains are finite and every
walk and every search returns, iff no item is accepted twice and no device registered twice.
-/
import Start01.Binding
import Start01.CmdTable

namespace Start01

open Linked Run

/-! ### What is asked -/

/-- The item that a call links in, over the objects `tcmd`. -/
def BindOp.accepted (tcmd : Addr → TCmd) : BindOp → Option Addr
  | .registerCmd (some a) => if guarded (tcmd a).dir (tcmd a).cmd then some a else none
  | _ => none

/-- The device that a call links in. -/
def BindOp.device : BindOp → Option Addr
  | .paramRegisterDevice device => device
  | _ => none

/-- The chains of all slots, and that of the devices, are finite. -/
structure FiniteChains (s : Sys) : Prop where
  items : ∀ k, ∃ l, Chain (fun a => (s.comm.tcmd a).next) (s.comm.cmdlist k) l
  devices : ∃ l, Chain (fun d => (s.pcfg.devs d).next) s.pcfg.gCurTarget l

/-- Within the fuel, `Cmd_Service` returns for every message and `Param_dev_Request` for every
name. -/
structure AllReturn (fuel : ℕ) (s : Sys) : Prop where
  cmdService : ∀ src msg ack, (Start01.cmdService fuel s src msg ack).isSome
  request : ∀ name, (paramDevRequest fuel s.pcfg name).isSome

/-- With enough fuel the calls return, and leave chains on which all walks and searches return. -/
def ChainsEnd (start : BindState) (ops : List BindOp) : Prop :=
  ∃ n, ∀ fuel ≥ n, ∃ b rs, run (bindStep fuel) start ops = some (b, rs) ∧
    FiniteChains b.sys ∧ AllReturn fuel b.sys

/-! ### The invariant -/

/-- Over the objects `tcmd`, the items and the devices have been linked in, the last one first. -/
structure ChainsOf (tcmd : Addr → TCmd) (s : Sys) (items devices : List Addr) : Prop where
  object : ∀ a, ∃ p, s.comm.tcmd a = { tcmd a with next := p }
  slots : ∀ k, Pushed (fun a => (s.comm.tcmd a).next) (s.comm.cmdlist k)
    (items.filter fun a => (tcmd a).slot == k)
  devices : Pushed (fun d => (s.pcfg.devs d).next) s.pcfg.gCurTarget devices
  fresh : s.comm.hasInit = false → items = []

theorem chainsOf_reset (tcmd : Addr → TCmd) (devs : Addr → ParamDevice) (cells : Addr → Store)
    (mem : Addr → UInt8) : ChainsOf tcmd (BindState.reset tcmd devs cells mem).sys [] [] where
  object a := ⟨(tcmd a).next, rfl⟩
  slots _ := .nil _
  devices := .nil _
  fresh _ := rfl

section Step

variable {tcmd : Addr → TCmd} {s : Sys} {items devices : List Addr}

/-- Initialisation keeps the chains. -/
theorem ChainsOf.ensureInit (h : ChainsOf tcmd s items devices) (req : Option Addr) :
    ChainsOf tcmd { s with comm := s.comm.ensureInit req } items devices where
  object a := by
    show ∃ p, (s.comm.ensureInit req).tcmd a = _
    rw [ensureInit_tcmd]
    exact h.object a
  slots k := by
    have hempty : s.comm.hasInit = false → s.comm.cmdlist k = none := by
      intro hinit
      have hslot := h.slots k
      rw [h.fresh hinit] at hslot
      exact hslot.chain List.nodup_nil
    show Pushed (fun a => ((s.comm.ensureInit req).tcmd a).next) ((s.comm.ensureInit req).cmdlist k) _
    rw [ensureInit_tcmd, ensureInit_cmdlist hempty]
    exact h.slots k
  devices := h.devices
  fresh hinit := absurd ((ensureInit_hasInit req s.comm).symm.trans hinit) (by decide)

/-- **`RegisterCmd`** pushes an item that it accepts. -/
theorem ChainsOf.registerCmd (h : ChainsOf tcmd s items devices) (req : Option Addr) (a : Addr) :
    ChainsOf tcmd { s with comm := (Start01.registerCmd req s.comm (some a)).2 }
      (((BindOp.registerCmd (some a)).accepted tcmd).toList ++ items) devices := by
  obtain ⟨p, hp⟩ := h.object a
  have hguard : guarded (s.comm.tcmd a).dir (s.comm.tcmd a).cmd
      = guarded (tcmd a).dir (tcmd a).cmd := by rw [hp]
  have hi := h.ensureInit req
  rcases registerCmd_cases req s.comm a with ⟨hg, hr⟩ | ⟨hg, ts, hr⟩
  · rw [hr, BindOp.accepted, ← hguard, hg, if_neg Bool.false_ne_true]
    exact hi
  · rw [hr, BindOp.accepted, ← hguard, hg, if_pos rfl]
    have hslot : (s.comm.tcmd a).slot = (tcmd a).slot := by rw [hp]; rfl
    have hobject := registerCmd_object h.object req a
    rw [hr] at hobject
    refine ⟨hobject, fun k => ?_, h.devices, fun hinit => ?_⟩
    · have hpushed : Pushed (fun b => ((s.comm.ensureInit req).tcmd b).next)
          ((s.comm.ensureInit req).cmdlist k) (items.filter fun b => (tcmd b).slot == k) := hi.slots k
      rw [ensureInit_tcmd] at hpushed
      show Pushed (fun b => (Function.update s.comm.tcmd a _ b).next)
        (Function.update (s.comm.ensureInit req).cmdlist (s.comm.tcmd a).slot (some a) k)
        ((a :: items).filter _)
      rw [next_update, hslot]
      by_cases hk : (tcmd a).slot = k
      · subst hk
        rw [Function.update_self, List.filter_cons_of_pos (by simp)]
        exact hpushed.push a
      · -- the item is on no chain of another slot
        rw [Function.update_of_ne (Ne.symm hk), List.filter_cons_of_neg (by simpa using hk)]
        refine hpushed.frame (fun ha => hk ?_) _
        exact eq_of_beq (List.mem_filter.mp ha).2
    · exact absurd ((ensureInit_hasInit req s.comm).symm.trans hinit) (by decide)

theorem ChainsOf.registerAutoVar (h : ChainsOf tcmd s items devices) (req : Option Addr)
    (cmd varSize : UInt8) (varAddr : Option Addr) (varType : UInt8) :
    ChainsOf tcmd
      { s with comm := (Start01.registerAutoVar req s.comm cmd varSize varAddr varType).2 }
      items devices := by
  have hi := h.ensureInit req
  unfold Start01.registerAutoVar
  dsimp only
  split_ifs <;> exact ⟨hi.object, hi.slots, hi.devices, hi.fresh⟩

/-- **`Param_Register_Device`** pushes the device. -/
theorem ChainsOf.paramRegisterDevice (h : ChainsOf tcmd s items devices) (device : Option Addr) :
    ChainsOf tcmd { s with pcfg := (Start01.paramRegisterDevice s.pcfg device).2 }
      items (device.toList ++ devices) := by
  cases device with
  | none => exact h
  | some d =>
    obtain ⟨cells, hp⟩ := paramRegisterDevice_snd s.pcfg d
    refine ⟨h.object, h.slots, ?_, h.fresh⟩
    rw [hp]
    show Pushed (ParamDevice.next ∘ Function.update s.pcfg.devs d _) (some d) (d :: devices)
    rw [Function.comp_update]
    exact h.devices.push d

/-- A message leaves all links alone. -/
theorem ChainsOf.cmdService (h : ChainsOf tcmd s items devices) {fuel : ℕ} {src : TDataChan}
    {msg : TCommMsg} {ack ret : Bool} {s' : Sys} {ev : List Event}
    (hs : Start01.cmdService fuel s src msg ack = some (ret, s', ev)) :
    ChainsOf tcmd s' items devices := by
  obtain ⟨ts, hcomm⟩ := cmdService_comm hs
  obtain ⟨cells, hpcfg⟩ := cmdService_pcfg hs
  constructor
  · rw [hcomm]; exact h.object
  · rw [hcomm]; exact h.slots
  · rw [hpcfg]; exact h.devices
  · rw [hcomm]; exact h.fresh

/-! ### What returns -/

theorem ChainsOf.request_isSome (h : ChainsOf tcmd s items devices) (hnd : devices.Nodup)
    {fuel : ℕ} (hfuel : devices.length ≤ fuel) (name : List UInt8) :
    (paramDevRequest fuel s.pcfg name).isSome := by
  rw [paramDevRequest, (h.devices.chain hnd).find_eq _ hfuel]
  rfl

theorem ChainsOf.cmdService_isSome (h : ChainsOf tcmd s items devices) (hnd : items.Nodup)
    {fuel : ℕ} (hfuel : items.length ≤ fuel) (src : TDataChan) (msg : TCommMsg) (ack : Bool) :
    (Start01.cmdService fuel s src msg ack).isSome := by
  cases hgo : s.comm.hasInit && guarded msg.dir msg.cmd with
  | false =>
    rw [cmdService_of_not_guard hgo]
    rfl
  | true =>
    have hlen := (List.length_filter_le
      (fun a => (tcmd a).slot == slot msg.dir.toNat msg.cmd.toNat) items).trans hfuel
    have hchain := (h.slots (slot msg.dir.toNat msg.cmd.toNat)).chain (hnd.filter _)
    rw [cmdService_of_guard hgo, hchain.walk_eq _ _ hlen]
    rfl

/-- **`Cmd_Service` hangs** on a message to a slot where an item was accepted twice. -/
theorem ChainsOf.cmdService_hangs (h : ChainsOf tcmd s items devices) {msg : TCommMsg}
    (hguard : guarded msg.dir msg.cmd = true)
    (hdup : ¬ (items.filter fun a => (tcmd a).slot == slot msg.dir.toNat msg.cmd.toNat).Nodup)
    (fuel : ℕ) (src : TDataChan) (ack : Bool) : Start01.cmdService fuel s src msg ack = none := by
  have hinit : s.comm.hasInit = true := by
    by_contra hinit
    rw [h.fresh (Bool.eq_false_iff.mpr hinit)] at hdup
    exact hdup List.nodup_nil
  obtain ⟨S, -, hend⟩ := (h.slots _).endless hdup
  rw [cmdService_of_guard (by rw [hinit, hguard]; rfl), hend.walk_eq_none]
  rfl

/-- All chains are finite iff nothing has been linked in twice. -/
theorem ChainsOf.finite_iff (h : ChainsOf tcmd s items devices) :
    FiniteChains s ↔ items.Nodup ∧ devices.Nodup := by
  constructor
  · rintro ⟨hitems, hdevices⟩
    refine ⟨?_, h.devices.finite_iff.mp hdevices⟩
    -- an item that is there twice is twice among those of its slot
    by_contra hdup
    obtain ⟨a, ha⟩ := List.exists_duplicate_iff_not_nodup.mpr hdup
    have hslot := (h.slots (tcmd a).slot).finite_iff.mp (hitems _)
    rw [List.duplicate_iff_sublist] at ha
    have htwo := (ha.filter fun b => (tcmd b).slot == (tcmd a).slot).nodup hslot
    simp at htwo
  · rintro ⟨hitems, hdevices⟩
    exact ⟨fun k => (h.slots k).finite_iff.mpr (hitems.filter _), h.devices.finite_iff.mpr hdevices⟩

end Step

/-! ### Runs -/

section Run

variable {tcmd : Addr → TCmd} {b : BindState} {items devices : List Addr} {fuel : ℕ}

/-- **Step.**  Every call keeps the account of what has been linked in. -/
theorem bindStep_chains {op : BindOp} {b' : BindState} {o : List Served}
    (h : ChainsOf tcmd b.sys items devices) (hstep : bindStep fuel b op = some (b', o)) :
    ChainsOf tcmd b'.sys ((op.accepted tcmd).toList ++ items) (op.device.toList ++ devices) := by
  cases op with
  | paramRegisterDevice device =>
    obtain ⟨rfl, -⟩ := Prod.mk.injEq .. ▸ Option.some.inj hstep
    exact h.paramRegisterDevice device
  | registerCmd item =>
    cases item with
    | none =>
      obtain ⟨rfl, -⟩ := Prod.mk.injEq .. ▸ Option.some.inj hstep
      exact h
    | some a =>
      obtain ⟨⟨req, known⟩, -, heq⟩ := Option.map_eq_some_iff.mp hstep
      obtain ⟨rfl, -⟩ := Prod.mk.injEq .. ▸ heq
      exact h.registerCmd req a
  | registerAutoVar cmd varSize varAddr varType =>
    obtain ⟨⟨req, known⟩, -, heq⟩ := Option.map_eq_some_iff.mp hstep
    obtain ⟨rfl, -⟩ := Prod.mk.injEq .. ▸ heq
    exact h.registerAutoVar req cmd varSize varAddr varType
  | message src msg ack =>
    obtain ⟨⟨ret, s', ev⟩, hserve, heq⟩ := Option.map_eq_some_iff.mp hstep
    obtain ⟨rfl, -⟩ := Prod.mk.injEq .. ▸ heq
    exact h.cmdService hserve

/-- A call returns while nothing has been linked in twice. -/
theorem bindStep_isSome (h : ChainsOf tcmd b.sys items devices) (hitems : items.Nodup)
    (hdevices : devices.Nodup) (hi : items.length ≤ fuel) (hd : devices.length ≤ fuel) (op : BindOp) :
    (bindStep fuel b op).isSome := by
  have hinit : (initRequest fuel b).isSome := by
    unfold initRequest
    split
    · rfl
    · rw [Option.isSome_map]
      exact h.request_isSome hdevices hd _
  cases op with
  | paramRegisterDevice device => rfl
  | registerCmd item =>
    cases item with
    | none => rfl
    | some a => rwa [bindStep, Option.isSome_map]
  | registerAutoVar cmd varSize varAddr varType => rwa [bindStep, Option.isSome_map]
  | message src msg ack =>
    rw [bindStep, Option.isSome_map]
    exact h.cmdService_isSome hitems hi src msg ack

/-- What is linked in behind one more call. -/
theorem reverse_filterMap_cons (f : BindOp → Option Addr) (op : BindOp) (ops : List BindOp)
    (l : List Addr) :
    ((op :: ops).filterMap f).reverse ++ l = (ops.filterMap f).reverse ++ ((f op).toList ++ l) := by
  cases hf : f op with
  | none => rw [List.filterMap_cons_none hf]; rfl
  | some a => rw [List.filterMap_cons_some hf, List.reverse_cons, List.append_assoc]; rfl

/-- **Run.**  What the calls have linked in. -/
theorem run_chains (ops : List BindOp) :
    ∀ {b b' : BindState} {items devices : List Addr} {rs : List Served},
      ChainsOf tcmd b.sys items devices → run (bindStep fuel) b ops = some (b', rs) →
      ChainsOf tcmd b'.sys ((ops.filterMap (BindOp.accepted tcmd)).reverse ++ items)
        ((ops.filterMap BindOp.device).reverse ++ devices) := by
  induction ops with
  | nil =>
    intro b b' items devices rs h hrun
    obtain ⟨rfl, -⟩ := Prod.mk.injEq .. ▸ Option.some.inj hrun
    exact h
  | cons op ops ih =>
    intro b b' items devices rs h hrun
    obtain ⟨b₁, o₁, o₂, hstep, hrest, -⟩ := run_cons_eq_some.mp hrun
    rw [reverse_filterMap_cons, reverse_filterMap_cons]
    exact ih (bindStep_chains h hstep) hrest

/-- … and a run returns when nothing is linked in twice. -/
theorem run_isSome (ops : List BindOp) :
    ∀ {b : BindState} {items devices : List Addr}, ChainsOf tcmd b.sys items devices →
      ((ops.filterMap (BindOp.accepted tcmd)).reverse ++ items).Nodup →
      ((ops.filterMap BindOp.device).reverse ++ devices).Nodup →
      ((ops.filterMap (BindOp.accepted tcmd)).reverse ++ items).length ≤ fuel →
      ((ops.filterMap BindOp.device).reverse ++ devices).length ≤ fuel →
      ∃ b' rs, run (bindStep fuel) b ops = some (b', rs) := by
  induction ops with
  | nil => exact fun _ _ _ _ _ => ⟨_, _, rfl⟩
  | cons op ops ih =>
    intro b items devices h hitems hdevices hi hd
    rw [reverse_filterMap_cons] at hitems hdevices hi hd
    -- what is there before the call is part of what is there in the end
    have hi' : items.length ≤ fuel := by
      simp only [List.length_append] at hi
      omega
    have hd' : devices.length ≤ fuel := by
      simp only [List.length_append] at hd
      omega
    have hcall : (bindStep fuel b op).isSome :=
      bindStep_isSome h (hitems.of_append_right.of_append_right)
        (hdevices.of_append_right.of_append_right) hi' hd' op
    obtain ⟨⟨b₁, o₁⟩, hstep⟩ := Option.isSome_iff_exists.mp hcall
    obtain ⟨b', rs, hrest⟩ := ih (bindStep_chains h hstep) hitems hdevices hi hd
    exact ⟨b', _, run_cons_eq_some.mpr ⟨b₁, o₁, rs, hstep, hrest, rfl⟩⟩

end Run

/-- **The chains.**  For every sequence of registrations and messages: the calls return, all chains
are finite, and every walk and every search on them returns, iff no item is accepted twice and no
device is registered twice. -/
theorem chainsEnd_iff (tcmd : Addr → TCmd) (devs : Addr → ParamDevice) (cells : Addr → Store)
    (mem : Addr → UInt8) (ops : List BindOp) :
    ChainsEnd (.reset tcmd devs cells mem) ops ↔
      (ops.filterMap (BindOp.accepted tcmd)).Nodup ∧ (ops.filterMap BindOp.device).Nodup := by
  have hstart := chainsOf_reset tcmd devs cells mem
  constructor
  · rintro ⟨n, hn⟩
    obtain ⟨b, rs, hrun, hfinite, -⟩ := hn n le_rfl
    obtain ⟨hitems, hdevices⟩ := (run_chains ops hstart hrun).finite_iff.mp hfinite
    rw [List.append_nil, List.nodup_reverse] at hitems hdevices
    exact ⟨hitems, hdevices⟩
  · rintro ⟨hitems, hdevices⟩
    -- no chain has more objects than there were calls
    refine ⟨ops.length, fun fuel hfuel => ?_⟩
    have hnd : ((ops.filterMap (BindOp.accepted tcmd)).reverse ++ []).Nodup := by simpa using hitems
    have hnd' : ((ops.filterMap BindOp.device).reverse ++ []).Nodup := by simpa using hdevices
    have hlen : ∀ f : BindOp → Option Addr, ((ops.filterMap f).reverse ++ []).length ≤ fuel := by
      intro f
      rw [List.append_nil, List.length_reverse]
      exact (List.length_filterMap_le f ops).trans hfuel
    obtain ⟨b, rs, hrun⟩ := run_isSome ops hstart hnd hnd' (hlen _) (hlen _)
    have hend := run_chains ops hstart hrun
    exact ⟨b, rs, hrun, hend.finite_iff.mpr ⟨hnd, hnd'⟩, hend.cmdService_isSome hnd (hlen _),
      hend.request_isSome hnd' (hlen _)⟩

/-- An item is registered twice, or a device: the chain does not end.  Behind the item no message
to its slot is served, whatever the fuel. -/
theorem chainsEnd_not_twice :
    let start : BindState :=
      .reset (fun _ => ⟨1, 8, none, none⟩) (fun _ => fm25l16Device) (fun _ _ => 0) fun _ => 0
    ¬ ChainsEnd start [.registerCmd (some 0), .registerCmd (some 0)] ∧
    ¬ ChainsEnd start [.paramRegisterDevice (some 0), .paramRegisterDevice (some 0)] ∧
    ∃ b, run (bindStep 1) start [.registerCmd (some 0), .registerCmd (some 0)] = some (b, []) ∧
      ∀ fuel, cmdService fuel b.sys chanEth0 ⟨0, 1, 8, fun _ => 0⟩ true = none := by
  intro start
  have hstart := chainsOf_reset (fun _ => ⟨1, 8, none, none⟩) (fun _ => fm25l16Device)
    (fun _ _ => 0) fun _ => 0
  refine ⟨fun ⟨n, hn⟩ => ?_, fun ⟨n, hn⟩ => ?_, ?_⟩
  · obtain ⟨b, rs, hrun, hfinite, -⟩ := hn n le_rfl
    exact absurd ((run_chains _ hstart hrun).finite_iff.mp hfinite).1 (by decide)
  · obtain ⟨b, rs, hrun, hfinite, -⟩ := hn n le_rfl
    exact absurd ((run_chains _ hstart hrun).finite_iff.mp hfinite).2 (by decide)
  · obtain ⟨b, hrun⟩ : ∃ b, run (bindStep 1) start
        [.registerCmd (some 0), .registerCmd (some 0)] = some (b, []) := ⟨_, rfl⟩
    exact ⟨b, hrun, fun fuel =>
      (run_chains _ hstart hrun).cmdService_hangs rfl (by decide) fuel _ _⟩

end Start01
